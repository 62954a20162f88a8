import PdMasking.Codec
import PdMasking.Lib.Service
import PdMasking.RedisStore
import PdMasking.Retry

/-!
# PdMasking.Deployment — the service over the stores that `build_store` assembles (`main.py`)

`build_store` gives the processor a `MemoryStore`, or a `FallbackStore` with a `RedisStore` before a `MemoryStore`.
Here both run as they are: encoded records, the clock, expiry, eviction, the commands of Redis and their failures.

* `Memory.serve_refines`, `deployedStep_refines`: while nothing expires and the ids fit into the memory, a store
  answers as plain maps do.
* `memory_service`, `deployed_service`: so does the service, over whole runs.
* `deployed_service_steady`: with Redis up all the time, or down all the time, it answers as over one map.
-/

namespace PdMasking

open Recency

/-- The key of an operation. -/
def StoreOp.key : StoreOp → Str
  | get key => key
  | putIfAbsent key _ => key
  | put key _ => key

/-! ### The store in memory as a map -/

/-- The items of a `MemoryStore`, and how many readings there were. -/
structure Memory (T Blob : Type) where
  items : Items T Blob
  readings : ℕ

section Memory

variable {T Blob Nonce : Type} [LinearOrder T] [Add T] (S : MemoryStore T Blob Nonce) (readings : Readings T Nonce)

/-- One operation of the store. -/
def Memory.serve : (op : StoreOp) → Memory T Blob → op.Res × Memory T Blob
  | .get key, m =>
    let r := S.get m.items key (readings.clock m.readings)
    (r.1, ⟨r.2, m.readings + 1⟩)
  | .putIfAbsent key record, m =>
    let r := S.putIfAbsent m.items key record (readings.nonce m.readings) (readings.clock m.readings)
      (readings.clock (m.readings + 1))
    (r.1, ⟨r.2, m.readings + 2⟩)
  | .put key record, m =>
    (.ok (), ⟨S.put m.items key record (readings.nonce m.readings) (readings.clock m.readings), m.readings + 1⟩)

/-- The items hold the records of the map, for keys among `K`, and none of them expires before a time that is
ever read. -/
structure Memory.Holds (K : Finset Str) (items : Items T Blob) (s : MapStore) : Prop where
  keys : (items.map Prod.fst).Nodup
  within : ∀ x ∈ items, x.1 ∈ K
  lasting : ∀ x ∈ items, ∀ i, readings.clock i ≤ x.2.1
  records : ∀ key, (newest key items).map (fun x => S.codec.decode key x.2.2) = (s key).map .ok

variable {S readings} {K : Finset Str} {items : Items T Blob} {s : MapStore}

namespace Memory

omit [Add T] in
theorem holds_empty : Holds S readings K [] (fun _ => none) where
  keys := List.nodup_nil
  within := List.forall_mem_nil _
  lasting := List.forall_mem_nil _
  records := fun _ => rfl

omit [Add T] in
/-- A lookup finds the record of the map and removes nothing. -/
theorem Holds.get (h : Holds S readings K items s) (key : Str) (i : ℕ) :
    S.get items key (readings.clock i) = (.ok (s key), items) := by
  have hrecord := h.records key
  rcases MemoryStore.get_spec S items key (readings.clock i) with ⟨hx, hget⟩ | ⟨x, hx, hlt, -⟩ | ⟨x, hx, -, hget⟩
  · rw [hx] at hrecord
    rw [hget, Option.map_eq_none_iff.mp hrecord.symm]
  · exact absurd hlt (not_lt.mpr (h.lasting x (newest_some hx).1 i))
  · rw [hx] at hrecord
    obtain ⟨record, hs, hdecode⟩ := Option.map_eq_some_iff.mp hrecord.symm
    dsimp only at hdecode
    rw [hget, hs, ← hdecode]
    rfl

/-- There is room for the keys among `K`. -/
theorem Holds.put_eq (h : Holds S readings K items s) (hroom : K.card ≤ S.maxItems) {key : Str} (hkey : key ∈ K)
    (record : MappingRecord) (nonce : Nonce) (t : T) :
    S.put items key record nonce t = without key items ++ [(key, t + S.ttl, S.codec.encode nonce key record)] := by
  have hkeys : ((without key items ++ [(key, t + S.ttl, S.codec.encode nonce key record)]).map Prod.fst).Nodup := by
    rw [List.map_append]
    refine (List.perm_append_singleton key _).nodup_iff.mpr ?_
    exact nodup_keys_push (k := key) (a := (t + S.ttl, S.codec.encode nonce key record)) h.keys
  have hlen : (without key items ++ [(key, t + S.ttl, S.codec.encode nonce key record)]).length ≤ S.maxItems := by
    rw [← List.length_map Prod.fst, ← List.toFinset_card_of_nodup hkeys]
    refine (Finset.card_le_card ?_).trans hroom
    intro k hk
    rw [List.mem_toFinset, List.map_append, List.mem_append] at hk
    rcases hk with hk | hk
    · obtain ⟨x, hx, rfl⟩ := List.mem_map.mp hk
      exact h.within x ((without_sublist key items).subset hx)
    · rwa [List.mem_singleton.mp hk]
  unfold MemoryStore.put
  rw [MemoryStore.moveToEnd_setItem h.keys, MemoryStore.evict_eq, Nat.sub_eq_zero_of_le hlen, List.drop_zero]

theorem Holds.put (h : Holds S readings K items s) (hcodec : S.codec.Lossless)
    (hclock : ∀ i j, readings.clock i ≤ readings.clock j + S.ttl) (hroom : K.card ≤ S.maxItems) {key : Str}
    (hkey : key ∈ K) (record : MappingRecord) (nonce : Nonce) (j : ℕ) :
    Holds S readings K (S.put items key record nonce (readings.clock j)) (Function.update s key (some record)) := by
  rw [h.put_eq hroom hkey]
  have hsub := (without_sublist key items).subset
  constructor
  · rw [List.map_append]
    refine (List.perm_append_singleton key _).nodup_iff.mpr ?_
    exact nodup_keys_push (k := key) (a := (readings.clock j + S.ttl, S.codec.encode nonce key record)) h.keys
  · intro x hx
    rcases List.mem_append.mp hx with hx | hx
    · exact h.within x (hsub hx)
    · rwa [List.mem_singleton.mp hx]
  · intro x hx i
    rcases List.mem_append.mp hx with hx | hx
    · exact h.lasting x (hsub hx) i
    · rw [List.mem_singleton.mp hx]
      exact hclock i j
  · intro k
    by_cases hk : k = key
    · subst hk
      have hnone : newest k (without k items) = none := by
        unfold newest
        rw [List.find?_eq_none]
        intro x hx
        simpa using (mem_without.mp hx).2
      have hnew : newest k (without k items ++ [(k, readings.clock j + S.ttl, S.codec.encode nonce k record)]) =
          some (k, readings.clock j + S.ttl, S.codec.encode nonce k record) := by
        unfold newest at hnone ⊢
        rw [List.find?_append, hnone]
        simp
      rw [hnew, Function.update_self, Option.map_some, Option.map_some, hcodec]
    · have hold : newest k (without key items ++ [(key, readings.clock j + S.ttl, S.codec.encode nonce key record)]) =
          newest k (without key items) := by
        unfold newest
        rw [List.find?_append]
        simp [Ne.symm hk]
      rw [hold, newest_without_of_ne hk, Function.update_of_ne hk]
      exact h.records k

/-- **The store in memory refines a map**, while nothing expires and the keys fit into it. -/
theorem serve_refines (hcodec : S.codec.Lossless) (hclock : ∀ i j, readings.clock i ≤ readings.clock j + S.ttl)
    (hroom : K.card ≤ S.maxItems) (op : StoreOp) (hop : op.key ∈ K) {m : Memory T Blob}
    (h : Holds S readings K m.items s) :
    (serve S readings op m).1 = (mapStep op s).1 ∧ Holds S readings K (serve S readings op m).2.items (mapStep op s).2 := by
  cases op with
  | get key =>
    have hget := h.get key m.readings
    show (S.get m.items key (readings.clock m.readings)).1 = Except.ok (s key) ∧
      Holds S readings K (S.get m.items key (readings.clock m.readings)).2 s
    rw [hget]
    exact ⟨rfl, h⟩
  | putIfAbsent key record =>
    have hget := h.get key m.readings
    have hkey : key ∈ K := hop
    have hput := h.put hcodec hclock hroom hkey record (readings.nonce m.readings) (m.readings + 1)
    show (S.putIfAbsent m.items key record (readings.nonce m.readings) (readings.clock m.readings)
        (readings.clock (m.readings + 1))).1 = (mapStep (.putIfAbsent key record) s).1 ∧
      Holds S readings K (S.putIfAbsent m.items key record (readings.nonce m.readings) (readings.clock m.readings)
        (readings.clock (m.readings + 1))).2 (mapStep (.putIfAbsent key record) s).2
    unfold MemoryStore.putIfAbsent
    rw [hget]
    cases hs : s key with
    | none =>
      have hstep : mapStep (.putIfAbsent key record) s = (.ok true, Function.update s key (some record)) := by
        rw [mapStep, hs]
        rfl
      rw [hstep]
      exact ⟨rfl, hput⟩
    | some stored =>
      have hstep : mapStep (.putIfAbsent key record) s = (.ok false, s) := by
        rw [mapStep, hs]
        rfl
      rw [hstep]
      exact ⟨rfl, h⟩
  | put key record => exact ⟨rfl, h.put hcodec hclock hroom hop record _ _⟩

end Memory

end Memory

/-! ### The operations of a request -/

/-- A request uses the store under its id only. -/
theorem calls_existing (P : Processor) (id payload : Str) (record : MappingRecord) (policy : SystemPolicy) :
    Prog.Calls (fun op => op.key = id) (P.existing id payload record policy).run := by
  rw [P.existing_eq]
  rcases P.answer payload record policy with e | ⟨outcome, _ | newRecord⟩
  · exact trivial
  · exact trivial
  · refine ⟨rfl, ?_⟩
    rintro (e | u) <;> exact trivial

theorem calls_process (P : Processor) (id payload : Str) (policy : SystemPolicy) :
    Prog.Calls (fun op => op.key = id) (P.process id payload policy).run := by
  rw [P.process_eq]
  refine ⟨rfl, ?_⟩
  rintro (e | _ | record)
  · exact trivial
  · show Prog.Calls _ (P.afterLookup id payload policy none).run
    unfold Processor.afterLookup
    rcases P.mask payload policy with e | ⟨outcome, record⟩
    · exact trivial
    · refine ⟨rfl, ?_⟩
      rintro (e | _ | _)
      · exact trivial
      · refine ⟨rfl, ?_⟩
        rintro (e | _ | stored)
        · exact trivial
        · exact trivial
        · exact calls_existing P id payload stored policy
      · exact trivial
  · exact calls_existing P id payload record policy

/-- The key of an operation on one of the two copies. -/
def BackendOp.key : BackendOp → Str
  | primary op => op.key
  | fallback op => op.key

theorem calls_handleError (op : StoreOp) (exc : PyExc) :
    Prog.Calls (fun b => b.key = op.key) (FallbackStore.handleError op exc) := by
  unfold FallbackStore.handleError
  split_ifs
  · refine ⟨rfl, ?_⟩
    rintro (retryExc | value)
    · show Prog.Calls _ (if handled retryExc then _ else _)
      split_ifs
      · exact trivial
      · exact ⟨rfl, fun _ => trivial⟩
      · exact trivial
    · exact trivial
  · exact ⟨rfl, fun _ => trivial⟩

/-- The store with two copies passes the key on. -/
theorem calls_handler (op : StoreOp) : Prog.Calls (fun b => b.key = op.key) (FallbackStore.handler op) := by
  rw [handler_eq]
  refine ⟨rfl, ?_⟩
  rintro (exc | value)
  · show Prog.Calls _ (if handled exc then FallbackStore.handleError op exc else _)
    split_ifs
    · exact calls_handleError op exc
    · exact trivial
  · cases op with
    | get key =>
      cases value with
      | none => exact ⟨rfl, fun _ => trivial⟩
      | some record => exact trivial
    | putIfAbsent key record => exact trivial
    | put key record => exact trivial

/-! ### The assembled stores -/

/-- The stores of `build_store`, which share the codec and the time to live, and what the worker and the Redis server
read from outside. -/
structure Stores (T Blob Nonce : Type) where
  codec : RecordCodec Blob Nonce
  ttl : T
  maxItems : ℕ
  worker : Readings T Nonce
  server : Readings T Nonce

/-- The contents of a `FallbackStore`: Redis, and the items of the fallback. -/
structure Deployed (T Blob : Type) where
  redis : Redis T Blob
  memory : Memory T Blob

section Deployed

variable {T Blob Nonce : Type} (D : Stores T Blob Nonce)

/-- `MemoryStore(codec, settings.mapping_ttl_seconds)` -/
def Stores.memory : MemoryStore T Blob Nonce := ⟨D.codec, D.ttl, D.maxItems⟩

/-- `RedisStore(settings.redis_url, codec, settings.mapping_ttl_seconds, ..)` -/
def Stores.redis : RedisStore T Blob Nonce := ⟨D.codec, D.ttl⟩

variable [LinearOrder T] [Add T]

/-- One operation on one of the two copies. -/
def deployedStep (plan : RedisPlan) : (op : BackendOp) → Deployed T Blob → op.Res × Deployed T Blob
  | .primary op, d =>
    let r := D.redis.serve plan D.server op d.redis
    (r.1, ⟨r.2, d.memory⟩)
  | .fallback op, d =>
    let r := Memory.serve D.memory D.worker op d.memory
    (r.1, ⟨d.redis, r.2⟩)

/-- The whole run stays within one TTL: no two readings of a clock are further apart, so that no record expires, renewed
or not.  The keys among `K` fit into the memory. -/
structure Stores.Lasting (K : Finset Str) : Prop where
  lossless : D.codec.Lossless
  worker : ∀ i j, D.worker.clock i ≤ D.worker.clock j + D.ttl
  server : ∀ i j, D.server.clock i ≤ D.server.clock j + D.ttl
  room : K.card ≤ D.maxItems

/-- The copies hold the records of two maps. -/
structure Deployed.Holds (K : Finset Str) (d : Deployed T Blob) (b : Backend) : Prop where
  primary : D.redis.Holds D.server d.redis b.primary
  fallback : Memory.Holds D.memory D.worker K d.memory.items b.fallback
  calls : d.redis.calls = b.calls

/-- Empty stores. -/
def Deployed.empty : Deployed T Blob := ⟨⟨fun _ => none, 0⟩, ⟨[], 0⟩⟩

def Backend.empty : Backend := ⟨fun _ => none, fun _ => none, 0⟩

variable {D} {K : Finset Str}

omit [Add T] in
theorem Deployed.holds_empty : Deployed.Holds D K Deployed.empty Backend.empty where
  primary := ⟨fun _ => rfl, by rintro key e ⟨⟩⟩
  fallback := Memory.holds_empty
  calls := rfl

/-- A call of the primary, as a map that may fail. -/
theorem backendStep_primary (plan : Plan) (op : StoreOp) (b : Backend) : backendStep plan (.primary op) b =
    ((planStep (plan b.calls) op b.primary).1, ⟨(planStep (plan b.calls) op b.primary).2, b.fallback, b.calls + 1⟩) := by
  cases hplan : plan b.calls with
  | none => exact backendStep_up hplan op
  | some failure => exact backendStep_down hplan op

/-- **The two stores refine two maps**, with the same failures of the primary. -/
theorem deployedStep_refines (hD : D.Lasting K) (plan : RedisPlan) (op : BackendOp) (hop : op.key ∈ K)
    {d : Deployed T Blob} {b : Backend} (h : Deployed.Holds D K d b) :
    (deployedStep D plan op d).1 = (backendStep plan.raised op b).1 ∧
      Deployed.Holds D K (deployedStep D plan op d).2 (backendStep plan.raised op b).2 := by
  cases op with
  | primary op =>
    have hredis : D.redis.codec.Lossless := hD.lossless
    obtain ⟨hresult, hheld, hcalls⟩ := RedisStore.serve_refines hredis hD.server plan op h.primary
    rw [h.calls] at hresult hheld hcalls
    rw [backendStep_primary]
    exact ⟨hresult, ⟨hheld, h.fallback, hcalls⟩⟩
  | fallback op =>
    have hmemory : D.memory.codec.Lossless := hD.lossless
    obtain ⟨hresult, hheld⟩ := Memory.serve_refines hmemory hD.worker hD.room op hop h.fallback
    exact ⟨hresult, ⟨h.primary, hheld, h.calls⟩⟩

end Deployed

/-! ### A deployment -/

/-- A cipher that leaves the data as it is. -/
def plainAead : Aead where
  encrypt _ data _ := data
  decrypt _ data _ := some data
  decrypt_encrypt _ _ _ := rfl

/-- Clocks that read the seconds since the start, within a quarter of an hour. -/
def sampleReadings : Readings ℕ Nonce where
  clock i := min i 900
  nonce _ := ⟨⟨Array.replicate NONCE_SIZE 0⟩, Array.size_replicate⟩

/-- `InvalidTag` and the errors of `json` are all the same here. -/
def sampleRaised (_ : Str) (_ : ByteArray) : PyExc := .valueError

def sampleStores : Stores ℕ ByteArray Nonce :=
  ⟨Codec.recordCodec plainAead sampleRaised, 900, 2, sampleReadings, sampleReadings⟩

def sampleRequests : List Request :=
  [⟨"1".toList, "a@b.ru ok".toList, systems.default⟩, ⟨"2".toList, "c@d.ru".toList, systems.analytics⟩,
    ⟨"1".toList, "*@*.** ok".toList, systems.default⟩]

theorem sampleStores_lasting : sampleStores.Lasting {"1".toList, "2".toList} where
  lossless := Codec.recordCodec_lossless plainAead sampleRaised
  worker i j := (min_le_right i 900).trans (Nat.le_add_left 900 _)
  server i j := (min_le_right i 900).trans (Nat.le_add_left 900 _)
  room := by decide

theorem sampleRequests_ids : ∀ r ∈ sampleRequests, r.payloadId ∈ ({"1".toList, "2".toList} : Finset Str) := by
  intro r hr
  rcases List.mem_cons.mp hr with rfl | hr
  · decide
  · rcases List.mem_cons.mp hr with rfl | hr
    · decide
    · rw [List.mem_singleton.mp hr]
      decide

/-- Redis comes and goes. -/
def comingAndGoing : RedisPlan := fun i => if i % 3 = 1 then some (.timeout, true) else none

/-! ### The service -/

section Service

variable {T Blob Nonce : Type} [LinearOrder T] [Add T] (P : Processor) (D : Stores T Blob Nonce) (plan : RedisPlan)

/-- A request with `STORAGE_BACKEND` other than `redis`. -/
def serveMemory (m : Memory T Blob) (r : Request) : Response × Memory T Blob :=
  Prog.exec (Memory.serve D.memory D.worker) (P.process r.payloadId r.payload r.policy) m

/-- A request with `STORAGE_BACKEND=redis`. -/
def serveDeployed (d : Deployed T Blob) (r : Request) : Response × Deployed T Blob :=
  Prog.run (deployedStep D plan) (Prog.interp FallbackStore.handler (P.process r.payloadId r.payload r.policy).run) d

variable {D} {K : Finset Str} {rs : List Request}

/-- **The service over the store in memory answers every run as over a map**, as long as no record expires and the
ids fit into the memory. -/
theorem memory_service (hD : D.Lasting K) (hK : ∀ r ∈ rs, r.payloadId ∈ K) :
    (Service.run (serveMemory P D) ⟨[], 0⟩ rs).log = (Service.run P.serve (fun _ => none) rs).log := by
  refine (Service.run_sim (A := fun r => r.payloadId ∈ K)
    (R := fun (m : Memory T Blob) s => Memory.Holds D.memory D.worker K m.items s) ?_ Memory.holds_empty hK).1
  intro m s r hr h
  have hop : ∀ op (m : Memory T Blob) s, op.key = r.payloadId → Memory.Holds D.memory D.worker K m.items s →
      (Memory.serve D.memory D.worker op m).1 = (mapStep op s).1 ∧
        Memory.Holds D.memory D.worker K (Memory.serve D.memory D.worker op m).2.items (mapStep op s).2 :=
    fun op m s hop h => Memory.serve_refines hD.lossless hD.worker hD.room op (hop ▸ hr) h
  exact Prog.run_sim_calls hop (calls_process P r.payloadId r.payload r.policy) h

theorem memory_service_sample :
    (Service.run (serveMemory sample sampleStores) ⟨[], 0⟩ sampleRequests).log =
      (Service.run sample.serve (fun _ => none) sampleRequests).log :=
  memory_service sample sampleStores_lasting sampleRequests_ids

/-- One request over the stores, and over two maps. -/
theorem serveDeployed_refines (hD : D.Lasting K) {r : Request} (hr : r.payloadId ∈ K) {d : Deployed T Blob}
    {b : Backend} (h : Deployed.Holds D K d b) :
    (serveDeployed P D plan d r).1 = (attempt P plan.raised r b).1 ∧
      Deployed.Holds D K (serveDeployed P D plan d r).2 (attempt P plan.raised r b).2 := by
  have hop : ∀ op d b, op.key = r.payloadId → Deployed.Holds D K d b →
      (deployedStep D plan op d).1 = (backendStep plan.raised op b).1 ∧
        Deployed.Holds D K (deployedStep D plan op d).2 (backendStep plan.raised op b).2 :=
    fun op d b hop h => deployedStep_refines hD plan op (hop ▸ hr) h
  have hhandler : ∀ op : StoreOp, op.key = r.payloadId →
      Prog.Calls (fun b => b.key = r.payloadId) (FallbackStore.handler op) := by
    intro op hkey
    rw [← hkey]
    exact calls_handler op
  exact Prog.run_sim_calls hop (Prog.calls_interp hhandler (calls_process P r.payloadId r.payload r.policy)) h

/-- **The service over the stores of `build_store` answers every run as over two maps**, whatever commands of Redis
fail and however they do. -/
theorem deployed_service (hD : D.Lasting K) (hK : ∀ r ∈ rs, r.payloadId ∈ K) :
    (Service.run (serveDeployed P D plan) Deployed.empty rs).log =
      (Service.run (fun b r => attempt P plan.raised r b) Backend.empty rs).log := by
  refine (Service.run_sim (A := fun r => r.payloadId ∈ K) (R := Deployed.Holds D K) ?_ Deployed.holds_empty hK).1
  exact fun d b r hr h => serveDeployed_refines P plan hD hr h

theorem deployed_service_sample :
    (Service.run (serveDeployed sample sampleStores comingAndGoing) Deployed.empty sampleRequests).log =
      (Service.run (fun b r => attempt sample comingAndGoing.raised r b) Backend.empty sampleRequests).log :=
  deployed_service sample comingAndGoing sampleStores_lasting sampleRequests_ids

/-- An operation while the primary is up and the fallback is empty. -/
theorem serveOp_steady_up {plan : Plan} (hplan : ∀ i, plan i = none) (op : StoreOp) {b : Backend} {s : MapStore}
    (h : b.primary = s ∧ b.fallback = fun _ => none) :
    (serveOp plan op b).1 = (mapStep op s).1 ∧
      (serveOp plan op b).2.primary = (mapStep op s).2 ∧ (serveOp plan op b).2.fallback = fun _ => none := by
  obtain ⟨rfl, hempty⟩ := h
  rw [serveOp_up (hplan _), direct_of_empty hempty]
  exact ⟨rfl, rfl, hempty⟩

/-- An operation while no connection to the primary comes about. -/
theorem serveOp_steady_down {plan : Plan}
    (hplan : ∀ i, ∃ exc effect, plan i = some (exc, effect) ∧ handled exc = true ∧ isTimeout exc = false) (op : StoreOp)
    {b : Backend} {s : MapStore} (h : b.fallback = s) :
    (serveOp plan op b).1 = (mapStep op s).1 ∧ (serveOp plan op b).2.fallback = (mapStep op s).2 := by
  obtain ⟨exc, effect, hfail, hexc, ht⟩ := hplan b.calls
  subst h
  rw [serveOp_connection hfail hexc ht]
  exact ⟨rfl, rfl⟩

/-- Every command succeeds, or every command fails and not by a timeout. -/
def RedisPlan.Steady (plan : RedisPlan) : Prop :=
  (∀ i, plan i = none) ∨ ∀ i, ∃ exc effect, plan i = some (exc, effect) ∧ exc ≠ .timeout

/-- While the primary is up, or down, one of the two maps answers as a single one does. -/
theorem attempt_steady (hplan : plan.Steady) : ∃ R : Backend → MapStore → Prop, R Backend.empty (fun _ => none) ∧
    ∀ b s r, R b s → (attempt P plan.raised r b).1 = (P.serve s r).1 ∧
      R (attempt P plan.raised r b).2 (P.serve s r).2 := by
  rcases hplan with hup | hdown
  · have hraised : ∀ i, plan.raised i = none := by
      intro i
      unfold RedisPlan.raised
      rw [hup i]
      rfl
    refine ⟨fun b s => b.primary = s ∧ b.fallback = fun _ => none, ⟨rfl, rfl⟩, ?_⟩
    intro b s r h
    rw [attempt_eq]
    have hop : ∀ op (b : Backend) s, b.primary = s ∧ (b.fallback = fun _ => none) →
        (serveOp plan.raised op b).1 = (mapStep op s).1 ∧ (serveOp plan.raised op b).2.primary = (mapStep op s).2 ∧
          (serveOp plan.raised op b).2.fallback = fun _ => none :=
      fun op b s h => serveOp_steady_up hraised op h
    exact Prog.run_sim hop (P.process r.payloadId r.payload r.policy).run h
  · have hraised : ∀ i, ∃ exc effect, plan.raised i = some (exc, effect) ∧ handled exc = true ∧
        isTimeout exc = false := by
      intro i
      obtain ⟨exc, effect, hi, hexc⟩ := hdown i
      unfold RedisPlan.raised
      rw [hi]
      refine ⟨unavailable exc, effect, rfl, ?_⟩
      cases exc with
      | timeout => exact absurd rfl hexc
      | connection => exact ⟨rfl, rfl⟩
      | other => exact ⟨rfl, rfl⟩
    refine ⟨fun b s => b.fallback = s, rfl, ?_⟩
    intro b s r h
    rw [attempt_eq]
    have hop : ∀ op (b : Backend) s, b.fallback = s → (serveOp plan.raised op b).1 = (mapStep op s).1 ∧
        (serveOp plan.raised op b).2.fallback = (mapStep op s).2 :=
      fun op b s h => serveOp_steady_down hraised op h
    exact Prog.run_sim hop (P.process r.payloadId r.payload r.policy).run h

/-- While Redis is up, or down, the stores answer as a single map does. -/
theorem serveDeployed_steady (hD : D.Lasting K) (hplan : plan.Steady) :
    ∃ R : Deployed T Blob → MapStore → Prop, R Deployed.empty (fun _ => none) ∧
      ∀ d s r, r.payloadId ∈ K → R d s → (serveDeployed P D plan d r).1 = (P.serve s r).1 ∧
        R (serveDeployed P D plan d r).2 (P.serve s r).2 := by
  obtain ⟨R, hempty, hstep⟩ := attempt_steady P plan hplan
  refine ⟨fun d s => ∃ b, Deployed.Holds D K d b ∧ R b s, ⟨Backend.empty, Deployed.holds_empty, hempty⟩, ?_⟩
  rintro d s r hr ⟨b, hheld, hrel⟩
  obtain ⟨hresponse, hheld'⟩ := serveDeployed_refines P plan hD hr hheld
  obtain ⟨hresponse', hrel'⟩ := hstep b s r hrel
  exact ⟨hresponse.trans hresponse', _, hheld', hrel'⟩

/-- **With Redis up all the time, or down all the time, the service answers every run as over one map.** -/
theorem deployed_service_steady (hD : D.Lasting K) (hK : ∀ r ∈ rs, r.payloadId ∈ K) (hplan : plan.Steady) :
    (Service.run (serveDeployed P D plan) Deployed.empty rs).log = (Service.run P.serve (fun _ => none) rs).log := by
  obtain ⟨R, hempty, hstep⟩ := serveDeployed_steady P plan hD hplan
  exact (Service.run_sim hstep hempty hK).1

theorem deployed_service_steady_sample :
    (Service.run (serveDeployed sample sampleStores (fun _ => some (.connection, false))) Deployed.empty
        sampleRequests).log =
      (Service.run sample.serve (fun _ => none) sampleRequests).log :=
  deployed_service_steady sample _ sampleStores_lasting sampleRequests_ids
    (Or.inr (fun _ => ⟨.connection, false, rfl, RedisError.noConfusion⟩))

end Service

end PdMasking
