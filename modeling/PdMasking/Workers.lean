import PdMasking.Deployment
import PdMasking.Lib.Pool

/-!
# PdMasking.Workers — several workers before one Redis

Every worker has a `FallbackStore` of its own: the Redis server is shared, the memory behind it is not.  Requests
arrive at the workers at any time, and their operations on Redis and on the memories are interleaved in any order.

`workers_as_one`: while Redis is up, every response is the one that the same requests get, under some interleaving
of their store operations, from a single map.
-/

namespace PdMasking

/-- A request at a worker. -/
structure Job where
  worker : ℕ
  request : Request

/-- An operation of a worker. -/
structure WorkerOp where
  worker : ℕ
  op : BackendOp

def WorkerOp.Res (o : WorkerOp) : Type := o.op.Res

/-- Redis, and the memory of every worker. -/
structure Fleet (T Blob : Type) where
  redis : Redis T Blob
  memory : ℕ → Memory T Blob

def Fleet.empty {T Blob : Type} : Fleet T Blob := ⟨⟨fun _ => none, 0⟩, fun _ => ⟨[], 0⟩⟩

section Fleet

variable {T Blob Nonce : Type} [LinearOrder T] [Add T] (D : Stores T Blob Nonce) (P : Processor)

/-- One operation while Redis is up. -/
def fleetStep (o : WorkerOp) (f : Fleet T Blob) : o.Res × Fleet T Blob :=
  let r := deployedStep D (fun _ => none) o.op ⟨f.redis, f.memory o.worker⟩
  (r.1, ⟨r.2.redis, Function.update f.memory o.worker r.2.memory⟩)

/-- The program of a worker. -/
def onWorker {α : Type} (w : ℕ) (p : BackendM α) : Prog WorkerOp WorkerOp.Res α :=
  Prog.interp (fun op => @Prog.invoke WorkerOp WorkerOp.Res ⟨w, op⟩) p

/-- `process` of the job, at its worker. -/
def atWorker (j : Job) : Prog WorkerOp WorkerOp.Res Response :=
  onWorker j.worker (Prog.interp FallbackStore.handler
    (P.process j.request.payloadId j.request.payload j.request.policy).run)

/-- `process` of the job, over one map. -/
def atMap (j : Job) : Prog StoreOp StoreOp.Res Response :=
  (P.process j.request.payloadId j.request.payload j.request.policy).run

/-! ### A job at its worker follows the job over the map -/

omit [LinearOrder T] [Add T] in
/-- A worker asks Redis first. -/
theorem onWorker_call (w : ℕ) (op : StoreOp) (k : op.Res → Prog StoreOp StoreOp.Res Response) :
    onWorker w (Prog.interp FallbackStore.handler (.call op k)) = .call ⟨w, .primary op⟩
      (fun r => onWorker w ((afterFirst op r).bind (fun r => Prog.interp FallbackStore.handler (k r)))) := by
  unfold onWorker
  rw [Prog.interp, handler_eq, Prog.bind_assoc]
  rfl

/-- The two programs of a job: both are at the same point, or Redis has found no record and the worker still asks
its memory. -/
inductive Follows : Job × Prog WorkerOp WorkerOp.Res Response → Job × Prog StoreOp StoreOp.Res Response → Prop
  | level (j : Job) (q : Prog StoreOp StoreOp.Res Response) :
    Follows (j, onWorker j.worker (Prog.interp FallbackStore.handler q)) (j, q)
  | asking (j : Job) (key : Str) (next : StoreOp.Res (.get key) → Prog StoreOp StoreOp.Res Response) :
    Follows (j, .call ⟨j.worker, .fallback (.get key)⟩
      (fun r => onWorker j.worker (Prog.interp FallbackStore.handler (next r)))) (j, next (.ok none))

/-- Redis holds the records of the map, and the memories are empty. -/
structure Fleet.Holds (f : Fleet T Blob) (s : MapStore) : Prop where
  redis : D.redis.Holds D.server f.redis s
  memory : ∀ w, (f.memory w).items = []

variable {D} {f : Fleet T Blob} {s : MapStore}

/-- Redis answers as the map. -/
theorem Fleet.Holds.primary (h : f.Holds D s) (hcodec : D.codec.Lossless)
    (hclock : ∀ i j, D.server.clock i ≤ D.server.clock j + D.ttl) (w : ℕ) (op : StoreOp) :
    (fleetStep D ⟨w, .primary op⟩ f).1 = (mapStep op s).1 ∧
      (fleetStep D ⟨w, .primary op⟩ f).2.Holds D (mapStep op s).2 := by
  have hredis : D.redis.codec.Lossless := hcodec
  obtain ⟨hresult, hheld, -⟩ := RedisStore.serve_refines hredis hclock (fun _ => none) op h.redis
  refine ⟨hresult, ⟨hheld, ?_⟩⟩
  intro w'
  show (Function.update f.memory w (f.memory w) w').items = []
  rw [Function.update_eq_self]
  exact h.memory w'

/-- A memory has no record. -/
theorem Fleet.Holds.fallback (h : f.Holds D s) (w : ℕ) (key : Str) :
    (fleetStep D ⟨w, .fallback (.get key)⟩ f).1 = .ok none ∧ (fleetStep D ⟨w, .fallback (.get key)⟩ f).2.Holds D s := by
  have hget : D.memory.get (f.memory w).items key (D.worker.clock (f.memory w).readings) = (.ok none, []) := by
    rw [h.memory w]
    rfl
  have hresult : (fleetStep D ⟨w, .fallback (.get key)⟩ f).1 =
      (D.memory.get (f.memory w).items key (D.worker.clock (f.memory w).readings)).1 := rfl
  rw [hget] at hresult
  refine ⟨hresult, ⟨h.redis, ?_⟩⟩
  intro w'
  show (Function.update f.memory w ⟨(D.memory.get (f.memory w).items key (D.worker.clock (f.memory w).readings)).2,
    (f.memory w).readings + 1⟩ w').items = []
  by_cases hw : w' = w
  · subst hw
    rw [Function.update_self, hget]
  · rw [Function.update_of_ne hw]
    exact h.memory w'

/-- **One step**: what a worker does next, the job over the map does too, or has done already. -/
theorem follows_step (hcodec : D.codec.Lossless) (hclock : ∀ i j, D.server.clock i ≤ D.server.clock j + D.ttl)
    (h : f.Holds D s) {j : Job} {op : WorkerOp} {next : op.Res → Prog WorkerOp WorkerOp.Res Response}
    {t : Job × Prog StoreOp StoreOp.Res Response} (ht : Follows (j, .call op next) t) :
    (Follows (j, next (fleetStep D op f).1) t ∧ (fleetStep D op f).2.Holds D s) ∨
      ∃ op' next', t = (j, .call op' next') ∧ Follows (j, next (fleetStep D op f).1) (j, next' (mapStep op' s).1) ∧
        (fleetStep D op f).2.Holds D (mapStep op' s).2 := by
  generalize hp : Prog.call op next = p at ht
  generalize hjp : (j, p) = jp at ht
  cases ht with
  | level j' q =>
    obtain ⟨rfl, rfl⟩ := Prod.mk.inj hjp
    cases q with
    | ret a => cases hp
    | call op' k =>
      rw [onWorker_call] at hp
      cases hp
      obtain ⟨hresult, hheld⟩ := h.primary hcodec hclock j.worker op'
      refine Or.inr ⟨op', k, rfl, ?_, hheld⟩
      rw [hresult]
      obtain ⟨value, hvalue⟩ := mapStep_ok op' s
      rw [hvalue]
      cases op' with
      | get key =>
        cases value with
        | none => exact .asking j key k
        | some record => exact .level j _
      | putIfAbsent key record => exact .level j _
      | put key record => exact .level j _
  | asking j' key k =>
    obtain ⟨rfl, rfl⟩ := Prod.mk.inj hjp
    cases hp
    obtain ⟨hresult, hheld⟩ := h.fallback j.worker key
    refine Or.inl ⟨?_, hheld⟩
    rw [hresult]
    exact .level j _

/-- **Several workers answer as one map does.**  However the requests and their operations are interleaved at the
workers, while Redis is up and no record expires there, some interleaving of the same requests over one map gives
each of them the same response. -/
theorem workers_as_one (hcodec : D.codec.Lossless) (hclock : ∀ i j, D.server.clock i ≤ D.server.clock j + D.ttl)
    {c : Pool Job WorkerOp WorkerOp.Res Response (Fleet T Blob)}
    (hc : Pool.Reachable (fleetStep D) (atWorker P) (fun _ _ => True) Fleet.empty c) :
    ∃ c', Pool.Reachable mapStep (atMap P) (fun _ _ => True) (fun _ => none) c' ∧
      List.Forall₂ (fun t t' => t.1 = t'.1 ∧ ∀ response, t.2 = .ret response → t'.2 = .ret response)
        c.threads c'.threads := by
  have hempty : (Fleet.empty : Fleet T Blob).Holds D (fun _ => none) :=
    ⟨⟨fun _ => rfl, by rintro key e ⟨⟩⟩, fun _ => rfl⟩
  have hspawn : ∀ j, Follows (j, atWorker P j) (j, atMap P j) := fun j => .level j (atMap P j)
  obtain ⟨c', hc', hthreads, -⟩ := Pool.reachable_sim (R := Fleet.Holds D) hspawn
    (fun j op next t f s h ht => follows_step hcodec hclock h ht) hempty hc
  refine ⟨c', hc', hthreads.imp ?_⟩
  rintro ⟨j, p⟩ t ht
  generalize hjp : (j, p) = jp at ht
  cases ht with
  | level j' q =>
    obtain ⟨rfl, rfl⟩ := Prod.mk.inj hjp
    refine ⟨rfl, ?_⟩
    intro response hp
    cases q with
    | ret a =>
      have hret : (Prog.ret a : Prog WorkerOp WorkerOp.Res Response) = .ret response := hp
      cases hret
      rfl
    | call op' k =>
      rw [onWorker_call] at hp
      cases hp
  | asking j' key next =>
    obtain ⟨rfl, rfl⟩ := Prod.mk.inj hjp
    refine ⟨rfl, ?_⟩
    rintro response ⟨⟩

end Fleet

/-- The text at one worker, and its retry at another one, in turns. -/
def twoWorkers : List (Pool.Event Job) :=
  [.arrive ⟨0, ⟨"1".toList, "a@b.ru ok".toList, systems.default⟩⟩,
    .arrive ⟨1, ⟨"1".toList, "a@b.ru ok".toList, systems.default⟩⟩,
    .advance 0, .advance 1, .advance 0, .advance 1, .advance 0, .advance 1, .advance 0, .advance 1]

theorem workers_as_one_two :
    ∃ c', Pool.Reachable mapStep (atMap sample) (fun _ _ => True) (fun _ => none) c' ∧
      List.Forall₂ (fun t t' => t.1 = t'.1 ∧ ∀ response, t.2 = .ret response → t'.2 = .ret response)
        (Pool.schedule (fleetStep sampleStores) (atWorker sample) ⟨[], Fleet.empty, []⟩ twoWorkers).threads c'.threads :=
  workers_as_one sample sampleStores_lasting.lossless sampleStores_lasting.server
    (Pool.reachable_schedule .refl twoWorkers ⟨trivial, trivial, trivial⟩)

end PdMasking
