import PdMasking.Availability
import PdMasking.Lib.Contract
import PdMasking.Workers

/-!
# PdMasking.Untrusted — workers before a Redis that cannot be trusted

A record is encrypted with its id as associated data, so that it cannot be put under another id (`storage/codec.py`).
Here Redis replies as it likes, to any number of workers: it drops and swaps values, brings back old ones, makes up
values of its own.  All that it cannot do is forge what AES-GCM accepts.

* `Unforged`: what AES-GCM promises.
* `decode_own`: whatever is decoded under an id was made from a request with this id.
* `untrusted_redis`: no answer has anything from a request with another id, and nothing is unmasked for a system that
  must not unmask.
-/

namespace PdMasking

open Recency

/-- A call of `AESGCM.encrypt`. -/
structure Sealed where
  nonce : Nonce
  data : ByteArray
  associated : ByteArray

/-- What Redis replies to a command: the number of commands before it and the calls of `encrypt` so far are all that it
may go by. -/
abbrev Replies (T : Type) := ℕ → List Sealed → (cmd : RedisCmd T ByteArray) → cmd.Res

/-- What `decrypt` accepts in a reply was made by `encrypt`, with the same nonce and the same associated data. -/
def Unforged {T : Type} (A : Aead) (replies : Replies T) : Prop :=
  ∀ n calls key blob data, replies n calls (.get (PREFIX ++ key)) = .ok (some blob) →
    A.decrypt (blob.extract 0 NONCE_SIZE) (blob.extract NONCE_SIZE blob.size) (utf8 key) = some data →
      ∃ call ∈ calls, call.nonce.bytes = blob.extract 0 NONCE_SIZE ∧ call.associated = utf8 key ∧
        A.encrypt call.nonce.bytes call.data call.associated = blob.extract NONCE_SIZE blob.size

/-! ### The workers -/

/-- The call of `encrypt` in `RecordCodec.encode`. -/
def sealOf (nonce : Nonce) (key : Str) (record : MappingRecord) : Sealed :=
  ⟨nonce, utf8 ((Codec.document record).text .compact), utf8 key⟩

/-- The calls of `encrypt` when the operation encodes what it writes. -/
def StoreOp.seals (nonce : Nonce) (op : StoreOp) : List Sealed :=
  (op.writes.map (fun w => sealOf nonce w.1 w.2)).toList

/-- The operation has encoded what it writes; `put_if_absent` in the memory does so only when it stores it. -/
def StoreOp.encoded : (op : StoreOp) → op.Res → Bool
  | putIfAbsent _ _, .ok created => created
  | _, _ => true

/-- What Redis has been asked and given, and the memories of the workers. -/
structure Exposed (T : Type) where
  commands : ℕ
  calls : List Sealed
  memory : ℕ → Memory T ByteArray

def Exposed.empty {T : Type} : Exposed T := ⟨0, [], fun _ => ⟨[], 0⟩⟩

section Step

variable {T : Type} [LinearOrder T] [Add T] (D : Stores T ByteArray Nonce) (replies : Replies T)

/-- One operation of a worker. -/
def exposedStep (w : ℕ) : (op : BackendOp) → Exposed T → op.Res × Exposed T
  | .primary op, s =>
    let nonce := D.server.nonce s.commands
    let calls := op.seals nonce ++ s.calls
    let r := Prog.run (fun cmd n => (replies n calls cmd, n + 1)) (D.redis.handler nonce op) s.commands
    (r.1, ⟨r.2, calls, s.memory⟩)
  | .fallback op, s =>
    let nonce := D.worker.nonce (s.memory w).readings
    let r := Memory.serve D.memory D.worker op (s.memory w)
    (r.1, ⟨s.commands, (if op.encoded r.1 then op.seals nonce else []) ++ s.calls, Function.update s.memory w r.2⟩)

def untrustedStep (o : WorkerOp) (s : Exposed T) : o.Res × Exposed T := exposedStep D replies o.worker o.op s

end Step

/-! ### Records made for their id -/

section Own

variable (P : Processor) (J : Set Job)

/-- The record was made from the payload of a request with this id. -/
def MadeFrom (key : Str) (record : MappingRecord) : Prop := ∃ j ∈ J, j.request.payloadId = key ∧
  ∃ o, P.mask j.request.payload j.request.policy = .ok (o, record)

/-- The operation writes a record made for its key. -/
def WritesOwn (op : StoreOp) : Prop := ∀ key record, op.writes = some (key, record) → MadeFrom P J key record

/-- What a lookup has found was made for its key. -/
def ReadsOwn : (op : StoreOp) → op.Res → Prop
  | .get key, r => ∀ record, r = .ok (some record) → MadeFrom P J key record
  | _, _ => True

/-- The answers to a request that reveal nothing but what requests with its id have sent, and that unmask only where the
policy allows it. -/
inductive FromOwn (r : Request) : ProcessOutcome → Prop
  | masked {o : ProcessOutcome} {record : MappingRecord} (h : P.mask r.payload r.policy = .ok (o, record)) : FromOwn r o
  | retried {record : MappingRecord} (hmade : MadeFrom P J r.payloadId record) (h : r.payload = record.original) :
    FromOwn r ⟨record.masked, .maskRetry, []⟩
  | unmasked {record : MappingRecord} (hmade : MadeFrom P J r.payloadId record) (h : r.payload = record.masked)
    (hu : record.masked = record.original ∨ r.policy.unmaskAllowed = true) : FromOwn r ⟨record.original, .unmask, []⟩
  | restored {record : MappingRecord} (hmade : MadeFrom P J r.payloadId record)
    (h : (unmaskFragments P.runtime r.payload record.fragments).2 ≠ 0) (hu : r.policy.unmaskAllowed = true) :
    FromOwn r ⟨(unmaskFragments P.runtime r.payload record.fragments).1, .unmaskFragments, []⟩

def Confined (j : Job) (response : Response) : Prop := ∀ o, response = .ok o → FromOwn P J j.request o

/-- Nothing but such records was ever encrypted or is in a memory. -/
structure Exposed.Own {T : Type} (A : Aead) (s : Exposed T) : Prop where
  calls : ∀ call ∈ s.calls, ∃ nonce key record, call = sealOf nonce key record ∧ MadeFrom P J key record
  memory : ∀ w, ∀ x ∈ (s.memory w).items, ∃ nonce record, x.2.2 = Codec.encode A nonce x.1 record ∧
    MadeFrom P J x.1 record

end Own

section Step

variable {T : Type} [LinearOrder T] [Add T] {A : Aead} {D : Stores T ByteArray Nonce} {replies : Replies T}
  {raised : Str → ByteArray → PyExc} {P : Processor} {J : Set Job} {s : Exposed T}

theorem utf8_inj {s t : Str} (h : utf8 s = utf8 t) : s = t := by
  have hdecode := utf8Decode_utf8 s
  rw [h, utf8Decode_utf8] at hdecode
  exact (Option.some.inj hdecode).symm

theorem seals_own (nonce : Nonce) {op : StoreOp} (hop : WritesOwn P J op) :
    ∀ call ∈ op.seals nonce, ∃ nonce key record, call = sealOf nonce key record ∧ MadeFrom P J key record := by
  intro call hcall
  obtain ⟨⟨key, record⟩, hwrites, rfl⟩ := Option.map_eq_some_iff.mp (Option.mem_toList.mp hcall)
  exact ⟨nonce, key, record, rfl, hop key record hwrites⟩

/-- What becomes of the reply to a lookup. -/
theorem exposedStep_get (w : ℕ) (key : Str) : (exposedStep D replies w (.primary (.get key)) s).1 =
    match replies s.commands s.calls (.get (PREFIX ++ key)) with
    | .error exc => .error (unavailable exc)
    | .ok value => D.redis.decoded key value := by
  show (Prog.run _ (D.redis.handler _ (.get key)) s.commands).1 = _
  rw [RedisStore.handler_eq, Prog.run_bind]
  have hcommand : Prog.run
      (fun cmd n => (replies n (StoreOp.seals (D.server.nonce s.commands) (.get key) ++ s.calls) cmd, n + 1))
      (command (D.redis.cmd (D.server.nonce s.commands) (.get key))) s.commands =
        (replies s.commands s.calls (.get (PREFIX ++ key)), s.commands + 1) := rfl
  rw [hcommand]
  rcases replies s.commands s.calls (.get (PREFIX ++ key)) with exc | value
  · rfl
  · rfl

omit [LinearOrder T] [Add T] in
/-- A record that is decoded from a reply was encoded under the same id. -/
theorem decode_own {calls : List Sealed} (hcalls : ∀ call ∈ calls, ∃ nonce key record,
      call = sealOf nonce key record ∧ MadeFrom P J key record) (hreplies : Unforged A replies) {n : ℕ} {key : Str}
    {blob : ByteArray} {record : MappingRecord} (hreply : replies n calls (.get (PREFIX ++ key)) = .ok (some blob))
    (h : Codec.decode A key blob = some record) : MadeFrom P J key record := by
  obtain ⟨data, hdata, hread⟩ := Option.bind_eq_some_iff.mp h
  obtain ⟨call, hcall, hnonce, hid, hencrypt⟩ := hreplies n calls key blob data hreply hdata
  obtain ⟨nonce, key', record', rfl, hmade⟩ := hcalls call hcall
  obtain rfl : key' = key := utf8_inj hid
  -- the reply is what `encode` made of this record
  have hsize : NONCE_SIZE ≤ blob.size := by
    have hlen := congrArg ByteArray.size hnonce
    rw [show (sealOf nonce key' record').nonce.bytes.size = NONCE_SIZE from nonce.size_eq,
      ByteArray.size_extract] at hlen
    omega
  have hblob : Codec.encode A nonce key' record' = blob := by
    calc Codec.encode A nonce key' record' = blob.extract 0 NONCE_SIZE ++ blob.extract NONCE_SIZE blob.size := by
          rw [← hnonce, ← hencrypt]
          rfl
      _ = blob.extract 0 blob.size := (ByteArray.extract_eq_extract_append_extract _ (Nat.zero_le _) hsize).symm
      _ = blob := ByteArray.extract_zero_size
  rw [← hblob, Codec.decode_encode] at h
  rwa [← Option.some.inj h]

/-- **An operation on Redis.** -/
theorem primary_own (hcodec : D.codec = Codec.recordCodec A raised) (hreplies : Unforged A replies) (w : ℕ)
    {op : StoreOp} (hop : WritesOwn P J op) (hs : s.Own P J A) :
    ReadsOwn P J op (exposedStep D replies w (.primary op) s).1 ∧
      (exposedStep D replies w (.primary op) s).2.Own P J A := by
  have hcalls : ∀ call ∈ op.seals (D.server.nonce s.commands) ++ s.calls, ∃ nonce key record,
      call = sealOf nonce key record ∧ MadeFrom P J key record :=
    List.forall_mem_append.mpr ⟨seals_own _ hop, hs.calls⟩
  refine ⟨?_, ⟨hcalls, hs.memory⟩⟩
  cases op with
  | get key =>
    intro record hr
    rw [exposedStep_get] at hr
    rcases hreply : replies s.commands s.calls (.get (PREFIX ++ key)) with exc | _ | blob
    · rw [hreply] at hr
      cases hr
    · rw [hreply] at hr
      cases hr
    · rw [hreply] at hr
      have hmap : (D.codec.decode key blob).map some = .ok (some record) := hr
      rcases hdecode : D.codec.decode key blob with exc | record'
      · rw [hdecode] at hmap
        cases hmap
      · rw [hdecode] at hmap
        cases hmap
        rw [hcodec] at hdecode
        exact decode_own hs.calls hreplies hreply ((Codec.decode_recordCodec A raised).mp hdecode)
  | putIfAbsent key record => exact trivial
  | put key record => exact trivial

/-- **An operation on a memory.** -/
theorem fallback_own (hcodec : D.codec = Codec.recordCodec A raised) (w : ℕ) {op : StoreOp}
    (hop : WritesOwn P J op) (hs : s.Own P J A) :
    ReadsOwn P J op (exposedStep D replies w (.fallback op) s).1 ∧
      (exposedStep D replies w (.fallback op) s).2.Own P J A := by
  refine ⟨?_, ⟨?_, ?_⟩⟩
  · cases op with
    | get key =>
      intro record hr
      have hget : (D.memory.get (s.memory w).items key (D.worker.clock (s.memory w).readings)).1 =
          .ok (some record) := hr
      rcases MemoryStore.get_spec D.memory (s.memory w).items key (D.worker.clock (s.memory w).readings) with
        ⟨-, hx⟩ | ⟨_, -, -, hx⟩ | ⟨x, hnewest, -, hx⟩
      · rw [hx] at hget
        cases hget
      · rw [hx] at hget
        cases hget
      · rw [hx] at hget
        obtain ⟨hmem, hkey⟩ := newest_some hnewest
        obtain ⟨nonce, record', hblob, hmade⟩ := hs.memory w x hmem
        have hrecord : (D.codec.decode key x.2.2).map some = .ok (some record) := hget
        have hlossless : (Codec.recordCodec A raised).decode x.1 (Codec.encode A nonce x.1 record') = .ok record' :=
          Codec.recordCodec_lossless A raised nonce x.1 record'
        rw [hblob, ← hkey, hcodec, hlossless] at hrecord
        cases hrecord
        rw [← hkey]
        exact hmade
    | putIfAbsent key record => exact trivial
    | put key record => exact trivial
  · refine List.forall_mem_append.mpr ⟨?_, hs.calls⟩
    split_ifs
    · exact seals_own _ hop
    · exact List.forall_mem_nil _
  · intro w' x hx
    have hitems : x ∈ (Function.update s.memory w (Memory.serve D.memory D.worker op (s.memory w)).2 w').items := hx
    by_cases hw : w' = w
    · subst hw
      rw [Function.update_self] at hitems
      rcases serve_items op _ hitems with hmem | ⟨nonce, record, hwrites, hblob⟩
      · exact hs.memory w' x hmem
      · rw [hcodec] at hblob
        exact ⟨nonce, record, hblob, hop x.1 record hwrites⟩
    · rw [Function.update_of_ne hw] at hitems
      exact hs.memory w' x hitems

end Step

/-! ### The programs -/

section Programs

variable {P : Processor} {J : Set Job}

/-- The operation on one of the two copies. -/
def BackendOp.store : BackendOp → StoreOp
  | primary op => op
  | fallback op => op

/-- The contract of the two copies. -/
def BackendReadsOwn (P : Processor) (J : Set Job) : (op : BackendOp) → op.Res → Prop
  | .primary op, r => ReadsOwn P J op r
  | .fallback op, r => ReadsOwn P J op r

/-- `FallbackStore` keeps the contract of a store, if its two copies do. -/
theorem handler_keeps (op : StoreOp) (hop : WritesOwn P J op) :
    Prog.Keeps (fun o : BackendOp => WritesOwn P J o.store) (BackendReadsOwn P J) (FallbackStore.handler op)
      (ReadsOwn P J op) := by
  have hcall : ∀ exc, ReadsOwn P J op (.error exc) := by
    intro exc
    cases op with
    | get key =>
      rintro record ⟨⟩
    | putIfAbsent key record => exact trivial
    | put key record => exact trivial
  have hfallback : Prog.Keeps (fun o : BackendOp => WritesOwn P J o.store) (BackendReadsOwn P J) (callFallback op)
      (ReadsOwn P J op) := ⟨hop, fun r hr => hr⟩
  have hretry : ∀ exc, Prog.Keeps (fun o : BackendOp => WritesOwn P J o.store) (BackendReadsOwn P J)
      (FallbackStore.handleError op exc) (ReadsOwn P J op) := by
    intro exc
    unfold FallbackStore.handleError
    split_ifs
    · refine ⟨hop, ?_⟩
      rintro (exc' | value) hr
      · show Prog.Keeps _ _ (if handled exc' then _ else _) _
        split_ifs
        · exact hcall _
        · exact hfallback
        · exact hcall exc'
      · exact hr
    · exact hfallback
  rw [handler_eq]
  refine ⟨hop, ?_⟩
  rintro (exc | value) hr
  · show Prog.Keeps _ _ (if handled exc then FallbackStore.handleError op exc else .ret (.error exc)) _
    split_ifs
    · exact hretry exc
    · exact hcall exc
  · cases op with
    | get key =>
      cases value with
      | none => exact hfallback
      | some record => exact hr
    | putIfAbsent key record => exact hr
    | put key record => exact hr

theorem answer_fromOwn {r : Request} {record : MappingRecord} {o : ProcessOutcome} {next : Option MappingRecord}
    (hmade : MadeFrom P J r.payloadId record) (h : P.answer r.payload record r.policy = .ok (o, next)) :
    FromOwn P J r o := by
  unfold Processor.answer at h
  split_ifs at h with hmasked hforbidden horiginal hreplaced hrefused
  · cases h
    refine .unmasked hmade hmasked ?_
    tauto
  · cases h
    exact .retried hmade horiginal
  · cases h
    exact .restored hmade hreplaced (by simpa using hrefused)
  · rcases hmask : P.mask r.payload r.policy with e | m
    · rw [hmask] at h
      cases h
    · rw [hmask] at h
      cases h
      exact .masked hmask

/-- `_existing`, on a record made for the id. -/
theorem existing_keeps {j : Job} (hj : j ∈ J) {record : MappingRecord}
    (hmade : MadeFrom P J j.request.payloadId record) : Prog.Keeps (WritesOwn P J) (ReadsOwn P J)
      (P.existing j.request.payloadId j.request.payload record j.request.policy).run
      (Confined P J j) := by
  rw [P.existing_eq]
  rcases ha : P.answer j.request.payload record j.request.policy with e | ⟨outcome, _ | newRecord⟩
  · rintro o ⟨⟩
  · rintro o ⟨⟩
    exact answer_fromOwn hmade ha
  · refine ⟨?_, ?_⟩
    · rintro key record' ⟨⟩
      exact ⟨j, hj, rfl, outcome, Processor.answer_writes ha⟩
    · rintro (e | u) -
      · rintro o ⟨⟩
      · rintro o ⟨⟩
        exact answer_fromOwn hmade ha

/-- **`process` keeps the contract.** -/
theorem process_keeps {j : Job} (hj : j ∈ J) : Prog.Keeps (WritesOwn P J) (ReadsOwn P J) (atMap P j)
    (Confined P J j) := by
  unfold atMap
  rw [P.process_eq]
  refine ⟨?_, ?_⟩
  · rintro key record ⟨⟩
  rintro (e | _ | stored) hread
  · rintro o ⟨⟩
  · show Prog.Keeps _ _ (P.afterLookup j.request.payloadId j.request.payload j.request.policy none).run _
    unfold Processor.afterLookup
    dsimp only
    rcases hmask : P.mask j.request.payload j.request.policy with e | ⟨outcome, record⟩
    · rintro o ⟨⟩
    · have hmade : MadeFrom P J j.request.payloadId record := ⟨j, hj, rfl, outcome, hmask⟩
      refine ⟨?_, ?_⟩
      · rintro key record' ⟨⟩
        exact hmade
      rintro (e | _ | _) -
      · rintro o ⟨⟩
      · -- another request stored its record first
        refine ⟨?_, ?_⟩
        · rintro key record' ⟨⟩
        rintro (e | _ | stored) hreread
        · rintro o ⟨⟩
        · rintro o ⟨⟩
          exact .masked hmask
        · exact existing_keeps hj (hreread stored rfl)
      · rintro o ⟨⟩
        exact .masked hmask
  · exact existing_keeps hj (hread stored rfl)

end Programs

/-! ### The fleet -/

section Fleet

variable {T : Type} [LinearOrder T] [Add T] {A : Aead} {D : Stores T ByteArray Nonce} {replies : Replies T}
  {raised : Str → ByteArray → PyExc} (P : Processor)

/-- **A Redis that cannot be trusted** does not mix up ids: whatever it replies, as long as it forges no ciphertext, every
answer is the payload's own mask or an answer on a record that was made for the same id. -/
theorem untrusted_redis (hcodec : D.codec = Codec.recordCodec A raised) (hreplies : Unforged A replies) (J : Set Job)
    {c : Pool Job WorkerOp WorkerOp.Res Response (Exposed T)}
    (hc : Pool.Reachable (untrustedStep D replies) (atWorker P) (fun _ j => j ∈ J) Exposed.empty c) {j : Job}
    {o : ProcessOutcome} (ho : c.Returned j (.ok o)) : FromOwn P J j.request o := by
  have hempty : (Exposed.empty : Exposed T).Own P J A := ⟨List.forall_mem_nil _, fun _ => List.forall_mem_nil _⟩
  have hop : ∀ (op : WorkerOp) (s : Exposed T), WritesOwn P J op.op.store → s.Own P J A →
      BackendReadsOwn P J op.op (untrustedStep D replies op s).1 ∧
        (untrustedStep D replies op s).2.Own P J A := by
    rintro ⟨w, op | op⟩ s hwrites hs
    · exact primary_own hcodec hreplies w hwrites hs
    · exact fallback_own hcodec w hwrites hs
  have hspawn : ∀ (c : Pool Job WorkerOp WorkerOp.Res Response (Exposed T)) j, j ∈ J →
      Prog.Keeps (fun op : WorkerOp => WritesOwn P J op.op.store) (fun op r => BackendReadsOwn P J op.op r)
        (atWorker P j) (Confined P J j) := by
    intro _ j hj
    have hlayer : Prog.Keeps (fun op : BackendOp => WritesOwn P J op.store) (BackendReadsOwn P J)
        (Prog.interp FallbackStore.handler (atMap P j)) (Confined P J j) :=
      Prog.keeps_interp handler_keeps (process_keeps hj)
    have hinvoke : ∀ op : BackendOp, WritesOwn P J op.store → Prog.Keeps (fun o : WorkerOp => WritesOwn P J o.op.store)
        (fun o r => BackendReadsOwn P J o.op r) (@Prog.invoke WorkerOp WorkerOp.Res ⟨j.worker, op⟩)
        (BackendReadsOwn P J op) := fun op hwrites => ⟨hwrites, fun _ hr => hr⟩
    exact Prog.keeps_interp hinvoke hlayer
  obtain ⟨-, hthreads⟩ := Pool.reachable_keeps hop hspawn hempty hc
  exact hthreads (j, .ret (.ok o)) ho o rfl

end Fleet

/-- A Redis that says it has set every key, and goes back to the first value that was encoded for an id. -/
def goingBack : Replies ℕ := fun _ calls cmd =>
  match cmd with
  | .get key =>
    let id := (utf8 (key.drop PREFIX.length)).data.toList
    .ok ((calls.reverse.find? (fun call => call.associated.data.toList = id)).map
      (fun call => call.nonce.bytes ++ call.data))
  | .set _ _ _ _ => .ok true

theorem goingBack_unforged : Unforged plainAead goingBack := by
  intro n calls key blob data hreply _
  have hkey : (PREFIX ++ key).drop PREFIX.length = key := List.drop_left
  obtain ⟨call, hfound, rfl⟩ := Option.map_eq_some_iff.mp (Except.ok.inj hreply)
  have hid := List.find?_some hfound
  rw [hkey, decide_eq_true_iff] at hid
  have hassociated : call.associated = utf8 key := ByteArray.ext (Array.toList_inj.mp hid)
  obtain ⟨hnonce, hdata⟩ := Codec.nonce_append call.nonce call.data
  exact ⟨call, List.mem_reverse.mp (List.mem_of_find?_eq_some hfound), hnonce.symm, hassociated, hdata.symm⟩

theorem untrusted_redis_two :
    let c := Pool.schedule (untrustedStep sampleStores goingBack) (atWorker sample)
      ⟨[], Exposed.empty, []⟩ twoWorkers
    ∀ j o, c.Returned j (.ok o) → FromOwn sample {j | j.request.payloadId = "1".toList} j.request o :=
  fun _ _ ho => untrusted_redis sample rfl goingBack_unforged {j | j.request.payloadId = "1".toList}
    (Pool.reachable_schedule .refl twoWorkers ⟨rfl, rfl, trivial⟩) ho

end PdMasking
