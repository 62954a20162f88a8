import PdMasking.Alignment
import PdMasking.Candidates
import PdMasking.Deployment

/-!
# PdMasking.Availability — which exceptions a request can end with

* `mask_total`: masking with the detectors of the service never raises.
* `process_ends`: over a store that fails only when two commands of Redis in a row time out, `process` ends with an
  outcome, with a refusal to unmask, or so.
* `deployed_ends`: the stores of `build_store` are of that kind, as long as what they hold was encoded by their codec
  (`Authentic`), which every request keeps true.
* `stored_blobs_decode`: whatever a run leaves in the stores can be decoded.
-/

namespace PdMasking

open Recency

/-! ### Masking -/

/-- The engine of the service. -/
def Processor.Standard (P : Processor) : Prop := P.engine = ⟨defaultDetectors P.runtime⟩

/-- What the engine of the service detects has its parts in the text. -/
theorem inText_of_detect {P : Processor} (hP : P.Standard) {text : Str} {policy : SystemPolicy} {e : Entity}
    (he : e ∈ P.engine.detect P.runtime text policy.pdTypes policy.combinations) : InText text e := by
  have hcand := mem_candidates_of_mem_detect policy.combinations P.runtime text policy.pdTypes P.engine he
  rw [hP] at hcand
  obtain ⟨d, hd, he'⟩ := List.mem_flatMap.mp hcand
  obtain ⟨o, ho, rfl⟩ := List.mem_filterMap.mp (List.mem_filter.mp he').1
  obtain ⟨spans, hmade, hfits⟩ := detectors_fit P.runtime text d (List.mem_filter.mp hd).1 e ho
  exact inText_of_placed hmade hfits.placed

/-- **Masking never fails**: the positions that `_chars` looks up are in the text. -/
theorem mask_total {P : Processor} (hP : P.Standard) (text : Str) (policy : SystemPolicy) :
    ∃ o record, P.mask text policy = .ok (o, record) := by
  obtain ⟨m, hm, -⟩ := maskFrom_aligned (R := P.runtime) (K := P.masker) policy.rules 0
    (fun _ he => inText_of_detect hP he)
  have hmask : P.masker.mask P.runtime text
      (P.engine.detect P.runtime text policy.pdTypes policy.combinations) policy.rules = .ok m := hm
  unfold Processor.mask
  simp only [hmask]
  exact ⟨_, _, rfl⟩

/-! ### The commands that time out -/

namespace RedisPlan

variable {plan : RedisPlan} {n n' n'' : ℕ}

/-- The command times out. -/
def TimesOut (plan : RedisPlan) (i : ℕ) : Prop := ∃ effect, plan i = some (.timeout, effect)

/-- Two consecutive commands time out, from the `n`th on and before the `n'`th. -/
def TwoTimeouts (plan : RedisPlan) (n n' : ℕ) : Prop := ∃ i, n ≤ i ∧ i + 1 < n' ∧ plan.TimesOut i ∧ plan.TimesOut (i + 1)

/-- No two consecutive commands time out, and the last one does not. -/
structure Quiet (plan : RedisPlan) (n n' : ℕ) : Prop where
  le : n ≤ n'
  never : ¬ plan.TwoTimeouts n n'
  last : n < n' → ¬ plan.TimesOut (n' - 1)

theorem Quiet.refl (n : ℕ) : plan.Quiet n n where
  le := le_rfl
  never := by
    rintro ⟨i, hi, hi', -⟩
    omega
  last h := absurd h (lt_irrefl n)

/-- One command that does not time out, at most one timeout before it. -/
theorem Quiet.step (h : plan.Quiet n n' ∨ n + 1 = n') (hn' : ¬ plan.TimesOut n') : plan.Quiet n (n' + 1) := by
  refine ⟨?_, ?_, fun _ => hn'⟩
  · rcases h with h | rfl
    · exact h.le.trans n'.le_succ
    · omega
  · rintro ⟨i, hi, hlt, ht, ht'⟩
    rcases Nat.lt_succ_iff_lt_or_eq.mp hlt with hlt | rfl
    · rcases h with h | rfl
      · exact h.never ⟨i, hi, hlt, ht, ht'⟩
      · omega
    · exact hn' ht'

theorem Quiet.trans (h : plan.Quiet n n') (h' : plan.Quiet n' n'') : plan.Quiet n n'' := by
  refine ⟨h.le.trans h'.le, ?_, ?_⟩
  · rintro ⟨i, hi, hlt, ht, ht'⟩
    by_cases hbefore : i + 1 < n'
    · exact h.never ⟨i, hi, hbefore, ht, ht'⟩
    · by_cases hafter : n' ≤ i
      · exact h'.never ⟨i, hafter, hlt, ht, ht'⟩
      · -- the two stand on either side of `n'`
        obtain rfl : n' = i + 1 := by omega
        exact h.last (by omega) ht
  · intro hlt
    by_cases heq : n' = n''
    · subst heq
      exact h.last hlt
    · exact h'.last (lt_of_le_of_ne h'.le heq)

theorem TwoTimeouts.after (h' : plan.TwoTimeouts n' n'') (h : plan.Quiet n n') : plan.TwoTimeouts n n'' := by
  obtain ⟨i, hi, hlt⟩ := h'
  exact ⟨i, h.le.trans hi, hlt⟩

end RedisPlan

/-! ### What a request raises -/

section Raises

variable (plan : RedisPlan)

/-- The courses of a store operation between two commands: it is answered, or two commands in a row timed out. -/
def storeCourse : Prog.OpSpec StoreOp StoreOp.Res ℕ := fun _ n r n' =>
  (∃ value, r = .ok value) ∧ plan.Quiet n n' ∨ r = .error (.storeUnavailable true) ∧ plan.TwoTimeouts n n'

/-- The courses of a call of Redis, and of the memory. -/
def copyCourse : Prog.OpSpec BackendOp BackendOp.Res ℕ := fun op n r n' =>
  match op, r with
  | .primary _, r => n' = n + 1 ∧ match plan n with
    | none => ∃ value, r = .ok value
    | some (exc, _) => r = .error (unavailable exc)
  | .fallback _, r => n' = n ∧ ∃ value, r = .ok value

/-- How `process` ends: with an outcome, with a refusal that the policy asks for, or because two commands in a row
timed out. -/
inductive Ends (policy : SystemPolicy) (n : ℕ) : Response → ℕ → Prop
  | answered (o : ProcessOutcome) {n' : ℕ} (h : plan.Quiet n n') : Ends policy n (.ok o) n'
  | forbidden {n' : ℕ} (h : plan.Quiet n n') (hu : policy.unmaskAllowed = false) :
    Ends policy n (.error (.unmaskForbidden policy.systemId)) n'
  | unavailable {n' : ℕ} (h : plan.TwoTimeouts n n') : Ends policy n (.error (.storeUnavailable true)) n'

variable {plan} {P : Processor} {policy : SystemPolicy} {n n' : ℕ}

theorem answer_forbidden {payload : Str} {record : MappingRecord} {id : Str}
    (h : P.answer payload record policy = .error (.unmaskForbidden id)) : policy.unmaskAllowed = false := by
  unfold Processor.answer at h
  split_ifs at h with h1 h2 h3 h4 h5
  · exact Bool.eq_false_iff.mpr h2.2
  · exact Bool.eq_false_iff.mpr h5
  · rcases hmask : P.mask payload policy with e | m
    · rw [hmask] at h
      cases h
      cases P.mask_error hmask
    · rw [hmask] at h
      cases h

theorem existing_ends (hP : P.Standard) (id payload : Str) (record : MappingRecord) (h : plan.Quiet n n') :
    Prog.wp (storeCourse plan) (P.existing id payload record policy).run (Ends plan policy n) n' := by
  rw [P.existing_eq]
  rcases ha : P.answer payload record policy with e | ⟨outcome, _ | newRecord⟩
  · rcases Processor.answer_error ha with rfl | rfl
    · -- masking does not fail
      exfalso
      obtain ⟨o, record', hmask⟩ := mask_total hP payload policy
      unfold Processor.answer at ha
      rw [hmask] at ha
      split_ifs at ha <;> cases ha
    · exact .forbidden h (answer_forbidden ha)
  · exact .answered outcome h
  · rintro r n'' (⟨⟨u, rfl⟩, hquiet⟩ | ⟨rfl, htwo⟩)
    · exact .answered outcome (h.trans hquiet)
    · exact .unavailable (htwo.after h)

/-- **How `process` ends**, over stores that fail only when two commands in a row time out. -/
theorem process_ends (hP : P.Standard) (id payload : Str) (n : ℕ) :
    Prog.wp (storeCourse plan) (P.process id payload policy).run (Ends plan policy n) n := by
  rw [P.process_eq]
  rintro r n' (⟨⟨value, rfl⟩, h⟩ | ⟨rfl, htwo⟩)
  · rcases value with _ | record
    · show Prog.wp _ (P.afterLookup id payload policy none).run _ n'
      obtain ⟨o, record, hmask⟩ := mask_total hP payload policy
      unfold Processor.afterLookup
      dsimp only
      rw [hmask]
      rintro r n'' (⟨⟨value, rfl⟩, h'⟩ | ⟨rfl, htwo⟩)
      · rcases value with _ | _
        · -- another worker stored its record first
          rintro r n₃ (⟨⟨value, rfl⟩, h''⟩ | ⟨rfl, htwo⟩)
          · rcases value with _ | stored
            · exact .answered o ((h.trans h').trans h'')
            · exact existing_ends hP id payload stored ((h.trans h').trans h'')
          · exact .unavailable (htwo.after (h.trans h'))
        · exact .answered o (h.trans h')
      · exact .unavailable (htwo.after h)
    · exact existing_ends hP id payload record h
  · exact .unavailable htwo

end Raises

/-! ### What is in the stores was encoded -/

/-- The record that the operation writes, with its key. -/
def StoreOp.writes : StoreOp → Option (Str × MappingRecord)
  | get _ => none
  | putIfAbsent key record => some (key, record)
  | put key record => some (key, record)

section Authentic

variable {T Blob Nonce : Type} [LinearOrder T] [Add T]

/-- The blob was made for the key. -/
def MadeFor (codec : RecordCodec Blob Nonce) (key : Str) (blob : Blob) : Prop :=
  ∃ nonce record, blob = codec.encode nonce key record

theorem MadeFor.decode {codec : RecordCodec Blob Nonce} (hcodec : codec.Lossless) {key : Str} {blob : Blob}
    (h : MadeFor codec key blob) : ∃ record, codec.decode key blob = .ok record := by
  obtain ⟨nonce, record, rfl⟩ := h
  exact ⟨record, hcodec nonce key record⟩

/-- Every blob was made for the key that it is under. -/
structure Authentic (D : Stores T Blob Nonce) (d : Deployed T Blob) : Prop where
  redis : ∀ key e, d.redis.keys (PREFIX ++ key) = some e → MadeFor D.codec key e.2
  memory : ∀ x ∈ d.memory.items, MadeFor D.codec x.1 x.2.2

variable {D : Stores T Blob Nonce} {plan : RedisPlan} {d : Deployed T Blob}

omit [LinearOrder T] [Add T] in
theorem authentic_empty : Authentic D Deployed.empty := ⟨by rintro key e ⟨⟩, List.forall_mem_nil _⟩

omit [LinearOrder T] [Add T] in
/-- Setting a key to a blob made for it. -/
theorem authentic_update {codec : RecordCodec Blob Nonce} {keys : Str → Option (T × Blob)}
    (h : ∀ key e, keys (PREFIX ++ key) = some e → MadeFor codec key e.2) (nonce : Nonce) (key : Str)
    (record : MappingRecord) (t : T) : ∀ key' e,
      Function.update keys (PREFIX ++ key) (some (t, codec.encode nonce key record)) (PREFIX ++ key') = some e →
        MadeFor codec key' e.2 := by
  intro key' e he
  by_cases hk : PREFIX ++ key' = PREFIX ++ key
  · obtain rfl := List.append_cancel_left hk
    rw [Function.update_self] at he
    cases he
    exact ⟨nonce, record, rfl⟩
  · rw [Function.update_of_ne hk] at he
    exact h key' e he

theorem authentic_redis (op : StoreOp) {r : Redis T Blob}
    (h : ∀ key e, r.keys (PREFIX ++ key) = some e → MadeFor D.codec key e.2) :
    ∀ key e, (D.redis.serve plan D.server op r).2.keys (PREFIX ++ key) = some e → MadeFor D.codec key e.2 := by
  have hcommand : ∀ key e, (runCommand (D.server.clock r.calls) (D.redis.cmd (D.server.nonce r.calls) op) r.keys).2
      (PREFIX ++ key) = some e → MadeFor D.codec key e.2 := by
    cases op with
    | get key => exact h
    | putIfAbsent key record =>
      unfold RedisStore.cmd runCommand Stores.redis
      dsimp only
      split_ifs
      · exact h
      · exact authentic_update h _ key record _
    | put key record => exact authentic_update h _ key record _
  rcases hplan : plan r.calls with _ | ⟨exc, effect⟩
  · rw [RedisStore.serve_up hplan]
    exact hcommand
  · rw [RedisStore.serve_failed hplan]
    cases effect with
    | true => exact hcommand
    | false => exact h

omit [LinearOrder T] in
/-- What `put` leaves in the memory is an item from before or the new one. -/
theorem mem_put {S : MemoryStore T Blob Nonce} {items : Items T Blob} {key : Str} {record : MappingRecord}
    {nonce : Nonce} {t : T} {x : Str × (T × Blob)} (hx : x ∈ S.put items key record nonce t) :
    x ∈ items ∨ x.1 = key ∧ x.2.2 = S.codec.encode nonce key record := by
  unfold MemoryStore.put at hx
  rw [MemoryStore.evict_eq] at hx
  have hend := List.mem_of_mem_drop hx
  have hset : x ∈ setItem items key (t + S.ttl, S.codec.encode nonce key record) := by
    rcases List.mem_append.mp hend with hmem | hmem
    · exact (List.mem_filter.mp hmem).1
    · exact (List.mem_filter.mp hmem).1
  unfold setItem at hset
  split_ifs at hset
  · obtain ⟨y, hy, heq⟩ := List.mem_map.mp hset
    split_ifs at heq
    · exact Or.inr (heq ▸ ⟨rfl, rfl⟩)
    · exact Or.inl (heq ▸ hy)
  · rcases List.mem_append.mp hset with hmem | hmem
    · exact Or.inl hmem
    · exact Or.inr (List.mem_singleton.mp hmem ▸ ⟨rfl, rfl⟩)

omit [Add T] in
/-- What `get` leaves was there. -/
theorem mem_get {S : MemoryStore T Blob Nonce} {items : Items T Blob} {key : Str} {t : T}
    {x : Str × (T × Blob)} (hx : x ∈ (S.get items key t).2) : x ∈ items := by
  rcases MemoryStore.get_spec S items key t with ⟨-, hget⟩ | ⟨_, -, -, hget⟩ | ⟨_, -, -, hget⟩
  · rwa [hget] at hx
  · rw [hget] at hx
    exact (without_sublist key items).subset hx
  · rwa [hget] at hx

/-- An item of a memory, or the record that is written. -/
theorem serve_items (op : StoreOp) (m : Memory T Blob) {x : Str × (T × Blob)}
    (hx : x ∈ (Memory.serve D.memory D.worker op m).2.items) :
    x ∈ m.items ∨ ∃ nonce record, op.writes = some (x.1, record) ∧ x.2.2 = D.codec.encode nonce x.1 record := by
  have hput : ∀ {items : Items T Blob} {key record nonce t}, x ∈ D.memory.put items key record nonce t →
      x ∈ items ∨ x.1 = key ∧ x.2.2 = D.codec.encode nonce x.1 record := by
    intro items key record nonce t hx
    rcases mem_put hx with hx | ⟨hkey, hblob⟩
    · exact Or.inl hx
    · exact Or.inr ⟨hkey, hkey ▸ hblob⟩
  cases op with
  | get key => exact Or.inl (mem_get hx)
  | putIfAbsent key record =>
    have hget : ∀ x ∈ (D.memory.get m.items key (D.worker.clock m.readings)).2, x ∈ m.items := fun x hx => mem_get hx
    have hx' : x ∈ (D.memory.putIfAbsent m.items key record (D.worker.nonce m.readings) (D.worker.clock m.readings)
      (D.worker.clock (m.readings + 1))).2 := hx
    unfold MemoryStore.putIfAbsent at hx'
    rcases hres : D.memory.get m.items key (D.worker.clock m.readings) with ⟨exc | _ | stored, items⟩
    · rw [hres] at hx' hget
      exact Or.inl (hget x hx')
    · rw [hres] at hx' hget
      rcases hput hx' with hmem | ⟨hkey, hblob⟩
      · exact Or.inl (hget x hmem)
      · exact Or.inr ⟨_, record, by rw [hkey]; rfl, hblob⟩
    · rw [hres] at hx' hget
      exact Or.inl (hget x hx')
  | put key record =>
    rcases hput hx with hmem | ⟨hkey, hblob⟩
    · exact Or.inl hmem
    · exact Or.inr ⟨_, record, by rw [hkey]; rfl, hblob⟩

theorem authentic_memory (op : StoreOp) {m : Memory T Blob} (h : ∀ x ∈ m.items, MadeFor D.codec x.1 x.2.2) :
    ∀ x ∈ (Memory.serve D.memory D.worker op m).2.items, MadeFor D.codec x.1 x.2.2 := by
  intro x hx
  rcases serve_items op m hx with hmem | ⟨nonce, record, -, hblob⟩
  · exact h x hmem
  · exact ⟨nonce, record, hblob⟩

theorem authentic_step (op : BackendOp) (h : Authentic D d) : Authentic D (deployedStep D plan op d).2 := by
  cases op with
  | primary op => exact ⟨authentic_redis op h.redis, h.memory⟩
  | fallback op => exact ⟨h.redis, authentic_memory op h.memory⟩

/-- A request keeps the stores so. -/
theorem authentic_serve {P : Processor} (r : Request) (h : Authentic D d) :
    Authentic D (serveDeployed P D plan d r).2 :=
  Prog.run_keeps _ (fun op _ h => authentic_step op h) _ h

/-- So it is after every run of requests. -/
theorem authentic_run {P : Processor} (rs : List Request) (h : Authentic D d) :
    Authentic D (Service.run (serveDeployed P D plan) d rs).state :=
  Service.run_invariant (A := fun _ => True) (I := fun w => Authentic D w.state) (fun _ _ => trivial) h
    (fun _ r _ h => authentic_serve r h)

/-- Redis answers a command that succeeds. -/
theorem redis_answers (hcodec : D.codec.Lossless) (op : StoreOp) {r : Redis T Blob} (hplan : plan r.calls = none)
    (h : ∀ key e, r.keys (PREFIX ++ key) = some e → MadeFor D.codec key e.2) :
    ∃ value, (D.redis.serve plan D.server op r).1 = .ok value := by
  rw [RedisStore.serve_up hplan]
  cases op with
  | get key =>
    show ∃ value, D.redis.decoded key (liveValue (D.server.clock r.calls) (r.keys (PREFIX ++ key))) = .ok value
    rcases hkey : r.keys (PREFIX ++ key) with _ | ⟨expiresAt, blob⟩
    · exact ⟨none, rfl⟩
    · unfold liveValue
      dsimp only
      split_ifs
      · exact ⟨none, rfl⟩
      · obtain ⟨record, hdecode⟩ := (h key _ hkey).decode hcodec
        have hredis : D.redis.codec.decode key blob = .ok record := hdecode
        exact ⟨some record, by rw [RedisStore.decoded, hredis]; rfl⟩
  | putIfAbsent key record => exact ⟨_, rfl⟩
  | put key record => exact ⟨_, rfl⟩

/-- The memory answers. -/
theorem memory_answers (hcodec : D.codec.Lossless) (op : StoreOp) {m : Memory T Blob}
    (h : ∀ x ∈ m.items, MadeFor D.codec x.1 x.2.2) :
    ∃ value, (Memory.serve D.memory D.worker op m).1 = .ok value := by
  have hget : ∀ key t, ∃ found, (D.memory.get m.items key t).1 = .ok found := by
    intro key t
    rcases MemoryStore.get_spec D.memory m.items key t with ⟨-, hget⟩ | ⟨_, -, -, hget⟩ | ⟨x, hx, -, hget⟩
    · exact ⟨none, by rw [hget]⟩
    · exact ⟨none, by rw [hget]⟩
    · obtain ⟨hmem, rfl⟩ := newest_some hx
      obtain ⟨record, hdecode⟩ := (h x hmem).decode hcodec
      have hmemory : D.memory.codec.decode x.1 x.2.2 = .ok record := hdecode
      exact ⟨some record, by rw [hget, hmemory]; rfl⟩
  cases op with
  | get key => exact hget key _
  | putIfAbsent key record =>
    obtain ⟨found, hfound⟩ := hget key (D.worker.clock m.readings)
    obtain ⟨created, hcreated, -⟩ := MemoryStore.putIfAbsent_spec D.memory hfound record
      (D.worker.nonce m.readings) (D.worker.clock (m.readings + 1))
    exact ⟨created, hcreated⟩
  | put key record => exact ⟨(), rfl⟩

end Authentic

/-! ### The stores of `build_store` -/

section Courses

variable {plan : RedisPlan}

theorem not_timesOut_none {i : ℕ} (h : plan i = none) : ¬ plan.TimesOut i := by
  rintro ⟨effect, ht⟩
  rw [h] at ht
  cases ht

theorem not_timesOut_some {i : ℕ} {exc : RedisError} {effect : Bool} (h : plan i = some (exc, effect))
    (hexc : exc ≠ .timeout) : ¬ plan.TimesOut i := by
  rintro ⟨effect', ht⟩
  rw [h] at ht
  cases ht
  exact hexc rfl

theorem handled_unavailable (exc : RedisError) : handled (unavailable exc) = true := by
  cases exc <;> rfl

theorem isTimeout_unavailable (exc : RedisError) : isTimeout (unavailable exc) = decide (exc = .timeout) := by
  cases exc <;> rfl

/-- The fallback answers. -/
theorem callFallback_course (op : StoreOp) {n n' : ℕ} (h : plan.Quiet n n') :
    Prog.wp (copyCourse plan) (callFallback op) (fun r n'' => storeCourse plan op n r n'') n' := by
  rintro r n'' ⟨rfl, value, rfl⟩
  exact Or.inl ⟨⟨value, rfl⟩, h⟩

/-- The second attempt. -/
theorem handleError_course (op : StoreOp) {exc : RedisError} {effect : Bool} {n : ℕ}
    (hplan : plan n = some (exc, effect)) : Prog.wp (copyCourse plan)
      (FallbackStore.handleError op (unavailable exc)) (fun r n'' => storeCourse plan op n r n'') (n + 1) := by
  unfold FallbackStore.handleError
  rw [isTimeout_unavailable]
  by_cases hexc : exc = .timeout
  · subst hexc
    rw [decide_eq_true rfl, if_pos rfl]
    rintro r n'' ⟨rfl, hr⟩
    rcases hretry : plan (n + 1) with _ | ⟨exc', effect'⟩
    · rw [hretry] at hr
      obtain ⟨value, rfl⟩ := hr
      exact Or.inl ⟨⟨value, rfl⟩, .step (Or.inr rfl) (not_timesOut_none hretry)⟩
    · rw [hretry] at hr
      obtain rfl := hr
      show Prog.wp _ (if handled (unavailable exc') then _ else _) _ _
      rw [if_pos (handled_unavailable exc'), isTimeout_unavailable]
      by_cases hexc' : exc' = .timeout
      · subst hexc'
        rw [decide_eq_true rfl, if_pos rfl]
        exact Or.inr ⟨rfl, n, le_rfl, by omega, ⟨effect, hplan⟩, effect', hretry⟩
      · rw [decide_eq_false hexc', if_neg Bool.false_ne_true]
        exact callFallback_course op (.step (Or.inr rfl) (not_timesOut_some hretry hexc'))
  · rw [decide_eq_false hexc, if_neg Bool.false_ne_true]
    exact callFallback_course op (.step (Or.inl (.refl n)) (not_timesOut_some hplan hexc))

/-- `FallbackStore` fails only when two commands in a row time out. -/
theorem handler_course (op : StoreOp) (n : ℕ) :
    Prog.wp (copyCourse plan) (FallbackStore.handler op) (fun r n' => storeCourse plan op n r n') n := by
  rw [handler_eq]
  rintro r n' ⟨rfl, hr⟩
  rcases hplan : plan n with _ | ⟨exc, effect⟩
  · have hquiet : plan.Quiet n (n + 1) := .step (Or.inl (.refl n)) (not_timesOut_none hplan)
    rw [hplan] at hr
    obtain ⟨value, rfl⟩ := hr
    cases op with
    | get key =>
      cases value with
      | none => exact callFallback_course (.get key) hquiet
      | some record => exact Or.inl ⟨⟨_, rfl⟩, hquiet⟩
    | putIfAbsent key record => exact Or.inl ⟨⟨_, rfl⟩, hquiet⟩
    | put key record => exact Or.inl ⟨⟨_, rfl⟩, hquiet⟩
  · rw [hplan] at hr
    obtain rfl := hr
    show Prog.wp _ (if handled (unavailable exc) then FallbackStore.handleError op (unavailable exc) else _) _ _
    rw [if_pos (handled_unavailable exc)]
    exact handleError_course op hplan

variable {T Blob Nonce : Type} [LinearOrder T] [Add T] {D : Stores T Blob Nonce} {d : Deployed T Blob} (plan)

/-- The assembled stores keep to these courses, whatever records they hold. -/
theorem deployedStep_course (hcodec : D.codec.Lossless) (op : BackendOp) (h : Authentic D d) :
    copyCourse plan op d.redis.calls (deployedStep D plan op d).1 (deployedStep D plan op d).2.redis.calls := by
  cases op with
  | primary op =>
    unfold deployedStep copyCourse
    dsimp only
    rcases hplan : plan d.redis.calls with _ | ⟨exc, effect⟩
    · refine ⟨?_, redis_answers hcodec op hplan h.redis⟩
      rw [RedisStore.serve_up hplan]
    · rw [RedisStore.serve_failed hplan]
      exact ⟨rfl, rfl⟩
  | fallback op => exact ⟨rfl, memory_answers hcodec op h.memory⟩

/-- **How a request ends over the stores of `build_store`**, whatever records they hold and whatever Redis does. -/
theorem deployed_ends {P : Processor} (hP : P.Standard) (hcodec : D.codec.Lossless) (h : Authentic D d) (r : Request) :
    Ends plan r.policy d.redis.calls (serveDeployed P D plan d r).1 (serveDeployed P D plan d r).2.redis.calls := by
  have hends : Prog.wp (storeCourse plan) (P.process r.payloadId r.payload r.policy).run
      (Ends plan r.policy d.redis.calls) d.redis.calls := process_ends hP r.payloadId r.payload d.redis.calls
  have hwp := Prog.wp_interp handler_course hends
  exact (Prog.run_of_wp (h := deployedStep D plan) (fun d => d.redis.calls) (Authentic D)
    (fun op d h => ⟨deployedStep_course plan hcodec op h, authentic_step op h⟩) (t := d) h hwp).1

end Courses

/-! ### What is in the stores can be read -/

section Readable

/-- **Whatever a run leaves in the stores can be decoded** under the id that it is stored under, however Redis fails,
whatever the clocks read and whatever is evicted. -/
theorem stored_blobs_decode {T : Type} [LinearOrder T] [Add T] (A : Aead) (raised : Str → ByteArray → PyExc)
    (P : Processor) (D : Stores T ByteArray Nonce) (hcodec : D.codec = Codec.recordCodec A raised) (plan : RedisPlan)
    (rs : List Request) :
    let d := (Service.run (serveDeployed P D plan) Deployed.empty rs).state
    (∀ key e, d.redis.keys (PREFIX ++ key) = some e → ∃ record, Codec.decode A key e.2 = some record) ∧
      ∀ x ∈ d.memory.items, ∃ record, Codec.decode A x.1 x.2.2 = some record := by
  have hdecode : ∀ {key blob}, MadeFor D.codec key blob → ∃ record, Codec.decode A key blob = some record := by
    rintro key blob ⟨nonce, record, rfl⟩
    rw [hcodec]
    exact ⟨record, Codec.decode_encode A nonce key record⟩
  have hinv : Authentic D (Service.run (serveDeployed P D plan) Deployed.empty rs).state :=
    authentic_run rs authentic_empty
  exact ⟨fun key e he => hdecode (hinv.redis key e he), fun x hx => hdecode (hinv.memory x hx)⟩

theorem stored_blobs_decode_sample :
    let d := (Service.run (serveDeployed sample sampleStores comingAndGoing) Deployed.empty sampleRequests).state
    (∀ key e, d.redis.keys (PREFIX ++ key) = some e → ∃ record, Codec.decode plainAead key e.2 = some record) ∧
      ∀ x ∈ d.memory.items, ∃ record, Codec.decode plainAead x.1 x.2.2 = some record :=
  stored_blobs_decode plainAead sampleRaised sample sampleStores rfl comingAndGoing sampleRequests

end Readable

end PdMasking
