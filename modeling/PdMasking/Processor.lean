import PdMasking.Policy
import PdMasking.Store

/-!
# PdMasking.Processor — the contract of `POST /process` (`core/processor.py`)

`Processor.process` is a program over the store.  `Processor.answer` is what `_existing` decides on a stored
record: an exception, an answer, or an answer with a new record that overwrites the stored one
(`existing_eq`). `Processor.serve` runs a request against a store that behaves as a map.
-/

namespace PdMasking

inductive Direction
  | mask | maskRetry | unmask | unmaskFragments
  deriving DecidableEq, Repr

structure ProcessOutcome where
  result : Str
  direction : Direction
  pdTypes : List (Str × ℕ)
  deriving DecidableEq

/-- `dict(Counter(e.pd_type.value for e in entities))`, in the order of first occurrence. -/
def pdCounts (entities : List Entity) : List (Str × ℕ) :=
  (entities.map Entity.pdType).eraseDups.map (fun t =>
    (t.value, (entities.filter (fun e => e.pdType = t)).length))

/-- `Processor`, without its store. -/
structure Processor where
  runtime : Runtime
  engine : DetectionEngine
  masker : Masker

/-- The arguments of `process`. -/
structure Request where
  payloadId : Str
  payload : Str
  policy : SystemPolicy

/-- The response to a request. -/
abbrev Response := Except PyExc ProcessOutcome

namespace Processor

variable (P : Processor)

/-- `_mask`. -/
def mask (text : Str) (policy : SystemPolicy) : Except PyExc (ProcessOutcome × MappingRecord) := do
  let entities := P.engine.detect P.runtime text policy.pdTypes policy.combinations
  let masked ← P.masker.mask P.runtime text entities policy.rules
  return (⟨masked.text, .mask, pdCounts entities⟩, ⟨text, masked.text, masked.fragments⟩)

/-- `_existing`. -/
def existing (payloadId payload : Str) (record : MappingRecord) (policy : SystemPolicy) :
    StoreM ProcessOutcome :=
  if payload = record.masked then
    if record.masked ≠ record.original ∧ ¬ policy.unmaskAllowed then throw (.unmaskForbidden policy.systemId)
    else pure ⟨record.original, .unmask, []⟩
  else if payload = record.original then pure ⟨record.masked, .maskRetry, []⟩
  else
    let (restored, replaced) := unmaskFragments P.runtime payload record.fragments
    if replaced ≠ 0 then
      if ¬ policy.unmaskAllowed then throw (.unmaskForbidden policy.systemId)
      else pure ⟨restored, .unmaskFragments, []⟩
    else
      match P.mask payload policy with
      | .error e => throw e
      | .ok (outcome, newRecord) => do
        StoreM.put payloadId newRecord
        return outcome

/-- `process`. -/
def process (payloadId payload : Str) (policy : SystemPolicy) : StoreM ProcessOutcome := do
  match ← StoreM.get payloadId with
  | some record => P.existing payloadId payload record policy
  | none =>
    match P.mask payload policy with
    | .error e => throw e
    | .ok (outcome, record) =>
      if ← StoreM.putIfAbsent payloadId record then return outcome
      -- a parallel retry stored its record first: answer from that record
      match ← StoreM.get payloadId with
      | none => return outcome
      | some stored => P.existing payloadId payload stored policy

/-! ### The stages of a request -/

/-- `process` once it has lost the insertion. -/
def reread (payloadId payload : Str) (policy : SystemPolicy) (outcome : ProcessOutcome) :
    StoreM ProcessOutcome := do
  match ← StoreM.get payloadId with
  | none => return outcome
  | some stored => P.existing payloadId payload stored policy

/-- `process` once it has masked the payload. -/
def insert (payloadId payload : Str) (policy : SystemPolicy) (outcome : ProcessOutcome)
    (record : MappingRecord) : StoreM ProcessOutcome := do
  if ← StoreM.putIfAbsent payloadId record then return outcome
  P.reread payloadId payload policy outcome

/-- `process` once it has looked up the id. -/
def afterLookup (payloadId payload : Str) (policy : SystemPolicy) : Option MappingRecord → StoreM ProcessOutcome
  | some record => P.existing payloadId payload record policy
  | none =>
    match P.mask payload policy with
    | .error e => throw e
    | .ok (outcome, record) => P.insert payloadId payload policy outcome record

theorem process_eq (payloadId payload : Str) (policy : SystemPolicy) :
    P.process payloadId payload policy = StoreM.get payloadId >>= P.afterLookup payloadId payload policy := by
  unfold process
  refine congrArg _ ?_
  funext record
  cases record with
  | some record => rfl
  | none =>
    unfold afterLookup insert reread
    rcases P.mask payload policy with e | ⟨outcome, record⟩ <;> rfl

/-! ### The decision on a stored record -/

/-- What `_existing` decides: an exception, or an answer and the record it writes, if any. -/
def answer (payload : Str) (record : MappingRecord) (policy : SystemPolicy) :
    Except PyExc (ProcessOutcome × Option MappingRecord) :=
  if payload = record.masked then
    if record.masked ≠ record.original ∧ ¬ policy.unmaskAllowed then .error (.unmaskForbidden policy.systemId)
    else .ok (⟨record.original, .unmask, []⟩, none)
  else if payload = record.original then .ok (⟨record.masked, .maskRetry, []⟩, none)
  else if (unmaskFragments P.runtime payload record.fragments).2 ≠ 0 then
    if ¬ policy.unmaskAllowed then .error (.unmaskForbidden policy.systemId)
    else .ok (⟨(unmaskFragments P.runtime payload record.fragments).1, .unmaskFragments, []⟩, none)
  else (P.mask payload policy).map (fun m => (m.1, some m.2))

/-- `_existing` performs its decision. -/
theorem existing_eq (payloadId payload : Str) (record : MappingRecord) (policy : SystemPolicy) :
    P.existing payloadId payload record policy =
      match P.answer payload record policy with
      | .error e => throw e
      | .ok (outcome, none) => pure outcome
      | .ok (outcome, some newRecord) => do
        StoreM.put payloadId newRecord
        return outcome := by
  unfold existing answer
  obtain ⟨restored, replaced⟩ := unmaskFragments P.runtime payload record.fragments
  cases P.mask payload policy <;> dsimp only <;> split_ifs <;> rfl

theorem mask_error {text : Str} {policy : SystemPolicy} {e : PyExc} (h : P.mask text policy = .error e) :
    e = .indexError := by
  unfold mask at h
  dsimp only at h
  cases hm : P.masker.mask P.runtime text
      (P.engine.detect P.runtime text policy.pdTypes policy.combinations) policy.rules with
  | error e' =>
    rw [hm] at h
    cases h
    exact Masker.maskFrom_error P.runtime P.masker hm
  | ok m =>
    rw [hm] at h
    cases h

section Answer

variable {P} {payload : Str} {record : MappingRecord} {policy : SystemPolicy}

theorem answer_masked (h : payload = record.masked)
    (hu : record.masked = record.original ∨ policy.unmaskAllowed) :
    P.answer payload record policy = .ok (⟨record.original, .unmask, []⟩, none) := by
  unfold answer
  rw [if_pos h, if_neg]
  tauto

theorem answer_masked_forbidden (h : payload = record.masked) (hne : record.masked ≠ record.original)
    (hu : ¬ policy.unmaskAllowed) :
    P.answer payload record policy = .error (.unmaskForbidden policy.systemId) := by
  unfold answer
  rw [if_pos h, if_pos ⟨hne, hu⟩]

theorem answer_original (hm : payload ≠ record.masked) (h : payload = record.original) :
    P.answer payload record policy = .ok (⟨record.masked, .maskRetry, []⟩, none) := by
  unfold answer
  rw [if_neg hm, if_pos h]

/-- The record's own original is answered with its mask, whatever the policy. -/
theorem answer_of_original (h : payload = record.original) :
    ∃ o, P.answer payload record policy = .ok (o, none) ∧ o.result = record.masked := by
  by_cases hm : payload = record.masked
  · refine ⟨_, answer_masked hm (Or.inl ?_), ?_⟩
    · rw [← hm, h]
    · rw [← hm, h]
  · exact ⟨_, answer_original hm h, rfl⟩

theorem answer_fragments (hm : payload ≠ record.masked) (ho : payload ≠ record.original)
    (hr : (unmaskFragments P.runtime payload record.fragments).2 ≠ 0) :
    P.answer payload record policy =
      if policy.unmaskAllowed then
        .ok (⟨(unmaskFragments P.runtime payload record.fragments).1, .unmaskFragments, []⟩, none)
      else .error (.unmaskForbidden policy.systemId) := by
  unfold answer
  rw [if_neg hm, if_neg ho, if_pos hr]
  by_cases hu : policy.unmaskAllowed = true
  · rw [if_neg (by simpa using hu), if_pos hu]
  · rw [if_pos hu, if_neg hu]

theorem answer_new (hm : payload ≠ record.masked) (ho : payload ≠ record.original)
    (hr : (unmaskFragments P.runtime payload record.fragments).2 = 0) :
    P.answer payload record policy = (P.mask payload policy).map (fun m => (m.1, some m.2)) := by
  unfold answer
  rw [if_neg hm, if_neg ho, if_neg (not_not.mpr hr)]

/-- A record is only written when the payload is masked as a new text. -/
theorem answer_writes {o : ProcessOutcome} {r : MappingRecord}
    (h : P.answer payload record policy = .ok (o, some r)) :
    P.mask payload policy = .ok (o, r) := by
  unfold answer at h
  split_ifs at h <;> try (simp only [Except.ok.injEq, Prod.mk.injEq, reduceCtorEq, and_false] at h)
  cases hmask : P.mask payload policy with
  | error e => rw [hmask] at h; cases h
  | ok m =>
    rw [hmask] at h
    simp only [Except.map, Except.ok.injEq, Prod.mk.injEq, Option.some.injEq] at h
    obtain ⟨h1, h2⟩ := h
    rw [← h1, ← h2]

/-- An answer that writes nothing does not have the direction `MASK`. -/
theorem answer_keeps {o : ProcessOutcome} (h : P.answer payload record policy = .ok (o, none)) :
    o.direction ≠ .mask := by
  unfold answer at h
  split_ifs at h
  · simp only [Except.ok.injEq, Prod.mk.injEq, and_true] at h
    subst h
    show Direction.unmask ≠ Direction.mask
    exact Direction.noConfusion
  · simp only [Except.ok.injEq, Prod.mk.injEq, and_true] at h
    subst h
    show Direction.maskRetry ≠ Direction.mask
    exact Direction.noConfusion
  · simp only [Except.ok.injEq, Prod.mk.injEq, and_true] at h
    subst h
    show Direction.unmaskFragments ≠ Direction.mask
    exact Direction.noConfusion
  · cases hmask : P.mask payload policy <;> rw [hmask] at h <;> simp [Except.map] at h

theorem answer_error {e : PyExc} (h : P.answer payload record policy = .error e) :
    e = .indexError ∨ e = .unmaskForbidden policy.systemId := by
  unfold answer at h
  split_ifs at h
  · cases h
    exact Or.inr rfl
  · cases h
    exact Or.inr rfl
  · cases hm : P.mask payload policy with
    | error e' =>
      rw [hm] at h
      cases h
      exact Or.inl (P.mask_error hm)
    | ok m =>
      rw [hm] at h
      cases h

end Answer

/-- `_mask` answers with the text of `Masker.mask` and records its result. -/
theorem mask_inv {text : Str} {policy : SystemPolicy} {o : ProcessOutcome} {r : MappingRecord}
    (h : P.mask text policy = .ok (o, r)) :
    ∃ m, P.masker.mask P.runtime text (P.engine.detect P.runtime text policy.pdTypes policy.combinations)
        policy.rules = .ok m ∧
      o = ⟨m.text, .mask, pdCounts (P.engine.detect P.runtime text policy.pdTypes policy.combinations)⟩ ∧
      r = ⟨text, m.text, m.fragments⟩ := by
  unfold mask at h
  cases hm : P.masker.mask P.runtime text
      (P.engine.detect P.runtime text policy.pdTypes policy.combinations) policy.rules with
  | error e =>
    simp only [hm] at h
    cases h
  | ok m =>
    simp only [hm] at h
    cases h
    exact ⟨m, rfl, rfl, rfl⟩

/-- The record made by `_mask` is that of the text, its mask being the answer. -/
theorem mask_spec {text : Str} {policy : SystemPolicy} {o : ProcessOutcome} {r : MappingRecord}
    (h : P.mask text policy = .ok (o, r)) : o.direction = .mask ∧ r.original = text ∧ r.masked = o.result := by
  obtain ⟨m, -, rfl, rfl⟩ := P.mask_inv h
  exact ⟨rfl, rfl, rfl⟩

/-- `Masker.mask` on the entities that the engine detects, both under the settings of the system. -/
def maskedText (text : Str) (policy : SystemPolicy) : Except PyExc Str :=
  (P.masker.mask P.runtime text (P.engine.detect P.runtime text policy.pdTypes policy.combinations)
    policy.rules).map MaskResult.text

theorem mask_result (text : Str) (policy : SystemPolicy) :
    (P.mask text policy).map (fun m => m.1.result) = P.maskedText text policy := by
  unfold mask maskedText
  dsimp only
  cases P.masker.mask P.runtime text
      (P.engine.detect P.runtime text policy.pdTypes policy.combinations) policy.rules <;> rfl

theorem maskedText_of_mask {text : Str} {policy : SystemPolicy} {o : ProcessOutcome} {r : MappingRecord}
    (h : P.mask text policy = .ok (o, r)) : P.maskedText text policy = .ok o.result := by
  rw [← mask_result, h]
  rfl

/-! ### A request against a map -/

/-- A request handled alone against a store that behaves as a map. -/
def serve (s : MapStore) (r : Request) : Response × MapStore :=
  Prog.exec mapStep (P.process r.payloadId r.payload r.policy) s

theorem exec_existing (s : MapStore) (payloadId payload : Str) (record : MappingRecord)
    (policy : SystemPolicy) :
    Prog.exec mapStep (P.existing payloadId payload record policy) s =
      match P.answer payload record policy with
      | .error e => (.error e, s)
      | .ok (outcome, none) => (.ok outcome, s)
      | .ok (outcome, some newRecord) => (.ok outcome, Function.update s payloadId (some newRecord)) := by
  rw [existing_eq]
  rcases P.answer payload record policy with e | ⟨outcome, _ | newRecord⟩ <;> rfl

/-- An unknown id: the payload is masked and its record stored. -/
theorem serve_none {s : MapStore} {r : Request} (hs : s r.payloadId = none) :
    P.serve s r =
      match P.mask r.payload r.policy with
      | .error e => (.error e, s)
      | .ok (outcome, record) => (.ok outcome, Function.update s r.payloadId (some record)) := by
  unfold serve process
  rw [Prog.exec_bind_ok (exec_get s r.payloadId), hs]
  rcases P.mask r.payload r.policy with e | ⟨outcome, record⟩
  · rfl
  · dsimp only
    rw [Prog.exec_bind_ok (exec_putIfAbsent_none s r.payloadId record hs)]
    rfl

/-- A known id: the decision on its record. -/
theorem serve_some {s : MapStore} {r : Request} {record : MappingRecord} (hs : s r.payloadId = some record) :
    P.serve s r =
      match P.answer r.payload record r.policy with
      | .error e => (.error e, s)
      | .ok (outcome, none) => (.ok outcome, s)
      | .ok (outcome, some newRecord) => (.ok outcome, Function.update s r.payloadId (some newRecord)) := by
  rw [← exec_existing]
  unfold serve process
  rw [Prog.exec_bind_ok (exec_get s r.payloadId), hs]

/-- A request against a map fails in the masking, or because unmasking is forbidden. -/
theorem serve_error {s : MapStore} {r : Request} {e : PyExc} (h : (P.serve s r).1 = .error e) :
    e = .indexError ∨ e = .unmaskForbidden r.policy.systemId := by
  cases hs : s r.payloadId with
  | none =>
    rw [P.serve_none hs] at h
    rcases hm : P.mask r.payload r.policy with e' | ⟨o, record⟩
    · rw [hm] at h
      cases h
      exact Or.inl (P.mask_error hm)
    · rw [hm] at h
      cases h
  | some record =>
    rw [P.serve_some hs] at h
    rcases ha : P.answer r.payload record r.policy with e' | ⟨o, _ | newRecord⟩
    · rw [ha] at h
      cases h
      exact answer_error ha
    · rw [ha] at h
      cases h
    · rw [ha] at h
      cases h

/-- **The step of the service**: either the payload is masked as a new text and its record stored, or the
store stays as it is and the response does not have the direction `MASK`. -/
theorem serve_cases (s : MapStore) (r : Request) :
    (∃ o record, P.mask r.payload r.policy = .ok (o, record) ∧
      P.serve s r = (.ok o, Function.update s r.payloadId (some record))) ∨
    (∃ response, P.serve s r = (response, s) ∧ ∀ o, response = .ok o → o.direction ≠ .mask) := by
  cases hs : s r.payloadId with
  | none =>
    rw [P.serve_none hs]
    rcases hm : P.mask r.payload r.policy with e | ⟨o, record⟩
    · refine Or.inr ⟨.error e, rfl, ?_⟩
      rintro o ⟨⟩
    · exact Or.inl ⟨o, record, rfl, rfl⟩
  | some record =>
    rw [P.serve_some hs]
    rcases ha : P.answer r.payload record r.policy with e | ⟨o, _ | newRecord⟩
    · refine Or.inr ⟨.error e, rfl, ?_⟩
      rintro o ⟨⟩
    · refine Or.inr ⟨.ok o, rfl, ?_⟩
      rintro o' ⟨⟩
      exact answer_keeps ha
    · exact Or.inl ⟨o, newRecord, answer_writes ha, rfl⟩

end Processor

end PdMasking
