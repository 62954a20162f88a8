import PdMasking.Config
import PdMasking.Lib.Service
import PdMasking.Unmask

/-!
# PdMasking.Runs — runs of the service: requests handled one after another over a map

`Mapped` is the invariant of a run: behind the newest `MASK` response of an id stands the stored record,
made by masking that request's payload under its policy.  `Traced` is the converse for an id that starts
without a record: the stored record is the one of the newest `MASK` response.

* `round_trip`: the newest `MASK` response of an id is repeated for its payload and undone for its mask.
* `answer_to_issued_mask`: what a mask handed out earlier is answered with.
* `answer_to_original`: under which settings an original text is masked.
-/

namespace PdMasking

open Service

/-- The request and the outcome of a `MASK` response for the id. -/
def maskAnswer (id : Str) (r : Request) : Response → Option (Request × ProcessOutcome)
  | .error _ => none
  | .ok o => if r.payloadId = id ∧ o.direction = .mask then some (r, o) else none

/-- The newest `MASK` response for the id. -/
def lastMask (id : Str) (log : List (Request × Response)) : Option (Request × ProcessOutcome) :=
  latest (maskAnswer id) log

/-- The texts for which the id has handed out `masked` in a `MASK` response. -/
def sources (id : Str) (log : List (Request × Response)) (masked : Str) : List Str :=
  log.filterMap (fun e => (maskAnswer id e.1 e.2).bind (fun a =>
    if a.2.result = masked then some a.1.payload else none))

section Log

variable {id : Str} {log : List (Request × Response)}

theorem maskAnswer_eq_some {r r' : Request} {response : Response} {o : ProcessOutcome}
    (h : maskAnswer id r response = some (r', o)) : r' = r ∧ response = .ok o ∧ r.payloadId = id := by
  cases response with
  | error e => cases h
  | ok o' =>
    simp only [maskAnswer, Option.ite_none_right_eq_some, Option.some.injEq, Prod.mk.injEq] at h
    obtain ⟨⟨hid, -⟩, rfl, rfl⟩ := h
    exact ⟨rfl, rfl, hid⟩

/-- A text for which the id has handed out `masked`: one of its `MASK` responses. -/
theorem mem_sources {masked text : Str} : text ∈ sources id log masked ↔
    ∃ e ∈ log, ∃ o, maskAnswer id e.1 e.2 = some (e.1, o) ∧ o.result = masked ∧ e.1.payload = text := by
  unfold sources
  rw [List.mem_filterMap]
  constructor
  · rintro ⟨e, he, h⟩
    obtain ⟨⟨r, o⟩, ha, h⟩ := Option.bind_eq_some_iff.mp h
    obtain ⟨rfl, -, -⟩ := maskAnswer_eq_some ha
    simp only [Option.ite_none_right_eq_some, Option.some.injEq] at h
    exact ⟨e, he, o, ha, h.1, h.2⟩
  · rintro ⟨e, he, o, ha, hres, htext⟩
    refine ⟨e, he, ?_⟩
    rw [ha, Option.bind_some, if_pos hres, htext]

/-- The newest `MASK` response is one of the sources of its own mask. -/
theorem mem_sources_of_lastMask {r : Request} {o : ProcessOutcome} (h : lastMask id log = some (r, o)) :
    r.payload ∈ sources id log o.result := by
  obtain ⟨e, he, ha⟩ := exists_mem_of_latest h
  obtain ⟨rfl, -, -⟩ := maskAnswer_eq_some ha
  exact mem_sources.mpr ⟨e, he, o, ha, rfl, rfl⟩

/-- An id that has handed out a mask has a newest `MASK` response. -/
theorem exists_lastMask_of_sources {masked : Str} (h : sources id log masked ≠ []) :
    ∃ r o, lastMask id log = some (r, o) := by
  obtain ⟨text, ht⟩ := List.exists_mem_of_ne_nil _ h
  obtain ⟨e, he, o, ha, -, -⟩ := mem_sources.mp ht
  have hne : lastMask id log ≠ none := by
    refine latest_ne_none he ?_
    rw [ha]
    exact Option.some_ne_none _
  obtain ⟨⟨r, o'⟩, hl⟩ := Option.ne_none_iff_exists'.mp hne
  exact ⟨r, o', hl⟩

end Log

/-! ### The invariant -/

section Invariant

variable (P : Processor)

/-- The session of a run over a map. -/
abbrev MapSession := Session Request Response MapStore

/-- Behind the newest `MASK` response of every id stands the stored record. -/
def Mapped (w : MapSession) : Prop :=
  ∀ id r o, lastMask id w.log = some (r, o) →
    ∃ record, w.state id = some record ∧ P.mask r.payload r.policy = .ok (o, record)

/-- A stored record of the id comes from a `MASK` response. -/
def Traced (id : Str) (w : MapSession) : Prop :=
  ∀ record, w.state id = some record → ∃ r o, lastMask id w.log = some (r, o)

variable {P}

theorem lastMask_cons_of_mask {id : Str} {r : Request} {o : ProcessOutcome} {log : List (Request × Response)}
    (hid : r.payloadId = id) (ho : o.direction = .mask) : lastMask id ((r, .ok o) :: log) = some (r, o) :=
  latest_cons_of_some (if_pos ⟨hid, ho⟩)

theorem lastMask_cons_of_ne {id : Str} {r : Request} {response : Response} {log : List (Request × Response)}
    (h : ∀ o, response = .ok o → r.payloadId = id → o.direction ≠ .mask) :
    lastMask id ((r, response) :: log) = lastMask id log := by
  refine latest_cons_of_none ?_
  cases response with
  | error e => rfl
  | ok o =>
    refine if_neg ?_
    rintro ⟨hid, ho⟩
    exact h o rfl hid ho

/-- The log and the record of an id after one more request. -/
theorem answer_step (w : MapSession) (r : Request) (id : Str) :
    (r.payloadId = id ∧ ∃ o record, P.mask r.payload r.policy = .ok (o, record) ∧
      lastMask id (answer P.serve w r).log = some (r, o) ∧ (answer P.serve w r).state id = some record) ∨
    (lastMask id (answer P.serve w r).log = lastMask id w.log ∧ (answer P.serve w r).state id = w.state id) := by
  unfold answer
  rcases P.serve_cases w.state r with ⟨o, record, hm, hs⟩ | ⟨response, hs, hdir⟩
  · rw [hs]
    by_cases hid : r.payloadId = id
    · refine Or.inl ⟨hid, o, record, hm, lastMask_cons_of_mask hid (P.mask_spec hm).1, ?_⟩
      show Function.update w.state r.payloadId (some record) id = some record
      rw [hid, Function.update_self]
    · refine Or.inr ⟨lastMask_cons_of_ne (fun _ _ h => absurd h hid), ?_⟩
      show Function.update w.state r.payloadId (some record) id = w.state id
      rw [Function.update_of_ne (Ne.symm hid)]
  · rw [hs]
    exact Or.inr ⟨lastMask_cons_of_ne (fun o ho _ => hdir o ho), rfl⟩

theorem mapped_answer (w : MapSession) (r : Request) (h : Mapped P w) : Mapped P (answer P.serve w r) := by
  intro id r' o' hlast
  rcases answer_step (P := P) w r id with ⟨-, o, record, hm, hl, hs⟩ | ⟨hl, hs⟩
  · rw [hl] at hlast
    obtain ⟨rfl, rfl⟩ := Prod.mk.inj (Option.some.inj hlast)
    exact ⟨record, hs, hm⟩
  · rw [hl] at hlast
    rw [hs]
    exact h id r' o' hlast

theorem traced_answer (id : Str) (w : MapSession) (r : Request) (h : Traced id w) :
    Traced id (answer P.serve w r) := by
  intro record hrec
  rcases answer_step (P := P) w r id with ⟨-, o, -, -, hl, -⟩ | ⟨hl, hs⟩
  · exact ⟨r, o, hl⟩
  · rw [hs] at hrec
    rw [hl]
    exact h record hrec

variable (P)

theorem mapped_run (s : MapStore) (rs : List Request) : Mapped P (run P.serve s rs) := by
  refine run_invariant (A := fun _ => True) (fun _ _ => trivial) ?_ (fun w r _ => mapped_answer w r)
  intro id r o h
  cases h

theorem traced_run {s : MapStore} {id : Str} (hs : s id = none) (rs : List Request) :
    Traced id (run P.serve s rs) := by
  refine run_invariant (A := fun _ => True) (fun _ _ => trivial) ?_ (fun w r _ => traced_answer id w r)
  intro record h
  have hsome : s id = some record := h
  rw [hs] at hsome
  cases hsome

end Invariant

/-! ### Round trip and retry -/

section RoundTrip

variable (P : Processor)

/-- The answers given from a stored record that was made for `text` with the outcome `o`. -/
theorem serve_of_mask {s : MapStore} {id text : Str} {policy' : SystemPolicy} {o : ProcessOutcome}
    {record : MappingRecord} (policy : SystemPolicy) (hs : s id = some record)
    (hm : P.mask text policy' = .ok (o, record)) :
    (∃ o', (P.serve s ⟨id, text, policy⟩).1 = .ok o' ∧ o'.result = o.result) ∧
    (policy.unmaskAllowed = true → ∃ o', (P.serve s ⟨id, o.result, policy⟩).1 = .ok o' ∧ o'.result = text) := by
  obtain ⟨-, horiginal, hmasked⟩ := P.mask_spec hm
  refine ⟨?_, ?_⟩
  · obtain ⟨o', ha, hres⟩ : ∃ o', P.answer text record policy = .ok (o', none) ∧ o'.result = record.masked :=
      Processor.answer_of_original horiginal.symm
    refine ⟨o', ?_, hres.trans hmasked⟩
    rw [P.serve_some (r := ⟨id, text, policy⟩) hs, ha]
  · intro hu
    have ha : P.answer o.result record policy = .ok (⟨record.original, .unmask, []⟩, none) :=
      Processor.answer_masked hmasked.symm (Or.inr hu)
    refine ⟨⟨record.original, .unmask, []⟩, ?_, horiginal⟩
    rw [P.serve_some (r := ⟨id, o.result, policy⟩) hs, ha]

/-- **Round trip and retry over whole runs.**  Whatever was requested in between, a system that sends the
payload of the newest `MASK` response of an id gets its mask, and one that sends the mask and may unmask
gets the payload. -/
theorem round_trip (s : MapStore) (rs : List Request) {id : Str} {r : Request} {o : ProcessOutcome}
    (h : lastMask id (run P.serve s rs).log = some (r, o)) :
    (∀ policy, ∃ o', (P.serve (run P.serve s rs).state ⟨id, r.payload, policy⟩).1 = .ok o' ∧
      o'.result = o.result) ∧
    (∀ policy, policy.unmaskAllowed = true →
      ∃ o', (P.serve (run P.serve s rs).state ⟨id, o.result, policy⟩).1 = .ok o' ∧ o'.result = r.payload) := by
  obtain ⟨record, hs, hm⟩ := mapped_run P s rs id r o h
  refine ⟨?_, ?_⟩
  · intro policy
    exact (serve_of_mask P policy hs hm).1
  · intro policy hu
    exact (serve_of_mask P policy hs hm).2 hu

/-- Two systems, two ids, a retry and a forbidden request: the first text still makes the round trip. -/
theorem round_trip_mixed :
    let rs : List Request :=
      [⟨"1".toList, "a@b.ru c@d.ru".toList, systems.default⟩,
        ⟨"2".toList, "x@y.ru ok".toList, systems.analytics⟩,
        ⟨"1".toList, "a@b.ru c@d.ru".toList, systems.analytics⟩,
        ⟨"1".toList, "*@*.** *@*.**".toList, systems.analytics⟩]
    let w := run sample.serve (fun _ => none) rs
    (∀ policy, ∃ o', (sample.serve w.state ⟨"1".toList, "a@b.ru c@d.ru".toList, policy⟩).1 = .ok o' ∧
      o'.result = "*@*.** *@*.**".toList) ∧
    (∀ policy, policy.unmaskAllowed = true →
      ∃ o', (sample.serve w.state ⟨"1".toList, "*@*.** *@*.**".toList, policy⟩).1 = .ok o' ∧
        o'.result = "a@b.ru c@d.ru".toList) := by
  intro rs w
  exact round_trip sample (fun _ => none) rs
    (r := ⟨"1".toList, "a@b.ru c@d.ru".toList, systems.default⟩)
    (o := ⟨"*@*.** *@*.**".toList, .mask, [("email".toList, 2)]⟩) rfl

end RoundTrip

/-! ### Masks handed out earlier -/

section Issued

variable (P : Processor)

/-- The answers given to a text that is neither the original nor the mask of the stored record. -/
theorem serve_other {s : MapStore} {r : Request} {record : MappingRecord} (hs : s r.payloadId = some record)
    (hm : r.payload ≠ record.masked) (ho : r.payload ≠ record.original) (hu : r.policy.unmaskAllowed = true) :
    ((∃ f ∈ record.fragments, Occurs r.payload f) →
      (P.serve s r).1 = .ok ⟨(unmaskFragments P.runtime r.payload record.fragments).1, .unmaskFragments, []⟩) ∧
    ((¬ ∃ f ∈ record.fragments, Occurs r.payload f) →
      (P.serve s r).1.map ProcessOutcome.result = P.maskedText r.payload r.policy) := by
  rw [← replaced_ne_zero_iff P.runtime]
  rw [P.serve_some hs]
  refine ⟨?_, ?_⟩
  · intro hr
    rw [Processor.answer_fragments hm ho hr, if_pos hu]
  · intro hr
    rw [Processor.answer_new hm ho (not_not.mp hr), ← P.mask_result]
    cases P.mask r.payload r.policy <;> rfl

/-- **Masks handed out earlier.**  Under one system that may unmask, a mask that an id has handed out is
answered by a text it was handed out for or by its own mask as a new text, unless a later text was masked
meanwhile and the mask of one of its fragments occurs in the earlier one: then the fragments of that later
text are restored. -/
theorem answer_to_issued_mask {policy : SystemPolicy} (hu : policy.unmaskAllowed = true) (s : MapStore) {id : Str}
    {rs : List Request} (hrs : ∀ r ∈ rs, r.payloadId = id → r.policy = policy) {masked : Str}
    (hissued : sources id (run P.serve s rs).log masked ≠ []) :
    ∃ r o record, lastMask id (run P.serve s rs).log = some (r, o) ∧
      P.mask r.payload policy = .ok (o, record) ∧
      ((∃ o', (P.serve (run P.serve s rs).state ⟨id, masked, policy⟩).1 = .ok o' ∧
          o'.result ∈ sources id (run P.serve s rs).log masked) ∨
        (P.serve (run P.serve s rs).state ⟨id, masked, policy⟩).1.map ProcessOutcome.result =
          P.maskedText masked policy ∨
        (r.payload ≠ masked ∧ o.result ≠ masked ∧ (∃ f ∈ record.fragments, Occurs masked f) ∧
          (P.serve (run P.serve s rs).state ⟨id, masked, policy⟩).1 =
            .ok ⟨(unmaskFragments P.runtime masked record.fragments).1, .unmaskFragments, []⟩)) := by
  obtain ⟨r, o, hlast⟩ := exists_lastMask_of_sources hissued
  obtain ⟨record, hrec, hmask⟩ := mapped_run P s rs id r o hlast
  have hpolicy : r.policy = policy := by
    obtain ⟨e, he, ha⟩ := exists_mem_of_latest hlast
    obtain ⟨rfl, -, hid⟩ := maskAnswer_eq_some ha
    exact hrs e.1 (mem_of_mem_log e he) hid
  rw [hpolicy] at hmask
  obtain ⟨-, horiginal, hmasked⟩ := P.mask_spec hmask
  refine ⟨r, o, record, hlast, hmask, ?_⟩
  by_cases hm : masked = o.result
  · -- the stored record is that of a source
    obtain ⟨o', ho', hres⟩ := (serve_of_mask P policy hrec hmask).2 hu
    refine Or.inl ⟨o', ?_, ?_⟩
    · rw [hm]
      exact ho'
    · rw [hres, hm]
      exact mem_sources_of_lastMask hlast
  by_cases ho : masked = r.payload
  · -- the mask itself was masked as a new text
    obtain ⟨o', ho', hres⟩ := (serve_of_mask P policy hrec hmask).1
    refine Or.inr (Or.inl ?_)
    rw [ho, ho', P.maskedText_of_mask hmask, ← hres]
    rfl
  have hother := serve_other P (r := ⟨id, masked, policy⟩) hrec (by rw [hmasked]; exact hm)
    (by rw [horiginal]; exact ho) hu
  by_cases hf : ∃ f ∈ record.fragments, Occurs masked f
  · exact Or.inr (Or.inr ⟨Ne.symm ho, Ne.symm hm, hf, hother.1 hf⟩)
  · exact Or.inr (Or.inl (hother.2 hf))

/-- After another text was masked, the mask of the first one. -/
theorem answer_to_issued_mask_overwritten :
    let rs : List Request :=
      [⟨"1".toList, "a@b.ru c@d.ru".toList, systems.default⟩, ⟨"1".toList, "x@y.ru ok".toList, systems.default⟩]
    let w := run sample.serve (fun _ => none) rs
    ∃ r o record, lastMask "1".toList w.log = some (r, o) ∧
      sample.mask r.payload systems.default = .ok (o, record) ∧
      ((∃ o', (sample.serve w.state ⟨"1".toList, "*@*.** *@*.**".toList, systems.default⟩).1 = .ok o' ∧
          o'.result ∈ sources "1".toList w.log "*@*.** *@*.**".toList) ∨
        (sample.serve w.state ⟨"1".toList, "*@*.** *@*.**".toList, systems.default⟩).1.map ProcessOutcome.result =
          sample.maskedText "*@*.** *@*.**".toList systems.default ∨
        (r.payload ≠ "*@*.** *@*.**".toList ∧ o.result ≠ "*@*.** *@*.**".toList ∧
          (∃ f ∈ record.fragments, Occurs "*@*.** *@*.**".toList f) ∧
          (sample.serve w.state ⟨"1".toList, "*@*.** *@*.**".toList, systems.default⟩).1 =
            .ok ⟨(unmaskFragments sample.runtime "*@*.** *@*.**".toList record.fragments).1,
              .unmaskFragments, []⟩)) := by
  intro rs w
  refine answer_to_issued_mask sample rfl (fun _ => none) ?_ ?_
  · intro r hr _
    simp only [rs, List.mem_cons, List.not_mem_nil, or_false] at hr
    rcases hr with rfl | rfl <;> rfl
  · decide

/-- The address of the later text `x@y.ru ok` is put in place of both addresses of the earlier one. -/
theorem issued_mask_decoded_with_later_values :
    ¬ ∀ (rs : List Request) (masked : Str),
      (∀ r ∈ rs, r.payloadId = "1".toList ∧ r.policy = systems.default) →
      sources "1".toList (run sample.serve (fun _ => none) rs).log masked ≠ [] →
      ∃ o', (sample.serve (run sample.serve (fun _ => none) rs).state
        ⟨"1".toList, masked, systems.default⟩).1 = .ok o' ∧
        (o'.result ∈ sources "1".toList (run sample.serve (fun _ => none) rs).log masked ∨
          sample.maskedText masked systems.default = .ok o'.result) := by
  intro h
  obtain ⟨o', ho', hor⟩ := h
    [⟨"1".toList, "a@b.ru c@d.ru".toList, systems.default⟩, ⟨"1".toList, "x@y.ru ok".toList, systems.default⟩]
    "*@*.** *@*.**".toList (by simp) (by decide)
  have hrun : (sample.serve (run sample.serve (fun _ => none)
      [⟨"1".toList, "a@b.ru c@d.ru".toList, systems.default⟩,
        ⟨"1".toList, "x@y.ru ok".toList, systems.default⟩]).state
      ⟨"1".toList, "*@*.** *@*.**".toList, systems.default⟩).1 =
        .ok ⟨"x@y.ru x@y.ru".toList, .unmaskFragments, []⟩ := rfl
  rw [hrun, Except.ok.injEq] at ho'
  subst ho'
  rcases hor with hsource | hnew
  · revert hsource
    decide
  · have hmask : sample.maskedText "*@*.** *@*.**".toList systems.default = .ok "*@*.** *@*.**".toList := rfl
    rw [hmask, Except.ok.injEq] at hnew
    revert hnew
    decide

end Issued

/-! ### Originals -/

section Originals

variable (P : Processor)

/-- **The settings behind an answer to an original.**  An unknown id gets the mask under the settings of the
asking system; the original of the stored record gets the mask under the settings of the system whose `MASK`
response made that record. -/
theorem answer_to_original {s : MapStore} (rs : List Request) {r : Request} (hs : s r.payloadId = none) :
    ((run P.serve s rs).state r.payloadId = none →
      (P.serve (run P.serve s rs).state r).1.map ProcessOutcome.result = P.maskedText r.payload r.policy) ∧
    (∀ record, (run P.serve s rs).state r.payloadId = some record → record.original = r.payload →
      ∃ r' o', lastMask r.payloadId (run P.serve s rs).log = some (r', o') ∧ r'.payload = r.payload ∧
        (P.serve (run P.serve s rs).state r).1.map ProcessOutcome.result = P.maskedText r.payload r'.policy) := by
  refine ⟨?_, ?_⟩
  · intro hnone
    rw [P.serve_none hnone, ← P.mask_result]
    cases P.mask r.payload r.policy <;> rfl
  · intro record hrec horiginal
    obtain ⟨r', o', hlast⟩ := traced_run P hs rs record hrec
    obtain ⟨record', hrec', hmask⟩ := mapped_run P s rs r.payloadId r' o' hlast
    obtain rfl : record' = record := Option.some.inj (hrec'.symm.trans hrec)
    obtain ⟨-, horiginal', -⟩ := P.mask_spec hmask
    have hpayload : r'.payload = r.payload := horiginal'.symm.trans horiginal
    rw [hpayload] at hmask
    obtain ⟨o, ho, hres⟩ := (serve_of_mask P r.policy hrec hmask).1
    refine ⟨r', o', hlast, hpayload, ?_⟩
    have hserve : (P.serve (run P.serve s rs).state r).1 = .ok o := ho
    rw [hserve, P.maskedText_of_mask hmask, ← hres]
    rfl

/-- A system that hides telephone numbers only. -/
def phonesOnly : SystemPolicy := { systems.default with systemId := "phones".toList, pdTypes := {.phone} }

/-- The record of `phonesOnly` decides what `support-bot` gets. -/
theorem answer_to_original_shared :
    let rs : List Request := [⟨"1".toList, "a@b.ru c@d.ru".toList, phonesOnly⟩]
    let w := run sample.serve (fun _ => none) rs
    let r : Request := ⟨"1".toList, "a@b.ru c@d.ru".toList, systems.supportBot⟩
    (w.state "1".toList = none →
      (sample.serve w.state r).1.map ProcessOutcome.result = sample.maskedText r.payload systems.supportBot) ∧
    (∀ record, w.state "1".toList = some record → record.original = r.payload →
      ∃ r' o', lastMask "1".toList w.log = some (r', o') ∧ r'.payload = r.payload ∧
        (sample.serve w.state r).1.map ProcessOutcome.result = sample.maskedText r.payload r'.policy) := by
  intro rs w r
  exact answer_to_original sample (s := fun _ => none) rs (r := r) rfl

/-- `support-bot`, which hides e-mail addresses, gets them in the clear. -/
theorem original_answered_in_the_clear :
    ¬ ∀ (rs : List Request) (r : Request),
      ((run sample.serve (fun _ => none) rs).state r.payloadId = none ∨
        ∃ record, (run sample.serve (fun _ => none) rs).state r.payloadId = some record ∧
          record.original = r.payload) →
      (sample.serve (run sample.serve (fun _ => none) rs).state r).1.map ProcessOutcome.result =
        sample.maskedText r.payload r.policy := by
  intro h
  have hbot := h [⟨"1".toList, "a@b.ru c@d.ru".toList, phonesOnly⟩]
    ⟨"1".toList, "a@b.ru c@d.ru".toList, systems.supportBot⟩ (Or.inr ⟨_, rfl, rfl⟩)
  have hclear : (sample.serve (run sample.serve (fun _ => none)
      [⟨"1".toList, "a@b.ru c@d.ru".toList, phonesOnly⟩]).state
      ⟨"1".toList, "a@b.ru c@d.ru".toList, systems.supportBot⟩).1.map ProcessOutcome.result =
        .ok "a@b.ru c@d.ru".toList := rfl
  have hmask : sample.maskedText "a@b.ru c@d.ru".toList systems.supportBot =
      .ok "[EMAIL_4011b7] [EMAIL_efe04d]".toList := rfl
  rw [hclear, hmask, Except.ok.injEq] at hbot
  revert hbot
  decide

end Originals

end PdMasking
