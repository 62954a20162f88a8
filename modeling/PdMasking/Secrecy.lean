import PdMasking.Config
import PdMasking.Unmask

/-!
# PdMasking.Secrecy — what a system without the unmask right can learn from a stored record

Two records are `Alike` when they differ in their originals only: the same masked text, the same masks of
the fragments, every fragment changed by its mask in both.  `answer_alike`: without the unmask right the
decision on a payload that is neither original is the same on both, since whether something would be
replaced depends on the masks alone (`replaced_ne_zero_iff`).  `forbidden_response_alike` is the same about
requests to two stores.
-/

namespace PdMasking

/-- The records differ in their originals only. -/
structure Alike (record record' : MappingRecord) : Prop where
  masked : record.masked = record'.masked
  masks : record.fragments.map Prod.fst = record'.fragments.map Prod.fst
  changed : ∀ f ∈ record.fragments, f.1 ≠ f.2
  changed' : ∀ f ∈ record'.fragments, f.1 ≠ f.2

namespace Alike

variable {record record' : MappingRecord}

theorem symm (h : Alike record record') : Alike record' record :=
  ⟨h.masked.symm, h.masks.symm, h.changed', h.changed⟩

/-- A mask that occurs in the text for one record does so for the other. -/
theorem occurs (h : Alike record record') {t : Str} (ho : ∃ f ∈ record.fragments, Occurs t f) :
    ∃ f ∈ record'.fragments, Occurs t f := by
  obtain ⟨f, hf, -, hin⟩ := ho
  have hmem : f.1 ∈ record'.fragments.map Prod.fst := by
    rw [← h.masks]
    exact List.mem_map_of_mem hf
  obtain ⟨g, hg, hgf⟩ := List.mem_map.mp hmem
  refine ⟨g, hg, h.changed' g hg, ?_⟩
  rw [hgf]
  exact hin

theorem replaced_iff (h : Alike record record') (R : Runtime) (t : Str) :
    (unmaskFragments R t record.fragments).2 ≠ 0 ↔ (unmaskFragments R t record'.fragments).2 ≠ 0 := by
  rw [replaced_ne_zero_iff, replaced_ne_zero_iff]
  exact ⟨h.occurs, h.symm.occurs⟩

end Alike

section Forbidden

variable (P : Processor) {record record' : MappingRecord}

/-- Without the unmask right, a payload that is neither original is decided alike on alike records. -/
theorem answer_alike {payload : Str} {policy : SystemPolicy} (hu : policy.unmaskAllowed = false)
    (h : Alike record record') (ho : payload ≠ record.original) (ho' : payload ≠ record'.original) :
    P.answer payload record policy = P.answer payload record' policy := by
  have hnot : ¬ policy.unmaskAllowed = true := by
    rw [hu]
    exact Bool.false_ne_true
  by_cases hm : payload = record.masked
  · -- the mask itself: forbidden, since it is not the original
    have hm' : payload = record'.masked := hm.trans h.masked
    rw [Processor.answer_masked_forbidden hm (by rw [← hm]; exact ho) hnot,
      Processor.answer_masked_forbidden hm' (by rw [← hm']; exact ho') hnot]
  have hm' : payload ≠ record'.masked := by
    rw [← h.masked]
    exact hm
  by_cases hr : (unmaskFragments P.runtime payload record.fragments).2 = 0
  · have hr' : (unmaskFragments P.runtime payload record'.fragments).2 = 0 := by
      by_contra hne
      exact (h.replaced_iff P.runtime payload).mpr hne hr
    rw [Processor.answer_new hm ho hr, Processor.answer_new hm' ho' hr']
  · have hr' := (h.replaced_iff P.runtime payload).mp hr
    rw [Processor.answer_fragments hm ho hr, Processor.answer_fragments hm' ho' hr', if_neg hnot, if_neg hnot]

/-- The request answered by the store `s` with `record` under its id. -/
def serveOn (s : MapStore) (record : MappingRecord) (r : Request) : Response × MapStore :=
  P.serve (Function.update s r.payloadId (some record)) r

/-- **A system without the unmask right learns nothing about stored originals**: from two stores whose
records for the id are alike it gets the same response, and both stores are left alone or hold the same new
record. -/
theorem forbidden_response_alike {r : Request} (hu : r.policy.unmaskAllowed = false) (h : Alike record record')
    (ho : r.payload ≠ record.original) (ho' : r.payload ≠ record'.original) (s : MapStore) :
    (serveOn P s record r).1 = (serveOn P s record' r).1 ∧
    (((serveOn P s record r).2 = Function.update s r.payloadId (some record) ∧
        (serveOn P s record' r).2 = Function.update s r.payloadId (some record')) ∨
      ∃ newRecord, (serveOn P s record r).2 = Function.update s r.payloadId (some newRecord) ∧
        (serveOn P s record' r).2 = Function.update s r.payloadId (some newRecord)) := by
  have hs : ∀ rec : MappingRecord, Function.update s r.payloadId (some rec) r.payloadId = some rec :=
    fun rec => Function.update_self r.payloadId _ s
  have hanswer := answer_alike P hu h ho ho'
  unfold serveOn
  rw [P.serve_some (hs record), P.serve_some (hs record'), ← hanswer]
  rcases P.answer r.payload record r.policy with e | ⟨o, _ | newRecord⟩
  · exact ⟨rfl, Or.inl ⟨rfl, rfl⟩⟩
  · exact ⟨rfl, Or.inl ⟨rfl, rfl⟩⟩
  · refine ⟨rfl, Or.inr ⟨newRecord, ?_, ?_⟩⟩
    · exact Function.update_idem ..
    · exact Function.update_idem ..

/-- `analytics` quotes the mask of an address whose original it does not know. -/
theorem forbidden_response_alike_quote :
    let record : MappingRecord :=
      ⟨"a@b.ru ok".toList, "*@*.** ok".toList, [("*@*.**".toList, "a@b.ru".toList)]⟩
    let record' : MappingRecord :=
      ⟨"x@y.ru ok".toList, "*@*.** ok".toList, [("*@*.**".toList, "x@y.ru".toList)]⟩
    let r : Request := ⟨"1".toList, "ok *@*.**".toList, systems.analytics⟩
    let s : MapStore := fun _ => none
    (serveOn sample s record r).1 = (serveOn sample s record' r).1 ∧
    (((serveOn sample s record r).2 = Function.update s r.payloadId (some record) ∧
        (serveOn sample s record' r).2 = Function.update s r.payloadId (some record')) ∨
      ∃ newRecord, (serveOn sample s record r).2 = Function.update s r.payloadId (some newRecord) ∧
        (serveOn sample s record' r).2 = Function.update s r.payloadId (some newRecord)) := by
  intro record record' r s
  have halike : Alike record record' := ⟨rfl, rfl, by decide, by decide⟩
  have ho : r.payload ≠ record.original := by decide
  have ho' : r.payload ≠ record'.original := by decide
  exact forbidden_response_alike sample rfl halike ho ho' s

end Forbidden

end PdMasking
