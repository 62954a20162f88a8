import PdMasking.Detectors.Base

/-!
# PdMasking.Engine — running the detectors, overlaps and requirements (`core/engine.py`)

The detectors are a parameter of the engine, as in the source.  `detect` collects the candidates of the
applicable detectors, keeps a disjoint family greedily (`resolveOverlaps`) and drops the entities whose
companion types are missing (`applyRequirements`).

`chain_detect`: the hulls of what `detect` returns follow each other from left to right.
-/

namespace PdMasking

/-- `Combinations`. -/
abbrev Combinations := PDType → Option (Finset PDType)

/-- The order of the sort keys `(-priority, -length, start)`. -/
def keyLe (e e' : Entity) : Prop :=
  e'.priority < e.priority ∨ (e.priority = e'.priority ∧
    (e'.length < e.length ∨ (e.length = e'.length ∧ e.start ≤ e'.start)))

instance : DecidableRel keyLe := fun _ _ => inferInstanceAs (Decidable (_ ∨ _))

/-- `bisect.bisect_left` on a sorted list. -/
def bisectLeft (starts : List ℕ) (x : ℕ) : ℕ := (starts.takeWhile (· < x)).length

/-- One iteration of `_resolve_overlaps` on the two parallel lists `starts` and `chosen`. -/
def resolveStep (acc : List ℕ × List Entity) (entity : Entity) : List ℕ × List Entity :=
  let idx := bisectLeft acc.1 entity.start
  if 0 < idx ∧ acc.2[idx - 1]?.any (fun left => entity.start < left.stop) then acc
  else if acc.2[idx]?.any (fun right => right.start < entity.stop) then acc
  else (acc.1.insertIdx idx entity.start, acc.2.insertIdx idx entity)

/-- `_resolve_overlaps`. -/
def resolveOverlaps (candidates : List Entity) : List Entity :=
  ((candidates.insertionSort keyLe).foldl resolveStep ([], [])).2

/-- `satisfied` of `_apply_requirements`. -/
def satisfied (combinations : Combinations) (present : Finset PDType) (entity : Entity) : Bool :=
  if entity.requiresAny ≠ ∅ ∧ entity.requiresAny ∩ present = ∅ then false
  else
    match combinations entity.pdType with
    | none => true
    | some required => required = ∅ ∨ required ∩ present ≠ ∅

/-- `{e.pd_type for e in kept}`. -/
def present (kept : List Entity) : Finset PDType := (kept.map Entity.pdType).toFinset

/-- The loop of `_apply_requirements`; every round but the last one drops an entity, so `kept.length` rounds are
enough. -/
def requirementsLoop (combinations : Combinations) : ℕ → List Entity → List Entity
  | 0, kept => kept
  | n + 1, kept =>
    let filtered := kept.filter (satisfied combinations (present kept))
    if filtered.length = kept.length then filtered else requirementsLoop combinations n filtered

/-- `_apply_requirements`. -/
def applyRequirements (entities : List Entity) (combinations : Combinations) : List Entity :=
  requirementsLoop combinations entities.length entities

/-- `DetectionEngine`. -/
structure DetectionEngine where
  detectors : List Detector

namespace DetectionEngine

variable (R : Runtime) (D : DetectionEngine)

/-- The list comprehension of `detect`. -/
def candidates (text : Str) (enabled : Finset PDType) : List Entity :=
  (D.detectors.filter (fun d => d.applicable (textHasDigits R text) enabled)).flatMap (fun d =>
    ((d.detect text).filterMap id).filter (fun e => e.pdType ∈ enabled))

/-- `DetectionEngine.detect`. -/
def detect (text : Str) (enabled : Finset PDType) (combinations : Combinations) : List Entity :=
  if text = [] ∨ enabled = ∅ then []
  else
    (applyRequirements (resolveOverlaps (D.candidates R text enabled)) combinations).insertionSort
      (fun e e' => e.start ≤ e'.start)

end DetectionEngine

/-! ### The hulls of the result follow each other -/

/-- The hulls lie behind `pos`, one behind the other. -/
def Chain : ℕ → List Entity → Prop
  | _, [] => True
  | pos, e :: es => pos ≤ e.start ∧ Chain e.stop es

/-- `e` ends before `e'` starts. -/
def Before (e e' : Entity) : Prop := e.stop ≤ e'.start

theorem chain_of_pairwise : ∀ {es : List Entity} {pos : ℕ}, es.Pairwise Before → (∀ e ∈ es, pos ≤ e.start) →
    Chain pos es
  | [], _, _, _ => trivial
  | e :: es, _, hp, hpos => by
    rw [List.pairwise_cons] at hp
    exact ⟨hpos e List.mem_cons_self, chain_of_pairwise hp.2 hp.1⟩

theorem insertIdx_length_append {α : Type} (left right : List α) (a : α) :
    (left ++ right).insertIdx left.length a = left ++ a :: right := by
  induction left with
  | nil => rfl
  | cons b left ih => rw [List.cons_append, List.length_cons, List.insertIdx_succ_cons, ih, List.cons_append]

/-- The loop invariant of `_resolve_overlaps`: the parallel lists are aligned and the chosen hulls follow each
other. -/
def Resolved (acc : List ℕ × List Entity) : Prop := acc.1 = acc.2.map Entity.start ∧ acc.2.Pairwise Before

/-- The insertion point splits the chosen entities into those that start before `x` and those that do not. -/
theorem bisectLeft_spec {chosen : List Entity} (h : chosen.Pairwise Before) (x : ℕ) :
    ∃ left right, chosen = left ++ right ∧ bisectLeft (chosen.map Entity.start) x = left.length ∧
      (∀ e ∈ left, e.start < x) ∧ (∀ e ∈ right, x ≤ e.start) := by
  induction chosen with
  | nil => exact ⟨[], [], rfl, rfl, by simp, by simp⟩
  | cons e chosen ih =>
    rw [List.pairwise_cons] at h
    by_cases hx : e.start < x
    · obtain ⟨left, right, rfl, hlen, hl, hr⟩ := ih h.2
      refine ⟨e :: left, right, rfl, ?_, ?_, hr⟩
      · simp only [bisectLeft] at hlen ⊢
        rw [List.map_cons, List.takeWhile_cons_of_pos (by simpa using hx), List.length_cons, hlen,
          List.length_cons]
      · intro e' he'
        rcases List.mem_cons.mp he' with rfl | he'
        · exact hx
        · exact hl e' he'
    · refine ⟨[], e :: chosen, rfl, ?_, by simp, ?_⟩
      · simp only [bisectLeft]
        rw [List.map_cons, List.takeWhile_cons_of_neg (by simpa using hx)]
        rfl
      · intro e' he'
        rcases List.mem_cons.mp he' with rfl | he'
        · exact not_lt.mp hx
        · have h1 : e.stop ≤ e'.start := h.1 e' he'
          have h2 := e.start_lt_stop
          omega

/-- In a chain of hulls those before the last one end before it starts. -/
theorem before_of_concat {left : List Entity} {last : Entity} {x : ℕ} (h : (left ++ [last]).Pairwise Before)
    (hlast : last.stop ≤ x) : ∀ e ∈ left ++ [last], e.stop ≤ x := by
  intro e he
  rcases List.mem_append.mp he with he | he
  · have h1 : e.stop ≤ last.start := (List.pairwise_append.mp h).2.2 e he last (List.mem_singleton_self last)
    have h2 := last.start_lt_stop
    omega
  · obtain rfl := List.mem_singleton.mp he
    exact hlast

/-- In a chain of hulls those behind the first one start after it ends. -/
theorem before_of_cons {right : List Entity} {first : Entity} {x : ℕ} (h : (first :: right).Pairwise Before)
    (hfirst : x ≤ first.start) : ∀ e ∈ first :: right, x ≤ e.start := by
  intro e he
  rcases List.mem_cons.mp he with rfl | he
  · exact hfirst
  · have h1 : first.stop ≤ e.start := (List.pairwise_cons.mp h).1 e he
    have h2 := first.start_lt_stop
    omega

/-- **One iteration**: the entity overlaps a chosen one and is dropped, or it is put between the chosen ones
before it and those behind it. -/
theorem resolveStep_spec {acc : List ℕ × List Entity} (h : Resolved acc) (entity : Entity) :
    ((∃ k ∈ acc.2, entity.overlaps k) ∧ resolveStep acc entity = acc) ∨
      ∃ left right, acc.2 = left ++ right ∧ (∀ e ∈ left, Before e entity) ∧ (∀ e ∈ right, Before entity e) ∧
        resolveStep acc entity =
          ((left ++ entity :: right).map Entity.start, left ++ entity :: right) := by
  obtain ⟨starts, chosen⟩ := acc
  obtain ⟨hst, hpw⟩ := h
  simp only at hst hpw
  subst hst
  obtain ⟨left, right, rfl, hidx, hl, hr⟩ := bisectLeft_spec hpw entity.start
  obtain ⟨hpl, hpr, -⟩ := List.pairwise_append.mp hpw
  have hentity := entity.start_lt_stop
  unfold resolveStep
  dsimp only
  rw [hidx]
  split_ifs with h1 h2
  · -- the neighbour on the left reaches over the start
    refine Or.inl ⟨?_, rfl⟩
    rcases left.eq_nil_or_concat with rfl | ⟨pre, last, rfl⟩
    · simp at h1
    · rw [List.concat_eq_append] at *
      have hlast : last ∈ (pre ++ [last]) ++ right := by simp
      have hover : entity.start < last.stop := by simpa using h1.2
      have hstart := hl last (by simp)
      exact ⟨last, hlast, hover, by omega⟩
  · -- the neighbour on the right starts before the end
    refine Or.inl ⟨?_, rfl⟩
    rcases right with _ | ⟨first, post⟩
    · simp at h2
    · have hover : first.start < entity.stop := by simpa using h2
      have hstart := hr first List.mem_cons_self
      have hstop := first.start_lt_stop
      exact ⟨first, List.mem_append_right _ List.mem_cons_self, by omega, hover⟩
  · refine Or.inr ⟨left, right, rfl, ?_, ?_, ?_⟩
    · intro e he
      rcases left.eq_nil_or_concat with rfl | ⟨pre, last, rfl⟩
      · simp at he
      · rw [List.concat_eq_append] at *
        have hlast : last.stop ≤ entity.start := by
          by_contra hc
          refine h1 ⟨by simp, ?_⟩
          simpa using hc
        exact before_of_concat hpl hlast e he
    · intro e he
      rcases right with _ | ⟨first, post⟩
      · simp at he
      · have hfirst : entity.stop ≤ first.start := by
          by_contra hc
          refine h2 ?_
          simpa using hc
        exact before_of_cons hpr hfirst e he
    · have hlen : (left.map Entity.start).length = left.length := List.length_map _
      rw [insertIdx_length_append, List.map_append, List.map_append, ← hlen, insertIdx_length_append,
        List.map_cons]

theorem resolved_resolveStep {acc : List ℕ × List Entity} (h : Resolved acc) (entity : Entity) :
    Resolved (resolveStep acc entity) := by
  rcases resolveStep_spec h entity with ⟨-, hsame⟩ | ⟨left, right, hsplit, hleft, hright, hnew⟩
  · rw [hsame]
    exact h
  · rw [hnew]
    obtain ⟨-, hpw⟩ := h
    rw [hsplit, List.pairwise_append] at hpw
    obtain ⟨hpl, hpr, hlr⟩ := hpw
    refine ⟨rfl, List.pairwise_append.mpr ⟨hpl, List.pairwise_cons.mpr ⟨hright, hpr⟩, ?_⟩⟩
    intro e he e' he'
    rcases List.mem_cons.mp he' with rfl | he'
    · exact hleft e he
    · exact hlr e he e' he'

theorem resolved_foldl : ∀ (es : List Entity) {acc : List ℕ × List Entity}, Resolved acc →
    Resolved (es.foldl resolveStep acc)
  | [], _, h => h
  | e :: es, _, h => resolved_foldl es (resolved_resolveStep h e)

theorem pairwise_resolveOverlaps (candidates : List Entity) : (resolveOverlaps candidates).Pairwise Before := by
  have h0 : Resolved ([], []) := ⟨rfl, List.Pairwise.nil⟩
  exact (resolved_foldl (candidates.insertionSort keyLe) h0).2

theorem requirementsLoop_sublist (combinations : Combinations) : ∀ (n : ℕ) (kept : List Entity),
    (requirementsLoop combinations n kept).Sublist kept
  | 0, _ => List.Sublist.refl _
  | n + 1, kept => by
    rw [requirementsLoop]
    split_ifs
    · exact List.filter_sublist
    · exact (requirementsLoop_sublist combinations n _).trans List.filter_sublist

section Detect

variable (R : Runtime) (D : DetectionEngine) (text : Str) (enabled : Finset PDType) (combinations : Combinations)

theorem pairwise_accepted :
    (applyRequirements (resolveOverlaps (D.candidates R text enabled)) combinations).Pairwise Before :=
  (pairwise_resolveOverlaps _).sublist (requirementsLoop_sublist combinations _ _)

/-- The accepted entities are in order already when `detect` sorts them. -/
theorem detect_eq (h : ¬ (text = [] ∨ enabled = ∅)) : D.detect R text enabled combinations =
    applyRequirements (resolveOverlaps (D.candidates R text enabled)) combinations := by
  have hsorted : (applyRequirements (resolveOverlaps (D.candidates R text enabled)) combinations).Pairwise
      (fun e e' => e.start ≤ e'.start) :=
    (pairwise_accepted R D text enabled combinations).imp (fun {e e'} h => e.start_lt_stop.le.trans h)
  unfold DetectionEngine.detect
  rw [if_neg h, List.Pairwise.insertionSort_eq hsorted]

theorem pairwise_detect : (D.detect R text enabled combinations).Pairwise Before := by
  by_cases h : text = [] ∨ enabled = ∅
  · unfold DetectionEngine.detect
    rw [if_pos h]
    exact List.Pairwise.nil
  · rw [detect_eq R D text enabled combinations h]
    exact pairwise_accepted R D text enabled combinations

/-- **The detected hulls follow each other** from left to right. -/
theorem chain_detect : Chain 0 (D.detect R text enabled combinations) :=
  chain_of_pairwise (pairwise_detect R D text enabled combinations) (fun e _ => Nat.zero_le e.start)

end Detect

end PdMasking
