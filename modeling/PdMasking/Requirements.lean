import PdMasking.Lib.Shrink
import PdMasking.Overlaps

/-!
# PdMasking.Requirements — what `_apply_requirements` keeps, and what `detect` returns

`Supported` is the rule in its own terms: the companion types of an entity meet the types that are present.

* `applyRequirements_greatest`: the loop comes to an end and returns the greatest part of the entities whose
  members are supported by that part.
* `detect_lower_detector`: a detector with lower priorities than all others only adds entities.
* `not_detected_of_supported`: why a candidate whose companions are there can be missing from the result.
-/

namespace PdMasking

variable (combinations : Combinations)

/-! ### The rule -/

section Rule

/-- One of the companion types is present, when there are any. -/
def Meets (types : Finset PDType) (kept : List Entity) : Prop := types ≠ ∅ → ∃ k ∈ kept, k.pdType ∈ types

/-- The conditions of an entity are met by the types of `kept`. -/
def Supported (kept : List Entity) (e : Entity) : Prop :=
  Meets e.requiresAny kept ∧ ∀ required ∈ combinations e.pdType, Meets required kept

/-- Every member is supported by the list itself. -/
def Consistent (kept : List Entity) : Prop := ∀ e ∈ kept, Supported combinations kept e

theorem inter_present_eq_empty {types : Finset PDType} {kept : List Entity} :
    types ∩ present kept = ∅ ↔ ∀ k ∈ kept, k.pdType ∉ types := by
  rw [Finset.eq_empty_iff_forall_notMem]
  unfold present
  constructor
  · intro h k hk hin
    refine h k.pdType ?_
    rw [Finset.mem_inter, List.mem_toFinset]
    exact ⟨hin, List.mem_map_of_mem hk⟩
  · intro h t ht
    rw [Finset.mem_inter, List.mem_toFinset, List.mem_map] at ht
    obtain ⟨hin, k, hk, rfl⟩ := ht
    exact h k hk hin

theorem meets_iff {types : Finset PDType} {kept : List Entity} :
    Meets types kept ↔ ¬ (types ≠ ∅ ∧ types ∩ present kept = ∅) := by
  rw [inter_present_eq_empty]
  unfold Meets
  push Not
  rfl

theorem satisfied_iff {kept : List Entity} {e : Entity} :
    satisfied combinations (present kept) e = true ↔ Supported combinations kept e := by
  unfold satisfied Supported
  rw [meets_iff]
  by_cases h : e.requiresAny ≠ ∅ ∧ e.requiresAny ∩ present kept = ∅
  · simp [h]
  · rw [if_neg h]
    rcases hc : combinations e.pdType with _ | required
    · simp [h]
    · simp only [Option.mem_def, Option.some.injEq, forall_eq', meets_iff, decide_eq_true_eq]
      tauto

/-- The rule as a support in the sense of `Lib.Shrink`. -/
def support (kept : List Entity) (e : Entity) : Bool := satisfied combinations (present kept) e

theorem support_iff {kept : List Entity} {e : Entity} :
    support combinations kept e = true ↔ Supported combinations kept e := satisfied_iff combinations

theorem Meets.mono {types : Finset PDType} {kept kept' : List Entity} (h : Meets types kept) (hsub : kept ⊆ kept') :
    Meets types kept' := by
  intro hne
  obtain ⟨k, hk, hin⟩ := h hne
  exact ⟨k, hsub hk, hin⟩

theorem Supported.mono {kept kept' : List Entity} {e : Entity} (h : Supported combinations kept e)
    (hsub : kept ⊆ kept') : Supported combinations kept' e :=
  ⟨h.1.mono hsub, fun required hr => (h.2 required hr).mono hsub⟩

theorem supports_support : Shrink.Supports (support combinations) := by
  intro kept kept' e hsub h
  rw [support_iff] at h ⊢
  exact h.mono combinations hsub

end Rule

/-! ### The loop -/

section Loop

theorem requirementsLoop_eq : ∀ (n : ℕ) (kept : List Entity),
    requirementsLoop combinations n kept = Shrink.shrink (support combinations) n kept
  | 0, _ => rfl
  | n + 1, kept => by
    rw [requirementsLoop, Shrink.shrink, requirementsLoop_eq n]
    rfl

theorem applyRequirements_eq_filter (entities : List Entity) : applyRequirements entities combinations =
    entities.filter (support combinations (applyRequirements entities combinations)) := by
  unfold applyRequirements
  rw [requirementsLoop_eq]
  exact Shrink.shrink_eq_filter (supports_support combinations) le_rfl

theorem mem_applyRequirements {entities : List Entity} {e : Entity} : e ∈ applyRequirements entities combinations ↔
    e ∈ entities ∧ Supported combinations (applyRequirements entities combinations) e := by
  conv_lhs => rw [applyRequirements_eq_filter]
  rw [List.mem_filter, support_iff]

/-- The result is consistent. -/
theorem consistent_applyRequirements (entities : List Entity) :
    Consistent combinations (applyRequirements entities combinations) := by
  intro e he
  exact ((mem_applyRequirements combinations).mp he).2

/-- Every consistent family of entities is in the result. -/
theorem subset_applyRequirements {entities S : List Entity} (hS : Consistent combinations S) (h : S ⊆ entities) :
    S ⊆ applyRequirements entities combinations := by
  unfold applyRequirements
  rw [requirementsLoop_eq]
  refine Shrink.supported_shrink (supports_support combinations) ?_ le_rfl h
  intro e he
  exact (support_iff combinations).mpr (hS e he)

/-- More entities keep at least as many. -/
theorem applyRequirements_mono {entities entities' : List Entity} (h : entities ⊆ entities') :
    applyRequirements entities combinations ⊆ applyRequirements entities' combinations := by
  refine subset_applyRequirements combinations (consistent_applyRequirements combinations entities) ?_
  intro e he
  exact h ((mem_applyRequirements combinations).mp he).1

theorem applyRequirements_perm {entities entities' : List Entity} (h : entities.Perm entities') :
    (applyRequirements entities combinations).Perm (applyRequirements entities' combinations) := by
  have hsame : ∀ e, Supported combinations (applyRequirements entities combinations) e ↔
      Supported combinations (applyRequirements entities' combinations) e := by
    intro e
    constructor
    · intro he
      exact he.mono combinations (applyRequirements_mono combinations h.subset)
    · intro he
      exact he.mono combinations (applyRequirements_mono combinations h.symm.subset)
  rw [applyRequirements_eq_filter combinations entities, applyRequirements_eq_filter combinations entities']
  have hfilter : entities.filter (support combinations (applyRequirements entities combinations)) =
      entities.filter (support combinations (applyRequirements entities' combinations)) := by
    refine List.filter_congr ?_
    intro e _
    rw [Bool.eq_iff_iff, support_iff, support_iff]
    exact hsame e
  rw [hfilter]
  exact h.filter _

/-- A round of the loop. -/
def requirementsRound (kept : List Entity) : List Entity := kept.filter (satisfied combinations (present kept))

/-- **The largest consistent set.**  The loop ends after at most as many rounds that drop something as there
are entities; it returns a consistent part of them, in their order, which contains every consistent part and
does not depend on their order. -/
theorem applyRequirements_greatest (entities : List Entity) :
    (∃ n ≤ entities.length,
        (∀ m < n, ((requirementsRound combinations)^[m + 1] entities).length <
          ((requirementsRound combinations)^[m] entities).length) ∧
        ((requirementsRound combinations)^[n + 1] entities).length =
          ((requirementsRound combinations)^[n] entities).length ∧
        applyRequirements entities combinations = (requirementsRound combinations)^[n + 1] entities) ∧
      (applyRequirements entities combinations).Sublist entities ∧
      Consistent combinations (applyRequirements entities combinations) ∧
      (∀ S : List Entity, S.Sublist entities → Consistent combinations S →
        S.Sublist (applyRequirements entities combinations)) ∧
      ∀ entities' : List Entity, entities.Perm entities' →
        (applyRequirements entities combinations).Perm (applyRequirements entities' combinations) := by
  refine ⟨?_, ?_, consistent_applyRequirements combinations entities, ?_, ?_⟩
  · obtain ⟨n, hn, hdrop, hfix, hres⟩ := Shrink.exists_rounds (support combinations) entities.length entities le_rfl
    refine ⟨n, hn, hdrop, congrArg List.length hfix, ?_⟩
    unfold applyRequirements
    rw [requirementsLoop_eq]
    exact hres
  · exact requirementsLoop_sublist combinations entities.length entities
  · intro S hsub hS
    have hin := subset_applyRequirements combinations hS hsub.subset
    rw [applyRequirements_eq_filter]
    have hself : S.filter (support combinations (applyRequirements entities combinations)) = S := by
      rw [List.filter_eq_self]
      intro e he
      rw [support_iff]
      exact ((mem_applyRequirements combinations).mp (hin he)).2
    rw [← hself]
    exact hsub.filter _
  · intro entities' hperm
    exact applyRequirements_perm combinations hperm

end Loop

/-! ### What `detect` returns -/

section Detect

variable (R : Runtime) (text : Str) (enabled : Finset PDType)

theorem candidates_insert (D₁ D₂ : List Detector) (d : Detector) :
    DetectionEngine.candidates R ⟨D₁ ++ d :: D₂⟩ text enabled =
      DetectionEngine.candidates R ⟨D₁⟩ text enabled ++ DetectionEngine.candidates R ⟨[d]⟩ text enabled ++
        DetectionEngine.candidates R ⟨D₂⟩ text enabled := by
  have hsplit : D₁ ++ d :: D₂ = D₁ ++ [d] ++ D₂ := by simp
  simp only [DetectionEngine.candidates, hsplit, List.filter_append, List.flatMap_append]

theorem candidates_append (D₁ D₂ : List Detector) : DetectionEngine.candidates R ⟨D₁ ++ D₂⟩ text enabled =
    DetectionEngine.candidates R ⟨D₁⟩ text enabled ++ DetectionEngine.candidates R ⟨D₂⟩ text enabled := by
  simp only [DetectionEngine.candidates, List.filter_append, List.flatMap_append]

/-- **A lower-priority detector only fills gaps**: what is detected without it is detected with it, unchanged
and in the same order. -/
theorem detect_lower_detector (D₁ D₂ : List Detector) (d : Detector)
    (hlow : ∀ e ∈ DetectionEngine.candidates R ⟨[d]⟩ text enabled,
      ∀ e' ∈ DetectionEngine.candidates R ⟨D₁ ++ D₂⟩ text enabled, e.priority < e'.priority) :
    (DetectionEngine.detect R ⟨D₁ ++ D₂⟩ text enabled combinations).Sublist
      (DetectionEngine.detect R ⟨D₁ ++ d :: D₂⟩ text enabled combinations) := by
  by_cases h : text = [] ∨ enabled = ∅
  · unfold DetectionEngine.detect
    rw [if_pos h]
    exact List.nil_sublist _
  · refine sublist_of_subset (pairwise_detect R _ text enabled combinations)
      (pairwise_detect R _ text enabled combinations) ?_
    rw [detect_eq R _ text enabled combinations h, detect_eq R _ text enabled combinations h]
    refine applyRequirements_mono combinations ?_
    rw [candidates_append] at hlow ⊢
    rw [candidates_insert]
    exact resolveOverlaps_subset_insert hlow

def sampleText : Str := "Скидка действует до 12/27".toList

/-- Detectors that find one entity in every text. -/
def sampleDetector (e : Entity) : Detector := ⟨{e.pdType}, false, fun _ => [some e]⟩

/-- An address inside the hull of `sampleExpiry`, of a lower priority. -/
def sampleAddress : Entity := ⟨.address, [(20, 22)], 30, ∅, by decide, by decide, by decide⟩

theorem detect_lower_detector_sample :
    (∀ e ∈ DetectionEngine.candidates Runtime.basic ⟨[sampleDetector sampleAddress]⟩ sampleText
        {.address, .cardExpiry, .cardNumber},
      ∀ e' ∈ DetectionEngine.candidates Runtime.basic ⟨[sampleDetector sampleExpiry] ++ [sampleDetector sampleCard]⟩
        sampleText {.address, .cardExpiry, .cardNumber}, e.priority < e'.priority) ∧
    (DetectionEngine.detect Runtime.basic ⟨[sampleDetector sampleExpiry] ++ [sampleDetector sampleCard]⟩
        sampleText {.address, .cardExpiry, .cardNumber} (fun _ => none)).Sublist
      (DetectionEngine.detect Runtime.basic
        ⟨[sampleDetector sampleExpiry] ++ sampleDetector sampleAddress :: [sampleDetector sampleCard]⟩
        sampleText {.address, .cardExpiry, .cardNumber} (fun _ => none)) :=
  ⟨by decide, detect_lower_detector (fun _ => none) Runtime.basic sampleText
    {.address, .cardExpiry, .cardNumber} [sampleDetector sampleExpiry] [sampleDetector sampleCard]
    (sampleDetector sampleAddress) (by decide)⟩

variable (D : DetectionEngine)

theorem mem_candidates_of_mem_detect {e : Entity} (he : e ∈ D.detect R text enabled combinations) :
    e ∈ D.candidates R text enabled := by
  by_cases h : text = [] ∨ enabled = ∅
  · unfold DetectionEngine.detect at he
    rw [if_pos h] at he
    cases he
  · rw [detect_eq R D text enabled combinations h, mem_applyRequirements] at he
    exact mem_of_mem_resolveOverlaps he.1

/-- A candidate that won its overlaps is detected iff its companions are. -/
theorem mem_detect_of_kept (h : ¬ (text = [] ∨ enabled = ∅)) {e : Entity}
    (he : e ∈ resolveOverlaps (D.candidates R text enabled))
    (hs : Supported combinations (D.detect R text enabled combinations) e) :
    e ∈ D.detect R text enabled combinations := by
  rw [detect_eq R D text enabled combinations h] at hs ⊢
  exact (mem_applyRequirements combinations).mpr ⟨he, hs⟩

/-- **What shields a candidate.**  A candidate whose companions are detected is itself detected, or overlaps
a detected entity, or overlaps one that comes before it in the order of the sort keys, won its overlaps and
was then dropped because its own companions are not detected. -/
theorem not_detected_of_supported (htext : text ≠ []) {e : Entity} (he : e ∈ D.candidates R text enabled)
    (hs : Supported combinations (D.detect R text enabled combinations) e) :
    e ∈ D.detect R text enabled combinations ∨
      (∃ k ∈ D.detect R text enabled combinations, e.overlaps k) ∨
      ∃ pre post k, (D.candidates R text enabled).insertionSort keyLe = pre ++ e :: post ∧ k ∈ pre ∧
        k ∈ resolveOverlaps (D.candidates R text enabled) ∧ e.overlaps k ∧
        ¬ Supported combinations (D.detect R text enabled combinations) k := by
  have henabled : enabled ≠ ∅ := by
    rintro rfl
    unfold DetectionEngine.candidates at he
    simp at he
  have h : ¬ (text = [] ∨ enabled = ∅) := not_or.mpr ⟨htext, henabled⟩
  by_cases hkept : e ∈ resolveOverlaps (D.candidates R text enabled)
  · exact Or.inl (mem_detect_of_kept combinations R text enabled D h hkept hs)
  · obtain ⟨pre, post, k, hsplit, hpre, hk, hover⟩ := exists_overlaps_of_not_kept he hkept
    by_cases hsk : Supported combinations (D.detect R text enabled combinations) k
    · exact Or.inr (Or.inl ⟨k, mem_detect_of_kept combinations R text enabled D h hk hsk, hover⟩)
    · exact Or.inr (Or.inr ⟨pre, post, k, hsplit, hpre, hk, hover, hsk⟩)

theorem not_detected_of_supported_sample :
    sampleAddress ∈ DetectionEngine.detect Runtime.basic
        ⟨[sampleDetector sampleExpiry, sampleDetector sampleAddress]⟩ sampleText {.address, .cardExpiry}
        (fun _ => none) ∨
      (∃ k ∈ DetectionEngine.detect Runtime.basic ⟨[sampleDetector sampleExpiry, sampleDetector sampleAddress]⟩
        sampleText {.address, .cardExpiry} (fun _ => none), sampleAddress.overlaps k) ∨
      ∃ pre post k, (DetectionEngine.candidates Runtime.basic
            ⟨[sampleDetector sampleExpiry, sampleDetector sampleAddress]⟩ sampleText
            {.address, .cardExpiry}).insertionSort keyLe = pre ++ sampleAddress :: post ∧ k ∈ pre ∧
          k ∈ resolveOverlaps (DetectionEngine.candidates Runtime.basic
            ⟨[sampleDetector sampleExpiry, sampleDetector sampleAddress]⟩ sampleText {.address, .cardExpiry}) ∧
          sampleAddress.overlaps k ∧
          ¬ Supported (fun _ => none) (DetectionEngine.detect Runtime.basic
            ⟨[sampleDetector sampleExpiry, sampleDetector sampleAddress]⟩ sampleText {.address, .cardExpiry}
            (fun _ => none)) k :=
  not_detected_of_supported (fun _ => none) Runtime.basic sampleText {.address, .cardExpiry}
    ⟨[sampleDetector sampleExpiry, sampleDetector sampleAddress]⟩ (by decide)
    (List.mem_cons_of_mem _ List.mem_cons_self) ⟨fun hne => absurd rfl hne, fun _ hr => by cases hr⟩

/-- The address loses to the expiry date, which is dropped because no card number is detected. -/
theorem dropped_entity_shields :
    ¬ ∀ (R : Runtime) (D : DetectionEngine) (text : Str) (enabled : Finset PDType) (combinations : Combinations),
      text ≠ [] → ∀ e ∈ D.candidates R text enabled,
        Supported combinations (D.detect R text enabled combinations) e →
          e ∈ D.detect R text enabled combinations ∨ ∃ k ∈ D.detect R text enabled combinations, e.overlaps k := by
  intro h
  have hnone : DetectionEngine.detect Runtime.basic ⟨[sampleDetector sampleExpiry, sampleDetector sampleAddress]⟩
      sampleText {.address, .cardExpiry} (fun _ => none) = [] := rfl
  have hs : Supported (fun _ => none) [] sampleAddress := by
    refine ⟨fun hne => absurd rfl hne, ?_⟩
    intro required hr
    cases hr
  have hcandidate : sampleAddress ∈ DetectionEngine.candidates Runtime.basic
      ⟨[sampleDetector sampleExpiry, sampleDetector sampleAddress]⟩ sampleText {.address, .cardExpiry} := by
    exact List.mem_cons_of_mem _ List.mem_cons_self
  have hshield := h Runtime.basic ⟨[sampleDetector sampleExpiry, sampleDetector sampleAddress]⟩ sampleText
    {.address, .cardExpiry} (fun _ => none) (by decide) sampleAddress hcandidate (by rw [hnone]; exact hs)
  rw [hnone] at hshield
  simp at hshield

end Detect

end PdMasking
