import PdMasking.Python
import Mathlib.Data.Prod.Lex
import Mathlib.Data.Rat.Cast.Order
import Mathlib.Data.Finset.Sort
import Mathlib.Algebra.Order.Field.Basic

/-!
# PdMasking.EvalGold — the classes of the quality report (`scripts/eval_gold.py`)

An expected value is looked for in the text, overlapping occurrences included, and the best covered occurrence decides
on its class.  The shares are exact ratios here; the source compares them with 0 and 1 and with one another, where all
have the same denominator.

* `mem_occurrences`: the search finds every occurrence.
* `foldl_best`: the loop keeps the greatest score.
* `classifyValue_eq`: the class says of the occurrences what the report says it does.
-/

namespace PdMasking

/-! ### The comparison -/

/-- `Finding`: a type and the spans that are masked for it. -/
abbrev Finding := Str × List (ℤ × ℤ)

/-- The classes, `NOT_IN_TEXT` among them. -/
inductive ValueClass
  | tp
  | wrongType
  | partial_
  | fn
  | notInText
  deriving DecidableEq

/-- `text.find(value, pos)` on the text from `pos` on. -/
def findFrom (value : Str) : ℕ → Str → Option ℕ
  | pos, [] => if value = [] then some pos else none
  | pos, c :: text => if value <+: c :: text then some pos else findFrom value (pos + 1) text

/-- The loop of `occurrences`, `n` rounds at most. -/
def occurrencesFrom (text value : Str) : ℕ → Option ℕ → List (ℕ × ℕ)
  | _, none => []
  | 0, some _ => []
  | n + 1, some start =>
    (start, start + value.length) :: occurrencesFrom text value n (findFrom value (start + 1) (text.drop (start + 1)))

/-- `occurrences`; no round starts behind the end of the text. -/
def occurrences (text value : Str) : List (ℕ × ℕ) :=
  if value = [] then [] else occurrencesFrom text value (text.length + 1) (findFrom value 0 text)

/-- `_type_at`. -/
def typeAt (pos : ℕ) : List Finding → Option Str
  | [] => none
  | (pdType, spans) :: findings =>
    if spans.any (fun p => p.1 ≤ (pos : ℤ) && (pos : ℤ) < p.2) then some pdType else typeAt pos findings

section Score

variable (R : Runtime)

/-- The positions that count: all but the white space. -/
def visible (text : Str) (start stop : ℕ) : List ℕ :=
  (List.range' start (stop - start)).filter (fun i => text[i]?.any (fun c => !R.isspace c))

/-- `_coverage`. -/
def coverage (text : Str) (start stop : ℕ) (findings : List Finding) : ℚ × Finset Str :=
  let positions := visible R text start stop
  let covered := positions.filterMap (fun i => typeAt i findings)
  (if positions = [] then 0 else (covered.length : ℚ) / positions.length, covered.toFinset)

/-- What the loop of `match_value` computes of one occurrence. -/
def score (text expectedType : Str) (findings : List Finding) (span : ℕ × ℕ) : ℚ × Bool :=
  let (share, types) := coverage R text span.1 span.2 findings
  (share, decide (share = 1 ∧ types = {expectedType}))

/-- The comparison of Python's tuples. -/
def scoreLt (a b : ℚ × Bool) : Bool := decide (toLex a < toLex b)

/-- `match_value`. -/
def matchValue (text value expectedType : Str) (findings : List Finding) : ℚ × Bool :=
  ((occurrences text value).map (score R text expectedType findings)).foldl
    (fun best s => if scoreLt best s then s else best) (0, false)

/-- `classify_value`. -/
def classifyValue (text value expectedType : Str) (findings : List Finding) : ValueClass :=
  if occurrences text value = [] then .notInText
  else
    let (share, typeOk) := matchValue R text value expectedType findings
    if share = 0 then .fn
    else if share < 1 then .partial_
    else if typeOk then .tp
    else .wrongType

end Score

/-! ### What the report says -/

section Report

variable (R : Runtime)

/-- The value stands at `start`. -/
def OccursAt (text value : Str) (start : ℕ) : Prop := slice text start (start + value.length) = value

/-- The characters of the value there that are no white space. -/
def VisibleAt (text value : Str) (start i : ℕ) : Prop :=
  start ≤ i ∧ i < start + value.length ∧ ∃ c, text[i]? = some c ∧ R.isspace c = false

/-- A span of the findings with a type contains the position. -/
def CoveredBy (findings : List Finding) (types : Str → Prop) (i : ℕ) : Prop :=
  ∃ f ∈ findings, types f.1 ∧ ∃ p ∈ f.2, p.1 ≤ (i : ℤ) ∧ (i : ℤ) < p.2

/-- Some occurrence has all its characters covered by findings of these types. -/
def FullyCovered (text value : Str) (findings : List Finding) (types : Str → Prop) : Prop :=
  ∃ start, OccursAt text value start ∧ ∀ i, VisibleAt R text value start i → CoveredBy findings types i

/-- Some character of some occurrence is covered. -/
def PartlyCovered (text value : Str) (findings : List Finding) : Prop :=
  ∃ start, OccursAt text value start ∧ ∃ i, VisibleAt R text value start i ∧ CoveredBy findings (fun _ => True) i

open Classical in
/-- The class as the report explains it. -/
noncomputable def reportedClass (text value expectedType : Str) (findings : List Finding) : ValueClass :=
  if ¬ ∃ start, OccursAt text value start then .notInText
  else if FullyCovered R text value findings (· = expectedType) then .tp
  else if FullyCovered R text value findings (fun _ => True) then .wrongType
  else if PartlyCovered R text value findings then .partial_
  else .fn

/-- No position is in two of the spans. -/
def DisjointSpans (findings : List Finding) : Prop :=
  (findings.flatMap Prod.snd).Pairwise (fun p q => ∀ i : ℤ, ¬ (p.1 ≤ i ∧ i < p.2 ∧ q.1 ≤ i ∧ i < q.2))

end Report

/-! ### The search finds every occurrence -/

section Occurrences

variable {text value : Str}

theorem occursAt_iff {start : ℕ} : OccursAt text value start ↔ value <+: text.drop start := by
  unfold OccursAt slice
  rw [Nat.add_sub_cancel_left, List.prefix_iff_eq_take]
  exact eq_comm

/-- The first place from `pos` on. -/
theorem findFrom_eq_some (hne : value ≠ []) : ∀ {t : Str} {pos start : ℕ}, findFrom value pos t = some start →
    pos ≤ start ∧ value <+: t.drop (start - pos) ∧ ∀ j < start - pos, ¬ value <+: t.drop j
  | [], pos, start, h => by
    rw [findFrom, if_neg hne] at h
    cases h
  | c :: t, pos, start, h => by
    rw [findFrom] at h
    split_ifs at h with hpre
    · obtain rfl := Option.some.inj h
      rw [Nat.sub_self]
      exact ⟨le_rfl, hpre, fun j hj => absurd hj (Nat.not_lt_zero j)⟩
    · obtain ⟨h1, h2, h3⟩ := findFrom_eq_some hne h
      have hstep : start - pos = (start - (pos + 1)) + 1 := by omega
      refine ⟨by omega, by rw [hstep]; exact h2, ?_⟩
      intro j hj
      rcases j with _ | j
      · exact hpre
      · exact h3 j (by omega)

theorem findFrom_eq_none (hne : value ≠ []) : ∀ {t : Str} {pos : ℕ}, findFrom value pos t = none →
    ∀ j, ¬ value <+: t.drop j
  | [], pos, h, j => by
    rw [List.drop_nil, List.prefix_nil]
    exact hne
  | c :: t, pos, h, j => by
    rw [findFrom] at h
    split_ifs at h with hpre
    rcases j with _ | j
    · exact hpre
    · exact findFrom_eq_none hne h j

/-- The loop collects the occurrences from `k` on, when its rounds reach the end of the text. -/
theorem mem_occurrencesFrom (hne : value ≠ []) : ∀ {n k : ℕ}, text.length < k + n → ∀ {span : ℕ × ℕ},
    span ∈ occurrencesFrom text value n (findFrom value k (text.drop k)) ↔
      k ≤ span.1 ∧ span.2 = span.1 + value.length ∧ OccursAt text value span.1
  | n, k, hn, (a, b) => by
    simp only [occursAt_iff]
    cases hfind : findFrom value k (text.drop k) with
    | none =>
      have hnone := findFrom_eq_none hne hfind
      have hnil : occurrencesFrom text value n none = [] := by cases n <;> rfl
      rw [hnil]
      refine iff_of_false List.not_mem_nil ?_
      rintro ⟨hk, -, hpre⟩
      refine hnone (a - k) ?_
      rwa [List.drop_drop, Nat.add_sub_cancel' hk]
    | some start =>
      obtain ⟨h1, h2, h3⟩ := findFrom_eq_some hne hfind
      rw [List.drop_drop, Nat.add_sub_cancel' h1] at h2
      -- an occurrence starts inside the text, so there is a round for it
      have hlt : start < text.length := by
        by_contra hge
        rw [List.drop_of_length_le (Nat.not_lt.mp hge), List.prefix_nil] at h2
        exact hne h2
      obtain ⟨n, rfl⟩ : ∃ n', n = n' + 1 := Nat.exists_eq_succ_of_ne_zero (by omega)
      rw [occurrencesFrom, List.mem_cons, mem_occurrencesFrom hne (by omega)]
      simp only [occursAt_iff, Prod.mk.injEq]
      constructor
      · rintro (⟨rfl, rfl⟩ | ⟨hk, hb, hpre⟩)
        · exact ⟨h1, rfl, h2⟩
        · exact ⟨by omega, hb, hpre⟩
      · rintro ⟨hk, hb, hpre⟩
        rcases Nat.lt_trichotomy a start with hlt' | rfl | hgt
        · have hnot := h3 (a - k) (by omega)
          rw [List.drop_drop, Nat.add_sub_cancel' hk] at hnot
          exact absurd hpre hnot
        · exact Or.inl ⟨rfl, hb⟩
        · exact Or.inr ⟨hgt, hb, hpre⟩

/-- **The search finds every occurrence**, overlapping ones included. -/
theorem mem_occurrences (hne : value ≠ []) {span : ℕ × ℕ} : span ∈ occurrences text value ↔
    span.2 = span.1 + value.length ∧ OccursAt text value span.1 := by
  have hrounds : text.length < 0 + (text.length + 1) := by omega
  unfold occurrences
  rw [if_neg hne]
  exact (mem_occurrencesFrom hne hrounds).trans (and_iff_right (Nat.zero_le _))

theorem occurrences_eq_nil (hne : value ≠ []) :
    occurrences text value = [] ↔ ¬ ∃ start, OccursAt text value start := by
  rw [List.eq_nil_iff_forall_not_mem]
  constructor
  · rintro h ⟨start, hstart⟩
    exact h (start, start + value.length) ((mem_occurrences hne).mpr ⟨rfl, hstart⟩)
  · intro h span hspan
    exact h ⟨span.1, ((mem_occurrences hne).mp hspan).2⟩

end Occurrences

/-! ### The type at a position -/

section Types

variable {findings : List Finding} {i : ℕ} {t : Str}

theorem coveredBy_cons {f : Finding} {types : Str → Prop} : CoveredBy (f :: findings) types i ↔
    (types f.1 ∧ ∃ p ∈ f.2, p.1 ≤ (i : ℤ) ∧ (i : ℤ) < p.2) ∨ CoveredBy findings types i := by
  unfold CoveredBy
  simp only [List.mem_cons, or_and_right, exists_or, exists_eq_left]

theorem any_spans_iff {spans : List (ℤ × ℤ)} :
    spans.any (fun p => p.1 ≤ (i : ℤ) && (i : ℤ) < p.2) = true ↔ ∃ p ∈ spans, p.1 ≤ (i : ℤ) ∧ (i : ℤ) < p.2 := by
  simp only [List.any_eq_true, Bool.and_eq_true, decide_eq_true_eq]

theorem typeAt_eq_none : ∀ {findings : List Finding}, typeAt i findings = none ↔ ¬ CoveredBy findings (fun _ => True) i
  | [] => by
    refine iff_of_true rfl ?_
    rintro ⟨f, hf, -⟩
    cases hf
  | (pdType, spans) :: findings => by
    rw [typeAt, coveredBy_cons]
    by_cases hany : spans.any (fun p => p.1 ≤ (i : ℤ) && (i : ℤ) < p.2) = true
    · rw [if_pos hany]
      exact iff_of_false (Option.some_ne_none pdType) (fun h => h (Or.inl ⟨trivial, any_spans_iff.mp hany⟩))
    · rw [if_neg hany, typeAt_eq_none]
      exact ⟨fun h hc => hc.elim (fun hc => hany (any_spans_iff.mpr hc.2)) h, fun h hc => h (Or.inr hc)⟩

theorem coveredBy_of_typeAt : ∀ {findings : List Finding}, typeAt i findings = some t → CoveredBy findings (· = t) i
  | (pdType, spans) :: findings, h => by
    rw [typeAt] at h
    rw [coveredBy_cons]
    split_ifs at h with hany
    · exact Or.inl ⟨Option.some.inj h, any_spans_iff.mp hany⟩
    · exact Or.inr (coveredBy_of_typeAt h)

/-- The first finding around a position is the only one. -/
theorem typeAt_of_coveredBy : ∀ {findings : List Finding}, DisjointSpans findings → CoveredBy findings (· = t) i →
    typeAt i findings = some t
  | [], _, h => by
    obtain ⟨f, hf, -⟩ := h
    cases hf
  | (pdType, spans) :: findings, hdisjoint, h => by
    unfold DisjointSpans at hdisjoint
    rw [List.flatMap_cons, List.pairwise_append] at hdisjoint
    obtain ⟨-, hrest, hapart⟩ := hdisjoint
    rw [typeAt]
    rcases coveredBy_cons.mp h with ⟨heq, hspan⟩ | hcovered
    · rw [if_pos (any_spans_iff.mpr hspan), ← heq]
    · rw [if_neg ?_]
      · exact typeAt_of_coveredBy hrest hcovered
      · intro hany
        obtain ⟨p, hp, h1, h2⟩ := any_spans_iff.mp hany
        obtain ⟨f, hf, -, q, hq, h3, h4⟩ := hcovered
        exact hapart p hp q (List.mem_flatMap.mpr ⟨f, hf, hq⟩) i ⟨h1, h2, h3, h4⟩

end Types

/-! ### The score of one occurrence -/

section Scores

variable {R : Runtime} {text value expectedType : Str} {findings : List Finding} {start : ℕ}

theorem mem_visible {i : ℕ} : i ∈ visible R text start (start + value.length) ↔ VisibleAt R text value start i := by
  unfold visible VisibleAt
  rw [List.mem_filter, List.mem_range'_1, Option.any_eq_true]
  simp only [Bool.not_eq_true']
  constructor
  · rintro ⟨⟨h1, h2⟩, hc⟩
    exact ⟨h1, by omega, hc⟩
  · rintro ⟨h1, h2, hc⟩
    exact ⟨⟨h1, by omega⟩, hc⟩

/-- A value that is not blank has characters that count. -/
theorem visible_ne_nil (hvalue : ∃ c ∈ value, R.isspace c = false) (h : OccursAt text value start) :
    visible R text start (start + value.length) ≠ [] := by
  obtain ⟨c, hc, hspace⟩ := hvalue
  obtain ⟨j, hj⟩ := List.mem_iff_getElem?.mp hc
  have hlt : j < value.length := (List.getElem?_eq_some_iff.mp hj).1
  have htext : text[start + j]? = some c := by
    rw [← hj, ← getElem?_slice (b := start + value.length) (by omega), h]
  exact List.ne_nil_of_mem (mem_visible.mpr ⟨Nat.le_add_right _ _, by omega, c, htext, hspace⟩)

/-- The share counts the covered characters. -/
theorem coverage_share (findings : List Finding) (h : visible R text start (start + value.length) ≠ []) :
    ∃ covered : ℕ, covered ≤ (visible R text start (start + value.length)).length ∧
      (coverage R text start (start + value.length) findings).1 =
        (covered : ℚ) / (visible R text start (start + value.length)).length ∧
      (covered = (visible R text start (start + value.length)).length ↔
        ∀ i, VisibleAt R text value start i → CoveredBy findings (fun _ => True) i) ∧
      (covered = 0 ↔ ∀ i, VisibleAt R text value start i → ¬ CoveredBy findings (fun _ => True) i) := by
  have hsome : ∀ i, (typeAt i findings).isSome = true ↔ CoveredBy findings (fun _ => True) i := by
    intro i
    rw [← not_iff_not, ← typeAt_eq_none]
    exact Option.not_isSome_iff_eq_none
  refine ⟨((visible R text start (start + value.length)).filterMap (fun i => typeAt i findings)).length,
    List.length_filterMap_le _ _, ?_, ?_, ?_⟩
  · simp only [coverage, if_neg h]
  · rw [List.length_filterMap_eq_countP, List.countP_eq_length]
    simp only [hsome, mem_visible]
  · rw [List.length_filterMap_eq_countP, List.countP_eq_zero]
    simp only [hsome, mem_visible]

/-- What the share of an occurrence says. -/
theorem share_facts (findings : List Finding) (hvalue : ∃ c ∈ value, R.isspace c = false)
    (h : OccursAt text value start) :
    0 ≤ (coverage R text start (start + value.length) findings).1 ∧
    (coverage R text start (start + value.length) findings).1 ≤ 1 ∧
    ((coverage R text start (start + value.length) findings).1 = 1 ↔
      ∀ i, VisibleAt R text value start i → CoveredBy findings (fun _ => True) i) ∧
    ((coverage R text start (start + value.length) findings).1 = 0 ↔
      ∀ i, VisibleAt R text value start i → ¬ CoveredBy findings (fun _ => True) i) := by
  have hne := visible_ne_nil hvalue h
  have hpos : (0 : ℚ) < (visible R text start (start + value.length)).length :=
    Nat.cast_pos.mpr (List.length_pos_of_ne_nil hne)
  obtain ⟨covered, hle, hshare, hall, hnone⟩ := coverage_share findings hne
  rw [hshare, ← hall, ← hnone]
  refine ⟨div_nonneg (Nat.cast_nonneg _) hpos.le, ?_, ?_, ?_⟩
  · exact (div_le_one hpos).mpr (Nat.cast_le.mpr hle)
  · rw [div_eq_one_iff_eq hpos.ne', Nat.cast_inj]
  · rw [div_eq_zero_iff, or_iff_left hpos.ne', Nat.cast_eq_zero]

/-- The types around the covered characters are the expected one alone when it covers them all. -/
theorem typeOk_iff (hvalue : ∃ c ∈ value, R.isspace c = false) (hdisjoint : DisjointSpans findings)
    (h : OccursAt text value start) :
    (score R text expectedType findings (start, start + value.length)).2 = true ↔
      ∀ i, VisibleAt R text value start i → CoveredBy findings (· = expectedType) i := by
  have hne := visible_ne_nil hvalue h
  obtain ⟨-, -, hone, -⟩ := share_facts findings hvalue h
  have hmem : ∀ t, t ∈ (coverage R text start (start + value.length) findings).2 ↔
      ∃ i, VisibleAt R text value start i ∧ typeAt i findings = some t := by
    intro t
    simp only [coverage, List.mem_toFinset, List.mem_filterMap, mem_visible]
  show decide ((coverage R text start (start + value.length) findings).1 = 1 ∧
    (coverage R text start (start + value.length) findings).2 = {expectedType}) = true ↔ _
  rw [decide_eq_true_eq, hone, Finset.eq_singleton_iff_unique_mem]
  constructor
  · rintro ⟨hall, -, hunique⟩ i hi
    -- the type found at a covered character is in the set, so it is the expected one
    have hcovered := hall i hi
    obtain ⟨t, ht⟩ := Option.ne_none_iff_exists'.mp (fun hnone => typeAt_eq_none.mp hnone hcovered)
    obtain rfl := hunique t ((hmem t).mpr ⟨i, hi, ht⟩)
    exact coveredBy_of_typeAt ht
  · intro hall
    obtain ⟨i, hi⟩ := List.exists_mem_of_ne_nil _ hne
    refine ⟨?_, ?_, ?_⟩
    · intro j hj
      obtain ⟨f, hf, -, hspan⟩ := hall j hj
      exact ⟨f, hf, trivial, hspan⟩
    · exact (hmem _).mpr ⟨i, mem_visible.mp hi, typeAt_of_coveredBy hdisjoint (hall i (mem_visible.mp hi))⟩
    · intro t ht
      obtain ⟨j, hj, htype⟩ := (hmem t).mp ht
      rw [typeAt_of_coveredBy hdisjoint (hall j hj)] at htype
      exact (Option.some.inj htype).symm

end Scores

/-! ### The best score -/

section Best

/-- The loop keeps the greatest score. -/
theorem foldl_best (scores : List (ℚ × Bool)) (best : ℚ × Bool) :
    scores.foldl (fun best s => if scoreLt best s then s else best) best ∈ best :: scores ∧
    ∀ s ∈ best :: scores,
      toLex s ≤ toLex (scores.foldl (fun best s => if scoreLt best s then s else best) best) := by
  induction scores generalizing best with
  | nil =>
    refine ⟨List.mem_singleton_self _, ?_⟩
    intro s hs
    rw [List.mem_singleton.mp hs]
    exact le_rfl
  | cons s scores ih =>
    rw [List.foldl_cons]
    obtain ⟨hmem, hmax⟩ := ih (if scoreLt best s then s else best)
    by_cases hlt : toLex best < toLex s
    · have hstep : scoreLt best s = true := decide_eq_true hlt
      rw [if_pos hstep] at hmem hmax ⊢
      refine ⟨List.mem_cons_of_mem _ hmem, ?_⟩
      intro x hx
      rcases List.mem_cons.mp hx with rfl | hx
      · exact hlt.le.trans (hmax s List.mem_cons_self)
      · exact hmax x hx
    · have hstep : ¬ scoreLt best s = true := fun h => hlt (of_decide_eq_true h)
      rw [if_neg hstep] at hmem hmax ⊢
      constructor
      · rcases List.mem_cons.mp hmem with heq | hmem
        · rw [heq]
          exact List.mem_cons_self
        · exact List.mem_cons_of_mem _ (List.mem_cons_of_mem _ hmem)
      · intro x hx
        rcases List.mem_cons.mp hx with rfl | hx
        · exact hmax x List.mem_cons_self
        · rcases List.mem_cons.mp hx with rfl | hx
          · exact (not_lt.mp hlt).trans (hmax best List.mem_cons_self)
          · exact hmax x (List.mem_cons_of_mem _ hx)

variable (R : Runtime) (text : Str) {value : Str} (expectedType : Str) (findings : List Finding)

/-- `match_value` keeps the score of some occurrence or its first value, and no occurrence scores more. -/
theorem matchValue_spec (hne : value ≠ []) :
    (matchValue R text value expectedType findings = (0, false) ∨
      ∃ start, OccursAt text value start ∧ matchValue R text value expectedType findings =
        score R text expectedType findings (start, start + value.length)) ∧
    ∀ start, OccursAt text value start → toLex (score R text expectedType findings (start, start + value.length)) ≤
      toLex (matchValue R text value expectedType findings) := by
  obtain ⟨hmem, hmax⟩ := foldl_best ((occurrences text value).map (score R text expectedType findings)) (0, false)
  constructor
  · rcases List.mem_cons.mp hmem with heq | hmem
    · exact Or.inl heq
    · obtain ⟨⟨a, b⟩, hspan, heq⟩ := List.mem_map.mp hmem
      obtain ⟨hb, hoccurs⟩ := (mem_occurrences hne).mp hspan
      obtain rfl : b = a + value.length := hb
      exact Or.inr ⟨a, hoccurs, heq.symm⟩
  · intro start hoccurs
    refine hmax _ (List.mem_cons_of_mem _ (List.mem_map_of_mem ?_))
    exact (mem_occurrences hne).mpr ⟨rfl, hoccurs⟩

end Best

/-! ### The classes -/

section Classes

variable {R : Runtime} (text : Str) {value : Str} (expectedType : Str) (findings : List Finding)

theorem ne_nil_of_not_blank (hvalue : ∃ c ∈ value, R.isspace c = false) : value ≠ [] := by
  obtain ⟨c, hc, -⟩ := hvalue
  exact List.ne_nil_of_mem hc

/-- The best share is at least the share of each occurrence. -/
theorem share_le_matchValue (hne : value ≠ []) {start : ℕ} (h : OccursAt text value start) :
    (coverage R text start (start + value.length) findings).1 ≤ (matchValue R text value expectedType findings).1 := by
  obtain ⟨-, hmax⟩ := matchValue_spec R text expectedType findings hne
  rcases Prod.Lex.le_iff.mp (hmax start h) with hlt | ⟨heq, -⟩
  · exact hlt.le
  · exact heq.le

theorem matchValue_share_le (hvalue : ∃ c ∈ value, R.isspace c = false) :
    (matchValue R text value expectedType findings).1 ≤ 1 := by
  obtain ⟨heq | ⟨start, hoccurs, heq⟩, -⟩ := matchValue_spec R text expectedType findings (ne_nil_of_not_blank hvalue)
  · rw [heq]
    exact zero_le_one
  · obtain ⟨-, hle, -⟩ := share_facts findings hvalue hoccurs
    rw [heq]
    exact hle

theorem matchValue_share_eq_one (hvalue : ∃ c ∈ value, R.isspace c = false) :
    (matchValue R text value expectedType findings).1 = 1 ↔ FullyCovered R text value findings (fun _ => True) := by
  have hne := ne_nil_of_not_blank hvalue
  constructor
  · intro hone
    obtain ⟨heq | ⟨start, hoccurs, heq⟩, -⟩ := matchValue_spec R text expectedType findings hne
    · rw [heq] at hone
      exact absurd hone zero_ne_one
    · obtain ⟨-, -, hall, -⟩ := share_facts findings hvalue hoccurs
      rw [heq] at hone
      exact ⟨start, hoccurs, hall.mp hone⟩
  · rintro ⟨start, hoccurs, hcovered⟩
    obtain ⟨-, -, hall, -⟩ := share_facts findings hvalue hoccurs
    refine le_antisymm (matchValue_share_le text expectedType findings hvalue) ?_
    rw [← hall.mpr hcovered]
    exact share_le_matchValue text expectedType findings hne hoccurs

theorem matchValue_share_eq_zero (hvalue : ∃ c ∈ value, R.isspace c = false) :
    (matchValue R text value expectedType findings).1 = 0 ↔ ¬ PartlyCovered R text value findings := by
  have hne := ne_nil_of_not_blank hvalue
  constructor
  · rintro hzero ⟨start, hoccurs, i, hi, hcovered⟩
    obtain ⟨hnonneg, -, -, hnone⟩ := share_facts findings hvalue hoccurs
    have hle : (coverage R text start (start + value.length) findings).1 ≤
        (matchValue R text value expectedType findings).1 := share_le_matchValue text expectedType findings hne hoccurs
    rw [hzero] at hle
    exact hnone.mp (le_antisymm hle hnonneg) i hi hcovered
  · intro hnot
    obtain ⟨heq | ⟨start, hoccurs, heq⟩, -⟩ := matchValue_spec R text expectedType findings hne
    · rw [heq]
    · obtain ⟨-, -, -, hnone⟩ := share_facts findings hvalue hoccurs
      rw [heq]
      exact hnone.mpr (fun i hi hcovered => hnot ⟨start, hoccurs, i, hi, hcovered⟩)

/-- The type counts as matched when some occurrence is covered by it alone: a share of 1 with the right type is the
greatest score there is. -/
theorem matchValue_typeOk (hvalue : ∃ c ∈ value, R.isspace c = false) (hdisjoint : DisjointSpans findings) :
    (matchValue R text value expectedType findings).2 = true ↔
      FullyCovered R text value findings (· = expectedType) := by
  obtain ⟨hbest, hmax⟩ := matchValue_spec R text expectedType findings (ne_nil_of_not_blank hvalue)
  constructor
  · intro hok
    rcases hbest with heq | ⟨start, hoccurs, heq⟩
    · rw [heq] at hok
      exact absurd hok Bool.false_ne_true
    · rw [heq] at hok
      exact ⟨start, hoccurs, (typeOk_iff hvalue hdisjoint hoccurs).mp hok⟩
  · rintro ⟨start, hoccurs, hcovered⟩
    have hok := (typeOk_iff hvalue hdisjoint hoccurs).mpr hcovered
    have hone : (score R text expectedType findings (start, start + value.length)).1 = 1 := by
      refine (share_facts findings hvalue hoccurs).2.2.1.mpr ?_
      intro i hi
      obtain ⟨f, hf, -, hspan⟩ := hcovered i hi
      exact ⟨f, hf, trivial, hspan⟩
    rcases Prod.Lex.le_iff.mp (hmax start hoccurs) with hlt | ⟨-, hle⟩
    · have hle := matchValue_share_le text expectedType findings hvalue
      exact absurd (hlt.trans_le hle) (hone ▸ lt_irrefl _)
    · have hle : (score R text expectedType findings (start, start + value.length)).2 ≤
          (matchValue R text value expectedType findings).2 := hle
      rw [hok] at hle
      exact top_le_iff.mp hle

/-- An occurrence that findings of one type cover is covered. -/
theorem FullyCovered.mono {text : Str} {findings : List Finding} {types : Str → Prop}
    (h : FullyCovered R text value findings types) : FullyCovered R text value findings (fun _ => True) := by
  obtain ⟨start, hoccurs, hcovered⟩ := h
  refine ⟨start, hoccurs, ?_⟩
  intro i hi
  obtain ⟨f, hf, -, hspan⟩ := hcovered i hi
  exact ⟨f, hf, trivial, hspan⟩

/-- **The classes mean what the report says.** -/
theorem classifyValue_eq (R : Runtime) (text value expectedType : Str) (findings : List Finding)
    (hvalue : ∃ c ∈ value, R.isspace c = false) (hdisjoint : DisjointSpans findings) :
    classifyValue R text value expectedType findings = reportedClass R text value expectedType findings := by
  have hin : occurrences text value = [] ↔ ¬ ∃ start, OccursAt text value start :=
    occurrences_eq_nil (ne_nil_of_not_blank hvalue)
  have hone := matchValue_share_eq_one text expectedType findings hvalue
  have hzero := matchValue_share_eq_zero text expectedType findings hvalue
  have hok := matchValue_typeOk text expectedType findings hvalue hdisjoint
  have hle := matchValue_share_le text expectedType findings hvalue
  show (if occurrences text value = [] then ValueClass.notInText
    else if (matchValue R text value expectedType findings).1 = 0 then ValueClass.fn
    else if (matchValue R text value expectedType findings).1 < 1 then ValueClass.partial_
    else if (matchValue R text value expectedType findings).2 then ValueClass.tp else ValueClass.wrongType) = _
  unfold reportedClass
  by_cases hoccurs : ∃ start, OccursAt text value start
  · rw [if_neg (fun h => hin.mp h hoccurs), if_neg (not_not.mpr hoccurs)]
    by_cases hfull : FullyCovered R text value findings (fun _ => True)
    · -- the best share is 1, and the types decide
      have hshare := hone.mpr hfull
      rw [hshare, if_neg one_ne_zero, if_neg (lt_irrefl 1)]
      by_cases hexpected : FullyCovered R text value findings (· = expectedType)
      · rw [if_pos (hok.mpr hexpected), if_pos hexpected]
      · rw [if_neg (fun h => hexpected (hok.mp h)), if_neg hexpected, if_pos hfull]
    · have hlt : (matchValue R text value expectedType findings).1 < 1 :=
        lt_of_le_of_ne hle (fun h => hfull (hone.mp h))
      rw [if_neg (fun h : FullyCovered R text value findings (· = expectedType) => hfull h.mono), if_neg hfull]
      by_cases hpartly : PartlyCovered R text value findings
      · rw [if_neg (fun h => hzero.mp h hpartly), if_pos hlt, if_pos hpartly]
      · rw [if_pos (hzero.mpr hpartly), if_neg hpartly]
  · rw [if_pos (hin.mpr hoccurs), if_pos hoccurs]

/-- The second of two overlapping occurrences is covered. -/
theorem classifyValue_overlapping :
    classifyValue Runtime.basic ['1', '2', '1', '2', '1'] ['1', '2', '1'] ['p', 'i', 'n'] [(['p', 'i', 'n'], [(2, 5)])] =
      reportedClass Runtime.basic ['1', '2', '1', '2', '1'] ['1', '2', '1'] ['p', 'i', 'n']
        [(['p', 'i', 'n'], [(2, 5)])] := by
  refine classifyValue_eq Runtime.basic _ _ _ _ ⟨'1', List.mem_cons_self, rfl⟩ ?_
  exact List.pairwise_singleton _ _

end Classes

end PdMasking
