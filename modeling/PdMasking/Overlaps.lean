import Mathlib.Data.List.Pairwise
import PdMasking.Engine
import PdMasking.Lib.Greedy

/-!
# PdMasking.Overlaps — what `_resolve_overlaps` keeps

`plainOverlaps` is the selection in its own terms: walk the candidates in the order of the sort keys and keep
one iff it overlaps none of those kept before.

* `resolveOverlaps_eq_plain`: `resolveOverlaps`, which looks at the two neighbours of the insertion point only,
  keeps exactly these, sorted by their start.
* `forall_resolveOverlaps_iff`: when everything it keeps is of a kind.
* `resolveOverlaps_perm`: the hulls and priorities it keeps do not depend on the order of the candidates.
-/

namespace PdMasking

open Greedy

/-! ### The plain selection -/

section Plain

/-- The candidates in the order of the sort keys, each kept iff it overlaps none of those kept before. -/
def plainOverlaps (candidates : List Entity) : List Entity :=
  select Entity.overlaps (candidates.insertionSort keyLe)

theorem overlaps_symm {e e' : Entity} (h : e.overlaps e') : e'.overlaps e := ⟨h.2, h.1⟩

theorem not_overlaps_of_before {e e' : Entity} (h : Before e e') : ¬ e.overlaps e' ∧ ¬ e'.overlaps e := by
  have hnot : ¬ e.overlaps e' := by
    rintro ⟨-, h'⟩
    exact absurd h (not_le.mpr h')
  exact ⟨hnot, fun h' => hnot (overlaps_symm h')⟩

/-- The run of `_resolve_overlaps` and the plain selection keep the same candidates, step by step. -/
theorem foldl_resolveStep_perm : ∀ (es : List Entity) {acc : List ℕ × List Entity} {kept : List Entity},
    Resolved acc → acc.2.Perm kept →
      (es.foldl resolveStep acc).2.Perm (es.foldl (take Entity.overlaps) kept)
  | [], _, _, _, hperm => hperm
  | e :: es, acc, kept, h, hperm => by
    refine foldl_resolveStep_perm es (resolved_resolveStep h e) ?_
    rcases resolveStep_spec h e with ⟨⟨k, hk, hover⟩, hsame⟩ | ⟨left, right, hsplit, hleft, hright, hnew⟩
    · rw [hsame, take_of_conflict ⟨k, hperm.mem_iff.mp hk, hover⟩]
      exact hperm
    · have hfree : ∀ k ∈ kept, ¬ e.overlaps k := by
        intro k hk
        rw [← hperm.mem_iff, hsplit] at hk
        rcases List.mem_append.mp hk with hk | hk
        · exact (not_overlaps_of_before (hleft k hk)).2
        · exact (not_overlaps_of_before (hright k hk)).1
      rw [hnew, take_of_free hfree]
      have hmiddle : (left ++ e :: right).Perm (e :: acc.2) := by
        rw [hsplit]
        exact List.perm_middle
      exact hmiddle.trans ((hperm.cons e).trans (List.perm_append_singleton e kept).symm)

theorem resolveOverlaps_perm_plain (candidates : List Entity) :
    (resolveOverlaps candidates).Perm (plainOverlaps candidates) :=
  foldl_resolveStep_perm (candidates.insertionSort keyLe) ⟨rfl, List.Pairwise.nil⟩ (List.Perm.refl [])

theorem mem_resolveOverlaps {candidates : List Entity} {e : Entity} :
    e ∈ resolveOverlaps candidates ↔ e ∈ plainOverlaps candidates :=
  (resolveOverlaps_perm_plain candidates).mem_iff

theorem mem_of_mem_resolveOverlaps {candidates : List Entity} {e : Entity} (h : e ∈ resolveOverlaps candidates) :
    e ∈ candidates := by
  rw [mem_resolveOverlaps] at h
  exact (List.mem_insertionSort keyLe).mp ((select_sublist _).subset h)

theorem eq_or_before {es : List Entity} (h : es.Pairwise Before) {e e' : Entity} (he : e ∈ es) (he' : e' ∈ es) :
    e = e' ∨ Before e e' ∨ Before e' e := by
  have hsymm : Std.Symm (fun e e' : Entity => Before e e' ∨ Before e' e) := ⟨fun e e' h => h.symm⟩
  have hone : es.Pairwise (fun e e' => Before e e' ∨ Before e' e) := by
    refine h.imp ?_
    intro e e' h
    exact Or.inl h
  by_cases heq : e = e'
  · exact Or.inl heq
  · exact Or.inr (hone.forall he he' heq)

/-- Of two chains of hulls the one is a part of the other as soon as its members are. -/
theorem sublist_of_subset {es es' : List Entity} (h : es.Pairwise Before) (h' : es'.Pairwise Before)
    (hsub : es ⊆ es') : es.Sublist es' := by
  have hnot : ∀ e e' : Entity, Before e e' → ¬ Before e' e := by
    intro e e' hb hb'
    have hlt := e.start_lt_stop
    have hlt' := e'.start_lt_stop
    unfold Before at hb hb'
    omega
  have hnodup : es.Nodup := by
    refine h.imp ?_
    rintro e e' hb rfl
    exact hnot e e hb hb
  have hantisymm : Std.Antisymm (fun e e' : Entity => e = e' ∨ Before e e') := by
    refine ⟨?_⟩
    rintro e e' (rfl | hb) hb'
    · rfl
    · rcases hb' with rfl | hb'
      · rfl
      · exact absurd hb' (hnot e e' hb)
  exact List.sublist_of_subperm_of_pairwise (r := fun e e' => e = e' ∨ Before e e')
    (List.subperm_of_subset hnodup hsub) (h.imp Or.inr) (h'.imp Or.inr)

/-- Sorting by the start does not depend on the order in which disjoint hulls come. -/
theorem insertionSort_start_eq {es es' : List Entity} (hpw : es.Pairwise Before) (hperm : es.Perm es') :
    es = es'.insertionSort (fun e e' => e.start ≤ e'.start) := by
  have htotal : Std.Total (fun e e' : Entity => e.start ≤ e'.start) := ⟨fun e e' => Nat.le_total _ _⟩
  have htrans : IsTrans Entity (fun e e' => e.start ≤ e'.start) := ⟨fun _ _ _ => Nat.le_trans⟩
  have hsorted : es.Pairwise (fun e e' => e.start ≤ e'.start) := by
    refine hpw.imp ?_
    intro e e' h
    exact e.start_lt_stop.le.trans h
  have hsort := List.pairwise_insertionSort (fun e e' : Entity => e.start ≤ e'.start) es'
  have hall : es.Perm (es'.insertionSort (fun e e' => e.start ≤ e'.start)) :=
    hperm.trans (List.perm_insertionSort _ es').symm
  refine hall.eq_of_pairwise ?_ hsorted hsort
  -- two entities with the same start are one: different ones would be disjoint
  intro e e' he he' hle hle'
  have hlt := e.start_lt_stop
  have hlt' := e'.start_lt_stop
  rcases eq_or_before hpw he (hall.mem_iff.mpr he') with heq | hbefore | hbefore
  · exact heq
  · unfold Before at hbefore
    omega
  · unfold Before at hbefore
    omega

/-- A candidate that is not kept overlaps a kept one before it in the order of the sort keys. -/
theorem exists_overlaps_of_not_kept {candidates : List Entity} {e : Entity} (he : e ∈ candidates)
    (hnot : e ∉ resolveOverlaps candidates) :
    ∃ pre post k, candidates.insertionSort keyLe = pre ++ e :: post ∧ k ∈ pre ∧
      k ∈ resolveOverlaps candidates ∧ e.overlaps k := by
  simp only [mem_resolveOverlaps, plainOverlaps] at hnot ⊢
  exact exists_conflict ((List.mem_insertionSort keyLe).mpr he) hnot

/-- Candidates of a lower priority than all others keep none of the others out, wherever they come. -/
theorem resolveOverlaps_subset_insert {before lower after : List Entity}
    (hlow : ∀ e ∈ lower, ∀ e' ∈ before ++ after, e.priority < e'.priority) :
    resolveOverlaps (before ++ after) ⊆ resolveOverlaps (before ++ lower ++ after) := by
  have hlast : ∀ e ∈ lower, ∀ e' ∈ before ++ after, keyLe e' e ∧ ¬ keyLe e e' := by
    intro e he e' he'
    have hlt := hlow e he e' he'
    unfold keyLe
    refine ⟨Or.inl hlt, ?_⟩
    omega
  intro e he
  rw [mem_resolveOverlaps] at he ⊢
  unfold plainOverlaps at he ⊢
  rw [insertionSort_insert keyLe before lower after hlast]
  exact select_subset_append _ _ he

/-- The kept hulls do not overlap and start one after the other. -/
theorem resolveOverlaps_disjoint (candidates : List Entity) :
    (resolveOverlaps candidates).Pairwise (fun e e' => e.start < e'.start ∧ ¬ e.overlaps e') := by
  refine (pairwise_resolveOverlaps candidates).imp ?_
  intro e e' h
  exact ⟨lt_of_lt_of_le e.start_lt_stop h, (not_overlaps_of_before h).1⟩

theorem resolveOverlaps_eq_insertionSort (candidates : List Entity) : resolveOverlaps candidates =
    (plainOverlaps candidates).insertionSort (fun e e' => e.start ≤ e'.start) :=
  insertionSort_start_eq (pairwise_resolveOverlaps candidates) (resolveOverlaps_perm_plain candidates)

/-- **Looking at the two neighbours is enough**: `resolveOverlaps` keeps what the plain selection keeps, sorted
by the start.  The kept hulls are disjoint, and every dropped candidate overlaps a kept one that comes before
it in the order of the sort keys. -/
theorem resolveOverlaps_eq_plain (candidates : List Entity) :
    resolveOverlaps candidates = (plainOverlaps candidates).insertionSort (fun e e' => e.start ≤ e'.start) ∧
      (resolveOverlaps candidates).Pairwise (fun e e' => e.start < e'.start ∧ ¬ e.overlaps e') ∧
      ∀ pre e post, candidates.insertionSort keyLe = pre ++ e :: post →
        (select Entity.overlaps (pre ++ [e]) = select Entity.overlaps pre ++ [e] ∧
            e ∈ resolveOverlaps candidates) ∨
          (select Entity.overlaps (pre ++ [e]) = select Entity.overlaps pre ∧
            ∃ k ∈ pre, k ∈ resolveOverlaps candidates ∧ e.overlaps k) := by
  refine ⟨resolveOverlaps_eq_insertionSort candidates, resolveOverlaps_disjoint candidates, ?_⟩
  intro pre e post hsplit
  simp only [mem_resolveOverlaps, plainOverlaps]
  rw [hsplit]
  rcases select_split (c := Entity.overlaps) pre post e with ⟨htaken, hmem⟩ | ⟨hdropped, k, hpre, -, hk, hover⟩
  · exact Or.inl ⟨htaken, hmem⟩
  · exact Or.inr ⟨hdropped, k, hpre, hk, hover⟩

end Plain

/-! ### The order of the candidates -/

section Order

/-- What the sort key of a candidate is made of. -/
def Entity.key (e : Entity) : ℤ × ℕ × ℕ := (e.priority, e.length, e.start)

/-- The hull and the priority of an entity. -/
def Entity.hull (e : Entity) : ℕ × ℕ × ℤ := (e.start, e.stop, e.priority)

/-- `keyLe` on the keys. -/
def keyOrder (k k' : ℤ × ℕ × ℕ) : Prop :=
  k'.1 < k.1 ∨ (k.1 = k'.1 ∧ (k'.2.1 < k.2.1 ∨ (k.2.1 = k'.2.1 ∧ k.2.2 ≤ k'.2.2)))

instance : DecidableRel keyOrder := fun _ _ => inferInstanceAs (Decidable (_ ∨ _))

/-- `Entity.overlaps` on the keys. -/
def keysOverlap (k k' : ℤ × ℕ × ℕ) : Prop := k.2.2 < k'.2.2 + k'.2.1 ∧ k'.2.2 < k.2.2 + k.2.1

instance : DecidableRel keysOverlap := fun _ _ => inferInstanceAs (Decidable (_ ∧ _))

theorem hull_eq_of_key (e : Entity) : e.hull = (e.key.2.2, e.key.2.2 + e.key.2.1, e.key.1) := by
  have hlt := e.start_lt_stop
  have hstop : e.start + e.length = e.stop := by
    unfold Entity.length
    omega
  unfold Entity.hull Entity.key
  rw [hstop]

theorem overlaps_iff_key (e e' : Entity) : e.overlaps e' ↔ keysOverlap e.key e'.key := by
  have hlt := e.start_lt_stop
  have hlt' := e'.start_lt_stop
  unfold Entity.overlaps keysOverlap Entity.key Entity.length
  dsimp only
  omega

theorem keyOrder_total (k k' : ℤ × ℕ × ℕ) : keyOrder k k' ∨ keyOrder k' k := by
  unfold keyOrder
  omega

theorem keyOrder_trans {k k' k'' : ℤ × ℕ × ℕ} (h : keyOrder k k') (h' : keyOrder k' k'') : keyOrder k k'' := by
  unfold keyOrder at *
  omega

theorem keyOrder_antisymm {k k' : ℤ × ℕ × ℕ} (h : keyOrder k k') (h' : keyOrder k' k) : k = k' := by
  unfold keyOrder at *
  refine Prod.ext ?_ (Prod.ext ?_ ?_)
  · omega
  · omega
  · omega

/-- The candidates in the order of the sort keys. -/
theorem pairwise_keyLe (candidates : List Entity) : (candidates.insertionSort keyLe).Pairwise keyLe := by
  have htotal : Std.Total keyLe := ⟨fun e e' => keyOrder_total e.key e'.key⟩
  have htrans : IsTrans Entity keyLe := ⟨fun e e' e'' => @keyOrder_trans e.key e'.key e''.key⟩
  exact List.pairwise_insertionSort keyLe candidates

/-- **All that is kept has a property** iff each of the other candidates overlaps one that the plain selection keeps
among those with the property that come before it. -/
theorem forall_resolveOverlaps_iff {p : Entity → Prop} [DecidablePred p] {candidates : List Entity} :
    (∀ e ∈ resolveOverlaps candidates, p e) ↔
      ∀ pre e post, candidates.insertionSort keyLe = pre ++ e :: post → ¬ p e →
        ∃ k ∈ select Entity.overlaps (pre.filter p), e.overlaps k := by
  simp only [mem_resolveOverlaps]
  rw [plainOverlaps, forall_select_iff]

/-- The keys of the sorted candidates do not depend on the order in which the candidates come. -/
theorem map_key_insertionSort_perm {candidates candidates' : List Entity} (h : candidates.Perm candidates') :
    (candidates.insertionSort keyLe).map Entity.key = (candidates'.insertionSort keyLe).map Entity.key := by
  have htotal : Std.Total keyOrder := ⟨keyOrder_total⟩
  have htrans : IsTrans (ℤ × ℕ × ℕ) keyOrder := ⟨fun _ _ _ => keyOrder_trans⟩
  have hmap : ∀ es : List Entity, (es.insertionSort keyLe).map Entity.key =
      (es.map Entity.key).insertionSort keyOrder := by
    intro es
    exact List.map_insertionSort keyLe keyOrder Entity.key es (fun _ _ _ _ => Iff.rfl)
  rw [hmap, hmap]
  have hperm : ((candidates.map Entity.key).insertionSort keyOrder).Perm
      ((candidates'.map Entity.key).insertionSort keyOrder) :=
    (List.perm_insertionSort _ _).trans ((h.map Entity.key).trans (List.perm_insertionSort _ _).symm)
  exact hperm.eq_of_pairwise (fun _ _ _ _ => keyOrder_antisymm) (List.pairwise_insertionSort _ _)
    (List.pairwise_insertionSort _ _)

/-- The keys of the kept entities, from left to right. -/
theorem map_key_resolveOverlaps (candidates : List Entity) : (resolveOverlaps candidates).map Entity.key =
    (select keysOverlap ((candidates.insertionSort keyLe).map Entity.key)).insertionSort
      (fun k k' => k.2.2 ≤ k'.2.2) := by
  rw [resolveOverlaps_eq_insertionSort, ← map_select overlaps_iff_key]
  exact List.map_insertionSort _ _ Entity.key _ (fun _ _ _ _ => Iff.rfl)

/-- A card number and, inside it, an expiry date of a lower priority. -/
def sampleCard : Entity := ⟨.cardNumber, [(6, 25)], 80, ∅, by decide, by decide, by decide⟩

def sampleExpiry : Entity := ⟨.cardExpiry, [(20, 25)], 40, {.cardNumber}, by decide, by decide, by decide⟩

/-- **The accepted spans do not depend on the order of the candidates**, nor do their priorities. -/
theorem resolveOverlaps_perm {candidates candidates' : List Entity} (h : candidates.Perm candidates') :
    (resolveOverlaps candidates).map Entity.hull = (resolveOverlaps candidates').map Entity.hull ∧
      ∀ e ∈ resolveOverlaps candidates, e ∈ candidates' := by
  have hkeys : (resolveOverlaps candidates).map Entity.key = (resolveOverlaps candidates').map Entity.key := by
    rw [map_key_resolveOverlaps, map_key_resolveOverlaps, map_key_insertionSort_perm h]
  have hhull : Entity.hull = (fun k : ℤ × ℕ × ℕ => (k.2.2, k.2.2 + k.2.1, k.1)) ∘ Entity.key :=
    funext hull_eq_of_key
  refine ⟨?_, ?_⟩
  · rw [hhull, ← List.map_map, ← List.map_map, hkeys]
  · intro e he
    exact h.mem_iff.mp (mem_of_mem_resolveOverlaps he)

theorem resolveOverlaps_perm_swap :
    (resolveOverlaps [sampleCard, sampleExpiry]).map Entity.hull =
        (resolveOverlaps [sampleExpiry, sampleCard]).map Entity.hull ∧
      ∀ e ∈ resolveOverlaps [sampleCard, sampleExpiry], e ∈ [sampleExpiry, sampleCard] :=
  resolveOverlaps_perm (List.Perm.swap sampleExpiry sampleCard [])

example : (resolveOverlaps [sampleExpiry, sampleCard]).map Entity.hull = [(6, 25, 80)] := by decide

end Order

end PdMasking
