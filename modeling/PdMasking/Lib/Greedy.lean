import Mathlib.Data.List.Induction
import Mathlib.Data.List.Sort

/-!
# PdMasking.Lib.Greedy — greedy selection along a list

`select c l` walks `l` and takes an element iff it conflicts (`c`) with none of those taken before.

* `select_sublist`: what is taken is from the list.
* `select_split`: what happens to one element of the list.
* `forall_select_iff`: when all that is taken has a property.
* `map_select`: selections along a map that respects conflicts correspond.
* `insertionSort_insert`: a stable sort puts a block that comes after everything else to the end, wherever it
  stands in the list; so (`select_append`) it does not change what is taken of the rest.
-/

namespace PdMasking.Greedy

variable {α β : Type*}

/-! ### The selection -/

section Select

variable (c : α → α → Prop) [DecidableRel c]

/-- One element of the walk. -/
def take (kept : List α) (a : α) : List α := if ∃ b ∈ kept, c a b then kept else kept ++ [a]

/-- The elements taken. -/
def select (l : List α) : List α := l.foldl (take c) []

variable {c}

theorem take_of_conflict {kept : List α} {a : α} (h : ∃ b ∈ kept, c a b) : take c kept a = kept := if_pos h

theorem take_of_free {kept : List α} {a : α} (h : ∀ b ∈ kept, ¬ c a b) : take c kept a = kept ++ [a] := by
  refine if_neg ?_
  rintro ⟨b, hb, hc⟩
  exact h b hb hc

/-- What is taken stays. -/
theorem subset_foldl_take : ∀ (l kept : List α), kept ⊆ l.foldl (take c) kept
  | [], _ => List.Subset.refl _
  | a :: l, kept => by
    have hstep : kept ⊆ take c kept a := by
      unfold take
      split_ifs
      · exact List.Subset.refl _
      · exact List.subset_append_left _ _
    exact List.Subset.trans hstep (subset_foldl_take l _)

theorem select_append (l l' : List α) : select c (l ++ l') = l'.foldl (take c) (select c l) :=
  List.foldl_append

theorem select_subset_append (l l' : List α) : select c l ⊆ select c (l ++ l') := by
  rw [select_append]
  exact subset_foldl_take l' _

/-- The elements are taken in the order of the list. -/
theorem foldl_take_sublist : ∀ (l kept : List α), (l.foldl (take c) kept).Sublist (kept ++ l)
  | [], kept => by
    rw [List.append_nil]
    exact List.Sublist.refl _
  | a :: l, kept => by
    have ih := foldl_take_sublist l (take c kept a)
    rw [List.foldl_cons]
    by_cases h : ∃ b ∈ kept, c a b
    · rw [take_of_conflict h] at ih ⊢
      exact ih.trans ((List.sublist_cons_self a l).append_left kept)
    · have hfree : ∀ b ∈ kept, ¬ c a b := fun b hb hc => h ⟨b, hb, hc⟩
      rw [take_of_free hfree, List.append_assoc] at ih
      rw [take_of_free hfree]
      exact ih

theorem select_sublist (l : List α) : (select c l).Sublist l := foldl_take_sublist l []

/-- **What happens to one element**: it is taken next, or it conflicts with one taken before it. -/
theorem select_split (pre post : List α) (a : α) :
    (select c (pre ++ [a]) = select c pre ++ [a] ∧ a ∈ select c (pre ++ a :: post)) ∨
      (select c (pre ++ [a]) = select c pre ∧
        ∃ b ∈ pre, b ∈ select c pre ∧ b ∈ select c (pre ++ a :: post) ∧ c a b) := by
  have hnext : select c (pre ++ [a]) = take c (select c pre) a := by rw [select_append]; rfl
  by_cases h : ∃ b ∈ select c pre, c a b
  · refine Or.inr ⟨hnext.trans (take_of_conflict h), ?_⟩
    obtain ⟨b, hb, hc⟩ := h
    exact ⟨b, (select_sublist pre).subset hb, hb, select_subset_append pre _ hb, hc⟩
  · have hfree : ∀ b ∈ select c pre, ¬ c a b := fun b hb hc => h ⟨b, hb, hc⟩
    have htaken : select c (pre ++ [a]) = select c pre ++ [a] := hnext.trans (take_of_free hfree)
    refine Or.inl ⟨htaken, ?_⟩
    have hsplit : pre ++ a :: post = (pre ++ [a]) ++ post := by simp
    rw [hsplit]
    refine select_subset_append _ _ ?_
    rw [htaken]
    exact List.mem_append_right _ (List.mem_singleton_self a)

theorem select_concat (l : List α) (a : α) : select c (l ++ [a]) = take c (select c l) a := by
  rw [select_append]
  rfl

/-- When all that is taken has the property `p`, the selection is the one among those with the property. -/
theorem select_filter {p : α → Prop} [DecidablePred p] : ∀ {l : List α}, (∀ a ∈ select c l, p a) →
    select c (l.filter p) = select c l := by
  intro l
  induction l using List.reverseRecOn with
  | nil => exact fun _ => rfl
  | append_singleton l a ih =>
    intro h
    have hpre := ih (fun b hb => h b (select_subset_append l [a] hb))
    rw [List.filter_append]
    by_cases ha : p a
    · have hkeep : [a].filter p = [a] := by simp [ha]
      rw [hkeep, select_concat, select_concat, hpre]
    · have hdrop : [a].filter p = [] := by simp [ha]
      have hconflict : ∃ b ∈ select c l, c a b := by
        by_contra hfree
        refine ha (h a ?_)
        rw [select_concat, take_of_free (fun b hb hab => hfree ⟨b, hb, hab⟩)]
        exact List.mem_append_right _ (List.mem_singleton_self a)
      rw [hdrop, List.append_nil, hpre, select_concat, take_of_conflict hconflict]

/-- **All that is taken has a property** iff each of the others conflicts with one that the walk before it takes of
those with the property. -/
theorem forall_select_iff {p : α → Prop} [DecidablePred p] {l : List α} : (∀ a ∈ select c l, p a) ↔
    ∀ pre a post, l = pre ++ a :: post → ¬ p a → ∃ b ∈ select c (pre.filter p), c a b := by
  constructor
  · rintro h pre a post rfl ha
    rw [select_filter (fun b hb => h b (select_subset_append pre _ hb))]
    rcases select_split (c := c) pre post a with ⟨-, hmem⟩ | ⟨-, b, -, hb, -, hab⟩
    · exact absurd (h a hmem) ha
    · exact ⟨b, hb, hab⟩
  · induction l using List.reverseRecOn with
    | nil => exact fun _ a ha => absurd ha List.not_mem_nil
    | append_singleton l a ih =>
      intro h
      have hpre : ∀ b ∈ select c l, p b := by
        refine ih ?_
        rintro pre b post rfl hb
        exact h pre b (post ++ [a]) (by simp) hb
      rw [select_concat]
      intro b hb
      by_cases hconflict : ∃ k ∈ select c l, c a k
      · rw [take_of_conflict hconflict] at hb
        exact hpre b hb
      · rw [take_of_free (fun k hk hak => hconflict ⟨k, hk, hak⟩)] at hb
        rcases List.mem_append.mp hb with hb | hb
        · exact hpre b hb
        · obtain rfl := List.mem_singleton.mp hb
          by_contra hb
          obtain ⟨k, hk, hak⟩ := h l b [] rfl hb
          rw [select_filter hpre] at hk
          exact hconflict ⟨k, hk, hak⟩

/-- What is not taken conflicts with an element taken before it. -/
theorem exists_conflict {l : List α} {a : α} (ha : a ∈ l) (hnot : a ∉ select c l) :
    ∃ pre post b, l = pre ++ a :: post ∧ b ∈ pre ∧ b ∈ select c l ∧ c a b := by
  obtain ⟨pre, post, rfl⟩ := List.append_of_mem ha
  rcases select_split (c := c) pre post a with ⟨-, hmem⟩ | ⟨-, b, hpre, -, hb, hc⟩
  · exact absurd hmem hnot
  · exact ⟨pre, post, b, rfl, hpre, hb, hc⟩

theorem map_foldl_take {d : β → β → Prop} [DecidableRel d] {f : α → β} (h : ∀ a b, c a b ↔ d (f a) (f b)) :
    ∀ (l kept : List α), (l.foldl (take c) kept).map f = (l.map f).foldl (take d) (kept.map f)
  | [], _ => rfl
  | a :: l, kept => by
    have hstep : (take c kept a).map f = take d (kept.map f) (f a) := by
      by_cases hc : ∃ b ∈ kept, c a b
      · have hd : ∃ b ∈ kept.map f, d (f a) b := by
          obtain ⟨b, hb, hab⟩ := hc
          exact ⟨f b, List.mem_map_of_mem hb, (h a b).mp hab⟩
        rw [take_of_conflict hc, take_of_conflict hd]
      · have hfree : ∀ b ∈ kept, ¬ c a b := fun b hb hab => hc ⟨b, hb, hab⟩
        have hd : ∀ b ∈ kept.map f, ¬ d (f a) b := by
          intro b' hb' hab
          obtain ⟨b, hb, rfl⟩ := List.mem_map.mp hb'
          exact hfree b hb ((h a b).mpr hab)
        rw [take_of_free hfree, take_of_free hd, List.map_append, List.map_singleton]
    rw [List.foldl_cons, map_foldl_take h l, hstep, List.map_cons, List.foldl_cons]

/-- **Selections correspond** along a map that respects conflicts. -/
theorem map_select {d : β → β → Prop} [DecidableRel d] {f : α → β} (h : ∀ a b, c a b ↔ d (f a) (f b))
    (l : List α) : (select c l).map f = select d (l.map f) :=
  map_foldl_take h l []

end Select

/-! ### Sorting a list with a block that comes last -/

section Sorting

variable (r : α → α → Prop) [DecidableRel r]

theorem orderedInsert_append_of_le {a : α} : ∀ (l : List α) {l' : List α}, (∀ b ∈ l', r a b) →
    (l ++ l').orderedInsert r a = l.orderedInsert r a ++ l'
  | [], [], _ => rfl
  | [], b :: l', h => by
    rw [List.nil_append, List.orderedInsert_cons_of_le _ _ (h b List.mem_cons_self)]
    rfl
  | b :: l, l', h => by
    rw [List.cons_append, List.orderedInsert_cons, List.orderedInsert_cons]
    split_ifs
    · rfl
    · rw [orderedInsert_append_of_le l h, List.cons_append]

theorem orderedInsert_append_of_not_le {a : α} : ∀ (l : List α) {l' : List α}, (∀ b ∈ l, ¬ r a b) →
    (l ++ l').orderedInsert r a = l ++ l'.orderedInsert r a
  | [], _, _ => rfl
  | b :: l, l', h => by
    rw [List.forall_mem_cons] at h
    rw [List.cons_append, List.orderedInsert_of_not_le _ _ h.1, orderedInsert_append_of_not_le l h.2,
      List.cons_append]

theorem insertionSort_append_of_not_le : ∀ (m l : List α), (∀ b ∈ m, ∀ a ∈ l, ¬ r b a) →
    (m ++ l).insertionSort r = l.insertionSort r ++ m.insertionSort r
  | [], l, _ => (List.append_nil _).symm
  | b :: m, l, h => by
    rw [List.forall_mem_cons] at h
    rw [List.cons_append, List.insertionSort_cons, insertionSort_append_of_not_le m l h.2,
      orderedInsert_append_of_not_le r _ ?_, List.insertionSort_cons]
    intro a ha
    exact h.1 a ((List.mem_insertionSort r).mp ha)

/-- **A block that comes after everything else** is sorted to the end. -/
theorem insertionSort_insert : ∀ (l m l' : List α), (∀ b ∈ m, ∀ a ∈ l ++ l', r a b ∧ ¬ r b a) →
    (l ++ m ++ l').insertionSort r = (l ++ l').insertionSort r ++ m.insertionSort r
  | [], m, l', h => insertionSort_append_of_not_le r m l' (fun b hb a ha => (h b hb a ha).2)
  | a :: l, m, l', h => by
    have hrest : ∀ b ∈ m, ∀ a' ∈ l ++ l', r a' b ∧ ¬ r b a' := by
      intro b hb a' ha'
      exact h b hb a' (List.mem_cons_of_mem _ ha')
    have hfirst : ∀ b ∈ m.insertionSort r, r a b := by
      intro b hb
      exact (h b ((List.mem_insertionSort r).mp hb) a List.mem_cons_self).1
    simp only [List.cons_append, List.insertionSort_cons]
    rw [insertionSort_insert l m l' hrest, orderedInsert_append_of_le r _ hfirst]

end Sorting

end PdMasking.Greedy
