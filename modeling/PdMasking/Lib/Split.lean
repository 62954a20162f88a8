import PdMasking.Lib.TextSearch

/-!
# PdMasking.Lib.Split — cutting a text at a separator, over any alphabet

`split sep t` are the pieces of `t` between the hits of a left-to-right search for `sep`; `partition sep t` cuts at
the first hit only.  `SplitsOff sep u`: a search in `u ++ sep` stops behind `u`, not before.

Main rules: `split_append_sep` and `partition_append_sep` (the first piece), `split_eq_singleton` (no separator),
`not_infix_of_mem_split` (no piece has the separator in it); `splitsOff_of_not_mem` and `splitsOff_concat` give
the hypothesis.
-/

namespace TextSearch

variable {α : Type*}

/-! ### Pieces that split off -/

/-- The separator begins nowhere in the piece, not even with its end in a separator behind. -/
def SplitsOff (sep u : List α) : Prop := ∀ i < u.length, ¬ sep <+: (u ++ sep).drop i

variable {sep u t : List α}

/-- An occurrence covers no symbol that the separator does not have. -/
theorem not_prefix_drop_of_mem {s : List α} {i j : ℕ} {c : α} (hc : c ∉ sep) (hj : s[j]? = some c) (hij : i ≤ j)
    (hlt : j < i + sep.length) : ¬ sep <+: s.drop i := by
  intro hpre
  have hin : j - i < sep.length := by omega
  have hcopy := List.prefix_iff_getElem?.mp hpre (j - i) hin
  rw [List.getElem?_drop, Nat.add_sub_cancel' hij, hj] at hcopy
  exact hc (Option.some.inj hcopy ▸ List.getElem_mem hin)

theorem splitsOff_of_not_mem (hne : sep ≠ []) (h : ∀ c ∈ u, c ∉ sep) : SplitsOff sep u := by
  intro i hi
  have hpos := List.length_pos_of_ne_nil hne
  refine not_prefix_drop_of_mem (h u[i] (List.getElem_mem hi)) ?_ le_rfl (by omega)
  rw [List.getElem?_append_left hi, List.getElem?_eq_getElem hi]

/-- A symbol of its own behind the piece keeps the two separators apart. -/
theorem splitsOff_concat {c : α} (hu : ¬ sep <:+: u) (hc : c ∉ sep) : SplitsOff sep (u ++ [c]) := by
  intro i hi hpre
  rw [List.length_append, List.length_singleton] at hi
  by_cases hend : i + sep.length ≤ u.length
  · -- the occurrence is in the piece
    rw [List.append_assoc, List.drop_append_of_le_length (by omega)] at hpre
    have hlen : sep.length ≤ (u.drop i).length := by
      rw [List.length_drop]
      omega
    have hpiece := List.prefix_of_prefix_length_le hpre (List.prefix_append _ _) hlen
    exact hu (hpiece.isInfix.trans (List.drop_suffix i u).isInfix)
  · -- it goes over the symbol
    refine not_prefix_drop_of_mem (j := u.length) hc ?_ (by omega) (by omega) hpre
    rw [List.append_assoc, List.getElem?_append_right le_rfl, Nat.sub_self]
    rfl

/-- Symbols before a piece that the separator does not have. -/
theorem not_infix_append_of_not_mem (hne : sep ≠ []) (ht : ¬ sep <:+: t) : ∀ {u : List α}, (∀ c ∈ u, c ∉ sep) →
    ¬ sep <:+: u ++ t
  | [], _ => ht
  | c :: u, h => by
    rw [List.forall_mem_cons] at h
    rw [List.cons_append, List.infix_cons_iff]
    rintro (hpre | hin)
    · obtain ⟨d, rest, rfl⟩ := List.exists_cons_of_ne_nil hne
      obtain rfl := (List.cons_prefix_cons.mp hpre).1
      exact h.1 List.mem_cons_self
    · exact not_infix_append_of_not_mem hne ht h.2 hin

theorem SplitsOff.not_prefix_drop (h : SplitsOff sep u) (t : List α) {i : ℕ} (hi : i < u.length) :
    ¬ sep <+: (u ++ sep ++ t).drop i := by
  intro hpre
  rw [List.drop_append_of_le_length (by rw [List.length_append]; omega)] at hpre
  refine h i hi (List.prefix_of_prefix_length_le hpre (List.prefix_append _ _) ?_)
  rw [List.length_drop, List.length_append]
  omega

/-! ### Splitting -/

variable [DecidableEq α]

/-- The counter is the number of symbols of the current separator still to be skipped. -/
def splitAux (sep : List α) : ℕ → List α → List (List α)
  | _, [] => [[]]
  | k + 1, _ :: t => splitAux sep k t
  | 0, c :: t =>
    if sep <+: c :: t then [] :: splitAux sep (sep.length - 1) t else (splitAux sep 0 t).modifyHead (c :: ·)

/-- The pieces between the hits of a separator that is not empty. -/
def split (sep t : List α) : List (List α) := splitAux sep 0 t

theorem splitAux_skip (sep : List α) : ∀ u t : List α, splitAux sep u.length (u ++ t) = splitAux sep 0 t
  | [], _ => rfl
  | c :: u, t => by rw [List.length_cons, List.cons_append, splitAux, splitAux_skip sep u t]

theorem split_cons_skip {c : α} (h : ¬ sep <+: c :: t) : split sep (c :: t) = (split sep t).modifyHead (c :: ·) := by
  rw [split, splitAux, if_neg h]
  rfl

theorem split_sep_append (hne : sep ≠ []) (t : List α) : split sep (sep ++ t) = [] :: split sep t := by
  obtain ⟨c, u, rfl⟩ := List.exists_cons_of_ne_nil hne
  have hpre : c :: u <+: c :: (u ++ t) := List.prefix_append (c :: u) t
  rw [split, List.cons_append, splitAux, if_pos hpre, List.length_cons, Nat.add_sub_cancel, splitAux_skip]
  rfl

/-- **The first piece**: it splits off. -/
theorem split_append_sep (hne : sep ≠ []) : ∀ {u : List α}, SplitsOff sep u → ∀ t : List α,
    split sep (u ++ sep ++ t) = u :: split sep t
  | [], _, t => split_sep_append hne t
  | c :: u, h, t => by
    have hskip := h.not_prefix_drop t (Nat.zero_lt_succ u.length)
    have hrest : SplitsOff sep u := fun i hi => h (i + 1) (Nat.succ_lt_succ hi)
    rw [List.drop_zero, List.cons_append, List.cons_append] at hskip
    rw [List.cons_append, List.cons_append, split_cons_skip hskip, split_append_sep hne hrest t, List.modifyHead_cons]

/-- A text without the separator is one piece. -/
theorem split_eq_singleton : ∀ {t : List α}, ¬ sep <:+: t → split sep t = [t]
  | [], _ => rfl
  | c :: t, h => by
    rw [List.infix_cons_iff, not_or] at h
    rw [split_cons_skip h.1, split_eq_singleton h.2, List.modifyHead_cons]

/-- The first piece is the front of the text, and no piece has the separator in it. -/
theorem exists_split (hne : sep ≠ []) (t : List α) :
    ∃ p ps, split sep t = p :: ps ∧ p <+: t ∧ ∀ q ∈ p :: ps, ¬ sep <:+: q := by
  have hnil : ¬ sep <:+: [] := fun h => hne (List.infix_nil.mp h)
  induction t using search_induction hne with
  | nil => exact ⟨[], [], rfl, List.nil_prefix, by simpa using hnil⟩
  | stop t ih =>
    obtain ⟨p, ps, hsplit, -, hpieces⟩ := ih
    rw [split_sep_append hne, hsplit]
    exact ⟨[], p :: ps, rfl, List.nil_prefix, List.forall_mem_cons.mpr ⟨hnil, hpieces⟩⟩
  | skip c t hskip ih =>
    obtain ⟨p, ps, hsplit, hfront, hpieces⟩ := ih
    rw [List.forall_mem_cons] at hpieces
    have hcons : c :: p <+: c :: t := (List.prefix_cons_inj c).mpr hfront
    rw [split_cons_skip hskip, hsplit, List.modifyHead_cons]
    refine ⟨c :: p, ps, rfl, hcons, List.forall_mem_cons.mpr ⟨?_, hpieces.2⟩⟩
    rw [List.infix_cons_iff]
    rintro (hpre | hin)
    · exact hskip (hpre.trans hcons)
    · exact hpieces.1 hin

theorem not_infix_of_mem_split (hne : sep ≠ []) {p : List α} (hp : p ∈ split sep t) : ¬ sep <:+: p := by
  obtain ⟨q, qs, hsplit, -, hpieces⟩ := exists_split hne t
  exact hpieces p (hsplit ▸ hp)

/-! ### Cutting once -/

/-- The text before the first hit, the separator and the text behind it; all the text and two empty ones without. -/
def partition (sep t : List α) : List α × List α × List α :=
  match (hits sep t).head? with
  | some i => (t.take i, sep, t.drop (i + sep.length))
  | none => (t, [], [])

/-- **The cut is behind a piece that splits off.** -/
theorem partition_append_sep (hne : sep ≠ []) (h : SplitsOff sep u) (t : List α) :
    partition sep (u ++ sep ++ t) = (u, sep, t) := by
  have hfirst : ∀ i ∈ hits sep (u ++ (sep ++ t)), u.length ≤ i := by
    intro i hi
    by_contra hlt
    refine h.not_prefix_drop t (Nat.not_le.mp hlt) ?_
    rw [List.append_assoc]
    exact prefix_drop_of_mem_hits hne hi
  have hhits : (hits sep (u ++ sep ++ t)).head? = some u.length := by
    rw [List.append_assoc, hits_append hfirst, hits_self_append hne, List.map_cons, List.head?_cons, Nat.zero_add]
  unfold partition
  rw [hhits]
  dsimp only
  rw [← List.length_append, List.drop_left, List.append_assoc, List.take_left]

/-- What is behind the cut is a part of the text. -/
theorem partition_value_infix (sep t : List α) : (partition sep t).2.2 <:+: t := by
  unfold partition
  split
  · exact (List.drop_suffix _ t).isInfix
  · exact List.nil_infix

end TextSearch
