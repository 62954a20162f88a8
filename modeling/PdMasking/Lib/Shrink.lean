import Mathlib.Data.List.Basic
import Mathlib.Data.List.Perm.Basic
import Mathlib.Logic.Function.Iterate

/-!
# PdMasking.Lib.Shrink — dropping what is not supported until nothing is dropped

`p kept a` says that `a` is supported by the list `kept`.  A round keeps what the whole list supports, and
`shrink` repeats rounds until one drops nothing.  Support is monotone (`Supports`), so that the result is the
greatest part of the list that supports itself.

* `exists_rounds`: every round but the last one drops something, so there are no more than elements.
* `supported_shrink`: the result keeps every part that supports itself.
* `shrink_eq_filter`: the result is the list filtered by what the result supports.
-/

namespace PdMasking.Shrink

variable {α : Type*} (p : List α → α → Bool)

/-- A round. -/
def round (kept : List α) : List α := kept.filter (p kept)

/-- At most so many rounds, up to the first one that drops nothing. -/
def shrink : ℕ → List α → List α
  | 0, kept => kept
  | n + 1, kept => if (round p kept).length = kept.length then round p kept else shrink n (round p kept)

/-- Support is monotone in the list. -/
def Supports : Prop := ∀ kept kept' a, kept ⊆ kept' → p kept a = true → p kept' a = true

/-! ### The number of rounds -/

section Rounds

theorem round_sublist (kept : List α) : (round p kept).Sublist kept := List.filter_sublist

/-- A round that drops nothing changes nothing. -/
theorem round_eq_of_length {kept : List α} (h : (round p kept).length = kept.length) : round p kept = kept :=
  (round_sublist p kept).eq_of_length h

theorem iterate_sublist : ∀ (n : ℕ) (kept : List α), ((round p)^[n] kept).Sublist kept
  | 0, kept => List.Sublist.refl kept
  | n + 1, kept => by
    rw [Function.iterate_succ_apply]
    exact (iterate_sublist n (round p kept)).trans (round_sublist p kept)

/-- **The rounds come to an end**: the first one that drops nothing is reached after at most as many rounds as
there are elements, and the loop returns what it returns. -/
theorem exists_rounds : ∀ (fuel : ℕ) (kept : List α), kept.length ≤ fuel →
    ∃ n ≤ kept.length, (∀ m < n, ((round p)^[m + 1] kept).length < ((round p)^[m] kept).length) ∧
      (round p)^[n + 1] kept = (round p)^[n] kept ∧ shrink p fuel kept = (round p)^[n + 1] kept
  | 0, kept, hfuel => by
    obtain rfl : kept = [] := List.eq_nil_of_length_eq_zero (by omega)
    refine ⟨0, Nat.le_refl 0, ?_, rfl, rfl⟩
    intro m hm
    omega
  | fuel + 1, kept, hfuel => by
    by_cases h : (round p kept).length = kept.length
    · refine ⟨0, Nat.zero_le _, ?_, round_eq_of_length p h, ?_⟩
      · intro m hm
        omega
      · rw [shrink, if_pos h]
        rfl
    · have hlt : (round p kept).length < kept.length :=
        Nat.lt_of_le_of_ne (round_sublist p kept).length_le h
      obtain ⟨n, hn, hdrop, hfix, hres⟩ := exists_rounds fuel (round p kept) (by omega)
      refine ⟨n + 1, by omega, ?_, hfix, ?_⟩
      · intro m hm
        rcases m with _ | m
        · exact hlt
        · exact hdrop m (by omega)
      · rw [shrink, if_neg h]
        exact hres

end Rounds

/-! ### The greatest part that supports itself -/

section Greatest

variable {p} (hp : Supports p)
include hp

/-- **The rounds keep every part that supports itself.** -/
theorem supported_iterate {S : List α} (hS : ∀ a ∈ S, p S a = true) : ∀ (n : ℕ) {kept : List α}, S ⊆ kept →
    S ⊆ (round p)^[n] kept
  | 0, _, h => h
  | n + 1, kept, h => by
    rw [Function.iterate_succ_apply]
    refine supported_iterate hS n ?_
    intro a ha
    exact List.mem_filter.mpr ⟨h ha, hp S kept a h (hS a ha)⟩

/-- A list of rounds whose result supports itself is one filter. -/
theorem iterate_eq_filter : ∀ (n : ℕ) {kept : List α},
    (∀ a ∈ (round p)^[n] kept, p ((round p)^[n] kept) a = true) →
      (round p)^[n] kept = kept.filter (p ((round p)^[n] kept))
  | 0, kept, hself => (List.filter_eq_self.mpr hself).symm
  | n + 1, kept, hself => by
    rw [Function.iterate_succ_apply] at hself ⊢
    have ih := iterate_eq_filter n hself
    have hsub : (round p)^[n] (round p kept) ⊆ kept :=
      ((iterate_sublist p n (round p kept)).trans (round_sublist p kept)).subset
    have hround : (round p kept).filter (p ((round p)^[n] (round p kept))) =
        kept.filter (p ((round p)^[n] (round p kept))) := by
      unfold round
      rw [List.filter_filter]
      refine List.filter_congr ?_
      intro a _
      rw [Bool.and_eq_left_iff_imp]
      exact hp _ _ a hsub
    exact ih.trans hround

/-- **The result is what it supports itself.** -/
theorem shrink_eq_filter {fuel : ℕ} {kept : List α} (hfuel : kept.length ≤ fuel) :
    shrink p fuel kept = kept.filter (p (shrink p fuel kept)) := by
  obtain ⟨n, -, -, hfix, hres⟩ := exists_rounds p fuel kept hfuel
  rw [hfix] at hres
  rw [hres]
  refine iterate_eq_filter hp n ?_
  intro a ha
  rw [← hfix, Function.iterate_succ_apply'] at ha
  exact (List.mem_filter.mp ha).2

/-- The result keeps every part that supports itself. -/
theorem supported_shrink {S : List α} (hS : ∀ a ∈ S, p S a = true) {fuel : ℕ} {kept : List α}
    (hfuel : kept.length ≤ fuel) (h : S ⊆ kept) : S ⊆ shrink p fuel kept := by
  obtain ⟨n, -, -, -, hres⟩ := exists_rounds p fuel kept hfuel
  rw [hres]
  exact supported_iterate hp hS (n + 1) h

end Greatest

end PdMasking.Shrink
