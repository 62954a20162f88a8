import Mathlib.Algebra.BigOperators.Group.List.Basic
import Mathlib.Algebra.Group.Hom.Defs
import Mathlib.Data.Set.Function
import Mathlib.Tactic.Abel

/-!
# PdMasking.Lib.CheckDigit — sums of weighted symbols, over any alphabet and any group

`total w i l` adds up `w i a + w (i + 1) b + …` over the symbols of `l`.  What one wrong symbol or two exchanged
ones do to the sum depends on the weights of their places alone.

* `total_replace_iff`: a replaced symbol goes unseen iff its place gives both the same weight.
* `total_swap_iff`: an exchange goes unseen iff the two places weigh both symbols with the same difference.
* `existsUnique_check`: if a place takes every value once, one symbol there makes the sum what it has to be.
-/

namespace CheckDigit

variable {α G H : Type*}

/-- The weights of the symbols, the first at place `i`, added up. -/
def total [AddCommMonoid G] (w : ℕ → α → G) (i : ℕ) (l : List α) : G := ((l.zipIdx i).map (fun p => w p.2 p.1)).sum

section Monoid

variable [AddCommMonoid G] [AddCommMonoid H] (w : ℕ → α → G) (i : ℕ)

@[simp] theorem total_nil : total w i [] = 0 := rfl

@[simp] theorem total_cons (a : α) (l : List α) : total w i (a :: l) = w i a + total w (i + 1) l := by
  rw [total, List.zipIdx_cons, List.map_cons, List.sum_cons]
  rfl

theorem total_append (u v : List α) : total w i (u ++ v) = total w i u + total w (i + u.length) v := by
  rw [total, List.zipIdx_append, List.map_append, List.sum_append, Nat.add_comm]
  rfl

theorem map_total (f : G →+ H) (l : List α) : f (total w i l) = total (fun j a => f (w j a)) i l := by
  induction l generalizing i with
  | nil => exact map_zero f
  | cons a l ih => rw [total_cons, total_cons, map_add, ih]

/-- What a replaced symbol does to the sum. -/
theorem total_replace_add (u v : List α) (a b : α) :
    total w i (u ++ a :: v) + w (i + u.length) b = total w i (u ++ b :: v) + w (i + u.length) a := by
  simp only [total_append, total_cons]
  abel

/-- What two exchanged neighbours do to it. -/
theorem total_swap_add (u v : List α) (a b : α) :
    total w i (u ++ a :: b :: v) + (w (i + u.length) b + w (i + u.length + 1) a) =
      total w i (u ++ b :: a :: v) + (w (i + u.length) a + w (i + u.length + 1) b) := by
  simp only [total_append, total_cons]
  abel

end Monoid

section Group

variable [AddCommGroup G] (w : ℕ → α → G) (i : ℕ) (u v : List α) (a b : α)

/-- **One symbol replaced.** -/
theorem total_replace_iff :
    total w i (u ++ a :: v) = total w i (u ++ b :: v) ↔ w (i + u.length) a = w (i + u.length) b := by
  rw [total_append, total_append, total_cons, total_cons, add_right_inj, add_left_inj]

/-- **Two neighbours exchanged.** -/
theorem total_swap_iff : total w i (u ++ a :: b :: v) = total w i (u ++ b :: a :: v) ↔
    w (i + u.length) a - w (i + u.length + 1) a = w (i + u.length) b - w (i + u.length + 1) b := by
  rw [total_append, total_append, total_cons, total_cons, total_cons, total_cons, add_right_inj, ← add_assoc,
    ← add_assoc, add_left_inj, sub_eq_sub_iff_add_eq_add]

/-- **The check symbol.** -/
theorem existsUnique_check {s : Set α} (h : Set.BijOn (w i) s Set.univ) (c : G) :
    ∃! a, a ∈ s ∧ total w i (a :: v) = c := by
  obtain ⟨a, ha, hweight⟩ := h.surjOn (Set.mem_univ (c - total w (i + 1) v))
  refine ⟨a, ⟨ha, by rw [total_cons, hweight, sub_add_cancel]⟩, ?_⟩
  rintro b ⟨hb, htotal⟩
  rw [total_cons] at htotal
  exact h.injOn hb ha ((eq_sub_of_add_eq htotal).trans hweight.symm)

end Group

end CheckDigit
