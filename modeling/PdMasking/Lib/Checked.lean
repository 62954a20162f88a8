import Mathlib.Data.List.Forall2

/-!
# PdMasking.Lib.Checked — when a computation that checks its input succeeds

Rules for `Except`: a sequence of checks succeeds when each of them does, a traversal when every element passes.

* `ok_bind`, `ok_ite`: success of a sequence, and behind a guard.
* `ok_mapM`: success of a traversal, element by element.
-/

namespace Checked

variable {ε α β γ : Type}

/-- The computation succeeds. -/
def Ok (x : Except ε α) : Prop := ∃ a, x = .ok a

theorem ok_pure (a : α) : Ok (.ok a : Except ε α) := ⟨a, rfl⟩

theorem not_ok_error (e : ε) : ¬ Ok (.error e : Except ε α) := by
  rintro ⟨a, h⟩
  cases h

/-- A sequence ends with `b` when its parts do. -/
theorem bind_eq_ok {x : Except ε α} {f : α → Except ε β} {b : β} : x >>= f = .ok b ↔ ∃ a, x = .ok a ∧ f a = .ok b := by
  cases x with
  | error e =>
    refine iff_of_false ?_ ?_
    · rintro ⟨⟩
    · rintro ⟨a, h, -⟩
      cases h
  | ok a =>
    constructor
    · exact fun h => ⟨a, rfl, h⟩
    · rintro ⟨a', h, hf⟩
      cases h
      exact hf

theorem ok_bind {x : Except ε α} {f : α → Except ε β} : Ok (x >>= f) ↔ ∃ a, x = .ok a ∧ Ok (f a) := by
  unfold Ok
  simp only [bind_eq_ok]
  exact ⟨fun ⟨b, a, hx, hf⟩ => ⟨a, hx, b, hf⟩, fun ⟨a, hx, b, hf⟩ => ⟨b, a, hx, hf⟩⟩

/-- A sequence whose later parts do not depend on what the first one gives. -/
theorem ok_bind_const {x : Except ε α} {f : α → Except ε β} {p : Prop} (h : ∀ a, x = .ok a → (Ok (f a) ↔ p)) :
    Ok (x >>= f) ↔ Ok x ∧ p := by
  rw [ok_bind]
  constructor
  · rintro ⟨a, hx, hf⟩
    exact ⟨⟨a, hx⟩, (h a hx).mp hf⟩
  · rintro ⟨⟨a, hx⟩, hp⟩
    exact ⟨a, hx, (h a hx).mpr hp⟩

/-- What is made of the end. -/
theorem ok_bind_pure {x : Except ε α} {g : α → β} : Ok (x >>= fun a => pure (g a)) ↔ Ok x := by
  rw [ok_bind]
  exact ⟨fun ⟨a, hx, _⟩ => ⟨a, hx⟩, fun ⟨a, hx⟩ => ⟨a, hx, g a, rfl⟩⟩

/-- A check before the rest. -/
theorem ok_guard {p : Prop} [Decidable p] {e : ε} {x : Except ε α} : Ok (if p then .error e else x) ↔ ¬ p ∧ Ok x := by
  by_cases hp : p
  · rw [if_pos hp]
    exact iff_of_false (not_ok_error e) (fun h => h.1 hp)
  · rw [if_neg hp]
    exact (and_iff_right hp).symm

/-- The elements of a traversal. -/
theorem mapM_eq_ok {f : α → Except ε β} : ∀ {xs : List α} {ys : List β},
    xs.mapM f = .ok ys ↔ List.Forall₂ (fun x y => f x = .ok y) xs ys
  | [], ys => by
    rw [List.mapM_nil, List.forall₂_nil_left_iff]
    constructor
    · rintro ⟨⟩
      rfl
    · rintro rfl
      rfl
  | x :: xs, ys => by
    rw [List.mapM_cons, bind_eq_ok, List.forall₂_cons_left_iff]
    constructor
    · rintro ⟨y, hx, h⟩
      obtain ⟨ys', hxs, h⟩ := bind_eq_ok.mp h
      cases h
      exact ⟨y, ys', hx, mapM_eq_ok.mp hxs, rfl⟩
    · rintro ⟨y, ys', hx, hxs, rfl⟩
      exact ⟨y, hx, bind_eq_ok.mpr ⟨ys', mapM_eq_ok.mpr hxs, rfl⟩⟩

/-- **A traversal succeeds when every element passes.** -/
theorem ok_mapM {f : α → Except ε β} : ∀ {xs : List α}, Ok (xs.mapM f) ↔ ∀ x ∈ xs, Ok (f x)
  | [] => by
    rw [List.mapM_nil]
    exact iff_of_true (ok_pure []) (List.forall_mem_nil _)
  | x :: xs => by
    rw [List.mapM_cons, ok_bind_const (p := ∀ x ∈ xs, Ok (f x)), List.forall_mem_cons]
    intro a _
    rw [← ok_mapM, ok_bind_pure]

end Checked
