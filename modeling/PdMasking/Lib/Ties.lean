import Mathlib.Data.List.Induction
import Mathlib.Data.List.Perm.Basic
import Mathlib.Order.Basic

/-!
# PdMasking.Lib.Ties — folding over a collection that is sorted by a key with ties

The elements are treated in the order of decreasing keys; nothing fixes the order of elements with equal keys.

* `Arranged key l₀ l`: `l` is a possible order of the elements of `l₀`.
* `TiesCommute`: whenever two elements with equal keys come next, it does not matter which one comes first.
* `foldl_arranged_eq`: then all orders end in the same state.
-/

namespace PdMasking.Ties

variable {α β σ : Type*} [PartialOrder β] (key : α → β) (step : σ → α → σ)

/-- A possible order of the elements. -/
def Arranged (l₀ l : List α) : Prop := l.Perm l₀ ∧ l.Pairwise (fun x y => key y ≤ key x)

/-- The order of two neighbours with equal keys does not matter, at any stage of any order. -/
def TiesCommute (s : σ) (l₀ : List α) : Prop :=
  ∀ pre x y post, Arranged key l₀ (pre ++ x :: y :: post) → key x = key y →
    step (step (pre.foldl step s) x) y = step (step (pre.foldl step s) y) x

variable {key step}

theorem Arranged.cons {l₀ l : List α} {x : α} (h : Arranged key l₀ l) (hx : ∀ y ∈ l₀, key y ≤ key x) :
    Arranged key (x :: l₀) (x :: l) := by
  refine ⟨h.1.cons x, List.pairwise_cons.mpr ⟨?_, h.2⟩⟩
  intro y hy
  exact hx y (h.1.mem_iff.mp hy)

/-- After the first element the ties of the others commute. -/
theorem TiesCommute.tail {s : σ} {l₀ : List α} {x : α} (h : TiesCommute key step s (x :: l₀))
    (hx : ∀ y ∈ l₀, key y ≤ key x) : TiesCommute key step (step s x) l₀ := by
  intro pre y z post harr hkey
  exact h (x :: pre) y z post (harr.cons hx) hkey

theorem TiesCommute.perm {s : σ} {l₀ l₁ : List α} (h : TiesCommute key step s l₀) (hperm : l₀.Perm l₁) :
    TiesCommute key step s l₁ := by
  intro pre x y post harr hkey
  exact h pre x y post ⟨harr.1.trans hperm.symm, harr.2⟩ hkey

/-- Two neighbours with equal keys may change places. -/
theorem Arranged.swap {l₀ pre post : List α} {x y : α} (h : Arranged key l₀ (pre ++ x :: y :: post))
    (hkey : key x = key y) : Arranged key l₀ (pre ++ y :: x :: post) := by
  obtain ⟨hperm, hsorted⟩ := h
  refine ⟨((List.Perm.swap x y post).append_left pre).trans hperm, ?_⟩
  rw [List.pairwise_append, List.pairwise_cons, List.pairwise_cons] at hsorted ⊢
  obtain ⟨hpre, ⟨hx, hy, hpost⟩, hcross⟩ := hsorted
  refine ⟨hpre, ⟨?_, ?_, hpost⟩, ?_⟩
  · intro z hz
    rcases List.mem_cons.mp hz with rfl | hz
    · exact hkey.le
    · exact hy z hz
  · intro z hz
    exact hx z (List.mem_cons_of_mem _ hz)
  · intro z hz w hw
    refine hcross z hz w ?_
    simp only [List.mem_cons] at hw ⊢
    tauto

/-- An element with the largest key may come first. -/
theorem foldl_move_front {l₀ : List α} {x : α} : ∀ (pre post : List α) {s : σ},
    TiesCommute key step s l₀ → Arranged key l₀ (pre ++ x :: post) → (∀ y ∈ pre, key y = key x) →
      Arranged key l₀ (x :: (pre ++ post)) ∧
        (pre ++ x :: post).foldl step s = (x :: (pre ++ post)).foldl step s
  | pre, post, s, hties, harr, hkeys => by
    induction pre using List.reverseRecOn generalizing post with
    | nil => exact ⟨harr, rfl⟩
    | append_singleton pre y ih =>
      have hkey : key y = key x := hkeys y (by simp)
      rw [List.append_assoc] at harr
      have hswap : (pre ++ [y] ++ x :: post).foldl step s = (pre ++ x :: y :: post).foldl step s := by
        simp only [List.foldl_append, List.foldl_cons, List.foldl_nil]
        exact congrArg (fun s' => post.foldl step s') (hties pre y x post harr hkey)
      have hrest := ih (y :: post) (harr.swap hkey) (fun z hz => hkeys z (List.mem_append_left _ hz))
      rw [hswap, hrest.2, List.append_assoc]
      exact ⟨hrest.1, rfl⟩

/-- **All orders of commuting ties end in the same state.** -/
theorem foldl_arranged_eq : ∀ {l l₀ l' : List α} {s : σ}, TiesCommute key step s l₀ → Arranged key l₀ l →
    Arranged key l₀ l' → l.foldl step s = l'.foldl step s
  | [], l₀, l', s, _, h, h' => by
    have hnil : l' = [] := (h'.1.trans h.1.symm).eq_nil
    rw [hnil]
  | x :: l, l₀, l', s, hties, h, h' => by
    obtain ⟨hperm, hsorted⟩ := h
    rw [List.pairwise_cons] at hsorted
    have hmem : x ∈ l' := (h'.1.trans hperm.symm).mem_iff.mpr List.mem_cons_self
    obtain ⟨pre, post, rfl⟩ := List.append_of_mem hmem
    -- what stands before `x` in the other order has the same key
    have hkeys : ∀ y ∈ pre, key y = key x := by
      intro y hy
      have hge : key x ≤ key y := (List.pairwise_append.mp h'.2).2.2 y hy x List.mem_cons_self
      have hin : y ∈ x :: l := (h'.1.trans hperm.symm).mem_iff.mp (List.mem_append_left _ hy)
      rcases List.mem_cons.mp hin with rfl | hin
      · rfl
      · exact le_antisymm (hsorted.1 y hin) hge
    obtain ⟨hfront, heq⟩ := foldl_move_front pre post hties h' hkeys
    rw [heq]
    have hrest : (pre ++ post).Perm l := (hfront.1.trans hperm.symm).cons_inv
    have hties' : TiesCommute key step (step s x) l := (hties.perm hperm.symm).tail hsorted.1
    show l.foldl step (step s x) = (pre ++ post).foldl step (step s x)
    exact foldl_arranged_eq hties' ⟨List.Perm.refl l, hsorted.2⟩ ⟨hrest, (List.pairwise_cons.mp hfront.2).2⟩

end PdMasking.Ties
