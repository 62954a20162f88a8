import Mathlib.Data.List.Basic

/-!
# PdMasking.Lib.Leftmost — the scan that takes what it finds from left to right

At a position `i` something of `size i` items is found, or nothing when `size i = 0`.  The scan takes what it finds
at the first position that is free, and goes on behind it.

* `taken_spec`: what is taken was found at its position.
* `taken_or_inside`: what is found at a position is taken, or the position is inside of something taken before.
-/

namespace Leftmost

variable (size : ℕ → ℕ)

/-- What is taken at `n` positions from `i` on, the first `skip` of which are not free: start and size. -/
def taken : ℕ → ℕ → ℕ → List (ℕ × ℕ)
  | 0, _, _ => []
  | n + 1, skip + 1, i => taken n skip (i + 1)
  | n + 1, 0, i => if size i = 0 then taken n 0 (i + 1) else (i, size i) :: taken n (size i - 1) (i + 1)

variable {size}

theorem taken_spec : ∀ {n skip i : ℕ} {m : ℕ × ℕ}, m ∈ taken size n skip i →
    i + skip ≤ m.1 ∧ m.1 < i + n ∧ m.2 = size m.1 ∧ m.2 ≠ 0
  | n + 1, skip + 1, i, m, h => by
    rw [taken] at h
    obtain ⟨h1, h2, h3⟩ := taken_spec h
    exact ⟨by omega, by omega, h3⟩
  | n + 1, 0, i, m, h => by
    rw [taken] at h
    split_ifs at h with hsize
    · obtain ⟨h1, h2, h3⟩ := taken_spec h
      exact ⟨by omega, by omega, h3⟩
    · rcases List.mem_cons.mp h with rfl | h
      · exact ⟨Nat.le_refl i, by dsimp only; omega, rfl, hsize⟩
      · obtain ⟨h1, h2, h3⟩ := taken_spec h
        exact ⟨by omega, by omega, h3⟩

/-- **What is found is taken**, unless its position is inside of something taken before. -/
theorem taken_or_inside : ∀ {n skip i k : ℕ}, i + skip ≤ k → k < i + n → size k ≠ 0 →
    (k, size k) ∈ taken size n skip i ∨ ∃ m ∈ taken size n skip i, m.1 < k ∧ k < m.1 + m.2
  | 0, skip, i, k, h1, h2, _ => by omega
  | n + 1, skip + 1, i, k, h1, h2, hk => by
    rw [taken]
    exact taken_or_inside (by omega) (by omega) hk
  | n + 1, 0, i, k, h1, h2, hk => by
    rw [taken]
    rcases Nat.eq_or_lt_of_le h1 with rfl | hlt
    · rw [Nat.add_zero] at hk ⊢
      rw [if_neg hk]
      exact Or.inl List.mem_cons_self
    · split_ifs with hsize
      · exact taken_or_inside (by omega) (by omega) hk
      · -- the position is inside of what is taken here, or behind it
        rcases Nat.lt_or_ge k (i + size i) with hin | hbehind
        · exact Or.inr ⟨_, List.mem_cons_self, hlt, hin⟩
        · have hskip : i + 1 + (size i - 1) ≤ k := by omega
          have hlt' : k < i + 1 + n := by omega
          rcases taken_or_inside hskip hlt' hk with h | h
          · exact Or.inl (List.mem_cons_of_mem _ h)
          · obtain ⟨m, hm, hinside⟩ := h
            exact Or.inr ⟨m, List.mem_cons_of_mem _ hm, hinside⟩

/-- What is taken later starts behind what is taken before. -/
theorem taken_pairwise : ∀ {n skip i : ℕ}, (taken size n skip i).Pairwise (fun m m' => m.1 + m.2 ≤ m'.1)
  | 0, _, _ => List.Pairwise.nil
  | n + 1, skip + 1, i => by
    rw [taken]
    exact taken_pairwise
  | n + 1, 0, i => by
    rw [taken]
    split_ifs with hsize
    · exact taken_pairwise
    · refine List.Pairwise.cons ?_ taken_pairwise
      intro m hm
      obtain ⟨h1, -, -⟩ := taken_spec hm
      dsimp only
      omega

/-- Of two things taken one lies behind the other. -/
theorem taken_apart {n skip i : ℕ} {m m' : ℕ × ℕ} (hm : m ∈ taken size n skip i) (hm' : m' ∈ taken size n skip i) :
    m = m' ∨ m.1 + m.2 ≤ m'.1 ∨ m'.1 + m'.2 ≤ m.1 := by
  obtain ⟨a, ha, rfl⟩ := List.getElem_of_mem hm
  obtain ⟨b, hb, rfl⟩ := List.getElem_of_mem hm'
  have hpair : (taken size n skip i).Pairwise (fun m m' => m.1 + m.2 ≤ m'.1) := taken_pairwise
  rw [List.pairwise_iff_getElem] at hpair
  rcases Nat.lt_trichotomy a b with hab | rfl | hab
  · exact Or.inr (Or.inl (hpair a b ha hb hab))
  · exact Or.inl rfl
  · exact Or.inr (Or.inr (hpair b a hb ha hab))

end Leftmost
