import PdMasking.Lib.Template

/-!
# PdMasking.Lib.Cover — texts of which some symbols are covered, and uncovering them by replacement

`Covers b t w`: `t` is `w` with some symbols covered by `b`.  A pass replaces a covered word `old` by the
word `new` under it, wherever the search for `old` stops.  It `Fits` the target `w` when at every stop `w`
has the symbols that `new` puts there; then the pass shows symbols of `w` (`reveal`).  A pass that does not
fit spoils the text for good.

`foldl_fill_eq_iff`: a sequence of passes turns `t` into `w` iff every pass fits and at the end nothing is
covered.
-/

namespace Cover

open TextSearch Template

variable {α : Type*}

/-- `t` is `w` with some symbols covered by `b`. -/
def Covers (b : α) (t w : List α) : Prop :=
  t.length = w.length ∧ ∀ i : ℕ, t[i]? = w[i]? ∨ (t[i]? = some b ∧ w[i]? ≠ some b)

/-- A symbol is shown that is not the one of `w`. -/
def Spoiled (b : α) (t w : List α) : Prop := ∃ i : ℕ, t[i]? ≠ w[i]? ∧ t[i]? ≠ some b

theorem covers_refl (b : α) (t : List α) : Covers b t t := ⟨rfl, fun _ => Or.inl rfl⟩

theorem covers_append {b : α} {t w t' w' : List α} (h : Covers b t w) (h' : Covers b t' w') :
    Covers b (t ++ t') (w ++ w') := by
  obtain ⟨hlen, hsym⟩ := h
  refine ⟨?_, ?_⟩
  · rw [List.length_append, List.length_append, hlen, h'.1]
  · intro i
    by_cases hi : i < t.length
    · rw [List.getElem?_append_left hi, List.getElem?_append_left (by omega)]
      exact hsym i
    · rw [List.getElem?_append_right (by omega), List.getElem?_append_right (by omega), hlen]
      exact h'.2 _

theorem not_spoiled_self (b : α) (t : List α) : ¬ Spoiled b t t := by
  rintro ⟨i, hne, -⟩
  exact hne rfl

/-- A position where `old` and `new` differ is one of `old`. -/
theorem lt_of_differ {b : α} {old new : List α} (h : Covers b old new) {i : ℕ} (hi : old[i]? ≠ new[i]?) :
    i < old.length := by
  by_contra hge
  refine hi ?_
  have hlen := h.1
  rw [List.getElem?_eq_none (by omega), List.getElem?_eq_none (by omega)]

/-! ### One pass -/

variable [DecidableEq α]

/-- At every stop `w` has the symbols that the pass puts there. -/
def Fits (old new t w : List α) : Prop :=
  ∀ j ∈ hits old t, ∀ i < old.length, old[i]? ≠ new[i]? → w[j + i]? = new[i]?

instance (old new t w : List α) : Decidable (Fits old new t w) :=
  inferInstanceAs (Decidable (∀ j ∈ hits old t, ∀ i < old.length, old[i]? ≠ new[i]? → w[j + i]? = new[i]?))

/-- The position is changed at a stop of the pass. -/
def reached (old new t : List α) (i : ℕ) : Bool :=
  (hits old t).any (fun j => j ≤ i ∧ old[i - j]? ≠ new[i - j]?)

/-- The text in which the positions reached show the symbols of `w`. -/
def reveal (old new t w : List α) : List α :=
  t.mapIdx (fun i x => if reached old new t i then w.getD i x else x)

/-- Every pass fits, and in the end every covered symbol has been reached. -/
def Reveals (w : List α) : List (List α × List α) → List α → Prop
  | [], t => t = w
  | f :: fs, t =>
    if f.1 = f.2 then Reveals w fs t
    else Fits f.1 f.2 t w ∧ Reveals w fs (reveal f.1 f.2 t w)

instance decidableReveals (w : List α) : ∀ (fs : List (List α × List α)) (t : List α), Decidable (Reveals w fs t)
  | [], t => inferInstanceAs (Decidable (t = w))
  | f :: fs, t =>
    have := decidableReveals w fs t
    have := decidableReveals w fs (reveal f.1 f.2 t w)
    inferInstanceAs (Decidable (if f.1 = f.2 then _ else _ ∧ _))

section Pass

variable {b : α} {old new t w : List α}

theorem reached_iff {i : ℕ} :
    reached old new t i = true ↔ ∃ j ∈ hits old t, ∃ i' : ℕ, j + i' = i ∧ old[i']? ≠ new[i']? := by
  unfold reached
  rw [List.any_eq_true]
  constructor
  · rintro ⟨j, hj, h⟩
    obtain ⟨hle, hne⟩ := of_decide_eq_true h
    exact ⟨j, hj, i - j, by omega, hne⟩
  · rintro ⟨j, hj, i', rfl, hne⟩
    refine ⟨j, hj, decide_eq_true ⟨by omega, ?_⟩⟩
    rwa [Nat.add_sub_cancel_left]

theorem getElem?_reveal (hlen : t.length = w.length) (i : ℕ) :
    (reveal old new t w)[i]? = if reached old new t i then w[i]? else t[i]? := by
  unfold reveal
  rw [List.getElem?_mapIdx]
  by_cases hi : i < t.length
  · rw [List.getElem?_eq_getElem hi, Option.map_some]
    split_ifs
    · rw [List.getElem?_eq_getElem (by omega), List.getD_eq_getElem?_getD, List.getElem?_eq_getElem (by omega),
        Option.getD_some]
    · rfl
  · rw [List.getElem?_eq_none (by omega), List.getElem?_eq_none (by omega : w.length ≤ i)]
    simp

/-- **A pass that fits** shows symbols of `w`. -/
theorem replace_eq_reveal (hne : old ≠ []) (hold : Covers b old new) (hlen : t.length = w.length)
    (hfits : Fits old new t w) : replace old new t = reveal old new t w := by
  refine List.ext_getElem? ?_
  intro i
  rw [getElem?_reveal hlen]
  by_cases hr : reached old new t i = true
  · obtain ⟨j, hj, i', rfl, hd⟩ := reached_iff.mp hr
    have hlt := lt_of_differ hold hd
    rw [if_pos hr, getElem?_replace_of_hit hne hold.1.symm t hj hlt, hfits j hj i' hlt hd]
  · rw [if_neg hr]
    by_cases hstop : ∃ j ∈ hits old t, j ≤ i ∧ i < j + old.length
    · -- inside a stop, but `old` and `new` agree there
      obtain ⟨j, hj, hji, hij⟩ := hstop
      obtain ⟨i', rfl⟩ := Nat.exists_eq_add_of_le hji
      have hsame : old[i']? = new[i']? := by
        by_contra hd
        exact hr (reached_iff.mpr ⟨j, hj, i', rfl, hd⟩)
      rw [getElem?_replace_of_hit hne hold.1.symm t hj (by omega), getElem?_of_hit hne hj (by omega), hsame]
    · refine getElem?_replace_of_not_hit hne hold.1.symm t ?_
      intro j hj
      by_contra hcover
      exact hstop ⟨j, hj, by omega, by omega⟩

theorem covers_reveal (h : Covers b t w) : Covers b (reveal old new t w) w := by
  obtain ⟨hlen, hsym⟩ := h
  refine ⟨?_, ?_⟩
  · unfold reveal
    rw [List.length_mapIdx, hlen]
  · intro i
    rw [getElem?_reveal hlen]
    split_ifs
    · exact Or.inl rfl
    · exact hsym i

/-- **A pass that does not fit** spoils the text. -/
theorem spoiled_of_not_fits (hne : old ≠ []) (hold : Covers b old new) (hfits : ¬ Fits old new t w) :
    Spoiled b (replace old new t) w := by
  unfold Fits at hfits
  push Not at hfits
  obtain ⟨j, hj, i, -, hd, hw⟩ := hfits
  have hnew := getElem?_replace_of_hit hne hold.1.symm t hj (lt_of_differ hold hd)
  refine ⟨j + i, ?_, ?_⟩
  · rw [hnew]
    exact Ne.symm hw
  · rw [hnew]
    rcases hold.2 i with hsame | ⟨-, hshown⟩
    · exact absurd hsame hd
    · intro hb
      exact hshown hb

/-- What is spoiled stays so: only covered symbols are ever changed. -/
theorem spoiled_replace (hne : old ≠ []) (hold : Covers b old new) (h : Spoiled b t w) :
    Spoiled b (replace old new t) w := by
  obtain ⟨i, hw, hb⟩ := h
  have hkeep : (replace old new t)[i]? = t[i]? := by
    by_cases hstop : ∃ j ∈ hits old t, j ≤ i ∧ i < j + old.length
    · obtain ⟨j, hj, hji, hij⟩ := hstop
      obtain ⟨i', rfl⟩ := Nat.exists_eq_add_of_le hji
      have hi' : i' < old.length := by omega
      rw [getElem?_of_hit hne hj hi'] at hb ⊢
      rw [getElem?_replace_of_hit hne hold.1.symm t hj hi']
      rcases hold.2 i' with hsame | ⟨hcov, -⟩
      · exact hsame.symm
      · exact absurd hcov hb
    · refine getElem?_replace_of_not_hit hne hold.1.symm t ?_
      intro j hj
      by_contra hcover
      exact hstop ⟨j, hj, by omega, by omega⟩
  exact ⟨i, by rw [hkeep]; exact hw, by rw [hkeep]; exact hb⟩

end Pass

/-! ### A sequence of passes -/

section Passes

variable {b : α} {w : List α}

theorem spoiled_foldl : ∀ {fs : List (List α × List α)} {t : List α},
    (∀ f ∈ fs, f.1 ≠ [] ∧ Covers b f.1 f.2) → Spoiled b t w →
      Spoiled b (fs.foldl (fillStep Prod.fst Prod.snd) t) w
  | [], _, _, h => h
  | f :: fs, t, hfs, h => by
    obtain ⟨hne, hold⟩ := hfs f List.mem_cons_self
    have hstep : Spoiled b (fillStep Prod.fst Prod.snd t f) w := by
      unfold fillStep
      split_ifs
      · exact h
      · exact spoiled_replace hne hold h
    rw [List.foldl_cons]
    exact spoiled_foldl (fun g hg => hfs g (List.mem_cons_of_mem _ hg)) hstep

/-- **Passes turn the covered text into `w`** iff each of them fits and together they reach every covered
symbol. -/
theorem foldl_fill_eq_iff : ∀ {fs : List (List α × List α)} {t : List α},
    (∀ f ∈ fs, f.1 ≠ [] ∧ Covers b f.1 f.2) → Covers b t w →
      (fs.foldl (fillStep Prod.fst Prod.snd) t = w ↔ Reveals w fs t)
  | [], _, _, _ => Iff.rfl
  | f :: fs, t, hfs, ht => by
    obtain ⟨hne, hold⟩ := hfs f List.mem_cons_self
    have hrest : ∀ g ∈ fs, g.1 ≠ [] ∧ Covers b g.1 g.2 := fun g hg => hfs g (List.mem_cons_of_mem _ hg)
    rw [List.foldl_cons, Reveals, fillStep]
    by_cases hsame : f.1 = f.2
    · rw [if_pos hsame, if_pos hsame]
      exact foldl_fill_eq_iff hrest ht
    · rw [if_neg hsame, if_neg hsame]
      by_cases hfits : Fits f.1 f.2 t w
      · rw [replace_eq_reveal hne hold ht.1 hfits, foldl_fill_eq_iff hrest (covers_reveal ht)]
        exact (and_iff_right hfits).symm
      · constructor
        · intro heq
          have hspoiled := spoiled_foldl hrest (spoiled_of_not_fits hne hold hfits)
          rw [heq] at hspoiled
          exact absurd hspoiled (not_spoiled_self b w)
        · intro h
          exact absurd h.1 hfits

end Passes

end Cover
