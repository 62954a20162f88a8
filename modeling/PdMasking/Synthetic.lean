import PdMasking.Alignment

/-!
# PdMasking.Synthetic — what a synthetic mask keeps of the format

The loop of `_synthetic` runs over the hull of an entity and does not look at its parts.  Inside the parts it keeps
the class of every character; between them it overwrites the service words that `_chars` leaves as they are.

* `getElem?_synthChars`: the loop, position by position.
* `synthetic_format_iff`: when the mask touches only the parts.
-/

namespace PdMasking

variable {R : Runtime} {K : Masker} {text : Str}

/-- A digit for a digit, a letter of the same case for a letter, the same character otherwise. -/
structure SameClass (R : Runtime) (c d : Char) : Prop where
  digit : R.isdigit c = true → R.isdigit d = true
  letter : R.isdigit c = false → R.isalpha c = true → R.isalpha d = true ∧ R.isupper d = R.isupper c ∧
    (R.isupper c = false → R.islower d = true)
  other : R.isdigit c = false → R.isalpha c = false → d = c

/-- The position belongs to a part. -/
def InPart (e : Entity) (i : ℕ) : Prop := ∃ p ∈ e.parts, p.1 ≤ i ∧ i < p.2

/-- The mask is as long as the hull, the same between the parts and of the same format inside them. -/
structure KeepsFormat (R : Runtime) (text : Str) (e : Entity) (mask : Str) : Prop where
  length_eq : mask.length = e.stop - e.start
  between : ∀ i, e.start ≤ i → i < e.stop → ¬ InPart e i → mask[i - e.start]? = text[i]?
  inside : ∀ (i : ℕ) (c : Char), i < e.stop → InPart e i → text[i]? = some c →
    ∃ d, mask[i - e.start]? = some d ∧ SameClass R c d

/-- What the loop of `_synthetic` puts for the character `ch` at position `idx` of the hull. -/
def synthChar (R : Runtime) (digest : Str) (idx : ℕ) (ch : Char) : Char :=
  if R.isdigit ch then decimalDigit (hexDigit (digest.getD (idx % digest.length) '0') % 10)
  else if R.isalpha ch then (if R.isupper ch then 'X' else 'x')
  else ch

/-- Between the parts stand no digits but those of the digest and no letters but `X` and `x`. -/
def GapsSpared (R : Runtime) (K : Masker) (text : Str) (e : Entity) : Prop :=
  ∀ (i : ℕ) (c : Char), e.start ≤ i → i < e.stop → ¬ InPart e i → text[i]? = some c →
    (R.isdigit c = true → c = decimalDigit (hexDigit ((K.digest e.pdType (slice text e.start e.stop)).getD
      ((i - e.start) % (K.digest e.pdType (slice text e.start e.stop)).length) '0') % 10)) ∧
    (R.isdigit c = false → R.isalpha c = true → c = if R.isupper c then 'X' else 'x')

/-! ### One character -/

section Characters

theorem isDigit_decimalDigit (n : ℕ) : (decimalDigit (n % 10)).isDigit = true := by
  have hlt : n % 10 < 10 := Nat.mod_lt n (by decide)
  have hall : ∀ k < 10, (decimalDigit k).isDigit = true := by decide
  exact hall _ hlt

theorem toNat_lt_of_isDigit {c : Char} (h : c.isDigit = true) : c.toNat < 128 := by
  have hcode := isDigit_iff.mp h
  omega

/-- The loop keeps the class of a character. -/
theorem sameClass_synthChar (digest : Str) (idx : ℕ) (c : Char) : SameClass R c (synthChar R digest idx c) := by
  unfold synthChar
  refine ⟨?_, ?_, ?_⟩
  · intro hdigit
    rw [if_pos hdigit]
    have h := isDigit_decimalDigit (hexDigit (digest.getD (idx % digest.length) '0'))
    rw [R.isdigit_ascii _ (toNat_lt_of_isDigit h)]
    exact h
  · intro hdigit halpha
    rw [if_neg (Bool.eq_false_iff.mp hdigit), if_pos halpha]
    by_cases hupper : R.isupper c = true
    · rw [if_pos hupper, R.isalpha_ascii 'X' (by decide), R.isupper_basic 'X' (Or.inl (by decide)), hupper]
      exact ⟨rfl, rfl, fun h => absurd h (by decide)⟩
    · rw [if_neg hupper, R.isalpha_ascii 'x' (by decide), R.isupper_basic 'x' (Or.inl (by decide)),
        R.islower_basic 'x' (Or.inl (by decide)), Bool.eq_false_iff.mpr hupper]
      exact ⟨rfl, rfl, fun _ => rfl⟩
  · intro hdigit halpha
    rw [if_neg (Bool.eq_false_iff.mp hdigit), if_neg (Bool.eq_false_iff.mp halpha)]

/-- When the loop leaves a character as it is. -/
theorem synthChar_eq_iff {digest : Str} {idx : ℕ} {c : Char} : synthChar R digest idx c = c ↔
    (R.isdigit c = true → c = decimalDigit (hexDigit (digest.getD (idx % digest.length) '0') % 10)) ∧
      (R.isdigit c = false → R.isalpha c = true → c = if R.isupper c then 'X' else 'x') := by
  unfold synthChar
  by_cases hdigit : R.isdigit c = true
  · rw [if_pos hdigit]
    simp only [hdigit, forall_const, Bool.true_eq_false, false_implies, and_true]
    exact eq_comm
  · rw [if_neg hdigit]
    have hdigit' := Bool.eq_false_iff.mpr hdigit
    by_cases halpha : R.isalpha c = true
    · rw [if_pos halpha]
      simp only [hdigit', halpha, forall_const, Bool.false_eq_true, false_implies, true_and]
      exact eq_comm
    · rw [if_neg halpha]
      simp only [hdigit', halpha, Bool.false_eq_true, false_implies, implies_true, and_self]

theorem getElem?_synthChars (digest : Str) : ∀ (span : Str) (idx i : ℕ),
    (Masker.synthChars R digest idx span)[i]? = span[i]?.map (synthChar R digest (idx + i))
  | [], idx, i => by simp [Masker.synthChars]
  | c :: span, idx, 0 => by
    rw [Masker.synthChars, List.getElem?_cons_zero, List.getElem?_cons_zero]
    rfl
  | c :: span, idx, i + 1 => by
    rw [Masker.synthChars, List.getElem?_cons_succ, List.getElem?_cons_succ, getElem?_synthChars digest span,
      show idx + 1 + i = idx + (i + 1) by omega]

end Characters

/-! ### The mask of an entity -/

section Mask

/-- The mask, position by position. -/
theorem getElem?_synth {e : Entity} (htype : e.pdType ≠ .fio ∧ e.pdType ≠ .cardHolder ∧ e.pdType ≠ .email) {i : ℕ}
    (hstart : e.start ≤ i) (hi : i < e.stop) :
    (K.synth R e (slice text e.start e.stop))[i - e.start]? =
      text[i]?.map (synthChar R (K.digest e.pdType (slice text e.start e.stop)) (i - e.start)) := by
  have hsynth : K.synth R e (slice text e.start e.stop) =
      Masker.synthChars R (K.digest e.pdType (slice text e.start e.stop)) 0 (slice text e.start e.stop) := by
    unfold Masker.synth
    dsimp only
    rw [if_neg (not_or.mpr ⟨htype.1, htype.2.1⟩), if_neg htype.2.2]
  rw [hsynth, getElem?_synthChars, getElem?_slice (by omega), Nat.zero_add, Nat.add_sub_cancel' hstart]

/-- **When a synthetic mask touches only the parts.**  It has the length of the hull and keeps the class of every
character inside the parts; it is the same as the text between them exactly when there is nothing to overwrite. -/
theorem synthetic_format_iff (R : Runtime) (K : Masker) (text : Str) (e : Entity) (rule : MaskRule)
    (hrule : rule.strategy = .synthetic)
    (htype : e.pdType ≠ .fio ∧ e.pdType ≠ .cardHolder ∧ e.pdType ≠ .email) (hstop : e.stop ≤ text.length) :
    ∃ mask, Masker.apply R K text e rule = .ok mask ∧
      (KeepsFormat R text e mask ↔ GapsSpared R K text e) := by
  refine ⟨K.synth R e (slice text e.start e.stop), ?_, ?_, ?_⟩
  · unfold Masker.apply
    rw [hrule]
  · intro hformat i c hstart hi hpart hc
    have hmask := hformat.between i hstart hi hpart
    rw [getElem?_synth htype hstart hi, hc, Option.map_some, Option.some.injEq] at hmask
    exact synthChar_eq_iff.mp hmask
  · intro hspared
    refine ⟨?_, ?_, ?_⟩
    · unfold Masker.synth
      dsimp only
      rw [if_neg (not_or.mpr ⟨htype.1, htype.2.1⟩), if_neg htype.2.2, length_synthChars, length_slice hstop]
    · intro i hstart hi hpart
      have hlt : i < text.length := by omega
      have hc : text[i]? = some text[i] := List.getElem?_eq_getElem hlt
      rw [getElem?_synth htype hstart hi, hc, Option.map_some, Option.some.injEq]
      exact synthChar_eq_iff.mpr (hspared i text[i] hstart hi hpart hc)
    · intro i c hi hpart hc
      obtain ⟨p, hp, h1, -⟩ := hpart
      have hstart := e.start_le_part hp
      refine ⟨_, ?_, sameClass_synthChar (K.digest e.pdType (slice text e.start e.stop)) (i - e.start) c⟩
      rw [getElem?_synth htype (hstart.trans h1) hi, hc, Option.map_some]

/-- Only a blank between series and number. -/
def plainPassportText : Str := "4509 123456".toList

def plainPassport : Entity := ⟨.passport, [(0, 4), (5, 11)], 60, ∅, by decide, by decide, by decide⟩

theorem synthetic_format_iff_plainPassport :
    ∃ mask, Masker.apply Runtime.basic sample.masker plainPassportText plainPassport
        ⟨.synthetic, 0, 0, '*'⟩ = .ok mask ∧
      GapsSpared Runtime.basic sample.masker plainPassportText plainPassport ∧
      KeepsFormat Runtime.basic plainPassportText plainPassport mask := by
  obtain ⟨mask, hmask, hiff⟩ := synthetic_format_iff Runtime.basic sample.masker plainPassportText plainPassport
    ⟨.synthetic, 0, 0, '*'⟩ rfl (by decide) (by decide)
  have hspared : GapsSpared Runtime.basic sample.masker plainPassportText plainPassport := by
    intro i c _ hi hpart hc
    -- the blank is the only position outside the parts
    have hblank : i = 4 := by
      by_contra hne
      have hlt : i < 11 := hi
      by_cases hfour : i < 4
      · exact hpart ⟨(0, 4), List.mem_cons_self, Nat.zero_le i, hfour⟩
      · exact hpart ⟨(5, 11), List.mem_cons_of_mem _ (List.mem_singleton_self _), by omega, hlt⟩
    subst hblank
    have hchar : plainPassportText[4]? = some ' ' := rfl
    obtain rfl := Option.some.inj (hchar.symm.trans hc)
    exact ⟨fun h => absurd h (by decide), fun _ h => absurd h (by decide)⟩
  exact ⟨mask, hmask, hspared, hiff.mpr hspared⟩

/-- The service word between the parts is overwritten. -/
theorem service_word_overwritten :
    ¬ ∀ (R : Runtime) (K : Masker) (text : Str) (e : Entity) (rule : MaskRule), rule.strategy = .synthetic →
      e.pdType ≠ .fio ∧ e.pdType ≠ .cardHolder ∧ e.pdType ≠ .email → e.stop ≤ text.length →
      ∃ mask, Masker.apply R K text e rule = .ok mask ∧ KeepsFormat R text e mask := by
  intro hall
  obtain ⟨mask, hmask, hformat⟩ := hall Runtime.basic sample.masker passportText samplePassport
    ⟨.synthetic, 0, 0, '*'⟩ rfl (by decide) (by decide)
  have hword : ¬ InPart samplePassport 5 := by
    rintro ⟨p, hp, h1, h2⟩
    simp only [samplePassport, List.mem_cons, List.not_mem_nil, or_false] at hp
    rcases hp with rfl | rfl
    · omega
    · omega
  have hkeep := hformat.between 5 (by decide) (by decide) hword
  have happly : Masker.apply Runtime.basic sample.masker passportText samplePassport
      ⟨.synthetic, 0, 0, '*'⟩ =
      .ok (sample.masker.synth Runtime.basic samplePassport passportText) := rfl
  obtain rfl := Except.ok.inj (hmask.symm.trans happly)
  have hx : (sample.masker.synth Runtime.basic samplePassport passportText)[5]? = some 'x' := rfl
  have hn : passportText[5]? = some 'н' := rfl
  have hstart : samplePassport.start = 0 := rfl
  rw [hstart, hx, hn, Option.some.injEq] at hkeep
  exact absurd hkeep (by decide)

end Mask

end PdMasking
