import PdMasking.Detectors.Standalone
import PdMasking.Lib.GroupOrder
import PdMasking.Lib.Related
import PdMasking.Lib.Summary

/-!
# PdMasking.CaseBlind — bare values in any case (`core/detectors/standalone.py`)

Texts that differ only in the case of ASCII and Russian letters are related symbol by symbol.  A character class is
blind for this relation when it folds case, or when it has both cases of each of its letters; `bareSites_blind`
evaluates that for every pattern of the ten checks.

* `test_sameLetter`: a class that passes the evaluation does not tell the two cases of a letter apart.
* `find_stripValue`: the stripped value is found where it was stripped.
* `detect_sameButCase`: the detector reports the same for both texts.
-/

namespace PdMasking

open Regex Summary Standalone

/-! ### Texts that differ in case -/

/-- An ASCII or Russian letter. -/
def hasCase (c : Char) : Bool := c.isAlpha || isRussian c

/-- The same character, or the same letter in another case. -/
def SameLetter (c d : Char) : Prop := c = d ∨ (hasCase c = true ∧ hasCase d = true ∧ lowerBasic c = lowerBasic d)

/-- The texts differ only in the case of letters. -/
def SameButCase (text text' : Str) : Prop := List.Forall₂ SameLetter text text'

/-- An ASCII or Russian character. -/
def isBasic (c : Char) : Bool := c.toNat < 128 || isRussian c

/-- Whether a letter is in a class that does not fold case. -/
def Item.hasLetter (c : Char) : Item → Bool
  | .range a b => a ≤ c && c ≤ b
  | .word => true
  | .digit | .space => false

def letters : List Char :=
  charsBetween 'A' 'Z' ++ charsBetween 'a' 'z' ++ charsBetween 'А' 'я' ++ ['Ё', 'ё']

/-- The class has no letter in one case only. -/
def CharSet.caseBlind (s : CharSet) : Bool :=
  if s.fold then
    s.items.all (fun item => match item with
      | .range a b => (charsBetween a b).all isBasic
      | _ => true)
  else letters.all (fun c => s.items.any (Item.hasLetter c) == s.items.any (Item.hasLetter (lowerBasic c)))

/-- The patterns of the checks that see the value as it is. -/
def bareSites : List Re :=
  [fourDigitsRe, dateDmyRe, dateYmdRe, dateTextRe, cardNumberRe, phoneRe, emailRe, issuerRe, cardHolderRe,
    floatArtifactRe] ++ formats.map Prod.fst

/-- Decimal digits only. -/
def CharSet.decimal (s : CharSet) : Bool := !s.negated && s.items.all (· == .digit)

/-- The patterns, evaluated. -/
theorem bareSites_blind :
    (∀ r ∈ bareSites, r.all CharSet.caseBlind = true) ∧
      (∀ p ∈ [(dateDmyRe, 1), (dateYmdRe, 1), (dateTextRe, 2)],
        (p.1.always p.2 && (only CharSet.decimal).groupAll (fun _ => true) p.2 p.1) = true) ∧
      (only CharSet.decimal).spanAll (fun _ => true) fourDigitsRe = true ∧
      floatArtifactRe.opens 1 = true := by
  decide +kernel

/-! ### What the interpreter knows of letters -/

section Letters

variable {R : Runtime} {c d : Char}

/-- The code points of the letters. -/
theorem code_of_hasCase (h : hasCase c = true) :
    ((65 ≤ c.toNat ∧ c.toNat ≤ 90) ∨ (97 ≤ c.toNat ∧ c.toNat ≤ 122)) ∨
      ((1040 ≤ c.toNat ∧ c.toNat ≤ 1103) ∨ c.toNat = 1025 ∨ c.toNat = 1105) := by
  rcases Bool.or_eq_true_iff.mp h with h | h
  · exact Or.inl (isAlpha_iff.mp h)
  · exact Or.inr (code_of_isRussian h)

theorem basic_of_hasCase (h : hasCase c = true) : c.toNat < 128 ∨ isRussian c = true := by
  rcases Bool.or_eq_true_iff.mp h with h | h
  · have hcode := isAlpha_iff.mp h
    exact Or.inl (by omega)
  · exact Or.inr h

theorem isDigit_letter (h : c.isAlpha = true) : c.isDigit = false := by
  have hcode := isAlpha_iff.mp h
  rw [← Bool.not_eq_true, isDigit_iff]
  omega

theorem isdecimal_letter (h : hasCase c = true) : R.isdecimal c = false := by
  rcases Bool.or_eq_true_iff.mp h with h | h
  · have hcode := isAlpha_iff.mp h
    rw [R.isdecimal_ascii c (by omega), isDigit_letter h]
  · exact R.isdecimal_russian c h

theorem isdigit_letter (h : hasCase c = true) : R.isdigit c = false := by
  rcases Bool.or_eq_true_iff.mp h with h | h
  · have hcode := isAlpha_iff.mp h
    rw [R.isdigit_ascii c (by omega), isDigit_letter h]
  · exact R.isdigit_russian c h

theorem isspace_letter (h : hasCase c = true) : R.isspace c = false := by
  rcases Bool.or_eq_true_iff.mp h with h | h
  · have hcode := isAlpha_iff.mp h
    rw [R.isspace_ascii c (by omega), ← Bool.not_eq_true, spaceAscii, Bool.or_eq_true, Bool.and_eq_true,
      Bool.and_eq_true]
    simp only [decide_eq_true_eq]
    omega
  · exact R.isspace_russian c h

theorem isalnum_letter (h : hasCase c = true) : R.isalnum c = true := by
  have halpha : R.isalpha c = true := by
    rcases Bool.or_eq_true_iff.mp h with h | h
    · have hcode := isAlpha_iff.mp h
      rw [R.isalpha_ascii c (by omega), h]
    · exact R.isalpha_russian c h
  simp only [Runtime.isalnum, halpha, Bool.true_or]

/-- What is the same for all letters does not tell their cases apart. -/
theorem eq_of_sameLetter {β : Type} {f : Char → β} {b : β} (hf : ∀ c, hasCase c = true → f c = b)
    (h : SameLetter c d) : f c = f d := by
  rcases h with rfl | ⟨hc, hd, -⟩
  · rfl
  · rw [hf c hc, hf d hd]

theorem casefold_sameLetter (h : SameLetter c d) : R.casefold c = R.casefold d := by
  rcases h with rfl | ⟨hc, hd, hlower⟩
  · rfl
  · rw [R.casefold_basic c (basic_of_hasCase hc), R.casefold_basic d (basic_of_hasCase hd), hlower]

end Letters

/-! ### Classes -/

section Classes

variable {R : Runtime} {c d : Char} {s : CharSet}

theorem mem_charsBetween_of_le {a b : Char} (h1 : a ≤ c) (h2 : c ≤ b) : c ∈ charsBetween a b := by
  have h1 : a.toNat ≤ c.toNat := h1
  have h2 : c.toNat ≤ b.toNat := h2
  refine List.mem_map.mpr ⟨c.toNat, ?_, Char.ofNat_toNat c⟩
  rw [List.mem_range'_1]
  omega

theorem mem_letters (h : hasCase c = true) : c ∈ letters := by
  have hbetween : ∀ {a b : Char}, a.toNat ≤ c.toNat → c.toNat ≤ b.toNat → c ∈ charsBetween a b :=
    fun h1 h2 => mem_charsBetween_of_le h1 h2
  simp only [letters, List.mem_append, or_assoc]
  rcases code_of_hasCase h with (⟨h1, h2⟩ | ⟨h1, h2⟩) | ⟨h1, h2⟩ | h | h
  · exact Or.inl (hbetween h1 h2)
  · exact Or.inr (Or.inl (hbetween h1 h2))
  · exact Or.inr (Or.inr (Or.inl (hbetween h1 h2)))
  · obtain rfl : c = 'Ё' := Char.toNat_inj.mp h
    exact Or.inr (Or.inr (Or.inr (by decide)))
  · obtain rfl : c = 'ё' := Char.toNat_inj.mp h
    exact Or.inr (Or.inr (Or.inr (by decide)))

theorem any_congr_mem {α : Type} {l : List α} {p q : α → Bool} (h : ∀ a ∈ l, p a = q a) : l.any p = l.any q := by
  induction l with
  | nil => rfl
  | cons a l ih =>
    rw [List.any_cons, List.any_cons, h a List.mem_cons_self, ih (fun b hb => h b (List.mem_cons_of_mem a hb))]

/-- A letter in a member of a class that does not fold case. -/
theorem test_letter (hc : hasCase c = true) (item : Item) : item.test R false c = item.hasLetter c := by
  cases item with
  | range a b => simp only [Item.test, Item.hasLetter, Bool.false_and, Bool.or_false]
  | digit => exact isdecimal_letter hc
  | word => simp only [Item.test, Item.hasLetter, isalnum_letter hc, Bool.true_or]
  | space => exact isspace_letter hc

/-- A letter in a member of a class that folds case: the letter in lower case decides. -/
theorem test_letter_fold (hc : hasCase c = true) (hd : hasCase d = true) (hlower : lowerBasic c = lowerBasic d)
    {item : Item} (hitem : ∀ a b, item = .range a b → (charsBetween a b).all isBasic = true) :
    item.test R true c = item.test R true d := by
  cases item with
  | digit => exact (isdecimal_letter hc).trans (isdecimal_letter hd).symm
  | word => simp only [Item.test, isalnum_letter hc, isalnum_letter hd, Bool.true_or]
  | space => exact (isspace_letter hc).trans (isspace_letter hd).symm
  | range a b =>
    have hbasic := List.all_eq_true.mp (hitem a b rfl)
    have hrange : ∀ {x : Char}, hasCase x = true →
        Item.test R true (.range a b) x = (charsBetween a b).any (fun y => lowerBasic y == lowerBasic x) := by
      intro x hx
      have hfold : (charsBetween a b).any (fun y => R.ignoreCase y x) =
          (charsBetween a b).any (fun y => lowerBasic y == lowerBasic x) := by
        refine any_congr_mem ?_
        intro y hy
        have hy := hbasic y hy
        simp only [isBasic, Bool.or_eq_true, decide_eq_true_eq] at hy
        exact R.ignoreCase_basic y x hy (basic_of_hasCase hx)
      rw [Item.test, Bool.true_and, hfold, Bool.or_eq_right_iff_imp]
      intro hin
      -- a letter in the range is like itself
      rw [Bool.and_eq_true, decide_eq_true_eq, decide_eq_true_eq] at hin
      exact List.any_eq_true.mpr ⟨x, mem_charsBetween_of_le hin.1 hin.2, beq_self_eq_true _⟩
    rw [hrange hc, hrange hd, hlower]

/-- **A blind class does not tell the cases of a letter apart.** -/
theorem test_sameLetter (hs : s.caseBlind = true) (h : SameLetter c d) : s.test R c = s.test R d := by
  rcases h with rfl | ⟨hc, hd, hlower⟩
  · rfl
  · have hany : s.items.any (fun item => item.test R s.fold c) = s.items.any (fun item => item.test R s.fold d) := by
      unfold CharSet.caseBlind at hs
      split_ifs at hs with hfold
      · refine any_congr_mem ?_
        intro item hitem
        rw [hfold]
        refine test_letter_fold hc hd hlower ?_
        rintro a b rfl
        exact List.all_eq_true.mp hs _ hitem
      · have hsame := List.all_eq_true.mp hs
        rw [Bool.eq_false_iff.mpr hfold]
        simp only [test_letter hc, test_letter hd]
        rw [beq_iff_eq.mp (hsame c (mem_letters hc)), beq_iff_eq.mp (hsame d (mem_letters hd)), hlower]
    rw [CharSet.test, CharSet.test, hany]

end Classes

/-! ### Strings -/

namespace SameButCase

variable {R : Runtime} {text text' : Str}

theorem dropWhile {p : Char → Bool} (hp : ∀ c d, SameLetter c d → p c = p d) :
    ∀ {text text' : Str}, SameButCase text text' → SameButCase (text.dropWhile p) (text'.dropWhile p)
  | [], [], .nil => List.Forall₂.nil
  | c :: text, d :: text', .cons hcd h => by
    rw [List.dropWhile_cons, List.dropWhile_cons, hp c d hcd]
    split_ifs
    · exact dropWhile hp h
    · exact List.Forall₂.cons hcd h

theorem rstrip {p : Char → Bool} (hp : ∀ c d, SameLetter c d → p c = p d) (h : SameButCase text text') :
    SameButCase (rstrip text p) (rstrip text' p) :=
  List.rel_reverse (dropWhile hp (List.rel_reverse h))

theorem strip (R : Runtime) (h : SameButCase text text') : SameButCase (strip R text) (strip R text') := by
  have hspace : ∀ c d, SameLetter c d → R.isspace c = R.isspace d :=
    fun _ _ hcd => eq_of_sameLetter (fun _ => isspace_letter) hcd
  exact (h.dropWhile hspace).rstrip hspace

theorem slice (h : SameButCase text text') (a b : ℕ) : SameButCase (slice text a b) (slice text' a b) :=
  List.forall₂_take _ (List.forall₂_drop a h)

theorem casefold_eq (R : Runtime) (h : SameButCase text text') : casefold R text = casefold R text' := by
  induction h with
  | nil => rfl
  | cons hcd _ ih =>
    unfold casefold at ih ⊢
    rw [List.flatMap_cons, List.flatMap_cons, casefold_sameLetter hcd, ih]

theorem digitsOnly_length (R : Runtime) (h : SameButCase text text') :
    (digitsOnly R text).length = (digitsOnly R text').length := by
  refine List.Forall₂.length_eq (List.rel_filter ?_ h)
  intro c d hcd
  have hdigit : R.isdigit c = R.isdigit d := eq_of_sameLetter (fun _ => isdigit_letter) hcd
  show R.isdigit c = true ↔ R.isdigit d = true
  rw [hdigit]

theorem mem_iff {c : Char} (hc : hasCase c = false) (h : SameButCase text text') : c ∈ text ↔ c ∈ text' := by
  induction h with
  | nil => rfl
  | @cons a b u v hab _ ih =>
    have hhead : c = a ↔ c = b := by
      rcases hab with rfl | ⟨ha, hb, -⟩
      · rfl
      · refine iff_of_false ?_ ?_
        · rintro rfl
          rw [ha] at hc
          cases hc
        · rintro rfl
          rw [hb] at hc
          cases hc
    rw [List.mem_cons, List.mem_cons, hhead, ih]

/-- Texts without letters are equal. -/
theorem eq_of_decimals (R : Runtime) (h : SameButCase text text') :
    (∀ c ∈ text, R.isdecimal c = true) → text = text' := by
  induction h with
  | nil => exact fun _ => rfl
  | @cons a b u v hab _ ih =>
    intro hall
    rw [ih (fun c hc => hall c (List.mem_cons_of_mem a hc))]
    rcases hab with rfl | ⟨ha, -, -⟩
    · rfl
    · have hdecimal := hall a List.mem_cons_self
      rw [isdecimal_letter ha] at hdecimal
      cases hdecimal

end SameButCase

/-! ### Matches of the whole value -/

section Matches

variable {R : Runtime} {value value' : Str} {r : Re}

/-- **The patterns of the checks do not see the case.** -/
theorem fullmatch_sameButCase (hr : r ∈ bareSites) (h : SameButCase value value') :
    (r.rx R).fullmatch value = (r.rx R).fullmatch value' := by
  have hall := bareSites_blind.1 r hr
  have hblind : (r.rx R).Blind SameLetter := by
    refine Pattern.blind_compile ?_ r hall
    intro s hs c d hcd
    exact test_sameLetter hs hcd
  exact fullmatch_related hblind h

theorem isFull_sameButCase (hr : r ∈ bareSites) (h : SameButCase value value') :
    isFull R r value = isFull R r value' := by
  rw [isFull, isFull, fullmatch_sameButCase hr h]

theorem isdecimal_of_test {s : CharSet} {c : Char} (hs : s.decimal = true) (hc : s.test R c = true) :
    R.isdecimal c = true := by
  obtain ⟨hnegated, hitems⟩ := Bool.and_eq_true_iff.mp hs
  rw [Bool.not_eq_true'] at hnegated
  rw [CharSet.test, hnegated, Bool.bne_false] at hc
  obtain ⟨item, hitem, htest⟩ := List.any_eq_true.mp hc
  rw [beq_iff_eq.mp (List.all_eq_true.mp hitems item hitem)] at htest
  exact htest

/-- The year of a date is a number in both texts. -/
theorem year_eq {g : ℕ} (hr : (r, g) ∈ [(dateDmyRe, 1), (dateYmdRe, 1), (dateTextRe, 2)]) {m : Match}
    (hm : (r.rx R).fullmatch value = some m) (h : SameButCase value value') :
    groupText value g m = groupText value' g m := by
  have hall := bareSites_blind.2.1 (r, g) hr
  refine (h.slice _ _).eq_of_decimals R ?_
  exact group_only (fun s c hs hc => isdecimal_of_test hs hc) hall (fullmatch_found hm).1

end Matches

/-! ### The checks -/

section Checks

variable {R : Runtime} {value value' : Str}

theorem mem_bareSites {r : Re} (h : r ∈ formats.map Prod.fst) : r ∈ bareSites := List.mem_append_right _ h

/-- A PIN code is the same in both texts. -/
theorem checkPin_sameButCase (h : SameButCase value value') : checkPin R value = checkPin R value' := by
  have hfull : isFull R fourDigitsRe value = isFull R fourDigitsRe value' :=
    isFull_sameButCase (by simp [bareSites]) h
  unfold checkPin
  rw [← hfull]
  by_cases hpin : isFull R fourDigitsRe value = true
  · obtain ⟨m, hm⟩ := Option.isSome_iff_exists.mp hpin
    obtain ⟨hfound, hspan⟩ := fullmatch_found hm
    have hall := bareSites_blind.2.2.1
    obtain ⟨-, -, -, -, hdigits⟩ :=
      span_segment (only_sound (fun s c hs hc => isdecimal_of_test (R := R) hs hc)) hall hfound
    obtain ⟨hstart, hstop⟩ := Prod.mk.inj hspan
    rw [hstart, hstop, List.drop_zero, Nat.sub_zero, List.take_length] at hdigits
    rw [h.eq_of_decimals R hdigits]
  · rw [if_neg hpin, if_neg hpin]

theorem checkFormats_sameButCase (h : SameButCase value value') : checkFormats R value = checkFormats R value' := by
  have hfind : ∀ {fs : List (Re × PDType)}, (∀ f ∈ fs, f.1 ∈ bareSites) →
      fs.find? (fun f => isFull R f.1 value) = fs.find? (fun f => isFull R f.1 value') := by
    intro fs hfs
    induction fs with
    | nil => rfl
    | cons f fs ih =>
      rw [List.find?_cons, List.find?_cons, isFull_sameButCase (hfs f List.mem_cons_self) h,
        ih (fun g hg => hfs g (List.mem_cons_of_mem f hg))]
  unfold checkFormats
  rw [hfind (fun f hf => mem_bareSites (List.mem_map_of_mem hf))]

theorem classifyDate_sameButCase (h : SameButCase value value') : classifyDate R value = classifyDate R value' := by
  have hdmy := fullmatch_sameButCase (R := R) (r := dateDmyRe) (by simp [bareSites]) h
  have hymd := fullmatch_sameButCase (R := R) (r := dateYmdRe) (by simp [bareSites]) h
  have htext := fullmatch_sameButCase (R := R) (r := dateTextRe) (by simp [bareSites]) h
  unfold classifyDate
  rw [← hdmy, ← hymd, ← htext]
  split
  · rename_i m hm
    rw [year_eq (g := 1) (by simp) hm h]
  · split
    · rename_i m hm
      rw [year_eq (g := 1) (by simp) hm h]
    · split
      · rename_i m hm
        rw [year_eq (g := 2) (by simp) hm h]
      · rfl

theorem classifySingleWord_sameButCase (h : SameButCase value value') :
    classifySingleWord R value = classifySingleWord R value' := by
  unfold classifySingleWord
  rw [h.casefold_eq R]

/-- **Every check says the same** of both values. -/
theorem check_sameButCase (h : SameButCase value value') : ∀ check ∈ checks R, check value = check value' := by
  have hspace : hasCase ' ' = false := by decide
  simp only [checks, List.forall_mem_cons]
  refine ⟨checkPin_sameButCase h, checkFormats_sameButCase h, ?_, ?_, ?_, ?_, ?_, ?_, ?_, ?_, nofun⟩
  · rw [checkDate, checkDate, classifyDate_sameButCase h]
  · rw [checkCardNumber, checkCardNumber, isFull_sameButCase (by simp [bareSites]) h, h.digitsOnly_length R]
  · rw [checkPhone, checkPhone, isFull_sameButCase (by simp [bareSites]) h]
  · rw [checkEmail, checkEmail, isFull_sameButCase (by simp [bareSites]) h]
  · rw [checkIssuer, checkIssuer, isFull_sameButCase (by simp [bareSites]) h]
  · rw [checkCardHolder, checkCardHolder, isFull_sameButCase (by simp [bareSites]) h, h.casefold_eq R]
  · rw [checkCitizenship, checkCitizenship, h.casefold_eq R]
  · rw [checkSingleWord, checkSingleWord, classifySingleWord_sameButCase h]
    simp only [h.mem_iff hspace]

/-- The first check that decides is the same one. -/
theorem classifyBy_congr : ∀ {checks : List (Str → Verdict)}, (∀ check ∈ checks, check value = check value') →
    classifyBy value checks = classifyBy value' checks
  | [], _ => rfl
  | check :: checks, hchecks => by
    rw [classifyBy, classifyBy, hchecks check List.mem_cons_self,
      classifyBy_congr (fun c hc => hchecks c (List.mem_cons_of_mem check hc))]

end Checks

/-! ### The stripped value -/

section Stripped

variable {R : Runtime} {text text' : Str}

theorem among_sameLetter {c d : Char} (h : SameLetter c d) : among ".,;!" c = among ".,;!" d := by
  refine eq_of_sameLetter (b := false) ?_ h
  intro c hc
  rw [← Bool.not_eq_true, among, decide_eq_true_eq]
  intro hmem
  have hmarks : ".,;!".toList.all (fun c => !hasCase c) = true := by decide
  have hnot := List.all_eq_true.mp hmarks c hmem
  rw [hc] at hnot
  cases hnot

theorem stripValue_sameButCase (R : Runtime) (h : SameButCase text text') :
    SameButCase (stripValue R text) (stripValue R text') := by
  have hstrip := h.strip R
  have hfull := fullmatch_sameButCase (R := R) (r := floatArtifactRe) (by simp [bareSites]) hstrip
  unfold stripValue
  dsimp only
  rw [← hfull]
  split
  · exact hstrip.slice _ _
  · exact hstrip.rstrip (fun c d hcd => among_sameLetter hcd)

/-- The value is where the spaces before it end. -/
theorem stripValue_isPrefix (R : Runtime) (text : Str) : stripValue R text <+: text.dropWhile R.isspace := by
  have hstrip : strip R text <+: text.dropWhile R.isspace := rstrip_isPrefix _ _
  refine List.IsPrefix.trans ?_ hstrip
  unfold stripValue
  dsimp only
  split
  · rename_i artifact hartifact
    obtain ⟨hfound, hspan⟩ := fullmatch_found hartifact
    have hstart : (artifact.groupSpan 1).1 = 0 :=
      (Pattern.start_of_opens bareSites_blind.2.2.2 hfound).trans (Prod.mk.inj hspan).1
    rw [groupText, hstart]
    exact List.take_prefix _ _
  · exact rstrip_isPrefix _ _

/-- A value whose first character is new is found where it stands first. -/
theorem find_append {u w rest : Str} {a : Char} (ha : a ∉ u) :
    find (u ++ (a :: w ++ rest)) (a :: w) = some u.length := by
  have hne : a :: w ≠ [] := List.cons_ne_nil a w
  have hbehind : ∀ i ∈ TextSearch.hits (a :: w) (u ++ (a :: w ++ rest)), u.length ≤ i := by
    intro i hi
    by_contra hlt
    have hlt : i < u.length := Nat.lt_of_not_le hlt
    have hat := TextSearch.prefix_drop_of_mem_hits hne hi
    rw [List.drop_append_of_le_length hlt.le, List.drop_eq_getElem_cons hlt, List.cons_append,
      List.cons_prefix_cons] at hat
    exact ha (hat.1 ▸ List.getElem_mem hlt)
  rw [find, TextSearch.hits_append hbehind, TextSearch.hits_self_append hne, List.map_cons, List.head?_cons,
    Nat.zero_add]

/-- **The value is found where it was stripped.** -/
theorem find_stripValue (hne : stripValue R text ≠ []) :
    find text (stripValue R text) = some (text.takeWhile R.isspace).length := by
  obtain ⟨rest, hrest⟩ := stripValue_isPrefix R text
  obtain ⟨a, w, hvalue⟩ := List.exists_cons_of_ne_nil hne
  rw [hvalue] at hrest ⊢
  -- the value does not begin with a space
  have ha : a ∉ text.takeWhile R.isspace := by
    intro hmem
    have hhead := List.head?_dropWhile_not R.isspace text
    rw [← hrest] at hhead
    have hspace : R.isspace a = false := hhead
    rw [List.mem_takeWhile_imp hmem] at hspace
    cases hspace
  have hfind : find (text.takeWhile R.isspace ++ (a :: w ++ rest)) (a :: w) =
      some (text.takeWhile R.isspace).length := find_append ha
  rwa [hrest, List.takeWhile_append_dropWhile] at hfind

theorem takeWhile_length (R : Runtime) (h : SameButCase text text') :
    (text.takeWhile R.isspace).length = (text'.takeWhile R.isspace).length := by
  induction h with
  | nil => rfl
  | @cons c d u v hcd _ ih =>
    have hspace : R.isspace c = R.isspace d := eq_of_sameLetter (fun _ => isspace_letter) hcd
    rw [List.takeWhile_cons, List.takeWhile_cons, hspace]
    split_ifs
    · rw [List.length_cons, List.length_cons, ih]
    · rfl

end Stripped

/-- **Bare values are recognised in any case**: the detector reports the same type and the same span, or nothing on
both texts. -/
theorem detect_sameButCase (R : Runtime) (text text' : Str) (h : SameButCase text text') :
    (StandaloneValueDetector R).detect text = (StandaloneValueDetector R).detect text' := by
  have hvalue := stripValue_sameButCase R h
  have hlength : (stripValue R text).length = (stripValue R text').length := hvalue.length_eq
  have hclassify : classify R (stripValue R text) = classify R (stripValue R text') :=
    classifyBy_congr (check_sameButCase hvalue)
  simp only [StandaloneValueDetector]
  by_cases hnil : stripValue R text = []
  · have hnil' : stripValue R text' = [] := List.length_eq_zero_iff.mp (by rw [← hlength, hnil, List.length_nil])
    rw [if_pos hnil, if_pos hnil']
  · have hnil' : stripValue R text' ≠ [] := by
      intro hnil'
      rw [hnil', List.length_nil] at hlength
      exact hnil (List.length_eq_zero_iff.mp hlength)
    rw [if_neg hnil, if_neg hnil', find_stripValue hnil, find_stripValue hnil', takeWhile_length R h, hclassify,
      hlength]

/-- A surname in capital letters. -/
theorem detect_sameButCase_surname :
    (StandaloneValueDetector Runtime.basic).detect ['И', 'в', 'а', 'н', 'о', 'в'] =
      (StandaloneValueDetector Runtime.basic).detect ['И', 'В', 'А', 'Н', 'О', 'В'] := by
  refine detect_sameButCase Runtime.basic _ _ ?_
  refine .cons (Or.inl rfl) (.cons (Or.inr ?_) (.cons (Or.inr ?_) (.cons (Or.inr ?_) (.cons (Or.inr ?_)
    (.cons (Or.inr ?_) .nil))))) <;> decide

end PdMasking
