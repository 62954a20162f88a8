import Mathlib.Data.List.GetD
import PdMasking.Luhn

/-!
# PdMasking.CheckDigits — the check digits of INN and SNILS (`core/detectors/base.py`, `scripts/format_matrix.py`)

`inn_valid` and `snils_valid` weigh the digits and take the remainder twice, modulo 11 and 10 or modulo 101 and 100; so
the remainders 10 and 0, or 100 and 0, look alike.

* `innChecksum_eq`, `snilsValid_iff`: the sums as weighted ones.
* `not_both_same`, `same_check_iff`: what the remainders do not tell apart.
* `inn_detects`: a person's INN has two check digits, which no wrong digit deceives together.
* `snils_detects`: a SNILS has one check number, and one step of its sum passes it.
-/

namespace PdMasking

open CheckDigit

/-! ### The functions of the scripts -/

section Scripts

variable (R : Runtime)

/-- `_inn_digit` -/
def innDigit (digits : Str) (coeffs : List ℕ) : Except PyExc Char := do
  let values ← digits.mapM (charInt R)
  if values.length ≠ coeffs.length then throw .valueError
  return decimalDigit ((List.zipWith (· * ·) values coeffs).sum % 11 % 10)

/-- `make_inn` -/
def makeInn (base : Str := "5001007322".toList) : Except PyExc Str := do
  let n11 ← innDigit R base [7, 2, 4, 10, 3, 5, 9, 4, 6, 8]
  let n12 ← innDigit R (base ++ [n11]) [3, 7, 2, 4, 10, 3, 5, 9, 4, 6, 8]
  return base ++ [n11] ++ [n12]

end Scripts

/-! ### Digits -/

section Digits

variable {R : Runtime} {c d : Char}

theorem digitValue_lt (hc : c.isDigit = true) : R.digitValue c < 10 := by
  have hcode := isDigit_iff.mp hc
  rw [R.digitValue_ascii c hc]
  show c.toNat - 48 < 10
  omega

theorem digitValue_inj (hc : c.isDigit = true) (hd : d.isDigit = true) (h : R.digitValue c = R.digitValue d) :
    c = d := by
  have hcode := isDigit_iff.mp hc
  have hcode' := isDigit_iff.mp hd
  rw [R.digitValue_ascii c hc, R.digitValue_ascii d hd] at h
  refine Char.toNat_inj.mp ?_
  have hzero : '0'.toNat = 48 := rfl
  omega

theorem digitValue_decimalDigit {k : ℕ} (hk : k < 10) : R.digitValue (decimalDigit k) = k := by
  have hcode : (decimalDigit k).toNat = '0'.toNat + k := toNat_ofNat (by show 48 + k < 0xd800; omega)
  rw [R.digitValue_ascii _ (isDigit_of_lt_ten hk), hcode]
  exact Nat.add_sub_cancel_left _ _

theorem charInt_digit (hc : c.isDigit = true) : charInt R c = .ok (R.digitValue c) :=
  if_pos ((R.isdecimal_ascii c (toNat_lt_of_isDigit hc)).trans hc)

end Digits

/-! ### Weighted sums -/

section Sums

variable (R : Runtime)

/-- What the digit at a place adds to a checksum with these coefficients. -/
def innWeight (coeffs : List ℕ) (i : ℕ) (c : Char) : ℕ := R.digitValue c * coeffs.getD i 0

theorem zipWith_sum (coeffs : List ℕ) (digits : Str) (i : ℕ) :
    (List.zipWith (fun d c => R.digitValue d * c) digits (coeffs.drop i)).sum =
      total (innWeight R coeffs) i digits := by
  induction digits generalizing i with
  | nil => simp
  | cons c digits ih =>
    rw [total_cons, ← ih (i + 1)]
    by_cases hi : i < coeffs.length
    · rw [List.drop_eq_getElem_cons hi, List.zipWith_cons_cons, List.sum_cons]
      simp only [innWeight, List.getD_eq_getElem _ _ hi]
    · have hnil : coeffs.drop i = [] := List.drop_eq_nil_of_le (not_lt.mp hi)
      have hnil' : coeffs.drop (i + 1) = [] := List.drop_eq_nil_of_le (by omega)
      simp only [hnil, hnil', List.zipWith_nil_right, List.sum_nil, innWeight, List.getD_eq_default _ _ (not_lt.mp hi),
        Nat.mul_zero, Nat.add_zero]

/-- **The checksum of an INN.** -/
theorem innChecksum_eq (coeffs : List ℕ) (digits : Str) :
    innChecksum R digits coeffs = total (innWeight R coeffs) 0 digits % 11 % 10 := by
  rw [innChecksum, ← zipWith_sum R coeffs digits 0, List.drop_zero]

/-- What the digit at a place adds to the checksum of a SNILS. -/
def snilsWeight (i : ℕ) (c : Char) : ℕ := R.digitValue c * (9 - i)

/-- **The checksum of a SNILS.** -/
theorem snilsValid_iff {snils : Str} (h : snils.length = 11) :
    snilsValid R snils = true ↔ total (snilsWeight R) 0 (snils.take 9) % 101 % 100 = intOf R (snils.drop 9) := by
  have hsum : ((snils.take 9).zipIdx.map (fun p : Char × ℕ => R.digitValue p.1 * (9 - p.2))).sum =
      total (snilsWeight R) 0 (snils.take 9) := rfl
  unfold snilsValid
  rw [if_neg (not_not.mpr h)]
  dsimp only
  rw [hsum, decide_eq_true_iff]
  generalize total (snilsWeight R) 0 (snils.take 9) = t
  have hfold : (if (if t > 101 then t % 101 else t) = 100 ∨ (if t > 101 then t % 101 else t) = 101 then 0
      else if t > 101 then t % 101 else t) = t % 101 % 100 := by
    split_ifs <;> omega
  rw [hfold]

end Sums

/-! ### INN -/

/-- The coefficients of the first check digit of a person's INN. -/
def coeffs11 : List ℕ := [7, 2, 4, 10, 3, 5, 9, 4, 6, 8]

/-- Those of the second one. -/
def coeffs12 : List ℕ := [3, 7, 2, 4, 10, 3, 5, 9, 4, 6, 8]

section Inn

variable {R : Runtime} {u v : Str} {a b : Char}

theorem innValid_iff {inn : Str} (h : inn.length = 12) : innValid R inn = true ↔
    total (innWeight R coeffs11) 0 inn % 11 % 10 = R.digitValue (inn.getD 10 '0') ∧
      total (innWeight R coeffs12) 0 inn % 11 % 10 = R.digitValue (inn.getD 11 '0') := by
  unfold innValid
  rw [if_neg (by omega), if_pos h, innChecksum_eq, innChecksum_eq, decide_eq_true_iff]
  rfl

theorem getD_replace {i : ℕ} (hi : i ≠ u.length) (c : Char) : (u ++ b :: v).getD i c = (u ++ a :: v).getD i c := by
  rcases Nat.lt_or_gt_of_ne hi with hlt | hgt
  · rw [List.getD_append _ _ _ _ hlt, List.getD_append _ _ _ _ hlt]
  · obtain ⟨k, hk⟩ := Nat.exists_eq_add_of_lt hgt
    rw [List.getD_append_right _ _ _ _ hgt.le, List.getD_append_right _ _ _ _ hgt.le, hk, Nat.add_assoc,
      Nat.add_sub_cancel_left, List.getD_cons_succ, List.getD_cons_succ]

theorem getD_length (c : Char) : (u ++ a :: v).getD u.length c = a := by
  rw [List.getD_append_right _ _ _ _ le_rfl, Nat.sub_self, List.getD_cons_zero]

/-- Two differences that the remainders modulo 11 and 10 may not tell from 0. -/
def SameCheck (p q : ℕ) : Prop := p % 11 = q % 11 ∨ (p + 1) % 11 = q % 11 ∨ p % 11 = (q + 1) % 11

instance (p q : ℕ) : Decidable (SameCheck p q) := inferInstanceAs (Decidable (_ ∨ _))

theorem sameCheck_of_eq {t t' p q : ℕ} (h : t + q = t' + p) (hcheck : t % 11 % 10 = t' % 11 % 10) : SameCheck p q := by
  have hcases : t % 11 = t' % 11 ∨ (t % 11 = 10 ∧ t' % 11 = 0) ∨ (t % 11 = 0 ∧ t' % 11 = 10) := by omega
  unfold SameCheck
  rcases hcases with hsame | ⟨hten, hzero⟩ | ⟨hzero, hten⟩
  · exact Or.inl (by omega)
  · exact Or.inr (Or.inl (by omega))
  · exact Or.inr (Or.inr (by omega))

/-- **The two checksums are not deceived together**: at no place do both coefficients make a wrong digit look right. -/
theorem not_both_same : ∀ k < 10, ∀ x < 10, ∀ y < 10, x ≠ y →
    ¬ (SameCheck (x * coeffs11.getD k 0) (y * coeffs11.getD k 0) ∧
      SameCheck (x * coeffs12.getD k 0) (y * coeffs12.getD k 0)) := by
  decide +kernel

/-- Behind the last coefficient the digits add nothing. -/
theorem total_behind {coeffs : List ℕ} {i : ℕ} (hi : coeffs.length ≤ i) : total (innWeight R coeffs) i v = 0 := by
  induction v generalizing i with
  | nil => rfl
  | cons c v ih =>
    rw [total_cons, ih (hi.trans (Nat.le_succ i)), innWeight, List.getD_eq_default _ _ hi, Nat.mul_zero]

theorem total_past {coeffs : List ℕ} (hu : coeffs.length ≤ u.length) :
    total (innWeight R coeffs) 0 (u ++ v) = total (innWeight R coeffs) 0 u := by
  rw [total_append, total_behind (hu.trans (Nat.le_add_left _ _)), Nat.add_zero]

/-- **A digit replaced.** -/
theorem innValid_replace (hlen : (u ++ a :: v).length = 12) (ha : a.isDigit = true) (hb : b.isDigit = true)
    (hne : b ≠ a) (h : innValid R (u ++ a :: v) = true) : innValid R (u ++ b :: v) = false := by
  have hlen' : (u ++ b :: v).length = 12 := by simpa using hlen
  have hvalue : R.digitValue a ≠ R.digitValue b := fun heq => hne (digitValue_inj ha hb heq).symm
  rw [Bool.eq_false_iff]
  intro h'
  obtain ⟨hfirst, hsecond⟩ := (innValid_iff hlen).mp h
  obtain ⟨hfirst', hsecond'⟩ := (innValid_iff hlen').mp h'
  have hu : u.length < 12 := by
    rw [List.length_append, List.length_cons] at hlen
    omega
  by_cases h10 : u.length < 10
  · have h11 := total_replace_add (innWeight R coeffs11) 0 u v a b
    have h12 := total_replace_add (innWeight R coeffs12) 0 u v a b
    rw [Nat.zero_add] at h11 h12
    rw [getD_replace (i := 10) (a := a) (by omega)] at hfirst'
    rw [getD_replace (i := 11) (a := a) (by omega)] at hsecond'
    exact not_both_same _ h10 _ (digitValue_lt ha) _ (digitValue_lt hb) hvalue
      ⟨sameCheck_of_eq h11 (hfirst.trans hfirst'.symm), sameCheck_of_eq h12 (hsecond.trans hsecond'.symm)⟩
  · -- a check digit does not count towards its own sum
    by_cases hten : u.length = 10
    · have hpast : coeffs11.length ≤ u.length := by
        rw [hten]
        rfl
      rw [total_past hpast, ← hten, getD_length] at hfirst hfirst'
      exact hvalue (hfirst.symm.trans hfirst')
    · have heleven : u.length = 11 := by omega
      have hpast : coeffs12.length ≤ u.length := by
        rw [heleven]
        rfl
      rw [total_past hpast, ← heleven, getD_length] at hsecond hsecond'
      exact hvalue (hsecond.symm.trans hsecond')

/-- Nor are they by two exchanged neighbours, up to the ninth digit. -/
theorem not_both_same_swap : ∀ k < 8, ∀ x < 10, ∀ y < 10, x ≠ y →
    ¬ (SameCheck (x * coeffs11.getD k 0 + y * coeffs11.getD (k + 1) 0)
        (y * coeffs11.getD k 0 + x * coeffs11.getD (k + 1) 0) ∧
      SameCheck (x * coeffs12.getD k 0 + y * coeffs12.getD (k + 1) 0)
        (y * coeffs12.getD k 0 + x * coeffs12.getD (k + 1) 0)) := by
  decide +kernel

theorem getD_swap {i : ℕ} (hi : i ≠ u.length) (hi' : i ≠ u.length + 1) (c : Char) :
    (u ++ b :: a :: v).getD i c = (u ++ a :: b :: v).getD i c := by
  have hlast : (u ++ [b]).length = u.length + 1 := List.length_append
  calc (u ++ b :: a :: v).getD i c = ((u ++ [b]) ++ a :: v).getD i c := by rw [List.append_assoc]; rfl
    _ = ((u ++ [b]) ++ b :: v).getD i c := getD_replace (by rw [hlast]; exact hi') c
    _ = (u ++ b :: b :: v).getD i c := by rw [List.append_assoc]; rfl
    _ = (u ++ a :: b :: v).getD i c := getD_replace hi c

/-- **Two neighbours exchanged**: seen among the first nine digits, and between the check digits. -/
theorem innValid_swap (hlen : (u ++ a :: b :: v).length = 12) (ha : a.isDigit = true) (hb : b.isDigit = true)
    (hne : a ≠ b) (hu : u.length < 8 ∨ u.length = 10) (h : innValid R (u ++ a :: b :: v) = true) :
    innValid R (u ++ b :: a :: v) = false := by
  have hlen' : (u ++ b :: a :: v).length = 12 := by simpa using hlen
  have hvalue : R.digitValue a ≠ R.digitValue b := fun heq => hne (digitValue_inj ha hb heq)
  rw [Bool.eq_false_iff]
  intro h'
  obtain ⟨hfirst, hsecond⟩ := (innValid_iff hlen).mp h
  obtain ⟨hfirst', hsecond'⟩ := (innValid_iff hlen').mp h'
  rcases hu with hu | hten
  · have h11 := total_swap_add (innWeight R coeffs11) 0 u v a b
    have h12 := total_swap_add (innWeight R coeffs12) 0 u v a b
    rw [Nat.zero_add] at h11 h12
    rw [getD_swap (i := 10) (by omega) (by omega)] at hfirst'
    rw [getD_swap (i := 11) (by omega) (by omega)] at hsecond'
    have hsame := sameCheck_of_eq h11 (hfirst.trans hfirst'.symm)
    have hsame' := sameCheck_of_eq h12 (hsecond.trans hsecond'.symm)
    exact not_both_same_swap _ hu _ (digitValue_lt ha) _ (digitValue_lt hb) hvalue ⟨hsame, hsame'⟩
  · have hpast : coeffs11.length ≤ u.length := by
      rw [hten]
      rfl
    rw [total_past hpast, ← hten, getD_length] at hfirst hfirst'
    exact hvalue (hfirst.symm.trans hfirst')

end Inn

/-! ### The INN of the scripts -/

section MadeInn

variable (R : Runtime)

/-- The first check digit. -/
def check11 (base : Str) : Char := decimalDigit (total (innWeight R coeffs11) 0 base % 11 % 10)

/-- The second one. -/
def check12 (base : Str) : Char := decimalDigit (total (innWeight R coeffs12) 0 (base ++ [check11 R base]) % 11 % 10)

variable {R} {base : Str} {c d : Char}

theorem eq_decimalDigit_iff (hc : c.isDigit = true) {k : ℕ} (hk : k < 10) :
    k = R.digitValue c ↔ c = decimalDigit k := by
  constructor
  · intro h
    refine digitValue_inj (R := R) hc (isDigit_of_lt_ten hk) ?_
    rw [digitValue_decimalDigit hk, h]
  · intro h
    rw [h, digitValue_decimalDigit hk]

theorem check_lt (t : ℕ) : t % 11 % 10 < 10 := Nat.mod_lt _ (by decide)

/-- **Each ten digits have two check digits.** -/
theorem innValid_check_iff (hlen : base.length = 10) (hc : c.isDigit = true) (hd : d.isDigit = true) :
    innValid R (base ++ [c, d]) = true ↔ c = check11 R base ∧ d = check12 R base := by
  have hall : (base ++ [c, d]).length = 12 := by rw [List.length_append, hlen]; rfl
  have hlast : (base ++ [c]).length = 11 := by rw [List.length_append, hlen]; rfl
  have hsplit : base ++ [c, d] = (base ++ [c]) ++ [d] := by rw [List.append_assoc]; rfl
  have hfirst : (base ++ [c, d]).getD 10 '0' = c := by rw [← hlen]; exact getD_length '0'
  have hsecond : (base ++ [c, d]).getD 11 '0' = d := by rw [hsplit, ← hlast]; exact getD_length '0'
  have h11 : total (innWeight R coeffs11) 0 (base ++ [c, d]) = total (innWeight R coeffs11) 0 base :=
    total_past (by rw [hlen]; rfl)
  have h12 : total (innWeight R coeffs12) 0 (base ++ [c, d]) = total (innWeight R coeffs12) 0 (base ++ [c]) := by
    rw [hsplit]
    exact total_past (by rw [hlast]; rfl)
  rw [innValid_iff hall, hfirst, hsecond, h11, h12, eq_decimalDigit_iff hc (check_lt _),
    eq_decimalDigit_iff hd (check_lt _)]
  constructor
  · rintro ⟨rfl, hsum⟩
    exact ⟨rfl, hsum⟩
  · rintro ⟨rfl, hsum⟩
    exact ⟨rfl, hsum⟩

theorem mapM_charInt {digits : Str} (h : ∀ x ∈ digits, x.isDigit = true) :
    digits.mapM (charInt R) = .ok (digits.map R.digitValue) := by
  induction digits with
  | nil => rfl
  | cons x digits ih =>
    rw [List.mapM_cons, charInt_digit (h x List.mem_cons_self), ih (fun y hy => h y (List.mem_cons_of_mem x hy))]
    rfl

theorem innDigit_eq {digits : Str} {coeffs : List ℕ} (h : ∀ x ∈ digits, x.isDigit = true)
    (hlen : digits.length = coeffs.length) :
    innDigit R digits coeffs = .ok (decimalDigit (total (innWeight R coeffs) 0 digits % 11 % 10)) := by
  unfold innDigit
  rw [mapM_charInt h]
  show (if (digits.map R.digitValue).length ≠ coeffs.length then _ else _) = _
  rw [List.length_map, if_neg (not_not.mpr hlen), List.zipWith_map_left, ← zipWith_sum R coeffs digits 0,
    List.drop_zero]
  rfl

/-- **The INN that is made.** -/
theorem makeInn_eq (h : ∀ x ∈ base, x.isDigit = true) (hlen : base.length = 10) :
    makeInn R base = .ok (base ++ [check11 R base, check12 R base]) := by
  have hfirst : innDigit R base coeffs11 = .ok (check11 R base) := innDigit_eq h hlen
  have hdigits : ∀ x ∈ base ++ [check11 R base], x.isDigit = true := by
    intro x hx
    rcases List.mem_append.mp hx with hbase | hlast
    · exact h x hbase
    · rw [List.mem_singleton.mp hlast]
      exact isDigit_of_lt_ten (check_lt _)
  have hsecond : innDigit R (base ++ [check11 R base]) coeffs12 = .ok (check12 R base) :=
    innDigit_eq hdigits (by rw [List.length_append, hlen]; rfl)
  unfold makeInn
  rw [show innDigit R base [7, 2, 4, 10, 3, 5, 9, 4, 6, 8] = .ok (check11 R base) from hfirst]
  show (innDigit R (base ++ [check11 R base]) [3, 7, 2, 4, 10, 3, 5, 9, 4, 6, 8] >>= _) = _
  rw [show innDigit R (base ++ [check11 R base]) [3, 7, 2, 4, 10, 3, 5, 9, 4, 6, 8] = .ok (check12 R base) from hsecond]
  show Except.ok (base ++ [check11 R base] ++ [check12 R base]) = _
  rw [List.append_assoc]
  rfl

/-- The ninth and the tenth digit weigh 2 apart in both sums, so their exchange may go unseen. -/
example : innValid Runtime.basic "595297709300".toList = true ∧
    innValid Runtime.basic "595297703900".toList = true := by
  decide

end MadeInn

/-- **The two check digits of an INN** detect a wrong digit and most exchanges; the scripts make the valid number. -/
theorem inn_detects (R : Runtime) {base : Str} (hbase : ∀ c ∈ base, c.isDigit = true) (hlen : base.length = 10) :
    ∃ inn, makeInn R base = .ok inn ∧ inn.length = 12 ∧ innValid R inn = true ∧
      (∀ c d : Char, c.isDigit = true → d.isDigit = true →
        (innValid R (base ++ [c, d]) = true ↔ base ++ [c, d] = inn)) ∧
      (∀ u a v b, inn = u ++ a :: v → b.isDigit = true → b ≠ a → innValid R (u ++ b :: v) = false) ∧
      ∀ u a b v, inn = u ++ a :: b :: v → a ≠ b → u.length < 8 ∨ u.length = 10 →
        innValid R (u ++ b :: a :: v) = false := by
  have hcheck : (check11 R base).isDigit = true := isDigit_of_lt_ten (check_lt _)
  have hcheck' : (check12 R base).isDigit = true := isDigit_of_lt_ten (check_lt _)
  have hvalid : innValid R (base ++ [check11 R base, check12 R base]) = true :=
    (innValid_check_iff hlen hcheck hcheck').mpr ⟨rfl, rfl⟩
  have hdigits : ∀ c ∈ base ++ [check11 R base, check12 R base], c.isDigit = true := by
    intro c hc
    rcases List.mem_append.mp hc with hc | hc
    · exact hbase c hc
    · rcases List.mem_pair.mp hc with rfl | rfl
      · exact hcheck
      · exact hcheck'
  have htwelve : (base ++ [check11 R base, check12 R base]).length = 12 := by
    rw [List.length_append, hlen]
    rfl
  refine ⟨_, makeInn_eq hbase hlen, htwelve, hvalid, ?_, ?_, ?_⟩
  · intro c d hc hd
    rw [innValid_check_iff hlen hc hd, List.append_cancel_left_eq]
    simp
  · intro u a v b heq hb hne
    rw [heq] at hdigits htwelve hvalid
    exact innValid_replace htwelve (hdigits a (by simp)) hb hne hvalid
  · intro u a b v heq hne hu
    rw [heq] at hdigits htwelve hvalid
    exact innValid_swap htwelve (hdigits a (by simp)) (hdigits b (by simp)) hne hu hvalid

/-- The number of the scripts, and two of its misspellings. -/
theorem inn_detects_made : makeInn Runtime.basic "5001007322".toList = .ok "500100732259".toList ∧
    innValid Runtime.basic "500100732258".toList = false ∧ innValid Runtime.basic "050100732259".toList = false := by
  have hbase : ∀ c ∈ "5001007322".toList, c.isDigit = true := List.all_eq_true.mp rfl
  obtain ⟨inn, hmade, -, -, hunique, hreplace, hswap⟩ := inn_detects Runtime.basic hbase (by decide)
  obtain rfl := (hunique '5' '9' (by decide) (by decide)).mp (by decide)
  exact ⟨hmade, hreplace "50010073225".toList '9' [] '8' rfl (by decide) (by decide),
    hswap [] '5' '0' "0100732259".toList rfl (by decide) (Or.inl (by decide))⟩

/-! ### SNILS -/

/-- A difference that the remainders modulo 101 and 100 do not see. -/
theorem same_check_iff {t t' p q : ℕ} (h : t + p = t' + q) (hpq : p ≤ q + 81) (hqp : q ≤ p + 81) :
    t % 101 % 100 = t' % 101 % 100 ↔ p = q ∨ t % 101 = 100 ∧ p = q + 1 ∨ t % 101 = 0 ∧ q = p + 1 := by
  constructor
  · intro hcheck
    have hcases : t % 101 = t' % 101 ∨ (t % 101 = 100 ∧ t' % 101 = 0) ∨ (t % 101 = 0 ∧ t' % 101 = 100) := by omega
    rcases hcases with hsame | ⟨htop, hzero⟩ | ⟨hzero, htop⟩
    · exact Or.inl (by omega)
    · exact Or.inr (Or.inl ⟨htop, by omega⟩)
    · exact Or.inr (Or.inr ⟨hzero, by omega⟩)
  · rintro (rfl | ⟨htop, rfl⟩ | ⟨hzero, rfl⟩)
    · rw [Nat.add_right_cancel h]
    · have hnext : t' % 101 = 0 := by omega
      rw [htop, hnext]
    · have hprev : t' % 101 = 100 := by omega
      rw [hzero, hprev]

/-- Two multiples that are neighbours. -/
theorem mul_eq_succ_iff {x y k : ℕ} : x * k = y * k + 1 ↔ k = 1 ∧ x = y + 1 := by
  constructor
  · intro h
    have hone : (x - y) * k = 1 := by rw [Nat.sub_mul, h, Nat.add_sub_cancel_left]
    have hdiff := Nat.eq_one_of_mul_eq_one_right hone
    exact ⟨Nat.eq_one_of_mul_eq_one_left hone, by omega⟩
  · rintro ⟨rfl, rfl⟩
    rw [Nat.mul_one, Nat.mul_one]

section Snils

variable {R : Runtime} {u v body control : Str} {a b c d : Char}

/-- The one error that the check number of a SNILS does not see: the sum, 100 modulo 101, gets one more, or the sum, 0
modulo 101, one less. -/
def Unseen (R : Runtime) (t : ℕ) (a b : Char) : Prop :=
  t % 101 = 100 ∧ R.digitValue b = R.digitValue a + 1 ∨ t % 101 = 0 ∧ R.digitValue a = R.digitValue b + 1

theorem snilsValid_append (hbody : body.length = 9) (hcontrol : control.length = 2) :
    snilsValid R (body ++ control) = true ↔ total (snilsWeight R) 0 body % 101 % 100 = intOf R control := by
  have hlen : (body ++ control).length = 11 := by rw [List.length_append, hbody, hcontrol]
  rw [snilsValid_iff R hlen, ← hbody, List.take_left, List.drop_left]

/-- **Each nine digits have one check number.** -/
theorem snilsValid_check_iff (hbody : body.length = 9) (hc : c.isDigit = true) (hd : d.isDigit = true) :
    snilsValid R (body ++ [c, d]) = true ↔ c = decimalDigit (total (snilsWeight R) 0 body % 101 % 100 / 10) ∧
      d = decimalDigit (total (snilsWeight R) 0 body % 101 % 100 % 10) := by
  rw [snilsValid_append hbody rfl]
  have hcheck : total (snilsWeight R) 0 body % 101 % 100 < 100 := Nat.mod_lt _ (by decide)
  generalize total (snilsWeight R) 0 body % 101 % 100 = check at hcheck ⊢
  have hint : intOf R [c, d] = 10 * R.digitValue c + R.digitValue d := by simp [intOf]
  have hlow : R.digitValue c < 10 := digitValue_lt hc
  have hlow' : R.digitValue d < 10 := digitValue_lt hd
  rw [hint, ← eq_decimalDigit_iff (R := R) hc (by omega), ← eq_decimalDigit_iff (R := R) hd (by omega)]
  constructor
  · intro h
    constructor <;> omega
  · rintro ⟨htens, hones⟩
    omega

/-- **A digit replaced**: unseen only at the last place before the check number, whose weight is 1. -/
theorem snilsValid_replace_iff (hbody : (u ++ a :: v).length = 9) (hcontrol : control.length = 2)
    (ha : a.isDigit = true) (hb : b.isDigit = true) (hne : b ≠ a)
    (h : snilsValid R (u ++ a :: v ++ control) = true) :
    snilsValid R (u ++ b :: v ++ control) = true ↔
      v = [] ∧ Unseen R (total (snilsWeight R) 0 (u ++ a :: v)) a b := by
  have hbody' : (u ++ b :: v).length = 9 := by simpa using hbody
  have hplace : u.length + v.length = 8 := by
    rw [List.length_append, List.length_cons] at hbody
    omega
  have hlast : v = [] ↔ u.length = 8 := by
    rw [← List.length_eq_zero_iff]
    omega
  have hvalue : R.digitValue a ≠ R.digitValue b := fun heq => hne (digitValue_inj ha hb heq).symm
  have hlow : R.digitValue a < 10 := digitValue_lt ha
  have hlow' : R.digitValue b < 10 := digitValue_lt hb
  have hsum := total_replace_add (snilsWeight R) 0 u v a b
  rw [Nat.zero_add] at hsum
  rw [snilsValid_append hbody hcontrol] at h
  rw [snilsValid_append hbody' hcontrol, ← h, eq_comm, hlast]
  have hle : ∀ {x : Char}, R.digitValue x < 10 → snilsWeight R u.length x ≤ 81 := by
    intro x hx
    exact Nat.mul_le_mul (Nat.le_of_lt_succ hx) (Nat.sub_le 9 u.length)
  rw [same_check_iff hsum ((hle hlow').trans (Nat.le_add_left 81 _)) ((hle hlow).trans (Nat.le_add_left 81 _))]
  have hdistinct : snilsWeight R u.length b ≠ snilsWeight R u.length a := by
    intro hsame
    exact hvalue (Nat.eq_of_mul_eq_mul_right (by omega) hsame).symm
  have hone : 9 - u.length = 1 ↔ u.length = 8 := by omega
  unfold Unseen
  unfold snilsWeight at hdistinct ⊢
  rw [or_iff_right hdistinct, mul_eq_succ_iff, mul_eq_succ_iff, hone, and_left_comm, and_left_comm (b := u.length = 8),
    ← and_or_left]

/-- **Two neighbours exchanged**: unseen when the sum is at its end. -/
theorem snilsValid_swap_iff (hbody : (u ++ a :: b :: v).length = 9) (hcontrol : control.length = 2)
    (ha : a.isDigit = true) (hb : b.isDigit = true) (hne : a ≠ b)
    (h : snilsValid R (u ++ a :: b :: v ++ control) = true) :
    snilsValid R (u ++ b :: a :: v ++ control) = true ↔
      Unseen R (total (snilsWeight R) 0 (u ++ a :: b :: v)) a b := by
  have hbody' : (u ++ b :: a :: v).length = 9 := by simpa using hbody
  have hplace : u.length ≤ 7 := by
    rw [List.length_append, List.length_cons, List.length_cons] at hbody
    omega
  have hvalue : R.digitValue a ≠ R.digitValue b := fun heq => hne (digitValue_inj ha hb heq)
  have hlow : R.digitValue a < 10 := digitValue_lt ha
  have hlow' : R.digitValue b < 10 := digitValue_lt hb
  -- neighbouring weights differ by one, so the exchange moves the sum by the difference of the digits
  have hsum : total (snilsWeight R) 0 (u ++ a :: b :: v) + R.digitValue b =
      total (snilsWeight R) 0 (u ++ b :: a :: v) + R.digitValue a := by
    have hswap := total_swap_add (snilsWeight R) 0 u v a b
    rw [Nat.zero_add] at hswap
    obtain ⟨k, hk⟩ : ∃ k, 9 - u.length = k + 1 := ⟨8 - u.length, by omega⟩
    have hnext : 9 - (u.length + 1) = k := by omega
    unfold snilsWeight at hswap ⊢
    rw [hk, hnext, Nat.mul_succ, Nat.mul_succ] at hswap
    omega
  rw [snilsValid_append hbody hcontrol] at h
  rw [snilsValid_append hbody' hcontrol, ← h, eq_comm, same_check_iff hsum (by omega) (by omega)]
  exact or_iff_right (Ne.symm hvalue)

end Snils

/-- **The check number of a SNILS** detects what one step of its sum from 100 to 101 does not hide. -/
theorem snils_detects (R : Runtime) {body : Str} (hbody : ∀ c ∈ body, c.isDigit = true) (hlen : body.length = 9) :
    ∃ control, control.length = 2 ∧ (∀ x ∈ control, x.isDigit = true) ∧
      (∀ c d : Char, c.isDigit = true → d.isDigit = true →
        (snilsValid R (body ++ [c, d]) = true ↔ [c, d] = control)) ∧
      (∀ u a v b, body = u ++ a :: v → b.isDigit = true → b ≠ a →
        (snilsValid R (u ++ b :: v ++ control) = true ↔ v = [] ∧ Unseen R (total (snilsWeight R) 0 body) a b)) ∧
      ∀ u a b v, body = u ++ a :: b :: v → a ≠ b →
        (snilsValid R (u ++ b :: a :: v ++ control) = true ↔ Unseen R (total (snilsWeight R) 0 body) a b) := by
  have hsmall : total (snilsWeight R) 0 body % 101 % 100 < 100 := Nat.mod_lt _ (by decide)
  have htens := isDigit_of_lt_ten (k := total (snilsWeight R) 0 body % 101 % 100 / 10) (by omega)
  have hones := isDigit_of_lt_ten (k := total (snilsWeight R) 0 body % 101 % 100 % 10) (by omega)
  have hvalid := (snilsValid_check_iff (R := R) hlen htens hones).mpr ⟨rfl, rfl⟩
  refine ⟨[decimalDigit (total (snilsWeight R) 0 body % 101 % 100 / 10),
    decimalDigit (total (snilsWeight R) 0 body % 101 % 100 % 10)], rfl, ?_, ?_, ?_, ?_⟩
  · intro x hx
    rcases List.mem_pair.mp hx with rfl | rfl
    · exact htens
    · exact hones
  · intro c d hc hd
    rw [snilsValid_check_iff hlen hc hd]
    simp
  · rintro u a v b rfl hb hne
    exact snilsValid_replace_iff hlen rfl (hbody a (by simp)) hb hne hvalid
  · rintro u a b v rfl hne
    exact snilsValid_swap_iff hlen rfl (hbody a (by simp)) (hbody b (by simp)) hne hvalid

/-- `112-233-445 95` is a SNILS and, as its sum is not at an end, neither with a digit wrong nor with two exchanged. -/
theorem snils_detects_sample : snilsValid Runtime.basic "11223344695".toList ≠ true ∧
    snilsValid Runtime.basic "11232344595".toList ≠ true := by
  have hbody : ∀ c ∈ "112233445".toList, c.isDigit = true := List.all_eq_true.mp rfl
  obtain ⟨control, -, -, hunique, hreplace, hswap⟩ := snils_detects Runtime.basic hbody (by decide)
  obtain rfl := (hunique '9' '5' (by decide) (by decide)).mp (by decide)
  have hmiddle : ¬ Unseen Runtime.basic (total (snilsWeight Runtime.basic) 0 "112233445".toList) '5' '6' := by
    unfold Unseen
    decide
  have hmiddle' : ¬ Unseen Runtime.basic (total (snilsWeight Runtime.basic) 0 "112233445".toList) '2' '3' := by
    unfold Unseen
    decide
  exact ⟨fun h => hmiddle ((hreplace "11223344".toList '5' [] '6' rfl (by decide) (by decide)).mp h).2,
    fun h => hmiddle' ((hswap "112".toList '2' '3' "3445".toList rfl (by decide)).mp h)⟩

/-- The sum of the first number is 100 modulo 101, and the check number `00` is that of the second one too. -/
example : snilsValid Runtime.basic "11223328800".toList = true ∧
    snilsValid Runtime.basic "11223328900".toList = true := by
  decide

end PdMasking
