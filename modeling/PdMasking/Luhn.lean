import Mathlib.Algebra.Field.ZMod
import PdMasking.Lib.CheckDigit
import PdMasking.Synthetic

/-!
# PdMasking.Luhn — the checksum of card numbers (`core/detectors/base.py`, `scripts/format_matrix.py`)

`luhn_valid` keeps the detector from other long numbers; the evaluation scripts have a `luhn_ok` of their own and make
cards with it.  The place of a digit is counted from the right, so appending one moves all the others.

* `luhnValid_iff_total`: the number is valid when its weights add up to 0 modulo 10.
* `luhnWeight_inj`, `luhnSkew_eq_iff`: what a place tells apart, and what two neighbouring ones do.
* `luhnOk_eq`: the two functions agree on digits.
* `luhn_detects`: the errors that are seen, the check digit and the card that is made.
-/

namespace PdMasking

open CheckDigit

/-! ### The functions of the scripts -/

section Scripts

variable (R : Runtime)

/-- `int(ch)` of one character. -/
def charInt (ch : Char) : Except PyExc ℕ := if R.isdecimal ch then .ok (R.digitValue ch) else .error .valueError

/-- The loop of `luhn_ok`. -/
def luhnOkFrom : Str → ℕ → ℕ → Except PyExc ℕ
  | [], _, total => .ok total
  | ch :: rest, idx, total => do
    let value ← charInt R ch
    let digit := value * (if idx % 2 ≠ 0 then 2 else 1)
    luhnOkFrom rest (idx + 1) (total + if digit > 9 then digit - 9 else digit)

/-- `luhn_ok`. -/
def luhnOk (number : Str) : Except PyExc Bool := do
  let total ← luhnOkFrom R number.reverse 0 0
  return total % 10 == 0

/-- The generator of `make_card`, run to its first card. -/
def nextCard (cardPrefix : Str) : List ℕ → Except PyExc (Option Str)
  | [] => .ok none
  | d :: ds => do
    if ← luhnOk R (cardPrefix ++ [decimalDigit d]) then
      return some (cardPrefix ++ [decimalDigit d])
    else
      nextCard cardPrefix ds

/-- `make_card`; without a card `next` raises `StopIteration`. -/
def makeCard (cardPrefix : Str := "220012345678901".toList) : Except PyExc (Option Str) :=
  nextCard R cardPrefix (List.range 10)

end Scripts

/-! ### Digits and their weights -/

/-- What the character at place `idx` from the right adds to the sum of `luhn_valid`. -/
def luhnTerm (idx : ℕ) (ch : Char) : ℤ :=
  let digit : ℤ := (ch.toNat : ℤ) - 48
  if idx % 2 = 1 then (if digit * 2 > 9 then digit * 2 - 9 else digit * 2) else digit

/-- The same modulo 10. -/
def luhnWeight (idx : ℕ) (ch : Char) : ZMod 10 := (luhnTerm idx ch : ZMod 10)

theorem luhnValid_iff_total {number : Str} :
    luhnValid number = true ↔ total luhnWeight 0 number.reverse = 0 := by
  have hcast : total luhnWeight 0 number.reverse = ((total luhnTerm 0 number.reverse : ℤ) : ZMod 10) :=
    (map_total luhnTerm 0 (Int.castAddHom (ZMod 10)) number.reverse).symm
  rw [hcast, ZMod.intCast_zmod_eq_zero_iff_dvd]
  exact decide_eq_true_iff.trans Int.dvd_iff_emod_eq_zero.symm

theorem exists_decimalDigit {c : Char} (h : c.isDigit = true) : ∃ k < 10, c = decimalDigit k := by
  obtain ⟨hlow, hhigh⟩ := isDigit_iff.mp h
  refine ⟨c.toNat - 48, by omega, ?_⟩
  have hcode : '0'.toNat + (c.toNat - 48) = c.toNat := Nat.add_sub_cancel' hlow
  rw [decimalDigit, hcode, Char.ofNat_toNat]

theorem isDigit_of_lt_ten {k : ℕ} (h : k < 10) : (decimalDigit k).isDigit = true := by
  rw [← Nat.mod_eq_of_lt h]
  exact isDigit_decimalDigit k

theorem luhnWeight_mod (idx : ℕ) (c : Char) : luhnWeight idx c = luhnWeight (idx % 2) c := by
  unfold luhnWeight luhnTerm
  rw [Nat.mod_mod]

/-- A place of each kind gives the ten digits ten weights. -/
theorem luhnWeight_inj (idx : ℕ) {a b : Char} (ha : a.isDigit = true) (hb : b.isDigit = true)
    (h : luhnWeight idx a = luhnWeight idx b) : a = b := by
  obtain ⟨j, hj, rfl⟩ := exists_decimalDigit ha
  obtain ⟨k, hk, rfl⟩ := exists_decimalDigit hb
  have hall : ∀ parity < 2, ∀ j < 10, ∀ k < 10,
      luhnWeight parity (decimalDigit j) = luhnWeight parity (decimalDigit k) → j = k := by decide
  rw [luhnWeight_mod idx, luhnWeight_mod idx] at h
  rw [hall (idx % 2) (Nat.mod_lt idx (by decide)) j hj k hk h]

/-- What a digit adds at a place and not at the next one. -/
def luhnSkew (idx : ℕ) (ch : Char) : ZMod 10 := luhnWeight idx ch - luhnWeight (idx + 1) ch

theorem luhnSkew_mod (idx : ℕ) (c : Char) : luhnSkew idx c = luhnSkew (idx % 2) c := by
  rw [luhnSkew, luhnSkew, luhnWeight_mod idx, luhnWeight_mod (idx + 1), luhnWeight_mod (idx % 2 + 1), Nat.mod_add_mod]

/-- **Two neighbouring places** tell two digits apart unless these are `0` and `9`. -/
theorem luhnSkew_eq_iff (idx : ℕ) {a b : Char} (ha : a.isDigit = true) (hb : b.isDigit = true) (hne : a ≠ b) :
    luhnSkew idx a = luhnSkew idx b ↔ a = '0' ∧ b = '9' ∨ a = '9' ∧ b = '0' := by
  have hparity : idx % 2 < 2 := Nat.mod_lt idx (by decide)
  rw [luhnSkew_mod idx, luhnSkew_mod idx]
  constructor
  · intro h
    obtain ⟨j, hj, rfl⟩ := exists_decimalDigit ha
    obtain ⟨k, hk, rfl⟩ := exists_decimalDigit hb
    have hnine : ∀ parity < 2, ∀ j < 10, ∀ k < 10,
        luhnSkew parity (decimalDigit j) = luhnSkew parity (decimalDigit k) → j % 9 = k % 9 := by decide
    have hmod := hnine (idx % 2) hparity j hj k hk h
    have hdigits : j ≠ k := by
      rintro rfl
      exact hne rfl
    have hends : j = 0 ∧ k = 9 ∨ j = 9 ∧ k = 0 := by omega
    rcases hends with ⟨rfl, rfl⟩ | ⟨rfl, rfl⟩
    · exact Or.inl ⟨rfl, rfl⟩
    · exact Or.inr ⟨rfl, rfl⟩
  · have hzero : ∀ parity < 2, luhnSkew parity '0' = luhnSkew parity '9' := by decide
    rintro (⟨rfl, rfl⟩ | ⟨rfl, rfl⟩)
    · exact hzero (idx % 2) hparity
    · exact (hzero (idx % 2) hparity).symm

/-- The last place takes every value modulo 10. -/
theorem luhnWeight_bijOn : Set.BijOn (luhnWeight 0) {c | c.isDigit = true} Set.univ := by
  refine ⟨Set.mapsTo_univ _ _, fun a ha b hb h => luhnWeight_inj 0 ha hb h, ?_⟩
  intro x _
  have hall : ∀ x : ZMod 10, ∃ k < 10, luhnWeight 0 (decimalDigit (k % 10)) = x := by decide
  obtain ⟨k, -, hweight⟩ := hall x
  exact ⟨decimalDigit (k % 10), isDigit_decimalDigit k, hweight⟩

/-! ### The scripts agree -/

section Agreement

variable {R : Runtime}

/-- One round of the loop: the digit adds what `luhn_valid` adds. -/
theorem luhnOk_round (idx : ℕ) {c : Char} (hc : c.isDigit = true) : ∃ value, charInt R c = .ok value ∧
    ((if value * (if idx % 2 ≠ 0 then 2 else 1) > 9 then value * (if idx % 2 ≠ 0 then 2 else 1) - 9
      else value * (if idx % 2 ≠ 0 then 2 else 1) : ℕ) : ℤ) = luhnTerm idx c := by
  have hascii := toNat_lt_of_isDigit hc
  refine ⟨c.toNat - 48, ?_, ?_⟩
  · rw [charInt, if_pos ((R.isdecimal_ascii c hascii).trans hc), R.digitValue_ascii c hc]
    rfl
  · obtain ⟨hlow, hhigh⟩ := isDigit_iff.mp hc
    unfold luhnTerm
    rcases Nat.mod_two_eq_zero_or_one idx with hidx | hidx
    · rw [hidx, if_neg (by decide : ¬ 0 ≠ 0), if_neg (by decide : ¬ 0 = 1)]
      split_ifs <;> omega
    · rw [hidx, if_pos (by decide : 1 ≠ 0), if_pos rfl]
      split_ifs <;> omega

/-- The loop, from any place and any sum on. -/
theorem luhnOkFrom_eq : ∀ {digits : Str}, (∀ c ∈ digits, c.isDigit = true) → ∀ idx acc : ℕ,
    ∃ sum, luhnOkFrom R digits idx acc = .ok sum ∧ (sum : ℤ) = acc + total luhnTerm idx digits
  | [], _, idx, acc => ⟨acc, rfl, by rw [total_nil, add_zero]⟩
  | c :: digits, h, idx, acc => by
    rw [List.forall_mem_cons] at h
    obtain ⟨value, hvalue, hterm⟩ := luhnOk_round (R := R) idx h.1
    obtain ⟨sum, hsum, htotal⟩ := luhnOkFrom_eq h.2 (idx + 1) (acc + if value * (if idx % 2 ≠ 0 then 2 else 1) > 9
      then value * (if idx % 2 ≠ 0 then 2 else 1) - 9 else value * (if idx % 2 ≠ 0 then 2 else 1))
    refine ⟨sum, ?_, ?_⟩
    · rw [luhnOkFrom, hvalue]
      exact hsum
    · rw [htotal, Nat.cast_add, hterm, total_cons, add_assoc]

/-- **`luhn_ok` says what `luhn_valid` says.** -/
theorem luhnOk_eq {number : Str} (h : ∀ c ∈ number, c.isDigit = true) : luhnOk R number = .ok (luhnValid number) := by
  obtain ⟨sum, hsum, htotal⟩ := luhnOkFrom_eq (R := R) (fun c hc => h c (List.mem_reverse.mp hc)) 0 0
  rw [Nat.cast_zero, zero_add] at htotal
  have hvalid : luhnValid number = decide (total luhnTerm 0 number.reverse % 10 = 0) := rfl
  have hsame : (sum % 10 == 0) = decide ((sum : ℤ) % 10 = 0) := by
    rw [Bool.eq_iff_iff, beq_iff_eq, decide_eq_true_iff]
    omega
  rw [hvalid, ← htotal, ← hsame, luhnOk, hsum]
  rfl

/-- The generator stops at the first digit that `luhn_valid` takes. -/
theorem nextCard_eq {number : Str} (h : ∀ c ∈ number, c.isDigit = true) : ∀ {ds : List ℕ}, (∀ d ∈ ds, d < 10) →
    nextCard R number ds = .ok ((ds.find? (fun d => luhnValid (number ++ [decimalDigit d]))).map
      (fun d => number ++ [decimalDigit d]))
  | [], _ => rfl
  | d :: ds, hds => by
    rw [List.forall_mem_cons] at hds
    have hdigits : ∀ c ∈ number ++ [decimalDigit d], c.isDigit = true :=
      List.forall_mem_append.mpr ⟨h, List.forall_mem_singleton.mpr (isDigit_of_lt_ten hds.1)⟩
    rw [nextCard, luhnOk_eq hdigits, List.find?_cons]
    cases luhnValid (number ++ [decimalDigit d]) with
    | true => rfl
    | false => exact nextCard_eq h hds.2

end Agreement

/-! ### What is seen -/

section Errors

variable {u v : Str} {a b : Char}

theorem reverse_append_cons (u v : Str) (a : Char) : (u ++ a :: v).reverse = v.reverse ++ a :: u.reverse := by simp

/-- **A digit replaced.** -/
theorem luhnValid_replace (ha : a.isDigit = true) (hb : b.isDigit = true) (hne : b ≠ a)
    (h : luhnValid (u ++ a :: v) = true) : luhnValid (u ++ b :: v) = false := by
  rw [Bool.eq_false_iff]
  intro hvalid
  rw [luhnValid_iff_total, reverse_append_cons] at h hvalid
  have hweight := (total_replace_iff luhnWeight 0 _ _ b a).mp (hvalid.trans h.symm)
  exact hne (luhnWeight_inj _ hb ha hweight)

/-- **Two neighbours exchanged.** -/
theorem luhnValid_swap_iff (ha : a.isDigit = true) (hb : b.isDigit = true) (hne : a ≠ b)
    (h : luhnValid (u ++ a :: b :: v) = true) :
    luhnValid (u ++ b :: a :: v) = true ↔ a = '0' ∧ b = '9' ∨ a = '9' ∧ b = '0' := by
  have hreverse : ∀ c d : Char, (u ++ c :: d :: v).reverse = v.reverse ++ d :: c :: u.reverse := by simp
  rw [luhnValid_iff_total, hreverse] at h ⊢
  rw [← h, total_swap_iff]
  exact luhnSkew_eq_iff _ ha hb hne

/-- **The check digit.** -/
theorem exists_checkDigit (number : Str) : ∃ check : Char, check.isDigit = true ∧
    ∀ c : Char, c.isDigit = true → (luhnValid (number ++ [c]) = true ↔ c = check) := by
  obtain ⟨check, ⟨hdigit, hsum⟩, huniq⟩ := existsUnique_check luhnWeight 0 number.reverse luhnWeight_bijOn 0
  refine ⟨check, hdigit, ?_⟩
  intro c hc
  rw [luhnValid_iff_total, List.reverse_append, List.reverse_singleton, List.singleton_append]
  constructor
  · exact fun htotal => huniq c ⟨hc, htotal⟩
  · rintro rfl
    exact hsum

/-- `make_card` finds it. -/
theorem makeCard_eq (R : Runtime) {number : Str} {check : Char} (h : ∀ c ∈ number, c.isDigit = true)
    (hdigit : check.isDigit = true)
    (hcheck : ∀ c : Char, c.isDigit = true → (luhnValid (number ++ [c]) = true ↔ c = check)) :
    makeCard R number = .ok (some (number ++ [check])) := by
  have hds : ∀ d ∈ List.range 10, d < 10 := fun d hd => List.mem_range.mp hd
  obtain ⟨k, hk, hcopy⟩ := exists_decimalDigit hdigit
  have hvalid := (hcheck check hdigit).mpr rfl
  rw [hcopy] at hvalid
  have hsome : ((List.range 10).find? (fun d => luhnValid (number ++ [decimalDigit d]))).isSome = true :=
    List.find?_isSome.mpr ⟨k, List.mem_range.mpr hk, hvalid⟩
  obtain ⟨d, hd⟩ := Option.isSome_iff_exists.mp hsome
  have hlt := hds d (List.mem_of_find?_eq_some hd)
  have hfound := List.find?_some hd
  rw [makeCard, nextCard_eq h hds, hd, Option.map_some, (hcheck _ (isDigit_of_lt_ten hlt)).mp hfound]

end Errors

/-- **The checksum detects the errors it is for**, and the scripts count as the service does. -/
theorem luhn_detects (R : Runtime) {number : Str} (hnumber : ∀ c ∈ number, c.isDigit = true) :
    (luhnValid number = true →
      (∀ u a v b, number = u ++ a :: v → b.isDigit = true → b ≠ a → luhnValid (u ++ b :: v) = false) ∧
      ∀ u a b v, number = u ++ a :: b :: v → a ≠ b →
        (luhnValid (u ++ b :: a :: v) = true ↔ a = '0' ∧ b = '9' ∨ a = '9' ∧ b = '0')) ∧
    (∃ check : Char, check.isDigit = true ∧
      (∀ c : Char, c.isDigit = true → (luhnValid (number ++ [c]) = true ↔ c = check)) ∧
      makeCard R number = .ok (some (number ++ [check]))) ∧
    luhnOk R number = .ok (luhnValid number) := by
  refine ⟨?_, ?_, luhnOk_eq hnumber⟩
  · intro hvalid
    refine ⟨?_, ?_⟩
    · rintro u a v b rfl hb hne
      exact luhnValid_replace (hnumber a (by simp)) hb hne hvalid
    · rintro u a b v rfl hne
      exact luhnValid_swap_iff (hnumber a (by simp)) (hnumber b (by simp)) hne hvalid
  · obtain ⟨check, hdigit, hcheck⟩ := exists_checkDigit number
    exact ⟨check, hdigit, hcheck, makeCard_eq R hnumber hdigit hcheck⟩

/-- `18` is taken, `19` and `81` are not, and the next digit is `2`. -/
theorem luhn_detects_eighteen : luhnValid ['1', '9'] = false ∧ luhnValid ['8', '1'] ≠ true ∧
    luhnOk Runtime.basic ['1', '8'] = .ok true ∧ makeCard Runtime.basic ['1', '8'] = .ok (some ['1', '8', '2']) := by
  have hvalid : luhnValid ['1', '8'] = true := by decide
  have hdigits : ∀ c ∈ ['1', '8'], c.isDigit = true :=
    List.forall_mem_cons.mpr ⟨rfl, List.forall_mem_singleton.mpr rfl⟩
  obtain ⟨hseen, ⟨check, -, hcheck, hcard⟩, hagree⟩ := luhn_detects Runtime.basic hdigits
  obtain ⟨hreplace, hswap⟩ := hseen hvalid
  obtain rfl := (hcheck '2' (by decide)).mp (by decide)
  refine ⟨hreplace ['1'] '8' [] '9' rfl (by decide) (by decide), ?_, hagree.trans (congrArg _ hvalid), hcard⟩
  exact fun h => absurd ((hswap [] '1' '8' [] rfl (by decide)).mp h) (by decide)

end PdMasking
