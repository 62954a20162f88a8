import Mathlib.Data.List.Dedup
import Mathlib.Data.List.Sort

/-!
# PdMasking.Python — the Python runtime the service relies on

Strings are lists of code points without lone surrogates.  What the interpreter fixes outside the source (its Unicode
tables and the iteration order of a `set`) is a parameter `R : Runtime` with the documented behaviour as fields, so that
every result holds for every Unicode version and every string-hash seed.
-/

namespace PdMasking

/-- A Python `str` that can be encoded as UTF-8: its code points, none of which is a lone surrogate. -/
abbrev Str := List Char

instance instLawfulBEqStr : LawfulBEq Str := List.instLawfulBEq

/-- `text[a:b]` for non-negative indices: out-of-range bounds are clamped, as in Python. -/
def slice (text : Str) (a b : ℕ) : Str := (text.drop a).take (b - a)

theorem slice_append_drop {text : Str} {a b : ℕ} (h : a ≤ b) : slice text a b ++ text.drop b = text.drop a := by
  have hb : text.drop b = (text.drop a).drop (b - a) := by rw [List.drop_drop, Nat.add_sub_cancel' h]
  rw [hb, slice, List.take_append_drop]

theorem mem_of_mem_slice {text : Str} {a b : ℕ} {c : Char} (h : c ∈ slice text a b) : c ∈ text :=
  List.mem_of_mem_drop (List.mem_of_mem_take h)

theorem getElem?_slice {text : Str} {a b i : ℕ} (hi : i < b - a) : (slice text a b)[i]? = text[a + i]? := by
  unfold slice
  rw [List.getElem?_take_of_lt hi, List.getElem?_drop]

theorem length_slice {text : Str} {a b : ℕ} (h : b ≤ text.length) : (slice text a b).length = b - a := by
  unfold slice
  rw [List.length_take, List.length_drop]
  omega

theorem take_append_slice {text : Str} {a b : ℕ} (h : a ≤ b) : text.take a ++ slice text a b = text.take b := by
  have hb : b = a + (b - a) := by omega
  conv_rhs => rw [hb, List.take_add]
  rfl

/-- The exceptions raised and caught in the modelled code. -/
inductive PyExc
  /-- A list or string index out of range. -/
  | indexError
  /-- `UnmaskForbiddenError(system_id)`. -/
  | unmaskForbidden (systemId : Str)
  /-- `StoreUnavailableError("timeout")` or `StoreUnavailableError("connection")`. -/
  | storeUnavailable (timeout : Bool)
  /-- The builtin `TimeoutError`, a subclass of `OSError`. -/
  | timeoutError
  /-- Any other `OSError`, such as `ConnectionError`. -/
  | osError
  /-- `LeakBlockedError`. -/
  | leakBlocked
  /-- `LLMUnavailableError`. -/
  | llmUnavailable
  | keyError
  | typeError
  | attributeError
  /-- `json.JSONDecodeError`, a subclass of `ValueError`. -/
  | jsonDecodeError
  /-- Any other `ValueError`. -/
  | valueError
  | recursionError
  deriving DecidableEq, Repr

section Ascii

variable {c : Char}

theorem isUpper_iff : c.isUpper = true ↔ 65 ≤ c.toNat ∧ c.toNat ≤ 90 := decide_eq_true_iff

theorem isLower_iff : c.isLower = true ↔ 97 ≤ c.toNat ∧ c.toNat ≤ 122 :=
  Bool.and_eq_true_iff.trans (and_congr decide_eq_true_iff decide_eq_true_iff)

theorem isDigit_iff : c.isDigit = true ↔ 48 ≤ c.toNat ∧ c.toNat ≤ 57 := Char.isDigit_iff_toNat

theorem isAlpha_iff : c.isAlpha = true ↔ (65 ≤ c.toNat ∧ c.toNat ≤ 90) ∨ (97 ≤ c.toNat ∧ c.toNat ≤ 122) :=
  Bool.or_eq_true_iff.trans (or_congr isUpper_iff isLower_iff)

theorem isAlphanum_iff : c.isAlphanum = true ↔
    ((65 ≤ c.toNat ∧ c.toNat ≤ 90) ∨ (97 ≤ c.toNat ∧ c.toNat ≤ 122)) ∨ (48 ≤ c.toNat ∧ c.toNat ≤ 57) :=
  Bool.or_eq_true_iff.trans (or_congr isAlpha_iff isDigit_iff)

end Ascii

/-- The letters of the Russian alphabet. -/
def isRussian (c : Char) : Bool := ('А' ≤ c && c ≤ 'я') || c == 'Ё' || c == 'ё'

/-- `str.lower` on ASCII and Russian letters. -/
def lowerBasic (c : Char) : Char :=
  if 'А' ≤ c && c ≤ 'Я' then Char.ofNat (c.toNat + 32) else if c = 'Ё' then 'ё' else c.toLower

/-- A code point below the surrogates. -/
theorem toNat_ofNat {n : ℕ} (h : n < 0xd800) : (Char.ofNat n).toNat = n := by
  have hv : n.isValidChar := Or.inl h
  unfold Char.ofNat
  rw [dif_pos hv]
  rfl

theorem toNat_toLower (c : Char) :
    c.toLower.toNat = if 65 ≤ c.toNat ∧ c.toNat ≤ 90 then c.toNat + 32 else c.toNat := by
  unfold Char.toLower
  split_ifs with h h' h'
  · show (c.val + ('a'.val - 'A'.val)).toNat = c.toNat + 32
    rw [UInt32.toNat_add]
    show (c.toNat + 32) % 2 ^ 32 = c.toNat + 32
    omega
  · exact absurd ⟨UInt32.le_iff_toNat_le.mp h.1, UInt32.le_iff_toNat_le.mp h.2⟩ h'
  · exact absurd ⟨UInt32.le_iff_toNat_le.mpr h'.1, UInt32.le_iff_toNat_le.mpr h'.2⟩ h
  · rfl

/-- What `lowerBasic` changes is an upper-case letter of one of the two alphabets. -/
theorem toNat_lowerBasic (c : Char) : (lowerBasic c).toNat =
    if (65 ≤ c.toNat ∧ c.toNat ≤ 90) ∨ (1040 ≤ c.toNat ∧ c.toNat ≤ 1071) then c.toNat + 32
    else if c.toNat = 1025 then 1105 else c.toNat := by
  have hrange : (('А' ≤ c && c ≤ 'Я') = true) = (1040 ≤ c.toNat ∧ c.toNat ≤ 1071) := by
    rw [Bool.and_eq_true, decide_eq_true_eq, decide_eq_true_eq]
    rfl
  unfold lowerBasic
  simp only [hrange]
  by_cases hr : 1040 ≤ c.toNat ∧ c.toNat ≤ 1071
  · rw [if_pos hr, if_pos (Or.inr hr), toNat_ofNat (by omega)]
  · rw [if_neg hr]
    by_cases hyo : c = 'Ё'
    · subst hyo
      rfl
    · have hne : c.toNat ≠ 1025 := fun h => hyo (Char.toNat_inj.mp h)
      rw [if_neg hyo, toNat_toLower]
      simp only [hr, hne, or_false, if_false]

/-- `str.isspace` on an ASCII character. -/
def spaceAscii (c : Char) : Bool := (9 ≤ c.toNat && c.toNat ≤ 13) || (28 ≤ c.toNat && c.toNat ≤ 32)

/-- The quotes, dashes and signs outside ASCII that the patterns name; they have no case. -/
def isMark (c : Char) : Bool := c ∈ ['«', '»', '“', '”', '„', '’', '–', '—', '…', '№']

/-- An ASCII character that is no letter. -/
def isCaseless (c : Char) : Bool := c.toNat < 128 && !c.isAlpha

/-- The code points of the characters that have no case. -/
theorem code_of_isCaseless {c : Char} (h : isCaseless c) :
    c.toNat < 128 ∧ ¬ (65 ≤ c.toNat ∧ c.toNat ≤ 90) ∧ ¬ (97 ≤ c.toNat ∧ c.toNat ≤ 122) := by
  obtain ⟨hlt, halpha⟩ := Bool.and_eq_true_iff.mp h
  rw [Bool.not_eq_true', ← Bool.not_eq_true, isAlpha_iff, not_or] at halpha
  exact ⟨of_decide_eq_true hlt, halpha⟩

theorem ignoreCase_of_isCaseless {c d : Char} (h : isCaseless c ∨ isCaseless d) :
    (lowerBasic c == lowerBasic d) = (c == d) := by
  rw [Bool.eq_iff_iff, beq_iff_eq, beq_iff_eq]
  constructor
  · intro heq
    have hlower := congrArg Char.toNat heq
    rw [toNat_lowerBasic, toNat_lowerBasic] at hlower
    refine Char.toNat_inj.mp ?_
    rcases h with h | h
    · obtain ⟨h1, h2, h3⟩ := code_of_isCaseless h
      split_ifs at hlower <;> omega
    · obtain ⟨h1, h2, h3⟩ := code_of_isCaseless h
      split_ifs at hlower <;> omega
  · intro heq
    rw [heq]

theorem code_of_isMark {c : Char} (h : isMark c) :
    c.toNat ∈ [171, 187, 8220, 8221, 8222, 8217, 8211, 8212, 8230, 8470] := by
  have hmark : c ∈ ['«', '»', '“', '”', '„', '’', '–', '—', '…', '№'] := by simpa [isMark] using h
  simpa using List.mem_map_of_mem (f := Char.toNat) hmark

theorem ignoreCase_of_isMark {c d : Char} (hc : isMark c) : (lowerBasic c == lowerBasic d) = (c == d) := by
  have hcode := code_of_isMark hc
  rw [Bool.eq_iff_iff, beq_iff_eq, beq_iff_eq]
  constructor
  · intro h
    have hlower := congrArg Char.toNat h
    rw [toNat_lowerBasic, toNat_lowerBasic] at hlower
    refine Char.toNat_inj.mp ?_
    simp only [List.mem_cons, List.not_mem_nil, or_false] at hcode
    split_ifs at hlower <;> omega
  · intro h
    rw [h]

/-- `str.isupper` on ASCII and Russian letters. -/
def upperCaseBasic (c : Char) : Bool := c.isUpper || ('А' ≤ c && c ≤ 'Я') || c == 'Ё'

/-- `str.islower` on ASCII and Russian letters. -/
def lowerCaseBasic (c : Char) : Bool := c.isLower || ('а' ≤ c && c ≤ 'я') || c == 'ё'

/-- The code points of the Russian letters. -/
theorem code_of_isRussian {c : Char} (h : isRussian c) :
    (1040 ≤ c.toNat ∧ c.toNat ≤ 1103) ∨ c.toNat = 1025 ∨ c.toNat = 1105 := by
  simp only [isRussian, Bool.or_eq_true, Bool.and_eq_true, decide_eq_true_eq, beq_iff_eq] at h
  rcases h with (⟨h1, h2⟩ | rfl) | rfl
  · exact Or.inl ⟨h1, h2⟩
  · exact Or.inr (Or.inl rfl)
  · exact Or.inr (Or.inr rfl)

theorem isDigit_russian {c : Char} (h : isRussian c) : c.isDigit = false := by
  have hcode := code_of_isRussian h
  rw [← Bool.not_eq_true, isDigit_iff]
  omega

theorem spaceAscii_russian {c : Char} (h : isRussian c) : spaceAscii c = false := by
  have hcode := code_of_isRussian h
  rw [← Bool.not_eq_true, spaceAscii, Bool.or_eq_true, Bool.and_eq_true, Bool.and_eq_true]
  simp only [decide_eq_true_eq]
  omega

/-- The interpreter: its Unicode tables, the iteration order of a set of pairs and the current year. -/
structure Runtime where
  isalpha : Char → Bool
  isdecimal : Char → Bool
  isdigit : Char → Bool
  isnumeric : Char → Bool
  isupper : Char → Bool
  isspace : Char → Bool
  /-- The characters that `re.IGNORECASE` does not tell apart. -/
  ignoreCase : Char → Char → Bool
  ignoreCase_basic : ∀ c d : Char, (c.toNat < 128 ∨ isRussian c) → (d.toNat < 128 ∨ isRussian d) →
    ignoreCase c d = (lowerBasic c == lowerBasic d)
  isalpha_ascii : ∀ c : Char, c.toNat < 128 → isalpha c = c.isAlpha
  isdecimal_ascii : ∀ c : Char, c.toNat < 128 → isdecimal c = c.isDigit
  isdigit_ascii : ∀ c : Char, c.toNat < 128 → isdigit c = c.isDigit
  isnumeric_ascii : ∀ c : Char, c.toNat < 128 → isnumeric c = c.isDigit
  /-- The order in which `set(pairs)` is iterated: each element once. -/
  setIter : List (Str × Str) → List (Str × Str)
  setIter_nodup : ∀ l, (setIter l).Nodup
  mem_setIter : ∀ l p, p ∈ setIter l ↔ p ∈ l
  ignoreCase_mark : ∀ c d : Char, isMark c → ignoreCase c d = (c == d)
  ignoreCase_caseless : ∀ c d : Char, isCaseless c ∨ isCaseless d → ignoreCase c d = (c == d)
  isspace_ascii : ∀ c : Char, c.toNat < 128 → isspace c = spaceAscii c
  islower : Char → Bool
  istitle : Char → Bool
  /-- `str.lower`. -/
  lower : Str → Str
  lower_basic : ∀ s : Str, (∀ c ∈ s, c.toNat < 128 ∨ isRussian c) → lower s = s.map lowerBasic
  /-- `str.casefold` on one character. -/
  casefold : Char → Str
  casefold_basic : ∀ c : Char, c.toNat < 128 ∨ isRussian c → casefold c = [lowerBasic c]
  /-- `int` of a decimal digit. -/
  digitValue : Char → ℕ
  digitValue_ascii : ∀ c : Char, c.isDigit → digitValue c = c.toNat - '0'.toNat
  /-- `date.today().year`. -/
  thisYear : ℕ
  isalpha_russian : ∀ c : Char, isRussian c → isalpha c = true
  isdecimal_russian : ∀ c : Char, isRussian c → isdecimal c = false
  isdigit_russian : ∀ c : Char, isRussian c → isdigit c = false
  isspace_russian : ∀ c : Char, isRussian c → isspace c = false
  isupper_basic : ∀ c : Char, c.toNat < 128 ∨ isRussian c → isupper c = upperCaseBasic c
  islower_basic : ∀ c : Char, c.toNat < 128 ∨ isRussian c → islower c = lowerCaseBasic c

namespace Runtime

variable (R : Runtime)

/-- `str.isalnum` on one character. -/
def isalnum (c : Char) : Bool := R.isalpha c || R.isdecimal c || R.isdigit c || R.isnumeric c

theorem isalnum_ascii {c : Char} (h : c.toNat < 128) : R.isalnum c = c.isAlphanum := by
  simp only [isalnum, R.isalpha_ascii c h, R.isdecimal_ascii c h, R.isdigit_ascii c h, R.isnumeric_ascii c h,
    Char.isAlphanum, Bool.or_assoc, Bool.or_self]

end Runtime

/-- A runtime whose tables know ASCII and the Russian alphabet. -/
def Runtime.basic : Runtime where
  isalpha c := c.isAlpha || isRussian c
  isdecimal c := c.isDigit
  isdigit c := c.isDigit
  isnumeric c := c.isDigit
  isupper := upperCaseBasic
  isspace c := spaceAscii c
  ignoreCase c d := lowerBasic c == lowerBasic d
  ignoreCase_basic _ _ _ _ := rfl
  isalpha_ascii c h := by
    have hr : isRussian c = false := by
      rw [Bool.eq_false_iff]
      intro hc
      simp only [isRussian, Bool.or_eq_true, Bool.and_eq_true, decide_eq_true_eq, beq_iff_eq] at hc
      rcases hc with (⟨h1, -⟩ | rfl) | rfl
      · exact absurd (show ('А' : Char).toNat ≤ c.toNat from h1) (by simp only [Char.reduceToNat]; omega)
      · simp at h
      · simp at h
    rw [hr, Bool.or_false]
  isdecimal_ascii _ _ := rfl
  isdigit_ascii _ _ := rfl
  isnumeric_ascii _ _ := rfl
  setIter := List.dedup
  setIter_nodup := List.nodup_dedup
  mem_setIter _ _ := List.mem_dedup
  ignoreCase_mark _ _ hc := ignoreCase_of_isMark hc
  ignoreCase_caseless _ _ h := ignoreCase_of_isCaseless h
  isspace_ascii _ _ := rfl
  islower := lowerCaseBasic
  istitle _ := false
  lower s := s.map lowerBasic
  lower_basic _ _ := rfl
  casefold c := [lowerBasic c]
  casefold_basic _ _ := rfl
  digitValue c := c.toNat - '0'.toNat
  digitValue_ascii _ _ := rfl
  thisYear := 2026
  isalpha_russian c h := by rw [h, Bool.or_true]
  isdecimal_russian _ h := isDigit_russian h
  isdigit_russian _ h := isDigit_russian h
  isspace_russian _ h := spaceAscii_russian h
  isupper_basic _ _ := rfl
  islower_basic _ _ := rfl

end PdMasking
