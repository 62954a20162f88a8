import Mathlib.Algebra.GroupWithZero.Nat
import Mathlib.Algebra.Ring.Int.Defs
import Mathlib.Data.List.DropRight
import PdMasking.Entities
import PdMasking.Lib.TextSearch
import PdMasking.Re
import Mathlib.Data.List.TakeWhile

/-!
# PdMasking.Detectors.Base — what a detector is, and the tools they share (`core/detectors/base.py`)

The character classes of the patterns are those of the interpreter: `\w`, `\d` and `\s` of a Unicode
pattern, and letters that `re.IGNORECASE` does not tell apart.
-/

namespace PdMasking

/-- `Detector`: the declared types, whether digits are needed, and the candidates it yields. -/
structure Detector where
  types : Finset PDType
  needsDigits : Bool
  detect : Str → List (Option Entity)

/-- `Detector.applicable`. -/
def Detector.applicable (d : Detector) (hasDigits : Bool) (enabled : Finset PDType) : Bool :=
  if d.types ∩ enabled = ∅ then false else hasDigits || !d.needsDigits

/-- `text_has_digits`. -/
def textHasDigits (R : Runtime) (text : Str) : Bool := text.any R.isdecimal

/-- `digits_only`. -/
def digitsOnly (R : Runtime) (value : Str) : Str := value.filter R.isdigit

/-- `cue_before`. -/
def cueBefore (R : Runtime) (text : Str) (pos : ℕ) (cue : Re) (window : ℕ) : Bool :=
  ((cue.rx R).search text (pos - window) pos).isSome

/-! ### Matches -/

/-- `m.group(0)`. -/
def matched (text : Str) (m : Regex.Match) : Str := slice text m.start m.stop

/-- `m.group(n)` of a group that takes part in every match. -/
def groupText (text : Str) (n : ℕ) (m : Regex.Match) : Str := slice text (m.groupSpan n).1 (m.groupSpan n).2

/-- `_groups(m, *idx)`. -/
def groups (m : Regex.Match) (idx : List ℕ) : List (ℕ × ℕ) := idx.map m.groupSpan

/-! ### Strings -/

section Strings

variable (R : Runtime)

/-- `s.rstrip(chars)`. -/
def rstrip (s : Str) (drop : Char → Bool) : Str := (s.reverse.dropWhile drop).reverse

/-- `s.strip()`. -/
def strip (s : Str) : Str := rstrip (s.dropWhile R.isspace) R.isspace

/-- `s.casefold()`. -/
def casefold (s : Str) : Str := s.flatMap R.casefold

/-- `s.isupper()`: a cased character, and none in lower or title case. -/
def isUpperStr (s : Str) : Bool := s.any R.isupper && !(s.any (fun c => R.islower c || R.istitle c))

/-- `s.isdigit()`. -/
def isDigitStr (s : Str) : Bool := !s.isEmpty && s.all R.isdigit

/-- `s.isspace()`. -/
def isSpaceStr (s : Str) : Bool := !s.isEmpty && s.all R.isspace

/-- `s.isascii()`. -/
def isAsciiStr (s : Str) : Bool := s.all (fun c => c.toNat < 128)

/-- `s[0].isupper()` of a word, `s[:1].isupper()` of a text. -/
def startsUpper (s : Str) : Bool := s.head?.any R.isupper

/-- `int(s)` of decimal digits. -/
def intOf (s : Str) : ℕ := s.foldl (fun n c => 10 * n + R.digitValue c) 0

/-- `s.split()`: the maximal runs of characters that are no spaces. -/
def splitSpace : Str → List Str
  | [] => []
  | c :: s =>
    if R.isspace c then splitSpace s
    else
      match s, splitSpace s with
      | d :: _, w :: ws => if R.isspace d then [c] :: w :: ws else (c :: w) :: ws
      | _, ws => [c] :: ws

end Strings

/-- `pattern.split(s)` without groups: what is left between the matches. -/
def splitAt (text : Str) : ℕ → List Regex.Match → List Str
  | pos, [] => [text.drop pos]
  | pos, m :: ms => slice text pos m.start :: splitAt text m.stop ms

/-- `text.find(value)`, none for -1. -/
def find (text value : Str) : Option ℕ := (TextSearch.hits value text).head?

/-- The value stands where it is found. -/
theorem find_spec {text value : Str} {start : ℕ} (hne : value ≠ []) (h : find text value = some start) :
    start + value.length ≤ text.length ∧ slice text start (start + value.length) = value := by
  have hprefix := TextSearch.prefix_drop_of_mem_hits hne (List.mem_of_mem_head? h)
  have hlen := hprefix.length_le
  rw [List.length_drop] at hlen
  have hpos : 0 < value.length := List.length_pos_of_ne_nil hne
  refine ⟨by omega, ?_⟩
  rw [slice, Nat.add_sub_cancel_left]
  exact (List.prefix_iff_eq_take.mp hprefix).symm

/-- A value that stands in the text is found: `find` is not -1. -/
theorem exists_find {text value : Str} (hne : value ≠ []) (h : value <:+: text) :
    ∃ start, find text value = some start := by
  have hhits : TextSearch.hits value text ≠ [] := fun hnil => (TextSearch.hits_nil_iff hne).mp hnil h
  exact ⟨_, List.head?_eq_some_head hhits⟩

theorem rstrip_isPrefix (s : Str) (drop : Char → Bool) : rstrip s drop <+: s := by
  rw [rstrip, ← List.reverse_suffix, List.reverse_reverse]
  exact List.dropWhile_suffix drop

theorem length_rstrip_le (s : Str) (drop : Char → Bool) : (rstrip s drop).length ≤ s.length :=
  (rstrip_isPrefix s drop).length_le

/-- Only spaces are stripped away. -/
theorem isspace_of_strip_eq_nil {R : Runtime} {s : Str} (h : strip R s = []) : ∀ c ∈ s, R.isspace c = true := by
  have hall : ∀ c ∈ s.dropWhile R.isspace, R.isspace c = true := by
    rw [strip, rstrip, List.reverse_eq_nil_iff, List.dropWhile_eq_nil_iff] at h
    intro c hc
    exact h c (List.mem_reverse.mpr hc)
  have hnil : s.dropWhile R.isspace = [] := by
    by_contra hne
    have hhead := List.head_dropWhile_not R.isspace hne
    rw [hall _ (List.head_mem hne)] at hhead
    cases hhead
  exact List.dropWhile_eq_nil_iff.mp hnil

/-! ### Stripping -/

section Strip

variable {R : Runtime} {s : Str}

theorem dropWhile_eq_self_iff_head {p : Char → Bool} : s.dropWhile p = s ↔ ∀ c, s.head? = some c → p c = false := by
  cases s with
  | nil => simp
  | cons a s =>
    rw [List.dropWhile_eq_self_iff]
    simp

theorem rstrip_eq_self_iff {p : Char → Bool} : rstrip s p = s ↔ ∀ c, s.getLast? = some c → p c = false := by
  unfold rstrip
  rw [List.reverse_eq_iff, dropWhile_eq_self_iff_head, List.head?_reverse]

/-- A text is stripped when there is no space at its ends. -/
theorem strip_eq_self_iff : strip R s = s ↔
    (∀ c, s.head? = some c → R.isspace c = false) ∧ ∀ c, s.getLast? = some c → R.isspace c = false := by
  constructor
  · intro h
    have hsuffix := List.dropWhile_suffix (l := s) R.isspace
    have hshort : (strip R s).length ≤ (s.dropWhile R.isspace).length := length_rstrip_le _ _
    rw [h] at hshort
    have hdrop : s.dropWhile R.isspace = s := hsuffix.eq_of_length_le hshort
    unfold strip at h
    rw [hdrop] at h
    exact ⟨dropWhile_eq_self_iff_head.mp hdrop, rstrip_eq_self_iff.mp h⟩
  · rintro ⟨hhead, hlast⟩
    rw [strip, dropWhile_eq_self_iff_head.mpr hhead, rstrip_eq_self_iff.mpr hlast]

/-- Spaces around a stripped text are stripped away. -/
theorem strip_padded {u w : Str} (hs : strip R s = s) (hne : s ≠ []) (hu : ∀ c ∈ u, R.isspace c = true)
    (hw : ∀ c ∈ w, R.isspace c = true) : strip R (u ++ s ++ w) = s := by
  obtain ⟨hhead, hlast⟩ := strip_eq_self_iff.mp hs
  have hfront : (u ++ s ++ w).dropWhile R.isspace = s ++ w := by
    rw [List.append_assoc, List.dropWhile_append_of_pos hu, dropWhile_eq_self_iff_head]
    intro c hc
    rw [List.head?_append_of_ne_nil _ hne] at hc
    exact hhead c hc
  have hback : ∀ c ∈ w.reverse, R.isspace c = true := fun c hc => hw c (List.mem_reverse.mp hc)
  rw [strip, hfront, rstrip, List.reverse_append, List.dropWhile_append_of_pos hback]
  exact rstrip_eq_self_iff.mpr hlast

theorem strip_infix : strip R s <:+: s :=
  (rstrip_isPrefix _ R.isspace).isInfix.trans (List.dropWhile_suffix R.isspace).isInfix

/-- What is stripped stays as it is. -/
theorem strip_strip : strip R (strip R s) = strip R s := by
  refine strip_eq_self_iff.mpr ⟨?_, ?_⟩
  · intro c hc
    obtain ⟨tail, htail⟩ := rstrip_isPrefix (s.dropWhile R.isspace) R.isspace
    have hne : strip R s ≠ [] := by
      intro hnil
      rw [hnil] at hc
      cases hc
    have hcopy : (s.dropWhile R.isspace).head? = some c := by
      rw [← htail]
      exact (List.head?_append_of_ne_nil _ hne).trans hc
    have hkept : (s.dropWhile R.isspace).dropWhile R.isspace = s.dropWhile R.isspace :=
      List.dropWhile_idempotent R.isspace s
    exact dropWhile_eq_self_iff_head.mp hkept c hcopy
  · exact rstrip_eq_self_iff.mp (List.rdropWhile_idempotent R.isspace (s.dropWhile R.isspace))

end Strip

/-! ### What the candidates have in common -/

/-- The arguments of `make_entity`. -/
structure Candidate where
  pdType : PDType
  spans : List (ℕ × ℕ)
  priority : ℤ
  requiresAny : Finset PDType

/-- Every entity is made of arguments that satisfy `P`. -/
def Yields (P : Candidate → Prop) (l : List (Option Entity)) : Prop :=
  ∀ e, some e ∈ l → ∃ spans, makeEntity e.pdType spans e.priority e.requiresAny = some e ∧
    P ⟨e.pdType, spans, e.priority, e.requiresAny⟩

namespace Yields

variable {α : Type} {P : Candidate → Prop} {l l' : List (Option Entity)}

theorem nil : Yields P [] := nofun

theorem one {pdType : PDType} {spans : List (ℕ × ℕ)} {priority : ℤ} {requiresAny : Finset PDType}
    (h : P ⟨pdType, spans, priority, requiresAny⟩) : Yields P [makeEntity pdType spans priority requiresAny] := by
  intro e he
  have hmade := (List.mem_singleton.mp he).symm
  obtain ⟨rfl, rfl, rfl⟩ := fields_of_makeEntity hmade
  exact ⟨spans, hmade, h⟩

theorem append (h : Yields P l) (h' : Yields P l') : Yields P (l ++ l') := by
  intro e he
  rcases List.mem_append.mp he with he | he
  · exact h e he
  · exact h' e he

theorem cons {o : Option Entity} (h : Yields P [o]) (h' : Yields P l) : Yields P (o :: l) := h.append h'

theorem map {xs : List α} {f : α → Option Entity} (h : ∀ x ∈ xs, Yields P [f x]) : Yields P (xs.map f) := by
  intro e he
  obtain ⟨x, hx, hfx⟩ := List.mem_map.mp he
  exact h x hx e (hfx ▸ List.mem_singleton_self _)

theorem filterMap {xs : List α} {f : α → Option (Option Entity)}
    (h : ∀ x ∈ xs, ∀ o, f x = some o → Yields P [o]) : Yields P (xs.filterMap f) := by
  intro e he
  obtain ⟨x, hx, hfx⟩ := List.mem_filterMap.mp he
  exact h x hx (some e) hfx e (List.mem_singleton_self _)

theorem flatMap {xs : List α} {f : α → List (Option Entity)} (h : ∀ x ∈ xs, Yields P (f x)) :
    Yields P (xs.flatMap f) := by
  intro e he
  obtain ⟨x, hx, hfx⟩ := List.mem_flatMap.mp he
  exact h x hx e hfx

theorem toList {o : Option (Option Entity)} (h : ∀ o', o = some o' → Yields P [o']) : Yields P o.toList := by
  intro e he
  exact h (some e) (Option.mem_toList.mp he) e (List.mem_singleton_self _)

theorem mono {Q : Candidate → Prop} (h : Yields P l) (hPQ : ∀ c, P c → Q c) : Yields Q l := by
  intro e he
  obtain ⟨spans, hmade, hP⟩ := h e he
  exact ⟨spans, hmade, hPQ _ hP⟩

theorem ite {c : Prop} [Decidable c] (h : c → Yields P l) (h' : ¬ c → Yields P l') :
    Yields P (if c then l else l') := by
  split_ifs with hc
  · exact h hc
  · exact h' hc

end Yields

/-! ### Check digits -/

/-- `luhn_valid`. -/
def luhnValid (number : Str) : Bool :=
  let digits := number.reverse.zipIdx.map (fun p : Char × ℕ =>
    let digit : ℤ := (p.1.toNat : ℤ) - 48
    if p.2 % 2 = 1 then (if digit * 2 > 9 then digit * 2 - 9 else digit * 2) else digit)
  digits.sum % 10 = 0

/-- `checksum` in `inn_valid`. -/
def innChecksum (R : Runtime) (digits : Str) (coeffs : List ℕ) : ℕ :=
  (List.zipWith (fun d c => R.digitValue d * c) digits coeffs).sum % 11 % 10

/-- `inn_valid`. -/
def innValid (R : Runtime) (inn : Str) : Bool :=
  if inn.length = 10 then
    innChecksum R inn [2, 4, 10, 3, 5, 9, 4, 6, 8] = R.digitValue (inn.getD 9 '0')
  else if inn.length = 12 then
    innChecksum R inn [7, 2, 4, 10, 3, 5, 9, 4, 6, 8] = R.digitValue (inn.getD 10 '0') ∧
      innChecksum R inn [3, 7, 2, 4, 10, 3, 5, 9, 4, 6, 8] = R.digitValue (inn.getD 11 '0')
  else false

/-- `snils_valid`. -/
def snilsValid (R : Runtime) (snils : Str) : Bool :=
  if snils.length ≠ 11 then false
  else
    let body := snils.take 9
    let control := intOf R (snils.drop 9)
    let total := (body.zipIdx.map (fun p : Char × ℕ => R.digitValue p.1 * (9 - p.2))).sum
    let total := if total > 101 then total % 101 else total
    let expected := if total = 100 ∨ total = 101 then 0 else total
    expected = control

/-! ### The pieces of the patterns -/

section Patterns

variable (R : Runtime)

/-- `\w`. -/
def wordChar (c : Char) : Bool := R.isalnum c || c == '_'

def word : Regex Char := .cls (wordChar R)

/-- `\d`. -/
def digit : Regex Char := .cls R.isdecimal

/-- `\s`. -/
def space : Regex Char := .cls R.isspace

/-- A word under `re.IGNORECASE`. -/
def literal (w : String) : Regex Char := Regex.word R.ignoreCase w.toList

end Patterns

def isAsciiLetter (c : Char) : Bool := ('A' ≤ c && c ≤ 'Z') || ('a' ≤ c && c ≤ 'z')

/-- The characters of a class `[chars]`. -/
def among (chars : String) (c : Char) : Bool := c ∈ chars.toList

end PdMasking
