import Mathlib.Data.List.Basic
import Mathlib.Data.Nat.Digits.Lemmas
import PdMasking.Lib.Json

/-!
# PdMasking.Lib.JsonText — writing JSON, and reading it back

`Doc` is a value to be written: a whole number keeps its value, a number with a fraction its digits.  `Doc.text` is
its text, every character outside ASCII as it is, with the blanks of a `Layout` after commas and colons;
`Doc.toJson` is what a reader of `Json` sees of it.

* `loads_text`: what is written is read back.
* `noC0_text`: no character below U+0020 is written; the others are, DEL and the line separators of Unicode
  included.
-/

namespace Json

inductive Doc
  | null
  | bool (b : Bool)
  | int (n : ℤ)
  | decimal (negative : Bool) (whole : ℕ) (tenths : Fin 10) (more : List (Fin 10))
  | string (s : List Char)
  | array (items : List Doc)
  | object (members : List (List Char × Doc))

/-- The blanks after a comma and after a colon. -/
structure Layout where
  comma : List Char
  colon : List Char
  comma_blank : comma.all isBlank = true
  colon_blank : colon.all isBlank = true

/-- `separators=(",", ":")` -/
def Layout.compact : Layout := ⟨[], [], rfl, rfl⟩

/-- `separators=(", ", ": ")` -/
def Layout.spaced : Layout := ⟨[' '], [' '], rfl, rfl⟩

/-! ### Writing -/

/-- A hexadecimal digit. -/
def hexDigit (n : ℕ) : Char := Char.ofNat (if n < 10 then 48 + n else 87 + n)

/-- A character of a string literal. -/
def escape (c : Char) : List Char :=
  if c = '"' then ['\\', '"']
  else if c = '\\' then ['\\', '\\']
  else if c = '\n' then ['\\', 'n']
  else if c = '\r' then ['\\', 'r']
  else if c = '\t' then ['\\', 't']
  else if c = Char.ofNat 8 then ['\\', 'b']
  else if c = Char.ofNat 12 then ['\\', 'f']
  else if c.toNat < 32 then ['\\', 'u', '0', '0', hexDigit (c.toNat / 16), hexDigit (c.toNat % 16)]
  else [c]

def quote (s : List Char) : List Char := '"' :: (s.flatMap escape ++ ['"'])

def digitChar (d : ℕ) : Char := Char.ofNat (48 + d)

/-- The decimal digits of a number. -/
def natText (n : ℕ) : List Char := if n = 0 then ['0'] else ((Nat.digits 10 n).map digitChar).reverse

def fractionText (ds : List (Fin 10)) : List Char := ds.map (fun d : Fin 10 => digitChar d.val)

def intText (n : ℤ) : List Char := if n < 0 then '-' :: natText n.natAbs else natText n.natAbs

mutual

def Doc.text (l : Layout) : Doc → List Char
  | .null => ['n', 'u', 'l', 'l']
  | .bool true => ['t', 'r', 'u', 'e']
  | .bool false => ['f', 'a', 'l', 's', 'e']
  | .int n => intText n
  | .decimal negative whole tenths more =>
    (if negative then ['-'] else []) ++ (natText whole ++ '.' :: fractionText (tenths :: more))
  | .string s => quote s
  | .array items => '[' :: (itemsText l items ++ [']'])
  | .object members => '{' :: (membersText l members ++ ['}'])

def itemsText (l : Layout) : List Doc → List Char
  | [] => []
  | [d] => d.text l
  | d :: d' :: ds => d.text l ++ ',' :: (l.comma ++ itemsText l (d' :: ds))

def membersText (l : Layout) : List (List Char × Doc) → List Char
  | [] => []
  | [(name, d)] => quote name ++ ':' :: (l.colon ++ d.text l)
  | (name, d) :: m :: ms => quote name ++ ':' :: (l.colon ++ (d.text l ++ ',' :: (l.comma ++ membersText l (m :: ms))))

end

mutual

def Doc.toJson : Doc → Json
  | .null => Json.null
  | .bool b => Json.bool b
  | .int n => Json.number (n = 0)
  | .decimal _ whole tenths more => Json.number (whole = 0 ∧ ∀ d ∈ tenths :: more, d = 0)
  | .string s => Json.string s
  | .array items => Json.array (itemsJson items)
  | .object members => Json.object (membersJson members)

def itemsJson : List Doc → List Json
  | [] => []
  | d :: ds => d.toJson :: itemsJson ds

def membersJson : List (List Char × Doc) → List (List Char × Json)
  | [] => []
  | (name, d) :: ms => (name, d.toJson) :: membersJson ms

end

/-! ### Reading a string back -/

theorem toNat_hexDigit {n : ℕ} (h : n < 16) : (hexDigit n).toNat = if n < 10 then 48 + n else 87 + n := by
  unfold hexDigit Char.ofNat
  rw [dif_pos (Or.inl (by split_ifs <;> omega))]
  rfl

theorem hexValue?_hexDigit {n : ℕ} (h : n < 16) : hexValue? (hexDigit n) = some n := by
  interval_cases n <;> rfl

theorem hex4_low {n : ℕ} (h : n < 256) (s : List Char) :
    hex4 ('0' :: '0' :: hexDigit (n / 16) :: hexDigit (n % 16) :: s) = some (n, s) := by
  have hhigh := hexValue?_hexDigit (by omega : n / 16 < 16)
  have hlow := hexValue?_hexDigit (by omega : n % 16 < 16)
  have hzero : hexValue? '0' = some 0 := rfl
  simp only [hex4, hhigh, hlow, hzero, Option.bind_eq_bind, Option.bind_some, Option.pure_def, Option.some.injEq,
    Prod.mk.injEq, and_true]
  omega

/-- One character of a literal is read back. -/
theorem stringBody_escape (c : Char) (n : ℕ) (s : List Char) :
    stringBody (n + 1) (escape c ++ s) = (stringBody n s).map (fun r => (c :: r.1, r.2)) := by
  have hbind : ∀ d : Char, (stringBody n s).bind (fun r => some (d :: r.1, r.2)) =
      (stringBody n s).map (fun r => (d :: r.1, r.2)) := by
    intro d
    cases stringBody n s <;> rfl
  unfold escape
  split_ifs with hquote hslash hn hr ht hb hf hlow
  · rw [hquote]
    exact hbind '"'
  · rw [hslash]
    exact hbind '\\'
  · rw [hn]
    exact hbind '\n'
  · rw [hr]
    exact hbind '\r'
  · rw [ht]
    exact hbind '\t'
  · rw [hb]
    exact hbind _
  · rw [hf]
    exact hbind _
  · -- a control character, by its code
    have hread : escaped ('0' :: '0' :: hexDigit (c.toNat / 16) :: hexDigit (c.toNat % 16) :: s) = some (c, s) := by
      unfold escaped
      rw [hex4_low (by omega)]
      show (if c.toNat < 0xd800 ∨ 0xdfff < c.toNat then some (Char.ofNat c.toNat, s) else _) = some (c, s)
      rw [if_pos (Or.inl (by omega)), Char.ofNat_toNat]
    show (escaped ('0' :: '0' :: hexDigit (c.toNat / 16) :: hexDigit (c.toNat % 16) :: s)).bind _ = _
    rw [hread]
    exact hbind c
  · show stringBody (n + 1) (c :: s) = _
    have hne : ¬ (c.toNat < 32 ∨ c = '\\') := by
      rintro (h | h)
      · exact hlow h
      · exact hslash h
    rw [stringBody]
    · rw [if_neg hne]
      exact hbind c
    · exact hquote
    · intro d t hc
      exact absurd hc hslash

/-- **A string literal is read back.** -/
theorem stringBody_quote : ∀ (s : List Char) {n : ℕ}, s.length < n → ∀ rest : List Char,
    stringBody n (s.flatMap escape ++ '"' :: rest) = some (s, rest)
  | [], n + 1, _, rest => rfl
  | c :: s, n + 1, h, rest => by
    have ih := stringBody_quote s (Nat.lt_of_succ_lt_succ h) rest
    rw [List.flatMap_cons, List.append_assoc, stringBody_escape, ih]
    rfl

theorem length_le_flatMap_escape : ∀ s : List Char, s.length ≤ (s.flatMap escape).length
  | [] => le_rfl
  | c :: s => by
    have hc : 1 ≤ (escape c).length := by
      unfold escape
      split_ifs <;> exact Nat.le_add_left _ _
    have ih := length_le_flatMap_escape s
    rw [List.flatMap_cons, List.length_append, List.length_cons]
    omega

/-! ### Reading a number back -/

/-- A number ends before the rest. -/
def Stops (rest : List Char) : Prop := ∀ c ∈ rest.head?, c.isDigit = false ∧ c ≠ '.' ∧ c ≠ 'e' ∧ c ≠ 'E'

theorem toNat_digitChar {d : ℕ} (h : d < 10) : (digitChar d).toNat = 48 + d := by
  unfold digitChar Char.ofNat
  rw [dif_pos (Or.inl (by omega))]
  rfl

theorem isDigit_digitChar {d : ℕ} (h : d < 10) : (digitChar d).isDigit = true := by
  rw [Char.isDigit_iff_toNat, toNat_digitChar h]
  show 48 ≤ 48 + d ∧ 48 + d ≤ 57
  omega

theorem digitChar_eq_zero {d : ℕ} (h : d < 10) : digitChar d = '0' ↔ d = 0 := by
  have hzero : '0'.toNat = 48 := rfl
  rw [← Char.toNat_inj, toNat_digitChar h, hzero]
  omega

/-- The text of a positive number: its digits, the first one not `0`. -/
theorem natText_pos {n : ℕ} (h : n ≠ 0) :
    ∃ c cs, natText n = c :: cs ∧ c ≠ '0' ∧ ∀ d ∈ c :: cs, d.isDigit = true := by
  unfold natText
  rw [if_neg h]
  have hne : Nat.digits 10 n ≠ [] := Nat.digits_ne_nil_iff_ne_zero.mpr h
  have hlast := Nat.getLast_digit_ne_zero 10 h
  have hlt : ∀ d ∈ Nat.digits 10 n, d < 10 := fun d hd => Nat.digits_lt_base (by omega) hd
  have hall : ∀ c ∈ ((Nat.digits 10 n).map digitChar).reverse, c.isDigit = true := by
    intro c hc
    obtain ⟨d, hd, rfl⟩ := List.mem_map.mp (List.mem_reverse.mp hc)
    exact isDigit_digitChar (hlt d hd)
  rw [← List.dropLast_append_getLast hne, List.map_append, List.reverse_append] at hall ⊢
  refine ⟨_, _, rfl, ?_, hall⟩
  rw [Ne, digitChar_eq_zero (hlt _ (List.getLast_mem hne))]
  exact hlast

theorem isDigit_natText (n : ℕ) : ∀ c ∈ natText n, c.isDigit = true := by
  by_cases hn : n = 0
  · subst hn
    exact List.forall_mem_singleton.mpr rfl
  · obtain ⟨c, cs, htext, -, hdigits⟩ := natText_pos hn
    rw [htext]
    exact hdigits

theorem digits_append {ds rest : List Char} (hds : ∀ d ∈ ds, d.isDigit = true)
    (hrest : ∀ c ∈ rest.head?, c.isDigit = false) : digits (ds ++ rest) = (ds, rest) := by
  have htail : rest.takeWhile Char.isDigit = [] ∧ rest.dropWhile Char.isDigit = rest := by
    cases rest with
    | nil => exact ⟨rfl, rfl⟩
    | cons c rest =>
      have hc : ¬ c.isDigit = true := by
        rw [hrest c rfl]
        exact Bool.false_ne_true
      exact ⟨List.takeWhile_cons_of_neg hc, List.dropWhile_cons_of_neg hc⟩
  unfold digits
  rw [List.takeWhile_append_of_pos hds, List.dropWhile_append_of_pos hds, htail.1, htail.2, List.append_nil]

/-- The whole part of a number, and the rest. -/
def wholePart : List Char → Option (List Char × List Char)
  | '0' :: s => some (['0'], s)
  | s => if (digits s).1.isEmpty then none else some (digits s)

/-- The digits behind the point, and the rest. -/
def fractionPart (s : List Char) : List Char × List Char :=
  match s with
  | '.' :: t => if (digits t).1.isEmpty then ([], s) else digits t
  | _ => ([], s)

/-- What is left behind the exponent. -/
def exponentPart (s : List Char) : List Char :=
  match s with
  | e :: t =>
    let t := ((word ['+'] t).orElse fun _ => word ['-'] t).getD t
    if (e = 'e' ∨ e = 'E') ∧ ¬ (digits t).1.isEmpty then (digits t).2 else s
  | [] => s

/-- What `numeral` does after the whole part. -/
def afterWhole (whole s : List Char) : Json × List Char :=
  (number ((whole ++ (fractionPart s).1).all (· == '0')), exponentPart (fractionPart s).2)

theorem numeral_eq (s : List Char) :
    numeral s = (wholePart ((word ['-'] s).getD s)).bind (fun w => some (afterWhole w.1 w.2)) := by
  have hwhole : ∀ c t, c ≠ '0' → wholePart (c :: t) =
      if (digits (c :: t)).1.isEmpty then none else some (digits (c :: t)) := by
    intro c t hc
    unfold wholePart
    split
    · rename_i heq
      exact absurd (List.cons.inj heq).1 hc
    · rfl
  unfold numeral
  generalize (word ['-'] s).getD s = t
  rcases t with _ | ⟨c, t⟩
  · rfl
  · by_cases hc : c = '0'
    · subst hc
      rfl
    · rw [hwhole c t hc]
      dsimp only
      split
      · rename_i heq
        exact absurd (List.cons.inj heq).1 hc
      · split_ifs <;> rfl

theorem wholePart_natText (n : ℕ) {rest : List Char} (hrest : ∀ c ∈ rest.head?, c.isDigit = false) :
    wholePart (natText n ++ rest) = some (natText n, rest) := by
  by_cases hn : n = 0
  · subst hn
    rfl
  · obtain ⟨c, cs, htext, hzero, hdigits⟩ := natText_pos hn
    rw [htext]
    have hread := digits_append hdigits hrest
    unfold wholePart
    split
    · rename_i s hs
      exact absurd (List.cons.inj hs).1 hzero
    · rw [hread]
      rfl

/-- The text of a number starts with a digit. -/
theorem natText_head (n : ℕ) : ∃ c cs, natText n = c :: cs ∧ c.isDigit = true := by
  by_cases hn : n = 0
  · subst hn
    exact ⟨'0', [], rfl, rfl⟩
  · obtain ⟨c, cs, htext, -, hdigits⟩ := natText_pos hn
    exact ⟨c, cs, htext, hdigits c List.mem_cons_self⟩

/-- The sign and the whole part of a number. -/
theorem numeral_natText (negative : Bool) (n : ℕ) {rest : List Char} (hrest : ∀ c ∈ rest.head?, c.isDigit = false) :
    numeral ((if negative then ['-'] else []) ++ (natText n ++ rest)) = some (afterWhole (natText n) rest) := by
  have hsign : (word ['-'] ((if negative then ['-'] else []) ++ (natText n ++ rest))).getD
      ((if negative then ['-'] else []) ++ (natText n ++ rest)) = natText n ++ rest := by
    obtain ⟨c, cs, htext, hdigit⟩ := natText_head n
    cases negative with
    | true => rfl
    | false =>
      have hminus : '-' ≠ c := by
        rintro rfl
        exact Bool.false_ne_true hdigit
      rw [htext]
      show (if '-' = c then some (cs ++ rest) else none).getD (c :: cs ++ rest) = c :: cs ++ rest
      rw [if_neg hminus]
      rfl
  rw [numeral_eq, hsign, wholePart_natText n hrest]
  rfl

/-- No exponent follows. -/
theorem exponentPart_eq {s : List Char} (h : ∀ c ∈ s.head?, c ≠ 'e' ∧ c ≠ 'E') : exponentPart s = s := by
  cases s with
  | nil => rfl
  | cons e t =>
    obtain ⟨he, hE⟩ := h e rfl
    exact if_neg (fun hexp => hexp.1.elim he hE)

theorem afterWhole_whole (whole : List Char) {rest : List Char} (h : Stops rest) :
    afterWhole whole rest = (number (whole.all (· == '0')), rest) := by
  have hfraction : fractionPart rest = ([], rest) := by
    unfold fractionPart
    split
    · exact absurd rfl (h '.' rfl).2.1
    · rfl
  unfold afterWhole
  rw [hfraction, exponentPart_eq (fun c hc => (h c hc).2.2), List.append_nil]

theorem afterWhole_fraction (whole ds : List Char) {rest : List Char} (hne : ds ≠ [])
    (hds : ∀ d ∈ ds, d.isDigit = true) (h : Stops rest) :
    afterWhole whole ('.' :: (ds ++ rest)) = (number ((whole ++ ds).all (· == '0')), rest) := by
  have hread := digits_append hds (fun c hc => (h c hc).1)
  have hfraction : fractionPart ('.' :: (ds ++ rest)) = (ds, rest) := by
    have hempty : ¬ ds.isEmpty = true := by
      rw [List.isEmpty_iff]
      exact hne
    show (if (digits (ds ++ rest)).1.isEmpty then _ else digits (ds ++ rest)) = _
    rw [hread]
    exact if_neg hempty
  unfold afterWhole
  rw [hfraction, exponentPart_eq (fun c hc => (h c hc).2.2)]

theorem natText_all_zero (n : ℕ) : (natText n).all (· == '0') = decide (n = 0) := by
  by_cases hn : n = 0
  · subst hn
    rfl
  · obtain ⟨c, cs, htext, hzero, -⟩ := natText_pos hn
    rw [htext, List.all_cons, beq_eq_false_iff_ne.mpr hzero, Bool.false_and, decide_eq_false hn]

theorem digits_all_zero (ds : List (Fin 10)) :
    (fractionText ds).all (· == '0') = decide (∀ d ∈ ds, d = 0) := by
  unfold fractionText
  rw [Bool.eq_iff_iff, decide_eq_true_iff, List.all_map, List.all_eq_true]
  refine forall₂_congr fun d _ => ?_
  rw [Function.comp_apply, beq_iff_eq, digitChar_eq_zero d.isLt]
  exact Fin.val_eq_zero_iff

/-- **A number is read back.** -/
theorem numeral_int (n : ℤ) {rest : List Char} (h : Stops rest) :
    numeral (intText n ++ rest) = some (number (n = 0), rest) := by
  have htext : intText n ++ rest = (if n < 0 then ['-'] else []) ++ (natText n.natAbs ++ rest) := by
    unfold intText
    split_ifs <;> rfl
  have hread := numeral_natText (decide (n < 0)) n.natAbs (fun c hc => (h c hc).1)
  simp only [decide_eq_true_eq] at hread
  rw [htext, hread, afterWhole_whole _ h, natText_all_zero]
  simp only [Int.natAbs_eq_zero]

theorem isDigit_fractionText (ds : List (Fin 10)) : ∀ c ∈ fractionText ds, c.isDigit = true := by
  intro c hc
  obtain ⟨d, -, rfl⟩ := List.mem_map.mp hc
  exact isDigit_digitChar d.isLt

theorem numeral_decimal (negative : Bool) (whole : ℕ) (tenths : Fin 10) (more : List (Fin 10)) {rest : List Char}
    (h : Stops rest) :
    numeral ((if negative then ['-'] else []) ++ (natText whole ++ '.' :: (fractionText (tenths :: more) ++ rest))) =
      some (number (whole = 0 ∧ ∀ d ∈ tenths :: more, d = 0), rest) := by
  have hdot : ∀ c ∈ ('.' :: (fractionText (tenths :: more) ++ rest)).head?, c.isDigit = false := by
    rintro c ⟨⟩
    rfl
  rw [numeral_natText negative whole hdot,
    afterWhole_fraction _ (fractionText (tenths :: more)) (List.cons_ne_nil _ _) (isDigit_fractionText _) h, List.all_append,
    natText_all_zero, digits_all_zero, Bool.decide_and]

/-! ### Reading a value back -/

/-- A text that starts with a digit, or with a minus and a digit, is read as a number. -/
theorem value_numeral (n : ℕ) {c : Char} (negative : Bool) (s : List Char) (h : c.isDigit = true) :
    value (n + 1) ((if negative then ['-'] else []) ++ c :: s) =
      numeral ((if negative then ['-'] else []) ++ c :: s) := by
  have hne : ∀ d : Char, d.isDigit = false → d ≠ c := by
    rintro d hd rfl
    rw [h] at hd
    cases hd
  have hword : ∀ d w, d.isDigit = false → word (d :: w) (c :: s) = none := fun d w hd => if_neg (hne d hd)
  cases negative with
  | true =>
    have hminus : word ['-', 'I', 'n', 'f', 'i', 'n', 'i', 't', 'y'] ('-' :: c :: s) = none :=
      hword 'I' ['n', 'f', 'i', 'n', 'i', 't', 'y'] rfl
    show value (n + 1) ('-' :: c :: s) = numeral ('-' :: c :: s)
    rw [value, hminus]
    · rfl
    all_goals simp
  | false =>
    show value (n + 1) (c :: s) = numeral (c :: s)
    rw [value, hword 'n' _ rfl, hword 't' _ rfl, hword 'f' _ rfl, hword 'N' _ rfl, hword 'I' _ rfl, hword '-' _ rfl]
    · rfl
    · intro t ht
      exact hne '"' rfl (List.cons.inj ht).1.symm
    · intro t ht
      exact hne '[' rfl (List.cons.inj ht).1.symm
    · intro t ht
      exact hne '{' rfl (List.cons.inj ht).1.symm

theorem skipBlanks_append {blanks : List Char} (h : blanks.all isBlank = true) (s : List Char) :
    skipBlanks (blanks ++ s) = skipBlanks s :=
  List.dropWhile_append_of_pos (List.all_eq_true.mp h)

theorem skipBlanks_cons {c : Char} (h : isBlank c = false) (s : List Char) : skipBlanks (c :: s) = c :: s :=
  List.dropWhile_cons_of_neg (by rw [h]; exact Bool.false_ne_true)

theorem isBlank_of_isDigit {c : Char} (h : c.isDigit = true) : isBlank c = false ∧ c ≠ ']' := by
  refine ⟨?_, ?_⟩
  · unfold isBlank
    simp only [Bool.or_eq_false_iff, beq_eq_false_iff_ne]
    refine ⟨⟨⟨?_, ?_⟩, ?_⟩, ?_⟩ <;> rintro rfl <;> cases h
  · rintro rfl
    cases h

theorem intText_eq (n : ℤ) : intText n = (if decide (n < 0) then ['-'] else []) ++ natText n.natAbs := by
  unfold intText
  simp only [decide_eq_true_eq]
  split_ifs <;> rfl

/-- The text of a value starts with no blank, and with no closing bracket. -/
theorem text_head (l : Layout) (d : Doc) : ∃ c cs, d.text l = c :: cs ∧ isBlank c = false ∧ c ≠ ']' := by
  have hnumber : ∀ (negative : Bool) (n : ℕ) (s : List Char),
      ∃ c cs, (if negative then ['-'] else []) ++ (natText n ++ s) = c :: cs ∧ isBlank c = false ∧ c ≠ ']' := by
    intro negative n s
    obtain ⟨c, cs, htext, hdigit⟩ := natText_head n
    cases negative with
    | true => exact ⟨'-', natText n ++ s, rfl, rfl, by decide⟩
    | false =>
      rw [htext]
      exact ⟨c, cs ++ s, rfl, isBlank_of_isDigit hdigit⟩
  cases d with
  | null => exact ⟨_, _, rfl, rfl, by decide⟩
  | bool b => cases b <;> exact ⟨_, _, rfl, rfl, by decide⟩
  | int n =>
    obtain ⟨c, cs, heq, hc⟩ := hnumber (decide (n < 0)) n.natAbs []
    rw [List.append_nil, ← intText_eq] at heq
    exact ⟨c, cs, heq, hc⟩
  | decimal negative whole tenths more => exact hnumber negative whole _
  | string s => exact ⟨_, _, rfl, rfl, by decide⟩
  | array items => exact ⟨_, _, rfl, rfl, by decide⟩
  | object members => exact ⟨_, _, rfl, rfl, by decide⟩

theorem stops_cons {c : Char} (h : c.isDigit = false ∧ c ≠ '.' ∧ c ≠ 'e' ∧ c ≠ 'E') (s : List Char) :
    Stops (c :: s) := by
  rintro d ⟨⟩
  exact h

/-- A name and the colon behind it. -/
theorem members_name (l : Layout) (name s : List Char) {n : ℕ} (h : name.length < n) :
    members (n + 1) (quote name ++ ':' :: (l.colon ++ s)) =
      (value n (skipBlanks s)).bind (fun r =>
        match skipBlanks r.2 with
        | '}' :: s => some ([(name, r.1)], s)
        | ',' :: s => (members n (skipBlanks s)).bind (fun q => some ((name, r.1) :: q.1, q.2))
        | _ => none) := by
  have hquote : quote name ++ ':' :: (l.colon ++ s) =
      '"' :: (name.flatMap escape ++ '"' :: ':' :: (l.colon ++ s)) := by
    unfold quote
    simp
  have hcolon : word [':'] (skipBlanks (':' :: (l.colon ++ s))) = some (l.colon ++ s) := by
    rw [skipBlanks_cons rfl]
    rfl
  rw [hquote, members]
  simp only [word, if_true, Option.bind_eq_bind, Option.bind_some, stringBody_quote name h]
  show (word [':'] (skipBlanks (':' :: (l.colon ++ s)))).bind _ = _
  rw [hcolon, Option.bind_some, skipBlanks_append l.colon_blank]
  rfl

mutual

/-- **A value is read back**, whatever comes behind it. -/
theorem value_text (l : Layout) : ∀ (d : Doc) (n : ℕ) (rest : List Char), (d.text l).length ≤ n → Stops rest →
    value n (d.text l ++ rest) = some (d.toJson, rest)
  | d, 0, rest, h, _ => by
    obtain ⟨c, cs, htext, -⟩ := text_head l d
    rw [htext] at h
    cases h
  | .null, n + 1, rest, _, _ => rfl
  | .bool true, n + 1, rest, _, _ => rfl
  | .bool false, n + 1, rest, _, _ => rfl
  | .int k, n + 1, rest, _, hrest => by
    obtain ⟨c, cs, htext, hdigit⟩ := natText_head k.natAbs
    have hread := numeral_int k hrest
    show value (n + 1) (intText k ++ rest) = _
    rw [intText_eq, htext, List.append_assoc] at hread ⊢
    rw [List.cons_append] at hread ⊢
    rw [value_numeral n _ _ hdigit, hread]
    rfl
  | .decimal negative whole tenths more, n + 1, rest, _, hrest => by
    obtain ⟨c, cs, htext, hdigit⟩ := natText_head whole
    have hread := numeral_decimal negative whole tenths more hrest
    show value (n + 1) (((if negative then ['-'] else []) ++ (natText whole ++ '.' :: fractionText (tenths :: more))) ++
      rest) = _
    rw [List.append_assoc, List.append_assoc, List.cons_append]
    rw [htext, List.cons_append] at hread ⊢
    rw [value_numeral n _ _ hdigit, hread]
    rfl
  | .string s, n + 1, rest, h, _ => by
    have hlen : s.length < n := by
      have hesc := length_le_flatMap_escape s
      have h' : (quote s).length ≤ n + 1 := h
      unfold quote at h'
      rw [List.length_cons, List.length_append, List.length_singleton] at h'
      omega
    show (stringBody n ((s.flatMap escape ++ ['"']) ++ rest)).map _ = _
    rw [List.append_assoc]
    show (stringBody n (s.flatMap escape ++ '"' :: rest)).map _ = _
    rw [stringBody_quote s hlen]
    rfl
  | .array [], n + 1, rest, _, _ => rfl
  | .array (d :: ds), n + 1, rest, h, _ => by
    obtain ⟨c, cs, htext, hblank, hbracket⟩ := text_head l d
    have hstart : ∃ t, itemsText l (d :: ds) = c :: t := by
      cases ds with
      | nil => exact ⟨cs, htext⟩
      | cons d' ds => exact ⟨_, congrArg (· ++ _) htext⟩
    obtain ⟨t, ht⟩ := hstart
    have hlen : (itemsText l (d :: ds)).length + 1 ≤ n := by
      have h' : ('[' :: (itemsText l (d :: ds) ++ [']'])).length ≤ n + 1 := h
      rw [List.length_cons, List.length_append, List.length_singleton] at h'
      omega
    have hitems := items_text l d ds n rest hlen
    show value (n + 1) ('[' :: ((itemsText l (d :: ds) ++ [']']) ++ rest)) = _
    rw [List.append_assoc, value]
    show (match skipBlanks (itemsText l (d :: ds) ++ ']' :: rest) with
      | ']' :: s => some (array [], s)
      | s => (items n s).map (fun r : List Json × List Char => (array r.1, r.2))) = _
    rw [ht] at hitems ⊢
    rw [List.cons_append, skipBlanks_cons hblank]
    rw [List.cons_append] at hitems
    split
    · rename_i s heq
      exact absurd (List.cons.inj heq).1 hbracket
    · rw [hitems]
      rfl
  | .object [], n + 1, rest, _, _ => rfl
  | .object ((name, d) :: ms), n + 1, rest, h, _ => by
    have hlen : (membersText l ((name, d) :: ms)).length + 1 ≤ n := by
      have h' : ('{' :: (membersText l ((name, d) :: ms) ++ ['}'])).length ≤ n + 1 := h
      rw [List.length_cons, List.length_append, List.length_singleton] at h'
      omega
    have hmembers := members_text l name d ms n rest hlen
    have hstart : ∃ t, membersText l ((name, d) :: ms) = '"' :: t := by
      cases ms with
      | nil => exact ⟨_, rfl⟩
      | cons m ms => exact ⟨_, rfl⟩
    obtain ⟨t, ht⟩ := hstart
    show value (n + 1) ('{' :: ((membersText l ((name, d) :: ms) ++ ['}']) ++ rest)) = _
    rw [List.append_assoc, value]
    show (match skipBlanks (membersText l ((name, d) :: ms) ++ '}' :: rest) with
      | '}' :: s => some (object [], s)
      | s => (members n s).map (fun r : List (List Char × Json) × List Char => (object r.1, r.2))) = _
    rw [ht] at hmembers ⊢
    rw [List.cons_append, skipBlanks_cons rfl]
    rw [List.cons_append] at hmembers
    show (members n _).map _ = _
    rw [hmembers]
    rfl

theorem items_text (l : Layout) : ∀ (d : Doc) (ds : List Doc) (n : ℕ) (rest : List Char),
    (itemsText l (d :: ds)).length + 1 ≤ n →
    items n (itemsText l (d :: ds) ++ ']' :: rest) = some (itemsJson (d :: ds), rest)
  | d, [], n + 1, rest, h => by
    have hvalue := value_text l d n (']' :: rest) (Nat.le_of_succ_le_succ h) (stops_cons (by decide) rest)
    show items (n + 1) (d.text l ++ ']' :: rest) = _
    rw [items, hvalue]
    rfl
  | d, d' :: ds, n + 1, rest, h => by
    obtain ⟨c, cs, htext, hblank, -⟩ := text_head l d'
    have hstart : ∃ t, itemsText l (d' :: ds) = c :: t := by
      cases ds with
      | nil => exact ⟨cs, htext⟩
      | cons d'' ds => exact ⟨_, congrArg (· ++ _) htext⟩
    obtain ⟨t, ht⟩ := hstart
    have hlen : (d.text l ++ ',' :: (l.comma ++ itemsText l (d' :: ds))).length + 1 ≤ n + 1 := h
    rw [List.length_append, List.length_cons, List.length_append] at hlen
    have hvalue := value_text l d n (',' :: (l.comma ++ (itemsText l (d' :: ds) ++ ']' :: rest))) (by omega)
      (stops_cons (by decide) _)
    have hitems := items_text l d' ds n rest (by omega)
    show items (n + 1) ((d.text l ++ ',' :: (l.comma ++ itemsText l (d' :: ds))) ++ ']' :: rest) = _
    rw [List.append_assoc, List.cons_append, List.append_assoc, items, hvalue]
    show (items n (skipBlanks (l.comma ++ (itemsText l (d' :: ds) ++ ']' :: rest)))).bind _ = _
    rw [skipBlanks_append l.comma_blank]
    rw [ht] at hitems ⊢
    rw [List.cons_append, skipBlanks_cons hblank]
    rw [List.cons_append] at hitems
    rw [hitems]
    rfl

theorem members_text (l : Layout) : ∀ (name : List Char) (d : Doc) (ms : List (List Char × Doc)) (n : ℕ)
    (rest : List Char), (membersText l ((name, d) :: ms)).length + 1 ≤ n →
    members n (membersText l ((name, d) :: ms) ++ '}' :: rest) = some (membersJson ((name, d) :: ms), rest)
  | name, d, [], n + 1, rest, h => by
    have hlen : (quote name ++ ':' :: (l.colon ++ d.text l)).length + 1 ≤ n + 1 := h
    have hesc := length_le_flatMap_escape name
    unfold quote at hlen
    simp only [List.length_append, List.length_cons] at hlen
    obtain ⟨c, cs, htext, hblank, -⟩ := text_head l d
    have hvalue := value_text l d n ('}' :: rest) (by omega) (stops_cons (by decide) rest)
    show members (n + 1) ((quote name ++ ':' :: (l.colon ++ d.text l)) ++ '}' :: rest) = _
    rw [List.append_assoc, List.cons_append, List.append_assoc, members_name l name _ (by omega)]
    rw [htext] at hvalue ⊢
    rw [List.cons_append, skipBlanks_cons hblank]
    rw [List.cons_append] at hvalue
    rw [hvalue]
    rfl
  | name, d, (name', d') :: ms, n + 1, rest, h => by
    have hlen : (quote name ++ ':' :: (l.colon ++ (d.text l ++ ',' ::
      (l.comma ++ membersText l ((name', d') :: ms))))).length + 1 ≤ n + 1 := h
    have hesc := length_le_flatMap_escape name
    unfold quote at hlen
    simp only [List.length_append, List.length_cons] at hlen
    obtain ⟨c, cs, htext, hblank, -⟩ := text_head l d
    have hstart : ∃ t, membersText l ((name', d') :: ms) = '"' :: t := by
      cases ms with
      | nil => exact ⟨_, rfl⟩
      | cons m ms => exact ⟨_, rfl⟩
    obtain ⟨t, ht⟩ := hstart
    have hvalue := value_text l d n (',' :: (l.comma ++ (membersText l ((name', d') :: ms) ++ '}' :: rest)))
      (by omega) (stops_cons (by decide) _)
    have hmembers := members_text l name' d' ms n rest (by omega)
    show members (n + 1) ((quote name ++ ':' :: (l.colon ++ (d.text l ++ ',' ::
      (l.comma ++ membersText l ((name', d') :: ms))))) ++ '}' :: rest) = _
    rw [List.append_assoc, List.cons_append, List.append_assoc, List.append_assoc, List.cons_append,
      List.append_assoc, members_name l name _ (by omega)]
    rw [htext] at hvalue ⊢
    rw [List.cons_append, skipBlanks_cons hblank]
    rw [List.cons_append] at hvalue
    rw [hvalue]
    show (members n (skipBlanks (l.comma ++ (membersText l ((name', d') :: ms) ++ '}' :: rest)))).bind _ = _
    rw [skipBlanks_append l.comma_blank]
    rw [ht] at hmembers ⊢
    rw [List.cons_append, skipBlanks_cons rfl]
    rw [List.cons_append] at hmembers
    rw [hmembers]
    rfl

end

/-- What is written is read back, with blanks behind it, too. -/
theorem loads_text_blanks (l : Layout) (d : Doc) {blanks : List Char} (h : blanks.all isBlank = true) :
    loads (d.text l ++ blanks) = some d.toJson := by
  obtain ⟨c, cs, htext, hblank, -⟩ := text_head l d
  have hstops : Stops blanks := by
    intro c hc
    have hc' := List.all_eq_true.mp h c (List.mem_of_mem_head? hc)
    simp only [isBlank, Bool.or_eq_true, beq_iff_eq] at hc'
    rcases hc' with ((rfl | rfl) | rfl) | rfl <;> decide
  have hvalue := value_text l d ((d.text l ++ blanks).length + 1) blanks
    (by rw [List.length_append]; omega) hstops
  have hskip : skipBlanks (d.text l ++ blanks) = d.text l ++ blanks := by
    rw [htext]
    exact skipBlanks_cons hblank (cs ++ blanks)
  have hrest : skipBlanks blanks = [] := by
    have hblanks := skipBlanks_append h []
    rwa [List.append_nil] at hblanks
  unfold loads
  rw [hskip, hvalue]
  show (if (skipBlanks blanks).isEmpty then some d.toJson else none) = _
  rw [hrest]
  rfl

/-- **What is written is read back.** -/
theorem loads_text (l : Layout) (d : Doc) : loads (d.text l) = some d.toJson := by
  have hread := loads_text_blanks l d (List.all_nil (f := isBlank))
  rwa [List.append_nil] at hread

/-- A numeral is that of one number. -/
theorem natText_injective : Function.Injective natText := by
  have hdigit : ∀ d < 10, (digitChar d).toNat - 48 = d := by
    intro d hd
    rw [toNat_digitChar hd]
    omega
  have hvalue : ∀ n, Nat.ofDigits 10 ((natText n).reverse.map (fun c => c.toNat - 48)) = n := by
    intro n
    unfold natText
    split_ifs with h
    · rw [h]
      rfl
    · rw [List.reverse_reverse, List.map_map]
      have hmap : (Nat.digits 10 n).map ((fun c : Char => c.toNat - 48) ∘ digitChar) = Nat.digits 10 n := by
        conv_rhs => rw [← List.map_id (Nat.digits 10 n)]
        exact List.map_congr_left (fun d hd => hdigit d (Nat.digits_lt_base (by norm_num) hd))
      rw [hmap]
      exact Nat.ofDigits_digits 10 n
  intro n m h
  rw [← hvalue n, h, hvalue m]

/-! ### The members of an object -/

theorem membersJson_eq (ms : List (List Char × Doc)) : membersJson ms = ms.map (fun m => (m.1, m.2.toJson)) := by
  induction ms with
  | nil => rfl
  | cons m ms ih =>
    obtain ⟨name, d⟩ := m
    rw [membersJson, ih]
    rfl

/-- The only value of a name. -/
theorem member_of_unique {name : List Char} {v : Json} {ms : List (List Char × Json)} (hin : (name, v) ∈ ms)
    (hunique : ∀ m ∈ ms, m.1 = name → m.2 = v) : member name ms = some v := by
  unfold member
  cases hfind : ms.reverse.find? (fun m => m.1 == name) with
  | none =>
    rw [List.find?_eq_none] at hfind
    exact absurd (beq_self_eq_true name) (hfind _ (List.mem_reverse.mpr hin))
  | some m =>
    have htest : (m.1 == name) = true := by simpa using List.find?_some hfind
    have hname : m.1 = name := beq_iff_eq.mp htest
    exact congrArg some (hunique m (List.mem_reverse.mp (List.mem_of_find?_eq_some hfind)) hname)

theorem member_eq_none {name : List Char} {ms : List (List Char × Json)} (h : ∀ m ∈ ms, m.1 ≠ name) :
    member name ms = none := by
  unfold member
  rw [Option.map_eq_none_iff, List.find?_eq_none]
  intro m hm heq
  exact h m (List.mem_reverse.mp hm) (beq_iff_eq.mp heq)

/-! ### No character below the space is written -/

section NoC0

/-- None of the characters U+0000 to U+001F: no line feed, no tabulator. -/
def NoC0 (s : List Char) : Prop := ∀ c ∈ s, 32 ≤ c.toNat

theorem noC0_append {s t : List Char} : NoC0 (s ++ t) ↔ NoC0 s ∧ NoC0 t :=
  List.forall_mem_append

theorem noC0_cons {c : Char} {s : List Char} : NoC0 (c :: s) ↔ 32 ≤ c.toNat ∧ NoC0 s :=
  List.forall_mem_cons

theorem noC0_nil : NoC0 [] := List.forall_mem_nil _

/-- A given text is checked character by character. -/
theorem noC0_of_all {s : List Char} (h : s.all (fun c => 32 ≤ c.toNat) = true) : NoC0 s := by
  intro c hc
  exact of_decide_eq_true (List.all_eq_true.mp h c hc)

theorem noC0_escape (c : Char) : NoC0 (escape c) := by
  have hhex : ∀ n, n < 16 → 32 ≤ (hexDigit n).toNat := by
    intro n hn
    rw [toNat_hexDigit hn]
    split_ifs <;> omega
  unfold escape
  split_ifs with _ _ _ _ _ _ _ hlow
  · exact noC0_of_all rfl
  · exact noC0_of_all rfl
  · exact noC0_of_all rfl
  · exact noC0_of_all rfl
  · exact noC0_of_all rfl
  · exact noC0_of_all rfl
  · exact noC0_of_all rfl
  · have hdigits : NoC0 [hexDigit (c.toNat / 16), hexDigit (c.toNat % 16)] :=
      noC0_cons.mpr ⟨hhex _ (by omega), noC0_cons.mpr ⟨hhex _ (by omega), noC0_nil⟩⟩
    have hu : NoC0 ['\\', 'u', '0', '0'] := noC0_of_all rfl
    exact noC0_append.mpr ⟨hu, hdigits⟩
  · exact noC0_cons.mpr ⟨not_lt.mp hlow, noC0_nil⟩

theorem noC0_quote (s : List Char) : NoC0 (quote s) := by
  refine noC0_cons.mpr ⟨by decide, noC0_append.mpr ⟨?_, noC0_cons.mpr ⟨by decide, noC0_nil⟩⟩⟩
  intro c hc
  obtain ⟨d, -, hd⟩ := List.mem_flatMap.mp hc
  exact noC0_escape d c hd

theorem noC0_of_isDigit {s : List Char} (h : ∀ c ∈ s, c.isDigit = true) : NoC0 s := by
  intro c hc
  have hdigit : 48 ≤ c.toNat ∧ c.toNat ≤ 57 := Char.isDigit_iff_toNat.mp (h c hc)
  omega

theorem noC0_natText (n : ℕ) : NoC0 (natText n) := noC0_of_isDigit (isDigit_natText n)

theorem noC0_sign (negative : Bool) {s : List Char} (h : NoC0 s) :
    NoC0 ((if negative then ['-'] else []) ++ s) := by
  cases negative with
  | true => exact noC0_cons.mpr ⟨by decide, h⟩
  | false => exact h

variable {l : Layout}

mutual

theorem noC0_text (hcomma : NoC0 l.comma) (hcolon : NoC0 l.colon) : ∀ d : Doc, NoC0 (d.text l)
  | .null => noC0_of_all rfl
  | .bool true => noC0_of_all rfl
  | .bool false => noC0_of_all rfl
  | .int n => by
    show NoC0 (intText n)
    rw [intText_eq]
    exact noC0_sign _ (noC0_natText _)
  | .decimal negative whole tenths more =>
    noC0_sign negative (noC0_append.mpr ⟨noC0_natText whole,
      noC0_cons.mpr ⟨by decide, noC0_of_isDigit (isDigit_fractionText (tenths :: more))⟩⟩)
  | .string s => noC0_quote s
  | .array items => noC0_cons.mpr ⟨by decide, noC0_append.mpr
      ⟨noC0_items hcomma hcolon items, noC0_cons.mpr ⟨by decide, noC0_nil⟩⟩⟩
  | .object members => noC0_cons.mpr ⟨by decide, noC0_append.mpr
      ⟨noC0_members hcomma hcolon members, noC0_cons.mpr ⟨by decide, noC0_nil⟩⟩⟩

theorem noC0_items (hcomma : NoC0 l.comma) (hcolon : NoC0 l.colon) :
    ∀ ds : List Doc, NoC0 (itemsText l ds)
  | [] => noC0_nil
  | [d] => noC0_text hcomma hcolon d
  | d :: d' :: ds => noC0_append.mpr ⟨noC0_text hcomma hcolon d, noC0_cons.mpr ⟨by decide,
      noC0_append.mpr ⟨hcomma, noC0_items hcomma hcolon (d' :: ds)⟩⟩⟩

theorem noC0_members (hcomma : NoC0 l.comma) (hcolon : NoC0 l.colon) :
    ∀ ms : List (List Char × Doc), NoC0 (membersText l ms)
  | [] => noC0_nil
  | [(name, d)] => noC0_append.mpr ⟨noC0_quote name, noC0_cons.mpr ⟨by decide,
      noC0_append.mpr ⟨hcolon, noC0_text hcomma hcolon d⟩⟩⟩
  | (name, d) :: m :: ms => noC0_append.mpr ⟨noC0_quote name, noC0_cons.mpr ⟨by decide,
      noC0_append.mpr ⟨hcolon, noC0_append.mpr ⟨noC0_text hcomma hcolon d, noC0_cons.mpr
        ⟨by decide, noC0_append.mpr ⟨hcomma, noC0_members hcomma hcolon (m :: ms)⟩⟩⟩⟩⟩⟩

end

end NoC0

end Json
