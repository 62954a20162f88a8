import Mathlib.Data.Nat.Notation

/-!
# PdMasking.Lib.Json — JSON values and texts

`Json` is a value as a program sees it; of a number it keeps only whether it is zero.  `Json.loads` reads a text by
the grammar of RFC 8259, with `NaN` and `Infinity`, and none for a text that is not JSON.
-/

inductive Json
  | null
  | bool (b : Bool)
  | number (zero : Bool)
  | string (s : List Char)
  | array (items : List Json)
  | object (members : List (List Char × Json))

namespace Json

/-- The value counts as true. -/
def truthy : Json → Bool
  | null => false
  | bool b => b
  | number zero => !zero
  | string s => !s.isEmpty
  | array items => !items.isEmpty
  | object members => !members.isEmpty

/-- The value of a name; of several members with the name the last one counts. -/
def member (name : List Char) (members : List (List Char × Json)) : Option Json :=
  (members.reverse.find? (fun m => m.1 == name)).map Prod.snd

/-! ### Reading -/

def isBlank (c : Char) : Bool := c == ' ' || c == '\t' || c == '\n' || c == '\r'

def skipBlanks (s : List Char) : List Char := s.dropWhile isBlank

/-- The rest behind a given word. -/
def word : List Char → List Char → Option (List Char)
  | [], s => some s
  | c :: w, d :: s => if c = d then word w s else none
  | _ :: _, [] => none

def hexValue? (c : Char) : Option ℕ :=
  if c.isDigit then some (c.toNat - '0'.toNat)
  else if 'a' ≤ c ∧ c ≤ 'f' then some (c.toNat - 'a'.toNat + 10)
  else if 'A' ≤ c ∧ c ≤ 'F' then some (c.toNat - 'A'.toNat + 10)
  else none

/-- The code of four hexadecimal digits. -/
def hex4 : List Char → Option (ℕ × List Char)
  | a :: b :: c :: d :: s => do
    let (a, b, c, d) := (← hexValue? a, ← hexValue? b, ← hexValue? c, ← hexValue? d)
    return (4096 * a + 256 * b + 16 * c + d, s)
  | _ => none

/-- The character of `\uXXXX`, or of two of them that are a surrogate pair; a single surrogate is no character. -/
def escaped (s : List Char) : Option (Char × List Char) := do
  let (high, s) ← hex4 s
  if high < 0xd800 ∨ 0xdfff < high then return (Char.ofNat high, s)
  let s ← word ['\\', 'u'] s
  let (low, s) ← hex4 s
  if high < 0xdc00 ∧ 0xdc00 ≤ low ∧ low ≤ 0xdfff then
    return (Char.ofNat (0x10000 + 1024 * (high - 0xd800) + (low - 0xdc00)), s)
  none

/-- The characters up to the closing quote, and the rest. -/
def stringBody : ℕ → List Char → Option (List Char × List Char)
  | 0, _ => none
  | _, [] => none
  | _ + 1, '"' :: s => some ([], s)
  | n + 1, '\\' :: c :: s => do
    let (d, s) ←
      match c with
      | '"' | '\\' | '/' => some (c, s)
      | 'b' => some (Char.ofNat 8, s)
      | 'f' => some (Char.ofNat 12, s)
      | 'n' => some ('\n', s)
      | 'r' => some ('\r', s)
      | 't' => some ('\t', s)
      | 'u' => escaped s
      | _ => none
    let (text, s) ← stringBody n s
    return (d :: text, s)
  | n + 1, c :: s => do
    if c.toNat < 32 ∨ c = '\\' then none
    let (text, s) ← stringBody n s
    return (c :: text, s)

/-- The digits at the start, and the rest. -/
def digits (s : List Char) : List Char × List Char := (s.takeWhile Char.isDigit, s.dropWhile Char.isDigit)

/-- `-?(?:0|[1-9][0-9]*)(\.[0-9]+)?([eE][-+]?[0-9]+)?` -/
def numeral (s : List Char) : Option (Json × List Char) := do
  let s := (word ['-'] s).getD s
  let (whole, s) ←
    match s with
    | '0' :: s => some (['0'], s)
    | _ => if (digits s).1.isEmpty then none else some (digits s)
  let (fraction, s) :=
    match s with
    | '.' :: t => if (digits t).1.isEmpty then ([], s) else digits t
    | _ => ([], s)
  let s :=
    match s with
    | e :: t =>
      let t := ((word ['+'] t).orElse fun _ => word ['-'] t).getD t
      if (e = 'e' ∨ e = 'E') ∧ ¬ (digits t).1.isEmpty then (digits t).2 else s
    | [] => s
  return (number ((whole ++ fraction).all (· == '0')), s)

mutual

/-- A value, and the rest; `n` bounds the length of the text. -/
def value : ℕ → List Char → Option (Json × List Char)
  | 0, _ => none
  | n + 1, s =>
    match s with
    | '"' :: s => (stringBody n s).map (fun r => (string r.1, r.2))
    | '[' :: s =>
      match skipBlanks s with
      | ']' :: s => some (array [], s)
      | s => (items n s).map (fun r => (array r.1, r.2))
    | '{' :: s =>
      match skipBlanks s with
      | '}' :: s => some (object [], s)
      | s => (members n s).map (fun r => (object r.1, r.2))
    | s =>
      ((word ['n', 'u', 'l', 'l'] s).map (fun s => (null, s))).orElse fun _ =>
      ((word ['t', 'r', 'u', 'e'] s).map (fun s => (bool true, s))).orElse fun _ =>
      ((word ['f', 'a', 'l', 's', 'e'] s).map (fun s => (bool false, s))).orElse fun _ =>
      ((word ['N', 'a', 'N'] s).map (fun s => (number false, s))).orElse fun _ =>
      ((word ['I', 'n', 'f', 'i', 'n', 'i', 't', 'y'] s).map (fun s => (number false, s))).orElse fun _ =>
      ((word ['-', 'I', 'n', 'f', 'i', 'n', 'i', 't', 'y'] s).map (fun s => (number false, s))).orElse fun _ =>
      numeral s

/-- The items of an array from one of them on. -/
def items : ℕ → List Char → Option (List Json × List Char)
  | 0, _ => none
  | n + 1, s => do
    let (item, s) ← value n s
    match skipBlanks s with
    | ']' :: s => return ([item], s)
    | ',' :: s =>
      let (rest, s) ← items n (skipBlanks s)
      return (item :: rest, s)
    | _ => none

/-- The members of an object from one of them on. -/
def members : ℕ → List Char → Option (List (List Char × Json) × List Char)
  | 0, _ => none
  | n + 1, s => do
    let s ← word ['"'] s
    let (name, s) ← stringBody n s
    let s ← word [':'] (skipBlanks s)
    let (item, s) ← value n (skipBlanks s)
    match skipBlanks s with
    | '}' :: s => return ([(name, item)], s)
    | ',' :: s =>
      let (rest, s) ← members n (skipBlanks s)
      return ((name, item) :: rest, s)
    | _ => none

end

/-- The value of a text that is JSON. -/
def loads (s : List Char) : Option Json := do
  let (v, rest) ← value (s.length + 1) (skipBlanks s)
  if (skipBlanks rest).isEmpty then some v else none

end Json
