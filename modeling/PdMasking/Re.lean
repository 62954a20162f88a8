import PdMasking.Lib.Pattern
import PdMasking.Python

/-!
# PdMasking.Re — the patterns of the source and what they match (`re.compile`)

`re fold s` is the pattern that `re.compile(s)` makes of the source text `s`, with `re.IGNORECASE` for
`fold = true`; a text that is not a pattern of the supported syntax is no argument of `re`.  `CharSet.test` is
the meaning of a character class in an interpreter `R`.

The syntax is what the detectors use: classes, groups, alternatives, greedy and lazy quantifiers, look-ahead,
look-behind of a fixed width, back references, `^`, `$`, `\b` and `(?i: )`, `(?-i: )`.
-/

namespace PdMasking

/-- The characters of a string literal. -/
def chars (s : String) {l : List Char} (_h : s = String.ofList l := by exact rfl) : Str := l

/-! ### Character classes -/

/-- A member of a class: a range of characters, `\d`, `\w` or `\s`. -/
inductive Item
  | range (a b : Char)
  | digit
  | word
  | space
  deriving DecidableEq

/-- A class `[...]` or `[^...]`, with or without regard to case. -/
structure CharSet where
  negated : Bool
  items : List Item
  fold : Bool
  deriving DecidableEq

/-- The characters of a range. -/
def charsBetween (a b : Char) : List Char := (List.range' a.toNat (b.toNat + 1 - a.toNat)).map Char.ofNat

def Item.test (R : Runtime) (fold : Bool) (item : Item) (c : Char) : Bool :=
  match item with
  | range a b => (a ≤ c && c ≤ b) || (fold && (charsBetween a b).any (fun d => R.ignoreCase d c))
  | digit => R.isdecimal c
  | word => R.isalnum c || c == '_'
  | space => R.isspace c

def CharSet.test (R : Runtime) (s : CharSet) (c : Char) : Bool :=
  s.items.any (fun item => item.test R s.fold c) != s.negated

/-- A pattern of the source. -/
abbrev Re := Pattern CharSet

/-- The matcher of a pattern. -/
def Re.rx (R : Runtime) (p : Re) : Regex Char := Pattern.compile (CharSet.test R) (fun a b => a == b) p

/-! ### Parsing -/

namespace Re

/-- A class without members matches nothing, its complement everything. -/
def anything : CharSet := ⟨true, [], false⟩

def newline : CharSet := ⟨false, [.range '\n' '\n'], false⟩

def wordChar : CharSet := ⟨false, [.word], false⟩

/-- `$`. -/
def atEnd : Re := .alt (.ahead false (.set anything)) (.ahead true (.seq (.set newline) (.ahead false (.set anything))))

/-- `\b`. -/
def boundary : Re :=
  .alt (.seq (.behind true [wordChar]) (.ahead false (.set wordChar)))
    (.seq (.behind false [wordChar]) (.ahead true (.set wordChar)))

/-- The words of classes that a pattern of a fixed width spells. -/
def words : Re → Option (List (List CharSet))
  | .empty => some [[]]
  | .set s => some [[s]]
  | .seq r s => do
    let us ← words r
    let vs ← words s
    return us.flatMap (fun u => vs.map (u ++ ·))
  | .alt r s => do return (← words r) ++ (← words s)
  | .rep _ min max r => do
    let us ← words r
    if max = some min then
      return (List.replicate min us).foldr (fun us vs => us.flatMap (fun u => vs.map (u ++ ·))) [[]]
    else none
  | _ => none

/-- `(?<=p)` is one of the words of `p`, `(?<!p)` none of them. -/
def lookBehind (positive : Bool) (p : Re) : Option Re := do
  let us ← words p
  if positive then return us.foldr (fun u r => .alt (.behind true u) r) (.ahead false .empty)
  else return us.foldr (fun u r => .seq (.behind false u) r) .empty

/-- A decimal number and what follows it. -/
def number : ℕ → Str → ℕ × Str
  | n, c :: s => if c.isDigit then number (10 * n + (c.toNat - '0'.toNat)) s else (n, c :: s)
  | n, [] => (n, [])

/-- A lazy or a greedy repetition. -/
def lazily (min : ℕ) (max : Option ℕ) (p : Re) : Str → Re × Str
  | '?' :: s => (.rep true min max p, s)
  | s => (.rep false min max p, s)

/-- A quantifier .behind the pattern `p`. -/
def quantifier (p : Re) : Str → Option (Re × Str)
  | '*' :: s => some (lazily 0 none p s)
  | '+' :: s => some (lazily 1 none p s)
  | '?' :: s => some (lazily 0 (some 1) p s)
  | '{' :: s =>
    match number 0 s with
    | (min, '}' :: s) => some (lazily min (some min) p s)
    | (min, ',' :: '}' :: s) => some (lazily min none p s)
    | (min, ',' :: s) =>
      match number 0 s with
      | (max, '}' :: s) => some (lazily min (some max) p s)
      | _ => none
    | _ => none
  | s => some (p, s)

/-- What a backslash and a character stand for in a class. -/
def escape (c : Char) : Option Item :=
  if c = 'd' then some .digit
  else if c = 'w' then some .word
  else if c = 's' then some .space
  else if c = 'n' then some (.range '\n' '\n')
  else if c = 't' then some (.range '\t' '\t')
  else if c.isAlphanum then none
  else some (.range c c)

/-- The members of a class up to the closing bracket. -/
def members : ℕ → Str → Option (List Item × Str)
  | 0, _ => none
  | _ + 1, ']' :: s => some ([], s)
  | fuel + 1, '\\' :: c :: s => do
    let item ← escape c
    let (items, s) ← members fuel s
    return (item :: items, s)
  | fuel + 1, a :: '-' :: b :: s =>
    if b = ']' then some ([.range a a, .range '-' '-'], s)
    else do
      let (items, s) ← members fuel s
      return (.range a b :: items, s)
  | fuel + 1, a :: s => do
    let (items, s) ← members fuel s
    return (.range a a :: items, s)
  | _ + 1, [] => none

mutual

/-- Alternatives up to a closing parenthesis or the end; `n` is the number of groups opened before. -/
def alternatives : ℕ → Bool → ℕ → Str → Option (Re × ℕ × Str)
  | 0, _, _, _ => none
  | fuel + 1, fold, n, s => do
    let (p, n, s) ← sequence fuel fold n s
    match s with
    | '|' :: s => do
      let (q, n, s) ← alternatives fuel fold n s
      return (.alt p q, n, s)
    | s => return (p, n, s)

def sequence : ℕ → Bool → ℕ → Str → Option (Re × ℕ × Str)
  | 0, _, _, _ => none
  | _ + 1, _, n, [] => some (.empty, n, [])
  | _ + 1, _, n, '|' :: s => some (.empty, n, '|' :: s)
  | _ + 1, _, n, ')' :: s => some (.empty, n, ')' :: s)
  | fuel + 1, fold, n, s => do
    let (p, n, s) ← atom fuel fold n s
    let (p, s) ← quantifier p s
    let (q, n, s) ← sequence fuel fold n s
    return (.seq p q, n, s)

def atom : ℕ → Bool → ℕ → Str → Option (Re × ℕ × Str)
  | 0, _, _, _ => none
  | fuel + 1, fold, n, '(' :: '?' :: ':' :: s => closed fuel fold n s
  | fuel + 1, _, n, '(' :: '?' :: 'i' :: ':' :: s => closed fuel true n s
  | fuel + 1, _, n, '(' :: '?' :: '-' :: 'i' :: ':' :: s => closed fuel false n s
  | fuel + 1, fold, n, '(' :: '?' :: '=' :: s => do
    let (p, n, s) ← closed fuel fold n s
    return (.ahead true p, n, s)
  | fuel + 1, fold, n, '(' :: '?' :: '!' :: s => do
    let (p, n, s) ← closed fuel fold n s
    return (.ahead false p, n, s)
  | fuel + 1, fold, n, '(' :: '?' :: '<' :: '=' :: s => do
    let (p, n, s) ← closed fuel fold n s
    return (← lookBehind true p, n, s)
  | fuel + 1, fold, n, '(' :: '?' :: '<' :: '!' :: s => do
    let (p, n, s) ← closed fuel fold n s
    return (← lookBehind false p, n, s)
  | _ + 1, _, _, '(' :: '?' :: _ => none
  | fuel + 1, fold, n, '(' :: s => do
    let (p, n', s) ← closed fuel fold (n + 1) s
    return (.group (n + 1) p, n', s)
  | fuel + 1, fold, n, '[' :: '^' :: s => do
    let (items, s) ← members fuel s
    return (.set ⟨true, items, fold⟩, n, s)
  | fuel + 1, fold, n, '[' :: s => do
    let (items, s) ← members fuel s
    return (.set ⟨false, items, fold⟩, n, s)
  | _ + 1, _, n, '.' :: s => some (.set ⟨true, [.range '\n' '\n'], false⟩, n, s)
  | _ + 1, _, n, '^' :: s => some (.behind false [anything], n, s)
  | _ + 1, _, n, '$' :: s => some (atEnd, n, s)
  | _ + 1, _, n, '\\' :: 'b' :: s => some (boundary, n, s)
  | _ + 1, fold, n, '\\' :: c :: s =>
    if c.isDigit then some (.backref (c.toNat - '0'.toNat), n, s)
    else do return (.set ⟨false, [← escape c], fold⟩, n, s)
  | _ + 1, fold, n, c :: s => some (.set ⟨false, [.range c c], fold⟩, n, s)
  | _ + 1, _, _, [] => none

/-- Alternatives and the parenthesis .behind them. -/
def closed : ℕ → Bool → ℕ → Str → Option (Re × ℕ × Str)
  | 0, _, _, _ => none
  | fuel + 1, fold, n, s => do
    match ← alternatives fuel fold n s with
    | (p, n, ')' :: s) => return (p, n, s)
    | _ => none

end

/-- The pattern of a whole source text. -/
def parse (fold : Bool) (s : Str) : Option Re :=
  match alternatives (4 * s.length + 4) fold 0 s with
  | some (p, _, []) => some p
  | _ => none

end Re

/-- `re.compile(s)`, with `re.IGNORECASE` if `fold`. -/
def re (fold : Bool) (s : Str) (h : (Re.parse fold s).isSome = true := by decide +kernel) : Re :=
  (Re.parse fold s).get h

/-! ### The end of a text -/

section End

open Regex

variable {R : Runtime}

/-- `$` stays where it is: at the end of the text, or before the line break that ends it. -/
theorem after_of_atEnd {c c' : Cursor Char} (h : c' ∈ (Re.rx R Re.atEnd).reach c) :
    c'.after = [] ∨ c'.after = ['\n'] := by
  have hend : ∀ {d d' : Cursor Char}, d' ∈ (ahead false (cls (CharSet.test R Re.anything))).reach d → d.after = [] := by
    intro d d' hd
    cases hafter : d.after with
    | nil => rfl
    | cons a t =>
      have hany : CharSet.test R Re.anything a = true := rfl
      rw [reach, reach, hafter] at hd
      simp [hany] at hd
  rcases List.mem_append.mp h with h | h
  · rw [eq_of_reach_not_ahead h]
    exact Or.inl (hend h)
  · change c' ∈ (ahead true (seq (cls (CharSet.test R Re.newline))
      (ahead false (cls (CharSet.test R Re.anything))))).reach c at h
    rw [reach] at h
    split at h
    · rw [if_pos rfl] at h
      cases h
    · rename_i d ds heq
      rw [if_pos rfl, List.mem_singleton] at h
      have hd : d ∈ (seq (cls (CharSet.test R Re.newline))
          (ahead false (cls (CharSet.test R Re.anything)))).reach c := by
        rw [heq]
        exact List.mem_cons_self
      obtain ⟨d', h1, h2⟩ := List.mem_flatMap.mp hd
      obtain ⟨a, ha, hspell, -⟩ := mem_reach_cls h1
      have hbreak : a = '\n' := by
        have hrange : '\n' ≤ a ∧ a ≤ '\n' := by simpa [CharSet.test, Re.newline, Item.test] using ha
        exact Char.le_antisymm hrange.2 hrange.1
      refine Or.inr ?_
      rw [h, hspell.after_eq, hend h2, hbreak]
      rfl

/-- **A match up to `$`** stops at the end of the text, or before the line break that ends it. -/
theorem drop_of_atEnd {r : Re} (hr : Pattern.endsWith Re.atEnd r = true) {text : Str} {m : Match}
    (hm : (r.rx R).Found text m) : text.drop m.stop = [] ∨ text.drop m.stop = ['\n'] := by
  obtain ⟨before, after, c, rfl, hc, rfl⟩ := hm
  obtain ⟨d, hd⟩ := Pattern.reach_endsWith hr hc
  have hdrop : (before.reverse ++ after).drop c.pos = c.after := by
    have htext : c.text = before.reverse ++ after := (reach_advance _ _ c hc).text_eq
    have hpos : c.pos = c.before.reverse.length := List.length_reverse.symm
    rw [← htext, Cursor.text, hpos, List.drop_left]
  show (before.reverse ++ after).drop c.pos = [] ∨ (before.reverse ++ after).drop c.pos = ['\n']
  rw [hdrop]
  exact after_of_atEnd hd

end End
end PdMasking
