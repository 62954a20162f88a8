import Mathlib.Algebra.Group.Nat.Defs
import PdMasking.Entities
import PdMasking.Lib.TextSearch

/-!
# PdMasking.Masking — masking strategies and fragment-wise unmasking (`core/masking.py`)

* `Masker.mask` cuts the text along the hulls of the entities and replaces each hull by `Masker.apply`.
* `unmaskFragments` replaces the masks of a record by their originals, longest mask first.

`Masker` holds the keyed digest `hmac(secret, ·).hexdigest()`: 64 lower-case hexadecimal digits of a string.
The only way for the code to fail is an index out of range in `chars`.
-/

namespace PdMasking

inductive Strategy
  | initials | partial_ | full | email | token | redact | synthetic
  deriving DecidableEq, Repr

/-- `MaskRule`; what `__post_init__` rejects (an unknown strategy, a mask of several characters, a negative
number of kept characters) is not a value of the type. -/
structure MaskRule where
  strategy : Strategy
  keepStart : ℕ
  keepEnd : ℕ
  char : Char
  deriving DecidableEq, Repr

/-- `DEFAULT_RULE`. -/
def defaultRule : MaskRule := ⟨.full, 0, 0, '*'⟩

/-- `_LABELS`. -/
def PDType.label : PDType → Str
  | fio => "ФИО".toList
  | birthDate => "ДАТА_РОЖДЕНИЯ".toList
  | birthPlace => "МЕСТО_РОЖДЕНИЯ".toList
  | passport => "ПАСПОРТ".toList
  | citizenship => "ГРАЖДАНСТВО".toList
  | passportIssuer => "ОРГАН_ВЫДАЧИ".toList
  | departmentCode => "КОД_ПОДРАЗДЕЛЕНИЯ".toList
  | passportIssueDate => "ДАТА_ВЫДАЧИ".toList
  | driverLicense => "ВУ".toList
  | address => "АДРЕС".toList
  | email => "EMAIL".toList
  | phone => "ТЕЛЕФОН".toList
  | inn => "ИНН".toList
  | cardNumber => "НОМЕР_КАРТЫ".toList
  | cardCvv => "CVV".toList
  | cardPin => "PIN".toList
  | cardHolder => "ДЕРЖАТЕЛЬ_КАРТЫ".toList
  | cardExpiry => "СРОК_КАРТЫ".toList
  | date => "ДАТА".toList
  | snils => "СНИЛС".toList
  | foreignPassport => "ЗАГРАНПАСПОРТ".toList
  | militaryId => "ВОЕННЫЙ_БИЛЕТ".toList
  | birthCertificate => "СВИДЕТЕЛЬСТВО_О_РОЖДЕНИИ".toList

def fakeSurnames : List Str :=
  ["Смирнов".toList, "Кузнецов".toList, "Попов".toList, "Соколов".toList, "Лебедев".toList, "Новиков".toList,
    "Морозов".toList, "Волков".toList]

def fakeNames : List Str :=
  ["Алексей".toList, "Дмитрий".toList, "Сергей".toList, "Андрей".toList, "Михаил".toList, "Николай".toList,
    "Олег".toList, "Павел".toList]

def fakePatronymics : List Str :=
  ["Петрович".toList, "Сергеевич".toList, "Андреевич".toList, "Олегович".toList, "Павлович".toList,
    "Игоревич".toList]

/-- `MaskResult`: the masked text and the pairs (mask of the fragment, original fragment). -/
structure MaskResult where
  text : Str
  fragments : List (Str × Str)
  deriving DecidableEq

/-- The character class of `_LETTERS_RE`. -/
def isLetter (c : Char) : Bool := ('A' ≤ c && c ≤ 'Z') || ('a' ≤ c && c ≤ 'z') || isRussian c

/-- `_LETTERS_RE.findall`: the maximal runs of letters. -/
def letterRuns : Str → List Str
  | [] => []
  | c :: t =>
    if isLetter c then
      match t, letterRuns t with
      | d :: _, w :: ws => if isLetter d then (c :: w) :: ws else [c] :: w :: ws
      | _, ws => [c] :: ws
    else letterRuns t

/-- `sep.join(words)`. -/
def join (sep : Str) (words : List Str) : Str := sep.intercalate words

/-- `int(digest, 16)` of a lower-case hexadecimal digit. -/
def hexDigit (c : Char) : ℕ := if c.isDigit then c.toNat - '0'.toNat else c.toNat - 'a'.toNat + 10

/-- `int(digest, 16)`. -/
def hexValue (digest : Str) : ℕ := digest.foldl (fun n c => 16 * n + hexDigit c) 0

/-- `str(n)` of a number below ten. -/
def decimalDigit (n : ℕ) : Char := Char.ofNat ('0'.toNat + n)

/-- A lower-case hexadecimal digit. -/
def isHexDigit (c : Char) : Bool := ('0' ≤ c && c ≤ '9') || ('a' ≤ c && c ≤ 'f')

/-- `Masker(secret)`, known through the hexadecimal digest of a string under its secret. -/
structure Masker where
  hexdigest : Str → Str
  length_hexdigest : ∀ v, (hexdigest v).length = 64
  hexdigest_hex : ∀ v, (hexdigest v).all isHexDigit

namespace Masker

variable (R : Runtime) (K : Masker)

/-- `_digest`. -/
def digest (pdType : PDType) (value : Str) : Str := K.hexdigest (pdType.value ++ ':' :: value)

/-! ### The character mask -/

/-- The list comprehension of `_chars`: the alphanumeric positions among `is`, relative to the hull. -/
def alnumPositions (text : Str) (base : ℕ) : List ℕ → Except PyExc (List ℕ)
  | [] => .ok []
  | i :: is =>
    match text[i]? with
    | none => .error .indexError
    | some c => do
      let positions ← alnumPositions text base is
      return if R.isalnum c then (i - base) :: positions else positions

/-- The loop of `_chars` over `enumerate(positions)`: all positions but the kept ones are overwritten. -/
def hidePositions (char : Char) (keepStart keepEnd n : ℕ) : ℕ → List ℕ → Str → Except PyExc Str
  | _, [], chars => .ok chars
  | idx, pos :: positions, chars =>
    if idx < keepStart ∨ n - keepEnd ≤ idx then hidePositions char keepStart keepEnd n (idx + 1) positions chars
    else if pos < chars.length then
      hidePositions char keepStart keepEnd n (idx + 1) positions (chars.set pos char)
    else .error .indexError

/-- `_chars`: the character mask inside the parts. -/
def chars (text : Str) (entity : Entity) (rule : MaskRule) : Except PyExc Str := do
  let positions ← alnumPositions R text entity.start
    (entity.parts.flatMap (fun p => List.range' p.1 (p.2 - p.1)))
  let (keepStart, keepEnd) := if rule.strategy = .partial_ then (rule.keepStart, rule.keepEnd) else (0, 0)
  let (keepStart, keepEnd) := if positions.length ≤ keepStart + keepEnd then (0, 0) else (keepStart, keepEnd)
  hidePositions rule.char keepStart keepEnd positions.length 0 positions (slice text entity.start entity.stop)

/-! ### The strategies -/

/-- The loop of `_synthetic` over `enumerate(span)`. -/
def synthChars (digest : Str) : ℕ → Str → Str
  | _, [] => []
  | idx, ch :: span =>
    (if R.isdigit ch then decimalDigit (hexDigit (digest.getD (idx % digest.length) '0') % 10)
      else if R.isalpha ch then (if R.isupper ch then 'X' else 'x')
      else ch) :: synthChars digest (idx + 1) span

/-- `_synthetic`. -/
def synth (entity : Entity) (span : Str) : Str :=
  let digest := K.digest entity.pdType span
  let seed := hexValue digest
  if entity.pdType = .fio ∨ entity.pdType = .cardHolder then
    let words := max (letterRuns span).length 1
    let pool :=
      [fakeSurnames.getD (seed % 8) [], fakeNames.getD ((seed / 2 ^ 8) % 8) [],
        fakePatronymics.getD ((seed / 2 ^ 16) % 6) []]
    join " ".toList (pool.take (min words 3))
  else if entity.pdType = .email then
    "user".toList ++ digest.take 6 ++ "@example.com".toList
  else synthChars R digest 0 span

/-- `[TYPE_xxxxxx]`, the replacement of the strategy `token`. -/
def token (pdType : PDType) (span : Str) : Str :=
  '[' :: pdType.value.map Char.toUpper ++ '_' :: (K.digest pdType span).take 6 ++ [']']

/-- `_apply`. -/
def apply (text : Str) (entity : Entity) (rule : MaskRule) : Except PyExc Str :=
  let span := slice text entity.start entity.stop
  match rule.strategy with
  | .initials =>
    let words := letterRuns span
    if words ≠ [] then .ok (join " ".toList (words.map (fun w => w.take 1 ++ ['.'])))
    else chars R text entity rule
  | .email =>
    if '@' ∈ span then
      let name := span.takeWhile (· ≠ '@')
      let domain := (span.dropWhile (· ≠ '@')).tail
      .ok (name.take 1 ++ List.replicate (name.length - 1) rule.char ++ '@' :: domain)
    else chars R text entity rule
  | .token => .ok (K.token entity.pdType span)
  | .redact => .ok ('[' :: entity.pdType.label ++ [']'])
  | .synthetic => .ok (K.synth R entity span)
  | .full | .partial_ => chars R text entity rule

/-- The loop of `mask` from position `pos` on: the rest of the masked text and of the fragments. -/
def maskFrom (text : Str) (rules : PDType → Option MaskRule) : ℕ → List Entity → Except PyExc MaskResult
  | pos, [] => .ok ⟨text.drop pos, []⟩
  | pos, entity :: entities => do
    let replacement ← apply R K text entity ((rules entity.pdType).getD defaultRule)
    let rest ← maskFrom text rules entity.stop entities
    return ⟨slice text pos entity.start ++ replacement ++ rest.text,
      (replacement, slice text entity.start entity.stop) :: rest.fragments⟩

/-- `Masker.mask`. -/
def mask (text : Str) (entities : List Entity) (rules : PDType → Option MaskRule) : Except PyExc MaskResult :=
  maskFrom R K text rules 0 entities

/-! ### The only error -/

/-- **The list comprehension**: the letters and digits among positions inside the text; a position outside raises. -/
theorem alnumPositions_eq (text : Str) (base : ℕ) : ∀ is : List ℕ, alnumPositions R text base is =
    if ∀ i ∈ is, i < text.length then .ok ((is.filter (fun i => text[i]?.any R.isalnum)).map (fun i => i - base))
    else .error .indexError
  | [] => rfl
  | i :: is => by
    rw [alnumPositions]
    simp only [List.forall_mem_cons]
    cases hi : text[i]? with
    | none =>
      have hout : ¬ i < text.length := Nat.not_lt.mpr (List.getElem?_eq_none_iff.mp hi)
      rw [if_neg (fun h => hout h.1)]
    | some c =>
      have hin : i < text.length := (List.getElem?_eq_some_iff.mp hi).1
      dsimp only
      rw [alnumPositions_eq text base is]
      by_cases hrest : ∀ j ∈ is, j < text.length
      · rw [if_pos hrest, if_pos ⟨hin, hrest⟩]
        by_cases hc : R.isalnum c = true
        · rw [List.filter_cons_of_pos (by rw [hi]; exact hc), List.map_cons]
          simp [hc, bind, Except.bind, pure, Except.pure]
        · rw [List.filter_cons_of_neg (by rw [hi]; exact hc)]
          simp [hc, bind, Except.bind, pure, Except.pure]
      · rw [if_neg hrest, if_neg (fun h => hrest h.2)]
        rfl

theorem alnumPositions_eq_ok_iff {text : Str} {base : ℕ} {is positions : List ℕ} :
    alnumPositions R text base is = .ok positions ↔ (∀ i ∈ is, i < text.length) ∧
      positions = (is.filter (fun i => text[i]?.any R.isalnum)).map (fun i => i - base) := by
  rw [alnumPositions_eq]
  split_ifs with hin
  · exact ⟨fun h => ⟨hin, (Except.ok.inj h).symm⟩, fun h => congrArg Except.ok h.2.symm⟩
  · exact ⟨nofun, fun h => absurd h.1 hin⟩

theorem alnumPositions_error {text : Str} {base : ℕ} {e : PyExc} {is : List ℕ}
    (h : alnumPositions R text base is = .error e) : e = .indexError := by
  rw [alnumPositions_eq] at h
  split_ifs at h
  exact (Except.error.inj h).symm

theorem hidePositions_error {char : Char} {keepStart keepEnd n : ℕ} {e : PyExc} : ∀ {positions : List ℕ}
    {idx : ℕ} {chars : Str},
    hidePositions char keepStart keepEnd n idx positions chars = .error e → e = .indexError
  | [], _, _, h => by cases h
  | pos :: positions, idx, chars, h => by
    rw [hidePositions] at h
    split_ifs at h
    · exact hidePositions_error h
    · exact hidePositions_error h
    · cases h
      rfl

theorem chars_error {text : Str} {entity : Entity} {rule : MaskRule} {e : PyExc}
    (h : chars R text entity rule = .error e) : e = .indexError := by
  unfold chars at h
  cases hpos : alnumPositions R text entity.start
      (entity.parts.flatMap (fun p => List.range' p.1 (p.2 - p.1))) with
  | error e' =>
    rw [hpos] at h
    cases h
    exact alnumPositions_error R hpos
  | ok positions =>
    rw [hpos] at h
    exact hidePositions_error h

theorem apply_error {text : Str} {entity : Entity} {rule : MaskRule} {e : PyExc}
    (h : apply R K text entity rule = .error e) : e = .indexError := by
  unfold apply at h
  dsimp only at h
  split at h
  · split_ifs at h
    exact chars_error R h
  · split_ifs at h
    exact chars_error R h
  · cases h
  · cases h
  · cases h
  · exact chars_error R h
  · exact chars_error R h

/-- **`Masker.mask` raises nothing but `IndexError`.** -/
theorem maskFrom_error {text : Str} {rules : PDType → Option MaskRule} {e : PyExc} : ∀ {entities : List Entity}
    {pos : ℕ}, maskFrom R K text rules pos entities = .error e → e = .indexError
  | [], _, h => by cases h
  | entity :: entities, pos, h => by
    rw [maskFrom] at h
    cases ha : apply R K text entity ((rules entity.pdType).getD defaultRule) with
    | error e' =>
      rw [ha] at h
      cases h
      exact apply_error R K ha
    | ok replacement =>
      rw [ha] at h
      cases hrest : maskFrom R K text rules entity.stop entities with
      | error e' =>
        rw [hrest] at h
        cases h
        exact maskFrom_error hrest
      | ok rest =>
        rw [hrest] at h
        cases h

end Masker

/-! ### Unmasking -/

/-- One iteration of `unmask_fragments` on the pair (text, number of replacements). -/
def unmaskStep (acc : Str × ℕ) (f : Str × Str) : Str × ℕ :=
  if f.1 = f.2 ∨ ¬ f.1 <:+: acc.1 then acc
  else (TextSearch.replace f.1 f.2 acc.1, acc.2 + TextSearch.count f.1 acc.1)

/-- `sorted(set(fragments), key=lambda f: -len(f[0]))`. -/
def sortedFragments (R : Runtime) (fragments : List (Str × Str)) : List (Str × Str) :=
  (R.setIter fragments).insertionSort (fun f g => g.1.length ≤ f.1.length)

/-- `unmask_fragments`: the restored text and the number of replacements. -/
def unmaskFragments (R : Runtime) (text : Str) (fragments : List (Str × Str)) : Str × ℕ :=
  (sortedFragments R fragments).foldl unmaskStep (text, 0)

end PdMasking
