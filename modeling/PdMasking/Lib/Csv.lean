import Mathlib.Data.List.Basic

/-!
# PdMasking.Lib.Csv — tables as text, in the way of Python's `csv`

`Csv.text` writes rows with as few quotes as possible; `Csv.rows` reads a text line by line with the state machine of
`csv.reader`, which knows a limit for the length of a field.

* `rows_text`: what is written is read back, exactly when no field is longer than the limit.
-/

namespace Csv

/-- The delimiter, and the limit of `csv.field_size_limit`. -/
structure Dialect where
  delimiter : Char
  limit : ℕ
  ne_quote : delimiter ≠ '"'
  ne_return : delimiter ≠ '\r'
  ne_newline : delimiter ≠ '\n'

def isBreak (c : Char) : Bool := c == '\r' || c == '\n'

section Format

variable (D : Dialect)

/-! ### Writing -/

/-- A character that does not stand in a field without quotes. -/
def special (c : Char) : Bool := c == D.delimiter || c == '"' || isBreak c

/-- A character between quotes. -/
def double (c : Char) : List Char := if c = '"' then ['"', '"'] else [c]

def quoted (s : List Char) : List Char := '"' :: (s.flatMap double ++ ['"'])

def fieldText (force : Bool) (s : List Char) : List Char := if force || s.any (special D) then quoted s else s

/-- A row; an empty field is quoted where it stands alone. -/
def rowText (fields : List (List Char)) : List Char :=
  [D.delimiter].intercalate (fields.map (fieldText D (decide (fields = [[]])))) ++ ['\r', '\n']

def text (rows : List (List (List Char))) : List Char := rows.flatMap (rowText D)

/-! ### Reading -/

inductive State
  | startRecord
  | startField
  | inField
  | inQuotedField
  | quoteInQuotedField
  | eatBreak
  deriving DecidableEq

inductive Error
  | fieldLimit
  | newLine
  deriving DecidableEq

/-- The fields of the row so far, and the field that is read. -/
structure Reader where
  state : State
  fields : List (List Char)
  field : List Char

namespace Reader

def start : Reader := ⟨.startRecord, [], []⟩

def save (r : Reader) (state : State) : Reader := ⟨state, r.fields ++ [r.field], []⟩

def add (r : Reader) (state : State) (c : Char) : Except Error Reader :=
  if r.field.length < D.limit then .ok ⟨state, r.fields, r.field ++ [c]⟩ else .error .fieldLimit

/-- A character at the start of a field, no line break. -/
def opened (r : Reader) (c : Char) : Except Error Reader :=
  if c = '"' then .ok { r with state := .inQuotedField }
  else if c = D.delimiter then .ok (r.save .startField)
  else r.add D .inField c

/-- A character, or the end of a line. -/
def step (r : Reader) : Option Char → Except Error Reader
  | none =>
    match r.state with
    | .startRecord | .inQuotedField => .ok r
    | .eatBreak => .ok { r with state := .startRecord }
    | .startField | .inField | .quoteInQuotedField => .ok (r.save .startRecord)
  | some c =>
    match r.state with
    | .startRecord => if isBreak c then .ok { r with state := .eatBreak } else r.opened D c
    | .startField => if isBreak c then .ok (r.save .eatBreak) else r.opened D c
    | .inField =>
      if isBreak c then .ok (r.save .eatBreak)
      else if c = D.delimiter then .ok (r.save .startField)
      else r.add D .inField c
    | .inQuotedField => if c = '"' then .ok { r with state := .quoteInQuotedField } else r.add D .inQuotedField c
    | .quoteInQuotedField =>
      if c = '"' then r.add D .inQuotedField c
      else if c = D.delimiter then .ok (r.save .startField)
      else if isBreak c then .ok (r.save .eatBreak)
      else r.add D .inField c
    | .eatBreak => if isBreak c then .ok r else .error .newLine

/-- The rows; one ends where a line does, unless it is within quotes. -/
def run : Reader → List (Option Char) → Except Error (List (List (List Char)))
  | r, [] => if r.field ≠ [] ∨ r.state = .inQuotedField then .ok [(r.save .startRecord).fields] else .ok []
  | r, e :: es =>
    match r.step D e with
    | .error error => .error error
    | .ok r' =>
      if e = none ∧ r'.state = .startRecord then (run start es).map (r'.fields :: ·)
      else run r' es

end Reader

/-- A character before the first line. -/
def consLine (c : Char) : List (List Char) → List (List Char)
  | [] => [[c]]
  | l :: ls => (c :: l) :: ls

/-- The lines of a file that is opened with `newline=""`, with their line breaks. -/
def lines : List Char → List (List Char)
  | [] => []
  | c :: s =>
    if c = '\n' ∨ c = '\r' ∧ s.head? ≠ some '\n' then [c] :: lines s
    else consLine c (lines s)

def events (ls : List (List Char)) : List (Option Char) := ls.flatMap (fun l => l.map some ++ [none])

/-- `list(csv.reader(...))` -/
def rows (s : List Char) : Except Error (List (List (List Char))) := Reader.start.run D (events (lines s))

end Format

/-! ### The characters that are read -/

section Events

variable {c : Char} {s : List Char}

theorem lines_ne_nil (h : s ≠ []) : lines s ≠ [] := by
  cases s with
  | nil => exact absurd rfl h
  | cons c s =>
    unfold lines
    split_ifs
    · exact List.cons_ne_nil _ _
    · cases lines s <;> exact List.cons_ne_nil _ _

theorem events_consLine {ls : List (List Char)} (h : ls ≠ []) : events (consLine c ls) = some c :: events ls := by
  cases ls with
  | nil => exact absurd rfl h
  | cons l ls => rfl

/-- A character within a line. -/
theorem events_cons (hc : isBreak c = false) (h : s ≠ []) : events (lines (c :: s)) = some c :: events (lines s) := by
  have hbreak : ¬ (c = '\n' ∨ c = '\r' ∧ s.head? ≠ some '\n') := by
    rintro (rfl | ⟨rfl, -⟩) <;> cases hc
  show events (if c = '\n' ∨ c = '\r' ∧ s.head? ≠ some '\n' then [c] :: lines s else consLine c (lines s)) = _
  rw [if_neg hbreak]
  exact events_consLine (lines_ne_nil h)

/-- A character that is not the last one; a line may end behind it. -/
theorem events_cons_or (h : s ≠ []) : events (lines (c :: s)) = some c :: events (lines s) ∨
    events (lines (c :: s)) = some c :: none :: events (lines s) := by
  by_cases hbreak : c = '\n' ∨ c = '\r' ∧ s.head? ≠ some '\n'
  · right
    show events (if c = '\n' ∨ c = '\r' ∧ s.head? ≠ some '\n' then [c] :: lines s else consLine c (lines s)) = _
    rw [if_pos hbreak]
    rfl
  · left
    show events (if c = '\n' ∨ c = '\r' ∧ s.head? ≠ some '\n' then [c] :: lines s else consLine c (lines s)) = _
    rw [if_neg hbreak]
    exact events_consLine (lines_ne_nil h)

theorem events_head (c : Char) (s : List Char) : ∃ es, events (lines (c :: s)) = some c :: es := by
  rcases eq_or_ne s [] with rfl | h
  · unfold lines
    split_ifs <;> exact ⟨_, rfl⟩
  · rcases events_cons_or (c := c) h with hevents | hevents <;> exact ⟨_, hevents⟩

/-- The end of a row. -/
theorem events_crlf (s : List Char) :
    events (lines ('\r' :: '\n' :: s)) = some '\r' :: some '\n' :: none :: events (lines s) := rfl

end Events

/-- A line of a text. -/
theorem lines_line {l : List Char} (h : ∀ c ∈ l, isBreak c = false) (s : List Char) :
    lines (l ++ '\n' :: s) = (l ++ ['\n']) :: lines s := by
  induction l with
  | nil => rfl
  | cons c l ih =>
    obtain ⟨hc, hl⟩ := List.forall_mem_cons.mp h
    have hbreak : ¬ (c = '\n' ∨ c = '\r' ∧ (l ++ '\n' :: s).head? ≠ some '\n') := by
      rintro (rfl | ⟨rfl, -⟩) <;> cases hc
    rw [List.cons_append, lines, if_neg hbreak, ih hl]
    rfl

/-! ### A field -/

section Field

variable {D : Dialect} {fs : List (List Char)} {acc s u : List Char} {t c : Char}

namespace Reader

theorem run_some {r r' : Reader} {es : List (Option Char)} (h : r.step D (some c) = .ok r') :
    r.run D (some c :: es) = r'.run D es := by
  rw [run, h]
  exact if_neg (fun h => Option.some_ne_none c h.1)

theorem run_some_error {r : Reader} {es : List (Option Char)} {error : Error} (h : r.step D (some c) = .error error) :
    r.run D (some c :: es) = .error error := by
  rw [run, h]

/-- A line that ends within quotes. -/
theorem run_none_quoted {es : List (Option Char)} :
    run D ⟨.inQuotedField, fs, acc⟩ (none :: es) = run D ⟨.inQuotedField, fs, acc⟩ es := rfl

/-- What stands in a field without quotes. -/
theorem run_inField (hacc : acc.length ≤ D.limit) (ht : u ≠ []) (hs : ∀ c ∈ s, special D c = false) :
    run D ⟨.inField, fs, acc⟩ (events (lines (s ++ u))) =
      if (acc ++ s).length ≤ D.limit then run D ⟨.inField, fs, acc ++ s⟩ (events (lines u))
      else .error .fieldLimit := by
  induction s generalizing acc with
  | nil => rw [List.nil_append, List.append_nil, if_pos hacc]
  | cons c s ih =>
    obtain ⟨hc, hs⟩ := List.forall_mem_cons.mp hs
    unfold special at hc
    simp only [Bool.or_eq_false_iff, beq_eq_false_iff_ne] at hc
    obtain ⟨⟨hdelimiter, hquote⟩, hbreak⟩ := hc
    have hstep : (⟨.inField, fs, acc⟩ : Reader).step D (some c) = (⟨.inField, fs, acc⟩ : Reader).add D .inField c := by
      show (if isBreak c then _ else if c = D.delimiter then _ else _) = _
      rw [hbreak, if_neg Bool.false_ne_true, if_neg hdelimiter]
    rw [List.cons_append, events_cons hbreak (List.append_ne_nil_of_right_ne_nil s ht)]
    by_cases hlimit : acc.length < D.limit
    · have hadd : (⟨.inField, fs, acc⟩ : Reader).step D (some c) = .ok ⟨.inField, fs, acc ++ [c]⟩ :=
        hstep.trans (if_pos hlimit)
      rw [run_some hadd, ih (by rw [List.length_append]; exact hlimit) hs, List.append_assoc, List.singleton_append]
    · rw [run_some_error (hstep.trans (if_neg hlimit)), if_neg]
      rw [List.length_append, List.length_cons]
      omega

/-- What stands between quotes. -/
theorem run_inQuoted (hacc : acc.length ≤ D.limit) (ht : u ≠ []) :
    run D ⟨.inQuotedField, fs, acc⟩ (events (lines (s.flatMap double ++ '"' :: u))) =
      if (acc ++ s).length ≤ D.limit then run D ⟨.quoteInQuotedField, fs, acc ++ s⟩ (events (lines u))
      else .error .fieldLimit := by
  induction s generalizing acc with
  | nil =>
    rw [List.append_nil, if_pos hacc]
    show run D _ (events (lines ('"' :: u))) = _
    rw [events_cons rfl ht]
    exact run_some rfl
  | cons c s ih =>
    have hne : s.flatMap double ++ '"' :: u ≠ [] := List.append_ne_nil_of_right_ne_nil _ (List.cons_ne_nil _ _)
    have hlong : ¬ acc.length < D.limit → ¬ (acc ++ c :: s).length ≤ D.limit := by
      rw [List.length_append, List.length_cons]
      omega
    have hnext : acc.length < D.limit → run D ⟨.inQuotedField, fs, acc ++ [c]⟩
        (events (lines (s.flatMap double ++ '"' :: u))) =
        if (acc ++ c :: s).length ≤ D.limit then run D ⟨.quoteInQuotedField, fs, acc ++ c :: s⟩ (events (lines u))
        else .error .fieldLimit := by
      intro hlimit
      rw [ih (by rw [List.length_append]; exact hlimit), List.append_assoc, List.singleton_append]
    rw [List.flatMap_cons, List.append_assoc]
    by_cases hquote : c = '"'
    · subst hquote
      show run D _ (events (lines ('"' :: '"' :: (s.flatMap double ++ '"' :: u)))) = _
      have hfirst : (⟨.inQuotedField, fs, acc⟩ : Reader).step D (some '"') = .ok ⟨.quoteInQuotedField, fs, acc⟩ := rfl
      rw [events_cons rfl (List.cons_ne_nil _ _), events_cons rfl hne, run_some hfirst]
      have hstep : (⟨.quoteInQuotedField, fs, acc⟩ : Reader).step D (some '"') =
          (⟨.quoteInQuotedField, fs, acc⟩ : Reader).add D .inQuotedField '"' := rfl
      by_cases hlimit : acc.length < D.limit
      · have hadd : (⟨.quoteInQuotedField, fs, acc⟩ : Reader).step D (some '"') =
            .ok ⟨.inQuotedField, fs, acc ++ ['"']⟩ := hstep.trans (if_pos hlimit)
        rw [run_some hadd]
        exact hnext hlimit
      · rw [run_some_error (hstep.trans (if_neg hlimit)), if_neg (hlong hlimit)]
    · have hstep : (⟨.inQuotedField, fs, acc⟩ : Reader).step D (some c) =
          (⟨.inQuotedField, fs, acc⟩ : Reader).add D .inQuotedField c := if_neg hquote
      have hdouble : double c = [c] := if_neg hquote
      rw [hdouble, List.singleton_append]
      by_cases hlimit : acc.length < D.limit
      · have hadd : (⟨.inQuotedField, fs, acc⟩ : Reader).step D (some c) = .ok ⟨.inQuotedField, fs, acc ++ [c]⟩ :=
          hstep.trans (if_pos hlimit)
        rcases events_cons_or (c := c) hne with h | h
        · rw [h, run_some hadd]
          exact hnext hlimit
        · rw [h, run_some hadd, run_none_quoted]
          exact hnext hlimit
      · rw [if_neg (hlong hlimit)]
        rcases events_cons_or (c := c) hne with h | h <;> rw [h] <;>
          exact run_some_error (hstep.trans (if_neg hlimit))

/-- States that read an event alike. -/
theorem run_congr {r r' : Reader} {e : Option Char} {es : List (Option Char)} (h : r.step D e = r'.step D e) :
    r.run D (e :: es) = r'.run D (e :: es) := by
  rw [run, run, h]

/-- The states in which a field may end. -/
def Ends (acc : List Char) : State → Prop
  | .startField => acc = []
  | .inField | .quoteInQuotedField => True
  | .startRecord | .inQuotedField | .eatBreak => False

/-- **A field** is read up to a state in which it may end, unless it is too long. -/
theorem run_field (D : Dialect) (fs : List (List Char)) (force : Bool) (f : List Char) :
    ∃ σ, Ends f σ ∧ ∀ u : List Char, u ≠ [] →
      run D ⟨.startField, fs, []⟩ (events (lines (fieldText D force f ++ u))) =
        if f.length ≤ D.limit then run D ⟨σ, fs, f⟩ (events (lines u)) else .error .fieldLimit := by
  unfold fieldText
  by_cases hquoted : (force || f.any (special D)) = true
  · refine ⟨.quoteInQuotedField, trivial, ?_⟩
    intro u hu
    have hne : f.flatMap double ++ '"' :: u ≠ [] := List.append_ne_nil_of_right_ne_nil _ (List.cons_ne_nil _ _)
    have hopen : (⟨.startField, fs, []⟩ : Reader).step D (some '"') = .ok ⟨.inQuotedField, fs, []⟩ := rfl
    have htext : quoted f ++ u = '"' :: (f.flatMap double ++ '"' :: u) := by
      unfold quoted
      rw [List.cons_append, List.append_assoc, List.singleton_append]
    rw [if_pos hquoted, htext, events_cons rfl hne, run_some hopen, run_inQuoted (Nat.zero_le _) hu, List.nil_append]
  · rw [if_neg hquoted]
    have hplain : ∀ c ∈ f, special D c = false := by
      simpa using (Bool.or_eq_false_iff.mp ((Bool.not_eq_true _).mp hquoted)).2
    cases f with
    | nil =>
      refine ⟨.startField, rfl, ?_⟩
      intro u hu
      exact (if_pos (Nat.zero_le _)).symm
    | cons c s =>
      refine ⟨.inField, trivial, ?_⟩
      intro u hu
      have hc := hplain c List.mem_cons_self
      unfold special at hc
      simp only [Bool.or_eq_false_iff, beq_eq_false_iff_ne] at hc
      obtain ⟨⟨hdelimiter, hquote⟩, hbreak⟩ := hc
      have hstep :
          (⟨.startField, fs, []⟩ : Reader).step D (some c) = (⟨.inField, fs, []⟩ : Reader).step D (some c) := by
        show (if isBreak c then _ else if c = '"' then _ else if c = D.delimiter then _ else _) =
          (if isBreak c then _ else if c = D.delimiter then _ else _)
        rw [hbreak, if_neg Bool.false_ne_true, if_neg Bool.false_ne_true, if_neg hquote, if_neg hdelimiter,
          if_neg hdelimiter]
        rfl
      have hin : run D ⟨.inField, fs, []⟩ (events (lines (c :: s ++ u))) =
          if ([] ++ c :: s).length ≤ D.limit then run D ⟨.inField, fs, [] ++ c :: s⟩ (events (lines u))
          else .error .fieldLimit := run_inField (Nat.zero_le D.limit) hu hplain
      rw [List.cons_append, events_cons hbreak (List.append_ne_nil_of_right_ne_nil s hu)] at hin ⊢
      rw [run_congr hstep, hin, List.nil_append]

theorem run_delimiter {σ : State} (h : Ends acc σ) (hu : u ≠ []) :
    run D ⟨σ, fs, acc⟩ (events (lines (D.delimiter :: u))) =
      run D ⟨.startField, fs ++ [acc], []⟩ (events (lines u)) := by
  have hbreak : isBreak D.delimiter = false := by
    simp [isBreak, D.ne_return, D.ne_newline]
  rw [events_cons hbreak hu]
  refine run_some ?_
  cases σ with
  | startField =>
    obtain rfl : acc = [] := h
    show (if isBreak D.delimiter then _ else if D.delimiter = '"' then _
      else if D.delimiter = D.delimiter then _ else _) = _
    rw [hbreak, if_neg Bool.false_ne_true, if_neg D.ne_quote, if_pos rfl]
    rfl
  | inField =>
    show (if isBreak D.delimiter then _ else if D.delimiter = D.delimiter then _ else _) = _
    rw [hbreak, if_neg Bool.false_ne_true, if_pos rfl]
    rfl
  | quoteInQuotedField =>
    show (if D.delimiter = '"' then _ else if D.delimiter = D.delimiter then _ else _) = _
    rw [if_neg D.ne_quote, if_pos rfl]
    rfl
  | startRecord => exact h.elim
  | inQuotedField => exact h.elim
  | eatBreak => exact h.elim

theorem run_crlf {σ : State} (h : Ends acc σ) :
    run D ⟨σ, fs, acc⟩ (events (lines ('\r' :: '\n' :: u))) =
      (run D start (events (lines u))).map ((fs ++ [acc]) :: ·) := by
  have hsave : (⟨σ, fs, acc⟩ : Reader).step D (some '\r') = .ok ⟨.eatBreak, fs ++ [acc], []⟩ := by
    cases σ with
    | startField => rfl
    | inField => rfl
    | quoteInQuotedField =>
      show (if '\r' = D.delimiter then _ else _) = _
      rw [if_neg D.ne_return.symm]
      rfl
    | startRecord => exact h.elim
    | inQuotedField => exact h.elim
    | eatBreak => exact h.elim
  rw [events_crlf, run_some hsave]
  rfl

/-- **The fields of a row.** -/
theorem run_fields (force : Bool) (u : List Char) : ∀ {fields : List (List Char)} {fs : List (List Char)}, fields ≠ [] →
    run D ⟨.startField, fs, []⟩
        (events (lines ([D.delimiter].intercalate (fields.map (fieldText D force)) ++ '\r' :: '\n' :: u))) =
      if ∀ f ∈ fields, f.length ≤ D.limit then (run D start (events (lines u))).map ((fs ++ fields) :: ·)
      else .error .fieldLimit
  | [], _, h => absurd rfl h
  | [f], fs, _ => by
    obtain ⟨σ, hends, hfield⟩ := run_field D fs force f
    rw [List.map_singleton, List.intercalate_singleton, hfield _ (List.cons_ne_nil _ _), run_crlf hends]
    simp only [List.forall_mem_singleton]
  | f :: g :: fields, fs, _ => by
    obtain ⟨σ, hends, hfield⟩ := run_field D fs force f
    have hne : [D.delimiter].intercalate ((g :: fields).map (fieldText D force)) ++ '\r' :: '\n' :: u ≠ [] :=
      List.append_ne_nil_of_right_ne_nil _ (List.cons_ne_nil _ _)
    rw [List.map_cons, List.map_cons, List.intercalate_cons_cons, ← List.map_cons, List.append_assoc, List.append_assoc,
      List.singleton_append, hfield _ (List.cons_ne_nil _ _), run_delimiter hends hne,
      run_fields force u (List.cons_ne_nil g fields), List.append_assoc, List.singleton_append]
    by_cases hf : f.length ≤ D.limit
    · rw [if_pos hf]
      simp only [List.forall_mem_cons (a := f), hf, true_and]
    · rw [if_neg hf, if_neg (fun h => hf (h f List.mem_cons_self))]

theorem fieldText_head (D : Dialect) (force : Bool) (c : Char) (s : List Char) :
    ∃ d t, fieldText D force (c :: s) = d :: t ∧ isBreak d = false := by
  unfold fieldText
  split_ifs with hquoted
  · exact ⟨'"', _, rfl, rfl⟩
  · refine ⟨c, s, rfl, ?_⟩
    simp only [List.any_cons, special, Bool.or_eq_true, not_or, Bool.not_eq_true] at hquoted
    exact hquoted.2.1.2

/-- The first character of a row is no line break. -/
theorem rowText_head {fields : List (List Char)} (h : fields ≠ []) :
    ∃ c s, rowText D fields = c :: s ∧ isBreak c = false := by
  unfold rowText
  match fields, h with
  | [[]], _ => exact ⟨'"', _, rfl, rfl⟩
  | [] :: g :: fields, _ => exact ⟨D.delimiter, _, rfl, by simp [isBreak, D.ne_return, D.ne_newline]⟩
  | (c :: s) :: fields, _ =>
    obtain ⟨d, t, htext, hd⟩ := fieldText_head D (decide ((c :: s) :: fields = [[]])) c s
    rw [List.map_cons, htext, List.intercalate_cons_cons_left]
    exact ⟨d, _, rfl, hd⟩

/-- **A row** is read, unless a field of it is too long. -/
theorem run_rowText {fields : List (List Char)} (h : fields ≠ []) (u : List Char) :
    run D start (events (lines (rowText D fields ++ u))) =
      if ∀ f ∈ fields, f.length ≤ D.limit then (run D start (events (lines u))).map (fields :: ·)
      else .error .fieldLimit := by
  obtain ⟨c, s, htext, hbreak⟩ := rowText_head (D := D) h
  have hstart : run D start (events (lines (rowText D fields ++ u))) =
      run D ⟨.startField, [], []⟩ (events (lines (rowText D fields ++ u))) := by
    obtain ⟨es, hes⟩ := events_head c (s ++ u)
    rw [htext, List.cons_append, hes]
    refine run_congr ?_
    show (if isBreak c then _ else _) = (if isBreak c then _ else _)
    rw [hbreak, if_neg Bool.false_ne_true, if_neg Bool.false_ne_true]
    rfl
  rw [hstart]
  unfold rowText
  rw [List.append_assoc]
  exact run_fields _ u h

end Reader

end Field

/-- **What is written is read back**, exactly when no field is longer than the limit. -/
theorem rows_text (D : Dialect) {rs : List (List (List Char))} (h : ∀ fields ∈ rs, fields ≠ []) :
    rows D (text D rs) =
      if ∀ fields ∈ rs, ∀ f ∈ fields, f.length ≤ D.limit then .ok rs else .error .fieldLimit := by
  unfold rows text
  induction rs with
  | nil => exact (if_pos (List.forall_mem_nil _)).symm
  | cons fields rs ih =>
    obtain ⟨hne, hrs⟩ := List.forall_mem_cons.mp h
    rw [List.flatMap_cons, Reader.run_rowText hne, ih hrs]
    by_cases hfields : ∀ f ∈ fields, f.length ≤ D.limit
    · rw [if_pos hfields]
      by_cases hrest : ∀ fields ∈ rs, ∀ f ∈ fields, f.length ≤ D.limit
      · rw [if_pos hrest, if_pos (List.forall_mem_cons.mpr ⟨hfields, hrest⟩)]
        rfl
      · rw [if_neg hrest, if_neg (fun h => hrest (List.forall_mem_cons.mp h).2)]
        rfl
    · rw [if_neg hfields, if_neg (fun h => hfields (List.forall_mem_cons.mp h).1)]

end Csv
