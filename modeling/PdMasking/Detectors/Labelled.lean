import PdMasking.Detectors.Names

/-!
# PdMasking.Detectors.Labelled — values behind labels (`core/detectors/labelled.py`)

`LabelledValueDetector`: documents with words between series and number, dates, names and citizenship behind
labels, and names that are the whole text.
-/

namespace PdMasking

open Regex Names

namespace Labelled

set_option maxRecDepth 4000

/-! ### Documents -/

/-- `_SERIES`. -/
def series : Str := chars r"(?:серия|серии|серией|сер\.)"

/-- `_NUMBER`. -/
def number : Str := chars r"(?:номер|номером|№)"

/-- `_SEP`. -/
def sep : Str := chars r"\s*[:—–-]?\s*"

/-- `_SERIES_VALUE`. -/
def seriesValue : Str := chars r"(\d{2}\s?\d{2})(?!\d)"

/-- `_NUMBER_VALUE`. -/
def numberValue : Str := chars r"(\d{6})(?!\d)"

/-- `_GAP`. -/
def gap : Str := chars r"[^\d\n]{0,25}?"

/-- `_SERIES_FIRST_RE`. -/
def seriesFirstRe : Re := re true (series ++ sep ++ seriesValue ++ gap ++ number ++ sep ++ numberValue)

/-- `_NUMBER_FIRST_RE`. -/
def numberFirstRe : Re := re true (number ++ sep ++ numberValue ++ gap ++ series ++ sep ++ seriesValue)

/-- `_LICENSE_CUE_RE`. -/
def licenseCueRe : Re := re true (chars r"удостоверени|\bву\b|\bправа\b|водительск")

/-! ### Dates -/

/-- `_MONTH`. -/
def month : Str :=
  chars r"(?:январ[яье]|феврал[яье]|март[аеу]?|апрел[яье]|ма[яйе]|июн[яье]|июл[яье]|август[аеу]?" ++
  chars r"|сентябр[яье]|октябр[яье]|ноябр[яье]|декабр[яье]" ++
  chars r"|янв|фев|мар|апр|июн|июл|авг|сент|сен|окт|ноя|дек)"

/-- `_DATE_LABEL_RE`. -/
def dateLabelRe : Re := re true (chars r"дата\s+(рождения|выдачи)[^:\n.]{0,60}?:\s*")

/-- `_MONTH_WORD`. -/
def monthWord : Str :=
  chars r"(?:января|февраля|марта|апреля|мая|июня|июля|августа|сентября|октября|ноября|декабря)"

/-- `_DATE_IN_WORDS`. -/
def dateInWords : Str := chars r"[а-яё]+(?:\s+[а-яё]+)?\s+" ++ monthWord ++ chars r"(?:\s+[а-яё]+){1,5}?\s+года"

/-- `_LABELLED_DATE_RE`. -/
def labelledDateRe : Re :=
  re true (chars r"(\d{1,2}[\s-]" ++ month ++ chars r"(?:\.?[\s-](\d{4}|\d{2}))?|\d{1,2}\s\d{2}\s(\d{2}|\d{4})" ++
    chars r"|\d{1,2}[/\s]\d{2}(?![\d/])|" ++ dateInWords ++ chars r")(?![\d\w])")

/-! ### Names -/

/-- `_WORD`. -/
def word : Str := chars "[А-ЯЁа-яё]+(?:['’][А-ЯЁа-яё]+)?"

/-- `_NAME_TOKEN`. -/
def nameToken : Str := word ++ chars r"(?:[-/]" ++ word ++ chars r")*"

/-- `_INITIAL`. -/
def initial : Str := chars r"[А-ЯЁа-яё]\."

/-- `_NAME_VALUE`. -/
def nameValue : Str :=
  chars r"(?:" ++ nameToken ++ chars r"|" ++ initial ++ chars r")(?:\s+(?:" ++ nameToken ++ chars r"|" ++
    initial ++ chars r")){0,3}"

/-- `_WHOLE_NAME_RE`. -/
def wholeNameRe : Re := re false nameValue

/-- `_TOKEN_SPLIT_RE`. -/
def tokenSplitRe : Re := re false (chars r"[\s/-]+")

/-- `_INITIAL_RE`. -/
def initialRe : Re := re false (chars r"^[А-ЯЁа-яё]\.$")

/-- A remark in brackets. -/
def bracketed : Str := chars r"\([^()]*\)"

/-- `_TRAILING_NOTE_RE`. -/
def trailingNoteRe : Re := re false (chars r"\s*" ++ bracketed ++ chars r"\s*$")

/-- `_NAME_LABEL_RE`. -/
def nameLabelRe : Re := re true (chars r"(?:\bотчество|\bимя|\bфио|\bна\s+имя)\b[^:\n]{0,40}?:\s*")

/-- `_CLIENT_NAME_RE`. -/
def clientNameRe : Re :=
  re true (chars r"\b(?:клиент|клиентка|гражданин|гражданка)\s+(" ++ word ++ chars r"(?:\s+[А-ЯЁа-яё]\.)?)")

/-- `_NOT_NAME_WORDS`. -/
def notNameWords : List Str := blankWords (
  chars "спасибо добрый доброе добрая день утро вечер здравствуйте привет карта карты заблокирована " ++
  chars "банк банка альфа альфа-банк сбербанк клиент клиентка счёт счет вклад кредит перевод")

/-- `_CITIZENSHIP_LABEL_RE`. -/
def citizenshipLabelRe : Re := re true (chars r"гражданств\w*[^:\n]{0,40}?:\s*")

/-- `_CITIZENSHIP_VALUE_RE`. -/
def citizenshipValueRe : Re := re false (chars r"[А-ЯЁ][А-ЯЁа-яё-]*(?:[\s/]+[А-ЯЁ][А-ЯЁа-яё-]*){0,3}")

section Words

variable (R : Runtime)

/-- `_is_initial`. -/
def isInitial (token : Str) : Bool := startsWith R initialRe token

/-- `s.strip(".")`. -/
def stripDots (s : Str) : Str := rstrip (s.dropWhile (· == '.')) (· == '.')

/-- `_is_name_word`. -/
def isNameWord (word : Str) : Bool :=
  let lower := stripDots (casefold R word)
  if lower ∈ notSurnames ∨ lower ∈ notNameWords then false
  else startsWith R surnameRe lower || isFirstName lower || startsWith R patronymicRe lower

/-- `_has_apostrophe`. -/
def hasApostrophe (token : Str) : Bool := '\'' ∈ token || '’' ∈ token

/-- `_TOKEN_SPLIT_RE.split(value)` without the empty parts. -/
def nameParts (value : Str) : List Str :=
  (splitAt value 0 ((tokenSplitRe.rx R).finditer value)).filter (· ≠ [])

/-- `_token_is_strong`. -/
def tokenIsStrong (token : Str) : Bool :=
  if isInitial R token || hasApostrophe token then true else (nameParts R token).any (isNameWord R)

/-- `_token_is_allowed`. -/
def tokenIsAllowed (token : Str) : Bool := tokenIsStrong R token || startsUpper R token

/-- `_looks_like_name`. -/
def looksLikeName (value : Str) : Bool :=
  let tokens := splitSpace R value
  let parts := (nameParts R value).map (casefold R)
  if parts.any (fun p => stripDots p ∈ notNameWords) then false
  else if parts.any (startsWith R famousSurnameRe) then false
  else if !tokens.all (tokenIsAllowed R) then false
  else tokens.any (tokenIsStrong R)

end Words

end Labelled

namespace LabelledValueDetector

open Labelled

variable (R : Runtime)

/-- `_document_type`. -/
def documentType (text : Str) (start : ℕ) : PDType :=
  let window := slice text (start - 60) start
  if ((licenseCueRe.rx R).search window 0 window.length).isSome then .driverLicense else .passport

/-- `_documents`. -/
def documents (text : Str) : List (Option Entity) :=
  [seriesFirstRe, numberFirstRe].flatMap (fun pattern =>
    ((pattern.rx R).finditer text).map (fun m =>
      makeEntity (documentType R text m.start) [m.groupSpan 1, m.groupSpan 2] 45 ∅))

/-- `_dates`. -/
def dates (text : Str) : List (Option Entity) :=
  ((dateLabelRe.rx R).finditer text).filterMap (fun label => do
    let m ← (labelledDateRe.rx R).matchAt text label.stop
    let year := ((m.group 2).or (m.group 3)).map (fun p => slice text p.1 p.2)
    if year.any (fun year => year.length = 4 ∧ intOf R year < 1900) then none
    else
      let pdType :=
        if R.lower (groupText text 1 label) = chars "рождения" then PDType.birthDate else .passportIssueDate
      return makeEntity pdType [m.groupSpan 1] 45 ∅)

/-- `_labelled_names`. -/
def labelledNames (text : Str) : List (Option Entity) :=
  ((nameLabelRe.rx R).finditer text).filterMap (fun label => do
    let m ← (wholeNameRe.rx R).matchAt text label.stop
    if !startsUpper R (matched text m) then none
    else if !looksLikeName R (matched text m) then none
    else return makeEntity .fio [m.span] 45 ∅)

/-- `_client_names`. -/
def clientNames (text : Str) : List (Option Entity) :=
  ((clientNameRe.rx R).finditer text).filterMap (fun m => do
    let firstWord := casefold R (← (splitSpace R (groupText text 1 m)).head?)
    if isFirstName firstWord ∧ firstWord ∉ notNameWords then
      return makeEntity .fio [m.groupSpan 1] 45 ∅
    else none)

/-- `value` in `_whole_name`. -/
def wholeNameValue (stripped : Str) : Str :=
  let value :=
    match (trailingNoteRe.rx R).search stripped 0 stripped.length with
    | some note => stripped.take note.start
    | none => stripped
  rstrip value (among ",;!")

/-- It is found in the text. -/
theorem find_wholeName {text : Str} (hne : wholeNameValue R (strip R text) ≠ []) :
    ∃ start, find text (wholeNameValue R (strip R text)) = some start := by
  have hfront : wholeNameValue R (strip R text) <+: strip R text := by
    unfold wholeNameValue
    split
    · exact (rstrip_isPrefix _ _).trans (List.take_prefix _ _)
    · exact rstrip_isPrefix _ _
  exact exists_find hne (hfront.isInfix.trans strip_infix)

/-- `_whole_name`. -/
def wholeName (text : Str) : List (Option Entity) :=
  let stripped := strip R text
  if stripped.length > 80 then []
  else
    let value := wholeNameValue R stripped
    if value = [] ∨ ((wholeNameRe.rx R).fullmatch value).isNone then []
    else if !looksLikeName R value then []
    else ((find text value).map (fun start => makeEntity .fio [(start, start + value.length)] 45 ∅)).toList

/-- `_citizenship`. -/
def citizenship (text : Str) : List (Option Entity) :=
  ((citizenshipLabelRe.rx R).finditer text).filterMap (fun label =>
    ((citizenshipValueRe.rx R).matchAt text label.stop).map (fun m => makeEntity .citizenship [m.span] 45 ∅))

/-! ### What the candidates consist of -/

variable {R} {text : Str} {P : Candidate → Prop}

theorem dates_yields
    (hP : ∀ label ∈ (dateLabelRe.rx R).finditer text, ∀ m, (labelledDateRe.rx R).matchAt text label.stop = some m →
      ∀ pdType ∈ [PDType.birthDate, .passportIssueDate], P ⟨pdType, [m.groupSpan 1], 45, ∅⟩) :
    Yields P (dates R text) := by
  refine Yields.filterMap ?_
  intro label hlabel o ho
  obtain ⟨m, hm, ho⟩ := Option.bind_eq_some_iff.mp ho
  dsimp only at ho
  split_ifs at ho
  · obtain rfl := Option.some.inj ho
    exact Yields.one (hP label hlabel m hm _ (by simp))
  · obtain rfl := Option.some.inj ho
    exact Yields.one (hP label hlabel m hm _ (by simp))

theorem labelledNames_yields
    (hP : ∀ label ∈ (nameLabelRe.rx R).finditer text, ∀ m, (wholeNameRe.rx R).matchAt text label.stop = some m →
      P ⟨.fio, [m.span], 45, ∅⟩) : Yields P (labelledNames R text) := by
  refine Yields.filterMap ?_
  intro label hlabel o ho
  obtain ⟨m, hm, ho⟩ := Option.bind_eq_some_iff.mp ho
  split_ifs at ho
  obtain rfl := Option.some.inj ho
  exact Yields.one (hP label hlabel m hm)

theorem clientNames_yields (hP : ∀ m ∈ (clientNameRe.rx R).finditer text, P ⟨.fio, [m.groupSpan 1], 45, ∅⟩) :
    Yields P (clientNames R text) := by
  refine Yields.filterMap ?_
  intro m hm o ho
  obtain ⟨word, -, ho⟩ := Option.bind_eq_some_iff.mp ho
  dsimp only at ho
  split_ifs at ho
  obtain rfl := Option.some.inj ho
  exact Yields.one (hP m hm)

/-- The name that is the whole text, found in it. -/
theorem wholeName_yields
    (hP : ∀ value start, value ≠ [] → ((wholeNameRe.rx R).fullmatch value).isSome → find text value = some start →
      P ⟨.fio, [(start, start + value.length)], 45, ∅⟩) : Yields P (wholeName R text) := by
  unfold wholeName
  dsimp only
  refine Yields.ite (fun _ => Yields.nil) (fun _ => Yields.ite (fun _ => Yields.nil) (fun hvalue =>
    Yields.ite (fun _ => Yields.nil) (fun _ => Yields.toList ?_)))
  intro o ho
  obtain ⟨start, hstart, rfl⟩ := Option.map_eq_some_iff.mp ho
  rw [not_or, Bool.not_eq_true, Option.isNone_eq_false_iff] at hvalue
  exact Yields.one (hP _ start hvalue.1 hvalue.2 hstart)

theorem citizenship_yields
    (hP : ∀ label ∈ (citizenshipLabelRe.rx R).finditer text, ∀ m,
      (citizenshipValueRe.rx R).matchAt text label.stop = some m → P ⟨.citizenship, [m.span], 45, ∅⟩) :
    Yields P (citizenship R text) := by
  refine Yields.filterMap ?_
  intro label hlabel o ho
  obtain ⟨m, hm, rfl⟩ := Option.map_eq_some_iff.mp ho
  exact Yields.one (hP label hlabel m hm)

end LabelledValueDetector

open LabelledValueDetector in
/-- `LabelledValueDetector`. -/
def LabelledValueDetector (R : Runtime) : Detector where
  types := {.passport, .driverLicense, .birthDate, .passportIssueDate, .fio, .citizenship}
  needsDigits := false
  detect text :=
    documents R text ++ dates R text ++ labelledNames R text ++ clientNames R text ++ wholeName R text ++
      citizenship R text

end PdMasking
