import PdMasking.Detectors.Names

/-!
# PdMasking.Detectors.Standalone — texts that are one bare value (`core/detectors/standalone.py`)

`StandaloneValueDetector`: ten checks in their order decide of which type the whole text is.
-/

namespace PdMasking

open Regex Names

namespace Standalone

set_option maxRecDepth 4000

/-- `_COUNTRIES`. -/
def countries : List Str :=
  [chars "россия", chars "рф", chars "российская федерация", chars "украина", chars "беларусь",
    chars "республика беларусь", chars "казахстан", chars "республика казахстан", chars "узбекистан",
    chars "армения", chars "азербайджан", chars "киргизия", chars "таджикистан", chars "молдова",
    chars "грузия"]

/-- `_MONTHS`. -/
def months : Str :=
  chars r"январ[яье]|феврал[яье]|март[аеу]?|апрел[яье]|ма[яйе]|июн[яье]|июл[яье]|август[аеу]?" ++
  chars r"|сентябр[яье]|октябр[яье]|ноябр[яье]|декабр[яье]" ++
  chars r"|янв|фев|мар|апр|июн|июл|авг|сен|сент|окт|ноя|дек"

/-- `_FORMATS`. -/
def formats : List (Re × PDType) :=
  [(re false (chars r"^\d{3}$"), .cardCvv),
    (re false (chars r"^(0[1-9]|1[0-2])[/.](\d{2}|\d{4})$"), .cardExpiry),
    (re false (chars r"^\d{2} [А-ЯЁа-яё]{2} \d{6}$"), .driverLicense),
    (re false (chars r"^\d{10}$"), .passport),
    (re false (chars r"^\d{12}$"), .inn),
    (re false (chars r"^\d{3}-\d{3}$"), .departmentCode),
    (re false (chars r"^\d{6}$"), .address)]

/-- `_DATE_DMY_RE`. -/
def dateDmyRe : Re := re false (chars r"^\d{1,2}[./-]\d{1,2}[./-](\d{4})$")

/-- `_DATE_YMD_RE`. -/
def dateYmdRe : Re := re false (chars r"^(\d{4})[./-]\d{1,2}[./-]\d{1,2}$")

/-- `_DATE_TEXT_RE`. -/
def dateTextRe : Re := re true (chars r"^\d{1,2}(?:-?го)?\s+(" ++ months ++ chars r")\.?\s+(\d{4})$")

/-- `_CARD_NUMBER_RE`. -/
def cardNumberRe : Re := re false (chars r"^[\d \-]{16,19}$")

/-- `_PHONE_RE`. -/
def phoneRe : Re := re false (chars r"^(\+7\d{10}|8 \d{3} \d{3} \d{2} \d{2})$")

/-- `_EMAIL_RE`. -/
def emailRe : Re :=
  re false (chars r"^[A-Za-z0-9](?:[A-Za-z0-9._%+-]{0,62}[A-Za-z0-9_%+-])?@" ++
    chars r"(?:[A-Za-z0-9](?:[A-Za-z0-9-]{0,61}[A-Za-z0-9])?\.)+[A-Za-z]{2,24}$")

/-- `_ISSUER_RE`. -/
def issuerRe : Re :=
  re true (chars r"^(?:ГУ\s+)?(?:МВД|ФМС|ОВД|УВД|УФМС|ОУФМС|ОМВД|ГИБДД|РЭО|ТП|отдел\w*|управлени\w*|паспортн\w*)\b" ++
    chars r"(?:\s+России(?:\s+по\s+.+)?|\s+по\s+.+)$")

/-- `_CARD_HOLDER_RE`. -/
def cardHolderRe : Re := re false (chars r"^[A-Za-z]{2,}(?: [A-Za-z]{2,}){1,2}$")

/-- The pattern of `re.fullmatch(r"\d{4}", value)`. -/
def fourDigitsRe : Re := re false (chars r"\d{4}")

/-- `_LATIN_STOPWORDS`. -/
def latinStopwords : List Str :=
  [chars "cvv", chars "cvc", chars "pin", chars "visa", chars "mastercard", chars "mir", chars "maestro",
    chars "valid", chars "thru", chars "exp", chars "card", chars "bank", chars "number", chars "holder",
    chars "name", chars "unionpay", chars "amex", chars "code", chars "date"]

/-- `_FLOAT_ARTIFACT_RE`. -/
def floatArtifactRe : Re := re false (chars r"(\d+)\.0")

section Checks

variable (R : Runtime)

/-- `pattern.fullmatch(value)` as a truth value. -/
def isFull (pattern : Re) (value : Str) : Bool := ((pattern.rx R).fullmatch value).isSome

/-- `_strip`. -/
def stripValue (text : Str) : Str :=
  let value := strip R text
  match (floatArtifactRe.rx R).fullmatch value with
  | some artifact => groupText value 1 artifact
  | none => rstrip value (among ".,;!")

/-- What a check says of a value: it is of a type, it is no personal data, or the next check decides. -/
inductive Verdict
  | found (pdType : PDType)
  | stop
  | next

def Verdict.ofOption : Option PDType → Verdict
  | some t => .found t
  | none => .next

def checkPin (value : Str) : Verdict :=
  if isFull R fourDigitsRe value then
    if ¬ (1900 ≤ intOf R value ∧ intOf R value ≤ 2099) then .found .cardPin else .stop
  else .next

def checkFormats (value : Str) : Verdict :=
  .ofOption ((formats.find? (fun f => isFull R f.1 value)).map Prod.snd)

/-- `_classify_date`: the first of the three formats that fits decides. -/
def classifyDate (value : Str) : Option PDType :=
  match (dateDmyRe.rx R).fullmatch value with
  | some m => if intOf R (groupText value 1 m) ≥ 1900 then some .date else none
  | none =>
    match (dateYmdRe.rx R).fullmatch value with
    | some m => if intOf R (groupText value 1 m) ≥ 1900 then some .date else none
    | none =>
      match (dateTextRe.rx R).fullmatch value with
      | some m => if intOf R (groupText value 2 m) ≥ 1900 then some .date else none
      | none => none

def checkDate (value : Str) : Verdict := .ofOption (classifyDate R value)

def checkCardNumber (value : Str) : Verdict :=
  if isFull R cardNumberRe value ∧ 16 ≤ (digitsOnly R value).length ∧ (digitsOnly R value).length ≤ 19 then
    .found .cardNumber
  else .next

def checkPhone (value : Str) : Verdict := if isFull R phoneRe value then .found .phone else .next

def checkEmail (value : Str) : Verdict := if isFull R emailRe value then .found .email else .next

def checkIssuer (value : Str) : Verdict := if isFull R issuerRe value then .found .passportIssuer else .next

def checkCardHolder (value : Str) : Verdict :=
  if isFull R cardHolderRe value ∧
      ¬ (splitSpace R (casefold R value)).any (fun w => w ∈ latinStopwords) then .found .cardHolder
  else .next

def checkCitizenship (value : Str) : Verdict :=
  if casefold R value ∈ countries then .found .citizenship else .next

/-- `_classify_single_word`. -/
def classifySingleWord (value : Str) : Option PDType :=
  let lower := casefold R value
  if lower ∈ cities then some .address
  else if lower ∈ notSurnames then none
  else if startsWith R famousSurnameRe lower then none
  else if startsWith R surnameRe lower ∨ isFirstName lower ∨ startsWith R patronymicRe lower then some .fio
  else none

def checkSingleWord (value : Str) : Verdict :=
  if ' ' ∉ value then .ofOption (classifySingleWord R value) else .next

/-- `_CHECKS`. -/
def checks : List (Str → Verdict) :=
  [checkPin R, checkFormats R, checkDate R, checkCardNumber R, checkPhone R, checkEmail R, checkIssuer R,
    checkCardHolder R, checkCitizenship R, checkSingleWord R]

/-- The loop of `_classify`. -/
def classifyBy (value : Str) : List (Str → Verdict) → Option PDType
  | [] => none
  | check :: checks =>
    match check value with
    | .found t => some t
    | .stop => none
    | .next => classifyBy value checks

/-- `_classify`. -/
def classify (value : Str) : Option PDType := classifyBy value (checks R)

end Checks

end Standalone

open Standalone in
/-- `StandaloneValueDetector`. -/
def StandaloneValueDetector (R : Runtime) : Detector where
  types := {.cardCvv, .cardPin, .cardExpiry, .date, .passport, .driverLicense, .departmentCode, .address, .inn,
    .cardNumber, .cardHolder, .citizenship, .passportIssuer, .phone, .email, .fio}
  needsDigits := false
  detect text :=
    let stripped := stripValue R text
    if stripped = [] then []
    else
      match find text stripped, classify R stripped with
      | some start, some pdType => [makeEntity pdType [(start, start + stripped.length)] 90 ∅]
      | _, _ => []

end PdMasking
