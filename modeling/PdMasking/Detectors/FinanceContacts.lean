import PdMasking.Engine

/-!
# PdMasking.Detectors.FinanceContacts — addresses and numbers (`core/detectors/finance_contacts.py`)

`CardDetector`, `InnDetector` and `ContactDetector` with their patterns.  `card_yields`, `inn_yields`,
`contact_yields`: what their candidates consist of.
-/

namespace PdMasking

open Regex

/-! ### The patterns -/

def isAsciiAlnum (c : Char) : Bool := isAsciiLetter c || ('0' ≤ c && c ≤ '9')

/-- A label of a domain with its dot: `[A-Za-z0-9](?:[A-Za-z0-9-]{0,61}[A-Za-z0-9])?\.` -/
def domainLabel : Regex Char :=
  concat [cls isAsciiAlnum,
    opt (concat [between 0 61 (cls (fun c => isAsciiAlnum c || c == '-')), cls isAsciiAlnum]),
    cls (· == '.')]

/-- `_EMAIL_RE`. -/
def emailRe (R : Runtime) : Regex Char :=
  concat [behind false (fun c => wordChar R c || among ".+-" c),
    cls isAsciiAlnum,
    opt (concat [between 0 62 (cls (fun c => isAsciiAlnum c || among "._%+-" c)),
      cls (fun c => isAsciiAlnum c || among "_%+-" c)]),
    cls (· == '@'),
    rep false 1 none domainLabel,
    between 2 24 (cls isAsciiLetter),
    ahead false (cls (fun c => wordChar R c || c == '-'))]

section Phones

variable (R : Runtime)

/-- `[\s\-]?`. -/
def phoneSep : Regex Char := opt (cls (fun c => R.isspace c || c == '-'))

/-- `(?<![\d+])`. -/
def noDigitBefore : Regex Char := behind false (fun c => R.isdecimal c || c == '+')

/-- `(?!\d)`. -/
def noDigitAfter : Regex Char := ahead false (digit R)

/-- `_PHONE_RU_RE`. -/
def phoneRuRe : Regex Char :=
  concat [noDigitBefore R,
    Regex.oneOf (concat [cls (· == '+'), cls (· == '7')]) [cls (· == '8'), cls (· == '7')],
    phoneSep R, opt (cls (· == '(')), times 3 (digit R), opt (cls (· == ')')),
    phoneSep R, times 3 (digit R), phoneSep R, times 2 (digit R), phoneSep R, times 2 (digit R),
    noDigitAfter R]

/-- `_PHONE_INTL_RE`. -/
def phoneIntlRe : Regex Char :=
  concat [noDigitBefore R, cls (· == '+'), ahead false (cls (· == '7')), between 1 3 (digit R),
    phoneSep R, opt (cls (· == '(')), between 2 4 (digit R), opt (cls (· == ')')),
    between 2 3 (concat [phoneSep R, between 2 4 (digit R)]), noDigitAfter R]

/-- `_PHONE_CTX_RE`. -/
def phoneCtxRe : Regex Char :=
  concat [
    Regex.oneOf (concat [literal R "тел", star (word R)])
      [concat [literal R "моб", star (word R)], literal R "phone", concat [literal R "сот", star (word R)],
        literal R "whatsapp", literal R "telegram", literal R "viber"],
    star (space R), opt (cls (among ":.-–")), star (space R),
    group 1 (alt (concat [times 3 (digit R), phoneSep R, times 2 (digit R), phoneSep R, times 2 (digit R)])
      (times 10 (digit R))),
    noDigitAfter R]

end Phones

namespace FinanceContacts

set_option maxRecDepth 2000

/-- `_CARD_RE`. -/
def cardRe : Re :=
  re false (chars r"(?<![\d\-])(\d{4}(?:[ \-]\d{4}){3}(?:[ \-]\d{3})?|\d{4}[ \-]\d{6}[ \-]\d{5}|\d{13,19})(?![\d])")

/-- `_CARD_CUE_RE`. -/
def cardCueRe : Re := re true (chars r"карт|card|visa|master|\bмир\b|maestro|\bpan\b")

/-- `_CVV_RE`. -/
def cvvRe : Re :=
  re true (chars r"(?:cvv2?|cvc2?|cvn|cav2|код\w*\s+безопасности|(?:трёх|трех)значн\w+\s+код\w*" ++
    chars r"|код\w*\s+(?:на|с)\s+(?:обороте|обратной\s+стороне))\s*(?:код\w*)?\s*[:\-–]?\s*(\d{3,4})(?!\d)")

/-- `_PIN_RE`. -/
def pinRe : Re :=
  re true (chars r"(?:пин[\-\s]?код\w*|\bпин\b|\bpin(?:[\-\s]?code)?\b)\s*(?:от\s+)?(?:карты\s*)?" ++
    chars r"[:\-–]?\s*(\d{4,6})(?!\d)")

/-- `_EXPIRY_VALUE`. -/
def expiryValue : Str := chars r"((?:0[1-9]|1[0-2])\s?[/.\-]\s?(?:\d{4}|\d{2}))(?![\d/]|\.\d)"

/-- `_EXPIRY_CTX_RE`. -/
def expiryCtxRe : Re :=
  re true (chars r"(?:срок\w*\s+действия(?:\s+карты)?|exp(?:iry|iration)?(?:\s+date)?" ++
    chars r"|valid\s+(?:thru|through|until))" ++ chars r"\s*[:\-–.]?\s*" ++ expiryValue)

/-- `_EXPIRY_WEAK_CTX_RE`. -/
def expiryWeakCtxRe : Re :=
  re true (chars r"(?:действительн\w*\s+до|действует\s+до|годна\s+до)\s*[:\-–.]?\s*" ++ expiryValue)

/-- `_DISCOUNT_CUE_RE`. -/
def discountCueRe : Re :=
  re true (chars r"скидк\w*|акци\w*|предложени\w*|тариф\w*|цена|цены|цен\w*|стоимост\w*|промо|бонус\w*|купон\w*")

/-- `_EXPIRY_BARE_RE`. -/
def expiryBareRe : Re := re false (chars r"(?<![\d/.])((?:0[1-9]|1[0-2])/\d{2})(?![\d/])")

/-- `_INN_CTX_RE`. -/
def innCtxRe : Re := re true (chars r"\bинн\b\s*(?:физ\w*\s+лиц\w*\s*)?[:№\-–]?\s*(\d{12}|\d{10})(?!\d)")

/-- `_INN_BARE_RE`. -/
def innBareRe : Re := re false (chars r"(?<!\d)(\d{12})(?!\d)")

/-- `_ORG_CUE_RE`. -/
def orgCueRe : Re :=
  re true (chars r"организац|компани|контрагент|поставщик|юр\w*\s+лиц" ++
    chars r"|\bооо\b|\bоао\b|\bзао\b|\bпао\b|\bао\b|\bип\b")

end FinanceContacts

/-! ### The detectors -/

section Detectors

open FinanceContacts

variable (R : Runtime)

/-- One loop over a pattern that reports its group 1. -/
def group1 (text : Str) (pattern : Re) (pdType : PDType) (priority : ℤ) (requiresAny : Finset PDType) :
    List (Option Entity) :=
  ((pattern.rx R).finditer text).map (fun m => makeEntity pdType (groups m [1]) priority requiresAny)

/-- `CardDetector`. -/
def CardDetector : Detector where
  types := {.cardNumber, .cardCvv, .cardPin, .cardExpiry}
  needsDigits := true
  detect text :=
    ((cardRe.rx R).finditer text).filterMap (fun m =>
      let digits := digitsOnly R (groupText text 1 m)
      if ¬ (13 ≤ digits.length ∧ digits.length ≤ 19) then none
      else if luhnValid digits ∨ cueBefore R text m.start cardCueRe 40 then
        some (makeEntity .cardNumber (groups m [1]) 82 ∅)
      else none) ++
    group1 R text cvvRe .cardCvv 85 ∅ ++
    group1 R text pinRe .cardPin 85 ∅ ++
    group1 R text expiryCtxRe .cardExpiry 80 ∅ ++
    ((expiryWeakCtxRe.rx R).finditer text).filterMap (fun m =>
      if cueBefore R text m.start discountCueRe 40 then none
      else some (makeEntity .cardExpiry (groups m [1]) 78 ∅)) ++
    group1 R text expiryBareRe .cardExpiry 40 {.cardNumber}

/-- `InnDetector`. -/
def InnDetector : Detector where
  types := {.inn}
  needsDigits := true
  detect text :=
    ((innCtxRe.rx R).finditer text).filterMap (fun m =>
      if cueBefore R text m.start orgCueRe 40 then none
      else some (makeEntity .inn (groups m [1]) 77 ∅)) ++
    ((innBareRe.rx R).finditer text).filterMap (fun m =>
      if innValid R (groupText text 1 m) then some (makeEntity .inn (groups m [1]) 42 ∅) else none)

end Detectors

/-- `_is_org_phone`. -/
def isOrgPhone (R : Runtime) (value : Str) : Bool :=
  "8800".toList.isPrefixOf (digitsOnly R value) || "7800".toList.isPrefixOf (digitsOnly R value)

/-- One loop over the telephone numbers of a pattern; `span` is where the number stands in a match. -/
def phones (R : Runtime) (text : Str) (pattern : Regex Char) (span : Match → ℕ × ℕ) (priority : ℤ) :
    List (Option Entity) :=
  (pattern.finditer text).filterMap (fun m =>
    if isOrgPhone R (slice text (span m).1 (span m).2) then none
    else some (makeEntity .phone [span m] priority ∅))

/-- `ContactDetector`. -/
def ContactDetector (R : Runtime) : Detector where
  types := {.email, .phone}
  needsDigits := false
  detect text :=
    (if '@' ∈ text then
      ((emailRe R).finditer text).map (fun m => makeEntity .email [m.span] 90 ∅)
    else []) ++
      phones R text (phoneRuRe R) Match.span 65 ++ phones R text (phoneIntlRe R) Match.span 65 ++
      phones R text (phoneCtxRe R) (Match.groupSpan 1) 64

/-! ### What the candidates consist of -/

section Candidates

open FinanceContacts

variable {R : Runtime} {text : Str} {P : Candidate → Prop}

theorem group1_yields {r : Re} {pdType : PDType} {priority : ℤ} {requiresAny : Finset PDType}
    (hP : ∀ m ∈ (r.rx R).finditer text, P ⟨pdType, groups m [1], priority, requiresAny⟩) :
    Yields P (group1 R text r pdType priority requiresAny) := by
  refine Yields.map ?_
  intro m hm
  exact Yields.one (hP m hm)

/-- A number, a code or a date of a card is group 1 of its pattern. -/
theorem card_yields
    (hP : ∀ r ∈ [cardRe, cvvRe, pinRe, expiryCtxRe, expiryWeakCtxRe, expiryBareRe], ∀ m ∈ (r.rx R).finditer text,
      ∀ pdType ∈ (CardDetector R).types, ∀ priority ≤ 85, ∀ requiresAny,
      P ⟨pdType, groups m [1], priority, requiresAny⟩) :
    Yields P ((CardDetector R).detect text) := by
  have htypes : ∀ pdType ∈ [PDType.cardNumber, .cardCvv, .cardPin, .cardExpiry], pdType ∈ (CardDetector R).types := by
    simp [CardDetector]
  refine ((((Yields.filterMap ?_).append (group1_yields ?_)).append (group1_yields ?_)).append
    (group1_yields ?_)).append (Yields.filterMap ?_) |>.append (group1_yields ?_)
  · intro m hm o ho
    dsimp only at ho
    split_ifs at ho
    obtain rfl := Option.some.inj ho
    exact Yields.one (hP cardRe (by simp) m hm _ (htypes _ (by simp)) 82 (by decide) _)
  · intro m hm
    exact hP cvvRe (by simp) m hm _ (htypes _ (by simp)) 85 le_rfl _
  · intro m hm
    exact hP pinRe (by simp) m hm _ (htypes _ (by simp)) 85 le_rfl _
  · intro m hm
    exact hP expiryCtxRe (by simp) m hm _ (htypes _ (by simp)) 80 (by decide) _
  · intro m hm o ho
    split_ifs at ho
    obtain rfl := Option.some.inj ho
    exact Yields.one (hP expiryWeakCtxRe (by simp) m hm _ (htypes _ (by simp)) 78 (by decide) _)
  · intro m hm
    exact hP expiryBareRe (by simp) m hm _ (htypes _ (by simp)) 40 (by decide) _

theorem inn_yields
    (hP : ∀ r ∈ [innCtxRe, innBareRe], ∀ m ∈ (r.rx R).finditer text, ∀ priority ≤ 77,
      P ⟨.inn, groups m [1], priority, ∅⟩) :
    Yields P ((InnDetector R).detect text) := by
  refine (Yields.filterMap ?_).append (Yields.filterMap ?_)
  · intro m hm o ho
    split_ifs at ho
    obtain rfl := Option.some.inj ho
    exact Yields.one (hP innCtxRe (by simp) m hm 77 le_rfl)
  · intro m hm o ho
    split_ifs at ho
    obtain rfl := Option.some.inj ho
    exact Yields.one (hP innBareRe (by simp) m hm 42 (by decide))

theorem phones_yields {pattern : Regex Char} {span : Match → ℕ × ℕ} {priority : ℤ}
    (hP : ∀ m ∈ pattern.finditer text, P ⟨.phone, [span m], priority, ∅⟩) :
    Yields P (phones R text pattern span priority) := by
  refine Yields.filterMap ?_
  intro m hm o ho
  split_ifs at ho
  obtain rfl := Option.some.inj ho
  exact Yields.one (hP m hm)

/-- An address, a number on its own, or a number behind its label. -/
theorem contact_yields (hemail : ∀ m ∈ (emailRe R).finditer text, P ⟨.email, [m.span], 90, ∅⟩)
    (hru : ∀ m ∈ (phoneRuRe R).finditer text, P ⟨.phone, [m.span], 65, ∅⟩)
    (hintl : ∀ m ∈ (phoneIntlRe R).finditer text, P ⟨.phone, [m.span], 65, ∅⟩)
    (hctx : ∀ m ∈ (phoneCtxRe R).finditer text, P ⟨.phone, [m.groupSpan 1], 64, ∅⟩) :
    Yields P ((ContactDetector R).detect text) := by
  refine (((Yields.ite (fun _ => Yields.map ?_) (fun _ => Yields.nil)).append (phones_yields hru)).append
    (phones_yields hintl)).append (phones_yields hctx)
  intro m hm
  exact Yields.one (hemail m hm)

end Candidates

end PdMasking
