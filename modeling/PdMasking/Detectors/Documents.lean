import PdMasking.Detectors.Base
import Mathlib.Data.List.DropRight

/-!
# PdMasking.Detectors.Documents — identity documents and their issue (`core/detectors/documents.py`)

`IdentityDocumentDetector`, `IssuanceDetector` and `ExtraDocumentDetector` with their patterns.
-/

namespace PdMasking

open Regex

namespace Documents

set_option maxRecDepth 4000

/-! ### Passport and driving licence -/

/-- `_SERIES`. -/
def series : Str := chars r"(\d{2}[ \t]{0,20}(?:\d{2}|[А-ЯЁA-Z]{2}))"

/-- `_NUMBER`. -/
def number : Str := chars r"(\d{6})(?!\d)"

/-- `_BETWEEN`. -/
def between : Str := chars r"[\s,\-№:]*(?:номер|ном\.|№|н\.)?\s*[:№]?\s*"

/-- `_SERIES_NUMBER_RE`. -/
def seriesNumberRe : Re := re true (chars r"серия\s*[:№]?\s*" ++ series ++ between ++ number)

/-- `_PASSPORT_CTX_RE`. -/
def passportCtxRe : Re :=
  re true (chars r"(?:паспорт\w*|серия\s+и\s+номер|удостоверени\w+\s+личности|\bдул\b)[^\d\n]{0,40}?" ++
    chars r"(?<!\d)(\d{2}\s?\d{2})" ++ between ++ number)

/-- `_PASSPORT_BARE_SPACED_RE`. -/
def passportBareSpacedRe : Re := re false (chars r"(?<![\d\-])(\d{2}\s\d{2})\s(\d{6})(?![\d\-])")

/-- `_PASSPORT_BARE_RE`. -/
def passportBareRe : Re := re false (chars r"(?<![\d\-+])(\d{4})\s(\d{6})(?![\d\-])")

/-- `_DRIVER_CTX_RE`. -/
def driverCtxRe : Re :=
  re true (chars r"(?:водительск\w*(?:\s+удостоверени\w*)?|\bв/у\b|\bву\b|вод\.\s*уд\.?|\bправ[аео]?\b" ++
    chars r"|driver'?s?\s+licen[cs]e)[^\d\n]{0,40}?(?<![\dА-ЯЁA-Z])" ++ series ++ between ++ number)

/-- `_DRIVER_CUE_RE`. -/
def driverCueRe : Re := re true (chars r"водительск|\bв/у\b|\bву\b|вод\.\s*уд|\bправ[аео]?\b|driver")

/-! ### Issue -/

/-- `_DEPT_CODE_RE`. -/
def deptCodeRe : Re :=
  re true (chars r"(?:код\w*\s+подразделени\w*|код\w*\s+подр\.|к/п|к\.\s?п\.)" ++
    chars r"\s*[:№\-–]?\s*(\d{3}[\s\-]?\d{3})(?!\d)")

/-- `_DEPT_CODE_BARE_RE`. -/
def deptCodeBareRe : Re := re false (chars r"(?<![\d\-])(\d{3}-\d{3})(?![\d\-])")

/-- `_ISSUER_START_RE`. -/
def issuerStartRe : Re :=
  re true (chars r"(?:кем\s+выдан\w*|выдан[аоы]?(?![а-яё])|орган\w*,?\s+выдавш\w+(?:\s+(?:паспорт|документ)\w*)?" ++
    chars r"|issued\s+by)\s*[:\-–]?\s*")

/-- `_ISSUER_AUTHORITY_RE`. -/
def issuerAuthorityRe : Re :=
  re true (chars r"мвд|фмс|овд|увд|уфмс|оуфмс|омвд|отдел|\bгу\b|\bтп\b|гибдд|полиц|управлени|паспортн|\bмо\b|рэо")

/-- `_ISSUER_STOP_RE`. -/
def issuerStopRe : Re :=
  re true (chars r"[;\n]|,?\s*(?:дата\s+выдачи|код\w*\s+подразделени|к/п\b)" ++
    chars r"|,?\s*\d{1,2}[./]\d{1,2}[./]\d{2,4}|,\s*\d" ++
    chars r"|(?<![\s.][А-Яа-яЁё])(?<![\s.][А-Яа-яЁё]{2})\.\s+(?-i:[А-ЯЁ])|\.\s*$")

/-- `_COUNTRIES`. -/
def countries : Str :=
  chars r"РФ|Росси[ияйю]|Российск\w+\s+Федераци\w+|российск\w+|русск\w+" ++
  chars r"|(?:Республик[аи]\s+)?Беларусь|Белоруссии|белорусск\w+|Украин[аыеу]|украинск\w+" ++
  chars r"|(?:Республик[аи]\s+)?Казахстан\w*|казахстанск\w+|(?:Республик[аи]\s+)?Узбекистан\w*|узбекск\w+" ++
  chars r"|(?:Республик[аи]\s+)?Таджикистан\w*|таджикск\w+" ++
  chars r"|(?:Республик[аи]\s+)?Кыргызстан\w*|Кыргызской\s+Республики|Киргизи[ия]|киргизск\w+" ++
  chars r"|(?:Республик[аи]\s+)?Армени[ияю]|армянск\w+" ++
  chars r"|(?:Республик[аи]\s+)?Азербайджан\w*|азербайджанск\w+|Грузи[ия]|грузинск\w+" ++
  chars r"|(?:Республик[аи]\s+)?Молдов[аыу]|Молдави[ия]|Туркменистан\w*" ++
  chars r"|Германи[ия]|США|Кита[йя]|КНР|Турци[ия]|Израил[ья]|Латви[ия]|Литв[аы]|Эстони[ия]|Франци[ия]" ++
  chars r"|Итали[ия]|Великобритани[ия]|Инди[ия]|Вьетнам\w*|Серби[ия]|Польш[аи]|Абхази[ия]"

/-- `_CITIZENSHIP_RE`. -/
def citizenshipRe : Re :=
  re true (chars r"(?:гражданств\w*|подданств\w*|гражданин\w*|гражданк\w*|citizenship|nationality)" ++
    chars "\\s*[:\\-–—=(«\\\"]?\\s*(" ++ countries ++ chars r")(?![А-Яа-яЁё])")

/-- `_BIRTH_PLACE_TOKEN`. -/
def birthPlaceToken : Str := chars r"(?:(?:гор|пос|пгт|дер|ст|обл|респ|г|с|д)\.|ст-ца|[А-ЯЁа-яё][А-ЯЁа-яё\-]*)"

/-- `_BIRTH_PLACE_VALUE`. -/
def birthPlaceValue : Str :=
  chars r"[А-ЯЁа-яё][А-ЯЁа-яё\-]*" ++ chars r"(?:(?:\s+|,\s*)" ++ birthPlaceToken ++ chars r"){0,5}"

/-- `_BIRTH_PLACE_PREFIX`. -/
def birthPlacePrefix : Str :=
  chars r"(?:(?:г\.|гор\.|город|с\.|село|пос\.|посёлок|поселок|пгт\.?|д\.|дер\.|деревня|ст-ца|станица)\s*)?"

/-- `_BIRTH_PLACE_RE`. -/
def birthPlaceRe : Re :=
  re true (chars r"(?:место\s+рождения|родил(?:ся|ась)(?:\s+\d{1,2}[./]\d{1,2}[./]\d{2,4})?\s+в(?![а-яё])" ++
    chars r"|уроже?н(?:ец|ка)|\bм\.\s?р\.|place\s+of\s+birth)" ++
    chars r"\s*[:\-–—]?\s*" ++ birthPlacePrefix ++ chars r"(" ++ birthPlaceValue ++ chars r")")

/-- `_BIRTH_PLACE_VALUE_RE`. -/
def birthPlaceValueRe : Re := re true (birthPlacePrefix ++ chars r"(" ++ birthPlaceValue ++ chars r")")

/-- `_BIRTH_PLACE_WORD_RE`. -/
def birthPlaceWordRe : Re := re false (chars r"[А-ЯЁа-яё\-]+")

/-- `_BIRTH_PLACE_TAIL_STOP`. -/
def birthPlaceTailStop : List Str :=
  [chars "в", chars "на", chars "и", chars "году", chars "года", chars "г", chars "гг", chars "паспорт",
    chars "дата"]

/-- `_BIRTH_PLACE_GEO_WORDS`. -/
def birthPlaceGeoWords : List Str :=
  [chars "область", chars "обл", chars "край", chars "края", chars "район", chars "района",
    chars "республика", chars "респ", chars "округ", chars "г", chars "гор", chars "город", chars "с",
    chars "село", chars "пос", chars "посёлок", chars "поселок", chars "пгт", chars "д", chars "дер",
    chars "деревня", chars "ст", chars "станица"]

/-- `_COLON_AFTER_LABEL_RE`. -/
def colonAfterLabelRe : Re := re false (chars r"[^:\d\n,]{0,60}:\s*")

/-! ### Other documents -/

/-- `_SNILS_RE`. -/
def snilsRe : Re := re false (chars r"(?<![\d\-])(\d{3}[-\s]?\d{3}[-\s]?\d{3}[-\s]?\d{2})(?![\d\-])")

/-- `_SNILS_CUE_RE`. -/
def snilsCueRe : Re := re true (chars r"снилс|страхов\w*\s+номер|страхов\w*\s+свидетельств")

/-- `_FOREIGN_PASSPORT_RE`. -/
def foreignPassportRe : Re :=
  re true (chars r"(?:загран\w*(?:\s+паспорт\w*)?|заграничн\w+\s+паспорт\w*|passport\s+(?:no\.?|number|№))" ++
    chars r"[^\d\n]{0,30}?(?<!\d)(\d{2})\s?№?\s?(\d{7})(?!\d)")

/-- `_MILITARY_ID_RE`. -/
def militaryIdRe : Re :=
  re true (chars r"военн\w+\s+билет\w*[^\n\d]{0,20}?(?<![А-ЯЁA-Z])([А-ЯЁ]{2})\s?№?\s?(\d{7})(?!\d)")

/-- `_BIRTH_CERT_RE`. -/
def birthCertRe : Re :=
  re true (chars r"свидетельств\w+\s+о\s+рождении[^\n]{0,20}?(?<![A-ZА-ЯЁ])([IVXLC]{1,4}|[1І]{1,3})[\s\-]?" ++
    chars r"([А-ЯЁ]{2})\s?№?\s?(\d{6})(?!\d)")

end Documents

/-! ### The detectors -/

section Detectors

open Documents

variable (R : Runtime)

/-- `_doc_type`. -/
def docType (text : Str) (pos : ℕ) : PDType :=
  if cueBefore R text pos driverCueRe 60 then .driverLicense else .passport

/-- `IdentityDocumentDetector`. -/
def IdentityDocumentDetector : Detector where
  types := {.passport, .driverLicense}
  needsDigits := true
  detect text :=
    ((driverCtxRe.rx R).finditer text).map (fun m => makeEntity .driverLicense (groups m [1, 2]) 76 ∅) ++
    ((passportCtxRe.rx R).finditer text).map (fun m => makeEntity .passport (groups m [1, 2]) 74 ∅) ++
    ((seriesNumberRe.rx R).finditer text).map (fun m =>
      makeEntity (docType R text m.start) (groups m [1, 2]) 73 ∅) ++
    [passportBareSpacedRe, passportBareRe].flatMap (fun pattern =>
      ((pattern.rx R).finditer text).map (fun m =>
        makeEntity (docType R text m.start) (groups m [1, 2]) 45 ∅))

namespace IssuanceDetector

/-- `_issuers`. -/
def issuers (text : Str) : List (Option Entity) :=
  ((issuerStartRe.rx R).finditer text).filterMap (fun m =>
    let start := m.stop
    if ((issuerAuthorityRe.rx R).search text start (min text.length (start + 30))).isNone then none
    else
      let windowEnd := min text.length (start + 200)
      let stop := (((issuerStopRe.rx R).search text start windowEnd).map Match.start).getD windowEnd
      let stop := start + (rstrip (slice text start stop) (among " ,.")).length
      if stop - start ≥ 3 then some (makeEntity .passportIssuer [(start, stop)] 66 ∅) else none)

/-- The words that belong to the place behind its first word `first`. -/
def placeWords (text : Str) (first : Match) : List Match → List Match
  | [] => []
  | w :: ws =>
    let word := matched text w
    if R.lower word ∈ birthPlaceGeoWords ∨ (startsUpper R word ∧ startsUpper R (matched text first)) then
      w :: placeWords text first ws
    else []

/-- `_birth_place_words`. -/
def birthPlaceWords (text : Str) (start stop : ℕ) : List Match :=
  let kept :=
    match (birthPlaceWordRe.rx R).finditerIn text start stop with
    | [] => []
    | first :: words => first :: placeWords R text first words
  kept.rdropWhile (fun w =>
    R.lower (matched text w) ∈ birthPlaceTailStop ++ [chars "область", chars "край", chars "района"])

/-- What `_birth_places` takes for the value of a match: none to skip the match. -/
def birthPlaceSpan (text : Str) (m : Match) : Option (ℕ × ℕ) :=
  let shift := ':' ∉ matched text m ∧ (chars "место").isPrefixOf (R.lower (matched text m))
  let colon := if shift then (colonAfterLabelRe.rx R).matchAt text (m.groupSpan 1).1 else none
  match colon with
  | some colon => ((birthPlaceValueRe.rx R).matchAt text colon.stop).map (Match.groupSpan 1)
  | none => some (m.groupSpan 1)

/-- `_birth_places`. -/
def birthPlaces (text : Str) : List (Option Entity) :=
  ((birthPlaceRe.rx R).finditer text).filterMap (fun m => do
    let (start, stop) ← birthPlaceSpan R text m
    let words := birthPlaceWords R text start stop
    return makeEntity .birthPlace [((← words.head?).start, (← words.getLast?).stop)] 72 ∅)

end IssuanceDetector

/-- `IssuanceDetector`. -/
def IssuanceDetector : Detector where
  types := {.departmentCode, .passportIssuer, .citizenship, .birthPlace}
  needsDigits := false
  detect text :=
    ((deptCodeRe.rx R).finditer text).map (fun m => makeEntity .departmentCode (groups m [1]) 72 ∅) ++
    ((deptCodeBareRe.rx R).finditer text).map (fun m =>
      makeEntity .departmentCode (groups m [1]) 30 {.passport, .passportIssuer}) ++
    IssuanceDetector.issuers R text ++
    ((citizenshipRe.rx R).finditer text).map (fun m => makeEntity .citizenship (groups m [1]) 70 ∅) ++
    IssuanceDetector.birthPlaces R text

/-- `ExtraDocumentDetector`. -/
def ExtraDocumentDetector : Detector where
  types := {.snils, .foreignPassport, .militaryId, .birthCertificate}
  needsDigits := true
  detect text :=
    ((snilsRe.rx R).finditer text).filterMap (fun m =>
      let value := groupText text 1 m
      if cueBefore R text m.start snilsCueRe 40 ∨ ('-' ∈ value ∧ snilsValid R (digitsOnly R value)) then
        some (makeEntity .snils (groups m [1]) 68 ∅)
      else none) ++
    ((foreignPassportRe.rx R).finditer text).map (fun m => makeEntity .foreignPassport (groups m [1, 2]) 78 ∅) ++
    ((militaryIdRe.rx R).finditer text).map (fun m => makeEntity .militaryId (groups m [1, 2]) 78 ∅) ++
    ((birthCertRe.rx R).finditer text).map (fun m => makeEntity .birthCertificate (groups m [1, 2, 3]) 78 ∅)

end Detectors

/-! ### The words of a birth place -/

namespace IssuanceDetector

open Documents

variable {R : Runtime} {text : Str} {m w : Match} {start stop : ℕ}

/-- The value behind a label is a group of a match. -/
theorem birthPlaceSpan_group (hm : m ∈ (birthPlaceRe.rx R).finditer text) {p : ℕ × ℕ}
    (h : birthPlaceSpan R text m = some p) :
    ∃ r ∈ [birthPlaceRe, birthPlaceValueRe], ∃ value, (r.rx R).Found text value ∧ value.groupSpan 1 = p := by
  obtain ⟨-, hgroup⟩ := groupSpan_within (k := 1) (finditer_within _ text m hm)
  unfold birthPlaceSpan at h
  dsimp only at h
  split at h
  · rename_i colon hcolon
    obtain ⟨value, hvalue, hspan⟩ := Option.map_eq_some_iff.mp h
    have hmatch : (colonAfterLabelRe.rx R).matchAt text (m.groupSpan 1).1 = some colon := by
      split_ifs at hcolon
      exact hcolon
    have hcolonWithin := (matchAt_found (hgroup.1.trans hgroup.2) hmatch).1.within
    exact ⟨birthPlaceValueRe, by simp, value, (matchAt_found hcolonWithin.2.1 hvalue).1, hspan⟩
  · exact ⟨birthPlaceRe, by simp, m, finditer_found hm, Option.some.inj h⟩

theorem mem_placeWords {first : Match} : ∀ {ws : List Match}, w ∈ placeWords R text first ws → w ∈ ws
  | [], h => h
  | v :: ws, h => by
    rw [placeWords] at h
    split_ifs at h
    · rcases List.mem_cons.mp h with rfl | h
      · exact List.mem_cons_self
      · exact List.mem_cons_of_mem _ (mem_placeWords h)
    · cases h

theorem mem_birthPlaceWords (h : w ∈ birthPlaceWords R text start stop) :
    w ∈ (birthPlaceWordRe.rx R).finditerIn text start stop := by
  unfold birthPlaceWords at h
  have hkept := (List.rdropWhile_prefix _ _).subset h
  split at hkept
  · cases hkept
  · rename_i first words hwords
    rw [hwords]
    rcases List.mem_cons.mp hkept with rfl | hkept
    · exact List.mem_cons_self
    · exact List.mem_cons_of_mem _ (mem_placeWords hkept)

/-- A candidate goes from the first word of a value to the last one. -/
theorem birthPlaces_yields {P : Candidate → Prop}
    (hP : ∀ r ∈ [birthPlaceRe, birthPlaceValueRe], ∀ value, (r.rx R).Found text value → ∀ first last,
      (birthPlaceWords R text (value.groupSpan 1).1 (value.groupSpan 1).2).head? = some first →
      (birthPlaceWords R text (value.groupSpan 1).1 (value.groupSpan 1).2).getLast? = some last →
      P ⟨.birthPlace, [(first.start, last.stop)], 72, ∅⟩) :
    Yields P (birthPlaces R text) := by
  refine Yields.filterMap ?_
  intro m hm o ho
  obtain ⟨⟨start, stop⟩, hspan, ho⟩ := Option.bind_eq_some_iff.mp ho
  obtain ⟨first, hfirst, ho⟩ := Option.bind_eq_some_iff.mp ho
  obtain ⟨last, hlast, ho⟩ := Option.bind_eq_some_iff.mp ho
  obtain rfl := Option.some.inj ho
  obtain ⟨r, hr, value, hvalue, hgroup⟩ := birthPlaceSpan_group hm hspan
  refine Yields.one (hP r hr value hvalue first last ?_ ?_)
  · rw [hgroup]
    exact hfirst
  · rw [hgroup]
    exact hlast

/-- An issuer goes from its label to an end inside the text. -/
theorem issuers_yields {P : Candidate → Prop}
    (hP : ∀ m ∈ (issuerStartRe.rx R).finditer text, ∀ stop ≤ text.length,
      P ⟨.passportIssuer, [(m.stop, stop)], 66, ∅⟩) :
    Yields P (issuers R text) := by
  refine Yields.filterMap ?_
  intro m hm o ho
  dsimp only at ho
  split_ifs at ho
  obtain rfl := Option.some.inj ho
  refine Yields.one (hP m hm _ ?_)
  -- the end is counted from the start along a piece of the text
  have hstart := (finditer_within _ text m hm).2.1
  refine (Nat.add_le_add_left (length_rstrip_le _ _) _).trans ?_
  unfold slice
  rw [List.length_take, List.length_drop]
  omega

end IssuanceDetector

/-! ### What the candidates consist of -/

section Candidates

open Documents

variable {R : Runtime} {text : Str} {P : Candidate → Prop}

theorem docType_mem (pos : ℕ) : docType R text pos ∈ (IdentityDocumentDetector R).types := by
  unfold docType
  split_ifs <;> simp [IdentityDocumentDetector]

/-- A document is the series and the number of its pattern. -/
theorem identity_yields
    (hP : ∀ r ∈ [driverCtxRe, passportCtxRe, seriesNumberRe, passportBareSpacedRe, passportBareRe],
      ∀ m ∈ (r.rx R).finditer text, ∀ pdType ∈ (IdentityDocumentDetector R).types, ∀ priority ≤ 76,
      P ⟨pdType, groups m [1, 2], priority, ∅⟩) :
    Yields P ((IdentityDocumentDetector R).detect text) := by
  refine (((Yields.map ?_).append (Yields.map ?_)).append (Yields.map ?_)).append (Yields.flatMap ?_)
  · intro m hm
    exact Yields.one (hP driverCtxRe (by simp) m hm _ (by simp [IdentityDocumentDetector]) 76 le_rfl)
  · intro m hm
    exact Yields.one (hP passportCtxRe (by simp) m hm _ (by simp [IdentityDocumentDetector]) 74 (by decide))
  · intro m hm
    exact Yields.one (hP seriesNumberRe (by simp) m hm _ (docType_mem _) 73 (by decide))
  · intro r hr
    refine Yields.map ?_
    intro m hm
    have hbare := List.mem_of_mem_drop (i := 3) (l := [driverCtxRe, passportCtxRe, seriesNumberRe,
      passportBareSpacedRe, passportBareRe]) hr
    exact Yields.one (hP r hbare m hm _ (docType_mem _) 45 (by decide))

/-- The groups of a number or of a series and a number. -/
theorem extra_yields
    (hP : ∀ r idx, (r, idx) ∈ [(snilsRe, [1]), (foreignPassportRe, [1, 2]), (militaryIdRe, [1, 2]),
        (birthCertRe, [1, 2, 3])] →
      ∀ m ∈ (r.rx R).finditer text, ∀ pdType ∈ (ExtraDocumentDetector R).types, ∀ priority ≤ 78,
      P ⟨pdType, groups m idx, priority, ∅⟩) :
    Yields P ((ExtraDocumentDetector R).detect text) := by
  refine (((Yields.filterMap ?_).append (Yields.map ?_)).append (Yields.map ?_)).append (Yields.map ?_)
  · intro m hm o ho
    dsimp only at ho
    split_ifs at ho
    obtain rfl := Option.some.inj ho
    exact Yields.one (hP snilsRe [1] (by simp) m hm _ (by simp [ExtraDocumentDetector]) 68 (by decide))
  · intro m hm
    exact Yields.one (hP foreignPassportRe [1, 2] (by simp) m hm _ (by simp [ExtraDocumentDetector]) 78 le_rfl)
  · intro m hm
    exact Yields.one (hP militaryIdRe [1, 2] (by simp) m hm _ (by simp [ExtraDocumentDetector]) 78 le_rfl)
  · intro m hm
    exact Yields.one (hP birthCertRe [1, 2, 3] (by simp) m hm _ (by simp [ExtraDocumentDetector]) 78 le_rfl)

/-- The codes and the citizenship are group 1 of their patterns. -/
theorem issuance_yields
    (hgroup : ∀ r ∈ [deptCodeRe, deptCodeBareRe, citizenshipRe], ∀ m ∈ (r.rx R).finditer text,
      ∀ pdType ∈ (IssuanceDetector R).types, ∀ priority ≤ 72, ∀ requiresAny,
      P ⟨pdType, groups m [1], priority, requiresAny⟩)
    (hissuers : Yields P (IssuanceDetector.issuers R text))
    (hplaces : Yields P (IssuanceDetector.birthPlaces R text)) : Yields P ((IssuanceDetector R).detect text) := by
  refine ((((Yields.map ?_).append (Yields.map ?_)).append hissuers).append (Yields.map ?_)).append hplaces
  · intro m hm
    exact Yields.one (hgroup deptCodeRe (by simp) m hm _ (by simp [IssuanceDetector]) 72 le_rfl _)
  · intro m hm
    exact Yields.one (hgroup deptCodeBareRe (by simp) m hm _ (by simp [IssuanceDetector]) 30 (by decide) _)
  · intro m hm
    exact Yields.one (hgroup citizenshipRe (by simp) m hm _ (by simp [IssuanceDetector]) 70 (by decide) _)

end Candidates

end PdMasking
