import PdMasking.Detectors.Base

/-!
# PdMasking.Detectors.Dates — dates of birth, of issue and other dates (`core/detectors/dates.py`)

`DateDetector` with its patterns; the year of today is the interpreter's.  `date_yields`: what its candidates
consist of.
-/

namespace PdMasking

open Regex

namespace Dates

set_option maxRecDepth 4000

/-- `_MONTHS`. -/
def months : Str :=
  chars r"январ[яье]|феврал[яье]|март[аеу]?|апрел[яье]|ма[яйе]|июн[яье]|июл[яье]|август[аеу]?" ++
  chars r"|сентябр[яье]|октябр[яье]|ноябр[яье]|декабр[яье]" ++
  chars r"|янв|фев|мар|апр|июн|июл|авг|сен|сент|окт|ноя|дек" ++
  chars r"|january|february|march|april|may|june|july|august|september|october|november|december"

/-- `_NUMERIC_DMY_RE`. -/
def numericDmyRe : Re :=
  re false (chars r"(?<![\d.\-/])(\d{1,2})([./\-])(\d{1,2})\2(\d{4}|\d{2})(?![\d.\-/]\d|\d)")

/-- `_NUMERIC_YMD_RE`. -/
def numericYmdRe : Re :=
  re false (chars r"(?<![\d.\-/])(\d{4})([./\-])(\d{1,2})\2(\d{1,2})(?![\d.\-/]\d|\d)")

/-- `_TEXT_DATE_RE`. -/
def textDateRe : Re := re true (chars r"(?<!\d)(\d{1,2})(?:-?го)?\s+(" ++ months ++ chars r")\.?\s+(\d{4})")

/-- `_MONTH_YEAR_RE`. -/
def monthYearRe : Re := re true (chars r"(?<![\dА-Яа-яЁё])(" ++ months ++ chars r")\.?\s+(\d{4})")

/-- `_BIRTH_CUE_RE`. -/
def birthCueRe : Re :=
  re true (chars r"рожд|родил|\bд\.\s?р\.?|\bдр\b|\bг\.\s?р\.|date\s+of\s+birth|\bdob\b|birth")

/-- `_BIRTH_AFTER_RE`. -/
def birthAfterRe : Re := re true (chars r"\s*(?:г\.\s?р\.|года\s+рождения|г\.\s?рожд)")

/-- `_ISSUE_CUE_RE`. -/
def issueCueRe : Re := re true (chars r"выда[нчв]|выдачи|issued|date\s+of\s+issue")

/-- `_PERSON_TYPES`. -/
def personTypes : Finset PDType := {.fio, .passport, .driverLicense, .birthPlace, .inn}

/-- `_valid_numeric`. -/
def validNumeric (a b year : ℕ) : Bool :=
  if ¬ (1 ≤ year ∧ year ≤ 2100) then false
  else (1 ≤ a ∧ a ≤ 31 ∧ 1 ≤ b ∧ b ≤ 12) ∨ (1 ≤ a ∧ a ≤ 12 ∧ 1 ≤ b ∧ b ≤ 31)

/-- `_normalize_year`. -/
def normalizeYear (R : Runtime) (raw : Str) : ℕ :=
  let year := intOf R raw
  if raw.length = 2 then year + (if year > R.thisYear % 100 then 1900 else 2000) else year

/-- `_classify`. -/
def classify (R : Runtime) (text : Str) (start stop year : ℕ) (shift : ℤ) : Option Entity :=
  if year < 1900 then none
  else if cueBefore R text start birthCueRe 35 ∨ ((birthAfterRe.rx R).matchAt text stop).isSome then
    makeEntity .birthDate [(start, stop)] (64 + shift) ∅
  else if cueBefore R text start issueCueRe 90 then
    makeEntity .passportIssueDate [(start, stop)] (64 + shift) ∅
  else if 1900 ≤ year ∧ year ≤ R.thisYear then
    makeEntity .date [(start, stop)] (35 + shift) personTypes
  else none

/-- `_classify` reports the whole match. -/
theorem classify_yields {R : Runtime} {text : Str} {P : Candidate → Prop} {start stop year : ℕ} {shift : ℤ}
    (hP : ∀ pdType ∈ [PDType.birthDate, .passportIssueDate, .date], ∀ priority ≤ 64 + shift, ∀ requiresAny,
      P ⟨pdType, [(start, stop)], priority, requiresAny⟩) :
    Yields P [classify R text start stop year shift] := by
  unfold classify
  split_ifs
  · exact nofun
  · exact Yields.one (hP _ (by simp) _ le_rfl _)
  · exact Yields.one (hP _ (by simp) _ le_rfl _)
  · exact Yields.one (hP _ (by simp) _ (by omega) _)
  · exact nofun

end Dates

open Dates

/-- `DateDetector`. -/
def DateDetector (R : Runtime) : Detector where
  types := {.birthDate, .passportIssueDate, .date}
  needsDigits := true
  detect text :=
    ((numericDmyRe.rx R).finditer text).filterMap (fun m =>
      let year := normalizeYear R (groupText text 4 m)
      if validNumeric (intOf R (groupText text 1 m)) (intOf R (groupText text 3 m)) year then
        some (classify R text m.start m.stop year 0)
      else none) ++
    ((numericYmdRe.rx R).finditer text).filterMap (fun m =>
      let year := intOf R (groupText text 1 m)
      if validNumeric (intOf R (groupText text 3 m)) (intOf R (groupText text 4 m)) year then
        some (classify R text m.start m.stop year 0)
      else none) ++
    ((textDateRe.rx R).finditer text).filterMap (fun m =>
      let day := intOf R (groupText text 1 m)
      if 1 ≤ day ∧ day ≤ 31 then
        some (classify R text m.start m.stop (intOf R (groupText text 3 m)) 0)
      else none) ++
    ((monthYearRe.rx R).finditer text).map (fun m =>
      classify R text m.start m.stop (intOf R (groupText text 2 m)) (-5))

/-- A date is the whole match of its pattern. -/
theorem date_yields {R : Runtime} {text : Str} {P : Candidate → Prop}
    (hP : ∀ r ∈ [numericDmyRe, numericYmdRe, textDateRe, monthYearRe], ∀ m ∈ (r.rx R).finditer text,
      ∀ pdType ∈ (DateDetector R).types, ∀ priority ≤ 64, ∀ requiresAny, P ⟨pdType, [m.span], priority, requiresAny⟩) :
    Yields P ((DateDetector R).detect text) := by
  have hclassify : ∀ r ∈ [numericDmyRe, numericYmdRe, textDateRe, monthYearRe], ∀ m ∈ (r.rx R).finditer text,
      ∀ year, ∀ shift ≤ 0, Yields P [classify R text m.start m.stop year shift] := by
    intro r hr m hm year shift hshift
    refine classify_yields ?_
    intro pdType htype priority hle requiresAny
    exact hP r hr m hm pdType (by simpa [DateDetector] using htype) priority (by omega) requiresAny
  refine (((Yields.filterMap ?_).append (Yields.filterMap ?_)).append (Yields.filterMap ?_)).append (Yields.map ?_)
  · intro m hm o ho
    dsimp only at ho
    split_ifs at ho
    obtain rfl := Option.some.inj ho
    exact hclassify numericDmyRe (by simp) m hm _ 0 le_rfl
  · intro m hm o ho
    dsimp only at ho
    split_ifs at ho
    obtain rfl := Option.some.inj ho
    exact hclassify numericYmdRe (by simp) m hm _ 0 le_rfl
  · intro m hm o ho
    dsimp only at ho
    split_ifs at ho
    obtain rfl := Option.some.inj ho
    exact hclassify textDateRe (by simp) m hm _ 0 le_rfl
  · intro m hm
    exact hclassify monthYearRe (by simp) m hm _ (-5) (by decide)

end PdMasking
