import PdMasking.Detectors.Names

/-!
# PdMasking.Detectors.ContextValues — values behind labels in free order (`core/detectors/context_values.py`)

`ContextValueDetector`: card secrets, numbers, issuing authorities, names behind the role of a person, names
that are the whole text, and addresses without abbreviations.
-/

namespace PdMasking

open Regex Names

namespace ContextValues

set_option maxRecDepth 8000

/-- `_GAP`. -/
def gap : Str := chars r"(?:[^\d\n.;!?]{0,40}?)"

/-- `_SEP`. -/
def sep : Str := chars "[\\s:=\\-–—(«\\\"'“]*"

/-! ### PIN and CVV -/

/-- `_PIN_LABEL`. -/
def pinLabel : Str :=
  chars r"(?:п\.?\s?и\.?\s?н(?:[\s.\-]*к\.?\s?о\.?\s?д\w*)?|\bpin(?:[\s\-]*(?:code|код\w*))?)(?![а-яёa-z])"

/-- `_CVV_LABEL`. -/
def cvvLabel : Str :=
  chars r"(?:\bcvv\d?|\bcvc\d?|\bcvn|\bcav2|\bцвв|\bсививи|\bсивиси" ++
  chars r"|код\w*\s+(?:на\s+обороте|с\s+обратной\s+стороны|безопасности)(?:\s+карты)?)(?:[\s\-]*код\w*)?"

/-- `_PIN_RE`. -/
def pinRe : Re := re true (chars r"(?<![а-яёa-z])" ++ pinLabel ++ gap ++ sep ++ chars r"(?<!\d)(\d{4,6})(?!\d)")

/-- `_CVV_RE`. -/
def cvvRe : Re := re true (cvvLabel ++ gap ++ sep ++ chars r"(?<!\d)(\d{3})(?!\d)")

/-- `_CVV_AFTER_RE`. -/
def cvvAfterRe : Re := re true (chars r"\bкод\w*\s+(\d{3})(?!\d)[^\d\n.]{0,30}?\b(?:cvv|cvc|цвв)")

/-- `_CARD_AND_CODE_RE`. -/
def cardAndCodeRe : Re := re false (chars r"^\s*(\d{16})\s+(\d{3,4})\s*$")

/-! ### Numbers -/

/-- `_INN_VALUE`. -/
def innValue : Str := chars r"(\d{4}[\s\-]\d{4}[\s\-]\d{4}|\d{12}|\d{10})(?![\d\-])"

/-- `_INN_RE`. -/
def innRe : Re := re true (chars r"\bинн\b(?!\s*/)" ++ gap ++ sep ++ chars r"(?<![\d\-])" ++ innValue)

/-- `_ORG_CUE_RE`. -/
def orgCueRe : Re :=
  re true (chars r"организац|компани|контрагент|поставщик|юр\w*\s+лиц|\bооо\b|\bоао\b|\bзао\b|\bпао\b|\bао\b" ++
    chars r"|\bип\b")

/-- `_WHOLE_INN_RE`. -/
def wholeInnRe : Re := re false (chars r"^\s*(\d{4}[\s\-]\d{4}[\s\-]\d{4})\s*$")

/-- `_WHOLE_DOC_RE`. -/
def wholeDocRe : Re := re false (chars r"^\s*(\d{2}[\-/]\d{2}[\-/]\d{6}|\d{4}-\d{6})\s*$")

/-- `_SERIES_ONLY_RE`. -/
def seriesOnlyRe : Re :=
  re true (chars r"\bсери[яи]\s*[:№]?\s*(\d{2}\s?\d{2})(?![\d\s]*(?:,\s*)?(?:номер|№)?\s*\d)")

/-- `_DEPT_RE`. -/
def deptRe : Re :=
  re true (chars r"код\w*\s+подразделени\w*" ++ gap ++ sep ++ chars r"(?<![\d\-])(\d{3}-\d{3})(?![\d\-])")

/-! ### Issuing authorities -/

/-- `_AUTHORITY_RE`. -/
def authorityRe : Re :=
  re true (chars r"(?<![А-ЯЁа-яёA-Za-z])(?:отдел\w*\s+)?(?:ТП\s+|МО\s+|ГУ\s+)?" ++
    chars r"(?:ОУФМС|УФМС|ФМС|ОВД|УВД|ГУВД|ОМВД|УМВД|МВД|OVD|UFMS)(?![А-ЯЁа-яёA-Za-z])" ++
    chars r"|(?<![А-ЯЁа-яё])(?:отдел\w*\s+(?:полиции|внутренних\s+дел|по\s+вопросам\s+миграции)" ++
    chars r"|паспортно-визов\w+\s+служб\w+|паспортн\w+\s+стол\w*)")

/-- `_ISSUER_CUE_RE`. -/
def issuerCueRe : Re := re true (chars r"выда|орган|кем\b|оформлен|паспорт")

/-- `_ISSUER_LABEL_RE`. -/
def issuerLabelRe : Re :=
  re true (chars r"(?:орган\w*,?\s+(?:выдачи|выдавш\w+)(?:\s+(?:паспорт|документ)\w*)?|кем\s+выдан\w*)" ++
    chars r"\s*[:—\-]\s*")

/-- `_ISSUER_TOKEN_RE`. -/
def issuerTokenRe : Re :=
  re false (chars "«[^»\\n]{1,40}»|\\\"[^\\\"\\n]{1,40}\\\"|№\\s?\\d+" ++
    chars r"|[A-Za-zА-ЯЁа-яё][A-Za-zА-ЯЁа-яё\-]*\.?|\d+|,")

/-- `_ISSUER_STOP`. -/
def issuerStop : List Str := blankWords (
  chars "в с на и совпадает выдало выдал выдала выдан выданный был была было подтвержден подтверждено " ++
  chars "код дата серия номер повторный ранее указан указано указанным прошлом году установленном")

/-- `_ABBREVIATIONS`. -/
def abbreviations : List Str :=
  [chars "г.", chars "гор.", chars "обл.", chars "р-на.", chars "пос.", chars "с."]

/-! ### Addresses -/

/-- `_BARE_ADDRESS_RE`. -/
def bareAddressRe : Re :=
  re false (chars r"(?i:адрес\w*(?:\s+(?:регистрации|проживания|места\s+жительства|клиента|доставки))?" ++
    chars r"|прожива\w*(?:\s+по\s+адресу)?|зарегистрирован\w*(?:\s+по\s+адресу)?|прописан\w*(?:\s+по\s+адресу)?)" ++
    chars r"\s*[:—\-]?\s*" ++
    chars r"(?:(\d{6}),\s*)?" ++
    chars r"([А-ЯЁ][а-яё]+(?:-[А-ЯЁа-яё]+)*(?:\s+[А-ЯЁ][а-яё]+)?),\s*" ++
    chars r"([А-ЯЁ0-9][А-ЯЁа-яё0-9\-]*(?:\s+[А-ЯЁ][а-яё]+)?),?\s+" ++
    chars r"(\d{1,4}[А-Яа-я]?)(?:\s*(?:,|-|/)\s*(\d{1,4}))?(?![\d\w])")

/-- `_ORG_ADDRESS_CUE_RE`. -/
def orgAddressCueRe : Re := re true (chars r"банк|отделени|офис|филиал|организац|компани|контрагент")

/-- `_SENTENCE_END_RE`. -/
def sentenceEndRe : Re := re false (chars r"[.!?]\s")

/-! ### Names -/

/-- `_ROLE_LABEL_RE`. -/
def roleLabelRe : Re :=
  re true (chars r"(?<![А-ЯЁа-яё])(?:получател\w*|отправител\w*|плательщик\w*|поручител\w*|соза[её]мщик\w*" ++
    chars r"|за[её]мщик\w*" ++
    chars r"|вкладчик\w*|бенефициар\w*|наследник\w*|подписант\w*|доверенн\w+\s+лиц\w*|заявител\w*|закладател\w*" ++
    chars r"|подател\w*|владел\w*|держател\w*\s+счета|отчеств\w*|фамили\w*|клиент(?:ка)?(?:-[а-яё]+)?(?![а-яё]))" ++
    chars "[^:\\n\\d«»]{0,40}?[»\\\"]?\\s*(?:указан\\w*\\s*)?[:—]\\s*")

/-- `_NAME_TOKEN_RE`. -/
def nameTokenRe : Re := re false (chars "[A-Za-zА-ЯЁа-яё]+(?:['’\\-/][A-Za-zА-ЯЁа-яё]+)*\\.?")

/-- `_CAMEL_NAME_RE`. -/
def camelNameRe : Re :=
  re false (chars r"^(?:[А-ЯЁ][а-яё]+){2,3}$|^(?:[А-ЯЁ]{9,}|[а-яё]{9,})" ++
    chars r"(?<=(?:ОВИЧ|ЕВИЧ|ОВНА|ЕВНА|ович|евич|овна|евна))$")

/-- `_GEO_WORDS`. -/
def geoWords : List Str := blankWords (
  chars "федерация федерации республика республики эмираты штаты америки область край район город")

/-- `_NOT_NAME_WORDS`. -/
def notNameWords : List Str := blankWords (
  chars "ооо оао зао пао ао ип банк банка компания организация сумма счет счёт договор договору договора карта карты " ++
  chars "не указано указан нет отсутствует россия российская федерация рф москва назначение операция по")

/-- `_ADDRESS_CUE_RE`. -/
def addressCueRe : Re := re true (chars r"адрес|прожива|зарегистр|прописан|место\s+")

/-- `_TRAILING_NOTE_RE`. -/
def trailingNoteRe : Re := re false (chars r"\s*\([^()]*\)\s*$")

/-- `_BARE_NAME_RE`. -/
def bareNameRe : Re :=
  re false (chars "^(?:[А-ЯЁ][а-яё]+(?:-[А-ЯЁ][а-яё]+)?|[A-Z][a-z]*['’][A-Z][a-z]+|[A-Z][a-z]+)" ++
    chars "(?:\\s+(?:[А-ЯЁ][а-яё]+(?:-[А-ЯЁ][а-яё]+)?|[A-Z][a-z]*['’][A-Z][a-z]+|[A-Z][a-z]+)){1,2}$")

/-- `_BARE_STOP`. -/
def bareStop : List Str := blankWords (
  chars "банк банка россии россия альфа карты карта новый год добрый спасибо сити площадь улица проспект " ++
  chars "apple google samsung visa master mastercard card pay classic gold platinum world")

/-- `_LATIN_LEAD_NAME_RE`. -/
def latinLeadNameRe : Re := re false (chars r"^\s*([A-Z][a-z]+\s+[A-Z][a-z]+)(?=\s+[а-яё])")

/-- The separators of `_has_stop_word`. -/
def stopSplitRe : Re := re false (chars r"[\s\-]+")

/-- The separators of `_strong_token`. -/
def partSplitRe : Re := re false (chars "['’\\-/]")

/-- `_has_stop_word`. -/
def hasStopWord (R : Runtime) (value : Str) : Bool :=
  let words := (splitAt value 0 ((stopSplitRe.rx R).finditer value)).map R.lower
  words.any (fun w => w ∈ bareStop || w ∈ cities || startsWith R famousSurnameRe w)

end ContextValues

namespace ContextValueDetector

open ContextValues

variable (R : Runtime)

/-- `_group_entity`. -/
def groupEntity (pdType : PDType) (m : Match) (priority : ℤ) (idx : ℕ) : Option Entity :=
  makeEntity pdType [m.groupSpan idx] priority ∅

/-- `_card_secrets`. -/
def cardSecrets (text : Str) : List (Option Entity) :=
  ((pinRe.rx R).finditer text).map (fun m => groupEntity .cardPin m 86 1) ++
  [cvvRe, cvvAfterRe].flatMap (fun pattern =>
    ((pattern.rx R).finditer text).map (fun m => groupEntity .cardCvv m 86 1)) ++
  match (cardAndCodeRe.rx R).matchAt text 0 with
  | none => []
  | some whole =>
    [groupEntity .cardNumber whole 86 1,
      groupEntity (if (groupText text 2 whole).length = 3 then .cardCvv else .cardPin) whole 86 2]

/-- `_numbers`. -/
def numbers (text : Str) : List (Option Entity) :=
  ((innRe.rx R).finditer text).filterMap (fun m =>
    let phrase := matched text m
    if ¬ cueBefore R text m.start orgCueRe 40 ∧ ((orgCueRe.rx R).search phrase 0 phrase.length).isNone then
      some (groupEntity .inn m 79 1)
    else none) ++
  [(wholeInnRe, PDType.inn), (wholeDocRe, .passport)].flatMap (fun pt =>
    (((pt.1.rx R).matchAt text 0).map (fun m => groupEntity pt.2 m 79 1)).toList) ++
  ((seriesOnlyRe.rx R).finditer text).map (fun m => groupEntity .passport m 44 1) ++
  ((deptRe.rx R).finditer text).map (fun m => groupEntity .departmentCode m 79 1)

/-! ### Issuing authorities -/

/-- `_issuer_word_stops`. -/
def issuerWordStops (word : Str) : Bool :=
  word = [','] || isDigitStr R word || rstrip (R.lower word) (· == '.') ∈ issuerStop

/-- `_sentence_end`. -/
def sentenceEnd (word : Str) : Bool :=
  word.getLast? = some '.' && R.lower word ∉ abbreviations && !isUpperStr R word.dropLast

/-- The loop of `_issuer_end` over the words behind `start`. -/
def issuerStopFrom (text : Str) (start : ℕ) : ℕ → List Match → ℕ
  | stop, [] => stop
  | stop, tok :: toks =>
    let gap := slice text stop tok.start
    let word := matched text tok
    if (start < tok.start ∧ (strip R gap ≠ [] ∨ 2 < gap.length)) ∨ issuerWordStops R word then stop
    else if sentenceEnd R word then tok.stop - 1
    else issuerStopFrom text start tok.stop toks

/-- `_issuer_end`. -/
def issuerEnd (text : Str) (start : ℕ) : ℕ :=
  let stop := issuerStopFrom R text start start ((issuerTokenRe.rx R).finditerIn text start text.length)
  (rstrip (text.take stop) (among " .,")).length

/-- `_TRAILING_NOTE_RE.sub("", value)`. -/
def withoutNote (value : Str) : Str := (splitAt value 0 ((trailingNoteRe.rx R).finditer value)).flatten

/-- The note ends a stripped text, and what is left of it stands before. -/
theorem withoutNote_isPrefix (text : Str) : withoutNote R (strip R text) <+: strip R text := by
  have hend : Pattern.endsWith Re.atEnd trailingNoteRe = true := by decide +kernel
  have hleast : 0 < Pattern.least (fun _ => true) trailingNoteRe := by decide +kernel
  -- a stripped text does not end in a line break
  have hstop : ∀ m ∈ (trailingNoteRe.rx R).finditer (strip R text), (strip R text).drop m.stop = [] := by
    intro m hm
    rcases drop_of_atEnd hend (finditer_found hm) with hnil | hbreak
    · exact hnil
    · exfalso
      have hlast : (strip R text).getLast? = some '\n' := by
        rw [← List.take_append_drop m.stop (strip R text), hbreak, List.getLast?_concat]
      have hspace := (strip_eq_self_iff.mp (strip_strip (R := R) (s := text))).2 '\n' hlast
      rw [R.isspace_ascii '\n' (by decide)] at hspace
      cases hspace
  have hapart := finditer_pairwise (trailingNoteRe.rx R) (strip R text)
  unfold withoutNote
  rcases hms : (trailingNoteRe.rx R).finditer (strip R text) with _ | ⟨m, rest⟩
  · show [(strip R text).drop 0].flatten <+: strip R text
    rw [List.drop_zero, List.flatten_singleton]
  · rw [hms] at hapart hstop
    have hrest : rest = [] := by
      refine List.eq_nil_iff_forall_not_mem.mpr ?_
      intro m' hm'
      have hfound : (trailingNoteRe.rx R).Found (strip R text) m' :=
        finditer_found (hms ▸ List.mem_cons_of_mem m hm')
      have hlt := Pattern.start_lt_stop hleast hfound
      have hle := hfound.within.2.1
      have hbefore := (List.pairwise_cons.mp hapart).1 m' hm'
      have hlen := List.drop_eq_nil_iff.mp (hstop m List.mem_cons_self)
      omega
    rw [hrest]
    show [slice (strip R text) 0 m.start, (strip R text).drop m.stop].flatten <+: strip R text
    rw [hstop m List.mem_cons_self, List.flatten_cons, List.flatten_singleton, List.append_nil]
    exact List.take_prefix _ _

/-- `_issuers`. -/
def issuers (text : Str) : List (Option Entity) :=
  ((issuerLabelRe.rx R).finditer text).filterMap (fun label =>
    let stop := issuerEnd R text label.stop
    if stop - label.stop ≥ 3 then some (makeEntity .passportIssuer [(label.stop, stop)] 69 ∅) else none) ++
  ((authorityRe.rx R).finditer text).filterMap (fun m =>
    let atStart := strip R (text.take m.start) = []
    if ¬ atStart ∧ ¬ cueBefore R text m.start issuerCueRe 60 then none
    else if atStart ∧ 80 < (withoutNote R (strip R text)).length then none
    else
      let stop := issuerEnd R text m.start
      if stop - m.start ≥ 3 then some (makeEntity .passportIssuer [(m.start, stop)] 69 ∅) else none)

/-! ### Names behind a role -/

/-- `_strong_token`. -/
def strongToken (word : Str) : Bool :=
  let core := rstrip word (· == '.')
  let lower := R.lower core
  if core.length = 1 then word.getLast? = some '.'
  else
    let parts := (splitAt lower 0 ((partSplitRe.rx R).finditer lower)).filter (· ≠ [])
    let byDictionary := parts.any (fun p => isFirstName p || startsWith R patronymicRe p)
    let bySurname := startsWith R surnameRe lower && lower ∉ notSurnames
    byDictionary || bySurname || startsWith R camelNameRe core

/-- `_name_token_ok`. -/
def nameTokenOk (word : Str) : Bool :=
  let word := if 2 < word.length ∧ word.getLast? = some '.' then word.dropLast else word
  let core := rstrip word (· == '.')
  let lower := R.lower core
  if core = [] ∨ lower ∈ notNameWords ∨ startsWith R famousSurnameRe lower then false
  else
    let capitalized := 1 < core.length && startsUpper R core && !isUpperStr R core && word.getLast? ≠ some '.'
    capitalized || strongToken R word

/-- `_weak_value`. -/
def weakValue (words : List Str) : Bool :=
  let onlyInitials := words.all (fun w => (rstrip w (· == '.')).length = 1)
  let hasStrong := words.any (strongToken R)
  let fewOrGeo := words.length < 2 || words.any (fun w => rstrip (R.lower w) (· == '.') ∈ geoWords)
  onlyInitials || (!hasStrong && fewOrGeo)

/-- The loop of `_name_tokens`, `n` words at most. -/
def nameTokensFrom (text : Str) : ℕ → ℕ → List Match → List Match
  | 0, _, _ => []
  | _ + 1, _, [] => []
  | n + 1, pos, tok :: toks =>
    if strip R (slice text pos tok.start) ≠ [] ∨ ¬ nameTokenOk R (matched text tok) then []
    else if text[tok.stop]? = some ',' ∨ text[tok.stop]? = some ';' ∨ text[tok.stop]? = some ':' then [tok]
    else tok :: nameTokensFrom text n tok.stop toks

/-- `_name_tokens`. -/
def nameTokens (text : Str) (pos : ℕ) : List Match :=
  nameTokensFrom R text 4 pos ((nameTokenRe.rx R).finditerIn text pos text.length)

/-- `_role_names`. -/
def roleNames (text : Str) : List (Option Entity) :=
  ((roleLabelRe.rx R).finditer text).filterMap (fun label =>
    let phrase := matched text label
    if ((orgCueRe.rx R).search phrase 0 phrase.length).isSome ∨
        ((addressCueRe.rx R).search phrase 0 phrase.length).isSome then none
    else do
      let tokens := nameTokens R text label.stop
      let first ← tokens.head?
      let last ← tokens.getLast?
      if weakValue R (tokens.map (matched text)) then none
      else
        let stop :=
          if text[last.stop - 1]? = some '.' ∧ 2 < (matched text last).length then last.stop - 1 else last.stop
        return makeEntity .fio [extendPersonSpan R text first.start stop] 67 ∅)

/-! ### Whole names and addresses -/

/-- `_bare_names`. -/
def bareNames (text : Str) : List (Option Entity) :=
  let value := withoutNote R (strip R text)
  (if ((bareNameRe.rx R).matchAt value 0).isSome ∧ value.length ≤ 40 ∧ ¬ hasStopWord R value then
    ((find text value).map (fun start => makeEntity .fio [(start, start + value.length)] 46 ∅)).toList
  else []) ++
  match (latinLeadNameRe.rx R).matchAt text 0 with
  | none => []
  | some m => if hasStopWord R (groupText text 1 m) then [] else [groupEntity .fio m 46 1]

/-- The value of `_bare_names` is found in the text. -/
theorem find_bareName {text : Str} (h : ((bareNameRe.rx R).matchAt (withoutNote R (strip R text)) 0).isSome) :
    ∃ start, find text (withoutNote R (strip R text)) = some start := by
  obtain ⟨m, hm⟩ := Option.isSome_iff_exists.mp h
  obtain ⟨hfound, -⟩ := matchAt_found (Nat.zero_le _) hm
  have hleast : 0 < Pattern.least (fun _ => true) bareNameRe := by decide +kernel
  have hlt := Pattern.start_lt_stop hleast hfound
  have hle := hfound.within.2.1
  refine exists_find (List.length_pos_iff.mp (by omega)) ?_
  exact (withoutNote_isPrefix R text).isInfix.trans strip_infix

/-- `_bare_addresses`. -/
def bareAddresses (text : Str) : List (Option Entity) :=
  ((bareAddressRe.rx R).finditer text).flatMap (fun m =>
    let sentence := (((sentenceEndRe.rx R).finditerIn text 0 m.start).map Match.stop).foldl max 0
    if ((orgAddressCueRe.rx R).search text sentence m.start).isSome then []
    else [1, 2, 3, 4, 5].filterMap (fun idx =>
      (m.group idx).map (fun span => makeEntity .address [span] 55 ∅)))

/-! ### What the candidates consist of -/

section Candidates

variable {R} {text : Str} {P : Candidate → Prop}

theorem cardSecrets_yields (hpin : ∀ m ∈ (pinRe.rx R).finditer text, P ⟨.cardPin, [m.groupSpan 1], 86, ∅⟩)
    (hcvv : ∀ r ∈ [cvvRe, cvvAfterRe], ∀ m ∈ (r.rx R).finditer text, P ⟨.cardCvv, [m.groupSpan 1], 86, ∅⟩)
    (hwhole : ∀ m, (cardAndCodeRe.rx R).matchAt text 0 = some m → P ⟨.cardNumber, [m.groupSpan 1], 86, ∅⟩ ∧
      ∀ pdType ∈ [PDType.cardCvv, .cardPin], P ⟨pdType, [m.groupSpan 2], 86, ∅⟩) :
    Yields P (cardSecrets R text) := by
  refine ((Yields.map ?_).append (Yields.flatMap ?_)).append ?_
  · intro m hm
    exact Yields.one (hpin m hm)
  · intro r hr
    refine Yields.map ?_
    intro m hm
    exact Yields.one (hcvv r hr m hm)
  · split
    · exact Yields.nil
    · rename_i m hm
      obtain ⟨hnumber, hsecret⟩ := hwhole m hm
      refine (Yields.one hnumber).cons (Yields.one (hsecret _ ?_))
      split_ifs <;> simp

theorem numbers_yields
    (hfound : ∀ r ∈ [innRe, seriesOnlyRe, deptRe], ∀ m ∈ (r.rx R).finditer text,
      ∀ pdType ∈ [PDType.inn, .passport, .departmentCode], ∀ priority ≤ 79, P ⟨pdType, [m.groupSpan 1], priority, ∅⟩)
    (hwhole : ∀ r ∈ [wholeInnRe, wholeDocRe], ∀ m, (r.rx R).matchAt text 0 = some m →
      ∀ pdType ∈ [PDType.inn, .passport], P ⟨pdType, [m.groupSpan 1], 79, ∅⟩) : Yields P (numbers R text) := by
  refine (((Yields.filterMap ?_).append (Yields.flatMap ?_)).append (Yields.map ?_)).append (Yields.map ?_)
  · intro m hm o ho
    dsimp only at ho
    split_ifs at ho
    obtain rfl := Option.some.inj ho
    exact Yields.one (hfound innRe (by simp) m hm _ (by simp) 79 le_rfl)
  · rintro ⟨r, pdType⟩ hr
    refine Yields.toList ?_
    intro o ho
    obtain ⟨m, hm, rfl⟩ := Option.map_eq_some_iff.mp ho
    refine Yields.one (hwhole r ?_ m hm _ ?_)
    · exact List.mem_map_of_mem (f := Prod.fst) hr
    · exact List.mem_map_of_mem (f := Prod.snd) hr
  · intro m hm
    exact Yields.one (hfound seriesOnlyRe (by simp) m hm _ (by simp) 44 (by decide))
  · intro m hm
    exact Yields.one (hfound deptRe (by simp) m hm _ (by simp) 79 le_rfl)

/-- An issuer goes from a label, or from its own first word, to a computed end. -/
theorem issuers_yields
    (hlabel : ∀ label ∈ (issuerLabelRe.rx R).finditer text, label.stop + 3 ≤ issuerEnd R text label.stop →
      P ⟨.passportIssuer, [(label.stop, issuerEnd R text label.stop)], 69, ∅⟩)
    (hauthority : ∀ m ∈ (authorityRe.rx R).finditer text,
      P ⟨.passportIssuer, [(m.start, issuerEnd R text m.start)], 69, ∅⟩) :
    Yields P (issuers R text) := by
  refine (Yields.filterMap ?_).append (Yields.filterMap ?_)
  · intro label hlabel' o ho
    dsimp only at ho
    split_ifs at ho with hlen
    obtain rfl := Option.some.inj ho
    exact Yields.one (hlabel label hlabel' (by omega))
  · intro m hm o ho
    dsimp only at ho
    split_ifs at ho
    obtain rfl := Option.some.inj ho
    exact Yields.one (hauthority m hm)

theorem mem_nameTokensFrom {w : Match} : ∀ {n pos : ℕ} {toks : List Match}, w ∈ nameTokensFrom R text n pos toks →
    w ∈ toks
  | 0, _, _, h => by
    rw [nameTokensFrom] at h
    cases h
  | _ + 1, _, [], h => by
    rw [nameTokensFrom] at h
    cases h
  | n + 1, pos, tok :: toks, h => by
    rw [nameTokensFrom] at h
    split_ifs at h
    · cases h
    · rw [List.mem_singleton] at h
      exact h ▸ List.mem_cons_self
    · rcases List.mem_cons.mp h with rfl | h
      · exact List.mem_cons_self
      · exact List.mem_cons_of_mem _ (mem_nameTokensFrom h)

/-- The first word of a name is the first one behind the label. -/
theorem head_nameTokens {pos : ℕ} {first : Match} (h : (nameTokens R text pos).head? = some first) :
    ((nameTokenRe.rx R).finditerIn text pos text.length).head? = some first := by
  unfold nameTokens at h
  cases htoks : (nameTokenRe.rx R).finditerIn text pos text.length with
  | nil =>
    rw [htoks, nameTokensFrom] at h
    cases h
  | cons tok toks =>
    rw [htoks, nameTokensFrom] at h
    split_ifs at h
    · cases h
    · exact h
    · exact h

/-- The words of a name stand in their order, in the text. -/
theorem nameTokens_within {pos : ℕ} {first w : Match} (hpos : pos ≤ text.length)
    (hfirst : (nameTokens R text pos).head? = some first) (hw : w ∈ nameTokens R text pos) :
    pos ≤ first.start ∧ first.start ≤ w.start ∧ w.stop ≤ text.length := by
  have hhead := head_nameTokens hfirst
  have hmem := mem_nameTokensFrom hw
  have hwithin := (finditerIn_found hpos hmem).within.2.1
  rw [List.take_length] at hwithin
  exact ⟨finditerIn_start hpos le_rfl (List.mem_of_mem_head? hhead), scan_head_le _ _ _ _ first hhead w hmem, hwithin⟩

/-- The name behind a role, extended. -/
theorem roleNames_yields
    (hP : ∀ label ∈ (roleLabelRe.rx R).finditer text, ∀ first last,
      (nameTokens R text label.stop).head? = some first → (nameTokens R text label.stop).getLast? = some last →
      ∀ stop, stop = last.stop ∨ (last.start < stop ∧ stop ≤ last.stop) →
      P ⟨.fio, [extendPersonSpan R text first.start stop], 67, ∅⟩) : Yields P (roleNames R text) := by
  refine Yields.filterMap ?_
  intro label hlabel o ho
  dsimp only at ho
  split at ho
  · cases ho
  · obtain ⟨first, hfirst, ho⟩ := Option.bind_eq_some_iff.mp ho
    obtain ⟨last, hlast, ho⟩ := Option.bind_eq_some_iff.mp ho
    split_ifs at ho with hdot
    · obtain rfl := Option.some.inj ho
      have hlen : (matched text last).length ≤ last.stop - last.start := List.length_take_le _ _
      exact Yields.one (hP label hlabel first last hfirst hlast _ (Or.inr ⟨by omega, Nat.sub_le _ _⟩))
    · obtain rfl := Option.some.inj ho
      exact Yields.one (hP label hlabel first last hfirst hlast _ (Or.inl rfl))

/-- The name that is the whole text, found in it, and the Latin name that begins the text. -/
theorem bareNames_yields
    (hname : ∀ value start, ((bareNameRe.rx R).matchAt value 0).isSome → find text value = some start →
      P ⟨.fio, [(start, start + value.length)], 46, ∅⟩)
    (hlatin : ∀ m, (latinLeadNameRe.rx R).matchAt text 0 = some m → P ⟨.fio, [m.groupSpan 1], 46, ∅⟩) :
    Yields P (bareNames R text) := by
  refine Yields.append (Yields.ite (fun hbare => Yields.toList ?_) (fun _ => Yields.nil)) ?_
  · intro o ho
    obtain ⟨start, hstart, rfl⟩ := Option.map_eq_some_iff.mp ho
    exact Yields.one (hname _ start hbare.1 hstart)
  · split
    · exact Yields.nil
    · rename_i m hm
      refine Yields.ite (fun _ => Yields.nil) (fun _ => ?_)
      exact Yields.one (hlatin m hm)

theorem bareAddresses_yields
    (hP : ∀ m ∈ (bareAddressRe.rx R).finditer text, ∀ idx ∈ [1, 2, 3, 4, 5], ∀ span, m.group idx = some span →
      P ⟨.address, [span], 55, ∅⟩) : Yields P (bareAddresses R text) := by
  refine Yields.flatMap ?_
  intro m hm
  dsimp only
  refine Yields.ite (fun _ => Yields.nil) (fun _ => Yields.filterMap ?_)
  intro idx hidx o ho
  obtain ⟨span, hspan, rfl⟩ := Option.map_eq_some_iff.mp ho
  exact Yields.one (hP m hm idx hidx span hspan)

end Candidates

end ContextValueDetector

open ContextValueDetector in
/-- `ContextValueDetector`. -/
def ContextValueDetector (R : Runtime) : Detector where
  types := {.cardPin, .cardCvv, .cardNumber, .inn, .passport, .departmentCode, .passportIssuer, .fio, .address}
  needsDigits := false
  detect text :=
    cardSecrets R text ++ numbers R text ++ issuers R text ++ roleNames R text ++ bareNames R text ++
      bareAddresses R text

end PdMasking
