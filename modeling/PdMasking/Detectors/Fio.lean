import PdMasking.Detectors.Names
import Mathlib.Data.List.DropRight

/-!
# PdMasking.Detectors.Fio — names of persons and card holders (`core/detectors/fio.py`)

`FioDetector`: the text is split into words with what the dictionary and the morphology say of them; names are
stable sequences of such words, words behind a cue, surnames with initials, and card holders.
-/

namespace PdMasking

open Regex Names

namespace Fio

set_option maxRecDepth 4000

/-- `_WORD_RE`. -/
def wordRe : Re := re false (chars r"[А-ЯЁа-яё]+(?:-[А-ЯЁа-яё]+)?")

/-- `_CUE_RE`. -/
def cueRe : Re :=
  re true (chars r"(?:\bфио|клиент\w*|заё?мщик\w*|заявител\w*|получател\w*|отправител\w*|пациент\w*" ++
    chars r"|абонент\w*|владел\w*|гражданин\w*|гражданк\w*|\bгр\.|господин\w*|госпож\w*|\bг-н|\bг-жа" ++
    chars r"|уважаем\w+|плательщик\w*|вкладчик\w*|поручител\w*|наследник\w*|подписант\w*" ++
    chars r"|представител\w*)\s*[:\-–—]?\s*$")

/-- `_NON_PD_CUE_RE`. -/
def nonPdCueRe : Re :=
  re true (chars r"(?:\bимени|\bим\.|\bулиц\w*|\bул\.|проспект\w*|\bпр-т|\bпл\.|площад\w*|переул\w*|бульвар\w*" ++
    chars r"|памятник\w*|музе\w*|поэт\w*|писател\w*|композитор\w*|художник\w*|философ\w*" ++
    chars r"|учён\w*|учен\w*|стих\w*|произведени\w*|повест\w*|классик\w*|царь|импер\w*" ++
    chars r"|полковод\w*|актёр\w*|актер\w*|режиссёр\w*|режиссер\w*|\bтеатр\w*|\bметро\b|\bстанци\w*)" ++
    chars "\\s*[«\\\"]?\\s*$")

/-- `_NON_PD_AFTER_RE`. -/
def nonPdAfterRe : Re :=
  re true (chars r"^[\s,—\-]*(?:был[аио]?\s+|является\s+|—\s+)?(?:\w+\s+){0,2}?" ++
    chars r"(?:знаменит\w*|известн\w*|велик\w*|балерин\w*|писател\w*|поэт\w*|композитор\w*|художни\w*" ++
    chars r"|актёр\w*|актер\w*|актрис\w*|режиссёр\w*|режиссер\w*|учён\w*|спортсмен\w*|чемпион\w*)")

/-- `_STRONG_CUE_RE`. -/
def strongCueRe : Re :=
  re true (chars r"клиент|заё?мщик|\bфио\b|заявител|держател|получател|паспорт|плательщик|вкладчик")

/-- `_INITIALS_AFTER_RE`. -/
def initialsAfterRe : Re :=
  re false (chars r"([А-ЯЁ][а-яё]+(?:-[А-ЯЁ][а-яё]+)?)\s+([А-ЯЁ])\.\s?([А-ЯЁ])(?:\.|(?![А-ЯЁа-яё]))")

/-- `_INITIALS_BEFORE_RE`. -/
def initialsBeforeRe : Re :=
  re false (chars r"(?<![А-Яа-яЁё])([А-ЯЁ])\.\s?([А-ЯЁ])\.\s?([А-ЯЁ][а-яё]+(?:-[А-ЯЁ][а-яё]+)?)")

/-- `_HOLDER_CUE_RE`. -/
def holderCueRe : Re :=
  re true (chars r"(?:держател\w*(?:\s+карты)?|имя\s+держателя(?:\s+карты)?|имя\s+(?:и\s+фамилия\s+)?на\s+карте" ++
    chars r"|владел\w*\s+карты|эмбосс\w*\s+имя|card\s*holder(?:\s+name)?|name\s+on\s+card)\s*[:\-–—]?\s*" ++
    chars "[«\\\"]?([A-Za-zА-ЯЁа-яё][A-Za-zА-ЯЁа-яё'-]+" ++
    chars r"(?:\s+[A-Za-zА-ЯЁа-яё][A-Za-zА-ЯЁа-яё'-]+){1,2})")

/-- `_HOLDER_WORD_RE`. -/
def holderWordRe : Re := re false (chars r"[A-Za-zА-ЯЁа-яё'-]+")

/-- `_HOLDER_STOPWORDS`. -/
def holderStopwords : List Str :=
  [chars "карты", chars "номер", chars "срок", chars "cvv", chars "cvc", chars "пин", chars "pin", chars "код"]

/-- `_HOLDER_LEAD_STOPWORDS`. -/
def holderLeadStopwords : List Str :=
  [chars "указано", chars "указан", chars "указана", chars "как", chars "это", chars "является",
    chars "записано", chars "значится", chars "оформлена", chars "оформлено"]

/-- `_LATIN_HOLDER_RE`. -/
def latinHolderRe : Re := re false (chars r"(?<![A-Za-z])([A-Z]{2,})\s+([A-Z]{2,})(?![A-Za-z])")

/-- `_LATIN_STOPWORDS`. -/
def latinStopwords : List Str :=
  [chars "CVV", chars "CVC", chars "PIN", chars "VISA", chars "MASTERCARD", chars "MIR", chars "MAESTRO",
    chars "VALID", chars "THRU", chars "EXP", chars "CARD", chars "BANK", chars "NUMBER", chars "HOLDER",
    chars "NAME", chars "UNIONPAY", chars "AMEX", chars "CODE", chars "DATE", chars "LLM", chars "API",
    chars "PDF"]

/-- `_NOT_NAME_WORDS`. -/
def notNameWords : List Str := blankWords (
  chars "российской федерации россии рф республики республика беларусь белоруссии казахстана казахстан " ++
  chars "украины украина узбекистана таджикистана кыргызстана киргизии армении азербайджана грузии " ++
  chars "молдовы германии сша китая банка банк альфа москвы москва санкт петербурга")

section Words

variable (R : Runtime)

/-- What `_Token.surname` says of a word in lower case. -/
def isSurnameWord (lower : Str) : Bool := startsWith R surnameRe lower && lower ∉ notSurnames

/-- `_holder_word_ok`. -/
def holderWordOk (word : Str) : Bool :=
  let lower := R.lower word
  let byDictionary := isFirstName lower || startsWith R patronymicRe lower
  let bySurname := isSurnameWord R lower
  isAsciiStr word || byDictionary || bySurname || (startsUpper R word && !isUpperStr R word)

/-- `_Token`. -/
structure Token where
  start : ℕ
  stop : ℕ
  text : Str
  lower : Str
  capitalized : Bool
  first : Bool
  patronymic : Bool
  surname : Bool

/-- A word of a text as `_tokenize` sees it. -/
def token (text : Str) (m : Match) : Token :=
  let word := matched text m
  let lower := R.lower word
  { start := m.start
    stop := m.stop
    text := word
    lower := lower
    capitalized := startsUpper R word && !(1 < word.length && isUpperStr R word)
    first := isFirstName lower
    patronymic := startsWith R patronymicRe lower
    surname := isSurnameWord R lower }

/-- `_tokenize`. -/
def tokenize (text : Str) : List Token := ((wordRe.rx R).finditer text).map (token R text)

/-- `_adjacent`. -/
def adjacent (text : Str) (left right : Token) : Bool :=
  let gap := slice text left.stop right.start
  0 < gap.length && gap.length ≤ 3 && isSpaceStr R gap

/-- The cue is found in the word itself, followed by a blank. -/
def isCueWord (tok : Token) : Bool := ((cueRe.rx R).search (tok.text ++ [' ']) 0 (tok.text.length + 1)).isSome

/-- `_is_surname`. -/
def isSurname (tok : Token) (strict : Bool) : Bool :=
  if tok.surname then true
  else if isCueWord R tok then false
  else !strict && tok.capitalized && !tok.first && !tok.patronymic

/-- `_match_run` on two words. -/
def matchPair (a b : Token) : ℕ :=
  if a.first && b.patronymic then 2
  else if isSurname R a true && b.first then 2
  else if a.first && isSurname R b true then 2
  else 0

/-- `_match_run`: the length of the name at the start of the run, 0 for none. -/
def matchRun : List Token → ℕ
  | a :: b :: c :: _ =>
    if isSurname R a false && b.first && c.patronymic then 3
    else if a.first && b.patronymic && isSurname R c false then 3
    else matchPair R a b
  | [a, b] => matchPair R a b
  | _ => 0

end Words

end Fio

namespace FioDetector

open Fio

variable (R : Runtime)

/-- Up to `n` tokens that follow `last` without a break and satisfy `ok`. -/
def runFrom (text : Str) (ok : Token → Bool) : ℕ → Token → List Token → List Token
  | 0, _, _ => []
  | _ + 1, _, [] => []
  | n + 1, last, tok :: toks =>
    if adjacent R text last tok && ok tok then tok :: runFrom text ok n tok toks else []

/-- The loop of `_by_morphology`; the first `skip` tokens belong to the name before. -/
def byMorphology (text : Str) : ℕ → List Token → List (Option Entity)
  | _, [] => []
  | skip + 1, _ :: toks => byMorphology text skip toks
  | 0, tok :: toks =>
    let run := tok :: runFrom R text (fun _ => true) 2 tok toks
    let size := matchRun R run
    if size = 0 then byMorphology text 0 toks
    else makeEntity .fio [(tok.start, (run.getD (size - 1) tok).stop)] 60 ∅ :: byMorphology text (size - 1) toks

/-- `_by_initials`. -/
def byInitials (text : Str) : List (Option Entity) :=
  [initialsAfterRe, initialsBeforeRe].flatMap (fun pattern =>
    ((pattern.rx R).finditer text).map (fun m => makeEntity .fio [m.span] 62 ∅))

/-- The name behind a cue that begins with `tok`. -/
def cueName (text : Str) (tok : Token) (toks : List Token) : Option (Option Entity) :=
  let known (t : Token) := t.capitalized || t.first || t.patronymic || t.surname
  let run := tok :: runFrom R text known 2 tok toks
  if run.length < 2 then
    if tok.surname && !tok.first && !tok.patronymic && tok.lower ∉ notNameWords then
      some (makeEntity .fio [(tok.start, tok.stop)] 58 ∅)
    else none
  else if run.any (fun t => t.lower ∈ notNameWords) then none
  else if run.all Token.capitalized || run.any (fun t => t.first || t.patronymic) then
    some (makeEntity .fio [(tok.start, (run.getLastD tok).stop)] 58 ∅)
  else none

/-- `_by_cue`. -/
def byCue (text : Str) : List Token → List (Option Entity)
  | [] => []
  | tok :: toks =>
    (if ¬ cueBefore R text tok.start cueRe 40 ∨ isCueWord R tok then none
      else cueName R text tok toks).toList ++ byCue text toks

/-- The words of a holder's name. -/
def holderWords (text : Str) (m : Match) : List Match :=
  let words := (holderWordRe.rx R).finditerIn text (m.groupSpan 1).1 (m.groupSpan 1).2
  let words := words.rdropWhile (fun w => R.lower (matched text w) ∈ holderStopwords)
  let words := words.dropWhile (fun w => R.lower (matched text w) ∈ holderLeadStopwords)
  words.rdropWhile (fun w => !holderWordOk R (matched text w))

/-- `_card_holders`. -/
def cardHolders (text : Str) : List (Option Entity) :=
  ((holderCueRe.rx R).finditer text).filterMap (fun m => do
    let words := holderWords R text m
    if words.any (fun w => !holderWordOk R (matched text w)) then none
    else if words.length ≥ 2 then
      return makeEntity .cardHolder [((← words.head?).start, (← words.getLast?).stop)] 80 ∅
    else none) ++
  ((latinHolderRe.rx R).finditer text).filterMap (fun m =>
    if groupText text 1 m ∈ latinStopwords ∨ groupText text 2 m ∈ latinStopwords then none
    else some (makeEntity .cardHolder [m.span] 55 {.cardNumber}))

/-- `_is_excluded`. -/
def isExcluded (text : Str) (entity : Entity) : Bool :=
  if entity.pdType = .cardHolder then false
  else if 0 < entity.start ∧ (text[entity.start - 1]?).any (among "«\"'„“") then true
  else if cueBefore R text entity.start nonPdCueRe 30 then true
  else if ((nonPdAfterRe.rx R).matchAt (slice text entity.stop (entity.stop + 60)) 0).isSome then
    !cueBefore R text entity.start strongCueRe 40
  else
    let value := slice text entity.start entity.stop
    let words := ((wordRe.rx R).finditer value).map (fun m => R.lower (matched value m))
    if words.any (startsWith R famousSurnameRe) then !cueBefore R text entity.start strongCueRe 40
    else false

/-- `_extend`. -/
def extend (text : Str) (entity : Entity) : Option Entity :=
  if entity.pdType ≠ .fio ∨ entity.parts.length ≠ 1 then some entity
  else
    let (start, stop) := extendPersonSpan R text entity.start entity.stop
    if (start, stop) = (entity.start, entity.stop) then some entity
    else makeEntity .fio [(start, stop)] entity.priority ∅

/-- The candidates before `_is_excluded`. -/
def candidates (text : Str) : List (Option Entity) :=
  let tokens := tokenize R text
  byMorphology R text 0 tokens ++ byInitials R text ++ byCue R text tokens ++ cardHolders R text

end FioDetector

/-- `FioDetector`. -/
def FioDetector (R : Runtime) : Detector where
  types := {.fio, .cardHolder}
  needsDigits := false
  detect text :=
    (((FioDetector.candidates R text).filterMap id).filter (fun e => !FioDetector.isExcluded R text e)).map
      (FioDetector.extend R text)

/-! ### What the candidates consist of -/

namespace FioDetector

open Fio

variable {R : Runtime} {text : Str} {P : Candidate → Prop} {toks : List Token}

theorem mem_runFrom {ok : Token → Bool} {t : Token} : ∀ {n : ℕ} {last : Token} {toks : List Token},
    t ∈ runFrom R text ok n last toks → t ∈ toks
  | 0, _, _, h => by
    rw [runFrom] at h
    cases h
  | _ + 1, _, [], h => by
    rw [runFrom] at h
    cases h
  | n + 1, last, tok :: toks, h => by
    rw [runFrom] at h
    split_ifs at h
    · rcases List.mem_cons.mp h with rfl | h
      · exact List.mem_cons_self
      · exact List.mem_cons_of_mem _ (mem_runFrom h)
    · cases h

/-- Words of the text that follow each other, from the one to the other. -/
def Joined (R : Runtime) (text : Str) : Token → Token → Prop :=
  Relation.ReflTransGen (fun a b => b ∈ tokenize R text ∧ adjacent R text a b = true)

/-- The words of a run follow each other. -/
theorem joined_runFrom {ok : Token → Bool} {t : Token} : ∀ {n : ℕ} {last : Token} {toks : List Token},
    toks ⊆ tokenize R text → t ∈ runFrom R text ok n last toks → Joined R text last t
  | 0, _, _, _, h => by
    rw [runFrom] at h
    cases h
  | _ + 1, _, [], _, h => by
    rw [runFrom] at h
    cases h
  | n + 1, last, tok :: toks, hsub, h => by
    rw [List.cons_subset] at hsub
    rw [runFrom] at h
    split_ifs at h with hok
    · have hnext : Joined R text last tok := .single ⟨hsub.1, (Bool.and_eq_true_iff.mp hok).1⟩
      rcases List.mem_cons.mp h with rfl | h
      · exact hnext
      · exact hnext.trans (joined_runFrom hsub.2 h)
    · cases h

/-- The words of a run are words of the text, and the first one is joined to them. -/
theorem mem_run {ok : Token → Bool} {n : ℕ} {tok t : Token} (hsub : tok :: toks ⊆ tokenize R text)
    (h : t ∈ tok :: runFrom R text ok n tok toks) : t ∈ tokenize R text ∧ Joined R text tok t := by
  rw [List.cons_subset] at hsub
  rcases List.mem_cons.mp h with rfl | h
  · exact ⟨hsub.1, .refl⟩
  · exact ⟨hsub.2 (mem_runFrom h), joined_runFrom hsub.2 h⟩

/-- An element of a list, or the default, which is its first one. -/
theorem getD_mem (tok : Token) (run : List Token) (i : ℕ) : (tok :: run).getD i tok ∈ tok :: run := by
  rw [List.getD_eq_getElem?_getD]
  cases h : (tok :: run)[i]? with
  | none => exact List.mem_cons_self
  | some t => exact List.mem_of_getElem? h

theorem getLastD_mem (tok : Token) (run : List Token) : (tok :: run).getLastD tok ∈ tok :: run := by
  rw [List.getLastD_cons]
  exact List.getLastD_mem_cons

theorem byMorphology_yields (hP : ∀ first ∈ tokenize R text, ∀ last ∈ tokenize R text, Joined R text first last →
    P ⟨.fio, [(first.start, last.stop)], 60, ∅⟩) : ∀ (skip : ℕ) (toks : List Token), toks ⊆ tokenize R text →
    Yields P (byMorphology R text skip toks)
  | skip, [], _ => by
    rw [byMorphology]
    exact Yields.nil
  | skip + 1, tok :: toks, hsub => by
    rw [byMorphology]
    exact byMorphology_yields hP skip toks (List.cons_subset.mp hsub).2
  | 0, tok :: toks, hsub => by
    have hrest := fun skip => byMorphology_yields hP skip toks (List.cons_subset.mp hsub).2
    rw [byMorphology]
    split_ifs with hsize
    · exact hrest 0
    · obtain ⟨hlast, hjoined⟩ := mem_run hsub (getD_mem tok (runFrom R text (fun _ => true) 2 tok toks)
        (matchRun R (tok :: runFrom R text (fun _ => true) 2 tok toks) - 1))
      exact (Yields.one (hP tok (List.cons_subset.mp hsub).1 _ hlast hjoined)).cons (hrest _)

theorem cueName_yields {tok : Token} (hP : ∀ first ∈ tokenize R text, ∀ last ∈ tokenize R text,
    Joined R text first last → P ⟨.fio, [(first.start, last.stop)], 58, ∅⟩) (hsub : tok :: toks ⊆ tokenize R text)
    {o : Option Entity} (h : cueName R text tok toks = some o) : Yields P [o] := by
  have htok := (List.cons_subset.mp hsub).1
  unfold cueName at h
  dsimp only at h
  split_ifs at h
  · obtain rfl := Option.some.inj h
    exact Yields.one (hP tok htok tok htok .refl)
  · obtain rfl := Option.some.inj h
    obtain ⟨hlast, hjoined⟩ := mem_run hsub (getLastD_mem tok _)
    exact Yields.one (hP tok htok _ hlast hjoined)

theorem byCue_yields (hP : ∀ first ∈ tokenize R text, ∀ last ∈ tokenize R text, Joined R text first last →
    P ⟨.fio, [(first.start, last.stop)], 58, ∅⟩) : ∀ (toks : List Token), toks ⊆ tokenize R text →
    Yields P (byCue R text toks)
  | [], _ => by
    rw [byCue]
    exact Yields.nil
  | tok :: toks, hsub => by
    have hrest := byCue_yields hP toks (List.cons_subset.mp hsub).2
    rw [byCue]
    refine Yields.append (Yields.toList ?_) hrest
    intro o ho
    split_ifs at ho
    exact cueName_yields hP hsub ho

theorem mem_holderWords {m w : Match} (h : w ∈ holderWords R text m) :
    w ∈ (holderWordRe.rx R).finditerIn text (m.groupSpan 1).1 (m.groupSpan 1).2 := by
  unfold holderWords at h
  have h1 := (List.rdropWhile_prefix _ _).subset h
  have h2 := (List.dropWhile_suffix _).subset h1
  exact (List.rdropWhile_prefix _ _).subset h2

theorem cardHolders_yields
    (hcue : ∀ m ∈ (holderCueRe.rx R).finditer text, ∀ first ∈ holderWords R text m, ∀ last ∈ holderWords R text m,
      P ⟨.cardHolder, [(first.start, last.stop)], 80, ∅⟩)
    (hlatin : ∀ m ∈ (latinHolderRe.rx R).finditer text, P ⟨.cardHolder, [m.span], 55, {.cardNumber}⟩) :
    Yields P (cardHolders R text) := by
  refine (Yields.filterMap ?_).append (Yields.filterMap ?_)
  · intro m hm o ho
    dsimp only at ho
    split_ifs at ho
    obtain ⟨first, hfirst, ho⟩ := Option.bind_eq_some_iff.mp ho
    obtain ⟨last, hlast, ho⟩ := Option.bind_eq_some_iff.mp ho
    obtain rfl := Option.some.inj ho
    exact Yields.one (hcue m hm first (List.mem_of_mem_head? hfirst) last (List.mem_of_mem_getLast? hlast))
  · intro m hm o ho
    split_ifs at ho
    obtain rfl := Option.some.inj ho
    exact Yields.one (hlatin m hm)

/-- What is reported is a candidate, or the extended span of a name. -/
theorem detect_yields (hP : Yields P (candidates R text))
    (hextend : ∀ c, P c → c.pdType = .fio → ∀ p ∈ c.spans, p.1 < p.2 →
      P ⟨.fio, [extendPersonSpan R text p.1 p.2], c.priority, ∅⟩) :
    Yields P ((FioDetector R).detect text) := by
  intro e' he'
  obtain ⟨e, he, hee'⟩ := List.mem_map.mp he'
  obtain ⟨o, ho, rfl⟩ := List.mem_filterMap.mp (List.mem_filter.mp he).1
  obtain ⟨spans, hmade, hspans⟩ := hP e ho
  unfold extend at hee'
  dsimp only at hee'
  split_ifs at hee' with hkind hsame
  · obtain rfl := Option.some.inj hee'
    exact ⟨spans, hmade, hspans⟩
  · obtain rfl := Option.some.inj hee'
    exact ⟨spans, hmade, hspans⟩
  · simp only [not_or, ne_eq, not_not] at hkind
    obtain ⟨hfio, hone⟩ := hkind
    obtain ⟨p, hp⟩ := List.length_eq_one_iff.mp hone
    have hstart : e.start = p.1 := by simp [Entity.start, hp]
    have hstop : e.stop = p.2 := by simp [Entity.stop, hp]
    obtain ⟨hmem, hlt⟩ := (mem_parts_of_makeEntity hmade).mp (hp ▸ List.mem_singleton_self p)
    have hgrown := hextend _ hspans hfio p hmem hlt
    rw [hstart, hstop] at hee'
    exact Yields.one hgrown e' (List.mem_singleton.mpr hee'.symm)

end FioDetector

end PdMasking
