import PdMasking.Detectors.Base

/-!
# PdMasking.Detectors.Names — dictionaries and morphology (`core/detectors/names_data.py`, `name_span.py`)

First names come from a dictionary with their case endings, patronymics and surnames from patterns.
`extendPersonSpan` adds the initials and the patronymic next to a name that was found.
-/

namespace PdMasking

open Regex

namespace Names

set_option maxRecDepth 8000

/-- The words of a text between single blanks. -/
def blankWords : Str → List Str
  | [] => [[]]
  | c :: s =>
    if c = ' ' then [] :: blankWords s
    else
      match blankWords s with
      | [] => [[c]]
      | w :: ws => (c :: w) :: ws

/-- `_MALE_NAMES`. -/
def maleNames : List Str := blankWords (
  chars "александр алексей анатолий андрей антон аркадий арсений артём артем артур богдан борис " ++
  chars "вадим валентин валерий василий виктор виталий владимир владислав всеволод вячеслав " ++
  chars "гавриил геннадий георгий герман глеб григорий давид даниил денис дмитрий евгений егор " ++
  chars "емельян захар иван игнат игорь илья иннокентий иосиф кирилл константин лаврентий " ++
  chars "леонид леонтий макар максим марат марк матвей михаил назар никита николай олег павел " ++
  chars "пётр петр платон прохор радик ренат ринат родион роман ростислав руслан савелий святослав " ++
  chars "семён семен сергей станислав степан тарас тимофей тимур трофим фёдор федор филипп эдуард " ++
  chars "эльдар эмиль юрий яков ярослав")

/-- `_FEMALE_NAMES`. -/
def femaleNames : List Str := blankWords (
  chars "августа аврора агата аглая ада алевтина александра алёна алена алина алиса алла альбина " ++
  chars "анастасия ангелина анжела анна антонина арина валентина валерия варвара василиса вера " ++
  chars "вероника виктория виолетта галина дарина дарья диана ева евгения екатерина елена елизавета " ++
  chars "жанна зарина зинаида злата зоя инна ирина карина кира клавдия кристина ксения лариса лидия " ++
  chars "лилия любовь людмила майя маргарита марина мария марьяна милана мирослава надежда наталья " ++
  chars "наталия нина нонна оксана олеся ольга полина раиса регина римма роза светлана серафима " ++
  chars "снежана софия софья стефания таисия тамара татьяна ульяна фаина элина эльвира эмилия юлия " ++
  chars "яна ярослава")

def firstNames : List Str := maleNames ++ femaleNames

/-- `_STEM_ENDINGS`. -/
def stemEndings : List Str := [chars "ия", chars "ья", chars "а", chars "я", chars "й", chars "ь", chars "о"]

/-- `_CASE_ENDINGS`. -/
def caseEndings : List Str :=
  [chars "ой", chars "ей", chars "ом", chars "ем", chars "ию", chars "ии", chars "ья", chars "ью", chars "ье",
    chars "а", chars "у", chars "е", chars "ы", chars "и", chars "ю", chars "я"]

/-- `_STEM_BLOCKLIST`. -/
def stemBlocklist : List Str := [chars "инн", chars "май", chars "марк"]

/-- `_stem`. -/
def stem (name : Str) : Str :=
  match stemEndings.find? (fun ending => ending.isSuffixOf name && 3 ≤ name.length - ending.length) with
  | some ending => name.take (name.length - ending.length) ++ (if ending = chars "ия" then chars "и" else [])
  | none => name

/-- `FIRST_NAME_STEMS`. -/
def firstNameStems : List Str := (firstNames.map stem).filter (· ∉ stemBlocklist)

/-- `is_first_name`. -/
def isFirstName (word : Str) : Bool :=
  if word ∈ stemBlocklist then false
  else if word ∈ firstNames ∨ word ∈ firstNameStems then true
  else caseEndings.any (fun ending =>
    ending.isSuffixOf word && word.take (word.length - ending.length) ∈ firstNameStems)

/-- `PATRONYMIC_RE`. -/
def patronymicRe : Re :=
  re false (chars r"^[а-яё]{3,}(?:ович|евич|ьич|ич)(?:а|у|ем|е|ом)?$|^[а-яё]{3,}(?:овн|евн|ичн|иничн)(?:а|ы|е|у|ой)$")

/-- `SURNAME_RE`. -/
def surnameRe : Re :=
  re false (chars r"^[а-яё-]{2,}(?:ов|ев|ёв|ин|ын)(?:а|у|ым|ой|е|ых|ыми)?$" ++
    chars r"|^[а-яё-]{2,}(?:ск|цк)(?:ий|ая|ого|ому|им|ой|ую|ом)$" ++
    chars r"|^[а-яё]{2,}(?:енко|ук|юк|ян|дзе|швили|их|ых)$")

/-- `NOT_SURNAMES`. -/
def notSurnames : List Str := blankWords (
  chars "магазин бензин керосин витамин кофеин морфин клин блин сплин камин жасмин " ++
  chars "каталог диалог список основ домов слов часов годов городов банков рублей " ++
  chars "налогов наличных безналичных денежных документов договоров платежей переводов кредитов вкладов " ++
  chars "счетов взносов штрафов процентов клиентов расходов доходов товаров")

/-- `_FAMOUS_STEMS`, joined by `|`. -/
def famousStems : Str :=
  chars "пушкин|лермонтов|толст|достоевск|чехов|гогол|тургенев|есенин|маяковск|булгаков|пастернак|" ++
  chars "ахматов|цветаев|набоков|горьк|солженицын|ломоносов|менделеев|гагарин|королёв|королев|" ++
  chars "циолковск|суворов|кутузов|ленин|сталин|чайковск|рахманинов|глинк|мусоргск|репин|шишкин|" ++
  chars "айвазовск|левитан|крылов|грибоедов|некрасов|тютчев|бродск|шолохов|куприн|бунин|лесков|" ++
  chars "островск|державин|карамзин|радищев|герцен|чернышевск|белинск|лобачевск|ковалевск|туполев|" ++
  chars "сикорск|калашников|эйнштейн|ньютон|шекспир|наполеон|гумилев|гумилёв|каренин|грозн"

/-- `FAMOUS_SURNAME_RE`. -/
def famousSurnameRe : Re :=
  re false (chars r"^(?:" ++ famousStems ++ chars r")(?:а|у|ым|ом|е|ой|ого|ому|ий|ый|ая|ую|ыми|ых)?$")

/-- `CITIES`. -/
def cities : List Str := blankWords (
  chars "москва санкт-петербург новосибирск екатеринбург казань челябинск самара омск ростов-на-дону " ++
  chars "уфа красноярск воронеж пермь волгоград краснодар саратов тюмень тольятти ижевск барнаул ульяновск " ++
  chars "иркутск хабаровск ярославль владивосток махачкала томск оренбург кемерово новокузнецк рязань астрахань " ++
  chars "пенза липецк киров чебоксары калининград тула курск сочи ставрополь севастополь симферополь минск " ++
  chars "алматы астана ташкент бишкек ереван баку тбилиси") ++ [chars "нижний новгород"]

/-- `pattern.match(word)` as a truth value. -/
def startsWith (R : Runtime) (pattern : Re) (word : Str) : Bool := ((pattern.rx R).matchAt word 0).isSome

/-! ### The words next to a name -/

/-- `_LEFT_INITIAL_RE`. -/
def leftInitialRe : Re := re false (chars r"(?<![A-Za-zА-ЯЁа-яё.])([A-Za-zА-ЯЁа-яё])\.\s?$")

/-- `_RIGHT_INITIALS_RE`. -/
def rightInitialsRe : Re :=
  re false (chars r"\s{1,2}([А-ЯЁа-яёA-Z]\.(?:\s?[А-ЯЁа-яёA-Z]\.)?)(?![А-ЯЁа-яёA-Za-z])")

/-- `_RIGHT_WORD_RE`. -/
def rightWordRe : Re := re false (chars r"\s{1,2}([А-ЯЁа-яё]+)(?![А-ЯЁа-яё\-])")

/-- `_TRAILING_INITIAL_RE`. -/
def trailingInitialRe : Re := re false (chars r"(?:^|\s)[А-ЯЁа-яёA-Za-z]$")

/-- The loop of `_extend_right`, `n` steps at most. -/
def extendRight (R : Runtime) (text : Str) : ℕ → ℕ → ℕ
  | 0, stop => stop
  | n + 1, stop =>
    match (rightInitialsRe.rx R).matchAt text stop with
    | some m => extendRight R text n (m.groupSpan 1).2
    | none =>
      match (rightWordRe.rx R).matchAt text stop with
      | some w =>
        if startsWith R patronymicRe (R.lower (groupText text 1 w)) then
          extendRight R text n (w.groupSpan 1).2
        else stop
      | none => stop

/-- `extend_person_span`. -/
def extendPersonSpan (R : Runtime) (text : Str) (start stop : ℕ) : ℕ × ℕ :=
  let start' :=
    match (leftInitialRe.rx R).search text (start - 4) start with
    | some left => if left.stop = start then (left.groupSpan 1).1 else start
    | none => start
  let stop' :=
    if text[stop]? = some '.' ∧ ((trailingInitialRe.rx R).search text start' stop).isSome then stop + 1 else stop
  (start', extendRight R text 3 stop')

/-! ### A span only grows -/

section Extend

variable {R : Runtime} {text : Str} {start stop : ℕ}

theorem extendRight_le : ∀ (n stop : ℕ), stop ≤ text.length →
    stop ≤ extendRight R text n stop ∧ extendRight R text n stop ≤ text.length
  | 0, stop, h => ⟨le_rfl, h⟩
  | n + 1, stop, h => by
    -- both patterns begin where the name ends
    have hgroup : ∀ {r : Re} {m : Match}, (r.rx R).matchAt text stop = some m →
        stop ≤ (m.groupSpan 1).2 ∧ (m.groupSpan 1).2 ≤ text.length := by
      intro r m hm
      obtain ⟨hfound, hstart⟩ := matchAt_found h hm
      obtain ⟨h1, h2, h3⟩ := groupSpan_within (k := 1) hfound.within
      omega
    unfold extendRight
    split
    · rename_i m hm
      obtain ⟨h1, h2⟩ := hgroup hm
      obtain ⟨h3, h4⟩ := extendRight_le n (m.groupSpan 1).2 h2
      exact ⟨h1.trans h3, h4⟩
    · split
      · rename_i w hw
        split_ifs
        · obtain ⟨h1, h2⟩ := hgroup hw
          obtain ⟨h3, h4⟩ := extendRight_le n (w.groupSpan 1).2 h2
          exact ⟨h1.trans h3, h4⟩
        · exact ⟨le_rfl, h⟩
      · exact ⟨le_rfl, h⟩

/-- **The span of a person only grows**, inside the text. -/
theorem extendPersonSpan_le (R : Runtime) (start : ℕ) (h : stop ≤ text.length) :
    (extendPersonSpan R text start stop).1 ≤ start ∧ stop ≤ (extendPersonSpan R text start stop).2 ∧
      (extendPersonSpan R text start stop).2 ≤ text.length := by
  unfold extendPersonSpan
  dsimp only
  have hright : ∀ stop', stop ≤ stop' → stop' ≤ text.length →
      stop ≤ extendRight R text 3 stop' ∧ extendRight R text 3 stop' ≤ text.length := by
    intro stop' h1 h2
    obtain ⟨h3, h4⟩ := extendRight_le (R := R) 3 stop' h2
    exact ⟨h1.trans h3, h4⟩
  refine ⟨?_, ?_⟩
  · split
    · rename_i left hleft
      split_ifs with heq
      · have hwithin := (search_found (Nat.sub_le start 4) hleft).within
        obtain ⟨-, h2, h3⟩ := groupSpan_within (k := 1) hwithin
        rw [List.length_take] at h3
        omega
      · exact le_rfl
    · exact le_rfl
  · split_ifs with hdot
    · obtain ⟨hlt, -⟩ := List.getElem?_eq_some_iff.mp hdot.1
      exact hright (stop + 1) (Nat.le_succ stop) hlt
    · exact hright stop le_rfl h

end Extend

end Names

end PdMasking
