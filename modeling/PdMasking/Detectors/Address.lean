import PdMasking.Detectors.Names

/-!
# PdMasking.Detectors.Address — addresses by their components (`core/detectors/address.py`)

`AddressDetector`: components are found by labels, completed by towns and house numbers without a label, and
joined into chains; a chain behind the name of an organisation or a lone component without a context is no
address of a client.
-/

namespace PdMasking

open Regex Names

namespace Address

set_option maxRecDepth 8000

inductive Kind
  | country | index | region | district | city | street | house | building | flat
  deriving DecidableEq

/-- `_NB`. -/
def nb : Str := chars r"(?<![А-Яа-яЁё])"

/-- `_COMPONENT_PATTERNS`. -/
def componentPatterns : List (Kind × Re) :=
  [(.country,
      re true (chars r"(?-i:(Россия|Российская\s+Федерация|РФ|Беларусь|Казахстан))" ++
        chars r"(?=\s*,\s*(?:\d{6}|г\.|город|обл|респ|(?-i:[А-ЯЁ])))")),
    (.country,
      re true (chars r"страна\w*\s*[:\-–]?\s*(?-i:(Россия|Российская\s+Федерация|РФ|Беларусь|Казахстан))")),
    (.index, re true (chars r"(?:индекс\w*\s*[:\-]?\s*)?(?<!\d)(\d{6})(?!\d)(?=\s*,)")),
    (.index, re true (chars r"индекс\w*\s*[:\-]?\s*(?<!\d)(\d{6})(?!\d)")),
    (.region,
      re true (nb ++ chars r"([А-ЯЁа-яё\-]+(?:ая|ой|ий|ский|ской|ская))\s+" ++
        chars r"(?:обл\.?|област\w*|кра[йяю]\b|автономн\w+\s+округ\w*)")),
    (.region,
      re true (nb ++
        chars r"(?:респ\.|республик\w*)\s+((?-i:[А-ЯЁ])[а-яё\-]+(?:\s+(?-i:[А-ЯЁ])[а-яё]+)?)")),
    (.district,
      re true (nb ++ chars r"([А-ЯЁа-яё\-]+(?:ий|ый|ой|ский|ской|ого))\s+" ++
        chars r"(?:р-н|район\w*|г\.\s?о\.|городск\w+\s+округ\w*)")),
    (.city,
      re true (nb ++
        chars r"(?:г\.(?!р\.|рожд|\s?о\.)|гор\.|город\w*(?!\s+(?:проживани|рождени|регистраци|пребывани))" ++
        chars r"|г(?=\s)|пгт\.?|пос\.|посёлок|поселок|с\.|село|дер\.|деревн\w+|д\.(?=\s*(?-i:[А-ЯЁ])[а-яё])" ++
        chars r"|ст-ца|станиц\w+)" ++
        chars r"\s*(?:им\.\s*|имени\s+)?([А-ЯЁа-яё][А-ЯЁа-яё\-]*(?:\s+(?-i:[А-ЯЁ])[а-яё\-]+)?)")),
    (.street,
      re true (nb ++
        chars r"(?:ул\.|ул\b|улиц\w*|пр-т|пр-кт|просп\.|проспект\w*|пер\.|переул\w*|б-р|бул\.|бульвар\w*" ++
        chars r"|ш\.|шоссе|наб\.|набережн\w*|пл\.|площад\w*|проезд\w*|мкр\.?|микрорайон\w*|туп\.|тупик\w*" ++
        chars r"|алле[яи]|линия(?=\s+(?-i:[А-ЯЁ0-9]))|тракт)\s*" ++
        chars r"((?:\d{1,3}(?:-?(?:я|й|го|ая|ой))?\s+)?[А-ЯЁа-яё][А-ЯЁа-яё\-]*" ++
        chars r"(?:\s+(?-i:[А-ЯЁ0-9])[А-ЯЁа-яё][А-ЯЁа-яё\-]*){0,2})")),
    (.street,
      re true (chars r"(?-i:([А-ЯЁ][а-яё]+(?:ая|ий|ой|ый)))\s+" ++
        chars r"(?:улица|ул\.|проспект|пр-кт|пр-т|просп\.|пер\.|переулок|шоссе|бульвар|набережная|площадь)")),
    (.house,
      re true (nb ++ chars r"(?:д\.|дом\w*|вл\.|влад\.|владени\w+)\s*№?\s*" ++
        chars r"(\d{1,4}[А-Яа-яA-Za-z]?(?:\s?/\s?\d{1,4}[А-Яа-я]?)?)(?!\d)")),
    (.building,
      re true (nb ++ chars r"(?:корп\.|корп\b|корпус\w*|к\.|стр\.|строени\w+|лит\.|литер\w*)\s*" ++
        chars r"(\d{1,3}[А-Яа-я]?|[А-ЯЁ])(?![\dА-Яа-яЁё])")),
    (.flat,
      re true (nb ++ chars r"(?:кв\.|квартир\w*|кв\b|оф\.|офис\w*|комн\.|комнат\w*|пом\.|помещени\w+)\s*№?\s*" ++
        chars r"(\d{1,5}[А-Яа-я]?)(?!\d)"))]

/-- `_BARE_HOUSE_RE`. -/
def bareHouseRe : Re := re false (chars r"\s*[,]?\s*(\d{1,4}(?:-\d{1,4})?[А-Яа-я]?)(?!\d)")

/-- `_LOCALITY_RE`. -/
def localityRe : Re := re false (chars r"(?-i:[А-ЯЁ][а-яё]+(?:-на-[А-ЯЁ][а-яё]+|-[А-ЯЁ][а-яё]+|\s+Новгород)?)")

/-- `_GAP_RE`. -/
def gapRe : Re := re false (chars r"[\s,;]{0,4}")

/-- `_INITIALS_RE`. -/
def initialsRe : Re := re false (chars r"[А-ЯЁ]\.\s?[А-ЯЁ]\.")

/-- `_ORG_CUE_RE`. -/
def orgCueRe : Re :=
  re true (chars r"[А-Яа-яЁё]*банк[А-Яа-яЁё]*|отделени\w*|филиал\w*|банкомат\w*|терминал\w*|\bдо\s+«" ++
    chars r"|доп(?:олнительн\w*)?\.?\s+офис\w*" ++
    chars r"|офис\w*|пункт\w*\s+выдачи|магазин\w*|\bтц\b|торгов\w+\s+центр\w*|ресторан\w*|кафе|музе\w*|театр\w*")

/-- `_PERSONAL_CUE_RE`. -/
def personalCueRe : Re :=
  re true (chars r"прожива\w*|зарегистр\w*|регистраци\w*|адрес\w*|живу|живёт|живет|прописк\w*|прописан\w*" ++
    chars r"|место\s+жительства|доставк\w*|по\s+месту")

/-- `_SENTENCE_START_RE`. -/
def sentenceStartRe : Re := re false (chars r"[.!?…]\s+")

/-- `_Component`. -/
structure Component where
  kind : Kind
  start : ℕ
  stop : ℕ
  value : ℕ × ℕ

/-- `list.sort(key=lambda c: c.start)`. -/
def byStart (components : List Component) : List Component :=
  components.insertionSort (fun c d => c.start ≤ d.start)

end Address

namespace AddressDetector

open Address

variable (R : Runtime)

/-- `_gap_ok`. -/
def gapOk (text : Str) (start stop : ℕ) : Bool :=
  start ≤ stop && ((gapRe.rx R).fullmatch (slice text start stop)).isSome

/-- `_org_cue_before`: a cue between the start of the current sentence and `pos`. -/
def orgCueBefore (pos : ℕ) (orgPositions sentenceStarts : List ℕ) : Bool :=
  let sentenceStart := ((sentenceStarts.filter (· ≤ pos)).getLast?).getD 0
  (orgPositions.find? (sentenceStart ≤ ·)).any (· < pos)

/-- The matches of the component patterns. -/
def found (text : Str) : List Component :=
  componentPatterns.flatMap (fun kp =>
    ((kp.2.rx R).finditer text).filterMap (fun m =>
      let value := rstrip (groupText text 1 m) (among " -")
      if value ≠ [] then
        some ⟨kp.1, m.start, m.stop, ((m.groupSpan 1).1, (m.groupSpan 1).1 + value.length)⟩
      else none))

/-- The order of `found.sort`: by the start, the longer ones first. -/
def foundLe (c d : Component) : Prop :=
  c.start < d.start ∨ (c.start = d.start ∧ d.stop - d.start ≤ c.stop - c.start)

instance : DecidableRel foundLe := fun _ _ => inferInstanceAs (Decidable (_ ∨ _))

/-- The components that do not start inside the one kept before, which ends at `last`. -/
def dropNested : Option ℕ → List Component → List Component
  | _, [] => []
  | last, comp :: comps =>
    if last.any (comp.start < ·) then dropNested last comps else comp :: dropNested (some comp.stop) comps

/-- `_components`. -/
def components (text : Str) : List Component := dropNested none ((found R text).insertionSort foundLe)

/-- `_add_localities`. -/
def addLocalities (text : Str) (components : List Component) : List Component :=
  byStart (components ++ ((localityRe.rx R).finditer text).filterMap (fun m =>
    if R.lower (matched text m) ∉ cities then none
    else if components.any (fun c => c.start ≤ m.start && m.start < c.stop) then none
    else if components.any (fun c => gapOk R text m.stop c.start || gapOk R text c.stop m.start) then
      some ⟨.city, m.start, m.stop, m.span⟩
    else none))

/-- `_add_bare_house`. -/
def addBareHouse (text : Str) (components : List Component) : List Component :=
  byStart (components ++ components.filterMap (fun comp =>
    if comp.kind ≠ .street then none
    else
      match (bareHouseRe.rx R).matchAt text comp.stop with
      | none => none
      | some m =>
        if components.any (fun c => c.start ≤ m.start && m.start < c.stop) then none
        else some ⟨.house, m.start, m.stop, m.groupSpan 1⟩))

/-- `_drop_initials_labels`. -/
def dropInitialsLabels (text : Str) (components : List Component) : List Component :=
  let positions := ((initialsRe.rx R).finditer text).map (fun m => m.start + (matched text m).length - 2)
  components.filter (fun comp => comp.start ∉ positions)

/-- `_chains`, from the last chain on. -/
def chains (text : Str) : List Component → List (List Component)
  | [] => []
  | comp :: comps =>
    match comps, chains text comps with
    | next :: _, chain :: rest =>
      if gapOk R text comp.stop next.start then (comp :: chain) :: rest else [comp] :: chain :: rest
    | _, rest => [comp] :: rest

/-- What is reported of a chain. -/
def reported (text : Str) (orgPositions sentenceStarts : List ℕ) (chain : List Component) : List Component :=
  match chain with
  | [] => []
  | comp :: comps =>
    if orgCueBefore comp.start orgPositions sentenceStarts then []
    else if comps = [] ∧ ¬ comp.start < comp.value.1 ∧ ¬ cueBefore R text comp.start personalCueRe 60 then []
    else comp :: comps

/-- The components that are values of a client. -/
def values (text : Str) : List Component :=
  let comps := components R text
  if comps.isEmpty then []
  else
    let comps := dropInitialsLabels R text (addBareHouse R text (addLocalities R text comps))
    let orgPositions := ((orgCueRe.rx R).finditer text).map Match.start
    let sentenceStarts := 0 :: ((sentenceStartRe.rx R).finditer text).map Match.stop
    (chains R text comps).flatMap (reported R text orgPositions sentenceStarts)

end AddressDetector

/-- `AddressDetector`. -/
def AddressDetector (R : Runtime) : Detector where
  types := {.address}
  needsDigits := false
  detect text := (AddressDetector.values R text).map (fun comp => makeEntity .address [comp.value] 50 ∅)

/-! ### Where the components come from -/

namespace AddressDetector

open Address

variable {R : Runtime} {text : Str} {c : Component}

theorem mem_dropNested : ∀ {last : Option ℕ} {comps : List Component}, c ∈ dropNested last comps → c ∈ comps
  | _, [], h => by
    rw [dropNested] at h
    cases h
  | last, comp :: comps, h => by
    rw [dropNested] at h
    split_ifs at h
    · exact List.mem_cons_of_mem _ (mem_dropNested h)
    · rcases List.mem_cons.mp h with rfl | h
      · exact List.mem_cons_self
      · exact List.mem_cons_of_mem _ (mem_dropNested h)

theorem mem_components (h : c ∈ components R text) : c ∈ found R text :=
  (List.mem_insertionSort _).mp (mem_dropNested h)

theorem mem_addLocalities {comps : List Component} (h : c ∈ addLocalities R text comps) :
    c ∈ comps ∨ ∃ m ∈ (localityRe.rx R).finditer text, c = ⟨.city, m.start, m.stop, m.span⟩ := by
  rcases List.mem_append.mp ((List.mem_insertionSort _).mp h) with h | h
  · exact Or.inl h
  · obtain ⟨m, hm, heq⟩ := List.mem_filterMap.mp h
    split_ifs at heq
    exact Or.inr ⟨m, hm, (Option.some.inj heq).symm⟩

theorem mem_addBareHouse {comps : List Component} (h : c ∈ addBareHouse R text comps) :
    c ∈ comps ∨ ∃ street ∈ comps, street.kind = .street ∧ ∃ m, (bareHouseRe.rx R).matchAt text street.stop = some m ∧
      c = ⟨.house, m.start, m.stop, m.groupSpan 1⟩ := by
  rcases List.mem_append.mp ((List.mem_insertionSort _).mp h) with h | h
  · exact Or.inl h
  · obtain ⟨street, hstreet, heq⟩ := List.mem_filterMap.mp h
    split_ifs at heq with hkind
    split at heq
    · cases heq
    · rename_i m hm
      split_ifs at heq
      exact Or.inr ⟨street, hstreet, not_not.mp hkind, m, hm, (Option.some.inj heq).symm⟩

theorem mem_chains : ∀ {comps : List Component} {chain : List Component}, chain ∈ chains R text comps → c ∈ chain →
    c ∈ comps
  | [], chain, h, _ => by
    rw [chains] at h
    cases h
  | comp :: comps, chain, h, hc => by
    have hrest : ∀ chain' ∈ chains R text comps, c ∈ chain' → c ∈ comp :: comps := fun chain' h' hc' =>
      List.mem_cons_of_mem _ (mem_chains h' hc')
    have hself : c ∈ [comp] → c ∈ comp :: comps := fun h' => (List.mem_singleton.mp h') ▸ List.mem_cons_self
    unfold chains at h
    split at h
    · rename_i next tail first rest heq
      rw [heq] at hrest
      split_ifs at h
      · rcases List.mem_cons.mp h with rfl | h
        · rcases List.mem_cons.mp hc with rfl | hc
          · exact List.mem_cons_self
          · exact hrest first List.mem_cons_self hc
        · exact hrest chain (List.mem_cons_of_mem _ h) hc
      · rcases List.mem_cons.mp h with rfl | h
        · exact hself hc
        · exact hrest chain h hc
    · rcases List.mem_cons.mp h with rfl | h
      · exact hself hc
      · exact hrest chain h hc

theorem mem_reported {orgPositions sentenceStarts : List ℕ} {chain : List Component}
    (h : c ∈ reported R text orgPositions sentenceStarts chain) : c ∈ chain := by
  unfold reported at h
  split at h
  · exact h
  · split_ifs at h
    · cases h
    · cases h
    · exact h

/-- **Every value is found by a pattern**: a component, a town without a label, or a house behind a street. -/
theorem mem_values (h : c ∈ values R text) : c ∈ found R text ∨
    (∃ m ∈ (localityRe.rx R).finditer text, c = ⟨.city, m.start, m.stop, m.span⟩) ∨
    ∃ street ∈ found R text, street.kind = .street ∧ ∃ m, (bareHouseRe.rx R).matchAt text street.stop = some m ∧
      c = ⟨.house, m.start, m.stop, m.groupSpan 1⟩ := by
  unfold values at h
  dsimp only at h
  split_ifs at h
  · cases h
  · obtain ⟨chain, hchain, hc⟩ := List.mem_flatMap.mp h
    have hmem := (List.mem_filter.mp (mem_chains hchain (mem_reported hc))).1
    rcases mem_addBareHouse hmem with hmem | ⟨street, hstreet, hkind, hhouse⟩
    · rcases mem_addLocalities hmem with hmem | hmem
      · exact Or.inl (mem_components hmem)
      · exact Or.inr (Or.inl hmem)
    · rcases mem_addLocalities hstreet with hstreet | ⟨m, -, rfl⟩
      · exact Or.inr (Or.inr ⟨street, mem_components hstreet, hkind, hhouse⟩)
      · cases hkind

/-- A component is a match of its pattern, its value the group without blanks and dashes at the end. -/
theorem mem_found (h : c ∈ found R text) : ∃ kp ∈ componentPatterns, ∃ m ∈ (kp.2.rx R).finditer text,
    c.kind = kp.1 ∧ c.stop = m.stop ∧ (m.groupSpan 1).1 = c.value.1 ∧ c.value.2 ≤ (m.groupSpan 1).2 := by
  obtain ⟨kp, hkp, h⟩ := List.mem_flatMap.mp h
  obtain ⟨m, hm, heq⟩ := List.mem_filterMap.mp h
  dsimp only at heq
  split_ifs at heq
  obtain rfl := Option.some.inj heq
  refine ⟨kp, hkp, m, hm, rfl, rfl, rfl, ?_⟩
  obtain ⟨-, hle, hlen⟩ := groupSpan_within (k := 1) (finditer_within _ text m hm)
  have hstrip := length_rstrip_le (groupText text 1 m) (among " -")
  have hlength : (groupText text 1 m).length = (m.groupSpan 1).2 - (m.groupSpan 1).1 := length_slice hlen
  show (m.groupSpan 1).1 + (rstrip (groupText text 1 m) (among " -")).length ≤ (m.groupSpan 1).2
  omega

end AddressDetector

end PdMasking
