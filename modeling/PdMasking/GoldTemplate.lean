import Mathlib.Data.Char
import Mathlib.Data.List.Lex
import PdMasking.Availability
import PdMasking.QualityReport

/-!
# PdMasking.GoldTemplate — the draft of a labelling (`scripts/make_gold_template.py`, `scripts/_eval_common.py`)

The draft labels every text with what is found in it now.

* `template_is_perfect`: a draft that nobody has edited gets full marks.
-/

namespace PdMasking

open Json (natText natText_injective)

section Draft

variable (P : Processor) (policy : SystemPolicy)

/-- `find_entities` -/
def findEntities (text : Str) : List Finding :=
  (P.engine.detect P.runtime text policy.pdTypes policy.combinations).map (fun e =>
    (e.pdType.value, e.parts.map (fun p => ((p.1 : ℤ), (p.2 : ℤ)))))

/-- The row of a text and its mask. -/
def templateRow (sample : Str × Str) : TemplateRow :=
  let findings := findEntities P policy sample.1
  ⟨sample.1, sample.2, if findings = [] then [] else ['0'], expectedFromFindings sample.1 findings⟩

/-- `(r[2] != "", r[0])`: texts without findings come first. -/
def rowLe (r r' : TemplateRow) : Bool :=
  if (r.trap = []) = (r'.trap = []) then decide (r.text ≤ r'.text) else decide (r.trap = [])

/-- `build_rows` -/
def buildRows (samples : List (Str × Str)) : List TemplateRow := (samples.map (templateRow P policy)).mergeSort rowLe

/-- `current_findings`, with the default of `findings_by_id.get`. -/
def currentFindings (rows : List GoldRow) (id : Str) : List Finding :=
  (lastValue id (rows.map (fun row => (row.id, findEntities P policy row.text)))).getD []

end Draft

/-! ### What is found -/

section Findings

variable {P : Processor} {policy : SystemPolicy} {text : Str}

theorem types_findEntities : ∀ f ∈ findEntities P policy text, ∃ t : PDType, f.1 = t.value := by
  intro f hf
  obtain ⟨e, -, rfl⟩ := List.mem_map.mp hf
  exact ⟨e.pdType, rfl⟩

theorem parts_findEntities : ∀ f ∈ findEntities P policy text, f.2 ≠ [] := by
  intro f hf
  obtain ⟨e, -, rfl⟩ := List.mem_map.mp hf
  exact mt List.map_eq_nil_iff.mp e.parts_ne

/-- The spans are not empty, and inside the text. -/
theorem span_findEntities (hP : P.Standard) {p : ℤ × ℤ} (hp : p ∈ (findEntities P policy text).flatMap Prod.snd) :
    ∃ a b : ℕ, p = ((a : ℤ), (b : ℤ)) ∧ a < b ∧ b ≤ text.length := by
  obtain ⟨f, hf, hp⟩ := List.mem_flatMap.mp hp
  obtain ⟨e, he, rfl⟩ := List.mem_map.mp hf
  obtain ⟨q, hq, rfl⟩ := List.mem_map.mp hp
  have hin := inText_of_detect hP he
  exact ⟨q.1, q.2, rfl, e.parts_pos q hq, (hin.part_le_stop hq).trans hin.inside⟩

/-- No position is in two spans. -/
theorem disjoint_findEntities (hP : P.Standard) : DisjointSpans (findEntities P policy text) := by
  unfold DisjointSpans findEntities
  rw [List.flatMap_map, List.pairwise_flatMap]
  constructor
  · intro e he
    refine List.pairwise_map.mpr ((inText_of_detect hP he).disjoint.imp ?_)
    intro p q hpq i hi
    dsimp only at hi
    omega
  · refine (pairwise_detect P.runtime P.engine text policy.pdTypes policy.combinations).imp_of_mem ?_
    intro e e' he _ hbefore p hp q hq i hi
    obtain ⟨a, ha, rfl⟩ := List.mem_map.mp hp
    obtain ⟨b, hb, rfl⟩ := List.mem_map.mp hq
    have hstop := (inText_of_detect hP he).part_le_stop ha
    have hstart := e'.start_le_part hb
    unfold Before at hbefore
    dsimp only at hi
    omega

end Findings

/-! ### A row that is perfect -/

section Perfect

variable {R : Runtime} {text : Str} {findings : List Finding} {row : GoldRow}

/-- **Labels are read** as they were written. -/
theorem parseExpected_labels {parts : List (Str × Str)}
    (h : ∀ part ∈ parts, ∃ (t : PDType) (value : Str), part = (t.value, value) ∧ Labelable R value) :
    parseExpected R (" || ".toList.intercalate (parts.map writeLabel)) = parts := by
  rcases eq_or_ne parts [] with rfl | hne
  · rfl
  have hlabels : ∀ x ∈ parts.map writeLabel, Labelable R x := by
    intro x hx
    obtain ⟨part, hpart, rfl⟩ := List.mem_map.mp hx
    obtain ⟨t, value, rfl, hvalue⟩ := h part hpart
    exact labelable_writeLabel hvalue
  have hread : ∀ part ∈ parts, parseItem R (writeLabel part) = some part := by
    intro part hpart
    obtain ⟨t, value, rfl, hvalue⟩ := h part hpart
    exact parseItem_writeLabel hvalue (labelable_writeLabel hvalue).trimmed
  have hcut := map_strip_split (mt List.map_eq_nil_iff.mp hne) hlabels (List.forall_mem_nil (· = ' '))
  rw [List.nil_append] at hcut
  unfold parseExpected
  have hstrip : ∀ items : List Str, items.filterMap (parseItem R) = (items.map (strip R)).filterMap (parseItem R) := by
    intro items
    rw [List.filterMap_map]
    exact List.filterMap_congr (fun item _ => (parseItem_strip item).symm)
  rw [hstrip, hcut, List.filterMap_map]
  exact (List.filterMap_congr hread).trans List.filterMap_some

/-- The labels of a row are its findings, and lie in the text as the report wants them. -/
structure Perfect (R : Runtime) (findings : List Finding) (row : GoldRow) : Prop where
  personal : row.trap = some .personal
  labelled : row.expected ≠ []
  spans : SpansIn row.text (findings.flatMap Prod.snd)
  classes : ∀ v ∈ row.expected, classOf R row findings v = .tp
  wanted : ∀ p ∈ findings.flatMap Prod.snd, p.1 < p.2 ∧ ((p.1.toNat, p.2.toNat) ∈ expectedSpans row)

theorem exists_not_blank {value : Str} (h : Labelable R value) : ∃ c ∈ value, R.isspace c = false := by
  obtain ⟨c, s, rfl⟩ := List.exists_cons_of_ne_nil h.nonempty
  exact ⟨c, List.mem_cons_self, (strip_eq_self_iff.mp h.trimmed).1 c rfl⟩

/-- A part of a finding is of the class `TP`. -/
theorem classifyValue_part {f : Finding} {a b : ℕ} (hf : f ∈ findings) (hp : ((a : ℤ), (b : ℤ)) ∈ f.2)
    (hlt : a < b) (hb : b ≤ text.length) (hdisjoint : DisjointSpans findings)
    (hvalue : ∃ c ∈ slice text a b, R.isspace c = false) :
    classifyValue R text (slice text a b) f.1 findings = .tp ∧ (a, b) ∈ occurrences text (slice text a b) := by
  have hlength : (slice text a b).length = b - a := length_slice hb
  have hoccurs : OccursAt text (slice text a b) a := by
    unfold OccursAt
    rw [hlength, Nat.add_sub_cancel' hlt.le]
  have hin : (a, b) ∈ occurrences text (slice text a b) := by
    refine (mem_occurrences (ne_nil_of_not_blank hvalue)).mpr ⟨?_, hoccurs⟩
    dsimp only
    omega
  have hcovered : FullyCovered R text (slice text a b) findings (· = f.1) := by
    refine ⟨a, hoccurs, ?_⟩
    rintro i ⟨hle, hstop, -⟩
    refine ⟨f, hf, rfl, _, hp, ?_⟩
    dsimp only
    omega
  have hshare := (matchValue_share_eq_one text f.1 findings hvalue).mpr hcovered.mono
  have hok := (matchValue_typeOk text f.1 findings hvalue hdisjoint).mpr hcovered
  refine ⟨?_, hin⟩
  show (if occurrences text (slice text a b) = [] then ValueClass.notInText
    else if (matchValue R text (slice text a b) f.1 findings).1 = 0 then ValueClass.fn
    else if (matchValue R text (slice text a b) f.1 findings).1 < 1 then ValueClass.partial_
    else if (matchValue R text (slice text a b) f.1 findings).2 then ValueClass.tp else ValueClass.wrongType) = _
  rw [if_neg (List.ne_nil_of_mem hin), hshare, if_neg one_ne_zero, if_neg (lt_irrefl 1), if_pos hok]

/-- **A row of the draft is perfect.** -/
theorem perfect_of_findings {P : Processor} {policy : SystemPolicy} (hP : P.Standard)
    (hne : findEntities P policy text ≠ [])
    (hlabels : ∀ f ∈ findEntities P policy text, ∀ span ∈ f.2, Labelable P.runtime (spanText text span)) (id : Str) :
    Perfect P.runtime (findEntities P policy text)
      ⟨id, text, some .personal, partsOf text (findEntities P policy text)⟩ := by
  have hpart : ∀ f ∈ findEntities P policy text, ∀ p ∈ f.2, ∃ a b : ℕ, p = ((a : ℤ), (b : ℤ)) ∧ a < b ∧
      b ≤ text.length ∧ spanText text p = slice text a b := by
    intro f hf p hp
    obtain ⟨a, b, rfl, hlt, hb⟩ := span_findEntities hP (List.mem_flatMap.mpr ⟨f, hf, hp⟩)
    exact ⟨a, b, rfl, hlt, hb, rfl⟩
  have hvalue : ∀ f ∈ findEntities P policy text, ∀ a b : ℕ, ((a : ℤ), (b : ℤ)) ∈ f.2 → a < b → b ≤ text.length →
      classifyValue P.runtime text (slice text a b) f.1 (findEntities P policy text) = .tp ∧
        (a, b) ∈ occurrences text (slice text a b) := by
    intro f hf a b hp hlt hb
    exact classifyValue_part hf hp hlt hb (disjoint_findEntities hP) (exists_not_blank (hlabels f hf _ hp))
  refine ⟨rfl, ?_, ?_, ?_, ?_⟩
  · obtain ⟨f, rest, hfindings⟩ := List.exists_cons_of_ne_nil hne
    have hf : f ∈ findEntities P policy text := hfindings ▸ List.mem_cons_self
    obtain ⟨p, spans, hspans⟩ := List.exists_cons_of_ne_nil (parts_findEntities f hf)
    exact List.ne_nil_of_mem (List.mem_flatMap.mpr ⟨f, hf, List.mem_map_of_mem (hspans ▸ List.mem_cons_self)⟩)
  · intro p hp
    obtain ⟨a, b, rfl, hlt, hb⟩ := span_findEntities hP hp
    dsimp only
    omega
  · intro v hv
    obtain ⟨f, hf, hv⟩ := List.mem_flatMap.mp hv
    obtain ⟨p, hp, rfl⟩ := List.mem_map.mp hv
    obtain ⟨a, b, rfl, hlt, hb, htext⟩ := hpart f hf p hp
    show classifyValue P.runtime text (spanText text _) f.1 _ = .tp
    rw [htext]
    exact (hvalue f hf a b hp hlt hb).1
  · intro p hp
    obtain ⟨f, hf, hp⟩ := List.mem_flatMap.mp hp
    obtain ⟨a, b, rfl, hlt, hb, htext⟩ := hpart f hf p hp
    refine ⟨Int.ofNat_lt.mpr hlt, List.mem_flatMap.mpr ⟨(f.1, slice text a b), ?_, (hvalue f hf a b hp hlt hb).2⟩⟩
    exact List.mem_flatMap.mpr ⟨f, hf, List.mem_map.mpr ⟨_, hp, by rw [htext]⟩⟩

/-! ### What the report says of it -/

theorem extraSpans_perfect (h : Perfect R findings row) : extraSpans row findings = [] := by
  refine List.flatMap_eq_nil_iff.mpr ?_
  intro f hf
  rw [List.map_eq_nil_iff, List.filter_eq_nil_iff]
  intro p hp
  have hp' : p ∈ findings.flatMap Prod.snd := List.mem_flatMap.mpr ⟨f, hf, hp⟩
  obtain ⟨hlt, hwanted⟩ := h.wanted p hp'
  have hspan := h.spans p hp'
  have hany : (expectedSpans row).any (fun w => p.1 < (w.2 : ℤ) && (w.1 : ℤ) < p.2) = true := by
    refine List.any_eq_true.mpr ⟨_, hwanted, ?_⟩
    rw [Bool.and_eq_true, decide_eq_true_eq, decide_eq_true_eq]
    dsimp only
    omega
  rw [hany]
  exact Bool.false_ne_true

theorem rowErrors_perfect (h : Perfect R findings row) : rowErrors R row findings = [] := by
  have hvalues : valueErrors R row findings = [] := by
    refine List.filterMap_eq_nil_iff.mpr ?_
    intro v hv
    rw [h.classes v hv]
    rfl
  unfold rowErrors
  rw [h.personal, extraSpans_perfect h, hvalues]
  rfl

/-- Numbers that differ in the perfect texts. -/
structure Progress (texts perfect : ℕ) (m m' : Metrics) : Prop where
  skipped : m'.skipped = m.skipped
  traps : m'.traps = m.traps
  overmask : m'.overmask = m.overmask
  pdTexts : m'.pdTexts = m.pdTexts + texts
  perfectText : m'.perfectText = m.perfectText + perfect

/-- What is masked is wanted. -/
theorem countChars_perfect (h : Perfect R findings row) (m : Metrics) :
    ∃ m', countChars R row findings m = .ok m' ∧ Progress 0 0 m m' := by
  obtain ⟨masked, hmasked, hmem⟩ := nonSpace_spec R h.spans
  obtain ⟨wanted, hwanted, hmem'⟩ := nonSpace_spec R (spansIn_expected row)
  have hsubset : masked ⊆ wanted := by
    intro i hi
    obtain ⟨⟨p, hp, h1, h2⟩, hvisible⟩ := (hmem i).mp hi
    obtain ⟨hlt, hin⟩ := h.wanted p hp
    have hspan := h.spans p hp
    refine (hmem' i).mpr ⟨⟨_, List.mem_map_of_mem hin, ?_⟩, hvisible⟩
    dsimp only
    omega
  have hover : m.overmask + (masked \ wanted).card = m.overmask := by
    rw [Finset.sdiff_eq_empty_iff_subset.mpr hsubset]
    rfl
  exact ⟨_, Checked.bind_eq_ok.mpr ⟨masked, hmasked, Checked.bind_eq_ok.mpr ⟨wanted, hwanted, rfl⟩⟩,
    ⟨rfl, rfl, hover, rfl, rfl⟩⟩

theorem countValues_perfect (h : Perfect R findings row) (m : Metrics) :
    Progress 0 1 m (countValues R row findings m) := by
  obtain ⟨counter, byType, hfold, -, -⟩ := foldl_countValue R row findings row.expected m []
  rw [List.nil_append] at hfold
  have htp : ∀ c ∈ (row.expected.map (classOf R row findings)).filter (· ≠ .notInText), c = .tp := by
    intro c hc
    obtain ⟨v, hv, rfl⟩ := List.mem_map.mp (List.mem_filter.mp hc).1
    exact h.classes v hv
  have hne : (row.expected.map (classOf R row findings)).filter (· ≠ .notInText) ≠ [] := by
    obtain ⟨v, vs, hexpected⟩ := List.exists_cons_of_ne_nil h.labelled
    have hv : v ∈ row.expected := hexpected ▸ List.mem_cons_self
    refine List.ne_nil_of_mem (List.mem_filter.mpr ⟨List.mem_map_of_mem hv, ?_⟩)
    rw [h.classes v hv]
    rfl
  generalize (row.expected.map (classOf R row findings)).filter (· ≠ .notInText) = classes at hfold htp hne
  have hall : classes.all (· = .tp) = true := List.all_eq_true.mpr (fun c hc => decide_eq_true (htp c hc))
  have hfn : ¬ (classes ≠ [] ∧ classes.all (· = .fn) = true) := by
    rintro ⟨-, hall'⟩
    obtain ⟨c, classes, rfl⟩ := List.exists_cons_of_ne_nil hne
    have hc := of_decide_eq_true (List.all_eq_true.mp hall' c List.mem_cons_self)
    rw [htp c List.mem_cons_self] at hc
    cases hc
  unfold countValues
  rw [hfold]
  dsimp only
  rw [if_neg hfn, if_pos ⟨hne, hall⟩]
  exact ⟨rfl, rfl, rfl, rfl, rfl⟩

/-- **A perfect row** is one more perfect text, and nothing masked is too much. -/
theorem step_perfect {findingsById : Str → List Finding} (h : Perfect R (findingsById row.id) row) (m : Metrics) :
    ∃ m', metricsStep R findingsById m row = .ok m' ∧ Progress 1 1 m m' := by
  unfold metricsStep
  rw [if_neg (by rw [h.personal]; exact Option.some_ne_none _)]
  obtain ⟨m₁, hm₁, hchars⟩ := countChars_perfect h
    { m with labeled := m.labeled + 1, fp := m.fp + (extraSpans row (findingsById row.id)).length }
  have hvalues := countValues_perfect h { m₁ with pdTexts := m₁.pdTexts + 1 }
  refine ⟨countValues R row (findingsById row.id) { m₁ with pdTexts := m₁.pdTexts + 1 },
    Checked.bind_eq_ok.mpr ⟨m₁, hm₁, ?_⟩, ?_⟩
  · rw [if_neg (by rw [h.personal]; decide)]
    rfl
  · exact ⟨hvalues.skipped.trans hchars.skipped, hvalues.traps.trans hchars.traps,
      hvalues.overmask.trans hchars.overmask, hvalues.pdTexts.trans (congrArg (· + 1) hchars.pdTexts),
      hvalues.perfectText.trans (congrArg (· + 1) hchars.perfectText)⟩

/-- The numbers of a draft. -/
theorem foldlM_draft {findingsById : Str → List Finding} : ∀ {rows : List GoldRow},
    (∀ row ∈ rows, row.trap = none ∨ Perfect R (findingsById row.id) row) → ∀ m : Metrics,
      ∃ m', rows.foldlM (metricsStep R findingsById) m = .ok m' ∧
        m'.skipped = m.skipped + rows.countP (fun row => row.trap = none) ∧ m'.traps = m.traps ∧
        m'.overmask = m.overmask ∧ m'.pdTexts + m.perfectText = m'.perfectText + m.pdTexts
  | [], _, m => ⟨m, rfl, rfl, rfl, rfl, Nat.add_comm _ _⟩
  | row :: rows, h, m => by
    obtain ⟨hrow, hrows⟩ := List.forall_mem_cons.mp h
    rw [List.foldlM_cons, List.countP_cons]
    rcases hrow with htrap | hperfect
    · have hstep : metricsStep R findingsById m row = .ok { m with skipped := m.skipped + 1 } := if_pos htrap
      obtain ⟨m', hm', hskipped, htraps, hover, htexts⟩ := foldlM_draft hrows { m with skipped := m.skipped + 1 }
      refine ⟨m', Checked.bind_eq_ok.mpr ⟨_, hstep, hm'⟩, ?_, htraps, hover, htexts⟩
      rw [hskipped, if_pos (decide_eq_true htrap)]
      dsimp only
      omega
    · obtain ⟨m₁, hm₁, hprogress⟩ := step_perfect hperfect m
      obtain ⟨m', hm', hskipped, htraps, hover, htexts⟩ := foldlM_draft hrows m₁
      have hlabelled : ¬ decide (row.trap = none) = true := by
        rw [hperfect.personal]
        decide
      refine ⟨m', Checked.bind_eq_ok.mpr ⟨m₁, hm₁, hm'⟩, ?_, htraps.trans hprogress.traps,
        hover.trans hprogress.overmask, ?_⟩
      · rw [hskipped, hprogress.skipped, if_neg hlabelled]
        rfl
      · have h1 := hprogress.pdTexts
        have h2 := hprogress.perfectText
        omega

end Perfect

/-! ### The draft -/

section Whole

variable {P : Processor} {policy : SystemPolicy} {samples : List (Str × Str)}

/-- What the draft says of a text. -/
def draftRow (P : Processor) (policy : SystemPolicy) (r : TemplateRow × ℕ) : GoldRow :=
  let findings := findEntities P policy r.1.text
  ⟨natText r.2, r.1.text, if findings = [] then none else some .personal, partsOf r.1.text findings⟩

theorem mem_buildRows {r : TemplateRow} (hr : r ∈ buildRows P policy samples) :
    ∃ s ∈ samples, r = templateRow P policy s := by
  obtain ⟨s, hs, rfl⟩ := List.mem_map.mp (List.mem_mergeSort.mp hr)
  exact ⟨s, hs, rfl⟩

/-- The rows of the draft as they are read. -/
theorem goldRow_draft
    (hlabels : ∀ s ∈ samples, ∀ f ∈ findEntities P policy s.1, ∀ span ∈ f.2, Labelable P.runtime (spanText s.1 span))
    {r : TemplateRow × ℕ} (hr : r ∈ numbered (buildRows P policy samples)) :
    goldRow P.runtime (buildRows P policy samples) r = draftRow P policy r := by
  obtain ⟨hle, hget⟩ := List.mem_zipIdx_iff_le_and_getElem?_sub.mp hr
  have htext : numberedText (buildRows P policy samples) r.2 = r.1.text := by
    unfold numberedText
    rw [hget]
    rfl
  obtain ⟨s, hs, hrow⟩ := mem_buildRows (List.mem_of_getElem? hget)
  have hexpected : parseExpected P.runtime r.1.expected = partsOf r.1.text (findEntities P policy r.1.text) := by
    rw [hrow]
    exact parseExpected_labels (fun part => labelable_of_mem_partsOf types_findEntities (hlabels s hs))
  have htrap : parseTrap P.runtime r.1.trap =
      if findEntities P policy r.1.text = [] then none else some .personal := by
    have hdigit : strip P.runtime ['0'] = ['0'] := strip_natText 0
    rw [hrow]
    show parseTrap P.runtime (if findEntities P policy s.1 = [] then [] else ['0']) =
      if findEntities P policy s.1 = [] then none else some .personal
    by_cases hnone : findEntities P policy s.1 = []
    · rw [if_pos hnone, if_pos hnone]
      rfl
    · rw [if_neg hnone, if_neg hnone]
      unfold parseTrap
      rw [hdigit]
      rfl
  unfold goldRow draftRow
  rw [htext, hexpected, htrap]

theorem currentFindings_draft {r : TemplateRow × ℕ} (hr : r ∈ numbered (buildRows P policy samples)) :
    currentFindings P policy ((numbered (buildRows P policy samples)).map (draftRow P policy)) (natText r.2) =
      findEntities P policy r.1.text := by
  unfold currentFindings
  rw [List.map_map, lastValue_of_unique (v := findEntities P policy r.1.text)]
  · rfl
  · exact List.mem_map.mpr ⟨r, hr, rfl⟩
  · intro m hm hid
    obtain ⟨r', hr', rfl⟩ := List.mem_map.mp hm
    have hnumber : r'.2 = r.2 := natText_injective hid
    have hget := (List.mem_zipIdx_iff_le_and_getElem?_sub.mp hr).2
    have hget' := (List.mem_zipIdx_iff_le_and_getElem?_sub.mp hr').2
    rw [hnumber, hget] at hget'
    show findEntities P policy r'.1.text = _
    rw [Option.some.inj hget']

theorem length_draft (P : Processor) (policy : SystemPolicy) (samples : List (Str × Str)) :
    ((numbered (buildRows P policy samples)).map (draftRow P policy)).length = samples.length := by
  unfold numbered buildRows
  rw [List.length_map, List.length_zipIdx, List.length_mergeSort, List.length_map]

/-- The rows that are not labelled are the texts without findings. -/
theorem countP_draft (P : Processor) (policy : SystemPolicy) (samples : List (Str × Str)) :
    ((numbered (buildRows P policy samples)).map (draftRow P policy)).countP (fun row => row.trap = none) =
      samples.countP (fun s => findEntities P policy s.1 = []) := by
  have htrap : ∀ r : TemplateRow × ℕ, (draftRow P policy r).trap = none ↔ findEntities P policy r.1.text = [] := by
    intro r
    show (if findEntities P policy r.1.text = [] then none else some Trap.personal) = none ↔ _
    by_cases hnone : findEntities P policy r.1.text = []
    · rw [if_pos hnone]
      exact iff_of_true rfl hnone
    · rw [if_neg hnone]
      exact iff_of_false (Option.some_ne_none _) hnone
  have hrows : (numbered (buildRows P policy samples)).countP (fun r => findEntities P policy r.1.text = []) =
      (buildRows P policy samples).countP (fun r => findEntities P policy r.text = []) := by
    conv_rhs => rw [← List.zipIdx_map_fst 1 (buildRows P policy samples), List.countP_map]
    rfl
  rw [List.countP_map]
  unfold Function.comp
  simp only [htrap]
  rw [hrows]
  unfold buildRows
  rw [(List.mergeSort_perm _ _).countP_eq, List.countP_map]
  rfl

/-- **A draft that nobody has edited gets full marks**, when it can be read at all: the texts without findings are not
labelled yet, every other one is perfect, no error is listed, and nothing masked is too much. -/
theorem template_is_perfect (hP : P.Standard) (policy : SystemPolicy) (cp1251 : ByteArray → Option Str)
    (samples : List (Str × Str))
    (hlabels : ∀ s ∈ samples, ∀ f ∈ findEntities P policy s.1, ∀ span ∈ f.2, Labelable P.runtime (spanText s.1 span))
    (hfits : TableFits (numbered (buildRows P policy samples))) :
    ∃ gold m, loadGold P.runtime cp1251 (writeOutputs (buildRows P policy samples)) = .ok gold ∧
      computeMetrics P.runtime gold (currentFindings P policy gold) = .ok m ∧
      collectErrors P.runtime gold (currentFindings P policy gold) = [] ∧
      m.skipped = samples.countP (fun s => findEntities P policy s.1 = []) ∧
      m.labeled + m.skipped = samples.length ∧ m.traps = 0 ∧ m.perfectText = m.labeled ∧
      m.fp = 0 ∧ m.notInText = 0 ∧ (∀ c, c ≠ .notInText → c ≠ .tp → m.classes c = 0) ∧
      m.overmask = 0 ∧ m.expectedMasked = m.maskedChars := by
  have hgold : loadGold P.runtime cp1251 (writeOutputs (buildRows P policy samples)) =
      .ok ((numbered (buildRows P policy samples)).map (draftRow P policy)) := by
    rw [loadGold_table (buildRows P policy samples) number_le (table_writeOutputs (buildRows P policy samples)),
      if_pos hfits]
    exact congrArg Except.ok (List.map_congr_left (fun r hr => goldRow_draft hlabels hr))
  have hrows : ∀ row ∈ (numbered (buildRows P policy samples)).map (draftRow P policy), row.trap = none ∨
      Perfect P.runtime
        (currentFindings P policy ((numbered (buildRows P policy samples)).map (draftRow P policy)) row.id) row := by
    intro row hrow
    obtain ⟨r, hr, rfl⟩ := List.mem_map.mp hrow
    have hfound : currentFindings P policy ((numbered (buildRows P policy samples)).map (draftRow P policy))
        (draftRow P policy r).id = findEntities P policy r.1.text := currentFindings_draft hr
    obtain ⟨s, hs, hsample⟩ := mem_buildRows (List.mem_of_getElem? (List.mem_zipIdx_iff_le_and_getElem?_sub.mp hr).2)
    have htext : r.1.text = s.1 := congrArg TemplateRow.text hsample
    rw [hfound]
    unfold draftRow
    dsimp only
    by_cases hnone : findEntities P policy r.1.text = []
    · exact Or.inl (if_pos hnone)
    · rw [if_neg hnone]
      exact Or.inr (perfect_of_findings hP hnone (htext ▸ hlabels s hs) _)
  have hlength := length_draft P policy samples
  have hcount := countP_draft P policy samples
  generalize (numbered (buildRows P policy samples)).map (draftRow P policy) = gold at hgold hrows hlength hcount
  have herrors : collectErrors P.runtime gold (currentFindings P policy gold) = [] := by
    refine List.flatMap_eq_nil_iff.mpr ?_
    intro row hrow
    rcases hrows row hrow with htrap | hperfect
    · unfold rowErrors
      rw [htrap]
    · exact rowErrors_perfect hperfect
  obtain ⟨m, hm, hskipped, htraps, hover, htexts⟩ := foldlM_draft hrows .zero
  have hagrees := metricsAgree_foldl (metricsAgree_zero P.runtime (currentFindings P policy gold)) hm
  rw [List.nil_append] at hagrees
  obtain ⟨hall, hlabeled, -, -, hvalues, hclasses, hnot, hfp, hmasked, -⟩ := hagrees
  have htraps : m.traps = 0 := htraps
  have hover : m.overmask = 0 := hover
  have htexts : m.pdTexts + 0 = m.perfectText + 0 := htexts
  rw [herrors] at hvalues hnot hfp
  refine ⟨gold, m, hgold, hm, herrors, ?_, hall.trans hlength, htraps, by omega, hfp.symm, hnot.symm, ?_, hover, by omega⟩
  · rw [hskipped, hcount]
    exact Nat.zero_add _
  · intro c hc htp
    obtain ⟨kind, hkind⟩ := exists_kindOf hc htp
    rw [hclasses c hc, ← hvalues (fun _ => true) c kind hc hkind]
    rfl

/-! ### A draft of three texts -/

def draftSample : Processor := ⟨Runtime.basic, ⟨defaultDetectors Runtime.basic⟩, sampleMasker⟩

/-- Nothing is found in the first text, two values in each of the others. -/
def draftSamples : List (Str × Str) :=
  [("ok".toList, "ok".toList), ("PIN 1234 a@b.ru".toList, "PIN **** *@*.**".toList),
    ("a@b.ru c@d.ru".toList, "*@*.** *@*.**".toList)]

theorem findEntities_draft : findEntities draftSample systems.default "ok".toList = [] ∧
    findEntities draftSample systems.default "PIN 1234 a@b.ru".toList =
      [(PDType.cardPin.value, [(4, 8)]), (PDType.email.value, [(9, 15)])] ∧
    findEntities draftSample systems.default "a@b.ru c@d.ru".toList =
      [(PDType.email.value, [(0, 6)]), (PDType.email.value, [(7, 13)])] := by
  decide +kernel

/-- The rows stand in the order of the samples. -/
theorem buildRows_draft : buildRows draftSample systems.default draftSamples =
    [⟨"ok".toList, "ok".toList, [], []⟩,
      ⟨"PIN 1234 a@b.ru".toList, "PIN **** *@*.**".toList, ['0'],
        PDType.cardPin.value ++ "::1234 || ".toList ++ PDType.email.value ++ "::a@b.ru".toList⟩,
      ⟨"a@b.ru c@d.ru".toList, "*@*.** *@*.**".toList, ['0'],
        PDType.email.value ++ "::a@b.ru || ".toList ++ PDType.email.value ++ "::c@d.ru".toList⟩] := by
  obtain ⟨hfirst, hsecond, hthird⟩ := findEntities_draft
  unfold buildRows draftSamples
  rw [List.map_cons, List.map_cons, List.map_singleton]
  unfold templateRow
  dsimp only
  rw [hfirst, hsecond, hthird]
  exact List.mergeSort_of_pairwise (by decide)

theorem template_is_perfect_draft :
    ∃ gold m, loadGold Runtime.basic (fun _ => none)
        (writeOutputs (buildRows draftSample systems.default draftSamples)) = .ok gold ∧
      computeMetrics Runtime.basic gold (currentFindings draftSample systems.default gold) = .ok m ∧
      collectErrors Runtime.basic gold (currentFindings draftSample systems.default gold) = [] ∧
      m.skipped = 1 ∧ m.labeled + m.skipped = 3 ∧ m.traps = 0 ∧ m.perfectText = m.labeled ∧
      m.fp = 0 ∧ m.notInText = 0 ∧ (∀ c, c ≠ .notInText → c ≠ .tp → m.classes c = 0) ∧
      m.overmask = 0 ∧ m.expectedMasked = m.maskedChars := by
  obtain ⟨hfirst, hsecond, hthird⟩ := findEntities_draft
  have hlabels : ∀ s ∈ draftSamples, ∀ f ∈ findEntities draftSample systems.default s.1, ∀ span ∈ f.2,
      Labelable Runtime.basic (spanText s.1 span) := by
    refine List.forall_mem_cons.mpr ⟨?_, List.forall_mem_cons.mpr ⟨?_, List.forall_mem_singleton.mpr ?_⟩⟩
    · rw [hfirst]
      exact List.forall_mem_nil _
    · rw [hsecond]
      refine List.forall_mem_cons.mpr ⟨?_, List.forall_mem_singleton.mpr ?_⟩
      · exact List.forall_mem_singleton.mpr ⟨by decide, by decide, by decide⟩
      · exact List.forall_mem_singleton.mpr ⟨by decide, by decide, by decide⟩
    · rw [hthird]
      refine List.forall_mem_cons.mpr ⟨?_, List.forall_mem_singleton.mpr ?_⟩
      · exact List.forall_mem_singleton.mpr ⟨by decide, by decide, by decide⟩
      · exact List.forall_mem_singleton.mpr ⟨by decide, by decide, by decide⟩
  have hskipped : draftSamples.countP (fun s => findEntities draftSample systems.default s.1 = []) = 1 := by
    rw [draftSamples, List.countP_cons, List.countP_cons, List.countP_cons, List.countP_nil]
    dsimp only
    rw [hfirst, hsecond, hthird]
    rfl
  obtain ⟨gold, m, hgold, hm, herrors, hcount, hrest⟩ := template_is_perfect (P := draftSample) rfl systems.default
    (fun _ => none) draftSamples hlabels (by rw [buildRows_draft]; decide)
  exact ⟨gold, m, hgold, hm, herrors, hcount.trans hskipped, hrest⟩

end Whole

end PdMasking
