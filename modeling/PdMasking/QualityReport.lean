import PdMasking.GoldFile
import PdMasking.Lib.Checked

/-!
# PdMasking.QualityReport — the quality report and its list of errors (`scripts/eval_gold.py`)

`compute_metrics` counts over the labelled rows; `collect_errors` lists what is wrong in them.

* `report_agrees`: the numbers add up, and they are those of the errors in the list.
-/

namespace PdMasking

/-! ### The errors -/

/-- The kinds of errors. -/
inductive ErrorKind
  | fnValue
  | partial_
  | wrongType
  | notInText
  | fpValue
  | trapFp
  deriving DecidableEq

structure ErrorRow where
  id : Str
  kind : ErrorKind
  pdType : Str
  expected : Str
  found : Str
  text : Str

/-- `expected_spans` -/
def expectedSpans (row : GoldRow) : List (ℕ × ℕ) := row.expected.flatMap (fun v => occurrences row.text v.2)

/-- `extra_spans` -/
def extraSpans (row : GoldRow) (findings : List Finding) : List (Str × (ℤ × ℤ)) :=
  findings.flatMap (fun f =>
    (f.2.filter (fun p => !(expectedSpans row).any (fun w => p.1 < (w.2 : ℤ) && (w.1 : ℤ) < p.2))).map
      (fun p => (f.1, p)))

/-- `_found_text` -/
def foundText (text value : Str) (findings : List Finding) : Str :=
  match occurrences text value with
  | [] => []
  | (start, stop) :: _ =>
    let spans := (findings.flatMap Prod.snd).filter (fun p => p.1 < (stop : ℤ) && (start : ℤ) < p.2)
    " | ".toList.intercalate (spans.map (fun p => slice text (max p.1 (start : ℤ)).toNat (min p.2 (stop : ℤ)).toNat))

section Report

variable (R : Runtime)

/-- The class of an expected value. -/
def classOf (row : GoldRow) (findings : List Finding) (v : Str × Str) : ValueClass :=
  classifyValue R row.text v.2 v.1 findings

/-- The kind of a class; `TP` is no error. -/
def kindOf : ValueClass → Option ErrorKind
  | .tp => none
  | .notInText => some .notInText
  | .partial_ => some .partial_
  | .wrongType => some .wrongType
  | .fn => some .fnValue

/-- `_value_errors` -/
def valueErrors (row : GoldRow) (findings : List Finding) : List ErrorRow :=
  row.expected.filterMap (fun v => (kindOf (classOf R row findings v)).map (fun kind =>
    ⟨row.id, kind, v.1, v.2, foundText row.text v.2 findings, row.text⟩))

/-- The errors of a row. -/
def rowErrors (row : GoldRow) (findings : List Finding) : List ErrorRow :=
  match row.trap with
  | none => []
  | some label =>
    let kind : ErrorKind := if label = .trap then .trapFp else .fpValue
    (extraSpans row findings).map (fun s => ⟨row.id, kind, s.1, [], spanText row.text s.2, row.text⟩) ++
      if label = .personal then valueErrors R row findings else []

/-- `collect_errors` -/
def collectErrors (rows : List GoldRow) (findingsById : Str → List Finding) : List ErrorRow :=
  rows.flatMap (fun row => rowErrors R row (findingsById row.id))

/-! ### The numbers -/

/-- `Metrics` -/
structure Metrics where
  labeled : ℕ
  skipped : ℕ
  traps : ℕ
  trapFp : ℕ
  pdTexts : ℕ
  fnText : ℕ
  perfectText : ℕ
  classes : ValueClass → ℕ
  notInText : ℕ
  fp : ℕ
  expectedChars : ℕ
  expectedMasked : ℕ
  maskedChars : ℕ
  overmask : ℕ
  byType : List (Str × (ValueClass → ℕ))

/-- `Metrics()` -/
def Metrics.zero : Metrics := ⟨0, 0, 0, 0, 0, 0, 0, fun _ => 0, 0, 0, 0, 0, 0, 0, []⟩

/-- `counter[cls] += 1` -/
def bump (cls : ValueClass) (counter : ValueClass → ℕ) : ValueClass → ℕ :=
  Function.update counter cls (counter cls + 1)

/-- `by_type.setdefault(pd_type, Counter())[cls] += 1` -/
def bumpType (pdType : Str) (cls : ValueClass) : List (Str × (ValueClass → ℕ)) → List (Str × (ValueClass → ℕ))
  | [] => [(pdType, bump cls (fun _ => 0))]
  | (t, counter) :: l => if t = pdType then (t, bump cls counter) :: l else (t, counter) :: bumpType pdType cls l

/-- `text[i]` -/
def charAt (text : Str) (i : ℤ) : Except PyExc Char :=
  match if i < -(text.length : ℤ) then none else text[sliceIndex text.length i]? with
  | none => .error .indexError
  | some c => .ok c

/-- `i for s, e in spans for i in range(s, e)` -/
def positionsOf (spans : List (ℤ × ℤ)) : List ℤ :=
  spans.flatMap (fun p => (List.range (p.2 - p.1).toNat).map (fun k : ℕ => p.1 + (k : ℤ)))

/-- `_non_space` -/
def nonSpace (text : Str) (spans : List (ℤ × ℤ)) : Except PyExc (Finset ℤ) := do
  let positions := positionsOf spans
  let chars ← positions.mapM (charAt text)
  return (((positions.zip chars).filter (fun q => !R.isspace q.2)).map Prod.fst).toFinset

/-- `_count_chars` -/
def countChars (row : GoldRow) (findings : List Finding) (m : Metrics) : Except PyExc Metrics := do
  let masked ← nonSpace R row.text (findings.flatMap Prod.snd)
  let wanted ← nonSpace R row.text ((expectedSpans row).map (fun w => ((w.1 : ℤ), (w.2 : ℤ))))
  return { m with
    expectedChars := m.expectedChars + wanted.card
    expectedMasked := m.expectedMasked + (wanted ∩ masked).card
    maskedChars := m.maskedChars + masked.card
    overmask := m.overmask + (masked \ wanted).card }

/-- The loop body of `_count_values`. -/
def countValue (row : GoldRow) (findings : List Finding) (acc : Metrics × List ValueClass) (v : Str × Str) :
    Metrics × List ValueClass :=
  let (m, classes) := acc
  let cls := classOf R row findings v
  if cls = .notInText then ({ m with notInText := m.notInText + 1 }, classes)
  else ({ m with classes := bump cls m.classes, byType := bumpType v.1 cls m.byType }, classes ++ [cls])

/-- `_count_values` -/
def countValues (row : GoldRow) (findings : List Finding) (m : Metrics) : Metrics :=
  let (m, classes) := row.expected.foldl (countValue R row findings) (m, [])
  let m := if classes ≠ [] ∧ classes.all (· = .fn) then { m with fnText := m.fnText + 1 } else m
  if classes ≠ [] ∧ classes.all (· = .tp) then { m with perfectText := m.perfectText + 1 } else m

/-- `_count_row` -/
def countRow (row : GoldRow) (findings : List Finding) (m : Metrics) : Except PyExc Metrics := do
  let m := { m with fp := m.fp + (extraSpans row findings).length }
  let m ← countChars R row findings m
  if row.trap = some .trap then
    return { m with traps := m.traps + 1, trapFp := m.trapFp + if findings ≠ [] then 1 else 0 }
  else
    return countValues R row findings { m with pdTexts := m.pdTexts + 1 }

/-- The loop body of `compute_metrics`. -/
def metricsStep (findingsById : Str → List Finding) (m : Metrics) (row : GoldRow) : Except PyExc Metrics :=
  if row.trap = none then .ok { m with skipped := m.skipped + 1 }
  else countRow R row (findingsById row.id) { m with labeled := m.labeled + 1 }

/-- `compute_metrics` -/
def computeMetrics (rows : List GoldRow) (findingsById : Str → List Finding) : Except PyExc Metrics :=
  rows.foldlM (metricsStep R findingsById) .zero

end Report

/-! ### One row -/

section Step

variable {R : Runtime} {row : GoldRow} {findings : List Finding} {m m' : Metrics} {t : Str} {c cls : ValueClass}

/-- The values of a class in the entries of some types. -/
def typeSum (p : Str → Bool) (c : ValueClass) : List (Str × (ValueClass → ℕ)) → ℕ
  | [] => 0
  | (t, counter) :: l => (if p t then counter c else 0) + typeSum p c l

theorem bump_apply (counter : ValueClass → ℕ) : bump cls counter c = counter c + if c = cls then 1 else 0 := by
  unfold bump
  by_cases h : c = cls
  · rw [h, Function.update_self, if_pos rfl]
  · rw [Function.update_of_ne h, if_neg h, Nat.add_zero]

/-- The entries of some types grow by one, if the type is one of them. -/
theorem typeSum_bumpType (p : Str → Bool) (pdType : Str) (l : List (Str × (ValueClass → ℕ))) :
    typeSum p c (bumpType pdType cls l) = typeSum p c l + if p pdType = true ∧ c = cls then 1 else 0 := by
  induction l with
  | nil =>
    show (if p pdType then bump cls (fun _ => 0) c else 0) + 0 = 0 + _
    by_cases ht : p pdType = true
    · simp [bump_apply, ht]
    · simp [ht]
  | cons b l ih =>
    obtain ⟨t, counter⟩ := b
    unfold bumpType
    by_cases hkey : t = pdType
    · rw [if_pos hkey]
      subst hkey
      show (if p t then bump cls counter c else 0) + typeSum p c l = (if p t then counter c else 0) + typeSum p c l + _
      by_cases ht : p t = true
      · simp only [bump_apply, ht, true_and, if_true]
        omega
      · simp [ht]
    · rw [if_neg hkey]
      show (if p t then counter c else 0) + typeSum p c (bumpType pdType cls l) =
        (if p t then counter c else 0) + typeSum p c l + _
      rw [ih, Nat.add_assoc]

/-- **The values of a row** are counted, and nothing else changes. -/
theorem foldl_countValue (R : Runtime) (row : GoldRow) (findings : List Finding) (vs : List (Str × Str)) (m : Metrics)
    (classes : List ValueClass) :
    ∃ (counter : ValueClass → ℕ) (byType : List (Str × (ValueClass → ℕ))),
      vs.foldl (countValue R row findings) (m, classes) =
        ({ m with
            notInText := m.notInText + vs.countP (fun v => classOf R row findings v = .notInText)
            classes := counter
            byType := byType },
          classes ++ (vs.map (classOf R row findings)).filter (· ≠ .notInText)) ∧
      (∀ c ≠ .notInText, counter c = m.classes c + vs.countP (fun v => classOf R row findings v = c)) ∧
      ∀ p c, c ≠ .notInText → typeSum p c byType =
        typeSum p c m.byType + vs.countP (fun v => p v.1 = true ∧ classOf R row findings v = c) := by
  induction vs generalizing m classes with
  | nil =>
    refine ⟨m.classes, m.byType, ?_, fun _ _ => rfl, fun _ _ _ => rfl⟩
    rw [List.foldl_nil, List.map_nil, List.filter_nil, List.append_nil, List.countP_nil, Nat.add_zero]
  | cons v vs ih =>
    rw [List.foldl_cons]
    by_cases hin : classOf R row findings v = .notInText
    · have hstep : countValue R row findings (m, classes) v = ({ m with notInText := m.notInText + 1 }, classes) :=
        if_pos hin
      obtain ⟨counter, byType, hfold, hcounter, htypes⟩ := ih { m with notInText := m.notInText + 1 } classes
      refine ⟨counter, byType, ?_, ?_, ?_⟩
      · rw [hstep, hfold, List.map_cons, List.filter_cons_of_neg (by simpa using hin),
          List.countP_cons_of_pos (by simpa using hin)]
        simp only [Nat.add_assoc, Nat.add_comm 1]
      · intro c hc
        rw [List.countP_cons_of_neg (by simpa [hin] using hc.symm)]
        exact hcounter c hc
      · intro p c hc
        rw [List.countP_cons_of_neg (by simpa [hin] using fun _ => hc.symm)]
        exact htypes p c hc
    · have hstep : countValue R row findings (m, classes) v =
          ({ m with
              classes := bump (classOf R row findings v) m.classes
              byType := bumpType v.1 (classOf R row findings v) m.byType },
            classes ++ [classOf R row findings v]) := if_neg hin
      obtain ⟨counter, byType, hfold, hcounter, htypes⟩ := ih
        { m with
          classes := bump (classOf R row findings v) m.classes
          byType := bumpType v.1 (classOf R row findings v) m.byType }
        (classes ++ [classOf R row findings v])
      refine ⟨counter, byType, ?_, ?_, ?_⟩
      · rw [hstep, hfold, List.map_cons, List.filter_cons_of_pos (by simpa using hin), List.append_assoc,
          List.singleton_append, List.countP_cons_of_neg (by simpa using hin)]
      · intro c hc
        have hbump : bump (classOf R row findings v) m.classes c =
            m.classes c + if c = classOf R row findings v then 1 else 0 := bump_apply m.classes
        rw [hcounter c hc, List.countP_cons]
        simp only [decide_eq_true_eq, hbump, eq_comm (a := c)]
        omega
      · intro p c hc
        have hsum : typeSum p c (bumpType v.1 (classOf R row findings v) m.byType) = typeSum p c m.byType +
            if p v.1 = true ∧ c = classOf R row findings v then 1 else 0 := typeSum_bumpType p v.1 m.byType
        rw [htypes p c hc, List.countP_cons]
        simp only [decide_eq_true_eq, hsum, eq_comm (a := c)]
        omega

/-- **`_count_values`** counts each value of the row once, and the row at most once. -/
theorem countValues_spec (R : Runtime) (row : GoldRow) (findings : List Finding) (m : Metrics) :
    ∃ (counter : ValueClass → ℕ) (byType : List (Str × (ValueClass → ℕ))) (fn perfect : ℕ),
      countValues R row findings m =
        { m with
          notInText := m.notInText + row.expected.countP (fun v => classOf R row findings v = .notInText)
          classes := counter
          byType := byType
          fnText := m.fnText + fn
          perfectText := m.perfectText + perfect } ∧
      fn + perfect ≤ 1 ∧
      (∀ c ≠ .notInText, counter c = m.classes c + row.expected.countP (fun v => classOf R row findings v = c)) ∧
      ∀ p c, c ≠ .notInText → typeSum p c byType =
        typeSum p c m.byType + row.expected.countP (fun v => p v.1 = true ∧ classOf R row findings v = c) := by
  obtain ⟨counter, byType, hfold, hcounter, htypes⟩ := foldl_countValue R row findings row.expected m []
  rw [List.nil_append] at hfold
  generalize (row.expected.map (classOf R row findings)).filter (· ≠ .notInText) = classes at hfold
  refine ⟨counter, byType, if classes ≠ [] ∧ classes.all (· = .fn) then 1 else 0,
    if classes ≠ [] ∧ classes.all (· = .tp) then 1 else 0, ?_, ?_, hcounter, htypes⟩
  · unfold countValues
    rw [hfold]
    dsimp only
    split_ifs <;> rfl
  · split_ifs with hfn htp
    · -- the first value cannot have both classes
      obtain ⟨c, classes, rfl⟩ := List.exists_cons_of_ne_nil hfn.1
      have hc := of_decide_eq_true (List.all_eq_true.mp hfn.2 c List.mem_cons_self)
      have hc' := of_decide_eq_true (List.all_eq_true.mp htp.2 c List.mem_cons_self)
      rw [hc] at hc'
      cases hc'
    · exact le_rfl
    · exact le_rfl
    · exact Nat.zero_le 1

theorem countChars_eq_ok (h : countChars R row findings m = .ok m') : ∃ masked wanted : Finset ℤ, m' = { m with
    expectedChars := m.expectedChars + wanted.card
    expectedMasked := m.expectedMasked + (wanted ∩ masked).card
    maskedChars := m.maskedChars + masked.card
    overmask := m.overmask + (masked \ wanted).card } := by
  obtain ⟨masked, -, h⟩ := Checked.bind_eq_ok.mp h
  obtain ⟨wanted, -, h⟩ := Checked.bind_eq_ok.mp h
  exact ⟨masked, wanted, (Except.ok.inj h).symm⟩

theorem mem_positionsOf {spans : List (ℤ × ℤ)} {i : ℤ} :
    i ∈ positionsOf spans ↔ ∃ p ∈ spans, p.1 ≤ i ∧ i < p.2 := by
  unfold positionsOf
  rw [List.mem_flatMap]
  refine exists_congr (fun p => and_congr_right (fun _ => ?_))
  rw [List.mem_map]
  constructor
  · rintro ⟨k, hk, rfl⟩
    rw [List.mem_range] at hk
    omega
  · rintro ⟨h1, h2⟩
    refine ⟨(i - p.1).toNat, List.mem_range.mpr ?_, ?_⟩ <;> omega

/-- All spans are inside the text. -/
def SpansIn (text : Str) (spans : List (ℤ × ℤ)) : Prop := ∀ p ∈ spans, 0 ≤ p.1 ∧ p.2 ≤ (text.length : ℤ)

theorem charAt_of_lt {text : Str} {i : ℤ} (h0 : 0 ≤ i) (h : i < text.length) :
    ∃ c, charAt text i = .ok c ∧ text[i.toNat]? = some c := by
  have hlt : i.toNat < text.length := by omega
  have hindex : sliceIndex text.length i = i.toNat := if_neg (by omega)
  refine ⟨text[i.toNat], ?_, List.getElem?_eq_getElem hlt⟩
  unfold charAt
  rw [if_neg (by omega), hindex, List.getElem?_eq_getElem hlt]

/-- **`_non_space`** on spans inside the text. -/
theorem nonSpace_spec (R : Runtime) {text : Str} {spans : List (ℤ × ℤ)} (h : SpansIn text spans) :
    ∃ s, nonSpace R text spans = .ok s ∧ ∀ i, i ∈ s ↔ (∃ p ∈ spans, p.1 ≤ i ∧ i < p.2) ∧
      ∃ c, text[i.toNat]? = some c ∧ R.isspace c = false := by
  have hchar : ∀ i ∈ positionsOf spans, ∃ c, charAt text i = .ok c ∧ text[i.toNat]? = some c := by
    intro i hi
    obtain ⟨p, hp, h1, h2⟩ := mem_positionsOf.mp hi
    have hin := h p hp
    exact charAt_of_lt (by omega) (by omega)
  obtain ⟨chars, hchars⟩ : Checked.Ok ((positionsOf spans).mapM (charAt text)) := by
    refine Checked.ok_mapM.mpr ?_
    intro i hi
    obtain ⟨c, hc, -⟩ := hchar i hi
    exact ⟨c, hc⟩
  obtain ⟨hlength, hzip⟩ := List.forall₂_iff_zip.mp (Checked.mapM_eq_ok.mp hchars)
  refine ⟨_, Checked.bind_eq_ok.mpr ⟨chars, hchars, rfl⟩, ?_⟩
  intro i
  rw [List.mem_toFinset, List.mem_map, ← mem_positionsOf]
  constructor
  · rintro ⟨⟨j, c⟩, hq, rfl⟩
    obtain ⟨hq, hspace⟩ := List.mem_filter.mp hq
    have hj := (List.of_mem_zip hq).1
    obtain ⟨c', hc', hget⟩ := hchar j hj
    obtain rfl := Except.ok.inj ((hzip hq).symm.trans hc')
    exact ⟨hj, c, hget, by simpa using hspace⟩
  · rintro ⟨hi, c, hget, hspace⟩
    have hfst : i ∈ ((positionsOf spans).zip chars).map Prod.fst := by
      rw [List.map_fst_zip hlength.le]
      exact hi
    obtain ⟨⟨j, c'⟩, hq, rfl⟩ := List.mem_map.mp hfst
    obtain ⟨c'', hc'', hget'⟩ := hchar j hi
    obtain rfl := Except.ok.inj ((hzip hq).symm.trans hc'')
    obtain rfl := Option.some.inj (hget'.symm.trans hget)
    exact ⟨(j, c'), List.mem_filter.mpr ⟨hq, by simpa using hspace⟩, rfl⟩

/-! ### The errors of a row -/

theorem kindOf_inj {c c' : ValueClass} {kind : ErrorKind} (h : kindOf c = some kind) :
    kindOf c' = some kind ↔ c' = c := by
  constructor
  · intro h'
    cases c <;> cases c' <;> cases h <;> first | rfl | cases h'
  · rintro rfl
    exact h

theorem exists_kindOf (hc : c ≠ .notInText) (htp : c ≠ .tp) : ∃ kind, kindOf c = some kind := by
  cases c with
  | tp => exact absurd rfl htp
  | notInText => exact absurd rfl hc
  | partial_ => exact ⟨_, rfl⟩
  | wrongType => exact ⟨_, rfl⟩
  | fn => exact ⟨_, rfl⟩

theorem kindOf_ne_fp {kind : ErrorKind} (h : kindOf c = some kind) : ¬ (kind = .fpValue ∨ kind = .trapFp) := by
  rintro (rfl | rfl) <;> cases c <;> cases h

/-- The errors of a kind are the values of a class. -/
theorem countP_valueErrors (R : Runtime) (row : GoldRow) (findings : List Finding) (p : Str → Bool) {kind : ErrorKind}
    (h : kindOf c = some kind) :
    (valueErrors R row findings).countP (fun e => e.kind = kind ∧ p e.pdType = true) =
      row.expected.countP (fun v => p v.1 = true ∧ classOf R row findings v = c) := by
  unfold valueErrors
  rw [List.countP_filterMap]
  refine List.countP_congr ?_
  intro v _
  have hkind : kindOf (classOf R row findings v) = some kind ↔ classOf R row findings v = c := kindOf_inj h
  rcases hclass : kindOf (classOf R row findings v) with _ | kind'
  · rw [hclass] at hkind
    simp [← hkind]
  · rw [hclass, Option.some_inj] at hkind
    simp [← hkind, and_comm]

theorem fp_of_mem_valueErrors {e : ErrorRow} (h : e ∈ valueErrors R row findings) :
    ¬ (e.kind = .fpValue ∨ e.kind = .trapFp) := by
  obtain ⟨v, -, hv⟩ := List.mem_filterMap.mp h
  obtain ⟨kind, hkind, rfl⟩ := Option.map_eq_some_iff.mp hv
  exact kindOf_ne_fp hkind

/-- The errors of a row that are no values. -/
theorem countP_extra {rowKind : ErrorKind} (q : ErrorRow → Bool) (b : Bool)
    (hq : ∀ pdType text : Str, q ⟨row.id, rowKind, pdType, [], text, row.text⟩ = b) :
    ((extraSpans row findings).map
      (fun s => (⟨row.id, rowKind, s.1, [], spanText row.text s.2, row.text⟩ : ErrorRow))).countP q =
      if b then (extraSpans row findings).length else 0 := by
  rw [List.countP_map]
  cases b with
  | true => exact List.countP_eq_length.mpr (fun s _ => hq s.1 _)
  | false => exact List.countP_eq_zero.mpr (fun s _ => ne_true_of_eq_false (hq s.1 _))

/-! ### All rows -/

/-- The numbers after some rows, beside the errors of these rows. -/
structure MetricsAgree (R : Runtime) (findingsById : Str → List Finding) (rows : List GoldRow) (m : Metrics) :
    Prop where
  rows_eq : m.labeled + m.skipped = rows.length
  labeled_eq : m.traps + m.pdTexts = m.labeled
  trapFp_le : m.trapFp ≤ m.traps
  texts_le : m.fnText + m.perfectText ≤ m.pdTexts
  values : ∀ p c kind, c ≠ .notInText → kindOf c = some kind →
    (collectErrors R rows findingsById).countP (fun e => e.kind = kind ∧ p e.pdType = true) = typeSum p c m.byType
  classes : ∀ c ≠ .notInText, m.classes c = typeSum (fun _ => true) c m.byType
  notInText : (collectErrors R rows findingsById).countP (fun e => e.kind = .notInText) = m.notInText
  fp : (collectErrors R rows findingsById).countP (fun e => e.kind = .fpValue ∨ e.kind = .trapFp) = m.fp
  masked : m.expectedMasked + m.overmask = m.maskedChars
  chars_le : m.expectedMasked ≤ m.expectedChars

theorem metricsAgree_zero (R : Runtime) (findingsById : Str → List Finding) : MetricsAgree R findingsById [] .zero :=
  ⟨rfl, rfl, le_rfl, le_rfl, fun _ _ _ _ _ => rfl, fun _ _ => rfl, rfl, rfl, rfl, le_rfl⟩

theorem collectErrors_concat (findingsById : Str → List Finding) (rows : List GoldRow) (row : GoldRow) :
    collectErrors R (rows ++ [row]) findingsById =
      collectErrors R rows findingsById ++ rowErrors R row (findingsById row.id) := by
  unfold collectErrors
  rw [List.flatMap_append, List.flatMap_singleton]

theorem card_masked (masked wanted : Finset ℤ) :
    (wanted ∩ masked).card + (masked \ wanted).card = masked.card ∧ (wanted ∩ masked).card ≤ wanted.card := by
  refine ⟨?_, Finset.card_le_card Finset.inter_subset_left⟩
  rw [Finset.inter_comm]
  exact Finset.card_inter_add_card_sdiff masked wanted

section More

variable {findingsById : Str → List Finding} {rows : List GoldRow}

/-- A row that is not labelled. -/
theorem MetricsAgree.skip (h : MetricsAgree R findingsById rows m) (htrap : row.trap = none) :
    MetricsAgree R findingsById (rows ++ [row]) { m with skipped := m.skipped + 1 } := by
  have herrors : collectErrors R (rows ++ [row]) findingsById = collectErrors R rows findingsById := by
    rw [collectErrors_concat]
    unfold rowErrors
    rw [htrap]
    exact List.append_nil _
  have hlength : (rows ++ [row]).length = rows.length + 1 := List.length_append
  have hrows := h.rows_eq
  refine ⟨?_, h.labeled_eq, h.trapFp_le, h.texts_le, ?_, h.classes, ?_, ?_, h.masked, h.chars_le⟩
  · rw [hlength]
    dsimp only
    omega
  all_goals rw [herrors]
  · exact h.values
  · exact h.notInText
  · exact h.fp

/-- A trap. -/
theorem MetricsAgree.trap (h : MetricsAgree R findingsById rows m) (htrap : row.trap = some .trap)
    (masked wanted : Finset ℤ) :
    MetricsAgree R findingsById (rows ++ [row]) { m with
      labeled := m.labeled + 1
      fp := m.fp + (extraSpans row (findingsById row.id)).length
      expectedChars := m.expectedChars + wanted.card
      expectedMasked := m.expectedMasked + (wanted ∩ masked).card
      maskedChars := m.maskedChars + masked.card
      overmask := m.overmask + (masked \ wanted).card
      traps := m.traps + 1
      trapFp := m.trapFp + if findingsById row.id ≠ [] then 1 else 0 } := by
  have herrors : rowErrors R row (findingsById row.id) = (extraSpans row (findingsById row.id)).map
      (fun s => ⟨row.id, .trapFp, s.1, [], spanText row.text s.2, row.text⟩) := by
    unfold rowErrors
    rw [htrap]
    exact List.append_nil _
  have hlength : (rows ++ [row]).length = rows.length + 1 := List.length_append
  obtain ⟨hsum, hle⟩ := card_masked masked wanted
  obtain ⟨hrows, hlabeled, htrapFp, htexts, hvalues, hclasses, hnot, hfp, hmasked, hchars⟩ := h
  refine ⟨?_, ?_, ?_, htexts, ?_, hclasses, ?_, ?_, ?_, ?_⟩
  · rw [hlength]
    dsimp only
    omega
  · dsimp only
    omega
  · dsimp only
    split_ifs <;> omega
  · intro p c kind hc hkind
    have hother : ∀ pdType text : Str, decide ((ErrorKind.trapFp = kind) ∧ p pdType = true) = false :=
      fun _ _ => decide_eq_false (fun h => kindOf_ne_fp hkind (Or.inr h.1.symm))
    rw [collectErrors_concat, herrors, List.countP_append, countP_extra _ false hother, hvalues p c kind hc hkind]
    rfl
  · rw [collectErrors_concat, herrors, List.countP_append, countP_extra _ false (fun _ _ => rfl), hnot]
    rfl
  · rw [collectErrors_concat, herrors, List.countP_append, countP_extra _ true (fun _ _ => rfl), hfp]
    rfl
  · dsimp only
    omega
  · dsimp only
    omega

/-- A row with personal data. -/
theorem MetricsAgree.personal (h : MetricsAgree R findingsById rows m) (htrap : row.trap = some .personal)
    (masked wanted : Finset ℤ) :
    MetricsAgree R findingsById (rows ++ [row]) (countValues R row (findingsById row.id) { m with
      labeled := m.labeled + 1
      fp := m.fp + (extraSpans row (findingsById row.id)).length
      expectedChars := m.expectedChars + wanted.card
      expectedMasked := m.expectedMasked + (wanted ∩ masked).card
      maskedChars := m.maskedChars + masked.card
      overmask := m.overmask + (masked \ wanted).card
      pdTexts := m.pdTexts + 1 }) := by
  have herrors : rowErrors R row (findingsById row.id) = (extraSpans row (findingsById row.id)).map
      (fun s => ⟨row.id, .fpValue, s.1, [], spanText row.text s.2, row.text⟩) ++
        valueErrors R row (findingsById row.id) := by
    unfold rowErrors
    rw [htrap]
    rfl
  have hlength : (rows ++ [row]).length = rows.length + 1 := List.length_append
  obtain ⟨hsum, hle⟩ := card_masked masked wanted
  obtain ⟨hrows, hlabeled, htrapFp, htexts, hvalues, hclasses, hnot, hfp, hmasked, hchars⟩ := h
  obtain ⟨counter, byType, fn, perfect, hcount, honce, hcounter, htypes⟩ := countValues_spec R row
    (findingsById row.id) _
  rw [hcount]
  dsimp only at hcounter htypes
  refine ⟨?_, ?_, htrapFp, ?_, ?_, ?_, ?_, ?_, ?_, ?_⟩
  · rw [hlength]
    dsimp only
    omega
  · dsimp only
    omega
  · dsimp only
    omega
  · intro p c kind hc hkind
    have hother : ∀ pdType text : Str, decide ((ErrorKind.fpValue = kind) ∧ p pdType = true) = false :=
      fun _ _ => decide_eq_false (fun h => kindOf_ne_fp hkind (Or.inl h.1.symm))
    rw [collectErrors_concat, herrors, List.countP_append, List.countP_append, countP_extra _ false hother,
      hvalues p c kind hc hkind, countP_valueErrors _ _ _ p hkind]
    dsimp only
    rw [htypes p c hc, if_neg Bool.false_ne_true, Nat.zero_add]
  · intro c hc
    dsimp only
    rw [hcounter c hc, htypes _ c hc, hclasses c hc]
    simp only [true_and]
  · have hkind : kindOf .notInText = some .notInText := rfl
    have hvalue := countP_valueErrors R row (findingsById row.id) (fun _ => true) hkind
    simp only [and_true, true_and] at hvalue
    rw [collectErrors_concat, herrors, List.countP_append, List.countP_append,
      countP_extra _ false (fun _ _ => rfl), hnot, hvalue, if_neg Bool.false_ne_true, Nat.zero_add]
  · have hnone : (valueErrors R row (findingsById row.id)).countP (fun e => e.kind = .fpValue ∨ e.kind = .trapFp) = 0 :=
      List.countP_eq_zero.mpr (fun e he => by simpa using fp_of_mem_valueErrors he)
    rw [collectErrors_concat, herrors, List.countP_append, List.countP_append,
      countP_extra _ true (fun _ _ => rfl), hfp, hnone]
    rfl
  · dsimp only
    omega
  · dsimp only
    omega

/-- **One more row.** -/
theorem MetricsAgree.step (h : MetricsAgree R findingsById rows m) (hstep : metricsStep R findingsById m row = .ok m') :
    MetricsAgree R findingsById (rows ++ [row]) m' := by
  unfold metricsStep at hstep
  rcases htrap : row.trap with _ | label
  · rw [if_pos htrap] at hstep
    obtain rfl := Except.ok.inj hstep
    exact h.skip htrap
  · rw [if_neg (by rw [htrap]; exact Option.some_ne_none label)] at hstep
    obtain ⟨m₁, hm₁, hstep⟩ := Checked.bind_eq_ok.mp hstep
    obtain ⟨masked, wanted, rfl⟩ := countChars_eq_ok hm₁
    cases label with
    | trap =>
      rw [if_pos htrap] at hstep
      obtain rfl := Except.ok.inj hstep
      exact h.trap htrap masked wanted
    | personal =>
      rw [if_neg (by rw [htrap]; decide)] at hstep
      obtain rfl := Except.ok.inj hstep
      exact h.personal htrap masked wanted

end More

theorem metricsAgree_foldl {findingsById : Str → List Finding} : ∀ {rows done : List GoldRow} {m m' : Metrics},
    MetricsAgree R findingsById done m → rows.foldlM (metricsStep R findingsById) m = .ok m' →
      MetricsAgree R findingsById (done ++ rows) m'
  | [], done, m, m', h, hfold => by
    obtain rfl := Except.ok.inj hfold
    rw [List.append_nil]
    exact h
  | row :: rows, done, m, m', h, hfold => by
    rw [List.foldlM_cons] at hfold
    obtain ⟨m₁, hm₁, hfold⟩ := Checked.bind_eq_ok.mp hfold
    have hrest := metricsAgree_foldl (h.step hm₁) hfold
    rw [List.append_assoc] at hrest
    exact hrest

/-- The expected values are found inside the text. -/
theorem spansIn_expected (row : GoldRow) :
    SpansIn row.text ((expectedSpans row).map (fun w => ((w.1 : ℤ), (w.2 : ℤ)))) := by
  intro p hp
  obtain ⟨w, hw, rfl⟩ := List.mem_map.mp hp
  obtain ⟨v, -, hw⟩ := List.mem_flatMap.mp hw
  by_cases hne : v.2 = []
  · rw [occurrences, if_pos hne] at hw
    cases hw
  · obtain ⟨hend, hoccurs⟩ := (mem_occurrences hne).mp hw
    have hlength := (occursAt_iff.mp hoccurs).length_le
    have hpos := List.length_pos_of_ne_nil hne
    rw [List.length_drop] at hlength
    dsimp only
    omega

theorem countChars_ok (m : Metrics) (h : SpansIn row.text (findings.flatMap Prod.snd)) :
    Checked.Ok (countChars R row findings m) := by
  obtain ⟨masked, hmasked, -⟩ := nonSpace_spec R h
  obtain ⟨wanted, hwanted, -⟩ := nonSpace_spec R (spansIn_expected row)
  exact Checked.ok_bind.mpr ⟨masked, hmasked, Checked.ok_bind.mpr ⟨wanted, hwanted, Checked.ok_pure _⟩⟩

theorem computeMetrics_ok {findingsById : Str → List Finding} {rows : List GoldRow}
    (h : ∀ row ∈ rows, row.trap ≠ none → SpansIn row.text ((findingsById row.id).flatMap Prod.snd)) (m : Metrics) :
    Checked.Ok (rows.foldlM (metricsStep R findingsById) m) := by
  induction rows generalizing m with
  | nil => exact Checked.ok_pure m
  | cons row rows ih =>
    obtain ⟨hrow, hrows⟩ := List.forall_mem_cons.mp h
    rw [List.foldlM_cons]
    obtain ⟨m₁, hm₁⟩ : Checked.Ok (metricsStep R findingsById m row) := by
      unfold metricsStep
      split_ifs with htrap
      · exact Checked.ok_pure _
      · unfold countRow
        obtain ⟨m₁, hm₁⟩ := countChars_ok (R := R)
          { m with labeled := m.labeled + 1, fp := m.fp + (extraSpans row (findingsById row.id)).length } (hrow htrap)
        refine Checked.ok_bind.mpr ⟨m₁, hm₁, ?_⟩
        split_ifs <;> exact Checked.ok_pure _
    exact Checked.ok_bind.mpr ⟨m₁, hm₁, ih hrows m₁⟩

end Step

/-- **The report and its list of errors agree.**  The report is made whenever the findings lie inside the texts.  Then
every row is counted once; of the values of each class but `TP`, the list has as many errors as the report has values,
in all and for any set of types; it has as many false alarms as the report; the masked characters are those of the
expected values and the others; and the list is empty exactly when the report has nothing but `TP`. -/
theorem report_agrees (R : Runtime) (rows : List GoldRow) (findingsById : Str → List Finding) :
    ((∀ row ∈ rows, row.trap ≠ none → SpansIn row.text ((findingsById row.id).flatMap Prod.snd)) →
      ∃ m, computeMetrics R rows findingsById = .ok m) ∧
    ∀ m, computeMetrics R rows findingsById = .ok m →
      let errors := collectErrors R rows findingsById
      (m.labeled + m.skipped = rows.length ∧ m.traps + m.pdTexts = m.labeled ∧ m.trapFp ≤ m.traps ∧
        m.fnText + m.perfectText ≤ m.pdTexts) ∧
      (∀ c kind, c ≠ .notInText → kindOf c = some kind →
        errors.countP (fun e => e.kind = kind) = m.classes c ∧
        ∀ p : Str → Bool, errors.countP (fun e => e.kind = kind ∧ p e.pdType = true) = typeSum p c m.byType) ∧
      errors.countP (fun e => e.kind = .notInText) = m.notInText ∧
      errors.countP (fun e => e.kind = .fpValue ∨ e.kind = .trapFp) = m.fp ∧
      m.expectedMasked + m.overmask = m.maskedChars ∧ m.expectedMasked ≤ m.expectedChars ∧
      (errors = [] ↔ m.fp = 0 ∧ m.notInText = 0 ∧ ∀ c ≠ .notInText, c ≠ .tp → m.classes c = 0) := by
  refine ⟨fun h => computeMetrics_ok h .zero, ?_⟩
  intro m hm errors
  have h := metricsAgree_foldl (metricsAgree_zero R findingsById) hm
  rw [List.nil_append] at h
  have hkinds : ∀ c kind, c ≠ .notInText → kindOf c = some kind →
      errors.countP (fun e => e.kind = kind) = m.classes c := by
    intro c kind hc hkind
    have hall := h.values (fun _ => true) c kind hc hkind
    simp only [and_true] at hall
    rw [h.classes c hc, ← hall]
  refine ⟨⟨h.rows_eq, h.labeled_eq, h.trapFp_le, h.texts_le⟩,
    fun c kind hc hkind => ⟨hkinds c kind hc hkind, fun p => h.values p c kind hc hkind⟩,
    h.notInText, h.fp, h.masked, h.chars_le, ?_⟩
  constructor
  · intro hnil
    have hzero : ∀ p : ErrorRow → Bool, errors.countP p = 0 := by
      intro p
      rw [hnil]
      rfl
    refine ⟨h.fp.symm.trans (hzero _), h.notInText.symm.trans (hzero _), ?_⟩
    intro c hc htp
    obtain ⟨kind, hkind⟩ := exists_kindOf hc htp
    exact (hkinds c kind hc hkind).symm.trans (hzero _)
  · rintro ⟨hfp, hnot, hclasses⟩
    refine List.eq_nil_iff_forall_not_mem.mpr ?_
    intro e he
    have hpos : ∀ p : ErrorRow → Bool, p e = true → errors.countP p ≠ 0 :=
      fun p hp => (List.countP_pos_iff.mpr ⟨e, he, hp⟩).ne'
    have hvalue : ∀ c, c ≠ .notInText → c ≠ .tp → kindOf c ≠ some e.kind := by
      intro c hc htp hkind
      exact hpos _ (decide_eq_true rfl) ((hkinds c e.kind hc hkind).trans (hclasses c hc htp))
    cases hkind : e.kind with
    | fnValue => exact hvalue .fn (by decide) (by decide) (congrArg some hkind.symm)
    | partial_ => exact hvalue .partial_ (by decide) (by decide) (congrArg some hkind.symm)
    | wrongType => exact hvalue .wrongType (by decide) (by decide) (congrArg some hkind.symm)
    | notInText => exact hpos _ (decide_eq_true hkind) (h.notInText.trans hnot)
    | fpValue => exact hpos _ (decide_eq_true (Or.inl hkind)) (h.fp.trans hfp)
    | trapFp => exact hpos _ (decide_eq_true (Or.inr hkind)) (h.fp.trans hfp)

end PdMasking
