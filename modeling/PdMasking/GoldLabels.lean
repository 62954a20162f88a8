import PdMasking.Detectors.Base
import PdMasking.EvalGold
import PdMasking.Lib.Split

/-!
# PdMasking.GoldLabels — the labels of the quality report (`scripts/make_gold_template.py`, `scripts/eval_gold.py`)

The draft of a labelling writes the findings of a text as `type::value || type::value`; the report reads the column
back.  The separator is not escaped: a value may have half of it at an end, or the inner `::`.

* `map_strip_split`: cut at `||` and stripped, the written labels come back.
* `parseExpected_expectedFromFindings`: what is written is read.
* `labelable_of_mem_parseExpected`: what is read could have been written.
-/

namespace PdMasking

open TextSearch

/-! ### Writing and reading -/

/-- A bound of a slice: a negative one counts from the end. -/
def sliceIndex (n : ℕ) (i : ℤ) : ℕ := if i < 0 then (i + n).toNat else i.toNat

/-- `text[s:e]`. -/
def spanText (text : Str) (span : ℤ × ℤ) : Str :=
  slice text (sliceIndex text.length span.1) (sliceIndex text.length span.2)

/-- The types and values of the findings, part by part. -/
def partsOf (text : Str) (findings : List Finding) : List (Str × Str) :=
  findings.flatMap (fun f => f.2.map (fun span => (f.1, spanText text span)))

/-- `f"{pd_type}::{text[s:e]}"`. -/
def writeLabel (part : Str × Str) : Str := part.1 ++ "::".toList ++ part.2

/-- `expected_from_findings`. -/
def expectedFromFindings (text : Str) (findings : List Finding) : Str :=
  " || ".toList.intercalate ((partsOf text findings).map writeLabel)

section Reading

variable (R : Runtime)

/-- The loop body of `parse_expected`. -/
def parseItem (item : Str) : Option (Str × Str) :=
  let (pdType, sep, value) := partition "::".toList (strip R item)
  if sep ≠ [] ∧ strip R value ≠ [] then some (strip R pdType, strip R value) else none

/-- `parse_expected`. -/
def parseExpected (raw : Str) : List (Str × Str) := (split "||".toList raw).filterMap (parseItem R)

/-- A value that can be written as a label. -/
structure Labelable (value : Str) : Prop where
  nonempty : value ≠ []
  trimmed : strip R value = value
  apart : ¬ "||".toList <:+: value

end Reading

/-! ### The labels come back -/

section Labels

variable {R : Runtime}

/-- The names of the types are made of letters and `_`. -/
theorem value_spec (t : PDType) : t.value ≠ [] ∧ ∀ c ∈ t.value, c ≠ ':' ∧ c ≠ '|' ∧ R.isspace c = false := by
  have hall : t.value ≠ [] ∧ t.value.all (fun c => decide (c ≠ ':') && decide (c ≠ '|') && decide (c.toNat < 128) &&
      !spaceAscii c) = true := by
    cases t <;> decide
  refine ⟨hall.1, ?_⟩
  intro c hc
  have hchar := List.all_eq_true.mp hall.2 c hc
  simp only [Bool.and_eq_true, decide_eq_true_eq, Bool.not_eq_true'] at hchar
  obtain ⟨⟨⟨hcolon, hbar⟩, hascii⟩, hspace⟩ := hchar
  exact ⟨hcolon, hbar, (R.isspace_ascii c hascii).trans hspace⟩

/-- A written label is stripped and has no separator in it, either. -/
theorem labelable_writeLabel {t : PDType} {value : Str} (h : Labelable R value) :
    Labelable R (writeLabel (t.value, value)) := by
  obtain ⟨hne, hchars⟩ := value_spec (R := R) t
  refine ⟨?_, strip_eq_self_iff.mpr ⟨?_, ?_⟩, ?_⟩
  · simp [writeLabel]
  · intro c hc
    rw [writeLabel, List.append_assoc, List.head?_append_of_ne_nil _ hne] at hc
    exact (hchars c (List.mem_of_mem_head? hc)).2.2
  · intro c hc
    rw [writeLabel, List.getLast?_append_of_ne_nil _ h.nonempty] at hc
    exact (strip_eq_self_iff.mp h.trimmed).2 c hc
  · refine not_infix_append_of_not_mem (by decide) h.apart ?_
    intro c hc
    rcases List.mem_append.mp hc with hname | hcolon
    · have hbar := (hchars c hname).2.1
      simpa using hbar
    · rcases List.mem_cons.mp hcolon with rfl | hcolon
      · decide
      · obtain rfl := List.mem_singleton.mp hcolon
        decide

/-- A written label is read. -/
theorem parseItem_writeLabel {t : PDType} {value item : Str} (h : Labelable R value)
    (hitem : strip R item = writeLabel (t.value, value)) : parseItem R item = some (t.value, value) := by
  obtain ⟨hne, hchars⟩ := value_spec (R := R) t
  have hoff : SplitsOff "::".toList t.value := by
    refine splitsOff_of_not_mem (by decide) ?_
    intro c hc
    have hcolon := (hchars c hc).1
    simpa using hcolon
  have hname : strip R t.value = t.value := by
    refine strip_eq_self_iff.mpr ⟨?_, ?_⟩
    · exact fun c hc => (hchars c (List.mem_of_mem_head? hc)).2.2
    · exact fun c hc => (hchars c (List.mem_of_mem_getLast? hc)).2.2
  unfold parseItem
  rw [hitem, writeLabel, partition_append_sep (by decide) hoff]
  dsimp only
  rw [h.trimmed, hname, if_pos ⟨by decide, h.nonempty⟩]

/-- **Cut at `||` and stripped**, the labels that were joined come back. -/
theorem map_strip_split : ∀ {items : List Str}, items ≠ [] → (∀ x ∈ items, Labelable R x) → ∀ {pad : Str},
    (∀ c ∈ pad, c = ' ') → (split "||".toList (pad ++ " || ".toList.intercalate items)).map (strip R) = items
  | [], hne, _, _, _ => absurd rfl hne
  | x :: rest, _, hitems, pad, hpad => by
    rw [List.forall_mem_cons] at hitems
    obtain ⟨hx, hrest⟩ := hitems
    have hspaces : ∀ c ∈ pad, R.isspace c = true := by
      intro c hc
      rw [hpad c hc]
      exact R.isspace_ascii ' ' (by decide)
    have hpiece : ¬ "||".toList <:+: pad ++ x := by
      refine not_infix_append_of_not_mem (by decide) hx.apart ?_
      intro c hc
      rw [hpad c hc]
      decide
    cases rest with
    | nil =>
      rw [List.intercalate_singleton, split_eq_singleton hpiece, List.map_singleton]
      have hstrip := strip_padded hx.trimmed hx.nonempty hspaces (w := []) nofun
      rw [List.append_nil] at hstrip
      rw [hstrip]
    | cons y rest =>
      -- the blank of the separator keeps a bar at the end of the value apart
      have hoff : SplitsOff "||".toList (pad ++ x ++ [' ']) := splitsOff_concat hpiece (by decide)
      have hjoin : pad ++ " || ".toList.intercalate (x :: y :: rest) =
          (pad ++ x ++ [' ']) ++ "||".toList ++ ([' '] ++ " || ".toList.intercalate (y :: rest)) := by
        rw [List.intercalate_cons_cons]
        simp
      have hblank : ∀ c ∈ [' '], R.isspace c = true := by
        intro c hc
        rw [List.mem_singleton.mp hc]
        exact R.isspace_ascii ' ' (by decide)
      rw [hjoin, split_append_sep (by decide) hoff, List.map_cons, strip_padded hx.trimmed hx.nonempty hspaces hblank,
        map_strip_split (List.cons_ne_nil y rest) hrest (fun c hc => List.mem_singleton.mp hc)]

/-- Only what is left after stripping is looked at. -/
theorem parseItem_strip (item : Str) : parseItem R (strip R item) = parseItem R item := by
  unfold parseItem
  rw [strip_strip]

/-- The parts of the findings are what a label can be written of. -/
theorem labelable_of_mem_partsOf {text : Str} {findings : List Finding}
    (htypes : ∀ f ∈ findings, ∃ t : PDType, f.1 = t.value)
    (hvalues : ∀ f ∈ findings, ∀ span ∈ f.2, Labelable R (spanText text span)) {part : Str × Str}
    (hpart : part ∈ partsOf text findings) :
    ∃ (t : PDType) (value : Str), part = (t.value, value) ∧ Labelable R value := by
  obtain ⟨f, hf, hpart⟩ := List.mem_flatMap.mp hpart
  obtain ⟨span, hspan, rfl⟩ := List.mem_map.mp hpart
  obtain ⟨t, ht⟩ := htypes f hf
  exact ⟨t, spanText text span, by rw [ht], hvalues f hf span hspan⟩

/-- **What is written is read**: the types and values of all parts of all findings, in order. -/
theorem parseExpected_expectedFromFindings (R : Runtime) (text : Str) {findings : List Finding}
    (htypes : ∀ f ∈ findings, ∃ t : PDType, f.1 = t.value)
    (hvalues : ∀ f ∈ findings, ∀ span ∈ f.2, Labelable R (spanText text span)) :
    parseExpected R (expectedFromFindings text findings) = partsOf text findings := by
  have hparts : ∀ part ∈ partsOf text findings, ∃ (t : PDType) (value : Str), part = (t.value, value) ∧
      Labelable R value := fun part => labelable_of_mem_partsOf htypes hvalues
  unfold parseExpected expectedFromFindings
  generalize partsOf text findings = parts at hparts
  rcases eq_or_ne parts [] with rfl | hne
  · rfl
  have hlabels : ∀ x ∈ parts.map writeLabel, Labelable R x := by
    intro x hx
    obtain ⟨part, hpart, rfl⟩ := List.mem_map.mp hx
    obtain ⟨t, value, rfl, hvalue⟩ := hparts part hpart
    exact labelable_writeLabel hvalue
  have hpieces : (split "||".toList ([] ++ " || ".toList.intercalate (parts.map writeLabel))).map (strip R) =
      parts.map writeLabel := map_strip_split (mt List.map_eq_nil_iff.mp hne) hlabels nofun
  have hread : ∀ part ∈ parts, (parseItem R ∘ writeLabel) part = some part := by
    intro part hpart
    obtain ⟨t, value, rfl, hvalue⟩ := hparts part hpart
    exact parseItem_writeLabel hvalue (labelable_writeLabel hvalue).trimmed
  rw [List.nil_append] at hpieces
  calc (split "||".toList (" || ".toList.intercalate (parts.map writeLabel))).filterMap (parseItem R)
      = ((split "||".toList (" || ".toList.intercalate (parts.map writeLabel))).map (strip R)).filterMap
          (parseItem R) := by
        rw [List.filterMap_map]
        exact List.filterMap_congr (fun item _ => (parseItem_strip item).symm)
    _ = parts.filterMap (parseItem R ∘ writeLabel) := by rw [hpieces, List.filterMap_map]
    _ = parts := by rw [List.filterMap_congr hread, List.filterMap_some]

/-- Half of a separator at both ends, the inner separator and a line break in the values. -/
theorem parseExpected_expectedFromFindings_bars :
    parseExpected Runtime.basic (expectedFromFindings "|a::b|\nc |".toList
      [(PDType.passport.value, [(0, 6), (7, -2)]), (PDType.inn.value, [(5, 8)])]) =
      [(PDType.passport.value, "|a::b|".toList), (PDType.passport.value, "c".toList),
        (PDType.inn.value, "|\nc".toList)] := by
  refine (parseExpected_expectedFromFindings Runtime.basic "|a::b|\nc |".toList ?_ ?_).trans (by decide)
  · exact List.forall_mem_cons.mpr ⟨⟨.passport, rfl⟩, List.forall_mem_singleton.mpr ⟨.inn, rfl⟩⟩
  · refine List.forall_mem_cons.mpr ⟨List.forall_mem_cons.mpr ⟨?_, List.forall_mem_singleton.mpr ?_⟩,
      List.forall_mem_singleton.mpr (List.forall_mem_singleton.mpr ?_)⟩
    all_goals exact ⟨by decide, by decide, by decide⟩

/-- What is read could have been written. -/
theorem labelable_of_mem_parseExpected {raw : Str} {pdType value : Str} (h : (pdType, value) ∈ parseExpected R raw) :
    Labelable R value := by
  obtain ⟨item, hitem, hread⟩ := List.mem_filterMap.mp h
  have hapart : ¬ "||".toList <:+: item := not_infix_of_mem_split (by decide) hitem
  have hvalue := partition_value_infix "::".toList (strip R item)
  unfold parseItem at hread
  generalize partition "::".toList (strip R item) = cut at hread hvalue
  obtain ⟨name, sep, rest⟩ := cut
  simp only at hread hvalue
  split_ifs at hread with hkept
  obtain ⟨-, rfl⟩ := Prod.mk.inj (Option.some.inj hread)
  refine ⟨hkept.2, strip_strip, ?_⟩
  intro hbars
  exact hapart ((hbars.trans strip_infix).trans (hvalue.trans strip_infix))

end Labels

end PdMasking
