import Mathlib.Data.List.Nodup
import PdMasking.Config

/-!
# PdMasking.CharMask — which positions a character mask hides

* `InText`: the parts of an entity are disjoint and its hull lies inside the text.
* `alnumOf`: the positions of the letters and digits of all parts, counted together.
* `Hidden`: which of them are overwritten under a rule.
* `chars_exact`: what `_chars` returns, position by position.
* `mask_exact`: what `mask` returns, position by position, when every strategy works on characters.
-/

namespace PdMasking

/-- The parts do not overlap each other and the hull lies inside the text. -/
structure InText (text : Str) (e : Entity) : Prop where
  disjoint : e.parts.Pairwise (fun p q => p.2 ≤ q.1)
  inside : e.stop ≤ text.length

variable {R : Runtime} {text : Str}

/-! ### The positions of a value -/

section Positions

/-- All positions of the parts. -/
def partPositions (e : Entity) : List ℕ := e.parts.flatMap (fun p => List.range' p.1 (p.2 - p.1))

variable (R text) in
/-- The positions `p0 < p1 < …` of the letters and digits of the parts. -/
def alnumOf (e : Entity) : List ℕ := (partPositions e).filter (fun i => text[i]?.any R.isalnum)

theorem mem_partPositions {e : Entity} {i : ℕ} : i ∈ partPositions e ↔ ∃ p ∈ e.parts, p.1 ≤ i ∧ i < p.2 := by
  unfold partPositions
  simp only [List.mem_flatMap, List.mem_range'_1]
  constructor
  · rintro ⟨p, hp, h1, h2⟩
    exact ⟨p, hp, h1, by omega⟩
  · rintro ⟨p, hp, h1, h2⟩
    exact ⟨p, hp, h1, by omega⟩

theorem mem_alnumOf {e : Entity} {i : ℕ} : i ∈ alnumOf R text e ↔
    (∃ p ∈ e.parts, p.1 ≤ i ∧ i < p.2) ∧ ∃ c, text[i]? = some c ∧ R.isalnum c = true := by
  unfold alnumOf
  rw [List.mem_filter, mem_partPositions, Option.any_eq_true]

/-- Every part ends inside the hull. -/
theorem InText.part_le_stop {e : Entity} (h : InText text e) {p : ℕ × ℕ} (hp : p ∈ e.parts) : p.2 ≤ e.stop := by
  have hsplit := List.dropLast_append_getLast e.parts_ne
  have hdisjoint := h.disjoint
  have hlast := e.parts_pos _ (List.getLast_mem e.parts_ne)
  rw [← hsplit, List.pairwise_append] at hdisjoint
  rw [← hsplit] at hp
  unfold Entity.stop
  rcases List.mem_append.mp hp with hp | hp
  · have hle := hdisjoint.2.2 p hp _ (List.mem_singleton_self _)
    omega
  · rw [List.mem_singleton.mp hp]

theorem InText.hull {e : Entity} (h : InText text e) {i : ℕ} (hi : i ∈ partPositions e) :
    e.start ≤ i ∧ i < e.stop := by
  obtain ⟨p, hp, h1, h2⟩ := mem_partPositions.mp hi
  have hstart := e.start_le_part hp
  have hstop := h.part_le_stop hp
  omega

theorem alnumOf_hull {e : Entity} (h : InText text e) {i : ℕ} (hi : i ∈ alnumOf R text e) :
    e.start ≤ i ∧ i < e.stop :=
  h.hull (List.mem_of_mem_filter hi)

/-- The positions increase. -/
theorem sorted_alnumOf {e : Entity} (h : InText text e) : (alnumOf R text e).Pairwise (· < ·) := by
  refine List.Pairwise.filter _ ?_
  unfold partPositions
  rw [List.pairwise_flatMap]
  refine ⟨?_, ?_⟩
  · intro p _
    exact List.pairwise_lt_range'
  · refine h.disjoint.imp ?_
    intro p q hpq i hi j hj
    rw [List.mem_range'_1] at hi hj
    omega

end Positions

/-! ### The loops of `_chars` -/

section Loops

/-- **The loop over the positions**: position number `idx + j` is overwritten unless it is kept. -/
theorem hidePositions_exact (char : Char) (keepStart keepEnd n : ℕ) : ∀ {positions : List ℕ} (idx : ℕ)
    {chars : Str}, positions.Nodup → (∀ p ∈ positions, p < chars.length) →
    ∃ out, Masker.hidePositions char keepStart keepEnd n idx positions chars = .ok out ∧
      out.length = chars.length ∧
      (∀ j p, positions[j]? = some p →
        out[p]? = if idx + j < keepStart ∨ n - keepEnd ≤ idx + j then chars[p]? else some char) ∧
      ∀ p, p ∉ positions → out[p]? = chars[p]?
  | [], idx, chars, _, _ => ⟨chars, rfl, rfl, by simp, fun _ _ => rfl⟩
  | pos :: positions, idx, chars, hnd, hlt => by
    rw [List.nodup_cons] at hnd
    rw [List.forall_mem_cons] at hlt
    rw [Masker.hidePositions]
    split_ifs with hkeep
    · obtain ⟨out, hout, hlen, hpos, hother⟩ := hidePositions_exact char keepStart keepEnd n (idx + 1) hnd.2 hlt.2
      refine ⟨out, hout, hlen, ?_, ?_⟩
      · intro j p hj
        rcases j with _ | j
        · obtain rfl : pos = p := by simpa using hj
          rw [if_pos (by simpa using hkeep)]
          exact hother pos hnd.1
        · have hj' : positions[j]? = some p := by simpa using hj
          rw [hpos j p hj', show idx + 1 + j = idx + (j + 1) by omega]
      · intro p hp
        rw [List.mem_cons, not_or] at hp
        exact hother p hp.2
    · have hlt' : ∀ p ∈ positions, p < (chars.set pos char).length := by
        intro p hp
        rw [List.length_set]
        exact hlt.2 p hp
      obtain ⟨out, hout, hlen, hpos, hother⟩ := hidePositions_exact char keepStart keepEnd n (idx + 1) hnd.2 hlt'
      refine ⟨out, hout, hlen.trans List.length_set, ?_, ?_⟩
      · intro j p hj
        rcases j with _ | j
        · obtain rfl : pos = p := by simpa using hj
          rw [if_neg (by simpa using hkeep), hother pos hnd.1, List.getElem?_set_self hlt.1]
        · have hj' : positions[j]? = some p := by simpa using hj
          have hne : pos ≠ p := by
            rintro rfl
            exact hnd.1 (List.mem_of_getElem? hj')
          rw [hpos j p hj', List.getElem?_set_ne hne, show idx + 1 + j = idx + (j + 1) by omega]
      · intro p hp
        rw [List.mem_cons, not_or] at hp
        rw [hother p hp.2, List.getElem?_set_ne (Ne.symm hp.1)]
    · exact absurd hlt.1 (by assumption)

end Loops

/-! ### The mask of one entity -/

section Entity

/-- Letter or digit number `j` of `n` is overwritten. -/
def Hidden (rule : MaskRule) (n j : ℕ) : Prop :=
  rule.strategy ≠ .partial_ ∨ n ≤ rule.keepStart + rule.keepEnd ∨ (rule.keepStart ≤ j ∧ j < n - rule.keepEnd)

instance (rule : MaskRule) (n j : ℕ) : Decidable (Hidden rule n j) := inferInstanceAs (Decidable (_ ∨ _))

/-- The numbers of kept letters and digits at the two ends that `_chars` settles on. -/
def kept (rule : MaskRule) (n : ℕ) : ℕ × ℕ :=
  let kept := if rule.strategy = .partial_ then (rule.keepStart, rule.keepEnd) else (0, 0)
  if n ≤ kept.1 + kept.2 then (0, 0) else kept

theorem kept_iff_not_hidden {rule : MaskRule} {n j : ℕ} (hj : j < n) :
    (j < (kept rule n).1 ∨ n - (kept rule n).2 ≤ j) ↔ ¬ Hidden rule n j := by
  unfold Hidden kept
  by_cases hs : rule.strategy = .partial_
  · by_cases hn : n ≤ rule.keepStart + rule.keepEnd
    · simp [hs, hn]
      omega
    · simp [hs, hn]
      omega
  · simp [hs]
    omega

theorem chars_eq {e : Entity} (h : InText text e) (rule : MaskRule) : Masker.chars R text e rule =
    Masker.hidePositions rule.char (kept rule (alnumOf R text e).length).1
      (kept rule (alnumOf R text e).length).2 (alnumOf R text e).length 0
      ((alnumOf R text e).map (fun i => i - e.start)) (slice text e.start e.stop) := by
  have hinside : ∀ i ∈ partPositions e, i < text.length := by
    intro i hi
    have hhull := h.hull hi
    have hstop := h.inside
    omega
  have hlen : (alnumOf R text e).length = ((alnumOf R text e).map (fun i => i - e.start)).length :=
    (List.length_map _).symm
  rw [hlen]
  unfold Masker.chars
  show (Masker.alnumPositions R text e.start (partPositions e) >>= _) = _
  rw [Masker.alnumPositions_eq, if_pos hinside]
  rfl

/-- **The character mask of one entity**: it has the length of the hull, overwrites the hidden letters and
digits and nothing else. -/
theorem chars_exact {e : Entity} (h : InText text e) (rule : MaskRule) :
    ∃ out, Masker.chars R text e rule = .ok out ∧ out.length = e.stop - e.start ∧
      (∀ j p, (alnumOf R text e)[j]? = some p → out[p - e.start]? =
        if Hidden rule (alnumOf R text e).length j then some rule.char else text[p]?) ∧
      ∀ i, e.start ≤ i → i < e.stop → i ∉ alnumOf R text e → out[i - e.start]? = text[i]? := by
  have hspan : ∀ i, e.start ≤ i → i < e.stop → (slice text e.start e.stop)[i - e.start]? = text[i]? := by
    intro i h1 h2
    rw [getElem?_slice (by omega), show e.start + (i - e.start) = i by omega]
  have hnd : ((alnumOf R text e).map (fun i => i - e.start)).Nodup := by
    refine List.Nodup.map_on ?_ ((sorted_alnumOf h).imp ne_of_lt)
    intro i hi j hj heq
    have h1 := alnumOf_hull h hi
    have h2 := alnumOf_hull h hj
    omega
  have hlt : ∀ p ∈ (alnumOf R text e).map (fun i => i - e.start), p < (slice text e.start e.stop).length := by
    intro p hp
    obtain ⟨i, hi, rfl⟩ := List.mem_map.mp hp
    have h1 := alnumOf_hull h hi
    rw [length_slice h.inside]
    omega
  obtain ⟨out, hout, hlen, hpos, hother⟩ := hidePositions_exact rule.char (kept rule (alnumOf R text e).length).1
    (kept rule (alnumOf R text e).length).2 (alnumOf R text e).length 0 hnd hlt
  refine ⟨out, (chars_eq h rule).trans hout, hlen.trans (length_slice h.inside), ?_, ?_⟩
  · intro j p hj
    have hmem := alnumOf_hull h (List.mem_of_getElem? hj)
    have hlt : j < (alnumOf R text e).length := (List.getElem?_eq_some_iff.mp hj).1
    have hj' : ((alnumOf R text e).map (fun i => i - e.start))[j]? = some (p - e.start) := by
      rw [List.getElem?_map, hj]
      rfl
    rw [hpos j (p - e.start) hj', hspan p hmem.1 hmem.2, Nat.zero_add]
    by_cases hh : Hidden rule (alnumOf R text e).length j
    · rw [if_pos hh, if_neg (fun hk => (kept_iff_not_hidden hlt).mp hk hh)]
    · rw [if_neg hh, if_pos ((kept_iff_not_hidden hlt).mpr hh)]
  · intro i h1 h2 hi
    rw [hother (i - e.start) ?_, hspan i h1 h2]
    intro hmem
    obtain ⟨p, hp, heq⟩ := List.mem_map.mp hmem
    have hhull := alnumOf_hull h hp
    obtain rfl : p = i := by omega
    exact hi hp

end Entity

/-! ### The masked text -/

section Mask

variable {K : Masker} {rules : PDType → Option MaskRule}

variable (rules) in
/-- `rules.get(entity.pd_type, DEFAULT_RULE)`. -/
def ruleOf (e : Entity) : MaskRule := (rules e.pdType).getD defaultRule

/-- The strategy ends in the character mask on this entity. -/
def CharWise (text : Str) (e : Entity) (rule : MaskRule) : Prop :=
  rule.strategy = .full ∨ rule.strategy = .partial_ ∨
    (rule.strategy = .initials ∧ letterRuns (slice text e.start e.stop) = []) ∨
    (rule.strategy = .email ∧ '@' ∉ slice text e.start e.stop)

theorem apply_of_charWise {e : Entity} {rule : MaskRule} (h : CharWise text e rule) :
    Masker.apply R K text e rule = Masker.chars R text e rule := by
  unfold Masker.apply
  rcases h with h | h | ⟨h, hspan⟩ | ⟨h, hspan⟩
  · rw [h]
  · rw [h]
  · rw [h]
    simp [hspan]
  · rw [h]
    simp [hspan]

variable (R text rules) in
/-- `out` is the text with the hidden letters and digits of the entities overwritten, and no other change. -/
structure Hides (es : List Entity) (out : Str) : Prop where
  length_eq : out.length = text.length
  on_alnum : ∀ e ∈ es, ∀ j p, (alnumOf R text e)[j]? = some p → out[p]? =
    if Hidden (ruleOf rules e) (alnumOf R text e).length j then some (ruleOf rules e).char else text[p]?
  elsewhere : ∀ p, (∀ e ∈ es, p ∉ alnumOf R text e) → out[p]? = text[p]?

/-- Splicing in one more mask. -/
theorem Hides.cons {e : Entity} {es : List Entity} {mask tail : Str} (he : InText text e)
    (hlen : mask.length = e.stop - e.start) (hes : ∀ e' ∈ es, InText text e' ∧ e.stop ≤ e'.start)
    (hmask : ∀ j p, (alnumOf R text e)[j]? = some p → mask[p - e.start]? =
      if Hidden (ruleOf rules e) (alnumOf R text e).length j then some (ruleOf rules e).char else text[p]?)
    (hrest : ∀ i, e.start ≤ i → i < e.stop → i ∉ alnumOf R text e → mask[i - e.start]? = text[i]?)
    (h : Hides R text rules es (text.take e.stop ++ tail)) :
    Hides R text rules (e :: es) (text.take e.start ++ mask ++ tail) := by
  have hhull := e.start_lt_stop
  have hstop := he.inside
  have hpre : (text.take e.start ++ mask).length = e.stop := by
    rw [List.length_append, List.length_take, hlen]
    omega
  have hinside : ∀ i, e.start ≤ i → i < e.stop → (text.take e.start ++ mask ++ tail)[i]? = mask[i - e.start]? := by
    intro i h1 h2
    have hlen' : (text.take e.start).length = e.start := by
      rw [List.length_take]
      omega
    rw [List.getElem?_append_left (by omega), List.getElem?_append_right (by omega), hlen']
  have houtside : ∀ i, i < e.start ∨ e.stop ≤ i →
      (text.take e.start ++ mask ++ tail)[i]? = (text.take e.stop ++ tail)[i]? := by
    rintro i (hi | hi)
    · rw [List.append_assoc, List.getElem?_append_left (by rw [List.length_take]; omega),
        List.getElem?_append_left (by rw [List.length_take]; omega), List.getElem?_take_of_lt hi,
        List.getElem?_take_of_lt (by omega)]
    · have hlen' : (text.take e.stop).length = e.stop := by
        rw [List.length_take]
        omega
      rw [List.getElem?_append_right (by omega), List.getElem?_append_right (by omega), hpre, hlen']
  refine ⟨?_, ?_, ?_⟩
  · have htail := h.length_eq
    rw [List.length_append, List.length_take] at htail
    rw [List.length_append, hpre]
    omega
  · intro e' he' j p hp
    rcases List.mem_cons.mp he' with rfl | he'
    · obtain ⟨h1, h2⟩ := alnumOf_hull he (List.mem_of_getElem? hp)
      rw [hinside p h1 h2]
      exact hmask j p hp
    · obtain ⟨hin, hafter⟩ := hes e' he'
      obtain ⟨h1, -⟩ := alnumOf_hull hin (List.mem_of_getElem? hp)
      rw [houtside p (Or.inr (by omega))]
      exact h.on_alnum e' he' j p hp
  · intro p hp
    rw [List.forall_mem_cons] at hp
    by_cases hin : e.start ≤ p ∧ p < e.stop
    · rw [hinside p hin.1 hin.2]
      exact hrest p hin.1 hin.2 hp.1
    · rw [houtside p (by omega)]
      exact h.elsewhere p hp.2

/-- One round of the loop of `mask` that masks. -/
theorem maskFrom_of_apply {e : Entity} {es : List Entity} {pos : ℕ} {mask : Str}
    (h : Masker.apply R K text e (ruleOf rules e) = .ok mask) :
    Masker.maskFrom R K text rules pos (e :: es) =
      (Masker.maskFrom R K text rules e.stop es).map (fun rest =>
        ⟨slice text pos e.start ++ mask ++ rest.text, (mask, slice text e.start e.stop) :: rest.fragments⟩) := by
  rw [Masker.maskFrom]
  show (Masker.apply R K text e (ruleOf rules e) >>= _) = _
  rw [h]
  rfl

/-- The loop of `mask`, with the text it has passed put in front. -/
theorem maskFrom_exact : ∀ {es : List Entity} {pos : ℕ}, pos ≤ text.length → es.Pairwise Before →
    (∀ e ∈ es, pos ≤ e.start) → (∀ e ∈ es, InText text e ∧ CharWise text e (ruleOf rules e)) →
    ∃ m, Masker.maskFrom R K text rules pos es = .ok m ∧ Hides R text rules es (text.take pos ++ m.text)
  | [], pos, _, _, _, _ => by
    refine ⟨⟨text.drop pos, []⟩, rfl, ?_⟩
    rw [List.take_append_drop]
    exact ⟨rfl, fun e he => absurd he List.not_mem_nil, fun _ _ => rfl⟩
  | e :: es, pos, hpos, hpw, hfrom, hes => by
    rw [List.pairwise_cons] at hpw
    rw [List.forall_mem_cons] at hes hfrom
    obtain ⟨⟨he, hwise⟩, hes⟩ := hes
    obtain ⟨m, hm, hides⟩ := maskFrom_exact he.inside hpw.2 hpw.1 hes
    obtain ⟨mask, hmask, hlen, halnum, hrest⟩ := chars_exact (R := R) he (ruleOf rules e)
    rw [← apply_of_charWise (K := K) hwise] at hmask
    refine ⟨⟨slice text pos e.start ++ mask ++ m.text, (mask, slice text e.start e.stop) :: m.fragments⟩, ?_, ?_⟩
    · rw [maskFrom_of_apply hmask, hm]
      rfl
    · show Hides R text rules (e :: es) (text.take pos ++ (slice text pos e.start ++ mask ++ m.text))
      rw [← List.append_assoc, ← List.append_assoc, take_append_slice hfrom.1]
      exact Hides.cons he hlen (fun e' he' => ⟨(hes e' he').1, hpw.1 e' he'⟩) halnum hrest hides

/-- **Character masks hide exactly the right positions.**  When every strategy ends in the character mask, the
masked text is the text with the hidden letters and digits overwritten and no other change; unless a rule is
`partial`, no letter or digit of a part survives. -/
theorem mask_exact (R : Runtime) (K : Masker) (text : Str) (es : List Entity) (rules : PDType → Option MaskRule)
    (hpw : es.Pairwise Before) (hes : ∀ e ∈ es, InText text e)
    (hwise : ∀ e ∈ es, CharWise text e (ruleOf rules e)) :
    ∃ m, Masker.mask R K text es rules = .ok m ∧ m.text.length = text.length ∧
      (∀ e ∈ es, ∀ j p, (alnumOf R text e)[j]? = some p → m.text[p]? =
        if Hidden (ruleOf rules e) (alnumOf R text e).length j then some (ruleOf rules e).char else text[p]?) ∧
      (∀ p, (∀ e ∈ es, p ∉ alnumOf R text e) → m.text[p]? = text[p]?) ∧
      ∀ e ∈ es, (ruleOf rules e).strategy ≠ .partial_ → ∀ part ∈ e.parts, ∀ p, part.1 ≤ p → p < part.2 →
        ∀ c, text[p]? = some c → R.isalnum c = true → m.text[p]? = some (ruleOf rules e).char := by
  obtain ⟨m, hm, hides⟩ := maskFrom_exact (R := R) (K := K) (Nat.zero_le text.length) hpw
    (fun e _ => Nat.zero_le e.start) (fun e he => ⟨hes e he, hwise e he⟩)
  rw [List.take_zero, List.nil_append] at hides
  refine ⟨m, hm, hides.length_eq, hides.on_alnum, hides.elsewhere, ?_⟩
  intro e he hstrategy part hpart p h1 h2 c hc halnum
  have hmem : p ∈ alnumOf R text e := mem_alnumOf.mpr ⟨⟨part, hpart, h1, h2⟩, c, hc, halnum⟩
  obtain ⟨j, hj⟩ := List.getElem?_of_mem hmem
  have hhidden : Hidden (ruleOf rules e) (alnumOf R text e).length j := Or.inl hstrategy
  rw [hides.on_alnum e he j p hj, if_pos hhidden]

/-- A passport number whose two parts stand around a word. -/
def passportText : Str := "4509 номер 123456".toList

def samplePassport : Entity := ⟨.passport, [(0, 4), (11, 17)], 60, ∅, by decide, by decide, by decide⟩

/-- The digits of both parts are counted together. -/
def samplePartial : MaskRule := ⟨.partial_, 2, 2, '*'⟩

theorem mask_exact_passport :
    ∃ m, Masker.mask Runtime.basic sampleMasker passportText [samplePassport] (fun _ => some samplePartial) = .ok m ∧
      m.text.length = passportText.length := by
  obtain ⟨m, hm, hlen, -⟩ := mask_exact Runtime.basic sampleMasker passportText [samplePassport]
    (fun _ => some samplePartial) (List.pairwise_singleton _ _)
    (fun e he => by
      obtain rfl := List.mem_singleton.mp he
      exact ⟨by decide, by decide⟩)
    (fun e _ => Or.inr (Or.inl rfl))
  exact ⟨m, hm, hlen⟩

example : (Masker.mask Runtime.basic sampleMasker passportText [samplePassport]
    (fun _ => some samplePartial)).map MaskResult.text = .ok "45** номер ****56".toList := rfl

end Mask

end PdMasking
