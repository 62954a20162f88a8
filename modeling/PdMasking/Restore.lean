import PdMasking.Config
import PdMasking.Unmask

/-!
# PdMasking.Restore — a text that quotes the masked text, unmasked fragment by fragment

Under the default rules a mask covers the letters and digits of its value and leaves everything else
(`chars_covers`), so the masked text covers the text and every pass of `unmask_fragments` keeps the length.

* `quote_restored`: a quotation of the masked text comes back as a quotation of the text when every search
  stops only at the places of its own fragment.
* `fragmentwise_restore_iff`: exactly when it does.
* `equal_masks_restored_wrongly`: it does not when two different values have the same mask.
-/

namespace PdMasking

open TextSearch Template Cover

/-! ### Character masks -/

section Chars

variable {R : Runtime} {text : Str}

/-- The positions are inside the text and hold letters or digits. -/
theorem alnumPositions_spec {base : ℕ} {is positions : List ℕ}
    (h : Masker.alnumPositions R text base is = .ok positions) : (∀ i ∈ is, i < text.length) ∧
      ∀ q ∈ positions, ∃ i ∈ is, q = i - base ∧ ∃ c, text[i]? = some c ∧ R.isalnum c = true := by
  obtain ⟨hin, rfl⟩ := (Masker.alnumPositions_eq_ok_iff R).mp h
  refine ⟨hin, ?_⟩
  intro q hq
  obtain ⟨i, hi, rfl⟩ := List.mem_map.mp hq
  obtain ⟨hmem, halnum⟩ := List.mem_filter.mp hi
  exact ⟨i, hmem, rfl, (Option.any_eq_true _ _).mp halnum⟩

/-- Only the given positions are overwritten. -/
theorem hidePositions_spec {char : Char} {keepStart keepEnd n : ℕ} : ∀ {positions : List ℕ} {idx : ℕ}
    {chars out : Str}, Masker.hidePositions char keepStart keepEnd n idx positions chars = .ok out →
      out.length = chars.length ∧ ∀ i : ℕ, out[i]? = chars[i]? ∨ (i ∈ positions ∧ out[i]? = some char)
  | [], idx, chars, out, h => by
    cases h
    exact ⟨rfl, fun _ => Or.inl rfl⟩
  | pos :: positions, idx, chars, out, h => by
    rw [Masker.hidePositions] at h
    split_ifs at h with hkeep hpos
    · obtain ⟨hlen, hspec⟩ := hidePositions_spec h
      refine ⟨hlen, ?_⟩
      intro i
      rcases hspec i with hsame | ⟨hi, hchar⟩
      · exact Or.inl hsame
      · exact Or.inr ⟨List.mem_cons_of_mem _ hi, hchar⟩
    · obtain ⟨hlen, hspec⟩ := hidePositions_spec h
      rw [List.length_set] at hlen
      refine ⟨hlen, ?_⟩
      intro i
      rcases hspec i with hsame | ⟨hi, hchar⟩
      · rw [hsame]
        by_cases hip : pos = i
        · subst hip
          refine Or.inr ⟨List.mem_cons_self, ?_⟩
          rw [List.getElem?_set_self hpos]
        · refine Or.inl ?_
          rw [List.getElem?_set_ne hip]
      · exact Or.inr ⟨List.mem_cons_of_mem _ hi, hchar⟩

/-- **A character mask covers the value**: it has its length, and differs from it only where it hides a
letter or a digit; the value is not empty. -/
theorem chars_covers {e : Entity} {rule : MaskRule} {m : Str} (hchar : R.isalnum rule.char = false)
    (h : Masker.chars R text e rule = .ok m) :
    Covers rule.char m (slice text e.start e.stop) ∧ slice text e.start e.stop ≠ [] := by
  unfold Masker.chars at h
  cases hpos : Masker.alnumPositions R text e.start
      (e.parts.flatMap (fun p => List.range' p.1 (p.2 - p.1))) with
  | error exc =>
    rw [hpos] at h
    cases h
  | ok positions =>
    rw [hpos] at h
    obtain ⟨hin, hspec⟩ := alnumPositions_spec hpos
    obtain ⟨hlen, hhide⟩ := hidePositions_spec h
    refine ⟨⟨hlen, ?_⟩, ?_⟩
    · intro q
      rcases hhide q with hsame | ⟨hq, hcov⟩
      · exact Or.inl hsame
      · refine Or.inr ⟨hcov, ?_⟩
        -- a hidden position holds a letter or a digit of the value
        obtain ⟨i, hi, rfl, c, hc, halnum⟩ := hspec q hq
        obtain ⟨part, hpart, hrange⟩ := List.mem_flatMap.mp hi
        have hstart := e.start_le_part hpart
        rw [List.mem_range'_1] at hrange
        have hlt : i - e.start < (slice text e.start e.stop).length := by
          by_contra hge
          rw [List.getElem?_eq_none (by omega)] at hcov
          cases hcov
        have hslice : (slice text e.start e.stop).length ≤ e.stop - e.start := by
          unfold slice
          rw [List.length_take]
          omega
        have hsum : e.start + (i - e.start) = i := by omega
        rw [getElem?_slice (by omega), hsum, hc]
        intro heq
        rw [Option.some.inj heq, hchar] at halnum
        cases halnum
    · -- the first character of the hull is inside the text
      have hfirst : e.start ∈ e.parts.flatMap (fun p => List.range' p.1 (p.2 - p.1)) := by
        have hhead := List.head_mem e.parts_ne
        have hlt := e.parts_pos _ hhead
        refine List.mem_flatMap.mpr ⟨_, hhead, ?_⟩
        rw [List.mem_range'_1]
        unfold Entity.start
        omega
      have hbound := hin _ hfirst
      have hhull := e.start_lt_stop
      intro hnil
      have hzero : (slice text e.start e.stop).length = 0 := by
        rw [hnil]
        rfl
      unfold slice at hzero
      rw [List.length_take, List.length_drop] at hzero
      omega

/-- `*` is neither a letter nor a digit. -/
theorem isalnum_star (R : Runtime) : R.isalnum '*' = false := by
  rw [R.isalnum_ascii (by decide)]
  decide

end Chars

/-! ### The masked text covers the text -/

section Full

variable {P : Processor} {X : Str} {policy : SystemPolicy} {o : ProcessOutcome} {record : MappingRecord}

/-- Every type is masked under the default rule: strategy `full`, mask char `*`. -/
def FullRules (rules : PDType → Option MaskRule) : Prop :=
  ∀ t, ((rules t).getD defaultRule).strategy = .full ∧ ((rules t).getD defaultRule).char = '*'

/-- Filling the slots with covered words covers the text. -/
theorem covers_render {κ α : Type*} {b : α} {v w : κ → List α} : ∀ {ps : List (Piece κ α)},
    (∀ k, .slot k ∈ ps → Covers b (v k) (w k)) → Covers b (render v ps) (render w ps)
  | [], _ => covers_refl b []
  | .plain s :: ps, h => by
    have hrest := covers_render (fun k hk => h k (List.mem_cons_of_mem _ hk))
    exact covers_append (covers_refl b s) hrest
  | .slot k :: ps, h => by
    have hrest := covers_render (fun k' hk' => h k' (List.mem_cons_of_mem _ hk'))
    exact covers_append (h k List.mem_cons_self) hrest

/-- Under the default rules every mask covers its value. -/
theorem fragment_covers (hrules : FullRules policy.rules) (hmask : P.mask X policy = .ok (o, record))
    {f : Str × Str} (hf : f ∈ record.fragments) : f.1 ≠ [] ∧ Covers '*' f.1 f.2 := by
  obtain ⟨m, hm, -, rfl⟩ := P.mask_inv hmask
  obtain ⟨e, -, ha, horig⟩ := fragment_spec hm hf
  obtain ⟨hstrategy, hchar⟩ := hrules e.pdType
  have hchars : Masker.chars P.runtime X e ((policy.rules e.pdType).getD defaultRule) = .ok f.1 := by
    unfold Masker.apply at ha
    rw [hstrategy] at ha
    exact ha
  have halnum : P.runtime.isalnum ((policy.rules e.pdType).getD defaultRule).char = false := by
    rw [hchar]
    exact isalnum_star P.runtime
  obtain ⟨hcov, hne⟩ := chars_covers halnum hchars
  rw [hchar, ← horig] at hcov
  rw [← horig] at hne
  refine ⟨?_, hcov⟩
  intro hnil
  have hlen := hcov.1
  rw [hnil] at hlen
  exact hne (List.eq_nil_of_length_eq_zero hlen.symm)

/-- The quotation of a masked text as a template. -/
def quote (p q : Str) (X : Str) (entities : List Entity) (fragments : List (Str × Str)) :
    List (Piece (Str × Str) Char) :=
  .plain p :: maskPieces X 0 entities fragments ++ [.plain q]

theorem render_quote (v : Str × Str → Str) (p q : Str) (entities : List Entity) (fragments : List (Str × Str)) :
    render v (quote p q X entities fragments) = p ++ render v (maskPieces X 0 entities fragments) ++ q := by
  unfold quote
  rw [render_append, render, render, render, List.append_nil]

/-- The quotation of the masked text and that of the text are one template. -/
theorem render_quote_record (hmask : P.mask X policy = .ok (o, record)) (p q : Str) :
    let pieces := quote p q X (P.engine.detect P.runtime X policy.pdTypes policy.combinations) record.fragments
    render Prod.fst pieces = p ++ record.masked ++ q ∧ render Prod.snd pieces = p ++ X ++ q ∧
      ∀ f, .slot f ∈ pieces ↔ f ∈ record.fragments := by
  obtain ⟨m, hm, -, rfl⟩ := P.mask_inv hmask
  have hchain := chain_detect P.runtime P.engine X policy.pdTypes policy.combinations
  obtain ⟨hfst, hsnd⟩ := render_maskPieces hchain hm
  rw [List.drop_zero] at hsnd
  refine ⟨?_, ?_, ?_⟩
  · rw [render_quote, hfst]
  · rw [render_quote, hsnd]
  · intro f
    rw [← slot_mem_iff hm]
    unfold quote
    simp

/-- A text that quotes a mask which is not its original holds the mask of a changed fragment. -/
theorem exists_occurs (hmask : P.mask X policy = .ok (o, record)) (hne : record.masked ≠ X) (p q : Str) :
    ∃ f ∈ record.fragments, Occurs (p ++ record.masked ++ q) f := by
  obtain ⟨hfst, hsnd, hslots⟩ := render_quote_record hmask p q
  by_contra hnone
  push Not at hnone
  -- no slot is changed by its mask, so the two texts are equal
  have hsame : p ++ record.masked ++ q = p ++ X ++ q := by
    rw [← hfst, ← hsnd]
    refine render_congr ?_
    intro f hf
    by_contra hchanged
    refine hnone f ((hslots f).mp hf) ⟨hchanged, ?_⟩
    rw [← hfst]
    exact infix_render_of_slot hf
  rw [List.append_left_inj, List.append_right_inj] at hsame
  exact hne hsame

end Full

/-! ### Quotations of the masked text -/

section Quotation

variable (P : Processor) {policy policy' : SystemPolicy} {X : Str} {o : ProcessOutcome} {record : MappingRecord}
  {s : MapStore} {id p q : Str}

/-- A quotation of the masked text is unmasked fragment by fragment. -/
theorem serve_quote (hmask : P.mask X policy = .ok (o, record)) (hne : record.masked ≠ X)
    (hallowed : policy'.unmaskAllowed) (hs : s id = some record) (hX : p ++ record.masked ++ q ≠ X)
    (hM : p ++ record.masked ++ q ≠ record.masked) :
    P.serve s ⟨id, p ++ record.masked ++ q, policy'⟩ =
      (.ok ⟨(unmaskFragments P.runtime (p ++ record.masked ++ q) record.fragments).1, .unmaskFragments, []⟩,
        s) := by
  have horiginal : record.original = X := (P.mask_spec hmask).2.1
  have hreplaced : (unmaskFragments P.runtime (p ++ record.masked ++ q) record.fragments).2 ≠ 0 := by
    rw [replaced_ne_zero_iff]
    exact exists_occurs hmask hne p q
  have hanswer : P.answer (p ++ record.masked ++ q) record policy' =
      .ok (⟨(unmaskFragments P.runtime (p ++ record.masked ++ q) record.fragments).1, .unmaskFragments, []⟩,
        none) := by
    rw [Processor.answer_fragments hM (by rw [horiginal]; exact hX) hreplaced, if_pos hallowed]
  rw [P.serve_some hs, hanswer]

/-- A quotation is restored when every search stops only at the places of its own fragment. -/
theorem quote_restored (hmask : P.mask X policy = .ok (o, record)) (hne : record.masked ≠ X)
    (hallowed : policy'.unmaskAllowed) (hs : s id = some record) (hX : p ++ record.masked ++ q ≠ X)
    (hM : p ++ record.masked ++ q ≠ record.masked) (hmasks : ∀ f ∈ record.fragments, f.1 ≠ [])
    (hown : OwnPlaces record.fragments
      (quote p q X (P.engine.detect P.runtime X policy.pdTypes policy.combinations) record.fragments)) :
    (P.serve s ⟨id, p ++ record.masked ++ q, policy'⟩).1.map ProcessOutcome.result = .ok (p ++ X ++ q) := by
  obtain ⟨hfst, hsnd, hslots⟩ := render_quote_record hmask p q
  have hrestored := unmask_of_ownPlaces P.runtime hmasks (fun f hf => (hslots f).mp hf) hown
  rw [hfst, hsnd] at hrestored
  rw [serve_quote P hmask hne hallowed hs hX hM, ← hrestored]
  rfl

/-- **When a quotation is restored.**  Under the default rules a text that quotes the masked text is
answered with the quotation of the text iff every pass fits and the passes together uncover every masked
character. -/
theorem fragmentwise_restore_iff (hrules : FullRules policy.rules) (hmask : P.mask X policy = .ok (o, record))
    (hne : record.masked ≠ X) (hallowed : policy'.unmaskAllowed) (hs : s id = some record)
    (hX : p ++ record.masked ++ q ≠ X) (hM : p ++ record.masked ++ q ≠ record.masked) :
    (P.serve s ⟨id, p ++ record.masked ++ q, policy'⟩).1.map ProcessOutcome.result = .ok (p ++ X ++ q) ↔
      Reveals (p ++ X ++ q) (sortedFragments P.runtime record.fragments) (p ++ record.masked ++ q) := by
  obtain ⟨hfst, hsnd, hslots⟩ := render_quote_record hmask p q
  have hcovers : Covers '*' (p ++ record.masked ++ q) (p ++ X ++ q) := by
    rw [← hfst, ← hsnd]
    refine covers_render ?_
    intro f hf
    exact (fragment_covers hrules hmask ((hslots f).mp hf)).2
  have hpasses : ∀ f ∈ sortedFragments P.runtime record.fragments, f.1 ≠ [] ∧ Covers '*' f.1 f.2 := by
    intro f hf
    exact fragment_covers hrules hmask ((mem_sortedFragments P.runtime record.fragments).mp hf)
  rw [serve_quote P hmask hne hallowed hs hX hM, ← foldl_fill_eq_iff hpasses hcovers, ← unmaskFragments_fst]
  constructor
  · intro h
    exact Except.ok.inj h
  · intro h
    exact congrArg Except.ok h

/-- Two addresses, the mask of neither standing in that of the other. -/
def apartRecord : MappingRecord :=
  ⟨"a@b.ru e@ff.ru".toList, "*@*.** *@**.**".toList,
    [("*@*.**".toList, "a@b.ru".toList), ("*@**.**".toList, "e@ff.ru".toList)]⟩

def apartOutcome : ProcessOutcome := ⟨"*@*.** *@**.**".toList, .mask, [("email".toList, 2)]⟩

theorem fragmentwise_restore_iff_apart :
    Reveals ("> ".toList ++ "a@b.ru e@ff.ru".toList ++ "!".toList)
        (sortedFragments Runtime.basic apartRecord.fragments) ("> ".toList ++ apartRecord.masked ++ "!".toList) ∧
      (sample.serve (fun _ => some apartRecord)
        ⟨"1".toList, "> ".toList ++ apartRecord.masked ++ "!".toList, systems.default⟩).1.map ProcessOutcome.result =
        .ok ("> ".toList ++ "a@b.ru e@ff.ru".toList ++ "!".toList) := by
  have hrules : FullRules systems.default.rules := fun t => ⟨rfl, rfl⟩
  have hmask : sample.mask "a@b.ru e@ff.ru".toList systems.default = .ok (apartOutcome, apartRecord) := rfl
  have hreveals : Reveals ("> ".toList ++ "a@b.ru e@ff.ru".toList ++ "!".toList)
      (sortedFragments Runtime.basic apartRecord.fragments) ("> ".toList ++ apartRecord.masked ++ "!".toList) := by
    decide
  refine ⟨hreveals, ?_⟩
  exact (fragmentwise_restore_iff sample hrules hmask (by decide) rfl rfl (by decide) (by decide)).mpr hreveals

/-- Two addresses of one shape. -/
def pairRecord : MappingRecord :=
  ⟨"a@b.ru c@d.ru".toList, "*@*.** *@*.**".toList,
    [("*@*.**".toList, "a@b.ru".toList), ("*@*.**".toList, "c@d.ru".toList)]⟩

def pairOutcome : ProcessOutcome := ⟨"*@*.** *@*.**".toList, .mask, [("email".toList, 2)]⟩

/-- Two values with one mask do not fit. -/
example : ¬ Reveals "a@b.ru c@d.ru!".toList (sortedFragments Runtime.basic pairRecord.fragments)
    "*@*.** *@*.**!".toList := by
  decide

/-- Two values with the same mask: the first of them is put in both places. -/
theorem equal_masks_restored_wrongly :
    ¬ ∀ (P : Processor) (policy policy' : SystemPolicy) (X : Str) (o : ProcessOutcome) (record : MappingRecord)
      (s : MapStore) (id p q : Str), FullRules policy.rules → P.mask X policy = .ok (o, record) →
      record.masked ≠ X → policy'.unmaskAllowed → s id = some record → '*' ∉ p → '*' ∉ q → (p ≠ [] ∨ q ≠ []) →
      p ++ record.masked ++ q ≠ X → p ++ record.masked ++ q ≠ record.masked →
      (P.serve s ⟨id, p ++ record.masked ++ q, policy'⟩).1.map ProcessOutcome.result = .ok (p ++ X ++ q) := by
  intro h
  have hrules : FullRules systems.default.rules := fun t => ⟨rfl, rfl⟩
  have hmask : sample.mask "a@b.ru c@d.ru".toList systems.default = .ok (pairOutcome, pairRecord) := rfl
  have hanswer : (sample.serve (fun _ => some pairRecord)
      ⟨"1".toList, "*@*.** *@*.**!".toList, systems.default⟩).1.map ProcessOutcome.result =
        .ok "a@b.ru a@b.ru!".toList := rfl
  have hquote := h sample systems.default systems.default "a@b.ru c@d.ru".toList pairOutcome pairRecord
    (fun _ => some pairRecord) "1".toList [] "!".toList hrules hmask (by decide) rfl rfl (by decide) (by decide)
    (Or.inr (by decide)) (by decide) (by decide)
  have heq : (Except.ok "a@b.ru a@b.ru!".toList : Except PyExc Str) = .ok "a@b.ru c@d.ru!".toList :=
    hanswer.symm.trans hquote
  exact absurd (Except.ok.inj heq) (by decide)

end Quotation

end PdMasking
