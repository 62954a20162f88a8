import PdMasking.Candidates
import PdMasking.ChatEndpoint
import PdMasking.Lib.Guarded
import PdMasking.Ranks
import PdMasking.Requirements

/-!
# PdMasking.CardNumbers — the card numbers of a text are noticed

A run of digits that `_CARD_RE` may take is matched wherever it stands, whatever is around it.  So a valid number is
a candidate, and only a candidate that asks for no companions may outrank it.

* `StandingNumber.mem_candidates`: the number is a candidate.
* `strong_noticed`: a candidate of a high priority is detected or meets a detected one.
* `sent_text_clean`: none of either gets to the LLM.
-/

namespace PdMasking

open Regex Summary Pattern FinanceContacts

/-! ### The pattern -/

/-- A range of ASCII characters without digits. -/
def Item.noDigit : Item → Bool
  | .range a b => b.toNat < 48 || (57 < a.toNat && b.toNat < 128)
  | .digit | .word | .space => false

/-- The characters of a class: digits or others. -/
def CharSet.kind (s : CharSet) : Option Bool :=
  if s.digits then some true
  else if !s.negated && !s.fold && s.items.all Item.noDigit then some false
  else none

/-- `\d` -/
def digitSet : CharSet := ⟨false, [.digit], false⟩

/-- `[\d\-]` -/
def digitOrHyphen : CharSet := ⟨false, [.digit, .range '-' '-'], false⟩

section Pattern

variable {R : Runtime} {c : Char}

theorem not_decimal_of_noDigit {item : Item} (hitem : item.noDigit = true) (h : item.test R false c = true) :
    R.isdecimal c = false := by
  cases item with
  | range a b =>
    simp only [Item.test, Bool.false_and, Bool.or_false, Bool.and_eq_true, decide_eq_true_eq] at h
    simp only [Item.noDigit, Bool.or_eq_true, Bool.and_eq_true, decide_eq_true_eq] at hitem
    have hlow : a.toNat ≤ c.toNat := h.1
    have hhigh : c.toNat ≤ b.toNat := h.2
    rw [R.isdecimal_ascii c (by omega), ← Bool.not_eq_true, isDigit_iff]
    omega
  | digit | word | space => cases hitem

theorem kind_sound (s : CharSet) (c : Char) (b : Bool) (hs : s.kind = some b) (h : s.test R c = true) :
    R.isdecimal c = b := by
  unfold CharSet.kind at hs
  split_ifs at hs with hdigits hother
  · obtain rfl := Option.some.inj hs
    exact isdecimal_of_digits hdigits h
  · obtain rfl := Option.some.inj hs
    simp only [Bool.and_eq_true, Bool.not_eq_true'] at hother
    obtain ⟨⟨hneg, hfold⟩, hitems⟩ := hother
    rw [CharSet.test, hneg, hfold, bne_iff_ne, ne_eq, Bool.not_eq_false] at h
    obtain ⟨item, hitem, htest⟩ := List.any_eq_true.mp h
    exact not_decimal_of_noDigit (List.all_eq_true.mp hitems item hitem) htest

theorem test_digitSet : digitSet.test R c = R.isdecimal c := by
  simp [CharSet.test, digitSet, Item.test]

theorem test_digitOrHyphen : digitOrHyphen.test R c = (R.isdecimal c || c == '-') := by
  have hhyphen : decide ('-' ≤ c ∧ c ≤ '-') = (c == '-') := by
    rw [Bool.eq_iff_iff, decide_eq_true_iff, beq_iff_eq]
    exact ⟨fun h => Char.le_antisymm h.2 h.1, fun h => h ▸ ⟨Char.le_refl _, Char.le_refl _⟩⟩
  simp [CharSet.test, digitOrHyphen, Item.test, ← Bool.decide_and, hhyphen]

/-- `\d{4}(?:[ \-]\d{4}){3}(?:[ \-]\d{3})?` -/
def fours : Re := re false (chars r"\d{4}(?:[ \-]\d{4}){3}(?:[ \-]\d{3})?")

/-- `\d{4}[ \-]\d{6}[ \-]\d{5}` -/
def amex : Re := re false (chars r"\d{4}[ \-]\d{6}[ \-]\d{5}")

/-- The forms of `_CARD_RE`; the last one is `\d{13,19}`. -/
theorem cardRe_eq : cardRe = guarded digitOrHyphen
    (.alt fours (.alt amex (.seq (.rep false 13 (some 19) (.set digitSet)) .empty))) digitSet := by
  decide +kernel

/-- No form of `_CARD_RE` has thirteen digits in a row and something else. -/
theorem card_forms : (kinds CharSet.kind).spanAll (Kinds.broken 13) cardRe = true := by
  decide +kernel

/-- A run of digits is a way through the last form. -/
theorem exists_reach_digits {before w post : Str} (hw : ∀ c ∈ w, R.isdecimal c = true) (hmin : 13 ≤ w.length)
    (hmax : w.length ≤ 19) :
    ∃ c ∈ ((Pattern.alt fours (.alt amex (.seq (.rep false 13 (some 19) (.set digitSet)) .empty))).compile
      (CharSet.test R) (fun a b => a == b)).reach ⟨before, w ++ post, []⟩, c.after = post := by
  have hiterate : ⟨w.reverse ++ before, post, []⟩ ∈
      iterate (cls (CharSet.test R digitSet)).reach false (19 - 13) 13 ⟨before, w ++ post, []⟩ :=
    mem_iterate_cls (fun a ha => test_digitSet.trans (hw a ha)) hmin (by omega)
  refine ⟨⟨w.reverse ++ before, post, []⟩, List.mem_append_right _ (List.mem_append_right _ ?_), rfl⟩
  exact List.mem_flatMap.mpr ⟨_, hiterate, List.mem_singleton_self _⟩

end Pattern

/-! ### The candidates -/

/-- A number that `CardDetector` takes, where it stands: 13 to 19 digits without a digit or a hyphen directly before
them and without a digit directly behind, with a valid check digit or a word that speaks of a card in the 40
characters before them. -/
structure StandingNumber (R : Runtime) (pre number post : Str) : Prop where
  digits : ∀ c ∈ number, R.isdecimal c = true ∧ R.isdigit c = true
  length : 13 ≤ number.length ∧ number.length ≤ 19
  before : ∀ c ∈ pre.getLast?, R.isdecimal c = false ∧ c ≠ '-'
  after : ∀ c ∈ post.head?, R.isdecimal c = false
  known : luhnValid number = true ∨ cueBefore R (pre ++ number ++ post) pre.length cardCueRe 40 = true

section Candidates

variable {R : Runtime} {pre number post : Str}

/-- **The pattern matches the number** wherever it stands. -/
theorem StandingNumber.exists_match (h : StandingNumber R pre number post) :
    ∃ m ∈ (cardRe.rx R).finditer (pre ++ number ++ post),
      m.span = (pre.length, pre.length + number.length) ∧ m.groupSpan 1 = m.span := by
  rw [Re.rx, cardRe_eq]
  refine guarded_run kind_sound (cardRe_eq ▸ card_forms) (fun _ => test_digitSet) ?_ (fun c hc => (h.digits c hc).1)
    h.length.1 ?_ h.after (exists_reach_digits (fun c hc => (h.digits c hc).1) h.length.1 h.length.2)
  · intro c hc
    rw [test_digitOrHyphen, hc, Bool.true_or]
  · intro c hc
    obtain ⟨hdigit, hhyphen⟩ := h.before c hc
    rw [test_digitOrHyphen, hdigit, Bool.false_or]
    exact beq_false_of_ne hhyphen

/-- **The number is a candidate.** -/
theorem StandingNumber.exists_candidate (h : StandingNumber R pre number post) :
    ∃ e, some e ∈ (CardDetector R).detect (pre ++ number ++ post) ∧ e.pdType = .cardNumber ∧
      e.parts = [(pre.length, pre.length + number.length)] ∧ e.priority = 82 ∧ e.requiresAny = ∅ := by
  obtain ⟨m, hm, hspan, hgroup⟩ := h.exists_match
  have hlt : pre.length < pre.length + number.length := by
    have hlen := h.length.1
    omega
  obtain ⟨e, hmade, hparts⟩ := makeEntity_span .cardNumber 82 ∅ hlt
  obtain ⟨htype, hpriority, hrequires⟩ := fields_of_makeEntity hmade
  refine ⟨e, ?_, htype, hparts, hpriority, hrequires⟩
  have htext : groupText (pre ++ number ++ post) 1 m = number := by
    rw [groupText, hgroup, hspan, slice, List.append_assoc, List.drop_left, Nat.add_sub_cancel_left, List.take_left]
  have hdigits : digitsOnly R number = number := List.filter_eq_self.mpr (fun c hc => (h.digits c hc).2)
  have hstart : m.start = pre.length := congrArg Prod.fst hspan
  have hgroups : groups m [1] = [(pre.length, pre.length + number.length)] := by
    rw [groups, List.map_singleton, hgroup, hspan]
  simp only [CardDetector, List.mem_append]
  refine Or.inl (Or.inl (Or.inl (Or.inl (Or.inl (List.mem_filterMap.mpr ⟨m, hm, ?_⟩)))))
  rw [htext, hdigits, hstart, if_neg (not_not.mpr h.length), if_pos h.known, hgroups, hmade]

end Candidates

/-! ### What asks for companions -/

/-- A candidate that asks for companions has a low priority. -/
def Committed (c : Candidate) : Prop := c.requiresAny = ∅ ∨ c.priority ≤ 55

section Committed

variable {R : Runtime} {text : Str} {pdType : PDType} {spans : List (ℕ × ℕ)} {priority : ℤ}

theorem Committed.free : Committed ⟨pdType, spans, priority, ∅⟩ := Or.inl rfl

theorem Committed.low {requiresAny : Finset PDType} (h : priority ≤ 55) :
    Committed ⟨pdType, spans, priority, requiresAny⟩ := Or.inr h

theorem card_committed : Yields Committed ((CardDetector R).detect text) := by
  refine ((((Yields.filterMap ?_).append (group1_yields ?_)).append (group1_yields ?_)).append
    (group1_yields ?_)).append (Yields.filterMap ?_) |>.append (group1_yields ?_)
  · intro m _ o ho
    dsimp only at ho
    split_ifs at ho
    obtain rfl := Option.some.inj ho
    exact Yields.one .free
  · exact fun _ _ => .free
  · exact fun _ _ => .free
  · exact fun _ _ => .free
  · intro m _ o ho
    split_ifs at ho
    obtain rfl := Option.some.inj ho
    exact Yields.one .free
  · exact fun _ _ => .low (by decide)

theorem issuance_committed : Yields Committed ((IssuanceDetector R).detect text) := by
  refine ((((Yields.map ?_).append (Yields.map ?_)).append (IssuanceDetector.issuers_yields ?_)).append
    (Yields.map ?_)).append (IssuanceDetector.birthPlaces_yields ?_)
  · exact fun _ _ => Yields.one .free
  · exact fun _ _ => Yields.one (.low (by decide))
  · exact fun _ _ _ _ => .free
  · exact fun _ _ => Yields.one .free
  · exact fun _ _ _ _ _ _ _ _ => .free

theorem date_committed : Yields Committed ((DateDetector R).detect text) := by
  have hclassify : ∀ start stop year, ∀ shift ≤ 0, Yields Committed [Dates.classify R text start stop year shift] := by
    intro start stop year shift hshift
    unfold Dates.classify
    split_ifs
    · exact nofun
    · exact Yields.one .free
    · exact Yields.one .free
    · exact Yields.one (.low (by omega))
    · exact nofun
  refine (((Yields.filterMap ?_).append (Yields.filterMap ?_)).append (Yields.filterMap ?_)).append (Yields.map ?_)
  · intro m _ o ho
    dsimp only at ho
    split_ifs at ho
    obtain rfl := Option.some.inj ho
    exact hclassify _ _ _ 0 le_rfl
  · intro m _ o ho
    dsimp only at ho
    split_ifs at ho
    obtain rfl := Option.some.inj ho
    exact hclassify _ _ _ 0 le_rfl
  · intro m _ o ho
    dsimp only at ho
    split_ifs at ho
    obtain rfl := Option.some.inj ho
    exact hclassify _ _ _ 0 le_rfl
  · exact fun m _ => hclassify _ _ _ (-5) (by decide)

theorem fio_committed : Yields Committed ((FioDetector R).detect text) := by
  refine FioDetector.detect_yields ?_ (fun _ _ _ _ _ _ => .free)
  refine (((FioDetector.byMorphology_yields ?_ 0 _ (List.Subset.refl _)).append (Yields.flatMap ?_)).append
    (FioDetector.byCue_yields ?_ _ (List.Subset.refl _))).append (FioDetector.cardHolders_yields ?_ ?_)
  · exact fun _ _ _ _ _ => .free
  · intro r _
    exact Yields.map (fun _ _ => Yields.one .free)
  · exact fun _ _ _ _ _ => .free
  · exact fun _ _ _ _ _ _ => .free
  · exact fun _ _ => .low (by decide)

theorem labelled_committed : Yields Committed ((LabelledValueDetector R).detect text) := by
  refine (((((Yields.flatMap ?_).append (LabelledValueDetector.dates_yields ?_)).append
    (LabelledValueDetector.labelledNames_yields ?_)).append (LabelledValueDetector.clientNames_yields ?_)).append
    (LabelledValueDetector.wholeName_yields ?_)).append (LabelledValueDetector.citizenship_yields ?_)
  · intro r _
    exact Yields.map (fun _ _ => Yields.one .free)
  · exact fun _ _ _ _ _ _ => .free
  · exact fun _ _ _ _ => .free
  · exact fun _ _ => .free
  · exact fun _ _ _ _ _ => .free
  · exact fun _ _ _ _ => .free

theorem context_committed : Yields Committed ((ContextValueDetector R).detect text) := by
  refine (((((ContextValueDetector.cardSecrets_yields ?_ ?_ ?_).append
    (ContextValueDetector.numbers_yields ?_ ?_)).append (ContextValueDetector.issuers_yields ?_ ?_)).append
    (ContextValueDetector.roleNames_yields ?_)).append (ContextValueDetector.bareNames_yields ?_ ?_)).append
    (ContextValueDetector.bareAddresses_yields ?_)
  · exact fun _ _ => .free
  · exact fun _ _ _ _ => .free
  · exact fun _ _ => ⟨.free, fun _ _ => .free⟩
  · exact fun _ _ _ _ _ _ _ _ => .free
  · exact fun _ _ _ _ _ _ => .free
  · exact fun _ _ _ => .free
  · exact fun _ _ => .free
  · exact fun _ _ _ _ _ _ _ _ => .free
  · exact fun _ _ _ _ => .free
  · exact fun _ _ => .free
  · exact fun _ _ _ _ _ _ => .free

theorem contact_committed : Yields Committed ((ContactDetector R).detect text) :=
  contact_yields (fun _ _ => .free) (fun _ _ => .free) (fun _ _ => .free) (fun _ _ => .free)

theorem standalone_committed : Yields Committed ((StandaloneValueDetector R).detect text) := by
  refine Yields.ite (fun _ => Yields.nil) (fun _ => ?_)
  split
  · exact Yields.one .free
  · exact Yields.nil

theorem detectors_committed : ∀ d ∈ defaultDetectors R, Yields Committed (d.detect text) := by
  simp only [defaultDetectors, List.forall_mem_cons]
  refine ⟨standalone_committed, contact_committed, card_committed, inn_yields ?_, identity_yields ?_,
    issuance_committed, extra_yields ?_, date_committed, fio_committed, Yields.map ?_, labelled_committed,
    context_committed, List.forall_mem_nil _⟩
  · exact fun _ _ _ _ _ _ => .free
  · exact fun _ _ _ _ _ _ _ _ => .free
  · exact fun _ _ _ _ _ _ _ _ _ => .free
  · exact fun _ _ => Yields.one .free

end Committed

/-! ### What is noticed -/

section Noticed

variable {R : Runtime} {D : DetectionEngine} {enabled : Finset PDType} {combinations : Combinations} {text : Str}

/-- No type is reported only together with others. -/
def Unconditional (combinations : Combinations) : Prop := ∀ t, ∀ required ∈ combinations t, required = ∅

theorem candidate_facts (hD : D.detectors = defaultDetectors R) {e : Entity} (he : e ∈ D.candidates R text enabled) :
    Committed ⟨e.pdType, e.parts, e.priority, e.requiresAny⟩ ∧ InText text e := by
  obtain ⟨d, hd, he⟩ := List.mem_flatMap.mp he
  obtain ⟨o, ho, hoe⟩ := List.mem_filterMap.mp (List.mem_filter.mp he).1
  obtain rfl : o = some e := hoe
  have hmem : d ∈ defaultDetectors R := hD ▸ (List.mem_filter.mp hd).1
  obtain ⟨_, _, hcommitted⟩ := detectors_committed d hmem e ho
  obtain ⟨spans, hmade, hfits⟩ := detectors_fit R text d hmem e ho
  exact ⟨hcommitted, inText_of_placed hmade hfits.placed⟩

theorem supported_of_strong (hD : D.detectors = defaultDetectors R) (hcombinations : Unconditional combinations)
    {e : Entity} (he : e ∈ D.candidates R text enabled) (hpriority : 55 < e.priority) (kept : List Entity) :
    Supported combinations kept e := by
  refine ⟨?_, fun required hr hne => absurd (hcombinations _ required hr) hne⟩
  intro hne
  rcases (candidate_facts hD he).1 with hfree | hlow
  · exact absurd hfree hne
  · exact absurd hlow (not_le.mpr hpriority)

/-- **A strong candidate is noticed**: it is detected, or touched by a detected entity that comes before it in the
order of the sort keys. -/
theorem strong_noticed (hD : D.detectors = defaultDetectors R) (hcombinations : Unconditional combinations) {e : Entity}
    (he : e ∈ D.candidates R text enabled) (hpriority : 55 < e.priority) :
    e ∈ D.detect R text enabled combinations ∨
      ∃ k ∈ D.detect R text enabled combinations, e.overlaps k ∧ keyLe k e := by
  have h : ¬ (text = [] ∨ enabled = ∅) := by
    rintro (rfl | rfl)
    · have hstop : e.stop ≤ 0 := (candidate_facts hD he).2.inside
      have hlt := e.start_lt_stop
      omega
    · simp [DetectionEngine.candidates] at he
  by_cases hkept : e ∈ resolveOverlaps (D.candidates R text enabled)
  · exact Or.inl (mem_detect_of_kept combinations R _ enabled D h hkept
      (supported_of_strong hD hcombinations he hpriority _))
  · obtain ⟨before, after, k, hsplit, hk, hkept', hover⟩ := exists_overlaps_of_not_kept he hkept
    have hle : keyLe k e := by
      have hsorted := pairwise_keyLe (D.candidates R text enabled)
      rw [hsplit] at hsorted
      exact (List.pairwise_append.mp hsorted).2.2 k hk e List.mem_cons_self
    have hstrong : 55 < k.priority := by
      unfold keyLe at hle
      omega
    exact Or.inr ⟨k, mem_detect_of_kept combinations R _ enabled D h hkept'
      (supported_of_strong hD hcombinations (mem_of_mem_resolveOverlaps hkept') hstrong _), hover, hle⟩

/-- A number that stands in the text is a strong candidate. -/
theorem StandingNumber.mem_candidates {pre number post : Str} (hnumber : StandingNumber R pre number post)
    (hD : D.detectors = defaultDetectors R) (htype : .cardNumber ∈ enabled) :
    ∃ e ∈ D.candidates R (pre ++ number ++ post) enabled, 55 < e.priority ∧
      e.parts = [(pre.length, pre.length + number.length)] := by
  obtain ⟨e, he, hpdType, hparts, hpriority, -⟩ := hnumber.exists_candidate
  have hdetector : CardDetector R ∈
      D.detectors.filter (fun d => d.applicable (textHasDigits R (pre ++ number ++ post)) enabled) := by
    refine List.mem_filter.mpr ⟨hD ▸ by simp [defaultDetectors], ?_⟩
    obtain ⟨c, hc⟩ := List.exists_mem_of_length_pos (lt_of_lt_of_le (by decide) hnumber.length.1)
    have hdigits : textHasDigits R (pre ++ number ++ post) = true :=
      List.any_eq_true.mpr ⟨c, by simp [hc], (hnumber.digits c hc).1⟩
    have hmeets : (CardDetector R).types ∩ enabled ≠ ∅ :=
      Finset.ne_empty_of_mem (Finset.mem_inter.mpr ⟨by simp [CardDetector], htype⟩)
    unfold Detector.applicable
    rw [if_neg hmeets, hdigits, Bool.true_or]
  refine ⟨e, ?_, hpriority ▸ by decide, hparts⟩
  refine List.mem_flatMap.mpr ⟨_, hdetector, List.mem_filter.mpr ⟨List.mem_filterMap.mpr ⟨_, he, rfl⟩, ?_⟩⟩
  rw [hpdType]
  exact decide_eq_true htype

end Noticed

/-! ### What the LLM gets -/

namespace Api

/-- **What is sent to the LLM.**  Under a policy without combination rules the message is a text in which no candidate
has a priority above 55; so no card number stands in it, if the policy reports them. -/
theorem sent_text_clean (A : Api) {C : ChatProxy} (hC : C.engine = ⟨defaultDetectors C.runtime⟩)
    (call : ChatCall) {policy : SystemPolicy} (hpolicy : A.policies.resolve call.systemId = some policy)
    (hcombinations : Unconditional policy.combinations) :
    ∀ ms, asks A C call = some ms → ∃ text, ms = [⟨"system".toList, systemPrompt⟩, ⟨"user".toList, text⟩] ∧
      (∀ e ∈ C.engine.candidates C.runtime text policy.pdTypes, e.priority ≤ 55) ∧
      (.cardNumber ∈ policy.pdTypes → ∀ pre number post, text = pre ++ number ++ post →
        ¬ StandingNumber C.runtime pre number post) := by
  intro ms hms
  obtain ⟨p, hp, rfl⟩ := Option.map_eq_some_iff.mp hms
  have hprepared : prepared A C call = .ok p := by
    rcases hcall : prepared A C call with reply | p'
    · rw [hcall] at hp
      cases hp
    · rw [hcall] at hp
      exact congrArg Except.ok (Option.some.inj hp)
  obtain ⟨-, hallowed, -, hclean⟩ := prepared_eq_ok.mp hprepared
  obtain ⟨-, -, hres, -⟩ := chatPolicy_eq_ok.mp hallowed
  obtain rfl : p.policy = policy := Option.some.inj (hres.symm.trans hpolicy)
  have hdetectors : C.engine.detectors = defaultDetectors C.runtime := congrArg DetectionEngine.detectors hC
  have hweak : ∀ e ∈ C.engine.candidates C.runtime p.masked.text p.policy.pdTypes, e.priority ≤ 55 := by
    intro e he
    by_contra hstrong
    rw [ChatProxy.detect] at hclean
    rcases strong_noticed hdetectors hcombinations he (not_le.mp hstrong) with h | ⟨k, h, -⟩
    · rw [hclean] at h
      cases h
    · rw [hclean] at h
      cases h
  refine ⟨p.masked.text, rfl, hweak, ?_⟩
  intro htype pre number post htext hnumber
  obtain ⟨e, he, hstrong, -⟩ := hnumber.mem_candidates hdetectors htype
  exact absurd (hweak e (htext ▸ he)) (not_le.mpr hstrong)

/-- A message of the default system with a card number. -/
def cardCall : ChatCall :=
  ⟨sampleChatCall.moment, some "default".toList, .ok ⟨"card 4111111111111111".toList, List.cons_ne_nil _ _⟩⟩

theorem sent_text_clean_default : sampleApi.policies.resolve cardCall.systemId = some systems.default ∧
    Unconditional systems.default.combinations ∧ ∀ ms, asks sampleApi chatSample cardCall = some ms →
      ∃ text, ms = [⟨"system".toList, systemPrompt⟩, ⟨"user".toList, text⟩] ∧
        (∀ e ∈ chatSample.engine.candidates Runtime.basic text systems.default.pdTypes, e.priority ≤ 55) ∧
        (.cardNumber ∈ systems.default.pdTypes → ∀ pre number post, text = pre ++ number ++ post →
          ¬ StandingNumber Runtime.basic pre number post) := by
  have hresolve : sampleApi.policies.resolve cardCall.systemId = some systems.default := rfl
  have hfree : Unconditional systems.default.combinations := by
    rintro t required ⟨⟩
  exact ⟨hresolve, hfree, sent_text_clean sampleApi rfl cardCall hresolve hfree⟩

/-- Not so under `cvv: [card_number]`: the last digits outrank the number as a code and are dropped without it. -/
example : chatSample.detect (chars "cvv код4111111111111111") systems.supportBot = [] := by
  decide +kernel

end Api

end PdMasking
