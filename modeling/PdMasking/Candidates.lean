import PdMasking.CharMask
import PdMasking.Detectors.Registry
import PdMasking.Lib.GroupOrder

/-!
# PdMasking.Candidates — what every candidate of the service is

For every place where a detector makes a candidate: its type is declared by the detector, its spans lie apart in the
text, and at the places of a detector that asks for digits (`digitDetectors`) it is what the place reports of a match
with a digit.

* `detectors_fit`, `digits_reported`: these facts for the detectors of the service.
* `candidate_wellFormed`: every candidate is a well-formed entity, which `_chars` can mask.
* `candidates_eq_all`: the detectors that are skipped would have yielded nothing.
-/

namespace PdMasking

open Regex Names

/-! ### The facts about one candidate -/

/-- The spans that are not empty end in the text, and no two of them meet. -/
def Placed (text : Str) (spans : List (ℕ × ℕ)) : Prop :=
  (∀ p ∈ spans, p.1 < p.2 → p.2 ≤ text.length) ∧ spans.Pairwise (fun p q => p.2 ≤ q.1 ∨ q.2 ≤ p.1)

/-- What a detector with these declared types may yield. -/
structure Fits (text : Str) (types : Finset PDType) (c : Candidate) : Prop where
  declared : c.pdType ∈ types
  placed : Placed text c.spans

/-- A place where a detector makes candidates: one for a match of the pattern, of the groups that are reported, or of
the whole match. -/
structure YieldSite where
  pattern : Re
  reported : List ℕ

def YieldSite.spans (s : YieldSite) (m : Match) : List (ℕ × ℕ) :=
  if s.reported = [] then [m.span] else groups m s.reported

/-- The spans are what one of the places reports of a match that contains a digit. -/
def FromDigits (R : Runtime) (text : Str) (sites : List YieldSite) (spans : List (ℕ × ℕ)) : Prop :=
  ∃ s ∈ sites, ∃ m ∈ (s.pattern.rx R).finditer text,
    (∃ c ∈ matched text m, R.isdecimal c = true) ∧ spans = s.spans m

section Tools

variable {R : Runtime} {text : Str} {m : Match} {r : Re}

theorem placed_one {p : ℕ × ℕ} (h : p.1 < p.2 → p.2 ≤ text.length) : Placed text [p] := by
  refine ⟨?_, List.pairwise_singleton _ _⟩
  intro q hq
  obtain rfl := List.mem_singleton.mp hq
  exact h

theorem placed_span (h : m.Within text.length) : Placed text [m.span] := placed_one (fun _ => h.2.1)

theorem placed_group (h : m.Within text.length) (g : ℕ) : Placed text [m.groupSpan g] :=
  placed_one (fun _ => (groupSpan_within h).2.2)

/-- The groups take part in every match, one behind the other. -/
def Re.inLine (r : Re) (idx : List ℕ) : Bool :=
  idx.all (fun g => r.always g) && decide (idx.Pairwise (fun g h => r.before g h = true))

/-- A class of digits. -/
def CharSet.digits (s : CharSet) : Bool := s.items == [.digit] && !s.negated

theorem isdecimal_of_digits {s : CharSet} {c : Char} (hs : s.digits = true) (h : s.test R c = true) :
    R.isdecimal c = true := by
  rw [CharSet.digits, Bool.and_eq_true, beq_iff_eq, Bool.not_eq_true'] at hs
  simpa [CharSet.test, hs.1, hs.2, Item.test] using h

theorem placed_groups {idx : List ℕ} (hr : r.inLine idx = true) (hm : (r.rx R).Found text m) :
    Placed text (groups m idx) := by
  obtain ⟨halways, hline⟩ := Bool.and_eq_true_iff.mp hr
  have hspan : ∀ g ∈ idx, m.group g = some (m.groupSpan g) := by
    intro g hg
    obtain ⟨span, hspan⟩ := Pattern.group_of_always (List.all_eq_true.mp halways g hg) hm
    rw [Match.groupSpan, hspan, Option.getD_some]
  refine ⟨?_, ?_⟩
  · intro p hp _
    obtain ⟨g, -, rfl⟩ := List.mem_map.mp hp
    exact (groupSpan_within hm.within).2.2
  · refine List.pairwise_map.mpr ((of_decide_eq_true hline).imp_of_mem ?_)
    intro g h hg hh hbefore
    exact Or.inl (Pattern.group_before hbefore hm (hspan g hg) (hspan h hh))

/-- A match of a pattern that asks for digits contains one. -/
theorem exists_digit (hr : 0 < r.least CharSet.digits) (hm : m ∈ (r.rx R).finditer text) :
    ∃ c ∈ matched text m, R.isdecimal c = true := by
  have hleast : Counts R.isdecimal (r.least CharSet.digits) (r.rx R) :=
    Pattern.counts_least (fun _ _ hs h => isdecimal_of_digits hs h) r
  have hcount := hleast.of_found (finditer_found hm)
  exact List.countP_pos_iff.mp (hr.trans_le hcount)

end Tools

/-! ### The patterns -/

section Sites

open FinanceContacts Documents Dates Labelled

set_option maxRecDepth 4000

/-- The places of `CardDetector`. -/
def cardSites : List YieldSite :=
  [⟨cardRe, [1]⟩, ⟨FinanceContacts.cvvRe, [1]⟩, ⟨FinanceContacts.pinRe, [1]⟩, ⟨expiryCtxRe, [1]⟩,
    ⟨expiryWeakCtxRe, [1]⟩, ⟨expiryBareRe, [1]⟩]

/-- The places of `InnDetector`. -/
def innSites : List YieldSite := [⟨innCtxRe, [1]⟩, ⟨innBareRe, [1]⟩]

/-- The places of `IdentityDocumentDetector`. -/
def identitySites : List YieldSite :=
  [⟨driverCtxRe, [1, 2]⟩, ⟨passportCtxRe, [1, 2]⟩, ⟨seriesNumberRe, [1, 2]⟩, ⟨passportBareSpacedRe, [1, 2]⟩,
    ⟨passportBareRe, [1, 2]⟩]

/-- The places of `ExtraDocumentDetector`. -/
def extraSites : List YieldSite :=
  [⟨snilsRe, [1]⟩, ⟨foreignPassportRe, [1, 2]⟩, ⟨militaryIdRe, [1, 2]⟩, ⟨birthCertRe, [1, 2, 3]⟩]

/-- The places of `DateDetector`. -/
def dateSites : List YieldSite := [⟨numericDmyRe, []⟩, ⟨numericYmdRe, []⟩, ⟨textDateRe, []⟩, ⟨monthYearRe, []⟩]

/-- Every match has a digit, and what is reported of it is there and stands in line. -/
def YieldSite.sound (s : YieldSite) : Bool :=
  decide (0 < s.pattern.least CharSet.digits) && s.pattern.inLine s.reported

theorem digit_sites_sound :
    ∀ s ∈ cardSites ++ innSites ++ identitySites ++ extraSites ++ dateSites, s.sound = true := by
  decide +kernel

theorem labelled_in_line : ∀ r ∈ [seriesFirstRe, numberFirstRe], r.inLine [1, 2] = true := by
  decide +kernel

end Sites

/-! ### The detectors -/

section Fit

open FinanceContacts Documents Dates

variable {R : Runtime} {text : Str} {m : Match} {types : Finset PDType} {pdType : PDType} {priority : ℤ}
  {requiresAny : Finset PDType} {sites : List YieldSite}

/-- What such a place reports lies apart and comes from digits. -/
theorem fits_site {s : YieldSite} (hsound : ∀ s ∈ sites, s.sound = true) (htype : pdType ∈ types) (hs : s ∈ sites)
    (hm : m ∈ (s.pattern.rx R).finditer text) :
    Fits text types ⟨pdType, s.spans m, priority, requiresAny⟩ ∧ FromDigits R text sites (s.spans m) := by
  obtain ⟨hleast, hline⟩ := Bool.and_eq_true_iff.mp (hsound s hs)
  refine ⟨⟨htype, ?_⟩, s, hs, m, hm, exists_digit (of_decide_eq_true hleast) hm, rfl⟩
  show Placed text (s.spans m)
  unfold YieldSite.spans
  split_ifs
  · exact placed_span (finditer_within _ text m hm)
  · exact placed_groups hline (finditer_found hm)

theorem card_fits : Yields (fun c => Fits text (CardDetector R).types c ∧ FromDigits R text cardSites c.spans)
    ((CardDetector R).detect text) := by
  have hsites : ∀ r ∈ [cardRe, cvvRe, pinRe, expiryCtxRe, expiryWeakCtxRe, expiryBareRe],
      (⟨r, [1]⟩ : YieldSite) ∈ cardSites := by simp [cardSites]
  refine card_yields ?_
  intro r hr m hm pdType htype priority _ requiresAny
  exact fits_site (fun s hs => digit_sites_sound s (by simp [hs])) htype (hsites r hr) hm

theorem inn_fits : Yields (fun c => Fits text (InnDetector R).types c ∧ FromDigits R text innSites c.spans)
    ((InnDetector R).detect text) := by
  have hsites : ∀ r ∈ [innCtxRe, innBareRe], (⟨r, [1]⟩ : YieldSite) ∈ innSites := by simp [innSites]
  refine inn_yields ?_
  intro r hr m hm priority _
  exact fits_site (fun s hs => digit_sites_sound s (by simp [hs])) (by simp [InnDetector]) (hsites r hr) hm

theorem identity_fits :
    Yields (fun c => Fits text (IdentityDocumentDetector R).types c ∧ FromDigits R text identitySites c.spans)
      ((IdentityDocumentDetector R).detect text) := by
  have hsites : ∀ r ∈ [driverCtxRe, passportCtxRe, seriesNumberRe, passportBareSpacedRe, passportBareRe],
      (⟨r, [1, 2]⟩ : YieldSite) ∈ identitySites := by simp [identitySites]
  refine identity_yields ?_
  intro r hr m hm pdType htype priority _
  exact fits_site (fun s hs => digit_sites_sound s (by simp [hs])) htype (hsites r hr) hm

theorem extra_fits :
    Yields (fun c => Fits text (ExtraDocumentDetector R).types c ∧ FromDigits R text extraSites c.spans)
      ((ExtraDocumentDetector R).detect text) := by
  have hsites : ∀ p ∈ [(snilsRe, [1]), (foreignPassportRe, [1, 2]), (militaryIdRe, [1, 2]), (birthCertRe, [1, 2, 3])],
      p.2 ≠ [] ∧ (⟨p.1, p.2⟩ : YieldSite) ∈ extraSites := by simp [extraSites]
  refine extra_yields ?_
  intro r idx hr m hm pdType htype priority _
  obtain ⟨hne, hsite⟩ := hsites (r, idx) hr
  have hspans : (⟨r, idx⟩ : YieldSite).spans m = groups m idx := if_neg hne
  rw [← hspans]
  exact fits_site (fun s hs => digit_sites_sound s (by simp [hs])) htype hsite hm

theorem date_fits : Yields (fun c => Fits text (DateDetector R).types c ∧ FromDigits R text dateSites c.spans)
    ((DateDetector R).detect text) := by
  have hsites : ∀ r ∈ [numericDmyRe, numericYmdRe, textDateRe, monthYearRe],
      (⟨r, []⟩ : YieldSite) ∈ dateSites := by simp [dateSites]
  refine date_yields ?_
  intro r hr m hm pdType htype priority _ requiresAny
  exact fits_site (fun s hs => digit_sites_sound s (by simp [hs])) htype (hsites r hr) hm

end Fit

/-! ### The detectors that do not ask for digits -/

section Free

variable {R : Runtime} {text : Str} {m : Match} {r : Re} {types : Finset PDType} {pdType : PDType} {priority : ℤ}
  {requiresAny : Finset PDType}

/-- A value that is found in the text. -/
theorem placed_value {value : Str} {start : ℕ} (h : find text value = some start) :
    Placed text [(start, start + value.length)] := by
  refine placed_one ?_
  intro hlt
  have hne : value ≠ [] := by
    rintro rfl
    simp at hlt
  exact (find_spec hne h).1

/-- A match where another one ends. -/
theorem within_behind {l : Match} {label : Re} (hl : l ∈ (label.rx R).finditer text)
    (hm : (r.rx R).matchAt text l.stop = some m) : m.Within text.length :=
  (matchAt_found (finditer_within _ text l hl).2.1 hm).1.within

/-- The words found in a part of the text end in it. -/
theorem stop_le_of_mem {a b : ℕ} (hle : a ≤ b) (hm : m ∈ (r.rx R).finditerIn text a b) :
    m.stop ≤ b ∧ m.stop ≤ text.length := by
  have hstop := (finditerIn_found hle hm).within.2.1
  rw [List.length_take] at hstop
  omega

theorem issuance_fits : Yields (Fits text (IssuanceDetector R).types) ((IssuanceDetector R).detect text) := by
  refine issuance_yields ?_ (IssuanceDetector.issuers_yields ?_) (IssuanceDetector.birthPlaces_yields ?_)
  · intro r _ m hm pdType htype priority _ requiresAny
    exact .mk htype (placed_group (finditer_within _ text m hm) 1)
  · intro m _ stop hstop
    exact .mk (by simp [IssuanceDetector]) (placed_one (fun _ => hstop))
  · intro r _ value hvalue first last _ hlast
    have hle := (groupSpan_within (k := 1) hvalue.within).2.1
    have hmem := IssuanceDetector.mem_birthPlaceWords (List.mem_of_mem_getLast? hlast)
    exact .mk (by simp [IssuanceDetector]) (placed_one (fun _ => (stop_le_of_mem hle hmem).2))

theorem fio_fits : Yields (Fits text (FioDetector R).types) ((FioDetector R).detect text) := by
  have hwords : ∀ {priority : ℤ}, ∀ first ∈ Fio.tokenize R text, ∀ last ∈ Fio.tokenize R text,
      FioDetector.Joined R text first last →
      Fits text (FioDetector R).types ⟨.fio, [(first.start, last.stop)], priority, ∅⟩ := by
    intro priority first _ last hlast _
    obtain ⟨m, hm, rfl⟩ := List.mem_map.mp hlast
    exact .mk (by simp [FioDetector]) (placed_one (fun _ => (finditer_within _ text m hm).2.1))
  refine FioDetector.detect_yields ?_ ?_
  · refine (((FioDetector.byMorphology_yields hwords 0 _ (List.Subset.refl _)).append (Yields.flatMap ?_)).append
      (FioDetector.byCue_yields hwords _ (List.Subset.refl _))).append (FioDetector.cardHolders_yields ?_ ?_)
    · intro r _
      refine Yields.map ?_
      intro m hm
      exact Yields.one (.mk (by simp [FioDetector]) (placed_span (finditer_within _ text m hm)))
    · intro m hm first _ last hlast
      obtain ⟨-, hle, -⟩ := groupSpan_within (k := 1) (finditer_within _ text m hm)
      have hstop := stop_le_of_mem hle (FioDetector.mem_holderWords hlast)
      exact .mk (by simp [FioDetector]) (placed_one (fun _ => hstop.2))
    · intro m hm
      exact .mk (by simp [FioDetector]) (placed_span (finditer_within _ text m hm))
  · intro c hc _ p hp hlt
    have hgrown := extendPersonSpan_le R p.1 (hc.placed.1 p hp hlt)
    exact .mk (by simp [FioDetector]) (placed_one (fun _ => hgrown.2.2))

theorem address_fits : Yields (Fits text (AddressDetector R).types) ((AddressDetector R).detect text) := by
  refine Yields.map ?_
  intro c hc
  refine Yields.one (.mk (by simp [AddressDetector]) (placed_one ?_))
  intro _
  rcases AddressDetector.mem_values hc with hc | ⟨m, hm, rfl⟩ | ⟨street, hstreet, -, m, hm, rfl⟩
  · obtain ⟨kp, -, m, hm, -, -, -, hstop⟩ := AddressDetector.mem_found hc
    exact hstop.trans (groupSpan_within (finditer_within _ text m hm)).2.2
  · exact (finditer_within _ text m hm).2.1
  · obtain ⟨kp, -, s, hs, -, hstop, -, -⟩ := AddressDetector.mem_found hstreet
    rw [hstop] at hm
    exact (groupSpan_within (within_behind hs hm)).2.2

theorem labelled_fits :
    Yields (Fits text (LabelledValueDetector R).types) ((LabelledValueDetector R).detect text) := by
  have hdocument : ∀ start, LabelledValueDetector.documentType R text start ∈ (LabelledValueDetector R).types := by
    intro start
    unfold LabelledValueDetector.documentType
    dsimp only
    split_ifs <;> simp [LabelledValueDetector]
  refine (((((Yields.flatMap ?_).append (LabelledValueDetector.dates_yields ?_)).append
    (LabelledValueDetector.labelledNames_yields ?_)).append (LabelledValueDetector.clientNames_yields ?_)).append
    (LabelledValueDetector.wholeName_yields ?_)).append (LabelledValueDetector.citizenship_yields ?_)
  · intro r hr
    refine Yields.map ?_
    intro m hm
    have hplaced : Placed text (groups m [1, 2]) := placed_groups (labelled_in_line r hr) (finditer_found hm)
    exact Yields.one ⟨hdocument _, hplaced⟩
  · intro label hlabel m hm pdType htype
    refine .mk ?_ (placed_group (within_behind hlabel hm) 1)
    rcases List.mem_cons.mp htype with rfl | htype
    · simp [LabelledValueDetector]
    · obtain rfl := List.mem_singleton.mp htype
      simp [LabelledValueDetector]
  · intro label hlabel m hm
    exact .mk (by simp [LabelledValueDetector]) (placed_span (within_behind hlabel hm))
  · intro m hm
    exact .mk (by simp [LabelledValueDetector]) (placed_group (finditer_within _ text m hm) 1)
  · intro value start _ _ hfind
    exact .mk (by simp [LabelledValueDetector]) (placed_value hfind)
  · intro label hlabel m hm
    exact .mk (by simp [LabelledValueDetector]) (placed_span (within_behind hlabel hm))

/-- The computed end of an issuer is in the text. -/
theorem issuerEnd_le_length (start : ℕ) : ContextValueDetector.issuerEnd R text start ≤ text.length := by
  unfold ContextValueDetector.issuerEnd
  dsimp only
  refine (length_rstrip_le _ _).trans ?_
  rw [List.length_take]
  exact Nat.min_le_right _ _

theorem context_fits :
    Yields (Fits text (ContextValueDetector R).types) ((ContextValueDetector R).detect text) := by
  refine (((((ContextValueDetector.cardSecrets_yields ?_ ?_ ?_).append
    (ContextValueDetector.numbers_yields ?_ ?_)).append (ContextValueDetector.issuers_yields ?_ ?_)).append
    (ContextValueDetector.roleNames_yields ?_)).append (ContextValueDetector.bareNames_yields ?_ ?_)).append
    (ContextValueDetector.bareAddresses_yields ?_)
  · intro m hm
    exact .mk (by simp [ContextValueDetector]) (placed_group (finditer_within _ text m hm) 1)
  · intro r _ m hm
    exact .mk (by simp [ContextValueDetector]) (placed_group (finditer_within _ text m hm) 1)
  · intro m hm
    have hwithin := (matchAt_found (Nat.zero_le _) hm).1.within
    refine ⟨.mk (by simp [ContextValueDetector]) (placed_group hwithin 1), ?_⟩
    intro pdType htype
    refine .mk ?_ (placed_group hwithin 2)
    rcases List.mem_cons.mp htype with rfl | htype
    · simp [ContextValueDetector]
    · obtain rfl := List.mem_singleton.mp htype
      simp [ContextValueDetector]
  · intro r _ m hm pdType htype priority _
    refine .mk ?_ (placed_group (finditer_within _ text m hm) 1)
    simp only [List.mem_cons, List.not_mem_nil, or_false] at htype
    rcases htype with rfl | rfl | rfl <;> simp [ContextValueDetector]
  · intro r _ m hm pdType htype
    refine .mk ?_ (placed_group (matchAt_found (Nat.zero_le _) hm).1.within 1)
    simp only [List.mem_cons, List.not_mem_nil, or_false] at htype
    rcases htype with rfl | rfl <;> simp [ContextValueDetector]
  · intro label _ _
    exact .mk (by simp [ContextValueDetector]) (placed_one (fun _ => issuerEnd_le_length _))
  · intro m _
    exact .mk (by simp [ContextValueDetector]) (placed_one (fun _ => issuerEnd_le_length _))
  · intro label hlabel first last hfirst hlast stop hstop
    have hpos := (finditer_within _ text label hlabel).2.1
    obtain ⟨-, -, hlen⟩ := ContextValueDetector.nameTokens_within hpos hfirst (List.mem_of_mem_getLast? hlast)
    have hgrown := extendPersonSpan_le R first.start (show stop ≤ text.length by omega)
    exact .mk (by simp [ContextValueDetector]) (placed_one (fun _ => hgrown.2.2))
  · intro value start _ hfind
    exact .mk (by simp [ContextValueDetector]) (placed_value hfind)
  · intro m hm
    exact .mk (by simp [ContextValueDetector]) (placed_group (matchAt_found (Nat.zero_le _) hm).1.within 1)
  · intro m hm idx _ span hspan
    have hgroup : m.groupSpan idx = span := by rw [Match.groupSpan, hspan, Option.getD_some]
    have hplaced := placed_group (finditer_within _ text m hm) idx
    rw [hgroup] at hplaced
    exact .mk (by simp [ContextValueDetector]) hplaced

theorem contact_fits : Yields (Fits text (ContactDetector R).types) ((ContactDetector R).detect text) := by
  refine contact_yields ?_ ?_ ?_ ?_
  · exact fun m hm => .mk (by simp [ContactDetector]) (placed_span (finditer_within _ text m hm))
  · exact fun m hm => .mk (by simp [ContactDetector]) (placed_span (finditer_within _ text m hm))
  · exact fun m hm => .mk (by simp [ContactDetector]) (placed_span (finditer_within _ text m hm))
  · exact fun m hm => .mk (by simp [ContactDetector]) (placed_group (finditer_within _ text m hm) 1)

/-! ### The text that is one value -/

open Standalone in
theorem classifyBy_mem {value : Str} {T : Finset PDType} {t : PDType} : ∀ {cs : List (Str → Verdict)},
    (∀ check ∈ cs, ∀ t, check value = .found t → t ∈ T) → classifyBy value cs = some t → t ∈ T
  | [], _, h => by
    rw [classifyBy] at h
    cases h
  | check :: cs, hcs, h => by
    rw [List.forall_mem_cons] at hcs
    rw [classifyBy] at h
    split at h
    · rename_i t' heq
      obtain rfl := Option.some.inj h
      exact hcs.1 _ heq
    · cases h
    · exact classifyBy_mem hcs.2 h

open Standalone in
theorem ofOption_eq_found {o : Option PDType} {t : PDType} (h : Verdict.ofOption o = .found t) : o = some t := by
  cases o with
  | none => cases h
  | some t' =>
    obtain rfl : t' = t := by simpa [Verdict.ofOption] using h
    rfl

open Standalone in
/-- A check with one type reports this one. -/
theorem mem_of_found_ite {c : Prop} [Decidable c] {T : Finset PDType} {t t' : PDType} (ht : t' ∈ T)
    (h : (if c then Verdict.found t' else Verdict.next) = .found t) : t ∈ T := by
  split_ifs at h
  obtain rfl := Verdict.found.inj h
  exact ht

open Standalone in
theorem classifyDate_eq {value : Str} {t : PDType} (h : classifyDate R value = some t) : t = .date := by
  have hdate : ∀ {c : Prop} [Decidable c], (if c then some PDType.date else none) = some t → t = .date := by
    intro c _ hc
    split_ifs at hc
    exact (Option.some.inj hc).symm
  unfold classifyDate at h
  split at h
  · exact hdate h
  · split at h
    · exact hdate h
    · split at h
      · exact hdate h
      · cases h

open Standalone in
theorem classifySingleWord_eq {value : Str} {t : PDType} (h : classifySingleWord R value = some t) :
    t = .address ∨ t = .fio := by
  unfold classifySingleWord at h
  dsimp only at h
  split_ifs at h
  · exact Or.inl (Option.some.inj h).symm
  · exact Or.inr (Option.some.inj h).symm

open Standalone in
/-- Every check reports types that are declared. -/
theorem checks_declared (value : Str) : ∀ check ∈ checks R, ∀ t, check value = .found t →
    t ∈ (StandaloneValueDetector R).types := by
  have hformats : ∀ f ∈ formats, f.2 ∈ (StandaloneValueDetector R).types := by
    simp [formats, StandaloneValueDetector]
  simp only [checks, List.forall_mem_cons]
  refine ⟨?_, ?_, ?_, ?_, ?_, ?_, ?_, ?_, ?_, ?_, List.forall_mem_nil _⟩
  · intro t h
    unfold checkPin at h
    split_ifs at h
    obtain rfl := Verdict.found.inj h
    simp [StandaloneValueDetector]
  · intro t h
    obtain ⟨f, hf, rfl⟩ := Option.map_eq_some_iff.mp (ofOption_eq_found h)
    exact hformats f (List.mem_of_find?_eq_some hf)
  · intro t h
    rw [classifyDate_eq (ofOption_eq_found h)]
    simp [StandaloneValueDetector]
  · exact fun t h => mem_of_found_ite (by simp [StandaloneValueDetector]) h
  · exact fun t h => mem_of_found_ite (by simp [StandaloneValueDetector]) h
  · exact fun t h => mem_of_found_ite (by simp [StandaloneValueDetector]) h
  · exact fun t h => mem_of_found_ite (by simp [StandaloneValueDetector]) h
  · exact fun t h => mem_of_found_ite (by simp [StandaloneValueDetector]) h
  · exact fun t h => mem_of_found_ite (by simp [StandaloneValueDetector]) h
  · intro t h
    unfold checkSingleWord at h
    split_ifs at h
    rcases classifySingleWord_eq (ofOption_eq_found h) with rfl | rfl
    · simp [StandaloneValueDetector]
    · simp [StandaloneValueDetector]

theorem standalone_fits :
    Yields (Fits text (StandaloneValueDetector R).types) ((StandaloneValueDetector R).detect text) := by
  refine Yields.ite (fun _ => Yields.nil) (fun _ => ?_)
  split
  · rename_i start pdType hfind hclassify
    exact Yields.one (.mk (classifyBy_mem (checks_declared _) hclassify) (placed_value hfind))
  · exact Yields.nil

end Free

/-! ### The candidates of the service -/

/-- **What the detectors of the service yield** is of a type that they declare and lies apart in the text. -/
theorem detectors_fit (R : Runtime) (text : Str) : ∀ d ∈ defaultDetectors R,
    Yields (Fits text d.types) (d.detect text) := by
  simp only [defaultDetectors, List.forall_mem_cons]
  exact ⟨standalone_fits, contact_fits, card_fits.mono (fun _ h => h.1), inn_fits.mono (fun _ h => h.1),
    identity_fits.mono (fun _ h => h.1), issuance_fits, extra_fits.mono (fun _ h => h.1),
    date_fits.mono (fun _ h => h.1), fio_fits, address_fits, labelled_fits, context_fits, nofun⟩

/-- The detectors that ask for digits, and the places where they make candidates. -/
def digitDetectors (R : Runtime) : List (Detector × List YieldSite) :=
  [(CardDetector R, cardSites), (InnDetector R, innSites), (IdentityDocumentDetector R, identitySites),
    (ExtraDocumentDetector R, extraSites), (DateDetector R, dateSites)]

/-- The flags `needs_digits` of the service. -/
theorem needsDigits_eq (R : Runtime) :
    (defaultDetectors R).filter Detector.needsDigits = (digitDetectors R).map Prod.fst := rfl

/-- **What they yield** is reported at one of their places, of a match with a digit. -/
theorem digits_reported (R : Runtime) (text : Str) : ∀ p ∈ digitDetectors R,
    Yields (fun c => FromDigits R text p.2 c.spans) (p.1.detect text) := by
  simp only [digitDetectors, List.forall_mem_cons]
  exact ⟨card_fits.mono (fun _ h => h.2), inn_fits.mono (fun _ h => h.2), identity_fits.mono (fun _ h => h.2),
    extra_fits.mono (fun _ h => h.2), date_fits.mono (fun _ h => h.2), nofun⟩

/-- **An entity of spans that lie apart in the text** has its parts in the text, one behind the other. -/
theorem inText_of_placed {text : Str} {spans : List (ℕ × ℕ)} {e : Entity}
    (hmade : makeEntity e.pdType spans e.priority e.requiresAny = some e) (h : Placed text spans) : InText text e := by
  have hapart : e.parts.Pairwise (fun p q => p.2 ≤ q.1 ∨ q.2 ≤ p.1) := by
    refine ((parts_perm_of_makeEntity hmade).pairwise_iff ?_).mpr (h.2.sublist List.filter_sublist)
    exact fun {p q} hpq => hpq.symm
  refine ⟨?_, ?_⟩
  · refine (e.parts_sorted.and hapart).imp_of_mem ?_
    rintro p q hp hq ⟨hle, hpq⟩
    have hpos := e.parts_pos p hp
    have hpos' := e.parts_pos q hq
    unfold partLe at hle
    omega
  · have hlast := List.getLast_mem e.parts_ne
    exact h.1 _ ((mem_parts_of_makeEntity hmade).mp hlast).1 (e.parts_pos _ hlast)

/-- **Every candidate is a well-formed entity**: its parts are not empty, lie in the text and follow each other, its
hull contains them, and `_chars` finds every position in the fragment. -/
theorem candidate_wellFormed (R : Runtime) (text : Str) {d : Detector} (hd : d ∈ defaultDetectors R) {e : Entity}
    (he : some e ∈ d.detect text) :
    e.parts ≠ [] ∧ (∀ p ∈ e.parts, p.1 < p.2 ∧ p.2 ≤ text.length) ∧
      e.parts.Pairwise (fun p q => p.1 < q.1 ∧ p.2 ≤ q.1) ∧ e.start < e.stop ∧
      (∀ p ∈ e.parts, e.start ≤ p.1 ∧ p.2 ≤ e.stop) ∧
      ∀ rule, ∃ mask, Masker.chars R text e rule = .ok mask := by
  obtain ⟨spans, hmade, hfits⟩ := detectors_fit R text d hd e he
  have hin := inText_of_placed hmade hfits.placed
  refine ⟨e.parts_ne, ?_, ?_, e.start_lt_stop, ?_, ?_⟩
  · intro p hp
    exact ⟨e.parts_pos p hp, (hin.part_le_stop hp).trans hin.inside⟩
  · refine hin.disjoint.imp_of_mem ?_
    intro p q hp _ hpq
    exact ⟨(e.parts_pos p hp).trans_le hpq, hpq⟩
  · intro p hp
    exact ⟨e.start_le_part hp, hin.part_le_stop hp⟩
  · intro rule
    obtain ⟨mask, hmask, -⟩ := chars_exact hin rule
    exact ⟨mask, hmask⟩

/-- A passport with its series and number: two parts. -/
def seriesText : Str := chars "паспорт 4509 № 123456"

theorem candidate_wellFormed_passport : ∃ e, some e ∈ (IdentityDocumentDetector Runtime.basic).detect seriesText ∧
    e.parts = [(8, 12), (15, 21)] ∧ e.parts.Pairwise (fun p q => p.1 < q.1 ∧ p.2 ≤ q.1) := by
  have hparts : ((IdentityDocumentDetector Runtime.basic).detect seriesText).any
      (fun o => o.any (fun e => e.parts == [(8, 12), (15, 21)])) = true := by
    decide +kernel
  obtain ⟨o, ho, hany⟩ := List.any_eq_true.mp hparts
  obtain ⟨e, rfl, he⟩ := Option.any_eq_true _ _ |>.mp hany
  have hd : IdentityDocumentDetector Runtime.basic ∈ defaultDetectors Runtime.basic := by simp [defaultDetectors]
  exact ⟨e, ho, beq_iff_eq.mp he, (candidate_wellFormed Runtime.basic seriesText hd ho).2.2.1⟩

/-! ### The detectors that are skipped -/

/-- What yields nothing may be left out. -/
theorem flatMap_filter_of_nil {α β : Type} {p : α → Bool} {f : α → List β} : ∀ {l : List α},
    (∀ a ∈ l, p a = false → f a = []) → (l.filter p).flatMap f = l.flatMap f
  | [], _ => rfl
  | a :: l, h => by
    rw [List.forall_mem_cons] at h
    have ih := flatMap_filter_of_nil h.2
    cases ha : p a with
    | true => rw [List.filter_cons_of_pos ha, List.flatMap_cons, List.flatMap_cons, ih]
    | false =>
      rw [List.filter_cons_of_neg (by rw [ha]; exact Bool.false_ne_true), List.flatMap_cons, h.1 ha,
        List.nil_append, ih]

theorem textHasDigits_of_fromDigits {R : Runtime} {text : Str} {sites : List YieldSite} {spans : List (ℕ × ℕ)}
    (h : FromDigits R text sites spans) : textHasDigits R text = true := by
  obtain ⟨s, -, m, -, ⟨c, hc, hdigit⟩, -⟩ := h
  exact List.any_eq_true.mpr ⟨c, mem_of_mem_slice hc, hdigit⟩

/-- **Skipping detectors loses nothing**: the candidates are those of all detectors.  Every detector yields only types
that it declares; and every candidate of a detector that asks for digits is made of the spans that one of its own
places reports of a match with a digit. -/
theorem candidates_eq_all (R : Runtime) (text : Str) (enabled : Finset PDType) :
    DetectionEngine.candidates R ⟨defaultDetectors R⟩ text enabled =
      (defaultDetectors R).flatMap (fun d =>
        ((d.detect text).filterMap id).filter (fun e => e.pdType ∈ enabled)) ∧
    (∀ d ∈ defaultDetectors R, ∀ e, some e ∈ d.detect text → e.pdType ∈ d.types) ∧
    (defaultDetectors R).filter Detector.needsDigits = (digitDetectors R).map Prod.fst ∧
    ∀ p ∈ digitDetectors R, ∀ e, some e ∈ p.1.detect text → ∃ spans, FromDigits R text p.2 spans ∧
      makeEntity e.pdType spans e.priority e.requiresAny = some e := by
  have htypes : ∀ d ∈ defaultDetectors R, ∀ e, some e ∈ d.detect text → e.pdType ∈ d.types := by
    intro d hd e he
    obtain ⟨_, _, hfits⟩ := detectors_fit R text d hd e he
    exact hfits.declared
  have hdigits : ∀ p ∈ digitDetectors R, ∀ e, some e ∈ p.1.detect text → ∃ spans, FromDigits R text p.2 spans ∧
      makeEntity e.pdType spans e.priority e.requiresAny = some e := by
    intro p hp e he
    obtain ⟨spans, hmade, hfrom⟩ := digits_reported R text p hp e he
    exact ⟨spans, hfrom, hmade⟩
  refine ⟨?_, htypes, needsDigits_eq R, hdigits⟩
  refine flatMap_filter_of_nil ?_
  intro d hd hskipped
  rw [List.filter_eq_nil_iff]
  intro e he henabled
  obtain ⟨o, ho, rfl⟩ := List.mem_filterMap.mp he
  unfold Detector.applicable at hskipped
  split_ifs at hskipped with hnone
  · -- no declared type is enabled
    have hmem := Finset.mem_inter.mpr ⟨htypes d hd e ho, of_decide_eq_true henabled⟩
    rw [hnone] at hmem
    cases hmem
  · -- the detector asks for digits and the text has none
    rw [Bool.or_eq_false_iff, Bool.not_eq_false'] at hskipped
    have hmem : d ∈ (digitDetectors R).map Prod.fst := by
      rw [← needsDigits_eq]
      exact List.mem_filter.mpr ⟨hd, hskipped.2⟩
    obtain ⟨p, hp, rfl⟩ := List.mem_map.mp hmem
    obtain ⟨_, hfrom, -⟩ := hdigits p hp e ho
    have hhas := textHasDigits_of_fromDigits hfrom
    rw [hskipped.1] at hhas
    cases hhas

end PdMasking
