import PdMasking.Brackets

/-!
# PdMasking.TokenSites — what the detectors find beside a token

For every place where a detector makes a candidate: its spans do not lie inside a token that stands at
`[t, t')` in the text, and there is no bracket in them.  The pattern of the place decides it, mostly by `Re.apart`:
around the group that is reported there is a segment that no token contains.

`detectors_beside` collects the detectors.  It leaves out the card secrets of `ContextValueDetector`, which may lie
inside a token, and what may go over brackets: the values of `StandaloneValueDetector` and the issuers.
-/

namespace PdMasking

open Regex Summary

/-- A candidate of an enabled type whose spans do not lie inside `[t, t')`. -/
def Outside (enabled : Finset PDType) (t t' : ℕ) (c : Candidate) : Prop :=
  c.pdType ∈ enabled → ∀ p ∈ c.spans, p.1 < p.2 → ¬ (t ≤ p.1 ∧ p.2 ≤ t')

/-- Such a candidate, without brackets. -/
def Beside (text : Str) (enabled : Finset PDType) (t t' : ℕ) (c : Candidate) : Prop :=
  Outside enabled t t' c ∧ ∀ p ∈ c.spans, Bracketless text p

section Tools

variable {R : Runtime} {K : Masker} {text : Str} {t t' : ℕ} {enabled : Finset PDType} {pdType : PDType}
  {priority : ℤ} {requiresAny : Finset PDType} {r : Re} {m : Match} {p : ℕ × ℕ}

/-- A span with an alien segment at its begin, or one inside it. -/
theorem TokenAt.not_inside (htok : TokenAt K text t t') {x y : ℕ}
    (hseg : Segment (Demand.Holds R) Demand.alien text x y) (hp : p.1 < p.2)
    (hxy : (x ≤ p.1 ∧ p.1 < y) ∨ (p.1 ≤ x ∧ y ≤ p.2)) : ¬ (t ≤ p.1 ∧ p.2 ≤ t') := by
  have hne := lt_of_alien K hseg
  have hapart := htok.apart hseg
  omega

/-- A candidate of one span. -/
theorem beside_one (hout : p.1 < p.2 → ¬ (t ≤ p.1 ∧ p.2 ≤ t')) (hfree : Bracketless text p) :
    Beside text enabled t t' ⟨pdType, [p], priority, requiresAny⟩ := by
  refine ⟨?_, ?_⟩
  · intro _ q hq
    obtain rfl := List.mem_singleton.mp hq
    exact hout
  · intro q hq
    obtain rfl := List.mem_singleton.mp hq
    exact hfree

theorem beside_span (htok : TokenAt K text t t') (hr : tokenSummary.spanAll Demand.alien r = true)
    (hm : (r.rx R).Found text m) : Beside text enabled t t' ⟨pdType, [m.span], priority, requiresAny⟩ := by
  have hseg : Segment (Demand.Holds R) Demand.alien text m.start m.stop :=
    span_segment (tokenSummary_sound R) hr hm
  exact beside_one (fun hlt => htok.not_inside hseg hlt (Or.inr ⟨le_rfl, le_rfl⟩)) (bracketless_of_segment hseg)

/-- A span that begins with an alien segment. -/
theorem TokenAt.not_inside_of_start (htok : TokenAt K text t t')
    {y : ℕ} (hseg : Segment (Demand.Holds R) Demand.alien text p.1 y) (hlt : p.1 < p.2) : ¬ (t ≤ p.1 ∧ p.2 ≤ t') :=
  htok.not_inside hseg hlt (Or.inl ⟨le_rfl, lt_of_alien K hseg⟩)

/-- A match in a part of the text. -/
theorem segment_in (hr : tokenSummary.spanAll Demand.alien r = true) {pos stop : ℕ} (hle : pos ≤ stop)
    (hm : m ∈ (r.rx R).finditerIn text pos stop) :
    Segment (Demand.Holds R) Demand.alien text m.start m.stop := by
  have hseg : Segment (Demand.Holds R) Demand.alien (text.take stop) m.start m.stop :=
    span_segment (tokenSummary_sound R) hr (finditerIn_found hle hm)
  exact hseg.of_take

/-- A group that takes part in the match. -/
theorem beside_group (htok : TokenAt K text t t') {g : ℕ} (hr : tokenSummary.groupAll Demand.alien g r = true)
    (hm : (r.rx R).Found text m) (hg : m.group g = some p) :
    Beside text enabled t t' ⟨pdType, [p], priority, requiresAny⟩ := by
  obtain ⟨x, y, -, hx, hy, -, hseg⟩ := group_segment (tokenSummary_sound R) hr hm hg
  exact beside_one (fun hlt => htok.not_inside hseg hlt (Or.inl ⟨hx, by omega⟩))
    ((bracketless_of_segment hseg).mono hx hy)

/-- The segment around a group. -/
theorem segment_of_apart {idx : List ℕ} (hr : r.apart idx = true) (hm : (r.rx R).Found text m) {g : ℕ}
    (hg : g ∈ idx) : ∃ x y, m.start ≤ x ∧ x ≤ (m.groupSpan g).1 ∧ (m.groupSpan g).2 ≤ y ∧ y ≤ m.stop ∧
      Segment (Demand.Holds R) Demand.alien text x y := by
  obtain ⟨halways, hall⟩ := Bool.and_eq_true_iff.mp (List.all_eq_true.mp hr g hg)
  obtain ⟨span, hspan⟩ := Pattern.group_of_always halways hm
  have heq : m.groupSpan g = span := by rw [Match.groupSpan, hspan, Option.getD_some]
  rw [heq]
  exact group_segment (tokenSummary_sound R) hall hm hspan

/-- A part of a group. -/
theorem beside_of_group (htok : TokenAt K text t t') {idx : List ℕ} (hr : r.apart idx = true)
    (hm : (r.rx R).Found text m) {g : ℕ} (hg : g ∈ idx) (hstart : (m.groupSpan g).1 ≤ p.1)
    (hstop : p.2 ≤ (m.groupSpan g).2) : Beside text enabled t t' ⟨pdType, [p], priority, requiresAny⟩ := by
  obtain ⟨x, y, -, hx, hy, -, hseg⟩ := segment_of_apart hr hm hg
  exact beside_one (fun hlt => htok.not_inside hseg hlt (Or.inl ⟨hx.trans hstart, by omega⟩))
    ((bracketless_of_segment hseg).mono (hx.trans hstart) (hstop.trans hy))

theorem beside_groups (htok : TokenAt K text t t') {idx : List ℕ} (hr : r.apart idx = true)
    (hm : (r.rx R).Found text m) :
    Beside text enabled t t' ⟨pdType, groups m idx, priority, requiresAny⟩ := by
  have hgroup : ∀ g ∈ idx, Beside text enabled t t' ⟨pdType, [m.groupSpan g], priority, requiresAny⟩ :=
    fun g hg => beside_of_group htok hr hm hg le_rfl le_rfl
  refine ⟨?_, ?_⟩
  · intro henabled p hp
    obtain ⟨g, hg, rfl⟩ := List.mem_map.mp hp
    exact (hgroup g hg).1 henabled _ (List.mem_singleton_self _)
  · intro p hp
    obtain ⟨g, hg, rfl⟩ := List.mem_map.mp hp
    exact (hgroup g hg).2 _ (List.mem_singleton_self _)

end Tools

/-! ### Numbers -/

section Numbers

open FinanceContacts

variable {R : Runtime} {K : Masker} {text : Str} {t t' : ℕ} {enabled : Finset PDType}

theorem card_beside (htok : TokenAt K text t t') :
    Yields (Beside text enabled t t') ((CardDetector R).detect text) := by
  have hsites : ∀ r ∈ [cardRe, cvvRe, pinRe, expiryCtxRe, expiryWeakCtxRe, expiryBareRe], (r, [1]) ∈ groupSites := by
    simp [groupSites]
  refine card_yields ?_
  intro r hr m hm pdType _ priority _ requiresAny
  exact beside_groups htok (apart_of_mem (hsites r hr)) (finditer_found hm)

theorem inn_beside (htok : TokenAt K text t t') : Yields (Beside text enabled t t')
    ((InnDetector R).detect text) := by
  have hsites : ∀ r ∈ [innCtxRe, innBareRe], (r, [1]) ∈ groupSites := by simp [groupSites]
  refine inn_yields ?_
  intro r hr m hm priority _
  exact beside_groups htok (apart_of_mem (hsites r hr)) (finditer_found hm)

end Numbers

/-! ### Documents and dates -/

section Documents

open Documents Dates

variable {R : Runtime} {K : Masker} {text : Str} {t t' : ℕ} {enabled : Finset PDType}

theorem identity_beside (htok : TokenAt K text t t') :
    Yields (Beside text enabled t t') ((IdentityDocumentDetector R).detect text) := by
  have hsites : ∀ r ∈ [driverCtxRe, passportCtxRe, seriesNumberRe, passportBareSpacedRe, passportBareRe],
      (r, [1, 2]) ∈ groupSites := by simp [groupSites]
  refine identity_yields ?_
  intro r hr m hm pdType _ priority _
  exact beside_groups htok (apart_of_mem (hsites r hr)) (finditer_found hm)

theorem extra_beside (htok : TokenAt K text t t') :
    Yields (Beside text enabled t t') ((ExtraDocumentDetector R).detect text) := by
  have hsites : ∀ p ∈ [(snilsRe, [1]), (foreignPassportRe, [1, 2]), (militaryIdRe, [1, 2]), (birthCertRe, [1, 2, 3])],
      p ∈ groupSites := by simp [groupSites]
  refine extra_yields ?_
  intro r idx hr m hm pdType _ priority _
  exact beside_groups htok (apart_of_mem (hsites _ hr)) (finditer_found hm)

theorem birthPlaces_beside (htok : TokenAt K text t t') :
    Yields (Beside text enabled t t') (IssuanceDetector.birthPlaces R text) := by
  have hword : tokenSummary.spanAll Demand.alien birthPlaceWordRe = true :=
    spanAll_of_mem (by simp [spanSites])
  have hplain : ∀ r ∈ [birthPlaceRe, birthPlaceValueRe], r ∈ plainSites := by simp [plainSites]
  refine IssuanceDetector.birthPlaces_yields ?_
  intro r hr value hvalue first last hfirst hlast
  obtain ⟨-, hle, hlen⟩ := groupSpan_within (k := 1) hvalue.within
  have hmem := IssuanceDetector.mem_birthPlaceWords (List.mem_of_mem_head? hfirst)
  have hmem' := IssuanceDetector.mem_birthPlaceWords (List.mem_of_mem_getLast? hlast)
  have hstop := (finditerIn_found hle hmem').within.2.1
  rw [List.length_take] at hstop
  have hgroup : Bracketless text ((value.groupSpan 1).1, (value.groupSpan 1).2) :=
    (bracketless_of_plain (hplain r hr) hvalue).2 1
  exact beside_one (fun hlt => htok.not_inside_of_start (segment_in hword hle hmem) hlt)
    (hgroup.mono (finditerIn_start hle hlen hmem) (hstop.trans (min_le_left _ _)))

/-- The issuers apart. -/
theorem issuance_beside (htok : TokenAt K text t t') {P : Candidate → Prop} (hP : ∀ c, Beside text enabled t t' c → P c)
    (hissuers : Yields P (IssuanceDetector.issuers R text)) : Yields P ((IssuanceDetector R).detect text) := by
  have hsites : ∀ r ∈ [deptCodeRe, deptCodeBareRe, citizenshipRe], (r, [1]) ∈ groupSites := by simp [groupSites]
  refine issuance_yields ?_ hissuers ((birthPlaces_beside htok).mono hP)
  intro r hr m hm pdType _ priority _ requiresAny
  exact hP _ (beside_groups htok (apart_of_mem (hsites r hr)) (finditer_found hm))

/-- A date with an alien separator inside. -/
theorem beside_separated (htok : TokenAt K text t t') {r : Re} {pdType : PDType} {priority : ℤ}
    {requiresAny : Finset PDType} {m : Match} (hr : r.apart [2] = true) (hplain : r ∈ plainSites)
    (hm : (r.rx R).Found text m) : Beside text enabled t t' ⟨pdType, [(m.start, m.stop)], priority, requiresAny⟩ := by
  obtain ⟨x, y, hx, -, -, hy, hseg⟩ := segment_of_apart hr hm (List.mem_singleton_self 2)
  exact beside_one (fun hlt => htok.not_inside hseg hlt (Or.inr ⟨hx, hy⟩)) (bracketless_of_plain hplain hm).1

theorem date_beside (htok : TokenAt K text t t') :
    Yields (Beside text enabled t t') ((DateDetector R).detect text) := by
  have hnumeric : ∀ r ∈ [numericDmyRe, numericYmdRe], (r, [2]) ∈ groupSites ∧ r ∈ plainSites := by
    simp [groupSites, plainSites]
  have hwords : ∀ r ∈ [textDateRe, monthYearRe], r ∈ spanSites := by simp [spanSites]
  refine date_yields ?_
  intro r hr m hm pdType _ priority _ requiresAny
  rcases List.mem_append.mp (show r ∈ [numericDmyRe, numericYmdRe] ++ [textDateRe, monthYearRe] from hr) with hr | hr
  · obtain ⟨hgroup, hplain⟩ := hnumeric r hr
    exact beside_separated htok (apart_of_mem hgroup) hplain (finditer_found hm)
  · exact beside_span htok (spanAll_of_mem (hwords r hr)) (finditer_found hm)

end Documents

/-! ### Addresses and telephone numbers -/

section Contacts

variable {R : Runtime} {K : Masker} {text : Str} {t t' : ℕ} {enabled : Finset PDType}

/-- A part with more symbols of a kind than a token has is not inside one. -/
theorem TokenAt.not_inside_of_count (htok : TokenAt K text t t') {p : Char → Bool} {n a b : ℕ}
    (htoken : ∀ pdType span, (K.token pdType span).countP p < n) (hcount : n ≤ (slice text a b).countP p) :
    ¬ (t ≤ a ∧ b ≤ t') := by
  rintro ⟨ha, hb⟩
  obtain ⟨-, -, pdType, span, heq⟩ := htok
  have hpart : slice text a b = ((slice text t t').drop (a - t)).take (b - a) := by
    unfold slice
    rw [List.drop_take, List.drop_drop, List.take_take]
    congr 2 <;> omega
  have hsub : (slice text a b).Sublist (K.token pdType span) := by
    rw [hpart, heq]
    exact (List.take_sublist _ _).trans (List.drop_sublist _ _)
  have hle := hsub.countP_le (p := p)
  have hlt := htoken pdType span
  omega

theorem countP_token (p : Char → Bool) (hopen : p '[' = false) (hclose : p ']' = false) (pdType : PDType)
    (span : Str) : (K.token pdType span).countP p = (tokenBody K pdType span).countP p := by
  rw [token_eq, List.countP_cons, List.countP_append, List.countP_singleton, hopen, hclose]
  simp

/-- A token has six digits at most. -/
theorem digits_token (pdType : PDType) (span : Str) : (K.token pdType span).countP R.isdecimal < 7 := by
  have hopen : R.isdecimal '[' = false := R.isdecimal_ascii '[' (by decide)
  have hclose : R.isdecimal ']' = false := R.isdecimal_ascii ']' (by decide)
  have hle := countP_tokenBody R K pdType span
  rw [countP_token R.isdecimal hopen hclose]
  omega

/-- A token has no sign. -/
theorem sign_token {c : Char} (hc : tokenChar c = false) (hopen : c ≠ '[') (hclose : c ≠ ']') (pdType : PDType)
    (span : Str) : (K.token pdType span).countP (· == c) < 1 := by
  rw [countP_token (· == c) (by simpa using hopen.symm) (by simpa using hclose.symm), Nat.lt_one_iff]
  refine List.countP_eq_zero.mpr ?_
  intro d hd heq
  obtain rfl := beq_iff_eq.mp heq
  exact Bool.false_ne_true (hc.symm.trans (tokenChar_of_mem_tokenBody hd))

theorem counts_digits {p : Char → Bool} (n : ℕ) (max : Option ℕ) (hp : ∀ c, R.isdecimal c = true → p c = true) :
    Counts p n (.rep false n max (digit R)) := by
  have hdigit : Counts p 1 (digit R) := Counts.cls hp
  exact (Counts.rep false n max hdigit).mono (by omega)

theorem counts_email : Counts (· == '@') 1 (emailRe R) := by
  have hat : Counts (fun c : Char => c == '@') 1 (cls (· == '@')) := Counts.cls (fun _ => id)
  refine hat.of_mem ?_
  simp only [List.mem_cons, true_or, or_true]

theorem counts_phoneIntl : Counts (· == '+') 1 (phoneIntlRe R) := by
  have hplus : Counts (fun c : Char => c == '+') 1 (cls (· == '+')) := Counts.cls (fun _ => id)
  refine hplus.of_mem ?_
  simp only [List.mem_cons, true_or, or_true]

theorem counts_phoneRu : Counts R.isdecimal 7 (phoneRuRe R) := by
  have hdigits := fun n => counts_digits (R := R) (p := R.isdecimal) n (some n) (fun _ => id)
  have hcount : Counts R.isdecimal [0, 0, 0, 0, 3, 0, 0, 3, 0, 2, 0, 2, 0].sum (phoneRuRe R) := by
    refine Counts.concat ?_
    simp only [List.forall₂_cons, Counts.zero, List.forall₂_nil_left_iff, true_and, and_true]
    exact ⟨hdigits 3, hdigits 3, hdigits 2, hdigits 2⟩
  exact hcount.mono (by decide)

/-- The number behind a label. -/
theorem counts_phoneCtx {m : Match} (hm : (phoneCtxRe R).Found text m) :
    7 ≤ (slice text (m.groupSpan 1).1 (m.groupSpan 1).2).countP R.isdecimal := by
  have hdigits := fun n => counts_digits (R := R) (p := R.isdecimal) n (some n) (fun _ => id)
  have hbody : Counts R.isdecimal 7 (alt (concat [times 3 (digit R), phoneSep R, times 2 (digit R), phoneSep R,
      times 2 (digit R)]) (times 10 (digit R))) := by
    have hcount : Counts R.isdecimal [3, 0, 2, 0, 2].sum (concat [times 3 (digit R), phoneSep R, times 2 (digit R),
        phoneSep R, times 2 (digit R)]) := by
      refine Counts.concat ?_
      simp only [List.forall₂_cons, Counts.zero, List.forall₂_nil_left_iff, true_and, and_true]
      exact ⟨hdigits 3, hdigits 2, hdigits 2⟩
    exact (hcount.mono (by decide)).alt ((hdigits 10).mono (by decide))
  exact count_last_group hbody [_, _, _, _] hm

theorem contact_beside (htok : TokenAt K text t t') :
    Yields (Beside text enabled t t') ((ContactDetector R).detect text) := by
  refine contact_yields ?_ ?_ ?_ ?_
  · intro m hm
    have htoken := sign_token (K := K) (c := '@') (by decide) (by decide) (by decide)
    have hfound := finditer_found hm
    exact beside_one (fun _ => htok.not_inside_of_count htoken (counts_email.of_found hfound))
      (bracketless_of_symbols (passes_email.of_found hfound))
  · intro m hm
    have hfound := finditer_found hm
    exact beside_one (fun _ => htok.not_inside_of_count digits_token (counts_phoneRu.of_found hfound))
      (bracketless_of_symbols (passes_phoneRu.of_found hfound))
  · intro m hm
    have htoken := sign_token (K := K) (c := '+') (by decide) (by decide) (by decide)
    have hfound := finditer_found hm
    exact beside_one (fun _ => htok.not_inside_of_count htoken (counts_phoneIntl.of_found hfound))
      (bracketless_of_symbols (passes_phoneIntl.of_found hfound))
  · intro m hm
    have hfound := finditer_found hm
    exact beside_one (fun _ => htok.not_inside_of_count digits_token (counts_phoneCtx hfound))
      (bracketless_phoneCtx hfound)

end Contacts

/-! ### Names -/

section Names

open Names Fio

variable {R : Runtime} {K : Masker} {text : Str} {t t' : ℕ} {enabled : Finset PDType}

/-- Spans inside the text that are beside a token. -/
def BesideIn (text : Str) (enabled : Finset PDType) (t t' : ℕ) (c : Candidate) : Prop :=
  Beside text enabled t t' c ∧ ∀ p ∈ c.spans, p.2 ≤ text.length

theorem joined_beside (htok : TokenAt K text t t') {first last : Token} (hfirst : first ∈ tokenize R text)
    (hlast : last ∈ tokenize R text) (hjoined : FioDetector.Joined R text first last) (priority : ℤ) :
    BesideIn text enabled t t' ⟨.fio, [(first.start, last.stop)], priority, ∅⟩ := by
  have hword : tokenSummary.spanAll Demand.alien wordRe = true :=
    spanAll_of_mem (by simp [spanSites])
  have hfree := bracketless_joined hfirst hjoined
  obtain ⟨m, hm, rfl⟩ := List.mem_map.mp hfirst
  obtain ⟨m', hm', rfl⟩ := List.mem_map.mp hlast
  have hseg := span_segment (tokenSummary_sound R) hword (finditer_found hm)
  refine ⟨beside_one (fun hlt => htok.not_inside_of_start hseg hlt) hfree, ?_⟩
  intro p hp
  obtain rfl := List.mem_singleton.mp hp
  exact (finditer_within _ text m' hm').2.1

theorem holder_beside (htok : TokenAt K text t t') {m first last : Match}
    (hm : m ∈ (holderCueRe.rx R).finditer text) (hfirst : first ∈ FioDetector.holderWords R text m)
    (hlast : last ∈ FioDetector.holderWords R text m) :
    BesideIn text enabled t t' ⟨.cardHolder, [(first.start, last.stop)], 80, ∅⟩ := by
  have hcue : holderCueRe.apart [1] = true := apart_of_mem (by simp [groupSites])
  obtain ⟨-, hle, hlen⟩ := groupSpan_within (k := 1) (finditer_within _ text m hm)
  have hstart := finditerIn_start hle hlen (FioDetector.mem_holderWords hfirst)
  have hstop := (finditerIn_found hle (FioDetector.mem_holderWords hlast)).within.2.1
  rw [List.length_take] at hstop
  have hin : last.stop ≤ (m.groupSpan 1).2 := hstop.trans (min_le_left _ _)
  refine ⟨beside_of_group htok hcue (finditer_found hm) (List.mem_singleton_self 1) hstart hin, ?_⟩
  intro p hp
  obtain rfl := List.mem_singleton.mp hp
  exact hstop.trans (min_le_right _ _)

/-- A match that is an alien segment, with its place in the text. -/
theorem besideIn_span (htok : TokenAt K text t t') {r : Re} {pdType : PDType} {priority : ℤ}
    {requiresAny : Finset PDType} {m : Match} (hr : tokenSummary.spanAll Demand.alien r = true)
    (hm : m ∈ (r.rx R).finditer text) :
    BesideIn text enabled t t' ⟨pdType, [m.span], priority, requiresAny⟩ := by
  refine ⟨beside_span htok hr (finditer_found hm), ?_⟩
  intro p hp
  obtain rfl := List.mem_singleton.mp hp
  exact (finditer_within _ text m hm).2.1

theorem fio_candidates_beside (htok : TokenAt K text t t') :
    Yields (BesideIn text enabled t t') (FioDetector.candidates R text) := by
  have hinitials : ∀ r ∈ [initialsAfterRe, initialsBeforeRe], tokenSummary.spanAll Demand.alien r = true := by
    simp only [List.forall_mem_cons]
    exact ⟨spanAll_of_mem (by simp [spanSites]), spanAll_of_mem (by simp [spanSites]), nofun⟩
  have hlatin : tokenSummary.spanAll Demand.alien latinHolderRe = true :=
    spanAll_of_mem (by simp [spanSites])
  have hwords : ∀ priority : ℤ, ∀ first ∈ tokenize R text, ∀ last ∈ tokenize R text,
      FioDetector.Joined R text first last →
      BesideIn text enabled t t' ⟨.fio, [(first.start, last.stop)], priority, ∅⟩ := by
    intro priority first hfirst last hlast hjoined
    exact joined_beside htok hfirst hlast hjoined priority
  refine (((FioDetector.byMorphology_yields (hwords 60) 0 _ (List.Subset.refl _)).append (Yields.flatMap ?_)).append
    (FioDetector.byCue_yields (hwords 58) _ (List.Subset.refl _))).append (FioDetector.cardHolders_yields ?_ ?_)
  · intro r hr
    refine Yields.map ?_
    intro m hm
    exact Yields.one (besideIn_span htok (hinitials r hr) hm)
  · intro m hm first hfirst last hlast
    exact holder_beside htok hm hfirst hlast
  · intro m hm
    exact besideIn_span htok hlatin hm

/-- A name stays beside a token when its span grows. -/
theorem fio_beside (htok : TokenAt K text t t') :
    Yields (BesideIn text enabled t t') ((FioDetector R).detect text) := by
  refine FioDetector.detect_yields (fio_candidates_beside htok) ?_
  intro c hc hfio p hp hlt
  obtain ⟨hstart, hstop, hlen⟩ := extendPersonSpan_le R p.1 (hc.2 p hp)
  refine ⟨⟨?_, ?_⟩, ?_⟩
  · intro henabled q hq _ hin
    obtain rfl := List.mem_singleton.mp hq
    exact hc.1.1 (hfio ▸ henabled) p hp hlt ⟨hin.1.trans hstart, hstop.trans hin.2⟩
  · intro q hq
    obtain rfl := List.mem_singleton.mp hq
    exact bracketless_extend (hc.2 p hp) (hc.1.2 p hp)
  · intro q hq
    obtain rfl := List.mem_singleton.mp hq
    exact hlen

end Names

/-! ### Addresses by their components -/

section Addresses

open Address

variable {R : Runtime} {K : Masker} {text : Str} {t t' : ℕ} {enabled : Finset PDType}

/-- Around the value of a component there is an alien segment, perhaps with what the pattern looks at behind it. -/
theorem component_beside (htok : TokenAt K text t t') {c : Component} (hc : c ∈ AddressDetector.found R text)
    {pdType : PDType} {priority : ℤ} {requiresAny : Finset PDType} :
    Beside text enabled t t' ⟨pdType, [c.value], priority, requiresAny⟩ := by
  obtain ⟨-, -, -, -, hall, -⟩ := sites_apart
  obtain ⟨kp, hkp, m, hm, -, -, hstart, hstop⟩ := AddressDetector.mem_found hc
  obtain ⟨m', hm', hgroups⟩ := Pattern.found_consume (finditer_found hm)
  obtain ⟨halways, hgroup⟩ := Bool.and_eq_true_iff.mp
    (List.all_eq_true.mp (hall kp hkp).1 1 (List.mem_singleton_self 1))
  obtain ⟨span, hspan⟩ := Pattern.group_of_always halways hm'
  have heq : m.groupSpan 1 = span := by
    rw [Match.groupSpan, Match.group, ← hgroups, ← Match.group, hspan, Option.getD_some]
  obtain ⟨x, y, -, hx, hy, -, hseg⟩ := group_segment (tokenSummary_sound R) hgroup hm' hspan
  rw [heq] at hstart hstop
  have hle : c.value.2 ≤ y := hstop.trans hy
  exact beside_one (fun hlt => htok.not_inside hseg hlt (Or.inl ⟨hx.trans hstart.le, by omega⟩))
    ((bracketless_of_segment hseg).mono (hx.trans hstart.le) hle)

/-- A house number behind a street: if it began in a token, so would what the street ends with. -/
theorem house_not_inside (htok : TokenAt K text t t') {street : Component}
    (hstreet : street ∈ AddressDetector.found R text) (hkind : street.kind = .street) {m : Match}
    (hm : (bareHouseRe.rx R).matchAt text street.stop = some m) (hlt : (m.groupSpan 1).1 < (m.groupSpan 1).2) :
    ¬ (t ≤ (m.groupSpan 1).1 ∧ (m.groupSpan 1).2 ≤ t') := by
  obtain ⟨-, -, -, -, hstops, hspanAll, halways, hgroupAll, -⟩ := sites_apart
  obtain ⟨kp, hkp, s, hs, hkp', hstop, -, -⟩ := AddressDetector.mem_found hstreet
  have hlast := (hstops kp hkp).2 (hkp'.symm.trans hkind)
  obtain ⟨x, -, hseg⟩ := stop_segment (tokenSummary_sound R) hlast (finditer_found hs)
  rw [← hstop] at hseg
  obtain ⟨hfound, hstart⟩ := matchAt_found hseg.2.1 hm
  obtain ⟨span, hspan⟩ := Pattern.group_of_always halways hfound
  have heq : m.groupSpan 1 = span := by rw [Match.groupSpan, hspan, Option.getD_some]
  obtain ⟨a, b, ha, ha', hb', hb, -⟩ := group_segment (tokenSummary_sound R) hgroupAll hfound hspan
  have hclosed : Segment (Demand.Holds R) (fun _ => true) text m.start m.stop :=
    span_segment (tokenSummary_sound R) hspanAll hfound
  rw [heq] at hlt ⊢
  rintro ⟨hleft, hright⟩
  have hbefore : t < m.start := by
    by_contra hnot
    exact (notMem_of_segment hclosed (by omega) (by omega)).1 htok.brackets.1
  have hne := lt_of_alien K hseg
  have hapart := htok.apart hseg
  omega

theorem address_beside (htok : TokenAt K text t t') :
    Yields (Beside text enabled t t') ((AddressDetector R).detect text) := by
  have hlocality : tokenSummary.spanAll Demand.alien localityRe = true :=
    spanAll_of_mem (by simp [spanSites])
  refine Yields.map ?_
  intro c hc
  refine Yields.one ?_
  rcases AddressDetector.mem_values hc with hc | ⟨m, hm, rfl⟩ | ⟨street, hstreet, hkind, m, hm, rfl⟩
  · exact component_beside htok hc
  · exact beside_span htok hlocality (finditer_found hm)
  · obtain ⟨kp, hkp, l, hl, -, hstop, -, -⟩ := AddressDetector.mem_found hstreet
    have hlen : street.stop ≤ text.length := hstop ▸ (finditer_within _ text l hl).2.1
    have hplain : bareHouseRe ∈ plainSites := by simp [plainSites]
    exact beside_one (house_not_inside htok hstreet hkind hm)
      ((bracketless_of_plain hplain (matchAt_found hlen hm).1).2 1)

end Addresses

/-! ### Values behind labels -/

section Labels

open Labelled LabelledValueDetector

variable {R : Runtime} {K : Masker} {text : Str} {t t' : ℕ} {enabled : Finset PDType}

/-- A match where a label ends. -/
theorem found_behind {r label : Re} {l m : Match} (hl : l ∈ (label.rx R).finditer text)
    (hm : (r.rx R).matchAt text l.stop = some m) : (r.rx R).Found text m :=
  (matchAt_found (finditer_within _ text l hl).2.1 hm).1

/-- A value with an alien segment, where it is found in the text. -/
theorem beside_value (htok : TokenAt K text t t') {pdType : PDType} {priority : ℤ} {value : Str} {start x y : ℕ}
    (hne : value ≠ []) (hfind : find text value = some start)
    (hseg : Segment (Demand.Holds R) Demand.alien value x y) (hfree : Bracketless value (0, value.length)) :
    Beside text enabled t t' ⟨pdType, [(start, start + value.length)], priority, ∅⟩ := by
  obtain ⟨hlen, hslice⟩ := find_spec hne hfind
  have hy := hseg.2.1
  rw [slice, Nat.add_sub_cancel_left] at hslice
  exact beside_one (fun hlt =>
    htok.not_inside (hseg.of_part hslice hlen) hlt (Or.inr ⟨Nat.le_add_right start x, by omega⟩))
    (bracketless_of_value hne hfind hfree)

theorem labelled_beside (htok : TokenAt K text t t') :
    Yields (Beside text enabled t t') ((LabelledValueDetector R).detect text) := by
  have hdocuments : ∀ r ∈ [seriesFirstRe, numberFirstRe], Re.apart r [1, 2] = true := by
    simp only [List.forall_mem_cons]
    exact ⟨apart_of_mem (by simp [groupSites]), apart_of_mem (by simp [groupSites]), nofun⟩
  have hdate : labelledDateRe.apart [1] = true := apart_of_mem (by simp [groupSites])
  have hname : tokenSummary.spanAll Demand.alien wholeNameRe = true :=
    spanAll_of_mem (by simp [spanSites])
  have hclient : clientNameRe.apart [1] = true := apart_of_mem (by simp [groupSites])
  have hcitizenship : tokenSummary.spanAll Demand.alien citizenshipValueRe = true :=
    spanAll_of_mem (by simp [spanSites])
  refine (((((Yields.flatMap ?_).append (dates_yields ?_)).append (labelledNames_yields ?_)).append
    (clientNames_yields ?_)).append (wholeName_yields ?_)).append (citizenship_yields ?_)
  · intro r hr
    refine Yields.map ?_
    intro m hm
    exact Yields.one (beside_groups htok (hdocuments r hr) (finditer_found hm))
  · intro label hlabel m hm pdType _
    exact beside_groups htok hdate (found_behind hlabel hm)
  · intro label hlabel m hm
    exact beside_span htok hname (found_behind hlabel hm)
  · intro m hm
    exact beside_groups htok hclient (finditer_found hm)
  · intro value start hne hfull hfind
    obtain ⟨m, hm⟩ := Option.isSome_iff_exists.mp hfull
    obtain ⟨hfound, hspan⟩ := fullmatch_found hm
    have hseg := span_segment (tokenSummary_sound R) hname hfound
    have hfree : Bracketless value m.span := bracketless_of_segment hseg
    rw [hspan] at hfree
    exact beside_value htok hne hfind hseg hfree
  · intro label hlabel m hm
    exact beside_span htok hcitizenship (found_behind hlabel hm)

end Labels

/-! ### Values in a context -/

section Contexts

open ContextValues ContextValueDetector Names

variable {R : Runtime} {K : Masker} {text : Str} {t t' : ℕ} {enabled : Finset PDType}

/-- Where a label ends, no token has begun and not yet ended. -/
theorem TokenAt.label_stop (htok : TokenAt K text t t') {r : Re} {label : Match}
    (hr : tokenSummary.stopAll Demand.alien r = true) (hlabel : label ∈ (r.rx R).finditer text)
    (hlt : label.stop < t') : label.stop ≤ t := by
  obtain ⟨x, -, hseg⟩ := stop_segment (tokenSummary_sound R) hr (finditer_found hlabel)
  have hne := lt_of_alien K hseg
  have hapart := htok.apart hseg
  omega

/-- From the end of a role to the end of a name there is no bracket. -/
theorem roleNames_beside (htok : TokenAt K text t t') : Yields (Beside text enabled t t') (roleNames R text) := by
  have hlabelRe : tokenSummary.stopAll Demand.alien roleLabelRe = true :=
    stopAll_of_mem (by simp [labelSites])
  refine roleNames_yields ?_
  intro label hlabel first last hfirst hlast stop hstop
  have hpos : label.stop ≤ text.length := (finditer_within _ text label hlabel).2.1
  have hmem := List.mem_of_mem_getLast? hlast
  have hfound : ∀ w ∈ (nameTokenRe.rx R).finditerIn text label.stop text.length, (nameTokenRe.rx R).Found text w := by
    intro w hw
    have hfound := finditerIn_found hpos hw
    rwa [List.take_length] at hfound
  have hwords : ∀ w ∈ (nameTokenRe.rx R).finditerIn text label.stop text.length, Bracketless text w.span :=
    fun w hw => (bracketless_of_plain (by simp [plainSites]) (hfound w hw)).1
  have hnames := bracketless_nameTokensFrom hwords hmem
  obtain ⟨h1, h2, h3⟩ := nameTokens_within hpos hfirst hmem
  have hword : 0 < nameTokenRe.least (fun _ => true) := by decide +kernel
  have hlast' := Pattern.start_lt_stop hword (hfound last (mem_nameTokensFrom hmem))
  have hlen : stop ≤ text.length := by omega
  have hfree : Bracketless text (extendPersonSpan R text first.start stop) :=
    bracketless_extend hlen (hnames.mono h1 (by omega))
  obtain ⟨hgrow, hgrow', -⟩ := extendPersonSpan_le R first.start hlen
  refine beside_one ?_ hfree
  rintro hlt ⟨hleft, hright⟩
  -- the token does not begin in the name, so it begins between the role and the name
  have hstart : t ≠ (extendPersonSpan R text first.start stop).1 := by
    rintro heq
    exact (hfree t heq.ge (heq ▸ hlt)).1 htok.brackets.1
  have hlabel' := htok.label_stop hlabelRe hlabel (by omega)
  exact (hnames t hlabel' (show t < last.stop by omega)).1 htok.brackets.1

/-- The issuers apart, and the card secrets that `_PIN_RE` and the first of the code patterns match. -/
theorem context_beside (htok : TokenAt K text t t') {P : Candidate → Prop} (hP : ∀ c, Beside text enabled t t' c → P c)
    (hpin : ∀ m ∈ (pinRe.rx R).finditer text, P ⟨.cardPin, [m.groupSpan 1], 86, ∅⟩)
    (hcvv : ∀ m ∈ (cvvRe.rx R).finditer text, P ⟨.cardCvv, [m.groupSpan 1], 86, ∅⟩)
    (hissuers : Yields P (issuers R text)) :
    Yields P ((ContextValueDetector R).detect text) := by
  have hafter : cvvAfterRe.apart [1] = true := apart_of_mem (by simp [groupSites])
  have hcard : cardAndCodeRe.apart [1, 2] = true := apart_of_mem (by simp [groupSites])
  have hnumber : ∀ r ∈ [innRe, seriesOnlyRe, deptRe], Re.apart r [1] = true := by
    simp only [List.forall_mem_cons]
    exact ⟨apart_of_mem (by simp [groupSites]), apart_of_mem (by simp [groupSites]),
      apart_of_mem (by simp [groupSites]), nofun⟩
  have hwhole : ∀ r ∈ [wholeInnRe, wholeDocRe], Re.apart r [1] = true := by
    simp only [List.forall_mem_cons]
    exact ⟨apart_of_mem (by simp [groupSites]), apart_of_mem (by simp [groupSites]), nofun⟩
  have hname : tokenSummary.spanAll Demand.alien bareNameRe = true :=
    spanAll_of_mem (by simp [spanSites])
  have hlatin : latinLeadNameRe.apart [1] = true := apart_of_mem (by simp [groupSites])
  obtain ⟨-, -, -, haddress, -⟩ := sites_apart
  refine (((((cardSecrets_yields hpin ?_ ?_).append ((numbers_yields ?_ ?_).mono hP)).append
    hissuers).append ((roleNames_beside htok).mono hP)).append
    ((bareNames_yields ?_ ?_).mono hP)).append ((bareAddresses_yields ?_).mono hP)
  · intro r hr m hm
    rcases List.mem_cons.mp hr with rfl | hr
    · exact hcvv m hm
    · obtain rfl := List.mem_singleton.mp hr
      exact hP _ (beside_groups htok hafter (finditer_found hm))
  · intro m hm
    have hfound := (matchAt_found (Nat.zero_le _) hm).1
    refine ⟨hP _ ?_, fun pdType _ => hP _ ?_⟩
    · exact beside_of_group htok hcard hfound (by decide : 1 ∈ [1, 2]) le_rfl le_rfl
    · exact beside_of_group htok hcard hfound (by decide : 2 ∈ [1, 2]) le_rfl le_rfl
  · intro r hr m hm pdType _ priority _
    exact beside_groups htok (hnumber r hr) (finditer_found hm)
  · intro r hr m hm pdType _
    exact beside_groups htok (hwhole r hr) (matchAt_found (Nat.zero_le _) hm).1
  · intro value start hbare hfind
    obtain ⟨m, hm⟩ := Option.isSome_iff_exists.mp hbare
    have hseg : Segment (Demand.Holds R) Demand.alien value m.start m.stop :=
      span_segment (tokenSummary_sound R) hname (matchAt_found (Nat.zero_le _) hm).1
    refine beside_value htok ?_ hfind hseg (bracketless_bareName hbare)
    rintro rfl
    have hlt := lt_of_alien K hseg
    have hlen := hseg.2.1
    rw [List.length_nil] at hlen
    omega
  · intro m hm
    exact beside_groups htok hlatin (matchAt_found (Nat.zero_le _) hm).1
  · intro m hm idx hidx span hspan
    exact beside_group htok (haddress idx hidx) (finditer_found hm) hspan

end Contexts

/-! ### All detectors -/

/-- What is not beside a token, named in the module docstring, and all others. -/
theorem detectors_beside {R : Runtime} {K : Masker} {text : Str} {t t' : ℕ} {enabled : Finset PDType}
    (htok : TokenAt K text t t') {P : Candidate → Prop} (hP : ∀ c, Beside text enabled t t' c → P c)
    (hvalue : Yields P ((StandaloneValueDetector R).detect text))
    (hpin : ∀ m ∈ (ContextValues.pinRe.rx R).finditer text, P ⟨.cardPin, [m.groupSpan 1], 86, ∅⟩)
    (hcvv : ∀ m ∈ (ContextValues.cvvRe.rx R).finditer text, P ⟨.cardCvv, [m.groupSpan 1], 86, ∅⟩)
    (hissuers : Yields P (IssuanceDetector.issuers R text ++ ContextValueDetector.issuers R text)) :
    ∀ d ∈ defaultDetectors R, Yields P (d.detect text) := by
  have hissuers' : Yields P (IssuanceDetector.issuers R text) :=
    fun e he => hissuers e (List.mem_append_left _ he)
  have hissuers'' : Yields P (ContextValueDetector.issuers R text) :=
    fun e he => hissuers e (List.mem_append_right _ he)
  simp only [defaultDetectors, List.forall_mem_cons]
  refine ⟨hvalue, (contact_beside htok).mono hP, (card_beside htok).mono hP,
    (inn_beside htok).mono hP, (identity_beside htok).mono hP, issuance_beside htok hP hissuers',
    (extra_beside htok).mono hP, (date_beside htok).mono hP, ?_, (address_beside htok).mono hP,
    (labelled_beside htok).mono hP, context_beside htok hP hpin hcvv hissuers'', nofun⟩
  exact (fio_beside htok).mono (fun c hc => hP c hc.1)

end PdMasking
