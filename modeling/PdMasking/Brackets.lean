import PdMasking.Lib.Only
import PdMasking.TokenPatterns

/-!
# PdMasking.Brackets — spans without brackets

A span without brackets that has a character of a token lies inside the token (`inside_of_bracketless`).  The patterns
of the detectors read no bracket (`plainSites`, `passes_email`, the patterns of telephone numbers), and where a detector
puts a span together, it does so over blanks: the words of a name (`bracketless_joined`, `bracketless_nameTokens`) and
the words next to it (`bracketless_extend`).
-/

namespace PdMasking

open Regex Summary

/-- No bracket stands in the span. -/
def Bracketless (text : Str) (p : ℕ × ℕ) : Prop :=
  ∀ i, p.1 ≤ i → i < p.2 → text[i]? ≠ some '[' ∧ text[i]? ≠ some ']'

/-- A character that is no bracket. -/
def noBracket (c : Char) : Bool := c != '[' && c != ']'

section Spans

variable {R : Runtime} {K : Masker} {text : Str} {a a' b b' c t t' : ℕ} {p : ℕ × ℕ}

theorem Bracketless.mono (h : Bracketless text (a, b)) (ha : a ≤ a') (hb : b' ≤ b) : Bracketless text (a', b') :=
  fun i hi hi' => h i (ha.trans hi) (lt_of_lt_of_le hi' hb)

theorem bracketless_self (a : ℕ) : Bracketless text (a, a) :=
  fun _ hi hi' => absurd (lt_of_le_of_lt hi hi') (lt_irrefl a)

/-- Two spans that meet. -/
theorem Bracketless.append (h : Bracketless text (a, b)) (h' : Bracketless text (a', c)) (hle : a' ≤ b) :
    Bracketless text (a, c) := by
  intro i (hi : a ≤ i) (hi' : i < c)
  by_cases hib : i < b
  · exact h i hi hib
  · exact h' i (hle.trans (Nat.le_of_not_lt hib)) hi'

theorem bracketless_of_symbols (h : ∀ d ∈ slice text a b, noBracket d = true) : Bracketless text (a, b) := by
  intro i (hi : a ≤ i) (hi' : i < b)
  have hfree : ∀ d : Char, noBracket d = false → text[i]? ≠ some d := by
    intro d hd hcopy
    have hmem : d ∈ slice text a b := by
      refine List.mem_of_getElem? (i := i - a) ?_
      rw [getElem?_slice (by omega), Nat.add_sub_cancel' hi]
      exact hcopy
    rw [h d hmem] at hd
    cases hd
  exact ⟨hfree '[' (by decide), hfree ']' (by decide)⟩

/-- Blanks are no brackets. -/
theorem bracketless_of_blank (h : ∀ d ∈ slice text a b, R.isspace d = true) : Bracketless text (a, b) := by
  refine bracketless_of_symbols ?_
  intro d hd
  have hne : ∀ e : Char, R.isspace e = false → d ≠ e := by
    rintro e he rfl
    rw [h d hd] at he
    cases he
  have hopen := hne '[' (R.isspace_ascii '[' (by decide))
  have hclose := hne ']' (R.isspace_ascii ']' (by decide))
  rw [noBracket, Bool.and_eq_true, bne_iff_ne, bne_iff_ne]
  exact ⟨hopen, hclose⟩

theorem bracketless_of_segment {f : Demand → Bool} (hseg : Segment (Demand.Holds R) f text a b) :
    Bracketless text (a, b) := fun _ hi hi' => notMem_of_segment hseg hi hi'

/-- **A span without brackets that has a character of a token** lies inside it. -/
theorem inside_of_bracketless (htok : TokenAt K text t t') (hfree : Bracketless text p) (h1 : t < p.2)
    (h2 : p.1 < t') : t ≤ p.1 ∧ p.2 ≤ t' := by
  obtain ⟨hopen, hclose⟩ := htok.brackets
  have hlt := htok.lt
  constructor
  · by_contra hnot
    exact (hfree t (by omega) (by omega)).1 hopen
  · by_contra hnot
    exact (hfree (t' - 1) (by omega) (by omega)).2 hclose

end Spans

/-! ### The patterns -/

/-- Patterns without a class that holds a bracket. -/
def plainSites : List Re :=
  [Dates.numericDmyRe, Dates.numericYmdRe, Documents.birthPlaceRe, Documents.birthPlaceValueRe, Names.leftInitialRe,
    Names.rightInitialsRe, Names.rightWordRe, ContextValues.nameTokenRe, Address.bareHouseRe]

theorem plain_sites : ∀ r ∈ plainSites, Pattern.only (fun s => !s.isOpen) r = true := by
  decide +kernel

section Patterns

variable {R : Runtime} {text : Str} {r : Re} {m : Match}

/-- A class that is not open holds no bracket. -/
theorem noBracket_of_test {s : CharSet} {c : Char} (hs : (!s.isOpen) = true) (hc : s.test R c = true) :
    noBracket c = true := by
  obtain ⟨hopen, hclose⟩ := (holds_demand (Bool.not_eq_true' _ |>.mp hs) hc).closed
  rw [List.mem_singleton] at hopen hclose
  rw [noBracket, Bool.and_eq_true, bne_iff_ne, bne_iff_ne]
  exact ⟨Ne.symm hopen, Ne.symm hclose⟩

/-- There is no bracket in such a match, nor in its groups. -/
theorem bracketless_of_plain (hr : r ∈ plainSites) (hm : (r.rx R).Found text m) :
    Bracketless text m.span ∧ ∀ g, Bracketless text (m.groupSpan g) := by
  have hsame : ∀ c d : Char, (c == d) = true → noBracket c = true → noBracket d = true := by
    intro c d hcd hc
    exact beq_iff_eq.mp hcd ▸ hc
  obtain ⟨hspan, hgroups⟩ := Pattern.found_only (fun _ _ hs hc => noBracket_of_test hs hc) hsame (plain_sites r hr) hm
  exact ⟨bracketless_of_symbols hspan, fun g => bracketless_of_symbols (hgroups g)⟩

/-- A class without brackets. -/
theorem passes_class {p : Char → Bool} (hopen : p '[' = false) (hclose : p ']' = false) :
    Passes noBracket (.cls p) := by
  refine Passes.cls ?_
  intro c hc
  rw [noBracket, Bool.and_eq_true, bne_iff_ne, bne_iff_ne]
  constructor
  · rintro rfl
    rw [hopen] at hc
    cases hc
  · rintro rfl
    rw [hclose] at hc
    cases hc

/-- An e-mail address has no brackets. -/
theorem passes_email : Passes noBracket (emailRe R) := by
  have hlabel : Passes noBracket domainLabel := by
    refine Passes.concat ?_
    simp only [List.forall_mem_cons]
    refine ⟨passes_class (by decide) (by decide), Passes.rep false 0 (some 1) (Passes.concat ?_),
      passes_class (by decide) (by decide), nofun⟩
    simp only [List.forall_mem_cons]
    exact ⟨Passes.rep false 0 (some 61) (passes_class (by decide) (by decide)),
      passes_class (by decide) (by decide), nofun⟩
  refine Passes.concat ?_
  simp only [List.forall_mem_cons]
  refine ⟨Passes.behind false _, passes_class (by decide) (by decide), Passes.rep false 0 (some 1) (Passes.concat ?_),
    passes_class (by decide) (by decide), Passes.rep false 1 none hlabel,
    Passes.rep false 2 (some 24) (passes_class (by decide) (by decide)), Passes.ahead _, nofun⟩
  simp only [List.forall_mem_cons]
  exact ⟨Passes.rep false 0 (some 62) (passes_class (by decide) (by decide)), passes_class (by decide) (by decide),
    nofun⟩

theorem passes_digit : Passes noBracket (digit R) :=
  passes_class (R.isdecimal_ascii '[' (by decide)) (R.isdecimal_ascii ']' (by decide))

theorem passes_phoneSep : Passes noBracket (phoneSep R) := by
  refine Passes.rep false 0 (some 1) (passes_class ?_ ?_)
  · rw [R.isspace_ascii '[' (by decide)]
    rfl
  · rw [R.isspace_ascii ']' (by decide)]
    rfl

/-- Nor has a telephone number. -/
theorem passes_phoneRu : Passes noBracket (phoneRuRe R) := by
  have hdigits : ∀ n, Passes noBracket (times n (digit R)) := fun n => Passes.rep false n (some n) passes_digit
  have hleft : Passes noBracket (opt (cls (· == '('))) :=
    Passes.rep false 0 (some 1) (passes_class (by decide) (by decide))
  have hright : Passes noBracket (opt (cls (· == ')'))) :=
    Passes.rep false 0 (some 1) (passes_class (by decide) (by decide))
  have hcountry : Passes noBracket (Regex.oneOf (concat [cls (· == '+'), cls (· == '7')])
      [cls (· == '8'), cls (· == '7')]) := by
    refine ((passes_class (by decide) (by decide)).seq (passes_class (by decide) (by decide))).alt
      ((passes_class (by decide) (by decide)).alt (passes_class (by decide) (by decide)))
  refine Passes.concat ?_
  simp only [List.forall_mem_cons]
  exact ⟨Passes.behind false _, hcountry, passes_phoneSep, hleft, hdigits 3, hright, passes_phoneSep, hdigits 3,
    passes_phoneSep, hdigits 2, passes_phoneSep, hdigits 2, Passes.ahead _, nofun⟩

theorem passes_phoneIntl : Passes noBracket (phoneIntlRe R) := by
  have hdigits : ∀ n k, Passes noBracket (between n k (digit R)) := fun n k =>
    Passes.rep false n (some k) passes_digit
  have hleft : Passes noBracket (opt (cls (· == '('))) :=
    Passes.rep false 0 (some 1) (passes_class (by decide) (by decide))
  have hright : Passes noBracket (opt (cls (· == ')'))) :=
    Passes.rep false 0 (some 1) (passes_class (by decide) (by decide))
  refine Passes.concat ?_
  simp only [List.forall_mem_cons]
  exact ⟨Passes.behind false _, passes_class (by decide) (by decide), Passes.ahead _, hdigits 1 3, passes_phoneSep,
    hleft, hdigits 2 4, hright, Passes.rep false 2 (some 3) (passes_phoneSep.seq (hdigits 2 4)), Passes.ahead _, nofun⟩

/-- The number behind a label. -/
theorem bracketless_phoneCtx (hm : (phoneCtxRe R).Found text m) : Bracketless text (m.groupSpan 1) := by
  have hdigits : ∀ n, Passes noBracket (times n (digit R)) := fun n => Passes.rep false n (some n) passes_digit
  have hbody : Passes noBracket (alt (concat [times 3 (digit R), phoneSep R, times 2 (digit R), phoneSep R,
      times 2 (digit R)]) (times 10 (digit R))) := by
    refine Passes.alt (Passes.concat ?_) (hdigits 10)
    simp only [List.forall_mem_cons]
    exact ⟨hdigits 3, passes_phoneSep, hdigits 2, passes_phoneSep, hdigits 2, nofun⟩
  exact bracketless_of_symbols (passes_last_group hbody [_, _, _, _] hm)

end Patterns

/-! ### Spans that are put together -/

section Names

open Names Fio FioDetector ContextValueDetector

variable {R : Runtime} {text : Str}

/-- The words to the right of a name are groups inside their matches. -/
theorem right_groups : ∀ r ∈ [rightInitialsRe, rightWordRe],
    r ∈ plainSites ∧ (r.always 1 && tokenSummary.groupAll (fun _ => true) 1 r) = true := by
  decide +kernel

theorem bracketless_extendRight : ∀ (n : ℕ) {stop : ℕ}, stop ≤ text.length →
    Bracketless text (stop, extendRight R text n stop)
  | 0, stop, _ => bracketless_self stop
  | n + 1, stop, h => by
    -- a pattern reads from the end of the name on
    have hnext : ∀ {r : Re} {m : Match}, r ∈ [rightInitialsRe, rightWordRe] → (r.rx R).matchAt text stop = some m →
        Bracketless text (stop, extendRight R text n (m.groupSpan 1).2) := by
      intro r m hr hm
      obtain ⟨hfound, rfl⟩ := matchAt_found h hm
      obtain ⟨hplain, hgroup⟩ := right_groups r hr
      obtain ⟨halways, hall⟩ := Bool.and_eq_true_iff.mp hgroup
      obtain ⟨span, hspan⟩ := Pattern.group_of_always halways hfound
      have heq : m.groupSpan 1 = span := by rw [Match.groupSpan, hspan, Option.getD_some]
      obtain ⟨x, y, -, -, hy, hstop, -⟩ := group_segment (tokenSummary_sound R) hall hfound hspan
      have hlen := (groupSpan_within (k := 1) hfound.within).2.2
      have hmatch : Bracketless text (m.start, m.stop) := (bracketless_of_plain hplain hfound).1
      rw [← heq] at hy
      exact (hmatch.mono le_rfl (hy.trans hstop)).append (bracketless_extendRight n hlen) le_rfl
    rw [extendRight]
    split
    · rename_i m hm
      exact hnext (by simp) hm
    · split
      · rename_i w hw
        split_ifs
        · exact hnext (by simp) hw
        · exact bracketless_self stop
      · exact bracketless_self stop

/-- **A name grows over initials and blanks.** -/
theorem bracketless_extend {start stop : ℕ} (hstop : stop ≤ text.length) (h : Bracketless text (start, stop)) :
    Bracketless text (extendPersonSpan R text start stop) := by
  -- the initial on the left, the name, its dot, and the words on the right
  have hgrown : ∀ start' stop', Bracketless text (start', start) →
      stop' = stop ∨ (text[stop]? = some '.' ∧ stop' = stop + 1) →
      Bracketless text (start', extendRight R text 3 stop') := by
    rintro start' stop' hleft (rfl | ⟨hdot, rfl⟩)
    · exact (hleft.append h le_rfl).append (bracketless_extendRight 3 hstop) le_rfl
    · obtain ⟨hlt, -⟩ := List.getElem?_eq_some_iff.mp hdot
      have hone : Bracketless text (stop, stop + 1) := by
        intro i (hi : stop ≤ i) (hi' : i < stop + 1)
        obtain rfl : i = stop := by omega
        rw [hdot]
        decide
      exact ((hleft.append h le_rfl).append hone le_rfl).append (bracketless_extendRight 3 hlt) le_rfl
  unfold extendPersonSpan
  refine hgrown _ _ ?_ ?_
  · split
    · rename_i left hleft
      split_ifs with heq
      · have hfound := search_found (Nat.sub_le start 4) hleft
        have hmatch : Bracketless (text.take start) (left.start, left.stop) :=
          (bracketless_of_plain (by simp [plainSites]) hfound).1
        rw [heq] at hmatch
        intro i (hi : (left.groupSpan 1).1 ≤ i) (hi' : i < start)
        have hcopy := hmatch i ((groupSpan_within (k := 1) hfound.within).1.trans hi) hi'
        rwa [List.getElem?_take_of_lt hi'] at hcopy
      · exact bracketless_self start
    · exact bracketless_self start
  · split_ifs with hdot
    · exact Or.inr ⟨hdot.1, rfl⟩
    · exact Or.inl rfl

/-- The words of a text. -/
theorem bracketless_token {tok : Token} (h : tok ∈ tokenize R text) : Bracketless text (tok.start, tok.stop) := by
  obtain ⟨m, hm, rfl⟩ := List.mem_map.mp h
  have hword : tokenSummary.spanAll Demand.alien wordRe = true := spanAll_of_mem (by simp [spanSites])
  exact bracketless_of_segment (span_segment (tokenSummary_sound R) hword (finditer_found hm))

/-- **Words that follow each other** have only blanks between them. -/
theorem bracketless_joined {first last : Token} (hfirst : first ∈ tokenize R text) (h : Joined R text first last) :
    Bracketless text (first.start, last.stop) := by
  induction h with
  | refl => exact bracketless_token hfirst
  | tail _ hstep ih =>
    obtain ⟨hmem, hadjacent⟩ := hstep
    rw [adjacent] at hadjacent
    have hspace := (Bool.and_eq_true_iff.mp hadjacent).2
    have hblank := List.all_eq_true.mp (Bool.and_eq_true_iff.mp hspace).2
    exact (ih.append (bracketless_of_blank hblank) le_rfl).append (bracketless_token hmem) le_rfl

/-- The words behind a role, from where the label ends. -/
theorem bracketless_nameTokensFrom {w : Match} : ∀ {n pos : ℕ} {toks : List Match},
    (∀ tok ∈ toks, Bracketless text tok.span) → w ∈ nameTokensFrom R text n pos toks → Bracketless text (pos, w.stop)
  | 0, _, _, _, h => by
    rw [nameTokensFrom] at h
    cases h
  | _ + 1, _, [], _, h => by
    rw [nameTokensFrom] at h
    cases h
  | n + 1, pos, tok :: toks, htoks, h => by
    rw [List.forall_mem_cons] at htoks
    have hword : ¬ (strip R (slice text pos tok.start) ≠ [] ∨ ¬ nameTokenOk R (matched text tok) = true) →
        Bracketless text (pos, tok.stop) := by
      intro hgood
      have hblank := isspace_of_strip_eq_nil (not_not.mp (not_or.mp hgood).1)
      exact (bracketless_of_blank hblank).append htoks.1 le_rfl
    rw [nameTokensFrom] at h
    split_ifs at h with hbad hcomma
    · cases h
    · rw [List.mem_singleton] at h
      exact h ▸ hword hbad
    · rcases List.mem_cons.mp h with rfl | h
      · exact hword hbad
      · exact (hword hbad).append (bracketless_nameTokensFrom htoks.2 h) le_rfl

/-- A value, where it is found in the text. -/
theorem bracketless_of_value {value : Str} {start : ℕ} (hne : value ≠ []) (hfind : find text value = some start)
    (h : Bracketless value (0, value.length)) : Bracketless text (start, start + value.length) := by
  obtain ⟨-, hslice⟩ := find_spec hne hfind
  intro i (hi : start ≤ i) (hi' : i < start + value.length)
  have hget : (slice text start (start + value.length))[i - start]? = text[start + (i - start)]? :=
    getElem?_slice (by omega)
  rw [hslice, Nat.add_sub_cancel' hi] at hget
  rw [← hget]
  exact h (i - start) (Nat.zero_le _) (show i - start < value.length by omega)

/-- A name that is a whole value: behind it there is a line break at most. -/
theorem bracketless_bareName {value : Str} (h : ((ContextValues.bareNameRe.rx R).matchAt value 0).isSome) :
    Bracketless value (0, value.length) := by
  obtain ⟨m, hm⟩ := Option.isSome_iff_exists.mp h
  obtain ⟨hfound, hstart⟩ := matchAt_found (Nat.zero_le _) hm
  have hname : Bracketless value (m.start, m.stop) :=
    bracketless_of_segment (span_segment (tokenSummary_sound R) (spanAll_of_mem (by simp [spanSites])) hfound)
  rw [hstart] at hname
  have hend : Pattern.endsWith Re.atEnd ContextValues.bareNameRe = true := by decide +kernel
  have hrest : Bracketless value (m.stop, value.length) := by
    refine bracketless_of_symbols ?_
    intro c hc
    have hmem : c ∈ value.drop m.stop := List.mem_of_mem_take hc
    rcases drop_of_atEnd hend hfound with hnil | hbreak
    · rw [hnil] at hmem
      cases hmem
    · rw [hbreak, List.mem_singleton] at hmem
      rw [hmem]
      decide
  exact hname.append hrest le_rfl

end Names

end PdMasking
