import PdMasking.Detectors.Fio
import PdMasking.Lib.Leftmost

/-!
# PdMasking.NameScan — what the scan for names covers (`_by_morphology` in `core/detectors/fio.py`)

The loop is the leftmost scan of `PdMasking.Lib.Leftmost` for the sizes that `_match_run` gives.  A name that is taken
may cut off the end of a name that begins inside of it.

* `byMorphology_eq`: the loop yields the names that the scan takes.
* `uncovered_iff`: which tokens of a recognised sequence no span covers.
-/

namespace PdMasking

namespace FioDetector

open Regex Fio Names Leftmost

/-! ### The scan -/

section Scan

variable (R : Runtime) (text : Str)

/-- The size of the name that `_match_run` finds where the loop arrives at a token, 0 for none. -/
def sizeAt (toks : List Token) (k : ℕ) : ℕ :=
  match toks.drop k with
  | [] => 0
  | tok :: rest => matchRun R (tok :: runFrom R text (fun _ => true) 2 tok rest)

/-- The names that the loop takes: the first token and the number of tokens. -/
def names : List (ℕ × ℕ) := taken (sizeAt R text (tokenize R text)) (tokenize R text).length 0 0

/-- From the start of the first token to the end of the last. -/
def nameSpan (toks : List Token) (n : ℕ × ℕ) : ℕ × ℕ :=
  (toks[n.1]?.elim 0 Token.start, toks[n.1 + n.2 - 1]?.elim 0 Token.stop)

/-- The spans of `_by_morphology`, extended. -/
def nameEntities : List Entity := ((byMorphology R text 0 (tokenize R text)).filterMap id).filterMap (extend R text)

/-- The token is inside of one of these spans. -/
def Covered (tok : Token) : Prop := ∃ e ∈ nameEntities R text, e.start ≤ tok.start ∧ tok.stop ≤ e.stop

/-- Two or three adjacent tokens that `_match_run` finds to be a name as a whole. -/
structure Recognised (window : List Token) : Prop where
  two_or_three : window.length = 2 ∨ window.length = 3
  chain : window.IsChain (fun left right => adjacent R text left right = true)
  whole : matchRun R window = window.length

end Scan

section Run

variable {R : Runtime} {text : Str}

theorem matchPair_le (a b : Token) : matchPair R a b ≤ 2 := by
  unfold matchPair
  split_ifs <;> omega

theorem matchRun_le : ∀ run : List Token, matchRun R run ≤ run.length
  | [] => le_rfl
  | [_] => Nat.zero_le _
  | [a, b] => matchPair_le a b
  | a :: b :: c :: run => by
    rw [matchRun]
    split_ifs
    · simp only [List.length_cons]
      omega
    · simp only [List.length_cons]
      omega
    · exact (matchPair_le a b).trans (by simp only [List.length_cons]; omega)

theorem prefix_of_runFrom (ok : Token → Bool) : ∀ (n : ℕ) (last : Token) (toks : List Token),
    runFrom R text ok n last toks <+: toks
  | 0, _, _ => by
    rw [runFrom]
    exact List.nil_prefix
  | _ + 1, _, [] => by
    rw [runFrom]
  | n + 1, last, tok :: toks => by
    rw [runFrom]
    split_ifs
    · exact List.prefix_cons_inj _ |>.mpr (prefix_of_runFrom ok n tok toks)
    · exact List.nil_prefix

theorem length_runFrom_le (ok : Token → Bool) : ∀ (n : ℕ) (last : Token) (toks : List Token),
    (runFrom R text ok n last toks).length ≤ n
  | 0, _, _ => by
    rw [runFrom]
    exact le_rfl
  | _ + 1, _, [] => by
    rw [runFrom]
    exact Nat.zero_le _
  | n + 1, last, tok :: toks => by
    rw [runFrom]
    split_ifs
    · exact Nat.succ_le_succ (length_runFrom_le ok n tok toks)
    · exact Nat.zero_le _

/-- A chain of adjacent tokens is the beginning of the run. -/
theorem chain_prefix_runFrom : ∀ {n : ℕ} {last : Token} {window toks : List Token}, window.length ≤ n →
    (last :: window).IsChain (fun left right => adjacent R text left right = true) → window <+: toks →
    window <+: runFrom R text (fun _ => true) n last toks
  | n, last, [], toks, _, _, _ => List.nil_prefix
  | n + 1, last, tok :: window, toks, hlen, hchain, hpre => by
    obtain ⟨rest, rfl⟩ := hpre
    rw [List.isChain_cons_cons] at hchain
    have hih := chain_prefix_runFrom (Nat.le_of_succ_le_succ hlen) hchain.2 (List.prefix_append window rest)
    rw [List.cons_append, runFrom, hchain.1, Bool.and_true, if_pos rfl]
    exact (List.prefix_cons_inj _).mpr hih

/-- What is found in the first two or three tokens is found in the run, or more. -/
theorem matchRun_le_of_prefix {window run : List Token} (hwhole : matchRun R window = window.length)
    (htwo : 2 ≤ window.length) (hpre : window <+: run) (hrun : run.length ≤ 3) :
    window.length ≤ matchRun R run := by
  obtain ⟨rest, rfl⟩ := hpre
  match window, rest, htwo with
  | [a, b], [], _ => rw [List.append_nil, hwhole]
  | [a, b], [c], _ =>
    show 2 ≤ matchRun R [a, b, c]
    have hpair : matchPair R a b = 2 := hwhole
    rw [matchRun]
    split_ifs <;> omega
  | a :: b :: c :: window, [], _ => rw [List.append_nil, hwhole]
  | a :: b :: c :: window, d :: rest, _ =>
    simp only [List.length_append, List.length_cons] at hrun
    omega
  | [a, b], c :: d :: rest, _ =>
    simp only [List.length_append, List.length_cons, List.length_nil] at hrun
    omega

end Run

/-! ### The loop takes the names -/

section Loop

variable {R : Runtime} {text : Str}

theorem sizeAt_of_drop {toks rest : List Token} {tok : Token} {k : ℕ} (h : toks.drop k = tok :: rest) :
    sizeAt R text toks k = matchRun R (tok :: runFrom R text (fun _ => true) 2 tok rest) := by
  unfold sizeAt
  rw [h]

/-- The last token of a name is counted from the first one. -/
theorem last_of_run {toks rest : List Token} {tok : Token} {k : ℕ} (h : toks.drop k = tok :: rest)
    (hne : sizeAt R text toks k ≠ 0) :
    toks[k + sizeAt R text toks k - 1]? =
      some ((tok :: runFrom R text (fun _ => true) 2 tok rest).getD (sizeAt R text toks k - 1) tok) := by
  have hle := matchRun_le (R := R) (tok :: runFrom R text (fun _ => true) 2 tok rest)
  rw [← sizeAt_of_drop h] at hle
  have hpre : runFrom R text (fun _ => true) 2 tok rest <+: rest := prefix_of_runFrom _ 2 tok rest
  obtain ⟨post, hpost⟩ := (List.prefix_cons_inj tok).mpr hpre
  have hlt : sizeAt R text toks k - 1 < (tok :: runFrom R text (fun _ => true) 2 tok rest).length := by omega
  rw [show k + sizeAt R text toks k - 1 = k + (sizeAt R text toks k - 1) by omega, ← List.getElem?_drop, h, ← hpost,
    List.getElem?_append_left hlt, List.getD_eq_getElem?_getD, List.getElem?_eq_getElem hlt, Option.getD_some]

/-- **The loop yields the names that the scan takes.** -/
theorem byMorphology_eq {toks : List Token} : ∀ {n skip i : ℕ}, toks.length = i + n →
    byMorphology R text skip (toks.drop i) =
      (taken (sizeAt R text toks) n skip i).map (fun m => makeEntity .fio [nameSpan toks m] 60 ∅)
  | 0, skip, i, hlen => by
    rw [List.drop_of_length_le (by omega), byMorphology, taken, List.map_nil]
  | n + 1, skip + 1, i, hlen => by
    rw [List.drop_eq_getElem_cons (by omega), byMorphology, taken]
    exact byMorphology_eq (by omega)
  | n + 1, 0, i, hlen => by
    have hdrop : toks.drop i = toks[i] :: toks.drop (i + 1) := List.drop_eq_getElem_cons (by omega)
    have hsize : sizeAt R text toks i = _ := sizeAt_of_drop hdrop
    have hlen' : toks.length = i + 1 + n := by omega
    rw [hdrop, byMorphology, taken, hsize]
    split_ifs with hzero
    · exact byMorphology_eq hlen'
    · rw [← hsize] at hzero ⊢
      rw [List.map_cons, byMorphology_eq hlen']
      have hlast := last_of_run hdrop hzero
      simp only [nameSpan, hlast, List.getElem?_eq_getElem (show i < toks.length by omega), Option.elim_some]

end Loop

/-! ### The spans of the names -/

section Spans

variable {R : Runtime} {text : Str}

theorem mem_tokenize {tok : Token} (h : tok ∈ tokenize R text) : tok.start < tok.stop ∧ tok.stop ≤ text.length := by
  obtain ⟨m, hm, rfl⟩ := List.mem_map.mp h
  have hfound := finditer_found hm
  exact ⟨Pattern.start_lt_stop (by decide +kernel) hfound, hfound.within.2.1⟩

theorem tokenize_pairwise (R : Runtime) (text : Str) :
    (tokenize R text).Pairwise (fun a b => a.stop ≤ b.start) :=
  List.pairwise_map.mpr (finditer_pairwise _ text)

/-- One of two tokens ends before the other one starts. -/
theorem stop_le_start {i j : ℕ} {a b : Token} (ha : (tokenize R text)[i]? = some a)
    (hb : (tokenize R text)[j]? = some b) (hij : i < j) : a.stop ≤ b.start := by
  obtain ⟨hi, rfl⟩ := List.getElem?_eq_some_iff.mp ha
  obtain ⟨hj, rfl⟩ := List.getElem?_eq_some_iff.mp hb
  exact List.pairwise_iff_getElem.mp (tokenize_pairwise R text) i j hi hj hij

/-- An entity of one span becomes the span that `extend_person_span` makes of it. -/
theorem extend_of_span {a b : ℕ} (hlt : a < b) (hb : b ≤ text.length) {e : Entity}
    (h : makeEntity .fio [(a, b)] 60 ∅ = some e) : ∃ e', extend R text e = some e' ∧
      e'.start = (extendPersonSpan R text a b).1 ∧ e'.stop = (extendPersonSpan R text a b).2 := by
  obtain ⟨e₁, he₁, hparts⟩ := makeEntity_span .fio 60 ∅ hlt
  obtain rfl : e₁ = e := Option.some.inj (he₁.symm.trans h)
  obtain ⟨hkind, -, -⟩ := fields_of_makeEntity h
  have hstart := start_of_parts hparts
  have hstop := stop_of_parts hparts
  obtain ⟨hleft, hright, -⟩ := extendPersonSpan_le R a hb
  unfold extend
  rw [if_neg (by rw [hkind, hparts]; simp), hstart, hstop]
  dsimp only
  split_ifs with hsame
  · obtain ⟨h1, h2⟩ := Prod.mk.inj hsame
    exact ⟨e₁, rfl, by rw [hstart, h1], by rw [hstop, h2]⟩
  · have hgrown : (extendPersonSpan R text a b).1 < (extendPersonSpan R text a b).2 := by omega
    obtain ⟨e', he', hparts'⟩ := makeEntity_span .fio e₁.priority ∅ hgrown
    exact ⟨e', he', start_of_parts hparts', stop_of_parts hparts'⟩

/-- A name that is taken lies in the text. -/
theorem span_of_names {n : ℕ × ℕ} (hn : n ∈ names R text) : ∃ first last, (tokenize R text)[n.1]? = some first ∧
    (tokenize R text)[n.1 + n.2 - 1]? = some last ∧ nameSpan (tokenize R text) n = (first.start, last.stop) ∧
    first.start < last.stop ∧ last.stop ≤ text.length := by
  obtain ⟨-, hlt, hsize, hne⟩ := taken_spec hn
  rw [Nat.zero_add] at hlt
  have hdrop : (tokenize R text).drop n.1 = (tokenize R text)[n.1] :: (tokenize R text).drop (n.1 + 1) :=
    List.drop_eq_getElem_cons hlt
  have hlast := last_of_run hdrop (hsize ▸ hne)
  rw [← hsize] at hlast
  have hfirst := List.getElem?_eq_getElem hlt
  refine ⟨_, _, hfirst, hlast, ?_, ?_, ?_⟩
  · rw [nameSpan, hfirst, hlast, Option.elim_some, Option.elim_some]
  · have hspan := mem_tokenize (List.mem_of_getElem? hfirst)
    have hspan' := mem_tokenize (List.mem_of_getElem? hlast)
    rcases Nat.eq_or_lt_of_le (show n.1 ≤ n.1 + n.2 - 1 by omega) with heq | hlt'
    · rw [← heq, hfirst] at hlast
      rw [← Option.some.inj hlast]
      exact hspan.1
    · have horder := stop_le_start hfirst hlast hlt'
      omega
  · exact (mem_tokenize (List.mem_of_getElem? hlast)).2

/-- **The spans are the extended spans of the names.** -/
theorem covered_iff (tok : Token) : Covered R text tok ↔ ∃ n ∈ names R text,
    (extendPersonSpan R text (nameSpan (tokenize R text) n).1 (nameSpan (tokenize R text) n).2).1 ≤ tok.start ∧
    tok.stop ≤ (extendPersonSpan R text (nameSpan (tokenize R text) n).1 (nameSpan (tokenize R text) n).2).2 := by
  have hloop : byMorphology R text 0 (tokenize R text) =
      (names R text).map (fun m => makeEntity .fio [nameSpan (tokenize R text) m] 60 ∅) := by
    have hlen : (tokenize R text).length = 0 + (tokenize R text).length := (Nat.zero_add _).symm
    exact byMorphology_eq hlen
  unfold Covered nameEntities
  constructor
  · rintro ⟨e', he', h1, h2⟩
    obtain ⟨e, he, hext⟩ := List.mem_filterMap.mp he'
    obtain ⟨o, ho, rfl⟩ := List.mem_filterMap.mp he
    rw [hloop] at ho
    obtain ⟨n, hn, hmade⟩ := List.mem_map.mp ho
    obtain ⟨first, last, -, -, hspan, hlt, hle⟩ := span_of_names hn
    rw [hspan] at hmade
    obtain ⟨e₁, hext₁, hstart, hstop⟩ := extend_of_span (R := R) hlt hle hmade
    obtain rfl : e₁ = e' := Option.some.inj (hext₁.symm.trans hext)
    refine ⟨n, hn, ?_, ?_⟩
    · rw [hspan, ← hstart]
      exact h1
    · rw [hspan, ← hstop]
      exact h2
  · rintro ⟨n, hn, h1, h2⟩
    obtain ⟨first, last, -, -, hspan, hlt, hle⟩ := span_of_names hn
    obtain ⟨e, hmade, -⟩ := makeEntity_span .fio 60 ∅ hlt
    obtain ⟨e', hext, hstart, hstop⟩ := extend_of_span (R := R) hlt hle hmade
    rw [hspan] at h1 h2
    refine ⟨e', List.mem_filterMap.mpr ⟨e, List.mem_filterMap.mpr ⟨some e, ?_, rfl⟩, hext⟩, ?_, ?_⟩
    · rw [hloop]
      exact List.mem_map.mpr ⟨n, hn, by rw [hspan, hmade]⟩
    · rw [hstart]
      exact h1
    · rw [hstop]
      exact h2

end Spans

/-! ### What is cut off -/

section Cut

variable {R : Runtime} {text : Str}

/-- The tokens of a name that is taken are covered. -/
theorem covered_of_name {n : ℕ × ℕ} (hn : n ∈ names R text) {j : ℕ} {tok : Token}
    (hj : (tokenize R text)[j]? = some tok) (h1 : n.1 ≤ j) (h2 : j < n.1 + n.2) : Covered R text tok := by
  obtain ⟨first, last, hfirst, hlast, hspan, hlt, hle⟩ := span_of_names hn
  obtain ⟨hleft, hright, -⟩ := extendPersonSpan_le R first.start hle
  have hstart : first.start ≤ tok.start := by
    rcases Nat.eq_or_lt_of_le h1 with rfl | hlt'
    · rw [Option.some.inj (hfirst.symm.trans hj)]
    · have horder := stop_le_start hfirst hj hlt'
      have hfirst' := mem_tokenize (List.mem_of_getElem? hfirst)
      omega
  have hstop : tok.stop ≤ last.stop := by
    rcases Nat.eq_or_lt_of_le (show j ≤ n.1 + n.2 - 1 by omega) with rfl | hlt'
    · rw [Option.some.inj (hj.symm.trans hlast)]
    · have horder := stop_le_start hj hlast hlt'
      have hlast' := mem_tokenize (List.mem_of_getElem? hlast)
      omega
  rw [covered_iff]
  refine ⟨n, hn, ?_, ?_⟩
  · rw [hspan]
    exact hleft.trans hstart
  · rw [hspan]
    exact hstop.trans hright

/-- At the start of a recognised sequence a name of its size or of a larger one is found. -/
theorem sizeAt_of_recognised {window : List Token} {k : ℕ} (h : Recognised R text window)
    (hw : window <+: (tokenize R text).drop k) : window.length ≤ sizeAt R text (tokenize R text) k := by
  have htwo : 2 ≤ window.length := by
    have hlen := h.two_or_three
    omega
  obtain ⟨tok, window', rfl⟩ := List.exists_cons_of_ne_nil (List.ne_nil_of_length_pos (by omega : 0 < window.length))
  obtain ⟨post, hpost⟩ := hw
  have hlen : window'.length ≤ 2 := by
    have hlen := h.two_or_three
    rw [List.length_cons] at hlen
    omega
  rw [sizeAt_of_drop hpost.symm]
  refine matchRun_le_of_prefix h.whole htwo ?_ ?_
  · exact (List.prefix_cons_inj tok).mpr (chain_prefix_runFrom hlen h.chain (List.prefix_append window' post))
  · exact Nat.succ_le_succ (length_runFrom_le _ 2 tok _)

/-- No name has less than two tokens. -/
theorem two_le_sizeAt {toks : List Token} {k : ℕ} (h : sizeAt R text toks k ≠ 0) : 2 ≤ sizeAt R text toks k := by
  have hpair : ∀ a b : Token, matchPair R a b ≠ 0 → 2 ≤ matchPair R a b := by
    intro a b hab
    unfold matchPair at hab ⊢
    split_ifs at hab ⊢ <;> omega
  have hrun : ∀ run : List Token, matchRun R run ≠ 0 → 2 ≤ matchRun R run := by
    intro run hne
    unfold matchRun at hne ⊢
    split at hne
    · split_ifs at hne ⊢ with h1 h2
      · omega
      · omega
      · exact hpair _ _ hne
    · exact hpair _ _ hne
    · exact absurd rfl hne
  unfold sizeAt at h ⊢
  split at h
  · exact absurd rfl h
  · exact hrun _ h

theorem two_le_names {n : ℕ × ℕ} (hn : n ∈ names R text) : 2 ≤ n.2 := by
  obtain ⟨-, -, hsize, hne⟩ := taken_spec hn
  rw [hsize] at hne ⊢
  exact two_le_sizeAt hne

/-- What is found at a token is taken, unless the token is inside of a name taken before. -/
theorem found_at_token {k : ℕ} (hk : k < (tokenize R text).length) (hne : sizeAt R text (tokenize R text) k ≠ 0) :
    (k, sizeAt R text (tokenize R text) k) ∈ names R text ∨ ∃ n ∈ names R text, n.1 < k ∧ k < n.1 + n.2 :=
  taken_or_inside (Nat.zero_le k) (by omega) hne

/-- A name that cuts off a token: it begins before what is found at `k`, and nothing is found from its end up to the
token at `j`. -/
theorem exists_cutting_name {k j : ℕ} (hkj : k ≤ j) (hjk : j ≤ k + 2) (hj : j < (tokenize R text).length)
    (hsize : j < k + sizeAt R text (tokenize R text) k)
    (hends : ∀ n ∈ names R text, n.1 ≤ j → n.1 + n.2 ≤ j) :
    ∃ n ∈ names R text, n.1 < k ∧ k < n.1 + n.2 ∧ n.1 + n.2 ≤ j ∧
      ∀ l, n.1 + n.2 ≤ l → l ≤ j → sizeAt R text (tokenize R text) l = 0 := by
  rcases found_at_token (hkj.trans_lt hj) (by omega) with hn | ⟨n, hn, h1, h2⟩
  · have hend := hends _ hn hkj
    dsimp only at hend
    omega
  · have hend := hends n hn (by omega)
    refine ⟨n, hn, h1, h2, hend, ?_⟩
    intro l hl hle
    by_contra hne
    rcases found_at_token (hle.trans_lt hj) hne with hn' | ⟨n', hn', h1', h2'⟩
    · have hend' := hends _ hn' hle
      have hsize' := two_le_sizeAt hne
      dsimp only at hend'
      omega
    · -- the name around `l` is behind the first one, and so too long to end before the token
      have hend' := hends n' hn' (by omega)
      have hsize' := two_le_names hn'
      rcases taken_apart hn hn' with rfl | happart | happart
      · omega
      · omega
      · omega

/-- The extended span of a name on one side of a token does not reach it. -/
theorem not_reached {n : ℕ × ℕ} (hn : n ∈ names R text) {j : ℕ} {tok : Token} (hj : (tokenize R text)[j]? = some tok)
    (hopen : ¬ Covered R text tok) :
    let span := nameSpan (tokenize R text) n
    (n.1 < j → (extendPersonSpan R text span.1 span.2).2 < tok.stop) ∧
      (j < n.1 → tok.start < (extendPersonSpan R text span.1 span.2).1) := by
  obtain ⟨first, last, hfirst, hlast, hspan, hlt, hle⟩ := span_of_names hn
  obtain ⟨hleft, hright, -⟩ := extendPersonSpan_le R first.start hle
  have hnot : ¬ ((extendPersonSpan R text first.start last.stop).1 ≤ tok.start ∧
      tok.stop ≤ (extendPersonSpan R text first.start last.stop).2) := by
    intro hreach
    refine hopen ((covered_iff tok).mpr ⟨n, hn, ?_⟩)
    rw [hspan]
    exact hreach
  rw [hspan]
  dsimp only
  refine ⟨?_, ?_⟩
  · intro hbefore
    have horder := stop_le_start hfirst hj hbefore
    have hpos := mem_tokenize (List.mem_of_getElem? hfirst)
    omega
  · intro hbehind
    have hsize := two_le_names hn
    have horder := stop_le_start hj hlast (by omega)
    have hpos := mem_tokenize (List.mem_of_getElem? hlast)
    omega

end Cut

/-- **What the scan cuts off**: a token of a recognised sequence is not covered exactly when a name was taken that
begins before the sequence, contains its first token and ends before the token, no name is found from its end up to
the token, and no extended span reaches the token from the left or from the right. -/
theorem uncovered_iff (R : Runtime) (text : Str) {k : ℕ} {window : List Token} (h : Recognised R text window)
    (hw : window <+: (tokenize R text).drop k) {i : ℕ} {tok : Token} (hi : window[i]? = some tok) :
    ¬ Covered R text tok ↔
      (∃ n ∈ names R text, n.1 < k ∧ k < n.1 + n.2 ∧ n.1 + n.2 ≤ k + i ∧
        ∀ j, n.1 + n.2 ≤ j → j ≤ k + i → sizeAt R text (tokenize R text) j = 0) ∧
      ∀ n ∈ names R text,
        let span := nameSpan (tokenize R text) n
        (n.1 < k → (extendPersonSpan R text span.1 span.2).2 < tok.stop) ∧
        (k + i < n.1 → tok.start < (extendPersonSpan R text span.1 span.2).1) := by
  have htok : (tokenize R text)[k + i]? = some tok := by
    obtain ⟨post, hpost⟩ := hw
    rw [← List.getElem?_drop, ← hpost, List.getElem?_append_left (List.getElem?_eq_some_iff.mp hi).1]
    exact hi
  have hsize := sizeAt_of_recognised h hw
  have hilt : i < window.length := (List.getElem?_eq_some_iff.mp hi).1
  have hki : k + i < (tokenize R text).length := (List.getElem?_eq_some_iff.mp htok).1
  have hlen := h.two_or_three
  constructor
  · intro hopen
    -- a name that begins at the token or before does not go on behind it
    have hends : ∀ n ∈ names R text, n.1 ≤ k + i → n.1 + n.2 ≤ k + i :=
      fun n hn hle => Nat.not_lt.mp (fun hlt => hopen (covered_of_name hn htok hle hlt))
    refine ⟨exists_cutting_name (Nat.le_add_right k i) (by omega) hki (by omega) hends, ?_⟩
    intro n hn
    obtain ⟨hbefore, hbehind⟩ := not_reached hn htok hopen
    exact ⟨fun hlt => hbefore (by omega), hbehind⟩
  · rintro ⟨⟨n, hn, h1, h2, h3, hnone⟩, hreach⟩ hcovered
    obtain ⟨n', hn', hleft, hright⟩ := (covered_iff tok).mp hcovered
    obtain ⟨hbefore, hbehind⟩ := hreach n' hn'
    obtain ⟨-, -, hsize', hne'⟩ := taken_spec hn'
    rcases Nat.lt_or_ge n'.1 k with hlt | hge
    · have hend := hbefore hlt
      omega
    · rcases Nat.lt_or_ge (k + i) n'.1 with hlt' | hle'
      · have hstart := hbehind hlt'
        omega
      · rcases taken_apart hn hn' with rfl | happart | happart
        · omega
        · exact hne' (hsize'.trans (hnone n'.1 happart hle'))
        · omega

/-! ### A surname that is cut off -/

/-- Surname, first name and patronymic are taken; first name, patronymic and surname are a name, too. -/
def cutText : Str := chars "Иванов Иван Петрович Сидоров"

def cutWindow : List Token := ((tokenize Runtime.basic cutText).drop 1).take 3

theorem cutWindow_facts : (cutWindow.length = 3 ∧ (cutWindow.map Token.stop = [11, 20, 28])) ∧
    cutWindow.IsChain (fun left right => adjacent Runtime.basic cutText left right = true) ∧
    matchRun Runtime.basic cutWindow = 3 ∧
    ∀ e ∈ nameEntities Runtime.basic cutText, e.stop ≤ 20 := by
  decide +kernel

theorem recognised_cutWindow : Recognised Runtime.basic cutText cutWindow where
  two_or_three := Or.inr cutWindow_facts.1.1
  chain := cutWindow_facts.2.1
  whole := cutWindow_facts.2.2.1.trans cutWindow_facts.1.1.symm

theorem uncovered_cutWindow : ∃ tok, cutWindow[2]? = some tok ∧ ¬ Covered Runtime.basic cutText tok := by
  have hstop : (cutWindow.map Token.stop)[2]? = some 28 := by rw [cutWindow_facts.1.2]; rfl
  rw [List.getElem?_map, Option.map_eq_some_iff] at hstop
  obtain ⟨tok, htok, hend⟩ := hstop
  refine ⟨tok, htok, ?_⟩
  rintro ⟨e, he, -, hle⟩
  have hshort := cutWindow_facts.2.2.2 e he
  omega

theorem uncovered_iff_cutWindow : ∃ tok, cutWindow[2]? = some tok ∧
    ∃ n ∈ names Runtime.basic cutText, n.1 < 1 ∧ 1 < n.1 + n.2 ∧ n.1 + n.2 ≤ 3 := by
  obtain ⟨tok, htok, hopen⟩ := uncovered_cutWindow
  obtain ⟨⟨n, hn, h1, h2, h3, -⟩, -⟩ := (uncovered_iff Runtime.basic cutText recognised_cutWindow
    (List.take_prefix _ _) htok).mp hopen
  exact ⟨tok, htok, n, hn, h1, h2, h3⟩

/-- The last surname of `Иванов Иван Петрович Сидоров` is not covered. -/
theorem surname_cut_off : ¬ ∀ (R : Runtime) (text : Str) (k : ℕ) (window : List Token), Recognised R text window →
    window <+: (tokenize R text).drop k → ∀ tok ∈ window, Covered R text tok := by
  intro h
  obtain ⟨tok, htok, hopen⟩ := uncovered_cutWindow
  exact hopen (h Runtime.basic cutText 1 cutWindow recognised_cutWindow (List.take_prefix _ _) tok
    (List.mem_of_getElem? htok))

end FioDetector

end PdMasking
