import PdMasking.GoldLabels

/-!
# PdMasking.LeakCheck — texts of the gold set in the repository (`scripts/check_leakage.py`)

A text of the set, or a window of it, is looked for in the files, whatever the case of the letters and the white space
between the words.

* `infix_normalize`: what is copied is copied in the normalized text, too.
* `copies_are_found`: what is reported is there, and no copy that is long enough goes unnoticed.
-/

namespace PdMasking

inductive LeakKind
  | full
  | partial_
  deriving DecidableEq

/-- `WINDOW` -/
def WINDOW : ℕ := 40

/-- `Match`: the kind, the id of the text and the file. -/
abbrev LeakMatch := LeakKind × Str × Str

section Normalize

variable (R : Runtime)

/-- `_SPACES_RE.sub(" ", text)`: every run of white space becomes a blank. -/
def collapse : Str → Str
  | [] => []
  | c :: s =>
    if R.isspace c then if s.head?.any R.isspace then collapse s else ' ' :: collapse s
    else c :: collapse s

/-- `normalize` -/
def normalize (text : Str) : Str := casefold R (strip R (collapse R text))

/-- `windows`, a set in the source. -/
def windows (text : Str) (size : ℕ) : List Str :=
  if text.length ≤ size then [text]
  else (List.range (text.length - size + 1)).map (fun i => slice text i (i + size))

/-- The match of a text in a file, if any. -/
def leakOf (id text : Str) (file : Str × Str) : Option LeakMatch :=
  if text <:+: file.2 then some (.full, id, file.1)
  else if WINDOW < text.length ∧ (windows text WINDOW).any (fun w => w <:+: file.2) then some (.partial_, id, file.1)
  else none

/-- `find_leaks`; the contents of the files are normalized. -/
def findLeaks (texts files : List (Str × Str)) (minChars : ℕ) : List LeakMatch :=
  texts.flatMap (fun t =>
    if (normalize R t.2).length < minChars then []
    else files.filterMap (leakOf t.1 (normalize R t.2)))

end Normalize

/-! ### White space -/

section Spaces

variable {R : Runtime} {s t u : Str}

theorem collapse_append (h : (∀ c, s.getLast? = some c → R.isspace c = false) ∨
    ∀ c, t.head? = some c → R.isspace c = false) : collapse R (s ++ t) = collapse R s ++ collapse R t := by
  induction s with
  | nil => rfl
  | cons c s ih =>
    have htail : collapse R (s ++ t) = collapse R s ++ collapse R t := by
      rcases eq_or_ne s [] with rfl | hne
      · rfl
      · refine ih (h.imp_left (fun hlast d hd => hlast d ?_))
        rw [List.getLast?_cons_of_ne_nil hne]
        exact hd
    rw [List.cons_append, collapse, collapse, htail]
    by_cases hc : R.isspace c = true
    · have hnext : (s ++ t).head?.any R.isspace = s.head?.any R.isspace := by
        rcases eq_or_ne s [] with rfl | hne
        · rcases h with hlast | hhead
          · rw [hlast c rfl] at hc
            cases hc
          · rcases hd : t.head? with _ | d
            · rw [List.nil_append, hd]
              rfl
            · rw [List.nil_append, hd]
              exact hhead d hd
        · rw [List.head?_append_of_ne_nil _ hne]
      rw [if_pos hc, if_pos hc, hnext]
      split_ifs <;> rfl
    · rw [if_neg hc, if_neg hc]
      rfl

/-- What is left has the blanks, and what is no white space. -/
theorem mem_collapse {c : Char} (h : c ∈ collapse R s) : c = ' ' ∨ c ∈ s := by
  induction s with
  | nil => cases h
  | cons d s ih =>
    rw [collapse] at h
    split_ifs at h
    · exact (ih h).imp_right (List.mem_cons_of_mem d)
    · rcases List.mem_cons.mp h with rfl | h
      · exact Or.inl rfl
      · exact (ih h).imp_right (List.mem_cons_of_mem d)
    · rcases List.mem_cons.mp h with rfl | h
      · exact Or.inr List.mem_cons_self
      · exact (ih h).imp_right (List.mem_cons_of_mem d)

theorem isspace_collapse (h : ∀ c ∈ s, R.isspace c = true) : ∀ c ∈ collapse R s, R.isspace c = true := by
  intro c hc
  rcases mem_collapse hc with rfl | hc
  · exact R.isspace_ascii ' ' (by decide)
  · exact h c hc

/-- The ends of a stripped text. -/
theorem collapse_stripped (hne : s ≠ []) (h : strip R s = s) :
    collapse R s ≠ [] ∧ strip R (collapse R s) = collapse R s := by
  obtain ⟨hhead, hlast⟩ := strip_eq_self_iff.mp h
  obtain ⟨c, t, rfl⟩ := List.exists_cons_of_ne_nil hne
  have hc : R.isspace c = false := hhead c rfl
  have hfirst : collapse R (c :: t) = c :: collapse R t := by
    rw [collapse, hc]
    rfl
  obtain ⟨u, d, hu⟩ : ∃ u d, c :: t = u ++ [d] := ⟨_, _, (List.dropLast_append_getLast hne).symm⟩
  have hd : R.isspace d = false := hlast d (by rw [hu, List.getLast?_concat])
  have hback : collapse R (c :: t) = collapse R u ++ [d] := by
    rw [hu, collapse_append (Or.inr (fun e he => by rwa [← Option.some.inj he]))]
    rw [show collapse R [d] = [d] from by rw [collapse, hd]; rfl]
  refine ⟨by rw [hfirst]; exact List.cons_ne_nil _ _, strip_eq_self_iff.mpr ⟨?_, ?_⟩⟩
  · intro e he
    rw [hfirst] at he
    rwa [← Option.some.inj he]
  · intro e he
    rw [hback, List.getLast?_concat] at he
    rwa [← Option.some.inj he]

/-- A text between its white space. -/
theorem exists_padding (s : Str) : ∃ u w, s = u ++ strip R s ++ w ∧ (∀ c ∈ u, R.isspace c = true) ∧
    ∀ c ∈ w, R.isspace c = true := by
  refine ⟨s.takeWhile R.isspace, ((s.dropWhile R.isspace).reverse.takeWhile R.isspace).reverse, ?_, ?_, ?_⟩
  · have hback : strip R s ++ ((s.dropWhile R.isspace).reverse.takeWhile R.isspace).reverse = s.dropWhile R.isspace := by
      unfold strip rstrip
      rw [← List.reverse_append, List.takeWhile_append_dropWhile, List.reverse_reverse]
    rw [List.append_assoc, hback, List.takeWhile_append_dropWhile]
  · exact fun c hc => List.mem_takeWhile_imp hc
  · exact fun c hc => List.mem_takeWhile_imp (List.mem_reverse.mp hc)

/-- **Stripping and collapsing commute.** -/
theorem strip_collapse (s : Str) : strip R (collapse R s) = collapse R (strip R s) := by
  obtain ⟨u, w, hs, hu, hw⟩ := exists_padding (R := R) s
  rcases eq_or_ne (strip R s) [] with hnil | hne
  · have hall : ∀ c ∈ s, R.isspace c = true := by
      rw [hs, hnil, List.append_nil]
      exact List.forall_mem_append.mpr ⟨hu, hw⟩
    rw [hnil]
    have hstrip := isspace_collapse hall
    unfold strip rstrip
    rw [List.dropWhile_eq_nil_iff.mpr hstrip]
    rfl
  · have hstripped := strip_strip (R := R) (s := s)
    generalize strip R s = v at hs hne hstripped
    obtain ⟨hhead, hlast⟩ := strip_eq_self_iff.mp hstripped
    obtain ⟨hne', hstripped'⟩ := collapse_stripped hne hstripped
    have hsplit : collapse R s = collapse R u ++ collapse R v ++ collapse R w := by
      rw [hs, collapse_append (Or.inl (fun c hc => hlast c ?_)), collapse_append (Or.inr hhead)]
      rwa [List.getLast?_append_of_ne_nil _ hne] at hc
    rw [hsplit]
    exact strip_padded hstripped' hne' (isspace_collapse hu) (isspace_collapse hw)

theorem dropWhile_append_kept {p : Char → Bool} (u : Str) (h : ∀ c, t.head? = some c → p c = false) :
    ∃ u', (u ++ t).dropWhile p = u' ++ t := by
  rw [List.dropWhile_append]
  split_ifs
  · exact ⟨[], dropWhile_eq_self_iff_head.mpr h⟩
  · exact ⟨_, rfl⟩

/-- What begins and ends with no white space is not stripped. -/
theorem infix_strip (u w : Str) (hne : s ≠ []) (h : strip R s = s) : s <:+: strip R (u ++ s ++ w) := by
  obtain ⟨hhead, hlast⟩ := strip_eq_self_iff.mp h
  obtain ⟨u', hu'⟩ : ∃ u', (u ++ (s ++ w)).dropWhile R.isspace = u' ++ (s ++ w) := by
    refine dropWhile_append_kept u ?_
    intro c hc
    rw [List.head?_append_of_ne_nil _ hne] at hc
    exact hhead c hc
  obtain ⟨w', hw'⟩ : ∃ w', (w.reverse ++ (u' ++ s).reverse).dropWhile R.isspace = w' ++ (u' ++ s).reverse := by
    refine dropWhile_append_kept w.reverse ?_
    intro c hc
    rw [List.head?_reverse, List.getLast?_append_of_ne_nil _ hne] at hc
    exact hlast c hc
  refine ⟨u', w'.reverse, ?_⟩
  unfold strip rstrip
  rw [List.append_assoc u, hu', ← List.append_assoc u', List.reverse_append, hw', List.reverse_append,
    List.reverse_reverse]

/-- **What is copied is copied in the normalized text, too.** -/
theorem infix_normalize (h : s <:+: t) : normalize R s <:+: normalize R t := by
  obtain ⟨a, b, rfl⟩ := h
  obtain ⟨u, w, hs, -, -⟩ := exists_padding (R := R) s
  have hinner : collapse R (strip R s) <:+: strip R (collapse R (a ++ s ++ b)) := by
    rcases eq_or_ne (strip R s) [] with hnil | hne
    · rw [hnil]
      exact List.nil_infix
    · have hstripped := strip_strip (R := R) (s := s)
      generalize strip R s = v at hs hne hstripped
      obtain ⟨hhead, hlast⟩ := strip_eq_self_iff.mp hstripped
      obtain ⟨hne', hstripped'⟩ := collapse_stripped hne hstripped
      have hsplit : collapse R (a ++ s ++ b) = collapse R (a ++ u) ++ collapse R v ++ collapse R (w ++ b) := by
        have htext : a ++ s ++ b = a ++ u ++ v ++ (w ++ b) := by
          rw [hs]
          simp only [List.append_assoc]
        rw [htext, collapse_append (Or.inl (fun c hc => hlast c ?_)), collapse_append (Or.inr hhead)]
        rwa [List.getLast?_append_of_ne_nil _ hne] at hc
      rw [hsplit]
      exact infix_strip _ _ hne' hstripped'
  obtain ⟨a', b', hsplit⟩ := hinner
  unfold normalize casefold
  rw [strip_collapse s, ← hsplit, List.flatMap_append, List.flatMap_append]
  exact ⟨_, _, rfl⟩

end Spaces

/-! ### Windows -/

section Windows

variable {text w : Str} {size : ℕ}

/-- The windows of a long text are its parts of that length. -/
theorem mem_windows (h : size < text.length) : w ∈ windows text size ↔ w.length = size ∧ w <:+: text := by
  unfold windows
  rw [if_neg (by omega), List.mem_map]
  constructor
  · rintro ⟨i, hi, rfl⟩
    rw [List.mem_range] at hi
    refine ⟨?_, ?_⟩
    · rw [length_slice (by omega)]
      omega
    · exact (List.take_prefix _ _).isInfix.trans (List.drop_suffix _ _).isInfix
  · rintro ⟨hlength, a, b, rfl⟩
    refine ⟨a.length, List.mem_range.mpr ?_, ?_⟩
    · simp only [List.length_append] at h ⊢
      omega
    · unfold slice
      rw [List.append_assoc, List.drop_left, Nat.add_sub_cancel_left, ← hlength, List.take_left]

/-- **When a match is found**: in full, or else in a window. -/
theorem leakOf_eq_some {id : Str} {file : Str × Str} {m : LeakMatch} : leakOf id text file = some m ↔
    (m = (.full, id, file.1) ∧ text <:+: file.2) ∨
    (m = (.partial_, id, file.1) ∧ ¬ text <:+: file.2 ∧ WINDOW < text.length ∧
      ∃ w, w.length = WINDOW ∧ w <:+: text ∧ w <:+: file.2) := by
  have hwindow : (WINDOW < text.length ∧ (windows text WINDOW).any (fun w => w <:+: file.2) = true) ↔
      WINDOW < text.length ∧ ∃ w, w.length = WINDOW ∧ w <:+: text ∧ w <:+: file.2 := by
    refine and_congr_right (fun hlong => ?_)
    simp only [List.any_eq_true, decide_eq_true_eq, mem_windows hlong, and_assoc]
  unfold leakOf
  by_cases hfull : text <:+: file.2
  · rw [if_pos hfull, Option.some_inj]
    constructor
    · exact fun h => Or.inl ⟨h.symm, hfull⟩
    · rintro (⟨h, -⟩ | ⟨-, hnot, -⟩)
      · exact h.symm
      · exact absurd hfull hnot
  · rw [if_neg hfull]
    by_cases hpart : WINDOW < text.length ∧ (windows text WINDOW).any (fun w => w <:+: file.2) = true
    · rw [if_pos hpart, Option.some_inj]
      constructor
      · exact fun h => Or.inr ⟨h.symm, hfull, hwindow.mp hpart⟩
      · rintro (⟨-, h⟩ | ⟨h, -⟩)
        · exact absurd h hfull
        · exact h.symm
    · rw [if_neg hpart]
      refine iff_of_false (Option.some_ne_none m).symm ?_
      rintro (⟨-, h⟩ | ⟨-, -, h⟩)
      · exact hfull h
      · exact hpart (hwindow.mpr h)

/-- A text that has enough in common with a file is found in it. -/
theorem exists_leak {id passage : Str} {file : Str × Str} (hlong : WINDOW ≤ passage.length) (htext : passage <:+: text)
    (hfile : passage <:+: file.2) : ∃ kind, leakOf id text file = some (kind, id, file.1) := by
  by_cases hfull : text <:+: file.2
  · exact ⟨.full, leakOf_eq_some.mpr (Or.inl ⟨rfl, hfull⟩)⟩
  · have hlt : WINDOW < text.length := by
      by_contra hle
      have hsame : passage = text := htext.sublist.eq_of_length_le (by omega)
      exact hfull (hsame ▸ hfile)
    have hprefix := (List.take_prefix WINDOW passage).isInfix
    have hlength : (passage.take WINDOW).length = WINDOW := by
      rw [List.length_take]
      omega
    exact ⟨.partial_, leakOf_eq_some.mpr (Or.inr ⟨rfl, hfull, hlt, _, hlength, hprefix.trans htext, hprefix.trans hfile⟩)⟩

end Windows

theorem mem_findLeaks {R : Runtime} {texts files : List (Str × Str)} {minChars : ℕ} {m : LeakMatch} :
    m ∈ findLeaks R texts files minChars ↔ ∃ t ∈ texts, minChars ≤ (normalize R t.2).length ∧
      ∃ file ∈ files, leakOf t.1 (normalize R t.2) file = some m := by
  unfold findLeaks
  rw [List.mem_flatMap]
  refine exists_congr (fun t => and_congr_right (fun _ => ?_))
  by_cases hshort : (normalize R t.2).length < minChars
  · rw [if_pos hshort]
    exact iff_of_false List.not_mem_nil (fun h => absurd h.1 (by omega))
  · rw [if_neg hshort, List.mem_filterMap]
    exact (and_iff_right (by omega)).symm

/-- **Copies are found.**  What is reported is there: of a text that is long enough, the whole text or a window of it
is in the file, up to case and white space.  And no copy goes unnoticed: a passage of a text whose normal form has the
length of a window is found in every file that has a passage with the same normal form; the whole text is reported
as such, however short it is above the limit. -/
theorem copies_are_found (R : Runtime) (texts files : List (Str × Str)) (minChars : ℕ) :
    let matches_ := findLeaks R texts (files.map (fun f => (f.1, normalize R f.2))) minChars
    (∀ kind id name, (kind, id, name) ∈ matches_ → ∃ text content, (id, text) ∈ texts ∧ (name, content) ∈ files ∧
      minChars ≤ (normalize R text).length ∧ ∃ passage, passage <:+: normalize R text ∧ passage <:+: normalize R content ∧
        (kind = .full → passage = normalize R text) ∧ (kind = .partial_ → passage.length = WINDOW)) ∧
    ∀ id text name content x y, (id, text) ∈ texts → (name, content) ∈ files → minChars ≤ (normalize R text).length →
      x <:+: text → y <:+: content → normalize R x = normalize R y →
      (WINDOW ≤ (normalize R x).length → ∃ kind, (kind, id, name) ∈ matches_) ∧
      (x = text → (.full, id, name) ∈ matches_) := by
  constructor
  · intro kind id name hm
    obtain ⟨⟨id', text⟩, ht, hlong, file, hfile, hleak⟩ := mem_findLeaks.mp hm
    obtain ⟨⟨name', content⟩, hcontent, rfl⟩ := List.mem_map.mp hfile
    rcases leakOf_eq_some.mp hleak with ⟨heq, hfull⟩ | ⟨heq, -, -, w, hw, hwtext, hwfile⟩
    · obtain ⟨rfl, rfl, rfl⟩ : kind = .full ∧ id = id' ∧ name = name' := by simpa using heq
      exact ⟨text, content, ht, hcontent, hlong, _, List.infix_rfl, hfull, fun _ => rfl, fun h => (by cases h)⟩
    · obtain ⟨rfl, rfl, rfl⟩ : kind = .partial_ ∧ id = id' ∧ name = name' := by simpa using heq
      exact ⟨text, content, ht, hcontent, hlong, w, hwtext, hwfile, fun h => (by cases h), fun _ => hw⟩
  · intro id text name content x y htext hcontent hlong hx hy hsame
    have hfile : (name, normalize R content) ∈ files.map (fun f => (f.1, normalize R f.2)) :=
      List.mem_map.mpr ⟨_, hcontent, rfl⟩
    have hin : normalize R x <:+: normalize R content := hsame ▸ infix_normalize hy
    constructor
    · intro hwindow
      obtain ⟨kind, hleak⟩ : ∃ kind, leakOf id (normalize R text) (name, normalize R content) = some (kind, id, name) :=
        exists_leak hwindow (infix_normalize hx) hin
      exact ⟨kind, mem_findLeaks.mpr ⟨_, htext, hlong, _, hfile, hleak⟩⟩
    · rintro rfl
      exact mem_findLeaks.mpr ⟨_, htext, hlong, _, hfile, leakOf_eq_some.mpr (Or.inl ⟨rfl, hin⟩)⟩

end PdMasking
