import Mathlib.Data.List.Basic
import Mathlib.Data.List.Infix

/-!
# PdMasking.Lib.Regex — a backtracking matcher for regular expressions

`Regex.reach r c` are the cursors to which `r` can move the cursor `c`, in the order in which a backtracking
matcher tries them; the first one is the match.  `Regex.finditer` are the successive non-overlapping matches
in a text. Character classes are predicates, so that case folding and Unicode tables stay outside.

* `reach_advance`: a match only moves the cursor forward in the same text and closes groups inside it.
* `finditer_within`: the matches of `finditer` and their groups lie inside the text.

An optional iteration that consumes nothing is dropped, and an empty match is followed by the search at the
next symbol.
-/

inductive Regex (α : Type)
  | eps
  /-- One symbol of a class. -/
  | cls (p : α → Bool)
  | seq (r s : Regex α)
  | alt (r s : Regex α)
  /-- `min` copies and up to `max` in all (any number for `none`), as many as possible first unless `lazy`. -/
  | rep (lazy : Bool) (min : ℕ) (max : Option ℕ) (r : Regex α)
  | group (n : ℕ) (r : Regex α)
  /-- Look-ahead, negative for `false`. -/
  | ahead (positive : Bool) (r : Regex α)
  /-- Look-behind at one symbol of a class, negative for `false`. -/
  | behind (positive : Bool) (p : α → Bool)
  /-- Look-behind at several symbols, the nearest one first, negative for `false`. -/
  | lookback (positive : Bool) (ps : List (α → Bool))
  /-- What a group has matched, once more. -/
  | backref (same : α → α → Bool) (n : ℕ)

namespace Regex

variable {α : Type}

/-- A position in a text (`before` is read backwards) and the spans of the groups closed so far, newest
first. -/
structure Cursor (α : Type) where
  before : List α
  after : List α
  groups : List (ℕ × ℕ × ℕ)

namespace Cursor

def pos (c : Cursor α) : ℕ := c.before.length

/-- The text around the cursor. -/
def text (c : Cursor α) : List α := c.before.reverse ++ c.after

/-- `c'` is `c` moved forward in the same text; the groups closed on the way are in the text behind `c`. -/
structure Advance (c c' : Cursor α) : Prop where
  text_eq : c'.text = c.text
  pos_le : c.pos ≤ c'.pos
  groups_within : ∀ g ∈ c'.groups, g ∈ c.groups ∨ (c.pos ≤ g.2.1 ∧ g.2.1 ≤ g.2.2 ∧ g.2.2 ≤ c.text.length)

theorem Advance.refl (c : Cursor α) : c.Advance c := ⟨rfl, le_rfl, fun _ => Or.inl⟩

theorem Advance.trans {c c' c'' : Cursor α} (h : c.Advance c') (h' : c'.Advance c'') : c.Advance c'' := by
  refine ⟨h'.text_eq.trans h.text_eq, h.pos_le.trans h'.pos_le, ?_⟩
  intro g hg
  rcases h'.groups_within g hg with hg | hg
  · exact h.groups_within g hg
  · rw [h.text_eq] at hg
    exact Or.inr ⟨h.pos_le.trans hg.1, hg.2⟩

theorem pos_le_length (c : Cursor α) : c.pos ≤ c.text.length := by
  rw [pos, text, List.length_append, List.length_reverse]
  omega

end Cursor

/-- Up to `more` optional rounds of a step. -/
def optional (step : Cursor α → List (Cursor α)) (lazy : Bool) : ℕ → Cursor α → List (Cursor α)
  | 0, c => [c]
  | more + 1, c =>
    let longer := ((step c).filter (fun c' => c.pos < c'.pos)).flatMap (optional step lazy more)
    if lazy then c :: longer else longer ++ [c]

/-- `min` rounds of a step, then up to `more` optional ones. -/
def iterate (step : Cursor α → List (Cursor α)) (lazy : Bool) (more : ℕ) : ℕ → Cursor α → List (Cursor α)
  | 0, c => optional step lazy more c
  | min + 1, c => (step c).flatMap (iterate step lazy more min)

/-- The classes `ps`, one after another. -/
def agrees : List (α → Bool) → List α → Bool
  | [], _ => true
  | _ :: _, [] => false
  | p :: ps, a :: t => p a && agrees ps t

/-- The cursor behind one given word. -/
def eat (same : α → α → Bool) : List α → Cursor α → List (Cursor α)
  | [], c => [c]
  | a :: w, c =>
    match c.after with
    | [] => []
    | b :: t => if same a b then eat same w ⟨b :: c.before, t, c.groups⟩ else []

/-- The cursors reached from `c`, in the order of the backtracking search. -/
def reach : Regex α → Cursor α → List (Cursor α)
  | eps, c => [c]
  | cls p, c =>
    match c.after with
    | [] => []
    | a :: t => if p a then [⟨a :: c.before, t, c.groups⟩] else []
  | seq r s, c => (r.reach c).flatMap s.reach
  | alt r s, c => r.reach c ++ s.reach c
  | rep lazy min max r, c => iterate r.reach lazy (max.elim c.after.length (· - min)) min c
  | group n r, c => (r.reach c).map (fun c' => ⟨c'.before, c'.after, (n, c.pos, c'.pos) :: c'.groups⟩)
  | ahead positive r, c =>
    match r.reach c with
    | [] => if positive then [] else [c]
    | c' :: _ => if positive then [⟨c.before, c.after, c'.groups⟩] else []
  | behind positive p, c => if c.before.head?.any p = positive then [c] else []
  | lookback positive ps, c => if agrees ps c.before = positive then [c] else []
  | backref same n, c =>
    match c.groups.find? (fun g => g.1 = n) with
    | none => []
    | some g => eat same ((c.text.drop g.2.1).take (g.2.2 - g.2.1)) c

/-- A match: its span and the spans of its groups. -/
structure Match where
  start : ℕ
  stop : ℕ
  groups : List (ℕ × ℕ × ℕ)

def Match.span (m : Match) : ℕ × ℕ := (m.start, m.stop)

/-- The span of a group in its last round, if it took part in the match. -/
def Match.group (m : Match) (n : ℕ) : Option (ℕ × ℕ) := (m.groups.find? (fun g => g.1 = n)).map Prod.snd

/-- The span of a group that takes part in every match. -/
def Match.groupSpan (n : ℕ) (m : Match) : ℕ × ℕ := (m.group n).getD m.span

/-- The matches met from left to right; the first `skip` symbols belong to the match before. -/
def scan (r : Regex α) : ℕ → List α → List α → List Match
  | 0, before, [] => ((r.reach ⟨before, [], []⟩).head?.map (fun c => ⟨before.length, c.pos, c.groups⟩)).toList
  | _ + 1, _, [] => []
  | skip + 1, before, a :: t => scan r skip (a :: before) t
  | 0, before, a :: t =>
    match r.reach ⟨before, a :: t, []⟩ with
    | [] => scan r 0 (a :: before) t
    | c :: _ => ⟨before.length, c.pos, c.groups⟩ :: scan r (c.pos - before.length - 1) (a :: before) t

def finditer (r : Regex α) (text : List α) : List Match := scan r 0 [] text

/-- The cursor of a search that may start at `pos` and sees nothing from `stop` on. -/
def cursorAt (text : List α) (pos stop : ℕ) : Cursor α :=
  ⟨(text.take pos).reverse, (text.take stop).drop pos, []⟩

/-- The matches between `pos` and `stop`. -/
def finditerIn (r : Regex α) (text : List α) (pos stop : ℕ) : List Match :=
  scan r 0 (cursorAt text pos stop).before (cursorAt text pos stop).after

/-- The first match between `pos` and `stop`. -/
def search (r : Regex α) (text : List α) (pos stop : ℕ) : Option Match := (r.finditerIn text pos stop).head?

/-- The match that starts at `pos`. -/
def matchAt (r : Regex α) (text : List α) (pos : ℕ) : Option Match :=
  ((r.reach (cursorAt text pos text.length)).head?).map
    (fun c => ⟨(cursorAt text pos text.length).pos, c.pos, c.groups⟩)

/-- The match of the whole text. -/
def fullmatch (r : Regex α) (text : List α) : Option Match :=
  ((r.reach ⟨[], text, []⟩).find? (fun c => c.after.isEmpty)).map (fun c => ⟨0, c.pos, c.groups⟩)

/-- The expression of one given word, symbols compared by `same`. -/
def word (same : α → α → Bool) : List α → Regex α
  | [] => eps
  | a :: w => seq (cls (same a)) (word same w)

/-- `r?`. -/
def opt (r : Regex α) : Regex α := rep false 0 (some 1) r

/-- `r*`. -/
def star (r : Regex α) : Regex α := rep false 0 none r

/-- `r{min,max}`. -/
def between (min max : ℕ) (r : Regex α) : Regex α := rep false min (some max) r

/-- `r{n}`. -/
def times (n : ℕ) (r : Regex α) : Regex α := between n n r

/-- One expression after another. -/
def concat : List (Regex α) → Regex α
  | [] => eps
  | [r] => r
  | r :: rs => seq r (concat rs)

/-- One of several expressions, the first ones tried first. -/
def oneOf : Regex α → List (Regex α) → Regex α
  | r, [] => r
  | r, s :: rs => alt r (oneOf s rs)

/-! ### A match moves forward -/

/-- Rounds of a step stay in a reflexive and transitive relation that contains the step. -/
theorem optional_rel {P : Cursor α → Cursor α → Prop} (hrefl : ∀ c, P c c)
    (htrans : ∀ {c c' c''}, P c c' → P c' c'' → P c c'') {step : Cursor α → List (Cursor α)} {lazy : Bool}
    (hstep : ∀ c, ∀ c' ∈ step c, P c c') : ∀ (more : ℕ) (c : Cursor α),
    ∀ c' ∈ optional step lazy more c, P c c'
  | 0, c, c', h => by
    rw [optional, List.mem_singleton] at h
    exact h ▸ hrefl c
  | more + 1, c, c', h => by
    have hlonger : ∀ c' ∈ ((step c).filter (fun c' => c.pos < c'.pos)).flatMap (optional step lazy more),
        P c c' := by
      intro c' h
      obtain ⟨c'', h1, h2⟩ := List.mem_flatMap.mp h
      exact htrans (hstep c c'' (List.mem_filter.mp h1).1) (optional_rel hrefl htrans hstep more c'' c' h2)
    rw [optional] at h
    cases lazy with
    | true =>
      rcases List.mem_cons.mp h with rfl | h
      · exact hrefl _
      · exact hlonger c' h
    | false =>
      rcases List.mem_append.mp h with h | h
      · exact hlonger c' h
      · rw [List.mem_singleton] at h
        exact h ▸ hrefl c

theorem iterate_rel {P : Cursor α → Cursor α → Prop} (hrefl : ∀ c, P c c)
    (htrans : ∀ {c c' c''}, P c c' → P c' c'' → P c c'') {step : Cursor α → List (Cursor α)} {lazy : Bool}
    (hstep : ∀ c, ∀ c' ∈ step c, P c c') (more : ℕ) : ∀ (min : ℕ) (c : Cursor α),
    ∀ c' ∈ iterate step lazy more min c, P c c'
  | 0, c, c', h => optional_rel hrefl htrans hstep more c c' h
  | min + 1, c, c', h => by
    obtain ⟨c'', h1, h2⟩ := List.mem_flatMap.mp h
    exact htrans (hstep c c'' h1) (iterate_rel hrefl htrans hstep more min c'' c' h2)

theorem Cursor.Advance.symbol (a : α) (before t : List α) (groups : List (ℕ × ℕ × ℕ)) :
    Cursor.Advance ⟨before, a :: t, groups⟩ ⟨a :: before, t, groups⟩ := by
  refine ⟨?_, ?_, ?_⟩
  · simp [Cursor.text]
  · simp [Cursor.pos]
  · exact fun _ => Or.inl

theorem eat_advance {same : α → α → Bool} : ∀ (w : List α) (c : Cursor α), ∀ c' ∈ eat same w c, c.Advance c'
  | [], c, c', h => by
    rw [eat, List.mem_singleton] at h
    exact h ▸ Cursor.Advance.refl c
  | a :: w, ⟨before, [], groups⟩, c', h => by
    rw [eat] at h
    cases h
  | a :: w, ⟨before, b :: t, groups⟩, c', h => by
    rw [eat] at h
    dsimp only at h
    split_ifs at h
    · exact (Cursor.Advance.symbol b before t groups).trans (eat_advance w _ c' h)
    · cases h

/-- A look-around goes nowhere. -/
theorem mem_reach_ahead {positive : Bool} {r : Regex α} {c c' : Cursor α}
    (h : c' ∈ (ahead positive r).reach c) :
    c' = c ∨ ∃ c'' ∈ r.reach c, c' = ⟨c.before, c.after, c''.groups⟩ := by
  unfold reach at h
  split at h
  · split_ifs at h
    · cases h
    · exact Or.inl (List.mem_singleton.mp h)
  · rename_i c'' cs hr
    split_ifs at h
    · exact Or.inr ⟨c'', hr ▸ List.mem_cons_self, List.mem_singleton.mp h⟩
    · cases h

theorem mem_reach_behind {positive : Bool} {p : α → Bool} {c c' : Cursor α}
    (h : c' ∈ (behind positive p).reach c) : c' = c := by
  unfold reach at h
  split_ifs at h
  · exact List.mem_singleton.mp h
  · cases h

theorem mem_reach_lookback {positive : Bool} {ps : List (α → Bool)} {c c' : Cursor α}
    (h : c' ∈ (lookback positive ps).reach c) : c' = c := by
  unfold reach at h
  split_ifs at h
  · exact List.mem_singleton.mp h
  · cases h

/-- **A match only moves the cursor forward**, in the same text. -/
theorem reach_advance (r : Regex α) : ∀ c, ∀ c' ∈ r.reach c, c.Advance c' := by
  induction r with
  | eps =>
    intro c c' h
    rw [reach, List.mem_singleton] at h
    exact h ▸ Cursor.Advance.refl c
  | cls p =>
    intro c c' h
    unfold reach at h
    obtain ⟨before, after, groups⟩ := c
    cases after with
    | nil => simp at h
    | cons a t =>
      by_cases hp : p a = true
      · simp only [hp, if_true, List.mem_singleton] at h
        subst h
        exact Cursor.Advance.symbol a before t groups
      · simp [hp] at h
  | seq r s ihr ihs =>
    intro c c' h
    obtain ⟨c'', h1, h2⟩ := List.mem_flatMap.mp h
    exact (ihr c c'' h1).trans (ihs c'' c' h2)
  | alt r s ihr ihs =>
    intro c c' h
    rcases List.mem_append.mp h with h | h
    · exact ihr c c' h
    · exact ihs c c' h
  | rep lazy min max r ih =>
    intro c c' h
    exact iterate_rel Cursor.Advance.refl Cursor.Advance.trans ih _ _ c c' h
  | group n r ih =>
    intro c c' h
    obtain ⟨c'', h1, rfl⟩ := List.mem_map.mp h
    obtain ⟨htext, hpos, hgroups⟩ := ih c c'' h1
    refine ⟨htext, hpos, ?_⟩
    intro g hg
    rcases List.mem_cons.mp hg with rfl | hg
    · have hle := c''.pos_le_length
      rw [htext] at hle
      exact Or.inr ⟨le_rfl, hpos, hle⟩
    · exact hgroups g hg
  | ahead positive r ih =>
    intro c c' h
    rcases mem_reach_ahead h with rfl | ⟨c'', hc'', rfl⟩
    · exact Cursor.Advance.refl c'
    · -- the cursor stays where it is, the groups are kept
      exact ⟨rfl, le_rfl, (ih c c'' hc'').groups_within⟩
  | behind positive p =>
    intro c c' h
    rw [mem_reach_behind h]
    exact Cursor.Advance.refl c
  | lookback positive ps =>
    intro c c' h
    rw [mem_reach_lookback h]
    exact Cursor.Advance.refl c
  | backref same n =>
    intro c c' h
    unfold reach at h
    split at h
    · cases h
    · exact eat_advance _ c c' h

/-! ### Ways through a repetition -/

section Classes

variable {p : α → Bool} {lazy : Bool} {groups : List (ℕ × ℕ × ℕ)} {after : List α}

theorem reach_cls {a : α} {before t : List α} (h : p a = true) :
    (cls p).reach ⟨before, a :: t, groups⟩ = [⟨a :: before, t, groups⟩] := by
  rw [reach]
  exact if_pos h

theorem mem_optional_cls : ∀ {w : List α} {more : ℕ} {before : List α}, (∀ a ∈ w, p a = true) → w.length ≤ more →
    ⟨w.reverse ++ before, after, groups⟩ ∈
      Regex.optional (cls p).reach lazy more ⟨before, w ++ after, groups⟩
  | [], 0, _, _, _ => List.mem_singleton_self _
  | [], more + 1, before, _, _ => by
    rw [Regex.optional]
    cases lazy with
    | true => exact List.mem_cons_self
    | false => exact List.mem_append_right _ (List.mem_singleton_self _)
  | a :: w, more + 1, before, hw, hmax => by
    rw [List.forall_mem_cons] at hw
    have hrest : ⟨w.reverse ++ a :: before, after, groups⟩ ∈
        Regex.optional (cls p).reach lazy more ⟨a :: before, w ++ after, groups⟩ :=
      mem_optional_cls hw.2 (Nat.le_of_succ_le_succ hmax)
    have hlonger : ⟨(a :: w).reverse ++ before, after, groups⟩ ∈
        (((cls p).reach ⟨before, a :: (w ++ after), groups⟩).filter (fun c' => before.length < c'.pos)).flatMap
          (Regex.optional (cls p).reach lazy more) := by
      rw [reach_cls hw.1, List.filter_cons_of_pos (by simp [Cursor.pos]), List.filter_nil, List.flatMap_singleton,
        List.reverse_cons, List.append_assoc, List.singleton_append]
      exact hrest
    rw [List.cons_append, Regex.optional]
    cases lazy with
    | true => exact List.mem_cons_of_mem _ hlonger
    | false => exact List.mem_append_left _ hlonger

/-- Symbols of a class are a way through its repetition. -/
theorem mem_iterate_cls : ∀ {w : List α} {min more : ℕ} {before : List α}, (∀ a ∈ w, p a = true) → min ≤ w.length →
    w.length ≤ min + more →
    ⟨w.reverse ++ before, after, groups⟩ ∈ iterate (cls p).reach lazy more min ⟨before, w ++ after, groups⟩
  | w, 0, more, before, hw, _, hmax => mem_optional_cls hw (by omega)
  | a :: w, min + 1, more, before, hw, hmin, hmax => by
    rw [List.forall_mem_cons] at hw
    rw [List.length_cons] at hmin hmax
    rw [List.cons_append, iterate, reach_cls hw.1, List.flatMap_singleton, List.reverse_cons, List.append_assoc,
      List.singleton_append]
    exact mem_iterate_cls hw.2 (by omega) (by omega)

end Classes

/-! ### Where matches come from -/

/-- `m` is a match in `text`: a cursor in the text from which `r` reaches the end of `m`. -/
def Found (r : Regex α) (text : List α) (m : Match) : Prop :=
  ∃ before after c, before.reverse ++ after = text ∧ c ∈ r.reach ⟨before, after, []⟩ ∧
    m = ⟨before.length, c.pos, c.groups⟩

/-- What the scan yields is found in the text, behind what is skipped. -/
theorem scan_spec (r : Regex α) : ∀ (after : List α) (skip : ℕ) (before : List α), ∀ m ∈ scan r skip before after,
    r.Found (before.reverse ++ after) m ∧ before.length + skip ≤ m.start
  | [], 0, before, m, hm => by
    rw [scan, Option.mem_toList, Option.map_eq_some_iff] at hm
    obtain ⟨c, hc, rfl⟩ := hm
    exact ⟨⟨before, [], c, rfl, List.mem_of_mem_head? hc, rfl⟩, le_rfl⟩
  | [], _ + 1, _, m, hm => by simp [scan] at hm
  | a :: t, skip + 1, before, m, hm => by
    obtain ⟨hfound, hstart⟩ := scan_spec r t skip (a :: before) m hm
    rw [List.reverse_cons, List.append_assoc] at hfound
    rw [List.length_cons] at hstart
    exact ⟨hfound, by omega⟩
  | a :: t, 0, before, m, hm => by
    have hlater : ∀ skip, m ∈ scan r skip (a :: before) t →
        r.Found (before.reverse ++ a :: t) m ∧ before.length + 0 ≤ m.start := by
      intro skip hm
      obtain ⟨hfound, hstart⟩ := scan_spec r t skip (a :: before) m hm
      rw [List.reverse_cons, List.append_assoc] at hfound
      rw [List.length_cons] at hstart
      exact ⟨hfound, by omega⟩
    rw [scan] at hm
    cases hr : r.reach ⟨before, a :: t, []⟩ with
    | nil =>
      rw [hr] at hm
      exact hlater 0 hm
    | cons c cs =>
      rw [hr] at hm
      rcases List.mem_cons.mp hm with rfl | hm
      · exact ⟨⟨before, a :: t, c, rfl, hr ▸ List.mem_cons_self, rfl⟩, le_rfl⟩
      · exact hlater _ hm

/-- A match starts where the scan is or behind. -/
theorem scan_start (r : Regex α) (after : List α) (skip : ℕ) (before : List α) :
    ∀ m ∈ scan r skip before after, before.length ≤ m.start := by
  intro m hm
  have hstart := (scan_spec r after skip before m hm).2
  omega

/-- **The matches follow each other.** -/
theorem scan_pairwise (r : Regex α) : ∀ (after : List α) (skip : ℕ) (before : List α),
    (scan r skip before after).Pairwise (fun m m' => m.stop ≤ m'.start)
  | [], 0, before => by
    rw [scan]
    cases (r.reach ⟨before, [], []⟩).head? with
    | none => exact List.Pairwise.nil
    | some c => exact List.pairwise_singleton _ _
  | [], _ + 1, _ => by
    rw [scan]
    exact List.Pairwise.nil
  | a :: t, skip + 1, before => scan_pairwise r t skip (a :: before)
  | a :: t, 0, before => by
    rw [scan]
    cases hr : r.reach ⟨before, a :: t, []⟩ with
    | nil => exact scan_pairwise r t 0 (a :: before)
    | cons c cs =>
      refine List.Pairwise.cons ?_ (scan_pairwise r t _ (a :: before))
      intro m hm
      have hstart := (scan_spec r t _ (a :: before) m hm).2
      rw [List.length_cons] at hstart
      show c.pos ≤ m.start
      omega

/-- **Where a match can begin, one does or the one before goes on**, when every match that begins at a symbol of a
kind passes it. -/
theorem scan_covers {r : Regex α} {p : α → Bool}
    (hreach : ∀ before a t, p a = true → ∃ c cs, r.reach ⟨before, a :: t, []⟩ = c :: cs ∧ before.length < c.pos) :
    ∀ (after : List α) (skip : ℕ) (before : List α) (i : ℕ) (a : α), skip ≤ i → after[i]? = some a → p a = true →
      ∃ m ∈ scan r skip before after, m.start ≤ before.length + i ∧ before.length + i < m.stop
  | [], _, _, i, a, _, ha, _ => by simp at ha
  | b :: t, skip + 1, before, 0, a, hskip, _, _ => by omega
  | b :: t, skip + 1, before, i + 1, a, hskip, ha, hp => by
    obtain ⟨m, hm, h1, h2⟩ := scan_covers hreach t skip (b :: before) i a (by omega) (by simpa using ha) hp
    rw [List.length_cons] at h1 h2
    exact ⟨m, hm, by omega, by omega⟩
  | b :: t, 0, before, i, a, _, ha, hp => by
    rw [scan]
    cases hr : r.reach ⟨before, b :: t, []⟩ with
    | nil =>
      rcases i with _ | i
      · obtain rfl : b = a := by simpa using ha
        obtain ⟨c, cs, hne, -⟩ := hreach before b t hp
        rw [hr] at hne
        cases hne
      · obtain ⟨m, hm, h1, h2⟩ := scan_covers hreach t 0 (b :: before) i a (Nat.zero_le i) (by simpa using ha) hp
        rw [List.length_cons] at h1 h2
        exact ⟨m, hm, by omega, by omega⟩
    | cons c cs =>
      by_cases hin : before.length + i < c.pos
      · exact ⟨_, List.mem_cons_self, Nat.le_add_right _ _, hin⟩
      · rcases i with _ | i
        · obtain rfl : b = a := by simpa using ha
          obtain ⟨c', cs', heq, hpos⟩ := hreach before b t hp
          rw [hr] at heq
          obtain ⟨rfl, -⟩ := List.cons.inj heq
          omega
        · obtain ⟨m, hm, h1, h2⟩ := scan_covers hreach t (c.pos - before.length - 1) (b :: before) i a (by omega)
            (by simpa using ha) hp
          rw [List.length_cons] at h1 h2
          exact ⟨m, List.mem_cons_of_mem _ hm, by omega, by omega⟩

/-- **A match that no earlier one reaches over** is found by the scan. -/
theorem scan_at {r : Regex α} {c : Cursor α} {cs : List (Cursor α)} :
    ∀ (mid : List α) (skip : ℕ) (before after : List α), skip ≤ mid.length →
      r.reach ⟨mid.reverse ++ before, after, []⟩ = c :: cs →
      (∀ m ∈ scan r skip before (mid ++ after), m.start < before.length + mid.length →
        m.stop ≤ before.length + mid.length) →
      ⟨before.length + mid.length, c.pos, c.groups⟩ ∈ scan r skip before (mid ++ after)
  | [], skip, before, after, hskip, hreach, _ => by
    obtain rfl : skip = 0 := Nat.le_zero.mp hskip
    rw [List.reverse_nil, List.nil_append] at hreach
    cases after with
    | nil =>
      rw [List.nil_append, scan, hreach]
      exact List.mem_singleton_self _
    | cons a t =>
      rw [List.nil_append, scan, hreach]
      exact List.mem_cons_self
  | b :: mid, skip + 1, before, after, hskip, hreach, hcross => by
    have hreach' : r.reach ⟨mid.reverse ++ b :: before, after, []⟩ = c :: cs := by
      simpa only [List.reverse_cons, List.append_assoc, List.singleton_append] using hreach
    have hlen : (b :: before).length + mid.length = before.length + (b :: mid).length := by
      simp only [List.length_cons]
      omega
    rw [← hlen] at hcross ⊢
    exact scan_at mid skip (b :: before) after (Nat.le_of_succ_le_succ hskip) hreach' hcross
  | b :: mid, 0, before, after, _, hreach, hcross => by
    have hreach' : r.reach ⟨mid.reverse ++ b :: before, after, []⟩ = c :: cs := by
      simpa only [List.reverse_cons, List.append_assoc, List.singleton_append] using hreach
    have hlen : (b :: before).length + mid.length = before.length + (b :: mid).length := by
      simp only [List.length_cons]
      omega
    rw [← hlen] at hcross ⊢
    rw [List.cons_append, scan] at hcross ⊢
    cases hr : r.reach ⟨before, b :: (mid ++ after), []⟩ with
    | nil =>
      rw [hr] at hcross
      exact scan_at mid 0 (b :: before) after (Nat.zero_le _) hreach' hcross
    | cons c' cs' =>
      rw [hr] at hcross
      have hstop := hcross _ List.mem_cons_self (by simp only [List.length_cons]; omega)
      dsimp only at hstop
      rw [List.length_cons] at hstop
      refine List.mem_cons_of_mem _ (scan_at mid _ (b :: before) after (by omega) hreach' ?_)
      exact fun m hm => hcross m (List.mem_cons_of_mem _ hm)

/-- The first match starts before the others. -/
theorem scan_head_le (r : Regex α) : ∀ (after : List α) (skip : ℕ) (before : List α) (first : Match),
    (scan r skip before after).head? = some first → ∀ m ∈ scan r skip before after, first.start ≤ m.start
  | [], 0, before, first, hfirst, m, hm => by
    rw [scan] at hfirst hm
    cases hr : (r.reach ⟨before, [], []⟩).head? with
    | none =>
      rw [hr] at hm
      cases hm
    | some c =>
      rw [hr] at hfirst hm
      obtain rfl := Option.some.inj hfirst
      rw [List.mem_singleton.mp hm]
  | [], _ + 1, _, _, _, m, hm => by simp [scan] at hm
  | a :: t, skip + 1, before, first, hfirst, m, hm => scan_head_le r t skip (a :: before) first hfirst m hm
  | a :: t, 0, before, first, hfirst, m, hm => by
    rw [scan] at hfirst hm
    cases hr : r.reach ⟨before, a :: t, []⟩ with
    | nil =>
      rw [hr] at hfirst hm
      exact scan_head_le r t 0 (a :: before) first hfirst m hm
    | cons c cs =>
      rw [hr] at hfirst hm
      obtain rfl := Option.some.inj hfirst
      rcases List.mem_cons.mp hm with rfl | hm
      · exact le_rfl
      · have hstart := scan_start r t _ (a :: before) m hm
        rw [List.length_cons] at hstart
        exact (Nat.le_succ _).trans hstart

theorem finditer_pairwise (r : Regex α) (text : List α) :
    (r.finditer text).Pairwise (fun m m' => m.stop ≤ m'.start) := scan_pairwise r text 0 []

theorem finditer_found {r : Regex α} {text : List α} {m : Match} (h : m ∈ r.finditer text) : r.Found text m :=
  (scan_spec r text 0 [] m h).1

theorem cursorAt_text {text : List α} {pos stop : ℕ} (h : pos ≤ stop) :
    (cursorAt text pos stop).before.reverse ++ (cursorAt text pos stop).after = text.take stop := by
  have hbefore : text.take pos = (text.take stop).take pos := by rw [List.take_take, Nat.min_eq_left h]
  rw [cursorAt, List.reverse_reverse, hbefore, List.take_append_drop]

theorem finditerIn_found {r : Regex α} {text : List α} {pos stop : ℕ} (hle : pos ≤ stop) {m : Match}
    (h : m ∈ r.finditerIn text pos stop) : r.Found (text.take stop) m := by
  have hfound := (scan_spec r _ _ _ m h).1
  rwa [cursorAt_text hle] at hfound

theorem search_found {r : Regex α} {text : List α} {pos stop : ℕ} (hle : pos ≤ stop) {m : Match}
    (h : r.search text pos stop = some m) : r.Found (text.take stop) m :=
  finditerIn_found hle (List.mem_of_mem_head? h)

theorem matchAt_found {r : Regex α} {text : List α} {pos : ℕ} (hle : pos ≤ text.length) {m : Match}
    (h : r.matchAt text pos = some m) : r.Found text m ∧ m.start = pos := by
  obtain ⟨c, hc, rfl⟩ := Option.map_eq_some_iff.mp h
  have htext : (cursorAt text pos text.length).before.reverse ++ (cursorAt text pos text.length).after =
      text.take text.length := cursorAt_text hle
  rw [List.take_length] at htext
  refine ⟨⟨_, _, c, htext, List.mem_of_mem_head? hc, rfl⟩, ?_⟩
  show ((text.take pos).reverse).length = pos
  rw [List.length_reverse, List.length_take, Nat.min_eq_left hle]

theorem fullmatch_found {r : Regex α} {text : List α} {m : Match} (h : r.fullmatch text = some m) :
    r.Found text m ∧ m.span = (0, text.length) := by
  obtain ⟨c, hc, rfl⟩ := Option.map_eq_some_iff.mp h
  have hmem := List.mem_of_find?_eq_some hc
  refine ⟨⟨[], text, c, rfl, hmem, rfl⟩, ?_⟩
  have htext := (reach_advance r _ c hmem).text_eq
  have hempty : c.after.isEmpty = true := by simpa using List.find?_some hc
  have hend : c.after = [] := List.isEmpty_iff.mp hempty
  have hlen := congrArg List.length htext
  rw [Cursor.text, Cursor.text, hend, List.append_nil, List.length_reverse] at hlen
  exact congrArg (Prod.mk 0) hlen

/-- The match and its groups lie inside a text of length `n`. -/
def Match.Within (n : ℕ) (m : Match) : Prop :=
  m.start ≤ m.stop ∧ m.stop ≤ n ∧ ∀ g ∈ m.groups, m.start ≤ g.2.1 ∧ g.2.1 ≤ g.2.2 ∧ g.2.2 ≤ n

/-- A match found at a position of a text lies inside that text. -/
theorem within_of_reach {r : Regex α} {before after : List α} {c : Cursor α}
    (h : c ∈ r.reach ⟨before, after, []⟩) :
    Match.Within (before.length + after.length) ⟨before.length, c.pos, c.groups⟩ := by
  obtain ⟨htext, hpos, hgroups⟩ := reach_advance r _ c h
  have hlen : (before.reverse ++ after).length = before.length + after.length := by
    rw [List.length_append, List.length_reverse]
  have hle := c.pos_le_length
  rw [htext] at hle
  refine ⟨hpos, hle.trans hlen.le, ?_⟩
  intro g hg
  rcases hgroups g hg with hg | hg
  · cases hg
  · exact ⟨hg.1, hg.2.1, hg.2.2.trans hlen.le⟩

theorem Found.within {r : Regex α} {text : List α} {m : Match} (h : r.Found text m) : m.Within text.length := by
  obtain ⟨before, after, c, rfl, hc, rfl⟩ := h
  rw [List.length_append, List.length_reverse]
  exact within_of_reach hc

/-- **The matches lie inside the text**, and so do their groups. -/
theorem finditer_within (r : Regex α) (text : List α) : ∀ m ∈ r.finditer text, m.Within text.length :=
  fun _ hm => (finditer_found hm).within

/-- The span of a group is inside the text behind the start of the match, too. -/
theorem groupSpan_within {n k : ℕ} {m : Match} (h : m.Within n) :
    m.start ≤ (m.groupSpan k).1 ∧ (m.groupSpan k).1 ≤ (m.groupSpan k).2 ∧ (m.groupSpan k).2 ≤ n := by
  unfold Match.groupSpan Match.group
  cases hg : m.groups.find? (fun g => g.1 = k) with
  | none => exact ⟨le_rfl, h.1, h.2.1⟩
  | some g => exact h.2.2 g (List.mem_of_find?_eq_some hg)

/-- Matches in the text from `pos` on start there. -/
theorem finditerIn_start {r : Regex α} {text : List α} {pos stop : ℕ} (hle : pos ≤ stop) (hlen : stop ≤ text.length)
    {m : Match} (h : m ∈ r.finditerIn text pos stop) : pos ≤ m.start := by
  have hstart := scan_start r _ _ _ m h
  have hpos : (cursorAt text pos stop).before.length = pos := by
    rw [cursorAt, List.length_reverse, List.length_take]
    omega
  omega

end Regex
