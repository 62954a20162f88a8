import Mathlib.Algebra.GroupWithZero.Nat
import PdMasking.Lib.Regex

/-!
# PdMasking.Lib.Pattern — regular expressions over named classes

A `Pattern` names its character classes, so that it is a closed term that can be parsed and computed with; what
a class means comes in with `compile`, which gives the matcher of `PdMasking.Lib.Regex`.

* `reach_spells`: the cursor moves over a word.
* `groups_of_reach`: only the groups of the pattern are closed.
* `group_of_always`: a group that every way passes takes part in every match.
* `found_consume`: a look-ahead at the end of a pattern may be read as a part of the match.
-/

inductive Pattern (κ : Type)
  | empty
  | set (s : κ)
  | seq (r s : Pattern κ)
  | alt (r s : Pattern κ)
  | rep (lazy : Bool) (min : ℕ) (max : Option ℕ) (r : Pattern κ)
  | group (n : ℕ) (r : Pattern κ)
  | ahead (positive : Bool) (r : Pattern κ)
  /-- Look-behind at a word of classes. -/
  | behind (positive : Bool) (word : List κ)
  | backref (n : ℕ)
  deriving DecidableEq

namespace Pattern

open Regex

variable {κ α : Type}

/-- The matcher of a pattern whose classes mean `test`. -/
def compile (test : κ → α → Bool) (same : α → α → Bool) : Pattern κ → Regex α
  | empty => .eps
  | set s => .cls (test s)
  | seq r s => .seq (r.compile test same) (s.compile test same)
  | alt r s => .alt (r.compile test same) (s.compile test same)
  | rep lazy min max r => .rep lazy min max (r.compile test same)
  | group n r => .group n (r.compile test same)
  | ahead positive r => .ahead positive (r.compile test same)
  | behind positive word => .lookback positive (word.reverse.map test)
  | backref n => .backref same n

/-- The pattern has a group `g`. -/
def mentions (g : ℕ) : Pattern κ → Bool
  | empty | set _ | behind _ _ | backref _ => false
  | seq r s | alt r s => r.mentions g || s.mentions g
  | rep _ _ _ r | ahead _ r => r.mentions g
  | group n r => n == g || r.mentions g

/-- Every way through the pattern closes group `g`. -/
def always (g : ℕ) : Pattern κ → Bool
  | empty | set _ | behind _ _ | backref _ | ahead _ _ => false
  | seq r s => r.always g || s.always g
  | alt r s => r.always g && s.always g
  | rep _ min _ r => 0 < min && r.always g
  | group n r => n == g || r.always g

/-- At least so many symbols of the classes that satisfy `q` are on every way through the pattern. -/
def least (q : κ → Bool) : Pattern κ → ℕ
  | empty | behind _ _ | backref _ | ahead _ _ => 0
  | set s => if q s then 1 else 0
  | seq r s => r.least q + s.least q
  | alt r s => min (r.least q) (s.least q)
  | rep _ min _ r => min * r.least q
  | group _ r => r.least q

/-- The pattern with the look-ahead at its end as a part of the match. -/
def consume : Pattern κ → Pattern κ
  | seq (ahead true r) empty => r
  | seq r s => seq r s.consume
  | r => r

/-- The pattern is a sequence with `e` at its end. -/
def endsWith [DecidableEq κ] (e : Pattern κ) : Pattern κ → Bool
  | seq r s => (r == e && s == empty) || endsWith e s
  | _ => false

end Pattern

/-! ### Words -/

namespace Regex

variable {α : Type}

/-- `c'` is `c` moved over the word `w`. -/
structure Cursor.Spells (c : Cursor α) (w : List α) (c' : Cursor α) : Prop where
  before_eq : c'.before = w.reverse ++ c.before
  after_eq : c.after = w ++ c'.after

namespace Cursor

theorem Spells.nil (c : Cursor α) (groups : List (ℕ × ℕ × ℕ)) :
    c.Spells [] ⟨c.before, c.after, groups⟩ := ⟨rfl, rfl⟩

theorem Spells.append {c c' c'' : Cursor α} {u v : List α} (h : c.Spells u c') (h' : c'.Spells v c'') :
    c.Spells (u ++ v) c'' := by
  refine ⟨?_, ?_⟩
  · rw [h'.before_eq, h.before_eq, List.reverse_append, List.append_assoc]
  · rw [h.after_eq, h'.after_eq, List.append_assoc]

theorem Spells.unique {c c' : Cursor α} {u v : List α} (hu : c.Spells u c') (hv : c.Spells v c') : u = v :=
  List.append_cancel_right (hu.after_eq.symm.trans hv.after_eq)

theorem Spells.pos_eq {c c' : Cursor α} {w : List α} (h : c.Spells w c') : c'.pos = c.pos + w.length := by
  rw [pos, h.before_eq, List.length_append, List.length_reverse, Nat.add_comm]
  rfl

theorem Spells.text_eq {c c' : Cursor α} {w : List α} (h : c.Spells w c') : c'.text = c.text := by
  rw [text, text, h.before_eq, h.after_eq, List.reverse_append, List.reverse_reverse, List.append_assoc]

/-- The word stands in the text between the two cursors. -/
theorem Spells.slice {c c' : Cursor α} {w : List α} (h : c.Spells w c') :
    (c.text.drop c.pos).take (c'.pos - c.pos) = w := by
  have hlen : c.pos = c.before.reverse.length := List.length_reverse.symm
  rw [h.pos_eq, Nat.add_sub_cancel_left, text, hlen, List.drop_left, h.after_eq, List.take_left]

end Cursor

/-- Between two cursors only groups with numbers in `ns` are closed, and none is opened again. -/
def Closes (ns : ℕ → Prop) (c c' : Cursor α) : Prop :=
  ∃ closed, c'.groups = closed ++ c.groups ∧ ∀ e ∈ closed, ns e.1

theorem Closes.of_eq (ns : ℕ → Prop) {c c' : Cursor α} (h : c'.groups = c.groups) : Closes ns c c' :=
  ⟨[], h, by simp⟩

theorem Closes.refl (ns : ℕ → Prop) (c : Cursor α) : Closes ns c c := Closes.of_eq ns rfl

theorem Closes.trans {ns : ℕ → Prop} {c c' c'' : Cursor α} (h : Closes ns c c') (h' : Closes ns c' c'') :
    Closes ns c c'' := by
  obtain ⟨u, hu, hnu⟩ := h
  obtain ⟨v, hv, hnv⟩ := h'
  refine ⟨v ++ u, by rw [hv, hu, List.append_assoc], ?_⟩
  intro e he
  rcases List.mem_append.mp he with he | he
  · exact hnv e he
  · exact hnu e he

theorem Closes.mono {ns ns' : ℕ → Prop} {c c' : Cursor α} (hns : ∀ n, ns n → ns' n) (h : Closes ns c c') :
    Closes ns' c c' := by
  obtain ⟨u, hu, hnu⟩ := h
  exact ⟨u, hu, fun e he => hns e.1 (hnu e he)⟩

/-- The groups closed before stay closed. -/
theorem Closes.keeps {ns : ℕ → Prop} {c c' : Cursor α} (h : Closes ns c c') {e : ℕ × ℕ × ℕ}
    (he : e ∈ c.groups) : e ∈ c'.groups := by
  obtain ⟨u, hu, -⟩ := h
  exact hu ▸ List.mem_append_right u he

theorem Closes.of_mem {ns : ℕ → Prop} {c c' : Cursor α} (h : Closes ns c c') {e : ℕ × ℕ × ℕ}
    (he : e ∈ c'.groups) : e ∈ c.groups ∨ ns e.1 := by
  obtain ⟨u, hu, hnu⟩ := h
  rw [hu] at he
  rcases List.mem_append.mp he with he | he
  · exact Or.inr (hnu e he)
  · exact Or.inl he

theorem eat_spells {same : α → α → Bool} : ∀ (w : List α) (c : Cursor α), ∀ c' ∈ eat same w c,
    (∃ v, c.Spells v c') ∧ c'.groups = c.groups
  | [], c, c', h => by
    rw [eat, List.mem_singleton] at h
    subst h
    exact ⟨⟨[], Cursor.Spells.nil c' c'.groups⟩, rfl⟩
  | a :: w, ⟨before, [], groups⟩, c', h => by
    rw [eat] at h
    cases h
  | a :: w, ⟨before, b :: t, groups⟩, c', h => by
    rw [eat] at h
    dsimp only at h
    split_ifs at h
    · obtain ⟨⟨v, hv⟩, hgroups⟩ := eat_spells w _ c' h
      have hb : Cursor.Spells ⟨before, b :: t, groups⟩ [b] ⟨b :: before, t, groups⟩ := ⟨rfl, rfl⟩
      exact ⟨⟨[b] ++ v, hb.append hv⟩, hgroups⟩
    · cases h

/-- The ways of a negative look-ahead and a class. -/
theorem eq_of_reach_not_ahead {r : Regex α} {c c' : Cursor α} (h : c' ∈ (ahead false r).reach c) : c' = c := by
  unfold reach at h
  split at h
  · rwa [if_neg Bool.false_ne_true, List.mem_singleton] at h
  · rw [if_neg Bool.false_ne_true] at h
    cases h

theorem mem_reach_cls {p : α → Bool} {c c' : Cursor α} (h : c' ∈ (cls p).reach c) :
    ∃ a, p a = true ∧ c.Spells [a] c' ∧ c'.groups = c.groups := by
  obtain ⟨before, after, groups⟩ := c
  unfold reach at h
  cases after with
  | nil => cases h
  | cons a t =>
    dsimp only at h
    split_ifs at h with hp
    · rw [List.mem_singleton.mp h]
      exact ⟨a, hp, ⟨rfl, rfl⟩, rfl⟩
    · cases h

theorem mem_reach_backref {same : α → α → Bool} {n : ℕ} {c c' : Cursor α}
    (h : c' ∈ (backref same n).reach c) : (∃ v, c.Spells v c') ∧ c'.groups = c.groups := by
  unfold reach at h
  split at h
  · cases h
  · exact eat_spells _ c c' h

theorem mem_reach_group {n : ℕ} {r : Regex α} {c c' : Cursor α} (h : c' ∈ (group n r).reach c) :
    ∃ c'' ∈ r.reach c, c' = ⟨c''.before, c''.after, (n, c.pos, c''.pos) :: c''.groups⟩ := by
  obtain ⟨c'', hc'', rfl⟩ := List.mem_map.mp h
  exact ⟨c'', hc'', rfl⟩

/-! ### How many symbols of a kind are passed -/

/-- An advance passes a word. -/
theorem Cursor.Advance.exists_spells {c c' : Cursor α} (h : c.Advance c') : ∃ w, c.Spells w c' := by
  have htext := h.text_eq
  unfold Cursor.text at htext
  have hlen : c.before.reverse.length ≤ c'.before.reverse.length := by
    rw [List.length_reverse, List.length_reverse]
    exact h.pos_le
  obtain ⟨w, hw⟩ := List.prefix_of_prefix_length_le ⟨_, rfl⟩ ⟨_, htext⟩ hlen
  refine ⟨w, ?_, ?_⟩
  · rw [← List.reverse_reverse c'.before, ← hw, List.reverse_append, List.reverse_reverse]
  · rw [← hw, List.append_assoc] at htext
    exact (List.append_cancel_left htext).symm

/-- Every way through `r` passes at least `n` symbols with `p`. -/
def Counts (p : α → Bool) (n : ℕ) (r : Regex α) : Prop :=
  ∀ c, ∀ c' ∈ r.reach c, ∃ w, c.Spells w c' ∧ n ≤ w.countP p

namespace Counts

variable {p q : α → Bool} {n k : ℕ} {r s : Regex α}

theorem zero (p : α → Bool) (r : Regex α) : Counts p 0 r := by
  intro c c' h
  obtain ⟨w, hw⟩ := (reach_advance r c c' h).exists_spells
  exact ⟨w, hw, Nat.zero_le _⟩

theorem cls (hq : ∀ a, q a = true → p a = true) : Counts p 1 (cls q) := by
  intro c c' h
  obtain ⟨a, ha, hspell, -⟩ := mem_reach_cls h
  exact ⟨[a], hspell, by simp [hq a ha]⟩

theorem seq (hr : Counts p n r) (hs : Counts p k s) : Counts p (n + k) (r.seq s) := by
  intro c c' h
  obtain ⟨c'', h1, h2⟩ := List.mem_flatMap.mp h
  obtain ⟨u, hu, hnu⟩ := hr c c'' h1
  obtain ⟨v, hv, hkv⟩ := hs c'' c' h2
  refine ⟨u ++ v, hu.append hv, ?_⟩
  rw [List.countP_append]
  exact Nat.add_le_add hnu hkv

theorem alt (hr : Counts p n r) (hs : Counts p n s) : Counts p n (r.alt s) := by
  intro c c' h
  rcases List.mem_append.mp h with h | h
  · exact hr c c' h
  · exact hs c c' h

theorem group (g : ℕ) (hr : Counts p n r) : Counts p n (r.group g) := by
  intro c c' h
  obtain ⟨c'', h1, rfl⟩ := mem_reach_group h
  obtain ⟨w, hw, hn⟩ := hr c c'' h1
  exact ⟨w, ⟨hw.before_eq, hw.after_eq⟩, hn⟩

theorem iterate (lazy : Bool) (more : ℕ) (hr : Counts p n r) : ∀ (min : ℕ) (c : Cursor α),
    ∀ c' ∈ iterate r.reach lazy more min c, ∃ w, c.Spells w c' ∧ min * n ≤ w.countP p
  | 0, c, c', h => by
    obtain ⟨w, hw⟩ := (iterate_rel Cursor.Advance.refl Cursor.Advance.trans (reach_advance r) more 0 c c'
      h).exists_spells
    exact ⟨w, hw, by omega⟩
  | min + 1, c, c', h => by
    obtain ⟨c'', h1, h2⟩ := List.mem_flatMap.mp h
    obtain ⟨u, hu, hnu⟩ := hr c c'' h1
    obtain ⟨v, hv, hmv⟩ := iterate lazy more hr min c'' c' h2
    refine ⟨u ++ v, hu.append hv, ?_⟩
    rw [List.countP_append, Nat.succ_mul]
    omega

theorem rep (lazy : Bool) (min : ℕ) (max : Option ℕ) (hr : Counts p n r) :
    Counts p (min * n) (rep lazy min max r) := by
  intro c c' h
  exact iterate lazy _ hr min c c' h

theorem mono (hkn : k ≤ n) (hr : Counts p n r) : Counts p k r := by
  intro c c' h
  obtain ⟨w, hw, hn⟩ := hr c c' h
  exact ⟨w, hw, hkn.trans hn⟩

/-- The counts of the members of a sequence add up. -/
theorem concat : ∀ {ns : List ℕ} {rs : List (Regex α)}, List.Forall₂ (Counts p) ns rs →
    Counts p ns.sum (concat rs)
  | [], [], _ => zero p _
  | [n], [r], h => by
    obtain ⟨hr, -⟩ := List.forall₂_cons.mp h
    exact hr
  | n :: n' :: ns, r :: r' :: rs, h => by
    obtain ⟨hr, hrs⟩ := List.forall₂_cons.mp h
    rw [List.sum_cons]
    exact hr.seq (concat hrs)

/-- A sequence passes what one of its members passes. -/
theorem of_mem (hr : Counts p n r) : ∀ {rs : List (Regex α)}, r ∈ rs → Counts p n (Regex.concat rs)
  | [s], h => by
    obtain rfl := List.mem_singleton.mp h
    exact hr
  | s :: s' :: rs, h => by
    rcases List.mem_cons.mp h with rfl | h
    · exact (hr.seq (zero p (Regex.concat (s' :: rs)))).mono (Nat.le_add_right n 0)
    · exact ((zero p s).seq (of_mem hr h)).mono (Nat.le_add_left n 0)

/-- So many symbols are between two cursors. -/
theorem of_reach (hr : Counts p n r) {c c' : Cursor α} (h : c' ∈ r.reach c) :
    n ≤ ((c.text.drop c.pos).take (c'.pos - c.pos)).countP p := by
  obtain ⟨w, hw, hn⟩ := hr c c' h
  rw [hw.slice]
  exact hn

/-- So many symbols are in a match. -/
theorem of_found (hr : Counts p n r) {text : List α} {m : Match} (h : r.Found text m) :
    n ≤ ((text.drop m.start).take (m.stop - m.start)).countP p := by
  obtain ⟨before, after, c', rfl, hc', rfl⟩ := h
  exact hr.of_reach hc'

end Counts

/-! ### Which symbols are passed -/

/-- Every way through the expression passes symbols of a kind only. -/
def Passes (p : α → Bool) (r : Regex α) : Prop :=
  ∀ c, ∀ c' ∈ r.reach c, ∃ w, c.Spells w c' ∧ ∀ a ∈ w, p a = true

namespace Passes

variable {p q : α → Bool} {r s : Regex α}

theorem cls (hq : ∀ a, q a = true → p a = true) : Passes p (cls q) := by
  intro c c' h
  obtain ⟨a, ha, hspell, -⟩ := mem_reach_cls h
  refine ⟨[a], hspell, ?_⟩
  intro b hb
  rw [List.mem_singleton.mp hb]
  exact hq a ha

/-- What moves nowhere passes nothing. -/
theorem of_still (h : ∀ c, ∀ c' ∈ r.reach c, c' = c) : Passes p r := by
  intro c c' hc
  rw [h c c' hc]
  exact ⟨[], ⟨rfl, rfl⟩, by simp⟩

theorem ahead (r : Regex α) : Passes p (ahead false r) := of_still (fun _ _ => eq_of_reach_not_ahead)

theorem behind (positive : Bool) (q : α → Bool) : Passes p (behind positive q) :=
  of_still (fun _ _ => mem_reach_behind)

/-- Two ways behind each other. -/
theorem append {c c' c'' : Cursor α} (h : ∃ w, c.Spells w c' ∧ ∀ a ∈ w, p a = true)
    (h' : ∃ w, c'.Spells w c'' ∧ ∀ a ∈ w, p a = true) : ∃ w, c.Spells w c'' ∧ ∀ a ∈ w, p a = true := by
  obtain ⟨u, hu, hpu⟩ := h
  obtain ⟨v, hv, hpv⟩ := h'
  exact ⟨u ++ v, hu.append hv, List.forall_mem_append.mpr ⟨hpu, hpv⟩⟩

theorem seq (hr : Passes p r) (hs : Passes p s) : Passes p (r.seq s) := by
  intro c c' h
  obtain ⟨c'', h1, h2⟩ := List.mem_flatMap.mp h
  exact append (hr c c'' h1) (hs c'' c' h2)

theorem alt (hr : Passes p r) (hs : Passes p s) : Passes p (r.alt s) := by
  intro c c' h
  rcases List.mem_append.mp h with h | h
  · exact hr c c' h
  · exact hs c c' h

theorem rep (lazy : Bool) (min : ℕ) (max : Option ℕ) (hr : Passes p r) : Passes p (rep lazy min max r) := by
  intro c c' h
  refine iterate_rel (P := fun c c' => ∃ w, c.Spells w c' ∧ ∀ a ∈ w, p a = true) ?_ append hr _ min c c' h
  intro c
  exact ⟨[], ⟨rfl, rfl⟩, by simp⟩

theorem concat : ∀ {rs : List (Regex α)}, (∀ r ∈ rs, Passes p r) → Passes p (concat rs)
  | [], _ => by
    refine of_still ?_
    intro c c' h
    exact List.mem_singleton.mp h
  | [r], h => h r (List.mem_singleton_self r)
  | r :: r' :: rs, h => (h r List.mem_cons_self).seq (concat (fun s hs => h s (List.mem_cons_of_mem r hs)))

/-- The symbols between two cursors are of the kind. -/
theorem of_reach (hr : Passes p r) {c c' : Cursor α} (h : c' ∈ r.reach c) :
    ∀ a ∈ (c.text.drop c.pos).take (c'.pos - c.pos), p a = true := by
  obtain ⟨w, hw, hp⟩ := hr c c' h
  rw [hw.slice]
  exact hp

/-- A match is made of symbols of the kind. -/
theorem of_found (hr : Passes p r) {text : List α} {m : Match} (h : r.Found text m) :
    ∀ a ∈ (text.drop m.start).take (m.stop - m.start), p a = true := by
  obtain ⟨before, after, c', rfl, hc', rfl⟩ := h
  exact hr.of_reach hc'

end Passes

/-- The group at the end of a sequence, before a negative look-ahead, is the last one closed. -/
theorem reach_last_group {g : ℕ} {b s : Regex α} : ∀ (rs : List (Regex α)) (c : Cursor α),
    ∀ c' ∈ (concat (rs ++ [group g b, ahead false s])).reach c,
      ∃ d d', d' ∈ b.reach d ∧ d.text = c.text ∧ c'.groups.head? = some (g, d.pos, d'.pos)
  | [], c, c', h => by
    obtain ⟨c'', h1, h2⟩ := List.mem_flatMap.mp h
    obtain ⟨d', hd', rfl⟩ := mem_reach_group h1
    obtain rfl := eq_of_reach_not_ahead h2
    exact ⟨c, d', hd', rfl, rfl⟩
  | r :: rs, c, c', h => by
    have hseq : concat (r :: rs ++ [group g b, ahead false s]) = seq r (concat (rs ++ [group g b, ahead false s])) := by
      cases rs <;> rfl
    rw [hseq] at h
    obtain ⟨c'', h1, h2⟩ := List.mem_flatMap.mp h
    obtain ⟨d, d', hb, htext, hhead⟩ := reach_last_group rs c'' c' h2
    exact ⟨d, d', hb, htext.trans (reach_advance r c c'' h1).text_eq, hhead⟩

/-- That group goes from where its expression begins to where it ends. -/
theorem last_group_span {g : ℕ} {b s : Regex α} (rs : List (Regex α)) {text : List α} {m : Match}
    (h : (concat (rs ++ [group g b, ahead false s])).Found text m) :
    ∃ d d', d' ∈ b.reach d ∧ d.text = text ∧ m.groupSpan g = (d.pos, d'.pos) := by
  obtain ⟨before, after, c, rfl, hc, rfl⟩ := h
  obtain ⟨d, d', hd, htext, hhead⟩ := reach_last_group rs _ c hc
  refine ⟨d, d', hd, htext, ?_⟩
  obtain ⟨e, es, heq⟩ : ∃ e es, c.groups = e :: es := List.exists_cons_of_ne_nil (by rintro heq; simp [heq] at hhead)
  rw [heq, List.head?_cons, Option.some.injEq] at hhead
  rw [Match.groupSpan, Match.group, heq, hhead]
  simp

/-- So many symbols are in that group. -/
theorem count_last_group {p : α → Bool} {n g : ℕ} {b s : Regex α} (hb : Counts p n b)
    (rs : List (Regex α)) {text : List α} {m : Match} (h : (concat (rs ++ [group g b, ahead false s])).Found text m) :
    n ≤ ((text.drop (m.groupSpan g).1).take ((m.groupSpan g).2 - (m.groupSpan g).1)).countP p := by
  obtain ⟨d, d', hd, rfl, hspan⟩ := last_group_span rs h
  rw [hspan]
  exact hb.of_reach hd

/-- Only symbols of the kind are in that group. -/
theorem passes_last_group {p : α → Bool} {g : ℕ} {b s : Regex α} (hb : Passes p b) (rs : List (Regex α))
    {text : List α} {m : Match} (h : (concat (rs ++ [group g b, ahead false s])).Found text m) :
    ∀ a ∈ (text.drop (m.groupSpan g).1).take ((m.groupSpan g).2 - (m.groupSpan g).1), p a = true := by
  obtain ⟨d, d', hd, rfl, hspan⟩ := last_group_span rs h
  rw [hspan]
  exact hb.of_reach hd

end Regex

namespace Pattern

open Regex

variable {κ α : Type} {test : κ → α → Bool} {same : α → α → Bool}

/-- **A pattern that ends with `e`** is left behind `e`. -/
theorem reach_endsWith [DecidableEq κ] {e r : Pattern κ} (hr : endsWith e r = true) {c c' : Cursor α}
    (h : c' ∈ (r.compile test same).reach c) : ∃ d, c' ∈ (e.compile test same).reach d := by
  induction r generalizing c with
  | seq r s _ ihs =>
    obtain ⟨d, h1, h2⟩ := List.mem_flatMap.mp h
    rcases Bool.or_eq_true_iff.mp hr with hr | hr
    · obtain ⟨he, hempty⟩ := Bool.and_eq_true_iff.mp hr
      obtain rfl := beq_iff_eq.mp he
      obtain rfl := beq_iff_eq.mp hempty
      obtain rfl := List.mem_singleton.mp h2
      exact ⟨c, h1⟩
    · exact ihs hr h2
  | _ => cases hr

/-- **Only the groups of a pattern are closed** on its way. -/
theorem groups_of_reach (r : Pattern κ) : ∀ c, ∀ c' ∈ (r.compile test same).reach c,
    Closes (fun n => r.mentions n = true) c c' := by
  induction r with
  | empty =>
    intro c c' h
    rw [compile, reach, List.mem_singleton] at h
    subst h
    exact Closes.refl _ c'
  | set s =>
    intro c c' h
    obtain ⟨_, -, -, hgroups⟩ := mem_reach_cls h
    exact Closes.of_eq _ hgroups
  | seq r s ihr ihs =>
    intro c c' h
    obtain ⟨c'', h1, h2⟩ := List.mem_flatMap.mp h
    refine ((ihr c c'' h1).mono ?_).trans ((ihs c'' c' h2).mono ?_)
    · intro n hn
      simp only [mentions, hn, Bool.true_or]
    · intro n hn
      simp only [mentions, hn, Bool.or_true]
  | alt r s ihr ihs =>
    intro c c' h
    rcases List.mem_append.mp h with h | h
    · refine (ihr c c' h).mono ?_
      intro n hn
      simp only [mentions, hn, Bool.true_or]
    · refine (ihs c c' h).mono ?_
      intro n hn
      simp only [mentions, hn, Bool.or_true]
  | rep lazy min max r ih =>
    intro c c' h
    exact iterate_rel (Closes.refl _) Closes.trans ih _ _ c c' h
  | group n r ih =>
    intro c c' h
    obtain ⟨c'', h1, rfl⟩ := mem_reach_group h
    have hclosed : Closes (fun k => (group n r).mentions k = true) c c'' := by
      refine (ih c c'' h1).mono ?_
      intro k hk
      simp only [mentions, hk, Bool.or_true]
    refine hclosed.trans ⟨[(n, c.pos, c''.pos)], rfl, ?_⟩
    intro e he
    rw [List.mem_singleton.mp he]
    simp only [mentions, beq_self_eq_true, Bool.true_or]
  | ahead positive r ih =>
    intro c c' h
    rcases mem_reach_ahead h with rfl | ⟨c'', h1, rfl⟩
    · exact Closes.refl _ _
    · exact ih c c'' h1
  | behind positive word =>
    intro c c' h
    rw [mem_reach_lookback h]
    exact Closes.refl _ c
  | backref n =>
    intro c c' h
    exact Closes.of_eq _ (mem_reach_backref h).2

theorem reach_always {g : ℕ} (r : Pattern κ) : r.always g = true → ∀ c, ∀ c' ∈ (r.compile test same).reach c,
    ∃ e ∈ c'.groups, e.1 = g := by
  induction r with
  | empty | set | behind | backref | ahead => nofun
  | seq r s ihr ihs =>
    intro hr c c' h
    obtain ⟨c'', h1, h2⟩ := List.mem_flatMap.mp h
    rcases Bool.or_eq_true_iff.mp hr with hr | hr
    · obtain ⟨e, he, heg⟩ := ihr hr c c'' h1
      exact ⟨e, (groups_of_reach s c'' c' h2).keeps he, heg⟩
    · exact ihs hr c'' c' h2
  | alt r s ihr ihs =>
    intro hr c c' h
    obtain ⟨hr, hs⟩ := Bool.and_eq_true_iff.mp hr
    rcases List.mem_append.mp h with h | h
    · exact ihr hr c c' h
    · exact ihs hs c c' h
  | rep lazy min max r ih =>
    intro hr c c' h
    obtain ⟨hmin, hr⟩ := Bool.and_eq_true_iff.mp hr
    obtain ⟨k, rfl⟩ := Nat.exists_eq_succ_of_ne_zero (of_decide_eq_true hmin).ne'
    obtain ⟨c'', h1, h2⟩ := List.mem_flatMap.mp h
    obtain ⟨e, he, heg⟩ := ih hr c c'' h1
    have hclosed := iterate_rel (Closes.refl _) Closes.trans (groups_of_reach r) _ _ c'' c' h2
    exact ⟨e, hclosed.keeps he, heg⟩
  | group n r ih =>
    intro hr c c' h
    obtain ⟨c'', h1, rfl⟩ := mem_reach_group h
    rcases Bool.or_eq_true_iff.mp hr with hn | hr
    · exact ⟨_, List.mem_cons_self, beq_iff_eq.mp hn⟩
    · obtain ⟨e, he, heg⟩ := ih hr c c'' h1
      exact ⟨e, List.mem_cons_of_mem _ he, heg⟩

/-- **A group that every way passes takes part** in every match. -/
theorem group_of_always {g : ℕ} {r : Pattern κ} (hr : r.always g = true) {text : List α} {m : Match}
    (h : (r.compile test same).Found text m) : ∃ span, m.group g = some span := by
  obtain ⟨before, after, c, -, hc, rfl⟩ := h
  obtain ⟨e, he, heg⟩ := reach_always r hr _ c hc
  cases hfind : c.groups.find? (fun e => e.1 = g) with
  | some e' => exact ⟨e'.2, by rw [Match.group, hfind, Option.map_some]⟩
  | none => exact absurd heg (by simpa using List.find?_eq_none.mp hfind e he)

theorem reach_consume (r : Pattern κ) : ∀ c, ∀ c' ∈ (r.compile test same).reach c,
    ∃ c'' ∈ (r.consume.compile test same).reach c, c''.groups = c'.groups := by
  fun_induction consume r with
  | case1 r =>
    intro c c' h
    obtain ⟨c₁, h1, h2⟩ := List.mem_flatMap.mp h
    rw [compile, reach, List.mem_singleton] at h2
    subst h2
    unfold compile reach at h1
    split at h1
    · cases h1
    · rename_i c'' cs hr
      rw [if_pos rfl, List.mem_singleton] at h1
      subst h1
      exact ⟨c'', hr ▸ List.mem_cons_self, rfl⟩
  | case2 r s _ ih =>
    intro c c' h
    obtain ⟨c₁, h1, h2⟩ := List.mem_flatMap.mp h
    obtain ⟨c'', hc'', hgroups⟩ := ih c₁ c' h2
    exact ⟨c'', List.mem_flatMap.mpr ⟨c₁, h1, hc''⟩, hgroups⟩
  | case3 r _ _ =>
    intro c c' h
    exact ⟨c', h, rfl⟩

/-- **A look-ahead at the end** of a pattern has the same groups as part of the match. -/
theorem found_consume {r : Pattern κ} {text : List α} {m : Match} (h : (r.compile test same).Found text m) :
    ∃ m', (r.consume.compile test same).Found text m' ∧ m'.groups = m.groups := by
  obtain ⟨before, after, c, htext, hc, rfl⟩ := h
  obtain ⟨c', hc', hgroups⟩ := reach_consume r _ c hc
  exact ⟨_, ⟨before, after, c', htext, hc', rfl⟩, hgroups⟩

/-- **The symbols counted in the pattern** are passed by every way through its matcher. -/
theorem counts_least {q : κ → Bool} {p : α → Bool} (hq : ∀ s a, q s = true → test s a = true → p a = true)
    (r : Pattern κ) : Counts p (r.least q) (r.compile test same) := by
  induction r with
  | empty | behind | backref | ahead => exact Counts.zero p _
  | set s =>
    rw [least, compile]
    split_ifs with hs
    · exact Counts.cls (fun a ha => hq s a hs ha)
    · exact Counts.zero p _
  | seq r s ihr ihs => exact ihr.seq ihs
  | alt r s ihr ihs => exact (ihr.mono (min_le_left _ _)).alt (ihs.mono (min_le_right _ _))
  | rep lazy min max r ih => exact Counts.rep lazy min max ih
  | group n r ih => exact ih.group n

/-- A pattern that passes a symbol has no empty match. -/
theorem start_lt_stop {r : Pattern κ} (hr : 0 < r.least (fun _ => true)) {text : List α} {m : Match}
    (h : (r.compile test same).Found text m) : m.start < m.stop := by
  have hleast : Counts (fun _ => true) (r.least (fun _ => true)) (r.compile test same) :=
    counts_least (fun _ _ _ _ => rfl) r
  have hcount := hleast.of_found h
  have hlen : ((text.drop m.start).take (m.stop - m.start)).countP (fun _ => true) ≤ m.stop - m.start := by
    refine List.countP_le_length.trans ?_
    rw [List.length_take]
    exact Nat.min_le_left _ _
  omega

end Pattern
