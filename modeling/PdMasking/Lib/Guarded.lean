import PdMasking.Lib.Summary

/-!
# PdMasking.Lib.Guarded — runs of a kind between look-arounds

`guarded s X t` is a group behind no `s` and before no `t`.  When `t` is the kind of the symbols of a run and the
words of the group are either of that kind only or interrupted often enough, a match that touches the begin of a long
run is the whole run.

* `Kinds`: what is known of the symbols of a word.
* `span_of_segment`: a match that touches the begin of a long run is the run.
* `guarded_run`: the scan finds the run, whatever stands around it.
-/

deriving instance DecidableEq for Pattern

/-! ### The kinds of the symbols of a word -/

/-- What is known of a word: the kind of each symbol, that all are of the kind, or nothing. -/
inductive Kinds
  | exact (ks : List Bool)
  | full
  | unknown
  deriving DecidableEq

namespace Kinds

variable {α : Type}

def Holds (p : α → Bool) : Kinds → List α → Prop
  | exact ks, w => w.map p = ks
  | full, w => ∀ a ∈ w, p a = true
  | unknown, _ => True

/-- All symbols are of the kind. -/
def isFull : Kinds → Bool
  | exact ks => ks.all id
  | full => true
  | unknown => false

/-- What holds of words in which all symbols are of the kind. -/
def weaken (isFull : Bool) : Kinds := if isFull then full else unknown

def add : Kinds → Kinds → Kinds
  | exact ks, exact ks' => exact (ks ++ ks')
  | d, e => weaken (d.isFull && e.isFull)

def meet (d e : Kinds) : Kinds := if d = e then d else weaken (d.isFull && e.isFull)

/-- All symbols are of the kind, or no `n` in a row. -/
def broken (n : ℕ) : Kinds → Bool
  | exact ks => ks.all id || !decide (List.replicate n true <:+: ks)
  | full => true
  | unknown => false

section Holds

variable {p : α → Bool} {d e : Kinds} {u v w : List α}

theorem holds_isFull (hd : d.isFull = true) (h : d.Holds p w) : ∀ a ∈ w, p a = true := by
  cases d with
  | exact ks =>
    intro a ha
    obtain rfl : w.map p = ks := h
    exact List.all_eq_true.mp hd (p a) (List.mem_map_of_mem ha)
  | full => exact h
  | unknown => cases hd

theorem holds_weaken {b : Bool} (h : b = true → ∀ a ∈ w, p a = true) : (weaken b).Holds p w := by
  cases b with
  | true => exact h rfl
  | false => exact trivial

theorem holds_add (hu : d.Holds p u) (hv : e.Holds p v) : (d.add e).Holds p (u ++ v) := by
  have hweak : (weaken (d.isFull && e.isFull)).Holds p (u ++ v) := by
    refine holds_weaken ?_
    intro hfull a ha
    obtain ⟨hd, he⟩ := Bool.and_eq_true_iff.mp hfull
    rcases List.mem_append.mp ha with ha | ha
    · exact holds_isFull hd hu a ha
    · exact holds_isFull he hv a ha
  cases d with
  | exact ks =>
    cases e with
    | exact ks' =>
      obtain rfl : u.map p = ks := hu
      obtain rfl : v.map p = ks' := hv
      exact List.map_append
    | full => exact hweak
    | unknown => exact hweak
  | full => exact hweak
  | unknown => exact hweak

theorem holds_meet (h : d.Holds p w ∨ e.Holds p w) : (d.meet e).Holds p w := by
  unfold meet
  split_ifs with heq
  · subst heq
    exact h.elim id id
  · refine holds_weaken ?_
    intro hfull
    obtain ⟨hd, he⟩ := Bool.and_eq_true_iff.mp hfull
    exact h.elim (holds_isFull hd) (holds_isFull he)

/-- **A word with a long run in it** is a run. -/
theorem full_of_broken {n : ℕ} (hd : d.broken n = true) (h : d.Holds p (u ++ v ++ w)) (hv : ∀ a ∈ v, p a = true)
    (hn : n ≤ v.length) : ∀ a ∈ u ++ v ++ w, p a = true := by
  cases d with
  | exact ks =>
    rcases Bool.or_eq_true_iff.mp hd with hfull | hbroken
    · exact holds_isFull (d := exact ks) hfull h
    · -- the run shows in the kinds
      obtain rfl : (u ++ v ++ w).map p = ks := h
      have hrun : v.map p = List.replicate v.length true :=
        List.eq_replicate_iff.mpr ⟨List.length_map _, fun b hb => by
          obtain ⟨a, ha, rfl⟩ := List.mem_map.mp hb
          exact hv a ha⟩
      have hin : List.replicate n true <:+: (u ++ v ++ w).map p := by
        have hshort : List.replicate n true <+: v.map p := by
          rw [hrun, ← Nat.add_sub_cancel' hn, List.replicate_add]
          exact List.prefix_append _ _
        refine hshort.isInfix.trans ⟨u.map p, w.map p, ?_⟩
        rw [List.map_append, List.map_append]
      rw [Bool.not_eq_true', decide_eq_false_iff_not] at hbroken
      exact absurd hin hbroken
  | full => exact h
  | unknown => cases hd

end Holds

end Kinds

namespace Summary

variable {κ α : Type} {test : κ → α → Bool} {p : α → Bool}

/-- The kinds of the symbols of a word; `kind s` is the kind of the symbols of a class. -/
def kinds (kind : κ → Option Bool) : Summary κ Kinds where
  ofSet s := (kind s).map (fun b => .exact [b])
  zero := .exact []
  add := Kinds.add
  meet := Kinds.meet
  many d := .weaken d.isFull

theorem kinds_sound {kind : κ → Option Bool} (hkind : ∀ s a b, kind s = some b → test s a = true → p a = b) :
    (kinds kind).Sound test (Kinds.Holds p) where
  set := by
    intro s d a hd ha
    obtain ⟨b, hb, rfl⟩ := Option.map_eq_some_iff.mp hd
    show [a].map p = [b]
    rw [List.map_singleton, hkind s a b hb ha]
  zero := List.map_nil
  add := Kinds.holds_add
  meet_left := fun h => Kinds.holds_meet (Or.inl h)
  meet_right := fun h => Kinds.holds_meet (Or.inr h)
  many_nil := fun _ => Kinds.holds_weaken (fun _ _ ha => absurd ha List.not_mem_nil)
  many_one := fun h => Kinds.holds_weaken (fun hd => Kinds.holds_isFull hd h)
  many_append := by
    intro d u v hu hv
    refine Kinds.holds_weaken ?_
    intro hd a ha
    have hweak : (Kinds.weaken d.isFull).isFull = true := by
      rw [hd]
      rfl
    rcases List.mem_append.mp ha with ha | ha
    · exact Kinds.holds_isFull hweak hu a ha
    · exact Kinds.holds_isFull hweak hv a ha

end Summary

namespace Pattern

open Regex Summary

variable {κ α : Type}

/-- A group, no `s` before it and no `t` behind it. -/
def guarded (s : κ) (X : Pattern κ) (t : κ) : Pattern κ :=
  .seq (.seq (.behind false [s]) .empty) (.seq (.group 1 X) (.seq (.ahead false (.seq (.set t) .empty)) .empty))

section Guarded

variable {test : κ → α → Bool} {same : α → α → Bool} {s t : κ} {X : Pattern κ} {c c' : Cursor α}

theorem mem_reach_not_lookback {q : α → Bool} :
    c' ∈ (Regex.lookback false [q]).reach c ↔ (∀ a ∈ c.before.head?, q a = false) ∧ c' = c := by
  obtain ⟨before, after, groups⟩ := c
  cases before with
  | nil => simp [reach, agrees]
  | cons a before => cases ha : q a <;> simp [reach, agrees, ha]

theorem mem_reach_not_ahead {q : α → Bool} :
    c' ∈ (Regex.ahead false ((cls q).seq eps)).reach c ↔ (∀ a ∈ c.after.head?, q a = false) ∧ c' = c := by
  obtain ⟨before, after, groups⟩ := c
  cases after with
  | nil => simp [reach]
  | cons a after => cases ha : q a <;> simp [reach, ha]

/-- The ways through a guarded group. -/
theorem mem_reach_guarded : c' ∈ ((guarded s X t).compile test same).reach c ↔
    (∀ a ∈ c.before.head?, test s a = false) ∧ ∃ c'' ∈ (X.compile test same).reach c,
      (∀ a ∈ c''.after.head?, test t a = false) ∧
        c' = ⟨c''.before, c''.after, (1, c.pos, c''.pos) :: c''.groups⟩ := by
  have hseq : ∀ (r r' : Regex α) (d e : Cursor α), e ∈ (r.seq r').reach d ↔ ∃ d' ∈ r.reach d, e ∈ r'.reach d' :=
    fun _ _ _ _ => List.mem_flatMap
  have heps : ∀ d : Cursor α, eps.reach d = [d] := fun _ => rfl
  have hgroup : ∀ d : Cursor α, (Regex.group 1 (X.compile test same)).reach d =
      ((X.compile test same).reach d).map (fun d' => ⟨d'.before, d'.after, (1, d.pos, d'.pos) :: d'.groups⟩) :=
    fun _ => rfl
  simp only [guarded, compile, hseq, heps, hgroup, List.mem_map, List.mem_singleton,
    List.reverse_singleton, List.map_cons, List.map_nil, mem_reach_not_lookback, mem_reach_not_ahead]
  constructor
  · rintro ⟨c₁, ⟨_, ⟨hbefore, rfl⟩, rfl⟩, _, ⟨c'', hc'', rfl⟩, _, ⟨hafter, rfl⟩, rfl⟩
    exact ⟨hbefore, c'', hc'', hafter, rfl⟩
  · rintro ⟨hbefore, c'', hc'', hafter, rfl⟩
    exact ⟨c, ⟨c, ⟨hbefore, rfl⟩, rfl⟩, _, ⟨c'', hc'', rfl⟩, _, ⟨hafter, rfl⟩, rfl⟩

/-! ### Runs -/

variable {kind : κ → Option Bool} {p : α → Bool} {n : ℕ} {pre w post : List α} {m : Match}

/-- What a segment over a run is made of. -/
theorem cut_around {x y : ℕ} (hx : x ≤ pre.length) (hy : pre.length + w.length ≤ y) :
    ((pre ++ w ++ post).drop x).take (y - x) = pre.drop x ++ w ++ post.take (y - (pre.length + w.length)) := by
  have hdrop : (pre ++ w ++ post).drop x = pre.drop x ++ w ++ post := by
    rw [List.append_assoc, List.drop_append_of_le_length hx, ← List.append_assoc]
  have hlen : (pre.drop x ++ w).length = pre.length - x + w.length := by
    rw [List.length_append, List.length_drop]
  rw [hdrop, List.take_append, List.take_of_length_le (by omega), hlen]
  congr 2
  omega

/-- **A match over a long run** is the run, when there are no symbols of the kind around it. -/
theorem span_of_segment (hseg : Segment (Kinds.Holds p) (Kinds.broken n) (pre ++ w ++ post) m.start m.stop)
    (hstart : m.start ≤ pre.length) (hstop : pre.length + w.length ≤ m.stop) (hw : ∀ a ∈ w, p a = true)
    (hn : n ≤ w.length) (hpre : ∀ a ∈ pre.getLast?, p a = false) (hpost : ∀ a ∈ post.head?, p a = false) :
    m.span = (pre.length, pre.length + w.length) := by
  obtain ⟨-, hlen, d, hd, hword⟩ := hseg
  rw [cut_around hstart hstop] at hword
  have hfull := Kinds.full_of_broken hd hword hw hn
  have hbegin : ¬ m.start < pre.length := by
    intro hlt
    obtain ⟨init, last, rfl⟩ : ∃ init last, pre = init ++ [last] := by
      rcases pre.eq_nil_or_concat with rfl | ⟨init, last, rfl⟩
      · simp at hlt
      · exact ⟨init, last, List.concat_eq_append⟩
    have hlast : p last = true := by
      refine hfull last ?_
      rw [List.length_append, List.length_singleton] at hlt
      rw [List.drop_append_of_le_length (by omega)]
      simp
    rw [hpre last (by simp)] at hlast
    cases hlast
  have hend : ¬ pre.length + w.length < m.stop := by
    intro hlt
    cases post with
    | nil =>
      simp only [List.append_nil, List.length_append] at hlen
      omega
    | cons a post =>
      have hfirst : p a = true := by
        refine hfull a ?_
        obtain ⟨k, hk⟩ : ∃ k, m.stop - (pre.length + w.length) = k + 1 := ⟨_, (Nat.succ_pred (by omega)).symm⟩
        rw [hk, List.take_succ_cons]
        simp
      rw [hpost a rfl] at hfirst
      cases hfirst
  rw [Match.span, Prod.mk.injEq]
  omega

/-- A match stops before no `t`, and its group is the match. -/
theorem found_guarded {text : List α} (h : ((guarded s X t).compile test same).Found text m) :
    (∀ a ∈ text[m.stop]?, test t a = false) ∧ m.groupSpan 1 = m.span := by
  obtain ⟨before, after, c', rfl, hc', rfl⟩ := h
  obtain ⟨-, c, hc, hafter, rfl⟩ := mem_reach_guarded.mp hc'
  have htext : before.reverse ++ after = c.before.reverse ++ c.after := ((reach_advance _ _ c hc).text_eq).symm
  refine ⟨?_, rfl⟩
  intro a ha
  refine hafter a ?_
  have hat : (c.before.reverse ++ c.after)[c.before.length]? = some a := htext ▸ ha
  rwa [List.getElem?_append_right (by simp), List.length_reverse, Nat.sub_self, ← List.head?_eq_getElem?] at hat

/-- **The scan finds every long run** that the group may consist of: a match that goes on at its begin is the run. -/
theorem guarded_run (hkind : ∀ s a b, kind s = some b → test s a = true → p a = b)
    (hall : (kinds kind).spanAll (Kinds.broken n) (guarded s X t) = true) (ht : ∀ a, test t a = p a)
    (hs : ∀ a, p a = true → test s a = true) (hw : ∀ a ∈ w, p a = true) (hn : n ≤ w.length)
    (hpre : ∀ a ∈ pre.getLast?, test s a = false) (hpost : ∀ a ∈ post.head?, p a = false)
    (hX : ∃ c ∈ (X.compile test same).reach ⟨pre.reverse, w ++ post, []⟩, c.after = post) :
    ∃ m ∈ ((guarded s X t).compile test same).finditer (pre ++ w ++ post),
      m.span = (pre.length, pre.length + w.length) ∧ m.groupSpan 1 = m.span := by
  have hpre' : ∀ a ∈ pre.getLast?, p a = false := by
    intro a ha
    rw [← Bool.not_eq_true]
    intro hp
    exact Bool.false_ne_true ((hpre a ha).symm.trans (hs a hp))
  -- no match starts before the run and goes on in it
  have hspan : ∀ m, ((guarded s X t).compile test same).Found (pre ++ w ++ post) m → m.start ≤ pre.length →
      pre.length ≤ m.stop → m.span = (pre.length, pre.length + w.length) := by
    intro m hm hstart hstop
    have hseg := span_segment (kinds_sound hkind) hall hm
    refine span_of_segment hseg hstart ?_ hw hn hpre' hpost
    by_contra hlt
    obtain ⟨a, ha⟩ : ∃ a, (pre ++ w ++ post)[m.stop]? = some a ∧ p a = true := by
      have hinside : m.stop - pre.length < w.length := by omega
      refine ⟨w[m.stop - pre.length], ?_, hw _ (List.getElem_mem _)⟩
      rw [List.append_assoc, List.getElem?_append_right hstop, List.getElem?_append_left (by omega)]
      exact List.getElem?_eq_getElem _
    have hno := (found_guarded hm).1 a ha.1
    rw [ht, ha.2] at hno
    cases hno
  obtain ⟨c, hc, hafter⟩ := hX
  obtain ⟨c', cs, hreach⟩ : ∃ c' cs,
      ((guarded s X t).compile test same).reach ⟨pre.reverse ++ [], w ++ post, []⟩ = c' :: cs := by
    refine List.exists_cons_of_ne_nil (List.ne_nil_of_mem (mem_reach_guarded.mpr ⟨?_, c, ?_, ?_, rfl⟩))
    · rw [List.append_nil, List.head?_reverse]
      exact hpre
    · rw [List.append_nil]
      exact hc
    · intro a ha
      rw [ht]
      exact hpost a (hafter ▸ ha)
  have hmem := scan_at pre 0 [] (w ++ post) (Nat.zero_le _) hreach ?_
  · rw [← List.append_assoc, List.length_nil, Nat.zero_add] at hmem
    have hfound := finditer_found hmem
    have hle : pre.length ≤ c'.pos := (finditer_within _ _ _ hmem).1
    exact ⟨_, hmem, hspan _ hfound le_rfl hle, (found_guarded hfound).2⟩
  · intro m hm hstart
    rw [← List.append_assoc] at hm
    rw [List.length_nil, Nat.zero_add] at hstart ⊢
    by_contra hlt
    have heq := hspan m (finditer_found hm) hstart.le (not_le.mp hlt).le
    rw [Match.span, Prod.mk.injEq] at heq
    omega

end Guarded

end Pattern
