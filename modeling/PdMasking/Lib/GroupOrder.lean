import PdMasking.Lib.Pattern

/-!
# PdMasking.Lib.GroupOrder — groups that follow each other

`Pattern.before g h` says of a pattern that group `g` stands before group `h` wherever both take part.

* `group_before`: then the span of `g` in a match ends where the span of `h` starts, or before.
* `start_of_opens`: a group at the beginning of a pattern starts with the match.
-/

namespace Pattern

open Regex

variable {κ α : Type}

/-- Group `g` stands before group `h`, neither in a repetition with it nor in a look-ahead. -/
def before (g h : ℕ) : Pattern κ → Bool
  | empty | set _ | behind _ _ | backref _ => true
  | seq r s => r.before g h && s.before g h && !(r.mentions h && s.mentions g)
  | alt r s => r.before g h && s.before g h
  | rep _ _ _ r => r.before g h && !(r.mentions g && r.mentions h)
  | group n r => r.before g h && !(n == g && (n == h || r.mentions h)) && !(n == h && r.mentions g)
  | ahead _ r => r.before g h && !r.mentions g

/-- The groups closed between two cursors have numbers in `ns` and begin behind the first cursor; those with number
`g` end before the second one and before those with number `h`. -/
def InOrder (g h : ℕ) (ns : ℕ → Prop) (c c' : Cursor α) : Prop :=
  c.pos ≤ c'.pos ∧ ∃ closed, c'.groups = closed ++ c.groups ∧
    (∀ e ∈ closed, ns e.1 ∧ c.pos ≤ e.2.1 ∧ (e.1 = g → e.2.2 ≤ c'.pos)) ∧
    ∀ e ∈ closed, e.1 = g → ∀ e' ∈ closed, e'.1 = h → e.2.2 ≤ e'.2.1

namespace InOrder

variable {g h : ℕ} {ns ns' : ℕ → Prop} {c c' c'' : Cursor α}

theorem of_eq (hpos : c.pos ≤ c'.pos) (heq : c'.groups = c.groups) : InOrder g h ns c c' :=
  ⟨hpos, [], heq, by simp, by simp⟩

theorem mono (hns : ∀ n, ns n → ns' n) (hc : InOrder g h ns c c') : InOrder g h ns' c c' := by
  obtain ⟨hpos, closed, heq, hall, horder⟩ := hc
  refine ⟨hpos, closed, heq, ?_, horder⟩
  intro e he
  obtain ⟨h1, h2⟩ := hall e he
  exact ⟨hns e.1 h1, h2⟩

/-- One way behind another, when `h` is not closed on the first or `g` not on the second. -/
theorem trans (hc : InOrder g h ns c c'') (hc' : InOrder g h ns' c'' c') (hno : ¬ (ns h ∧ ns' g)) :
    InOrder g h (fun n => ns n ∨ ns' n) c c' := by
  obtain ⟨hpos, closed, heq, hall, horder⟩ := hc
  obtain ⟨hpos', closed', heq', hall', horder'⟩ := hc'
  refine ⟨hpos.trans hpos', closed' ++ closed, by rw [heq', heq, List.append_assoc], ?_, ?_⟩
  · intro e he
    rcases List.mem_append.mp he with he | he
    · obtain ⟨h1, h2, h3⟩ := hall' e he
      exact ⟨Or.inr h1, hpos.trans h2, h3⟩
    · obtain ⟨h1, h2, h3⟩ := hall e he
      exact ⟨Or.inl h1, h2, fun hg => (h3 hg).trans hpos'⟩
  · intro e he hg e' he' hh
    rcases List.mem_append.mp he with he | he
    · rcases List.mem_append.mp he' with he' | he'
      · exact horder' e he hg e' he' hh
      · exact absurd ⟨hh ▸ (hall e' he').1, hg ▸ (hall' e he).1⟩ hno
    · rcases List.mem_append.mp he' with he' | he'
      · exact ((hall e he).2.2 hg).trans (hall' e' he').2.1
      · exact horder e he hg e' he' hh

end InOrder

variable {test : κ → α → Bool} {same : α → α → Bool} {g h : ℕ}

/-- A pattern without groups closes none. -/
theorem inOrder_of_none {r : Pattern κ} (hr : ∀ n, r.mentions n = false) {c c' : Cursor α}
    (hc : c' ∈ (r.compile test same).reach c) : InOrder g h (fun n => r.mentions n = true) c c' := by
  obtain ⟨closed, heq, hall⟩ := groups_of_reach r c c' hc
  have hnil : closed = [] := by
    refine List.eq_nil_iff_forall_not_mem.mpr ?_
    intro e he
    have hmentions : r.mentions e.1 = true := hall e he
    rw [hr e.1] at hmentions
    cases hmentions
  exact InOrder.of_eq (reach_advance _ c c' hc).pos_le (by rw [heq, hnil, List.nil_append])

/-- **The groups of a pattern are in order** on every way through it. -/
theorem inOrder_of_reach (r : Pattern κ) : r.before g h = true → ∀ c, ∀ c' ∈ (r.compile test same).reach c,
    InOrder g h (fun n => r.mentions n = true) c c' := by
  induction r with
  | empty | set | behind | backref => exact fun _ _ _ hc => inOrder_of_none (fun _ => rfl) hc
  | seq r s ihr ihs =>
    intro hr c c' hc
    simp only [before, Bool.and_eq_true, Bool.not_eq_true', Bool.and_eq_false_iff] at hr
    obtain ⟨⟨hr, hs⟩, hno⟩ := hr
    obtain ⟨c'', h1, h2⟩ := List.mem_flatMap.mp hc
    refine ((ihr hr c c'' h1).trans (ihs hs c'' c' h2) ?_).mono ?_
    · rintro ⟨hh, hg⟩
      rcases hno with hno | hno
      · rw [hno] at hh
        cases hh
      · rw [hno] at hg
        cases hg
    · intro n hn
      rw [mentions, Bool.or_eq_true]
      exact hn
  | alt r s ihr ihs =>
    intro hr c c' hc
    obtain ⟨hr, hs⟩ := Bool.and_eq_true_iff.mp hr
    rcases List.mem_append.mp hc with hc | hc
    · exact (ihr hr c c' hc).mono (fun n hn => by rw [mentions, hn, Bool.true_or])
    · exact (ihs hs c c' hc).mono (fun n hn => by rw [mentions, hn, Bool.or_true])
  | rep lazy min max r ih =>
    intro hr c c' hc
    simp only [before, Bool.and_eq_true, Bool.not_eq_true', Bool.and_eq_false_iff] at hr
    obtain ⟨hr, hno⟩ := hr
    refine iterate_rel (P := InOrder g h (fun n => r.mentions n = true)) ?_ ?_ (ih hr) _ _ c c' hc
    · exact fun c => InOrder.of_eq le_rfl rfl
    · intro c c' c'' h1 h2
      refine (h1.trans h2 ?_).mono (fun n hn => hn.elim id id)
      rintro ⟨hh, hg⟩
      rcases hno with hno | hno
      · rw [hno] at hg
        cases hg
      · rw [hno] at hh
        cases hh
  | group n r ih =>
    intro hr c c' hc
    simp only [before, Bool.and_eq_true, Bool.not_eq_true', Bool.and_eq_false_iff, Bool.or_eq_false_iff,
      beq_eq_false_iff_ne] at hr
    obtain ⟨⟨hr, hg⟩, hh⟩ := hr
    obtain ⟨c'', h1, rfl⟩ := mem_reach_group hc
    obtain ⟨hpos, closed, heq, hall, horder⟩ := ih hr c c'' h1
    have hmentions : ∀ e ∈ closed, r.mentions e.1 = true := fun e he => (hall e he).1
    refine ⟨hpos, (n, c.pos, c''.pos) :: closed, by rw [heq, List.cons_append], ?_, ?_⟩
    · intro e he
      rcases List.mem_cons.mp he with rfl | he
      · exact ⟨by simp [mentions], le_rfl, fun _ => le_rfl⟩
      · obtain ⟨h2, h3⟩ := hall e he
        exact ⟨by simp [mentions, h2], h3⟩
    · intro e he heg e' he' heh
      rcases List.mem_cons.mp he with rfl | he
      · -- the group itself is `g`
        rcases List.mem_cons.mp he' with rfl | he'
        · rcases hg with hg | hg
          · exact absurd heg hg
          · exact absurd heh hg.1
        · have hin := hmentions e' he'
          rcases hg with hg | hg
          · exact absurd heg hg
          · rw [heh, hg.2] at hin
            cases hin
      · rcases List.mem_cons.mp he' with rfl | he'
        · have hin := hmentions e he
          rcases hh with hh | hh
          · exact absurd heh hh
          · rw [heg, hh] at hin
            cases hin
        · exact horder e he heg e' he' heh
  | ahead positive r ih =>
    intro hr c c' hc
    simp only [before, Bool.and_eq_true, Bool.not_eq_true'] at hr
    obtain ⟨hr, hno⟩ := hr
    rcases mem_reach_ahead hc with rfl | ⟨c'', h1, rfl⟩
    · exact InOrder.of_eq le_rfl rfl
    · obtain ⟨-, closed, heq, hall, horder⟩ := ih hr c c'' h1
      refine ⟨le_rfl, closed, heq, ?_, horder⟩
      intro e he
      obtain ⟨h2, h3, -⟩ := hall e he
      refine ⟨h2, h3, ?_⟩
      intro hg
      rw [hg, hno] at h2
      cases h2

/-- **A group ends before the one behind it starts.** -/
theorem group_before {r : Pattern κ} (hr : r.before g h = true) {text : List α} {m : Match}
    (hm : (r.compile test same).Found text m) {p q : ℕ × ℕ} (hp : m.group g = some p) (hq : m.group h = some q) :
    p.2 ≤ q.1 := by
  obtain ⟨start, rest, c, -, hc, rfl⟩ := hm
  obtain ⟨-, closed, heq, -, horder⟩ := inOrder_of_reach r hr _ c hc
  obtain ⟨e, he, rfl⟩ := Option.map_eq_some_iff.mp hp
  obtain ⟨e', he', rfl⟩ := Option.map_eq_some_iff.mp hq
  have hmem : ∀ {k : ℕ} {e : ℕ × ℕ × ℕ}, c.groups.find? (fun e => e.1 = k) = some e → e ∈ closed ∧ e.1 = k := by
    intro k e he
    refine ⟨?_, by simpa using List.find?_some he⟩
    have hin := List.mem_of_find?_eq_some he
    rwa [heq, List.append_nil] at hin
  exact horder e (hmem he).1 (hmem he).2 e' (hmem he').1 (hmem he').2

/-- The pattern begins with group `g`, which stands nowhere else. -/
def opens (g : ℕ) : Pattern κ → Bool
  | seq (group n _) s => n == g && !s.mentions g
  | _ => false

/-- **A group at the beginning** starts with the match. -/
theorem start_of_opens {r : Pattern κ} (hr : r.opens g = true) {text : List α} {m : Match}
    (hm : (r.compile test same).Found text m) : (m.groupSpan g).1 = m.start := by
  unfold opens at hr
  split at hr
  · rename_i n r s
    obtain ⟨hn, hs⟩ := Bool.and_eq_true_iff.mp hr
    obtain rfl := beq_iff_eq.mp hn
    obtain ⟨start, rest, c, -, hc, rfl⟩ := hm
    obtain ⟨c₁, h1, h2⟩ := List.mem_flatMap.mp hc
    obtain ⟨c₂, -, rfl⟩ := mem_reach_group h1
    obtain ⟨closed, heq, hall⟩ := groups_of_reach s _ c h2
    -- what is closed behind the group has other numbers
    have hfind : closed.find? (fun e => e.1 = n) = none := by
      refine List.find?_eq_none.mpr ?_
      intro e he hen
      have hmentions : s.mentions e.1 = true := hall e he
      rw [of_decide_eq_true hen] at hmentions
      rw [hmentions] at hs
      cases hs
    have hgroup : c.groups.find? (fun e => e.1 = n) = some (n, start.length, c₂.pos) := by
      rw [heq, List.find?_append, hfind, Option.none_or]
      exact List.find?_cons_of_pos (decide_eq_true rfl)
    simp only [Match.groupSpan, Match.group, hgroup, Option.map_some, Option.getD_some]
  · cases hr

end Pattern
