import PdMasking.Lib.Pattern

/-!
# PdMasking.Lib.Only — patterns whose classes hold symbols of a kind

`Pattern.only q` looks at the classes on the ways through a pattern.  When they hold symbols of a kind only, so do the
matches: what a back reference repeats is a group that was closed on the way.

* `reach_only`: what is passed, and what the groups hold.
* `found_only`: the same of a match and its groups.
-/

namespace Regex

variable {α : Type} {p : α → Bool}

/-- The groups closed so far consist of symbols of the kind. -/
def Clean (p : α → Bool) (c : Cursor α) : Prop :=
  ∀ g ∈ c.groups, ∀ a ∈ (c.text.drop g.2.1).take (g.2.2 - g.2.1), p a = true

/-- From a clean cursor to a clean one over symbols of the kind. -/
def Cleanly (p : α → Bool) (c c' : Cursor α) : Prop :=
  Clean p c → Clean p c' ∧ ∃ w, c.Spells w c' ∧ ∀ a ∈ w, p a = true

namespace Cleanly

theorem refl (c : Cursor α) : Cleanly p c c := fun h => ⟨h, [], ⟨rfl, rfl⟩, nofun⟩

theorem trans {c c' c'' : Cursor α} (h : Cleanly p c c') (h' : Cleanly p c' c'') : Cleanly p c c'' := by
  intro hc
  obtain ⟨hc', hw⟩ := h hc
  obtain ⟨hc'', hw'⟩ := h' hc'
  exact ⟨hc'', Passes.append hw hw'⟩

/-- No group is closed on the way. -/
theorem of_spells {c c' : Cursor α} {w : List α} (hw : c.Spells w c') (hp : ∀ a ∈ w, p a = true)
    (hgroups : c'.groups = c.groups) : Cleanly p c c' := by
  intro hc
  refine ⟨?_, w, hw, hp⟩
  intro g hg
  rw [hw.text_eq]
  exact hc g (hgroups ▸ hg)

/-- The word of a group is clean, so the group is. -/
theorem group {n : ℕ} {c c' : Cursor α} (h : Cleanly p c c') :
    Cleanly p c ⟨c'.before, c'.after, (n, c.pos, c'.pos) :: c'.groups⟩ := by
  intro hc
  obtain ⟨hc', w, hw, hp⟩ := h hc
  refine ⟨?_, w, ⟨hw.before_eq, hw.after_eq⟩, hp⟩
  intro g hg
  rcases List.mem_cons.mp hg with rfl | hg
  · show ∀ a ∈ (c'.text.drop c.pos).take (c'.pos - c.pos), p a = true
    rw [hw.text_eq, hw.slice]
    exact hp
  · exact hc' g hg

end Cleanly

/-- What is read for a clean word is clean. -/
theorem eat_clean {same : α → α → Bool} (hsame : ∀ a b, same a b = true → p a = true → p b = true) (w : List α)
    (c : Cursor α) (hw : ∀ a ∈ w, p a = true) : ∀ c' ∈ eat same w c, ∃ v, c.Spells v c' ∧ ∀ b ∈ v, p b = true := by
  induction w generalizing c with
  | nil =>
    intro c' h
    rw [eat, List.mem_singleton] at h
    subst h
    exact ⟨[], Cursor.Spells.nil c' c'.groups, List.forall_mem_nil _⟩
  | cons a w ih =>
    intro c' h
    obtain ⟨ha, hrest⟩ := List.forall_mem_cons.mp hw
    obtain ⟨before, after, groups⟩ := c
    cases after with
    | nil =>
      rw [eat] at h
      cases h
    | cons b t =>
      rw [eat] at h
      dsimp only at h
      split_ifs at h with hab
      · have hb : Cursor.Spells ⟨before, b :: t, groups⟩ [b] ⟨b :: before, t, groups⟩ := ⟨rfl, rfl⟩
        refine Passes.append ⟨[b], hb, ?_⟩ (ih _ hrest c' h)
        intro d hd
        rw [List.mem_singleton.mp hd]
        exact hsame a b hab ha
      · cases h

/-- What a back reference repeats is clean. -/
theorem cleanly_backref {same : α → α → Bool} (hsame : ∀ a b, same a b = true → p a = true → p b = true) {n : ℕ}
    {c c' : Cursor α} (h : c' ∈ (backref same n).reach c) : Cleanly p c c' := by
  intro hc
  have hgroups := (mem_reach_backref h).2
  unfold reach at h
  split at h
  · cases h
  · rename_i g hg
    obtain ⟨v, hv, hp⟩ := eat_clean hsame _ c (hc g (List.mem_of_find?_eq_some hg)) c' h
    exact Cleanly.of_spells hv hp hgroups hc

end Regex

namespace Pattern

open Regex

variable {κ α : Type} {test : κ → α → Bool} {same : α → α → Bool}

/-- All classes on the ways through the pattern satisfy `q`. -/
def only (q : κ → Bool) : Pattern κ → Bool
  | empty | behind _ _ | backref _ => true
  | set s => q s
  | seq r s | alt r s => r.only q && s.only q
  | rep _ _ _ r | group _ r => r.only q
  | ahead positive r => !positive || r.only q

/-- **A pattern of such classes** passes symbols of the kind only, also where it repeats a group. -/
theorem reach_only {q : κ → Bool} {p : α → Bool} (hq : ∀ s a, q s = true → test s a = true → p a = true)
    (hsame : ∀ a b, same a b = true → p a = true → p b = true) {r : Pattern κ} (hr : r.only q = true) :
    ∀ c, ∀ c' ∈ (r.compile test same).reach c, Cleanly p c c' := by
  induction r with
  | empty =>
    intro c c' h
    obtain rfl := List.mem_singleton.mp h
    exact Cleanly.refl c'
  | set s =>
    intro c c' h
    obtain ⟨a, ha, hspell, hgroups⟩ := mem_reach_cls h
    refine Cleanly.of_spells hspell ?_ hgroups
    intro b hb
    rw [List.mem_singleton.mp hb]
    exact hq s a hr ha
  | seq r s ihr ihs =>
    obtain ⟨hr, hs⟩ := Bool.and_eq_true_iff.mp hr
    intro c c' h
    obtain ⟨c'', h1, h2⟩ := List.mem_flatMap.mp h
    exact (ihr hr c c'' h1).trans (ihs hs c'' c' h2)
  | alt r s ihr ihs =>
    obtain ⟨hr, hs⟩ := Bool.and_eq_true_iff.mp hr
    intro c c' h
    rcases List.mem_append.mp h with h | h
    · exact ihr hr c c' h
    · exact ihs hs c c' h
  | rep lazy min max r ih =>
    intro c c' h
    exact iterate_rel Cleanly.refl Cleanly.trans (ih hr) _ _ c c' h
  | group n r ih =>
    intro c c' h
    obtain ⟨c'', h1, rfl⟩ := mem_reach_group h
    exact (ih hr c c'' h1).group
  | ahead positive r ih =>
    intro c c' h
    cases positive with
    | false =>
      obtain rfl := eq_of_reach_not_ahead h
      exact Cleanly.refl c'
    | true =>
      rcases mem_reach_ahead h with rfl | ⟨c'', h1, rfl⟩
      · exact Cleanly.refl c'
      · intro hc
        obtain ⟨hc'', w, hw, -⟩ := ih hr c c'' h1 hc
        refine ⟨?_, [], ⟨rfl, rfl⟩, nofun⟩
        intro g hg
        have hclean := hc'' g hg
        rwa [hw.text_eq] at hclean
  | behind positive word =>
    intro c c' h
    obtain rfl := mem_reach_lookback h
    exact Cleanly.refl c'
  | backref n =>
    intro c c' h
    exact cleanly_backref hsame h

/-- So its matches and their groups are made of these symbols. -/
theorem found_only {q : κ → Bool} {p : α → Bool} (hq : ∀ s a, q s = true → test s a = true → p a = true)
    (hsame : ∀ a b, same a b = true → p a = true → p b = true) {r : Pattern κ} (hr : r.only q = true)
    {text : List α} {m : Match} (h : (r.compile test same).Found text m) :
    (∀ a ∈ (text.drop m.start).take (m.stop - m.start), p a = true) ∧
      ∀ g, ∀ a ∈ (text.drop (m.groupSpan g).1).take ((m.groupSpan g).2 - (m.groupSpan g).1), p a = true := by
  obtain ⟨before, after, c, rfl, hc, rfl⟩ := h
  obtain ⟨hclean, w, hw, hp⟩ := reach_only hq hsame hr _ c hc nofun
  have hspan : ∀ a ∈ ((before.reverse ++ after).drop before.length).take (c.pos - before.length), p a = true := by
    have hslice : ((before.reverse ++ after).drop before.length).take (c.pos - before.length) = w := hw.slice
    rw [hslice]
    exact hp
  refine ⟨hspan, ?_⟩
  intro g
  unfold Match.groupSpan Match.group
  cases hg : c.groups.find? (fun e => e.1 = g) with
  | none => exact hspan
  | some e =>
    have hgroup := hclean e (List.mem_of_find?_eq_some hg)
    rw [hw.text_eq] at hgroup
    exact hgroup

end Pattern
