import PdMasking.Lib.Pattern
import Mathlib.Data.List.Forall2

/-!
# PdMasking.Lib.Related — a pattern on texts related symbol by symbol

An expression is blind for a relation of symbols if none of its classes tells related symbols apart.

* `reach_related`: on related texts a blind expression reaches the same positions, in the same order, with the same
  groups.
* `fullmatch_related`: so the match of the whole text is the same.
* `Pattern.blind_compile`: a pattern is blind if its classes are.
-/

namespace Regex

variable {α : Type} {E : α → α → Prop}

/-- No class of the expression tells related symbols apart. -/
def Blind (E : α → α → Prop) : Regex α → Prop
  | eps => True
  | cls p => ∀ a b, E a b → p a = p b
  | seq r s | alt r s => r.Blind E ∧ s.Blind E
  | rep _ _ _ r | group _ r | ahead _ r => r.Blind E
  | behind _ p => ∀ a b, E a b → p a = p b
  | lookback _ ps => ∀ p ∈ ps, ∀ a b, E a b → p a = p b
  | backref same _ => ∀ a a' b b', E a a' → E b b' → same a b = same a' b'

/-- The same position and the same groups in related texts. -/
structure Cursor.Related (E : α → α → Prop) (c c' : Cursor α) : Prop where
  before : List.Forall₂ E c.before c'.before
  after : List.Forall₂ E c.after c'.after
  groups_eq : c.groups = c'.groups

namespace Cursor.Related

variable {c c' : Cursor α}

theorem pos_eq (h : c.Related E c') : c.pos = c'.pos := h.before.length_eq

theorem text (h : c.Related E c') : List.Forall₂ E c.text c'.text :=
  List.rel_append (List.rel_reverse h.before) h.after

theorem isEmpty_eq (h : c.Related E c') : c.after.isEmpty = c'.after.isEmpty := by
  obtain ⟨before, after, groups⟩ := c
  obtain ⟨before', after', groups'⟩ := c'
  have hafter : List.Forall₂ E after after' := h.after
  cases hafter <;> rfl

end Cursor.Related

/-! ### Rounds -/

section Rounds

variable {step : Cursor α → List (Cursor α)}
  (hstep : ∀ c c', Cursor.Related E c c' → List.Forall₂ (Cursor.Related E) (step c) (step c'))

include hstep

theorem optional_related (lazy : Bool) : ∀ (more : ℕ) {c c' : Cursor α}, Cursor.Related E c c' →
    List.Forall₂ (Cursor.Related E) (optional step lazy more c) (optional step lazy more c')
  | 0, c, c', h => List.Forall₂.cons h List.Forall₂.nil
  | more + 1, c, c', h => by
    have hlonger : List.Forall₂ (Cursor.Related E)
        (((step c).filter (fun d => c.pos < d.pos)).flatMap (optional step lazy more))
        (((step c').filter (fun d => c'.pos < d.pos)).flatMap (optional step lazy more)) := by
      refine List.rel_flatMap (List.rel_filter ?_ (hstep c c' h)) (fun _ _ hd => optional_related lazy more hd)
      intro d d' hd
      show decide (c.pos < d.pos) = true ↔ decide (c'.pos < d'.pos) = true
      rw [h.pos_eq, hd.pos_eq]
    rw [optional, optional]
    cases lazy with
    | true => exact List.Forall₂.cons h hlonger
    | false => exact List.rel_append hlonger (List.Forall₂.cons h List.Forall₂.nil)

theorem iterate_related (lazy : Bool) (more : ℕ) : ∀ (min : ℕ) {c c' : Cursor α}, Cursor.Related E c c' →
    List.Forall₂ (Cursor.Related E) (iterate step lazy more min c) (iterate step lazy more min c')
  | 0, _, _, h => optional_related hstep lazy more h
  | min + 1, c, c', h => List.rel_flatMap (hstep c c' h) (fun _ _ hd => iterate_related lazy more min hd)

end Rounds

theorem agrees_related : ∀ {ps : List (α → Bool)} {t t' : List α}, (∀ p ∈ ps, ∀ a b, E a b → p a = p b) →
    List.Forall₂ E t t' → agrees ps t = agrees ps t'
  | [], _, _, _, _ => by rw [agrees, agrees]
  | _ :: _, [], [], _, .nil => rfl
  | p :: ps, a :: t, b :: t', hps, .cons hab h => by
    rw [agrees, agrees, hps p List.mem_cons_self a b hab,
      agrees_related (fun q hq => hps q (List.mem_cons_of_mem p hq)) h]

theorem eat_related {same : α → α → Bool} (hsame : ∀ a a' b b', E a a' → E b b' → same a b = same a' b') :
    ∀ {w w' : List α}, List.Forall₂ E w w' → ∀ {c c' : Cursor α}, Cursor.Related E c c' →
      List.Forall₂ (Cursor.Related E) (eat same w c) (eat same w' c') := by
  intro w w' hw
  induction hw with
  | nil => exact fun h => List.Forall₂.cons h List.Forall₂.nil
  | @cons a a' w w' haa hw ih =>
    rintro ⟨before, after, groups⟩ ⟨before', after', groups'⟩ ⟨hbefore, hafter, hgroups⟩
    cases hafter with
    | nil => exact List.Forall₂.nil
    | @cons b b' t t' hbb ht =>
      simp only [eat]
      rw [hsame a a' b b' haa hbb]
      split_ifs
      · exact ih ⟨List.Forall₂.cons hbb hbefore, ht, hgroups⟩
      · exact List.Forall₂.nil

/-- **A blind expression moves alike** on related texts. -/
theorem reach_related (r : Regex α) : r.Blind E → ∀ c c', Cursor.Related E c c' →
    List.Forall₂ (Cursor.Related E) (r.reach c) (r.reach c') := by
  induction r with
  | eps => exact fun _ c c' h => List.Forall₂.cons h List.Forall₂.nil
  | cls p =>
    rintro hp ⟨before, after, groups⟩ ⟨before', after', groups'⟩ ⟨hbefore, hafter, hgroups⟩
    simp only [reach]
    cases hafter with
    | nil => exact List.Forall₂.nil
    | @cons a b t t' hab ht =>
      dsimp only
      rw [hp a b hab]
      split_ifs
      · exact List.Forall₂.cons ⟨List.Forall₂.cons hab hbefore, ht, hgroups⟩ List.Forall₂.nil
      · exact List.Forall₂.nil
  | seq r s ihr ihs =>
    rintro ⟨hr, hs⟩ c c' h
    exact List.rel_flatMap (ihr hr c c' h) (fun d d' hd => ihs hs d d' hd)
  | alt r s ihr ihs =>
    rintro ⟨hr, hs⟩ c c' h
    exact List.rel_append (ihr hr c c' h) (ihs hs c c' h)
  | rep lazy min max r ih =>
    intro hr c c' h
    rw [reach, reach, h.after.length_eq]
    exact iterate_related (ih hr) lazy _ min h
  | group n r ih =>
    intro hr c c' h
    refine List.rel_map ?_ (ih hr c c' h)
    intro d d' hd
    refine ⟨hd.before, hd.after, ?_⟩
    show (n, c.pos, d.pos) :: d.groups = (n, c'.pos, d'.pos) :: d'.groups
    rw [h.pos_eq, hd.pos_eq, hd.groups_eq]
  | ahead positive r ih =>
    intro hr c c' h
    have hreach := ih hr c c' h
    simp only [reach]
    generalize r.reach c = l, r.reach c' = l' at hreach
    cases hreach with
    | nil =>
      cases positive with
      | true => exact List.Forall₂.nil
      | false => exact List.Forall₂.cons h List.Forall₂.nil
    | cons hd _ =>
      cases positive with
      | true => exact List.Forall₂.cons ⟨h.before, h.after, hd.groups_eq⟩ List.Forall₂.nil
      | false => exact List.Forall₂.nil
  | behind positive p =>
    intro hp c c' h
    have hany : c.before.head?.any p = c'.before.head?.any p := by
      obtain ⟨before, after, groups⟩ := c
      obtain ⟨before', after', groups'⟩ := c'
      have hbefore : List.Forall₂ E before before' := h.before
      cases hbefore with
      | nil => rfl
      | cons hab _ => exact hp _ _ hab
    rw [reach, reach, hany]
    split_ifs
    · exact List.Forall₂.cons h List.Forall₂.nil
    · exact List.Forall₂.nil
  | lookback positive ps =>
    intro hps c c' h
    rw [reach, reach, agrees_related hps h.before]
    split_ifs
    · exact List.Forall₂.cons h List.Forall₂.nil
    · exact List.Forall₂.nil
  | backref same n =>
    intro hsame c c' h
    simp only [reach]
    rw [h.groups_eq]
    cases c'.groups.find? (fun g => g.1 = n) with
    | none => exact List.Forall₂.nil
    | some g => exact eat_related hsame (List.forall₂_take _ (List.forall₂_drop _ h.text)) h

/-- The first cursor at the end of the text. -/
theorem find?_related : ∀ {l l' : List (Cursor α)}, List.Forall₂ (Cursor.Related E) l l' →
    (l.find? (fun c => c.after.isEmpty)).map (fun c => (⟨0, c.pos, c.groups⟩ : Match)) =
      (l'.find? (fun c => c.after.isEmpty)).map (fun c => ⟨0, c.pos, c.groups⟩)
  | [], [], .nil => rfl
  | c :: l, c' :: l', .cons h hl => by
    rw [List.find?_cons, List.find?_cons, h.isEmpty_eq]
    cases c'.after.isEmpty with
    | true => simp only [Option.map_some, h.pos_eq, h.groups_eq]
    | false => exact find?_related hl

/-- **The match of the whole text** is the same on related texts. -/
theorem fullmatch_related {r : Regex α} (hr : r.Blind E) {text text' : List α} (h : List.Forall₂ E text text') :
    r.fullmatch text = r.fullmatch text' := by
  have hstart : Cursor.Related E ⟨[], text, []⟩ ⟨[], text', []⟩ := ⟨List.Forall₂.nil, h, rfl⟩
  exact find?_related (reach_related r hr _ _ hstart)

end Regex

namespace Pattern

variable {κ α : Type} {E : α → α → Prop}

/-- All classes are of a kind, and there is no back reference. -/
def all (q : κ → Bool) : Pattern κ → Bool
  | empty => true
  | set s => q s
  | seq r s | alt r s => r.all q && s.all q
  | rep _ _ _ r | group _ r | ahead _ r => r.all q
  | behind _ word => word.all q
  | backref _ => false

/-- **A pattern is blind** if its classes are. -/
theorem blind_compile {test : κ → α → Bool} {same : α → α → Bool} {q : κ → Bool}
    (hq : ∀ s, q s = true → ∀ a b, E a b → test s a = test s b) (r : Pattern κ) :
    r.all q = true → (r.compile test same).Blind E := by
  induction r with
  | empty => exact fun _ => trivial
  | set s => exact fun hs => hq s hs
  | seq r s ihr ihs =>
    intro h
    obtain ⟨hr, hs⟩ := Bool.and_eq_true_iff.mp h
    exact ⟨ihr hr, ihs hs⟩
  | alt r s ihr ihs =>
    intro h
    obtain ⟨hr, hs⟩ := Bool.and_eq_true_iff.mp h
    exact ⟨ihr hr, ihs hs⟩
  | rep lazy min max r ih => exact ih
  | group n r ih => exact ih
  | ahead positive r ih => exact ih
  | behind positive word =>
    intro h p hp
    obtain ⟨s, hs, rfl⟩ := List.mem_map.mp hp
    exact hq s (List.all_eq_true.mp h s (List.mem_reverse.mp hs))
  | backref n =>
    intro h
    cases h

end Pattern
