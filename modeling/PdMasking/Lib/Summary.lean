import PdMasking.Lib.Pattern

/-!
# PdMasking.Lib.Summary — what every match of a pattern has in common

A summary is computed along the ways through a pattern: `ofSet` says what one symbol of a class tells, `add`
joins the summaries of consecutive words, `many` is a summary of any number of repetitions.  Classes without a
summary are open: what a match consists of between open classes is a segment with a summary of its own.

* `profiles`: for every way through a pattern its summary, or the ones of its first and its last segment.
* `marks`: for every way through a group the summary of the segment around this group.
* `group_segment`, `span_segment`, `stop_segment`: the groups of a match, the match and its end lie in segments that the
  summaries describe.
* `group_only`: a group consists of symbols of one kind if its classes do.
-/

/-- Summaries `D` of words whose classes are named by `κ`. -/
structure Summary (κ D : Type) where
  /-- The summary of one symbol of a class, none for an open class. -/
  ofSet : κ → Option D
  zero : D
  add : D → D → D
  /-- What two summaries have in common. -/
  meet : D → D → D
  many : D → D

/-- `Holds d w`: the word `w` is as `d` says. -/
structure Summary.Sound {κ α D : Type} (S : Summary κ D) (test : κ → α → Bool) (Holds : D → List α → Prop) :
    Prop where
  set : ∀ {s d a}, S.ofSet s = some d → test s a = true → Holds d [a]
  zero : Holds S.zero []
  add : ∀ {d e u v}, Holds d u → Holds e v → Holds (S.add d e) (u ++ v)
  meet_left : ∀ {d e w}, Holds d w → Holds (S.meet d e) w
  meet_right : ∀ {d e w}, Holds e w → Holds (S.meet d e) w
  many_nil : ∀ d, Holds (S.many d) []
  many_one : ∀ {d w}, Holds d w → Holds (S.many d) w
  many_append : ∀ {d u v}, Holds (S.many d) u → Holds (S.many d) v → Holds (S.many d) (u ++ v)

/-- The summary of a way through a pattern, or those of its first and last segment. -/
inductive Profile (D : Type)
  | tight (d : D)
  | loose (first last : D)
  deriving DecidableEq

/-- The summary of the segment around a group and whether it begins and ends with the way. -/
inductive Mark (D : Type)
  | unknown
  | known (d : D) (left right : Bool)
  deriving DecidableEq

namespace Profile

variable {κ α D : Type}

def Describes (Holds : D → List α → Prop) : Profile D → List α → Prop
  | tight d, w => Holds d w
  | loose first last, w => ∃ u m v, w = u ++ m ++ v ∧ Holds first u ∧ Holds last v

def andThen (S : Summary κ D) : Profile D → Profile D → Profile D
  | tight d, tight e => tight (S.add d e)
  | tight d, loose first last => loose (S.add d first) last
  | loose first last, tight e => loose first (S.add last e)
  | loose first _, loose _ last => loose first last

def common (S : Summary κ D) : Profile D → Profile D → Profile D
  | tight d, tight e => tight (S.meet d e)
  | _, _ => loose S.zero S.zero

def first : Profile D → D
  | tight d => d
  | loose first _ => first

def last : Profile D → D
  | tight d => d
  | loose _ last => last

end Profile

namespace Mark

variable {κ α D : Type}

/-- The span `p` is inside the word `w` that begins at `i`, in the segment that is marked. -/
def Describes (Holds : D → List α → Prop) : Mark D → List α → ℕ → ℕ × ℕ → Prop
  | unknown, _, _, _ => True
  | known d left right, w, i, p => ∃ u s v, w = u ++ s ++ v ∧ Holds d s ∧ i + u.length ≤ p.1 ∧
      p.2 ≤ i + u.length + s.length ∧ (left = true → u = []) ∧ (right = true → v = [])

def ofProfile : Profile D → Mark D
  | .tight d => known d true true
  | .loose _ _ => unknown

def before (S : Summary κ D) : Mark D → Profile D → Mark D
  | unknown, _ => unknown
  | known d left true, .tight e => known (S.add d e) left true
  | known d left true, .loose first _ => known (S.add d first) left false
  | known d left false, _ => known d left false

def after (S : Summary κ D) : Profile D → Mark D → Mark D
  | _, unknown => unknown
  | .tight e, known d true right => known (S.add e d) true right
  | .loose _ last, known d true right => known (S.add last d) false right
  | _, known d false right => known d false right

def satisfies (f : D → Bool) : Mark D → Bool
  | unknown => false
  | known d _ _ => f d

end Mark

/-! ### The analysis -/

namespace Summary

section Analysis

variable {κ D : Type} [DecidableEq D] (S : Summary κ D)

def product (ps qs : List (Profile D)) : List (Profile D) :=
  ps.flatMap (fun p => qs.map (p.andThen S)) ∪ []

/-- Any number of rounds. -/
def rounds : List (Profile D) → Profile D
  | [] => .tight S.zero
  | p :: ps =>
    match ps.foldl (Profile.common S) p with
    | .tight d => .tight (S.many d)
    | .loose _ _ => .loose S.zero S.zero

/-- The rounds behind the first `min` ones. -/
def optionalRounds (min : ℕ) (max : Option ℕ) (ps : List (Profile D)) : List (Profile D) :=
  if max = some min then [.tight S.zero]
  else if max = some (min + 1) then .tight S.zero :: ps
  else [S.rounds ps]

def copies (ps rest : List (Profile D)) : ℕ → List (Profile D)
  | 0 => rest
  | n + 1 => S.product ps (copies ps rest n)

/-- The profiles of the ways through a pattern. -/
def profiles : Pattern κ → List (Profile D)
  | .empty => [.tight S.zero]
  | .set s => [(S.ofSet s).elim (.loose S.zero S.zero) .tight]
  | .seq r s => S.product (profiles r) (profiles s)
  | .alt r s => profiles r ∪ profiles s
  | .rep _ min max r => S.copies (profiles r) (S.optionalRounds min max (profiles r)) min
  | .group _ r => profiles r
  | .ahead _ _ => [.tight S.zero]
  | .behind _ _ => [.tight S.zero]
  | .backref _ => [.loose S.zero S.zero]

/-- The marks of the ways through group `g`. -/
def marks (g : ℕ) : Pattern κ → List (Mark D)
  | .empty | .set _ | .behind _ _ | .backref _ => []
  | .seq r s =>
    (marks g r).flatMap (fun k => (S.profiles s).map (k.before S)) ∪
      (S.profiles r).flatMap (fun p => (marks g s).map (Mark.after S p))
  | .alt r s => marks g r ∪ marks g s
  | .rep _ min max r =>
    if r.mentions g then (if min = 0 ∧ max = some 1 then marks g r else [.unknown]) else []
  | .group n r => (if n = g then (S.profiles r).map Mark.ofProfile else []) ∪ marks g r
  | .ahead _ r => if r.mentions g then [.unknown] else []

/-- The segments around group `g` satisfy `f`. -/
def groupAll (f : D → Bool) (g : ℕ) (r : Pattern κ) : Bool := (S.marks g r).all (Mark.satisfies f)

/-- A match is one segment and satisfies `f`. -/
def spanAll (f : D → Bool) (r : Pattern κ) : Bool :=
  (S.profiles r).all (fun p => Mark.satisfies f (Mark.ofProfile p))

/-- The last segment of a match satisfies `f`. -/
def stopAll (f : D → Bool) (r : Pattern κ) : Bool := (S.profiles r).all (fun p => f p.last)

end Analysis

/-! ### It describes the matches -/

open Regex

section Soundness

variable {κ α D : Type} {S : Summary κ D} {test : κ → α → Bool} {same : α → α → Bool}
  {Holds : D → List α → Prop}

theorem mem_optional_one {step : Cursor α → List (Cursor α)} {lazy : Bool} {c c' : Cursor α}
    (h : c' ∈ Regex.optional step lazy 1 c) : c' = c ∨ c' ∈ step c := by
  have hround : c' ∈ ((step c).filter (fun c' => c.pos < c'.pos)).flatMap (Regex.optional step lazy 0) →
      c' ∈ step c := by
    intro h
    obtain ⟨c'', hc'', hlast⟩ := List.mem_flatMap.mp h
    rw [List.mem_singleton.mp hlast]
    exact (List.mem_filter.mp hc'').1
  rw [Regex.optional] at h
  cases lazy with
  | true => exact (List.mem_cons.mp h).imp_right hround
  | false =>
    rcases List.mem_append.mp h with h | h
    · exact Or.inr (hround h)
    · exact Or.inl (List.mem_singleton.mp h)

/-- The cursor moves over a word that one of the profiles describes. -/
def Passes (Holds : D → List α → Prop) (ps : List (Profile D)) (c c' : Cursor α) : Prop :=
  ∃ w, c.Spells w c' ∧ ∃ p ∈ ps, p.Describes Holds w

theorem Passes.mono {ps qs : List (Profile D)} (hsub : ∀ p ∈ ps, p ∈ qs) {c c' : Cursor α}
    (h : Passes Holds ps c c') : Passes Holds qs c c' := by
  obtain ⟨w, hw, p, hp, hdesc⟩ := h
  exact ⟨w, hw, p, hsub p hp, hdesc⟩

theorem Passes.still (p : Profile D) (hp : p.Describes Holds []) (c : Cursor α) (groups : List (ℕ × ℕ × ℕ)) :
    Passes Holds [p] c ⟨c.before, c.after, groups⟩ :=
  ⟨[], Cursor.Spells.nil c groups, p, List.mem_singleton_self p, hp⟩

namespace Sound

variable (hS : S.Sound test Holds)

include hS

theorem describes_loose (w : List α) : (Profile.loose S.zero S.zero).Describes Holds w :=
  ⟨[], w, [], by simp, hS.zero, hS.zero⟩

theorem describes_andThen {p q : Profile D} {u v : List α} (hp : p.Describes Holds u) (hq : q.Describes Holds v) :
    (p.andThen S q).Describes Holds (u ++ v) := by
  cases p with
  | tight d =>
    cases q with
    | tight e => exact hS.add hp hq
    | loose first last =>
      obtain ⟨x, m, y, rfl, hx, hy⟩ := hq
      exact ⟨u ++ x, m, y, by simp only [List.append_assoc], hS.add hp hx, hy⟩
  | loose first last =>
    obtain ⟨x, m, y, rfl, hx, hy⟩ := hp
    cases q with
    | tight e => exact ⟨x, m, y ++ v, by simp only [List.append_assoc], hx, hS.add hy hq⟩
    | loose first' last' =>
      obtain ⟨x', m', y', rfl, -, hy'⟩ := hq
      exact ⟨x, m ++ y ++ x' ++ m', y', by simp only [List.append_assoc], hx, hy'⟩

theorem describes_common {p q : Profile D} {w : List α} (h : p.Describes Holds w ∨ q.Describes Holds w) :
    (p.common S q).Describes Holds w := by
  cases p with
  | tight d =>
    cases q with
    | tight e =>
      rcases h with h | h
      · exact hS.meet_left h
      · exact hS.meet_right h
    | loose first last => exact hS.describes_loose w
  | loose first last => exact hS.describes_loose w

theorem describes_foldl_common {w : List α} : ∀ (ps : List (Profile D)) (p : Profile D),
    (∃ q ∈ p :: ps, q.Describes Holds w) → (ps.foldl (Profile.common S) p).Describes Holds w
  | [], p, ⟨q, hq, h⟩ => by
    rw [List.mem_singleton] at hq
    exact hq ▸ h
  | p' :: ps, p, ⟨q, hq, h⟩ => by
    refine describes_foldl_common ps (p.common S p') ?_
    rcases List.mem_cons.mp hq with rfl | hq
    · exact ⟨_, List.mem_cons_self, hS.describes_common (Or.inl h)⟩
    · rcases List.mem_cons.mp hq with rfl | hq
      · exact ⟨_, List.mem_cons_self, hS.describes_common (Or.inr h)⟩
      · exact ⟨q, List.mem_cons_of_mem _ hq, h⟩

theorem rounds_nil (ps : List (Profile D)) : (S.rounds ps).Describes Holds ([] : List α) := by
  cases ps with
  | nil => exact hS.zero
  | cons p ps =>
    rw [rounds]
    split
    · exact hS.many_nil _
    · exact hS.describes_loose []

theorem rounds_one {ps : List (Profile D)} {p : Profile D} (hp : p ∈ ps) {w : List α}
    (h : p.Describes Holds w) : (S.rounds ps).Describes Holds w := by
  cases ps with
  | nil => cases hp
  | cons q ps =>
    have hcommon := hS.describes_foldl_common ps q ⟨p, hp, h⟩
    rw [rounds]
    split
    · rename_i d hd
      rw [hd] at hcommon
      exact hS.many_one hcommon
    · exact hS.describes_loose w

theorem rounds_append {ps : List (Profile D)} {u v : List α} (hu : (S.rounds ps).Describes Holds u)
    (hv : (S.rounds ps).Describes Holds v) (hps : ps ≠ []) : (S.rounds ps).Describes Holds (u ++ v) := by
  cases ps with
  | nil => exact absurd rfl hps
  | cons q ps =>
    rw [rounds] at hu hv ⊢
    split
    · rename_i d hd
      rw [hd] at hu hv
      exact hS.many_append hu hv
    · exact hS.describes_loose (u ++ v)

theorem describes_before {k : Mark D} {p : Profile D} {u v : List α} {i : ℕ} {span : ℕ × ℕ}
    (hk : k.Describes Holds u i span) (hp : p.Describes Holds v) :
    (k.before S p).Describes Holds (u ++ v) i span := by
  cases k with
  | unknown => trivial
  | known d left right =>
    obtain ⟨x, s, y, rfl, hs, hstart, hstop, hleft, hright⟩ := hk
    cases right with
    | false =>
      exact ⟨x, s, y ++ v, by simp only [List.append_assoc], hs, hstart, hstop, hleft, nofun⟩
    | true =>
      have hy : y = [] := hright rfl
      subst hy
      cases p with
      | tight e =>
        refine ⟨x, s ++ v, [], by simp only [List.append_assoc, List.append_nil], hS.add hs hp, hstart, ?_, hleft,
          fun _ => rfl⟩
        rw [List.length_append]
        omega
      | loose first last =>
        obtain ⟨w, m, z, rfl, hw, -⟩ := hp
        refine ⟨x, s ++ w, m ++ z, by simp only [List.append_assoc, List.append_nil],
          hS.add hs hw, hstart, ?_, hleft, nofun⟩
        rw [List.length_append]
        omega

theorem describes_after {k : Mark D} {p : Profile D} {u v : List α} {i : ℕ} {span : ℕ × ℕ}
    (hp : p.Describes Holds u) (hk : k.Describes Holds v (i + u.length) span) :
    (k.after S p).Describes Holds (u ++ v) i span := by
  cases k with
  | unknown =>
    cases p with
    | tight e => trivial
    | loose first last => trivial
  | known d left right =>
    obtain ⟨x, s, y, rfl, hs, hstart, hstop, hleft, hright⟩ := hk
    cases left with
    | false =>
      have hsame : Mark.after S p (.known d false right) = .known d false right := by
        cases p with
        | tight e => rfl
        | loose first last => rfl
      rw [hsame]
      refine ⟨u ++ x, s, y, by simp only [List.append_assoc], hs, ?_, ?_, nofun, hright⟩
      · rw [List.length_append]
        omega
      · rw [List.length_append]
        omega
    | true =>
      have hx : x = [] := hleft rfl
      subst hx
      rw [List.length_nil, Nat.add_zero] at hstart hstop
      cases p with
      | tight e =>
        refine ⟨[], u ++ s, y, by simp only [List.append_assoc, List.nil_append], hS.add hp hs, ?_, ?_,
          fun _ => rfl, hright⟩
        · rw [List.length_nil]
          omega
        · rw [List.length_nil, List.length_append]
          omega
      | loose first last =>
        obtain ⟨w, m, z, rfl, -, hz⟩ := hp
        refine ⟨w ++ m, z ++ s, y, by simp only [List.append_assoc, List.nil_append], hS.add hz hs, ?_, ?_,
          nofun, hright⟩
        · simp only [List.length_append] at hstart ⊢
          omega
        · simp only [List.length_append] at hstop ⊢
          omega

/-- The optional rounds of a repetition. -/
theorem passes_optional {step : Cursor α → List (Cursor α)} {ps : List (Profile D)}
    (hstep : ∀ c, ∀ c' ∈ step c, Passes Holds ps c c') {lazy : Bool} {min : ℕ} {max : Option ℕ} {n : ℕ} :
    ∀ c, ∀ c' ∈ Regex.optional step lazy (max.elim n (· - min)) c, Passes Holds (S.optionalRounds min max ps) c c' := by
  intro c c' h
  unfold optionalRounds
  split_ifs with hnone hone
  · subst hnone
    rw [Option.elim_some, Nat.sub_self, Regex.optional, List.mem_singleton] at h
    subst h
    exact Passes.still (.tight S.zero) hS.zero c' c'.groups
  · subst hone
    rw [Option.elim_some, Nat.add_sub_cancel_left] at h
    rcases mem_optional_one h with rfl | hround
    · exact ⟨[], Cursor.Spells.nil c' c'.groups, _, List.mem_cons_self, hS.zero⟩
    · exact (hstep c c' hround).mono (fun p hp => List.mem_cons_of_mem _ hp)
  · by_cases hps : ps = []
    · -- no round can be made
      have hstay : ∀ (more : ℕ) (c : Cursor α), ∀ c' ∈ Regex.optional step lazy more c, c' = c := by
        intro more c c' hc'
        refine (optional_rel (P := fun c c' : Cursor α => c = c') (fun _ => rfl) Eq.trans ?_ more c c' hc').symm
        intro c c' hc'
        obtain ⟨_, _, p, hp, _⟩ := hstep c c' hc'
        rw [hps] at hp
        cases hp
      rw [hstay _ c c' h]
      exact Passes.still _ (hS.rounds_nil ps) c c.groups
    · refine optional_rel (P := Passes Holds [S.rounds ps]) ?_ ?_ ?_ _ c c' h
      · exact fun c => Passes.still _ (hS.rounds_nil ps) c c.groups
      · rintro c₁ c₂ c₃ ⟨u, hu, p, hp, hdu⟩ ⟨v, hv, q, hq, hdv⟩
        rw [List.mem_singleton] at hp hq
        subst hp hq
        exact ⟨u ++ v, hu.append hv, _, List.mem_singleton_self _, hS.rounds_append hdu hdv hps⟩
      · intro c₁ c₂ hc
        obtain ⟨w, hw, p, hp, hdesc⟩ := hstep c₁ c₂ hc
        exact ⟨w, hw, _, List.mem_singleton_self _, hS.rounds_one hp hdesc⟩

end Sound

section Ways

variable [DecidableEq D]

theorem mem_product {ps qs : List (Profile D)} {p q : Profile D} (hp : p ∈ ps) (hq : q ∈ qs) :
    p.andThen S q ∈ S.product ps qs :=
  List.mem_union_iff.mpr (Or.inl (List.mem_flatMap.mpr ⟨p, hp, List.mem_map_of_mem hq⟩))

variable (hS : S.Sound test Holds)

include hS

theorem Passes.product {ps qs : List (Profile D)} {c c' c'' : Cursor α} (h : Passes Holds ps c c')
    (h' : Passes Holds qs c' c'') : Passes Holds (S.product ps qs) c c'' := by
  obtain ⟨u, hu, p, hp, hdp⟩ := h
  obtain ⟨v, hv, q, hq, hdq⟩ := h'
  exact ⟨u ++ v, hu.append hv, _, mem_product hp hq, hS.describes_andThen hdp hdq⟩

theorem passes_iterate {step : Cursor α → List (Cursor α)} {ps rest : List (Profile D)} {lazy : Bool} {more : ℕ}
    (hstep : ∀ c, ∀ c' ∈ step c, Passes Holds ps c c')
    (hrest : ∀ c, ∀ c' ∈ Regex.optional step lazy more c, Passes Holds rest c c') : ∀ (min : ℕ) (c : Cursor α),
    ∀ c' ∈ iterate step lazy more min c, Passes Holds (S.copies ps rest min) c c'
  | 0, c, c', h => hrest c c' h
  | min + 1, c, c', h => by
    obtain ⟨c'', h1, h2⟩ := List.mem_flatMap.mp h
    exact Passes.product hS (hstep c c'' h1) (passes_iterate hstep hrest min c'' c' h2)

/-- **The profiles describe every way** through a pattern. -/
theorem reach_passes (r : Pattern κ) : ∀ c, ∀ c' ∈ (r.compile test same).reach c,
    Passes Holds (S.profiles r) c c' := by
  induction r with
  | empty =>
    intro c c' h
    rw [Pattern.compile, reach, List.mem_singleton] at h
    subst h
    exact Passes.still (.tight S.zero) hS.zero c' c'.groups
  | set s =>
    intro c c' h
    obtain ⟨a, ha, hspell, -⟩ := mem_reach_cls h
    refine ⟨[a], hspell, _, List.mem_singleton_self _, ?_⟩
    cases hs : S.ofSet s with
    | none => exact hS.describes_loose [a]
    | some d => exact hS.set hs ha
  | seq r s ihr ihs =>
    intro c c' h
    obtain ⟨c'', h1, h2⟩ := List.mem_flatMap.mp h
    exact Passes.product hS (ihr c c'' h1) (ihs c'' c' h2)
  | alt r s ihr ihs =>
    intro c c' h
    rcases List.mem_append.mp h with h | h
    · exact (ihr c c' h).mono (fun p hp => List.mem_union_iff.mpr (Or.inl hp))
    · exact (ihs c c' h).mono (fun p hp => List.mem_union_iff.mpr (Or.inr hp))
  | rep lazy min max r ih =>
    intro c c' h
    exact passes_iterate hS ih (hS.passes_optional ih) min c c' h
  | group n r ih =>
    intro c c' h
    obtain ⟨c'', h1, rfl⟩ := mem_reach_group h
    obtain ⟨w, hw, p, hp, hdesc⟩ := ih c c'' h1
    exact ⟨w, ⟨hw.before_eq, hw.after_eq⟩, p, hp, hdesc⟩
  | ahead positive r ih =>
    intro c c' h
    rcases mem_reach_ahead h with rfl | ⟨c'', h1, rfl⟩
    · exact Passes.still (.tight S.zero) hS.zero c' c'.groups
    · exact Passes.still (.tight S.zero) hS.zero c c''.groups
  | behind positive word =>
    intro c c' h
    rw [mem_reach_lookback h]
    exact Passes.still (.tight S.zero) hS.zero c c.groups
  | backref n =>
    intro c c' h
    obtain ⟨⟨v, hv⟩, -⟩ := mem_reach_backref h
    exact ⟨v, hv, _, List.mem_singleton_self _, hS.describes_loose v⟩

/-! ### The segment around a group -/

/-- **The marks describe the segments around a group**, on every way through a pattern. -/
theorem reach_mark (g : ℕ) (r : Pattern κ) : ∀ c, ∀ c' ∈ (r.compile test same).reach c,
    ∀ w, c.Spells w c' → ∀ e ∈ c'.groups, e.1 = g →
      e ∈ c.groups ∨ ∃ k ∈ S.marks g r, k.Describes Holds w c.pos e.2 := by
  -- a part without the group
  have habsent : ∀ (r : Pattern κ), r.mentions g = false → ∀ c, ∀ c' ∈ (r.compile test same).reach c,
      ∀ e ∈ c'.groups, e.1 = g → e ∈ c.groups := by
    intro r hr c c' h e he heg
    rcases (Pattern.groups_of_reach r c c' h).of_mem he with he | hn
    · exact he
    · rw [heg, hr] at hn
      cases hn
  induction r with
  | empty =>
    intro c c' h w _ e he heg
    exact Or.inl (habsent _ rfl c c' h e he heg)
  | set s =>
    intro c c' h w _ e he heg
    exact Or.inl (habsent _ rfl c c' h e he heg)
  | seq r s ihr ihs =>
    intro c c' h w hw e he heg
    obtain ⟨c'', h1, h2⟩ := List.mem_flatMap.mp h
    obtain ⟨u, hu, p, hp, hdp⟩ := reach_passes hS r c c'' h1
    obtain ⟨v, hv, q, hq, hdq⟩ := reach_passes hS s c'' c' h2
    obtain rfl := hw.unique (hu.append hv)
    rcases ihs c'' c' h2 v hv e he heg with he' | ⟨k, hk, hdk⟩
    · rcases ihr c c'' h1 u hu e he' heg with he'' | ⟨k, hk, hdk⟩
      · exact Or.inl he''
      · refine Or.inr ⟨k.before S q, ?_, hS.describes_before hdk hdq⟩
        exact List.mem_union_iff.mpr (Or.inl (List.mem_flatMap.mpr ⟨k, hk, List.mem_map_of_mem hq⟩))
    · rw [hu.pos_eq] at hdk
      refine Or.inr ⟨k.after S p, ?_, hS.describes_after hdp hdk⟩
      exact List.mem_union_iff.mpr (Or.inr (List.mem_flatMap.mpr ⟨p, hp, List.mem_map_of_mem hk⟩))
  | alt r s ihr ihs =>
    intro c c' h w hw e he heg
    rcases List.mem_append.mp h with h | h
    · refine (ihr c c' h w hw e he heg).imp_right ?_
      rintro ⟨k, hk, hdk⟩
      exact ⟨k, List.mem_union_iff.mpr (Or.inl hk), hdk⟩
    · refine (ihs c c' h w hw e he heg).imp_right ?_
      rintro ⟨k, hk, hdk⟩
      exact ⟨k, List.mem_union_iff.mpr (Or.inr hk), hdk⟩
  | rep lazy min max r ih =>
    intro c c' h w hw e he heg
    cases hr : r.mentions g with
    | false => exact Or.inl (habsent (.rep lazy min max r) hr c c' h e he heg)
    | true =>
      rw [marks, if_pos hr]
      split_ifs with hopt
      · obtain ⟨rfl, rfl⟩ := hopt
        rcases mem_optional_one h with rfl | h
        · exact Or.inl he
        · exact ih c c' h w hw e he heg
      · exact Or.inr ⟨.unknown, List.mem_singleton_self _, trivial⟩
  | group n r ih =>
    intro c c' h w hw e he heg
    obtain ⟨c'', h1, rfl⟩ := mem_reach_group h
    have hw'' : c.Spells w c'' := ⟨hw.before_eq, hw.after_eq⟩
    rcases List.mem_cons.mp he with rfl | he
    · obtain ⟨u, hu, p, hp, hdp⟩ := reach_passes hS r c c'' h1
      obtain rfl := hw''.unique hu
      refine Or.inr ⟨Mark.ofProfile p, ?_, ?_⟩
      · rw [marks, if_pos heg]
        exact List.mem_union_iff.mpr (Or.inl (List.mem_map_of_mem hp))
      · cases p with
        | tight d => exact ⟨[], w, [], by simp, hdp, by simp, by simp [hu.pos_eq], fun _ => rfl, fun _ => rfl⟩
        | loose first last => trivial
    · refine (ih c c'' h1 w hw'' e he heg).imp_right ?_
      rintro ⟨k, hk, hdk⟩
      exact ⟨k, List.mem_union_iff.mpr (Or.inr hk), hdk⟩
  | ahead positive r ih =>
    intro c c' h w hw e he heg
    cases hr : r.mentions g with
    | false => exact Or.inl (habsent (.ahead positive r) hr c c' h e he heg)
    | true =>
      rw [marks, if_pos hr]
      exact Or.inr ⟨.unknown, List.mem_singleton_self _, trivial⟩
  | behind positive word =>
    intro c c' h w _ e he heg
    exact Or.inl (habsent (.behind positive word) rfl c c' h e he heg)
  | backref n =>
    intro c c' h w _ e he heg
    exact Or.inl (habsent (.backref n) rfl c c' h e he heg)

/-! ### Matches -/

section Matches

variable {r : Pattern κ} {text : List α} {m : Match} {f : D → Bool}

omit [DecidableEq D] hS in
/-- The word of a match. -/
theorem found_spells (h : (r.compile test same).Found text m) :
    ∃ c c', c' ∈ (r.compile test same).reach c ∧ c.groups = [] ∧ m.groups = c'.groups ∧ c.pos = m.start ∧
      ∀ w, c.Spells w c' → m.stop = m.start + w.length ∧ m.stop ≤ text.length ∧
        (text.drop m.start).take w.length = w := by
  obtain ⟨before, after, c', rfl, hc', rfl⟩ := h
  refine ⟨_, c', hc', rfl, rfl, rfl, ?_⟩
  intro w hw
  have hpos : c'.pos = before.length + w.length := hw.pos_eq
  have hafter : after = w ++ c'.after := hw.after_eq
  refine ⟨hpos, ?_, ?_⟩
  · simp only [hpos, hafter, List.length_append, List.length_reverse]
    omega
  · have hlen : before.length = before.reverse.length := List.length_reverse.symm
    show ((before.reverse ++ after).drop before.length).take w.length = w
    rw [hlen, List.drop_left, hafter, List.take_left]

/-- A summary with `f` describes `text[x:y]`. -/
def Segment (Holds : D → List α → Prop) (f : D → Bool) (text : List α) (x y : ℕ) : Prop :=
  x ≤ y ∧ y ≤ text.length ∧ ∃ d, f d = true ∧ Holds d ((text.drop x).take (y - x))

omit [DecidableEq D] hS in
/-- A segment of the text up to `n` is one of the text. -/
theorem Segment.of_take {x y n : ℕ} (h : Segment Holds f (text.take n) x y) : Segment Holds f text x y := by
  obtain ⟨hxy, hlen, d, hf, hd⟩ := h
  rw [List.length_take] at hlen
  refine ⟨hxy, by omega, d, hf, ?_⟩
  rw [List.drop_take, List.take_take, Nat.min_eq_left (by omega)] at hd
  exact hd

omit [DecidableEq D] hS in
/-- A segment of a part of the text is one of the text. -/
theorem Segment.of_part {v : List α} {i x y : ℕ} (hv : (text.drop i).take v.length = v)
    (hlen : i + v.length ≤ text.length) (h : Segment Holds f v x y) : Segment Holds f text (i + x) (i + y) := by
  obtain ⟨hxy, hy, d, hf, hd⟩ := h
  refine ⟨by omega, by omega, d, hf, ?_⟩
  have hcut : (text.drop (i + x)).take (i + y - (i + x)) = (v.drop x).take (y - x) := by
    rw [← hv, List.drop_take, List.drop_drop, List.take_take]
    congr 1
    omega
  rw [hcut]
  exact hd

omit [DecidableEq D] hS in
/-- A part of the word of a match, as a segment of the text. -/
theorem segment_of_append {u s v w : List α} {i : ℕ} {d : D} (hw : w = u ++ s ++ v)
    (htext : (text.drop i).take w.length = w) (hlen : i + w.length ≤ text.length) (hf : f d = true)
    (hd : Holds d s) : Segment Holds f text (i + u.length) (i + u.length + s.length) := by
  have hsub : u.length + s.length ≤ w.length := by
    simp only [hw, List.length_append]
    omega
  refine ⟨Nat.le_add_right _ _, by omega, d, hf, ?_⟩
  have hs : (text.drop (i + u.length)).take s.length = s := by
    rw [← List.drop_drop]
    have hcut : ((text.drop i).drop u.length).take s.length =
        (((text.drop i).take w.length).drop u.length).take s.length := by
      rw [List.drop_take, List.take_take, Nat.min_eq_left (by omega)]
    rw [hcut, htext, hw, List.append_assoc, List.drop_left, List.take_left]
  rw [Nat.add_sub_cancel_left, hs]
  exact hd

/-- **A group lies in the segment** that its marks describe, inside the match. -/
theorem group_segment {g : ℕ} (hall : S.groupAll f g r = true) (h : (r.compile test same).Found text m)
    {span : ℕ × ℕ} (hspan : m.group g = some span) :
    ∃ x y, m.start ≤ x ∧ x ≤ span.1 ∧ span.2 ≤ y ∧ y ≤ m.stop ∧ Segment Holds f text x y := by
  obtain ⟨c, c', hc', hnil, hgroups, hpos, hword⟩ := found_spells h
  obtain ⟨w, hw, -⟩ := reach_passes hS r c c' hc'
  obtain ⟨hstop, hlen, htext⟩ := hword w hw
  obtain ⟨e, he, rfl⟩ := Option.map_eq_some_iff.mp hspan
  have heg : e.1 = g := by simpa using List.find?_some he
  have hmem : e ∈ c'.groups := hgroups ▸ List.mem_of_find?_eq_some he
  rcases reach_mark hS g r c c' hc' w hw e hmem heg with hold | ⟨k, hk, hdesc⟩
  · rw [hnil] at hold
    cases hold
  · have hsat := List.all_eq_true.mp hall k hk
    cases k with
    | unknown => cases hsat
    | known d left right =>
      obtain ⟨u, s, v, heq, hd, hstart, hend, -, -⟩ := hdesc
      rw [hpos] at hstart hend
      have hin : m.start + w.length ≤ text.length := hstop ▸ hlen
      have hsub : u.length + s.length ≤ w.length := by
        simp only [heq, List.length_append]
        omega
      exact ⟨_, _, Nat.le_add_right _ _, hstart, hend, by omega, segment_of_append heq htext hin hsat hd⟩

/-- The word of a match has a profile of the pattern. -/
theorem found_profile {q : Profile D → Bool} (hall : (S.profiles r).all q = true)
    (h : (r.compile test same).Found text m) :
    ∃ w p, q p = true ∧ p.Describes Holds w ∧ m.stop = m.start + w.length ∧ m.start + w.length ≤ text.length ∧
      (text.drop m.start).take w.length = w := by
  obtain ⟨c, c', hc', -, -, -, hword⟩ := found_spells h
  obtain ⟨w, hw, p, hp, hdesc⟩ := reach_passes hS r c c' hc'
  obtain ⟨hstop, hlen, htext⟩ := hword w hw
  exact ⟨w, p, List.all_eq_true.mp hall p hp, hdesc, hstop, hstop ▸ hlen, htext⟩

/-- **A match is the segment** that its profiles describe. -/
theorem span_segment (hall : S.spanAll f r = true) (h : (r.compile test same).Found text m) :
    Segment Holds f text m.start m.stop := by
  obtain ⟨w, p, hsat, hdesc, hstop, hin, htext⟩ := found_profile hS hall h
  cases p with
  | loose first last => cases hsat
  | tight d =>
    have hseg : Segment Holds f text _ _ :=
      segment_of_append (show w = [] ++ w ++ [] by simp) htext hin hsat hdesc
    rw [hstop]
    exact hseg

/-- The last segment of a match ends with the match. -/
theorem stop_segment (hall : S.stopAll f r = true) (h : (r.compile test same).Found text m) :
    ∃ x, m.start ≤ x ∧ Segment Holds f text x m.stop := by
  obtain ⟨w, p, hsat, hdesc, hstop, hin, htext⟩ := found_profile hS hall h
  obtain ⟨u, s, heq, hd⟩ : ∃ u s, w = u ++ s ++ [] ∧ Holds p.last s := by
    cases p with
    | tight d => exact ⟨[], w, by simp, hdesc⟩
    | loose first last =>
      obtain ⟨x, y, z, rfl, -, hz⟩ := hdesc
      exact ⟨x ++ y, z, by simp, hz⟩
  have hend : m.stop = m.start + u.length + s.length := by
    rw [hstop, heq]
    simp [Nat.add_assoc]
  have hseg : Segment Holds f text _ _ := segment_of_append heq htext hin hsat hd
  rw [← hend] at hseg
  exact ⟨_, Nat.le_add_right _ _, hseg⟩

end Matches

end Ways

end Soundness

/-! ### Words of one kind -/

section Kinds

variable {κ α : Type} {test : κ → α → Bool} {same : α → α → Bool} {q : κ → Bool} {p : α → Bool}

/-- The classes of one kind; the others are open. -/
def only (q : κ → Bool) : Summary κ Unit where
  ofSet s := if q s then some () else none
  zero := ()
  add _ _ := ()
  meet _ _ := ()
  many _ := ()

theorem only_sound (hq : ∀ s a, q s = true → test s a = true → p a = true) :
    (only q).Sound test (fun _ w => ∀ a ∈ w, p a = true) where
  set := by
    intro s d a hd ha b hb
    have hs : q s = true := by
      by_contra hno
      simp [only, hno] at hd
    rw [List.mem_singleton.mp hb]
    exact hq s a hs ha
  zero := fun a ha => absurd ha List.not_mem_nil
  add := by
    intro d e u v hu hv a ha
    rcases List.mem_append.mp ha with ha | ha
    · exact hu a ha
    · exact hv a ha
  meet_left := fun hw => hw
  meet_right := fun hw => hw
  many_nil := fun _ a ha => absurd ha List.not_mem_nil
  many_one := fun hw => hw
  many_append := by
    intro d u v hu hv a ha
    rcases List.mem_append.mp ha with ha | ha
    · exact hu a ha
    · exact hv a ha

/-- **A group of symbols of one kind.** -/
theorem group_only (hq : ∀ s a, q s = true → test s a = true → p a = true) {r : Pattern κ} {g : ℕ}
    (hr : (r.always g && (only q).groupAll (fun _ => true) g r) = true) {text : List α} {m : Match}
    (hm : (r.compile test same).Found text m) :
    ∀ a ∈ (text.drop (m.groupSpan g).1).take ((m.groupSpan g).2 - (m.groupSpan g).1), p a = true := by
  obtain ⟨halways, hall⟩ := Bool.and_eq_true_iff.mp hr
  obtain ⟨span, hspan⟩ := Pattern.group_of_always halways hm
  obtain ⟨x, y, -, hx, hy, -, -, -, -, -, hword⟩ := group_segment (only_sound hq) hall hm hspan
  have heq : m.groupSpan g = span := by rw [Match.groupSpan, hspan, Option.getD_some]
  rw [heq]
  intro a ha
  refine hword a ?_
  -- the group is a part of the segment
  have hcut : (text.drop span.1).take (span.2 - span.1) =
      (((text.drop x).take (y - x)).drop (span.1 - x)).take (span.2 - span.1) := by
    rw [List.drop_take, List.drop_drop, List.take_take, Nat.add_sub_cancel' hx]
    congr 1
    omega
  rw [hcut] at ha
  exact List.mem_of_mem_drop (List.mem_of_mem_take ha)

end Kinds

end Summary
