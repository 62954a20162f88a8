import PdMasking.Lib.TextSearch

/-!
# PdMasking.Lib.Template — texts with slots, and filling slots by substring replacement

A template is a list of pieces: plain text and slots named by keys.  `render v ps` fills the slots by the
valuation `v`; `places v k` are the offsets at which the slots of the key `k` start.

* `replace_render`: when the search for the content of `k` stops only at the slots of `k`, replacing that
  content by `o` is the same as changing the valuation at `k`.
* `foldl_fill_render`: hence a sequence of global replacements turns `render v` into `render w`.
* `hits_subset_places`: contents that open with a marker symbol found nowhere else are met only at their
  slots.
* `Apart`: two contents whose stops in a text do not overlap, and that what is put in place of the one neither
  makes nor covers.  `cut` makes a template of such a text, and `hits_cut` finds the two contents at its slots.
-/

namespace Template

open TextSearch

variable {κ α : Type*}

inductive Piece (κ α : Type*)
  | plain (s : List α)
  | slot (k : κ)

/-- The text of a template under the valuation `v`. -/
def render (v : κ → List α) : List (Piece κ α) → List α
  | [] => []
  | .plain s :: ps => s ++ render v ps
  | .slot k :: ps => v k ++ render v ps

theorem render_append (v : κ → List α) : ∀ ps qs : List (Piece κ α),
    render v (ps ++ qs) = render v ps ++ render v qs
  | [], _ => rfl
  | .plain s :: ps, qs => by simp only [List.cons_append, render, render_append v ps qs, List.append_assoc]
  | .slot k :: ps, qs => by simp only [List.cons_append, render, render_append v ps qs, List.append_assoc]

theorem render_congr {v w : κ → List α} : ∀ {ps : List (Piece κ α)}, (∀ k, .slot k ∈ ps → v k = w k) →
    render v ps = render w ps
  | [], _ => rfl
  | .plain s :: ps, h => congrArg _ (render_congr (fun k hk => h k (List.mem_cons_of_mem _ hk)))
  | .slot k :: ps, h => by
    rw [render, render, h k List.mem_cons_self, render_congr (fun k hk => h k (List.mem_cons_of_mem _ hk))]

/-- The content of a slot occurs in the text. -/
theorem infix_render_of_slot {v : κ → List α} {k : κ} : ∀ {ps : List (Piece κ α)},
    .slot k ∈ ps → v k <:+: render v ps
  | .plain s :: ps, h => by
    rcases List.mem_cons.mp h with h | h
    · cases h
    · exact (infix_render_of_slot h).trans (List.suffix_append s _).isInfix
  | .slot k' :: ps, h => by
    rcases List.mem_cons.mp h with h | h
    · obtain rfl := Piece.slot.inj h
      exact (List.prefix_append (v k) _).isInfix
    · exact (infix_render_of_slot h).trans (List.suffix_append (v k') _).isInfix

variable [DecidableEq κ]

/-- The offsets, counted from `i`, at which the slots of `k` start. -/
def places (v : κ → List α) (k : κ) : ℕ → List (Piece κ α) → List ℕ
  | _, [] => []
  | i, .plain s :: ps => places v k (i + s.length) ps
  | i, .slot k' :: ps =>
    if k' = k then i :: places v k (i + (v k').length) ps else places v k (i + (v k').length) ps

theorem places_shift (v : κ → List α) (k : κ) : ∀ (ps : List (Piece κ α)) (i : ℕ),
    places v k i ps = (places v k 0 ps).map (· + i)
  | [], _ => rfl
  | .plain s :: ps, i => by
    rw [places, places, places_shift v k ps (i + s.length), places_shift v k ps (0 + s.length), List.map_map]
    exact List.map_congr_left (fun x _ => by simp only [Function.comp_apply]; omega)
  | .slot k' :: ps, i => by
    rw [places, places, places_shift v k ps (i + (v k').length), places_shift v k ps (0 + (v k').length)]
    split_ifs with h
    · rw [List.map_cons, List.map_map, Nat.zero_add]
      exact congrArg _ (List.map_congr_left (fun x _ => by simp only [Function.comp_apply]; omega))
    · rw [List.map_map]
      exact List.map_congr_left (fun x _ => by simp only [Function.comp_apply]; omega)

theorem le_of_mem_places {v : κ → List α} {k : κ} {ps : List (Piece κ α)} {i j : ℕ} (h : j ∈ places v k i ps) :
    i ≤ j := by
  rw [places_shift] at h
  obtain ⟨x, -, rfl⟩ := List.mem_map.mp h
  omega

theorem mem_places_shift {v : κ → List α} {k : κ} {ps : List (Piece κ α)} {i j : ℕ}
    (h : j + i ∈ places v k i ps) :
    j ∈ places v k 0 ps := by
  rw [places_shift] at h
  obtain ⟨x, hx, hxj⟩ := List.mem_map.mp h
  obtain rfl : x = j := Nat.add_right_cancel hxj
  exact hx

/-- At its places a slot has its content. -/
theorem prefix_of_mem_places {v : κ → List α} {k : κ} : ∀ {ps : List (Piece κ α)} {i : ℕ},
    i ∈ places v k 0 ps → v k <+: (render v ps).drop i
  | p :: ps, i, h => by
    -- a place behind the first piece
    have hbehind : ∀ x : List α, i ∈ places v k (0 + x.length) ps → v k <+: (x ++ render v ps).drop i := by
      intro x hi
      rw [Nat.zero_add] at hi
      obtain ⟨j, rfl⟩ := Nat.exists_eq_add_of_le (le_of_mem_places hi)
      rw [List.drop_append, List.drop_of_length_le (Nat.le_add_right _ _), List.nil_append,
        Nat.add_sub_cancel_left]
      rw [Nat.add_comm] at hi
      exact prefix_of_mem_places (mem_places_shift hi)
    cases p with
    | plain s => exact hbehind s h
    | slot k' =>
      rw [places] at h
      split_ifs at h with hk
      · rcases List.mem_cons.mp h with rfl | h
        · rw [render, List.drop_zero, hk]
          exact List.prefix_append _ _
        · exact hbehind (v k') h
      · exact hbehind (v k') h

variable [DecidableEq α]

/-- A front, plain or a slot of another key, in which the search does not stop shifts the stops. -/
theorem front_hits {v : κ → List α} {k : κ} {x : List α} {ps : List (Piece κ α)}
    (h : ∀ i ∈ hits (v k) (x ++ render v ps), i ∈ places v k (0 + x.length) ps) :
    hits (v k) (x ++ render v ps) = (hits (v k) (render v ps)).map (· + x.length) ∧
      ∀ i ∈ hits (v k) (render v ps), i ∈ places v k 0 ps := by
  have hge : ∀ i ∈ hits (v k) (x ++ render v ps), x.length ≤ i := fun i hi => by
    have := le_of_mem_places (h i hi)
    omega
  have hshift := hits_append hge
  refine ⟨hshift, fun i hi => ?_⟩
  rw [Nat.zero_add] at h
  exact mem_places_shift (h (i + x.length) (by rw [hshift]; exact List.mem_map_of_mem hi))

/-- Such a front is copied by the replacement. -/
theorem front_step {v : κ → List α} {k : κ} {x : List α} {ps : List (Piece κ α)} (hne : v k ≠ []) (o : List α)
    (h : ∀ i ∈ hits (v k) (x ++ render v ps), i ∈ places v k (0 + x.length) ps) :
    replace (v k) o (x ++ render v ps) = x ++ replace (v k) o (render v ps) := by
  refine replace_append hne o (fun i hi => ?_)
  have := le_of_mem_places (h i hi)
  omega

/-- Behind a slot of the key the search goes on as it began. -/
theorem self_hits {v : κ → List α} {k : κ} {ps : List (Piece κ α)} (hne : v k ≠ [])
    (h : ∀ i ∈ hits (v k) (render v (.slot k :: ps)), i ∈ places v k 0 (.slot k :: ps)) :
    ∀ i ∈ hits (v k) (render v ps), i ∈ places v k 0 ps := by
  intro i hi
  have hmem := h (i + (v k).length) (by
    rw [render, hits_self_append hne]
    exact List.mem_cons_of_mem _ (List.mem_map_of_mem hi))
  rw [places, if_pos rfl, Nat.zero_add] at hmem
  rcases List.mem_cons.mp hmem with h0 | hmem
  · exact absurd (List.eq_nil_of_length_eq_zero (by omega)) hne
  · exact mem_places_shift hmem

/-- **Filling one key.**  If the search for the content of `k` stops only at the slots of `k`, replacing it
by `o` changes the valuation at `k`. -/
theorem replace_render {v : κ → List α} {k : κ} (hne : v k ≠ []) (o : List α) : ∀ {ps : List (Piece κ α)},
    (∀ i ∈ hits (v k) (render v ps), i ∈ places v k 0 ps) →
      replace (v k) o (render v ps) = render (Function.update v k o) ps
  | [], _ => replace_nil hne o
  | .plain s :: ps, h => by
    rw [render, front_step hne o h, replace_render hne o (front_hits h).2, render]
  | .slot k' :: ps, h => by
    by_cases hk : k' = k
    · subst hk
      rw [render, replace_self_append hne, replace_render hne o (self_hits hne h), render, Function.update_self]
    · have hfront : ∀ i ∈ hits (v k) (v k' ++ render v ps), i ∈ places v k (0 + (v k').length) ps := by
        intro i hi
        have hplace := h i hi
        rwa [places, if_neg hk] at hplace
      rw [render, front_step hne o hfront, replace_render hne o (front_hits hfront).2, render,
        Function.update_of_ne hk]

/-- A search that stops only at the slots stops at each of them. -/
theorem hits_eq_places {v : κ → List α} {k : κ} (hne : v k ≠ []) : ∀ {ps : List (Piece κ α)},
    (∀ i ∈ hits (v k) (render v ps), i ∈ places v k 0 ps) → hits (v k) (render v ps) = places v k 0 ps
  | [], _ => rfl
  | .plain s :: ps, h => by
    obtain ⟨hhits, hrest⟩ := front_hits h
    rw [render, hhits, hits_eq_places hne hrest, places, Nat.zero_add, places_shift v k ps s.length]
  | .slot k' :: ps, h => by
    by_cases hk : k' = k
    · subst hk
      have hrest := self_hits hne h
      rw [render, hits_self_append hne, hits_eq_places hne hrest, places, if_pos rfl, Nat.zero_add,
        places_shift v k' ps (v k').length]
    · have hfront : ∀ i ∈ hits (v k) (v k' ++ render v ps), i ∈ places v k (0 + (v k').length) ps := by
        intro i hi
        have hplace := h i hi
        rwa [places, if_neg hk] at hplace
      obtain ⟨hhits, hrest⟩ := front_hits hfront
      rw [render, hhits, hits_eq_places hne hrest, places, if_neg hk, Nat.zero_add,
        places_shift v k ps (v k').length]

omit [DecidableEq α] in
/-- The number of slots does not depend on what fills them. -/
theorem length_places (v w : κ → List α) (k : κ) : ∀ (ps : List (Piece κ α)) (i j : ℕ),
    (places v k i ps).length = (places w k j ps).length
  | [], _, _ => rfl
  | .plain s :: ps, i, j => length_places v w k ps _ _
  | .slot k' :: ps, i, j => by
    rw [places, places]
    split_ifs
    · exact congrArg (· + 1) (length_places v w k ps _ _)
    · exact length_places v w k ps _ _

/-! ### Filling all keys, one global replacement after another -/

/-- The valuation in which the keys of `done` are already filled with `w`. -/
def partly (v w : κ → List α) (done : List κ) (k : κ) : List α := if k ∈ done then w k else v k

/-- One pass of the filling: a key whose content is already right is skipped. -/
def fillStep (v w : κ → List α) (t : List α) (k : κ) : List α :=
  if v k = w k then t else replace (v k) (w k) t

omit [DecidableEq α] in
theorem partly_concat (v w : κ → List α) (done : List κ) (k : κ) :
    partly v w (done ++ [k]) = Function.update (partly v w done) k (w k) := by
  funext k'
  by_cases hk : k' = k
  · subst hk
    simp [partly]
  · simp [partly, hk]

theorem foldl_fill_partly {v w : κ → List α} {ps : List (Piece κ α)} : ∀ (ks done : List κ),
    (done ++ ks).Nodup →
    (∀ pre k post, ks = pre ++ k :: post → v k ≠ w k → v k ≠ [] ∧
      ∀ i ∈ hits (v k) (render (partly v w (done ++ pre)) ps), i ∈ places (partly v w (done ++ pre)) k 0 ps) →
      ks.foldl (fillStep v w) (render (partly v w done) ps) = render (partly v w (done ++ ks)) ps
  | [], done, _, _ => by simp
  | k :: ks, done, hnd, h => by
    have hstep : fillStep v w (render (partly v w done) ps) k = render (partly v w (done ++ [k])) ps := by
      have hkd : k ∉ done := fun hk => (List.nodup_append.mp hnd).2.2 k hk k List.mem_cons_self rfl
      have hvk : partly v w done k = v k := if_neg hkd
      unfold fillStep
      split_ifs with heq
      · refine render_congr (fun k' _ => ?_)
        rw [partly_concat]
        by_cases hk' : k' = k
        · subst hk'
          rw [Function.update_self, hvk, heq]
        · rw [Function.update_of_ne hk']
      · obtain ⟨hne, hhits⟩ := h [] k ks rfl heq
        rw [List.append_nil] at hhits
        rw [partly_concat, ← hvk]
        exact replace_render (by rw [hvk]; exact hne) (w k) (by rw [hvk]; exact hhits)
    rw [List.foldl_cons, hstep, foldl_fill_partly ks (done ++ [k]) (by simpa using hnd), List.append_assoc,
      List.singleton_append]
    intro pre k' post hks hne
    have := h (k :: pre) k' post (by rw [hks, List.cons_append]) hne
    rwa [← List.singleton_append, ← List.append_assoc] at this

/-- **Filling every key.**  If at each pass the search stops only at the slots of the key it is for, the
passes over `ks` turn the text of `v` into the text of `w`. -/
theorem foldl_fill_render {v w : κ → List α} {ps : List (Piece κ α)} {ks : List κ} (hnd : ks.Nodup)
    (hks : ∀ k, .slot k ∈ ps → k ∈ ks)
    (h : ∀ pre k post, ks = pre ++ k :: post → v k ≠ w k → v k ≠ [] ∧
      ∀ i ∈ hits (v k) (render (partly v w pre) ps), i ∈ places (partly v w pre) k 0 ps) :
    ks.foldl (fillStep v w) (render v ps) = render w ps := by
  have h0 : render (partly v w []) ps = render v ps := render_congr (fun k _ => by simp [partly])
  rw [← h0, foldl_fill_partly ks [] (by simpa using hnd) (by simpa using h), List.nil_append]
  exact render_congr (fun k hk => if_pos (hks k hk))

/-! ### Contents that open with a marker -/

/-- A content `b :: u` is not met inside a front that has `b` at most as its first symbol and does not begin
with that content. -/
theorem hits_front_ge {b : α} {u x t : List α} (hb : b ∉ x.tail) (hx : ¬ b :: u <+: x ++ t ∨ x = []) :
    ∀ i ∈ hits (b :: u) (x ++ t), x.length ≤ i := by
  intro i hi
  by_contra hlt
  rw [not_le] at hlt
  have hpre := prefix_drop_of_mem_hits (List.cons_ne_nil b u) hi
  rcases hx with hx | rfl
  · cases i with
    | zero => exact hx hpre
    | succ i =>
      have hdrop : (x ++ t).drop (i + 1) = x.drop (i + 1) ++ t := List.drop_append_of_le_length hlt.le
      rw [hdrop, List.drop_eq_getElem_cons hlt, List.cons_append, List.cons_prefix_cons] at hpre
      refine hb ?_
      rw [hpre.1, List.mem_iff_getElem]
      exact ⟨i, by rw [List.length_tail]; omega, by rw [List.getElem_tail]⟩
  · simp at hlt

omit [DecidableEq α] in
/-- Words closed by a marker that they do not contain are prefixes of each other only if they are equal. -/
theorem eq_of_prefix_closed {c : α} : ∀ {u u' : List α}, c ∉ u → c ∉ u' → u ++ [c] <+: u' ++ [c] → u = u'
  | [], [], _, _, _ => rfl
  | [], d :: u', _, h', hp => by
    rw [List.nil_append, List.cons_append, List.cons_prefix_cons] at hp
    rw [hp.1] at h'
    exact absurd List.mem_cons_self h'
  | d :: u, [], h, _, hp => by
    rw [List.nil_append, List.cons_append, List.cons_prefix_cons] at hp
    rw [hp.1] at h
    exact absurd List.mem_cons_self h
  | d :: u, d' :: u', h, h', hp => by
    rw [List.cons_append, List.cons_append, List.cons_prefix_cons] at hp
    obtain ⟨rfl, hp⟩ := hp
    have hu : c ∉ u := fun hc => h (List.mem_cons_of_mem _ hc)
    have hu' : c ∉ u' := fun hc => h' (List.mem_cons_of_mem _ hc)
    rw [eq_of_prefix_closed hu hu' hp]

/-- **Marked contents are met only at their slots**: the content of `k` opens with the marker `b`, no plain
text contains `b`, and every other slot is free of `b` or holds marked text of which neither is a prefix of
the other. -/
theorem hits_subset_places {v : κ → List α} {k : κ} {b : α} {u : List α} (hk : v k = b :: u) :
    ∀ {ps : List (Piece κ α)}, (∀ s, .plain s ∈ ps → b ∉ s) →
    (∀ k', .slot k' ∈ ps → k' ≠ k → b ∉ v k' ∨
      (b ∉ (v k').tail ∧ ¬ v k <+: v k' ∧ ¬ v k' <+: v k)) →
      ∀ i ∈ hits (v k) (render v ps), i ∈ places v k 0 ps
  | [], _, _ => by simp [render]
  | .plain s :: ps, hpl, hsl => by
    have ih := hits_subset_places hk (fun s hs => hpl s (List.mem_cons_of_mem _ hs))
      (fun k' hk' => hsl k' (List.mem_cons_of_mem _ hk'))
    have hs := hpl s List.mem_cons_self
    have hge : ∀ i ∈ hits (v k) (s ++ render v ps), s.length ≤ i := by
      rw [hk]
      refine hits_front_ge (fun h => hs (List.mem_of_mem_tail h)) ?_
      cases s with
      | nil => exact Or.inr rfl
      | cons c s =>
        refine Or.inl (fun hp => hs ?_)
        rw [List.cons_append, List.cons_prefix_cons] at hp
        rw [hp.1]
        exact List.mem_cons_self
    intro i hi
    rw [render, hits_append hge] at hi
    obtain ⟨j, hj, rfl⟩ := List.mem_map.mp hi
    rw [places, places_shift, Nat.zero_add]
    exact List.mem_map_of_mem (ih j hj)
  | .slot k' :: ps, hpl, hsl => by
    have ih := hits_subset_places hk (fun s hs => hpl s (List.mem_cons_of_mem _ hs))
      (fun k' hk' => hsl k' (List.mem_cons_of_mem _ hk'))
    have hne : v k ≠ [] := by rw [hk]; exact List.cons_ne_nil b u
    intro i hi
    rw [places, places_shift, Nat.zero_add]
    by_cases hkk : k' = k
    · subst hkk
      rw [render, hits_self_append hne] at hi
      rw [if_pos rfl]
      rcases List.mem_cons.mp hi with rfl | hi
      · exact List.mem_cons_self
      · obtain ⟨j, hj, rfl⟩ := List.mem_map.mp hi
        exact List.mem_cons_of_mem _ (List.mem_map_of_mem (ih j hj))
    · have hge : ∀ i ∈ hits (v k) (v k' ++ render v ps), (v k').length ≤ i := by
        rcases hsl k' List.mem_cons_self hkk with hb | ⟨hb, hp, hp'⟩
        · rw [hk]
          refine hits_front_ge (fun h => hb (List.mem_of_mem_tail h)) ?_
          cases hv : v k' with
          | nil => exact Or.inr rfl
          | cons c s =>
            refine Or.inl (fun hp => hb ?_)
            rw [List.cons_append, List.cons_prefix_cons] at hp
            rw [hv, hp.1]
            exact List.mem_cons_self
        · rw [hk] at hp hp' ⊢
          refine hits_front_ge hb (Or.inl (fun hpre => ?_))
          rcases List.prefix_or_prefix_of_prefix hpre (List.prefix_append (v k') (render v ps)) with h | h
          · exact hp h
          · exact hp' h
      rw [render, hits_append hge] at hi
      obtain ⟨j, hj, rfl⟩ := List.mem_map.mp hi
      rw [if_neg hkk]
      exact List.mem_map_of_mem (ih j hj)

/-! ### Two contents in one text -/

section Two

variable (v w : κ → List α) (k k' : κ)

def cutAux : ℕ → List α → List (Piece κ α)
  | _, [] => []
  | n + 1, _ :: t => cutAux n t
  | 0, c :: t =>
    if v k <+: c :: t then .slot k :: cutAux ((v k).length - 1) t
    else if v k' <+: c :: t then .slot k' :: cutAux ((v k').length - 1) t
    else .plain [c] :: cutAux 0 t

/-- A text as a template with the slots `k` and `k'`, read from left to right. -/
def cut (t : List α) : List (Piece κ α) := cutAux v k k' 0 t

/-- The two contents can be replaced in either order: the searches for them stop at places of the text that do not
overlap, and each of them still stops at no other place when the other content has been replaced. -/
structure Apart (t : List α) : Prop where
  ne : v k ≠ []
  ne' : v k' ≠ []
  stops : ∀ i ∈ hits (v k) t, ∀ j ∈ hits (v k') t, i + (v k).length ≤ j ∨ j + (v k').length ≤ i
  inserted : ∀ i ∈ hits (v k) (render (Function.update v k' (w k')) (cut v k k' t)),
    i ∈ places (Function.update v k' (w k')) k 0 (cut v k k' t)
  inserted' : ∀ j ∈ hits (v k') (render (Function.update v k (w k)) (cut v k k' t)),
    j ∈ places (Function.update v k (w k)) k' 0 (cut v k k' t)

instance (t : List α) : Decidable (Apart v w k k' t) :=
  decidable_of_iff (v k ≠ [] ∧ v k' ≠ [] ∧
    (∀ i ∈ hits (v k) t, ∀ j ∈ hits (v k') t, i + (v k).length ≤ j ∨ j + (v k').length ≤ i) ∧
    (∀ i ∈ hits (v k) (render (Function.update v k' (w k')) (cut v k k' t)),
      i ∈ places (Function.update v k' (w k')) k 0 (cut v k k' t)) ∧
    ∀ j ∈ hits (v k') (render (Function.update v k (w k)) (cut v k k' t)),
      j ∈ places (Function.update v k (w k)) k' 0 (cut v k k' t))
    ⟨fun ⟨a, b, c, d, e⟩ => ⟨a, b, c, d, e⟩, fun ⟨a, b, c, d, e⟩ => ⟨a, b, c, d, e⟩⟩

variable {v w k k'}

omit [DecidableEq κ] in
theorem cutAux_skip : ∀ (u t : List α), cutAux v k k' u.length (u ++ t) = cutAux v k k' 0 t
  | [], _ => rfl
  | _ :: u, t => by
    rw [List.length_cons, List.cons_append, cutAux]
    exact cutAux_skip u t

omit [DecidableEq κ] in
theorem cut_self (hne : v k ≠ []) (t : List α) : cut v k k' (v k ++ t) = .slot k :: cut v k k' t := by
  have hskip : cutAux v k k' (v k).tail.length ((v k).tail ++ t) = cut v k k' t := cutAux_skip (v k).tail t
  obtain ⟨c, u, hcu⟩ := List.exists_cons_of_ne_nil hne
  have hp : v k <+: c :: (u ++ t) := by
    rw [hcu]
    exact List.prefix_append (c :: u) t
  rw [hcu, List.tail_cons] at hskip
  rw [← hskip, cut, hcu, List.cons_append, cutAux, if_pos hp, hcu, List.length_cons, Nat.add_sub_cancel]

omit [DecidableEq κ] in
theorem cut_other (hne : v k' ≠ []) {t : List α} (hp : ¬ v k <+: v k' ++ t) :
    cut v k k' (v k' ++ t) = .slot k' :: cut v k k' t := by
  have hskip : cutAux v k k' (v k').tail.length ((v k').tail ++ t) = cut v k k' t := cutAux_skip (v k').tail t
  obtain ⟨c, u, hcu⟩ := List.exists_cons_of_ne_nil hne
  have hp' : v k' <+: c :: (u ++ t) := by
    rw [hcu]
    exact List.prefix_append (c :: u) t
  rw [hcu, List.tail_cons] at hskip
  rw [hcu, List.cons_append] at hp
  rw [← hskip, cut, hcu, List.cons_append, cutAux, if_neg hp, if_pos hp', hcu, List.length_cons,
    Nat.add_sub_cancel]

omit [DecidableEq κ] in
theorem cut_skip {c : α} {t : List α} (hp : ¬ v k <+: c :: t) (hp' : ¬ v k' <+: c :: t) :
    cut v k k' (c :: t) = .plain [c] :: cut v k k' t := by
  rw [cut, cutAux, if_neg hp, if_neg hp', cut]

/-- **Stops that do not overlap** are the slots of the text that is cut at them. -/
theorem hits_cut (hne : v k ≠ []) (hne' : v k' ≠ []) (t : List α)
    (h : ∀ i ∈ hits (v k) t, ∀ j ∈ hits (v k') t, i + (v k).length ≤ j ∨ j + (v k').length ≤ i) :
    render v (cut v k k' t) = t ∧ (∀ i ∈ hits (v k) t, i ∈ places v k 0 (cut v k k' t)) ∧
      ∀ j ∈ hits (v k') t, j ∈ places v k' 0 (cut v k k' t) := by
  have hpos := List.length_pos_of_ne_nil hne
  have hpos' := List.length_pos_of_ne_nil hne'
  -- a slot or a symbol in front of the rest of the text
  have hfront : ∀ {l x : List ℕ} {n : ℕ}, (∀ i ∈ l, i ∈ x) → ∀ i ∈ l.map (· + n), i ∈ x.map (· + n) := by
    intro l x n hlx i hi
    obtain ⟨j, hj, rfl⟩ := List.mem_map.mp hi
    exact List.mem_map_of_mem (hlx j hj)
  induction hn : t.length using Nat.strong_induction_on generalizing t with | _ n ih
  subst hn
  by_cases hp : v k <+: t
  · obtain ⟨u, rfl⟩ := hp
    have hself := hits_self_append hne u
    have hother : hits (v k') (v k ++ u) = (hits (v k') u).map (· + (v k).length) := by
      refine hits_append ?_
      intro j hj
      have := h 0 (by rw [hself]; exact List.mem_cons_self) j hj
      omega
    rw [hself, hother] at h
    obtain ⟨hrender, hk, hk'⟩ := ih u.length (by rw [List.length_append]; omega) u (fun i hi j hj => by
      have := h _ (List.mem_cons_of_mem _ (List.mem_map_of_mem hi)) _ (List.mem_map_of_mem hj)
      omega) rfl
    rw [cut_self hne, render, hrender, hself, hother]
    refine ⟨rfl, ?_, ?_⟩
    · intro i hi
      rw [places, if_pos rfl, places_shift, Nat.zero_add]
      rcases List.mem_cons.mp hi with rfl | hi
      · exact List.mem_cons_self
      · exact List.mem_cons_of_mem _ (hfront hk i hi)
    · intro j hj
      rw [places, places_shift, Nat.zero_add]
      split_ifs
      · exact List.mem_cons_of_mem _ (hfront hk' j hj)
      · exact hfront hk' j hj
  · by_cases hp' : v k' <+: t
    · obtain ⟨u, rfl⟩ := hp'
      have hself := hits_self_append hne' u
      have hother : hits (v k) (v k' ++ u) = (hits (v k) u).map (· + (v k').length) := by
        refine hits_append ?_
        intro i hi
        have := h i hi 0 (by rw [hself]; exact List.mem_cons_self)
        omega
      rw [hself, hother] at h
      obtain ⟨hrender, hk, hk'⟩ := ih u.length (by rw [List.length_append]; omega) u (fun i hi j hj => by
        have := h _ (List.mem_map_of_mem hi) _ (List.mem_cons_of_mem _ (List.mem_map_of_mem hj))
        omega) rfl
      rw [cut_other hne' hp, render, hrender, hself, hother]
      refine ⟨rfl, ?_, ?_⟩
      · intro i hi
        rw [places, places_shift, Nat.zero_add]
        split_ifs
        · exact List.mem_cons_of_mem _ (hfront hk i hi)
        · exact hfront hk i hi
      · intro j hj
        rw [places, if_pos rfl, places_shift, Nat.zero_add]
        rcases List.mem_cons.mp hj with rfl | hj
        · exact List.mem_cons_self
        · exact List.mem_cons_of_mem _ (hfront hk' j hj)
    · cases t with
      | nil => exact ⟨rfl, nofun, nofun⟩
      | cons c u =>
        rw [hits_cons_skip hp, hits_cons_skip hp'] at h
        obtain ⟨hrender, hk, hk'⟩ := ih u.length (Nat.lt_succ_self _) u (fun i hi j hj => by
          have := h _ (List.mem_map_of_mem hi) _ (List.mem_map_of_mem hj)
          omega) rfl
        rw [cut_skip hp hp', render, hrender, hits_cons_skip hp, hits_cons_skip hp', places, places, Nat.zero_add,
          places_shift v k, places_shift v k']
        exact ⟨rfl, hfront hk, hfront hk'⟩

end Two

end Template
