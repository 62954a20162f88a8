import Mathlib.Data.List.Basic
import Mathlib.Data.List.Infix

/-!
# PdMasking.Lib.TextSearch — left-to-right substring search over any alphabet

`hits old t` are the offsets at which a left-to-right search for the non-overlapping occurrences of `old` in
`t` stops; `replace` and `count` do what the string methods of that name do.  The counter `k` of the
auxiliary functions is the number of symbols of the current occurrence still to be skipped.

Main rules: `replace_self_append` (an occurrence at the front), `replace_append` and `hits_append` (a front
without a hit is copied), `hits_nil_iff`, `search_induction`; for a replacement of the same length
`getElem?_replace_of_hit` and `getElem?_replace_of_not_hit`.
-/

namespace TextSearch

variable {α : Type*} [DecidableEq α]

def hitsAux (old : List α) : ℕ → ℕ → List α → List ℕ
  | _, _, [] => []
  | k + 1, i, _ :: t => hitsAux old k (i + 1) t
  | 0, i, c :: t =>
    if old <+: c :: t then i :: hitsAux old (old.length - 1) (i + 1) t else hitsAux old 0 (i + 1) t

/-- The offsets of the occurrences of `old` met from left to right, each search resuming behind the last hit. -/
def hits (old t : List α) : List ℕ := hitsAux old 0 0 t

def replaceAux (old new : List α) : ℕ → List α → List α
  | _, [] => []
  | k + 1, _ :: t => replaceAux old new k t
  | 0, c :: t =>
    if old <+: c :: t then new ++ replaceAux old new (old.length - 1) t else c :: replaceAux old new 0 t

/-- Every hit of `old` replaced by `new`; an empty `old` is found before every symbol and at the end. -/
def replace (old new t : List α) : List α :=
  if old = [] then new ++ t.flatMap (fun c => c :: new) else replaceAux old new 0 t

/-- The number of non-overlapping occurrences of `old`. -/
def count (old t : List α) : ℕ := if old = [] then t.length + 1 else (hits old t).length

/-! ### Hits -/

theorem hitsAux_shift (old : List α) : ∀ (t : List α) (k i : ℕ),
    hitsAux old k i t = (hitsAux old k 0 t).map (· + i)
  | [], k, i => by cases k <;> rfl
  | c :: t, k + 1, i => by
    rw [hitsAux, hitsAux, hitsAux_shift old t k (i + 1), hitsAux_shift old t k (0 + 1), List.map_map]
    exact List.map_congr_left (fun x _ => by simp only [Function.comp_apply]; omega)
  | c :: t, 0, i => by
    rw [hitsAux, hitsAux]
    split_ifs with h
    · rw [hitsAux_shift old t _ (i + 1), hitsAux_shift old t _ (0 + 1), List.map_cons, List.map_map,
        Nat.zero_add]
      exact congrArg _ (List.map_congr_left (fun x _ => by simp only [Function.comp_apply]; omega))
    · rw [hitsAux_shift old t 0 (i + 1), hitsAux_shift old t 0 (0 + 1), List.map_map]
      exact List.map_congr_left (fun x _ => by simp only [Function.comp_apply]; omega)

theorem hitsAux_skip (old : List α) : ∀ (u t : List α) (i : ℕ),
    hitsAux old u.length i (u ++ t) = hitsAux old 0 (i + u.length) t
  | [], _, _ => rfl
  | c :: u, t, i => by
    rw [List.length_cons, List.cons_append, hitsAux, hitsAux_skip old u t (i + 1)]
    congr 1
    omega

@[simp] theorem hits_nil (old : List α) : hits old [] = [] := rfl

theorem hits_cons_skip {old : List α} {c : α} {t : List α} (h : ¬ old <+: c :: t) :
    hits old (c :: t) = (hits old t).map (· + 1) := by
  rw [hits, hitsAux, if_neg h, hitsAux_shift]
  rfl

/-- An occurrence at the front is the first hit; the search resumes behind it. -/
theorem hits_self_append {old : List α} (h : old ≠ []) (t : List α) :
    hits old (old ++ t) = 0 :: (hits old t).map (· + old.length) := by
  obtain ⟨c, u, rfl⟩ := List.exists_cons_of_ne_nil h
  have hp : c :: u <+: c :: (u ++ t) := List.prefix_append (c :: u) t
  rw [hits, List.cons_append, hitsAux, if_pos hp, List.length_cons, Nat.add_sub_cancel, hitsAux_skip,
    hitsAux_shift]
  simp only [hits, Nat.zero_add, Nat.add_comm 1]

/-- A front without a hit only shifts the hits. -/
theorem hits_append {old : List α} : ∀ {u t : List α}, (∀ i ∈ hits old (u ++ t), u.length ≤ i) →
    hits old (u ++ t) = (hits old t).map (· + u.length)
  | [], t, _ => by simp
  | c :: u, t, h => by
    by_cases hp : old <+: c :: (u ++ t)
    · have h0 : 0 ∈ hits old (c :: u ++ t) := by
        rw [hits, List.cons_append, hitsAux, if_pos hp]
        exact List.mem_cons_self
      exact absurd (h 0 h0) (by simp)
    · have hstep := hits_cons_skip hp
      rw [List.cons_append] at h ⊢
      have hu : ∀ i ∈ hits old (u ++ t), u.length ≤ i := fun i hi => by
        have := h (i + 1) (by rw [hstep]; exact List.mem_map_of_mem hi)
        simpa using this
      rw [hstep, hits_append hu, List.map_map]
      exact List.map_congr_left (fun x _ => by simp only [Function.comp_apply, List.length_cons]; omega)

theorem prefix_drop_of_mem_hits {old : List α} : ∀ {t : List α} {i : ℕ}, old ≠ [] → i ∈ hits old t →
    old <+: t.drop i
  | t, i, hne, h => by
    suffices H : ∀ (t : List α) (k i : ℕ), i ∈ hitsAux old k 0 t → old <+: t.drop i from H t 0 i h
    intro t
    induction t with
    | nil => intro k i h; cases k <;> simp [hitsAux] at h
    | cons c t ih =>
      intro k i h
      cases k with
      | succ k =>
        rw [hitsAux, hitsAux_shift] at h
        obtain ⟨j, hj, rfl⟩ := List.mem_map.mp h
        exact ih k j hj
      | zero =>
        rw [hitsAux] at h
        split_ifs at h with hp
        · rcases List.mem_cons.mp h with rfl | h
          · exact hp
          · rw [hitsAux_shift] at h
            obtain ⟨j, hj, rfl⟩ := List.mem_map.mp h
            exact ih _ j hj
        · rw [hitsAux_shift] at h
          obtain ⟨j, hj, rfl⟩ := List.mem_map.mp h
          exact ih _ j hj

/-- The search stops somewhere iff there is an occurrence. -/
theorem hits_nil_iff {old : List α} (hne : old ≠ []) : ∀ {t : List α}, hits old t = [] ↔ ¬ old <:+: t
  | [] => by simp [hne]
  | c :: t => by
    by_cases hp : old <+: c :: t
    · obtain ⟨u, hu⟩ := hp
      rw [← hu, hits_self_append hne]
      simp [(List.prefix_append old u).isInfix]
    · rw [hits_cons_skip hp, List.map_eq_nil_iff, hits_nil_iff hne, List.infix_cons_iff]
      simp [hp]

/-! ### Replacement -/

theorem replaceAux_skip (old new : List α) : ∀ (u t : List α),
    replaceAux old new u.length (u ++ t) = replaceAux old new 0 t
  | [], _ => rfl
  | _ :: u, t => by
    rw [List.length_cons, List.cons_append, replaceAux]
    exact replaceAux_skip old new u t

/-- An occurrence at the front is replaced. -/
theorem replace_self_append {old : List α} (h : old ≠ []) (new t : List α) :
    replace old new (old ++ t) = new ++ replace old new t := by
  rw [replace, if_neg h, replace, if_neg h]
  obtain ⟨c, u, rfl⟩ := List.exists_cons_of_ne_nil h
  have hp : c :: u <+: c :: (u ++ t) := List.prefix_append (c :: u) t
  rw [List.cons_append, replaceAux, if_pos hp, List.length_cons, Nat.add_sub_cancel, replaceAux_skip]

theorem replace_cons_skip {old : List α} (hne : old ≠ []) (new : List α) {c : α} {t : List α}
    (h : ¬ old <+: c :: t) : replace old new (c :: t) = c :: replace old new t := by
  rw [replace, if_neg hne, replace, if_neg hne, replaceAux, if_neg h]

@[simp] theorem replace_nil {old : List α} (hne : old ≠ []) (new : List α) : replace old new [] = [] := by
  rw [replace, if_neg hne]
  rfl

/-- A front without a hit is copied. -/
theorem replace_append {old : List α} (hne : old ≠ []) (new : List α) : ∀ {u t : List α},
    (∀ i ∈ hits old (u ++ t), u.length ≤ i) → replace old new (u ++ t) = u ++ replace old new t
  | [], _, _ => rfl
  | c :: u, t, h => by
    by_cases hp : old <+: c :: (u ++ t)
    · have h0 : 0 ∈ hits old (c :: u ++ t) := by
        rw [hits, List.cons_append, hitsAux, if_pos hp]
        exact List.mem_cons_self
      exact absurd (h 0 h0) (by simp)
    · have hu : ∀ i ∈ hits old (u ++ t), u.length ≤ i := fun i hi => by
        have := h (i + 1) (by
          rw [List.cons_append, hits_cons_skip hp]
          exact List.mem_map_of_mem hi)
        simpa using this
      rw [List.cons_append, replace_cons_skip hne new hp, replace_append hne new hu, List.cons_append]

theorem replace_eq_self {old t : List α} (hne : old ≠ []) (new : List α) (h : ¬ old <:+: t) :
    replace old new t = t := by
  have hnil : hits old t = [] := (hits_nil_iff hne).mpr h
  have := replace_append (u := t) (t := []) hne new (by rw [List.append_nil, hnil]; simp)
  rwa [List.append_nil, replace_nil hne, List.append_nil] at this

/-! ### Position by position -/

/-- **Induction along the search**: the text ends, the search stops at its front, or it goes on behind the first
symbol. -/
theorem search_induction {old : List α} (hne : old ≠ []) {C : List α → Prop} (nil : C [])
    (stop : ∀ t, C t → C (old ++ t)) (skip : ∀ c t, ¬ old <+: c :: t → C t → C (c :: t)) : ∀ t, C t
  | [] => nil
  | c :: t => by
    by_cases hp : old <+: c :: t
    · obtain ⟨u, hu⟩ := hp
      have hlen : u.length < (c :: t).length := by
        have := List.length_pos_of_ne_nil hne
        rw [← hu, List.length_append]
        omega
      rw [← hu]
      exact stop u (search_induction hne nil stop skip u)
    · exact skip c t hp (search_induction hne nil stop skip t)
  termination_by t => t.length
  decreasing_by
    · exact hlen
    · exact Nat.lt_succ_self t.length

/-- The length of the result, counted from the number of stops. -/
theorem length_replace {old : List α} (hne : old ≠ []) (new t : List α) :
    (replace old new t).length + (hits old t).length * old.length =
      t.length + (hits old t).length * new.length := by
  induction t using search_induction hne with
  | nil => simp [hne]
  | stop t ih =>
    rw [hits_self_append hne, replace_self_append hne, List.length_append, List.length_append, List.length_cons,
      List.length_map, Nat.add_mul, Nat.add_mul]
    omega
  | skip c t hp ih =>
    rw [hits_cons_skip hp, replace_cons_skip hne new hp, List.length_cons, List.length_cons, List.length_map]
    omega

/-- **What is put in place of an occurrence can be read off the result.** -/
theorem replace_inj {old new new' : List α} (hne : old ≠ []) : ∀ {t : List α}, old <:+: t →
    replace old new t = replace old new' t → new = new' := by
  suffices H : new.length = new'.length → ∀ t, hits old t ≠ [] → replace old new t = replace old new' t →
      new = new' by
    intro t hin heq
    have hsome : hits old t ≠ [] := fun hnil => (hits_nil_iff hne).mp hnil hin
    refine H ?_ t hsome heq
    have hlen := length_replace hne new t
    have hlen' := length_replace hne new' t
    rw [heq] at hlen
    have hmul : (hits old t).length * new.length = (hits old t).length * new'.length := by omega
    exact Nat.eq_of_mul_eq_mul_left (List.length_pos_iff.mpr hsome) hmul
  intro hlen t
  induction t using search_induction hne with
  | nil =>
    intro h
    exact absurd rfl h
  | stop t ih =>
    intro _ heq
    rw [replace_self_append hne, replace_self_append hne] at heq
    exact (List.append_inj heq hlen).1
  | skip c t hp ih =>
    intro hsome heq
    rw [hits_cons_skip hp] at hsome
    rw [replace_cons_skip hne new hp, replace_cons_skip hne new' hp] at heq
    exact ih (fun hnil => hsome (by rw [hnil, List.map_nil])) (List.cons.inj heq).2

section SameLength

variable {old new : List α} (hne : old ≠ []) (hlen : new.length = old.length)

include hne

/-- At a hit the text reads `old`. -/
theorem getElem?_of_hit {t : List α} {i j : ℕ} (hj : j ∈ hits old t) (hi : i < old.length) :
    t[j + i]? = old[i]? := by
  obtain ⟨u, hu⟩ := prefix_drop_of_mem_hits hne hj
  rw [← List.getElem?_drop, ← hu, List.getElem?_append_left hi]

include hlen

/-- At a hit the result reads `new`. -/
theorem getElem?_replace_of_hit (t : List α) : ∀ {i j : ℕ}, j ∈ hits old t → i < old.length →
    (replace old new t)[j + i]? = new[i]? := by
  induction t using search_induction hne with
  | nil =>
    intro i j hj
    simp at hj
  | stop t ih =>
    intro i j hj hi
    rw [hits_self_append hne] at hj
    rw [replace_self_append hne]
    rcases List.mem_cons.mp hj with rfl | hj
    · rw [Nat.zero_add, List.getElem?_append_left (by omega)]
    · obtain ⟨j', hj', rfl⟩ := List.mem_map.mp hj
      rw [List.getElem?_append_right (by omega), ← ih hj' hi]
      congr 1
      omega
  | skip c t hp ih =>
    intro i j hj hi
    rw [hits_cons_skip hp] at hj
    obtain ⟨j', hj', rfl⟩ := List.mem_map.mp hj
    rw [replace_cons_skip hne new hp, Nat.add_right_comm, List.getElem?_cons_succ]
    exact ih hj' hi

/-- Away from the hits the result reads as the text. -/
theorem getElem?_replace_of_not_hit (t : List α) : ∀ {i : ℕ}, (∀ j ∈ hits old t, i < j ∨ j + old.length ≤ i) →
    (replace old new t)[i]? = t[i]? := by
  induction t using search_induction hne with
  | nil =>
    intro i _
    rw [replace_nil hne]
  | stop t ih =>
    intro i h
    rw [hits_self_append hne] at h
    have h0 := h 0 List.mem_cons_self
    have hi : old.length ≤ i := by omega
    rw [replace_self_append hne, List.getElem?_append_right (by omega), List.getElem?_append_right hi, hlen]
    refine ih ?_
    intro j hj
    have := h (j + old.length) (List.mem_cons_of_mem _ (List.mem_map_of_mem hj))
    omega
  | skip c t hp ih =>
    intro i h
    rw [hits_cons_skip hp] at h
    rw [replace_cons_skip hne new hp]
    cases i with
    | zero => rfl
    | succ i =>
      rw [List.getElem?_cons_succ, List.getElem?_cons_succ]
      refine ih ?_
      intro j hj
      have := h (j + 1) (List.mem_map_of_mem hj)
      omega

end SameLength

/-! ### Counting -/

/-- `count` is positive exactly when there is an occurrence. -/
theorem count_pos_iff {old t : List α} : 0 < count old t ↔ old <:+: t := by
  unfold count
  by_cases hne : old = []
  · subst hne
    simp
  · rw [if_neg hne, List.length_pos_iff, ne_eq, hits_nil_iff hne, not_not]

end TextSearch
