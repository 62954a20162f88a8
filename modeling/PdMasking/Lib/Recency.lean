import Mathlib.Data.Finset.Card
import Mathlib.Data.List.Nodup

/-!
# PdMasking.Lib.Recency — a bounded store that forgets the entries written longest ago

A log of writes and the entries kept of it are lists of keys with values, newest first.

* `newest k l`: the newest entry of a key; `above k l`: the keys with an entry above it.
* `recent l`: the newest entry of each key.
* `Kept n p log kept`: of the live entries (`p`), `kept` has the `n` most recent ones.  It survives writes
  (`kept_push`), the removal of dead entries (`kept_remove`) and the death of entries (`kept_mono`).
* `newest_of_kept`: a live entry is kept iff fewer than `n` keys are above it.
-/

namespace PdMasking.Recency

variable {κ α : Type*} [DecidableEq κ]

/-- The entries of the other keys. -/
def without (k : κ) (l : List (κ × α)) : List (κ × α) := l.filter (fun x => x.1 ≠ k)

/-- The newest entry of each key, newest first. -/
def recent : List (κ × α) → List (κ × α)
  | [] => []
  | x :: l => x :: without x.1 (recent l)

/-- The newest entry of a key. -/
def newest (k : κ) (l : List (κ × α)) : Option (κ × α) := l.find? (fun x => x.1 = k)

/-- The keys with an entry above the newest one of `k`. -/
def above (k : κ) (l : List (κ × α)) : Finset κ := ((l.takeWhile (fun x => x.1 ≠ k)).map Prod.fst).toFinset

/-! ### The newest entry of each key -/

section Recent

theorem mem_without {k : κ} {l : List (κ × α)} {x : κ × α} : x ∈ without k l ↔ x ∈ l ∧ x.1 ≠ k := by
  unfold without
  rw [List.mem_filter]
  simp

theorem without_sublist (k : κ) (l : List (κ × α)) : (without k l).Sublist l := List.filter_sublist

theorem without_eq_self {k : κ} {l : List (κ × α)} (h : ∀ x ∈ l, x.1 ≠ k) : without k l = l := by
  unfold without
  rw [List.filter_eq_self]
  intro x hx
  simpa using h x hx

theorem without_append (k : κ) (l l' : List (κ × α)) : without k (l ++ l') = without k l ++ without k l' :=
  List.filter_append l l'

theorem recent_sublist : ∀ l : List (κ × α), (recent l).Sublist l
  | [] => List.Sublist.refl []
  | x :: l => ((without_sublist x.1 (recent l)).trans (recent_sublist l)).cons_cons x

theorem nodup_keys_without {k : κ} {l : List (κ × α)} (h : (l.map Prod.fst).Nodup) :
    ((without k l).map Prod.fst).Nodup :=
  h.sublist ((without_sublist k l).map Prod.fst)

theorem nodup_keys_push {k : κ} {a : α} {l : List (κ × α)} (h : (l.map Prod.fst).Nodup) :
    (((k, a) :: without k l).map Prod.fst).Nodup := by
  rw [List.map_cons, List.nodup_cons]
  refine ⟨?_, nodup_keys_without h⟩
  intro hmem
  simp only [List.mem_map, mem_without] at hmem
  obtain ⟨_, ⟨-, hne⟩, hk⟩ := hmem
  exact hne hk

theorem nodup_keys_recent : ∀ l : List (κ × α), ((recent l).map Prod.fst).Nodup
  | [] => List.nodup_nil
  | _ :: l => nodup_keys_push (nodup_keys_recent l)

@[simp] theorem newest_nil (k : κ) : newest k ([] : List (κ × α)) = none := rfl

theorem newest_cons_self {k : κ} {x : κ × α} (l : List (κ × α)) (h : x.1 = k) : newest k (x :: l) = some x := by
  simp [newest, h]

theorem newest_cons_of_ne {k : κ} {x : κ × α} (l : List (κ × α)) (h : x.1 ≠ k) : newest k (x :: l) = newest k l := by
  simp [newest, h]

theorem newest_some {k : κ} {l : List (κ × α)} {x : κ × α} (h : newest k l = some x) : x ∈ l ∧ x.1 = k := by
  refine ⟨List.mem_of_find?_eq_some h, ?_⟩
  simpa using List.find?_some h

theorem newest_eq_none {k : κ} {l : List (κ × α)} (h : newest k l = none) : ∀ x ∈ l, x.1 ≠ k := by
  intro x hx
  simpa using List.find?_eq_none.mp h x hx

/-- When no key comes twice, the order does not matter. -/
theorem newest_reverse {k : κ} {l : List (κ × α)} (h : (l.map Prod.fst).Nodup) :
    newest k l.reverse = newest k l := by
  rcases hx : newest k l with _ | x
  · rcases hy : newest k l.reverse with _ | y
    · rfl
    · obtain ⟨hmem, hk⟩ := newest_some hy
      exact absurd hk (newest_eq_none hx y (List.mem_reverse.mp hmem))
  · obtain ⟨hmem, hk⟩ := newest_some hx
    rcases hy : newest k l.reverse with _ | y
    · exact absurd hk (newest_eq_none hy x (List.mem_reverse.mpr hmem))
    · obtain ⟨hmem', hk'⟩ := newest_some hy
      exact congrArg some
        (List.inj_on_of_nodup_map h (List.mem_reverse.mp hmem') hmem (hk'.trans hk.symm))

/-- A change of the values keeps the entries where they are. -/
theorem newest_map {β : Type*} {f : κ × α → κ × β} (hf : ∀ x, (f x).1 = x.1) (k : κ) :
    ∀ l : List (κ × α), newest k (l.map f) = (newest k l).map f
  | [] => rfl
  | x :: l => by
    rw [List.map_cons]
    by_cases hk : x.1 = k
    · rw [newest_cons_self _ hk, newest_cons_self _ ((hf x).trans hk)]
      rfl
    · rw [newest_cons_of_ne _ hk, newest_cons_of_ne _ (by rw [hf]; exact hk), newest_map hf k l]

theorem newest_without_of_ne {k k' : κ} (h : k ≠ k') : ∀ l : List (κ × α), newest k (without k' l) = newest k l
  | [] => rfl
  | x :: l => by
    unfold without
    by_cases hx : x.1 = k'
    · have hne : x.1 ≠ k := fun hk => h (hk.symm.trans hx)
      rw [List.filter_cons_of_neg (by simpa using hx), newest_cons_of_ne l hne]
      exact newest_without_of_ne h l
    · rw [List.filter_cons_of_pos (by simpa using hx)]
      by_cases hk : x.1 = k
      · rw [newest_cons_self _ hk, newest_cons_self _ hk]
      · rw [newest_cons_of_ne _ hk, newest_cons_of_ne _ hk]
        exact newest_without_of_ne h l

theorem newest_recent (k : κ) : ∀ l : List (κ × α), newest k (recent l) = newest k l
  | [] => rfl
  | x :: l => by
    rw [recent]
    by_cases hk : x.1 = k
    · rw [newest_cons_self _ hk, newest_cons_self _ hk]
    · rw [newest_cons_of_ne _ hk, newest_cons_of_ne _ hk, newest_without_of_ne (Ne.symm hk), newest_recent k l]

theorem takeWhile_without {k k' : κ} (h : k ≠ k') : ∀ l : List (κ × α),
    (without k' l).takeWhile (fun x => x.1 ≠ k) = without k' (l.takeWhile (fun x => x.1 ≠ k))
  | [] => rfl
  | x :: l => by
    have ih := takeWhile_without h l
    unfold without at ih ⊢
    by_cases hk : x.1 = k
    · have hne : x.1 ≠ k' := fun hk' => h (hk.symm.trans hk')
      rw [List.filter_cons_of_pos (by simpa using hne), List.takeWhile_cons_of_neg (by simpa using hk),
        List.takeWhile_cons_of_neg (by simpa using hk)]
      rfl
    · rw [List.takeWhile_cons_of_pos (by simpa using hk)]
      by_cases hx : x.1 = k'
      · rw [List.filter_cons_of_neg (by simpa using hx), List.filter_cons_of_neg (by simpa using hx), ih]
      · rw [List.filter_cons_of_pos (by simpa using hx), List.filter_cons_of_pos (by simpa using hx),
          List.takeWhile_cons_of_pos (by simpa using hk), ih]

theorem above_cons_of_ne {k : κ} {x : κ × α} (l : List (κ × α)) (h : x.1 ≠ k) :
    above k (x :: l) = insert x.1 (above k l) := by
  unfold above
  rw [List.takeWhile_cons_of_pos (by simpa using h), List.map_cons, List.toFinset_cons]

theorem above_cons_self {k : κ} {x : κ × α} (l : List (κ × α)) (h : x.1 = k) : above k (x :: l) = ∅ := by
  unfold above
  rw [List.takeWhile_cons_of_neg (by simpa using h)]
  rfl

theorem above_map {β : Type*} {f : κ × α → κ × β} (hf : ∀ x, (f x).1 = x.1) (k : κ) :
    ∀ l : List (κ × α), above k (l.map f) = above k l
  | [] => rfl
  | x :: l => by
    rw [List.map_cons]
    by_cases hk : x.1 = k
    · rw [above_cons_self _ hk, above_cons_self _ ((hf x).trans hk)]
    · rw [above_cons_of_ne _ hk, above_cons_of_ne _ (by rw [hf]; exact hk), above_map hf k l, hf]

/-- The keys above an entry are the same in the log and among the newest entries. -/
theorem above_recent (k : κ) : ∀ l : List (κ × α), above k (recent l) = above k l
  | [] => rfl
  | x :: l => by
    rw [recent]
    by_cases hk : x.1 = k
    · rw [above_cons_self _ hk, above_cons_self _ hk]
    · rw [above_cons_of_ne _ hk, above_cons_of_ne _ hk, ← above_recent k l]
      unfold above
      rw [takeWhile_without (Ne.symm hk)]
      ext k'
      simp only [Finset.mem_insert, List.mem_toFinset, List.mem_map, mem_without]
      constructor
      · rintro (rfl | ⟨y, ⟨hy, -⟩, rfl⟩)
        · exact Or.inl rfl
        · exact Or.inr ⟨y, hy, rfl⟩
      · rintro (rfl | ⟨y, hy, rfl⟩)
        · exact Or.inl rfl
        · by_cases hyx : y.1 = x.1
          · exact Or.inl hyx
          · exact Or.inr ⟨y, ⟨hy, hyx⟩, rfl⟩

/-- When no key comes twice, the keys above an entry are as many as the entries above it. -/
theorem card_above {k : κ} {l : List (κ × α)} (h : (l.map Prod.fst).Nodup) :
    (above k l).card = (l.takeWhile (fun x => x.1 ≠ k)).length := by
  unfold above
  rw [List.toFinset_card_of_nodup, List.length_map]
  exact h.sublist ((List.takeWhile_sublist _).map Prod.fst)

end Recent

/-! ### Live entries -/

section Live

variable {p : κ × α → Bool}

/-- Under a live entry there are live and dead ones, above it live ones only. -/
def Downward (p : κ × α → Bool) (l : List (κ × α)) : Prop := l.Pairwise (fun x y => p y = true → p x = true)

omit [DecidableEq κ] in
theorem filter_eq_nil_of_downward {x : κ × α} {l : List (κ × α)} (h : Downward p (x :: l)) (hx : p x = false) :
    l.filter p = [] := by
  rw [List.filter_eq_nil_iff]
  intro y hy hpy
  have htrue := (List.pairwise_cons.mp h).1 y hy hpy
  rw [hx] at htrue
  cases htrue

omit [DecidableEq κ] in
/-- The most recent live entries are the live ones of the most recent entries. -/
theorem filter_take : ∀ {l : List (κ × α)} (n : ℕ), Downward p l → (l.take n).filter p = (l.filter p).take n
  | [], n, _ => by simp
  | x :: l, 0, _ => by simp
  | x :: l, n + 1, h => by
    rw [List.take_succ_cons]
    cases hx : p x with
    | true =>
      rw [List.filter_cons_of_pos hx, List.filter_cons_of_pos hx, List.take_succ_cons,
        filter_take n (List.pairwise_cons.mp h).2]
    | false =>
      have hnil := filter_eq_nil_of_downward h hx
      have hsub : (l.take n).filter p = [] := by
        have hsublist := (List.take_sublist n l).filter p
        rw [hnil] at hsublist
        exact List.eq_nil_of_sublist_nil hsublist
      rw [List.filter_cons_of_neg (by simp [hx]), List.filter_cons_of_neg (by simp [hx]), hnil, hsub, List.take_nil]

theorem filter_without (k : κ) (l : List (κ × α)) : (without k l).filter p = without k (l.filter p) := by
  unfold without
  rw [List.filter_filter, List.filter_filter]
  refine List.filter_congr ?_
  intro x _
  rw [Bool.and_comm]

theorem newest_filter {k : κ} : ∀ {l : List (κ × α)}, (l.map Prod.fst).Nodup →
    newest k (l.filter p) = (newest k l).filter p
  | [], _ => rfl
  | x :: l, h => by
    rw [List.map_cons, List.nodup_cons] at h
    have ih := newest_filter (k := k) h.2
    by_cases hk : x.1 = k
    · -- no other entry has the key
      have hnone : newest k l = none := by
        rcases hl : newest k l with _ | y
        · rfl
        · obtain ⟨hy, hyk⟩ := newest_some hl
          exact absurd (hk.trans hyk.symm ▸ List.mem_map_of_mem hy) h.1
      rw [newest_cons_self l hk]
      cases hx : p x with
      | true =>
        rw [List.filter_cons_of_pos hx, newest_cons_self _ hk, Option.filter_some, if_pos hx]
      | false =>
        rw [List.filter_cons_of_neg (by simp [hx]), ih, hnone, Option.filter_some, if_neg (by simp [hx])]
        rfl
    · rw [newest_cons_of_ne l hk, ← ih]
      cases hx : p x with
      | true => rw [List.filter_cons_of_pos hx, newest_cons_of_ne _ hk]
      | false => rw [List.filter_cons_of_neg (by simp [hx])]

/-- Above a live entry nothing is dead. -/
theorem takeWhile_filter {k : κ} {x : κ × α} : ∀ {l : List (κ × α)}, Downward p l → newest k l = some x →
    p x = true → (l.filter p).takeWhile (fun x => x.1 ≠ k) = l.takeWhile (fun x => x.1 ≠ k)
  | [], _, h, _ => by cases h
  | y :: l, hdown, h, hx => by
    have hcons := List.pairwise_cons.mp hdown
    by_cases hk : y.1 = k
    · rw [newest_cons_self l hk] at h
      obtain rfl := Option.some.inj h
      rw [List.filter_cons_of_pos hx, List.takeWhile_cons_of_neg (by simpa using hk),
        List.takeWhile_cons_of_neg (by simpa using hk)]
    · rw [newest_cons_of_ne l hk] at h
      have hy : p y = true := hcons.1 x (newest_some h).1 hx
      rw [List.filter_cons_of_pos hy, List.takeWhile_cons_of_pos (by simpa using hk),
        List.takeWhile_cons_of_pos (by simpa using hk), takeWhile_filter hcons.2 h hx]

theorem newest_take {k : κ} : ∀ (n : ℕ) (l : List (κ × α)),
    newest k (l.take n) = if (l.takeWhile (fun x => x.1 ≠ k)).length < n then newest k l else none
  | 0, l => by simp
  | n + 1, [] => by simp
  | n + 1, x :: l => by
    rw [List.take_succ_cons]
    by_cases hk : x.1 = k
    · rw [newest_cons_self _ hk, newest_cons_self _ hk, List.takeWhile_cons_of_neg (by simpa using hk),
        if_pos (by simp)]
    · rw [newest_cons_of_ne _ hk, newest_cons_of_ne _ hk, List.takeWhile_cons_of_pos (by simpa using hk),
        newest_take n l, List.length_cons]
      simp only [Nat.add_lt_add_iff_right]

/-- Leaving out a key of one entry more than needed. -/
theorem take_without (k : κ) : ∀ (n : ℕ) {l : List (κ × α)}, (l.map Prod.fst).Nodup →
    (without k (l.take (n + 1))).take n = (without k l).take n
  | 0, l, _ => by simp
  | n + 1, [], _ => by simp [without]
  | n + 1, x :: l, h => by
    rw [List.map_cons, List.nodup_cons] at h
    rw [List.take_succ_cons]
    unfold without
    by_cases hk : x.1 = k
    · -- the other entries have other keys
      have hall : ∀ y ∈ l, y.1 ≠ k := by
        intro y hy hyk
        exact h.1 (hk.trans hyk.symm ▸ List.mem_map_of_mem hy)
      have htake : without k (l.take (n + 1)) = l.take (n + 1) :=
        without_eq_self (fun y hy => hall y (List.mem_of_mem_take hy))
      have hself : without k l = l := without_eq_self hall
      unfold without at htake hself
      rw [List.filter_cons_of_neg (by simpa using hk), List.filter_cons_of_neg (by simpa using hk), htake, hself,
        List.take_take, Nat.min_self]
    · have ih := take_without k n h.2
      unfold without at ih
      rw [List.filter_cons_of_pos (by simpa using hk), List.filter_cons_of_pos (by simpa using hk),
        List.take_succ_cons, List.take_succ_cons, ih]

end Live

/-! ### The kept entries -/

section Kept

/-- Of the live entries, the `n` most recent ones are kept. -/
def Kept (n : ℕ) (p : κ × α → Bool) (log kept : List (κ × α)) : Prop :=
  kept.filter p = ((recent log).filter p).take n

variable {n : ℕ} {p : κ × α → Bool} {log kept : List (κ × α)}

/-- **A write.**  The new entry comes on top, and at most `n` entries stay. -/
theorem kept_push {k : κ} {a : α} (hn : 1 ≤ n) (h : Kept n p log kept)
    (hkept : Downward p ((k, a) :: without k kept)) (hlog : Downward p (recent ((k, a) :: log))) :
    Kept n p ((k, a) :: log) (((k, a) :: without k kept).take n) := by
  obtain ⟨m, rfl⟩ : ∃ m, n = m + 1 := ⟨n - 1, by omega⟩
  unfold Kept at h ⊢
  rw [filter_take _ hkept]
  rw [recent] at hlog ⊢
  cases hx : p (k, a) with
  | true =>
    have hnodup : (((recent log).filter p).map Prod.fst).Nodup :=
      (nodup_keys_recent log).sublist (List.filter_sublist.map Prod.fst)
    rw [List.filter_cons_of_pos hx, List.filter_cons_of_pos hx, List.take_succ_cons, List.take_succ_cons,
      filter_without, filter_without, h, take_without k m hnodup]
  | false =>
    rw [List.filter_cons_of_neg (by simp [hx]), List.filter_cons_of_neg (by simp [hx]),
      filter_eq_nil_of_downward hkept hx, filter_eq_nil_of_downward hlog hx]

/-- **The removal of a dead entry.** -/
theorem kept_remove {k : κ} (h : Kept n p log kept) (hdead : ∀ x ∈ kept, x.1 = k → p x = false) :
    Kept n p log (without k kept) := by
  unfold Kept at h ⊢
  rw [← h]
  unfold without
  rw [List.filter_filter]
  refine List.filter_congr ?_
  intro x hx
  by_cases hk : x.1 = k
  · rw [hdead x hx hk, Bool.false_and]
  · simp [hk]

/-- **Entries die.** -/
theorem kept_mono {q : κ × α → Bool} (h : Kept n p log kept) (hq : ∀ x, q x = true → p x = true)
    (hlog : Downward q (recent log)) : Kept n q log kept := by
  have hboth : ∀ l : List (κ × α), (l.filter p).filter q = l.filter q := by
    intro l
    rw [List.filter_filter]
    refine List.filter_congr ?_
    intro x _
    rw [Bool.and_eq_left_iff_imp]
    exact hq x
  unfold Kept at h ⊢
  rw [← hboth kept, h, filter_take n (hlog.sublist List.filter_sublist), hboth]

/-- **The law of retention**: the newest entry of a key is kept, as long as it is live, iff fewer than `n` keys
are above it. -/
theorem newest_of_kept (k : κ) (h : Kept n p log kept) (hkeys : (kept.map Prod.fst).Nodup)
    (hlog : Downward p (recent log)) :
    (newest k kept).filter p = if (above k log).card < n then (newest k log).filter p else none := by
  have hrecent : newest k ((recent log).filter p) = (newest k log).filter p := by
    rw [newest_filter (nodup_keys_recent log), newest_recent]
  rw [← newest_filter hkeys, h, newest_take, hrecent]
  rcases hx : newest k log with _ | x
  · simp
  · cases hp : p x with
    | true =>
      rw [takeWhile_filter hlog ((newest_recent k log).trans hx) hp, ← card_above (nodup_keys_recent log),
        above_recent]
    | false =>
      have hnone : (some x).filter p = none := by
        rw [Option.filter_some, hp]
        rfl
      rw [hnone]
      simp only [ite_self]

end Kept

end PdMasking.Recency
