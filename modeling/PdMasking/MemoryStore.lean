import Mathlib.Algebra.Order.Group.Nat
import Mathlib.Algebra.Order.Monoid.Unbundled.Basic
import PdMasking.Lib.Recency
import PdMasking.Store

/-!
# PdMasking.MemoryStore — the store in memory, with expiry and a bounded size (`storage/memory.py`)

The ordered dictionary is the list of its items, oldest first.  The clock is a linear order in which adding the
time to live is monotone; every call carries the times it reads, `put_if_absent` one for its `get` and one for
its `put`, and the nonce its `encode` draws.

* `MemoryStore.get`, `put`, `putIfAbsent`: the operations; `run`: a sequence of calls, with the log of the
  successful writes beside the store.
* `Inv`: what holds after every run, at the time `now`.
* `retention_law`: what `get` returns, in terms of the log alone.
-/

namespace PdMasking

open Recency

/-- `RecordCodec`: `encode` draws a nonce, `decode` may raise. -/
structure RecordCodec (Blob Nonce : Type) where
  encode : Nonce → Str → MappingRecord → Blob
  decode : Str → Blob → Except PyExc MappingRecord

/-- What is encoded under a key is decoded under it. -/
def RecordCodec.Lossless {Blob Nonce : Type} (codec : RecordCodec Blob Nonce) : Prop :=
  ∀ nonce key record, codec.decode key (codec.encode nonce key record) = .ok record

/-- The items of `_data`, oldest first: `(key, (expires_at, blob))`. -/
abbrev Items (T Blob : Type) := List (Str × (T × Blob))

/-- `_data[key] = value`. -/
def setItem {T Blob : Type} (data : Items T Blob) (key : Str) (value : T × Blob) : Items T Blob :=
  if ∃ x ∈ data, x.1 = key then data.map (fun x => if x.1 = key then (key, value) else x)
  else data ++ [(key, value)]

/-- `_data.move_to_end(key)`. -/
def moveToEnd {T Blob : Type} (data : Items T Blob) (key : Str) : Items T Blob :=
  without key data ++ data.filter (fun x => x.1 = key)

/-- `while len(_data) > max_items: _data.popitem(last=False)`. -/
def evict {T Blob : Type} (maxItems : ℕ) : Items T Blob → Items T Blob
  | [] => []
  | x :: data => if maxItems < (x :: data).length then evict maxItems data else x :: data

/-- `MemoryStore`, without its items. -/
structure MemoryStore (T Blob Nonce : Type) where
  codec : RecordCodec Blob Nonce
  ttl : T
  maxItems : ℕ

/-- A call of the store, with the times it reads and the nonce it draws. -/
inductive MemoryCall (T Nonce : Type)
  | get (key : Str) (t : T)
  | put (key : Str) (record : MappingRecord) (nonce : Nonce) (t : T)
  | putIfAbsent (key : Str) (record : MappingRecord) (nonce : Nonce) (t t' : T)

namespace MemoryCall

variable {T Nonce : Type}

def key : MemoryCall T Nonce → Str
  | get key _ => key
  | put key _ _ _ => key
  | putIfAbsent key _ _ _ _ => key

/-- The times in the order in which they are read. -/
def times : MemoryCall T Nonce → List T
  | get _ t => [t]
  | put _ _ _ t => [t]
  | putIfAbsent _ _ _ t t' => [t, t']

/-- The last of them. -/
def last : MemoryCall T Nonce → T
  | get _ t => t
  | put _ _ _ t => t
  | putIfAbsent _ _ _ _ t' => t'

theorem last_mem_times (call : MemoryCall T Nonce) : call.last ∈ call.times := by
  cases call with
  | get key t => exact List.mem_singleton_self t
  | put key record nonce t => exact List.mem_singleton_self t
  | putIfAbsent key record nonce t t' => exact List.mem_cons_of_mem _ (List.mem_singleton_self t')

end MemoryCall

namespace MemoryStore

variable {T Blob Nonce : Type} [LinearOrder T] [Add T] (S : MemoryStore T Blob Nonce)

/-- `get`. -/
def get (data : Items T Blob) (key : Str) (t : T) : Except PyExc (Option MappingRecord) × Items T Blob :=
  match data.find? (fun x => x.1 = key) with
  | none => (.ok none, data)
  | some (_, expiresAt, blob) =>
    if expiresAt < t then (.ok none, without key data) else ((S.codec.decode key blob).map some, data)

/-- `put`. -/
def put (data : Items T Blob) (key : Str) (record : MappingRecord) (nonce : Nonce) (t : T) : Items T Blob :=
  evict S.maxItems (moveToEnd (setItem data key (t + S.ttl, S.codec.encode nonce key record)) key)

/-- `put_if_absent`. -/
def putIfAbsent (data : Items T Blob) (key : Str) (record : MappingRecord) (nonce : Nonce) (t t' : T) :
    Except PyExc Bool × Items T Blob :=
  match S.get data key t with
  | (.error exc, data) => (.error exc, data)
  | (.ok (some _), data) => (.ok false, data)
  | (.ok none, data) => (.ok true, S.put data key record nonce t')

/-- The items and the log of the successful writes, newest first: `(key, (time, record))`. -/
abbrev Session (T Blob : Type) := Items T Blob × List (Str × (T × MappingRecord))

/-- One call. -/
def step (w : Session T Blob) : MemoryCall T Nonce → Session T Blob
  | .get key t => ((S.get w.1 key t).2, w.2)
  | .put key record nonce t => (S.put w.1 key record nonce t, (key, t, record) :: w.2)
  | .putIfAbsent key record nonce t t' =>
    match S.putIfAbsent w.1 key record nonce t t' with
    | (.ok true, data) => (data, (key, t', record) :: w.2)
    | (_, data) => (data, w.2)

/-- A sequence of calls on an empty store. -/
def run (calls : List (MemoryCall T Nonce)) : Session T Blob := calls.foldl S.step ([], [])

/-! ### What the operations do to the list of items -/

section Items

omit [LinearOrder T] [Add T]

theorem evict_eq (n : ℕ) : ∀ data : Items T Blob, evict n data = data.drop (data.length - n)
  | [] => by rw [evict, List.drop_nil]
  | x :: data => by
    rw [evict]
    split_ifs with h
    · rw [evict_eq n data]
      rw [List.length_cons] at h ⊢
      rw [show data.length + 1 - n = data.length - n + 1 by omega, List.drop_succ_cons]
    · rw [show (x :: data).length - n = 0 by omega, List.drop_zero]

/-- Eviction keeps the newest items. -/
theorem reverse_evict (n : ℕ) (data : Items T Blob) : (evict n data).reverse = data.reverse.take n := by
  rw [evict_eq, List.take_reverse]

theorem moveToEnd_setItem {data : Items T Blob} (h : (data.map Prod.fst).Nodup) (key : Str) (value : T × Blob) :
    moveToEnd (setItem data key value) key = without key data ++ [(key, value)] := by
  have hnone : ∀ l : Items T Blob, (∀ x ∈ l, x.1 ≠ key) → l.filter (fun x => x.1 = key) = [] := by
    intro l hl
    rw [List.filter_eq_nil_iff]
    intro x hx
    simpa using hl x hx
  have hend : ∀ pre post : Items T Blob, (∀ x ∈ pre, x.1 ≠ key) → (∀ x ∈ post, x.1 ≠ key) →
      moveToEnd (pre ++ (key, value) :: post) key = pre ++ post ++ [(key, value)] := by
    intro pre post hpre hpost
    unfold moveToEnd
    rw [without_append, without_eq_self hpre, List.filter_append, hnone pre hpre]
    unfold without
    rw [List.filter_cons_of_neg (by simp), List.filter_cons_of_pos (by simp), hnone post hpost]
    exact congrArg (pre ++ · ++ [(key, value)]) (without_eq_self hpost)
  unfold setItem
  split_ifs with hin
  · -- the item of the key is replaced where it stands
    obtain ⟨x, hx, rfl⟩ := hin
    obtain ⟨pre, post, rfl⟩ := List.append_of_mem hx
    rw [List.map_append, List.map_cons, List.nodup_append, List.nodup_cons] at h
    obtain ⟨-, ⟨hpost', -⟩, hpre'⟩ := h
    have hpre : ∀ y ∈ pre, y.1 ≠ x.1 := by
      intro y hy
      exact hpre' y.1 (List.mem_map_of_mem hy) x.1 List.mem_cons_self
    have hpost : ∀ y ∈ post, y.1 ≠ x.1 := by
      intro y hy heq
      exact hpost' (heq ▸ List.mem_map_of_mem hy)
    have hsame : ∀ l : Items T Blob, (∀ y ∈ l, y.1 ≠ x.1) →
        l.map (fun y => if y.1 = x.1 then (x.1, value) else y) = l := by
      intro l hl
      exact (List.map_congr_left (fun y hy => if_neg (hl y hy))).trans (List.map_id' l)
    rw [List.map_append, List.map_cons, hsame pre hpre, hsame post hpost, if_pos rfl, hend pre post hpre hpost]
    rw [without_append, without_eq_self hpre]
    unfold without
    rw [List.filter_cons_of_neg (by simp)]
    exact congrArg (pre ++ · ++ [(x.1, value)]) (without_eq_self hpost).symm
  · have hall : ∀ x ∈ data, x.1 ≠ key := fun x hx heq => hin ⟨x, hx, heq⟩
    rw [hend data [] hall (fun x hx => absurd hx List.not_mem_nil), List.append_nil, without_eq_self hall]

end Items

/-! ### The invariant -/

section Invariant

/-- An item as `get` sees it: when it expires, and what `decode` makes of it. -/
abbrev Seen (T : Type) := Str × (T × Except PyExc MappingRecord)

def view (x : Str × (T × Blob)) : Seen T := (x.1, x.2.1, S.codec.decode x.1 x.2.2)

/-- The item that a write leaves. -/
def stamp (x : Str × (T × MappingRecord)) : Seen T := (x.1, x.2.1 + S.ttl, .ok x.2.2)

/-- Not expired at time `t`. -/
def live (t : T) (x : Seen T) : Bool := t ≤ x.2.1

/-- What holds after every run, at a time `now` not before the last call: the items are in the order of their
expiry, which is that of their writes, and of the entries that have not expired the most recent ones are
there, and can be decoded. -/
structure Inv (now : T) (w : Session T Blob) : Prop where
  keys : (w.1.map Prod.fst).Nodup
  size : w.1.length ≤ S.maxItems
  order : w.1.Pairwise (fun x y => x.2.1 ≤ y.2.1)
  bound : ∀ x ∈ w.1, x.2.1 ≤ now + S.ttl
  log_order : w.2.Pairwise (fun x y => y.2.1 ≤ x.2.1)
  log_bound : ∀ x ∈ w.2, x.2.1 ≤ now
  kept : Kept S.maxItems (live now) (w.2.map S.stamp) (w.1.reverse.map S.view)

omit [Add T] in
theorem downward_of_order {l : List (Seen T)} (h : l.Pairwise (fun x y => y.2.1 ≤ x.2.1)) (t : T) :
    Downward (live t) l := by
  refine h.imp ?_
  intro x y hxy hy
  unfold live at hy ⊢
  rw [decide_eq_true_eq] at hy ⊢
  exact hy.trans hxy

variable {S} {now t : T} {w : Session T Blob}

variable [AddRightMono T]

theorem Inv.stamp_order (h : S.Inv now w) : (w.2.map S.stamp).Pairwise (fun x y => y.2.1 ≤ x.2.1) := by
  rw [List.pairwise_map]
  refine h.log_order.imp ?_
  intro x y hxy
  exact add_le_add_left hxy S.ttl

omit [AddRightMono T] in
theorem inv_empty (S : MemoryStore T Blob Nonce) (now : T) : S.Inv now ([], []) where
  keys := List.nodup_nil
  size := Nat.zero_le _
  order := List.Pairwise.nil
  bound := fun x hx => absurd hx List.not_mem_nil
  log_order := List.Pairwise.nil
  log_bound := fun x hx => absurd hx List.not_mem_nil
  kept := by
    show [] = List.take S.maxItems []
    rw [List.take_nil]

/-- Time passes. -/
theorem Inv.mono (h : S.Inv now w) (ht : now ≤ t) : S.Inv t w where
  keys := h.keys
  size := h.size
  order := h.order
  bound := fun x hx => (h.bound x hx).trans (add_le_add_left ht S.ttl)
  log_order := h.log_order
  log_bound := fun x hx => (h.log_bound x hx).trans ht
  kept := by
    refine kept_mono h.kept ?_ ?_
    · intro x hx
      unfold live at hx ⊢
      rw [decide_eq_true_eq] at hx ⊢
      exact ht.trans hx
    · exact downward_of_order (h.stamp_order.sublist (recent_sublist _)) t

/-! The operations, one after the other. -/

omit [Add T] [AddRightMono T] in
/-- What `get` finds, and what it leaves. -/
theorem get_spec (S : MemoryStore T Blob Nonce) (data : Items T Blob) (key : Str) (t : T) :
    (newest key data = none ∧ S.get data key t = (.ok none, data)) ∨
      (∃ x, newest key data = some x ∧ x.2.1 < t ∧ S.get data key t = (.ok none, without key data)) ∨
      ∃ x, newest key data = some x ∧ t ≤ x.2.1 ∧ S.get data key t = ((S.codec.decode key x.2.2).map some, data) := by
  have hget : S.get data key t = match newest key data with
      | none => (.ok none, data)
      | some (_, expiresAt, blob) =>
        if expiresAt < t then (.ok none, without key data) else ((S.codec.decode key blob).map some, data) := rfl
  rw [hget]
  rcases newest key data with _ | ⟨k, expiresAt, blob⟩
  · exact Or.inl ⟨rfl, rfl⟩
  · by_cases h : expiresAt < t
    · exact Or.inr (Or.inl ⟨_, rfl, h, if_pos h⟩)
    · exact Or.inr (Or.inr ⟨_, rfl, not_lt.mp h, if_neg h⟩)

omit [LinearOrder T] [Add T] [AddRightMono T] in
theorem view_without (S : MemoryStore T Blob Nonce) (key : Str) (data : Items T Blob) :
    ((without key data).reverse.map S.view) = without key (data.reverse.map S.view) := by
  unfold without
  rw [← List.filter_reverse, List.filter_map]
  rfl

theorem Inv.get (h : S.Inv now w) (key : Str) (ht : now ≤ t) : S.Inv t ((S.get w.1 key t).2, w.2) := by
  have h' := h.mono ht
  rcases get_spec S w.1 key t with ⟨-, hget⟩ | ⟨x, hx, hlt, hget⟩ | ⟨x, -, -, hget⟩
  · rw [hget]
    exact h'
  · -- the item has expired and is removed
    rw [hget]
    have hsub := without_sublist key w.1
    have hkept : Kept S.maxItems (live t) (w.2.map S.stamp) (without key (w.1.reverse.map S.view)) := by
      refine kept_remove h'.kept ?_
      intro y hy hk
      obtain ⟨z, hz, rfl⟩ := List.mem_map.mp hy
      have hzx : z = x := List.inj_on_of_nodup_map h'.keys (List.mem_reverse.mp hz) (newest_some hx).1
        (hk.trans (newest_some hx).2.symm)
      unfold live
      rw [decide_eq_false_iff_not, not_le]
      show z.2.1 < t
      rw [hzx]
      exact hlt
    exact ⟨nodup_keys_without h'.keys, hsub.length_le.trans h'.size, h'.order.sublist hsub,
      fun y hy => h'.bound y (hsub.subset hy), h'.log_order, h'.log_bound, by rw [view_without]; exact hkept⟩
  · rw [hget]
    exact h'

omit [AddRightMono T] in
/-- What `put` leaves: the newest items, the new one last. -/
theorem put_eq (h : S.Inv now w) (key : Str) (record : MappingRecord) (nonce : Nonce) (t : T) :
    S.put w.1 key record nonce t =
      evict S.maxItems (without key w.1 ++ [(key, t + S.ttl, S.codec.encode nonce key record)]) := by
  unfold put
  rw [moveToEnd_setItem h.keys]

theorem Inv.put (h : S.Inv now w) (hcodec : S.codec.Lossless) (hmax : 1 ≤ S.maxItems) (key : Str)
    (record : MappingRecord) (nonce : Nonce) (ht : now ≤ t) :
    S.Inv t (S.put w.1 key record nonce t, (key, t, record) :: w.2) := by
  have h' := h.mono ht
  have hsub := without_sublist key w.1
  -- the items before the eviction
  set all := without key w.1 ++ [(key, t + S.ttl, S.codec.encode nonce key record)] with hall
  have hbound : ∀ x ∈ all, x.2.1 ≤ t + S.ttl := by
    intro x hx
    rcases List.mem_append.mp hx with hx | hx
    · exact h'.bound x (hsub.subset hx)
    · rw [List.mem_singleton.mp hx]
  have horder : all.Pairwise (fun x y => x.2.1 ≤ y.2.1) := by
    refine List.pairwise_append.mpr ⟨h'.order.sublist hsub, List.pairwise_singleton _ _, ?_⟩
    intro x hx y hy
    rw [List.mem_singleton.mp hy]
    exact h'.bound x (hsub.subset hx)
  have hkeys : (all.map Prod.fst).Nodup := by
    have hpush := nodup_keys_push (k := key) (a := (t + S.ttl, S.codec.encode nonce key record))
      (l := w.1) h'.keys
    rw [List.map_cons] at hpush
    rw [hall, List.map_append]
    exact (List.perm_append_singleton _ _).nodup_iff.mpr hpush
  have hview : all.reverse.map S.view = (key, t + S.ttl, .ok record) :: without key (w.1.reverse.map S.view) := by
    rw [hall, List.reverse_append, List.map_append, view_without]
    show (key, t + S.ttl, S.codec.decode key (S.codec.encode nonce key record)) :: _ = _
    rw [hcodec]
    rfl
  have hlog : (((key, t, record) :: w.2).map S.stamp).Pairwise (fun x y => y.2.1 ≤ x.2.1) := by
    rw [List.map_cons, List.pairwise_cons]
    refine ⟨?_, h'.stamp_order⟩
    intro x hx
    obtain ⟨y, hy, rfl⟩ := List.mem_map.mp hx
    exact add_le_add_left (h'.log_bound y hy) S.ttl
  have htail := (evict_eq S.maxItems all).symm ▸ List.drop_sublist (all.length - S.maxItems) all
  rw [put_eq h]
  refine ⟨hkeys.sublist (htail.map Prod.fst), ?_, horder.sublist htail, fun x hx => hbound x (htail.subset hx),
    ?_, ?_, ?_⟩
  · rw [evict_eq, List.length_drop]
    omega
  · exact List.pairwise_cons.mpr ⟨fun x hx => h'.log_bound x hx, h'.log_order⟩
  · intro x hx
    rcases List.mem_cons.mp hx with rfl | hx
    · exact le_rfl
    · exact h'.log_bound x hx
  · rw [reverse_evict, List.map_take, hview, List.map_cons]
    refine kept_push hmax h'.kept ?_ ?_
    · refine downward_of_order ?_ t
      rw [← hview, List.pairwise_map, List.pairwise_reverse]
      exact horder
    · exact downward_of_order (hlog.sublist (recent_sublist _)) t

/-- **One call.** -/
theorem Inv.step (h : S.Inv now w) (hcodec : S.codec.Lossless) (hmax : 1 ≤ S.maxItems) (call : MemoryCall T Nonce)
    (hnow : ∀ u ∈ call.times, now ≤ u) (hsorted : call.times.Pairwise (· ≤ ·)) :
    S.Inv call.last (S.step w call) := by
  cases call with
  | get key t => exact h.get key (hnow t (List.mem_singleton_self t))
  | put key record nonce t => exact h.put hcodec hmax key record nonce (hnow t (List.mem_singleton_self t))
  | putIfAbsent key record nonce t t' =>
    have ht : now ≤ t := hnow t List.mem_cons_self
    have htt : t ≤ t' := (List.pairwise_cons.mp hsorted).1 t' (List.mem_singleton_self t')
    have hget := h.get key ht
    show S.Inv t' (S.step w (.putIfAbsent key record nonce t t'))
    unfold MemoryStore.step putIfAbsent
    dsimp only
    rcases hres : S.get w.1 key t with ⟨exc | _ | stored, data⟩
    · rw [hres] at hget
      exact hget.mono htt
    · rw [hres] at hget
      exact hget.put hcodec hmax key record nonce htt
    · rw [hres] at hget
      exact hget.mono htt

/-- A sequence of calls, and the time that has come then. -/
theorem Inv.foldl (hcodec : S.codec.Lossless) (hmax : 1 ≤ S.maxItems) : ∀ (calls : List (MemoryCall T Nonce))
    {now : T} {w : Session T Blob}, S.Inv now w → (∀ u ∈ calls.flatMap MemoryCall.times ++ [t], now ≤ u) →
    (calls.flatMap MemoryCall.times ++ [t]).Pairwise (· ≤ ·) → S.Inv t (calls.foldl S.step w)
  | [], now, w, h, hnow, _ => h.mono (hnow t (List.mem_singleton_self t))
  | call :: calls, now, w, h, hnow, hsorted => by
    rw [List.flatMap_cons, List.append_assoc] at hnow hsorted
    obtain ⟨hcall, hrest, hbefore⟩ := List.pairwise_append.mp hsorted
    have hstep := h.step hcodec hmax call (fun u hu => hnow u (List.mem_append_left _ hu)) hcall
    exact Inv.foldl hcodec hmax calls hstep (hbefore call.last (MemoryCall.last_mem_times call)) hrest

/-- **The invariant holds after every run.** -/
theorem inv_run (hcodec : S.codec.Lossless) (hmax : 1 ≤ S.maxItems) {calls : List (MemoryCall T Nonce)}
    (hsorted : (calls.flatMap MemoryCall.times ++ [t]).Pairwise (· ≤ ·)) : S.Inv t (S.run calls) := by
  obtain ⟨first, rest, hfirst⟩ := List.exists_cons_of_ne_nil
    (List.append_ne_nil_of_right_ne_nil (calls.flatMap MemoryCall.times) (List.cons_ne_nil t []))
  refine Inv.foldl hcodec hmax calls (inv_empty S first) ?_ hsorted
  intro u hu
  rw [hfirst] at hu hsorted
  rcases List.mem_cons.mp hu with rfl | hu
  · exact le_rfl
  · exact (List.pairwise_cons.mp hsorted).1 u hu

end Invariant

/-! ### The law -/

section Law

variable {S} {now t : T} {w : Session T Blob} [AddRightMono T]

omit [Add T] [AddRightMono T] in
theorem filter_live_some {x : Seen T} :
    (some x).filter (live t) = if t ≤ x.2.1 then some x else none := by
  rw [Option.filter_some]
  simp only [live, decide_eq_true_eq]

omit [Add T] [AddRightMono T] in
/-- `get` returns what is decoded from the item of the key, if it is live. -/
theorem get_fst (S : MemoryStore T Blob Nonce) (data : Items T Blob) (key : Str) (t : T) : (S.get data key t).1 =
    match ((newest key data).map S.view).filter (live t) with
    | none => .ok none
    | some x => x.2.2.map some := by
  rcases get_spec S data key t with ⟨hx, hget⟩ | ⟨x, hx, hlt, hget⟩ | ⟨x, hx, hle, hget⟩
  · rw [hx, hget]
    rfl
  · have hdead : ¬ t ≤ (S.view x).2.1 := not_le.mpr hlt
    rw [hx, hget, Option.map_some, filter_live_some, if_neg hdead]
  · have hlive : t ≤ (S.view x).2.1 := hle
    obtain ⟨-, rfl⟩ := newest_some hx
    rw [hx, hget, Option.map_some, filter_live_some, if_pos hlive]
    rfl

/-- What `get` returns, from the log of the writes. -/
theorem Inv.get_eq (h : S.Inv t w) (key : Str) : (S.get w.1 key t).1 =
    .ok (match newest key w.2 with
    | none => none
    | some x => if t ≤ x.2.1 + S.ttl ∧ (above key w.2).card < S.maxItems then some x.2.2 else none) := by
  have hkeys : ((w.1.reverse.map S.view).map Prod.fst).Nodup := by
    rw [List.map_map, List.map_reverse, List.nodup_reverse]
    exact h.keys
  have hview : newest key (w.1.reverse.map S.view) = (newest key w.1).map S.view := by
    rw [newest_map (f := S.view) (fun _ => rfl), newest_reverse h.keys]
  have hlaw := newest_of_kept key h.kept hkeys (downward_of_order (h.stamp_order.sublist (recent_sublist _)) t)
  rw [hview, newest_map (f := S.stamp) (fun _ => rfl), above_map (f := S.stamp) (fun _ => rfl)] at hlaw
  rw [get_fst, hlaw]
  rcases newest key w.2 with _ | x
  · rw [Option.map_none, Option.filter_none, ite_self]
  · rw [Option.map_some]
    by_cases hcard : (above key w.2).card < S.maxItems
    · rw [if_pos hcard, filter_live_some]
      by_cases hle : t ≤ x.2.1 + S.ttl
      · have hlive : t ≤ (S.stamp x).2.1 := hle
        rw [if_pos hlive]
        simp [hle, hcard, stamp, Except.map]
      · have hdead : ¬ t ≤ (S.stamp x).2.1 := hle
        rw [if_neg hdead]
        simp [hle]
    · rw [if_neg hcard]
      simp [hcard]

/-- What a call evicts is older than all that it keeps. -/
theorem Inv.evict_oldest (h : S.Inv now w) (key : Str) (record : MappingRecord) (nonce : Nonce) (ht : now ≤ t)
    {x : Str × (T × Blob)} (hx : x ∈ w.1) (hkey : x.1 ≠ key) (hgone : x ∉ S.put w.1 key record nonce t) :
    ∀ y ∈ S.put w.1 key record nonce t, x.2.1 ≤ y.2.1 := by
  have hsub := without_sublist key w.1
  rw [put_eq h, evict_eq] at hgone ⊢
  set all := without key w.1 ++ [(key, t + S.ttl, S.codec.encode nonce key record)] with hall
  have horder : all.Pairwise (fun x y => x.2.1 ≤ y.2.1) := by
    refine List.pairwise_append.mpr ⟨h.order.sublist hsub, List.pairwise_singleton _ _, ?_⟩
    intro x hx y hy
    rw [List.mem_singleton.mp hy]
    exact (h.bound x (hsub.subset hx)).trans (add_le_add_left ht S.ttl)
  have hin : x ∈ all := List.mem_append_left _ (mem_without.mpr ⟨hx, hkey⟩)
  rw [← List.take_append_drop (all.length - S.maxItems) all] at hin horder
  intro y hy
  rcases List.mem_append.mp hin with hin | hin
  · exact (List.pairwise_append.mp horder).2.2 x hin y hy
  · exact absurd hin hgone

omit [Add T] [AddRightMono T] in
/-- `get` removes no item of another key. -/
theorem mem_of_get (S : MemoryStore T Blob Nonce) {data : Items T Blob} {key : Str} {x : Str × (T × Blob)}
    (hx : x ∈ data) (hkey : x.1 ≠ key) : x ∈ (S.get data key t).2 := by
  rcases get_spec S data key t with ⟨-, hget⟩ | ⟨_, -, -, hget⟩ | ⟨_, -, -, hget⟩
  · rw [hget]
    exact hx
  · rw [hget]
    exact mem_without.mpr ⟨hx, hkey⟩
  · rw [hget]
    exact hx

/-- **No item is evicted while an older one is kept.** -/
theorem Inv.step_oldest (h : S.Inv now w) (call : MemoryCall T Nonce) (hnow : ∀ u ∈ call.times, now ≤ u)
    (hsorted : call.times.Pairwise (· ≤ ·)) {x : Str × (T × Blob)} (hx : x ∈ w.1) (hkey : x.1 ≠ call.key)
    (hgone : x ∉ (S.step w call).1) : ∀ y ∈ (S.step w call).1, x.2.1 ≤ y.2.1 := by
  cases call with
  | get key t => exact absurd (mem_of_get S hx hkey) hgone
  | put key record nonce t =>
    exact h.evict_oldest key record nonce (hnow t (List.mem_singleton_self t)) hx hkey hgone
  | putIfAbsent key record nonce t t' =>
    have htt : t ≤ t' := (List.pairwise_cons.mp hsorted).1 t' (List.mem_singleton_self t')
    have hget := h.get key (hnow t List.mem_cons_self)
    have hin : x ∈ (S.get w.1 key t).2 := mem_of_get S hx hkey
    revert hgone
    unfold MemoryStore.step putIfAbsent
    dsimp only
    rcases hres : S.get w.1 key t with ⟨exc | _ | stored, data⟩
    · rw [hres] at hin
      exact fun hgone => absurd hin hgone
    · rw [hres] at hget hin
      exact fun hgone => hget.evict_oldest key record nonce htt hin hkey hgone
    · rw [hres] at hin
      exact fun hgone => absurd hin hgone

omit [AddRightMono T] in
/-- `put_if_absent` writes iff `get` finds nothing, and changes nothing otherwise. -/
theorem putIfAbsent_spec (S : MemoryStore T Blob Nonce) {data : Items T Blob} {key : Str} {t : T}
    {found : Option MappingRecord} (h : (S.get data key t).1 = .ok found) (record : MappingRecord) (nonce : Nonce)
    (t' : T) :
    ∃ created, (S.putIfAbsent data key record nonce t t').1 = .ok created ∧ (created = true ↔ found = none) ∧
      (created = false → (S.putIfAbsent data key record nonce t t').2 = data) := by
  unfold putIfAbsent
  rcases get_spec S data key t with ⟨-, hget⟩ | ⟨_, -, -, hget⟩ | ⟨x, -, -, hget⟩
  · rw [hget] at h ⊢
    cases h
    exact ⟨true, rfl, by simp, by simp⟩
  · rw [hget] at h ⊢
    cases h
    exact ⟨true, rfl, by simp, by simp⟩
  · rw [hget] at h ⊢
    cases hdecode : S.codec.decode key x.2.2 with
    | error exc =>
      rw [hdecode] at h
      cases h
    | ok stored =>
      rw [hdecode] at h
      cases h
      exact ⟨false, rfl, by simp, fun _ => rfl⟩

/-- **The retention law.**  After every sequence of calls at non-decreasing times, `get` at time `t` returns the
record of the latest successful write of the key iff that write has not expired and fewer than `max_items`
other keys were written after it.  `put_if_absent` writes iff `get` returns nothing and leaves a live record as
it is; the store never holds more than `max_items` items; and what a call evicts unexpired is older than every
item it keeps, none of which has expired. -/
theorem retention_law (S : MemoryStore T Blob Nonce) (hcodec : S.codec.Lossless) (hmax : 1 ≤ S.maxItems)
    (calls : List (MemoryCall T Nonce)) (t : T)
    (htimes : (calls.flatMap MemoryCall.times ++ [t]).Pairwise (· ≤ ·)) :
    (∀ key, (S.get (S.run calls).1 key t).1 =
        .ok (match newest key (S.run calls).2 with
        | none => none
        | some x =>
          if t ≤ x.2.1 + S.ttl ∧ (above key (S.run calls).2).card < S.maxItems then some x.2.2 else none)) ∧
      (∀ key record nonce t', ∃ created, (S.putIfAbsent (S.run calls).1 key record nonce t t').1 = .ok created ∧
        (created = true ↔ (S.get (S.run calls).1 key t).1 = .ok none) ∧
        (created = false → (S.putIfAbsent (S.run calls).1 key record nonce t t').2 = (S.run calls).1)) ∧
      (S.run calls).1.length ≤ S.maxItems ∧
      ∀ call : MemoryCall T Nonce, (t :: call.times).Pairwise (· ≤ ·) → ∀ x ∈ (S.run calls).1, x.1 ≠ call.key →
        x ∉ (S.step (S.run calls) call).1 → call.last ≤ x.2.1 →
          ∀ y ∈ (S.step (S.run calls) call).1, call.last ≤ y.2.1 := by
  have hinv : S.Inv t (S.run calls) := inv_run hcodec hmax htimes
  refine ⟨hinv.get_eq, ?_, hinv.size, ?_⟩
  · intro key record nonce t'
    have hget := hinv.get_eq key
    obtain ⟨created, hres, hcreated, hsame⟩ := putIfAbsent_spec S hget record nonce t'
    refine ⟨created, hres, ?_, hsame⟩
    rw [hcreated, hget, Except.ok.injEq]
  · intro call hsorted x hx hkey hgone hlive y hy
    rw [List.pairwise_cons] at hsorted
    exact hlive.trans (hinv.step_oldest call hsorted.1 hsorted.2 hx hkey hgone y hy)

/-- A store for two items; the blob of a record holds the nonce beside it. -/
def sampleStore : MemoryStore ℕ (ℕ × MappingRecord) ℕ :=
  ⟨⟨fun nonce _ record => (nonce, record), fun _ blob => .ok blob.2⟩, 60, 2⟩

def sampleRecord : MappingRecord := ⟨"a@b.ru".toList, "*@*.**".toList, [("*@*.**".toList, "a@b.ru".toList)]⟩

def sampleCalls : List (MemoryCall ℕ ℕ) :=
  [.put "a".toList sampleRecord 7 0, .putIfAbsent "b".toList sampleRecord 8 5 6, .get "a".toList 20]

theorem retention_law_sample :
    (sampleStore.get (sampleStore.run sampleCalls).1 "a".toList 60).1 = .ok (some sampleRecord) := by
  have hlaw := (retention_law sampleStore (fun _ _ _ => rfl) (by decide) sampleCalls 60 (by decide)).1 "a".toList
  exact hlaw.trans (by decide)

/-- A third key puts the oldest one out; a second too late it has expired. -/
example : (sampleStore.get (sampleStore.run (sampleCalls ++ [.put "c".toList sampleRecord 9 21])).1
    "a".toList 60).1 = .ok none := by decide

example : (sampleStore.get (sampleStore.run sampleCalls).1 "a".toList 61).1 = .ok none := by decide

end Law

end MemoryStore

end PdMasking
