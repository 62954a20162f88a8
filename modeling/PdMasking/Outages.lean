import Mathlib.Data.List.Induction
import PdMasking.Fallback

/-!
# PdMasking.Outages — reads and writes on the store with two copies while the primary comes and goes

`Tracked` is a run of calls, each with the primary up or down, together with the newest successful write of
every key.

* `noStale_perform`: one call makes no copy stale iff it is `Aligned`: a write finds the other copy without
  a record of the key or with the same one.
* `fresh_reads_iff`: reads never go back behind the newest write iff every write of the run is aligned.
* `stale_read_after_outage`: they do when a record was overwritten during an outage.
-/

namespace PdMasking

/-! ### Runs with outages -/

section Runs

/-- A call of the store and, when the primary is down for it, the connection error. -/
abbrev Call := StoreOp × Option PyExc

/-- The failure of the call, if any, is a connection error. -/
def Connection (fault : Option PyExc) : Prop :=
  ∀ exc, fault = some exc → handled exc = true ∧ isTimeout exc = false

/-- Every call of the primary fails with `fault` and takes no effect. -/
def outage (fault : Option PyExc) : Plan := fun _ => fault.map (fun exc => (exc, false))

/-- The two copies, and for each key the record of the newest successful write. -/
structure Tracked where
  backend : Backend
  newest : MapStore

/-- The newest successful writes after an operation with the result `r`. -/
def track (newest : MapStore) : (op : StoreOp) → op.Res → MapStore
  | .get _, _ => newest
  | .putIfAbsent key record, .ok true => Function.update newest key (some record)
  | .putIfAbsent _ _, _ => newest
  | .put key record, .ok _ => Function.update newest key (some record)
  | .put _ _, .error _ => newest

def Tracked.perform (t : Tracked) (c : Call) : Tracked :=
  let r := serveOp (outage c.2) c.1 t.backend
  ⟨r.2, track t.newest c.1 r.1⟩

/-- A sequence of calls, from empty copies. -/
def afterCalls (calls : List Call) : Tracked :=
  calls.foldl Tracked.perform ⟨⟨fun _ => none, fun _ => none, 0⟩, fun _ => none⟩

theorem afterCalls_concat (calls : List Call) (c : Call) :
    afterCalls (calls ++ [c]) = (afterCalls calls).perform c := by
  unfold afterCalls
  rw [List.foldl_append]
  rfl

/-- A successful `get` of the key returns nothing or the newest record. -/
def FreshRead (t : Tracked) (key : Str) (fault : Option PyExc) : Prop :=
  ∀ r, (serveOp (outage fault) (.get key) t.backend).1 = .ok r → r = none ∨ r = t.newest key

/-- The successful reads of the run return nothing or the newest record. -/
def ReadsFresh (calls : List Call) : Prop :=
  ∀ pre key fault post, calls = pre ++ (.get key, fault) :: post → FreshRead (afterCalls pre) key fault

/-- The copy holds no record of the key, or this one. -/
def Agrees (s : MapStore) (key : Str) (record : MappingRecord) : Prop := s key = none ∨ s key = some record

/-- A write that takes effect on one copy finds the other one without a record of the key, or with the same
one. -/
def Aligned (b : Backend) : Call → Prop
  | (.get _, _) => True
  | (.put key record, none) => Agrees b.fallback key record
  | (.put key record, some _) => Agrees b.primary key record
  | (.putIfAbsent key record, none) => b.primary key = none → Agrees b.fallback key record
  | (.putIfAbsent key record, some _) => b.fallback key = none → Agrees b.primary key record

/-- Every write of the run is aligned when it is done. -/
def WritesAligned (calls : List Call) : Prop :=
  ∀ pre c post, calls = pre ++ c :: post → Aligned (afterCalls pre).backend c

/-- The copy holds newest records only. -/
def FreshIn (s newest : MapStore) : Prop := ∀ key, s key = none ∨ s key = newest key

/-- No copy is stale. -/
def NoStale (t : Tracked) : Prop := FreshIn t.backend.primary t.newest ∧ FreshIn t.backend.fallback t.newest

theorem freshIn_write {s newest : MapStore} (h : FreshIn s newest) (key : Str) (record : MappingRecord) :
    FreshIn (Function.update s key (some record)) (Function.update newest key (some record)) := by
  intro key'
  by_cases hkey : key' = key
  · subst hkey
    rw [Function.update_self, Function.update_self]
    exact Or.inr rfl
  · rw [Function.update_of_ne hkey, Function.update_of_ne hkey]
    exact h key'

/-- The copy that a write has not reached. -/
theorem freshIn_other_iff {s newest : MapStore} (h : FreshIn s newest) (key : Str) (record : MappingRecord) :
    FreshIn s (Function.update newest key (some record)) ↔ Agrees s key record := by
  constructor
  · intro h'
    have hkey := h' key
    rw [Function.update_self] at hkey
    exact hkey
  · intro hagrees key'
    by_cases hkey : key' = key
    · subst hkey
      rw [Function.update_self]
      exact hagrees
    · rw [Function.update_of_ne hkey]
      exact h key'

theorem perform_up (t : Tracked) (op : StoreOp) : t.perform (op, none) =
    ⟨⟨(direct op t.backend).2, t.backend.fallback, t.backend.calls + 1⟩,
      track t.newest op (direct op t.backend).1⟩ := by
  have h : outage none t.backend.calls = none := rfl
  unfold Tracked.perform
  dsimp only
  rw [serveOp_up h]

theorem perform_down (t : Tracked) (op : StoreOp) {exc : PyExc} (hexc : Connection (some exc)) :
    t.perform (op, some exc) =
      ⟨⟨t.backend.primary, (mapStep op t.backend.fallback).2, t.backend.calls + 1⟩,
        track t.newest op (mapStep op t.backend.fallback).1⟩ := by
  have h : outage (some exc) t.backend.calls = some (exc, false) := rfl
  obtain ⟨hhandled, htimeout⟩ := hexc exc rfl
  unfold Tracked.perform
  dsimp only
  rw [serveOp_connection h hhandled htimeout]
  rfl

/-- A read with the primary up, and one with the primary down. -/
theorem freshRead_up_iff (t : Tracked) (key : Str) : FreshRead t key none ↔
    (t.backend.primary key).or (t.backend.fallback key) = none ∨
      (t.backend.primary key).or (t.backend.fallback key) = t.newest key := by
  have h : outage none t.backend.calls = none := rfl
  unfold FreshRead
  rw [serveOp_up h, direct_get]
  constructor
  · intro hr
    exact hr _ rfl
  · rintro hr r ⟨⟩
    exact hr

theorem freshRead_down_iff (t : Tracked) (key : Str) {exc : PyExc} (hexc : Connection (some exc)) :
    FreshRead t key (some exc) ↔ t.backend.fallback key = none ∨ t.backend.fallback key = t.newest key := by
  have h : outage (some exc) t.backend.calls = some (exc, false) := rfl
  obtain ⟨hhandled, htimeout⟩ := hexc exc rfl
  unfold FreshRead
  rw [serveOp_connection h hhandled htimeout]
  constructor
  · intro hr
    exact hr _ rfl
  · rintro hr r ⟨⟩
    exact hr

theorem connection_osError : Connection (some .osError) := by
  rintro exc ⟨⟩
  exact ⟨rfl, rfl⟩

/-- No copy is stale iff every read is fresh, whether the primary is up or down for it. -/
theorem noStale_iff (t : Tracked) :
    NoStale t ↔ ∀ key fault, Connection fault → FreshRead t key fault := by
  constructor
  · rintro ⟨hprimary, hfallback⟩ key fault hfault
    cases fault with
    | some exc => exact (freshRead_down_iff t key hfault).mpr (hfallback key)
    | none =>
      rw [freshRead_up_iff]
      have hp := hprimary key
      cases hprim : t.backend.primary key with
      | none =>
        rw [Option.none_or]
        exact hfallback key
      | some record =>
        rw [hprim] at hp
        rw [Option.some_or]
        exact hp
  · intro h
    refine ⟨?_, ?_⟩
    · intro key
      have hup := (freshRead_up_iff t key).mp (h key none (by rintro exc ⟨⟩))
      cases hprim : t.backend.primary key with
      | none => exact Or.inl rfl
      | some record =>
        rw [hprim, Option.some_or] at hup
        exact hup
    · intro key
      exact (freshRead_down_iff t key connection_osError).mp (h key _ connection_osError)

/-- **One call**: no copy becomes stale iff the call is aligned. -/
theorem noStale_perform {t : Tracked} (h : NoStale t) {c : Call} (hc : Connection c.2) :
    NoStale (t.perform c) ↔ Aligned t.backend c := by
  obtain ⟨hp, hf⟩ := h
  obtain ⟨op, fault⟩ := c
  cases fault with
  | none =>
    rw [perform_up]
    cases op with
    | get key => exact iff_of_true ⟨hp, hf⟩ trivial
    | put key record =>
      show _ ∧ _ ↔ Agrees t.backend.fallback key record
      rw [← freshIn_other_iff hf]
      exact and_iff_right (freshIn_write hp key record)
    | putIfAbsent key record =>
      show _ ↔ (t.backend.primary key = none → Agrees t.backend.fallback key record)
      cases hkey : t.backend.primary key with
      | some stored =>
        refine iff_of_true ?_ (fun hnone => by cases hnone)
        rw [direct, mapStep, hkey]
        exact ⟨hp, hf⟩
      | none =>
        rw [direct, mapStep, hkey]
        have hother := freshIn_other_iff hf key record
        constructor
        · rintro ⟨-, hfresh⟩ -
          exact hother.mp hfresh
        · intro hagrees
          exact ⟨freshIn_write hp key record, hother.mpr (hagrees rfl)⟩
  | some exc =>
    rw [perform_down t op hc]
    cases op with
    | get key => exact iff_of_true ⟨hp, hf⟩ trivial
    | put key record =>
      show _ ∧ _ ↔ Agrees t.backend.primary key record
      rw [← freshIn_other_iff hp]
      exact and_iff_left (freshIn_write hf key record)
    | putIfAbsent key record =>
      show _ ↔ (t.backend.fallback key = none → Agrees t.backend.primary key record)
      cases hkey : t.backend.fallback key with
      | some stored =>
        refine iff_of_true ?_ (fun hnone => by cases hnone)
        rw [mapStep, hkey]
        exact ⟨hp, hf⟩
      | none =>
        rw [mapStep, hkey]
        have hother := freshIn_other_iff hp key record
        constructor
        · rintro ⟨hfresh, -⟩ -
          exact hother.mp hfresh
        · intro hagrees
          exact ⟨hother.mpr (hagrees rfl), freshIn_write hf key record⟩

/-- **Runs**: no copy is ever stale iff every write is aligned. -/
theorem noStale_prefixes_iff {calls : List Call} (hcalls : ∀ c ∈ calls, Connection c.2) :
    (∀ pre post, calls = pre ++ post → NoStale (afterCalls pre)) ↔ WritesAligned calls := by
  constructor
  · rintro h pre c post rfl
    have hnext := h (pre ++ [c]) post (by simp)
    rw [afterCalls_concat] at hnext
    exact (noStale_perform (h pre (c :: post) rfl) (hcalls c (by simp))).mp hnext
  · intro h pre
    induction pre using List.reverseRecOn with
    | nil =>
      rintro - -
      exact ⟨fun _ => Or.inl rfl, fun _ => Or.inl rfl⟩
    | append_singleton pre c ih =>
      rintro post rfl
      have hpre := ih (c :: post) (by simp)
      rw [afterCalls_concat]
      exact (noStale_perform hpre (hcalls c (by simp))).mpr (h pre c post (by simp))

/-- **Reads are fresh iff writes are aligned.**  In every run the reads of a run with aligned writes return
nothing or the newest record; and the writes are aligned iff this holds of every read that could come at any
point of the run. -/
theorem fresh_reads_iff {calls : List Call} (hcalls : ∀ c ∈ calls, Connection c.2) :
    (WritesAligned calls → ReadsFresh calls) ∧
    (WritesAligned calls ↔ ∀ pre post, calls = pre ++ post → ∀ key fault, Connection fault →
      FreshRead (afterCalls pre) key fault) := by
  have hiff : WritesAligned calls ↔ ∀ pre post, calls = pre ++ post → ∀ key fault, Connection fault →
      FreshRead (afterCalls pre) key fault := by
    rw [← noStale_prefixes_iff hcalls]
    constructor
    · intro h pre post hsplit
      exact (noStale_iff _).mp (h pre post hsplit)
    · intro h pre post hsplit
      exact (noStale_iff _).mpr (h pre post hsplit)
  refine ⟨?_, hiff⟩
  rintro haligned pre key fault post rfl
  exact hiff.mp haligned pre _ rfl key fault (hcalls (.get key, fault) (by simp))

/-- A later record of the same id. -/
def laterRecord : MappingRecord := ⟨"x@y.ru".toList, "*@*.**".toList, [("*@*.**".toList, "x@y.ru".toList)]⟩

/-- A write, a write during an outage, and a read after it. -/
def outageCalls : List Call :=
  [(.put "1".toList leftBehind, none), (.put "1".toList laterRecord, some .osError), (.get "1".toList, none)]

theorem outageCalls_connection : ∀ c ∈ outageCalls, Connection c.2 := by
  intro c hc
  simp only [outageCalls, List.mem_cons, List.not_mem_nil, or_false] at hc
  rcases hc with rfl | rfl | rfl
  · rintro exc ⟨⟩
  · exact connection_osError
  · rintro exc ⟨⟩

theorem fresh_reads_iff_outage :
    (WritesAligned outageCalls → ReadsFresh outageCalls) ∧
    (WritesAligned outageCalls ↔ ∀ pre post, outageCalls = pre ++ post → ∀ key fault, Connection fault →
      FreshRead (afterCalls pre) key fault) :=
  fresh_reads_iff outageCalls_connection

/-- After the outage the record from before it comes back. -/
theorem stale_read_after_outage :
    ¬ ∀ calls : List Call, (∀ c ∈ calls, Connection c.2) → ReadsFresh calls := by
  intro h
  have hfresh := h outageCalls outageCalls_connection (outageCalls.take 2) "1".toList none [] rfl
  have hread : (serveOp (outage none) (.get "1".toList) (afterCalls (outageCalls.take 2)).backend).1 =
      .ok (some leftBehind) := rfl
  have hnewest : (afterCalls (outageCalls.take 2)).newest "1".toList = some laterRecord := rfl
  rcases hfresh _ hread with hnone | hnew
  · cases hnone
  · have heq : (some leftBehind : Option MappingRecord) = some laterRecord := hnew.trans hnewest
    exact absurd heq (by decide)

end Runs

end PdMasking
