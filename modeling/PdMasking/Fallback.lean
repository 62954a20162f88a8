import PdMasking.Store

/-!
# PdMasking.Fallback — the store with two copies (`storage/fallback.py`)

`FallbackStore` is a layer: each store operation is a program over the operations of the primary and of the
fallback. A `Backend` is the contents of the two copies; a `Plan` says which calls of the primary fail, and
whether a failed call took effect all the same.

* `serveOp_up`, `serveOp_connection`, `serveOp_retry`, `serveOp_unavailable`: the four courses of an
  operation.
* `transient_timeout_iff`: a single timeout is invisible, except for a `get` of a record that only the
  fallback has.
-/

namespace PdMasking

/-! ### The layer -/

inductive BackendOp
  | primary (op : StoreOp)
  | fallback (op : StoreOp)

def BackendOp.Res : BackendOp → Type
  | primary op => op.Res
  | fallback op => op.Res

/-- Programs over the two copies. -/
abbrev BackendM (α : Type) : Type := Prog BackendOp BackendOp.Res α

def callPrimary (op : StoreOp) : BackendM op.Res := @Prog.invoke BackendOp BackendOp.Res (.primary op)

def callFallback (op : StoreOp) : BackendM op.Res := @Prog.invoke BackendOp BackendOp.Res (.fallback op)

/-- The exception is one of `_HANDLED`. -/
def handled : PyExc → Bool
  | .storeUnavailable _ | .timeoutError | .osError => true
  | _ => false

/-- `_classify(exc) == "timeout"`. -/
def isTimeout : PyExc → Bool
  | .storeUnavailable timeout => timeout
  | .timeoutError => true
  | _ => false

namespace FallbackStore

/-- `_handle_error`; the two lambdas of the callers are the same operation on the two copies. -/
def handleError (op : StoreOp) (exc : PyExc) : BackendM op.Res := do
  if isTimeout exc then
    match ← callPrimary op with
    | .ok value => return .ok value
    | .error retryExc =>
      if handled retryExc then
        if isTimeout retryExc then return .error (.storeUnavailable true)
        callFallback op
      else return .error retryExc
  else callFallback op

/-- `get`. -/
def get (key : Str) : BackendM (StoreOp.Res (.get key)) := do
  match ← callPrimary (.get key) with
  | .error exc => if handled exc then handleError (.get key) exc else return .error exc
  | .ok (some record) => return .ok (some record)
  | .ok none => callFallback (.get key)

/-- `put_if_absent` and `put`. -/
def write (op : StoreOp) : BackendM op.Res := do
  match ← callPrimary op with
  | .error exc => if handled exc then handleError op exc else return .error exc
  | .ok value => return .ok value

def putIfAbsent (key : Str) (record : MappingRecord) : BackendM (StoreOp.Res (.putIfAbsent key record)) :=
  write (.putIfAbsent key record)

def put (key : Str) (record : MappingRecord) : BackendM (StoreOp.Res (.put key record)) :=
  write (.put key record)

/-- The layer as a whole. -/
def handler : (op : StoreOp) → BackendM op.Res
  | .get key => get key
  | .putIfAbsent key record => putIfAbsent key record
  | .put key record => put key record

end FallbackStore

/-! ### The two copies -/

/-- The contents of the two copies, and how many calls of the primary there were. -/
structure Backend where
  primary : MapStore
  fallback : MapStore
  calls : ℕ

/-- What becomes of each call of the primary: `none` when it succeeds, else the exception it raises and
whether the call took effect. -/
abbrev Plan := ℕ → Option (PyExc × Bool)

def backendStep (plan : Plan) : (op : BackendOp) → Backend → BackendOp.Res op × Backend
  | .primary op, b =>
    match plan b.calls with
    | none => ((mapStep op b.primary).1, ⟨(mapStep op b.primary).2, b.fallback, b.calls + 1⟩)
    | some (exc, effect) =>
      (.error exc, ⟨if effect then (mapStep op b.primary).2 else b.primary, b.fallback, b.calls + 1⟩)
  | .fallback op, b => ((mapStep op b.fallback).1, ⟨b.primary, (mapStep op b.fallback).2, b.calls⟩)

/-- One operation of the layer. -/
def serveOp (plan : Plan) (op : StoreOp) (b : Backend) : op.Res × Backend :=
  Prog.run (backendStep plan) (FallbackStore.handler op) b

/-! ### The four courses of an operation -/

section Courses

variable {plan : Plan} {b : Backend} {exc exc' : PyExc} {effect effect' : Bool}

/-- How the layer goes on when the primary has answered: a `get` that finds nothing asks the fallback. -/
def answered : (op : StoreOp) → op.Val → BackendM op.Res
  | .get key, none => callFallback (.get key)
  | .get _, some record => .ret (.ok (some record))
  | .putIfAbsent _ _, created => .ret (.ok created)
  | .put _ _, value => .ret (.ok value)

/-- How the layer goes on after its first call of the primary. -/
def afterFirst (op : StoreOp) : op.Res → BackendM op.Res
  | .error exc => if handled exc then FallbackStore.handleError op exc else .ret (.error exc)
  | .ok value => answered op value

theorem handler_eq (op : StoreOp) : FallbackStore.handler op = (callPrimary op).bind (afterFirst op) := by
  cases op with
  | get key =>
    show Prog.call _ _ = Prog.call _ _
    refine congrArg _ ?_
    funext r
    rcases r with exc | _ | record <;> rfl
  | putIfAbsent key record =>
    show Prog.call _ _ = Prog.call _ _
    refine congrArg _ ?_
    funext r
    rcases r with exc | created <;> rfl
  | put key record =>
    show Prog.call _ _ = Prog.call _ _
    refine congrArg _ ?_
    funext r
    rcases r with exc | value <;> rfl

theorem run_callPrimary (op : StoreOp) :
    Prog.run (backendStep plan) (callPrimary op) b = backendStep plan (.primary op) b := rfl

theorem run_callFallback (op : StoreOp) : Prog.run (backendStep plan) (callFallback op) b =
    ((mapStep op b.fallback).1, ⟨b.primary, (mapStep op b.fallback).2, b.calls⟩) := rfl

/-- The primary after a failed call. -/
def afterFailure (op : StoreOp) (s : MapStore) (effect : Bool) : MapStore :=
  if effect then (mapStep op s).2 else s

theorem backendStep_up (h : plan b.calls = none) (op : StoreOp) : backendStep plan (.primary op) b =
    ((mapStep op b.primary).1, ⟨(mapStep op b.primary).2, b.fallback, b.calls + 1⟩) := by
  simp only [backendStep, h]
  rfl

theorem backendStep_down (h : plan b.calls = some (exc, effect)) (op : StoreOp) :
    backendStep plan (.primary op) b =
      (.error exc, ⟨afterFailure op b.primary effect, b.fallback, b.calls + 1⟩) := by
  simp only [backendStep, h, afterFailure]

/-- What a successful call of the primary leads to. -/
def direct : (op : StoreOp) → Backend → op.Res × MapStore
  | .get key, b => (.ok ((b.primary key).or (b.fallback key)), b.primary)
  | .putIfAbsent key record, b => mapStep (.putIfAbsent key record) b.primary
  | .put key record, b => mapStep (.put key record) b.primary

theorem direct_get (key : Str) :
    direct (.get key) b = (.ok ((b.primary key).or (b.fallback key)), b.primary) := rfl

/-- **The primary answers.** -/
theorem serveOp_up (h : plan b.calls = none) (op : StoreOp) :
    serveOp plan op b = ((direct op b).1, ⟨(direct op b).2, b.fallback, b.calls + 1⟩) := by
  unfold serveOp
  rw [handler_eq, Prog.run_bind, run_callPrimary, backendStep_up h]
  cases op with
  | get key =>
    show Prog.run (backendStep plan) (answered (.get key) (b.primary key))
      ⟨b.primary, b.fallback, b.calls + 1⟩ = _
    rw [direct_get]
    cases b.primary key with
    | none => rfl
    | some record => rfl
  | putIfAbsent key record =>
    obtain ⟨created, hc⟩ := mapStep_ok (.putIfAbsent key record) b.primary
    unfold direct
    dsimp only
    rw [hc]
    rfl
  | put key record => rfl

/-- A failed call of the primary. -/
theorem serveOp_failed (h : plan b.calls = some (exc, effect)) (hexc : handled exc = true) (op : StoreOp) :
    serveOp plan op b = Prog.run (backendStep plan) (FallbackStore.handleError op exc)
        ⟨afterFailure op b.primary effect, b.fallback, b.calls + 1⟩ := by
  unfold serveOp
  rw [handler_eq, Prog.run_bind, run_callPrimary, backendStep_down h]
  dsimp only
  rw [afterFirst, if_pos hexc]

/-- **A connection error**: the operation is done on the fallback. -/
theorem serveOp_connection (h : plan b.calls = some (exc, effect)) (hexc : handled exc = true)
    (ht : isTimeout exc = false) (op : StoreOp) : serveOp plan op b =
      ((mapStep op b.fallback).1,
        ⟨afterFailure op b.primary effect, (mapStep op b.fallback).2, b.calls + 1⟩) := by
  rw [serveOp_failed h hexc, FallbackStore.handleError, if_neg (by rw [ht]; exact Bool.false_ne_true)]
  exact run_callFallback op

/-- **A timeout and a successful retry**: the operation ends with the primary's second answer. -/
theorem serveOp_retry (h : plan b.calls = some (exc, effect)) (hexc : handled exc = true)
    (ht : isTimeout exc = true) (h' : plan (b.calls + 1) = none) (op : StoreOp) : serveOp plan op b =
      ((mapStep op (afterFailure op b.primary effect)).1,
        ⟨(mapStep op (afterFailure op b.primary effect)).2, b.fallback, b.calls + 2⟩) := by
  rw [serveOp_failed h hexc, FallbackStore.handleError, if_pos ht, Prog.bind_eq, Prog.run_bind, run_callPrimary,
    backendStep_up h']
  obtain ⟨value, hv⟩ := mapStep_ok op (afterFailure op b.primary effect)
  dsimp only
  rw [hv]
  rfl

/-- **Two timeouts**: the operation raises `StoreUnavailableError("timeout")`. -/
theorem serveOp_unavailable (h : plan b.calls = some (exc, effect)) (hexc : handled exc = true)
    (ht : isTimeout exc = true) (h' : plan (b.calls + 1) = some (exc', effect')) (hexc' : handled exc' = true)
    (ht' : isTimeout exc' = true) (op : StoreOp) : serveOp plan op b =
      (.error (.storeUnavailable true),
        ⟨afterFailure op (afterFailure op b.primary effect) effect', b.fallback, b.calls + 2⟩) := by
  rw [serveOp_failed h hexc, FallbackStore.handleError, if_pos ht, Prog.bind_eq, Prog.run_bind, run_callPrimary,
    backendStep_down h']
  dsimp only
  rw [if_pos hexc', if_pos ht']
  rfl

end Courses

/-! ### A single timeout -/

section Transient

/-- The two ends of an operation do not differ in what is seen of them: the result and the two copies. -/
def SameEnd {op : StoreOp} (x y : op.Res × Backend) : Prop :=
  x.1 = y.1 ∧ x.2.primary = y.2.primary ∧ x.2.fallback = y.2.fallback

/-- **A single transient timeout is invisible** unless a record is read that only the fallback has. -/
theorem transient_timeout_iff {plan plan' : Plan} {b : Backend} {exc : PyExc} (hexc : handled exc = true)
    (ht : isTimeout exc = true) (hfirst : plan b.calls = some (exc, false)) (hretry : plan (b.calls + 1) = none)
    (hdirect : plan' b.calls = none) (op : StoreOp) :
    SameEnd (serveOp plan op b) (serveOp plan' op b) ↔
      ¬ ∃ key, op = .get key ∧ b.primary key = none ∧ b.fallback key ≠ none := by
  unfold SameEnd
  rw [serveOp_retry hfirst hexc ht hretry, serveOp_up hdirect]
  have hstate : afterFailure op b.primary false = b.primary := rfl
  rw [hstate]
  cases op with
  | get key =>
    rw [direct_get]
    have hget : mapStep (.get key) b.primary = (.ok (b.primary key), b.primary) := rfl
    rw [hget]
    constructor
    · rintro ⟨hres, -, -⟩ ⟨key', hkey, hnone, hsome⟩
      obtain rfl : key = key' := by
        injection hkey
      have hor : b.primary key = (b.primary key).or (b.fallback key) := Except.ok.inj hres
      rw [hnone, Option.none_or] at hor
      exact hsome hor.symm
    · intro hnot
      refine ⟨?_, rfl, rfl⟩
      cases hp : b.primary key with
      | some record => rfl
      | none =>
        have hf : b.fallback key = none := by
          by_contra hne
          exact hnot ⟨key, rfl, hp, hne⟩
        rw [hf]
        rfl
  | putIfAbsent key record =>
    refine iff_of_true ⟨rfl, rfl, rfl⟩ ?_
    rintro ⟨key', hkey, -⟩
    cases hkey
  | put key record =>
    refine iff_of_true ⟨rfl, rfl, rfl⟩ ?_
    rintro ⟨key', hkey, -⟩
    cases hkey

/-- A record that an outage has left in the fallback. -/
def leftBehind : MappingRecord := ⟨"a@b.ru".toList, "*@*.**".toList, [("*@*.**".toList, "a@b.ru".toList)]⟩

def afterOutage : Backend := ⟨fun _ => none, Function.update (fun _ => none) "1".toList (some leftBehind), 0⟩

/-- The first call times out without taking effect. -/
def onceLate : Plan := fun i => if i = 0 then some (.timeoutError, false) else none

theorem transient_timeout_iff_put : SameEnd (serveOp onceLate (.put "2".toList leftBehind) afterOutage)
    (serveOp (fun _ => none) (.put "2".toList leftBehind) afterOutage) ↔
      ¬ ∃ key, StoreOp.put "2".toList leftBehind = .get key ∧ afterOutage.primary key = none ∧
        afterOutage.fallback key ≠ none :=
  transient_timeout_iff rfl rfl rfl rfl rfl (.put "2".toList leftBehind)

/-- The record left in the fallback is not found after the retry. -/
theorem transient_timeout_visible :
    ¬ ∀ (plan plan' : Plan) (b : Backend) (exc : PyExc) (op : StoreOp), handled exc = true →
      isTimeout exc = true →
      plan b.calls = some (exc, false) → plan (b.calls + 1) = none → plan' b.calls = none →
      SameEnd (serveOp plan op b) (serveOp plan' op b) := by
  intro h
  obtain ⟨hres, -, -⟩ :=
    h onceLate (fun _ => none) afterOutage .timeoutError (.get "1".toList) rfl rfl rfl rfl rfl
  have hlate : (serveOp onceLate (.get "1".toList) afterOutage).1 = .ok none := rfl
  have hdirect : (serveOp (fun _ => none) (.get "1".toList) afterOutage).1 = .ok (some leftBehind) := rfl
  rw [hlate, hdirect] at hres
  have hnone : (none : Option MappingRecord) = some leftBehind := Except.ok.inj hres
  cases hnone

end Transient

end PdMasking
