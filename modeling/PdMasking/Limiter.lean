import Mathlib.Algebra.Order.Ring.Int
import Mathlib.Data.List.Count
import PdMasking.Lib.Pool
import PdMasking.Python

/-!
# PdMasking.Limiter — the number of requests in processing (`api/limiter.py`)

`InflightLimitMiddleware` is a layer before the application, which may suspend at any of its operations; what happens
between two suspensions is one operation here.  That the application raises, or is cancelled while suspended, is among
the answers of its operations.

* `holding_step`: what one operation of a thread does to the counter.
* `inflight_law`: under every interleaving the counter is the number of requests in processing, never more than the
  limit; a request is turned away only when the limit is reached; when all are done the counter is back at zero.
-/

namespace PdMasking

/-- What the middleware reads of the scope. -/
structure Scope where
  type : Str
  path : Str

inductive AsgiMessage
  | start (status : ℕ) (headers : List (Str × Str))
  | body (body : Str)
  | other (type : Str)

/-- The messages sent, or the exception raised. -/
abbrev Sent := Except PyExc (List AsgiMessage)

/-- `_BODY_429` -/
def BODY_429 : Str := "\x7b\"detail\":\"too many requests\"\x7d".toList

/-- The answer under overload. -/
def overload : List AsgiMessage :=
  [.start 429 [("content-type".toList, "application/json".toList), ("retry-after".toList, "1".toList)], .body BODY_429]

inductive LimiterOp (Op : Type)
  /-- `if self._inflight >= self._max`, and else `self._inflight += 1`; whether it was increased. -/
  | enter
  /-- `self._inflight -= 1` -/
  | leave
  /-- An operation of the application. -/
  | app (op : Op)

abbrev LimiterOp.Res {Op : Type} (Res : Op → Type) : LimiterOp Op → Type
  | enter => Bool
  | leave => Unit
  | app op => Res op

section Limiter

variable {Op : Type} (Res : Op → Type)

abbrev LimiterM (α : Type) : Type := Prog (LimiterOp Op) (LimiterOp.Res Res) α

/-- `InflightLimitMiddleware` -/
structure InflightLimitMiddleware where
  app : Scope → Prog Op Res Sent
  maxInflight : ℤ

/-- `scope["type"] == "http"` and `scope["path"] == "/process"` -/
def Scope.limited (scope : Scope) : Bool := scope.type = "http".toList ∧ scope.path = "/process".toList

variable {Res}

/-- A program of the application. -/
def runApp {α : Type} (p : Prog Op Res α) : LimiterM Res α :=
  Prog.interp (fun op => @Prog.invoke (LimiterOp Op) (LimiterOp.Res Res) (.app op)) p

/-- The `try` block, from some point of the application on, and its `finally`. -/
def processing (p : Prog Op Res Sent) : LimiterM Res Sent :=
  (runApp p).bind (fun sent => .call .leave (fun _ => .ret sent))

namespace InflightLimitMiddleware

variable (L : InflightLimitMiddleware Res)

/-- `__call__` -/
def call (scope : Scope) : LimiterM Res Sent :=
  if scope.limited then
    .call .enter (fun entered : Bool => if entered then processing (L.app scope) else .ret (.ok overload))
  else runApp (L.app scope)

/-- The counter and the state of the application. -/
structure Counted (σ : Type) where
  inflight : ℤ
  state : σ

variable {σ : Type} (h : (op : Op) → σ → Res op × σ)

def step : (op : LimiterOp Op) → Counted σ → LimiterOp.Res Res op × Counted σ
  | .enter, s => if L.maxInflight ≤ s.inflight then (false, s) else (true, ⟨s.inflight + 1, s.state⟩)
  | .leave, s => ((), ⟨s.inflight - 1, s.state⟩)
  | .app op, s => ((h op s.state).1, ⟨s.inflight, (h op s.state).2⟩)

/-! ### Who is in processing -/

/-- The request is in processing. -/
def Holding (t : Scope × LimiterM Res Sent) : Prop := t.1.limited = true ∧ ∃ p, t.2 = processing p

/-- The courses of a request: it passes by, it has not asked yet, it is in processing, or it is done. -/
inductive Stage : Scope × LimiterM Res Sent → Prop
  | passing (scope : Scope) (p : Prog Op Res Sent) (hscope : ¬ scope.limited = true) : Stage (scope, runApp p)
  | arrived (scope : Scope) (hscope : scope.limited = true) : Stage (scope, L.call scope)
  | holding (scope : Scope) (p : Prog Op Res Sent) (hscope : scope.limited = true) : Stage (scope, processing p)
  | done (scope : Scope) (sent : Sent) (hscope : scope.limited = true) : Stage (scope, .ret sent)

open Classical in
/-- One if the request is in processing. -/
noncomputable def weight (t : Scope × LimiterM Res Sent) : ℤ := if Holding t then 1 else 0

/-- The number of requests in processing. -/
noncomputable def holders (ts : List (Scope × LimiterM Res Sent)) : ℤ := (ts.map weight).sum

theorem runApp_call {α : Type} (op : Op) (k : Res op → Prog Op Res α) :
    runApp (.call op k) = .call (.app op) (fun r => runApp (k r)) := rfl

theorem processing_call (op : Op) (k : Res op → Prog Op Res Sent) :
    processing (.call op k) = .call (.app op) (fun r => processing (k r)) := rfl

theorem processing_ret (sent : Sent) :
    processing (.ret sent : Prog Op Res Sent) = .call .leave (fun _ => .ret sent) := rfl

theorem weight_passing {scope : Scope} (hscope : ¬ scope.limited = true) (p : LimiterM Res Sent) :
    weight (scope, p) = 0 := if_neg (fun hold => hscope hold.1)

theorem weight_holding {scope : Scope} (hscope : scope.limited = true) (p : Prog Op Res Sent) :
    weight (scope, processing p) = 1 := if_pos ⟨hscope, p, rfl⟩

theorem weight_ret (scope : Scope) (sent : Sent) : weight (scope, (.ret sent : LimiterM Res Sent)) = 0 := by
  refine if_neg ?_
  rintro ⟨-, p, hp⟩
  cases p <;> cases hp

theorem weight_enter (scope : Scope) (k : Bool → LimiterM Res Sent) : weight (scope, .call .enter k) = 0 := by
  refine if_neg ?_
  rintro ⟨-, p, hp⟩
  cases p <;> cases hp

theorem call_limited {scope : Scope} (hscope : scope.limited = true) : L.call scope =
    .call .enter (fun entered : Bool => if entered then processing (L.app scope) else .ret (.ok overload)) :=
  if_pos hscope

theorem call_other {scope : Scope} (hscope : ¬ scope.limited = true) : L.call scope = runApp (L.app scope) :=
  if_neg hscope

variable {L}

theorem step_enter_full {s : Counted σ} (hfull : L.maxInflight ≤ s.inflight) : L.step h .enter s = (false, s) :=
  if_pos hfull

theorem step_enter_free {s : Counted σ} (hfree : ¬ L.maxInflight ≤ s.inflight) :
    L.step h .enter s = (true, ⟨s.inflight + 1, s.state⟩) := if_neg hfree

/-- A request arrives. -/
theorem stage_call (scope : Scope) : L.Stage (scope, L.call scope) ∧ weight (scope, L.call scope) = 0 := by
  by_cases hscope : scope.limited = true
  · refine ⟨.arrived scope hscope, ?_⟩
    rw [call_limited L hscope]
    exact weight_enter scope _
  · refine ⟨?_, weight_passing hscope _⟩
    rw [call_other L hscope]
    exact .passing scope _ hscope

/-- **One operation**: the counter follows the request in and out, and lets it in only below the limit. -/
theorem holding_step {scope : Scope} {op : LimiterOp Op} {next : LimiterOp.Res Res op → LimiterM Res Sent}
    (ht : L.Stage (scope, .call op next)) (s : Counted σ) :
    L.Stage (scope, next (L.step h op s).1) ∧
      (L.step h op s).2.inflight - weight (scope, next (L.step h op s).1) =
        s.inflight - weight (scope, .call op next) ∧
      ((L.step h op s).2.inflight ≤ s.inflight ∨ (L.step h op s).2.inflight ≤ L.maxInflight) := by
  generalize hp : Prog.call op next = p at ht
  generalize ht' : (scope, p) = t at ht
  cases ht with
  | passing scope' q hscope =>
    obtain ⟨rfl, rfl⟩ := Prod.mk.inj ht'
    cases q with
    | ret sent => cases hp
    | call op' k =>
      rw [runApp_call] at hp
      cases hp
      refine ⟨.passing scope _ hscope, ?_, Or.inl le_rfl⟩
      rw [weight_passing hscope, weight_passing hscope]
      rfl
  | arrived scope' hscope =>
    obtain ⟨rfl, rfl⟩ := Prod.mk.inj ht'
    have hweight := (stage_call (L := L) scope).2
    rw [call_limited L hscope] at hp
    cases hp
    rw [hweight]
    by_cases hfull : L.maxInflight ≤ s.inflight
    · rw [step_enter_full h hfull]
      refine ⟨.done scope _ hscope, ?_, Or.inl le_rfl⟩
      show s.inflight - weight (scope, .ret (.ok overload)) = s.inflight - 0
      rw [weight_ret]
    · rw [step_enter_free h hfull]
      refine ⟨.holding scope _ hscope, ?_, Or.inr ?_⟩
      · show s.inflight + 1 - weight (scope, processing (L.app scope)) = s.inflight - 0
        rw [weight_holding hscope]
        omega
      · show s.inflight + 1 ≤ L.maxInflight
        omega
  | holding scope' q hscope =>
    obtain ⟨rfl, rfl⟩ := Prod.mk.inj ht'
    cases q with
    | ret sent =>
      rw [processing_ret] at hp
      cases hp
      refine ⟨.done scope sent hscope, ?_, Or.inl ?_⟩
      · rw [weight_holding hscope]
        show s.inflight - 1 - weight (scope, .ret sent) = s.inflight - 1
        rw [weight_ret, sub_zero]
      · show s.inflight - 1 ≤ s.inflight
        omega
    | call op' k =>
      rw [processing_call] at hp
      cases hp
      refine ⟨.holding scope _ hscope, ?_, Or.inl le_rfl⟩
      rw [weight_holding hscope, weight_holding hscope]
      rfl
  | done scope' sent hscope =>
    obtain ⟨rfl, rfl⟩ := Prod.mk.inj ht'
    cases hp

/-! ### Any interleaving -/

theorem holders_append_cons (pre post : List (Scope × LimiterM Res Sent)) (t : Scope × LimiterM Res Sent) :
    holders (pre ++ t :: post) = weight t + holders (pre ++ post) := by
  unfold holders
  rw [List.map_append, List.sum_append, List.map_cons, List.sum_cons, List.map_append, List.sum_append]
  omega

theorem holders_eq_zero : ∀ {ts : List (Scope × LimiterM Res Sent)}, (∀ t ∈ ts, ∃ sent, t.2 = .ret sent) → holders ts = 0
  | [], _ => rfl
  | (scope, p) :: ts, h => by
    obtain ⟨⟨sent, hsent⟩, hrest⟩ := List.forall_mem_cons.mp h
    dsimp only at hsent
    have ih := holders_eq_zero hrest
    show weight (scope, p) + holders ts = 0
    rw [hsent, weight_ret, ih, zero_add]

/-- What holds under every interleaving. -/
structure Inv (L : InflightLimitMiddleware Res)
    (c : Pool Scope (LimiterOp Op) (LimiterOp.Res Res) Sent (Counted σ)) : Prop where
  stages : ∀ t ∈ c.threads, L.Stage t
  counter : c.state.inflight = holders c.threads
  bound : c.state.inflight ≤ max 0 L.maxInflight

theorem inv_reachable {s : σ} {c : Pool Scope (LimiterOp Op) (LimiterOp.Res Res) Sent (Counted σ)}
    (hc : Pool.Reachable (L.step h) L.call (fun _ _ => True) ⟨0, s⟩ c) : Inv L c := by
  refine Pool.reachable_invariant hc ⟨List.forall_mem_nil _, rfl, le_max_left _ _⟩ ?_ ?_
  · rintro c scope hinv -
    obtain ⟨hstage, hweight⟩ := stage_call (L := L) scope
    refine ⟨List.forall_mem_cons.mpr ⟨hstage, hinv.stages⟩, ?_, hinv.bound⟩
    show c.state.inflight = holders ([] ++ (scope, L.call scope) :: c.threads)
    rw [holders_append_cons, hweight, zero_add]
    exact hinv.counter
  · rintro pre post scope op next s trace ⟨hstages, hcounter, hbound⟩
    obtain ⟨hpre, hpost⟩ := List.forall_mem_append.mp hstages
    obtain ⟨ht, hpost⟩ := List.forall_mem_cons.mp hpost
    obtain ⟨hstage, hweight, hlimit⟩ := holding_step h ht s
    refine ⟨List.forall_mem_append.mpr ⟨hpre, List.forall_mem_cons.mpr ⟨hstage, hpost⟩⟩, ?_, ?_⟩
    · dsimp only at hcounter ⊢
      rw [holders_append_cons] at hcounter ⊢
      omega
    · dsimp only at hbound ⊢
      rcases hlimit with hle | hle
      · exact hle.trans hbound
      · exact hle.trans (le_max_right _ _)

/-- **The limit on requests in processing.**  However the requests are interleaved, and however they end, the counter
is the number of requests in processing and does not exceed the limit; a request that asks to be processed is turned
away exactly when that many are in processing; and when every request is done the counter is zero. -/
theorem inflight_law {s : σ} {c : Pool Scope (LimiterOp Op) (LimiterOp.Res Res) Sent (Counted σ)}
    (hc : Pool.Reachable (L.step h) L.call (fun _ _ => True) ⟨0, s⟩ c) :
    (c.state.inflight = holders c.threads ∧ holders c.threads ≤ max 0 L.maxInflight) ∧
      (∀ pre post scope, c.threads = pre ++ (scope, L.call scope) :: post → scope.limited = true →
        ∃ c', Pool.Step (L.step h) L.call (fun _ _ => True) c c' ∧
          if L.maxInflight ≤ holders c.threads then c'.threads = pre ++ (scope, .ret (.ok overload)) :: post ∧
            c'.state = c.state
          else c'.threads = pre ++ (scope, processing (L.app scope)) :: post) ∧
      ((∀ t ∈ c.threads, ∃ sent, t.2 = .ret sent) → c.state.inflight = 0) := by
  have hinv := inv_reachable h hc
  refine ⟨⟨hinv.counter, hinv.counter ▸ hinv.bound⟩, ?_, ?_⟩
  · intro pre post scope hthreads hscope
    obtain ⟨threads, s', trace⟩ := c
    dsimp only at hthreads
    subst hthreads
    have hcounter := hinv.counter
    rw [call_limited L hscope] at hcounter ⊢
    dsimp only at hcounter ⊢
    refine ⟨_, .advance pre post scope .enter _ s' trace, ?_⟩
    by_cases hfull : L.maxInflight ≤ s'.inflight
    · rw [step_enter_full h hfull, if_pos (hcounter ▸ hfull)]
      exact ⟨rfl, rfl⟩
    · rw [step_enter_free h hfull, if_neg (hcounter ▸ hfull)]
      rfl
  · intro hall
    rw [hinv.counter]
    exact holders_eq_zero hall

/-- An application that suspends once and answers, behind a limit of one. -/
def sampleLimiter : InflightLimitMiddleware (fun _ : Unit => Unit) :=
  ⟨fun _ => .call () (fun _ => .ret (.ok [.start 200 [], .body []])), 1⟩

/-- A second request comes while the first one is suspended. -/
def twoEvents : List (Pool.Event Scope) :=
  [.arrive ⟨"http".toList, "/process".toList⟩, .advance 0, .arrive ⟨"http".toList, "/process".toList⟩]

def twoAtOnce : Pool Scope (LimiterOp Unit) (LimiterOp.Res (fun _ => Unit)) Sent (Counted Unit) :=
  Pool.schedule (sampleLimiter.step (fun _ s => ((), s))) sampleLimiter.call ⟨[], ⟨0, ()⟩, []⟩ twoEvents

theorem twoAtOnce_reachable : Pool.Reachable (sampleLimiter.step (fun _ s => ((), s))) sampleLimiter.call
    (fun _ _ => True) ⟨0, ()⟩ twoAtOnce :=
  Pool.reachable_schedule .refl twoEvents ⟨trivial, trivial, trivial⟩

theorem inflight_law_two : twoAtOnce.state.inflight = holders twoAtOnce.threads ∧ holders twoAtOnce.threads ≤ max 0 1 :=
  (inflight_law (fun _ s => ((), s)) twoAtOnce_reachable).1

end InflightLimitMiddleware

end Limiter

end PdMasking
