import Mathlib.Algebra.Order.Group.Nat
import Mathlib.Algebra.Order.Ring.Nat
import Mathlib.Data.List.Forall2
import Mathlib.Logic.Relation
import PdMasking.Lib.Effect

/-!
# PdMasking.Lib.Pool — programs interleaved over a shared state

A `Pool` is a list of threads, each with its role and what is left of its program, over one state that every
operation reads and writes atomically; `trace` are the operations done so far, newest first.  In a `Step` a
new thread arrives, if its role may arrive now, or some thread performs its next operation.

* `reachable_invariant`: what holds at first and is kept by every step holds whenever the steps are
  interleaved.
* `reachable_sim`: a pool that follows another one step by step, or lags behind, reaches related pools.
* `reachable_schedule`: a schedule in which threads arrive when they may leads to a reachable pool.
* `exists_advance`: a thread that has not returned can go on.
* `trace_length_le`: if no program makes more than `n` calls, `m` threads make at most `n * m` operations
  together.
-/

namespace Prog

variable {Op : Type} {Res : Op → Type} {α : Type}

/-- The program makes at most `n` calls, whatever they return. -/
def Within : ℕ → Prog Op Res α → Prop
  | _, ret _ => True
  | 0, call _ _ => False
  | n + 1, call _ k => ∀ r, Within n (k r)

theorem Within.mono {n m : ℕ} (hnm : n ≤ m) : ∀ {p : Prog Op Res α}, Within n p → Within m p := by
  induction n generalizing m with
  | zero =>
    intro p hp
    cases p with
    | ret a => cases m <;> exact trivial
    | call op k => exact hp.elim
  | succ n ih =>
    intro p hp
    cases p with
    | ret a => cases m <;> exact trivial
    | call op k =>
      obtain ⟨m, rfl⟩ := Nat.exists_eq_succ_of_ne_zero (by omega : m ≠ 0)
      intro r
      exact ih (by omega) (hp r)

end Prog

structure Pool (κ Op : Type) (Res : Op → Type) (α σ : Type) where
  threads : List (κ × Prog Op Res α)
  state : σ
  trace : List Op

namespace Pool

variable {κ Op α σ : Type} {Res : Op → Type}

/-- A thread whose program has returned `a`. -/
def Returned (c : Pool κ Op Res α σ) (k : κ) (a : α) : Prop := (k, Prog.ret a) ∈ c.threads

variable (h : (op : Op) → σ → Res op × σ) (spawn : κ → Prog Op Res α) (mayArrive : Pool κ Op Res α σ → κ → Prop)

inductive Step : Pool κ Op Res α σ → Pool κ Op Res α σ → Prop
  /-- A thread arrives. -/
  | arrive (c : Pool κ Op Res α σ) (k : κ) (hk : mayArrive c k) :
    Step c ⟨(k, spawn k) :: c.threads, c.state, c.trace⟩
  /-- A thread performs its next operation. -/
  | advance (pre post : List (κ × Prog Op Res α)) (k : κ) (op : Op) (next : Res op → Prog Op Res α) (s : σ)
      (trace : List Op) :
    Step ⟨pre ++ (k, .call op next) :: post, s, trace⟩
      ⟨pre ++ (k, next (h op s).1) :: post, (h op s).2, op :: trace⟩

/-- Some interleaving leads from no threads at all and the state `s` to `c`. -/
def Reachable (s : σ) (c : Pool κ Op Res α σ) : Prop :=
  Relation.ReflTransGen (Step h spawn mayArrive) ⟨[], s, []⟩ c

variable {h spawn mayArrive}

/-- **The invariant rule.** -/
theorem reachable_invariant {I : Pool κ Op Res α σ → Prop} {s : σ} {c : Pool κ Op Res α σ}
    (hc : Reachable h spawn mayArrive s c) (h0 : I ⟨[], s, []⟩)
    (harrive : ∀ c k, I c → mayArrive c k → I ⟨(k, spawn k) :: c.threads, c.state, c.trace⟩)
    (hadvance : ∀ pre post k op next s trace, I ⟨pre ++ (k, .call op next) :: post, s, trace⟩ →
      I ⟨pre ++ (k, next (h op s).1) :: post, (h op s).2, op :: trace⟩) : I c := by
  induction hc with
  | refl => exact h0
  | tail _ hstep ih =>
    cases hstep with
    | arrive _ k hk => exact harrive _ k ih hk
    | advance pre post k op next s trace => exact hadvance pre post k op next s trace ih

theorem split_forall₂ {α β : Type} {R : α → β → Prop} : ∀ {as bs : List α} {l : List β},
    List.Forall₂ R (as ++ bs) l → ∃ as' bs', l = as' ++ bs' ∧ List.Forall₂ R as as' ∧ List.Forall₂ R bs bs'
  | [], _, l, h => ⟨[], l, rfl, .nil, h⟩
  | _ :: _, _, _ :: _, .cons ha h => by
    obtain ⟨as', bs', rfl, has, hbs⟩ := split_forall₂ h
    exact ⟨_ :: as', bs', rfl, .cons ha has, hbs⟩

/-- **Simulation**: the threads and the states of two pools are related, and what a thread of the first does
next the related thread of the second does too, or it has done it already. -/
theorem reachable_sim {Op' τ : Type} {Res' : Op' → Type} {h' : (op : Op') → τ → Res' op × τ}
    {spawn' : κ → Prog Op' Res' α} {M : κ × Prog Op Res α → κ × Prog Op' Res' α → Prop} {R : σ → τ → Prop}
    (hspawn : ∀ k, M (k, spawn k) (k, spawn' k))
    (hstep : ∀ k op next t s s', R s s' → M (k, .call op next) t →
      (M (k, next (h op s).1) t ∧ R (h op s).2 s') ∨
        ∃ op' next', t = (k, .call op' next') ∧ M (k, next (h op s).1) (k, next' (h' op' s').1) ∧
          R (h op s).2 (h' op' s').2)
    {s : σ} {s' : τ} (hs : R s s') {c : Pool κ Op Res α σ} (hc : Reachable h spawn (fun _ _ => True) s c) :
    ∃ c', Reachable h' spawn' (fun _ _ => True) s' c' ∧ List.Forall₂ M c.threads c'.threads ∧
      R c.state c'.state := by
  refine reachable_invariant (I := fun c => ∃ c', Reachable h' spawn' (fun _ _ => True) s' c' ∧
    List.Forall₂ M c.threads c'.threads ∧ R c.state c'.state) hc ?_ ?_ ?_
  · exact ⟨⟨[], s', []⟩, .refl, .nil, hs⟩
  · rintro c k ⟨c', hc', hthreads, hrel⟩ -
    exact ⟨_, hc'.tail (.arrive c' k trivial), .cons (hspawn k) hthreads, hrel⟩
  · rintro pre post k op next s trace ⟨⟨threads', s', trace'⟩, hc', hthreads, hrel⟩
    obtain ⟨pre', rest', rfl, hpre, hrest⟩ := split_forall₂ hthreads
    cases hrest with
    | @cons _ t _ post' ht hpost =>
      rcases hstep k op next t s s' hrel ht with ⟨hmatch, hrel'⟩ | ⟨op', next', rfl, hmatch, hrel'⟩
      · exact ⟨_, hc', List.rel_append hpre (.cons hmatch hpost), hrel'⟩
      · exact ⟨_, hc'.tail (.advance pre' post' k op' next' s' trace'),
          List.rel_append hpre (.cons hmatch hpost), hrel'⟩

/-- **Progress**: a thread that has not returned can perform its next operation. -/
theorem exists_advance {c : Pool κ Op Res α σ} {t : κ × Prog Op Res α} (ht : t ∈ c.threads) :
    (∃ a, t.2 = .ret a) ∨ ∃ c', Step h spawn mayArrive c c' ∧ c'.trace.length = c.trace.length + 1 := by
  obtain ⟨threads, s, trace⟩ := c
  obtain ⟨k, p⟩ := t
  obtain ⟨pre, post, rfl⟩ := List.append_of_mem ht
  cases p with
  | ret a => exact Or.inl ⟨a, rfl⟩
  | call op next => exact Or.inr ⟨_, .advance pre post k op next s trace, rfl⟩

/-- Some budgets of the threads, `m` in all, bound the calls they still make. -/
inductive Budgeted : List (κ × Prog Op Res α) → ℕ → Prop
  | nil : Budgeted [] 0
  | cons {t : κ × Prog Op Res α} {ts : List (κ × Prog Op Res α)} {b m : ℕ} (ht : Prog.Within b t.2)
      (hts : Budgeted ts m) : Budgeted (t :: ts) (b + m)

/-- An operation uses up one call of its thread. -/
theorem budgeted_advance {k : κ} {op : Op} {next : Res op → Prog Op Res α} {post : List (κ × Prog Op Res α)} :
    ∀ (pre : List (κ × Prog Op Res α)) {m : ℕ}, Budgeted (pre ++ (k, .call op next) :: post) m →
      ∃ m', m = m' + 1 ∧ ∀ r, Budgeted (pre ++ (k, next r) :: post) m'
  | [], _, hb => by
    cases hb with
    | @cons _ _ b m ht hts =>
      cases b with
      | zero => exact ht.elim
      | succ b => exact ⟨b + m, Nat.add_right_comm b 1 m, fun r => .cons (ht r) hts⟩
  | t :: pre, _, hb => by
    cases hb with
    | @cons _ _ b m ht hts =>
      obtain ⟨m', rfl, h'⟩ := budgeted_advance pre hts
      exact ⟨b + m', rfl, fun r => .cons ht (h' r)⟩

/-- **Termination**: the threads make at most `n` operations each. -/
theorem trace_length_le {n : ℕ} (hspawn : ∀ k, Prog.Within n (spawn k)) {s : σ} {c : Pool κ Op Res α σ}
    (hc : Reachable h spawn mayArrive s c) : c.trace.length ≤ n * c.threads.length := by
  have hbudget : ∃ m, Budgeted c.threads m ∧ c.trace.length + m ≤ n * c.threads.length := by
    refine reachable_invariant (I := fun c => ∃ m, Budgeted c.threads m ∧
      c.trace.length + m ≤ n * c.threads.length) hc ⟨0, .nil, Nat.zero_le _⟩ ?_ ?_
    · rintro c k ⟨m, hb, hle⟩ -
      refine ⟨n + m, .cons (hspawn k) hb, ?_⟩
      show c.trace.length + (n + m) ≤ n * (c.threads.length + 1)
      rw [Nat.mul_succ]
      omega
    · rintro pre post k op next s trace ⟨m, hb, hle⟩
      obtain ⟨m', rfl, h'⟩ := budgeted_advance pre hb
      refine ⟨m', h' _, ?_⟩
      dsimp only at hle ⊢
      rw [List.length_append, List.length_cons] at hle ⊢
      rw [List.length_cons]
      omega
  obtain ⟨m, -, hle⟩ := hbudget
  omega

/-! ### Schedules -/

section Schedule

/-- A step of a schedule: a thread arrives, or the thread at a place goes on. -/
inductive Event (κ : Type)
  | arrive (k : κ)
  | advance (i : ℕ)

variable (h spawn mayArrive)

def perform (c : Pool κ Op Res α σ) : Event κ → Pool κ Op Res α σ
  | .arrive k => ⟨(k, spawn k) :: c.threads, c.state, c.trace⟩
  | .advance i =>
    match c.threads.drop i with
    | (k, .call op next) :: post =>
      ⟨c.threads.take i ++ (k, next (h op c.state).1) :: post, (h op c.state).2, op :: c.trace⟩
    | _ => c

/-- The pool after a schedule. -/
def schedule (c : Pool κ Op Res α σ) (events : List (Event κ)) : Pool κ Op Res α σ :=
  events.foldl (perform h spawn) c

/-- Every thread of the schedule may arrive when it does. -/
def Admissible : Pool κ Op Res α σ → List (Event κ) → Prop
  | _, [] => True
  | c, .arrive k :: events => mayArrive c k ∧ Admissible (perform h spawn c (.arrive k)) events
  | c, .advance i :: events => Admissible (perform h spawn c (.advance i)) events

variable {h spawn mayArrive}

theorem perform_advance (c : Pool κ Op Res α σ) (i : ℕ) : perform h spawn c (.advance i) = c ∨
    Step h spawn mayArrive c (perform h spawn c (.advance i)) := by
  obtain ⟨threads, s, trace⟩ := c
  unfold perform
  dsimp only
  split
  · rename_i k op next post hdrop
    refine Or.inr ?_
    have hsplit : threads = threads.take i ++ (k, .call op next) :: post := by
      rw [← hdrop, List.take_append_drop]
    have hstep : Step h spawn mayArrive ⟨threads.take i ++ (k, .call op next) :: post, s, trace⟩
        ⟨threads.take i ++ (k, next (h op s).1) :: post, (h op s).2, op :: trace⟩ :=
      .advance (threads.take i) post k op next s trace
    rwa [← hsplit] at hstep
  · exact Or.inl rfl

/-- An admissible schedule is one of the interleavings. -/
theorem reachable_schedule {s : σ} {c : Pool κ Op Res α σ} (hc : Reachable h spawn mayArrive s c) :
    ∀ (events : List (Event κ)), Admissible h spawn mayArrive c events →
      Reachable h spawn mayArrive s (schedule h spawn c events)
  | [], _ => hc
  | .arrive k :: events, ⟨hk, hrest⟩ => by
    have hstep : Reachable h spawn mayArrive s (perform h spawn c (.arrive k)) := hc.tail (.arrive c k hk)
    exact reachable_schedule hstep events hrest
  | .advance i :: events, hrest => by
    have hstep : Reachable h spawn mayArrive s (perform h spawn c (.advance i)) := by
      have hadvance : perform h spawn c (.advance i) = c ∨
          Step h spawn mayArrive c (perform h spawn c (.advance i)) := perform_advance c i
      rcases hadvance with heq | hstep
      · rw [heq]
        exact hc
      · exact hc.tail hstep
    exact reachable_schedule hstep events hrest

end Schedule

end Pool
