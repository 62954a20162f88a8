import Mathlib.Logic.Basic
import Mathlib.Control.Basic

/-!
# PdMasking.Lib.Effect — programs over an interface of operations

`Prog Op Res α` is a program that calls operations `op : Op`, receives answers of type `Res op` and ends
with a value of type `α`.  The interface gets its meaning elsewhere: `run` by a state transformer for each
operation, `interp` by a program over another interface (a layer), and `run_interp` composes the two.
`run_sim` compares two meanings, `run_sim_calls` only on the operations that a program may call.

`exec` is `run` for programs that may raise an exception, with one rule for each form of program.  `wp` is
the weakest precondition over operations of which only a specification is known, with the rules `wp_bind` and
`wp_interp`; `run_of_wp` is its soundness.
-/

inductive Prog (Op : Type) (Res : Op → Type) (α : Type) : Type
  | ret (a : α)
  | call (op : Op) (k : Res op → Prog Op Res α)

namespace Prog

variable {Op Op' : Type} {Res : Op → Type} {Res' : Op' → Type} {α β γ σ ε : Type}

def bind : Prog Op Res α → (α → Prog Op Res β) → Prog Op Res β
  | ret a, f => f a
  | call op k, f => call op (fun r => bind (k r) f)

instance : Monad (Prog Op Res) where
  pure := ret
  bind := bind

/-- The program that calls one operation and returns its answer. -/
def invoke (op : Op) : Prog Op Res (Res op) := call op ret

/-- A run against a state in which every operation is answered at once. -/
def run (h : (op : Op) → σ → Res op × σ) : Prog Op Res α → σ → α × σ
  | ret a, s => (a, s)
  | call op k, s => run h (k (h op s).1) (h op s).2

/-- The operation a program is about to call. -/
def op? : Prog Op Res α → Option Op
  | ret _ => none
  | call op _ => some op

/-- One operation of a run. -/
def step (h : (op : Op) → σ → Res op × σ) : Prog Op Res α → σ → Prog Op Res α × σ
  | ret a, s => (ret a, s)
  | call op k, s => (k (h op s).1, (h op s).2)

/-- Replace every operation by a program over another interface. -/
def interp (g : (op : Op) → Prog Op' Res' (Res op)) : Prog Op Res α → Prog Op' Res' α
  | ret a => ret a
  | call op k => (g op).bind (fun r => interp g (k r))

theorem bind_assoc (p : Prog Op Res α) (f : α → Prog Op Res β) (g : β → Prog Op Res γ) :
    (p.bind f).bind g = p.bind (fun a => (f a).bind g) := by
  induction p with
  | ret a => rfl
  | call op k ih => exact congrArg (call op) (funext ih)

@[simp] theorem bind_eq (p : Prog Op Res α) (f : α → Prog Op Res β) : p >>= f = p.bind f := rfl

section Run

variable (h : (op : Op) → σ → Res op × σ)

@[simp] theorem run_call (op : Op) (k : Res op → Prog Op Res α) (s : σ) :
    run h (call op k) s = run h (k (h op s).1) (h op s).2 := rfl

theorem run_bind (p : Prog Op Res α) (f : α → Prog Op Res β) (s : σ) :
    run h (p.bind f) s = run h (f (run h p s).1) (run h p s).2 := by
  induction p generalizing s with
  | ret a => rfl
  | call op k ih => exact ih (h op s).1 (h op s).2

/-- **Layering**: running a program through a layer is running it with the layer's operations as primitives. -/
theorem run_interp (h : (op : Op') → σ → Res' op × σ) (g : (op : Op) → Prog Op' Res' (Res op))
    (p : Prog Op Res α) (s : σ) : run h (interp g p) s = run (fun op s => run h (g op) s) p s := by
  induction p generalizing s with
  | ret a => rfl
  | call op k ih =>
    rw [interp, run_bind, run_call]
    exact ih _ _

/-- Two state spaces whose operations agree along a relation run the same programs with the same answers. -/
theorem run_sim {τ : Type} {h : (op : Op) → σ → Res op × σ} {h' : (op : Op) → τ → Res op × τ}
    {Rel : σ → τ → Prop} (hop : ∀ op s t, Rel s t → (h op s).1 = (h' op t).1 ∧ Rel (h op s).2 (h' op t).2)
    (p : Prog Op Res α) {s : σ} {t : τ} (hst : Rel s t) :
    (run h p s).1 = (run h' p t).1 ∧ Rel (run h p s).2 (run h' p t).2 := by
  induction p generalizing s t with
  | ret a => exact ⟨rfl, hst⟩
  | call op k ih =>
    obtain ⟨h1, h2⟩ := hop op s t hst
    rw [run_call, run_call, h1]
    exact ih _ h2

/-- What every operation keeps, a run keeps. -/
theorem run_keeps {I : σ → Prop} (hop : ∀ op s, I s → I (h op s).2) (p : Prog Op Res α) {s : σ} (hs : I s) :
    I (run h p s).2 := by
  induction p generalizing s with
  | ret a => exact hs
  | call op k ih => exact ih _ (hop op s hs)

end Run

/-! ### The operations a program may call -/

section Calls

variable {A : Op → Prop}

/-- Every operation the program calls satisfies `A`, whatever the answers are. -/
def Calls (A : Op → Prop) : Prog Op Res α → Prop
  | ret _ => True
  | call op k => A op ∧ ∀ r, Calls A (k r)

theorem calls_bind {p : Prog Op Res α} {f : α → Prog Op Res β} (hp : Calls A p) (hf : ∀ a, Calls A (f a)) :
    Calls A (p.bind f) := by
  induction p with
  | ret a => exact hf a
  | call op k ih => exact ⟨hp.1, fun r => ih r (hp.2 r)⟩

/-- A layer that keeps to `B` for the operations of `A`. -/
theorem calls_interp {B : Op' → Prop} {g : (op : Op) → Prog Op' Res' (Res op)} (hg : ∀ op, A op → Calls B (g op))
    {p : Prog Op Res α} (hp : Calls A p) : Calls B (interp g p) := by
  induction p with
  | ret a => exact trivial
  | call op k ih => exact calls_bind (hg op hp.1) (fun r => ih r (hp.2 r))

/-- `run_sim` for the operations that are called. -/
theorem run_sim_calls {τ : Type} {h : (op : Op) → σ → Res op × σ} {h' : (op : Op) → τ → Res op × τ}
    {R : σ → τ → Prop}
    (hop : ∀ op s t, A op → R s t → (h op s).1 = (h' op t).1 ∧ R (h op s).2 (h' op t).2) {p : Prog Op Res α}
    (hp : Calls A p) {s : σ} {t : τ} (hst : R s t) :
    (run h p s).1 = (run h' p t).1 ∧ R (run h p s).2 (run h' p t).2 := by
  induction p generalizing s t with
  | ret a => exact ⟨rfl, hst⟩
  | call op k ih =>
    obtain ⟨h1, h2⟩ := hop op s t hp.1 hst
    rw [run_call, run_call, h1]
    exact ih _ (hp.2 _) h2

end Calls

/-! ### Programs that may raise -/

section Exec

variable (h : (op : Op) → σ → Res op × σ)

/-- The run of a program that may raise an exception of type `ε`. -/
def exec (x : ExceptT ε (Prog Op Res) α) (s : σ) : Except ε α × σ := run h x.run s

theorem exec_bind (x : ExceptT ε (Prog Op Res) α) (f : α → ExceptT ε (Prog Op Res) β) (s : σ) :
    exec h (x >>= f) s =
      match exec h x s with
      | (.ok a, s') => exec h (f a) s'
      | (.error e, s') => (.error e, s') := by
  show run h (x.run.bind _) s = _
  rw [run_bind]
  unfold exec
  cases hx : run h x.run s with
  | mk r s' =>
    cases r with
    | ok a => rfl
    | error e => rfl

variable {h}

theorem exec_bind_ok {x : ExceptT ε (Prog Op Res) α} {f : α → ExceptT ε (Prog Op Res) β} {s s' : σ} {a : α}
    (hx : exec h x s = (.ok a, s')) : exec h (x >>= f) s = exec h (f a) s' := by
  rw [exec_bind, hx]

end Exec

/-! ### Operations known by a specification only -/

section Wp

/-- What one operation may answer and leave behind. -/
abbrev OpSpec (Op : Type) (Res : Op → Type) (σ : Type) := (op : Op) → σ → Res op → σ → Prop

variable (spec : OpSpec Op Res σ)

/-- `Q` holds at the end of every run in which the operations keep to their specification. -/
def wp : Prog Op Res α → (α → σ → Prop) → σ → Prop
  | ret a, Q, s => Q a s
  | call op k, Q, s => ∀ r s', spec op s r s' → wp (k r) Q s'

variable {spec}

theorem wp_bind {Q : β → σ → Prop} {f : α → Prog Op Res β} : ∀ {p : Prog Op Res α} {s : σ},
    wp spec p (fun a s' => wp spec (f a) Q s') s → wp spec (p.bind f) Q s
  | ret _, _, h => h
  | call _ _, _, h => fun r s' hop => wp_bind (h r s' hop)

theorem wp_mono {Q Q' : α → σ → Prop} (hQ : ∀ a s, Q a s → Q' a s) : ∀ {p : Prog Op Res α} {s : σ},
    wp spec p Q s → wp spec p Q' s
  | ret a, s, h => hQ a s h
  | call _ _, _, h => fun r s' hop => wp_mono hQ (h r s' hop)

/-- A layer whose programs keep to the specification of the operations that they stand for. -/
theorem wp_interp {spec' : OpSpec Op' Res' σ} {g : (op : Op) → Prog Op' Res' (Res op)}
    (hg : ∀ op s, wp spec' (g op) (fun r s' => spec op s r s') s) {Q : α → σ → Prop} :
    ∀ {p : Prog Op Res α} {s : σ}, wp spec p Q s → wp spec' (interp g p) Q s
  | ret _, _, h => h
  | call op _, s, h => wp_bind (wp_mono (fun r s' hop => wp_interp hg (h r s' hop)) (hg op s))

/-- **Soundness**: operations that refine their specification along `abs`, while `I` holds, run the program
to an end that satisfies the postcondition. -/
theorem run_of_wp {τ : Type} {h : (op : Op) → τ → Res op × τ} (abs : τ → σ) (I : τ → Prop)
    (hop : ∀ op t, I t → spec op (abs t) (h op t).1 (abs (h op t).2) ∧ I (h op t).2) {Q : α → σ → Prop} :
    ∀ {p : Prog Op Res α} {t : τ}, I t → wp spec p Q (abs t) →
      Q (run h p t).1 (abs (run h p t).2) ∧ I (run h p t).2
  | ret _, _, ht, hwp => ⟨hwp, ht⟩
  | call op _, t, ht, hwp => by
    obtain ⟨hspec, hinv⟩ := hop op t ht
    rw [run_call]
    exact run_of_wp abs I hop hinv (hwp _ _ hspec)

end Wp

end Prog
