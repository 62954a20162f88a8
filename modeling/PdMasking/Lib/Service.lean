import Mathlib.Data.List.Basic
import Mathlib.Data.List.Induction

/-!
# PdMasking.Lib.Service — a service that answers requests one after another

`handle` answers one request and may change the state.  A `Session` is the state together with the log of the
answered requests, newest first; `run` is the session after a list of requests.

* `run_invariant`: what the first session satisfies and every answered request keeps holds after every run.
* `run_sim`: two services that agree step by step agree on every run.
* `latest`: the newest entry of the log that passes a test; `exists_mem_of_latest`, `latest_ne_none`.
-/

namespace Service

variable {Req Resp σ β : Type}

structure Session (Req Resp σ : Type) where
  log : List (Req × Resp)
  state : σ

section Run

variable (handle : σ → Req → Resp × σ)

/-- The session after one more request. -/
def answer (w : Session Req Resp σ) (r : Req) : Session Req Resp σ :=
  ⟨(r, (handle w.state r).1) :: w.log, (handle w.state r).2⟩

/-- The session after the requests `rs`, from the state `s`. -/
def run (s : σ) (rs : List Req) : Session Req Resp σ := rs.foldl (answer handle) ⟨[], s⟩

theorem run_concat (s : σ) (rs : List Req) (r : Req) :
    run handle s (rs ++ [r]) = answer handle (run handle s rs) r := by
  rw [run, List.foldl_append]
  rfl

variable {handle}

/-- **The invariant rule**, for the requests that satisfy `A`. -/
theorem run_invariant {A : Req → Prop} {I : Session Req Resp σ → Prop} {s : σ} {rs : List Req}
    (hA : ∀ r ∈ rs, A r) (h0 : I ⟨[], s⟩) (hstep : ∀ w r, A r → I w → I (answer handle w r)) :
    I (run handle s rs) := by
  induction rs using List.reverseRecOn with
  | nil => exact h0
  | append_singleton rs r ih =>
    rw [run_concat]
    refine hstep _ _ (hA r (by simp)) (ih ?_)
    intro r' hr'
    exact hA r' (List.mem_append_left _ hr')

/-- **Simulation**: services whose answers agree along a relation of their states answer a run alike. -/
theorem run_sim {τ : Type} {handle' : τ → Req → Resp × τ} {A : Req → Prop} {R : σ → τ → Prop}
    (hstep : ∀ s t r, A r → R s t → (handle s r).1 = (handle' t r).1 ∧ R (handle s r).2 (handle' t r).2)
    {s : σ} {t : τ} (hst : R s t) {rs : List Req} (hA : ∀ r ∈ rs, A r) :
    (run handle s rs).log = (run handle' t rs).log ∧ R (run handle s rs).state (run handle' t rs).state := by
  induction rs using List.reverseRecOn with
  | nil => exact ⟨rfl, hst⟩
  | append_singleton rs r ih =>
    obtain ⟨hlog, hrel⟩ := ih (fun r' hr' => hA r' (List.mem_append_left _ hr'))
    obtain ⟨hresponse, hnext⟩ := hstep _ _ r (hA r (by simp)) hrel
    rw [run_concat, run_concat]
    refine ⟨?_, hnext⟩
    show (r, _) :: _ = (r, _) :: _
    rw [hresponse, hlog]

theorem length_log (s : σ) (rs : List Req) : (run handle s rs).log.length = rs.length := by
  induction rs using List.reverseRecOn with
  | nil => rfl
  | append_singleton rs r ih =>
    rw [run_concat, List.length_append, ← ih]
    rfl

/-- The log holds requests of the run only. -/
theorem mem_of_mem_log {s : σ} {rs : List Req} : ∀ e ∈ (run handle s rs).log, e.1 ∈ rs := by
  refine run_invariant (A := (· ∈ rs)) (I := fun w => ∀ e ∈ w.log, e.1 ∈ rs) (fun r hr => hr) ?_ ?_
  · intro e he
    cases he
  · intro w r hr hw e he
    rcases List.mem_cons.mp he with rfl | he
    · exact hr
    · exact hw e he

end Run

/-! ### The newest entry that passes a test -/

/-- The newest entry on which `test` is defined, with what `test` reads off it. -/
def latest (test : Req → Resp → Option β) : List (Req × Resp) → Option β
  | [] => none
  | (r, o) :: log => (test r o).or (latest test log)

section Latest

variable {test : Req → Resp → Option β} {r : Req} {o : Resp} {log : List (Req × Resp)}

theorem latest_cons_of_none (h : test r o = none) : latest test ((r, o) :: log) = latest test log := by
  rw [latest, h, Option.none_or]

theorem latest_cons_of_some {b : β} (h : test r o = some b) : latest test ((r, o) :: log) = some b := by
  rw [latest, h, Option.some_or]

theorem exists_mem_of_latest {b : β} : ∀ {log : List (Req × Resp)}, latest test log = some b →
    ∃ e ∈ log, test e.1 e.2 = some b
  | [], h => by simp [latest] at h
  | (r, o) :: log, h => by
    cases ht : test r o with
    | none =>
      rw [latest_cons_of_none ht] at h
      obtain ⟨e, he, hb⟩ := exists_mem_of_latest h
      exact ⟨e, List.mem_cons_of_mem _ he, hb⟩
    | some c =>
      rw [latest_cons_of_some ht] at h
      exact ⟨(r, o), List.mem_cons_self, ht.trans h⟩

theorem latest_ne_none {e : Req × Resp} : ∀ {log : List (Req × Resp)}, e ∈ log → test e.1 e.2 ≠ none →
    latest test log ≠ none
  | (r, o) :: log, he, ht => by
    cases h : test r o with
    | some b =>
      rw [latest_cons_of_some h]
      exact Option.some_ne_none b
    | none =>
      rw [latest_cons_of_none h]
      rcases List.mem_cons.mp he with rfl | he
      · exact absurd h ht
      · exact latest_ne_none he ht

end Latest

end Service
