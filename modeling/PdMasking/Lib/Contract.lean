import PdMasking.Lib.Pool

/-!
# PdMasking.Lib.Contract — programs that keep a contract with their operations

`Keeps pre post p Q`: while the operations answer as `post` says, `p` calls only operations that satisfy `pre`, and
what it ends with satisfies `Q`.  Nothing is said about the state, so other programs may do anything in between.

* `keeps_bind`, `keeps_interp`: the rules for a sequence and for a layer.
* `reachable_keeps`: programs that keep the contract keep an invariant of the state together, however they are
  interleaved.
-/

namespace Prog

variable {Op Op' : Type} {Res : Op → Type} {Res' : Op' → Type} {α β : Type} {pre : Op → Prop}
  {post : (op : Op) → Res op → Prop}

def Keeps (pre : Op → Prop) (post : (op : Op) → Res op → Prop) : Prog Op Res α → (α → Prop) → Prop
  | ret a, Q => Q a
  | call op k, Q => pre op ∧ ∀ r, post op r → Keeps pre post (k r) Q

theorem keeps_bind {Q : β → Prop} {f : α → Prog Op Res β} : ∀ {p : Prog Op Res α},
    Keeps pre post p (fun a => Keeps pre post (f a) Q) → Keeps pre post (p.bind f) Q
  | ret _, h => h
  | call _ _, h => ⟨h.1, fun r hr => keeps_bind (h.2 r hr)⟩

theorem keeps_mono {Q Q' : α → Prop} (hQ : ∀ a, Q a → Q' a) : ∀ {p : Prog Op Res α},
    Keeps pre post p Q → Keeps pre post p Q'
  | ret a, h => hQ a h
  | call _ _, h => ⟨h.1, fun r hr => keeps_mono hQ (h.2 r hr)⟩

/-- A layer whose programs keep the contract below as well as the one above. -/
theorem keeps_interp {pre' : Op' → Prop} {post' : (op : Op') → Res' op → Prop}
    {g : (op : Op) → Prog Op' Res' (Res op)} (hg : ∀ op, pre op → Keeps pre' post' (g op) (post op))
    {Q : α → Prop} : ∀ {p : Prog Op Res α}, Keeps pre post p Q → Keeps pre' post' (interp g p) Q
  | ret _, h => h
  | call op _, h => keeps_bind (keeps_mono (fun r hr => keeps_interp hg (h.2 r hr)) (hg op h.1))

end Prog

namespace Pool

variable {κ Op α σ : Type} {Res : Op → Type} {h : (op : Op) → σ → Res op × σ} {spawn : κ → Prog Op Res α}
  {mayArrive : Pool κ Op Res α σ → κ → Prop} {pre : Op → Prop} {post : (op : Op) → Res op → Prop}

/-- **Interleaved programs**: an invariant under which the operations keep their side of the contract, and what the
programs have still to do. -/
theorem reachable_keeps {I : σ → Prop} (hop : ∀ op s, pre op → I s → post op (h op s).1 ∧ I (h op s).2)
    {Q : κ → α → Prop} (hspawn : ∀ c k, mayArrive c k → Prog.Keeps pre post (spawn k) (Q k)) {s : σ} (hs : I s)
    {c : Pool κ Op Res α σ} (hc : Reachable h spawn mayArrive s c) :
    I c.state ∧ ∀ t ∈ c.threads, Prog.Keeps pre post t.2 (Q t.1) := by
  refine reachable_invariant (I := fun c => I c.state ∧ ∀ t ∈ c.threads, Prog.Keeps pre post t.2 (Q t.1)) hc ?_ ?_ ?_
  · exact ⟨hs, List.forall_mem_nil _⟩
  · rintro c k ⟨hstate, hthreads⟩ hk
    exact ⟨hstate, List.forall_mem_cons.mpr ⟨hspawn c k hk, hthreads⟩⟩
  · rintro before after k op next s trace ⟨hstate, hthreads⟩
    obtain ⟨hbefore, hrest⟩ := List.forall_mem_append.mp hthreads
    obtain ⟨hthread, hafter⟩ := List.forall_mem_cons.mp hrest
    obtain ⟨hpost, hstate'⟩ := hop op s hthread.1 hstate
    exact ⟨hstate', List.forall_mem_append.mpr ⟨hbefore, List.forall_mem_cons.mpr ⟨hthread.2 _ hpost, hafter⟩⟩⟩

end Pool
