import PdMasking.Config
import PdMasking.Lib.Pool

/-!
# PdMasking.Concurrent — parallel requests under one id, store operations interleaved

The threads of the pool are requests with the text `X` and requests with its mask; the latter arrive only
when one of the former has returned.  A pool is either `Fresh` (no record yet: every thread is before its
lookup or its insertion) or `Stored` (the record of `X` is there: one thread has returned `MASK`, no other
will).  `agreed_reachable` is the invariant, `parallel_retries_agree` what follows for the responses.
-/

namespace PdMasking

/-- What a request carries: the text or its mask. -/
inductive Role
  | source | masked
  deriving DecidableEq

/-- The pool of the requests. -/
abbrev Requests := Pool Role StoreOp StoreOp.Res Response MapStore

section

variable (P : Processor) (id text : Str) (policy : SystemPolicy) (o : ProcessOutcome)

/-- The payload of a request: `text`, or the mask `o.result` of it. -/
def payloadOf : Role → Str
  | .source => text
  | .masked => o.result

def request (k : Role) : Prog StoreOp StoreOp.Res Response := (P.process id (payloadOf text o k) policy).run

/-- Requests with the mask start after a request with the text has returned. -/
def mayArrive (c : Requests) : Role → Prop
  | .source => True
  | .masked => ∃ response, c.Returned .source response

end

/-- The thread has returned with the direction `MASK`. -/
def isMaskResponse (t : Role × Prog StoreOp StoreOp.Res Response) : Bool :=
  match t.2 with
  | .ret (.ok o) => o.direction = .mask
  | _ => false

theorem isMaskResponse_call {k : Role} {op : StoreOp}
    {next : StoreOp.Res op → Prog StoreOp StoreOp.Res Response} :
    isMaskResponse (k, .call op next) = false := rfl

/-! ### Every request makes at most four store operations -/

section Within

variable (P : Processor) (id payload : Str) (policy : SystemPolicy)

theorem within_existing (record : MappingRecord) : Prog.Within 1 (P.existing id payload record policy).run := by
  rw [P.existing_eq]
  rcases P.answer payload record policy with e | ⟨outcome, _ | newRecord⟩
  · exact trivial
  · exact trivial
  · rintro (e | u)
    · exact trivial
    · exact trivial

theorem within_process : Prog.Within 4 (P.process id payload policy).run := by
  rw [P.process_eq]
  rintro (e | _ | record)
  · exact trivial
  · -- an unknown id: the insertion and, after losing it, the second lookup
    show Prog.Within 3 (P.afterLookup id payload policy none).run
    unfold Processor.afterLookup
    rcases P.mask payload policy with e | ⟨outcome, record⟩
    · exact trivial
    · rintro (e | _ | _)
      · exact trivial
      · show Prog.Within 2 (P.reread id payload policy outcome).run
        rintro (e | _ | stored)
        · exact trivial
        · exact trivial
        · exact within_existing P id payload policy stored
      · exact trivial
  · show Prog.Within 3 (P.existing id payload record policy).run
    exact Prog.Within.mono (by omega) (within_existing P id payload policy record)

end Within

/-! ### The invariant -/

section Invariant

variable (P : Processor) (id text : Str) (policy : SystemPolicy) (o : ProcessOutcome) (record : MappingRecord)

/-- Before the insertion: every thread carries the text and has not inserted yet. -/
structure Fresh (c : Requests) : Prop where
  state : c.state id = none
  threads : ∀ t ∈ c.threads, t = (.source, request P id text policy o .source) ∨
    t = (.source, (P.insert id text policy o record).run)

/-- What a thread can be once the record is stored. -/
inductive Stage : Role × Prog StoreOp StoreOp.Res Response → Prop
  | lookup (k : Role) : Stage (k, request P id text policy o k)
  | insert : Stage (.source, (P.insert id text policy o record).run)
  | reread : Stage (.source, (P.reread id text policy o).run)
  | inserted : Stage (.source, .ret (.ok o))
  | retried : Stage (.source, .ret (.ok ⟨o.result, .maskRetry, []⟩))
  | unmasked : Stage (.masked, .ret (.ok ⟨text, .unmask, []⟩))

/-- After the insertion: one response has the direction `MASK`. -/
structure Stored (c : Requests) : Prop where
  state : c.state id = some record
  threads : ∀ t ∈ c.threads, Stage P id text policy o record t
  once : c.threads.countP isMaskResponse = 1

/-- No unconditional `put` so far, and the record is that of the text or not there yet. -/
def Agreed (c : Requests) : Prop :=
  (∀ op ∈ c.trace, ∀ key r, op ≠ .put key r) ∧
    (Fresh P id text policy o record c ∨ Stored P id text policy o record c)

end Invariant

section Steps

variable {P : Processor} {id text : Str} {policy : SystemPolicy} {o : ProcessOutcome} {record : MappingRecord}

/-- The operation of a thread that is about to call, as a step of its program. -/
theorem step_of_call {p : Prog StoreOp StoreOp.Res Response} {op : StoreOp}
    {next : StoreOp.Res op → Prog StoreOp StoreOp.Res Response} (hp : .call op next = p) (s : MapStore) :
    (next (mapStep op s).1, (mapStep op s).2) = Prog.step mapStep p s ∧ p.op? = some op := by
  subst hp
  exact ⟨rfl, rfl⟩

theorem step_request (k : Role) (s : MapStore) : Prog.step mapStep (request P id text policy o k) s =
    ((P.afterLookup id (payloadOf text o k) policy (s id)).run, s) := by
  unfold request
  rw [P.process_eq, step_get_bind]

/-- On the record of the text, both kinds of requests are answered from it. -/
theorem existing_stored (hmask : P.mask text policy = .ok (o, record)) (hne : o.result ≠ text)
    (hu : policy.unmaskAllowed = true) (k : Role) :
    Stage P id text policy o record (k, (P.existing id (payloadOf text o k) record policy).run) ∧
      isMaskResponse (k, (P.existing id (payloadOf text o k) record policy).run) = false := by
  obtain ⟨-, horiginal, hmasked⟩ := P.mask_spec hmask
  cases k with
  | source =>
    have ha : P.answer text record policy = .ok (⟨record.masked, .maskRetry, []⟩, none) :=
      Processor.answer_original (by rw [hmasked]; exact Ne.symm hne) horiginal.symm
    rw [P.existing_eq, payloadOf, ha, hmasked]
    exact ⟨.retried, rfl⟩
  | masked =>
    have ha : P.answer o.result record policy = .ok (⟨record.original, .unmask, []⟩, none) :=
      Processor.answer_masked hmasked.symm (Or.inr hu)
    rw [P.existing_eq, payloadOf, ha, horiginal]
    exact ⟨.unmasked, rfl⟩

/-- **One operation after the insertion** keeps the record and makes no new `MASK` response. -/
theorem step_stored (hmask : P.mask text policy = .ok (o, record)) (hne : o.result ≠ text)
    (hu : policy.unmaskAllowed = true) {s : MapStore} (hs : s id = some record) {k : Role} {op : StoreOp}
    {next : StoreOp.Res op → Prog StoreOp StoreOp.Res Response}
    (ht : Stage P id text policy o record (k, .call op next)) :
    Stage P id text policy o record (k, next (mapStep op s).1) ∧
      isMaskResponse (k, next (mapStep op s).1) = false ∧ (mapStep op s).2 = s ∧ ∀ key r, op ≠ .put key r := by
  generalize hp : Prog.call op next = p at ht
  obtain ⟨hstep, hop⟩ := step_of_call hp s
  cases ht with
  | lookup k =>
    rw [step_request, hs] at hstep
    obtain ⟨hnext, hstate⟩ := Prod.mk.inj hstep
    rw [hnext]
    refine ⟨(existing_stored hmask hne hu k).1, (existing_stored hmask hne hu k).2, hstate, ?_⟩
    rintro key r rfl
    cases hop
  | insert =>
    rw [Processor.insert, step_putIfAbsent_bind_some s id record _ hs] at hstep
    obtain ⟨hnext, hstate⟩ := Prod.mk.inj hstep
    rw [hnext]
    refine ⟨.reread, rfl, hstate, ?_⟩
    rintro key r rfl
    cases hop
  | reread =>
    rw [Processor.reread, step_get_bind, hs] at hstep
    obtain ⟨hnext, hstate⟩ := Prod.mk.inj hstep
    rw [hnext]
    refine ⟨(existing_stored hmask hne hu .source).1, (existing_stored hmask hne hu .source).2, hstate, ?_⟩
    rintro key r rfl
    cases hop
  | inserted => cases hp
  | retried => cases hp
  | unmasked => cases hp

/-- **One operation before the insertion**: the thread goes on to its insertion, or it inserts and returns
`MASK`. -/
theorem step_fresh (hmask : P.mask text policy = .ok (o, record)) {s : MapStore} (hs : s id = none) {k : Role}
    {op : StoreOp} {next : StoreOp.Res op → Prog StoreOp StoreOp.Res Response}
    (ht : (k, Prog.call op next) = (Role.source, request P id text policy o .source) ∨
      (k, Prog.call op next) = (Role.source, (P.insert id text policy o record).run)) :
    k = .source ∧ (∀ key r, op ≠ .put key r) ∧
      ((next (mapStep op s).1 = (P.insert id text policy o record).run ∧ (mapStep op s).2 = s) ∨
        (next (mapStep op s).1 = .ret (.ok o) ∧ (mapStep op s).2 = Function.update s id (some record))) := by
  rcases ht with ht | ht
  · obtain ⟨rfl, hp⟩ := Prod.mk.inj ht
    obtain ⟨hstep, hop⟩ := step_of_call hp s
    rw [step_request, hs, payloadOf, Processor.afterLookup, hmask] at hstep
    refine ⟨rfl, ?_, Or.inl (Prod.mk.inj hstep)⟩
    rintro key r rfl
    cases hop
  · obtain ⟨rfl, hp⟩ := Prod.mk.inj ht
    obtain ⟨hstep, hop⟩ := step_of_call hp s
    rw [Processor.insert, step_putIfAbsent_bind_none s id record _ hs] at hstep
    refine ⟨rfl, ?_, Or.inr (Prod.mk.inj hstep)⟩
    rintro key r rfl
    cases hop

/-- A thread before its insertion has not returned. -/
theorem isMaskResponse_fresh {t : Role × Prog StoreOp StoreOp.Res Response}
    (ht : t = (.source, request P id text policy o .source) ∨
      t = (.source, (P.insert id text policy o record).run)) :
    isMaskResponse t = false ∧ Stage P id text policy o record t ∧ ∀ k response, t ≠ (k, .ret response) := by
  rcases ht with rfl | rfl
  · refine ⟨?_, .lookup .source, ?_⟩
    · unfold request
      rw [P.process_eq]
      rfl
    · unfold request
      rw [P.process_eq]
      intro k response hret
      cases hret
  · refine ⟨rfl, .insert, ?_⟩
    intro k response hret
    cases hret

/-- Threads before their insertion make no `MASK` response. -/
theorem countP_fresh {ts : List (Role × Prog StoreOp StoreOp.Res Response)}
    (h : ∀ t ∈ ts, t = (.source, request P id text policy o .source) ∨
      t = (.source, (P.insert id text policy o record).run)) : ts.countP isMaskResponse = 0 := by
  rw [List.countP_eq_zero]
  intro t ht
  rw [(isMaskResponse_fresh (h t ht)).1]
  exact Bool.false_ne_true

theorem agreed_arrive {c : Requests} {k : Role} (h : Agreed P id text policy o record c) (hk : mayArrive c k) :
    Agreed P id text policy o record ⟨(k, request P id text policy o k) :: c.threads, c.state, c.trace⟩ := by
  obtain ⟨htrace, hfresh | hstored⟩ := h
  · refine ⟨htrace, Or.inl ⟨hfresh.state, ?_⟩⟩
    cases k with
    | source =>
      intro t ht
      rcases List.mem_cons.mp ht with rfl | ht
      · exact Or.inl rfl
      · exact hfresh.threads t ht
    | masked =>
      -- nobody has returned yet
      obtain ⟨response, hret⟩ := hk
      exact absurd rfl ((isMaskResponse_fresh (hfresh.threads _ hret)).2.2 .source response)
  · refine ⟨htrace, Or.inr ⟨hstored.state, ?_, ?_⟩⟩
    · intro t ht
      rcases List.mem_cons.mp ht with rfl | ht
      · exact .lookup k
      · exact hstored.threads t ht
    · have hcall : isMaskResponse (k, request P id text policy o k) = false := by
        unfold request
        rw [P.process_eq]
        rfl
      rw [List.countP_cons_of_neg (by rw [hcall]; exact Bool.false_ne_true)]
      exact hstored.once

theorem agreed_advance (hmask : P.mask text policy = .ok (o, record)) (hne : o.result ≠ text)
    (hu : policy.unmaskAllowed = true) {pre post : List (Role × Prog StoreOp StoreOp.Res Response)} {k : Role}
    {op : StoreOp} {next : StoreOp.Res op → Prog StoreOp StoreOp.Res Response} {s : MapStore}
    {trace : List StoreOp}
    (h : Agreed P id text policy o record ⟨pre ++ (k, .call op next) :: post, s, trace⟩) :
    Agreed P id text policy o record
      ⟨pre ++ (k, next (mapStep op s).1) :: post, (mapStep op s).2, op :: trace⟩ := by
  obtain ⟨htrace, hfresh | hstored⟩ := h
  · have hs : s id = none := hfresh.state
    obtain ⟨rfl, hop, hnext⟩ := step_fresh hmask hs (hfresh.threads (k, .call op next) (by simp))
    have hothers : ∀ t ∈ pre ++ post, t = (.source, request P id text policy o .source) ∨
        t = (.source, (P.insert id text policy o record).run) := by
      intro t ht
      refine hfresh.threads t ?_
      rcases List.mem_append.mp ht with ht | ht
      · exact List.mem_append_left _ ht
      · exact List.mem_append_right _ (List.mem_cons_of_mem _ ht)
    refine ⟨List.forall_mem_cons.mpr ⟨hop, htrace⟩, ?_⟩
    rcases hnext with ⟨hp, hstate⟩ | ⟨hp, hstate⟩
    · rw [hp, hstate]
      refine Or.inl ⟨hfresh.state, ?_⟩
      intro t ht
      rcases List.mem_append.mp ht with ht | ht
      · exact hothers t (List.mem_append_left _ ht)
      · rcases List.mem_cons.mp ht with rfl | ht
        · exact Or.inr rfl
        · exact hothers t (List.mem_append_right _ ht)
    · -- the insertion succeeds: the only `MASK` response
      rw [hp, hstate]
      refine Or.inr ⟨Function.update_self id (some record) s, ?_, ?_⟩
      · intro t ht
        rcases List.mem_append.mp ht with ht | ht
        · exact (isMaskResponse_fresh (hothers t (List.mem_append_left _ ht))).2.1
        · rcases List.mem_cons.mp ht with rfl | ht
          · exact .inserted
          · exact (isMaskResponse_fresh (hothers t (List.mem_append_right _ ht))).2.1
      · have hdir : isMaskResponse (Role.source, .ret (.ok o)) = true := by
          show decide (o.direction = .mask) = true
          rw [(P.mask_spec hmask).1]
          rfl
        have hzero := countP_fresh hothers
        rw [List.countP_append] at hzero
        rw [List.countP_append, List.countP_cons_of_pos hdir]
        omega
  · have hs : s id = some record := hstored.state
    obtain ⟨hstage, hno, hstate, hop⟩ :=
      step_stored hmask hne hu hs (hstored.threads (k, .call op next) (by simp))
    refine ⟨List.forall_mem_cons.mpr ⟨hop, htrace⟩, Or.inr ⟨?_, ?_, ?_⟩⟩
    · rw [hstate]
      exact hstored.state
    · intro t ht
      rcases List.mem_append.mp ht with ht | ht
      · exact hstored.threads t (List.mem_append_left _ ht)
      · rcases List.mem_cons.mp ht with rfl | ht
        · exact hstage
        · exact hstored.threads t (List.mem_append_right _ (List.mem_cons_of_mem _ ht))
    · have honce := hstored.once
      rw [List.countP_append, List.countP_cons_of_neg (by rw [isMaskResponse_call]; exact Bool.false_ne_true)]
        at honce
      rw [List.countP_append, List.countP_cons_of_neg (by rw [hno]; exact Bool.false_ne_true)]
      exact honce

/-- **The invariant of all interleavings.** -/
theorem agreed_reachable (hmask : P.mask text policy = .ok (o, record)) (hne : o.result ≠ text)
    (hu : policy.unmaskAllowed = true) {s : MapStore} (hs : s id = none) {c : Requests}
    (hc : Pool.Reachable mapStep (request P id text policy o) mayArrive s c) :
    Agreed P id text policy o record c := by
  refine Pool.reachable_invariant hc ?_ ?_ ?_
  · refine ⟨by simp, Or.inl ⟨hs, by simp⟩⟩
  · intro c k h hk
    exact agreed_arrive h hk
  · intro pre post k op next s trace h
    exact agreed_advance hmask hne hu h

end Steps

/-! ### The responses -/

section Responses

variable (P : Processor) {id text : Str} {policy : SystemPolicy} {o : ProcessOutcome} {record : MappingRecord}

/-- **Parallel retries agree**, in every interleaving: every request with the text that has returned got its
mask, every request with the mask got the text; nothing is overwritten; once anyone has returned, exactly
one response had the direction `MASK` and the record of the text is stored.  Every request does return: one
that has not can go on, and each makes at most four store operations. -/
theorem parallel_retries_agree (hmask : P.mask text policy = .ok (o, record)) (hne : o.result ≠ text)
    (hu : policy.unmaskAllowed = true) {s : MapStore} (hs : s id = none) {c : Requests}
    (hc : Pool.Reachable mapStep (request P id text policy o) mayArrive s c) :
    (∀ response, c.Returned .source response → ∃ o', response = .ok o' ∧ o'.result = o.result) ∧
    (∀ response, c.Returned .masked response → ∃ o', response = .ok o' ∧ o'.result = text) ∧
    (∀ op ∈ c.trace, ∀ key r, op ≠ .put key r) ∧
    ((∃ k response, c.Returned k response) →
      c.threads.countP isMaskResponse = 1 ∧ c.state id = some record) ∧
    (∀ t ∈ c.threads, (∃ response, t.2 = .ret response) ∨
      ∃ c', Pool.Step mapStep (request P id text policy o) mayArrive c c' ∧
        c'.trace.length = c.trace.length + 1) ∧
    c.trace.length ≤ 4 * c.threads.length := by
  obtain ⟨htrace, hphase⟩ := agreed_reachable hmask hne hu hs hc
  have hstored : (∃ k response, c.Returned k response) → Stored P id text policy o record c := by
    rintro ⟨k, response, hret⟩
    rcases hphase with hfresh | hstored
    · exact absurd rfl ((isMaskResponse_fresh (hfresh.threads _ hret)).2.2 k response)
    · exact hstored
  have hstage : ∀ k response, c.Returned k response → Stage P id text policy o record (k, .ret response) :=
    fun k response hret => (hstored ⟨k, response, hret⟩).threads _ hret
  have hcall : ∀ k response, request P id text policy o k ≠ .ret response := by
    intro k response hret
    unfold request at hret
    rw [P.process_eq] at hret
    cases hret
  refine ⟨?_, ?_, htrace, ?_, fun t ht => Pool.exists_advance ht, ?_⟩
  · intro response hret
    have hst := hstage .source response hret
    generalize hp : Prog.ret response = p at hst
    cases hst with
    | lookup k => exact absurd hp.symm (hcall _ response)
    | insert => cases hp
    | reread => cases hp
    | inserted =>
      cases hp
      exact ⟨o, rfl, rfl⟩
    | retried =>
      cases hp
      exact ⟨_, rfl, rfl⟩
  · intro response hret
    have hst := hstage .masked response hret
    generalize hp : Prog.ret response = p at hst
    cases hst with
    | lookup k => exact absurd hp.symm (hcall _ response)
    | unmasked =>
      cases hp
      exact ⟨_, rfl, rfl⟩
  · intro hret
    exact ⟨(hstored hret).once, (hstored hret).state⟩
  · exact Pool.trace_length_le (fun k => within_process P id _ policy) hc

/-- A race of two requests and one request with the mask: both look up the id, the first arrival loses the
insertion and reads the record again. -/
def raceEvents : List (Pool.Event Role) :=
  [.arrive .source, .arrive .source, .advance 0, .advance 1, .advance 0, .advance 1, .advance 1,
    .arrive .masked, .advance 0]

/-- The outcome for the text of the race. -/
def raceOutcome : ProcessOutcome := ⟨"*@*.** *@*.**".toList, .mask, [("email".toList, 2)]⟩

def raceRecord : MappingRecord :=
  ⟨"a@b.ru c@d.ru".toList, "*@*.** *@*.**".toList,
    [("*@*.**".toList, "a@b.ru".toList), ("*@*.**".toList, "c@d.ru".toList)]⟩

def racePool : Requests :=
  Pool.schedule mapStep (request sample "1".toList "a@b.ru c@d.ru".toList systems.default raceOutcome)
    ⟨[], fun _ => none, []⟩ raceEvents

/-- In the race everybody has returned. -/
theorem parallel_retries_agree_race :
    racePool.threads = [(.masked, .ret (.ok ⟨"a@b.ru c@d.ru".toList, .unmask, []⟩)),
      (.source, .ret (.ok raceOutcome)),
      (.source, .ret (.ok ⟨"*@*.** *@*.**".toList, .maskRetry, []⟩))] ∧
    (∀ response, racePool.Returned .source response →
      ∃ o', response = .ok o' ∧ o'.result = raceOutcome.result) ∧
    (∀ response, racePool.Returned .masked response →
      ∃ o', response = .ok o' ∧ o'.result = "a@b.ru c@d.ru".toList) ∧
    (∀ op ∈ racePool.trace, ∀ key r, op ≠ .put key r) ∧
    ((∃ k response, racePool.Returned k response) →
      racePool.threads.countP isMaskResponse = 1 ∧ racePool.state "1".toList = some raceRecord) ∧
    (∀ t ∈ racePool.threads, (∃ response, t.2 = .ret response) ∨
      ∃ c', Pool.Step mapStep (request sample "1".toList "a@b.ru c@d.ru".toList systems.default raceOutcome)
        mayArrive racePool c' ∧ c'.trace.length = racePool.trace.length + 1) ∧
    racePool.trace.length ≤ 4 * racePool.threads.length := by
  have hadmissible : Pool.Admissible mapStep
      (request sample "1".toList "a@b.ru c@d.ru".toList systems.default raceOutcome) mayArrive
      ⟨[], fun _ => none, []⟩ raceEvents := by
    refine ⟨trivial, trivial, ⟨.ok raceOutcome, ?_⟩, trivial⟩
    exact List.mem_cons_self
  have hreach : Pool.Reachable mapStep
      (request sample "1".toList "a@b.ru c@d.ru".toList systems.default raceOutcome) mayArrive (fun _ => none)
      racePool := Pool.reachable_schedule .refl raceEvents hadmissible
  have hmask : sample.mask "a@b.ru c@d.ru".toList systems.default = .ok (raceOutcome, raceRecord) := rfl
  exact ⟨rfl, parallel_retries_agree sample hmask (by decide) rfl rfl hreach⟩

end Responses

end PdMasking
