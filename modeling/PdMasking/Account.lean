import PdMasking.Endpoint
import PdMasking.Policies

/-!
# PdMasking.Account — what the counters of a run say (`observability/metrics.py`)

A counter is the sum of its increments over the replies of a run.

* `process_counts`: over any store, the types of an outcome are those that the engine finds, or none.
* `metrics_account`: every request of a run is counted once, and every entity that was masked.
-/

namespace PdMasking

/-- What an event adds to a counter. -/
def MetricEvent.amount (metric : Metric) : MetricEvent → ℕ
  | inc m n => if m = metric then n else 0
  | observe _ _ => 0

/-- The value of a counter after some events. -/
def counted (metric : Metric) (events : List MetricEvent) : ℕ := (events.map (MetricEvent.amount metric)).sum

theorem counted_append (metric : Metric) (events events' : List MetricEvent) :
    counted metric (events ++ events') = counted metric events + counted metric events' := by
  unfold counted
  rw [List.map_append, List.sum_append]

theorem counted_flatMap {α : Type} (metric : Metric) (f : α → List MetricEvent) (xs : List α) :
    counted metric (xs.flatMap f) = (xs.map (fun x => counted metric (f x))).sum := by
  induction xs with
  | nil => rfl
  | cons x xs ih => rw [List.flatMap_cons, counted_append, List.map_cons, List.sum_cons, ih]

/-! ### The types of an outcome -/

section Outcome

/-- How many entities of the type the engine finds. -/
def found (P : Processor) (policy : SystemPolicy) (text : Str) (t : PDType) : ℕ :=
  ((P.engine.detect P.runtime text policy.pdTypes policy.combinations).filter (fun e => e.pdType = t)).length

/-- A text that was masked has the types that the engine finds, any other answer has none. -/
def CountsMasked (P : Processor) (policy : SystemPolicy) (text : Str) (o : ProcessOutcome) : Prop :=
  (o.direction = .mask ∧
    o.pdTypes = pdCounts (P.engine.detect P.runtime text policy.pdTypes policy.combinations)) ∨
  (o.direction ≠ .mask ∧ o.pdTypes = [])

/-- Operations that may answer anything. -/
def anyAnswer : Prog.OpSpec StoreOp StoreOp.Res Unit := fun _ _ _ _ => True

variable {P : Processor} {policy : SystemPolicy} {payload : Str}

theorem counts_of_mask {o : ProcessOutcome} {record : MappingRecord} (h : P.mask payload policy = .ok (o, record)) :
    CountsMasked P policy payload o := by
  obtain ⟨m, -, rfl, -⟩ := P.mask_inv h
  exact Or.inl ⟨rfl, rfl⟩

theorem counts_of_answer {o : ProcessOutcome} {record : MappingRecord} {new : Option MappingRecord}
    (h : P.answer payload record policy = .ok (o, new)) : CountsMasked P policy payload o := by
  unfold Processor.answer at h
  split_ifs at h
  · cases h
    exact Or.inr ⟨Direction.noConfusion, rfl⟩
  · cases h
    exact Or.inr ⟨Direction.noConfusion, rfl⟩
  · cases h
    exact Or.inr ⟨Direction.noConfusion, rfl⟩
  · rcases hm : P.mask payload policy with e | ⟨o', record'⟩
    · rw [hm] at h
      cases h
    · rw [hm] at h
      cases h
      exact counts_of_mask hm

/-- The postcondition of `process`. -/
def Counted (P : Processor) (policy : SystemPolicy) (text : Str) (response : Response) (_ : Unit) : Prop :=
  ∀ o, response = .ok o → CountsMasked P policy text o

theorem counted_error (e : PyExc) : Counted P policy payload (.error e) () := by
  rintro o ⟨⟩

theorem counted_ok {o : ProcessOutcome} (h : CountsMasked P policy payload o) : Counted P policy payload (.ok o) () := by
  rintro o' ⟨⟩
  exact h

theorem existing_counts (id : Str) (record : MappingRecord) :
    Prog.wp anyAnswer (P.existing id payload record policy).run (Counted P policy payload) () := by
  rw [P.existing_eq]
  rcases ha : P.answer payload record policy with e | ⟨o, _ | newRecord⟩
  · exact counted_error e
  · exact counted_ok (counts_of_answer ha)
  · rintro (e | u) s' -
    · exact counted_error e
    · exact counted_ok (counts_of_answer ha)

/-- **The types of an outcome**, over any store. -/
theorem process_counts (id : Str) :
    Prog.wp anyAnswer (P.process id payload policy).run (Counted P policy payload) () := by
  rw [P.process_eq]
  rintro (e | _ | record) s' -
  · exact counted_error e
  · show Prog.wp _ (P.afterLookup id payload policy none).run _ _
    unfold Processor.afterLookup
    rcases hm : P.mask payload policy with e | ⟨o, record⟩
    · exact counted_error e
    · rintro (e | _ | _) s'' -
      · exact counted_error e
      · rintro (e | _ | stored) s₃ -
        · exact counted_error e
        · exact counted_ok (counts_of_mask hm)
        · exact existing_counts id stored
      · exact counted_ok (counts_of_mask hm)
  · exact existing_counts id record

theorem deployed_counts {T Blob Nonce : Type} [LinearOrder T] [Add T] (D : Stores T Blob Nonce) (plan : RedisPlan)
    (d : Deployed T Blob) (r : Request) : Counted P r.policy r.payload (serveDeployed P D plan d r).1 () := by
  unfold serveDeployed
  rw [Prog.run_interp]
  exact (Prog.run_of_wp (fun _ => ()) (fun _ => True) (fun _ _ _ => ⟨trivial, trivial⟩) trivial
    (process_counts r.payloadId)).1

end Outcome

/-! ### What one reply adds -/

section Reply

/-- The sum over distinct elements, of which one is asked for. -/
theorem sum_eraseDups {α : Type} [DecidableEq α] (f : α → ℕ) (a : α) : ∀ (n : ℕ) (xs : List α), xs.length ≤ n →
    (xs.eraseDups.map (fun x => if x = a then f x else 0)).sum = if a ∈ xs then f a else 0
  | _, [], _ => rfl
  | n + 1, x :: xs, hn => by
    have hlen : (xs.filter (fun b => !b == x)).length ≤ n :=
      (List.length_filter_le _ xs).trans (Nat.le_of_succ_le_succ hn)
    rw [List.eraseDups_cons, List.map_cons, List.sum_cons, sum_eraseDups f a n _ hlen]
    by_cases hxa : x = a
    · subst hxa
      have hnot : x ∉ xs.filter (fun b => !b == x) := by simp
      rw [if_pos rfl, if_neg hnot, if_pos List.mem_cons_self, Nat.add_zero]
    · have hiff : a ∈ xs.filter (fun b => !b == x) ↔ a ∈ x :: xs := by
        have hax : ¬ a = x := fun h => hxa h.symm
        simp [hax]
      rw [if_neg hxa, Nat.zero_add]
      exact if_congr hiff rfl rfl

/-- What the types of a masked text add to the counter of a type. -/
theorem counted_pdCounts (P : Processor) (policy : SystemPolicy) (text : Str) (t : PDType) :
    counted (.PD_FOUND t.value) ((pdCounts (P.engine.detect P.runtime text policy.pdTypes policy.combinations)).map
      (fun c => .inc (.PD_FOUND c.1) c.2)) = found P policy text t := by
  unfold counted pdCounts found
  generalize P.engine.detect P.runtime text policy.pdTypes policy.combinations = es
  rw [List.map_map, List.map_map]
  have hamount : (MetricEvent.amount (.PD_FOUND t.value) ∘ (fun c : Str × ℕ => MetricEvent.inc (.PD_FOUND c.1) c.2)) ∘
      (fun u : PDType => (u.value, (es.filter (fun e => e.pdType = u)).length)) =
      fun u => if u = t then (es.filter (fun e => e.pdType = u)).length else 0 := by
    funext u
    show (if Metric.PD_FOUND u.value = .PD_FOUND t.value then _ else 0) = _
    refine if_congr ?_ rfl rfl
    rw [Metric.PD_FOUND.injEq, PDType.value_injective.eq_iff]
  rw [hamount, sum_eraseDups _ t _ _ le_rfl]
  split_ifs with hmem
  · rfl
  · -- no entity has the type
    symm
    rw [List.length_eq_zero_iff, List.filter_eq_nil_iff]
    intro e he heq
    exact hmem (List.mem_map.mpr ⟨e, he, of_decide_eq_true heq⟩)

/-- `pd_requests_total`, over all directions. -/
def requestsTotal (events : List MetricEvent) : ℕ :=
  counted (.REQUESTS Direction.mask.value "ok".toList) events +
    counted (.REQUESTS Direction.maskRetry.value "ok".toList) events +
    counted (.REQUESTS Direction.unmask.value "ok".toList) events +
    counted (.REQUESTS Direction.unmaskFragments.value "ok".toList) events

/-- `pd_rejected_total` for a policy. -/
def refusedTotal (events : List MetricEvent) : ℕ :=
  counted (.REJECTED "system_not_allowed".toList) events + counted (.REJECTED "unmask_forbidden".toList) events

/-- The entities of the type in the text of a request that was masked. -/
def maskedEntities (A : Api) (P : Processor) (t : PDType) (e : Api.Call × Reply) : ℕ :=
  match e.1.body, A.policies.resolve e.1.systemId with
  | .ok body, some policy =>
    if counted (.REQUESTS Direction.mask.value "ok".toList) e.2.metrics = 1 then found P policy body.payload t else 0
  | _, _ => 0

/-- What a reply says in its status, it adds to the counters. -/
structure Tallied (A : Api) (P : Processor) (e : Api.Call × Reply) : Prop where
  requests : requestsTotal e.2.metrics = if e.2.response.status = 200 then 1 else 0
  tooLarge : counted (.REJECTED "too_large".toList) e.2.metrics = if e.2.response.status = 413 then 1 else 0
  refused : refusedTotal e.2.metrics = if e.2.response.status = 403 then 1 else 0
  entities : ∀ t : PDType, counted (.PD_FOUND t.value) e.2.metrics = maskedEntities A P t e
  status : e.2.response.status ∈ [200, 400, 403, 413, 503]

theorem counted_found_ne {metric : Metric} (h : ∀ t, metric ≠ .PD_FOUND t) (counts : List (Str × ℕ)) :
    counted metric (counts.map (fun c => .inc (.PD_FOUND c.1) c.2)) = 0 := by
  induction counts with
  | nil => rfl
  | cons c counts ih =>
    have hc : MetricEvent.amount metric (.inc (.PD_FOUND c.1) c.2) = 0 := if_neg (fun heq => h c.1 heq.symm)
    unfold counted at ih ⊢
    rw [List.map_cons, List.map_cons, List.sum_cons, ih, hc]

section Answered

variable (A : Api) (m : Moment) (policy : SystemPolicy) (body : ProcessRequest) (o : ProcessOutcome)

theorem counted_answered (metric : Metric) : counted metric (A.answered m policy body o).metrics =
    (if Metric.REQUESTS o.direction.value "ok".toList = metric then 1 else 0) +
      (if Metric.TOKENS o.direction.value = metric then estimateTokens body.payload else 0) +
      counted metric (o.pdTypes.map (fun c => .inc (.PD_FOUND c.1) c.2)) := by
  unfold Api.answered
  rw [counted_append]
  simp only [counted, List.map_cons, List.map_nil, List.sum_cons, List.sum_nil, MetricEvent.amount]
  omega

theorem counted_requests (direction : Direction) :
    counted (.REQUESTS direction.value "ok".toList) (A.answered m policy body o).metrics =
      if o.direction = direction then 1 else 0 := by
  have hvalue : o.direction.value = direction.value ↔ o.direction = direction := by
    cases o.direction <;> cases direction <;> decide
  have htokens : Metric.TOKENS o.direction.value ≠ .REQUESTS direction.value "ok".toList := by
    rintro ⟨⟩
  have hfound : ∀ t, Metric.REQUESTS direction.value "ok".toList ≠ .PD_FOUND t := by
    rintro t ⟨⟩
  rw [counted_answered, counted_found_ne hfound, if_neg htokens, Nat.add_zero]
  refine if_congr ?_ rfl rfl
  rw [Metric.REQUESTS.injEq]
  exact (and_iff_left rfl).trans hvalue

theorem counted_rejected (reason : Str) : counted (.REJECTED reason) (A.answered m policy body o).metrics = 0 := by
  have hrequests : Metric.REQUESTS o.direction.value "ok".toList ≠ .REJECTED reason := by
    rintro ⟨⟩
  have htokens : Metric.TOKENS o.direction.value ≠ .REJECTED reason := by
    rintro ⟨⟩
  have hfound : ∀ t, Metric.REJECTED reason ≠ .PD_FOUND t := by
    rintro t ⟨⟩
  rw [counted_answered, counted_found_ne hfound, if_neg hrequests, if_neg htokens]

theorem counted_found (t : Str) : counted (.PD_FOUND t) (A.answered m policy body o).metrics =
    counted (.PD_FOUND t) (o.pdTypes.map (fun c => .inc (.PD_FOUND c.1) c.2)) := by
  have hrequests : Metric.REQUESTS o.direction.value "ok".toList ≠ .PD_FOUND t := by
    rintro ⟨⟩
  have htokens : Metric.TOKENS o.direction.value ≠ .PD_FOUND t := by
    rintro ⟨⟩
  rw [counted_answered, if_neg hrequests, if_neg htokens, Nat.zero_add]

theorem requestsTotal_answered : requestsTotal (A.answered m policy body o).metrics = 1 := by
  unfold requestsTotal
  simp only [counted_requests]
  cases o.direction <;> rfl

end Answered

/-- A reply that counts no request and no entity. -/
theorem tallied_plain {A : Api} {P : Processor} {e : Api.Call × Reply} (status : ℕ)
    (hstatus : e.2.response.status = status) (hne : status ≠ 200) (hin : status ∈ [200, 400, 403, 413, 503])
    (hrequests : requestsTotal e.2.metrics = 0)
    (hmask : counted (.REQUESTS Direction.mask.value "ok".toList) e.2.metrics = 0)
    (hfound : ∀ t : PDType, counted (.PD_FOUND t.value) e.2.metrics = 0)
    (htooLarge : counted (.REJECTED "too_large".toList) e.2.metrics = if status = 413 then 1 else 0)
    (hrefused : refusedTotal e.2.metrics = if status = 403 then 1 else 0) : Tallied A P e := by
  subst hstatus
  refine ⟨?_, htooLarge, hrefused, ?_, hin⟩
  · rw [hrequests, if_neg hne]
  · intro t
    rw [hfound]
    unfold maskedEntities
    rw [hmask]
    split <;> rfl

/-- **One reply over the stores of `build_store`.** -/
theorem handle_tallied {T Blob Nonce : Type} [LinearOrder T] [Add T] {P : Processor} (A : Api) (hP : P.Standard)
    {D : Stores T Blob Nonce} (hcodec : D.codec.Lossless) (plan : RedisPlan) {d : Deployed T Blob} (hd : Authentic D d)
    (call : Api.Call) :
    Tallied A P (call, (A.handle (serveDeployed P D plan) d call).1) := by
  rcases Api.handle_cases A (serveDeployed P D plan) d call with
    ⟨locs, hbody, h⟩ | ⟨body, hbody, ⟨hlarge, h⟩ | ⟨hlarge, hres, h⟩ | ⟨policy, hlarge, hres, h⟩⟩
  · rw [h]
    exact tallied_plain 400 rfl (by decide) (by decide) rfl rfl (fun _ => rfl) rfl rfl
  · rw [h]
    exact tallied_plain 413 rfl (by decide) (by decide) rfl rfl (fun _ => rfl) rfl rfl
  · rw [h]
    exact tallied_plain 403 rfl (by decide) (by decide) rfl rfl (fun _ => rfl) rfl rfl
  · rw [h]
    have hends := deployed_ends plan hP hcodec hd ⟨body.payloadId, body.payload, policy⟩
    have hcounts := deployed_counts (P := P) D plan d ⟨body.payloadId, body.payload, policy⟩
    generalize (serveDeployed P D plan d ⟨body.payloadId, body.payload, policy⟩).1 = response at hends hcounts
    cases hends with
    | forbidden => exact tallied_plain 403 rfl (by decide) (by decide) rfl rfl (fun _ => rfl) rfl rfl
    | unavailable => exact tallied_plain 503 rfl (by decide) (by decide) rfl rfl (fun _ => rfl) rfl rfl
    | answered o =>
      constructor
      · exact requestsTotal_answered A call.moment policy body o
      · exact counted_rejected A call.moment policy body o _
      · show counted _ (A.answered call.moment policy body o).metrics +
          counted _ (A.answered call.moment policy body o).metrics = 0
        rw [counted_rejected, counted_rejected]
      · intro t
        have hentities : maskedEntities A P t (call, A.answered call.moment policy body o) =
            if o.direction = .mask then found P policy body.payload t else 0 := by
          unfold maskedEntities
          rw [hbody, hres]
          dsimp only
          rw [counted_requests]
          by_cases hdirection : o.direction = .mask
          · rw [if_pos hdirection, if_pos hdirection, if_pos rfl]
          · rw [if_neg hdirection, if_neg hdirection, if_neg Nat.zero_ne_one]
        show counted (.PD_FOUND t.value) (A.answered call.moment policy body o).metrics =
          maskedEntities A P t (call, A.answered call.moment policy body o)
        rw [hentities, counted_found]
        rcases hcounts o rfl with ⟨hdirection, htypes⟩ | ⟨hdirection, htypes⟩
        · rw [if_pos hdirection, htypes, counted_pdCounts]
        · rw [if_neg hdirection, htypes]
          rfl
      · exact List.mem_cons_self

end Reply

/-! ### A run -/

section Run

variable {T Blob Nonce : Type} [LinearOrder T] [Add T] {P : Processor}

/-- The number of replies with a status. -/
def replies (log : List (Api.Call × Reply)) (status : ℕ) : ℕ :=
  (log.filter (fun e => e.2.response.status = status)).length

/-- The metrics of the replies. -/
def logged (log : List (Api.Call × Reply)) : List MetricEvent := log.flatMap (fun e => e.2.metrics)

section Log

variable {A : Api} {e : Api.Call × Reply} {log : List (Api.Call × Reply)}

theorem counted_logged_cons (metric : Metric) : counted metric (logged (e :: log)) =
    counted metric e.2.metrics + counted metric (logged log) := counted_append _ _ _

theorem replies_cons (status : ℕ) :
    replies (e :: log) status = (if e.2.response.status = status then 1 else 0) + replies log status := by
  unfold replies
  rw [List.filter_cons]
  by_cases h : e.2.response.status = status
  · rw [if_pos (decide_eq_true h), if_pos h, List.length_cons, Nat.add_comm]
  · rw [if_neg (by simpa using h), if_neg h, Nat.zero_add]

theorem requestsTotal_logged (h : ∀ e ∈ log, Tallied A P e) : requestsTotal (logged log) = replies log 200 := by
  induction log with
  | nil => rfl
  | cons e log ih =>
    obtain ⟨he, hlog⟩ := List.forall_mem_cons.mp h
    have hhead := he.requests
    have htail := ih hlog
    unfold requestsTotal at hhead htail ⊢
    rw [replies_cons, ← hhead, ← htail]
    simp only [counted_logged_cons]
    omega

theorem tooLarge_logged (h : ∀ e ∈ log, Tallied A P e) :
    counted (.REJECTED "too_large".toList) (logged log) = replies log 413 := by
  induction log with
  | nil => rfl
  | cons e log ih =>
    obtain ⟨he, hlog⟩ := List.forall_mem_cons.mp h
    rw [replies_cons, ← he.tooLarge, ← ih hlog, counted_logged_cons]

theorem refusedTotal_logged (h : ∀ e ∈ log, Tallied A P e) : refusedTotal (logged log) = replies log 403 := by
  induction log with
  | nil => rfl
  | cons e log ih =>
    obtain ⟨he, hlog⟩ := List.forall_mem_cons.mp h
    have hhead := he.refused
    have htail := ih hlog
    unfold refusedTotal at hhead htail ⊢
    rw [replies_cons, ← hhead, ← htail]
    simp only [counted_logged_cons]
    omega

theorem replies_logged (h : ∀ e ∈ log, Tallied A P e) :
    replies log 200 + replies log 400 + replies log 403 + replies log 413 + replies log 503 = log.length := by
  induction log with
  | nil => rfl
  | cons e log ih =>
    obtain ⟨he, hlog⟩ := List.forall_mem_cons.mp h
    have htail := ih hlog
    simp only [replies_cons, List.length_cons]
    -- the status is one of the five
    have hstatus := he.status
    generalize e.2.response.status = status at hstatus
    have hone : (if status = 200 then 1 else 0) + (if status = 400 then 1 else 0) + (if status = 403 then 1 else 0) +
        (if status = 413 then 1 else 0) + (if status = 503 then 1 else 0) = 1 := by
      revert status
      decide
    omega

theorem found_logged (h : ∀ e ∈ log, Tallied A P e) (t : PDType) :
    counted (.PD_FOUND t.value) (logged log) = (log.map (maskedEntities A P t)).sum := by
  unfold logged
  rw [counted_flatMap]
  exact congrArg List.sum (List.map_congr_left (fun e he => (h e he).entities t))

end Log

/-- **What the counters of a run say**, whatever records the stores hold at first and whatever Redis does:
`pd_requests_total` is the number of answers with status 200, `pd_rejected_total` that of the refusals, 413 and 403;
with the invalid requests, 400, and the store being unavailable, 503, these are all requests.  And `pd_entities_total`
is for every type the number of its entities in the texts that were masked. -/
theorem metrics_account (A : Api) (hP : P.Standard) {D : Stores T Blob Nonce} (hcodec : D.codec.Lossless)
    (plan : RedisPlan) {d : Deployed T Blob} (hd : Authentic D d) (calls : List Api.Call) :
    let log := (Service.run (A.handle (serveDeployed P D plan)) d calls).log
    requestsTotal (logged log) = replies log 200 ∧
    counted (.REJECTED "too_large".toList) (logged log) = replies log 413 ∧
    refusedTotal (logged log) = replies log 403 ∧
    replies log 200 + replies log 400 + replies log 403 + replies log 413 + replies log 503 = calls.length ∧
    ∀ t : PDType, counted (.PD_FOUND t.value) (logged log) = (log.map (maskedEntities A P t)).sum := by
  intro log
  have hall : ∀ e ∈ log, Tallied A P e := by
    have hinv : Authentic D (Service.run (A.handle (serveDeployed P D plan)) d calls).state ∧
        ∀ e ∈ log, Tallied A P e := by
      refine Service.run_invariant (A := fun _ => True) (I := fun w => Authentic D w.state ∧ ∀ e ∈ w.log, Tallied A P e)
        (fun _ _ => trivial) ⟨hd, List.forall_mem_nil _⟩ ?_
      rintro w call - ⟨hw, hlog⟩
      refine ⟨Api.authentic_handle call hw, ?_⟩
      intro e he
      rcases List.mem_cons.mp he with rfl | he
      · exact handle_tallied A hP hcodec plan hw call
      · exact hlog e he
    exact hinv.2
  refine ⟨requestsTotal_logged hall, tooLarge_logged hall, refusedTotal_logged hall, ?_, found_logged hall⟩
  rw [replies_logged hall]
  exact Service.length_log d calls

theorem metrics_account_sample :
    let log := (Service.run (Api.sampleApi.handle (serveDeployed Api.standardSample sampleStores comingAndGoing))
      Api.sampleEmpty [Api.sampleCall, Api.sampleCall]).log
    requestsTotal (logged log) = replies log 200 ∧
    counted (.REJECTED "too_large".toList) (logged log) = replies log 413 ∧
    refusedTotal (logged log) = replies log 403 ∧
    replies log 200 + replies log 400 + replies log 403 + replies log 413 + replies log 503 = 2 ∧
    ∀ t : PDType, counted (.PD_FOUND t.value) (logged log) =
      (log.map (maskedEntities Api.sampleApi Api.standardSample t)).sum :=
  metrics_account (P := Api.standardSample) Api.sampleApi rfl sampleStores_lasting.lossless comingAndGoing
    authentic_empty _

end Run

end PdMasking
