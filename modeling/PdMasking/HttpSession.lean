import PdMasking.Account
import PdMasking.Runs

/-!
# PdMasking.HttpSession — masking and unmasking as a client sees it, from the request to Redis

The endpoint, `Processor`, `FallbackStore`, the stores with their clocks, encoded records and JSON bodies together.

* `handle_sim`: the endpoint answers alike over stores that answer alike.
* `http_round_trip`: with Redis up all the time, or down all the time, what was masked is unmasked.
-/

namespace PdMasking

open Json Service

/-- What a client reads in a response. -/
def HttpResponse.result? (r : HttpResponse) : Option Str :=
  match loads r.body with
  | some (.object members) => (member "result".toList members).bind Codec.text?
  | _ => none

/-- The text and its mask, for a reply that is counted as a masking under the id. -/
def masking (id : Str) (call : Api.Call) (reply : Reply) : Option (Str × Str) :=
  match call.body with
  | .error _ => none
  | .ok body =>
    if body.payloadId = id ∧ counted (.REQUESTS Direction.mask.value "ok".toList) reply.metrics = 1 then
      reply.response.result?.map (fun masked => (body.payload, masked))
    else none

section Sim

variable {A : Api} {σ τ : Type} {serve : σ → Request → Response × σ} {serve' : τ → Request → Response × τ}

/-- **The endpoint over stores that answer alike.** -/
theorem handle_sim {R : σ → τ → Prop} {call : Api.Call} {s : σ} {t : τ} (hst : R s t)
    (hserve : ∀ body policy, call.body = .ok body →
      (serve s ⟨body.payloadId, body.payload, policy⟩).1 = (serve' t ⟨body.payloadId, body.payload, policy⟩).1 ∧
        R (serve s ⟨body.payloadId, body.payload, policy⟩).2 (serve' t ⟨body.payloadId, body.payload, policy⟩).2) :
    (A.handle serve s call).1 = (A.handle serve' t call).1 ∧ R (A.handle serve s call).2 (A.handle serve' t call).2 := by
  unfold Api.handle
  rcases hbody : call.body with locs | body
  · exact ⟨rfl, hst⟩
  · dsimp only
    unfold Api.process
    split_ifs
    · exact ⟨rfl, hst⟩
    · rcases A.policies.resolve call.systemId with _ | policy
      · exact ⟨rfl, hst⟩
      · obtain ⟨hresponse, hrel⟩ := hserve body policy hbody
        refine ⟨?_, hrel⟩
        exact congrArg (A.respond call.moment policy body) hresponse

end Sim

/-! ### Over a map -/

section Map

variable {A : Api} {P : Processor} {id text masked : Str}

theorem result?_answered (m : Moment) (policy : SystemPolicy) (body : ProcessRequest) (o : ProcessOutcome) :
    (A.answered m policy body o).response.result? = some o.result := by
  unfold HttpResponse.result?
  rw [Api.loads_answered]
  rfl

/-- A reply counted as a masking under the id is one, of a text that was masked. -/
theorem masking_answered {call : Api.Call} {body : ProcessRequest} {policy : SystemPolicy} {o : ProcessOutcome}
    (hbody : call.body = .ok body) : masking id call (A.answered call.moment policy body o) =
      if body.payloadId = id ∧ o.direction = .mask then some (body.payload, o.result) else none := by
  unfold masking
  rw [hbody]
  dsimp only
  rw [counted_requests, result?_answered]
  refine if_congr (and_congr_right fun _ => ?_) rfl rfl
  by_cases h : o.direction = .mask
  · rw [if_pos h]
    exact iff_of_true rfl h
  · rw [if_neg h]
    exact iff_of_false Nat.zero_ne_one h

/-- A reply that counts no request is no masking. -/
theorem masking_of_zero {call : Api.Call} {reply : Reply}
    (h : counted (.REQUESTS Direction.mask.value "ok".toList) reply.metrics = 0) : masking id call reply = none := by
  unfold masking
  rcases call.body with locs | body
  · rfl
  · rw [h]
    exact if_neg (fun hand => Nat.zero_ne_one hand.2)

theorem counted_respond_error (m : Moment) (policy : SystemPolicy) (body : ProcessRequest) (e : PyExc) :
    counted (.REQUESTS Direction.mask.value "ok".toList) (A.respond m policy body (.error e)).metrics = 0 := by
  cases e <;> rfl

/-- Behind the newest masking of every id stands the record that it made. -/
def HttpMapped (P : Processor) (w : Session Api.Call Reply MapStore) : Prop :=
  ∀ id text masked, latest (masking id) w.log = some (text, masked) →
    ∃ policy o record, w.state id = some record ∧ P.mask text policy = .ok (o, record) ∧ o.result = masked

/-- One more request leaves the newest masking of an id and its record as they are, or replaces both. -/
theorem httpMapped_answer (w : Session Api.Call Reply MapStore) (call : Api.Call) (h : HttpMapped P w) :
    HttpMapped P (answer (A.handle P.serve) w call) := by
  intro id text masked hlast
  have hsame : ∀ reply, A.handle P.serve w.state call = (reply, w.state) →
      (∀ id, masking id call reply = none) → ∃ policy o record,
        (answer (A.handle P.serve) w call).state id = some record ∧ P.mask text policy = .ok (o, record) ∧
          o.result = masked := by
    intro reply hhandle hnone
    unfold answer at hlast ⊢
    rw [hhandle] at hlast ⊢
    rw [latest_cons_of_none (hnone id)] at hlast
    exact h id text masked hlast
  rcases Api.handle_cases A P.serve w.state call with
    ⟨locs, hbody, hhandle⟩ | ⟨body, hbody, ⟨-, hhandle⟩ | ⟨-, -, hhandle⟩ | ⟨policy, -, -, hhandle⟩⟩
  · exact hsame _ hhandle (fun id => masking_of_zero rfl)
  · exact hsame _ hhandle (fun id => masking_of_zero rfl)
  · exact hsame _ hhandle (fun id => masking_of_zero rfl)
  · rcases P.serve_cases w.state ⟨body.payloadId, body.payload, policy⟩ with
      ⟨o, record, hmask, hserve⟩ | ⟨response, hserve, hdirection⟩
    · -- the text was masked and its record stored
      rw [hserve] at hhandle
      have hreply : ∀ id, masking id call (A.respond call.moment policy body (.ok o)) =
          if body.payloadId = id ∧ o.direction = .mask then some (body.payload, o.result) else none :=
        fun id => masking_answered hbody
      have hmasked : o.direction = .mask := (P.mask_spec hmask).1
      unfold answer at hlast ⊢
      rw [hhandle] at hlast ⊢
      by_cases hid : body.payloadId = id
      · rw [latest_cons_of_some ((hreply id).trans (if_pos ⟨hid, hmasked⟩))] at hlast
        cases hlast
        refine ⟨policy, o, record, ?_, hmask, rfl⟩
        show Function.update w.state body.payloadId (some record) id = some record
        rw [hid, Function.update_self]
      · rw [latest_cons_of_none ((hreply id).trans (if_neg (fun hand => hid hand.1)))] at hlast
        obtain ⟨policy', o', record', hstate, hmade⟩ := h id text masked hlast
        refine ⟨policy', o', record', ?_, hmade⟩
        show Function.update w.state body.payloadId (some record) id = some record'
        rw [Function.update_of_ne (Ne.symm hid)]
        exact hstate
    · -- the store is as it was
      rw [hserve] at hhandle
      refine hsame _ hhandle (fun id => ?_)
      rcases response with e | o
      · exact masking_of_zero (counted_respond_error _ _ _ e)
      · exact (masking_answered hbody).trans (if_neg (fun hand => hdirection o rfl hand.2))

theorem httpMapped_run (calls : List Api.Call) : HttpMapped P (run (A.handle P.serve) (fun _ => none) calls) := by
  refine run_invariant (A := fun _ => True) (fun _ _ => trivial) ?_ (fun w call _ => httpMapped_answer w call)
  intro id text masked h
  cases h

end Map

/-! ### Over the stores of `build_store` -/

section RoundTrip

variable {T Blob Nonce : Type} [LinearOrder T] [Add T] (A : Api) (P : Processor) {D : Stores T Blob Nonce}
  {plan : RedisPlan} {K : Finset Str} {calls : List Api.Call} {id text masked : Str}

/-- The id of a valid request. -/
def Api.Call.IdIn (K : Finset Str) (call : Api.Call) : Prop := ∀ body, call.body = .ok body → body.payloadId ∈ K

/-- The endpoint over the stores, and over a map. -/
theorem handle_steady (hD : D.Lasting K) (hplan : plan.Steady) :
    ∃ R : Deployed T Blob → MapStore → Prop, R Deployed.empty (fun _ => none) ∧ ∀ d s call, call.IdIn K → R d s →
      (A.handle (serveDeployed P D plan) d call).1 = (A.handle P.serve s call).1 ∧
        R (A.handle (serveDeployed P D plan) d call).2 (A.handle P.serve s call).2 := by
  obtain ⟨R, hempty, hstep⟩ := serveDeployed_steady P plan hD hplan
  refine ⟨R, hempty, ?_⟩
  intro d s call hid hrel
  exact handle_sim hrel (fun body policy hbody => hstep d s ⟨body.payloadId, body.payload, policy⟩ (hid body hbody) hrel)

/-- The reply to an outcome. -/
theorem handle_of_serve {s : MapStore} (call : Api.Call) {body : ProcessRequest} {policy : SystemPolicy}
    {o : ProcessOutcome} (hbody : call.body = .ok body) (hsmall : ¬ A.TooLarge body)
    (hpolicy : A.policies.resolve call.systemId = some policy)
    (hserve : (P.serve s ⟨body.payloadId, body.payload, policy⟩).1 = .ok o) :
    (A.handle P.serve s call).1 = A.answered call.moment policy body o := by
  unfold Api.handle
  rw [hbody]
  dsimp only
  unfold Api.process
  rw [if_neg hsmall, hpolicy]
  exact congrArg (A.respond call.moment policy body) hserve

/-- **Masking and unmasking over HTTP.**  With Redis up all the time, or down all the time, while no record expires and
the ids fit into the memory: whatever was requested meanwhile, a client that sends the text of the newest masking under
an id gets status 200 and its mask, and one that sends the mask and may unmask gets status 200 and the text. -/
theorem http_round_trip (hD : D.Lasting K) (hplan : plan.Steady) (hcalls : ∀ call ∈ calls, call.IdIn K)
    (hlast : latest (masking id) (run (A.handle (serveDeployed P D plan)) Deployed.empty calls).log =
      some (text, masked))
    (call : Api.Call) {body : ProcessRequest} {policy : SystemPolicy} (hbody : call.body = .ok body)
    (hid : body.payloadId = id) (hsmall : ¬ A.TooLarge body)
    (hpolicy : A.policies.resolve call.systemId = some policy) :
    let d := (run (A.handle (serveDeployed P D plan)) Deployed.empty calls).state
    let response := (A.handle (serveDeployed P D plan) d call).1.response
    (body.payload = text → response.status = 200 ∧ response.result? = some masked) ∧
    (body.payload = masked → policy.unmaskAllowed = true →
      response.status = 200 ∧ response.result? = some text) := by
  intro d response
  obtain ⟨R, hempty, hstep⟩ := handle_steady A P hD hplan
  obtain ⟨hlog, hrel⟩ := run_sim hstep hempty hcalls
  -- the id of the newest masking is one of those that fit
  have hin : call.IdIn K := by
    obtain ⟨e, he, hmasking⟩ := exists_mem_of_latest hlast
    intro body' hbody'
    obtain rfl : body' = body := Except.ok.inj (hbody'.symm.trans hbody)
    unfold masking at hmasking
    rcases hebody : e.1.body with locs | ebody
    · rw [hebody] at hmasking
      cases hmasking
    · rw [hebody] at hmasking
      dsimp only at hmasking
      split_ifs at hmasking with hand
      rw [hid, ← hand.1]
      exact hcalls e.1 (mem_of_mem_log e he) ebody hebody
  have hresponse := congrArg Reply.response (hstep d _ call hin hrel).1
  rw [hlog] at hlast
  obtain ⟨policy', o, record, hstate, hmask, rfl⟩ := httpMapped_run calls id text masked hlast
  obtain ⟨horiginal, hmasked⟩ := serve_of_mask P policy hstate hmask
  have hanswer : ∀ o', (P.serve (run (A.handle P.serve) (fun _ => none) calls).state
      ⟨id, body.payload, policy⟩).1 = .ok o' → response.status = 200 ∧ response.result? = some o'.result := by
    intro o' hserve
    rw [← hid] at hserve
    have hreply := handle_of_serve A P call hbody hsmall hpolicy hserve
    have heq : response = (A.answered call.moment policy body o').response :=
      hresponse.trans (congrArg Reply.response hreply)
    rw [heq]
    exact ⟨rfl, result?_answered call.moment policy body o'⟩
  constructor
  · rintro rfl
    obtain ⟨o', hserve, hresult⟩ := horiginal
    rw [← hresult]
    exact hanswer o' hserve
  · intro hpayload hu
    obtain ⟨o', hserve, hresult⟩ := hmasked hu
    rw [← hpayload] at hserve
    rw [← hresult]
    exact hanswer o' hserve

/-- A request of the default system. -/
def defaultCall (payload : Str) : Api.Call :=
  ⟨Api.sampleMoment, none, .ok ⟨payload, "1".toList, Api.sampleId_ne_nil⟩⟩

/-- A message and its mask, with Redis down. -/
theorem http_round_trip_sample :
    let handle := Api.sampleApi.handle (serveDeployed sample sampleStores (fun _ => some (.connection, false)))
    let d := (run handle Deployed.empty [defaultCall "a@b.ru ok".toList]).state
    let response := (handle d (defaultCall "*@*.** ok".toList)).1.response
    ("*@*.** ok".toList = "a@b.ru ok".toList → response.status = 200 ∧ response.result? = some "*@*.** ok".toList) ∧
    ("*@*.** ok".toList = "*@*.** ok".toList → systems.default.unmaskAllowed = true →
      response.status = 200 ∧ response.result? = some "a@b.ru ok".toList) := by
  have hin : ∀ call ∈ [defaultCall "a@b.ru ok".toList], call.IdIn {"1".toList, "2".toList} := by
    intro call hcall
    rw [List.mem_singleton.mp hcall]
    rintro body ⟨⟩
    exact Finset.mem_insert_self _ _
  have hsteady : RedisPlan.Steady (fun _ => some (.connection, false)) :=
    Or.inr (fun _ => ⟨.connection, false, rfl, RedisError.noConfusion⟩)
  -- the reply to the first request, found over a map
  have hreply : (Api.sampleApi.handle (serveDeployed sample sampleStores (fun _ => some (.connection, false)))
      Deployed.empty (defaultCall "a@b.ru ok".toList)).1 =
      Api.sampleApi.answered Api.sampleMoment systems.default ⟨"a@b.ru ok".toList, "1".toList, Api.sampleId_ne_nil⟩
        ⟨"*@*.** ok".toList, .mask, [("email".toList, 1)]⟩ := by
    obtain ⟨R, hempty, hstep⟩ := handle_steady Api.sampleApi sample sampleStores_lasting hsteady
    refine (hstep _ _ _ (hin _ List.mem_cons_self) hempty).1.trans ?_
    exact handle_of_serve Api.sampleApi sample (defaultCall "a@b.ru ok".toList) rfl (by decide) rfl rfl
  have hlast : latest (masking "1".toList)
      (run (Api.sampleApi.handle (serveDeployed sample sampleStores (fun _ => some (.connection, false))))
        Deployed.empty [defaultCall "a@b.ru ok".toList]).log =
      some ("a@b.ru ok".toList, "*@*.** ok".toList) := by
    refine latest_cons_of_some ?_
    rw [hreply]
    exact (masking_answered rfl).trans (if_pos ⟨rfl, rfl⟩)
  have hsmall : ¬ Api.sampleApi.TooLarge ⟨"*@*.** ok".toList, "1".toList, Api.sampleId_ne_nil⟩ := by decide
  have hpolicy : Api.sampleApi.policies.resolve (defaultCall "*@*.** ok".toList).systemId = some systems.default := rfl
  exact http_round_trip Api.sampleApi sample sampleStores_lasting hsteady hin hlast
    (defaultCall "*@*.** ok".toList) rfl rfl hsmall hpolicy

end RoundTrip

end PdMasking
