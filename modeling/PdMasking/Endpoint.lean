import Mathlib.Data.Char
import Mathlib.Data.List.Lex
import PdMasking.Availability
import PdMasking.Logging
import PdMasking.Shape

/-!
# PdMasking.Endpoint — `POST /process` (`api/process.py`, `api/responses.py`, the handlers of `main.py`)

`Api.handle` makes a response, log records and metrics of what `process` returns or raises.  The store is behind
`serve`, so that the endpoint runs over each of the stores.

* `process_status`: over the stores of `build_store`, which status a request gets, and that none gets a 500 as long as
  what the stores hold was encoded by their codec; `authentic_run`: so it is after every run.
-/

namespace PdMasking

open Json

/-! ### Requests and replies -/

/-- `ProcessRequest` -/
structure ProcessRequest where
  payload : Str
  payloadId : Str
  payloadId_ne : payloadId ≠ []

/-- The body of a request once it is validated: where the errors are, or the request. -/
abbrev Incoming := Except (List (List Str)) ProcessRequest

/-- `Response`, with the media type `application/json`. -/
structure HttpResponse where
  status : ℕ
  headers : List (Str × Str)
  body : Str

/-- `json_response`; `orjson.dumps` fails only on lone surrogates, which no `Str` contains. -/
def jsonResponse (body : List (Str × Doc)) (status : ℕ) (headers : List (Str × Str)) : HttpResponse :=
  ⟨status, headers, (Doc.object body).text .compact⟩

/-- `{"detail": message}` -/
def detail (message : Str) : List (Str × Doc) := [("detail".toList, .string message)]

/-- The metrics of the endpoints with their labels. -/
inductive Metric
  | REQUESTS (direction status : Str)
  | LATENCY (direction : Str)
  | TOKENS (direction : Str)
  | PD_FOUND (pdType : Str)
  | REJECTED (reason : Str)
  | LLM_LATENCY
  | LLM_ERRORS (reason : Str)
  deriving DecidableEq

inductive MetricEvent
  | inc (metric : Metric) (amount : ℕ)
  | observe (metric : Metric) (seconds : ℚ)

/-- `estimate_tokens` -/
def estimateTokens (text : Str) : ℕ := if text = [] then 0 else max 1 (text.length / 4)

/-- `Direction.value` -/
def Direction.value : Direction → Str
  | mask => "mask".toList
  | maskRetry => "mask_retry".toList
  | unmask => "unmask".toList
  | unmaskFragments => "unmask_fragments".toList

/-- What is read from outside while a request is handled. -/
structure Moment where
  /-- `uuid.uuid4().hex[:16]` -/
  requestId : Str
  /-- When the record of an event is made, as the log has it. -/
  created : Str → Str
  /-- `time.perf_counter() - started` -/
  elapsed : ℚ
  /-- `round(elapsed * 1000, 2)` -/
  latencyMs : Doc

/-- A call of a logger; an attribute of `extra` that is `None` is not written. -/
def logRecord (m : Moment) (name levelname event : Str) (extra : List (Str × Option Doc)) : LogRecord where
  created := m.created event
  levelname := levelname
  name := name
  message := event
  getattr field := (extra.find? (fun e => e.1 = field)).bind Prod.snd
  excName := none

/-- The response to a request, with what is logged and counted on the way. -/
structure Reply where
  response : HttpResponse
  logs : List LogRecord
  metrics : List MetricEvent

/-- What the endpoint reads of `app.state`, the store apart. -/
structure Api where
  policies : PolicyRegistry
  maxPayloadChars : ℤ
  maxPayloadIdChars : ℤ
  debugShapes : Bool
  runtime : Runtime
  /-- `hashlib.sha256(data).hexdigest()` -/
  sha256 : ByteArray → Str
  /-- `type(exc).__name__` -/
  typeName : PyExc → Str

/-! ### The endpoint -/

namespace Api

variable (A : Api)

def unavailableHeaders : List (Str × Str) := [("Retry-After".toList, "1".toList)]

/-- The length of the payload or of its id is over the limit. -/
def TooLarge (body : ProcessRequest) : Prop :=
  A.maxPayloadChars < body.payload.length ∨ A.maxPayloadIdChars < body.payloadId.length

instance (body : ProcessRequest) : Decidable (A.TooLarge body) :=
  inferInstanceAs (Decidable (A.maxPayloadChars < (body.payload.length : ℤ) ∨
    A.maxPayloadIdChars < (body.payloadId.length : ℤ)))

def tooLarge : Reply :=
  ⟨jsonResponse (detail "payload слишком большой".toList) 413 [], [], [.inc (.REJECTED "too_large".toList) 1]⟩

def notAllowed (m : Moment) (systemId : Option Str) : Reply :=
  ⟨jsonResponse (detail "система не допущена к сервису".toList) 403 [],
    [logRecord m "pd.process".toList "WARNING".toList "system_not_allowed".toList
      [("request_id".toList, some (.string m.requestId)), ("system_id".toList, systemId.map .string)]],
    [.inc (.REJECTED "system_not_allowed".toList) 1]⟩

def unmaskForbidden : Reply :=
  ⟨jsonResponse (detail "демаскирование запрещено для системы".toList) 403 [], [],
    [.inc (.REJECTED "unmask_forbidden".toList) 1]⟩

def storeUnavailable (m : Moment) : Reply :=
  ⟨jsonResponse (detail "хранилище временно недоступно, повторите запрос".toList) 503 unavailableHeaders,
    [logRecord m "pd.process".toList "WARNING".toList "store_unavailable".toList
      [("request_id".toList, some (.string m.requestId))]], []⟩

/-- `unhandled_error` -/
def unhandledError (m : Moment) (exc : PyExc) : Reply :=
  ⟨jsonResponse (detail "внутренняя ошибка сервиса".toList) 500 [],
    [logRecord m "pd.app".toList "ERROR".toList "unhandled_error".toList
      [("error".toList, some (.string (A.typeName exc)))]], []⟩

/-- `".".join(str(p) for p in loc)` -/
def fieldPath (loc : List Str) : Str := List.intercalate ['.'] loc

/-- `validation_error`, with the places of the errors. -/
def validationError (locs : List (List Str)) : Reply :=
  ⟨jsonResponse (detail "некорректный запрос".toList ++
    [("fields".toList, .array (((locs.map fieldPath).dedup.mergeSort (fun a b => a ≤ b)).map .string))]) 400 [], [], []⟩

/-- The record of a processed request. -/
def processed (m : Moment) (policy : SystemPolicy) (body : ProcessRequest) (outcome : ProcessOutcome) : LogRecord :=
  logRecord m "pd.process".toList "INFO".toList "processed".toList
    [("request_id".toList, some (.string m.requestId)),
      ("payload_id_hash".toList, some (.string ((A.sha256 (utf8 body.payloadId)).take 16))),
      ("system_id".toList, some (.string policy.systemId)),
      ("direction".toList, some (.string outcome.direction.value)),
      ("latency_ms".toList, some m.latencyMs),
      ("chars".toList, some (.int body.payload.length)),
      ("tokens".toList, some (.int (estimateTokens body.payload))),
      ("pd_types".toList, some (.object (outcome.pdTypes.map (fun c => (c.1, .int c.2)))))]

/-- The record of the shape of a text in which nothing was found. -/
def noPdShape (m : Moment) (body : ProcessRequest) : LogRecord :=
  logRecord m "pd.process".toList "INFO".toList "no_pd_shape".toList
    [("shape".toList, some (.string (textShape A.runtime body.payload))),
      ("chars".toList, some (.int body.payload.length))]

/-- What the endpoint does with an outcome. -/
def answered (m : Moment) (policy : SystemPolicy) (body : ProcessRequest) (outcome : ProcessOutcome) : Reply :=
  ⟨jsonResponse [("result".toList, .string outcome.result)] 200 [],
    A.processed m policy body outcome ::
      (if A.debugShapes ∧ outcome.direction = .mask ∧ outcome.pdTypes = [] then [A.noPdShape m body] else []),
    [.inc (.REQUESTS outcome.direction.value "ok".toList) 1, .observe (.LATENCY outcome.direction.value) m.elapsed,
      .inc (.TOKENS outcome.direction.value) (estimateTokens body.payload)] ++
      outcome.pdTypes.map (fun c => .inc (.PD_FOUND c.1) c.2)⟩

/-- What the endpoint makes of the end of `Processor.process`; an exception that it does not handle goes to
`unhandled_error`. -/
def respond (m : Moment) (policy : SystemPolicy) (body : ProcessRequest) : PdMasking.Response → Reply
  | .error (.unmaskForbidden _) => unmaskForbidden
  | .error (.storeUnavailable _) => storeUnavailable m
  | .error exc => A.unhandledError m exc
  | .ok outcome => A.answered m policy body outcome

/-- An HTTP request: its moment, the header with the system, and the body. -/
structure Call where
  moment : Moment
  systemId : Option Str
  body : Incoming

section Serve

variable {σ : Type} (serve : σ → PdMasking.Request → PdMasking.Response × σ)

/-- `process` -/
def process (m : Moment) (systemId : Option Str) (body : ProcessRequest) (s : σ) : Reply × σ :=
  if A.TooLarge body then (tooLarge, s)
  else
    match A.policies.resolve systemId with
    | none => (notAllowed m systemId, s)
    | some policy =>
      let (response, s') := serve s ⟨body.payloadId, body.payload, policy⟩
      (A.respond m policy body response, s')

/-- The application on `POST /process`, for a request that `InflightLimitMiddleware` lets through. -/
def handle (s : σ) (call : Call) : Reply × σ :=
  match call.body with
  | .error locs => (validationError locs, s)
  | .ok body => A.process serve call.moment call.systemId body s

/-- **The courses of a request**: it is turned away, the store being left alone, or `Processor.process` handles it. -/
theorem handle_cases (s : σ) (call : Call) :
    (∃ locs, call.body = .error locs ∧ A.handle serve s call = (validationError locs, s)) ∨
    ∃ body, call.body = .ok body ∧
      ((A.TooLarge body ∧ A.handle serve s call = (tooLarge, s)) ∨
      (¬ A.TooLarge body ∧ A.policies.resolve call.systemId = none ∧
        A.handle serve s call = (notAllowed call.moment call.systemId, s)) ∨
      ∃ policy, ¬ A.TooLarge body ∧ A.policies.resolve call.systemId = some policy ∧
        A.handle serve s call =
          (A.respond call.moment policy body (serve s ⟨body.payloadId, body.payload, policy⟩).1,
            (serve s ⟨body.payloadId, body.payload, policy⟩).2)) := by
  unfold handle
  rcases call.body with locs | body
  · exact Or.inl ⟨locs, rfl, rfl⟩
  · refine Or.inr ⟨body, rfl, ?_⟩
    dsimp only
    unfold process
    by_cases hlarge : A.TooLarge body
    · rw [if_pos hlarge]
      exact Or.inl ⟨hlarge, rfl⟩
    · rw [if_neg hlarge]
      rcases A.policies.resolve call.systemId with _ | policy
      · exact Or.inr (Or.inl ⟨hlarge, rfl, rfl⟩)
      · exact Or.inr (Or.inr ⟨policy, hlarge, rfl, rfl⟩)

end Serve

/-! ### The status over the stores of `build_store` -/

section Status

variable {T Blob Nonce : Type} [LinearOrder T] [Add T] {A} {P : Processor}

theorem no_timeouts (plan : RedisPlan) (n : ℕ) : ¬ plan.TwoTimeouts n n := (RedisPlan.Quiet.refl n).never

/-- The body of an outcome is read back. -/
theorem loads_answered (m : Moment) (policy : SystemPolicy) (body : ProcessRequest) (outcome : ProcessOutcome) :
    loads (A.answered m policy body outcome).response.body =
      some (.object [("result".toList, .string outcome.result)]) := loads_text _ _

/-- A request puts nothing into the stores but what their codec has encoded. -/
theorem authentic_handle {D : Stores T Blob Nonce} {plan : RedisPlan} {d : Deployed T Blob} (call : Call)
    (h : Authentic D d) : Authentic D (A.handle (serveDeployed P D plan) d call).2 := by
  rcases handle_cases A (serveDeployed P D plan) d call with
    ⟨_, -, heq⟩ | ⟨_, -, ⟨-, heq⟩ | ⟨-, -, heq⟩ | ⟨_, -, -, heq⟩⟩
  · rwa [heq]
  · rwa [heq]
  · rwa [heq]
  · rw [heq]
    exact authentic_serve _ h

/-- So it is after every run. -/
theorem authentic_run {D : Stores T Blob Nonce} {plan : RedisPlan} {d : Deployed T Blob} (calls : List Call)
    (h : Authentic D d) : Authentic D (Service.run (A.handle (serveDeployed P D plan)) d calls).state :=
  Service.run_invariant (A := fun _ => True) (I := fun w => Authentic D w.state) (fun _ _ => trivial) h
    (fun _ call _ h => authentic_handle call h)

/-- **Which status a request gets**, whatever records the stores hold, whatever their clocks read and however Redis
fails: 400 for an invalid body, 413 for a text or an id that is too long, 503 exactly when two commands of Redis in a
row time out while the request is handled, 403 only for a system that is not allowed, or not to unmask, and otherwise
200 with the result as JSON.  None gets a 500.  With 400, with 413 and with an unknown system the stores are left
alone. -/
theorem process_status (A : Api) (hP : P.Standard) {D : Stores T Blob Nonce} (hcodec : D.codec.Lossless)
    (plan : RedisPlan) {d : Deployed T Blob} (hd : Authentic D d) (call : Call) :
    let reply := A.handle (serveDeployed P D plan) d call
    let status := reply.1.response.status
    (status = 400 ↔ ∃ locs, call.body = .error locs) ∧
    (status = 413 ↔ ∃ body, call.body = .ok body ∧ A.TooLarge body) ∧
    (status = 503 ↔ plan.TwoTimeouts d.redis.calls reply.2.redis.calls) ∧
    (status = 403 → ∃ body, call.body = .ok body ∧ ¬ A.TooLarge body ∧
      ∀ policy, A.policies.resolve call.systemId = some policy → policy.unmaskAllowed = false) ∧
    (status = 200 ↔ ∃ body policy o, call.body = .ok body ∧ ¬ A.TooLarge body ∧
      A.policies.resolve call.systemId = some policy ∧
      (serveDeployed P D plan d ⟨body.payloadId, body.payload, policy⟩).1 = .ok o ∧
      loads reply.1.response.body = some (.object [("result".toList, .string o.result)])) ∧
    status ∈ [200, 400, 403, 413, 503] ∧
    (status = 400 ∨ status = 413 ∨ A.policies.resolve call.systemId = none → reply.2 = d) := by
  intro reply status
  obtain ⟨m, systemId, incoming⟩ := call
  rcases handle_cases A (serveDeployed P D plan) d ⟨m, systemId, incoming⟩ with
    ⟨locs, hbody, h⟩ | ⟨body, hbody, ⟨hlarge, h⟩ | ⟨hlarge, hres, h⟩ | ⟨policy, hlarge, hres, h⟩⟩
  · -- the body is invalid
    obtain rfl : incoming = .error locs := hbody
    have hstatus : status = 400 := congrArg (fun r => r.1.response.status) h
    have hstate : reply.2 = d := congrArg Prod.snd h
    rw [hstatus, hstate]
    exact ⟨iff_of_true rfl ⟨locs, rfl⟩, iff_of_false (by decide) (by simp), iff_of_false (by decide) (no_timeouts plan _),
      fun h => absurd h (by decide), iff_of_false (by decide) (by simp), by decide, fun _ => rfl⟩
  · -- the text or its id is too long
    obtain rfl : incoming = .ok body := hbody
    have hstatus : status = 413 := congrArg (fun r => r.1.response.status) h
    have hstate : reply.2 = d := congrArg Prod.snd h
    rw [hstatus, hstate]
    exact ⟨iff_of_false (by decide) (by simp), iff_of_true rfl ⟨body, rfl, hlarge⟩,
      iff_of_false (by decide) (no_timeouts plan _), fun h => absurd h (by decide),
      iff_of_false (by decide) (by simp [hlarge]), by decide, fun _ => rfl⟩
  · -- the system is not allowed
    obtain rfl : incoming = .ok body := hbody
    have hres' : A.policies.resolve systemId = none := hres
    have hstatus : status = 403 := congrArg (fun r => r.1.response.status) h
    have hstate : reply.2 = d := congrArg Prod.snd h
    rw [hstatus, hstate]
    refine ⟨iff_of_false (by decide) (by simp), iff_of_false (by decide) (by simp [hlarge]),
      iff_of_false (by decide) (no_timeouts plan _), fun _ => ⟨body, rfl, hlarge, ?_⟩,
      iff_of_false (by decide) (by simp [hres']), by decide, fun _ => rfl⟩
    intro policy hpolicy
    exact absurd (hres.symm.trans hpolicy) (Option.some_ne_none policy).symm
  · -- `Processor.process` has ended
    obtain rfl : incoming = .ok body := hbody
    have hres' : A.policies.resolve systemId = some policy := hres
    have hends := deployed_ends plan hP hcodec hd ⟨body.payloadId, body.payload, policy⟩
    have hstate : reply.2 = (serveDeployed P D plan d ⟨body.payloadId, body.payload, policy⟩).2 := congrArg Prod.snd h
    have hreply : reply.1 = A.respond m policy body (serveDeployed P D plan d ⟨body.payloadId, body.payload, policy⟩).1 :=
      congrArg Prod.fst h
    have hpolicy : ∀ policy', A.policies.resolve systemId = some policy' → policy' = policy :=
      fun policy' h' => Option.some.inj (h'.symm.trans hres)
    have hsome : A.policies.resolve systemId ≠ none := by
      rw [hres']
      exact Option.some_ne_none policy
    rw [← hstate] at hends
    generalize hresponse : (serveDeployed P D plan d ⟨body.payloadId, body.payload, policy⟩).1 = response at hends hreply
    cases hends with
    | answered o hquiet =>
      have hstatus : status = 200 := congrArg (fun r : Reply => r.response.status) hreply
      have hbody : loads reply.1.response.body = some (.object [("result".toList, .string o.result)]) := by
        rw [hreply]
        exact loads_answered m policy body o
      rw [hstatus]
      exact ⟨iff_of_false (by decide) (by simp), iff_of_false (by decide) (by simp [hlarge]),
        iff_of_false (by decide) hquiet.never, fun h => absurd h (by decide),
        iff_of_true rfl ⟨body, policy, o, rfl, hlarge, hres', hresponse, hbody⟩, by decide, by simp [hsome]⟩
    | forbidden hquiet hu =>
      have hstatus : status = 403 := congrArg (fun r : Reply => r.response.status) hreply
      rw [hstatus]
      refine ⟨iff_of_false (by decide) (by simp), iff_of_false (by decide) (by simp [hlarge]),
        iff_of_false (by decide) hquiet.never, fun _ => ⟨body, rfl, hlarge, fun policy' h' => hpolicy policy' h' ▸ hu⟩,
        iff_of_false (by decide) ?_, by decide, by simp [hsome]⟩
      rintro ⟨body', policy', o, hok, -, hpolicy', ho, -⟩
      cases hok
      obtain rfl := hpolicy policy' hpolicy'
      rw [hresponse] at ho
      cases ho
    | unavailable htwo =>
      have hstatus : status = 503 := congrArg (fun r : Reply => r.response.status) hreply
      rw [hstatus]
      refine ⟨iff_of_false (by decide) (by simp), iff_of_false (by decide) (by simp [hlarge]), iff_of_true rfl htwo,
        fun h => absurd h (by decide), iff_of_false (by decide) ?_, by decide, by simp [hsome]⟩
      rintro ⟨body', policy', o, hok, -, hpolicy', ho, -⟩
      cases hok
      obtain rfl := hpolicy policy' hpolicy'
      rw [hresponse] at ho
      cases ho

end Status

/-! ### A deployment with its endpoint -/

/-- The service with its detectors, on the runtime of the examples. -/
def standardSample : Processor := ⟨Runtime.basic, ⟨defaultDetectors Runtime.basic⟩, sampleMasker⟩

/-- The name of the class of an exception. -/
def sampleTypeName : PyExc → Str
  | .indexError => "IndexError".toList
  | .unmaskForbidden _ => "UnmaskForbiddenError".toList
  | .storeUnavailable _ => "StoreUnavailableError".toList
  | .timeoutError => "TimeoutError".toList
  | .osError => "OSError".toList
  | .leakBlocked => "LeakBlockedError".toList
  | .llmUnavailable => "LLMUnavailableError".toList
  | .keyError => "KeyError".toList
  | .typeError => "TypeError".toList
  | .attributeError => "AttributeError".toList
  | .jsonDecodeError => "JSONDecodeError".toList
  | .valueError => "ValueError".toList
  | .recursionError => "RecursionError".toList

/-- Two of the deployed systems. -/
def sampleRegistry : PolicyRegistry where
  defaultSystem := "default".toList
  systems id :=
    if id = "default".toList then some systems.default
    else if id = "analytics".toList then some systems.analytics
    else none

/-- The default limits; the hash is that of the id `1`. -/
def sampleApi : Api :=
  ⟨sampleRegistry, 1000000, 256, false, Runtime.basic,
    fun _ => "6b86b273ff34fce19d6b804eff5a3f5747ada4eaa22f1d49c01e52ddb7875b4b".toList, sampleTypeName⟩

def sampleMoment : Moment :=
  ⟨"0123456789abcdef".toList, fun _ => "2026-01-01T00:00:00".toList, 1 / 1000, .decimal false 1 (Fin.last 9) []⟩

/-- Stores that hold nothing yet. -/
def sampleEmpty : Deployed ℕ ByteArray := Deployed.empty

theorem sampleId_ne_nil : "1".toList ≠ [] := List.cons_ne_nil _ _

/-- A request of the default system. -/
def sampleCall : Call := ⟨sampleMoment, none, .ok ⟨"a@b.ru ok".toList, "1".toList, sampleId_ne_nil⟩⟩

/-- A command that times out, and takes effect, is not followed by another one. -/
theorem comingAndGoing_quiet (n n' : ℕ) : ¬ comingAndGoing.TwoTimeouts n n' := by
  rintro ⟨i, -, -, ⟨effect, h⟩, effect', h'⟩
  unfold comingAndGoing at h h'
  split_ifs at h h'
  omega

/-- The default system is answered, also after it has been answered twice. -/
theorem process_status_sample :
    let handle := sampleApi.handle (serveDeployed standardSample sampleStores comingAndGoing)
    let d := (Service.run handle sampleEmpty [sampleCall, sampleCall]).state
    (handle sampleEmpty sampleCall).1.response.status = 200 ∧ (handle d sampleCall).1.response.status = 200 := by
  have hstatus : ∀ d : Deployed ℕ ByteArray, Authentic sampleStores d →
      (sampleApi.handle (serveDeployed standardSample sampleStores comingAndGoing) d sampleCall).1.response.status =
        200 := by
    intro d hd
    obtain ⟨h400, h413, h503, h403, -, hall, -⟩ := process_status (P := standardSample) sampleApi rfl
      sampleStores_lasting.lossless comingAndGoing hd sampleCall
    have hsmall : ¬ sampleApi.TooLarge ⟨"a@b.ru ok".toList, "1".toList, sampleId_ne_nil⟩ := by decide
    simp only [List.mem_cons, List.not_mem_nil, or_false] at hall
    rcases hall with h | h | h | h | h
    · exact h
    · obtain ⟨locs, hlocs⟩ := h400.mp h
      cases hlocs
    · obtain ⟨_, -, -, hpolicy⟩ := h403 h
      cases hpolicy systems.default rfl
    · obtain ⟨_, hbody, hlarge⟩ := h413.mp h
      cases hbody
      exact absurd hlarge hsmall
    · exact absurd (h503.mp h) (comingAndGoing_quiet _ _)
  exact ⟨hstatus _ authentic_empty, hstatus _ (authentic_run [sampleCall, sampleCall] authentic_empty)⟩

end Api

end PdMasking
