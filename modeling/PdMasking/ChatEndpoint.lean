import PdMasking.Availability
import PdMasking.ChatProxy
import PdMasking.Endpoint

/-!
# PdMasking.ChatEndpoint — `POST /chat` (`api/chat.py`)

The endpoint before `ChatProxy`, whose LLM client may answer anything.

* `chat_asks`: what the LLM is asked, and that nothing else about it matters.
* `chat_law`: which status a message gets.
-/

namespace PdMasking

open Json

/-- `ChatRequest` -/
structure ChatRequest where
  message : Str
  message_ne : message ≠ []

/-- A `Moment` in which the LLM is called too. -/
structure ChatMoment extends Moment where
  /-- `result.llm_ms / 1000` -/
  llmSeconds : ℚ
  /-- `round(result.llm_ms, 2)` -/
  llmMs : Doc

/-- An HTTP request to `/chat`. -/
structure ChatCall where
  moment : ChatMoment
  systemId : Option Str
  body : Except (List (List Str)) ChatRequest

namespace Api

variable (A : Api)

/-- A record of the logger `pd.chat` about a request of a system. -/
def chatRecord (m : Moment) (event : Str) (systemId : Option Str) : LogRecord :=
  logRecord m "pd.chat".toList "WARNING".toList event
    [("request_id".toList, some (.string m.requestId)), ("system_id".toList, systemId.map .string)]

def messageTooLarge : Reply := ⟨jsonResponse (detail "message слишком большой".toList) 413 [], [], []⟩

def headerMissing (m : Moment) : Reply :=
  ⟨jsonResponse (detail "система не допущена к сервису".toList) 403 [],
    [chatRecord m "system_header_missing".toList none], []⟩

def chatNotAllowed (m : Moment) (systemId : Option Str) : Reply :=
  ⟨jsonResponse (detail "система не допущена к сервису".toList) 403 [],
    [chatRecord m "system_not_allowed".toList systemId], []⟩

def chatForbidden (m : Moment) (systemId : Option Str) : Reply :=
  ⟨jsonResponse (detail "демаскирование запрещено для системы".toList) 403 [],
    [chatRecord m "unmask_forbidden".toList systemId], []⟩

def leakBlocked (m : Moment) (systemId : Option Str) : Reply :=
  ⟨jsonResponse (detail ("Маскирование не гарантировало отсутствие персональных данных, " ++
      "запрос в LLM не отправлен").toList) 422 [],
    [chatRecord m "leak_blocked".toList systemId], [.inc (.LLM_ERRORS "leak_blocked".toList) 1]⟩

def llmUnavailable (m : Moment) (systemId : Option Str) : Reply :=
  ⟨jsonResponse (detail "LLM временно недоступна, запрос не выполнен".toList) 503 [],
    [chatRecord m "llm_unavailable".toList systemId], [.inc (.LLM_ERRORS "unavailable".toList) 1]⟩

/-- `result.pd_types` -/
def pdTypesDoc (pdTypes : List (Str × ℕ)) : Doc := .object (pdTypes.map (fun c => (c.1, .int c.2)))

/-- The reply to a message that went through. -/
def chatProcessed (m : ChatMoment) (policy : SystemPolicy) (result : ChatResult) : Reply :=
  ⟨jsonResponse
      [("answer".toList, .string result.answer), ("sent_to_llm".toList, .string result.sentToLlm),
        ("llm_answer".toList, .string result.llmAnswer), ("pd_types".toList, pdTypesDoc result.pdTypes)] 200 [],
    [logRecord m.toMoment "pd.chat".toList "INFO".toList "chat_processed".toList
      [("request_id".toList, some (.string m.requestId)), ("system_id".toList, some (.string policy.systemId)),
        ("pd_types".toList, some (pdTypesDoc result.pdTypes)),
        ("entities".toList, some (.int (result.pdTypes.map Prod.snd).sum)), ("latency_ms".toList, some m.latencyMs),
        ("llm_ms".toList, some m.llmMs), ("status".toList, some (.string "ok".toList))]],
    [.observe .LLM_LATENCY m.llmSeconds]⟩

/-- What the endpoint makes of the end of `ChatProxy.handle`. -/
def chatRespond (m : ChatMoment) (systemId : Option Str) (policy : SystemPolicy) : Except PyExc ChatResult → Reply
  | .error .leakBlocked => leakBlocked m.toMoment systemId
  | .error .llmUnavailable => llmUnavailable m.toMoment systemId
  | .error exc => A.unhandledError m.toMoment exc
  | .ok result => chatProcessed m policy result

/-- The checks before the proxy: a reply, or the policy. -/
def chatPolicy (m : ChatMoment) (systemId : Option Str) (body : ChatRequest) : Except Reply SystemPolicy :=
  if A.maxPayloadChars < body.message.length then .error messageTooLarge
  else if systemId.getD [] = [] then .error (headerMissing m.toMoment)
  else
    match A.policies.resolve systemId with
    | none => .error (chatNotAllowed m.toMoment systemId)
    | some policy =>
      if ¬ policy.unmaskAllowed then .error (chatForbidden m.toMoment systemId)
      else .ok policy

/-- `chat`, with the handler of invalid requests. -/
def chat (C : ChatProxy) (call : ChatCall) : Reply :=
  match call.body with
  | .error locs => validationError locs
  | .ok body =>
    match A.chatPolicy call.moment call.systemId body with
    | .error reply => reply
    | .ok policy => A.chatRespond call.moment call.systemId policy (C.handle body.message policy)

/-! ### The checks -/

section Checks

variable {A} {m : ChatMoment} {systemId : Option Str} {body : ChatRequest} {policy : SystemPolicy}

/-- **Who gets to the proxy**: a named system that is allowed and may unmask, with a message within the limit. -/
theorem chatPolicy_eq_ok : A.chatPolicy m systemId body = .ok policy ↔
    ¬ A.maxPayloadChars < body.message.length ∧ systemId.getD [] ≠ [] ∧ A.policies.resolve systemId = some policy ∧
      policy.unmaskAllowed = true := by
  unfold chatPolicy
  split_ifs with hlarge hname
  · exact iff_of_false (fun h => nomatch h) (fun h => h.1 hlarge)
  · exact iff_of_false (fun h => nomatch h) (fun h => h.2.1 hname)
  · rcases A.policies.resolve systemId with _ | found
    · exact iff_of_false (fun h => nomatch h) (fun h => nomatch h.2.2.1)
    · dsimp only
      by_cases hu : found.unmaskAllowed = true
      · rw [if_neg (not_not.mpr hu)]
        constructor
        · rintro ⟨⟩
          exact ⟨hlarge, hname, rfl, hu⟩
        · rintro ⟨-, -, ⟨⟩, -⟩
          rfl
      · rw [if_pos hu]
        refine iff_of_false (fun h => nomatch h) ?_
        rintro ⟨-, -, ⟨⟩, hu'⟩
        exact hu hu'

/-- A check that fails: 413 for a message over the limit, else 403. -/
theorem chatPolicy_error {reply : Reply} (h : A.chatPolicy m systemId body = .error reply) :
    reply.response.status = if A.maxPayloadChars < body.message.length then 413 else 403 := by
  unfold chatPolicy at h
  split_ifs at h ⊢ with hlarge hname
  · cases h
    rfl
  · cases h
    rfl
  · rcases hres : A.policies.resolve systemId with _ | found
    · rw [hres] at h
      cases h
      rfl
    · rw [hres] at h
      dsimp only at h
      split_ifs at h
      cases h
      rfl

end Checks

/-! ### What the LLM is asked -/

section Asks

/-- A message that is ready for the LLM. -/
structure Prepared where
  body : ChatRequest
  policy : SystemPolicy
  masked : MaskResult

/-- What happens before the LLM is asked: a reply, or a message that is ready. -/
def prepared (A : Api) (C : ChatProxy) (call : ChatCall) : Except Reply Prepared :=
  match call.body with
  | .error locs => .error (validationError locs)
  | .ok body =>
    match A.chatPolicy call.moment call.systemId body with
    | .error reply => .error reply
    | .ok policy =>
      match C.mask body.message policy with
      | .error e => .error (A.chatRespond call.moment call.systemId policy (.error e))
      | .ok masked =>
        if C.detect masked.text policy = [] then .ok ⟨body, policy, masked⟩
        else .error (leakBlocked call.moment.toMoment call.systemId)

/-- What happens once the LLM has answered. -/
def completed (A : Api) (C : ChatProxy) (call : ChatCall) (p : Prepared) (llmAnswer : Except PyExc Str) : Reply :=
  A.chatRespond call.moment call.systemId p.policy (llmAnswer.map (fun reply =>
    ⟨p.masked.text, reply, (unmaskFragments C.runtime reply p.masked.fragments).1,
      pdCounts (C.detect p.body.message p.policy)⟩))

/-- Another client behind the same proxy. -/
def withClient (C : ChatProxy) (complete : List ChatMessage → Except PyExc Str) : ChatProxy :=
  { C with complete := complete }

variable {A : Api} {C : ChatProxy} {call : ChatCall}

/-- **A message before and behind the LLM.** -/
theorem chat_eq (A : Api) (C : ChatProxy) (call : ChatCall) : A.chat C call =
    match prepared A C call with
    | .error reply => reply
    | .ok p => completed A C call p (C.complete (ChatProxy.messages p.masked.text)) := by
  unfold chat prepared
  rcases call.body with locs | body
  · rfl
  · dsimp only
    rcases A.chatPolicy call.moment call.systemId body with reply | policy
    · rfl
    · dsimp only
      rcases hmask : C.mask body.message policy with e | masked
      · unfold ChatProxy.mask at hmask
        unfold ChatProxy.handle
        dsimp only
        rw [hmask]
        rfl
      · rw [ChatProxy.handle_of_mask hmask]
        by_cases hclean : C.detect masked.text policy = []
        · rw [if_neg (not_not.mpr hclean)]
          dsimp only
          rw [if_pos hclean]
          rfl
        · rw [if_pos hclean]
          dsimp only
          rw [if_neg hclean]
          rfl

theorem prepared_eq_ok {p : Prepared} : prepared A C call = .ok p ↔ call.body = .ok p.body ∧
    A.chatPolicy call.moment call.systemId p.body = .ok p.policy ∧ C.mask p.body.message p.policy = .ok p.masked ∧
      C.detect p.masked.text p.policy = [] := by
  unfold prepared
  rcases call.body with locs | body
  · exact iff_of_false (fun h => nomatch h) (fun h => nomatch h.1)
  · dsimp only
    rcases hpolicy : A.chatPolicy call.moment call.systemId body with reply | policy
    · refine iff_of_false (fun h => nomatch h) ?_
      rintro ⟨hbody, hok, -⟩
      rw [← Except.ok.inj hbody, hpolicy] at hok
      cases hok
    · dsimp only
      rcases hmask : C.mask body.message policy with e | masked
      · refine iff_of_false (fun h => nomatch h) ?_
        rintro ⟨hbody, hok, hmask', -⟩
        rw [← Except.ok.inj hbody, hpolicy] at hok
        rw [← Except.ok.inj hbody, ← Except.ok.inj hok, hmask] at hmask'
        cases hmask'
      · dsimp only
        constructor
        · intro h
          split_ifs at h with hclean
          cases h
          exact ⟨rfl, hpolicy, hmask, hclean⟩
        · rintro ⟨hbody, hok, hmask', hclean⟩
          obtain rfl := Except.ok.inj hbody
          obtain rfl := Except.ok.inj (hpolicy.symm.trans hok)
          obtain rfl := Except.ok.inj (hmask.symm.trans hmask')
          rw [if_pos hclean]

/-- The messages that the LLM gets for a request, if any. -/
def asks (A : Api) (C : ChatProxy) (call : ChatCall) : Option (List ChatMessage) :=
  (prepared A C call).toOption.map (fun p => ChatProxy.messages p.masked.text)

/-- **What the LLM is asked.**  It is asked for a valid request of a named system that is allowed and may unmask, with
the prompt and the masked message, in which nothing is found any more; and it is asked nothing else: a client that
answers these messages alike gives the same reply, whatever it answers to others. -/
theorem chat_asks (A : Api) (C : ChatProxy) (call : ChatCall) :
    (∀ ms, asks A C call = some ms → ∃ body policy masked, call.body = .ok body ∧ call.systemId.getD [] ≠ [] ∧
      A.policies.resolve call.systemId = some policy ∧ policy.unmaskAllowed = true ∧
      C.mask body.message policy = .ok masked ∧ C.detect masked.text policy = [] ∧
      ms = [⟨"system".toList, systemPrompt⟩, ⟨"user".toList, masked.text⟩]) ∧
    ∀ complete', (∀ ms, asks A C call = some ms → complete' ms = C.complete ms) →
      A.chat (withClient C complete') call = A.chat C call := by
  have hprepared : ∀ p, prepared A C call = .ok p → asks A C call = some (ChatProxy.messages p.masked.text) := by
    intro p hp
    unfold asks
    rw [hp]
    rfl
  constructor
  · intro ms hms
    rcases hp : prepared A C call with reply | p
    · unfold asks at hms
      rw [hp] at hms
      cases hms
    · obtain ⟨hbody, hpolicy, hmask, hclean⟩ := prepared_eq_ok.mp hp
      obtain ⟨-, hname, hres, hu⟩ := chatPolicy_eq_ok.mp hpolicy
      rw [hprepared p hp] at hms
      exact ⟨p.body, p.policy, p.masked, hbody, hname, hres, hu, hmask, hclean, (Option.some.inj hms).symm⟩
  · intro complete' hsame
    rw [chat_eq, chat_eq]
    show (match prepared A C call with
      | .error reply => reply
      | .ok p => completed A C call p (complete' (ChatProxy.messages p.masked.text))) = _
    rcases hp : prepared A C call with reply | p
    · rfl
    · dsimp only
      rw [hsame _ (hprepared p hp)]

/-- Masking never fails, with the detectors of the service. -/
theorem exists_chat_mask (hC : C.engine = ⟨defaultDetectors C.runtime⟩) (message : Str) (policy : SystemPolicy) :
    ∃ masked, C.mask message policy = .ok masked := by
  obtain ⟨o, record, h⟩ := mask_total (P := ⟨C.runtime, C.engine, C.masker⟩) hC message policy
  obtain ⟨m, hm, -, -⟩ := Processor.mask_inv _ h
  exact ⟨m, hm⟩

/-- **Which status a message gets**, and whether the LLM is asked: 400 for an invalid body, 413 for a message over the
limit, 403 unless the system is named, allowed and may unmask, 422 when something is found in the masked message, all
without asking it; else 503 when the LLM is unavailable, 500 when its client fails in another way, and 200. -/
theorem chat_law (A : Api) (hC : C.engine = ⟨defaultDetectors C.runtime⟩)
    (hllm : ∀ ms, C.complete ms ≠ .error .leakBlocked) (call : ChatCall) :
    let status := (A.chat C call).response.status
    (∃ locs, call.body = .error locs ∧ asks A C call = none ∧ status = 400) ∨
    (∃ body, call.body = .ok body ∧ asks A C call = none ∧
      ((A.maxPayloadChars < body.message.length ∧ status = 413) ∨
      (¬ A.maxPayloadChars < body.message.length ∧ (∀ policy, call.systemId.getD [] ≠ [] →
        A.policies.resolve call.systemId = some policy → policy.unmaskAllowed = false) ∧ status = 403) ∨
      (∃ policy masked, A.chatPolicy call.moment call.systemId body = .ok policy ∧
        C.mask body.message policy = .ok masked ∧ C.detect masked.text policy ≠ [] ∧ status = 422))) ∨
    ∃ ms, asks A C call = some ms ∧
      ((C.complete ms = .error .llmUnavailable ∧ status = 503) ∨
      (∃ e, C.complete ms = .error e ∧ e ≠ .llmUnavailable ∧ status = 500) ∨
      (∃ llmAnswer, C.complete ms = .ok llmAnswer ∧ status = 200)) := by
  intro status
  have hstatus : status = (A.chat C call).response.status := rfl
  rw [chat_eq] at hstatus
  unfold asks
  unfold prepared at hstatus ⊢
  rcases hbody : call.body with locs | body
  · rw [hbody] at hstatus
    exact Or.inl ⟨locs, rfl, rfl, hstatus⟩
  · refine Or.inr ?_
    rw [hbody] at hstatus
    dsimp only at hstatus ⊢
    rcases hpolicy : A.chatPolicy call.moment call.systemId body with reply | policy
    · rw [hpolicy] at hstatus
      refine Or.inl ⟨body, rfl, rfl, ?_⟩
      have hcode := hstatus.trans (chatPolicy_error hpolicy)
      by_cases hlarge : A.maxPayloadChars < body.message.length
      · rw [if_pos hlarge] at hcode
        exact Or.inl ⟨hlarge, hcode⟩
      · rw [if_neg hlarge] at hcode
        refine Or.inr (Or.inl ⟨hlarge, ?_, hcode⟩)
        intro policy hname hres
        by_contra hu
        have hok := (chatPolicy_eq_ok (m := call.moment)).mpr ⟨hlarge, hname, hres, by simpa using hu⟩
        rw [hpolicy] at hok
        cases hok
    · obtain ⟨masked, hmask⟩ := exists_chat_mask hC body.message policy
      rw [hpolicy] at hstatus
      dsimp only at hstatus ⊢
      rw [hmask] at hstatus ⊢
      dsimp only at hstatus ⊢
      by_cases hclean : C.detect masked.text policy = []
      · rw [if_pos hclean] at hstatus ⊢
        refine Or.inr ⟨ChatProxy.messages masked.text, rfl, ?_⟩
        dsimp only at hstatus
        unfold completed at hstatus
        rcases hcomplete : C.complete (ChatProxy.messages masked.text) with e | llmAnswer
        · rw [hcomplete] at hstatus
          by_cases he : e = .llmUnavailable
          · subst he
            exact Or.inl ⟨rfl, hstatus⟩
          · refine Or.inr (Or.inl ⟨e, rfl, he, ?_⟩)
            have hleak : e ≠ .leakBlocked := fun heq => hllm _ (heq ▸ hcomplete)
            rw [hstatus]
            cases e with
            | leakBlocked => exact absurd rfl hleak
            | llmUnavailable => exact absurd rfl he
            | _ => rfl
        · rw [hcomplete] at hstatus
          exact Or.inr (Or.inr ⟨llmAnswer, rfl, hstatus⟩)
      · rw [if_neg hclean] at hstatus ⊢
        exact Or.inl ⟨body, rfl, rfl, Or.inr (Or.inr ⟨policy, masked, hpolicy, hmask, hclean, hstatus⟩)⟩

end Asks

/-! ### The endpoint before an LLM that echoes -/

/-- The detectors of the service before an LLM that repeats what the user says. -/
def chatSample : ChatProxy :=
  ⟨Runtime.basic, ⟨defaultDetectors Runtime.basic⟩, sampleMasker,
    fun messages => .ok ((messages.getLast?.map ChatMessage.content).getD [])⟩

/-- A message of a named system. -/
def sampleChatCall : ChatCall :=
  ⟨⟨sampleMoment, 1 / 10, .decimal false 1 (Fin.last 9) []⟩, some "default".toList,
    .ok ⟨"a@b.ru".toList, List.cons_ne_nil _ _⟩⟩

theorem mask_chatSample :
    (chatSample.mask "a@b.ru".toList systems.default).map MaskResult.text = .ok "*@*.**".toList := by
  decide +kernel

theorem detect_chatSample : (chatSample.detect "*@*.**".toList systems.default).map Entity.parts = [] := by
  decide +kernel

/-- The message is sent, and the answer comes back. -/
theorem chat_law_sample : (∃ ms, asks sampleApi chatSample sampleChatCall = some ms) ∧
    (sampleApi.chat chatSample sampleChatCall).response.status = 200 := by
  rcases chat_law (C := chatSample) sampleApi rfl (fun _ h => nomatch h) sampleChatCall with
    ⟨locs, hbody, -⟩ | ⟨body, hbody, -, ⟨hlarge, -⟩ | ⟨-, hpolicy, -⟩ | ⟨policy, masked, hpolicy, hmask, hfound, -⟩⟩ |
      ⟨ms, hasks, ⟨hcomplete, -⟩ | ⟨e, hcomplete, -⟩ | ⟨answer, -, hstatus⟩⟩
  · cases hbody
  · cases hbody
    exact absurd hlarge (by decide)
  · cases hpolicy systems.default (List.cons_ne_nil _ _) rfl
  · -- nothing is found in the masked message
    cases hbody
    obtain ⟨-, -, hresolve, -⟩ := chatPolicy_eq_ok.mp hpolicy
    obtain rfl : systems.default = policy := Option.some.inj hresolve
    have htext : (chatSample.mask "a@b.ru".toList systems.default).map MaskResult.text = .ok masked.text :=
      congrArg (Except.map MaskResult.text) hmask
    rw [← Except.ok.inj (mask_chatSample.symm.trans htext)] at hfound
    exact absurd (List.map_eq_nil_iff.mp detect_chatSample) hfound
  · cases hcomplete
  · cases hcomplete
  · exact ⟨⟨ms, hasks⟩, hstatus⟩

end Api

end PdMasking
