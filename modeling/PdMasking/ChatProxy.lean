import PdMasking.Config
import PdMasking.Unmask

/-!
# PdMasking.ChatProxy — masking, LLM, unmasking (`core/chat_proxy.py`)

`ChatProxy.handle` masks a message, asks the LLM and unmasks its reply; the correspondence of masks and
originals lives only as long as the request.  The LLM is a parameter: what it replies to the messages it is
sent, or an exception.

A token is `[`, a body without brackets, `]`, and no restored value contains `[`.  So at every pass the
search stops only at the tokens of its own fragment (`ownPlaces_of_tokens`), whatever else the reply is made
of.

* `token_round_trip`: every reply made of tokens and bracket-free text comes back with all originals in
  place.
-/

namespace PdMasking

open TextSearch Template

/-- An entry of `messages`. -/
structure ChatMessage where
  role : Str
  content : Str
  deriving DecidableEq

/-- `_SYSTEM_PROMPT`. -/
def systemPrompt : Str :=
  ("Ты ассистент банка. Персональные данные в тексте заменены метками вида " ++
    "[ТИП_xxxxxx]. Сохраняй метки в ответе без изменений и не пытайся их расшифровать.").toList

/-- `ChatResult`. -/
structure ChatResult where
  sentToLlm : Str
  llmAnswer : Str
  answer : Str
  pdTypes : List (Str × ℕ)
  deriving DecidableEq

/-- `ChatProxy`; `complete` is the method of its LLM client. -/
structure ChatProxy where
  runtime : Runtime
  engine : DetectionEngine
  masker : Masker
  complete : List ChatMessage → Except PyExc Str

namespace ChatProxy

variable (C : ChatProxy)

/-- The `messages` sent to the LLM. -/
def messages (masked : Str) : List ChatMessage :=
  [⟨"system".toList, systemPrompt⟩, ⟨"user".toList, masked⟩]

/-- `self._engine.detect` under the policy. -/
def detect (text : Str) (policy : SystemPolicy) : List Entity :=
  C.engine.detect C.runtime text policy.pdTypes policy.combinations

/-- `self._masker.mask` on what is detected. -/
def mask (message : Str) (policy : SystemPolicy) : Except PyExc MaskResult :=
  C.masker.mask C.runtime message (C.detect message policy) policy.rules

/-- `handle`. -/
def handle (message : Str) (policy : SystemPolicy) : Except PyExc ChatResult := do
  let entities := C.detect message policy
  let masked ← C.masker.mask C.runtime message entities policy.rules
  let leaked := C.detect masked.text policy
  if leaked ≠ [] then throw .leakBlocked
  let llmAnswer ← C.complete (messages masked.text)
  return {
    sentToLlm := masked.text
    llmAnswer
    answer := (unmaskFragments C.runtime llmAnswer masked.fragments).1
    pdTypes := pdCounts entities }

end ChatProxy

/-! ### Tokens -/

section Tokens

variable {R : Runtime} {K : Masker} {text : Str} {rules : PDType → Option MaskRule}

/-- Every type is masked by a token. -/
def TokenRules (rules : PDType → Option MaskRule) : Prop :=
  ∀ t, ((rules t).getD defaultRule).strategy = .token

/-- What stands between the brackets of a token. -/
def tokenBody (K : Masker) (pdType : PDType) (span : Str) : Str :=
  pdType.value.map Char.toUpper ++ '_' :: (K.digest pdType span).take 6

theorem token_eq (pdType : PDType) (span : Str) :
    K.token pdType span = '[' :: (tokenBody K pdType span ++ [']']) := by
  unfold Masker.token tokenBody
  simp

/-- Neither the name of a type nor a digest contains a bracket. -/
theorem bracket_notMem_tokenBody (pdType : PDType) (span : Str) :
    '[' ∉ tokenBody K pdType span ∧ ']' ∉ tokenBody K pdType span := by
  have hname : '[' ∉ pdType.value.map Char.toUpper ∧ ']' ∉ pdType.value.map Char.toUpper := by
    cases pdType <;> decide
  have hdigest : ∀ c ∈ (K.digest pdType span).take 6, isHexDigit c = true := by
    intro c hc
    exact List.all_eq_true.mp (K.hexdigest_hex _) c (List.mem_of_mem_take hc)
  unfold tokenBody
  constructor
  · intro h
    rcases List.mem_append.mp h with h | h
    · exact hname.1 h
    · rcases List.mem_cons.mp h with h | h
      · exact absurd h (by decide)
      · exact absurd (hdigest _ h) (by decide)
  · intro h
    rcases List.mem_append.mp h with h | h
    · exact hname.2 h
    · rcases List.mem_cons.mp h with h | h
      · exact absurd h (by decide)
      · exact absurd (hdigest _ h) (by decide)

theorem bracket_notMem_tail_token (pdType : PDType) (span : Str) : '[' ∉ (K.token pdType span).tail := by
  rw [token_eq, List.tail_cons]
  intro hc
  rcases List.mem_append.mp hc with hc | hc
  · exact (bracket_notMem_tokenBody pdType span).1 hc
  · exact absurd (List.mem_singleton.mp hc) (by decide)

/-- A token is a prefix of another one only if they are equal. -/
theorem token_eq_of_prefix_token {t t' : PDType} {span span' : Str} (h : K.token t span <+: K.token t' span') :
    K.token t span = K.token t' span' := by
  rw [token_eq, token_eq, List.cons_prefix_cons] at h
  have hbody : tokenBody K t span = tokenBody K t' span' :=
    eq_of_prefix_closed (bracket_notMem_tokenBody t span).2 (bracket_notMem_tokenBody t' span').2 h.2
  rw [token_eq, token_eq, hbody]

theorem apply_token (hrules : TokenRules rules) (e : Entity) :
    Masker.apply R K text e ((rules e.pdType).getD defaultRule) =
      .ok (K.token e.pdType (slice text e.start e.stop)) := by
  unfold Masker.apply
  rw [hrules e.pdType]

/-- Masking by tokens does not fail. -/
theorem exists_maskFrom (hrules : TokenRules rules) : ∀ (es : List Entity) (pos : ℕ),
    ∃ m, Masker.maskFrom R K text rules pos es = .ok m
  | [], pos => ⟨_, rfl⟩
  | e :: es, pos => by
    obtain ⟨m, hm⟩ := exists_maskFrom hrules es e.stop
    rw [Masker.maskFrom, apply_token hrules, hm]
    exact ⟨_, rfl⟩

end Tokens

/-! ### The round trip -/

namespace ChatProxy

section RoundTrip

variable {C : ChatProxy} {message : Str} {policy : SystemPolicy} {masked : MaskResult}

/-- The (type, value) pairs of a message. -/
def values (C : ChatProxy) (message : Str) (policy : SystemPolicy) : List (PDType × Str) :=
  (C.detect message policy).map (fun e => (e.pdType, slice message e.start e.stop))

/-- Distinct pairs have distinct tokens. -/
def DistinctTokens (K : Masker) (values : List (PDType × Str)) : Prop :=
  ∀ v ∈ values, ∀ v' ∈ values, v ≠ v' → K.token v.1 v.2 ≠ K.token v'.1 v'.2

/-- A fragment is the token of a pair of the message, and its value. -/
theorem token_fragment (hrules : TokenRules policy.rules)
    (hmask : C.mask message policy = .ok masked) {f : Str × Str} (hf : f ∈ masked.fragments) :
    ∃ v ∈ values C message policy, f = (C.masker.token v.1 v.2, v.2) := by
  obtain ⟨e, he, ha, horig⟩ := fragment_spec hmask hf
  rw [apply_token hrules] at ha
  refine ⟨(e.pdType, slice message e.start e.stop), ?_, ?_⟩
  · exact List.mem_map.mpr ⟨e, he, rfl⟩
  · exact Prod.ext (Except.ok.inj ha).symm horig

/-- A value of the message is a part of it. -/
theorem mem_of_mem_value {v : PDType × Str} (hv : v ∈ values C message policy) {c : Char} (hc : c ∈ v.2) :
    c ∈ message := by
  obtain ⟨e, -, rfl⟩ := List.mem_map.mp hv
  exact mem_of_mem_slice hc

/-- Distinct fragments have distinct tokens. -/
theorem fragment_eq_of_token {K : Masker} {vs : List (PDType × Str)} (hdistinct : DistinctTokens K vs)
    {v v' : PDType × Str} (hv : v ∈ vs) (hv' : v' ∈ vs) (h : K.token v.1 v.2 = K.token v'.1 v'.2) :
    ((K.token v.1 v.2, v.2) : Str × Str) = (K.token v'.1 v'.2, v'.2) := by
  have hvalue : v = v' := by
    by_contra hne
    exact hdistinct v hv v' hv' hne h
  rw [hvalue]

/-- **Tokens are met only at their own places**, in a text of tokens, bracket-free text and restored values. -/
theorem ownPlaces_of_tokens (hfree : '[' ∉ message) (hrules : TokenRules policy.rules)
    (hdistinct : DistinctTokens C.masker (values C message policy))
    (hmask : C.mask message policy = .ok masked)
    {pieces : List (Piece (Str × Str) Char)} (hplain : ∀ s, .plain s ∈ pieces → '[' ∉ s)
    (hslots : ∀ f, .slot f ∈ pieces → f ∈ masked.fragments) : OwnPlaces masked.fragments pieces := by
  intro f hf _ done hnot _ _ i hi
  obtain ⟨v, hv, rfl⟩ := token_fragment hrules hmask hf
  have hfill : partly Prod.fst Prod.snd done (C.masker.token v.1 v.2, v.2) = C.masker.token v.1 v.2 :=
    if_neg hnot
  refine hits_subset_places (hfill.trans (token_eq v.1 v.2)) hplain ?_ i (by rw [hfill]; exact hi)
  intro g hg hne
  obtain ⟨v', hv', rfl⟩ := token_fragment hrules hmask (hslots g hg)
  by_cases hdone : (C.masker.token v'.1 v'.2, v'.2) ∈ done
  · -- a restored value is a part of the message
    have hvalue : partly Prod.fst Prod.snd done (C.masker.token v'.1 v'.2, v'.2) = v'.2 := if_pos hdone
    refine Or.inl ?_
    rw [hvalue]
    intro hc
    exact hfree (mem_of_mem_value hv' hc)
  · -- a token not yet restored differs from this one behind the opening bracket
    have hvalue : partly Prod.fst Prod.snd done (C.masker.token v'.1 v'.2, v'.2) = C.masker.token v'.1 v'.2 :=
      if_neg hdone
    have hdiffer : C.masker.token v.1 v.2 ≠ C.masker.token v'.1 v'.2 := by
      intro h
      exact hne (fragment_eq_of_token hdistinct hv' hv h.symm)
    refine Or.inr ?_
    rw [hvalue, hfill]
    refine ⟨?_, ?_, ?_⟩
    · exact bracket_notMem_tail_token v'.1 v'.2
    · intro hp
      exact hdiffer (token_eq_of_prefix_token hp)
    · intro hp
      exact hdiffer (token_eq_of_prefix_token hp).symm

/-- A reply made of tokens and bracket-free text is unmasked slot by slot. -/
theorem unmask_reply (hfree : '[' ∉ message) (hrules : TokenRules policy.rules)
    (hdistinct : DistinctTokens C.masker (values C message policy))
    (hmask : C.mask message policy = .ok masked)
    {pieces : List (Piece (Str × Str) Char)} (hplain : ∀ s, .plain s ∈ pieces → '[' ∉ s)
    (hslots : ∀ f, .slot f ∈ pieces → f ∈ masked.fragments) :
    (unmaskFragments C.runtime (render Prod.fst pieces) masked.fragments).1 = render Prod.snd pieces := by
  have hown := ownPlaces_of_tokens hfree hrules hdistinct hmask hplain hslots
  refine unmask_of_ownPlaces C.runtime ?_ hslots hown
  intro f hf
  obtain ⟨v, -, rfl⟩ := token_fragment hrules hmask hf
  show C.masker.token v.1 v.2 ≠ []
  rw [token_eq]
  exact List.cons_ne_nil _ _

/-- The masked message is such a reply; unmasking it gives the message. -/
theorem masked_reply (hfree : '[' ∉ message) (hmask : C.mask message policy = .ok masked) :
    let pieces := maskPieces message 0 (C.detect message policy) masked.fragments
    (∀ s, .plain s ∈ pieces → '[' ∉ s) ∧ (∀ f, .slot f ∈ pieces → f ∈ masked.fragments) ∧
      render Prod.fst pieces = masked.text ∧ render Prod.snd pieces = message := by
  have hchain := chain_detect C.runtime C.engine message policy.pdTypes policy.combinations
  obtain ⟨hfst, hsnd⟩ := render_maskPieces hchain hmask
  refine ⟨?_, ?_, hfst, hsnd⟩
  · intro s hs hc
    exact hfree (mem_of_plain hs _ hc)
  · intro f hf
    exact (slot_mem_iff hmask).mp hf

/-- What `handle` does once the message is masked. -/
theorem handle_of_mask (hmask : C.mask message policy = .ok masked) :
    C.handle message policy =
      if C.detect masked.text policy ≠ [] then .error .leakBlocked
      else (C.complete (messages masked.text)).map (fun reply =>
        ⟨masked.text, reply, (unmaskFragments C.runtime reply masked.fragments).1,
          pdCounts (C.detect message policy)⟩) := by
  unfold mask at hmask
  unfold handle
  dsimp only
  rw [hmask]
  by_cases hleak : C.detect masked.text policy = []
  · rw [if_neg (not_not.mpr hleak)]
    simp only [Except.bind, bind, hleak, ne_eq, not_true_eq_false, if_false]
    cases C.complete (messages masked.text) <;> rfl
  · rw [if_pos hleak]
    simp only [Except.bind, bind, hleak, ne_eq, not_false_eq_true, if_true]
    rfl

/-- **The token round trip.**  A message without `[` is masked under token rules, its fragments being the
tokens and values of its pairs; unless the second detection finds something, every reply made of these tokens
and of text without `[` comes back with every token restored, and the masked message as the message. -/
theorem token_round_trip (C : ChatProxy) {message : Str} {policy : SystemPolicy} (hfree : '[' ∉ message)
    (hrules : TokenRules policy.rules) (hdistinct : DistinctTokens C.masker (values C message policy)) :
    ∃ masked, C.mask message policy = .ok masked ∧
      (∀ f ∈ masked.fragments, ∃ v ∈ values C message policy, f = (C.masker.token v.1 v.2, v.2)) ∧
      (C.detect masked.text policy ≠ [] → C.handle message policy = .error .leakBlocked) ∧
      (C.detect masked.text policy = [] →
        (∀ pieces : List (Piece (Str × Str) Char), (∀ s, .plain s ∈ pieces → '[' ∉ s) →
          (∀ f, .slot f ∈ pieces → f ∈ masked.fragments) →
          C.complete (messages masked.text) = .ok (render Prod.fst pieces) →
          (C.handle message policy).map ChatResult.answer = .ok (render Prod.snd pieces)) ∧
        (C.complete (messages masked.text) = .ok masked.text →
          (C.handle message policy).map ChatResult.answer = .ok message)) := by
  obtain ⟨masked, hmask⟩ : ∃ masked, C.mask message policy = .ok masked :=
    exists_maskFrom hrules (C.detect message policy) 0
  have hhandle := handle_of_mask hmask
  refine ⟨masked, hmask, fun f hf => token_fragment hrules hmask hf, ?_, ?_⟩
  · intro hleak
    rw [hhandle, if_pos hleak]
  · intro hclean
    have hanswer : ∀ pieces : List (Piece (Str × Str) Char), (∀ s, .plain s ∈ pieces → '[' ∉ s) →
        (∀ f, .slot f ∈ pieces → f ∈ masked.fragments) →
        C.complete (messages masked.text) = .ok (render Prod.fst pieces) →
        (C.handle message policy).map ChatResult.answer = .ok (render Prod.snd pieces) := by
      intro pieces hplain hslots hreply
      rw [hhandle, if_neg (not_not.mpr hclean), hreply]
      exact congrArg Except.ok (unmask_reply hfree hrules hdistinct hmask hplain hslots)
    refine ⟨hanswer, ?_⟩
    intro hreply
    obtain ⟨hplain, hslots, hfst, hsnd⟩ := masked_reply hfree hmask
    have hall := hanswer _ hplain hslots (hreply.trans (congrArg Except.ok hfst.symm))
    rw [hsnd] at hall
    exact hall

/-- The sample service before an LLM that repeats what the user says. -/
def echo : ChatProxy where
  runtime := sample.runtime
  engine := sample.engine
  masker := sample.masker
  complete messages := .ok ((messages.getLast?.map ChatMessage.content).getD [])

theorem token_round_trip_echo :
    ∃ masked, echo.mask "a@b.ru c@d.ru".toList systems.llmDemo = .ok masked ∧
      (∀ f ∈ masked.fragments, ∃ v ∈ values echo "a@b.ru c@d.ru".toList systems.llmDemo,
        f = (echo.masker.token v.1 v.2, v.2)) ∧
      (echo.detect masked.text systems.llmDemo ≠ [] →
        echo.handle "a@b.ru c@d.ru".toList systems.llmDemo = .error .leakBlocked) ∧
      (echo.detect masked.text systems.llmDemo = [] →
        (∀ pieces : List (Piece (Str × Str) Char), (∀ s, .plain s ∈ pieces → '[' ∉ s) →
          (∀ f, .slot f ∈ pieces → f ∈ masked.fragments) →
          echo.complete (messages masked.text) = .ok (render Prod.fst pieces) →
          (echo.handle "a@b.ru c@d.ru".toList systems.llmDemo).map ChatResult.answer =
            .ok (render Prod.snd pieces)) ∧
        (echo.complete (messages masked.text) = .ok masked.text →
          (echo.handle "a@b.ru c@d.ru".toList systems.llmDemo).map ChatResult.answer =
            .ok "a@b.ru c@d.ru".toList)) := by
  have hrules : TokenRules systems.llmDemo.rules := fun _ => rfl
  have hvalues : values echo "a@b.ru c@d.ru".toList systems.llmDemo =
      [(.email, "a@b.ru".toList), (.email, "c@d.ru".toList)] := rfl
  have hdistinct : DistinctTokens echo.masker (values echo "a@b.ru c@d.ru".toList systems.llmDemo) := by
    rw [hvalues]
    unfold DistinctTokens
    decide
  exact token_round_trip echo (by decide) hrules hdistinct

example : (echo.handle "a@b.ru c@d.ru".toList systems.llmDemo).map ChatResult.sentToLlm =
    .ok "[EMAIL_4011b7] [EMAIL_efe04d]".toList := rfl

end RoundTrip

end ChatProxy

end PdMasking
