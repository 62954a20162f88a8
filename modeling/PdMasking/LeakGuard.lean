import PdMasking.Ranks
import PdMasking.Requirements
import PdMasking.TokenSites

/-!
# PdMasking.LeakGuard — the second detection and the inserted tokens (`core/chat_proxy.py`)

`handle` detects once more in the masked text and refuses to send it when something is found.  What is found may lie in
an inserted token, behind the label of a PIN or CVV code when its digest begins with a short number; and it may go over
a token, when an issuer or a single value is read there (`readOver`).

* `read_of_touching`: what has a character of a token is one of these.
* `spares_tokens_iff`: when the second detection finds nothing inside the inserted tokens, and refuses the message only
  for what has no character of them.
-/

namespace PdMasking

open Regex Summary Template

/-! ### What may be read in a token or over it -/

/-- What `_PIN_RE` and `_CVV_RE` read behind a label. -/
def labelledCodes (R : Runtime) (text : Str) : List (Option Entity) :=
  ((ContextValues.pinRe.rx R).finditer text).map (fun m => ContextValueDetector.groupEntity .cardPin m 86 1) ++
    ((ContextValues.cvvRe.rx R).finditer text).map (fun m => ContextValueDetector.groupEntity .cardCvv m 86 1)

/-- What is read without regard to brackets: the text as one value, and the issuers. -/
def readOver (R : Runtime) (text : Str) : List (Option Entity) :=
  (StandaloneValueDetector R).detect text ++ (IssuanceDetector.issuers R text ++ ContextValueDetector.issuers R text)

section Finds

variable {R : Runtime} {K : Masker} {D : DetectionEngine} {text : Str} {enabled : Finset PDType} {t t' : ℕ} {e : Entity}

/-- An entity of one part without companions. -/
def Single (c : Candidate) : Prop := c.requiresAny = ∅ ∧ ∃ p, c.spans = [p]

theorem single_one {pdType : PDType} {p : ℕ × ℕ} {priority : ℤ} : Single ⟨pdType, [p], priority, ∅⟩ := ⟨rfl, p, rfl⟩

/-- A code is a number. -/
theorem labelledCodes_yields :
    Yields (fun c => Single c ∧ ∀ p ∈ c.spans, Bracketless text p) (labelledCodes R text) := by
  obtain ⟨-, -, -, -, -, -, -, -, hcodes⟩ := sites_apart
  have hnumber : ∀ r ∈ codeSites, ∀ m ∈ (r.rx R).finditer text, ∀ p ∈ [m.groupSpan 1], Bracketless text p := by
    intro r hr m hm p hp
    obtain rfl := List.mem_singleton.mp hp
    obtain ⟨halways, hall⟩ := Bool.and_eq_true_iff.mp (hcodes r hr)
    obtain ⟨span, hspan⟩ := Pattern.group_of_always halways (finditer_found hm)
    have heq : m.groupSpan 1 = span := by rw [Match.groupSpan, hspan, Option.getD_some]
    obtain ⟨x, y, -, hx, hy, -, hseg⟩ := group_segment (tokenSummary_sound R) hall (finditer_found hm) hspan
    rw [heq]
    exact (bracketless_of_segment hseg).mono hx hy
  refine (Yields.map ?_).append (Yields.map ?_)
  · intro m hm
    exact Yields.one ⟨single_one, hnumber _ (by simp [codeSites]) m hm⟩
  · intro m hm
    exact Yields.one ⟨single_one, hnumber _ (by simp [codeSites]) m hm⟩

theorem readOver_single : Yields Single (readOver R text) := by
  refine Yields.append (Yields.ite (fun _ => Yields.nil) (fun _ => ?_))
    ((IssuanceDetector.issuers_yields (fun _ _ _ _ => single_one)).append
      (ContextValueDetector.issuers_yields (fun _ _ _ => single_one) (fun _ _ => single_one)))
  split
  · exact Yields.one single_one
  · exact Yields.nil

/-- What a list yields is in the list. -/
theorem Yields.self {P : Candidate → Prop} {l : List (Option Entity)} (h : Yields P l) :
    Yields (fun c => makeEntity c.pdType c.spans c.priority c.requiresAny ∈ l) l := by
  intro e he
  obtain ⟨spans, hmade, -⟩ := h e he
  refine ⟨spans, hmade, ?_⟩
  show makeEntity e.pdType spans e.priority e.requiresAny ∈ l
  rw [hmade]
  exact he

/-- Beside the token, a code behind its label, or read without regard to brackets. -/
def BesideOrRead (R : Runtime) (text : Str) (enabled : Finset PDType) (t t' : ℕ) (c : Candidate) : Prop :=
  Beside text enabled t t' c ∨ makeEntity c.pdType c.spans c.priority c.requiresAny ∈ labelledCodes R text ∨
    makeEntity c.pdType c.spans c.priority c.requiresAny ∈ readOver R text

/-- **What has a character of a token** is a code inside it, or is read without regard to brackets. -/
theorem read_of_touching (hD : D.detectors = defaultDetectors R) (htok : TokenAt K text t t')
    (he : e ∈ D.candidates R text enabled) {p : ℕ × ℕ} (hp : p ∈ e.parts) (h1 : t < p.2) (h2 : p.1 < t') :
    (some e ∈ labelledCodes R text ∧ t ≤ e.start ∧ e.stop ≤ t') ∨ some e ∈ readOver R text := by
  obtain ⟨d, hd, he⟩ := List.mem_flatMap.mp he
  obtain ⟨he, henabled⟩ := List.mem_filter.mp he
  obtain ⟨o, ho, hoe⟩ := List.mem_filterMap.mp he
  obtain rfl : o = some e := hoe
  have hmem : d ∈ defaultDetectors R := hD ▸ (List.mem_filter.mp hd).1
  have hyields : Yields (BesideOrRead R text enabled t t') (d.detect text) := by
    have hread : Yields (BesideOrRead R text enabled t t') (readOver R text) :=
      readOver_single.self.mono (fun _ hc => Or.inr (Or.inr hc))
    refine detectors_beside htok (fun _ => Or.inl) ?_ ?_ ?_ ?_ d hmem
    · exact fun e he => hread e (List.mem_append_left _ he)
    · intro m hm
      exact Or.inr (Or.inl (List.mem_append_left _ (List.mem_map_of_mem hm)))
    · intro m hm
      exact Or.inr (Or.inl (List.mem_append_right _ (List.mem_map_of_mem hm)))
    · exact fun e he => hread e (List.mem_append_right _ he)
  obtain ⟨spans, hmade, ⟨houtside, hfree⟩ | hcode | hread⟩ := hyields e ho
  · obtain ⟨hspan, hlt⟩ := (mem_parts_of_makeEntity hmade).mp hp
    exact absurd (inside_of_bracketless htok (hfree p hspan) h1 h2)
      (houtside (of_decide_eq_true henabled) p hspan hlt)
  · rw [hmade] at hcode
    obtain ⟨spans', hmade', ⟨-, q, hspans⟩, hfree⟩ := labelledCodes_yields e hcode
    dsimp only at hspans hfree
    subst hspans
    have hparts := parts_of_span hmade'
    rw [hparts, List.mem_singleton] at hp
    subst hp
    rw [start_of_parts hparts, stop_of_parts hparts]
    exact Or.inl ⟨hcode, inside_of_bracketless htok (hfree p (List.mem_singleton_self p)) h1 h2⟩
  · exact Or.inr (hmade ▸ hread)

theorem TokenAt.ne_nil (htok : TokenAt K text t t') : text ≠ [] := by
  intro hnil
  have hopen := htok.brackets.1
  rw [hnil] at hopen
  cases hopen

/-- Such an entity has one part and needs no companions. -/
theorem alone_of_read (h : some e ∈ labelledCodes R text ∨ some e ∈ readOver R text) :
    e.requiresAny = ∅ ∧ e.parts = [(e.start, e.stop)] := by
  have hsingle : ∃ spans, makeEntity e.pdType spans e.priority e.requiresAny = some e ∧
      Single ⟨e.pdType, spans, e.priority, e.requiresAny⟩ := by
    rcases h with h | h
    · obtain ⟨spans, hmade, hone, -⟩ := labelledCodes_yields e h
      exact ⟨spans, hmade, hone⟩
    · exact readOver_single e h
  obtain ⟨spans, hmade, hany, p, hspans⟩ := hsingle
  dsimp only at hany hspans
  subst hspans
  exact ⟨hany, parts_eq_hull (parts_of_span hmade)⟩

/-- A code is a candidate. -/
theorem candidate_of_code (hD : D.detectors = defaultDetectors R) (he : some e ∈ labelledCodes R text)
    (henabled : e.pdType ∈ enabled) : e ∈ D.candidates R text enabled ∧ e.priority = 86 := by
  have hdetect : some e ∈ (ContextValueDetector R).detect text := by
    simp only [ContextValueDetector, ContextValueDetector.cardSecrets, List.flatMap_cons, List.mem_append]
    rcases List.mem_append.mp he with he | he
    · simp only [he, true_or]
    · simp only [he, true_or, or_true]
  have hfields : e.pdType ∈ (ContextValueDetector R).types ∧ e.priority = 86 := by
    rcases List.mem_append.mp he with he | he
    · obtain ⟨m, -, hm⟩ := List.mem_map.mp he
      obtain ⟨htype, hpriority, -⟩ := fields_of_makeEntity hm
      exact ⟨by rw [htype]; simp [ContextValueDetector], hpriority⟩
    · obtain ⟨m, -, hm⟩ := List.mem_map.mp he
      obtain ⟨htype, hpriority, -⟩ := fields_of_makeEntity hm
      exact ⟨by rw [htype]; simp [ContextValueDetector], hpriority⟩
  have happlicable : (ContextValueDetector R).applicable (textHasDigits R text) enabled = true := by
    have hne : (ContextValueDetector R).types ∩ enabled ≠ ∅ :=
      Finset.ne_empty_of_mem (Finset.mem_inter.mpr ⟨hfields.1, henabled⟩)
    rw [Detector.applicable, if_neg hne]
    exact Bool.or_true _
  have hmem : ContextValueDetector R ∈ D.detectors := by
    rw [hD]
    simp [defaultDetectors]
  refine ⟨List.mem_flatMap.mpr ⟨ContextValueDetector R, List.mem_filter.mpr ⟨hmem, happlicable⟩, ?_⟩, hfields.2⟩
  exact List.mem_filter.mpr ⟨List.mem_filterMap.mpr ⟨some e, hdetect, rfl⟩, decide_eq_true henabled⟩

end Finds

/-! ### The second detection -/

namespace ChatProxy

section Guard

variable (C : ChatProxy) (message : Str) (policy : SystemPolicy) (masked : MaskResult)

/-- The masker has put a token at `[t, t')` of the masked text. -/
def Inserted (t t' : ℕ) : Prop :=
  ∃ f ∈ masked.fragments,
    t ∈ places Prod.fst f 0 (maskPieces message 0 (C.detect message policy) masked.fragments) ∧ t' = t + f.1.length

/-- The span lies inside an inserted token. -/
def InToken (p : ℕ × ℕ) : Prop := ∃ t t', C.Inserted message policy masked t t' ∧ t ≤ p.1 ∧ p.2 ≤ t'

/-- The entity has no character of an inserted token. -/
def Clear (e : Entity) : Prop :=
  ∀ f ∈ masked.fragments, ∀ t ∈ places Prod.fst f 0 (maskPieces message 0 (C.detect message policy) masked.fragments),
    ∀ p ∈ e.parts, p.2 ≤ t ∨ t + f.1.length ≤ p.1

instance : DecidablePred (C.Clear message policy masked) :=
  fun e => inferInstanceAs (Decidable (∀ f ∈ masked.fragments, ∀ t ∈ _, ∀ p ∈ e.parts, _ ∨ _))

/-- The second detection finds nothing inside the inserted tokens. -/
def SparesTokens : Prop := ∀ e ∈ C.detect masked.text policy, ∀ p ∈ e.parts, ¬ C.InToken message policy masked p

/-- A message is refused as a leak only for what has no character of an inserted token. -/
def RefusesOthers : Prop :=
  C.handle message policy = .error .leakBlocked → ∀ e ∈ C.detect masked.text policy, C.Clear message policy masked e

/-- The candidates in the masked text. -/
def maskedCandidates : List Entity := C.engine.candidates C.runtime masked.text policy.pdTypes

/-- No label of a PIN or CVV code reads a number in a token.  And what is read over a token overlaps a candidate beside
the tokens: one of those that come before it in the order of the sort keys, and that are kept when these are walked
through and each is kept iff it overlaps none before. -/
structure TokensUnread : Prop where
  codes : ∀ e, some e ∈ labelledCodes C.runtime masked.text → e.pdType ∈ policy.pdTypes →
    ¬ C.InToken message policy masked (e.start, e.stop)
  readings : ∀ pre e post, (C.maskedCandidates policy masked).insertionSort keyLe = pre ++ e :: post →
    some e ∈ readOver C.runtime masked.text → ¬ C.Clear message policy masked e →
    ∃ k ∈ Greedy.select Entity.overlaps (pre.filter (C.Clear message policy masked)), e.overlaps k

variable {C message policy masked}

/-- A token stands where one was inserted. -/
theorem Inserted.tokenAt (hrules : TokenRules policy.rules) (hmask : C.mask message policy = .ok masked) {t t' : ℕ}
    (h : C.Inserted message policy masked t t') : TokenAt C.masker masked.text t t' := by
  obtain ⟨f, hf, hplace, rfl⟩ := h
  obtain ⟨v, -, rfl⟩ := token_fragment hrules hmask hf
  have hprefix := prefix_of_mem_places hplace
  have hchain : Chain 0 (C.detect message policy) := chain_detect C.runtime C.engine message policy.pdTypes _
  rw [(render_maskPieces hchain hmask).1] at hprefix
  have hlen := hprefix.length_le
  rw [List.length_drop] at hlen
  have hpos : 0 < (C.masker.token v.1 v.2).length := by
    rw [length_token]
    omega
  dsimp only at hlen ⊢
  refine ⟨Nat.le_add_right _ _, by omega, v.1, v.2, ?_⟩
  rw [slice, Nat.add_sub_cancel_left]
  exact (List.prefix_iff_eq_take.mp hprefix).symm

/-- An entity that is not clear has a character of a token. -/
theorem touching_of_not_clear {e : Entity} (h : ¬ C.Clear message policy masked e) :
    ∃ t t', C.Inserted message policy masked t t' ∧ ∃ p ∈ e.parts, t < p.2 ∧ p.1 < t' := by
  unfold Clear at h
  push Not at h
  obtain ⟨f, hf, t, ht, p, hp, h1, h2⟩ := h
  exact ⟨t, _, ⟨f, hf, ht, rfl⟩, p, hp, h1, h2⟩

/-- A part inside a token is not clear. -/
theorem not_clear_of_inToken {e : Entity} {p : ℕ × ℕ} (hp : p ∈ e.parts) (h : C.InToken message policy masked p) :
    ¬ C.Clear message policy masked e := by
  obtain ⟨t, t', ⟨f, hf, hplace, rfl⟩, hleft, hright⟩ := h
  intro hclear
  have hlt := e.parts_pos p hp
  have hcase := hclear f hf t hplace p hp
  omega

/-- What touches a token is read there, inside it or over it. -/
theorem read_of_not_clear (hdetectors : C.engine.detectors = defaultDetectors C.runtime)
    (hrules : TokenRules policy.rules) (hmask : C.mask message policy = .ok masked) {e : Entity}
    (he : e ∈ C.maskedCandidates policy masked) (h : ¬ C.Clear message policy masked e) :
    masked.text ≠ [] ∧ e.pdType ∈ policy.pdTypes ∧
      ((some e ∈ labelledCodes C.runtime masked.text ∧ C.InToken message policy masked (e.start, e.stop)) ∨
        some e ∈ readOver C.runtime masked.text) := by
  obtain ⟨t, t', hinserted, p, hp, h1, h2⟩ := touching_of_not_clear h
  have htok := hinserted.tokenAt hrules hmask
  obtain ⟨d, -, hd⟩ := List.mem_flatMap.mp he
  refine ⟨htok.ne_nil, of_decide_eq_true (List.mem_filter.mp hd).2, ?_⟩
  rcases read_of_touching hdetectors htok he hp h1 h2 with ⟨hcode, hin⟩ | hread
  · exact Or.inl ⟨hcode, t, t', hinserted, hin⟩
  · exact Or.inr hread

/-- What is detected in the masked text is beside the tokens iff what `_resolve_overlaps` keeps is. -/
theorem forall_clear_iff (hdetectors : C.engine.detectors = defaultDetectors C.runtime)
    (hrules : TokenRules policy.rules) (hcombinations : policy.combinations = fun _ => none)
    (hmask : C.mask message policy = .ok masked) :
    (∀ e ∈ C.detect masked.text policy, C.Clear message policy masked e) ↔
      ∀ e ∈ resolveOverlaps (C.maskedCandidates policy masked), C.Clear message policy masked e := by
  constructor
  · intro h e he
    by_contra hnot
    obtain ⟨hne, henabled, hkind⟩ := read_of_not_clear hdetectors hrules hmask (mem_of_mem_resolveOverlaps he) hnot
    have hany := (alone_of_read (hkind.imp_left And.left)).1
    refine hnot (h e (mem_detect_of_kept policy.combinations C.runtime masked.text policy.pdTypes C.engine ?_ he ?_))
    · rintro (hnil | hempty)
      · exact hne hnil
      · rw [hempty] at henabled
        exact absurd henabled (Finset.notMem_empty _)
    · refine ⟨fun hsome => absurd hany hsome, ?_⟩
      intro required hrequired
      rw [hcombinations] at hrequired
      cases hrequired
  · intro h e he
    by_cases hnone : masked.text = [] ∨ policy.pdTypes = ∅
    · have hempty : C.detect masked.text policy = [] := if_pos hnone
      rw [hempty] at he
      cases he
    · have heq := detect_eq C.runtime C.engine masked.text policy.pdTypes policy.combinations hnone
      have hdetect : e ∈ applyRequirements (resolveOverlaps (C.maskedCandidates policy masked)) policy.combinations :=
        heq ▸ he
      exact h e ((mem_applyRequirements policy.combinations).mp hdetect).1

/-- **The two halves together**: nothing that is detected has a character of an inserted token. -/
theorem spares_and_refuses_iff (hmask : C.mask message policy = .ok masked) :
    (C.SparesTokens message policy masked ∧ C.RefusesOthers message policy masked) ↔
      ∀ e ∈ C.detect masked.text policy, C.Clear message policy masked e := by
  constructor
  · rintro ⟨-, hrefuses⟩ e he
    have hleak : C.detect masked.text policy ≠ [] := List.ne_nil_of_mem he
    refine hrefuses ?_ e he
    rw [handle_of_mask hmask, if_pos hleak]
  · intro h
    exact ⟨fun e he p hp hin => not_clear_of_inToken hp hin (h e he), fun _ => h⟩

/-- A code in a token is hidden by nothing beside the tokens: only single spans come before it. -/
theorem code_not_hidden (hdetectors : C.engine.detectors = defaultDetectors C.runtime) {e k : Entity}
    (hpriority : e.priority = 86) (hin : C.InToken message policy masked (e.start, e.stop))
    {pre post : List Entity} (hsplit : (C.maskedCandidates policy masked).insertionSort keyLe = pre ++ e :: post)
    (hk : k ∈ pre) (hclear : C.Clear message policy masked k) : ¬ e.overlaps k := by
  rintro ⟨hbefore, hbehind⟩
  have hsorted := pairwise_keyLe (C.maskedCandidates policy masked)
  rw [hsplit] at hsorted
  have hle : keyLe k e := (List.pairwise_append.mp hsorted).2.2 k hk e List.mem_cons_self
  have hhigh : 86 ≤ k.priority := by
    unfold keyLe at hle
    omega
  have hcandidate : k ∈ C.maskedCandidates policy masked := by
    rw [← List.mem_insertionSort keyLe, hsplit]
    exact List.mem_append_left _ hk
  have hparts := one_part_of_high hdetectors hcandidate hhigh
  obtain ⟨t, t', ⟨f, hf, hplace, rfl⟩, hleft, hright⟩ := hin
  have hcase := hclear f hf t hplace (k.start, k.stop) (hparts ▸ List.mem_singleton_self _)
  dsimp only at hleft hright hcase
  omega

end Guard

/-! ### Tokens with and without a number -/

/-- All digests begin with these six characters. -/
def fixedMasker (six : Str) (hlen : six.length = 6) (hhex : six.all isHexDigit = true) : Masker where
  hexdigest _ := six ++ List.replicate 58 '0'
  length_hexdigest _ := by rw [List.length_append, hlen, List.length_replicate]
  hexdigest_hex _ := by
    rw [List.all_append, hhex, Bool.true_and]
    decide

def fixedProxy (K : Masker) : ChatProxy where
  runtime := Runtime.basic
  engine := ⟨defaultDetectors Runtime.basic⟩
  masker := K
  complete _ := .ok []

/-- As the digest of `pin:1234` begins under the key `change-me-26`. -/
def digitProxy : ChatProxy := fixedProxy (fixedMasker ['1', '2', '3', '4', 'e', '4'] rfl rfl)

def letterProxy : ChatProxy := fixedProxy (fixedMasker ['a', 'b', 'c', 'd', 'e', 'f'] rfl rfl)

def pinText : Str := ['P', 'I', 'N', ' ', '1', '2', '3', '4']

/-- The message masked with a token. -/
def pinMasked (token : Str) : MaskResult := ⟨['P', 'I', 'N', ' '] ++ token, [(token, ['1', '2', '3', '4'])]⟩

def digitToken : Str := ['[', 'P', 'I', 'N', '_', '1', '2', '3', '4', 'e', '4', ']']

def letterToken : Str := ['[', 'P', 'I', 'N', '_', 'a', 'b', 'c', 'd', 'e', 'f', ']']

theorem pin_detected (K : Masker) : ∃ e, (fixedProxy K).detect pinText systems.llmDemo = [e] ∧ e.pdType = .cardPin ∧
    e.parts = [(4, 8)] := by
  have hfound : ((fixedProxy K).detect pinText systems.llmDemo).map (fun e => (e.pdType, e.parts)) =
      [(.cardPin, [(4, 8)])] := by
    change (digitProxy.detect pinText systems.llmDemo).map (fun e => (e.pdType, e.parts)) = [(.cardPin, [(4, 8)])]
    decide +kernel
  obtain ⟨e, he, hfields⟩ := List.map_eq_singleton_iff.mp hfound
  obtain ⟨htype, hparts⟩ := Prod.mk.inj hfields
  exact ⟨e, he, htype, hparts⟩

theorem mask_pin (K : Masker) :
    (fixedProxy K).mask pinText systems.llmDemo = .ok (pinMasked (K.token .cardPin ['1', '2', '3', '4'])) := by
  obtain ⟨⟨pdType, parts, priority, requiresAny, hne, hpos, hsorted⟩, hfound, htype, hparts⟩ := pin_detected K
  dsimp only at htype hparts
  subst htype hparts
  have hmasked : (fixedProxy K).mask pinText systems.llmDemo =
      .ok { pinMasked (K.token .cardPin ['1', '2', '3', '4']) with
        text := (pinMasked (K.token .cardPin ['1', '2', '3', '4'])).text ++ [] } := by
    unfold mask
    rw [hfound]
    rfl
  rw [hmasked, List.append_nil]

end ChatProxy

end PdMasking
