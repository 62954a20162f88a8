import PdMasking.CharMask
import PdMasking.Requirements

/-!
# PdMasking.Alignment — masking is aligned, and lossless outside the hulls

* `apply_ne_nil`: no strategy masks an entity by the empty string, and none fails inside the text.
* `gaps`, `weave`: the text between the hulls, and a text put together from gaps and fillings.
* `mask_aligned`: the text and the masked text are the same gaps around the originals and around the masks.
-/

namespace PdMasking

variable {R : Runtime} {K : Masker} {text : Str}

/-! ### No mask is empty -/

section Masks

theorem join_ne_nil {sep w : Str} {words : List Str} (hw : w ≠ []) : join sep (w :: words) ≠ [] := by
  unfold join
  rcases words with _ | ⟨w', words⟩
  · simpa [List.intercalate] using hw
  · simp [List.intercalate, hw]

theorem length_synthChars (digest : Str) : ∀ (idx : ℕ) (span : Str),
    (Masker.synthChars R digest idx span).length = span.length
  | _, [] => rfl
  | idx, c :: span => by
    rw [Masker.synthChars, List.length_cons, List.length_cons, length_synthChars digest (idx + 1) span]

theorem fakeSurnames_ne_nil (n : ℕ) : fakeSurnames.getD (n % 8) [] ≠ [] := by
  have hlt : n % 8 < 8 := Nat.mod_lt n (by decide)
  have hall : ∀ i < 8, fakeSurnames.getD i [] ≠ [] := by decide
  exact hall _ hlt

theorem synth_ne_nil {e : Entity} {span : Str} (hspan : span ≠ []) : Masker.synth R K e span ≠ [] := by
  unfold Masker.synth
  dsimp only
  split_ifs
  · -- at least the surname is taken
    obtain ⟨n, hn⟩ : ∃ n, min (max (letterRuns span).length 1) 3 = n + 1 :=
      ⟨min (max (letterRuns span).length 1) 3 - 1, by omega⟩
    rw [hn, List.take_succ_cons]
    exact join_ne_nil (fakeSurnames_ne_nil _)
  · simp
  · intro hnil
    have hlen := length_synthChars (R := R) (K.digest e.pdType span) 0 span
    rw [hnil] at hlen
    exact hspan (List.eq_nil_of_length_eq_zero hlen.symm)

/-- **Inside the text every strategy gives a mask**, and it is not empty. -/
theorem apply_ne_nil {e : Entity} (h : InText text e) (rule : MaskRule) :
    ∃ mask, Masker.apply R K text e rule = .ok mask ∧ mask ≠ [] := by
  have hhull := e.start_lt_stop
  have hchars : ∃ mask, Masker.chars R text e rule = .ok mask ∧ mask ≠ [] := by
    obtain ⟨mask, hmask, hlen, -⟩ := chars_exact (R := R) h rule
    refine ⟨mask, hmask, ?_⟩
    rintro rfl
    rw [List.length_nil] at hlen
    omega
  have hspan : slice text e.start e.stop ≠ [] := by
    intro hnil
    have hlen := length_slice (a := e.start) h.inside
    rw [hnil, List.length_nil] at hlen
    omega
  unfold Masker.apply
  dsimp only
  split
  · split_ifs with hwords
    · obtain ⟨w, ws, hws⟩ := List.exists_cons_of_ne_nil hwords
      refine ⟨_, rfl, ?_⟩
      rw [hws, List.map_cons]
      exact join_ne_nil (by simp)
    · exact hchars
  · split_ifs with hat
    · exact ⟨_, rfl, by simp⟩
    · exact hchars
  · exact ⟨_, rfl, List.cons_ne_nil _ _⟩
  · exact ⟨_, rfl, List.cons_ne_nil _ _⟩
  · exact ⟨_, rfl, synth_ne_nil hspan⟩
  · exact hchars
  · exact hchars

end Masks

/-! ### Gaps and fillings -/

section Gaps

/-- The text between the hulls from position `pos` on, one piece more than there are hulls. -/
def gaps (text : Str) : ℕ → List Entity → List Str
  | pos, [] => [text.drop pos]
  | pos, e :: es => slice text pos e.start :: gaps text e.stop es

/-- `s₀ o₁ s₁ … oₙ sₙ`. -/
def weave : List Str → List Str → Str
  | s :: segments, o :: fillings => s ++ o ++ weave segments fillings
  | segments, _ => segments.flatten

theorem length_gaps : ∀ (es : List Entity) (pos : ℕ), (gaps text pos es).length = es.length + 1
  | [], _ => rfl
  | e :: es, _ => by rw [gaps, List.length_cons, length_gaps es, List.length_cons]

/-- The text is its gaps with the hulls in between. -/
theorem weave_gaps : ∀ {es : List Entity} {pos : ℕ}, Chain pos es →
    weave (gaps text pos es) (es.map (fun e => slice text e.start e.stop)) = text.drop pos
  | [], pos, _ => by simp [gaps, weave]
  | e :: es, pos, ⟨hpos, hchain⟩ => by
    rw [gaps, List.map_cons, weave, weave_gaps hchain, List.append_assoc,
      slice_append_drop e.start_lt_stop.le, slice_append_drop hpos]

/-- The loop of `mask` puts the masks between the gaps. -/
theorem maskFrom_aligned (rules : PDType → Option MaskRule) : ∀ {es : List Entity} (pos : ℕ),
    (∀ e ∈ es, InText text e) → ∃ m, Masker.maskFrom R K text rules pos es = .ok m ∧
      m.text = weave (gaps text pos es) (m.fragments.map Prod.fst) ∧
      m.fragments.map Prod.snd = es.map (fun e => slice text e.start e.stop) ∧ ∀ f ∈ m.fragments, f.1 ≠ []
  | [], pos, _ => by
    refine ⟨⟨text.drop pos, []⟩, rfl, ?_, rfl, fun f hf => absurd hf List.not_mem_nil⟩
    simp [gaps, weave]
  | e :: es, pos, h => by
    rw [List.forall_mem_cons] at h
    obtain ⟨mask, hmask, hne⟩ := apply_ne_nil (R := R) (K := K) h.1 (ruleOf rules e)
    obtain ⟨m, hm, htext, horig, hmasks⟩ := maskFrom_aligned rules e.stop h.2
    refine ⟨⟨slice text pos e.start ++ mask ++ m.text, (mask, slice text e.start e.stop) :: m.fragments⟩,
      ?_, ?_, ?_, ?_⟩
    · rw [maskFrom_of_apply hmask, hm]
      rfl
    · rw [gaps, List.map_cons, weave, ← htext]
    · rw [List.map_cons, List.map_cons, horig]
    · exact List.forall_mem_cons.mpr ⟨hne, hmasks⟩

/-- **Masking is aligned and lossless outside the fragments.**  For detectors whose candidates are well formed,
the text and the masked text are the same gaps between the hulls, once around the originals and once around
the masks; the originals are the hulls of the detected entities, in order, and no mask is empty. -/
theorem mask_aligned (R : Runtime) (K : Masker) (D : DetectionEngine) (text : Str) (enabled : Finset PDType)
    (combinations : Combinations) (rules : PDType → Option MaskRule)
    (hin : ∀ e ∈ D.candidates R text enabled, InText text e) :
    ∃ m segments, K.mask R text (D.detect R text enabled combinations) rules = .ok m ∧
      segments = gaps text 0 (D.detect R text enabled combinations) ∧
      segments.length = m.fragments.length + 1 ∧
      text = weave segments (m.fragments.map Prod.snd) ∧
      m.text = weave segments (m.fragments.map Prod.fst) ∧
      m.fragments.map Prod.snd =
        (D.detect R text enabled combinations).map (fun e => slice text e.start e.stop) ∧
      ∀ f ∈ m.fragments, f.1 ≠ [] := by
  have hin' : ∀ e ∈ D.detect R text enabled combinations, InText text e :=
    fun e he => hin e (mem_candidates_of_mem_detect combinations R text enabled D he)
  obtain ⟨m, hm, htext, horig, hmasks⟩ := maskFrom_aligned (R := R) (K := K) rules 0 hin'
  have hweave : weave (gaps text 0 (D.detect R text enabled combinations))
      ((D.detect R text enabled combinations).map (fun e => slice text e.start e.stop)) = text.drop 0 :=
    weave_gaps (chain_detect R D text enabled combinations)
  refine ⟨m, _, hm, rfl, ?_, ?_, htext, horig, hmasks⟩
  · have hlen := congrArg List.length horig
    rw [List.length_map, List.length_map] at hlen
    rw [length_gaps, hlen]
  · rw [horig, hweave]
    rfl

theorem mask_aligned_passport :
    ∃ m segments, sampleMasker.mask Runtime.basic passportText
        (DetectionEngine.detect Runtime.basic ⟨[sampleDetector samplePassport]⟩ passportText ALL_PD_TYPES
          (fun _ => none)) systems.llmDemo.rules = .ok m ∧
      segments = gaps passportText 0 (DetectionEngine.detect Runtime.basic ⟨[sampleDetector samplePassport]⟩
        passportText ALL_PD_TYPES (fun _ => none)) ∧
      segments.length = m.fragments.length + 1 ∧
      passportText = weave segments (m.fragments.map Prod.snd) ∧
      m.text = weave segments (m.fragments.map Prod.fst) ∧
      m.fragments.map Prod.snd = (DetectionEngine.detect Runtime.basic ⟨[sampleDetector samplePassport]⟩
        passportText ALL_PD_TYPES (fun _ => none)).map (fun e => slice passportText e.start e.stop) ∧
      ∀ f ∈ m.fragments, f.1 ≠ [] := by
  refine mask_aligned Runtime.basic sampleMasker ⟨[sampleDetector samplePassport]⟩ passportText ALL_PD_TYPES
    (fun _ => none) systems.llmDemo.rules ?_
  have hone : DetectionEngine.candidates Runtime.basic ⟨[sampleDetector samplePassport]⟩ passportText ALL_PD_TYPES =
      [samplePassport] := rfl
  intro e he
  rw [hone] at he
  obtain rfl := List.mem_singleton.mp he
  exact ⟨by decide, by decide⟩

end Gaps

end PdMasking
