import PdMasking.Engine
import PdMasking.Lib.Cover
import PdMasking.Masking

/-!
# PdMasking.Unmask — what fragment-wise unmasking replaces

* `replaced_ne_zero_iff`: something is replaced iff the mask of a changed fragment occurs in the text as it
  came in, whatever the originals are and in whatever order the set is iterated.
* `unmaskFragments_fst`: the restored text is a sequence of slot fillings, one for each distinct fragment.
* `sortedFragments_split`: each fragment has its pass, longest mask first.
* `render_maskPieces`: the masked text and the text are one template, its slots the fragments, under the two
  ways to fill them.
* `unmask_of_ownPlaces`: if every search stops only at the slots of its own fragment, unmasking restores
  them all.
-/

namespace PdMasking

open TextSearch Template

variable (R : Runtime) (fragments : List (Str × Str))

/-! ### The order of the passes -/

section Order

theorem mem_sortedFragments {f : Str × Str} : f ∈ sortedFragments R fragments ↔ f ∈ fragments := by
  unfold sortedFragments
  rw [List.mem_insertionSort, R.mem_setIter]

theorem sortedFragments_nodup : (sortedFragments R fragments).Nodup :=
  (List.perm_insertionSort _ _).nodup_iff.mpr (R.setIter_nodup fragments)

theorem sortedFragments_sorted :
    (sortedFragments R fragments).Pairwise (fun f g => g.1.length ≤ f.1.length) := by
  have htotal : Std.Total (fun f g : Str × Str => g.1.length ≤ f.1.length) :=
    ⟨fun f g => Nat.le_total g.1.length f.1.length⟩
  have htrans : IsTrans (Str × Str) (fun f g => g.1.length ≤ f.1.length) :=
    ⟨fun _ _ _ h h' => h'.trans h⟩
  exact List.pairwise_insertionSort _ _

/-- When a fragment is treated, all fragments with a longer mask have been, and no one with a shorter mask. -/
theorem sortedFragments_split {pre post : List (Str × Str)} {f : Str × Str}
    (h : sortedFragments R fragments = pre ++ f :: post) :
    f ∉ pre ∧ (∀ g ∈ fragments, f.1.length < g.1.length → g ∈ pre) ∧ ∀ g ∈ pre, f.1.length ≤ g.1.length := by
  have hnd := sortedFragments_nodup R fragments
  have hsorted := sortedFragments_sorted R fragments
  rw [h] at hnd hsorted
  rw [List.nodup_append] at hnd
  rw [List.pairwise_append, List.pairwise_cons] at hsorted
  obtain ⟨-, ⟨hpost, -⟩, hpre⟩ := hsorted
  refine ⟨?_, ?_, ?_⟩
  · intro hf
    exact hnd.2.2 f hf f List.mem_cons_self rfl
  · intro g hg hlt
    rw [← mem_sortedFragments R, h] at hg
    rcases List.mem_append.mp hg with hg | hg
    · exact hg
    · rcases List.mem_cons.mp hg with rfl | hg
      · omega
      · have hle := hpost g hg
        omega
  · intro g hg
    exact hpre g hg f List.mem_cons_self

end Order

/-! ### The number of replacements -/

section Count

/-- The fragment is changed by its mask and the mask occurs in `t`. -/
def Occurs (t : Str) (f : Str × Str) : Prop := f.1 ≠ f.2 ∧ f.1 <:+: t

instance (t : Str) (f : Str × Str) : Decidable (Occurs t f) := inferInstanceAs (Decidable (_ ∧ _))

theorem unmaskStep_of_not_occurs {acc : Str × ℕ} {f : Str × Str} (h : ¬ Occurs acc.1 f) :
    unmaskStep acc f = acc := by
  unfold unmaskStep
  unfold Occurs at h
  rw [if_pos]
  tauto

theorem unmaskStep_of_occurs {acc : Str × ℕ} {f : Str × Str} (h : Occurs acc.1 f) :
    unmaskStep acc f = (replace f.1 f.2 acc.1, acc.2 + count f.1 acc.1) := by
  obtain ⟨hne, hin⟩ := h
  unfold unmaskStep
  rw [if_neg]
  tauto

theorem foldl_unmaskStep_mono : ∀ (fs : List (Str × Str)) (acc : Str × ℕ), acc.2 ≤ (fs.foldl unmaskStep acc).2
  | [], _ => le_rfl
  | f :: fs, acc => by
    have hstep : acc.2 ≤ (unmaskStep acc f).2 := by
      by_cases h : Occurs acc.1 f
      · rw [unmaskStep_of_occurs h]
        exact Nat.le_add_right _ _
      · rw [unmaskStep_of_not_occurs h]
    exact hstep.trans (foldl_unmaskStep_mono fs _)

/-- Until the first replacement the text is the one that came in. -/
theorem foldl_unmaskStep_eq_zero_iff (t : Str) : ∀ (fs : List (Str × Str)),
    (fs.foldl unmaskStep (t, 0)).2 = 0 ↔ ∀ f ∈ fs, ¬ Occurs t f
  | [] => by simp
  | f :: fs => by
    rw [List.foldl_cons, List.forall_mem_cons]
    by_cases h : Occurs t f
    · rw [unmaskStep_of_occurs h]
      have hpos : 0 < count f.1 t := (count_pos_iff).mpr h.2
      have hmono := foldl_unmaskStep_mono fs (replace f.1 f.2 t, 0 + count f.1 t)
      constructor
      · intro h0
        rw [h0] at hmono
        dsimp only at hmono
        omega
      · intro h0
        exact absurd h h0.1
    · rw [unmaskStep_of_not_occurs h, foldl_unmaskStep_eq_zero_iff t fs]
      exact ⟨fun h0 => ⟨h, h0⟩, fun h0 => h0.2⟩

/-- **Something is replaced** iff a changed mask occurs in the text as it came in. -/
theorem replaced_ne_zero_iff (t : Str) :
    (unmaskFragments R t fragments).2 ≠ 0 ↔ ∃ f ∈ fragments, Occurs t f := by
  unfold unmaskFragments
  rw [Ne, foldl_unmaskStep_eq_zero_iff]
  constructor
  · intro h
    push Not at h
    obtain ⟨f, hf, ho⟩ := h
    exact ⟨f, (mem_sortedFragments R fragments).mp hf, ho⟩
  · rintro ⟨f, hf, ho⟩ h
    exact h f ((mem_sortedFragments R fragments).mpr hf) ho

end Count

/-! ### The restored text -/

section Text

/-- One pass fills the slots of one fragment. -/
theorem unmaskStep_fst (acc : Str × ℕ) (f : Str × Str) :
    (unmaskStep acc f).1 = fillStep Prod.fst Prod.snd acc.1 f := by
  unfold fillStep
  by_cases h : Occurs acc.1 f
  · rw [unmaskStep_of_occurs h, if_neg h.1]
  · rw [unmaskStep_of_not_occurs h]
    split_ifs with heq
    · rfl
    · have hnot : ¬ f.1 <:+: acc.1 := fun hin => h ⟨heq, hin⟩
      have hne : f.1 ≠ [] := by
        intro hnil
        rw [hnil] at hnot
        exact hnot List.nil_infix
      exact (replace_eq_self hne f.2 hnot).symm

theorem foldl_unmaskStep_fst : ∀ (fs : List (Str × Str)) (acc : Str × ℕ),
    (fs.foldl unmaskStep acc).1 = fs.foldl (fillStep Prod.fst Prod.snd) acc.1
  | [], _ => rfl
  | f :: fs, acc => by
    rw [List.foldl_cons, List.foldl_cons, foldl_unmaskStep_fst fs, unmaskStep_fst]

/-- **The restored text**: one slot filling after another. -/
theorem unmaskFragments_fst (t : Str) :
    (unmaskFragments R t fragments).1 = (sortedFragments R fragments).foldl (fillStep Prod.fst Prod.snd) t :=
  foldl_unmaskStep_fst _ _

end Text

/-! ### The masked text as a template -/

section Pieces

/-- The text between the hulls, and a slot for every hull. -/
def maskPieces (text : Str) : ℕ → List Entity → List (Str × Str) → List (Piece (Str × Str) Char)
  | pos, e :: es, f :: fs => .plain (slice text pos e.start) :: .slot f :: maskPieces text e.stop es fs
  | pos, _, _ => [.plain (text.drop pos)]

variable {R} {K : Masker} {text : Str} {rules : PDType → Option MaskRule}

/-- One round of the loop of `mask`. -/
theorem maskFrom_cons {pos : ℕ} {e : Entity} {es : List Entity} {m : MaskResult}
    (h : Masker.maskFrom R K text rules pos (e :: es) = .ok m) :
    ∃ replacement rest, Masker.apply R K text e ((rules e.pdType).getD defaultRule) = .ok replacement ∧
      Masker.maskFrom R K text rules e.stop es = .ok rest ∧
      m = ⟨slice text pos e.start ++ replacement ++ rest.text,
        (replacement, slice text e.start e.stop) :: rest.fragments⟩ := by
  rw [Masker.maskFrom] at h
  cases ha : Masker.apply R K text e ((rules e.pdType).getD defaultRule) with
  | error exc =>
    rw [ha] at h
    cases h
  | ok replacement =>
    rw [ha] at h
    cases hrest : Masker.maskFrom R K text rules e.stop es with
    | error exc =>
      rw [hrest] at h
      cases h
    | ok rest =>
      rw [hrest] at h
      cases h
      exact ⟨replacement, rest, rfl, rfl, rfl⟩

/-- **The masked text and the text are one template**, filled with the masks and with the originals. -/
theorem render_maskPieces : ∀ {es : List Entity} {pos : ℕ} {m : MaskResult}, Chain pos es →
    Masker.maskFrom R K text rules pos es = .ok m →
      render Prod.fst (maskPieces text pos es m.fragments) = m.text ∧
        render Prod.snd (maskPieces text pos es m.fragments) = text.drop pos
  | [], pos, m, _, h => by
    cases h
    exact ⟨List.append_nil _, List.append_nil _⟩
  | e :: es, pos, m, hchain, h => by
    obtain ⟨hpos, hchain⟩ := hchain
    obtain ⟨replacement, rest, -, hrest, rfl⟩ := maskFrom_cons h
    obtain ⟨hmask, htext⟩ := render_maskPieces hchain hrest
    refine ⟨?_, ?_⟩
    · rw [maskPieces, render, render, hmask, List.append_assoc]
    · rw [maskPieces, render, render, htext]
      show slice text pos e.start ++ (slice text e.start e.stop ++ text.drop e.stop) = text.drop pos
      rw [slice_append_drop e.start_lt_stop.le, slice_append_drop hpos]

/-- What stands between the slots is from the text. -/
theorem mem_of_plain : ∀ {es : List Entity} {fs : List (Str × Str)} {pos : ℕ} {s : Str},
    .plain s ∈ maskPieces text pos es fs → ∀ c ∈ s, c ∈ text
  | e :: es, f :: fs, pos, s, h, c, hc => by
    rcases List.mem_cons.mp h with h | h
    · obtain rfl := Piece.plain.inj h
      exact mem_of_mem_slice hc
    · rcases List.mem_cons.mp h with h | h
      · cases h
      · exact mem_of_plain h c hc
  | [], _, pos, s, h, c, hc => by
    rcases List.mem_cons.mp h with h | h
    · obtain rfl := Piece.plain.inj h
      exact List.mem_of_mem_drop hc
    · cases h
  | _ :: _, [], pos, s, h, c, hc => by
    rcases List.mem_cons.mp h with h | h
    · obtain rfl := Piece.plain.inj h
      exact List.mem_of_mem_drop hc
    · cases h

/-- The slots are the fragments. -/
theorem slot_mem_iff : ∀ {es : List Entity} {pos : ℕ} {m : MaskResult} {f : Str × Str},
    Masker.maskFrom R K text rules pos es = .ok m →
      (.slot f ∈ maskPieces text pos es m.fragments ↔ f ∈ m.fragments)
  | [], pos, m, f, h => by
    cases h
    simp [maskPieces]
  | e :: es, pos, m, f, h => by
    obtain ⟨replacement, rest, -, hrest, rfl⟩ := maskFrom_cons h
    have ih := slot_mem_iff (f := f) hrest
    rw [maskPieces, List.mem_cons, List.mem_cons, ih, List.mem_cons]
    simp

/-- A fragment is the mask and the text of one of the hulls. -/
theorem fragment_spec : ∀ {es : List Entity} {pos : ℕ} {m : MaskResult} {f : Str × Str},
    Masker.maskFrom R K text rules pos es = .ok m → f ∈ m.fragments →
      ∃ e ∈ es, Masker.apply R K text e ((rules e.pdType).getD defaultRule) = .ok f.1 ∧
        f.2 = slice text e.start e.stop
  | [], pos, m, f, h, hf => by
    cases h
    cases hf
  | e :: es, pos, m, f, h, hf => by
    obtain ⟨replacement, rest, ha, hrest, rfl⟩ := maskFrom_cons h
    rcases List.mem_cons.mp hf with rfl | hf
    · exact ⟨e, List.mem_cons_self, ha, rfl⟩
    · obtain ⟨e', he', hspec⟩ := fragment_spec hrest hf
      exact ⟨e', List.mem_cons_of_mem _ he', hspec⟩

end Pieces

/-! ### Restoring every fragment at its own places -/

section OwnPlaces

/-- When the pass of a fragment comes, the search for its mask stops only at its own slots: in every text in
which the fragments with a longer mask, and perhaps some others with an equally long one, have been
restored. -/
def OwnPlaces (pieces : List (Piece (Str × Str) Char)) : Prop :=
  ∀ f ∈ fragments, f.1 ≠ f.2 → ∀ done : List (Str × Str), f ∉ done →
    (∀ g ∈ fragments, f.1.length < g.1.length → g ∈ done) → (∀ g ∈ done, f.1.length ≤ g.1.length) →
      ∀ i ∈ hits f.1 (render (partly Prod.fst Prod.snd done) pieces),
        i ∈ places (partly Prod.fst Prod.snd done) f 0 pieces

variable {fragments}

/-- **Unmasking restores every slot** if the searches stop at their own places only. -/
theorem unmask_of_ownPlaces {pieces : List (Piece (Str × Str) Char)} (hne : ∀ f ∈ fragments, f.1 ≠ [])
    (hslots : ∀ f, .slot f ∈ pieces → f ∈ fragments) (h : OwnPlaces fragments pieces) :
    (unmaskFragments R (render Prod.fst pieces) fragments).1 = render Prod.snd pieces := by
  rw [unmaskFragments_fst]
  refine foldl_fill_render (sortedFragments_nodup R fragments) ?_ ?_
  · intro f hf
    exact (mem_sortedFragments R fragments).mpr (hslots f hf)
  · intro pre f post hsplit hchanged
    have hf : f ∈ fragments := by
      rw [← mem_sortedFragments R, hsplit]
      exact List.mem_append_right _ List.mem_cons_self
    obtain ⟨hnot, hlong, hshort⟩ := sortedFragments_split R fragments hsplit
    exact ⟨hne f hf, h f hf hchanged pre hnot hlong hshort⟩

end OwnPlaces

end PdMasking
