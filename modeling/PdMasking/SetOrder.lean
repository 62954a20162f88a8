import PdMasking.Config
import PdMasking.Lib.Ties
import PdMasking.Unmask

/-!
# PdMasking.SetOrder — unmasking and the order in which the set of fragments is iterated

The passes of `unmask_fragments` are sorted by the length of the mask only; fragments with equally long masks
come in the order in which the set is iterated, which differs from process to process.

* `PassesApart`: when the passes over two equally long masks come next, the two searches stop at places of the text
  that do not overlap, and the originals neither make such a place nor cover one.
* `Contested`: two fragments share a mask that occurs in the text.
* `unmask_order`: passes that lie apart give the same result in every order of the set, a contested mask does not.
* `set_order_matters`: two addresses with one mask.
-/

namespace PdMasking

open Ties TextSearch Template

/-! ### The possible orders of the passes -/

section Orders

variable (fragments : List (Str × Str))

/-- The length of the mask. -/
def maskLength (f : Str × Str) : ℕ := f.1.length

theorem arranged_sortedFragments (R : Runtime) :
    Arranged maskLength fragments.dedup (sortedFragments R fragments) := by
  refine ⟨?_, sortedFragments_sorted R fragments⟩
  refine (List.perm_ext_iff_of_nodup (sortedFragments_nodup R fragments) (List.nodup_dedup fragments)).mpr ?_
  intro f
  rw [mem_sortedFragments, List.mem_dedup]

/-- An interpreter that iterates the set of `fragments` in the order `l`. -/
def Runtime.iterating (R : Runtime) (fragments l : List (Str × Str)) (h : l.Perm fragments.dedup) : Runtime :=
  { R with
    setIter := fun l' => if l' = fragments then l else l'.dedup
    setIter_nodup := fun l' => by
      split_ifs
      · exact h.nodup_iff.mpr (List.nodup_dedup fragments)
      · exact List.nodup_dedup l'
    mem_setIter := fun l' f => by
      split_ifs with heq
      · rw [heq, h.mem_iff, List.mem_dedup]
      · exact List.mem_dedup }

/-- Every arrangement of the fragments is the order of the passes in some process. -/
theorem exists_sortedFragments_eq {l : List (Str × Str)} (h : Arranged maskLength fragments.dedup l) :
    ∃ R : Runtime, sortedFragments R fragments = l := by
  refine ⟨Runtime.basic.iterating fragments l h.1, ?_⟩
  have hiter : (Runtime.basic.iterating fragments l h.1).setIter fragments = l := if_pos rfl
  unfold sortedFragments
  rw [hiter]
  exact List.Pairwise.insertionSort_eq h.2

end Orders

/-! ### Two passes that lie apart -/

section Pair

variable {f g : Str × Str}

/-- One pass over a template in which the mask is met at the slots of the fragment only. -/
theorem unmaskStep_render {v : Str × Str → Str} {ps : List (Piece (Str × Str) Char)} {n : ℕ} (hv : v f = f.1)
    (hne : f.1 ≠ []) (hchanged : f.1 ≠ f.2) (hown : ∀ i ∈ hits f.1 (render v ps), i ∈ places v f 0 ps) :
    unmaskStep (render v ps, n) f = (render (Function.update v f f.2) ps, n + (places v f 0 ps).length) := by
  rw [← hv] at hne hown
  have hhits := hits_eq_places hne hown
  have hreplace := replace_render hne f.2 hown
  by_cases hin : f.1 <:+: render v ps
  · have hcount : count f.1 (render v ps) = (places v f 0 ps).length := by
      rw [← hv, count, if_neg hne, hhits]
    rw [unmaskStep_of_occurs ⟨hchanged, hin⟩]
    dsimp only
    rw [hcount, ← hv, hreplace]
  · rw [← hv] at hin
    rw [(hits_nil_iff hne).mpr hin] at hhits
    rw [replace_eq_self hne f.2 hin] at hreplace
    rw [unmaskStep_of_not_occurs (fun ho => hin (by rw [hv]; exact ho.2)), ← hreplace, ← hhits]
    rfl

/-- Both passes fill the slots of the one text, whichever comes first. -/
theorem unmaskStep_unmaskStep {t : Str} {n : ℕ} (hfg : f ≠ g) (hf : f.1 ≠ f.2) (hg : g.1 ≠ g.2)
    (h : Apart Prod.fst Prod.snd f g t) :
    unmaskStep (unmaskStep (t, n) f) g =
      (render (Function.update (Function.update Prod.fst f f.2) g g.2) (cut Prod.fst f g t),
        n + (places Prod.fst f 0 (cut Prod.fst f g t)).length +
          (places Prod.fst g 0 (cut Prod.fst f g t)).length) ∧
    unmaskStep (unmaskStep (t, n) g) f =
      (render (Function.update (Function.update Prod.fst g g.2) f f.2) (cut Prod.fst f g t),
        n + (places Prod.fst g 0 (cut Prod.fst f g t)).length +
          (places Prod.fst f 0 (cut Prod.fst f g t)).length) := by
  obtain ⟨hrender, hown, hown'⟩ := hits_cut h.ne h.ne' t h.stops
  have hinserted := h.inserted
  have hinserted' := h.inserted'
  generalize cut Prod.fst f g t = ps at *
  rw [← hrender] at hown hown' ⊢
  rw [unmaskStep_render rfl h.ne hf hown, unmaskStep_render rfl h.ne' hg hown']
  have hleft : Function.update Prod.fst f f.2 g = g.1 := Function.update_of_ne hfg.symm _ _
  have hright : Function.update Prod.fst g g.2 f = f.1 := Function.update_of_ne hfg _ _
  rw [unmaskStep_render hleft h.ne' hg hinserted', unmaskStep_render hright h.ne hf hinserted]
  rw [length_places (Function.update Prod.fst f f.2) Prod.fst g ps 0 0,
    length_places (Function.update Prod.fst g g.2) Prod.fst f ps 0 0]
  exact ⟨rfl, rfl⟩

/-- **Passes that lie apart commute**, in the text and in the count. -/
theorem unmaskStep_comm {t : Str} {n : ℕ} (hfg : f ≠ g) (hf : f.1 ≠ f.2) (hg : g.1 ≠ g.2)
    (h : Apart Prod.fst Prod.snd f g t) :
    unmaskStep (unmaskStep (t, n) f) g = unmaskStep (unmaskStep (t, n) g) f := by
  obtain ⟨hleft, hright⟩ := unmaskStep_unmaskStep (n := n) hfg hf hg h
  rw [hleft, hright, Function.update_comm hfg, Nat.add_right_comm]

/-- A fragment that its mask leaves as it is has no pass. -/
theorem unmaskStep_of_unchanged {acc : Str × ℕ} (h : f.1 = f.2) : unmaskStep acc f = acc :=
  unmaskStep_of_not_occurs (fun ho => ho.1 h)

end Pair

/-! ### The order of the set -/

section Passes

/-- Whenever the passes over two equally long masks come next, one of them changes nothing or they lie apart in the
text as it is then. -/
def PassesApart (payload : Str) (fragments : List (Str × Str)) : Prop :=
  ∀ (R : Runtime) pre f g post, sortedFragments R fragments = pre ++ f :: g :: post → f.1.length = g.1.length →
    f.1 = f.2 ∨ g.1 = g.2 ∨ Apart Prod.fst Prod.snd f g (pre.foldl unmaskStep (payload, 0)).1

/-- Two fragments want one mask: it stands in the text, neither original brings it back, and the passes that are
left find nothing to replace. -/
structure Contested (t : Str) (f g : Str × Str) (post : List (Str × Str)) : Prop where
  mask : f.1 = g.1
  occurs : Occurs t f
  occurs' : Occurs t g
  gone : ¬ f.1 <:+: replace f.1 f.2 t
  gone' : ¬ g.1 <:+: replace g.1 g.2 t
  rest : ∀ h ∈ post, ¬ Occurs (replace f.1 f.2 t) h ∧ ¬ Occurs (replace g.1 g.2 t) h

variable (payload : Str) (fragments : List (Str × Str))

variable {payload fragments} in
theorem tiesCommute_of_apart (h : PassesApart payload fragments) :
    TiesCommute maskLength unmaskStep (payload, 0) fragments.dedup := by
  intro pre f g post harr hkey
  obtain ⟨R, hR⟩ := exists_sortedFragments_eq fragments harr
  have hne : f ≠ g := by
    have hnd := sortedFragments_nodup R fragments
    rw [hR, List.nodup_append, List.nodup_cons] at hnd
    rintro rfl
    exact hnd.2.1.1 List.mem_cons_self
  by_cases hf : f.1 = f.2
  · rw [unmaskStep_of_unchanged hf, unmaskStep_of_unchanged hf]
  by_cases hg : g.1 = g.2
  · rw [unmaskStep_of_unchanged hg, unmaskStep_of_unchanged hg]
  rcases h R pre f g post hR hkey with hsame | hsame | hapart
  · exact absurd hsame hf
  · exact absurd hsame hg
  · exact unmaskStep_comm hne hf hg hapart

/-- Masks that are not met change nothing. -/
theorem foldl_unmaskStep_of_not_occurs {t : Str} {n : ℕ} : ∀ {fs : List (Str × Str)}, (∀ f ∈ fs, ¬ Occurs t f) →
    fs.foldl unmaskStep (t, n) = (t, n)
  | [], _ => rfl
  | f :: fs, h => by
    rw [List.forall_mem_cons] at h
    rw [List.foldl_cons, unmaskStep_of_not_occurs h.1]
    exact foldl_unmaskStep_of_not_occurs h.2

/-- The fragment that comes first gets every place of a contested mask. -/
theorem foldl_contested {t : Str} {n : ℕ} {f g : Str × Str} {post : List (Str × Str)} (hmask : f.1 = g.1)
    (hoccurs : Occurs t f) (hgone : ¬ f.1 <:+: replace f.1 f.2 t)
    (hrest : ∀ h ∈ post, ¬ Occurs (replace f.1 f.2 t) h) :
    ((f :: g :: post).foldl unmaskStep (t, n)).1 = replace f.1 f.2 t := by
  have hfirst : unmaskStep (t, n) f = (replace f.1 f.2 t, n + count f.1 t) := unmaskStep_of_occurs hoccurs
  have hsecond : ¬ Occurs (replace f.1 f.2 t) g := by
    rintro ⟨-, hin⟩
    rw [← hmask] at hin
    exact hgone hin
  rw [List.foldl_cons, List.foldl_cons, hfirst, unmaskStep_of_not_occurs hsecond,
    foldl_unmaskStep_of_not_occurs hrest]

/-- **When the order of the set does not matter.**  If passes over equally long masks lie apart in the text that they
come to, every process restores the same text with the same count.  If two fragments contest a mask, two processes
restore different texts. -/
theorem unmask_order :
    (PassesApart payload fragments → ∀ R R' : Runtime,
      unmaskFragments R payload fragments = unmaskFragments R' payload fragments) ∧
    ∀ (R : Runtime) pre f g post, sortedFragments R fragments = pre ++ f :: g :: post →
      Contested (pre.foldl unmaskStep (payload, 0)).1 f g post →
        ∃ R' : Runtime, (unmaskFragments R' payload fragments).1 ≠ (unmaskFragments R payload fragments).1 := by
  refine ⟨?_, ?_⟩
  · intro h R R'
    exact foldl_arranged_eq (tiesCommute_of_apart h) (arranged_sortedFragments fragments R)
      (arranged_sortedFragments fragments R')
  · intro R pre f g post hR h
    have harr := arranged_sortedFragments fragments R
    have hnd := sortedFragments_nodup R fragments
    rw [hR] at harr hnd
    obtain ⟨R', hR'⟩ := exists_sortedFragments_eq fragments (harr.swap (congrArg List.length h.mask))
    refine ⟨R', ?_⟩
    intro heq
    unfold unmaskFragments at heq
    rw [hR, hR', List.foldl_append, List.foldl_append] at heq
    rw [foldl_contested h.mask h.occurs h.gone (fun h' hh' => (h.rest h' hh').1),
      foldl_contested h.mask.symm h.occurs' h.gone' (fun h' hh' => (h.rest h' hh').2), ← h.mask] at heq
    -- both processes put the same text in place of the mask
    have hne : f.1 ≠ [] := fun hnil => h.gone (by rw [hnil]; exact List.nil_infix)
    have horiginal : g.2 = f.2 := replace_inj hne h.occurs.2 heq
    rw [List.nodup_append, List.nodup_cons] at hnd
    exact hnd.2.1.1 (by rw [Prod.ext h.mask horiginal.symm]; exact List.mem_cons_self)

variable {payload} in
/-- Two fragments are treated one way or the other. -/
theorem passesApart_pair {f g : Str × Str} (h : Apart Prod.fst Prod.snd f g payload)
    (h' : Apart Prod.fst Prod.snd g f payload) : PassesApart payload [f, g] := by
  intro R pre x y post hR _
  have hlen := (arranged_sortedFragments [f, g] R).1.length_eq
  have hnd := sortedFragments_nodup R [f, g]
  have hmem : ∀ z ∈ pre ++ x :: y :: post, z = f ∨ z = g := by
    intro z hz
    rw [← hR, mem_sortedFragments] at hz
    simpa using hz
  have hdedup : [f, g].dedup.length ≤ 2 := (List.dedup_sublist [f, g]).length_le
  rw [← hlen, hR, List.length_append, List.length_cons, List.length_cons] at hdedup
  obtain rfl : pre = [] := List.eq_nil_of_length_eq_zero (by omega)
  have hne : x ≠ y := by
    rw [hR, List.nil_append, List.nodup_cons] at hnd
    rintro rfl
    exact hnd.1 List.mem_cons_self
  refine Or.inr (Or.inr ?_)
  rcases hmem x (by simp) with rfl | rfl <;> rcases hmem y (by simp) with rfl | rfl
  · exact absurd rfl hne
  · exact h
  · exact h'
  · exact absurd rfl hne

/-- Two tokens of one length. -/
def tokenFragments : List (Str × Str) :=
  [("[FIO_a1b2c3]".toList, "Иван".toList), ("[INN_d4e5f6]".toList, "7707083893".toList)]

/-- The fragments of two addresses with one mask. -/
def addressFragments : List (Str × Str) :=
  [("*@*.**".toList, "a@b.ru".toList), ("*@*.**".toList, "c@d.ru".toList)]

theorem reverse_addressFragments : addressFragments.reverse.Perm addressFragments.dedup := by decide

theorem unmask_order_tokens :
    (∀ R R' : Runtime, unmaskFragments R "[INN_d4e5f6]: [FIO_a1b2c3]".toList tokenFragments =
      unmaskFragments R' "[INN_d4e5f6]: [FIO_a1b2c3]".toList tokenFragments) ∧
    ∃ R' : Runtime, (unmaskFragments R' "*@*.**".toList addressFragments).1 ≠
      (unmaskFragments Runtime.basic "*@*.**".toList addressFragments).1 :=
  ⟨(unmask_order _ tokenFragments).1 (passesApart_pair (by decide) (by decide)),
    (unmask_order _ addressFragments).2 Runtime.basic [] _ _ [] rfl
      ⟨rfl, by decide, by decide, by decide, by decide, nofun⟩⟩

/-- The process that iterates the second address first restores the other address. -/
theorem set_order_matters :
    ¬ ∀ (R R' : Runtime) (K : Masker) (text : Str) (entities : List Entity) (rules : PDType → Option MaskRule)
      (m : MaskResult) (payload : Str), K.mask R text entities rules = .ok m →
        unmaskFragments R payload m.fragments = unmaskFragments R' payload m.fragments := by
  intro h
  have hmask : sampleMasker.mask Runtime.basic "a@b.ru c@d.ru".toList
      (sample.engine.detect Runtime.basic "a@b.ru c@d.ru".toList ALL_PD_TYPES (fun _ => none)) baseRules =
        .ok ⟨"*@*.** *@*.**".toList, addressFragments⟩ := rfl
  have hsame := h Runtime.basic (Runtime.basic.iterating addressFragments _ reverse_addressFragments) sampleMasker
    _ _ _ _ "*@*.**".toList hmask
  exact absurd hsame (by decide)

end Passes

end PdMasking
