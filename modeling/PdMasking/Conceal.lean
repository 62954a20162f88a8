import PdMasking.CharMask
import PdMasking.Detectors.FinanceContacts

/-!
# PdMasking.Conceal — what the character-hiding strategies leave in the clear

The strategies `full`, `partial` and `email` overwrite characters of the value.  `Conceals` asks that a letter or
a digit is among them, `HiddenWhenShort` that a value no longer than what the rule keeps is overwritten wholly.

* `chars_hides`: what `_chars` overwrites, for parts of any shape.
* `apply_conceals_iff`: the strategies hide something of every value, except for an address whose name has no
  letter or digit behind its first character: `email` shows that character.
-/

namespace PdMasking

variable {R : Runtime} {K : Masker} {text : Str}

/-- The mask differs from the value in a letter or a digit. -/
def Conceals (R : Runtime) (value mask : Str) : Prop :=
  ∃ (i : ℕ) (c : Char), value[i]? = some c ∧ R.isalnum c = true ∧ mask[i]? ≠ some c

/-- The strategies that hide characters. -/
def HidesCharacters (strategy : Strategy) : Prop :=
  strategy = .full ∨ strategy = .partial_ ∨ strategy = .email

/-- The name of an address: what stands before the `@`. -/
def localName (value : Str) : Str := value.takeWhile (· ≠ '@')

/-- A value with no more letters and digits than the rule keeps shows none of them: `partial` keeps them at the
two ends, `email` keeps the first character of the name. -/
def HiddenWhenShort (R : Runtime) (text : Str) (e : Entity) (rule : MaskRule) (mask : Str) : Prop :=
  (rule.strategy = .partial_ → (alnumOf R text e).length ≤ rule.keepStart + rule.keepEnd →
    ∀ i ∈ alnumOf R text e, mask[i - e.start]? ≠ text[i]?) ∧
  (rule.strategy = .email → '@' ∈ slice text e.start e.stop → (localName (slice text e.start e.stop)).length ≤ 1 →
    ∀ (i : ℕ) (c : Char), (localName (slice text e.start e.stop))[i]? = some c → R.isalnum c = true → mask[i]? ≠ some c)

/-! ### The character mask -/

section Chars

/-- The loop that overwrites: the mask character stays where it is, and comes where it should. -/
theorem hidePositions_hides {char : Char} {keepStart keepEnd n : ℕ} : ∀ {positions : List ℕ} {idx : ℕ}
    {chars out : Str}, Masker.hidePositions char keepStart keepEnd n idx positions chars = .ok out →
    (∀ p : ℕ, chars[p]? = some char → out[p]? = some char) ∧
      ∀ j p, positions[j]? = some p → ¬ (idx + j < keepStart ∨ n - keepEnd ≤ idx + j) →
        p < chars.length ∧ out[p]? = some char
  | [], idx, chars, out, h => by
    obtain rfl := Except.ok.inj h
    exact ⟨fun p hp => hp, by simp⟩
  | pos :: positions, idx, chars, out, h => by
    rw [Masker.hidePositions] at h
    split_ifs at h with hkeep hpos
    · obtain ⟨hstay, hcome⟩ := hidePositions_hides h
      refine ⟨hstay, ?_⟩
      intro j p hj hhide
      rcases j with _ | j
      · exact absurd hkeep (by simpa using hhide)
      · exact hcome j p (by simpa using hj) (by omega)
    · obtain ⟨hstay, hcome⟩ := hidePositions_hides h
      refine ⟨?_, ?_⟩
      · intro p hp
        refine hstay p ?_
        by_cases heq : pos = p
        · rw [← heq, List.getElem?_set_self hpos]
        · rw [List.getElem?_set_ne heq, hp]
      · intro j p hj hhide
        rcases j with _ | j
        · obtain rfl : pos = p := by simpa using hj
          exact ⟨hpos, hstay pos (List.getElem?_set_self hpos)⟩
        · have hnext := hcome j p (by simpa using hj) (by omega)
          rwa [List.length_set] at hnext

/-- **What `_chars` overwrites**, when it returns a mask. -/
theorem chars_hides {e : Entity} {rule : MaskRule} {mask : Str} (h : Masker.chars R text e rule = .ok mask) {j i : ℕ}
    (hj : (alnumOf R text e)[j]? = some i) (hhide : Hidden rule (alnumOf R text e).length j) :
    i < e.stop ∧ mask[i - e.start]? = some rule.char := by
  have hlen : (alnumOf R text e).length = ((alnumOf R text e).map (fun i => i - e.start)).length :=
    (List.length_map _).symm
  obtain ⟨positions, hpositions, hrun⟩ : ∃ positions,
      Masker.alnumPositions R text e.start (partPositions e) = .ok positions ∧
      Masker.hidePositions rule.char (kept rule positions.length).1 (kept rule positions.length).2 positions.length 0
        positions (slice text e.start e.stop) = .ok mask := by
    unfold Masker.chars at h
    cases hpositions : Masker.alnumPositions R text e.start
        (e.parts.flatMap (fun p => List.range' p.1 (p.2 - p.1))) with
    | error err =>
      rw [hpositions] at h
      cases h
    | ok positions =>
      rw [hpositions] at h
      exact ⟨positions, hpositions, h⟩
  obtain ⟨-, rfl⟩ := (Masker.alnumPositions_eq_ok_iff R).mp hpositions
  have hlt : j < (alnumOf R text e).length := (List.getElem?_eq_some_iff.mp hj).1
  have hj' : ((alnumOf R text e).map (fun i => i - e.start))[j]? = some (i - e.start) := by
    rw [List.getElem?_map, hj]
    rfl
  have hnot : ¬ (0 + j < (kept rule ((alnumOf R text e).map (fun i => i - e.start)).length).1 ∨
      ((alnumOf R text e).map (fun i => i - e.start)).length -
        (kept rule ((alnumOf R text e).map (fun i => i - e.start)).length).2 ≤ 0 + j) := by
    rw [Nat.zero_add, ← hlen]
    exact fun hk => (kept_iff_not_hidden hlt).mp hk hhide
  obtain ⟨hpos, hout⟩ := (hidePositions_hides hrun).2 j (i - e.start) hj' hnot
  refine ⟨?_, hout⟩
  have hslice : (slice text e.start e.stop).length ≤ e.stop - e.start := List.length_take_le _ _
  omega

/-- A letter or digit that is overwritten by a character that is neither. -/
theorem differs_of_hidden {e : Entity} {rule : MaskRule} {mask : Str} (hchar : R.isalnum rule.char = false)
    (h : Masker.chars R text e rule = .ok mask) {j i : ℕ} (hj : (alnumOf R text e)[j]? = some i)
    (hhide : Hidden rule (alnumOf R text e).length j) :
    ∃ c, (slice text e.start e.stop)[i - e.start]? = some c ∧ text[i]? = some c ∧ R.isalnum c = true ∧
      mask[i - e.start]? ≠ some c := by
  obtain ⟨⟨p, hp, hstart, -⟩, c, hc, halnum⟩ := mem_alnumOf.mp (List.mem_of_getElem? hj)
  obtain ⟨hstop, hmask⟩ := chars_hides h hj hhide
  have hpart := e.start_le_part hp
  refine ⟨c, ?_, hc, halnum, ?_⟩
  · rw [getElem?_slice (by omega), show e.start + (i - e.start) = i by omega, hc]
  · rw [hmask]
    intro heq
    rw [Option.some.inj heq] at hchar
    exact Bool.false_ne_true (hchar.symm.trans halnum)

/-- Some letter or digit is always overwritten. -/
theorem exists_hidden (rule : MaskRule) {n : ℕ} (hn : 0 < n) : ∃ j < n, Hidden rule n j := by
  unfold Hidden
  by_cases hs : rule.strategy = .partial_
  · by_cases hshort : n ≤ rule.keepStart + rule.keepEnd
    · exact ⟨0, hn, Or.inr (Or.inl hshort)⟩
    · exact ⟨rule.keepStart, by omega, Or.inr (Or.inr ⟨le_rfl, by omega⟩)⟩
  · exact ⟨0, hn, Or.inl hs⟩

/-- The character mask conceals every value with a letter or a digit. -/
theorem chars_conceals {e : Entity} {rule : MaskRule} {mask : Str} (hchar : R.isalnum rule.char = false)
    (hvalue : alnumOf R text e ≠ []) (h : Masker.chars R text e rule = .ok mask) :
    Conceals R (slice text e.start e.stop) mask := by
  obtain ⟨j, hj, hhide⟩ := exists_hidden rule (List.length_pos_iff.mpr hvalue)
  obtain ⟨c, hspan, -, halnum, hne⟩ := differs_of_hidden hchar h (List.getElem?_eq_getElem hj) hhide
  exact ⟨_, c, hspan, halnum, hne⟩

end Chars

/-! ### The mask of an address -/

section Email

/-- What `email` returns for a value with an `@`. -/
theorem email_mask {e : Entity} {rule : MaskRule} (hs : rule.strategy = .email)
    (hat : '@' ∈ slice text e.start e.stop) :
    ∃ domain, slice text e.start e.stop = localName (slice text e.start e.stop) ++ '@' :: domain ∧
      Masker.apply R K text e rule = .ok ((localName (slice text e.start e.stop)).take 1 ++
        List.replicate ((localName (slice text e.start e.stop)).length - 1) rule.char ++ '@' :: domain) := by
  refine ⟨((slice text e.start e.stop).dropWhile (· ≠ '@')).tail, ?_, ?_⟩
  · have hne : (slice text e.start e.stop).dropWhile (· ≠ '@') ≠ [] := by
      rw [Ne, List.dropWhile_eq_nil_iff]
      intro hall
      simpa using hall '@' hat
    have hhead := List.head_dropWhile_not (fun c : Char => decide (c ≠ '@')) hne
    obtain ⟨c, rest, hcons⟩ := List.exists_cons_of_ne_nil hne
    simp only [hcons, List.head_cons, decide_eq_false_iff_not, not_not] at hhead
    have hsplit := List.takeWhile_append_dropWhile (p := fun c : Char => decide (c ≠ '@'))
      (l := slice text e.start e.stop)
    rw [hcons, hhead] at hsplit
    rw [hcons, List.tail_cons]
    exact hsplit.symm
  · unfold Masker.apply
    rw [hs]
    dsimp only
    rw [if_pos hat]
    rfl

/-- Position by position: the first character of the name, mask characters, and the domain. -/
theorem getElem?_email (name domain : Str) (char : Char) (i : ℕ) :
    (name.take 1 ++ List.replicate (name.length - 1) char ++ '@' :: domain)[i]? =
      if 0 < i ∧ i < name.length then some char else (name ++ '@' :: domain)[i]? := by
  rcases name with _ | ⟨c, name⟩
  · simp
  · rcases i with _ | i
    · simp
    · by_cases hi : i < name.length
      · rw [if_pos ⟨Nat.succ_pos i, by simpa using hi⟩]
        simp [List.getElem?_append_left, hi]
      · rw [if_neg (by simpa using hi)]
        simp only [List.take_succ_cons, List.take_zero, List.length_cons, Nat.add_sub_cancel, List.cons_append,
          List.nil_append, List.getElem?_cons_succ]
        rw [List.getElem?_append_right (by simpa using hi), List.getElem?_append_right (by simpa using hi),
          List.length_replicate]

/-- The mask of an address conceals it iff its name has a letter or a digit behind the first character. -/
theorem email_conceals_iff (name domain : Str) {char : Char} (hchar : R.isalnum char = false) :
    Conceals R (name ++ '@' :: domain)
      (name.take 1 ++ List.replicate (name.length - 1) char ++ '@' :: domain) ↔
        ∃ c ∈ name.tail, R.isalnum c = true := by
  constructor
  · rintro ⟨i, c, hc, halnum, hne⟩
    rw [getElem?_email] at hne
    split_ifs at hne with hi
    · refine ⟨c, ?_, halnum⟩
      rw [List.getElem?_append_left hi.2] at hc
      refine List.mem_of_getElem? (i := i - 1) ?_
      rw [List.getElem?_tail, Nat.sub_add_cancel hi.1, hc]
    · exact absurd hc hne
  · rintro ⟨c, hc, halnum⟩
    obtain ⟨i, hi⟩ := List.mem_iff_getElem?.mp hc
    rw [List.getElem?_tail] at hi
    have hlt : i + 1 < name.length := (List.getElem?_eq_some_iff.mp hi).1
    refine ⟨i + 1, c, by rw [List.getElem?_append_left hlt, hi], halnum, ?_⟩
    rw [getElem?_email, if_pos ⟨Nat.succ_pos i, hlt⟩]
    intro heq
    rw [Option.some.inj heq] at hchar
    exact Bool.false_ne_true (hchar.symm.trans halnum)

end Email

/-! ### All strategies that hide characters -/

/-- The value is an address, and its name has no letter or digit behind the first character. -/
def ShownAddress (R : Runtime) (value : Str) (rule : MaskRule) : Prop :=
  rule.strategy = .email ∧ '@' ∈ value ∧ ∀ c ∈ (localName value).tail, R.isalnum c = false

/-- **When a value is concealed.**  A mask of the strategies `full`, `partial` and `email` with a mask character
that is neither letter nor digit differs from the value in a letter or a digit, and hides it wholly when it is
too short, exactly when the value is not an address whose name ends with its first letter or digit. -/
theorem apply_conceals_iff (R : Runtime) (K : Masker) (text : Str) (e : Entity) (rule : MaskRule) (mask : Str)
    (hstrategy : HidesCharacters rule.strategy) (hchar : R.isalnum rule.char = false)
    (hvalue : ∃ p ∈ e.parts, ∃ i c, p.1 ≤ i ∧ i < p.2 ∧ text[i]? = some c ∧ R.isalnum c = true)
    (h : Masker.apply R K text e rule = .ok mask) :
    (Conceals R (slice text e.start e.stop) mask ∧ HiddenWhenShort R text e rule mask) ↔
      ¬ ShownAddress R (slice text e.start e.stop) rule := by
  have hne : alnumOf R text e ≠ [] := by
    obtain ⟨p, hp, i, c, h1, h2, hc, halnum⟩ := hvalue
    exact List.ne_nil_of_mem (mem_alnumOf.mpr ⟨⟨p, hp, h1, h2⟩, c, hc, halnum⟩)
  by_cases haddress : rule.strategy = .email ∧ '@' ∈ slice text e.start e.stop
  · obtain ⟨hs, hat⟩ := haddress
    obtain ⟨domain, hspan, hmask⟩ := email_mask (R := R) (K := K) hs hat
    obtain rfl := Except.ok.inj (h.symm.trans hmask)
    have hiff := email_conceals_iff (localName (slice text e.start e.stop)) domain hchar
    rw [← hspan] at hiff
    have hshown : ShownAddress R (slice text e.start e.stop) rule ↔
        ¬ ∃ c ∈ (localName (slice text e.start e.stop)).tail, R.isalnum c = true := by
      unfold ShownAddress
      simp only [hs, hat, true_and, not_exists, not_and, Bool.not_eq_true]
    rw [hshown, not_not]
    constructor
    · rintro ⟨hconceals, -⟩
      exact hiff.mp hconceals
    · intro hname
      refine ⟨hiff.mpr hname, ?_, ?_⟩
      · intro hpartial
        rw [hs] at hpartial
        cases hpartial
      · -- a name of one character has nothing behind it
        intro _ _ hshort
        obtain ⟨c, hc, -⟩ := hname
        have hpos := List.length_pos_of_mem hc
        rw [List.length_tail] at hpos
        omega
  · have hcharWise : CharWise text e rule := by
      rcases hstrategy with hs | hs | hs
      · exact Or.inl hs
      · exact Or.inr (Or.inl hs)
      · exact Or.inr (Or.inr (Or.inr ⟨hs, fun hat => haddress ⟨hs, hat⟩⟩))
    rw [apply_of_charWise hcharWise] at h
    have hnot : ¬ ShownAddress R (slice text e.start e.stop) rule := fun hshown => haddress ⟨hshown.1, hshown.2.1⟩
    refine iff_of_true ⟨chars_conceals hchar hne h, ?_, ?_⟩ hnot
    · intro hpartial hshort i hi
      obtain ⟨j, hj⟩ := List.mem_iff_getElem?.mp hi
      obtain ⟨c, -, hc, -, hdiffer⟩ := differs_of_hidden hchar h hj (Or.inr (Or.inl hshort))
      rw [hc]
      exact hdiffer
    · intro hs hat
      exact absurd ⟨hs, hat⟩ haddress

/-- An address with a name of one letter. -/
def shortAddress : Entity := ⟨.email, [(0, 6)], 90, ∅, by decide, by decide, by decide⟩

theorem apply_conceals_iff_shortAddress :
    (Conceals Runtime.basic (slice "ab@c.d".toList 0 6) "a*@c.d".toList ∧
      HiddenWhenShort Runtime.basic "ab@c.d".toList shortAddress ⟨.email, 0, 0, '*'⟩ "a*@c.d".toList) ↔
      ¬ ShownAddress Runtime.basic (slice "ab@c.d".toList 0 6) ⟨.email, 0, 0, '*'⟩ :=
  apply_conceals_iff Runtime.basic sample.masker "ab@c.d".toList shortAddress ⟨.email, 0, 0, '*'⟩ "a*@c.d".toList
    (Or.inr (Or.inr rfl)) rfl ⟨(0, 6), by decide, 0, 'a', by decide, by decide, rfl, rfl⟩ rfl

/-- `email` shows `a@b.ru`, which the detector of addresses reports, as it is. -/
theorem short_name_shown :
    ¬ ∀ (R : Runtime) (K : Masker) (text : Str) (e : Entity) (rule : MaskRule) (mask : Str),
      some e ∈ (ContactDetector R).detect text → HidesCharacters rule.strategy → R.isalnum rule.char = false →
        (∃ p ∈ e.parts, ∃ i c, p.1 ≤ i ∧ i < p.2 ∧ text[i]? = some c ∧ R.isalnum c = true) →
        Masker.apply R K text e rule = .ok mask →
        Conceals R (slice text e.start e.stop) mask ∧ HiddenWhenShort R text e rule mask := by
  intro hall
  have hfound : (ContactDetector Runtime.basic).detect "a@b.ru".toList = [some shortAddress] := rfl
  have hmask : Masker.apply Runtime.basic sample.masker "a@b.ru".toList shortAddress ⟨.email, 0, 0, '*'⟩ =
      .ok "a@b.ru".toList := rfl
  obtain ⟨⟨i, c, hc, -, hne⟩, -⟩ := hall Runtime.basic sample.masker "a@b.ru".toList shortAddress
    ⟨.email, 0, 0, '*'⟩ "a@b.ru".toList (hfound ▸ List.mem_singleton_self _) (Or.inr (Or.inr rfl)) rfl
    ⟨(0, 6), by decide, 0, 'a', by decide, by decide, rfl, rfl⟩ hmask
  exact hne hc

end PdMasking
