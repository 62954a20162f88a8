import PdMasking.ChatProxy
import PdMasking.Lib.Summary
import PdMasking.Re

/-!
# PdMasking.TokenText — what cannot stand inside a token

A token is `[`, the name of a type, `_`, six hexadecimal digits, `]`.  A `Demand` says what a word without
brackets contains; an alien demand is met by no part of a token:

* a character that no token contains, or more than six decimal digits, or
* a decimal digit and a letter behind `f` without a `_`, or letters that no name of a type has together.

`tokenSummary` computes the demands of the matches of a pattern from its source text, and `TokenAt.apart` says that an
alien segment and a token have no character in common.
-/

namespace PdMasking

open Summary

/-! ### Demands -/

/-- A character that may stand between the brackets of a token. -/
def tokenChar (c : Char) : Bool := c.isAlphanum || c == '_'

/-- What is known of a word without brackets. -/
structure Demand where
  /-- It has a character. -/
  nonempty : Bool
  /-- It has a character that no token has. -/
  foreign : Bool
  /-- It has so many decimal digits. -/
  digits : ℕ
  /-- It may have a `_`. -/
  under : Bool
  /-- It has these letters, in upper or lower case. -/
  letters : List Char
  deriving DecidableEq

structure Demand.Holds (R : Runtime) (d : Demand) (w : Str) : Prop where
  closed : '[' ∉ w ∧ ']' ∉ w
  nonempty : d.nonempty = true → w ≠ []
  foreign : d.foreign = true → ∃ c ∈ w, tokenChar c = false
  digits : d.digits ≤ w.countP R.isdecimal
  under : d.under = false → '_' ∉ w
  letters : ∀ l ∈ d.letters, ∃ c ∈ w, tokenChar c = true → lowerBasic c = l

def typeNames : List Str :=
  [PDType.fio, .birthDate, .birthPlace, .passport, .citizenship, .passportIssuer, .departmentCode,
    .passportIssueDate, .driverLicense, .address, .email, .phone, .inn, .cardNumber, .cardCvv, .cardPin,
    .cardHolder, .cardExpiry, .date, .snils, .foreignPassport, .militaryId, .birthCertificate].map PDType.value

/-- A letter that is no hexadecimal digit. -/
def beyondHex (l : Char) : Bool := 'g' ≤ l && l ≤ 'z'

/-- No part of a token is as the demand says. -/
def Demand.alien (d : Demand) : Bool :=
  d.foreign || 7 ≤ d.digits || (!d.under && d.letters.any beyondHex && 1 ≤ d.digits) ||
    typeNames.all (fun name => d.letters.any (fun l => beyondHex l && l ∉ name))

/-! ### The demands of a character class -/

/-- The item matches no character of a token. -/
def Item.alien : Item → Bool
  | range a b =>
    b < '0' || ('9' < a && b < 'A') || ('А' ≤ a && b ≤ 'я') ||
      (a == b && (isRussian a || isMark a || (isCaseless a && !tokenChar a)))
  | space => true
  | digit | word => false

def Item.isDigit : Item → Bool
  | range a b => '0' ≤ a && b ≤ '9'
  | digit => true
  | word | space => false

/-- The item may match the character `c`, which has no case. -/
def Item.has (c : Char) : Item → Bool
  | range a b => a ≤ c && c ≤ b
  | word => c == '_'
  | digit | space => false

/-- The letter that is the only member of a class. -/
def CharSet.letter (s : CharSet) : List Char :=
  match s.items with
  | [.range a b] => if a = b ∧ a.isAlpha then [lowerBasic a] else []
  | _ => []

/-- A class that may match a bracket is open. -/
def CharSet.isOpen (s : CharSet) : Bool :=
  s.negated || s.items.any (Item.has '[') || s.items.any (Item.has ']')

def CharSet.demand (s : CharSet) : Demand where
  nonempty := true
  foreign := s.items.all Item.alien
  digits := if s.items.all Item.isDigit then 1 else 0
  under := s.items.any (Item.has '_')
  letters := s.letter

/-- What words of the matches of a pattern contain. -/
def tokenSummary : Summary CharSet Demand where
  ofSet s := if s.isOpen then none else some s.demand
  zero := ⟨false, false, 0, false, []⟩
  add d e :=
    { nonempty := d.nonempty || e.nonempty
      foreign := d.foreign || e.foreign
      digits := min 7 (d.digits + e.digits)
      under := d.under || e.under
      letters := d.letters ∪ e.letters }
  meet d e :=
    { nonempty := d.nonempty && e.nonempty
      foreign := d.foreign && e.foreign
      digits := min d.digits e.digits
      under := d.under || e.under
      letters := d.letters.filter (· ∈ e.letters) }
  many d := ⟨false, false, 0, d.under, []⟩

section Classes

variable {R : Runtime} {item : Item} {fold : Bool} {c : Char}

theorem code_of_tokenChar (h : tokenChar c = true) : (48 ≤ c.toNat ∧ c.toNat ≤ 57) ∨
    (65 ≤ c.toNat ∧ c.toNat ≤ 90) ∨ c.toNat = 95 ∨ (97 ≤ c.toNat ∧ c.toNat ≤ 122) := by
  rw [tokenChar, Bool.or_eq_true, isAlphanum_iff, beq_iff_eq] at h
  rcases h with ((h | h) | h) | rfl
  · exact Or.inr (Or.inl h)
  · exact Or.inr (Or.inr (Or.inr h))
  · exact Or.inl h
  · exact Or.inr (Or.inr (Or.inl rfl))

/-- A character that an item may name for `c`: `c` or one like it in another case. -/
def Like (R : Runtime) (d c : Char) : Prop := d = c ∨ R.ignoreCase d c = true

theorem like_caseless {d : Char} (h : Like R d c) (hc : isCaseless d ∨ isCaseless c) : d = c := by
  rcases h with h | h
  · exact h
  · rwa [R.ignoreCase_caseless d c hc, beq_iff_eq] at h

/-- Neither a Russian letter nor a mark is like a character of a token. -/
theorem not_like_tokenChar {d : Char} (hd : isRussian d ∨ isMark d) (h : Like R d c) : tokenChar c = false := by
  rw [← Bool.not_eq_true]
  intro hc
  have hcode := code_of_tokenChar hc
  rcases hd with hd | hd
  · have hdcode := code_of_isRussian hd
    rcases h with rfl | h
    · omega
    · rw [R.ignoreCase_basic d c (Or.inr hd) (Or.inl (by omega)), beq_iff_eq] at h
      have hlower := congrArg Char.toNat h
      rw [toNat_lowerBasic, toNat_lowerBasic] at hlower
      split_ifs at hlower <;> omega
  · have hdc : d = c := by
      rcases h with h | h
      · exact h
      · rwa [R.ignoreCase_mark d c hd, beq_iff_eq] at h
    subst hdc
    have hmark : d.toNat ∈ [171, 187, 8220, 8221, 8222, 8217, 8211, 8212, 8230, 8470] := code_of_isMark hd
    simp only [List.mem_cons, List.not_mem_nil, or_false] at hmark
    omega

theorem mem_charsBetween {a b d : Char} (h : d ∈ charsBetween a b) :
    (d = '\x00' ∧ 0xd800 ≤ b.toNat) ∨ (a ≤ d ∧ d ≤ b) := by
  obtain ⟨n, hn, rfl⟩ := List.mem_map.mp h
  obtain ⟨h1, h2⟩ := List.mem_range'_1.mp hn
  by_cases hv : n.isValidChar
  · have hval : (Char.ofNat n).toNat = n := by
      unfold Char.ofNat
      rw [dif_pos hv]
      rfl
    refine Or.inr ⟨?_, ?_⟩
    · show a.toNat ≤ (Char.ofNat n).toNat
      omega
    · show (Char.ofNat n).toNat ≤ b.toNat
      omega
  · have hn' : 0xd800 ≤ n := by
      by_contra hlt
      exact hv (Or.inl (by omega))
    have hzero : Char.ofNat n = '\x00' := by
      unfold Char.ofNat
      rw [dif_neg hv]
      rfl
    exact Or.inl ⟨hzero, by omega⟩

/-- A range matches what is like a character in it. -/
theorem like_of_test_range {a b : Char} (h : Item.test R fold (.range a b) c = true)
    (hc : c ≠ '\x00' ∨ b.toNat < 0xd800) : ∃ d, a ≤ d ∧ d ≤ b ∧ Like R d c := by
  simp only [Item.test, Bool.or_eq_true, Bool.and_eq_true, decide_eq_true_eq, List.any_eq_true] at h
  rcases h with ⟨h1, h2⟩ | ⟨-, d, hd, hlike⟩
  · exact ⟨c, h1, h2, Or.inl rfl⟩
  · rcases mem_charsBetween hd with ⟨rfl, hb⟩ | ⟨h1, h2⟩
    · have hzero : c = '\x00' := (like_caseless (Or.inr hlike) (Or.inl (by decide))).symm
      rcases hc with hc | hc
      · exact absurd hzero hc
      · omega
    · exact ⟨d, h1, h2, Or.inr hlike⟩

theorem isCaseless_of_code (h : c.toNat < 128) (h' : ¬ (65 ≤ c.toNat ∧ c.toNat ≤ 90))
    (h'' : ¬ (97 ≤ c.toNat ∧ c.toNat ≤ 122)) : isCaseless c := by
  have halpha : c.isAlpha = false := by
    rw [← Bool.not_eq_true, isAlpha_iff]
    exact not_or.mpr ⟨h', h''⟩
  simp only [isCaseless, halpha, h, decide_true, Bool.not_false, Bool.and_self]

/-- **An alien item matches no character of a token.** -/
theorem tokenChar_of_alien (h : item.alien = true) (ht : item.test R fold c = true) : tokenChar c = false := by
  rw [← Bool.not_eq_true]
  intro hc
  have hcode := code_of_tokenChar hc
  cases item with
  | digit => cases h
  | word => cases h
  | space =>
    have hspace : spaceAscii c = true := (R.isspace_ascii c (by omega)).symm.trans ht
    simp only [spaceAscii, Bool.or_eq_true, Bool.and_eq_true, decide_eq_true_eq] at hspace
    omega
  | range a b =>
    have hne : c ≠ '\x00' := by
      rintro rfl
      exact absurd hc (by decide)
    obtain ⟨d, hda, hdb, hlike⟩ := like_of_test_range ht (Or.inl hne)
    have hda' : a.toNat ≤ d.toNat := hda
    have hdb' : d.toNat ≤ b.toNat := hdb
    -- a character below the letters is the matched one itself
    have hlow : d.toNat < 65 → d = c := fun hd =>
      like_caseless hlike (Or.inl (isCaseless_of_code (by omega) (by omega) (by omega)))
    simp only [Item.alien, Bool.or_eq_true, Bool.and_eq_true, decide_eq_true_eq, beq_iff_eq,
      Bool.not_eq_true'] at h
    rcases h with ((h | ⟨h1, h2⟩) | ⟨h1, h2⟩) | ⟨rfl, h⟩
    · have h' : b.toNat < 48 := h
      have hdc := hlow (by omega)
      subst hdc
      omega
    · have h1' : 57 < a.toNat := h1
      have h2' : b.toNat < 65 := h2
      have hdc := hlow (by omega)
      subst hdc
      omega
    · have hrussian : isRussian d = true := by
        have h1' : ('А' : Char).toNat ≤ a.toNat := h1
        have h2' : b.toNat ≤ ('я' : Char).toNat := h2
        have hd1 : 'А' ≤ d := show ('А' : Char).toNat ≤ d.toNat by omega
        have hd2 : d ≤ 'я' := show d.toNat ≤ ('я' : Char).toNat by omega
        simp only [isRussian, Bool.or_eq_true, Bool.and_eq_true, decide_eq_true_eq]
        exact Or.inl (Or.inl ⟨hd1, hd2⟩)
      exact Bool.false_ne_true ((not_like_tokenChar (Or.inl hrussian) hlike).symm.trans hc)
    · have heq : d = a := Char.toNat_inj.mp (by omega)
      subst heq
      rcases h with (h | h) | ⟨h, htoken⟩
      · exact Bool.false_ne_true ((not_like_tokenChar (Or.inl h) hlike).symm.trans hc)
      · exact Bool.false_ne_true ((not_like_tokenChar (Or.inr h) hlike).symm.trans hc)
      · have hdc := like_caseless hlike (Or.inl h)
        subst hdc
        exact Bool.false_ne_true (htoken.symm.trans hc)

theorem isdecimal_of_isDigit (h : item.isDigit = true) (ht : item.test R fold c = true) :
    R.isdecimal c = true := by
  cases item with
  | word => cases h
  | space => cases h
  | digit => exact ht
  | range a b =>
    obtain ⟨h1, h2⟩ := Bool.and_eq_true_iff.mp h
    have h1' : 48 ≤ a.toNat := of_decide_eq_true h1
    have h2' : b.toNat ≤ 57 := of_decide_eq_true h2
    obtain ⟨d, hda, hdb, hlike⟩ := like_of_test_range ht (Or.inr (by omega))
    have hda' : a.toNat ≤ d.toNat := hda
    have hdb' : d.toNat ≤ b.toNat := hdb
    have hdc := like_caseless hlike (Or.inl (isCaseless_of_code (by omega) (by omega) (by omega)))
    subst hdc
    rw [R.isdecimal_ascii d (by omega), isDigit_iff]
    exact ⟨by omega, by omega⟩

/-- An item that does not have a bracket or `_` does not match it. -/
theorem has_of_test (hc : c ∈ ['[', ']', '_']) (ht : item.test R fold c = true) : item.has c = true := by
  have hcaseless : isCaseless c ∧ c.isAlphanum = false ∧ spaceAscii c = false ∧ c ≠ '\x00' := by
    simp only [List.mem_cons, List.not_mem_nil, or_false] at hc
    rcases hc with rfl | rfl | rfl <;> decide
  obtain ⟨hcaseless, halnum, hspace, hzero⟩ := hcaseless
  have hlt := (code_of_isCaseless hcaseless).1
  cases item with
  | digit =>
    have hdigit : c.isDigit = true := (R.isdecimal_ascii c hlt).symm.trans ht
    rw [Char.isAlphanum, hdigit, Bool.or_true] at halnum
    cases halnum
  | word =>
    have hword : (R.isalnum c || c == '_') = true := ht
    rwa [R.isalnum_ascii hlt, halnum, Bool.false_or] at hword
  | space => exact absurd (hspace.symm.trans ((R.isspace_ascii c hlt).symm.trans ht)) Bool.false_ne_true
  | range a b =>
    obtain ⟨d, hda, hdb, hlike⟩ := like_of_test_range ht (Or.inl hzero)
    have hdc := like_caseless hlike (Or.inr hcaseless)
    subst hdc
    exact Bool.and_eq_true_iff.mpr ⟨decide_eq_true hda, decide_eq_true hdb⟩

/-- The letter of a class is what the class matches inside a token. -/
theorem lower_of_letter {s : CharSet} (hn : s.negated = false) (ht : s.test R c = true) {l : Char}
    (hl : l ∈ s.letter) (hc : tokenChar c = true) : lowerBasic c = l := by
  unfold CharSet.letter at hl
  split at hl
  case h_2 => exact absurd hl List.not_mem_nil
  case h_1 a b hitems =>
    split_ifs at hl with hab
    · obtain ⟨rfl, halpha⟩ := hab
      obtain rfl := List.mem_singleton.mp hl
      have hitem : Item.test R s.fold (.range a a) c = true := by
        simpa only [CharSet.test, hn, hitems, List.any_cons, List.any_nil, Bool.or_false, Bool.bne_false] using ht
      have hcode := code_of_tokenChar hc
      have hne : c ≠ '\x00' := by
        rintro rfl
        exact absurd hc (by decide)
      obtain ⟨d, hda, hdb, hlike⟩ := like_of_test_range hitem (Or.inl hne)
      have hd : d = a := by
        have h1 : a.toNat ≤ d.toNat := hda
        have h2 : d.toNat ≤ a.toNat := hdb
        exact Char.toNat_inj.mp (by omega)
      subst hd
      have hlt : d.toNat < 128 := by
        have htoken := code_of_tokenChar (c := d) (by rw [tokenChar, Char.isAlphanum, halpha]; rfl)
        omega
      rcases hlike with rfl | hlike
      · rfl
      · rw [R.ignoreCase_basic d c (Or.inl hlt) (Or.inl (by omega)), beq_iff_eq] at hlike
        exact hlike.symm
    · exact absurd hl List.not_mem_nil

end Classes

section Sound

variable {R : Runtime} {d e : Demand} {u v w : Str}

theorem holds_demand {s : CharSet} {c : Char} (hopen : s.isOpen = false) (ht : s.test R c = true) :
    s.demand.Holds R [c] := by
  simp only [CharSet.isOpen, Bool.or_eq_false_iff, List.any_eq_false, Bool.not_eq_true] at hopen
  obtain ⟨⟨hn, hleft⟩, hright⟩ := hopen
  obtain ⟨item, hitem, htest⟩ : ∃ item ∈ s.items, item.test R s.fold c = true := by
    simpa only [CharSet.test, hn, Bool.bne_false, List.any_eq_true] using ht
  refine ⟨⟨?_, ?_⟩, fun _ => List.cons_ne_nil c [], fun hf => ?_, ?_, fun hu => ?_, fun l hl => ?_⟩
  · rw [List.mem_singleton]
    rintro rfl
    exact absurd (has_of_test (by decide) htest) (Bool.eq_false_iff.mp (hleft item hitem))
  · rw [List.mem_singleton]
    rintro rfl
    exact absurd (has_of_test (by decide) htest) (Bool.eq_false_iff.mp (hright item hitem))
  · exact ⟨c, List.mem_singleton_self c, tokenChar_of_alien (List.all_eq_true.mp hf item hitem) htest⟩
  · show (if s.items.all Item.isDigit then 1 else 0) ≤ _
    split_ifs with hdigit
    · have hdec := isdecimal_of_isDigit (List.all_eq_true.mp hdigit item hitem) htest
      rw [List.countP_singleton, if_pos hdec]
    · exact Nat.zero_le _
  · rw [List.mem_singleton]
    rintro rfl
    exact List.any_eq_false.mp hu item hitem (has_of_test (by decide) htest)
  · exact ⟨c, List.mem_singleton_self c, lower_of_letter hn ht hl⟩

theorem Demand.Holds.add (hu : d.Holds R u) (hv : e.Holds R v) : (tokenSummary.add d e).Holds R (u ++ v) := by
  refine ⟨⟨?_, ?_⟩, fun hne => ?_, fun hf => ?_, ?_, fun hund => ?_, fun l hl => ?_⟩
  · rw [List.mem_append]
    exact not_or_intro hu.closed.1 hv.closed.1
  · rw [List.mem_append]
    exact not_or_intro hu.closed.2 hv.closed.2
  · rcases Bool.or_eq_true_iff.mp hne with hne | hne
    · exact List.append_ne_nil_of_left_ne_nil (hu.nonempty hne) v
    · exact List.append_ne_nil_of_right_ne_nil u (hv.nonempty hne)
  · rcases Bool.or_eq_true_iff.mp hf with hf | hf
    · obtain ⟨c, hc, hct⟩ := hu.foreign hf
      exact ⟨c, List.mem_append_left v hc, hct⟩
    · obtain ⟨c, hc, hct⟩ := hv.foreign hf
      exact ⟨c, List.mem_append_right u hc, hct⟩
  · rw [List.countP_append]
    exact (min_le_right _ _).trans (Nat.add_le_add hu.digits hv.digits)
  · obtain ⟨hdu, heu⟩ := Bool.or_eq_false_iff.mp hund
    rw [List.mem_append]
    exact not_or_intro (hu.under hdu) (hv.under heu)
  · rcases List.mem_union_iff.mp hl with hl | hl
    · obtain ⟨c, hc, hct⟩ := hu.letters l hl
      exact ⟨c, List.mem_append_left v hc, hct⟩
    · obtain ⟨c, hc, hct⟩ := hv.letters l hl
      exact ⟨c, List.mem_append_right u hc, hct⟩

/-- A weaker demand holds too. -/
theorem Demand.Holds.weaken (h : d.Holds R w) (hne : e.nonempty = true → d.nonempty = true)
    (hf : e.foreign = true → d.foreign = true) (hd : e.digits ≤ d.digits)
    (hu : e.under = false → d.under = false) (hl : ∀ l ∈ e.letters, l ∈ d.letters) : e.Holds R w :=
  ⟨h.closed, fun hene => h.nonempty (hne hene), fun hef => h.foreign (hf hef), hd.trans h.digits,
    fun heu => h.under (hu heu), fun l hel => h.letters l (hl l hel)⟩

theorem Demand.Holds.nil (under : Bool) : (⟨false, false, 0, under, []⟩ : Demand).Holds R [] :=
  ⟨⟨List.not_mem_nil, List.not_mem_nil⟩, nofun, nofun, le_rfl, fun _ => List.not_mem_nil, nofun⟩

theorem tokenSummary_sound (R : Runtime) : tokenSummary.Sound (CharSet.test R) (Demand.Holds R) where
  set {s d c} h ht := by
    have h' : (if s.isOpen then none else some s.demand) = some d := h
    split_ifs at h' with hopen
    rw [← Option.some.inj h']
    exact holds_demand (Bool.eq_false_iff.mpr hopen) ht
  zero := Demand.Holds.nil false
  add hu hv := hu.add hv
  meet_left h := h.weaken (fun hne => (Bool.and_eq_true_iff.mp hne).1) 
    (fun hf => (Bool.and_eq_true_iff.mp hf).1) (min_le_left _ _) (fun hu => (Bool.or_eq_false_iff.mp hu).1)
    (fun _ hl => (List.mem_filter.mp hl).1)
  meet_right h := h.weaken (fun hne => (Bool.and_eq_true_iff.mp hne).2) 
    (fun hf => (Bool.and_eq_true_iff.mp hf).2) (min_le_right _ _) (fun hu => (Bool.or_eq_false_iff.mp hu).2)
    (fun _ hl => of_decide_eq_true (List.mem_filter.mp hl).2)
  many_nil d := Demand.Holds.nil d.under
  many_one h := h.weaken nofun nofun (Nat.zero_le _) id nofun
  many_append hu hv := by
    refine (hu.add hv).weaken nofun nofun (Nat.zero_le _) (fun h => ?_) nofun
    exact Bool.or_eq_false_iff.mpr ⟨h, h⟩

end Sound

/-! ### Tokens -/

section Token

variable {R : Runtime} {K : Masker} {pdType : PDType} {span : Str} {d : Demand} {w : Str}

/-- What the digits and letters of a digest are. -/
theorem tokenBody_spec (K : Masker) (pdType : PDType) (span : Str) : ∃ hex : Str, hex.length ≤ 6 ∧
    (∀ c ∈ hex, isHexDigit c = true) ∧ tokenBody K pdType span = pdType.value.map Char.toUpper ++ '_' :: hex := by
  refine ⟨(K.digest pdType span).take 6, List.length_take_le _ _, ?_, rfl⟩
  intro c hc
  exact List.all_eq_true.mp (K.hexdigest_hex _) c (List.mem_of_mem_take hc)

theorem code_of_isHexDigit {c : Char} (h : isHexDigit c = true) :
    (48 ≤ c.toNat ∧ c.toNat ≤ 57) ∨ (97 ≤ c.toNat ∧ c.toNat ≤ 102) := by
  simp only [isHexDigit, Bool.or_eq_true, Bool.and_eq_true, decide_eq_true_eq] at h
  exact h

/-- The letters of the name of a type. -/
theorem name_spec (pdType : PDType) : ∀ c ∈ pdType.value.map Char.toUpper,
    tokenChar c = true ∧ c.toNat < 128 ∧ c.isDigit = false ∧ lowerBasic c ∈ pdType.value := by
  have hall : (pdType.value.map Char.toUpper).all (fun c => tokenChar c && decide (c.toNat < 128) && !c.isDigit &&
      decide (lowerBasic c ∈ pdType.value)) = true := by
    cases pdType <;> decide +kernel
  intro c hc
  have hchar := List.all_eq_true.mp hall c hc
  simp only [Bool.and_eq_true, decide_eq_true_eq, Bool.not_eq_true', and_assoc] at hchar
  exact hchar

theorem mem_typeNames (pdType : PDType) : pdType.value ∈ typeNames := by
  cases pdType <;> decide

theorem mem_tokenBody {c : Char} (hc : c ∈ tokenBody K pdType span) :
    c ∈ pdType.value.map Char.toUpper ∨ c = '_' ∨ isHexDigit c = true := by
  obtain ⟨hex, -, hhex, heq⟩ := tokenBody_spec K pdType span
  rw [heq] at hc
  rcases List.mem_append.mp hc with hc | hc
  · exact Or.inl hc
  · exact Or.inr ((List.mem_cons.mp hc).imp_right (hhex c))

theorem tokenChar_of_mem_tokenBody {c : Char} (hc : c ∈ tokenBody K pdType span) : tokenChar c = true := by
  rcases mem_tokenBody hc with hc | rfl | hc
  · exact (name_spec pdType c hc).1
  · rfl
  · simp only [isHexDigit, Bool.or_eq_true, Bool.and_eq_true, decide_eq_true_eq] at hc
    rw [tokenChar, Bool.or_eq_true, isAlphanum_iff]
    rcases hc with ⟨h1, h2⟩ | ⟨h1, h2⟩
    · exact Or.inl (Or.inr ⟨h1, h2⟩)
    · exact Or.inl (Or.inl (Or.inr ⟨h1, le_trans (show c.toNat ≤ ('f' : Char).toNat from h2) (by decide)⟩))

/-- Letters beyond the hexadecimal digits stand in the name. -/
theorem mem_name_of_beyondHex {c l : Char} (hc : c ∈ tokenBody K pdType span) (hl : beyondHex l = true)
    (hlower : lowerBasic c = l) : l ∈ pdType.value := by
  subst hlower
  rcases mem_tokenBody hc with hc | rfl | hc
  · exact (name_spec pdType c hc).2.2.2
  · exact absurd hl (by decide)
  · have hcode := code_of_isHexDigit hc
    have hlower := toNat_lowerBasic c
    simp only [beyondHex, Bool.and_eq_true, decide_eq_true_eq] at hl
    have hg : 103 ≤ (lowerBasic c).toNat := hl.1
    split_ifs at hlower <;> omega

theorem countP_tokenBody (R : Runtime) (K : Masker) (pdType : PDType) (span : Str) :
    (tokenBody K pdType span).countP R.isdecimal ≤ 6 := by
  obtain ⟨hex, hlen, -, heq⟩ := tokenBody_spec K pdType span
  have hname : (pdType.value.map Char.toUpper).countP R.isdecimal = 0 := by
    refine List.countP_eq_zero.mpr ?_
    intro c hc
    obtain ⟨-, hlt, hdigit, -⟩ := name_spec pdType c hc
    rw [R.isdecimal_ascii c hlt, hdigit]
    exact Bool.false_ne_true
  have hunder : R.isdecimal '_' = false := R.isdecimal_ascii '_' (by decide)
  rw [heq, List.countP_append, hname, List.countP_cons, hunder, Nat.zero_add, if_neg Bool.false_ne_true]
  exact List.countP_le_length.trans hlen

/-- A part of a token without `_` is a part of the name or of the digest. -/
theorem infix_of_under_notMem (h : w <:+: tokenBody K pdType span) (hunder : '_' ∉ w) :
    (∀ c ∈ w, c ∈ pdType.value.map Char.toUpper) ∨ ∀ c ∈ w, isHexDigit c = true := by
  obtain ⟨hex, -, hhex, heq⟩ := tokenBody_spec K pdType span
  obtain ⟨u, v, huv⟩ := h
  rw [heq, List.append_assoc, List.append_eq_append_iff] at huv
  rcases huv with ⟨x, hname, hx⟩ | ⟨x, hu, hx⟩
  · -- it begins in the name
    rcases List.append_eq_append_iff.mp hx with ⟨y, rfl, -⟩ | ⟨y, rfl, hy⟩
    · refine Or.inl ?_
      intro c hc
      rw [hname]
      exact List.mem_append_right u (List.mem_append_left y hc)
    · cases y with
      | nil =>
        refine Or.inl ?_
        intro c hc
        rw [List.append_nil] at hc
        rw [hname]
        exact List.mem_append_right u hc
      | cons a y =>
        obtain ⟨rfl, -⟩ := List.cons.inj hy
        exact absurd (List.mem_append_right x List.mem_cons_self) hunder
  · cases x with
    | nil =>
      cases w with
      | nil => exact Or.inl (fun c hc => absurd hc List.not_mem_nil)
      | cons a w =>
        obtain ⟨rfl, -⟩ := List.cons.inj hx
        exact absurd List.mem_cons_self hunder
    | cons a x =>
      obtain ⟨-, hx⟩ := List.cons.inj hx
      refine Or.inr ?_
      intro c hc
      refine hhex c ?_
      rw [hx]
      exact List.mem_append_right x (List.mem_append_left v hc)

/-- **An alien word is no part of a token.** -/
theorem not_infix_of_alien (h : d.alien = true) (hw : d.Holds R w) : ¬ w <:+: tokenBody K pdType span := by
  intro hin
  have hmem : ∀ c ∈ w, c ∈ tokenBody K pdType span := fun c hc => hin.subset hc
  simp only [Demand.alien, Bool.or_eq_true, Bool.and_eq_true, Bool.not_eq_true', decide_eq_true_eq] at h
  rcases h with ((hforeign | hdigits) | ⟨⟨hunder, hletter⟩, hdigit⟩) | hname
  · obtain ⟨c, hc, hct⟩ := hw.foreign hforeign
    exact Bool.false_ne_true (hct.symm.trans (tokenChar_of_mem_tokenBody (hmem c hc)))
  · have hcount := countP_tokenBody R K pdType span
    have hsub := hin.sublist.countP_le (p := R.isdecimal)
    have hw' := hw.digits
    omega
  · obtain ⟨l, hl, hbeyond⟩ := List.any_eq_true.mp hletter
    obtain ⟨c, hc, hlower⟩ := hw.letters l hl
    have hct := tokenChar_of_mem_tokenBody (hmem c hc)
    rcases infix_of_under_notMem hin (hw.under hunder) with hall | hall
    · -- the name has no digits
      have hzero : w.countP R.isdecimal = 0 := by
        refine List.countP_eq_zero.mpr ?_
        intro a ha
        obtain ⟨-, hlt, hadigit, -⟩ := name_spec pdType a (hall a ha)
        rw [R.isdecimal_ascii a hlt, hadigit]
        exact Bool.false_ne_true
      have hw' := hw.digits
      omega
    · have hcode := code_of_isHexDigit (hall c hc)
      have hcase := toNat_lowerBasic c
      rw [hlower hct] at hcase
      simp only [beyondHex, Bool.and_eq_true, decide_eq_true_eq] at hbeyond
      have hg : 103 ≤ l.toNat := hbeyond.1
      split_ifs at hcase <;> omega
  · obtain ⟨l, hl, hbeyond⟩ := List.any_eq_true.mp (List.all_eq_true.mp hname _ (mem_typeNames pdType))
    obtain ⟨hbeyond, hnot⟩ := Bool.and_eq_true_iff.mp hbeyond
    obtain ⟨c, hc, hlower⟩ := hw.letters l hl
    have hin := mem_name_of_beyondHex (hmem c hc) hbeyond (hlower (tokenChar_of_mem_tokenBody (hmem c hc)))
    exact of_decide_eq_true hnot hin

/-- A token stands at `[t, t')` in the text. -/
def TokenAt (K : Masker) (text : Str) (t t' : ℕ) : Prop :=
  t ≤ t' ∧ t' ≤ text.length ∧ ∃ pdType span, slice text t t' = K.token pdType span

section Places

variable {text : Str} {t t' x y : ℕ}

theorem length_token (K : Masker) (pdType : PDType) (span : Str) :
    (K.token pdType span).length = (tokenBody K pdType span).length + 2 := by
  rw [token_eq, List.length_cons, List.length_append, List.length_singleton]

theorem TokenAt.lt (htok : TokenAt K text t t') : t + 1 < t' := by
  obtain ⟨hle, hlen, pdType, span, heq⟩ := htok
  have hslice := congrArg List.length heq
  rw [length_slice hlen, length_token] at hslice
  omega

/-- A token begins with `[` and ends with `]`. -/
theorem TokenAt.brackets (htok : TokenAt K text t t') : text[t]? = some '[' ∧ text[t' - 1]? = some ']' := by
  have hlt := htok.lt
  obtain ⟨hle, hlen, pdType, span, heq⟩ := htok
  have hslice := congrArg List.length heq
  rw [length_slice hlen, length_token] at hslice
  constructor
  · have hfirst : (slice text t t')[0]? = text[t + 0]? := getElem?_slice (by omega)
    rw [heq, token_eq] at hfirst
    exact hfirst.symm
  · have hlast : (slice text t t')[t' - t - 1]? = text[t + (t' - t - 1)]? := getElem?_slice (by omega)
    have hpos : t' - t - 1 = (tokenBody K pdType span).length + 1 := by omega
    have hend : t + (t' - t - 1) = t' - 1 := by omega
    rw [heq, token_eq, hpos, List.getElem?_cons_succ, List.getElem?_concat_length, ← hpos, hend] at hlast
    exact hlast.symm

/-- What lies between the brackets is a part of the body. -/
theorem TokenAt.infix_body (htok : TokenAt K text t t') (hx : t < x) (hy : y < t') :
    ∃ pdType span, slice text x y <:+: tokenBody K pdType span := by
  obtain ⟨hle, hlen, pdType, span, heq⟩ := htok
  have hslice := congrArg List.length heq
  rw [length_slice hlen, length_token] at hslice
  refine ⟨pdType, span, ?_⟩
  have hbody : tokenBody K pdType span = slice text (t + 1) (t' - 1) := by
    have hcut : slice text (t + 1) (t' - 1) = ((slice text t t').drop 1).take (t' - 1 - (t + 1)) := by
      unfold slice
      rw [List.drop_take, List.drop_drop, List.take_take, Nat.min_eq_left (by omega)]
    have hnum : t' - 1 - (t + 1) = (tokenBody K pdType span).length := by omega
    rw [hcut, heq, token_eq, List.drop_one, List.tail_cons, hnum, List.take_left]
  rw [hbody]
  have hpart : slice text x y = ((slice text (t + 1) (t' - 1)).drop (x - (t + 1))).take (y - x) := by
    unfold slice
    rw [List.drop_take, List.drop_drop, List.take_take]
    congr 2 <;> omega
  rw [hpart]
  exact (List.take_prefix _ _).isInfix.trans (List.drop_suffix _ _).isInfix

/-- A segment contains no bracket. -/
theorem notMem_of_segment {f : Demand → Bool} (hseg : Segment (Demand.Holds R) f text x y) {i : ℕ} (hx : x ≤ i)
    (hy : i < y) : text[i]? ≠ some '[' ∧ text[i]? ≠ some ']' := by
  obtain ⟨hxy, hlen, d, -, hd⟩ := hseg
  have hget : (slice text x y)[i - x]? = text[x + (i - x)]? := getElem?_slice (by omega)
  rw [Nat.add_sub_cancel' hx] at hget
  constructor
  · intro hi
    exact hd.closed.1 (List.mem_of_getElem? (hget.trans hi))
  · intro hi
    exact hd.closed.2 (List.mem_of_getElem? (hget.trans hi))

/-- An alien segment is not empty. -/
theorem lt_of_alien (K : Masker) (hseg : Segment (Demand.Holds R) Demand.alien text x y) : x < y := by
  obtain ⟨hxy, hlen, d, halien, hd⟩ := hseg
  by_contra hnot
  have heq : y - x = 0 := by omega
  rw [heq, List.take_zero] at hd
  have hempty : [] <:+: tokenBody K .fio [] := List.nil_infix
  exact not_infix_of_alien halien hd hempty

/-- **An alien segment and a token have no character in common.** -/
theorem TokenAt.apart (htok : TokenAt K text t t') (hseg : Segment (Demand.Holds R) Demand.alien text x y) :
    y ≤ t ∨ t' ≤ x := by
  have hlt := htok.lt
  by_contra hnot
  obtain ⟨hleft, hright⟩ := htok.brackets
  have hx : t < x := by
    by_contra hle
    exact (notMem_of_segment hseg (by omega) (by omega)).1 hleft
  have hy : y < t' := by
    by_contra hle
    exact (notMem_of_segment hseg (i := t' - 1) (by omega) (by omega)).2 hright
  obtain ⟨pdType, span, hin⟩ := htok.infix_body hx hy
  obtain ⟨-, -, d, halien, hd⟩ := hseg
  exact not_infix_of_alien halien hd hin

end Places

end Token

end PdMasking
