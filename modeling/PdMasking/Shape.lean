import PdMasking.Detectors.Base
import PdMasking.Lib.Pattern

/-!
# PdMasking.Shape — the logged shape of a text (`observability/shape.py`)

`text_shape` replaces the letters and digits of every token by the marks of their classes; service words stay.  A
token is made of the letters and digits that the pattern lists, all others stand outside of the tokens.

* `shaped_service`, `shaped_other`: the shape, position by position.
* `textShape_iff`: when a shape shows no content, and when two alike texts have the same shape.
-/

namespace PdMasking

open Regex

/-! ### The shape -/

/-- `MAX_SHAPE_CHARS`. -/
def maxShapeChars : ℕ := 120

/-- `SERVICE_WORDS`. -/
def serviceWords : List Str :=
  [chars "паспорт", chars "паспорта", chars "серия", chars "номер", chars "выдан", chars "выдана", chars "дата",
    chars "рождения", chars "место", chars "код", chars "подразделения", chars "гражданство", chars "гражданин",
    chars "гражданка", chars "тел", chars "телефон", chars "моб", chars "email", chars "e-mail", chars "почта",
    chars "адрес", chars "индекс", chars "г", chars "город", chars "ул", chars "улица", chars "д", chars "дом",
    chars "кв", chars "квартира", chars "корп", chars "стр", chars "обл", chars "область", chars "край",
    chars "район", chars "р-н", chars "респ", chars "карта", chars "карты", chars "срок", chars "действия",
    chars "до", chars "cvv", chars "cvc", chars "cvc2", chars "cvv2", chars "pin", chars "пин", chars "пин-код",
    chars "держатель", chars "инн", chars "снилс", chars "ву", chars "водительское", chars "удостоверение",
    chars "права", chars "фио", chars "клиент", chars "клиентка", chars "имя", chars "фамилия", chars "отчество",
    chars "страна"]

/-- `[0-9A-Za-zА-Яа-яЁё]`. -/
def isShapeChar (c : Char) : Bool := c.isAlphanum || isRussian c

/-- `[0-9A-Za-zА-Яа-яЁё]+`. -/
def shapeWord : Regex Char := rep false 1 none (cls isShapeChar)

/-- `_TOKEN_RE`. -/
def shapeTokenRe : Regex Char := concat [shapeWord, star (concat [cls (· == '-'), shapeWord])]

/-- `pattern.sub` behind `pos`, for the matches of the pattern there. -/
def substitute (f : Str → Str) (text : Str) : ℕ → List Match → Str
  | pos, [] => text.drop pos
  | pos, m :: ms => slice text pos m.start ++ f (matched text m) ++ substitute f text m.stop ms

section Shape

variable (R : Runtime)

/-- `"a" <= ch.lower() <= "z"`. -/
def isLatin (ch : Char) : Bool :=
  match R.lower [ch] with
  | [] => false
  | c :: rest => 'a' ≤ c && (c < 'z' || (c == 'z' && rest.isEmpty))

/-- `_char_class`. -/
def charClass (ch : Char) : Char :=
  if R.isdigit ch then '9'
  else if isLatin R ch then (if R.isupper ch then 'X' else 'x')
  else if R.isalpha ch then (if R.isupper ch then 'А' else 'а')
  else ch

/-- `_token_shape`. -/
def tokenShape (token : Str) : Str :=
  if R.lower token ∈ serviceWords then R.lower token else token.map (charClass R)

/-- The shape before it is cut. -/
def shaped (text : Str) : Str := substitute (tokenShape R) text 0 (shapeTokenRe.finditer text)

/-- `text_shape`. -/
def textShape (text : Str) : Str := (shaped R text).take maxShapeChars

end Shape

/-! ### What a shape should show -/

section Content

variable (R : Runtime)

/-- The marks of the classes. -/
def classMarks : List Char := ['9', 'X', 'x', 'А', 'а']

/-- Every letter or digit of a shape is a mark, or belongs to a service word, which may be cut at the end. -/
def ShowsNoContent (shape : Str) : Prop :=
  ∀ (i : ℕ) (c : Char), shape[i]? = some c → R.isalnum c = true → c ∈ classMarks ∨
    ∃ a w, w ∈ serviceWords ∧ a ≤ i ∧ i < a + w.length ∧
      ∀ j < w.length, a + j < maxShapeChars → shape[a + j]? = w[j]?

/-- The tokens that are service words: where they start, and their lower-case form. -/
def serviceTokens (text : Str) : List (ℕ × Str) :=
  ((shapeTokenRe.finditer text).filter (fun m => R.lower (matched text m) ∈ serviceWords)).map
    (fun m => (m.start, R.lower (matched text m)))

/-- The position belongs to a service word. -/
def InService (text : Str) (i : ℕ) : Prop := ∃ t ∈ serviceTokens R text, t.1 ≤ i ∧ i < t.1 + t.2.length

/-- The class of a character: digit or letter, its case and its alphabet. -/
def kind (c : Char) : Bool × Bool × Bool × Bool × Bool :=
  (R.isdigit c, R.isalpha c, R.isupper c, R.islower c, isLatin R c)

/-- Two texts that differ only in the letters and digits outside of the service words, and not in their classes. -/
structure ShapeAlike (text text' : Str) : Prop where
  length_eq : text.length = text'.length
  signs : ∀ (i : ℕ) (c c' : Char), text[i]? = some c → text'[i]? = some c' →
    (R.isalnum c = false ∨ R.isalnum c' = false) → c = c'
  service : serviceTokens R text = serviceTokens R text'
  kinds : ∀ (i : ℕ) (c c' : Char), text[i]? = some c → text'[i]? = some c' → ¬ InService R text i →
    kind R c = kind R c'

end Content

/-! ### The substitution, position by position -/

section Substitution

variable {f : Str → Str} {text : Str}

theorem getElem?_substitute : ∀ {ms : List Match} {pos : ℕ}, (∀ m ∈ ms, pos ≤ m.start ∧ m.Within text.length) →
    ms.Pairwise (fun m m' => m.stop ≤ m'.start) →
    (∀ m ∈ ms, (f (matched text m)).length = m.stop - m.start) →
    (∀ m ∈ ms, ∀ i, m.start ≤ i → i < m.stop →
      (substitute f text pos ms)[i - pos]? = (f (matched text m))[i - m.start]?) ∧
    ∀ i, pos ≤ i → (∀ m ∈ ms, ¬ (m.start ≤ i ∧ i < m.stop)) → (substitute f text pos ms)[i - pos]? = text[i]?
  | [], pos, _, _, _ => by
    refine ⟨by simp, ?_⟩
    intro i hi _
    rw [substitute, List.getElem?_drop, Nat.add_sub_cancel' hi]
  | m :: ms, pos, hms, hpair, hlen => by
    rw [List.pairwise_cons] at hpair
    obtain ⟨hpos, hle, hstop, -⟩ := hms m List.mem_cons_self
    have hnext : ∀ m' ∈ ms, m.stop ≤ m'.start ∧ m'.Within text.length := fun m' hm' =>
      ⟨hpair.1 m' hm', (hms m' (List.mem_cons_of_mem _ hm')).2⟩
    obtain ⟨hin, hout⟩ := getElem?_substitute hnext hpair.2 (fun m' hm' => hlen m' (List.mem_cons_of_mem _ hm'))
    have hgap : (slice text pos m.start).length = m.start - pos := length_slice (hle.trans hstop)
    have hmid : (f (matched text m)).length = m.stop - m.start := hlen m List.mem_cons_self
    -- the three pieces: before the match, the match, the rest
    have hbefore : ∀ i, pos ≤ i → i < m.start → (substitute f text pos (m :: ms))[i - pos]? = text[i]? := by
      intro i h1 h2
      rw [substitute, List.append_assoc, List.getElem?_append_left (by omega), getElem?_slice (by omega),
        Nat.add_sub_cancel' h1]
    have hhere : ∀ i, m.start ≤ i → i < m.stop →
        (substitute f text pos (m :: ms))[i - pos]? = (f (matched text m))[i - m.start]? := by
      intro i h1 h2
      rw [substitute, List.append_assoc, List.getElem?_append_right (by omega), hgap,
        List.getElem?_append_left (by omega), show i - pos - (m.start - pos) = i - m.start by omega]
    have hbehind : ∀ i, m.stop ≤ i →
        (substitute f text pos (m :: ms))[i - pos]? = (substitute f text m.stop ms)[i - m.stop]? := by
      intro i h1
      rw [substitute, List.append_assoc, List.getElem?_append_right (by omega), hgap,
        List.getElem?_append_right (by omega), hmid,
        show i - pos - (m.start - pos) - (m.stop - m.start) = i - m.stop by omega]
    refine ⟨?_, ?_⟩
    · intro m' hm' i h1 h2
      rcases List.mem_cons.mp hm' with rfl | hm'
      · exact hhere i h1 h2
      · have hstart := hpair.1 m' hm'
        rw [hbehind i (hstart.trans h1)]
        exact hin m' hm' i h1 h2
    · intro i hi hnone
      rw [List.forall_mem_cons] at hnone
      rcases Nat.lt_or_ge i m.start with hlt | hge
      · exact hbefore i hi hlt
      · have hafter : m.stop ≤ i := by
          by_contra hnot
          exact hnone.1 ⟨hge, by omega⟩
        rw [hbehind i hafter]
        exact hout i hafter hnone.2

end Substitution

/-! ### The tokens -/

section Tokens

variable {R : Runtime} {text : Str}

theorem optional_ne_nil {step : Cursor Char → List (Cursor Char)} (lazy : Bool) (more : ℕ) (c : Cursor Char) :
    Regex.optional step lazy more c ≠ [] := by
  cases more with
  | zero => exact List.cons_ne_nil _ _
  | succ more =>
    unfold Regex.optional
    dsimp only
    split_ifs
    · exact List.cons_ne_nil _ _
    · exact List.append_ne_nil_of_right_ne_nil _ (List.cons_ne_nil _ _)

/-- A token is made of the letters and digits of the pattern, and hyphens. -/
theorem passes_shapeTokenRe : Passes (fun c => isShapeChar c || c == '-') shapeTokenRe := by
  have hword : Passes (fun c => isShapeChar c || c == '-') shapeWord := by
    refine Passes.rep false 1 none (Passes.cls ?_)
    intro c hc
    rw [hc, Bool.true_or]
  refine Passes.concat ?_
  simp only [List.forall_mem_cons]
  refine ⟨hword, Passes.rep false 0 none (Passes.concat ?_), nofun⟩
  simp only [List.forall_mem_cons]
  refine ⟨Passes.cls ?_, hword, nofun⟩
  intro c hc
  rw [hc, Bool.or_true]

theorem counts_shapeTokenRe : Counts isShapeChar 1 shapeTokenRe := by
  have hcls : Counts isShapeChar 1 (cls isShapeChar) := Counts.cls (fun _ => id)
  have hword : Counts isShapeChar 1 shapeWord := (Counts.rep false 1 none hcls).mono le_rfl
  exact hword.of_mem List.mem_cons_self

/-- Where a letter or digit of the pattern stands, a token begins or goes on. -/
theorem reach_shapeTokenRe (before : Str) (a : Char) (t : Str) (ha : isShapeChar a = true) :
    ∃ c cs, shapeTokenRe.reach ⟨before, a :: t, []⟩ = c :: cs ∧ before.length < c.pos := by
  have hne : shapeTokenRe.reach ⟨before, a :: t, []⟩ ≠ [] := by
    have hstep : (cls isShapeChar).reach ⟨before, a :: t, []⟩ = [⟨a :: before, t, []⟩] := by
      unfold reach
      dsimp only
      rw [if_pos ha]
    have hword : ∃ c cs, shapeWord.reach ⟨before, a :: t, []⟩ = c :: cs := by
      refine List.exists_cons_of_ne_nil ?_
      unfold shapeWord
      rw [reach, iterate, hstep, List.flatMap_singleton, iterate]
      exact optional_ne_nil _ _ _
    obtain ⟨c, cs, hcs⟩ := hword
    show (seq shapeWord (star (concat [cls (· == '-'), shapeWord]))).reach _ ≠ []
    rw [reach, hcs, List.flatMap_cons]
    refine List.append_ne_nil_of_left_ne_nil ?_ _
    show iterate _ false _ 0 _ ≠ []
    exact optional_ne_nil _ _ _
  obtain ⟨c, cs, hcs⟩ := List.exists_cons_of_ne_nil hne
  refine ⟨c, cs, hcs, ?_⟩
  obtain ⟨w, hw, hcount⟩ := counts_shapeTokenRe _ c (hcs ▸ List.mem_cons_self)
  have hpos : c.pos = before.length + w.length := hw.pos_eq
  have hle := hw.pos_eq
  have hlen : w.countP isShapeChar ≤ w.length := List.countP_le_length
  omega

theorem getElem?_matched {m : Match} {i : ℕ} (h1 : m.start ≤ i) (h2 : i < m.stop) :
    (matched text m)[i - m.start]? = text[i]? := by
  unfold matched
  rw [getElem?_slice (by omega), Nat.add_sub_cancel' h1]

/-- The characters of a token. -/
theorem token_char {m : Match} (hm : m ∈ shapeTokenRe.finditer text) {i : ℕ} {c : Char} (h1 : m.start ≤ i)
    (h2 : i < m.stop) (hc : text[i]? = some c) : isShapeChar c = true ∨ c = '-' := by
  have hall := passes_shapeTokenRe.of_found (finditer_found hm)
  have hmem : c ∈ matched text m := List.mem_of_getElem? ((getElem?_matched h1 h2).trans hc)
  have hor := hall c hmem
  rwa [Bool.or_eq_true, beq_iff_eq] at hor

theorem ascii_of_isAlphanum {c : Char} (h : c.isAlphanum = true) : c.toNat < 128 := by
  have hcode := isAlphanum_iff.mp h
  omega

theorem basic_of_token {m : Match} (hm : m ∈ shapeTokenRe.finditer text) :
    ∀ c ∈ matched text m, c.toNat < 128 ∨ isRussian c := by
  intro c hc
  have hor := passes_shapeTokenRe.of_found (finditer_found hm) c hc
  rw [Bool.or_eq_true, beq_iff_eq, isShapeChar, Bool.or_eq_true] at hor
  rcases hor with (halnum | hrussian) | rfl
  · exact Or.inl (ascii_of_isAlphanum halnum)
  · exact Or.inr hrussian
  · exact Or.inl (by decide)

theorem length_lower_token {m : Match} (hm : m ∈ shapeTokenRe.finditer text) :
    (R.lower (matched text m)).length = m.stop - m.start := by
  rw [R.lower_basic _ (basic_of_token hm), List.length_map]
  exact length_slice (finditer_within _ text m hm).2.1

theorem length_tokenShape {m : Match} (hm : m ∈ shapeTokenRe.finditer text) :
    (tokenShape R (matched text m)).length = m.stop - m.start := by
  unfold tokenShape
  split_ifs
  · exact length_lower_token hm
  · rw [List.length_map]
    exact length_slice (finditer_within _ text m hm).2.1

theorem charClass_hyphen : charClass R '-' = '-' := by
  have hlatin : isLatin R '-' = false := by
    unfold isLatin
    have hbasic : ∀ c ∈ ['-'], c.toNat < 128 ∨ isRussian c = true := by
      intro c hc
      rw [List.mem_singleton.mp hc]
      exact Or.inl (by decide)
    rw [R.lower_basic ['-'] hbasic]
    rfl
  unfold charClass
  rw [R.isdigit_ascii '-' (by decide), hlatin, R.isalpha_ascii '-' (by decide)]
  rfl

theorem isdigit_or_isalpha {c : Char} (h : isShapeChar c = true) : R.isdigit c = true ∨ R.isalpha c = true := by
  rw [isShapeChar, Bool.or_eq_true] at h
  rcases h with h | h
  · have hascii := ascii_of_isAlphanum h
    rw [R.isdigit_ascii c hascii, R.isalpha_ascii c hascii]
    rw [Char.isAlphanum, Bool.or_eq_true] at h
    exact h.symm
  · exact Or.inr (R.isalpha_russian c h)

/-- The marks stand for the letters and digits of the pattern. -/
theorem charClass_mem {c : Char} (h : isShapeChar c = true) : charClass R c ∈ classMarks := by
  have hletter := isdigit_or_isalpha (R := R) h
  unfold charClass classMarks
  split_ifs with hdigit hlatin hupper halpha hupper
  · simp
  · simp
  · simp
  · simp
  · simp
  · exact absurd hletter (by simp [hdigit, halpha])

theorem classMarks_shapeChar : ∀ c ∈ classMarks, isShapeChar c = true := List.all_eq_true.mp (by decide)

theorem serviceWords_shapeChar : ∀ w ∈ serviceWords, ∀ c ∈ w, isShapeChar c = true ∨ c = '-' := by
  have hall : serviceWords.all (fun w => w.all (fun c => isShapeChar c || c == '-')) = true := by decide
  intro w hw c hc
  have hchar := List.all_eq_true.mp (List.all_eq_true.mp hall w hw) c hc
  rwa [Bool.or_eq_true, beq_iff_eq] at hchar

/-- The tokens that are service words, as matches. -/
theorem mem_serviceTokens {t : ℕ × Str} : t ∈ serviceTokens R text ↔
    ∃ m ∈ shapeTokenRe.finditer text, R.lower (matched text m) ∈ serviceWords ∧
      t = (m.start, R.lower (matched text m)) := by
  unfold serviceTokens
  rw [List.mem_map]
  constructor
  · rintro ⟨m, hm, rfl⟩
    rw [List.mem_filter, decide_eq_true_eq] at hm
    exact ⟨m, hm.1, hm.2, rfl⟩
  · rintro ⟨m, hm, hword, rfl⟩
    exact ⟨m, List.mem_filter.mpr ⟨hm, decide_eq_true hword⟩, rfl⟩

end Tokens

/-! ### The shape, position by position -/

section Positions

variable {R : Runtime} {text : Str}

theorem getElem?_shaped : (∀ m ∈ shapeTokenRe.finditer text, ∀ i, m.start ≤ i → i < m.stop →
      (shaped R text)[i]? = (tokenShape R (matched text m))[i - m.start]?) ∧
    ∀ i, (∀ m ∈ shapeTokenRe.finditer text, ¬ (m.start ≤ i ∧ i < m.stop)) → (shaped R text)[i]? = text[i]? := by
  have hms : ∀ m ∈ shapeTokenRe.finditer text, 0 ≤ m.start ∧ m.Within text.length :=
    fun m hm => ⟨Nat.zero_le _, finditer_within _ text m hm⟩
  obtain ⟨hin, hout⟩ := getElem?_substitute (f := tokenShape R) hms (finditer_pairwise _ text)
    (fun m hm => length_tokenShape hm)
  exact ⟨hin, fun i => hout i (Nat.zero_le i)⟩

/-- **A service word stands in the shape** in its lower-case form. -/
theorem shaped_service {t : ℕ × Str} (ht : t ∈ serviceTokens R text) {i : ℕ} (h1 : t.1 ≤ i)
    (h2 : i < t.1 + t.2.length) : (shaped R text)[i]? = t.2[i - t.1]? := by
  obtain ⟨m, hm, hword, rfl⟩ := mem_serviceTokens.mp ht
  have hstop : i < m.stop := by
    have hlen := length_lower_token (R := R) hm
    have hle := (finditer_within _ text m hm).1
    dsimp only at h2
    omega
  rw [getElem?_shaped.1 m hm i h1 hstop, tokenShape, if_pos hword]

/-- **Outside of the service words** the letters and digits of the tokens become marks, the others are copied. -/
theorem shaped_other {i : ℕ} (hi : ¬ InService R text i) :
    (shaped R text)[i]? = text[i]?.map (fun c => if isShapeChar c then charClass R c else c) := by
  by_cases htoken : ∃ m ∈ shapeTokenRe.finditer text, m.start ≤ i ∧ i < m.stop
  · obtain ⟨m, hm, h1, h2⟩ := htoken
    have hword : ¬ R.lower (matched text m) ∈ serviceWords := by
      intro hword
      have hlen := length_lower_token (R := R) hm
      exact hi ⟨_, mem_serviceTokens.mpr ⟨m, hm, hword, rfl⟩, h1, by dsimp only; omega⟩
    rw [getElem?_shaped.1 m hm i h1 h2, tokenShape, if_neg hword, List.getElem?_map, getElem?_matched h1 h2]
    cases hc : text[i]? with
    | none => rfl
    | some c =>
      rcases token_char hm h1 h2 hc with hshape | rfl
      · simp only [Option.map_some, hshape, if_true]
      · simp only [Option.map_some, charClass_hyphen, ite_self]
  · have hnone : ∀ m ∈ shapeTokenRe.finditer text, ¬ (m.start ≤ i ∧ i < m.stop) :=
      fun m hm h => htoken ⟨m, hm, h⟩
    rw [getElem?_shaped.2 i hnone]
    cases hc : text[i]? with
    | none => rfl
    | some c =>
      -- a letter or digit of the pattern would be in a token
      have hshape : isShapeChar c = false := by
        rw [← Bool.not_eq_true]
        intro hshape
        obtain ⟨m, hm, h1, h2⟩ := scan_covers reach_shapeTokenRe text 0 [] i c (Nat.zero_le i) hc hshape
        rw [List.length_nil, Nat.zero_add] at h1 h2
        exact htoken ⟨m, hm, h1, h2⟩
      simp only [Option.map_some, hshape, Bool.false_eq_true, if_false]

/-- In a service word stand letters and digits of the pattern, and hyphens. -/
theorem service_char {i : ℕ} {c : Char} (hi : InService R text i) (hc : text[i]? = some c) :
    isShapeChar c = true ∨ c = '-' := by
  obtain ⟨t, ht, h1, h2⟩ := hi
  obtain ⟨m, hm, -, rfl⟩ := mem_serviceTokens.mp ht
  have hlen := length_lower_token (R := R) hm
  have hle := (finditer_within _ text m hm).1
  dsimp only at h1 h2
  exact token_char hm h1 (by omega) hc

theorem isalnum_hyphen : R.isalnum '-' = false := R.isalnum_ascii (by decide)

theorem getElem?_textShape {i : ℕ} (hi : i < maxShapeChars) : (textShape R text)[i]? = (shaped R text)[i]? :=
  List.getElem?_take_of_lt hi

/-- The kind of a character decides on its mark. -/
theorem charClass_of_kind {c c' : Char} (h : isShapeChar c = true) (hkind : kind R c = kind R c') :
    charClass R c = charClass R c' := by
  have hletter := isdigit_or_isalpha (R := R) h
  simp only [kind, Prod.mk.injEq] at hkind
  obtain ⟨hdigit, halpha, hupper, -, hlatin⟩ := hkind
  unfold charClass
  rw [← hdigit, ← halpha, ← hupper, ← hlatin]
  split_ifs with h1 h2 h3 h4
  · rfl
  · rfl
  · rfl
  · rfl
  · rfl
  · exact absurd hletter (by simp [h1, h4])

end Positions

/-! ### What the shape shows -/

section Shown

variable {R : Runtime} {text text' : Str}

/-- A shape shows no content when the pattern knows the letters and digits that it shows. -/
theorem showsNoContent_of_shapeChar
    (h : ∀ (i : ℕ) (c : Char), i < maxShapeChars → text[i]? = some c → R.isalnum c = true → isShapeChar c = true) :
    ShowsNoContent R (textShape R text) := by
  intro i c hc halnum
  have hi : i < maxShapeChars := by
    have hlt := (List.getElem?_eq_some_iff.mp hc).1
    rw [textShape, List.length_take] at hlt
    omega
  rw [getElem?_textShape hi] at hc
  by_cases hservice : InService R text i
  · obtain ⟨t, ht, h1, h2⟩ := hservice
    obtain ⟨m, hm, hword, rfl⟩ := mem_serviceTokens.mp ht
    refine Or.inr ⟨m.start, R.lower (matched text m), hword, h1, h2, ?_⟩
    intro j hj hcut
    rw [getElem?_textShape hcut, shaped_service ht (Nat.le_add_right _ _) (Nat.add_lt_add_left hj _),
      Nat.add_sub_cancel_left]
  · rw [shaped_other hservice, Option.map_eq_some_iff] at hc
    obtain ⟨d, hd, rfl⟩ := hc
    by_cases hshape : isShapeChar d = true
    · rw [if_pos hshape]
      exact Or.inl (charClass_mem hshape)
    · rw [if_neg hshape] at halnum
      exact absurd (h i d hi hd halnum) hshape

/-- What the pattern does not know is copied. -/
theorem shapeChar_of_showsNoContent (h : ShowsNoContent R (textShape R text)) {i : ℕ} {c : Char}
    (hi : i < maxShapeChars) (hc : text[i]? = some c) (halnum : R.isalnum c = true) : isShapeChar c = true := by
  have hservice_char : ∀ d : Char, (isShapeChar d = true ∨ d = '-') → d = c → isShapeChar c = true := by
    rintro d (hd | rfl) rfl
    · exact hd
    · rw [isalnum_hyphen] at halnum
      cases halnum
  by_cases hservice : InService R text i
  · exact hservice_char c (service_char hservice hc) rfl
  · by_contra hshape
    have hcopied : (textShape R text)[i]? = some c := by
      rw [getElem?_textShape hi, shaped_other hservice, hc, Option.map_some, if_neg hshape]
    rcases h i c hcopied halnum with hmark | ⟨a, w, hw, ha, hlt, hword⟩
    · exact hshape (classMarks_shapeChar c hmark)
    · have hhere := hword (i - a) (by omega) (by omega)
      rw [Nat.add_sub_cancel' ha, hcopied] at hhere
      exact hshape (hservice_char c (serviceWords_shapeChar w hw c (List.mem_of_getElem? hhere.symm)) rfl)

/-- Two alike texts have the same shape at a position where they agree, or where the pattern knows both. -/
theorem shaped_eq_iff (h : ShapeAlike R text text') (i : ℕ) : (shaped R text)[i]? = (shaped R text')[i]? ↔
    text[i]? = text'[i]? ∨ ∃ c c', text[i]? = some c ∧ text'[i]? = some c' ∧
      isShapeChar c = true ∧ isShapeChar c' = true := by
  have hlen : text[i]? = none ↔ text'[i]? = none := by
    rw [List.getElem?_eq_none_iff, List.getElem?_eq_none_iff, h.length_eq]
  have hservice : InService R text i ↔ InService R text' i := by
    unfold InService
    rw [h.service]
  by_cases hin : InService R text i
  · have hleft : (shaped R text)[i]? = (shaped R text')[i]? := by
      obtain ⟨t, ht, h1, h2⟩ := hin
      rw [shaped_service ht h1 h2, shaped_service (h.service ▸ ht) h1 h2]
    refine iff_of_true hleft ?_
    cases hc : text[i]? with
    | none => exact Or.inl (hlen.mp hc).symm
    | some c =>
      obtain ⟨c', hc'⟩ := Option.ne_none_iff_exists'.mp (fun hnone => by rw [hlen.mpr hnone] at hc; cases hc)
      rw [hc', Option.some.injEq]
      rcases service_char hin hc with hshape | rfl
      · rcases service_char (hservice.mp hin) hc' with hshape' | rfl
        · exact Or.inr ⟨c, c', rfl, rfl, hshape, hshape'⟩
        · exact Or.inl (h.signs i c _ hc hc' (Or.inr isalnum_hyphen))
      · exact Or.inl (h.signs i _ c' hc hc' (Or.inl isalnum_hyphen))
  · rw [shaped_other hin, shaped_other (mt hservice.mpr hin)]
    cases hc : text[i]? with
    | none => rw [hlen.mp hc]; simp
    | some c =>
      obtain ⟨c', hc'⟩ := Option.ne_none_iff_exists'.mp (fun hnone => by rw [hlen.mpr hnone] at hc; cases hc)
      have hkind := h.kinds i c c' hc hc' hin
      rw [hc']
      simp only [Option.map_some, Option.some.injEq, exists_eq_left', ↓existsAndEq, true_and]
      by_cases hshape : isShapeChar c = true
      · by_cases hshape' : isShapeChar c' = true
        · rw [if_pos hshape, if_pos hshape']
          exact iff_of_true (charClass_of_kind hshape hkind) (Or.inr ⟨hshape, hshape'⟩)
        · rw [if_pos hshape, if_neg hshape']
          refine iff_of_false ?_ ?_
          · intro heq
            exact hshape' (classMarks_shapeChar c' (heq ▸ charClass_mem hshape))
          · rintro (rfl | ⟨-, h'⟩)
            · exact hshape' hshape
            · exact hshape' h'
      · rw [if_neg hshape]
        by_cases hshape' : isShapeChar c' = true
        · rw [if_pos hshape']
          refine iff_of_false ?_ ?_
          · intro heq
            exact hshape (classMarks_shapeChar c (heq ▸ charClass_mem hshape'))
          · rintro (rfl | ⟨h', -⟩)
            · exact hshape hshape'
            · exact hshape h'
        · rw [if_neg hshape']
          exact ⟨Or.inl, fun h => h.resolve_right (fun h => hshape h.1)⟩

end Shown

/-- **When the shape carries no content**: a shape shows none exactly when the pattern knows all letters and digits
among the characters that the shape keeps, and two alike texts have the same shape exactly when each of these
positions has the same character in both or one that the pattern knows in both. -/
theorem textShape_iff (R : Runtime) :
    (∀ text : Str, ShowsNoContent R (textShape R text) ↔
      ∀ (i : ℕ) (c : Char), i < maxShapeChars → text[i]? = some c → R.isalnum c = true → isShapeChar c = true) ∧
    ∀ text text' : Str, ShapeAlike R text text' → (textShape R text = textShape R text' ↔
      ∀ i < maxShapeChars, text[i]? = text'[i]? ∨ ∃ c c', text[i]? = some c ∧ text'[i]? = some c' ∧
        isShapeChar c = true ∧ isShapeChar c' = true) := by
  constructor
  · intro text
    exact ⟨fun h i c hi hc halnum => shapeChar_of_showsNoContent h hi hc halnum, showsNoContent_of_shapeChar⟩
  · intro text text' halike
    constructor
    · intro heq i hi
      rw [← shaped_eq_iff halike, ← getElem?_textShape hi, heq, getElem?_textShape hi]
    · intro h
      refine List.ext_getElem? ?_
      intro i
      rcases Nat.lt_or_ge i maxShapeChars with hi | hi
      · rw [getElem?_textShape hi, getElem?_textShape hi, shaped_eq_iff halike]
        exact h i hi
      · unfold textShape
        rw [List.getElem?_eq_none (by rw [List.length_take]; omega),
          List.getElem?_eq_none (by rw [List.length_take]; omega)]

/-- Two alike texts: `Имя Иван` and `имя Петр`. -/
def nameText : Str := ['И', 'м', 'я', ' ', 'И', 'в', 'а', 'н']

def nameText' : Str := ['и', 'м', 'я', ' ', 'П', 'е', 'т', 'р']

theorem alike_nameText : ShapeAlike Runtime.basic nameText nameText' where
  length_eq := rfl
  signs := by
    intro i c c' hc hc' hsign
    have hall : ∀ i < 8, (Runtime.basic.isalnum (nameText.getD i ' ') = false ∨
        Runtime.basic.isalnum (nameText'.getD i ' ') = false) → nameText.getD i ' ' = nameText'.getD i ' ' := by
      decide
    have hi : i < 8 := (List.getElem?_eq_some_iff.mp hc).1
    have hhere := hall i hi
    rw [List.getD_eq_getElem?_getD, hc, List.getD_eq_getElem?_getD, hc'] at hhere
    exact hhere hsign
  service := by decide +kernel
  kinds := by
    intro i c c' hc hc' hservice
    have hall : ∀ i < 8, i < 3 ∨ kind Runtime.basic (nameText.getD i ' ') =
        kind Runtime.basic (nameText'.getD i ' ') := by
      decide
    have hi : i < 8 := (List.getElem?_eq_some_iff.mp hc).1
    have hbehind : 3 ≤ i := by
      by_contra hlt
      have hmem : (0, ['и', 'м', 'я']) ∈ serviceTokens Runtime.basic nameText := by decide +kernel
      exact hservice ⟨_, hmem, Nat.zero_le i, by simpa using hlt⟩
    have hhere := (hall i hi).resolve_left (Nat.not_lt.mpr hbehind)
    rwa [List.getD_eq_getElem?_getD, hc, List.getD_eq_getElem?_getD, hc'] at hhere

theorem textShape_iff_nameText : textShape Runtime.basic nameText = textShape Runtime.basic nameText' := by
  refine ((textShape_iff Runtime.basic).2 nameText nameText' alike_nameText).mpr ?_
  intro i _
  rcases Nat.lt_or_ge i 8 with hi | hi
  · refine (show ∀ i < 8, nameText[i]? = nameText'[i]? ∨ (isShapeChar (nameText.getD i ' ') = true ∧
      isShapeChar (nameText'.getD i ' ') = true) by decide) i hi |>.imp_right ?_
    rintro ⟨h, h'⟩
    have hlen : i < nameText.length := hi
    have hlen' : i < nameText'.length := hi
    rw [List.getD_eq_getElem?_getD, List.getElem?_eq_getElem hlen] at h
    rw [List.getD_eq_getElem?_getD, List.getElem?_eq_getElem hlen'] at h'
    exact ⟨_, _, List.getElem?_eq_getElem hlen, List.getElem?_eq_getElem hlen', h, h'⟩
  · left
    rw [List.getElem?_eq_none hi, List.getElem?_eq_none hi]

/-- The runtime that knows one more letter. -/
def accented : Runtime :=
  { Runtime.basic with
    isalpha := fun c => Runtime.basic.isalpha c || c == 'é'
    isalpha_ascii := by
      intro c hc
      have hne : (c == 'é') = false := by
        rw [beq_eq_false_iff_ne]
        rintro rfl
        exact absurd hc (by decide)
      rw [hne, Bool.or_false, Runtime.basic.isalpha_ascii c hc]
    isalpha_russian := by
      intro c hc
      rw [Runtime.basic.isalpha_russian c hc, Bool.true_or] }

/-- A letter outside of the two alphabets is copied: the shape of `José` is `Xxxé`. -/
theorem accented_letter_shown : ¬ ∀ R : Runtime,
    (∀ text : Str, ShowsNoContent R (textShape R text)) ∧
      ∀ text text' : Str, ShapeAlike R text text' → textShape R text = textShape R text' := by
  intro h
  have hshown : isShapeChar 'é' = true :=
    shapeChar_of_showsNoContent (i := 3) ((h accented).1 ['J', 'o', 's', 'é']) (by decide) rfl (by decide)
  exact absurd hshown (by decide)

end PdMasking
