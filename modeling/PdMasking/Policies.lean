import PdMasking.Config
import PdMasking.Lib.Checked

/-!
# PdMasking.Policies — reading the configuration of the systems (`core/policy.py`)

`parsePolicies` turns what `yaml.safe_load` returns into a `PolicyRegistry`, or fails at start.

* `parse_policies_law`: which configurations are accepted, and what an accepted one says about each system.
* `deployedConfig`: `config/systems.yaml`.
-/

namespace PdMasking

open Checked

/-! ### The data -/

/-- A value of `yaml.safe_load`.  Numbers with a fraction, dates and keys that are no texts are left out. -/
inductive Yaml
  | null
  | bool (b : Bool)
  | int (n : ℤ)
  | str (s : Str)
  | list (items : List Yaml)
  | dict (members : List (Str × Yaml))

namespace Yaml

def truthy : Yaml → Bool
  | null => false
  | bool b => b
  | int n => n ≠ 0
  | str s => s ≠ []
  | list items => !items.isEmpty
  | dict members => !members.isEmpty

/-- `members.get(name, default)` -/
def get (members : List (Str × Yaml)) (name : Str) (default : Yaml) : Yaml :=
  ((members.find? (fun m => m.1 = name)).map Prod.snd).getD default

end Yaml

/-- What the parser takes from lists and mappings without looking into them. -/
structure Containers where
  /-- `str(value)` -/
  text : Yaml → Str
  /-- A list or a mapping of one element that a rule has for its `char`: what is masked with it is left open. -/
  char : Yaml → Char

/-- What makes a configuration unusable. -/
inductive ConfigError
  /-- `ValueError`: `Неизвестный тип ПД в конфиге: …` -/
  | unknownType (name : Yaml)
  /-- `ValueError`: `Неизвестная стратегия маскирования: …` -/
  | unknownStrategy (strategy : Yaml)
  /-- `ValueError`: `Символ маски должен быть одним символом` -/
  | maskLength
  /-- `ValueError`: `keep_start/keep_end не могут быть отрицательными` -/
  | negativeKeep
  /-- `ValueError`: `default_system … не описана в systems` -/
  | undescribedDefault (name : Yaml)
  /-- `TypeError`: a value of the wrong type, or an unknown name in a rule. -/
  | typeError
  /-- `AttributeError`: a value that is not a mapping. -/
  | attributeError

/-- The members of `PDType`, in order. -/
def PDType.all : List PDType :=
  [.fio, .birthDate, .birthPlace, .passport, .citizenship, .passportIssuer, .departmentCode, .passportIssueDate,
    .driverLicense, .address, .email, .phone, .inn, .cardNumber, .cardCvv, .cardPin, .cardHolder, .cardExpiry,
    .date, .snils, .foreignPassport, .militaryId, .birthCertificate]

/-- `PDType(name)` -/
def PDType.ofValue? (name : Str) : Option PDType := PDType.all.find? (fun t => t.value = name)

theorem PDType.ofValue?_value (t : PDType) : PDType.ofValue? t.value = some t := by
  cases t <;> rfl

theorem PDType.value_injective : Function.Injective PDType.value := by
  intro t u h
  have hvalue := PDType.ofValue?_value t
  rw [h, PDType.ofValue?_value] at hvalue
  exact (Option.some.inj hvalue).symm

theorem PDType.ofValue?_eq_some {name : Str} {t : PDType} : PDType.ofValue? name = some t ↔ t.value = name := by
  constructor
  · intro h
    simpa using List.find?_some h
  · rintro rfl
    exact PDType.ofValue?_value t

/-- The names of the strategies. -/
def Strategy.ofName? (name : Str) : Option Strategy :=
  if name = "initials".toList then some .initials
  else if name = "partial".toList then some .partial_
  else if name = "full".toList then some .full
  else if name = "email".toList then some .email
  else if name = "token".toList then some .token
  else if name = "redact".toList then some .redact
  else if name = "synthetic".toList then some .synthetic
  else none

/-! ### The parser -/

namespace Policies

/-- `_pd_type` -/
def pdType (name : Yaml) : Except ConfigError PDType :=
  match name with
  | .str s =>
    match PDType.ofValue? s with
    | some t => .ok t
    | none => .error (.unknownType name)
  | _ => .error (.unknownType name)

/-- What `for x in raw` goes through. -/
def iterate : Yaml → Except ConfigError (List Yaml)
  | .list items => .ok items
  | .str s => .ok (s.map (fun c => .str [c]))
  | .dict members => .ok (members.map (fun m => .str m.1))
  | _ => .error .typeError

/-- `frozenset(_pd_type(name) for name in raw)` -/
def typeSet (raw : Yaml) : Except ConfigError (Finset PDType) := do
  let names ← iterate raw
  let types ← names.mapM pdType
  return types.toFinset

/-- `_pd_types` -/
def pdTypes (raw : Yaml) : Except ConfigError (Finset PDType) :=
  match raw with
  | .null => .ok ALL_PD_TYPES
  | .str s => if s = "all".toList then .ok ALL_PD_TYPES else typeSet raw
  | raw => typeSet raw

/-- `raw or {}`, of which members are asked for. -/
def mapping (raw : Yaml) : Except ConfigError (List (Str × Yaml)) :=
  match raw with
  | .dict members => .ok members
  | raw => if raw.truthy then .error .attributeError else .ok []

/-- `self.strategy not in STRATEGIES` -/
def strategyOf (raw : Yaml) : Except ConfigError Strategy :=
  match raw with
  | .str s =>
    match Strategy.ofName? s with
    | some strategy => .ok strategy
    | none => .error (.unknownStrategy raw)
  | .list _ => .error .typeError
  | .dict _ => .error .typeError
  | raw => .error (.unknownStrategy raw)

/-- `len(self.char) != 1`: a list or a mapping has a length as well. -/
def maskChar (C : Containers) : Yaml → Except ConfigError Char
  | .str [c] => .ok c
  | .str _ => .error .maskLength
  | .list items => if items.length = 1 then .ok (C.char (.list items)) else .error .maskLength
  | .dict members => if members.length = 1 then .ok (C.char (.dict members)) else .error .maskLength
  | _ => .error .typeError

/-- `self.keep_start < 0`; a truth value is a number. -/
def keepOf : Yaml → Except ConfigError ℕ
  | .int n => if n < 0 then .error .negativeKeep else .ok n.toNat
  | .bool b => .ok (if b then 1 else 0)
  | _ => .error .typeError

/-- The fields of `MaskRule`. -/
def RULE_FIELDS : List Str := ["strategy".toList, "keep_start".toList, "keep_end".toList, "char".toList]

/-- `MaskRule(**members)` -/
def makeRule (C : Containers) (members : List (Str × Yaml)) : Except ConfigError MaskRule :=
  if ∃ m ∈ members, m.1 ∉ RULE_FIELDS then .error .typeError
  else do
    let strategy ← strategyOf (Yaml.get members "strategy".toList (.str "full".toList))
    let char ← maskChar C (Yaml.get members "char".toList (.str ['*']))
    let keepStart ← keepOf (Yaml.get members "keep_start".toList (.int 0))
    let keepEnd ← keepOf (Yaml.get members "keep_end".toList (.int 0))
    return ⟨strategy, keepStart, keepEnd, char⟩

/-- `MaskRule(**(spec or {}))` -/
def maskRule (C : Containers) (spec : Yaml) : Except ConfigError MaskRule :=
  match spec with
  | .dict members => makeRule C members
  | spec => if spec.truthy then .error .typeError else makeRule C []

/-- The mapping with these pairs, the later ones replacing the earlier. -/
def lastOf {α β : Type} [DecidableEq α] (pairs : List (α × β)) (a : α) : Option β :=
  (pairs.reverse.find? (fun p => p.1 = a)).map Prod.snd

/-- `_rules` -/
def rules (C : Containers) (raw : Yaml) : Except ConfigError (PDType → Option MaskRule) := do
  let members ← mapping raw
  let pairs ← members.mapM (fun m => do return (← pdType (.str m.1), ← maskRule C m.2))
  return lastOf pairs

/-- `_combinations` -/
def combinations (raw : Yaml) : Except ConfigError Combinations := do
  let members ← mapping raw
  let pairs ← members.mapM (fun m => do return (← pdType (.str m.1), ← typeSet m.2))
  return lastOf pairs

/-- One system of `parse_policies`. -/
def system (C : Containers) (baseRules : PDType → Option MaskRule) (systemId : Str) (spec : Yaml) :
    Except ConfigError SystemPolicy := do
  let spec ← mapping spec
  let pdTypes ← pdTypes (Yaml.get spec "pd_types".toList (.str "all".toList))
  let own ← rules C (Yaml.get spec "masking".toList .null)
  let combinations ← combinations (Yaml.get spec "require_combination".toList .null)
  return {
    systemId
    enabled := (Yaml.get spec "enabled".toList (.bool true)).truthy
    pdTypes
    unmaskAllowed := (Yaml.get spec "unmask".toList (.bool true)).truthy
    rules := mergeRules baseRules own
    combinations }

/-- `str(value)` -/
def systemName (C : Containers) : Yaml → Str
  | .str s => s
  | .null => "None".toList
  | .bool b => if b then "True".toList else "False".toList
  | .int n => (toString n).toList
  | raw => C.text raw

/-- `parse_policies` -/
def parsePolicies (C : Containers) (data : List (Str × Yaml)) : Except ConfigError PolicyRegistry := do
  let baseRules ← rules C (Yaml.get data "masking".toList .null)
  let members ← mapping (Yaml.get data "systems".toList .null)
  let systems ← members.mapM (fun m => do return (m.1, ← system C baseRules m.1 m.2))
  let default := Yaml.get data "default_system".toList (.str "default".toList)
  match systems.find? (fun s => s.1 = systemName C default) with
  | none => .error (.undescribedDefault default)
  | some s => return ⟨s.1, lastOf systems⟩

/-! ### What a valid configuration is -/

/-- The members of a mapping. -/
def entries : Yaml → List (Str × Yaml)
  | .dict members => members
  | _ => []

/-- Empty, or a mapping whose members are valid. -/
def ValidMap (valid : Str → Yaml → Prop) (raw : Yaml) : Prop :=
  (raw.truthy = false ∨ ∃ members, raw = .dict members) ∧ ∀ m ∈ entries raw, valid m.1 m.2

/-- The name of a type. -/
def IsType (name : Str) : Prop := ∃ t : PDType, t.value = name

/-- Something that types are named in. -/
def ValidTypeSet : Yaml → Prop
  | .list items => ∀ i ∈ items, ∃ t : PDType, i = .str t.value
  | .dict members => ∀ m ∈ members, IsType m.1
  | .str s => s = []
  | _ => False

/-- All types, or something that types are named in. -/
def ValidTypes (raw : Yaml) : Prop :=
  match raw with
  | .null => True
  | .str s => s = "all".toList ∨ s = []
  | raw => ValidTypeSet raw

/-- A number of characters to be kept. -/
def ValidKeep : Yaml → Prop
  | .int n => 0 ≤ n
  | .bool _ => True
  | _ => False

/-- Something of length 1. -/
def ValidChar : Yaml → Prop
  | .str s => s.length = 1
  | .list items => items.length = 1
  | .dict members => members.length = 1
  | _ => False

/-- The fields of a rule, those that are missing having their defaults. -/
structure ValidFields (members : List (Str × Yaml)) : Prop where
  known : ∀ m ∈ members, m.1 ∈ RULE_FIELDS
  strategy : ∃ s, Yaml.get members "strategy".toList (.str "full".toList) = .str s ∧ Strategy.ofName? s ≠ none
  char : ValidChar (Yaml.get members "char".toList (.str ['*']))
  keepStart : ValidKeep (Yaml.get members "keep_start".toList (.int 0))
  keepEnd : ValidKeep (Yaml.get members "keep_end".toList (.int 0))

/-- Empty, or a mapping of valid fields. -/
def ValidRule (spec : Yaml) : Prop :=
  (spec.truthy = false ∨ ∃ members, spec = .dict members) ∧ ValidFields (entries spec)

/-- A section `masking`. -/
def ValidRules : Yaml → Prop := ValidMap (fun name spec => IsType name ∧ ValidRule spec)

/-- A section `require_combination`. -/
def ValidCombinations : Yaml → Prop := ValidMap (fun name spec => IsType name ∧ ValidTypeSet spec)

/-- The settings of a system. -/
structure ValidSystem (spec : Yaml) : Prop where
  mapping : spec.truthy = false ∨ ∃ members, spec = .dict members
  types : ValidTypes (Yaml.get (entries spec) "pd_types".toList (.str "all".toList))
  masking : ValidRules (Yaml.get (entries spec) "masking".toList .null)
  combinations : ValidCombinations (Yaml.get (entries spec) "require_combination".toList .null)

/-- A configuration. -/
structure ValidConfig (C : Containers) (data : List (Str × Yaml)) : Prop where
  masking : ValidRules (Yaml.get data "masking".toList .null)
  systems : ValidMap (fun _ spec => ValidSystem spec) (Yaml.get data "systems".toList .null)
  described : ∃ m ∈ entries (Yaml.get data "systems".toList .null),
    m.1 = systemName C (Yaml.get data "default_system".toList (.str "default".toList))

/-! ### When the parts are accepted -/

section Accepted

variable (C : Containers)

theorem pdType_eq_ok {name : Yaml} {t : PDType} : pdType name = .ok t ↔ name = .str t.value := by
  cases name with
  | str s =>
    have hstr : pdType (.str s) = match PDType.ofValue? s with
      | some t => .ok t
      | none => .error (.unknownType (.str s)) := rfl
    rw [hstr]
    rcases hvalue : PDType.ofValue? s with _ | u
    · refine iff_of_false (fun h => nomatch h) ?_
      rintro ⟨⟩
      rw [PDType.ofValue?_value] at hvalue
      cases hvalue
    · rw [PDType.ofValue?_eq_some] at hvalue
      subst hvalue
      constructor
      · rintro ⟨⟩
        rfl
      · intro h
        rw [Yaml.str.injEq] at h
        rw [PDType.value_injective h]
  | _ => exact iff_of_false (fun h => nomatch h) (fun h => nomatch h)

theorem ok_pdType_str {s : Str} : Ok (pdType (.str s)) ↔ IsType s := by
  unfold Ok IsType
  simp only [pdType_eq_ok, Yaml.str.injEq]
  exact exists_congr (fun t => eq_comm)

/-- No type is named by one character. -/
theorem length_value (t : PDType) : t.value.length ≠ 1 := by
  cases t <;> decide

theorem ok_typeSet (raw : Yaml) : Ok (typeSet raw) ↔ ValidTypeSet raw := by
  have hnames : ∀ names, iterate raw = .ok names → (Ok (typeSet raw) ↔ ∀ n ∈ names, Ok (pdType n)) := by
    intro names hnames
    unfold typeSet
    rw [hnames, ← ok_mapM]
    exact ok_bind_pure
  have hfail : iterate raw = .error .typeError → ¬ Ok (typeSet raw) := by
    intro hraw
    unfold typeSet
    rw [hraw]
    exact not_ok_error _
  cases raw with
  | null => exact iff_of_false (hfail rfl) id
  | bool b => exact iff_of_false (hfail rfl) id
  | int n => exact iff_of_false (hfail rfl) id
  | str s =>
    rw [hnames _ rfl]
    -- the characters of a text, none of which is a name
    constructor
    · intro h
      show s = []
      refine List.eq_nil_iff_forall_not_mem.mpr ?_
      intro c hc
      obtain ⟨t, ht⟩ := ok_pdType_str.mp (h (.str [c]) (List.mem_map.mpr ⟨c, hc, rfl⟩))
      exact length_value t (congrArg List.length ht)
    · rintro rfl n hn
      cases hn
  | list items =>
    rw [hnames _ rfl]
    refine forall₂_congr fun n _ => ?_
    unfold Ok
    simp only [pdType_eq_ok]
  | dict members =>
    rw [hnames _ rfl]
    simp only [List.forall_mem_map, ok_pdType_str]
    exact Iff.rfl

theorem ok_pdTypes (raw : Yaml) : Ok (pdTypes raw) ↔ ValidTypes raw := by
  cases raw with
  | null => exact iff_of_true ⟨_, rfl⟩ trivial
  | str s =>
    show Ok (if s = "all".toList then .ok ALL_PD_TYPES else typeSet (.str s)) ↔ s = "all".toList ∨ s = []
    by_cases hall : s = "all".toList
    · rw [if_pos hall]
      exact iff_of_true ⟨_, rfl⟩ (Or.inl hall)
    · rw [if_neg hall, ok_typeSet]
      exact (or_iff_right hall).symm
  | bool b => exact ok_typeSet _
  | int n => exact ok_typeSet _
  | list items => exact ok_typeSet _
  | dict members => exact ok_typeSet _

/-- What a mapping is, and its members. -/
theorem mapping_eq_ok {raw : Yaml} {members : List (Str × Yaml)} : mapping raw = .ok members ↔
    (raw.truthy = false ∨ ∃ members, raw = .dict members) ∧ members = entries raw := by
  have hother : (∀ ms, raw ≠ .dict ms) → mapping raw = (if raw.truthy then .error .attributeError else .ok []) ∧
      entries raw = [] := by
    intro hraw
    cases raw with
    | dict ms => exact absurd rfl (hraw ms)
    | _ => exact ⟨rfl, rfl⟩
  by_cases hdict : ∃ ms, raw = .dict ms
  · obtain ⟨ms, rfl⟩ := hdict
    constructor
    · rintro ⟨⟩
      exact ⟨Or.inr ⟨_, rfl⟩, rfl⟩
    · rintro ⟨-, rfl⟩
      rfl
  · obtain ⟨hmapping, hentries⟩ := hother (fun ms h => hdict ⟨ms, h⟩)
    rw [hmapping, hentries]
    cases htruthy : raw.truthy with
    | true =>
      refine iff_of_false (fun h => nomatch h) ?_
      rintro ⟨h | h, -⟩
      · cases h
      · exact hdict h
    | false =>
      constructor
      · rintro ⟨⟩
        exact ⟨Or.inl rfl, rfl⟩
      · rintro ⟨-, rfl⟩
        rfl

/-- The members of a mapping, one after another. -/
theorem ok_mapping {α β : Type} {raw : Yaml} {f : Str × Yaml → Except ConfigError α} {g : List α → β}
    {valid : Str → Yaml → Prop} (hf : ∀ m, Ok (f m) ↔ valid m.1 m.2) :
    Ok (do let members ← mapping raw
           let pairs ← members.mapM f
           return g pairs) ↔ ValidMap valid raw := by
  have hbody : ∀ members : List (Str × Yaml), Ok (members.mapM f >>= fun pairs => pure (g pairs)) ↔
      ∀ m ∈ members, valid m.1 m.2 := by
    intro members
    rw [ok_bind_pure, ok_mapM]
    exact forall₂_congr (fun m _ => hf m)
  rw [ok_bind]
  unfold ValidMap
  constructor
  · rintro ⟨members, hmapping, hok⟩
    obtain ⟨hmap, rfl⟩ := mapping_eq_ok.mp hmapping
    exact ⟨hmap, (hbody _).mp hok⟩
  · rintro ⟨hmap, hvalid⟩
    exact ⟨entries raw, mapping_eq_ok.mpr ⟨hmap, rfl⟩, (hbody _).mpr hvalid⟩

theorem ok_strategyOf (raw : Yaml) : Ok (strategyOf raw) ↔ ∃ s, raw = .str s ∧ Strategy.ofName? s ≠ none := by
  cases raw with
  | str s =>
    have hstr : strategyOf (.str s) = match Strategy.ofName? s with
      | some strategy => .ok strategy
      | none => .error (.unknownStrategy (.str s)) := rfl
    rw [hstr]
    rcases hname : Strategy.ofName? s with _ | strategy
    · refine iff_of_false (not_ok_error _) ?_
      rintro ⟨s', ⟨⟩, h⟩
      exact h hname
    · exact iff_of_true ⟨strategy, rfl⟩ ⟨s, rfl, by rw [hname]; exact Option.some_ne_none strategy⟩
  | _ => exact iff_of_false (not_ok_error _) (by rintro ⟨s, ⟨⟩, -⟩)

theorem ok_maskChar (raw : Yaml) : Ok (maskChar C raw) ↔ ValidChar raw := by
  -- a guard on the length
  have hlength : ∀ (n : ℕ) (c : Char), Ok (if n = 1 then .ok c else .error ConfigError.maskLength) ↔ n = 1 := by
    intro n c
    split_ifs with hn
    · exact iff_of_true ⟨c, rfl⟩ hn
    · exact iff_of_false (not_ok_error _) hn
  cases raw with
  | str s =>
    rcases s with _ | ⟨c, _ | ⟨d, s⟩⟩
    · exact iff_of_false (not_ok_error _) nofun
    · exact iff_of_true ⟨c, rfl⟩ rfl
    · exact iff_of_false (not_ok_error _) (fun h => by simp [ValidChar] at h)
  | list items => exact hlength items.length _
  | dict members => exact hlength members.length _
  | _ => exact iff_of_false (not_ok_error _) id

theorem ok_keepOf (raw : Yaml) : Ok (keepOf raw) ↔ ValidKeep raw := by
  cases raw with
  | int n =>
    show Ok (if n < 0 then .error ConfigError.negativeKeep else .ok n.toNat) ↔ 0 ≤ n
    rw [ok_guard, not_lt]
    exact and_iff_left ⟨n.toNat, rfl⟩
  | bool b => exact iff_of_true ⟨_, rfl⟩ trivial
  | _ => exact iff_of_false (not_ok_error _) id

theorem ok_make (members : List (Str × Yaml)) : Ok (makeRule C members) ↔ ValidFields members := by
  have hfields : Ok (makeRule C members) ↔ ¬ (∃ m ∈ members, m.1 ∉ RULE_FIELDS) ∧
      Ok (strategyOf (Yaml.get members "strategy".toList (.str "full".toList))) ∧
      Ok (maskChar C (Yaml.get members "char".toList (.str ['*']))) ∧
      Ok (keepOf (Yaml.get members "keep_start".toList (.int 0))) ∧
      Ok (keepOf (Yaml.get members "keep_end".toList (.int 0))) := by
    unfold makeRule
    rw [ok_guard]
    refine and_congr_right fun _ => ?_
    refine ok_bind_const fun _ _ => ok_bind_const fun _ _ => ok_bind_const fun _ _ => ?_
    exact ok_bind_pure
  rw [hfields, ok_strategyOf, ok_maskChar, ok_keepOf, ok_keepOf]
  constructor
  · rintro ⟨hknown, hstrategy, hchar, hstart, hend⟩
    refine ⟨?_, hstrategy, hchar, hstart, hend⟩
    intro m hm
    by_contra hnot
    exact hknown ⟨m, hm, hnot⟩
  · rintro ⟨hknown, hstrategy, hchar, hstart, hend⟩
    refine ⟨?_, hstrategy, hchar, hstart, hend⟩
    rintro ⟨m, hm, hnot⟩
    exact hnot (hknown m hm)

theorem ok_maskRule (spec : Yaml) : Ok (maskRule C spec) ↔ ValidRule spec := by
  have hempty : ValidFields [] := (ok_make C []).mp ⟨defaultRule, rfl⟩
  by_cases hdict : ∃ members, spec = .dict members
  · obtain ⟨members, rfl⟩ := hdict
    exact (ok_make C members).trans (and_iff_right (Or.inr ⟨members, rfl⟩)).symm
  · have hspec : maskRule C spec = (if spec.truthy then .error .typeError else makeRule C []) ∧ entries spec = [] := by
      cases spec with
      | dict members => exact absurd ⟨members, rfl⟩ hdict
      | _ => exact ⟨rfl, rfl⟩
    unfold ValidRule
    rw [hspec.1, hspec.2, ok_guard, ok_make, Bool.not_eq_true, or_iff_left hdict]

theorem ok_rules (raw : Yaml) : Ok (rules C raw) ↔ ValidRules raw := by
  refine ok_mapping ?_
  intro m
  rw [ok_bind_const (p := ValidRule m.2), ok_pdType_str]
  intro t _
  rw [ok_bind_pure, ok_maskRule]

theorem ok_combinations (raw : Yaml) : Ok (combinations raw) ↔ ValidCombinations raw := by
  refine ok_mapping ?_
  intro m
  rw [ok_bind_const (p := ValidTypeSet m.2), ok_pdType_str]
  intro t _
  rw [ok_bind_pure, ok_typeSet]

theorem ok_system (baseRules : PDType → Option MaskRule) (systemId : Str) (spec : Yaml) :
    Ok (system C baseRules systemId spec) ↔ ValidSystem spec := by
  unfold system
  rw [ok_bind]
  have hrest : ∀ members, Ok (do
      let pdTypes ← pdTypes (Yaml.get members "pd_types".toList (.str "all".toList))
      let own ← rules C (Yaml.get members "masking".toList .null)
      let combinations ← combinations (Yaml.get members "require_combination".toList .null)
      return ({
        systemId
        enabled := (Yaml.get members "enabled".toList (.bool true)).truthy
        pdTypes
        unmaskAllowed := (Yaml.get members "unmask".toList (.bool true)).truthy
        rules := mergeRules baseRules own
        combinations } : SystemPolicy)) ↔
      ValidTypes (Yaml.get members "pd_types".toList (.str "all".toList)) ∧
        ValidRules (Yaml.get members "masking".toList .null) ∧
        ValidCombinations (Yaml.get members "require_combination".toList .null) := by
    intro members
    rw [← ok_pdTypes, ← ok_rules, ← ok_combinations]
    exact ok_bind_const fun _ _ => ok_bind_const fun _ _ => ok_bind_pure
  constructor
  · rintro ⟨members, hmapping, hok⟩
    obtain ⟨hmap, rfl⟩ := mapping_eq_ok.mp hmapping
    obtain ⟨htypes, hmasking, hcombinations⟩ := (hrest _).mp hok
    exact ⟨hmap, htypes, hmasking, hcombinations⟩
  · rintro ⟨hmap, htypes, hmasking, hcombinations⟩
    exact ⟨entries spec, mapping_eq_ok.mpr ⟨hmap, rfl⟩, (hrest _).mpr ⟨htypes, hmasking, hcombinations⟩⟩

end Accepted

/-! ### What an accepted configuration says -/

section Meaning

variable (C : Containers)

/-- The rule for a type in a section `masking`. -/
def ruleOf (raw : Yaml) (t : PDType) : Option MaskRule :=
  (lastOf (entries raw) t.value).bind (fun spec => (maskRule C spec).toOption)

/-- What a type needs, in a section `require_combination`. -/
def combinationOf (raw : Yaml) (t : PDType) : Option (Finset PDType) :=
  (lastOf (entries raw) t.value).bind (fun spec => (typeSet spec).toOption)

/-- The type is among those named. -/
def Named (t : PDType) : Yaml → Prop
  | .null => True
  | .str s => s = "all".toList
  | .list items => .str t.value ∈ items
  | .dict members => t.value ∈ members.map Prod.fst
  | _ => False

/-- Pairs made one by one of the members: the last one for a key is made of the last one for its name. -/
theorem lastOf_forall₂ {α β γ δ ε : Type} [DecidableEq α] [DecidableEq γ] {g : γ → α}
    (hg : Function.Injective g) {f : α → β → Except ε δ} {ms : List (α × β)} {ps : List (γ × δ)}
    (h : List.Forall₂ (fun m p => g p.1 = m.1 ∧ f m.1 m.2 = .ok p.2) ms ps) (c : γ) :
    lastOf ps c = (lastOf ms (g c)).bind (fun b => (f (g c) b).toOption) := by
  unfold lastOf
  have hrev := List.rel_reverse h
  generalize ms.reverse = ms' at hrev ⊢
  generalize ps.reverse = ps' at hrev ⊢
  induction hrev with
  | nil => rfl
  | @cons m p ms' ps' hmp _ ih =>
    obtain ⟨hkey, hvalue⟩ := hmp
    rw [List.find?_cons, List.find?_cons]
    by_cases hc : p.1 = c
    · have hm : m.1 = g c := by rw [← hkey, hc]
      rw [decide_eq_true hc, decide_eq_true hm]
      show some p.2 = (f (g c) m.2).toOption
      rw [← hm, hvalue]
      rfl
    · have hm : m.1 ≠ g c := by
        rw [← hkey]
        exact fun heq => hc (hg heq)
      rw [decide_eq_false hc, decide_eq_false hm]
      exact ih

variable {C} in
theorem rules_eq_ok {raw : Yaml} {r : PDType → Option MaskRule} (h : rules C raw = .ok r) : r = ruleOf C raw := by
  obtain ⟨members, hmapping, h⟩ := bind_eq_ok.mp h
  obtain ⟨-, rfl⟩ := mapping_eq_ok.mp hmapping
  obtain ⟨pairs, hpairs, h⟩ := bind_eq_ok.mp h
  cases h
  funext t
  refine lastOf_forall₂ (f := fun _ => maskRule C) PDType.value_injective ((mapM_eq_ok.mp hpairs).imp ?_) t
  intro m p hm
  obtain ⟨u, hu, hm⟩ := bind_eq_ok.mp hm
  obtain ⟨rule, hrule, hm⟩ := bind_eq_ok.mp hm
  cases hm
  exact ⟨(Yaml.str.inj (pdType_eq_ok.mp hu)).symm, hrule⟩

theorem combinations_eq_ok {raw : Yaml} {c : Combinations} (h : combinations raw = .ok c) : c = combinationOf raw := by
  obtain ⟨members, hmapping, h⟩ := bind_eq_ok.mp h
  obtain ⟨-, rfl⟩ := mapping_eq_ok.mp hmapping
  obtain ⟨pairs, hpairs, h⟩ := bind_eq_ok.mp h
  cases h
  funext t
  refine lastOf_forall₂ (f := fun _ => typeSet) PDType.value_injective ((mapM_eq_ok.mp hpairs).imp ?_) t
  intro m p hm
  obtain ⟨u, hu, hm⟩ := bind_eq_ok.mp hm
  obtain ⟨types, htypes, hm⟩ := bind_eq_ok.mp hm
  cases hm
  exact ⟨(Yaml.str.inj (pdType_eq_ok.mp hu)).symm, htypes⟩

theorem mem_types {names : List Yaml} {types : List PDType} (h : List.Forall₂ (fun n t => pdType n = .ok t) names types)
    (t : PDType) : t ∈ types ↔ .str t.value ∈ names := by
  induction h with
  | nil => exact iff_of_false List.not_mem_nil List.not_mem_nil
  | @cons name u names types hu _ ih =>
    rw [pdType_eq_ok] at hu
    subst hu
    rw [List.mem_cons, List.mem_cons, ih, Yaml.str.injEq, PDType.value_injective.eq_iff]

theorem mem_typeSet {raw : Yaml} {S : Finset PDType} (h : typeSet raw = .ok S) (t : PDType) :
    ∃ names, iterate raw = .ok names ∧ (t ∈ S ↔ .str t.value ∈ names) := by
  obtain ⟨names, hnames, h⟩ := bind_eq_ok.mp h
  obtain ⟨types, htypes, h⟩ := bind_eq_ok.mp h
  cases h
  exact ⟨names, hnames, List.mem_toFinset.trans (mem_types (mapM_eq_ok.mp htypes) t)⟩

theorem mem_pdTypes {raw : Yaml} {S : Finset PDType} (h : pdTypes raw = .ok S) (t : PDType) : t ∈ S ↔ Named t raw := by
  cases raw with
  | null =>
    cases h
    exact iff_of_true (mem_ALL_PD_TYPES t) trivial
  | str s =>
    have hs : (if s = "all".toList then .ok ALL_PD_TYPES else typeSet (.str s)) = Except.ok S := h
    split_ifs at hs with hall
    · cases hs
      exact iff_of_true (mem_ALL_PD_TYPES t) hall
    · obtain ⟨names, ⟨⟩, hmem⟩ := mem_typeSet hs t
      rw [hmem]
      refine iff_of_false ?_ hall
      intro hin
      obtain ⟨c, -, hc⟩ := List.mem_map.mp hin
      exact length_value t (congrArg List.length (Yaml.str.inj hc)).symm
  | bool b => cases h
  | int n => cases h
  | list items =>
    obtain ⟨names, ⟨⟩, hmem⟩ := mem_typeSet h t
    exact hmem
  | dict members =>
    obtain ⟨names, ⟨⟩, hmem⟩ := mem_typeSet h t
    rw [hmem]
    constructor
    · intro hin
      obtain ⟨m, hm, heq⟩ := List.mem_map.mp hin
      exact List.mem_map.mpr ⟨m, hm, Yaml.str.inj heq⟩
    · intro hin
      obtain ⟨m, hm, heq⟩ := List.mem_map.mp hin
      exact List.mem_map.mpr ⟨m, hm, congrArg Yaml.str heq⟩

/-- What is read for a system. -/
structure Describes (baseRules : PDType → Option MaskRule) (spec : Yaml) (policy : SystemPolicy) : Prop where
  enabled : policy.enabled = (Yaml.get (entries spec) "enabled".toList (.bool true)).truthy
  unmask : policy.unmaskAllowed = (Yaml.get (entries spec) "unmask".toList (.bool true)).truthy
  types : ∀ t, t ∈ policy.pdTypes ↔ Named t (Yaml.get (entries spec) "pd_types".toList (.str "all".toList))
  rules : ∀ t, policy.rules t = (ruleOf C (Yaml.get (entries spec) "masking".toList .null) t).or (baseRules t)
  combinations : ∀ t, policy.combinations t = combinationOf (Yaml.get (entries spec) "require_combination".toList .null) t

variable {C} in
theorem system_eq_ok {baseRules : PDType → Option MaskRule} {systemId : Str} {spec : Yaml} {policy : SystemPolicy}
    (h : system C baseRules systemId spec = .ok policy) : policy.systemId = systemId ∧ Describes C baseRules spec policy := by
  obtain ⟨members, hmapping, h⟩ := bind_eq_ok.mp h
  obtain ⟨-, rfl⟩ := mapping_eq_ok.mp hmapping
  obtain ⟨types, htypes, h⟩ := bind_eq_ok.mp h
  obtain ⟨own, hown, h⟩ := bind_eq_ok.mp h
  obtain ⟨combos, hcombos, h⟩ := bind_eq_ok.mp h
  cases h
  obtain rfl := rules_eq_ok hown
  obtain rfl := combinations_eq_ok hcombos
  exact ⟨rfl, rfl, rfl, mem_pdTypes htypes, fun t => rfl, fun t => rfl⟩

/-- The systems of a configuration. -/
def describedSystems (data : List (Str × Yaml)) : List (Str × Yaml) := entries (Yaml.get data "systems".toList .null)

variable {C} in
/-- The common rules, and what is made of the systems. -/
theorem parsePolicies_eq_ok {data : List (Str × Yaml)} {reg : PolicyRegistry} : parsePolicies C data = .ok reg ↔
    ValidRules (Yaml.get data "masking".toList .null) ∧
      ((Yaml.get data "systems".toList .null).truthy = false ∨ ∃ ms, Yaml.get data "systems".toList .null = .dict ms) ∧
      ∃ systems, List.Forall₂ (fun m s => s.1 = m.1 ∧
          system C (ruleOf C (Yaml.get data "masking".toList .null)) m.1 m.2 = .ok s.2) (describedSystems data) systems ∧
        ∃ s, systems.find? (fun s => s.1 =
            systemName C (Yaml.get data "default_system".toList (.str "default".toList))) = some s ∧
          reg = ⟨s.1, lastOf systems⟩ := by
  have hmade : ∀ base (ms : List (Str × Yaml)) systems,
      ms.mapM (fun m => do return (m.1, ← system C base m.1 m.2)) = .ok systems ↔
        List.Forall₂ (fun m s => s.1 = m.1 ∧ system C base m.1 m.2 = .ok s.2) ms systems := by
    intro base ms systems
    rw [mapM_eq_ok]
    refine iff_of_eq (congrArg (fun r => List.Forall₂ r ms systems) ?_)
    funext m s
    refine propext ?_
    rw [bind_eq_ok]
    constructor
    · rintro ⟨policy, hpolicy, ⟨⟩⟩
      exact ⟨rfl, hpolicy⟩
    · rintro ⟨hid, hpolicy⟩
      refine ⟨s.2, hpolicy, ?_⟩
      rw [← hid]
      rfl
  unfold parsePolicies
  constructor
  · intro h
    obtain ⟨base, hbase, h1⟩ := bind_eq_ok.mp h
    obtain ⟨ms, hmapping, h2⟩ := bind_eq_ok.mp h1
    obtain ⟨hmap, rfl⟩ := mapping_eq_ok.mp hmapping
    obtain ⟨systems, hsystems, h3⟩ := bind_eq_ok.mp h2
    obtain rfl := rules_eq_ok hbase
    refine ⟨(ok_rules C _).mp ⟨_, hbase⟩, hmap, systems, (hmade _ _ _).mp hsystems, ?_⟩
    dsimp only at h3
    split at h3
    · cases h3
    · next s hs =>
      cases h3
      exact ⟨s, hs, rfl⟩
  · rintro ⟨hrules, hmap, systems, hsystems, s, hs, rfl⟩
    obtain ⟨base, hbase⟩ := (ok_rules C _).mpr hrules
    obtain rfl := rules_eq_ok hbase
    refine bind_eq_ok.mpr ⟨_, hbase, bind_eq_ok.mpr ⟨_, mapping_eq_ok.mpr ⟨hmap, rfl⟩, ?_⟩⟩
    refine bind_eq_ok.mpr ⟨systems, (hmade _ _ _).mpr hsystems, ?_⟩
    dsimp only
    rw [hs]
    rfl

section Systems

variable {baseRules : PDType → Option MaskRule} {ms : List (Str × Yaml)} {systems : List (Str × SystemPolicy)}

variable {C} in
theorem forall₂_system_ids (h : List.Forall₂ (fun m s => s.1 = m.1 ∧ system C baseRules m.1 m.2 = .ok s.2) ms systems) :
    systems.map Prod.fst = ms.map Prod.fst := by
  induction h with
  | nil => rfl
  | cons hm _ ih => rw [List.map_cons, List.map_cons, hm.1, ih]

/-- Systems that are valid can be made. -/
theorem exists_forall₂_system (baseRules : PDType → Option MaskRule) (h : ∀ m ∈ ms, ValidSystem m.2) :
    ∃ systems : List (Str × SystemPolicy),
      List.Forall₂ (fun m s => s.1 = m.1 ∧ system C baseRules m.1 m.2 = .ok s.2) ms systems := by
  induction ms with
  | nil => exact ⟨[], .nil⟩
  | cons m ms ih =>
    obtain ⟨hm, hms⟩ := List.forall_mem_cons.mp h
    obtain ⟨policy, hpolicy⟩ := (ok_system C baseRules m.1 m.2).mpr hm
    obtain ⟨systems, hsystems⟩ := ih hms
    exact ⟨(m.1, policy) :: systems, .cons ⟨rfl, hpolicy⟩ hsystems⟩

variable {C} in
theorem validSystem_of_forall₂
    (h : List.Forall₂ (fun m s => s.1 = m.1 ∧ system C baseRules m.1 m.2 = .ok s.2) ms systems) :
    ∀ m ∈ ms, ValidSystem m.2 := by
  induction h with
  | nil => exact List.forall_mem_nil _
  | cons hm _ ih => exact List.forall_mem_cons.mpr ⟨(ok_system C _ _ _).mp ⟨_, hm.2⟩, ih⟩

end Systems

theorem ok_parsePolicies (data : List (Str × Yaml)) : Ok (parsePolicies C data) ↔ ValidConfig C data := by
  constructor
  · rintro ⟨reg, h⟩
    obtain ⟨hrules, hmap, systems, hsystems, s, hs, -⟩ := parsePolicies_eq_ok.mp h
    refine ⟨hrules, ⟨hmap, validSystem_of_forall₂ hsystems⟩, ?_⟩
    have hid : s.1 ∈ (describedSystems data).map Prod.fst := by
      rw [← forall₂_system_ids hsystems]
      exact List.mem_map_of_mem (List.mem_of_find?_eq_some hs)
    obtain ⟨m, hm, hms⟩ := List.mem_map.mp hid
    refine ⟨m, hm, ?_⟩
    have hdefault := List.find?_some hs
    rw [hms]
    exact of_decide_eq_true hdefault
  · rintro ⟨hrules, ⟨hmap, hvalid⟩, m, hm, hdefault⟩
    obtain ⟨systems, hsystems⟩ := exists_forall₂_system C (ruleOf C (Yaml.get data "masking".toList .null)) hvalid
    have hid : m.1 ∈ systems.map Prod.fst := by
      rw [forall₂_system_ids hsystems]
      exact List.mem_map_of_mem hm
    obtain ⟨s, hs, hsm⟩ := List.mem_map.mp hid
    have hfound : (systems.find? (fun s => s.1 =
        systemName C (Yaml.get data "default_system".toList (.str "default".toList)))).isSome = true := by
      refine List.find?_isSome.mpr ⟨s, hs, decide_eq_true ?_⟩
      rw [hsm]
      exact hdefault
    obtain ⟨s', hs'⟩ := Option.isSome_iff_exists.mp hfound
    exact ⟨_, parsePolicies_eq_ok.mpr ⟨hrules, hmap, systems, hsystems, s', hs', rfl⟩⟩

/-- **Which configurations the service starts with, and what they say.**  A configuration is accepted when every name
in it that stands for a type, and every strategy, exists, every rule has known fields with a mask of length one and
no negative number of kept characters, and the default system is described.  Then a request gets the settings that are
described under its id, or under the default one, if they are enabled: the types named there, or all; its own rule
for a type, or else the common one; and the combinations. -/
theorem parse_policies_law (data : List (Str × Yaml)) :
    (Ok (parsePolicies C data) ↔ ValidConfig C data) ∧
    ∀ reg, parsePolicies C data = .ok reg →
      reg.defaultSystem = systemName C (Yaml.get data "default_system".toList (.str "default".toList)) ∧
      (∃ policy, reg.systems reg.defaultSystem = some policy) ∧
      ∀ header policy, reg.resolve header = some policy →
        policy.systemId = (if header.getD [] = [] then reg.defaultSystem else header.getD []) ∧ policy.enabled = true ∧
        ∃ spec, lastOf (describedSystems data) policy.systemId = some spec ∧
          Describes C (ruleOf C (Yaml.get data "masking".toList .null)) spec policy := by
  refine ⟨ok_parsePolicies C data, ?_⟩
  intro reg h
  obtain ⟨-, -, systems, hsystems, s, hs, rfl⟩ := parsePolicies_eq_ok.mp h
  have hfound : ∀ id, lastOf systems id = (lastOf (describedSystems data) id).bind
      (fun spec => (system C (ruleOf C (Yaml.get data "masking".toList .null)) id spec).toOption) :=
    lastOf_forall₂ (g := id) Function.injective_id hsystems
  have hmade : ∀ id policy, lastOf systems id = some policy → policy.systemId = id ∧
      ∃ spec, lastOf (describedSystems data) id = some spec ∧
        Describes C (ruleOf C (Yaml.get data "masking".toList .null)) spec policy := by
    intro id policy hpolicy
    rw [hfound] at hpolicy
    obtain ⟨spec, hspec, hpolicy⟩ := Option.bind_eq_some_iff.mp hpolicy
    rcases hsystem : system C (ruleOf C (Yaml.get data "masking".toList .null)) id spec with e | policy'
    · rw [hsystem] at hpolicy
      cases hpolicy
    · rw [hsystem] at hpolicy
      cases hpolicy
      obtain ⟨hid, hdescribes⟩ := system_eq_ok hsystem
      exact ⟨hid, spec, hspec, hdescribes⟩
  have hdefault := List.find?_some hs
  refine ⟨of_decide_eq_true hdefault, ?_, ?_⟩
  · have hsome : (systems.reverse.find? (fun p => p.1 = s.1)).isSome = true :=
      List.find?_isSome.mpr ⟨s, List.mem_reverse.mpr (List.mem_of_find?_eq_some hs), decide_eq_true rfl⟩
    obtain ⟨p, hp⟩ := Option.isSome_iff_exists.mp hsome
    exact ⟨p.2, congrArg (Option.map Prod.snd) hp⟩
  · intro header policy hresolve
    obtain ⟨henabled, -⟩ := PolicyRegistry.resolve_enabled hresolve
    have hsystem : lastOf systems (if header.getD [] = [] then s.1 else header.getD []) = some policy := by
      unfold PolicyRegistry.resolve at hresolve
      dsimp only at hresolve
      split at hresolve
      · cases hresolve
      · next found hkey =>
        split_ifs at hresolve
        cases hresolve
        exact hkey
    obtain ⟨hid, spec, hspec, hdescribes⟩ := hmade _ _ hsystem
    rw [← hid] at hspec
    exact ⟨hid, henabled, spec, hspec, hdescribes⟩

end Meaning

/-! ### The deployed configuration -/

/-- A section in which the types have a strategy and nothing else. -/
def masked (strategy : String) (names : List String) : Yaml :=
  .dict (names.map (fun name => (name.toList, .dict [("strategy".toList, .str strategy.toList)])))

/-- `config/systems.yaml` -/
def deployedConfig : List (Str × Yaml) :=
  [("default_system".toList, .str "default".toList),
    ("masking".toList, masked "full" ["fio", "card_holder", "passport", "driver_license", "foreign_passport",
      "military_id", "birth_certificate", "snils", "inn", "phone", "card_number", "department_code", "email", "cvv",
      "pin", "card_expiry", "birth_date", "passport_issue_date", "date", "birth_place", "citizenship",
      "passport_issuer", "address"]),
    ("systems".toList, .dict
      [("default".toList, .dict
        [("enabled".toList, .bool true), ("pd_types".toList, .str "all".toList), ("unmask".toList, .bool true)]),
      ("support-bot".toList, .dict
        [("enabled".toList, .bool true),
          ("pd_types".toList, .list (["fio", "phone", "email", "card_number", "cvv", "pin", "card_holder",
            "card_expiry", "address"].map (fun name => .str name.toList))),
          ("unmask".toList, .bool true), ("masking".toList, masked "token" ["fio", "phone", "email"]),
          ("require_combination".toList, .dict
            [("pin".toList, .list [.str "card_number".toList]), ("cvv".toList, .list [.str "card_number".toList])])]),
      ("analytics".toList, .dict
        [("enabled".toList, .bool true), ("pd_types".toList, .str "all".toList), ("unmask".toList, .bool false),
          ("masking".toList, masked "synthetic" ["fio", "phone", "card_number"])]),
      ("llm-demo".toList, .dict
        [("enabled".toList, .bool true), ("pd_types".toList, .str "all".toList), ("unmask".toList, .bool true),
          ("masking".toList, masked "token" ["fio", "birth_date", "birth_place", "passport", "citizenship",
            "passport_issuer", "department_code", "passport_issue_date", "driver_license", "address", "email", "phone",
            "inn", "card_number", "cvv", "pin", "card_holder", "card_expiry", "date", "snils", "foreign_passport",
            "military_id", "birth_certificate"])]),
      ("legacy-crm".toList, .dict [("enabled".toList, .bool false)])])]

/-- Lists and mappings rendered as nothing. -/
def plainContainers : Containers := ⟨fun _ => [], fun _ => '*'⟩

theorem parse_policies_law_deployed :
    ∃ reg, parsePolicies plainContainers deployedConfig = .ok reg ∧ ValidConfig plainContainers deployedConfig ∧
      ∃ policy, reg.systems reg.defaultSystem = some policy := by
  have hsome : (parsePolicies plainContainers deployedConfig).toOption.isSome = true := rfl
  obtain ⟨hvalid, hmeaning⟩ := parse_policies_law plainContainers deployedConfig
  rcases hparse : parsePolicies plainContainers deployedConfig with e | reg
  · rw [hparse] at hsome
    cases hsome
  · exact ⟨reg, rfl, hvalid.mp ⟨reg, hparse⟩, (hmeaning reg hparse).2.1⟩

/-- What a system is told by its settings. -/
def view (policy : SystemPolicy) :
    Str × Bool × List Bool × Bool × List (Option MaskRule) × List (Option (Finset PDType)) :=
  (policy.systemId, policy.enabled, PDType.all.map (fun t => decide (t ∈ policy.pdTypes)), policy.unmaskAllowed,
    PDType.all.map policy.rules, PDType.all.map policy.combinations)

example : (parsePolicies plainContainers deployedConfig).toOption.map
    (fun reg => [none, some "support-bot".toList, some "analytics".toList, some "llm-demo".toList,
      some "legacy-crm".toList].map (fun header => (reg.resolve header).map view)) =
    some [some (view systems.default), some (view systems.supportBot), some (view systems.analytics),
      some (view systems.llmDemo), none] := rfl

end Policies

end PdMasking
