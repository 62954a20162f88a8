import Mathlib.Data.Finset.Basic
import PdMasking.Python

/-!
# PdMasking.Entities — the types of personal data and the entity found in a text (`core/entities.py`)

`Entity` carries what `make_entity` guarantees: at least one part, every part non-empty, parts in increasing
order.  The hull `[start, stop)` runs from the first part to the last one.
-/

namespace PdMasking

/-- The members of `PDType`. -/
inductive PDType
  | fio | birthDate | birthPlace | passport | citizenship | passportIssuer | departmentCode | passportIssueDate
  | driverLicense | address | email | phone | inn | cardNumber | cardCvv | cardPin | cardHolder | cardExpiry
  | date | snils | foreignPassport | militaryId | birthCertificate
  deriving DecidableEq, Repr

/-- `PDType(...).value`. -/
def PDType.value : PDType → Str
  | fio => "fio".toList
  | birthDate => "birth_date".toList
  | birthPlace => "birth_place".toList
  | passport => "passport".toList
  | citizenship => "citizenship".toList
  | passportIssuer => "passport_issuer".toList
  | departmentCode => "department_code".toList
  | passportIssueDate => "passport_issue_date".toList
  | driverLicense => "driver_license".toList
  | address => "address".toList
  | email => "email".toList
  | phone => "phone".toList
  | inn => "inn".toList
  | cardNumber => "card_number".toList
  | cardCvv => "cvv".toList
  | cardPin => "pin".toList
  | cardHolder => "card_holder".toList
  | cardExpiry => "card_expiry".toList
  | date => "date".toList
  | snils => "snils".toList
  | foreignPassport => "foreign_passport".toList
  | militaryId => "military_id".toList
  | birthCertificate => "birth_certificate".toList

/-- The order of Python tuples `(start, end)`. -/
def partLe (p q : ℕ × ℕ) : Prop := p.1 < q.1 ∨ (p.1 = q.1 ∧ p.2 ≤ q.2)

instance : DecidableRel partLe := fun _ _ => inferInstanceAs (Decidable (_ ∨ _))

/-- A found fragment of personal data; `parts` are the intervals that are really masked. -/
structure Entity where
  pdType : PDType
  parts : List (ℕ × ℕ)
  priority : ℤ
  requiresAny : Finset PDType
  parts_ne : parts ≠ []
  parts_pos : ∀ p ∈ parts, p.1 < p.2
  parts_sorted : parts.Pairwise partLe

namespace Entity

variable (e : Entity)

def start : ℕ := (e.parts.head e.parts_ne).1

/-- The source's `end`. -/
def stop : ℕ := (e.parts.getLast e.parts_ne).2

def length : ℕ := e.stop - e.start

def overlaps (other : Entity) : Prop := e.start < other.stop ∧ other.start < e.stop

instance (other : Entity) : Decidable (e.overlaps other) := inferInstanceAs (Decidable (_ ∧ _))

/-- Every part starts inside the hull. -/
theorem start_le_part {p : ℕ × ℕ} (hp : p ∈ e.parts) : e.start ≤ p.1 := by
  have hs := e.parts_sorted
  obtain ⟨q, qs, hq⟩ := List.exists_cons_of_ne_nil e.parts_ne
  simp only [start, hq, List.head_cons]
  rw [hq, List.pairwise_cons] at hs
  rw [hq] at hp
  rcases List.mem_cons.mp hp with rfl | hp
  · exact le_rfl
  · rcases hs.1 p hp with h | h
    · exact h.le
    · exact h.1.le

theorem start_lt_stop : e.start < e.stop :=
  lt_of_le_of_lt (e.start_le_part (List.getLast_mem e.parts_ne)) (e.parts_pos _ (List.getLast_mem e.parts_ne))

end Entity

theorem partLe_total (p q : ℕ × ℕ) : partLe p q ∨ partLe q p := by
  unfold partLe
  omega

theorem partLe_trans {p q r : ℕ × ℕ} (h : partLe p q) (h' : partLe q r) : partLe p r := by
  unfold partLe at *
  omega

/-- `make_entity`: the empty intervals are dropped and the rest sorted; `none` when nothing is left to mask. -/
def makeEntity (pdType : PDType) (parts : List (ℕ × ℕ)) (priority : ℤ) (requiresAny : Finset PDType) :
    Option Entity :=
  let clean := (parts.filter (fun p => p.1 < p.2)).insertionSort partLe
  if h : clean = [] then none
  else some
    { pdType, parts := clean, priority, requiresAny
      parts_ne := h
      parts_pos := fun p hp => by
        have hp' := (List.mem_insertionSort partLe).mp hp
        simpa using (List.mem_filter.mp hp').2
      parts_sorted := by
        have := Std.Total.mk partLe_total
        have : IsTrans (ℕ × ℕ) partLe := ⟨fun _ _ _ => partLe_trans⟩
        exact List.pairwise_insertionSort partLe _ }

theorem fields_of_makeEntity {pdType : PDType} {parts : List (ℕ × ℕ)} {priority : ℤ} {requiresAny : Finset PDType}
    {e : Entity} (h : makeEntity pdType parts priority requiresAny = some e) :
    e.pdType = pdType ∧ e.priority = priority ∧ e.requiresAny = requiresAny := by
  unfold makeEntity at h
  dsimp only at h
  split_ifs at h
  obtain rfl := Option.some.inj h
  exact ⟨rfl, rfl, rfl⟩

/-- The parts are the non-empty intervals given. -/
theorem mem_parts_of_makeEntity {pdType : PDType} {parts : List (ℕ × ℕ)} {priority : ℤ}
    {requiresAny : Finset PDType} {e : Entity} (h : makeEntity pdType parts priority requiresAny = some e)
    {p : ℕ × ℕ} :
    p ∈ e.parts ↔ p ∈ parts ∧ p.1 < p.2 := by
  unfold makeEntity at h
  dsimp only at h
  split_ifs at h
  obtain rfl := Option.some.inj h
  rw [List.mem_insertionSort, List.mem_filter]
  simp

/-- Each of them is a part once. -/
theorem parts_perm_of_makeEntity {pdType : PDType} {parts : List (ℕ × ℕ)} {priority : ℤ}
    {requiresAny : Finset PDType} {e : Entity} (h : makeEntity pdType parts priority requiresAny = some e) :
    e.parts.Perm (parts.filter (fun p => p.1 < p.2)) := by
  unfold makeEntity at h
  dsimp only at h
  split_ifs at h
  obtain rfl := Option.some.inj h
  exact List.perm_insertionSort partLe _

/-- One interval that is not empty makes an entity. -/
theorem makeEntity_span (pdType : PDType) {a b : ℕ} (priority : ℤ) (requiresAny : Finset PDType) (h : a < b) :
    ∃ e, makeEntity pdType [(a, b)] priority requiresAny = some e ∧ e.parts = [(a, b)] := by
  have hclean : ([(a, b)].filter (fun p => p.1 < p.2)).insertionSort partLe = [(a, b)] := by
    simp [h]
  unfold makeEntity
  dsimp only
  rw [dif_neg (by rw [hclean]; exact List.cons_ne_nil _ _)]
  exact ⟨_, rfl, hclean⟩

theorem start_of_parts {e : Entity} {a b : ℕ} (h : e.parts = [(a, b)]) : e.start = a := by simp [Entity.start, h]

theorem stop_of_parts {e : Entity} {a b : ℕ} (h : e.parts = [(a, b)]) : e.stop = b := by simp [Entity.stop, h]

end PdMasking
