import PdMasking.Detectors.FinanceContacts
import PdMasking.Processor

/-!
# PdMasking.Config — the deployed systems (`config/systems.yaml`) and a service to run examples on

`sample` is a service whose only detector is `ContactDetector`; its digests are those of HMAC-SHA256 under
the secret `secret` on the values that the examples mask by a token.
-/

namespace PdMasking

/-- `ALL_PD_TYPES`. -/
def ALL_PD_TYPES : Finset PDType :=
  {.fio, .birthDate, .birthPlace, .passport, .citizenship, .passportIssuer, .departmentCode, .passportIssueDate,
    .driverLicense, .address, .email, .phone, .inn, .cardNumber, .cardCvv, .cardPin, .cardHolder, .cardExpiry,
    .date, .snils, .foreignPassport, .militaryId, .birthCertificate}

theorem mem_ALL_PD_TYPES (t : PDType) : t ∈ ALL_PD_TYPES := by
  cases t <;> decide

/-- `{**base_rules, **rules}`. -/
def mergeRules (base rules : PDType → Option MaskRule) (t : PDType) : Option MaskRule := (rules t).or (base t)

/-- The top-level `masking` section: every type `{strategy: full}`. -/
def baseRules : PDType → Option MaskRule := fun _ => some defaultRule

def tokenRule : MaskRule := { defaultRule with strategy := .token }

def syntheticRule : MaskRule := { defaultRule with strategy := .synthetic }

namespace systems

/-- The system `default`. -/
def default : SystemPolicy where
  systemId := "default".toList
  enabled := true
  pdTypes := ALL_PD_TYPES
  unmaskAllowed := true
  rules := baseRules
  combinations := fun _ => none

/-- The system `support-bot`. -/
def supportBot : SystemPolicy where
  systemId := "support-bot".toList
  enabled := true
  pdTypes := {.fio, .phone, .email, .cardNumber, .cardCvv, .cardPin, .cardHolder, .cardExpiry, .address}
  unmaskAllowed := true
  rules := mergeRules baseRules (fun t =>
    if t ∈ ({.fio, .phone, .email} : Finset PDType) then some tokenRule else none)
  combinations := fun t => if t = .cardPin ∨ t = .cardCvv then some {.cardNumber} else none

/-- The system `analytics`. -/
def analytics : SystemPolicy where
  systemId := "analytics".toList
  enabled := true
  pdTypes := ALL_PD_TYPES
  unmaskAllowed := false
  rules := mergeRules baseRules (fun t =>
    if t ∈ ({.fio, .phone, .cardNumber} : Finset PDType) then some syntheticRule else none)
  combinations := fun _ => none

/-- The system `llm-demo`. -/
def llmDemo : SystemPolicy where
  systemId := "llm-demo".toList
  enabled := true
  pdTypes := ALL_PD_TYPES
  unmaskAllowed := true
  rules := mergeRules baseRules (fun _ => some tokenRule)
  combinations := fun _ => none

end systems

/-! ### A service for examples -/

/-- The digest of the values that the examples turn into tokens. -/
def sampleDigest (value : Str) : Str :=
  if value = "email:a@b.ru".toList then
    "4011b794088ce5a96fd3dd878e2b800bf8361641d0c8a3453250601e99c02fa3".toList
  else if value = "email:c@d.ru".toList then
    "efe04d500f89b4982ab551aba972a6cf1f476d1f743ff44e45cbe8e07b12453b".toList
  else List.replicate 64 '0'

def sampleMasker : Masker where
  hexdigest := sampleDigest
  length_hexdigest v := by
    unfold sampleDigest
    split_ifs <;> rfl
  hexdigest_hex v := by
    unfold sampleDigest
    split_ifs <;> decide

def sample : Processor := ⟨Runtime.basic, ⟨[ContactDetector Runtime.basic]⟩, sampleMasker⟩

end PdMasking
