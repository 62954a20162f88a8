import PdMasking.Engine
import PdMasking.Masking

/-!
# PdMasking.Policy — the settings of a consumer system (`core/policy.py`)
-/

namespace PdMasking

/-- `SystemPolicy`. -/
structure SystemPolicy where
  systemId : Str
  enabled : Bool
  pdTypes : Finset PDType
  unmaskAllowed : Bool
  rules : PDType → Option MaskRule
  combinations : Combinations

/-- `PolicyRegistry`; `systems` is the mapping from system ids. -/
structure PolicyRegistry where
  defaultSystem : Str
  systems : Str → Option SystemPolicy

/-- `PolicyRegistry.resolve`; `none` stands for `SystemNotAllowedError`. -/
def PolicyRegistry.resolve (reg : PolicyRegistry) (systemId : Option Str) : Option SystemPolicy :=
  let key := if systemId.getD [] = [] then reg.defaultSystem else systemId.getD []
  match reg.systems key with
  | none => none
  | some policy => if policy.enabled then some policy else none

/-- Only a registered system that is enabled gets a policy. -/
theorem PolicyRegistry.resolve_enabled {reg : PolicyRegistry} {systemId : Option Str} {policy : SystemPolicy}
    (h : reg.resolve systemId = some policy) : policy.enabled = true ∧ ∃ key, reg.systems key = some policy := by
  unfold PolicyRegistry.resolve at h
  dsimp only at h
  split at h
  · cases h
  · rename_i found hfound
    split_ifs at h with henabled
    obtain rfl := Option.some.inj h
    exact ⟨henabled, _, hfound⟩

end PdMasking
