import Optic.Records.Error

open rust

namespace optic.records

/-- The definition from which rustc instantiated a function. -/
structure DefinitionRecord where
  crate_name : String
  definition_path : String
  crate_named : crate_name ≠ ""
  path_named : definition_path ≠ ""

instance : DecidableEq DefinitionRecord := fun a b =>
  decidable_of_iff (a.crate_name = b.crate_name ∧ a.definition_path = b.definition_path) (by
    cases a
    cases b
    simp)

def DefinitionRecord.new (crate_name definition_path : String) : Except Error DefinitionRecord := do
  let ⟨crate_named⟩ ← require_text "definition crate name" crate_name
  let ⟨path_named⟩ ← require_text "definition path" definition_path
  return { crate_name, definition_path, crate_named, path_named }

theorem DefinitionRecord.new_eq_ok_iff {crate_name definition_path : String} {record : DefinitionRecord} :
    DefinitionRecord.new crate_name definition_path = .ok record ↔
      record.crate_name = crate_name ∧ record.definition_path = definition_path := by
  constructor
  · intro h
    simp only [DefinitionRecord.new, bind_eq_ok_iff] at h
    obtain ⟨_, _, _, _, h⟩ := h
    cases h
    exact ⟨rfl, rfl⟩
  · rintro ⟨rfl, rfl⟩
    rw [DefinitionRecord.new, require_text_ok record.crate_named]
    change (require_text _ record.definition_path >>= _) = _
    rw [require_text_ok record.path_named]
    rfl

/-- One placement of an instance in a rustc codegen unit. -/
structure PlacementRecord where
  codegen_unit : String
  linkage : String
  visibility : String
  local_copy : Bool
  size_estimate : UInt64
  unit_named : codegen_unit ≠ ""
  linkage_named : linkage ≠ ""
  visibility_named : visibility ≠ ""

def PlacementRecord.new (codegen_unit linkage visibility : String) (local_copy : Bool) (size_estimate : UInt64) :
    Except Error PlacementRecord := do
  let ⟨unit_named⟩ ← require_text "codegen unit" codegen_unit
  let ⟨linkage_named⟩ ← require_text "placement linkage" linkage
  let ⟨visibility_named⟩ ← require_text "placement visibility" visibility
  return { codegen_unit, linkage, visibility, local_copy, size_estimate, unit_named, linkage_named, visibility_named }

theorem PlacementRecord.new_eq_ok_iff {codegen_unit linkage visibility : String} {local_copy : Bool}
    {size_estimate : UInt64} {record : PlacementRecord} :
    PlacementRecord.new codegen_unit linkage visibility local_copy size_estimate = .ok record ↔
      record.codegen_unit = codegen_unit ∧ record.linkage = linkage ∧ record.visibility = visibility ∧
        record.local_copy = local_copy ∧ record.size_estimate = size_estimate := by
  constructor
  · intro h
    simp only [PlacementRecord.new, bind_eq_ok_iff] at h
    obtain ⟨_, _, _, _, _, _, h⟩ := h
    cases h
    exact ⟨rfl, rfl, rfl, rfl, rfl⟩
  · rintro ⟨rfl, rfl, rfl, rfl, rfl⟩
    rw [PlacementRecord.new, require_text_ok record.unit_named]
    change (require_text _ record.linkage >>= _) = _
    rw [require_text_ok record.linkage_named]
    change (require_text _ record.visibility >>= _) = _
    rw [require_text_ok record.visibility_named]
    rfl

end optic.records
