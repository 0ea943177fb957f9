import Optic.Records.Definition
import Optic.Records.Source
import Optic.Rust.Distinct

open rust

namespace optic.records

/-- Complete pairs of the reverse-hexadecimal digits `k` through `z`. -/
def reverse_hex.is_canonical (value : String) : Bool :=
  (text value).length % 2 = 0 && (text value).all fun digit => ascii 'k' ≤ digit && digit ≤ ascii 'z'

/-- The text of a capture ID: 16 bytes in reverse hexadecimal. -/
def CaptureId.Canonical (value : String) : Prop :=
  (text value).length = 32 ∧ reverse_hex.is_canonical value = true

instance (value : String) : Decidable (CaptureId.Canonical value) := inferInstanceAs (Decidable (_ ∧ _))

/-- An opaque, immutable identifier for all evidence from one capture. -/
structure CaptureId where
  value : String
  canonical : CaptureId.Canonical value
deriving DecidableEq

def CaptureId.parse (value : String) : Except Error CaptureId :=
  if h : CaptureId.Canonical value then .ok ⟨value, h⟩ else .error (.InvalidCaptureId value)

theorem CaptureId.parse_value (id : CaptureId) : CaptureId.parse id.value = .ok id := dif_pos id.canonical

theorem CaptureId.parse_eq_ok_iff {value : String} {id : CaptureId} : CaptureId.parse value = .ok id ↔ value = id.value := by
  constructor
  · intro h
    unfold CaptureId.parse at h
    split at h <;> cases h
    rfl
  · rintro rfl
    exact id.parse_value

theorem CaptureId.value_inj {id other : CaptureId} : id.value = other.value ↔ id = other := by
  cases id
  cases other
  simp

/-- A full capture ID and a zero-based instance ordinal. -/
structure InstanceRef where
  capture_id : CaptureId
  ordinal : UInt64
deriving DecidableEq

/-- One concrete function instance selected for code generation. -/
structure InstanceRecord where
  definition : DefinitionRecord
  display_name : String
  raw_symbol : String
  placements : List PlacementRecord
  source : SourceAvailability
  display_named : display_name ≠ ""
  symbol_named : raw_symbol ≠ ""
  placed : placements ≠ []
  units_distinct : (placements.map PlacementRecord.codegen_unit).Nodup

/-- Rejects an instance without placements, or with two in one codegen unit. -/
def require_placements (placements : List PlacementRecord) : Except Error Unit :=
  if placements = [] then .error (.InvalidField "instance placements" "an empty list")
  else each_distinct (same_key PlacementRecord.codegen_unit)
    (fun placement => .InvalidField "instance placements" s!"a duplicate codegen unit ({placement.codegen_unit})")
    (fun _ => .ok ()) [] placements

theorem require_placements_eq_ok_iff {placements : List PlacementRecord} :
    require_placements placements = .ok () ↔
      placements ≠ [] ∧ (placements.map PlacementRecord.codegen_unit).Nodup := by
  by_cases h : placements = []
  · simp [require_placements, h]
  · rw [require_placements, if_neg h, each_distinct_key_eq_ok_iff]
    simp [h]

def InstanceRecord.new (definition : DefinitionRecord) (display_name raw_symbol : String)
    (placements : List PlacementRecord) (source : SourceAvailability) : Except Error InstanceRecord := do
  let ⟨display_named⟩ ← require_text "instance display name" display_name
  let ⟨symbol_named⟩ ← require_text "instance raw symbol" raw_symbol
  let ⟨valid⟩ ← proven (require_placements placements)
  return { definition, display_name, raw_symbol, placements, source, display_named, symbol_named,
           placed := (require_placements_eq_ok_iff.mp valid).1,
           units_distinct := (require_placements_eq_ok_iff.mp valid).2 }

/-- The constructor rejects empty names, missing placements and repeated codegen units, and
stores what it is given. -/
theorem InstanceRecord.new_eq_ok_iff {definition : DefinitionRecord} {display_name raw_symbol : String}
    {placements : List PlacementRecord} {source : SourceAvailability} {record : InstanceRecord} :
    InstanceRecord.new definition display_name raw_symbol placements source = .ok record ↔
      record.definition = definition ∧ record.display_name = display_name ∧ record.raw_symbol = raw_symbol ∧
        record.placements = placements ∧ record.source = source := by
  constructor
  · intro h
    simp only [InstanceRecord.new, bind_eq_ok_iff] at h
    obtain ⟨_, _, _, _, _, _, h⟩ := h
    cases h
    exact ⟨rfl, rfl, rfl, rfl, rfl⟩
  · rintro ⟨rfl, rfl, rfl, rfl, rfl⟩
    rw [InstanceRecord.new, require_text_ok record.display_named]
    change (require_text _ record.raw_symbol >>= _) = _
    rw [require_text_ok record.symbol_named]
    change (proven (require_placements record.placements) >>= _) = _
    rw [proven_ok (require_placements_eq_ok_iff.mpr ⟨record.placed, record.units_distinct⟩)]
    rfl

end optic.records
