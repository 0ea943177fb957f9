import Mathlib.Data.List.Forall2
import Optic.Records.Manifest

open rust optic.records

namespace optic.compiler

/-- The text of a message, and what the standard library renders behind it. -/
inductive Message where
  | plain (text : String)
  | debug (text value : String)
  | debug_option (text : String) (value : Option String)
  | invalid_utf8 (text : String) (bytes : List UInt8)
deriving DecidableEq, Repr

/-- Why compiler evidence could not be produced. -/
inductive Error where
  | CompilerEnvironment (message : Message)
  | Filesystem (operation : String) (path : PathBuf) (source : IoError)
  | InvalidManifest (path : PathBuf) (message : Message)
  | StartProcess (program : PathBuf) (source : IoError)
  | ProcessFailed (program : PathBuf) (status : String) (diagnostics : Option String)
  | Record (source : records.Error)
  | panicked (message : String)
deriving DecidableEq, Repr

/-- What the placements of one instance agree on. -/
structure InstanceKey where
  definition_crate : String
  definition_path : String
  display_name : String
  raw_symbol : String
deriving DecidableEq, Repr

namespace InstanceKey

def texts (self : InstanceKey) : List String :=
  [self.definition_crate, self.definition_path, self.display_name, self.raw_symbol]

theorem texts_injective {a b : InstanceKey} (h : a.texts = b.texts) : a = b := by
  cases a
  cases b
  simpa [texts] using h

/-- Keys are ordered by their fields, one after the other. -/
instance : Ord InstanceKey where
  compare a b := compare a.texts b.texts

instance : Std.TransOrd InstanceKey where
  eq_swap {a b} := Std.OrientedOrd.eq_swap (a := a.texts) (b := b.texts)
  isLE_trans {a b c} := Std.TransOrd.isLE_trans (a := a.texts) (b := b.texts) (c := c.texts)

instance : Std.LawfulEqOrd InstanceKey where
  eq_of_compare h := texts_injective (Std.LawfulEqOrd.eq_of_compare h)

end InstanceKey

/-- The key of a grouped instance. -/
def instance_key (instance_ : InstanceRecord) : InstanceKey where
  definition_crate := instance_.definition.crate_name
  definition_path := instance_.definition.definition_path
  display_name := instance_.display_name
  raw_symbol := instance_.raw_symbol

/-- Private transport metadata. -/
structure Configuration where
  backend : String
  target : String
  optimization : String
  lto : LlvmLto
  incremental : Bool
  linker_plugin : Bool
  codegen_units : UInt32
  unsupported : Option UnsupportedLlvmConfiguration
deriving DecidableEq, Repr

/-- A regular codegen unit whose optimized bitcode must exist after compilation. -/
structure ExpectedModule where
  name : String
  path : PathBuf
deriving DecidableEq, Repr

/-- The driver's complete transport result. -/
structure CompilerManifest where
  instances : List InstanceRecord
  artifacts : List ArtifactRecord
  configuration : Configuration
  modules : List ExpectedModule

structure InstancePlacements where
  placements : List PlacementRecord
  /-- All placements under one key agree on this relationship. -/
  source : SourceAvailability

abbrev PlacementsByInstance := Std.TreeMap InstanceKey InstancePlacements

/-- The record of one group of placements. -/
def assemble_instance (group : InstanceKey × InstancePlacements) : Except records.Error InstanceRecord := do
  let definition ← DefinitionRecord.new group.1.definition_crate group.1.definition_path
  InstanceRecord.new definition group.1.display_name group.1.raw_symbol group.2.placements group.2.source

/-- Passes each group, in the order of the keys, through the record constructors. -/
def assemble_instances (placements : PlacementsByInstance) : Except Error (List InstanceRecord) :=
  (placements.toList.mapM assemble_instance).mapError .Record

/-- The record of a group has its key, its placements and its source. -/
theorem assemble_instance_eq_ok_iff {group : InstanceKey × InstancePlacements} {record : InstanceRecord} :
    assemble_instance group = .ok record ↔
      instance_key record = group.1 ∧ record.placements = group.2.placements ∧ record.source = group.2.source := by
  obtain ⟨⟨crate, path, display, symbol⟩, placements, source⟩ := group
  simp only [assemble_instance, bind_eq_ok_iff, DefinitionRecord.new_eq_ok_iff, InstanceRecord.new_eq_ok_iff,
    instance_key, InstanceKey.mk.injEq]
  constructor
  · rintro ⟨definition, ⟨rfl, rfl⟩, rfl, rfl, rfl, rfl, rfl⟩
    exact ⟨⟨rfl, rfl, rfl, rfl⟩, rfl, rfl⟩
  · rintro ⟨⟨rfl, rfl, rfl, rfl⟩, rfl, rfl⟩
    exact ⟨record.definition, ⟨rfl, rfl⟩, rfl, rfl, rfl, rfl, rfl⟩

theorem assemble_instances_eq_ok_iff {placements : PlacementsByInstance} {instances : List InstanceRecord} :
    assemble_instances placements = .ok instances ↔
      List.Forall₂ (fun group record => instance_key record = group.1 ∧ record.placements = group.2.placements ∧
        record.source = group.2.source) placements.toList instances := by
  have hmap : assemble_instances placements = .ok instances ↔
      placements.toList.mapM assemble_instance = .ok instances := by
    rw [assemble_instances]
    cases placements.toList.mapM assemble_instance with
    | ok value => simp [Except.mapError]
    | error error => simp [Except.mapError]
  rw [hmap, mapM_eq_ok_iff]
  simp only [assemble_instance_eq_ok_iff]

end optic.compiler
