import Optic.Compiler.Protocol
import Optic.Records.CargoArtifact

open rust optic.records optic.compiler.protocol

namespace optic.compiler

def invalid_environment (message : String) : Error := .CompilerEnvironment (.plain message)

variable {M : CargoSchema}

/-- What one Cargo run reported of the selected target, and how it ended. -/
structure CargoObservation (M : CargoSchema) where
  selected : List (Artifact M) := []
  finished : List Bool := []
  has_errors : Bool := false

/-- Whether an artifact is one of the prepared package and target. -/
def is_selected (artifact : Artifact M) (package : String) (target : Target M) : Bool :=
  let kinds := (SortOrder.linear M.Kind).sort artifact.target.kind
  let expected_kinds := (SortOrder.linear M.Kind).sort target.kind
  artifact.package_id = package && artifact.target.name = target.name && kinds = expected_kinds

namespace CargoObservation

def record (self : CargoObservation M) (artifact : Artifact M) (package : String) (target : Target M) :
    CargoObservation M :=
  if is_selected artifact package target then { self with selected := self.selected ++ [artifact] } else self

/-- The prepared target, with its unordered lists sorted. -/
def expected_target (target : Target M) : Target M :=
  { target with
    kind := (SortOrder.linear M.Kind).sort target.kind
    crate_types := (SortOrder.linear M.CrateType).sort target.crate_types
    required_features := text_order.sort target.required_features }

/-- The selected artifact, if there is exactly one. -/
def only_selected (self : CargoObservation M) : Except Error (Artifact M) :=
  match self.selected with
  | [artifact] => .ok artifact
  | selected => .error (invalid_environment s!"Cargo requires one matching selected artifact, got {selected.length}")

/-- Checks completion and the prepared target's identity, and normalizes the selected observation. -/
def completed (self : CargoObservation M) (target : Target M) (fresh : Bool) : Except Error (CargoArtifactRecord M) := do
  ensure (!(self.finished ≠ [true] || self.has_errors))
    (invalid_environment ("successful Cargo completion requires one successful build-finished message " ++
      "and no compiler errors"))
  let artifact ← self.only_selected
  ensure (artifact.fresh = fresh)
    (invalid_environment s!"selected artifact freshness must be {fresh}, got {artifact.fresh}")
  let record ← (CargoArtifactRecord.new artifact).mapError .Record
  ensure (record.artifact.target == expected_target target)
    (invalid_environment
      "selected artifact must match the prepared Cargo target, got a conflicting target")
  return record

end CargoObservation

end optic.compiler
