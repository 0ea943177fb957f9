import Optic.Evidence.Evidence

open rust file_system optic.records optic.store optic.queries

namespace optic.cli

/-- Why an operation of the application failed. -/
inductive ProductError where
  | Evidence (source : queries.Error)
  | Store (source : store.Error)
deriving DecidableEq

/-- Why a command that shows evidence failed. -/
inductive Error where
  | Write (source : IoError)
  | Product (source : ProductError)
  | EvidenceUnavailable (reference : InstanceRef) (output reason : String)
deriving DecidableEq

/-- Keeps the errors of stdout apart from the errors of stored files. -/
def copy_error : store.Error → Error
  | .WriteEvidence source => .Write source
  | error => .Product (.Store error)

variable (Artifact : Type) [Serde (CaptureRecord Artifact)] [Serde InstanceManifest]

def copy_evidence (store : Store) (evidence : EvidenceRange) : Action Error Unit :=
  (store.copy_evidence Artifact evidence.capture_id evidence.artifact evidence.range).map_err copy_error

def show_source (store : Store) (reference : InstanceRef) : Action Error Unit := do
  match ← (source_evidence Artifact store reference).map_err fun error => .Product (.Evidence error) with
  | .Available evidence _ _ => copy_evidence Artifact store evidence
  | .Unavailable reason => .fail (.EvidenceUnavailable reference "source" reason.display)

/-- Writes the line end between two bodies. -/
def write_separator (index : Nat) : Action Error Unit :=
  if index ≠ 0 then (write_sink (text "\n")).map_err .Write else pure ()

/-- Writes bodies, each but the first behind a line end. -/
def show_bodies (store : Store) (index : Nat) : List LlvmBody → Action Error Unit
  | [] => pure ()
  | body :: bodies => do
    write_separator index
    copy_evidence Artifact store body.evidence
    show_bodies store (index + 1) bodies

def show_llvm (store : Store) (reference : InstanceRef) : Action Error Unit := do
  match ← (llvm_evidence Artifact store reference).map_err fun error => .Product (.Evidence error) with
  | .Available bodies => show_bodies Artifact store 0 bodies
  | .NotCaptured reason => .fail (.EvidenceUnavailable reference "LLVM" reason.display)
  | .NoExactDefinition =>
    .fail (.EvidenceUnavailable reference "LLVM" "no exact standalone definition in the captured modules")
  | .UnsupportedAlias =>
    .fail (.EvidenceUnavailable reference "LLVM"
      "an expression alias or indirect function that narrow show cannot resolve")

end optic.cli
