import Optic.Compiler.Relay
import Optic.Store.Error

open rust optic.records optic.relay

namespace optic.captures

variable {M : CargoSchema}

/-- Why a complete capture could not be published. -/
inductive Error where
  | Compiler (source : compiler.Error)
  | Record (source : records.Error)
  | Store (source : store.Error)

/-- Whether capture can reuse evidence that Cargo confirms as fresh. -/
inductive CapturePolicy where
  | Reuse
  | Fresh
deriving DecidableEq, Repr

/-- Newly published evidence, or an unchanged completed capture. -/
inductive CaptureOutcome (M : CargoSchema) where
  | Captured (record : CaptureRecord (CargoArtifactRecord M))
  | Reused (record : CaptureRecord (CargoArtifactRecord M))

/-- What a capture depends on: the prepared request, the answers of Cargo and of the store, and the identities and the
time that it draws. -/
structure Surroundings (M : CargoSchema) where
  prepared : Except compiler.Error (Prepared M)
  environment : Environment M
  initialized : Except store.Error Unit
  read_candidate : CaptureKey → Except store.Error (Option (CaptureRecord (CargoArtifactRecord M) × InstanceManifest))
  publish : CaptureRecord (CargoArtifactRecord M) → InstanceManifest → Except store.Error Unit
  token : AnalysisToken
  capture_id : CaptureId
  completed_at_unix_ms : UInt64

def unavailable_llvm (reason : UnsupportedLlvmConfiguration) : List UInt8 :=
  text s!"warning: optimized LLVM was not captured: {reason.display}\n"

/-- Reports the stored support boundary for both newly published and reused evidence. -/
def warn_unavailable_llvm (manifest : InstanceManifest) : Traced (Event M) Error Unit :=
  match manifest.llvm with
  | .NotCaptured reason => .emit (.Written (unavailable_llvm reason))
  | .Collected _ => return ()

/-- The part of a capture that collects and publishes new evidence. -/
def collect_and_publish (surroundings : Surroundings M) (prepared : PreparedBuild M) :
    Traced (Event M) Error (CaptureOutcome M) := do
  let collected ← (prepared.collect surroundings.environment surroundings.token).map_err .Compiler
  let manifest ← .lift ((collected.evidence.into_manifest surroundings.capture_id).mapError fun error =>
    .Compiler (.Record error))
  let capture := CaptureRecord.new surroundings.capture_id surroundings.completed_at_unix_ms collected.build
    collected.compiler collected.analysis
  .lift ((surroundings.publish capture manifest).mapError .Store)
  warn_unavailable_llvm manifest
  return .Captured capture

/-- The candidate for reuse that the store holds, if the policy asks for one. -/
def Surroundings.candidate (surroundings : Surroundings M) (policy : CapturePolicy) (request_key : CaptureKey) :
    Except Error (Option (CaptureRecord (CargoArtifactRecord M) × InstanceManifest)) :=
  if policy = .Reuse then (surroundings.read_candidate request_key).mapError .Store else .ok none

/-- Reuses a capture that Cargo confirms as fresh, or collects and publishes new evidence. -/
def capture (surroundings : Surroundings M) (policy : CapturePolicy) : Traced (Event M) Error (CaptureOutcome M) := do
  let prepared ← .lift (surroundings.prepared.mapError .Compiler)
  let prepared : PreparedBuild M := { prepared with }
  .lift (surroundings.initialized.mapError .Store)
  match ← .lift (surroundings.candidate policy prepared.request_key) with
  | none => collect_and_publish surroundings prepared
  | some (candidate, manifest) => do
    let (freshness, prepared) ← (prepared.probe surroundings.environment candidate.analysis).map_err .Compiler
    if freshness = .Fresh then do
      warn_unavailable_llvm manifest
      return .Reused candidate
    else collect_and_publish surroundings prepared

end optic.captures
