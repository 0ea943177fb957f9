import Optic.Store.Artifacts

open rust file_system optic.records

namespace optic.store

/-- A durable association of a request, a compilation and a completed capture. -/
structure CandidatePointer where
  format_version : UInt32
  request_key : CaptureKey
  token : AnalysisToken
  capture_id : CaptureId
deriving DecidableEq

def CandidatePointer.FORMAT_VERSION : UInt32 := 1

variable {Artifact : Type}

def CandidatePointer.new (capture : CaptureRecord Artifact) : CandidatePointer where
  format_version := FORMAT_VERSION
  request_key := capture.analysis.request_key
  token := capture.analysis.token
  capture_id := capture.id

variable [Serde (CaptureRecord Artifact)] [Serde InstanceManifest] [Serde CandidatePointer]

namespace Store

/-- Validates the capture and manifest that a candidate pointer names. -/
def read_pointed (self : Store) (key : CaptureKey) (pointer : CandidatePointer) (directory : Path) :
    Action Error (CaptureRecord Artifact × InstanceManifest) := do
  let path := self.candidate_path key
  let capture : CaptureRecord Artifact ← read_capture_from_directory directory pointer.capture_id
  check (capture.analysis.request_key = key)
    (.InvalidCandidate path key.value capture.analysis.request_key.value)
  check (capture.analysis.token = pointer.token)
    (.InvalidCandidate path pointer.token.value capture.analysis.token.value)
  let instances_path := directory.join INSTANCES_FILE_NAME
  let instances : InstanceManifest ← read_record instances_path MAX_INSTANCES_BYTES
  validate_capture_scope instances_path capture.id instances.capture_id
  validate_artifacts directory instances.artifacts
  return (capture, instances)

variable (Artifact) in
/-- Returns the candidate and manifest after record and artifact validation. -/
def read_candidate (self : Store) (key : CaptureKey) :
    Action Error (Option (CaptureRecord Artifact × InstanceManifest)) := do
  if ← self.namespace_exists "candidates" then
    let path := self.candidate_path key
    .attempt (read_record path MAX_HEADER_BYTES) fun
      | .error (.Filesystem operation path source) =>
        if source.kind = .NotFound then pure none else .fail (.Filesystem operation path source)
      | .error error => .fail error
      | .ok (pointer : CandidatePointer) => do
        check (pointer.format_version = CandidatePointer.FORMAT_VERSION)
          (.InvalidCandidate path s!"pointer format {CandidatePointer.FORMAT_VERSION}"
            s!"pointer format {pointer.format_version}")
        check (pointer.request_key = key) (.InvalidCandidate path key.value pointer.request_key.value)
        .attempt (self.capture_directory pointer.capture_id) fun
          | .error (.CaptureNotFound _) => pure none
          | .error error => .fail error
          | .ok directory => do
            let pointed ← self.read_pointed key pointer directory
            return some pointed
  else pure none

/-- Rejects a capture ID that the completed namespace already contains. -/
def require_new (self : Store) (id : CaptureId) : Action Error Unit :=
  .attempt (symlink_metadata (self.completed id)) fun
    | .ok _ => .fail (.CaptureExists id)
    | .error source =>
      if source.kind = .NotFound then pure () else .fail (.Filesystem "read metadata for" (self.completed id) source)

/-- Creates the staging directory of a capture that does not exist yet. -/
def reserve (self : Store) (capture : CaptureRecord Artifact) (instances : InstanceManifest) : Action Error Unit := do
  check (capture.id = instances.capture_id) (.MismatchedPublishedCaptureId capture.id instances.capture_id)
  self.initialize_store
  self.require_new capture.id
  with_context "create" (self.staging capture.id) (create_dir (self.staging capture.id))

/-- Writes the records, the artifacts and the pointer of a capture to its staging directory. -/
def stage (staging : Path) (capture : CaptureRecord Artifact) (instances : InstanceManifest)
    (artifact_directory : Path) : Action Error Unit := do
  write_record (staging.join CAPTURE_FILE_NAME) capture MAX_HEADER_BYTES
  write_record (staging.join INSTANCES_FILE_NAME) instances MAX_INSTANCES_BYTES
  copy_artifacts artifact_directory staging instances
  write_record (staging.join "candidate.json") (CandidatePointer.new capture) MAX_HEADER_BYTES

/-- Publication up to the installation of the new pointer. -/
def install (self : Store) (capture : CaptureRecord Artifact) (instances : InstanceManifest)
    (artifact_directory : Path) : Action Error Unit := do
  self.reserve capture instances
  stage (self.staging capture.id) capture instances artifact_directory
  let pointer := self.candidate_path capture.analysis.request_key
  with_context "replace candidate" pointer (rename ((self.staging capture.id).join "candidate.json") pointer)

/-- Atomically publishes one immutable capture and its instance evidence. -/
def publish (self : Store) (capture : CaptureRecord Artifact) (instances : InstanceManifest)
    (artifact_directory : Path) : Action Error Unit := do
  self.install capture instances artifact_directory
  with_context "publish" (self.completed capture.id) (rename (self.staging capture.id) (self.completed capture.id))

end Store

end optic.store
