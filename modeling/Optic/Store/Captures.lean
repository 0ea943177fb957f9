import Optic.Store.Initialize
import Optic.Store.RecordIo

open rust file_system optic.records

namespace optic.store

def CAPTURE_FILE_NAME : String := "capture.json"

def INSTANCES_FILE_NAME : String := "instances.json"

/-- The budget of a capture header or candidate pointer: 1 MiB. -/
def MAX_HEADER_BYTES : Nat := 1024 * 1024

/-- The budget of an instance manifest: 128 MiB. -/
def MAX_INSTANCES_BYTES : Nat := 128 * 1024 * 1024

def validate_capture_scope (path : Path) (directory_id record_id : CaptureId) : Action Error Unit :=
  check (record_id = directory_id) (.MismatchedCaptureId path directory_id record_id)

def validate_artifact_file (path : Path) (artifact : ArtifactRecord) : Action Error Unit := do
  let metadata ← with_context "read artifact metadata" path (symlink_metadata path)
  check metadata.is_file (.UnexpectedFileType "file" path)
  check (metadata.len = artifact.byte_len.toNat) (.ArtifactLength path artifact.byte_len.toNat metadata.len)

/-- Validates the file of each declared artifact. -/
def validate_artifacts (directory : Path) : List ArtifactRecord → Action Error Unit
  | [] => pure ()
  | artifact :: artifacts => do
    validate_artifact_file (directory.join artifact.file_name) artifact
    validate_artifacts directory artifacts

def require_instances_file (directory : Path) : Action Error Path := do
  let path := directory.join INSTANCES_FILE_NAME
  let metadata ← with_context "read metadata for" path (symlink_metadata path)
  check metadata.is_file (.ExpectedInstanceFile path)
  return path

/-- The ID that the name of a completed entry stands for. -/
def capture_id_from_entry (entry_path : Path) (name : OsString) : Action Error CaptureId := do
  let metadata ← with_context "read metadata for" entry_path (symlink_metadata entry_path)
  check metadata.is_dir (.ExpectedCaptureDirectory entry_path)
  let name ← .lift (ok_or name.into_string (.InvalidCaptureDirectoryName entry_path name))
  .map_err (.InvalidCaptureDirectoryId entry_path name) (.lift (CaptureId.parse name))

variable {Artifact : Type} [Serde (CaptureRecord Artifact)] [Serde InstanceManifest]

def read_capture_from_directory (directory : Path) (directory_id : CaptureId) : Action Error (CaptureRecord Artifact) := do
  let capture_path := directory.join CAPTURE_FILE_NAME
  let capture : CaptureRecord Artifact ← read_record capture_path MAX_HEADER_BYTES
  validate_capture_scope capture_path directory_id capture.id
  return capture

/-- Descending completion time, then ascending ID. -/
def CaptureOrder (left right : CaptureRecord Artifact) : Bool :=
  ((compare right.completed_at_unix_ms left.completed_at_unix_ms).then (compare left.id.value right.id.value)).isLE

namespace Store

def capture_directory (self : Store) (id : CaptureId) : Action Error Path := do
  check (← self.namespace_exists "captures") (.CaptureNotFound id)
  .attempt (symlink_metadata (self.completed id)) fun
    | .ok metadata => do
      check metadata.is_dir (.ExpectedCaptureDirectory (self.completed id))
      return self.completed id
    | .error source =>
      .fail (if source.kind = .NotFound then .CaptureNotFound id
        else .Filesystem "read metadata for" (self.completed id) source)

/-- Reads one capture record from the completed namespace. -/
def read_capture (self : Store) (id : CaptureId) : Action Error (CaptureRecord Artifact) := do
  let directory ← self.capture_directory id
  let capture ← read_capture_from_directory directory id
  let _ ← require_instances_file directory
  return capture

variable (Artifact) in
/-- Reads one instance manifest from the completed namespace. -/
def read_instances (self : Store) (id : CaptureId) : Action Error InstanceManifest := do
  let directory ← self.capture_directory id
  let _ : CaptureRecord Artifact ← read_capture_from_directory directory id
  let instances_path ← require_instances_file directory
  let instances : InstanceManifest ← read_record instances_path MAX_INSTANCES_BYTES
  validate_capture_scope instances_path id instances.capture_id
  validate_artifacts directory instances.artifacts
  return instances

/-- Reads the completed entries in the order in which the directory yields them. -/
def read_captures (captures_root : Path) : List OsString → Action Error (List (CaptureRecord Artifact))
  | [] => pure []
  | name :: names => do
    with_context "read" captures_root (read (.ok ()))
    let directory_id ← capture_id_from_entry (captures_root.join name) name
    let capture ← read_capture_from_directory (captures_root.join name) directory_id
    let _ ← require_instances_file (captures_root.join name)
    let captures ← read_captures captures_root names
    return capture :: captures

variable (Artifact) in
/-- Lists captures by descending completion time, then ascending capture ID. -/
def list_captures (self : Store) (names : List OsString) : Action Error (List (CaptureRecord Artifact)) := do
  if ← self.namespace_exists "captures" then
    let captures_root := self.root.join "captures"
    .attempt (read_dir captures_root names) fun
      | .ok entries => do
        let captures ← read_captures captures_root entries
        return captures.mergeSort CaptureOrder
      | .error source => if source.kind = .NotFound then pure [] else .fail (.Filesystem "read" captures_root source)
  else pure []

end Store

end optic.store
