import Optic.Store.Captures

open rust file_system optic.records

namespace optic.store

def COPY_BUFFER_BYTES : Nat := 64 * 1024

/-- Passes on `remaining` bytes of what is left of an open file, one buffer at a time. -/
def copy_bytes (path : Path) (write : List UInt8 → Action Error Unit) (rest : List UInt8) (remaining : Nat) :
    Action Error Unit :=
  if _more : remaining > 0 then do
    let count := min remaining COPY_BUFFER_BYTES
    let buffer ← with_context "read artifact" path (read_exact rest count)
    write buffer
    copy_bytes path write (rest.drop count) (remaining - count)
  else pure ()
termination_by remaining
decreasing_by
  have hpositive : 0 < COPY_BUFFER_BYTES := by decide
  omega

/-- Copies one declared artifact. -/
def copy_artifact (source destination : Path) (artifact : ArtifactRecord) : Action Error Unit := do
  validate_artifact_file source artifact
  let reader ← with_context "open artifact" source (open_file source)
  with_context "create artifact" destination (create_new destination)
  copy_bytes source (fun buffer => with_context "write artifact" destination (write_all destination buffer))
    reader artifact.byte_len.toNat
  validate_artifact_file source artifact

def copy_each (input_directory staging : Path) : List ArtifactRecord → Action Error Unit
  | [] => pure ()
  | artifact :: artifacts => do
    copy_artifact (input_directory.join artifact.file_name) (staging.join artifact.file_name) artifact
    copy_each input_directory staging artifacts

def copy_artifacts (input_directory staging : Path) (manifest : InstanceManifest) : Action Error Unit := do
  let metadata ← with_context "read artifact directory" input_directory (symlink_metadata input_directory)
  check metadata.is_dir (.UnexpectedFileType "directory" input_directory)
  copy_each input_directory staging manifest.artifacts
  validate_artifacts staging manifest.artifacts

/-- Separates reader errors and the errors of the caller's writer. -/
def copy_evidence_bytes (rest : List UInt8) (length : UInt64) (path : Path) : Action Error Unit :=
  copy_bytes path (fun buffer => .map_err .WriteEvidence (write_sink buffer)) rest length.toNat

variable {Artifact : Type} [Serde (CaptureRecord Artifact)] [Serde InstanceManifest]

namespace Store

variable (Artifact) in
/-- Copies a finite range from one declared artifact in a completed capture. -/
def copy_evidence (self : Store) (capture : CaptureId) (artifact : ArtifactId) (range : ByteRange) :
    Action Error Unit := do
  let manifest ← self.read_instances Artifact capture
  let record ← .lift (ok_or (artifact_of manifest.artifacts artifact) (.UnknownArtifact capture artifact))
  check (!(range.end > record.byte_len)) (.ArtifactRange artifact range.start range.length record.byte_len)
  let directory ← self.capture_directory capture
  let path := directory.join record.file_name
  let file ← with_context "open artifact" path (open_file path)
  with_context "seek artifact" path (read (.ok ()))
  copy_evidence_bytes (file.drop range.start.toNat) range.length path

end Store

end optic.store
