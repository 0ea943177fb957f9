import Optic.Store.Artifacts
import Optic.Streams.Writer

open rust file_system optic.records streams

namespace optic.store

/-- The result of a copy, and the reader and the writer that it leaves. -/
structure Copied where
  result : Except Error Unit
  reader : Reader
  writer : Writer

namespace piecewise

/-- Passes on `remaining` bytes, one buffer at a time, however they are delivered and accepted. -/
def copy_bytes (path : Path) (reader : Reader) (writer : Writer) (remaining : Nat) : Copied :=
  if _more : remaining > 0 then
    let count := min remaining COPY_BUFFER_BYTES
    match reader.read_exact count with
    | (.error source, reader) => ⟨.error (.Filesystem "read artifact" path source), reader, writer⟩
    | (.ok buffer, reader) =>
      match streams.write_all writer buffer with
      | (.error source, writer) => ⟨.error (.WriteEvidence source), reader, writer⟩
      | (.ok (), writer) => copy_bytes path reader writer (remaining - count)
  else ⟨.ok (), reader, writer⟩
termination_by remaining
decreasing_by
  have hpositive : 0 < COPY_BUFFER_BYTES := by decide
  omega

/-- Separates reader and caller-writer errors, including the end of the input. -/
def copy_evidence_bytes (reader : Reader) (length : UInt64) (writer : Writer) (path : Path) : Copied :=
  copy_bytes path reader writer length.toNat

end piecewise

variable {Artifact : Type} [Serde (CaptureRecord Artifact)] [Serde InstanceManifest]

namespace Store

variable (Artifact) in
/-- The part of a copy in front of the first byte: the path of the artifact, and what is left of
its file at the start of the range. -/
def open_evidence (self : Store) (capture : CaptureId) (artifact : ArtifactId) (range : ByteRange) :
    Action Error (Path × List UInt8) := do
  let manifest ← self.read_instances Artifact capture
  let record ← .lift (ok_or (artifact_of manifest.artifacts artifact) (.UnknownArtifact capture artifact))
  check (!(range.end > record.byte_len)) (.ArtifactRange artifact range.start range.length record.byte_len)
  let directory ← self.capture_directory capture
  let path := directory.join record.file_name
  let file ← with_context "open artifact" path (open_file path)
  with_context "seek artifact" path (read (.ok ()))
  return (path, file.drop range.start.toNat)

end Store

end optic.store
