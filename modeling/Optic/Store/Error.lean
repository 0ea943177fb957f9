import Optic.FileSystem.Triple
import Optic.Records.Capture
import Optic.Records.Manifest

open rust file_system optic.records

namespace optic.store

/-- Why the store could not publish or read a capture. -/
inductive Error where
  | WriteEvidence (source : IoError)
  | UnknownArtifact (capture : CaptureId) (artifact : ArtifactId)
  | ArtifactRange (artifact : ArtifactId) (start length byte_len : UInt64)
  | ArtifactLength (path : Path) (expected actual : Nat)
  | ConflictingIgnoreFile (path : Path)
  | UnexpectedFileType (expected : String) (path : Path)
  | RecordTooLarge (path : Path) (limit actual : Nat)
  | InvalidCandidate (path : Path) (expected actual : String)
  | CaptureExists (id : CaptureId)
  | CaptureNotFound (id : CaptureId)
  | MismatchedPublishedCaptureId (capture_id manifest_id : CaptureId)
  | Filesystem (operation : String) (path : Path) (source : IoError)
  | Json (path : Path) (source : String)
  | ExpectedCaptureDirectory (path : Path)
  | ExpectedInstanceFile (path : Path)
  | InvalidCaptureDirectoryName (path : Path) (name : OsString)
  | InvalidCaptureDirectoryId (path : Path) (name : String) (source : records.Error)
  | MismatchedCaptureId (path : Path) (directory_id record_id : CaptureId)
deriving DecidableEq

/-- Attaches the affected operation and path to a failure. -/
def with_context {α : Type} (operation : String) (path : Path) (p : Action IoError α) : Action Error α :=
  p.map_err (.Filesystem operation path)

/-- Stops unless a check passes. -/
def check (ok : Bool) (error : Error) : Action Error Unit := .lift (ensure ok error)

/-- The store of the workspace at a root. -/
structure Store where
  workspace_root : Path

namespace Store

/-- The parent of the root. -/
def optic_directory (self : Store) : Path := self.workspace_root.join ".optic"

def root (self : Store) : Path := self.optic_directory.join "store"

/-- The directory that a capture is assembled in. -/
def staging (self : Store) (id : CaptureId) : Path := (self.root.join "staging").join id.value

/-- The directory that a completed capture has. -/
def completed (self : Store) (id : CaptureId) : Path := (self.root.join "captures").join id.value

def candidate_path (self : Store) (key : CaptureKey) : Path :=
  (self.root.join "candidates").join ((key.value ++ ".json" : String) : OsString)

end Store

end optic.store
