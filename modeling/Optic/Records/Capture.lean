import Optic.Records.Instance

open rust

namespace optic.records

def is_lowercase_hexdigit (byte : UInt8) : Bool := is_ascii_digit byte || (ascii 'a' ≤ byte && byte ≤ ascii 'f')

/-- The text of a SHA-256 digest. -/
def CaptureKey.Canonical (value : String) : Prop :=
  (text value).length = 64 ∧ (text value).all is_lowercase_hexdigit = true

instance (value : String) : Decidable (CaptureKey.Canonical value) := inferInstanceAs (Decidable (_ ∧ _))

/-- The normalized request identity that locates a candidate. -/
structure CaptureKey where
  value : String
  canonical : CaptureKey.Canonical value
deriving DecidableEq

def CaptureKey.parse (value : String) : Except Error CaptureKey :=
  if h : CaptureKey.Canonical value then .ok ⟨value, h⟩
  else .error (.InvalidField "capture key (64 lowercase hexadecimal characters)" value)

theorem CaptureKey.value_inj {key other : CaptureKey} : key.value = other.value ↔ key = other := by
  cases key
  cases other
  simp

/-- The text of a version 4 UUID without separators. -/
def AnalysisToken.Canonical (value : String) : Prop :=
  (text value).length = 32 ∧ (text value).all is_lowercase_hexdigit = true ∧ (text value)[12]? = some (ascii '4') ∧
    (text value)[16]? ∈ [some (ascii '8'), some (ascii '9'), some (ascii 'a'), some (ascii 'b')]

instance (value : String) : Decidable (AnalysisToken.Canonical value) := inferInstanceAs (Decidable (_ ∧ _ ∧ _ ∧ _))

/-- The identity of one selected-target compilation. -/
structure AnalysisToken where
  value : String
  canonical : AnalysisToken.Canonical value
deriving DecidableEq

def AnalysisToken.parse (value : String) : Except Error AnalysisToken :=
  if h : AnalysisToken.Canonical value then .ok ⟨value, h⟩
  else .error (.InvalidField "analysis token (32 lowercase hexadecimal UUID-v4 characters)" value)

/-- Rejects a path that is relative, climbs to a parent or has redundant separators and dots. -/
def require_absolute_normalized_path (field : String) (value : PathBuf) : Except Error Unit := do
  let _ ← require_path field value
  ensure value.is_absolute (.InvalidField field s!"a relative path ({value.text})")
  ensure (!(value.components.any (· = .ParentDir) || PathBuf.collect value.components ≠ text value.text))
    (.InvalidField field s!"a path that is not lexically normalized ({value.text})")

/-- The Cargo selector class of a resolved target. -/
inductive CargoTargetKind where
  | Lib
  | Bin
  | Example
  | Bench
deriving DecidableEq, Repr

def CargoTargetKind.display : CargoTargetKind → String
  | .Lib => "lib"
  | .Bin => "bin"
  | .Example => "example"
  | .Bench => "bench"

structure TargetRecord where
  name : String
  kind : CargoTargetKind
  named : name ≠ ""

def TargetRecord.new (name : String) (kind : CargoTargetKind) : Except Error TargetRecord := do
  let ⟨named⟩ ← require_text "target name" name
  return { name, kind, named }

/-- The checks of a build record, in the order of its constructor. -/
def validate_build (package package_version profile : String) (cargo_program invocation_directory : PathBuf)
    (cargo_arguments : List String) : Except Error Unit := do
  let _ ← require_text "package name" package
  let _ ← require_text "package version" package_version
  let _ ← require_text "profile" profile
  let _ ← require_path "Cargo program" cargo_program
  let _ ← require_path "invocation directory" invocation_directory
  ensure invocation_directory.is_absolute
    (.InvalidField "invocation directory" s!"a relative path ({invocation_directory.text})")
  ensure (cargo_arguments ≠ []) (.InvalidField "Cargo arguments" "an empty list")

/-- The selected inputs for one successful Cargo invocation. -/
structure BuildRecord where
  package : String
  package_version : String
  target : TargetRecord
  profile : String
  cargo_program : PathBuf
  invocation_directory : PathBuf
  cargo_arguments : List String
  valid : validate_build package package_version profile cargo_program invocation_directory cargo_arguments = .ok ()

def BuildRecord.new (package package_version : String) (target : TargetRecord) (profile : String)
    (cargo_program invocation_directory : PathBuf) (cargo_arguments : List String) : Except Error BuildRecord := do
  let ⟨valid⟩ ← proven (validate_build package package_version profile cargo_program invocation_directory cargo_arguments)
  return { package, package_version, target, profile, cargo_program, invocation_directory, cargo_arguments, valid }

/-- The checks of a compiler identity, in the order of its constructor. -/
def validate_identity (rustc : PathBuf) (release commit_hash host : String) (sysroot : PathBuf) : Except Error Unit := do
  require_absolute_normalized_path "rustc path" rustc
  let _ ← require_text "rustc release" release
  let _ ← require_text "rustc commit hash" commit_hash
  let _ ← require_text "rustc host" host
  require_absolute_normalized_path "rustc sysroot" sysroot

/-- The exact compiler used for the selected target invocation. -/
structure CompilerIdentity where
  rustc : PathBuf
  release : String
  commit_hash : String
  host : String
  sysroot : PathBuf
  valid : validate_identity rustc release commit_hash host sysroot = .ok ()
deriving DecidableEq

def CompilerIdentity.new (rustc : PathBuf) (release commit_hash host : String) (sysroot : PathBuf) :
    Except Error CompilerIdentity := do
  let ⟨valid⟩ ← proven (validate_identity rustc release commit_hash host sysroot)
  return { rustc, release, commit_hash, host, sysroot, valid }

variable {Artifact : Type}

/-- The analysis identity and the selected Cargo artifact of one capture. -/
structure CaptureAnalysis (Artifact : Type) where
  request_key : CaptureKey
  token : AnalysisToken
  artifact : Artifact
deriving DecidableEq

/-- One immutable entry in completed capture history. -/
structure CaptureRecord (Artifact : Type) where
  id : CaptureId
  completed_at_unix_ms : UInt64
  build : BuildRecord
  compiler : CompilerIdentity
  analysis : CaptureAnalysis Artifact
  format_version : UInt32 := CAPTURE_FORMAT_VERSION
  current : format_version = CAPTURE_FORMAT_VERSION

def CaptureRecord.new (id : CaptureId) (completed_at_unix_ms : UInt64) (build : BuildRecord) (compiler : CompilerIdentity)
    (analysis : CaptureAnalysis Artifact) : CaptureRecord Artifact :=
  { id, completed_at_unix_ms, build, compiler, analysis, current := rfl }

end optic.records
