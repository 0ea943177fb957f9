import Optic.Records.Artifact
import Optic.Rust.Path

open rust

namespace optic.records

/-- Why exact supported source is absent. -/
inductive SourceUnavailable where
  | Nonlocal
  | Unloaded
  | Generated
  | UnsupportedSpan
  | OutsidePackage
deriving DecidableEq, Repr

def SourceUnavailable.display : SourceUnavailable → String
  | .Nonlocal => "source is unavailable for a nonlocal definition"
  | .Unloaded => "source text was not loaded by the compiler"
  | .Generated => "source is unavailable for an unsupported expansion or synthetic instance"
  | .UnsupportedSpan => "the compiler did not establish a supported exact source span"
  | .OutsidePackage => "source lies outside the selected package root"

/-- A source range and its original display location. -/
structure SourceRecord where
  artifact : ArtifactId
  range : ByteRange
  display_path : PathBuf
  starting_line : UInt64
  path_named : display_path.text ≠ ""
  line_positive : starting_line ≠ 0
deriving DecidableEq

/-- Rejects an empty path without checking its syntax or the filesystem. -/
def require_path (field : String) (value : PathBuf) : Except Error (PLift (value.text ≠ "")) :=
  if h : value.text = "" then .error (.InvalidField field "an empty path") else .ok ⟨h⟩

/-- Rejects the line zero. -/
def require_line (starting_line : UInt64) : Except Error (PLift (starting_line ≠ 0)) :=
  if h : starting_line = 0 then .error (.InvalidField "source starting line" "zero") else .ok ⟨h⟩

def SourceRecord.new (artifact : ArtifactId) (range : ByteRange) (display_path : PathBuf) (starting_line : UInt64) :
    Except Error SourceRecord := do
  let ⟨path_named⟩ ← require_path "source display path" display_path
  let ⟨line_positive⟩ ← require_line starting_line
  return { artifact, range, display_path, starting_line, path_named, line_positive }

theorem SourceRecord.new_eq_ok_iff {artifact : ArtifactId} {range : ByteRange} {display_path : PathBuf}
    {starting_line : UInt64} {record : SourceRecord} :
    SourceRecord.new artifact range display_path starting_line = .ok record ↔
      record.artifact = artifact ∧ record.range = range ∧ record.display_path = display_path ∧
        record.starting_line = starting_line := by
  constructor
  · intro h
    simp only [SourceRecord.new, bind_eq_ok_iff] at h
    obtain ⟨_, _, _, _, h⟩ := h
    cases h
    exact ⟨rfl, rfl, rfl, rfl⟩
  · rintro ⟨rfl, rfl, rfl, rfl⟩
    rw [SourceRecord.new, require_path, dif_neg record.path_named]
    change (require_line record.starting_line >>= _) = _
    rw [require_line, dif_neg record.line_positive]
    rfl

/-- Display paths are compared by their components. -/
instance : BEq SourceRecord where
  beq a b := a.artifact = b.artifact && a.range = b.range && a.display_path == b.display_path &&
    a.starting_line = b.starting_line

/-- The source evidence recorded for one concrete instance. -/
inductive SourceAvailability where
  | Available (source : SourceRecord)
  | Unavailable (reason : SourceUnavailable)
deriving DecidableEq

instance : BEq SourceAvailability where
  beq
    | .Available a, .Available b => a == b
    | .Unavailable a, .Unavailable b => a = b
    | _, _ => false

end optic.records
