import Mathlib.Data.Fintype.Basic
import Optic.Rust.Outcome

open rust

namespace optic.records

/-- The revision of every durable record. -/
def CAPTURE_FORMAT_VERSION : UInt32 := 4

/-- The typed failures shared by record constructors and deserializers. -/
inductive Error where
  | InvalidCaptureId (value : String)
  | UnsupportedFormat (expected actual : UInt32)
  | InvalidField (field actual : String)
deriving DecidableEq, Repr

/-- The `Display` text that callers embed in their own messages. -/
def Error.display : Error → String
  | .InvalidCaptureId value =>
    "capture ID must contain exactly 32 lowercase reverse-hexadecimal characters " ++
      s!"(`k` through `z`), got {value}"
  | .UnsupportedFormat expected actual =>
    s!"capture format version must be {expected}, got {actual}"
  | .InvalidField field actual => s!"{field} must contain a valid value, got {actual}"

/-- Rejects an empty string, and hands the caller the proof that it is not. -/
def require_text (field value : String) : Except Error (PLift (value ≠ "")) :=
  if h : value = "" then .error (.InvalidField field "an empty string") else .ok ⟨h⟩

theorem require_text_ok {field value : String} (h : value ≠ "") :
    require_text field value = .ok ⟨h⟩ :=
  dif_neg h

end optic.records
