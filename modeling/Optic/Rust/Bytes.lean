import Mathlib.Tactic.Common

namespace rust

/-- The error kinds that the modelled code distinguishes. Every other kind of the
standard library is only ever passed on. -/
inductive ErrorKind where
  | NotFound
  | AlreadyExists
  | Interrupted
  | InvalidData
  | UnexpectedEof
  | WriteZero
  | BrokenPipe
  | Other
  | Unclassified (code : Nat)
deriving DecidableEq, Repr

structure IoError where
  kind : ErrorKind
  message : String
deriving DecidableEq, Repr

/-- How `read_exact` reports an end that comes too early. -/
def unexpected_eof : IoError := ⟨.UnexpectedEof, "failed to fill whole buffer"⟩

/-- The bytes of a string literal. -/
def text (s : String) : List UInt8 := s.toByteArray.data.toList

/-- `String::from_utf8`: strict UTF-8 decoding of a complete byte sequence. -/
def from_utf8 (bytes : List UInt8) : Option String := String.fromUTF8? ⟨bytes.toArray⟩

@[simp] theorem from_utf8_text (s : String) : from_utf8 (text s) = some s := by
  have hbytes : (⟨(text s).toArray⟩ : ByteArray) = s.toByteArray := by simp [text]
  rw [from_utf8, hbytes, String.fromUTF8?, dif_pos s.isValidUTF8]
  rfl

/-- Decoding never changes the bytes it accepts. -/
theorem text_of_from_utf8 {bytes : List UInt8} {s : String} (h : from_utf8 bytes = some s) :
    text s = bytes := by
  unfold from_utf8 String.fromUTF8? at h
  split at h
  · cases h
    simp [text, String.fromUTF8]
  · cases h

theorem text_injective {s t : String} (h : text s = text t) : s = t := by
  have hs := from_utf8_text s
  rw [h, from_utf8_text] at hs
  exact (Option.some.inj hs).symm

@[simp] theorem text_inj {s t : String} : text s = text t ↔ s = t :=
  ⟨text_injective, fun h => by rw [h]⟩

/-- `is_ascii_whitespace`: space, tab, LF, form feed and CR, but not vertical tab. -/
def is_ascii_whitespace (byte : UInt8) : Bool :=
  byte = 0x20 || byte = 0x09 || byte = 0x0A || byte = 0x0C || byte = 0x0D

def is_ascii_digit (byte : UInt8) : Bool := 0x30 ≤ byte && byte ≤ 0x39

def is_ascii_alphabetic (byte : UInt8) : Bool :=
  (0x41 ≤ byte && byte ≤ 0x5A) || (0x61 ≤ byte && byte ≤ 0x7A)

def is_ascii_alphanumeric (byte : UInt8) : Bool := is_ascii_alphabetic byte || is_ascii_digit byte

def is_ascii_hexdigit (byte : UInt8) : Bool :=
  is_ascii_digit byte || (0x41 ≤ byte && byte ≤ 0x46) || (0x61 ≤ byte && byte ≤ 0x66)

/-- The byte of an ASCII character literal. -/
def ascii (c : Char) : UInt8 := c.toUInt8

end rust
