import Optic.Records.Instance
import Optic.Rust.Text

open rust

namespace optic.records

namespace InstanceRef

/-- The canonical text: the capture ID, a colon and the ordinal. -/
def display (self : InstanceRef) : String := self.capture_id.value ++ ":" ++ toString self.ordinal.toNat

/-- The ordinal that canonical decimal digits spell, if it fits. -/
def parse_ordinal (digits : List UInt8) : Option UInt64 :=
  if of_decimal digits < UInt64.size then some (UInt64.ofNat (of_decimal digits)) else none

def parse (value : String) : Except Error InstanceRef := do
  let invalid : Error := .InvalidField "instance reference" value
  let (capture, ordinal) ← ok_or (divide [ascii ':'] (text value)) invalid
  ensure (!(ordinal.isEmpty || !ordinal.all is_ascii_digit ||
    (ordinal.length > 1 && ordinal.head? = some (ascii '0')))) invalid
  -- a part of a text beside an ASCII byte is a text
  let capture ← ok_or (from_utf8 capture) invalid
  let capture_id ← CaptureId.parse capture
  let ordinal ← ok_or (parse_ordinal ordinal) invalid
  return { capture_id, ordinal }

theorem text_display (self : InstanceRef) :
    text self.display = text self.capture_id.value ++ ascii ':' :: decimal self.ordinal.toNat := by
  rw [display, text_append, text_append, List.append_assoc]
  rfl

theorem parse_ordinal_decimal (ordinal : UInt64) : parse_ordinal (decimal ordinal.toNat) = some ordinal := by
  rw [parse_ordinal, of_decimal_decimal, if_pos ordinal.toNat_lt]
  simp

/-- A reference is read back from its text. -/
theorem parse_display (self : InstanceRef) : parse self.display = .ok self := by
  have hcanonical := self.capture_id.canonical.2
  have hcolon : ascii ':' ∉ text self.capture_id.value := by
    intro hmem
    rw [reverse_hex.is_canonical, Bool.and_eq_true, List.all_eq_true] at hcanonical
    have hdigit := hcanonical.2 _ hmem
    revert hdigit
    decide
  have hordinal : (!((decimal self.ordinal.toNat).isEmpty || !(decimal self.ordinal.toNat).all is_ascii_digit ||
      (decide ((decimal self.ordinal.toNat).length > 1) &&
        decide ((decimal self.ordinal.toNat).head? = some (ascii '0'))))) = true := by
    have hleading : (decimal self.ordinal.toNat).length ≤ 1 ∨ ¬ (decimal self.ordinal.toNat).head? = some (ascii '0') := by
      rcases Nat.lt_or_ge 1 (decimal self.ordinal.toNat).length with hlong | hshort
      · exact .inr (decimal_leading hlong)
      · exact .inl hshort
    simpa [decimal_digits, decimal_ne_nil] using hleading
  rw [parse, text_display, divide_append hcolon]
  simp only [ok_or, ok_bind]
  rw [hordinal]
  simp [ensure, from_utf8_text, CaptureId.parse_value, parse_ordinal_decimal]

end InstanceRef

end optic.records
