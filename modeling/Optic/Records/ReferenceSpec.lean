import Optic.Records.Reference
import Optic.Records.ReverseHex

open rust

namespace optic.records

namespace InstanceRef

theorem parse_ordinal_eq_some {digits : List UInt8} {ordinal : UInt64} (h : parse_ordinal digits = some ordinal) :
    of_decimal digits = ordinal.toNat := by
  rw [parse_ordinal] at h
  split at h
  · cases h
    rename_i hbound
    exact (UInt64.toNat_ofNat_of_lt' hbound).symm
  · cases h

/-- Only the text of a reference is read. -/
theorem display_of_parse {value : String} {reference : InstanceRef} (h : parse value = .ok reference) :
    value = reference.display := by
  rw [parse] at h
  obtain ⟨⟨capture, ordinal⟩, hsplit, h⟩ := bind_eq_ok_iff.mp h
  obtain ⟨hcheck, h⟩ := unit_bind_eq_ok_iff.mp h
  obtain ⟨capture', hcapture, h⟩ := bind_eq_ok_iff.mp h
  obtain ⟨capture_id, hid, h⟩ := bind_eq_ok_iff.mp h
  obtain ⟨number, hnumber, h⟩ := bind_eq_ok_iff.mp h
  cases h
  rw [ok_or_eq_ok_iff] at hsplit hcapture hnumber
  rw [ensure_eq_ok_iff, Bool.not_eq_true', Bool.or_eq_false_iff, Bool.or_eq_false_iff, Bool.not_eq_false',
    Bool.and_eq_false_iff, decide_eq_false_iff_not, decide_eq_false_iff_not] at hcheck
  obtain ⟨⟨hne, hdigits⟩, hleading⟩ := hcheck
  have hleading : 1 < ordinal.length → ordinal.head? ≠ some (ascii '0') := by
    intro hlong
    exact hleading.resolve_left fun hshort => hshort hlong
  have hdecimal := decimal_of_decimal hdigits (List.isEmpty_eq_false_iff.mp hne) hleading
  apply text_injective
  rw [text_display, ← CaptureId.parse_eq_ok_iff.mp hid, text_of_from_utf8 hcapture, ← parse_ordinal_eq_some hnumber, hdecimal,
    eq_of_divide hsplit]

theorem parse_eq_ok_iff {value : String} {reference : InstanceRef} :
    parse value = .ok reference ↔ value = reference.display := by
  constructor
  · exact display_of_parse
  · rintro rfl
    exact parse_display reference

end InstanceRef

/-- Identities are read from their texts alone. A text is a reference exactly if it is that reference's text, so behind
the capture ID and the colon only the digits of an ordinal are read. The texts of capture IDs are those of 16 bytes,
which they tell apart, and none holds a separator of references or of paths. -/
theorem identity_text_canonical :
    (∀ (value : String) (reference : InstanceRef), InstanceRef.parse value = .ok reference ↔ value = reference.display) ∧
    (∀ (id : CaptureId) (ordinal : String), (∃ reference, InstanceRef.parse (id.value ++ ":" ++ ordinal) = .ok reference) ↔
      ∃ n : UInt64, ordinal = toString n.toNat) ∧
    (∀ value : String, (∃ id, CaptureId.parse value = .ok id) ↔
      ∃ bytes : Vector UInt8 16, value = reverse_hex.encode bytes.toList) ∧
    Function.Injective reverse_hex.encode ∧
    ∀ (value : String) (id : CaptureId), CaptureId.parse value = .ok id →
      ∀ c ∈ value.toList, c ≠ ':' ∧ c ≠ '/' ∧ c ≠ '\\' := by
  refine ⟨fun value reference => InstanceRef.parse_eq_ok_iff, ?_, ?_, reverse_hex.encode_injective, ?_⟩
  · intro id ordinal
    constructor
    · rintro ⟨reference, h⟩
      have htext := congrArg text (InstanceRef.parse_eq_ok_iff.mp h)
      rw [InstanceRef.display, text_append, text_append, text_append, text_append, List.append_assoc, List.append_assoc] at htext
      have hlength := id.canonical.1.trans reference.capture_id.canonical.1.symm
      have hordinal := (List.append_inj htext hlength).2
      exact ⟨reference.ordinal, text_injective (List.append_cancel_left hordinal)⟩
    · rintro ⟨n, rfl⟩
      exact ⟨⟨id, n⟩, InstanceRef.parse_display ⟨id, n⟩⟩
  · intro value
    rw [← CaptureId.canonical_iff]
    constructor
    · rintro ⟨id, h⟩
      rw [CaptureId.parse_eq_ok_iff.mp h]
      exact id.canonical
    · intro hcanonical
      exact ⟨⟨value, hcanonical⟩, dif_pos hcanonical⟩
  · intro value id h c hc
    obtain ⟨bytes, hbytes⟩ := CaptureId.canonical_iff.mp id.canonical
    rw [CaptureId.parse_eq_ok_iff.mp h, hbytes] at hc
    have hrange := reverse_hex.mem_encode hc
    refine ⟨?_, ?_, ?_⟩ <;> rintro rfl <;> revert hrange <;> decide

theorem identity_text_canonical_fixture :
    (∃ reference, InstanceRef.parse ("zyxwvutsrqponmlkzyxwvutsrqponmlk" ++ ":" ++ "18446744073709551615") = .ok reference) ∧
    ∀ c ∈ "zyxwvutsrqponmlkzyxwvutsrqponmlk".toList, c ≠ ':' ∧ c ≠ '/' ∧ c ≠ '\\' := by
  let id : CaptureId := ⟨"zyxwvutsrqponmlkzyxwvutsrqponmlk", by decide⟩
  obtain ⟨-, hordinals, -, -, hseparators⟩ := identity_text_canonical
  exact ⟨(hordinals id _).mpr ⟨18446744073709551615, rfl⟩, hseparators id.value id id.parse_value⟩

end optic.records
