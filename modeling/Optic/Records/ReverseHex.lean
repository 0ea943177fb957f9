import Optic.Records.Instance
import Optic.Rust.Decimal
import Optic.Wire.Format

open rust

namespace optic.records

namespace reverse_hex

/-- The digits of the nibbles, from the last letter down. -/
def DIGITS : List UInt8 := text "zyxwvutsrqponmlk"

theorem length_DIGITS : DIGITS.length = 16 := by decide

/-- The two digits of a byte, with the high nibble first. -/
def pair (byte : UInt8) : List UInt8 :=
  [DIGITS.get ⟨byte.toNat / 16, by have := byte.toNat_lt; have := length_DIGITS; omega⟩,
    DIGITS.get ⟨byte.toNat % 16, by have := length_DIGITS; omega⟩]

/-- Two digits for each byte. -/
def encode (bytes : List UInt8) : String := String.ofList ((bytes.flatMap pair).map Char.ofUInt8)

def is_digit (digit : UInt8) : Bool := ascii 'k' ≤ digit && digit ≤ ascii 'z'

theorem is_digit_iff {digit : UInt8} : is_digit digit = true ↔ 107 ≤ digit.toNat ∧ digit.toNat ≤ 122 := by
  rw [is_digit, Bool.and_eq_true, decide_eq_true_eq, decide_eq_true_eq, UInt8.le_iff_toNat_le, UInt8.le_iff_toNat_le]
  rfl

theorem DIGITS_get {n : Nat} (h : n < DIGITS.length) : DIGITS.get ⟨n, h⟩ = UInt8.ofNat (122 - n) := by
  have hdigits : ∀ i : Fin DIGITS.length, DIGITS.get i = UInt8.ofNat (122 - i.val) := by decide
  exact hdigits ⟨n, h⟩

theorem pair_eq (byte : UInt8) : pair byte = [UInt8.ofNat (122 - byte.toNat / 16), UInt8.ofNat (122 - byte.toNat % 16)] := by
  rw [pair, DIGITS_get, DIGITS_get]

theorem is_digit_of_mem_pair {byte digit : UInt8} (h : digit ∈ pair byte) : is_digit digit = true := by
  have hbyte := byte.toNat_lt
  rw [pair_eq, List.mem_cons, List.mem_singleton] at h
  rw [is_digit_iff]
  rcases h with rfl | rfl
  · rw [UInt8.toNat_ofNat']
    omega
  · rw [UInt8.toNat_ofNat']
    omega

theorem pair_injective (byte other : UInt8) (h : pair byte = pair other) : byte = other := by
  have hbyte := byte.toNat_lt
  have hother := other.toNat_lt
  rw [pair_eq, pair_eq, List.cons.injEq, List.cons.injEq] at h
  have hhigh := congrArg UInt8.toNat h.1
  have hlow := congrArg UInt8.toNat h.2.1
  rw [UInt8.toNat_ofNat', UInt8.toNat_ofNat'] at hhigh hlow
  apply UInt8.toNat_inj.mp
  omega

theorem exists_pair {high low : UInt8} (hhigh : is_digit high = true) (hlow : is_digit low = true) :
    ∃ byte, pair byte = [high, low] := by
  rw [is_digit_iff] at hhigh hlow
  refine ⟨UInt8.ofNat ((122 - high.toNat) * 16 + (122 - low.toNat)), ?_⟩
  have hvalue : (UInt8.ofNat ((122 - high.toNat) * 16 + (122 - low.toNat))).toNat =
      (122 - high.toNat) * 16 + (122 - low.toNat) := by
    rw [UInt8.toNat_ofNat']
    omega
  have hfirst : 122 - ((122 - high.toNat) * 16 + (122 - low.toNat)) / 16 = high.toNat := by omega
  have hsecond : 122 - ((122 - high.toNat) * 16 + (122 - low.toNat)) % 16 = low.toNat := by omega
  rw [pair_eq, hvalue, hfirst, hsecond, UInt8.ofNat_toNat, UInt8.ofNat_toNat]

theorem text_encode (bytes : List UInt8) : text (encode bytes) = bytes.flatMap pair := by
  have hascii : ∀ digit ∈ bytes.flatMap pair, digit.toNat < 128 := by
    intro digit hdigit
    obtain ⟨byte, -, hdigit⟩ := List.mem_flatMap.mp hdigit
    have hrange := is_digit_iff.mp (is_digit_of_mem_pair hdigit)
    omega
  have hchars : ∀ c ∈ (bytes.flatMap pair).map Char.ofUInt8, c.toNat < 128 := by
    rw [List.forall_mem_map]
    intro digit hdigit
    change digit.toUInt32.toNat < 128
    rw [UInt8.toNat_toUInt32]
    exact hascii digit hdigit
  have hdigit (digit : UInt8) : ascii (Char.ofUInt8 digit) = digit := UInt8.toUInt8_toUInt32 digit
  rw [encode, text_ofList_ascii hchars, List.map_map]
  exact (List.map_congr_left fun digit _ => hdigit digit).trans (List.map_id _)

/-- Different bytes have different texts. -/
theorem encode_injective : Function.Injective encode := by
  intro bytes other h
  have htext := congrArg text h
  rw [text_encode, text_encode] at htext
  let f := wire.Format.fixed 2 pair (fun _ => rfl) pair_injective
  have hne : ∀ byte, f.Valid byte → f.spell byte ≠ [] := fun _ _ => List.cons_ne_nil _ _
  exact (f.flatMap_spell_inj hne (fun _ _ => trivial) (fun _ _ => trivial)).mp htext

theorem length_flatMap_pair (bytes : List UInt8) : (bytes.flatMap pair).length = 2 * bytes.length := by
  have hpair (byte : UInt8) : (pair byte).length = 2 := rfl
  simp [List.length_flatMap, hpair, Nat.mul_comm]

/-- An even number of digits is made of pairs. -/
theorem exists_flatMap_pair : ∀ {digits : List UInt8}, digits.length % 2 = 0 → digits.all is_digit = true →
    ∃ bytes : List UInt8, digits = bytes.flatMap pair
  | [], _, _ => ⟨[], rfl⟩
  | [_], hlength, _ => by cases hlength
  | high :: low :: digits, hlength, hdigits => by
    rw [List.all_cons, List.all_cons, Bool.and_eq_true, Bool.and_eq_true] at hdigits
    rw [List.length_cons, List.length_cons, Nat.add_assoc, Nat.add_mod_right] at hlength
    obtain ⟨byte, hbyte⟩ := exists_pair hdigits.1 hdigits.2.1
    obtain ⟨bytes, hbytes⟩ := exists_flatMap_pair hlength hdigits.2.2
    exact ⟨byte :: bytes, by rw [List.flatMap_cons, hbyte, hbytes]; rfl⟩

/-- The canonical texts are those that encode bytes. -/
theorem is_canonical_iff {value : String} : is_canonical value = true ↔ ∃ bytes, value = encode bytes := by
  rw [is_canonical, Bool.and_eq_true, decide_eq_true_eq]
  constructor
  · intro ⟨hlength, hdigits⟩
    obtain ⟨bytes, hbytes⟩ := exists_flatMap_pair hlength hdigits
    exact ⟨bytes, text_injective (hbytes.trans (text_encode bytes).symm)⟩
  · rintro ⟨bytes, rfl⟩
    rw [text_encode, length_flatMap_pair, List.all_eq_true]
    refine ⟨Nat.mul_mod_right 2 _, fun digit hdigit => ?_⟩
    obtain ⟨byte, -, hdigit⟩ := List.mem_flatMap.mp hdigit
    exact is_digit_of_mem_pair hdigit

/-- A text has only letters from k through z. -/
theorem mem_encode {bytes : List UInt8} {c : Char} (h : c ∈ (encode bytes).toList) : 107 ≤ c.toNat ∧ c.toNat ≤ 122 := by
  rw [encode, String.toList_ofList] at h
  obtain ⟨digit, hdigit, rfl⟩ := List.mem_map.mp h
  obtain ⟨byte, -, hdigit⟩ := List.mem_flatMap.mp hdigit
  have hrange := is_digit_iff.mp (is_digit_of_mem_pair hdigit)
  change 107 ≤ digit.toUInt32.toNat ∧ digit.toUInt32.toNat ≤ 122
  rw [UInt8.toNat_toUInt32]
  exact hrange

end reverse_hex

/-- Capture IDs are the texts of 16 bytes. -/
theorem CaptureId.canonical_iff {value : String} :
    CaptureId.Canonical value ↔ ∃ bytes : Vector UInt8 16, value = reverse_hex.encode bytes.toList := by
  constructor
  · intro ⟨hlength, hcanonical⟩
    obtain ⟨bytes, rfl⟩ := reverse_hex.is_canonical_iff.mp hcanonical
    rw [reverse_hex.text_encode, reverse_hex.length_flatMap_pair] at hlength
    have hbytes : bytes.length = 16 := by omega
    exact ⟨⟨bytes.toArray, hbytes⟩, rfl⟩
  · rintro ⟨bytes, rfl⟩
    refine ⟨?_, reverse_hex.is_canonical_iff.mpr ⟨bytes.toList, rfl⟩⟩
    rw [reverse_hex.text_encode, reverse_hex.length_flatMap_pair, Vector.length_toList]

/-- The ID that a random UUID becomes. -/
def CaptureId.generate (uuid : Vector UInt8 16) : CaptureId := ⟨_, CaptureId.canonical_iff.mpr ⟨uuid, rfl⟩⟩

end optic.records
