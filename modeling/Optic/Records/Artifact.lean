import Mathlib.Algebra.Group.Nat.Defs
import Optic.Records.Error

namespace optic.records

/-- A capture-local file identity. -/
structure ArtifactId where
  value : UInt64
deriving DecidableEq, Repr

inductive ArtifactKind where
  | Source
  | Llvm
deriving DecidableEq, Repr

structure ArtifactRecord where
  id : ArtifactId
  kind : ArtifactKind
  byte_len : UInt64
deriving DecidableEq, Repr

def hex_digit (n : Nat) : Char := if n < 10 then Char.ofNat (48 + n) else Char.ofNat (87 + n)

/-- The lowest `width` hexadecimal digits of a number. -/
def hex_digits : Nat → Nat → List Char
  | 0, _ => []
  | width + 1, n => hex_digits width (n / 16) ++ [hex_digit (n % 16)]

/-- `artifact-` followed by exactly 16 lowercase hexadecimal digits. -/
def ArtifactRecord.file_name (self : ArtifactRecord) : String :=
  "artifact-" ++ String.ofList (hex_digits 16 self.id.value.toNat)

theorem hex_digit_injective {m n : Nat} (hm : m < 16) (hn : n < 16) (h : hex_digit m = hex_digit n) : m = n := by
  have hdigits : ∀ m < 16, ∀ n < 16, hex_digit m = hex_digit n → m = n := by decide
  exact hdigits m hm n hn h

theorem hex_digits_injective {width : Nat} : ∀ {m n : Nat}, m < 16 ^ width → n < 16 ^ width →
    hex_digits width m = hex_digits width n → m = n := by
  induction width with
  | zero =>
    intro m n hm hn _
    omega
  | succ width ih =>
    intro m n hm hn h
    obtain ⟨hhigh, hlow⟩ := List.append_inj' h rfl
    have hdiv : m / 16 = n / 16 := by
      apply ih _ _ hhigh
      · rw [Nat.pow_succ] at hm
        exact Nat.div_lt_of_lt_mul (by omega)
      · rw [Nat.pow_succ] at hn
        exact Nat.div_lt_of_lt_mul (by omega)
    have hmod : m % 16 = n % 16 :=
      hex_digit_injective (Nat.mod_lt m (by decide)) (Nat.mod_lt n (by decide)) (List.singleton_inj.mp hlow)
    omega

/-- The name of an artifact's file tells its ID. -/
theorem ArtifactRecord.file_name_inj {artifact other : ArtifactRecord} (h : artifact.file_name = other.file_name) :
    artifact.id = other.id := by
  have hdigits := congrArg String.toList h
  simp only [file_name, String.toList_append, String.toList_ofList, List.append_cancel_left_eq] at hdigits
  have hvalue := hex_digits_injective (UInt64.toNat_lt artifact.id.value) (UInt64.toNat_lt other.id.value) hdigits
  obtain ⟨⟨value⟩, _, _⟩ := artifact
  obtain ⟨⟨other⟩, _, _⟩ := other
  exact congrArg ArtifactId.mk (UInt64.toNat_inj.mp hvalue)

theorem ArtifactRecord.file_name_ne (artifact : ArtifactRecord) {name : String} (h : name.toList.head? ≠ some 'a') :
    artifact.file_name ≠ name := by
  rintro rfl
  exact h (by simp [file_name])

/-- A half-open byte range whose exclusive end fits in `u64`. -/
structure ByteRange where
  start : UInt64
  length : UInt64
  fits : start.toNat + length.toNat < UInt64.size
deriving DecidableEq

def ByteRange.new (start length : UInt64) : Except Error ByteRange :=
  if h : start.toNat + length.toNat < UInt64.size then .ok ⟨start, length, h⟩
  else .error (.InvalidField "byte range" s!"overflow at {start} + {length}")

def ByteRange.end (self : ByteRange) : UInt64 := self.start + self.length

@[simp] theorem ByteRange.end_toNat (self : ByteRange) :
    self.end.toNat = self.start.toNat + self.length.toNat := by
  rw [ByteRange.end, UInt64.toNat_add, Nat.mod_eq_of_lt self.fits]

theorem ByteRange.new_eq_ok_iff {start length : UInt64} {range : ByteRange} :
    ByteRange.new start length = .ok range ↔ range.start = start ∧ range.length = length := by
  constructor
  · intro h
    unfold ByteRange.new at h
    split at h
    · cases h
      exact ⟨rfl, rfl⟩
    · cases h
  · rintro ⟨rfl, rfl⟩
    exact dif_pos range.fits

end optic.records
