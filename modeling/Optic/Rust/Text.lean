import Mathlib.Data.List.DropRight
import Optic.Rust.Decimal

namespace rust

/-- Stands for bytes that are no UTF-8. -/
def REPLACEMENT_CHARACTER : Char := Char.ofNat 0xFFFD

/-- How many bytes a first byte announces, and the range of the one directly behind it. -/
def announced (first : UInt8) : Option (Nat × UInt8 × UInt8) :=
  if 0xC2 ≤ first && first ≤ 0xDF then some (1, 0x80, 0xBF)
  else if first = 0xE0 then some (2, 0xA0, 0xBF)
  else if first = 0xED then some (2, 0x80, 0x9F)
  else if 0xE1 ≤ first && first ≤ 0xEF then some (2, 0x80, 0xBF)
  else if first = 0xF0 then some (3, 0x90, 0xBF)
  else if first = 0xF4 then some (3, 0x80, 0x8F)
  else if 0xF1 ≤ first && first ≤ 0xF3 then some (3, 0x80, 0xBF)
  else none

/-- How many bytes continue a sequence, up to the number that it has. -/
def continued : Nat → UInt8 → UInt8 → List UInt8 → Nat
  | count + 1, lowest, highest, byte :: bytes =>
    if lowest ≤ byte && byte ≤ highest then continued count 0x80 0xBF bytes + 1 else 0
  | _, _, _, _ => 0

/-- The character that starts with a byte, and how many of the bytes behind it belong to it. A
sequence that breaks off is replaced as one. -/
def next_char (first : UInt8) (rest : List UInt8) : Char × Nat :=
  match ByteArray.utf8DecodeChar? ⟨(first :: rest).toArray⟩ 0 with
  | some c => (c, c.utf8Size - 1)
  | none =>
    match announced first with
    | some (count, lowest, highest) => (REPLACEMENT_CHARACTER, continued count lowest highest rest)
    | none => (REPLACEMENT_CHARACTER, 0)

/-- Decodes behind bytes that the character before them still covers. -/
def decode_lossy : Nat → List UInt8 → List Char
  | _, [] => []
  | covered + 1, _ :: rest => decode_lossy covered rest
  | 0, first :: rest => (next_char first rest).1 :: decode_lossy (next_char first rest).2 rest

/-- `String::from_utf8_lossy`. -/
def from_utf8_lossy (bytes : List UInt8) : String := String.ofList (decode_lossy 0 bytes)

theorem decode_lossy_append (covered bytes : List UInt8) :
    decode_lossy covered.length (covered ++ bytes) = decode_lossy 0 bytes := by
  induction covered with
  | nil => rfl
  | cons byte covered ih => exact ih

theorem decode_lossy_encode (c : Char) (bytes : List UInt8) :
    decode_lossy 0 (String.utf8EncodeChar c ++ bytes) = c :: decode_lossy 0 bytes := by
  have hdecode := ByteArray.utf8DecodeChar?_utf8EncodeChar_append (b := ⟨bytes.toArray⟩) (c := c)
  have hlength := String.length_utf8EncodeChar c
  cases hencoded : String.utf8EncodeChar c with
  | nil =>
    rw [hencoded] at hlength
    exact absurd hlength.symm (Nat.ne_of_gt c.utf8Size_pos)
  | cons first rest =>
    rw [hencoded] at hdecode hlength
    have hbytes : (first :: rest).toByteArray ++ ⟨bytes.toArray⟩ = (⟨(first :: (rest ++ bytes)).toArray⟩ : ByteArray) := by
      apply ByteArray.ext
      simp
    rw [hbytes] at hdecode
    have hrest : c.utf8Size - 1 = rest.length := by
      rw [List.length_cons] at hlength
      omega
    have hnext : next_char first (rest ++ bytes) = (c, rest.length) := by
      rw [next_char, hdecode]
      exact congrArg (c, ·) hrest
    rw [List.cons_append, decode_lossy, hnext, decode_lossy_append]

/-- Valid UTF-8 is decoded as it is. -/
theorem from_utf8_lossy_text (s : String) : from_utf8_lossy (text s) = s := by
  have hchars (chars : List Char) : decode_lossy 0 (chars.flatMap String.utf8EncodeChar) = chars := by
    induction chars with
    | nil => rfl
    | cons c chars ih => rw [List.flatMap_cons, decode_lossy_encode, ih]
  rw [← String.ofList_toList (s := s), from_utf8_lossy, text_ofList, hchars]

example : from_utf8_lossy [0x61, 0xE2, 0x82, 0x62, 0xFF] = "a\uFFFDb\uFFFD" := by decide

/-- A line without the `\r` that ends it. -/
def without_return (line : List Char) : List Char := if line.getLast? = some '\r' then line.dropLast else line

/-- `str::lines`. Only a `\r` in front of a `\n` belongs to the line ending. -/
def lines (s : String) : List String :=
  let parts := s.toList.splitOn '\n'
  let rest := parts.getLast?.filter fun part => !part.isEmpty
  (parts.dropLast.map without_return ++ rest.toList).map String.ofList

/-- `char::is_whitespace`. -/
def is_whitespace (c : Char) : Bool :=
  (0x09 ≤ c.toNat && c.toNat ≤ 0x0D) || (0x2000 ≤ c.toNat && c.toNat ≤ 0x200A) ||
    [0x20, 0x85, 0xA0, 0x1680, 0x2028, 0x2029, 0x202F, 0x205F, 0x3000].contains c.toNat

/-- `str::trim`. -/
def trim (s : String) : String := String.ofList ((s.toList.dropWhile is_whitespace).rdropWhile is_whitespace)

/-- `str::strip_prefix`. -/
def strip_prefix (s front : String) : Option String :=
  if front.toList.isPrefixOf s.toList then some (String.ofList (s.toList.drop front.toList.length)) else none

/-- The first part of `str::split`. -/
def first_part (s : String) (separator : Char) : String := String.ofList (s.toList.takeWhile fun c => c ≠ separator)

/-- The parts in front of the first separator and behind it. -/
def divide {α : Type} [BEq α] (separator : List α) : List α → Option (List α × List α)
  | [] => if separator.isEmpty then some ([], []) else none
  | c :: rest =>
    if separator.isPrefixOf (c :: rest) then some ([], (c :: rest).drop separator.length)
    else (divide separator rest).map fun parts => (c :: parts.1, parts.2)

section

variable {α : Type} [BEq α] [LawfulBEq α] {separator : α} {before behind : List α}

theorem divide_append (h : separator ∉ before) : divide [separator] (before ++ separator :: behind) = some (before, behind) := by
  induction before with
  | nil => simp [divide, List.isPrefixOf]
  | cons c before ih =>
    rw [List.mem_cons, not_or] at h
    rw [List.cons_append, divide, ih h.2]
    simp [List.isPrefixOf, h.1]

/-- The first separator is where a text is split. -/
theorem eq_of_divide {l : List α} (h : divide [separator] l = some (before, behind)) : l = before ++ separator :: behind := by
  induction l generalizing before with
  | nil => simp [divide] at h
  | cons c l ih =>
    rw [divide] at h
    split at h
    · next hc =>
      cases h
      have hc : separator = c := by simpa [List.isPrefixOf] using hc
      rw [hc]
      rfl
    · obtain ⟨parts, hparts, hsame⟩ := Option.map_eq_some_iff.mp h
      cases hsame
      rw [ih hparts]
      rfl

end

/-- `str::split_once`. -/
def split_once (s separator : String) : Option (String × String) :=
  (divide separator.toList s.toList).map fun parts => (String.ofList parts.1, String.ofList parts.2)

example : split_once "build.rustc = \"a = b\"" " = " = some ("build.rustc", "\"a = b\"") := by decide

/-- `u64::checked_add`. -/
def checked_add (a b : UInt64) : Option UInt64 := if a.toNat + b.toNat < UInt64.size then some (a + b) else none

theorem checked_add_eq_some {a b sum : UInt64} (h : checked_add a b = some sum) : sum.toNat = a.toNat + b.toNat := by
  unfold checked_add at h
  split at h
  · next hfits =>
    cases h
    rw [UInt64.toNat_add]
    exact Nat.mod_eq_of_lt hfits
  · cases h

instance lawful_order_sup_u64 : Std.LawfulOrderSup UInt64 where
  max_le_iff a b c := by
    change (if a ≤ b then b else a) ≤ c ↔ _
    simp only [UInt64.le_iff_toNat_le]
    split <;> omega

/-- The greatest of a list is above all of it. -/
theorem le_of_max?_eq_some {values : List UInt64} {greatest : UInt64} (h : values.max? = some greatest) :
    ∀ value ∈ values, value.toNat ≤ greatest.toNat :=
  fun value hvalue => UInt64.le_iff_toNat_le.mp ((List.max?_le_iff h).mp (Std.le_refl greatest) value hvalue)

end rust
