import Mathlib.Data.List.Induction
import Mathlib.Tactic.Common
import Optic.Rust.Bytes

namespace rust

theorem text_append (s t : String) : text (s ++ t) = text s ++ text t := by simp [text]

/-- The text of characters is made of the encodings of the characters. -/
theorem text_ofList (chars : List Char) : text (String.ofList chars) = chars.flatMap String.utf8EncodeChar := by
  simp [text, List.utf8Encode]

/-- A character takes four bytes at most. -/
theorem text_length_le (chars : List Char) : (text (String.ofList chars)).length ≤ 4 * chars.length := by
  rw [text_ofList, List.length_flatMap]
  induction chars with
  | nil => exact Nat.le_refl _
  | cons c chars ih =>
    have hsize := c.utf8Size_le_four
    rw [List.map_cons, List.sum_cons, String.length_utf8EncodeChar, List.length_cons]
    omega

theorem text_append_length_le {s t : String} {m n : Nat} (hs : (text s).length ≤ m) (ht : (text t).length ≤ n) :
    (text (s ++ t)).length ≤ m + n := by
  rw [text_append, List.length_append]
  exact Nat.add_le_add hs ht

/-- ASCII characters are encoded as themselves. -/
theorem text_ofList_ascii {chars : List Char} (h : ∀ c ∈ chars, c.toNat < 128) :
    text (String.ofList chars) = chars.map ascii := by
  rw [text_ofList]
  induction chars with
  | nil => rfl
  | cons c chars ih =>
    rw [List.forall_mem_cons] at h
    have hsize : c.utf8Size = 1 := by
      rw [Char.utf8Size_eq_one_iff]
      have hc := h.1
      rw [UInt32.le_iff_toNat_le]
      exact Nat.le_of_lt_succ hc
    rw [List.flatMap_cons, ih h.2, String.utf8EncodeChar_eq_singleton hsize]
    rfl

/-- The decimal digits of a number. -/
def decimal (n : Nat) : List UInt8 := text (toString n)

/-- The number that decimal digits stand for. -/
def of_decimal (digits : List UInt8) : Nat := digits.foldl (fun value digit => 10 * value + (digit.toNat - 48)) 0

theorem digit_toNat {n : Nat} : ∀ c ∈ Nat.toDigits 10 n, 48 ≤ c.toNat ∧ c.toNat ≤ 57 := by
  intro c hc
  exact Char.isDigit_iff_toNat.mp (Nat.isDigit_of_mem_toDigits (by omega) (by omega) hc)

theorem decimal_eq (n : Nat) : decimal n = (Nat.toDigits 10 n).map ascii := by
  rw [decimal, Nat.toString_eq_ofList_toDigits, text_ofList_ascii]
  intro c hc
  have hdigit := digit_toNat c hc
  omega

theorem ascii_toNat {c : Char} (h : c.toNat < 128) : (ascii c).toNat = c.toNat := by
  rw [ascii, Char.toUInt8, UInt32.toNat_toUInt8]
  exact Nat.mod_eq_of_lt (Nat.lt_trans h (by omega))

theorem ascii_digit {c : Char} (h : 48 ≤ c.toNat ∧ c.toNat ≤ 57) : (ascii c).toNat = c.toNat :=
  ascii_toNat (by omega)

/-- A number is read back from its digits. -/
theorem of_decimal_decimal (n : Nat) : of_decimal (decimal n) = n := by
  have hfold (chars : List Char) (hdigits : ∀ c ∈ chars, 48 ≤ c.toNat ∧ c.toNat ≤ 57) : ∀ value,
      (chars.map ascii).foldl (fun value digit => 10 * value + (digit.toNat - 48)) value =
        Nat.ofDigitChars 10 chars value := by
    induction chars with
    | nil => exact fun value => rfl
    | cons c chars ih =>
      intro value
      rw [List.forall_mem_cons] at hdigits
      rw [List.map_cons, List.foldl_cons, ih hdigits.2, ascii_digit hdigits.1, Nat.ofDigitChars_cons]
      rfl
  rw [of_decimal, decimal_eq, hfold _ digit_toNat, Nat.ofDigitChars_ten_toDigits]

theorem decimal_digits (n : Nat) : (decimal n).all is_ascii_digit = true := by
  rw [decimal_eq, List.all_map, List.all_eq_true]
  intro c hc
  have hdigit := digit_toNat c hc
  have hbyte := ascii_digit hdigit
  simp only [Function.comp_apply, is_ascii_digit, Bool.and_eq_true, decide_eq_true_eq, UInt8.le_iff_toNat_le]
  exact ⟨hbyte ▸ hdigit.1, hbyte ▸ hdigit.2⟩

theorem decimal_ne_nil (n : Nat) : decimal n ≠ [] := by
  rw [decimal_eq]
  simp

/-- Only zero starts with a zero. -/
theorem head_toDigits {n : Nat} (h : (Nat.toDigits 10 n).head? = some '0') : n = 0 := by
  induction n using Nat.strongRecOn with
  | ind n ih =>
    rw [Nat.toDigits_eq_if (by omega)] at h
    by_cases hn : n < 10
    · rw [if_pos hn] at h
      have hdigits : ∀ n < 10, n.digitChar = '0' → n = 0 := by decide
      exact hdigits n hn (Option.some.inj h)
    · have hsome : (Nat.toDigits 10 (n / 10)).head?.isSome := List.isSome_head?.mpr Nat.toDigits_ne_nil
      rw [if_neg hn, List.head?_append, Option.or_of_isSome hsome] at h
      have hzero := ih (n / 10) (by omega) h
      omega

/-- No number of several digits starts with a zero. -/
theorem decimal_leading {n : Nat} (h : 1 < (decimal n).length) : (decimal n).head? ≠ some (ascii '0') := by
  intro hhead
  rw [decimal_eq, List.head?_map, Option.map_eq_some_iff] at hhead
  obtain ⟨c, hc, hascii⟩ := hhead
  have hdigit := digit_toNat c (List.mem_of_head? hc)
  have hvalue := congrArg UInt8.toNat hascii
  rw [ascii_digit hdigit, ascii_digit (by decide)] at hvalue
  have hzero : c = '0' := Char.toNat_inj.mp hvalue
  rw [hzero] at hc
  rw [head_toDigits hc, decimal_eq, Nat.toDigits_zero] at h
  simp at h

/-- A digit is the text of its value. -/
theorem decimal_digit {digit : UInt8} (h : is_ascii_digit digit = true) : decimal (digit.toNat - 48) = [digit] := by
  have hdigits : ∀ value < 10, decimal value = [UInt8.ofNat (48 + value)] := by decide
  rw [is_ascii_digit, Bool.and_eq_true, decide_eq_true_eq, decide_eq_true_eq, UInt8.le_iff_toNat_le,
    UInt8.le_iff_toNat_le] at h
  have hlow : 48 ≤ digit.toNat := h.1
  have hhigh : digit.toNat ≤ 57 := h.2
  rw [hdigits _ (by omega), Nat.add_sub_cancel' hlow, UInt8.ofNat_toNat]

/-- One more digit behind the digits of a positive number. -/
theorem decimal_append_digit {n : Nat} {digit : UInt8} (hn : 0 < n) (hdigit : is_ascii_digit digit = true) :
    decimal (10 * n + (digit.toNat - 48)) = decimal n ++ [digit] := by
  have hlast := decimal_digit hdigit
  rw [is_ascii_digit, Bool.and_eq_true, decide_eq_true_eq, decide_eq_true_eq, UInt8.le_iff_toNat_le,
    UInt8.le_iff_toNat_le] at hdigit
  have hd : digit.toNat - 48 < 10 := by
    have hle : digit.toNat ≤ 57 := hdigit.2
    omega
  rw [decimal_eq, ← Nat.toDigits_append_toDigits (by omega) hn hd, List.map_append, ← decimal_eq, ← decimal_eq, hlast]

theorem of_decimal_append_digit (digits : List UInt8) (digit : UInt8) :
    of_decimal (digits ++ [digit]) = 10 * of_decimal digits + (digit.toNat - 48) := by
  rw [of_decimal, List.foldl_append]
  rfl

/-- Digits without a leading zero are the digits of their number. -/
theorem decimal_of_decimal {digits : List UInt8} (hdigits : digits.all is_ascii_digit = true) (hne : digits ≠ [])
    (hleading : 1 < digits.length → digits.head? ≠ some (ascii '0')) : decimal (of_decimal digits) = digits := by
  induction digits using List.reverseRecOn with
  | nil => exact absurd rfl hne
  | append_singleton digits digit ih =>
    rw [List.all_append, Bool.and_eq_true, List.all_cons, List.all_nil, Bool.and_true] at hdigits
    obtain ⟨hfront, hdigit⟩ := hdigits
    rw [of_decimal_append_digit]
    cases digits with
    | nil =>
      rw [show 10 * of_decimal [] = 0 from rfl, Nat.zero_add]
      exact decimal_digit hdigit
    | cons first digits =>
      have hlong : 1 < (first :: digits ++ [digit]).length := by
        rw [List.length_append, List.length_cons, List.length_singleton]
        omega
      have hfirst : first ≠ ascii '0' := by
        intro h
        apply hleading hlong
        rw [h]
        rfl
      have hdecimal := ih hfront (List.cons_ne_nil first digits) fun _ h => hfirst (Option.some.inj h)
      have hpositive : 0 < of_decimal (first :: digits) := by
        apply Nat.pos_of_ne_zero
        intro hzero
        rw [hzero] at hdecimal
        exact hfirst (List.cons.inj hdecimal).1.symm
      rw [decimal_append_digit hpositive hdigit, hdecimal]

end rust
