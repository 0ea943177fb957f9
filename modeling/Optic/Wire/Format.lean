import Mathlib.Algebra.Group.Nat.Defs
import Mathlib.Tactic.Common

namespace wire

/-- The little-endian bytes of a number, cut off at a width. -/
def le_bytes : Nat → Nat → List UInt8
  | 0, _ => []
  | width + 1, n => UInt8.ofNat n :: le_bytes width (n / 256)

/-- The number that little-endian bytes spell. -/
def of_le_bytes : List UInt8 → Nat
  | [] => 0
  | byte :: rest => byte.toNat + 256 * of_le_bytes rest

@[simp] theorem length_le_bytes (width : Nat) : ∀ n, (le_bytes width n).length = width := by
  induction width with
  | zero => exact fun _ => rfl
  | succ width ih => exact fun n => by rw [le_bytes, List.length_cons, ih]

theorem of_le_bytes_lt (bytes : List UInt8) : of_le_bytes bytes < 256 ^ bytes.length := by
  induction bytes with
  | nil => simp [of_le_bytes]
  | cons byte rest ih =>
    have hbyte := byte.toNat_lt
    rw [of_le_bytes, List.length_cons, Nat.pow_succ]
    omega

/-- A number that fits in a width is the number of its bytes. -/
theorem of_le_bytes_le_bytes {width : Nat} : ∀ {n : Nat}, n < 256 ^ width → of_le_bytes (le_bytes width n) = n := by
  induction width with
  | zero =>
    intro n h
    rw [Nat.pow_zero] at h
    rw [le_bytes, of_le_bytes]
    omega
  | succ width ih =>
    intro n h
    have hrest : n / 256 < 256 ^ width := by
      rw [Nat.pow_succ] at h
      exact Nat.div_lt_of_lt_mul (by omega)
    rw [le_bytes, of_le_bytes, ih hrest, UInt8.toNat_ofNat']
    omega

/-- Bytes are the bytes of their number. -/
theorem le_bytes_of_le_bytes (bytes : List UInt8) : le_bytes bytes.length (of_le_bytes bytes) = bytes := by
  induction bytes with
  | nil => rfl
  | cons byte rest ih =>
    have hbyte := byte.toNat_lt
    have hlow : UInt8.ofNat (byte.toNat + 256 * of_le_bytes rest) = byte := by
      apply UInt8.toNat_inj.mp
      rw [UInt8.toNat_ofNat']
      omega
    have hhigh : (byte.toNat + 256 * of_le_bytes rest) / 256 = of_le_bytes rest := by omega
    rw [List.length_cons, of_le_bytes, le_bytes, hlow, hhigh, ih]

theorem le_bytes_injective {width m n : Nat} (hm : m < 256 ^ width) (hn : n < 256 ^ width)
    (h : le_bytes width m = le_bytes width n) : m = n := by
  rw [← of_le_bytes_le_bytes hm, h, of_le_bytes_le_bytes hn]

/-- A way to spell the valid values of a type as bytes. What follows a spelling never
changes where it ends and what it stands for. -/
structure Format (α : Type) where
  Valid : α → Prop
  spell : α → List UInt8
  delimited : ∀ {x y : α} {u v : List UInt8}, Valid x → Valid y → spell x ++ u = spell y ++ v → x = y ∧ u = v

namespace Format

variable {α β : Type}

/-- No two values are spelled alike. -/
theorem injective (f : Format α) {x y : α} (hx : f.Valid x) (hy : f.Valid y) (h : f.spell x = f.spell y) : x = y :=
  (f.delimited hx hy (congrArg (· ++ []) h)).1

/-- No spelling is the front of another one. -/
theorem eq_of_prefix (f : Format α) {x y : α} (hx : f.Valid x) (hy : f.Valid y) (h : f.spell x <+: f.spell y) :
    x = y := by
  obtain ⟨u, h⟩ := h
  exact (f.delimited hx hy (h.trans (List.append_nil _).symm)).1

/-- Values that are spelled injectively in one width. -/
def fixed (width : Nat) (spell : α → List UInt8) (hlength : ∀ x, (spell x).length = width)
    (hinjective : ∀ x y, spell x = spell y → x = y) : Format α where
  Valid _ := True
  spell := spell
  delimited {x y u v} _ _ h := by
    obtain ⟨hspell, hrest⟩ := List.append_inj h ((hlength x).trans (hlength y).symm)
    exact ⟨hinjective x y hspell, hrest⟩

def u32 : Format UInt32 :=
  fixed 4 (fun n => le_bytes 4 n.toNat) (fun _ => length_le_bytes 4 _) fun m n h =>
    UInt32.toNat_inj.mp (le_bytes_injective m.toNat_lt n.toNat_lt h)

def u64 : Format UInt64 :=
  fixed 8 (fun n => le_bytes 8 n.toNat) (fun _ => length_le_bytes 8 _) fun m n h =>
    UInt64.toNat_inj.mp (le_bytes_injective m.toNat_lt n.toNat_lt h)

theorem length_spell_u32 (n : UInt32) : (u32.spell n).length = 4 := length_le_bytes 4 _

theorem length_spell_u64 (n : UInt64) : (u64.spell n).length = 8 := length_le_bytes 8 _

/-- Four bytes are the spelling of the number they make up. -/
theorem spell_u32_of_le_bytes {bytes : List UInt8} (h : bytes.length = 4) :
    u32.spell (.ofNat (of_le_bytes bytes)) = bytes := by
  have hbound := of_le_bytes_lt bytes
  have hbytes := le_bytes_of_le_bytes bytes
  rw [h] at hbound hbytes
  change le_bytes 4 (UInt32.ofNat (of_le_bytes bytes)).toNat = bytes
  rw [UInt32.toNat_ofNat_of_lt' hbound, hbytes]

theorem spell_u64_of_le_bytes {bytes : List UInt8} (h : bytes.length = 8) :
    u64.spell (.ofNat (of_le_bytes bytes)) = bytes := by
  have hbound := of_le_bytes_lt bytes
  have hbytes := le_bytes_of_le_bytes bytes
  rw [h] at hbound hbytes
  change le_bytes 8 (UInt64.ofNat (of_le_bytes bytes)).toNat = bytes
  rw [UInt64.toNat_ofNat_of_lt' hbound, hbytes]

theorem of_le_bytes_spell_u32 (n : UInt32) : UInt32.ofNat (of_le_bytes (u32.spell n)) = n := by
  change UInt32.ofNat (of_le_bytes (le_bytes 4 n.toNat)) = n
  rw [of_le_bytes_le_bytes n.toNat_lt, UInt32.ofNat_toNat]

theorem of_le_bytes_spell_u64 (n : UInt64) : UInt64.ofNat (of_le_bytes (u64.spell n)) = n := by
  change UInt64.ofNat (of_le_bytes (le_bytes 8 n.toNat)) = n
  rw [of_le_bytes_le_bytes n.toNat_lt, UInt64.ofNat_toNat]

/-- Bytes behind their number. -/
def block : Format (List UInt8) where
  Valid bytes := bytes.length < UInt32.size
  spell bytes := u32.spell (UInt32.ofNat bytes.length) ++ bytes
  delimited {x y u v} hx hy h := by
    rw [List.append_assoc, List.append_assoc] at h
    obtain ⟨hlength, h⟩ := u32.delimited trivial trivial h
    have hsame : x.length = y.length := by
      have hnat := congrArg UInt32.toNat hlength
      rwa [UInt32.toNat_ofNat_of_lt' hx, UInt32.toNat_ofNat_of_lt' hy] at hnat
    exact List.append_inj h hsame

/-- Bytes behind their number, which is spelled in eight bytes. -/
def long_block : Format (List UInt8) where
  Valid bytes := bytes.length < UInt64.size
  spell bytes := u64.spell (UInt64.ofNat bytes.length) ++ bytes
  delimited {x y u v} hx hy h := by
    rw [List.append_assoc, List.append_assoc] at h
    obtain ⟨hlength, h⟩ := u64.delimited trivial trivial h
    have hsame : x.length = y.length := by
      have hnat := congrArg UInt64.toNat hlength
      rwa [UInt64.toNat_ofNat_of_lt' hx, UInt64.toNat_ofNat_of_lt' hy] at hnat
    exact List.append_inj h hsame

/-- Spells values as what they injectively stand for. -/
def map (f : Format α) (image : β → α) (hinjective : ∀ {x y}, image x = image y → x = y) : Format β where
  Valid x := f.Valid (image x)
  spell x := f.spell (image x)
  delimited hx hy h := by
    obtain ⟨himage, hrest⟩ := f.delimited hx hy h
    exact ⟨hinjective himage, hrest⟩

/-- Items one after the other, and a terminator in place of another one. -/
def spell_many (f : Format (Option α)) : List α → List UInt8
  | [] => f.spell none
  | x :: l => f.spell (some x) ++ spell_many f l

/-- The terminator keeps sequences of different lengths apart. -/
theorem spell_many_delimited {f : Format (Option α)} (hnone : f.Valid none) {l l' : List α} {u v : List UInt8}
    (hl : ∀ x ∈ l, f.Valid (some x)) (hl' : ∀ x ∈ l', f.Valid (some x))
    (h : spell_many f l ++ u = spell_many f l' ++ v) : l = l' ∧ u = v := by
  induction l generalizing l' with
  | nil =>
    cases l' with
    | nil => exact ⟨rfl, (f.delimited hnone hnone h).2⟩
    | cons y l' =>
      rw [spell_many, spell_many, List.append_assoc] at h
      obtain ⟨hitem, -⟩ := f.delimited hnone (hl' y List.mem_cons_self) h
      cases hitem
  | cons x l ih =>
    have hx := hl x List.mem_cons_self
    rw [spell_many, List.append_assoc] at h
    cases l' with
    | nil =>
      obtain ⟨hitem, -⟩ := f.delimited hx hnone h
      cases hitem
    | cons y l' =>
      rw [spell_many, List.append_assoc] at h
      obtain ⟨hitem, h⟩ := f.delimited hx (hl' y List.mem_cons_self) h
      obtain ⟨hrest, huv⟩ := ih (fun z hz => hl z (List.mem_cons_of_mem x hz))
        (fun z hz => hl' z (List.mem_cons_of_mem y hz)) h
      exact ⟨by rw [Option.some.inj hitem, hrest], huv⟩

/-- Any number of items. -/
def many (f : Format (Option α)) : Format (List α) where
  Valid l := f.Valid none ∧ ∀ x ∈ l, f.Valid (some x)
  spell := spell_many f
  delimited hl hl' h := spell_many_delimited hl.1 hl.2 hl'.2 h

/-- Items that are spelled in at least one byte each need no terminator in front of the end. -/
theorem flatMap_spell_inj (f : Format α) (hne : ∀ x, f.Valid x → f.spell x ≠ []) {l l' : List α}
    (hl : ∀ x ∈ l, f.Valid x) (hl' : ∀ x ∈ l', f.Valid x) : l.flatMap f.spell = l'.flatMap f.spell ↔ l = l' := by
  constructor
  · intro h
    induction l generalizing l' with
    | nil =>
      cases l' with
      | nil => rfl
      | cons y l' =>
        have hspell := (List.append_eq_nil_iff.mp h.symm).1
        exact absurd hspell (hne y (hl' y List.mem_cons_self))
    | cons x l ih =>
      have hx := hl x List.mem_cons_self
      cases l' with
      | nil =>
        have hspell := (List.append_eq_nil_iff.mp h).1
        exact absurd hspell (hne x hx)
      | cons y l' =>
        rw [List.flatMap_cons, List.flatMap_cons] at h
        obtain ⟨hitem, hrest⟩ := f.delimited hx (hl' y List.mem_cons_self) h
        have htail := ih (fun z hz => hl z (List.mem_cons_of_mem x hz))
          (fun z hz => hl' z (List.mem_cons_of_mem y hz)) hrest
        rw [hitem, htail]
  · intro h
    rw [h]

end Format

end wire
