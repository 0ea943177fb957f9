import Optic.LlvmIndex.HeaderReads
import Optic.LlvmIndex.HeaderSpec

open rust

namespace optic.llvm_index

/-- A global of a module: an unnamed one in a numbered slot, or the one with a name. -/
inductive Global where
  | slot (number : Nat)
  | name (bytes : List UInt8)
deriving DecidableEq, Repr

/-- The number that decimal digits stand for. -/
def slot_number (digits : List UInt8) : Nat :=
  digits.foldl (fun number digit => number * 10 + (digit.toNat - (ascii '0').toNat)) 0

/-- The identifier of a numbered slot, which is not quoted. -/
def IsSlot (token digits : List UInt8) : Prop :=
  token = ascii '@' :: digits ∧ digits ≠ [] ∧ ∀ digit ∈ digits, is_ascii_digit digit

/-- The global that an identifier denotes. -/
inductive Denotes : List UInt8 → Global → Prop where
  | slot {token digits : List UInt8} (h : IsSlot token digits) : Denotes token (.slot (slot_number digits))
  | quoted {content name : List UInt8} (hcontent : Spells content name) :
      Denotes (ascii '@' :: ascii '"' :: (content ++ [ascii '"'])) (.name name)
  | word {first : UInt8} {word : List UInt8} (hfirst : ¬ is_ascii_digit first)
      (hword : ∀ byte ∈ first :: word, is_word byte) : Denotes (ascii '@' :: first :: word) (.name (first :: word))

/-- Two identifiers of one global. -/
def Same (a b : List UInt8) : Prop := ∃ denoted, Denotes a denoted ∧ Denotes b denoted

/-- A numbered slot, and a name of the same digits. -/
def Mixed (a b : List UInt8) : Prop := ∃ digits, IsSlot a digits ∧ Denotes b (.name digits)

/-- One slot, but with other zeros in front of its number. -/
def Padded (a b : List UInt8) : Prop :=
  ∃ digits other, IsSlot a digits ∧ IsSlot b other ∧ slot_number digits = slot_number other ∧ digits ≠ other

theorem is_word_ne_quote {byte : UInt8} (h : is_word byte) : byte ≠ ascii '"' := by
  rintro rfl
  exact absurd h (by decide)

theorem is_ascii_digit_ne_quote {byte : UInt8} (h : is_ascii_digit byte) : byte ≠ ascii '"' := by
  rintro rfl
  exact absurd h (by decide)

theorem Spells.unique {content name name' : List UInt8} (h : Spells content name) (h' : Spells content name') :
    name = name' := by
  induction h generalizing name' with
  | nil =>
    cases h'
    rfl
  | raw hquote hbackslash hlf hcr hcontent ih =>
    cases h' with
    | raw _ _ _ _ hcontent' => rw [ih hcontent']
    | backslash _ => exact absurd rfl hbackslash
    | hex _ _ _ => exact absurd rfl hbackslash
  | backslash hcontent ih =>
    cases h' with
    | raw _ hbackslash' _ _ _ => exact absurd rfl hbackslash'
    | backslash hcontent' => rw [ih hcontent']
    | hex hfirst' _ _ => exact absurd hfirst' (by decide)
  | hex hfirst hsecond hcontent ih =>
    cases h' with
    | raw _ hbackslash' _ _ _ => exact absurd rfl hbackslash'
    | backslash _ => exact absurd hfirst (by decide)
    | hex _ _ hcontent' => rw [ih hcontent']

theorem IsSlot.unique {token digits other : List UInt8} (h : IsSlot token digits) (h' : IsSlot token other) :
    digits = other := by
  have heq := h.1.symm.trans h'.1
  simpa using heq

/-- A slot has no name. -/
theorem IsSlot.not_name {token digits name : List UInt8} (h : IsSlot token digits) : ¬ Denotes token (.name name) := by
  obtain ⟨rfl, hne, hdigits⟩ := h
  generalize htoken : ascii '@' :: digits = token
  intro hname
  cases hname with
  | quoted _ =>
    obtain rfl := (List.cons.inj htoken).2
    exact is_ascii_digit_ne_quote (hdigits _ List.mem_cons_self) rfl
  | word hfirst _ =>
    obtain rfl := (List.cons.inj htoken).2
    exact hfirst (hdigits _ List.mem_cons_self)

/-- An identifier denotes one global. -/
theorem Denotes.unique {token : List UInt8} {denoted other : Global} (h : Denotes token denoted) (h' : Denotes token other) :
    denoted = other := by
  cases h with
  | slot hslot =>
    generalize hother : other = g at h'
    cases h' with
    | slot hslot' => rw [hslot.unique hslot']
    | quoted hcontent => exact absurd (Denotes.quoted hcontent) hslot.not_name
    | word hfirst hword => exact absurd (Denotes.word hfirst hword) hslot.not_name
  | @quoted content name hcontent =>
    generalize htoken : ascii '@' :: ascii '"' :: (content ++ [ascii '"']) = token at h'
    cases h' with
    | slot hslot => exact absurd (htoken ▸ Denotes.quoted hcontent) hslot.not_name
    | @quoted content' _ hcontent' =>
      obtain rfl : content = content' := by simpa using htoken
      rw [hcontent.unique hcontent']
    | word _ hword =>
      obtain ⟨rfl, -⟩ := List.cons.inj (List.cons.inj htoken).2
      exact absurd rfl (is_word_ne_quote (hword _ List.mem_cons_self))
  | @word first word hfirst hword =>
    generalize htoken : ascii '@' :: first :: word = token at h'
    cases h' with
    | slot hslot => exact absurd (htoken ▸ Denotes.word hfirst hword) hslot.not_name
    | quoted _ =>
      obtain ⟨rfl, -⟩ := List.cons.inj (List.cons.inj htoken).2
      exact absurd rfl (is_word_ne_quote (hword _ List.mem_cons_self))
    | word _ _ => rw [(List.cons.inj htoken).2]

/-- What an accepted identifier denotes: a slot, whose digits it decodes to, or a name, which
it decodes to. -/
theorem Symbol.denotes {token : List UInt8} {symbol : String} (h : Symbol token symbol) :
    IsSlot token (text symbol) ∨ Denotes token (.name (text symbol)) := by
  cases h with
  | quoted hcontent => exact .inr (.quoted hcontent)
  | @word first word _ hname hword hslot =>
    rw [hname]
    by_cases hfirst : is_ascii_digit first
    · refine .inl ⟨rfl, by simp, ?_⟩
      rw [List.forall_mem_cons]
      exact ⟨hfirst, hslot hfirst⟩
    · exact .inr (.word hfirst hword)

theorem named_eq_ok {offset : Nat} {name : List UInt8} {symbol : String} (h : Token.named offset name = .ok symbol) :
    name = text symbol := by
  unfold Token.named at h
  cases hname : from_utf8 name with
  | none =>
    rw [hname] at h
    cases h
  | some decoded =>
    rw [hname] at h
    cases h
    exact (text_of_from_utf8 hname).symm

/-- The tokens that reading and decoding accept are the symbols. -/
theorem Token.Valid.symbol {token : Token} {symbol : String} (h : token.Valid) (hdecode : token.decode_symbol = .ok symbol) :
    Symbol token.bytes symbol := by
  obtain ⟨rest, hlexeme⟩ := h
  obtain ⟨bytes, offset⟩ := token
  have hat : bytes.head? = some (ascii '@') := by
    by_contra hat
    simp [decode_symbol, hat] at hdecode
  obtain ⟨tail, rfl⟩ := List.head?_eq_some_iff.mp hat
  cases tail with
  | nil => simp [decode_symbol] at hdecode
  | cons first word =>
    by_cases hquote : first = ascii '"'
    · subst hquote
      cases hlexeme with
      | symbol _ hbytes =>
        obtain ⟨content, name, hcontent, rfl⟩ := hbytes
        rw [decode_symbol_quoted hcontent] at hdecode
        exact .quoted (named_eq_ok hdecode ▸ hcontent)
      | word _ hbytes _ _ => exact absurd rfl (is_word_ne_quote (hbytes _ List.mem_cons_self))
    · have hwords : ∀ byte ∈ first :: word, is_word byte := by
        cases hlexeme with
        | symbol _ _ => exact absurd rfl hquote
        | word _ hbytes _ _ => exact hbytes
      rw [decode_symbol_word hquote] at hdecode
      split at hdecode
      · cases hdecode
      · next hslot =>
        refine .word (named_eq_ok hdecode).symm hwords fun hfirst => ?_
        simpa [hfirst] using hslot

/-- Identifiers decode alike exactly when they denote one global, except where a slot meets a
name of its digits, or the same slot with other zeros in front. -/
theorem decode_symbol_same {a b : Token} {s t : String} (ha : a.Valid) (hb : b.Valid) (hs : a.decode_symbol = .ok s)
    (ht : b.decode_symbol = .ok t) :
    (s = t ↔ Same a.bytes b.bytes) ↔ ¬ (Mixed a.bytes b.bytes ∨ Mixed b.bytes a.bytes ∨ Padded a.bytes b.bytes) := by
  rcases (ha.symbol hs).denotes with hslot | hname <;> rcases (hb.symbol ht).denotes with hslot' | hname'
  · have hsame : Same a.bytes b.bytes ↔ slot_number (text s) = slot_number (text t) := by
      constructor
      · rintro ⟨denoted, hdenoted, hdenoted'⟩
        exact Global.slot.inj (((Denotes.slot hslot).unique hdenoted).trans (hdenoted'.unique (.slot hslot')))
      · exact fun h => ⟨_, .slot hslot, h ▸ .slot hslot'⟩
    have hmixed : ¬ Mixed a.bytes b.bytes := fun ⟨_, _, h⟩ => hslot'.not_name h
    have hmixed' : ¬ Mixed b.bytes a.bytes := fun ⟨_, _, h⟩ => hslot.not_name h
    have hpadded : Padded a.bytes b.bytes ↔ slot_number (text s) = slot_number (text t) ∧ s ≠ t := by
      constructor
      · rintro ⟨digits, other, h, h', hnumber, hne⟩
        obtain rfl := hslot.unique h
        obtain rfl := hslot'.unique h'
        exact ⟨hnumber, fun heq => hne (by rw [heq])⟩
      · exact fun ⟨hnumber, hne⟩ => ⟨_, _, hslot, hslot', hnumber, fun heq => hne (text_injective heq)⟩
    rw [hsame, hpadded]
    by_cases heq : s = t
    · simp [heq, hmixed, hmixed']
    · simp [heq, hmixed, hmixed']
  · have hsame : ¬ Same a.bytes b.bytes := by
      rintro ⟨denoted, hdenoted, hdenoted'⟩
      cases (Denotes.unique (.slot hslot) hdenoted).trans (hdenoted'.unique hname')
    have hmixed : Mixed a.bytes b.bytes ↔ s = t := by
      constructor
      · rintro ⟨digits, h, h'⟩
        obtain rfl := hslot.unique h
        exact text_injective (Global.name.inj (h'.unique hname'))
      · rintro rfl
        exact ⟨_, hslot, hname'⟩
    have hmixed' : ¬ Mixed b.bytes a.bytes := fun ⟨_, h, _⟩ => h.not_name hname'
    have hpadded : ¬ Padded a.bytes b.bytes := fun ⟨_, _, _, h, _⟩ => h.not_name hname'
    rw [hmixed]
    simp [hsame, hmixed', hpadded]
  · have hsame : ¬ Same a.bytes b.bytes := by
      rintro ⟨denoted, hdenoted, hdenoted'⟩
      cases (hname.unique hdenoted).trans (hdenoted'.unique (.slot hslot'))
    have hmixed : ¬ Mixed a.bytes b.bytes := fun ⟨_, h, _⟩ => h.not_name hname
    have hmixed' : Mixed b.bytes a.bytes ↔ s = t := by
      constructor
      · rintro ⟨digits, h, h'⟩
        obtain rfl := hslot'.unique h
        exact (text_injective (Global.name.inj (h'.unique hname))).symm
      · rintro rfl
        exact ⟨_, hslot', hname⟩
    have hpadded : ¬ Padded a.bytes b.bytes := fun ⟨_, _, h, _⟩ => h.not_name hname
    rw [hmixed']
    simp [hsame, hmixed, hpadded]
  · have hsame : Same a.bytes b.bytes ↔ s = t := by
      constructor
      · rintro ⟨denoted, hdenoted, hdenoted'⟩
        exact text_injective (Global.name.inj ((hname.unique hdenoted).trans (hdenoted'.unique hname')))
      · rintro rfl
        exact ⟨_, hname, hname'⟩
    have hmixed : ¬ Mixed a.bytes b.bytes := fun ⟨_, h, _⟩ => h.not_name hname
    have hmixed' : ¬ Mixed b.bytes a.bytes := fun ⟨_, h, _⟩ => h.not_name hname'
    have hpadded : ¬ Padded a.bytes b.bytes := fun ⟨_, _, h, _⟩ => h.not_name hname
    simp [hsame, hmixed, hmixed', hpadded]

end optic.llvm_index
