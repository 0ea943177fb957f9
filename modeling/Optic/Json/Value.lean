import Mathlib.Data.List.Nodup

namespace serde_json

/-- A parsed number. What is written as an integer and fits is one; anything else is the
bit pattern of a float. -/
inductive Number where
  | pos_int (value : UInt64)
  | neg_int (value : Int64)
  | float (bits : UInt64)
deriving DecidableEq

/-- A parsed document. The entries of an object are in the order of the document. -/
inductive Value where
  | null
  | bool (value : Bool)
  | number (value : Number)
  | string (value : String)
  | array (values : List Value)
  | object (entries : List (String × Value))

/-- A type with a form in JSON. What is written is read back. -/
class Json (α : Type) where
  to_value : α → Value
  from_value : Value → Option α
  read_back : ∀ a, from_value (to_value a) = some a

export Json (to_value from_value)

attribute [simp] Json.read_back

variable {α : Type}

instance : Json Bool where
  to_value := .bool
  from_value
    | .bool value => some value
    | _ => none
  read_back _ := rfl

instance : Json String where
  to_value := .string
  from_value
    | .string value => some value
    | _ => none
  read_back _ := rfl

instance : Json UInt64 where
  to_value value := .number (.pos_int value)
  from_value
    | .number (.pos_int value) => some value
    | _ => none
  read_back _ := rfl

instance : Json UInt32 where
  to_value value := .number (.pos_int value.toUInt64)
  from_value
    | .number (.pos_int value) => if value.toNat < UInt32.size then some value.toUInt32 else none
    | _ => none
  read_back value := by simp [value.toNat_lt, UInt32.size]

/-- A sequence is read exactly when each of its elements is. -/
theorem mapM_eq_some_iff {β : Type} {f : β → Option α} {values : List β} {l : List α} :
    values.mapM f = some l ↔ List.Forall₂ (fun v a => f v = some a) values l := by
  induction values generalizing l with
  | nil => simp [eq_comm]
  | cons v values ih =>
    rw [List.forall₂_cons_left_iff]
    simp only [List.mapM_cons, Option.bind_eq_bind, Option.bind_eq_some_iff, Option.pure_def, ih, Option.some.injEq]
    constructor
    · rintro ⟨a, ha, rest, hrest, rfl⟩
      exact ⟨a, rest, ha, hrest, rfl⟩
    · rintro ⟨a, rest, ha, hrest, rfl⟩
      exact ⟨a, ha, rest, hrest, rfl⟩

instance [Json α] : Json (List α) where
  to_value l := .array (l.map to_value)
  from_value
    | .array values => values.mapM from_value
    | _ => none
  read_back l := by
    rw [mapM_eq_some_iff, List.forall₂_map_left_iff, List.forall₂_same]
    exact fun a _ => Json.read_back a

/-- `Option<T>`: null, like an absent field, is nothing. -/
def read_option [Json α] : Option Value → Option (Option α)
  | none | some .null => some none
  | some v => (from_value v).map some

theorem read_option_of_ne_null [Json α] {v : Value} (h : v ≠ .null) :
    read_option (some v) = (from_value v).map (some : α → Option α) := by
  cases v with
  | null => exact absurd rfl h
  | bool value | number value | string value | array values | object entries => rfl

instance : Json (Option String) where
  to_value
    | some value => .string value
    | none => .null
  from_value v := read_option (some v)
  read_back value := by cases value <;> rfl

namespace Value

/-- The fields of a struct that a value holds: by name, each at most once and no other, or by
position. -/
def fields (names : List String) : Value → Option (List (String × Value))
  | .object entries =>
    if (entries.map Prod.fst).Nodup ∧ entries.map Prod.fst ⊆ names then some entries else none
  | .array values => if values.length ≤ names.length then some (names.zip values) else none
  | _ => none

/-- The value of a field, where it has one. -/
def field (names : List String) (v : Value) (name : String) : Option Value :=
  v.fields names >>= fun entries => entries.lookup name

/-- Reads a field that must be there. -/
def required [Json α] (names : List String) (v : Value) (name : String) : Option α :=
  v.field names name >>= from_value

/-- Reads a field that need not be there. -/
def optional [Json α] (names : List String) (v : Value) (name : String) : Option (Option α) :=
  v.fields names >>= fun entries => read_option (entries.lookup name)

theorem fields_object {names : List String} {entries : List (String × Value)} (hnames : entries.map Prod.fst = names)
    (hdistinct : names.Nodup) : (object entries).fields names = some entries :=
  if_pos ⟨hnames ▸ hdistinct, hnames ▸ List.Subset.refl _⟩

/-- What a struct is written as holds its fields. -/
theorem field_object {names : List String} {entries : List (String × Value)} (hnames : entries.map Prod.fst = names)
    (hdistinct : names.Nodup) (name : String) : (object entries).field names name = entries.lookup name := by
  rw [field, fields_object hnames hdistinct]
  rfl

/-- What a struct is written as has each of its fields to read. -/
theorem required_object (names : List String) (entries : List (String × Value)) (hnames : entries.map Prod.fst = names)
    (hdistinct : names.Nodup) [Json α] (name : String) :
    (object entries).required names name = (entries.lookup name >>= from_value : Option α) := by
  rw [required, field_object hnames hdistinct]

theorem optional_object (names : List String) (entries : List (String × Value)) (hnames : entries.map Prod.fst = names)
    (hdistinct : names.Nodup) [Json α] (name : String) :
    (object entries).optional names name = (read_option (entries.lookup name) : Option (Option α)) := by
  rw [optional, fields_object hnames hdistinct]
  rfl

/-- The variant that a value names, with its content where it has one. -/
def variant : Value → Option (String × Option Value)
  | .string name => some (name, none)
  | .object [(name, content)] => some (name, some content)
  | _ => none

end Value

/-- The content of a variant without fields. -/
def unit_content : Option Value → Option Unit
  | none | some .null => some ()
  | some _ => none

/-- Reads a variant without fields among those of an enumeration. -/
def read_variant (variants : List α) (name : α → String) (v : Value) : Option α := do
  let (text, content) ← v.variant
  unit_content content
  variants.find? fun a => name a = text

/-- A variant is found by its own name. -/
theorem read_variant_string {variants : List α} {name : α → String} {a : α}
    (h : variants.find? (fun b => name b = name a) = some a) : read_variant variants name (.string (name a)) = some a :=
  h

end serde_json
