import Optic.Json.Value

namespace serde_json

variable {ρ α β ε : Type}

theorem lookup_of_mem {entries : List (String × Value)} (hdistinct : (entries.map Prod.fst).Nodup) {name : String}
    {value : Value} (h : (name, value) ∈ entries) : entries.lookup name = some value := by
  induction entries with
  | nil => cases h
  | cons entry entries ih =>
    obtain ⟨other, content⟩ := entry
    rw [List.map_cons, List.nodup_cons] at hdistinct
    rcases List.mem_cons.mp h with heq | hrest
    · cases heq
      rw [List.lookup_cons, beq_self_eq_true]
    · have hne : name ≠ other := by
        rintro rfl
        exact hdistinct.1 (List.mem_map.mpr ⟨_, hrest, rfl⟩)
      rw [List.lookup_cons, beq_false_of_ne hne]
      exact ih hdistinct.2 hrest

theorem eq_ok_of_toOption {result : Except ε α} {a : α} (h : result.toOption = some a) : result = .ok a := by
  cases result with
  | ok value => exact congrArg Except.ok (Option.some.inj h)
  | error error => cases h

/-- Some fields of a struct `ρ`: how they are written, and what is read of them, given all of the names. -/
structure Fields (ρ β : Type) where
  names : List String
  entries : ρ → List (String × Value)
  read : List String → Value → Option β
  parts : ρ → β
  named : ∀ r, (entries r).map Prod.fst = names
  read_back : ∀ r all, (all.map Prod.fst).Nodup → entries r ⊆ all →
    read (all.map Prod.fst) (.object all) = some (parts r)

namespace Fields

/-- No field. -/
def done : Fields ρ Unit where
  names := []
  entries _ := []
  read names v := (v.fields names).map fun _ => ()
  parts _ := ()
  named _ := rfl
  read_back r all hdistinct _ := by rw [Value.fields_object rfl hdistinct]; rfl

/-- A field in front of others. -/
def cons (name : String) (write : ρ → Value) (read : List String → Value → Option α) (part : ρ → α)
    (hread : ∀ r all, (all.map Prod.fst).Nodup → (name, write r) ∈ all → read (all.map Prod.fst) (.object all) = some (part r))
    (rest : Fields ρ β) : Fields ρ (α × β) where
  names := name :: rest.names
  entries r := (name, write r) :: rest.entries r
  read names v := do
    let first ← read names v
    let others ← rest.read names v
    return (first, others)
  parts r := (part r, rest.parts r)
  named r := by rw [List.map_cons, rest.named]
  read_back r all hdistinct hall := by
    obtain ⟨hfirst, hrest⟩ := List.cons_subset.mp hall
    rw [hread r all hdistinct hfirst, rest.read_back r all hdistinct hrest]
    rfl

/-- A field that must be there. -/
def field [Json α] (name : String) (part : ρ → α) (rest : Fields ρ β) : Fields ρ (α × β) :=
  cons name (fun r => to_value (part r)) (fun names v => v.required names name) part
    (fun r all hdistinct hfield => by
      rw [Value.required_object _ all rfl hdistinct, lookup_of_mem hdistinct hfield]
      exact Json.read_back (part r)) rest

/-- A field that may be missing or null, and holds a value otherwise. -/
def optional [Json α] [Json (Option α)] (name : String) (part : ρ → Option α)
    (hread : ∀ r, read_option (some (to_value (part r))) = some (part r)) (rest : Fields ρ β) : Fields ρ (Option α × β) :=
  cons name (fun r => to_value (part r)) (fun names v => v.optional names name) part
    (fun r all hdistinct hfield => by
      rw [Value.optional_object _ all rfl hdistinct, lookup_of_mem hdistinct hfield]
      exact hread r) rest

/-- A field that is always written, and defaults to nothing where it is missing or null. -/
def defaulted [Json α] (name : String) (part : ρ → α) (hpresent : ∀ a : α, to_value a ≠ .null) (rest : Fields ρ β) :
    Fields ρ (Option α × β) :=
  cons name (fun r => to_value (part r)) (fun names v => v.optional names name) (fun r => some (part r))
    (fun r all hdistinct hfield => by
      rw [Value.optional_object _ all rfl hdistinct, lookup_of_mem hdistinct hfield, read_option_of_ne_null (hpresent (part r)),
        Json.read_back]
      rfl) rest

/-- Reads all fields, and converts them if they are accepted. -/
def converted (fields : Fields ρ β) (try_from : β → Except ε ρ) (v : Value) : Option ρ :=
  fields.read fields.names v >>= fun parts => (try_from parts).toOption

/-- What is read has fields that its conversion accepts. -/
theorem converted_eq_some {fields : Fields ρ β} {try_from : β → Except ε ρ} {v : Value} {r : ρ}
    (h : fields.converted try_from v = some r) :
    ∃ parts, fields.read fields.names v = some parts ∧ try_from parts = .ok r := by
  obtain ⟨parts, hread, hconvert⟩ := Option.bind_eq_some_iff.mp h
  exact ⟨parts, hread, eq_ok_of_toOption hconvert⟩

/-- Whatever is decoded was read field by field, and has passed the conversion. -/
def Converts [Json ρ] (fields : Fields ρ β) (try_from : β → Except ε ρ) : Prop :=
  ∀ (v : Value) (r : ρ), from_value v = some r → ∃ parts, fields.read fields.names v = some parts ∧ try_from parts = .ok r

theorem converts [Json ρ] {fields : Fields ρ β} {try_from : β → Except ε ρ}
    (hdecoder : (from_value : Value → Option ρ) = fields.converted try_from) : fields.Converts try_from := by
  intro v r h
  rw [hdecoder] at h
  exact converted_eq_some h

/-- A struct that is written field by field, and read from its fields by a conversion that may reject them. -/
@[reducible] def struct (fields : Fields ρ β) (hdistinct : fields.names.Nodup) (try_from : β → Except ε ρ)
    (hparts : ∀ r, try_from (fields.parts r) = .ok r) : Json ρ where
  to_value r := .object (fields.entries r)
  from_value := fields.converted try_from
  read_back r := by
    have hread := fields.read_back r (fields.entries r) (by rwa [fields.named]) (List.Subset.refl _)
    rw [fields.named] at hread
    rw [converted, hread]
    change (try_from (fields.parts r)).toOption = _
    rw [hparts]
    rfl

end Fields

theorem object_ne_null {entries : List (String × Value)} : Value.object entries ≠ .null := nofun

/-- A type that is written as a text, and parsed from one. -/
@[reducible] def parsed (value : α → String) (parse : String → Except ε α) (hparse : ∀ a, parse (value a) = .ok a) : Json α where
  to_value a := .string (value a)
  from_value v := from_value v >>= fun value => (parse value).toOption
  read_back a := by
    change (parse (value a)).toOption = _
    rw [hparse]
    rfl

/-- Whatever is decoded was a text that the parser accepts. -/
def Parses [Json α] (parse : String → Except ε α) : Prop :=
  ∀ (v : Value) (a : α), from_value v = some a → ∃ value, v = .string value ∧ parse value = .ok a

theorem eq_string_of_from_value {v : Value} {value : String} (h : from_value v = some value) : v = .string value := by
  cases v with
  | string text => exact congrArg Value.string (Option.some.inj h)
  | null | bool text | number text | array values | object entries => cases h

theorem parses [Json α] {parse : String → Except ε α}
    (hdecoder : (from_value : Value → Option α) = fun v => from_value v >>= fun value => (parse value).toOption) :
    Parses parse := by
  intro v a h
  rw [hdecoder] at h
  obtain ⟨value, hvalue, hparsed⟩ := Option.bind_eq_some_iff.mp h
  exact ⟨value, eq_string_of_from_value hvalue, eq_ok_of_toOption hparsed⟩

/-- An enumeration without content. -/
@[reducible] def enumeration (variants : List α) (name : α → String)
    (hfind : ∀ a, variants.find? (fun b => name b = name a) = some a) : Json α where
  to_value a := .string (name a)
  from_value := read_variant variants name
  read_back a := read_variant_string (hfind a)

end serde_json
