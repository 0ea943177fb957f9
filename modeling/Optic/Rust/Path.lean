import Optic.Rust.Bytes

namespace rust

/-- A file name: UTF-8 text, or bytes that are none. -/
inductive OsString where
  | utf8 (text : String)
  | other (bytes : List UInt8) (invalid : from_utf8 bytes = none)
deriving DecidableEq

instance : Coe String OsString := ⟨.utf8⟩

def OsString.into_string : OsString → Option String
  | .utf8 text => some text
  | .other _ _ => none

theorem OsString.into_string_eq_some {name : OsString} {text : String} :
    name.into_string = some text ↔ name = text := by
  cases name <;> simp [into_string]

/-- `OsStr::as_encoded_bytes`. -/
def OsString.as_encoded_bytes : OsString → List UInt8
  | .utf8 text => rust.text text
  | .other bytes _ => bytes

theorem OsString.as_encoded_bytes_inj {name other : OsString} :
    name.as_encoded_bytes = other.as_encoded_bytes ↔ name = other := by
  constructor
  · intro h
    cases name with
    | utf8 text =>
      cases other with
      | utf8 text' => rw [text_injective h]
      | other bytes invalid =>
        change rust.text text = bytes at h
        rw [← h, from_utf8_text] at invalid
        cases invalid
    | other bytes invalid =>
      cases other with
      | utf8 text =>
        change bytes = rust.text text at h
        rw [h, from_utf8_text] at invalid
        cases invalid
      | other bytes' invalid' =>
        cases h
        rfl
  · intro h
    rw [h]

/-- A name of bytes. -/
def OsString.of_bytes (bytes : List UInt8) : OsString :=
  match h : from_utf8 bytes with
  | some text => .utf8 text
  | none => .other bytes h

theorem OsString.as_encoded_bytes_of_bytes (bytes : List UInt8) : (OsString.of_bytes bytes).as_encoded_bytes = bytes := by
  unfold of_bytes
  split
  · next text h => exact text_of_from_utf8 h
  · rfl

/-- A file name up to its last dot, if that is not in front. -/
def OsString.file_stem (self : OsString) : List UInt8 :=
  let name := self.as_encoded_bytes
  let stem := (name.reverse.dropWhile (· ≠ ascii '.')).tail.reverse
  if name = text ".." || stem = [] then name else stem

/-- A file name with another extension. -/
def OsString.with_extension (self : OsString) (extension : String) : OsString :=
  .of_bytes (self.file_stem ++ text "." ++ text extension)

/-- The parts that a Unix path is compared by. -/
inductive Component where
  | RootDir
  | CurDir
  | ParentDir
  | Normal (name : List UInt8)
deriving DecidableEq, Repr

/-- An owned path whose text is UTF-8, kept as written. The paths that compilers and Cargo report are decoded from their output
as text, and a record holds a path as a JSON string, which no other path has. A path that the environment may give in any
encoding is an `OsString`. -/
structure PathBuf where
  text : String
deriving DecidableEq, Repr

namespace PathBuf

/-- The component that a part between slashes stands for, other than an empty part. -/
def component (part : List UInt8) : Component := if part = rust.text ".." then .ParentDir else .Normal part

def is_absolute (self : PathBuf) : Bool := (rust.text self.text).head? = some (ascii '/')

/-- The components of a path: repeated slashes and dot parts disappear, except a dot at
the front of a relative path. -/
def components (self : PathBuf) : List Component :=
  let parts := ((rust.text self.text).splitOn (ascii '/')).filter fun part => part ≠ []
  let normal := (parts.filter fun part => part ≠ rust.text ".").map component
  if self.is_absolute then .RootDir :: normal
  else if parts.head? = some (rust.text ".") then .CurDir :: normal
  else normal

/-- The components of a path that may be no UTF-8. -/
def components_of (path : OsString) : List Component :=
  let parts := (path.as_encoded_bytes.splitOn (ascii '/')).filter fun part => part ≠ []
  let normal := (parts.filter fun part => part ≠ rust.text ".").map component
  if path.as_encoded_bytes.head? = some (ascii '/') then .RootDir :: normal
  else if parts.head? = some (rust.text ".") then .CurDir :: normal
  else normal

theorem components_of_utf8 (self : PathBuf) : components_of self.text = self.components := by
  simp [components_of, components, is_absolute, OsString.as_encoded_bytes]

/-- Paths are equal when their components are. -/
instance : BEq PathBuf := ⟨fun a b => a.components = b.components⟩

theorem beq_iff {a b : PathBuf} : (a == b) = true ↔ a.components = b.components := decide_eq_true_iff

/-- The components of the parent, which the root and the empty path do not have. -/
def parent (self : PathBuf) : Option (List Component) :=
  match self.components.getLast? with
  | none | some .RootDir => none
  | some _ => some self.components.dropLast

def file_name (self : PathBuf) : Option (List UInt8) :=
  match self.components.getLast? with
  | some (.Normal name) => some name
  | _ => none

/-- The text of a component. -/
def component_text : Component → List UInt8
  | .RootDir => rust.text "/"
  | .CurDir => rust.text "."
  | .ParentDir => rust.text ".."
  | .Normal name => name

/-- The text of the path that components build up. -/
def collect : List Component → List UInt8
  | .RootDir :: components => ascii '/' :: (rust.text "/").intercalate (components.map component_text)
  | components => (rust.text "/").intercalate (components.map component_text)

/-- Appends a relative name. -/
def join (self : PathBuf) (name : String) : PathBuf :=
  ⟨if self.text = "" || (rust.text self.text).getLast? = some (ascii '/') then self.text ++ name
    else self.text ++ "/" ++ name⟩

/-- Appends a name that may be absolute, and then takes the place of the path. -/
def push (self : PathBuf) (name : String) : PathBuf :=
  if (⟨name⟩ : PathBuf).is_absolute then ⟨name⟩ else self.join name

end PathBuf

end rust
