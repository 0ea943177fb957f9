import Optic.Rust.Path

open rust

namespace file_system

/-- The names that lead from the root of a tree to an entry. -/
abbrev Path := List OsString

def Path.join (self : Path) (name : OsString) : Path := self ++ [name]

/-- What a name can stand for. `other` is a symlink or a special file. -/
inductive Entry where
  | dir
  | file (bytes : List UInt8)
  | other
deriving DecidableEq, Repr

/-- What an entry's own metadata tells. -/
structure Metadata where
  entry : Entry
deriving DecidableEq, Repr

def Metadata.is_dir (self : Metadata) : Bool := self.entry = .dir

def Metadata.is_file (self : Metadata) : Bool :=
  match self.entry with
  | .file _ => true
  | _ => false

def Metadata.len (self : Metadata) : Nat :=
  match self.entry with
  | .file bytes => bytes.length
  | _ => 0

/-- A tree of entries. -/
abbrev Tree := Path → Option Entry

namespace Tree

def set (tree : Tree) (path : Path) (entry : Entry) : Tree :=
  fun other => if other = path then some entry else tree other

/-- Appends to a file. -/
def append (tree : Tree) (path : Path) (bytes : List UInt8) : Tree :=
  match tree path with
  | some (.file old) => tree.set path (.file (old ++ bytes))
  | _ => tree

/-- Moves an entry and everything below it. -/
def move (tree : Tree) (source destination : Path) : Tree :=
  fun path =>
    if destination <+: path then tree (source ++ path.drop destination.length)
    else if source <+: path then none
    else tree path

@[simp] theorem set_same (tree : Tree) (path : Path) (entry : Entry) : tree.set path entry path = some entry :=
  if_pos rfl

theorem set_other {tree : Tree} {path other : Path} (entry : Entry) (h : other ≠ path) :
    tree.set path entry other = tree other :=
  if_neg h

theorem append_file {tree : Tree} {path : Path} {old : List UInt8} (bytes : List UInt8)
    (h : tree path = some (.file old)) : tree.append path bytes path = some (.file (old ++ bytes)) := by
  rw [append, h]
  exact set_same tree path _

theorem append_other {tree : Tree} {path other : Path} (bytes : List UInt8) (h : other ≠ path) :
    tree.append path bytes other = tree other := by
  cases hentry : tree path with
  | none => rw [append, hentry]
  | some entry => cases entry <;> simp [append, hentry, set_other _ h]

theorem move_below {tree : Tree} {source destination : Path} (path : Path) :
    tree.move source destination (destination ++ path) = tree (source ++ path) := by
  rw [move, if_pos (List.prefix_append _ _), List.drop_left]

theorem move_apart {tree : Tree} {source destination path : Path} (hdestination : ¬ destination <+: path)
    (hsource : ¬ source <+: path) : tree.move source destination path = tree path := by
  rw [move, if_neg hdestination, if_neg hsource]

end Tree

/-- A failed operation. An error that says whether a name exists is never one of these: it
is the answer of a tree. A failed write may still write some bytes. -/
structure Failure where
  error : IoError
  written : Nat := 0
  absent : error.kind ≠ .NotFound
  present : error.kind ≠ .AlreadyExists
deriving DecidableEq

/-- A sink that collects what is written to it, or accepts only so many bytes more. It keeps
the error with which it has refused bytes. -/
structure Sink where
  accepted : List UInt8 := []
  capacity : Option (Nat × IoError) := none
  refused : Option IoError := none
deriving DecidableEq

/-- The state that operations act on. The schedule holds a verdict for each coming
operation, and behind it every operation proceeds. -/
structure World where
  tree : Tree
  schedule : List (Option Failure) := []
  sink : Sink := {}

/-- The verdict on the next operation. -/
def World.verdict (self : World) : Option Failure := self.schedule.head?.join

def World.advance (self : World) : World := { self with schedule := self.schedule.tail }

/-- A program over the file system. What it did before an error stays done. -/
def Action (ε α : Type) := World → Except ε α × World

namespace Action

variable {ε ε' α β : Type}

instance : Monad (Action ε) where
  pure a w := (.ok a, w)
  bind p f w :=
    match p w with
    | (.ok a, w') => f a w'
    | (.error e, w') => (.error e, w')

def fail (error : ε) : Action ε α := fun w => (.error error, w)

/-- A step without effect. -/
def lift (result : Except ε α) : Action ε α := fun w => (result, w)

def map_err (f : ε → ε') (p : Action ε α) : Action ε' α := fun w =>
  match p w with
  | (.ok a, w') => (.ok a, w')
  | (.error e, w') => (.error (f e), w')

/-- Goes on with a result, be it an error. -/
def attempt (p : Action ε α) (f : Except ε α → Action ε' β) : Action ε' β := fun w => f (p w).1 (p w).2

theorem pure_apply (a : α) (w : World) : (pure a : Action ε α) w = (.ok a, w) := rfl

theorem bind_apply (p : Action ε α) (f : α → Action ε β) (w : World) : (p >>= f) w =
    match p w with
    | (.ok a, w') => f a w'
    | (.error e, w') => (.error e, w') := rfl

theorem fail_apply (e : ε) (w : World) : (fail e : Action ε α) w = (.error e, w) := rfl

theorem attempt_apply (p : Action ε α) (f : Except ε α → Action ε' β) (w : World) :
    attempt p f w = f (p w).1 (p w).2 := rfl

theorem lift_apply (result : Except ε α) (w : World) : lift result w = (result, w) := rfl

end Action

/-- An operation that a tree answers, unless it fails. -/
def perform {α : Type} (act : Tree → Except IoError (α × Tree)) : Action IoError α := fun w =>
  match w.verdict with
  | some failure => (.error failure.error, w.advance)
  | none =>
    match act w.tree with
    | .ok (a, tree) => (.ok a, { w.advance with tree })
    | .error error => (.error error, w.advance)

def not_found : IoError := ⟨.NotFound, "No such file or directory (os error 2)"⟩

def already_exists : IoError := ⟨.AlreadyExists, "File exists (os error 17)"⟩

def unexpected_type : IoError := ⟨.Other, "unexpected file type"⟩

def symlink_metadata (path : Path) : Action IoError Metadata :=
  perform fun tree =>
    match tree path with
    | some entry => .ok (⟨entry⟩, tree)
    | none => .error not_found

/-- Creates an entry whose name is free and whose parent is a directory. -/
def create (path : Path) (entry : Entry) : Action IoError Unit :=
  perform fun tree =>
    if tree path ≠ none then .error already_exists
    else if tree path.dropLast ≠ some .dir then .error not_found
    else .ok ((), tree.set path entry)

def create_dir (path : Path) : Action IoError Unit := create path .dir

/-- Opens a new file for writing. -/
def create_new (path : Path) : Action IoError Unit := create path (.file [])

/-- Opens a file for writing, empty, whether it is new or not. -/
def create_file (path : Path) : Action IoError Unit :=
  perform fun tree =>
    match tree path with
    | some (.file _) => .ok ((), tree.set path (.file []))
    | some _ => .error unexpected_type
    | none => if tree path.dropLast ≠ some .dir then .error not_found else .ok ((), tree.set path (.file []))

/-- Opens a file for reading, and returns what there is to read. -/
def open_file (path : Path) : Action IoError (List UInt8) :=
  perform fun tree =>
    match tree path with
    | some (.file bytes) => .ok (bytes, tree)
    | some _ => .error unexpected_type
    | none => .error not_found

/-- Reads from an open file. -/
def read {α : Type} (result : Except IoError α) : Action IoError α := perform fun tree => result.map (·, tree)

/-- Reads exactly `count` bytes of what is left of an open file. -/
def read_exact (rest : List UInt8) (count : Nat) : Action IoError (List UInt8) :=
  read (if count ≤ rest.length then .ok (rest.take count) else .error unexpected_eof)

/-- Starts to read a directory, whose entries come in the given order. -/
def read_dir (path : Path) (names : List OsString) : Action IoError (List OsString) :=
  perform fun tree =>
    match tree path with
    | some .dir => .ok (names, tree)
    | some _ => .error unexpected_type
    | none => .error not_found

/-- Writes to an open file. A failure tells how many bytes were written. -/
def write_file (path : Path) (bytes : List UInt8) : Action (IoError × Nat) Unit := fun w =>
  match w.verdict with
  | some failure => (.error (failure.error, failure.written), { w.advance with tree := w.tree.append path (bytes.take failure.written) })
  | none => (.ok (), { w.advance with tree := w.tree.append path bytes })

/-- Writes everything, or fails. -/
def write_all (path : Path) (bytes : List UInt8) : Action IoError Unit := (write_file path bytes).map_err Prod.fst

/-- Makes bytes the whole content of a file. -/
def write (path : Path) (bytes : List UInt8) : Action IoError Unit := do
  create_file path
  write_all path bytes

/-- Renames a directory onto a free name elsewhere, or another entry onto a name that is no
directory. -/
def rename (source destination : Path) : Action IoError Unit :=
  perform fun tree =>
    if tree destination.dropLast ≠ some .dir then .error not_found
    else
      match tree source, tree destination with
      | none, _ => .error not_found
      | some .dir, none =>
        if source <+: destination then .error unexpected_type else .ok ((), tree.move source destination)
      | some .dir, some _ | some _, some .dir => .error unexpected_type
      | some _, _ => .ok ((), tree.move source destination)

/-- Writes everything to the sink, or as much as it accepts. -/
def write_sink (bytes : List UInt8) : Action IoError Unit := fun w =>
  match w.sink.capacity with
  | none => (.ok (), { w with sink := { w.sink with accepted := w.sink.accepted ++ bytes } })
  | some (room, error) =>
    if bytes.length ≤ room then
      (.ok (), { w with sink := { w.sink with
        accepted := w.sink.accepted ++ bytes
        capacity := some (room - bytes.length, error) } })
    else
      (.error error, { w with sink := {
        accepted := w.sink.accepted ++ bytes.take room
        capacity := some (0, error)
        refused := some error } })

end file_system
