import Optic.Store.Error

open rust file_system

namespace optic.store

/-- How a kind of record is encoded: the pieces that the serializer writes with the failure that
it may end with, and the deserializer. What is encoded completely is decoded again, also with a
line end behind it. -/
class Serde (α : Type) where
  serialize : α → List (List UInt8) × Option String
  deserialize : List UInt8 → Except String α
  round_trip : ∀ record pieces, serialize record = (pieces, none) →
    deserialize (pieces.flatten ++ text "\n") = .ok record

/-- A format with an encoding of one record only. -/
@[reducible] def Serde.single {α : Type} [DecidableEq α] (record : α) (json : String) : Serde α where
  serialize other := if other = record then ([text json], none) else ([], some "unsupported record")
  deserialize bytes := if bytes = text json ++ text "\n" then .ok record else .error "unsupported record"
  round_trip other pieces h := by
    split at h
    · next heq =>
      obtain rfl := heq
      cases h
      simp
    · cases h

/-- A format with encodings of two records. -/
@[reducible] def Serde.pair {α : Type} [DecidableEq α] (first second : α) : Serde α where
  serialize record :=
    if record = first then ([text "0"], none) else if record = second then ([text "1"], none)
    else ([], some "unsupported record")
  deserialize bytes :=
    if bytes = text "0\n" then .ok first else if bytes = text "1\n" then .ok second else .error "unsupported record"
  round_trip record pieces h := by
    split at h
    · next heq =>
      obtain rfl := heq
      cases h
      rfl
    · split at h
      · next heq =>
        obtain rfl := heq
        cases h
        rfl
      · cases h

variable {α : Type} [Serde α]

/-- Reads at most one byte beyond the budget of what is left of an open file. -/
def read_bounded_record (rest : List UInt8) (path : Path) (limit : Nat) : Action Error α := do
  let bytes ← with_context "read" path (read (.ok (rest.take (limit + 1))))
  check (!(bytes.length > limit)) (.RecordTooLarge path limit bytes.length)
  .map_err (.Json path) (.lift (Serde.deserialize bytes))

/-- Validates the file type and the length before it reads the bytes. -/
def read_record (path : Path) (limit : Nat) : Action Error α := do
  let metadata ← with_context "open" path (symlink_metadata path)
  check metadata.is_file (.UnexpectedFileType "file" path)
  check (!(metadata.len > limit)) (.RecordTooLarge path limit metadata.len)
  let rest ← with_context "open" path (open_file path)
  read_bounded_record rest path limit

/-- The capacity of a `BufWriter`. -/
def BUFFER_BYTES : Nat := 8192

/-- Stops the serializer before it writes more bytes to a file than a reader accepts. -/
structure BoundedWriter where
  buffer : List UInt8 := []
  remaining : Nat
  exceeded : Bool := false

namespace BoundedWriter

/-- A step of a writer. A failure hands the writer back. -/
abbrev Step := Action (IoError × BoundedWriter) BoundedWriter

/-- Passes the buffer on to the file. What a failure leaves stays buffered. -/
def flush (self : BoundedWriter) (path : Path) : Step :=
  if self.buffer = [] then pure self
  else do
    (write_file path self.buffer).map_err fun (error, written) =>
      (error, { self with buffer := self.buffer.drop written })
    return { self with buffer := [] }

/-- Passes on directly what no buffer can hold. -/
def write_through (self : BoundedWriter) (path : Path) (bytes : List UInt8) : Step :=
  if bytes.length ≥ BUFFER_BYTES then do
    (write_file path bytes).map_err fun (error, _) => (error, self)
    return self
  else return { self with buffer := self.buffer ++ bytes }

/-- `BufWriter::write`: buffers what fits, and makes room for what does not. -/
def write_inner (self : BoundedWriter) (path : Path) (bytes : List UInt8) : Step :=
  if self.buffer.length + bytes.length < BUFFER_BYTES then pure { self with buffer := self.buffer ++ bytes }
  else if self.buffer.length + bytes.length > BUFFER_BYTES then do
    let self ← self.flush path
    self.write_through path bytes
  else self.write_through path bytes

def write (self : BoundedWriter) (path : Path) (bytes : List UInt8) : Step :=
  if bytes.length > self.remaining then
    .fail (⟨.Other, "encoded record exceeds its byte limit"⟩, { self with exceeded := true })
  else do
    let self ← self.write_inner path bytes
    return { self with remaining := self.remaining - bytes.length }

/-- What a serializer writes, piece by piece. -/
def write_pieces (self : BoundedWriter) (path : Path) : List (List UInt8) → Step
  | [] => pure self
  | piece :: pieces => do
    let self ← self.write path piece
    self.write_pieces path pieces

/-- Writes an encoded record and the final line end. -/
def write_encoded (self : BoundedWriter) (path : Path) (limit : Nat) (pieces : List (List UInt8))
    (failure : Option String) : Action (Error × BoundedWriter) BoundedWriter := do
  let too_large : Error := .RecordTooLarge path limit (limit + 1)
  let self ← (self.write_pieces path pieces).map_err fun (error, self) =>
    (if self.exceeded then too_large else .Json path error.message, self)
  .lift (match failure with
    | some message => .error (.Json path message, self)
    | none => .ok ())
  .lift (ensure (self.remaining ≠ 0) (too_large, self))
  let self ← (self.write path (text "\n")).map_err fun (error, self) => (.Filesystem "write" path error, self)
  (self.flush path).map_err fun (error, self) => (.Filesystem "write" path error, self)

/-- A writer that goes out of scope passes its buffer on if it can. -/
def drop_after (self : BoundedWriter) (path : Path) (error : Error) : Action Error Unit :=
  .attempt (self.flush path) fun _ => .fail error

end BoundedWriter

/-- Writes one new record whose encoded bytes and final line end fit within the budget. -/
def write_record (path : Path) (record : α) (limit : Nat) : Action Error Unit := do
  with_context "create" path (create_new path)
  let (pieces, failure) := Serde.serialize record
  .attempt (BoundedWriter.write_encoded { remaining := limit } path limit pieces failure) fun
    | .ok _ => pure ()
    | .error (error, writer) => writer.drop_after path error

end optic.store
