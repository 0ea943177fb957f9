import Optic.Store.RecordIo
import Optic.Streams.BufWriter
import Optic.Streams.ReaderSpec

open rust file_system streams

namespace optic.store.piecewise

variable {α : Type} [Serde α]

/-- Stops the serializer before it writes more encoded bytes than a reader accepts. -/
structure BoundedWriter where
  inner : BufWriter
  /-- The budget not yet accepted by the buffered writer, including the final line end. -/
  remaining : Nat
  /-- Preserves a size failure when the serializer wraps the error. -/
  exceeded : Bool := false

namespace BoundedWriter

def write (self : BoundedWriter) (bytes : List UInt8) : Except IoError Nat × BoundedWriter :=
  if bytes.length > self.remaining then
    (.error ⟨.Other, "encoded record exceeds its byte limit"⟩, { self with exceeded := true })
  else
    match self.inner.write bytes with
    | (.error source, inner) => (.error source, { self with inner })
    | (.ok written, inner) => (.ok written, { self with inner, remaining := self.remaining - written })

theorem left_of_ok {self next : BoundedWriter} {bytes : List UInt8} {n : Nat} (h : self.write bytes = (.ok n, next)) :
    next.inner.inner.answers.length ≤ self.inner.inner.answers.length := by
  unfold write at h
  split at h
  · cases h
  · split at h
    · cases h
    · next hwrite =>
      cases h
      exact BufWriter.left_of_ok hwrite

theorem left_of_interrupted {self next : BoundedWriter} {bytes : List UInt8} {source : IoError}
    (h : self.write bytes = (.error source, next)) (hsource : is_interrupted source = true) :
    next.inner.inner.answers.length < self.inner.inner.answers.length := by
  unfold write at h
  split at h
  · cases h
    cases hsource
  · split at h
    · next hwrite =>
      cases h
      exact BufWriter.left_of_interrupted hwrite hsource
    · cases h

instance : Write BoundedWriter where
  write := write
  left self := self.inner.inner.answers.length
  left_of_ok := left_of_ok
  left_of_interrupted := left_of_interrupted

/-- What a serializer writes, piece by piece. -/
def write_pieces (self : BoundedWriter) : List (List UInt8) → Except IoError Unit × BoundedWriter
  | [] => (.ok (), self)
  | piece :: pieces =>
    match write_all self piece with
    | (.error source, self) => (.error source, self)
    | (.ok (), self) => self.write_pieces pieces

/-- Writes an encoded record and the final line end. -/
def write_encoded (self : BoundedWriter) (path : Path) (limit : Nat) (pieces : List (List UInt8))
    (failure : Option String) : Except Error Unit × BoundedWriter :=
  match self.write_pieces pieces with
  | (encoded, self) =>
    if self.exceeded then (.error (.RecordTooLarge path limit (limit + 1)), self)
    else
      match encoded, failure with
      | .error source, _ => (.error (.Json path source.message), self)
      | .ok (), some message => (.error (.Json path message), self)
      | .ok (), none =>
        if self.remaining = 0 then (.error (.RecordTooLarge path limit (limit + 1)), self)
        else
          match write_all self (text "\n") with
          | (.error source, self) => (.error (.Filesystem "write" path source), self)
          | (.ok (), self) =>
            match self.inner.flush_buf with
            | (.error source, inner) => (.error (.Filesystem "write" path source), { self with inner })
            | (.ok (), inner) => (.ok (), { self with inner })

end BoundedWriter

/-- Writes one new record whose encoded bytes and final line end fit within the budget. A writer
that goes out of scope passes its buffer on if it can. -/
def write_record (path : Path) (record : α) (limit : Nat) (file : Except IoError Writer) :
    Except Error Unit × Option Writer :=
  match file with
  | .error source => (.error (.Filesystem "create" path source), none)
  | .ok file =>
    let (pieces, failure) := Serde.serialize record
    let (result, writer) := BoundedWriter.write_encoded ⟨{ inner := file }, limit, false⟩ path limit pieces failure
    (result, some writer.inner.flush_buf.2.inner)

/-- Reads at most one byte beyond the record budget before deserialization. -/
def read_bounded_record (reader : Reader) (path : Path) (limit : Nat) : Except Error α × Reader :=
  match reader.read_to_end (limit + 1) with
  | (.error source, reader) => (.error (.Filesystem "read" path source), reader)
  | (.ok bytes, reader) =>
    if bytes.length > limit then (.error (.RecordTooLarge path limit bytes.length), reader)
    else ((Serde.deserialize bytes).mapError (.Json path), reader)

/-- Validates the file type and metadata before reading the actual bytes, which the file may have
got since then. -/
def read_record (path : Path) (limit : Nat) (metadata : Except IoError Metadata) (file : Except IoError Reader) :
    Except Error α := do
  let metadata ← metadata.mapError (.Filesystem "open" path)
  ensure metadata.is_file (.UnexpectedFileType "file" path)
  ensure (!(metadata.len > limit)) (.RecordTooLarge path limit metadata.len)
  let file ← file.mapError (.Filesystem "open" path)
  (read_bounded_record file path limit).1

end optic.store.piecewise
