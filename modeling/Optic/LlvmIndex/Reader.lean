import Optic.LlvmIndex.Scanner

open byte_scan rust optic.records

namespace optic.llvm_index

def CHUNK_SIZE : Nat := 8192

/-- One answer of a reader to a read request. -/
inductive ReadEvent where
  | data (bytes : List UInt8)
  | error (error : IoError)
deriving DecidableEq, Repr

/-- A reader is the finite sequence of its answers. Behind them it is at the end of
its input, where every read returns zero bytes. -/
abbrev Reader := List ReadEvent

/-- A single `read` into a buffer of `CHUNK_SIZE` bytes. -/
def Reader.read : Reader → Except IoError (List UInt8) × Reader
  | [] => (.ok [], [])
  | .data bytes :: rest => (.ok bytes, rest)
  | .error error :: rest => (.error error, rest)

/-- Fixed-buffer input that tracks consumed bytes independently of reader lookahead. -/
structure Stream where
  reader : Reader
  chunk : List UInt8
  /-- The next unread chunk index, always at or before the filled length. -/
  position : Nat
  /-- The filled prefix of the fixed chunk. -/
  length : Nat
  /-- The number of bytes consumed from the complete input, not just the current chunk. -/
  offset : Nat
  /-- A consumed header start whose distance from the offset is at most the header limit. -/
  header_start : Option Nat

namespace Stream

/-- Starts an input stream at byte zero with no active header budget. -/
def new (reader : Reader) : Stream :=
  { reader, chunk := List.replicate CHUNK_SIZE 0, position := 0, length := 0, offset := 0,
    header_start := none }

/-- Repeats a read while it is interrupted. -/
def refill_read : Reader → Except IoError (List UInt8) × Reader
  | [] => Reader.read []
  | .data bytes :: rest => Reader.read (.data bytes :: rest)
  | .error error :: rest =>
    if error.kind = .Interrupted then refill_read rest else Reader.read (.error error :: rest)

/-- Refills an exhausted chunk without changing the absolute offset or header budget. -/
def refill (self : Stream) : Except Error Stream :=
  match refill_read self.reader with
  | (.ok bytes, reader) =>
    .ok { self with
      reader, chunk := bytes ++ self.chunk.drop bytes.length, length := bytes.length, position := 0 }
  | (.error error, _) => .error (.reader error)

/-- Reads ahead without consuming a byte or changing the header budget. -/
def peek (self : Stream) : Except Error (Option UInt8 × Stream) := do
  let self ← if self.position = self.length then self.refill else .ok self
  return (if self.position < self.length then self.chunk[self.position]? else none, self)

end Stream

/-- Charges one byte to the active header and to the absolute offset. -/
def charge (offset : Nat) (header_start : Option Nat) : Except Error Nat :=
  if header_start.any (fun start => offset - start = HEADER_LIMIT) then
    .error (.invalid offset "LLVM header exceeds the 1 MiB budget")
  else if offset + 1 < UInt64.size then .ok (offset + 1)
  else .error (.invalid offset "LLVM byte offset exceeds u64")

theorem charge_ok {offset next : Nat} {header_start : Option Nat}
    (h : charge offset header_start = .ok next) : next = offset + 1 ∧ next < UInt64.size := by
  unfold charge at h
  split at h
  · cases h
  · split at h
    · next hbound =>
      cases h
      exact ⟨rfl, hbound⟩
    · cases h

/-- Consumes one byte while enforcing the active header and absolute-offset bounds. -/
def Stream.take (self : Stream) : Except Error (Option UInt8 × Stream) := do
  match ← self.peek with
  | (none, self) => return (none, self)
  | (some byte, self) =>
    let offset ← charge self.offset self.header_start
    return (some byte, { self with offset, position := self.position + 1 })

/-- The bytes that a reader still delivers, up to its first error. -/
def Reader.bytes : Reader → List UInt8
  | [] => []
  | .data bytes :: rest => bytes ++ Reader.bytes rest
  | .error error :: rest => if error.kind = .Interrupted then Reader.bytes rest else []

/-- The first error of a reader that is not an interruption. -/
def Reader.failure : Reader → Option IoError
  | [] => none
  | .data _ :: rest => Reader.failure rest
  | .error error :: rest => if error.kind = .Interrupted then Reader.failure rest else some error

instance : ByteSource Stream Error where
  peek := Stream.peek
  take := Stream.take
  offset := Stream.offset
  active self := self.header_start.isSome
  budget header_start self := { self with header_start }
  remaining self := (self.length - self.position) + (Reader.bytes self.reader).length

/-- Indexes exact decoded symbols and unchanged byte ranges from LLVM disassembler output. -/
def index (reader : Reader) : Except (Fault Error) (List LlvmDefinitionRecord) :=
  (scan.run (Stream.new reader)).map Prod.fst

/-- A byte slice fills every buffer completely until the last one. -/
def Reader.slices : Nat → List UInt8 → Reader
  | 0, _ => []
  | bound + 1, bytes =>
    if bytes = [] then []
    else .data (bytes.take CHUNK_SIZE) :: Reader.slices bound (bytes.drop CHUNK_SIZE)

/-- The reader of a byte slice, which delivers no more chunks than it has bytes. -/
def Reader.of_slice (bytes : List UInt8) : Reader := Reader.slices bytes.length bytes

/-- Indexes a byte slice. -/
def index_bytes (bytes : List UInt8) : Except (Fault Error) (List LlvmDefinitionRecord) :=
  index (Reader.of_slice bytes)

/-- A contiguous input: the plain byte list that a scan reads, and the failure that
follows it when it is not the whole input. `looked` records whether a read already
looked at the current offset, where the end of the input counts as a byte. -/
structure Contiguous where
  rest : List UInt8
  failure : Option IoError := none
  offset : Nat := 0
  header_start : Option Nat := none
  looked : Bool := false

namespace Contiguous

def look (self : Contiguous) : Contiguous := { self with looked := true }

def peek (self : Contiguous) : Except Error (Option UInt8 × Contiguous) :=
  match self.rest, self.failure with
  | byte :: _, _ => .ok (some byte, self.look)
  | [], some error => .error (.reader error)
  | [], none => .ok (none, self.look)

def take (self : Contiguous) : Except Error (Option UInt8 × Contiguous) :=
  match self.rest, self.failure with
  | byte :: rest, _ => do
    let offset ← charge self.offset self.header_start
    return (some byte, { self with rest, offset, looked := false })
  | [], some error => .error (.reader error)
  | [], none => .ok (none, self.look)

end Contiguous

instance : ByteSource Contiguous Error where
  peek := Contiguous.peek
  take := Contiguous.take
  offset := Contiguous.offset
  active self := self.header_start.isSome
  budget header_start self := { self with header_start }
  remaining self := self.rest.length

namespace Contiguous

@[simp] theorem byte_source_peek (self : Contiguous) : ByteSource.peek self = self.peek := rfl

@[simp] theorem byte_source_take (self : Contiguous) : ByteSource.take self = self.take := rfl

@[simp] theorem byte_source_remaining (self : Contiguous) : ByteSource.remaining self = self.rest.length := rfl

end Contiguous

namespace stream

theorem run_peek (s : Contiguous) : peek.run s =
    match s.peek with
    | .ok (byte, s') => .ok (byte, s')
    | .error error => .error (.error error) := by
  simp only [peek, Scan.run, Contiguous.byte_source_peek]
  cases s.peek <;> rfl

theorem run_take (s : Contiguous) : take.run s =
    match s.take with
    | .ok (byte, s') => .ok (byte, s')
    | .error error => .error (.error error) := by
  simp only [take, Scan.run, Contiguous.byte_source_take]
  cases s.take <;> rfl

end stream

/-- The same scan over a contiguous byte list. -/
def index_contiguous (bytes : List UInt8) (failure : Option IoError) :
    Except (Fault Error) (List LlvmDefinitionRecord) :=
  (scan.run ({ rest := bytes, failure } : Contiguous)).map Prod.fst

end optic.llvm_index
