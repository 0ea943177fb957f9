import Optic.Rust.Bytes
import Optic.Rust.Outcome

open rust

namespace optic.llvm_index

/-- The failures of an index run. `invalid` is an `InvalidData` error with a byte
offset, `reader` passes a reader's own error on, and `panicked` is a failed
assertion or a slice index out of bounds. -/
inductive Error where
  | invalid (offset : Nat) (message : String)
  | reader (error : IoError)
  | panicked (message : String)
deriving DecidableEq, Repr

def Error.kind : Error → ErrorKind
  | .invalid _ _ => .InvalidData
  | .reader error => error.kind
  | .panicked _ => .Other

/-- The text of the error that `invalid` builds from an offset and a message. -/
def Error.display : Error → String
  | .invalid offset message => s!"{message} at byte {offset}"
  | .reader error => error.message
  | .panicked message => message

/-- The header byte budget, independent of LLVM language limits. -/
def HEADER_LIMIT : Nat := 1024 * 1024

/-- A header token whose quotes and escapes were validated by the tokenizer. -/
structure Token where
  /-- The complete token, including its prefix and quotes. -/
  bytes : List UInt8
  /-- The byte offset of the first token byte. -/
  offset : Nat
deriving DecidableEq, Repr

/-- A match of the token's bytes against literal words. -/
def Token.is_any (self : Token) (words : List String) : Bool := self.bytes ∈ words.map text

def is_word (byte : UInt8) : Bool :=
  is_ascii_alphanumeric byte || byte = ascii '_' || byte = ascii '.' || byte = ascii '$' ||
    byte = ascii '-'

/-- The prefixes of a name that may be quoted. -/
def is_sigil (byte : UInt8) : Bool :=
  byte = ascii '@' || byte = ascii '%' || byte = ascii '$'

/-- Classifies an opening delimiter. -/
def matching_close (byte : UInt8) : Option UInt8 :=
  if byte = ascii '(' then some (ascii ')')
  else if byte = ascii '[' then some (ascii ']')
  else if byte = ascii '{' then some (ascii '}')
  else if byte = ascii '<' then some (ascii '>')
  else none

/-- The delimiters that close a group. -/
def is_close (byte : UInt8) : Bool :=
  byte = ascii ')' || byte = ascii ']' || byte = ascii '}' || byte = ascii '>'

/-- Converts a digit already checked by the quoted-token reader. -/
def hex (byte : UInt8) : UInt8 :=
  if ascii '0' ≤ byte && byte ≤ ascii '9' then byte - ascii '0'
  else if ascii 'a' ≤ byte && byte ≤ ascii 'f' then byte - ascii 'a' + 10
  else byte - ascii 'A' + 10

/-- An indexing expression, which panics out of bounds. -/
def index_byte (bytes : List UInt8) (index : Nat) : Except Error UInt8 :=
  match bytes[index]? with
  | some byte => .ok byte
  | none => .error (.panicked "index out of bounds")

/-- An assignment to an indexed byte, which panics out of bounds. -/
def set_byte (bytes : List UInt8) (index : Nat) (byte : UInt8) : Except Error (List UInt8) :=
  if index < bytes.length then .ok (bytes.set index byte) else .error (.panicked "index out of bounds")

/-- Decodes a validated escape after the cursor has consumed its opening backslash.
Returns the byte and the cursor behind the escape. -/
def Token.decode_escape (bytes : List UInt8) (read : Nat) : Except Error (UInt8 × Nat) := do
  let first ← index_byte bytes read
  if first = ascii '\\' then
    return (first, read + 1)
  let second ← index_byte bytes (read + 1)
  return ((hex first <<< 4) ||| hex second, read + 2)

/-- Reads the next byte of the name, which an escape spells inside quotes. -/
def Token.decode_byte (quoted : Bool) (bytes : List UInt8) (read : Nat) : Except Error (UInt8 × Nat) := do
  let byte ← index_byte bytes read
  if quoted && byte = ascii '\\' then Token.decode_escape bytes (read + 1)
  else return (byte, read + 1)

/-- The in-place rewrite of a symbol. Both cursors move through one buffer, and the
bound is the number of bytes that the read cursor can still pass. -/
def Token.decode_loop (quoted : Bool) (stop : Nat) :
    Nat → List UInt8 → Nat → Nat → Except Error (List UInt8 × Nat)
  | 0, bytes, _, write => .ok (bytes, write)
  | bound + 1, bytes, read, write =>
    if read < stop then do
      let (byte, read) ← Token.decode_byte quoted bytes read
      let bytes ← set_byte bytes write byte
      Token.decode_loop quoted stop bound bytes read (write + 1)
    else .ok (bytes, write)

/-- Decodes LLVM global names without demangling or lossy UTF-8 conversion. -/
def Token.decode_symbol (self : Token) : Except Error String := do
  if self.bytes.head? ≠ some (ascii '@') || self.bytes.length = 1 then
    .error (.invalid self.offset "Expected an LLVM global symbol")
  else do
    let second ← index_byte self.bytes 1
    let quoted := second = ascii '"'
    if !quoted && is_ascii_digit second && !(self.bytes.drop 1).all is_ascii_digit then
      .error (.invalid self.offset "Expected a numeric LLVM slot or a named symbol")
    else do
      let stop := self.bytes.length - (if quoted then 1 else 0)
      let start := if quoted then 2 else 1
      let (bytes, write) ← Token.decode_loop quoted stop (stop - start) self.bytes start 0
      match from_utf8 (bytes.take write) with
      | some symbol => .ok symbol
      | none => .error (.invalid self.offset "Expected a UTF-8 LLVM symbol")

end optic.llvm_index
