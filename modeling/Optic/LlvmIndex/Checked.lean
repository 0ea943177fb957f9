import Optic.LlvmIndex.Reader

open byte_scan rust optic.records

namespace optic.llvm_index.checked

/-- A subtraction that panics instead of wrapping around. -/
def sub (a b : Nat) : Program Nat :=
  if b ≤ a then return a - b else panicked "attempt to subtract with overflow"

/-- A 64-bit addition that panics instead of wrapping around. -/
def add (a b : Nat) : Program Nat :=
  if a + b < UInt64.size then return a + b else panicked "attempt to add with overflow"

/-- Panics where one more entry would exceed what the header budget allows a buffer. -/
def reserve (buffer : List UInt8) : Program Unit :=
  if buffer.length < HEADER_LIMIT then return () else panicked "buffer exceeds the header budget"

/-- Appends a byte to a token. -/
def push (bytes : List UInt8) (byte : UInt8) : Program (List UInt8) := do
  reserve bytes
  return bytes ++ [byte]

/-- An `InvalidData` error at the byte that was consumed last. -/
def invalid_before {α : Type} (message : String) : Program α := do
  let offset ← sub (← stream.offset) 1
  invalid offset message

/-- One turn of the two-digit loop. -/
def digit (bytes : List UInt8) : Program (List UInt8) := do
  match ← stream.take with
  | none => invalid (← stream.offset) "Expected two LLVM escape digits, got EOF"
  | some digit =>
    if is_ascii_hexdigit digit then push bytes digit
    else invalid_before "Expected an LLVM hex escape"

def complete_quoted_escape (bytes : List UInt8) : Program (List UInt8) := do
  if (← stream.peek) = some (ascii '\\') then
    let byte ← stream.take_expected "peek established the escaped backslash"
    push bytes byte
  else
    let bytes ← digit bytes
    digit bytes

def quoted_turn (bytes : List UInt8) : Program (List UInt8 ⊕ List UInt8) := do
  match ← stream.take with
  | none => invalid (← stream.offset) "Expected a closing LLVM quote, got EOF"
  | some byte =>
    let bytes ← push bytes byte
    if byte = ascii '"' then .stop bytes
    else if byte = ascii '\n' || byte = ascii '\r' then invalid_before "Expected an escaped LLVM newline"
    else if byte = ascii '\\' then
      let bytes ← complete_quoted_escape bytes
      .again bytes
    else .again bytes

def complete_quoted_token (bytes : List UInt8) : Program (List UInt8) := Scan.iter quoted_turn bytes

def word_turn (bytes : List UInt8) : Program (List UInt8 ⊕ List UInt8) := do
  match ← stream.peek with
  | none => .stop bytes
  | some byte =>
    if is_word byte then
      let byte ← stream.take_expected "peek established the next token byte"
      let bytes ← push bytes byte
      .again bytes
    else .stop bytes

def complete_token (first : UInt8) : Program (List UInt8) := do
  if first = ascii '"' then
    complete_quoted_token [first]
  else if ← stream.opens_quote first then
    let quote ← stream.take_expected "peek established the opening quote"
    let bytes ← push [first] quote
    complete_quoted_token bytes
  else if !is_word first && !is_sigil first && first ≠ ascii '!' then
    return [first]
  else
    Scan.iter word_turn [first]

def read_token (stop_at_newline : Bool) : Program (Option Token) := do
  if ← stream.header_active then
    if ← stream.skip_blank stop_at_newline then
      return none
    else
      let offset ← stream.offset
      match ← stream.take with
      | none => return none
      | some first =>
        let bytes ← complete_token first
        return some { bytes, offset }
  else panicked "header tokens require an active byte budget"

def read_required_token : Program Token := do
  match ← read_token false with
  | some token => return token
  | none => invalid (← stream.offset) "Expected an LLVM header token, got EOF"

def group_turn : List UInt8 → Program (List UInt8 ⊕ Unit)
  | [] => .stop ()
  | expected :: outer => do
    let token ← read_required_token
    match token.bytes with
    | [byte] =>
      match matching_close byte with
      | some close =>
        reserve (expected :: outer)
        .again (close :: expected :: outer)
      | none =>
        if !is_close byte then .again (expected :: outer)
        else if byte ≠ expected then
          invalid token.offset "Expected a matching LLVM delimiter"
        else .again outer
    | _ => .again (expected :: outer)

def consume_group (opening : UInt8) : Program Unit :=
  match matching_close opening with
  | some close => Scan.iter group_turn [close]
  | none => panicked "group callers supply an opening delimiter"

def body_turn (state : stream.BodyState) : Program (stream.BodyState ⊕ Unit) := do
  match ← stream.take with
  | none => invalid (← stream.offset) "Expected a closing LLVM body brace, got EOF"
  | some byte =>
    if state.comment then .again { state with comment := byte ≠ ascii '\n' }
    else if state.escape_digits = 2 && byte = ascii '\\' then .again { state with escape_digits := 0 }
    else if state.escape_digits ≠ 0 && !is_ascii_hexdigit byte then invalid_before "Expected an LLVM hex escape"
    else if state.escape_digits ≠ 0 then
      let escape_digits ← sub state.escape_digits 1
      .again { state with escape_digits }
    else if state.quoted && (byte = ascii '\n' || byte = ascii '\r') then
      invalid_before "Expected an escaped LLVM newline"
    else if state.quoted && byte = ascii '"' then .again { state with quoted := false }
    else if state.quoted && byte = ascii '\\' then .again { state with escape_digits := 2 }
    else if state.quoted then .again state
    else if byte = ascii ';' then .again { state with comment := true }
    else if byte = ascii '"' then .again { state with quoted := true }
    else if byte = ascii '{' then
      let depth ← add state.depth 1
      .again { state with depth }
    else if byte = ascii '}' then
      if state.depth = 1 then .stop ()
      else
        let depth ← sub state.depth 1
        .again { state with depth }
    else .again state

def skip_body : Program Unit := Scan.iter body_turn {}

def finish_definition (symbol : String) (start : Nat) (kind : LlvmDefinitionKind) : Program LlvmDefinitionRecord := do
  let stop ← stream.offset
  let length ← sub stop start
  let range ← invalid_record start (ByteRange.new (.ofNat start) (.ofNat length))
  invalid_record start (LlvmDefinitionRecord.new symbol range kind)

/-- Converts a digit, and panics instead of wrapping around on any other byte. -/
def hex (byte : UInt8) : Except Error UInt8 :=
  if ascii '0' ≤ byte && byte ≤ ascii '9' then .ok (byte - ascii '0')
  else if ascii 'a' ≤ byte && byte ≤ ascii 'f' then .ok (byte - ascii 'a' + 10)
  else if ascii 'A' ≤ byte then .ok (byte - ascii 'A' + 10)
  else .error (.panicked "attempt to subtract with overflow")

def decode_escape (bytes : List UInt8) (read : Nat) : Except Error (UInt8 × Nat) := do
  let first ← index_byte bytes read
  if first = ascii '\\' then
    return (first, read + 1)
  let second ← index_byte bytes (read + 1)
  return (((← hex first) <<< 4) ||| (← hex second), read + 2)

def decode_byte (quoted : Bool) (bytes : List UInt8) (read : Nat) : Except Error (UInt8 × Nat) := do
  let byte ← index_byte bytes read
  if quoted && byte = ascii '\\' then decode_escape bytes (read + 1)
  else return (byte, read + 1)

def decode_loop (quoted : Bool) (stop : Nat) : Nat → List UInt8 → Nat → Nat → Except Error (List UInt8 × Nat)
  | 0, bytes, _, write => .ok (bytes, write)
  | bound + 1, bytes, read, write =>
    if read < stop then do
      let (byte, read) ← decode_byte quoted bytes read
      let bytes ← set_byte bytes write byte
      decode_loop quoted stop bound bytes read (write + 1)
    else .ok (bytes, write)

def decode_symbol (token : Token) : Except Error String := do
  if token.bytes.head? ≠ some (ascii '@') || token.bytes.length = 1 then
    .error (.invalid token.offset "Expected an LLVM global symbol")
  else do
    let second ← index_byte token.bytes 1
    let quoted := second = ascii '"'
    if !quoted && is_ascii_digit second && !(token.bytes.drop 1).all is_ascii_digit then
      .error (.invalid token.offset "Expected a numeric LLVM slot or a named symbol")
    else do
      let stop := token.bytes.length - (if quoted then 1 else 0)
      let start := if quoted then 2 else 1
      let (bytes, write) ← decode_loop quoted stop (stop - start) token.bytes start 0
      match from_utf8 (bytes.take write) with
      | some symbol => .ok symbol
      | none => .error (.invalid token.offset "Expected a UTF-8 LLVM symbol")

end optic.llvm_index.checked
