import Optic.ByteScan.Run
import Optic.LlvmIndex.Token

open byte_scan rust

namespace optic.llvm_index

abbrev Program := Scan Error

/-- Returns the `InvalidData` error that `invalid(offset, message)` builds. -/
def invalid {α : Type} (offset : Nat) (message : String) : Program α :=
  .fail (.invalid offset message)

/-- A failed `assert!` or `expect`. -/
def panicked {α : Type} (message : String) : Program α := .fail (.panicked message)

namespace stream

def peek : Program (Option UInt8) := .peek .done

def take : Program (Option UInt8) := .take .done

def offset : Program Nat := .offset .done

/-- Whether a header budget is active. -/
def header_active : Program Bool := .active .done

def begin_header (start : Nat) : Program Unit := .budget (some start) (.done ())

def end_header : Program Unit := .budget none (.done ())

/-- Consumes through the next newline or the end of input. -/
def skip_line : Program Unit :=
  Scan.iter (fun () => do
    match ← take with
    | none => .stop ()
    | some byte => if byte = ascii '\n' then .stop () else .again ()) ()

/-- Consumes a byte that a peek established. -/
def take_expected (message : String) : Program UInt8 := do
  match ← take with
  | some byte => return byte
  | none => panicked message

/-- Appends the second backslash or two hex digits after a consumed escape marker. -/
def complete_quoted_escape (bytes : List UInt8) : Program (List UInt8) := do
  if (← peek) = some (ascii '\\') then
    let byte ← take_expected "peek established the escaped backslash"
    return bytes ++ [byte]
  else
    let bytes ← digit bytes
    digit bytes
where
  /-- One turn of the two-digit loop. -/
  digit (bytes : List UInt8) : Program (List UInt8) := do
    match ← take with
    | none => invalid (← offset) "Expected two LLVM escape digits, got EOF"
    | some digit =>
      if is_ascii_hexdigit digit then return bytes ++ [digit]
      else invalid ((← offset) - 1) "Expected an LLVM hex escape"

/-- Appends through a closing quote after the caller has consumed the opening quote. -/
def complete_quoted_token (bytes : List UInt8) : Program (List UInt8) :=
  Scan.iter (fun bytes => do
    match ← take with
    | none => invalid (← offset) "Expected a closing LLVM quote, got EOF"
    | some byte =>
      if byte = ascii '"' then .stop (bytes ++ [byte])
      else if byte = ascii '\n' || byte = ascii '\r' then
        invalid ((← offset) - 1) "Expected an escaped LLVM newline"
      else if byte = ascii '\\' then
        let bytes ← complete_quoted_escape (bytes ++ [byte])
        .again bytes
      else .again (bytes ++ [byte])) bytes

/-- Appends the rest of an unquoted word. -/
def complete_word (bytes : List UInt8) : Program (List UInt8) :=
  Scan.iter (fun bytes => do
    match ← peek with
    | none => .stop bytes
    | some byte =>
      if is_word byte then
        let byte ← take_expected "peek established the next token byte"
        .again (bytes ++ [byte])
      else .stop bytes) bytes

/-- Whether a sigil is followed by a quote. Behind any other byte nothing is peeked. -/
def opens_quote (first : UInt8) : Program Bool :=
  if is_sigil first then do
    let next ← peek
    return next = some (ascii '"')
  else return false

/-- Completes a token whose first byte is already consumed. -/
def complete_token (first : UInt8) : Program (List UInt8) := do
  if first = ascii '"' then
    complete_quoted_token [first]
  else if ← opens_quote first then
    let quote ← take_expected "peek established the opening quote"
    complete_quoted_token [first, quote]
  else if !is_word first && !is_sigil first && first ≠ ascii '!' then
    return [first]
  else
    complete_word [first]

/-- Skips whitespace and comments. Returns whether a line ended where newlines end a
header. -/
def skip_blank (stop_at_newline : Bool) : Program Bool :=
  Scan.iter (fun () => do
    match ← peek with
    | none => .stop false
    | some byte =>
      if byte = ascii ';' then
        skip_line
        if stop_at_newline then .stop true else .again ()
      else if is_ascii_whitespace byte then
        let _ ← take
        if stop_at_newline && byte = ascii '\n' then .stop true else .again ()
      else .stop false) ()

/-- Reads one token, optionally treating a newline as the end of a header. -/
def read_token (stop_at_newline : Bool) : Program (Option Token) := do
  if ← header_active then
    if ← skip_blank stop_at_newline then
      return none
    else
      let offset ← offset
      match ← take with
      | none => return none
      | some first =>
        let bytes ← complete_token first
        return some { bytes, offset }
  else panicked "header tokens require an active byte budget"

/-- Reads across line boundaries and rejects the end of input before the next token. -/
def read_required_token : Program Token := do
  match ← read_token false with
  | some token => return token
  | none => invalid (← offset) "Expected an LLVM header token, got EOF"

/-- Consumes one token and requires its exact encoded bytes. -/
def expect (expected : String) : Program Unit := do
  let token ← read_required_token
  if token.bytes = text expected then return ()
  else invalid token.offset s!"Expected LLVM token {expected}"

/-- One turn of a group: the closing delimiters still expected, innermost first. -/
def group_turn : List UInt8 → Program (List UInt8 ⊕ Unit)
  | [] => .stop ()
  | expected :: outer => do
    let token ← read_required_token
    match token.bytes with
    | [byte] =>
      match matching_close byte with
      | some close => .again (close :: expected :: outer)
      | none =>
        if !is_close byte then .again (expected :: outer)
        else if byte ≠ expected then
          invalid token.offset "Expected a matching LLVM delimiter"
        else .again outer
    | _ => .again (expected :: outer)

/-- Consumes a balanced header group without recursion. -/
def consume_group (opening : UInt8) : Program Unit :=
  match matching_close opening with
  | some close => Scan.iter group_turn [close]
  | none => panicked "group callers supply an opening delimiter"

/-- What the body scan remembers between bytes. A nonzero digit count occurs only
inside a quote, after an escape's opening backslash. -/
structure BodyState where
  depth : Nat := 1
  quoted : Bool := false
  comment : Bool := false
  escape_digits : Nat := 0
deriving DecidableEq, Repr

/-- One byte of a function body. -/
def body_turn (state : BodyState) : Program (BodyState ⊕ Unit) := do
  match ← take with
  | none => invalid (← offset) "Expected a closing LLVM body brace, got EOF"
  | some byte =>
    if state.comment then .again { state with comment := byte ≠ ascii '\n' }
    else if state.escape_digits = 2 && byte = ascii '\\' then .again { state with escape_digits := 0 }
    else if state.escape_digits ≠ 0 && !is_ascii_hexdigit byte then
      invalid ((← offset) - 1) "Expected an LLVM hex escape"
    else if state.escape_digits ≠ 0 then
      .again { state with escape_digits := state.escape_digits - 1 }
    else if state.quoted && (byte = ascii '\n' || byte = ascii '\r') then
      invalid ((← offset) - 1) "Expected an escaped LLVM newline"
    else if state.quoted && byte = ascii '"' then .again { state with quoted := false }
    else if state.quoted && byte = ascii '\\' then .again { state with escape_digits := 2 }
    else if state.quoted then .again state
    else if byte = ascii ';' then .again { state with comment := true }
    else if byte = ascii '"' then .again { state with quoted := true }
    else if byte = ascii '{' then .again { state with depth := state.depth + 1 }
    else if byte = ascii '}' then
      if state.depth = 1 then .stop () else .again { state with depth := state.depth - 1 }
    else .again state

/-- Consumes the body after its opening brace and returns just after the closing brace. -/
def skip_body : Program Unit := Scan.iter body_turn {}

end stream

end optic.llvm_index
