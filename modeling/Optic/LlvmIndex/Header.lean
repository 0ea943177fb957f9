import Optic.LlvmIndex.Stream

open byte_scan rust

namespace optic.llvm_index.header

/-- The opening delimiter that a token consists of. -/
def opening (token : Token) : Option UInt8 :=
  match token.bytes with
  | [byte] => if (matching_close byte).isSome then some byte else none
  | _ => none

/-- The closing delimiter that a token consists of. -/
def closing (token : Token) : Bool :=
  match token.bytes with
  | [byte] => is_close byte
  | _ => false

/-- Consumes the group that a delimiter token opens, and passes over other tokens. -/
def consume_group (token : Token) : Program Unit :=
  match opening token with
  | some byte => stream.consume_group byte
  | none =>
    if closing token then invalid token.offset "Expected an opening LLVM delimiter"
    else return ()

def starts_with (token : Token) (byte : Char) : Bool := token.bytes.head? = some (ascii byte)

def constantWords : List String := ["null", "undef", "poison", "zeroinitializer", "true", "false"]

def expressionOpcodes : List String :=
  ["getelementptr", "bitcast", "addrspacecast", "inttoptr", "ptrtoint", "trunc", "blockaddress", "ptrauth",
    "splat"]

/-- Skips the flags between `getelementptr` and its operands. -/
def skip_flags (opcode next : Token) : Program Token :=
  if opcode.bytes = text "getelementptr" then
    Scan.iter (fun next : Token =>
      if next.is_any ["inbounds", "nuw", "nusw"] then do
        let next ← stream.read_required_token
        .again next
      else .stop next) next
  else return next

def consume_constant (token : Token) : Program Unit := do
  match opening token with
  | some byte => stream.consume_group byte
  | none =>
    if starts_with token '@' then do
      let _ ← Scan.ofExcept token.decode_symbol
      return ()
    else if token.bytes = text "dso_local_equivalent" || token.bytes = text "no_cfi" then do
      let symbol ← stream.read_required_token
      let _ ← Scan.ofExcept symbol.decode_symbol
      return ()
    else if token.bytes = text "c" then do
      let string ← stream.read_required_token
      if starts_with string '"' then return ()
      else invalid string.offset "Expected an LLVM byte string"
    else if token.is_any constantWords || token.bytes.head?.any is_ascii_digit ||
        starts_with token '-' then
      return ()
    else if !token.is_any expressionOpcodes then
      invalid token.offset "Expected a supported LLVM constant form"
    else do
      let next ← stream.read_required_token
      let next ← skip_flags token next
      if next.bytes = text "(" then stream.consume_group (ascii '(')
      else invalid next.offset "Expected LLVM constant operands in parentheses"

/-- Consumes the address space of a pointer and reads the operand behind it. -/
def skip_addrspace (operand : Token) : Program Token :=
  if operand.bytes = text "addrspace" then do
    stream.expect "("
    stream.consume_group (ascii '(')
    stream.read_required_token
  else return operand

def consume_typed_constant : Program Unit := do
  let ty ← stream.read_required_token
  consume_group ty
  let value ← stream.read_required_token
  if ty.bytes = text "ptr" then
    let value ← skip_addrspace value
    consume_constant value
  else
    consume_constant value

/-- The words that a function header cannot contain. -/
def definitionWords : List String := ["define", "declare", "\x7d"]

/-- Reads tokens up to the function name, which precedes the argument list. -/
def function_name_turn : Unit → Program (Unit ⊕ String) := fun () => do
  let token ← stream.read_required_token
  if starts_with token '@' then
    let symbol ← Scan.ofExcept token.decode_symbol
    .stop symbol
  else if token.is_any definitionWords then
    invalid token.offset "Expected an LLVM function name"
  else
    consume_group token
    .again ()

/-- Reads tokens from the argument list to the opening body brace. -/
def function_suffix_turn : Unit → Program (Unit ⊕ Unit) := fun () => do
  let token ← stream.read_required_token
  if token.bytes = text "\x7b" then .stop ()
  else if token.is_any ["prefix", "prologue", "personality"] then
    consume_typed_constant
    .again ()
  else if token.bytes = text "!" then
    let metadata ← stream.read_required_token
    consume_group metadata
    .again ()
  else if token.is_any definitionWords then
    invalid token.offset "Expected an LLVM function body"
  else
    consume_group token
    .again ()

/-- Reads a function name and consumes the opening body brace. -/
def read_function : Program String := do
  let symbol ← Scan.iter function_name_turn ()
  stream.expect "("
  stream.consume_group (ascii '(')
  Scan.iter function_suffix_turn ()
  return symbol

/-- Reads alias type tokens up to the comma behind them. -/
def alias_type_turn : Unit → Program (Unit ⊕ Unit) := fun () => do
  let token ← stream.read_required_token
  if token.bytes = text "," then .stop ()
  else if token.is_any ["=", "define", "declare"] || starts_with token '@' then
    invalid token.offset "Expected a comma after the LLVM alias type"
  else
    consume_group token
    .again ()

/-- Reads one partition or metadata suffix, up to the end of the line. -/
def alias_suffix_turn : Unit → Program (Unit ⊕ Unit) := fun () => do
  match ← stream.read_token true with
  | none => .stop ()
  | some token =>
    if token.bytes ≠ text "," then
      invalid token.offset "Expected an LLVM alias suffix, got another operand"
    else
      let suffix ← stream.read_required_token
      if starts_with suffix '!' then
        let metadata ← stream.read_required_token
        consume_group metadata
        .again ()
      else if suffix.bytes ≠ text "partition" then
        invalid suffix.offset "Expected an LLVM partition or metadata suffix"
      else
        let name ← stream.read_required_token
        if starts_with name '"' then .again ()
        else invalid name.offset "Expected an LLVM partition string"

/-- Reads an alias operand, preserving only a direct global target. -/
def read_alias_operand : Program (Option String) := do
  let operand ← stream.read_required_token
  if operand.bytes = text "ptr" then
    let operand ← stream.read_required_token
    let operand ← skip_addrspace operand
    if starts_with operand '@' then
      let target ← Scan.ofExcept operand.decode_symbol
      return some target
    else
      consume_constant operand
      return none
  else if starts_with operand '@' then
    invalid operand.offset "Expected an LLVM pointer type before the target"
  else
    consume_constant operand
    return none

/-- Reads the alias type and operand, preserving only a direct global target. -/
def read_alias_target : Program (Option String) := do
  let first ← stream.read_required_token
  if first.bytes = text "," then
    invalid first.offset "Expected an LLVM alias type"
  else do
    consume_group first
    Scan.iter alias_type_turn ()
    let target ← read_alias_operand
    Scan.iter alias_suffix_turn ()
    return target

end optic.llvm_index.header
