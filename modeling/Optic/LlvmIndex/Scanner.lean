import Optic.LlvmIndex.Header
import Optic.Records.Llvm

open byte_scan rust optic.records

namespace optic.llvm_index

/-- The modifiers that precede `global`, `constant`, `alias` or `ifunc`. -/
def globalModifiers : List String :=
  ["private", "internal", "available_externally", "linkonce", "weak", "common", "appending",
    "extern_weak", "linkonce_odr", "weak_odr", "external", "dso_local", "dso_preemptable",
    "default", "hidden", "protected", "dllimport", "dllexport", "unnamed_addr",
    "local_unnamed_addr", "externally_initialized", "thread_local"]

/-- Reads one modifier, or the kind that the modifiers lead to. -/
def global_kind_turn : Unit → Program (Unit ⊕ Option LlvmDefinitionKind) := fun () => do
  let token ← stream.read_required_token
  if token.bytes = text "global" || token.bytes = text "constant" then
    stream.end_header
    stream.skip_line
    .stop none
  else if token.bytes = text "alias" then
    let target ← header.read_alias_target
    .stop (some (target.elim .ExpressionAlias .DirectAlias))
  else if token.bytes = text "ifunc" then
    let _ ← header.read_alias_target
    .stop (some .Ifunc)
  else if token.is_any globalModifiers then .again ()
  else if token.bytes = text "addrspace" then
    stream.expect "("
    stream.consume_group (ascii '(')
    .again ()
  else if token.bytes = text "(" then
    stream.consume_group (ascii '(')
    .again ()
  else invalid token.offset "Expected an LLVM global, alias, or ifunc"

def read_global_kind : Program (Option LlvmDefinitionKind) := Scan.iter global_kind_turn ()

/-- Attaches a definition's start to a record failure. -/
def invalid_record {α : Type} (start : Nat) (result : Except records.Error α) : Program α :=
  match result with
  | .ok value => .done value
  | .error error => invalid start error.display

/-- Builds the record of a definition that starts at `start` and ends at the current
offset. -/
def finish_definition (symbol : String) (start : Nat) (kind : LlvmDefinitionKind) :
    Program LlvmDefinitionRecord := do
  let stop ← stream.offset
  let range ← invalid_record start (ByteRange.new (.ofNat start) (.ofNat (stop - start)))
  invalid_record start (LlvmDefinitionRecord.new symbol range kind)

def read_global_definition (start : Nat) : Program (Option LlvmDefinitionRecord) := do
  stream.begin_header start
  let symbol ← stream.read_required_token
  stream.expect "="
  match ← read_global_kind with
  | none =>
    stream.end_header
    return none
  | some kind =>
    let symbol ← Scan.ofExcept symbol.decode_symbol
    let definition ← finish_definition symbol start kind
    stream.end_header
    return some definition

/-- Reads up to `count` bytes of a keyword prefix without consuming bytes past a newline. -/
def read_prefix_bytes : Nat → Program (List UInt8)
  | 0 => return []
  | count + 1 => do
    match ← stream.take with
    | none => return []
    | some byte =>
      if byte = ascii '\n' then return [byte]
      else
        let rest ← read_prefix_bytes count
        return byte :: rest

/-- Reads at most one keyword prefix, padded with zeros to six bytes. -/
def read_keyword_prefix : Program (List UInt8) := do
  let bytes ← read_prefix_bytes 6
  return bytes ++ List.replicate (6 - bytes.length) 0

def read_function_definition (start : Nat) : Program LlvmDefinitionRecord := do
  stream.begin_header start
  let symbol ← header.read_function
  stream.end_header
  stream.skip_body
  finish_definition symbol start .Function

/-- Whether a keyword prefix is `define` with whitespace or the end of the input behind
it. Behind any other prefix nothing is peeked. -/
def starts_function (keyword : List UInt8) : Program Bool :=
  if keyword = text "define" then do
    let next ← stream.peek
    return next.all is_ascii_whitespace
  else return false

/-- Reads what a keyword prefix begins: a function, or an unrelated line that the prefix
may already have ended. -/
def scan_keyword (start : Nat) (keyword : List UInt8) : Program (Option LlvmDefinitionRecord) := do
  if ← starts_function keyword then
    let definition ← read_function_definition start
    return some definition
  else if ascii '\n' ∈ keyword then
    return none
  else
    stream.skip_line
    return none

/-- Reads what starts at the next byte, which is a whitespace byte, a global, a
function or an unrelated line. -/
def scan_item (byte : UInt8) : Program (Option LlvmDefinitionRecord) := do
  if is_ascii_whitespace byte then
    let _ ← stream.take
    return none
  else
    let start ← stream.offset
    if byte = ascii '@' then
      read_global_definition start
    else if byte = ascii 'd' then
      let keyword ← read_keyword_prefix
      scan_keyword start keyword
    else
      scan_keyword start (List.replicate 6 0)

def scan_turn (definitions : List LlvmDefinitionRecord) :
    Program (List LlvmDefinitionRecord ⊕ List LlvmDefinitionRecord) := do
  match ← stream.peek with
  | none => .stop definitions
  | some byte =>
    let definition ← scan_item byte
    .again (definitions ++ definition.toList)

/-- Selects top-level definitions and constructs validated records in input order. -/
def scan : Program (List LlvmDefinitionRecord) := Scan.iter scan_turn []

end optic.llvm_index
