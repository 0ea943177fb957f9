import Optic.LlvmIndex.Lexeme
import Optic.LlvmIndex.Scanner

open rust optic.records

namespace optic.llvm_index

/-- A token that names a symbol: the quoted spelling of the name, or the name itself where
it is a word and not a numeric slot with letters behind it. -/
inductive Symbol : List UInt8 → String → Prop where
  | quoted {content : List UInt8} {name : String} (hcontent : Spells content (text name)) :
      Symbol (ascii '@' :: ascii '"' :: (content ++ [ascii '"'])) name
  | word {first : UInt8} {word : List UInt8} {name : String} (hname : text name = first :: word)
      (hword : ∀ byte ∈ first :: word, is_word byte)
      (hslot : is_ascii_digit first → ∀ byte ∈ word, is_ascii_digit byte) :
      Symbol (ascii '@' :: first :: word) name

/-- One token of a header, or a balanced group. -/
inductive Piece : List (List UInt8) → Prop where
  | token {token : List UInt8} (htoken : Ordinary token) : Piece [token]
  | group {opening close : UInt8} {inner : List (List UInt8)} (hclose : matching_close opening = some close)
      (hinner : Balanced inner) : Piece ([opening] :: (inner ++ [[close]]))

/-- Tokens and balanced groups that start with an allowed token. -/
inductive Pieces (allowed : List UInt8 → Prop) : List (List UInt8) → Prop where
  | nil : Pieces allowed []
  | cons {token : List UInt8} {piece tokens : List (List UInt8)} (hpiece : Piece (token :: piece))
      (hallowed : allowed token) (htokens : Pieces allowed tokens) : Pieces allowed (token :: piece ++ tokens)

/-- The constants that headers may contain. -/
inductive Constant : List (List UInt8) → Prop where
  | group {opening close : UInt8} {inner : List (List UInt8)} (hclose : matching_close opening = some close)
      (hinner : Balanced inner) : Constant ([opening] :: (inner ++ [[close]]))
  | symbol {token : List UInt8} {name : String} (hsymbol : Symbol token name) : Constant [token]
  | equivalent {keyword token : List UInt8} {name : String}
      (hkeyword : keyword = text "dso_local_equivalent" ∨ keyword = text "no_cfi") (hsymbol : Symbol token name) :
      Constant [keyword, token]
  | string {token : List UInt8} (hquote : token.head? = some (ascii '"')) : Constant [text "c", token]
  | word {token : List UInt8} (hword : token ∈ header.constantWords.map text) : Constant [token]
  | number {first : UInt8} {digits : List UInt8} (hfirst : is_ascii_digit first ∨ first = ascii '-') :
      Constant [first :: digits]
  | expression {opcode : List UInt8} {flags inner : List (List UInt8)}
      (hopcode : opcode ∈ header.expressionOpcodes.map text)
      (hflags : ∀ flag ∈ flags, opcode = text "getelementptr" ∧ flag ∈ ["inbounds", "nuw", "nusw"].map text)
      (hinner : Balanced inner) : Constant (opcode :: (flags ++ text "(" :: (inner ++ [text ")"])))

/-- The address space of a pointer. -/
inductive Addrspace : List (List UInt8) → Prop where
  | nil : Addrspace []
  | group {inner : List (List UInt8)} (hinner : Balanced inner) :
      Addrspace (text "addrspace" :: text "(" :: (inner ++ [text ")"]))

/-- A type and a constant of it. Only `ptr` has an address space behind it. -/
inductive TypedConstant : List (List UInt8) → Prop where
  | mk {ty : List UInt8} {types space value : List (List UInt8)} (htype : Piece (ty :: types))
      (hspace : Addrspace space) (hpointer : space ≠ [] → ty = text "ptr") (hvalue : Constant value) :
      TypedConstant (ty :: types ++ space ++ value)

/-- What precedes a function name. -/
def FunctionPrefix : List (List UInt8) → Prop :=
  Pieces fun token => token.head? ≠ some (ascii '@') ∧ token ∉ header.definitionWords.map text

/-- What stands between a function's arguments and its body: attributes, constants and
metadata attachments. -/
inductive FunctionSuffix : List (List UInt8) → Prop where
  | nil : FunctionSuffix []
  | piece {token : List UInt8} {piece tokens : List (List UInt8)} (hpiece : Piece (token :: piece))
      (hbody : token ≠ text "\x7b") (hmetadata : token ≠ text "!")
      (hconstant : token ∉ ["prefix", "prologue", "personality"].map text)
      (hdefinition : token ∉ header.definitionWords.map text) (htokens : FunctionSuffix tokens) :
      FunctionSuffix (token :: piece ++ tokens)
  | constant {keyword : List UInt8} {constant tokens : List (List UInt8)}
      (hkeyword : keyword ∈ ["prefix", "prologue", "personality"].map text) (hconstant : TypedConstant constant)
      (htokens : FunctionSuffix tokens) : FunctionSuffix (keyword :: constant ++ tokens)
  | metadata {piece tokens : List (List UInt8)} (hpiece : Piece piece) (htokens : FunctionSuffix tokens) :
      FunctionSuffix (text "!" :: piece ++ tokens)

/-- A function header, from behind its keyword through its opening body brace. -/
inductive FunctionHeader : List (List UInt8) → String → Prop where
  | mk {before arguments suffix : List (List UInt8)} {symbol : List UInt8} {name : String}
      (hbefore : FunctionPrefix before) (hsymbol : Symbol symbol name) (harguments : Balanced arguments)
      (hsuffix : FunctionSuffix suffix) :
      FunctionHeader (before ++ symbol :: text "(" :: (arguments ++ text ")" :: (suffix ++ [text "\x7b"]))) name

/-- The bytes of a body at a brace depth, through the brace that closes it. -/
inductive Body : Nat → List UInt8 → Prop where
  | last : Body 1 [ascii '}']
  | close {depth : Nat} {bytes : List UInt8} (hbody : Body (depth + 1) bytes) :
      Body (depth + 2) (ascii '}' :: bytes)
  | open {depth : Nat} {bytes : List UInt8} (hbody : Body (depth + 1) bytes) : Body depth (ascii '{' :: bytes)
  | quote {depth : Nat} {content name bytes : List UInt8} (hcontent : Spells content name)
      (hbody : Body depth bytes) : Body depth (ascii '"' :: (content ++ ascii '"' :: bytes))
  | comment {depth : Nat} {line bytes : List UInt8} (hline : ascii '\n' ∉ line) (hbody : Body depth bytes) :
      Body depth (ascii ';' :: (line ++ ascii '\n' :: bytes))
  | plain {depth : Nat} {byte : UInt8} {bytes : List UInt8} (hcomment : byte ≠ ascii ';')
      (hquote : byte ≠ ascii '"') (hopen : byte ≠ ascii '{') (hclose : byte ≠ ascii '}')
      (hbody : Body depth bytes) : Body depth (byte :: bytes)

/-- The modifiers of a global, with their parenthesised groups. -/
inductive Modifiers : List (List UInt8) → Prop where
  | nil : Modifiers []
  | word {word : List UInt8} {tokens : List (List UInt8)} (hword : word ∈ globalModifiers.map text)
      (htokens : Modifiers tokens) : Modifiers (word :: tokens)
  | group {word : List UInt8} {inner tokens : List (List UInt8)}
      (hword : word ∈ globalModifiers.map text ∨ word = text "addrspace") (hinner : Balanced inner)
      (htokens : Modifiers tokens) : Modifiers (word :: text "(" :: (inner ++ text ")" :: tokens))

/-- The type of an alias or ifunc. -/
def AliasType : List (List UInt8) → Prop :=
  Pieces fun token => token.head? ≠ some (ascii '@') ∧ token ∉ ["=", "define", "declare", ","].map text

/-- The operand of an alias or ifunc, and the symbol that it names directly. -/
inductive AliasOperand : List (List UInt8) → Option String → Prop where
  | direct {space : List (List UInt8)} {symbol : List UInt8} {target : String} (hspace : Addrspace space)
      (hsymbol : Symbol symbol target) : AliasOperand (text "ptr" :: space ++ [symbol]) (some target)
  | constant {value : List UInt8} {values : List (List UInt8)} (hvalue : Constant (value :: values))
      (hsymbol : value.head? ≠ some (ascii '@')) : AliasOperand (value :: values) none
  | typed {space values : List (List UInt8)} {value : List UInt8} (hspace : Addrspace space)
      (hvalue : Constant (value :: values)) (hsymbol : value.head? ≠ some (ascii '@')) :
      AliasOperand (text "ptr" :: space ++ value :: values) none

/-- What may follow a comma behind the operand. -/
inductive AliasSuffix : List (List UInt8) → Prop where
  | metadata {kind : List UInt8} {piece : List (List UInt8)} (hkind : kind.head? = some (ascii '!'))
      (hpiece : Piece piece) : AliasSuffix (kind :: piece)
  | partition {name : List UInt8} (hname : name.head? = some (ascii '"')) : AliasSuffix [text "partition", name]

/-- The suffixes of an alias or ifunc, through the end of its line. -/
inductive AliasTail : List UInt8 → Prop where
  | newline {gap : List UInt8} (hgap : Blank true gap) : AliasTail (gap ++ [ascii '\n'])
  | comment {gap line : List UInt8} (hgap : Blank true gap) (hline : ascii '\n' ∉ line) :
      AliasTail (gap ++ ascii ';' :: (line ++ [ascii '\n']))
  | suffix {gap bytes tail : List UInt8} {tokens : List (List UInt8)} (hgap : Blank true gap)
      (hsuffix : AliasSuffix tokens) (hlexes : Lexes bytes tokens tail) (htail : AliasTail tail) :
      AliasTail (gap ++ ascii ',' :: (bytes ++ tail))

/-- A line whose first visible byte starts neither a global nor a function. -/
def Unrelated (line : List UInt8) : Prop :=
  (line.dropWhile is_ascii_whitespace).head? ≠ some (ascii '@') ∧
    ∀ byte rest, line.dropWhile is_ascii_whitespace ++ [ascii '\n'] = text "define" ++ byte :: rest →
      ¬ is_ascii_whitespace byte

/-- The kind of record that an alias keyword leads to. -/
inductive AliasKind : List UInt8 → Option String → LlvmDefinitionKind → Prop where
  | direct {target : String} : AliasKind (text "alias") (some target) (.DirectAlias target)
  | expression : AliasKind (text "alias") none .ExpressionAlias
  | ifunc {target : Option String} : AliasKind (text "ifunc") target .Ifunc

/-- A top-level item of a module, and the symbol and kind of the definition it is. Headers
fit their budget, and names are not empty. -/
inductive Item : List UInt8 → Option (String × LlvmDefinitionKind) → Prop where
  | unrelated {line : List UInt8} (hline : ascii '\n' ∉ line) (hunrelated : Unrelated line) :
      Item (line ++ [ascii '\n']) none
  | global {bytes rest symbol keyword : List UInt8} {modifiers : List (List UInt8)}
      (hlexes : Lexes bytes (symbol :: text "=" :: (modifiers ++ [keyword])) (rest ++ [ascii '\n']))
      (hstart : bytes.head? = some (ascii '@')) (hmodifiers : Modifiers modifiers)
      (hkeyword : keyword = text "global" ∨ keyword = text "constant") (hrest : ascii '\n' ∉ rest)
      (hbudget : bytes.length ≤ HEADER_LIMIT) : Item (bytes ++ (rest ++ [ascii '\n'])) none
  | aliased {bytes tail symbol keyword : List UInt8} {modifiers ty operand : List (List UInt8)}
      {name : String} {target : Option String} {kind : LlvmDefinitionKind}
      (hlexes : Lexes bytes (symbol :: text "=" :: (modifiers ++ keyword :: (ty ++ text "," :: operand))) tail)
      (hstart : bytes.head? = some (ascii '@')) (hsymbol : Symbol symbol name) (hmodifiers : Modifiers modifiers)
      (hty : AliasType ty) (htyped : ty ≠ []) (hoperand : AliasOperand operand target)
      (hkind : AliasKind keyword target kind) (htail : AliasTail tail) (hname : name ≠ "") (hnamed : kind.Named)
      (hbudget : (bytes ++ tail).length ≤ HEADER_LIMIT) : Item (bytes ++ tail) (some (name, kind))
  | function {first : UInt8} {bytes body : List UInt8} {tokens : List (List UInt8)} {name : String}
      (hlexes : Lexes (first :: bytes) tokens body) (hfirst : is_ascii_whitespace first)
      (hheader : FunctionHeader tokens name) (hbody : Body 1 body) (hname : name ≠ "")
      (hbudget : (text "define" ++ first :: bytes).length ≤ HEADER_LIMIT) :
      Item (text "define" ++ (first :: bytes ++ body)) (some (name, .Function))

end optic.llvm_index
