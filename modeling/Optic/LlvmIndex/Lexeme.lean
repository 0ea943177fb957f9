import Optic.LlvmIndex.Token

open rust

namespace optic.llvm_index

/-- The content of a quote, and the bytes that it stands for. -/
inductive Spells : List UInt8 → List UInt8 → Prop where
  | nil : Spells [] []
  | raw {byte : UInt8} {content name : List UInt8} (hquote : byte ≠ ascii '"')
      (hbackslash : byte ≠ ascii '\\') (hlf : byte ≠ ascii '\n') (hcr : byte ≠ ascii '\r')
      (hcontent : Spells content name) : Spells (byte :: content) (byte :: name)
  | backslash {content name : List UInt8} (hcontent : Spells content name) :
      Spells (ascii '\\' :: ascii '\\' :: content) (ascii '\\' :: name)
  | hex {first second : UInt8} {content name : List UInt8} (hfirst : is_ascii_hexdigit first)
      (hsecond : is_ascii_hexdigit second) (hcontent : Spells content name) :
      Spells (ascii '\\' :: first :: second :: content) ((hex first <<< 4 ||| hex second) :: name)

/-- The bytes behind an opening quote, through the closing one. -/
def Quoted (bytes : List UInt8) : Prop :=
  ∃ content name, Spells content name ∧ bytes = content ++ [ascii '"']

/-- `Lexeme bytes rest`: the tokenizer reads `bytes` off `bytes ++ rest`. Only a word
depends on what follows it. -/
inductive Lexeme : List UInt8 → List UInt8 → Prop where
  | quoted {bytes rest : List UInt8} (hbytes : Quoted bytes) : Lexeme (ascii '"' :: bytes) rest
  | symbol {sigil : UInt8} {bytes rest : List UInt8} (hsigil : is_sigil sigil) (hbytes : Quoted bytes) :
      Lexeme (sigil :: ascii '"' :: bytes) rest
  | word {first : UInt8} {bytes rest : List UInt8}
      (hfirst : is_word first ∨ is_sigil first ∨ first = ascii '!') (hbytes : ∀ byte ∈ bytes, is_word byte)
      (hrest : ∀ byte ∈ rest.head?, ¬ is_word byte)
      (hquote : is_sigil first → bytes = [] → rest.head? ≠ some (ascii '"')) :
      Lexeme (first :: bytes) rest
  | mark {byte : UInt8} {rest : List UInt8} (hquote : byte ≠ ascii '"') (hword : ¬ is_word byte)
      (hsigil : ¬ is_sigil byte) (hmetadata : byte ≠ ascii '!') : Lexeme [byte] rest

theorem Lexeme.ne_nil {bytes rest : List UInt8} (h : Lexeme bytes rest) : bytes ≠ [] := by
  cases h <;> simp

/-- A hex digit is neither a line feed nor a backslash. -/
theorem hexdigit_ne {byte : UInt8} (h : is_ascii_hexdigit byte) (other : UInt8)
    (hother : is_ascii_hexdigit other = false) : byte ≠ other := by
  rintro rfl
  simp [h] at hother

theorem is_ascii_whitespace_lf : is_ascii_whitespace (ascii '\n') = true := rfl

theorem Spells.lf_notMem {content name : List UInt8} (h : Spells content name) : ascii '\n' ∉ content := by
  induction h with
  | nil => simp
  | raw hquote hbackslash hlf hcr hcontent ih => simp [Ne.symm hlf, ih]
  | backslash hcontent ih => simpa [show ascii '\n' ≠ ascii '\\' by decide] using ih
  | hex hfirst hsecond hcontent ih =>
    have hfirst := hexdigit_ne hfirst (ascii '\n') (by decide)
    have hsecond := hexdigit_ne hsecond (ascii '\n') (by decide)
    simp [show ascii '\n' ≠ ascii '\\' by decide, hfirst.symm, hsecond.symm, ih]

/-- A token starts with a byte that blanks cannot start with. -/
def Visible (bytes : List UInt8) : Prop :=
  ∀ byte ∈ bytes.head?, ¬ is_ascii_whitespace byte ∧ byte ≠ ascii ';'

theorem is_word_ne_lf {byte : UInt8} (h : is_word byte) : byte ≠ ascii '\n' := by
  rintro rfl
  exact absurd h (by decide)

/-- No token contains a newline, since an unquoted newline separates tokens and a quoted
one is rejected. -/
theorem Lexeme.lf_notMem {bytes rest : List UInt8} (h : Lexeme bytes rest) (hvisible : Visible bytes) :
    ascii '\n' ∉ bytes := by
  have hfirst (first : UInt8) (tail : List UInt8) (heq : bytes = first :: tail) : ascii '\n' ≠ first := by
    rintro rfl
    exact (hvisible (ascii '\n') (by simp [heq])).1 is_ascii_whitespace_lf
  cases h with
  | quoted hbytes =>
    obtain ⟨content, name, hcontent, rfl⟩ := hbytes
    simpa [show ascii '\n' ≠ ascii '"' by decide] using hcontent.lf_notMem
  | symbol hsigil hbytes =>
    obtain ⟨content, name, hcontent, rfl⟩ := hbytes
    simpa [hfirst _ _ rfl, show ascii '\n' ≠ ascii '"' by decide] using hcontent.lf_notMem
  | word _ hbytes hrest hquote =>
    simp only [List.mem_cons, not_or]
    exact ⟨hfirst _ _ rfl, fun hmem => is_word_ne_lf (hbytes _ hmem) rfl⟩
  | mark hquote hword hsigil hmetadata => simpa using hfirst _ _ rfl

/-- What may precede a token: whitespace and comments, or only the whitespace of one line
where newlines end the header. -/
inductive Blank : Bool → List UInt8 → Prop where
  | nil {stop : Bool} : Blank stop []
  | space {stop : Bool} {byte : UInt8} {bytes : List UInt8} (hbyte : is_ascii_whitespace byte)
      (hstop : stop = true → byte ≠ ascii '\n') (hbytes : Blank stop bytes) : Blank stop (byte :: bytes)
  | comment {line bytes : List UInt8} (hline : ascii '\n' ∉ line) (hbytes : Blank false bytes) :
      Blank false (ascii ';' :: line ++ [ascii '\n'] ++ bytes)

/-- `Lexes bytes tokens rest`: the tokens that spell `bytes`, in front of `rest`. -/
inductive Lexes : List UInt8 → List (List UInt8) → List UInt8 → Prop where
  | nil {rest : List UInt8} : Lexes [] [] rest
  | cons {gap token bytes rest : List UInt8} {tokens : List (List UInt8)} (hgap : Blank false gap)
      (hvisible : Visible token) (htoken : Lexeme token (bytes ++ rest)) (htokens : Lexes bytes tokens rest) :
      Lexes (gap ++ token ++ bytes) (token :: tokens) rest

theorem Lexes.append {bytes bytes' rest : List UInt8} {tokens tokens' : List (List UInt8)}
    (h : Lexes bytes tokens (bytes' ++ rest)) (h' : Lexes bytes' tokens' rest) :
    Lexes (bytes ++ bytes') (tokens ++ tokens') rest := by
  generalize htail : bytes' ++ rest = tail at h
  induction h with
  | nil => exact h'
  | cons hgap hvisible htoken htokens ih =>
    subst htail
    have hlexes := Lexes.cons hgap hvisible (by rwa [List.append_assoc]) (ih rfl)
    simpa only [List.append_assoc, List.cons_append] using hlexes

/-- Bytes that spell a token do not end in a newline. -/
theorem Lexes.getLast?_ne_lf {bytes rest : List UInt8} {tokens : List (List UInt8)} (h : Lexes bytes tokens rest) :
    bytes.getLast? ≠ some (ascii '\n') := by
  induction h with
  | nil => simp
  | @cons gap token bytes rest tokens hgap hvisible htoken htokens ih =>
    cases bytes with
    | nil =>
      have hlf := htoken.lf_notMem hvisible
      rw [List.append_nil, List.getLast?_append, List.getLast?_eq_some_getLast htoken.ne_nil, Option.some_or]
      intro hlast
      exact hlf (List.mem_of_getLast? ((List.getLast?_eq_some_getLast htoken.ne_nil).trans hlast))
    | cons byte bytes => simpa [List.getLast?_append] using ih

/-- A token that is not a delimiter. Quoted and multi-byte tokens are ordinary. -/
def Ordinary (token : List UInt8) : Prop :=
  ∀ byte, token = [byte] → matching_close byte = none ∧ ¬ is_close byte

/-- The tokens between a delimiter and the one that closes it. -/
inductive Balanced : List (List UInt8) → Prop where
  | nil : Balanced []
  | ordinary {token : List UInt8} {tokens : List (List UInt8)} (htoken : Ordinary token)
      (htokens : Balanced tokens) : Balanced (token :: tokens)
  | group {opening close : UInt8} {inner tokens : List (List UInt8)}
      (hclose : matching_close opening = some close) (hinner : Balanced inner) (htokens : Balanced tokens) :
      Balanced ([opening] :: inner ++ [close] :: tokens)

theorem index_byte_append (before : List UInt8) (byte : UInt8) (behind : List UInt8) :
    index_byte (before ++ byte :: behind) before.length = .ok byte := by
  simp [index_byte]

theorem set_byte_append (before : List UInt8) (old byte : UInt8) (behind : List UInt8) :
    set_byte (before ++ old :: behind) before.length byte = .ok (before ++ byte :: behind) := by
  simp [set_byte]

namespace Token

/-- The output bytes never overtake the input: `gap` keeps at least one byte between the
two cursors, so a write only ever replaces bytes that were read. -/
theorem decode_loop_step {quoted : Bool} {stop : Nat} {out gap consumed : List UInt8} {byte : UInt8}
    (content : List UInt8) (bound : Nat) (hgap : gap ≠ []) (hconsumed : consumed ≠ [])
    (hstop : (out ++ gap).length < stop)
    (hread : decode_byte quoted (out ++ gap ++ (consumed ++ content)) (out ++ gap).length =
      .ok (byte, (out ++ gap ++ consumed).length)) :
    ∃ gap', gap' ≠ [] ∧ (out ++ gap ++ consumed).length = (out ++ [byte] ++ gap').length ∧
      decode_loop quoted stop (bound + 1) (out ++ gap ++ (consumed ++ content)) (out ++ gap).length
          out.length =
        decode_loop quoted stop bound (out ++ [byte] ++ gap' ++ content) (out ++ [byte] ++ gap').length
          (out ++ [byte]).length := by
  obtain ⟨old, gap, rfl⟩ := List.exists_cons_of_ne_nil hgap
  refine ⟨gap ++ consumed, by simp [hconsumed], by simp, ?_⟩
  have hset := set_byte_append out old byte (gap ++ (consumed ++ content))
  simp only [List.append_assoc, List.cons_append] at hread hset ⊢
  rw [decode_loop, if_pos (by simpa using hstop), hread]
  simp only [ok_bind, hset]
  simp [Nat.add_comm]

/-- A plain byte is copied. -/
theorem decode_byte_plain {quoted : Bool} {before content : List UInt8} {byte : UInt8}
    (h : quoted = true → byte ≠ ascii '\\') :
    decode_byte quoted (before ++ ([byte] ++ content)) before.length =
      .ok (byte, (before ++ [byte]).length) := by
  have hindex := index_byte_append before byte content
  simp only [List.cons_append, List.nil_append]
  rw [decode_byte, hindex, ok_bind]
  cases quoted with
  | false => simp
  | true => simp [h rfl]

theorem decode_byte_word {before content : List UInt8} (byte : UInt8) :
    decode_byte false (before ++ ([byte] ++ content)) before.length = .ok (byte, (before ++ [byte]).length) :=
  decode_byte_plain nofun

theorem decode_byte_backslash {before content : List UInt8} :
    decode_byte true (before ++ ([ascii '\\', ascii '\\'] ++ content)) before.length =
      .ok (ascii '\\', (before ++ [ascii '\\', ascii '\\']).length) := by
  have hindex := index_byte_append before (ascii '\\') (ascii '\\' :: content)
  have hnext := index_byte_append (before ++ [ascii '\\']) (ascii '\\') content
  simp only [List.append_assoc, List.cons_append, List.nil_append, List.length_append, List.length_cons,
    List.length_nil, Nat.zero_add] at hnext ⊢
  simp [decode_byte, decode_escape, hindex, hnext]

theorem decode_byte_hex {before content : List UInt8} {first second : UInt8}
    (hfirst : is_ascii_hexdigit first) :
    decode_byte true (before ++ ([ascii '\\', first, second] ++ content)) before.length =
      .ok (hex first <<< 4 ||| hex second, (before ++ [ascii '\\', first, second]).length) := by
  have hindex := index_byte_append before (ascii '\\') (first :: second :: content)
  have hnext := index_byte_append (before ++ [ascii '\\']) first (second :: content)
  have hlast := index_byte_append (before ++ [ascii '\\', first]) second content
  have hne := hexdigit_ne hfirst (ascii '\\') (by decide)
  simp only [List.append_assoc, List.cons_append, List.nil_append, List.length_append, List.length_cons,
    List.length_nil, Nat.zero_add, Nat.reduceAdd] at hnext hlast ⊢
  simp [decode_byte, decode_escape, hindex, hnext, hlast, hne, Nat.add_assoc]

/-- The loop stops at the end of the content, whose meaning it has written to the front. -/
theorem decode_loop_end (quoted : Bool) (bound : Nat) (out gap tail : List UInt8) :
    decode_loop quoted (out ++ gap).length bound (out ++ gap ++ tail) (out ++ gap).length out.length =
      .ok (out ++ gap ++ tail, out.length) := by
  cases bound with
  | zero => rfl
  | succ bound => simp [decode_loop]

/-- The quoted loop writes the bytes that the content stands for. -/
theorem decode_loop_quoted {content name : List UInt8} (h : Spells content name) (tail : List UInt8) :
    ∀ (bound stop : Nat) (out gap : List UInt8), gap ≠ [] → content.length ≤ bound →
      stop = (out ++ gap ++ content).length →
      ∃ bytes, decode_loop true stop bound (out ++ gap ++ (content ++ tail)) (out ++ gap).length out.length =
          .ok (bytes, (out ++ name).length) ∧ bytes.take (out ++ name).length = out ++ name := by
  induction h with
  | nil =>
    intro bound stop out gap _ _ hstop
    refine ⟨out ++ gap ++ tail, ?_, by simp⟩
    simpa [hstop] using decode_loop_end true bound out gap tail
  | @raw byte content name hquote hbackslash hlf hcr hcontent ih =>
    intro bound stop out gap hgap hbound hstop
    obtain ⟨bound, rfl⟩ := Nat.exists_eq_add_one_of_ne_zero (show bound ≠ 0 by simp at hbound; omega)
    obtain ⟨gap', hgap', hlength, hstep⟩ := decode_loop_step (content ++ tail) bound hgap
      (List.cons_ne_nil byte []) (show (out ++ gap).length < stop by simp [hstop]) (decode_byte_plain fun _ => hbackslash)
    obtain ⟨bytes, hloop, htake⟩ := ih bound stop (out ++ [byte]) gap' hgap'
      (by simp at hbound; omega) (by simp at hlength hstop ⊢; omega)
    rw [List.append_assoc out [byte] name, List.singleton_append] at hloop htake
    exact ⟨bytes, hstep.trans hloop, htake⟩
  | @backslash content name hcontent ih =>
    intro bound stop out gap hgap hbound hstop
    obtain ⟨bound, rfl⟩ := Nat.exists_eq_add_one_of_ne_zero (show bound ≠ 0 by simp at hbound; omega)
    obtain ⟨gap', hgap', hlength, hstep⟩ := decode_loop_step (content ++ tail) bound hgap
      (List.cons_ne_nil (ascii '\\') [ascii '\\']) (show (out ++ gap).length < stop by simp [hstop]) (decode_byte_backslash)
    obtain ⟨bytes, hloop, htake⟩ := ih bound stop (out ++ [ascii '\\']) gap' hgap'
      (by simp at hbound; omega) (by simp at hlength hstop ⊢; omega)
    rw [List.append_assoc out [ascii '\\'] name, List.singleton_append] at hloop htake
    exact ⟨bytes, hstep.trans hloop, htake⟩
  | @hex first second content name hfirst hsecond hcontent ih =>
    intro bound stop out gap hgap hbound hstop
    obtain ⟨bound, rfl⟩ := Nat.exists_eq_add_one_of_ne_zero (show bound ≠ 0 by simp at hbound; omega)
    obtain ⟨gap', hgap', hlength, hstep⟩ := decode_loop_step (content ++ tail) bound hgap
      (List.cons_ne_nil (ascii '\\') [first, second]) (show (out ++ gap).length < stop by simp [hstop]) (decode_byte_hex hfirst)
    obtain ⟨bytes, hloop, htake⟩ := ih bound stop (out ++ [llvm_index.hex first <<< 4 ||| llvm_index.hex second]) gap' hgap'
      (by simp at hbound; omega) (by simp at hlength hstop ⊢; omega)
    rw [List.append_assoc out _ name, List.singleton_append] at hloop htake
    exact ⟨bytes, hstep.trans hloop, htake⟩

/-- The unquoted loop copies the word to the front. -/
theorem decode_loop_word (word : List UInt8) : ∀ (bound stop : Nat) (out gap : List UInt8), gap ≠ [] →
    word.length ≤ bound → stop = (out ++ gap ++ word).length →
    ∃ bytes, decode_loop false stop bound (out ++ gap ++ word) (out ++ gap).length out.length =
        .ok (bytes, (out ++ word).length) ∧ bytes.take (out ++ word).length = out ++ word := by
  induction word with
  | nil =>
    intro bound stop out gap _ _ hstop
    refine ⟨out ++ gap, ?_, by simp⟩
    simpa [hstop] using decode_loop_end false bound out gap []
  | cons byte word ih =>
    intro bound stop out gap hgap hbound hstop
    obtain ⟨bound, rfl⟩ := Nat.exists_eq_add_one_of_ne_zero (show bound ≠ 0 by simp at hbound; omega)
    obtain ⟨gap', hgap', hlength, hstep⟩ := decode_loop_step word bound hgap
      (List.cons_ne_nil byte []) (show (out ++ gap).length < stop by simp [hstop]) (decode_byte_word byte)
    obtain ⟨bytes, hloop, htake⟩ := ih bound stop (out ++ [byte]) gap' hgap'
      (by simp at hbound; omega) (by simp at hlength hstop ⊢; omega)
    rw [List.append_assoc out [byte] word, List.singleton_append] at hloop htake
    exact ⟨bytes, hstep.trans hloop, htake⟩

/-- What decoding a name yields. -/
def named (offset : Nat) (name : List UInt8) : Except Error String :=
  match from_utf8 name with
  | some symbol => .ok symbol
  | none => .error (.invalid offset "Expected a UTF-8 LLVM symbol")

/-- A quoted symbol decodes to the name that its content spells. -/
theorem decode_symbol_quoted {content name : List UInt8} (h : Spells content name) (offset : Nat) :
    decode_symbol ⟨ascii '@' :: ascii '"' :: (content ++ [ascii '"']), offset⟩ = named offset name := by
  obtain ⟨bytes, hloop, htake⟩ := decode_loop_quoted h [ascii '"'] content.length
    (content.length + 2) [] [ascii '@', ascii '"'] (by simp) (Nat.le_refl _) (by simp)
  simp only [List.nil_append, List.length_nil, List.length_cons, List.cons_append] at hloop htake
  simp [decode_symbol, index_byte, hloop, htake]
  rfl

/-- An unquoted symbol decodes to its own bytes, unless it is a numeric slot with a
trailing word. -/
theorem decode_symbol_word {first : UInt8} {word : List UInt8} (hfirst : first ≠ ascii '"') (offset : Nat) :
    decode_symbol ⟨ascii '@' :: first :: word, offset⟩ =
      if is_ascii_digit first && !(first :: word).all is_ascii_digit then
        .error (.invalid offset "Expected a numeric LLVM slot or a named symbol")
      else named offset (first :: word) := by
  obtain ⟨bytes, hloop, htake⟩ := decode_loop_word (first :: word) (word.length + 1)
    (word.length + 2) [] [ascii '@'] (by simp) (by simp) (by simp)
  simp only [List.nil_append, List.length_nil, List.length_cons, List.cons_append] at hloop htake
  simp [decode_symbol, index_byte, hfirst, hloop, htake]
  rfl

/-- Decoding a token that the tokenizer validated never reads or writes out of bounds. -/
theorem decode_symbol_ne_panicked {token : Token} {rest : List UInt8} (h : Lexeme token.bytes rest)
    (message : String) : token.decode_symbol ≠ .error (.panicked message) := by
  obtain ⟨bytes, offset⟩ := token
  have named_ne (name : List UInt8) : named offset name ≠ .error (.panicked message) := by
    unfold named
    split <;> simp
  by_cases hat : bytes.head? = some (ascii '@')
  · obtain ⟨tail, rfl⟩ := List.head?_eq_some_iff.mp hat
    cases tail with
    | nil => simp [decode_symbol]
    | cons first word =>
      by_cases hquote : first = ascii '"'
      · subst hquote
        cases h with
        | symbol hsigil hbytes =>
          obtain ⟨content, name, hcontent, rfl⟩ := hbytes
          rw [decode_symbol_quoted hcontent]
          exact named_ne name
        | word hfirst hbytes hrest hquote => exact absurd (hbytes _ List.mem_cons_self) (by decide)
      · rw [decode_symbol_word hquote]
        split
        · simp
        · exact named_ne _
  · simp [decode_symbol, hat]

end Token

end optic.llvm_index
