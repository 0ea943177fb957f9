import Optic.LlvmIndex.Grammar
import Optic.LlvmIndex.StreamReads

open byte_scan rust optic.records

namespace optic.llvm_index

/-- Bytes that spell two token lists split between them. -/
theorem Lexes.split {tokens tokens' : List (List UInt8)} : ∀ {bytes rest : List UInt8},
    Lexes bytes (tokens ++ tokens') rest →
      ∃ first second, bytes = first ++ second ∧ Lexes first tokens (second ++ rest) ∧ Lexes second tokens' rest := by
  induction tokens with
  | nil => exact fun h => ⟨[], _, rfl, Lexes.nil, h⟩
  | cons token tokens ih =>
    intro bytes rest h
    cases h with
    | @cons gap _ bytes _ _ hgap hvisible htoken htokens =>
      obtain ⟨first, second, rfl, hfirst, hsecond⟩ := ih htokens
      refine ⟨gap ++ token ++ first, second, by simp, Lexes.cons hgap hvisible ?_ hfirst, hsecond⟩
      rwa [← List.append_assoc]

/-- The bytes of a first token split off. -/
theorem Lexes.uncons {bytes rest token : List UInt8} {tokens : List (List UInt8)} (h : Lexes bytes (token :: tokens) rest) :
    ∃ first second, bytes = first ++ second ∧ Lexes first [token] (second ++ rest) ∧ Lexes second tokens rest :=
  split (show Lexes bytes ([token] ++ tokens) rest from h)

theorem Lexes.ne_nil {bytes rest : List UInt8} {tokens : List (List UInt8)} (h : Lexes bytes tokens rest)
    (htokens : tokens ≠ []) : bytes ≠ [] := by
  cases h with
  | nil => exact absurd rfl htokens
  | cons hgap hvisible htoken htokens => simp [htoken.ne_nil]

/-- A header program consumes exactly the bytes that spell its tokens, whatever follows
them, and returns `v`. -/
def Parses {α : Type} (p : Program α) (tokens : List (List UInt8)) (v : α) : Prop :=
  ∀ s q r, Ready true s q r → Lexes q tokens r → Reads p s q v

namespace Parses

variable {α β γ : Type} {tokens tokens' : List (List UInt8)}

theorem pure {a : α} : Parses (Pure.pure a) [] a := by
  intro s q r _ hlexes
  cases hlexes
  exact Reads.pure

theorem done {a : α} : Parses (.done a) [] a := Parses.pure

theorem bind {p : Program α} {f : α → Program β} {a : α} {b : β} (hp : Parses p tokens a)
    (hf : Parses (f a) tokens' b) : Parses (p >>= f) (tokens ++ tokens') b := by
  intro s q r h hlexes
  obtain ⟨first, second, rfl, hfirst, hsecond⟩ := hlexes.split
  exact Reads.bind h (hp _ _ _ h.first hfirst) fun s' h' => hf _ _ _ h' hsecond

/-- A last step that reads nothing. -/
theorem bind_last {p : Program α} {f : α → Program β} {a : α} {b : β} (hp : Parses p tokens a)
    (hf : Parses (f a) [] b) : Parses (p >>= f) tokens b := by
  simpa using bind hp hf

/-- A first step that reads nothing. -/
theorem bind_nil {p : Program α} {f : α → Program β} {a : α} {b : β} (hp : Parses p [] a)
    (hf : Parses (f a) tokens b) : Parses (p >>= f) tokens b := bind hp hf

/-- Reading one token, which may stand anywhere. -/
theorem token {f : Token → Program β} {b : β} {bytes : List UInt8}
    (hf : ∀ offset, Parses (f ⟨bytes, offset⟩) tokens b) :
    Parses (stream.read_required_token >>= f) (bytes :: tokens) b := by
  intro s q r h hlexes
  cases hlexes with
  | cons hgap hvisible htoken htokens =>
    exact Reads.bind h (stream.read_required_token_reads h.first hgap hvisible htoken)
      fun s' h' => hf _ _ _ _ h' htokens

/-- A program over the first tokens of a header that ends in front of `tail`. -/
theorem first {s : Contiguous} {bytes tail r : List UInt8} {p : Program α} {f : α → Program β} {a : α} {b : β}
    (hp : Parses p tokens a) (h : Ready true s (bytes ++ tail) r) (hlexes : Lexes bytes (tokens ++ tokens') (tail ++ r))
    (hf : ∀ s' bytes', Ready true s' (bytes' ++ tail) r → Lexes bytes' tokens' (tail ++ r) →
      Reads (f a) s' (bytes' ++ tail) b) : Reads (p >>= f) s (bytes ++ tail) b := by
  obtain ⟨first, second, rfl, hfirst, hsecond⟩ := hlexes.split
  rw [List.append_assoc] at h ⊢
  refine Reads.bind h (hp _ _ _ h.first ?_) fun s' h' => hf _ _ h' hsecond
  rwa [List.append_assoc]

/-- The first token of a header that ends in front of `tail`. -/
theorem first_token {s : Contiguous} {token bytes tail r : List UInt8} {f : Token → Program β} {b : β}
    (h : Ready true s (bytes ++ tail) r) (hlexes : Lexes bytes (token :: tokens) (tail ++ r))
    (hf : ∀ offset s' bytes', Ready true s' (bytes' ++ tail) r → Lexes bytes' tokens (tail ++ r) →
      Reads (f ⟨token, offset⟩) s' (bytes' ++ tail) b) :
    Reads (stream.read_required_token >>= f) s (bytes ++ tail) b := by
  cases hlexes with
  | cons hgap hvisible htoken htokens =>
    rw [List.append_assoc] at h ⊢
    refine Reads.bind h (stream.read_required_token_reads h.first hgap hvisible ?_)
      fun s' h' => hf _ _ _ h' htokens
    rwa [List.append_assoc]

theorem ite_pos {c : Prop} [Decidable c] {p p' : Program α} {a : α} (hc : c) (h : Parses p tokens a) :
    Parses (if c then p else p') tokens a := by rwa [if_pos hc]

theorem ite_neg {c : Prop} [Decidable c] {p p' : Program α} {a : α} (hc : ¬ c) (h : Parses p' tokens a) :
    Parses (if c then p else p') tokens a := by rwa [if_neg hc]

theorem stop {body : β → Program (β ⊕ γ)} {b : β} {c : γ} (h : Parses (body b) tokens (.inr c)) :
    Parses (Scan.iter body b) tokens c :=
  fun s q r hready hlexes => Reads.stop (h s q r hready hlexes)

theorem again {body : β → Program (β ⊕ γ)} {b : β} {c : γ} (b' : β) (htokens : tokens ≠ [])
    (hturn : Parses (body b) tokens (.inl b')) (hloop : Parses (Scan.iter body b') tokens' c) :
    Parses (Scan.iter body b) (tokens ++ tokens') c := by
  intro s q r h hlexes
  obtain ⟨first, second, rfl, hfirst, hsecond⟩ := hlexes.split
  exact Reads.again first b' h (hfirst.ne_nil htokens) (hturn _ _ _ h.first hfirst)
    fun s' h' => hloop _ _ _ h' hsecond

end Parses

theorem named_text (offset : Nat) (name : String) : Token.named offset (text name) = .ok name := by
  simp [Token.named]

/-- Decoding undoes the spelling of a symbol. -/
theorem Symbol.decode {token : List UInt8} {name : String} (h : Symbol token name) (offset : Nat) :
    Token.decode_symbol ⟨token, offset⟩ = .ok name := by
  cases h with
  | quoted hcontent => rw [Token.decode_symbol_quoted hcontent, named_text]
  | @word first word _ hname hword hslot =>
    have hquote : first ≠ ascii '"' := by
      rintro rfl
      exact absurd (hword _ List.mem_cons_self) (by decide)
    rw [Token.decode_symbol_word hquote, if_neg, ← hname, named_text]
    simp only [Bool.and_eq_true, Bool.not_eq_true', List.all_cons, Bool.and_eq_false_iff, not_and, not_or,
      Bool.not_eq_false]
    exact fun hdigit => ⟨hdigit, List.all_eq_true.mpr (hslot hdigit)⟩

theorem Symbol.head {token : List UInt8} {name : String} (h : Symbol token name) :
    token.head? = some (ascii '@') := by
  cases h <;> rfl

theorem decode_parses {token : List UInt8} {name : String} (h : Symbol token name) (offset : Nat) :
    Parses (Scan.ofExcept (Token.decode_symbol ⟨token, offset⟩)) [] name := by
  rw [h.decode]
  exact Parses.done

theorem expect_parses (expected : String) : Parses (stream.expect expected) [text expected] () :=
  Parses.token fun _ => Parses.ite_pos rfl Parses.pure

/-- A closing delimiter opens nothing. -/
theorem closes_nothing {opening close : UInt8} (h : matching_close opening = some close) :
    matching_close close = none := by
  unfold matching_close at h
  split at h
  · cases h; decide
  split at h
  · cases h; decide
  split at h
  · cases h; decide
  split at h
  · cases h; decide
  · cases h

theorem is_close_of_matching {opening close : UInt8} (h : matching_close opening = some close) :
    is_close close = true := by
  unfold matching_close at h
  split at h
  · cases h; decide
  split at h
  · cases h; decide
  split at h
  · cases h; decide
  split at h
  · cases h; decide
  · cases h

/-- A group loop passes over balanced tokens without touching its stack. -/
theorem balanced_parses {inner : List (List UInt8)} (h : Balanced inner) :
    ∀ {expected : UInt8} {outer : List UInt8} {tokens : List (List UInt8)},
      Parses (Scan.iter stream.group_turn (expected :: outer)) tokens () →
      Parses (Scan.iter stream.group_turn (expected :: outer)) (inner ++ tokens) () := by
  induction h with
  | nil => exact fun h => h
  | @ordinary token tokens htoken htokens ih =>
    intro expected outer tokens' h
    change Parses _ ([token] ++ (tokens ++ tokens')) ()
    refine Parses.again (expected :: outer) (List.cons_ne_nil token []) ?_ (ih h)
    refine Parses.token fun offset => ?_
    dsimp only
    split
    · next _ byte =>
      obtain ⟨hopen, hclose⟩ := htoken byte rfl
      rw [hopen]
      exact Parses.ite_pos (by simpa using hclose) Parses.done
    · exact Parses.done
  | @group opening close inner tokens hclose hinner htokens ihinner ihtokens =>
    intro expected outer tokens' h
    have hpush : Parses (stream.group_turn (expected :: outer)) [[opening]] (.inl (close :: expected :: outer)) :=
      Parses.token fun offset => by
        simp only [hclose]
        exact Parses.done
    have hpop : Parses (stream.group_turn (close :: expected :: outer)) [[close]] (.inl (expected :: outer)) :=
      Parses.token fun offset => by
        simp only [closes_nothing hclose]
        exact Parses.ite_neg (by simp [is_close_of_matching hclose]) (Parses.ite_neg (by simp) Parses.done)
    have hrest := Parses.again (expected :: outer) (by simp) hpop (ihtokens h)
    have hall := Parses.again (close :: expected :: outer) (by simp) hpush (ihinner hrest)
    simpa using hall

/-- A group is read through the delimiter that closes it. -/
theorem consume_group_parses {opening close : UInt8} {inner : List (List UInt8)}
    (hclose : matching_close opening = some close) (hinner : Balanced inner) :
    Parses (stream.consume_group opening) (inner ++ [[close]]) () := by
  unfold stream.consume_group
  rw [hclose]
  refine balanced_parses hinner ?_
  change Parses _ ([[close]] ++ []) _
  refine Parses.again [] (List.cons_ne_nil [close] []) ?_ (Parses.stop Parses.done)
  refine Parses.token fun offset => ?_
  simp only [closes_nothing hclose]
  exact Parses.ite_neg (by simp [is_close_of_matching hclose]) (Parses.ite_neg (by simp) Parses.done)

namespace header

/-- What a header program reads is a token with these bytes, wherever it stands. -/
def ParsesToken (p : Program Token) (tokens : List (List UInt8)) (bytes : List UInt8) : Prop :=
  ∀ s q r, Ready true s q r → Lexes q tokens r → ∃ offset, Reads p s q ⟨bytes, offset⟩

theorem ParsesToken.bind {β : Type} {p : Program Token} {f : Token → Program β} {b : β} {bytes : List UInt8}
    {tokens tokens' : List (List UInt8)} (hp : ParsesToken p tokens bytes)
    (hf : ∀ offset, Parses (f ⟨bytes, offset⟩) tokens' b) : Parses (p >>= f) (tokens ++ tokens') b := by
  intro s q r h hlexes
  obtain ⟨first, second, rfl, hfirst, hsecond⟩ := hlexes.split
  obtain ⟨offset, hreads⟩ := hp _ _ _ h.first hfirst
  exact Reads.bind h hreads fun s' h' => hf offset _ _ _ h' hsecond

theorem opening_delimiter {byte close : UInt8} (h : matching_close byte = some close) (offset : Nat) :
    opening ⟨[byte], offset⟩ = some byte := by
  simp [opening, h]

theorem opening_eq_none {token : List UInt8} (h : ∀ byte, token = [byte] → matching_close byte = none)
    (offset : Nat) : opening ⟨token, offset⟩ = none := by
  unfold opening
  split
  · next byte hbyte => simp [h byte hbyte]
  · rfl

theorem opening_long {token : List UInt8} (h : token.length ≠ 1) (offset : Nat) : opening ⟨token, offset⟩ = none := by
  apply opening_eq_none
  rintro byte rfl
  exact absurd rfl h

theorem closing_ordinary {token : List UInt8} (h : Ordinary token) (offset : Nat) :
    closing ⟨token, offset⟩ = false := by
  unfold closing
  split
  · next byte hbyte => simpa using (h byte hbyte).2
  · rfl

/-- A piece is read whole. -/
theorem consume_group_parses {token : List UInt8} {piece : List (List UInt8)} (h : Piece (token :: piece))
    (offset : Nat) : Parses (consume_group ⟨token, offset⟩) piece () := by
  unfold consume_group
  cases h with
  | token htoken =>
    rw [opening_eq_none (fun byte hbyte => (htoken byte hbyte).1), closing_ordinary htoken]
    exact Parses.pure
  | group hclose hinner =>
    rw [opening_delimiter hclose]
    exact llvm_index.consume_group_parses hclose hinner

/-- The words of a constant name neither symbols nor each other. -/
theorem constantWords_apart : ∀ word ∈ constantWords.map text, word.length ≠ 1 ∧ word.head? ≠ some (ascii '@') ∧
    word ≠ text "dso_local_equivalent" ∧ word ≠ text "no_cfi" ∧ word ≠ text "c" := by
  decide

theorem expressionOpcodes_apart : ∀ opcode ∈ expressionOpcodes.map text, opcode.length ≠ 1 ∧
    opcode.head? ≠ some (ascii '@') ∧ opcode ≠ text "dso_local_equivalent" ∧ opcode ≠ text "no_cfi" ∧
    opcode ≠ text "c" ∧ opcode ∉ constantWords.map text ∧ opcode.head?.any is_ascii_digit = false ∧
    opcode.head? ≠ some (ascii '-') := by
  decide

theorem ParsesToken.read (bytes : List UInt8) : ParsesToken stream.read_required_token [bytes] bytes := by
  intro s q r h hlexes
  cases hlexes with
  | @cons gap _ tail _ _ hgap hvisible htoken htokens =>
    cases htokens
    rw [List.append_nil] at h ⊢
    exact ⟨_, stream.read_required_token_reads h hgap hvisible htoken⟩

/-- A token behind a first step. -/
theorem ParsesToken.after {α : Type} {p : Program α} {f : α → Program Token} {a : α} {bytes : List UInt8}
    {tokens tokens' : List (List UInt8)} (hp : Parses p tokens a) (hf : ParsesToken (f a) tokens' bytes) :
    ParsesToken (p >>= f) (tokens ++ tokens') bytes := by
  intro s q r h hlexes
  obtain ⟨first, second, rfl, hfirst, hsecond⟩ := hlexes.split
  obtain ⟨s1, hrun, hs1⟩ := hp _ _ _ h.first hfirst
  obtain ⟨offset, s2, hrun', hs2⟩ := hf _ _ _ (h.behind hs1) hsecond
  exact ⟨offset, s2, by rw [run_bind, hrun, andThen_ok, hrun'], hs1.trans hs2⟩

/-- A turn that reads one token, and the loop behind it. -/
theorem ParsesToken.again {body : Token → Program (Token ⊕ Token)} {b : Token} {first bytes : List UInt8}
    {tokens : List (List UInt8)} (hturn : body b = stream.read_required_token >>= fun next => .done (.inl next))
    (hloop : ∀ offset, ParsesToken (Scan.iter body ⟨first, offset⟩) tokens bytes) :
    ParsesToken (Scan.iter body b) (first :: tokens) bytes := by
  intro s q r h hlexes
  obtain ⟨bytes1, bytes2, rfl, hfirst, hsecond⟩ := hlexes.uncons
  obtain ⟨next, hread⟩ := ParsesToken.read first _ _ _ h.first hfirst
  obtain ⟨s1, hrun, hs1⟩ := hread
  obtain ⟨offset, s2, hrun', hs2⟩ := hloop next _ _ _ (h.behind hs1) hsecond
  refine ⟨offset, s2, ?_, hs1.trans hs2⟩
  rw [run_iter_unfold, hturn, run_bind, hrun, andThen_ok, run_done, andThen_ok]
  simp only [if_pos (hs1.remaining_lt (hfirst.ne_nil (List.cons_ne_nil first []))), hrun']

/-- The flags of an expression are skipped up to its operands. -/
theorem skip_flags_parses {opcode : List UInt8} (flags : List (List UInt8)) (offset : Nat)
    (hflags : ∀ flag ∈ flags, opcode = text "getelementptr" ∧ flag ∈ ["inbounds", "nuw", "nusw"].map text) :
    ∀ (first : List UInt8) (rest : List (List UInt8)) (next : Nat), flags ++ [text "("] = first :: rest →
      ParsesToken (skip_flags ⟨opcode, offset⟩ ⟨first, next⟩) rest (text "(") := by
  induction flags with
  | nil =>
    rintro first rest next heq s q r h hlexes
    cases heq
    cases hlexes
    refine ⟨next, ?_⟩
    by_cases hopcode : opcode = text "getelementptr"
    · exact Reads.ite_pos hopcode (Reads.stop (Reads.ite_neg Bool.false_ne_true Reads.done))
    · exact Reads.ite_neg hopcode Reads.pure
  | cons flag flags ih =>
    intro first rest next heq
    obtain ⟨rfl, rfl⟩ := List.cons.inj heq
    obtain ⟨hopcode, hflag⟩ := hflags flag List.mem_cons_self
    have hloop := ih fun flag hmem => hflags flag (List.mem_cons_of_mem _ hmem)
    have hturn : Token.is_any ⟨flag, next⟩ ["inbounds", "nuw", "nusw"] = true := by simpa [Token.is_any] using hflag
    simp only [skip_flags, if_pos hopcode] at hloop ⊢
    obtain ⟨second, tokens, hnext⟩ := List.exists_cons_of_ne_nil (show flags ++ [text "("] ≠ [] by simp)
    change ParsesToken _ (flags ++ [text "("]) _
    rw [hnext]
    exact ParsesToken.again (if_pos hturn) fun offset => hloop second tokens offset hnext

/-- A number starts neither with a delimiter nor with a letter. -/
theorem number_ne {byte : UInt8} (h : is_ascii_digit byte ∨ byte = ascii '-') (other : UInt8)
    (hother : is_ascii_digit other = false) (hminus : other ≠ ascii '-') : byte ≠ other := by
  rintro rfl
  rcases h with h | h
  · simp [h] at hother
  · exact hminus h

theorem number_opens_nothing {byte : UInt8} (h : is_ascii_digit byte ∨ byte = ascii '-') : matching_close byte = none := by
  unfold matching_close
  rw [if_neg (number_ne h (ascii '(') rfl (by decide)), if_neg (number_ne h (ascii '[') rfl (by decide)),
    if_neg (number_ne h (ascii '{') rfl (by decide)), if_neg (number_ne h (ascii '<') rfl (by decide))]

/-- A constant is read behind its first token. -/
theorem consume_constant_parses {token : List UInt8} {values : List (List UInt8)} (h : Constant (token :: values))
    (offset : Nat) : Parses (consume_constant ⟨token, offset⟩) values () := by
  unfold consume_constant
  cases h with
  | group hclose hinner =>
    rw [opening_delimiter hclose]
    exact llvm_index.consume_group_parses hclose hinner
  | @symbol _ name hsymbol =>
    have hlong : token.length ≠ 1 := by cases hsymbol <;> simp
    rw [opening_long hlong]
    refine Parses.ite_pos (by simp [starts_with, hsymbol.head]) (Parses.bind_nil (decode_parses hsymbol offset) Parses.pure)
  | @equivalent _ symbol name hkeyword hsymbol =>
    have hlong : token.length ≠ 1 := by rcases hkeyword with rfl | rfl <;> decide
    have hat : ¬ starts_with ⟨token, offset⟩ '@' := by rcases hkeyword with rfl | rfl <;> exact Bool.false_ne_true
    rw [opening_long hlong]
    refine Parses.ite_neg hat (Parses.ite_pos (by simpa using hkeyword) (Parses.token fun next => ?_))
    exact Parses.bind_nil (decode_parses hsymbol next) Parses.pure
  | string hquote =>
    rw [opening_eq_none (by rintro byte hbyte; cases hbyte; decide)]
    refine Parses.ite_neg Bool.false_ne_true (Parses.ite_neg Bool.false_ne_true (Parses.ite_pos rfl ?_))
    exact Parses.token fun next => Parses.ite_pos (by simp [starts_with, hquote]) Parses.pure
  | word hword =>
    obtain ⟨hlong, hat, hequivalent, hcfi, hstring⟩ := constantWords_apart token hword
    rw [opening_long hlong]
    refine Parses.ite_neg (by simpa [starts_with] using hat) (Parses.ite_neg (by simp [hequivalent, hcfi]) ?_)
    exact Parses.ite_neg hstring (Parses.ite_pos (by simp [Token.is_any, List.mem_map.mp hword]) Parses.pure)
  | @number first digits hfirst =>
    have hne := number_ne hfirst
    rw [opening_eq_none (by rintro byte hbyte; cases hbyte; exact number_opens_nothing hfirst)]
    refine Parses.ite_neg (by simpa [starts_with] using hne (ascii '@') rfl (by decide)) (Parses.ite_neg ?_ (Parses.ite_neg ?_ ?_))
    · simp only [Bool.or_eq_true, decide_eq_true_eq, not_or]
      exact ⟨fun h => hne (ascii 'd') rfl (by decide) (List.cons.inj h).1,
        fun h => hne (ascii 'n') rfl (by decide) (List.cons.inj h).1⟩
    · exact fun h => hne (ascii 'c') rfl (by decide) (List.cons.inj h).1
    · exact Parses.ite_pos (by rcases hfirst with h | h <;> simp [starts_with, h]) Parses.pure
  | @expression _ flags inner hopcode hflags hinner =>
    obtain ⟨hlong, hat, hequivalent, hcfi, hstring, hword, hdigit, hminus⟩ := expressionOpcodes_apart token hopcode
    rw [opening_long hlong]
    refine Parses.ite_neg (by simpa [starts_with] using hat) (Parses.ite_neg (by simp [hequivalent, hcfi]) ?_)
    refine Parses.ite_neg hstring (Parses.ite_neg ?_ (Parses.ite_neg ?_ ?_))
    · simp [Token.is_any, starts_with, hdigit, hminus, List.mem_map.not.mp hword]
    · simp [Token.is_any, List.mem_map.mp hopcode]
    · obtain ⟨first, rest, hnext⟩ := List.exists_cons_of_ne_nil (show flags ++ [text "("] ≠ [] by simp)
      have htokens : flags ++ text "(" :: (inner ++ [text ")"]) = first :: (rest ++ (inner ++ [text ")"])) := by
        rw [List.append_cons, hnext, List.cons_append]
      rw [htokens]
      refine Parses.token fun next => ParsesToken.bind (skip_flags_parses flags offset hflags first rest next hnext) fun _ => ?_
      exact Parses.ite_pos rfl (llvm_index.consume_group_parses rfl hinner)

/-- An address space is skipped, and the operand behind it read. -/
theorem skip_addrspace_parses {space : List (List UInt8)} {operand : List UInt8} (hspace : Addrspace space)
    (hoperand : operand ≠ text "addrspace") : ∀ (first : List UInt8) (rest : List (List UInt8)) (next : Nat),
      space ++ [operand] = first :: rest → ParsesToken (skip_addrspace ⟨first, next⟩) rest operand := by
  rintro first rest next heq
  cases hspace with
  | nil =>
    cases heq
    rintro s q r h hlexes
    cases hlexes
    exact ⟨next, Reads.ite_neg hoperand Reads.pure⟩
  | @group inner hinner =>
    obtain ⟨rfl, hrest⟩ := List.cons.inj heq
    have hskip : skip_addrspace ⟨text "addrspace", next⟩ = (do
        stream.expect "("
        stream.consume_group (ascii '(')
        stream.read_required_token) := rfl
    have hrest : rest = [text "("] ++ ((inner ++ [text ")"]) ++ [operand]) := by rw [← hrest]; simp
    rw [hskip, hrest]
    exact ParsesToken.after (expect_parses "(") (ParsesToken.after (llvm_index.consume_group_parses rfl hinner) (ParsesToken.read operand))

/-- No constant is an address space or a pointer type. -/
theorem constant_apart {token : List UInt8} {values : List (List UInt8)} (h : Constant (token :: values)) :
    token ≠ text "addrspace" ∧ token ≠ text "ptr" := by
  cases h with
  | group hclose hinner =>
    exact ⟨fun h => Nat.noConfusion (Nat.succ.inj (congrArg List.length h)),
      fun h => Nat.noConfusion (Nat.succ.inj (congrArg List.length h))⟩
  | symbol hsymbol =>
    exact ⟨fun h => absurd (h ▸ hsymbol.head) (by decide), fun h => absurd (h ▸ hsymbol.head) (by decide)⟩
  | equivalent hkeyword hsymbol => rcases hkeyword with rfl | rfl <;> decide
  | string hquote => decide
  | word hword =>
    exact (by decide : ∀ word ∈ constantWords.map text, word ≠ text "addrspace" ∧ word ≠ text "ptr") _ hword
  | number hfirst =>
    exact ⟨fun h => number_ne hfirst (ascii 'a') rfl (by decide) (List.cons.inj h).1,
      fun h => number_ne hfirst (ascii 'p') rfl (by decide) (List.cons.inj h).1⟩
  | expression hopcode hflags hinner =>
    exact (by decide : ∀ word ∈ expressionOpcodes.map text, word ≠ text "addrspace" ∧ word ≠ text "ptr") _ hopcode

theorem consume_typed_constant_parses {tokens : List (List UInt8)} (h : TypedConstant tokens) :
    Parses consume_typed_constant tokens () := by
  cases h with
  | @mk ty types space value htype hspace hpointer hvalue =>
    rw [List.cons_append, List.cons_append, List.append_assoc]
    refine Parses.token fun offset => Parses.bind (consume_group_parses htype offset) ?_
    obtain ⟨operand, values, rfl⟩ : ∃ operand values, value = operand :: values := by
      cases hvalue <;> exact ⟨_, _, rfl⟩
    obtain ⟨first, rest, hnext⟩ := List.exists_cons_of_ne_nil (show space ++ [operand] ≠ [] by simp)
    rw [List.append_cons, hnext, List.cons_append]
    refine Parses.token fun next => ?_
    by_cases hptr : ty = text "ptr"
    · refine Parses.ite_pos hptr ?_
      exact ParsesToken.bind (skip_addrspace_parses hspace (constant_apart hvalue).1 first rest next hnext)
        (consume_constant_parses hvalue)
    · have hnil : space = [] := by
        by_contra hne
        exact hptr (hpointer hne)
      subst hnil
      cases hnext
      exact Parses.ite_neg hptr (consume_constant_parses hvalue next)

/-- The tokens of a loop that reads pieces and then stops. -/
theorem pieces_parse {γ : Type} {allowed : List UInt8 → Prop} {body : Unit → Program (Unit ⊕ γ)} {c : γ}
    {pieces tokens : List (List UInt8)} (hpieces : Pieces allowed pieces)
    (hturn : ∀ token piece, allowed token → Piece (token :: piece) → Parses (body ()) (token :: piece) (.inl ()))
    (hloop : Parses (Scan.iter body ()) tokens c) : Parses (Scan.iter body ()) (pieces ++ tokens) c := by
  induction hpieces with
  | nil => exact hloop
  | cons hpiece hallowed htokens ih =>
    rw [List.append_assoc]
    exact Parses.again () (List.cons_ne_nil _ _) (hturn _ _ hallowed hpiece) ih

theorem function_name_parses {before : List (List UInt8)} {symbol : List UInt8} {name : String}
    (hbefore : FunctionPrefix before) (hsymbol : Symbol symbol name) :
    Parses (Scan.iter function_name_turn ()) (before ++ [symbol]) name := by
  refine pieces_parse hbefore (fun token piece hallowed hpiece => ?_) (Parses.stop ?_)
  · refine Parses.token fun offset => Parses.ite_neg (by simpa [starts_with] using hallowed.1) (Parses.ite_neg ?_ ?_)
    · simpa [Token.is_any] using hallowed.2
    · exact Parses.bind_last (consume_group_parses hpiece offset) Parses.done
  · refine Parses.token fun offset => Parses.ite_pos (by simp [starts_with, hsymbol.head]) ?_
    exact Parses.bind_nil (decode_parses hsymbol offset) Parses.done

theorem function_suffix_parses {suffix tokens : List (List UInt8)} (h : FunctionSuffix suffix)
    (hloop : Parses (Scan.iter function_suffix_turn ()) tokens ()) :
    Parses (Scan.iter function_suffix_turn ()) (suffix ++ tokens) () := by
  induction h with
  | nil => exact hloop
  | @piece token piece tokens hpiece hbody hmetadata hconstant hdefinition htokens ih =>
    rw [List.append_assoc]
    refine Parses.again () (List.cons_ne_nil _ _) (Parses.token fun offset => ?_) ih
    refine Parses.ite_neg hbody (Parses.ite_neg ?_ (Parses.ite_neg hmetadata (Parses.ite_neg ?_ ?_)))
    · simpa [Token.is_any] using hconstant
    · simpa [Token.is_any] using hdefinition
    · exact Parses.bind_last (consume_group_parses hpiece offset) Parses.done
  | @constant keyword constant tokens hkeyword hconstant htokens ih =>
    rw [List.append_assoc]
    refine Parses.again () (List.cons_ne_nil _ _) (Parses.token fun offset => ?_) ih
    refine Parses.ite_neg ?_ (Parses.ite_pos ?_ ?_)
    · exact (by decide : ∀ word ∈ ["prefix", "prologue", "personality"].map text, word ≠ text "\x7b") _ hkeyword
    · simpa [Token.is_any] using hkeyword
    · exact Parses.bind_last (consume_typed_constant_parses hconstant) Parses.done
  | @metadata piece tokens hpiece htokens ih =>
    rw [List.append_assoc]
    refine Parses.again () (List.cons_ne_nil _ _) (Parses.token fun offset => ?_) ih
    have hbody : text "!" ≠ text "\x7b" := by decide
    refine Parses.ite_neg hbody (Parses.ite_neg Bool.false_ne_true (Parses.ite_pos rfl ?_))
    obtain ⟨token, rest, rfl⟩ : ∃ token rest, piece = token :: rest := by cases hpiece <;> exact ⟨_, _, rfl⟩
    exact Parses.token fun next => Parses.bind_last (consume_group_parses hpiece next) Parses.done

/-- A function header is read through the brace that opens the body. -/
theorem read_function_parses {tokens : List (List UInt8)} {name : String} (h : FunctionHeader tokens name) :
    Parses read_function tokens name := by
  cases h with
  | @mk before arguments suffix symbol _ hbefore hsymbol harguments hsuffix =>
    have htokens : before ++ symbol :: text "(" :: (arguments ++ text ")" :: (suffix ++ [text "\x7b"])) =
        (before ++ [symbol]) ++ ([text "("] ++ ((arguments ++ [text ")"]) ++ (suffix ++ [text "\x7b"]))) := by simp
    rw [htokens]
    refine Parses.bind (function_name_parses hbefore hsymbol) (Parses.bind (expect_parses "(") ?_)
    refine Parses.bind (llvm_index.consume_group_parses rfl harguments) (Parses.bind_last (a := ()) ?_ Parses.pure)
    exact function_suffix_parses hsuffix (Parses.stop (Parses.token fun offset => Parses.ite_pos rfl Parses.done))

end header

end optic.llvm_index
