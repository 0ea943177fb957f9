import Optic.LlvmIndex.Refinement
import Optic.LlvmIndex.StreamReads
import Optic.LlvmIndex.StreamSpec

open byte_scan rust

namespace optic.llvm_index

/-- A hexadecimal digit, in either case, and its value. -/
def Digit (digit : UInt8) (value : Nat) : Prop :=
  (text "0123456789abcdef")[value]? = some digit ∨ (text "0123456789ABCDEF")[value]? = some digit

/-- `Content bytes name`: every byte of the name is spelled raw, as a backslash and two
hexadecimal digits, or as two backslashes. -/
inductive Content : List UInt8 → List UInt8 → Prop where
  | nil : Content [] []
  | raw {byte : UInt8} {bytes name : List UInt8} (hbyte : byte ∉ text "\"\\\r\n") (hbytes : Content bytes name) :
      Content (byte :: bytes) (byte :: name)
  | hex {high low byte : UInt8} {h l : Nat} {bytes name : List UInt8} (hhigh : Digit high h) (hlow : Digit low l)
      (hbyte : byte.toNat = 16 * h + l) (hbytes : Content bytes name) :
      Content (ascii '\\' :: high :: low :: bytes) (byte :: name)
  | backslash {bytes name : List UInt8} (hbytes : Content bytes name) :
      Content (ascii '\\' :: ascii '\\' :: bytes) (ascii '\\' :: name)

/-- A quoted spelling of a symbol's name. -/
def Spelling (bytes : List UInt8) (name : String) : Prop :=
  ∃ content, Content content (text name) ∧ bytes = ascii '@' :: ascii '"' :: (content ++ [ascii '"'])

/-- The digits that the reader accepts, with the values that the decoder gives them. -/
theorem digit_iff {digit : UInt8} {value : Nat} :
    Digit digit value ↔ is_ascii_hexdigit digit ∧ (hex digit).toNat = value := by
  have table : ∀ n < 256, is_ascii_hexdigit (UInt8.ofNat n) →
      (text "0123456789abcdef")[(hex (UInt8.ofNat n)).toNat]? = some (UInt8.ofNat n) ∨
        (text "0123456789ABCDEF")[(hex (UInt8.ofNat n)).toNat]? = some (UInt8.ofNat n) := by decide +kernel
  constructor
  · intro h
    have hvalue : value < 16 := by obtain h | h := h <;> exact (List.getElem?_eq_some_iff.mp h).1
    have values : ∀ v < 16, ((text "0123456789abcdef")[v]?.toList ++ (text "0123456789ABCDEF")[v]?.toList).all
        fun d => is_ascii_hexdigit d ∧ (hex d).toNat = v := by decide
    have hmem : digit ∈ (text "0123456789abcdef")[value]?.toList ++ (text "0123456789ABCDEF")[value]?.toList := by
      obtain h | h := h <;> simp [h]
    exact of_decide_eq_true (List.all_eq_true.mp (values value hvalue) digit hmem)
  · rintro ⟨hdigit, rfl⟩
    have h := table digit.toNat digit.toNat_lt
    rw [UInt8.ofNat_toNat] at h
    exact h hdigit

theorem hex_lt {digit : UInt8} (h : is_ascii_hexdigit digit) : (hex digit).toNat < 16 := by
  obtain h | h := digit_iff.mpr ⟨h, rfl⟩ <;> exact (List.getElem?_eq_some_iff.mp h).1

/-- The decoder joins the values of two digits. -/
theorem hex_pair {high low : UInt8} (hhigh : is_ascii_hexdigit high) (hlow : is_ascii_hexdigit low) :
    (hex high <<< 4 ||| hex low).toNat = 16 * (hex high).toNat + (hex low).toNat := by
  have table : ∀ h < 16, ∀ l < 16, (UInt8.ofNat h <<< 4 ||| UInt8.ofNat l).toNat = 16 * h + l := by decide
  have h := table _ (hex_lt hhigh) _ (hex_lt hlow)
  rwa [UInt8.ofNat_toNat, UInt8.ofNat_toNat] at h

theorem raw_iff {byte : UInt8} : byte ∉ text "\"\\\r\n" ↔
    byte ≠ ascii '"' ∧ byte ≠ ascii '\\' ∧ byte ≠ ascii '\r' ∧ byte ≠ ascii '\n' := by
  rw [show text "\"\\\r\n" = [ascii '"', ascii '\\', ascii '\r', ascii '\n'] from rfl]
  simp

/-- The quoted contents that the tokenizer accepts are the spellings of names. -/
theorem content_iff {bytes name : List UInt8} : Content bytes name ↔ Spells bytes name := by
  constructor
  · intro h
    induction h with
    | nil => exact Spells.nil
    | raw hbyte hbytes ih =>
      obtain ⟨hquote, hbackslash, hcr, hlf⟩ := raw_iff.mp hbyte
      exact Spells.raw hquote hbackslash hlf hcr ih
    | hex hhigh hlow hbyte hbytes ih =>
      obtain ⟨hfirst, rfl⟩ := digit_iff.mp hhigh
      obtain ⟨hsecond, rfl⟩ := digit_iff.mp hlow
      rw [← hex_pair hfirst hsecond] at hbyte
      rw [UInt8.toNat_inj.mp hbyte]
      exact Spells.hex hfirst hsecond ih
    | backslash hbytes ih => exact Spells.backslash ih
  · intro h
    induction h with
    | nil => exact Content.nil
    | raw hquote hbackslash hlf hcr hcontent ih => exact Content.raw (raw_iff.mpr ⟨hquote, hbackslash, hcr, hlf⟩) ih
    | backslash hcontent ih => exact Content.backslash ih
    | hex hfirst hsecond hcontent ih =>
      exact Content.hex (digit_iff.mpr ⟨hfirst, rfl⟩) (digit_iff.mpr ⟨hsecond, rfl⟩) (hex_pair hfirst hsecond) ih

theorem Lexeme.quote_mem {bytes rest : List UInt8} (h : Lexeme bytes rest) (hquote : ascii '"' ∈ bytes) :
    ∃ content name, Spells content name ∧
      (bytes = ascii '"' :: (content ++ [ascii '"']) ∨
        ∃ sigil, bytes = sigil :: ascii '"' :: (content ++ [ascii '"'])) := by
  cases h with
  | quoted hbytes =>
    obtain ⟨content, name, hcontent, rfl⟩ := hbytes
    exact ⟨content, name, hcontent, Or.inl rfl⟩
  | symbol hsigil hbytes =>
    obtain ⟨content, name, hcontent, rfl⟩ := hbytes
    exact ⟨content, name, hcontent, Or.inr ⟨_, rfl⟩⟩
  | word hfirst hbytes hrest hopens =>
    obtain rfl | hquote := List.mem_cons.mp hquote
    · exact absurd hfirst (by decide)
    · exact absurd (hbytes _ hquote) (by decide)
  | mark hne hword hsigil hmetadata => exact absurd (List.mem_singleton.mp hquote).symm hne

namespace Token

theorem named_ok {offset : Nat} {name : List UInt8} {symbol : String} (h : named offset name = .ok symbol) :
    name = text symbol := by
  unfold named at h
  split at h
  · next s hutf8 =>
    cases h
    exact (text_of_from_utf8 hutf8).symm
  · cases h

theorem decode_symbol_head {token : Token} {symbol : String} (h : token.decode_symbol = .ok symbol) :
    token.bytes.head? = some (ascii '@') := by
  unfold decode_symbol at h
  split at h
  · cases h
  · next hat =>
    simp only [Bool.or_eq_true, decide_eq_true_eq, not_or, not_not] at hat
    exact hat.1

/-- A spelling decodes to its name. -/
theorem decode_symbol_spelling {bytes : List UInt8} {name : String} (h : Spelling bytes name) (offset : Nat) :
    decode_symbol ⟨bytes, offset⟩ = .ok name := by
  obtain ⟨content, hcontent, rfl⟩ := h
  rw [decode_symbol_quoted (content_iff.mp hcontent), named, from_utf8_text]

/-- A quoted token that decodes to a name is a spelling of it. -/
theorem spelling_of_decode_symbol {token : Token} {rest : List UInt8} (hlexeme : Lexeme token.bytes rest)
    (hquote : ascii '"' ∈ token.bytes) {name : String} (h : token.decode_symbol = .ok name) :
    Spelling token.bytes name := by
  have hhead := decode_symbol_head h
  obtain ⟨bytes, offset⟩ := token
  obtain ⟨content, spelled, hcontent, rfl | ⟨sigil, rfl⟩⟩ := hlexeme.quote_mem hquote
  · exact absurd hhead (by simp; decide)
  · obtain rfl := Option.some.inj hhead
    rw [decode_symbol_quoted hcontent] at h
    refine ⟨content, ?_, rfl⟩
    rw [← named_ok h]
    exact content_iff.mpr hcontent

/-- `self.Rewriting quoted bytes read write`: the rewrite of a symbol comes to a turn with this
buffer and these cursors. -/
inductive Rewriting (self : Token) (quoted : Bool) : List UInt8 → Nat → Nat → Prop where
  | start : Rewriting self quoted self.bytes (if quoted then 2 else 1) 0
  | turn {bytes bytes' : List UInt8} {read read' write : Nat} {byte : UInt8} (h : Rewriting self quoted bytes read write)
      (hread : read < self.bytes.length - (if quoted then 1 else 0)) (hbyte : decode_byte quoted bytes read = .ok (byte, read'))
      (hset : set_byte bytes write byte = .ok bytes') : Rewriting self quoted bytes' read' (write + 1)

theorem decode_byte_lt {quoted : Bool} {bytes : List UInt8} {read read' : Nat} {byte : UInt8}
    (h : decode_byte quoted bytes read = .ok (byte, read')) : read < read' := by
  unfold decode_byte decode_escape at h
  obtain ⟨first, -, h⟩ := bind_eq_ok_iff.mp h
  split at h
  · obtain ⟨second, -, h⟩ := bind_eq_ok_iff.mp h
    split at h
    · cases h
      omega
    · obtain ⟨third, -, h⟩ := bind_eq_ok_iff.mp h
      cases h
      omega
  · cases h
    omega

/-- No turn of the rewrite changes a byte at or behind the read cursor. -/
theorem Rewriting.unread {self : Token} {quoted : Bool} {bytes : List UInt8} {read write : Nat}
    (h : self.Rewriting quoted bytes read write) :
    write < read ∧ bytes.length = self.bytes.length ∧ bytes.drop read = self.bytes.drop read := by
  induction h with
  | start => cases quoted <;> simp
  | @turn bytes bytes' read read' write byte h hread hbyte hset ih =>
    obtain ⟨hwrite, hlength, hdrop⟩ := ih
    have hlt := decode_byte_lt hbyte
    unfold set_byte at hset
    split at hset
    · cases hset
      refine ⟨by omega, by simpa using hlength, ?_⟩
      rw [List.drop_set_of_lt (by omega)]
      have htail := congrArg (List.drop (read' - read)) hdrop
      rwa [List.drop_drop, List.drop_drop, Nat.add_sub_cancel' (by omega)] at htail
    · cases hset

/-- The loop of the source goes through these turns until its read cursor is at the end. -/
theorem decode_loop_rewriting {self : Token} {quoted : Bool} {stop : Nat}
    (hstop : stop = self.bytes.length - (if quoted then 1 else 0)) (bound : Nat) :
    ∀ {bytes bytes' : List UInt8} {read write write' : Nat}, self.Rewriting quoted bytes read write →
      stop - read ≤ bound → decode_loop quoted stop bound bytes read write = .ok (bytes', write') →
      ∃ read', stop ≤ read' ∧ self.Rewriting quoted bytes' read' write' := by
  induction bound with
  | zero =>
    intro bytes bytes' read write write' h hbound hloop
    cases hloop
    exact ⟨read, by omega, h⟩
  | succ bound ih =>
    intro bytes bytes' read write write' h hbound hloop
    rw [decode_loop] at hloop
    split at hloop
    · next hread =>
      obtain ⟨⟨byte, next⟩, hbyte, hloop⟩ := bind_eq_ok_iff.mp hloop
      obtain ⟨rewritten, hset, hloop⟩ := bind_eq_ok_iff.mp hloop
      have hlt := decode_byte_lt hbyte
      exact ih (h.turn (hstop ▸ hread) hbyte hset) (by omega) hloop
    · cases hloop
      exact ⟨read, by omega, h⟩

/-- What a decoded symbol is made of: the bytes in front of the write cursor at the end. -/
theorem decode_symbol_rewriting {self : Token} {symbol : String} (h : self.decode_symbol = .ok symbol) :
    ∃ quoted bytes read write, self.Rewriting quoted bytes read write ∧
      self.bytes.length - (if quoted then 1 else 0) ≤ read ∧ bytes.take write = text symbol := by
  unfold decode_symbol at h
  split at h
  · cases h
  · obtain ⟨second, -, h⟩ := bind_eq_ok_iff.mp h
    dsimp only at h
    split at h
    · cases h
    · obtain ⟨⟨bytes, write⟩, hloop, h⟩ := bind_eq_ok_iff.mp h
      have hstart : self.Rewriting (second = ascii '"') self.bytes _ 0 := Rewriting.start
      simp only [decide_eq_true_eq] at hstart
      obtain ⟨read, hread, hrewriting⟩ := decode_loop_rewriting (by simp only [decide_eq_true_eq]) _ hstart
        (Nat.le_refl _) hloop
      refine ⟨_, bytes, read, write, hrewriting, by simpa only [decide_eq_true_eq] using hread, ?_⟩
      split at h
      · next hutf8 =>
        cases h
        exact (text_of_from_utf8 hutf8).symm
      · cases h

end Token

namespace stream

/-- On a stream, a token is read as on the bytes that the stream still has. -/
theorem read_token_refines {t : Contiguous} {s s' : Stream} (h : Refines t s) (hactive : t.header_start.isSome)
    {stop : Bool} {token : Token} (hrun : (read_token stop).run s = .ok (some token, s')) :
    ∃ t', Refines t' s' ∧ ReadToken stop t token t' := by
  have hmatch := Refines.simulates.run (read_token stop) t s h
  have hspec := read_token_spec hactive stop
  cases hcontiguous : (read_token stop).run t with
  | ok pair =>
    rw [hcontiguous, hrun] at hmatch
    obtain hpast | ⟨s2, heq, hs2⟩ := hmatch
    · exact hpast.elim
    · obtain ⟨hvalue, rfl⟩ := Prod.mk.inj (Except.ok.inj heq)
      have hread := hspec.of_run_ok hcontiguous
      rw [← hvalue] at hread
      exact ⟨pair.2, hs2, hread⟩
  | error fault =>
    cases fault with
    | stalled => exact absurd hcontiguous hspec.ne_stalled
    | error error =>
      rw [hcontiguous, hrun] at hmatch
      exact absurd (hmatch.resolve_left id) (by simp)

/-- Reading and decoding a symbol undoes every spelling of its name and consumes exactly the
spelling, only spellings decode, and the rewrite in place keeps every byte that is still to be
read. -/
theorem read_token_decode_symbol {t : Contiguous} {s : Stream} (h : Refines t s) (hactive : t.header_start.isSome)
    (stop : Bool) :
    (∀ (name : String) (spelling following : List UInt8), Spelling spelling name →
      t.rest = spelling ++ following → t.failure = none → t.offset + spelling.length < UInt64.size →
      (∀ start ∈ t.header_start, start ≤ t.offset ∧ t.offset + spelling.length ≤ start + HEADER_LIMIT) →
      ∃ t' s', (read_token stop).run s = .ok (some ⟨spelling, s.offset⟩, s') ∧
        Token.decode_symbol ⟨spelling, s.offset⟩ = .ok name ∧ Refines t' s' ∧ t'.rest = following ∧
        s'.offset = s.offset + spelling.length) ∧
    (∀ (token : Token) (s' : Stream) (name : String), (read_token stop).run s = .ok (some token, s') →
      ascii '"' ∈ token.bytes → token.decode_symbol = .ok name →
      Spelling token.bytes name ∧ ∃ gap t', Blank stop gap ∧ Refines t' s' ∧
        t.rest = gap ++ token.bytes ++ t'.rest ∧ token.offset = s.offset + gap.length) ∧
    (∀ (token : Token) (name : String), token.decode_symbol = .ok name →
      ∃ quoted bytes read write, token.Rewriting quoted bytes read write ∧
        token.bytes.length - (if quoted then 1 else 0) ≤ read ∧ bytes.take write = text name) ∧
    ∀ (token : Token) (quoted : Bool) (bytes : List UInt8) (read write : Nat),
      token.Rewriting quoted bytes read write → write < read ∧ bytes.drop read = token.bytes.drop read := by
  refine ⟨?_, ?_, fun _ _ => Token.decode_symbol_rewriting, ?_⟩
  · intro name spelling following hspelling hrest hcomplete hfits hbudget
    have hdecode := Token.decode_symbol_spelling hspelling s.offset
    obtain ⟨content, hcontent, rfl⟩ := hspelling
    have hlexeme : Lexeme (ascii '@' :: ascii '"' :: (content ++ [ascii '"'])) following :=
      Lexeme.symbol rfl ⟨content, text name, content_iff.mp hcontent, rfl⟩
    have hvisible : Visible (ascii '@' :: ascii '"' :: (content ++ [ascii '"'])) := by
      intro byte hbyte
      obtain rfl := Option.some.inj hbyte
      decide
    have hready : Ready true t ([] ++ ascii '@' :: ascii '"' :: (content ++ [ascii '"'])) following :=
      ⟨hrest, hcomplete, hactive, hfits, hbudget⟩
    have hgap : Blank stop [] := Blank.nil
    obtain ⟨t', hrun, hconsumed⟩ := read_token_reads hready hgap hvisible hlexeme
    have hmatch := Refines.simulates.run (read_token stop) t s h
    rw [hrun] at hmatch
    obtain ⟨s', hs, hs'⟩ := hmatch.resolve_left id
    rw [List.length_nil, Nat.add_zero, h.offset] at hs
    refine ⟨t', s', hs, hdecode, hs', hconsumed.rest_eq hrest, ?_⟩
    rw [← hs'.offset, hconsumed.offset, h.offset]
    rfl
  · intro token s' name hrun hquote hdecode
    obtain ⟨t', hs', gap, hconsumed, hoffset, hgap, hvisible, hlexeme⟩ := read_token_refines h hactive hrun
    refine ⟨Token.spelling_of_decode_symbol hlexeme hquote hdecode, gap, t', hgap, hs', hconsumed.rest, ?_⟩
    rw [hoffset, h.offset]
  · intro token quoted bytes read write hrewriting
    exact ⟨hrewriting.unread.1, hrewriting.unread.2.2⟩

theorem read_token_decode_symbol_mixed : ∃ s', (read_token false).run
      { Stream.new [.data (text "@\"a\\2"), .data (text "2\\\\\" =")] with header_start := some 0 } =
        .ok (some ⟨text "@\"a\\22\\\\\"", 0⟩, s') ∧
      Token.decode_symbol ⟨text "@\"a\\22\\\\\"", 0⟩ = .ok "a\"\\" := by
  have hdelivers : Reader.Delivers [.data (text "@\"a\\2"), .data (text "2\\\\\" =")] := by
    intro bytes hbytes
    simp only [List.mem_cons, ReadEvent.data.injEq, List.not_mem_nil, or_false] at hbytes
    obtain rfl | rfl := hbytes <;> decide
  have hrefines := Refines.simulates.budget _ _ (some 0) (Refines.new hdelivers)
  have hspelling : Spelling (text "@\"a\\22\\\\\"") "a\"\\" := by
    refine ⟨text "a\\22\\\\", ?_, by decide⟩
    refine Content.raw (by decide) (Content.hex (h := 2) (l := 2) ?_ ?_ ?_ (Content.backslash Content.nil))
    · exact Or.inl (by decide)
    · exact Or.inl (by decide)
    · decide
  obtain ⟨_, s', hrun, hdecode, -⟩ := (read_token_decode_symbol hrefines rfl false).1 "a\"\\" (text "@\"a\\22\\\\\"")
    (text " =") hspelling (by decide) (by decide) (by decide) (by intro start hstart; cases hstart; decide)
  exact ⟨s', hrun, hdecode⟩

end stream

end optic.llvm_index
