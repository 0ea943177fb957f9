import Optic.LlvmIndex.Consumed

open byte_scan rust optic.records

namespace optic.llvm_index.stream

/-- A line skip stops behind the first newline, or at the end of the input. -/
theorem skip_line_spec (s : Contiguous) :
    Ensures skip_line s fun _ s' => ∃ q, Consumed s q s' ∧ LineEnd q s' := by
  refine Meets.iter (I := fun _ _ => True) (Q := fun _ s _ s' => ∃ q, Consumed s q s' ∧ LineEnd q s')
    (fun _ s _ => ?_) () s trivial
  refine (take_spec s).bind fun byte s1 htook => ?_
  cases byte with
  | none =>
    obtain ⟨hrest, rfl⟩ := htook
    exact Meets.done ⟨[], Consumed.look s, Or.inr ⟨by simp, hrest⟩⟩
  | some byte =>
    obtain ⟨hbyte, hlooked⟩ := htook
    refine Meets.ite (fun hlf => ?_) (fun hlf => ?_)
    · exact Meets.done ⟨[byte], hbyte, Or.inl ⟨[], by simp, by simp [hlf], hlooked⟩⟩
    · refine Meets.done ⟨hbyte.remaining_lt (by simp), trivial, ?_⟩
      rintro _ s2 ⟨q, hq, hend⟩
      exact ⟨byte :: q, hbyte.cons hq, hend.cons hlf⟩

/-- A byte that a peek established can be taken. -/
theorem take_expected_spec {s : Contiguous} {byte : UInt8} {rest : List UInt8} (hrest : s.rest = byte :: rest)
    (message : String) :
    Ensures (take_expected message) s fun value s' => value = byte ∧ Consumed s [byte] s' ∧ s'.looked = false := by
  refine (take_spec s).bind fun next s1 htook => ?_
  cases next with
  | none => simp [htook.1] at hrest
  | some next =>
    obtain ⟨hnext, hlooked⟩ := htook
    have heq : next = byte := by
      have hhead := hnext.rest.symm.trans hrest
      simpa using (List.cons.inj hhead).1
    subst heq
    exact Meets.pure ⟨rfl, hnext, hlooked⟩

/-- What follows an escape's opening backslash. -/
inductive Escape : List UInt8 → Prop where
  | backslash : Escape [ascii '\\']
  | hex {first second : UInt8} (hfirst : is_ascii_hexdigit first) (hsecond : is_ascii_hexdigit second) :
      Escape [first, second]

theorem digit_spec (s : Contiguous) (bytes : List UInt8) :
    Ensures (complete_quoted_escape.digit bytes) s fun value s' =>
      ∃ digit, is_ascii_hexdigit digit ∧ value = bytes ++ [digit] ∧ Consumed s [digit] s' ∧
        s'.looked = false := by
  refine (take_spec s).bind fun digit s1 htook => ?_
  cases digit with
  | none => exact (offset_spec s1).bind fun _ _ _ => invalid_spec
  | some digit =>
    refine Meets.ite (fun hdigit => ?_) (fun _ => ?_)
    · exact Meets.pure ⟨digit, hdigit, rfl, htook⟩
    · exact (offset_spec s1).bind fun _ _ _ => invalid_spec

theorem complete_quoted_escape_spec (s : Contiguous) (bytes : List UInt8) :
    Ensures (complete_quoted_escape bytes) s fun value s' =>
      ∃ q, Escape q ∧ value = bytes ++ q ∧ Consumed s q s' ∧ s'.looked = false := by
  refine (peek_spec s).bind fun byte s1 hpeek => ?_
  obtain ⟨hbyte, rfl⟩ := hpeek
  refine Meets.ite (fun hbackslash => ?_) (fun _ => ?_)
  · obtain ⟨rest, hrest⟩ := List.head?_eq_some_iff.mp (hbyte.symm.trans hbackslash)
    refine (take_expected_spec (s := s.look) hrest _).bind fun taken s2 htaken => ?_
    obtain ⟨rfl, htaken, hlooked⟩ := htaken
    exact Meets.pure ⟨_, Escape.backslash, rfl, htaken.of_look, hlooked⟩
  · refine (digit_spec s.look bytes).bind fun value s2 hfirst => ?_
    obtain ⟨first, hfirst, rfl, hs2, -⟩ := hfirst
    refine (digit_spec s2 _).mono fun value s3 hsecond => ?_
    obtain ⟨second, hsecond, rfl, hs3, hlooked⟩ := hsecond
    exact ⟨[first, second], Escape.hex hfirst hsecond, by simp, hs2.of_look.cons hs3, hlooked⟩

/-- A quote is read through its closing byte. -/
theorem complete_quoted_token_spec (s : Contiguous) (bytes : List UInt8) :
    Ensures (complete_quoted_token bytes) s fun value s' =>
      ∃ q, Quoted q ∧ value = bytes ++ q ∧ Consumed s q s' ∧ s'.looked = false := by
  refine Meets.iter (I := fun _ _ => True) (Q := fun bytes s value s' => ∃ q, Quoted q ∧
    value = bytes ++ q ∧ Consumed s q s' ∧ s'.looked = false) (fun bytes s _ => ?_) bytes s trivial
  refine (take_spec s).bind fun byte s1 htook => ?_
  cases byte with
  | none => exact (offset_spec s1).bind fun _ _ _ => invalid_spec
  | some byte =>
    obtain ⟨hbyte, hlooked⟩ := htook
    refine Meets.ite (fun hquote => ?_) (fun hquote => ?_)
    · exact Meets.done ⟨[byte], ⟨[], [], Spells.nil, by simp [hquote]⟩, rfl, hbyte, hlooked⟩
    refine Meets.ite (fun _ => (offset_spec s1).bind fun _ _ _ => invalid_spec) (fun hnewline => ?_)
    refine Meets.ite (fun hbackslash => ?_) (fun hbackslash => ?_)
    · refine (complete_quoted_escape_spec s1 _).bind fun value s2 hescape => ?_
      obtain ⟨q, hescape, rfl, hq, -⟩ := hescape
      have hconsumed := hbyte.cons hq
      refine Meets.done ⟨hconsumed.remaining_lt (by simp), trivial, ?_⟩
      rintro value s3 ⟨q', ⟨content, name, hcontent, rfl⟩, rfl, hq', hlooked'⟩
      refine ⟨byte :: q ++ (content ++ [ascii '"']), ?_, by simp, hconsumed.trans hq', hlooked'⟩
      rw [hbackslash]
      cases hescape with
      | backslash => exact ⟨_, _, hcontent.backslash, by simp⟩
      | hex hfirst hsecond => exact ⟨_, _, hcontent.hex hfirst hsecond, by simp⟩
    · refine Meets.done ⟨hbyte.remaining_lt (by simp), trivial, ?_⟩
      rintro value s2 ⟨q, ⟨content, name, hcontent, rfl⟩, rfl, hq, hlooked'⟩
      simp only [Bool.or_eq_true, decide_eq_true_eq, not_or] at hnewline
      exact ⟨byte :: (content ++ [ascii '"']),
        ⟨_, _, hcontent.raw hquote hbackslash hnewline.1 hnewline.2, by simp⟩, by simp, hbyte.cons hq, hlooked'⟩

/-- A word is read up to the first byte that is not part of one. -/
theorem complete_word_spec (s : Contiguous) (bytes : List UInt8) :
    Ensures (complete_word bytes) s fun value s' =>
      ∃ q, (∀ byte ∈ q, is_word byte) ∧ (∀ byte ∈ s'.rest.head?, ¬ is_word byte) ∧ value = bytes ++ q ∧
        Consumed s q s' := by
  refine Meets.iter (I := fun _ _ => True) (Q := fun bytes s value s' => ∃ q, (∀ byte ∈ q, is_word byte) ∧
    (∀ byte ∈ s'.rest.head?, ¬ is_word byte) ∧ value = bytes ++ q ∧ Consumed s q s')
    (fun bytes s _ => ?_) bytes s trivial
  refine (peek_spec s).bind fun byte s1 hpeek => ?_
  obtain ⟨rfl, rfl⟩ := hpeek
  cases hrest : s.rest with
  | nil => exact Meets.done ⟨[], by simp, by simp [Contiguous.look, hrest], by simp, Consumed.look s⟩
  | cons byte rest =>
    refine Meets.ite (fun hword => ?_) (fun hword => ?_)
    · refine (take_expected_spec (s := s.look) hrest _).bind fun taken s2 htaken => ?_
      obtain ⟨rfl, htaken, -⟩ := htaken
      refine Meets.done ⟨htaken.of_look.remaining_lt (by simp), trivial, ?_⟩
      rintro value s3 ⟨q, hq, hend, rfl, hconsumed⟩
      exact ⟨taken :: q, by simp_all, hend, by simp, htaken.of_look.cons hconsumed⟩
    · exact Meets.done ⟨[], by simp, by simp [Contiguous.look, hrest, hword], by simp, Consumed.look s⟩

theorem opens_quote_spec (s : Contiguous) (first : UInt8) :
    Ensures (opens_quote first) s fun quoted s' => Consumed s [] s' ∧
      (quoted = true ↔ is_sigil first ∧ s.rest.head? = some (ascii '"')) := by
  refine Meets.ite (fun h => ?_) (fun h => ?_)
  · refine (peek_spec s).bind fun byte s1 hpeek => ?_
    obtain ⟨rfl, rfl⟩ := hpeek
    exact Meets.pure ⟨Consumed.look s, by simp [h]⟩
  · exact Meets.pure ⟨Consumed.refl s, by simp [h]⟩

/-- A completed token is a lexeme of what was left of the input. -/
theorem complete_token_spec (s : Contiguous) (first : UInt8) :
    Ensures (complete_token first) s fun value s' =>
      ∃ q, value = first :: q ∧ Consumed s q s' ∧ Lexeme value s'.rest := by
  refine Meets.ite (fun hquote => ?_) (fun hquote => ?_)
  · refine (complete_quoted_token_spec s _).mono fun value s' h => ?_
    obtain ⟨q, hq, rfl, hconsumed, -⟩ := h
    refine ⟨q, rfl, hconsumed, ?_⟩
    rw [hquote]
    exact Lexeme.quoted hq
  · refine (opens_quote_spec s first).bind fun quoted s1 hopens => ?_
    obtain ⟨hlook, hquoted⟩ := hopens
    refine Meets.ite (fun h => ?_) (fun h => ?_)
    · obtain ⟨hfirst, hhead⟩ := hquoted.mp h
      obtain ⟨rest, hrest⟩ := List.head?_eq_some_iff.mp hhead
      refine (take_expected_spec (hlook.rest.symm.trans hrest) _).bind fun taken s2 htaken => ?_
      obtain ⟨rfl, htaken, -⟩ := htaken
      refine (complete_quoted_token_spec s2 _).mono fun value s3 hvalue => ?_
      obtain ⟨q, hq, rfl, hconsumed, -⟩ := hvalue
      exact ⟨ascii '"' :: q, rfl, hlook.trans (htaken.cons hconsumed), Lexeme.symbol hfirst hq⟩
    · refine Meets.ite (fun hmark => ?_) (fun hmark => ?_)
      · simp only [Bool.and_eq_true, Bool.not_eq_true', decide_eq_true_eq] at hmark
        exact Meets.pure ⟨[], rfl, hlook, Lexeme.mark hquote (by simp [hmark]) (by simp [hmark]) hmark.2⟩
      · refine (complete_word_spec s1 _).mono fun value s2 hvalue => ?_
        obtain ⟨q, hq, hend, rfl, hconsumed⟩ := hvalue
        refine ⟨q, rfl, hlook.trans hconsumed, Lexeme.word ?_ hq hend ?_⟩
        · simp only [Bool.and_eq_true, Bool.not_eq_true', decide_eq_true_eq, not_and, Decidable.not_not] at hmark
          cases hword : is_word first <;> cases hsigil : is_sigil first <;> simp_all
        · rintro hsigil rfl hhead
          have hrest : s.rest = s2.rest := hlook.rest.trans hconsumed.rest
          exact h (hquoted.mpr ⟨hsigil, hrest ▸ hhead⟩)

/-- Where a blank skip stops. A line end counts as such only where newlines end a header. -/
def SkippedBlank (stop : Bool) (s : Contiguous) (ended : Bool) (s' : Contiguous) : Prop :=
  ∃ q, Consumed s q s' ∧
    match ended with
    | true => stop = true ∧ LineEnd q s'
    | false => Blank stop q ∧ s'.rest ≠ [] ∧ Visible s'.rest ∨
        s'.rest = [] ∧ (stop = true → ascii '\n' ∉ q)

theorem skip_blank_spec (s : Contiguous) (stop : Bool) :
    Ensures (skip_blank stop) s (SkippedBlank stop s) := by
  refine Meets.iter (I := fun _ _ => True) (Q := fun _ s ended s' => SkippedBlank stop s ended s')
    (fun _ s _ => ?_) () s trivial
  refine (peek_spec s).bind fun byte s1 hpeek => ?_
  obtain ⟨rfl, rfl⟩ := hpeek
  cases hrest : s.rest with
  | nil => exact Meets.done ⟨[], Consumed.look s, Or.inr ⟨hrest, by simp⟩⟩
  | cons byte rest =>
    refine Meets.ite (fun hcomment => ?_) (fun hcomment => ?_)
    · refine (skip_line_spec s.look).bind fun _ s2 hline => ?_
      obtain ⟨q, hq, hend⟩ := hline
      have hconsumed := hq.of_look
      refine Meets.ite (fun hstop => ?_) (fun hstop => ?_)
      · exact Meets.done ⟨q, hconsumed, hstop, hend⟩
      · obtain rfl := Bool.eq_false_iff.mpr hstop
        have hne := hend.ne_nil hconsumed (by simp [hrest])
        refine Meets.done ⟨hconsumed.remaining_lt hne, trivial, ?_⟩
        rintro ended s3 ⟨q', hq', hblank⟩
        refine ⟨q ++ q', hconsumed.trans hq', ?_⟩
        cases ended with
        | true => exact absurd hblank.1 (by simp)
        | false =>
          obtain ⟨hblank, hne', hvisible⟩ | ⟨hnil, -⟩ := hblank
          · refine Or.inl ⟨?_, hne', hvisible⟩
            obtain ⟨line, hline, rfl, -⟩ | ⟨-, hnil⟩ := hend
            · obtain ⟨tail, htail⟩ := hconsumed.head hrest hne
              cases line with
              | nil =>
                simp only [List.nil_append, List.cons.injEq] at htail
                exact absurd (htail.1.trans hcomment) (by decide)
              | cons first line =>
                obtain ⟨rfl, -⟩ := List.cons.inj htail
                rw [hcomment]
                exact Blank.comment (List.not_mem_of_not_mem_cons hline) hblank
            · rw [hq'.rest] at hnil
              exact absurd (List.append_eq_nil_iff.mp hnil).2 hne'
          · exact Or.inr ⟨hnil, by simp⟩
    · refine Meets.ite (fun hspace => ?_) (fun hspace => ?_)
      · refine (take_spec s.look).bind fun taken s2 htook => ?_
        cases taken with
        | none => exact absurd htook.1 (by simp [Contiguous.look, hrest])
        | some taken =>
          obtain ⟨htaken, hlooked⟩ := htook
          have hconsumed := htaken.of_look
          obtain ⟨_, htail⟩ := hconsumed.head hrest (by simp)
          obtain ⟨rfl, -⟩ := List.cons.inj htail
          refine Meets.ite (fun hstop => ?_) (fun hstop => ?_)
          · simp only [Bool.and_eq_true, decide_eq_true_eq] at hstop
            exact Meets.done ⟨_, hconsumed, hstop.1, Or.inl ⟨[], by simp, by simp [hstop.2], hlooked⟩⟩
          · simp only [Bool.and_eq_true, decide_eq_true_eq, not_and] at hstop
            refine Meets.done ⟨hconsumed.remaining_lt (by simp), trivial, ?_⟩
            rintro ended s3 ⟨q, hq, hblank⟩
            refine ⟨taken :: q, hconsumed.cons hq, ?_⟩
            cases ended with
            | true => exact ⟨hblank.1, hblank.2.cons (hstop hblank.1)⟩
            | false =>
              obtain ⟨hblank, hne, hvisible⟩ | ⟨hnil, hlf⟩ := hblank
              · exact Or.inl ⟨Blank.space hspace hstop hblank, hne, hvisible⟩
              · exact Or.inr ⟨hnil, fun h => by simp [hlf h, Ne.symm (hstop h)]⟩
      · exact Meets.done ⟨[], Consumed.look s, Or.inl ⟨Blank.nil, by simp [Contiguous.look, hrest],
          by simp [Contiguous.look, hrest, Visible, hspace, hcomment]⟩⟩

/-- How a header token read ends: with a token, or where the header does. -/
def ReadHeader (stop : Bool) (s : Contiguous) : Option Token → Contiguous → Prop
  | some token, s' => ReadToken stop s token s'
  | none, s' => ∃ q, Consumed s q s' ∧ (stop = true → LineEnd q s') ∧ (stop = false → s'.rest = [])

theorem read_token_spec {s : Contiguous} (hactive : s.header_start.isSome) (stop : Bool) :
    Ensures (read_token stop) s (ReadHeader stop s) := by
  refine (header_active_spec s).bind fun active s1 h => ?_
  obtain ⟨rfl, rfl⟩ := h
  rw [if_pos hactive]
  refine (skip_blank_spec s1 stop).bind fun ended s2 hblank => ?_
  obtain ⟨gap, hgap, hended⟩ := hblank
  cases ended with
  | true => exact Meets.pure ⟨gap, hgap, fun _ => hended.2, by simp [hended.1]⟩
  | false =>
    refine (offset_spec s2).bind fun offset s3 hoffset => ?_
    obtain ⟨rfl, rfl⟩ := hoffset
    refine (take_spec s3).bind fun first s4 htook => ?_
    cases first with
    | none =>
      obtain ⟨hnil, rfl⟩ := htook
      refine Meets.pure ⟨gap, ?_, fun hstop => ?_, fun _ => hnil⟩
      · simpa using hgap.trans (Consumed.look s3)
      · obtain ⟨-, hne, -⟩ | ⟨-, hlf⟩ := hended
        · exact absurd hnil hne
        · exact Or.inr ⟨hlf hstop, hnil⟩
    | some first =>
      obtain ⟨hfirst, -⟩ := htook
      refine (complete_token_spec s4 first).bind fun bytes s5 htoken => ?_
      obtain ⟨q, rfl, hq, hlexeme⟩ := htoken
      obtain ⟨hblank, hne, hvisible⟩ | ⟨hnil, -⟩ := hended
      · refine Meets.pure ⟨gap, hgap.trans (hfirst.cons hq), hgap.offset, hblank, ?_, hlexeme⟩
        simpa [Visible, hfirst.rest] using hvisible
      · simp [hfirst.rest] at hnil

theorem read_required_token_spec {s : Contiguous} (hactive : s.header_start.isSome) :
    Ensures read_required_token s (ReadToken false s) := by
  refine (read_token_spec hactive false).bind fun token s1 htoken => ?_
  cases token with
  | none => exact (offset_spec s1).bind fun _ _ _ => invalid_spec
  | some token => exact Meets.pure htoken

theorem expect_spec {s : Contiguous} (hactive : s.header_start.isSome) (expected : String) :
    Ensures (expect expected) s fun _ s' => ∃ token, ReadToken false s token s' ∧ token.bytes = text expected := by
  refine (read_required_token_spec hactive).bind fun token s1 htoken => ?_
  refine Meets.ite (fun heq => ?_) (fun _ => invalid_spec)
  exact Meets.pure ⟨token, htoken, heq⟩

/-- The tokens that close the delimiters of a group, innermost first. -/
inductive Closes : List UInt8 → List (List UInt8) → Prop where
  | nil : Closes [] []
  | cons {expected : UInt8} {outer : List UInt8} {inner tokens : List (List UInt8)} (hinner : Balanced inner)
      (htokens : Closes outer tokens) : Closes (expected :: outer) (inner ++ [expected] :: tokens)

theorem Closes.ordinary {expected : UInt8} {outer token : List UInt8} {tokens : List (List UInt8)}
    (h : Closes (expected :: outer) tokens) (htoken : Ordinary token) :
    Closes (expected :: outer) (token :: tokens) := by
  cases h with
  | cons hinner htokens => exact Closes.cons (hinner.ordinary htoken) htokens

theorem Closes.opening {opening close expected : UInt8} {outer : List UInt8} {tokens : List (List UInt8)}
    (h : Closes (close :: expected :: outer) tokens) (hclose : matching_close opening = some close) :
    Closes (expected :: outer) ([opening] :: tokens) := by
  cases h with
  | cons hgroup h =>
    cases h with
    | cons hinner htokens =>
      have hcloses : Closes (expected :: outer) _ := Closes.cons (Balanced.group hclose hgroup hinner) htokens
      simpa using hcloses

/-- The tokens that a loop over a stack of closing delimiters reads. -/
def ReadGroup (closing : List UInt8) (s s' : Contiguous) : Prop :=
  ∃ q tokens, Consumed s q s' ∧ Lexes q tokens s'.rest ∧ Closes closing tokens

theorem ReadGroup.cons {s s' s'' : Contiguous} {token : Token} {closing closing' : List UInt8}
    (h : ReadToken false s token s') (h' : ReadGroup closing' s' s'')
    (hcloses : ∀ tokens, Closes closing' tokens → Closes closing (token.bytes :: tokens)) :
    ReadGroup closing s s'' := by
  obtain ⟨gap, hconsumed, -, hgap, hvisible, hlexeme⟩ := h
  obtain ⟨q, tokens, hq, hlexes, hclosing⟩ := h'
  refine ⟨_, _, hconsumed.trans hq, Lexes.cons hgap hvisible ?_ hlexes, hcloses _ hclosing⟩
  rwa [← hq.rest]

theorem group_spec {s : Contiguous} (hactive : s.header_start.isSome) (closing : List UInt8) :
    Ensures (Scan.iter group_turn closing) s fun _ s' => ReadGroup closing s s' := by
  refine Meets.iter (I := fun _ s => s.header_start.isSome) (Q := fun closing s _ s' => ReadGroup closing s s')
    (fun closing s hactive => ?_) closing s hactive
  cases closing with
  | nil => exact Meets.done ⟨[], [], Consumed.refl s, Lexes.nil, Closes.nil⟩
  | cons expected outer =>
    refine (read_required_token_spec hactive).bind fun token s1 htoken => ?_
    have hless := htoken.within.remaining_lt
    have hactive' := htoken.within.active hactive
    split
    · next byte hbytes =>
      split
      · next close hclose =>
        refine Meets.done ⟨hless, hactive', fun _ s2 hgroup => ReadGroup.cons htoken hgroup fun tokens h => ?_⟩
        rw [hbytes]
        exact h.opening hclose
      · next hclose =>
        refine Meets.ite (fun hplain => ?_) (fun hplain => ?_)
        · refine Meets.done ⟨hless, hactive', fun _ s2 hgroup => ReadGroup.cons htoken hgroup fun tokens h => ?_⟩
          refine h.ordinary fun other hother => ?_
          obtain rfl : byte = other := by simpa [hbytes] using hother
          exact ⟨hclose, by simpa using hplain⟩
        · refine Meets.ite (fun _ => invalid_spec) (fun hexpected => ?_)
          refine Meets.done ⟨hless, hactive', fun _ s2 hgroup => ReadGroup.cons htoken hgroup fun tokens h => ?_⟩
          rw [hbytes, not_ne_iff.mp hexpected]
          exact Closes.cons Balanced.nil h
    · next hbytes =>
      refine Meets.done ⟨hless, hactive', fun _ s2 hgroup => ReadGroup.cons htoken hgroup fun tokens h => ?_⟩
      exact h.ordinary fun byte hbyte => absurd hbyte (hbytes byte)

theorem body_turn_spec (s : Contiguous) (state : BodyState) :
    Ensures (body_turn state) s fun turn s' => ∃ byte, Consumed s [byte] s' ∧ s'.looked = false ∧
      (turn.isRight → byte = ascii '}') := by
  refine (take_spec s).bind fun byte s1 htook => ?_
  cases byte with
  | none => exact (offset_spec s1).bind fun _ _ _ => invalid_spec
  | some byte =>
    obtain ⟨hbyte, hlooked⟩ := htook
    have again (state' : BodyState) : Ensures (.again state' : Program (BodyState ⊕ Unit)) s1 fun turn s' =>
        ∃ byte, Consumed s [byte] s' ∧ s'.looked = false ∧ (turn.isRight → byte = ascii '}') :=
      Meets.done ⟨byte, hbyte, hlooked, nofun⟩
    have reject : Ensures (do invalid ((← offset) - 1) "Expected an LLVM hex escape" : Program (BodyState ⊕ Unit)) s1
        fun turn s' => ∃ byte, Consumed s [byte] s' ∧ s'.looked = false ∧ (turn.isRight → byte = ascii '}') :=
      (offset_spec s1).bind fun _ _ _ => invalid_spec
    refine Meets.ite (fun _ => again _) fun _ => ?_
    refine Meets.ite (fun _ => again _) fun _ => ?_
    refine Meets.ite (fun _ => reject) fun _ => ?_
    refine Meets.ite (fun _ => again _) fun _ => ?_
    refine Meets.ite (fun _ => (offset_spec s1).bind fun _ _ _ => invalid_spec) fun _ => ?_
    refine Meets.ite (fun _ => again _) fun _ => ?_
    refine Meets.ite (fun _ => again _) fun _ => ?_
    refine Meets.ite (fun _ => again _) fun _ => ?_
    refine Meets.ite (fun _ => again _) fun _ => ?_
    refine Meets.ite (fun _ => again _) fun _ => ?_
    refine Meets.ite (fun _ => again _) fun _ => ?_
    refine Meets.ite (fun hclose => ?_) fun _ => again _
    exact Meets.ite (fun _ => Meets.done ⟨byte, hbyte, hlooked, fun _ => hclose⟩) fun _ => again _

/-- A body ends just behind the brace that closes it. -/
theorem skip_body_spec (s : Contiguous) :
    Ensures skip_body s fun _ s' => ∃ q, Consumed s (q ++ [ascii '}']) s' ∧ s'.looked = false := by
  refine Meets.iter (I := fun _ _ => True) (Q := fun _ s _ s' => ∃ q, Consumed s (q ++ [ascii '}']) s' ∧
    s'.looked = false) (fun state s _ => ?_) ({} : BodyState) s trivial
  refine (body_turn_spec s state).mono fun turn s1 hturn => ?_
  obtain ⟨byte, hbyte, hlooked, hclose⟩ := hturn
  cases turn with
  | inl state' =>
    refine ⟨hbyte.remaining_lt (by simp), trivial, ?_⟩
    rintro _ s2 ⟨q, hq, hlooked'⟩
    exact ⟨byte :: q, hbyte.cons hq, hlooked'⟩
  | inr _ =>
    obtain rfl := hclose rfl
    exact ⟨[], hbyte, hlooked⟩

/-- A group consumes exactly the tokens up to the delimiter that closes it. -/
theorem consume_group_spec {s : Contiguous} (hactive : s.header_start.isSome) {opening close : UInt8}
    (hclose : matching_close opening = some close) :
    Ensures (consume_group opening) s fun _ s' => ∃ q inner, Consumed s q s' ∧
      Lexes q (inner ++ [[close]]) s'.rest ∧ Balanced inner := by
  unfold consume_group
  rw [hclose]
  refine (group_spec hactive [close]).mono fun _ s' hgroup => ?_
  obtain ⟨q, tokens, hq, hlexes, hcloses⟩ := hgroup
  cases hcloses with
  | cons hinner htokens =>
    cases htokens with
    | nil => exact ⟨q, _, hq, hlexes, hinner⟩

end optic.llvm_index.stream
