import Optic.LlvmIndex.Refinement

open byte_scan rust

namespace optic.llvm_index.stream

/-- Why a text has no end of a function body. -/
inductive Malformed where
  | end_of_input
  | escape
  | line_end
deriving DecidableEq, Repr

def Malformed.message : Malformed → String
  | .end_of_input => "Expected a closing LLVM body brace, got EOF"
  | .escape => "Expected an LLVM hex escape"
  | .line_end => "Expected an escaped LLVM newline"

/-- The length of a quoted string behind its opening quote. An escape is a backslash with a
second one or two hex digits behind it, and line ends cannot be quoted. -/
def quoted_length : List UInt8 → Except Malformed Nat
  | [] => .error .end_of_input
  | byte :: rest =>
    if byte = ascii '"' then .ok 1
    else if byte = ascii '\n' || byte = ascii '\r' then .error .line_end
    else if byte = ascii '\\' then
      match rest with
      | [] => .error .end_of_input
      | [digit] => if digit = ascii '\\' || is_ascii_hexdigit digit then .error .end_of_input else .error .escape
      | first :: second :: rest =>
        if first = ascii '\\' then (quoted_length (second :: rest)).map (· + 2)
        else if is_ascii_hexdigit first && is_ascii_hexdigit second then (quoted_length rest).map (· + 3)
        else .error .escape
    else (quoted_length rest).map (· + 1)

/-- The length of a comment behind its semicolon, through the end of its line. -/
def comment_length : List UInt8 → Except Malformed Nat
  | [] => .error .end_of_input
  | byte :: rest => if byte = ascii '\n' then .ok 1 else (comment_length rest).map (· + 1)

/-- The number of bytes behind a first one that belong to its quoted string or comment. -/
def hidden_length (byte : UInt8) (rest : List UInt8) : Except Malformed Nat :=
  if byte = ascii ';' then comment_length rest
  else if byte = ascii '"' then quoted_length rest
  else .ok 0

/-- Removes quoted strings and comments, the first of which has `hidden` bytes left, and
keeps every other byte in its place. The result ends where a string or comment does not. -/
def visible : Nat → List UInt8 → List (Option UInt8) × Malformed
  | _, [] => ([], .end_of_input)
  | hidden + 1, _ :: rest =>
    let (bytes, reason) := visible hidden rest
    (none :: bytes, reason)
  | 0, byte :: rest =>
    match hidden_length byte rest with
    | .error reason => ([], reason)
    | .ok hidden =>
      let (bytes, reason) := visible hidden rest
      ((if hidden = 0 then some byte else none) :: bytes, reason)

/-- The length of a text through the first closing brace at which the count of open braces
reaches zero. -/
def closing_brace : Nat → List (Option UInt8) → Option Nat
  | _, [] => none
  | depth, byte :: rest =>
    if byte = some (ascii '\x7b') then (closing_brace (depth + 1) rest).map (· + 1)
    else if byte = some (ascii '\x7d') then
      if depth = 1 then some 1 else (closing_brace (depth - 1) rest).map (· + 1)
    else (closing_brace depth rest).map (· + 1)

/-- The end of a body that has `depth` braces open and `hidden` bytes left of a string or
comment. -/
def body_end_from (depth hidden : Nat) (bytes : List UInt8) : Except Malformed Nat :=
  match closing_brace depth (visible hidden bytes).1 with
  | some length => .ok length
  | none => .error (visible hidden bytes).2

/-- The length of a body behind its opening brace. -/
def body_end (bytes : List UInt8) : Except Malformed Nat := body_end_from 1 0 bytes

theorem visible_nil (hidden : Nat) : visible hidden [] = ([], .end_of_input) := by
  cases hidden <;> rfl

theorem visible_hidden (hidden : Nat) (byte : UInt8) (rest : List UInt8) :
    visible (hidden + 1) (byte :: rest) = (none :: (visible hidden rest).1, (visible hidden rest).2) := rfl

theorem visible_next (byte : UInt8) (rest : List UInt8) :
    visible 0 (byte :: rest) =
      match hidden_length byte rest with
      | .error reason => ([], reason)
      | .ok hidden => ((if hidden = 0 then some byte else none) :: (visible hidden rest).1, (visible hidden rest).2) := rfl

theorem closing_brace_nil (depth : Nat) : closing_brace depth [] = none := rfl

theorem closing_brace_cons (depth : Nat) (byte : Option UInt8) (rest : List (Option UInt8)) :
    closing_brace depth (byte :: rest) =
      if byte = some (ascii '\x7b') then (closing_brace (depth + 1) rest).map (· + 1)
      else if byte = some (ascii '\x7d') then
        if depth = 1 then some 1 else (closing_brace (depth - 1) rest).map (· + 1)
      else (closing_brace depth rest).map (· + 1) := rfl

theorem body_end_from_nil (depth hidden : Nat) : body_end_from depth hidden [] = .error .end_of_input := by
  rw [body_end_from, visible_nil, closing_brace_nil]

theorem body_end_from_hidden (depth hidden : Nat) (byte : UInt8) (rest : List UInt8) :
    body_end_from depth (hidden + 1) (byte :: rest) = (body_end_from depth hidden rest).map (· + 1) := by
  simp only [body_end_from, visible_hidden, closing_brace_cons, reduceCtorEq, if_false]
  cases closing_brace depth (visible hidden rest).1 <;> rfl

/-- An ordinary byte is passed over. -/
theorem body_end_from_other {depth : Nat} {byte : UInt8} {rest : List UInt8} (hcomment : byte ≠ ascii ';')
    (hquote : byte ≠ ascii '"') (hopen : byte ≠ ascii '\x7b') (hclose : byte ≠ ascii '\x7d') :
    body_end_from depth 0 (byte :: rest) = (body_end_from depth 0 rest).map (· + 1) := by
  simp only [body_end_from, visible_next, hidden_length, if_neg hcomment, if_neg hquote, closing_brace_cons, if_true,
    Option.some.injEq, if_neg hopen, if_neg hclose]
  cases closing_brace depth (visible 0 rest).1 <;> rfl

theorem body_end_from_open (depth : Nat) (rest : List UInt8) :
    body_end_from depth 0 (ascii '\x7b' :: rest) = (body_end_from (depth + 1) 0 rest).map (· + 1) := by
  have hcomment : ascii '\x7b' ≠ ascii ';' := by decide
  have hquote : ascii '\x7b' ≠ ascii '"' := by decide
  simp only [body_end_from, visible_next, hidden_length, if_neg hcomment, if_neg hquote, closing_brace_cons, if_true]
  cases closing_brace (depth + 1) (visible 0 rest).1 <;> rfl

theorem body_end_from_close (depth : Nat) (rest : List UInt8) :
    body_end_from depth 0 (ascii '\x7d' :: rest) =
      if depth = 1 then .ok 1 else (body_end_from (depth - 1) 0 rest).map (· + 1) := by
  have hcomment : ascii '\x7d' ≠ ascii ';' := by decide
  have hquote : ascii '\x7d' ≠ ascii '"' := by decide
  have hopen : ascii '\x7d' ≠ ascii '\x7b' := by decide
  simp only [body_end_from, visible_next, hidden_length, if_neg hcomment, if_neg hquote, closing_brace_cons, if_true,
    Option.some.injEq, if_neg hopen]
  by_cases hdepth : depth = 1
  · simp only [if_pos hdepth]
  · simp only [if_neg hdepth]
    cases closing_brace (depth - 1) (visible 0 rest).1 <;> rfl

/-- A byte that opens a string or comment is passed over together with it. -/
theorem body_end_from_opens (depth : Nat) {byte : UInt8} {rest : List UInt8} (h : hidden_length byte rest ≠ .ok 0) :
    body_end_from depth 0 (byte :: rest) =
      (hidden_length byte rest >>= fun hidden => body_end_from depth hidden rest).map (· + 1) := by
  cases hlength : hidden_length byte rest with
  | error reason => simp [body_end_from, visible_next, hlength, closing_brace_nil, Except.map, error_bind]
  | ok hidden =>
    have hne : hidden ≠ 0 := fun hzero => h (by rw [hlength, hzero])
    simp only [body_end_from, visible_next, hlength, if_neg hne, closing_brace_cons, reduceCtorEq, if_false, ok_bind]
    cases closing_brace depth (visible hidden rest).1 <;> rfl

theorem comment_length_ne_zero (bytes : List UInt8) : comment_length bytes ≠ .ok 0 := by
  cases bytes with
  | nil => simp [comment_length]
  | cons byte rest =>
    rw [comment_length]
    split
    · simp
    · cases comment_length rest <;> simp [Except.map]

/-- The length of a quoted string behind a backslash, of whose escape `digits` are left. -/
def escaped_length : Nat → List UInt8 → Except Malformed Nat
  | 0, bytes => quoted_length bytes
  | _ + 1, [] => .error .end_of_input
  | digits + 1, byte :: rest =>
    if digits = 1 && byte = ascii '\\' then (quoted_length rest).map (· + 1)
    else if is_ascii_hexdigit byte then (escaped_length digits rest).map (· + 1)
    else .error .escape

theorem quoted_length_eq (byte : UInt8) (rest : List UInt8) :
    quoted_length (byte :: rest) =
      if byte = ascii '"' then .ok 1
      else if byte = ascii '\n' || byte = ascii '\r' then .error .line_end
      else if byte = ascii '\\' then
        match rest with
        | [] => .error .end_of_input
        | [digit] => if digit = ascii '\\' || is_ascii_hexdigit digit then .error .end_of_input else .error .escape
        | first :: second :: rest =>
          if first = ascii '\\' then (quoted_length (second :: rest)).map (· + 2)
          else if is_ascii_hexdigit first && is_ascii_hexdigit second then (quoted_length rest).map (· + 3)
          else .error .escape
      else (quoted_length rest).map (· + 1) := by
  rw [quoted_length.eq_def]

theorem quoted_length_cons {byte : UInt8} (hquote : byte ≠ ascii '"') (hline : byte ≠ ascii '\n')
    (hreturn : byte ≠ ascii '\r') (hescape : byte ≠ ascii '\\') (rest : List UInt8) :
    quoted_length (byte :: rest) = (quoted_length rest).map (· + 1) := by
  simp [quoted_length_eq, hquote, hline, hreturn, hescape]

theorem quoted_length_escape (rest : List UInt8) :
    quoted_length (ascii '\\' :: rest) = (escaped_length 2 rest).map (· + 1) := by
  have hquote : ascii '\\' ≠ ascii '"' := by decide
  have hline : ascii '\\' ≠ ascii '\n' := by decide
  have hreturn : ascii '\\' ≠ ascii '\r' := by decide
  rw [quoted_length_eq]
  simp only [if_neg hquote, hline, hreturn, decide_false, Bool.or_self, Bool.false_eq_true, if_false, if_true]
  match rest with
  | [] => rfl
  | [digit] =>
    by_cases hbackslash : digit = ascii '\\'
    · simp [escaped_length, hbackslash, quoted_length, Except.map]
    · by_cases hdigit : is_ascii_hexdigit digit <;> simp [escaped_length, hbackslash, hdigit, Except.map]
  | first :: second :: rest =>
    by_cases hbackslash : first = ascii '\\'
    · simp only [escaped_length, hbackslash]
      cases quoted_length (second :: rest) <;> simp [Except.map]
    · by_cases hdigits : is_ascii_hexdigit first && is_ascii_hexdigit second
      · obtain ⟨hfirst, hsecond⟩ := Bool.and_eq_true_iff.mp hdigits
        simp only [escaped_length, hbackslash, hfirst, hsecond, Bool.and_self, if_true,
          decide_false, Bool.and_false, Bool.false_eq_true, if_false, Nat.zero_ne_one, Bool.false_and]
        cases quoted_length rest <;> rfl
      · cases hfirst : is_ascii_hexdigit first with
        | false => simp [escaped_length, hbackslash, hfirst, Except.map]
        | true =>
          have hsecond : is_ascii_hexdigit second = false := by simpa [hfirst] using hdigits
          simp [escaped_length, hbackslash, hfirst, hsecond, Except.map]

theorem quoted_length_ne_zero (bytes : List UInt8) : quoted_length bytes ≠ .ok 0 := by
  cases bytes with
  | nil => simp [quoted_length]
  | cons byte rest =>
    by_cases hescape : byte = ascii '\\'
    · rw [hescape, quoted_length_escape]
      cases escaped_length 2 rest <;> simp [Except.map]
    · rw [quoted_length_eq]
      simp only [if_neg hescape]
      split
      · simp
      split
      · simp
      cases quoted_length rest <;> simp [Except.map]

theorem map_succ_ne_zero (length : Except Malformed Nat) : length.map (· + 1) ≠ .ok 0 := by
  cases length <;> simp [Except.map]

theorem escaped_length_ne_zero (digits : Nat) (bytes : List UInt8) : escaped_length digits bytes ≠ .ok 0 := by
  cases digits with
  | zero => exact quoted_length_ne_zero bytes
  | succ digits =>
    cases bytes with
    | nil => simp [escaped_length]
    | cons byte rest =>
      rw [escaped_length]
      split
      · exact map_succ_ne_zero _
      split
      · exact map_succ_ne_zero _
      · simp

/-- One byte of a body, as the scan reads it. -/
def body_step (state : BodyState) (byte : UInt8) : Except Malformed (Option BodyState) :=
  if state.comment then .ok (some { state with comment := byte ≠ ascii '\n' })
  else if state.escape_digits = 2 && byte = ascii '\\' then .ok (some { state with escape_digits := 0 })
  else if state.escape_digits ≠ 0 && !is_ascii_hexdigit byte then .error .escape
  else if state.escape_digits ≠ 0 then .ok (some { state with escape_digits := state.escape_digits - 1 })
  else if state.quoted && (byte = ascii '\n' || byte = ascii '\r') then .error .line_end
  else if state.quoted && byte = ascii '"' then .ok (some { state with quoted := false })
  else if state.quoted && byte = ascii '\\' then .ok (some { state with escape_digits := 2 })
  else if state.quoted then .ok (some state)
  else if byte = ascii ';' then .ok (some { state with comment := true })
  else if byte = ascii '"' then .ok (some { state with quoted := true })
  else if byte = ascii '\x7b' then .ok (some { state with depth := state.depth + 1 })
  else if byte = ascii '\x7d' then
    if state.depth = 1 then .ok none else .ok (some { state with depth := state.depth - 1 })
  else .ok (some state)

/-- All bytes of a body, and how many the scan reads. -/
def body_steps (state : BodyState) : List UInt8 → Except Malformed Nat
  | [] => .error .end_of_input
  | byte :: rest => do
    match ← body_step state byte with
    | none => return 1
    | some state => (body_steps state rest).map (· + 1)

/-- What is left of the string or comment that a scan is in. -/
def BodyState.pending (self : BodyState) (rest : List UInt8) : Except Malformed Nat :=
  if self.comment then comment_length rest
  else if self.quoted then escaped_length self.escape_digits rest
  else .ok 0

/-- A scan is in the open, in a comment, in a quoted string, or in an escape of one. -/
inductive BodyState.Valid : BodyState → Prop where
  | code (depth : Nat) : Valid { depth }
  | comment (depth : Nat) : Valid { depth, comment := true }
  | quoted (depth : Nat) : Valid { depth, quoted := true }
  | escape (depth : Nat) : Valid { depth, quoted := true, escape_digits := 2 }
  | digit (depth : Nat) : Valid { depth, quoted := true, escape_digits := 1 }

/-- A scan in a quoted string with `digits` bytes of an escape left. -/
def BodyState.in_quote (depth digits : Nat) : BodyState := { depth, quoted := true, escape_digits := digits }

/-- A byte of a quoted string is malformed, ends the string, or brings the scan one byte on in it. -/
inductive QuoteStep (depth digits : Nat) (byte : UInt8) (rest : List UInt8) : Prop
  | malformed (reason : Malformed) (hstep : body_step (.in_quote depth digits) byte = .error reason)
      (hlength : escaped_length digits (byte :: rest) = .error reason)
  | closing (hstep : body_step (.in_quote depth digits) byte = .ok (some { depth }))
      (hlength : escaped_length digits (byte :: rest) = .ok 1)
  | hidden (next : Nat) (hnext : next ≤ 2) (hstep : body_step (.in_quote depth digits) byte = .ok (some (.in_quote depth next)))
      (hlength : escaped_length digits (byte :: rest) = (escaped_length next rest).map (· + 1))

theorem quote_step (depth : Nat) {digits : Nat} (hdigits : digits ≤ 2) (byte : UInt8) (rest : List UInt8) :
    QuoteStep depth digits byte rest := by
  match digits with
  | 0 =>
    by_cases hline : byte = ascii '\n' ∨ byte = ascii '\r'
    · have hquote : byte ≠ ascii '"' := by
        rintro rfl
        exact absurd hline (by decide)
      apply QuoteStep.malformed .line_end
      · simp [body_step, BodyState.in_quote, hline]
      · simp [escaped_length, quoted_length_eq, hline, hquote]
    by_cases hquote : byte = ascii '"'
    · subst hquote
      apply QuoteStep.closing
      · simp [body_step, BodyState.in_quote, hline]
      · simp [escaped_length, quoted_length_eq]
    by_cases hescape : byte = ascii '\\'
    · subst hescape
      apply QuoteStep.hidden 2 (Nat.le_refl 2)
      · simp [body_step, BodyState.in_quote, hline, hquote]
      · simp [escaped_length, quoted_length_escape]
    · rw [not_or] at hline
      apply QuoteStep.hidden 0 (Nat.zero_le 2)
      · simp [body_step, BodyState.in_quote, hline, hquote, hescape]
      · simp [escaped_length, quoted_length_cons hquote hline.1 hline.2 hescape]
  | 1 =>
    cases hdigit : is_ascii_hexdigit byte with
    | false =>
      apply QuoteStep.malformed .escape
      · simp [body_step, BodyState.in_quote, hdigit]
      · simp [escaped_length, hdigit]
    | true =>
      apply QuoteStep.hidden 0 (Nat.zero_le 2)
      · simp [body_step, BodyState.in_quote, hdigit]
      · simp [escaped_length, hdigit]
  | 2 =>
    by_cases hbackslash : byte = ascii '\\'
    · apply QuoteStep.hidden 0 (Nat.zero_le 2)
      · simp [body_step, BodyState.in_quote, hbackslash]
      · simp [escaped_length, hbackslash]
    cases hdigit : is_ascii_hexdigit byte with
    | false =>
      apply QuoteStep.malformed .escape
      · simp [body_step, BodyState.in_quote, hbackslash, hdigit]
      · simp [escaped_length, hbackslash, hdigit]
    | true =>
      apply QuoteStep.hidden 1 (Nat.le_succ 1)
      · simp [body_step, BodyState.in_quote, hbackslash, hdigit]
      · simp [escaped_length, hbackslash, hdigit]

/-- A hidden byte brings a scan one byte on. -/
theorem resume_hidden {depth : Nat} {byte : UInt8} {rest : List UInt8} (pending : Except Malformed Nat) :
    (pending.map (· + 1) >>= fun hidden => body_end_from depth hidden (byte :: rest)) =
      (pending >>= fun hidden => body_end_from depth hidden rest).map (· + 1) := by
  cases pending with
  | error reason => rfl
  | ok hidden => exact body_end_from_hidden depth hidden byte rest

theorem body_steps_cons {state next : BodyState} {byte : UInt8} (h : body_step state byte = .ok (some next))
    (rest : List UInt8) : body_steps state (byte :: rest) = (body_steps next rest).map (· + 1) := by
  rw [body_steps, h]
  rfl

/-- Where a body scan of the rest of a text meets the reference. -/
def BodyState.Meets (self : BodyState) (bytes : List UInt8) : Prop :=
  body_steps self bytes = self.pending bytes >>= fun hidden => body_end_from self.depth hidden bytes

theorem BodyState.Meets.hidden {state next : BodyState} {byte : UInt8} {rest : List UInt8} (h : next.Meets rest)
    (hstep : body_step state byte = .ok (some next)) (hdepth : next.depth = state.depth)
    (hpending : state.pending (byte :: rest) = (next.pending rest).map (· + 1)) : state.Meets (byte :: rest) := by
  unfold BodyState.Meets at h ⊢
  rw [body_steps_cons hstep, h, hpending, resume_hidden, hdepth]

theorem BodyState.Meets.malformed {state : BodyState} {byte : UInt8} {rest : List UInt8} (reason : Malformed)
    (hstep : body_step state byte = .error reason) (hpending : state.pending (byte :: rest) = .error reason) :
    state.Meets (byte :: rest) := by
  unfold BodyState.Meets
  rw [body_steps, hstep, hpending]
  rfl

/-- In the open, the body goes on behind a byte. -/
theorem BodyState.Meets.open {depth : Nat} {next : BodyState} {byte : UInt8} {rest : List UInt8} (h : next.Meets rest)
    (hstep : body_step { depth } byte = .ok (some next))
    (hend : body_end_from depth 0 (byte :: rest) =
      (next.pending rest >>= fun hidden => body_end_from next.depth hidden rest).map (· + 1)) :
    BodyState.Meets { depth } (byte :: rest) := by
  unfold BodyState.Meets at h ⊢
  rw [body_steps_cons hstep, h]
  exact hend.symm

theorem BodyState.Valid.in_quote (depth : Nat) {digits : Nat} (h : digits ≤ 2) : (BodyState.in_quote depth digits).Valid := by
  match digits with
  | 0 => exact .quoted depth
  | 1 => exact .digit depth
  | 2 => exact .escape depth

/-- In a quoted string, the body goes on behind a byte. -/
theorem BodyState.Meets.in_quote {depth digits : Nat} {byte : UInt8} {rest : List UInt8} (hdigits : digits ≤ 2)
    (h : ∀ {next : BodyState}, next.Valid → next.Meets rest) : (BodyState.in_quote depth digits).Meets (byte :: rest) := by
  cases quote_step depth hdigits byte rest with
  | malformed reason hstep hlength => exact .malformed reason hstep hlength
  | closing hstep hlength => exact (h (.code depth)).hidden hstep rfl hlength
  | hidden next hnext hstep hlength => exact (h (.in_quote depth hnext)).hidden hstep rfl hlength

/-- The scan ends a body where the removal of strings and comments leaves its closing brace. -/
theorem BodyState.Valid.meets (bytes : List UInt8) : ∀ {state : BodyState}, state.Valid → state.Meets bytes := by
  induction bytes with
  | nil =>
    intro state hvalid
    cases hvalid with
    | code depth => exact (body_end_from_nil depth 0).symm
    | comment depth => rfl
    | quoted depth => rfl
    | escape depth => rfl
    | digit depth => rfl
  | cons byte rest ih =>
    intro state hvalid
    cases hvalid with
    | comment depth =>
      by_cases hline : byte = ascii '\n'
      · apply (ih (.code depth)).hidden
        · simp [body_step, hline]
        · rfl
        · simp [BodyState.pending, comment_length, hline, Except.map]
      · apply (ih (.comment depth)).hidden
        · simp [body_step, hline]
        · rfl
        · simp [BodyState.pending, comment_length, hline]
    | escape depth => exact BodyState.Meets.in_quote (Nat.le_refl 2) ih
    | digit depth => exact BodyState.Meets.in_quote (Nat.le_succ 1) ih
    | quoted depth => exact BodyState.Meets.in_quote (Nat.zero_le 2) ih
    | code depth =>
      by_cases hcomment : byte = ascii ';'
      · have hhidden : hidden_length byte rest = comment_length rest := if_pos hcomment
        apply (ih (.comment depth)).open
        · simp [body_step, hcomment]
        · rw [body_end_from_opens depth (by rw [hhidden]; exact comment_length_ne_zero rest), hhidden]
          rfl
      by_cases hquote : byte = ascii '"'
      · subst hquote
        have hhidden : hidden_length (ascii '"') rest = quoted_length rest := by rw [hidden_length, if_neg hcomment, if_pos rfl]
        apply (ih (.quoted depth)).open
        · simp [body_step, hcomment]
        · rw [body_end_from_opens depth (by rw [hhidden]; exact quoted_length_ne_zero rest), hhidden]
          rfl
      by_cases hopen : byte = ascii '\x7b'
      · subst hopen
        apply (ih (.code (depth + 1))).open
        · simp [body_step, hcomment, hquote]
        · rw [body_end_from_open]
          rfl
      by_cases hclose : byte = ascii '\x7d'
      · subst hclose
        by_cases hdepth : depth = 1
        · have hstep : body_step { depth } (ascii '\x7d') = .ok none := by
            simp [body_step, hcomment, hquote, hopen, hdepth]
          unfold BodyState.Meets
          rw [body_steps, hstep]
          change _ = body_end_from depth 0 _
          rw [body_end_from_close, if_pos hdepth]
          rfl
        · apply (ih (.code (depth - 1))).open
          · simp [body_step, hcomment, hquote, hopen, hdepth]
          · rw [body_end_from_close, if_neg hdepth]
            rfl
      · apply (ih (.code depth)).open
        · simp [body_step, hcomment, hquote, hopen, hclose]
        · rw [body_end_from_other hcomment hquote hopen hclose]
          rfl

/-- An input behind its next `count` bytes. -/
def skipped (s : Contiguous) (count : Nat) : Contiguous :=
  { s with rest := s.rest.drop count, offset := s.offset + count, looked := false }

theorem skipped_skipped (s : Contiguous) (count : Nat) : skipped (skipped s 1) count = skipped s (count + 1) := by
  simp [skipped, Nat.add_comm, Nat.add_left_comm]

/-- What a turn of the scan makes of a step, behind its byte. -/
def turned (s : Contiguous) : Except Malformed (Option BodyState) → Except (Fault Error) ((BodyState ⊕ Unit) × Contiguous)
  | .ok (some next) => .ok (.inl next, skipped s 1)
  | .ok none => .ok (.inr (), skipped s 1)
  | .error reason => .error (.error (.invalid s.offset reason.message))

theorem turned_ite {s : Contiguous} {c : Prop} [Decidable c] {p q : Program (BodyState ⊕ Unit)}
    {x y : Except Malformed (Option BodyState)} (hp : p.run (skipped s 1) = turned s x) (hq : q.run (skipped s 1) = turned s y) :
    (if c then p else q).run (skipped s 1) = turned s (if c then x else y) := by
  split
  · exact hp
  · exact hq

/-- A turn of the scan is one of its steps, unless the byte offset would not fit in `u64`. -/
theorem run_body_turn {s : Contiguous} {byte : UInt8} {rest : List UInt8} (hrest : s.rest = byte :: rest)
    (hheader : s.header_start = none) (state : BodyState) : (body_turn state).run s =
      if s.offset + 1 < UInt64.size then turned s (body_step state byte)
      else .error (.error (.invalid s.offset "LLVM byte offset exceeds u64")) := by
  rw [body_turn, run_bind, run_take, Contiguous.take, hrest]
  simp only [charge, hheader, Option.any_none, Bool.false_eq_true, if_false]
  by_cases hfits : s.offset + 1 < UInt64.size
  · have hskipped : { s with rest := rest, offset := s.offset + 1, looked := false } = skipped s 1 := by
      simp [skipped, hrest]
    simp only [if_pos hfits, ok_bind, pure_eq_ok, andThen_ok]
    rw [← hheader, hskipped, body_step]
    apply turned_ite rfl
    apply turned_ite rfl
    apply turned_ite rfl
    apply turned_ite rfl
    apply turned_ite rfl
    apply turned_ite rfl
    apply turned_ite rfl
    apply turned_ite rfl
    apply turned_ite rfl
    apply turned_ite rfl
    apply turned_ite rfl
    exact turned_ite (turned_ite rfl rfl) rfl
  · simp only [if_neg hfits]
    rfl

theorem run_body_turn_end {s : Contiguous} (hrest : s.rest = []) (hfailure : s.failure = none) (state : BodyState) :
    (body_turn state).run s = .error (.error (.invalid s.offset Malformed.end_of_input.message)) := by
  simp only [body_turn, run_bind, run_take, Contiguous.take, hrest, hfailure]
  rfl

/-- What the scan of a body returns, where its steps come to `steps`: the input behind the body, or
an `InvalidData` error. -/
def Scanned (s : Contiguous) (steps : Except Malformed Nat) (result : Except (Fault Error) (Unit × Contiguous)) : Prop :=
  (∃ length, steps = .ok length ∧ s.offset + length < UInt64.size ∧ result = .ok ((), skipped s length)) ∨
    ∃ place message, result = .error (.error (.invalid place message)) ∧
      (∀ length, steps = .ok length → UInt64.size ≤ s.offset + length) ∧
      ∀ reason, steps = .error reason → s.offset + s.rest.length < UInt64.size → message = reason.message

theorem Scanned.behind {s : Contiguous} {steps : Except Malformed Nat} {result : Except (Fault Error) (Unit × Contiguous)}
    (hrest : s.rest ≠ []) (h : Scanned (skipped s 1) steps result) : Scanned s (steps.map (· + 1)) result := by
  have hlength : (skipped s 1).offset + (skipped s 1).rest.length = s.offset + s.rest.length := by
    have hpos := List.length_pos_iff.mpr hrest
    simp only [skipped, List.length_drop]
    omega
  rcases h with ⟨length, rfl, hfits, rfl⟩ | ⟨place, message, rfl, hlong, hmessage⟩
  · refine .inl ⟨length + 1, rfl, ?_, by rw [skipped_skipped]⟩
    simp only [skipped] at hfits
    omega
  · refine .inr ⟨place, message, rfl, fun length hsteps => ?_, fun reason hsteps hfits => ?_⟩
    · cases steps with
      | error reason => cases hsteps
      | ok rest =>
        obtain rfl := Except.ok.inj hsteps
        have hrest := hlong rest rfl
        change UInt64.size ≤ s.offset + 1 + rest at hrest
        change UInt64.size ≤ s.offset + (rest + 1)
        omega
    · cases steps with
      | ok rest => cases hsteps
      | error other =>
        obtain rfl := Except.error.inj hsteps
        exact hmessage other rfl (by omega)

theorem Scanned.malformed (s : Contiguous) (place : Nat) (reason : Malformed) :
    Scanned s (.error reason) (.error (.error (.invalid place reason.message))) := by
  refine .inr ⟨place, _, rfl, nofun, ?_⟩
  rintro _ ⟨⟩ -
  rfl

/-- Where the byte offset would not fit, nothing more is read. -/
theorem Scanned.overflow {s : Contiguous} {steps : Except Malformed Nat} {message : String} (hrest : s.rest ≠ [])
    (hfits : ¬ s.offset + 1 < UInt64.size) (hsteps : steps ≠ .ok 0) :
    Scanned s steps (.error (.error (.invalid s.offset message))) := by
  refine .inr ⟨_, _, rfl, fun length h => ?_, fun reason _ hlength => ?_⟩
  · have hpos : length ≠ 0 := fun hzero => hsteps (hzero ▸ h)
    omega
  · have hpos := List.length_pos_iff.mpr hrest
    omega

theorem body_steps_pos {state : BodyState} {bytes : List UInt8} {length : Nat} (h : body_steps state bytes = .ok length) :
    0 < length := by
  cases bytes with
  | nil => cases h
  | cons byte rest =>
    rw [body_steps, bind_eq_ok_iff] at h
    obtain ⟨next, -, h⟩ := h
    cases next with
    | none =>
      cases h
      exact Nat.one_pos
    | some next =>
      change (body_steps next rest).map (· + 1) = .ok length at h
      cases hsteps : body_steps next rest with
      | error reason =>
        rw [hsteps] at h
        cases h
      | ok length =>
        rw [hsteps] at h
        cases h
        exact Nat.succ_pos length

/-- The loop reads a body as its steps do. -/
theorem run_body (bytes : List UInt8) : ∀ {s : Contiguous} (state : BodyState), s.rest = bytes → s.failure = none →
    s.header_start = none → Scanned s (body_steps state bytes) ((Scan.iter body_turn state).run s) := by
  induction bytes with
  | nil =>
    intro s state hrest hfailure _
    rw [run_iter_unfold, run_body_turn_end hrest hfailure]
    exact .malformed s s.offset .end_of_input
  | cons byte rest ih =>
    intro s state hrest hfailure hheader
    rw [run_iter_unfold, run_body_turn hrest hheader]
    by_cases hfits : s.offset + 1 < UInt64.size
    · rw [if_pos hfits]
      cases hstep : body_step state byte with
      | error reason =>
        rw [body_steps, hstep]
        exact .malformed s s.offset reason
      | ok next =>
        cases next with
        | none =>
          rw [body_steps, hstep]
          exact .inl ⟨1, rfl, hfits, rfl⟩
        | some next =>
          have hless : ByteSource.remaining (skipped s 1) < ByteSource.remaining s := by
            simp [skipped, hrest]
          rw [body_steps_cons hstep]
          simp only [turned, andThen_ok, if_pos hless]
          apply Scanned.behind (by simp [hrest])
          exact ih next (by simp [skipped, hrest]) hfailure hheader
    · rw [if_neg hfits]
      exact .overflow (by simp [hrest]) hfits fun hzero => Nat.lt_irrefl 0 (body_steps_pos hzero)

/-- However its input is delivered, the scan of a body stops just behind the brace that the
reference finds, and where the reference finds none it reports invalid data. -/
theorem skip_body_finds {bytes : List UInt8} {offset : Nat} {looked : Bool} {s : Stream}
    (h : Refines { rest := bytes, offset, looked } s) :
    (∀ length, (∃ s', skip_body.run s = .ok ((), s') ∧
        Refines { rest := bytes.drop length, offset := offset + length } s') ↔
      body_end bytes = .ok length ∧ offset + length < UInt64.size) ∧
    (∀ s', skip_body.run s = .ok ((), s') →
      ∃ length, body_end bytes = .ok length ∧ offset + length < UInt64.size ∧
        Refines { rest := bytes.drop length, offset := offset + length } s') ∧
    ((∀ length, body_end bytes = .ok length → UInt64.size ≤ offset + length) →
      ∃ place message, skip_body.run s = .error (.error (.invalid place message)) ∧
        ∀ reason, body_end bytes = .error reason → offset + bytes.length < UInt64.size → message = reason.message) := by
  have hsteps : body_steps {} bytes = body_end bytes := (BodyState.Valid.code 1).meets bytes
  have hscanned := run_body bytes (s := { rest := bytes, offset, looked }) {} rfl rfl rfl
  have hruns := Refines.simulates.run skip_body { rest := bytes, offset, looked } s h
  rw [hsteps] at hscanned
  change Scanned _ _ (skip_body.run _) at hscanned
  rcases hscanned with ⟨length, hend, hfits, hrun⟩ | ⟨place, message, hrun, hlong, hmessage⟩
  · rw [hrun] at hruns
    obtain hfalse | ⟨s', hrun', hs'⟩ := hruns
    · exact hfalse.elim
    have hfound : ∀ other, body_end bytes = .ok other → other = length := by
      intro other hother
      rw [hend] at hother
      exact (Except.ok.inj hother).symm
    refine ⟨fun other => ⟨?_, ?_⟩, ?_, fun hnone => ?_⟩
    · rintro ⟨s'', hrun'', hs''⟩
      rw [hrun'] at hrun''
      cases hrun''
      have hoffset : offset + length = offset + other := hs'.offset.trans hs''.offset.symm
      obtain rfl : length = other := by omega
      exact ⟨hend, hfits⟩
    · rintro ⟨hother, -⟩
      obtain rfl := hfound other hother
      exact ⟨s', hrun', hs'⟩
    · intro s'' hrun''
      rw [hrun'] at hrun''
      cases hrun''
      exact ⟨length, hend, hfits, hs'⟩
    · exact absurd (hnone length hend) (by simpa using hfits)
  · rw [hrun] at hruns
    obtain hfalse | hrun' := hruns
    · exact hfalse.elim
    refine ⟨fun other => ⟨?_, ?_⟩, ?_, fun _ => ⟨place, message, hrun', hmessage⟩⟩
    · rintro ⟨s', hrun'', -⟩
      rw [hrun'] at hrun''
      cases hrun''
    · rintro ⟨hother, hfits⟩
      exact absurd (hlong other hother) (by simpa using hfits)
    · intro s' hrun''
      rw [hrun'] at hrun''
      cases hrun''

/-- A body in two chunks, with an interruption between them and text behind its end. -/
def chunked_body : Reader :=
  [.data (text "call \x7b \"\x7d\\2"), .error ⟨.Interrupted, "interrupted"⟩, .data (text "2\" ; \x7d\n\x7d\x7d \x7b\x7d")]

theorem skip_body_finds_chunked : ∃ s', skip_body.run (Stream.new chunked_body) = .ok ((), s') ∧
    Refines { rest := text " \x7b\x7d", offset := 20 } s' := by
  have hdelivers : chunked_body.Delivers := by
    intro bytes hbytes
    simp only [chunked_body, List.mem_cons, ReadEvent.data.injEq, reduceCtorEq, List.not_mem_nil, or_false, false_or] at hbytes
    rcases hbytes with rfl | rfl <;> decide
  exact ((skip_body_finds (Refines.new hdelivers)).1 20).mpr ⟨by decide, by decide⟩

end optic.llvm_index.stream
