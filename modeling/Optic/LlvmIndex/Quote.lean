import Optic.LlvmIndex.Body
import Optic.LlvmIndex.BudgetSpec
import Optic.LlvmIndex.StreamReads

open byte_scan rust
open optic.llvm_index.Marked (OverBudget charge_eq)

namespace optic.llvm_index.stream

/-- A turn of the body scan, up to the end of the quoted string that it is in. -/
def quote_turn (state : BodyState) : Program (BodyState ⊕ Unit) := do
  match ← body_turn state with
  | .inl next => if next.quoted then .again next else .stop ()
  | .inr () => .stop ()

/-- The part of the body scan that reads the rest of a quoted string. -/
def skip_quote (depth : Nat) : Program Unit := Scan.iter quote_turn { depth, quoted := true }

/-- What a turn makes of a step in a quoted string, behind its byte. -/
theorem run_quote_turn {s : Contiguous} {byte : UInt8} {rest : List UInt8} (hrest : s.rest = byte :: rest)
    (hheader : s.header_start = none) (state : BodyState) : (quote_turn state).run s =
      if s.offset + 1 < UInt64.size then
        match body_step state byte with
        | .ok (some next) => .ok (if next.quoted then .inl next else .inr (), skipped s 1)
        | .ok none => .ok (.inr (), skipped s 1)
        | .error reason => .error (.error (.invalid s.offset reason.message))
      else .error (.error (.invalid s.offset "LLVM byte offset exceeds u64")) := by
  rw [quote_turn, run_bind, run_body_turn hrest hheader]
  by_cases hfits : s.offset + 1 < UInt64.size
  · rw [if_pos hfits, if_pos hfits]
    rcases body_step state byte with reason | (_ | next)
    · rfl
    · rfl
    · simp only [turned, andThen_ok, run_ite]
      cases next.quoted <;> rfl
  · rw [if_neg hfits, if_neg hfits]
    rfl

/-- The rest of a quoted string is as long as its bytes tell. -/
theorem run_skip_quote {depth : Nat} (bytes : List UInt8) : ∀ {s : Contiguous} {digits : Nat}, digits ≤ 2 → s.rest = bytes →
    s.failure = none → s.header_start = none →
    Scanned s (escaped_length digits bytes) ((Scan.iter quote_turn (.in_quote depth digits)).run s) := by
  induction bytes with
  | nil =>
    intro s digits _ hrest hfailure _
    have hlength : escaped_length digits [] = .error .end_of_input := by cases digits <;> rfl
    rw [run_iter_unfold, quote_turn, run_bind, run_body_turn_end hrest hfailure, hlength]
    exact .malformed s s.offset .end_of_input
  | cons byte rest ih =>
    intro s digits hdigits hrest hfailure hheader
    rw [run_iter_unfold, run_quote_turn hrest hheader]
    by_cases hfits : s.offset + 1 < UInt64.size
    · rw [if_pos hfits]
      cases quote_step depth hdigits byte rest with
      | malformed reason hstep hlength =>
        rw [hstep, hlength]
        exact .malformed s s.offset reason
      | closing hstep hlength =>
        rw [hstep, hlength]
        exact .inl ⟨1, rfl, hfits, rfl⟩
      | hidden next hnext hstep hlength =>
        have hless : ByteSource.remaining (skipped s 1) < ByteSource.remaining s := by
          simp [skipped, hrest]
        rw [hstep, hlength]
        simp only [BodyState.in_quote, if_true, andThen_ok, if_pos hless]
        apply Scanned.behind (by simp [hrest])
        exact ih hnext (by simp [skipped, hrest]) hfailure hheader
    · rw [if_neg hfits]
      exact .overflow (by simp [hrest]) hfits (escaped_length_ne_zero digits _)

/-- What taking the next byte comes to. -/
inductive Taken (s : Contiguous) (byte : UInt8) : Prop
  | taken (hfits : s.offset + 1 < UInt64.size) (hrun : take.run s = .ok (some byte, skipped s 1))
  | overflow (hfits : ¬ s.offset + 1 < UInt64.size)
      (hrun : take.run s = .error (.error (.invalid s.offset "LLVM byte offset exceeds u64")))
  | exhausted (hrun : take.run s = .error (.error (.invalid s.offset "LLVM header exceeds the 1 MiB budget")))

theorem take_next {s : Contiguous} {byte : UInt8} {rest : List UInt8} (hrest : s.rest = byte :: rest) : Taken s byte := by
  have htake : take.run s =
      match charge s.offset s.header_start with
      | .ok offset => .ok (some byte, { s with rest := rest, offset, looked := false })
      | .error error => .error (.error error) := by
    rw [run_take, Contiguous.take, hrest]
    cases charge s.offset s.header_start <;> rfl
  rw [charge_eq] at htake
  by_cases hfull : s.header_start.any (fun start => s.offset - start = HEADER_LIMIT) = true
  · rw [if_pos hfull] at htake
    exact .exhausted htake
  · rw [if_neg hfull, charge, Option.any_none, if_neg Bool.false_ne_true] at htake
    by_cases hfits : s.offset + 1 < UInt64.size
    · have hskipped : { s with rest := rest, offset := s.offset + 1, looked := false } = skipped s 1 := by
        simp [skipped, hrest]
      rw [if_pos hfits] at htake
      refine .taken hfits ?_
      rw [← hskipped]
      exact htake
    · rw [if_neg hfits] at htake
      exact .overflow hfits htake

/-- What the tokenizer returns for the rest of a quoted string of a length: the token with it, an `InvalidData` error, or
that the header is over its budget. -/
inductive Lexed (s : Contiguous) (token : List UInt8) (length : Except Malformed Nat) :
    Except (Fault Error) (List UInt8 × Contiguous) → Prop
  | lexed {n : Nat} (hlength : length = .ok n) (hfits : s.offset + n < UInt64.size) :
      Lexed s token length (.ok (token ++ s.rest.take n, skipped s n))
  | invalid (place : Nat) (message : String) (hlength : ∀ n, length = .ok n → UInt64.size ≤ s.offset + n) :
      Lexed s token length (.error (.error (.invalid place message)))
  | exhausted {error : Error} (hbudget : OverBudget error) : Lexed s token length (.error (.error error))

namespace Lexed

variable {s : Contiguous} {token : List UInt8} {result : Except (Fault Error) (List UInt8 × Contiguous)}

theorem malformed (s : Contiguous) (token : List UInt8) (reason : Malformed) (place : Nat) (message : String) :
    Lexed s token (.error reason) (.error (.error (.invalid place message))) := .invalid place message nofun

theorem behind {byte : UInt8} {rest : List UInt8} {length : Except Malformed Nat} (hrest : s.rest = byte :: rest)
    (h : Lexed (skipped s 1) (token ++ [byte]) length result) : Lexed s token (length.map (· + 1)) result := by
  cases h with
  | @lexed n hlength hfits =>
    have hbytes : token ++ [byte] ++ (skipped s 1).rest.take n = token ++ s.rest.take (n + 1) := by
      simp [skipped, hrest]
    rw [hbytes, skipped_skipped]
    refine .lexed (by rw [hlength]; rfl) ?_
    change s.offset + 1 + n < UInt64.size at hfits
    omega
  | invalid place message hlong =>
    refine .invalid place message fun n hn => ?_
    cases length with
    | error reason => cases hn
    | ok m =>
      obtain rfl := Except.ok.inj hn
      have hm := hlong m rfl
      change UInt64.size ≤ s.offset + 1 + m at hm
      change UInt64.size ≤ s.offset + (m + 1)
      omega
  | exhausted hbudget => exact .exhausted hbudget

theorem of_look {length : Except Malformed Nat} (h : Lexed s.look token length result) : Lexed s token length result := by
  cases h with
  | lexed hlength hfits => exact .lexed hlength hfits
  | invalid place message hlong => exact .invalid place message hlong
  | exhausted hbudget => exact .exhausted hbudget

theorem overflow {length : Except Malformed Nat} (hfits : ¬ s.offset + 1 < UInt64.size) (hlength : length ≠ .ok 0)
    (place : Nat) (message : String) : Lexed s token length (.error (.error (.invalid place message))) := by
  refine .invalid place message fun n hn => ?_
  have hpos : n ≠ 0 := fun hzero => hlength (hzero ▸ hn)
  omega

end Lexed

theorem andThen_assoc {σ α β γ : Type} {x : Except (Fault Error) (α × σ)} {f : α → σ → Except (Fault Error) (β × σ)}
    {g : β → σ → Except (Fault Error) (γ × σ)} :
    andThen (andThen x f) g = andThen x fun value rest => andThen (f value rest) g := by
  cases x with
  | error fault => rfl
  | ok pair => rfl

theorem run_take_end {s : Contiguous} (hrest : s.rest = []) (hfailure : s.failure = none) :
    take.run s = .ok (none, s.look) := by
  rw [run_take, Contiguous.take, hrest, hfailure]

/-- A digit of an escape, and what is behind it. -/
theorem digit_lexed {s : Contiguous} {token : List UInt8}
    {next : List UInt8 → Contiguous → Except (Fault Error) (List UInt8 × Contiguous)} {digits : Nat}
    (hdigits : digits = 1 → s.rest.head? ≠ some (ascii '\\')) (hfailure : s.failure = none)
    (hnext : ∀ byte rest, s.rest = byte :: rest →
      Lexed (skipped s 1) (token ++ [byte]) (escaped_length digits rest) (next (token ++ [byte]) (skipped s 1))) :
    Lexed s token (escaped_length (digits + 1) s.rest) (andThen ((complete_quoted_escape.digit token).run s) next) := by
  rw [complete_quoted_escape.digit, run_bind]
  cases hrest : s.rest with
  | nil =>
    rw [run_take_end hrest hfailure]
    exact .malformed s token .end_of_input _ _
  | cons byte rest =>
    cases take_next hrest with
    | taken hfits hrun =>
      have hescape : ¬ (digits = 1 && byte = ascii '\\') = true := by
        simpa [hrest] using hdigits
      rw [hrun, andThen_ok, escaped_length, if_neg hescape]
      simp only [run_ite, run_pure]
      by_cases hdigit : is_ascii_hexdigit byte = true
      · rw [if_pos hdigit, if_pos hdigit, andThen_ok]
        exact (hnext byte rest hrest).behind hrest
      · rw [if_neg hdigit, if_neg hdigit]
        exact .malformed s token .escape _ _
    | overflow hfits hrun =>
      rw [hrun]
      exact .overflow hfits (escaped_length_ne_zero _ _) _ _
    | exhausted hrun =>
      rw [hrun]
      exact .exhausted ⟨_, rfl⟩

/-- The escape behind a backslash, and what is behind it. -/
theorem escape_lexed {s : Contiguous} {token : List UInt8}
    {next : List UInt8 → Contiguous → Except (Fault Error) (List UInt8 × Contiguous)} (hfailure : s.failure = none)
    (hnext : ∀ n, 0 < n → n ≤ s.rest.length → ∀ token,
      Lexed (skipped s n) token (quoted_length (s.rest.drop n)) (next token (skipped s n))) :
    Lexed s token (escaped_length 2 s.rest) (andThen ((complete_quoted_escape token).run s) next) := by
  have hpeek : peek.run s = .ok (s.rest.head?, s.look) := by
    rw [run_peek, Contiguous.peek, hfailure]
    cases s.rest <;> rfl
  apply Lexed.of_look
  rw [complete_quoted_escape, run_bind, hpeek, andThen_ok]
  by_cases hbackslash : s.rest.head? = some (ascii '\\')
  · obtain ⟨rest, hrest⟩ := List.head?_eq_some_iff.mp hbackslash
    rw [if_pos hbackslash, take_expected, run_bind, run_bind, hrest, escaped_length, if_pos (by simp)]
    cases take_next (s := s.look) hrest with
    | taken hfits hrun =>
      have hbehind := hnext 1 Nat.one_pos (by simp [hrest]) (token ++ [ascii '\\'])
      rw [hrest, List.drop_one, List.tail_cons] at hbehind
      rw [hrun]
      exact hbehind.behind hrest
    | overflow hfits hrun =>
      rw [hrun]
      exact .overflow hfits (map_succ_ne_zero _) _ _
    | exhausted hrun =>
      rw [hrun]
      exact .exhausted ⟨_, rfl⟩
  · rw [if_neg hbackslash, run_bind, andThen_assoc]
    refine digit_lexed (s := s.look) (fun _ => hbackslash) hfailure fun first rest hrest => ?_
    have hdrop : (skipped s.look 1).rest = rest := by
      change s.rest.drop 1 = rest
      rw [show s.rest = first :: rest from hrest, List.drop_one, List.tail_cons]
    rw [← hdrop]
    refine digit_lexed (fun hzero => absurd hzero Nat.zero_ne_one) hfailure fun second rest' hrest' => ?_
    have hbytes : s.rest = first :: second :: rest' := by
      rw [show s.rest = first :: rest from hrest, ← hdrop, hrest']
    have hbehind := hnext 2 Nat.two_pos (by simp [hbytes]) (token ++ [first] ++ [second])
    rw [hbytes] at hbehind
    rw [skipped_skipped]
    exact hbehind

/-- The tokenizer reads the rest of a quoted string as its bytes tell. -/
theorem quoted_token_lexed (count : Nat) : ∀ {s : Contiguous} {token : List UInt8}, s.rest.length ≤ count → s.failure = none →
    Lexed s token (quoted_length s.rest) ((complete_quoted_token token).run s) := by
  induction count with
  | zero =>
    intro s token hcount hfailure
    have hrest := List.eq_nil_of_length_eq_zero (Nat.le_zero.mp hcount)
    rw [complete_quoted_token, run_iter_unfold, run_bind, run_take_end hrest hfailure, hrest]
    exact .malformed s token .end_of_input _ _
  | succ count ih =>
    intro s token hcount hfailure
    rw [complete_quoted_token, run_iter_unfold, run_bind]
    cases hrest : s.rest with
    | nil =>
      rw [run_take_end hrest hfailure]
      exact .malformed s token .end_of_input _ _
    | cons byte rest =>
      cases take_next hrest with
      | overflow hfits hrun =>
        rw [hrun]
        exact .overflow hfits (quoted_length_ne_zero _) _ _
      | exhausted hrun =>
        rw [hrun]
        exact .exhausted ⟨_, rfl⟩
      | taken hfits hrun =>
        have hlength := congrArg List.length hrest
        rw [List.length_cons] at hlength
        have hbehind (n : Nat) (token : List UInt8) :
            Lexed (skipped (skipped s 1) n) token (quoted_length (rest.drop n))
              (if ByteSource.remaining (skipped (skipped s 1) n) < ByteSource.remaining s then
                (complete_quoted_token token).run (skipped (skipped s 1) n) else .error .stalled) := by
          have hdrop : (skipped (skipped s 1) n).rest = rest.drop n := by simp [skipped, hrest]
          have hshort : (skipped (skipped s 1) n).rest.length ≤ rest.length := by
            rw [hdrop, List.length_drop]
            exact Nat.sub_le rest.length n
          have hless : ByteSource.remaining (skipped (skipped s 1) n) < ByteSource.remaining s := by
            change (skipped (skipped s 1) n).rest.length < s.rest.length
            omega
          rw [if_pos hless, ← hdrop]
          exact ih (by omega) hfailure
        have hdrop : (skipped s 1).rest = rest := by simp [skipped, hrest]
        rw [hrun, andThen_ok]
        simp only [run_ite]
        by_cases hquote : byte = ascii '"'
        · have hbytes : token ++ [byte] = token ++ s.rest.take 1 := by simp [hrest]
          rw [if_pos hquote, run_stop, andThen_ok, hbytes]
          exact .lexed (by rw [hquote, quoted_length_eq]; rfl) hfits
        rw [if_neg hquote]
        by_cases hline : byte = ascii '\n' ∨ byte = ascii '\r'
        · have hmalformed : quoted_length (byte :: rest) = .error .line_end := by
            rw [quoted_length_eq]
            simp [hquote, hline]
          rw [if_pos (by simpa using hline), hmalformed]
          exact .malformed s token .line_end _ _
        rw [if_neg (by simpa using hline)]
        by_cases hescape : byte = ascii '\\'
        · subst hescape
          rw [if_pos rfl, run_bind, andThen_assoc, quoted_length_escape, ← hdrop]
          refine Lexed.behind hrest (escape_lexed hfailure fun n _ _ token => ?_)
          rw [hdrop]
          exact hbehind n token
        · rw [not_or] at hline
          rw [if_neg hescape, run_again, andThen_ok, quoted_length_cons hquote hline.1 hline.2 hescape]
          exact Lexed.behind hrest (hbehind 0 _)

/-- The body scan goes on behind a quoted string as outside of one. -/
theorem run_body_in_quote {depth : Nat} (bytes : List UInt8) : ∀ {t : Contiguous} {s : Stream} {digits : Nat}, digits ≤ 2 →
    t.rest = bytes → t.failure = none → t.header_start = none → Refines t s →
    (Scan.iter body_turn (.in_quote depth digits)).run s =
      andThen ((Scan.iter quote_turn (.in_quote depth digits)).run s) fun _ s' => (Scan.iter body_turn { depth }).run s' := by
  induction bytes with
  | nil =>
    intro t s digits _ hrest hfailure _ h
    have hturn := Refines.simulates.run (body_turn (.in_quote depth digits)) t s h
    rw [run_body_turn_end hrest hfailure] at hturn
    have hrun := hturn.resolve_left id
    rw [run_iter_unfold, run_iter_unfold, quote_turn, run_bind, hrun]
    rfl
  | cons byte rest ih =>
    intro t s digits hdigits hrest hfailure hheader h
    have hturn := Refines.simulates.run (body_turn (.in_quote depth digits)) t s h
    have hless {s1 : Stream} (h1 : Refines (skipped t 1) s1) : ByteSource.remaining s1 < ByteSource.remaining s := by
      apply Refines.simulates.remaining t s (skipped t 1) s1 h h1
      simp [skipped, hrest]
    rw [run_body_turn hrest hheader] at hturn
    rw [run_iter_unfold, run_iter_unfold, quote_turn, run_bind]
    by_cases hfits : t.offset + 1 < UInt64.size
    · rw [if_pos hfits] at hturn
      cases quote_step depth hdigits byte rest with
      | malformed reason hstep hlength =>
        rw [hstep] at hturn
        rw [hturn.resolve_left id]
        rfl
      | closing hstep hlength =>
        rw [hstep] at hturn
        obtain ⟨s1, hrun, h1⟩ := hturn.resolve_left id
        rw [hrun]
        simp only [andThen_ok, if_pos (hless h1)]
        rfl
      | hidden next hnext hstep hlength =>
        rw [hstep] at hturn
        obtain ⟨s1, hrun, h1⟩ := hturn.resolve_left id
        have hturn' : (if (BodyState.in_quote depth next).quoted then .again (.in_quote depth next) else .stop () :
            Program (BodyState ⊕ Unit)).run s1 = .ok (.inl (.in_quote depth next), s1) := rfl
        rw [hrun]
        simp only [andThen_ok, if_pos (hless h1), hturn']
        have hdrop : (skipped t 1).rest = rest := by simp [skipped, hrest]
        exact ih hnext hdrop hfailure hheader h1
    · rw [if_neg hfits] at hturn
      rw [hturn.resolve_left id]
      rfl

/-- The two lexers of quoted strings agree. However the bytes behind an opening quote are delivered, the tokenizer, whose
header is within its budget, and the body scan both stop just behind the same closing quote, where the scan goes on as
outside of quotes, or both report invalid data. -/
theorem quote_lexers_agree {bytes : List UInt8} {offset : Nat} {start : Option Nat} {looked looked' : Bool} {s s' : Stream}
    (header : Refines { rest := bytes, offset, header_start := start, looked } s)
    (body : Refines { rest := bytes, offset, looked := looked' } s') (token : List UInt8) (depth : Nat)
    (hbudget : ∀ error, OverBudget error → (complete_quoted_token token).run s ≠ .error (.error error)) :
    (∃ length t t', Quoted (bytes.take length) ∧
      (complete_quoted_token token).run s = .ok (token ++ bytes.take length, t) ∧
      Refines { rest := bytes.drop length, offset := offset + length, header_start := start } t ∧
      (skip_quote depth).run s' = .ok ((), t') ∧ Refines { rest := bytes.drop length, offset := offset + length } t' ∧
      (Scan.iter body_turn { depth, quoted := true }).run s' = (Scan.iter body_turn { depth }).run t') ∨
    ∃ place message place' message', (complete_quoted_token token).run s = .error (.error (.invalid place message)) ∧
      (skip_quote depth).run s' = .error (.error (.invalid place' message')) ∧
      (Scan.iter body_turn { depth, quoted := true }).run s' = .error (.error (.invalid place' message')) := by
  let t0 : Contiguous := { rest := bytes, offset, header_start := start, looked }
  have hlexed : Lexed t0 token (quoted_length bytes) ((complete_quoted_token token).run t0) :=
    quoted_token_lexed bytes.length (Nat.le_refl bytes.length) rfl
  have hskipped : Scanned { rest := bytes, offset, looked := looked' } (quoted_length bytes)
    ((skip_quote depth).run ({ rest := bytes, offset, looked := looked' } : Contiguous)) :=
    run_skip_quote bytes (Nat.zero_le 2) rfl rfl rfl
  have hon : (Scan.iter body_turn { depth, quoted := true }).run s' =
      andThen ((skip_quote depth).run s') fun _ s' => (Scan.iter body_turn { depth }).run s' :=
    run_body_in_quote bytes (Nat.zero_le 2) rfl rfl rfl body
  have htoken := Refines.simulates.run (complete_quoted_token token) t0 s header
  have hquote := Refines.simulates.run (skip_quote depth) _ s' body
  have hquoted := complete_quoted_token_spec t0 token
  generalize hrun : (complete_quoted_token token).run t0 = result at hlexed htoken
  cases hlexed with
  | @lexed n hlength hfits =>
    obtain ⟨t, hrun', ht⟩ := htoken.resolve_left id
    obtain ⟨q, hq, hbytes, -⟩ := hquoted.of_run_ok hrun
    obtain rfl := List.append_cancel_left hbytes
    rcases hskipped with ⟨length, hlength', -, hskip⟩ | ⟨place, message, -, hlong, -⟩
    · obtain rfl := Except.ok.inj (hlength.symm.trans hlength')
      rw [hskip] at hquote
      obtain ⟨t', hskip', ht'⟩ := hquote.resolve_left id
      rw [hskip', andThen_ok] at hon
      exact .inl ⟨n, t, t', hq, hrun', ht, hskip', ht', hon⟩
    · exact absurd (hlong n hlength) (Nat.not_le.mpr hfits)
  | invalid place message hlong =>
    rcases hskipped with ⟨length, hlength, hfits, -⟩ | ⟨place', message', hskip, -, -⟩
    · exact absurd (hlong length hlength) (Nat.not_le.mpr hfits)
    · rw [hskip] at hquote
      have hskip' := hquote.resolve_left id
      rw [hskip', andThen_error] at hon
      exact .inr ⟨place, message, place', message', htoken.resolve_left id, hskip', hon⟩
  | exhausted hover => exact absurd (htoken.resolve_left id) (hbudget _ hover)

/-- A quoted string that is split in an escape. -/
def chunked_quote : Reader := [.data (text "a\\2"), .error ⟨.Interrupted, "interrupted"⟩, .data (text "2\" b")]

theorem quote_lexers_agree_chunked : ∃ length t t',
    (complete_quoted_token [ascii '"']).run { Stream.new chunked_quote with header_start := some 0 } =
      .ok ([ascii '"'] ++ (text "a\\22\" b").take length, t) ∧
    (skip_quote 1).run (Stream.new chunked_quote) = .ok ((), t') := by
  have hdelivers : chunked_quote.Delivers := by
    intro bytes hbytes
    simp only [chunked_quote, List.mem_cons, ReadEvent.data.injEq, reduceCtorEq, List.not_mem_nil, or_false, false_or] at hbytes
    rcases hbytes with rfl | rfl <;> decide
  have body : Refines { rest := text "a\\22\" b" } (Stream.new chunked_quote) := Refines.new hdelivers
  have header : Refines { rest := text "a\\22\" b", header_start := some 0 }
      { Stream.new chunked_quote with header_start := some 0 } := { body with header_start := rfl }
  have hready : Ready true { rest := text "a\\22\" b", header_start := some 0 } (text "a\\22" ++ [ascii '"']) (text " b") := by
    refine ⟨rfl, rfl, rfl, by decide, fun start hstart => ?_⟩
    cases hstart
    decide
  have hcontent : Spells (text "a\\22") (text "a\"") :=
    .raw (by decide) (by decide) (by decide) (by decide) (.hex (by decide) (by decide) .nil)
  obtain ⟨t, hrun, -⟩ := complete_quoted_token_reads hcontent [ascii '"'] hready
  have hmatch := Refines.simulates.run (complete_quoted_token [ascii '"']) _ _ header
  rw [hrun] at hmatch
  obtain ⟨s, hrun', -⟩ := hmatch.resolve_left id
  have hbudget : ∀ error, OverBudget error →
      (complete_quoted_token [ascii '"']).run { Stream.new chunked_quote with header_start := some 0 } ≠ .error (.error error) := by
    intro error _ h
    rw [hrun'] at h
    cases h
  rcases quote_lexers_agree header body [ascii '"'] 1 hbudget with
    ⟨length, t, t', -, htoken, -, hskip, -, -⟩ | ⟨place, message, -, -, htoken, -, -⟩
  · exact ⟨length, t, t', htoken, hskip⟩
  · rw [hrun'] at htoken
    cases htoken

end optic.llvm_index.stream
