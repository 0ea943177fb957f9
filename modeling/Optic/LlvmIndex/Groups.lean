import Optic.LlvmIndex.HeaderReads
import Optic.LlvmIndex.Safety
import Optic.LlvmIndex.Shift

open byte_scan rust

namespace optic.llvm_index

/-- The bytes of a group behind its opening delimiter: balanced tokens, and the delimiter that closes them. -/
def Group (opening : UInt8) (bytes rest : List UInt8) : Prop :=
  ∃ close inner, matching_close opening = some close ∧ Balanced inner ∧ Lexes bytes (inner ++ [[close]]) rest

/-- A group lies ahead in a stream, within the bounds of the input and of the header. -/
structure Stream.Ahead (s : Stream) (opening : UInt8) (q rest : List UInt8) : Prop where
  bytes : s.contiguous.rest = q ++ rest
  group : Group opening q rest
  fits : s.offset + q.length < UInt64.size
  budget : ∀ start ∈ s.header_start, s.offset + q.length ≤ start + HEADER_LIMIT

/-- The bytes of a token are among those that spell it. -/
theorem Lexes.mem {bytes rest token : List UInt8} {tokens : List (List UInt8)} {byte : UInt8} (h : Lexes bytes tokens rest)
    (htoken : token ∈ tokens) (hbyte : byte ∈ token) : byte ∈ bytes := by
  induction h with
  | nil => cases htoken
  | cons hgap hvisible hlexeme htokens ih =>
    rw [List.mem_append, List.mem_append]
    rcases List.mem_cons.mp htoken with rfl | htoken
    · exact .inl (.inr hbyte)
    · exact .inr (ih htoken)

theorem visible_cons {byte : UInt8} {bytes : List UInt8} (hspace : ¬ is_ascii_whitespace byte) (hcomment : byte ≠ ascii ';') :
    Visible (byte :: bytes) := by
  intro first hfirst
  obtain rfl := Option.some.inj hfirst
  exact ⟨hspace, hcomment⟩

/-- A delimiter is a token of its own, whatever follows it. -/
theorem Lexes.delimiter {byte : UInt8} {gap bytes rest : List UInt8} {tokens : List (List UInt8)} (hgap : Blank false gap)
    (hbyte : byte ∈ text "()[]\x7b\x7d<>") (h : Lexes bytes tokens rest) :
    Lexes (gap ++ [byte] ++ bytes) ([byte] :: tokens) rest := by
  have hmark := List.all_eq_true.mp (show (text "()[]\x7b\x7d<>").all (fun byte => !(byte = ascii '"' || is_word byte ||
    is_sigil byte || byte = ascii '!' || is_ascii_whitespace byte || byte = ascii ';')) = true by decide) byte hbyte
  simp only [Bool.not_eq_true', Bool.or_eq_false_iff, decide_eq_false_iff_not] at hmark
  obtain ⟨⟨⟨⟨⟨hquote, hword⟩, hsigil⟩, hmetadata⟩, hspace⟩, hcomment⟩ := hmark
  refine .cons hgap (visible_cons (Bool.eq_false_iff.mp hspace) hcomment) ?_ h
  exact .mark hquote (Bool.eq_false_iff.mp hword) (Bool.eq_false_iff.mp hsigil) hmetadata

theorem Blank.spaces (count : Nat) : Blank false (List.replicate count (ascii ' ')) := by
  induction count with
  | zero => exact .nil
  | succ count ih => exact .space rfl nofun ih

/-- A stream stands where the bytes that it consumed end. -/
theorem Refines.behind {t t' : Contiguous} {s' : Stream} {q : List UInt8} (h : Refines t' s') (hq : Consumed t q t') :
    Refines { rest := t'.rest, failure := t.failure, offset := t.offset + q.length, header_start := t.header_start } s' where
  rest := h.rest
  failure := by rw [← hq.failure, h.failure]
  offset := by rw [← hq.offset, h.offset]
  header_start := by rw [← hq.header_start, h.header_start]
  position_le := h.position_le
  length_le := h.length_le
  chunk_length := h.chunk_length
  delivers := h.delivers

/-- A sound stream returns what its bytes make a program return. -/
theorem Stream.Sound.of_run_ok {s s' : Stream} (h : s.Sound) {α : Type} {p : Program α} {a : α} (hrun : p.run s = .ok (a, s'))
    (hstalled : p.run s.contiguous ≠ .error .stalled) : ∃ t, p.run s.contiguous = .ok (a, t) ∧ Refines t s' := by
  have hmatch := Refines.simulates.run p s.contiguous s h.refines
  rw [hrun] at hmatch
  rcases hcontiguous : p.run s.contiguous with (_ | error) | ⟨b, t⟩
  · exact absurd hcontiguous hstalled
  · rw [hcontiguous] at hmatch
    cases hmatch.resolve_left id
  · rw [hcontiguous] at hmatch
    obtain ⟨_, heq, ht⟩ := hmatch.resolve_left id
    cases heq
    exact ⟨t, rfl, ht⟩

namespace stream

variable {s s' : Stream} {opening : UInt8} {q rest : List UInt8}

/-- A group that lies ahead is consumed, and nothing behind it. -/
theorem consume_group_ahead (h : s.Sound) (hactive : s.header_start.isSome) (hcomplete : s.reader.failure = none)
    (hahead : s.Ahead opening q rest) : ∃ s', (consume_group opening).run s = .ok ((), s') ∧
      Refines { rest, offset := s.offset + q.length, header_start := s.header_start } s' := by
  obtain ⟨close, inner, hclose, hinner, hlexes⟩ := hahead.group
  have hready : Ready true s.contiguous q rest :=
    ⟨hahead.bytes, hcomplete, hactive, hahead.fits, fun start hstart => ⟨(h.budget start hstart).1, hahead.budget start hstart⟩⟩
  obtain ⟨t, hrun, hq⟩ := consume_group_parses hclose hinner _ _ _ hready hlexes
  have hmatch := Refines.simulates.run (consume_group opening) s.contiguous s h.refines
  rw [hrun] at hmatch
  obtain ⟨s', hrun', ht⟩ := hmatch.resolve_left id
  have hbehind := ht.behind hq
  rw [hq.rest_eq hahead.bytes, show s.contiguous.failure = none from hcomplete] at hbehind
  exact ⟨s', hrun', hbehind⟩

/-- What a run consumes is a group that lay ahead. -/
theorem consume_group_consumed (h : s.Sound) (hactive : s.header_start.isSome) (hcomplete : s.reader.failure = none)
    (hopening : (matching_close opening).isSome) (hrun : (consume_group opening).run s = .ok ((), s')) :
    ∃ q rest, s.Ahead opening q rest ∧
      Refines { rest, offset := s.offset + q.length, header_start := s.header_start } s' := by
  obtain ⟨close, hclose⟩ := Option.isSome_iff_exists.mp hopening
  have hspec := consume_group_spec (s := s.contiguous) hactive hclose
  obtain ⟨t, hrun', ht⟩ := h.of_run_ok hrun hspec.ne_stalled
  obtain ⟨q, inner, hq, hlexes, hinner⟩ := hspec.of_run_ok hrun'
  have hbehind := ht.behind hq
  rw [show s.contiguous.failure = none from hcomplete] at hbehind
  have hsound := ((consume_group_calm opening).throughout Stream.Sound.keeps h).final hrun
  have hoffset : s.offset + q.length = s'.offset := hbehind.offset
  have hheader : s.header_start = s'.header_start := hbehind.header_start
  refine ⟨q, t.rest, ⟨hq.rest, ⟨close, inner, hclose, hinner, hlexes⟩, ?_, fun start hstart => ?_⟩, hbehind⟩
  · have hlt := hsound.offset_lt
    omega
  · rw [hheader] at hstart
    have hbudget := hsound.budget start hstart
    omega

/-- A run that does not return reports invalid data, since no reader failed. -/
theorem consume_group_failed (h : s.Sound) (hactive : s.header_start.isSome) (hcomplete : s.reader.failure = none)
    (hopening : (matching_close opening).isSome) (hrun : ∀ s', (consume_group opening).run s ≠ .ok ((), s')) :
    ∃ place message, (consume_group opening).run s = .error (.error (.invalid place message)) := by
  obtain ⟨close, hclose⟩ := Option.isSome_iff_exists.mp hopening
  have hspec := consume_group_spec (s := s.contiguous) hactive hclose
  have hshifted : Shifted 0 0 s.contiguous s.contiguous :=
    ⟨rfl, ⟨hcomplete, hcomplete⟩, rfl, by simp, Nat.zero_le _, .inl rfl⟩
  have hcoupled := consume_group_shifts opening _ _ hshifted
  have hmatch := Refines.simulates.run (consume_group opening) s.contiguous s h.refines
  rcases hcontiguous : (consume_group opening).run s.contiguous with (_ | error) | ⟨_, t⟩
  · exact absurd hcontiguous hspec.ne_stalled
  · rw [hcontiguous] at hcoupled hmatch
    obtain ⟨error', -, herror⟩ := hcoupled
    cases herror with
    | invalid place message => exact ⟨place, message, hmatch.resolve_left id⟩
    | panicked message => exact absurd rfl (hspec.of_run_error hcontiguous message)
  · rw [hcontiguous] at hmatch
    obtain ⟨s', hrun', -⟩ := hmatch.resolve_left id
    exact absurd hrun' (hrun s')

/-- Delimiter groups are exactly the balanced token sequences. Within an open header, a group is consumed up to its closing
delimiter if one lies ahead within the bounds, and only then. Everything else is invalid data. -/
theorem groups_are_balanced (h : s.Sound) (hactive : s.header_start.isSome) (hcomplete : s.reader.failure = none)
    (hopening : (matching_close opening).isSome) :
    (∀ q rest, s.Ahead opening q rest → ∃ s', (consume_group opening).run s = .ok ((), s') ∧
      Refines { rest, offset := s.offset + q.length, header_start := s.header_start } s') ∧
    (∀ s', (consume_group opening).run s = .ok ((), s') → ∃ q rest, s.Ahead opening q rest ∧
      Refines { rest, offset := s.offset + q.length, header_start := s.header_start } s') ∧
    ((∃ place message, (consume_group opening).run s = .error (.error (.invalid place message))) ↔
      ¬ ∃ q rest, s.Ahead opening q rest) := by
  refine ⟨fun q rest => consume_group_ahead h hactive hcomplete, fun s' => consume_group_consumed h hactive hcomplete hopening, ?_⟩
  constructor
  · rintro ⟨place, message, hinvalid⟩ ⟨q, rest, hahead⟩
    obtain ⟨s', hrun, -⟩ := consume_group_ahead h hactive hcomplete hahead
    rw [hrun] at hinvalid
    cases hinvalid
  · intro hnone
    refine consume_group_failed h hactive hcomplete hopening fun s' hrun => hnone ?_
    obtain ⟨q, rest, hahead, -⟩ := consume_group_consumed h hactive hcomplete hopening hrun
    exact ⟨q, rest, hahead⟩

/-- Nested groups and a quoted delimiter, delivered in pieces. -/
def nested_groups : Reader := [.data (text "[<\x7bi32"), .error ⟨.Interrupted, "interrupted"⟩, .data (text "\x7d\")\">]) align")]

theorem groups_are_balanced_nested : ∃ s',
    (consume_group (ascii '(')).run { Stream.new nested_groups with header_start := some 0 } = .ok ((), s') ∧
      Refines { rest := text " align", offset := 13, header_start := some 0 } s' := by
  have hdelivers : nested_groups.Delivers := by
    intro bytes hbytes
    simp only [nested_groups, List.mem_cons, ReadEvent.data.injEq, reduceCtorEq, List.not_mem_nil, or_false, false_or] at hbytes
    rcases hbytes with rfl | rfl <;> decide
  have hsound : Stream.Sound { Stream.new nested_groups with header_start := some 0 } := by
    refine { Stream.Sound.new hdelivers with budget := fun start hstart => ?_ }
    obtain rfl := Option.some.inj hstart
    exact ⟨Nat.le_refl _, Nat.zero_le _⟩
  have hword : Ordinary (text "i32") := by
    intro byte hbyte
    cases hbyte
  have hquoted : Ordinary (text "\")\"") := by
    intro byte hbyte
    cases hbyte
  have hbraces : Balanced [[ascii '\x7b'], text "i32", [ascii '\x7d'], text "\")\""] :=
    @Balanced.group (ascii '\x7b') (ascii '\x7d') _ _ rfl (.ordinary hword .nil) (.ordinary hquoted .nil)
  have hinner : Balanced [[ascii '['], [ascii '<'], [ascii '\x7b'], text "i32", [ascii '\x7d'], text "\")\"", [ascii '>'], [ascii ']']] :=
    @Balanced.group (ascii '[') (ascii ']') _ _ rfl (@Balanced.group (ascii '<') (ascii '>') _ _ rfl hbraces .nil) .nil
  have hquotedLexes : Lexes (text "\")\">])") [text "\")\"", [ascii '>'], [ascii ']'], [ascii ')']] (text " align") := by
    refine @Lexes.cons [] (text "\")\"") (text ">])") (text " align") _ .nil (visible_cons (by decide) (by decide)) ?_ ?_
    · exact .quoted ⟨text ")", text ")", .raw (by decide) (by decide) (by decide) (by decide) .nil, rfl⟩
    · exact .delimiter .nil (by decide) (.delimiter .nil (by decide) (.delimiter .nil (by decide) .nil))
  have hbrace : ∀ byte ∈ (text "\x7d\")\">])").head?, ¬ is_word byte := by
    intro byte hbyte
    obtain rfl := Option.some.inj hbyte
    decide
  have hwordLexes : Lexes (text "i32\x7d\")\">])") (text "i32" :: [ascii '\x7d'] :: [text "\")\"", [ascii '>'], [ascii ']'], [ascii ')']])
      (text " align") := by
    refine @Lexes.cons [] (text "i32") (text "\x7d\")\">])") (text " align") _ .nil (visible_cons (by decide) (by decide)) ?_
      (.delimiter .nil (by decide) hquotedLexes)
    exact .word (.inl rfl) (List.all_eq_true.mp (show (text "32").all is_word = true by decide)) hbrace nofun
  have hgroup : Group (ascii '(') (text "[<\x7bi32\x7d\")\">])") (text " align") := by
    refine ⟨ascii ')', _, rfl, hinner, ?_⟩
    exact .delimiter .nil (by decide) (.delimiter .nil (by decide) (.delimiter .nil (by decide) hwordLexes))
  refine (groups_are_balanced hsound rfl rfl rfl).1 (text "[<\x7bi32\x7d\")\">])") (text " align")
    ⟨rfl, hgroup, by decide, fun start hstart => ?_⟩
  obtain rfl := Option.some.inj hstart
  decide

/-- A group whose closing delimiter is one byte over the budget of its header. -/
theorem groups_over_budget : ∃ bytes, Group (ascii '(') bytes [] ∧
    ∃ s : Stream, s = { Stream.new (Reader.of_slice bytes) with header_start := some 0 } ∧ s.Sound ∧
      s.contiguous.rest = bytes ++ [] ∧
      ∃ place message, (consume_group (ascii '(')).run s = .error (.error (.invalid place message)) := by
  have hgroup : Group (ascii '(') (List.replicate HEADER_LIMIT (ascii ' ') ++ [ascii ')'] ++ []) [] :=
    ⟨ascii ')', [], rfl, .nil, .delimiter (.spaces HEADER_LIMIT) (by decide) .nil⟩
  rw [List.append_nil] at hgroup
  generalize hbytes : List.replicate HEADER_LIMIT (ascii ' ') ++ [ascii ')'] = bytes at hgroup
  obtain ⟨hslices, hdelivers, hinterruptible⟩ := Reader.slices_spec bytes.length bytes (Nat.le_refl _)
  have hsound : Stream.Sound { Stream.new (Reader.of_slice bytes) with header_start := some 0 } := by
    refine { Stream.Sound.new hdelivers with budget := fun start hstart => ?_ }
    obtain rfl := Option.some.inj hstart
    exact ⟨Nat.le_refl _, Nat.zero_le _⟩
  have hrest : (Stream.contiguous { Stream.new (Reader.of_slice bytes) with header_start := some 0 }).rest = bytes :=
    (Refines.new hdelivers).rest.symm.trans hslices
  refine ⟨bytes, hgroup, _, rfl, hsound, by rw [hrest, List.append_nil], ?_⟩
  refine consume_group_failed hsound rfl hinterruptible.failure_eq_none rfl fun s' hrun => ?_
  obtain ⟨q, rest, hahead, -⟩ := consume_group_consumed hsound rfl hinterruptible.failure_eq_none rfl hrun
  obtain ⟨close, inner, hclose, -, hlexes⟩ := hahead.group
  have hspaces : q <+: List.replicate HEADER_LIMIT (ascii ' ') := by
    have hprefix : q <+: List.replicate HEADER_LIMIT (ascii ' ') ++ [ascii ')'] := ⟨rest, by rw [← hahead.bytes, hrest, hbytes]⟩
    have hlength := hahead.budget 0 rfl
    refine List.prefix_of_prefix_length_le hprefix (List.prefix_append _ _) ?_
    rw [List.length_replicate]
    change 0 + q.length ≤ 0 + HEADER_LIMIT at hlength
    omega
  have hmem := hspaces.subset (hlexes.mem (List.mem_append_right _ List.mem_cons_self) List.mem_cons_self)
  cases hclose
  exact absurd (List.eq_of_mem_replicate hmem) (by decide)

end stream

end optic.llvm_index
