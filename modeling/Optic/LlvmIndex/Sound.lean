import Optic.ByteScan.Throughout
import Optic.LlvmIndex.Refinement

open byte_scan rust optic.records

namespace optic.llvm_index

/-- A chunk of fixed size, and an offset within the bounds of the input and of its header. -/
structure Stream.Sound (s : Stream) : Prop where
  chunk_length : s.chunk.length = CHUNK_SIZE
  delivers : s.reader.Delivers
  position_le : s.position ≤ s.length
  length_le : s.length ≤ CHUNK_SIZE
  offset_lt : s.offset < UInt64.size
  budget : ∀ start ∈ s.header_start, start ≤ s.offset ∧ s.offset ≤ start + HEADER_LIMIT

variable {s s' : Stream}

namespace Stream

theorem refill_keeps (h : s.refill = .ok s') : s'.offset = s.offset ∧ s'.header_start = s.header_start := by
  unfold refill at h
  split at h
  · cases h
    exact ⟨rfl, rfl⟩
  · cases h

/-- A peek refills an exhausted chunk and then looks at its next byte. -/
theorem peek_eq_ok {byte : Option UInt8} (h : s.peek = .ok (byte, s')) :
    (s.position = s.length ∧ s.refill = .ok s' ∨ s.position ≠ s.length ∧ s' = s) ∧
      ∀ found, byte = some found → s'.position < s'.length := by
  have hlooked (filled : Stream) (found : UInt8)
      (h : (if filled.position < filled.length then filled.chunk[filled.position]? else none) = some found) :
      filled.position < filled.length := by
    by_contra hposition
    rw [if_neg hposition] at h
    cases h
  by_cases hposition : s.position = s.length
  · cases hrefill : s.refill with
    | error error => simp [peek, hposition, hrefill] at h
    | ok filled =>
      simp only [peek, hposition, hrefill, if_true, ok_bind, pure_eq_ok] at h
      cases h
      exact ⟨.inl ⟨hposition, rfl⟩, fun found hfound => hlooked _ found hfound⟩
  · simp only [peek, hposition, if_false, ok_bind, pure_eq_ok] at h
    cases h
    exact ⟨.inr ⟨hposition, rfl⟩, fun found hfound => hlooked _ found hfound⟩

/-- A peek does not move the offset. -/
theorem peek_keeps {byte : Option UInt8} (h : s.peek = .ok (byte, s')) :
    s'.offset = s.offset ∧ s'.header_start = s.header_start := by
  obtain ⟨⟨-, hrefill⟩ | ⟨-, rfl⟩, -⟩ := peek_eq_ok h
  · exact refill_keeps hrefill
  · exact ⟨rfl, rfl⟩

/-- Taking a byte charges it and moves behind it. -/
theorem take_eq_ok {byte : Option UInt8} (h : s.take = .ok (byte, s')) :
    byte = none ∧ s.peek = .ok (none, s') ∨ ∃ found s1, byte = some found ∧ s.peek = .ok (some found, s1) ∧
      charge s1.offset s1.header_start = .ok s'.offset ∧
      s' = { s1 with offset := s'.offset, position := s1.position + 1 } := by
  unfold take at h
  obtain ⟨⟨peeked, s1⟩, hpeek, h⟩ := bind_eq_ok_iff.mp h
  cases peeked with
  | none =>
    cases h
    exact .inl ⟨rfl, hpeek⟩
  | some found =>
    obtain ⟨offset, hcharge, h⟩ := bind_eq_ok_iff.mp h
    cases h
    exact .inr ⟨found, s1, rfl, hpeek, hcharge, rfl⟩

theorem take_keeps {byte : Option UInt8} (h : s.take = .ok (byte, s')) :
    s'.offset = s.offset + byte.toList.length ∧ s'.header_start = s.header_start := by
  obtain ⟨rfl, hpeek⟩ | ⟨found, s1, rfl, hpeek, hcharge, hs'⟩ := take_eq_ok h
  · exact peek_keeps hpeek
  · obtain ⟨hoffset, hheader⟩ := peek_keeps hpeek
    rw [hs']
    exact ⟨by rw [(charge_ok hcharge).1, hoffset]; rfl, hheader⟩

/-- No run moves back. -/
theorem keeps_offset (offset : Nat) : Keeps (fun _ => True) fun s : Stream => offset ≤ s.offset where
  peek s byte s' h hpeek := by
    rw [(peek_keeps hpeek).1]
    exact h
  take s byte s' h htake := by
    rw [(take_keeps htake).1]
    omega
  budget s start _ h := h

namespace Sound

theorem peek {byte : Option UInt8} (h : s.Sound) (hpeek : s.peek = .ok (byte, s')) : s'.Sound := by
  obtain ⟨⟨-, hrefill⟩ | ⟨-, rfl⟩, -⟩ := peek_eq_ok hpeek
  · have hchunk := h.chunk_length
    unfold Stream.refill at hrefill
    obtain ⟨bytes, rest, hread, -, -, hdelivers, hfits, -⟩ | ⟨error, rest, hread, -⟩ := refill_read_spec h.delivers
    · rw [hread] at hrefill
      cases hrefill
      refine ⟨?_, hdelivers, Nat.zero_le _, hfits, h.offset_lt, h.budget⟩
      simp only [List.length_append, List.length_drop]
      omega
    · rw [hread] at hrefill
      cases hrefill
  · exact h

theorem take {byte : Option UInt8} (h : s.Sound) (htake : s.take = .ok (byte, s')) : s'.Sound := by
  obtain ⟨-, hpeek⟩ | ⟨found, s1, -, hpeek, hcharge, hs'⟩ := take_eq_ok htake
  · exact h.peek hpeek
  · have hs1 := h.peek hpeek
    have hposition := (peek_eq_ok hpeek).2 found rfl
    obtain ⟨hoffset, hlt⟩ := charge_ok hcharge
    rw [hs']
    refine ⟨hs1.chunk_length, hs1.delivers, hposition, hs1.length_le, hlt, fun start hstart => ?_⟩
    obtain ⟨hle, hbudget⟩ := hs1.budget start hstart
    -- The charge went through, so the budget was not used up.
    have hroom : s1.offset - start ≠ HEADER_LIMIT := by
      intro hfull
      simp only [Option.mem_def] at hstart
      simp [charge, hstart, hfull] at hcharge
    simp only
    omega

/-- Reading, and ending a header, keeps a stream sound. -/
theorem keeps : Keeps (· = none) Sound where
  peek _ _ _ h hpeek := h.peek hpeek
  take _ _ _ h htake := h.take htake
  budget s start hstart h := by
    subst hstart
    exact { h with budget := nofun }

theorem new {reader : Reader} (hreader : reader.Delivers) : (Stream.new reader).Sound :=
  ⟨List.length_replicate, hreader, Nat.le_refl _, Nat.zero_le _, (show 0 < UInt64.size by decide), nofun⟩

end Sound

end Stream

/-- A program that begins no header. -/
abbrev Calm {α : Type} (p : Program α) : Prop := Budgets (· = none) p

variable {A : Option Nat → Prop}

theorem invalid_calm {α : Type} (offset : Nat) (message : String) : Budgets A (invalid offset message : Program α) := .fail _

theorem decode_calm {α : Type} (result : Except Error α) : Budgets A (Scan.ofExcept result) := by
  cases result with
  | ok value => exact .done value
  | error error => exact .fail error

namespace stream

theorem peek_calm : Budgets A peek := .peek .done

theorem take_calm : Budgets A take := .take .done

theorem offset_calm : Budgets A offset := .offset .done

theorem skip_line_calm : Budgets A skip_line := by
  refine Budgets.iter (fun _ => take_calm.bind fun byte => ?_) ()
  cases byte with
  | none => exact .done _
  | some byte => exact .ite (.done _) (.done _)

theorem take_expected_calm (message : String) : Budgets A (take_expected message) := by
  refine take_calm.bind fun byte => ?_
  cases byte with
  | none => exact .fail _
  | some byte => exact .done byte

theorem digit_calm (bytes : List UInt8) : Budgets A (complete_quoted_escape.digit bytes) := by
  refine take_calm.bind fun byte => ?_
  cases byte with
  | none => exact offset_calm.bind fun offset => invalid_calm offset _
  | some byte => exact .ite (.done _) (offset_calm.bind fun offset => invalid_calm _ _)

theorem complete_quoted_escape_calm (bytes : List UInt8) : Budgets A (complete_quoted_escape bytes) := by
  refine peek_calm.bind fun byte => .ite ?_ ?_
  · exact (take_expected_calm _).bind fun byte => .done _
  · exact (digit_calm bytes).bind digit_calm

theorem complete_quoted_token_calm (bytes : List UInt8) : Budgets A (complete_quoted_token bytes) := by
  refine Budgets.iter (fun bytes => take_calm.bind fun byte => ?_) bytes
  cases byte with
  | none => exact offset_calm.bind fun offset => invalid_calm offset _
  | some byte =>
    refine .ite (.done _) (.ite (offset_calm.bind fun offset => invalid_calm _ _) (.ite ?_ (.done _)))
    exact (complete_quoted_escape_calm _).bind fun bytes => .done _

theorem complete_word_calm (bytes : List UInt8) : Budgets A (complete_word bytes) := by
  refine Budgets.iter (fun bytes => peek_calm.bind fun byte => ?_) bytes
  cases byte with
  | none => exact .done _
  | some byte => exact .ite ((take_expected_calm _).bind fun byte => .done _) (.done _)

theorem opens_quote_calm (first : UInt8) : Budgets A (opens_quote first) :=
  .ite (peek_calm.bind fun _ => .done _) (.done _)

theorem complete_token_calm (first : UInt8) : Budgets A (complete_token first) := by
  refine .ite (complete_quoted_token_calm _) ((opens_quote_calm first).bind fun opens => .ite ?_ (.ite (.done _) ?_))
  · exact (take_expected_calm _).bind fun quote => complete_quoted_token_calm _
  · exact complete_word_calm _

theorem skip_blank_calm (stop_at_newline : Bool) : Budgets A (skip_blank stop_at_newline) := by
  refine Budgets.iter (fun _ => peek_calm.bind fun byte => ?_) ()
  cases byte with
  | none => exact .done _
  | some byte =>
    refine .ite (skip_line_calm.bind fun _ => .ite (.done _) (.done _)) (.ite ?_ (.done _))
    exact take_calm.bind fun _ => .ite (.done _) (.done _)

theorem read_token_calm (stop_at_newline : Bool) : Budgets A (read_token stop_at_newline) := by
  refine Budgets.bind (.active .done) fun active => .ite ?_ (.fail _)
  refine (skip_blank_calm stop_at_newline).bind fun ended => .ite (.done _) (offset_calm.bind fun offset => ?_)
  refine take_calm.bind fun first => ?_
  cases first with
  | none => exact .done _
  | some first => exact (complete_token_calm first).bind fun bytes => .done _

theorem read_required_token_calm : Budgets A read_required_token := by
  refine (read_token_calm false).bind fun token => ?_
  cases token with
  | none => exact offset_calm.bind fun offset => invalid_calm offset _
  | some token => exact .done token

theorem expect_calm (expected : String) : Budgets A (expect expected) :=
  read_required_token_calm.bind fun _ => .ite (.done _) (invalid_calm _ _)

theorem consume_group_calm (opening : UInt8) : Budgets A (consume_group opening) := by
  unfold consume_group
  split
  · refine Budgets.iter (fun closing => ?_) _
    cases closing with
    | nil => exact .done _
    | cons expected outer =>
      refine read_required_token_calm.bind fun token => ?_
      split
      · split
        · exact .done _
        · exact .ite (.done _) (.ite (invalid_calm _ _) (.done _))
      · exact .done _
  · exact .fail _

theorem skip_body_calm : Budgets A skip_body := by
  refine Budgets.iter (fun state => take_calm.bind fun byte => ?_) ({} : BodyState)
  cases byte with
  | none => exact offset_calm.bind fun offset => invalid_calm offset _
  | some byte =>
    refine .ite (.done _) (.ite (.done _) (.ite ?_ (.ite (.done _) (.ite ?_ ?_))))
    · exact offset_calm.bind fun offset => invalid_calm _ _
    · exact offset_calm.bind fun offset => invalid_calm _ _
    refine .ite (.done _) (.ite (.done _) (.ite (.done _) (.ite (.done _) (.ite (.done _) (.ite (.done _) ?_)))))
    exact .ite (.ite (.done _) (.done _)) (.done _)

end stream

namespace header

open stream

theorem consume_group_calm (token : Token) : Budgets A (consume_group token) := by
  unfold consume_group
  split
  · exact stream.consume_group_calm _
  · exact .ite (invalid_calm _ _) (.done _)

theorem skip_flags_calm (opcode next : Token) : Budgets A (skip_flags opcode next) := by
  refine .ite (Budgets.iter (fun next => .ite ?_ (.done _)) next) (.done _)
  exact read_required_token_calm.bind fun next => .done _

theorem consume_constant_calm (token : Token) : Budgets A (consume_constant token) := by
  unfold consume_constant
  split
  · exact stream.consume_group_calm _
  refine .ite ((decode_calm _).bind fun _ => .done _) (.ite ?_ (.ite ?_ (.ite (.done _) (.ite (invalid_calm _ _) ?_))))
  · exact read_required_token_calm.bind fun symbol => (decode_calm _).bind fun _ => .done _
  · exact read_required_token_calm.bind fun string => .ite (.done _) (invalid_calm _ _)
  · refine read_required_token_calm.bind fun next => (skip_flags_calm token next).bind fun next => ?_
    exact .ite (stream.consume_group_calm _) (invalid_calm _ _)

theorem skip_addrspace_calm (operand : Token) : Budgets A (skip_addrspace operand) := by
  refine .ite ((expect_calm _).bind fun _ => ?_) (.done _)
  exact (stream.consume_group_calm _).bind fun _ => read_required_token_calm

theorem consume_typed_constant_calm : Budgets A consume_typed_constant := by
  refine read_required_token_calm.bind fun ty => (consume_group_calm ty).bind fun _ => ?_
  refine read_required_token_calm.bind fun value => .ite ?_ (consume_constant_calm value)
  exact (skip_addrspace_calm value).bind consume_constant_calm

theorem function_suffix_turn_calm : Budgets A (function_suffix_turn ()) := by
  refine read_required_token_calm.bind fun token => .ite (.done _) (.ite ?_ (.ite ?_ (.ite (invalid_calm _ _) ?_)))
  · exact consume_typed_constant_calm.bind fun _ => .done _
  · exact read_required_token_calm.bind fun metadata => (consume_group_calm metadata).bind fun _ => .done _
  · exact (consume_group_calm token).bind fun _ => .done _

theorem read_function_calm : Budgets A read_function := by
  refine Budgets.bind (Budgets.iter (fun _ => read_required_token_calm.bind fun token => ?_) ()) fun symbol => ?_
  · refine .ite ((decode_calm _).bind fun _ => .done _) (.ite (invalid_calm _ _) ?_)
    exact (consume_group_calm token).bind fun _ => .done _
  · refine (expect_calm _).bind fun _ => (stream.consume_group_calm _).bind fun _ => ?_
    exact (Budgets.iter (fun _ => function_suffix_turn_calm) ()).bind fun _ => .done _

theorem alias_suffix_turn_calm : Budgets A (alias_suffix_turn ()) := by
  refine (read_token_calm true).bind fun token => ?_
  cases token with
  | none => exact .done _
  | some token =>
    refine .ite (invalid_calm _ _) (read_required_token_calm.bind fun suffix => .ite ?_ (.ite (invalid_calm _ _) ?_))
    · exact read_required_token_calm.bind fun metadata => (consume_group_calm metadata).bind fun _ => .done _
    · exact read_required_token_calm.bind fun name => .ite (.done _) (invalid_calm _ _)

theorem read_alias_operand_calm : Budgets A read_alias_operand := by
  refine read_required_token_calm.bind fun operand => .ite ?_ (.ite (invalid_calm _ _) ?_)
  · refine read_required_token_calm.bind fun pointer => (skip_addrspace_calm pointer).bind fun target => .ite ?_ ?_
    · exact (decode_calm _).bind fun _ => .done _
    · exact (consume_constant_calm target).bind fun _ => .done _
  · exact (consume_constant_calm operand).bind fun _ => .done _

theorem read_alias_target_calm : Budgets A read_alias_target := by
  refine read_required_token_calm.bind fun first => .ite (invalid_calm _ _) ((consume_group_calm first).bind fun _ => ?_)
  refine Budgets.bind (Budgets.iter (fun _ => read_required_token_calm.bind fun token => ?_) ()) fun _ => ?_
  · exact .ite (.done _) (.ite (invalid_calm _ _) ((consume_group_calm token).bind fun _ => .done _))
  · refine read_alias_operand_calm.bind fun target => ?_
    exact (Budgets.iter (fun _ => alias_suffix_turn_calm) ()).bind fun _ => .done _

end header

open stream header

theorem end_header_calm : Calm end_header := .budget rfl (.done ())

theorem global_kind_turn_calm : Calm (global_kind_turn ()) := by
  refine read_required_token_calm.bind fun token => .ite ?_ (.ite ?_ (.ite ?_ ?_))
  · exact end_header_calm.bind fun _ => skip_line_calm.bind fun _ => .done _
  · exact read_alias_target_calm.bind fun _ => .done _
  · exact read_alias_target_calm.bind fun _ => .done _
  · refine .ite (.done _) (.ite ?_ (.ite ?_ (invalid_calm _ _)))
    · exact (expect_calm _).bind fun _ => (stream.consume_group_calm _).bind fun _ => .done _
    · exact (stream.consume_group_calm _).bind fun _ => .done _

theorem read_global_kind_calm : Calm read_global_kind := Budgets.iter (fun _ => global_kind_turn_calm) ()

theorem invalid_record_calm {α : Type} (start : Nat) (result : Except records.Error α) :
    Budgets A (invalid_record start result) := by
  cases result with
  | ok value => exact .done value
  | error error => exact .fail _

theorem finish_definition_calm (symbol : String) (start : Nat) (kind : LlvmDefinitionKind) :
    Budgets A (finish_definition symbol start kind) :=
  offset_calm.bind fun _ => (invalid_record_calm start _).bind fun _ => invalid_record_calm start _

theorem read_prefix_bytes_calm (count : Nat) : Budgets A (read_prefix_bytes count) := by
  induction count with
  | zero => exact .done _
  | succ count ih =>
    refine take_calm.bind fun byte => ?_
    cases byte with
    | none => exact .done _
    | some byte => exact .ite (.done _) (ih.bind fun bytes => .done _)

theorem starts_function_calm (keyword : List UInt8) : Budgets A (starts_function keyword) :=
  .ite (peek_calm.bind fun _ => .done _) (.done _)

end optic.llvm_index
