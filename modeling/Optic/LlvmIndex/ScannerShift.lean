import Mathlib.Data.List.Forall2
import Optic.LlvmIndex.Shift
import Optic.LlvmIndex.Scanner

open byte_scan rust optic.records

namespace optic.llvm_index.header

variable {k lower : Nat}

theorem decode_shifts (token : Token) :
    Shifts k lower lower Eq (Scan.ofExcept token.decode_symbol) (Scan.ofExcept (token.shift k).decode_symbol) := by
  have hshift := token.decode_symbol_shift k
  cases hdecode : token.decode_symbol with
  | ok symbol =>
    rw [hdecode] at hshift
    rw [show (token.shift k).decode_symbol = .ok symbol from hshift]
    exact Coupled.done rfl
  | error error =>
    rw [hdecode] at hshift
    obtain ⟨error', herror, hshifted⟩ := hshift
    rw [herror]
    exact Coupled.fail hshifted

theorem consume_group_shifts (token : Token) :
    Shifts k lower lower Eq (consume_group token) (consume_group (token.shift k)) := by
  unfold consume_group opening closing
  simp only [Token.shift_bytes]
  split
  · exact stream.consume_group_shifts _
  · exact Coupled.ite Iff.rfl (fun _ => stream.invalid_shifts) fun _ => Coupled.pure rfl

theorem skip_flags_shifts (opcode next : Token) :
    Shifts k lower lower (fun token token' => token' = token.shift k) (skip_flags opcode next)
      (skip_flags (opcode.shift k) (next.shift k)) := by
  refine Coupled.ite Iff.rfl (fun _ => ?_) fun _ => Coupled.pure rfl
  refine stream.iter_shifts (W := fun next next' => next' = next.shift k) ?_ rfl
  rintro next _ rfl
  refine Coupled.ite Iff.rfl (fun _ => ?_) fun _ => stream.stop_shifts rfl
  refine stream.read_required_token_shifts.bind ?_
  rintro token _ rfl
  exact stream.again_shifts rfl

theorem consume_constant_shifts (token : Token) :
    Shifts k lower lower Eq (consume_constant token) (consume_constant (token.shift k)) := by
  unfold consume_constant opening
  simp only [Token.shift_bytes]
  split
  · exact stream.consume_group_shifts _
  refine Coupled.ite Iff.rfl (fun _ => ?_) fun _ => ?_
  · exact (decode_shifts token).bind fun _ _ _ => Coupled.pure rfl
  refine Coupled.ite Iff.rfl (fun _ => ?_) fun _ => ?_
  · refine stream.read_required_token_shifts.bind ?_
    rintro symbol _ rfl
    exact (decode_shifts symbol).bind fun _ _ _ => Coupled.pure rfl
  refine Coupled.ite Iff.rfl (fun _ => ?_) fun _ => ?_
  · refine stream.read_required_token_shifts.bind ?_
    rintro string _ rfl
    exact Coupled.ite Iff.rfl (fun _ => Coupled.pure rfl) fun _ => stream.invalid_shifts
  refine Coupled.ite Iff.rfl (fun _ => Coupled.pure rfl) fun _ => ?_
  refine Coupled.ite Iff.rfl (fun _ => stream.invalid_shifts) fun _ => ?_
  refine stream.read_required_token_shifts.bind ?_
  rintro next _ rfl
  refine (skip_flags_shifts token next).bind ?_
  rintro operands _ rfl
  exact Coupled.ite Iff.rfl (fun _ => stream.consume_group_shifts _) fun _ => stream.invalid_shifts

theorem skip_addrspace_shifts (operand : Token) :
    Shifts k lower lower (fun token token' => token' = token.shift k) (skip_addrspace operand)
      (skip_addrspace (operand.shift k)) := by
  refine Coupled.ite Iff.rfl (fun _ => ?_) fun _ => Coupled.pure rfl
  refine (stream.expect_shifts _).bind fun _ _ _ => ?_
  exact (stream.consume_group_shifts _).bind fun _ _ _ => stream.read_required_token_shifts

theorem consume_typed_constant_shifts :
    Shifts k lower lower Eq consume_typed_constant consume_typed_constant := by
  refine stream.read_required_token_shifts.bind ?_
  rintro ty _ rfl
  refine (consume_group_shifts ty).bind fun _ _ _ => ?_
  refine stream.read_required_token_shifts.bind ?_
  rintro value _ rfl
  refine Coupled.ite Iff.rfl (fun _ => ?_) fun _ => consume_constant_shifts value
  refine (skip_addrspace_shifts value).bind ?_
  rintro operand _ rfl
  exact consume_constant_shifts operand

theorem function_name_turn_shifts :
    Shifts k lower lower (Sum.LiftRel Eq Eq) (function_name_turn ()) (function_name_turn ()) := by
  refine stream.read_required_token_shifts.bind ?_
  rintro token _ rfl
  refine Coupled.ite Iff.rfl (fun _ => ?_) fun _ => ?_
  · refine (decode_shifts token).bind ?_
    rintro symbol _ rfl
    exact stream.stop_shifts rfl
  refine Coupled.ite Iff.rfl (fun _ => stream.invalid_shifts) fun _ => ?_
  exact (consume_group_shifts token).bind fun _ _ _ => stream.again_shifts rfl

theorem function_suffix_turn_shifts :
    Shifts k lower lower (Sum.LiftRel Eq Eq) (function_suffix_turn ()) (function_suffix_turn ()) := by
  refine stream.read_required_token_shifts.bind ?_
  rintro token _ rfl
  refine Coupled.ite Iff.rfl (fun _ => stream.stop_shifts rfl) fun _ => ?_
  refine Coupled.ite Iff.rfl (fun _ => ?_) fun _ => ?_
  · exact consume_typed_constant_shifts.bind fun _ _ _ => stream.again_shifts rfl
  refine Coupled.ite Iff.rfl (fun _ => ?_) fun _ => ?_
  · refine stream.read_required_token_shifts.bind ?_
    rintro metadata _ rfl
    exact (consume_group_shifts metadata).bind fun _ _ _ => stream.again_shifts rfl
  refine Coupled.ite Iff.rfl (fun _ => stream.invalid_shifts) fun _ => ?_
  exact (consume_group_shifts token).bind fun _ _ _ => stream.again_shifts rfl

theorem read_function_shifts : Shifts k lower lower Eq read_function read_function := by
  refine Coupled.bind (U := Eq) (stream.iter_shifts (W := Eq) (fun _ _ _ => function_name_turn_shifts) rfl) ?_
  rintro symbol _ rfl
  refine (stream.expect_shifts _).bind fun _ _ _ => ?_
  refine (stream.consume_group_shifts _).bind fun _ _ _ => ?_
  refine Coupled.bind (U := Eq) (stream.iter_shifts (W := Eq) (fun _ _ _ => function_suffix_turn_shifts) rfl) ?_
  exact fun _ _ _ => Coupled.pure rfl

theorem alias_type_turn_shifts :
    Shifts k lower lower (Sum.LiftRel Eq Eq) (alias_type_turn ()) (alias_type_turn ()) := by
  refine stream.read_required_token_shifts.bind ?_
  rintro token _ rfl
  refine Coupled.ite Iff.rfl (fun _ => stream.stop_shifts rfl) fun _ => ?_
  refine Coupled.ite Iff.rfl (fun _ => stream.invalid_shifts) fun _ => ?_
  exact (consume_group_shifts token).bind fun _ _ _ => stream.again_shifts rfl

theorem alias_suffix_turn_shifts :
    Shifts k lower lower (Sum.LiftRel Eq Eq) (alias_suffix_turn ()) (alias_suffix_turn ()) := by
  refine (stream.read_token_shifts true).bind ?_
  rintro token _ rfl
  cases token with
  | none => exact stream.stop_shifts rfl
  | some token =>
    refine Coupled.ite Iff.rfl (fun _ => stream.invalid_shifts) fun _ => ?_
    refine stream.read_required_token_shifts.bind ?_
    rintro suffix _ rfl
    refine Coupled.ite Iff.rfl (fun _ => ?_) fun _ => ?_
    · refine stream.read_required_token_shifts.bind ?_
      rintro metadata _ rfl
      exact (consume_group_shifts metadata).bind fun _ _ _ => stream.again_shifts rfl
    refine Coupled.ite Iff.rfl (fun _ => stream.invalid_shifts) fun _ => ?_
    refine stream.read_required_token_shifts.bind ?_
    rintro name _ rfl
    exact Coupled.ite Iff.rfl (fun _ => stream.again_shifts rfl) fun _ => stream.invalid_shifts

theorem read_alias_operand_shifts : Shifts k lower lower Eq read_alias_operand read_alias_operand := by
  refine stream.read_required_token_shifts.bind ?_
  rintro operand _ rfl
  refine Coupled.ite Iff.rfl (fun _ => ?_) fun _ => ?_
  · refine stream.read_required_token_shifts.bind ?_
    rintro pointer _ rfl
    refine (skip_addrspace_shifts pointer).bind ?_
    rintro target _ rfl
    refine Coupled.ite Iff.rfl (fun _ => ?_) fun _ => ?_
    · refine (decode_shifts target).bind ?_
      rintro symbol _ rfl
      exact Coupled.pure rfl
    · exact (consume_constant_shifts target).bind fun _ _ _ => Coupled.pure rfl
  refine Coupled.ite Iff.rfl (fun _ => stream.invalid_shifts) fun _ => ?_
  exact (consume_constant_shifts operand).bind fun _ _ _ => Coupled.pure rfl

theorem read_alias_target_shifts : Shifts k lower lower Eq read_alias_target read_alias_target := by
  refine stream.read_required_token_shifts.bind ?_
  rintro first _ rfl
  refine Coupled.ite Iff.rfl (fun _ => stream.invalid_shifts) fun _ => ?_
  refine (consume_group_shifts first).bind fun _ _ _ => ?_
  refine Coupled.bind (U := Eq) (stream.iter_shifts (W := Eq) (fun _ _ _ => alias_type_turn_shifts) rfl)
    fun _ _ _ => ?_
  refine read_alias_operand_shifts.bind ?_
  rintro target _ rfl
  refine Coupled.bind (U := Eq) (stream.iter_shifts (W := Eq) (fun _ _ _ => alias_suffix_turn_shifts) rfl) ?_
  exact fun _ _ _ => Coupled.pure rfl

end optic.llvm_index.header

namespace optic.llvm_index

variable {k lower : Nat}

theorem global_kind_turn_shifts :
    Shifts k lower lower (Sum.LiftRel Eq Eq) (global_kind_turn ()) (global_kind_turn ()) := by
  refine stream.read_required_token_shifts.bind ?_
  rintro token _ rfl
  refine Coupled.ite Iff.rfl (fun _ => ?_) fun _ => ?_
  · refine stream.end_header_shifts.bind fun _ _ _ => ?_
    exact stream.skip_line_shifts.bind fun _ _ _ => stream.stop_shifts rfl
  refine Coupled.ite Iff.rfl (fun _ => ?_) fun _ => ?_
  · refine header.read_alias_target_shifts.bind ?_
    rintro target _ rfl
    exact stream.stop_shifts rfl
  refine Coupled.ite Iff.rfl (fun _ => ?_) fun _ => ?_
  · exact header.read_alias_target_shifts.bind fun _ _ _ => stream.stop_shifts rfl
  refine Coupled.ite Iff.rfl (fun _ => stream.again_shifts rfl) fun _ => ?_
  refine Coupled.ite Iff.rfl (fun _ => ?_) fun _ => ?_
  · refine (stream.expect_shifts _).bind fun _ _ _ => ?_
    exact (stream.consume_group_shifts _).bind fun _ _ _ => stream.again_shifts rfl
  refine Coupled.ite Iff.rfl (fun _ => ?_) fun _ => stream.invalid_shifts
  exact (stream.consume_group_shifts _).bind fun _ _ _ => stream.again_shifts rfl

theorem read_global_kind_shifts : Shifts k lower lower Eq read_global_kind read_global_kind :=
  stream.iter_shifts (W := Eq) (fun _ _ _ => global_kind_turn_shifts) rfl

/-- The same record with its range `k` bytes further on. -/
structure ShiftedRecord (k : Nat) (definition definition' : LlvmDefinitionRecord) : Prop where
  raw_symbol : definition'.raw_symbol = definition.raw_symbol
  kind : definition'.kind = definition.kind
  start : definition'.range.start.toNat = definition.range.start.toNat + k
  length : definition'.range.length = definition.range.length

/-- A range that moves with room to spare is accepted exactly when it was. -/
theorem byte_range_new_shift {start length : Nat} (hfits : k = 0 ∨ start + length + k < UInt64.size) :
    (∃ range range', ByteRange.new (.ofNat start) (.ofNat length) = .ok range ∧
        ByteRange.new (.ofNat (start + k)) (.ofNat length) = .ok range' ∧
        range'.start.toNat = range.start.toNat + k ∧ range'.length = range.length) ∨
      k = 0 ∧ ∃ error, ByteRange.new (.ofNat start) (.ofNat length) = .error error := by
  obtain rfl | hfits := hfits
  · cases hrange : ByteRange.new (.ofNat start) (.ofNat length) with
    | ok range => exact Or.inl ⟨range, range, rfl, rfl, rfl, rfl⟩
    | error error => exact Or.inr ⟨rfl, error, rfl⟩
  · have hnat {value : Nat} (hvalue : value < UInt64.size) : (UInt64.ofNat value).toNat = value := by
      rw [UInt64.toNat_ofNat', Nat.mod_eq_of_lt hvalue]
    have hstart := hnat (show start < UInt64.size by omega)
    have hstart' := hnat (show start + k < UInt64.size by omega)
    have hlength := hnat (show length < UInt64.size by omega)
    refine Or.inl ⟨⟨.ofNat start, .ofNat length, by omega⟩, ⟨.ofNat (start + k), .ofNat length, by omega⟩,
      ByteRange.new_eq_ok_iff.mpr ⟨rfl, rfl⟩, ByteRange.new_eq_ok_iff.mpr ⟨rfl, rfl⟩, ?_, rfl⟩
    rw [hstart, hstart']

/-- A record constructor looks only at the names. -/
theorem definition_new_shift {symbol : String} {kind : LlvmDefinitionKind} {range range' : ByteRange}
    (hstart : range'.start.toNat = range.start.toNat + k) (hlength : range'.length = range.length) (start : Nat) :
    Shifts k lower lower (ShiftedRecord k) (invalid_record start (LlvmDefinitionRecord.new symbol range kind))
      (invalid_record (start + k) (LlvmDefinitionRecord.new symbol range' kind)) := by
  unfold LlvmDefinitionRecord.new
  cases require_text "LLVM raw symbol" symbol with
  | error error => exact Coupled.fail (.invalid _ _)
  | ok named =>
    rw [ok_bind, ok_bind]
    cases kind.require_target with
    | error error => exact Coupled.fail (.invalid _ _)
    | ok target => exact Coupled.done ⟨rfl, rfl, hstart, hlength⟩

theorem finish_definition_shifts (symbol : String) {start : Nat} (kind : LlvmDefinitionKind)
    (hstart : start ≤ lower) :
    Shifts k lower lower (ShiftedRecord k) (finish_definition symbol start kind)
      (finish_definition symbol (start + k) kind) := by
  intro s t h
  have hlower := h.lower_le
  have hfits := h.fits
  have hlength : t.offset - (start + k) = s.offset - start := by rw [h.offset, Nat.add_sub_add_right]
  unfold finish_definition
  simp only [run_bind]
  change RunsCoupled _ _ _ (andThen ((invalid_record start (ByteRange.new (.ofNat start)
    (.ofNat (s.offset - start)))).run s) _) (andThen ((invalid_record (start + k) (ByteRange.new (.ofNat (start + k))
    (.ofNat (t.offset - (start + k))))).run t) _)
  rw [hlength]
  obtain ⟨range, range', hrange, hrange', hbegin, hlength⟩ | ⟨rfl, error, hrange⟩ :=
    byte_range_new_shift (show k = 0 ∨ start + (s.offset - start) + k < UInt64.size by omega)
  · rw [hrange, hrange']
    exact definition_new_shift hbegin hlength start s t h
  · rw [Nat.add_zero, hrange]
    exact ⟨_, rfl, .invalid _ _⟩

/-- An optional record that shifts. -/
def ShiftedItem (k : Nat) : Option LlvmDefinitionRecord → Option LlvmDefinitionRecord → Prop :=
  Option.Rel (ShiftedRecord k)

theorem read_global_definition_shifts {start : Nat} (hstart : start ≤ lower) :
    Shifts k lower lower (ShiftedItem k) (read_global_definition start) (read_global_definition (start + k)) := by
  refine (stream.begin_header_shifts start).bind fun _ _ _ => ?_
  refine stream.read_required_token_shifts.bind ?_
  rintro symbol _ rfl
  refine (stream.expect_shifts _).bind fun _ _ _ => ?_
  refine read_global_kind_shifts.bind ?_
  rintro kind _ rfl
  cases kind with
  | none => exact stream.end_header_shifts.bind fun _ _ _ => Coupled.pure Option.Rel.none
  | some kind =>
    refine (header.decode_shifts symbol).bind ?_
    rintro name _ rfl
    refine (finish_definition_shifts name kind hstart).bind fun definition definition' h => ?_
    exact stream.end_header_shifts.bind fun _ _ _ => Coupled.pure (Option.Rel.some h)

theorem read_function_definition_shifts {start : Nat} (hstart : start ≤ lower) :
    Shifts k lower lower (ShiftedRecord k) (read_function_definition start)
      (read_function_definition (start + k)) := by
  refine (stream.begin_header_shifts start).bind fun _ _ _ => ?_
  refine header.read_function_shifts.bind ?_
  rintro symbol _ rfl
  refine stream.end_header_shifts.bind fun _ _ _ => ?_
  exact stream.skip_body_shifts.bind fun _ _ _ => finish_definition_shifts symbol .Function hstart

theorem read_prefix_bytes_shifts (count : Nat) : Shifts k lower lower Eq (read_prefix_bytes count) (read_prefix_bytes count) := by
  induction count with
  | zero => exact Coupled.pure rfl
  | succ count ih =>
    refine stream.take_shifts.bind ?_
    rintro byte _ rfl
    cases byte with
    | none => exact Coupled.pure rfl
    | some byte =>
      refine Coupled.ite Iff.rfl (fun _ => Coupled.pure rfl) fun _ => ih.bind ?_
      rintro bytes _ rfl
      exact Coupled.pure rfl

theorem read_keyword_prefix_shifts :
    Shifts k lower lower Eq read_keyword_prefix read_keyword_prefix := by
  refine (read_prefix_bytes_shifts 6).bind ?_
  rintro bytes _ rfl
  exact Coupled.pure rfl

theorem starts_function_shifts (keyword : List UInt8) :
    Shifts k lower lower Eq (starts_function keyword) (starts_function keyword) := by
  refine Coupled.ite Iff.rfl (fun _ => stream.peek_shifts.bind ?_) fun _ => Coupled.pure rfl
  rintro next _ rfl
  exact Coupled.pure rfl

theorem scan_keyword_shifts {start : Nat} (hstart : start ≤ lower) (keyword : List UInt8) :
    Shifts k lower lower (ShiftedItem k) (scan_keyword start keyword) (scan_keyword (start + k) keyword) := by
  refine (starts_function_shifts keyword).bind ?_
  rintro starts _ rfl
  refine Coupled.ite Iff.rfl (fun _ => ?_) fun _ => ?_
  · exact (read_function_definition_shifts hstart).bind fun _ _ h => Coupled.pure (Option.Rel.some h)
  refine Coupled.ite Iff.rfl (fun _ => Coupled.pure Option.Rel.none) fun _ => ?_
  exact stream.skip_line_shifts.bind fun _ _ _ => Coupled.pure Option.Rel.none

theorem scan_item_shifts (byte : UInt8) :
    Shifts k 0 0 (ShiftedItem k) (scan_item byte) (scan_item byte) := by
  refine Coupled.ite Iff.rfl (fun _ => ?_) fun _ => ?_
  · exact stream.take_shifts.bind fun _ _ _ => Coupled.pure Option.Rel.none
  refine stream.offset_bind fun start => ?_
  refine Coupled.ite Iff.rfl (fun _ => read_global_definition_shifts (Nat.le_refl _)) fun _ => ?_
  refine Coupled.ite Iff.rfl (fun _ => ?_) fun _ => scan_keyword_shifts (Nat.le_refl _) _
  refine read_keyword_prefix_shifts.bind ?_
  rintro keyword _ rfl
  exact scan_keyword_shifts (Nat.le_refl _) keyword

/-- A scan that starts with records of its own adds the same records, shifted. -/
theorem scan_shifts (found : List LlvmDefinitionRecord) :
    Shifts k 0 0 (fun definitions definitions' => ∃ shifted, definitions' = found ++ shifted ∧
      List.Forall₂ (ShiftedRecord k) definitions shifted) scan (Scan.iter scan_turn found) := by
  refine stream.iter_shifts (W := fun definitions definitions' => ∃ shifted, definitions' = found ++ shifted ∧
    List.Forall₂ (ShiftedRecord k) definitions shifted) ?_ ⟨[], by simp, List.Forall₂.nil⟩
  rintro definitions _ ⟨shifted, rfl, hshifted⟩
  refine stream.peek_shifts.bind ?_
  rintro byte _ rfl
  cases byte with
  | none => exact stream.stop_shifts ⟨shifted, rfl, hshifted⟩
  | some byte =>
    refine (scan_item_shifts byte).bind fun definition definition' h => stream.again_shifts ?_
    refine ⟨shifted ++ definition'.toList, by simp, ?_⟩
    cases h with
    | none => simpa using hshifted
    | some h => exact List.rel_append hshifted (List.Forall₂.cons h List.Forall₂.nil)

end optic.llvm_index
