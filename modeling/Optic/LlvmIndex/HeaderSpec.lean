import Optic.LlvmIndex.StreamSpec
import Optic.LlvmIndex.Header

open byte_scan rust optic.records

namespace optic.llvm_index

/-- A token that the tokenizer read, so that its quotes and escapes are complete. -/
def Token.Valid (token : Token) : Prop := ∃ rest, Lexeme token.bytes rest

theorem ReadToken.valid {stop : Bool} {s s' : Contiguous} {token : Token} (h : ReadToken stop s token s') :
    token.Valid := by
  obtain ⟨_, -, -, -, -, hlexeme⟩ := h
  exact ⟨_, hlexeme⟩

namespace header

variable {s : Contiguous}

/-- Decoding reads nothing. -/
theorem decode_spec {token : Token} (htoken : token.Valid) :
    Ensures (Scan.ofExcept token.decode_symbol) s fun symbol s' =>
      token.decode_symbol = .ok symbol ∧ s' = s := by
  obtain ⟨rest, hlexeme⟩ := htoken
  cases hdecode : token.decode_symbol with
  | ok symbol => exact Meets.done ⟨rfl, rfl⟩
  | error error =>
    refine Meets.fail fun message h => ?_
    exact Token.decode_symbol_ne_panicked hlexeme message (by rw [hdecode, h])

theorem group_onward (hactive : s.header_start.isSome) {opening : UInt8}
    (hopening : (matching_close opening).isSome) :
    Ensures (stream.consume_group opening) s fun _ s' => Onward s s' := by
  obtain ⟨close, hclose⟩ := Option.isSome_iff_exists.mp hopening
  refine (stream.consume_group_spec hactive hclose).mono fun _ s' hgroup => ?_
  obtain ⟨q, inner, hq, hlexes, -⟩ := hgroup
  exact ⟨q, hq, hlexes.getLast?_ne_lf⟩

theorem opening_isSome {token : Token} {byte : UInt8} (h : opening token = some byte) :
    (matching_close byte).isSome := by
  unfold opening at h
  split at h
  · split at h
    · next hclose => exact (Option.some.inj h) ▸ hclose
    · cases h
  · cases h

theorem consume_group_spec (hactive : s.header_start.isSome) (token : Token) :
    Ensures (consume_group token) s fun _ s' => Onward s s' := by
  unfold consume_group
  split
  · next byte hopening => exact group_onward hactive (opening_isSome hopening)
  · exact Meets.ite (fun _ => stream.invalid_spec) fun _ => Meets.pure (Onward.refl s)

/-- A token is read and only its position matters. -/
theorem read_spec (hactive : s.header_start.isSome) :
    Ensures stream.read_required_token s fun (token : Token) s' => Within s s' ∧ token.Valid :=
  (stream.read_required_token_spec hactive).mono fun _ _ h => ⟨h.within, h.valid⟩

theorem expect_spec (hactive : s.header_start.isSome) (expected : String) :
    Ensures (stream.expect expected) s fun _ s' => Within s s' := by
  refine (stream.expect_spec hactive expected).mono fun _ s' h => ?_
  obtain ⟨token, htoken, -⟩ := h
  exact htoken.within

theorem skip_flags_spec (hactive : s.header_start.isSome) (opcode : Token) {next : Token} (hnext : next.Valid) :
    Ensures (skip_flags opcode next) s fun (token : Token) s' => Onward s s' ∧ token.Valid := by
  refine Meets.ite (fun _ => ?_) fun _ => Meets.pure ⟨Onward.refl s, hnext⟩
  refine Meets.iter (I := fun (next : Token) s => s.header_start.isSome ∧ next.Valid)
    (Q := fun _ s (token : Token) s' => Onward s s' ∧ token.Valid) (fun next s h => ?_) next s ⟨hactive, hnext⟩
  refine Meets.ite (fun _ => ?_) fun _ => Meets.done ⟨Onward.refl s, h.2⟩
  refine (read_spec h.1).bind fun token s1 hread => ?_
  exact Meets.done ⟨hread.1.remaining_lt, ⟨hread.1.active h.1, hread.2⟩,
    fun _ s2 h => ⟨hread.1.onward.trans h.1, h.2⟩⟩

theorem consume_constant_spec (hactive : s.header_start.isSome) {token : Token} (htoken : token.Valid) :
    Ensures (consume_constant token) s fun _ s' => Onward s s' := by
  unfold consume_constant
  split
  · next byte hopening => exact group_onward hactive (opening_isSome hopening)
  refine Meets.ite (fun _ => ?_) fun _ => ?_
  · refine (decode_spec htoken).bind fun _ s1 h => ?_
    obtain ⟨-, rfl⟩ := h
    exact Meets.pure (Onward.refl _)
  refine Meets.ite (fun _ => ?_) fun _ => ?_
  · refine (read_spec hactive).bind fun symbol s1 hread => ?_
    refine (decode_spec hread.2).bind fun _ s2 h => ?_
    obtain ⟨-, rfl⟩ := h
    exact Meets.pure hread.1.onward
  refine Meets.ite (fun _ => ?_) fun _ => ?_
  · refine (read_spec hactive).bind fun string s1 hread => ?_
    exact Meets.ite (fun _ => Meets.pure hread.1.onward) fun _ => stream.invalid_spec
  refine Meets.ite (fun _ => Meets.pure (Onward.refl s)) fun _ => ?_
  refine Meets.ite (fun _ => stream.invalid_spec) fun _ => ?_
  refine (read_spec hactive).bind fun next s1 hread => ?_
  refine (skip_flags_spec (hread.1.active hactive) token hread.2).bind fun operands s2 hflags => ?_
  have hs2 := hread.1.onward.trans hflags.1
  refine Meets.ite (fun _ => ?_) fun _ => stream.invalid_spec
  exact (group_onward (hs2.active hactive) (by decide)).mono fun _ s3 h => hs2.trans h

theorem skip_addrspace_spec (hactive : s.header_start.isSome) {operand : Token} (hoperand : operand.Valid) :
    Ensures (skip_addrspace operand) s fun (token : Token) s' => Onward s s' ∧ token.Valid := by
  refine Meets.ite (fun _ => ?_) fun _ => Meets.pure ⟨Onward.refl s, hoperand⟩
  refine (expect_spec hactive "(").bind fun _ s1 hs1 => ?_
  refine (group_onward (hs1.active hactive) (by decide)).bind fun _ s2 hgroup => ?_
  have hs2 := hs1.onward.trans hgroup
  refine (read_spec (hs2.active hactive)).mono fun token s3 hread => ?_
  exact ⟨hs2.trans hread.1.onward, hread.2⟩

theorem consume_typed_constant_spec (hactive : s.header_start.isSome) :
    Ensures consume_typed_constant s fun _ s' => Onward s s' := by
  refine (read_spec hactive).bind fun ty s1 hty => ?_
  refine (consume_group_spec (hty.1.active hactive) ty).bind fun _ s2 hgroup => ?_
  have hs2 := hty.1.onward.trans hgroup
  refine (read_spec (hs2.active hactive)).bind fun value s3 hvalue => ?_
  have hs3 := hs2.trans hvalue.1.onward
  refine Meets.ite (fun _ => ?_) fun _ => ?_
  · refine (skip_addrspace_spec (hs3.active hactive) hvalue.2).bind fun operand s4 hoperand => ?_
    have hs4 := hs3.trans hoperand.1
    exact (consume_constant_spec (hs4.active hactive) hoperand.2).mono fun _ s5 h => hs4.trans h
  · exact (consume_constant_spec (hs3.active hactive) hvalue.2).mono fun _ s4 h => hs3.trans h

/-- A header loop that stops inside a line when each of its turns does, and whose turns
go around only after a token. -/
theorem loop_within {β : Type} {turn : Unit → Program (Unit ⊕ β)} (hactive : s.header_start.isSome)
    (hturn : ∀ s, s.header_start.isSome → Ensures (turn ()) s fun _ s' => Within s s') :
    Ensures (Scan.iter turn ()) s fun _ s' => Within s s' := by
  refine Meets.iter (I := fun _ s => s.header_start.isSome) (Q := fun _ s _ s' => Within s s')
    (fun _ s hactive => ?_) () s hactive
  refine (hturn s hactive).mono fun next s1 h => ?_
  cases next with
  | inl _ => exact ⟨h.remaining_lt, h.active hactive, fun _ _ h' => h.trans h'⟩
  | inr _ => exact h

theorem function_name_turn_spec (hactive : s.header_start.isSome) :
    Ensures (function_name_turn ()) s fun _ s' => Within s s' := by
  refine (read_spec hactive).bind fun token s1 hread => ?_
  refine Meets.ite (fun _ => ?_) fun _ => Meets.ite (fun _ => stream.invalid_spec) fun _ => ?_
  · refine (decode_spec hread.2).bind fun _ s2 h => ?_
    obtain ⟨-, rfl⟩ := h
    exact Meets.done hread.1
  · refine (consume_group_spec (hread.1.active hactive) token).bind fun _ s2 h => ?_
    exact Meets.done (hread.1.trans_onward h)

theorem function_suffix_turn_spec (hactive : s.header_start.isSome) :
    Ensures (function_suffix_turn ()) s fun _ s' => Within s s' := by
  refine (read_spec hactive).bind fun token s1 hread => ?_
  have hactive' := hread.1.active hactive
  refine Meets.ite (fun _ => Meets.done hread.1) fun _ => ?_
  refine Meets.ite (fun _ => ?_) fun _ => ?_
  · refine (consume_typed_constant_spec hactive').bind fun _ s2 h => ?_
    exact Meets.done (hread.1.trans_onward h)
  refine Meets.ite (fun _ => ?_) fun _ => Meets.ite (fun _ => stream.invalid_spec) fun _ => ?_
  · refine (read_spec hactive').bind fun metadata s2 hmetadata => ?_
    refine (consume_group_spec (hmetadata.1.active hactive') metadata).bind fun _ s3 h => ?_
    exact Meets.done (hread.1.trans (hmetadata.1.trans_onward h))
  · refine (consume_group_spec hactive' token).bind fun _ s2 h => ?_
    exact Meets.done (hread.1.trans_onward h)

/-- A function header ends behind its opening body brace. -/
theorem read_function_spec (hactive : s.header_start.isSome) :
    Ensures read_function s fun _ s' => Within s s' := by
  refine (loop_within hactive fun s h => function_name_turn_spec h).bind fun symbol s1 hs1 => ?_
  refine (expect_spec (hs1.active hactive) "(").bind fun _ s2 h => ?_
  have hs2 := hs1.trans h
  refine (group_onward (hs2.active hactive) (by decide)).bind fun _ s3 h => ?_
  have hs3 := hs2.trans_onward h
  refine (loop_within (hs3.active hactive) fun s h => function_suffix_turn_spec h).bind fun _ s4 h => ?_
  exact Meets.pure (hs3.trans h)

theorem alias_type_turn_spec (hactive : s.header_start.isSome) :
    Ensures (alias_type_turn ()) s fun _ s' => Within s s' := by
  refine (read_spec hactive).bind fun token s1 hread => ?_
  refine Meets.ite (fun _ => Meets.done hread.1) fun _ => Meets.ite (fun _ => stream.invalid_spec) fun _ => ?_
  refine (consume_group_spec (hread.1.active hactive) token).bind fun _ s2 h => ?_
  exact Meets.done (hread.1.trans_onward h)

theorem read_alias_operand_spec (hactive : s.header_start.isSome) :
    Ensures read_alias_operand s fun _ s' => Within s s' := by
  refine (read_spec hactive).bind fun operand s1 hread => ?_
  have hactive' := hread.1.active hactive
  refine Meets.ite (fun _ => ?_) fun _ => Meets.ite (fun _ => stream.invalid_spec) fun _ => ?_
  · refine (read_spec hactive').bind fun pointer s2 hpointer => ?_
    have hs2 := hread.1.trans hpointer.1
    refine (skip_addrspace_spec (hs2.active hactive) hpointer.2).bind fun target s3 htarget => ?_
    have hs3 := hs2.trans_onward htarget.1
    refine Meets.ite (fun _ => ?_) fun _ => ?_
    · refine (decode_spec htarget.2).bind fun _ s4 h => ?_
      obtain ⟨-, rfl⟩ := h
      exact Meets.pure hs3
    · refine (consume_constant_spec (hs3.active hactive) htarget.2).bind fun _ s4 h => ?_
      exact Meets.pure (hs3.trans_onward h)
  · refine (consume_constant_spec hactive' hread.2).bind fun _ s2 h => ?_
    exact Meets.pure (hread.1.trans_onward h)

/-- A partition or metadata suffix, or the end of the line that holds them. -/
theorem alias_suffix_turn_spec (hactive : s.header_start.isSome) :
    Ensures (alias_suffix_turn ()) s fun turn s' =>
      match turn with
      | .inl _ => Within s s'
      | .inr _ => ∃ q, Consumed s q s' ∧ LineEnd q s' := by
  refine (stream.read_token_spec hactive true).bind fun token s1 hread => ?_
  cases token with
  | none =>
    obtain ⟨q, hq, hend, -⟩ := hread
    exact Meets.done ⟨q, hq, hend rfl⟩
  | some token =>
    have hs1 := hread.within
    refine Meets.ite (fun _ => stream.invalid_spec) fun _ => ?_
    refine (read_spec (hs1.active hactive)).bind fun suffix s2 hsuffix => ?_
    have hs2 := hs1.trans hsuffix.1
    refine Meets.ite (fun _ => ?_) fun _ => Meets.ite (fun _ => stream.invalid_spec) fun _ => ?_
    · refine (read_spec (hs2.active hactive)).bind fun metadata s3 hmetadata => ?_
      have hs3 := hs2.trans hmetadata.1
      refine (consume_group_spec (hs3.active hactive) metadata).bind fun _ s4 h => ?_
      exact Meets.done (hs3.trans_onward h)
    · refine (read_spec (hs2.active hactive)).bind fun name s3 hname => ?_
      exact Meets.ite (fun _ => Meets.done (hs2.trans hname.1)) fun _ => stream.invalid_spec

/-- Where a run is that stopped inside a line and then read complete suffixes. -/
theorem alias_suffix_spec {start : Contiguous} (hactive : s.header_start.isSome) (hs : Within start s) :
    Ensures (Scan.iter alias_suffix_turn ()) s fun _ s' => EndsLine start s' := by
  refine (Meets.iter (I := fun _ s => s.header_start.isSome)
    (Q := fun _ s _ s' => ∀ start, Within start s → EndsLine start s') (fun _ s hactive => ?_) () s hactive).mono
    fun _ s' h => h start hs
  refine (alias_suffix_turn_spec hactive).mono fun turn s1 hturn => ?_
  cases turn with
  | inl _ => exact ⟨hturn.remaining_lt, hturn.active hactive, fun _ s2 h start hs => h start (hs.trans hturn)⟩
  | inr _ =>
    obtain ⟨q, hq, hend⟩ := hturn
    exact fun start hs => hs.line_end hq hend

/-- An alias or ifunc ends where its last line does. -/
theorem read_alias_target_spec (hactive : s.header_start.isSome) :
    Ensures read_alias_target s fun _ s' => EndsLine s s' := by
  refine (read_spec hactive).bind fun first s1 hread => ?_
  refine Meets.ite (fun _ => stream.invalid_spec) fun _ => ?_
  refine (consume_group_spec (hread.1.active hactive) first).bind fun _ s2 h => ?_
  have hs2 := hread.1.trans_onward h
  refine (loop_within (hs2.active hactive) fun s h => alias_type_turn_spec h).bind fun _ s3 h => ?_
  have hs3 := hs2.trans h
  refine (read_alias_operand_spec (hs3.active hactive)).bind fun target s4 h => ?_
  have hs4 := hs3.trans h
  refine (alias_suffix_spec (hs4.active hactive) hs4).bind fun _ s5 h => ?_
  exact Meets.pure h

end header

end optic.llvm_index
