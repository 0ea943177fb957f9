import Optic.LlvmIndex.Identifier
import Optic.LlvmIndex.Index

open byte_scan rust optic.records

namespace optic.llvm_index

variable {s s' s'' : Contiguous}

namespace header

/-- A token and the group that it may open are one piece of a header. -/
theorem consume_group_piece (hactive : s.header_start.isSome) (token : Token) :
    Ensures (consume_group token) s fun _ s' => ∃ q tail, Consumed s q s' ∧ Lexes q tail s'.rest ∧
      Piece (token.bytes :: tail) := by
  unfold consume_group
  split
  · next byte hopening =>
    obtain ⟨close, hclose⟩ := Option.isSome_iff_exists.mp (opening_isSome hopening)
    have hbytes : token.bytes = [byte] := by
      unfold opening at hopening
      split at hopening
      · next first hfirst =>
        split at hopening
        · rw [hfirst, Option.some.inj hopening]
        · cases hopening
      · cases hopening
    refine (stream.consume_group_spec hactive hclose).mono fun _ s' hgroup => ?_
    obtain ⟨q, inner, hq, hlexes, hbalanced⟩ := hgroup
    rw [hbytes]
    exact ⟨q, _, hq, hlexes, .group hclose hbalanced⟩
  · next hopening =>
    refine Meets.ite (fun _ => stream.invalid_spec) fun hclosing => Meets.pure ?_
    refine ⟨[], [], Consumed.refl s, .nil, .token fun byte hbyte => ?_⟩
    simp only [opening, hbyte] at hopening
    simp only [closing, hbyte] at hclosing
    refine ⟨?_, hclosing⟩
    by_contra hsome
    rw [if_pos (Option.ne_none_iff_isSome.mp hsome)] at hopening
    cases hopening

/-- The name of a function: the first identifier behind the pieces of its prefix. -/
structure NamesFunction (s s' : Contiguous) (q : List UInt8) (token : Token) : Prop where
  consumed : Consumed s q s'
  prefixed : ∃ pieces, FunctionPrefix pieces ∧ Lexes q (pieces ++ [token.bytes]) s'.rest
  valid : token.Valid
  ends : token.offset + token.bytes.length = s'.offset

theorem ReadToken.ends {stop : Bool} {token : Token} (h : ReadToken stop s token s') :
    token.offset + token.bytes.length = s'.offset := by
  obtain ⟨gap, hconsumed, hoffset, -⟩ := h
  rw [hoffset, hconsumed.offset, List.length_append, Nat.add_assoc]

theorem function_name_spec (hactive : s.header_start.isSome) :
    Ensures (Scan.iter function_name_turn ()) s fun symbol s' => ∃ q token, NamesFunction s s' q token ∧
      token.decode_symbol = .ok symbol := by
  refine Meets.iter (I := fun _ s => s.header_start.isSome) (Q := fun _ s symbol s' => ∃ q token,
    NamesFunction s s' q token ∧ token.decode_symbol = .ok symbol) (fun _ s hactive => ?_) () s hactive
  refine (stream.read_required_token_spec hactive).bind fun token s1 htoken => ?_
  have hvalid := htoken.valid
  have hends := ReadToken.ends htoken
  obtain ⟨gap, hconsumed, -, hgap, hvisible, hlexeme⟩ := htoken
  have hactive' := hconsumed.active hactive
  refine Meets.ite (fun _ => ?_) fun hat => Meets.ite (fun _ => stream.invalid_spec) fun hword => ?_
  · refine (decode_spec hvalid).bind fun symbol s2 h => ?_
    obtain ⟨hdecode, rfl⟩ := h
    refine Meets.done ⟨_, token, ⟨hconsumed, ⟨[], .nil, ?_⟩, hvalid, hends⟩, hdecode⟩
    have hlexes := Lexes.cons hgap hvisible (by simpa using hlexeme) (@Lexes.nil s2.rest)
    simpa using hlexes
  · refine (consume_group_piece hactive' token).bind fun _ s2 h => ?_
    obtain ⟨q, tail, hq, hlexes, hpiece⟩ := h
    refine Meets.done ⟨(hconsumed.trans hq).remaining_lt (by simp [hlexeme.ne_nil]), hq.active hactive', ?_⟩
    rintro symbol s3 ⟨q', name, ⟨hq', ⟨pieces, hpieces, hlexes'⟩, hname, hends'⟩, hdecode⟩
    refine ⟨_, name, ⟨(hconsumed.trans hq).trans hq', ⟨token.bytes :: tail ++ pieces, ?_, ?_⟩, hname, hends'⟩, hdecode⟩
    · refine Pieces.cons hpiece ⟨?_, ?_⟩ hpieces
      · simpa [starts_with] using hat
      · simpa [Token.is_any] using hword
    · have hfirst : Lexes (gap ++ token.bytes ++ q) (token.bytes :: tail) (q' ++ s3.rest) := by
        rw [← hq'.rest]
        exact .cons hgap hvisible (by rwa [← hq.rest]) hlexes
      simpa using hfirst.append hlexes'

theorem read_function_names (hactive : s.header_start.isSome) :
    Ensures read_function s fun symbol s' => ∃ q token s1 behind, NamesFunction s s1 q token ∧
      token.decode_symbol = .ok symbol ∧ Consumed s1 behind s' := by
  refine (function_name_spec hactive).bind fun symbol s1 h => ?_
  obtain ⟨q, token, hname, hdecode⟩ := h
  refine (expect_spec (hname.consumed.active hactive) "(").bind fun _ s2 hs2 => ?_
  have hactive2 := hs2.active (hname.consumed.active hactive)
  refine (group_onward hactive2 (by decide)).bind fun _ s3 hs3 => ?_
  have hs3 := hs2.trans_onward hs3
  refine (loop_within (hs3.active (hname.consumed.active hactive)) fun s h => function_suffix_turn_spec h).bind
    fun _ s4 hs4 => ?_
  obtain ⟨behind, hbehind, -⟩ := (hs3.trans hs4).onward
  exact Meets.pure ⟨q, token, s1, behind, hname, hdecode, hbehind⟩

/-- A run over tokens and groups, none of them a comma. -/
def Skips (s s' : Contiguous) : Prop :=
  ∃ q pieces, Consumed s q s' ∧ Pieces (· ≠ text ",") pieces ∧ Lexes q pieces s'.rest

theorem Skips.refl (s : Contiguous) : Skips s s := ⟨[], [], Consumed.refl s, .nil, .nil⟩

theorem Pieces.append {allowed : List UInt8 → Prop} {pieces pieces' : List (List UInt8)} (h : Pieces allowed pieces)
    (h' : Pieces allowed pieces') : Pieces allowed (pieces ++ pieces') := by
  induction h with
  | nil => exact h'
  | cons hpiece hallowed htokens ih =>
    rw [List.append_assoc]
    exact .cons hpiece hallowed ih

theorem Skips.trans (h : Skips s s') (h' : Skips s' s'') : Skips s s'' := by
  obtain ⟨q, pieces, hq, hpieces, hlexes⟩ := h
  obtain ⟨q', pieces', hq', hpieces', hlexes'⟩ := h'
  exact ⟨q ++ q', pieces ++ pieces', hq.trans hq', Pieces.append hpieces hpieces', (hq'.rest ▸ hlexes).append hlexes'⟩

theorem Skips.active (h : Skips s s') (hs : s.header_start.isSome) : s'.header_start.isSome := by
  obtain ⟨q, pieces, hq, -⟩ := h
  exact hq.active hs

/-- A token that is no comma, and the rest of the piece that it starts. -/
theorem ReadToken.skips {stop : Bool} {token : Token} {q : List UInt8} {tail : List (List UInt8)}
    (h : ReadToken stop s token s') (hstop : stop = false) (hcomma : token.bytes ≠ text ",") (hq : Consumed s' q s'')
    (hlexes : Lexes q tail s''.rest) (hpiece : Piece (token.bytes :: tail)) : Skips s s'' := by
  obtain ⟨gap, hconsumed, -, hgap, hvisible, hlexeme⟩ := h
  subst hstop
  refine ⟨_, token.bytes :: tail ++ [], hconsumed.trans hq, .cons hpiece hcomma .nil, ?_⟩
  rw [List.append_nil]
  exact .cons hgap hvisible (by rwa [← hq.rest]) hlexes

theorem ReadToken.skips_token {token : Token} (h : ReadToken false s token s') (hordinary : Ordinary token.bytes)
    (hcomma : token.bytes ≠ text ",") : Skips s s' :=
  ReadToken.skips h rfl hcomma (Consumed.refl s') .nil (.token hordinary)

/-- A word, which no delimiter is. -/
theorem ordinary_of_length {token : List UInt8} (h : token.length ≠ 1) : Ordinary token := by
  rintro byte rfl
  exact absurd rfl h

/-- The operand of a direct alias: the identifier behind the first comma, `ptr` and an
address space. -/
structure NamesOperand (s s' : Contiguous) (operand : Token) : Prop where
  placed : ∃ q behind pieces space, Consumed s (q ++ behind) s' ∧ Pieces (· ≠ text ",") pieces ∧ Addrspace space ∧
    Lexes q (pieces ++ text "," :: text "ptr" :: (space ++ [operand.bytes])) (behind ++ s'.rest) ∧
    operand.offset + operand.bytes.length = s.offset + q.length
  valid : operand.Valid

theorem Skips.operand {operand : Token} (h : Skips s s') (h' : NamesOperand s' s'' operand) :
    NamesOperand s s'' operand := by
  obtain ⟨q, pieces, hq, hpieces, hlexes⟩ := h
  obtain ⟨q', behind, pieces', space, hq', hpieces', hspace, hlexes', hends⟩ := h'.placed
  refine ⟨⟨q ++ q', behind, pieces ++ pieces', space, ?_, Pieces.append hpieces hpieces', hspace, ?_, ?_⟩, h'.valid⟩
  · simpa using hq.trans hq'
  · rw [hq'.rest, List.append_assoc] at hlexes
    simpa using hlexes.append hlexes'
  · rw [hends, hq.offset, List.length_append]
    omega

theorem NamesOperand.behind {operand : Token} {q : List UInt8} (h : NamesOperand s s' operand) (hq : Consumed s' q s'') :
    NamesOperand s s'' operand := by
  obtain ⟨q', behind, pieces, space, hconsumed, hpieces, hspace, hlexes, hends⟩ := h.placed
  refine ⟨⟨q', behind ++ q, pieces, space, ?_, hpieces, hspace, ?_, hends⟩, h.valid⟩
  · simpa using hconsumed.trans hq
  · rwa [List.append_assoc, ← hq.rest]

/-- The tokens of an address space, and the operand behind them. -/
theorem skip_addrspace_names (hactive : s.header_start.isSome) {first : Token} {gap : List UInt8} {s0 : Contiguous}
    (hgap : Blank false gap) (hvisible : Visible first.bytes) (hlexeme : Lexeme first.bytes s.rest) (hvalid : first.Valid)
    (hconsumed : Consumed s0 (gap ++ first.bytes) s) (hends : first.offset + first.bytes.length = s.offset) :
    Ensures (skip_addrspace first) s fun operand s' => operand.Valid ∧ operand.offset + operand.bytes.length = s'.offset ∧
      ∃ q space, Consumed s0 q s' ∧ Addrspace space ∧ Lexes q (space ++ [operand.bytes]) s'.rest := by
  refine Meets.ite (fun hspace => ?_) fun _ => ?_
  · refine (stream.expect_spec hactive "(").bind fun _ s1 h => ?_
    obtain ⟨token, htoken, hopen⟩ := h
    obtain ⟨gap1, hconsumed1, -, hgap1, hvisible1, hlexeme1⟩ := htoken
    have hactive1 := hconsumed1.active hactive
    have hclose : matching_close (ascii '(') = some (ascii ')') := by decide
    refine (stream.consume_group_spec hactive1 hclose).bind fun _ s2 h => ?_
    obtain ⟨q2, inner, hconsumed2, hlexes2, hbalanced⟩ := h
    refine (stream.read_required_token_spec (hconsumed2.active hactive1)).mono fun operand s3 htoken3 => ?_
    have hends3 := ReadToken.ends htoken3
    have hvalid3 := htoken3.valid
    obtain ⟨gap3, hconsumed3, -, hgap3, hvisible3, hlexeme3⟩ := htoken3
    have hlast : Lexes (gap3 ++ operand.bytes) [operand.bytes] s3.rest := by
      simpa using Lexes.cons hgap3 hvisible3 (by simpa using hlexeme3) (@Lexes.nil s3.rest)
    have hgroup : Lexes (q2 ++ (gap3 ++ operand.bytes)) (inner ++ [[ascii ')']] ++ [operand.bytes]) s3.rest :=
      Lexes.append (by rwa [← hconsumed3.rest]) hlast
    have hbehind : (q2 ++ (gap3 ++ operand.bytes)) ++ s3.rest = s1.rest := (hconsumed2.trans hconsumed3).rest.symm
    have hparen := Lexes.cons hgap1 hvisible1 (hbehind ▸ hlexeme1) hgroup
    have hall := Lexes.cons hgap hvisible (by
      rw [hconsumed1.rest, ← hbehind] at hlexeme
      simpa using hlexeme) hparen
    have htokens : first.bytes :: token.bytes :: (inner ++ [[ascii ')']] ++ [operand.bytes]) =
        text "addrspace" :: text "(" :: (inner ++ [text ")"]) ++ [operand.bytes] := by
      rw [hspace, hopen]
      rfl
    rw [htokens] at hall
    exact ⟨hvalid3, hends3, _, _, (hconsumed.trans hconsumed1).trans (hconsumed2.trans hconsumed3), .group hbalanced,
      by simpa only [List.append_assoc] using hall⟩
  · have hlexes := Lexes.cons hgap hvisible (by simpa using hlexeme) (@Lexes.nil s.rest)
    exact Meets.pure ⟨hvalid, hends, _, [], hconsumed, .nil, by simpa using hlexes⟩

/-- A direct target is the operand behind `ptr`. -/
theorem read_alias_operand_names (hactive : s.header_start.isSome) :
    Ensures read_alias_operand s fun target s' => ∀ name, target = some name →
      ∃ (operand : Token) (q : List UInt8) (space : List (List UInt8)), operand.Valid ∧ operand.decode_symbol = .ok name ∧ Consumed s q s' ∧
      operand.offset + operand.bytes.length = s'.offset ∧ Addrspace space ∧
      Lexes q (text "ptr" :: space ++ [operand.bytes]) s'.rest := by
  refine (stream.read_required_token_spec hactive).bind fun first s1 hfirst => ?_
  have hvalid := hfirst.valid
  obtain ⟨gap, hconsumed, -, hgap, hvisible, hlexeme⟩ := hfirst
  have hactive1 := hconsumed.active hactive
  refine Meets.ite (fun hptr => ?_) fun _ => Meets.ite (fun _ => stream.invalid_spec) fun _ => ?_
  · refine (stream.read_required_token_spec hactive1).bind fun next s2 hnext => ?_
    have hvalid2 := hnext.valid
    have hends2 := ReadToken.ends hnext
    obtain ⟨gap2, hconsumed2, -, hgap2, hvisible2, hlexeme2⟩ := hnext
    have hactive2 := hconsumed2.active hactive1
    refine ((skip_addrspace_spec hactive2 hvalid2).and
      (skip_addrspace_names hactive2 hgap2 hvisible2 hlexeme2 hvalid2 hconsumed2 hends2)).bind fun operand s3 h => ?_
    obtain ⟨⟨honward, -⟩, hvalid3, hends3, q, space, hq, hspace, hlexes⟩ := h
    refine Meets.ite (fun _ => ?_) fun _ => ?_
    · refine (decode_spec hvalid3).bind fun name s4 h => ?_
      obtain ⟨hdecode, rfl⟩ := h
      refine Meets.pure fun other hother => ?_
      cases hother
      refine ⟨operand, _, space, hvalid3, hdecode, hconsumed.trans hq, hends3, hspace, ?_⟩
      have hall := Lexes.cons hgap hvisible (by rwa [← hq.rest]) hlexes
      rw [hptr] at hall ⊢
      exact hall
    · refine (consume_constant_spec (honward.active hactive2) hvalid3).bind fun _ s4 _ => ?_
      exact Meets.pure nofun
  · refine (consume_constant_spec hactive1 hvalid).bind fun _ s2 _ => ?_
    exact Meets.pure nofun

/-- The turns over the type of an alias pass it, and stop behind the comma. -/
theorem alias_type_skips (hactive : s.header_start.isSome) :
    Ensures (Scan.iter alias_type_turn ()) s fun _ s' => ∃ s1 token, Skips s s1 ∧ ReadToken false s1 token s' ∧
      token.bytes = text "," := by
  refine Meets.iter (I := fun _ s => s.header_start.isSome) (Q := fun _ s _ s' => ∃ s1 token, Skips s s1 ∧
    ReadToken false s1 token s' ∧ token.bytes = text ",") (fun _ s hactive => ?_) () s hactive
  refine (stream.read_required_token_spec hactive).bind fun token s1 htoken => ?_
  have hwithin := htoken.within
  refine Meets.ite (fun hcomma => ?_) fun hcomma => Meets.ite (fun _ => stream.invalid_spec) fun _ => ?_
  · exact Meets.done ⟨s, token, .refl s, htoken, hcomma⟩
  · refine (consume_group_piece (hwithin.active hactive) token).bind fun _ s2 h => ?_
    obtain ⟨q, tail, hq, hlexes, hpiece⟩ := h
    have hskips := ReadToken.skips htoken rfl hcomma hq hlexes hpiece
    refine Meets.done ⟨?_, hskips.active hactive, ?_⟩
    · obtain ⟨gap, hconsumed, -, -, -, hlexeme⟩ := htoken
      exact (hconsumed.trans hq).remaining_lt (by simp [hlexeme.ne_nil])
    · rintro _ s3 ⟨s4, comma, hskips', hcomma⟩
      exact ⟨s4, comma, hskips.trans hskips', hcomma⟩

/-- The suffixes of an alias only go on. -/
theorem alias_suffix_consumed (hactive : s.header_start.isSome) :
    Ensures (Scan.iter alias_suffix_turn ()) s fun _ s' => ∃ q, Consumed s q s' := by
  refine Meets.iter (I := fun _ s => s.header_start.isSome) (Q := fun _ s _ s' => ∃ q, Consumed s q s')
    (fun _ s hactive => ?_) () s hactive
  refine (alias_suffix_turn_spec hactive).mono fun turn s1 hturn => ?_
  cases turn with
  | inl _ =>
    obtain ⟨q, hq, -⟩ := hturn.onward
    refine ⟨hturn.remaining_lt, hturn.active hactive, ?_⟩
    rintro _ s2 ⟨q', hq'⟩
    exact ⟨_, hq.trans hq'⟩
  | inr _ =>
    obtain ⟨q, hq, -⟩ := hturn
    exact ⟨q, hq⟩

theorem read_alias_target_names (hactive : s.header_start.isSome) :
    Ensures read_alias_target s fun target s' => ∀ name, target = some name →
      ∃ operand, NamesOperand s s' operand ∧ operand.decode_symbol = .ok name := by
  refine (stream.read_required_token_spec hactive).bind fun first s1 hfirst => ?_
  have hactive1 := hfirst.within.active hactive
  refine Meets.ite (fun _ => stream.invalid_spec) fun hcomma => ?_
  refine (consume_group_piece hactive1 first).bind fun _ s2 h => ?_
  obtain ⟨q, tail, hq, hlexes, hpiece⟩ := h
  have hskips := ReadToken.skips hfirst rfl hcomma hq hlexes hpiece
  refine (alias_type_skips (hskips.active hactive)).bind fun _ s3 h => ?_
  obtain ⟨s4, comma, hskips', hread, hcomma⟩ := h
  have hactive3 := hread.within.active (hskips'.active (hskips.active hactive))
  refine ((read_alias_operand_spec hactive3).and (read_alias_operand_names hactive3)).bind fun target s5 h => ?_
  obtain ⟨hwithin, htarget⟩ := h
  refine (alias_suffix_consumed (hwithin.active hactive3)).bind fun _ s6 h => ?_
  obtain ⟨behind, hbehind⟩ := h
  refine Meets.pure fun name hname => ?_
  obtain ⟨operand, q', space, hvalid, hdecode, hq', hends, hspace, hlexes'⟩ := htarget name hname
  obtain ⟨gap, hconsumed, -, hgap, hvisible, hlexeme⟩ := hread
  have hoperand : NamesOperand s4 s5 operand := by
    refine ⟨⟨gap ++ comma.bytes ++ q', [], [], space, ?_, .nil, hspace, ?_, ?_⟩, hvalid⟩
    · simpa using hconsumed.trans hq'
    · have hall := Lexes.cons hgap hvisible (by rwa [← hq'.rest]) hlexes'
      rwa [hcomma] at hall ⊢
    · simp only [hends, hq'.offset, hconsumed.offset, List.length_append]
      omega
  exact ⟨operand, (hskips.trans hskips').operand (hoperand.behind hbehind), hdecode⟩

end header

open header

/-- No modifier of a global is a delimiter or a comma. -/
theorem globalModifiers_ordinary : ∀ word ∈ globalModifiers.map text, word.length ≠ 1 ∧ word ≠ text "," := by
  decide

/-- One turn over the modifiers of a global passes them, and finds the operand of a direct alias. -/
theorem global_kind_turn_names (hactive : s.header_start.isSome) :
    Ensures (global_kind_turn ()) s fun turn s' =>
      match turn with
      | .inl _ => Skips s s'
      | .inr kind => ∀ target, kind = some (.DirectAlias target) →
          ∃ operand, NamesOperand s s' operand ∧ operand.decode_symbol = .ok target := by
  refine (stream.read_required_token_spec hactive).bind fun token s1 hread => ?_
  have hactive1 := hread.within.active hactive
  refine Meets.ite (fun _ => ?_) fun _ => ?_
  · refine (stream.end_header_spec s1).bind fun _ s2 h => ?_
    subst h
    exact (stream.skip_line_spec _).bind fun _ s3 _ => Meets.done nofun
  refine Meets.ite (fun halias => ?_) fun _ => ?_
  · have hskips : Skips s s1 := by
      apply ReadToken.skips_token hread
      · exact ordinary_of_length (by rw [halias]; decide)
      · rw [halias]
        decide
    refine (read_alias_target_names hactive1).bind fun target s2 h => Meets.done fun name hname => ?_
    cases target with
    | none => cases hname
    | some target =>
      cases hname
      obtain ⟨operand, hoperand, hdecode⟩ := h _ rfl
      exact ⟨operand, hskips.operand hoperand, hdecode⟩
  refine Meets.ite (fun _ => ?_) fun _ => ?_
  · exact (read_alias_target_spec hactive1).bind fun _ s2 _ => Meets.done nofun
  refine Meets.ite (fun hword => ?_) fun _ => ?_
  · have hapart := globalModifiers_ordinary token.bytes (by simpa [Token.is_any] using hword)
    exact Meets.done (ReadToken.skips_token hread (ordinary_of_length hapart.1) hapart.2)
  have hgroup {opening : Token} {s s1 : Contiguous} (hread : ReadToken false s opening s1)
      (hopening : opening.bytes = text "(") (hactive : s1.header_start.isSome) :
      Ensures (stream.consume_group (ascii '(')) s1 fun _ s' => Skips s s' := by
    refine (stream.consume_group_spec hactive (show matching_close (ascii '(') = some (ascii ')') by decide)).mono
      fun _ s2 h => ?_
    obtain ⟨q, inner, hq, hlexes, hbalanced⟩ := h
    apply ReadToken.skips hread rfl _ hq hlexes
    · rw [hopening]
      exact .group (by decide) hbalanced
    · rw [hopening]
      decide
  refine Meets.ite (fun hspace => ?_) fun _ => Meets.ite (fun hopening => ?_) fun _ => stream.invalid_spec
  · have hskips : Skips s s1 := by
      apply ReadToken.skips_token hread
      · exact ordinary_of_length (by rw [hspace]; decide)
      · rw [hspace]
        decide
    refine (stream.expect_spec hactive1 "(").bind fun _ s2 h => ?_
    obtain ⟨opening, hread2, hopening⟩ := h
    refine (hgroup hread2 hopening (hread2.within.active hactive1)).bind fun _ s3 h => ?_
    exact Meets.done (hskips.trans h)
  · exact (hgroup hread hopening hactive1).bind fun _ s2 h => Meets.done h

theorem read_global_kind_names (hactive : s.header_start.isSome) :
    Ensures read_global_kind s fun kind s' => ∀ target, kind = some (.DirectAlias target) →
      ∃ operand, NamesOperand s s' operand ∧ operand.decode_symbol = .ok target := by
  refine Meets.iter (I := fun _ s => s.header_start.isSome) (Q := fun _ s (kind : Option LlvmDefinitionKind) s' => ∀ target,
    kind = some (.DirectAlias target) → ∃ operand, NamesOperand s s' operand ∧ operand.decode_symbol = .ok target)
    (fun _ s hactive => ?_) () s hactive
  refine ((global_kind_turn_spec hactive).and (global_kind_turn_names hactive)).mono fun turn s1 hturn => ?_
  obtain ⟨hwithin, hnames⟩ := hturn
  cases turn with
  | inl _ =>
    refine ⟨hwithin.remaining_lt, hwithin.active hactive, fun kind s2 h target hkind => ?_⟩
    obtain ⟨operand, hoperand, hdecode⟩ := h target hkind
    exact ⟨operand, Skips.operand hnames hoperand, hdecode⟩
  | inr kind => exact hnames

/-- The identifier of the definition that an input starts with: the first token of a global,
or the first identifier behind the keyword of a function and the pieces of its prefix. -/
inductive Identifies (offset : Nat) (input : List UInt8) (token : Token) : LlvmDefinitionKind → Prop where
  | global {kind : LlvmDefinitionKind} {behind : List UInt8} (hkind : kind ≠ .Function) (hinput : input = token.bytes ++ behind)
      (hlexeme : Lexeme token.bytes behind) (hoffset : token.offset = offset) : Identifies offset input token kind
  | function {header behind : List UInt8} {pieces : List (List UInt8)} (hinput : input = text "define" ++ (header ++ behind))
      (hpieces : FunctionPrefix pieces) (hlexes : Lexes header (pieces ++ [token.bytes]) behind)
      (hsymbol : token.bytes.head? = some (ascii '@'))
      (hends : token.offset + token.bytes.length = offset + (text "define" ++ header).length) :
      Identifies offset input token .Function

/-- The operand of the direct alias that an input starts with: the identifier behind the first
comma, `ptr` and an address space. -/
inductive Operates (offset : Nat) (input : List UInt8) (operand : Token) : Prop where
  | mk {header behind : List UInt8} {pieces space : List (List UInt8)} (hinput : input = header ++ behind)
      (hpieces : Pieces (· ≠ text ",") pieces) (hspace : Addrspace space)
      (hlexes : Lexes header (pieces ++ text "," :: text "ptr" :: (space ++ [operand.bytes])) behind)
      (hends : operand.offset + operand.bytes.length = offset + header.length)

/-- A record has the symbols of the identifiers in the input that it was read from. -/
structure Identified (offset : Nat) (input : List UInt8) (definition : LlvmDefinitionRecord) : Prop where
  symbol : ∃ token, Identifies offset input token definition.kind ∧ token.Valid ∧
    token.decode_symbol = .ok definition.raw_symbol
  target : ∀ target, definition.kind = .DirectAlias target → ∃ operand, Operates offset input operand ∧
    operand.Valid ∧ operand.decode_symbol = .ok target

/-- An identifier is neither a delimiter nor a comma. -/
theorem Symbol.ordinary {token : List UInt8} {symbol : String} (h : Symbol token symbol) :
    Ordinary token ∧ token ≠ text "," := by
  constructor
  · apply ordinary_of_length
    cases h <;> simp
  · rintro rfl
    exact absurd h.head (by decide)

/-- Nothing but blanks precedes a token, and an identifier is none. -/
theorem ReadToken.starts {stop : Bool} {token : Token} {rest : List UInt8} (h : ReadToken stop s token s')
    (hrest : s.rest = ascii '@' :: rest) : s.rest = token.bytes ++ s'.rest ∧ Lexeme token.bytes s'.rest ∧
      token.offset = s.offset := by
  obtain ⟨gap, hconsumed, hoffset, hgap, -, hlexeme⟩ := h
  have hbytes := hconsumed.rest
  have hnil : gap = [] := by
    rw [hrest] at hbytes
    cases hgap with
    | nil => rfl
    | space hspace _ _ =>
      obtain ⟨rfl, -⟩ := List.cons.inj hbytes
      exact absurd hspace (by decide)
    | comment _ _ =>
      obtain ⟨hat, -⟩ := List.cons.inj hbytes
      exact absurd hat (by decide)
  subst hnil
  exact ⟨by simpa using hbytes, hlexeme, by simpa using hoffset⟩

theorem finish_definition_names (symbol : String) (start : Nat) (kind : LlvmDefinitionKind) :
    Ensures (finish_definition symbol start kind) s fun definition s' => s' = s ∧ definition.raw_symbol = symbol ∧
      definition.kind = kind := by
  refine (stream.offset_spec s).bind fun stop s1 h => ?_
  obtain ⟨rfl, rfl⟩ := h
  refine (invalid_record_spec start _).bind fun range s2 h => ?_
  obtain ⟨-, rfl⟩ := h
  refine (invalid_record_spec start _).mono fun definition s3 h => ?_
  obtain ⟨hdefinition, rfl⟩ := h
  obtain ⟨hsymbol, -, hkind⟩ := LlvmDefinitionRecord.new_eq_ok_iff.mp hdefinition
  exact ⟨rfl, hsymbol, hkind⟩

theorem read_global_definition_identifies {rest : List UInt8} (start : Nat) (hrest : s.rest = ascii '@' :: rest) :
    Ensures (read_global_definition start) s fun definition _ => ∀ record, definition = some record →
      Identified s.offset s.rest record := by
  refine (stream.begin_header_spec s start).bind fun _ s1 h => ?_
  have hbytes : s1.rest = s.rest := by rw [h]
  have hoffset : s1.offset = s.offset := by rw [h]
  have hactive : s1.header_start.isSome := by rw [h]; rfl
  refine (stream.read_required_token_spec hactive).bind fun symbol s2 hsymbol => ?_
  have hactive2 := hsymbol.within.active hactive
  refine (stream.expect_spec hactive2 "=").bind fun _ s3 h => ?_
  obtain ⟨equals, hread, hequals⟩ := h
  have hactive3 := hread.within.active hactive2
  refine ((read_global_kind_spec hactive3).and (read_global_kind_names hactive3)).bind fun kind s4 h => ?_
  obtain ⟨hturn, hoperand⟩ := h
  cases kind with
  | none =>
    refine (stream.end_header_spec s4).bind fun _ s5 _ => ?_
    exact Meets.pure nofun
  | some kind =>
    have hfunction : kind ≠ .Function := hturn.2
    refine (header.decode_spec hsymbol.valid).bind fun name s5 h => ?_
    obtain ⟨hdecode, rfl⟩ := h
    refine (finish_definition_names name start kind).bind fun definition s6 h => ?_
    obtain ⟨rfl, hname, hkind⟩ := h
    refine (stream.end_header_spec s6).bind fun _ s7 _ => ?_
    refine Meets.pure fun record hrecord => ?_
    cases hrecord
    obtain ⟨hinput, hlexeme, hplace⟩ := ReadToken.starts hsymbol (hbytes.trans hrest)
    rw [hbytes] at hinput
    rw [hoffset] at hplace
    constructor
    · exact ⟨symbol, .global (hkind ▸ hfunction) hinput hlexeme hplace, hsymbol.valid, hname ▸ hdecode⟩
    · intro target htarget
      obtain ⟨operand, hnames, hdecode'⟩ := hoperand target (by rw [← hkind, htarget])
      obtain ⟨hordinary, hcomma⟩ := (hsymbol.valid.symbol hdecode).ordinary
      have hequal : Skips s2 s3 := by
        apply ReadToken.skips_token hread
        · rw [hequals]
          rintro _ ⟨⟩
          decide
        · rw [hequals]
          decide
      have hskips := (ReadToken.skips_token hsymbol hordinary hcomma).trans hequal
      obtain ⟨q, behind, pieces, space, hq, hpieces, hspace, hlexes, hends⟩ := (hskips.operand hnames).placed
      refine ⟨operand, .mk ?_ hpieces hspace hlexes ?_, hnames.valid, hdecode'⟩
      · rw [← hbytes, hq.rest, List.append_assoc]
      · rw [hends, hoffset]

theorem read_function_definition_identifies {s0 : Contiguous} (start : Nat) (hdefine : Consumed s0 (text "define") s) :
    Ensures (read_function_definition start) s fun definition _ => Identified s0.offset s0.rest definition := by
  refine (stream.begin_header_spec s start).bind fun _ s1 h => ?_
  have hbytes : s1.rest = s.rest := by rw [h]
  have hoffset : s1.offset = s.offset := by rw [h]
  have hactive : s1.header_start.isSome := by rw [h]; rfl
  refine (read_function_names hactive).bind fun symbol s2 h => ?_
  obtain ⟨q, token, s3, behind, hname, hdecode, hbehind⟩ := h
  refine (stream.end_header_spec s2).bind fun _ s4 _ => ?_
  refine (stream.skip_body_spec s4).bind fun _ s5 _ => ?_
  refine (finish_definition_names symbol start .Function).mono fun definition s6 h => ?_
  obtain ⟨-, hsymbol, hkind⟩ := h
  obtain ⟨pieces, hpieces, hlexes⟩ := hname.prefixed
  constructor
  · refine ⟨token, ?_, hname.valid, hsymbol ▸ hdecode⟩
    rw [hkind]
    apply Identifies.function _ hpieces hlexes (hname.valid.symbol hdecode).head
    · rw [hname.ends, hname.consumed.offset, hoffset, hdefine.offset, List.length_append]
      omega
    · rw [hdefine.rest, ← hbytes, hname.consumed.rest]
  · intro target htarget
    rw [hkind] at htarget
    cases htarget

theorem scan_keyword_identifies {s0 : Contiguous} {bytes keyword : List UInt8} (start : Nat) (hread : Consumed s0 bytes s)
    (hbytes : keyword = text "define" → bytes = text "define") :
    Ensures (scan_keyword start keyword) s fun definition _ => ∀ record, definition = some record →
      Identified s0.offset s0.rest record := by
  refine (starts_function_spec keyword).bind fun starts s1 h => ?_
  obtain ⟨hlook, hother⟩ := h
  refine Meets.ite (fun hstarts => ?_) fun _ => Meets.ite (fun _ => Meets.pure nofun) fun _ => ?_
  · have hdefine : keyword = text "define" := by
      by_contra hne
      simp [(hother hne).2] at hstarts
    have hkeyword := hread.trans hlook
    rw [List.append_nil, hbytes hdefine] at hkeyword
    refine (read_function_definition_identifies start hkeyword).bind fun definition s2 h => ?_
    refine Meets.pure fun record hrecord => ?_
    cases hrecord
    exact h
  · exact (stream.skip_line_spec s1).bind fun _ s2 _ => Meets.pure nofun

/-- Every item that leaves a record names it by the identifier in its text. -/
theorem scan_item_identifies {byte : UInt8} {rest : List UInt8} (hrest : s.rest = byte :: rest) :
    Ensures (scan_item byte) s fun definition _ => ∀ record, definition = some record →
      Identified s.offset s.rest record := by
  refine Meets.ite (fun _ => ?_) fun _ => ?_
  · exact (stream.take_spec s).bind fun _ s1 _ => Meets.pure nofun
  refine (stream.offset_spec s).bind fun start s1 h => ?_
  obtain ⟨-, rfl⟩ := h
  refine Meets.ite (fun hat => ?_) fun _ => Meets.ite (fun _ => ?_) fun _ => ?_
  · exact read_global_definition_identifies start (hat ▸ hrest)
  · refine Meets.bind (P := fun keyword s' => ∃ bytes, ReadPrefix 6 s1 bytes s' ∧
      keyword = bytes ++ List.replicate (6 - bytes.length) 0) ?_ fun keyword s2 h => ?_
    · exact (read_prefix_bytes_spec 6 s1).bind fun bytes s2 h => Meets.pure ⟨bytes, h, rfl⟩
    · obtain ⟨bytes, ⟨hread, -⟩, rfl⟩ := h
      exact scan_keyword_identifies start hread padded_eq_define
  · exact scan_keyword_identifies start (Consumed.refl s1) fun h => absurd h (by decide)

/-- Every definition of an index has the symbols of the identifiers in its text. -/
theorem index_identified {bytes : List UInt8} {definitions : List LlvmDefinitionRecord}
    (h : index_bytes bytes = .ok definitions) {definition : LlvmDefinitionRecord} (hmem : definition ∈ definitions) :
    Identified definition.range.start.toNat (bytes.drop definition.range.start.toNat) definition := by
  obtain ⟨q, horigin⟩ := (scanned_of_index h).origin definition hmem
  obtain ⟨before, si, s', byte, rest, hbefore, hrest, hrun, -, -, hrecords, -⟩ := horigin.placed
  have hidentified := (scan_item_identifies (s := si.look) hrest).of_run_ok hrun definition rfl
  have hstart : definition.range.start.toNat = before.length := by
    rw [hrecords.start, hbefore.offset, Nat.zero_add]
  have hdrop : bytes.drop before.length = si.rest := by
    rw [show bytes = before ++ si.rest from hbefore.rest, List.drop_left]
  rw [hrecords.start] at hstart ⊢
  rw [hstart, hdrop, ← hstart]
  exact hidentified

end optic.llvm_index
