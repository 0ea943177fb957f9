import Optic.LlvmIndex.HeaderReads

open byte_scan rust optic.records

namespace optic.llvm_index

variable {active : Bool} {s s' : Contiguous} {q q' r : List UInt8}

/-- A program consumes exactly `q`, and goes on as another program. -/
def Passes {α : Type} (p p' : Program α) (s : Contiguous) (q : List UInt8) : Prop :=
  ∃ s', Consumed s q s' ∧ p.run s = p'.run s'

namespace Passes

variable {α β γ : Type}

theorem refl (p : Program α) : Passes p p s [] := ⟨s, Consumed.refl s, rfl⟩

theorem trans {p p' p'' : Program α} (h : Ready active s (q ++ q') r) (hp : Passes p p' s q)
    (hp' : ∀ s', Ready active s' q' r → Passes p' p'' s' q') : Passes p p'' s (q ++ q') := by
  obtain ⟨s1, hs1, hrun⟩ := hp
  obtain ⟨s2, hs2, hrun'⟩ := hp' s1 (h.behind hs1)
  exact ⟨s2, hs1.trans hs2, hrun.trans hrun'⟩

theorem turn {body : β → Program (β ⊕ γ)} {b : β} (b' : β) (hq : q ≠ []) (h : Reads (body b) s q (.inl b')) :
    Passes (Scan.iter body b) (Scan.iter body b') s q := by
  obtain ⟨s', hrun, hs'⟩ := h
  refine ⟨s', hs', ?_⟩
  rw [run_iter_unfold, hrun, andThen_ok]
  simp only [if_pos (hs'.remaining_lt hq)]

theorem reads {p p' : Program α} {a : α} (h : Ready active s (q ++ q') r) (hp : Passes p p' s q)
    (hp' : ∀ s', Ready active s' q' r → Reads p' s' q' a) : Reads p s (q ++ q') a := by
  obtain ⟨s1, hs1, hrun⟩ := hp
  obtain ⟨s2, hrun', hs2⟩ := hp' s1 (h.behind hs1)
  exact ⟨s2, hrun.trans hrun', hs1.trans hs2⟩

end Passes

/-- What a token needs behind it is at most one byte. -/
theorem Lexeme.extend {token rest : List UInt8} (h : Lexeme token rest) (hrest : rest ≠ []) (r : List UInt8) :
    Lexeme token (rest ++ r) := by
  have hhead : (rest ++ r).head? = rest.head? := by
    obtain ⟨byte, rest, rfl⟩ := List.exists_cons_of_ne_nil hrest
    rfl
  cases h with
  | quoted hbytes => exact Lexeme.quoted hbytes
  | symbol hsigil hbytes => exact Lexeme.symbol hsigil hbytes
  | word hfirst hbytes hword hquote =>
    exact Lexeme.word hfirst hbytes (by rwa [hhead]) (by rwa [hhead])
  | mark hquote hword hsigil hmetadata => exact Lexeme.mark hquote hword hsigil hmetadata

theorem Lexes.extend {bytes rest : List UInt8} {tokens : List (List UInt8)} (h : Lexes bytes tokens rest)
    (hrest : rest ≠ []) (r : List UInt8) : Lexes bytes tokens (rest ++ r) := by
  induction h with
  | nil => exact Lexes.nil
  | cons hgap hvisible htoken htokens ih =>
    refine Lexes.cons hgap hvisible ?_ (ih hrest)
    rw [← List.append_assoc]
    exact htoken.extend (by simp [hrest]) r

namespace stream

/-- The blanks of one line, in front of what ends the header or starts a token. -/
theorem skip_blank_gap {stop b : Bool} {gap : List UInt8} (hgap : Blank stop gap) (hstop : stop = true)
    (hend : ∀ s : Contiguous, Ready active s q r → Reads (skip_blank true) s q b) :
    ∀ {s : Contiguous}, Ready active s (gap ++ q) r → Reads (skip_blank true) s (gap ++ q) b := by
  induction hgap with
  | nil => exact fun h => hend _ h
  | @space stop byte bytes hbyte hlf hbytes ih =>
    intro s h
    have hcomment : byte ≠ ascii ';' := by
      rintro rfl
      exact absurd hbyte (by decide)
    refine Reads.again [byte] () h (by simp) ?_ fun s' h' => ih hstop h'
    have h1 := h.first (q := [byte])
    refine Reads.bind_nil h1 (peek_reads h1) fun s1 h1 => Reads.ite_neg hcomment (Reads.ite_pos hbyte ?_)
    refine Reads.bind_last (take_reads h1) fun s2 => Reads.ite_neg ?_ Reads.done
    simpa using hlf hstop
  | comment hline hbytes ih => cases hstop

theorem skip_blank_newline (h : Ready active s [ascii '\n'] r) : Reads (skip_blank true) s [ascii '\n'] true := by
  refine Reads.stop (Reads.bind_nil h (peek_reads h) fun s1 h1 => Reads.ite_neg ?_ (Reads.ite_pos rfl ?_))
  · decide
  · exact Reads.bind_last (take_reads h1) fun _ => Reads.ite_pos rfl Reads.done

/-- A comment takes the end of its line with it. -/
theorem skip_blank_comment {line : List UInt8} (hline : ascii '\n' ∉ line)
    (h : Ready active s (ascii ';' :: (line ++ [ascii '\n'])) r) :
    Reads (skip_blank true) s (ascii ';' :: (line ++ [ascii '\n'])) true := by
  refine Reads.stop (Reads.bind_nil h (peek_reads h) fun s1 h1 => Reads.ite_pos rfl ?_)
  refine Reads.bind_last (skip_line_reads (ascii ';' :: line) ?_ h1) fun _ => Reads.ite_pos rfl Reads.done
  simp [hline, show ascii '\n' ≠ ascii ';' by decide]

theorem read_token_line_end (h : Ready true s q r)
    (hblank : ∀ s' : Contiguous, Ready true s' q r → Reads (skip_blank true) s' q true) :
    Reads (read_token true) s q none := by
  have hactive : Reads header_active s [] true := by
    rw [← h.active]
    exact ⟨s, rfl, Consumed.refl s⟩
  refine Reads.bind_nil h hactive fun s1 h1 => Reads.ite_pos rfl ?_
  exact Reads.bind_last (hblank s1 h1) fun _ => Reads.ite_pos rfl Reads.pure

/-- The content of a quote leaves the body scan inside of the quote. -/
theorem quoted_body_passes {content name : List UInt8} (hcontent : Spells content name) (depth : Nat) :
    ∀ {s : Contiguous}, Ready active s content r →
      Passes (Scan.iter body_turn { depth, quoted := true }) (Scan.iter body_turn { depth, quoted := true }) s content := by
  have escape {s : Contiguous} {r : List UInt8} (h : Ready active s [ascii '\\'] r) :
      Passes (Scan.iter body_turn { depth, quoted := true })
        (Scan.iter body_turn { depth, quoted := true, escape_digits := 2 }) s [ascii '\\'] :=
    Passes.turn _ (by simp) (Reads.bind_last (take_reads h) fun _ => Reads.done)
  have digit {s : Contiguous} {r : List UInt8} {byte : UInt8} (digits : Nat) (h : Ready active s [byte] r)
      (hbyte : is_ascii_hexdigit byte) : Passes (Scan.iter body_turn { depth, quoted := true, escape_digits := digits + 1 })
        (Scan.iter body_turn { depth, quoted := true, escape_digits := digits }) s [byte] := by
    have hbackslash := hexdigit_ne hbyte (ascii '\\') (by decide)
    refine Passes.turn _ (by simp) (Reads.bind_last (take_reads h) fun _ => ?_)
    simp only [hbackslash, hbyte, decide_false, Bool.and_false, Bool.not_true, Nat.add_one_ne_zero, ne_eq,
      not_false_eq_true, decide_true, Bool.false_eq_true, if_false, if_true, Nat.add_sub_cancel]
    exact Reads.done
  induction hcontent with
  | nil => exact fun _ => Passes.refl _
  | @raw byte content name hquote hbackslash hlf hcr hcontent ih =>
    intro s h
    refine Passes.trans (q := [byte]) h (Passes.turn _ (by simp) ?_) fun s' h' => ih h'
    refine Reads.bind_last (take_reads (h.first (q := [byte]))) fun _ => ?_
    simp only [hquote, hbackslash, hlf, hcr, decide_false, Bool.and_false, Bool.or_false, ne_eq, not_true_eq_false,
      Bool.false_and, Bool.false_eq_true, if_false, if_true]
    exact Reads.done
  | @backslash content name hcontent ih =>
    intro s h
    refine Passes.trans (q := [ascii '\\']) h (escape (h.first (q := [ascii '\\']))) fun s1 h1 => ?_
    refine Passes.trans (q := [ascii '\\']) h1 (Passes.turn _ (by simp) ?_) fun s2 h2 => ih h2
    exact Reads.bind_last (take_reads (h1.first (q := [ascii '\\']))) fun _ => Reads.done
  | @hex first second content name hfirst hsecond hcontent ih =>
    intro s h
    refine Passes.trans (q := [ascii '\\']) h (escape (h.first (q := [ascii '\\']))) fun s1 h1 => ?_
    refine Passes.trans (q := [first]) h1 (digit 1 (h1.first (q := [first])) hfirst) fun s2 h2 => ?_
    exact Passes.trans (q := [second]) h2 (digit 0 (h2.first (q := [second])) hsecond) fun s3 h3 => ih h3

/-- A comment leaves the body scan behind its line. -/
theorem comment_body_passes (line : List UInt8) (hline : ascii '\n' ∉ line) (depth : Nat) :
    ∀ {s : Contiguous}, Ready active s (line ++ [ascii '\n']) r →
      Passes (Scan.iter body_turn { depth, comment := true }) (Scan.iter body_turn { depth }) s (line ++ [ascii '\n']) := by
  induction line with
  | nil => exact fun h => Passes.turn _ (by simp) (Reads.bind_last (take_reads h) fun _ => Reads.done)
  | cons byte line ih =>
    intro s h
    rw [List.mem_cons, not_or] at hline
    refine Passes.trans (q := [byte]) h (Passes.turn _ (by simp) ?_) fun s' h' => ih hline.2 h'
    refine Reads.bind_last (take_reads (h.first (q := [byte]))) fun _ => Reads.ite_pos rfl ?_
    rw [decide_eq_true (Ne.symm hline.1)]
    exact Reads.done

/-- A body is read through the brace that closes it. -/
theorem skip_body_reads {depth : Nat} {body : List UInt8} (hbody : Body depth body) :
    ∀ {s : Contiguous}, Ready active s body r → Reads (Scan.iter body_turn { depth }) s body () := by
  induction hbody with
  | last => exact fun h => Reads.stop (Reads.bind_last (take_reads h) fun _ => Reads.done)
  | close hbody ih =>
    intro s h
    refine Passes.reads (q := [ascii '}']) h (Passes.turn _ (by simp) ?_) fun s' h' => ih h'
    refine Reads.bind_last (take_reads (h.first (q := [ascii '}']))) fun _ => ?_
    exact Reads.done
  | «open» hbody ih =>
    intro s h
    refine Passes.reads (q := [ascii '{']) h (Passes.turn _ (by simp) ?_) fun s' h' => ih h'
    exact Reads.bind_last (take_reads (h.first (q := [ascii '{']))) fun _ => Reads.done
  | @quote depth content name bytes hcontent hbody ih =>
    intro s h
    refine Passes.reads (q := [ascii '"']) h (Passes.turn { depth, quoted := true } (by simp) ?_) fun s1 h1 => ?_
    · exact Reads.bind_last (take_reads (h.first (q := [ascii '"']))) fun _ => Reads.done
    refine Passes.reads h1 (quoted_body_passes hcontent _ h1.first) fun s2 h2 => ?_
    refine Passes.reads (q := [ascii '"']) h2 (Passes.turn _ (by simp) ?_) fun s3 h3 => ih h3
    exact Reads.bind_last (take_reads (h2.first (q := [ascii '"']))) fun _ => Reads.done
  | @comment depth line bytes hline hbody ih =>
    intro s h
    refine Passes.reads (q := [ascii ';']) h (Passes.turn { depth, comment := true } (by simp) ?_) fun s1 h1 => ?_
    · exact Reads.bind_last (take_reads (h.first (q := [ascii ';']))) fun _ => Reads.done
    change Ready active s1 (line ++ ascii '\n' :: bytes) r at h1
    change Reads _ s1 (line ++ ascii '\n' :: bytes) ()
    rw [List.append_cons] at h1 ⊢
    exact Passes.reads h1 (comment_body_passes line hline _ h1.first) fun s2 h2 => ih h2
  | @plain depth byte bytes hcomment hquote hopen hclose hbody ih =>
    intro s h
    refine Passes.reads (q := [byte]) h (Passes.turn _ (by simp) ?_) fun s' h' => ih h'
    refine Reads.bind_last (take_reads (h.first (q := [byte]))) fun _ => ?_
    simp only [hcomment, hquote, hopen, hclose, decide_false, Bool.and_false, ne_eq, not_true_eq_false,
      Bool.false_and, Bool.false_eq_true, if_false, show (0 : Nat) ≠ 2 by decide]
    exact Reads.done

end stream

theorem AliasTail.ne_nil {tail : List UInt8} (h : AliasTail tail) : tail ≠ [] := by
  cases h <;> simp

namespace header

theorem alias_type_parses {ty : List (List UInt8)} (hty : AliasType ty) :
    Parses (Scan.iter alias_type_turn ()) (ty ++ [text ","]) () := by
  refine pieces_parse hty (fun token piece hallowed hpiece => ?_) (Parses.stop ?_)
  · obtain ⟨hat, hwords⟩ := hallowed
    have hcomma : token ≠ text "," := by
      rintro rfl
      exact hwords (by decide)
    refine Parses.token fun offset => Parses.ite_neg hcomma (Parses.ite_neg ?_ ?_)
    · simp only [List.map_cons, List.map_nil, List.mem_cons, not_or] at hwords
      simp [Token.is_any, starts_with, hat, hwords]
    · exact Parses.bind_last (consume_group_parses hpiece offset) Parses.done
  · exact Parses.token fun offset => Parses.ite_pos rfl Parses.done

theorem read_alias_operand_parses {operand : List (List UInt8)} {target : Option String}
    (h : AliasOperand operand target) : Parses read_alias_operand operand target := by
  cases h with
  | @direct space symbol target hspace hsymbol =>
    have hne : symbol ≠ text "addrspace" := by
      rintro rfl
      exact absurd hsymbol.head (by decide)
    refine Parses.token fun offset => Parses.ite_pos rfl ?_
    obtain ⟨first, rest, hnext⟩ := List.exists_cons_of_ne_nil (show space ++ [symbol] ≠ [] by simp)
    change Parses _ (space ++ [symbol]) _
    rw [hnext, ← List.append_nil rest]
    refine Parses.token fun next => ParsesToken.bind (skip_addrspace_parses hspace hne first rest next hnext) fun last => ?_
    refine Parses.ite_pos (by simp [starts_with, hsymbol.head]) ?_
    exact Parses.bind_nil (decode_parses hsymbol last) Parses.pure
  | @constant value values hvalue hsymbol =>
    refine Parses.token fun offset => Parses.ite_neg (constant_apart hvalue).2 (Parses.ite_neg ?_ ?_)
    · simpa [starts_with] using hsymbol
    · exact Parses.bind_last (consume_constant_parses hvalue offset) Parses.pure
  | @typed space values value hspace hvalue hsymbol =>
    refine Parses.token fun offset => Parses.ite_pos rfl ?_
    obtain ⟨first, rest, hnext⟩ := List.exists_cons_of_ne_nil (show space ++ [value] ≠ [] by simp)
    change Parses _ (space ++ value :: values) _
    rw [List.append_cons, hnext, List.cons_append]
    refine Parses.token fun next =>
      ParsesToken.bind (skip_addrspace_parses hspace (constant_apart hvalue).1 first rest next hnext) fun last => ?_
    refine Parses.ite_neg (by simpa [starts_with] using hsymbol) ?_
    exact Parses.bind_last (consume_constant_parses hvalue last) Parses.pure

/-- A comma and the suffix behind it. -/
theorem alias_suffix_turn_reads {gap bytes tail : List UInt8} {tokens : List (List UInt8)} (hgap : Blank true gap)
    (hsuffix : AliasSuffix tokens) (hlexes : Lexes bytes tokens (tail ++ r))
    (h : Ready true s (gap ++ [ascii ','] ++ bytes) (tail ++ r)) :
    Reads (alias_suffix_turn ()) s (gap ++ [ascii ','] ++ bytes) (.inl ()) := by
  have hcomma : Lexeme [ascii ','] (bytes ++ (tail ++ r)) :=
    Lexeme.mark (by decide) (by decide) (by decide) (by decide)
  refine Reads.bind h (stream.read_token_reads h.first hgap ?_ hcomma) fun s1 h1 => ?_
  · rintro byte hbyte
    cases hbyte
    decide
  refine Reads.ite_neg (not_not_intro rfl) ?_
  cases hsuffix with
  | @metadata kind piece hkind hpiece =>
    refine Parses.token (fun offset => Parses.ite_pos (by simp [starts_with, hkind]) ?_) _ _ _ h1 hlexes
    obtain ⟨token, rest, rfl⟩ : ∃ token rest, piece = token :: rest := by cases hpiece <;> exact ⟨_, _, rfl⟩
    exact Parses.token fun next => Parses.bind_last (consume_group_parses hpiece next) Parses.done
  | @partition name hname =>
    refine Parses.token (fun offset => Parses.ite_neg Bool.false_ne_true ?_) _ _ _ h1 hlexes
    refine Parses.ite_neg (not_not_intro rfl) (Parses.token fun next => ?_)
    exact Parses.ite_pos (by simp [starts_with, hname]) Parses.done

/-- The suffixes of an alias are read through the end of its line. -/
theorem alias_suffix_reads {tail : List UInt8} (htail : AliasTail tail) :
    ∀ {s : Contiguous}, Ready true s tail r → Reads (Scan.iter alias_suffix_turn ()) s tail () := by
  induction htail with
  | newline hgap =>
    intro s h
    refine Reads.stop (Reads.bind_last (stream.read_token_line_end h fun s' h' => ?_) fun _ => Reads.done)
    exact stream.skip_blank_gap hgap rfl (fun _ => stream.skip_blank_newline) h'
  | comment hgap hline =>
    intro s h
    refine Reads.stop (Reads.bind_last (stream.read_token_line_end h fun s' h' => ?_) fun _ => Reads.done)
    exact stream.skip_blank_gap hgap rfl (fun _ => stream.skip_blank_comment hline) h'
  | @suffix gap bytes tail tokens hgap hsuffix hlexes htail ih =>
    intro s h
    have hsplit : gap ++ ascii ',' :: (bytes ++ tail) = (gap ++ [ascii ','] ++ bytes) ++ tail := by simp
    rw [hsplit] at h ⊢
    refine Reads.again _ () h (by simp) ?_ fun s' h' => ih h'
    exact alias_suffix_turn_reads hgap hsuffix (hlexes.extend htail.ne_nil r) h.first

/-- An alias or ifunc is read behind its keyword, through the end of its line. -/
theorem read_alias_target_reads {ty operand : List (List UInt8)} {target : Option String} {bytes tail : List UInt8}
    (hty : AliasType ty) (htyped : ty ≠ []) (hoperand : AliasOperand operand target) (htail : AliasTail tail)
    (hlexes : Lexes bytes (ty ++ text "," :: operand) (tail ++ r)) (h : Ready true s (bytes ++ tail) r) :
    Reads read_alias_target s (bytes ++ tail) target := by
  cases hty with
  | nil => exact absurd rfl htyped
  | @cons token piece types hpiece hallowed htypes =>
    have htokens : token :: piece ++ types ++ text "," :: operand =
        token :: (piece ++ ((types ++ [text ","]) ++ (operand ++ []))) := by simp
    have hcomma : token ≠ text "," := by
      rintro rfl
      exact hallowed.2 (by decide)
    rw [htokens] at hlexes
    refine Parses.first_token h hlexes fun next s1 bytes h hlexes => Reads.ite_neg hcomma ?_
    refine Parses.first (consume_group_parses hpiece next) h hlexes fun s2 bytes h hlexes => ?_
    refine Parses.first (alias_type_parses htypes) h hlexes fun s3 bytes h hlexes => ?_
    refine Parses.first (read_alias_operand_parses hoperand) h hlexes fun s4 bytes h hlexes => ?_
    cases hlexes
    exact Reads.bind_last (alias_suffix_reads htail h) fun _ => Reads.pure

end header

/-- The kind of a global is read behind `first`, from the tokens that spell `second`. -/
def Leads (s : Contiguous) (bytes : List UInt8) (tokens : List (List UInt8)) (rest : List UInt8) : Prop :=
  ∃ first second s', bytes = first ++ second ∧ Lexes second tokens rest ∧ Consumed s first s' ∧
    read_global_kind.run s = read_global_kind.run s'

theorem Leads.trans {bytes tail : List UInt8} {tokens tokens' : List (List UInt8)} (h : Ready true s (bytes ++ tail) r)
    (hleads : Leads s bytes tokens (tail ++ r))
    (hnext : ∀ s' second, Ready true s' (second ++ tail) r → Lexes second tokens (tail ++ r) →
      Leads s' second tokens' (tail ++ r)) : Leads s bytes tokens' (tail ++ r) := by
  obtain ⟨first, second, s1, rfl, hsecond, hs1, hrun⟩ := hleads
  rw [List.append_assoc] at h
  obtain ⟨first', second', s2, rfl, hsecond', hs2, hrun'⟩ := hnext s1 second (h.behind hs1) hsecond
  exact ⟨first ++ first', second', s2, (List.append_assoc _ _ _).symm, hsecond', hs1.trans hs2, hrun.trans hrun'⟩

/-- A turn that reads some modifiers. -/
theorem Leads.turn {bytes tail : List UInt8} {tokens tokens' : List (List UInt8)}
    (hturn : Parses (global_kind_turn ()) tokens (.inl ())) (htokens : tokens ≠ []) (h : Ready true s (bytes ++ tail) r)
    (hlexes : Lexes bytes (tokens ++ tokens') (tail ++ r)) : Leads s bytes tokens' (tail ++ r) := by
  obtain ⟨first, second, rfl, hfirst, hsecond⟩ := hlexes.split
  rw [List.append_assoc] at h
  obtain ⟨s1, hs1, hrun⟩ := Passes.turn () (hfirst.ne_nil htokens)
    (hturn s first _ h.first (by rwa [List.append_assoc]))
  exact ⟨first, second, s1, rfl, hsecond, hs1, hrun⟩

theorem globalModifiers_apart : ∀ word ∈ globalModifiers.map text, word ≠ text "global" ∧ word ≠ text "constant" ∧
    word ≠ text "alias" ∧ word ≠ text "ifunc" := by
  decide

theorem modifier_parses {word : List UInt8} (hword : word ∈ globalModifiers.map text) :
    Parses (global_kind_turn ()) [word] (.inl ()) := by
  obtain ⟨hglobal, hconstant, halias, hifunc⟩ := globalModifiers_apart word hword
  refine Parses.token fun offset => Parses.ite_neg (by simp [hglobal, hconstant]) ?_
  refine Parses.ite_neg halias (Parses.ite_neg hifunc (Parses.ite_pos ?_ Parses.done))
  simp [Token.is_any, List.mem_map.mp hword]

theorem modifier_group_parses {inner : List (List UInt8)} (hinner : Balanced inner) :
    Parses (global_kind_turn ()) (text "(" :: (inner ++ [text ")"])) (.inl ()) := by
  refine Parses.token fun offset => Parses.ite_neg Bool.false_ne_true ?_
  refine Parses.ite_neg (by decide : ¬ text "(" = text "alias") (Parses.ite_neg (by decide : ¬ text "(" = text "ifunc") ?_)
  refine Parses.ite_neg Bool.false_ne_true (Parses.ite_neg (by decide : ¬ text "(" = text "addrspace") ?_)
  exact Parses.ite_pos rfl (Parses.bind_last (consume_group_parses rfl hinner) Parses.done)

theorem modifier_addrspace_parses {inner : List (List UInt8)} (hinner : Balanced inner) :
    Parses (global_kind_turn ()) (text "addrspace" :: text "(" :: (inner ++ [text ")"])) (.inl ()) := by
  refine Parses.token fun offset => Parses.ite_neg Bool.false_ne_true ?_
  refine Parses.ite_neg (by decide : ¬ text "addrspace" = text "alias") ?_
  refine Parses.ite_neg (by decide : ¬ text "addrspace" = text "ifunc") (Parses.ite_neg Bool.false_ne_true ?_)
  exact Parses.ite_pos rfl (Parses.bind (expect_parses "(") (Parses.bind_last (consume_group_parses rfl hinner) Parses.done))

/-- The modifiers of a global lead to its kind. -/
theorem modifiers_lead {modifiers tokens : List (List UInt8)} (hmodifiers : Modifiers modifiers) {tail : List UInt8} :
    ∀ {s : Contiguous} {bytes : List UInt8}, Ready true s (bytes ++ tail) r →
      Lexes bytes (modifiers ++ tokens) (tail ++ r) → Leads s bytes tokens (tail ++ r) := by
  induction hmodifiers with
  | nil => exact fun _ hlexes => ⟨[], _, _, rfl, hlexes, Consumed.refl _, rfl⟩
  | word hword htokens ih =>
    intro s bytes h hlexes
    exact Leads.trans h (Leads.turn (modifier_parses hword) (List.cons_ne_nil _ _) h hlexes) fun _ _ h hlexes => ih h hlexes
  | @group word inner following hword hinner htokens ih =>
    intro s bytes h hlexes
    have hassoc : word :: text "(" :: (inner ++ text ")" :: following) ++ tokens =
        [word] ++ ((text "(" :: (inner ++ [text ")"])) ++ (following ++ tokens)) := by simp
    rw [hassoc] at hlexes
    rcases hword with hword | rfl
    · refine Leads.trans h (Leads.turn (modifier_parses hword) (List.cons_ne_nil _ _) h hlexes) fun s1 bytes h hlexes => ?_
      exact Leads.trans h (Leads.turn (modifier_group_parses hinner) (List.cons_ne_nil _ _) h hlexes)
        fun _ _ h hlexes => ih h hlexes
    · rw [← List.append_assoc] at hlexes
      exact Leads.trans h (Leads.turn (modifier_addrspace_parses hinner) (List.cons_ne_nil _ _) h hlexes)
        fun _ _ h hlexes => ih h hlexes

/-- What a definition's record says. -/
structure Describes (record : LlvmDefinitionRecord) (symbol : String) (kind : LlvmDefinitionKind)
    (start length : Nat) : Prop where
  symbol : record.raw_symbol = symbol
  kind : record.kind = kind
  start : record.range.start.toNat = start
  length : record.range.length.toNat = length

/-- A record is built for a name and a range that ends at the current offset. -/
theorem finish_definition_reads {symbol : String} {kind : LlvmDefinitionKind} {start : Nat} (hsymbol : symbol ≠ "")
    (hnamed : kind.Named) (hstart : start ≤ s.offset) (hoffset : s.offset < UInt64.size) :
    ∃ record, Reads (finish_definition symbol start kind) s [] record ∧
      Describes record symbol kind start (s.offset - start) := by
  have hlow : (UInt64.ofNat start).toNat = start := UInt64.toNat_ofNat_of_lt' (by omega)
  have hlength : (UInt64.ofNat (s.offset - start)).toNat = s.offset - start := UInt64.toNat_ofNat_of_lt' (by omega)
  let range : ByteRange := ⟨.ofNat start, .ofNat (s.offset - start), by rw [hlow, hlength]; omega⟩
  let record : LlvmDefinitionRecord := ⟨symbol, range, kind, hsymbol, hnamed⟩
  have hrange : ByteRange.new (.ofNat start) (.ofNat (s.offset - start)) = .ok range :=
    ByteRange.new_eq_ok_iff.mpr ⟨rfl, rfl⟩
  have hrecord : LlvmDefinitionRecord.new symbol range kind = .ok record :=
    LlvmDefinitionRecord.new_eq_ok_iff.mpr ⟨rfl, rfl, rfl⟩
  refine ⟨record, ⟨s, ?_, Consumed.refl s⟩, rfl, rfl, hlow, hlength⟩
  have hoffset : stream.offset.run s = .ok (s.offset, s) := rfl
  rw [finish_definition, run_bind, hoffset, andThen_ok, hrange, invalid_record]
  change (invalid_record start (LlvmDefinitionRecord.new symbol range kind)).run s = _
  rw [hrecord]
  rfl

/-- A header starts within its budget. -/
theorem Ready.begin {start : Nat} (q' : List UInt8) (h : Ready active s (q ++ q') r) (hstart : start ≤ s.offset)
    (hbudget : s.offset + q.length ≤ start + HEADER_LIMIT) :
    Ready true { s with header_start := some start } q (q' ++ r) where
  rest := h.first.rest
  complete := h.complete
  active := rfl
  fits := h.first.fits
  budget := by
    rintro _ hsome
    cases hsome
    exact ⟨hstart, hbudget⟩

/-- What follows the kind of a global. -/
def conclude_global (start : Nat) (symbol : Token) : Option LlvmDefinitionKind → Program (Option LlvmDefinitionRecord)
  | none => do
    stream.end_header
    return none
  | some kind => do
    let symbol ← Scan.ofExcept symbol.decode_symbol
    let definition ← finish_definition symbol start kind
    stream.end_header
    return some definition

theorem read_global_definition_eq (start : Nat) : read_global_definition start = (do
    stream.begin_header start
    let symbol ← stream.read_required_token
    stream.expect "="
    let kind ← read_global_kind
    conclude_global start symbol kind) := by
  unfold read_global_definition
  refine congrArg _ (funext fun _ => congrArg _ (funext fun symbol => congrArg _ (funext fun _ => ?_)))
  refine congrArg _ (funext fun kind => ?_)
  cases kind <;> rfl

/-- A global definition is read up to its kind. -/
theorem global_leads {start : Nat} {symbol bytes : List UInt8} (tail : List UInt8) {modifiers tokens : List (List UInt8)}
    (hmodifiers : Modifiers modifiers) (h : Ready true { s with header_start := some start } (bytes ++ tail) r)
    (hlexes : Lexes bytes (symbol :: text "=" :: (modifiers ++ tokens)) (tail ++ r)) :
    ∃ offset first second s', bytes = first ++ second ∧ Lexes second tokens (tail ++ r) ∧
      Consumed { s with header_start := some start } first s' ∧
      (read_global_definition start).run s = (read_global_kind >>= conclude_global start ⟨symbol, offset⟩).run s' := by
  obtain ⟨q1, bytes, rfl, hq1, hlexes⟩ := hlexes.uncons
  rw [List.append_assoc] at h
  obtain ⟨offset, s1, hrun1, hs1⟩ := header.ParsesToken.read symbol _ q1 _ h.first (by rwa [List.append_assoc])
  replace h := h.behind hs1
  obtain ⟨q2, bytes, rfl, hq2, hlexes⟩ := hlexes.uncons
  rw [List.append_assoc] at h
  obtain ⟨s2, hrun2, hs2⟩ := expect_parses "=" s1 q2 _ h.first (by rwa [List.append_assoc])
  replace h := h.behind hs2
  obtain ⟨q3, second, s3, rfl, hsecond, hs3, hrun3⟩ := modifiers_lead hmodifiers h hlexes
  refine ⟨offset, q1 ++ (q2 ++ q3), second, s3, by simp, hsecond, hs1.trans (hs2.trans hs3), ?_⟩
  have hbegin : (stream.begin_header start).run s = .ok ((), { s with header_start := some start }) := rfl
  rw [read_global_definition_eq, run_bind, hbegin, andThen_ok, run_bind, hrun1, andThen_ok, run_bind, hrun2,
    andThen_ok, run_bind, run_bind, hrun3]

end optic.llvm_index
