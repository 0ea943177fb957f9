import Optic.LlvmIndex.Grammar
import Optic.LlvmIndex.Sound

open byte_scan rust optic.records

namespace optic.llvm_index

/-- A stream without a limit on headers. -/
structure Unbounded where
  stream : Stream

namespace Unbounded

def peek (self : Unbounded) : Except Error (Option UInt8 × Unbounded) := do
  let (byte, stream) ← self.stream.peek
  return (byte, { stream })

/-- Consumes one byte while enforcing only the absolute-offset bound. -/
def take (self : Unbounded) : Except Error (Option UInt8 × Unbounded) := do
  match ← self.stream.peek with
  | (none, stream) => return (none, { stream })
  | (some byte, stream) =>
    let offset ← charge stream.offset none
    return (some byte, { stream := { stream with offset, position := stream.position + 1 } })

end Unbounded

instance : ByteSource Unbounded Error where
  peek := Unbounded.peek
  take := Unbounded.take
  offset self := self.stream.offset
  active self := self.stream.header_start.isSome
  budget header_start self := { stream := { self.stream with header_start } }
  remaining self := ByteSource.remaining self.stream

/-- Indexes without the limit on headers. -/
def index_unbounded (reader : Reader) : Except (Fault Error) (List LlvmDefinitionRecord) :=
  (scan.run ({ stream := Stream.new reader } : Unbounded)).map Prod.fst

variable {σ : Type} [ByteSource σ Error]

/-- The bytes that are probed for a keyword. -/
def probe (byte : UInt8) : Program (List UInt8) :=
  if byte = ascii 'd' then read_keyword_prefix else return List.replicate 6 0

/-- The rest of an unrelated line, which the probe may have ended. -/
def unrelated_rest (keyword : List UInt8) : Program Unit :=
  if ascii '\n' ∈ keyword then return () else stream.skip_line

/-- `GlobalFront s symbol keyword s'`: the header of a global from `@` through the keyword that
ends its modifiers. -/
inductive GlobalFront (s : σ) (symbol keyword : Token) (s' : σ) : Prop where
  | mk {s1 s2 s3 : σ} (hsymbol : stream.read_required_token.run (ByteSource.budget (some (ByteSource.offset s)) s) =
        .ok (symbol, s1))
      (hequals : (stream.expect "=").run s1 = .ok ((), s2)) (hmodifiers : Turns global_kind_turn () s2 () s3)
      (hkeyword : stream.read_required_token.run s3 = .ok (keyword, s'))

/-- `FunctionFront start s symbol s'`: the header of a function from behind its keyword, which
started at `start`, through its opening body brace. -/
inductive FunctionFront (start : Nat) (s : σ) (symbol : String) (s' : σ) : Prop where
  | mk {s1 s2 s3 s4 : σ} {brace : Token}
      (hname : (Scan.iter header.function_name_turn ()).run (ByteSource.budget (some start) s) = .ok (symbol, s1))
      (hopening : (stream.expect "(").run s1 = .ok ((), s2))
      (harguments : (stream.consume_group (ascii '(')).run s2 = .ok ((), s3))
      (hsuffix : Turns header.function_suffix_turn () s3 () s4)
      (hbrace : stream.read_required_token.run s4 = .ok (brace, s')) (hbody : brace.bytes = text "\x7b")

/-- `Headed byte s definition s' span`: an item that starts with this byte, the definition that
it is, and the number of bytes that its header spans if it has one. -/
inductive Headed (byte : UInt8) (s : σ) : Option LlvmDefinitionRecord → σ → Option Nat → Prop where
  | whitespace {taken : Option UInt8} {s' : σ} (hbyte : is_ascii_whitespace byte)
      (htake : stream.take.run s = .ok (taken, s')) : Headed byte s none s' none
  | unrelated {keyword : List UInt8} {s1 s2 s' : σ} (hbyte : ¬ is_ascii_whitespace byte) (hat : byte ≠ ascii '@')
      (hkeyword : (probe byte).run s = .ok (keyword, s1))
      (hstarts : (starts_function keyword).run s1 = .ok (false, s2))
      (hline : (unrelated_rest keyword).run s2 = .ok ((), s')) : Headed byte s none s' none
  | function {symbol : String} {definition : LlvmDefinitionRecord} {s1 s2 s3 s4 s' : σ}
      (hbyte : ¬ is_ascii_whitespace byte) (hat : byte ≠ ascii '@')
      (hkeyword : (probe byte).run s = .ok (text "define", s1))
      (hstarts : (starts_function (text "define")).run s1 = .ok (true, s2))
      (hfront : FunctionFront (ByteSource.offset s) s2 symbol s3)
      (hbody : stream.skip_body.run (ByteSource.budget none s3) = .ok ((), s4))
      (hfinish : (finish_definition symbol (ByteSource.offset s) .Function).run s4 = .ok (definition, s')) :
      Headed byte s (some definition) s' (some (ByteSource.offset s3 - ByteSource.offset s))
  | global {symbol keyword : Token} {s1 s2 : σ} (hat : byte = ascii '@') (hfront : GlobalFront s symbol keyword s1)
      (hkeyword : keyword.bytes = text "global" ∨ keyword.bytes = text "constant")
      (hline : stream.skip_line.run (ByteSource.budget none s1) = .ok ((), s2)) :
      Headed byte s none (ByteSource.budget none s2) (some (ByteSource.offset s1 - ByteSource.offset s))
  | aliased {symbol keyword : Token} {name : String} {target : Option String} {kind : LlvmDefinitionKind}
      {definition : LlvmDefinitionRecord} {s1 s2 s3 : σ} (hat : byte = ascii '@')
      (hfront : GlobalFront s symbol keyword s1) (hkind : AliasKind keyword.bytes target kind)
      (htarget : header.read_alias_target.run s1 = .ok (target, s2)) (hname : symbol.decode_symbol = .ok name)
      (hfinish : (finish_definition name (ByteSource.offset s) kind).run s2 = .ok (definition, s3)) :
      Headed byte s (some definition) (ByteSource.budget none s3) (some (ByteSource.offset s2 - ByteSource.offset s))

/-- `Headers s definitions spans s'`: the definitions that a scan of the rest of an input finds,
and what every header in it spans. -/
inductive Headers : σ → List LlvmDefinitionRecord → List Nat → σ → Prop where
  | done {s s' : σ} (hpeek : stream.peek.run s = .ok (none, s')) : Headers s [] [] s'
  | item {byte : UInt8} {definition : Option LlvmDefinitionRecord} {span : Option Nat}
      {definitions : List LlvmDefinitionRecord} {spans : List Nat} {s s1 s2 s' : σ}
      (hpeek : stream.peek.run s = .ok (some byte, s1)) (hitem : Headed byte s1 definition s2 span)
      (hless : ByteSource.remaining s2 < ByteSource.remaining s) (hheaders : Headers s2 definitions spans s') :
      Headers s (definition.toList ++ definitions) (span.toList ++ spans) s'

theorem probe_calm (byte : UInt8) : Calm (probe byte) :=
  .ite ((read_prefix_bytes_calm 6).bind fun _ => .done _) (.done _)

theorem unrelated_rest_calm (keyword : List UInt8) : Calm (unrelated_rest keyword) :=
  .ite (.done _) stream.skip_line_calm

variable {s s' : σ}

/-- A step of a program, when its first step returns. -/
theorem run_bind_ok {α β : Type} {p : Program α} {f : α → Program β} {a : α} {s1 : σ} (h : p.run s = .ok (a, s1)) :
    (p >>= f).run s = (f a).run s1 := by
  rw [run_bind, h, andThen_ok]

theorem run_bind_eq_ok {α β : Type} {p : Program α} {f : α → Program β} {b : β}
    (h : (p >>= f).run s = .ok (b, s')) : ∃ a s1, p.run s = .ok (a, s1) ∧ (f a).run s1 = .ok (b, s') := by
  rw [run_bind] at h
  exact andThen_eq_ok_iff.mp h

theorem run_ite_pos {α : Type} {c : Prop} [Decidable c] {p q : Program α} (h : c) :
    (if c then p else q).run s = p.run s := by rw [if_pos h]

theorem run_ite_neg {α : Type} {c : Prop} [Decidable c] {p q : Program α} (h : ¬ c) :
    (if c then p else q).run s = q.run s := by rw [if_neg h]

/-- A turn that cannot leave its loop. -/
def GoesOn (σ : Type) [ByteSource σ Error] {β γ : Type} (p : Program (β ⊕ γ)) : Prop :=
  ∀ (s : σ) (c : γ) (s' : σ), p.run s ≠ .ok (.inr c, s')

theorem GoesOn.again {α β γ : Type} {p : Program α} {b : β} :
    GoesOn σ (p >>= fun _ => (.again b : Program (β ⊕ γ))) := by
  intro s c s' h
  obtain ⟨_, s1, -, h⟩ := run_bind_eq_ok h
  cases h

theorem GoesOn.ite {β γ : Type} {c : Prop} [Decidable c] {p q : Program (β ⊕ γ)} (hp : GoesOn σ p)
    (hq : GoesOn σ q) : GoesOn σ (if c then p else q) := by
  split
  · exact hp
  · exact hq

theorem GoesOn.bind {α β γ : Type} {p : Program α} {f : α → Program (β ⊕ γ)} (hf : ∀ a, GoesOn σ (f a)) :
    GoesOn σ (p >>= f) := by
  intro s c s' h
  obtain ⟨a, s1, -, h⟩ := run_bind_eq_ok h
  exact hf a s1 c s' h

theorem GoesOn.invalid {β γ : Type} (offset : Nat) (message : String) :
    GoesOn σ (invalid offset message : Program (β ⊕ γ)) := by
  intro s c s' h
  cases h

/-- Finishing a definition reads nothing. -/
theorem finish_definition_stays {symbol : String} {start : Nat} {kind : LlvmDefinitionKind}
    {definition : LlvmDefinitionRecord} (h : (finish_definition symbol start kind).run s = .ok (definition, s')) :
    s' = s := by
  have stays {α : Type} (result : Except records.Error α) {a : α} {s1 s2 : σ}
      (h : (invalid_record start result).run s1 = .ok (a, s2)) : s2 = s1 := by
    cases result with
    | error error => cases h
    | ok value =>
      cases h
      rfl
  obtain ⟨_, s1, hoffset, h⟩ := run_bind_eq_ok h
  cases hoffset
  obtain ⟨_, s2, hrange, h⟩ := run_bind_eq_ok h
  rw [stays _ h, stays _ hrange]

/-- The header of a function is what is read behind its keyword. -/
theorem functionFront_iff {start : Nat} {symbol : String} :
    FunctionFront start s symbol s' ↔ header.read_function.run (ByteSource.budget (some start) s) = .ok (symbol, s') := by
  constructor
  · rintro @⟨s1, s2, s3, s4, brace, hname, hopening, harguments, hsuffix, hbrace, hbody⟩
    have hloop : (Scan.iter header.function_suffix_turn ()).run s3 = .ok ((), s') := by
      rw [Turns.run_eq hsuffix, run_iter_unfold, header.function_suffix_turn, run_bind_ok hbrace, run_ite_pos hbody]
      rfl
    rw [header.read_function, run_bind_ok hname, run_bind_ok hopening, run_bind_ok harguments, run_bind_ok hloop]
    rfl
  · intro h
    obtain ⟨name, s1, hname, h⟩ := run_bind_eq_ok h
    obtain ⟨_, s2, hopening, h⟩ := run_bind_eq_ok h
    obtain ⟨_, s3, harguments, h⟩ := run_bind_eq_ok h
    obtain ⟨_, s4, hloop, h⟩ := run_bind_eq_ok h
    cases h
    obtain ⟨_, t, hsuffix, hstop⟩ := Turns.of_run hloop
    obtain ⟨brace, t', hbrace, hstop⟩ := run_bind_eq_ok hstop
    by_cases hbody : brace.bytes = text "\x7b"
    · rw [run_ite_pos hbody] at hstop
      cases hstop
      exact ⟨hname, hopening, harguments, hsuffix, hbrace, hbody⟩
    · rw [run_ite_neg hbody] at hstop
      refine absurd hstop (GoesOn.ite GoesOn.again (GoesOn.ite ?_ (GoesOn.ite ?_ GoesOn.again)) _ _ _)
      · exact GoesOn.bind fun _ => GoesOn.again
      · exact GoesOn.invalid _ _

/-- How the modifiers of a global end: with a variable, or with an alias or ifunc. -/
theorem read_global_kind_iff {kind : Option LlvmDefinitionKind} :
    read_global_kind.run s = .ok (kind, s') ↔ ∃ keyword s1 s2, Turns global_kind_turn () s () s1 ∧
      stream.read_required_token.run s1 = .ok (keyword, s2) ∧
        (kind = none ∧ (keyword.bytes = text "global" ∨ keyword.bytes = text "constant") ∧
            stream.skip_line.run (ByteSource.budget none s2) = .ok ((), s') ∨
          ∃ target found, kind = some found ∧ AliasKind keyword.bytes target found ∧
            header.read_alias_target.run s2 = .ok (target, s')) := by
  constructor
  · intro h
    obtain ⟨_, s1, hturns, hstop⟩ := Turns.of_run h
    obtain ⟨keyword, s2, hkeyword, hstop⟩ := run_bind_eq_ok hstop
    refine ⟨keyword, s1, s2, hturns, hkeyword, ?_⟩
    by_cases hglobal : (keyword.bytes = text "global" || keyword.bytes = text "constant") = true
    · rw [run_ite_pos hglobal] at hstop
      obtain ⟨_, s3, hend, hstop⟩ := run_bind_eq_ok hstop
      cases hend
      obtain ⟨_, s4, hline, hstop⟩ := run_bind_eq_ok hstop
      cases hstop
      exact Or.inl ⟨rfl, by simpa using hglobal, hline⟩
    rw [run_ite_neg hglobal] at hstop
    by_cases halias : keyword.bytes = text "alias"
    · rw [run_ite_pos halias] at hstop
      obtain ⟨target, s3, htarget, hstop⟩ := run_bind_eq_ok hstop
      cases hstop
      refine Or.inr ⟨target, _, rfl, ?_, htarget⟩
      rw [halias]
      cases target with
      | none => exact AliasKind.expression
      | some target => exact AliasKind.direct
    rw [run_ite_neg halias] at hstop
    by_cases hifunc : keyword.bytes = text "ifunc"
    · rw [run_ite_pos hifunc] at hstop
      obtain ⟨target, s3, htarget, hstop⟩ := run_bind_eq_ok hstop
      cases hstop
      refine Or.inr ⟨target, _, rfl, ?_, htarget⟩
      rw [hifunc]
      exact AliasKind.ifunc
    rw [run_ite_neg hifunc] at hstop
    refine absurd hstop (GoesOn.ite ?_ (GoesOn.ite ?_ (GoesOn.ite GoesOn.again (GoesOn.invalid _ _))) _ _ _)
    · intro s c s' h
      cases h
    · exact GoesOn.bind fun _ => GoesOn.again
  · rintro ⟨keyword, s1, s2, hturns, hkeyword, ⟨rfl, hglobal, hline⟩ | ⟨target, found, rfl, hkind, htarget⟩⟩
    · have hend : stream.end_header.run s2 = .ok ((), ByteSource.budget none s2) := rfl
      rw [read_global_kind, Turns.run_eq hturns, run_iter_unfold, global_kind_turn, run_bind_ok hkeyword,
        run_ite_pos (by simpa using hglobal), run_bind_ok hend, run_bind_ok hline]
      rfl
    · rw [read_global_kind, Turns.run_eq hturns, run_iter_unfold, global_kind_turn, run_bind_ok hkeyword]
      generalize hword : keyword.bytes = word at hkind
      cases hkind with
      | direct =>
        rw [run_ite_neg (by decide), run_ite_pos rfl, run_bind_ok htarget]
        rfl
      | expression =>
        rw [run_ite_neg (by decide), run_ite_pos rfl, run_bind_ok htarget]
        rfl
      | ifunc =>
        rw [run_ite_neg (by decide), run_ite_neg (by decide), run_ite_pos rfl, run_bind_ok htarget]
        rfl

/-- A global is its front and what its keyword leads to. -/
theorem read_global_definition_headed {byte : UInt8} {definition : Option LlvmDefinitionRecord} (hat : byte = ascii '@')
    (h : (read_global_definition (ByteSource.offset s)).run s = .ok (definition, s')) :
    ∃ span, Headed byte s definition s' span := by
  obtain ⟨_, s0, hbegin, h⟩ := run_bind_eq_ok h
  cases hbegin
  obtain ⟨symbol, s1, hsymbol, h⟩ := run_bind_eq_ok h
  obtain ⟨_, s2, hequals, h⟩ := run_bind_eq_ok h
  obtain ⟨kind, s5, hkind, h⟩ := run_bind_eq_ok h
  obtain ⟨keyword, s3, s4, hturns, hkeyword, ⟨rfl, hglobal, hline⟩ | ⟨target, found, rfl, hkind, htarget⟩⟩ :=
    read_global_kind_iff.mp hkind
  · cases h
    exact ⟨_, Headed.global hat (.mk hsymbol hequals hturns hkeyword) hglobal hline⟩
  · obtain ⟨name, s6, hname, h⟩ := run_bind_eq_ok h
    obtain ⟨record, s7, hfinish, h⟩ := run_bind_eq_ok h
    cases h
    cases hdecode : symbol.decode_symbol with
    | error error =>
      rw [hdecode] at hname
      cases hname
    | ok symbol =>
      rw [hdecode] at hname
      cases hname
      exact ⟨_, Headed.aliased hat (.mk hsymbol hequals hturns hkeyword) hkind htarget hdecode hfinish⟩

theorem scan_keyword_headed {byte : UInt8} {keyword : List UInt8} {definition : Option LlvmDefinitionRecord} {s1 : σ}
    (hbyte : ¬ is_ascii_whitespace byte) (hat : byte ≠ ascii '@') (hprobe : (probe byte).run s = .ok (keyword, s1))
    (h : (scan_keyword (ByteSource.offset s) keyword).run s1 = .ok (definition, s')) :
    ∃ span, Headed byte s definition s' span := by
  obtain ⟨starts, s2, hstarts, h⟩ := run_bind_eq_ok h
  cases starts with
  | false =>
    rw [run_ite_neg (by simp)] at h
    refine ⟨none, ?_⟩
    by_cases hline : ascii '\n' ∈ keyword
    · rw [run_ite_pos hline] at h
      cases h
      exact Headed.unrelated hbyte hat hprobe hstarts (run_ite_pos hline)
    · rw [run_ite_neg hline] at h
      obtain ⟨_, s3, hskip, h⟩ := run_bind_eq_ok h
      cases h
      exact Headed.unrelated hbyte hat hprobe hstarts ((run_ite_neg hline).trans hskip)
  | true =>
    have hdefine : keyword = text "define" := by
      by_contra hne
      rw [starts_function, run_ite_neg hne] at hstarts
      cases hstarts
    subst hdefine
    rw [run_ite_pos rfl] at h
    obtain ⟨record, s6, hfunction, h⟩ := run_bind_eq_ok h
    cases h
    obtain ⟨_, s3, hbegin, hfunction⟩ := run_bind_eq_ok hfunction
    cases hbegin
    obtain ⟨symbol, s4, hfront, hfunction⟩ := run_bind_eq_ok hfunction
    obtain ⟨_, s5, hend, hfunction⟩ := run_bind_eq_ok hfunction
    cases hend
    obtain ⟨_, s5, hbody, hfinish⟩ := run_bind_eq_ok hfunction
    exact ⟨_, Headed.function hbyte hat hprobe hstarts (functionFront_iff.mpr hfront) hbody hfinish⟩

/-- Every item that is scanned is one of these. -/
theorem scan_item_headed {byte : UInt8} {definition : Option LlvmDefinitionRecord}
    (h : (scan_item byte).run s = .ok (definition, s')) : ∃ span, Headed byte s definition s' span := by
  by_cases hbyte : is_ascii_whitespace byte = true
  · rw [scan_item, run_ite_pos hbyte] at h
    obtain ⟨taken, s1, htake, h⟩ := run_bind_eq_ok h
    cases h
    exact ⟨none, Headed.whitespace hbyte htake⟩
  rw [scan_item, run_ite_neg hbyte] at h
  obtain ⟨start, s0, hoffset, h⟩ := run_bind_eq_ok h
  cases hoffset
  by_cases hat : byte = ascii '@'
  · rw [run_ite_pos hat] at h
    exact read_global_definition_headed hat h
  rw [run_ite_neg hat] at h
  by_cases hd : byte = ascii 'd'
  · rw [run_ite_pos hd] at h
    obtain ⟨keyword, s1, hprobe, h⟩ := run_bind_eq_ok h
    exact scan_keyword_headed hbyte hat ((run_ite_pos hd).trans hprobe) h
  · rw [run_ite_neg hd] at h
    exact scan_keyword_headed hbyte hat ((run_ite_neg hd).trans rfl) h

theorem scan_item_keyword {byte : UInt8} {keyword : List UInt8} {s1 : σ} (hbyte : ¬ is_ascii_whitespace byte)
    (hat : byte ≠ ascii '@') (hprobe : (probe byte).run s = .ok (keyword, s1)) :
    (scan_item byte).run s = (scan_keyword (ByteSource.offset s) keyword).run s1 := by
  have hoffset : stream.offset.run s = .ok (ByteSource.offset s, s) := rfl
  rw [scan_item, run_ite_neg hbyte, run_bind_ok hoffset, run_ite_neg hat]
  by_cases hd : byte = ascii 'd'
  · rw [probe, run_ite_pos hd] at hprobe
    rw [run_ite_pos hd, run_bind_ok hprobe]
  · rw [probe, run_ite_neg hd] at hprobe
    rw [run_ite_neg hd]
    cases hprobe
    rfl

theorem GlobalFront.run {symbol keyword : Token} {s1 : σ} {definition : Option LlvmDefinitionRecord}
    (h : GlobalFront s symbol keyword s1)
    (hrest : ∃ kind s2, (kind = none ∧ (keyword.bytes = text "global" ∨ keyword.bytes = text "constant") ∧
            stream.skip_line.run (ByteSource.budget none s1) = .ok ((), s2) ∨
          ∃ target found, kind = some found ∧ AliasKind keyword.bytes target found ∧
            header.read_alias_target.run s1 = .ok (target, s2)) ∧
      (match kind with
        | none => do
          stream.end_header
          return none
        | some kind => do
          let symbol ← Scan.ofExcept symbol.decode_symbol
          let definition ← finish_definition symbol (ByteSource.offset s) kind
          stream.end_header
          return some definition : Program (Option LlvmDefinitionRecord)).run s2 = .ok (definition, s')) :
    (scan_item (ascii '@')).run s = .ok (definition, s') := by
  obtain ⟨hsymbol, hequals, hturns, hkeyword⟩ := h
  obtain ⟨kind, s2, hkind, hrest⟩ := hrest
  have hoffset : stream.offset.run s = .ok (ByteSource.offset s, s) := rfl
  have hbegin : (stream.begin_header (ByteSource.offset s)).run s =
      .ok ((), ByteSource.budget (some (ByteSource.offset s)) s) := rfl
  rw [scan_item, run_ite_neg (by decide), run_bind_ok hoffset, run_ite_pos rfl, read_global_definition,
    run_bind_ok hbegin, run_bind_ok hsymbol, run_bind_ok hequals,
    run_bind_ok (read_global_kind_iff.mpr ⟨keyword, _, _, hturns, hkeyword, hkind⟩)]
  exact hrest

/-- What an item is made of is what its scan reads. -/
theorem Headed.run {byte : UInt8} {definition : Option LlvmDefinitionRecord} {span : Option Nat}
    (h : Headed byte s definition s' span) : (scan_item byte).run s = .ok (definition, s') := by
  cases h with
  | whitespace hbyte htake =>
    rw [scan_item, run_ite_pos hbyte, run_bind_ok htake]
    rfl
  | @unrelated keyword s1 s2 _ hbyte hat hprobe hstarts hline =>
    rw [scan_item_keyword hbyte hat hprobe, scan_keyword, run_bind_ok hstarts, run_ite_neg (by simp)]
    by_cases hmem : ascii '\n' ∈ keyword
    · rw [unrelated_rest, run_ite_pos hmem] at hline
      cases hline
      exact run_ite_pos hmem
    · rw [unrelated_rest, run_ite_neg hmem] at hline
      rw [run_ite_neg hmem, run_bind_ok hline]
      rfl
  | @function symbol record s1 s2 s3 s4 _ hbyte hat hprobe hstarts hfront hbody hfinish =>
    have hbegin : (stream.begin_header (ByteSource.offset s)).run s2 =
        .ok ((), ByteSource.budget (some (ByteSource.offset s)) s2) := rfl
    have hend : stream.end_header.run s3 = .ok ((), ByteSource.budget none s3) := rfl
    have hfunction : (read_function_definition (ByteSource.offset s)).run s2 = .ok (record, s') := by
      rw [read_function_definition, run_bind_ok hbegin, run_bind_ok (functionFront_iff.mp hfront), run_bind_ok hend,
        run_bind_ok hbody, hfinish]
    rw [scan_item_keyword hbyte hat hprobe, scan_keyword, run_bind_ok hstarts, run_ite_pos rfl, run_bind_ok hfunction]
    rfl
  | global hat hfront hkeyword hline =>
    subst hat
    exact hfront.run ⟨none, _, Or.inl ⟨rfl, hkeyword, hline⟩, rfl⟩
  | aliased hat hfront hkind htarget hname hfinish =>
    subst hat
    refine hfront.run ⟨_, _, Or.inr ⟨_, _, rfl, hkind, htarget⟩, ?_⟩
    simp only [hname]
    exact (run_bind_ok rfl).trans ((run_bind_ok hfinish).trans rfl)

theorem Headers.run {definitions : List LlvmDefinitionRecord} {spans : List Nat} (h : Headers s definitions spans s') :
    ∀ found, (Scan.iter scan_turn found).run s = .ok (found ++ definitions, s') := by
  induction h with
  | done hpeek =>
    intro found
    rw [run_iter_unfold, scan_turn, run_bind_ok hpeek, List.append_nil]
    rfl
  | item hpeek hitem hless hheaders ih =>
    intro found
    rw [run_iter_unfold, scan_turn, run_bind_ok hpeek, run_bind_ok hitem.run]
    simp only [run_again, andThen_ok, if_pos hless]
    rw [ih, List.append_assoc]

/-- Every scan that returns has headers. -/
theorem headers_of_run {found definitions : List LlvmDefinitionRecord}
    (h : (Scan.iter scan_turn found).run s = .ok (definitions, s')) :
    ∃ more spans, definitions = found ++ more ∧ Headers s more spans s' := by
  obtain ⟨last, t, hturns, hstop⟩ := Turns.of_run h
  induction hturns with
  | first found s =>
    obtain ⟨byte, s1, hpeek, hstop⟩ := run_bind_eq_ok hstop
    cases byte with
    | none =>
      cases hstop
      exact ⟨[], [], (List.append_nil _).symm, Headers.done hpeek⟩
    | some byte =>
      obtain ⟨definition, s2, hitem, hstop⟩ := run_bind_eq_ok hstop
      cases hstop
  | @next found found' last s s1 t hturn hless hturns ih =>
    obtain ⟨more, spans, rfl, hheaders⟩ := ih (by rwa [Turns.run_eq (.next hturn hless (.first found' s1))] at h) hstop
    obtain ⟨byte, s2, hpeek, hturn⟩ := run_bind_eq_ok hturn
    cases byte with
    | none => cases hturn
    | some byte =>
      obtain ⟨definition, s3, hitem, hturn⟩ := run_bind_eq_ok hturn
      cases hturn
      obtain ⟨span, hspan⟩ := scan_item_headed hitem
      exact ⟨_, _, List.append_assoc _ _ _, Headers.item hpeek hspan hless hheaders⟩

end optic.llvm_index
