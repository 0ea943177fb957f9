import Optic.ByteScan.Spec
import Optic.LlvmIndex.Lexeme
import Optic.LlvmIndex.Reader

open byte_scan rust optic.records

namespace optic.llvm_index

/-- An error that a caller receives, as opposed to a panic. -/
def Error.Reported (error : Error) : Prop := ∀ message, error ≠ .panicked message

/-- A program that neither stalls nor panics, and establishes `Q` if it returns. -/
abbrev Ensures {α : Type} (p : Program α) (s : Contiguous) (Q : α → Contiguous → Prop) : Prop :=
  Meets Error.Reported p s Q

/-- A run moved over exactly the bytes `q`. -/
structure Consumed (s : Contiguous) (q : List UInt8) (s' : Contiguous) : Prop where
  rest : s.rest = q ++ s'.rest
  failure : s'.failure = s.failure
  offset : s'.offset = s.offset + q.length
  header_start : s'.header_start = s.header_start
  bounded : s.offset < UInt64.size → s'.offset < UInt64.size

namespace Consumed

variable {s s' s'' : Contiguous} {q q' : List UInt8}

theorem refl (s : Contiguous) : Consumed s [] s := ⟨rfl, rfl, rfl, rfl, id⟩

theorem look (s : Contiguous) : Consumed s [] s.look := ⟨rfl, rfl, rfl, rfl, id⟩

theorem trans (h : Consumed s q s') (h' : Consumed s' q' s'') : Consumed s (q ++ q') s'' where
  rest := by rw [h.rest, h'.rest, List.append_assoc]
  failure := h'.failure.trans h.failure
  offset := by rw [h'.offset, h.offset, List.length_append, Nat.add_assoc]
  header_start := h'.header_start.trans h.header_start
  bounded := h'.bounded ∘ h.bounded

theorem cons {byte : UInt8} (h : Consumed s [byte] s') (h' : Consumed s' q s'') :
    Consumed s (byte :: q) s'' := h.trans h'

theorem of_look (h : Consumed s.look q s') : Consumed s q s' := (look s).trans h

/-- The consumed bytes start where the input does. -/
theorem head (h : Consumed s q s') {byte : UInt8} {rest : List UInt8} (hrest : s.rest = byte :: rest)
    (hq : q ≠ []) : ∃ tail, q = byte :: tail := by
  obtain ⟨first, tail, rfl⟩ := List.exists_cons_of_ne_nil hq
  have heq := h.rest.symm.trans hrest
  exact ⟨tail, by rw [(List.cons.inj heq).1]⟩

theorem active (h : Consumed s q s') (hs : s.header_start.isSome) : s'.header_start.isSome := by
  rw [h.header_start]
  exact hs

theorem remaining_lt (h : Consumed s q s') (hq : q ≠ []) :
    ByteSource.remaining s' < ByteSource.remaining s := by
  change s'.rest.length < s.rest.length
  rw [h.rest, List.length_append]
  have hpos := List.length_pos_iff.mpr hq
  omega

/-- Where the header budget starts has no bearing on what was consumed. -/
theorem rebudget (h : Consumed s q s') (start : Option Nat) :
    Consumed { s with header_start := start } q { s' with header_start := start } :=
  { h with header_start := rfl }

/-- A budget that was started and ended around a run leaves no trace. -/
theorem unbudget {start : Option Nat} (hs : s.header_start = none)
    (h : Consumed { s with header_start := start } q s') : Consumed s q { s' with header_start := none } :=
  { h with header_start := hs.symm }

/-- What is left is what the consumed bytes leave. -/
theorem rest_eq (h : Consumed s q s') {r : List UInt8} (hrest : s.rest = q ++ r) : s'.rest = r :=
  List.append_cancel_left (h.rest.symm.trans hrest)

end Consumed

/-- How a run that passes over the end of a line stops: behind its first newline, or at
the end of the input. -/
def LineEnd (q : List UInt8) (s' : Contiguous) : Prop :=
  (∃ line, ascii '\n' ∉ line ∧ q = line ++ [ascii '\n'] ∧ s'.looked = false) ∨
    ascii '\n' ∉ q ∧ s'.rest = []

theorem LineEnd.cons {byte : UInt8} {q : List UInt8} {s' : Contiguous} (hbyte : byte ≠ ascii '\n')
    (h : LineEnd q s') : LineEnd (byte :: q) s' := by
  obtain ⟨line, hline, rfl, hlooked⟩ | ⟨hq, hrest⟩ := h
  · exact Or.inl ⟨byte :: line, by simp [hline, Ne.symm hbyte], rfl, hlooked⟩
  · exact Or.inr ⟨by simp [hq, Ne.symm hbyte], hrest⟩

theorem LineEnd.ne_nil {s s' : Contiguous} {q : List UInt8} (h : LineEnd q s') (hq : Consumed s q s')
    (hs : s.rest ≠ []) : q ≠ [] := by
  rintro rfl
  obtain ⟨line, -, hline, -⟩ | ⟨-, hrest⟩ := h
  · simp at hline
  · exact hs (by rw [hq.rest, hrest]; rfl)

/-- A run that stopped inside a line, or did not move. -/
def Onward (s s' : Contiguous) : Prop := ∃ q, Consumed s q s' ∧ q.getLast? ≠ some (ascii '\n')

/-- A run that consumed a byte and stopped inside a line. -/
def Within (s s' : Contiguous) : Prop :=
  ∃ q, Consumed s q s' ∧ q ≠ [] ∧ q.getLast? ≠ some (ascii '\n')

namespace Onward

variable {s s' s'' : Contiguous}

theorem refl (s : Contiguous) : Onward s s := ⟨[], Consumed.refl s, by simp⟩

theorem trans (h : Onward s s') (h' : Onward s' s'') : Onward s s'' := by
  obtain ⟨q, hq, hlast⟩ := h
  obtain ⟨q', hq', hlast'⟩ := h'
  refine ⟨q ++ q', hq.trans hq', ?_⟩
  cases q' with
  | nil => simpa using hlast
  | cons byte q' => simpa [List.getLast?_append] using hlast'

theorem active (h : Onward s s') (hs : s.header_start.isSome) : s'.header_start.isSome := by
  obtain ⟨q, hq, -⟩ := h
  exact hq.active hs

end Onward

namespace Within

variable {s s' s'' : Contiguous}

theorem onward (h : Within s s') : Onward s s' := by
  obtain ⟨q, hq, -, hlast⟩ := h
  exact ⟨q, hq, hlast⟩

theorem trans_onward (h : Within s s') (h' : Onward s' s'') : Within s s'' := by
  obtain ⟨q, hq, hne, hlast⟩ := h
  obtain ⟨q', hq', hlast'⟩ := h'
  refine ⟨q ++ q', hq.trans hq', by simp [hne], ?_⟩
  cases q' with
  | nil => simpa using hlast
  | cons byte q' => simpa [List.getLast?_append] using hlast'

theorem trans (h : Within s s') (h' : Within s' s'') : Within s s'' := h.trans_onward h'.onward

theorem active (h : Within s s') (hs : s.header_start.isSome) : s'.header_start.isSome :=
  h.onward.active hs

theorem remaining_lt (h : Within s s') : ByteSource.remaining s' < ByteSource.remaining s := by
  obtain ⟨q, hq, hne, -⟩ := h
  exact hq.remaining_lt hne

end Within

/-- How a run over complete lines stops: behind a newline that it consumed, or at the end
of an input whose last line has none. -/
def LineStop (q : List UInt8) (s' : Contiguous) : Prop :=
  q.getLast? = some (ascii '\n') ∧ s'.looked = false ∨ q.getLast? ≠ some (ascii '\n') ∧ s'.rest = []

theorem LineEnd.lineStop {q : List UInt8} {s' : Contiguous} (h : LineEnd q s') : LineStop q s' := by
  obtain ⟨line, -, rfl, hlooked⟩ | ⟨hq, hrest⟩ := h
  · exact Or.inl ⟨by simp, hlooked⟩
  · exact Or.inr ⟨fun hlast => hq (List.mem_of_getLast? hlast), hrest⟩

/-- A run that consumed a byte and stopped where a line does. -/
def EndsLine (s s' : Contiguous) : Prop := ∃ q, Consumed s q s' ∧ q ≠ [] ∧ LineStop q s'

theorem LineEnd.endsLine {s s' : Contiguous} {q : List UInt8} (h : LineEnd q s') (hq : Consumed s q s')
    (hne : q ≠ []) : EndsLine s s' := ⟨q, hq, hne, h.lineStop⟩

/-- Ending the line ends the run that stopped inside it. -/
theorem Within.line_end {s s' s'' : Contiguous} {q' : List UInt8} (h : Within s s') (hq' : Consumed s' q' s'')
    (hend : LineEnd q' s'') : EndsLine s s'' := by
  obtain ⟨q, hq, hne, hlast⟩ := h
  refine ⟨q ++ q', hq.trans hq', by simp [hne], ?_⟩
  have hstop := hend.lineStop
  cases q' with
  | nil => exact Or.inr ⟨by simpa using hlast, by simpa [LineStop] using hstop⟩
  | cons byte q' => simpa [LineStop, List.getLast?_append] using hstop

theorem Within.endsLine {s s' s'' : Contiguous} (h : Within s s') (h' : EndsLine s' s'') : EndsLine s s'' := by
  obtain ⟨q, hq, hne, -⟩ := h
  obtain ⟨q', hq', hne', hstop⟩ := h'
  refine ⟨q ++ q', hq.trans hq', by simp [hne], ?_⟩
  cases q' with
  | nil => exact absurd rfl hne'
  | cons byte q' => simpa [LineStop, List.getLast?_append] using hstop

theorem Within.rebudget {s s' : Contiguous} (h : Within s s') (start : Option Nat) :
    Within { s with header_start := start } { s' with header_start := start } := by
  obtain ⟨q, hq, hne, hlast⟩ := h
  exact ⟨q, hq.rebudget start, hne, hlast⟩

theorem EndsLine.rebudget {s s' : Contiguous} (h : EndsLine s s') (start : Option Nat) :
    EndsLine { s with header_start := start } { s' with header_start := start } := by
  obtain ⟨q, hq, hne, hstop⟩ := h
  exact ⟨q, hq.rebudget start, hne, hstop⟩

/-- One token was read, behind what may precede it. -/
def ReadToken (stop : Bool) (s : Contiguous) (token : Token) (s' : Contiguous) : Prop :=
  ∃ gap, Consumed s (gap ++ token.bytes) s' ∧ token.offset = s.offset + gap.length ∧ Blank stop gap ∧
    Visible token.bytes ∧ Lexeme token.bytes s'.rest

theorem ReadToken.within {stop : Bool} {s s' : Contiguous} {token : Token} (h : ReadToken stop s token s') :
    Within s s' := by
  obtain ⟨gap, hconsumed, -, -, hvisible, hlexeme⟩ := h
  refine ⟨_, hconsumed, by simp [hlexeme.ne_nil], ?_⟩
  have hlf := hlexeme.lf_notMem hvisible
  rw [List.getLast?_append, List.getLast?_eq_some_getLast hlexeme.ne_nil, Option.some_or]
  intro hlast
  exact hlf (List.mem_of_getLast? (List.getLast?_eq_some_getLast hlexeme.ne_nil |>.trans hlast))

namespace stream

theorem peek_spec (s : Contiguous) : Ensures peek s fun byte s' => byte = s.rest.head? ∧ s' = s.look := by
  refine Meets.read_peek (fun byte s' hpeek => ?_) (fun e hpeek => ?_)
  all_goals
    change Contiguous.peek s = _ at hpeek
    unfold Contiguous.peek at hpeek
    split at hpeek <;> cases hpeek <;> simp_all [Error.Reported]

/-- A peek finds the end of an input only where no failure follows it. -/
theorem peek_end {s s' : Contiguous} (h : peek.run s = .ok (none, s')) : s.failure = none := by
  simp only [peek, Scan.run, Contiguous.byte_source_peek] at h
  unfold Contiguous.peek at h
  cases hrest : s.rest with
  | nil => cases hfailure : s.failure <;> simp_all
  | cons byte rest => simp_all

theorem charge_reported {offset : Nat} {header_start : Option Nat} {e : Error}
    (h : charge offset header_start = .error e) : e.Reported := by
  unfold charge at h
  split at h
  · cases h
    exact fun _ => nofun
  · split at h
    · cases h
    · cases h
      exact fun _ => nofun

/-- What taking a byte establishes. -/
def Took (s : Contiguous) : Option UInt8 → Contiguous → Prop
  | some byte, s' => Consumed s [byte] s' ∧ s'.looked = false
  | none, s' => s.rest = [] ∧ s' = s.look

theorem take_spec (s : Contiguous) : Ensures take s (Took s) := by
  refine Meets.read_take (fun byte s' htake => ?_) (fun e htake => ?_)
  all_goals
    change Contiguous.take s = _ at htake
    unfold Contiguous.take at htake
  · split at htake
    · next byte rest _ hrest =>
      obtain ⟨offset, hcharge, htake⟩ := bind_eq_ok_iff.mp htake
      cases htake
      exact ⟨⟨hrest, rfl, (charge_ok hcharge).1, rfl, fun _ => (charge_ok hcharge).2⟩, rfl⟩
    · cases htake
    · next hrest _ =>
      cases htake
      exact ⟨hrest, rfl⟩
  · split at htake
    · cases hcharge : charge s.offset s.header_start with
      | ok offset =>
        rw [hcharge] at htake
        cases htake
      | error error =>
        rw [hcharge] at htake
        cases htake
        exact charge_reported hcharge
    · cases htake
      exact fun _ => nofun
    · cases htake

theorem offset_spec (s : Contiguous) : Ensures offset s fun value s' => value = s.offset ∧ s' = s :=
  ⟨rfl, rfl⟩

theorem header_active_spec (s : Contiguous) :
    Ensures header_active s fun value s' => value = s.header_start.isSome ∧ s' = s := ⟨rfl, rfl⟩

theorem begin_header_spec (s : Contiguous) (start : Nat) :
    Ensures (begin_header start) s fun _ s' => s' = { s with header_start := some start } := rfl

theorem end_header_spec (s : Contiguous) :
    Ensures end_header s fun _ s' => s' = { s with header_start := none } := rfl

theorem invalid_spec {α : Type} {s : Contiguous} {offset : Nat} {message : String}
    {Q : α → Contiguous → Prop} : Ensures (invalid offset message) s Q :=
  Meets.fail fun _ => nofun

end stream

end optic.llvm_index
