import Optic.Wire.Decoder

open rust streams

namespace wire.Decoder

variable {ε α β ρ ι : Type} {report : IoError → ε} {reader : Reader}

theorem error_stop_of (events : List Event) : (stop_of events).error = (fault events).getD unexpected_eof := by
  rw [stop_of]
  cases fault events <;> rfl

/-- What a reader was driven to is what all its bytes at once led to, and it is left directly behind
the bytes that were taken. Or its failure was reported. -/
inductive Matches (report : IoError → ε) (reader : Reader) :
    Except ε (α × List UInt8) → Except ε (α × Reader) → Prop
  | ok {a : α} (n : Nat) {next : Reader} (events : next.events = after n reader.events)
    (within : n ≤ (delivered reader.events).length) :
    Matches report reader (.ok (a, (delivered reader.events).drop n)) (.ok (a, next))
  | error (error : ε) : Matches report reader (.error error) (.error error)
  | failed (source : IoError) (failure : fault reader.events = some source) (result : Except ε (α × List UInt8)) :
    Matches report reader result (.error (report source))

/-- A decoder that never shows how its reader delivers the bytes. -/
def Agrees (report : IoError → ε) (p : Decoder ε α) : Prop :=
  ∀ reader : Reader, Matches report reader (p.run (delivered reader.events)) (p.drive reader)

theorem Matches.zero {a : α} : Matches report reader (.ok (a, delivered reader.events) : Except ε _) (.ok (a, reader)) :=
  .ok 0 (by simp [after]) (Nat.zero_le _)

theorem Matches.behind {mid : Reader} {n : Nat} (hevents : mid.events = after n reader.events)
    (hwithin : n ≤ (delivered reader.events).length) {result : Except ε (α × List UInt8)} {driven : Except ε (α × Reader)}
    (h : Matches report mid result driven) : Matches report reader result driven := by
  obtain ⟨hdelivered, hsame⟩ := after_delivered hwithin
  cases h with
  | error error => exact .error error
  | failed source failure => exact .failed source (by rw [← hsame, ← hevents, failure]) _
  | ok m events within =>
    rw [hevents, hdelivered, List.length_drop] at within
    rw [hevents, hdelivered, List.drop_drop]
    exact .ok (n + m) (by rw [events, hevents, after_after]) (by omega)

namespace Agrees

theorem pure {a : α} : Agrees report (Pure.pure a : Decoder ε α) := fun _ => .zero

theorem lift {result : Except ε α} : Agrees report (lift result) := by
  intro reader
  cases result with
  | ok a => exact .zero
  | error error => exact .error error

theorem fail {error : ε} : Agrees report (fail error : Decoder ε α) := lift

theorem bind {p : Decoder ε α} {f : α → Decoder ε β} (hp : Agrees report p) (hf : ∀ a, Agrees report (f a)) :
    Agrees report (p >>= f) := by
  intro reader
  have hfirst := hp reader
  rw [run_bind, drive_bind]
  generalize p.run (delivered reader.events) = result at hfirst
  generalize p.drive reader = driven at hfirst
  cases hfirst with
  | error error => exact .error error
  | failed source failure => exact .failed source failure _
  | @ok a n mid hevents hwithin =>
    have hnext := hf a mid
    simp only
    rw [← (after_delivered hwithin).1, ← hevents]
    exact hnext.behind hevents hwithin

theorem ite {c : Prop} [Decidable c] {p q : Decoder ε α} (hp : Agrees report p) (hq : Agrees report q) :
    Agrees report (if c then p else q) := by
  split
  · exact hp
  · exact hq

/-- Reading exactly never shows how the bytes are delivered. -/
theorem take {truncated : IoError → ε} (length : Nat)
    (h : ∀ source, truncated source = truncated unexpected_eof ∨ truncated source = report source) :
    Agrees report (take length truncated none) := by
  intro reader
  rw [run_take, drive_take]
  by_cases hlength : length ≤ (delivered reader.events).length
  · obtain ⟨next, hread, hpassed⟩ := Reader.read_exact_passed hlength
    rw [if_pos hlength, hread]
    exact .ok length hpassed.events hlength
  · obtain ⟨next, hread, -⟩ := Reader.read_exact_stopped (Nat.lt_of_not_le hlength)
    rw [if_neg hlength, hread, error_stop_of]
    cases hfault : fault reader.events with
    | none => exact .error _
    | some source =>
      simp only [Option.getD_some, Option.getD_none]
      obtain heof | hreport := h source
      · rw [heof]
        exact .error _
      · rw [hreport]
        exact .failed source hfault _

/-- A loop agrees when its turns do. -/
theorem each {turn : β → Decoder ε (Option β)} {hstrict : ∀ state, Strict (turn state)}
    (hturn : ∀ state, Agrees report (turn state)) (state : β) : Agrees report (each turn hstrict state) := by
  intro reader
  change Matches report reader (turns turn hstrict state (delivered reader.events)) (drive_turns turn hstrict state reader)
  induction hlength : reader.events.length using Nat.strongRecOn generalizing state reader with
  | ind length ih =>
    have hfirst := hturn state reader
    rcases hdrive : (turn state).drive reader with error | ⟨next, mid⟩
    · rw [hdrive] at hfirst
      rw [drive_turns_error hdrive]
      rcases hrun : (turn state).run (delivered reader.events) with other | found
      · rw [hrun] at hfirst
        rw [turns_error hrun]
        cases hfirst with
        | error error => exact .error _
        | failed source failure => exact .failed source failure _
      · rw [hrun] at hfirst
        cases hfirst with
        | failed source failure => exact .failed source failure _
    · rw [hdrive] at hfirst
      rcases hrun : (turn state).run (delivered reader.events) with error | found
      · rw [hrun] at hfirst
        cases hfirst
      · rw [hrun] at hfirst
        cases hfirst with
        | ok n hevents hwithin =>
          cases next with
          | none =>
            rw [turns_end hrun, drive_turns_end hdrive]
            exact .ok n hevents hwithin
          | some next =>
            rw [turns_next hrun, drive_turns_next hdrive, ← (after_delivered hwithin).1, ← hevents]
            exact (ih _ (hlength ▸ (hstrict state).drive hdrive) next mid rfl).behind hevents hwithin

end Agrees

end wire.Decoder
