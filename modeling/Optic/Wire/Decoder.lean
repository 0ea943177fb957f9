import Optic.Streams.ReaderSpec
import Optic.Wire.Format

open rust streams

namespace wire

/-- A decoder takes a value off the front of its input, or rejects the input. It runs on all of the
bytes at once, and on a reader that delivers them. -/
structure Decoder (ε α : Type) where
  run : List UInt8 → Except ε (α × List UInt8)
  shrinks : ∀ {input a rest}, run input = .ok (a, rest) → rest.length ≤ input.length
  drive : Reader → Except ε (α × Reader)
  drains : ∀ {reader a next}, drive reader = .ok (a, next) → next.events.length ≤ reader.events.length

namespace Decoder

variable {ε α β ρ ι : Type}

instance : Monad (Decoder ε) where
  pure a := {
    run := fun input => .ok (a, input)
    shrinks := fun h => by cases h; exact Nat.le_refl _
    drive := fun reader => .ok (a, reader)
    drains := fun h => by cases h; exact Nat.le_refl _ }
  bind p f := {
    run := fun input =>
      match p.run input with
      | .ok (a, rest) => (f a).run rest
      | .error error => .error error
    shrinks := by
      intro input b rest h
      split at h
      · next a mid hfirst => exact Nat.le_trans ((f a).shrinks h) (p.shrinks hfirst)
      · cases h
    drive := fun reader =>
      match p.drive reader with
      | .ok (a, next) => (f a).drive next
      | .error error => .error error
    drains := by
      intro reader b next h
      split at h
      · next a mid hfirst => exact Nat.le_trans ((f a).drains h) (p.drains hfirst)
      · cases h }

/-- Hands on a result that needs no input. -/
def lift (result : Except ε α) : Decoder ε α where
  run input := result.map fun a => (a, input)
  shrinks h := by
    cases result with
    | ok a =>
      cases h
      exact Nat.le_refl _
    | error error => cases h
  drive reader := result.map fun a => (a, reader)
  drains h := by
    cases result with
    | ok a =>
      cases h
      exact Nat.le_refl _
    | error error => cases h

def fail (error : ε) : Decoder ε α := lift (.error error)

/-- Takes the next bytes with `Read::read_exact`. Behind all of its bytes a reader reports a failure,
or its end. -/
def take (length : Nat) (report : IoError → ε) (failure : Option IoError) : Decoder ε (List UInt8) where
  run input :=
    if length ≤ input.length then .ok (input.take length, input.drop length)
    else .error (report (failure.getD unexpected_eof))
  shrinks h := by
    split at h
    · cases h
      rw [List.length_drop]
      omega
    · cases h
  drive reader :=
    match reader.read_exact length with
    | (.ok bytes, next) => .ok (bytes, next)
    | (.error source, _) => .error (report source)
  drains h := by
    split at h
    · next hread =>
      cases h
      rw [(Reader.read_exact_ok hread).2.2.events]
      exact length_after_le _ _
    · cases h

/-- Accepts the end of the input only, which it asks for with one `Read::read`. -/
def finish (trailing : ε) (report : IoError → ε) (failure : Option IoError) : Decoder ε Unit where
  run input :=
    if input = [] then
      match failure with
      | none => .ok ((), [])
      | some source => .error (report source)
    else .error trailing
  shrinks h := by
    split at h
    · split at h
      · cases h
        exact Nat.zero_le _
      · cases h
    · cases h
  drive reader :=
    match reader.read 1 with
    | (.ok [], next) => .ok ((), next)
    | (.ok (_ :: _), _) => .error trailing
    | (.error source, _) => .error (report source)
  drains h := by
    split at h
    · next hread =>
      cases h
      rw [(Reader.read_nil Nat.one_pos hread).2.1]
      exact Nat.zero_le _
    · cases h
    · cases h

theorem ext {p q : Decoder ε α} (hrun : p.run = q.run) (hdrive : p.drive = q.drive) : p = q := by
  cases p
  cases q
  cases hrun
  cases hdrive
  rfl

theorem run_bind {p : Decoder ε α} {f : α → Decoder ε β} (input : List UInt8) : (p >>= f).run input =
    match p.run input with
    | .ok (a, rest) => (f a).run rest
    | .error error => .error error := rfl

theorem run_bind_of_ok {p : Decoder ε α} {f : α → Decoder ε β} {input rest : List UInt8} {a : α}
    (h : p.run input = .ok (a, rest)) : (p >>= f).run input = (f a).run rest := by
  rw [run_bind, h]

theorem run_bind_of_error {p : Decoder ε α} {f : α → Decoder ε β} {input : List UInt8} {error : ε}
    (h : p.run input = .error error) : (p >>= f).run input = .error error := by
  rw [run_bind, h]

theorem drive_bind {p : Decoder ε α} {f : α → Decoder ε β} (reader : Reader) : (p >>= f).drive reader =
    match p.drive reader with
    | .ok (a, next) => (f a).drive next
    | .error error => .error error := rfl

theorem bind_assoc {γ : Type} (p : Decoder ε α) (f : α → Decoder ε β) (g : β → Decoder ε γ) :
    p >>= f >>= g = p >>= fun a => f a >>= g := by
  apply ext
  · funext input
    simp only [run_bind]
    cases p.run input <;> rfl
  · funext reader
    simp only [drive_bind]
    cases p.drive reader <;> rfl

theorem pure_bind (a : α) (f : α → Decoder ε β) : pure a >>= f = f a := rfl

theorem lift_map (result : Except ε α) (f : α → β) : (lift result >>= fun a => pure (f a)) = lift (result.map f) := by
  cases result <;> rfl

theorem run_take (length : Nat) (report : IoError → ε) (failure : Option IoError) (input : List UInt8) :
    (take length report failure).run input =
      if length ≤ input.length then .ok (input.take length, input.drop length)
      else .error (report (failure.getD unexpected_eof)) := rfl

theorem drive_take (length : Nat) (report : IoError → ε) (failure : Option IoError) (reader : Reader) :
    (take length report failure).drive reader =
      match reader.read_exact length with
      | (.ok bytes, next) => .ok (bytes, next)
      | (.error source, _) => .error (report source) := rfl

theorem run_finish (trailing : ε) (report : IoError → ε) (failure : Option IoError) (input : List UInt8) :
    (finish trailing report failure).run input =
      if input = [] then
        match failure with
        | none => .ok ((), [])
        | some source => .error (report source)
      else .error trailing := rfl

theorem drive_finish (trailing : ε) (report : IoError → ε) (failure : Option IoError) (reader : Reader) :
    (finish trailing report failure).drive reader =
      match reader.read 1 with
      | (.ok [], next) => .ok ((), next)
      | (.ok (_ :: _), _) => .error trailing
      | (.error source, _) => .error (report source) := rfl

theorem run_bind_iff {p : Decoder ε α} {f : α → Decoder ε β} {input rest : List UInt8} {b : β} :
    (p >>= f).run input = .ok (b, rest) ↔ ∃ a mid, p.run input = .ok (a, mid) ∧ (f a).run mid = .ok (b, rest) := by
  rw [run_bind]
  cases hfirst : p.run input with
  | error error => simp
  | ok found => exact ⟨fun h => ⟨found.1, found.2, rfl, h⟩, fun ⟨a, mid, heq, h⟩ => by cases heq; exact h⟩

theorem run_pure_iff {input rest : List UInt8} {a b : α} :
    (pure a : Decoder ε α).run input = .ok (b, rest) ↔ a = b ∧ input = rest := by
  change (Except.ok (a, input) : Except ε _) = _ ↔ _
  simp

theorem run_lift_iff {result : Except ε α} {input rest : List UInt8} {a : α} :
    (lift result).run input = .ok (a, rest) ↔ result = .ok a ∧ input = rest := by
  cases result with
  | ok b => simp [lift, Except.map]
  | error error => simp [lift, Except.map]

theorem run_fail_iff {error : ε} {input rest : List UInt8} {a : α} :
    (fail error : Decoder ε α).run input = .ok (a, rest) ↔ False := by
  simp [fail, run_lift_iff]

theorem run_take_iff {length : Nat} {report : IoError → ε} {failure : Option IoError} {input bytes rest : List UInt8} :
    (take length report failure).run input = .ok (bytes, rest) ↔ bytes.length = length ∧ input = bytes ++ rest := by
  rw [run_take]
  by_cases hlength : length ≤ input.length
  · rw [if_pos hlength]
    constructor
    · intro h
      cases h
      exact ⟨List.length_take_of_le hlength, (List.take_append_drop length input).symm⟩
    · rintro ⟨rfl, rfl⟩
      rw [List.take_left, List.drop_left]
  · rw [if_neg hlength]
    constructor
    · exact nofun
    · rintro ⟨rfl, rfl⟩
      rw [List.length_append] at hlength
      omega

theorem run_finish_iff {trailing : ε} {report : IoError → ε} {failure : Option IoError} {input rest : List UInt8}
    {u : Unit} :
    (finish trailing report failure).run input = .ok (u, rest) ↔ failure = none ∧ input = [] ∧ rest = [] := by
  rw [run_finish]
  by_cases hinput : input = []
  · rw [if_pos hinput]
    cases failure <;> simp [hinput, eq_comm]
  · rw [if_neg hinput]
    simp [hinput]

/-- A decoder reads a format: it accepts the spellings of the values that `Meaning`
relates to a result, and takes no more than the spelling. -/
def Reads (p : Decoder ε α) (f : Format ρ) (Meaning : ρ → α → Prop) : Prop :=
  ∀ {input rest : List UInt8} {a : α},
    p.run input = .ok (a, rest) ↔ ∃ x, f.Valid x ∧ Meaning x a ∧ input = f.spell x ++ rest

theorem Reads.run_iff {p : Decoder ε α} {f : Format ρ} {Meaning : ρ → α → Prop} (h : Reads p f Meaning)
    {input rest : List UInt8} {a : α} :
    p.run input = .ok (a, rest) ↔ ∃ x, f.Valid x ∧ Meaning x a ∧ input = f.spell x ++ rest :=
  h

/-- A decoder that takes at least one byte. -/
structure Strict (p : Decoder ε α) : Prop where
  run : ∀ {input rest a}, p.run input = .ok (a, rest) → rest.length < input.length
  drive : ∀ {reader next a}, p.drive reader = .ok (a, next) → next.events.length < reader.events.length

theorem take_strict (length : Nat) (report : IoError → ε) (failure : Option IoError) :
    Strict (take (length + 1) report failure) where
  run h := by
    obtain ⟨hlength, rfl⟩ := run_take_iff.mp h
    rw [List.length_append]
    omega
  drive {reader next bytes} h := by
    rw [drive_take] at h
    split at h
    · next hread =>
      cases h
      obtain ⟨hlength, -, hpassed⟩ := Reader.read_exact_ok hread
      rw [hpassed.events]
      exact length_after_lt hlength
    · cases h

theorem drive_bind_iff {p : Decoder ε α} {f : α → Decoder ε β} {reader next : Reader} {b : β} :
    (p >>= f).drive reader = .ok (b, next) ↔ ∃ a mid, p.drive reader = .ok (a, mid) ∧ (f a).drive mid = .ok (b, next) := by
  rw [drive_bind]
  cases hfirst : p.drive reader with
  | error error => simp
  | ok found => exact ⟨fun h => ⟨found.1, found.2, rfl, h⟩, fun ⟨a, mid, heq, h⟩ => by cases heq; exact h⟩

theorem Strict.bind {p : Decoder ε α} (hp : Strict p) (f : α → Decoder ε β) : Strict (p >>= f) where
  run h := by
    obtain ⟨a, mid, hfirst, hnext⟩ := run_bind_iff.mp h
    exact Nat.lt_of_le_of_lt ((f a).shrinks hnext) (hp.run hfirst)
  drive h := by
    obtain ⟨a, mid, hfirst, hnext⟩ := drive_bind_iff.mp h
    exact Nat.lt_of_le_of_lt ((f a).drains hnext) (hp.drive hfirst)

/-- Takes turns on a state until one of them reports the end. -/
def turns (turn : β → Decoder ε (Option β)) (hstrict : ∀ state, Strict (turn state)) (state : β)
    (input : List UInt8) : Except ε (β × List UInt8) :=
  match _turned : (turn state).run input with
  | .error error => .error error
  | .ok (none, rest) => .ok (state, rest)
  | .ok (some next, rest) => turns turn hstrict next rest
termination_by input.length
decreasing_by exact (hstrict state).run ‹_›

variable {turn : β → Decoder ε (Option β)} {hstrict : ∀ state, Strict (turn state)}

theorem turns_error {state : β} {input : List UInt8} {error : ε} (h : (turn state).run input = .error error) :
    turns turn hstrict state input = .error error := by
  rw [turns]
  split
  · next hturn =>
    cases hturn.symm.trans h
    rfl
  · next hturn => cases hturn.symm.trans h
  · next hturn => cases hturn.symm.trans h

theorem turns_end {state : β} {input rest : List UInt8} (h : (turn state).run input = .ok (none, rest)) :
    turns turn hstrict state input = .ok (state, rest) := by
  rw [turns]
  split
  · next hturn => cases hturn.symm.trans h
  · next hturn =>
    cases hturn.symm.trans h
    rfl
  · next hturn => cases hturn.symm.trans h

theorem turns_next {state next : β} {input rest : List UInt8} (h : (turn state).run input = .ok (some next, rest)) :
    turns turn hstrict state input = turns turn hstrict next rest := by
  rw [turns]
  split
  · next hturn => cases hturn.symm.trans h
  · next hturn => cases hturn.symm.trans h
  · next hturn =>
    cases hturn.symm.trans h
    rfl

theorem turns_shrinks {state last : β} {input rest : List UInt8}
    (h : turns turn hstrict state input = .ok (last, rest)) : rest.length ≤ input.length := by
  fun_induction turns turn hstrict state input with
  | case1 => cases h
  | case2 state input mid hturn =>
    cases h
    exact (turn last).shrinks hturn
  | case3 state input next mid hturn ih => exact Nat.le_trans (ih h) (Nat.le_of_lt ((hstrict state).run hturn))

/-- Takes turns on what a reader delivers. -/
def drive_turns (turn : β → Decoder ε (Option β)) (hstrict : ∀ state, Strict (turn state)) (state : β)
    (reader : Reader) : Except ε (β × Reader) :=
  match _turned : (turn state).drive reader with
  | .error error => .error error
  | .ok (none, next) => .ok (state, next)
  | .ok (some state, next) => drive_turns turn hstrict state next
termination_by reader.events.length
decreasing_by exact (hstrict _).drive ‹_›

theorem drive_turns_error {state : β} {reader : Reader} {error : ε} (h : (turn state).drive reader = .error error) :
    drive_turns turn hstrict state reader = .error error := by
  rw [drive_turns]
  split
  · next hturn =>
    cases hturn.symm.trans h
    rfl
  · next hturn => cases hturn.symm.trans h
  · next hturn => cases hturn.symm.trans h

theorem drive_turns_end {state : β} {reader next : Reader} (h : (turn state).drive reader = .ok (none, next)) :
    drive_turns turn hstrict state reader = .ok (state, next) := by
  rw [drive_turns]
  split
  · next hturn => cases hturn.symm.trans h
  · next hturn =>
    cases hturn.symm.trans h
    rfl
  · next hturn => cases hturn.symm.trans h

theorem drive_turns_next {state after : β} {reader next : Reader} (h : (turn state).drive reader = .ok (some after, next)) :
    drive_turns turn hstrict state reader = drive_turns turn hstrict after next := by
  rw [drive_turns]
  split
  · next hturn => cases hturn.symm.trans h
  · next hturn => cases hturn.symm.trans h
  · next hturn =>
    cases hturn.symm.trans h
    rfl

theorem turns_drain {state last : β} {reader next : Reader}
    (h : drive_turns turn hstrict state reader = .ok (last, next)) : next.events.length ≤ reader.events.length := by
  fun_induction drive_turns turn hstrict state reader with
  | case1 => cases h
  | case2 state reader mid hturn =>
    cases h
    exact (turn last).drains hturn
  | case3 state reader after mid hturn ih => exact Nat.le_trans (ih h) (Nat.le_of_lt ((hstrict state).drive hturn))

/-- The loop over the turns. -/
def each (turn : β → Decoder ε (Option β)) (hstrict : ∀ state, Strict (turn state)) (state : β) : Decoder ε β where
  run := turns turn hstrict state
  shrinks := turns_shrinks
  drive := drive_turns turn hstrict state
  drains := turns_drain

/-- The states that items lead to, one step for each of them. -/
inductive Steps (Step : β → ι → β → Prop) : β → List ι → β → Prop
  | nil {state : β} : Steps Step state [] state
  | cons {state next last : β} {x : ι} {l : List ι} (first : Step state x next) (rest : Steps Step next l last) :
    Steps Step state (x :: l) last

theorem steps_nil_iff {Step : β → ι → β → Prop} {state last : β} : Steps Step state [] last ↔ state = last := by
  constructor
  · intro h
    cases h
    rfl
  · rintro rfl
    exact .nil

theorem steps_append_iff {Step : β → ι → β → Prop} {l : List ι} {x : ι} : ∀ {state last : β},
    Steps Step state (l ++ [x]) last ↔ ∃ mid, Steps Step state l mid ∧ Step mid x last := by
  induction l with
  | nil =>
    intro state last
    constructor
    · rintro (_ | ⟨hfirst, hrest⟩)
      obtain rfl := steps_nil_iff.mp hrest
      exact ⟨state, .nil, hfirst⟩
    · rintro ⟨mid, hnil, hstep⟩
      obtain rfl := steps_nil_iff.mp hnil
      exact .cons hstep .nil
  | cons y l ih =>
    intro state last
    constructor
    · rintro (_ | ⟨hfirst, hrest⟩)
      obtain ⟨mid, hmid, hstep⟩ := ih.mp hrest
      exact ⟨mid, .cons hfirst hmid, hstep⟩
    · rintro ⟨mid, _ | ⟨hfirst, hrest⟩, hstep⟩
      exact .cons hfirst (ih.mpr ⟨mid, hrest, hstep⟩)

/-- What a turn makes of an item, or of the terminator. -/
def Turn (Step : β → ι → β → Prop) (state : β) : Option ι → Option β → Prop
  | some x, some next => Step state x next
  | none, none => True
  | _, _ => False

/-- A loop whose turns read one item each reads any number of them. -/
theorem each_reads {f : Format (Option ι)} {Step : β → ι → β → Prop} (hnone : f.Valid none)
    (hturn : ∀ state, Reads (turn state) f (Turn Step state)) (state : β) :
    Reads (each turn hstrict state) f.many (Steps Step state) := by
  intro input rest last
  change turns turn hstrict state input = .ok (last, rest) ↔ _
  constructor
  · intro h
    fun_induction turns turn hstrict state input with
    | case1 => cases h
    | case2 state input mid hend =>
      cases h
      obtain ⟨x, -, hmeaning, hinput⟩ := (hturn last).mp hend
      cases x with
      | some x => cases hmeaning
      | none => exact ⟨[], ⟨hnone, by simp⟩, .nil, hinput⟩
    | case3 state input next mid hnext ih =>
      obtain ⟨l, hl, hsteps, hmid⟩ := ih h
      obtain ⟨x, hx, hmeaning, hinput⟩ := (hturn state).mp hnext
      cases x with
      | none => cases hmeaning
      | some x =>
        have hvalid : f.many.Valid (x :: l) := ⟨hnone, List.forall_mem_cons.mpr ⟨hx, hl.2⟩⟩
        have hspell : input = f.many.spell (x :: l) ++ rest := by
          rw [hinput, hmid, ← List.append_assoc]
          rfl
        exact ⟨x :: l, hvalid, .cons hmeaning hsteps, hspell⟩
  · rintro ⟨l, hl, hsteps, rfl⟩
    induction hsteps with
    | nil => exact turns_end ((hturn _).mpr ⟨none, hnone, trivial, rfl⟩)
    | @cons state next last x l hfirst hrest ih =>
      obtain ⟨hx, hl⟩ := List.forall_mem_cons.mp hl.2
      have hnext : (turn state).run (f.many.spell (x :: l) ++ rest) = .ok (some next, f.many.spell l ++ rest) :=
        (hturn state).mpr ⟨some x, hx, hfirst, List.append_assoc _ _ _⟩
      rw [turns_next hnext]
      exact ih ⟨hnone, hl⟩

end Decoder

end wire
