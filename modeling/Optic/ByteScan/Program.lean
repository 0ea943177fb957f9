import Mathlib.Tactic.Common

namespace byte_scan

/-- A program that reads a byte source one byte at a time. The program is the
tree of its reads, so it can be run against any source, and a fact about all
programs is one induction. `peek` looks at the next byte, `take` consumes it,
and both answer `none` at the end of the input. `budget` replaces the start of
the header whose length the source bounds, and `active` asks whether there is
one. -/
inductive Scan (ε : Type) : Type → Type 1 where
  | done {α : Type} (value : α) : Scan ε α
  | fail {α : Type} (error : ε) : Scan ε α
  | peek {α : Type} (next : Option UInt8 → Scan ε α) : Scan ε α
  | take {α : Type} (next : Option UInt8 → Scan ε α) : Scan ε α
  | offset {α : Type} (next : Nat → Scan ε α) : Scan ε α
  | active {α : Type} (next : Bool → Scan ε α) : Scan ε α
  | budget {α : Type} (start : Option Nat) (next : Scan ε α) : Scan ε α
  | loop {α β γ : Type} (body : β → Scan ε (β ⊕ γ)) (init : β) (next : γ → Scan ε α) : Scan ε α

/-- How a run ends without a value: the source or the program reported an
error, or a loop went around without consuming a byte, which a run of the
modelled program would repeat forever. -/
inductive Fault (ε : Type) where
  | stalled
  | error (error : ε)
deriving DecidableEq, Repr

namespace Scan

variable {ε α β γ : Type}

protected def bind : Scan ε α → (α → Scan ε β) → Scan ε β
  | .done value, f => f value
  | .fail error, _ => .fail error
  | .peek next, f => .peek fun byte => (next byte).bind f
  | .take next, f => .take fun byte => (next byte).bind f
  | .offset next, f => .offset fun offset => (next offset).bind f
  | .active next, f => .active fun active => (next active).bind f
  | .budget start next, f => .budget start (next.bind f)
  | .loop body init next, f => .loop body init fun value => (next value).bind f

instance : Monad (Scan ε) where
  pure := .done
  bind := Scan.bind

/-- A loop that runs `body` until it breaks with a value. -/
def iter (body : β → Scan ε (β ⊕ γ)) (init : β) : Scan ε γ := .loop body init .done

/-- Goes around the enclosing loop again, with the next loop state. -/
def again (state : β) : Scan ε (β ⊕ γ) := .done (.inl state)

/-- Leaves the enclosing loop. -/
def stop (value : γ) : Scan ε (β ⊕ γ) := .done (.inr value)

def ofExcept : Except ε α → Scan ε α
  | .ok value => .done value
  | .error error => .fail error

end Scan

end byte_scan
