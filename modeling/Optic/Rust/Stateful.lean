import Mathlib.Tactic.Common

namespace rust

variable {ε ε' σ α β : Type}

/-- The state that a computation leaves, whether it fails or not. -/
def state : EStateM.Result ε σ α → σ
  | .ok _ s => s
  | .error _ s => s

/-- Goes on with a result, be it an error. -/
def attempt (p : EStateM ε σ α) : StateM σ (Except ε α) := fun s =>
  match p.run s with
  | .ok a s => (.ok a, s)
  | .error e s => (.error e, s)

variable {p : EStateM ε σ α} {f : α → EStateM ε σ β} {s s' : σ}

theorem bind_ok_iff {b : β} : (p >>= f).run s = .ok b s' ↔ ∃ a mid, p.run s = .ok a mid ∧ (f a).run mid = .ok b s' := by
  rw [EStateM.run_bind]
  cases hrun : p.run s with
  | ok a mid =>
    constructor
    · intro h
      exact ⟨a, mid, rfl, h⟩
    · rintro ⟨a', mid', hmid, h⟩
      cases hmid
      exact h
  | error e mid =>
    constructor
    · intro h
      cases h
    · rintro ⟨a, mid', hmid, -⟩
      cases hmid

theorem state_bind : state ((p >>= f).run s) =
    match p.run s with
    | .ok a mid => state ((f a).run mid)
    | .error _ mid => mid := by
  rw [EStateM.run_bind]
  cases p.run s <;> rfl

theorem stateM_bind {x : StateM σ α} {g : α → StateM σ β} : (x >>= g).run s = (g (x.run s).1).run (x.run s).2 := rfl

theorem attempt_run : (attempt p).run s =
    match p.run s with
    | .ok a s => (.ok a, s)
    | .error e s => (.error e, s) := rfl

theorem attempt_ok {a : α} (h : p.run s = .ok a s') : (attempt p).run s = (.ok a, s') := by
  rw [attempt_run, h]

theorem attempt_error {e : ε} (h : p.run s = .error e s') : (attempt p).run s = (.error e, s') := by
  rw [attempt_run, h]

end rust
