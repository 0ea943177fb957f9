import Mathlib.Tactic.Common

namespace rust

/-- What a program returns, and the events that it caused until then. What it did before an error stays done. -/
structure Traced (ω ε α : Type) where
  result : Except ε α
  trace : List ω := []

namespace Traced

variable {ω ε ε' α β : Type}

instance : Monad (Traced ω ε) where
  pure a := { result := .ok a }
  bind p f :=
    match p.result with
    | .ok a => { result := (f a).result, trace := p.trace ++ (f a).trace }
    | .error e => { result := .error e, trace := p.trace }

/-- A step that causes nothing. -/
def lift (result : Except ε α) : Traced ω ε α := { result }

def emit (event : ω) : Traced ω ε Unit := { result := .ok (), trace := [event] }

def map_err (f : ε → ε') (p : Traced ω ε α) : Traced ω ε' α := { p with result := p.result.mapError f }

/-- Goes on where a program failed. -/
def recover (p : Traced ω ε α) (f : ε → Traced ω ε α) : Traced ω ε α :=
  match p.result with
  | .ok a => { result := .ok a, trace := p.trace }
  | .error e => { result := (f e).result, trace := p.trace ++ (f e).trace }

@[simp] theorem pure_result (a : α) : (pure a : Traced ω ε α).result = .ok a := rfl

@[simp] theorem pure_trace (a : α) : (pure a : Traced ω ε α).trace = [] := rfl

@[simp] theorem lift_result (result : Except ε α) : (lift result : Traced ω ε α).result = result := rfl

@[simp] theorem lift_trace (result : Except ε α) : (lift result : Traced ω ε α).trace = [] := rfl

@[simp] theorem emit_result (event : ω) : (emit event : Traced ω ε Unit).result = .ok () := rfl

@[simp] theorem emit_trace (event : ω) : (emit event : Traced ω ε Unit).trace = [event] := rfl

@[simp] theorem map_err_trace (f : ε → ε') (p : Traced ω ε α) : (p.map_err f).trace = p.trace := rfl

theorem bind_of_ok {p : Traced ω ε α} {f : α → Traced ω ε β} {a : α} (h : p.result = .ok a) :
    p >>= f = { result := (f a).result, trace := p.trace ++ (f a).trace } := by
  simp only [bind, h]

theorem bind_of_error {p : Traced ω ε α} {f : α → Traced ω ε β} {e : ε} (h : p.result = .error e) :
    p >>= f = { result := .error e, trace := p.trace } := by
  simp only [bind, h]

theorem bind_result (p : Traced ω ε α) (f : α → Traced ω ε β) : (p >>= f).result = p.result >>= fun a => (f a).result := by
  cases h : p.result with
  | error e => rw [bind_of_error h]; rfl
  | ok a => rw [bind_of_ok h]; rfl

theorem recover_of_ok {p : Traced ω ε α} {f : ε → Traced ω ε α} {a : α} (h : p.result = .ok a) :
    p.recover f = { result := .ok a, trace := p.trace } := by
  simp only [recover, h]

theorem recover_of_error {p : Traced ω ε α} {f : ε → Traced ω ε α} {e : ε} (h : p.result = .error e) :
    p.recover f = { result := (f e).result, trace := p.trace ++ (f e).trace } := by
  simp only [recover, h]

/-- A sequence causes what its first step causes, and behind it what the second does where the first returns. -/
theorem bind_spec {p : Traced ω ε α} {f : α → Traced ω ε β} {P : Except ε α → List ω → Prop} {T : Except ε β → List ω → Prop}
    (h : P p.result p.trace) (herror : ∀ e trace, P (.error e) trace → T (.error e) trace)
    (hok : ∀ a trace, P (.ok a) trace → T (f a).result (trace ++ (f a).trace)) : T (p >>= f).result (p >>= f).trace := by
  cases hresult : p.result with
  | error e =>
    rw [hresult] at h
    rw [bind_of_error hresult]
    exact herror e _ h
  | ok a =>
    rw [hresult] at h
    rw [bind_of_ok hresult]
    exact hok a _ h

theorem map_err_bind_spec {p : Traced ω ε α} {g : ε → ε'} {f : α → Traced ω ε' β} {P : Except ε α → List ω → Prop}
    {T : Except ε' β → List ω → Prop} (h : P p.result p.trace) (herror : ∀ e trace, P (.error e) trace → T (.error (g e)) trace)
    (hok : ∀ a trace, P (.ok a) trace → T (f a).result (trace ++ (f a).trace)) :
    T (p.map_err g >>= f).result (p.map_err g >>= f).trace := by
  refine bind_spec (P := fun result trace => ∃ inner, P inner trace ∧ result = inner.mapError g) ⟨p.result, h, rfl⟩ ?_ ?_
  · rintro e trace ⟨inner, hinner, hresult⟩
    cases inner with
    | ok a => cases hresult
    | error e =>
      cases hresult
      exact herror e trace hinner
  · rintro a trace ⟨inner, hinner, hresult⟩
    cases inner with
    | error e => cases hresult
    | ok a =>
      cases hresult
      exact hok a trace hinner

/-- A first step that causes nothing. -/
theorem lift_bind_spec {result : Except ε α} {f : α → Traced ω ε β} {T : Except ε β → List ω → Prop}
    (herror : ∀ e, result = .error e → T (.error e) [])
    (hok : ∀ a, result = .ok a → T (f a).result (f a).trace) : T (lift result >>= f).result (lift result >>= f).trace := by
  cases result with
  | error e => exact herror e rfl
  | ok a => exact hok a rfl

/-- A sequence whose second step causes nothing either. -/
theorem lift_bind_trace {result : Except ε α} {f : α → Traced ω ε β} (h : ∀ a, (f a).trace = []) :
    (lift result >>= f).trace = [] := by
  cases result with
  | error e => rfl
  | ok a => exact h a

/-- A loop over events causes all of them. -/
theorem forM_emit (events : List α) (event : α → ω) :
    events.forM (fun a => (emit (event a) : Traced ω ε Unit)) = { result := .ok (), trace := events.map event } := by
  induction events with
  | nil => rfl
  | cons a events ih =>
    change (emit (event a) >>= fun _ => events.forM fun a => (emit (event a) : Traced ω ε Unit)) = _
    rw [ih, bind_of_ok rfl]
    rfl

end Traced

end rust
