import Optic.ByteScan.Program

namespace byte_scan

/-- What a program needs of its input. `remaining` bounds the bytes a source can
still deliver, and decreases exactly when one is consumed. -/
class ByteSource (σ : Type) (ε : outParam Type) where
  peek : σ → Except ε (Option UInt8 × σ)
  take : σ → Except ε (Option UInt8 × σ)
  offset : σ → Nat
  active : σ → Bool
  budget : Option Nat → σ → σ
  remaining : σ → Nat

section

variable {σ ε α β : Type}

/-- Runs a continuation where a first run ended. -/
def andThen (result : Except (Fault ε) (α × σ)) (next : α → σ → Except (Fault ε) (β × σ)) :
    Except (Fault ε) (β × σ) :=
  match result with
  | .ok (value, rest) => next value rest
  | .error fault => .error fault

@[simp] theorem andThen_ok (value : α) (rest : σ) (next : α → σ → Except (Fault ε) (β × σ)) :
    andThen (.ok (value, rest)) next = next value rest := rfl

@[simp] theorem andThen_error (fault : Fault ε) (next : α → σ → Except (Fault ε) (β × σ)) :
    andThen (.error fault) next = .error fault := rfl

theorem andThen_eq_ok_iff {result : Except (Fault ε) (α × σ)}
    {next : α → σ → Except (Fault ε) (β × σ)} {value : β × σ} :
    andThen result next = .ok value ↔
      ∃ first rest, result = .ok (first, rest) ∧ next first rest = .ok value := by
  cases result with
  | error fault => simp
  | ok pair => obtain ⟨first, rest⟩ := pair; simp

end

section Run

variable {σ ε α β γ : Type} [ByteSource σ ε]

/-- Repeats a loop body. Every repetition must consume a byte, so a bound above
`remaining` is never exhausted. -/
def iterate (step : β → σ → Except (Fault ε) ((β ⊕ γ) × σ)) :
    Nat → β → σ → Except (Fault ε) (γ × σ)
  | 0, _, _ => .error .stalled
  | bound + 1, state, source =>
    match step state source with
    | .error fault => .error fault
    | .ok (.inr value, rest) => .ok (value, rest)
    | .ok (.inl next, rest) =>
      if ByteSource.remaining rest < ByteSource.remaining source then iterate step bound next rest
      else .error .stalled

/-- Runs a program to its value and the source it leaves behind. -/
def Scan.run {α : Type} : Scan ε α → σ → Except (Fault ε) (α × σ)
  | .done value, source => .ok (value, source)
  | .fail error, _ => .error (.error error)
  | .peek next, source =>
    match ByteSource.peek source with
    | .ok (byte, rest) => (next byte).run rest
    | .error error => .error (.error error)
  | .take next, source =>
    match ByteSource.take source with
    | .ok (byte, rest) => (next byte).run rest
    | .error error => .error (.error error)
  | .offset next, source => (next (ByteSource.offset source)).run source
  | .active next, source => (next (ByteSource.active source)).run source
  | .budget start next, source => next.run (ByteSource.budget start source)
  | .loop body init next, source =>
    match iterate (fun state => (body state).run) (ByteSource.remaining source + 1) init source with
    | .ok (value, rest) => (next value).run rest
    | .error fault => .error fault

@[simp] theorem run_pure (value : α) (source : σ) :
    (pure value : Scan ε α).run source = .ok (value, source) := rfl

@[simp] theorem run_done (value : α) (source : σ) :
    (Scan.done value : Scan ε α).run source = .ok (value, source) := rfl

@[simp] theorem run_fail (error : ε) (source : σ) :
    (Scan.fail error : Scan ε α).run source = .error (.error error) := rfl

@[simp] theorem run_again (state : β) (source : σ) :
    (Scan.again state : Scan ε (β ⊕ γ)).run source = .ok (.inl state, source) := rfl

@[simp] theorem run_stop (value : γ) (source : σ) :
    (Scan.stop value : Scan ε (β ⊕ γ)).run source = .ok (.inr value, source) := rfl

theorem run_scan_bind (program : Scan ε α) (next : α → Scan ε β) (source : σ) :
    (program.bind next).run source = andThen (program.run source) fun value rest => (next value).run rest := by
  induction program generalizing source with
  | done value => rfl
  | fail error => rfl
  | peek k ih =>
    simp only [Scan.bind, Scan.run]
    cases ByteSource.peek source with
    | error error => rfl
    | ok pair => exact ih _ _ _
  | take k ih =>
    simp only [Scan.bind, Scan.run]
    cases ByteSource.take source with
    | error error => rfl
    | ok pair => exact ih _ _ _
  | offset k ih => exact ih _ _ _
  | active k ih => exact ih _ _ _
  | budget start k ih => exact ih _ _
  | loop body init k _ ih =>
    simp only [Scan.bind, Scan.run]
    cases iterate (fun state => (body state).run) (ByteSource.remaining source + 1) init source with
    | error fault => rfl
    | ok pair => exact ih _ _ _

@[simp] theorem run_bind (program : Scan ε α) (next : α → Scan ε β) (source : σ) :
    (program >>= next).run source = andThen (program.run source) fun value rest => (next value).run rest :=
  run_scan_bind program next source

@[simp] theorem run_ite (c : Prop) [Decidable c] (p q : Scan ε α) (source : σ) :
    (if c then p else q).run source = if c then p.run source else q.run source := by
  split <;> rfl

@[simp] theorem run_ofExcept_ok (value : α) (source : σ) :
    (Scan.ofExcept (.ok value) : Scan ε α).run source = .ok (value, source) := rfl

@[simp] theorem run_ofExcept_error (error : ε) (source : σ) :
    (Scan.ofExcept (.error error) : Scan ε α).run source = .error (.error error) := rfl

theorem run_iter (body : β → Scan ε (β ⊕ γ)) (init : β) (source : σ) :
    (Scan.iter body init).run source =
      iterate (fun state => (body state).run) (ByteSource.remaining source + 1) init source := by
  simp only [Scan.iter, Scan.run]
  cases iterate (fun state => (body state).run) (ByteSource.remaining source + 1) init source <;> rfl

/-- The bound of a loop does not matter once it exceeds the bytes that remain. -/
theorem iterate_bound (step : β → σ → Except (Fault ε) ((β ⊕ γ) × σ)) :
    ∀ (bound bound' : Nat) (state : β) (source : σ), ByteSource.remaining source < bound →
      ByteSource.remaining source < bound' →
      iterate step bound state source = iterate step bound' state source := by
  intro bound
  induction bound with
  | zero => intro bound' state source hbound; omega
  | succ bound ih =>
    intro bound' state source hbound hbound'
    cases bound' with
    | zero => omega
    | succ bound' =>
      simp only [iterate]
      split
      · rfl
      · rfl
      · split
        · next hless => exact ih _ _ _ (by omega) (by omega)
        · rfl

/-- One turn of a loop, followed by the rest of it. -/
theorem run_iter_unfold (body : β → Scan ε (β ⊕ γ)) (init : β) (source : σ) :
    (Scan.iter body init).run source =
      andThen ((body init).run source) fun turn rest =>
        match turn with
        | .inr value => .ok (value, rest)
        | .inl next =>
          if ByteSource.remaining rest < ByteSource.remaining source then
            (Scan.iter body next).run rest
          else .error .stalled := by
  rw [run_iter, iterate]
  cases hstep : (body init).run source with
  | error fault => rfl
  | ok pair =>
    obtain ⟨turn, rest⟩ := pair
    cases turn with
    | inr value => rfl
    | inl next =>
      simp only [andThen_ok]
      split
      · next hless =>
        rw [run_iter]
        exact iterate_bound _ _ _ _ _ (by omega) (by omega)
      · rfl

end Run

end byte_scan
