import Optic.ByteScan.Run

namespace byte_scan

variable {σ σ' ε : Type} [ByteSource σ ε] [ByteSource σ' ε]

/-- A property of a source that reading never undoes. -/
structure Stable (P : σ → Prop) : Prop where
  peek : ∀ s byte s', P s → ByteSource.peek s = .ok (byte, s') → P s'
  take : ∀ s byte s', P s → ByteSource.take s = .ok (byte, s') → P s'
  budget : ∀ s start, P s → P (ByteSource.budget start s)

theorem Stable.iterations {β γ : Type} {P : σ → Prop}
    {step : β → σ → Except (Fault ε) ((β ⊕ γ) × σ)}
    (hstep : ∀ b s turn s', P s → step b s = .ok (turn, s') → P s') :
    ∀ (bound : Nat) (b : β) (s : σ) (c : γ) (s' : σ), P s → iterate step bound b s = .ok (c, s') → P s' := by
  intro bound
  induction bound with
  | zero => intro b s c s' _ h; simp [iterate] at h
  | succ bound ih =>
    intro b s c s' hs h
    simp only [iterate] at h
    split at h
    · cases h
    · next value rest hrun =>
      cases h
      exact hstep _ _ _ _ hs hrun
    · next next rest hrun =>
      split at h
      · exact ih _ _ _ _ (hstep _ _ _ _ hs hrun) h
      · cases h

/-- A stable property holds of the source that a run leaves behind. -/
theorem Stable.run {P : σ → Prop} (hP : Stable P) {α : Type} (p : Scan ε α) :
    ∀ (s : σ) (a : α) (s' : σ), P s → p.run s = .ok (a, s') → P s' := by
  induction p with
  | done value =>
    intro s a s' hs h
    cases h
    exact hs
  | fail error => intro s a s' _ h; cases h
  | peek k ih =>
    intro s a s' hs h
    simp only [Scan.run] at h
    split at h
    · next byte rest hread => exact ih _ _ _ _ (hP.peek _ _ _ hs hread) h
    · cases h
  | take k ih =>
    intro s a s' hs h
    simp only [Scan.run] at h
    split at h
    · next byte rest hread => exact ih _ _ _ _ (hP.take _ _ _ hs hread) h
    · cases h
  | offset k ih => intro s a s' hs h; exact ih _ _ _ _ hs h
  | active k ih => intro s a s' hs h; exact ih _ _ _ _ hs h
  | budget start k ih => intro s a s' hs h; exact ih _ _ _ (hP.budget _ _ hs) h
  | loop body init k ihbody ih =>
    intro s a s' hs h
    simp only [Scan.run] at h
    split at h
    · next value rest hloop =>
      exact ih _ _ _ _ (Stable.iterations (fun b => ihbody b) _ _ _ _ _ hs hloop) h
    · cases h

/-- How two reads compare. A value of the first is matched by the second unless
the first went `past` the inputs on which they agree, and an error of the first
is matched unless it `escapes`. -/
def Matches {α : Type} (escapes : ε → Prop) (past : σ → Prop) (R : σ → σ' → Prop)
    (x : Except ε (α × σ)) (y : Except ε (α × σ')) : Prop :=
  match x with
  | .ok (a, s) => past s ∨ ∃ t, y = .ok (a, t) ∧ R s t
  | .error e => escapes e ∨ y = .error e

/-- How two runs compare. Only the first may stall. -/
def RunsMatch {α : Type} (escapes : ε → Prop) (past : σ → Prop) (R : σ → σ' → Prop)
    (x : Except (Fault ε) (α × σ)) (y : Except (Fault ε) (α × σ')) : Prop :=
  match x with
  | .ok (a, s) => past s ∨ ∃ t, y = .ok (a, t) ∧ R s t
  | .error (.error e) => escapes e ∨ y = .error (.error e)
  | .error .stalled => True

/-- Two sources that answer every read alike, up to the escapes of `Matches`. Once
the first source is past the common inputs, whatever it does is allowed. -/
structure Simulates (escapes : ε → Prop) (past : σ → Prop) (R : σ → σ' → Prop) : Prop where
  peek : ∀ s t, R s t → Matches escapes past R (ByteSource.peek s) (ByteSource.peek t)
  take : ∀ s t, R s t → Matches escapes past R (ByteSource.take s) (ByteSource.take t)
  offset : ∀ s t, R s t → ByteSource.offset t = ByteSource.offset s
  active : ∀ s t, R s t → ByteSource.active t = ByteSource.active s
  budget : ∀ s t start, R s t → R (ByteSource.budget start s) (ByteSource.budget start t)
  remaining : ∀ s t s' t', R s t → R s' t' → ByteSource.remaining s' < ByteSource.remaining s →
    ByteSource.remaining t' < ByteSource.remaining t
  stable : Stable past
  escaped : ∀ s e, past s → escapes e

namespace Simulates

variable {escapes : ε → Prop} {past : σ → Prop} {R : σ → σ' → Prop}

theorem of_past (hR : Simulates escapes past R) {α : Type} {x : Except (Fault ε) (α × σ)}
    {y : Except (Fault ε) (α × σ')} {s : σ} (hs : past s)
    (hx : ∀ a s', x = .ok (a, s') → past s') : RunsMatch escapes past R x y := by
  cases x with
  | ok pair => exact Or.inl (hx pair.1 pair.2 rfl)
  | error fault =>
    cases fault with
    | stalled => trivial
    | error e => exact Or.inl (hR.escaped s e hs)

theorem iterations (hR : Simulates escapes past R) {β γ : Type}
    {step : β → σ → Except (Fault ε) ((β ⊕ γ) × σ)}
    {step' : β → σ' → Except (Fault ε) ((β ⊕ γ) × σ')}
    (hpast : ∀ b s turn s', past s → step b s = .ok (turn, s') → past s')
    (hstep : ∀ b s t, R s t → RunsMatch escapes past R (step b s) (step' b t)) :
    ∀ (bound bound' : Nat) (b : β) (s : σ) (t : σ'), R s t → ByteSource.remaining t < bound' →
      RunsMatch escapes past R (iterate step bound b s) (iterate step' bound' b t) := by
  intro bound
  induction bound with
  | zero => intros; simp [iterate, RunsMatch]
  | succ bound ih =>
    intro bound' b s t hst hbound'
    cases bound' with
    | zero => omega
    | succ bound' =>
      have hturn := hstep b s t hst
      simp only [iterate]
      cases hrun : step b s with
      | error fault =>
        rw [hrun] at hturn
        cases fault with
        | stalled => trivial
        | error e =>
          obtain hescapes | hrun' := hturn
          · exact Or.inl hescapes
          · simp only [hrun']
            exact Or.inr rfl
      | ok pair =>
        obtain ⟨turn, rest⟩ := pair
        rw [hrun] at hturn
        obtain hrest | ⟨rest', hrun', hrests⟩ := hturn
        · -- The first run left the common inputs in this turn and stays outside.
          cases turn with
          | inr value => exact Or.inl hrest
          | inl next =>
            simp only
            split
            · exact hR.of_past hrest fun a s' h => Stable.iterations hpast _ _ _ _ _ hrest h
            · trivial
        · simp only [hrun']
          cases turn with
          | inr value => exact Or.inr ⟨_, rfl, hrests⟩
          | inl next =>
            simp only
            split
            · next hless =>
              rw [if_pos (hR.remaining _ _ _ _ hst hrests hless)]
              have hless' := hR.remaining _ _ _ _ hst hrests hless
              exact ih _ _ _ _ hrests (by omega)
            · trivial

/-- Every program runs alike from sources that simulate each other. Locality and
refinement by another source are instances. -/
theorem run (hR : Simulates escapes past R) {α : Type} (p : Scan ε α) :
    ∀ (s : σ) (t : σ'), R s t → RunsMatch escapes past R (p.run s) (p.run t) := by
  induction p with
  | done value => exact fun s t hst => Or.inr ⟨t, rfl, hst⟩
  | fail error => exact fun s t _ => Or.inr rfl
  | peek k ih =>
    intro s t hst
    have hread := hR.peek s t hst
    simp only [Scan.run]
    cases hs : ByteSource.peek s with
    | error e =>
      rw [hs] at hread
      obtain hescapes | ht := hread
      · exact Or.inl hescapes
      · rw [ht]
        exact Or.inr rfl
    | ok pair =>
      rw [hs] at hread
      obtain hrest | ⟨rest, ht, hrests⟩ := hread
      · exact hR.of_past hrest fun a s' h => hR.stable.run _ _ _ _ hrest h
      · rw [ht]
        exact ih _ _ _ hrests
  | take k ih =>
    intro s t hst
    have hread := hR.take s t hst
    simp only [Scan.run]
    cases hs : ByteSource.take s with
    | error e =>
      rw [hs] at hread
      obtain hescapes | ht := hread
      · exact Or.inl hescapes
      · rw [ht]
        exact Or.inr rfl
    | ok pair =>
      rw [hs] at hread
      obtain hrest | ⟨rest, ht, hrests⟩ := hread
      · exact hR.of_past hrest fun a s' h => hR.stable.run _ _ _ _ hrest h
      · rw [ht]
        exact ih _ _ _ hrests
  | offset k ih =>
    intro s t hst
    simp only [Scan.run, hR.offset s t hst]
    exact ih _ _ _ hst
  | active k ih =>
    intro s t hst
    simp only [Scan.run, hR.active s t hst]
    exact ih _ _ _ hst
  | budget start k ih => exact fun s t hst => ih _ _ (hR.budget s t _ hst)
  | loop body init k ihbody ih =>
    intro s t hst
    have hloop := hR.iterations (fun b => hR.stable.run (body b)) (fun b s t => ihbody b s t)
      (ByteSource.remaining s + 1) (ByteSource.remaining t + 1) init s t hst (by omega)
    simp only [Scan.run]
    cases hs : iterate (fun state => (body state).run) (ByteSource.remaining s + 1) init s with
    | error fault =>
      cases fault with
      | stalled => trivial
      | error e =>
        rw [hs] at hloop
        obtain hescapes | ht := hloop
        · exact Or.inl hescapes
        · rw [ht]
          exact Or.inr rfl
    | ok pair =>
      rw [hs] at hloop
      obtain hrest | ⟨rest, ht, hrests⟩ := hloop
      · exact hR.of_past hrest fun a s' h => hR.stable.run _ _ _ _ hrest h
      · rw [ht]
        exact ih _ _ _ hrests

end Simulates

end byte_scan
