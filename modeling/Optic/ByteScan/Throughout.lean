import Optic.ByteScan.Simulation

namespace byte_scan

variable {σ ε α β γ : Type} [ByteSource σ ε]

/-- The turns of a loop that a run comes to, each with its loop state and its source. -/
inductive Turns (body : β → Scan ε (β ⊕ γ)) : β → σ → β → σ → Prop where
  | first (b : β) (s : σ) : Turns body b s b s
  | next {b b' c : β} {s s' t : σ} (hturn : (body b).run s = .ok (.inl b', s'))
      (hless : ByteSource.remaining s' < ByteSource.remaining s) (hturns : Turns body b' s' c t) : Turns body b s c t

/-- A property of every source that a run comes to, whether or not the run returns. -/
def Throughout (P : σ → Prop) {α : Type} : Scan ε α → σ → Prop
  | .done _, s => P s
  | .fail _, s => P s
  | .peek next, s => P s ∧ ∀ byte s', ByteSource.peek s = .ok (byte, s') → Throughout P (next byte) s'
  | .take next, s => P s ∧ ∀ byte s', ByteSource.take s = .ok (byte, s') → Throughout P (next byte) s'
  | .offset next, s => Throughout P (next (ByteSource.offset s)) s
  | .active next, s => Throughout P (next (ByteSource.active s)) s
  | .budget start next, s => P s ∧ Throughout P next (ByteSource.budget start s)
  | .loop body init next, s => ∀ b t, Turns body init s b t → Throughout P (body b) t ∧
      ∀ c t', (body b).run t = .ok (.inr c, t') → Throughout P (next c) t'

/-- A loop goes on from any of its turns. -/
theorem Turns.run_eq {body : β → Scan ε (β ⊕ γ)} {b c : β} {s t : σ} (h : Turns body b s c t) :
    (Scan.iter body b).run s = (Scan.iter body c).run t := by
  induction h with
  | first b s => rfl
  | next hturn hless hturns ih =>
    rw [run_iter_unfold, hturn, andThen_ok]
    simp only [if_pos hless]
    exact ih

/-- What every turn keeps holds at every turn. -/
theorem Turns.keeps {body : β → Scan ε (β ⊕ γ)} {I : β → σ → Prop}
    (hturn : ∀ b s b' s', I b s → (body b).run s = .ok (.inl b', s') → I b' s') {b c : β} {s t : σ}
    (h : Turns body b s c t) (hs : I b s) : I c t := by
  induction h with
  | first b s => exact hs
  | next hrun hless hturns ih => exact ih (hturn _ _ _ _ hs hrun)

/-- A loop that returns comes to a turn that stops. -/
theorem Turns.of_run {body : β → Scan ε (β ⊕ γ)} {b : β} {s : σ} {c : γ} {s' : σ}
    (h : (Scan.iter body b).run s = .ok (c, s')) :
    ∃ b' t, Turns body b s b' t ∧ (body b').run t = .ok (.inr c, s') := by
  have loops (n : Nat) : ∀ b s, ByteSource.remaining s < n → (Scan.iter body b).run s = .ok (c, s') →
      ∃ b' t, Turns body b s b' t ∧ (body b').run t = .ok (.inr c, s') := by
    induction n with
    | zero => intro b s hn; omega
    | succ n ih =>
      intro b s hn h
      rw [run_iter_unfold] at h
      obtain ⟨turn, rest, hrun, h⟩ := andThen_eq_ok_iff.mp h
      cases turn with
      | inr value =>
        cases h
        exact ⟨b, s, .first b s, hrun⟩
      | inl next =>
        simp only at h
        split at h
        · next hless =>
          obtain ⟨b', t, hturns, hstop⟩ := ih next rest (by omega) h
          exact ⟨b', t, .next hrun hless hturns, hstop⟩
        · cases h
  exact loops _ b s (Nat.lt_succ_self _) h

/-- Sources that simulate each other come to the same turns. -/
theorem Turns.simulate {σ' : Type} [ByteSource σ' ε] {R : σ → σ' → Prop}
    (hR : Simulates (fun _ => False) (fun _ => False) R) {body : β → Scan ε (β ⊕ γ)} {b c : β} {s t : σ}
    (h : Turns body b s c t) : ∀ {s' : σ'}, R s s' → ∃ t', Turns body b s' c t' ∧ R t t' := by
  induction h with
  | first b s =>
    intro s' hst
    exact ⟨s', .first b s', hst⟩
  | @next b b' c s s1 t hturn hless hturns ih =>
    intro s' hst
    have hmatch := hR.run (body b) s s' hst
    rw [hturn] at hmatch
    obtain ⟨s1', hturn', hst'⟩ := hmatch.resolve_left id
    obtain ⟨t', hturns', htt'⟩ := ih hst'
    exact ⟨t', .next hturn' (hR.remaining _ _ _ _ hst hst' hless) hturns', htt'⟩

theorem run_loop (body : β → Scan ε (β ⊕ γ)) (init : β) (next : γ → Scan ε α) (s : σ) :
    (Scan.loop body init next).run s = andThen ((Scan.iter body init).run s) fun c t => (next c).run t := by
  rw [run_iter, Scan.run]
  cases iterate (fun state => (body state).run) (ByteSource.remaining s + 1) init s <;> rfl

namespace Throughout

variable {P Q : σ → Prop}

theorem start {p : Scan ε α} {s : σ} (h : Throughout P p s) : P s := by
  induction p with
  | done value => exact h
  | fail error => exact h
  | peek next _ => exact h.1
  | take next _ => exact h.1
  | offset next ih => exact ih _ h
  | active next ih => exact ih _ h
  | budget start next _ => exact h.1
  | loop body init next ihbody _ => exact ihbody init (h init s (.first init s)).1

theorem mono {p : Scan ε α} {s : σ} (h : Throughout P p s) (hPQ : ∀ s, P s → Q s) : Throughout Q p s := by
  induction p generalizing s with
  | done value => exact hPQ s h
  | fail error => exact hPQ s h
  | peek next ih => exact ⟨hPQ s h.1, fun byte s' hread => ih byte (h.2 byte s' hread)⟩
  | take next ih => exact ⟨hPQ s h.1, fun byte s' hread => ih byte (h.2 byte s' hread)⟩
  | offset next ih => exact ih _ h
  | active next ih => exact ih _ h
  | budget start next ih => exact ⟨hPQ s h.1, ih h.2⟩
  | loop body init next ihbody ih =>
    intro b t hturns
    obtain ⟨hbody, hstop⟩ := h b t hturns
    exact ⟨ihbody b hbody, fun c t' hrun => ih c (hstop c t' hrun)⟩

/-- The source that a run leaves behind is one that it comes to. -/
theorem final {p : Scan ε α} {s : σ} (h : Throughout P p s) {a : α} {s' : σ} (hrun : p.run s = .ok (a, s')) : P s' := by
  induction p generalizing s s' with
  | done value =>
    cases hrun
    exact h
  | fail error => cases hrun
  | peek next ih =>
    simp only [Scan.run] at hrun
    split at hrun
    · next byte rest hread => exact ih byte (h.2 byte rest hread) hrun
    · cases hrun
  | take next ih =>
    simp only [Scan.run] at hrun
    split at hrun
    · next byte rest hread => exact ih byte (h.2 byte rest hread) hrun
    · cases hrun
  | offset next ih => exact ih _ h hrun
  | active next ih => exact ih _ h hrun
  | budget start next ih => exact ih h.2 hrun
  | loop body init next ihbody ih =>
    rw [run_loop] at hrun
    obtain ⟨c, t, hloop, hrun⟩ := andThen_eq_ok_iff.mp hrun
    obtain ⟨b, t', hturns, hstop⟩ := Turns.of_run hloop
    exact ih c ((h b t' hturns).2 c t hstop) hrun

theorem bind {p : Scan ε α} {f : α → Scan ε β} {s : σ} (h : Throughout P p s)
    (hf : ∀ a s', p.run s = .ok (a, s') → P s' → Throughout P (f a) s') : Throughout P (p >>= f) s := by
  change Throughout P (p.bind f) s
  induction p generalizing s with
  | done value => exact hf value s rfl h
  | fail error => exact h
  | peek next ih =>
    refine ⟨h.1, fun byte s' hread => ih byte (h.2 byte s' hread) fun a s'' hrun => hf a s'' ?_⟩
    rw [Scan.run, hread]
    exact hrun
  | take next ih =>
    refine ⟨h.1, fun byte s' hread => ih byte (h.2 byte s' hread) fun a s'' hrun => hf a s'' ?_⟩
    rw [Scan.run, hread]
    exact hrun
  | offset next ih => exact ih _ h hf
  | active next ih => exact ih _ h hf
  | budget start next ih => exact ⟨h.1, ih h.2 hf⟩
  | loop body init next _ ih =>
    intro b t hturns
    obtain ⟨hbody, hstop⟩ := h b t hturns
    refine ⟨hbody, fun c t' hrun => ih c (hstop c t' hrun) fun a s' hnext => hf a s' ?_⟩
    rw [run_loop, Turns.run_eq hturns, run_iter_unfold, hrun]
    exact hnext

theorem ite {c : Prop} [Decidable c] {p q : Scan ε α} {s : σ} (hp : c → Throughout P p s) (hq : ¬ c → Throughout P q s) :
    Throughout P (if c then p else q) s := by
  by_cases h : c
  · rw [if_pos h]
    exact hp h
  · rw [if_neg h]
    exact hq h

/-- The loop rule: an invariant of the turns under which each of them keeps to the property. -/
theorem iter {body : β → Scan ε (β ⊕ γ)} {I : β → σ → Prop} {b : β} {s : σ} (hs : I b s)
    (hturn : ∀ b s, I b s → Throughout P (body b) s ∧ ∀ b' s', (body b).run s = .ok (.inl b', s') → I b' s') :
    Throughout P (Scan.iter body b) s := by
  intro c t hturns
  have hI := hturns.keeps (fun b s b' s' hI hrun => (hturn b s hI).2 b' s' hrun) hs
  exact ⟨(hturn c t hI).1, fun d t' hrun => (hturn c t hI).1.final hrun⟩

end Throughout

/-- The budgets that a program sets are all of one kind. -/
inductive Budgets (A : Option Nat → Prop) : {α : Type} → Scan ε α → Prop where
  | done {α : Type} (value : α) : Budgets A (.done value)
  | fail {α : Type} (error : ε) : Budgets A (.fail error : Scan ε α)
  | peek {α : Type} {next : Option UInt8 → Scan ε α} (h : ∀ byte, Budgets A (next byte)) : Budgets A (.peek next)
  | take {α : Type} {next : Option UInt8 → Scan ε α} (h : ∀ byte, Budgets A (next byte)) : Budgets A (.take next)
  | offset {α : Type} {next : Nat → Scan ε α} (h : ∀ offset, Budgets A (next offset)) : Budgets A (.offset next)
  | active {α : Type} {next : Bool → Scan ε α} (h : ∀ active, Budgets A (next active)) : Budgets A (.active next)
  | budget {α : Type} {start : Option Nat} {next : Scan ε α} (hstart : A start) (h : Budgets A next) :
      Budgets A (.budget start next)
  | loop {α β γ : Type} {body : β → Scan ε (β ⊕ γ)} {init : β} {next : γ → Scan ε α} (hbody : ∀ b, Budgets A (body b))
      (h : ∀ c, Budgets A (next c)) : Budgets A (.loop body init next)

namespace Budgets

variable {A : Option Nat → Prop}

/-- Any program sets some budgets. -/
theorem all (p : Scan ε α) : Budgets (fun _ => True) p := by
  induction p with
  | done value => exact .done value
  | fail error => exact .fail error
  | peek next ih => exact .peek ih
  | take next ih => exact .take ih
  | offset next ih => exact .offset ih
  | active next ih => exact .active ih
  | budget start next ih => exact .budget trivial ih
  | loop body init next ihbody ih => exact .loop ihbody ih

theorem bind {p : Scan ε α} {f : α → Scan ε β} (hp : Budgets A p) (hf : ∀ a, Budgets A (f a)) : Budgets A (p >>= f) := by
  change Budgets A (p.bind f)
  induction hp with
  | done value => exact hf value
  | fail error => exact .fail error
  | peek _ ih => exact .peek fun byte => ih byte hf
  | take _ ih => exact .take fun byte => ih byte hf
  | offset _ ih => exact .offset fun offset => ih offset hf
  | active _ ih => exact .active fun active => ih active hf
  | budget hstart _ ih => exact .budget hstart (ih hf)
  | loop hbody _ _ ih => exact .loop hbody fun c => ih c hf

theorem ite {c : Prop} [Decidable c] {p q : Scan ε α} (hp : Budgets A p) (hq : Budgets A q) :
    Budgets A (if c then p else q) := by
  by_cases h : c
  · rwa [if_pos h]
  · rwa [if_neg h]

theorem iter {body : β → Scan ε (β ⊕ γ)} (hbody : ∀ b, Budgets A (body b)) (b : β) : Budgets A (Scan.iter body b) :=
  .loop hbody .done

end Budgets

/-- A property of a source that reading, and setting budgets of one kind, never undoes. -/
structure Keeps (A : Option Nat → Prop) (P : σ → Prop) : Prop where
  peek : ∀ s byte s', P s → ByteSource.peek s = .ok (byte, s') → P s'
  take : ∀ s byte s', P s → ByteSource.take s = .ok (byte, s') → P s'
  budget : ∀ s start, A start → P s → P (ByteSource.budget start s)

/-- Programs that only set such budgets keep to the property. -/
theorem Budgets.throughout {A : Option Nat → Prop} {P : σ → Prop} (hP : Keeps A P) {p : Scan ε α} (hp : Budgets A p)
    {s : σ} (hs : P s) : Throughout P p s := by
  induction hp generalizing s with
  | done value => exact hs
  | fail error => exact hs
  | peek _ ih => exact ⟨hs, fun byte s' hread => ih byte (hP.peek s byte s' hs hread)⟩
  | take _ ih => exact ⟨hs, fun byte s' hread => ih byte (hP.take s byte s' hs hread)⟩
  | offset _ ih => exact ih _ hs
  | active _ ih => exact ih _ hs
  | budget hstart _ ih => exact ⟨hs, ih (hP.budget s _ hstart hs)⟩
  | loop _ _ ihbody ih =>
    intro b t hturns
    have ht := hturns.keeps (I := fun _ s => P s) (fun b s b' s' hs hrun => (ihbody b hs).final hrun) hs
    exact ⟨ihbody b ht, fun c t' hrun => ih c ((ihbody b ht).final hrun)⟩

end byte_scan
