import Optic.ByteScan.Run

namespace byte_scan

/-- How the runs of two programs compare when their values and errors may differ by
a relation. Only the first may stall. -/
def RunsCoupled {σ σ' ε α β : Type} (R : σ → σ' → Prop) (E : ε → ε → Prop) (V : α → β → Prop)
    (x : Except (Fault ε) (α × σ)) (y : Except (Fault ε) (β × σ')) : Prop :=
  match x with
  | .ok (a, s) => ∃ b t, y = .ok (b, t) ∧ V a b ∧ R s t
  | .error (.error e) => ∃ e', y = .error (.error e') ∧ E e e'
  | .error .stalled => True

/-- Two programs that take sources related by `P` to results related by `E` and `V`, and
leave them related by `R`. -/
def Coupled {σ σ' ε α β : Type} [ByteSource σ ε] [ByteSource σ' ε] (P R : σ → σ' → Prop) (E : ε → ε → Prop)
    (V : α → β → Prop) (p : Scan ε α) (q : Scan ε β) : Prop :=
  ∀ s t, P s t → RunsCoupled R E V (p.run s) (q.run t)

variable {σ σ' ε α α' β β' γ γ' : Type} {P R S : σ → σ' → Prop} {E : ε → ε → Prop}

theorem RunsCoupled.andThen {U : α → α' → Prop} {V : β → β' → Prop} {x : Except (Fault ε) (α × σ)}
    {y : Except (Fault ε) (α' × σ')} {f : α → σ → Except (Fault ε) (β × σ)}
    {g : α' → σ' → Except (Fault ε) (β' × σ')} (h : RunsCoupled R E U x y)
    (hnext : ∀ a b s t, U a b → R s t → RunsCoupled S E V (f a s) (g b t)) :
    RunsCoupled S E V (byte_scan.andThen x f) (byte_scan.andThen y g) := by
  cases x with
  | ok pair =>
    obtain ⟨b, t, rfl, hU, hR⟩ := h
    exact hnext _ _ _ _ hU hR
  | error fault =>
    cases fault with
    | stalled => trivial
    | error e =>
      obtain ⟨e', rfl, hE⟩ := h
      exact ⟨e', rfl, hE⟩

namespace Coupled

variable [ByteSource σ ε] [ByteSource σ' ε]

theorem pure {V : α → β → Prop} {a : α} {b : β} (h : V a b) :
    Coupled R R E V (Pure.pure a : Scan ε α) (Pure.pure b) :=
  fun _ t hst => ⟨b, t, rfl, h, hst⟩

theorem done {V : α → β → Prop} {a : α} {b : β} (h : V a b) :
    Coupled R R E V (Scan.done a) (Scan.done b) :=
  fun _ t hst => ⟨b, t, rfl, h, hst⟩

theorem fail {V : α → β → Prop} {e e' : ε} (h : E e e') : Coupled P R E V (Scan.fail e) (Scan.fail e') :=
  fun _ _ _ => ⟨e', rfl, h⟩

/-- A stronger relation before, a weaker one behind. -/
theorem weaken {Q : σ → σ' → Prop} {V : α → β → Prop} {p : Scan ε α} {q : Scan ε β}
    (h : Coupled Q R E V p q) (hpre : ∀ s t, P s t → Q s t) (hpost : ∀ s t, R s t → S s t) :
    Coupled P S E V p q := by
  intro s t hst
  have hruns := h s t (hpre s t hst)
  unfold RunsCoupled at hruns ⊢
  split
  · next a s' =>
    rw [‹p.run s = _›] at hruns
    obtain ⟨b, t', hq, hV, hR⟩ := hruns
    exact ⟨b, t', hq, hV, hpost _ _ hR⟩
  · next e =>
    rw [‹p.run s = _›] at hruns
    exact hruns
  · trivial

theorem bind {U : α → α' → Prop} {V : β → β' → Prop} {p : Scan ε α} {q : Scan ε α'}
    {f : α → Scan ε β} {g : α' → Scan ε β'} (h : Coupled P R E U p q)
    (hnext : ∀ a b, U a b → Coupled R S E V (f a) (g b)) : Coupled P S E V (p >>= f) (q >>= g) := by
  intro s t hst
  simp only [run_bind]
  exact (h s t hst).andThen fun a b s t hU hst => hnext a b hU s t hst

theorem ite {V : α → β → Prop} {c d : Prop} [Decidable c] [Decidable d] {p p' : Scan ε α}
    {q q' : Scan ε β} (hcd : c ↔ d) (h : c → Coupled P R E V p q) (h' : ¬ c → Coupled P R E V p' q') :
    Coupled P R E V (if c then p else p') (if d then q else q') := by
  by_cases hc : c
  · simpa [hc, hcd.mp hc] using h hc
  · have hd : ¬ d := fun hd => hc (hcd.mpr hd)
    simpa [hc, hd] using h' hc

/-- Loops couple when their bodies do, for sources whose progress agrees. -/
theorem iter {W : β → β' → Prop} {U : γ → γ' → Prop} {body : β → Scan ε (β ⊕ γ)}
    {body' : β' → Scan ε (β' ⊕ γ')} {init : β} {init' : β'}
    (hremaining : ∀ s t, R s t → ByteSource.remaining t = ByteSource.remaining s)
    (hbody : ∀ b b', W b b' → Coupled R R E (Sum.LiftRel W U) (body b) (body' b')) (hinit : W init init') :
    Coupled R R E U (Scan.iter body init) (Scan.iter body' init') := by
  have loops (bound : Nat) : ∀ (b : β) (b' : β') (s : σ) (t : σ'), W b b' → R s t →
      RunsCoupled R E U (iterate (fun state => (body state).run) bound b s)
        (iterate (fun state => (body' state).run) bound b' t) := by
    induction bound with
    | zero => intros; trivial
    | succ bound ih =>
      intro b b' s t hW hst
      have hturn := hbody b b' hW s t hst
      simp only [iterate]
      cases hrun : (body b).run s with
      | error fault =>
        rw [hrun] at hturn
        cases fault with
        | stalled => trivial
        | error e =>
          obtain ⟨e', hrun', hE⟩ := hturn
          simp only [hrun']
          exact ⟨e', rfl, hE⟩
      | ok pair =>
        rw [hrun] at hturn
        obtain ⟨turn', rest', hrun', hturns, hrests⟩ := hturn
        simp only [hrun']
        obtain ⟨turn, rest⟩ := pair
        cases hturns with
        | inr hU => exact ⟨_, _, rfl, hU, hrests⟩
        | inl hnext =>
          simp only [hremaining _ _ hst, hremaining _ _ hrests]
          split
          · exact ih _ _ _ _ hnext hrests
          · trivial
  intro s t hst
  simp only [run_iter, hremaining s t hst]
  exact loops _ _ _ _ _ hinit hst

end Coupled

end byte_scan
