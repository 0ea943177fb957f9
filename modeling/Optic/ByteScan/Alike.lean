import Optic.ByteScan.Run

namespace byte_scan

variable {σ ε α β γ : Type} [ByteSource σ ε]

/-- Two programs that run alike from a source, and establish `Q` if they return. -/
def Alike (p p' : Scan ε α) (s : σ) (Q : α → σ → Prop) : Prop :=
  p.run s = p'.run s ∧ ∀ a s', p'.run s = .ok (a, s') → Q a s'

namespace Alike

variable {s : σ}

theorem same {p : Scan ε α} {Q : α → σ → Prop} (h : ∀ a s', p.run s = .ok (a, s') → Q a s') : Alike p p s Q := ⟨rfl, h⟩

theorem done {a : α} {Q : α → σ → Prop} (h : Q a s) : Alike (.done a : Scan ε α) (.done a) s Q := by
  refine same fun b s' hrun => ?_
  cases hrun
  exact h

theorem fail {e : ε} {Q : α → σ → Prop} : Alike (.fail e) (.fail e) s Q := same nofun

theorem mono {p p' : Scan ε α} {P Q : α → σ → Prop} (h : Alike p p' s P) (hPQ : ∀ a s', P a s' → Q a s') :
    Alike p p' s Q := ⟨h.1, fun a s' hrun => hPQ a s' (h.2 a s' hrun)⟩

theorem and {p p' : Scan ε α} {Q Q' : α → σ → Prop} (h : Alike p p' s Q)
    (h' : ∀ a s', p'.run s = .ok (a, s') → Q' a s') : Alike p p' s fun a s' => Q a s' ∧ Q' a s' :=
  ⟨h.1, fun a s' hrun => ⟨h.2 a s' hrun, h' a s' hrun⟩⟩

theorem bind {p p' : Scan ε α} {f f' : α → Scan ε β} {P : α → σ → Prop} {Q : β → σ → Prop} (h : Alike p p' s P)
    (hf : ∀ a s', P a s' → Alike (f a) (f' a) s' Q) : Alike (p >>= f) (p' >>= f') s Q := by
  unfold Alike
  rw [run_bind, run_bind, h.1]
  cases hrun : p'.run s with
  | error fault => exact ⟨rfl, nofun⟩
  | ok pair => exact hf _ _ (h.2 _ _ hrun)

/-- A first step of one program alone, which changes nothing. -/
theorem after {p : Scan ε α} {f : α → Scan ε β} {p' : Scan ε β} {a : α} {Q : β → σ → Prop} (hp : p.run s = .ok (a, s))
    (hf : Alike (f a) p' s Q) : Alike (p >>= f) p' s Q := by
  unfold Alike
  rw [run_bind, hp]
  exact hf

theorem ite {c : Prop} [Decidable c] {p p' q q' : Scan ε α} {Q : α → σ → Prop} (hp : c → Alike p p' s Q)
    (hq : ¬ c → Alike q q' s Q) : Alike (if c then p else q) (if c then p' else q') s Q := by
  by_cases h : c
  · rw [if_pos h, if_pos h]
    exact hp h
  · rw [if_neg h, if_neg h]
    exact hq h

/-- Loops run alike when their turns do under an invariant. -/
theorem iter {body body' : β → Scan ε (β ⊕ γ)} {I : β → σ → Prop} {Q : γ → σ → Prop}
    (hturn : ∀ b s, I b s → Alike (body b) (body' b) s fun turn s' =>
      match turn with
      | .inl b' => I b' s'
      | .inr c => Q c s') {b : β} (hs : I b s) : Alike (Scan.iter body b) (Scan.iter body' b) s Q := by
  have loops (n : Nat) : ∀ b s, ByteSource.remaining s < n → I b s →
      Alike (Scan.iter body b) (Scan.iter body' b) s Q := by
    induction n with
    | zero => intro b s hn; omega
    | succ n ih =>
      intro b s hn hI
      have h := hturn b s hI
      unfold Alike
      rw [run_iter_unfold, run_iter_unfold, h.1]
      cases hrun : (body' b).run s with
      | error fault => exact ⟨rfl, nofun⟩
      | ok pair =>
        obtain ⟨turn, rest⟩ := pair
        have hnext := h.2 turn rest hrun
        cases turn with
        | inr c =>
          refine ⟨rfl, fun d s' hstop => ?_⟩
          cases hstop
          exact hnext
        | inl b' =>
          simp only [andThen_ok]
          by_cases hless : ByteSource.remaining rest < ByteSource.remaining s
          · rw [if_pos hless, if_pos hless]
            exact ih b' rest (by omega) hnext
          · rw [if_neg hless, if_neg hless]
            exact ⟨rfl, nofun⟩
  exact loops _ b s (Nat.lt_succ_self _) hs

end Alike

end byte_scan
