import Optic.ByteScan.Run

namespace byte_scan

variable {σ ε α β γ : Type} [ByteSource σ ε]

/-- A run that does not stall, whose error satisfies `E` if it fails, and whose value
and final source satisfy `Q` if it returns. -/
def Meets (E : ε → Prop) (p : Scan ε α) (s : σ) (Q : α → σ → Prop) : Prop :=
  match p.run s with
  | .ok (a, s') => Q a s'
  | .error (.error e) => E e
  | .error .stalled => False

namespace Meets

variable {E : ε → Prop}

theorem of_run_ok {p : Scan ε α} {s : σ} {Q : α → σ → Prop} (h : Meets E p s Q) {a : α} {s' : σ}
    (hrun : p.run s = .ok (a, s')) : Q a s' := by
  simpa [Meets, hrun] using h

theorem of_run_error {p : Scan ε α} {s : σ} {Q : α → σ → Prop} (h : Meets E p s Q) {e : ε}
    (hrun : p.run s = .error (.error e)) : E e := by
  simpa [Meets, hrun] using h

theorem ne_stalled {p : Scan ε α} {s : σ} {Q : α → σ → Prop} (h : Meets E p s Q) :
    p.run s ≠ .error .stalled := by
  intro hrun
  simp [Meets, hrun] at h

theorem mono {p : Scan ε α} {s : σ} {Q Q' : α → σ → Prop} (h : Meets E p s Q)
    (hQ : ∀ a s', Q a s' → Q' a s') : Meets E p s Q' := by
  unfold Meets at *
  split <;> simp_all

/-- What a run establishes, it establishes for the value that it returns. -/
theorem with_run {p : Scan ε α} {s : σ} {Q : α → σ → Prop} (h : Meets E p s Q) :
    Meets E p s fun a s' => p.run s = .ok (a, s') ∧ Q a s' := by
  unfold Meets at *
  split <;> simp_all

theorem and {p : Scan ε α} {s : σ} {Q Q' : α → σ → Prop} (h : Meets E p s Q) (h' : Meets E p s Q') :
    Meets E p s fun a s' => Q a s' ∧ Q' a s' :=
  h.with_run.mono fun _ _ hrun => ⟨hrun.2, h'.of_run_ok hrun.1⟩

theorem pure {a : α} {s : σ} {Q : α → σ → Prop} (h : Q a s) :
    Meets E (Pure.pure a : Scan ε α) s Q := h

theorem done {a : α} {s : σ} {Q : α → σ → Prop} (h : Q a s) : Meets E (.done a : Scan ε α) s Q := h

theorem fail {e : ε} {s : σ} {Q : α → σ → Prop} (h : E e) : Meets E (.fail e : Scan ε α) s Q := h

/-- A read followed by nothing is specified by what the source answers. -/
theorem read_peek {s : σ} {Q : Option UInt8 → σ → Prop}
    (hok : ∀ byte s', ByteSource.peek s = .ok (byte, s') → Q byte s')
    (herror : ∀ e, ByteSource.peek s = .error e → E e) : Meets E (.peek .done : Scan ε _) s Q := by
  unfold Meets Scan.run
  cases hpeek : ByteSource.peek s with
  | ok pair => exact hok _ _ hpeek
  | error e => exact herror _ hpeek

theorem read_take {s : σ} {Q : Option UInt8 → σ → Prop}
    (hok : ∀ byte s', ByteSource.take s = .ok (byte, s') → Q byte s')
    (herror : ∀ e, ByteSource.take s = .error e → E e) : Meets E (.take .done : Scan ε _) s Q := by
  unfold Meets Scan.run
  cases htake : ByteSource.take s with
  | ok pair => exact hok _ _ htake
  | error e => exact herror _ htake

theorem bind {p : Scan ε α} {f : α → Scan ε β} {s : σ} {P : α → σ → Prop} {Q : β → σ → Prop}
    (h : Meets E p s P) (hnext : ∀ a s', P a s' → Meets E (f a) s' Q) : Meets E (p >>= f) s Q := by
  unfold Meets at h ⊢
  rw [run_bind]
  cases hrun : p.run s with
  | ok pair =>
    rw [hrun] at h
    exact hnext _ _ h
  | error fault => cases fault <;> simp_all

theorem ite {c : Prop} [Decidable c] {p q : Scan ε α} {s : σ} {Q : α → σ → Prop}
    (hp : c → Meets E p s Q) (hq : ¬ c → Meets E q s Q) : Meets E (if c then p else q) s Q := by
  split
  · next hc => exact hp hc
  · next hc => exact hq hc

/-- The loop rule: a relation `Q` between where a loop starts and where it ends, which
holds when a turn breaks and composes with a turn that consumes a byte. `I` is what
every turn may assume. -/
theorem iter {body : β → Scan ε (β ⊕ γ)} {I : β → σ → Prop} {Q : β → σ → γ → σ → Prop}
    (hturn : ∀ b s, I b s → Meets E (body b) s fun turn s' =>
      match turn with
      | .inl b' => ByteSource.remaining s' < ByteSource.remaining s ∧ I b' s' ∧
          ∀ c s'', Q b' s' c s'' → Q b s c s''
      | .inr c => Q b s c s') :
    ∀ b s, I b s → Meets E (Scan.iter body b) s (Q b s) := by
  have loops (n : Nat) : ∀ b s, ByteSource.remaining s < n → I b s →
      Meets E (Scan.iter body b) s (Q b s) := by
    induction n with
    | zero => intro b s hn; omega
    | succ n ih =>
      intro b s hn hI
      have h := hturn b s hI
      unfold Meets at h ⊢
      rw [run_iter_unfold]
      cases hrun : (body b).run s with
      | error fault => cases fault <;> simp_all
      | ok pair =>
        obtain ⟨turn, rest⟩ := pair
        rw [hrun] at h
        cases turn with
        | inr c => exact h
        | inl b' =>
          obtain ⟨hless, hI', hcompose⟩ := h
          simp only [andThen_ok, if_pos hless]
          exact (ih b' rest (by omega) hI').mono hcompose
  exact fun b s hI => loops _ b s (Nat.lt_succ_self _) hI

end Meets

end byte_scan
