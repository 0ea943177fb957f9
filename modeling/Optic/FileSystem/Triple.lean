import Optic.FileSystem.Rules

open rust

namespace file_system

variable {ε ε' α β : Type} {P : Tree → Prop}

/-- From a tree with `P`, a program that returns `a` leaves a tree with `Q a`, and one
that fails leaves a tree with `E`. -/
def Triple (P : Tree → Prop) (p : Action ε α) (Q : α → Tree → Prop) (E : Tree → Prop) : Prop :=
  ∀ w, P w.tree → (∀ a w', p w = (.ok a, w') → Q a w'.tree) ∧ ∀ e w', p w = (.error e, w') → E w'.tree

namespace Triple

variable {Q : α → Tree → Prop} {E : Tree → Prop}

theorem ok {p : Action ε α} (h : Triple P p Q E) {w w' : World} {a : α} (hP : P w.tree)
    (hrun : p w = (.ok a, w')) : Q a w'.tree := (h w hP).1 a w' hrun

theorem error {p : Action ε α} (h : Triple P p Q E) {w w' : World} {e : ε} (hP : P w.tree)
    (hrun : p w = (.error e, w')) : E w'.tree := (h w hP).2 e w' hrun

/-- What a program keeps holds behind it, also where it fails. -/
theorem kept {p : Action ε α} (h : Triple P p (fun _ => P) P) {w : World} (hP : P w.tree) : P (p w).2.tree := by
  rcases hrun : p w with ⟨e | a, w'⟩
  · exact h.error hP hrun
  · exact h.ok hP hrun

theorem weaken {p : Action ε α} {P' : Tree → Prop} {Q' : α → Tree → Prop} {E' : Tree → Prop}
    (h : Triple P p Q E) (hP : ∀ tree, P' tree → P tree) (hQ : ∀ a tree, Q a tree → Q' a tree)
    (hE : ∀ tree, E tree → E' tree) : Triple P' p Q' E' := by
  intro w hw
  obtain ⟨hok, herror⟩ := h w (hP _ hw)
  exact ⟨fun a w' hrun => hQ a _ (hok a w' hrun), fun e w' hrun => hE _ (herror e w' hrun)⟩

theorem pure {a : α} (h : ∀ tree, P tree → Q a tree) : Triple P (Pure.pure a : Action ε α) Q E := by
  intro w hw
  refine ⟨?_, fun e w' h => by cases h⟩
  rintro _ _ ⟨⟩
  exact h _ hw

theorem raise {e : ε} (h : ∀ tree, P tree → E tree) : Triple P (Action.fail e : Action ε α) Q E := by
  intro w hw
  refine ⟨fun a w' h => (by cases h), ?_⟩
  rintro _ _ ⟨⟩
  exact h _ hw

theorem lift {result : Except ε α} (hok : ∀ a tree, result = .ok a → P tree → Q a tree)
    (herror : ∀ tree, P tree → E tree) : Triple P (Action.lift result) Q E := by
  intro w hw
  constructor
  · intro a w' hrun
    obtain ⟨hresult, rfl⟩ := Action.lift_eq_ok_iff.mp hrun
    exact hok a _ hresult hw
  · rintro e w' ⟨⟩
    exact herror _ hw

theorem bind {p : Action ε α} {f : α → Action ε β} {M : α → Tree → Prop} {Q : β → Tree → Prop}
    (hp : Triple P p M E) (hf : ∀ a, Triple (M a) (f a) Q E) : Triple P (p >>= f) Q E := by
  intro w hw
  rcases hrun : p w with ⟨e | a, w1⟩
  · rw [Action.bind_of_error hrun]
    refine ⟨fun a w' h => (by cases h), ?_⟩
    rintro _ _ ⟨⟩
    exact hp.error hw hrun
  · rw [Action.bind_of_ok hrun]
    exact hf a w1 (hp.ok hw hrun)

theorem attempt {p : Action ε α} {f : Except ε α → Action ε' β} {Q' : β → Tree → Prop} {E' : Tree → Prop} (hp : Triple P p Q E)
    (hok : ∀ a, Triple (Q a) (f (.ok a)) Q' E') (herror : ∀ e, Triple E (f (.error e)) Q' E') :
    Triple P (Action.attempt p f) Q' E' := by
  intro w hw
  rw [Action.attempt_apply]
  rcases hrun : p w with ⟨e | a, w1⟩
  · exact herror e w1 (hp.error hw hrun)
  · exact hok a w1 (hp.ok hw hrun)

theorem map_err {p : Action ε α} {f : ε → ε'} (h : Triple P p Q E) : Triple P (Action.map_err f p) Q E := by
  intro w hw
  obtain ⟨hok, herror⟩ := h w hw
  unfold Action.map_err
  rcases hrun : p w with ⟨e | a, w1⟩
  · refine ⟨fun a w' h => (by cases h), ?_⟩
    rintro _ _ ⟨⟩
    exact herror e w1 hrun
  · refine ⟨?_, fun e w' h => by cases h⟩
    rintro _ _ ⟨⟩
    exact hok a w1 hrun

theorem ite {c : Prop} [Decidable c] {p p' : Action ε α} (hp : c → Triple P p Q E)
    (hp' : ¬ c → Triple P p' Q E) : Triple P (if c then p else p') Q E := by
  split
  · exact hp ‹_›
  · exact hp' ‹_›

/-- A failed operation leaves the tree as it was. -/
theorem perform {act : Tree → Except IoError (α × Tree)}
    (h : ∀ tree a tree', P tree → act tree = .ok (a, tree') → Q a tree') :
    Triple P (file_system.perform act) Q P := by
  intro w hw
  unfold file_system.perform
  cases w.verdict with
  | some failure =>
    refine ⟨fun a w' h => (by cases h), ?_⟩
    rintro _ _ ⟨⟩
    exact hw
  | none =>
    cases hact : act w.tree with
    | ok answer =>
      refine ⟨?_, fun e w' h => by cases h⟩
      rintro _ _ ⟨⟩
      exact h w.tree answer.1 answer.2 hw hact
    | error e =>
      refine ⟨fun a w' h => (by cases h), ?_⟩
      rintro _ _ ⟨⟩
      exact hw

theorem create {path : Path} {entry : Entry} {Q : Tree → Prop}
    (h : ∀ tree, P tree → tree path = none → tree path.dropLast = some .dir → Q (tree.set path entry)) :
    Triple P (file_system.create path entry) (fun _ => Q) P := by
  apply perform
  intro tree a tree' hP hact
  split at hact
  · cases hact
  split at hact
  · cases hact
  · next habsent hparent =>
    cases hact
    exact h tree hP (not_not.mp habsent) (not_not.mp hparent)

/-- A program that changes nothing. -/
theorem read_only {p : Action ε α} (hp : ReadOnly p)
    (h : ∀ w a w', P w.tree → p w = (.ok a, w') → Q a w.tree) : Triple P p Q P := by
  intro w hw
  have htree := hp.tree w
  constructor
  · intro a w' hrun
    rw [hrun] at htree
    rw [htree]
    exact h w a w' hw hrun
  · intro e w' hrun
    rw [hrun] at htree
    rw [htree]
    exact hw

/-- A program that changes entries of `s` only keeps whatever does not depend on them. -/
theorem within {p : Action ε α} {s : Path → Prop} (hp : Within s p)
    (hP : ∀ tree tree', (∀ path, ¬ s path → tree' path = tree path) → P tree → P tree') :
    Triple P p (fun _ => P) P := by
  intro w hw
  have hkept := hP _ _ (hp w) hw
  constructor <;>
  · intro r w' hrun
    rw [hrun] at hkept
    exact hkept

/-- A program that keeps `I` may assume it throughout. -/
theorem and {I : Tree → Prop} {p : Action ε α} (hI : Triple I p (fun _ => I) I) (h : Triple P p Q E) :
    Triple (fun tree => I tree ∧ P tree) p (fun a tree => I tree ∧ Q a tree) (fun tree => I tree ∧ E tree) := by
  rintro w ⟨hw, hP⟩
  exact ⟨fun a w' hrun => ⟨hI.ok hw hrun, h.ok hP hrun⟩, fun e w' hrun => ⟨hI.error hw hrun, h.error hP hrun⟩⟩

end Triple

end file_system
