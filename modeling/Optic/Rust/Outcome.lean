import Mathlib.Data.List.Forall2
import Mathlib.Tactic.Common

namespace rust

variable {ε α β : Type}

/-- A sequence succeeds exactly when both of its steps do. -/
theorem bind_eq_ok_iff {first : Except ε α} {next : α → Except ε β} {value : β} :
    (first >>= next) = .ok value ↔ ∃ mid, first = .ok mid ∧ next mid = .ok value := by
  cases first with
  | error error => simp [bind, Except.bind]
  | ok mid => simp [bind, Except.bind]

theorem bind_eq_error_iff {first : Except ε α} {next : α → Except ε β} {error : ε} :
    (first >>= next) = .error error ↔ first = .error error ∨ ∃ mid, first = .ok mid ∧ next mid = .error error := by
  cases first with
  | error found =>
    change (Except.error found : Except ε β) = _ ↔ _
    simp
  | ok mid =>
    change next mid = _ ↔ _
    simp

theorem unit_bind_eq_ok_iff {first : Except ε Unit} {next : Except ε α} {value : α} :
    (first >>= fun _ => next) = .ok value ↔ first = .ok () ∧ next = .ok value := by
  rw [bind_eq_ok_iff]
  exact ⟨fun ⟨_, h, h'⟩ => ⟨h, h'⟩, fun ⟨h, h'⟩ => ⟨(), h, h'⟩⟩

/-- A sequence of checks fails with what one of them reports. -/
theorem unit_bind_eq_error {first : Except ε Unit} {next : Except ε α} {error : ε}
    (h : (first >>= fun _ => next) = .error error) : first = .error error ∨ next = .error error := by
  cases first with
  | error other =>
    cases h
    exact Or.inl rfl
  | ok mid => exact Or.inr h

@[simp] theorem ok_bind (mid : α) (next : α → Except ε β) :
    (Except.ok mid >>= next) = next mid := rfl

@[simp] theorem error_bind (error : ε) (next : α → Except ε β) :
    ((Except.error error : Except ε α) >>= next) = .error error := rfl

@[simp] theorem pure_eq_ok (value : α) : (pure value : Except ε α) = .ok value := rfl

/-- A step that returns early unless a check passes. -/
def ensure (ok : Bool) (error : ε) : Except ε Unit := if ok then .ok () else .error error

@[simp] theorem ensure_eq_ok_iff {ok : Bool} {error : ε} {u : Unit} :
    ensure ok error = .ok u ↔ ok = true := by
  cases ok <;> simp [ensure]

/-- Hands the caller the proof that a check passed. -/
def proven (check : Except ε Unit) : Except ε (PLift (check = .ok ())) :=
  match check with
  | .ok () => .ok ⟨rfl⟩
  | .error error => .error error

theorem proven_ok {check : Except ε Unit} (h : check = .ok ()) : proven check = .ok ⟨h⟩ := by
  subst h
  rfl

theorem proven_error {check : Except ε Unit} {error : ε} (h : check = .error error) : proven check = .error error := by
  subst h
  rfl

/-- `Option::ok_or`. -/
def ok_or (value : Option α) (error : ε) : Except ε α :=
  match value with
  | some value => .ok value
  | none => .error error

@[simp] theorem ok_or_eq_ok_iff {value : Option α} {error : ε} {a : α} :
    ok_or value error = .ok a ↔ value = some a := by
  cases value <;> simp [ok_or]

/-- A loop of checks passes exactly when each of them does. -/
theorem forM_eq_ok_iff {l : List α} {check : α → Except ε Unit} : l.forM check = .ok () ↔ ∀ a ∈ l, check a = .ok () := by
  induction l with
  | nil => simp
  | cons a l ih =>
    rw [List.forall_mem_cons, ← ih]
    exact unit_bind_eq_ok_iff

theorem mapM_eq_ok_iff {f : α → Except ε β} {l : List α} : ∀ {l' : List β},
    l.mapM f = .ok l' ↔ List.Forall₂ (fun a b => f a = .ok b) l l' := by
  induction l with
  | nil =>
    intro l'
    rw [List.mapM_nil, List.forall₂_nil_left_iff]
    simp [eq_comm]
  | cons a l ih =>
    intro l'
    rw [List.mapM_cons, bind_eq_ok_iff]
    simp only [bind_eq_ok_iff, ih, List.forall₂_cons_left_iff]
    constructor
    · rintro ⟨b, hb, rest, hrest, hl'⟩
      cases hl'
      exact ⟨b, rest, hb, hrest, rfl⟩
    · rintro ⟨b, rest, hb, hrest, rfl⟩
      exact ⟨b, hb, rest, hrest, rfl⟩

theorem exists_of_mem_right {R : α → β → Prop} {l : List α} {l' : List β} (h : List.Forall₂ R l l')
    {b : β} (hb : b ∈ l') : ∃ a ∈ l, R a b := by
  induction h with
  | nil => cases hb
  | @cons x y l l' hfirst _ ih =>
    rcases List.mem_cons.mp hb with rfl | hb
    · exact ⟨x, List.mem_cons_self, hfirst⟩
    · obtain ⟨a, ha, hab⟩ := ih hb
      exact ⟨a, List.mem_cons_of_mem x ha, hab⟩

theorem mapM_of_ok {f : α → Except ε β} {g : α → β} {l : List α} (h : ∀ a ∈ l, f a = .ok (g a)) :
    l.mapM f = .ok (l.map g) := by
  rw [mapM_eq_ok_iff, List.forall₂_map_right_iff, List.forall₂_same]
  exact h

end rust
