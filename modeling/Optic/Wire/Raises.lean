import Optic.Wire.Decoder

open rust streams

namespace wire.Decoder

variable {ε α β ρ ι : Type} {E : ε → Prop}

/-- Every error with which a decoder rejects bytes satisfies `E`. -/
def Raises (E : ε → Prop) (p : Decoder ε α) : Prop := ∀ input error, p.run input = .error error → E error

namespace Raises

theorem pure {a : α} : Raises E (Pure.pure a : Decoder ε α) := by
  intro input error h
  cases h

theorem lift {result : Except ε α} (h : ∀ error, result = .error error → E error) : Raises E (lift result) := by
  intro input error hrun
  cases result with
  | ok a => cases hrun
  | error other =>
    cases hrun
    exact h _ rfl

theorem fail {error : ε} (h : E error) : Raises E (fail error : Decoder ε α) :=
  lift fun _ heq => by cases heq; exact h

theorem take {length : Nat} {report : IoError → ε} {failure : Option IoError} (h : ∀ source, E (report source)) :
    Raises E (take length report failure) := by
  intro input error hrun
  rw [run_take] at hrun
  split at hrun
  · cases hrun
  · cases hrun
    exact h _

theorem finish {trailing : ε} {report : IoError → ε} {failure : Option IoError} (htrailing : E trailing)
    (h : ∀ source, E (report source)) : Raises E (finish trailing report failure) := by
  intro input error hrun
  rw [run_finish] at hrun
  split at hrun
  · cases failure with
    | none => cases hrun
    | some source =>
      cases hrun
      exact h source
  · cases hrun
    exact htrailing

theorem bind {p : Decoder ε α} {f : α → Decoder ε β} (hp : Raises E p) (hf : ∀ a, Raises E (f a)) :
    Raises E (p >>= f) := by
  intro input error hrun
  rcases hfirst : p.run input with other | ⟨a, rest⟩
  · rw [run_bind_of_error hfirst] at hrun
    cases hrun
    exact hp input _ hfirst
  · rw [run_bind_of_ok hfirst] at hrun
    exact hf a rest error hrun

theorem ite {c : Prop} [Decidable c] {p q : Decoder ε α} (hp : Raises E p) (hq : Raises E q) :
    Raises E (if c then p else q) := by
  split
  · exact hp
  · exact hq

end Raises

variable {turn : β → Decoder ε (Option β)} {hstrict : ∀ state, Strict (turn state)}

/-- On spelled items, a loop raises what its turns raise, where the states that the items lead to keep an
invariant with the items that are left. -/
theorem each_raises {f : Format (Option ι)} {Step : β → ι → β → Prop} {Invariant : β → List ι → Prop}
    (hturn : ∀ state, Reads (turn state) f (Turn Step state))
    (hkept : ∀ state x l next, Invariant state (x :: l) → Step state x next → Invariant next l)
    (hitem : ∀ state x l rest error, f.Valid (some x) → Invariant state (x :: l) →
      (turn state).run (f.spell (some x) ++ rest) = .error error → E error)
    (hnone : f.Valid none) {l : List ι} (hl : ∀ x ∈ l, f.Valid (some x)) : ∀ {state rest error}, Invariant state l →
    (each turn hstrict state).run (f.many.spell l ++ rest) = .error error → E error := by
  induction l with
  | nil =>
    intro state rest error _ hrun
    have hend : (turn state).run (f.spell none ++ rest) = .ok (none, rest) :=
      (hturn state).mpr ⟨none, hnone, trivial, rfl⟩
    change turns turn hstrict state (f.spell none ++ rest) = .error error at hrun
    rw [turns_end hend] at hrun
    cases hrun
  | cons x l ih =>
    intro state rest error hinvariant hrun
    obtain ⟨hx, hl⟩ := List.forall_mem_cons.mp hl
    have hspell : f.many.spell (x :: l) ++ rest = f.spell (some x) ++ (f.many.spell l ++ rest) := List.append_assoc _ _ _
    change turns turn hstrict state (f.many.spell (x :: l) ++ rest) = .error error at hrun
    rw [hspell] at hrun
    rcases hfirst : (turn state).run (f.spell (some x) ++ (f.many.spell l ++ rest)) with other | ⟨result, mid⟩
    · rw [turns_error hfirst] at hrun
      cases hrun
      exact hitem state x l _ _ hx hinvariant hfirst
    · obtain ⟨item, hvalid, hmeaning, hinput⟩ := (hturn state).mp hfirst
      obtain ⟨rfl, rfl⟩ := f.delimited hx hvalid hinput
      cases result with
      | none => cases hmeaning
      | some next =>
        rw [turns_next hfirst] at hrun
        exact ih hl (hkept state x l next hinvariant hmeaning) hrun

end wire.Decoder
