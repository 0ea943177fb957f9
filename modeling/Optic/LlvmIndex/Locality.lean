import Optic.ByteScan.Simulation
import Optic.LlvmIndex.Reader

open byte_scan rust optic.records

namespace optic.llvm_index

/-- Two inputs that agree up to the absolute offset `stop`, where `x` and `y` follow. -/
structure Agrees (stop : Nat) (x y : List UInt8) (s t : Contiguous) : Prop where
  common : ∃ q, s.rest = q ++ x ∧ t.rest = q ++ y ∧ s.offset + q.length = stop
  offset : t.offset = s.offset
  header_start : t.header_start = s.header_start
  looked : t.looked = s.looked

/-- A read looked at the byte at `stop` or behind it. -/
def Past (stop : Nat) (s : Contiguous) : Prop :=
  stop < s.offset ∨ stop = s.offset ∧ s.looked = true

theorem Past.stable (stop : Nat) : Stable (Past stop) where
  peek s byte s' h hpeek := by
    change Contiguous.peek s = _ at hpeek
    unfold Contiguous.peek at hpeek
    have hlook : Past stop s.look := by
      cases h with
      | inl hless => exact Or.inl hless
      | inr hlooked => exact Or.inr ⟨hlooked.1, rfl⟩
    split at hpeek <;> cases hpeek <;> exact hlook
  take s byte s' h htake := by
    change Contiguous.take s = _ at htake
    unfold Contiguous.take at htake
    split at htake
    · obtain ⟨offset, hcharge, htake⟩ := bind_eq_ok_iff.mp htake
      cases htake
      have hnext := (charge_ok hcharge).1
      cases h with
      | inl hless => exact Or.inl (by simp only; omega)
      | inr hlooked => exact Or.inl (by simp only; omega)
    · cases htake
    · cases htake
      cases h with
      | inl hless => exact Or.inl hless
      | inr hlooked => exact Or.inr ⟨hlooked.1, rfl⟩
  budget s start h := h

namespace Agrees

variable {stop : Nat} {x y : List UInt8} {s t : Contiguous}

theorem look (h : Agrees stop x y s t) : Agrees stop x y s.look t.look := { h with looked := rfl }

/-- Inputs that agree up to `stop` answer every read alike until a read looks there. -/
theorem simulates (stop : Nat) (x y : List UInt8) :
    Simulates (fun _ => True) (Past stop) (Agrees stop x y) where
  peek s t h := by
    change Matches _ _ _ (Contiguous.peek s) (Contiguous.peek t)
    obtain ⟨q, hs, ht, hstop⟩ := h.common
    cases q with
    | cons byte q =>
      simp only [Contiguous.peek, hs, ht, List.cons_append]
      exact Or.inr ⟨_, rfl, h.look⟩
    | nil =>
      unfold Contiguous.peek
      split
      · exact Or.inl (Or.inr ⟨hstop.symm, rfl⟩)
      · exact Or.inl trivial
      · exact Or.inl (Or.inr ⟨hstop.symm, rfl⟩)
  take s t h := by
    change Matches _ _ _ (Contiguous.take s) (Contiguous.take t)
    obtain ⟨q, hs, ht, hstop⟩ := h.common
    cases q with
    | cons byte q =>
      simp only [Contiguous.take, hs, ht, List.cons_append, h.offset, h.header_start]
      cases hcharge : charge s.offset s.header_start with
      | error error => exact Or.inl trivial
      | ok offset =>
        have hnext := (charge_ok hcharge).1
        simp only [List.length_cons] at hstop
        exact Or.inr ⟨_, rfl, ⟨q, rfl, rfl, by simp only; omega⟩, rfl, rfl, rfl⟩
    | nil =>
      unfold Contiguous.take
      split
      · cases hcharge : charge s.offset s.header_start with
        | error error => exact Or.inl trivial
        | ok offset =>
          have hnext := (charge_ok hcharge).1
          refine Or.inl (Or.inl ?_)
          simp only [List.length_nil] at hstop
          simp only
          omega
      · exact Or.inl trivial
      · exact Or.inl (Or.inr ⟨hstop.symm, rfl⟩)
  offset s t h := h.offset
  active s t h := congrArg Option.isSome h.header_start
  budget s t start h := { h with header_start := rfl }
  remaining s t s' t' h h' hless := by
    obtain ⟨q, hs, ht, hstop⟩ := h.common
    obtain ⟨q', hs', ht', hstop'⟩ := h'.common
    change s'.rest.length < s.rest.length at hless
    change t'.rest.length < t.rest.length
    simp only [hs, ht, hs', ht', List.length_append] at *
    omega
  stable := Past.stable stop
  escaped _ _ _ := trivial

/-- A run that stays before `stop` does not depend on what follows there. -/
theorem run_ok (h : Agrees stop x y s t) {α : Type} {p : Program α} {a : α} {s' : Contiguous}
    (hrun : p.run s = .ok (a, s')) (hbefore : ¬ Past stop s') :
    ∃ t', p.run t = .ok (a, t') ∧ Agrees stop x y s' t' := by
  have hmatch := (simulates stop x y).run p s t h
  rw [hrun] at hmatch
  exact hmatch.resolve_left hbefore

end Agrees

/-- Reading never changes what follows the input. -/
theorem failure_stable (failure : Option IoError) : Stable fun s : Contiguous => s.failure = failure where
  peek s byte s' h hpeek := by
    change Contiguous.peek s = _ at hpeek
    unfold Contiguous.peek at hpeek
    split at hpeek <;> cases hpeek <;> exact h
  take s byte s' h htake := by
    change Contiguous.take s = _ at htake
    unfold Contiguous.take at htake
    split at htake
    · obtain ⟨offset, hcharge, htake⟩ := bind_eq_ok_iff.mp htake
      cases htake
      exact h
    · cases htake
    · cases htake
      exact h
  budget s start h := h

/-- An input that breaks off with a failure, and one that goes on in its place. -/
structure Extends (failure : IoError) (y : List UInt8) (s t : Contiguous) : Prop where
  rest : t.rest = s.rest ++ y
  failure : s.failure = some failure
  offset : t.offset = s.offset
  header_start : t.header_start = s.header_start

namespace Extends

variable {failure : IoError} {y : List UInt8} {s t : Contiguous}

/-- Until the failure is reached, the input that goes on is read the same way. -/
theorem simulates (failure : IoError) (y : List UInt8) :
    Simulates (fun error => error = .reader failure) (fun _ => False) (Extends failure y) where
  peek s t h := by
    change Matches _ _ _ (Contiguous.peek s) (Contiguous.peek t)
    cases hrest : s.rest with
    | nil =>
      simp only [Contiguous.peek, hrest, h.failure]
      exact Or.inl rfl
    | cons byte rest =>
      simp only [Contiguous.peek, hrest, h.rest, List.cons_append]
      exact Or.inr ⟨_, rfl, { h with rest := by simp [Contiguous.look, h.rest, hrest] }⟩
  take s t h := by
    change Matches _ _ _ (Contiguous.take s) (Contiguous.take t)
    cases hrest : s.rest with
    | nil =>
      simp only [Contiguous.take, hrest, h.failure]
      exact Or.inl rfl
    | cons byte rest =>
      simp only [Contiguous.take, hrest, h.rest, List.cons_append, h.offset, h.header_start]
      cases hcharge : charge s.offset s.header_start with
      | error error => exact Or.inr rfl
      | ok offset => exact Or.inr ⟨_, rfl, rfl, h.failure, rfl, rfl⟩
  offset s t h := h.offset
  active s t h := congrArg Option.isSome h.header_start
  budget s t start h := { h with header_start := rfl }
  remaining s t s' t' h h' hless := by
    change s'.rest.length < s.rest.length at hless
    change t'.rest.length < t.rest.length
    simp only [h.rest, h'.rest, List.length_append]
    omega
  stable := ⟨fun _ _ _ h => h.elim, fun _ _ _ h => h.elim, fun _ _ h => h.elim⟩
  escaped _ _ h := h.elim

end Extends

end optic.llvm_index
