import Mathlib.Tactic.Common

namespace chain

variable {α : Type} {next : α → Option α} {a b c : α} {path path' : List α}

/-- `next` leads from one element, over those of a path, to another. -/
inductive Leads (next : α → Option α) : α → List α → α → Prop
  | here (a : α) : Leads next a [] a
  | step {a b c : α} {path : List α} (hnext : next a = some b) (rest : Leads next b path c) : Leads next a (a :: path) c

namespace Leads

theorem trans (h : Leads next a path b) (h' : Leads next b path' c) : Leads next a (path ++ path') c := by
  induction h with
  | here a => exact h'
  | step hnext _ ih => exact .step hnext (ih h')

theorem snoc (h : Leads next a path b) (hnext : next b = some c) : Leads next a (path ++ [b]) c :=
  h.trans (.step hnext (.here c))

/-- Of two chains from one element, one goes on where the other ends. -/
theorem compare (h : Leads next a path b) : ∀ {path' : List α} {c : α}, Leads next a path' c →
    (∃ more, path' = path ++ more ∧ Leads next b more c) ∨ ∃ more, path = path' ++ more ∧ Leads next c more b := by
  induction h with
  | here a =>
    intro path' c h'
    exact .inl ⟨path', rfl, h'⟩
  | @step a b d path hnext rest ih =>
    intro path' c h'
    cases h' with
    | here => exact .inr ⟨a :: path, rfl, .step hnext rest⟩
    | step hnext' rest' =>
      obtain rfl := Option.some.inj (hnext.symm.trans hnext')
      rcases ih rest' with ⟨more, rfl, hmore⟩ | ⟨more, rfl, hmore⟩
      · exact .inl ⟨more, rfl, hmore⟩
      · exact .inr ⟨more, rfl, hmore⟩

theorem stop (h : Leads next a path b) (hend : next a = none) : path = [] ∧ a = b := by
  cases h with
  | here => exact ⟨rfl, rfl⟩
  | step hnext _ =>
    rw [hend] at hnext
    cases hnext

/-- The chain to an end is unique. -/
theorem end_unique (h : Leads next a path b) (hend : next b = none) (h' : Leads next a path' c) (hend' : next c = none) :
    path = path' ∧ b = c := by
  rcases h.compare h' with ⟨more, rfl, hmore⟩ | ⟨more, rfl, hmore⟩
  · obtain ⟨rfl, rfl⟩ := hmore.stop hend
    exact ⟨(List.append_nil _).symm, rfl⟩
  · obtain ⟨rfl, rfl⟩ := hmore.stop hend'
    exact ⟨List.append_nil _, rfl⟩

/-- The chain from an element of the path to where the path leads. -/
theorem behind (h : Leads next a path b) (hmem : c ∈ path) :
    ∃ before rest, path = before ++ c :: rest ∧ Leads next a before c ∧ Leads next c (c :: rest) b := by
  induction h with
  | here a => cases hmem
  | @step a b d path hnext rest ih =>
    rcases List.mem_cons.mp hmem with rfl | hlater
    · exact ⟨[], path, rfl, .here c, .step hnext rest⟩
    · obtain ⟨before, behind, rfl, hbefore, hbehind⟩ := ih hlater
      exact ⟨a :: before, behind, rfl, .step hnext hbefore, hbehind⟩

/-- A chain that has come back can go on for any length. -/
theorem endless (h : Leads next a path b) (hmem : b ∈ path) (length : Nat) :
    ∃ path' c, Leads next a path' c ∧ length ≤ path'.length := by
  obtain ⟨before, rest, rfl, hbefore, hround⟩ := h.behind hmem
  have hrounds : ∀ count, ∃ path', Leads next b path' b ∧ count ≤ path'.length := by
    intro count
    induction count with
    | zero => exact ⟨[], .here b, Nat.le_refl 0⟩
    | succ count ih =>
      obtain ⟨path', hpath, hlength⟩ := ih
      refine ⟨b :: rest ++ path', hround.trans hpath, ?_⟩
      rw [List.length_append, List.length_cons]
      omega
  obtain ⟨path', hpath, hlength⟩ := hrounds length
  refine ⟨before ++ path', b, hbefore.trans hpath, ?_⟩
  rw [List.length_append]
  omega

/-- A chain that comes back has no end. -/
theorem no_end (h : Leads next a path b) (hmem : b ∈ path) (h' : Leads next a path' c) (hend : next c = none) : False := by
  obtain ⟨long, d, hlong, hlength⟩ := h.endless hmem (path'.length + 1)
  rcases hlong.compare h' with ⟨more, rfl, -⟩ | ⟨more, rfl, hmore⟩
  · rw [List.length_append] at hlength
    omega
  · obtain ⟨rfl, -⟩ := hmore.stop hend
    rw [List.append_nil] at hlength
    omega

/-- The chain to the first element that comes back is unique. -/
theorem return_unique (h : Leads next a path b) (hdistinct : path.Nodup) (hmem : b ∈ path) (h' : Leads next a path' c)
    (hdistinct' : path'.Nodup) (hmem' : c ∈ path') : path = path' ∧ b = c := by
  have hshort {path path' : List α} {b c : α} (hpath : path'.Nodup) (hb : b ∈ path) {more : List α}
      (heq : path' = path ++ more) (hmore : Leads next b more c) : more = [] ∧ b = c := by
    cases hmore with
    | here => exact ⟨rfl, rfl⟩
    | step _ _ =>
      rw [heq] at hpath
      exact absurd List.mem_cons_self ((List.nodup_append.mp hpath).2.2 b hb b · rfl)
  rcases h.compare h' with ⟨more, heq, hmore⟩ | ⟨more, heq, hmore⟩
  · obtain ⟨rfl, rfl⟩ := hshort hdistinct' hmem heq hmore
    exact ⟨by rw [heq, List.append_nil], rfl⟩
  · obtain ⟨rfl, rfl⟩ := hshort hdistinct hmem' heq hmore
    exact ⟨by rw [heq, List.append_nil], rfl⟩

end Leads

/-- A chain from an element comes back to one of its own elements. -/
def Returns (next : α → Option α) (a : α) : Prop := ∃ path b, Leads next a path b ∧ b ∈ path

/-- The element that a chain comes back to first. -/
def ReturnsAt (next : α → Option α) (a b : α) : Prop := ∃ path, Leads next a path b ∧ path.Nodup ∧ b ∈ path

theorem ReturnsAt.returns (h : ReturnsAt next a b) : Returns next a := by
  obtain ⟨path, hpath, -, hreturn⟩ := h
  exact ⟨path, b, hpath, hreturn⟩

end chain
