import Optic.Streams.Reader

open rust

namespace streams

/-- How a sink answers one call. -/
inductive Answer where
  | accepts (more : Nat)
  | refuses
  | error (source : IoError)
deriving DecidableEq

def write_zero : IoError := ⟨.WriteZero, "failed to write whole buffer"⟩

/-- A sink, and what it has accepted and refused. It answers each call in turn, and accepts
everything behind its answers. -/
structure Writer where
  answers : List Answer
  written : List UInt8 := []
  /-- The error of the first call that was refused or failed, unless it was interrupted. -/
  failed : Option IoError := none

/-- A sink that may accept a part of what a call hands to it. Calls that are repeated come to
an end. -/
class Write (σ : Type) where
  write : σ → List UInt8 → Except IoError Nat × σ
  left : σ → Nat
  left_of_ok : ∀ {sink next : σ} {bytes : List UInt8} {n : Nat}, write sink bytes = (.ok n, next) → left next ≤ left sink
  left_of_interrupted : ∀ {sink next : σ} {bytes : List UInt8} {source : IoError},
    write sink bytes = (.error source, next) → is_interrupted source = true → left next < left sink

/-- The loop of `Write::write_all`. -/
def write_all {σ : Type} [Write σ] (self : σ) (bytes : List UInt8) : Except IoError Unit × σ :=
  if _more : bytes = [] then (.ok (), self)
  else
    match _write : Write.write self bytes with
    | (.ok 0, self) => (.error write_zero, self)
    | (.ok (n + 1), self) => write_all self (bytes.drop (n + 1))
    | (.error source, self) =>
      if _retry : is_interrupted source = true then write_all self bytes else (.error source, self)
termination_by Write.left self + bytes.length
decreasing_by
  · have hleft := Write.left_of_ok _write
    have hpositive := List.length_pos_iff.mpr _more
    rw [List.length_drop]
    omega
  · exact Nat.add_lt_add_right (Write.left_of_interrupted _write _retry) _

namespace Writer

/-- `Write::write`, which returns how many bytes it has accepted. -/
def write (self : Writer) (bytes : List UInt8) : Except IoError Nat × Writer :=
  match self.answers with
  | [] => (.ok bytes.length, { self with written := self.written ++ bytes })
  | .accepts more :: answers =>
    let accepted := bytes.take (more + 1)
    (.ok accepted.length, { self with answers, written := self.written ++ accepted })
  | .refuses :: answers => (.ok 0, { self with answers, failed := self.failed.or (some write_zero) })
  | .error source :: answers =>
    let failed := if is_interrupted source then self.failed else self.failed.or (some source)
    (.error source, { self with answers, failed })

theorem answers_of_ok {self next : Writer} {bytes : List UInt8} {n : Nat} (h : self.write bytes = (.ok n, next)) :
    next.answers.length ≤ self.answers.length := by
  unfold write at h
  split at h <;> cases h
  · next hanswers => exact Nat.le_refl _
  · next hanswers => simp [hanswers]
  · next hanswers => simp [hanswers]

theorem answers_of_error {self next : Writer} {bytes : List UInt8} {source : IoError}
    (h : self.write bytes = (.error source, next)) : next.answers.length < self.answers.length := by
  unfold write at h
  split at h <;> cases h
  next hanswers => simp [hanswers]

instance : Write Writer where
  write := write
  left self := self.answers.length
  left_of_ok := answers_of_ok
  left_of_interrupted h _ := answers_of_error h

end Writer

end streams
