import Optic.Wire.Format

namespace wire

/-- An encoder appends to its output, or gives up. -/
abbrev Encoder (ε : Type) := StateT (List UInt8) (Except ε)

namespace Encoder

variable {ε : Type}

def bytes (bytes : List UInt8) : Encoder ε Unit := modify (· ++ bytes)

/-- Gives up unless a check passes. -/
def check (ok : Bool) (error : ε) : Encoder ε Unit := if ok then pure () else throw error

theorem run_seq_iff {p q : Encoder ε Unit} {out out' : List UInt8} :
    (p >>= fun _ => q).run out = .ok ((), out') ↔ ∃ mid, p.run out = .ok ((), mid) ∧ q.run mid = .ok ((), out') := by
  rw [StateT.run_bind]
  cases p.run out with
  | error error => simp [bind, Except.bind]
  | ok found =>
    obtain ⟨⟨⟩, mid⟩ := found
    simp [bind, Except.bind]

theorem run_pure_iff {out out' : List UInt8} :
    (pure () : Encoder ε Unit).run out = .ok ((), out') ↔ out' = out := by
  change (Except.ok ((), out) : Except ε _) = _ ↔ _
  simp [eq_comm]

theorem run_bytes_iff {content out out' : List UInt8} :
    (bytes content : Encoder ε Unit).run out = .ok ((), out') ↔ out' = out ++ content := by
  change (Except.ok ((), out ++ content) : Except ε _) = _ ↔ _
  simp [eq_comm]

theorem run_check_iff {ok : Bool} {error : ε} {out out' : List UInt8} :
    (check ok error : Encoder ε Unit).run out = .ok ((), out') ↔ ok = true ∧ out' = out := by
  cases ok with
  | true => exact run_pure_iff.trans (by simp)
  | false =>
    change (Except.error error : Except ε _) = _ ↔ _
    simp

end Encoder

end wire
