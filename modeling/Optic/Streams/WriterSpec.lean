import Optic.Streams.Writer

open rust

namespace streams.Writer

variable {self next : Writer} {bytes : List UInt8}

theorem write_error {source : IoError} (h : self.write bytes = (.error source, next)) :
    next.written = self.written ∧
      next.failed = if is_interrupted source then self.failed else self.failed.or (some source) := by
  unfold write at h
  split at h <;> cases h
  exact ⟨rfl, rfl⟩

/-- Everything is written, or a front of it up to the first failure. -/
inductive Written (start next : Writer) (bytes : List UInt8) : Except IoError Unit → Prop where
  | all (written : next.written = start.written ++ bytes) (failed : next.failed = start.failed) :
    Written start next bytes (.ok ())
  | some (accepted : List UInt8) (source : IoError) (front : accepted <+: bytes)
    (written : next.written = start.written ++ accepted) (failed : next.failed = start.failed.or (some source)) :
    Written start next bytes (.error source)

theorem Written.behind {start mid next : Writer} {bytes : List UInt8} {n : Nat} {result : Except IoError Unit}
    (h : Written mid next (bytes.drop n) result) (hwritten : mid.written = start.written ++ bytes.take n)
    (hfailed : mid.failed = start.failed) : Written start next bytes result := by
  cases h with
  | all written failed =>
    refine .all ?_ (failed.trans hfailed)
    rw [written, hwritten, List.append_assoc, List.take_append_drop]
  | some accepted source hfront written failed =>
    refine .some (bytes.take n ++ accepted) source ?_ ?_ (by rw [failed, hfailed])
    · have h := (List.prefix_append_right_inj (bytes.take n)).mpr hfront
      rwa [List.take_append_drop] at h
    · rw [written, hwritten, List.append_assoc]

end streams.Writer
