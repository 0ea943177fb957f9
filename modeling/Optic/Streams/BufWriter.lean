import Optic.Streams.WriterSpec

open rust

namespace streams

/-- The capacity of a new `BufWriter`. -/
def BUFFER_CAPACITY : Nat := 8192

def buffered_write_zero : IoError := ⟨.WriteZero, "failed to write the buffered data"⟩

/-- `BufWriter`: a sink, and what is to be passed on to it. -/
structure BufWriter where
  buffer : List UInt8 := []
  inner : Writer

namespace BufWriter

/-- `BufWriter::flush_buf`. What a failure leaves stays buffered. -/
def flush_buf (self : BufWriter) : Except IoError Unit × BufWriter :=
  if _more : self.buffer = [] then (.ok (), self)
  else
    match _write : self.inner.write self.buffer with
    | (.ok 0, inner) => (.error buffered_write_zero, { self with inner })
    | (.ok (n + 1), inner) => flush_buf { buffer := self.buffer.drop (n + 1), inner }
    | (.error source, inner) =>
      if is_interrupted source then flush_buf { self with inner } else (.error source, { self with inner })
termination_by self.inner.answers.length + self.buffer.length
decreasing_by
  · have hleft := Writer.answers_of_ok _write
    have hpositive := List.length_pos_iff.mpr _more
    simp only [List.length_drop]
    omega
  · exact Nat.add_lt_add_right (Writer.answers_of_error _write) _

/-- Passes on directly what no buffer can hold. -/
def write_through (self : BufWriter) (bytes : List UInt8) : Except IoError Nat × BufWriter :=
  if bytes.length ≥ BUFFER_CAPACITY then
    let (result, inner) := self.inner.write bytes
    (result, { self with inner })
  else (.ok bytes.length, { self with buffer := self.buffer ++ bytes })

/-- `BufWriter::write`: buffers what fits, and makes room for what does not. -/
def write (self : BufWriter) (bytes : List UInt8) : Except IoError Nat × BufWriter :=
  let spare := BUFFER_CAPACITY - self.buffer.length
  if bytes.length < spare then (.ok bytes.length, { self with buffer := self.buffer ++ bytes })
  else if bytes.length > spare then
    match self.flush_buf with
    | (.error source, self) => (.error source, self)
    | (.ok (), self) => self.write_through bytes
  else self.write_through bytes

theorem flush_answers {self next : BufWriter} {result : Except IoError Unit} (h : self.flush_buf = (result, next)) :
    next.inner.answers.length ≤ self.inner.answers.length ∧
      ∀ source, result = .error source → is_interrupted source = false := by
  fun_induction flush_buf self with
  | case1 self hempty =>
    cases h
    exact ⟨Nat.le_refl _, nofun⟩
  | case2 self hmore inner hwrite =>
    cases h
    exact ⟨Writer.answers_of_ok hwrite, by rintro _ ⟨⟩; rfl⟩
  | case3 self hmore n inner hwrite ih => exact ⟨Nat.le_trans (ih h).1 (Writer.answers_of_ok hwrite), (ih h).2⟩
  | case4 self hmore source inner hwrite hsource ih =>
    exact ⟨Nat.le_trans (ih h).1 (Nat.le_of_lt (Writer.answers_of_error hwrite)), (ih h).2⟩
  | case5 self hmore source inner hwrite hsource =>
    cases h
    refine ⟨Nat.le_of_lt (Writer.answers_of_error hwrite), ?_⟩
    rintro _ ⟨⟩
    exact Bool.not_eq_true _ ▸ hsource

theorem write_through_answers (self : BufWriter) (bytes : List UInt8) :
    (self.write_through bytes).2.inner.answers.length ≤ self.inner.answers.length ∧
      ∀ source, (self.write_through bytes).1 = .error source →
        (self.write_through bytes).2.inner.answers.length < self.inner.answers.length := by
  unfold write_through
  split
  · rcases hwrite : self.inner.write bytes with ⟨source | n, inner⟩
    · have hless := Writer.answers_of_error hwrite
      exact ⟨Nat.le_of_lt hless, fun _ _ => hless⟩
    · exact ⟨Writer.answers_of_ok hwrite, nofun⟩
  · exact ⟨Nat.le_refl _, nofun⟩

/-- A write never adds answers, and one that is interrupted uses one up. -/
theorem write_answers {self next : BufWriter} {bytes : List UInt8} {result : Except IoError Nat}
    (h : self.write bytes = (result, next)) :
    next.inner.answers.length ≤ self.inner.answers.length ∧
      ∀ source, result = .error source → is_interrupted source = true →
        next.inner.answers.length < self.inner.answers.length := by
  by_cases hfits : bytes.length < BUFFER_CAPACITY - self.buffer.length
  · simp only [write, if_pos hfits] at h
    cases h
    exact ⟨Nat.le_refl _, nofun⟩
  by_cases hlong : bytes.length > BUFFER_CAPACITY - self.buffer.length
  · rcases hflush : self.flush_buf with ⟨source | u, flushed⟩
    · simp only [write, if_neg hfits, if_pos hlong, hflush] at h
      obtain ⟨rfl, rfl⟩ := Prod.mk.inj h
      obtain ⟨hle, hsource⟩ := flush_answers hflush
      refine ⟨hle, ?_⟩
      rintro _ ⟨⟩ hinterrupted
      rw [hsource source rfl] at hinterrupted
      cases hinterrupted
    · simp only [write, if_neg hfits, if_pos hlong, hflush] at h
      have hle := (flush_answers hflush).1
      have hthrough := flushed.write_through_answers bytes
      rw [h] at hthrough
      exact ⟨Nat.le_trans hthrough.1 hle, fun source hresult _ => Nat.lt_of_lt_of_le (hthrough.2 source hresult) hle⟩
  · simp only [write, if_neg hfits, if_neg hlong] at h
    have hthrough := self.write_through_answers bytes
    rw [h] at hthrough
    exact ⟨hthrough.1, fun source hresult _ => hthrough.2 source hresult⟩

theorem left_of_ok {self next : BufWriter} {bytes : List UInt8} {n : Nat} (h : self.write bytes = (.ok n, next)) :
    next.inner.answers.length ≤ self.inner.answers.length := (write_answers h).1

theorem left_of_interrupted {self next : BufWriter} {bytes : List UInt8} {source : IoError}
    (h : self.write bytes = (.error source, next)) (hsource : is_interrupted source = true) :
    next.inner.answers.length < self.inner.answers.length := (write_answers h).2 source rfl hsource

/-- What was accepted so far: what the sink holds, and what is buffered. -/
def accepted (self : BufWriter) : List UInt8 := self.inner.written ++ self.buffer

end BufWriter

/-- A sink that only cuts and interrupts calls, but accepts every byte in the end. -/
def Calm (answers : List Answer) : Prop :=
  ∀ answer ∈ answers, (∃ more, answer = .accepts more) ∨ ∃ source, answer = .error source ∧ is_interrupted source = true

/-- One call takes a front of the bytes, or is interrupted. -/
inductive Takes (bytes before after : List UInt8) : Except IoError Nat → Prop where
  | front (n : Nat) (fits : n + 1 ≤ bytes.length) (taken : after = before ++ bytes.take (n + 1)) :
    Takes bytes before after (.ok (n + 1))
  | interrupted (source : IoError) (retried : is_interrupted source = true) (same : after = before) :
    Takes bytes before after (.error source)

theorem Takes.whole {bytes before after : List UInt8} (hbytes : bytes ≠ []) (h : after = before ++ bytes) :
    Takes bytes before after (.ok bytes.length) := by
  obtain ⟨n, hn⟩ := Nat.exists_eq_add_one_of_ne_zero (Nat.ne_of_gt (List.length_pos_iff.mpr hbytes))
  rw [hn]
  exact .front n (Nat.le_of_eq hn.symm) (by rw [h, List.take_of_length_le (Nat.le_of_eq hn)])

theorem Writer.write_calm {self : Writer} {bytes : List UInt8} (hcalm : Calm self.answers) (hbytes : bytes ≠ []) :
    Calm (self.write bytes).2.answers ∧
      Takes bytes self.written (self.write bytes).2.written (self.write bytes).1 := by
  unfold write
  split
  · next hanswers =>
    rw [hanswers]
    exact ⟨nofun, .whole hbytes rfl⟩
  · next more answers hanswers =>
    rw [hanswers, Calm, List.forall_mem_cons] at hcalm
    obtain ⟨n, hn⟩ := Nat.exists_eq_add_one_of_ne_zero (Nat.ne_of_gt (List.length_pos_iff.mpr hbytes))
    have hlength : (bytes.take (more + 1)).length = min more n + 1 := by
      rw [List.length_take]
      omega
    refine ⟨hcalm.2, ?_⟩
    simp only [hlength]
    refine .front _ (by omega) ?_
    rw [← hlength, List.length_take, List.take_eq_take_min]
  · next answers hanswers =>
    rw [hanswers, Calm, List.forall_mem_cons] at hcalm
    obtain ⟨⟨_, h⟩ | ⟨_, h, _⟩, _⟩ := hcalm <;> cases h
  · next source answers hanswers =>
    rw [hanswers, Calm, List.forall_mem_cons] at hcalm
    obtain ⟨⟨_, h⟩ | ⟨_, h, hsource⟩, hrest⟩ := hcalm
    · cases h
    · cases h
      exact ⟨hrest, .interrupted source hsource rfl⟩

namespace BufWriter

variable {self : BufWriter} {bytes : List UInt8}

/-- A calm sink takes the whole buffer. -/
theorem flush_calm (hcalm : Calm self.inner.answers) :
    ∃ next, self.flush_buf = (.ok (), next) ∧ next.buffer = [] ∧ next.accepted = self.accepted ∧
      Calm next.inner.answers := by
  fun_induction flush_buf self with
  | case1 self hempty => exact ⟨self, rfl, hempty, rfl, hcalm⟩
  | case2 self hmore inner hwrite =>
    obtain ⟨-, htakes⟩ := Writer.write_calm hcalm hmore
    rw [hwrite] at htakes
    cases htakes
  | case3 self hmore n inner hwrite ih =>
    obtain ⟨hinner, htakes⟩ := Writer.write_calm hcalm hmore
    rw [hwrite] at hinner htakes
    cases htakes with
    | front _ fits taken =>
      obtain ⟨next, hflush, hempty, haccepted, hnext⟩ := ih hinner
      refine ⟨next, hflush, hempty, ?_, hnext⟩
      rw [haccepted, accepted, accepted, taken, List.append_assoc, List.take_append_drop]
  | case4 self hmore source inner hwrite hsource ih =>
    obtain ⟨hinner, htakes⟩ := Writer.write_calm hcalm hmore
    rw [hwrite] at hinner htakes
    cases htakes with
    | interrupted _ _ same =>
      obtain ⟨next, hflush, hempty, haccepted, hnext⟩ := ih hinner
      exact ⟨next, hflush, hempty, by rw [haccepted, accepted, accepted, same], hnext⟩
  | case5 self hmore source inner hwrite hsource =>
    obtain ⟨-, htakes⟩ := Writer.write_calm hcalm hmore
    rw [hwrite] at htakes
    cases htakes with
    | interrupted _ retried _ => exact absurd retried hsource

theorem write_through_calm (hcalm : Calm self.inner.answers) (hbytes : bytes ≠ [])
    (hempty : bytes.length ≥ BUFFER_CAPACITY → self.buffer = []) :
    Calm (self.write_through bytes).2.inner.answers ∧
      Takes bytes self.accepted (self.write_through bytes).2.accepted (self.write_through bytes).1 := by
  unfold write_through
  split
  · next hlong =>
    have h := Writer.write_calm hcalm hbytes
    simp only [accepted, hempty hlong, List.append_nil]
    exact h
  · exact ⟨hcalm, .whole hbytes (List.append_assoc _ _ _).symm⟩

/-- A calm sink takes a front of what is written through a buffer, or interrupts. -/
theorem write_calm (hcalm : Calm self.inner.answers) (hbytes : bytes ≠ []) :
    Calm (self.write bytes).2.inner.answers ∧
      Takes bytes self.accepted (self.write bytes).2.accepted (self.write bytes).1 := by
  by_cases hfits : bytes.length < BUFFER_CAPACITY - self.buffer.length
  · simp only [write, if_pos hfits]
    exact ⟨hcalm, .whole hbytes (List.append_assoc _ _ _).symm⟩
  by_cases hlong : bytes.length > BUFFER_CAPACITY - self.buffer.length
  · obtain ⟨next, hflush, hempty, haccepted, hnext⟩ := flush_calm hcalm
    simp only [write, if_neg hfits, if_pos hlong, hflush, ← haccepted]
    exact write_through_calm hnext hbytes fun _ => hempty
  · simp only [write, if_neg hfits, if_neg hlong]
    refine write_through_calm hcalm hbytes fun hdirect => ?_
    rw [← List.length_eq_zero_iff]
    simp only [BUFFER_CAPACITY] at *
    omega

end BufWriter

end streams
