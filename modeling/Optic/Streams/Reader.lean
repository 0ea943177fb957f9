import Optic.Rust.Bytes

open rust

namespace streams

/-- What a source has next: a byte, which may end a delivery, or an error to report. -/
inductive Event where
  | byte (value : UInt8) (ends : Bool)
  | error (source : IoError)
deriving DecidableEq

/-- An error after which a call is only repeated. -/
def is_interrupted (error : IoError) : Bool := error.kind = .Interrupted

/-- The bytes in front of the first error that is no interruption. -/
def delivered : List Event → List UInt8
  | [] => []
  | .byte value _ :: events => value :: delivered events
  | .error source :: events => if is_interrupted source then delivered events else []

/-- The first error that is no interruption. -/
def fault : List Event → Option IoError
  | [] => none
  | .byte _ _ :: events => fault events
  | .error source :: events => if is_interrupted source then fault events else some source

/-- What follows directly behind a number of bytes. -/
def after : Nat → List Event → List Event
  | 0, events => events
  | _ + 1, [] => []
  | n + 1, .byte _ _ :: events => after n events
  | n + 1, .error _ :: events => after (n + 1) events

/-- The events that deliver bytes at once. -/
def at_once (bytes : List UInt8) : List Event := bytes.map (.byte · false)

@[simp] theorem delivered_at_once (bytes : List UInt8) : delivered (at_once bytes) = bytes := by
  induction bytes with
  | nil => rfl
  | cons byte bytes ih => exact congrArg (byte :: ·) ih

@[simp] theorem fault_at_once (bytes : List UInt8) : fault (at_once bytes) = none := by
  induction bytes with
  | nil => rfl
  | cons byte bytes ih => exact ih

theorem after_after (m : Nat) (events : List Event) : ∀ n, after m (after n events) = after (n + m) events := by
  induction events with
  | nil =>
    intro n
    cases n <;> cases m <;> simp [after]
  | cons event events ih =>
    intro n
    cases n with
    | zero => rw [Nat.zero_add, after]
    | succ n =>
      have hsucc : n + 1 + m = n + m + 1 := by omega
      cases event with
      | byte value ends => rw [after, hsucc, after, ih]
      | error source => rw [after, ih, hsucc, after]

theorem after_at_once (n : Nat) (bytes : List UInt8) : after n (at_once bytes) = at_once (bytes.drop n) := by
  induction bytes generalizing n with
  | nil => cases n <;> simp [at_once, after]
  | cons byte bytes ih =>
    cases n with
    | zero => simp [after]
    | succ n => simpa [at_once, after] using ih n

/-- Events behind bytes that come at once. -/
theorem at_once_append (bytes : List UInt8) (events : List Event) :
    delivered (at_once bytes ++ events) = bytes ++ delivered events ∧ fault (at_once bytes ++ events) = fault events ∧
      after bytes.length (at_once bytes ++ events) = events := by
  induction bytes with
  | nil => exact ⟨rfl, rfl, by simp [at_once, after]⟩
  | cons byte bytes ih =>
    obtain ⟨hdelivered, hfault, hafter⟩ := ih
    exact ⟨congrArg (byte :: ·) hdelivered, hfault, hafter⟩

/-- Behind bytes that are delivered come the bytes and the fault that are left. -/
theorem after_delivered {n : Nat} {events : List Event} (h : n ≤ (delivered events).length) :
    delivered (after n events) = (delivered events).drop n ∧ fault (after n events) = fault events := by
  induction events generalizing n with
  | nil => cases n <;> simp [after, delivered]
  | cons event events ih =>
    cases n with
    | zero => simp [after]
    | succ n =>
      cases event with
      | byte value ends =>
        rw [delivered, List.length_cons] at h
        simpa [after, delivered, fault] using ih (by omega)
      | error source =>
        by_cases hsource : is_interrupted source = true
        · simp only [delivered, if_pos hsource] at h
          simpa [after, delivered, fault, hsource] using ih h
        · simp [delivered, hsource] at h

theorem length_after_le (n : Nat) (events : List Event) : (after n events).length ≤ events.length := by
  fun_induction after n events with
  | case1 => exact Nat.le_refl _
  | case2 => exact Nat.le_refl _
  | case3 n value ends events ih => exact Nat.le_succ_of_le ih
  | case4 n source events ih => exact Nat.le_succ_of_le ih

theorem length_after_lt {n : Nat} {events : List Event} (h : n + 1 ≤ (delivered events).length) :
    (after (n + 1) events).length < events.length := by
  cases events with
  | nil => cases h
  | cons event events =>
    cases event with
    | byte value ends => exact Nat.lt_succ_of_le (length_after_le n events)
    | error source => exact Nat.lt_succ_of_le (length_after_le (n + 1) events)

/-- Takes bytes up to a number, or up to the end of the delivery. -/
def front : Nat → List Event → List UInt8 × List Event
  | n + 1, .byte value ends :: events =>
    if ends then ([value], events) else ((value :: (front n events).1), (front n events).2)
  | _, events => ([], events)

theorem front_rest (n : Nat) (events : List Event) : (front n events).2 = after (front n events).1.length events := by
  fun_induction front n events with
  | case1 n value events => simp [after]
  | case2 n value ends events hends ih => rwa [List.length_cons, after]
  | case3 => simp [after]

theorem front_delivered (n : Nat) (events : List Event) :
    delivered events = (front n events).1 ++ delivered (front n events).2 := by
  fun_induction front n events with
  | case1 n value events => rfl
  | case2 n value ends events hends ih => rw [delivered, List.cons_append, ← ih]
  | case3 => rfl

theorem length_front_le (n : Nat) (events : List Event) : (front n events).1.length ≤ n := by
  fun_induction front n events with
  | case1 n value events => simp
  | case2 n value ends events hends ih => simpa using ih
  | case3 => exact Nat.zero_le _

theorem length_front_rest (n : Nat) (events : List Event) :
    (front n events).2.length + (front n events).1.length = events.length := by
  fun_induction front n events with
  | case1 n value events => rfl
  | case2 n value ends events hends ih =>
    simp only [List.length_cons]
    omega
  | case3 => rfl

/-- Why a source delivers no more. -/
inductive Stop where
  | ended
  | failed (source : IoError)
deriving DecidableEq

def Stop.error : Stop → IoError
  | .ended => unexpected_eof
  | .failed source => source

/-- A source of bytes, and what its callers have asked for and were told. -/
structure Reader where
  events : List Event
  /-- The number of bytes delivered so far. -/
  position : Nat := 0
  /-- How far the bytes reach that were asked for. -/
  asked : Nat := 0
  /-- The first answer that was no bytes and no interruption. -/
  stopped : Option Stop := none

namespace Reader

/-- `Read::read` with a buffer of `capacity` bytes. -/
def read (self : Reader) (capacity : Nat) : Except IoError (List UInt8) × Reader :=
  let asked := max self.asked (self.position + capacity)
  match self.events with
  | [] => (.ok [], { self with asked, stopped := self.stopped.or (some .ended) })
  | .error source :: events =>
    let stopped := if is_interrupted source then self.stopped else self.stopped.or (some (.failed source))
    (.error source, { self with events, asked, stopped })
  | .byte value ends :: events =>
    let (bytes, events) := front capacity (.byte value ends :: events)
    (.ok bytes, { self with events, asked, position := self.position + bytes.length })

/-- A read that may be repeated leaves fewer events. -/
theorem read_shrinks {self next : Reader} {capacity : Nat} {result : Except IoError (List UInt8)}
    (h : self.read capacity = (result, next)) :
    (∀ source, result = .error source → next.events.length < self.events.length) ∧
      ∀ bytes, result = .ok bytes → next.events.length + bytes.length = self.events.length := by
  unfold read at h
  split at h
  · next hevents =>
    cases h
    simp [hevents]
  · next source events hevents =>
    cases h
    simp [hevents]
  · next value ends events hevents =>
    have hlength := length_front_rest capacity (.byte value ends :: events)
    cases h
    simpa [hevents] using hlength

/-- The loop of `Read::read_exact`, with what it has filled already. -/
def fill (self : Reader) (missing : Nat) (filled : List UInt8) : Except IoError (List UInt8) × Reader :=
  if missing = 0 then (.ok filled, self)
  else
    match _read : self.read missing with
    | (.ok [], self) => (.error unexpected_eof, self)
    | (.ok (byte :: bytes), self) => self.fill (missing - (byte :: bytes).length) (filled ++ byte :: bytes)
    | (.error source, self) => if is_interrupted source then self.fill missing filled else (.error source, self)
termination_by self.events.length
decreasing_by
  · have h := (read_shrinks _read).2 _ rfl
    rw [List.length_cons] at h
    omega
  · exact (read_shrinks _read).1 _ rfl

/-- `Read::read_exact`. -/
def read_exact (self : Reader) (length : Nat) : Except IoError (List UInt8) × Reader := self.fill length []

/-- The loop of `Read::read_to_end` behind `Read::take`, with room for `room` bytes more. -/
def drain (self : Reader) (room : Nat) (filled : List UInt8) : Except IoError (List UInt8) × Reader :=
  if room = 0 then (.ok filled, self)
  else
    match _read : self.read room with
    | (.ok [], self) => (.ok filled, self)
    | (.ok (byte :: bytes), self) => self.drain (room - (byte :: bytes).length) (filled ++ byte :: bytes)
    | (.error source, self) => if is_interrupted source then self.drain room filled else (.error source, self)
termination_by self.events.length
decreasing_by
  · have h := (read_shrinks _read).2 _ rfl
    rw [List.length_cons] at h
    omega
  · exact (read_shrinks _read).1 _ rfl

/-- `Read::take` and `Read::read_to_end`. -/
def read_to_end (self : Reader) (limit : Nat) : Except IoError (List UInt8) × Reader := self.drain limit []

end Reader

end streams
