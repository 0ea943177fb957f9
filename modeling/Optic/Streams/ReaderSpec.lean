import Optic.Streams.Reader

open rust

namespace streams

/-- Why a source delivers no more behind its bytes. -/
def stop_of (events : List Event) : Stop := (fault events).elim .ended .failed

namespace Reader

variable {self next : Reader} {capacity : Nat}

/-- A read that delivers nothing is at the end. -/
theorem read_nil (hcapacity : 0 < capacity) (h : self.read capacity = (.ok [], next)) :
    self.events = [] ∧ next.events = [] ∧ next.position = self.position ∧
      next.asked = max self.asked (self.position + capacity) ∧ next.stopped = self.stopped.or (some .ended) := by
  unfold read at h
  split at h
  · next hevents =>
    cases h
    simp [hevents]
  · cases h
  · next value ends events hevents =>
    obtain ⟨n, rfl⟩ := Nat.exists_eq_add_one_of_ne_zero (Nat.ne_of_gt hcapacity)
    cases ends <;> simp [front] at h

/-- A read delivers bytes from the front. -/
theorem read_bytes {byte : UInt8} {bytes : List UInt8} (h : self.read capacity = (.ok (byte :: bytes), next)) :
    delivered self.events = byte :: bytes ++ delivered next.events ∧ (byte :: bytes).length ≤ capacity ∧
      next.events = after (byte :: bytes).length self.events ∧ next.position = self.position + (byte :: bytes).length ∧
      next.asked = max self.asked (self.position + capacity) ∧ next.stopped = self.stopped := by
  unfold read at h
  split at h
  · cases h
  · cases h
  · next value ends events hevents =>
    rw [hevents]
    have hdelivered := front_delivered capacity (.byte value ends :: events)
    have hlength := length_front_le capacity (.byte value ends :: events)
    have hrest := front_rest capacity (.byte value ends :: events)
    rw [Prod.mk.injEq, Except.ok.injEq] at h
    obtain ⟨hbytes, rfl⟩ := h
    rw [hbytes] at hdelivered hlength hrest
    exact ⟨hdelivered, hlength, hrest, congrArg (self.position + ·) (congrArg List.length hbytes), rfl, rfl⟩

theorem events_of_read_bytes {byte : UInt8} {bytes : List UInt8} (h : self.read capacity = (.ok (byte :: bytes), next)) :
    ∃ value ends events, self.events = .byte value ends :: events := by
  unfold read at h
  split at h
  · cases h
  · cases h
  · next value ends events hevents => exact ⟨value, ends, events, hevents⟩

/-- A read that reports an error takes it off the front. -/
theorem read_error {source : IoError} (h : self.read capacity = (.error source, next)) :
    self.events = .error source :: next.events ∧ next.position = self.position ∧
      next.asked = max self.asked (self.position + capacity) ∧
      next.stopped = if is_interrupted source then self.stopped else self.stopped.or (some (.failed source)) := by
  unfold read at h
  split at h
  · cases h
  · next source events hevents =>
    cases h
    exact ⟨hevents, rfl, rfl, rfl⟩
  · cases h

/-- A reader has passed on bytes, and asked for none behind them. -/
structure Passed (start next : Reader) (length : Nat) : Prop where
  events : next.events = after length start.events
  position : next.position = start.position + length
  asked : next.asked ≤ max start.asked (start.position + length)
  stopped : next.stopped = start.stopped

/-- A reader was asked for more bytes than it delivers. -/
structure Stopped (start next : Reader) (length : Nat) : Prop where
  asked : next.asked ≤ max start.asked (start.position + length)
  stopped : next.stopped = start.stopped.or (some (stop_of start.events))

/-- What is there is read exactly. -/
theorem fill_passed {missing : Nat} {filled : List UInt8} (h : missing ≤ (delivered self.events).length) :
    ∃ next, self.fill missing filled = (.ok (filled ++ (delivered self.events).take missing), next) ∧
      Passed self next missing := by
  fun_induction fill self missing filled with
  | case1 self filled =>
    refine ⟨self, by simp, ?_, rfl, Nat.le_max_left _ _, rfl⟩
    simp [after]
  | case2 self missing filled hmissing next hread =>
    obtain ⟨hevents, -⟩ := read_nil (Nat.pos_of_ne_zero hmissing) hread
    rw [hevents, delivered, List.length_nil] at h
    omega
  | case3 self missing filled hmissing byte bytes next hread ih =>
    obtain ⟨hdelivered, hlength, hevents, hposition, hasked, hstopped⟩ := read_bytes hread
    rw [hdelivered] at h
    simp only [List.length_append] at h
    obtain ⟨last, hfill, hpassed⟩ := ih (by omega)
    refine ⟨last, ?_, ?_, ?_, ?_, hpassed.stopped.trans hstopped⟩
    · rw [hfill, hdelivered, List.append_assoc, List.take_append, List.take_of_length_le hlength]
    · rw [hpassed.events, hevents, after_after, Nat.add_sub_cancel' hlength]
    · rw [hpassed.position, hposition]
      omega
    · have := hpassed.asked
      omega
  | case4 self missing filled hmissing source next hread hsource ih =>
    obtain ⟨hevents, hposition, hasked, hstopped⟩ := read_error hread
    rw [if_pos hsource] at hstopped
    have hdelivered : delivered self.events = delivered next.events := by rw [hevents, delivered, if_pos hsource]
    rw [hdelivered] at h ⊢
    obtain ⟨last, hfill, hpassed⟩ := ih h
    obtain ⟨n, rfl⟩ := Nat.exists_eq_add_one_of_ne_zero hmissing
    refine ⟨last, hfill, ?_, hpassed.position.trans (by rw [hposition]), ?_, hpassed.stopped.trans hstopped⟩
    · rw [hpassed.events, hevents, after]
    · have := hpassed.asked
      omega
  | case5 self missing filled hmissing source next hread hsource =>
    obtain ⟨hevents, -⟩ := read_error hread
    rw [hevents, delivered, if_neg hsource, List.length_nil] at h
    omega

/-- What is not there fails with the fault of the source, or for its end. -/
theorem fill_stopped {missing : Nat} {filled : List UInt8} (h : (delivered self.events).length < missing) :
    ∃ next, self.fill missing filled = (.error (stop_of self.events).error, next) ∧ Stopped self next missing := by
  fun_induction fill self missing filled with
  | case1 self filled => omega
  | case2 self missing filled hmissing next hread =>
    obtain ⟨hevents, -, -, hasked, hstopped⟩ := read_nil (Nat.pos_of_ne_zero hmissing) hread
    rw [hevents]
    exact ⟨next, rfl, Nat.le_of_eq hasked, by rw [hstopped, hevents]; rfl⟩
  | case3 self missing filled hmissing byte bytes next hread ih =>
    obtain ⟨hdelivered, hlength, hevents, hposition, hasked, hstopped⟩ := read_bytes hread
    have hle : (byte :: bytes).length ≤ (delivered self.events).length := by
      rw [hdelivered, List.length_append]
      omega
    rw [hdelivered] at h
    simp only [List.length_append] at h
    obtain ⟨last, hfill, hlast⟩ := ih (by omega)
    have hstop : stop_of next.events = stop_of self.events := by
      rw [stop_of, hevents, (after_delivered hle).2]
      rfl
    refine ⟨last, by rw [hfill, hstop], ?_, by rw [hlast.stopped, hstop, hstopped]⟩
    have := hlast.asked
    omega
  | case4 self missing filled hmissing source next hread hsource ih =>
    obtain ⟨hevents, hposition, hasked, hstopped⟩ := read_error hread
    rw [if_pos hsource] at hstopped
    rw [hevents, delivered, if_pos hsource] at h
    obtain ⟨last, hfill, hlast⟩ := ih h
    have hstop : stop_of self.events = stop_of next.events := by rw [stop_of, hevents, fault, if_pos hsource, stop_of]
    refine ⟨last, by rw [hfill, hstop], ?_, by rw [hlast.stopped, hstop, hstopped]⟩
    have := hlast.asked
    omega
  | case5 self missing filled hmissing source next hread hsource =>
    obtain ⟨hevents, -, hasked, hstopped⟩ := read_error hread
    rw [if_neg hsource] at hstopped
    have hstop : stop_of self.events = .failed source := by rw [stop_of, hevents, fault, if_neg hsource, Option.elim_some]
    rw [hstop]
    exact ⟨next, rfl, Nat.le_of_eq hasked, by rw [hstopped, hstop]⟩

theorem read_exact_passed {length : Nat} (h : length ≤ (delivered self.events).length) :
    ∃ next, self.read_exact length = (.ok ((delivered self.events).take length), next) ∧ Passed self next length :=
  fill_passed h

theorem read_exact_stopped {length : Nat} (h : (delivered self.events).length < length) :
    ∃ next, self.read_exact length = (.error (stop_of self.events).error, next) ∧ Stopped self next length :=
  fill_stopped h

theorem read_exact_ok {length : Nat} {bytes : List UInt8} (h : self.read_exact length = (.ok bytes, next)) :
    length ≤ (delivered self.events).length ∧ bytes = (delivered self.events).take length ∧ Passed self next length := by
  by_cases hlength : length ≤ (delivered self.events).length
  · obtain ⟨last, hread, hpassed⟩ := read_exact_passed hlength
    rw [hread, Prod.mk.injEq, Except.ok.injEq] at h
    obtain ⟨rfl, rfl⟩ := h
    exact ⟨hlength, rfl, hpassed⟩
  · obtain ⟨last, hread, -⟩ := read_exact_stopped (Nat.lt_of_not_le hlength)
    rw [hread] at h
    cases h

/-- What is read up to the end is what is there, unless the source fails. -/
theorem drain_spec {room : Nat} {filled : List UInt8} :
    ∃ next, (self.drain room filled).2 = next ∧ next.position ≤ self.position + room ∧
      next.asked ≤ max self.asked (self.position + room) ∧
      (self.drain room filled).1 =
        if room ≤ (delivered self.events).length then .ok (filled ++ (delivered self.events).take room)
        else
          match fault self.events with
          | none => .ok (filled ++ delivered self.events)
          | some source => .error source := by
  fun_induction drain self room filled with
  | case1 self filled => exact ⟨self, rfl, Nat.le_refl _, Nat.le_max_left _ _, by simp⟩
  | case2 self room filled hroom next hread =>
    obtain ⟨hevents, -, hposition, hasked, -⟩ := read_nil (Nat.pos_of_ne_zero hroom) hread
    refine ⟨next, rfl, by omega, Nat.le_of_eq hasked, ?_⟩
    simp [hevents, delivered, fault, hroom]
  | case3 self room filled hroom byte bytes next hread ih =>
    obtain ⟨hdelivered, hlength, hevents, hposition, hasked, -⟩ := read_bytes hread
    obtain ⟨last, hlast, hlastposition, hlastasked, hresult⟩ := ih
    have hle : (byte :: bytes).length ≤ (delivered self.events).length := by
      rw [hdelivered, List.length_append]
      omega
    have hfault : fault next.events = fault self.events := by rw [hevents, (after_delivered hle).2]
    refine ⟨last, hlast, by omega, by omega, ?_⟩
    rw [hresult, hfault, hdelivered, List.length_append, List.take_append, List.take_of_length_le hlength,
      ← List.append_assoc, ← List.append_assoc]
    by_cases hmore : room - (byte :: bytes).length ≤ (delivered next.events).length
    · rw [if_pos hmore, if_pos (by omega)]
    · rw [if_neg hmore, if_neg (by omega)]
  | case4 self room filled hroom source next hread hsource ih =>
    obtain ⟨hevents, hposition, hasked, -⟩ := read_error hread
    obtain ⟨last, hlast, hlastposition, hlastasked, hresult⟩ := ih
    refine ⟨last, hlast, by omega, by omega, ?_⟩
    rw [hresult, hevents]
    simp [delivered, fault, hsource]
  | case5 self room filled hroom source next hread hsource =>
    obtain ⟨hevents, hposition, hasked, -⟩ := read_error hread
    refine ⟨next, rfl, by omega, Nat.le_of_eq hasked, ?_⟩
    rw [hevents]
    simp [delivered, fault, hsource, hroom]

theorem read_to_end_spec (self : Reader) (limit : Nat) :
    ∃ next, next.position ≤ self.position + limit ∧ next.asked ≤ max self.asked (self.position + limit) ∧
      self.read_to_end limit = (if limit ≤ (delivered self.events).length then .ok ((delivered self.events).take limit)
        else
          match fault self.events with
          | none => .ok (delivered self.events)
          | some source => .error source, next) := by
  obtain ⟨next, hnext, hposition, hasked, hresult⟩ := drain_spec
  exact ⟨next, hposition, hasked, Prod.ext hresult hnext⟩

end Reader

end streams
