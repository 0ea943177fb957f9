import Optic.LlvmIndex.Index
import Optic.LlvmIndex.Unbounded

open byte_scan rust optic.records

namespace optic.llvm_index

/-- A stream that marks, in place of an error, that a byte is over the budget of a header. -/
structure Marked where
  stream : Stream
  exceeded : Bool

namespace Marked

def peek (self : Marked) : Except Error (Option UInt8 × Marked) := do
  let (byte, stream) ← self.stream.peek
  return (byte, { self with stream })

def take (self : Marked) : Except Error (Option UInt8 × Marked) := do
  match ← self.stream.peek with
  | (none, stream) => return (none, { self with stream })
  | (some byte, stream) =>
    let offset ← charge stream.offset none
    return (some byte, {
      stream := { stream with offset, position := stream.position + 1 }
      exceeded := self.exceeded || stream.header_start.any (fun start => stream.offset - start = HEADER_LIMIT) })

end Marked

instance : ByteSource Marked Error where
  peek := Marked.peek
  take := Marked.take
  offset self := self.stream.offset
  active self := self.stream.header_start.isSome
  budget header_start self := { self with stream := { self.stream with header_start } }
  remaining self := ByteSource.remaining self.stream

namespace Marked

theorem peek_eq_ok {m m' : Marked} {byte : Option UInt8} (h : m.peek = .ok (byte, m')) :
    m.stream.peek = .ok (byte, m'.stream) ∧ m'.exceeded = m.exceeded := by
  obtain ⟨⟨peeked, stream⟩, hpeek, h⟩ := bind_eq_ok_iff.mp h
  cases h
  exact ⟨hpeek, rfl⟩

theorem take_eq_ok {m m' : Marked} {byte : Option UInt8} (h : m.take = .ok (byte, m')) :
    m'.stream.header_start = m.stream.header_start ∧
      (byte = none ∧ m'.stream.offset = m.stream.offset ∧ m'.exceeded = m.exceeded ∨
        m'.stream.offset = m.stream.offset + 1 ∧ m'.exceeded = (m.exceeded ||
          m.stream.header_start.any fun start => m.stream.offset - start = HEADER_LIMIT)) := by
  obtain ⟨⟨peeked, stream⟩, hpeek, h⟩ := bind_eq_ok_iff.mp h
  obtain ⟨hoffset, hheader⟩ := Stream.peek_keeps hpeek
  cases peeked with
  | none =>
    cases h
    exact ⟨hheader, Or.inl ⟨rfl, hoffset, rfl⟩⟩
  | some found =>
    obtain ⟨offset, hcharge, h⟩ := bind_eq_ok_iff.mp h
    cases h
    refine ⟨hheader, Or.inr ⟨by rw [(charge_ok hcharge).1, hoffset], ?_⟩⟩
    simp only [hheader, hoffset]

/-- Marks are no part of what a scan reads. -/
theorem simulates : Simulates (fun _ => False) (fun _ => False) fun (u : Unbounded) (m : Marked) =>
    m.stream = u.stream where
  peek u m h := by
    change Matches _ _ _ (Unbounded.peek u) (Marked.peek m)
    unfold Unbounded.peek Marked.peek
    rw [h]
    cases u.stream.peek with
    | error error => exact Or.inr rfl
    | ok pair => exact Or.inr ⟨_, rfl, rfl⟩
  take u m h := by
    change Matches _ _ _ (Unbounded.take u) (Marked.take m)
    unfold Unbounded.take Marked.take
    rw [h]
    cases u.stream.peek with
    | error error => exact Or.inr rfl
    | ok pair =>
      obtain ⟨byte, stream⟩ := pair
      cases byte with
      | none => exact Or.inr ⟨_, rfl, rfl⟩
      | some byte =>
        simp only [ok_bind]
        cases charge stream.offset none with
        | error error => exact Or.inr rfl
        | ok offset => exact Or.inr ⟨_, rfl, rfl⟩
  offset u m h := congrArg Stream.offset h
  active u m h := congrArg (fun stream : Stream => stream.header_start.isSome) h
  budget u m start h := congrArg (fun stream : Stream => { stream with header_start := start }) h
  remaining u m u' m' h h' hless := by
    change ByteSource.remaining u'.stream < ByteSource.remaining u.stream at hless
    change ByteSource.remaining m'.stream < ByteSource.remaining m.stream
    rwa [h, h']
  stable := ⟨fun _ _ _ h => h.elim, fun _ _ _ h => h.elim, fun _ _ h => h.elim⟩
  escaped _ _ h := h.elim

/-- The error for a header that is over its budget. -/
def OverBudget (error : Error) : Prop :=
  ∃ offset, error = .invalid offset "LLVM header exceeds the 1 MiB budget"

theorem charge_eq (offset : Nat) (header_start : Option Nat) : charge offset header_start =
    if header_start.any (fun start => offset - start = HEADER_LIMIT) then
      .error (.invalid offset "LLVM header exceeds the 1 MiB budget")
    else charge offset none := by
  unfold charge
  split <;> simp

/-- A stream reads what the marked one reads, until that is marked. -/
theorem simulates_stream : Simulates (fun _ => True) (fun m : Marked => m.exceeded = true) fun (m : Marked) (s : Stream) =>
    m.stream = s ∧ m.exceeded = false where
  peek m s h := by
    change Matches _ _ _ (Marked.peek m) (Stream.peek s)
    obtain ⟨rfl, hexceeded⟩ := h
    unfold Marked.peek
    cases m.stream.peek with
    | error error => exact Or.inr rfl
    | ok pair => exact Or.inr ⟨_, rfl, rfl, hexceeded⟩
  take m s h := by
    change Matches _ _ _ (Marked.take m) (Stream.take s)
    obtain ⟨rfl, hexceeded⟩ := h
    unfold Marked.take Stream.take
    cases m.stream.peek with
    | error error => exact Or.inr rfl
    | ok pair =>
      obtain ⟨byte, stream⟩ := pair
      cases byte with
      | none => exact Or.inr ⟨_, rfl, rfl, hexceeded⟩
      | some byte =>
        simp only [ok_bind]
        rw [charge_eq stream.offset stream.header_start]
        cases hcharge : charge stream.offset none with
        | error error => exact Or.inl trivial
        | ok offset =>
          by_cases hfull : stream.header_start.any (fun start => stream.offset - start = HEADER_LIMIT) = true
          · exact Or.inl (by simp [hfull])
          · rw [if_neg hfull]
            exact Or.inr ⟨_, rfl, rfl, by simpa [hexceeded] using hfull⟩
  offset m s h := by rw [← h.1]; rfl
  active m s h := by rw [← h.1]; rfl
  budget m s start h := ⟨congrArg (fun stream : Stream => { stream with header_start := start }) h.1, h.2⟩
  remaining m s m' s' h h' hless := by
    rw [← h.1, ← h'.1]
    exact hless
  stable := by
    refine ⟨fun m byte m' h hpeek => ?_, fun m byte m' h htake => ?_, fun _ _ h => h⟩
    · exact (peek_eq_ok hpeek).2.trans h
    · obtain ⟨-, ⟨-, -, hexceeded⟩ | ⟨-, hexceeded⟩⟩ := take_eq_ok htake <;> simp [hexceeded, h]
  escaped _ _ _ := trivial

/-- The marked stream reads what a stream reads, and has no mark, unless a header is over its budget. -/
theorem stream_simulates : Simulates OverBudget (fun _ => False) fun (s : Stream) (m : Marked) =>
    m.stream = s ∧ m.exceeded = false where
  peek s m h := by
    change Matches _ _ _ (Stream.peek s) (Marked.peek m)
    obtain ⟨rfl, hexceeded⟩ := h
    unfold Marked.peek
    cases m.stream.peek with
    | error error => exact Or.inr rfl
    | ok pair => exact Or.inr ⟨_, rfl, rfl, hexceeded⟩
  take s m h := by
    change Matches _ _ _ (Stream.take s) (Marked.take m)
    obtain ⟨rfl, hexceeded⟩ := h
    unfold Marked.take Stream.take
    cases m.stream.peek with
    | error error => exact Or.inr rfl
    | ok pair =>
      obtain ⟨byte, stream⟩ := pair
      cases byte with
      | none => exact Or.inr ⟨_, rfl, rfl, hexceeded⟩
      | some byte =>
        simp only [ok_bind]
        rw [charge_eq stream.offset stream.header_start]
        by_cases hfull : stream.header_start.any (fun start => stream.offset - start = HEADER_LIMIT) = true
        · rw [if_pos hfull]
          exact Or.inl ⟨_, rfl⟩
        · rw [if_neg hfull]
          cases charge stream.offset none with
          | error error => exact Or.inr rfl
          | ok offset => exact Or.inr ⟨_, rfl, rfl, by simpa [hexceeded] using hfull⟩
  offset s m h := by rw [← h.1]; rfl
  active s m h := by rw [← h.1]; rfl
  budget s m start h := ⟨congrArg (fun stream : Stream => { stream with header_start := start }) h.1, h.2⟩
  remaining s m s' m' h h' hless := by
    rw [← h.1, ← h'.1] at hless
    exact hless
  stable := ⟨fun _ _ _ h => h.elim, fun _ _ _ h => h.elim, fun _ _ h => h.elim⟩
  escaped _ _ h := h.elim

/-- No header is open, so that nothing is marked. -/
structure Idle (exceeded : Bool) (m : Marked) : Prop where
  header_start : m.stream.header_start = none
  exceeded : m.exceeded = exceeded

/-- A header is open, and the mark tells whether it is over its budget already. -/
structure Counts (start : Nat) (exceeded : Bool) (m : Marked) : Prop where
  header_start : m.stream.header_start = some start
  start_le : start ≤ m.stream.offset
  exceeded : m.exceeded = (exceeded || decide (start + HEADER_LIMIT < m.stream.offset))

variable {start : Nat} {exceeded : Bool}

theorem Idle.keeps (exceeded : Bool) : Keeps (· = none) (Idle exceeded) where
  peek m byte m' h hpeek := by
    obtain ⟨hread, hexceeded⟩ := peek_eq_ok hpeek
    exact ⟨(Stream.peek_keeps hread).2.trans h.header_start, hexceeded.trans h.exceeded⟩
  take m byte m' h htake := by
    obtain ⟨hheader, ⟨-, -, hexceeded⟩ | ⟨-, hexceeded⟩⟩ := take_eq_ok htake
    · exact ⟨hheader.trans h.header_start, hexceeded.trans h.exceeded⟩
    · rw [h.header_start, Option.any_none, Bool.or_false] at hexceeded
      exact ⟨hheader.trans h.header_start, hexceeded.trans h.exceeded⟩
  budget m header_start hnone h := ⟨hnone, h.exceeded⟩

theorem Counts.keeps (start : Nat) (exceeded : Bool) : Keeps (fun _ => False) (Counts start exceeded) where
  peek m byte m' h hpeek := by
    obtain ⟨hread, hexceeded⟩ := peek_eq_ok hpeek
    obtain ⟨hoffset, hheader⟩ := Stream.peek_keeps hread
    exact ⟨hheader.trans h.header_start, hoffset ▸ h.start_le, by rw [hexceeded, h.exceeded, hoffset]⟩
  take m byte m' h htake := by
    obtain ⟨hheader, ⟨-, hoffset, hexceeded⟩ | ⟨hoffset, hexceeded⟩⟩ := take_eq_ok htake
    · exact ⟨hheader.trans h.header_start, hoffset ▸ h.start_le, by rw [hexceeded, h.exceeded, hoffset]⟩
    · have hle := h.start_le
      refine ⟨hheader.trans h.header_start, by omega, ?_⟩
      rw [hexceeded, h.exceeded, h.header_start, hoffset, Option.any_some, Bool.or_assoc, ← Bool.decide_or]
      congr 2
      apply propext
      omega
  budget _ _ h := h.elim

variable {u u' : Unbounded} {m : Marked}

/-- A run that opens no header goes the same way, without a mark. -/
theorem Idle.run (h : Idle exceeded m) (hm : m.stream = u.stream) {α : Type} {p : Program α} {a : α} (hp : Calm p)
    (hrun : p.run u = .ok (a, u')) : ∃ m', p.run m = .ok (a, m') ∧ m'.stream = u'.stream ∧ Idle exceeded m' := by
  have hmatch := simulates.run p u m hm
  rw [hrun] at hmatch
  obtain ⟨m', hrun', hm'⟩ := hmatch.resolve_left id
  exact ⟨m', hrun', hm', (hp.throughout (keeps exceeded) h).final hrun'⟩

/-- A run within a header goes the same way, and the mark keeps count. -/
theorem Counts.run (h : Counts start exceeded m) (hm : m.stream = u.stream) {α : Type} {p : Program α} {a : α}
    (hp : Budgets (fun _ => False) p) (hrun : p.run u = .ok (a, u')) :
    ∃ m', p.run m = .ok (a, m') ∧ m'.stream = u'.stream ∧ Counts start exceeded m' := by
  have hmatch := simulates.run p u m hm
  rw [hrun] at hmatch
  obtain ⟨m', hrun', hm'⟩ := hmatch.resolve_left id
  exact ⟨m', hrun', hm', (hp.throughout (keeps start exceeded) h).final hrun'⟩

theorem Idle.begin_header (h : Idle exceeded m) (hle : start ≤ m.stream.offset) (hfits : m.stream.offset ≤ start + HEADER_LIMIT) :
    Counts start exceeded (ByteSource.budget (some start) m) := by
  have hnot : ¬ start + HEADER_LIMIT < m.stream.offset := by omega
  refine ⟨rfl, hle, h.exceeded.trans ?_⟩
  change exceeded = (exceeded || decide (start + HEADER_LIMIT < m.stream.offset))
  rw [decide_eq_false hnot, Bool.or_false]

theorem Counts.end_header (h : Counts start exceeded m) :
    Idle (exceeded || decide (start + HEADER_LIMIT < m.stream.offset)) (ByteSource.budget none m) := ⟨rfl, h.exceeded⟩

theorem run_peek_ok {m m' : Marked} {byte : Option UInt8} (h : stream.peek.run m = .ok (byte, m')) : m.peek = .ok (byte, m') := by
  simp only [stream.peek, Scan.run] at h
  split at h
  · next hpeek =>
    cases h
    exact hpeek
  · cases h

theorem run_take_ok {m m' : Marked} {byte : Option UInt8} (h : stream.take.run m = .ok (byte, m')) : m.take = .ok (byte, m') := by
  simp only [stream.take, Scan.run] at h
  split at h
  · next htake =>
    cases h
    exact htake
  · cases h

/-- A probe consumes no more bytes than it may. -/
theorem read_prefix_bytes_offset (count : Nat) : ∀ {m m' : Marked} {bytes : List UInt8},
    (read_prefix_bytes count).run m = .ok (bytes, m') →
      m.stream.offset ≤ m'.stream.offset ∧ m'.stream.offset ≤ m.stream.offset + count := by
  induction count with
  | zero =>
    intro m m' bytes h
    cases h
    exact ⟨Nat.le_refl _, Nat.le_refl _⟩
  | succ count ih =>
    intro m m' bytes h
    obtain ⟨byte, m1, htake, h⟩ := run_bind_eq_ok h
    obtain ⟨-, ⟨rfl, hoffset, -⟩ | ⟨hoffset, -⟩⟩ := take_eq_ok (run_take_ok htake)
    · cases h
      omega
    · cases byte with
      | none =>
        cases h
        omega
      | some byte =>
        by_cases hlf : byte = ascii '\n'
        · rw [run_ite_pos hlf] at h
          cases h
          omega
        · rw [run_ite_neg hlf] at h
          obtain ⟨rest, m2, hrest, h⟩ := run_bind_eq_ok h
          cases h
          have hle := ih hrest
          omega

theorem probe_offset {byte : UInt8} {m m' : Marked} {keyword : List UInt8} (h : (probe byte).run m = .ok (keyword, m')) :
    m.stream.offset ≤ m'.stream.offset ∧ m'.stream.offset ≤ m.stream.offset + HEADER_LIMIT := by
  have hlimit : 6 ≤ HEADER_LIMIT := by decide
  by_cases hd : byte = ascii 'd'
  · rw [probe, run_ite_pos hd] at h
    obtain ⟨bytes, m1, hread, h⟩ := run_bind_eq_ok h
    cases h
    have hle := read_prefix_bytes_offset 6 hread
    omega
  · rw [probe, run_ite_neg hd] at h
    cases h
    omega

theorem starts_function_offset {keyword : List UInt8} {starts : Bool} {m m' : Marked}
    (h : (starts_function keyword).run m = .ok (starts, m')) : m'.stream.offset = m.stream.offset := by
  by_cases hdefine : keyword = text "define"
  · rw [starts_function, run_ite_pos hdefine] at h
    obtain ⟨next, m1, hpeek, h⟩ := run_bind_eq_ok h
    cases h
    exact (Stream.peek_keeps (peek_eq_ok (run_peek_ok hpeek)).1).1
  · rw [starts_function, run_ite_neg hdefine] at h
    cases h
    rfl

theorem run_read_required_token_active {token : Token} {m m' : Marked} (h : stream.read_required_token.run m = .ok (token, m')) :
    m.stream.header_start.isSome := by
  obtain ⟨_, m1, h, -⟩ := run_bind_eq_ok h
  by_contra hinactive
  have hactive : stream.header_active.run m = .ok (false, m) := by
    rw [← Bool.eq_false_iff.mpr hinactive]
    rfl
  rw [stream.read_token, run_bind_ok hactive, run_ite_neg (by simp)] at h
  cases h

/-- The modifiers of a global leave its header open. -/
theorem Counts.modifiers (h : Counts start exceeded m) (hm : m.stream = u.stream) (hturns : Turns global_kind_turn () u () u')
    {token : Token} {u'' : Unbounded} (hkeyword : stream.read_required_token.run u' = .ok (token, u'')) :
    ∃ m' m'', Turns global_kind_turn () m () m' ∧ stream.read_required_token.run m' = .ok (token, m'') ∧
      m''.stream = u''.stream ∧ Counts start exceeded m'' := by
  obtain ⟨m', hturns', hm'⟩ := Turns.simulate simulates hturns hm
  have hmatch := simulates.run stream.read_required_token u' m' hm'
  rw [hkeyword] at hmatch
  obtain ⟨m'', hkeyword', hm''⟩ := hmatch.resolve_left id
  -- A turn that closed the header would have been the last one.
  have hopen : m'.stream.header_start = none ∨ Counts start exceeded m' := by
    refine hturns'.keeps (I := fun _ m => m.stream.header_start = none ∨ Counts start exceeded m) ?_ (Or.inr h)
    intro _ m _ m' hcounts hrun
    have hkeeps : Keeps (· = none) fun m : Marked => m.stream.header_start = none ∨ Counts start exceeded m := by
      refine ⟨fun m byte m' h hpeek => ?_, fun m byte m' h htake => ?_, fun m header_start hnone _ => Or.inl hnone⟩
      · refine h.imp (fun hnone => ?_) fun hcounts => (keeps start exceeded).peek m byte m' hcounts hpeek
        exact (Stream.peek_keeps (peek_eq_ok hpeek).1).2.trans hnone
      · refine h.imp (fun hnone => ?_) fun hcounts => (keeps start exceeded).take m byte m' hcounts htake
        exact (take_eq_ok htake).1.trans hnone
    exact (global_kind_turn_calm.throughout hkeeps hcounts).final hrun
  have hactive := run_read_required_token_active hkeyword'
  obtain hnone | hcounts := hopen
  · rw [hnone] at hactive
    cases hactive
  · exact ⟨m', m'', hturns', hkeyword', hm'', (stream.read_required_token_calm.throughout (keeps start exceeded) hcounts).final hkeyword'⟩

theorem Idle.global_front (h : Idle exceeded m) (hm : m.stream = u.stream) {symbol keyword : Token}
    (hfront : GlobalFront u symbol keyword u') :
    ∃ m', GlobalFront m symbol keyword m' ∧ m'.stream = u'.stream ∧ Counts u.stream.offset exceeded m' := by
  obtain ⟨hsymbol, hequals, hturns, hkeyword⟩ := hfront
  have hoffset : ByteSource.offset m = ByteSource.offset u := congrArg Stream.offset hm
  have hcounts : Counts u.stream.offset exceeded (ByteSource.budget (some (ByteSource.offset u)) m) :=
    h.begin_header (Nat.le_of_eq hoffset.symm) (by rw [hm]; exact Nat.le_add_right _ _)
  obtain ⟨m1, hsymbol, hm1, hcounts⟩ := hcounts.run (simulates.budget u m _ hm) stream.read_required_token_calm hsymbol
  obtain ⟨m2, hequals, hm2, hcounts⟩ := hcounts.run hm1 (stream.expect_calm _) hequals
  obtain ⟨m3, m4, hturns, hkeyword, hm4, hcounts⟩ := hcounts.modifiers hm2 hturns hkeyword
  rw [← hoffset] at hsymbol
  exact ⟨m4, ⟨hsymbol, hequals, hturns, hkeyword⟩, hm4, hcounts⟩

theorem Idle.function_front (h : Idle exceeded m) (hm : m.stream = u.stream) {symbol : String}
    (hle : start ≤ u.stream.offset) (hfits : u.stream.offset ≤ start + HEADER_LIMIT) (hfront : FunctionFront start u symbol u') :
    ∃ m', FunctionFront start m symbol m' ∧ m'.stream = u'.stream ∧ Counts start exceeded m' := by
  have hcounts : Counts start exceeded (ByteSource.budget (some start) m) :=
    h.begin_header (by rwa [hm]) (by rwa [hm])
  obtain ⟨m', hfront, hm', hcounts⟩ :=
    hcounts.run (simulates.budget u m _ hm) header.read_function_calm (functionFront_iff.mp hfront)
  exact ⟨m', functionFront_iff.mpr hfront, hm', hcounts⟩

/-- Behind a header, the mark tells whether it was over its budget. -/
theorem Counts.exceeded_eq (h : Counts u.stream.offset exceeded m) (hm : m.stream = u'.stream) :
    m.exceeded = (exceeded || (some (ByteSource.offset u' - ByteSource.offset u)).any fun span => HEADER_LIMIT < span) := by
  have hle := h.start_le
  rw [h.exceeded, hm, Option.any_some]
  congr 2
  apply propext
  change u.stream.offset + HEADER_LIMIT < u'.stream.offset ↔ HEADER_LIMIT < u'.stream.offset - u.stream.offset
  omega

/-- The mark of an item is that of its header. -/
theorem Idle.item (h : Idle exceeded m) (hm : m.stream = u.stream) {byte : UInt8} {definition : Option LlvmDefinitionRecord}
    {span : Option Nat} (hitem : Headed byte u definition u' span) :
    ∃ m', Headed byte m definition m' span ∧ m'.stream = u'.stream ∧
      Idle (exceeded || span.any fun span => HEADER_LIMIT < span) m' := by
  cases hitem with
  | whitespace hbyte htake =>
    obtain ⟨m', htake, hm', hidle⟩ := h.run hm stream.take_calm htake
    exact ⟨m', .whitespace hbyte htake, hm', by simpa using hidle⟩
  | unrelated hbyte hat hkeyword hstarts hline =>
    obtain ⟨m1, hkeyword, hm1, hidle⟩ := h.run hm (probe_calm byte) hkeyword
    obtain ⟨m2, hstarts, hm2, hidle⟩ := hidle.run hm1 (starts_function_calm _) hstarts
    obtain ⟨m3, hline, hm3, hidle⟩ := hidle.run hm2 (unrelated_rest_calm _) hline
    exact ⟨m3, .unrelated hbyte hat hkeyword hstarts hline, hm3, by simpa using hidle⟩
  | @global symbol keyword u1 u2 hat hfront hkeyword hline =>
    obtain ⟨m1, hfront, hm1, hcounts⟩ := h.global_front hm hfront
    have hidle : Idle m1.exceeded (ByteSource.budget none m1) := ⟨rfl, rfl⟩
    obtain ⟨m2, hline, hm2, hidle⟩ := hidle.run (simulates.budget u1 m1 none hm1) stream.skip_line_calm hline
    have hitem := Headed.global hat hfront hkeyword hline
    rw [show ByteSource.offset m1 = ByteSource.offset u1 from congrArg Stream.offset hm1,
      show ByteSource.offset m = ByteSource.offset u from congrArg Stream.offset hm] at hitem
    exact ⟨_, hitem, simulates.budget u2 m2 none hm2, rfl, hidle.exceeded.trans (hcounts.exceeded_eq hm1)⟩
  | @aliased symbol keyword name target kind record u1 u2 u3 hat hfront hkind htarget hname hfinish =>
    obtain ⟨m1, hfront, hm1, hcounts⟩ := h.global_front hm hfront
    obtain ⟨m2, htarget, hm2, hcounts⟩ := hcounts.run hm1 header.read_alias_target_calm htarget
    obtain ⟨m3, hfinish, hm3, -⟩ := hcounts.run hm2 (finish_definition_calm _ _ _) hfinish
    obtain rfl := finish_definition_stays hfinish
    rw [← show ByteSource.offset m = ByteSource.offset u from congrArg Stream.offset hm] at hfinish
    have hitem := Headed.aliased hat hfront hkind htarget hname hfinish
    rw [show ByteSource.offset m3 = ByteSource.offset u2 from congrArg Stream.offset hm2,
      show ByteSource.offset m = ByteSource.offset u from congrArg Stream.offset hm] at hitem
    exact ⟨_, hitem, simulates.budget u3 m3 none hm3, rfl, hcounts.exceeded_eq hm2⟩
  | @function symbol record u1 u2 u3 u4 u' hbyte hat hkeyword hstarts hfront hbody hfinish =>
    have hoffset : ByteSource.offset m = ByteSource.offset u := congrArg Stream.offset hm
    obtain ⟨m1, hkeyword, hm1, hidle⟩ := h.run hm (probe_calm byte) hkeyword
    obtain ⟨m2, hstarts, hm2, hidle⟩ := hidle.run hm1 (starts_function_calm _) hstarts
    obtain ⟨hle, hfits⟩ := probe_offset hkeyword
    rw [← starts_function_offset hstarts, hm, hm2] at hle hfits
    obtain ⟨m3, hfront, hm3, hcounts⟩ := hidle.function_front hm2 hle hfits hfront
    have hidle : Idle m3.exceeded (ByteSource.budget none m3) := ⟨rfl, rfl⟩
    obtain ⟨m4, hbody, hm4, hidle⟩ := hidle.run (simulates.budget u3 m3 none hm3) stream.skip_body_calm hbody
    obtain ⟨m5, hfinish, hm5, hidle⟩ := hidle.run hm4 (finish_definition_calm _ _ _) hfinish
    change FunctionFront (ByteSource.offset u) m2 symbol m3 at hfront
    rw [← hoffset] at hfront hfinish
    have hitem := Headed.function hbyte hat hkeyword hstarts hfront hbody hfinish
    rw [show ByteSource.offset m3 = ByteSource.offset u3 from congrArg Stream.offset hm3, hoffset] at hitem
    exact ⟨m5, hitem, hm5, hidle.header_start, hidle.exceeded.trans (hcounts.exceeded_eq hm3)⟩

/-- The mark of a scan tells whether any header is over its budget. -/
theorem Idle.headers {definitions : List LlvmDefinitionRecord} {spans : List Nat} (hheaders : Headers u definitions spans u') :
    ∀ {m : Marked} {exceeded : Bool}, Idle exceeded m → m.stream = u.stream →
      ∃ m', Headers m definitions spans m' ∧ m'.exceeded = (exceeded || spans.any fun span => HEADER_LIMIT < span) := by
  induction hheaders with
  | done hpeek =>
    intro m exceeded h hm
    obtain ⟨m', hpeek, hm', hidle⟩ := h.run hm stream.peek_calm hpeek
    exact ⟨m', .done hpeek, by simpa using hidle.exceeded⟩
  | @item byte definition span definitions spans u u1 u2 u' hpeek hitem hless hheaders ih =>
    intro m exceeded h hm
    obtain ⟨m1, hpeek, hm1, hidle⟩ := h.run hm stream.peek_calm hpeek
    obtain ⟨m2, hitem, hm2, hidle⟩ := hidle.item hm1 hitem
    obtain ⟨m', hheaders, hexceeded⟩ := ih hidle hm2
    refine ⟨m', .item hpeek hitem (simulates.remaining u m u2 m2 hm hm2 hless) hheaders, ?_⟩
    rw [hexceeded, List.any_append, Bool.or_assoc]
    cases span <;> simp

end Marked

theorem index_ne_stalled {reader : Reader} (hreader : reader.Delivers) : index reader ≠ .error .stalled := by
  have hspec := scan_spec (s := { rest := reader.bytes, failure := reader.failure }) [] rfl zero_lt_u64
  rw [index_eq_contiguous hreader, index_contiguous]
  intro hindex
  refine hspec.ne_stalled ?_
  change (scan.run _).map _ = _ at hindex
  change scan.run _ = _
  cases hrun : scan.run ({ rest := reader.bytes, failure := reader.failure } : Contiguous) with
  | ok pair =>
    rw [hrun] at hindex
    cases hindex
  | error fault =>
    rw [hrun] at hindex
    cases hindex
    rfl

/-- The header budget changes nothing except that it rejects headers that are too long. -/
theorem index_budget {reader : Reader} (hreader : reader.Delivers) {definitions : List LlvmDefinitionRecord}
    (hunbounded : index_unbounded reader = .ok definitions) :
    (∃ spans s', Headers ({ stream := Stream.new reader } : Unbounded) definitions spans s') ∧
    ∀ definitions' spans s', Headers ({ stream := Stream.new reader } : Unbounded) definitions' spans s' →
      ((∀ span ∈ spans, span ≤ HEADER_LIMIT) → index reader = .ok definitions) ∧
      ((∃ span ∈ spans, HEADER_LIMIT < span) →
        ∃ error, index reader = .error (.error error) ∧ error.kind = .InvalidData) := by
  obtain ⟨⟨found, u'⟩, hrun, hfound⟩ : ∃ pair, scan.run ({ stream := Stream.new reader } : Unbounded) = .ok pair ∧
      pair.1 = definitions := by
    unfold index_unbounded at hunbounded
    cases hrun : scan.run ({ stream := Stream.new reader } : Unbounded) with
    | error fault =>
      rw [hrun] at hunbounded
      cases hunbounded
    | ok pair =>
      rw [hrun] at hunbounded
      exact ⟨pair, rfl, Except.ok.inj hunbounded⟩
  obtain rfl := hfound
  refine ⟨?_, fun definitions' spans s' hheaders => ?_⟩
  · obtain ⟨more, spans, hmore, hheaders⟩ := headers_of_run hrun
    rw [List.nil_append] at hmore
    exact ⟨spans, u', hmore ▸ hheaders⟩
  have hsame := (hheaders.run []).symm.trans hrun
  obtain ⟨rfl, -⟩ := Prod.mk.inj (Except.ok.inj hsame)
  obtain ⟨m', hmarked, hexceeded⟩ := Marked.Idle.headers hheaders (m := { stream := Stream.new reader, exceeded := false }) ⟨rfl, rfl⟩ rfl
  have hrunMarked : scan.run ({ stream := Stream.new reader, exceeded := false } : Marked) = .ok (definitions', m') :=
    hmarked.run []
  rw [Bool.false_or] at hexceeded
  constructor
  · intro hfits
    have hclear : m'.exceeded = false := by
      rw [hexceeded, List.any_eq_false]
      intro span hspan
      have hle := hfits span hspan
      simpa using hle
    have hmatch := Marked.simulates_stream.run scan ({ stream := Stream.new reader, exceeded := false } : Marked)
      (Stream.new reader) ⟨rfl, rfl⟩
    rw [hrunMarked] at hmatch
    obtain hpast | ⟨s1, hs1, -⟩ := hmatch
    · rw [hclear] at hpast
      cases hpast
    · rw [index, hs1]
      rfl
  · rintro ⟨span, hspan, hlong⟩
    have hmark : m'.exceeded = true := by
      rw [hexceeded, List.any_eq_true]
      exact ⟨span, hspan, by simpa using hlong⟩
    have hmatch := Marked.stream_simulates.run scan (Stream.new reader)
      ({ stream := Stream.new reader, exceeded := false } : Marked) ⟨rfl, rfl⟩
    cases hindex : scan.run (Stream.new reader) with
    | ok pair =>
      rw [hindex, hrunMarked] at hmatch
      obtain ⟨m1, heq, -, hclear⟩ := hmatch.resolve_left id
      obtain ⟨-, rfl⟩ := Prod.mk.inj (Except.ok.inj heq)
      rw [hmark] at hclear
      cases hclear
    | error fault =>
      cases fault with
      | stalled => exact absurd (show index reader = .error .stalled by rw [index, hindex]; rfl) (index_ne_stalled hreader)
      | error error =>
        rw [hindex, hrunMarked] at hmatch
        obtain ⟨offset, rfl⟩ := hmatch.resolve_right (by simp)
        exact ⟨_, by rw [index, hindex]; rfl, rfl⟩

theorem index_budget_function : ∃ definitions, index [.data fixture.answer] = .ok definitions ∧
    definitions.map LlvmDefinitionRecord.raw_symbol = ["answer", "a"] := by
  have hdelivers : Reader.Delivers [.data fixture.answer] := by
    intro bytes hbytes
    obtain rfl : bytes = fixture.answer := by simpa using hbytes
    decide
  have hheaders : ∃ definitions spans s', Headers ({ stream := Stream.new [.data fixture.answer] } : Unbounded)
      definitions spans s' ∧ spans = [22, 31] := by
    refine ⟨_, _, _, Headers.item rfl (Headed.function (by decide) (by decide) rfl rfl
      (.mk rfl rfl rfl (.first _ _) rfl rfl) rfl rfl) ?_ (Headers.item rfl (Headed.whitespace rfl rfl) ?_
        (Headers.item rfl (Headed.aliased rfl (.mk rfl rfl (.first _ _) rfl) .direct rfl rfl rfl) ?_ (Headers.done rfl))), rfl⟩
    all_goals exact Nat.lt_of_sub_eq_succ rfl
  obtain ⟨_, _, s', hheaders, rfl⟩ := hheaders
  exact ⟨_, ((index_budget hdelivers rfl).2 _ [22, 31] _ hheaders).1 (by decide), rfl⟩

end optic.llvm_index
