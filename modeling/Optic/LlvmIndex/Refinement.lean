import Optic.ByteScan.Simulation
import Optic.LlvmIndex.Reader

open byte_scan rust optic.records

namespace optic.llvm_index

/-- A reader that fills a buffer with at least one byte, and only as many as fit,
unless it fails. -/
def Reader.Delivers (reader : Reader) : Prop :=
  ∀ bytes, .data bytes ∈ reader → bytes ≠ [] ∧ bytes.length ≤ CHUNK_SIZE

/-- Every error of the reader is an interruption. -/
def Reader.Interruptible (reader : Reader) : Prop :=
  ∀ error, .error error ∈ reader → error.kind = .Interrupted

theorem Reader.Delivers.tail {event : ReadEvent} {reader : Reader}
    (h : Reader.Delivers (event :: reader)) : reader.Delivers :=
  fun bytes hbytes => h bytes (List.mem_cons_of_mem _ hbytes)

theorem Reader.Interruptible.failure_eq_none {reader : Reader} (h : reader.Interruptible) :
    reader.failure = none := by
  induction reader with
  | nil => rfl
  | cons event rest ih =>
    have hrest := ih fun error herror => h error (List.mem_cons_of_mem _ herror)
    cases event with
    | data bytes => exact hrest
    | error error => simp [Reader.failure, h error List.mem_cons_self, hrest]

theorem Reader.slices_spec (bound : Nat) : ∀ bytes : List UInt8, bytes.length ≤ bound →
    (slices bound bytes).bytes = bytes ∧ (slices bound bytes).Delivers ∧ (slices bound bytes).Interruptible := by
  induction bound with
  | zero =>
    intro bytes hbytes
    obtain rfl := List.eq_nil_of_length_eq_zero (Nat.le_zero.mp hbytes)
    exact ⟨rfl, by simp [slices, Delivers], by simp [slices, Interruptible]⟩
  | succ bound ih =>
    intro bytes hbytes
    by_cases hnil : bytes = []
    · subst hnil
      exact ⟨by simp [slices, Reader.bytes], by simp [slices, Delivers], by simp [slices, Interruptible]⟩
    · have hpos := List.length_pos_iff.mpr hnil
      have hchunk : 0 < CHUNK_SIZE := by decide
      obtain ⟨hrest, hdelivers, hinterruptible⟩ := ih (bytes.drop CHUNK_SIZE) (by
        rw [List.length_drop]
        omega)
      rw [slices, if_neg hnil]
      refine ⟨by rw [Reader.bytes, hrest, List.take_append_drop], fun chunk hmem => ?_, fun error hmem => ?_⟩
      · rcases List.mem_cons.mp hmem with hfirst | hmem
        · cases hfirst
          refine ⟨fun htake => ?_, List.length_take_le _ _⟩
          have hlength := congrArg List.length htake
          rw [List.length_take, List.length_nil] at hlength
          omega
        · exact hdelivers chunk hmem
      · rcases List.mem_cons.mp hmem with hfirst | hmem
        · cases hfirst
        · exact hinterruptible error hmem

namespace Stream

/-- A refill delivers the next bytes of the reader, none only at the end of the input,
or fails with the reader's first real error. -/
theorem refill_read_spec {reader : Reader} (hreader : reader.Delivers) :
    (∃ bytes rest, refill_read reader = (.ok bytes, rest) ∧ reader.bytes = bytes ++ rest.bytes ∧
        rest.failure = reader.failure ∧ rest.Delivers ∧ bytes.length ≤ CHUNK_SIZE ∧
        (bytes = [] → reader.bytes = [] ∧ reader.failure = none)) ∨
      ∃ error rest, refill_read reader = (.error error, rest) ∧ reader.bytes = [] ∧
        reader.failure = some error := by
  induction reader with
  | nil => exact Or.inl ⟨[], [], rfl, rfl, rfl, hreader, by simp, fun _ => ⟨rfl, rfl⟩⟩
  | cons event rest ih =>
    cases event with
    | data bytes =>
      obtain ⟨hnonempty, hfits⟩ := hreader bytes List.mem_cons_self
      exact Or.inl ⟨bytes, rest, rfl, rfl, rfl, hreader.tail, hfits, fun h => absurd h hnonempty⟩
    | error error =>
      by_cases hkind : error.kind = .Interrupted
      · simpa [refill_read, Reader.bytes, Reader.failure, hkind] using ih hreader.tail
      · refine Or.inr ⟨error, rest, ?_, ?_, ?_⟩ <;>
          simp [refill_read, Reader.read, Reader.bytes, Reader.failure, hkind]

end Stream

/-- The stream's chunk and reader hold exactly the bytes that the contiguous input still
has. Reads ahead are invisible: only consumed bytes move the offset. -/
structure Refines (t : Contiguous) (s : Stream) : Prop where
  rest : t.rest = (s.chunk.take s.length).drop s.position ++ s.reader.bytes
  failure : t.failure = s.reader.failure
  offset : t.offset = s.offset
  header_start : t.header_start = s.header_start
  position_le : s.position ≤ s.length
  length_le : s.length ≤ s.chunk.length
  chunk_length : s.chunk.length = CHUNK_SIZE
  delivers : s.reader.Delivers

namespace Refines

variable {t : Contiguous} {s : Stream}

theorem new {reader : Reader} (hreader : reader.Delivers) :
    Refines { rest := reader.bytes, failure := reader.failure } (Stream.new reader) :=
  ⟨by simp [Stream.new], rfl, rfl, rfl, Nat.le_refl _, by simp [Stream.new], by simp [Stream.new],
    hreader⟩

theorem look (h : Refines t s) : Refines t.look s := { h with }

/-- What a peek at the chunk answers once it holds a byte or the input has ended. -/
theorem peek_chunk (h : Refines t s) (hended : s.position = s.length → t.rest = []) :
    (if s.position < s.length then s.chunk[s.position]? else none) = t.rest.head? := by
  split
  · next hposition =>
    have hlength := h.length_le
    have hchunk : s.position < (s.chunk.take s.length).length := by
      rw [List.length_take]
      omega
    rw [h.rest, List.drop_eq_getElem_cons hchunk]
    simp [List.getElem?_eq_getElem (show s.position < s.chunk.length by omega)]
  · next hposition =>
    have hle := h.position_le
    rw [hended (by omega), List.head?_nil]

/-- A stream holds its next byte after the refill, unless the reader fails. -/
theorem refill (h : Refines t s) (hposition : s.position = s.length) :
    (∃ s', s.refill = .ok s' ∧ Refines t s' ∧
        (s'.position = s'.length → t.rest = [] ∧ t.failure = none)) ∨
      ∃ error, s.refill = .error (.reader error) ∧ t.rest = [] ∧ t.failure = some error := by
  have hrest : t.rest = s.reader.bytes := by
    rw [h.rest, hposition, List.drop_of_length_le (List.length_take_le _ _)]
    rfl
  obtain ⟨bytes, reader, hread, hbytes, hfailure, hdelivers, hfits, hend⟩ |
    ⟨error, reader, hread, hbytes, hfailure⟩ := Stream.refill_read_spec h.delivers
  · refine Or.inl ⟨_, by rw [Stream.refill, hread], ?_, ?_⟩
    · have hchunk := h.chunk_length
      constructor
      · simp [hrest, hbytes]
      · simp [h.failure, hfailure]
      · exact h.offset
      · exact h.header_start
      · simp
      · simp
      · simp only [List.length_append, List.length_drop]
        omega
      · exact hdelivers
    · intro hempty
      have hnil : bytes = [] := List.eq_nil_of_length_eq_zero hempty.symm
      rw [hrest, h.failure]
      exact hend hnil
  · exact Or.inr ⟨error, by rw [Stream.refill, hread], by rw [hrest, hbytes], by rw [h.failure, hfailure]⟩

/-- A stream peek answers the contiguous input's next byte. -/
theorem peek (h : Refines t s) :
    (∃ s', s.peek = .ok (t.rest.head?, s') ∧ Refines t s' ∧
        (t.rest ≠ [] → s'.position < s'.length) ∧ (t.rest = [] → t.failure = none)) ∨
      ∃ error, s.peek = .error (.reader error) ∧ t.rest = [] ∧ t.failure = some error := by
  by_cases hposition : s.position = s.length
  · obtain ⟨s', hrefill, hs', hend⟩ | ⟨error, hrefill, hnil, hfailure⟩ := h.refill hposition
    · refine Or.inl ⟨s', ?_, hs', ?_, ?_⟩
      · rw [← hs'.peek_chunk fun hempty => (hend hempty).1]
        simp [Stream.peek, hposition, hrefill]
      · intro hne
        have hle := hs'.position_le
        have hlt : s'.position ≠ s'.length := fun hempty => hne (hend hempty).1
        omega
      · intro hnil
        by_cases hempty : s'.position = s'.length
        · exact (hend hempty).2
        · have hle := hs'.position_le
          have hlength := hs'.length_le
          have hchunk := hs'.rest
          rw [hnil] at hchunk
          have hdrop := (List.append_eq_nil_iff.mp hchunk.symm).1
          simp only [List.drop_eq_nil_iff, List.length_take] at hdrop
          omega
    · exact Or.inr ⟨error, by simp [Stream.peek, hposition, hrefill], hnil, hfailure⟩
  · have hle := h.position_le
    have hlt : s.position < s.length := by omega
    have hne : t.rest ≠ [] := by
      have hlength := h.length_le
      rw [h.rest]
      intro hnil
      have hdrop := (List.append_eq_nil_iff.mp hnil).1
      simp only [List.drop_eq_nil_iff, List.length_take] at hdrop
      omega
    refine Or.inl ⟨s, ?_, h, fun _ => hlt, fun hnil => absurd hnil hne⟩
    rw [← h.peek_chunk fun hempty => absurd hempty hposition]
    simp [Stream.peek, hposition]

/-- Consuming the byte that both inputs show keeps them together. -/
theorem advance (h : Refines t s) (hposition : s.position < s.length) (offset : Nat) :
    Refines { t with rest := t.rest.tail, offset, looked := false } { s with offset, position := s.position + 1 } := by
  have hlength := h.length_le
  have hchunk : s.position < (s.chunk.take s.length).length := by
    rw [List.length_take]
    omega
  refine { h with rest := ?_, offset := rfl, position_le := hposition }
  simp only [h.rest]
  rw [List.drop_eq_getElem_cons hchunk]
  rfl

theorem simulates : Simulates (fun _ => False) (fun _ => False) Refines where
  peek t s h := by
    obtain ⟨s', hpeek, hs', -, hfailure⟩ | ⟨error, hpeek, hnil, hfailure⟩ := h.peek
    · cases hrest : t.rest with
      | nil =>
        change Matches _ _ _ (Contiguous.peek t) (Stream.peek s)
        simp only [Contiguous.peek, hrest, hfailure hrest]
        exact Or.inr ⟨s', by simpa [hrest] using hpeek, hs'.look⟩
      | cons byte rest =>
        change Matches _ _ _ (Contiguous.peek t) (Stream.peek s)
        simp only [Contiguous.peek, hrest]
        exact Or.inr ⟨s', by simpa [hrest] using hpeek, hs'.look⟩
    · refine (show Matches _ _ _ (Contiguous.peek t) (Stream.peek s) from ?_)
      simp only [Contiguous.peek, hnil, hfailure]
      exact Or.inr hpeek
  take t s h := by
    change Matches _ _ _ (Contiguous.take t) (Stream.take s)
    obtain ⟨s', hpeek, hs', hposition, hfailure⟩ | ⟨error, hpeek, hnil, hfailure⟩ := h.peek
    · cases hrest : t.rest with
      | nil =>
        simp only [Contiguous.take, hrest, hfailure hrest]
        exact Or.inr ⟨s', by simp [Stream.take, hpeek, hrest], hs'.look⟩
      | cons byte rest =>
        simp only [Contiguous.take, Stream.take, hpeek, hrest, hs'.offset, hs'.header_start,
          List.head?_cons, ok_bind, pure_eq_ok]
        cases hcharge : charge s'.offset s'.header_start with
        | error error => exact Or.inr rfl
        | ok offset =>
          refine Or.inr ⟨_, rfl, ?_⟩
          have hadvance := hs'.advance (hposition (by simp [hrest])) offset
          simpa only [hrest, List.tail_cons, hs'.header_start] using hadvance
    · simp only [Contiguous.take, hnil, hfailure, Stream.take, hpeek, error_bind]
      exact Or.inr rfl
  offset t s h := h.offset.symm
  active t s h := by
    have hstart := h.header_start
    exact congrArg Option.isSome hstart.symm
  budget t s start h := { h with header_start := rfl }
  remaining t s t' s' h h' hless := by
    have bytesLeft {t : Contiguous} {s : Stream} (h : Refines t s) :
        ByteSource.remaining s = ByteSource.remaining t := by
      have hlength := h.length_le
      have hrest := congrArg List.length h.rest
      simp only [List.length_append, List.length_drop, List.length_take] at hrest
      change s.length - s.position + s.reader.bytes.length = t.rest.length
      omega
    rw [bytesLeft h, bytesLeft h']
    exact hless
  stable := ⟨fun _ _ _ h => h.elim, fun _ _ _ h => h.elim, fun _ _ h => h.elim⟩
  escaped _ _ h := h.elim

end Refines

end optic.llvm_index
