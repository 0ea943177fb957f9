import Optic.LlvmIndex.Locality
import Optic.LlvmIndex.Refinement
import Optic.LlvmIndex.ScannerShift
import Optic.LlvmIndex.ScannerSpec

open byte_scan rust optic.records

namespace optic.llvm_index

variable {s : Contiguous}

theorem zero_lt_u64 : 0 < UInt64.size := by decide

/-- A scan of the rest of an input: one item after another, up to its end. -/
inductive Scanned : Contiguous → List LlvmDefinitionRecord → Prop where
  | done {s : Contiguous} (hrest : s.rest = []) : Scanned s []
  | item {s s' : Contiguous} {byte : UInt8} {rest : List UInt8} {definition : Option LlvmDefinitionRecord}
      {definitions : List LlvmDefinitionRecord} (hrest : s.rest = byte :: rest)
      (hrun : (scan_item byte).run s.look = .ok (definition, s')) (hitem : ReadItem s definition s')
      (hscanned : Scanned s' definitions) : Scanned s (definition.toList ++ definitions)

theorem ReadItem.of_look {s' : Contiguous} {definition : Option LlvmDefinitionRecord}
    (h : ReadItem s.look definition s') : ReadItem s definition s' := by
  obtain ⟨q, hne, hq, hstop, hrecords⟩ := h
  refine ⟨q, hne, hq.of_look, hstop, fun record hrecord => ?_⟩
  have hrecord := hrecords record hrecord
  exact ⟨hrecord.start, hrecord.length, hrecord.function, hrecord.global⟩

/-- A scan neither stalls nor panics, and returns the records of its items once it has
found the end of the input. -/
theorem scan_spec (found : List LlvmDefinitionRecord) (hs : s.header_start = none) (hoffset : s.offset < UInt64.size) :
    Ensures (Scan.iter scan_turn found) s fun definitions _ =>
      s.failure = none ∧ ∃ more, definitions = found ++ more ∧ Scanned s more := by
  refine Meets.iter (I := fun _ s => s.header_start = none ∧ s.offset < UInt64.size)
    (Q := fun found s definitions _ => s.failure = none ∧ ∃ more, definitions = found ++ more ∧ Scanned s more)
    (fun found s h => ?_) found s ⟨hs, hoffset⟩
  refine (stream.peek_spec s).with_run.bind fun byte s1 hpeek => ?_
  obtain ⟨hrunpeek, rfl, rfl⟩ := hpeek
  cases hrest : s.rest with
  | nil =>
    rw [hrest] at hrunpeek
    exact Meets.done ⟨stream.peek_end hrunpeek, [], by simp, Scanned.done hrest⟩
  | cons byte rest =>
    refine (scan_item_spec (s := s.look) h.1 h.2 hrest).with_run.bind fun definition s2 hitem => ?_
    obtain ⟨hrun, hitem⟩ := hitem
    obtain ⟨q, hne, hq, -⟩ := hitem.of_look
    refine Meets.done ⟨hq.remaining_lt hne, ⟨hq.header_start.trans h.1, hq.bounded h.2⟩, ?_⟩
    rintro definitions s3 ⟨hfailure, more, rfl, hscanned⟩
    refine ⟨hq.failure.symm.trans hfailure, _, List.append_assoc _ _ _, ?_⟩
    exact Scanned.item hrest hrun hitem.of_look hscanned

/-- The stream answers what a scan of the plain byte list answers, for every way in which
the reader delivers the bytes. -/
theorem index_eq_contiguous {reader : Reader} (hreader : reader.Delivers) :
    index reader = index_contiguous reader.bytes reader.failure := by
  have hspec := scan_spec (s := { rest := reader.bytes, failure := reader.failure }) [] rfl
    zero_lt_u64
  have hmatch := Refines.simulates.run scan _ _ (Refines.new hreader)
  unfold index index_contiguous
  change (scan.run _).map _ = _
  cases hrun : scan.run ({ rest := reader.bytes, failure := reader.failure } : Contiguous) with
  | ok pair =>
    rw [hrun] at hmatch
    obtain ⟨t, ht, -⟩ := hmatch.resolve_left id
    rw [ht]
    rfl
  | error fault =>
    cases fault with
    | stalled => exact absurd hrun hspec.ne_stalled
    | error error =>
      rw [hrun] at hmatch
      rw [hmatch.resolve_left id]
      rfl

theorem index_bytes_eq_contiguous (bytes : List UInt8) : index_bytes bytes = index_contiguous bytes none := by
  obtain ⟨hbytes, hdelivers, hinterruptible⟩ := Reader.slices_spec bytes.length bytes (Nat.le_refl _)
  rw [index_bytes, Reader.of_slice, index_eq_contiguous hdelivers, hbytes, hinterruptible.failure_eq_none]

/-- A scan of a complete input fails only with malformed input. -/
theorem index_contiguous_error {bytes : List UInt8} {fault : Fault Error}
    (h : index_contiguous bytes none = .error fault) :
    ∃ offset message, fault = .error (.invalid offset message) := by
  have hspec := scan_spec (s := { rest := bytes }) [] rfl zero_lt_u64
  have hshift := scan_shifts (k := 0) [] { rest := bytes } { rest := bytes }
    ⟨rfl, ⟨rfl, rfl⟩, rfl, rfl, Nat.le_refl _, Or.inl rfl⟩
  unfold index_contiguous at h
  change Except.map _ ((Scan.iter scan_turn []).run _) = _ at h
  change RunsCoupled _ _ _ ((Scan.iter scan_turn []).run _) _ at hshift
  cases hrun : (Scan.iter scan_turn []).run ({ rest := bytes } : Contiguous) with
  | ok pair =>
    rw [hrun] at h
    cases h
  | error other =>
    rw [hrun] at h
    cases h
    cases fault with
    | stalled => exact absurd hrun hspec.ne_stalled
    | error error =>
      rw [hrun] at hshift
      obtain ⟨_, -, hshifted⟩ := hshift
      cases hshifted with
      | invalid offset message => exact ⟨_, _, rfl⟩
      | panicked message => exact absurd rfl (hspec.of_run_error hrun message)

/-- A reader that fails shows either its own error, or the malformed input that every
continuation of what it delivered has. -/
theorem index_failure {reader : Reader} (hreader : reader.Delivers) {failure : IoError}
    (hfailure : reader.failure = some failure) :
    index reader = .error (.error (.reader failure)) ∨
      ∃ offset message, index reader = .error (.error (.invalid offset message)) ∧
        ∀ extension, index_contiguous (reader.bytes ++ extension) none = .error (.error (.invalid offset message)) := by
  rw [index_eq_contiguous hreader, hfailure]
  have hspec := scan_spec (s := { rest := reader.bytes, failure := some failure }) [] rfl zero_lt_u64
  have hextends (extension : List UInt8) := (Extends.simulates failure extension).run scan
    { rest := reader.bytes, failure := some failure } { rest := reader.bytes ++ extension } ⟨rfl, rfl, rfl, rfl⟩
  unfold index_contiguous
  cases hrun : scan.run ({ rest := reader.bytes, failure := some failure } : Contiguous) with
  | ok pair =>
    have hend := (hspec.of_run_ok hrun).1
    cases hend
  | error fault =>
    cases fault with
    | stalled => exact absurd hrun hspec.ne_stalled
    | error error =>
      by_cases herror : error = .reader failure
      · exact Or.inl (by rw [herror]; rfl)
      · have hsame (extension : List UInt8) : index_contiguous (reader.bytes ++ extension) none = .error (.error error) := by
          have hmatch := hextends extension
          rw [hrun] at hmatch
          unfold index_contiguous
          rw [hmatch.resolve_left herror]
          rfl
        obtain ⟨offset, message, hfault⟩ := index_contiguous_error (hsame [])
        cases hfault
        exact Or.inr ⟨offset, message, rfl, hsame⟩

/-- The streaming scanner refines the scanner over the plain byte list. -/
theorem index_refines {reader : Reader} (hreader : reader.Delivers) :
    (reader.Interruptible → index reader = index_contiguous reader.bytes none) ∧
    (∀ failure, reader.failure = some failure →
      index reader = .error (.error (.reader failure)) ∨
      ∃ offset message, index reader = .error (.error (.invalid offset message)) ∧
        ∀ complete : Reader, complete.Delivers → complete.Interruptible → reader.bytes <+: complete.bytes →
          index complete = .error (.error (.invalid offset message))) := by
  refine ⟨fun hinterruptible => ?_, fun failure hfailure => ?_⟩
  · rw [index_eq_contiguous hreader, hinterruptible.failure_eq_none]
  · refine (index_failure hreader hfailure).imp id ?_
    rintro ⟨offset, message, hindex, hextends⟩
    refine ⟨offset, message, hindex, fun complete hcomplete hinterruptible hprefix => ?_⟩
    obtain ⟨extension, hextension⟩ := hprefix
    rw [index_eq_contiguous hcomplete, hinterruptible.failure_eq_none, ← hextension]
    exact hextends extension

theorem index_refines_short_reads :
    index [.data (text "@a = al"), .error ⟨.Interrupted, "interrupted"⟩, .data (text "ias i8, ptr @b")] =
      index_contiguous (text "@a = alias i8, ptr @b") none :=
  (index_refines (by simp [Reader.Delivers]; decide)).1 (by simp [Reader.Interruptible])

/-- Complete lines: a newline ends them, or there are none. -/
def Terminated (bytes : List UInt8) : Prop := bytes = [] ∨ bytes.getLast? = some (ascii '\n')

theorem Terminated.drop {q bytes : List UInt8} (h : Terminated (q ++ bytes)) : Terminated bytes := by
  cases bytes with
  | nil => exact Or.inl rfl
  | cons byte bytes =>
    refine Or.inr ?_
    obtain hnil | hlast := h
    · simp at hnil
    · simpa [List.getLast?_append] using hlast

/-- An item of complete lines never looks beyond them. -/
theorem ReadItem.not_past {s' : Contiguous} {definition : Option LlvmDefinitionRecord} {stop : Nat}
    (h : ReadItem s definition s') (hterminated : Terminated s.rest) (hstop : stop = s.offset + s.rest.length) :
    ¬ Past stop s' := by
  obtain ⟨q, hne, hq, hlooked, -⟩ := h
  have hlength := congrArg List.length hq.rest
  have hoffset := hq.offset
  rw [List.length_append] at hlength
  rintro (hpast | ⟨hpast, hlook⟩)
  · omega
  · have hnil : s'.rest = [] := List.eq_nil_of_length_eq_zero (by omega)
    obtain hlooked | ⟨-, hlast⟩ := hlooked
    · rw [hlooked] at hlook
      cases hlook
    · rw [hq.rest, hnil, List.append_nil] at hterminated
      exact hterminated.elim hne hlast

/-- One item of a scan. -/
theorem scan_step {t t' : Contiguous} {byte : UInt8} {rest : List UInt8} {definition : Option LlvmDefinitionRecord}
    (found : List LlvmDefinitionRecord) (hrest : t.rest = byte :: rest)
    (hrun : (scan_item byte).run t.look = .ok (definition, t')) (hless : t'.rest.length < t.rest.length) :
    (Scan.iter scan_turn found).run t = (Scan.iter scan_turn (found ++ definition.toList)).run t' := by
  have hpeek : stream.peek.run t = .ok (some byte, t.look) := by
    rw [stream.run_peek, Contiguous.peek, hrest]
  rw [run_iter_unfold, scan_turn, run_bind, hpeek, andThen_ok, run_bind, hrun, andThen_ok]
  exact if_pos hless

/-- A scan ends with the input. -/
theorem scan_end {t : Contiguous} (found : List LlvmDefinitionRecord) (hrest : t.rest = []) (hfailure : t.failure = none) :
    (Scan.iter scan_turn found).run t = .ok (found, t.look) := by
  have hpeek : stream.peek.run t = .ok (none, t.look) := by
    rw [stream.run_peek, Contiguous.peek, hrest, hfailure]
  rw [run_iter_unfold, scan_turn, run_bind, hpeek, andThen_ok]
  rfl

theorem Agrees.remaining_lt {stop : Nat} {x y : List UInt8} {s s' t t' : Contiguous} (h : Agrees stop x y s t)
    (h' : Agrees stop x y s' t') (hless : s'.rest.length < s.rest.length) : t'.rest.length < t.rest.length :=
  (Agrees.simulates stop x y).remaining s t s' t' h h' hless

/-- Where complete lines end, a scan of them with more input behind is where the more
input starts. -/
theorem Scanned.run_append {definitions : List LlvmDefinitionRecord} (h : Scanned s definitions) :
    ∀ {t : Contiguous} {stop : Nat} {b : List UInt8} (found : List LlvmDefinitionRecord), Agrees stop [] b s t →
      Terminated s.rest → ∃ t', (Scan.iter scan_turn found).run t =
        (Scan.iter scan_turn (found ++ definitions)).run t' ∧ t'.rest = b ∧ t'.offset = stop ∧
        t'.failure = t.failure ∧ t'.header_start = s.header_start := by
  induction h with
  | @done s hrest =>
    intro t stop b found hagrees _
    obtain ⟨q, hs, ht, hstop⟩ := hagrees.common
    obtain rfl : q = [] := by simpa [hrest] using hs.symm
    exact ⟨t, by simp, ht, by rw [hagrees.offset, ← hstop]; rfl, rfl, hagrees.header_start⟩
  | @item s s' byte rest definition definitions hrest hrun hitem hscanned ih =>
    intro t stop b found hagrees hterminated
    obtain ⟨q, hs, ht, hstop⟩ := hagrees.common
    rw [List.append_nil] at hs
    obtain ⟨t1, hrun', hagrees'⟩ := hagrees.look.run_ok hrun (hitem.not_past hterminated (by rw [hs, hstop]))
    obtain ⟨p, hne, hp, -⟩ := hitem
    have hterminated' : Terminated s'.rest := (hp.rest ▸ hterminated).drop
    have hfailure : t1.failure = t.failure := (failure_stable t.failure).run _ t.look _ _ rfl hrun'
    obtain ⟨t', hloop, hrest', hoffset', hfailure', hheader'⟩ := ih (found ++ definition.toList) hagrees' hterminated'
    refine ⟨t', ?_, hrest', hoffset', hfailure'.trans hfailure, hheader'.trans hp.header_start⟩
    have hstep := scan_step found (by rw [ht, ← hs, hrest]; rfl) hrun' (hagrees.remaining_lt hagrees' (hp.remaining_lt hne))
    rw [hstep, hloop, List.append_assoc]

/-- An accepted index is a scan of its input. -/
theorem scanned_of_index {bytes : List UInt8} {definitions : List LlvmDefinitionRecord}
    (h : index_bytes bytes = .ok definitions) : Scanned { rest := bytes } definitions := by
  have hspec := scan_spec (s := { rest := bytes }) [] rfl zero_lt_u64
  rw [index_bytes_eq_contiguous] at h
  change Except.map _ ((Scan.iter scan_turn []).run _) = _ at h
  cases hrun : (Scan.iter scan_turn []).run ({ rest := bytes } : Contiguous) with
  | error fault =>
    rw [hrun] at h
    cases h
  | ok pair =>
    rw [hrun] at h
    cases h
    obtain ⟨-, more, hmore, hscanned⟩ := hspec.of_run_ok hrun
    rwa [hmore]

/-- Behind complete lines, a scan goes on as it would from the start. -/
theorem scan_behind {a b : List UInt8} {da : List LlvmDefinitionRecord} (ha : Terminated a)
    (hlength : a.length + b.length < UInt64.size) (hindex : index_bytes a = .ok da) :
    ∃ t, Shifted a.length 0 { rest := b } t ∧ index_bytes (a ++ b) = ((Scan.iter scan_turn da).run t).map Prod.fst := by
  have hagrees : Agrees a.length [] b { rest := a } { rest := a ++ b } :=
    ⟨⟨a, by simp, rfl, by simp⟩, rfl, rfl, rfl⟩
  obtain ⟨t, hrun, hrest, hoffset, hfailure, hheader⟩ := (scanned_of_index hindex).run_append [] hagrees ha
  refine ⟨t, ⟨hrest, ⟨rfl, hfailure⟩, by simp [hoffset], hheader, Nat.le_refl _, Or.inr (by simp only; omega)⟩, ?_⟩
  rw [List.nil_append] at hrun
  rw [index_bytes_eq_contiguous, index_contiguous, ← hrun]
  rfl

/-- Definitions behind complete lines are found behind those of the lines. -/
theorem index_behind {a b : List UInt8} {da db : List LlvmDefinitionRecord} (ha : Terminated a)
    (hlength : a.length + b.length < UInt64.size) (hindex : index_bytes a = .ok da) (hb : index_bytes b = .ok db) :
    ∃ shifted, index_bytes (a ++ b) = .ok (da ++ shifted) ∧ List.Forall₂ (ShiftedRecord a.length) db shifted := by
  obtain ⟨t, hshifted, happend⟩ := scan_behind ha hlength hindex
  have hcoupled := scan_shifts da { rest := b } t hshifted
  rw [index_bytes_eq_contiguous] at hb
  rw [happend]
  unfold index_contiguous at hb
  cases hrunb : scan.run ({ rest := b } : Contiguous) with
  | error fault =>
    rw [hrunb] at hb
    cases hb
  | ok pair =>
    rw [hrunb] at hb hcoupled
    cases hb
    obtain ⟨_, t', hrunt, ⟨shifted, rfl, hrecords⟩, -⟩ := hcoupled
    exact ⟨shifted, by rw [hrunt]; rfl, hrecords⟩

/-- Indexing is compositional at line boundaries. -/
theorem index_append {a b : List UInt8} {da : List LlvmDefinitionRecord} (ha : Terminated a)
    (hlength : a.length + b.length < UInt64.size) (hindex : index_bytes a = .ok da) :
    (∀ db, index_bytes b = .ok db →
      ∃ shifted, index_bytes (a ++ b) = .ok (da ++ shifted) ∧ List.Forall₂ (ShiftedRecord a.length) db shifted) ∧
    ∀ fault, index_bytes b = .error fault → ∃ offset message, fault = .error (.invalid offset message) ∧
      index_bytes (a ++ b) = .error (.error (.invalid (offset + a.length) message)) := by
  refine ⟨fun db hb => index_behind ha hlength hindex hb, fun fault hb => ?_⟩
  obtain ⟨t, hshifted, happend⟩ := scan_behind ha hlength hindex
  have hcoupled := scan_shifts da { rest := b } t hshifted
  rw [index_bytes_eq_contiguous] at hb
  rw [happend]
  obtain ⟨offset, message, rfl⟩ := index_contiguous_error hb
  refine ⟨offset, message, rfl, ?_⟩
  unfold index_contiguous at hb
  cases hrunb : scan.run ({ rest := b } : Contiguous) with
  | ok pair =>
    rw [hrunb] at hb
    cases hb
  | error fault =>
    rw [hrunb] at hb hcoupled
    cases hb
    obtain ⟨error', hrunt, herror⟩ := hcoupled
    cases herror
    rw [hrunt]
    rfl

namespace fixture

/-- A function with a body, and an alias of it. -/
def answer : List UInt8 :=
  text "define i32 @answer() \x7b\n  ret i32 42\n\x7d\n@a = alias i32 (), ptr @answer\n"

theorem answer_indexed : ∃ definitions, index_bytes answer = .ok definitions ∧
    definitions.map (fun definition => (definition.raw_symbol, definition.kind)) =
      [("answer", .Function), ("a", .DirectAlias "answer")] ∧
    definitions.map (fun definition => (definition.range.start, definition.range.length)) = [(0, 37), (38, 31)] :=
  ⟨_, by rw [index_bytes_eq_contiguous]; rfl, rfl, rfl⟩

end fixture

theorem index_append_function :
    ∃ definitions shifted, index_bytes fixture.answer = .ok definitions ∧
      definitions.map LlvmDefinitionRecord.raw_symbol = ["answer", "a"] ∧
      index_bytes (fixture.answer ++ fixture.answer) = .ok (definitions ++ shifted) ∧
      List.Forall₂ (ShiftedRecord fixture.answer.length) definitions shifted := by
  obtain ⟨definitions, hindex, hsymbols, -⟩ := fixture.answer_indexed
  obtain ⟨shifted, hboth, hshifted⟩ := (index_append (Or.inr (by decide)) (by decide) hindex).1 definitions hindex
  have hnames := congrArg (List.map Prod.fst) hsymbols
  rw [List.map_map] at hnames
  exact ⟨definitions, shifted, hindex, hnames, hboth, hshifted⟩

/-- The bytes of a range. -/
def slice (bytes : List UInt8) (range : ByteRange) : List UInt8 :=
  (bytes.drop range.start.toNat).take range.length.toNat

/-- The same definition at the start of a file of its own. -/
def alone (definition : LlvmDefinitionRecord) : LlvmDefinitionRecord :=
  { definition with
    range := ⟨0, definition.range.length, by simpa using definition.range.length.toNat_lt⟩ }

theorem alone_of_shifted {record definition : LlvmDefinitionRecord}
    (h : ShiftedRecord definition.range.start.toNat record definition) : record = alone definition := by
  obtain ⟨hsymbol, hkind, hstart, hlength⟩ := h
  obtain ⟨symbol, ⟨start, length, fits⟩, kind, named, target⟩ := definition
  obtain ⟨symbol', ⟨start', length', fits'⟩, kind', named', target'⟩ := record
  simp only at hsymbol hkind hstart hlength
  obtain rfl := hsymbol
  obtain rfl := hkind
  obtain rfl := hlength
  have hzero : start' = 0 := by
    rw [← UInt64.toNat_inj]
    simp only [UInt64.toNat_zero]
    omega
  subst hzero
  rfl

/-- Where a record of a scan was read. -/
structure Origin (s : Contiguous) (definition : LlvmDefinitionRecord) (q : List UInt8) : Prop where
  placed : ∃ before si s' byte rest, Consumed s before si ∧ si.rest = byte :: rest ∧
    (scan_item byte).run si.look = .ok (some definition, s') ∧ Consumed si q s' ∧
    (s'.looked = false ∨ s'.rest = []) ∧ Records si q definition ∧ q ≠ []

theorem Scanned.origin {definitions : List LlvmDefinitionRecord} (h : Scanned s definitions) :
    ∀ definition ∈ definitions, ∃ q, Origin s definition q := by
  induction h with
  | done hrest => simp
  | @item s s' byte rest found definitions hrest hrun hitem hscanned ih =>
    intro definition hmem
    obtain ⟨q, hne, hq, hlooked, hrecords⟩ := hitem
    obtain hmem | hmem := List.mem_append.mp hmem
    · obtain rfl : found = some definition := by simpa using hmem
      exact ⟨q, [], s, s', byte, rest, Consumed.refl s, hrest, hrun, hq, hlooked.imp id And.left,
        hrecords definition rfl, hne⟩
    · obtain ⟨q', before, si, s'', byte', rest', hbefore, horigin⟩ := ih definition hmem
      exact ⟨q', q ++ before, si, s'', byte', rest', hq.trans hbefore, horigin⟩

/-- Every record starts at or behind the state that the scan is in, and ends at or before
the records that follow it. -/
theorem Scanned.ordered {definitions : List LlvmDefinitionRecord} (h : Scanned s definitions) :
    (∀ definition ∈ definitions, s.offset ≤ definition.range.start.toNat) ∧
      definitions.Pairwise fun first second => first.range.end.toNat ≤ second.range.start.toNat := by
  induction h with
  | done hrest => simp
  | @item s s' byte rest found definitions hrest hrun hitem hscanned ih =>
    obtain ⟨q, hne, hq, -, hrecords⟩ := hitem
    have hoffset := hq.offset
    refine ⟨fun definition hmem => ?_, List.pairwise_append.mpr ⟨?_, ih.2, fun first hfirst second hsecond => ?_⟩⟩
    · obtain hmem | hmem := List.mem_append.mp hmem
      · obtain rfl : found = some definition := by simpa using hmem
        exact Nat.le_of_eq (hrecords definition rfl).start.symm
      · have hle := ih.1 definition hmem
        omega
    · cases found <;> simp
    · obtain rfl : found = some first := by simpa using hfirst
      have hrecord := hrecords first rfl
      have hle := ih.1 second hsecond
      rw [ByteRange.end_toNat, hrecord.start, hrecord.length]
      omega

namespace Origin

variable {bytes q : List UInt8} {definition : LlvmDefinitionRecord}

/-- The range of a record holds the bytes that it was read from. -/
theorem slice_eq (h : Origin { rest := bytes } definition q) :
    definition.range.end.toNat ≤ bytes.length ∧ slice bytes definition.range = q := by
  obtain ⟨before, si, s', byte, rest, hbefore, -, -, hq, -, hrecords, -⟩ := h.placed
  have hbytes : bytes = before ++ (q ++ s'.rest) := by rw [← hq.rest, ← hbefore.rest]
  have hstart : definition.range.start.toNat = before.length := by
    rw [hrecords.start, hbefore.offset, Nat.zero_add]
  refine ⟨?_, ?_⟩
  · rw [ByteRange.end_toNat, hstart, hrecords.length, hbytes]
    simp only [List.length_append]
    omega
  · rw [slice, hstart, hrecords.length, hbytes, List.drop_left, List.take_left]

/-- Reading the record did not depend on what follows it. -/
theorem local_run (h : Origin { rest := bytes } definition q) :
    ∃ offset byte rest, ∃ u : Contiguous, q = byte :: rest ∧ offset = definition.range.start.toNat ∧
      q.length + offset < UInt64.size ∧ u.rest = [] ∧
      (scan_item byte).run ({ rest := q, offset, looked := true } : Contiguous) = .ok (some definition, u) := by
  obtain ⟨before, si, s', byte, rest, hbefore, hrest, hrun, hq, hlooked, hrecords, hne⟩ := h.placed
  obtain ⟨tail, htail⟩ := hq.head hrest hne
  have hbound : s'.offset < UInt64.size := hq.bounded (hbefore.bounded zero_lt_u64)
  have hoffset := hq.offset
  have hlook : si.look = { rest := si.rest, offset := si.offset, looked := true } := by
    rw [Contiguous.look, hbefore.failure, hbefore.header_start]
  rw [hlook] at hrun
  refine ⟨si.offset, byte, tail, ?_⟩
  obtain hlooked | hnil := hlooked
  · have hagrees : Agrees s'.offset s'.rest [] { rest := si.rest, offset := si.offset, looked := true }
        { rest := q, offset := si.offset, looked := true } := ⟨⟨q, hq.rest, by simp, hoffset.symm⟩, rfl, rfl, rfl⟩
    have hbeforeEnd : ¬ Past s'.offset s' := by
      rintro (hpast | ⟨-, hlook⟩)
      · omega
      · rw [hlooked] at hlook
        cases hlook
    obtain ⟨u, hrun', hagrees'⟩ := hagrees.run_ok hrun hbeforeEnd
    obtain ⟨q', hs', hu, -⟩ := hagrees'.common
    have hq' : q' = [] := List.append_left_eq_self.mp hs'.symm
    exact ⟨u, htail, hrecords.start.symm, by omega, by rw [hu, hq']; rfl, hrun'⟩
  · have hsame : si.rest = q := by rw [hq.rest, hnil, List.append_nil]
    rw [hsame] at hrun
    exact ⟨s', htail, hrecords.start.symm, by omega, hnil, hrun⟩

/-- A record's bytes alone index to that record alone. -/
theorem index_alone (h : Origin { rest := bytes } definition q) : index_bytes q = .ok [alone definition] := by
  obtain ⟨offset, byte, rest, u, hq, hoffset, hbound, hnil, hrun⟩ := h.local_run
  have hshifted : Shifted offset 0 { rest := q, looked := true } { rest := q, offset, looked := true } :=
    ⟨rfl, ⟨rfl, rfl⟩, by simp, rfl, Nat.le_refl _, Or.inr (by simp only; omega)⟩
  have hcoupled := scan_item_shifts byte _ _ hshifted
  have hspec := scan_item_spec (s := { rest := q, looked := true }) rfl zero_lt_u64 hq
  rw [index_bytes_eq_contiguous, index_contiguous]
  cases hrun' : (scan_item byte).run ({ rest := q, looked := true } : Contiguous) with
  | error fault =>
    rw [hrun'] at hcoupled
    cases fault with
    | stalled => exact absurd hrun' hspec.ne_stalled
    | error error =>
      obtain ⟨_, hfail, -⟩ := hcoupled
      rw [hrun] at hfail
      cases hfail
  | ok pair =>
    obtain ⟨found, v⟩ := pair
    rw [hrun'] at hcoupled
    obtain ⟨_, t, hok, hitem, hshifted'⟩ := hcoupled
    rw [hrun] at hok
    cases hok
    cases hitem with
    | @some record _ hrecord =>
      have hv : v.rest = [] := by rw [← hshifted'.rest, hnil]
      have hfailure : v.failure = none := (failure_stable none).run _ _ _ _ rfl hrun'
      have hstep := scan_step (t := { rest := q }) [] hq hrun' (by rw [hv, hq]; simp)
      rw [hoffset] at hrecord
      change Except.map _ ((Scan.iter scan_turn []).run _) = _
      rw [hstep, scan_end _ hv hfailure, alone_of_shifted hrecord]
      rfl

end Origin

/-- Index ranges are disjoint, ordered and self-contained. -/
theorem index_ranges {bytes : List UInt8} {definitions : List LlvmDefinitionRecord}
    (h : index_bytes bytes = .ok definitions) :
    (definitions.Pairwise fun first second => first.range.end.toNat ≤ second.range.start.toNat) ∧
    ∀ definition ∈ definitions,
      0 < definition.range.length.toNat ∧ definition.range.end.toNat ≤ bytes.length ∧
      (if definition.kind = .Function then
        text "define" <+: slice bytes definition.range ∧
          (slice bytes definition.range).getLast? = some (ascii '}')
      else (slice bytes definition.range).head? = some (ascii '@')) ∧
      index_bytes (slice bytes definition.range) = .ok [alone definition] := by
  have hscanned := scanned_of_index h
  refine ⟨hscanned.ordered.2, fun definition hmem => ?_⟩
  obtain ⟨q, horigin⟩ := hscanned.origin definition hmem
  obtain ⟨hend, hslice⟩ := horigin.slice_eq
  have halone := horigin.index_alone
  obtain ⟨before, si, s', byte, rest, -, -, -, -, -, hrecords, hne⟩ := horigin.placed
  rw [hslice]
  refine ⟨?_, hend, ?_, halone⟩
  · rw [hrecords.length]
    exact List.length_pos_iff.mpr hne
  · split
    · next hkind => exact hrecords.function hkind
    · next hkind => exact hrecords.global hkind

theorem index_ranges_function :
    ∃ definitions, index_bytes fixture.answer = .ok definitions ∧
      definitions.map (fun definition => (definition.range.start, definition.range.length)) = [(0, 37), (38, 31)] ∧
      ∀ definition ∈ definitions,
        index_bytes (slice fixture.answer definition.range) = .ok [alone definition] := by
  obtain ⟨definitions, hindex, -, hranges⟩ := fixture.answer_indexed
  exact ⟨definitions, hindex, hranges, fun definition hmem => ((index_ranges hindex).2 definition hmem).2.2.2⟩

end optic.llvm_index
