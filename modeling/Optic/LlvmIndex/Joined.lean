import Optic.LlvmIndex.Index

open byte_scan rust optic.records

namespace optic.llvm_index

variable {s : Contiguous}

theorem read_function_definition_looked (hoffset : s.offset < UInt64.size) (start : Nat) (hstart : start ≤ s.offset) :
    Ensures (read_function_definition start) s fun _ s' => s'.looked = false := by
  refine (stream.begin_header_spec s start).bind fun _ s1 h => ?_
  subst h
  refine (header.read_function_spec rfl).bind fun symbol s2 h => ?_
  obtain ⟨q, hq, -, -⟩ := h
  refine (stream.end_header_spec s2).bind fun _ s3 h => ?_
  subst h
  refine (stream.skip_body_spec _).bind fun _ s4 h => ?_
  obtain ⟨body, hbody, hlooked⟩ := h
  have hoffset2 : start ≤ s2.offset := by
    rw [hq.offset]
    exact Nat.le_trans hstart (Nat.le_add_right _ _)
  have hoffset4 : start ≤ s4.offset := by
    rw [hbody.offset]
    exact Nat.le_trans hoffset2 (Nat.le_add_right _ _)
  refine (finish_definition_spec symbol .Function hoffset4 (hbody.bounded (hq.bounded hoffset))).mono fun _ s5 h => ?_
  obtain ⟨rfl, -⟩ := h
  exact hlooked

theorem scan_keyword_looked {s1 : Contiguous} {bytes : List UInt8} (hoffset : s.offset < UInt64.size)
    (hread : Consumed s bytes s1) (keyword : List UInt8) :
    Ensures (scan_keyword s.offset keyword) s1 fun definition s' => ∀ record, definition = some record → s'.looked = false := by
  refine (starts_function_spec keyword).bind fun starts s2 h => ?_
  obtain ⟨hlook, -⟩ := h
  have hall := hread.trans hlook
  have hle : s.offset ≤ s2.offset := by
    rw [hall.offset]
    exact Nat.le_add_right _ _
  refine Meets.ite (fun _ => ?_) fun _ => Meets.ite (fun _ => Meets.pure nofun) fun _ => ?_
  · refine (read_function_definition_looked (hall.bounded hoffset) s.offset hle).bind fun definition s3 h => ?_
    exact Meets.pure fun _ _ => h
  · exact (stream.skip_line_spec s2).bind fun _ s3 _ => Meets.pure nofun

/-- The item of a function ends without a look behind its closing brace. -/
theorem scan_item_looked {byte : UInt8} {rest : List UInt8} (hs : s.header_start = none)
    (hoffset : s.offset < UInt64.size) (hrest : s.rest = byte :: rest) :
    Ensures (scan_item byte) s fun definition s' =>
      ∀ record, definition = some record → record.kind = .Function → s'.looked = false := by
  refine Meets.ite (fun _ => ?_) fun _ => ?_
  · exact (stream.take_spec s).bind fun _ s1 _ => Meets.pure nofun
  refine (stream.offset_spec s).bind fun start s1 h => ?_
  obtain ⟨rfl, rfl⟩ := h
  refine Meets.ite (fun hat => ?_) fun _ => Meets.ite (fun _ => ?_) fun _ => ?_
  · refine (read_global_definition_spec hs hoffset (hat ▸ hrest)).mono fun definition s' hitem record hrecord hkind => ?_
    obtain ⟨q, hne, hq, -, hrecords⟩ := hitem
    obtain ⟨tail, rfl⟩ := hq.head hrest hne
    obtain ⟨⟨_, hdefine⟩, -⟩ := (hrecords record hrecord).function hkind
    rw [hat] at hdefine
    have hhead := congrArg List.head? hdefine
    exact absurd (Option.some.inj hhead) (by decide)
  · refine Meets.bind (P := fun _ s' => ∃ bytes, Consumed s1 bytes s') ?_ fun keyword s2 h => ?_
    · exact (read_prefix_bytes_spec 6 s1).bind fun bytes s2 h => Meets.pure ⟨bytes, h.1⟩
    · obtain ⟨bytes, hread⟩ := h
      exact (scan_keyword_looked hoffset hread keyword).mono fun _ _ h record hrecord _ => h record hrecord
  · exact (scan_keyword_looked hoffset (Consumed.refl s1) _).mono fun _ _ h record hrecord _ => h record hrecord

/-- A line end is skipped. -/
theorem scan_item_line_end (hrest : s.rest = text "\n") (hs : s.header_start = none) (hoffset : s.offset + 1 < UInt64.size) :
    ∃ s', (scan_item (ascii '\n')).run s.look = .ok (none, s') ∧ s'.rest = [] ∧ s'.failure = s.failure := by
  have htake : stream.take.run s.look = .ok (some (ascii '\n'), { s with rest := [], offset := s.offset + 1, looked := false }) := by
    rw [stream.run_take]
    simp only [Contiguous.take, Contiguous.look, hrest, hs, charge, Option.any_none, Bool.false_eq_true, if_false, hoffset,
      if_true]
    rfl
  refine ⟨{ s with rest := [], offset := s.offset + 1, looked := false }, ?_, rfl, rfl⟩
  change (stream.take >>= fun _ => return none).run s.look = _
  rw [run_bind, htake]
  rfl

/-- A function that fills its file is still found with a line end behind it. -/
theorem index_function_line {q : List UInt8} {definition : LlvmDefinitionRecord} (h : index_bytes q = .ok [definition])
    (hstart : definition.range.start = 0) (hlength : definition.range.length.toNat = q.length)
    (hkind : definition.kind = .Function) (hfits : q.length + 1 < UInt64.size) :
    index_bytes (q ++ text "\n") = .ok [definition] := by
  obtain ⟨q', horigin⟩ := (scanned_of_index h).origin definition List.mem_cons_self
  have hslice := horigin.slice_eq.2
  obtain rfl : q' = q := by
    rw [← hslice, slice, hstart, hlength]
    simp
  obtain ⟨before, si, s', byte, rest, hbefore, hrest, hrun, hq, -, -, hne⟩ := horigin.placed
  have hbytes : q' = before ++ (q' ++ s'.rest) := by rw [← hq.rest, ← hbefore.rest]
  have hnil : before = [] ∧ s'.rest = [] := by
    have hlengths := congrArg List.length hbytes
    simp only [List.length_append] at hlengths
    exact ⟨List.eq_nil_of_length_eq_zero (by omega), List.eq_nil_of_length_eq_zero (by omega)⟩
  obtain ⟨rfl, hend⟩ := hnil
  have hsi : si.look = { rest := q', looked := true } := by
    rw [Contiguous.look, hbefore.failure, hbefore.header_start, hbefore.offset, hq.rest, hend, List.append_nil]
    rfl
  have hoffset : s'.offset = q'.length := by
    rw [hq.offset, hbefore.offset]
    simp
  have hrestq : q' = byte :: rest := by rw [← hrest, hq.rest, hend, List.append_nil]
  rw [hsi] at hrun
  have hlooked : s'.looked = false :=
    (scan_item_looked (s := { rest := q', looked := true }) rfl zero_lt_u64 hrestq).of_run_ok hrun definition rfl hkind
  -- The line end behind the function is not looked at before the function is complete.
  have hagrees : Agrees q'.length [] (text "\n") { rest := q', looked := true } { rest := q' ++ text "\n", looked := true } :=
    ⟨⟨q', by simp, rfl, by simp⟩, rfl, rfl, rfl⟩
  have hbeforeEnd : ¬ Past q'.length s' := by
    rintro (hpast | ⟨-, hlook⟩)
    · omega
    · rw [hlooked] at hlook
      cases hlook
  obtain ⟨t, hrun', hagrees'⟩ := hagrees.run_ok hrun hbeforeEnd
  obtain ⟨q'', hs', ht, -⟩ := hagrees'.common
  obtain rfl : q'' = [] := by simpa [hend] using hs'.symm
  have hfailure : t.failure = none := (failure_stable none).run _ _ _ _ rfl hrun'
  have hheader : t.header_start = none := by rw [hagrees'.header_start, hq.header_start, hbefore.header_start]
  obtain ⟨t', hskip, hrest', hfailure'⟩ := scan_item_line_end ht hheader (by rw [hagrees'.offset, hoffset]; exact hfits)
  have hfirst := scan_step (t := { rest := q' ++ text "\n" }) [] (by rw [hrestq]; rfl) hrun'
    (by rw [ht, List.length_append, hrestq]; simp +arith)
  have hsecond := scan_step (t := t) [definition] ht hskip (by rw [hrest', ht]; decide)
  rw [index_bytes_eq_contiguous, index_contiguous]
  change Except.map _ ((Scan.iter scan_turn []).run _) = _
  rw [hfirst]
  change Except.map _ ((Scan.iter scan_turn [definition]).run t) = _
  rw [hsecond, scan_end _ hrest' (hfailure'.trans hfailure)]
  rfl

/-- The bytes that an index finds one function in, and nothing else. -/
structure FunctionText (bytes : List UInt8) (raw_symbol : String) (definition : LlvmDefinitionRecord) : Prop where
  index : index_bytes bytes = .ok [definition]
  start : definition.range.start = 0
  length : definition.range.length.toNat = bytes.length
  kind : definition.kind = .Function
  raw_symbol : definition.raw_symbol = raw_symbol

/-- The range of a function in an index holds the text of that function. -/
theorem FunctionText.of_index {bytes : List UInt8} {definitions : List LlvmDefinitionRecord}
    (h : index_bytes bytes = .ok definitions) {definition : LlvmDefinitionRecord} (hmem : definition ∈ definitions)
    (hkind : definition.kind = .Function) :
    FunctionText (slice bytes definition.range) definition.raw_symbol (alone definition) := by
  obtain ⟨q, horigin⟩ := (scanned_of_index h).origin definition hmem
  rw [horigin.slice_eq.2]
  obtain ⟨before, si, s', byte, rest, -, -, -, -, -, hrecords, -⟩ := horigin.placed
  exact ⟨horigin.index_alone, rfl, hrecords.length, hkind, rfl⟩

/-- Functions joined by line ends are found one by one. -/
theorem index_joined {functions : List (List UInt8 × String)}
    (h : ∀ function ∈ functions, ∃ definition, FunctionText function.1 function.2 definition)
    (hfits : ((text "\n").intercalate (functions.map Prod.fst)).length < UInt64.size) :
    ∃ found, index_bytes ((text "\n").intercalate (functions.map Prod.fst)) = .ok found ∧
      found.map (fun definition => (definition.raw_symbol, definition.kind)) =
        functions.map fun function => (function.2, .Function) := by
  induction functions with
  | nil =>
    refine ⟨[], ?_, rfl⟩
    rw [index_bytes_eq_contiguous]
    rfl
  | cons function functions ih =>
    obtain ⟨⟨definition, hfunction⟩, hrest⟩ := List.forall_mem_cons.mp h
    cases functions with
    | nil =>
      refine ⟨[definition], ?_, ?_⟩
      · simpa using hfunction.index
      · simp [hfunction.raw_symbol, hfunction.kind]
    | cons next functions =>
      have hjoin : (text "\n").intercalate ((function :: next :: functions).map Prod.fst) =
          (function.1 ++ text "\n") ++ (text "\n").intercalate ((next :: functions).map Prod.fst) := by
        simp [List.intercalate]
      rw [hjoin, List.length_append, List.length_append] at hfits
      have hone : (text "\n").length = 1 := by decide
      obtain ⟨found, hfound, hrecords⟩ := ih hrest (by omega)
      have hline := index_function_line hfunction.index hfunction.start hfunction.length hfunction.kind (by omega)
      have hterminated : Terminated (function.1 ++ text "\n") := by
        have hlast : (text "\n").getLast? = some (ascii '\n') := by decide
        exact Or.inr (by rw [List.getLast?_append, hlast]; rfl)
      obtain ⟨shifted, hall, hshifted⟩ := index_behind hterminated (by rw [List.length_append]; omega) hline hfound
      refine ⟨[definition] ++ shifted, by rw [hjoin, hall], ?_⟩
      have hsame : shifted.map (fun definition => (definition.raw_symbol, definition.kind)) =
          found.map fun definition => (definition.raw_symbol, definition.kind) := by
        clear hfound hall hrecords
        induction hshifted with
        | nil => rfl
        | cons hrecord _ ih => rw [List.map_cons, List.map_cons, hrecord.raw_symbol, hrecord.kind, ih]
      rw [List.map_append, hsame, hrecords, List.map_cons, hfunction.raw_symbol, hfunction.kind]
      rfl

end optic.llvm_index
