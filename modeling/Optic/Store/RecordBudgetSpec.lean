import Optic.Store.RecordBudget

open rust file_system streams

namespace optic.store.piecewise

namespace BoundedWriter

variable {self : BoundedWriter} {bytes : List UInt8}

/-- What a writer has accepted, with the budget that it has left. -/
structure Accepted (writer : BoundedWriter) (written : List UInt8) (limit : Nat) : Prop where
  content : writer.inner.accepted = written
  budget : written.length + writer.remaining = limit
  calm : Calm writer.inner.inner.answers

/-- A call within the budget takes a front of the bytes, and its length off the budget. -/
theorem write_within {content : List UInt8} {limit : Nat} (h : self.Accepted content limit)
    (hexceeded : self.exceeded = false) (hbytes : bytes ≠ []) (hfits : bytes.length ≤ self.remaining) :
    (∃ n next, self.write bytes = (.ok (n + 1), next) ∧ n + 1 ≤ bytes.length ∧
        next.Accepted (content ++ bytes.take (n + 1)) limit ∧ next.exceeded = false) ∨
      ∃ source next, self.write bytes = (.error source, next) ∧ is_interrupted source = true ∧
        next.Accepted content limit ∧ next.exceeded = false := by
  obtain ⟨hcalm, htakes⟩ := BufWriter.write_calm h.calm hbytes
  rcases hwrite : self.inner.write bytes with ⟨result, inner⟩
  rw [hwrite] at hcalm htakes
  have hbudget := h.budget
  cases htakes with
  | front n fits taken =>
    refine .inl ⟨n, { self with inner, remaining := self.remaining - (n + 1) }, ?_, fits, ⟨?_, ?_, hcalm⟩, hexceeded⟩
    · rw [write, if_neg (by omega), hwrite]
    · rw [taken, h.content]
    · rw [List.length_append, List.length_take_of_le fits]
      simp only
      omega
  | interrupted source retried same =>
    refine .inr ⟨source, { self with inner }, ?_, retried, ⟨same.trans h.content, hbudget, hcalm⟩, hexceeded⟩
    rw [write, if_neg (by omega), hwrite]

/-- A call over the budget is refused. -/
theorem write_over (hover : self.remaining < bytes.length) :
    self.write bytes = (.error ⟨.Other, "encoded record exceeds its byte limit"⟩, { self with exceeded := true }) := by
  rw [write, if_pos hover]

/-- A piece within the budget is written whole. -/
theorem write_all_within {content : List UInt8} {limit : Nat} (h : self.Accepted content limit)
    (hexceeded : self.exceeded = false) (hfits : bytes.length ≤ self.remaining) :
    ∃ next, streams.write_all self bytes = (.ok (), next) ∧ next.Accepted (content ++ bytes) limit ∧ next.exceeded = false := by
  fun_induction streams.write_all self bytes generalizing content with
  | case1 self => exact ⟨self, rfl, by rwa [List.append_nil], hexceeded⟩
  | case2 self bytes hmore next hwrite =>
    obtain ⟨n, other, hother, -⟩ | ⟨source, other, hother, -⟩ := write_within h hexceeded hmore hfits
    · cases hother.symm.trans hwrite
    · cases hother.symm.trans hwrite
  | case3 self bytes hmore n next hwrite ih =>
    obtain ⟨n, other, hother, hle, hnext, hstill⟩ | ⟨source, other, hother, -⟩ := write_within h hexceeded hmore hfits
    · cases hother.symm.trans hwrite
      have hbudget := h.budget
      have hbudget' := hnext.budget
      rw [List.length_append, List.length_take_of_le hle] at hbudget'
      obtain ⟨last, hlast, haccepted, hend⟩ := ih hnext hstill (by rw [List.length_drop]; omega)
      refine ⟨last, hlast, ?_, hend⟩
      rwa [List.append_assoc, List.take_append_drop] at haccepted
    · cases hother.symm.trans hwrite
  | case4 self bytes hmore source next hwrite hsource ih =>
    obtain ⟨n, other, hother, -⟩ | ⟨source, other, hother, -, hnext, hstill⟩ := write_within h hexceeded hmore hfits
    · cases hother.symm.trans hwrite
    · cases hother.symm.trans hwrite
      have hbudget := h.budget
      have hbudget' := hnext.budget
      exact ih hnext hstill (by omega)
  | case5 self bytes hmore source next hwrite hsource =>
    obtain ⟨n, other, hother, -⟩ | ⟨source, other, hother, hretried, -⟩ := write_within h hexceeded hmore hfits
    · cases hother.symm.trans hwrite
    · cases hother.symm.trans hwrite
      exact absurd hretried hsource

/-- A piece over the budget is refused before any of it is written. -/
theorem write_all_over (hover : self.remaining < bytes.length) :
    streams.write_all self bytes =
      (.error ⟨.Other, "encoded record exceeds its byte limit"⟩, { self with exceeded := true }) := by
  have hmore : bytes ≠ [] := by
    rw [← List.length_pos_iff]
    omega
  have hwrite : Write.write self bytes = _ := write_over hover
  rw [streams.write_all, dif_neg hmore]
  split
  · next h => cases hwrite.symm.trans h
  · next h => cases hwrite.symm.trans h
  · next h =>
    cases hwrite.symm.trans h
    rfl

/-- A record within the budget is written whole. -/
theorem write_pieces_within {pieces : List (List UInt8)} : ∀ {self : BoundedWriter} {content : List UInt8} {limit : Nat},
    self.Accepted content limit → self.exceeded = false → pieces.flatten.length ≤ self.remaining →
      ∃ next, self.write_pieces pieces = (.ok (), next) ∧ next.Accepted (content ++ pieces.flatten) limit ∧
        next.exceeded = false := by
  induction pieces with
  | nil =>
    intro self content limit h hexceeded _
    exact ⟨self, rfl, by rwa [List.flatten_nil, List.append_nil], hexceeded⟩
  | cons piece pieces ih =>
    intro self content limit h hexceeded hfits
    rw [List.flatten_cons, List.length_append] at hfits
    obtain ⟨mid, hpiece, hmid, hstill⟩ := write_all_within h hexceeded (show piece.length ≤ self.remaining by omega)
    have hbudget := h.budget
    have hbudget' := hmid.budget
    rw [List.length_append] at hbudget'
    obtain ⟨next, hrest, hnext, hend⟩ := ih hmid hstill (by omega)
    refine ⟨next, ?_, ?_, hend⟩
    · rw [write_pieces, hpiece]
      exact hrest
    · rwa [List.flatten_cons, ← List.append_assoc]

/-- A record over the budget stops at the first piece that goes over it. -/
theorem write_pieces_over {pieces : List (List UInt8)} : ∀ {self : BoundedWriter} {content : List UInt8} {limit : Nat},
    self.Accepted content limit → self.exceeded = false → self.remaining < pieces.flatten.length →
      ∃ source next written, self.write_pieces pieces = (.error source, next) ∧ next.Accepted written limit ∧
        next.exceeded = true := by
  induction pieces with
  | nil =>
    intro self content limit _ _ hover
    exact absurd hover (Nat.not_lt_zero _)
  | cons piece pieces ih =>
    intro self content limit h hexceeded hover
    by_cases hfits : piece.length ≤ self.remaining
    · obtain ⟨mid, hpiece, hmid, hstill⟩ := write_all_within h hexceeded hfits
      have hbudget := h.budget
      have hbudget' := hmid.budget
      rw [List.flatten_cons, List.length_append] at hover
      rw [List.length_append] at hbudget'
      obtain ⟨source, next, written, hrest, hnext, hend⟩ := ih hmid hstill (by omega)
      refine ⟨source, next, written, ?_, hnext, hend⟩
      rw [write_pieces, hpiece]
      exact hrest
    · have hpiece := write_all_over (Nat.lt_of_not_le hfits)
      refine ⟨⟨.Other, "encoded record exceeds its byte limit"⟩, { self with exceeded := true }, content, ?_,
        ⟨h.content, h.budget, h.calm⟩, rfl⟩
      rw [write_pieces, hpiece]

/-- A record that fits with its line end is written with it. -/
theorem Accepted.write_encoded_fits (path : Path) {limit : Nat} {pieces : List (List UInt8)} (h : self.Accepted [] limit)
    (hexceeded : self.exceeded = false) (hfits : pieces.flatten.length + 1 ≤ limit) :
    ∃ next, self.write_encoded path limit pieces none = (.ok (), next) ∧ next.inner.buffer = [] ∧
      next.inner.inner.written = pieces.flatten ++ text "\n" := by
  have hline : (text "\n").length = 1 := by decide
  have hstart := h.budget
  rw [List.length_nil] at hstart
  obtain ⟨encoded, hpieces, hencoded, hstill⟩ := write_pieces_within h hexceeded
    (show pieces.flatten.length ≤ self.remaining by omega)
  rw [List.nil_append] at hencoded
  have hbudget := hencoded.budget
  obtain ⟨ended, hend, haccepted, -⟩ := write_all_within hencoded hstill
    (show (text "\n").length ≤ encoded.remaining by omega)
  obtain ⟨flushed, hflush, hempty, hcontent, -⟩ := BufWriter.flush_calm haccepted.calm
  refine ⟨{ ended with inner := flushed }, ?_, hempty, ?_⟩
  · rw [write_encoded, hpieces]
    simp only [hstill, Bool.false_eq_true, if_false]
    rw [if_neg (by omega), hend]
    simp only [hflush]
  · rw [haccepted.content, BufWriter.accepted, hempty, List.append_nil] at hcontent
    exact hcontent

/-- A record that does not fit with its line end is refused, with less than that accepted. -/
theorem Accepted.write_encoded_over (path : Path) {limit : Nat} {pieces : List (List UInt8)} (h : self.Accepted [] limit)
    (hexceeded : self.exceeded = false) (hover : limit < pieces.flatten.length + 1) :
    ∃ next written, self.write_encoded path limit pieces none = (.error (.RecordTooLarge path limit (limit + 1)), next) ∧
      next.Accepted written limit := by
  have hstart := h.budget
  rw [List.length_nil] at hstart
  by_cases hfits : pieces.flatten.length ≤ self.remaining
  · obtain ⟨encoded, hpieces, hencoded, hstill⟩ := write_pieces_within h hexceeded hfits
    have hbudget := hencoded.budget
    rw [List.nil_append] at hbudget
    refine ⟨encoded, _, ?_, hencoded⟩
    rw [write_encoded, hpieces]
    simp only [hstill, Bool.false_eq_true, if_false]
    rw [if_pos (by omega)]
  · obtain ⟨source, encoded, written, hpieces, hencoded, hend⟩ := write_pieces_over h hexceeded (Nat.lt_of_not_le hfits)
    refine ⟨encoded, written, ?_, hencoded⟩
    rw [write_encoded, hpieces]
    simp only [hend, if_true]

end BoundedWriter

variable {α : Type} [Serde α] {path : Path} {limit : Nat}

theorem new_accepted {answers : List Answer} (hcalm : Calm answers) (limit : Nat) :
    BoundedWriter.Accepted ⟨{ inner := { answers } }, limit, false⟩ [] limit :=
  ⟨rfl, Nat.zero_add limit, hcalm⟩

/-- A record that fits in a calm file is the whole file, and is reported as written. -/
theorem write_record_fits {record : α} {pieces : List (List UInt8)} {answers : List Answer}
    (hserialize : Serde.serialize record = (pieces, none)) (hcalm : Calm answers)
    (hfits : pieces.flatten.length + 1 ≤ limit) :
    ∃ file, write_record path record limit (.ok { answers }) = (.ok (), some file) ∧
      file.written = pieces.flatten ++ text "\n" := by
  obtain ⟨writer, hwrite, hempty, hwritten⟩ := (new_accepted hcalm limit).write_encoded_fits path rfl hfits
  refine ⟨writer.inner.inner, ?_, hwritten⟩
  simp only [write_record, hserialize, hwrite]
  rw [BufWriter.flush_buf, dif_pos hempty]

/-- A record that does not fit is refused, and leaves no more than the budget in a calm file. -/
theorem write_record_over {record : α} {pieces : List (List UInt8)} {answers : List Answer}
    (hserialize : Serde.serialize record = (pieces, none)) (hcalm : Calm answers)
    (hover : limit < pieces.flatten.length + 1) :
    ∃ file, write_record path record limit (.ok { answers }) =
        (.error (.RecordTooLarge path limit (limit + 1)), some file) ∧ file.written.length ≤ limit := by
  obtain ⟨writer, written, hwrite, haccepted⟩ := (new_accepted hcalm limit).write_encoded_over path rfl hover
  obtain ⟨flushed, hflush, hempty, hcontent, -⟩ := BufWriter.flush_calm haccepted.calm
  refine ⟨flushed.inner, ?_, ?_⟩
  · simp only [write_record, hserialize, hwrite, hflush]
  · rw [haccepted.content, BufWriter.accepted, hempty, List.append_nil] at hcontent
    have hbudget := haccepted.budget
    rw [hcontent]
    omega

/-- However a source goes on, no reading goes further than one byte over the budget. -/
theorem read_bounded_record_position (events : List Event) :
    (read_bounded_record { events } path limit : Except Error α × Reader).2.position ≤ limit + 1 := by
  obtain ⟨next, hposition, -, hread⟩ := Reader.read_to_end_spec { events } (limit + 1)
  rw [Nat.zero_add] at hposition
  rcases hresult : Reader.read_to_end { events } (limit + 1) with ⟨result, reader⟩
  obtain ⟨-, rfl⟩ := Prod.mk.inj (hresult.symm.trans hread)
  rw [read_bounded_record, hresult]
  cases result with
  | error source => exact hposition
  | ok bytes =>
    simp only
    split <;> exact hposition

/-- A longer source is refused, at the byte over the budget. -/
theorem read_bounded_record_over {events : List Event} (hover : limit < (delivered events).length) :
    (read_bounded_record { events } path limit : Except Error α × Reader).1 =
      .error (.RecordTooLarge path limit (limit + 1)) := by
  obtain ⟨next, -, -, hread⟩ := Reader.read_to_end_spec { events } (limit + 1)
  have hlength : ((delivered events).take (limit + 1)).length = limit + 1 := List.length_take_of_le hover
  rw [if_pos (Nat.succ_le_of_lt hover)] at hread
  rw [read_bounded_record, hread]
  simp only [hlength, gt_iff_lt, Nat.lt_succ_self, if_true]

/-- A source within the budget is deserialized. -/
theorem read_bounded_record_fits {events : List Event} (hfits : (delivered events).length ≤ limit)
    (hfault : fault events = none) :
    (read_bounded_record { events } path limit : Except Error α × Reader).1 =
      (Serde.deserialize (delivered events)).mapError (.Json path) := by
  obtain ⟨next, -, -, hread⟩ := Reader.read_to_end_spec { events } (limit + 1)
  rw [if_neg (Nat.not_le_of_lt (Nat.lt_succ_of_le hfits))] at hread
  simp only [hfault] at hread
  rw [read_bounded_record, hread]
  simp only [gt_iff_lt, Nat.not_lt_of_le hfits, if_false]

/-- What a file had when it was inspected decides first. -/
theorem read_record_eq {metadata : Metadata} (hfile : metadata.is_file = true) (file : Reader) :
    (read_record path limit (.ok metadata) (.ok file) : Except Error α) =
      if limit < metadata.len then .error (.RecordTooLarge path limit metadata.len)
      else (read_bounded_record file path limit).1 := by
  by_cases hlong : limit < metadata.len
  · simp [read_record, Except.mapError, hfile, ensure, hlong, Nat.not_le_of_lt hlong]
  · simp [read_record, Except.mapError, hfile, ensure, hlong, Nat.le_of_not_lt hlong]

/-- A file that has or gets more than the budget is refused for its size. -/
theorem read_record_over {metadata : Metadata} (hfile : metadata.is_file = true) {events : List Event}
    (hover : limit < metadata.len ∨ limit < (delivered events).length) :
    ∃ actual, limit < actual ∧ (read_record path limit (.ok metadata) (.ok { events }) : Except Error α) =
      .error (.RecordTooLarge path limit actual) := by
  rw [read_record_eq hfile]
  by_cases hlong : limit < metadata.len
  · exact ⟨metadata.len, hlong, if_pos hlong⟩
  · rw [if_neg hlong]
    exact ⟨limit + 1, Nat.lt_succ_self limit, read_bounded_record_over (hover.resolve_left hlong)⟩

/-- A file that holds a record with its line end within the budget is read back. -/
theorem read_record_fits {record : α} {pieces : List (List UInt8)} (hserialize : Serde.serialize record = (pieces, none))
    (hfits : pieces.flatten.length + 1 ≤ limit) {metadata : Metadata}
    (hmetadata : metadata.entry = .file (pieces.flatten ++ text "\n")) {events : List Event}
    (hevents : delivered events = pieces.flatten ++ text "\n") (hfault : fault events = none) :
    read_record path limit (.ok metadata) (.ok { events }) = .ok record := by
  have hlength : (pieces.flatten ++ text "\n").length ≤ limit := by
    have hline : (text "\n").length = 1 := by decide
    rw [List.length_append]
    omega
  have hfile : metadata.is_file = true := by rw [Metadata.is_file, hmetadata]
  have hlen : metadata.len = (pieces.flatten ++ text "\n").length := by rw [Metadata.len, hmetadata]
  rw [read_record_eq hfile, hlen, if_neg (Nat.not_lt_of_le hlength), read_bounded_record_fits (hevents ▸ hlength) hfault,
    hevents, Serde.round_trip record pieces hserialize]
  rfl

/-- The writer and the reader of records share one budget, however a record is split into calls and
however the file cuts and interrupts them. What fits with its line end is the whole file and is
read back, what does not fit is refused, and a source over the budget is never read. -/
theorem record_budget (path : Path) (limit : Nat) (record : α) (pieces : List (List UInt8))
    (hserialize : Serde.serialize record = (pieces, none)) (answers : List Answer) (hcalm : Calm answers) :
    (pieces.flatten.length + 1 ≤ limit → ∃ file,
      write_record path record limit (.ok { answers }) = (.ok (), some file) ∧
        file.written = pieces.flatten ++ text "\n" ∧
        ∀ (metadata : Metadata) (events : List Event), metadata.entry = .file file.written →
          delivered events = file.written → fault events = none →
            read_record path limit (.ok metadata) (.ok { events }) = .ok record) ∧
    (limit < pieces.flatten.length + 1 → ∃ file,
      write_record path record limit (.ok { answers }) = (.error (.RecordTooLarge path limit (limit + 1)), some file) ∧
        file.written.length ≤ limit) ∧
    ∀ events : List Event,
      (limit < (delivered events).length → (read_bounded_record { events } path limit : Except Error α × Reader).1 =
        .error (.RecordTooLarge path limit (limit + 1))) ∧
      (read_bounded_record { events } path limit : Except Error α × Reader).2.position ≤ limit + 1 ∧
      ∀ metadata : Metadata, metadata.is_file = true → limit < metadata.len ∨ limit < (delivered events).length →
        ∃ actual, limit < actual ∧ (read_record path limit (.ok metadata) (.ok { events }) : Except Error α) =
          .error (.RecordTooLarge path limit actual) := by
  refine ⟨fun hfits => ?_, write_record_over hserialize hcalm, fun events => ?_⟩
  · obtain ⟨file, hwrite, hwritten⟩ := write_record_fits hserialize hcalm hfits
    refine ⟨file, hwrite, hwritten, fun metadata events hmetadata hevents hfault => ?_⟩
    exact read_record_fits hserialize hfits (hwritten ▸ hmetadata) (hevents.trans hwritten) hfault
  · exact ⟨read_bounded_record_over, read_bounded_record_position events,
      fun metadata hfile hover => read_record_over hfile hover⟩

theorem record_budget_null : ∃ file : Writer,
    @write_record Unit (.single () "null") [] () 5 (.ok { answers := [.accepts 0] }) = (.ok (), some file) ∧
      file.written = text "null" ++ text "\n" := by
  let : Serde Unit := .single () "null"
  have hcalm : Calm [.accepts 0] := by simp [Calm]
  obtain ⟨file, hwrite, hwritten, -⟩ := (record_budget [] 5 () [text "null"] rfl [.accepts 0] hcalm).1 (by decide)
  exact ⟨file, hwrite, hwritten⟩

end optic.store.piecewise
