import Optic.Store.RecordIo

open rust file_system

namespace optic.store

variable {w w' : World} {α : Type}

theorem with_context_eq_ok_iff {operation : String} {path : Path} {p : Action IoError α} {a : α} :
    with_context operation path p w = (.ok a, w') ↔ p w = (.ok a, w') := Action.map_err_eq_ok_iff

theorem with_context_answers {operation : String} {path : Path} {p : Action IoError α} {tree : Tree} {a : α}
    (h : Answers p tree (.ok a)) : Answers (with_context operation path p) tree (.ok a) := .map_err h

theorem check_eq_ok_iff {ok : Bool} {error : Error} : check ok error w = (.ok (), w') ↔ ok = true ∧ w = w' := by
  rw [check, Action.lift_eq_ok_iff, ensure_eq_ok_iff]

namespace BoundedWriter

/-- The file and the buffer of a writer hold `done` together. -/
def Wrote (self : BoundedWriter) (path : Path) (done : List UInt8) (tree : Tree) : Prop :=
  ∃ flushed, tree path = some (.file flushed) ∧ flushed ++ self.buffer = done

theorem flush_ok {self next : BoundedWriter} {path : Path} {done : List UInt8} (hwrote : self.Wrote path done w.tree)
    (h : self.flush path w = (.ok next, w')) :
    w'.tree path = some (.file done) ∧ next.buffer = [] ∧ next.remaining = self.remaining := by
  obtain ⟨flushed, hfile, rfl⟩ := hwrote
  unfold flush at h
  split at h
  · next hempty =>
    obtain ⟨rfl, rfl⟩ := Action.pure_eq_ok_iff.mp h
    exact ⟨by simpa [hempty] using hfile, hempty, rfl⟩
  · obtain ⟨_, w1, hwrite, h⟩ := Action.bind_eq_ok_iff.mp h
    obtain ⟨rfl, rfl⟩ := Action.pure_eq_ok_iff.mp h
    rw [write_file_ok (Action.map_err_eq_ok_iff.mp hwrite)]
    exact ⟨Tree.append_file _ hfile, rfl, rfl⟩

theorem write_through_ok {self next : BoundedWriter} {path : Path} {done bytes : List UInt8}
    (hempty : bytes.length ≥ BUFFER_BYTES → self.buffer = []) (hwrote : self.Wrote path done w.tree)
    (h : self.write_through path bytes w = (.ok next, w')) :
    next.Wrote path (done ++ bytes) w'.tree ∧ next.remaining = self.remaining := by
  obtain ⟨flushed, hfile, rfl⟩ := hwrote
  unfold write_through at h
  split at h
  · next hlong =>
    obtain ⟨_, w1, hwrite, h⟩ := Action.bind_eq_ok_iff.mp h
    obtain ⟨rfl, rfl⟩ := Action.pure_eq_ok_iff.mp h
    rw [write_file_ok (Action.map_err_eq_ok_iff.mp hwrite)]
    exact ⟨⟨_, Tree.append_file _ hfile, by simp [hempty hlong]⟩, rfl⟩
  · obtain ⟨rfl, rfl⟩ := Action.pure_eq_ok_iff.mp h
    exact ⟨⟨flushed, hfile, (List.append_assoc _ _ _).symm⟩, rfl⟩

theorem write_inner_ok {self next : BoundedWriter} {path : Path} {done bytes : List UInt8}
    (hwrote : self.Wrote path done w.tree) (h : self.write_inner path bytes w = (.ok next, w')) :
    next.Wrote path (done ++ bytes) w'.tree ∧ next.remaining = self.remaining := by
  unfold write_inner at h
  split at h
  · obtain ⟨rfl, rfl⟩ := Action.pure_eq_ok_iff.mp h
    obtain ⟨flushed, hfile, rfl⟩ := hwrote
    exact ⟨⟨flushed, hfile, (List.append_assoc _ _ _).symm⟩, rfl⟩
  split at h
  · obtain ⟨flushed, w1, hflush, h⟩ := Action.bind_eq_ok_iff.mp h
    obtain ⟨hfile, hempty, hremaining⟩ := flush_ok hwrote hflush
    have hflushed : flushed.Wrote path done w1.tree := ⟨done, hfile, by rw [hempty, List.append_nil]⟩
    have hthrough := write_through_ok (fun _ => hempty) hflushed h
    exact ⟨hthrough.1, hthrough.2.trans hremaining⟩
  · next hroom hfits =>
    refine write_through_ok (fun hlong => ?_) hwrote h
    rw [← List.length_eq_zero_iff]
    omega

theorem write_ok {self next : BoundedWriter} {path : Path} {done bytes : List UInt8}
    (hwrote : self.Wrote path done w.tree) (h : self.write path bytes w = (.ok next, w')) :
    next.Wrote path (done ++ bytes) w'.tree ∧ next.remaining + bytes.length = self.remaining := by
  unfold write at h
  split at h
  · cases h
  · next hfits =>
    obtain ⟨inner, w1, hinner, h⟩ := Action.bind_eq_ok_iff.mp h
    obtain ⟨rfl, rfl⟩ := Action.pure_eq_ok_iff.mp h
    obtain ⟨hbytes, hremaining⟩ := write_inner_ok hwrote hinner
    refine ⟨hbytes, ?_⟩
    simp only [hremaining]
    omega

theorem write_pieces_ok {path : Path} {pieces : List (List UInt8)} : ∀ {self next : BoundedWriter} {w : World}
    {done : List UInt8}, self.Wrote path done w.tree → self.write_pieces path pieces w = (.ok next, w') →
      next.Wrote path (done ++ pieces.flatten) w'.tree ∧ next.remaining + pieces.flatten.length = self.remaining := by
  induction pieces with
  | nil =>
    intro self next w done hwrote h
    obtain ⟨rfl, rfl⟩ := Action.pure_eq_ok_iff.mp h
    simpa using hwrote
  | cons piece pieces ih =>
    intro self next w done hwrote h
    obtain ⟨mid, w1, hpiece, h⟩ := Action.bind_eq_ok_iff.mp h
    obtain ⟨hmid, hremaining⟩ := write_ok hwrote hpiece
    obtain ⟨hnext, hrest⟩ := ih hmid h
    rw [List.flatten_cons, ← List.append_assoc, List.length_append]
    exact ⟨hnext, by omega⟩

/-- What was written completely is the record with its line end, within the budget. -/
theorem write_encoded_ok {self next : BoundedWriter} {path : Path} {limit : Nat} {pieces : List (List UInt8)}
    {failure : Option String} (hwrote : self.Wrote path [] w.tree)
    (h : self.write_encoded path limit pieces failure w = (.ok next, w')) :
    failure = none ∧ w'.tree path = some (.file (pieces.flatten ++ text "\n")) ∧
      pieces.flatten.length < self.remaining := by
  unfold write_encoded at h
  obtain ⟨encoded, w1, hpieces, hencode⟩ := Action.bind_eq_ok_iff.mp h
  obtain ⟨_, w2, hfailure, hcheck⟩ := Action.bind_eq_ok_iff.mp hencode
  obtain ⟨_, w3, hbudget, hline⟩ := Action.bind_eq_ok_iff.mp hcheck
  obtain ⟨ended, w4, hend, hflush⟩ := Action.bind_eq_ok_iff.mp hline
  obtain ⟨hresult, rfl⟩ := Action.lift_eq_ok_iff.mp hfailure
  obtain ⟨hremains, rfl⟩ := Action.lift_eq_ok_iff.mp hbudget
  obtain ⟨hencoded, hlength⟩ := write_pieces_ok hwrote (Action.map_err_eq_ok_iff.mp hpieces)
  obtain ⟨hended, -⟩ := write_ok hencoded (Action.map_err_eq_ok_iff.mp hend)
  obtain ⟨hfile, -, -⟩ := flush_ok hended (Action.map_err_eq_ok_iff.mp hflush)
  have hpositive : encoded.remaining ≠ 0 := by simpa using hremains
  refine ⟨?_, hfile, by omega⟩
  cases failure with
  | none => rfl
  | some message => cases hresult

theorem flush_within (self : BoundedWriter) (path : Path) : Within (· = path) (self.flush path) :=
  .ite .pure (.bind (.map_err (.write_file _ rfl)) fun _ => .pure)

theorem write_through_within (self : BoundedWriter) (path : Path) (bytes : List UInt8) :
    Within (· = path) (self.write_through path bytes) :=
  .ite (.bind (.map_err (.write_file _ rfl)) fun _ => .pure) .pure

theorem write_within (self : BoundedWriter) (path : Path) (bytes : List UInt8) :
    Within (· = path) (self.write path bytes) := by
  apply Within.ite .fail
  apply Within.bind _ fun _ => .pure
  apply Within.ite .pure
  apply Within.ite
  · exact .bind (self.flush_within path) fun _ => write_through_within _ path bytes
  · exact self.write_through_within path bytes

theorem write_pieces_within (path : Path) (pieces : List (List UInt8)) :
    ∀ self : BoundedWriter, Within (· = path) (self.write_pieces path pieces) := by
  induction pieces with
  | nil => exact fun _ => .pure
  | cons piece pieces ih => exact fun self => .bind (self.write_within path piece) ih

theorem write_encoded_within (self : BoundedWriter) (path : Path) (limit : Nat) (pieces : List (List UInt8))
    (failure : Option String) : Within (· = path) (self.write_encoded path limit pieces failure) := by
  apply Within.bind (.map_err (write_pieces_within path pieces self))
  intro encoded
  apply Within.bind .lift fun _ => ?_
  apply Within.bind .lift fun _ => ?_
  apply Within.bind (.map_err (encoded.write_within path _))
  exact fun ended => .map_err (ended.flush_within path)

end BoundedWriter

variable [Serde α]

/-- A file holds the complete encoding of a record, within a budget. -/
def Holds (tree : Tree) (path : Path) (record : α) (limit : Nat) : Prop :=
  ∃ pieces : List (List UInt8), Serde.serialize record = (pieces, none) ∧
    tree path = some (.file (pieces.flatten ++ text "\n")) ∧ pieces.flatten.length < limit

/-- A new record never touches another file. -/
theorem write_record_within (path : Path) (record : α) (limit : Nat) :
    Within (· = path) (write_record path record limit) := by
  refine Within.bind (.map_err (.create _ rfl)) fun _ => ?_
  refine Within.attempt (BoundedWriter.write_encoded_within _ path limit _ _) ?_
  rintro (⟨error, writer⟩ | _)
  · exact .attempt (writer.flush_within path) fun _ => .fail
  · exact .pure

/-- A written record takes a free name, and its file holds it completely. -/
theorem write_record_ok {path : Path} {record : α} {limit : Nat} (h : write_record path record limit w = (.ok (), w')) :
    w.tree path = none ∧ Holds w'.tree path record limit := by
  unfold write_record at h
  obtain ⟨_, w1, hcreate, h⟩ := Action.bind_eq_ok_iff.mp h
  obtain ⟨hfree, -, htree⟩ := create_ok (with_context_eq_ok_iff.mp hcreate)
  rcases hserialize : Serde.serialize record with ⟨pieces, failure⟩
  simp only [hserialize, Action.attempt_apply] at h
  rcases hwrite : BoundedWriter.write_encoded { remaining := limit } path limit pieces failure w1 with ⟨_ | writer, w2⟩
  · simp only [hwrite, BoundedWriter.drop_after, Action.attempt_apply, Action.fail_apply] at h
    cases h
  · simp only [hwrite, Action.pure_apply] at h
    cases h
    have hempty : w1.tree path = some (.file []) := by rw [htree, Tree.set_same]
    obtain ⟨rfl, hfile, hlength⟩ := BoundedWriter.write_encoded_ok ⟨[], hempty, rfl⟩ hwrite
    exact ⟨hfree, pieces, hserialize, hfile, hlength⟩

/-- A record that a file holds is read back. -/
theorem Holds.read_record {tree : Tree} {path : Path} {record : α} {limit : Nat} (h : Holds tree path record limit) :
    Answers (read_record path limit) tree (.ok record) := by
  obtain ⟨pieces, hserialize, hfile, hlength⟩ := h
  have hlength' : (pieces.flatten ++ text "\n").length ≤ limit := by
    have hline : (text "\n").length = 1 := by decide
    rw [List.length_append]
    omega
  apply Answers.bind (.map_err (.symlink_metadata hfile))
  apply Answers.bind (a := ())
  · exact Answers.lift
  apply Answers.bind (a := ())
  · have hmetadata : (!(({ entry := .file (pieces.flatten ++ text "\n") } : Metadata).len > limit : Bool)) = true := by
      simpa [Metadata.len] using hlength'
    rw [check, hmetadata]
    exact Answers.lift
  apply Answers.bind (.map_err (.open_file hfile))
  rw [read_bounded_record, List.take_of_length_le (Nat.le_succ_of_le hlength')]
  apply Answers.bind (.map_err .read)
  apply Answers.bind (a := ())
  · rw [check, show (!((pieces.flatten ++ text "\n").length > limit : Bool)) = true by simpa using hlength']
    exact Answers.lift
  rw [Serde.round_trip record pieces hserialize]
  exact .map_err .lift

end optic.store
