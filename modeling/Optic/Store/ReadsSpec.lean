import Optic.Store.CapturesSpec

open rust file_system optic.records

namespace optic.store

variable {w w' : World} {path : Path}

/-- The errors of copying evidence, beyond those of reading a capture. -/
def Error.is_copy : Error → Bool
  | .WriteEvidence _ | .UnknownArtifact _ _ | .ArtifactRange _ _ _ _ => true
  | _ => false

/-- A program that only reads a capture. -/
abbrev Reading {α : Type} (p : Action Error α) : Prop := Reads (fun e => e.is_copy = false) p

theorem with_context_reading {α : Type} {E : IoError → Prop} {operation : String} {p : Action IoError α} (h : Reads E p) :
    Reading (with_context operation path p) := .map_err h fun _ => rfl

theorem check_reading {ok : Bool} {error : Error} (h : error.is_copy = false) : Reading (check ok error) := by
  apply Reads.lift
  intro e he
  cases ok with
  | true => cases he
  | false =>
    cases he
    exact h

theorem directory_exists_reading (path : Path) : Reading (directory_exists path) where
  only := directory_exists_read_only path
  silent := by
    apply Silent.attempt .perform
    rintro (source | metadata)
    · exact .ite .pure .fail
    · exact .ite .pure .fail
  determined := by
    intro w w' a a' htree h h'
    have hrun : directory_exists path w = (.ok a, (directory_exists path w).2) := Prod.ext h rfl
    have hrun' : directory_exists path w' = (.ok a', (directory_exists path w').2) := Prod.ext h' rfl
    have hfound := directory_exists_ok hrun
    rw [htree, directory_exists_ok hrun'] at hfound
    cases a <;> cases a' <;> first | rfl | cases hfound
  raises := by
    apply Raises.attempt
    rintro (source | metadata)
    · exact .ite .pure (.fail rfl)
    · exact .ite .pure (.fail rfl)

theorem directories_exist_reading (paths : List Path) : Reading (directories_exist paths) := by
  induction paths with
  | nil => exact .pure
  | cons path paths ih => exact .bind (directory_exists_reading path) fun _ => .ite ih .pure

/-- Where a capture is found, it is in its own directory. -/
theorem capture_directory_ok {self : Store} {id : CaptureId} {directory : Path}
    (h : self.capture_directory id w = (.ok directory, w')) : directory = self.completed id := by
  obtain ⟨_, w1, -, h⟩ := Action.bind_eq_ok_iff.mp h
  obtain ⟨_, w2, -, h⟩ := Action.bind_eq_ok_iff.mp h
  rw [Action.attempt_apply] at h
  rcases hrun : symlink_metadata (self.completed id) w2 with ⟨source | metadata, w3⟩
  · simp only [hrun, Action.fail_apply] at h
    cases h
  · simp only [hrun] at h
    obtain ⟨_, w4, -, h⟩ := Action.bind_eq_ok_iff.mp h
    exact (Action.pure_eq_ok_iff.mp h).1.symm

theorem capture_directory_reading (self : Store) (id : CaptureId) : Reading (self.capture_directory id) where
  only := by
    apply Within.bind (directories_exist_reading _).only
    refine fun _ => .bind .lift fun _ => .attempt (.symlink_metadata _) ?_
    rintro (source | metadata)
    · exact .fail
    · exact .bind .lift fun _ => .pure
  silent := by
    apply Silent.bind (directories_exist_reading _).silent
    refine fun _ => .bind .lift fun _ => .attempt .perform ?_
    rintro (source | metadata)
    · exact .fail
    · exact .bind .lift fun _ => .pure
  determined := by
    intro w w' a a' _ h h'
    have hrun : self.capture_directory id w = (.ok a, (self.capture_directory id w).2) := Prod.ext h rfl
    have hrun' : self.capture_directory id w' = (.ok a', (self.capture_directory id w').2) := Prod.ext h' rfl
    rw [capture_directory_ok hrun, capture_directory_ok hrun']
  raises := by
    apply Raises.bind (directories_exist_reading _).raises
    refine fun _ => .bind (check_reading rfl).raises fun _ => .attempt ?_
    rintro (source | metadata)
    · apply Raises.fail
      split <;> rfl
    · exact .bind (check_reading rfl).raises fun _ => .pure

theorem read_record_reading {α : Type} [Serde α] (path : Path) (limit : Nat) :
    Reading (read_record path limit : Action Error α) := by
  apply Reads.bind (with_context_reading (.symlink_metadata path))
  refine fun metadata => .bind (check_reading rfl) fun _ => .bind (check_reading rfl) fun _ => ?_
  refine .bind (with_context_reading (.open_file path)) fun rest => .bind (with_context_reading .read) fun bytes => ?_
  exact .bind (check_reading rfl) fun _ => .map_err (.lift fun _ _ => trivial) fun _ => rfl

theorem validate_artifacts_reading (directory : Path) (artifacts : List ArtifactRecord) :
    Reading (validate_artifacts directory artifacts) := by
  induction artifacts with
  | nil => exact .pure
  | cons artifact artifacts ih =>
    apply Reads.bind _ fun _ => ih
    apply Reads.bind (with_context_reading (.symlink_metadata _))
    exact fun _ => .bind (check_reading rfl) fun _ => check_reading rfl

theorem require_instances_file_reading (directory : Path) : Reading (require_instances_file directory) :=
  .bind (with_context_reading (.symlink_metadata _)) fun _ => .bind (check_reading rfl) fun _ => .pure

variable {Artifact : Type} [Serde (CaptureRecord Artifact)] [Serde InstanceManifest]

omit [Serde InstanceManifest] in
theorem read_capture_from_directory_reading (directory : Path) (id : CaptureId) :
    Reading (read_capture_from_directory directory id : Action Error (CaptureRecord Artifact)) :=
  .bind (read_record_reading _ _) fun _ => .bind (check_reading rfl) fun _ => .pure

theorem read_instances_reading (self : Store) (id : CaptureId) : Reading (self.read_instances Artifact id) := by
  apply Reads.bind (capture_directory_reading self id)
  intro directory
  apply Reads.bind (read_capture_from_directory_reading directory id)
  refine fun capture => .bind (require_instances_file_reading directory) fun instances_path => ?_
  apply Reads.bind (read_record_reading instances_path MAX_INSTANCES_BYTES)
  exact fun instances => .bind (check_reading rfl) fun _ => .bind (validate_artifacts_reading _ _) fun _ => .pure

end optic.store
