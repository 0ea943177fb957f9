import Optic.Store.Captures
import Optic.Store.InitializeSpec

open rust file_system optic.records

namespace optic.store

variable {w w' : World} {tree : Tree} {path : Path} {self : Store}

theorem check_answers {ok : Bool} {error : Error} (h : ok = true) : Answers (check ok error) tree (.ok ()) := by
  rw [check, h]
  exact .lift

theorem capture_id_from_entry_answers {id : CaptureId} (h : tree path = some .dir) :
    Answers (capture_id_from_entry path id.value) tree (.ok id) := by
  refine .bind (.map_err (.symlink_metadata h)) (.bind (check_answers rfl) ?_)
  refine .bind (a := id.value) .lift (.map_err ?_)
  rw [CaptureId.parse_value]
  exact .lift

theorem validate_artifact_file_answers {artifact : ArtifactRecord} {bytes : List UInt8}
    (hfile : tree path = some (.file bytes)) (hlength : bytes.length = artifact.byte_len.toNat) :
    Answers (validate_artifact_file path artifact) tree (.ok ()) := by
  refine .bind (.map_err (.symlink_metadata hfile)) ?_
  exact .bind (check_answers rfl) (check_answers (decide_eq_true hlength))

theorem validate_artifact_file_ok {artifact : ArtifactRecord} (h : validate_artifact_file path artifact w = (.ok (), w')) :
    w'.tree = w.tree ∧ ∃ bytes, w.tree path = some (.file bytes) ∧ bytes.length = artifact.byte_len.toNat := by
  obtain ⟨metadata, w1, hrun, hchecks⟩ := Action.bind_eq_ok_iff.mp h
  obtain ⟨hentry, htree⟩ := symlink_metadata_ok (with_context_eq_ok_iff.mp hrun)
  obtain ⟨_, w2, htype, hlen⟩ := Action.bind_eq_ok_iff.mp hchecks
  obtain ⟨hfile, rfl⟩ := check_eq_ok_iff.mp htype
  obtain ⟨hlength, rfl⟩ := check_eq_ok_iff.mp hlen
  refine ⟨htree, ?_⟩
  rcases metadata with ⟨_ | bytes | _⟩
  · cases hfile
  · exact ⟨bytes, hentry, of_decide_eq_true hlength⟩
  · cases hfile

theorem validate_artifact_file_read_only (path : Path) (artifact : ArtifactRecord) :
    ReadOnly (validate_artifact_file path artifact) :=
  .bind (.map_err (.symlink_metadata path)) fun _ => .bind .lift fun _ => .lift

theorem validate_artifacts_read_only (directory : Path) (artifacts : List ArtifactRecord) :
    ReadOnly (validate_artifacts directory artifacts) := by
  induction artifacts with
  | nil => exact .pure
  | cons artifact artifacts ih => exact .bind (validate_artifact_file_read_only _ artifact) fun _ => ih

theorem validate_artifacts_answers {directory : Path} {files : ArtifactRecord → List UInt8} {artifacts : List ArtifactRecord}
    (h : ∀ artifact ∈ artifacts, tree (directory.join artifact.file_name) = some (.file (files artifact)) ∧
      (files artifact).length = artifact.byte_len.toNat) :
    Answers (validate_artifacts directory artifacts) tree (.ok ()) := by
  induction artifacts with
  | nil => exact .pure
  | cons artifact artifacts ih =>
    obtain ⟨⟨hfile, hlength⟩, hrest⟩ := List.forall_mem_cons.mp h
    exact .bind (validate_artifact_file_answers hfile hlength) (ih hrest)

theorem Holds.instances_file [Serde InstanceManifest] {instances : InstanceManifest} {directory : Path}
    (h : Holds tree (directory.join INSTANCES_FILE_NAME) instances MAX_INSTANCES_BYTES) :
    Answers (require_instances_file directory) tree (.ok (directory.join INSTANCES_FILE_NAME)) := by
  obtain ⟨pieces, -, hfile, -⟩ := h
  exact .bind (.map_err (.symlink_metadata hfile)) (.bind (check_answers rfl) .pure)

theorem Holds.capture_file {Artifact : Type} [Serde (CaptureRecord Artifact)] {capture : CaptureRecord Artifact}
    {directory : Path} (h : Holds tree (directory.join CAPTURE_FILE_NAME) capture MAX_HEADER_BYTES) :
    Answers (read_capture_from_directory directory capture.id) tree (.ok capture) :=
  .bind h.read_record (.bind (check_answers (by simp)) .pure)

/-- Every directory of a store exists. -/
def Store.Ready (self : Store) (tree : Tree) : Prop := ∀ path ∈ self.directories, tree path = some .dir

theorem Store.Ready.namespace_exists (h : self.Ready tree) {namespace_ : String}
    (hname : self.root.join namespace_ ∈ self.directories) :
    Answers (self.namespace_exists namespace_) tree (.ok true) := by
  have hanswer := self.namespace_exists_answers hname fun path hpath => .inr (h path hpath)
  rwa [h _ hname, h _ (by simp [Store.directories]), h _ (by simp [Store.directories]), decide_eq_true ⟨rfl, rfl, rfl⟩]
    at hanswer

theorem Store.Ready.capture_directory (hready : self.Ready tree) {id : CaptureId}
    (hdirectory : tree (self.completed id) = some .dir) :
    Answers (self.capture_directory id) tree (.ok (self.completed id)) := by
  refine .bind (hready.namespace_exists (by simp [Store.directories])) ?_
  exact .bind (check_answers rfl) (.attempt (.symlink_metadata hdirectory) (.bind (check_answers rfl) .pure))

/-- Without an entry for it, a capture is not found. -/
theorem Store.capture_directory_absent (h : ∀ path ∈ self.directories, tree path = none ∨ tree path = some .dir)
    {id : CaptureId} (habsent : tree (self.completed id) = none) :
    Answers (self.capture_directory id) tree (.error (.CaptureNotFound id)) := by
  refine .bind (self.namespace_exists_answers (by simp [directories]) h) ?_
  by_cases hexists : tree self.optic_directory = some .dir ∧ tree self.root = some .dir ∧
      tree (self.root.join "captures") = some .dir
  · refine .bind (check_answers (decide_eq_true hexists)) ?_
    exact .attempt (.symlink_metadata_absent habsent) .fail
  · rw [decide_eq_false hexists]
    exact .bind_error .lift

section

variable {Artifact : Type} [Serde (CaptureRecord Artifact)] [Serde InstanceManifest]

/-- A directory with the files of a capture, as publication leaves them. -/
structure Published (tree : Tree) (directory : Path) (capture : CaptureRecord Artifact) (instances : InstanceManifest)
    (files : ArtifactRecord → List UInt8) : Prop where
  located : tree directory = some .dir
  scope : capture.id = instances.capture_id
  header : Holds tree (directory.join CAPTURE_FILE_NAME) capture MAX_HEADER_BYTES
  manifest : Holds tree (directory.join INSTANCES_FILE_NAME) instances MAX_INSTANCES_BYTES
  artifacts : ∀ artifact ∈ instances.artifacts, tree (directory.join artifact.file_name) = some (.file (files artifact)) ∧
    (files artifact).length = artifact.byte_len.toNat

variable {capture : CaptureRecord Artifact} {instances : InstanceManifest} {files : ArtifactRecord → List UInt8}

namespace Published

variable (h : Published tree (self.completed capture.id) capture instances files)

include h

theorem read_capture (hready : self.Ready tree) : Answers (self.read_capture capture.id) tree (.ok capture) := by
  refine .bind (hready.capture_directory h.located) ?_
  exact .bind h.header.capture_file (.bind h.manifest.instances_file .pure)

theorem read_instances (hready : self.Ready tree) :
    Answers (self.read_instances Artifact capture.id) tree (.ok instances) := by
  refine .bind (hready.capture_directory h.located) ?_
  refine .bind h.header.capture_file (.bind h.manifest.instances_file ?_)
  refine .bind h.manifest.read_record (.bind (check_answers ?_) ?_)
  · rw [h.scope, decide_eq_true rfl]
  · exact .bind (validate_artifacts_answers h.artifacts) .pure

end Published

/-- The directory whose name is the ID of a completed capture is listed with its record. -/
theorem read_captures_answers {root : Path} {names : List OsString} {captures : List (CaptureRecord Artifact)}
    (h : List.Forall₂ (fun (name : OsString) capture => name = (capture.id.value : OsString) ∧ ∃ instances files,
      Published tree (root.join name) capture instances files) names captures) :
    Answers (Store.read_captures root names) tree (.ok captures) := by
  induction h with
  | nil => exact .pure
  | cons hcapture _ ih =>
    obtain ⟨rfl, instances, files, hcapture⟩ := hcapture
    refine .bind (.map_err .read) (.bind (capture_id_from_entry_answers hcapture.located) ?_)
    exact .bind hcapture.header.capture_file (.bind hcapture.manifest.instances_file (.bind ih .pure))

end

end optic.store
