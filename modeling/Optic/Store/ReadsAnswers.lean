import Optic.FileSystem.Settled
import Optic.Store.ReadsSpec

open rust file_system optic.records

namespace optic.store

variable {tree : Tree} {path : Path}

theorem check_settled (ok : Bool) (error : Error) : Settled (check ok error) := .lift

theorem with_context_settled {α : Type} {p : Action IoError α} (operation : String) (path : Path) (hp : Settled p) :
    Settled (with_context operation path p) := .map_err hp

theorem check_ok_iff {ok : Bool} {error : Error} : Answers (check ok error) tree (.ok ()) ↔ ok = true := by
  rw [check, Answers.lift_iff, eq_comm, ensure_eq_ok_iff]

theorem check_bind_ok_iff {β : Type} {ok : Bool} {error : Error} {f : Unit → Action Error β} {b : β} :
    Answers (check ok error >>= f) tree (.ok b) ↔ ok = true ∧ Answers (f ()) tree (.ok b) := by
  rw [Answers.bind_ok_iff (check_settled ok error)]
  constructor
  · rintro ⟨⟨⟩, hok, hf⟩
    exact ⟨check_ok_iff.mp hok, hf⟩
  · rintro ⟨hok, hf⟩
    exact ⟨(), check_ok_iff.mpr hok, hf⟩

theorem check_bind_error_iff {β : Type} {ok : Bool} {error error' : Error} {f : Unit → Action Error β} :
    Answers (check ok error >>= f) tree (.error error') ↔
      ok = false ∧ error' = error ∨ ok = true ∧ Answers (f ()) tree (.error error') := by
  rw [Answers.bind_error_iff (check_settled ok error)]
  cases ok with
  | false => simp [check, ensure, Answers.lift_iff]
  | true =>
    simp only [check, ensure, Answers.lift_iff, if_true, reduceCtorEq, false_and, false_or, true_and]
    constructor
    · rintro ⟨⟨⟩, hf⟩
      exact hf
    · intro hf
      exact ⟨(), hf⟩

theorem metadata_bind_ok_iff {β : Type} {operation : String} {f : Metadata → Action Error β} {b : β} :
    Answers (with_context operation path (symlink_metadata path) >>= f) tree (.ok b) ↔
      ∃ entry, tree path = some entry ∧ Answers (f ⟨entry⟩) tree (.ok b) := by
  rw [Answers.bind_ok_iff (with_context_settled operation path (.symlink_metadata path))]
  constructor
  · rintro ⟨⟨entry⟩, hentry, hf⟩
    exact ⟨entry, Answers.symlink_metadata_ok_iff.mp (Answers.map_err_ok_iff.mp hentry), hf⟩
  · rintro ⟨entry, hentry, hf⟩
    exact ⟨⟨entry⟩, .map_err (.symlink_metadata hentry), hf⟩

theorem directory_exists_settled (path : Path) : Settled (directory_exists path) := by
  apply Settled.attempt (.symlink_metadata path)
  rintro (source | metadata)
  · exact .ite .pure .fail
  · exact .ite .pure .fail

theorem directory_exists_ok_iff {found : Bool} :
    Answers (directory_exists path) tree (.ok found) ↔ tree path = if found then some .dir else none := by
  constructor
  · intro h
    exact directory_exists_ok (h { tree } rfl rfl)
  · intro h
    cases found with
    | true => exact .attempt (.symlink_metadata h) (.ite_pos rfl .pure)
    | false => exact .attempt (.symlink_metadata_absent h) (.ite_pos rfl .pure)

/-- Every directory of a path exists. -/
def Present (tree : Tree) (paths : List Path) : Prop := ∀ path ∈ paths, tree path = some .dir

/-- A directory of a path is absent, and every directory before it exists. -/
def Missing (tree : Tree) : List Path → Prop
  | [] => False
  | path :: paths => tree path = none ∨ tree path = some .dir ∧ Missing tree paths

theorem directories_exist_settled (paths : List Path) : Settled (directories_exist paths) := by
  induction paths with
  | nil => exact .pure
  | cons path paths ih => exact .bind (directory_exists_settled path) fun _ => .ite ih .pure

theorem directories_exist_raises (paths : List Path) :
    Raises (fun error => ∀ id, error ≠ .CaptureNotFound id) (directories_exist paths) := by
  induction paths with
  | nil => exact .pure
  | cons path paths ih =>
    refine .bind (.attempt ?_) fun _ => .ite ih .pure
    rintro (source | metadata)
    · exact .ite .pure (.fail (by simp))
    · exact .ite .pure (.fail (by simp))

theorem directories_exist_true_iff {paths : List Path} :
    Answers (directories_exist paths) tree (.ok true) ↔ Present tree paths := by
  induction paths with
  | nil => simp [directories_exist, Answers.pure_iff, Present]
  | cons path paths ih =>
    rw [directories_exist, Answers.bind_ok_iff (directory_exists_settled path), Present, List.forall_mem_cons]
    constructor
    · rintro ⟨found, hfound, hrest⟩
      cases found with
      | true => exact ⟨directory_exists_ok_iff.mp hfound, ih.mp hrest⟩
      | false => cases Answers.pure_iff.mp hrest
    · rintro ⟨hpath, hrest⟩
      exact ⟨true, directory_exists_ok_iff.mpr hpath, ih.mpr hrest⟩

theorem directories_exist_false_iff {paths : List Path} :
    Answers (directories_exist paths) tree (.ok false) ↔ Missing tree paths := by
  induction paths with
  | nil => simp [directories_exist, Answers.pure_iff, Missing]
  | cons path paths ih =>
    rw [directories_exist, Answers.bind_ok_iff (directory_exists_settled path), Missing]
    constructor
    · rintro ⟨found, hfound, hrest⟩
      cases found with
      | true => exact .inr ⟨directory_exists_ok_iff.mp hfound, ih.mp hrest⟩
      | false => exact .inl (directory_exists_ok_iff.mp hfound)
    · rintro (hpath | ⟨hpath, hrest⟩)
      · exact ⟨false, directory_exists_ok_iff.mpr hpath, .pure⟩
      · exact ⟨true, directory_exists_ok_iff.mpr hpath, ih.mpr hrest⟩

/-- The directories that lead to a namespace. -/
def Store.namespaces (self : Store) (namespace_ : String) : List Path :=
  [self.optic_directory, self.root, self.root.join namespace_]

/-- A file within its budget that is decoded to a record. -/
def Decodes {α : Type} [Serde α] (tree : Tree) (path : Path) (limit : Nat) (record : α) : Prop :=
  ∃ bytes, tree path = some (.file bytes) ∧ bytes.length ≤ limit ∧ Serde.deserialize bytes = .ok record

theorem Decodes.unique {α : Type} [Serde α] {limit : Nat} {record record' : α} (h : Decodes tree path limit record)
    (h' : Decodes tree path limit record') : record = record' := by
  obtain ⟨bytes, hfile, -, hdecode⟩ := h
  obtain ⟨bytes', hfile', -, hdecode'⟩ := h'
  rw [hfile] at hfile'
  cases hfile'
  rw [hdecode] at hdecode'
  exact Except.ok.inj hdecode'

theorem read_bounded_record_settled {α : Type} [Serde α] (rest : List UInt8) (path : Path) (limit : Nat) :
    Settled (read_bounded_record rest path limit : Action Error α) :=
  .bind (with_context_settled _ path .read) fun _ => .bind (check_settled _ _) fun _ => .map_err .lift

theorem read_record_settled {α : Type} [Serde α] (path : Path) (limit : Nat) :
    Settled (read_record path limit : Action Error α) := by
  apply Settled.bind (with_context_settled _ path (.symlink_metadata path))
  refine fun metadata => .bind (check_settled _ _) fun _ => .bind (check_settled _ _) fun _ => ?_
  exact .bind (with_context_settled _ path (.open_file path)) fun rest => read_bounded_record_settled rest path limit

theorem read_record_ok_iff {α : Type} [Serde α] {limit : Nat} {record : α} :
    Answers (read_record path limit) tree (.ok record) ↔ Decodes tree path limit record := by
  constructor
  · intro h
    obtain ⟨entry, hentry, hchecks⟩ := metadata_bind_ok_iff.mp h
    obtain ⟨htype, hlimited⟩ := check_bind_ok_iff.mp hchecks
    obtain ⟨hlength, hopened⟩ := check_bind_ok_iff.mp hlimited
    cases entry with
    | file bytes =>
      have hlimit : bytes.length ≤ limit := by simpa [Metadata.len] using hlength
      obtain ⟨rest, hrest, hbounded⟩ := (Answers.bind_ok_iff (with_context_settled _ path (.open_file path))).mp hopened
      cases hrest.unique (.map_err (.open_file hentry))
      obtain ⟨taken, htaken, hdecoded⟩ := (Answers.bind_ok_iff (with_context_settled _ path .read)).mp hbounded
      cases htaken.unique (.map_err .read)
      obtain ⟨-, hlifted⟩ := check_bind_ok_iff.mp hdecoded
      rw [List.take_of_length_le (Nat.le_succ_of_le hlimit)] at hlifted
      exact ⟨bytes, hentry, hlimit, (Answers.lift_iff.mp (Answers.map_err_ok_iff.mp hlifted)).symm⟩
    | dir => cases htype
    | other => cases htype
  · rintro ⟨bytes, hfile, hlimit, hdecode⟩
    apply metadata_bind_ok_iff.mpr ⟨_, hfile, _⟩
    apply check_bind_ok_iff.mpr ⟨rfl, _⟩
    apply check_bind_ok_iff.mpr ⟨by simpa [Metadata.len] using hlimit, _⟩
    apply Answers.bind (.map_err (.open_file hfile))
    apply Answers.bind (.map_err .read)
    rw [List.take_of_length_le (Nat.le_succ_of_le hlimit)]
    apply check_bind_ok_iff.mpr ⟨by simpa using hlimit, _⟩
    rw [hdecode]
    exact .map_err .lift

/-- Without failures, an error of the file system means that the file of a record is absent. -/
theorem read_record_filesystem {α : Type} [Serde α] {limit : Nat} {operation : String} {path' : Path} {source : IoError}
    (h : Answers (read_record path limit : Action Error α) tree (.error (.Filesystem operation path' source))) :
    tree path = none := by
  rcases (Answers.bind_error_iff (with_context_settled _ path (.symlink_metadata path))).mp h with hmissing | hfound
  · obtain ⟨_, hsource, heq⟩ := (Answers.map_err_error_iff (.symlink_metadata path)).mp hmissing
    cases heq
    have hentry := Answers.symlink_metadata_iff.mp hsource
    cases hpath : tree path with
    | none => rfl
    | some entry =>
      rw [hpath] at hentry
      cases hentry
  obtain ⟨metadata, hmetadata, hchecks⟩ := hfound
  have hentry := Answers.symlink_metadata_ok_iff.mp (Answers.map_err_ok_iff.mp hmetadata)
  obtain ⟨-, ⟨⟩⟩ | ⟨htype, hlimited⟩ := check_bind_error_iff.mp hchecks
  obtain ⟨-, ⟨⟩⟩ | ⟨-, hopened⟩ := check_bind_error_iff.mp hlimited
  obtain ⟨bytes, hfile⟩ : ∃ bytes, tree path = some (.file bytes) := by
    rcases metadata with ⟨_ | bytes | _⟩
    · cases htype
    · exact ⟨bytes, hentry⟩
    · cases htype
  rcases (Answers.bind_error_iff (with_context_settled _ path (.open_file path))).mp hopened with hopen | ⟨rest, -, hread⟩
  · cases hopen.unique (.map_err (.open_file hfile))
  rcases (Answers.bind_error_iff (with_context_settled _ path .read)).mp hread with hread | ⟨taken, -, hdecoded⟩
  · cases hread.unique (.map_err .read)
  obtain ⟨-, ⟨⟩⟩ | ⟨-, hlifted⟩ := check_bind_error_iff.mp hdecoded
  obtain ⟨_, -, heq⟩ := (Answers.map_err_error_iff .lift).mp hlifted
  cases heq

theorem validate_artifact_file_settled (path : Path) (artifact : ArtifactRecord) :
    Settled (validate_artifact_file path artifact) :=
  .bind (with_context_settled _ path (.symlink_metadata path)) fun _ => .bind (check_settled _ _) fun _ => check_settled _ _

theorem validate_artifacts_settled (directory : Path) (artifacts : List ArtifactRecord) :
    Settled (validate_artifacts directory artifacts) := by
  induction artifacts with
  | nil => exact .pure
  | cons artifact artifacts ih => exact .bind (validate_artifact_file_settled _ artifact) fun _ => ih

theorem require_instances_file_settled (directory : Path) : Settled (require_instances_file directory) :=
  .bind (with_context_settled _ _ (.symlink_metadata _)) fun _ => .bind (check_settled _ _) fun _ => .pure

/-- The manifest of a directory is required to be a file. -/
theorem require_instances_file_ok_iff {directory : Path} :
    Answers (require_instances_file directory) tree (.ok path) ↔
      path = directory.join INSTANCES_FILE_NAME ∧ ∃ bytes, tree (directory.join INSTANCES_FILE_NAME) = some (.file bytes) := by
  constructor
  · intro h
    obtain ⟨entry, hentry, hchecks⟩ := metadata_bind_ok_iff.mp h
    obtain ⟨htype, hpath⟩ := check_bind_ok_iff.mp hchecks
    cases entry with
    | file bytes => exact ⟨Except.ok.inj (Answers.pure_iff.mp hpath), bytes, hentry⟩
    | dir => cases htype
    | other => cases htype
  · rintro ⟨rfl, bytes, hfile⟩
    exact metadata_bind_ok_iff.mpr ⟨_, hfile, check_bind_ok_iff.mpr ⟨rfl, .pure⟩⟩

namespace Store

variable {self : Store} {id : CaptureId}

theorem namespace_exists_settled (self : Store) (namespace_ : String) : Settled (self.namespace_exists namespace_) :=
  directories_exist_settled _

theorem capture_directory_settled (self : Store) (id : CaptureId) : Settled (self.capture_directory id) := by
  apply Settled.bind (self.namespace_exists_settled "captures")
  refine fun _ => .bind (check_settled _ _) fun _ => .attempt (.symlink_metadata _) ?_
  rintro (source | metadata)
  · exact .fail
  · exact .bind (check_settled _ _) fun _ => .pure

/-- The completed namespace has a directory for a capture. -/
def Located (self : Store) (tree : Tree) (id : CaptureId) : Prop :=
  Present tree (self.namespaces "captures") ∧ tree (self.completed id) = some .dir

/-- The directories that lead to a capture lead to the pointers too, where these have one. -/
theorem Located.candidates {id : CaptureId} (h : self.Located tree id)
    (hcandidates : tree (self.root.join "candidates") = some .dir) : Present tree (self.namespaces "candidates") := by
  intro path hpath
  simp only [namespaces, List.mem_cons, List.not_mem_nil, or_false] at hpath
  rcases hpath with rfl | rfl | rfl
  · exact h.1 _ (by simp [namespaces])
  · exact h.1 _ (by simp [namespaces])
  · exact hcandidates

theorem capture_directory_ok_iff {directory : Path} :
    Answers (self.capture_directory id) tree (.ok directory) ↔ directory = self.completed id ∧ self.Located tree id := by
  constructor
  · intro h
    obtain ⟨found, hfound, hchecks⟩ := (Answers.bind_ok_iff (self.namespace_exists_settled "captures")).mp h
    obtain ⟨rfl, hattempt⟩ := check_bind_ok_iff.mp hchecks
    obtain ⟨result, hmetadata, hresult⟩ := (Answers.attempt_iff (.symlink_metadata _)).mp hattempt
    cases result with
    | error source => cases Answers.fail_iff.mp hresult
    | ok metadata =>
      obtain ⟨hdir, hdirectory⟩ := check_bind_ok_iff.mp hresult
      have hentry := Answers.symlink_metadata_ok_iff.mp hmetadata
      rw [of_decide_eq_true hdir] at hentry
      exact ⟨Except.ok.inj (Answers.pure_iff.mp hdirectory), directories_exist_true_iff.mp hfound, hentry⟩
  · rintro ⟨rfl, hpresent, hdir⟩
    apply Answers.bind (directories_exist_true_iff.mpr hpresent)
    exact .bind (check_ok_iff.mpr rfl) (.attempt (.symlink_metadata hdir) (.bind (check_ok_iff.mpr rfl) .pure))

/-- A capture is not found only where its namespace or its directory is absent. -/
theorem capture_directory_not_found {id' : CaptureId}
    (h : Answers (self.capture_directory id) tree (.error (.CaptureNotFound id'))) :
    Missing tree (self.namespaces "captures") ∨ tree (self.completed id) = none := by
  rcases (Answers.bind_error_iff (self.namespace_exists_settled "captures")).mp h with herror | ⟨found, hfound, hchecks⟩
  · exact absurd rfl (directories_exist_raises _ _ _ _ (herror { tree } rfl rfl) id')
  rcases check_bind_error_iff.mp hchecks with ⟨rfl, -⟩ | ⟨-, hattempt⟩
  · exact .inl (directories_exist_false_iff.mp hfound)
  obtain ⟨result, hmetadata, hresult⟩ := (Answers.attempt_iff (.symlink_metadata _)).mp hattempt
  cases result with
  | ok metadata =>
    obtain ⟨-, ⟨⟩⟩ | ⟨-, hpure⟩ := check_bind_error_iff.mp hresult
    cases Answers.pure_iff.mp hpure
  | error source =>
    have hentry := Answers.symlink_metadata_iff.mp hmetadata
    cases habsent : tree (self.completed id) with
    | none => exact .inr rfl
    | some entry =>
      rw [habsent] at hentry
      cases hentry

end Store

variable {Artifact : Type} [Serde (CaptureRecord Artifact)]

/-- The header that a capture's directory holds. -/
def Header (tree : Tree) (directory : Path) (capture : CaptureRecord Artifact) : Prop :=
  Decodes tree (directory.join CAPTURE_FILE_NAME) MAX_HEADER_BYTES capture

theorem read_capture_from_directory_settled (directory : Path) (id : CaptureId) :
    Settled (read_capture_from_directory directory id : Action Error (CaptureRecord Artifact)) :=
  .bind (read_record_settled _ _) fun _ => .bind (check_settled _ _) fun _ => .pure

theorem read_capture_from_directory_ok_iff {directory : Path} {id : CaptureId} {capture : CaptureRecord Artifact} :
    Answers (read_capture_from_directory directory id) tree (.ok capture) ↔
      Header tree directory capture ∧ capture.id = id := by
  rw [read_capture_from_directory, Answers.bind_ok_iff (read_record_settled _ _)]
  constructor
  · rintro ⟨decoded, hdecoded, hscope⟩
    obtain ⟨hid, hcapture⟩ := check_bind_ok_iff.mp hscope
    cases Answers.pure_iff.mp hcapture
    exact ⟨read_record_ok_iff.mp hdecoded, of_decide_eq_true hid⟩
  · rintro ⟨hheader, hid⟩
    exact ⟨capture, read_record_ok_iff.mpr hheader, check_bind_ok_iff.mpr ⟨decide_eq_true hid, .pure⟩⟩

namespace Store

variable {self : Store} {id : CaptureId}

/-- A capture is read where its directory holds its header and some manifest. -/
theorem read_capture_ok_iff {capture : CaptureRecord Artifact} : Answers (self.read_capture id) tree (.ok capture) ↔
    self.Located tree id ∧ Header tree (self.completed id) capture ∧ capture.id = id ∧
      ∃ bytes, tree ((self.completed id).join INSTANCES_FILE_NAME) = some (.file bytes) := by
  rw [read_capture, Answers.bind_ok_iff (self.capture_directory_settled id)]
  constructor
  · rintro ⟨directory, hdirectory, hread⟩
    obtain ⟨rfl, hlocated⟩ := capture_directory_ok_iff.mp hdirectory
    obtain ⟨decoded, hdecoded, hrest⟩ := (Answers.bind_ok_iff (read_capture_from_directory_settled _ id)).mp hread
    obtain ⟨path, hpath, hcapture⟩ := (Answers.bind_ok_iff (require_instances_file_settled _)).mp hrest
    cases Answers.pure_iff.mp hcapture
    obtain ⟨hheader, hid⟩ := read_capture_from_directory_ok_iff.mp hdecoded
    exact ⟨hlocated, hheader, hid, (require_instances_file_ok_iff.mp hpath).2⟩
  · rintro ⟨hlocated, hheader, hid, hmanifest⟩
    refine ⟨_, capture_directory_ok_iff.mpr ⟨rfl, hlocated⟩, ?_⟩
    apply Answers.bind (read_capture_from_directory_ok_iff.mpr ⟨hheader, hid⟩)
    exact .bind (require_instances_file_ok_iff.mpr ⟨rfl, hmanifest⟩) .pure

variable [Serde InstanceManifest]

/-- The manifest that a capture's directory holds, with its artifacts. -/
def Manifest (tree : Tree) (directory : Path) (id : CaptureId) (instances : InstanceManifest) : Prop :=
  Decodes tree (directory.join INSTANCES_FILE_NAME) MAX_INSTANCES_BYTES instances ∧ instances.capture_id = id ∧
    Answers (validate_artifacts directory instances.artifacts) tree (.ok ())

/-- A manifest is read where its capture's directory holds it and the capture's header. -/
theorem read_instances_ok_iff {instances : InstanceManifest} :
    Answers (self.read_instances Artifact id) tree (.ok instances) ↔
      self.Located tree id ∧ (∃ capture : CaptureRecord Artifact, Header tree (self.completed id) capture ∧ capture.id = id) ∧
        Manifest tree (self.completed id) id instances := by
  rw [read_instances, Answers.bind_ok_iff (self.capture_directory_settled id)]
  constructor
  · rintro ⟨directory, hdirectory, hread⟩
    obtain ⟨rfl, hlocated⟩ := capture_directory_ok_iff.mp hdirectory
    obtain ⟨capture, hcapture, hrest⟩ := (Answers.bind_ok_iff (read_capture_from_directory_settled _ id)).mp hread
    obtain ⟨path, hpath, hinstances⟩ := (Answers.bind_ok_iff (require_instances_file_settled _)).mp hrest
    obtain ⟨rfl, -⟩ := require_instances_file_ok_iff.mp hpath
    obtain ⟨decoded, hdecoded, hchecks⟩ := (Answers.bind_ok_iff (read_record_settled _ _)).mp hinstances
    obtain ⟨hscope, hvalid⟩ := check_bind_ok_iff.mp hchecks
    obtain ⟨⟨⟩, hartifacts, hpure⟩ := (Answers.bind_ok_iff (validate_artifacts_settled _ _)).mp hvalid
    cases Answers.pure_iff.mp hpure
    exact ⟨hlocated, ⟨capture, read_capture_from_directory_ok_iff.mp hcapture⟩, read_record_ok_iff.mp hdecoded,
      of_decide_eq_true hscope, hartifacts⟩
  · rintro ⟨hlocated, ⟨capture, hcapture⟩, hdecoded, hscope, hartifacts⟩
    refine ⟨_, capture_directory_ok_iff.mpr ⟨rfl, hlocated⟩, ?_⟩
    apply Answers.bind (read_capture_from_directory_ok_iff.mpr hcapture)
    have ⟨bytes, hfile, _⟩ := hdecoded
    apply Answers.bind (require_instances_file_ok_iff.mpr ⟨rfl, bytes, hfile⟩)
    apply Answers.bind (read_record_ok_iff.mpr hdecoded)
    exact check_bind_ok_iff.mpr ⟨decide_eq_true hscope, .bind hartifacts .pure⟩

end Store

end optic.store
