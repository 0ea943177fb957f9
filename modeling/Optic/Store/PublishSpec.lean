import Optic.Store.ArtifactsSpec
import Optic.Store.Publish

open rust file_system optic.records

namespace optic.store

variable {w w' : World} {tree : Tree}

theorem Holds.transfer {α : Type} [Serde α] {tree' : Tree} {path path' : Path} {record : α} {limit : Nat}
    (h : Holds tree path record limit) (hfile : tree' path' = tree path) : Holds tree' path' record limit := by
  obtain ⟨pieces, hserialize, hbytes, hlength⟩ := h
  exact ⟨pieces, hserialize, hfile.trans hbytes, hlength⟩

namespace Store

theorem require_new_read_only (self : Store) (id : CaptureId) : ReadOnly (self.require_new id) := by
  refine .attempt (.symlink_metadata _) ?_
  rintro (source | metadata)
  · exact .ite .pure .fail
  · exact .fail

theorem require_new_ok {self : Store} {id : CaptureId} (h : self.require_new id w = (.ok (), w')) :
    w.tree (self.completed id) = none := by
  rw [require_new, Action.attempt_apply] at h
  rcases hrun : symlink_metadata (self.completed id) w with ⟨source | metadata, w1⟩
  · simp only [hrun] at h
    split at h
    · next hkind => exact symlink_metadata_error hrun hkind
    · cases h
  · simp only [hrun] at h
    cases h

theorem reserve_within {Artifact : Type} (self : Store) (capture : CaptureRecord Artifact) (instances : InstanceManifest) :
    Within (fun path => (path ∈ self.directories ∨ path = self.ignore) ∨ path = self.staging capture.id)
      (self.reserve capture instances) := by
  refine .bind .lift fun _ => .bind (self.initialize_store_within.weaken fun _ => .inl) fun _ => ?_
  refine .bind ((self.require_new_read_only _).weaken fun _ => False.elim) fun _ => ?_
  exact .map_err (.create _ (.inr rfl))

end Store

variable {Artifact : Type} [Serde (CaptureRecord Artifact)] [Serde InstanceManifest]

/-- The files of a capture can be read wherever its directory is. The pointer is none of them. -/
theorem Published.transfer {tree' : Tree} {directory directory' : Path} {capture : CaptureRecord Artifact}
    {instances : InstanceManifest} {files : ArtifactRecord → List UInt8}
    (h : Published tree directory capture instances files) (hlocated : tree' directory' = tree directory)
    (hbelow : ∀ name, name ≠ ("candidate.json" : OsString) → tree' (directory'.join name) = tree (directory.join name)) :
    Published tree' directory' capture instances files where
  located := hlocated.trans h.located
  scope := h.scope
  header := h.header.transfer (hbelow _ (by simp [CAPTURE_FILE_NAME]))
  manifest := h.manifest.transfer (hbelow _ (by simp [INSTANCES_FILE_NAME]))
  artifacts artifact hartifact := by
    obtain ⟨hfile, hlength⟩ := h.artifacts artifact hartifact
    have hname : artifact.file_name ≠ "candidate.json" := artifact.file_name_ne (by decide)
    exact ⟨(hbelow _ (by simpa using hname)).trans hfile, hlength⟩

/-- The bytes of a file. -/
def bytes_at (tree : Tree) (path : Path) : List UInt8 :=
  match tree path with
  | some (.file bytes) => bytes
  | _ => []

/-- The input files of an artifact directory. -/
def input_files (tree : Tree) (artifact_directory : Path) (artifact : ArtifactRecord) : List UInt8 :=
  bytes_at tree (artifact_directory.join artifact.file_name)

variable [Serde CandidatePointer] {capture : CaptureRecord Artifact} {instances : InstanceManifest}
  {staging artifact_directory : Path}

namespace Store

theorem stage_within (staging : Path) (capture : CaptureRecord Artifact) (instances : InstanceManifest)
    (artifact_directory : Path) :
    Within (fun path => ∃ name, path = staging.join name) (stage staging capture instances artifact_directory) := by
  have hrecord {α : Type} [Serde α] (name : String) (record : α) (limit : Nat) :
      Within (fun path => ∃ name, path = staging.join name) (write_record (staging.join name) record limit) :=
    (write_record_within _ record limit).weaken fun path hpath => ⟨name, hpath⟩
  refine .bind (hrecord _ capture _) fun _ => .bind (hrecord _ instances _) fun _ => ?_
  refine .bind ((copy_artifacts_within _ _ _).weaken ?_) fun _ => hrecord _ _ _
  rintro _ ⟨artifact, -, rfl⟩
  exact ⟨_, rfl⟩

/-- A staged capture has the given records, the artifacts as they were before, and a pointer. -/
theorem stage_ok (hstaging : w.tree staging = some .dir) (hscope : capture.id = instances.capture_id)
    (h : stage staging capture instances artifact_directory w = (.ok (), w')) :
    Published w'.tree staging capture instances (input_files w.tree artifact_directory) ∧
      Holds w'.tree (staging.join "candidate.json") (CandidatePointer.new capture) MAX_HEADER_BYTES ∧
      ∀ artifact ∈ instances.artifacts, artifact_directory ≠ staging ∧
        w.tree (artifact_directory.join artifact.file_name) =
          some (.file (input_files w.tree artifact_directory artifact)) := by
  obtain ⟨_, w1, hheader, hrun⟩ := Action.bind_eq_ok_iff.mp h
  obtain ⟨_, w2, hmanifest, hrun⟩ := Action.bind_eq_ok_iff.mp hrun
  obtain ⟨_, w3, hcopy, hpointer⟩ := Action.bind_eq_ok_iff.mp hrun
  -- Each step leaves the files of the other steps alone.
  have hkept1 (path : Path) (hpath : path ≠ staging.join CAPTURE_FILE_NAME) : w1.tree path = w.tree path := by
    have := write_record_within _ capture MAX_HEADER_BYTES w path hpath
    rwa [hheader] at this
  have hkept2 (path : Path) (hpath : path ≠ staging.join INSTANCES_FILE_NAME) : w2.tree path = w1.tree path := by
    have := write_record_within _ instances MAX_INSTANCES_BYTES w1 path hpath
    rwa [hmanifest] at this
  have hkept3 (path : Path) (hpath : ∀ artifact : ArtifactRecord, path ≠ staging.join artifact.file_name) :
      w3.tree path = w2.tree path := by
    have := copy_artifacts_within artifact_directory staging instances w2 path fun ⟨artifact, _, heq⟩ => hpath artifact heq
    rwa [hcopy] at this
  have hkept4 (path : Path) (hpath : path ≠ staging.join "candidate.json") : w'.tree path = w3.tree path := by
    have := write_record_within _ (CandidatePointer.new capture) MAX_HEADER_BYTES w3 path hpath
    rwa [hpointer] at this
  have hname (artifact : ArtifactRecord) {name : String} (hhead : name.toList.head? ≠ some 'a') :
      staging.join name ≠ staging.join artifact.file_name := by
    rw [ne_eq, join_inj, not_and, OsString.utf8.injEq]
    exact fun _ heq => artifact.file_name_ne hhead heq.symm
  have hinput : ∀ artifact ∈ instances.artifacts, artifact_directory ≠ staging ∧ ∃ bytes,
      w.tree (artifact_directory.join artifact.file_name) = some (.file bytes) ∧
        bytes.length = artifact.byte_len.toNat ∧ w3.tree (staging.join artifact.file_name) = some (.file bytes) := by
    intro artifact hartifact
    obtain ⟨hne, bytes, hsource, hlength, hcopied⟩ := copy_artifacts_ok hcopy artifact hartifact
    refine ⟨hne, bytes, ?_, hlength, hcopied⟩
    rw [← hsource, hkept2 _ fun heq => hne (join_inj.mp heq).1, hkept1 _ fun heq => hne (join_inj.mp heq).1]
  have hfiles : ∀ artifact ∈ instances.artifacts, ∀ bytes,
      w.tree (artifact_directory.join artifact.file_name) = some (.file bytes) →
        input_files w.tree artifact_directory artifact = bytes := by
    intro artifact _ bytes hsource
    rw [input_files, bytes_at, hsource]
  refine ⟨⟨?_, hscope, ?_, ?_, ?_⟩, (write_record_ok hpointer).2, ?_⟩
  · rw [hkept4 _ (by simp [Path.join]), hkept3 _ (by simp [Path.join]), hkept2 _ (by simp [Path.join]),
      hkept1 _ (by simp [Path.join]), hstaging]
  · refine (write_record_ok hheader).2.transfer ?_
    rw [hkept4 _ (by simp [join_inj, CAPTURE_FILE_NAME]), hkept3 _ fun artifact => hname artifact (by decide),
      hkept2 _ (by simp [join_inj, CAPTURE_FILE_NAME, INSTANCES_FILE_NAME])]
  · refine (write_record_ok hmanifest).2.transfer ?_
    rw [hkept4 _ (by simp [join_inj, INSTANCES_FILE_NAME]), hkept3 _ fun artifact => hname artifact (by decide)]
  · intro artifact hartifact
    obtain ⟨-, bytes, hsource, hlength, hcopied⟩ := hinput artifact hartifact
    rw [hfiles artifact hartifact bytes hsource, hkept4 _ (hname artifact (by decide)).symm]
    exact ⟨hcopied, hlength⟩
  · intro artifact hartifact
    obtain ⟨hne, bytes, hsource, -, -⟩ := hinput artifact hartifact
    rw [hfiles artifact hartifact bytes hsource]
    exact ⟨hne, hsource⟩

/-- A pointer to a complete capture with its request key and token is a candidate. -/
theorem read_candidate_answers {self : Store} {files : ArtifactRecord → List UInt8} (hready : self.Ready tree)
    (hpointer : Holds tree (self.candidate_path capture.analysis.request_key) (CandidatePointer.new capture)
      MAX_HEADER_BYTES)
    (h : Published tree (self.completed capture.id) capture instances files) :
    Answers (self.read_candidate Artifact capture.analysis.request_key) tree (.ok (some (capture, instances))) := by
  refine .bind (hready.namespace_exists (by simp [directories])) (.ite_pos rfl ?_)
  refine .attempt hpointer.read_record (.bind (check_answers rfl) (.bind (check_answers (decide_eq_true rfl)) ?_))
  refine .attempt (hready.capture_directory h.located) ?_
  refine Answers.bind (a := (capture, instances)) ?_ .pure
  refine .bind h.header.capture_file (.bind (check_answers (decide_eq_true rfl)) ?_)
  refine .bind (check_answers (decide_eq_true rfl)) (.bind h.manifest.read_record (.bind (check_answers ?_) ?_))
  · rw [h.scope, decide_eq_true rfl]
  · exact .bind (validate_artifacts_answers h.artifacts) .pure

/-- A pointer whose capture never became visible is a miss. -/
theorem read_candidate_dangling {self : Store}
    (hdirectories : ∀ path ∈ self.directories, tree path = none ∨ tree path = some .dir)
    (hpointer : Holds tree (self.candidate_path capture.analysis.request_key) (CandidatePointer.new capture)
      MAX_HEADER_BYTES)
    (habsent : tree (self.completed capture.id) = none) :
    Answers (self.read_candidate Artifact capture.analysis.request_key) tree (.ok none) := by
  refine .bind (self.namespace_exists_answers (by simp [directories]) hdirectories) ?_
  by_cases hexists : tree self.optic_directory = some .dir ∧ tree self.root = some .dir ∧
      tree (self.root.join "candidates") = some .dir
  · refine .ite_pos (decide_eq_true hexists) ?_
    refine .attempt hpointer.read_record (.bind (check_answers rfl) (.bind (check_answers (decide_eq_true rfl)) ?_))
    exact .attempt (capture_directory_absent hdirectories habsent) .pure
  · exact .ite_neg (by simpa using hexists) .pure

/-- Without a pointer there is no candidate. -/
theorem read_candidate_absent {self : Store} {key : CaptureKey}
    (hdirectories : ∀ path ∈ self.directories, tree path = none ∨ tree path = some .dir)
    (habsent : tree (self.candidate_path key) = none) :
    Answers (self.read_candidate Artifact key) tree (.ok none) := by
  refine .bind (self.namespace_exists_answers (by simp [directories]) hdirectories) ?_
  by_cases hexists : tree self.optic_directory = some .dir ∧ tree self.root = some .dir ∧
      tree (self.root.join "candidates") = some .dir
  · refine .ite_pos (decide_eq_true hexists) ?_
    refine .attempt (r := .error (.Filesystem "open" (self.candidate_path key) not_found)) ?_ ?_
    · exact .bind_error (.map_err_error (.symlink_metadata_absent habsent))
    · exact .ite_pos rfl .pure
  · exact .ite_neg (by simpa using hexists) .pure

end Store

end optic.store
