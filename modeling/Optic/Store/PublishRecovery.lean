import Optic.FileSystem.Directories
import Optic.Store.HistoryReads
import Optic.Store.HistorySpec
import Optic.Store.RetrySpec

open rust file_system optic.records

namespace optic.store

variable {tree : Tree} {path : Path}

namespace BoundedWriter

variable {self : BoundedWriter} {done : List UInt8}

theorem flush_completes (self : BoundedWriter) (path : Path) (tree : Tree) :
    ∃ next tree', Completes (self.flush path) tree next tree' [] := by
  unfold flush
  split
  · exact ⟨_, _, .pure⟩
  · exact ⟨_, _, .bind_silent (.map_err (.of_runs .write_file)) .pure⟩

theorem write_through_completes (self : BoundedWriter) (path : Path) (bytes : List UInt8) (tree : Tree) :
    ∃ next tree', Completes (self.write_through path bytes) tree next tree' [] := by
  unfold write_through
  split
  · exact ⟨_, _, .bind_silent (.map_err (.of_runs .write_file)) .pure⟩
  · exact ⟨_, _, .pure⟩

theorem write_inner_completes (self : BoundedWriter) (path : Path) (bytes : List UInt8) (tree : Tree) :
    ∃ next tree', Completes (self.write_inner path bytes) tree next tree' [] := by
  unfold write_inner
  split
  · exact ⟨_, _, .pure⟩
  split
  · obtain ⟨flushed, tree1, hflush⟩ := self.flush_completes path tree
    obtain ⟨next, tree2, hwrite⟩ := flushed.write_through_completes path bytes tree1
    exact ⟨next, tree2, .bind_silent hflush hwrite⟩
  · exact self.write_through_completes path bytes tree

theorem write_completes {bytes : List UInt8} (hfits : bytes.length ≤ self.remaining) (path : Path) (tree : Tree) :
    ∃ next tree', Completes (self.write path bytes) tree next tree' [] := by
  obtain ⟨inner, tree1, hinner⟩ := self.write_inner_completes path bytes tree
  unfold write
  rw [if_neg (Nat.not_lt.mpr hfits)]
  exact ⟨_, tree1, .bind_silent hinner .pure⟩

/-- Pieces within the budget are all written. -/
theorem write_pieces_completes {pieces : List (List UInt8)} : ∀ {self : BoundedWriter} {tree : Tree} {done : List UInt8},
    self.Wrote path done tree → pieces.flatten.length ≤ self.remaining →
      ∃ next tree', Completes (self.write_pieces path pieces) tree next tree' [] := by
  induction pieces with
  | nil => exact fun _ _ => ⟨_, _, .pure⟩
  | cons piece pieces ih =>
    intro self tree done hwrote hfits
    rw [List.flatten_cons, List.length_append] at hfits
    obtain ⟨mid, tree1, hpiece⟩ := write_completes (by omega : piece.length ≤ self.remaining) path tree
    obtain ⟨hmid, hremaining⟩ := write_ok (w := { tree }) hwrote (hpiece { tree } rfl rfl)
    obtain ⟨next, tree2, hrest⟩ := ih hmid (by omega)
    exact ⟨next, tree2, .bind_silent hpiece hrest⟩

theorem write_encoded_completes (self : BoundedWriter) {pieces : List (List UInt8)} (hwrote : self.Wrote path [] tree)
    (hfits : pieces.flatten.length < self.remaining) (limit : Nat) :
    ∃ next tree', Completes (self.write_encoded path limit pieces none) tree next tree' [] := by
  obtain ⟨encoded, tree1, hpieces⟩ := write_pieces_completes hwrote (Nat.le_of_lt hfits)
  obtain ⟨hencoded, hremaining⟩ := write_pieces_ok (w := { tree }) hwrote (hpieces { tree } rfl rfl)
  have hroom : (text "\n").length ≤ encoded.remaining := by
    rw [show (text "\n").length = 1 from rfl]
    omega
  obtain ⟨ended, tree2, hend⟩ := write_completes hroom path tree1
  obtain ⟨next, tree3, hflush⟩ := ended.flush_completes path tree2
  have hbudget : Answers (Action.lift (ensure (decide (encoded.remaining ≠ 0))
      ((Error.RecordTooLarge path limit (limit + 1), encoded) : Error × BoundedWriter))) tree1 (.ok ()) := by
    rw [ensure_eq_ok_iff.mpr (decide_eq_true (by omega))]
    exact .lift
  unfold write_encoded
  exact ⟨next, tree3, .bind_silent hpieces.map_err (.bind_silent (a := ()) (.of_answers .lift)
    (.bind_silent (.of_answers hbudget) (.bind_silent hend.map_err hflush.map_err)))⟩

end BoundedWriter

/-- A record has an encoding within a budget. -/
def Fits {α : Type} [Serde α] (record : α) (limit : Nat) : Prop :=
  ∃ pieces : List (List UInt8), Serde.serialize record = (pieces, none) ∧ pieces.flatten.length < limit

theorem Holds.fits {α : Type} [Serde α] {record : α} {limit : Nat} (h : Holds tree path record limit) : Fits record limit := by
  obtain ⟨pieces, hserialize, -, hlength⟩ := h
  exact ⟨pieces, hserialize, hlength⟩

/-- A record that fits is written under a free name. -/
theorem write_record_completes {α : Type} [Serde α] {record : α} {limit : Nat} (hfree : tree path = none)
    (hparent : tree path.dropLast = some .dir) (hfits : Fits record limit) :
    ∃ tree', Completes (write_record path record limit) tree () tree' [] := by
  obtain ⟨pieces, hserialize, hlength⟩ := hfits
  obtain ⟨next, tree', hencoded⟩ :=
    BoundedWriter.write_encoded_completes { remaining := limit } ⟨[], Tree.set_same tree path (.file []), rfl⟩ hlength limit
  unfold write_record
  simp only [hserialize]
  exact ⟨tree', .bind_silent (.map_err (.of_runs (.create _ hfree hparent))) (.attempt_ok hencoded .pure)⟩

/-- A copy of bytes that are there completes where each write does. -/
theorem copy_bytes_completes {write : List UInt8 → Action Error Unit}
    (hwrite : ∀ buffer tree, ∃ tree', Completes (write buffer) tree () tree' []) (rest : List UInt8) (remaining : Nat) :
    remaining ≤ rest.length → ∀ tree, ∃ tree', Completes (copy_bytes path write rest remaining) tree () tree' [] := by
  induction remaining using Nat.strongRecOn generalizing rest with
  | ind remaining ih =>
    intro hlength tree
    rw [copy_bytes]
    split
    · next hmore =>
      have hpositive : 0 < COPY_BUFFER_BYTES := by decide
      obtain ⟨tree1, hbuffer⟩ := hwrite (rest.take (min remaining COPY_BUFFER_BYTES)) tree
      obtain ⟨tree2, hloop⟩ := ih (remaining - min remaining COPY_BUFFER_BYTES) (by omega)
        (rest.drop (min remaining COPY_BUFFER_BYTES)) (by rw [List.length_drop]; omega) tree1
      refine ⟨tree2, .bind_silent (.map_err ?_) (.bind_silent hbuffer hloop)⟩
      rw [read_exact, if_pos (by omega)]
      exact .of_runs .read
    · exact ⟨tree, .pure⟩

theorem copy_artifact_completes {source destination : Path} {artifact : ArtifactRecord} {bytes : List UInt8}
    (hsource : tree source = some (.file bytes)) (hlength : bytes.length = artifact.byte_len.toNat)
    (hfree : tree destination = none) (hparent : tree destination.dropLast = some .dir) :
    ∃ tree', Completes (copy_artifact source destination artifact) tree () tree' [] := by
  have hne : source ≠ destination := by
    rintro rfl
    rw [hsource] at hfree
    cases hfree
  obtain ⟨tree1, hcopy⟩ : ∃ tree1, Completes (copy_bytes source
      (fun buffer => with_context "write artifact" destination (write_all destination buffer)) bytes artifact.byte_len.toNat)
      (tree.set destination (.file [])) () tree1 [] :=
    copy_bytes_completes (fun buffer tree => ⟨_, .map_err (.map_err (.of_runs .write_file))⟩) _ _ (Nat.le_of_eq hlength.symm) _
  have hkept : tree1 source = some (.file bytes) := by
    rw [hcopy.frame (copy_bytes_within (s := (· = destination)) (fun buffer => .map_err (.write_all buffer rfl)) _ _) hne,
      Tree.set_other _ hne, hsource]
  unfold copy_artifact
  refine ⟨tree1, .bind_silent (.of_answers (validate_artifact_file_answers hsource hlength)) ?_⟩
  refine .bind_silent (.map_err (.of_runs (.open_file hsource))) (.bind_silent (.map_err (.of_runs (.create _ hfree hparent))) ?_)
  exact .bind_silent hcopy (.of_answers (validate_artifact_file_answers hkept hlength))

/-- Artifacts that are there are copied to free names in a directory. -/
theorem copy_each_completes {input_directory staging : Path} (hapart : input_directory ≠ staging) :
    ∀ (artifacts : List ArtifactRecord) (tree : Tree), tree staging = some .dir →
      (∀ artifact ∈ artifacts, ∃ bytes, tree (input_directory.join artifact.file_name) = some (.file bytes) ∧
        bytes.length = artifact.byte_len.toNat) →
      (∀ artifact ∈ artifacts, tree (staging.join artifact.file_name) = none) →
      (artifacts.map ArtifactRecord.id).Nodup →
        ∃ tree', Completes (copy_each input_directory staging artifacts) tree () tree' []
  | [], tree, _, _, _, _ => ⟨tree, .pure⟩
  | artifact :: artifacts, tree, hlocated, hsources, hfree, hdistinct => by
    obtain ⟨hnew, hrest⟩ := List.nodup_cons.mp hdistinct
    obtain ⟨⟨bytes, hsource, hlength⟩, hsources⟩ := List.forall_mem_cons.mp hsources
    obtain ⟨hunused, hfree⟩ := List.forall_mem_cons.mp hfree
    have hparent : tree (staging.join artifact.file_name).dropLast = some .dir := by rwa [Path.join, List.dropLast_concat]
    obtain ⟨tree1, hcopy⟩ := copy_artifact_completes hsource hlength hunused hparent
    have hkept {path : Path} (hpath : path ≠ staging.join artifact.file_name) : tree1 path = tree path :=
      hcopy.frame (copy_artifact_within _ _ artifact) hpath
    have hlater : ∀ other ∈ artifacts, staging.join other.file_name ≠ staging.join artifact.file_name := by
      intro other hother heq
      rw [join_inj, OsString.utf8.injEq] at heq
      exact hnew (List.mem_map.mpr ⟨other, hother, ArtifactRecord.file_name_inj heq.2⟩)
    obtain ⟨tree2, hcopies⟩ := copy_each_completes hapart artifacts tree1
      ((hkept (by simp [Path.join])).trans hlocated)
      (fun other hother => by
        rw [hkept fun heq => hapart (join_inj.mp heq).1]
        exact hsources other hother)
      (fun other hother => (hkept (hlater other hother)).trans (hfree other hother)) hrest
    exact ⟨tree2, .bind_silent hcopy hcopies⟩

theorem copy_artifacts_completes {input_directory staging : Path} {instances : InstanceManifest}
    (hinput : tree input_directory = some .dir) (hlocated : tree staging = some .dir)
    (hsources : ∀ artifact ∈ instances.artifacts, input_directory ≠ staging ∧ ∃ bytes,
      tree (input_directory.join artifact.file_name) = some (.file bytes) ∧ bytes.length = artifact.byte_len.toNat)
    (hfree : ∀ artifact ∈ instances.artifacts, tree (staging.join artifact.file_name) = none) :
    ∃ tree', Completes (copy_artifacts input_directory staging instances) tree () tree' [] := by
  have hcopies : ∃ tree', Completes (copy_each input_directory staging instances.artifacts) tree () tree' [] := by
    cases hartifacts : instances.artifacts with
    | nil => exact ⟨tree, .pure⟩
    | cons artifact artifacts =>
      rw [← hartifacts]
      have hapart : input_directory ≠ staging := (hsources artifact (hartifacts ▸ List.mem_cons_self)).1
      exact copy_each_completes hapart _ tree hlocated (fun other hother => (hsources other hother).2) hfree
        instances.consistent.artifacts_distinct
  obtain ⟨tree', hcopies⟩ := hcopies
  have hcopied := copy_each_ok instances.consistent.artifacts_distinct (hcopies { tree } rfl rfl)
  have hfiles : ∀ artifact ∈ instances.artifacts,
      tree' (staging.join artifact.file_name) = some (.file (bytes_at tree' (staging.join artifact.file_name))) ∧
        (bytes_at tree' (staging.join artifact.file_name)).length = artifact.byte_len.toNat := by
    intro artifact hartifact
    obtain ⟨-, bytes, -, hlength, hfile⟩ := hcopied artifact hartifact
    change tree' _ = _ at hfile
    rw [bytes_at, hfile]
    exact ⟨rfl, hlength⟩
  unfold copy_artifacts
  exact ⟨tree', .bind_silent (.map_err (.of_answers (.symlink_metadata hinput))) (.bind_silent (.of_answers (check_answers rfl))
    (.bind_silent hcopies (.of_answers (validate_artifacts_answers hfiles))))⟩

namespace Store

/-- The tree of an initialized store with the staging directory of a capture. -/
def reserved (self : Store) (tree : Tree) (id : CaptureId) : Tree := (self.initialized tree).set (self.staging id) .dir

/-- Nothing is left of a staging directory that is gone. -/
def Tidy (self : Store) (tree : Tree) : Prop :=
  ∀ id name, tree (self.staging id) = none → tree ((self.staging id).join name) = none

variable {self : Store} {id : CaptureId}

theorem staging_not_directory (self : Store) (id : CaptureId) : self.staging id ∉ self.directories := by
  simp [directories, staging, root, Path.join]

theorem staging_ne_ignore (self : Store) (id : CaptureId) : self.staging id ≠ self.ignore := by
  simp [ignore, staging, root, Path.join]

theorem staged_not_directory (self : Store) (id : CaptureId) (name : OsString) : (self.staging id).join name ∉ self.directories := by
  simp [directories, staging, root, Path.join]

theorem staged_ne_ignore (self : Store) (id : CaptureId) (name : OsString) : (self.staging id).join name ≠ self.ignore := by
  simp [ignore, staging, root, Path.join]

theorem completed_not_directory (self : Store) (id : CaptureId) : self.completed id ∉ self.directories := by
  simp [directories, completed, root, Path.join]

theorem completed_ne_ignore (self : Store) (id : CaptureId) : self.completed id ≠ self.ignore := by
  simp [ignore, completed, root, Path.join]

/-- What keeps the staging directories and what is in them, or removes some of it, keeps a store tidy. -/
theorem Tidy.kept {tree' : Tree} (h : self.Tidy tree) (hstaging : ∀ id, tree' (self.staging id) = tree (self.staging id))
    (hstaged : ∀ id name, tree' ((self.staging id).join name) = tree ((self.staging id).join name) ∨
      tree' ((self.staging id).join name) = none) : self.Tidy tree' := by
  intro id name hgone
  rcases hstaged id name with hsame | hnone
  · exact hsame.trans (h id name ((hstaging id).symm.trans hgone))
  · exact hnone

theorem Tidy.reserve {Artifact : Type} (capture : CaptureRecord Artifact) (instances : InstanceManifest) :
    Triple self.Tidy (self.reserve capture instances)
      (fun _ tree => self.Tidy tree ∧ tree (self.staging capture.id) = some .dir) self.Tidy := by
  refine .bind (.lift (Q := fun _ => self.Tidy) (fun _ _ _ h => h) fun _ h => h) fun _ => ?_
  refine .bind (M := fun _ => self.Tidy) (.within self.initialize_store_within fun tree tree' hkept h => ?_) fun _ => ?_
  · refine h.kept (fun id => hkept _ ?_) fun id name => .inl (hkept _ ?_)
    · exact not_or.mpr ⟨self.staging_not_directory id, self.staging_ne_ignore id⟩
    · exact not_or.mpr ⟨self.staged_not_directory id name, self.staged_ne_ignore id name⟩
  refine .bind (M := fun _ => self.Tidy) (.read_only (self.require_new_read_only capture.id) fun _ _ _ h _ => h) fun _ => ?_
  refine .map_err (.create fun tree h _ _ => ⟨fun id name hgone => ?_, Tree.set_same _ _ _⟩)
  have hstaged : (self.staging id).join name ≠ self.staging capture.id := by simp [staging, Path.join]
  by_cases heq : self.staging id = self.staging capture.id
  · rw [heq, Tree.set_same] at hgone
    cases hgone
  · rw [Tree.set_other _ heq] at hgone
    rw [Tree.set_other _ hstaged]
    exact h id name hgone

section

variable {Artifact : Type} {capture : CaptureRecord Artifact} {instances : InstanceManifest} {w' : World}

/-- In a workspace where a store can be initialized, a capture gets the staging directory that is not in use. -/
theorem reserve_completes (hscope : capture.id = instances.capture_id) (hinitializable : self.Initializable tree)
    (hnew : tree (self.completed capture.id) = none) (hunstaged : tree (self.staging capture.id) = none) :
    Completes (self.reserve capture instances) tree () (self.reserved tree capture.id) [] := by
  obtain ⟨count, -, hphase⟩ := hinitializable.phase
  have hnew : self.initialized tree (self.completed capture.id) = none := by
    rw [self.initialized_other tree (self.completed_not_directory _) (self.completed_ne_ignore _), hnew]
  have hunstaged : self.initialized tree (self.staging capture.id) = none := by
    rw [self.initialized_other tree (self.staging_not_directory _) (self.staging_ne_ignore _), hunstaged]
  have hparent : self.initialized tree (self.staging capture.id).dropLast = some .dir := by
    rw [staging, Path.join, List.dropLast_concat]
    exact initialized_directory tree (by simp [directories])
  have hrequired : Answers (self.require_new capture.id) (self.initialized tree) (.ok ()) :=
    .attempt (.symlink_metadata_absent hnew) (.ite_pos rfl .pure)
  unfold reserve
  exact .bind_silent (.of_answers (check_answers (decide_eq_true hscope))) (.bind_silent (.of_runs hphase.runs)
    (.bind_silent (.of_answers hrequired) (.map_err (.of_runs (.create _ hunstaged hparent)))))

/-- What a reservation has found, where nothing fails. -/
theorem reserve_ok (h : self.reserve capture instances { tree } = (.ok (), w')) :
    capture.id = instances.capture_id ∧ self.Initializable tree ∧ tree (self.completed capture.id) = none ∧
      tree (self.staging capture.id) = none ∧ w'.tree = self.reserved tree capture.id := by
  obtain ⟨_, w1, hcheck, hrest⟩ := Action.bind_eq_ok_iff.mp h
  obtain ⟨hscope, rfl⟩ := check_eq_ok_iff.mp hcheck
  obtain ⟨_, w2, hinitialize, hrest⟩ := Action.bind_eq_ok_iff.mp hrest
  have hinitializable := initializable_of_ok hinitialize
  rw [hinitializable.unfailing] at hinitialize
  cases hinitialize
  obtain ⟨_, w3, hrequire, hcreate⟩ := Action.bind_eq_ok_iff.mp hrest
  have hnew := require_new_ok hrequire
  change self.initialized tree _ = none at hnew
  have hkept := (self.require_new_read_only capture.id).tree { tree := self.initialized tree }
  rw [hrequire] at hkept
  change w3.tree = self.initialized tree at hkept
  obtain ⟨hunstaged, -, htree⟩ := create_ok (with_context_eq_ok_iff.mp hcreate)
  rw [hkept] at hunstaged htree
  rw [self.initialized_other tree (self.completed_not_directory _) (self.completed_ne_ignore _)] at hnew
  rw [self.initialized_other tree (self.staging_not_directory _) (self.staging_ne_ignore _)] at hunstaged
  exact ⟨of_decide_eq_true hscope, hinitializable, hnew, hunstaged, htree⟩

end

theorem reserved_directory {path : Path} (h : path ∈ self.directories) : self.reserved tree id path = some .dir := by
  have hne : path ≠ self.staging id := fun heq => self.staging_not_directory _ (heq ▸ h)
  rw [reserved, Tree.set_other _ hne, initialized_directory _ h]

theorem reserved_other {path : Path} (hstaging : path ≠ self.staging id) (hdirectory : path ∉ self.directories)
    (hignore : path ≠ self.ignore) : self.reserved tree id path = tree path := by
  rw [reserved, Tree.set_other _ hstaging, self.initialized_other tree hdirectory hignore]

/-- A new staging directory is empty. -/
theorem Tidy.reserved (h : self.Tidy tree) (hunstaged : tree (self.staging id) = none) (name : OsString) :
    self.reserved tree id ((self.staging id).join name) = none := by
  rw [reserved_other (by simp [Path.join]) (self.staged_not_directory id name) (self.staged_ne_ignore id name)]
  exact h id name hunstaged

/-- A reservation adds no file but the ignore file. -/
theorem reserved_file (hinitializable : self.Initializable tree) (hunstaged : tree (self.staging id) = none) {path : Path}
    (hignore : path ≠ self.ignore) {bytes : List UInt8} :
    self.reserved tree id path = some (.file bytes) ↔ tree path = some (.file bytes) := by
  by_cases hstaging : path = self.staging id
  · rw [hstaging, reserved, Tree.set_same, hunstaged]
    exact iff_of_false nofun nofun
  by_cases hdirectory : path ∈ self.directories
  · rw [reserved_directory hdirectory]
    rcases hinitializable.available path hdirectory with hfree | hdir
    · rw [hfree]
      exact iff_of_false nofun nofun
    · rw [hdir]
  · rw [reserved_other hstaging hdirectory hignore]

theorem artifact_ne_ignore (self : Store) (directory : Path) (artifact : ArtifactRecord) :
    directory.join artifact.file_name ≠ self.ignore := by
  rw [ignore, ne_eq, join_inj, not_and]
  exact fun _ hname => artifact.file_name_ne (by decide) (OsString.utf8.inj hname)

variable {Artifact : Type} [Serde (CaptureRecord Artifact)] [Serde InstanceManifest] [Serde CandidatePointer]
  {capture : CaptureRecord Artifact} {instances : InstanceManifest} {artifact_directory : Path}

/-- Whatever fails in it, a publication leaves a store tidy. -/
theorem Tidy.publish (capture : CaptureRecord Artifact) (instances : InstanceManifest) (artifact_directory : Path) :
    Triple self.Tidy (self.publish capture instances artifact_directory) (fun _ => self.Tidy) self.Tidy := by
  refine .bind (M := fun _ => self.Tidy) (.bind (Tidy.reserve capture instances) fun _ => .bind (M := fun _ => self.Tidy) ?_ fun _ => ?_)
    fun _ => ?_
  · refine (Triple.within (stage_within _ capture instances artifact_directory) fun tree tree' hkept h => ?_).weaken
      (fun _ h => h) (fun _ _ h => h.1) fun _ h => h.1
    have hlocated : tree' (self.staging capture.id) = some .dir := by
      rw [hkept, h.2]
      rintro ⟨name, heq⟩
      simp [Path.join] at heq
    refine ⟨fun id name hgone => ?_, hlocated⟩
    by_cases heq : self.staging id = self.staging capture.id
    · rw [heq, hlocated] at hgone
      cases hgone
    · have hsame : tree' (self.staging id) = tree (self.staging id) := by
        apply hkept
        rintro ⟨name, heq⟩
        simp [staging, Path.join] at heq
      have hother : tree' ((self.staging id).join name) = tree ((self.staging id).join name) := by
        apply hkept
        rintro ⟨other, hother⟩
        exact heq (join_inj.mp hother).1
      rw [hother]
      exact h.1 id name (hsame.symm.trans hgone)
  · refine .map_err (.rename fun tree h => h.kept (fun id => ?_) fun id name => ?_)
    · apply Tree.move_apart
      · simp [candidate_path, staging, Path.join, List.prefix_append_right_inj]
      · apply not_prefix_of_length
        simp [staging, Path.join]
    · by_cases heq : (self.staging capture.id).join "candidate.json" = (self.staging id).join name
      · refine .inr ?_
        rw [← heq, Tree.move, if_neg, if_pos List.prefix_rfl]
        simp [candidate_path, staging, Path.join, List.prefix_append_right_inj]
      · refine .inl (Tree.move_apart ?_ ?_)
        · simp [candidate_path, staging, Path.join, List.prefix_append_right_inj]
        · intro hbelow
          exact heq (hbelow.eq_of_length (by simp [staging, Path.join]))
  · refine .map_err (.rename fun tree h id name hgone => ?_)
    have hapart (path : Path) : ¬ self.completed capture.id <+: self.staging id ++ path := by
      simp [completed, staging, Path.join, List.prefix_append_right_inj]
    by_cases heq : self.staging id = self.staging capture.id
    · rw [heq, Tree.move, if_neg (heq ▸ hapart [name])]
      exact if_pos (List.prefix_append _ _)
    · have hother (path : Path) : ¬ self.staging capture.id <+: self.staging id ++ path := by
        intro hbelow
        apply heq
        simpa [staging, Path.join, List.prefix_append_right_inj, eq_comm] using hbelow
      rw [Path.join, Tree.move_apart (hapart [name]) (hother [name])]
      apply h id name
      rw [← hgone]
      have hsame : tree.move (self.staging capture.id) (self.completed capture.id) (self.staging id ++ []) = _ :=
        Tree.move_apart (hapart []) (hother [])
      rw [List.append_nil] at hsame
      exact hsame.symm

end Store

section

variable {Artifact : Type} [Serde (CaptureRecord Artifact)] [Serde InstanceManifest] [Serde CandidatePointer] {store : Store}
  {attempts : List (Attempt Artifact)}

/-- No history leaves anything of a staging directory that is gone. -/
theorem History.tidy (h : History store attempts tree) : store.Tidy tree := by
  induction h with
  | start hunopened =>
    intro id name _
    exact hunopened.2 _ (by simp [Store.staging, Path.join])
  | elsewhere _ hkept ih =>
    refine ih.kept (fun id => hkept _ ?_) fun id name => .inl (hkept _ ?_)
    · simp [Store.staging, Store.root, Path.join]
    · simp [Store.staging, Store.root, Path.join]
  | @initialized _ tree _ schedule ih =>
    have hkept := store.initialize_store_within { tree, schedule }
    refine ih.kept (fun id => hkept _ ?_) fun id name => .inl (hkept _ ?_)
    · exact not_or.mpr ⟨store.staging_not_directory id, store.staging_ne_ignore id⟩
    · exact not_or.mpr ⟨store.staged_not_directory id name, store.staged_ne_ignore id name⟩
  | published attempt _ ih => exact (Store.Tidy.publish _ _ _).kept ih

namespace Store

variable {self : Store} {id : CaptureId} {capture : CaptureRecord Artifact} {instances : InstanceManifest}

/-- In a new directory, records that fit are staged beside artifacts that are there. -/
theorem stage_completes {staging artifact_directory : Path} (hlocated : tree staging = some .dir)
    (hfree : ∀ name, tree (staging.join name) = none) (hinput : tree artifact_directory = some .dir)
    (hheader : Fits capture MAX_HEADER_BYTES) (hmanifest : Fits instances MAX_INSTANCES_BYTES)
    (hpointer : Fits (CandidatePointer.new capture) MAX_HEADER_BYTES)
    (hsources : ∀ artifact ∈ instances.artifacts, artifact_directory ≠ staging ∧ ∃ bytes,
      tree (artifact_directory.join artifact.file_name) = some (.file bytes) ∧ bytes.length = artifact.byte_len.toNat) :
    ∃ tree', Completes (stage staging capture instances artifact_directory) tree () tree' [] := by
  have hparent (name : OsString) {tree' : Tree} (hkept : tree' staging = tree staging) :
      tree' (staging.join name).dropLast = some .dir := by rwa [Path.join, List.dropLast_concat, hkept]
  have hself (name : OsString) : staging ≠ staging.join name := by simp [Path.join]
  obtain ⟨tree1, hfirst⟩ := write_record_completes (hfree CAPTURE_FILE_NAME) (hparent _ rfl) hheader
  have hkept1 {path : Path} (hpath : path ≠ staging.join CAPTURE_FILE_NAME) : tree1 path = tree path :=
    hfirst.frame (write_record_within _ _ _) hpath
  have hfree1 : tree1 (staging.join INSTANCES_FILE_NAME) = none := by
    rw [hkept1 (by simp [join_inj, CAPTURE_FILE_NAME, INSTANCES_FILE_NAME]), hfree]
  obtain ⟨tree2, hsecond⟩ := write_record_completes hfree1 (hparent _ (hkept1 (hself _))) hmanifest
  have hkept2 {path : Path} (hcapture : path ≠ staging.join CAPTURE_FILE_NAME) (hinstances : path ≠ staging.join INSTANCES_FILE_NAME) :
      tree2 path = tree path := (hsecond.frame (write_record_within _ _ _) hinstances).trans (hkept1 hcapture)
  have hname (artifact : ArtifactRecord) {name : String} (hhead : name.toList.head? ≠ some 'a') :
      staging.join artifact.file_name ≠ staging.join name := by
    rw [ne_eq, join_inj, not_and, OsString.utf8.injEq]
    exact fun _ heq => artifact.file_name_ne hhead heq
  have hdirectory : ∀ name, artifact_directory ≠ staging.join name := by
    rintro name rfl
    rw [hfree name] at hinput
    cases hinput
  obtain ⟨tree3, hthird⟩ : ∃ tree3, Completes (copy_artifacts artifact_directory staging instances) tree2 () tree3 [] := by
    refine copy_artifacts_completes ((hkept2 (hdirectory _) (hdirectory _)).trans hinput)
      ((hkept2 (hself _) (hself _)).trans hlocated) (fun artifact hartifact => ?_) fun artifact _ => ?_
    · obtain ⟨hapart, hsource⟩ := hsources artifact hartifact
      refine ⟨hapart, ?_⟩
      rwa [hkept2 (fun heq => hapart (join_inj.mp heq).1) fun heq => hapart (join_inj.mp heq).1]
    · rw [hkept2 (hname artifact (by decide)) (hname artifact (by decide)), hfree]
  have hkept3 {path : Path} (hpath : ¬ ∃ artifact ∈ instances.artifacts, path = staging.join artifact.file_name) :
      tree3 path = tree2 path := hthird.frame (copy_artifacts_within _ _ _) hpath
  have hfree3 : tree3 (staging.join "candidate.json") = none := by
    rw [hkept3, hkept2 (by simp [join_inj, CAPTURE_FILE_NAME]) (by simp [join_inj, INSTANCES_FILE_NAME]), hfree]
    rintro ⟨artifact, -, heq⟩
    exact hname artifact (by decide) heq.symm
  have hlocated3 : tree3 staging = tree staging := by
    rw [hkept3, hkept2 (hself _) (hself _)]
    rintro ⟨artifact, -, heq⟩
    exact hself _ heq
  obtain ⟨tree4, hfourth⟩ := write_record_completes hfree3 (hparent _ hlocated3) hpointer
  unfold stage
  exact ⟨tree4, .bind_silent hfirst (.bind_silent hsecond (.bind_silent hthird hfourth))⟩

theorem stage_directory {staging artifact_directory : Path}
    (h : stage staging capture instances artifact_directory w = (.ok (), w')) : w.tree artifact_directory = some .dir := by
  obtain ⟨_, w1, hheader, hrest⟩ := Action.bind_eq_ok_iff.mp h
  obtain ⟨_, w2, hmanifest, hrest⟩ := Action.bind_eq_ok_iff.mp hrest
  obtain ⟨_, w3, hcopy, -⟩ := Action.bind_eq_ok_iff.mp hrest
  obtain ⟨metadata, w4, hmetadata, hcheck⟩ := Action.bind_eq_ok_iff.mp hcopy
  obtain ⟨hentry, -⟩ := symlink_metadata_ok (with_context_eq_ok_iff.mp hmetadata)
  obtain ⟨_, w5, hcheck, -⟩ := Action.bind_eq_ok_iff.mp hcheck
  have hdir : w2.tree artifact_directory = some .dir := by
    have his_dir : decide (metadata.entry = .dir) = true := (check_eq_ok_iff.mp hcheck).1
    rw [hentry, of_decide_eq_true his_dir]
  -- The records are files, so that the directory is none of them.
  have hheld1 := (write_record_ok hheader).2
  have hheld2 := (write_record_ok hmanifest).2
  have hkept1 := write_record_within (staging.join CAPTURE_FILE_NAME) capture MAX_HEADER_BYTES w artifact_directory
  have hkept2 := write_record_within (staging.join INSTANCES_FILE_NAME) instances MAX_INSTANCES_BYTES w1 artifact_directory
  rw [hheader] at hkept1
  rw [hmanifest] at hkept2
  have hinstances : artifact_directory ≠ staging.join INSTANCES_FILE_NAME := by
    rintro rfl
    obtain ⟨_, -, hfile, -⟩ := hheld2
    rw [hfile] at hdir
    cases hdir
  have hcapture : artifact_directory ≠ staging.join CAPTURE_FILE_NAME := by
    rintro rfl
    obtain ⟨_, -, hfile, -⟩ := hheld1
    rw [hkept2 hinstances, hfile] at hdir
    cases hdir
  rw [← hkept1 hcapture, ← hkept2 hinstances, hdir]

end Store

/-- What a publication needs where nothing fails: a store in order, an ID that is not in use, records that fit, and the files of
its artifacts. -/
structure Publishable (store : Store) (attempt : Attempt Artifact) : Prop where
  scope : attempt.capture.id = attempt.instances.capture_id
  initializable : store.Initializable attempt.start
  new : attempt.start (store.completed attempt.capture.id) = none
  unstaged : attempt.start (store.staging attempt.capture.id) = none
  header : Fits attempt.capture MAX_HEADER_BYTES
  manifest : Fits attempt.instances MAX_INSTANCES_BYTES
  pointer : Fits (CandidatePointer.new attempt.capture) MAX_HEADER_BYTES
  directory : store.reserved attempt.start attempt.capture.id attempt.artifact_directory = some .dir
  artifacts : ∀ artifact ∈ attempt.instances.artifacts, ∃ bytes,
    attempt.start (attempt.artifact_directory.join artifact.file_name) = some (.file bytes) ∧
      bytes.length = artifact.byte_len.toNat

variable {attempt : Attempt Artifact} {w' : World}

theorem publishable_of_ok (hrun : store.publish attempt.capture attempt.instances attempt.artifact_directory
    { tree := attempt.start } = (.ok (), w')) : Publishable store attempt := by
  obtain ⟨_, w1, hinstall, -⟩ := Action.bind_eq_ok_iff.mp hrun
  obtain ⟨_, w2, hreserve, hrest⟩ := Action.bind_eq_ok_iff.mp hinstall
  obtain ⟨_, w3, hstage, -⟩ := Action.bind_eq_ok_iff.mp hrest
  obtain ⟨hscope, hinitializable, hnew, hunstaged, htree⟩ := Store.reserve_ok hreserve
  have hlocated : w2.tree (store.staging attempt.capture.id) = some .dir := by rw [htree, Store.reserved, Tree.set_same]
  obtain ⟨hpublished, hpointer, hinputs⟩ := Store.stage_ok hlocated hscope hstage
  refine ⟨hscope, hinitializable, hnew, hunstaged, hpublished.header.fits, hpublished.manifest.fits, hpointer.fits,
    htree ▸ Store.stage_directory hstage, fun artifact hartifact => ?_⟩
  obtain ⟨-, hinput⟩ := hinputs artifact hartifact
  have hlength := (hpublished.artifacts artifact hartifact).2
  generalize input_files w2.tree attempt.artifact_directory artifact = bytes at hinput hlength
  rw [htree, Store.reserved_file hinitializable hunstaged (store.artifact_ne_ignore _ artifact)] at hinput
  exact ⟨bytes, hinput, hlength⟩

/-- Staging changes nothing but what is in the staging directory, so that the pointer can be moved to its place. -/
theorem install_completes (h : Publishable store attempt) (htidy : store.Tidy attempt.start)
    (hreplaceable : attempt.start (store.candidate_path attempt.capture.analysis.request_key) ≠ some .dir) :
    ∃ staged : Tree, (∀ path : Path, path.length ≤ store.root.length + 2 →
        staged path = store.reserved attempt.start attempt.capture.id path) ∧
      Completes (store.install attempt.capture attempt.instances attempt.artifact_directory) attempt.start ()
        (staged.move ((store.staging attempt.capture.id).join "candidate.json")
          (store.candidate_path attempt.capture.analysis.request_key)) [] := by
  have hreserve := Store.reserve_completes h.scope h.initializable h.new h.unstaged
  have hlocated : store.reserved attempt.start attempt.capture.id (store.staging attempt.capture.id) = some .dir :=
    Tree.set_same _ _ _
  obtain ⟨staged, hstage⟩ := Store.stage_completes hlocated (htidy.reserved h.unstaged) h.directory h.header h.manifest h.pointer
    fun artifact hartifact => by
      obtain ⟨bytes, hsource, hlength⟩ := h.artifacts artifact hartifact
      refine ⟨fun heq => ?_, bytes, ?_, hlength⟩
      · rw [heq, htidy _ _ h.unstaged] at hsource
        cases hsource
      · exact (Store.reserved_file h.initializable h.unstaged (store.artifact_ne_ignore _ artifact)).mpr hsource
  have hother (path : Path) (hpath : path.length ≤ store.root.length + 2) :
      staged path = store.reserved attempt.start attempt.capture.id path := by
    refine hstage.frame (Store.stage_within _ _ _ _) ?_
    rintro ⟨name, rfl⟩
    simp [Store.staging, Path.join] at hpath
  obtain ⟨-, ⟨pieces, -, hpointer, -⟩, -⟩ :=
    Store.stage_ok hlocated h.scope (hstage { tree := store.reserved attempt.start attempt.capture.id } rfl rfl)
  have hreplace : staged (store.candidate_path attempt.capture.analysis.request_key) ≠ some .dir := by
    rw [hother _ (by simp [Store.candidate_path, Path.join]), Store.reserved_other]
    · exact hreplaceable
    · simp [Store.candidate_path, Store.staging, Path.join]
    · simp [Store.candidate_path, Store.directories, Store.root, Path.join]
    · simp [Store.candidate_path, Store.ignore, Store.root, Path.join]
  have hparent : staged (store.candidate_path attempt.capture.analysis.request_key).dropLast = some .dir := by
    rw [Store.candidate_path, Path.join, List.dropLast_concat, hother _ (by simp [Path.join])]
    exact Store.reserved_directory (by simp [Store.directories])
  have hrename : Runs (rename _ _) staged 1 _ _ := .rename_file hpointer hreplace hparent
  exact ⟨staged, hother, .bind_silent hreserve (.bind_silent hstage (.map_err (.of_runs hrename)))⟩

/-- A publication that nothing gets in the way of completes. -/
theorem publish_completes (h : Publishable store attempt) (htidy : store.Tidy attempt.start)
    (hreplaceable : attempt.start (store.candidate_path attempt.capture.analysis.request_key) ≠ some .dir) :
    ∃ tree', Completes (store.publish attempt.capture attempt.instances attempt.artifact_directory) attempt.start () tree' [] := by
  obtain ⟨staged, hother, hinstall⟩ := install_completes h htidy hreplaceable
  have hmoved := Replaced.move store attempt.capture.id attempt.capture.analysis.request_key staged
  have hlocated := hmoved.staging (attempt.capture.id.value : OsString)
  rw [hother _ (by simp [Path.join])] at hlocated
  have hunused := hmoved.captures [(attempt.capture.id.value : OsString)]
  have hfree : store.reserved attempt.start attempt.capture.id (store.completed attempt.capture.id) = none := by
    rw [Store.reserved_other _ (store.completed_not_directory _) (store.completed_ne_ignore _), h.new]
    simp [Store.completed, Store.staging, Path.join]
  have hcaptures := hmoved.captures []
  have hparent : store.reserved attempt.start attempt.capture.id (store.root.join "captures") = some .dir :=
    Store.reserved_directory (by simp [Store.directories])
  rw [hother _ (by simp [Path.join])] at hunused hcaptures
  rw [List.append_nil] at hcaptures
  have hcompleted : (store.completed attempt.capture.id).dropLast = store.root.join "captures" := List.dropLast_concat
  have hapart : ¬ store.staging attempt.capture.id <+: store.completed attempt.capture.id := by
    simp [Store.staging, Store.completed, Path.join, List.prefix_append_right_inj]
  have hrename := Runs.rename_dir (hlocated.trans (Tree.set_same _ _ _)) (hunused.trans hfree)
    ((congrArg _ hcompleted).trans (hcaptures.trans hparent)) hapart
  exact ⟨_, .bind_silent hinstall (.map_err (.of_runs hrename))⟩

/-- No history gets in the way of a publication: where nothing fails any more, it completes exactly if the store is in order, its
ID is not in use, its records fit, and the files of its artifacts are there. -/
theorem publish_completes_iff (hhistory : History store attempts attempt.start) (hcalm : attempt.schedule = []) :
    attempt.completed store = true ↔ Publishable store attempt := by
  have hworld : attempt.world = { tree := attempt.start } := by rw [Attempt.world, hcalm]
  rw [Attempt.completed, hworld]
  constructor
  · intro hok
    rcases hrun : store.publish attempt.capture attempt.instances attempt.artifact_directory { tree := attempt.start } with
      ⟨error | ⟨⟩, w'⟩
    · rw [hrun] at hok
      cases hok
    · exact publishable_of_ok hrun
  · intro h
    have hreplaceable : attempt.start (store.candidate_path attempt.capture.analysis.request_key) ≠ some .dir := by
      have hpoints := hhistory.invariant.pointers attempt.capture.analysis.request_key
      cases hlast : last_installed store attempt.capture.analysis.request_key attempts with
      | none =>
        rw [hlast] at hpoints
        simp [show attempt.start _ = none from hpoints]
      | some last =>
        rw [hlast] at hpoints
        obtain ⟨_, -, hfile, -⟩ := hpoints
        simp [hfile]
    obtain ⟨tree', hcompletes⟩ := publish_completes h hhistory.tidy hreplaceable
    rw [hcompletes { tree := attempt.start } rfl rfl]
    rfl

end

section

local instance library_capture_format : Serde (CaptureRecord Unit) := .single library_capture "0"

local instance library_manifest_format : Serde InstanceManifest := .single empty_manifest "0"

local instance library_pointer_format : Serde CandidatePointer := .single (.new library_capture) "0"

/-- The publication of a library on a disk that is full before the third directory of its store. -/
def interrupted_attempt : Attempt Unit := { library_attempt with schedule := fault 2 full_disk }

/-- The same publication afterwards. -/
def resumed_attempt : Attempt Unit := { library_attempt with start := interrupted_attempt.after ⟨[]⟩ }

theorem resumed_attempt_completed : resumed_attempt.completed ⟨[]⟩ = true := by
  set_option maxRecDepth 100000 in decide

theorem publishable_resumed : interrupted_attempt.completed ⟨[]⟩ = false ∧ Publishable ⟨[]⟩ resumed_attempt := by
  have hunopened : Store.Unopened ⟨[]⟩ interrupted_attempt.start := by
    refine ⟨.inl (by decide), fun path hpath => if_neg ?_⟩
    rintro (rfl | rfl) <;> simp [Store.root, Store.optic_directory, Path.join] at hpath
  have hhistory : History ⟨[]⟩ [interrupted_attempt] resumed_attempt.start := .published interrupted_attempt (.start hunopened)
  exact ⟨by decide, (publish_completes_iff hhistory rfl).mp resumed_attempt_completed⟩

end

end optic.store
