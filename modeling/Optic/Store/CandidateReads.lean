import Optic.Store.HistoryReads
import Optic.Store.ReadsAnswers

open rust file_system optic.records

namespace optic.store

section

variable {Artifact : Type} [Serde (CaptureRecord Artifact)] [Serde InstanceManifest]
variable {tree : Tree} {capture : CaptureRecord Artifact} {instances : InstanceManifest}

namespace Store

variable {self : Store} {key : CaptureKey} {pointer : CandidatePointer}

theorem read_pointed_settled (self : Store) (key : CaptureKey) (pointer : CandidatePointer) (directory : Path) :
    Settled (self.read_pointed key pointer directory : Action Error (CaptureRecord Artifact × InstanceManifest)) := by
  apply Settled.bind (read_capture_from_directory_settled _ _)
  refine fun _ => .bind (check_settled _ _) fun _ => .bind (check_settled _ _) fun _ => ?_
  apply Settled.bind (read_record_settled _ _)
  exact fun _ => .bind (check_settled _ _) fun _ => .bind (validate_artifacts_settled _ _) fun _ => .pure

theorem read_pointed_ok_iff {directory : Path} :
    Answers (self.read_pointed key pointer directory) tree (.ok (capture, instances)) ↔
      (Header tree directory capture ∧ capture.id = pointer.capture_id) ∧ capture.analysis.request_key = key ∧
        capture.analysis.token = pointer.token ∧ Manifest tree directory pointer.capture_id instances := by
  rw [read_pointed, Answers.bind_ok_iff (read_capture_from_directory_settled _ _)]
  constructor
  · rintro ⟨header, hheader, hkeyed⟩
    obtain ⟨hkey, htokened⟩ := check_bind_ok_iff.mp hkeyed
    obtain ⟨htoken, hread⟩ := check_bind_ok_iff.mp htokened
    obtain ⟨decoded, hdecoded, hscoped⟩ := (Answers.bind_ok_iff (read_record_settled _ _)).mp hread
    obtain ⟨hscope, hvalid⟩ := check_bind_ok_iff.mp hscoped
    obtain ⟨⟨⟩, hartifacts, hpure⟩ := (Answers.bind_ok_iff (validate_artifacts_settled _ _)).mp hvalid
    cases Answers.pure_iff.mp hpure
    obtain ⟨hfile, hid⟩ := read_capture_from_directory_ok_iff.mp hheader
    exact ⟨⟨hfile, hid⟩, of_decide_eq_true hkey, of_decide_eq_true htoken, read_record_ok_iff.mp hdecoded,
      (of_decide_eq_true hscope).trans hid, hartifacts⟩
  · rintro ⟨⟨hfile, hid⟩, hkey, htoken, hdecoded, hscope, hartifacts⟩
    refine ⟨capture, read_capture_from_directory_ok_iff.mpr ⟨hfile, hid⟩, ?_⟩
    apply check_bind_ok_iff.mpr ⟨decide_eq_true hkey, _⟩
    apply check_bind_ok_iff.mpr ⟨decide_eq_true htoken, _⟩
    apply Answers.bind (read_record_ok_iff.mpr hdecoded)
    exact check_bind_ok_iff.mpr ⟨decide_eq_true (hscope.trans hid.symm), .bind hartifacts .pure⟩

/-- The direct reads return the records that a pointer leads to. -/
theorem read_pointed_direct (hlocated : self.Located tree pointer.capture_id)
    (hpointed : Answers (self.read_pointed key pointer (self.completed pointer.capture_id)) tree (.ok (capture, instances))) :
    capture.id = pointer.capture_id ∧ Answers (self.read_capture pointer.capture_id) tree (.ok capture) ∧
      Answers (self.read_instances Artifact pointer.capture_id) tree (.ok instances) ∧
      capture.analysis.request_key = key ∧ capture.analysis.token = pointer.token := by
  obtain ⟨⟨hheader, hid⟩, hkey, htoken, hmanifest⟩ := read_pointed_ok_iff.mp hpointed
  obtain ⟨⟨bytes, hfile, hdecode⟩, hvalid⟩ := hmanifest
  exact ⟨hid, read_capture_ok_iff.mpr ⟨hlocated, hheader, hid, bytes, hfile⟩,
    read_instances_ok_iff.mpr ⟨hlocated, ⟨capture, hheader, hid⟩, ⟨bytes, hfile, hdecode⟩, hvalid⟩, hkey, htoken⟩

end Store

variable [Serde CandidatePointer]

namespace Store

variable {self : Store} {key : CaptureKey} {pointer : CandidatePointer}

/-- The pointer file for a request is a pointer of the current format that names the request. -/
def Points (self : Store) (tree : Tree) (key : CaptureKey) (pointer : CandidatePointer) : Prop :=
  Decodes tree (self.candidate_path key) MAX_HEADER_BYTES pointer ∧
    pointer.format_version = CandidatePointer.FORMAT_VERSION ∧ pointer.request_key = key

/-- The namespaces, the pointer file or the directory that the pointer names is absent. -/
def Unpublished (self : Store) (tree : Tree) (key : CaptureKey) : Prop :=
  Missing tree (self.namespaces "candidates") ∨ tree (self.candidate_path key) = none ∨
    ∃ pointer, self.Points tree key pointer ∧
      (Missing tree (self.namespaces "captures") ∨ tree (self.completed pointer.capture_id) = none)

theorem read_candidate_settled (self : Store) (key : CaptureKey) : Settled (self.read_candidate Artifact key) := by
  apply Settled.bind (self.namespace_exists_settled "candidates")
  refine fun found => .ite (.attempt (read_record_settled _ _) fun result => ?_) .pure
  split
  · exact .ite .pure .fail
  · exact .fail
  · refine .bind (check_settled _ _) fun _ => .bind (check_settled _ _) fun _ => ?_
    refine .attempt (self.capture_directory_settled _) fun result => ?_
    split
    · exact .pure
    · exact .fail
    · exact .bind (self.read_pointed_settled _ _ _) fun _ => .pure

/-- What a read of a candidate comes from: a pointer to a directory with matching records, or
an absence. -/
theorem read_candidate_cases {candidate : Option (CaptureRecord Artifact × InstanceManifest)}
    (h : Answers (self.read_candidate Artifact key) tree (.ok candidate)) :
    candidate = none ∧ self.Unpublished tree key ∨
      ∃ pointer capture instances, candidate = some (capture, instances) ∧ self.Points tree key pointer ∧
        self.Located tree pointer.capture_id ∧
        Answers (self.read_pointed key pointer (self.completed pointer.capture_id)) tree (.ok (capture, instances)) := by
  obtain ⟨found, hfound, hread⟩ := (Answers.bind_ok_iff (self.namespace_exists_settled "candidates")).mp h
  cases found with
  | false => exact .inl ⟨Except.ok.inj (Answers.pure_iff.mp hread), .inl (directories_exist_false_iff.mp hfound)⟩
  | true =>
    rw [if_pos rfl] at hread
    obtain ⟨result, hresult, hchecks⟩ := (Answers.attempt_iff (read_record_settled _ _)).mp hread
    split at hchecks
    · split at hchecks
      · exact .inl ⟨Except.ok.inj (Answers.pure_iff.mp hchecks), .inr (.inl (read_record_filesystem hresult))⟩
      · cases Answers.fail_iff.mp hchecks
    · cases Answers.fail_iff.mp hchecks
    · next pointer =>
      obtain ⟨hformat, hkeyed⟩ := check_bind_ok_iff.mp hchecks
      obtain ⟨hkey, hattempt⟩ := check_bind_ok_iff.mp hkeyed
      have hpoints : self.Points tree key pointer :=
        ⟨read_record_ok_iff.mp hresult, of_decide_eq_true hformat, of_decide_eq_true hkey⟩
      obtain ⟨located, hlocated, hpointed⟩ := (Answers.attempt_iff (self.capture_directory_settled _)).mp hattempt
      split at hpointed
      · exact .inl ⟨Except.ok.inj (Answers.pure_iff.mp hpointed),
          .inr (.inr ⟨pointer, hpoints, capture_directory_not_found hlocated⟩)⟩
      · cases Answers.fail_iff.mp hpointed
      · obtain ⟨⟨capture, instances⟩, hpair, hsome⟩ :=
          (Answers.bind_ok_iff (self.read_pointed_settled _ _ _)).mp hpointed
        obtain ⟨rfl, hdirectory⟩ := capture_directory_ok_iff.mp hlocated
        exact .inr ⟨pointer, capture, instances, Except.ok.inj (Answers.pure_iff.mp hsome), hpoints, hdirectory, hpair⟩

/-- A pointer to a directory with matching records is read as a candidate. -/
theorem read_candidate_some (hpresent : Present tree (self.namespaces "candidates")) (hpoints : self.Points tree key pointer)
    (hlocated : self.Located tree pointer.capture_id)
    (hpointed : Answers (self.read_pointed key pointer (self.completed pointer.capture_id)) tree (.ok (capture, instances))) :
    Answers (self.read_candidate Artifact key) tree (.ok (some (capture, instances))) := by
  obtain ⟨hdecodes, hformat, hkey⟩ := hpoints
  refine .bind (directories_exist_true_iff.mpr hpresent) (.ite_pos rfl ?_)
  apply Answers.attempt (read_record_ok_iff.mpr hdecodes)
  refine check_bind_ok_iff.mpr ⟨decide_eq_true hformat, check_bind_ok_iff.mpr ⟨decide_eq_true hkey, ?_⟩⟩
  apply Answers.attempt (capture_directory_ok_iff.mpr ⟨rfl, hlocated⟩)
  exact .bind hpointed .pure

end Store

variable (Artifact) in
/-- A candidate is what the direct reads of its capture return. Where the pointers are in a real
directory, a valid pointer leads to a candidate exactly when the direct reads of the capture that
it names succeed with a header for its request and its token. There is no candidate only where
something is absent, and everything else is an error. -/
theorem read_candidate_direct (store : Store) (tree : Tree) (key : CaptureKey) :
    (∀ (capture : CaptureRecord Artifact) instances,
      Answers (store.read_candidate Artifact key) tree (.ok (some (capture, instances))) →
        capture.analysis.request_key = key ∧ Answers (store.read_capture capture.id) tree (.ok capture) ∧
          Answers (store.read_instances Artifact capture.id) tree (.ok instances)) ∧
    (∀ pointer, tree (store.root.join "candidates") = some .dir → store.Points tree key pointer →
      ((∃ candidate, Answers (store.read_candidate Artifact key) tree (.ok (some candidate))) ↔
        ∃ (capture : CaptureRecord Artifact) (instances : InstanceManifest),
          Answers (store.read_capture pointer.capture_id) tree (.ok capture) ∧
          Answers (store.read_instances Artifact pointer.capture_id) tree (.ok instances) ∧
          capture.analysis.request_key = key ∧ capture.analysis.token = pointer.token)) ∧
    (Answers (store.read_candidate Artifact key) tree (.ok none) → store.Unpublished tree key) ∧
    (¬ store.Unpublished tree key → (¬ ∃ candidate, Answers (store.read_candidate Artifact key) tree (.ok (some candidate))) →
      ∃ error, Answers (store.read_candidate Artifact key) tree (.error error)) := by
  have hmiss (h : Answers (store.read_candidate Artifact key) tree (.ok none)) : store.Unpublished tree key := by
    obtain ⟨-, hmiss⟩ | ⟨_, _, _, ⟨⟩, _⟩ := Store.read_candidate_cases h
    exact hmiss
  refine ⟨?_, ?_, hmiss, ?_⟩
  · intro capture instances h
    obtain ⟨⟨⟩, _⟩ | ⟨pointer, _, _, ⟨⟩, hpoints, hlocated, hpointed⟩ := Store.read_candidate_cases h
    obtain ⟨hid, hcapture, hinstances, hkey, -⟩ := Store.read_pointed_direct hlocated hpointed
    rw [hid]
    exact ⟨hkey, hcapture, hinstances⟩
  · intro pointer hcandidates hpoints
    constructor
    · rintro ⟨⟨capture, instances⟩, h⟩
      obtain ⟨⟨⟩, _⟩ | ⟨pointer', _, _, ⟨⟩, hpoints', hlocated, hpointed⟩ := Store.read_candidate_cases h
      obtain rfl := hpoints.1.unique hpoints'.1
      exact ⟨capture, instances, (Store.read_pointed_direct hlocated hpointed).2⟩
    · rintro ⟨capture, instances, hcapture, hinstances, hkey, htoken⟩
      obtain ⟨hlocated, hheader, hid, -⟩ := Store.read_capture_ok_iff.mp hcapture
      obtain ⟨-, -, hmanifest⟩ := Store.read_instances_ok_iff.mp hinstances
      exact ⟨_, Store.read_candidate_some (hlocated.candidates hcandidates) hpoints hlocated
        (Store.read_pointed_ok_iff.mpr ⟨⟨hheader, hid⟩, hkey, htoken, hmanifest⟩)⟩
  · intro hpublished hnone
    obtain ⟨result, hresult⟩ : ∃ result, Answers (store.read_candidate Artifact key) tree result :=
      store.read_candidate_settled key tree
    cases result with
    | error error => exact ⟨error, hresult⟩
    | ok candidate =>
      cases candidate with
      | none => exact absurd (hmiss hresult) hpublished
      | some candidate => exact absurd ⟨candidate, hresult⟩ hnone

end

section

local instance : Serde (CaptureRecord Unit) := .single library_capture "0"

local instance : Serde InstanceManifest := .single empty_manifest "0"

local instance : Serde CandidatePointer := .single (.new library_capture) "0"

/-- A store whose pointers are behind a symlink. -/
def linked_tree : Tree := fun path =>
  let store : Store := ⟨[]⟩
  let directory := store.completed library_capture.id
  if path = store.root.join "candidates" then some .other
  else if path = store.optic_directory ∨ path = store.root ∨ path = store.root.join "captures" ∨ path = directory then
    some .dir
  else if path = store.candidate_path library_capture.analysis.request_key ∨
      path = directory.join CAPTURE_FILE_NAME ∨ path = directory.join INSTANCES_FILE_NAME then some (.file (text "0\n"))
  else none

/-- The direct reads succeed, but a link in the place of the candidate namespace is refused. -/
theorem linked_candidates_refused :
    Store.Points ⟨[]⟩ linked_tree library_capture.analysis.request_key (.new library_capture) ∧
    linked_tree (Store.completed ⟨[]⟩ library_capture.id) = some .dir ∧
    Answers (Store.read_capture ⟨[]⟩ library_capture.id) linked_tree (.ok library_capture) ∧
    Answers (Store.read_instances Unit ⟨[]⟩ library_capture.id) linked_tree (.ok empty_manifest) ∧
    Answers (Store.read_candidate Unit ⟨[]⟩ library_capture.analysis.request_key) linked_tree
      (.error (.UnexpectedFileType "directory" (Store.root ⟨[]⟩ |>.join "candidates"))) := by
  have hcompleted : linked_tree (Store.completed ⟨[]⟩ library_capture.id) = some .dir := by decide
  have hlocated : Store.Located ⟨[]⟩ linked_tree library_capture.id := by
    refine ⟨?_, hcompleted⟩
    unfold Present
    decide
  have hheader : Header linked_tree (Store.completed ⟨[]⟩ library_capture.id) library_capture :=
    ⟨text "0\n", by decide, by decide, by decide⟩
  have hmanifest : Store.Manifest linked_tree (Store.completed ⟨[]⟩ library_capture.id) library_capture.id empty_manifest :=
    ⟨⟨text "0\n", by decide, by decide, by decide⟩, rfl, .pure⟩
  refine ⟨⟨⟨text "0\n", by decide, by decide, by decide⟩, rfl, rfl⟩, hcompleted, ?_, ?_, ?_⟩
  · exact Store.read_capture_ok_iff.mpr ⟨hlocated, hheader, rfl, text "0\n", by decide⟩
  · exact Store.read_instances_ok_iff.mpr ⟨hlocated, ⟨library_capture, hheader, rfl⟩, hmanifest⟩
  · apply Answers.bind_error
    apply Answers.bind (a := true) (directory_exists_ok_iff.mpr (by decide))
    apply Answers.bind (a := true) (directory_exists_ok_iff.mpr (by decide))
    apply Answers.bind_error
    have hlink : linked_tree (Store.root ⟨[]⟩ |>.join "candidates") = some .other := by decide
    exact .attempt (.symlink_metadata hlink) (.ite_neg (by decide) .fail)

end

end optic.store
