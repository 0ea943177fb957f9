import Mathlib.Data.List.Forall2
import Mathlib.Data.List.Nodup
import Optic.Records.Equality
import Optic.Store.HistorySpec
import Optic.Store.RetrySpec

open rust file_system optic.records

namespace optic.store

section

variable {Artifact : Type} [Serde (CaptureRecord Artifact)] [Serde InstanceManifest] [Serde CandidatePointer]
  {store : Store} {attempts : List (Attempt Artifact)} {pointer : CaptureKey → Option (Attempt Artifact)} {tree : Tree}

namespace Invariant

variable (h : Invariant store attempts pointer tree)

include h

/-- The completed namespace holds the completed captures and nothing else. -/
theorem entry_iff {name : OsString} : tree ((store.root.join "captures").join name) ≠ none ↔
    ∃ attempt ∈ attempts, attempt.completed store = true ∧ name = (attempt.capture.id.value : OsString) := by
  constructor
  · exact h.entries name
  · rintro ⟨attempt, hattempt, hcompleted, rfl⟩ habsent
    have hlocated := (h.published attempt hattempt hcompleted).2.located
    rw [Store.completed, habsent] at hlocated
    cases hlocated

/-- One completed attempt has a given ID. -/
theorem unique {attempt other : Attempt Artifact} (hattempt : attempt ∈ attempts) (hother : other ∈ attempts)
    (hcompleted : attempt.completed store = true) (hdone : other.completed store = true)
    (hid : attempt.capture.id = other.capture.id) : attempt = other :=
  List.inj_on_of_nodup_map h.distinct (List.mem_filter.mpr ⟨hattempt, hcompleted⟩) (List.mem_filter.mpr ⟨hother, hdone⟩) hid

/-- Each name in the completed namespace belongs to a completed attempt. -/
theorem listed (names : List OsString) (hnames : ∀ name ∈ names, tree ((store.root.join "captures").join name) ≠ none) :
    ∃ completed : List (Attempt Artifact), names = completed.map (fun attempt => (attempt.capture.id.value : OsString)) ∧
      ∀ attempt ∈ completed, attempt ∈ attempts ∧ attempt.completed store = true := by
  induction names with
  | nil => exact ⟨[], rfl, fun _ => (absurd · List.not_mem_nil)⟩
  | cons name names ih =>
    obtain ⟨hname, hrest⟩ := List.forall_mem_cons.mp hnames
    obtain ⟨attempt, hattempt, hcompleted, rfl⟩ := h.entries name hname
    obtain ⟨completed, rfl, hall⟩ := ih hrest
    exact ⟨attempt :: completed, rfl, List.forall_mem_cons.mpr ⟨⟨hattempt, hcompleted⟩, hall⟩⟩

/-- The directories whose names are the IDs of completed attempts are read back as their captures. -/
theorem read_captures {completed : List (Attempt Artifact)}
    (hcompleted : ∀ attempt ∈ completed, attempt ∈ attempts ∧ attempt.completed store = true) :
    Answers (Store.read_captures (store.root.join "captures")
      (completed.map fun attempt => (attempt.capture.id.value : OsString))) tree (.ok (completed.map Attempt.capture)) := by
  apply read_captures_answers
  induction completed with
  | nil => exact .nil
  | cons attempt completed ih =>
    obtain ⟨⟨hattempt, hdone⟩, hrest⟩ := List.forall_mem_cons.mp hcompleted
    exact .cons ⟨rfl, _, _, (h.published attempt hattempt hdone).2⟩ (ih hrest)

/-- A listing contains each completed capture once, whatever the order of the entries. -/
theorem list_captures {names : List OsString} (hdistinct : names.Nodup)
    (hnames : ∀ name, name ∈ names ↔ tree ((store.root.join "captures").join name) ≠ none) :
    ∃ captures, Answers (store.list_captures Artifact names) tree (.ok captures) ∧
      captures.Perm ((attempts.filter fun attempt => attempt.completed store).map Attempt.capture) := by
  obtain ⟨completed, rfl, hcompleted⟩ := h.listed names fun name hname => (hnames name).mp hname
  have hperm : completed.Perm (attempts.filter fun attempt => attempt.completed store) := by
    apply (List.perm_ext_iff_of_nodup hdistinct.of_map h.distinct.of_map).mpr
    intro attempt
    rw [List.mem_filter]
    constructor
    · exact hcompleted attempt
    · rintro ⟨hattempt, hdone⟩
      have hname := (hnames attempt.capture.id.value).mpr (h.entry_iff.mpr ⟨attempt, hattempt, hdone, rfl⟩)
      obtain ⟨other, hother, hid⟩ := List.mem_map.mp hname
      have heq : other.capture.id = attempt.capture.id := by simpa [CaptureId.value_inj] using hid
      rwa [← h.unique (hcompleted other hother).1 hattempt (hcompleted other hother).2 hdone heq]
  have hname : store.root.join "captures" ∈ store.directories := by simp [Store.directories]
  have hexists := store.namespace_exists_answers hname h.directories
  by_cases hready : tree store.optic_directory = some .dir ∧ tree store.root = some .dir ∧
      tree (store.root.join "captures") = some .dir
  · refine ⟨(completed.map Attempt.capture).mergeSort CaptureOrder, .bind hexists (.ite_pos (decide_eq_true hready) ?_),
      (List.mergeSort_perm _ _).trans (hperm.map Attempt.capture)⟩
    exact .attempt (.read_dir hready.2.2) (.bind (h.read_captures hcompleted) .pure)
  · have hnone : attempts.filter (fun attempt => attempt.completed store) = [] := by
      rw [List.filter_eq_nil_iff]
      intro attempt hattempt hdone
      have hdirs := (h.published attempt hattempt hdone).1
      exact hready ⟨hdirs _ (by simp [Store.directories]), hdirs _ (by simp [Store.directories]),
        hdirs _ (by simp [Store.directories])⟩
    rw [hnone]
    exact ⟨[], .bind hexists (.ite_neg (by simpa using hready) .pure), .nil⟩

/-- A candidate is the capture of the last attempt that installed a pointer, if it completed. -/
theorem read_candidate {key : CaptureKey} (hpointer : ∀ attempt ∈ pointer key, attempt ∈ attempts ∧
      attempt.installed store = true ∧ attempt.capture.analysis.request_key = key) :
    Answers (store.read_candidate Artifact key) tree (.ok ((pointer key).bind fun attempt =>
      if attempt.completed store then some (attempt.capture, attempt.instances) else none)) := by
  have hpoints := h.pointers key
  cases hlast : pointer key with
  | none =>
    rw [hlast] at hpoints
    exact Store.read_candidate_absent h.directories hpoints
  | some attempt =>
    obtain ⟨hattempt, hinstalled, rfl⟩ := hpointer attempt hlast
    rw [hlast] at hpoints
    cases hcompleted : attempt.completed store with
    | true =>
      obtain ⟨hready, hpublished⟩ := h.published attempt hattempt hcompleted
      simpa [hcompleted] using Store.read_candidate_answers hready hpoints hpublished
    | false =>
      have habsent := (h.dangling attempt hattempt hinstalled hcompleted).2
      simpa [hcompleted] using Store.read_candidate_dangling h.directories hpoints habsent

/-- Every read of a published capture gives back what its attempt was given. -/
theorem reads {attempt : Attempt Artifact} (hattempt : attempt ∈ attempts) (hcompleted : attempt.completed store = true) :
    Answers (store.read_capture attempt.capture.id) tree (.ok attempt.capture) ∧
    Answers (store.read_instances Artifact attempt.capture.id) tree (.ok attempt.instances) ∧
    ∀ artifact ∈ attempt.instances.artifacts, ∃ bytes,
      attempt.start (attempt.artifact_directory.join artifact.file_name) = some (.file bytes) ∧
      ∀ range : ByteRange, range.end ≤ artifact.byte_len → ∀ w : World, w.tree = tree → w.schedule = [] →
        w.sink.capacity = none → store.copy_evidence Artifact attempt.capture.id artifact.id range w =
          (.ok (), { w with sink := { w.sink with
            accepted := w.sink.accepted ++ (bytes.drop range.start.toNat).take range.length.toNat } }) := by
  obtain ⟨hready, hpublished⟩ := h.published attempt hattempt hcompleted
  refine ⟨hpublished.read_capture hready, hpublished.read_instances hready, fun artifact hartifact => ?_⟩
  refine ⟨attempt.files artifact, h.inputs attempt hattempt hcompleted artifact hartifact, fun range hrange => ?_⟩
  exact hpublished.copy_evidence hready (artifact_of_mem attempt.instances.consistent.artifacts_distinct hartifact) hrange

end Invariant

theorem last_installed_mem {key : CaptureKey} {attempt : Attempt Artifact}
    (h : attempt ∈ last_installed store key attempts) : attempt ∈ attempts ∧ attempt.installed store = true ∧
      attempt.capture.analysis.request_key = key := by
  have hmem := List.mem_of_find?_eq_some h
  have hfound := List.find?_some h
  simp only [Bool.and_eq_true, decide_eq_true_eq] at hfound
  exact ⟨List.mem_reverse.mp hmem, hfound.1, hfound.2⟩

/-- No attempt behind the last one for a request installed a pointer for it. -/
theorem last_installed_split {key : CaptureKey} {attempt : Attempt Artifact}
    (h : last_installed store key attempts = some attempt) : ∃ before after, attempts = before ++ attempt :: after ∧
      ∀ other ∈ after, other.installed store = true → other.capture.analysis.request_key ≠ key := by
  obtain ⟨-, after, before, hreverse, hafter⟩ := List.find?_eq_some_iff_append.mp h
  refine ⟨before.reverse, after.reverse, ?_, fun other hother hinstalled hkey => ?_⟩
  · rw [← List.reverse_reverse attempts, hreverse, List.reverse_append, List.reverse_cons, List.append_assoc,
      List.singleton_append]
  · have hnot := hafter other (List.mem_reverse.mp hother)
    rw [hinstalled, hkey] at hnot
    simp at hnot

theorem History.read_candidate (h : History store attempts tree) (key : CaptureKey) :
    Answers (store.read_candidate Artifact key) tree (.ok ((last_installed store key attempts).bind fun attempt =>
      if attempt.completed store then some (attempt.capture, attempt.instances) else none)) :=
  h.invariant.read_candidate fun _ => last_installed_mem

/-- After any history of attempts, whatever failed in each of them, the completed namespace
holds exactly the captures of the attempts that returned `Ok`, every read of one of them gives
back what its attempt was given, listing them gives each of them once, and the candidate for a
request is the capture of the last attempt for it that installed a pointer, if that attempt
returned `Ok`. -/
theorem publish_history (h : History store attempts tree) :
    (∀ name, tree ((store.root.join "captures").join name) ≠ none ↔
      ∃ attempt ∈ attempts, attempt.completed store = true ∧ name = (attempt.capture.id.value : OsString)) ∧
    (∀ attempt ∈ attempts, attempt.completed store = true →
      Answers (store.read_capture attempt.capture.id) tree (.ok attempt.capture) ∧
      Answers (store.read_instances Artifact attempt.capture.id) tree (.ok attempt.instances) ∧
      ∀ artifact ∈ attempt.instances.artifacts, ∃ bytes,
        attempt.start (attempt.artifact_directory.join artifact.file_name) = some (.file bytes) ∧
        ∀ range : ByteRange, range.end ≤ artifact.byte_len → ∀ w : World, w.tree = tree → w.schedule = [] →
          w.sink.capacity = none → store.copy_evidence Artifact attempt.capture.id artifact.id range w =
            (.ok (), { w with sink := { w.sink with
              accepted := w.sink.accepted ++ (bytes.drop range.start.toNat).take range.length.toNat } })) ∧
    (∀ names : List OsString, names.Nodup →
      (∀ name, name ∈ names ↔ tree ((store.root.join "captures").join name) ≠ none) →
      ∃ captures, Answers (store.list_captures Artifact names) tree (.ok captures) ∧
        captures.Perm ((attempts.filter fun attempt => attempt.completed store).map Attempt.capture)) ∧
    ∀ key, Answers (store.read_candidate Artifact key) tree (.ok ((last_installed store key attempts).bind fun attempt =>
      if attempt.completed store then some (attempt.capture, attempt.instances) else none)) := by
  have hinvariant := h.invariant
  exact ⟨fun name => hinvariant.entry_iff, fun attempt hattempt hcompleted => hinvariant.reads hattempt hcompleted,
    fun names hdistinct hnames => hinvariant.list_captures hdistinct hnames, fun key => h.read_candidate key⟩

end

section

/-- A capture of a library. -/
def library_capture : CaptureRecord Unit where
  id := ⟨"kkkkkkkkkkkkkkkkkkkkkkkkkkkkkkkk", by decide⟩
  completed_at_unix_ms := 0
  build := {
    package := "p"
    package_version := "0.1.0"
    target := ⟨"p", .Lib, by decide⟩
    profile := "release"
    cargo_program := ⟨"cargo"⟩
    invocation_directory := ⟨"/p"⟩
    cargo_arguments := ["rustc"]
    valid := rfl }
  compiler := {
    rustc := ⟨"/rustc"⟩
    release := "1"
    commit_hash := "c"
    host := "h"
    sysroot := ⟨"/s"⟩
    valid := rfl }
  analysis := {
    request_key := ⟨"0000000000000000000000000000000000000000000000000000000000000000", by decide⟩
    token := ⟨"00000000000040008000000000000000", by decide⟩
    artifact := () }
  current := rfl

/-- The provenance of a build whose modules cannot be captured. -/
def fat_provenance : LlvmProvenance where
  backend := "llvm"
  llvm_version := none
  target := "t"
  optimization := "3"
  lto := .Fat
  incremental := false
  linker_plugin_lto := false
  codegen_units := 1
  recipe_revision := 1
  backend_named := by decide
  target_named := by decide
  version_named := by decide
  optimization_known := by decide
  counts_positive := by decide

/-- A manifest without instances. -/
def empty_manifest : InstanceManifest where
  capture_id := library_capture.id
  instances := []
  artifacts := []
  llvm_provenance := fat_provenance
  llvm := .NotCaptured .FatLto
  consistent := validate_manifest_eq_ok_iff.mp rfl
  current := rfl

def source_capture : CaptureRecord Unit :=
  { library_capture with id := ⟨"llllllllllllllllllllllllllllllll", by decide⟩ }

/-- A manifest with a source file, of which no instance has a part. -/
def source_manifest : InstanceManifest :=
  { empty_manifest with
    capture_id := source_capture.id
    artifacts := [⟨⟨7⟩, .Source, 9⟩]
    consistent := validate_manifest_eq_ok_iff.mp rfl }

local instance capture_pair : Serde (CaptureRecord Unit) := .pair library_capture source_capture

local instance manifest_pair : Serde InstanceManifest := .pair empty_manifest source_manifest

local instance pointer_pair : Serde CandidatePointer := .pair (.new library_capture) (.new source_capture)

def library_attempt : Attempt Unit where
  capture := library_capture
  instances := empty_manifest
  artifact_directory := [("target" : OsString)]
  start := fun path => if path = [] ∨ path = [("target" : OsString)] then some .dir else none
  schedule := []

/-- A publication whose last operation fails: its pointer is there, but the capture is not. -/
def dangling_attempt : Attempt Unit := { library_attempt with schedule := fault 23 full_disk }

def source_attempt : Attempt Unit where
  capture := source_capture
  instances := source_manifest
  artifact_directory := [("target" : OsString)]
  start := fun path =>
    if path = [("target" : OsString), ("artifact-0000000000000007" : OsString)] then some (.file (text "fn f() \x7b\x7d"))
    else dangling_attempt.after ⟨[]⟩ path
  schedule := []

theorem dangling_attempt_installed : dangling_attempt.installed ⟨[]⟩ = true := by decide

theorem dangling_attempt_failed : dangling_attempt.completed ⟨[]⟩ = false := by decide

theorem source_attempt_completed : source_attempt.completed ⟨[]⟩ = true := by decide +kernel

/-- A capture that did not become visible, and one for the same request behind it. Only the second is listed and read,
with its source, and it is the candidate; between the two publications there is none. -/
theorem publish_history_library :
    let key := library_capture.analysis.request_key
    let tree := source_attempt.after ⟨[]⟩
    dangling_attempt.installed ⟨[]⟩ = true ∧ dangling_attempt.completed ⟨[]⟩ = false ∧
    Answers (Store.read_candidate Unit ⟨[]⟩ key) (dangling_attempt.after ⟨[]⟩) (.ok none) ∧
    (∀ name, tree ((Store.root ⟨[]⟩ |>.join "captures").join name) ≠ none ↔ name = (source_capture.id.value : OsString)) ∧
    Answers (Store.read_instances Unit ⟨[]⟩ source_capture.id) tree (.ok source_manifest) ∧
    (∀ w : World, w.tree = tree → w.schedule = [] → w.sink.capacity = none →
      Store.copy_evidence Unit ⟨[]⟩ source_capture.id ⟨7⟩ ⟨3, 3, by decide⟩ w =
        (.ok (), { w with sink := { w.sink with accepted := w.sink.accepted ++ text "f()" } })) ∧
    Answers (Store.read_candidate Unit ⟨[]⟩ key) tree (.ok (some (source_capture, source_manifest))) := by
  intro key tree
  have hunopened : Store.Unopened ⟨[]⟩ dangling_attempt.start := by
    refine ⟨.inl (by decide), fun path hpath => if_neg ?_⟩
    rintro (rfl | rfl) <;> simp [Store.root, Store.optic_directory, Path.join] at hpath
  have hdangling : History ⟨[]⟩ [dangling_attempt] (dangling_attempt.after ⟨[]⟩) := .published dangling_attempt (.start hunopened)
  have hedited : History ⟨[]⟩ [dangling_attempt] source_attempt.start := by
    refine .elsewhere hdangling fun path hpath => if_neg ?_
    rintro rfl
    simp [Store.optic_directory, Path.join] at hpath
  have hsource : History ⟨[]⟩ [dangling_attempt, source_attempt] tree := .published source_attempt hedited
  obtain ⟨hentries, hreads, -, hcandidate⟩ := publish_history hsource
  obtain ⟨-, hinstances, hcopies⟩ := hreads source_attempt (by simp) source_attempt_completed
  refine ⟨dangling_attempt_installed, dangling_attempt_failed, ?_, fun name => ?_, hinstances, ?_, ?_⟩
  · have hnone := (publish_history hdangling).2.2.2 key
    have hlast : last_installed ⟨[]⟩ key [dangling_attempt] = some dangling_attempt := by
      rw [last_installed, List.reverse_singleton, List.find?_cons, dangling_attempt_installed]
      rfl
    rw [hlast, Option.bind_some, dangling_attempt_failed] at hnone
    exact hnone
  · rw [hentries]
    simp [dangling_attempt_failed, source_attempt_completed]
    rfl
  · obtain ⟨bytes, hbytes, hcopy⟩ := hcopies ⟨⟨7⟩, .Source, 9⟩ (by decide)
    cases hbytes
    exact hcopy ⟨3, 3, by decide⟩ (by decide)
  · have hfound := hcandidate key
    have hlast : last_installed ⟨[]⟩ key [dangling_attempt, source_attempt] = some source_attempt := by
      have hinstalled := Attempt.installed_of_completed source_attempt_completed
      rw [last_installed, List.reverse_cons, List.reverse_singleton, List.singleton_append, List.find?_cons, hinstalled]
      rfl
    rw [hlast, Option.bind_some, source_attempt_completed] at hfound
    exact hfound

end

end optic.store
