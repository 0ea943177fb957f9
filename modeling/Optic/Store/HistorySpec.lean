import Optic.Store.History

open rust file_system optic.records

namespace optic.store

variable {Artifact : Type} [Serde (CaptureRecord Artifact)] [Serde InstanceManifest] [Serde CandidatePointer]
  {store : Store} {attempts : List (Attempt Artifact)} {pointer : CaptureKey → Option (Attempt Artifact)}
  {attempt : Attempt Artifact} {tree : Tree} {w w' : World}

/-- Initialization keeps everything that attempts left behind. -/
theorem initialize_store_keeps : Triple (Invariant store attempts pointer) store.initialize_store
    (fun _ tree => Invariant store attempts pointer tree ∧ store.Ready tree) (Invariant store attempts pointer) :=
  store.initialize_store_triple (fun _ _ hpath h hfree => h.prepared (.directory hpath hfree))
    fun _ _ hkept h => h.prepared (.ignored hkept)

/-- A tree with the new staging directory of a capture that no earlier attempt has. -/
structure Reserved (store : Store) (attempts : List (Attempt Artifact))
    (pointer : CaptureKey → Option (Attempt Artifact)) (id : CaptureId) (tree : Tree) : Prop where
  invariant : Invariant store attempts pointer tree
  ready : store.Ready tree
  absent : tree (store.completed id) = none
  staging : tree (store.staging id) = some .dir
  new : ∀ attempt ∈ attempts, attempt.installed store = true → attempt.capture.id ≠ id

theorem Attempt.installed_of_completed (h : attempt.completed store = true) : attempt.installed store = true := by
  unfold Attempt.completed Store.publish at h
  unfold Attempt.installed
  rcases hrun : store.install attempt.capture attempt.instances attempt.artifact_directory attempt.world with ⟨e | _, w1⟩
  · rw [Action.bind_of_error hrun] at h
    exact h
  · rfl

theorem reserve_keeps (capture : CaptureRecord Artifact) (instances : InstanceManifest) :
    Triple (Invariant store attempts pointer) (store.reserve capture instances)
      (fun _ tree => Reserved store attempts pointer capture.id tree ∧ capture.id = instances.capture_id)
      (Invariant store attempts pointer) := by
  refine .bind (.lift (Q := fun _ tree => Invariant store attempts pointer tree ∧ capture.id = instances.capture_id)
    (fun _ tree hscope h => ⟨h, by simpa using hscope⟩) fun tree h => h) fun _ => ?_
  refine .bind (M := fun _ tree => (Invariant store attempts pointer tree ∧ store.Ready tree) ∧
    capture.id = instances.capture_id) ?_ fun _ => ?_
  · intro w hw
    obtain ⟨hok, herror⟩ := initialize_store_keeps w hw.1
    exact ⟨fun a w' hrun => ⟨hok a w' hrun, hw.2⟩, herror⟩
  refine .bind ((Triple.read_only (store.require_new_read_only capture.id) (Q := fun _ tree =>
    ((Invariant store attempts pointer tree ∧ store.Ready tree) ∧ capture.id = instances.capture_id) ∧
      tree (store.completed capture.id) = none) fun w a w' hw hrun => ⟨hw, Store.require_new_ok hrun⟩).weaken
    (fun _ h => h) (fun _ _ h => h) fun _ h => h.1.1) fun _ => ?_
  refine .map_err ((Triple.create fun tree hw hfree _ => ?_).weaken (fun _ h => h) (fun _ _ h => h) fun _ h => h.1.1.1)
  obtain ⟨⟨⟨hinvariant, hready⟩, hscope⟩, habsent⟩ := hw
  refine ⟨⟨hinvariant.prepared .reserved, fun path hpath => ?_, ?_, Tree.set_same _ _ _, fun attempt hattempt hinstalled heq => ?_⟩, hscope⟩
  · rw [Tree.set_other, hready path hpath]
    rintro rfl
    simp [Store.directories, Store.staging, Store.root, Path.join] at hpath
  · rw [Tree.set_other _ (by simp [Store.completed, Store.staging, Path.join]), habsent]
  · -- An earlier attempt with this ID left either the capture or its staging directory.
    cases hcompleted : attempt.completed store with
    | true =>
      have hlocated := (hinvariant.published attempt hattempt hcompleted).2.located
      rw [heq, habsent] at hlocated
      cases hlocated
    | false =>
      have hstaging := (hinvariant.dangling attempt hattempt hinstalled hcompleted).1
      rw [heq] at hstaging
      exact hstaging hfree

theorem Reserved.staged {id : CaptureId} {tree' : Tree} (h : Reserved store attempts pointer id tree)
    (hkept : ∀ path, (∀ file, path ≠ (store.staging id).join file) → tree' path = tree path) :
    Reserved store attempts pointer id tree' where
  invariant := h.invariant.prepared (.staged hkept)
  ready path hpath := by
    rw [hkept, h.ready path hpath]
    rintro file rfl
    simp [Store.directories, Store.staging, Store.root, Path.join] at hpath
  absent := by rw [hkept _ (by simp [Store.completed, Store.staging, Path.join]), h.absent]
  staging := by rw [hkept _ (by simp [Path.join]), h.staging]
  new := h.new

/-- Files are written to the staging directory only. -/
theorem stage_keeps (capture : CaptureRecord Artifact) (instances : InstanceManifest) (artifact_directory : Path) :
    Triple (Reserved store attempts pointer capture.id)
      (Store.stage (store.staging capture.id) capture instances artifact_directory)
      (fun _ => Reserved store attempts pointer capture.id) (Reserved store attempts pointer capture.id) :=
  .within (Store.stage_within _ _ _ _) fun _ _ hkept h => h.staged fun path hpath => hkept path fun ⟨file, hfile⟩ => hpath file hfile

/-- An attempt that fails before its pointer is installed changes no evidence. -/
theorem install_error (h : Invariant store attempts pointer attempt.start) {e : Error}
    (hrun : store.install attempt.capture attempt.instances attempt.artifact_directory attempt.world = (.error e, w')) :
    Invariant store attempts pointer w'.tree := by
  have hinstall : Triple (Invariant store attempts pointer)
      (store.install attempt.capture attempt.instances attempt.artifact_directory) (fun _ _ => True)
      (Invariant store attempts pointer) := by
    refine .bind (reserve_keeps attempt.capture attempt.instances) fun _ => ?_
    refine .bind ((stage_keeps attempt.capture attempt.instances attempt.artifact_directory).weaken
      (fun _ h => h.1) (fun _ _ h => h) fun _ h => h.invariant) fun _ => ?_
    exact .map_err ((Triple.perform fun _ _ _ _ _ => trivial).weaken (fun _ h => h) (fun _ _ h => h) fun _ h => h.invariant)
  exact hinstall.error h hrun

/-- An installed pointer replaces the one of its request, and nothing else. -/
theorem Reserved.replaced {key : CaptureKey} {id : CaptureId} {tree' : Tree} (h : Reserved store attempts pointer id tree)
    (hmove : Replaced store id key tree tree') {attempt : Attempt Artifact}
    (hpointer : Holds tree ((store.staging id).join "candidate.json") (CandidatePointer.new attempt.capture) MAX_HEADER_BYTES) :
    Reserved store attempts (fun other => if other = key then some attempt else pointer other) id tree' where
  invariant := {
    directories := fun path hpath => by
      rw [hmove.directories path hpath]
      exact h.invariant.directories path hpath
    published := fun other hother hcompleted => by
      obtain ⟨hready, hpublished⟩ := h.invariant.published other hother hcompleted
      refine ⟨fun path hpath => by rw [hmove.directories path hpath, hready path hpath], ?_⟩
      refine hpublished.transfer (hmove.captures _) fun name _ => ?_
      rw [Store.completed, Path.join, Path.join, List.append_assoc]
      exact hmove.captures _
    inputs := h.invariant.inputs
    distinct := h.invariant.distinct
    entries := fun name hname => h.invariant.entries name (by rwa [Path.join, ← hmove.captures])
    pointers := fun other => by
      by_cases heq : other = key
      · rw [if_pos heq, heq]
        exact hpointer.transfer hmove.pointer
      · rw [if_neg heq]
        exact (h.invariant.pointers other).transfer (hmove.candidates other heq)
    dangling := fun other hother hinstalled hcompleted => by
      obtain ⟨hstaging, habsent⟩ := h.invariant.dangling other hother hinstalled hcompleted
      refine ⟨by rwa [Store.staging, hmove.staging], ?_⟩
      rw [Store.completed, Path.join, hmove.captures]
      exact habsent }
  ready path hpath := by rw [hmove.directories path hpath, h.ready path hpath]
  absent := by
    rw [Store.completed, Path.join, hmove.captures]
    exact h.absent
  staging := by
    rw [Store.staging, hmove.staging]
    exact h.staging
  new := h.new

/-- A call whose pointer was not installed leaves no trace. -/
theorem Invariant.skipped (h : Invariant store attempts pointer tree) (hinstalled : attempt.installed store = false) :
    Invariant store (attempts ++ [attempt]) pointer tree := by
  have hcompleted : attempt.completed store = false := by
    rw [← Bool.not_eq_true]
    intro hcompleted
    rw [Attempt.installed_of_completed hcompleted] at hinstalled
    cases hinstalled
  have hold : ∀ other ∈ attempts ++ [attempt], other.installed store = true → other ∈ attempts := by
    intro other hother hother'
    rcases List.mem_append.mp hother with hmem | hlast
    · exact hmem
    · rw [List.mem_singleton.mp hlast, hinstalled] at hother'
      cases hother'
  exact {
    directories := h.directories
    published := fun other hother hdone =>
      h.published other (hold other hother (Attempt.installed_of_completed hdone)) hdone
    inputs := fun other hother hdone => h.inputs other (hold other hother (Attempt.installed_of_completed hdone)) hdone
    distinct := by simpa [hcompleted] using h.distinct
    entries := fun name hname => by
      obtain ⟨other, hother, hdone⟩ := h.entries name hname
      exact ⟨other, List.mem_append_left _ hother, hdone⟩
    pointers := h.pointers
    dangling := fun other hother hset => h.dangling other (hold other hother hset) hset }

/-- An attempt whose last rename failed leaves a dangling pointer. -/
theorem Reserved.dangling (h : Reserved store attempts pointer attempt.capture.id tree)
    (hcompleted : attempt.completed store = false) : Invariant store (attempts ++ [attempt]) pointer tree where
  directories := h.invariant.directories
  published other hother hdone := by
    rcases List.mem_append.mp hother with hmem | hlast
    · exact h.invariant.published other hmem hdone
    · rw [List.mem_singleton.mp hlast, hcompleted] at hdone
      cases hdone
  inputs other hother hdone := by
    rcases List.mem_append.mp hother with hmem | hlast
    · exact h.invariant.inputs other hmem hdone
    · rw [List.mem_singleton.mp hlast, hcompleted] at hdone
      cases hdone
  distinct := by simpa [hcompleted] using h.invariant.distinct
  entries name hname := by
    obtain ⟨other, hother, hdone⟩ := h.invariant.entries name hname
    exact ⟨other, List.mem_append_left _ hother, hdone⟩
  pointers := h.invariant.pointers
  dangling other hother hinstalled hdone := by
    rcases List.mem_append.mp hother with hmem | hlast
    · exact h.invariant.dangling other hmem hinstalled hdone
    · rw [List.mem_singleton.mp hlast, h.absent, h.staging]
      exact ⟨nofun, rfl⟩

/-- An attempt that returned `Ok` adds its capture. -/
theorem Reserved.committed {tree' : Tree} (h : Reserved store attempts pointer attempt.capture.id tree)
    (hpublished : Published tree (store.staging attempt.capture.id) attempt.capture attempt.instances attempt.files)
    (hinputs : ∀ artifact ∈ attempt.instances.artifacts,
      attempt.start (attempt.artifact_directory.join artifact.file_name) = some (.file (attempt.files artifact)))
    (hcompleted : attempt.completed store = true) (hmove : Committed store attempt.capture.id tree tree') :
    Invariant store (attempts ++ [attempt]) pointer tree' where
  directories path hpath := .inr (by rw [hmove.directories path hpath, h.ready path hpath])
  published other hother hdone := by
    refine ⟨fun path hpath => by rw [hmove.directories path hpath, h.ready path hpath], ?_⟩
    rcases List.mem_append.mp hother with hmem | hlast
    · have hne : (other.capture.id.value : OsString) ≠ attempt.capture.id.value := by
        have hnew := h.new other hmem (Attempt.installed_of_completed hdone)
        simpa [CaptureId.value_inj] using hnew
      refine (h.invariant.published other hmem hdone).2.transfer (hmove.captures _ [] hne) fun name _ => ?_
      rw [Store.completed, Path.join, Path.join, List.append_assoc]
      exact hmove.captures _ _ hne
    · rw [List.mem_singleton.mp hlast]
      refine hpublished.transfer ?_ fun name _ => hmove.capture [name]
      simpa using hmove.capture []
  inputs other hother hdone := by
    rcases List.mem_append.mp hother with hmem | hlast
    · exact h.invariant.inputs other hmem hdone
    · rw [List.mem_singleton.mp hlast]
      exact hinputs
  distinct := by
    have hlast : [attempt].filter (fun other => other.completed store) = [attempt] := by simp [hcompleted]
    rw [List.filter_append, hlast, List.map_append, List.nodup_append]
    refine ⟨h.invariant.distinct, by simp, ?_⟩
    intro id hid other hother
    obtain ⟨earlier, hearlier, rfl⟩ := List.mem_map.mp hid
    obtain ⟨hmem, hdone⟩ := List.mem_filter.mp hearlier
    rw [List.mem_singleton.mp hother]
    exact h.new earlier hmem (Attempt.installed_of_completed hdone)
  entries name hname := by
    by_cases heq : name = (attempt.capture.id.value : OsString)
    · exact ⟨attempt, by simp, hcompleted, heq⟩
    · rw [Path.join, hmove.captures _ _ heq] at hname
      obtain ⟨other, hother, hdone⟩ := h.invariant.entries name hname
      exact ⟨other, List.mem_append_left _ hother, hdone⟩
  pointers key := (h.invariant.pointers key).transfer (hmove.candidates key)
  dangling other hother hinstalled hdone := by
    rcases List.mem_append.mp hother with hmem | hlast
    · have hne : (other.capture.id.value : OsString) ≠ attempt.capture.id.value := by
        have hnew := h.new other hmem hinstalled
        simpa [CaptureId.value_inj] using hnew
      obtain ⟨hstaging, habsent⟩ := h.invariant.dangling other hmem hinstalled hdone
      refine ⟨by rwa [Store.staging, hmove.staging _ hne], ?_⟩
      rw [Store.completed, Path.join, hmove.captures _ _ hne]
      exact habsent
    · rw [List.mem_singleton.mp hlast, hcompleted] at hdone
      cases hdone

/-- What installation leaves: the reserved capture with all of its files, and its pointer. -/
theorem install_ok (h : Invariant store attempts pointer attempt.start)
    (hrun : store.install attempt.capture attempt.instances attempt.artifact_directory attempt.world = (.ok (), w')) :
    Reserved store attempts (fun key => if key = attempt.capture.analysis.request_key then some attempt else pointer key)
        attempt.capture.id w'.tree ∧
      Published w'.tree (store.staging attempt.capture.id) attempt.capture attempt.instances attempt.files ∧
      ∀ artifact ∈ attempt.instances.artifacts, attempt.start (attempt.artifact_directory.join artifact.file_name) =
        some (.file (attempt.files artifact)) := by
  obtain ⟨_, w1, hreserve, hrest⟩ := Action.bind_eq_ok_iff.mp hrun
  obtain ⟨_, w2, hstage, hreplace⟩ := Action.bind_eq_ok_iff.mp hrest
  obtain ⟨hreserved, hscope⟩ := (reserve_keeps attempt.capture attempt.instances).ok h hreserve
  have hstaged := (stage_keeps attempt.capture attempt.instances attempt.artifact_directory).ok hreserved hstage
  obtain ⟨hpublished, hpointer, hinput⟩ := Store.stage_ok hreserved.staging hscope hstage
  obtain ⟨-, -, hmove⟩ := rename_ok (with_context_eq_ok_iff.mp hreplace)
  have hreplaced := Replaced.move store attempt.capture.id attempt.capture.analysis.request_key w2.tree
  rw [← hmove] at hreplaced
  -- The inputs are not among the names that the reservation took.
  have hkept : ∀ artifact ∈ attempt.instances.artifacts, w1.tree (attempt.artifact_directory.join artifact.file_name) =
      attempt.start (attempt.artifact_directory.join artifact.file_name) := by
    intro artifact hartifact
    obtain ⟨hne, hfile⟩ := hinput artifact hartifact
    have hwithin := store.reserve_within attempt.capture attempt.instances attempt.world
      (attempt.artifact_directory.join artifact.file_name)
    rw [hreserve] at hwithin
    apply hwithin
    rintro ((hdirectory | hignore) | hstaging)
    · rw [hreserved.ready _ hdirectory] at hfile
      cases hfile
    · have hname : (artifact.file_name : OsString) = ".gitignore" := (join_inj.mp hignore).2
      have hne' : artifact.file_name ≠ ".gitignore" := artifact.file_name_ne (by decide)
      exact hne' (by simpa using hname)
    · rw [hstaging, hreserved.staging] at hfile
      cases hfile
  have hfiles : ∀ artifact ∈ attempt.instances.artifacts,
      input_files w1.tree attempt.artifact_directory artifact = attempt.files artifact := by
    intro artifact hartifact
    rw [Attempt.files, input_files, input_files, bytes_at, bytes_at, hkept artifact hartifact]
  refine ⟨hstaged.replaced hreplaced hpointer, ?_, fun artifact hartifact => ?_⟩
  · have hmoved := hpublished.transfer (hreplaced.staging _) fun name hname => ?_
    · exact {
        located := hmoved.located
        scope := hmoved.scope
        header := hmoved.header
        manifest := hmoved.manifest
        artifacts := fun artifact hartifact => by
          rw [← hfiles artifact hartifact]
          exact hmoved.artifacts artifact hartifact }
    · rw [Path.join]
      exact hreplaced.staged name [] hname
  · rw [← hkept artifact hartifact, ← hfiles artifact hartifact]
    exact (hinput artifact hartifact).2

/-- Every attempt keeps the invariant, whatever fails in it. -/
theorem Invariant.attempted (h : Invariant store attempts (fun key => last_installed store key attempts) attempt.start) :
    Invariant store (attempts ++ [attempt]) (fun key => last_installed store key (attempts ++ [attempt]))
      (attempt.after store) := by
  unfold Attempt.after Store.publish
  rcases hinstall : store.install attempt.capture attempt.instances attempt.artifact_directory attempt.world with ⟨e | _, w1⟩
  · have hinstalled : attempt.installed store = false := by
      rw [Attempt.installed, hinstall]
      rfl
    rw [Action.bind_of_error hinstall]
    simpa [last_installed_append, hinstalled] using (install_error h hinstall).skipped hinstalled
  · have hinstalled : attempt.installed store = true := by
      rw [Attempt.installed, hinstall]
      rfl
    obtain ⟨hreserved, hpublished, hinputs⟩ := install_ok h hinstall
    have hpointer : (fun key => last_installed store key (attempts ++ [attempt])) =
        fun key => if key = attempt.capture.analysis.request_key then some attempt else last_installed store key attempts := by
      funext key
      simp [last_installed_append, hinstalled, eq_comm]
    rw [Action.bind_of_ok hinstall, hpointer]
    rcases hcommit : with_context "publish" (store.completed attempt.capture.id)
      (rename (store.staging attempt.capture.id) (store.completed attempt.capture.id)) w1 with ⟨e | _, w2⟩
    · have hcompleted : attempt.completed store = false := by
        rw [Attempt.completed, Store.publish, Action.bind_of_ok hinstall, hcommit]
        rfl
      have hkeeps : Triple (· = w1.tree) (with_context "publish" (store.completed attempt.capture.id)
          (rename (store.staging attempt.capture.id) (store.completed attempt.capture.id))) (fun _ _ => True)
          (· = w1.tree) := .map_err (.perform fun _ _ _ _ _ => trivial)
      rw [hkeeps.error rfl hcommit]
      exact hreserved.dangling hcompleted
    · have hcompleted : attempt.completed store = true := by
        rw [Attempt.completed, Store.publish, Action.bind_of_ok hinstall, hcommit]
        rfl
      obtain ⟨-, -, hmove⟩ := rename_ok (with_context_eq_ok_iff.mp hcommit)
      rw [hmove]
      exact hreserved.committed hpublished hinputs hcompleted (.move store attempt.capture.id w1.tree)

/-- The invariant holds after every history. -/
theorem History.invariant (h : History store attempts tree) :
    Invariant store attempts (fun key => last_installed store key attempts) tree := by
  induction h with
  | start hunopened => exact .start hunopened
  | elsewhere _ hkept ih => exact ih.prepared (.elsewhere hkept)
  | initialized _ schedule ih =>
    rcases hrun : store.initialize_store { tree := _, schedule } with ⟨e | _, w'⟩
    · exact initialize_store_keeps.error ih hrun
    · exact (initialize_store_keeps.ok ih hrun).1
  | published attempt _ ih => exact ih.attempted

end optic.store
