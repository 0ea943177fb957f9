import Optic.Store.PublishSpec

open rust file_system optic.records

namespace optic.store

/-- What may change before a pointer is installed: missing directories appear, and so does
anything below the staging namespace. -/
structure Prepared (store : Store) (tree tree' : Tree) : Prop where
  directories : ∀ path ∈ store.directories, tree' path = tree path ∨ (tree path = none ∧ tree' path = some .dir)
  staging : ∀ name, tree ((store.root.join "staging").join name) ≠ none →
    tree' ((store.root.join "staging").join name) ≠ none
  captures : ∀ path, path ≠ [] → tree' (store.root.join "captures" ++ path) = tree (store.root.join "captures" ++ path)
  candidates : ∀ name, tree' ((store.root.join "candidates").join name) = tree ((store.root.join "candidates").join name)

namespace Prepared

variable {store : Store} {tree tree' : Tree}

/-- Nothing in the directory of a store changes. -/
theorem elsewhere (h : ∀ path, store.optic_directory <+: path → tree' path = tree path) : Prepared store tree tree' where
  directories path hpath := .inl (h path (by
    simp only [Store.directories, List.mem_cons, List.not_mem_nil, or_false] at hpath
    rcases hpath with rfl | rfl | rfl | rfl | rfl <;> simp [Store.root, Path.join]))
  staging name hname := by rwa [h _ (by simp [Store.root, Path.join])]
  captures path _ := h _ (by simp [Store.root, Path.join])
  candidates name := h _ (by simp [Store.root, Path.join])

theorem ignored (h : ∀ path, path ≠ store.ignore → tree' path = tree path) : Prepared store tree tree' where
  directories path hpath := .inl (h path (by
    rintro rfl
    simp [Store.directories, Store.ignore, Store.root, Path.join] at hpath))
  staging name hname := by rwa [h _ (by simp [Store.ignore, Store.root, Path.join])]
  captures path _ := h _ (by simp [Store.ignore, Store.root, Path.join])
  candidates name := h _ (by simp [Store.ignore, Store.root, Path.join])

/-- A missing directory appears. -/
theorem directory {path : Path} (hpath : path ∈ store.directories) (hfree : tree path = none) :
    Prepared store tree (tree.set path .dir) where
  directories other _ := by
    by_cases heq : other = path
    · rw [heq, Tree.set_same]
      exact .inr ⟨hfree, rfl⟩
    · exact .inl (Tree.set_other _ heq)
  staging name hname := by
    by_cases heq : (store.root.join "staging").join name = path
    · rw [heq, Tree.set_same]
      simp
    · rwa [Tree.set_other _ heq]
  captures other hother := by
    refine Tree.set_other _ ?_
    rintro rfl
    simp [Store.directories, Store.root, Path.join, hother] at hpath
  candidates name := by
    refine Tree.set_other _ ?_
    rintro rfl
    simp [Store.directories, Store.root, Path.join] at hpath

/-- A staging directory appears. -/
theorem reserved {name : OsString} : Prepared store tree (tree.set ((store.root.join "staging").join name) .dir) where
  directories other hother := by
    refine .inl (Tree.set_other _ ?_)
    rintro rfl
    simp [Store.directories, Store.root, Path.join] at hother
  staging other hother := by
    by_cases heq : (store.root.join "staging").join other = (store.root.join "staging").join name
    · rw [heq, Tree.set_same]
      simp
    · rwa [Tree.set_other _ heq]
  captures other hother := Tree.set_other _ (by simp [Path.join])
  candidates other := Tree.set_other _ (by simp [Path.join])

/-- Files appear in a staging directory. -/
theorem staged {name : OsString} (h : ∀ path, (∀ file, path ≠ ((store.root.join "staging").join name).join file) →
    tree' path = tree path) : Prepared store tree tree' where
  directories path hpath := .inl (h path (by
    rintro file rfl
    simp [Store.directories, Store.root, Path.join] at hpath))
  staging other hother := by rwa [h _ (by simp [Path.join])]
  captures other _ := h _ (by simp [Path.join])
  candidates other := h _ (by simp [Path.join])

end Prepared

theorem not_prefix_of_length {path path' : Path} (h : path'.length < path.length) : ¬ path <+: path' :=
  fun hprefix => absurd hprefix.length_le (by omega)

theorem directories_length {store : Store} {path : Path} (h : path ∈ store.directories) :
    path.length ≤ store.root.length + 1 := by
  simp only [Store.directories, List.mem_cons, List.not_mem_nil, or_false] at h
  rcases h with rfl | rfl | rfl | rfl | rfl <;> simp +arith [Store.root, Path.join]

/-- What changes when a staged pointer replaces the one of its request. -/
structure Replaced (store : Store) (id : CaptureId) (key : CaptureKey) (tree tree' : Tree) : Prop where
  directories : ∀ path ∈ store.directories, tree' path = tree path
  staging : ∀ name, tree' ((store.root.join "staging").join name) = tree ((store.root.join "staging").join name)
  staged : ∀ file rest, file ≠ ("candidate.json" : OsString) →
    tree' (store.staging id ++ file :: rest) = tree (store.staging id ++ file :: rest)
  captures : ∀ path, tree' (store.root.join "captures" ++ path) = tree (store.root.join "captures" ++ path)
  pointer : tree' (store.candidate_path key) = tree ((store.staging id).join "candidate.json")
  candidates : ∀ other, other ≠ key → tree' (store.candidate_path other) = tree (store.candidate_path other)

theorem Replaced.move (store : Store) (id : CaptureId) (key : CaptureKey) (tree : Tree) :
    Replaced store id key tree (tree.move ((store.staging id).join "candidate.json") (store.candidate_path key)) where
  directories path hpath := by
    have hlength := directories_length hpath
    apply Tree.move_apart <;> apply not_prefix_of_length <;> simp [Store.candidate_path, Store.staging, Path.join] <;>
      omega
  staging name := by
    apply Tree.move_apart
    · simp [Store.candidate_path, Path.join, List.prefix_append_right_inj]
    · apply not_prefix_of_length
      simp [Store.staging, Path.join]
  staged file rest hfile := by
    apply Tree.move_apart
    · simp [Store.candidate_path, Store.staging, Path.join, List.prefix_append_right_inj]
    · simpa [Store.staging, Path.join, List.prefix_append_right_inj] using hfile.symm
  captures path := by
    apply Tree.move_apart
    · simp [Store.candidate_path, Path.join, List.prefix_append_right_inj]
    · simp [Store.staging, Path.join, List.prefix_append_right_inj]
  pointer := by
    have hmove : tree.move ((store.staging id).join "candidate.json") (store.candidate_path key)
      (store.candidate_path key ++ []) = tree ((store.staging id).join "candidate.json" ++ []) := Tree.move_below []
    simpa using hmove
  candidates other hother := by
    apply Tree.move_apart
    · simpa [Store.candidate_path, Path.join, List.prefix_append_right_inj, CaptureKey.value_inj] using hother.symm
    · simp [Store.candidate_path, Store.staging, Path.join, List.prefix_append_right_inj]

/-- What changes when a staged capture becomes visible. -/
structure Committed (store : Store) (id : CaptureId) (tree tree' : Tree) : Prop where
  directories : ∀ path ∈ store.directories, tree' path = tree path
  staging : ∀ name, name ≠ (id.value : OsString) →
    tree' ((store.root.join "staging").join name) = tree ((store.root.join "staging").join name)
  captures : ∀ name rest, name ≠ (id.value : OsString) →
    tree' (store.root.join "captures" ++ name :: rest) = tree (store.root.join "captures" ++ name :: rest)
  capture : ∀ path, tree' (store.completed id ++ path) = tree (store.staging id ++ path)
  candidates : ∀ key, tree' (store.candidate_path key) = tree (store.candidate_path key)

theorem Committed.move (store : Store) (id : CaptureId) (tree : Tree) :
    Committed store id tree (tree.move (store.staging id) (store.completed id)) where
  directories path hpath := by
    have hlength := directories_length hpath
    apply Tree.move_apart <;> apply not_prefix_of_length <;> simp [Store.completed, Store.staging, Path.join] <;> omega
  staging name hname := by
    apply Tree.move_apart
    · simp [Store.completed, Path.join, List.prefix_append_right_inj]
    · simpa [Store.staging, Path.join, List.prefix_append_right_inj] using hname.symm
  captures name rest hname := by
    apply Tree.move_apart
    · simpa [Store.completed, Path.join, List.prefix_append_right_inj] using hname.symm
    · simp [Store.staging, Path.join, List.prefix_append_right_inj]
  capture path := Tree.move_below path
  candidates key := by
    apply Tree.move_apart
    · simp [Store.candidate_path, Store.completed, Path.join, List.prefix_append_right_inj]
    · simp [Store.candidate_path, Store.staging, Path.join, List.prefix_append_right_inj]

variable {Artifact : Type} [Serde (CaptureRecord Artifact)] [Serde InstanceManifest] [Serde CandidatePointer]

/-- One call of publish: what it is given, the tree it starts from, and which operations fail. -/
structure Attempt (Artifact : Type) where
  capture : CaptureRecord Artifact
  instances : InstanceManifest
  artifact_directory : Path
  start : Tree
  schedule : List (Option Failure)

namespace Attempt

variable (store : Store) (self : Attempt Artifact)

def world {Artifact : Type} (self : Attempt Artifact) : World := { tree := self.start, schedule := self.schedule }

/-- The bytes of the input artifacts. -/
def files {Artifact : Type} (self : Attempt Artifact) : ArtifactRecord → List UInt8 :=
  input_files self.start self.artifact_directory

/-- Whether the pointer rename took effect. -/
def installed : Bool := (store.install self.capture self.instances self.artifact_directory self.world).1.isOk

/-- Whether the call returned `Ok`. -/
def completed : Bool := (store.publish self.capture self.instances self.artifact_directory self.world).1.isOk

def after : Tree := (store.publish self.capture self.instances self.artifact_directory self.world).2.tree

end Attempt

/-- A workspace without a store. -/
def Store.Unopened (self : Store) (tree : Tree) : Prop :=
  (tree self.optic_directory = none ∨ tree self.optic_directory = some .dir) ∧
    ∀ path, self.root <+: path → tree path = none

/-- The attempts on a store so far, and the tree that they lead to. Between them the store can be
initialized, and everything outside of its directory may change. -/
inductive History (store : Store) : List (Attempt Artifact) → Tree → Prop
  | start {tree : Tree} (h : store.Unopened tree) : History store [] tree
  | elsewhere {attempts : List (Attempt Artifact)} {tree tree' : Tree} (before : History store attempts tree)
      (h : ∀ path, store.optic_directory <+: path → tree' path = tree path) : History store attempts tree'
  | initialized {attempts : List (Attempt Artifact)} {tree : Tree} (before : History store attempts tree)
      (schedule : List (Option Failure)) : History store attempts (store.initialize_store { tree, schedule }).2.tree
  | published {attempts : List (Attempt Artifact)} (attempt : Attempt Artifact)
      (before : History store attempts attempt.start) : History store (attempts ++ [attempt]) (attempt.after store)

/-- The last attempt for a request whose pointer rename took effect. -/
def last_installed (store : Store) (key : CaptureKey) (attempts : List (Attempt Artifact)) : Option (Attempt Artifact) :=
  attempts.reverse.find? fun attempt => attempt.installed store && attempt.capture.analysis.request_key = key

theorem last_installed_append (store : Store) (key : CaptureKey) (attempts : List (Attempt Artifact)) (attempt : Attempt Artifact) :
    last_installed store key (attempts ++ [attempt]) =
      if attempt.installed store && attempt.capture.analysis.request_key = key then some attempt
      else last_installed store key attempts := by
  rw [last_installed, List.reverse_append, List.reverse_singleton, List.singleton_append, List.find?_cons]
  split
  · next h => rw [if_pos h]
  · next h => rw [if_neg (by simpa using h), last_installed]

/-- A pointer file belongs to the last attempt that installed one. -/
def Points (tree : Tree) (path : Path) : Option (Attempt Artifact) → Prop
  | none => tree path = none
  | some attempt => Holds tree path (CandidatePointer.new attempt.capture) MAX_HEADER_BYTES

/-- What attempts leave behind: the completed captures with their files and nothing beside them,
the pointer of each request, and the staging directory of a capture that has a pointer but did
not become visible. -/
structure Invariant (store : Store) (attempts : List (Attempt Artifact)) (pointer : CaptureKey → Option (Attempt Artifact))
    (tree : Tree) : Prop where
  directories : ∀ path ∈ store.directories, tree path = none ∨ tree path = some .dir
  published : ∀ attempt ∈ attempts, attempt.completed store = true → store.Ready tree ∧
    Published tree (store.completed attempt.capture.id) attempt.capture attempt.instances attempt.files
  inputs : ∀ attempt ∈ attempts, attempt.completed store = true → ∀ artifact ∈ attempt.instances.artifacts,
    attempt.start (attempt.artifact_directory.join artifact.file_name) = some (.file (attempt.files artifact))
  distinct : ((attempts.filter fun attempt => attempt.completed store).map fun attempt => attempt.capture.id).Nodup
  entries : ∀ name, tree ((store.root.join "captures").join name) ≠ none →
    ∃ attempt ∈ attempts, attempt.completed store = true ∧ name = (attempt.capture.id.value : OsString)
  pointers : ∀ key, Points tree (store.candidate_path key) (pointer key)
  dangling : ∀ attempt ∈ attempts, attempt.installed store = true → attempt.completed store = false →
    tree (store.staging attempt.capture.id) ≠ none ∧ tree (store.completed attempt.capture.id) = none

omit [Serde (CaptureRecord Artifact)] [Serde InstanceManifest] in
theorem Points.transfer {tree tree' : Tree} {path path' : Path} {last : Option (Attempt Artifact)} (h : Points tree path last)
    (hfile : tree' path' = tree path) : Points tree' path' last := by
  cases last with
  | none => exact hfile.trans h
  | some attempt => exact Holds.transfer h hfile

namespace Invariant

variable {store : Store} {attempts : List (Attempt Artifact)} {pointer : CaptureKey → Option (Attempt Artifact)}
  {tree tree' : Tree}

theorem prepared (h : Invariant store attempts pointer tree) (hprepared : Prepared store tree tree') :
    Invariant store attempts pointer tree' where
  directories path hpath := by
    rcases hprepared.directories path hpath with hsame | ⟨-, hdir⟩
    · rw [hsame]
      exact h.directories path hpath
    · exact .inr hdir
  published attempt hattempt hcompleted := by
    obtain ⟨hready, hpublished⟩ := h.published attempt hattempt hcompleted
    refine ⟨fun path hpath => ?_, hpublished.transfer (hprepared.captures _ (by simp)) fun name _ => ?_⟩
    · rcases hprepared.directories path hpath with hsame | ⟨-, hdir⟩
      · rw [hsame, hready path hpath]
      · exact hdir
    · rw [Store.completed, Path.join, Path.join, List.append_assoc]
      exact hprepared.captures _ (by simp)
  inputs := h.inputs
  distinct := h.distinct
  entries name hname := h.entries name (by
    rw [Path.join, ← hprepared.captures _ (by simp)]
    exact hname)
  pointers key := (h.pointers key).transfer (hprepared.candidates _)
  dangling attempt hattempt hinstalled hcompleted := by
    obtain ⟨hstaging, habsent⟩ := h.dangling attempt hattempt hinstalled hcompleted
    refine ⟨hprepared.staging _ hstaging, ?_⟩
    rw [Store.completed, Path.join, hprepared.captures _ (by simp)]
    exact habsent

theorem start (h : store.Unopened tree) : Invariant store ([] : List (Attempt Artifact)) (fun _ => none) tree where
  directories path hpath := by
    simp only [Store.directories, List.mem_cons, List.not_mem_nil, or_false] at hpath
    rcases hpath with rfl | rfl | rfl | rfl | rfl
    · exact h.1
    · exact .inl (h.2 _ List.prefix_rfl)
    · exact .inl (h.2 _ (List.prefix_append _ _))
    · exact .inl (h.2 _ (List.prefix_append _ _))
    · exact .inl (h.2 _ (List.prefix_append _ _))
  published attempt hattempt := absurd hattempt List.not_mem_nil
  inputs attempt hattempt := absurd hattempt List.not_mem_nil
  distinct := List.nodup_nil
  entries name hname := by
    have hbelow : store.root <+: (store.root.join "captures").join name := by simp [Path.join]
    exact absurd (h.2 _ hbelow) hname
  pointers key := by
    have hbelow : store.root <+: store.candidate_path key := by simp [Store.candidate_path, Path.join]
    exact h.2 _ hbelow
  dangling attempt hattempt := absurd hattempt List.not_mem_nil

end Invariant

end optic.store
