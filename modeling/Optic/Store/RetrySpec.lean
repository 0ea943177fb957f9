import Optic.FileSystem.Faults
import Optic.Store.InitializeSpec

open rust file_system

namespace optic.store

variable {tree tree' : Tree} {path : Path} {i : Nat} {failure : Failure}

/-- A directory exists, or its name is free in its parent. -/
def Makeable (tree : Tree) (path : Path) : Prop :=
  tree path = some .dir ∨ tree path = none ∧ tree path.dropLast = some .dir

/-- How many operations creating a directory takes. -/
def directory_operations (tree : Tree) (path : Path) : Nat := if tree path = none then 2 else 1

theorem set_eq_self {entry : Entry} (h : tree path = some entry) : tree.set path entry = tree := by
  funext other
  by_cases heq : other = path
  · rw [heq, Tree.set_same, h]
  · rw [Tree.set_other _ heq]

theorem directory_exists_runs (found : Bool) (h : tree path = if found then some .dir else none) :
    Runs (directory_exists path) tree (1 + 0) (.ok found) tree := by
  cases found with
  | true => exact .attempt (.symlink_metadata h) (.ite_pos rfl .pure)
  | false => exact .attempt (.symlink_metadata_absent h) (.ite_pos rfl .pure)

theorem directory_exists_stops (failure : Failure) : Stops (directory_exists path) tree 0 failure
    (.Filesystem "read metadata for" path failure.error) tree :=
  .attempt .perform (.ite_neg failure.absent .fail)

theorem create_directory_runs (h : Makeable tree path) :
    Runs (create_directory path) tree (directory_operations tree path) (.ok ()) (tree.set path .dir) := by
  rcases h with hdir | ⟨hfree, hparent⟩
  · rw [directory_operations, if_neg (by simp [hdir]), set_eq_self hdir]
    show Runs (create_directory path) tree (1 + 0 + 0) (.ok ()) tree
    exact .bind (directory_exists_runs true hdir) (.ite_pos rfl .pure)
  · rw [directory_operations, if_pos hfree]
    show Runs (create_directory path) tree (1 + 0 + 1) (.ok ()) (tree.set path .dir)
    exact .bind (directory_exists_runs false hfree) (.ite_neg (by decide) (.map_err (.create _ hfree hparent)))

/-- A failure leaves everything as it was. -/
theorem create_directory_phase (h : Makeable tree path) : Phase (create_directory path) tree
    (directory_operations tree path) (tree.set path .dir) fun _ _ after => after = tree where
  runs := create_directory_runs h
  stops i hi failure := by
    unfold directory_operations at hi
    split at hi
    · next hfree =>
      by_cases hfirst : i = 0
      · exact ⟨_, tree, hfirst ▸ (directory_exists_stops failure).bind, rfl⟩
      · obtain rfl : i = 1 + 0 + 0 := by omega
        refine ⟨.Filesystem "create" path failure.error, tree, ?_, rfl⟩
        exact .bind_after (directory_exists_runs false hfree) (.ite_neg (by decide) (.map_err .create))
    · obtain rfl : i = 0 := by omega
      exact ⟨_, tree, (directory_exists_stops failure).bind, rfl⟩

/-- The names that lead to directories or to nothing. -/
def Available (tree : Tree) (paths : List Path) : Prop := ∀ path ∈ paths, tree path = none ∨ tree path = some .dir

/-- All of the names lead to directories. -/
def provide (tree : Tree) : List Path → Tree
  | [] => tree
  | path :: paths => provide (tree.set path .dir) paths

theorem provide_not_mem {paths : List Path} (h : path ∉ paths) : provide tree paths path = tree path := by
  induction paths generalizing tree with
  | nil => rfl
  | cons first paths ih =>
    rw [List.mem_cons, not_or] at h
    rw [provide, ih h.2, Tree.set_other _ h.1]

theorem provide_mem {paths : List Path} (h : path ∈ paths) : provide tree paths path = some .dir := by
  induction paths generalizing tree with
  | nil => cases h
  | cons first paths ih =>
    by_cases hrest : path ∈ paths
    · exact ih hrest
    · rcases List.mem_cons.mp h with rfl | hmem
      · rw [provide, provide_not_mem hrest, Tree.set_same]
      · exact absurd hmem hrest

theorem provide_set_other {paths : List Path} (tree : Tree) (entry : Entry) (h : path ∉ paths) :
    provide (tree.set path entry) paths = (provide tree paths).set path entry := by
  funext other
  by_cases heq : other = path
  · rw [heq, provide_not_mem h, Tree.set_same, Tree.set_same]
  · rw [Tree.set_other _ heq]
    by_cases hmem : other ∈ paths
    · rw [provide_mem hmem, provide_mem hmem]
    · rw [provide_not_mem hmem, provide_not_mem hmem, Tree.set_other _ heq]

/-- Each entry is what it is in one tree or what it is in the other. -/
def Between (tree goal tree' : Tree) : Prop := ∀ path, tree' path = tree path ∨ tree' path = goal path

theorem Between.refl (tree goal : Tree) : Between tree goal tree := fun _ => .inl rfl

theorem Between.after_set {goal after : Tree} {entry : Entry} (hgoal : goal path = some entry)
    (h : Between (tree.set path entry) goal after) : Between tree goal after := by
  intro other
  rcases h other with hsame | hgoal'
  · by_cases heq : other = path
    · exact .inr (by rw [hsame, heq, Tree.set_same, hgoal])
    · exact .inl (by rw [hsame, Tree.set_other _ heq])
  · exact .inr hgoal'

theorem Available.set {paths : List Path} (h : Available tree paths) (path : Path) : Available (tree.set path .dir) paths := by
  intro other hother
  by_cases heq : other = path
  · exact .inr (by rw [heq, Tree.set_same])
  · rw [Tree.set_other _ heq]
    exact h other hother

/-- A failure leaves some of the directories missing. -/
theorem create_directories_phase {paths : List Path} {parent : Path} (hparent : tree parent = some .dir)
    (hpaths : ∀ path ∈ paths, path.dropLast = parent) (havailable : Available tree paths) :
    ∃ count, Phase (create_directories paths) tree count (provide tree paths) fun _ _ => Between tree (provide tree paths) := by
  induction paths generalizing tree with
  | nil => exact ⟨0, .pure, fun i hi => absurd hi (Nat.not_lt_zero i)⟩
  | cons path paths ih =>
    obtain ⟨hpath, hrest⟩ := List.forall_mem_cons.mp hpaths
    obtain ⟨hfirst, hothers⟩ := List.forall_mem_cons.mp havailable
    have hmakeable : Makeable tree path := by
      rcases hfirst with hfree | hdir
      · exact .inr ⟨hfree, by rw [hpath, hparent]⟩
      · exact .inl hdir
    have hparent' : tree.set path .dir parent = some .dir := by
      by_cases heq : parent = path
      · rw [heq, Tree.set_same]
      · rw [Tree.set_other _ heq, hparent]
    obtain ⟨count, hphase⟩ := ih hparent' hrest (Available.set hothers path)
    refine ⟨_, .bind ((create_directory_phase hmakeable).mono ?_) (hphase.mono ?_)⟩
    · rintro i failure after - rfl
      exact .refl _ _
    · intro i failure after _ hafter
      exact Between.after_set (provide_mem List.mem_cons_self) hafter

theorem append_new (tree : Tree) (path : Path) (bytes : List UInt8) :
    (tree.set path (.file [])).append path bytes = tree.set path (.file bytes) := by
  funext other
  by_cases heq : other = path
  · rw [heq, Tree.append_file bytes (Tree.set_same tree path _), Tree.set_same, List.nil_append]
  · rw [Tree.append_other bytes heq, Tree.set_other _ heq, Tree.set_other _ heq]

/-- What the ignore file holds when it is in order. -/
def ignore_contents : Entry := .file (text "*\n")

theorem initialize_ignore_runs (h : tree path = some ignore_contents ∨ tree path = none ∧ tree path.dropLast = some .dir) :
    Runs (Store.initialize_ignore path) tree (1 + 2) (.ok ()) (tree.set path ignore_contents) := by
  rcases h with hfile | ⟨hfree, hparent⟩
  · rw [set_eq_self hfile]
    refine .attempt (.symlink_metadata hfile) ?_
    have hread : Runs (with_context "read" path do let rest ← open_file path; read (.ok (rest.take 3))) tree (1 + 1)
        (.ok (text "*\n")) tree := .map_err (.bind (.open_file hfile) .read)
    show Runs _ tree (0 + (0 + (1 + 1 + 0))) _ tree
    refine .bind (a := ()) .lift (.bind (a := ()) .lift (.bind hread .lift))
  · refine .attempt (.symlink_metadata_absent hfree) (.ite_pos rfl ?_)
    rw [ignore_contents, ← append_new]
    show Runs _ tree (1 + 1) _ _
    exact .bind (.map_err (.create _ hfree hparent)) (.map_err (.map_err .write_file))

/-- The tree that a failure of operation `i` of an initialization of the ignore file leaves. Only
a failed write changes it. -/
def torn (tree : Tree) (ignore : Path) (i : Nat) (failure : Failure) : Tree :=
  if tree ignore = none ∧ i = 2 then tree.set ignore (.file ((text "*\n").take failure.written)) else tree

theorem initialize_ignore_phase (h : tree path = some ignore_contents ∨ tree path = none ∧ tree path.dropLast = some .dir) :
    Phase (Store.initialize_ignore path) tree (1 + 2) (tree.set path ignore_contents) fun i failure after =>
      after = torn tree path i failure where
  runs := initialize_ignore_runs h
  stops i hi failure := by
    by_cases hfirst : i = 0
    · refine ⟨.Filesystem "read metadata for" path failure.error, _, ?_, rfl⟩
      rw [torn, if_neg (by omega), hfirst]
      exact .attempt .perform (.ite_neg failure.absent .fail)
    rcases h with hfile | ⟨hfree, hparent⟩
    · refine ⟨.Filesystem "read" path failure.error, _, ?_, rfl⟩
      rw [torn, if_neg (by simp [hfile])]
      obtain ⟨j, rfl⟩ : ∃ j, i = 1 + (0 + (0 + j)) := ⟨i - 1, by omega⟩
      refine .attempt_after (.symlink_metadata hfile) (.bind_after (a := ()) .lift (.bind_after (a := ()) .lift (.bind ?_)))
      apply Stops.map_err
      by_cases hopen : j = 0
      · rw [hopen]
        exact .bind .perform
      · obtain rfl : j = 1 + 0 := by omega
        exact .bind_after (.open_file hfile) .perform
    · by_cases hcreate : i = 1 + 0
      · refine ⟨.Filesystem "create" path failure.error, _, ?_, rfl⟩
        rw [torn, if_neg (by omega), hcreate]
        exact .attempt_after (.symlink_metadata_absent hfree) (.ite_pos rfl (.bind (.map_err .create)))
      · obtain rfl : i = 1 + (1 + 0) := by omega
        refine ⟨.Filesystem "write" path failure.error, _, ?_, rfl⟩
        rw [torn, if_pos ⟨hfree, rfl⟩, ← append_new]
        refine .attempt_after (.symlink_metadata_absent hfree) (.ite_pos rfl ?_)
        exact .bind_after (.map_err (.create _ hfree hparent)) (.map_err (.map_err .write_file))

namespace Store

variable {self : Store}

/-- A workspace in which a store can be initialized. -/
structure Initializable (store : Store) (tree : Tree) : Prop where
  workspace : tree store.optic_directory = none → tree store.workspace_root = some .dir
  available : Available tree store.directories
  ignored : tree store.ignore = none ∨ tree store.ignore = some ignore_contents

/-- The workspace with an initialized store. -/
def initialized (self : Store) (tree : Tree) : Tree := (provide tree self.directories).set self.ignore ignore_contents

theorem ignore_not_directory (self : Store) : self.ignore ∉ self.directories := by
  simp [directories, ignore, root, Path.join]

theorem directory_ne_ignore (h : path ∈ self.directories) : path ≠ self.ignore :=
  fun heq => self.ignore_not_directory (heq ▸ h)

theorem workspace_not_directory (self : Store) : self.workspace_root ∉ self.directories := by
  simp [directories, optic_directory, root, Path.join]

theorem workspace_not_ignore (self : Store) : self.workspace_root ≠ self.ignore := by
  simp [ignore, optic_directory, Path.join]

theorem initialized_ignore (self : Store) (tree : Tree) : self.initialized tree self.ignore = some ignore_contents :=
  Tree.set_same _ _ _

theorem initialized_directory (tree : Tree) (h : path ∈ self.directories) : self.initialized tree path = some .dir := by
  rw [initialized, Tree.set_other _ (directory_ne_ignore h), provide_mem h]

theorem initialized_other (tree : Tree) (hdirectory : path ∉ self.directories) (hignore : path ≠ self.ignore) :
    self.initialized tree path = tree path := by
  rw [initialized, Tree.set_other _ hignore, provide_not_mem hdirectory]

/-- Initialization that ended early can be completed. -/
theorem Initializable.between (h : self.Initializable tree) (hbetween : Between tree (self.initialized tree) tree') :
    self.Initializable tree' ∧ self.initialized tree' = self.initialized tree := by
  have hother (path : Path) (hdirectory : path ∉ self.directories) (hignore : path ≠ self.ignore) :
      tree' path = tree path := by
    rcases hbetween path with hsame | hgoal
    · exact hsame
    · rw [hgoal, initialized_other tree hdirectory hignore]
  refine ⟨⟨fun hfree => ?_, fun path hpath => ?_, ?_⟩, ?_⟩
  · have hsame : tree' self.optic_directory = tree self.optic_directory := by
      rcases hbetween self.optic_directory with hsame | hgoal
      · exact hsame
      · rw [hgoal, initialized_directory tree (by simp [directories])] at hfree
        cases hfree
    rw [hother self.workspace_root self.workspace_not_directory self.workspace_not_ignore]
    exact h.workspace (hsame ▸ hfree)
  · rcases hbetween path with hsame | hgoal
    · rw [hsame]
      exact h.available path hpath
    · exact .inr (hgoal.trans (initialized_directory tree hpath))
  · rcases hbetween self.ignore with hsame | hgoal
    · rw [hsame]
      exact h.ignored
    · exact .inr (hgoal.trans (self.initialized_ignore tree))
  · funext path
    by_cases hignore : path = self.ignore
    · rw [hignore, initialized_ignore, initialized_ignore]
    · by_cases hdirectory : path ∈ self.directories
      · rw [initialized_directory tree' hdirectory, initialized_directory tree hdirectory]
      · rw [initialized_other tree' hdirectory hignore, initialized_other tree hdirectory hignore,
          hother path hdirectory hignore]

/-- Operation `i` is the write of a new ignore file, and fails before the file is complete. -/
def Tears (self : Store) (tree : Tree) (i : Nat) (failure : Failure) : Prop :=
  tree self.ignore = none ∧ i = directory_operations tree self.optic_directory + 2 ∧ failure.written < 2

instance (self : Store) (tree : Tree) (i : Nat) (failure : Failure) : Decidable (self.Tears tree i failure) :=
  inferInstanceAs (Decidable (_ ∧ _ ∧ _))

/-- What a failure of operation `i` of an initialization leaves. -/
def Left (self : Store) (tree : Tree) (i : Nat) (failure : Failure) (after : Tree) : Prop :=
  if self.Tears tree i failure then
    after self.optic_directory = some .dir ∧ after self.ignore = some (.file ((text "*\n").take failure.written))
  else Between tree (self.initialized tree) after

/-- The directories that the root of a store contains. -/
def contents (self : Store) : List Path :=
  [self.root.join "staging", self.root.join "captures", self.root.join "candidates"]

theorem root_phase (hoptic : tree self.optic_directory = some .dir) (havailable : Available tree (self.root :: self.contents)) :
    ∃ count, Phase (do create_directory self.root; create_directories self.contents) tree count
      (provide tree (self.root :: self.contents)) fun _ _ => Between tree (provide tree (self.root :: self.contents)) := by
  obtain ⟨hroot, hcontents⟩ := List.forall_mem_cons.mp havailable
  have hmakeable : Makeable tree self.root := by
    rcases hroot with hfree | hdir
    · exact .inr ⟨hfree, by simpa [root, Path.join] using hoptic⟩
    · exact .inl hdir
  obtain ⟨count, hphase⟩ := create_directories_phase (Tree.set_same tree self.root .dir)
    (by simp [contents, Path.join]) (Available.set hcontents self.root)
  refine ⟨_, .bind ((create_directory_phase hmakeable).mono ?_) (hphase.mono ?_)⟩
  · rintro i failure after - rfl
    exact .refl _ _
  · intro i failure after _ hafter
    exact Between.after_set (provide_mem List.mem_cons_self) hafter

/-- What a failure leaves after the first directory exists. -/
def LeftBehind (self : Store) (tree : Tree) (i : Nat) (failure : Failure) (after : Tree) : Prop :=
  if tree self.ignore = none ∧ i = 2 ∧ failure.written < 2 then
    after = tree.set self.ignore (.file ((text "*\n").take failure.written))
  else Between tree ((provide tree (self.root :: self.contents)).set self.ignore ignore_contents) after

theorem ignore_phase (hoptic : tree self.optic_directory = some .dir) (havailable : Available tree (self.root :: self.contents))
    (hignored : tree self.ignore = none ∨ tree self.ignore = some ignore_contents) :
    ∃ count, 2 < count ∧ Phase (do initialize_ignore self.ignore; create_directory self.root; create_directories self.contents)
      tree count ((provide tree (self.root :: self.contents)).set self.ignore ignore_contents) (self.LeftBehind tree) := by
  have houtside : self.ignore ∉ self.root :: self.contents :=
    fun h => self.ignore_not_directory (List.mem_cons_of_mem _ h)
  have hready : tree self.ignore = some ignore_contents ∨ tree self.ignore = none ∧ tree self.ignore.dropLast = some .dir := by
    rcases hignored with hfree | hfile
    · exact .inr ⟨hfree, by simpa [ignore, Path.join] using hoptic⟩
    · exact .inl hfile
  have hoptic' : tree.set self.ignore ignore_contents self.optic_directory = some .dir := by
    rw [Tree.set_other _ (directory_ne_ignore List.mem_cons_self), hoptic]
  have havailable' : Available (tree.set self.ignore ignore_contents) (self.root :: self.contents) := by
    intro path hpath
    rw [Tree.set_other _ (directory_ne_ignore (List.mem_cons_of_mem _ hpath))]
    exact havailable path hpath
  obtain ⟨count, hphase⟩ := root_phase hoptic' havailable'
  rw [provide_set_other tree _ houtside] at hphase
  refine ⟨1 + 2 + count, by omega, .bind ((initialize_ignore_phase hready).mono ?_) (hphase.mono ?_)⟩
  · rintro i failure after - rfl
    unfold LeftBehind torn
    by_cases hwrite : tree self.ignore = none ∧ i = 2
    · rw [if_pos hwrite]
      by_cases hshort : failure.written < 2
      · rw [if_pos ⟨hwrite.1, hwrite.2, hshort⟩]
      · have hall : (text "*\n").take failure.written = text "*\n" := List.take_of_length_le (Nat.not_lt.mp hshort)
        rw [if_neg fun h => hshort h.2.2, hall]
        exact Between.after_set (Tree.set_same _ _ _) (.refl _ _)
    · rw [if_neg hwrite, if_neg fun h => hwrite ⟨h.1, h.2.1⟩]
      exact .refl _ _
  · intro i failure after _ hafter
    rw [LeftBehind, if_neg (by omega)]
    exact Between.after_set (Tree.set_same _ _ _) hafter

/-- The initialization of a store, operation by operation. -/
theorem Initializable.phase (h : self.Initializable tree) :
    ∃ count, directory_operations tree self.optic_directory + 2 < count ∧
      Phase self.initialize_store tree count (self.initialized tree) (self.Left tree) := by
  have hoptic : self.optic_directory ∈ self.directories := List.mem_cons_self
  have hmakeable : Makeable tree self.optic_directory := by
    rcases h.available _ hoptic with hfree | hdir
    · exact .inr ⟨hfree, by simpa [optic_directory, Path.join] using h.workspace hfree⟩
    · exact .inl hdir
  have hignore : tree.set self.optic_directory .dir self.ignore = tree self.ignore :=
    Tree.set_other _ (directory_ne_ignore hoptic).symm
  have havailable : Available (tree.set self.optic_directory .dir) (self.root :: self.contents) :=
    Available.set (fun path hpath => h.available path (List.mem_cons_of_mem _ hpath)) _
  obtain ⟨count, hcount, hphase⟩ := ignore_phase (Tree.set_same tree self.optic_directory .dir) havailable (hignore ▸ h.ignored)
  refine ⟨_, Nat.add_lt_add_left hcount _, .bind ((create_directory_phase hmakeable).mono ?_) (hphase.mono ?_)⟩
  · rintro i failure after hi rfl
    rw [Left, if_neg fun htears => by have := htears.2.1; omega]
    exact .refl _ _
  · intro i failure after _ hafter
    unfold LeftBehind at hafter
    rw [hignore] at hafter
    unfold Left
    split at hafter
    · next htears =>
      rw [if_pos ⟨htears.1, by rw [htears.2.1], htears.2.2⟩, hafter, Tree.set_same]
      refine ⟨?_, rfl⟩
      rw [Tree.set_other _ (directory_ne_ignore hoptic), Tree.set_same]
    · next htears =>
      rw [if_neg fun h => htears ⟨h.1, Nat.add_left_cancel h.2.1, h.2.2⟩]
      exact Between.after_set (initialized_directory tree hoptic) hafter

end Store

variable {w w' : World}

theorem create_directory_ok (h : create_directory path w = (.ok (), w')) :
    Makeable w.tree path ∧ w'.tree = w.tree.set path .dir := by
  obtain ⟨found, w1, hexists, hcreate⟩ := Action.bind_eq_ok_iff.mp h
  have hfound := directory_exists_ok hexists
  have htree : w1.tree = w.tree := by rw [← (directory_exists_read_only path).tree w, hexists]
  cases found with
  | true =>
    obtain ⟨-, rfl⟩ := Action.pure_eq_ok_iff.mp hcreate
    rw [htree]
    exact ⟨.inl hfound, (set_eq_self hfound).symm⟩
  | false =>
    obtain ⟨hfree, hparent, hset⟩ := create_ok (with_context_eq_ok_iff.mp hcreate)
    rw [htree] at hfree hparent hset
    exact ⟨.inr ⟨hfree, hparent⟩, hset⟩

theorem Makeable.available (h : Makeable tree path) : tree path = none ∨ tree path = some .dir := by
  rcases h with hdir | ⟨hfree, -⟩
  · exact .inr hdir
  · exact .inl hfree

theorem available_before_set {other : Path} (hother : tree other = none ∨ tree other = some .dir)
    (h : tree.set other .dir path = none ∨ tree.set other .dir path = some .dir) :
    tree path = none ∨ tree path = some .dir := by
  by_cases heq : path = other
  · rw [heq]
    exact hother
  · rwa [Tree.set_other _ heq] at h

theorem create_directories_ok {paths : List Path} (h : create_directories paths w = (.ok (), w')) : Available w.tree paths := by
  induction paths generalizing w with
  | nil => exact fun _ => (absurd · List.not_mem_nil)
  | cons path paths ih =>
    obtain ⟨_, w1, hfirst, hrest⟩ := Action.bind_eq_ok_iff.mp h
    obtain ⟨hmakeable, htree⟩ := create_directory_ok hfirst
    refine List.forall_mem_cons.mpr ⟨hmakeable.available, fun other hother => ?_⟩
    have hbefore := ih hrest other hother
    rw [htree] at hbefore
    exact available_before_set hmakeable.available hbefore

theorem initialize_ignore_ok (h : Store.initialize_ignore path w = (.ok (), w')) :
    (w.tree path = none ∨ w.tree path = some ignore_contents) ∧ w'.tree = w.tree.set path ignore_contents := by
  rw [Store.initialize_ignore, Action.attempt_apply] at h
  rcases hmetadata : symlink_metadata path w with ⟨source | metadata, w1⟩
  · simp only [hmetadata] at h
    have htree : w1.tree = w.tree := by rw [← (ReadOnly.tree (.symlink_metadata path) w), hmetadata]
    split at h
    · next hkind =>
      obtain ⟨_, w2, hcreate, hwrite⟩ := Action.bind_eq_ok_iff.mp h
      obtain ⟨-, -, hset⟩ := create_ok (with_context_eq_ok_iff.mp hcreate)
      have happend := write_file_ok (Action.map_err_eq_ok_iff.mp (with_context_eq_ok_iff.mp hwrite))
      rw [happend, hset, htree, append_new]
      exact ⟨.inl (symlink_metadata_error hmetadata hkind), rfl⟩
    · cases h
  · simp only [hmetadata] at h
    obtain ⟨hentry, htree⟩ := symlink_metadata_ok hmetadata
    obtain ⟨_, w2, htype, hlimited⟩ := Action.bind_eq_ok_iff.mp h
    obtain ⟨hfile, rfl⟩ := check_eq_ok_iff.mp htype
    obtain ⟨_, w3, hlen, hbytes⟩ := Action.bind_eq_ok_iff.mp hlimited
    obtain ⟨hlength, rfl⟩ := check_eq_ok_iff.mp hlen
    obtain ⟨bytes, w4, hread, hcompared⟩ := Action.bind_eq_ok_iff.mp hbytes
    obtain ⟨hequal, rfl⟩ := check_eq_ok_iff.mp hcompared
    obtain ⟨rest, w5, hopen, hrest⟩ := Action.bind_eq_ok_iff.mp (with_context_eq_ok_iff.mp hread)
    obtain ⟨hcontents, htree5⟩ := open_file_ok hopen
    obtain ⟨htaken, htree4⟩ := read_ok hrest
    rw [htree] at hcontents
    obtain ⟨entry⟩ := metadata
    cases hcontents.symm.trans hentry
    have hshort : rest.length = 2 := of_decide_eq_true hlength
    rw [List.take_of_length_le (by omega)] at htaken
    have hrest : rest = text "*\n" := (Except.ok.inj htaken).trans (of_decide_eq_true hequal)
    have hignored : w.tree path = some ignore_contents := by rw [hcontents, hrest, ignore_contents]
    exact ⟨.inr hignored, by rw [htree4, htree5, htree, set_eq_self hignored]⟩

/-- A program that finds no conflict. -/
abbrev Peaceful {α : Type} (p : Action Error α) : Prop := Raises (fun error => ∀ path, error ≠ .ConflictingIgnoreFile path) p

theorem with_context_peaceful {α : Type} {operation : String} {p : Action IoError α} :
    Peaceful (with_context operation path p) := .map_err fun _ _ => nofun

theorem create_directory_peaceful (path : Path) : Peaceful (create_directory path) := by
  refine .bind (.attempt ?_) fun _ => .ite .pure with_context_peaceful
  rintro (source | metadata)
  · exact .ite .pure (.fail nofun)
  · exact .ite .pure (.fail nofun)

theorem create_directories_peaceful (paths : List Path) : Peaceful (create_directories paths) := by
  induction paths with
  | nil => exact .pure
  | cons path paths ih => exact .bind (create_directory_peaceful path) fun _ => ih

/-- A conflict is found by reading only. -/
theorem initialize_ignore_conflict {conflict : Path}
    (h : Store.initialize_ignore path w = (.error (.ConflictingIgnoreFile conflict), w')) : w'.tree = w.tree := by
  rw [Store.initialize_ignore, Action.attempt_apply] at h
  have htree := ReadOnly.tree (.symlink_metadata path) w
  rcases hmetadata : symlink_metadata path w with ⟨source | metadata, w1⟩
  · simp only [hmetadata] at h
    split at h
    · exact absurd rfl (Raises.bind with_context_peaceful (fun _ => with_context_peaceful) _ _ _ h conflict)
    · cases h
  · simp only [hmetadata] at h htree
    have hrun := congrArg (fun outcome => outcome.2.tree) h
    refine hrun.symm.trans ((ReadOnly.tree ?_ w1).trans htree)
    refine .bind .lift fun _ => .bind .lift fun _ => .bind ?_ fun _ => .lift
    exact .map_err (.bind (.open_file path) fun _ => .read)

namespace Store

variable {self : Store}

theorem initialize_store_eq (self : Store) : self.initialize_store = (do
    create_directory self.optic_directory
    initialize_ignore self.ignore
    create_directory self.root
    create_directories self.contents) := rfl

/-- A store is initialized only where it can be. -/
theorem initializable_of_ok (h : self.initialize_store w = (.ok (), w')) : self.Initializable w.tree := by
  rw [initialize_store_eq] at h
  obtain ⟨_, w1, hoptic, hrest⟩ := Action.bind_eq_ok_iff.mp h
  obtain ⟨_, w2, hignore, hrest⟩ := Action.bind_eq_ok_iff.mp hrest
  obtain ⟨_, w3, hroot, hcontents⟩ := Action.bind_eq_ok_iff.mp hrest
  obtain ⟨hmakeable, htree1⟩ := create_directory_ok hoptic
  obtain ⟨hignored, htree2⟩ := initialize_ignore_ok hignore
  obtain ⟨hmakeable2, htree3⟩ := create_directory_ok hroot
  have havailable := create_directories_ok hcontents
  have hbefore {path : Path} (hne : path ≠ self.ignore) (h : w2.tree path = none ∨ w2.tree path = some .dir) :
      w.tree path = none ∨ w.tree path = some .dir := by
    rw [htree2, Tree.set_other _ hne, htree1] at h
    exact available_before_set hmakeable.available h
  refine ⟨fun hfree => ?_, fun path hpath => ?_, ?_⟩
  · rcases hmakeable with hdir | ⟨-, hparent⟩
    · rw [hfree] at hdir
      cases hdir
    · simpa [optic_directory, Path.join] using hparent
  · have hne := directory_ne_ignore hpath
    rcases List.mem_cons.mp hpath with rfl | hinner
    · exact hmakeable.available
    rcases List.mem_cons.mp hinner with rfl | hcontained
    · exact hbefore hne hmakeable2.available
    · have hcontained := havailable path hcontained
      rw [htree3] at hcontained
      exact hbefore hne (available_before_set hmakeable2.available hcontained)
  · rwa [htree1, Tree.set_other _ (directory_ne_ignore List.mem_cons_self).symm] at hignored

/-- A conflict leaves the ignore file as it is. -/
theorem conflict_keeps (h : self.initialize_store w = (.error (.ConflictingIgnoreFile path), w')) :
    w'.tree self.ignore = w.tree self.ignore := by
  have hkept := create_directory_within self.optic_directory w self.ignore (directory_ne_ignore List.mem_cons_self).symm
  rcases hoptic : create_directory self.optic_directory w with ⟨error | _, w1⟩
  · rw [initialize_store_eq, Action.bind_of_error hoptic] at h
    cases h
    exact absurd rfl (create_directory_peaceful _ _ _ _ hoptic path)
  rw [hoptic] at hkept
  rw [initialize_store_eq, Action.bind_of_ok hoptic] at h
  rcases hignore : initialize_ignore self.ignore w1 with ⟨error | _, w2⟩
  · rw [Action.bind_of_error hignore] at h
    cases h
    rw [initialize_ignore_conflict hignore]
    exact hkept
  · rw [Action.bind_of_ok hignore] at h
    have hpeaceful := Raises.bind (create_directory_peaceful self.root) fun _ => create_directories_peaceful self.contents
    exact absurd rfl (hpeaceful _ _ _ h path)

/-- An incomplete ignore file is a conflict. -/
theorem conflict_of_torn {bytes : List UInt8} (hoptic : tree self.optic_directory = some .dir)
    (hignore : tree self.ignore = some (.file bytes)) (hshort : bytes.length < 2) :
    self.initialize_store { tree } = (.error (.ConflictingIgnoreFile self.ignore), { tree }) := by
  have hanswer : Answers self.initialize_store tree (.error (.ConflictingIgnoreFile self.ignore)) := by
    refine .bind (.bind (a := true) ?_ .pure) (.bind_error (.attempt (.symlink_metadata hignore) ?_))
    · exact .attempt (.symlink_metadata hoptic) (.ite_pos rfl .pure)
    · have hlength : decide (Metadata.len ⟨.file bytes⟩ = 2) = false := decide_eq_false (Nat.ne_of_lt hshort)
      refine .bind (a := ()) .lift (.bind_error ?_)
      rw [hlength]
      exact .lift
  exact hanswer { tree } rfl rfl

theorem Initializable.unfailing (h : self.Initializable tree) :
    self.initialize_store { tree } = (.ok (), { tree := self.initialized tree }) := by
  obtain ⟨count, -, hphase⟩ := h.phase
  exact hphase.runs.unfailing

/-- What a failure leaves is in order, or an incomplete ignore file. -/
theorem Initializable.left (h : self.Initializable tree) (i : Nat) (failure : Failure) :
    self.Left tree i failure (self.initialize_store { tree, schedule := fault i failure }).2.tree := by
  obtain ⟨count, hcount, hphase⟩ := h.phase
  by_cases hi : i < count
  · obtain ⟨error, after, hstop, hafter⟩ := hphase.stops i hi failure
    rwa [hstop.fault]
  · rw [hphase.runs.fault (Nat.not_lt.mp hi), Left, if_neg]
    · exact fun path => .inr rfl
    · intro htears
      rw [htears.2.1] at hi
      exact hi hcount

end Store

/-- Initialization can be repeated, and retried after a failure of any operation, except for a
failed write that leaves a new ignore file incomplete: every later initialization takes that for
a conflict. A conflict leaves the ignore file as it is. -/
theorem initialize_store_retries (store : Store) :
    (∀ tree, (store.initialize_store { tree }).1 = .ok () →
      store.initialize_store { tree } = (.ok (), { tree := store.initialized tree }) ∧
      store.initialize_store { tree := store.initialized tree } = (.ok (), { tree := store.initialized tree }) ∧
      ∀ i failure,
        let left := (store.initialize_store { tree, schedule := fault i failure }).2.tree
        store.initialize_store { tree := left } =
          if store.Tears tree i failure then (.error (.ConflictingIgnoreFile store.ignore), { tree := left })
          else (.ok (), { tree := store.initialized tree })) ∧
    ∀ w path, (store.initialize_store w).1 = .error (.ConflictingIgnoreFile path) →
      (store.initialize_store w).2.tree store.ignore = w.tree store.ignore := by
  refine ⟨fun tree hok => ?_, fun w path hconflict => Store.conflict_keeps (Prod.ext hconflict rfl)⟩
  have hinitializable : store.Initializable tree := Store.initializable_of_ok (Prod.ext hok rfl)
  obtain ⟨hagain, hsame⟩ := hinitializable.between fun path => .inr rfl
  have hrepeated := hagain.unfailing
  rw [hsame] at hrepeated
  refine ⟨hinitializable.unfailing, hrepeated, fun i failure => ?_⟩
  intro left
  have hleft : store.Left tree i failure left := hinitializable.left i failure
  unfold Store.Left at hleft
  split at hleft
  · next htears =>
    rw [if_pos htears]
    apply Store.conflict_of_torn hleft.1 hleft.2
    have hshort := htears.2.2
    rw [List.length_take]
    omega
  · next htears =>
    obtain ⟨hready, hgoal⟩ := hinitializable.between hleft
    rw [if_neg htears, hready.unfailing, hgoal]

/-- A workspace without a store. -/
def bare_tree : Tree := fun path => if path = [] then some .dir else none

/-- A write that fails without writing anything. -/
def full_disk : Failure := ⟨⟨.Other, "No space left on device (os error 28)"⟩, 0, by decide, by decide⟩

/-- A write that fails leaves an empty ignore file, which no later initialization accepts. -/
theorem empty_ignore_conflicts :
    (Store.initialize_store ⟨[]⟩ { tree := bare_tree }).1 = .ok () ∧
    (Store.initialize_store ⟨[]⟩
      { tree := (Store.initialize_store ⟨[]⟩ { tree := bare_tree, schedule := fault 4 full_disk }).2.tree }).1 =
      .error (.ConflictingIgnoreFile (Store.ignore ⟨[]⟩)) := by
  decide

end optic.store
