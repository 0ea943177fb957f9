import Optic.Store.Initialize
import Optic.Store.RecordIoSpec

open rust file_system

namespace optic.store

variable {w w' : World} {tree : Tree} {path : Path}

theorem directory_exists_read_only (path : Path) : ReadOnly (directory_exists path) := by
  refine .attempt (.symlink_metadata path) ?_
  rintro (source | metadata)
  · exact .ite .pure .fail
  · exact .ite .pure .fail

/-- A name that is no directory either is an error or does not exist. -/
theorem directory_exists_ok {found : Bool} (h : directory_exists path w = (.ok found, w')) :
    w.tree path = if found then some .dir else none := by
  rw [directory_exists, Action.attempt_apply] at h
  rcases hrun : symlink_metadata path w with ⟨source | metadata, w1⟩
  · simp only [hrun] at h
    split at h
    · next hkind =>
      obtain ⟨rfl, -⟩ := Action.pure_eq_ok_iff.mp h
      exact symlink_metadata_error hrun hkind
    · cases h
  · simp only [hrun] at h
    split at h
    · next hdir =>
      obtain ⟨rfl, -⟩ := Action.pure_eq_ok_iff.mp h
      rw [(symlink_metadata_ok hrun).1, of_decide_eq_true hdir]
      rfl
    · cases h

theorem directory_exists_answers (h : tree path = none ∨ tree path = some .dir) :
    Answers (directory_exists path) tree (.ok (tree path = some .dir)) := by
  rcases h with h | h
  · rw [h]
    exact .attempt (.symlink_metadata_absent h) (.ite_pos rfl .pure)
  · rw [h]
    exact .attempt (.symlink_metadata h) (.ite_pos rfl .pure)

/-- The search tells whether all of the directories exist. -/
theorem directories_exist_answers {paths : List Path} (h : ∀ path ∈ paths, tree path = none ∨ tree path = some .dir) :
    Answers (directories_exist paths) tree (.ok (paths.all fun path => tree path = some .dir)) := by
  induction paths with
  | nil => exact .pure
  | cons path paths ih =>
    obtain ⟨hpath, hpaths⟩ := List.forall_mem_cons.mp h
    refine .bind (directory_exists_answers hpath) ?_
    by_cases hdir : tree path = some .dir
    · refine .ite_pos (decide_eq_true hdir) ?_
      rw [List.all_cons, decide_eq_true hdir, Bool.true_and]
      exact ih hpaths
    · refine .ite_neg (by simpa using hdir) ?_
      rw [List.all_cons, decide_eq_false hdir, Bool.false_and]
      exact .pure

/-- A directory that does not exist yet is created. -/
theorem create_directory_triple {I : Tree → Prop} (hset : ∀ tree, I tree → tree path = none → I (tree.set path .dir)) :
    Triple I (create_directory path) (fun _ tree => I tree ∧ tree path = some .dir) I := by
  refine .bind (.read_only (Q := fun found tree => I tree ∧ tree path = if found then some .dir else none)
    (directory_exists_read_only path) fun w found w' hI h => ⟨hI, directory_exists_ok h⟩) fun found => ?_
  refine .ite (fun hfound => ?_) fun hfound => ?_
  · refine .pure fun tree h => ⟨h.1, ?_⟩
    rw [h.2, if_pos hfound]
  · refine .map_err ((Triple.create fun tree h hfree _ => ?_).weaken (fun _ h => h) (fun _ _ h => h) fun _ h => h.1)
    exact ⟨hset tree h.1 hfree, Tree.set_same _ _ _⟩

theorem create_directory_within (path : Path) : Within (· = path) (create_directory path) :=
  .bind ((directory_exists_read_only path).weaken fun _ => False.elim) fun _ => .ite .pure (.map_err (.create _ rfl))

theorem create_directories_within {paths : List Path} : Within (· ∈ paths) (create_directories paths) := by
  induction paths with
  | nil => exact .pure
  | cons path paths ih =>
    refine .bind ((create_directory_within path).weaken ?_) fun _ => ih.weaken fun _ => List.mem_cons_of_mem path
    rintro _ rfl
    exact List.mem_cons_self

namespace Store

/-- The directories of a store, each behind its parent. -/
def directories (self : Store) : List Path :=
  [self.optic_directory, self.root, self.root.join "staging", self.root.join "captures", self.root.join "candidates"]

def ignore (self : Store) : Path := self.optic_directory.join ".gitignore"

theorem initialize_ignore_within (ignore : Path) : Within (· = ignore) (initialize_ignore ignore) := by
  refine .attempt (.symlink_metadata ignore) ?_
  rintro (source | metadata)
  · exact .ite (.bind (.map_err (.create _ rfl)) fun _ => .map_err (.write_all _ rfl)) .fail
  · refine .bind .lift fun _ => .bind .lift fun _ => .bind ?_ fun _ => .lift
    exact .map_err (.bind (.open_file ignore) fun _ => .read)

theorem initialize_store_within (self : Store) :
    Within (fun path => path ∈ self.directories ∨ path = self.ignore) self.initialize_store := by
  have hcreate (path : Path) (h : path ∈ self.directories) :
      Within (fun path => path ∈ self.directories ∨ path = self.ignore) (create_directory path) :=
    (create_directory_within path).weaken fun other hother => .inl (hother ▸ h)
  refine .bind (hcreate _ (by simp [directories])) fun _ => ?_
  refine .bind ((initialize_ignore_within self.ignore).weaken fun _ => .inr) fun _ => ?_
  refine .bind (hcreate _ (by simp [directories])) fun _ => ?_
  refine create_directories_within.weaken fun other hother => .inl ?_
  simp only [directories, List.mem_cons] at hother ⊢
  exact .inr (.inr hother)

/-- Initialization creates what is missing, and every directory exists behind it. -/
theorem initialize_store_triple (self : Store) {I : Tree → Prop}
    (hset : ∀ tree, ∀ path ∈ self.directories, I tree → tree path = none → I (tree.set path .dir))
    (hignore : ∀ tree tree', (∀ path, path ≠ self.ignore → tree' path = tree path) → I tree → I tree') :
    Triple I self.initialize_store (fun _ tree => I tree ∧ ∀ path ∈ self.directories, tree path = some .dir) I := by
  -- What exists already stays while the next directory is created.
  have hstep (path : Path) (done : List Path) (hpath : path ∈ self.directories) :
      Triple (fun tree => I tree ∧ ∀ other ∈ done, tree other = some .dir) (create_directory path)
        (fun _ tree => I tree ∧ ∀ other ∈ done ++ [path], tree other = some .dir) I := by
    refine (create_directory_triple fun tree h hfree => ?_).weaken (fun _ h => h) (fun _ tree h => ?_) fun _ h => h.1
    · refine ⟨hset tree path hpath h.1 hfree, fun other hother => ?_⟩
      by_cases heq : other = path
      · rw [heq, Tree.set_same]
      · rw [Tree.set_other _ heq, h.2 other hother]
    · refine ⟨h.1.1, fun other hother => ?_⟩
      rcases List.mem_append.mp hother with hdone | hlast
      · exact h.1.2 other hdone
      · rw [List.mem_singleton.mp hlast, h.2]
  refine .bind ((hstep self.optic_directory [] (by simp [directories])).weaken (fun _ h => ⟨h, nofun⟩) (fun _ _ h => h)
    fun _ h => h) fun _ => ?_
  refine .bind ((Triple.within (initialize_ignore_within self.ignore) fun tree tree' hkept h => ?_).weaken
    (fun _ h => h) (fun _ _ h => h) fun _ h => h.1) fun _ => ?_
  · refine ⟨hignore tree tree' hkept h.1, fun other hother => ?_⟩
    obtain rfl := List.mem_singleton.mp hother
    rw [hkept _ (by simp [ignore, Path.join]), h.2 _ hother]
  refine .bind (hstep self.root _ (by simp [directories])) fun _ => ?_
  refine .bind (hstep (self.root.join "staging") _ (by simp [directories])) fun _ => ?_
  refine .bind (hstep (self.root.join "captures") _ (by simp [directories])) fun _ => ?_
  refine .bind (hstep (self.root.join "candidates") _ (by simp [directories])) fun _ => ?_
  exact .pure fun tree h => h

/-- Where the directories of a store are in order, a namespace is found when all of them exist. -/
theorem namespace_exists_answers (self : Store) {namespace_ : String} (hname : self.root.join namespace_ ∈ self.directories)
    (h : ∀ path ∈ self.directories, tree path = none ∨ tree path = some .dir) :
    Answers (self.namespace_exists namespace_) tree (.ok
      (tree self.optic_directory = some .dir ∧ tree self.root = some .dir ∧ tree (self.root.join namespace_) = some .dir)) := by
  have hpaths : ∀ path ∈ [self.optic_directory, self.root, self.root.join namespace_],
      tree path = none ∨ tree path = some .dir := by
    intro path hpath
    simp only [List.mem_cons, List.not_mem_nil, or_false] at hpath
    rcases hpath with rfl | rfl | rfl
    · exact h _ (by simp [directories])
    · exact h _ (by simp [directories])
    · exact h _ hname
  simpa [namespace_exists, Bool.decide_and] using directories_exist_answers hpaths

end Store

end optic.store
