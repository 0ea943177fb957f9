import Optic.FileSystem.Faults
import Optic.FileSystem.Triple

open rust

namespace file_system

variable {ε α : Type} {tree tree' : Tree}

/-- Whether a path is a directory. An error is a no. -/
def is_dir (path : Path) : Action IoError Bool :=
  .attempt (symlink_metadata path) fun
    | .ok metadata => pure metadata.is_dir
    | .error _ => pure false

/-- Ignores an error about a directory that is there. -/
def accept_dir (path : Path) (error : IoError) : Action IoError Unit := do
  if ← is_dir path then pure () else .fail error

/-- Creates a directory and its parents, whose names come last to first. -/
def create_dir_all_from : List OsString → Action IoError Unit
  | [] => pure ()
  | name :: parents =>
    let path := (name :: parents).reverse
    .attempt (create_dir path) fun
      | .ok () => pure ()
      | .error error =>
        if error.kind = .NotFound then do
          create_dir_all_from parents
          .attempt (create_dir path) fun
            | .ok () => pure ()
            | .error error => accept_dir path error
        else accept_dir path error

/-- Creates a directory with all of its parents, unless they are there. -/
def create_dir_all (path : Path) : Action IoError Unit := create_dir_all_from path.reverse

/-- A tree whose entries below a directory are those of another tree. -/
def Tree.replace_below (tree : Tree) (directory : Path) (left : Tree) : Tree :=
  fun path => if directory <+: path ∧ path ≠ directory then left path else tree path

/-- Removes an entry and everything below it, but for what survives. -/
def Tree.remove (tree : Tree) (path : Path) (survives : Path → Bool) : Tree :=
  fun other => if path <+: other ∧ survives other = false then none else tree other

/-- Drops a temporary directory and goes on with a result. The removal may stop anywhere, and nobody asks for its own result. -/
def drop_tempdir (path : Path) (survives : Path → Bool) (result : Except ε α) : Action ε α :=
  fun w => (result, { w with tree := w.tree.remove path survives })

/-- Runs a program in a temporary directory, which is dropped behind it. -/
def with_tempdir (path : Path) (survives : Path → Bool) (p : Action ε α) : Action ε α :=
  .attempt p (drop_tempdir path survives)

/-- What follows a temporary directory finds the result of its program. -/
theorem with_tempdir_eq_ok {path : Path} {survives : Path → Bool} {p : Action ε α} {a : α} {w w' : World}
    (h : with_tempdir path survives p w = (.ok a, w')) :
    ∃ w1, p w = (.ok a, w1) ∧ w'.tree = w1.tree.remove path survives := by
  rw [with_tempdir, Action.attempt_apply, drop_tempdir, Prod.mk.injEq] at h
  obtain ⟨hresult, rfl⟩ := h
  exact ⟨_, Prod.ext hresult rfl, rfl⟩

theorem Tree.replace_below_join {directory : Path} (left : Tree) (name : OsString) (path : Path) :
    tree.replace_below directory left (directory.join name ++ path) = left (directory.join name ++ path) := by
  refine if_pos ⟨?_, ?_⟩
  · rw [Path.join, List.append_assoc]
    exact List.prefix_append _ _
  · intro heq
    have hlength := congrArg List.length heq
    simp [Path.join] at hlength

theorem Tree.replace_below_same {directory : Path} (left : Tree) : tree.replace_below directory left directory = tree directory :=
  if_neg fun hbelow => hbelow.2 rfl

theorem Tree.remove_apart {path other : Path} (survives : Path → Bool) (h : ¬ path <+: other) :
    tree.remove path survives other = tree other :=
  if_neg fun hbelow => h hbelow.1

/-- What is below two names of a directory is below one name. -/
theorem below_join_inj {root path : Path} {name name' : OsString} (h : root.join name <+: path) (h' : root.join name' <+: path) :
    name = name' := by
  have hnames : root.join name <+: root.join name' := List.prefix_of_prefix_length_le h h' (by simp [Path.join])
  exact (join_inj.mp (hnames.eq_of_length (by simp [Path.join]))).2

/-- Nothing below a name of a directory leads to the directory. -/
theorem not_below_join {root path : Path} {name : OsString} (h : path <+: root) : ¬ root.join name <+: path := by
  intro hbelow
  have hlength := (hbelow.trans h).length_le
  rw [Path.join, List.length_append, List.length_singleton] at hlength
  omega

/-- A name that nothing is at, or below. -/
def Tree.Unused (tree : Tree) (path : Path) : Prop := ∀ other, path <+: other → tree other = none

theorem Tree.Unused.remove {path : Path} (h : tree.Unused path) (survives : Path → Bool) : tree.remove path survives = tree := by
  funext other
  by_cases hbelow : path <+: other
  · by_cases hsurvives : survives other = false
    · rw [Tree.remove, if_pos ⟨hbelow, hsurvives⟩, h other hbelow]
    · rw [Tree.remove, if_neg fun hboth => hsurvives hboth.2]
  · exact remove_apart survives hbelow

theorem Tree.move_unused {source destination : Path} (hdestination : ¬ source <+: destination) (hsource : ¬ destination <+: source) :
    (tree.move source destination).Unused source := by
  intro path hpath
  have happart : ¬ destination <+: path := fun h => (List.prefix_or_prefix_of_prefix h hpath).elim hsource hdestination
  rw [Tree.move, if_neg happart, if_pos hpath]

namespace Within

variable {s : Path → Prop}

theorem is_dir (path : Path) : Within s (is_dir path) := by
  refine .attempt (.symlink_metadata path) ?_
  rintro (error | metadata) <;> exact .pure

theorem accept_dir (path : Path) (error : IoError) : Within s (accept_dir path error) :=
  .bind (.is_dir path) fun _ => .ite .pure .fail

/-- Creating directories changes the directories on the way only. -/
theorem create_dir_all_from : ∀ names : List OsString, Within (· <+: names.reverse) (create_dir_all_from names)
  | [] => .pure
  | name :: parents => by
    have hcreate : Within (· <+: (name :: parents).reverse) (create_dir (name :: parents).reverse) :=
      .create .dir (List.prefix_refl _)
    have hparents : Within (· <+: (name :: parents).reverse) (file_system.create_dir_all_from parents) := by
      refine (create_dir_all_from parents).weaken fun path hpath => hpath.trans ?_
      rw [List.reverse_cons]
      exact List.prefix_append _ _
    refine .attempt hcreate ?_
    rintro (error | ⟨⟩)
    · refine .ite (.bind hparents fun _ => .attempt hcreate ?_) (.accept_dir _ _)
      rintro (error | ⟨⟩)
      · exact .accept_dir _ _
      · exact .pure
    · exact .pure

theorem create_dir_all (path : Path) : Within (· <+: path) (create_dir_all path) := by
  have h := create_dir_all_from path.reverse
  rwa [List.reverse_reverse] at h

theorem with_tempdir {path : Path} {survives : Path → Bool} {p : Action ε α} (hpath : ∀ other, path <+: other → s other)
    (hp : Within s p) : Within s (with_tempdir path survives p) := by
  refine .attempt hp fun result w other hother => ?_
  exact Tree.remove_apart survives fun hbelow => hother (hpath other hbelow)

theorem create_file {path : Path} (hpath : s path) : Within s (create_file path) := by
  refine perform fun tree a tree' other h hother => ?_
  have hne : other ≠ path := fun heq => hother (heq ▸ hpath)
  split at h
  · cases h
    exact Tree.set_other _ hne
  · cases h
  · split at h
    · cases h
    · cases h
      exact Tree.set_other _ hne

theorem write {path : Path} (bytes : List UInt8) (hpath : s path) : Within s (file_system.write path bytes) :=
  .bind (.create_file hpath) fun _ => .write_all bytes hpath

theorem rename {source destination : Path} (hsource : ∀ path, source <+: path → s path)
    (hdestination : ∀ path, destination <+: path → s path) : Within s (rename source destination) := by
  intro w path hpath
  rcases hrun : file_system.rename source destination w with ⟨error | ⟨⟩, w'⟩
  · have hread := (Triple.perform (Q := fun _ _ => True) (P := (· = w.tree)) fun _ _ _ _ _ => trivial).error rfl hrun
    exact congrFun hread path
  · obtain ⟨-, -, htree⟩ := rename_ok hrun
    rw [htree]
    exact Tree.move_apart (fun h => hpath (hdestination path h)) fun h => hpath (hsource path h)

end Within

/-- What a completed program changes, it may change. -/
theorem Completes.frame {p : Action ε α} {s : Path → Prop} {a : α} {output : List UInt8} (h : Completes p tree a tree' output)
    (hp : Within s p) {path : Path} (hpath : ¬ s path) : tree' path = tree path := by
  have hkept := hp { tree } path hpath
  rwa [h { tree } rfl rfl] at hkept

namespace Triple

variable {P : Tree → Prop}

theorem rename {source destination : Path} {Q : Tree → Prop} (h : ∀ tree, P tree → Q (tree.move source destination)) :
    Triple P (file_system.rename source destination) (fun _ => Q) P := by
  intro w hP
  refine ⟨fun _ w' hrun => ?_, fun error w' hrun => ?_⟩
  · obtain ⟨-, -, htree⟩ := rename_ok hrun
    rw [htree]
    exact h _ hP
  · have hread := (Triple.perform (Q := fun _ _ => True) (P := (· = w.tree)) fun _ _ _ _ _ => trivial).error rfl hrun
    rwa [hread]

theorem accept_dir (path : Path) (error : IoError) : Triple P (accept_dir path error) (fun _ => P) P :=
  .read_only (.accept_dir path error) fun _ _ _ hP _ => hP

/-- What new directories on the way keep, creating them keeps, also where that fails. -/
theorem create_dir_all_from : ∀ names : List OsString,
    (∀ tree path, P tree → path <+: names.reverse → tree path = none → P (tree.set path .dir)) →
    Triple P (create_dir_all_from names) (fun _ => P) P
  | [], _ => .pure fun _ => id
  | name :: parents, h => by
    have hcreate : Triple P (create_dir (name :: parents).reverse) (fun _ => P) P :=
      .create fun tree hP hfree _ => h tree _ hP (List.prefix_refl _) hfree
    have hparents : Triple P (file_system.create_dir_all_from parents) (fun _ => P) P := by
      refine create_dir_all_from parents fun tree path hP hpath => h tree path hP (hpath.trans ?_)
      rw [List.reverse_cons]
      exact List.prefix_append _ _
    unfold file_system.create_dir_all_from
    refine .attempt hcreate (fun _ => .pure fun _ => id) fun error => .ite (fun _ => ?_) fun _ => .accept_dir _ _
    exact .bind hparents fun _ => .attempt hcreate (fun _ => .pure fun _ => id) fun error => .accept_dir _ _

theorem create_dir_all {path : Path}
    (h : ∀ tree ancestor, P tree → ancestor <+: path → tree ancestor = none → P (tree.set ancestor .dir)) :
    Triple P (create_dir_all path) (fun _ => P) P :=
  create_dir_all_from path.reverse (by rwa [List.reverse_reverse])

/-- A temporary directory is dropped with whatever does not depend on it. -/
theorem with_tempdir {path : Path} {survives : Path → Bool} {p : Action ε α} {Q : α → Tree → Prop} {E : Tree → Prop}
    (hp : Triple P p Q E) (hQ : ∀ a tree, Q a tree → Q a (tree.remove path survives))
    (hE : ∀ tree, E tree → E (tree.remove path survives)) : Triple P (with_tempdir path survives p) Q E := by
  refine .attempt hp ?_ ?_
  · intro a w hw
    refine ⟨?_, fun e w' h => by cases h⟩
    rintro _ _ ⟨⟩
    exact hQ a _ hw
  · intro e w hw
    refine ⟨fun a w' h => (by cases h), ?_⟩
    rintro _ _ ⟨⟩
    exact hE _ hw

end Triple

namespace Runs

theorem is_dir {path : Path} (h : tree path = some .dir) : Runs (is_dir path) tree (1 + 0) (.ok true) tree := by
  unfold file_system.is_dir
  refine .attempt (.symlink_metadata h) ?_
  exact .pure

theorem create_file {path : Path} (hfree : tree path = none) (hparent : tree path.dropLast = some .dir) :
    Runs (create_file path) tree 1 (.ok ()) (tree.set path (.file [])) :=
  perform (by rw [hfree, if_neg (not_not.mpr hparent)])

/-- A file that is new is written as a whole. -/
theorem write {path : Path} {bytes : List UInt8} (hfree : tree path = none) (hparent : tree path.dropLast = some .dir) :
    Runs (write path bytes) tree (1 + 1) (.ok ()) ((tree.set path (.file [])).append path bytes) := by
  unfold file_system.write
  refine .bind (.create_file hfree hparent) ?_
  exact .map_err .write_file

theorem create_exists {path : Path} (entry : Entry) (h : tree path ≠ none) :
    Runs (file_system.create path entry) tree 1 (.error already_exists) tree :=
  perform_error (by rw [if_pos h])

theorem create_orphan {path : Path} (entry : Entry) (hfree : tree path = none) (hparent : tree path.dropLast ≠ some .dir) :
    Runs (file_system.create path entry) tree 1 (.error not_found) tree :=
  perform_error (by rw [if_neg (not_not.mpr hfree), if_pos hparent])

/-- From the root on, missing directories can be created below others. -/
theorem create_dir_all_from (hroot : tree [] = some .dir) : ∀ names : List OsString,
    (∀ path, path <+: names.reverse → tree path = none ∨ tree path = some .dir) →
    ∃ count tree', Runs (create_dir_all_from names) tree count (.ok ()) tree' ∧ tree' names.reverse = some .dir
  | [], _ => ⟨0, tree, .pure, hroot⟩
  | name :: parents, h => by
    unfold file_system.create_dir_all_from
    have hparent : (name :: parents).reverse.dropLast = parents.reverse := by
      rw [List.reverse_cons, List.dropLast_concat]
    rcases h _ (List.prefix_refl _) with hfree | hdir
    · by_cases hcreated : tree parents.reverse = some .dir
      · have hcreate : Runs (create_dir (name :: parents).reverse) tree 1 (.ok ()) (tree.set (name :: parents).reverse .dir) :=
          .create .dir hfree (by rwa [hparent])
        refine ⟨1 + 0, tree.set (name :: parents).reverse .dir, .attempt hcreate ?_, Tree.set_same _ _ _⟩
        exact .pure
      · have horphan : Runs (create_dir (name :: parents).reverse) tree 1 (.error not_found) tree :=
          create_orphan .dir hfree (by rwa [hparent])
        have hbefore (path : Path) (hpath : path <+: parents.reverse) : tree path = none ∨ tree path = some .dir := by
          refine h path (hpath.trans ?_)
          rw [List.reverse_cons]
          exact List.prefix_append _ _
        obtain ⟨count, tree', hparents, hdir⟩ := create_dir_all_from hroot parents hbefore
        have hstill : tree' (name :: parents).reverse = none := by
          have hkept := Within.create_dir_all_from parents { tree } (name :: parents).reverse fun hprefix => by
            have hlength : (name :: parents).reverse.length ≤ parents.reverse.length := hprefix.length_le
            rw [List.length_reverse, List.length_reverse, List.length_cons] at hlength
            omega
          rw [hparents.unfailing] at hkept
          exact hkept.trans hfree
        have hcreate : Runs (create_dir (name :: parents).reverse) tree' 1 (.ok ()) (tree'.set (name :: parents).reverse .dir) :=
          .create .dir hstill (by rwa [hparent])
        refine ⟨1 + (count + (1 + 0)), tree'.set (name :: parents).reverse .dir,
          .attempt horphan (.ite_pos rfl (.bind hparents (.attempt hcreate ?_))), Tree.set_same _ _ _⟩
        exact .pure
    · have hexists : Runs (create_dir (name :: parents).reverse) tree 1 (.error already_exists) tree :=
        create_exists .dir (by rw [hdir]; exact Option.some_ne_none _)
      refine ⟨1 + (1 + 0), tree, .attempt hexists (.ite_neg (by decide) (.bind (.is_dir hdir) (.ite_pos rfl ?_))), hdir⟩
      exact .pure

theorem create_dir_all {path : Path} (hroot : tree [] = some .dir)
    (h : ∀ ancestor, ancestor <+: path → tree ancestor = none ∨ tree ancestor = some .dir) :
    ∃ count tree', Runs (create_dir_all path) tree count (.ok ()) tree' ∧ tree' path = some .dir := by
  have hrun := create_dir_all_from hroot path.reverse (by rwa [List.reverse_reverse])
  rwa [List.reverse_reverse] at hrun

theorem rename_dir {source destination : Path} (hsource : tree source = some .dir) (hfree : tree destination = none)
    (hparent : tree destination.dropLast = some .dir) (hapart : ¬ source <+: destination) :
    Runs (rename source destination) tree 1 (.ok ()) (tree.move source destination) :=
  perform (by rw [if_neg (not_not.mpr hparent), hsource, hfree, if_neg hapart])

/-- A file replaces what is no directory. -/
theorem rename_file {source destination : Path} {bytes : List UInt8} (hsource : tree source = some (.file bytes))
    (hdestination : tree destination ≠ some .dir) (hparent : tree destination.dropLast = some .dir) :
    Runs (rename source destination) tree 1 (.ok ()) (tree.move source destination) :=
  perform (by
    rw [if_neg (not_not.mpr hparent), hsource]
    cases hentry : tree destination with
    | none => rfl
    | some entry =>
      cases entry with
      | dir => exact absurd hentry hdestination
      | file bytes => rfl
      | other => rfl)

end Runs

/-- A temporary directory that is gone has nothing to drop. -/
theorem Completes.with_tempdir {p : Action ε α} {path : Path} {survives : Path → Bool} {a : α} {output : List UInt8}
    (hp : Completes p tree a tree' output) (hgone : tree'.Unused path) :
    Completes (with_tempdir path survives p) tree a tree' output := by
  intro w htree hschedule
  rw [file_system.with_tempdir, Action.attempt_apply, hp w htree hschedule, drop_tempdir, hgone.remove]

end file_system
