import Optic.Compiler.DigestSpec
import Optic.Compiler.DriverEntry

open rust file_system optic.records

namespace optic.rustc_driver

variable {tree tree' : Tree} {w w' : World} {machine : Machine}

section

variable {attempt : Attempt} {root temporary home : Path} {key : String}

theorem with_context_within {α : Type} {s : Path → Prop} {p : Action IoError α} (operation : String) (path : Path)
    (hp : Within s p) : Within s (with_context operation path p) := .map_err hp

theorem write_sources_within (temporary : Path) : ∀ sources : List (String × String),
    Within (fun path => ∃ source ∈ sources, path = temporary.join source.1) (write_sources temporary sources)
  | [] => .pure
  | (name, contents) :: sources => by
    refine .bind (with_context_within _ _ (.write _ ⟨_, List.mem_cons_self, rfl⟩)) fun _ => ?_
    refine (write_sources_within temporary sources).weaken ?_
    rintro _ ⟨source, hsource, rfl⟩
    exact ⟨source, List.mem_cons_of_mem _ hsource, rfl⟩

/-- A build changes what is below the directory of the driver. -/
theorem build_driver_within (attempt : Attempt) (source : Path) (temporary : Path) (key : String) :
    Within (fun path => temporary <+: path ∧ path ≠ temporary) (attempt.build_driver source (temporary.join EXECUTABLE) key) := by
  have hdirectory : (temporary.join EXECUTABLE).dropLast = temporary := List.dropLast_concat
  refine .bind (.map_err fun w path hpath => ?_) fun _ => .lift
  refine if_neg ?_
  rw [Attempt.command, hdirectory]
  exact hpath

theorem below_join (directory : Path) (name : OsString) : directory <+: directory.join name ∧ directory.join name ≠ directory :=
  ⟨List.prefix_append _ _, fun h => by simp [Path.join] at h⟩

theorem assemble_within (attempt : Attempt) (machine : Machine) (temporary : Path) (key : String) :
    Within (fun path => temporary <+: path ∧ path ≠ temporary) (attempt.assemble machine temporary key) := by
  refine .bind ((write_sources_within temporary machine.sources).weaken ?_) fun _ => ?_
  · rintro _ ⟨source, -, rfl⟩
    exact below_join temporary _
  refine .bind (build_driver_within attempt _ temporary key) fun _ => ?_
  refine .bind (with_context_within _ _ (.write _ (below_join temporary _))) fun _ => ?_
  exact (validate_entry_certain machine temporary key).only.weaken fun _ => False.elim

/-- What is assembled is validated. -/
theorem assemble_ok (hname : temporary.getLast? ≠ some EXECUTABLE)
    (h : attempt.assemble machine temporary key w = (.ok (), w')) : Complete machine w'.tree temporary key := by
  obtain ⟨⟨⟩, w1, -, h⟩ := Action.bind_eq_ok_iff.mp h
  obtain ⟨⟨⟩, w2, -, h⟩ := Action.bind_eq_ok_iff.mp h
  obtain ⟨⟨⟩, w3, -, h⟩ := Action.bind_eq_ok_iff.mp h
  have hcertain := validate_entry_certain machine temporary key
  have htree : w'.tree = w3.tree := by rw [← hcertain.only.tree w3, h]
  rw [htree]
  exact (validate_entry_iff hname).mp (hcertain.answers w3 () w' h)

theorem canonical_ne_temporary (hkey : CaptureKey.Canonical key) (unique : String) :
    ((".driver-" ++ unique : String) : OsString) ≠ key := by
  intro h
  have htext : text key = text ".driver-" ++ text unique := by rw [← text_append, ← OsString.utf8.inj h]
  have hhex := hkey.2
  rw [htext, List.all_append, Bool.and_eq_true] at hhex
  exact absurd hhex.1 (by decide)

theorem canonical_ne_executable (hkey : CaptureKey.Canonical key) : (key : OsString) ≠ EXECUTABLE := by
  intro h
  have hkey' := hkey
  rw [OsString.utf8.inj h] at hkey'
  exact absurd hkey' (by decide)

theorem driver_key_canonical (machine : Machine) (identity : CompilerIdentity) : CaptureKey.Canonical (machine.driver_key identity) :=
  compiler.digest_canonical _ _

theorem temporary_getLast (attempt : Attempt) (root : Path) : (attempt.temporary root).getLast? ≠ some EXECUTABLE := by
  rw [Attempt.temporary, Path.join, List.getLast?_concat]
  intro h
  have htext := congrArg OsString.as_encoded_bytes (Option.some.inj h)
  rw [OsString.as_encoded_bytes, text_append] at htext
  have hprefix : text ".driver-" <+: text "optic-rustc-driver" := ⟨text attempt.unique, htext⟩
  exact absurd hprefix (by decide)

/-- The entry of a key is apart from every temporary directory. -/
theorem temporary_apart {path : Path} (hkey : CaptureKey.Canonical key) (hpath : root.join key <+: path) :
    ¬ attempt.temporary root <+: path :=
  fun h => canonical_ne_temporary hkey attempt.unique (below_join_inj h hpath)

/-- A publication changes what is below its temporary directory and its own entry. -/
theorem publish_within (attempt : Attempt) (machine : Machine) (root : Path) (key : String) :
    Within (fun path => attempt.temporary root <+: path ∨ root.join key <+: path) (attempt.publish machine root key) := by
  refine .bind (with_context_within _ _ (.create .dir (.inl (List.prefix_refl _)))) fun _ => ?_
  refine .with_tempdir (fun _ => .inl) (.bind ?_ fun _ => with_context_within _ _ (.rename (fun _ => .inl) fun _ => .inr))
  exact (assemble_within attempt machine _ key).weaken fun path hpath => .inl hpath.1

theorem publish_ok (hkey : CaptureKey.Canonical key) (h : attempt.publish machine root key w = (.ok (), w')) :
    Complete machine w'.tree (root.join key) key := by
  obtain ⟨⟨⟩, w1, -, h⟩ := Action.bind_eq_ok_iff.mp h
  obtain ⟨w2, hrun, hdropped⟩ := with_tempdir_eq_ok h
  obtain ⟨⟨⟩, w3, hassemble, hrename⟩ := Action.bind_eq_ok_iff.mp hrun
  obtain ⟨-, -, hmoved⟩ := rename_ok (Action.map_err_eq_ok_iff.mp hrename)
  refine (assemble_ok (temporary_getLast attempt root) hassemble).transfer fun path => ?_
  rw [hdropped, Tree.remove_apart _ (temporary_apart hkey (List.prefix_append _ _)), hmoved, Tree.move_below]

/-- A publication that fails leaves the entry alone. -/
theorem publish_error {error : Error} (hkey : CaptureKey.Canonical key)
    (h : attempt.publish machine root key w = (.error error, w')) :
    ∀ path, root.join key <+: path → w'.tree path = w.tree path := by
  let Kept : Tree → Prop := fun tree => ∀ path, root.join key <+: path → tree path = w.tree path
  have hwithin {α : Type} {p : Action Error α} (hp : Within (attempt.temporary root <+: ·) p) :
      Triple Kept p (fun _ => Kept) Kept := by
    refine .within hp fun tree tree' hsame hkept path hpath => ?_
    rw [hsame path (temporary_apart hkey hpath), hkept path hpath]
  have hremove (tree : Tree) (hkept : Kept tree) : Kept (tree.remove (attempt.temporary root) attempt.survives) := by
    intro path hpath
    rw [Tree.remove_apart _ (temporary_apart hkey hpath), hkept path hpath]
  have hassemble := hwithin ((assemble_within attempt machine (attempt.temporary root) key).weaken fun _ hpath => hpath.1)
  have hrename : Triple Kept (with_context "publish driver cache entry" (root.join key)
      (rename (attempt.temporary root) (root.join key))) (fun _ _ => True) Kept :=
    .map_err (.perform fun _ _ _ _ _ => trivial)
  have hpublish : Triple Kept (attempt.publish machine root key) (fun _ _ => True) Kept := by
    refine .bind (hwithin (with_context_within _ _ (.create .dir (List.prefix_refl _)))) fun _ => ?_
    exact .with_tempdir (.bind hassemble fun _ => hrename) (fun _ _ _ => trivial) hremove
  exact hpublish.error (fun _ _ => rfl) h

/-- What a program makes of the entry of a key: nothing, or a complete entry where none was, if it succeeds. -/
def Leaves {α : Type} (machine : Machine) (entry : Path) (key : String) (tree : Tree) (result : Except Error α) (tree' : Tree) :
    Prop :=
  (∀ path, entry <+: path → tree' path = tree path) ∨
    (∃ a, result = .ok a) ∧ tree entry = none ∧ Complete machine tree' entry key

theorem reuse_or_publish_leaves (hkey : CaptureKey.Canonical key) {other : String} (hother : CaptureKey.Canonical other)
    (w : World) : Leaves machine (root.join other) other w.tree (attempt.reuse_or_publish machine root key w).1
      (attempt.reuse_or_publish machine root key w).2.tree := by
  have hread : ReadOnly (symlink_metadata (root.join key)) := .symlink_metadata _
  have htree := hread.tree w
  rw [Attempt.reuse_or_publish, Action.attempt_apply]
  rcases hrun : symlink_metadata (root.join key) w with ⟨source | metadata, w1⟩
  · rw [hrun] at htree
    dsimp only at htree ⊢
    split
    · next hkind =>
      have habsent := symlink_metadata_error hrun hkind
      by_cases hsame : other = key
      · rw [hsame]
        rcases hpublish : attempt.publish machine root key w1 with ⟨error | ⟨⟩, w2⟩
        · refine .inl fun path hpath => ?_
          rw [publish_error hkey hpublish path hpath, htree]
        · exact .inr ⟨⟨(), rfl⟩, habsent, publish_ok hkey hpublish⟩
      · refine .inl fun path hpath => ?_
        rw [publish_within attempt machine root key w1 path ?_, htree]
        rintro (htemporary | hentry)
        · exact temporary_apart hother hpath htemporary
        · exact hsame (OsString.utf8.inj (below_join_inj hpath hentry))
    · exact .inl fun path _ => congrFun htree path
  · rw [hrun] at htree
    dsimp only at htree ⊢
    refine .inl fun path _ => ?_
    rw [(validate_entry_certain machine (root.join key) key).only.tree w1, htree]

/-- Whatever a call meets, it changes no entry of any key, or adds a complete one and succeeds. -/
theorem provision_leaves (hhome : ∀ path, cargo_home attempt.workspace = .ok path → path = home)
    (hkey : CaptureKey.Canonical key) (w : World) : Leaves machine ((drivers home).join key) key w.tree
      (attempt.provision machine w).1 (attempt.provision machine w).2.tree := by
  unfold Attempt.provision
  cases hcargo : cargo_home attempt.workspace with
  | error error => exact .inl fun _ _ => rfl
  | ok path =>
    obtain rfl := hhome path hcargo
    rw [Action.bind_of_ok (Action.lift_apply _ _)]
    have hcreate : Within (· <+: drivers path) (with_context "create driver cache" (drivers path) (create_dir_all (drivers path))) :=
      with_context_within _ _ (.create_dir_all _)
    have hkept := hcreate w
    rcases hrun : with_context "create driver cache" (drivers path) (create_dir_all (drivers path)) w with ⟨error | ⟨⟩, w1⟩
    · rw [hrun] at hkept
      rw [Action.bind_of_error hrun]
      exact .inl fun other hother => hkept other fun hprefix => not_below_join hprefix hother
    · rw [hrun] at hkept
      rw [Action.bind_of_ok hrun]
      have hbelow (other : Path) (hother : (drivers path).join key <+: other) : w1.tree other = w.tree other :=
        hkept other fun hprefix => not_below_join hprefix hother
      have hleaves : Leaves machine ((drivers path).join key) key w1.tree
          (attempt.reuse_or_publish machine (drivers path) (machine.driver_key attempt.identity) w1).1
          (attempt.reuse_or_publish machine (drivers path) (machine.driver_key attempt.identity) w1).2.tree :=
        reuse_or_publish_leaves (driver_key_canonical machine attempt.identity) hkey w1
      rcases hrest : attempt.reuse_or_publish machine (drivers path) (machine.driver_key attempt.identity) w1 with ⟨error | ⟨⟩, w2⟩
      · rw [hrest] at hleaves
        rw [Action.bind_of_error hrest]
        rcases hleaves with hsame | ⟨⟨a, ha⟩, -⟩
        · exact .inl fun other hother => (hsame other hother).trans (hbelow other hother)
        · cases ha
      · rw [hrest] at hleaves
        rw [Action.bind_of_ok hrest]
        rcases hleaves with hsame | ⟨-, habsent, hcomplete⟩
        · exact .inl fun other hother => (hsame other hother).trans (hbelow other hother)
        · exact .inr ⟨⟨_, rfl⟩, (hbelow _ (List.prefix_refl _)).symm.trans habsent, hcomplete⟩

/-- The directories on the way to the cache are there, or can be created. -/
structure Reachable (root : Path) (tree : Tree) : Prop where
  rooted : tree [] = some .dir
  ancestors : ∀ path, path <+: root → tree path = none ∨ tree path = some .dir

theorem Reachable.of_eq (h : Reachable root tree) (hsame : ∀ path, path <+: root → tree' path = tree path) : Reachable root tree' where
  rooted := (hsame [] List.nil_prefix).trans h.rooted
  ancestors path hpath := by
    rw [hsame path hpath]
    exact h.ancestors path hpath

theorem reuse_or_publish_apart (attempt : Attempt) (machine : Machine) (root : Path) (key : String) :
    Within (fun path => ¬ path <+: root) (attempt.reuse_or_publish machine root key) := by
  refine .attempt (.symlink_metadata _) ?_
  rintro (source | metadata)
  · refine .ite ((publish_within attempt machine root key).weaken ?_) .fail
    rintro path (htemporary | hentry) hprefix
    · exact not_below_join hprefix htemporary
    · exact not_below_join hprefix hentry
  · exact (validate_entry_certain machine _ key).only.weaken fun _ => False.elim

theorem provision_reachable (hhome : ∀ path, cargo_home attempt.workspace = .ok path → path = home) :
    Triple (Reachable (drivers home)) (attempt.provision machine) (fun _ => Reachable (drivers home)) (Reachable (drivers home)) := by
  have hcreate : Triple (Reachable (drivers home)) (create_dir_all (drivers home)) (fun _ => Reachable (drivers home))
      (Reachable (drivers home)) := by
    refine .create_dir_all fun tree ancestor hreach hancestor hfree => ⟨?_, fun path hpath => ?_⟩
    · have hne : ([] : Path) ≠ ancestor := by
        rintro rfl
        rw [hreach.rooted] at hfree
        cases hfree
      rw [Tree.set_other _ hne, hreach.rooted]
    · by_cases hsame : path = ancestor
      · exact .inr (by rw [hsame, Tree.set_same])
      · rw [Tree.set_other _ hsame]
        exact hreach.ancestors path hpath
  have hrest (root : Path) (key : String) : Triple (Reachable root) (attempt.reuse_or_publish machine root key)
      (fun _ => Reachable root) (Reachable root) :=
    .within (reuse_or_publish_apart attempt machine root key) fun tree tree' hsame hreach =>
      hreach.of_eq fun path hpath => hsame path fun h => h hpath
  unfold Attempt.provision
  cases hcargo : cargo_home attempt.workspace with
  | error error => exact .raise fun _ => id
  | ok path =>
    obtain rfl := hhome path hcargo
    intro w hw
    rw [Action.bind_of_ok (Action.lift_apply _ _)]
    refine Triple.bind hcreate.map_err (fun _ => .bind (hrest _ _) fun _ => ?_) w hw
    exact .pure fun _ => id

end

/-- A tree whose cache can be reached and has only entries that validation accepts. -/
structure Sound (machine : Machine) (home : Path) (tree : Tree) : Prop extends Reachable (drivers home) tree where
  entries : ∀ key, CaptureKey.Canonical key → tree ((drivers home).join key) ≠ none →
    Answers (validate_entry machine ((drivers home).join key) key) tree (.ok ())

section

variable {attempt : Attempt} {home : Path} {key : String}

/-- A cache without any entry is sound. -/
theorem Sound.of_absent (hreach : Reachable (drivers home) tree)
    (habsent : ∀ key, CaptureKey.Canonical key → tree ((drivers home).join key) = none) : Sound machine home tree :=
  ⟨hreach, fun key hkey hpresent => absurd (habsent key hkey) hpresent⟩

theorem validate_key_iff (hkey : CaptureKey.Canonical key) {root : Path} :
    Answers (validate_entry machine (root.join key) key) tree (.ok ()) ↔ Complete machine tree (root.join key) key := by
  apply validate_entry_iff
  rw [Path.join, List.getLast?_concat]
  exact fun h => canonical_ne_executable hkey (Option.some.inj h)

theorem reuse_or_publish_ok (hkey : CaptureKey.Canonical key) {root : Path}
    (h : attempt.reuse_or_publish machine root key w = (.ok (), w')) : Complete machine w'.tree (root.join key) key := by
  rw [Attempt.reuse_or_publish, Action.attempt_apply] at h
  rcases hrun : symlink_metadata (root.join key) w with ⟨source | metadata, w1⟩
  · rw [hrun] at h
    dsimp only at h
    split at h
    · exact publish_ok hkey h
    · cases h
  · rw [hrun] at h
    dsimp only at h
    have hcertain := validate_entry_certain machine (root.join key) key
    have htree : w'.tree = w1.tree := by rw [← hcertain.only.tree w1, h]
    rw [htree]
    exact (validate_key_iff hkey).mp (hcertain.answers w1 () w' h)

/-- The driver of a call. -/
def Attempt.driver (self : Attempt) (machine : Machine) (home : Path) : RustcDriver where
  executable := ((drivers home).join (machine.driver_key self.identity)).join EXECUTABLE
  key := machine.driver_key self.identity

/-- A call that returns `Ok` leaves a complete entry for its driver. -/
theorem provision_ok {driver : RustcDriver} (hhome : ∀ path, cargo_home attempt.workspace = .ok path → path = home)
    (h : attempt.provision machine w = (.ok driver, w')) : driver = attempt.driver machine home ∧
      Complete machine w'.tree ((drivers home).join (machine.driver_key attempt.identity)) (machine.driver_key attempt.identity) := by
  obtain ⟨path, w1, hcargo, h⟩ := Action.bind_eq_ok_iff.mp h
  obtain rfl := hhome path (Action.lift_eq_ok_iff.mp hcargo).1
  obtain ⟨⟨⟩, w2, -, h⟩ := Action.bind_eq_ok_iff.mp h
  obtain ⟨⟨⟩, w3, hrest, h⟩ := Action.bind_eq_ok_iff.mp h
  cases h
  exact ⟨rfl, reuse_or_publish_ok (driver_key_canonical machine attempt.identity) hrest⟩

/-- A call whose operations and build may fail keeps a cache sound. -/
theorem Sound.provision (h : Sound machine home w.tree)
    (hhome : ∀ path, cargo_home attempt.workspace = .ok path → path = home) :
    Sound machine home (attempt.provision machine w).2.tree where
  toReachable := by
    rcases hrun : attempt.provision machine w with ⟨error | driver, w'⟩
    · exact (provision_reachable hhome).error h.toReachable hrun
    · exact (provision_reachable hhome).ok h.toReachable hrun
  entries key hkey hpresent := by
    rw [validate_key_iff hkey]
    have hleaves : Leaves machine ((drivers home).join key) key w.tree (attempt.provision machine w).1
        (attempt.provision machine w).2.tree := provision_leaves hhome hkey w
    rcases hleaves with hsame | ⟨-, -, hcomplete⟩
    · rw [hsame _ (List.prefix_refl _)] at hpresent
      have hcomplete := (validate_key_iff hkey).mp (h.entries key hkey hpresent)
      exact hcomplete.transfer fun path => hsame _ (List.prefix_append _ _)
    · exact hcomplete

end

end optic.rustc_driver
