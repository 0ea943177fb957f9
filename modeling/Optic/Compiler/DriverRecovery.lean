import Optic.Compiler.DriverSpec

open rust file_system optic.records

namespace optic.rustc_driver

variable {tree tree' : Tree} {w w' : World} {machine : Machine}

/-- A compiler that builds a driver from the embedded sources. The driver reports the key that is compiled into it, and
the build does not invent an identity. -/
def Delivers (machine : Machine) (rustc : Command → Tree → Build) : Prop :=
  ∀ (command : Command) (tree : Tree) (directory : Path) (key : String),
    command.source = directory.join "main.rs" → command.executable = directory.join EXECUTABLE →
    command.environment.lookup "OPTIC_DRIVER_KEY" = some key →
    (∀ source ∈ machine.sources, tree (directory.join source.1) = some (.file (text source.2))) →
    (∃ answer, (rustc command tree).output = .ok answer ∧ answer.status.success = true) ∧
      Reports machine (rustc command tree).left (directory.join EXECUTABLE) key ∧
      (tree (directory.join "identity") = none → (rustc command tree).left (directory.join "identity") = none)

section

variable {attempt : Attempt} {root temporary home : Path} {key : String}

theorem write_completes {path : Path} {bytes : List UInt8} {operation : String} (hfree : tree path = none)
    (hparent : tree path.dropLast = some .dir) :
    ∃ tree', Completes (with_context operation path (write path bytes)) tree () tree' [] ∧ tree' path = some (.file bytes) ∧
      ∀ other, other ≠ path → tree' other = tree other := by
  refine ⟨_, .map_err (.of_runs (.write hfree hparent)), ?_, fun other hother => ?_⟩
  · rw [Tree.append_file bytes (Tree.set_same _ _ _), List.nil_append]
  · rw [Tree.append_other _ hother, Tree.set_other _ hother]

theorem write_sources_completes : ∀ (sources : List (String × String)) (tree : Tree), tree temporary = some .dir →
    (∀ source ∈ sources, tree (temporary.join source.1) = none) → (sources.map Prod.fst).Nodup →
    ∃ tree', Completes (write_sources temporary sources) tree () tree' [] ∧
      ∀ source ∈ sources, tree' (temporary.join source.1) = some (.file (text source.2))
  | [], tree, _, _, _ => ⟨tree, .pure, fun _ h => nomatch h⟩
  | (name, contents) :: sources, tree, hlocated, hfree, hdistinct => by
    obtain ⟨hnew, hrest⟩ := List.nodup_cons.mp hdistinct
    have hparent : tree (temporary.join name).dropLast = some .dir := by rwa [Path.join, List.dropLast_concat]
    obtain ⟨tree1, hwrite, hfile, hother⟩ := write_completes (hfree _ List.mem_cons_self) hparent
    have hapart (source : String × String) (hsource : source ∈ sources) : temporary.join source.1 ≠ temporary.join name := by
      intro heq
      rw [join_inj, OsString.utf8.injEq] at heq
      exact hnew (List.mem_map.mpr ⟨source, hsource, heq.2⟩)
    obtain ⟨tree2, hsources, hfiles⟩ := write_sources_completes sources tree1
      ((hother _ (below_join temporary name).2.symm).trans hlocated)
      (fun source hsource => (hother _ (hapart source hsource)).trans (hfree source (List.mem_cons_of_mem _ hsource))) hrest
    refine ⟨tree2, .bind hwrite hsources, List.forall_mem_cons.mpr ⟨?_, hfiles⟩⟩
    rw [hsources.frame (write_sources_within temporary sources) ?_, hfile]
    rintro ⟨source, hsource, heq⟩
    exact hapart source hsource heq.symm

/-- The embedded sources fill a directory that has no file yet, and leave the name of the identity free. -/
theorem embed_completes (hlocated : tree temporary = some .dir) (hfree : ∀ name, tree (temporary.join name) = none) :
    ∃ tree', Completes (write_sources temporary machine.sources) tree () tree' [] ∧ tree' temporary = some .dir ∧
      tree' (temporary.join "identity") = none ∧
      ∀ source ∈ machine.sources, tree' (temporary.join source.1) = some (.file (text source.2)) := by
  have hnames : machine.sources.map Prod.fst = SOURCE_NAMES := rfl
  obtain ⟨tree', hsources, hfiles⟩ := write_sources_completes machine.sources tree hlocated (fun source _ => hfree _)
    (by rw [hnames]; decide)
  have hsame (path : Path) (hpath : ¬ ∃ source ∈ machine.sources, path = temporary.join source.1) : tree' path = tree path :=
    hsources.frame (write_sources_within temporary machine.sources) hpath
  refine ⟨tree', hsources, (hsame _ ?_).trans hlocated, (hsame _ ?_).trans (hfree _), hfiles⟩
  · rintro ⟨source, -, heq⟩
    exact (below_join temporary source.1).2 heq.symm
  · rintro ⟨source, hsource, heq⟩
    have hname : source.1 ∈ SOURCE_NAMES := hnames ▸ List.mem_map_of_mem hsource
    rw [join_inj, OsString.utf8.injEq] at heq
    rw [← heq.2] at hname
    exact absurd hname (by decide)

/-- A build that succeeds is one run of the compiler. -/
theorem build_driver_completes {source : Path} {build : Build} {answer : compiler.collector.Output}
    (hbuild : attempt.rustc (attempt.command source (temporary.join EXECUTABLE) key) tree = build)
    (hanswer : build.output = .ok answer) (hsuccess : answer.status.success = true) :
    Completes (attempt.build_driver source (temporary.join EXECUTABLE) key) tree ()
      (tree.replace_below temporary build.left) (text "rustc\n") := by
  have hdirectory : (temporary.join EXECUTABLE).dropLast = temporary := List.dropLast_concat
  have hcompile : Completes (compile attempt.rustc (attempt.command source (temporary.join EXECUTABLE) key)) tree answer
      (tree.replace_below temporary build.left) (text "rustc\n") := by
    rintro w rfl -
    rw [compile, hbuild, hanswer, Attempt.command, hdirectory]
  rw [← List.append_nil (text "rustc\n")]
  exact .bind hcompile.map_err (.of_answers (check_ok_iff.mpr hsuccess))

/-- A directory with a driver is complete once it has the identity. -/
theorem identify_completes (hlocated : tree temporary = some .dir) (hunnamed : tree (temporary.join "identity") = none)
    (hreports : Reports machine tree (temporary.join EXECUTABLE) key) :
    ∃ tree', Completes (with_context "write driver identity" (temporary.join "identity")
      (write (temporary.join "identity") (header key))) tree () tree' [] ∧ Complete machine tree' temporary key := by
  have hparent : tree (temporary.join "identity").dropLast = some .dir := by rwa [Path.join, List.dropLast_concat]
  obtain ⟨tree', hwrite, hfile, hother⟩ := write_completes hunnamed hparent
  refine ⟨tree', hwrite, (hother _ (below_join temporary _).2.symm).trans hlocated, hfile, hreports.transfer ?_ ?_⟩
  · exact hother _ (by simp [join_inj, EXECUTABLE])
  · refine hother _ fun heq => ?_
    rw [join_inj] at heq
    exact (below_join temporary EXECUTABLE).2 heq.1

/-- With a compiler that delivers, a new directory is filled with a complete entry. -/
theorem assemble_completes (hdelivers : Delivers machine attempt.rustc) (hname : temporary.getLast? ≠ some EXECUTABLE)
    (hlocated : tree temporary = some .dir) (hfree : ∀ name, tree (temporary.join name) = none) :
    ∃ tree', Completes (attempt.assemble machine temporary key) tree () tree' (text "rustc\n") := by
  obtain ⟨tree1, hsources, hlocated1, hunnamed1, hfiles⟩ := embed_completes hlocated hfree
  let command := attempt.command (temporary.join "main.rs") (temporary.join EXECUTABLE) key
  let left := (attempt.rustc command tree1).left
  obtain ⟨⟨answer, hanswer, hsuccess⟩, hreports, hidentity⟩ := hdelivers command tree1 temporary key rfl rfl rfl hfiles
  have hbuild : Completes (attempt.build_driver (temporary.join "main.rs") (temporary.join EXECUTABLE) key) tree1 ()
      (tree1.replace_below temporary left) (text "rustc\n") := build_driver_completes rfl hanswer hsuccess
  have hbelow (name : OsString) (path : Path) : tree1.replace_below temporary left (temporary.join name ++ path) =
      left (temporary.join name ++ path) := Tree.replace_below_join left name path
  have hunnamed2 : tree1.replace_below temporary left (temporary.join "identity") = none := by
    simpa only [List.append_nil, left, hidentity hunnamed1] using hbelow "identity" []
  have hreports2 : Reports machine (tree1.replace_below temporary left) (temporary.join EXECUTABLE) key := by
    refine hreports.transfer ?_ (hbelow EXECUTABLE ["mode"])
    simpa only [List.append_nil] using hbelow EXECUTABLE []
  obtain ⟨tree2, hwrite, hcomplete⟩ :=
    identify_completes ((Tree.replace_below_same left).trans hlocated1) hunnamed2 hreports2
  have hvalidate := (validate_entry_iff hname).mpr hcomplete
  exact ⟨tree2, .bind hsources (.bind hbuild (.bind hwrite (.of_answers hvalidate)))⟩

/-- Where no entry is, one is published. -/
theorem publish_completes (hdelivers : Delivers machine attempt.rustc) (hkey : CaptureKey.Canonical key)
    (hroot : tree root = some .dir) (habsent : tree (root.join key) = none) (hunused : tree.Unused (attempt.temporary root)) :
    ∃ tree', Completes (attempt.publish machine root key) tree () tree' (text "rustc\n") := by
  let temporary := attempt.temporary root
  have hdropLast (name : OsString) : (root.join name).dropLast = root := List.dropLast_concat
  have hcreate : Completes (with_context "create driver build directory in" root (create_dir temporary)) tree ()
      (tree.set temporary .dir) [] :=
    .map_err (.of_runs (.create .dir (hunused _ (List.prefix_refl _)) ((congrArg tree (hdropLast _)).trans hroot)))
  have hfree (name : OsString) : tree.set temporary .dir (temporary.join name) = none := by
    rw [Tree.set_other _ (below_join temporary name).2]
    exact hunused _ (below_join temporary name).1
  obtain ⟨tree1, hassemble⟩ : ∃ tree1, Completes (attempt.assemble machine temporary key) (tree.set temporary .dir) () tree1
      (text "rustc\n") := assemble_completes hdelivers (temporary_getLast attempt root) (Tree.set_same _ _ _) hfree
  have hkept (path : Path) (hpath : ¬ (temporary <+: path ∧ path ≠ temporary)) :
      tree1 path = tree.set temporary .dir path := hassemble.frame (assemble_within attempt machine temporary key) hpath
  have hentry : ¬ temporary <+: root.join key := temporary_apart hkey (List.prefix_refl _)
  have hbelow : ¬ temporary <+: root := not_below_join (List.prefix_refl root)
  have hne {path : Path} (h : ¬ temporary <+: path) : path ≠ temporary := by
    rintro rfl
    exact h (List.prefix_refl _)
  have hnone : tree1 (root.join key) = none := by
    rw [hkept _ fun h => hentry h.1, Tree.set_other _ (hne hentry), habsent]
  have hdir : tree1 (root.join key).dropLast = some .dir := by
    rw [hdropLast, hkept _ fun h => hbelow h.1, Tree.set_other _ (hne hbelow), hroot]
  have hlocated : tree1 temporary = some .dir := by
    rw [hkept _ fun h => h.2 rfl, Tree.set_same]
  have hrename : Completes (with_context "publish driver cache entry" (root.join key) (rename temporary (root.join key)))
      tree1 () (tree1.move temporary (root.join key)) [] :=
    .map_err (.of_runs (.rename_dir hlocated hnone hdir hentry))
  have hgone : (tree1.move temporary (root.join key)).Unused temporary :=
    Tree.move_unused hentry fun h => canonical_ne_temporary hkey _ (below_join_inj (List.prefix_refl _) h)
  exact ⟨_, .bind hcreate (.with_tempdir (.bind hassemble hrename) hgone)⟩

/-- What a call finds once the cache is created, where nothing fails. -/
theorem create_completes (hreach : Reachable root tree) : ∃ tree',
    Completes (with_context "create driver cache" root (create_dir_all root)) tree () tree' [] ∧ tree' root = some .dir ∧
      ∀ path, ¬ path <+: root → tree' path = tree path := by
  obtain ⟨count, tree', hruns, hdir⟩ := Runs.create_dir_all hreach.rooted hreach.ancestors
  have hcreate : Completes (create_dir_all root) tree () tree' [] := .of_runs hruns
  exact ⟨tree', hcreate.map_err, hdir, fun path hpath => hcreate.frame (.create_dir_all root) hpath⟩

theorem provision_completes {output : List UInt8} {tree1 : Tree} (hcargo : cargo_home attempt.workspace = .ok home)
    (hcreate : Completes (with_context "create driver cache" (drivers home) (create_dir_all (drivers home))) tree () tree1 [])
    (hrest : Completes (attempt.reuse_or_publish machine (drivers home) (machine.driver_key attempt.identity)) tree1 () tree' output) :
    Completes (attempt.provision machine) tree (attempt.driver machine home) tree' output := by
  unfold Attempt.provision
  rw [hcargo]
  have hhome : Completes (Action.lift (.ok home) : Action Error Path) tree home tree [] := .pure
  rw [← List.append_nil output]
  change Completes _ _ _ _ ([] ++ ([] ++ (output ++ [])))
  exact .bind hhome (.bind hcreate (.bind hrest .pure))

/-- Without failures, an entry that is there is reused. -/
theorem provision_reuses (hsound : Sound machine home tree) (hcargo : cargo_home attempt.workspace = .ok home)
    (hpresent : tree ((drivers home).join (machine.driver_key attempt.identity)) ≠ none) :
    ∃ tree', Completes (attempt.provision machine) tree (attempt.driver machine home) tree' [] := by
  obtain ⟨tree1, hcreate, -, hsame⟩ := create_completes hsound.toReachable
  let key := machine.driver_key attempt.identity
  have hkey : CaptureKey.Canonical key := driver_key_canonical machine attempt.identity
  have hbelow (path : Path) : tree1 ((drivers home).join key ++ path) = tree ((drivers home).join key ++ path) :=
    hsame _ fun hprefix => not_below_join hprefix (List.prefix_append _ _)
  have hcomplete : Complete machine tree1 ((drivers home).join key) key :=
    ((validate_key_iff hkey).mp (hsound.entries key hkey hpresent)).transfer hbelow
  have hrest : Completes (attempt.reuse_or_publish machine (drivers home) key) tree1 () tree1 [] :=
    .attempt (.symlink_metadata hcomplete.located) (.of_answers ((validate_key_iff hkey).mpr hcomplete))
  exact ⟨tree1, provision_completes hcargo hcreate hrest⟩

/-- Without failures, an entry that is not there is built once. -/
theorem provision_builds (hreach : Reachable (drivers home) tree) (hcargo : cargo_home attempt.workspace = .ok home)
    (habsent : tree ((drivers home).join (machine.driver_key attempt.identity)) = none)
    (hunused : tree.Unused (attempt.temporary (drivers home))) (hdelivers : Delivers machine attempt.rustc) :
    ∃ tree', Completes (attempt.provision machine) tree (attempt.driver machine home) tree' (text "rustc\n") := by
  obtain ⟨tree1, hcreate, hdir, hsame⟩ := create_completes hreach
  let key := machine.driver_key attempt.identity
  have habsent1 : tree1 ((drivers home).join key) = none :=
    (hsame _ fun hprefix => not_below_join hprefix (List.prefix_refl _)).trans habsent
  have hunused1 : tree1.Unused (attempt.temporary (drivers home)) := fun path hpath =>
    (hsame _ fun hprefix => not_below_join hprefix hpath).trans (hunused path hpath)
  obtain ⟨tree2, hpublish⟩ := publish_completes hdelivers (driver_key_canonical machine attempt.identity) hdir habsent1 hunused1
  have hrest : Completes (attempt.reuse_or_publish machine (drivers home) key) tree1 () tree2 (text "rustc\n") :=
    .attempt (.symlink_metadata_absent habsent1) hpublish
  exact ⟨tree2, provision_completes hcargo hcreate hrest⟩

end

/-- A call that uses the Cargo home at a path, or none. -/
def Attempt.At (self : Attempt) (home : Path) : Prop := ∀ path, cargo_home self.workspace = .ok path → path = home

theorem Sound.after {home : Path} (attempts : List Attempt) (hhome : ∀ attempt ∈ attempts, attempt.At home) :
    ∀ w : World, Sound machine home w.tree → Sound machine home (machine.after attempts w).tree := by
  induction attempts with
  | nil => exact fun _ h => h
  | cons attempt attempts ih =>
    intro w h
    have hfirst : Sound machine home (attempt.call machine w).2.tree :=
      Sound.provision h (hhome attempt List.mem_cons_self)
    exact ih (fun other hother => hhome other (List.mem_cons_of_mem _ hother)) _ hfirst

/-- What a call does to the cache that earlier calls leave. -/
structure Recovers (machine : Machine) (home : Path) (attempt : Attempt) (w : World) : Prop where
  /-- A failed call changes no entry of any key. -/
  kept : ∀ error, (attempt.call machine w).1 = .error error → ∀ key, CaptureKey.Canonical key →
    ∀ path, (drivers home).join key <+: path → (attempt.call machine w).2.tree path = w.tree path
  /-- A call that returns `Ok` leaves a complete entry for its driver. -/
  complete : ∀ driver, (attempt.call machine w).1 = .ok driver → driver = attempt.driver machine home ∧
    Complete machine (attempt.call machine w).2.tree ((drivers home).join (machine.driver_key attempt.identity))
      (machine.driver_key attempt.identity)
  /-- Without failures, an entry that is there is reused as it is, and no compiler runs. -/
  reused : cargo_home attempt.workspace = .ok home → attempt.schedule = [] →
    w.tree ((drivers home).join (machine.driver_key attempt.identity)) ≠ none →
    (attempt.call machine w).1 = .ok (attempt.driver machine home) ∧
      (attempt.call machine w).2.sink.accepted = w.sink.accepted ∧
      (∀ path, (drivers home).join (machine.driver_key attempt.identity) <+: path →
        (attempt.call machine w).2.tree path = w.tree path) ∧
      Complete machine (attempt.call machine w).2.tree ((drivers home).join (machine.driver_key attempt.identity))
        (machine.driver_key attempt.identity)
  /-- Without failures, an entry that is not there is built in one run of the compiler. -/
  built : cargo_home attempt.workspace = .ok home → attempt.schedule = [] →
    w.tree ((drivers home).join (machine.driver_key attempt.identity)) = none →
    w.tree.Unused (attempt.temporary (drivers home)) → Delivers machine attempt.rustc →
    (attempt.call machine w).1 = .ok (attempt.driver machine home) ∧
      (attempt.call machine w).2.sink.accepted = w.sink.accepted ++ text "rustc\n" ∧
      Complete machine (attempt.call machine w).2.tree ((drivers home).join (machine.driver_key attempt.identity))
        (machine.driver_key attempt.identity)

theorem call_ok {attempt : Attempt} {home : Path} (hat : attempt.At home) {driver : RustcDriver}
    (hok : (attempt.call machine w).1 = .ok driver) : driver = attempt.driver machine home ∧
      Complete machine (attempt.call machine w).2.tree ((drivers home).join (machine.driver_key attempt.identity))
        (machine.driver_key attempt.identity) :=
  provision_ok hat (w := { w with schedule := attempt.schedule }) (Prod.ext hok rfl)

/-- Behind any calls, whatever fails in them, a cache has only entries that validation accepts, and every call recovers.
An interrupted call is one that fails there and whose temporary directory stays. -/
theorem provision_recovers {home : Path} {w : World} (hsound : Sound machine home w.tree) (attempts : List Attempt)
    (hhome : ∀ attempt ∈ attempts, attempt.At home) :
    Sound machine home (machine.after attempts w).tree ∧
      ∀ attempt : Attempt, attempt.At home → Recovers machine home attempt (machine.after attempts w) := by
  have hafter := Sound.after attempts hhome w hsound
  refine ⟨hafter, fun attempt hat => ⟨?_, fun driver hok => call_ok hat hok, ?_, ?_⟩⟩
  · intro error hfailed key hkey
    have hleaves : Leaves machine ((drivers home).join key) key (machine.after attempts w).tree
        (attempt.call machine (machine.after attempts w)).1 (attempt.call machine (machine.after attempts w)).2.tree :=
      provision_leaves hat hkey _
    rcases hleaves with hsame | ⟨⟨driver, hok⟩, -⟩
    · exact hsame
    · rw [hfailed] at hok
      cases hok
  · intro hcargo hschedule hpresent
    have hleaves : Leaves machine ((drivers home).join (machine.driver_key attempt.identity)) (machine.driver_key attempt.identity)
        (machine.after attempts w).tree (attempt.call machine (machine.after attempts w)).1
        (attempt.call machine (machine.after attempts w)).2.tree :=
      provision_leaves hat (driver_key_canonical machine attempt.identity) _
    have hsame := hleaves.resolve_right fun h => hpresent h.2.1
    obtain ⟨tree', hcompletes⟩ := provision_reuses hafter hcargo hpresent
    have hcall : attempt.call machine (machine.after attempts w) = _ :=
      hcompletes { machine.after attempts w with schedule := attempt.schedule } rfl hschedule
    have hok := congrArg Prod.fst hcall
    refine ⟨hok, ?_, hsame, (call_ok hat hok).2⟩
    rw [hcall]
    exact List.append_nil _
  · intro hcargo hschedule habsent hunused hdelivers
    obtain ⟨tree', hcompletes⟩ := provision_builds hafter.toReachable hcargo habsent hunused hdelivers
    have hcall : attempt.call machine (machine.after attempts w) = _ :=
      hcompletes { machine.after attempts w with schedule := attempt.schedule } rfl hschedule
    have hok := congrArg Prod.fst hcall
    refine ⟨hok, ?_, (call_ok hat hok).2⟩
    rw [hcall]

namespace fixture

def host : Machine where
  embedded name := "// " ++ name
  sha256 _ := Vector.replicate 32 0
  execute _ bytes _ := .ok ⟨⟨true, "exit status: 0"⟩, bytes, []⟩

def workspace : Workspace := ⟨some "cargo", none, fun _ => ["home", "cargo"]⟩

/-- A compiler whose driver reports the key that is compiled into it. -/
def rustc (command : Command) (_ : Tree) : Build where
  output := .ok ⟨⟨true, "exit status: 0"⟩, [], []⟩
  left path :=
    if path = command.executable then
      some (.file (text ((command.environment.lookup "OPTIC_DRIVER_KEY").getD "" ++ "\n")))
    else if path = command.executable.join "mode" then some (.file [0xed])
    else none

/-- A call with a failure of its first operation. -/
def broken : Attempt :=
  ⟨workspace, compiler.fixture.toolchain, "0", rustc, fun _ => true, [some ⟨⟨.Other, "Input/output error (os error 5)"⟩, 0, by decide, by decide⟩]⟩

def attempt : Attempt := ⟨workspace, compiler.fixture.toolchain, "1", rustc, fun _ => false, []⟩

/-- A machine without any directory but the root. -/
def empty : World := { tree := fun path => if path = [] then some .dir else none }

theorem delivers : Delivers host rustc := by
  intro command tree directory key _ hexecutable hkey _
  have hfile : (rustc command tree).left command.executable = some (.file (text (key ++ "\n"))) := by
    refine (if_pos rfl).trans ?_
    rw [hkey]
    rfl
  have hmode : mode (rustc command tree).left command.executable = 0xed := by
    have hne : command.executable.join "mode" ≠ command.executable := (below_join _ _).2
    simp [mode, rustc, hne]
  have hnonempty : text (key ++ "\n") ≠ [] := by
    rw [text_append]
    exact List.append_ne_nil_of_right_ne_nil _ (by decide)
  rw [← hexecutable]
  refine ⟨⟨_, rfl, rfl⟩, ⟨_, _, hfile, hnonempty, by rw [hmode]; decide, rfl, rfl, rfl⟩, fun _ => ?_⟩
  have hother : directory.join "identity" ≠ command.executable := by
    rw [hexecutable, ne_eq, join_inj, not_and]
    exact fun _ => by decide
  have hlonger : directory.join "identity" ≠ command.executable.join "mode" := by
    intro heq
    rw [join_inj, hexecutable] at heq
    exact (below_join directory EXECUTABLE).2 heq.1.symm
  exact (if_neg hother).trans (if_neg hlonger)

end fixture

theorem provision_recovers_broken :
    (fixture.attempt.call fixture.host (fixture.host.after [fixture.broken] fixture.empty)).1 =
        .ok (fixture.attempt.driver fixture.host ["home", "cargo"]) ∧
      (fixture.attempt.call fixture.host (fixture.host.after [fixture.broken] fixture.empty)).2.sink.accepted =
        text "rustc\n" ∧
      Complete fixture.host (fixture.attempt.call fixture.host (fixture.host.after [fixture.broken] fixture.empty)).2.tree
        ((drivers ["home", "cargo"]).join (fixture.host.driver_key fixture.attempt.identity))
        (fixture.host.driver_key fixture.attempt.identity) := by
  have hat (attempt : Attempt) (h : attempt.workspace = fixture.workspace) : attempt.At ["home", "cargo"] := by
    intro path hpath
    rw [h] at hpath
    cases hpath
    rfl
  have hsound : Sound fixture.host ["home", "cargo"] fixture.empty.tree := by
    refine .of_absent ⟨rfl, fun path _ => ?_⟩ fun _ _ => rfl
    by_cases hpath : path = []
    · exact .inr (if_pos hpath)
    · exact .inl (if_neg hpath)
  have hbroken : ∀ attempt ∈ [fixture.broken], attempt.At ["home", "cargo"] := by
    intro attempt hattempt
    rw [List.mem_singleton.mp hattempt]
    exact hat _ rfl
  obtain ⟨-, hrecovers⟩ := provision_recovers hsound [fixture.broken] hbroken
  have htree : (fixture.host.after [fixture.broken] fixture.empty).tree = fixture.empty.tree := rfl
  have hunused : (fixture.host.after [fixture.broken] fixture.empty).tree.Unused
      (fixture.attempt.temporary (drivers ["home", "cargo"])) := by
    rw [htree]
    rintro path ⟨rest, rfl⟩
    rfl
  exact (hrecovers fixture.attempt (hat _ rfl)).built rfl rfl (by rw [htree]; rfl) hunused fixture.delivers

end optic.rustc_driver
