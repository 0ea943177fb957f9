import Optic.Compiler.AnalysisRun
import Optic.Compiler.Launch
import Optic.Compiler.WrapperSpec

open rust optic.records optic.compiler optic.compiler.protocol optic.driver file_system wire

namespace optic.compiler.wrapper

variable {system : System}

/-- Only a stopped probe writes, and only its receipt. -/
theorem run_written {path : OsString} {bytes : List UInt8} (h : (run system).written = some (path, bytes)) :
    system.var_os STALE_RECEIPT_ENV = some path := by
  have hexecute (command : Command) : (execute system command).written = none := by
    unfold execute
    cases system.exec command <;> rfl
  unfold run at h
  cases hargs : system.args_os.drop 1 with
  | nil =>
    rw [hargs] at h
    cases h
  | cons program rest =>
    simp only [hargs] at h
    cases hmarker : system.var_os SELECTED_TARGET_MARKER_ENV with
    | none =>
      rw [hmarker] at h
      cases h
    | some marker =>
      simp only [hmarker] at h
      cases hfound : (program :: rest).findIdx? (· = marker) with
      | none =>
        simp only [hfound] at h
        split at h
        · cases h
        · rw [hexecute] at h
          cases h
      | some selected_target =>
        simp only [hfound] at h
        cases hverified : verify_selected system program rest marker with
        | error report =>
          rw [hverified] at h
          cases h
        | ok _ =>
          simp only [hverified] at h
          split at h
          · unfold stop_probe at h
            cases hstale : system.var_os STALE_RECEIPT_ENV with
            | none =>
              rw [hstale] at h
              cases h
            | some stale =>
              simp only [hstale] at h
              cases hname : marker.into_string with
              | none =>
                rw [hname] at h
                cases h
              | some name =>
                simp only [hname] at h
                split at h
                · cases hwrite : system.write stale with
                  | Completed =>
                    rw [hwrite] at h
                    cases h
                    rfl
                  | Unopened error =>
                    rw [hwrite] at h
                    cases h
                  | Stopped error count =>
                    rw [hwrite] at h
                    cases h
                    rfl
                · cases h
          · cases hexe : system.current_exe with
            | error error =>
              rw [hexe] at h
              cases h
            | ok executable =>
              rw [hexe] at h
              simp only [hexecute] at h
              cases h
          · cases h

end optic.compiler.wrapper

namespace optic.launch

open wrapper

variable {M : CargoSchema} {FileId : Type} {attempt : Path} {directory : PathBuf} {inherited : String → Option OsString}
  {command : Command}

/-- What an attempt keeps for the process that started it. -/
def Own (attempt path : Path) : Prop :=
  path = attempt.join "manifest" ∨ ∃ artifact, path = attempt.join (snapshot_name artifact)

/-- The variables that the driver's executable reads. -/
def VARIABLES : List String :=
  [SELECTED_TARGET_MARKER_ENV, DRIVER_INNER_ENV, MODE_ENV, STALE_RECEIPT_ENV, RUSTC_ENV, SOURCE_ENV, CRATE_NAME_ENV,
    MANIFEST_PATH_ENV, PACKAGE_ROOT_ENV]

/-- A process of an attempt's build: Cargo hands the variables of its command on, and other programs leave the files of the
attempt alone. -/
structure Started.Belongs (process : Started FileId) (command : Command) (inherited : String → Option OsString)
    (attempt : Path) (directory : PathBuf) : Prop where
  handed : ∀ name ∈ VARIABLES, process.host.var_os name = command.var_os inherited name
  manifest : process.host.resolve (directory.join "manifest").text = attempt.join "manifest"
  stale : process.host.resolve (directory.join "stale").text = attempt.join "stale"
  rustc : process.executable.rustc.Spares attempt
  other : ∀ command tree path, Own attempt path → (process.other command tree).2 path = tree path

/-- What an attempt's command says to every process below it. -/
structure Said (launch : Launch M) (source : OsString) (mode marker : String) (directory : PathBuf)
    (var_os : String → Option OsString) : Prop where
  marker : var_os SELECTED_TARGET_MARKER_ENV = some (.utf8 marker)
  inner : var_os DRIVER_INNER_ENV = none
  mode : var_os MODE_ENV = some (.utf8 mode)
  stale : var_os STALE_RECEIPT_ENV = some (.utf8 (directory.join "stale").text)
  rustc : var_os RUSTC_ENV = some (.utf8 launch.compiler.rustc.text)
  source : var_os SOURCE_ENV = some source
  crate_name : var_os CRATE_NAME_ENV = some (.utf8 (launch.target.name.map fun c => if c = '-' then '_' else c))
  manifest : var_os MANIFEST_PATH_ENV = some (.utf8 (directory.join "manifest").text)
  package_root : var_os PACKAGE_ROOT_ENV = some launch.package_root

namespace Command

variable (self : Command) (name value : String) (inherited : String → Option OsString)

theorem var_os_snoc (other : String) (entry : Option OsString) :
    var_os { self with env := self.env ++ [(other, entry)] } inherited name =
      if name = other then entry else self.var_os inherited name := by
  rw [var_os, List.reverse_append, List.reverse_singleton, List.singleton_append, List.lookup_cons]
  by_cases h : name = other
  · rw [if_pos h, beq_iff_eq.mpr h]
    rfl
  · rw [if_neg h, beq_eq_false_iff_ne.mpr h]
    rfl

theorem var_os_set_env (other : String) (value : OsString) :
    (self.set_env other value).var_os inherited name = if name = other then some value else self.var_os inherited name :=
  self.var_os_snoc name inherited other (some value)

theorem var_os_env_remove (other : String) :
    (self.env_remove other).var_os inherited name = if name = other then none else self.var_os inherited name :=
  self.var_os_snoc name inherited other none

end Command

theorem Launch.started_said {launch : Launch M} {canonicalize : PathBuf → Except IoError OsString} {mode marker : String}
    (h : launch.started canonicalize mode marker directory = .ok command) (inherited : String → Option OsString) :
    ∃ source, canonicalize launch.target.src_path = .ok source ∧
      Said launch source mode marker directory (command.var_os inherited) := by
  unfold started Launch.command at h
  cases hsource : canonicalize launch.target.src_path with
  | error error =>
    rw [hsource] at h
    cases h
  | ok source =>
    rw [hsource] at h
    cases h
    refine ⟨source, rfl, ?_⟩
    constructor <;>
      simp [configure, Command.var_os_set_env, Command.var_os_env_remove, SELECTED_TARGET_MARKER_ENV, DRIVER_INNER_ENV, MODE_ENV,
        STALE_RECEIPT_ENV, RUSTC_ENV, SOURCE_ENV, CRATE_NAME_ENV, MANIFEST_PATH_ENV, PACKAGE_ROOT_ENV]

section

variable {process : Started FileId} {launch : Launch M} {source : OsString} {mode : String} {token : AnalysisToken} {tree : Tree}

theorem Started.Belongs.said (h : process.Belongs command inherited attempt directory) {marker : String}
    (hsaid : Said launch source mode marker directory (command.var_os inherited)) :
    Said launch source mode marker directory process.host.var_os := by
  constructor
  · rw [h.handed _ (by decide), hsaid.marker]
  · rw [h.handed _ (by decide), hsaid.inner]
  · rw [h.handed _ (by decide), hsaid.mode]
  · rw [h.handed _ (by decide), hsaid.stale]
  · rw [h.handed _ (by decide), hsaid.rustc]
  · rw [h.handed _ (by decide), hsaid.source]
  · rw [h.handed _ (by decide), hsaid.crate_name]
  · rw [h.handed _ (by decide), hsaid.manifest]
  · rw [h.handed _ (by decide), hsaid.package_root]

theorem marker_reserved (token : AnalysisToken) : is_analysis_marker (selected_target_marker token) = true := by
  rw [is_analysis_marker, List.isPrefixOf_iff_prefix]
  change text MARKER_PREFIX <+: text (MARKER_PREFIX ++ "\"" ++ token.value ++ "\"")
  rw [text_append, text_append, text_append, List.append_assoc, List.append_assoc]
  exact List.prefix_append _ _

theorem stale_not_own : ¬ Own attempt (attempt.join "stale") := by
  rintro (h | ⟨artifact, h⟩)
  · exact absurd (join_inj.mp h).2 (by decide)
  · exact snapshot_ne artifact (by decide) h.symm

/-- A wrapper touches nothing that its attempt keeps. -/
theorem write_outcome_own (host : Host) (hstale : host.var_os STALE_RECEIPT_ENV = some (.utf8 (directory.join "stale").text))
    (hresolve : host.resolve (directory.join "stale").text = attempt.join "stale") {path : Path} (h : Own attempt path) :
    write_outcome host (wrapper.run host.toSystem) tree path = tree path := by
  unfold write_outcome
  cases hwritten : (wrapper.run host.toSystem).written with
  | none => rfl
  | some written =>
    obtain ⟨name, bytes⟩ := written
    have hname := run_written hwritten
    change host.var_os STALE_RECEIPT_ENV = some name at hname
    obtain rfl := Option.some.inj (hstale.symm.trans hname)
    dsimp only
    rw [hresolve]
    exact Tree.set_other _ fun heq => stale_not_own (heq ▸ h)

variable [Ord FileId]

/-- The inner driver runs for the selected target, with the arguments that Cargo gave it without the marker. -/
structure Started.Analyzes (process : Started FileId) (marker : String) (tree : Tree) (system : driver.analysis.System)
    (result : UInt8 × Tree) : Prop where
  selected : Selected process.host.toSystem "collect" (.utf8 marker) (process.host.args_os.drop 1)
  args_os : system.args_os.drop 1 = (process.host.args_os.drop 1).erase (.utf8 marker)
  var_os : ∀ name, name ≠ DRIVER_INNER_ENV → system.var_os name = process.host.var_os name
  resolve : system.resolve = process.host.resolve
  run : ∃ schedule exit last, driver.analysis.run process.executable.rustc process.executable.commit system { tree, schedule } =
    (exit, last) ∧ result = (exit.code, last.tree)

theorem main_printed {executable : Executable FileId} {host : Host} {world : World}
    (h : host.args_os.drop 1 = [.utf8 rustc_driver.DRIVER_KEY_ARGUMENT]) :
    main executable host world = (.Printed executable.key, world) := by
  rw [main, if_pos h]

theorem main_analyzed {executable : Executable FileId} {host : Host} {world : World}
    (hkey : host.args_os.drop 1 ≠ [.utf8 rustc_driver.DRIVER_KEY_ARGUMENT]) (h : (host.var_os DRIVER_INNER_ENV).isSome = true) :
    main executable host world =
      (.Analyzed (driver.analysis.run executable.rustc executable.commit host.analysis world).1,
        (driver.analysis.run executable.rustc executable.commit host.analysis world).2) := by
  rw [main, if_neg hkey, if_pos h]

theorem main_wrapped {executable : Executable FileId} {host : Host} {world : World}
    (hkey : host.args_os.drop 1 ≠ [.utf8 rustc_driver.DRIVER_KEY_ARGUMENT]) (h : host.var_os DRIVER_INNER_ENV = none) :
    main executable host world = (.Wrapped (wrapper.run host.toSystem),
      { world with tree := write_outcome host (wrapper.run host.toSystem) world.tree }) := by
  rw [main, if_neg hkey, h]
  rfl

/-- A compiler that is forwarded to leaves alone what the attempt keeps, also where it is the driver's executable. -/
theorem Started.restart_own (hbelongs : process.Belongs command inherited attempt directory) {marker : String}
    (hsaid : Said launch source mode marker directory process.host.var_os) {program : OsString} {rest : List OsString}
    {world : World} {path : Path} (hpath : Own attempt path) :
    (process.restart { program, args := rest } world).2 path = world.tree path := by
  by_cases hkey : (process.host.replaced { program, args := rest }).args_os.drop 1 = [.utf8 rustc_driver.DRIVER_KEY_ARGUMENT]
  · rw [restart, main_printed hkey]
  · rw [restart, main_wrapped hkey hsaid.inner]
    have hkept : write_outcome (process.host.replaced { program, args := rest })
        (wrapper.run (process.host.replaced { program, args := rest }).toSystem) world.tree path = world.tree path :=
      write_outcome_own (process.host.replaced { program, args := rest }) hsaid.stale hbelongs.stale hpath
    cases houtcome : wrapper.run (process.host.replaced { program, args := rest }).toSystem with
    | Exited code report written =>
      rw [houtcome] at hkept
      exact hkept
    | Replaced replacement => exact hbelongs.other replacement world.tree path hpath

theorem selected_erase {system : wrapper.System} {marker : OsString} {before after : List OsString}
    (h : Selected system "collect" marker (before ++ marker :: after)) :
    (system.args_os.drop 1).erase marker = before ++ after := by
  have hbefore : marker ∉ before := by
    intro hmem
    have honly := h.verified.only_marker
    rw [List.filter_append, List.filter_cons_of_pos h.marked.2] at honly
    have hlength := congrArg List.length honly
    have hpositive := List.length_pos_of_mem (List.mem_filter.mpr ⟨hmem, h.marked.2⟩)
    rw [List.length_append, List.length_cons, List.length_singleton] at hlength
    omega
  rw [← h.passed, List.erase_append_right _ hbefore, List.erase_cons_head]

/-- What a collection replaces the wrapper with. -/
abbrev inner (executable : OsString) (arguments : List OsString) : wrapper.Command :=
  { program := executable, args := arguments, env := [(DRIVER_INNER_ENV, "1")] }

/-- The driver's executable drives rustc for the selected target, unless it is asked for its key. -/
theorem Started.restart_analyzes {marker : String} {before after : List OsString} {executable : OsString}
    (hselected : Selected process.host.toSystem "collect" (.utf8 marker) (before ++ .utf8 marker :: after)) {world : World}
    (htree : world.tree = tree) (hsink : world.sink = {}) :
    (∀ path, Own attempt path → (process.restart (inner executable (before ++ after)) world).2 path = tree path) ∨
      ∃ system, process.Analyzes marker tree system (process.restart (inner executable (before ++ after)) world) := by
  by_cases hkey : (process.host.replaced (inner executable (before ++ after))).args_os.drop 1 =
      [.utf8 rustc_driver.DRIVER_KEY_ARGUMENT]
  · rw [restart, main_printed hkey]
    exact .inl fun path _ => congrFun htree path
  · rw [restart, main_analyzed hkey rfl]
    refine .inr ⟨(process.host.replaced (inner executable (before ++ after))).analysis, hselected.passed ▸ hselected,
      (selected_erase hselected).symm, fun name hname => ?_, rfl, world.schedule, _, _, ?_, rfl⟩
    · change ([(DRIVER_INNER_ENV, ("1" : OsString))].lookup name).or _ = _
      rw [List.lookup_cons, beq_eq_false_iff_ne.mpr hname]
      rfl
    · rw [← htree, ← hsink]

/-- A process leaves what its attempt keeps as it is, or it is the selected one and drives rustc. -/
theorem Started.run_cases (hbelongs : process.Belongs command inherited attempt directory)
    (hsaid : Said launch source mode (selected_target_marker token) directory process.host.var_os) (tree : Tree) :
    (∀ path, Own attempt path → (process.run tree).2 path = tree path) ∨
      ∃ system, process.Analyzes (selected_target_marker token) tree system (process.run tree) := by
  have hreserved (marker : OsString) (h : process.host.var_os SELECTED_TARGET_MARKER_ENV = some marker) :
      is_analysis_marker marker = true := by
    rw [← Option.some.inj (hsaid.marker.symm.trans h)]
    exact marker_reserved token
  have hkept (path : Path) (hpath : Own attempt path) :
      write_outcome process.host (wrapper.run process.host.toSystem) tree path = tree path :=
    write_outcome_own process.host hsaid.stale hbelongs.stale hpath
  by_cases hkey : process.host.args_os.drop 1 = [.utf8 rustc_driver.DRIVER_KEY_ARGUMENT]
  · rw [run, main_printed hkey]
    exact .inl fun _ _ => rfl
  · rw [run, main_wrapped hkey hsaid.inner]
    obtain ⟨route, htaken⟩ := wrapper.run_taken hreserved
    cases houtcome : wrapper.run process.host.toSystem with
    | Exited code report written =>
      rw [houtcome] at hkept
      exact .inl hkept
    | Replaced replacement =>
      rw [houtcome] at htaken
      simp only
      split
      · cases route with
        | Forwarded =>
          obtain ⟨program, rest, -, -, heq⟩ := htaken
          cases heq
          exact .inl fun path hpath => restart_own hbelongs hsaid hpath
        | Collected =>
          obtain ⟨marker, before, after, executable, hselected, -, heq⟩ := htaken
          cases heq
          obtain rfl := Option.some.inj (hselected.set_marker.symm.trans hsaid.marker)
          exact restart_analyzes hselected rfl rfl
        | Probed =>
          obtain ⟨_, _, _, _, _, hstarted, -⟩ := htaken
          cases hstarted
        | Rejected =>
          obtain ⟨_, _, _, heq, -⟩ := htaken
          cases heq
      · exact .inl fun path hpath => hbelongs.other replacement tree path hpath

/-- The manifest of an attempt is what rustc answered for the selected target, with the arguments that Cargo gave it. -/
structure Delivered (process : Started FileId) (launch : Launch M) (token : AnalysisToken) (attempt : Path) (tree : Tree) :
    Prop where
  selected : Selected process.host.toSystem "collect" (.utf8 (selected_target_marker token)) (process.host.args_os.drop 1)
  published : ∃ arguments session observed stream,
    arguments.map OsString.utf8 = (process.host.args_os.drop 1).erase (.utf8 (selected_target_marker token)) ∧
      driver.analysis.Published process.executable.rustc process.executable.commit arguments launch.package_root attempt tree
        (selected_target_marker token) session observed stream

theorem Delivered.of_own (h : Delivered process launch token attempt tree) {tree' : Tree}
    (hown : ∀ path, Own attempt path → tree' path = tree path) : Delivered process launch token attempt tree' := by
  obtain ⟨arguments, session, observed, stream, harguments, hpublished⟩ := h.published
  obtain ⟨sources, w, w', hcollect, hsnapshots⟩ := hpublished.collected
  exact ⟨h.selected, arguments, session, observed, stream, harguments, hpublished.reached,
    (hown _ (.inl rfl)).trans hpublished.manifest, sources, w, w', hcollect,
    fun artifact => (hown _ (.inr ⟨artifact, rfl⟩)).trans (hsnapshots artifact)⟩

theorem map_utf8 {arguments : List OsString} : ∀ {names : List String}, arguments.mapM OsString.into_string = some names →
    names.map OsString.utf8 = arguments := by
  induction arguments with
  | nil =>
    intro names h
    cases h
    rfl
  | cons argument arguments ih =>
    intro names h
    simp only [List.mapM_cons, Option.bind_eq_bind, Option.bind_eq_some_iff, Option.pure_def, Option.some.injEq] at h
    obtain ⟨name, hname, rest, hrest, rfl⟩ := h
    rw [List.map_cons, ih hrest, OsString.into_string_eq_some.mp hname]

theorem prepare_invocation_arguments {system : driver.analysis.System} {invocation : driver.analysis.DriverInvocation}
    (h : driver.analysis.prepare_invocation system = .ok invocation) :
    invocation.arguments.map OsString.utf8 = system.args_os.drop 1 ∧
      system.var_os PACKAGE_ROOT_ENV = some invocation.package_root := by
  simp only [driver.analysis.prepare_invocation, bind_eq_ok_iff, ok_or_eq_ok_iff, pure_eq_ok, Except.ok.injEq] at h
  obtain ⟨arguments, harguments, _, -, path, -, root, hroot, rfl⟩ := h
  exact ⟨map_utf8 harguments, hroot⟩

/-- A process leaves the manifest as it is, or it delivers a new one. -/
theorem Started.run_delivers (hbelongs : process.Belongs command inherited attempt directory)
    (hsaid : Said launch source mode (selected_target_marker token) directory process.host.var_os) (tree : Tree) :
    (process.run tree).2 (attempt.join "manifest") = tree (attempt.join "manifest") ∨
      Delivered process launch token attempt (process.run tree).2 := by
  rcases process.run_cases hbelongs hsaid tree with hkept | ⟨system, hanalyzes⟩
  · exact .inl (hkept _ (.inl rfl))
  · obtain ⟨schedule, exit, last, hrun, hresult⟩ := hanalyzes.run
    rw [hresult]
    have hpath (path : OsString) (h : system.var_os MANIFEST_PATH_ENV = some path) : system.resolve path = attempt.join "manifest" := by
      rw [hanalyzes.var_os _ (by decide), hsaid.manifest, Option.some.injEq] at h
      rw [← h, hanalyzes.resolve, hbelongs.manifest]
    cases driver.analysis.run_ends hpath hbelongs.rustc hrun with
    | published hcode hinvocation hmarker hpublished =>
      obtain ⟨harguments, hroot⟩ := prepare_invocation_arguments hinvocation
      rw [hanalyzes.var_os _ (by decide), hsaid.package_root, Option.some.injEq] at hroot
      rw [hanalyzes.var_os _ (by decide), hsaid.marker, Option.some.injEq, OsString.utf8.injEq] at hmarker
      rw [← hroot, ← hmarker] at hpublished
      exact .inr ⟨hanalyzes.selected, _, _, _, _, harguments.trans hanalyzes.args_os, hpublished⟩
    | unanalyzed hcode hreason hkept => exact .inl hkept
    | failed hcode hkept => exact .inl hkept

/-- Whether Cargo gave a process the marker of an attempt. -/
def marked (token : AnalysisToken) (process : Started FileId) : Bool :=
  (process.host.args_os.drop 1).contains (.utf8 (selected_target_marker token))

/-- A process without the marker leaves what its attempt keeps as it is. -/
theorem Started.run_unmarked (hbelongs : process.Belongs command inherited attempt directory)
    (hsaid : Said launch source mode (selected_target_marker token) directory process.host.var_os)
    (hmarked : marked token process = false) (tree : Tree) (path : Path) (hpath : Own attempt path) :
    (process.run tree).2 path = tree path := by
  rcases process.run_cases hbelongs hsaid tree with hkept | ⟨system, hanalyzes⟩
  · exact hkept path hpath
  · have hmem : OsString.utf8 (selected_target_marker token) ∈ process.host.args_os.drop 1 := by
      refine List.mem_of_mem_filter (p := is_analysis_marker) ?_
      rw [hanalyzes.selected.verified.only_marker]
      exact List.mem_singleton_self _
    rw [marked, List.contains_iff_mem.mpr hmem] at hmarked
    cases hmarked

section

variable {processes : List (Started FileId)}
  (hbelongs : ∀ process ∈ processes, process.Belongs command inherited attempt directory)
  (hsaid : Said launch source mode (selected_target_marker token) directory (command.var_os inherited))

include hbelongs hsaid

theorem build_unmarked (hmarked : ∀ process ∈ processes, marked token process = false) (tree : Tree) (path : Path)
    (hpath : Own attempt path) : build processes tree path = tree path := by
  induction processes generalizing tree with
  | nil => rfl
  | cons process processes ih =>
    rw [List.forall_mem_cons] at hbelongs hmarked
    have hfirst := process.run_unmarked hbelongs.1 (hbelongs.1.said hsaid) hmarked.1 tree path hpath
    exact (ih hbelongs.2 hmarked.2 (process.run tree).2).trans hfirst

/-- In a build that gives one process the marker at most, the manifest is as it was, or it is the whole stream of that process. -/
theorem build_delivers (honce : (processes.filter (marked token)).length ≤ 1) (tree : Tree) :
    build processes tree (attempt.join "manifest") = tree (attempt.join "manifest") ∨
      ∃ process ∈ processes, mode = "collect" ∧ Delivered process launch token attempt (build processes tree) := by
  induction processes generalizing tree with
  | nil => exact .inl rfl
  | cons process processes ih =>
    rw [List.forall_mem_cons] at hbelongs
    cases hmarked : marked token process with
    | false =>
      rw [List.filter_cons_of_neg (by rw [hmarked]; exact Bool.false_ne_true)] at honce
      have hkept := process.run_unmarked hbelongs.1 (hbelongs.1.said hsaid) hmarked tree _ (.inl rfl)
      rcases ih hbelongs.2 honce (process.run tree).2 with hsame | ⟨later, hlater, hdelivered⟩
      · exact .inl (hsame.trans hkept)
      · exact .inr ⟨later, List.mem_cons_of_mem _ hlater, hdelivered⟩
    | true =>
      rw [List.filter_cons_of_pos hmarked, List.length_cons] at honce
      have hnone : processes.filter (marked token) = [] := List.length_eq_zero_iff.mp (by omega)
      have hothers := build_unmarked hbelongs.2 hsaid (fun later hlater => by
        rw [← Bool.not_eq_true]
        exact List.filter_eq_nil_iff.mp hnone later hlater) (process.run tree).2
      rcases process.run_delivers hbelongs.1 (hbelongs.1.said hsaid) tree with hkept | hdelivered
      · exact .inl ((hothers _ (.inl rfl)).trans hkept)
      · refine .inr ⟨process, List.mem_cons_self, ?_, hdelivered.of_own hothers⟩
        have hmode := (hbelongs.1.said hsaid).mode.symm.trans hdelivered.selected.set_mode
        rwa [Option.some.injEq, OsString.utf8.injEq] at hmode

end

end

end optic.launch
