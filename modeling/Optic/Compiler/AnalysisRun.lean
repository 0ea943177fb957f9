import Optic.Compiler.AnalysisSpec
import Optic.Records.ManifestSpec

open rust optic.records optic.compiler optic.compiler.protocol file_system streams wire

namespace optic.driver

variable {directory : Path} {process after : Process}

/-- The file and the buffer hold a stream. -/
def Holds (directory : Path) (process : Process) (stream : List UInt8) : Prop :=
  ∃ written, process.world.tree (unfinished directory) = some (.file written) ∧ written ++ process.buffer = stream

theorem Holds.abreast {stream : List UInt8} (h : Holds directory process stream) :
    Abreast directory process { tree := process.world.tree } stream where
  written := h
  tree _ _ := rfl
  calm := rfl

theorem Holds.of_tree {stream : List UInt8} (h : Holds directory process stream)
    (htree : after.world.tree (unfinished directory) = process.world.tree (unfinished directory))
    (hbuffer : after.buffer = process.buffer) : Holds directory after stream := by
  rwa [Holds, htree, hbuffer]

theorem with_extension_manifest : (directory.join "manifest").with_extension "tmp" = unfinished directory := by
  have hlast : (directory.join ("manifest" : OsString)).getLast? = some ("manifest" : OsString) := List.getLast?_concat
  have hfront : (directory.join ("manifest" : OsString)).dropLast = directory := List.dropLast_concat
  have hname : ("manifest" : OsString).with_extension "tmp" = "manifest.tmp" := by decide
  rw [Path.with_extension, hlast]
  simp only [hname, hfront]
  rfl

theorem file_error {p : Action IoError Unit} (hp : ∀ w error w', p w = (.error error, w') → w'.tree = w.tree)
    {stop : Stop} (h : (file p).run process = .error stop after) : after.world.tree = process.world.tree := by
  change file p process = _ at h
  unfold file at h
  rcases hrun : p process.world with ⟨source | a, world⟩ <;> rw [hrun] at h <;> cases h
  exact hp _ _ _ hrun

theorem rename_error {source destination : Path} {w w' : World} {error : IoError}
    (h : rename source destination w = (.error error, w')) : w'.tree = w.tree := by
  unfold rename perform at h
  cases hverdict : w.verdict with
  | some failure =>
    rw [hverdict] at h
    cases h
    rfl
  | none =>
    rw [hverdict] at h
    simp only at h
    split at h
    · cases h
    · cases h
      rfl

namespace manifest.ManifestWriter

variable {self : ManifestWriter}

/-- A created manifest has the header of the marker that the process was given. -/
theorem create_ok {marker : Option OsString} (h : (create (directory.join "manifest") marker).run process = .ok self after)
    (hempty : process.buffer = []) :
    self = { path := directory.join "manifest", temporary_path := unfinished directory } ∧
    ∃ value, marker = some (.utf8 value) ∧ string.Valid value ∧ Holds directory after (header.spell value) := by
  unfold create at h
  rw [with_extension_manifest] at h
  obtain ⟨_, created, hcreate, h⟩ := bind_ok_iff.mp h
  obtain ⟨hcreated, hbuffer⟩ := file_ok hcreate
  have hfile : created.world.tree (unfinished directory) = some (.file []) := by
    rw [create_file_ok hcreated]
    exact Tree.set_same _ _ _
  have hholds : Holds directory created [] := ⟨[], hfile, by rw [hbuffer, hempty]; rfl⟩
  cases marker with
  | none => cases h
  | some marker =>
    cases marker with
    | other bytes invalid => cases h
    | utf8 value =>
      obtain ⟨_, checked, hcheck, h⟩ := bind_ok_iff.mp h
      obtain ⟨_, written, hwrite, h⟩ := bind_ok_iff.mp h
      cases h
      obtain ⟨hvalid, rfl⟩ := check_ok_iff.mp hcheck
      obtain ⟨w', stream, hspelled, habreast⟩ := (write_bytes_refines rfl _).abreast hwrite hholds.abreast
      cases hspelled
      exact ⟨rfl, value, rfl, of_decide_eq_true hvalid, habreast.written⟩

theorem create_within (marker : Option OsString) (process : Process) (path : Path) (h : ¬ Scratch directory path) :
    (state ((create (directory.join "manifest") marker).run process)).world.tree path = process.world.tree path := by
  unfold create
  rw [with_extension_manifest]
  refine within_bind (file_within (.create_file unfinished_scratch)) (fun _ _ => ?_) process path h
  cases marker with
  | none => exact fun _ _ _ => rfl
  | some marker =>
    cases marker with
    | other bytes invalid => exact fun _ _ _ => rfl
    | utf8 value =>
      refine within_bind check_beside.within fun _ _ => within_bind ?_ fun _ _ _ _ _ => rfl
      exact (write_bytes_refines rfl _).within

theorem drop_within (htemporary : self.temporary_path = unfinished directory) (process : Process) (path : Path)
    (h : ¬ Scratch directory path) : (self.drop process).tree path = process.world.tree path :=
  flush_within htemporary process path h

theorem finish_error (htemporary : self.temporary_path = unfinished directory) {stop : Stop}
    (h : self.finish.run process = .error stop after) (path : Path) (hpath : ¬ Scratch directory path) :
    after.world.tree path = process.world.tree path := by
  unfold finish at h
  rw [EStateM.run_bind] at h
  have hwrite := (write_u32_streams htemporary END_RECORD).within process path hpath
  cases hwritten : (self.write_u32 END_RECORD).run process with
  | error stop written =>
    rw [hwritten] at h hwrite
    cases h
    exact hwrite
  | ok _ written =>
    rw [hwritten] at h hwrite
    simp only [EStateM.run_bind] at h
    have hflush := flush_within htemporary written path hpath
    cases hflushed : self.flush.run written with
    | error stop flushed =>
      rw [hflushed] at h hflush
      cases h
      exact hflush.trans hwrite
    | ok _ flushed =>
      rw [hflushed] at h hflush
      have hrenamed := file_error (fun _ _ _ => rename_error) h
      rw [hrenamed]
      exact hflush.trans hwrite

/-- A finished manifest has the stream up to its end, and takes nothing with it. -/
theorem finish_ok (hself : self = { path := directory.join "manifest", temporary_path := unfinished directory })
    {stream : List UInt8} (h : self.finish.run process = .ok () after) (hholds : Holds directory process stream) :
    after.world.tree (directory.join "manifest") = some (.file (stream ++ le_bytes 4 END_RECORD.toNat)) ∧
    ∀ artifact, after.world.tree (directory.join (snapshot_name artifact)) =
      process.world.tree (directory.join (snapshot_name artifact)) := by
  subst hself
  unfold finish at h
  obtain ⟨_, written, hwrite, h⟩ := bind_ok_iff.mp h
  obtain ⟨_, flushed, hflush, h⟩ := bind_ok_iff.mp h
  obtain ⟨w1, stream1, hspelled, habreast1⟩ := (write_u32_streams rfl END_RECORD).abreast hwrite hholds.abreast
  cases hspelled
  obtain ⟨habreast2, hempty⟩ := flush_ok rfl hflush habreast1
  obtain ⟨hrename, -⟩ := file_ok h
  have hmoved : after.world.tree = flushed.world.tree.move (unfinished directory) (directory.join "manifest") :=
    (rename_ok hrename).2.2
  obtain ⟨bytes, hfile, hbytes⟩ := habreast2.written
  rw [hempty, List.append_nil] at hbytes
  constructor
  · have hbelow : flushed.world.tree.move (unfinished directory) (directory.join "manifest") (directory.join "manifest" ++ []) =
        flushed.world.tree (unfinished directory ++ []) := Tree.move_below []
    rw [List.append_nil, List.append_nil] at hbelow
    rw [hmoved, hbelow, hfile, hbytes]
  · intro artifact
    have hapart {name : String} (hname : name.toList.head? ≠ some 'a') :
        ¬ directory.join name <+: directory.join (snapshot_name artifact) := by
      intro hfront
      refine snapshot_ne artifact hname (hfront.eq_of_length ?_).symm
      simp [Path.join]
    have hmanifest : ¬ directory.join "manifest" <+: directory.join (snapshot_name artifact) := hapart (by decide)
    have hunfinished : ¬ unfinished directory <+: directory.join (snapshot_name artifact) := hapart (by decide)
    rw [hmoved, Tree.move_apart hmanifest hunfinished]
    exact (habreast2.tree _ (snapshot_ne artifact (by decide))).symm

end manifest.ManifestWriter

/-- The options that a compilation goes on with. -/
def Options.retaining (self : Options) (unsupported : UInt32) (directory : Path) : Options :=
  if unsupported = LLVM_SUPPORTED then { self with save_temps := true, temps_dir := directory.to_str } else self

/-- What a configuration changes, and what it returns if it succeeds. -/
theorem configure_run (commit : String) (options : Options) (path : Path) (process : Process) :
    ((configure commit options path).run process).2.buffer = process.buffer ∧
    (∀ other, other ≠ path → ((configure commit options path).run process).2.world.tree other = process.world.tree other) ∧
    ∀ unsupported, ((configure commit options path).run process).1.1 = .ok unsupported →
      ∃ target, options.target = .ok target ∧ unsupported = options.unsupported commit target ∧
        ((configure commit options path).run process).1.2 = options.retaining unsupported path := by
  unfold configure
  cases htarget : options.target with
  | error source => exact ⟨rfl, fun _ _ => rfl, nofun⟩
  | ok target =>
    dsimp only
    by_cases hsupported : options.unsupported commit target = LLVM_SUPPORTED
    · rw [if_pos hsupported]
      have hwithin (other : Path) (hother : other ≠ path) :=
        Within.create (s := fun other => other = path) .dir rfl process.world other hother
      rcases hcreate : create_dir path process.world with ⟨source | _, world⟩
      · have hattempt := attempt_error (file_of_error hcreate)
        simp only [create_dir] at hcreate
        rw [hcreate] at hwithin
        simp only [StateT.run_bind, hattempt]
        exact ⟨rfl, hwithin, nofun⟩
      · have hattempt := attempt_ok (file_of_ok hcreate)
        simp only [create_dir] at hcreate
        rw [hcreate] at hwithin
        simp only [StateT.run_bind, hattempt]
        cases htext : path.to_str with
        | none => exact ⟨rfl, hwithin, nofun⟩
        | some temps_dir =>
          refine ⟨rfl, hwithin, fun unsupported h => ⟨target, rfl, ?_, ?_⟩⟩
          · cases h
            rfl
          · cases h
            rw [Options.retaining, if_pos hsupported, htext, ← htarget]
            rfl
    · rw [if_neg hsupported]
      refine ⟨rfl, fun _ _ => rfl, fun unsupported h => ⟨target, rfl, ?_, ?_⟩⟩
      · cases h
        rfl
      · cases h
        exact (if_neg hsupported).symm

/-- The driver reports LLVM as supported only with settings that the collector materializes modules for. -/
structure Configuration.Supported (configuration : Configuration) (commit : String) : Prop where
  commit : commit = VERIFIED_COMMIT
  backend : configuration.backend = "llvm"
  incremental : configuration.incremental = false
  linker_plugin : configuration.linker_plugin = false
  extension : configuration.extension.isSome = true
  stage : ((lto_mode configuration.lto).stage).isSome = true

theorem of_ite_eq {α : Type} {c : Prop} [Decidable c] {a b d : α} (h : (if c then a else b) = d) (ha : a ≠ d) : ¬ c ∧ b = d := by
  by_cases hc : c
  · rw [if_pos hc] at h
    exact absurd h ha
  · rw [if_neg hc] at h
    exact ⟨hc, h⟩

theorem Options.supported {options : Options} {commit : String} {target : Target}
    (h : options.unsupported commit target = LLVM_SUPPORTED) :
    commit = VERIFIED_COMMIT ∧ options.incremental = none ∧ options.linker_plugin_lto = false := by
  obtain ⟨hcommit, h⟩ := of_ite_eq h (by decide)
  obtain ⟨-, h⟩ := of_ite_eq h (by decide)
  obtain ⟨hincremental, h⟩ := of_ite_eq h (by decide)
  obtain ⟨hplugin, -⟩ := of_ite_eq h (by decide)
  exact ⟨not_not.mp hcommit, Option.not_isSome_iff_eq_none.mp hincremental, eq_false_of_ne_true hplugin⟩

variable {FileId : Type}

namespace analysis

/-- rustc leaves alone what the driver writes in its attempt, other than what is retained of LLVM. -/
def Rustc.Spares (self : Rustc FileId) (directory : Path) : Prop :=
  ∀ arguments options compilation tree path,
    path = directory.join "manifest" ∨ path = unfinished directory ∨
      (∃ artifact, path = directory.join (snapshot_name artifact)) →
    (self.finish arguments options compilation tree).2 path = tree path

/-- rustc gets through its analysis, with settings that were observed. -/
def Reached (rustc : Rustc FileId) (commit : String) (directory : Path) (arguments : List String) (session : Session FileId)
    (observed : Configuration) : Prop :=
  ∃ options target, rustc.config arguments = .ok options ∧ options.target = .ok target ∧
    rustc.session arguments (options.retaining (options.unsupported commit target) (directory.join "llvm")) = some session ∧
    Configuration.observed (options.retaining (options.unsupported commit target) (directory.join "llvm")) session
      (options.unsupported commit target) = .ok observed

variable {rustc : Rustc FileId} {commit : String} {package_root : OsString} {arguments : List String}
  {manifest : manifest.ManifestWriter}

theorem Reached.supported {session : Session FileId} {observed : Configuration}
    (h : Reached rustc commit directory arguments session observed) (hsupported : observed.unsupported = LLVM_SUPPORTED) :
    observed.Supported commit := by
  obtain ⟨options, target, -, -, -, hobserved⟩ := h
  simp only [Configuration.observed, bind_eq_ok_iff, ensure_eq_ok_iff, pure_eq_ok, Except.ok.injEq] at hobserved
  obtain ⟨_, hchecked, _, -, rfl⟩ := hobserved
  simp only at hsupported
  obtain ⟨hcommit, hincremental, hplugin⟩ := Options.supported hsupported
  have hretaining : (options.retaining (options.unsupported commit target) (directory.join "llvm")).incremental = none ∧
      (options.retaining (options.unsupported commit target) (directory.join "llvm")).linker_plugin_lto = false := by
    rw [Options.retaining, if_pos hsupported]
    exact ⟨hincremental, hplugin⟩
  simp only [hsupported, decide_true, Bool.true_and, Bool.not_eq_true', Bool.or_eq_false_iff, decide_eq_false_iff_not, ne_eq,
    not_not, Bool.not_eq_false'] at hchecked
  obtain ⟨hbackend, hlto⟩ := hchecked
  have hlto : session.lto = .No ∨ session.lto = .ThinLocal := by simpa using hlto
  refine ⟨hcommit, hbackend, ?_, hretaining.2, ?_, ?_⟩
  · simp only [hretaining.1, Option.isSome_none]
  · rw [Configuration.extension, if_pos hsupported]
    rcases hlto with hlto | hlto <;> simp only [hlto] <;> rfl
  · rcases hlto with hlto | hlto <;> simp only [hlto] <;> rfl

variable [Ord FileId]

theorem llvm_not_spared {path : Path} (h : path = directory.join "manifest" ∨ path = unfinished directory ∨
    (∃ artifact, path = directory.join (snapshot_name artifact))) : path ≠ directory.join "llvm" := by
  rcases h with rfl | rfl | ⟨artifact, rfl⟩
  · exact fun h => absurd (join_inj.mp h).2 (by decide)
  · exact fun h => absurd (join_inj.mp h).2 (by decide)
  · exact snapshot_ne artifact (by decide)

/-- The manifest is not in sight while rustc runs. -/
theorem run_compiler_manifest (htemporary : manifest.temporary_path = unfinished directory) (hspares : rustc.Spares directory)
    (process : Process) :
    ((run_compiler manifest rustc commit directory package_root arguments).run process).2.world.tree (directory.join "manifest") =
      process.world.tree (directory.join "manifest") := by
  unfold run_compiler
  cases rustc.config arguments with
  | error code => rfl
  | ok options =>
    have hconfigured := (configure_run commit options (directory.join "llvm") process).2.1 (directory.join "manifest")
      (llvm_not_spared (.inl rfl))
    rcases hconfigure : (configure commit options (directory.join "llvm")).run process with ⟨⟨configuration, retained⟩, mid⟩
    rw [hconfigure] at hconfigured
    simp only [stateM_bind, hconfigure]
    cases hsession : rustc.session arguments retained with
    | none => exact (hspares _ _ _ _ _ (.inl rfl)).trans hconfigured
    | some session =>
      have hcollected : (state ((collect manifest directory package_root configuration retained session).run mid)).world.tree _ = _ :=
        collect_within htemporary configuration retained session mid (directory.join "manifest") manifest_not_scratch
      simp only [stateM_bind, attempt_run]
      refine (hspares _ _ _ _ _ (.inl rfl)).trans ?_
      cases hcollect : (collect manifest directory package_root configuration retained session).run mid with
      | ok _ last =>
        rw [hcollect] at hcollected
        exact hcollected.trans hconfigured
      | error stop last =>
        rw [hcollect] at hcollected
        exact hcollected.trans hconfigured

/-- A compilation whose analysis got through has written what rustc answered. -/
theorem run_compiler_ok (hmanifest : manifest.temporary_path = unfinished directory) (hspares : rustc.Spares directory)
    {code : UInt8} (h : (run_compiler manifest rustc commit directory package_root arguments).run process =
      ((code, some (.ok ())), after)) {stream : List UInt8} (hholds : Holds directory process stream) :
    ∃ session observed sources stream' w w', Reached rustc commit directory arguments session observed ∧
      body session.lookup_source_file observed session.partitions (.new directory package_root) stream w =
        (.ok (sources, stream'), w') ∧ Holds directory after stream' ∧
      ∀ artifact, after.world.tree (directory.join (snapshot_name artifact)) =
        w'.tree (directory.join (snapshot_name artifact)) := by
  unfold run_compiler at h
  cases hconfig : rustc.config arguments with
  | error code' =>
    rw [hconfig] at h
    cases h
  | ok options =>
    obtain ⟨hbuffer, hothers, hretained⟩ := configure_run commit options (directory.join "llvm") process
    rcases hconfigure : (configure commit options (directory.join "llvm")).run process with ⟨⟨configuration, retained⟩, mid⟩
    rw [hconfigure] at hbuffer hothers hretained
    simp only [hconfig, stateM_bind, hconfigure] at h
    have hmid : Holds directory mid stream := hholds.of_tree (hothers _ (llvm_not_spared (.inr (.inl rfl)))) hbuffer
    cases hsession : rustc.session arguments retained with
    | none =>
      rw [hsession] at h
      cases h
    | some session =>
      simp only [hsession, stateM_bind] at h
      cases hcollect : (collect manifest directory package_root configuration retained session).run mid with
      | error stop last =>
        simp only [attempt_error hcollect] at h
        cases h
      | ok _ last =>
        simp only [attempt_ok hcollect] at h
        obtain ⟨unsupported, observed, sources, stream', w', hconfiguration, hobserved, hbody, habreast⟩ :=
          collect_ok hmanifest hcollect hmid.abreast
        obtain ⟨target, htarget, hunsupported, hoptions⟩ := hretained unsupported hconfiguration
        simp only at hoptions
        rw [hunsupported] at hoptions hobserved
        rw [hoptions] at hsession hobserved
        obtain ⟨-, rfl⟩ := Prod.mk.inj h
        have hfinished {path : Path} (hpath : path = unfinished directory ∨ ∃ artifact, path = directory.join (snapshot_name artifact)) :=
          hspares arguments retained (some .Continue) last.world.tree path (.inr hpath)
        refine ⟨session, observed, sources, stream', _, w', ⟨options, target, hconfig, htarget, hsession, hobserved⟩, hbody, ?_, ?_⟩
        · obtain ⟨written, hfile, hstream⟩ := habreast.written
          exact ⟨written, (hfinished (.inl rfl)).trans hfile, hstream⟩
        · intro artifact
          exact (hfinished (.inr ⟨artifact, rfl⟩)).trans (habreast.tree _ (snapshot_ne artifact (by decide))).symm

/-- The manifest of an attempt is the whole stream of an analysis, and the snapshots are those of the stream. -/
structure Published (rustc : Rustc FileId) (commit : String) (arguments : List String) (package_root : OsString)
    (directory : Path) (tree : Tree) (marker : String) (session : Session FileId) (observed : Configuration)
    (stream : List UInt8) : Prop where
  reached : Reached rustc commit directory arguments session observed
  manifest : tree (directory.join "manifest") = some (.file stream)
  collected : ∃ sources w w', driver.collect session.lookup_source_file marker observed session.partitions
      (.new directory package_root) w = (.ok (sources, stream), w') ∧
    ∀ artifact, tree (directory.join (snapshot_name artifact)) = w'.tree (directory.join (snapshot_name artifact))

/-- How a run of the inner driver ends: it publishes a manifest, rustc has nothing to analyze, or it fails. -/
inductive Ends (rustc : Rustc FileId) (commit : String) (system : System) (directory : Path) (before : Tree) (exit : Exit)
    (tree : Tree) : Prop
  | published {invocation : DriverInvocation} {marker : String} {session : Session FileId} {observed : Configuration}
      {stream : List UInt8} (hcode : exit.code = wrapper.SUCCESS) (hinvocation : prepare_invocation system = .ok invocation)
      (hmarker : system.var_os SELECTED_TARGET_MARKER_ENV = some (.utf8 marker))
      (h : Published rustc commit invocation.arguments invocation.package_root directory tree marker session observed stream)
  | unanalyzed {arguments : List String} (hcode : exit.code = wrapper.SUCCESS)
      (h : rustc.config arguments = .error wrapper.SUCCESS ∨ ∃ options, rustc.session arguments options = none)
      (hkept : tree (directory.join "manifest") = before (directory.join "manifest"))
  | failed (hcode : exit.code ≠ wrapper.SUCCESS) (hkept : tree (directory.join "manifest") = before (directory.join "manifest"))

/-- The stream of a collection is its header, what is written behind that, and the end. -/
theorem collect_eq {lookup_source_file : UInt32 → SourceFile FileId} {marker : String} {observed : Configuration}
    {codegen_units : List CodegenUnit} {sources next : Snapshots FileId} {stream : List UInt8} {w w' : World}
    (hmarker : string.Valid marker)
    (h : body lookup_source_file observed codegen_units sources (header.spell marker) w = (.ok (next, stream), w')) :
    driver.collect lookup_source_file marker observed codegen_units sources w =
      (.ok (next, stream ++ le_bytes 4 END_RECORD.toNat), w') := by
  obtain ⟨configured, w1, hconfigured, hunits⟩ := Action.bind_eq_ok_iff.mp h
  have hheader : write (driver.ManifestWriter.write_header marker) [] w = (.ok (header.spell marker), w) :=
    write_eq_ok_iff.mpr ⟨driver.ManifestWriter.run_write_header_iff.mpr ⟨hmarker, rfl⟩, rfl⟩
  refine Action.bind_eq_ok_iff.mpr ⟨_, w, hheader, Action.bind_eq_ok_iff.mpr ⟨configured, w1, hconfigured, ?_⟩⟩
  refine Action.bind_eq_ok_iff.mpr ⟨(next, stream), w', hunits, Action.bind_eq_ok_iff.mpr ⟨_, w', ?_, rfl⟩⟩
  exact write_eq_ok_iff.mpr ⟨rfl, rfl⟩

theorem prepare_invocation_path {system : System} {invocation : DriverInvocation}
    (h : prepare_invocation system = .ok invocation) : system.var_os MANIFEST_PATH_ENV = some invocation.manifest_path := by
  simp only [prepare_invocation, bind_eq_ok_iff, ok_or_eq_ok_iff, pure_eq_ok, Except.ok.injEq] at h
  obtain ⟨_, -, _, -, path, hpath, _, -, rfl⟩ := h
  exact hpath

theorem failure_code (report : Report) : (failure report).code ≠ wrapper.SUCCESS := by
  change wrapper.FAILURE ≠ wrapper.SUCCESS
  decide

theorem panic_code {report : Option Report} : (⟨wrapper.PANIC, report⟩ : Exit).code ≠ wrapper.SUCCESS := by
  change wrapper.PANIC ≠ wrapper.SUCCESS
  decide

theorem run_compiler_none {code : UInt8} (h : (run_compiler manifest rustc commit directory package_root arguments).run process =
    ((code, none), after)) : rustc.config arguments = .error code ∨ ∃ options, rustc.session arguments options = none := by
  unfold run_compiler at h
  cases hconfig : rustc.config arguments with
  | error code' =>
    rw [hconfig] at h
    cases h
    exact .inl rfl
  | ok options =>
    rcases hconfigure : (configure commit options (directory.join "llvm")).run process with ⟨⟨configuration, retained⟩, mid⟩
    simp only [hconfig, stateM_bind, hconfigure] at h
    cases hsession : rustc.session arguments retained with
    | none => exact .inr ⟨retained, hsession⟩
    | some session =>
      simp only [hsession, stateM_bind] at h
      cases h

/-- Whatever fails, and wherever: the manifest is untouched, or it is the whole stream of an analysis that got through. -/
theorem run_ends {system : System} {exit : Exit} {world last : World} (hpath : ∀ path, system.var_os MANIFEST_PATH_ENV = some path →
      system.resolve path = directory.join "manifest") (hspares : rustc.Spares directory)
    (h : run rustc commit system world = (exit, last)) : Ends rustc commit system directory world.tree exit last.tree := by
  unfold run at h
  cases hinvocation : prepare_invocation system with
  | error message =>
    rw [hinvocation] at h
    cases h
    exact .failed (failure_code _) rfl
  | ok invocation =>
    have hmanifest := hpath _ (prepare_invocation_path hinvocation)
    have hparent : (directory.join ("manifest" : OsString)).dropLast = directory := List.dropLast_concat
    have hnonempty : directory.join ("manifest" : OsString) ≠ [] := List.concat_ne_nil _ _
    simp only [hinvocation, hmanifest, if_neg hnonempty, hparent] at h
    have hout : ¬ Scratch directory (directory.join "manifest") := manifest_not_scratch
    have hcreated := manifest.ManifestWriter.create_within (system.var_os SELECTED_TARGET_MARKER_ENV) { world } _ hout
    cases hcreate : (manifest.ManifestWriter.create (directory.join "manifest") (system.var_os SELECTED_TARGET_MARKER_ENV)).run { world } with
    | error stop process =>
      rw [hcreate] at h hcreated
      cases stop with
      | manifest reason =>
        cases reason with
        | panicked message =>
          cases h
          exact .failed panic_code hcreated
        | invalid_data message =>
          cases h
          exact .failed (failure_code _) hcreated
      | filesystem source =>
        cases h
        exact .failed (failure_code _) hcreated
      | overflow =>
        cases h
        exact .failed (failure_code _) hcreated
    | ok writer process =>
      rw [hcreate] at hcreated
      simp only [hcreate] at h
      obtain ⟨hwriter, marker, hmarker, hvalid, hholds⟩ := manifest.ManifestWriter.create_ok hcreate rfl
      have htemporary : writer.temporary_path = unfinished directory := by rw [hwriter]
      have hdropped (process : Process) := manifest.ManifestWriter.drop_within htemporary process _ hout
      have hcompiled : ((run_compiler writer rustc commit directory invocation.package_root invocation.arguments).run
          process).2.world.tree (directory.join "manifest") = _ := run_compiler_manifest htemporary hspares process
      rcases hcompile : (run_compiler writer rustc commit directory invocation.package_root invocation.arguments).run process
        with ⟨⟨code, result⟩, compiled⟩
      rw [hcompile] at hcompiled
      have hkept := hcompiled.trans hcreated
      simp only [hcompile] at h
      by_cases hcode : code = wrapper.SUCCESS
      · rw [if_neg (not_not.mpr hcode)] at h
        subst hcode
        cases result with
        | none =>
          cases h
          exact .unanalyzed rfl (run_compiler_none hcompile) ((hdropped compiled).trans hkept)
        | some result =>
          cases result with
          | error stop =>
            cases h
            exact .failed (failure_code _) ((hdropped compiled).trans hkept)
          | ok _ =>
            cases hfinish : writer.finish.run compiled with
            | error stop finished =>
              simp only [hfinish] at h
              cases h
              have hfinished := manifest.ManifestWriter.finish_error htemporary hfinish _ hout
              exact .failed (failure_code _) ((hdropped finished).trans (hfinished.trans hkept))
            | ok _ finished =>
              simp only [hfinish] at h
              cases h
              obtain ⟨session, observed, sources, stream, w, w', hreached, hbody, hcollected, hsnapshots⟩ :=
                run_compiler_ok htemporary hspares hcompile hholds
              obtain ⟨hpublished, hothers⟩ := manifest.ManifestWriter.finish_ok hwriter hfinish hcollected
              refine .published rfl hinvocation hmarker ⟨hreached, hpublished, sources, w, w', collect_eq hvalid hbody, ?_⟩
              exact fun artifact => (hothers artifact).trans (hsnapshots artifact)
      · rw [if_pos hcode] at h
        cases h
        exact .failed hcode ((hdropped compiled).trans hkept)

end analysis

end optic.driver
