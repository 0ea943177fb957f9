import Optic.Compiler.LaunchSpec
import Optic.Compiler.PreparationSpec
import Optic.Compiler.TellsSpec

open rust optic.records optic.compiler optic.compiler.protocol optic.driver file_system wire

namespace optic.compiler.collector

variable {system : System} {manifest : CompilerManifest} {compiler : CompilerIdentity} {directory : PathBuf}
  {files files' : Files} {evidence : CollectedEvidence}

/-- Modules are collected for a supported configuration, and for all that are expected. -/
theorem collect_collected (h : collect system manifest compiler directory files = .ok (evidence, files'))
    (hdistinct : (manifest.artifacts.map ArtifactRecord.id).Nodup) {modules : List LlvmModuleRecord}
    (hllvm : evidence.llvm = .Collected modules) : manifest.configuration.unsupported = none ∧
      modules.map LlvmModuleRecord.compiler_module = manifest.modules.map ExpectedModule.name := by
  simp only [collect, bind_eq_ok_iff, map_error_eq_ok_iff] at h
  obtain ⟨version, -, provenance, -, _, -, h⟩ := h
  cases hunsupported : manifest.configuration.unsupported with
  | some reason =>
    rw [hunsupported] at h
    cases h
    cases hllvm
  | none =>
    simp only [hunsupported, bind_eq_ok_iff, pure_eq_ok, Except.ok.injEq, Prod.mk.injEq] at h
    obtain ⟨result, hresult, rfl, -⟩ := h
    cases hllvm
    obtain ⟨-, -, -, stage, -, htables⟩ := collect_modules_tables hresult hdistinct
    exact ⟨rfl, htables.names⟩

/-- Evidence makes a durable manifest where its sources are declared and its placements are in its modules. -/
theorem collected_accepted {decoder : ManifestDecoder} (hread : decoder.read = .ok manifest)
    (hcollect : collect system manifest compiler directory files = .ok (evidence, files'))
    (hsources : SourcesDeclared manifest.artifacts manifest.instances)
    (hplacements : PlacementsCollected manifest.instances evidence.llvm) (capture_id : CaptureId) :
    ∃ durable, evidence.into_manifest capture_id = .ok durable := by
  obtain ⟨hkinds, hartifacts, hnames, hidentities⟩ := decoded_distinct hread
  obtain ⟨hinstances, hevidence⟩ := collect_materializes hcollect hartifacts
  rw [into_manifest_ok_iff, hevidence.validate_manifest hkinds hnames, unit_bind_eq_ok_iff, hinstances, validate_instances,
    each_distinct_key_eq_ok_iff, validate_placements_eq_ok_iff]
  refine ⟨⟨fun instance_ hinstance => ?_, hidentities⟩, hplacements⟩
  rw [validate_source_eq_ok_iff]
  exact fun source hsource => hevidence.declared_iff.mpr (hsources instance_ hinstance source hsource)

end optic.compiler.collector

namespace optic.driver

variable {FileId : Type}

/-- What the collector takes from a manifest that the driver has written is a durable manifest, of all modules if of any. -/
theorem Tells.accepted {lookup_source_file : UInt32 → SourceFile FileId} {package_root : OsString} {observed : Configuration}
    {codegen_units : List CodegenUnit} {tree : Tree} {attempt : Path} {manifest : CompilerManifest}
    (h : Tells lookup_source_file package_root observed codegen_units tree attempt manifest) {commit : String}
    (hsupported : observed.unsupported = LLVM_SUPPORTED → observed.Supported commit) {decoder : ManifestDecoder}
    (hread : decoder.read = .ok manifest) {system : collector.System} {compiler : CompilerIdentity} {directory : PathBuf}
    {files files' : collector.Files} {evidence : collector.CollectedEvidence}
    (hcollect : collector.collect system manifest compiler directory files = .ok (evidence, files')) :
    (∀ capture_id, ∃ durable, evidence.into_manifest capture_id = .ok durable) ∧
      evidence.instances = manifest.instances ∧
      ∀ modules, evidence.llvm = .Collected modules → observed.Supported commit ∧
        modules.map LlvmModuleRecord.compiler_module = codegen_units.map CodegenUnit.name := by
  obtain ⟨-, hartifacts, -, -⟩ := collector.decoded_distinct hread
  obtain ⟨hinstances, -⟩ := collector.collect_materializes hcollect hartifacts
  have hcollected (modules : List LlvmModuleRecord) (hllvm : evidence.llvm = .Collected modules) : observed.Supported commit ∧
      modules.map LlvmModuleRecord.compiler_module = codegen_units.map CodegenUnit.name := by
    obtain ⟨hunsupported, hnames⟩ := collector.collect_collected hcollect hartifacts hllvm
    have hsupported := hsupported ((supported_iff h.configuration).mp hunsupported)
    refine ⟨hsupported, hnames.trans ?_⟩
    have hmodules := h.modules
    rw [retained, if_pos hsupported.extension] at hmodules
    rw [← List.forall₂_eq_eq_eq, List.forall₂_map_left_iff, List.forall₂_map_right_iff]
    exact hmodules.flip.imp fun _ _ hexpects => hexpects.1
  refine ⟨collector.collected_accepted hread hcollect h.declared ?_, hinstances, hcollected⟩
  intro modules hllvm record hrecord placement hplacement
  obtain ⟨function, hfunction, hplaces⟩ := exists_of_mem_right (h.placements record hrecord) hplacement
  obtain ⟨codegen_unit, hunit, hitem⟩ := List.mem_flatMap.mp (List.mem_of_mem_filter hfunction)
  obtain ⟨item, -, hof⟩ := List.mem_filterMap.mp hitem
  rw [(hcollected modules hllvm).2, hplaces.codegen_unit, Function.codegen_unit_of hof]
  exact List.mem_map_of_mem hunit

end optic.driver

namespace optic.launch

variable {M : CargoSchema} {FileId : Type} [Ord FileId]

/-- A build of an attempt: its processes run below the command, one at most is given the marker, and the attempt is new. -/
structure Builds (launch : Launch M) (canonicalize : PathBuf → Except IoError OsString) (mode : String) (token : AnalysisToken)
    (directory : PathBuf) (attempt : Path) (inherited : String → Option OsString) (processes : List (Started FileId))
    (before : Tree) : Prop where
  belongs : ∃ command, launch.started canonicalize mode (selected_target_marker token) directory = .ok command ∧
    ∀ process ∈ processes, process.Belongs command inherited attempt directory
  once : (processes.filter (marked token)).length ≤ 1
  fresh : before (attempt.join "manifest") = none

section

variable {launch : Launch M} {canonicalize : PathBuf → Except IoError OsString} {mode : String} {token : AnalysisToken}
  {directory : PathBuf} {attempt : Path} {inherited : String → Option OsString} {processes : List (Started FileId)} {before : Tree}

theorem Builds.delivers (h : Builds launch canonicalize mode token directory attempt inherited processes before) :
    build processes before (attempt.join "manifest") = none ∨
      ∃ process ∈ processes, mode = "collect" ∧ Delivered process launch token attempt (build processes before) := by
  obtain ⟨command, hstarted, hbelongs⟩ := h.belongs
  obtain ⟨source, -, hsaid⟩ := Launch.started_said hstarted inherited
  rw [← h.fresh]
  exact build_delivers hbelongs hsaid h.once before

/-- What rustc answered to the selected process of a build, for the arguments that Cargo gave it. -/
structure Answers (process : Started FileId) (token : AnalysisToken) (attempt : Path) (session : driver.Session FileId)
    (observed : driver.Configuration) : Prop where
  selected : wrapper.Selected process.host.toSystem "collect" (.utf8 (selected_target_marker token)) (process.host.args_os.drop 1)
  reached : ∃ arguments,
    arguments.map OsString.utf8 = (process.host.args_os.drop 1).erase (.utf8 (selected_target_marker token)) ∧
    driver.analysis.Reached process.executable.rustc process.executable.commit attempt arguments session observed

variable [Std.TransOrd FileId] [Std.LawfulEqOrd FileId] [DecidableEq FileId] {stream : List UInt8} {path : PathBuf}
  {manifest : CompilerManifest}

theorem Delivered.tells {process : Started FileId} {tree : Tree} (h : Delivered process launch token attempt tree)
    (hfaithful : process.executable.rustc.Faithful) (hfile : tree (attempt.join "manifest") = some (.file stream))
    (hread : (⟨path, stream, none, selected_target_marker token⟩ : ManifestDecoder).read = .ok manifest) :
    ∃ session observed, Answers process token attempt session observed ∧
      Tells session.lookup_source_file launch.package_root observed session.partitions tree attempt manifest := by
  obtain ⟨arguments, session, observed, stream', harguments, hpublished⟩ := h.published
  obtain ⟨sources, w, w', hcollect, hsnapshots⟩ := hpublished.collected
  rw [hpublished.manifest, Option.some.injEq, Entry.file.injEq] at hfile
  subst hfile
  refine ⟨session, observed, ⟨h.selected, arguments, harguments, hpublished.reached⟩, ?_⟩
  obtain ⟨options, target, -, -, hsession, -⟩ := hpublished.reached
  exact collect_tells (hfaithful _ _ _ hsession) hcollect hsnapshots hread

end

namespace fixture

theorem token_canonical : AnalysisToken.Canonical "00000000000040008000000000000000" := by
  decide

def token : AnalysisToken := ⟨_, token_canonical⟩

def library : Launch compiler.fixture.schema :=
  { preparation.fixture.prepared false with
    invocation_directory := ⟨"/workspace"⟩
    package_root := "/workspace"
    executable := "/home/cargo/optic-rustc-driver" }

def file : SourceFile Nat := ⟨0, 0, some "pub fn answer()", .Real (some "/workspace/src/lib.rs"), fun _ => some 0⟩

def answer : Item where
  mono_item := .Fn ⟨⟨"fixture", "fixture::answer", "fixture::answer", "answer"⟩, true, true, false, ⟨0, 15, false, false⟩⟩
  data := ⟨false, .External, .Default, 4⟩
  canonicalize := some

def session : driver.Session Nat where
  lto := .No
  backend := "llvm"
  codegen_units := 16
  lookup_source_file _ := file
  partitions := [⟨"fixture.0", "/attempt/llvm/fixture.0.bc", [answer]⟩]

def options : Options where
  target_triple := "x86_64-unknown-linux-gnu"
  target := .ok ⟨none, false⟩
  codegen_backend := none
  optimize := .Aggressive
  incremental := none
  linker_plugin_lto := false
  lto := .Unspecified

def executable : Executable Nat where
  key := "key"
  commit := VERIFIED_COMMIT
  rustc := { config := fun _ => .ok options, session := fun _ _ => some session, finish := fun _ _ _ tree => (0, tree) }

def attempt : Path := ["attempt"]

def resolve (path : OsString) : Path :=
  if path = "/attempt/manifest" then attempt.join "manifest" else attempt.join "stale"

theorem resolves_manifest : resolve (.utf8 ((⟨"/attempt"⟩ : PathBuf).join "manifest").text) = attempt.join "manifest" := by
  decide

theorem resolves_stale : resolve (.utf8 ((⟨"/attempt"⟩ : PathBuf).join "stale").text) = attempt.join "stale" := by
  decide

def canonicalize (path : PathBuf) : Except IoError OsString := .ok (.utf8 path.text)

def command : Command :=
  (library.started canonicalize "collect" (selected_target_marker token) ⟨"/attempt"⟩).toOption.getD ⟨⟨""⟩, ⟨""⟩, [], []⟩

theorem starts : library.started canonicalize "collect" (selected_target_marker token) ⟨"/attempt"⟩ = .ok command := rfl

/-- What the command says, as the processes are told. -/
def told : List (String × OsString) :=
  [(SELECTED_TARGET_MARKER_ENV, .utf8 (selected_target_marker token)), (MODE_ENV, "collect"),
    (STALE_RECEIPT_ENV, "/attempt/stale"), (RUSTC_ENV, "/toolchain/bin/rustc"), (SOURCE_ENV, "/workspace/src/lib.rs"),
    (CRATE_NAME_ENV, "fixture"), (MANIFEST_PATH_ENV, "/attempt/manifest"), (PACKAGE_ROOT_ENV, "/workspace")]

/-- A process that Cargo starts for a crate. -/
def process (arguments : List OsString) : Started Nat where
  host := {
    args_os := "/home/cargo/optic-rustc-driver" :: "/toolchain/bin/rustc" :: "--crate-name" :: arguments
    var_os := fun name => told.lookup name
    current_exe := .ok "/home/cargo/optic-rustc-driver"
    canonicalize := .ok
    write := fun _ => .Completed
    exec := fun _ => none
    resolve }
  schedule := []
  executable
  other _ tree := (0, tree)

/-- A dependency, and the selected target. -/
def processes : List (Started Nat) :=
  [process ["dependency", "/dependency/src/lib.rs"],
    process ["fixture", "/workspace/src/lib.rs", .utf8 (selected_target_marker token)]]

def before : Tree := fun path => if path = attempt then some .dir else none

def settings : protocol.Configuration :=
  ⟨"llvm", "x86_64-unknown-linux-gnu", "3", .Off, false, false, 16, LLVM_SUPPORTED⟩

def placement : protocol.Placement where
  key := ⟨"fixture", "fixture::answer", "fixture::answer", "answer"⟩
  codegen_unit := "fixture.0"
  linkage := "External"
  visibility := "Default"
  local_copy := false
  size_estimate := 4
  source := .Available 0 0 15 "/workspace/src/lib.rs" 1

def records : List Record := [.Module "fixture.0" "/attempt/llvm/fixture.0.bc", .SourceFile 0 15, .Placement placement]

def stream : List UInt8 := encode (selected_target_marker token) settings records

theorem handed : ∀ name ∈ VARIABLES, told.lookup name = command.var_os (fun _ => none) name := by
  obtain ⟨source, hsource, hsaid⟩ := Launch.started_said starts fun _ => none
  cases hsource
  have hname : ("fixture".map fun c => if c = '-' then '_' else c) = "fixture" := by
    rw [← String.toList_inj, String.toList_map]
    decide
  have hcrate := hsaid.crate_name
  change _ = some (OsString.utf8 ("fixture".map fun c => if c = '-' then '_' else c)) at hcrate
  rw [hname] at hcrate
  simp only [VARIABLES, List.forall_mem_cons]
  exact ⟨hsaid.marker.symm, hsaid.inner.symm, hsaid.mode.symm, hsaid.stale.symm, hsaid.rustc.symm, hsaid.source.symm, hcrate.symm,
    hsaid.manifest.symm, hsaid.package_root.symm, List.forall_mem_nil _⟩

theorem belongs (arguments : List OsString) : (process arguments).Belongs command (fun _ => none) attempt ⟨"/attempt"⟩ where
  handed := handed
  manifest := resolves_manifest
  stale := resolves_stale
  rustc _ _ _ _ _ _ := rfl
  other _ _ _ _ := rfl

theorem builds : Builds library canonicalize "collect" token ⟨"/attempt"⟩ attempt (fun _ => none) processes before where
  belongs := ⟨command, starts, List.forall_mem_cons.mpr ⟨belongs _, List.forall_mem_singleton.mpr (belongs _)⟩⟩
  once := by decide
  fresh := by decide

theorem faithful : ∀ process ∈ processes, process.executable.rustc.Faithful := by
  have hfile : Faithful fun _ => file := by
    refine ⟨fun _ _ _ => rfl, fun _ content hcontent => ?_, fun _ content _ line _ hline => ?_⟩
    · cases hcontent
      decide
    · cases hline
      exact Nat.zero_le _
  have hrustc : executable.rustc.Faithful := by
    rintro arguments options session ⟨⟩
    exact hfile
  exact List.forall_mem_cons.mpr ⟨hrustc, List.forall_mem_singleton.mpr hrustc⟩

theorem built : build processes before (attempt.join "manifest") = some (.file stream) := by
  decide +kernel

def decoder : ManifestDecoder := ⟨⟨"/attempt/manifest"⟩, stream, none, selected_target_marker token⟩

def source : ArtifactRecord := ⟨⟨0⟩, .Source, 15⟩

def configuration : compiler.Configuration := ⟨"llvm", "x86_64-unknown-linux-gnu", "3", .Off, false, false, 16, none⟩

theorem reads : ∃ instances, decoder.read = .ok ⟨instances, [source], configuration, [collector.fixture.module]⟩ := by
  have himmediate : Immediate decoder.path collector.fixture.module.path :=
    ⟨[.RootDir, .Normal (text "attempt")], by decide, by decide, by decide⟩
  have hplacements : placements_of records = [placement] := rfl
  have hrules : ProtocolRules decoder.path settings records := {
    support_known := ⟨none, rfl⟩
    record_rules := {
      placements := by
        rw [hplacements]
        refine ⟨by decide, List.forall_mem_singleton.mpr ?_, by simp⟩
        exact ⟨by decide, by decide, by decide⟩
      ids_distinct := by decide
      modules := ⟨fun _ => rfl, by decide, List.forall_mem_singleton.mpr himmediate, by decide, by decide⟩ }
    instance_rules := by
      rw [hplacements]
      refine ⟨by decide, fun key => ?_⟩
      exact List.Nodup.sublist (List.filter_sublist.map _) (List.nodup_singleton _) }
  have hspellable : Spellable (selected_target_marker token) settings records := ⟨by decide, by decide, by decide⟩
  have hreads : ∃ manifest, decoder.read = .ok manifest := ManifestDecoder.exists_read rfl hspellable rfl hrules
  obtain ⟨manifest, hread⟩ := hreads
  obtain ⟨settings', records', hspellable', hreader, -, hgrouped⟩ := ManifestDecoder.read_grouped hread
  obtain ⟨rfl, rfl, -⟩ := encode_delimited hspellable hspellable' (congrArg (· ++ []) hreader)
  have hmeans : ConfigurationMeans settings configuration := ⟨rfl, rfl, rfl, rfl, rfl, rfl, rfl, rfl⟩
  have hconfiguration := configuration_means_unique hgrouped.configuration hmeans
  have hartifacts : manifest.artifacts = [source] := hgrouped.artifacts
  have hmodules : manifest.modules = [collector.fixture.module] := hgrouped.modules
  refine ⟨manifest.instances, hread.trans ?_⟩
  rw [← hconfiguration, ← hartifacts, ← hmodules]

theorem source_fits : (text "pub fn answer()").length < UInt64.size := by
  decide

theorem bitcode_fits : (text "BC").length < UInt64.size := by
  decide

/-- The files that the build leaves. -/
def files : collector.Files where
  symlink_metadata path :=
    if path.text = "/attempt/artifact-0000000000000000" then .ok (.file (.of_bytes _ source_fits))
    else if path.text = "/attempt/llvm/fixture.0.bc" then .ok (.file (.of_bytes _ bitcode_fits))
    else .error ⟨.NotFound, "no such file"⟩
  is_file path := path.text = collector.fixture.disassembler.text

/-- What the disassembler writes. -/
def assembly : List UInt8 := text "define void @answer() \x7b\n\x7d\n"

theorem assembly_fits : assembly.length < UInt64.size := by
  decide

/-- The files with the text of a module at a path. -/
def disassembled (path : String) (files : collector.Files) : collector.Files where
  symlink_metadata other :=
    if other.text = path then .ok (.file (.of_bytes _ assembly_fits)) else files.symlink_metadata other
  is_file := files.is_file

def system : collector.System := fun command files =>
  match command.args with
  | [_, _, path] => (.ok ⟨⟨true, ""⟩, [], []⟩, disassembled path files)
  | _ => collector.fixture.system command files

/-- The files behind the collection. -/
def collected : collector.Files := disassembled "/attempt/artifact-0000000000000001" files

theorem range_fits : (0 : UInt64).toNat + (25 : UInt64).toNat < UInt64.size := by
  decide

theorem function_named : "answer" ≠ "" := by
  decide

def function : LlvmDefinitionRecord := ⟨"answer", ⟨0, 25, range_fits⟩, .Function, function_named, trivial⟩

theorem record_named : "fixture.0" ≠ "" := by
  decide

theorem record_distinct : ([function].map LlvmDefinitionRecord.raw_symbol).Nodup := List.nodup_singleton _

def record : LlvmModuleRecord := ⟨⟨1⟩, "fixture.0", .NoLtoOptimized, [function], record_named, record_distinct⟩

def materialized : collector.Materialized where
  modules := [record]
  artifacts := [source, ⟨⟨1⟩, .Llvm, 26⟩]
  next_id := 2
  files := collected

theorem indexes : llvm_index.index_bytes assembly = .ok [function] := by
  rw [llvm_index.index_bytes_eq_contiguous]
  rfl

theorem collects_module : collector.collect_module system collector.fixture.disassembler ⟨"/attempt"⟩ .NoLtoOptimized
    ⟨[], [source], 1, files⟩ collector.fixture.module = .ok materialized := by
  have hindex : llvm_index.index (llvm_index.Reader.of_slice assembly) = .ok [function] := indexes
  have hpath : (⟨"/attempt"⟩ : PathBuf).join (ArtifactRecord.file_name ⟨⟨1⟩, .Llvm, 0⟩) =
    ⟨"/attempt/artifact-0000000000000001"⟩ := by decide
  have hsteps : collector.collect_module system collector.fixture.disassembler ⟨"/attempt"⟩ .NoLtoOptimized
        ⟨[], [source], 1, files⟩ collector.fixture.module =
      ((llvm_index.index (llvm_index.Reader.of_slice assembly)).mapError
        (collector.index_error ⟨"/attempt/artifact-0000000000000001"⟩) >>= fun definitions =>
          (LlvmModuleRecord.new ⟨1⟩ "fixture.0" .NoLtoOptimized definitions).mapError .Record >>= fun record =>
            pure { materialized with modules := [record] }) := by
    simp only [collector.collect_module, hpath]
    rfl
  rw [hsteps, hindex]
  rfl

theorem collects (instances : List InstanceRecord) : ∃ evidence, evidence.artifacts = materialized.artifacts ∧
    evidence.llvm = .Collected [record] ∧
    collector.collect system ⟨instances, [source], configuration, [collector.fixture.module]⟩ collector.fixture.identity
      ⟨"/attempt"⟩ files = .ok (evidence, collected) := by
  let provenance : LlvmProvenance := ⟨"llvm", some "22.1.8", "x86_64-unknown-linux-gnu", "3", .Off, false, false, 16, 1,
    by decide, by decide, by decide, by decide, by decide⟩
  have hversion : collector.compiler_version system collector.fixture.identity "llvm" files = .ok (some "22.1.8", files) := rfl
  have hprovenance : (LlvmProvenance.new "llvm" (some "22.1.8") "x86_64-unknown-linux-gnu" "3" .Off false false 16
    LLVM_RECIPE_REVISION).mapError .Record = (.ok provenance : Except compiler.Error _) := rfl
  have hpath : (⟨"/attempt"⟩ : PathBuf).join source.file_name = ⟨"/attempt/artifact-0000000000000000"⟩ := by decide
  have hsource : collector.check_source ⟨"/attempt"⟩ files source = .ok () := by
    rw [collector.check_source, hpath]
    rfl
  have hmodules : collector.collect_modules system [collector.fixture.module] collector.fixture.identity ⟨"/attempt"⟩ provenance
      [source] files =
    collector.collect_module system collector.fixture.disassembler ⟨"/attempt"⟩ .NoLtoOptimized ⟨[], [source], 1, files⟩
      collector.fixture.module >>= pure := rfl
  have hsteps : collector.collect system ⟨instances, [source], configuration, [collector.fixture.module]⟩
        collector.fixture.identity ⟨"/attempt"⟩ files =
      collector.compiler_version system collector.fixture.identity "llvm" files >>= fun version =>
        (LlvmProvenance.new "llvm" version.1 "x86_64-unknown-linux-gnu" "3" .Off false false 16 LLVM_RECIPE_REVISION).mapError
          .Record >>= fun provenance => collector.check_source ⟨"/attempt"⟩ files source >>= fun _ =>
            collector.collect_modules system [collector.fixture.module] collector.fixture.identity ⟨"/attempt"⟩ provenance
              [source] version.2 >>= fun result =>
                pure ({ instances, artifacts := result.artifacts, provenance, llvm := .Collected result.modules },
                  result.files) := rfl
  rw [collects_module] at hmodules
  refine ⟨⟨instances, materialized.artifacts, provenance, .Collected [record]⟩, rfl, rfl, ?_⟩
  rw [hsteps, hversion, ok_bind, hprovenance, ok_bind, hsource, ok_bind, hmodules]
  rfl

end fixture

variable {launch : Launch M} {canonicalize : PathBuf → Except IoError OsString} {mode : String} {token : AnalysisToken}
  {directory : PathBuf} {attempt : Path} {inherited : String → Option OsString} {processes : List (Started FileId)} {before : Tree}

/-- Whatever fails in a build, and in whatever order its processes run: no manifest is there, or it is the whole stream of an
analysis that got through, with all its snapshots. -/
theorem build_publishes (h : Builds launch canonicalize mode token directory attempt inherited processes before) :
    build processes before (attempt.join "manifest") = none ∨
      mode = "collect" ∧ ∃ process ∈ processes, Delivered process launch token attempt (build processes before) := by
  rcases h.delivers with habsent | ⟨process, hprocess, hmode, hdelivered⟩
  · exact .inl habsent
  · exact .inr ⟨hmode, process, hprocess, hdelivered⟩

/-- A build with a dependency publishes the manifest of the selected target. -/
theorem build_publishes_fixture : ∃ process ∈ fixture.processes, Delivered process fixture.library fixture.token fixture.attempt
    (build fixture.processes fixture.before) := by
  rcases build_publishes fixture.builds with habsent | ⟨-, hdelivered⟩
  · rw [fixture.built] at habsent
    cases habsent
  · exact hdelivered

variable [Std.TransOrd FileId] [Std.LawfulEqOrd FileId] [DecidableEq FileId] {stream : List UInt8} {path : PathBuf}
  {manifest : CompilerManifest}

/-- A manifest that the parent reads behind a build tells what rustc answered to the selected process. -/
theorem build_tells (h : Builds launch canonicalize mode token directory attempt inherited processes before)
    (hfaithful : ∀ process ∈ processes, process.executable.rustc.Faithful)
    (hfile : build processes before (attempt.join "manifest") = some (.file stream))
    (hread : (⟨path, stream, none, selected_target_marker token⟩ : ManifestDecoder).read = .ok manifest) :
    mode = "collect" ∧ ∃ process ∈ processes, ∃ session observed, Answers process token attempt session observed ∧
      Tells session.lookup_source_file launch.package_root observed session.partitions (build processes before) attempt manifest := by
  rcases h.delivers with habsent | ⟨process, hprocess, hmode, hdelivered⟩
  · rw [habsent] at hfile
    cases hfile
  · exact ⟨hmode, process, hprocess, hdelivered.tells (hfaithful process hprocess) hfile hread⟩

theorem build_tells_fixture : ∃ manifest, fixture.decoder.read = .ok manifest ∧ ∃ process ∈ fixture.processes,
    ∃ session observed, Answers process fixture.token fixture.attempt session observed ∧
      Tells session.lookup_source_file fixture.library.package_root observed session.partitions
        (build fixture.processes fixture.before) fixture.attempt manifest := by
  obtain ⟨instances, hread⟩ := fixture.reads
  exact ⟨_, hread, (build_tells fixture.builds fixture.faithful fixture.built hread).2⟩

/-- The records that the collector takes from a build are never rejected. -/
theorem build_accepted (h : Builds launch canonicalize mode token directory attempt inherited processes before)
    (hfaithful : ∀ process ∈ processes, process.executable.rustc.Faithful)
    (hfile : build processes before (attempt.join "manifest") = some (.file stream))
    (hread : (⟨path, stream, none, selected_target_marker token⟩ : ManifestDecoder).read = .ok manifest)
    {system : collector.System} {compiler : CompilerIdentity} {files files' : collector.Files} {evidence : collector.CollectedEvidence}
    (hcollect : collector.collect system manifest compiler directory files = .ok (evidence, files')) :
    (∀ capture_id, ∃ durable, evidence.into_manifest capture_id = .ok durable) ∧ evidence.instances = manifest.instances ∧
      ∃ process ∈ processes, ∃ session observed, Answers process token attempt session observed ∧
        ∀ modules, evidence.llvm = .Collected modules → observed.Supported process.executable.commit ∧
          modules.map LlvmModuleRecord.compiler_module = session.partitions.map CodegenUnit.name := by
  rcases h.delivers with habsent | ⟨process, hprocess, -, hdelivered⟩
  · rw [habsent] at hfile
    cases hfile
  · obtain ⟨session, observed, hanswers, htells⟩ := hdelivered.tells (hfaithful process hprocess) hfile hread
    obtain ⟨arguments, harguments, hreached⟩ := hanswers.reached
    obtain ⟨haccepted, hinstances, hmodules⟩ := htells.accepted hreached.supported hread hcollect
    exact ⟨haccepted, hinstances, process, hprocess, session, observed, hanswers, hmodules⟩

theorem build_accepted_fixture : ∃ manifest evidence durable, fixture.decoder.read = .ok manifest ∧
    collector.collect fixture.system manifest collector.fixture.identity ⟨"/attempt"⟩ fixture.files =
      .ok (evidence, fixture.collected) ∧
    evidence.llvm = .Collected [fixture.record] ∧
    evidence.into_manifest ⟨"kkkkkkkkkkkkkkkkkkkkkkkkkkkkkkkk", by decide⟩ = .ok durable := by
  obtain ⟨instances, hread⟩ := fixture.reads
  obtain ⟨evidence, -, hllvm, hcollect⟩ := fixture.collects instances
  obtain ⟨haccepted, -⟩ := build_accepted fixture.builds fixture.faithful fixture.built hread hcollect
  obtain ⟨durable, hdurable⟩ := haccepted ⟨"kkkkkkkkkkkkkkkkkkkkkkkkkkkkkkkk", by decide⟩
  exact ⟨_, evidence, durable, hread, hcollect, hllvm, hdurable⟩

end optic.launch
