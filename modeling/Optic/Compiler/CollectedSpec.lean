import Optic.Compiler.ArtifactsSpec

open rust optic.records optic.compiler.protocol

namespace optic.compiler.collector

/-- Where the disassembler of a toolchain is. -/
def disassembler_of (compiler : CompilerIdentity) : PathBuf :=
  ((compiler.sysroot.join "lib/rustlib").push compiler.host).join "bin/llvm-dis"

/-- What processes leave alone: a version is told without a change of files, and a disassembler writes the artifact that it is
told to and no other. -/
structure Separate (system : System) (compiler : CompilerIdentity) (directory : PathBuf) : Prop where
  version (files : Files) (path : PathBuf) :
    (system ⟨compiler.rustc, ["-vV"]⟩ files).2.symlink_metadata path = files.symlink_metadata path
  disassembler (files : Files) (path : PathBuf) :
    (system ⟨disassembler_of compiler, ["--version"]⟩ files).2.symlink_metadata path = files.symlink_metadata path
  artifacts (files : Files) (bitcode : String) {artifact other : ArtifactRecord} (h : artifact.file_name ≠ other.file_name) :
    (system ⟨disassembler_of compiler, [bitcode, "-o", (directory.join other.file_name).text]⟩ files).2.symlink_metadata
      (directory.join artifact.file_name) = files.symlink_metadata (directory.join artifact.file_name)

/-- The text of a module is a file of the attempt, and an index of it finds the definitions of the module. -/
def Disassembled (directory : PathBuf) (files : Files) (module : LlvmModuleRecord) : Prop :=
  ∃ file, files.symlink_metadata (directory.join (ArtifactRecord.file_name ⟨module.artifact, .Llvm, 0⟩)) = .ok (.file file) ∧
    llvm_index.index_bytes file.bytes = .ok module.definitions

/-- The files of an attempt behind some modules: the sources as they were, and the text of each module. -/
structure Leaves (directory : PathBuf) (sources : List ArtifactRecord) (before : Files) (state : Materialized) : Prop where
  sources : ∀ artifact ∈ sources, state.files.symlink_metadata (directory.join artifact.file_name) =
    before.symlink_metadata (directory.join artifact.file_name)
  texts : ∀ module ∈ state.modules, Disassembled directory state.files module

theorem run_files {system : System} {command : Command} {files files' : Files} {output : Output}
    (h : run system command files = .ok (output, files')) : (system command files).2 = files' := by
  simp only [run, bind_eq_ok_iff, pure_eq_ok, Except.ok.injEq, Prod.mk.injEq] at h
  obtain ⟨_, -, _, -, -, hfiles⟩ := h
  exact hfiles

theorem regular_file_ok {files : Files} {path : PathBuf} {file : RegularFile} (h : regular_file files path = .ok file) :
    files.symlink_metadata path = .ok (.file file) := by
  unfold regular_file at h
  split at h
  · cases h
  · cases h
  · next found hfound =>
    cases h
    exact hfound

/-- What an index of a reader finds is in the bytes of the file. -/
theorem RegularFile.index_bytes {self : RegularFile} {reader : llvm_index.Reader} (hopened : self.opened = .ok reader)
    {definitions : List LlvmDefinitionRecord} (h : llvm_index.index reader = .ok definitions) :
    llvm_index.index_bytes self.bytes = .ok definitions := by
  have hdelivers := self.delivers reader hopened
  obtain ⟨hfailure, -⟩ := collector.index_within hdelivers h
  rw [llvm_index.index_eq_contiguous hdelivers, hfailure, self.whole reader hopened hfailure] at h
  rwa [llvm_index.index_bytes_eq_contiguous]

theorem Disassembled.kept {directory : PathBuf} {files files' : Files} {module : LlvmModuleRecord}
    (h : Disassembled directory files module)
    (hkept : files'.symlink_metadata (directory.join (ArtifactRecord.file_name ⟨module.artifact, .Llvm, 0⟩)) =
      files.symlink_metadata (directory.join (ArtifactRecord.file_name ⟨module.artifact, .Llvm, 0⟩))) :
    Disassembled directory files' module := by
  obtain ⟨file, hfile, hindex⟩ := h
  exact ⟨file, hkept.trans hfile, hindex⟩

variable {system : System} {compiler : CompilerIdentity} {directory : PathBuf} {sources : List ArtifactRecord}
  {stage : LlvmStage} {before files files' : Files}

/-- The text of one more module is written beside the sources and the other texts. -/
theorem collect_module_leaves (hseparate : Separate system compiler directory) {done : List ExpectedModule}
    {self next : Materialized} {module : ExpectedModule}
    (h : collect_module system (disassembler_of compiler) directory stage self module = .ok next)
    (htables : Tables sources stage done self) (hleaves : Leaves directory sources before self) :
    Leaves directory sources before next := by
  simp only [collect_module, bind_eq_ok_iff, map_error_eq_ok_iff, pure_eq_ok, Except.ok.injEq] at h
  obtain ⟨_, -, _, -, next_id, -, ran, hran, file, hfile, reader, hopened, definitions, hindex, record, hrecord, rfl⟩ := h
  obtain ⟨hartifact, -, -, hdefinitions⟩ := LlvmModuleRecord.new_eq_ok_iff.mp hrecord
  obtain ⟨texts, htexts, hholds⟩ := htables.texts
  -- The ID of the new text is none of those in use, and so is its name.
  have hkept (artifact : ArtifactRecord) (hused : ∃ other ∈ self.artifacts, other.id = artifact.id) :
      ran.2.symlink_metadata (directory.join artifact.file_name) =
        self.files.symlink_metadata (directory.join artifact.file_name) := by
    obtain ⟨other, hother, hid⟩ := hused
    have hfree := htables.free other hother
    rw [← run_files hran]
    apply hseparate.artifacts
    intro hname
    rw [hid, ArtifactRecord.file_name_inj hname] at hfree
    exact absurd hfree (Nat.lt_irrefl _)
  refine ⟨fun artifact hmem => ?_, fun other hother => ?_⟩
  · have hused : artifact ∈ self.artifacts := htexts ▸ List.mem_append_left texts hmem
    exact (hkept artifact ⟨artifact, hused, rfl⟩).trans (hleaves.sources artifact hmem)
  · rcases List.mem_append.mp hother with hold | hnew
    · obtain ⟨artifact, hmem, hheld⟩ := exists_of_mem_right hholds.flip hold
      have hused : artifact ∈ self.artifacts := htexts ▸ List.mem_append_right sources hmem
      exact (hleaves.texts other hold).kept (hkept _ ⟨artifact, hused, hheld.id⟩)
    · obtain rfl := List.mem_singleton.mp hnew
      refine ⟨file, ?_, ?_⟩
      · rw [hartifact]
        exact regular_file_ok hfile
      · rw [hdefinitions]
        exact file.index_bytes hopened hindex

theorem collect_modules_leaves (hseparate : Separate system compiler directory) {expected : List ExpectedModule}
    {provenance : LlvmProvenance} {result : Materialized}
    (h : collect_modules system expected compiler directory provenance sources files = .ok result)
    (hdistinct : (sources.map ArtifactRecord.id).Nodup) : Leaves directory sources files result := by
  simp only [collect_modules, bind_eq_ok_iff, map_error_eq_ok_iff, ensure_eq_ok_iff, stage_of_eq_ok_iff] at h
  obtain ⟨_, -, stage, -, _, -, ran, hran, _, -, next_id, hnext, h⟩ := h
  have hversion (path : PathBuf) : ran.2.symlink_metadata path = files.symlink_metadata path := by
    rw [← run_files hran]
    exact hseparate.disassembler files path
  have htables : Tables sources stage [] { modules := [], artifacts := sources, next_id, files := ran.2 } :=
    ⟨rfl, List.forall_mem_nil _, ⟨[], (List.append_nil _).symm, .nil⟩, first_free_above hnext, hdistinct⟩
  have hstart : Leaves directory sources files { modules := [], artifacts := sources, next_id, files := ran.2 } :=
    ⟨fun _ _ => hversion _, List.forall_mem_nil _⟩
  have hkeeps := foldlM_keeps (P := fun done state => Tables sources stage done state ∧ Leaves directory sources files state)
    (fun hturn hbefore => ⟨collect_module_tables hturn hbefore.1, collect_module_leaves hseparate hturn hbefore.1 hbefore.2⟩)
    expected h ⟨htables, hstart⟩
  exact hkeeps.2

theorem compiler_version_files (hseparate : Separate system compiler directory) {backend : String} {version : Option String}
    (h : compiler_version system compiler backend files = .ok (version, files')) (path : PathBuf) :
    files'.symlink_metadata path = files.symlink_metadata path := by
  unfold compiler_version at h
  split at h
  · simp only [bind_eq_ok_iff, map_error_eq_ok_iff, pure_eq_ok, Except.ok.injEq, Prod.mk.injEq] at h
    obtain ⟨ran, hran, _, -, -, rfl⟩ := h
    rw [← run_files hran]
    exact hseparate.version files path
  · cases h
    rfl

/-- A collection leaves the sources of the build as they are, beside the text of each module that it has collected. -/
theorem collect_leaves (hseparate : Separate system compiler directory) {manifest : CompilerManifest}
    {evidence : CollectedEvidence} (h : collect system manifest compiler directory files = .ok (evidence, files'))
    (hdistinct : (manifest.artifacts.map ArtifactRecord.id).Nodup) :
    (∀ artifact ∈ manifest.artifacts, ∃ file, files.symlink_metadata (directory.join artifact.file_name) = .ok (.file file) ∧
      files'.symlink_metadata (directory.join artifact.file_name) = .ok (.file file)) ∧
    ∀ module ∈ evidence.llvm.modules, Disassembled directory files' module := by
  simp only [collect, bind_eq_ok_iff, map_error_eq_ok_iff] at h
  obtain ⟨version, hversion, provenance, -, _, hsources, h⟩ := h
  have hsame := compiler_version_files hseparate hversion
  have hchecked : ∀ artifact ∈ manifest.artifacts, ∃ file,
      version.2.symlink_metadata (directory.join artifact.file_name) = .ok (.file file) := by
    intro artifact hmem
    have hcheck := forM_eq_ok_iff.mp hsources artifact hmem
    obtain ⟨file, hfile, -⟩ := bind_eq_ok_iff.mp hcheck
    exact ⟨file, regular_file_ok hfile⟩
  cases hunsupported : manifest.configuration.unsupported with
  | some reason =>
    rw [hunsupported] at h
    cases h
    refine ⟨fun artifact hmem => ?_, List.forall_mem_nil _⟩
    obtain ⟨file, hfile⟩ := hchecked artifact hmem
    exact ⟨file, (hsame _).symm.trans hfile, hfile⟩
  | none =>
    simp only [hunsupported, bind_eq_ok_iff, pure_eq_ok, Except.ok.injEq, Prod.mk.injEq] at h
    obtain ⟨result, hresult, rfl, rfl⟩ := h
    have hleaves := collect_modules_leaves hseparate hresult hdistinct
    refine ⟨fun artifact hmem => ?_, hleaves.texts⟩
    obtain ⟨file, hfile⟩ := hchecked artifact hmem
    exact ⟨file, (hsame _).symm.trans hfile, (hleaves.sources artifact hmem).trans hfile⟩

/-- The records that are published are those that were collected. -/
theorem into_manifest_ok {evidence : CollectedEvidence} {capture_id : CaptureId} {durable : InstanceManifest}
    (h : evidence.into_manifest capture_id = .ok durable) :
    durable.capture_id = capture_id ∧ durable.instances = evidence.instances ∧ durable.artifacts = evidence.artifacts ∧
      durable.llvm = evidence.llvm := by
  obtain ⟨_, -, hdurable⟩ := bind_eq_ok_iff.mp h
  cases hdurable
  exact ⟨rfl, rfl, rfl, rfl⟩

end optic.compiler.collector
