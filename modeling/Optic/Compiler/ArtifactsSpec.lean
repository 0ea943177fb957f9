import Optic.Compiler.Artifacts
import Optic.Compiler.WireSpec
import Optic.LlvmIndex.Index
import Optic.Records.ManifestSpec

open byte_scan rust optic.records optic.compiler.protocol

namespace optic.compiler.collector

section

variable {ε α β : Type}

theorem map_error_eq_ok_iff {ε' : Type} {result : Except ε α} {f : ε → ε'} {value : α} :
    result.mapError f = .ok value ↔ result = .ok value := by
  cases result <;> simp [Except.mapError]

/-- What each turn of a loop keeps of the elements so far, the loop keeps of all of them. -/
theorem foldlM_keeps {P : List α → β → Prop} {turn : β → α → Except ε β}
    (hturn : ∀ {before : List α} {state : β} {a : α} {next : β}, turn state a = .ok next → P before state →
      P (before ++ [a]) next) (l : List α) : ∀ {before : List α} {state result : β},
    l.foldlM turn state = .ok result → P before state → P (before ++ l) result := by
  induction l with
  | nil =>
    intro before state result h hbefore
    cases h
    rwa [List.append_nil]
  | cons a l ih =>
    intro before state result h hbefore
    rw [List.foldlM_cons, bind_eq_ok_iff] at h
    obtain ⟨next, hnext, h⟩ := h
    rw [List.append_cons]
    exact ih h (hturn hnext hbefore)

end

/-- An index of a reader has seen all that it delivers, and ends within it. -/
theorem index_within {reader : llvm_index.Reader} (hreader : reader.Delivers) {definitions : List LlvmDefinitionRecord}
    (h : llvm_index.index reader = .ok definitions) : reader.failure = none ∧
      ∀ definition ∈ definitions, definition.range.end.toNat ≤ reader.bytes.length := by
  have hspec := llvm_index.scan_spec (s := { rest := reader.bytes, failure := reader.failure }) [] rfl llvm_index.zero_lt_u64
  rw [llvm_index.index_eq_contiguous hreader] at h
  change Except.map _ ((Scan.iter llvm_index.scan_turn []).run _) = _ at h
  cases hrun : (Scan.iter llvm_index.scan_turn []).run
      ({ rest := reader.bytes, failure := reader.failure } : llvm_index.Contiguous) with
  | error fault =>
    rw [hrun] at h
    cases h
  | ok pair =>
    rw [hrun] at h
    cases h
    obtain ⟨hfailure, -⟩ := hspec.of_run_ok hrun
    refine ⟨hfailure, fun definition hdefinition => ?_⟩
    have hindex : llvm_index.index_bytes reader.bytes = .ok pair.1 := by
      rw [llvm_index.index_bytes_eq_contiguous]
      change Except.map _ ((Scan.iter llvm_index.scan_turn []).run _) = _
      change reader.failure = none at hfailure
      rw [hfailure] at hrun
      rw [hrun]
      rfl
    obtain ⟨_, horigin⟩ := (llvm_index.scanned_of_index hindex).origin definition hdefinition
    exact horigin.slice_eq.1

theorem RegularFile.len_toNat (self : RegularFile) : self.len.toNat = self.bytes.length :=
  UInt64.toNat_ofNat_of_lt' self.fits

/-- A file that an index was taken from holds all of its definitions. -/
theorem RegularFile.index_within {self : RegularFile} {reader : llvm_index.Reader} (hopened : self.opened = .ok reader)
    {definitions : List LlvmDefinitionRecord} (h : llvm_index.index reader = .ok definitions) :
    ∀ definition ∈ definitions, definition.range.end ≤ self.len := by
  obtain ⟨hfailure, hwithin⟩ := collector.index_within (self.delivers reader hopened) h
  rw [self.whole reader hopened hfailure] at hwithin
  simpa only [UInt64.le_iff_toNat_le, self.len_toNat] using hwithin

/-- An artifact is the text of a module. -/
structure Holds (module : LlvmModuleRecord) (artifact : ArtifactRecord) : Prop where
  id : artifact.id = module.artifact
  kind : artifact.kind = .Llvm
  within : ∀ definition ∈ module.definitions, definition.range.end ≤ artifact.byte_len

theorem holds_ids {modules : List LlvmModuleRecord} {texts : List ArtifactRecord} (h : List.Forall₂ Holds modules texts) :
    modules.map LlvmModuleRecord.artifact = texts.map ArtifactRecord.id := by
  induction h with
  | nil => rfl
  | cons hfirst _ ih => rw [List.map_cons, List.map_cons, ih, hfirst.id]

/-- What materialization has made of the modules so far: each has a text of its own behind the
sources, under an ID that was free. -/
structure Tables (sources : List ArtifactRecord) (stage : LlvmStage) (done : List ExpectedModule)
    (state : Materialized) : Prop where
  names : state.modules.map LlvmModuleRecord.compiler_module = done.map ExpectedModule.name
  stages : ∀ module ∈ state.modules, module.stage = stage
  texts : ∃ texts, state.artifacts = sources ++ texts ∧ List.Forall₂ Holds state.modules texts
  free : ∀ artifact ∈ state.artifacts, artifact.id.value.toNat < state.next_id.toNat
  distinct : (state.artifacts.map ArtifactRecord.id).Nodup

section

variable {system : System} {directory : PathBuf} {files : Files}

/-- One more module gets the next free ID. -/
theorem collect_module_tables {disassembler : PathBuf} {sources : List ArtifactRecord} {stage : LlvmStage}
    {done : List ExpectedModule} {self next : Materialized} {module : ExpectedModule}
    (h : collect_module system disassembler directory stage self module = .ok next)
    (htables : Tables sources stage done self) : Tables sources stage (done ++ [module]) next := by
  simp only [collect_module, bind_eq_ok_iff, map_error_eq_ok_iff, ok_or_eq_ok_iff, pure_eq_ok, Except.ok.injEq] at h
  obtain ⟨_, -, _, -, next_id, hnext, _, -, file, -, reader, hopened, definitions, hindex, record, hrecord, rfl⟩ := h
  obtain ⟨hartifact, hname, hstage, hdefinitions⟩ := LlvmModuleRecord.new_eq_ok_iff.mp hrecord
  obtain ⟨texts, htexts, hholds⟩ := htables.texts
  have hnext := checked_add_eq_some hnext
  rw [UInt64.toNat_one] at hnext
  have hfresh : ∀ artifact ∈ self.artifacts, artifact.id ≠ ⟨self.next_id⟩ := by
    intro artifact hmem heq
    have hfree := htables.free artifact hmem
    rw [heq] at hfree
    exact absurd hfree (Nat.lt_irrefl _)
  refine ⟨?_, ?_, ?_, ?_, ?_⟩
  · rw [List.map_append, List.map_append, htables.names, List.map_singleton, hname, List.map_singleton]
  · intro other hother
    obtain hother | hother := List.mem_append.mp hother
    · exact htables.stages other hother
    · rw [List.mem_singleton.mp hother, hstage]
  · refine ⟨texts ++ [⟨⟨self.next_id⟩, .Llvm, file.len⟩], ?_, List.rel_append hholds (.cons ⟨hartifact.symm, rfl, ?_⟩ .nil)⟩
    · rw [htexts, List.append_assoc]
    · rw [hdefinitions]
      exact file.index_within hopened hindex
  · intro artifact hmem
    obtain hmem | hmem := List.mem_append.mp hmem
    · have hfree := htables.free artifact hmem
      simp only
      omega
    · rw [List.mem_singleton.mp hmem]
      simp only
      omega
  · rw [List.map_append, List.map_singleton, nodup_append_singleton_iff]
    refine ⟨htables.distinct, fun hmem => ?_⟩
    obtain ⟨artifact, hmem, hid⟩ := List.mem_map.mp hmem
    exact hfresh artifact hmem hid

/-- The first free ID is above all IDs of the sources. -/
theorem first_free_above {artifacts : List ArtifactRecord} {next_id : UInt64} (h : first_free artifacts = .ok next_id) :
    ∀ artifact ∈ artifacts, artifact.id.value.toNat < next_id.toNat := by
  intro artifact hmem
  unfold first_free at h
  cases hmax : (artifacts.map fun artifact => artifact.id.value).max? with
  | none =>
    rw [List.max?_eq_none_iff, List.map_eq_nil_iff] at hmax
    rw [hmax] at hmem
    cases hmem
  | some greatest =>
    simp only [hmax, ok_or_eq_ok_iff] at h
    have hnext := checked_add_eq_some h
    have hle := le_of_max?_eq_some hmax artifact.id.value (List.mem_map_of_mem hmem)
    rw [UInt64.toNat_one] at hnext
    omega

theorem stage_of_eq_ok_iff {lto : LlvmLto} {stage : LlvmStage} : stage_of lto = .ok stage ↔ lto.stage = some stage := by
  cases lto <;> simp [stage_of, LlvmLto.stage]

/-- Materialization only goes ahead under a supported configuration, and gets through all
expected modules. -/
theorem collect_modules_tables {expected : List ExpectedModule} {compiler : CompilerIdentity}
    {provenance : LlvmProvenance} {sources : List ArtifactRecord} {result : Materialized}
    (h : collect_modules system expected compiler directory provenance sources files = .ok result)
    (hdistinct : (sources.map ArtifactRecord.id).Nodup) :
    provenance.backend = "llvm" ∧ provenance.incremental = false ∧ provenance.linker_plugin_lto = false ∧
      ∃ stage, provenance.lto.stage = some stage ∧ Tables sources stage expected result := by
  simp only [collect_modules, bind_eq_ok_iff, map_error_eq_ok_iff, ensure_eq_ok_iff, stage_of_eq_ok_iff] at h
  obtain ⟨_, hconfiguration, stage, hstage, _, -, ran, -, _, -, next_id, hnext, h⟩ := h
  have hstart : Tables sources stage [] { modules := [], artifacts := sources, next_id, files := ran.2 } :=
    ⟨rfl, List.forall_mem_nil _, ⟨[], (List.append_nil _).symm, .nil⟩, first_free_above hnext, hdistinct⟩
  have htables := foldlM_keeps collect_module_tables expected h hstart
  simp only [Bool.not_eq_true', Bool.or_eq_false_iff, decide_eq_false_iff_not, ne_eq, not_not] at hconfiguration
  exact ⟨hconfiguration.1.1, hconfiguration.1.2, hconfiguration.2, stage, hstage, htables⟩

/-- Evidence whose artifacts are the sources, each under an ID of its own, and behind them the
texts of the modules, under a configuration that they are possible with. -/
structure Materializes (sources : List ArtifactRecord) (expected : List ExpectedModule)
    (evidence : CollectedEvidence) : Prop where
  configuration : ∀ modules, evidence.llvm = .Collected modules → evidence.provenance.supported = true
  names : evidence.llvm.modules.map LlvmModuleRecord.compiler_module <+: expected.map ExpectedModule.name
  stages : ∀ module ∈ evidence.llvm.modules, evidence.provenance.lto.stage = some module.stage
  texts : ∃ texts, evidence.artifacts = sources ++ texts ∧ List.Forall₂ Holds evidence.llvm.modules texts
  distinct : (evidence.artifacts.map ArtifactRecord.id).Nodup

theorem compiler_version_some {compiler : CompilerIdentity} {version : Option String} {files' : Files}
    (h : compiler_version system compiler "llvm" files = .ok (version, files')) : version ≠ none := by
  rw [compiler_version, if_pos rfl] at h
  simp only [bind_eq_ok_iff, pure_eq_ok, Except.ok.injEq, Prod.mk.injEq] at h
  obtain ⟨_, -, version, -, rfl, -⟩ := h
  exact nofun

/-- Collection keeps the instances of a manifest, and materializes its modules. -/
theorem collect_materializes {manifest : CompilerManifest} {compiler : CompilerIdentity} {evidence : CollectedEvidence}
    {files' : Files} (h : collect system manifest compiler directory files = .ok (evidence, files'))
    (hdistinct : (manifest.artifacts.map ArtifactRecord.id).Nodup) :
    evidence.instances = manifest.instances ∧ Materializes manifest.artifacts manifest.modules evidence := by
  simp only [collect, bind_eq_ok_iff, map_error_eq_ok_iff] at h
  obtain ⟨version, hversion, provenance, hprovenance, _, -, h⟩ := h
  obtain ⟨hbackend, hllvm, hlto, -⟩ := LlvmProvenance.new_eq_ok hprovenance
  cases hunsupported : manifest.configuration.unsupported with
  | some reason =>
    rw [hunsupported] at h
    cases h
    exact ⟨rfl, nofun, List.nil_prefix, nofun, ⟨[], (List.append_nil _).symm, .nil⟩, hdistinct⟩
  | none =>
    simp only [hunsupported, bind_eq_ok_iff, pure_eq_ok, Except.ok.injEq, Prod.mk.injEq] at h
    obtain ⟨result, hresult, rfl, -⟩ := h
    obtain ⟨hnamed, hincremental, hplugin, stage, hstage, htables⟩ := collect_modules_tables hresult hdistinct
    have hmode : provenance.lto = .Off ∨ provenance.lto = .LocalThin := by
      cases hlto : provenance.lto <;> simp [hlto, LlvmLto.stage] at hstage ⊢
    have hknown : provenance.llvm_version ≠ none := by
      rw [hllvm]
      rw [← hbackend, hnamed] at hversion
      exact compiler_version_some hversion
    refine ⟨rfl, fun _ _ => LlvmProvenance.supported_iff.mpr ⟨hnamed, hknown, hincremental, hplugin, hmode⟩, ?_, ?_,
      htables.texts, htables.distinct⟩
    · exact htables.names ▸ List.prefix_refl _
    · intro module hmodule
      rw [htables.stages module hmodule]
      exact hstage

end

namespace Materializes

variable {sources : List ArtifactRecord} {expected : List ExpectedModule} {evidence : CollectedEvidence}

theorem module_artifacts (h : Materializes sources expected evidence) :
    (evidence.llvm.modules.map LlvmModuleRecord.artifact).Nodup := by
  obtain ⟨texts, htexts, hholds⟩ := h.texts
  have hdistinct := h.distinct
  rw [htexts, List.map_append] at hdistinct
  rw [holds_ids hholds]
  exact hdistinct.of_append_right

theorem validate_modules (h : Materializes sources expected evidence) (hnames : (expected.map ExpectedModule.name).Nodup) :
    validate_modules evidence.artifacts evidence.provenance evidence.llvm.modules = .ok () := by
  rw [validate_modules_eq_ok_iff]
  refine ⟨fun module hmodule => ?_, hnames.sublist h.names.sublist, h.module_artifacts⟩
  obtain ⟨texts, htexts, hholds⟩ := h.texts
  obtain ⟨artifact, hartifact, hholds⟩ := exists_of_mem_right hholds.flip hmodule
  have hfound : artifact_of evidence.artifacts module.artifact = some artifact := by
    rw [← hholds.id]
    refine artifact_of_mem h.distinct ?_
    rw [htexts]
    exact List.mem_append_right sources hartifact
  rw [validate_module_eq_ok_iff]
  refine ⟨LlvmStage.agrees_iff.mpr (h.stages module hmodule), ⟨artifact, hfound, hholds.kind, ?_⟩,
    fun definition hdefinition => ⟨artifact, hfound, hholds.kind, hholds.within definition hdefinition⟩⟩
  exact UInt64.le_iff_toNat_le.mpr (Nat.zero_le _)

theorem validate_orphans (h : Materializes sources expected evidence) (hsources : ∀ artifact ∈ sources, artifact.kind = .Source) :
    validate_orphans evidence.artifacts evidence.llvm.modules = .ok () := by
  rw [validate_orphans_eq_ok_iff]
  intro artifact hmem hkind
  obtain ⟨texts, htexts, hholds⟩ := h.texts
  rw [htexts] at hmem
  obtain hmem | hmem := List.mem_append.mp hmem
  · rw [hsources artifact hmem] at hkind
    cases hkind
  · obtain ⟨module, hmodule, hholds⟩ := exists_of_mem_right hholds hmem
    exact List.mem_map.mpr ⟨module, hmodule, hholds.id.symm⟩

/-- Only the sources and the placements of materialized evidence are left to check. -/
theorem validate_manifest (h : Materializes sources expected evidence)
    (hsources : ∀ artifact ∈ sources, artifact.kind = .Source) (hnames : (expected.map ExpectedModule.name).Nodup) :
    validate_manifest evidence.instances evidence.artifacts evidence.provenance evidence.llvm =
      validate_instances evidence.artifacts evidence.instances >>= fun _ =>
        validate_placements evidence.instances evidence.llvm := by
  have hartifacts := require_artifacts_eq_ok_iff.mpr h.distinct
  have hconfiguration := validate_configuration_eq_ok_iff.mpr h.configuration
  rw [records.validate_manifest, validate_llvm, hartifacts, hconfiguration, h.validate_modules hnames,
    h.validate_orphans hsources]
  simp only [ok_bind]
  congr 1
  funext _
  cases records.validate_placements evidence.instances evidence.llvm <;> rfl

/-- A source lies in a text of the sources where it lies in an artifact of the evidence. -/
theorem declared_iff (h : Materializes sources expected evidence) {source : SourceRecord} :
    Declared evidence.artifacts source.artifact .Source source.range ↔
      ∃ artifact ∈ sources, artifact.id = source.artifact ∧ artifact.kind = .Source ∧
        source.range.end ≤ artifact.byte_len := by
  obtain ⟨texts, htexts, hholds⟩ := h.texts
  rw [records.declared_iff h.distinct, htexts]
  constructor
  · rintro ⟨artifact, hmem, hid, hkind, hrange⟩
    obtain hmem | hmem := List.mem_append.mp hmem
    · exact ⟨artifact, hmem, hid, hkind, hrange⟩
    · obtain ⟨module, -, hholds⟩ := exists_of_mem_right hholds hmem
      rw [hholds.kind] at hkind
      cases hkind
  · rintro ⟨artifact, hmem, hrest⟩
    exact ⟨artifact, List.mem_append_left texts hmem, hrest⟩

end Materializes

/-- Every available source names a declared source file, and ends within its declared length. -/
def SourcesDeclared (artifacts : List ArtifactRecord) (instances : List InstanceRecord) : Prop :=
  ∀ instance_ ∈ instances, ∀ source, instance_.source = .Available source →
    ∃ artifact ∈ artifacts, artifact.id = source.artifact ∧ artifact.kind = .Source ∧
      source.range.end ≤ artifact.byte_len

/-- Where LLVM was collected, every placement is in one of its modules. -/
def PlacementsCollected (instances : List InstanceRecord) (llvm : LlvmCollection) : Prop :=
  ∀ modules, llvm = .Collected modules → ∀ instance_ ∈ instances, ∀ placement ∈ instance_.placements,
    placement.codegen_unit ∈ modules.map LlvmModuleRecord.compiler_module

theorem identities_nodup {instances : List InstanceRecord} (h : (instances.map instance_key).Nodup) :
    (instances.map InstanceRecord.identity).Nodup := by
  rw [List.Nodup, List.pairwise_map] at h ⊢
  refine h.imp fun hapart heq => hapart ?_
  obtain ⟨hdefinition, hrest⟩ := Prod.mk.inj heq
  obtain ⟨hdisplay, hsymbol⟩ := Prod.mk.inj hrest
  rw [instance_key, instance_key, hdefinition, hdisplay, hsymbol]

/-- What the decoder accepts declares source files under distinct IDs and modules with distinct
names, and has one instance for each identity. -/
theorem decoded_distinct {decoder : ManifestDecoder} {manifest : CompilerManifest} (h : decoder.read = .ok manifest) :
    (∀ artifact ∈ manifest.artifacts, artifact.kind = .Source) ∧ (manifest.artifacts.map ArtifactRecord.id).Nodup ∧
      (manifest.modules.map ExpectedModule.name).Nodup ∧ (manifest.instances.map InstanceRecord.identity).Nodup := by
  obtain ⟨settings, records, -, -, hrules, hgrouped⟩ := ManifestDecoder.read_grouped h
  refine ⟨?_, ?_, ?_, identities_nodup hgrouped.keys_nodup⟩
  · rw [hgrouped.artifacts]
    intro artifact hmem
    obtain ⟨file, -, rfl⟩ := List.mem_map.mp hmem
    rfl
  · have hids := hrules.record_rules.ids_distinct
    rw [hgrouped.artifacts, List.map_map]
    rw [List.Nodup, List.pairwise_map] at hids ⊢
    exact hids.imp fun hapart heq => hapart (ArtifactId.mk.inj heq)
  · rw [hgrouped.modules]
    exact hrules.record_rules.modules.names_distinct

theorem into_manifest_ok_iff {evidence : CollectedEvidence} {capture_id : CaptureId} :
    (∃ durable, evidence.into_manifest capture_id = .ok durable) ↔
      records.validate_manifest evidence.instances evidence.artifacts evidence.provenance evidence.llvm = .ok () := by
  rw [validate_manifest_eq_ok_iff]
  exact InstanceManifest.new_ok_iff

theorem into_manifest_error {evidence : CollectedEvidence} {capture_id : CaptureId} {error : records.Error}
    (h : evidence.into_manifest capture_id = .error error) :
    records.validate_manifest evidence.instances evidence.artifacts evidence.provenance evidence.llvm = .error error := by
  cases hchecks : records.validate_manifest evidence.instances evidence.artifacts evidence.provenance evidence.llvm with
  | ok =>
    obtain ⟨durable, hdurable⟩ := into_manifest_ok_iff.mpr hchecks
    rw [hdurable] at h
    cases h
  | error other =>
    rw [CollectedEvidence.into_manifest, InstanceManifest.new, proven_error hchecks] at h
    cases h
    rfl

/-- What collection returns fits the durable contract: of all the checks of a manifest, only
those of the sources and of the placements can still reject it. -/
theorem collect_fits (decoder : ManifestDecoder) (manifest : CompilerManifest) (hread : decoder.read = .ok manifest)
    (system : System) (compiler : CompilerIdentity) (directory : PathBuf) (files files' : Files)
    (evidence : CollectedEvidence) (hcollect : collect system manifest compiler directory files = .ok (evidence, files'))
    (capture_id : CaptureId) :
    ((∃ durable, evidence.into_manifest capture_id = .ok durable) ↔
      SourcesDeclared manifest.artifacts evidence.instances ∧ PlacementsCollected evidence.instances evidence.llvm) ∧
    ∀ error, evidence.into_manifest capture_id = .error error →
      (∃ instance_ ∈ evidence.instances, validate_source evidence.artifacts instance_ = .error error) ∨
        validate_placements evidence.instances evidence.llvm = .error error := by
  obtain ⟨hsources, hartifacts, hnames, hidentities⟩ := decoded_distinct hread
  obtain ⟨hinstances, hevidence⟩ := collect_materializes hcollect hartifacts
  rw [← hinstances] at hidentities
  have hchecks := hevidence.validate_manifest hsources hnames
  constructor
  · rw [into_manifest_ok_iff, hchecks, unit_bind_eq_ok_iff, validate_instances, each_distinct_key_eq_ok_iff,
      and_iff_left hidentities, validate_placements_eq_ok_iff]
    simp only [validate_source_eq_ok_iff, hevidence.declared_iff, SourcesDeclared, PlacementsCollected]
  · intro error herror
    have herror := into_manifest_error herror
    rw [hchecks] at herror
    obtain herror | herror := unit_bind_eq_error herror
    · exact Or.inl (each_distinct_key_error herror hidentities)
    · exact Or.inr herror

/-- A file that is read without a failure. -/
def RegularFile.of_bytes (bytes : List UInt8) (fits : bytes.length < UInt64.size) : RegularFile where
  bytes
  opened := .ok (llvm_index.Reader.of_slice bytes)
  fits
  delivers _ h := Except.ok.inj h ▸ (llvm_index.Reader.slices_spec bytes.length bytes (Nat.le_refl _)).2.1
  whole _ h _ := Except.ok.inj h ▸ (llvm_index.Reader.slices_spec bytes.length bytes (Nat.le_refl _)).1

namespace fixture

/-- The instance of an attempt with one source file and one module. -/
def placement : protocol.Placement where
  key := ⟨"fixture", "fixture::answer", "fixture::answer", "answer"⟩
  codegen_unit := "fixture.0"
  linkage := "external"
  visibility := "default"
  local_copy := false
  size_estimate := 4
  source := .Available 7 0 15 "src/lib.rs" 1

def settings : protocol.Configuration :=
  ⟨"llvm", "x86_64-unknown-linux-gnu", "3", .Off, false, false, 16, LLVM_SUPPORTED⟩

def records : List Record := [.Placement placement, .SourceFile 7 15, .Module "fixture.0" "/attempt/llvm/fixture.0.bc"]

def decoder : ManifestDecoder := ⟨⟨"/attempt/manifest"⟩, encode "marker" settings records, none, "marker"⟩

def source : ArtifactRecord := ⟨⟨7⟩, .Source, 15⟩

def module : ExpectedModule := ⟨"fixture.0", ⟨"/attempt/llvm/fixture.0.bc"⟩⟩

def manifest (instance_ : InstanceRecord) : CompilerManifest where
  instances := [instance_]
  artifacts := [source]
  configuration := ⟨"llvm", "x86_64-unknown-linux-gnu", "3", .Off, false, false, 16, none⟩
  modules := [module]

theorem read : ∃ instance_, decoder.read = .ok (manifest instance_) ∧
    (∀ source, instance_.source = .Available source → source.artifact = ⟨7⟩ ∧ source.range.end = 15) ∧
    ∀ placement ∈ instance_.placements, placement.codegen_unit = "fixture.0" := by
  let instance_ : InstanceRecord := {
    definition := ⟨"fixture", "fixture::answer", by decide, by decide⟩
    display_name := "fixture::answer"
    raw_symbol := "answer"
    placements := [⟨"fixture.0", "external", "default", false, 4, by decide, by decide, by decide⟩]
    source := .Available ⟨⟨7⟩, ⟨0, 15, by decide⟩, ⟨"src/lib.rs"⟩, 1, by decide, by decide⟩
    display_named := by decide
    symbol_named := by decide
    placed := List.cons_ne_nil _ _
    units_distinct := List.nodup_singleton _ }
  have himmediate : Immediate decoder.path module.path :=
    ⟨[.RootDir, .Normal (text "attempt")], by decide, by decide, by decide⟩
  have hplacements : placements_of records = [placement] := rfl
  have hrules : ProtocolRules decoder.path settings records := {
    support_known := ⟨none, rfl⟩
    record_rules := {
      placements := by
        rw [hplacements]
        refine ⟨by decide, List.forall_mem_singleton.mpr ?_, by simp⟩
        exact ⟨by decide, by decide, by decide⟩
      ids_distinct := by decide
      modules := ⟨fun _ => rfl, by decide, List.forall_mem_singleton.mpr himmediate, by decide, by decide⟩ }
    instance_rules := by
      rw [hplacements]
      refine ⟨by decide, fun key => ?_⟩
      exact List.Nodup.sublist (List.filter_sublist.map _) (List.nodup_singleton _) }
  have hspellable : Spellable "marker" settings records := ⟨by decide, by decide, by decide⟩
  obtain ⟨decoded, hread⟩ := ManifestDecoder.exists_read rfl hspellable rfl hrules
  obtain ⟨settings', records', hspellable', hreader, -, hgrouped⟩ := ManifestDecoder.read_grouped hread
  obtain ⟨rfl, rfl, -⟩ := encode_delimited hspellable hspellable' (congrArg (· ++ []) hreader)
  have hmanifest : Grouped settings records (manifest instance_) := {
    configuration := ⟨rfl, rfl, rfl, rfl, rfl, rfl, rfl, rfl⟩
    artifacts := rfl
    modules := rfl
    ascending := List.pairwise_singleton _ _
    keys := fun key => Iff.rfl
    placements := List.forall_mem_singleton.mpr (.cons ⟨rfl, rfl, rfl, rfl, rfl⟩ .nil)
    sources := List.forall_mem_singleton.mpr (by
      rintro first ⟨⟩
      exact ⟨rfl, rfl, rfl, rfl, rfl⟩) }
  refine ⟨instance_, ?_, ?_, List.forall_mem_singleton.mpr rfl⟩
  · rw [hread, hgrouped.unique hmanifest]
  · rintro source ⟨⟩
    exact ⟨rfl, rfl⟩

def identity : CompilerIdentity where
  rustc := ⟨"/toolchain/bin/rustc"⟩
  release := "1.98.1"
  commit_hash := "c0ffee"
  host := "x86_64-unknown-linux-gnu"
  sysroot := ⟨"/toolchain"⟩
  valid := by decide

def disassembler : PathBuf := ⟨"/toolchain/lib/rustlib/x86_64-unknown-linux-gnu/bin/llvm-dis"⟩

/-- The files that the driver leaves. -/
def files : Files where
  symlink_metadata path :=
    if path.text = "/attempt/artifact-0000000000000007" then .ok (.file (.of_bytes (text "pub fn answer()") (by decide)))
    else if path.text = "/attempt/llvm/fixture.0.bc" then .ok (.file (.of_bytes (text "BC") (by decide)))
    else .error ⟨.NotFound, "no such file"⟩
  is_file path := path.text = disassembler.text

/-- The files with a disassembled module at a path. -/
def disassembled (path : String) (files : Files) : Files where
  symlink_metadata other :=
    if other.text = path then .ok (.file (.of_bytes (text "@answer = alias i8, ptr @b\n") (by decide)))
    else files.symlink_metadata other
  is_file := files.is_file

def system : System := fun command files =>
  match command.args with
  | ["-vV"] => (.ok ⟨⟨true, ""⟩, text "host: x86_64-unknown-linux-gnu\nLLVM version: 22.1.8\n", []⟩, files)
  | ["--version"] => (.ok ⟨⟨true, ""⟩, text "  LLVM version 22.1.8-rust-1.98.1-stable\n", []⟩, files)
  | [_, _, path] => (.ok ⟨⟨true, ""⟩, [], []⟩, disassembled path files)
  | _ => (.error ⟨.NotFound, "no such program"⟩, files)

def materialized (record : LlvmModuleRecord) : Materialized where
  modules := [record]
  artifacts := [source, ⟨⟨8⟩, .Llvm, 27⟩]
  next_id := 9
  files := disassembled "/attempt/artifact-0000000000000008" files

theorem collected_module : ∃ record, record.compiler_module = "fixture.0" ∧
    collect_module system disassembler ⟨"/attempt"⟩ .NoLtoOptimized ⟨[], [source], 8, files⟩ module =
      .ok (materialized record) := by
  let definition : LlvmDefinitionRecord :=
    ⟨"answer", ⟨0, 27, by decide⟩, .DirectAlias "b", by decide, show "b" ≠ "" by decide⟩
  have hindex : llvm_index.index (llvm_index.Reader.of_slice (text "@answer = alias i8, ptr @b\n")) = .ok [definition] := by
    change llvm_index.index_bytes _ = _
    rw [llvm_index.index_bytes_eq_contiguous]
    rfl
  have hpath : (⟨"/attempt"⟩ : PathBuf).join (ArtifactRecord.file_name ⟨⟨8⟩, .Llvm, 0⟩) =
    ⟨"/attempt/artifact-0000000000000008"⟩ := by decide
  have hsteps : collect_module system disassembler ⟨"/attempt"⟩ .NoLtoOptimized ⟨[], [source], 8, files⟩ module =
      ((llvm_index.index (llvm_index.Reader.of_slice (text "@answer = alias i8, ptr @b\n"))).mapError
        (index_error ⟨"/attempt/artifact-0000000000000008"⟩) >>= fun definitions =>
          (LlvmModuleRecord.new ⟨8⟩ "fixture.0" .NoLtoOptimized definitions).mapError .Record >>= fun record =>
            pure (materialized record)) := by
    simp only [collect_module, hpath]
    rfl
  refine ⟨⟨⟨8⟩, "fixture.0", .NoLtoOptimized, [definition], by decide, List.nodup_singleton _⟩, rfl, ?_⟩
  rw [hsteps, hindex]
  rfl

theorem collected (instance_ : InstanceRecord) : ∃ evidence files' record, record.compiler_module = "fixture.0" ∧
    evidence.instances = [instance_] ∧ evidence.llvm = .Collected [record] ∧
    collect system (manifest instance_) identity ⟨"/attempt"⟩ files = .ok (evidence, files') := by
  obtain ⟨record, hname, hrecord⟩ := collected_module
  let provenance : LlvmProvenance := ⟨"llvm", some "22.1.8", "x86_64-unknown-linux-gnu", "3", .Off, false, false, 16, 1,
    by decide, by decide, by decide, by decide, by decide⟩
  have hversion : compiler_version system identity "llvm" files = .ok (some "22.1.8", files) := rfl
  have hprovenance : (LlvmProvenance.new "llvm" (some "22.1.8") "x86_64-unknown-linux-gnu" "3" .Off false false 16
    LLVM_RECIPE_REVISION).mapError .Record = (.ok provenance : Except Error _) := rfl
  have hpath : (⟨"/attempt"⟩ : PathBuf).join source.file_name = ⟨"/attempt/artifact-0000000000000007"⟩ := by decide
  have hsource : check_source ⟨"/attempt"⟩ files source = .ok () := by
    rw [check_source, hpath]
    rfl
  have hmodules : collect_modules system [module] identity ⟨"/attempt"⟩ provenance [source] files =
      collect_module system disassembler ⟨"/attempt"⟩ .NoLtoOptimized ⟨[], [source], 8, files⟩ module >>= pure := rfl
  have hsteps : collect system (manifest instance_) identity ⟨"/attempt"⟩ files =
      compiler_version system identity "llvm" files >>= fun version =>
        (LlvmProvenance.new "llvm" version.1 "x86_64-unknown-linux-gnu" "3" .Off false false 16 LLVM_RECIPE_REVISION).mapError
          .Record >>= fun provenance => check_source ⟨"/attempt"⟩ files source >>= fun _ =>
            collect_modules system [module] identity ⟨"/attempt"⟩ provenance [source] version.2 >>= fun result =>
              pure ({ instances := [instance_], artifacts := result.artifacts, provenance,
                      llvm := .Collected result.modules }, result.files) := rfl
  rw [hrecord] at hmodules
  refine ⟨⟨[instance_], (materialized record).artifacts, provenance, .Collected [record]⟩, (materialized record).files,
    record, hname, rfl, rfl, ?_⟩
  rw [hsteps, hversion, ok_bind, hprovenance, ok_bind, hsource, ok_bind, hmodules]
  rfl

end fixture

/-- The evidence of an attempt makes a durable manifest. -/
theorem collect_fits_fixture : ∃ manifest evidence files' durable, fixture.decoder.read = .ok manifest ∧
    collect fixture.system manifest fixture.identity ⟨"/attempt"⟩ fixture.files = .ok (evidence, files') ∧
    evidence.into_manifest ⟨"kkkkkkkkkkkkkkkkkkkkkkkkkkkkkkkk", by decide⟩ = .ok durable := by
  obtain ⟨instance_, hread, hsource, hplacements⟩ := fixture.read
  obtain ⟨evidence, files', record, hname, hinstances, hllvm, hcollect⟩ := fixture.collected instance_
  have hfits := collect_fits fixture.decoder _ hread fixture.system fixture.identity ⟨"/attempt"⟩ fixture.files files'
    evidence hcollect ⟨"kkkkkkkkkkkkkkkkkkkkkkkkkkkkkkkk", by decide⟩
  obtain ⟨durable, hdurable⟩ := hfits.1.mpr (by
    rw [hinstances, hllvm]
    refine ⟨List.forall_mem_singleton.mpr fun source havailable => ?_, ?_⟩
    · obtain ⟨hartifact, hend⟩ := hsource source havailable
      exact ⟨fixture.source, List.mem_singleton_self _, hartifact.symm, rfl, hend ▸ UInt64.le_refl _⟩
    · rintro modules ⟨⟩
      refine List.forall_mem_singleton.mpr fun placement hplacement => ?_
      rw [hplacements placement hplacement, ← hname]
      exact List.mem_singleton_self _)
  exact ⟨_, evidence, files', durable, hread, hcollect, hdurable⟩

end optic.compiler.collector
