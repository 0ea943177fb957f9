import Optic.Records.Instance
import Optic.Records.Module

open rust

namespace optic.records

/-- Looks an artifact up in the table that a manifest declares. -/
def artifact_of (artifacts : List ArtifactRecord) (id : ArtifactId) : Option ArtifactRecord :=
  artifacts.find? fun artifact => artifact.id = id

theorem artifact_of_eq_some {artifacts : List ArtifactRecord} {id : ArtifactId} {artifact : ArtifactRecord}
    (h : artifact_of artifacts id = some artifact) : artifact ∈ artifacts ∧ artifact.id = id :=
  ⟨List.mem_of_find?_eq_some h, by simpa using List.find?_some h⟩

/-- Where IDs are distinct, a declared artifact is found by its own. -/
theorem artifact_of_mem {artifacts : List ArtifactRecord} (hdistinct : (artifacts.map ArtifactRecord.id).Nodup)
    {artifact : ArtifactRecord} (h : artifact ∈ artifacts) : artifact_of artifacts artifact.id = some artifact := by
  induction artifacts with
  | nil => cases h
  | cons first artifacts ih =>
    rw [List.map_cons, List.nodup_cons] at hdistinct
    rw [artifact_of, List.find?_cons]
    rcases List.mem_cons.mp h with rfl | hrest
    · simp
    · have hne : first.id ≠ artifact.id := fun heq => hdistinct.1 (heq ▸ List.mem_map_of_mem hrest)
      have hfound := ih hdistinct.2 hrest
      rw [artifact_of] at hfound
      simpa [hne] using hfound

/-- The artifact table, which rejects a repeated ID. -/
def require_artifacts (artifacts : List ArtifactRecord) : Except Error Unit :=
  each_distinct (same_key ArtifactRecord.id)
    (fun artifact => .InvalidField "artifact table" s!"duplicate artifact {artifact.id.value}") (fun _ => .ok ())
    [] artifacts

def validate_artifact_range (artifacts : List ArtifactRecord) (id : ArtifactId) (kind : ArtifactKind)
    (range : ByteRange) : Except Error Unit := do
  let artifact ← ok_or (artifact_of artifacts id) (.InvalidField "artifact reference" s!"unknown artifact {id.value}")
  ensure (!(artifact.kind ≠ kind || range.end > artifact.byte_len))
    (.InvalidField "artifact range" s!"wrong kind or range past artifact {id.value} length {artifact.byte_len}")

/-- A range lies within a declared artifact of a kind. -/
def Declared (artifacts : List ArtifactRecord) (id : ArtifactId) (kind : ArtifactKind) (range : ByteRange) : Prop :=
  ∃ artifact, artifact_of artifacts id = some artifact ∧ artifact.kind = kind ∧ range.end ≤ artifact.byte_len

theorem validate_artifact_range_eq_ok_iff {artifacts : List ArtifactRecord} {id : ArtifactId} {kind : ArtifactKind}
    {range : ByteRange} : validate_artifact_range artifacts id kind range = .ok () ↔ Declared artifacts id kind range := by
  rw [validate_artifact_range, bind_eq_ok_iff, Declared]
  refine exists_congr fun artifact => ?_
  rw [ok_or_eq_ok_iff, ensure_eq_ok_iff]
  simp

/-- What tells the instances of a capture apart. -/
def InstanceRecord.identity (self : InstanceRecord) : DefinitionRecord × String × String :=
  (self.definition, self.display_name, self.raw_symbol)

/-- Checks the artifact range of an instance whose source is available. -/
def validate_source (artifacts : List ArtifactRecord) (instance_ : InstanceRecord) : Except Error Unit :=
  match instance_.source with
  | .Available source => validate_artifact_range artifacts source.artifact .Source source.range
  | .Unavailable _ => .ok ()

/-- The instance identities, and the source range of each instance. -/
def validate_instances (artifacts : List ArtifactRecord) (instances : List InstanceRecord) : Except Error Unit :=
  each_distinct (same_key InstanceRecord.identity)
    (fun instance_ => .InvalidField "instance manifest" s!"a duplicate instance ({instance_.display_name})")
    (validate_source artifacts) [] instances

/-- Whether collected modules are possible under a configuration. -/
def LlvmProvenance.supported (self : LlvmProvenance) : Bool :=
  !(self.backend ≠ "llvm" || self.llvm_version.isNone || self.incremental || self.linker_plugin_lto ||
    !(self.lto = .Off || self.lto = .LocalThin))

def validate_configuration (provenance : LlvmProvenance) (llvm : LlvmCollection) : Except Error Unit :=
  match llvm with
  | .NotCaptured _ => .ok ()
  | .Collected _ => ensure provenance.supported
      (.InvalidField "LLVM collection" "collected modules with an unsupported configuration")

/-- The stage that each supported LTO mode leads to. -/
def LlvmStage.agrees (stage : LlvmStage) (lto : LlvmLto) : Bool :=
  match stage, lto with
  | .NoLtoOptimized, .Off | .LocalThinLtoPostPassManager, .LocalThin => true
  | _, _ => false

/-- Modules conflict in their identity or their artifact. -/
def same_module (a b : LlvmModuleRecord) : Bool :=
  same_key LlvmModuleRecord.compiler_module a b || same_key LlvmModuleRecord.artifact a b

/-- The empty range that a module's artifact is looked up with. -/
def empty_range : ByteRange := ⟨0, 0, by decide⟩

/-- Checks the ranges of a module's definitions. -/
def validate_definitions (artifacts : List ArtifactRecord) (artifact : ArtifactId) :
    List LlvmDefinitionRecord → Except Error Unit
  | [] => .ok ()
  | definition :: definitions => do
    validate_artifact_range artifacts artifact .Llvm definition.range
    validate_definitions artifacts artifact definitions

def validate_module (artifacts : List ArtifactRecord) (provenance : LlvmProvenance) (module : LlvmModuleRecord) :
    Except Error Unit := do
  ensure (module.stage.agrees provenance.lto)
    (.InvalidField "LLVM module stage" "a stage that disagrees with effective LTO")
  validate_artifact_range artifacts module.artifact .Llvm empty_range
  validate_definitions artifacts module.artifact module.definitions

def validate_modules (artifacts : List ArtifactRecord) (provenance : LlvmProvenance) (modules : List LlvmModuleRecord) :
    Except Error Unit :=
  each_distinct same_module (fun _ => .InvalidField "LLVM modules" "duplicate module identity or artifact")
    (validate_module artifacts provenance) [] modules

/-- A placement whose codegen unit is not among the collected modules. -/
def missing_placement (instances : List InstanceRecord) (modules : List LlvmModuleRecord) : Option PlacementRecord :=
  (instances.flatMap InstanceRecord.placements).find? fun placement =>
    placement.codegen_unit ∉ modules.map LlvmModuleRecord.compiler_module

def reject_missing (missing : Option PlacementRecord) : Except Error Unit :=
  match missing with
  | some placement =>
    .error (.InvalidField "LLVM modules" s!"missing module for placement {placement.codegen_unit}")
  | none => .ok ()

def validate_placements (instances : List InstanceRecord) (llvm : LlvmCollection) : Except Error Unit :=
  match llvm with
  | .NotCaptured _ => .ok ()
  | .Collected modules => reject_missing (missing_placement instances modules)

/-- Rejects an LLVM artifact that no module owns. -/
def validate_orphans (artifacts : List ArtifactRecord) (modules : List LlvmModuleRecord) : Except Error Unit :=
  ensure (artifacts.all fun artifact => artifact.kind ≠ .Llvm || artifact.id ∈ modules.map LlvmModuleRecord.artifact)
    (.InvalidField "LLVM artifact" "an artifact without a collected module")

def validate_llvm (instances : List InstanceRecord) (artifacts : List ArtifactRecord) (provenance : LlvmProvenance)
    (llvm : LlvmCollection) : Except Error Unit := do
  validate_configuration provenance llvm
  validate_modules artifacts provenance llvm.modules
  validate_placements instances llvm
  validate_orphans artifacts llvm.modules

/-- The checks of a manifest, in the order of its constructor. -/
def validate_manifest (instances : List InstanceRecord) (artifacts : List ArtifactRecord)
    (provenance : LlvmProvenance) (llvm : LlvmCollection) : Except Error Unit := do
  require_artifacts artifacts
  validate_instances artifacts instances
  validate_llvm instances artifacts provenance llvm

/-- A record graph without contradictions: what a manifest guarantees its readers. -/
structure Consistent (instances : List InstanceRecord) (artifacts : List ArtifactRecord)
    (provenance : LlvmProvenance) (llvm : LlvmCollection) : Prop where
  artifacts_distinct : (artifacts.map ArtifactRecord.id).Nodup
  instances_distinct : (instances.map InstanceRecord.identity).Nodup
  sources : ∀ instance_ ∈ instances, ∀ source, instance_.source = .Available source →
    Declared artifacts source.artifact .Source source.range
  supported : ∀ modules, llvm = .Collected modules → provenance.supported = true
  modules_distinct : (llvm.modules.map LlvmModuleRecord.compiler_module).Nodup
  module_artifacts_distinct : (llvm.modules.map LlvmModuleRecord.artifact).Nodup
  stages : ∀ module ∈ llvm.modules, module.stage.agrees provenance.lto = true
  module_artifacts : ∀ module ∈ llvm.modules, Declared artifacts module.artifact .Llvm empty_range
  definitions : ∀ module ∈ llvm.modules, ∀ definition ∈ module.definitions,
    Declared artifacts module.artifact .Llvm definition.range
  placements : ∀ modules, llvm = .Collected modules → ∀ instance_ ∈ instances, ∀ placement ∈ instance_.placements,
    placement.codegen_unit ∈ modules.map LlvmModuleRecord.compiler_module
  owned : ∀ artifact ∈ artifacts, artifact.kind = .Llvm → artifact.id ∈ llvm.modules.map LlvmModuleRecord.artifact

theorem require_artifacts_eq_ok_iff {artifacts : List ArtifactRecord} :
    require_artifacts artifacts = .ok () ↔ (artifacts.map ArtifactRecord.id).Nodup := by
  rw [require_artifacts, each_distinct_key_eq_ok_iff]
  exact and_iff_right fun _ _ => rfl

theorem validate_source_eq_ok_iff {artifacts : List ArtifactRecord} {instance_ : InstanceRecord} :
    validate_source artifacts instance_ = .ok () ↔ ∀ source, instance_.source = .Available source →
      Declared artifacts source.artifact .Source source.range := by
  unfold validate_source
  cases instance_.source with
  | Available source =>
    rw [validate_artifact_range_eq_ok_iff]
    constructor
    · rintro h _ ⟨⟩
      exact h
    · exact fun h => h source rfl
  | Unavailable reason => exact ⟨nofun, fun _ => rfl⟩

theorem validate_configuration_eq_ok_iff {provenance : LlvmProvenance} {llvm : LlvmCollection} :
    validate_configuration provenance llvm = .ok () ↔ ∀ modules, llvm = .Collected modules → provenance.supported = true := by
  unfold validate_configuration
  cases llvm with
  | Collected modules =>
    rw [ensure_eq_ok_iff]
    exact ⟨fun h _ _ => h, fun h => h modules rfl⟩
  | NotCaptured reason => exact ⟨by rintro - _ ⟨⟩, fun _ => rfl⟩

theorem validate_definitions_eq_ok_iff {artifacts : List ArtifactRecord} {artifact : ArtifactId}
    {definitions : List LlvmDefinitionRecord} : validate_definitions artifacts artifact definitions = .ok () ↔
      ∀ definition ∈ definitions, Declared artifacts artifact .Llvm definition.range := by
  induction definitions with
  | nil => exact ⟨nofun, fun _ => rfl⟩
  | cons definition definitions ih =>
    rw [validate_definitions, bind_eq_ok_iff, List.forall_mem_cons, ← ih, ← validate_artifact_range_eq_ok_iff]
    exact ⟨fun ⟨_, h, h'⟩ => ⟨h, h'⟩, fun ⟨h, h'⟩ => ⟨(), h, h'⟩⟩

theorem validate_module_eq_ok_iff {artifacts : List ArtifactRecord} {provenance : LlvmProvenance}
    {module : LlvmModuleRecord} : validate_module artifacts provenance module = .ok () ↔
      module.stage.agrees provenance.lto = true ∧ Declared artifacts module.artifact .Llvm empty_range ∧
        ∀ definition ∈ module.definitions, Declared artifacts module.artifact .Llvm definition.range := by
  rw [validate_module, bind_eq_ok_iff, ← validate_artifact_range_eq_ok_iff, ← validate_definitions_eq_ok_iff]
  simp only [ensure_eq_ok_iff, bind_eq_ok_iff]
  constructor
  · rintro ⟨_, h, _, h', h''⟩
    exact ⟨h, h', h''⟩
  · rintro ⟨h, h', h''⟩
    exact ⟨(), h, (), h', h''⟩

theorem validate_modules_eq_ok_iff {artifacts : List ArtifactRecord} {provenance : LlvmProvenance}
    {modules : List LlvmModuleRecord} : validate_modules artifacts provenance modules = .ok () ↔
      (∀ module ∈ modules, validate_module artifacts provenance module = .ok ()) ∧
        (modules.map LlvmModuleRecord.compiler_module).Nodup ∧ (modules.map LlvmModuleRecord.artifact).Nodup := by
  rw [validate_modules, each_distinct_eq_ok_iff, ← pairwise_same_key_iff, ← pairwise_same_key_iff, ← List.pairwise_and_iff]
  simp [same_module]

theorem reject_missing_eq_ok_iff {missing : Option PlacementRecord} : reject_missing missing = .ok () ↔ missing = none := by
  cases missing <;> simp [reject_missing]

theorem validate_placements_eq_ok_iff {instances : List InstanceRecord} {llvm : LlvmCollection} :
    validate_placements instances llvm = .ok () ↔ ∀ modules, llvm = .Collected modules → ∀ instance_ ∈ instances,
      ∀ placement ∈ instance_.placements, placement.codegen_unit ∈ modules.map LlvmModuleRecord.compiler_module := by
  unfold validate_placements
  cases llvm with
  | Collected modules =>
    simp only [reject_missing_eq_ok_iff, missing_placement, List.find?_eq_none, List.mem_flatMap, decide_eq_true_eq,
      not_not]
    constructor
    · rintro h _ ⟨⟩ instance_ hinstance placement hplacement
      exact h placement ⟨instance_, hinstance, hplacement⟩
    · rintro h placement ⟨instance_, hinstance, hplacement⟩
      exact h modules rfl instance_ hinstance placement hplacement
  | NotCaptured reason => exact ⟨by rintro - _ ⟨⟩, fun _ => rfl⟩

theorem validate_orphans_eq_ok_iff {artifacts : List ArtifactRecord} {modules : List LlvmModuleRecord} :
    validate_orphans artifacts modules = .ok () ↔ ∀ artifact ∈ artifacts, artifact.kind = .Llvm →
      artifact.id ∈ modules.map LlvmModuleRecord.artifact := by
  rw [validate_orphans, ensure_eq_ok_iff, List.all_eq_true]
  refine forall₂_congr fun artifact _ => ?_
  simp only [ne_eq, decide_not, Bool.or_eq_true, Bool.not_eq_true', decide_eq_false_iff_not, decide_eq_true_eq]
  exact ⟨fun h hkind => h.resolve_left (not_not_intro hkind), fun h => or_iff_not_imp_left.mpr fun hkind => h (not_not.mp hkind)⟩

/-- The constructor's checks pass exactly on the consistent record graphs. -/
theorem validate_manifest_eq_ok_iff {instances : List InstanceRecord} {artifacts : List ArtifactRecord}
    {provenance : LlvmProvenance} {llvm : LlvmCollection} :
    validate_manifest instances artifacts provenance llvm = .ok () ↔ Consistent instances artifacts provenance llvm := by
  have hinstances : validate_instances artifacts instances = .ok () ↔
      (∀ instance_ ∈ instances, validate_source artifacts instance_ = .ok ()) ∧
        (instances.map InstanceRecord.identity).Nodup := each_distinct_key_eq_ok_iff
  simp only [validate_manifest, validate_llvm, unit_bind_eq_ok_iff, require_artifacts_eq_ok_iff, hinstances,
    validate_configuration_eq_ok_iff, validate_modules_eq_ok_iff, validate_placements_eq_ok_iff,
    validate_orphans_eq_ok_iff, validate_source_eq_ok_iff, validate_module_eq_ok_iff]
  constructor
  · rintro ⟨hartifacts, ⟨hsources, hinstances⟩, hsupported, ⟨hmodules, hnames, hfiles⟩, hplacements, howned⟩
    exact ⟨hartifacts, hinstances, hsources, hsupported, hnames, hfiles, fun module h => (hmodules module h).1,
      fun module h => (hmodules module h).2.1, fun module h => (hmodules module h).2.2, hplacements, howned⟩
  · rintro ⟨hartifacts, hinstances, hsources, hsupported, hnames, hfiles, hstages, hdeclared, hranges, hplacements, howned⟩
    exact ⟨hartifacts, ⟨hsources, hinstances⟩, hsupported,
      ⟨fun module h => ⟨hstages module h, hdeclared module h, hranges module h⟩, hnames, hfiles⟩, hplacements, howned⟩

/-- Every concrete compiler instance collected for one capture. -/
structure InstanceManifest where
  capture_id : CaptureId
  instances : List InstanceRecord
  artifacts : List ArtifactRecord
  llvm_provenance : LlvmProvenance
  llvm : LlvmCollection
  format_version : UInt32 := CAPTURE_FORMAT_VERSION
  consistent : Consistent instances artifacts llvm_provenance llvm
  current : format_version = CAPTURE_FORMAT_VERSION

def InstanceManifest.new (capture_id : CaptureId) (instances : List InstanceRecord) (artifacts : List ArtifactRecord)
    (llvm_provenance : LlvmProvenance) (llvm : LlvmCollection) : Except Error InstanceManifest := do
  let ⟨valid⟩ ← proven (validate_manifest instances artifacts llvm_provenance llvm)
  return { capture_id, instances, artifacts, llvm_provenance, llvm,
           consistent := validate_manifest_eq_ok_iff.mp valid, current := rfl }

/-- The constructor accepts exactly the consistent record graphs. -/
theorem InstanceManifest.new_ok_iff {capture_id : CaptureId} {instances : List InstanceRecord}
    {artifacts : List ArtifactRecord} {llvm_provenance : LlvmProvenance} {llvm : LlvmCollection} :
    (∃ manifest, InstanceManifest.new capture_id instances artifacts llvm_provenance llvm = .ok manifest) ↔
      Consistent instances artifacts llvm_provenance llvm := by
  rw [← validate_manifest_eq_ok_iff]
  constructor
  · rintro ⟨manifest, h⟩
    rw [InstanceManifest.new, bind_eq_ok_iff] at h
    obtain ⟨⟨valid⟩, -, -⟩ := h
    exact valid
  · intro valid
    rw [InstanceManifest.new, proven_ok valid]
    exact ⟨_, rfl⟩

end optic.records
