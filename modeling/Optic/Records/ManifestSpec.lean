import Mathlib.Data.List.Perm.Basic
import Optic.Records.Manifest

open rust

namespace optic.records

section

variable {α β : Type} {Same : α → α → Prop} {l l' : List α}

/-- The same elements in another order, each up to `Same`. -/
def ReorderedAll (Same : α → α → Prop) (l l' : List α) : Prop :=
  ∃ between, l.Perm between ∧ List.Forall₂ Same between l'

namespace ReorderedAll

theorem symm (hsame : ∀ a b, Same a b → Same b a) (h : ReorderedAll Same l l') : ReorderedAll Same l' l := by
  obtain ⟨between, hperm, hpairs⟩ := h
  obtain ⟨other, hpairs', hperm'⟩ := List.perm_comp_forall₂ hperm hpairs
  exact ⟨other, hperm'.symm, hpairs'.flip.imp fun a b h => hsame b a h⟩

theorem map_perm {f : α → β} (hf : ∀ a b, Same a b → f b = f a) (h : ReorderedAll Same l l') :
    (l.map f).Perm (l'.map f) := by
  obtain ⟨between, hperm, hpairs⟩ := h
  have hmap : between.map f = l'.map f := by
    clear hperm
    induction hpairs with
    | nil => rfl
    | cons hsame _ ih => rw [List.map_cons, List.map_cons, hf _ _ hsame, ih]
  rw [← hmap]
  exact hperm.map f

theorem exists_mem {b : α} (h : ReorderedAll Same l l') (hb : b ∈ l') : ∃ a ∈ l, Same a b := by
  obtain ⟨between, hperm, hpairs⟩ := h
  simp only [hperm.mem_iff]
  clear hperm
  induction hpairs with
  | nil => cases hb
  | @cons a first between l' hsame _ ih =>
    rcases List.mem_cons.mp hb with rfl | hrest
    · exact ⟨a, List.mem_cons_self, hsame⟩
    · obtain ⟨c, hc, hsame'⟩ := ih hrest
      exact ⟨c, List.mem_cons_of_mem a hc, hsame'⟩

/-- What `Same` elements share, the elements of both lists have. -/
theorem exists_iff {P : α → Prop} (hsymm : ∀ a b, Same a b → Same b a) (hP : ∀ a b, Same a b → P b → P a)
    (h : ReorderedAll Same l l') : (∃ a ∈ l', P a) ↔ ∃ a ∈ l, P a := by
  constructor
  · rintro ⟨b, hb, hPb⟩
    obtain ⟨a, ha, hsame⟩ := h.exists_mem hb
    exact ⟨a, ha, hP a b hsame hPb⟩
  · rintro ⟨a, ha, hPa⟩
    obtain ⟨b, hb, hsame⟩ := (h.symm hsymm).exists_mem ha
    exact ⟨b, hb, hP b a hsame hPa⟩

end ReorderedAll

end

/-- The same module with its definitions in another order. -/
structure LlvmModuleRecord.Reordered (module module' : LlvmModuleRecord) : Prop where
  artifact : module'.artifact = module.artifact
  compiler_module : module'.compiler_module = module.compiler_module
  stage : module'.stage = module.stage
  definitions : module.definitions.Perm module'.definitions

theorem LlvmModuleRecord.Reordered.symm {module module' : LlvmModuleRecord} (h : module.Reordered module') :
    module'.Reordered module :=
  ⟨h.artifact.symm, h.compiler_module.symm, h.stage.symm, h.definitions.symm⟩

/-- The same instance with its placements in another order. -/
structure InstanceRecord.Reordered (instance_ instance' : InstanceRecord) : Prop where
  definition : instance'.definition = instance_.definition
  display_name : instance'.display_name = instance_.display_name
  raw_symbol : instance'.raw_symbol = instance_.raw_symbol
  source : instance'.source = instance_.source
  placements : instance_.placements.Perm instance'.placements

theorem InstanceRecord.Reordered.symm {instance_ instance' : InstanceRecord} (h : instance_.Reordered instance') :
    instance'.Reordered instance_ :=
  ⟨h.definition.symm, h.display_name.symm, h.raw_symbol.symm, h.source.symm, h.placements.symm⟩

/-- The same collection with its modules and their definitions in another order. -/
inductive LlvmCollection.Reordered : LlvmCollection → LlvmCollection → Prop where
  | collected {modules modules' : List LlvmModuleRecord} (h : ReorderedAll LlvmModuleRecord.Reordered modules modules') :
    Reordered (.Collected modules) (.Collected modules')
  | not_captured (reason : UnsupportedLlvmConfiguration) : Reordered (.NotCaptured reason) (.NotCaptured reason)

namespace LlvmCollection.Reordered

variable {llvm llvm' : LlvmCollection}

theorem symm (h : llvm.Reordered llvm') : llvm'.Reordered llvm := by
  cases h with
  | collected h => exact .collected (h.symm fun _ _ => LlvmModuleRecord.Reordered.symm)
  | not_captured reason => exact .not_captured reason

theorem modules (h : llvm.Reordered llvm') : ReorderedAll LlvmModuleRecord.Reordered llvm.modules llvm'.modules := by
  cases h with
  | collected h => exact h
  | not_captured reason => exact ⟨[], .nil, .nil⟩

end LlvmCollection.Reordered

/-- The stage of a module that an LTO mode leads to, for the modes that are collected. -/
def LlvmLto.stage : LlvmLto → Option LlvmStage
  | .Off => some .NoLtoOptimized
  | .LocalThin => some .LocalThinLtoPostPassManager
  | .CrossCrateThin | .Fat => none

theorem LlvmStage.agrees_iff {stage : LlvmStage} {lto : LlvmLto} : stage.agrees lto = true ↔ lto.stage = some stage := by
  cases stage <;> cases lto <;> decide

theorem LlvmProvenance.supported_iff {provenance : LlvmProvenance} : provenance.supported = true ↔
    provenance.backend = "llvm" ∧ provenance.llvm_version ≠ none ∧ provenance.incremental = false ∧
      provenance.linker_plugin_lto = false ∧ (provenance.lto = .Off ∨ provenance.lto = .LocalThin) := by
  simp [LlvmProvenance.supported, Option.isSome_iff_ne_none, and_assoc]

/-- A coherent record graph, without reference to how it is checked. -/
structure Coherent (instances : List InstanceRecord) (artifacts : List ArtifactRecord) (provenance : LlvmProvenance)
    (llvm : LlvmCollection) : Prop where
  artifacts_distinct : (artifacts.map ArtifactRecord.id).Nodup
  instances_distinct : (instances.map fun instance_ => (instance_.definition.crate_name,
    instance_.definition.definition_path, instance_.display_name, instance_.raw_symbol)).Nodup
  sources : ∀ instance_ ∈ instances, ∀ source, instance_.source = .Available source →
    ∃ artifact ∈ artifacts, artifact.id = source.artifact ∧ artifact.kind = .Source ∧
      source.range.end ≤ artifact.byte_len
  modules_distinct : (llvm.modules.map LlvmModuleRecord.compiler_module).Nodup
  module_artifacts_distinct : (llvm.modules.map LlvmModuleRecord.artifact).Nodup
  definitions : ∀ module ∈ llvm.modules, ∃ artifact ∈ artifacts, artifact.id = module.artifact ∧ artifact.kind = .Llvm ∧
    ∀ definition ∈ module.definitions, definition.range.end ≤ artifact.byte_len
  owned : ∀ artifact ∈ artifacts, artifact.kind = .Llvm → ∃ module ∈ llvm.modules, module.artifact = artifact.id
  configuration : ∀ modules, llvm = .Collected modules → provenance.backend = "llvm" ∧ provenance.llvm_version ≠ none ∧
    provenance.incremental = false ∧ provenance.linker_plugin_lto = false ∧
    (provenance.lto = .Off ∨ provenance.lto = .LocalThin)
  stages : ∀ modules, llvm = .Collected modules → ∀ module ∈ modules, provenance.lto.stage = some module.stage
  placements : ∀ modules, llvm = .Collected modules → ∀ instance_ ∈ instances, ∀ placement ∈ instance_.placements,
    ∃ module ∈ modules, module.compiler_module = placement.codegen_unit

variable {instances instances' : List InstanceRecord} {artifacts artifacts' : List ArtifactRecord}
  {provenance : LlvmProvenance} {llvm llvm' : LlvmCollection}

/-- In a table without duplicates, a lookup is membership. -/
theorem declared_iff (hdistinct : (artifacts.map ArtifactRecord.id).Nodup) {id : ArtifactId} {kind : ArtifactKind}
    {range : ByteRange} : Declared artifacts id kind range ↔
      ∃ artifact ∈ artifacts, artifact.id = id ∧ artifact.kind = kind ∧ range.end ≤ artifact.byte_len := by
  constructor
  · rintro ⟨artifact, hfound, hkind, hrange⟩
    obtain ⟨hmem, hid⟩ := artifact_of_eq_some hfound
    exact ⟨artifact, hmem, hid, hkind, hrange⟩
  · rintro ⟨artifact, hmem, rfl, hkind, hrange⟩
    exact ⟨artifact, artifact_of_mem hdistinct hmem, hkind, hrange⟩

theorem identities_nodup_iff : (instances.map InstanceRecord.identity).Nodup ↔ (instances.map fun instance_ =>
    (instance_.definition.crate_name, instance_.definition.definition_path, instance_.display_name,
      instance_.raw_symbol)).Nodup := by
  have hidentity : ∀ a b : InstanceRecord, a.identity = b.identity ↔
      (a.definition.crate_name, a.definition.definition_path, a.display_name, a.raw_symbol) =
        (b.definition.crate_name, b.definition.definition_path, b.display_name, b.raw_symbol) := by
    intro a b
    obtain ⟨⟨_, _, _, _⟩, _, _, _, _, _, _, _, _⟩ := a
    obtain ⟨⟨_, _, _, _⟩, _, _, _, _, _, _, _, _⟩ := b
    simp [InstanceRecord.identity, and_assoc]
  simp only [List.Nodup, List.pairwise_map, ne_eq, hidentity]

theorem consistent_iff_coherent : Consistent instances artifacts provenance llvm ↔
    Coherent instances artifacts provenance llvm := by
  constructor
  · intro h
    have hempty := h.module_artifacts
    exact {
      artifacts_distinct := h.artifacts_distinct
      instances_distinct := identities_nodup_iff.mp h.instances_distinct
      sources := fun instance_ hinstance source hsource =>
        (declared_iff h.artifacts_distinct).mp (h.sources instance_ hinstance source hsource)
      modules_distinct := h.modules_distinct
      module_artifacts_distinct := h.module_artifacts_distinct
      definitions := fun module hmodule => by
        obtain ⟨artifact, hfound, hkind, -⟩ := h.module_artifacts module hmodule
        obtain ⟨hmem, hid⟩ := artifact_of_eq_some hfound
        refine ⟨artifact, hmem, hid, hkind, fun definition hdefinition => ?_⟩
        obtain ⟨other, hother, -, hrange⟩ := h.definitions module hmodule definition hdefinition
        obtain rfl := Option.some.inj (hfound.symm.trans hother)
        exact hrange
      owned := fun artifact hartifact hkind => List.mem_map.mp (h.owned artifact hartifact hkind)
      configuration := fun modules hllvm => LlvmProvenance.supported_iff.mp (h.supported modules hllvm)
      stages := fun modules hllvm module hmodule => by
        apply LlvmStage.agrees_iff.mp (h.stages module _)
        rwa [hllvm]
      placements := fun modules hllvm instance_ hinstance placement hplacement =>
        List.mem_map.mp (h.placements modules hllvm instance_ hinstance placement hplacement) }
  · intro h
    have hdefinitions : ∀ module ∈ llvm.modules, ∃ artifact, artifact_of artifacts module.artifact = some artifact ∧
        artifact.kind = .Llvm ∧ ∀ definition ∈ module.definitions, definition.range.end ≤ artifact.byte_len := by
      intro module hmodule
      obtain ⟨artifact, hmem, hid, hkind, hranges⟩ := h.definitions module hmodule
      exact ⟨artifact, hid ▸ artifact_of_mem h.artifacts_distinct hmem, hkind, hranges⟩
    exact {
      artifacts_distinct := h.artifacts_distinct
      instances_distinct := identities_nodup_iff.mpr h.instances_distinct
      sources := fun instance_ hinstance source hsource =>
        (declared_iff h.artifacts_distinct).mpr (h.sources instance_ hinstance source hsource)
      supported := fun modules hllvm => LlvmProvenance.supported_iff.mpr (h.configuration modules hllvm)
      modules_distinct := h.modules_distinct
      module_artifacts_distinct := h.module_artifacts_distinct
      stages := fun module hmodule => by
        cases llvm with
        | Collected modules => exact LlvmStage.agrees_iff.mpr (h.stages modules rfl module hmodule)
        | NotCaptured reason => cases hmodule
      module_artifacts := fun module hmodule => by
        obtain ⟨artifact, hfound, hkind, -⟩ := hdefinitions module hmodule
        exact ⟨artifact, hfound, hkind, UInt64.le_iff_toNat_le.mpr (Nat.zero_le _)⟩
      definitions := fun module hmodule definition hdefinition => by
        obtain ⟨artifact, hfound, hkind, hranges⟩ := hdefinitions module hmodule
        exact ⟨artifact, hfound, hkind, hranges definition hdefinition⟩
      placements := fun modules hllvm instance_ hinstance placement hplacement =>
        List.mem_map.mpr (h.placements modules hllvm instance_ hinstance placement hplacement)
      owned := fun artifact hartifact hkind => List.mem_map.mpr (h.owned artifact hartifact hkind) }

/-- The order of records does not matter for coherence. -/
theorem Coherent.reordered (hinstances : ReorderedAll InstanceRecord.Reordered instances instances')
    (hartifacts : artifacts.Perm artifacts') (hllvm : llvm.Reordered llvm')
    (h : Coherent instances artifacts provenance llvm) : Coherent instances' artifacts' provenance llvm' where
  artifacts_distinct := (hartifacts.map _).nodup_iff.mp h.artifacts_distinct
  instances_distinct := by
    apply (hinstances.map_perm _).nodup_iff.mp h.instances_distinct
    intro a b hsame
    rw [hsame.definition, hsame.display_name, hsame.raw_symbol]
  sources := fun instance' hinstance' source hsource => by
    obtain ⟨instance_, hinstance, hsame⟩ := hinstances.exists_mem hinstance'
    simp only [← hartifacts.mem_iff]
    exact h.sources instance_ hinstance source (hsame.source ▸ hsource)
  modules_distinct :=
    (hllvm.modules.map_perm fun _ _ hsame => hsame.compiler_module).nodup_iff.mp h.modules_distinct
  module_artifacts_distinct :=
    (hllvm.modules.map_perm fun _ _ hsame => hsame.artifact).nodup_iff.mp h.module_artifacts_distinct
  definitions := fun module' hmodule' => by
    obtain ⟨module, hmodule, hsame⟩ := hllvm.modules.exists_mem hmodule'
    simp only [← hartifacts.mem_iff, ← hsame.definitions.mem_iff, hsame.artifact]
    exact h.definitions module hmodule
  owned := fun artifact hartifact hkind => by
    obtain ⟨module, hmodule, howned⟩ := h.owned artifact (hartifacts.mem_iff.mpr hartifact) hkind
    obtain ⟨module', hmodule', hsame⟩ := hllvm.symm.modules.exists_mem hmodule
    exact ⟨module', hmodule', hsame.artifact.symm.trans howned⟩
  configuration := by
    rintro modules' rfl
    cases hllvm
    exact h.configuration _ rfl
  stages := by
    rintro modules' rfl module' hmodule'
    obtain ⟨module, hmodule, hsame⟩ := hllvm.modules.exists_mem hmodule'
    rw [hsame.stage]
    cases hllvm
    exact h.stages _ rfl module hmodule
  placements := by
    rintro modules' rfl instance' hinstance' placement hplacement
    obtain ⟨instance_, hinstance, hsame⟩ := hinstances.exists_mem hinstance'
    have hunits := h.placements
    cases hllvm with
    | collected hmodules =>
      obtain ⟨module, hmodule, hunit⟩ :=
        hunits _ rfl instance_ hinstance placement (hsame.placements.mem_iff.mpr hplacement)
      obtain ⟨module', hmodule', hsame'⟩ := (hmodules.symm fun _ _ => LlvmModuleRecord.Reordered.symm).exists_mem hmodule
      exact ⟨module', hmodule', hsame'.compiler_module.symm.trans hunit⟩

/-- The constructor accepts exactly the coherent record graphs, whatever order their records come in. -/
theorem manifest_accepts (capture_id : CaptureId) (instances : List InstanceRecord) (artifacts : List ArtifactRecord)
    (provenance : LlvmProvenance) (llvm : LlvmCollection) :
    ((∃ manifest, InstanceManifest.new capture_id instances artifacts provenance llvm = .ok manifest) ↔
      Coherent instances artifacts provenance llvm) ∧
    ∀ instances' artifacts' llvm', ReorderedAll InstanceRecord.Reordered instances instances' →
      artifacts.Perm artifacts' → llvm.Reordered llvm' →
      ((∃ manifest, InstanceManifest.new capture_id instances' artifacts' provenance llvm' = .ok manifest) ↔
        ∃ manifest, InstanceManifest.new capture_id instances artifacts provenance llvm = .ok manifest) := by
  simp only [InstanceManifest.new_ok_iff, consistent_iff_coherent, true_and]
  intro instances' artifacts' llvm' hinstances hartifacts hllvm
  constructor
  · exact Coherent.reordered (hinstances.symm fun _ _ => InstanceRecord.Reordered.symm) hartifacts.symm hllvm.symm
  · exact Coherent.reordered hinstances hartifacts hllvm

end optic.records
