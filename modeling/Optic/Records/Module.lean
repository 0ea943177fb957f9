import Optic.Records.Llvm
import Optic.Rust.Distinct

open rust

namespace optic.records

/-- One complete regular compiler module and its indexed top-level definitions. -/
structure LlvmModuleRecord where
  artifact : ArtifactId
  compiler_module : String
  stage : LlvmStage
  definitions : List LlvmDefinitionRecord
  module_named : compiler_module ≠ ""
  symbols_distinct : (definitions.map LlvmDefinitionRecord.raw_symbol).Nodup

/-- Rejects a symbol that a module defines twice. -/
def require_symbols (definitions : List LlvmDefinitionRecord) : Except Error Unit :=
  each_distinct (same_key LlvmDefinitionRecord.raw_symbol)
    (fun definition => .InvalidField "LLVM module symbols" s!"duplicate {definition.raw_symbol}") (fun _ => .ok ())
    [] definitions

theorem require_symbols_eq_ok_iff {definitions : List LlvmDefinitionRecord} :
    require_symbols definitions = .ok () ↔ (definitions.map LlvmDefinitionRecord.raw_symbol).Nodup := by
  rw [require_symbols, each_distinct_key_eq_ok_iff]
  exact and_iff_right fun _ _ => rfl

def LlvmModuleRecord.new (artifact : ArtifactId) (compiler_module : String) (stage : LlvmStage)
    (definitions : List LlvmDefinitionRecord) : Except Error LlvmModuleRecord := do
  let ⟨module_named⟩ ← require_text "LLVM compiler module" compiler_module
  let ⟨symbols⟩ ← proven (require_symbols definitions)
  return { artifact, compiler_module, stage, definitions, module_named,
           symbols_distinct := require_symbols_eq_ok_iff.mp symbols }

theorem LlvmModuleRecord.new_eq_ok_iff {artifact : ArtifactId} {compiler_module : String} {stage : LlvmStage}
    {definitions : List LlvmDefinitionRecord} {record : LlvmModuleRecord} :
    LlvmModuleRecord.new artifact compiler_module stage definitions = .ok record ↔
      record.artifact = artifact ∧ record.compiler_module = compiler_module ∧ record.stage = stage ∧
        record.definitions = definitions := by
  constructor
  · intro h
    simp only [LlvmModuleRecord.new, bind_eq_ok_iff] at h
    obtain ⟨_, _, _, _, h⟩ := h
    cases h
    exact ⟨rfl, rfl, rfl, rfl⟩
  · rintro ⟨rfl, rfl, rfl, rfl⟩
    rw [LlvmModuleRecord.new, require_text_ok record.module_named]
    change (proven (require_symbols record.definitions) >>= _) = _
    rw [proven_ok (require_symbols_eq_ok_iff.mpr record.symbols_distinct)]
    rfl

/-- A configuration for which this release cannot claim exact optimized LLVM. -/
inductive UnsupportedLlvmConfiguration where
  | Incremental
  | CrossCrateThinLto
  | FatLto
  | LinkerPluginLto
  | OtherBackend
  | UnverifiedCompiler
deriving DecidableEq, Repr

def UnsupportedLlvmConfiguration.display : UnsupportedLlvmConfiguration → String
  | .Incremental => "optimized LLVM is unavailable for incremental compilation"
  | .CrossCrateThinLto => "optimized LLVM is unavailable for cross-crate ThinLTO"
  | .FatLto => "optimized LLVM is unavailable for fat LTO"
  | .LinkerPluginLto => "optimized LLVM is unavailable for linker-plugin LTO"
  | .OtherBackend => "optimized LLVM is unavailable for this compiler backend"
  | .UnverifiedCompiler => "optimized LLVM artifact stages are not verified for this compiler release"

/-- Complete optimized modules or a durable unsupported-configuration reason. -/
inductive LlvmCollection where
  | Collected (modules : List LlvmModuleRecord)
  | NotCaptured (reason : UnsupportedLlvmConfiguration)

/-- The modules of a collection. -/
def LlvmCollection.modules : LlvmCollection → List LlvmModuleRecord
  | .Collected modules => modules
  | .NotCaptured _ => []

/-- The effective link-time optimization mode observed by the selected compiler. -/
inductive LlvmLto where
  | Off
  | LocalThin
  | CrossCrateThin
  | Fat
deriving DecidableEq, Repr

/-- Effective codegen provenance, independent of the requested Cargo profile name. -/
structure LlvmProvenance where
  backend : String
  llvm_version : Option String
  target : String
  optimization : String
  lto : LlvmLto
  incremental : Bool
  linker_plugin_lto : Bool
  codegen_units : UInt32
  recipe_revision : UInt32
  backend_named : backend ≠ ""
  target_named : target ≠ ""
  version_named : ∀ version ∈ llvm_version, version ≠ ""
  optimization_known : optimization ∈ ["0", "1", "2", "3", "s", "z"]
  counts_positive : ¬ (codegen_units = 0 ∨ recipe_revision = 0)

/-- Rejects an empty version where there is one. -/
def require_version (llvm_version : Option String) : Except Error Unit :=
  match llvm_version with
  | some version => (require_text "LLVM version" version).map fun _ => ()
  | none => .ok ()

theorem require_version_eq_ok_iff {llvm_version : Option String} :
    require_version llvm_version = .ok () ↔ ∀ version ∈ llvm_version, version ≠ "" := by
  cases llvm_version with
  | none => exact ⟨nofun, fun _ => rfl⟩
  | some version =>
    by_cases h : version = ""
    · simp [require_version, require_text, h, Except.map]
    · simp [require_version, require_text, h, Except.map]

def require_optimization (optimization : String) : Except Error Unit :=
  ensure (optimization ∈ ["0", "1", "2", "3", "s", "z"]) (.InvalidField "LLVM optimization" optimization)

def require_counts (codegen_units recipe_revision : UInt32) : Except Error Unit :=
  ensure (!(codegen_units = 0 || recipe_revision = 0))
    (.InvalidField "LLVM provenance" "zero codegen units or recipe revision")

theorem require_optimization_eq_ok_iff {optimization : String} :
    require_optimization optimization = .ok () ↔ optimization ∈ ["0", "1", "2", "3", "s", "z"] := by
  rw [require_optimization, ensure_eq_ok_iff, decide_eq_true_eq]

theorem require_counts_eq_ok_iff {codegen_units recipe_revision : UInt32} :
    require_counts codegen_units recipe_revision = .ok () ↔ ¬ (codegen_units = 0 ∨ recipe_revision = 0) := by
  rw [require_counts, ensure_eq_ok_iff]
  simp

def LlvmProvenance.new (backend : String) (llvm_version : Option String) (target optimization : String) (lto : LlvmLto)
    (incremental linker_plugin_lto : Bool) (codegen_units recipe_revision : UInt32) :
    Except Error LlvmProvenance := do
  let ⟨backend_named⟩ ← require_text "codegen backend" backend
  let ⟨target_named⟩ ← require_text "LLVM effective target" target
  let ⟨version⟩ ← proven (require_version llvm_version)
  let ⟨known⟩ ← proven (require_optimization optimization)
  let ⟨counts⟩ ← proven (require_counts codegen_units recipe_revision)
  return { backend, llvm_version, target, optimization, lto, incremental, linker_plugin_lto, codegen_units,
           recipe_revision, backend_named, target_named,
           version_named := require_version_eq_ok_iff.mp version,
           optimization_known := require_optimization_eq_ok_iff.mp known,
           counts_positive := require_counts_eq_ok_iff.mp counts }

/-- What the constructor accepts, it stores. -/
theorem LlvmProvenance.new_eq_ok {backend : String} {llvm_version : Option String} {target optimization : String}
    {lto : LlvmLto} {incremental linker_plugin_lto : Bool} {codegen_units recipe_revision : UInt32}
    {record : LlvmProvenance} (h : LlvmProvenance.new backend llvm_version target optimization lto incremental
      linker_plugin_lto codegen_units recipe_revision = .ok record) :
    record.backend = backend ∧ record.llvm_version = llvm_version ∧ record.lto = lto ∧
      record.incremental = incremental ∧ record.linker_plugin_lto = linker_plugin_lto := by
  simp only [LlvmProvenance.new, bind_eq_ok_iff] at h
  obtain ⟨_, _, _, _, _, _, _, _, _, _, h⟩ := h
  cases h
  exact ⟨rfl, rfl, rfl, rfl, rfl⟩

end optic.records
