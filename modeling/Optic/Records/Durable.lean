import Optic.Json.Fields
import Optic.Records.CargoArtifact
import Optic.Records.Manifest

open rust serde_json

namespace optic.records

/-- Paths are written as text, since all of them are UTF-8. -/
instance : Json PathBuf where
  to_value self := .string self.text
  from_value v := (from_value v).map PathBuf.mk
  read_back _ := rfl

instance : Json CaptureId := parsed CaptureId.value CaptureId.parse CaptureId.parse_value

theorem CaptureKey.parse_value (key : CaptureKey) : CaptureKey.parse key.value = .ok key := dif_pos key.canonical

instance : Json CaptureKey := parsed CaptureKey.value CaptureKey.parse CaptureKey.parse_value

theorem AnalysisToken.parse_value (token : AnalysisToken) : AnalysisToken.parse token.value = .ok token :=
  dif_pos token.canonical

instance : Json AnalysisToken := parsed AnalysisToken.value AnalysisToken.parse AnalysisToken.parse_value

instance : Json ArtifactId where
  to_value self := to_value self.value
  from_value v := (from_value v).map ArtifactId.mk
  read_back _ := rfl

def ArtifactKind.serde_name : ArtifactKind → String
  | .Source => "source"
  | .Llvm => "llvm"

instance : Json ArtifactKind :=
  enumeration [.Source, .Llvm] ArtifactKind.serde_name fun self => by cases self <;> decide

namespace ArtifactRecord

def fields : Fields ArtifactRecord (ArtifactId × ArtifactKind × UInt64 × Unit) :=
  .field "id" id <| .field "kind" kind <| .field "byte_len" byte_len .done

/-- Without checks, fields are just put together. -/
def try_from : ArtifactId × ArtifactKind × UInt64 × Unit → Except Error ArtifactRecord
  | (id, kind, byte_len, _) => .ok { id, kind, byte_len }

instance : Json ArtifactRecord := fields.struct (by decide) try_from fun _ => rfl

end ArtifactRecord

namespace ByteRange

def fields : Fields ByteRange (UInt64 × UInt64 × Unit) := .field "start" start <| .field "length" length .done

def try_from : UInt64 × UInt64 × Unit → Except Error ByteRange
  | (start, length, _) => ByteRange.new start length

/-- The constructor accepts a record's own fields. -/
theorem try_from_parts (self : ByteRange) : try_from (fields.parts self) = .ok self := new_eq_ok_iff.mpr ⟨rfl, rfl⟩

instance : Json ByteRange := fields.struct (by decide) try_from try_from_parts

end ByteRange

namespace DefinitionRecord

def fields : Fields DefinitionRecord (String × String × Unit) :=
  .field "crate_name" crate_name <| .field "definition_path" definition_path .done

def try_from : String × String × Unit → Except Error DefinitionRecord
  | (crate_name, definition_path, _) => DefinitionRecord.new crate_name definition_path

theorem try_from_parts (self : DefinitionRecord) : try_from (fields.parts self) = .ok self :=
  new_eq_ok_iff.mpr ⟨rfl, rfl⟩

instance : Json DefinitionRecord := fields.struct (by decide) try_from try_from_parts

end DefinitionRecord

namespace PlacementRecord

def fields : Fields PlacementRecord (String × String × String × Bool × UInt64 × Unit) :=
  .field "codegen_unit" codegen_unit <| .field "linkage" linkage <| .field "visibility" visibility <|
    .field "local_copy" local_copy <| .field "size_estimate" size_estimate .done

def try_from : String × String × String × Bool × UInt64 × Unit → Except Error PlacementRecord
  | (codegen_unit, linkage, visibility, local_copy, size_estimate, _) =>
    PlacementRecord.new codegen_unit linkage visibility local_copy size_estimate

theorem try_from_parts (self : PlacementRecord) : try_from (fields.parts self) = .ok self :=
  new_eq_ok_iff.mpr ⟨rfl, rfl, rfl, rfl, rfl⟩

instance : Json PlacementRecord := fields.struct (by decide) try_from try_from_parts

end PlacementRecord

namespace SourceRecord

def fields : Fields SourceRecord (ArtifactId × ByteRange × PathBuf × UInt64 × Unit) :=
  .field "artifact" artifact <| .field "range" range <| .field "display_path" display_path <|
    .field "starting_line" starting_line .done

def try_from : ArtifactId × ByteRange × PathBuf × UInt64 × Unit → Except Error SourceRecord
  | (artifact, range, display_path, starting_line, _) => SourceRecord.new artifact range display_path starting_line

theorem try_from_parts (self : SourceRecord) : try_from (fields.parts self) = .ok self :=
  new_eq_ok_iff.mpr ⟨rfl, rfl, rfl, rfl⟩

instance : Json SourceRecord := fields.struct (by decide) try_from try_from_parts

end SourceRecord

def SourceUnavailable.serde_name : SourceUnavailable → String
  | .Nonlocal => "nonlocal"
  | .Unloaded => "unloaded"
  | .Generated => "generated"
  | .UnsupportedSpan => "unsupported_span"
  | .OutsidePackage => "outside_package"

instance : Json SourceUnavailable :=
  enumeration [.Nonlocal, .Unloaded, .Generated, .UnsupportedSpan, .OutsidePackage] SourceUnavailable.serde_name fun self => by
    cases self <;> decide

/-- Reads the content of a variant that has one. -/
def read_content {α : Type} [Json α] (content : Option Value) : Option α := content >>= from_value

instance : Json SourceAvailability where
  to_value
    | .Available source => .object [("available", to_value source)]
    | .Unavailable reason => .object [("unavailable", to_value reason)]
  from_value v := do
    let (name, content) ← v.variant
    if name = "available" then return .Available (← read_content content)
    else if name = "unavailable" then return .Unavailable (← read_content content)
    else none
  read_back self := by cases self <;> simp [Value.variant, read_content]

namespace InstanceRecord

def fields : Fields InstanceRecord (DefinitionRecord × String × String × List PlacementRecord × SourceAvailability × Unit) :=
  .field "definition" definition <| .field "display_name" display_name <| .field "raw_symbol" raw_symbol <|
    .field "placements" placements <| .field "source" source .done

def try_from : DefinitionRecord × String × String × List PlacementRecord × SourceAvailability × Unit →
    Except Error InstanceRecord
  | (definition, display_name, raw_symbol, placements, source, _) =>
    InstanceRecord.new definition display_name raw_symbol placements source

theorem try_from_parts (self : InstanceRecord) : try_from (fields.parts self) = .ok self :=
  new_eq_ok_iff.mpr ⟨rfl, rfl, rfl, rfl, rfl⟩

instance : Json InstanceRecord := fields.struct (by decide) try_from try_from_parts

end InstanceRecord

def LlvmStage.serde_name : LlvmStage → String
  | .NoLtoOptimized => "no_lto_optimized"
  | .LocalThinLtoPostPassManager => "local_thin_lto_post_pass_manager"

instance : Json LlvmStage :=
  enumeration [.NoLtoOptimized, .LocalThinLtoPostPassManager] LlvmStage.serde_name fun self => by cases self <;> decide

instance : Json LlvmDefinitionKind where
  to_value
    | .Function => .string "function"
    | .DirectAlias target => .object [("direct_alias", .object [("target", to_value target)])]
    | .ExpressionAlias => .string "expression_alias"
    | .Ifunc => .string "ifunc"
  from_value v := do
    let (name, content) ← v.variant
    if name = "direct_alias" then
      let fields ← content
      return .DirectAlias (← fields.required ["target"] "target")
    else
      unit_content content
      if name = "function" then return .Function
      else if name = "expression_alias" then return .ExpressionAlias
      else if name = "ifunc" then return .Ifunc
      else none
  read_back self := by
    cases self with
    | DirectAlias target =>
      simp [Value.variant, Value.required_object ["target"] [("target", to_value target)] rfl (by decide)]
    | Function => rfl
    | ExpressionAlias => rfl
    | Ifunc => rfl

namespace LlvmDefinitionRecord

def fields : Fields LlvmDefinitionRecord (String × ByteRange × LlvmDefinitionKind × Unit) :=
  .field "raw_symbol" raw_symbol <| .field "range" range <| .field "kind" kind .done

def try_from : String × ByteRange × LlvmDefinitionKind × Unit → Except Error LlvmDefinitionRecord
  | (raw_symbol, range, kind, _) => LlvmDefinitionRecord.new raw_symbol range kind

theorem try_from_parts (self : LlvmDefinitionRecord) : try_from (fields.parts self) = .ok self :=
  new_eq_ok_iff.mpr ⟨rfl, rfl, rfl⟩

instance : Json LlvmDefinitionRecord := fields.struct (by decide) try_from try_from_parts

end LlvmDefinitionRecord

namespace LlvmModuleRecord

def fields : Fields LlvmModuleRecord (ArtifactId × String × LlvmStage × List LlvmDefinitionRecord × Unit) :=
  .field "artifact" artifact <| .field "compiler_module" compiler_module <| .field "stage" stage <|
    .field "definitions" definitions .done

def try_from : ArtifactId × String × LlvmStage × List LlvmDefinitionRecord × Unit → Except Error LlvmModuleRecord
  | (artifact, compiler_module, stage, definitions, _) => LlvmModuleRecord.new artifact compiler_module stage definitions

theorem try_from_parts (self : LlvmModuleRecord) : try_from (fields.parts self) = .ok self :=
  new_eq_ok_iff.mpr ⟨rfl, rfl, rfl, rfl⟩

instance : Json LlvmModuleRecord := fields.struct (by decide) try_from try_from_parts

end LlvmModuleRecord

def UnsupportedLlvmConfiguration.serde_name : UnsupportedLlvmConfiguration → String
  | .Incremental => "incremental"
  | .CrossCrateThinLto => "cross_crate_thin_lto"
  | .FatLto => "fat_lto"
  | .LinkerPluginLto => "linker_plugin_lto"
  | .OtherBackend => "other_backend"
  | .UnverifiedCompiler => "unverified_compiler"

instance : Json UnsupportedLlvmConfiguration :=
  enumeration [.Incremental, .CrossCrateThinLto, .FatLto, .LinkerPluginLto, .OtherBackend, .UnverifiedCompiler]
    UnsupportedLlvmConfiguration.serde_name fun self => by cases self <;> decide

instance : Json LlvmCollection where
  to_value
    | .Collected modules => .object [("collected", to_value modules)]
    | .NotCaptured reason => .object [("not_captured", to_value reason)]
  from_value v := do
    let (name, content) ← v.variant
    if name = "collected" then return .Collected (← read_content content)
    else if name = "not_captured" then return .NotCaptured (← read_content content)
    else none
  read_back self := by cases self <;> simp [Value.variant, read_content]

def LlvmLto.serde_name : LlvmLto → String
  | .Off => "off"
  | .LocalThin => "local_thin"
  | .CrossCrateThin => "cross_crate_thin"
  | .Fat => "fat"

instance : Json LlvmLto :=
  enumeration [.Off, .LocalThin, .CrossCrateThin, .Fat] LlvmLto.serde_name fun self => by cases self <;> decide

namespace LlvmProvenance

def fields : Fields LlvmProvenance
    (String × Option String × String × String × LlvmLto × Bool × Bool × UInt32 × UInt32 × Unit) :=
  .field "backend" backend <| .optional "llvm_version" llvm_version (fun self => by cases self.llvm_version <;> rfl) <|
    .field "target" target <| .field "optimization" optimization <| .field "lto" lto <| .field "incremental" incremental <|
    .field "linker_plugin_lto" linker_plugin_lto <| .field "codegen_units" codegen_units <|
    .field "recipe_revision" recipe_revision .done

def try_from : String × Option String × String × String × LlvmLto × Bool × Bool × UInt32 × UInt32 × Unit →
    Except Error LlvmProvenance
  | (backend, llvm_version, target, optimization, lto, incremental, linker_plugin_lto, codegen_units, recipe_revision, _) =>
    LlvmProvenance.new backend llvm_version target optimization lto incremental linker_plugin_lto codegen_units recipe_revision

theorem try_from_parts (self : LlvmProvenance) : try_from (fields.parts self) = .ok self := by
  change LlvmProvenance.new self.backend self.llvm_version self.target self.optimization self.lto self.incremental
    self.linker_plugin_lto self.codegen_units self.recipe_revision = _
  rw [LlvmProvenance.new, require_text_ok self.backend_named]
  change (require_text _ self.target >>= _) = _
  rw [require_text_ok self.target_named]
  change (proven (require_version self.llvm_version) >>= _) = _
  rw [proven_ok (require_version_eq_ok_iff.mpr self.version_named)]
  change (proven (require_optimization self.optimization) >>= _) = _
  rw [proven_ok (require_optimization_eq_ok_iff.mpr self.optimization_known)]
  change (proven (require_counts self.codegen_units self.recipe_revision) >>= _) = _
  rw [proven_ok (require_counts_eq_ok_iff.mpr self.counts_positive)]
  rfl

instance : Json LlvmProvenance := fields.struct (by decide) try_from try_from_parts

end LlvmProvenance

namespace InstanceManifest

def fields : Fields InstanceManifest
    (UInt32 × CaptureId × List InstanceRecord × List ArtifactRecord × LlvmProvenance × LlvmCollection × Unit) :=
  .field "format_version" format_version <| .field "capture_id" capture_id <| .field "instances" instances <|
    .field "artifacts" artifacts <| .field "llvm_provenance" llvm_provenance <| .field "llvm" llvm .done

def try_from :
    UInt32 × CaptureId × List InstanceRecord × List ArtifactRecord × LlvmProvenance × LlvmCollection × Unit →
      Except Error InstanceManifest
  | (format_version, capture_id, instances, artifacts, llvm_provenance, llvm, _) => do
    ensure (format_version = CAPTURE_FORMAT_VERSION) (.UnsupportedFormat CAPTURE_FORMAT_VERSION format_version)
    InstanceManifest.new capture_id instances artifacts llvm_provenance llvm

/-- The constructor accepts a manifest's own fields. -/
theorem new_fields (self : InstanceManifest) :
    InstanceManifest.new self.capture_id self.instances self.artifacts self.llvm_provenance self.llvm = .ok self := by
  obtain ⟨capture_id, instances, artifacts, llvm_provenance, llvm, format_version, consistent, current⟩ := self
  subst current
  rw [InstanceManifest.new, proven_ok (validate_manifest_eq_ok_iff.mpr consistent)]
  rfl

theorem try_from_parts (self : InstanceManifest) : try_from (fields.parts self) = .ok self := by
  change (ensure (decide (self.format_version = CAPTURE_FORMAT_VERSION)) _ >>= fun _ =>
    InstanceManifest.new self.capture_id self.instances self.artifacts self.llvm_provenance self.llvm) = _
  rw [(ensure_eq_ok_iff (u := ())).mpr (decide_eq_true self.current)]
  exact self.new_fields

instance : Json InstanceManifest := fields.struct (by decide) try_from try_from_parts

end InstanceManifest

instance : Json CargoTargetKind :=
  enumeration [.Lib, .Bin, .Example, .Bench] CargoTargetKind.display fun self => by cases self <;> decide

namespace TargetRecord

def fields : Fields TargetRecord (String × CargoTargetKind × Unit) := .field "name" name <| .field "kind" kind .done

def try_from : String × CargoTargetKind × Unit → Except Error TargetRecord
  | (name, kind, _) => TargetRecord.new name kind

theorem try_from_parts (self : TargetRecord) : try_from (fields.parts self) = .ok self := by
  change TargetRecord.new self.name self.kind = _
  rw [TargetRecord.new, require_text_ok self.named]
  rfl

instance : Json TargetRecord := fields.struct (by decide) try_from try_from_parts

end TargetRecord

namespace BuildRecord

def fields : Fields BuildRecord (String × String × TargetRecord × String × PathBuf × PathBuf × List String × Unit) :=
  .field "package" package <| .field "package_version" package_version <| .field "target" target <|
    .field "profile" profile <| .field "cargo_program" cargo_program <|
    .field "invocation_directory" invocation_directory <| .field "cargo_arguments" cargo_arguments .done

def try_from : String × String × TargetRecord × String × PathBuf × PathBuf × List String × Unit → Except Error BuildRecord
  | (package, package_version, target, profile, cargo_program, invocation_directory, cargo_arguments, _) =>
    BuildRecord.new package package_version target profile cargo_program invocation_directory cargo_arguments

theorem try_from_parts (self : BuildRecord) : try_from (fields.parts self) = .ok self := by
  change BuildRecord.new self.package self.package_version self.target self.profile self.cargo_program
    self.invocation_directory self.cargo_arguments = _
  rw [BuildRecord.new, proven_ok self.valid]
  rfl

instance : Json BuildRecord := fields.struct (by decide) try_from try_from_parts

end BuildRecord

namespace CompilerIdentity

def fields : Fields CompilerIdentity (PathBuf × String × String × String × PathBuf × Unit) :=
  .field "rustc" rustc <| .field "release" release <| .field "commit_hash" commit_hash <| .field "host" host <|
    .field "sysroot" sysroot .done

def try_from : PathBuf × String × String × String × PathBuf × Unit → Except Error CompilerIdentity
  | (rustc, release, commit_hash, host, sysroot, _) => CompilerIdentity.new rustc release commit_hash host sysroot

theorem try_from_parts (self : CompilerIdentity) : try_from (fields.parts self) = .ok self := by
  change CompilerIdentity.new self.rustc self.release self.commit_hash self.host self.sysroot = _
  rw [CompilerIdentity.new, proven_ok self.valid]
  rfl

instance : Json CompilerIdentity := fields.struct (by decide) try_from try_from_parts

theorem to_value_ne_null (self : CompilerIdentity) : to_value self ≠ .null := object_ne_null

end CompilerIdentity

variable {M : CargoSchema} [Json (Artifact M)]

namespace CaptureAnalysis

def fields : Fields (CaptureAnalysis (CargoArtifactRecord M)) (CaptureKey × AnalysisToken × CargoArtifactRecord M × Unit) :=
  .field "request_key" request_key <| .field "token" token <| .field "artifact" artifact .done

def try_from : CaptureKey × AnalysisToken × CargoArtifactRecord M × Unit →
    Except Error (CaptureAnalysis (CargoArtifactRecord M))
  | (request_key, token, artifact, _) => .ok { request_key, token, artifact }

instance : Json (CaptureAnalysis (CargoArtifactRecord M)) :=
  fields.struct (show ["request_key", "token", "artifact"].Nodup by decide) try_from fun _ => rfl

theorem to_value_ne_null (self : CaptureAnalysis (CargoArtifactRecord M)) : to_value self ≠ .null :=
  object_ne_null

end CaptureAnalysis

namespace CaptureRecord

def fields : Fields (CaptureRecord (CargoArtifactRecord M)) (UInt32 × CaptureId × UInt64 × BuildRecord ×
    Option CompilerIdentity × Option (CaptureAnalysis (CargoArtifactRecord M)) × Unit) :=
  .field "format_version" format_version <| .field "id" id <| .field "completed_at_unix_ms" completed_at_unix_ms <|
    .field "build" build <| .defaulted "compiler" compiler CompilerIdentity.to_value_ne_null <|
    .defaulted "analysis" analysis CaptureAnalysis.to_value_ne_null .done

def try_from : UInt32 × CaptureId × UInt64 × BuildRecord × Option CompilerIdentity ×
    Option (CaptureAnalysis (CargoArtifactRecord M)) × Unit → Except Error (CaptureRecord (CargoArtifactRecord M))
  | (format_version, id, completed_at_unix_ms, build, compiler, analysis, _) => do
    ensure (format_version = CAPTURE_FORMAT_VERSION) (.UnsupportedFormat CAPTURE_FORMAT_VERSION format_version)
    let compiler ← ok_or compiler (.InvalidField "compiler" "no value")
    let analysis ← ok_or analysis (.InvalidField "analysis" "no value")
    return CaptureRecord.new id completed_at_unix_ms build compiler analysis

omit [Json (Artifact M)] in
theorem new_fields (self : CaptureRecord (CargoArtifactRecord M)) :
    CaptureRecord.new self.id self.completed_at_unix_ms self.build self.compiler self.analysis = self := by
  obtain ⟨id, completed_at_unix_ms, build, compiler, analysis, format_version, current⟩ := self
  subst current
  rfl

theorem try_from_parts (self : CaptureRecord (CargoArtifactRecord M)) : try_from (fields.parts self) = .ok self := by
  change (ensure (decide (self.format_version = CAPTURE_FORMAT_VERSION)) _ >>= fun _ => Except.ok
    (CaptureRecord.new self.id self.completed_at_unix_ms self.build self.compiler self.analysis)) = _
  rw [(ensure_eq_ok_iff (u := ())).mpr (decide_eq_true self.current)]
  exact congrArg Except.ok self.new_fields

instance : Json (CaptureRecord (CargoArtifactRecord M)) :=
  fields.struct (show ["format_version", "id", "completed_at_unix_ms", "build", "compiler", "analysis"].Nodup by decide)
    try_from try_from_parts

end CaptureRecord

end optic.records
