import Mathlib.Data.String.Basic
import Optic.Records.Durable

open rust serde_json

namespace optic.records

/-- A list is rebuilt like each of its elements. -/
theorem mapM_rebuilt {α : Type} {rebuild : α → Except Error α} (h : ∀ a, rebuild a = .ok a) (l : List α) :
    l.mapM rebuild = .ok l :=
  (mapM_of_ok fun a _ => h a).trans (congrArg Except.ok (List.map_id l))

def CaptureId.rebuild (self : CaptureId) : Except Error CaptureId := CaptureId.parse self.value

def CaptureKey.rebuild (self : CaptureKey) : Except Error CaptureKey := CaptureKey.parse self.value

def AnalysisToken.rebuild (self : AnalysisToken) : Except Error AnalysisToken := AnalysisToken.parse self.value

def ByteRange.rebuild (self : ByteRange) : Except Error ByteRange := ByteRange.new self.start self.length

theorem ByteRange.rebuild_eq (self : ByteRange) : self.rebuild = .ok self := self.try_from_parts

def DefinitionRecord.rebuild (self : DefinitionRecord) : Except Error DefinitionRecord :=
  DefinitionRecord.new self.crate_name self.definition_path

theorem DefinitionRecord.rebuild_eq (self : DefinitionRecord) : self.rebuild = .ok self := self.try_from_parts

def PlacementRecord.rebuild (self : PlacementRecord) : Except Error PlacementRecord :=
  PlacementRecord.new self.codegen_unit self.linkage self.visibility self.local_copy self.size_estimate

theorem PlacementRecord.rebuild_eq (self : PlacementRecord) : self.rebuild = .ok self := self.try_from_parts

/-- Rebuilds a record from its own fields, after rebuilding these from theirs. -/
def SourceRecord.rebuild (self : SourceRecord) : Except Error SourceRecord := do
  let range ← self.range.rebuild
  SourceRecord.new self.artifact range self.display_path self.starting_line

theorem SourceRecord.rebuild_eq (self : SourceRecord) : self.rebuild = .ok self := by
  rw [rebuild, self.range.rebuild_eq]
  exact self.try_from_parts

def SourceAvailability.rebuild : SourceAvailability → Except Error SourceAvailability
  | .Available source => return .Available (← source.rebuild)
  | .Unavailable reason => return .Unavailable reason

theorem SourceAvailability.rebuild_eq (self : SourceAvailability) : self.rebuild = .ok self := by
  cases self with
  | Available source =>
    rw [rebuild, source.rebuild_eq]
    rfl
  | Unavailable reason => rfl

def InstanceRecord.rebuild (self : InstanceRecord) : Except Error InstanceRecord := do
  let definition ← self.definition.rebuild
  let placements ← self.placements.mapM PlacementRecord.rebuild
  let source ← self.source.rebuild
  InstanceRecord.new definition self.display_name self.raw_symbol placements source

theorem InstanceRecord.rebuild_eq (self : InstanceRecord) : self.rebuild = .ok self := by
  rw [rebuild, self.definition.rebuild_eq, mapM_rebuilt PlacementRecord.rebuild_eq, self.source.rebuild_eq]
  exact self.try_from_parts

def LlvmDefinitionRecord.rebuild (self : LlvmDefinitionRecord) : Except Error LlvmDefinitionRecord := do
  let range ← self.range.rebuild
  LlvmDefinitionRecord.new self.raw_symbol range self.kind

theorem LlvmDefinitionRecord.rebuild_eq (self : LlvmDefinitionRecord) : self.rebuild = .ok self := by
  rw [rebuild, self.range.rebuild_eq]
  exact self.try_from_parts

def LlvmModuleRecord.rebuild (self : LlvmModuleRecord) : Except Error LlvmModuleRecord := do
  let definitions ← self.definitions.mapM LlvmDefinitionRecord.rebuild
  LlvmModuleRecord.new self.artifact self.compiler_module self.stage definitions

theorem LlvmModuleRecord.rebuild_eq (self : LlvmModuleRecord) : self.rebuild = .ok self := by
  rw [rebuild, mapM_rebuilt LlvmDefinitionRecord.rebuild_eq]
  exact self.try_from_parts

def LlvmCollection.rebuild : LlvmCollection → Except Error LlvmCollection
  | .Collected modules => return .Collected (← modules.mapM LlvmModuleRecord.rebuild)
  | .NotCaptured reason => return .NotCaptured reason

theorem LlvmCollection.rebuild_eq (self : LlvmCollection) : self.rebuild = .ok self := by
  cases self with
  | Collected modules =>
    rw [rebuild, mapM_rebuilt LlvmModuleRecord.rebuild_eq]
    rfl
  | NotCaptured reason => rfl

def LlvmProvenance.rebuild (self : LlvmProvenance) : Except Error LlvmProvenance :=
  LlvmProvenance.new self.backend self.llvm_version self.target self.optimization self.lto self.incremental
    self.linker_plugin_lto self.codegen_units self.recipe_revision

theorem LlvmProvenance.rebuild_eq (self : LlvmProvenance) : self.rebuild = .ok self := self.try_from_parts

def InstanceManifest.rebuild (self : InstanceManifest) : Except Error InstanceManifest := do
  let capture_id ← self.capture_id.rebuild
  let instances ← self.instances.mapM InstanceRecord.rebuild
  let llvm_provenance ← self.llvm_provenance.rebuild
  let llvm ← self.llvm.rebuild
  InstanceManifest.new capture_id instances self.artifacts llvm_provenance llvm

theorem InstanceManifest.rebuild_eq (self : InstanceManifest) : self.rebuild = .ok self := by
  rw [rebuild, CaptureId.rebuild, CaptureId.parse_value, mapM_rebuilt InstanceRecord.rebuild_eq,
    self.llvm_provenance.rebuild_eq, self.llvm.rebuild_eq]
  exact self.new_fields

theorem InstanceManifest.try_from_current {parts} {manifest : InstanceManifest} (h : try_from parts = .ok manifest) :
    parts.1 = CAPTURE_FORMAT_VERSION := by
  obtain ⟨hcurrent, -⟩ := unit_bind_eq_ok_iff.mp h
  exact of_decide_eq_true (ensure_eq_ok_iff.mp hcurrent)

def TargetRecord.rebuild (self : TargetRecord) : Except Error TargetRecord := TargetRecord.new self.name self.kind

theorem TargetRecord.rebuild_eq (self : TargetRecord) : self.rebuild = .ok self := self.try_from_parts

def BuildRecord.rebuild (self : BuildRecord) : Except Error BuildRecord := do
  let target ← self.target.rebuild
  BuildRecord.new self.package self.package_version target self.profile self.cargo_program self.invocation_directory
    self.cargo_arguments

theorem BuildRecord.rebuild_eq (self : BuildRecord) : self.rebuild = .ok self := by
  rw [rebuild, self.target.rebuild_eq]
  exact self.try_from_parts

def CompilerIdentity.rebuild (self : CompilerIdentity) : Except Error CompilerIdentity :=
  CompilerIdentity.new self.rustc self.release self.commit_hash self.host self.sysroot

theorem CompilerIdentity.rebuild_eq (self : CompilerIdentity) : self.rebuild = .ok self := self.try_from_parts

variable {M : CargoSchema}

def CaptureAnalysis.rebuild (self : CaptureAnalysis (CargoArtifactRecord M)) :
    Except Error (CaptureAnalysis (CargoArtifactRecord M)) := do
  let request_key ← self.request_key.rebuild
  let token ← self.token.rebuild
  let artifact ← CargoArtifactRecord.new self.artifact.artifact
  return { request_key, token, artifact }

theorem CaptureAnalysis.rebuild_eq (self : CaptureAnalysis (CargoArtifactRecord M)) : self.rebuild = .ok self := by
  rw [rebuild, CaptureKey.rebuild, CaptureKey.parse_value, AnalysisToken.rebuild, AnalysisToken.parse_value,
    self.artifact.new_artifact]
  rfl

def CaptureRecord.rebuild (self : CaptureRecord (CargoArtifactRecord M)) :
    Except Error (CaptureRecord (CargoArtifactRecord M)) := do
  let id ← self.id.rebuild
  let build ← self.build.rebuild
  let compiler ← self.compiler.rebuild
  let analysis ← self.analysis.rebuild
  return CaptureRecord.new id self.completed_at_unix_ms build compiler analysis

theorem CaptureRecord.rebuild_eq (self : CaptureRecord (CargoArtifactRecord M)) : self.rebuild = .ok self := by
  rw [rebuild, CaptureId.rebuild, CaptureId.parse_value, self.build.rebuild_eq, self.compiler.rebuild_eq,
    self.analysis.rebuild_eq]
  exact congrArg Except.ok self.new_fields

theorem CaptureRecord.try_from_current {parts} {record : CaptureRecord (CargoArtifactRecord M)}
    (h : try_from parts = .ok record) : parts.1 = CAPTURE_FORMAT_VERSION := by
  obtain ⟨hcurrent, -⟩ := unit_bind_eq_ok_iff.mp h
  exact of_decide_eq_true (ensure_eq_ok_iff.mp hcurrent)

/-- A Cargo artifact that is decoded has passed the constructor of its record. -/
theorem CargoArtifactRecord.decoded_new [Json (Artifact M)] {v : Value} {record : CargoArtifactRecord M}
    (h : from_value v = some record) :
    ∃ artifact : Artifact M, from_value v = some artifact ∧ CargoArtifactRecord.new artifact = .ok record := by
  obtain ⟨artifact, hartifact, hnew⟩ := Option.bind_eq_some_iff.mp h
  exact ⟨artifact, hartifact, eq_ok_of_toOption hnew⟩

/-- Every record at every depth is decoded from its fields by its own constructor, and every identity is parsed. -/
structure Validated (M : CargoSchema) [Json (Artifact M)] : Prop where
  capture_id : Parses CaptureId.parse
  request_key : Parses CaptureKey.parse
  token : Parses AnalysisToken.parse
  artifact : ArtifactRecord.fields.Converts ArtifactRecord.try_from
  range : ByteRange.fields.Converts ByteRange.try_from
  definition : DefinitionRecord.fields.Converts DefinitionRecord.try_from
  placement : PlacementRecord.fields.Converts PlacementRecord.try_from
  source : SourceRecord.fields.Converts SourceRecord.try_from
  instance_ : InstanceRecord.fields.Converts InstanceRecord.try_from
  llvm_definition : LlvmDefinitionRecord.fields.Converts LlvmDefinitionRecord.try_from
  llvm_module : LlvmModuleRecord.fields.Converts LlvmModuleRecord.try_from
  llvm_provenance : LlvmProvenance.fields.Converts LlvmProvenance.try_from
  manifest : InstanceManifest.fields.Converts InstanceManifest.try_from
  target : TargetRecord.fields.Converts TargetRecord.try_from
  build : BuildRecord.fields.Converts BuildRecord.try_from
  compiler : CompilerIdentity.fields.Converts CompilerIdentity.try_from
  cargo_artifact : ∀ (v : Value) (record : CargoArtifactRecord M), from_value v = some record →
    ∃ artifact : Artifact M, from_value v = some artifact ∧ CargoArtifactRecord.new artifact = .ok record
  analysis : (CaptureAnalysis.fields (M := M)).Converts CaptureAnalysis.try_from
  capture : (CaptureRecord.fields (M := M)).Converts CaptureRecord.try_from

theorem validated [Json (Artifact M)] : Validated M where
  capture_id := parses rfl
  request_key := parses rfl
  token := parses rfl
  artifact := Fields.converts rfl
  range := Fields.converts rfl
  definition := Fields.converts rfl
  placement := Fields.converts rfl
  source := Fields.converts rfl
  instance_ := Fields.converts rfl
  llvm_definition := Fields.converts rfl
  llvm_module := Fields.converts rfl
  llvm_provenance := Fields.converts rfl
  manifest := Fields.converts rfl
  target := Fields.converts rfl
  build := Fields.converts rfl
  compiler := Fields.converts rfl
  cargo_artifact _ _ := CargoArtifactRecord.decoded_new
  analysis := Fields.converts rfl
  capture := Fields.converts rfl

/-- The two durable records are decoded from what they are encoded as. A document that is decoded states the current
version, and its fields pass the constructor, as do those of every record inside it; the record is rebuilt from its own
fields through every constructor below it. -/
theorem durable_records_validated [Json (Artifact M)] :
    (∀ record : CaptureRecord (CargoArtifactRecord M), from_value (to_value record) = some record) ∧
    (∀ manifest : InstanceManifest, from_value (to_value manifest) = some manifest) ∧
    (∀ (v : Value) (record : CaptureRecord (CargoArtifactRecord M)), from_value v = some record →
      (∃ parts, CaptureRecord.fields.read (CaptureRecord.fields (M := M)).names v = some parts ∧
        parts.1 = CAPTURE_FORMAT_VERSION ∧ CaptureRecord.try_from parts = .ok record) ∧
      record.format_version = CAPTURE_FORMAT_VERSION ∧ record.rebuild = .ok record) ∧
    (∀ (v : Value) (manifest : InstanceManifest), from_value v = some manifest →
      (∃ parts, InstanceManifest.fields.read InstanceManifest.fields.names v = some parts ∧
        parts.1 = CAPTURE_FORMAT_VERSION ∧ InstanceManifest.try_from parts = .ok manifest) ∧
      manifest.format_version = CAPTURE_FORMAT_VERSION ∧ manifest.rebuild = .ok manifest) ∧
    Validated M := by
  refine ⟨Json.read_back, Json.read_back, ?_, ?_, validated⟩
  · intro v record h
    obtain ⟨parts, hread, hconvert⟩ := validated.capture v record h
    exact ⟨⟨parts, hread, CaptureRecord.try_from_current hconvert, hconvert⟩, record.current, record.rebuild_eq⟩
  · intro v manifest h
    obtain ⟨parts, hread, hconvert⟩ := (validated (M := M)).manifest v manifest h
    exact ⟨⟨parts, hread, InstanceManifest.try_from_current hconvert, hconvert⟩, manifest.current, manifest.rebuild_eq⟩

namespace fixture

/-- Cargo's metadata with its kinds as texts. A target carries its edition and what Cargo runs on it, and a profile its
debug information and its checks. -/
@[reducible] def schema : CargoSchema where
  Kind := String
  CrateType := String
  Options := String × Bool × Bool × Bool
  Settings := UInt32 × Bool × Bool × Bool
  kind_order := inferInstance
  crate_type_order := inferInstance
  options_eq := inferInstance
  settings_eq := inferInstance
  kind_text := id
  crate_type_text := id

structure ArtifactProfile where
  opt_level : String
  settings : schema.Settings

instance profile_json : Json ArtifactProfile :=
  Fields.struct (ε := Error)
    (.field "opt_level" ArtifactProfile.opt_level <| .field "debuginfo" (fun profile => profile.settings.1) <|
      .field "debug_assertions" (fun profile => profile.settings.2.1) <|
      .field "overflow_checks" (fun profile => profile.settings.2.2.1) <|
      .field "test" (fun profile => profile.settings.2.2.2) .done)
    (by decide)
    (fun parts => .ok ⟨parts.1, parts.2.1, parts.2.2.1, parts.2.2.2.1, parts.2.2.2.2.1⟩) fun _ => rfl

instance target_json : Json (Target schema) :=
  Fields.struct (ε := Error)
    (.field "name" Target.name <| .field "kind" Target.kind <| .field "crate_types" Target.crate_types <|
      .field "required-features" Target.required_features <| .field "src_path" Target.src_path <|
      .field "edition" (fun target => target.options.1) <| .field "doctest" (fun target => target.options.2.1) <|
      .field "test" (fun target => target.options.2.2.1) <| .field "doc" (fun target => target.options.2.2.2) .done)
    (by decide)
    (fun (name, kind, crate_types, required_features, src_path, edition, doctest, test, doc, _) =>
      .ok { name, kind, crate_types, required_features, src_path, options := (edition, doctest, test, doc) })
    fun _ => rfl

instance artifact_json : Json (Artifact schema) :=
  Fields.struct (ε := Error)
    (.field "package_id" Artifact.package_id <| .field "manifest_path" Artifact.manifest_path <|
      .field "target" Artifact.target <|
      .field "profile" (fun artifact => ArtifactProfile.mk artifact.opt_level artifact.settings) <|
      .field "features" Artifact.features <| .field "filenames" Artifact.filenames <|
      .optional "executable" (fun artifact => artifact.executable.map PathBuf.text)
        (fun artifact => by cases artifact.executable <;> rfl) <|
      .field "fresh" Artifact.fresh .done)
    (by decide)
    (fun (package_id, manifest_path, target, profile, features, filenames, executable, fresh, _) =>
      .ok { package_id, manifest_path, target, opt_level := profile.opt_level, settings := profile.settings, features,
            filenames, executable := executable.map PathBuf.mk, fresh })
    fun artifact => by
      obtain ⟨package_id, manifest_path, target, opt_level, settings, features, filenames, executable, fresh⟩ := artifact
      cases executable <;> rfl

/-- A finished capture as a document. Its lists are in another order than the record's, and Cargo found its artifact
fresh. -/
def capture_document : Value := .object [
  ("format_version", .number (.pos_int 4)), ("id", .string "zyxwvutsrqponmlkzyxwvutsrqponmlk"),
  ("completed_at_unix_ms", .number (.pos_int 1000)),
  ("build", .object [("package", .string "example"), ("package_version", .string "0.1.0"),
    ("target", .object [("name", .string "example"), ("kind", .string "lib")]), ("profile", .string "release"),
    ("cargo_program", .string "cargo"), ("invocation_directory", .string "/workspace"),
    ("cargo_arguments", .array [.string "rustc"])]),
  ("compiler", .object [("rustc", .string "/toolchain/bin/rustc"), ("release", .string "1.99.0-nightly"),
    ("commit_hash", .string "0123456789abcdef0123456789abcdef01234567"), ("host", .string "aarch64-apple-darwin"),
    ("sysroot", .string "/toolchain")]),
  ("analysis", .object [
    ("request_key", .string "0123456789abcdef0123456789abcdef0123456789abcdef0123456789abcdef"),
    ("token", .string "0123456789ab4def8123456789abcdef"),
    ("artifact", .object [("package_id", .string "path+file:///workspace#example@0.1.0"),
      ("manifest_path", .string "/workspace/Cargo.toml"),
      ("target", .object [("name", .string "example"), ("kind", .array [.string "rlib", .string "lib"]),
        ("crate_types", .array [.string "rlib", .string "lib"]), ("required-features", .array [.string "alpha"]),
        ("src_path", .string "/workspace/src/lib.rs"), ("edition", .string "2024"), ("doctest", .bool true),
        ("test", .bool true), ("doc", .bool true)]),
      ("profile", .object [("opt_level", .string "s"), ("debuginfo", .number (.pos_int 1)),
        ("debug_assertions", .bool false), ("overflow_checks", .bool true), ("test", .bool false)]),
      ("features", .array [.string "beta", .string "alpha"]),
      ("filenames", .array [.string "/workspace/target/libexample.rlib"]), ("executable", .null),
      ("fresh", .bool true)])])]

/-- An instance with its source, a module with its function, and an alias of the function. -/
def manifest_document : Value := .object [
  ("format_version", .number (.pos_int 4)), ("capture_id", .string "zyxwvutsrqponmlkzyxwvutsrqponmlk"),
  ("instances", .array [.object [
    ("definition", .object [("crate_name", .string "example"), ("definition_path", .string "example::kernel")]),
    ("display_name", .string "example::kernel::<u64>"), ("raw_symbol", .string "_RNvCexample6kernelm"),
    ("placements", .array [.object [("codegen_unit", .string "example-cgu.0"), ("linkage", .string "External"),
      ("visibility", .string "Default"), ("local_copy", .bool false), ("size_estimate", .number (.pos_int 17))]]),
    ("source", .object [("available", .object [("artifact", .number (.pos_int 1)),
      ("range", .object [("start", .number (.pos_int 2)), ("length", .number (.pos_int 8))]),
      ("display_path", .string "src/lib.rs"), ("starting_line", .number (.pos_int 1))])])]]),
  ("artifacts", .array [
    .object [("id", .number (.pos_int 1)), ("kind", .string "source"), ("byte_len", .number (.pos_int 10))],
    .object [("id", .number (.pos_int 2)), ("kind", .string "llvm"), ("byte_len", .number (.pos_int 20))]]),
  ("llvm_provenance", .object [("backend", .string "llvm"), ("llvm_version", .string "22.1.0"),
    ("target", .string "x86_64-unknown-linux-gnu"), ("optimization", .string "3"), ("lto", .string "off"),
    ("incremental", .bool false), ("linker_plugin_lto", .bool false), ("codegen_units", .number (.pos_int 16)),
    ("recipe_revision", .number (.pos_int 1))]),
  ("llvm", .object [("collected", .array [.object [("artifact", .number (.pos_int 2)),
    ("compiler_module", .string "example-cgu.0"), ("stage", .string "no_lto_optimized"),
    ("definitions", .array [
      .object [("raw_symbol", .string "body"), ("kind", .string "function"),
        ("range", .object [("start", .number (.pos_int 0)), ("length", .number (.pos_int 10))])],
      .object [("raw_symbol", .string "alias"),
        ("kind", .object [("direct_alias", .object [("target", .string "body")])]),
        ("range", .object [("start", .number (.pos_int 10)), ("length", .number (.pos_int 10))])]])]])])]

set_option maxRecDepth 100000 in
theorem capture_decoded : (from_value capture_document : Option (CaptureRecord (CargoArtifactRecord schema))).isSome = true := by
  decide

set_option maxRecDepth 100000 in
theorem manifest_decoded : (from_value manifest_document : Option InstanceManifest).isSome = true := by
  decide

end fixture

/-- Both documents are decoded, and each record is rebuilt and decoded again. -/
theorem durable_records_validated_fixture :
    (∃ record : CaptureRecord (CargoArtifactRecord fixture.schema), from_value fixture.capture_document = some record ∧
      record.rebuild = .ok record ∧ from_value (to_value record) = some record) ∧
    ∃ manifest : InstanceManifest, from_value fixture.manifest_document = some manifest ∧
      manifest.rebuild = .ok manifest ∧ from_value (to_value manifest) = some manifest := by
  obtain ⟨hrecord, hmanifest, hrecords, hmanifests, -⟩ := durable_records_validated (M := fixture.schema)
  obtain ⟨record, hdecoded⟩ := Option.isSome_iff_exists.mp fixture.capture_decoded
  obtain ⟨manifest, hmanifest_decoded⟩ := Option.isSome_iff_exists.mp fixture.manifest_decoded
  exact ⟨⟨record, hdecoded, (hrecords _ _ hdecoded).2.2, hrecord record⟩,
    manifest, hmanifest_decoded, (hmanifests _ _ hmanifest_decoded).2.2, hmanifest manifest⟩

end optic.records
