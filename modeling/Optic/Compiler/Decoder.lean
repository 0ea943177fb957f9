import Optic.Compiler.Protocol
import Optic.Wire.Decoder

open rust optic.records wire streams optic.compiler.protocol

namespace optic.compiler

/-- Decodes one invocation's stream while retaining its path for error context. -/
structure ManifestDecoder where
  path : PathBuf
  /-- The bytes that the reader delivers. -/
  reader : List UInt8
  /-- What the reader reports behind its bytes, unless it is at their end. -/
  failure : Option IoError
  marker : String

/-- What the record stream has declared so far. -/
structure Declarations where
  placements : PlacementsByInstance
  artifacts : List ArtifactRecord
  artifact_ids : List ArtifactId
  modules : List ExpectedModule
  module_names : List String
  module_paths : List PathBuf

def Declarations.new : Declarations where
  placements := ∅
  artifacts := []
  artifact_ids := []
  modules := []
  module_names := []
  module_paths := []

/-- The LTO mode of a known code. -/
def lto_of (code : UInt32) : Option LlvmLto :=
  if code = LTO_OFF then some .Off
  else if code = LTO_LOCAL_THIN then some .LocalThin
  else if code = LTO_CROSS_CRATE_THIN then some .CrossCrateThin
  else if code = LTO_FAT then some .Fat
  else none

/-- The LLVM support of a known code. -/
def support_of (code : UInt32) : Option (Option UnsupportedLlvmConfiguration) :=
  if code = LLVM_SUPPORTED then some none
  else if code = LLVM_UNSUPPORTED_INCREMENTAL then some (some .Incremental)
  else if code = LLVM_UNSUPPORTED_CROSS_CRATE_THIN then some (some .CrossCrateThinLto)
  else if code = LLVM_UNSUPPORTED_FAT then some (some .FatLto)
  else if code = LLVM_UNSUPPORTED_LINKER_PLUGIN then some (some .LinkerPluginLto)
  else if code = LLVM_UNSUPPORTED_OTHER_BACKEND then some (some .OtherBackend)
  else if code = LLVM_UNSUPPORTED_UNVERIFIED_COMPILER then some (some .UnverifiedCompiler)
  else none

/-- The reason of a known unavailable code. -/
def unavailable_of (code : UInt32) : Option SourceUnavailable :=
  if code = SOURCE_NONLOCAL then some .Nonlocal
  else if code = SOURCE_UNLOADED then some .Unloaded
  else if code = SOURCE_GENERATED then some .Generated
  else if code = SOURCE_UNSUPPORTED_SPAN then some .UnsupportedSpan
  else if code = SOURCE_OUTSIDE_PACKAGE then some .OutsidePackage
  else none

namespace ManifestDecoder

def invalid (self : ManifestDecoder) (message : String) : Error := .InvalidManifest self.path (.plain message)

/-- Fails unless a check passes. -/
def check (ok : Bool) (error : Error) : Decoder Error Unit := .lift (ensure ok error)

/-- The result of a record constructor. -/
def record {α : Type} (result : Except records.Error α) : Decoder Error α := .lift (result.mapError .Record)

def read_exact (self : ManifestDecoder) (length : Nat) (field : String) : Decoder Error (List UInt8) :=
  .take length (fun source =>
    if source.kind = .UnexpectedEof then self.invalid s!"{field} must not be truncated, got end of file"
    else .Filesystem "read compiler manifest" self.path source) self.failure

def read_u32 (self : ManifestDecoder) (field : String) : Decoder Error UInt32 := do
  let bytes ← self.read_exact 4 field
  return .ofNat (of_le_bytes bytes)

def read_u64 (self : ManifestDecoder) (field : String) : Decoder Error UInt64 := do
  let bytes ← self.read_exact 8 field
  return .ofNat (of_le_bytes bytes)

def read_bool (self : ManifestDecoder) (field : String) : Decoder Error Bool := do
  let actual ← self.read_u32 field
  if actual = 0 then return false
  else if actual = 1 then return true
  else .fail (self.invalid s!"{field} must be 0 or 1, got {actual}")

/-- Every `u32` length fits in a 64-bit `usize`. -/
def read_string (self : ManifestDecoder) (field : String) : Decoder Error String := do
  let length ← self.read_u32 field
  let bytes ← self.read_exact length.toNat field
  .lift (ok_or (from_utf8 bytes) (.InvalidManifest self.path
    (.invalid_utf8 s!"{field} must be valid UTF-8, got " bytes)))

def require_end_of_file (self : ManifestDecoder) : Decoder Error Unit :=
  .finish (self.invalid "manifest must not contain trailing bytes, got at least one trailing byte")
    (.Filesystem "read compiler manifest" self.path) self.failure

def read_header (self : ManifestDecoder) : Decoder Error Unit := do
  let magic ← self.read_exact MANIFEST_MAGIC.length "manifest header"
  check (magic = MANIFEST_MAGIC)
    (self.invalid s!"manifest header must match Cargo Optic, got {magic.map UInt8.toNat}")
  let version ← self.read_u32 "protocol version"
  check (version = PROTOCOL_VERSION)
    (self.invalid s!"protocol version must be {PROTOCOL_VERSION}, got {version}")
  let marker ← self.read_string "selected marker"
  check (marker = self.marker)
    (.InvalidManifest self.path (.debug "selected marker must match this analysis, got " marker))

def read_configuration (self : ManifestDecoder) : Decoder Error Configuration := do
  let kind ← self.read_u32 "configuration record kind"
  check (kind = CONFIGURATION_RECORD) (self.invalid s!"the first record must be configuration, got {kind}")
  let backend ← self.read_string "codegen backend"
  let target ← self.read_string "effective target"
  let optimization ← self.read_string "optimization level"
  let lto ← self.read_u32 "effective LTO"
  let lto ← .lift (ok_or (lto_of lto) (self.invalid s!"LTO must be a known protocol code, got {lto}"))
  let incremental ← self.read_bool "incremental compilation"
  let linker_plugin ← self.read_bool "linker-plugin LTO"
  let codegen_units ← self.read_u32 "configured codegen units"
  let recipe ← self.read_u32 "LLVM recipe revision"
  check (recipe = LLVM_RECIPE_REVISION)
    (self.invalid s!"LLVM recipe revision must match this collector, got {recipe}")
  let unsupported ← self.read_u32 "unsupported LLVM configuration"
  let unsupported ← .lift (ok_or (support_of unsupported)
    (self.invalid s!"unsupported configuration must be a known protocol code, got {unsupported}"))
  return { backend, target, optimization, lto, incremental, linker_plugin, codegen_units, unsupported }

/-- Reads the fields in the order documented by the protocol. -/
def read_placement (self : ManifestDecoder) : Decoder Error (InstanceKey × PlacementRecord) := do
  let definition_crate ← self.read_string "definition crate"
  let definition_path ← self.read_string "definition path"
  let display_name ← self.read_string "display name"
  let raw_symbol ← self.read_string "raw symbol"
  let codegen_unit ← self.read_string "codegen unit"
  let linkage ← self.read_string "linkage"
  let visibility ← self.read_string "visibility"
  let local_copy ← self.read_bool "local copy"
  let size_estimate ← self.read_u64 "size estimate"
  let placement ← record (PlacementRecord.new codegen_unit linkage visibility local_copy size_estimate)
  return ({ definition_crate, definition_path, display_name, raw_symbol }, placement)

/-- The bracketed source fields. -/
def read_available (self : ManifestDecoder) : Decoder Error SourceRecord := do
  let artifact ← self.read_u64 "source artifact"
  let start ← self.read_u64 "source start"
  let length ← self.read_u64 "source length"
  let path ← self.read_string "source display path"
  let line ← self.read_u64 "source starting line"
  let range ← record (ByteRange.new start length)
  record (SourceRecord.new ⟨artifact⟩ range ⟨path⟩ line)

def read_source (self : ManifestDecoder) : Decoder Error SourceAvailability := do
  let code ← self.read_u32 "source availability"
  if code = SOURCE_AVAILABLE then
    let source ← self.read_available
    return .Available source
  else
    let reason ← .lift (ok_or (unavailable_of code)
      (self.invalid s!"source availability must be a known protocol code, got {code}"))
    return .Unavailable reason

/-- Adds a placement to the group of its key, which must agree on the source. -/
def add_placement (self : ManifestDecoder) (placements : PlacementsByInstance) (key : InstanceKey)
    (placement : PlacementRecord) (source : SourceAvailability) : Except Error PlacementsByInstance :=
  match placements[key]? with
  | some existing =>
    if existing.source != source then
      .error (self.invalid "one instance must have one source relationship, got conflicting source records")
    else .ok (placements.insert key { existing with placements := existing.placements ++ [placement] })
  | none => .ok (placements.insert key { placements := [placement], source })

def read_instance_placement (self : ManifestDecoder) (declared : Declarations) : Decoder Error Declarations := do
  let (key, placement) ← self.read_placement
  let source ← self.read_source
  let placements ← .lift (self.add_placement declared.placements key placement source)
  return { declared with placements }

def read_source_file (self : ManifestDecoder) (declared : Declarations) : Decoder Error Declarations := do
  let id ← self.read_u64 "source artifact ID"
  let length ← self.read_u64 "source byte length"
  let id : ArtifactId := ⟨id⟩
  check (!declared.artifact_ids.any (· = id))
    (self.invalid "source artifact IDs must be unique, got a duplicate ID")
  return { declared with
    artifacts := declared.artifacts ++ [⟨id, .Source, length⟩],
    artifact_ids := id :: declared.artifact_ids }

/-- Checks one expected module against the attempt and the modules before it. -/
def expect_module (self : ManifestDecoder) (configuration : Configuration) (declared : Declarations)
    (name : String) (path : PathBuf) : Except Error Declarations := do
  ensure configuration.unsupported.isNone
    (self.invalid "unsupported LLVM requires no module records, got a module")
  let attempt ← ok_or self.path.parent
    (.panicked "collection supplies a manifest path inside its attempt directory")
  let directory := attempt ++ [.Normal (text "llvm")]
  ensure (!(name = "" || path.parent ≠ some directory || path.file_name.isNone))
    (self.invalid s!"expected bitcode must be an immediate private LLVM file, got {path.text}")
  ensure (!(declared.module_names.any (· = name) || declared.module_paths.any (· == path)))
    (self.invalid "expected modules and paths must be unique, got a duplicate")
  return { declared with
    modules := declared.modules ++ [{ name, path }],
    module_names := name :: declared.module_names,
    module_paths := path :: declared.module_paths }

def read_expected_module (self : ManifestDecoder) (configuration : Configuration) (declared : Declarations) :
    Decoder Error Declarations := do
  let name ← self.read_string "compiler module"
  let path ← self.read_string "expected bitcode path"
  .lift (self.expect_module configuration declared name ⟨path⟩)

/-- What follows the kind of a record. The end record stops the loop. -/
def read_fields (self : ManifestDecoder) (configuration : Configuration) (declared : Declarations) (kind : UInt32) :
    Decoder Error (Option Declarations) :=
  if kind = END_RECORD then return none
  else if kind = PLACEMENT_RECORD then return some (← self.read_instance_placement declared)
  else if kind = SOURCE_FILE_RECORD then return some (← self.read_source_file declared)
  else if kind = MODULE_RECORD then return some (← self.read_expected_module configuration declared)
  else .fail (self.invalid s!"record kind must identify an end, placement, source file, or module, got {kind}")

def read_record (self : ManifestDecoder) (configuration : Configuration) (declared : Declarations) :
    Decoder Error (Option Declarations) := do
  let kind ← self.read_u32 "record kind"
  self.read_fields configuration declared kind

theorem read_record_strict (self : ManifestDecoder) (configuration : Configuration) (declared : Declarations) :
    (self.read_record configuration declared).Strict :=
  Decoder.Strict.bind (Decoder.Strict.bind (Decoder.take_strict 3 _ _) _) _

def read_records (self : ManifestDecoder) (configuration : Configuration) : Decoder Error Declarations :=
  .each (self.read_record configuration) (self.read_record_strict configuration) .new

def read_stream (self : ManifestDecoder) : Decoder Error CompilerManifest := do
  self.read_header
  let configuration ← self.read_configuration
  let declared ← self.read_records configuration
  self.require_end_of_file
  let instances ← .lift (assemble_instances declared.placements)
  return { instances, artifacts := declared.artifacts, configuration, modules := declared.modules }

/-- Reads one complete manifest and rejects partial or trailing data. -/
def read (self : ManifestDecoder) : Except Error CompilerManifest :=
  (self.read_stream.run self.reader).map Prod.fst

/-- Reads one complete manifest from a reader, however that delivers its bytes. -/
def read_from (path : PathBuf) (marker : String) (reader : Reader) : Except Error CompilerManifest :=
  let self : ManifestDecoder := { path, reader := delivered reader.events, failure := none, marker }
  (self.read_stream.drive reader).map Prod.fst

end ManifestDecoder

end optic.compiler
