import Mathlib.Data.List.Forall2
import Optic.Compiler.Protocol
import Optic.Wire.Encoder

open rust optic.records wire wire.Encoder optic.compiler.protocol

namespace optic.driver

/-- Why the driver could not write a manifest. -/
inductive Failure where
  | invalid_data (message : String)
  | panicked (message : String)
deriving DecidableEq, Repr

inductive OptLevel where
  | No
  | Less
  | More
  | Aggressive
  | Size
  | SizeMin
deriving DecidableEq, Repr

inductive Lto where
  | No
  | ThinLocal
  | Thin
  | Fat
deriving DecidableEq, Repr

inductive Linkage where
  | AvailableExternally
  | Common
  | ExternalWeak
  | External
  | Internal
  | LinkOnceAny
  | LinkOnceODR
  | WeakAny
  | WeakODR
deriving DecidableEq, Repr

inductive Visibility where
  | Default
  | Hidden
  | Protected
deriving DecidableEq, Repr

/-- Where and how the compiler places one function. -/
structure MonoItemData where
  inlined : Bool
  linkage : Linkage
  visibility : Visibility
  size_estimate : UInt64
deriving DecidableEq, Repr

/-- The definition and symbol identity of one monomorphized function. -/
structure ConcreteInstance where
  definition_crate : String
  definition_path : String
  display_name : String
  raw_symbol : String
deriving DecidableEq, Repr

/-- A whole-item range in a compiler-loaded snapshot. -/
structure SourceSpan where
  artifact : UInt64
  start : UInt64
  length : UInt64
  display_path : OsString
  starting_line : UInt64

/-- A captured source range, or one of the unavailable codes of the protocol. -/
inductive Source where
  | Available (span : SourceSpan)
  | Unavailable (reason : UInt32) (known : ∃ unavailable, reason = unavailable_code unavailable)

/-- Effective compiler settings, and the support code of the collection recipe. -/
structure Configuration where
  backend : String
  target : String
  optimization : OptLevel
  lto : Lto
  incremental : Bool
  linker_plugin : Bool
  codegen_units : UInt32
  unsupported : UInt32
deriving DecidableEq, Repr

/-- Writes into a file that accepts every write. -/
abbrev ManifestWriter := Encoder Failure Unit

namespace ManifestWriter

def write_bytes (content : List UInt8) : ManifestWriter := bytes content

def write_u32 (value : UInt32) : ManifestWriter := write_bytes (le_bytes 4 value.toNat)

def write_u64 (value : UInt64) : ManifestWriter := write_bytes (le_bytes 8 value.toNat)

def write_string (value : String) : ManifestWriter := do
  check ((text value).length < UInt32.size)
    (.invalid_data s!"string length must fit in u32, got {(text value).length}")
  write_u32 (.ofNat (text value).length)
  write_bytes (text value)

/-- A path, unless it is not UTF-8. -/
def write_path (path : OsString) (message : String) : ManifestWriter :=
  match path.into_string with
  | some path => write_string path
  | none => throw (.invalid_data message)

/-- The common header. -/
def write_header (marker : String) : ManifestWriter := do
  write_bytes MANIFEST_MAGIC
  write_u32 PROTOCOL_VERSION
  check ((text marker).length < UInt32.size)
    (.panicked "the collector builds the marker from one fixed-length analysis token")
  write_u32 (.ofNat (text marker).length)
  write_bytes (text marker)

def linkage_name : Linkage → String
  | .AvailableExternally => "AvailableExternally"
  | .Common => "Common"
  | .ExternalWeak => "ExternalWeak"
  | .External => "External"
  | .Internal => "Internal"
  | .LinkOnceAny => "LinkOnceAny"
  | .LinkOnceODR => "LinkOnceODR"
  | .WeakAny => "WeakAny"
  | .WeakODR => "WeakODR"

def visibility_name : Visibility → String
  | .Default => "Default"
  | .Hidden => "Hidden"
  | .Protected => "Protected"

def optimization_name : OptLevel → String
  | .No => "0"
  | .Less => "1"
  | .More => "2"
  | .Aggressive => "3"
  | .Size => "s"
  | .SizeMin => "z"

def lto_value : Lto → UInt32
  | .No => LTO_OFF
  | .ThinLocal => LTO_LOCAL_THIN
  | .Thin => LTO_CROSS_CRATE_THIN
  | .Fat => LTO_FAT

def write_source (source : Source) : ManifestWriter :=
  match source with
  | .Available span => do
    write_u32 SOURCE_AVAILABLE
    write_u64 span.artifact
    write_u64 span.start
    write_u64 span.length
    write_path span.display_path "source display path must be UTF-8"
    write_u64 span.starting_line
  | .Unavailable reason _ => write_u32 reason

/-- Writes one function placement in the field order of the protocol. -/
def write_placement (instance_ : ConcreteInstance) (codegen_unit : String) (placement : MonoItemData)
    (source : Source) : ManifestWriter := do
  write_u32 PLACEMENT_RECORD
  write_string instance_.definition_crate
  write_string instance_.definition_path
  write_string instance_.display_name
  write_string instance_.raw_symbol
  write_string codegen_unit
  write_string (linkage_name placement.linkage)
  write_string (visibility_name placement.visibility)
  write_u32 (if placement.inlined then 1 else 0)
  write_u64 placement.size_estimate
  write_source source

/-- Writes the single effective configuration before any other record. -/
def write_configuration (configuration : Configuration) : ManifestWriter := do
  write_u32 CONFIGURATION_RECORD
  write_string configuration.backend
  write_string configuration.target
  write_string (optimization_name configuration.optimization)
  write_u32 (lto_value configuration.lto)
  write_u32 (if configuration.incremental then 1 else 0)
  write_u32 (if configuration.linker_plugin then 1 else 0)
  write_u32 configuration.codegen_units
  write_u32 LLVM_RECIPE_REVISION
  write_u32 configuration.unsupported

/-- Declares a snapshot with its attempt-local ID and byte length. -/
def write_source_file (id length : UInt64) : ManifestWriter := do
  write_u32 SOURCE_FILE_RECORD
  write_u64 id
  write_u64 length

/-- Records the bitcode file that a regular codegen unit will produce. -/
def write_module (name : String) (path : OsString) : ManifestWriter := do
  write_u32 MODULE_RECORD
  write_string name
  write_path path "bitcode path must be UTF-8"

/-- Completes the stream. -/
def finish : ManifestWriter := write_u32 END_RECORD

end ManifestWriter

/-- What the analysis asks the writer for behind the configuration. -/
inductive Call where
  | placement (instance_ : ConcreteInstance) (codegen_unit : String) (data : MonoItemData) (source : Source)
  | source_file (id length : UInt64)
  | module (name : String) (path : OsString)

def Call.write : Call → ManifestWriter
  | .placement instance_ codegen_unit data source =>
    ManifestWriter.write_placement instance_ codegen_unit data source
  | .source_file id length => ManifestWriter.write_source_file id length
  | .module name path => ManifestWriter.write_module name path

def write_calls : List Call → ManifestWriter
  | [] => pure ()
  | call :: calls => do
    call.write
    write_calls calls

/-- The complete stream: header, configuration, records and end. -/
def emit (marker : String) (configuration : Configuration) (calls : List Call) : Except Failure (List UInt8) :=
  let stream : ManifestWriter := do
    ManifestWriter.write_header marker
    ManifestWriter.write_configuration configuration
    write_calls calls
    ManifestWriter.finish
  (stream.run []).map Prod.snd

end optic.driver
