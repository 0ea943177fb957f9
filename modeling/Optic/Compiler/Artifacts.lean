import Optic.Compiler.Probe
import Optic.LlvmIndex.Refinement
import Optic.Records.Capture
import Optic.Records.Manifest
import Optic.Rust.Text

open byte_scan rust optic.records optic.compiler.protocol

namespace optic.compiler.collector

/-- A regular file. A reader that opens it delivers its bytes, or fails on the way. -/
structure RegularFile where
  bytes : List UInt8
  opened : Except IoError llvm_index.Reader
  fits : bytes.length < UInt64.size
  delivers : ∀ reader, opened = .ok reader → reader.Delivers
  whole : ∀ reader, opened = .ok reader → reader.failure = none → reader.bytes = bytes

def RegularFile.len (self : RegularFile) : UInt64 := .ofNat self.bytes.length

/-- What a path names, without following links. -/
inductive Entry where
  | file (file : RegularFile)
  | other

/-- The filesystem between two processes. -/
structure Files where
  symlink_metadata : PathBuf → Except IoError Entry
  is_file : PathBuf → Bool

structure Command where
  program : PathBuf
  args : List String
deriving DecidableEq, Repr

structure Output where
  status : ExitStatus
  stdout : List UInt8
  stderr : List UInt8

/-- What the processes of a system answer, and the files that they leave. -/
abbrev System := Command → Files → Except IoError Output × Files

/-- Why a process gave no output. -/
inductive RunError where
  | StartProcess (program : PathBuf) (source : IoError)
  | ProcessFailed (program : PathBuf) (status diagnostics : String)
deriving DecidableEq, Repr

namespace RunError

def error : RunError → Error
  | .StartProcess program source => .StartProcess program source
  | .ProcessFailed program status diagnostics => .ProcessFailed program status (some diagnostics)

def display : RunError → String
  | .StartProcess program _ => s!"failed to start {program.text}"
  | .ProcessFailed program status diagnostics =>
    s!"{program.text} must complete successfully, got {status}" ++ if diagnostics = "" then "" else "\n" ++ diagnostics

end RunError

def run (system : System) (command : Command) (files : Files) : Except RunError (Output × Files) := do
  let output ← (system command files).1.mapError (.StartProcess command.program)
  ensure output.status.success
    (.ProcessFailed command.program output.status.display (from_utf8_lossy output.stderr))
  return (output, (system command files).2)

def regular_file (files : Files) (path : PathBuf) : Except Error RegularFile :=
  match files.symlink_metadata path with
  | .error source => .error (.Filesystem "inspect compiler artifact" path source)
  | .ok .other =>
    .error (.Filesystem "read regular compiler artifact" path ⟨.InvalidData, "artifact must be a regular file"⟩)
  | .ok (.file file) => .ok file

/-- Rust's llvm-tools append their release label to LLVM's numeric version. -/
def disassembler_version (output : String) : Option String :=
  ((lines output).findSome? fun line => strip_prefix (trim line) "LLVM version ").map (first_part · '-')

/-- Retains manifest metadata after source checks and optimized-module materialization. -/
structure CollectedEvidence where
  instances : List InstanceRecord
  artifacts : List ArtifactRecord
  provenance : LlvmProvenance
  llvm : LlvmCollection

/-- The exact LLVM version that the compiler of the LLVM backend reports. -/
def compiler_version (system : System) (compiler : CompilerIdentity) (backend : String) (files : Files) :
    Except Error (Option String × Files) :=
  if backend = "llvm" then do
    let (output, files) ← (run system ⟨compiler.rustc, ["-vV"]⟩ files).mapError RunError.error
    let version ← ok_or
      ((lines (from_utf8_lossy output.stdout)).findSome? fun line => strip_prefix line "LLVM version: ")
      (invalid_environment "the LLVM backend requires an exact compiler LLVM version, got none")
    return (some version, files)
  else return (none, files)

/-- Checks the length of a source snapshot. -/
def check_source (directory : PathBuf) (files : Files) (artifact : ArtifactRecord) : Except Error Unit := do
  let path := directory.join artifact.file_name
  let metadata ← regular_file files path
  ensure (metadata.len = artifact.byte_len)
    (invalid_environment s!"source snapshot length must match the compiler manifest, got {path.text}")

/-- The stage of the modules that a mode leads to, where there is one. -/
def stage_of : LlvmLto → Except Error LlvmStage
  | .Off => .ok .NoLtoOptimized
  | .LocalThin => .ok .LocalThinLtoPostPassManager
  | .CrossCrateThin | .Fat =>
    .error (invalid_environment "collected LLVM requires no LTO or local ThinLTO, got another mode")

/-- The first ID behind all that are in use. -/
def first_free (artifacts : List ArtifactRecord) : Except Error UInt64 :=
  match (artifacts.map fun artifact => artifact.id.value).max? with
  | some id => ok_or (checked_add id 1)
    (invalid_environment "artifact IDs must leave space for LLVM modules, got u64::MAX")
  | none => .ok 0

/-- What a failed index is reported as. A scan always ends, so that none is ever stalled. -/
def index_error (path : PathBuf) : Fault llvm_index.Error → Error
  | .error (.panicked message) => .panicked message
  | .error source => .Filesystem "index optimized LLVM artifact" path ⟨source.kind, source.display⟩
  | .stalled => .panicked "stalled"

/-- The modules that are materialized so far. -/
structure Materialized where
  modules : List LlvmModuleRecord
  artifacts : List ArtifactRecord
  next_id : UInt64
  files : Files

/-- Disassembles and indexes one expected module. -/
def collect_module (system : System) (disassembler directory : PathBuf) (stage : LlvmStage) (self : Materialized)
    (module : ExpectedModule) : Except Error Materialized := do
  let bitcode ← regular_file self.files module.path
  ensure (bitcode.len ≠ 0) (invalid_environment s!"expected bitcode must not be empty, got {module.path.text}")
  let id : ArtifactId := ⟨self.next_id⟩
  let next_id ← ok_or (checked_add self.next_id 1)
    (invalid_environment "artifact IDs must fit in u64, got overflow")
  let path := directory.join (ArtifactRecord.file_name ⟨id, .Llvm, 0⟩)
  let (_, files) ← (run system ⟨disassembler, [module.path.text, "-o", path.text]⟩ self.files).mapError fun error =>
    .Filesystem "disassemble expected bitcode module" module.path ⟨.Other, error.display⟩
  let file ← regular_file files path
  let reader ← file.opened.mapError (.Filesystem "open optimized LLVM artifact" path)
  let definitions ← (llvm_index.index reader).mapError (index_error path)
  let record ← (LlvmModuleRecord.new id module.name stage definitions).mapError .Record
  return { modules := self.modules ++ [record]
           artifacts := self.artifacts ++ [⟨id, .Llvm, file.len⟩]
           next_id, files }

/-- Materializes every expected module, with the artifacts that this adds. -/
def collect_modules (system : System) (expected : List ExpectedModule) (compiler : CompilerIdentity)
    (directory : PathBuf) (provenance : LlvmProvenance) (artifacts : List ArtifactRecord) (files : Files) :
    Except Error Materialized := do
  ensure (!(provenance.backend ≠ "llvm" || provenance.incremental || provenance.linker_plugin_lto))
    (invalid_environment "collected LLVM requires a supported effective configuration, got conflicting metadata")
  let stage ← stage_of provenance.lto
  let disassembler := ((compiler.sysroot.join "lib/rustlib").push compiler.host).join "bin/llvm-dis"
  ensure (files.is_file disassembler)
    (invalid_environment (s!"optimized LLVM collection requires {disassembler.text}. " ++
      "Install the matching component with rustup component add llvm-tools"))
  let (output, files) ← (run system ⟨disassembler, ["--version"]⟩ files).mapError RunError.error
  let actual := disassembler_version (from_utf8_lossy output.stdout)
  ensure (actual = provenance.llvm_version)
    (.CompilerEnvironment (.debug_option "llvm-dis must match the compiler's LLVM version, got " actual))
  let next_id ← first_free artifacts
  expected.foldlM (collect_module system disassembler directory stage) { modules := [], artifacts, next_id, files }

/-- Materializes the evidence of a compiler manifest in the directory of its attempt. -/
def collect (system : System) (manifest : CompilerManifest) (compiler : CompilerIdentity) (directory : PathBuf)
    (files : Files) : Except Error (CollectedEvidence × Files) := do
  let configuration := manifest.configuration
  let (version, files) ← compiler_version system compiler configuration.backend files
  let provenance ← (LlvmProvenance.new configuration.backend version configuration.target configuration.optimization
    configuration.lto configuration.incremental configuration.linker_plugin configuration.codegen_units
    LLVM_RECIPE_REVISION).mapError .Record
  manifest.artifacts.forM (check_source directory files)
  match configuration.unsupported with
  | some reason =>
    return ({ instances := manifest.instances, artifacts := manifest.artifacts, provenance,
              llvm := .NotCaptured reason }, files)
  | none =>
    let result ← collect_modules system manifest.modules compiler directory provenance manifest.artifacts files
    return ({ instances := manifest.instances, artifacts := result.artifacts, provenance,
              llvm := .Collected result.modules }, result.files)

/-- The durable manifest of what was collected. -/
def CollectedEvidence.into_manifest (self : CollectedEvidence) (capture_id : CaptureId) :
    Except records.Error InstanceManifest :=
  InstanceManifest.new capture_id self.instances self.artifacts self.provenance self.llvm

end optic.compiler.collector
