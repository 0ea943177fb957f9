import Optic.Compiler.Driver
import Optic.Compiler.Snapshots
import Optic.Compiler.Wrapper
import Optic.Rust.Stateful
import Optic.Streams.BufWriter

open rust optic.records optic.compiler optic.compiler.protocol file_system streams wire

namespace file_system

/-- A path whose last name has another extension. -/
def Path.with_extension (self : Path) (extension : String) : Path :=
  match self.getLast? with
  | none => self
  | some name => Path.join self.dropLast (name.with_extension extension)

/-- The text of an absolute path, unless a name in it is not UTF-8. -/
def Path.to_str (self : Path) : Option String :=
  (self.mapM OsString.into_string).map fun names => "/" ++ "/".intercalate names

end file_system

namespace optic.driver

/-- Names the output path passed from the collector to the driver. -/
def MANIFEST_PATH_ENV : String := "OPTIC_COMPILER_MANIFEST"

/-- Names the canonical selected package root that bounds source capture. -/
def PACKAGE_ROOT_ENV : String := "OPTIC_SELECTED_PACKAGE_ROOT"

/-- The inner driver process: the file system, and what the writer of its manifest has buffered. -/
structure Process where
  world : World
  buffer : List UInt8 := []

/-- A part of the inner driver process that may fail. What it did before an error stays done. -/
abbrev Run := EStateM Stop Process

/-- An operation of the file system. -/
def file {α : Type} (p : Action IoError α) : Run α := fun process =>
  match p process.world with
  | (.ok a, world) => .ok a { process with world }
  | (.error source, world) => .error (.filesystem source) { process with world }

/-- A check without effect. -/
def check (result : Except Stop Unit) : Run Unit :=
  match result with
  | .ok () => pure ()
  | .error stop => throw stop

namespace manifest

/-- Writes an attempt's private manifest, which is published only if `finish` succeeds. -/
structure ManifestWriter where
  /-- The final path, made visible only after the end record is flushed. -/
  path : Path
  /-- A sibling that everything is written to before. -/
  temporary_path : Path

namespace ManifestWriter

variable (self : ManifestWriter)

/-- `BufWriter::flush_buf`. What a failure leaves stays buffered. -/
def flush : Run Unit := fun process =>
  if process.buffer = [] then .ok () process
  else
    match write_file self.temporary_path process.buffer process.world with
    | (.ok (), world) => .ok () { world }
    | (.error (source, written), world) =>
      .error (.filesystem source) { world, buffer := process.buffer.drop written }

/-- What a dropped writer does with the rest of its buffer. -/
def drop (process : Process) : World := (state (self.flush.run process)).world

def push (bytes : List UInt8) : Run Unit := modify fun process => { process with buffer := process.buffer ++ bytes }

/-- Passes on directly what no buffer can hold. -/
def write_through (bytes : List UInt8) : Run Unit :=
  if bytes.length ≥ BUFFER_CAPACITY then file (write_all self.temporary_path bytes) else push bytes

/-- `BufWriter::write_all`: buffers what fits, and makes room for what does not. -/
def write_bytes (bytes : List UInt8) : Run Unit := do
  let process ← getThe Process
  if bytes.length < BUFFER_CAPACITY - process.buffer.length then push bytes
  else if bytes.length > BUFFER_CAPACITY - process.buffer.length then do
    self.flush
    self.write_through bytes
  else self.write_through bytes

def write_u32 (value : UInt32) : Run Unit := self.write_bytes (le_bytes 4 value.toNat)

def write_u64 (value : UInt64) : Run Unit := self.write_bytes (le_bytes 8 value.toNat)

def write_string (value : String) : Run Unit := do
  check (ensure ((text value).length < UInt32.size)
    (.manifest (.invalid_data s!"string length must fit in u32, got {(text value).length}")))
  self.write_u32 (.ofNat (text value).length)
  self.write_bytes (text value)

def write_path (path : OsString) (message : String) : Run Unit :=
  match path.into_string with
  | some path => self.write_string path
  | none => throw (.manifest (.invalid_data message))

/-- Creates an incomplete manifest and writes its format header. -/
def create (path : Path) (marker : Option OsString) : Run ManifestWriter := do
  let self : ManifestWriter := { path, temporary_path := path.with_extension "tmp" }
  file (create_file self.temporary_path)
  match marker with
  | none => throw (.manifest (.invalid_data "environment variable not found"))
  | some marker =>
    match marker.into_string with
    | none => throw (.manifest (.invalid_data "environment variable was not valid unicode"))
    | some marker => do
      check (ensure ((text marker).length < UInt32.size)
        (.manifest (.panicked "the collector builds the marker from one fixed-length analysis token")))
      self.write_bytes (header.spell marker)
      return self

def write_source (source : Source) : Run Unit :=
  match source with
  | .Available span => do
    self.write_u32 SOURCE_AVAILABLE
    self.write_u64 span.artifact
    self.write_u64 span.start
    self.write_u64 span.length
    self.write_path span.display_path "source display path must be UTF-8"
    self.write_u64 span.starting_line
  | .Unavailable reason _ => self.write_u32 reason

/-- Writes one function placement in the field order of the protocol. -/
def write_placement (instance_ : ConcreteInstance) (codegen_unit : String) (placement : MonoItemData) (source : Source) :
    Run Unit := do
  self.write_u32 PLACEMENT_RECORD
  self.write_string instance_.definition_crate
  self.write_string instance_.definition_path
  self.write_string instance_.display_name
  self.write_string instance_.raw_symbol
  self.write_string codegen_unit
  self.write_string (driver.ManifestWriter.linkage_name placement.linkage)
  self.write_string (driver.ManifestWriter.visibility_name placement.visibility)
  self.write_u32 (if placement.inlined then 1 else 0)
  self.write_u64 placement.size_estimate
  self.write_source source

/-- Writes the single effective configuration before any other record. -/
def write_configuration (configuration : Configuration) : Run Unit := do
  self.write_u32 CONFIGURATION_RECORD
  self.write_string configuration.backend
  self.write_string configuration.target
  self.write_string (driver.ManifestWriter.optimization_name configuration.optimization)
  self.write_u32 (driver.ManifestWriter.lto_value configuration.lto)
  self.write_u32 (if configuration.incremental then 1 else 0)
  self.write_u32 (if configuration.linker_plugin then 1 else 0)
  self.write_u32 configuration.codegen_units
  self.write_u32 LLVM_RECIPE_REVISION
  self.write_u32 configuration.unsupported

/-- Declares a snapshot with its attempt-local ID and byte length. -/
def write_source_file (id length : UInt64) : Run Unit := do
  self.write_u32 SOURCE_FILE_RECORD
  self.write_u64 id
  self.write_u64 length

/-- Records the bitcode file that a regular codegen unit will produce. -/
def write_module (name : String) (path : OsString) : Run Unit := do
  self.write_u32 MODULE_RECORD
  self.write_string name
  self.write_path path "bitcode path must be UTF-8"

/-- Completes the stream and makes the final manifest path visible. -/
def finish : Run Unit := do
  self.write_u32 END_RECORD
  self.flush
  file (rename self.temporary_path self.path)

end ManifestWriter

end manifest

/-- What a command line says about LTO. -/
inductive LtoCli where
  | No
  | Yes
  | NoParam
  | Thin
  | Fat
  | Unspecified
deriving DecidableEq

/-- A specification of a target. -/
structure Target where
  default_codegen_backend : Option String
  requires_lto : Bool

/-- The options of a compilation, and what a search for their target finds. -/
structure Options where
  target_triple : String
  target : Except IoError Target
  codegen_backend : Option String
  optimize : OptLevel
  incremental : Option OsString
  linker_plugin_lto : Bool
  lto : LtoCli
  save_temps : Bool := false
  temps_dir : Option String := none

/-- The compiler source revision that the recipe was verified on. -/
def VERIFIED_COMMIT : String := "48a229ceaefd4985c50990b14116b6d856af0985"

/-- The support code of options for a target. -/
def Options.unsupported (self : Options) (commit : String) (target : Target) : UInt32 :=
  let backend := (self.codegen_backend.or target.default_codegen_backend).getD "llvm"
  if commit ≠ VERIFIED_COMMIT then LLVM_UNSUPPORTED_UNVERIFIED_COMPILER
  else if backend ≠ "llvm" then LLVM_UNSUPPORTED_OTHER_BACKEND
  else if self.incremental.isSome then LLVM_UNSUPPORTED_INCREMENTAL
  else if self.linker_plugin_lto then LLVM_UNSUPPORTED_LINKER_PLUGIN
  else if target.requires_lto ∨ self.lto = .Yes ∨ self.lto = .NoParam ∨ self.lto = .Fat then LLVM_UNSUPPORTED_FAT
  else if self.lto = .Thin then LLVM_UNSUPPORTED_CROSS_CRATE_THIN
  else LLVM_SUPPORTED

/-- Classifies LLVM support, and enables the retention of temporary files where there is support. -/
def configure (commit : String) (options : Options) (directory : Path) : StateM Process (Except Stop UInt32 × Options) :=
  match options.target with
  | .error source => return (.error (.filesystem source), options)
  | .ok target => do
    let unsupported := options.unsupported commit target
    if unsupported = LLVM_SUPPORTED then
      match ← attempt (file (create_dir directory)) with
      | .error stop => return (.error stop, options)
      | .ok () =>
        let options := { options with save_temps := true }
        match directory.to_str with
        | none => return (.error (.filesystem ⟨.Other, "compiler temporary directory must be UTF-8"⟩), options)
        | some temps_dir => return (.ok unsupported, { options with temps_dir := some temps_dir })
    else return (.ok unsupported, options)

variable {FileId : Type} [Ord FileId]

/-- What the compiler answers about an analyzed crate. -/
structure Session (FileId : Type) where
  lto : Lto
  backend : String
  codegen_units : Nat
  lookup_source_file : UInt32 → SourceFile FileId
  partitions : List CodegenUnit

/-- Records effective settings after the codegen backend is initialized. -/
def Configuration.observed (options : Options) (session : Session FileId) (unsupported : UInt32) :
    Except Stop Configuration := do
  ensure (!(unsupported = LLVM_SUPPORTED && (session.backend ≠ "llvm" || !(session.lto = .No || session.lto = .ThinLocal))))
    (.filesystem ⟨.Other, "retained LLVM requires the supported backend and LTO mode"⟩)
  ensure (session.codegen_units < UInt32.size)
    (.filesystem ⟨.Other, "out of range integral type conversion attempted"⟩)
  return {
    backend := session.backend
    target := options.target_triple
    optimization := options.optimize
    lto := session.lto
    incremental := options.incremental.isSome
    linker_plugin := options.linker_plugin_lto
    codegen_units := .ofNat session.codegen_units
    unsupported }

namespace analysis

section

variable (manifest : manifest.ManifestWriter)

/-- Reuses a compiler file's snapshot or writes its first snapshot and manifest declaration. -/
def capture_file (sources : Snapshots FileId) (file_id : FileId) (content : String) : Run (UInt64 × Snapshots FileId) :=
  match sources.files[file_id]? with
  | some artifact => return (artifact, sources)
  | none => do
    check (ensure (sources.files.size < UInt64.size) .overflow)
    let artifact := UInt64.ofNat sources.files.size
    file (file_system.write (sources.directory.join (snapshot_name artifact)) (text content))
    manifest.write_source_file artifact (.ofNat (text content).length)
    return (artifact, { sources with files := sources.files.insert file_id artifact })

variable (lookup_source_file : UInt32 → SourceFile FileId)

/-- Captures a whole local item from one compiler-loaded file inside the package root. -/
def capture (sources : Snapshots FileId) (canonicalize : OsString → Option OsString) (instance_ : Instance) :
    Run (Source × Snapshots FileId) :=
  match Snapshots.locate lookup_source_file canonicalize sources.package_root instance_ with
  | .error unavailable => return (.Unavailable unavailable.reason unavailable.known, sources)
  | .ok located => do
    let (artifact, next) ← capture_file manifest sources located.stable_id located.text
    return (.Available {
      artifact
      start := located.start.toUInt64
      length := (located.stop - located.start).toUInt64
      display_path := located.path
      starting_line := 1 + located.line }, next)

/-- Records each function copy in one codegen unit, excluding static data and assembly. -/
def write_function_placements (codegen_unit : String) : List Item → Snapshots FileId → Run (Snapshots FileId)
  | [], sources => return sources
  | item :: items, sources =>
    match item.mono_item with
    | .Fn instance_ => do
      let (source, sources) ← capture manifest lookup_source_file sources item.canonicalize instance_
      manifest.write_placement instance_.concrete codegen_unit item.data source
      write_function_placements codegen_unit items sources
    | .Static | .GlobalAsm => write_function_placements codegen_unit items sources

/-- Records the bitcode file of a unit, unless no bitcode is retained. -/
def write_expected_module (configuration : Configuration) (codegen_unit : CodegenUnit) : Run Unit :=
  match configuration.extension with
  | some _ => manifest.write_module codegen_unit.name codegen_unit.path
  | none => return ()

/-- Writes module and placement records in codegen-unit order. -/
def write_codegen_units (configuration : Configuration) : List CodegenUnit → Snapshots FileId → Run (Snapshots FileId)
  | [], sources => return sources
  | codegen_unit :: codegen_units, sources => do
    write_expected_module manifest configuration codegen_unit
    let sources ← write_function_placements manifest lookup_source_file codegen_unit.name codegen_unit.items sources
    write_codegen_units configuration codegen_units sources

/-- Writes configuration before module and placement records. -/
def collect (directory : Path) (package_root : OsString) (configuration : Except Stop UInt32) (options : Options)
    (session : Session FileId) : Run Unit :=
  match configuration with
  | .error stop => throw stop
  | .ok unsupported =>
    match Configuration.observed options session unsupported with
    | .error stop => throw stop
    | .ok configuration => do
      manifest.write_configuration configuration
      let _ ← write_codegen_units manifest session.lookup_source_file configuration session.partitions
        (.new directory package_root)
      return ()

/-- Whether rustc goes on behind its analysis. -/
inductive Compilation where
  | Continue
  | Stop
deriving DecidableEq

/-- What rustc does for a command line: how far it gets, and the files and the exit code that it ends with. -/
structure Rustc (FileId : Type) where
  /-- The options to configure, or the exit code if it ends before. -/
  config : List String → Except UInt8 Options
  /-- The crate that it has analyzed, unless it ends before. -/
  session : List String → Options → Option (Session FileId)
  finish : List String → Options → Option Compilation → Tree → UInt8 × Tree

/-- Lets rustc finish, with whatever files it writes. -/
def Rustc.run (self : Rustc FileId) (arguments : List String) (options : Options) (compilation : Option Compilation) :
    StateM Process UInt8 := fun process =>
  let (code, tree) := self.finish arguments options compilation process.world.tree
  (code, { process with world := { process.world with tree } })

/-- Drives rustc through both callbacks, for its exit code and the result of the analysis. -/
def run_compiler (rustc : Rustc FileId) (commit : String) (directory : Path) (package_root : OsString)
    (arguments : List String) : StateM Process (UInt8 × Option (Except Stop Unit)) :=
  match rustc.config arguments with
  | .error code => return (code, none)
  | .ok options => do
    let (configuration, options) ← configure commit options (directory.join "llvm")
    match rustc.session arguments options with
    | none => return (← rustc.run arguments options none, none)
    | some session => do
      let result ← attempt (collect manifest directory package_root configuration options session)
      let compilation := if result.isOk then .Continue else .Stop
      return (← rustc.run arguments options (some compilation), some result)

end

/-- What the inner driver is told by the process that starts it. `resolve` finds the file that a path names. -/
structure System where
  args_os : List OsString
  var_os : String → Option OsString
  resolve : OsString → Path

/-- A text on standard error, or a path behind an operation, and what stopped it. -/
inductive Report where
  | plain (text : String)
  | stopped (operation : String) (path : OsString) (stop : Stop)

/-- The inner driver's arguments and destinations. -/
structure DriverInvocation where
  arguments : List String
  manifest_path : OsString
  package_root : OsString

/-- Reads the rustc argument vector and the manifest destination. -/
def prepare_invocation (system : System) : Except String DriverInvocation := do
  let arguments ← ok_or ((system.args_os.drop 1).mapM OsString.into_string)
    "optic rustc driver requires UTF-8 compiler arguments, got a non-UTF-8 argument"
  ensure (!arguments.isEmpty) "optic rustc driver must receive rustc as its first argument, got none"
  let manifest_path ← ok_or (system.var_os MANIFEST_PATH_ENV) s!"{MANIFEST_PATH_ENV} is not set"
  let package_root ← ok_or (system.var_os PACKAGE_ROOT_ENV) s!"{PACKAGE_ROOT_ENV} is not set"
  return { arguments, manifest_path, package_root }

/-- How the inner driver exits. -/
structure Exit where
  code : UInt8
  report : Option Report := none

def failure (report : Report) : Exit := ⟨wrapper.FAILURE, some report⟩

/-- Runs rustc with the callbacks that write the manifest of the selected target. -/
def run (rustc : Rustc FileId) (commit : String) (system : System) (world : World) : Exit × World :=
  match prepare_invocation system with
  | .error message => (failure (.plain message), world)
  | .ok invocation =>
    let path := system.resolve invocation.manifest_path
    match (manifest.ManifestWriter.create path (system.var_os SELECTED_TARGET_MARKER_ENV)).run { world } with
    | .error (.manifest (.panicked message)) process => (⟨wrapper.PANIC, some (.plain message)⟩, process.world)
    | .error stop process => (failure (.stopped "failed to create " invocation.manifest_path stop), process.world)
    | .ok manifest process =>
      if path = [] then
        (⟨wrapper.PANIC, some (.plain "the collector supplies a manifest file path inside its attempt directory")⟩,
          manifest.drop process)
      else
        let ((code, result), process) :=
          (run_compiler manifest rustc commit path.dropLast invocation.package_root invocation.arguments).run process
        if code ≠ wrapper.SUCCESS then (⟨code, none⟩, manifest.drop process)
        else
          match result with
          | none => (⟨wrapper.SUCCESS, none⟩, manifest.drop process)
          | some (.error stop) =>
            (failure (.stopped "failed to write " invocation.manifest_path stop), manifest.drop process)
          | some (.ok ()) =>
            match manifest.finish.run process with
            | .ok () process => (⟨wrapper.SUCCESS, none⟩, process.world)
            | .error stop process =>
              (failure (.stopped "failed to finish " invocation.manifest_path stop), manifest.drop process)

end analysis

end optic.driver
