import Optic.Compiler.Artifacts
import Optic.Compiler.Digest
import Optic.FileSystem.Directories

open rust file_system optic.records

namespace optic.rustc_driver

/-- A program that is started. -/
inductive Program where
  | Driver (executable : Path)
  | Compiler (rustc : PathBuf)

/-- Why a driver could not be provisioned. A message may display a path behind its text. -/
inductive Error where
  | CompilerEnvironment (message : String) (path : Option Path)
  | Filesystem (operation : String) (path : Path) (source : IoError)
  | StartProcess (program : Program) (source : IoError)
  | ProcessFailed (program : PathBuf) (status : String) (diagnostics : Option String)

/-- Attaches the affected operation and path to a failure. -/
def with_context {α : Type} (operation : String) (path : Path) (p : Action IoError α) : Action Error α :=
  p.map_err (.Filesystem operation path)

/-- Stops unless a check passes. -/
def check (ok : Bool) (error : Error) : Action Error Unit := .lift (ensure ok error)

def SOURCE_NAMES : List String :=
  ["main.rs", "analysis.rs", "manifest.rs", "protocol.rs", "wrapper.rs", "llvm.rs", "source.rs"]

/-- Identifies the source layout, cache header, and scoped bootstrap compilation recipe. -/
def RECIPE_REVISION : List UInt8 := text "optic-driver-recipe-2"

/-- Fixed build options in command order. -/
def BUILD_OPTIONS : List String :=
  ["--crate-name", "optic_rustc_driver", "--edition=2024", "-C", "prefer-dynamic", "-C", "rpath", "--sysroot"]

def DRIVER_KEY_ARGUMENT : String := "--optic-driver-key"

def EXECUTABLE : OsString := "optic-rustc-driver"

/-- What all calls share: the embedded sources, the hash, and what a file of some mode and content does when it is run. -/
structure Machine where
  embedded : String → String
  sha256 : List UInt8 → Vector UInt8 32
  execute : UInt8 → List UInt8 → List String → Except IoError compiler.collector.Output

namespace Machine

/-- The complete embedded source set. -/
def sources (self : Machine) : List (String × String) := SOURCE_NAMES.map fun name => (name, self.embedded name)

def driver_key (self : Machine) (identity : CompilerIdentity) : String :=
  compiler.driver_key self.sha256 {
    identity
    sources := self.sources
    options := BUILD_OPTIONS
    recipe_revision := RECIPE_REVISION
    protocol_version := compiler.protocol.PROTOCOL_VERSION }

end Machine

/-- The environment of a call. A path leads from the invocation directory to the names that `resolve` tells. -/
structure Workspace where
  CARGO_HOME : Option OsString
  HOME : Option OsString
  resolve : OsString → Path

/-- Resolves a relative Cargo home against the invocation directory, as Cargo does. -/
def cargo_home (workspace : Workspace) : Except Error Path :=
  match workspace.CARGO_HOME.filter (· ≠ OsString.utf8 ""), workspace.HOME with
  | some home, _ => .ok (workspace.resolve home)
  | none, some home => .ok ((workspace.resolve home).join ".cargo")
  | none, none => .error (.CompilerEnvironment "Cargo home requires CARGO_HOME or HOME, got neither" none)

def drivers (home : Path) : Path := (home.join "optic").join "drivers"

/-- The low byte of a file's mode. A tree keeps it under a name below the file, where no entry can be. -/
def mode (tree : Tree) (path : Path) : UInt8 :=
  match tree (path.join "mode") with
  | some (.file [bits]) => bits
  | _ => 0

/-- A path's own metadata, with the mode of a file. -/
def mode_metadata (path : Path) : Action IoError (Metadata × UInt8) :=
  perform fun tree =>
    match tree path with
    | some entry => .ok ((⟨entry⟩, mode tree path), tree)
    | none => .error not_found

/-- Reads a whole file. -/
def read_file (path : Path) : Action IoError (List UInt8) := do
  let rest ← open_file path
  read (.ok rest)

/-- Runs a cached driver for its key. -/
def output (machine : Machine) (executable : Path) : Action IoError compiler.collector.Output :=
  perform fun tree =>
    match tree executable with
    | some (.file bytes) => (machine.execute (mode tree executable) bytes [DRIVER_KEY_ARGUMENT]).map (·, tree)
    | some _ => .error unexpected_type
    | none => .error not_found

/-- Accepts a regular file or directory, and a driver only if it can be run. -/
def validate_path (path : Path) (directory : Bool) : Action Error Unit := do
  let (metadata, mode) ← with_context "validate driver cache entry" path (mode_metadata path)
  let correct_kind := if directory then metadata.is_dir else metadata.is_file
  check correct_kind (.CompilerEnvironment "driver cache requires regular files and directories" path)
  check (!(path.getLast? = some EXECUTABLE && (metadata.len = 0 || mode &&& 0o111 = 0)))
    (.CompilerEnvironment "driver cache requires a nonempty executable" path)

/-- The identity file of an entry. -/
def header (key : String) : List UInt8 := text s!"optic-driver-1\n{key}\n"

/-- Whether a file holds exactly some bytes. One of another length is not read. -/
def holds (path : Path) (expected : List UInt8) : Action Error Bool := do
  let metadata ← with_context "inspect driver identity" path (symlink_metadata path)
  if metadata.len ≠ expected.length then pure false
  else do
    let bytes ← with_context "read driver identity" path (read_file path)
    return bytes = expected

def validate_entry (machine : Machine) (entry : Path) (key : String) : Action Error Unit := do
  validate_path entry true
  validate_path (entry.join "identity") false
  validate_path (entry.join EXECUTABLE) false
  let path := entry.join "identity"
  let matched ← holds path (header key)
  check matched (.CompilerEnvironment "driver identity must match the current recipe" path)
  let executable := entry.join EXECUTABLE
  let output ← Action.map_err (.StartProcess (.Driver executable)) (output machine executable)
  check (output.status.success && output.stdout = text s!"{key}\n")
    (.CompilerEnvironment "cached executable must report the prepared driver key" executable)

/-- A compiler run for a driver. -/
structure Command where
  rustc : PathBuf
  current_dir : Path
  source : Path
  options : List String
  sysroot : PathBuf
  executable : Path
  environment : List (String × String)

/-- What a compiler run answers, and the tree that it leaves below the directory of its output. -/
structure Build where
  output : Except IoError compiler.collector.Output
  left : Tree

/-- One call: its environment and compiler, the name of its temporary directory, how its build goes, what stays of the
temporary directory when it is dropped, and the failures of its other operations. -/
structure Attempt where
  workspace : Workspace
  identity : CompilerIdentity
  unique : String
  rustc : Command → Tree → Build
  survives : Path → Bool
  schedule : List (Option Failure)

/-- Runs a compiler. Each run leaves a line in the sink, which nothing else here writes to, so that it counts the runs. The
source counts builds in its tests only. -/
def compile (rustc : Command → Tree → Build) (command : Command) : Action IoError compiler.collector.Output := fun w =>
  ((rustc command w.tree).output,
    { w with
      tree := w.tree.replace_below command.executable.dropLast (rustc command w.tree).left
      sink := { w.sink with accepted := w.sink.accepted ++ text "rustc\n" } })

namespace Attempt

/-- The compiler run that builds a driver. -/
def command (self : Attempt) (source executable : Path) (key : String) : Command where
  rustc := self.identity.rustc
  current_dir := self.workspace.resolve (.utf8 "")
  source := source
  options := BUILD_OPTIONS
  sysroot := self.identity.sysroot
  executable := executable
  environment := [("RUSTC_BOOTSTRAP", "optic_rustc_driver"), ("OPTIC_DRIVER_KEY", key),
    ("OPTIC_RUSTC_COMMIT", self.identity.commit_hash)]

def build_driver (self : Attempt) (source executable : Path) (key : String) : Action Error Unit := do
  let output ← Action.map_err (.StartProcess (.Compiler self.identity.rustc))
    (compile self.rustc (self.command source executable key))
  check output.status.success (.ProcessFailed self.identity.rustc output.status.display
    (some (from_utf8_lossy output.stderr ++
      "\nDriver compilation requires rustc-dev and llvm-tools for this exact toolchain. " ++
      "Install those components with rustup component add rustc-dev llvm-tools.")))

def temporary (self : Attempt) (root : Path) : Path := root.join ((".driver-" ++ self.unique : String) : OsString)

end Attempt

def write_sources (temporary : Path) : List (String × String) → Action Error Unit
  | [] => pure ()
  | (name, contents) :: sources => do
    with_context "write embedded driver source" (temporary.join name) (write (temporary.join name) (text contents))
    write_sources temporary sources

namespace Attempt

/-- Builds a validated driver in the temporary directory. -/
def assemble (self : Attempt) (machine : Machine) (temporary : Path) (key : String) : Action Error Unit := do
  write_sources temporary machine.sources
  self.build_driver (temporary.join "main.rs") (temporary.join EXECUTABLE) key
  with_context "write driver identity" (temporary.join "identity") (write (temporary.join "identity") (header key))
  validate_entry machine temporary key

/-- Publishes a driver that is built in a temporary directory. -/
def publish (self : Attempt) (machine : Machine) (root : Path) (key : String) : Action Error Unit := do
  let temporary := self.temporary root
  with_context "create driver build directory in" root (create_dir temporary)
  with_tempdir temporary self.survives do
    self.assemble machine temporary key
    with_context "publish driver cache entry" (root.join key) (rename temporary (root.join key))

/-- Reuses a validated entry, or publishes one where none is. -/
def reuse_or_publish (self : Attempt) (machine : Machine) (root : Path) (key : String) : Action Error Unit :=
  .attempt (symlink_metadata (root.join key)) fun
    | .ok _ => validate_entry machine (root.join key) key
    | .error source =>
      if source.kind = .NotFound then self.publish machine root key
      else .fail (.Filesystem "inspect driver cache entry" (root.join key) source)

end Attempt

/-- A validated driver cache entry for the selected compiler. -/
structure RustcDriver where
  executable : Path
  key : String

/-- Reuses a validated entry or publishes a driver built from the current embedded recipe. -/
def Attempt.provision (self : Attempt) (machine : Machine) : Action Error RustcDriver := do
  let key := machine.driver_key self.identity
  let home ← Action.lift (cargo_home self.workspace)
  let root := drivers home
  with_context "create driver cache" root (create_dir_all root)
  self.reuse_or_publish machine root key
  return { executable := (root.join key).join EXECUTABLE, key }

/-- A call meets its own failures. -/
def Attempt.call (self : Attempt) (machine : Machine) (w : World) : Except Error RustcDriver × World :=
  self.provision machine { w with schedule := self.schedule }

/-- The world behind a sequence of calls, one at a time. -/
def Machine.after (self : Machine) (attempts : List Attempt) (w : World) : World :=
  attempts.foldl (fun w attempt => (attempt.call self w).2) w

end optic.rustc_driver
