import Optic.Compiler.Analysis
import Optic.Compiler.Relay

open rust optic.records optic.compiler optic.compiler.protocol optic.driver file_system

namespace optic.launch

variable {M : CargoSchema}

/-- A command to start, with the variables that it sets or removes in turn. -/
structure Command where
  program : PathBuf
  current_dir : PathBuf
  args : List String
  env : List (String × Option OsString)

namespace Command

def arg (self : Command) (value : String) : Command := { self with args := self.args ++ [value] }

def set_env (self : Command) (name : String) (value : OsString) : Command :=
  { self with env := self.env ++ [(name, some value)] }

def env_remove (self : Command) (name : String) : Command := { self with env := self.env ++ [(name, none)] }

/-- A variable of the started process. What is said last about it counts. -/
def var_os (self : Command) (inherited : String → Option OsString) (name : String) : Option OsString :=
  (self.env.reverse.lookup name).getD (inherited name)

end Command

/-- A prepared build with what its commands are made of: the directory that Cargo is started in, the root of the selected
package and the driver's executable. -/
structure Launch (M : CargoSchema) extends relay.Prepared M where
  invocation_directory : PathBuf
  package_root : OsString
  executable : OsString

namespace Launch

variable (self : Launch M)

/-- Installs the stable wrapper and attempt-local output paths without granting bootstrap. -/
def configure (command : Command) (marker : String) (manifest_path : PathBuf) : Command :=
  command
    |>.set_env "RUSTC_WRAPPER" self.executable
    |>.set_env "RUSTC_WORKSPACE_WRAPPER" ""
    |>.set_env "CARGO_BUILD_RUSTC_WRAPPER" ""
    |>.set_env "CARGO_BUILD_RUSTC_WORKSPACE_WRAPPER" ""
    |>.set_env SELECTED_TARGET_MARKER_ENV marker
    |>.set_env MANIFEST_PATH_ENV manifest_path.text
    |>.env_remove DRIVER_INNER_ENV
    |>.env_remove "RUSTC_BOOTSTRAP"

/-- The Cargo command of an attempt. -/
def command (canonicalize : PathBuf → Except IoError OsString) (marker : String) (directory : PathBuf) :
    Except compiler.Error Command := do
  let source ← (canonicalize self.target.src_path).mapError (.Filesystem "resolve selected source" self.target.src_path)
  let command : Command := { program := self.cargo, current_dir := self.invocation_directory, args := self.build.cargo_arguments, env := [] }
  let command := command
    |>.arg "--message-format=json"
    |>.arg "--"
    |>.arg marker
    |>.set_env "RUSTC" self.compiler.rustc.text
    |>.set_env RUSTC_ENV self.compiler.rustc.text
    |>.set_env SOURCE_ENV source
    |>.set_env PACKAGE_ROOT_ENV self.package_root
    |>.set_env CRATE_NAME_ENV (self.target.name.map fun c => if c = '-' then '_' else c)
    |>.set_env STALE_RECEIPT_ENV (directory.join "stale").text
  return self.configure command marker (directory.join "manifest")

/-- The command of a probe or of a collection. -/
def started (canonicalize : PathBuf → Except IoError OsString) (mode marker : String) (directory : PathBuf) :
    Except compiler.Error Command :=
  (self.command canonicalize marker directory).map (·.set_env MODE_ENV mode)

end Launch

/-- What the operating system answers to one process of the driver's executable. -/
structure Host extends wrapper.System where
  resolve : OsString → Path

namespace Host

variable (self : Host)

def analysis : driver.analysis.System where
  args_os := self.args_os
  var_os := self.var_os
  resolve := self.resolve

/-- The process that a command replaces this one with. -/
def replaced (command : wrapper.Command) : Host :=
  { self with
    args_os := command.program :: command.args
    var_os := fun name => (command.env.lookup name).or (self.var_os name) }

end Host

/-- How the driver's executable ends. -/
inductive Ending where
  | Printed (text : String)
  | Wrapped (outcome : wrapper.Outcome)
  | Analyzed (exit : driver.analysis.Exit)

section

variable {FileId : Type} [Ord FileId]

/-- What the driver was compiled with, and what it links. -/
structure Executable (FileId : Type) where
  key : String
  commit : String
  rustc : driver.analysis.Rustc FileId

/-- The file that an outcome has written. -/
def write_outcome (host : Host) (outcome : wrapper.Outcome) (tree : Tree) : Tree :=
  match outcome.written with
  | some (path, bytes) => tree.set (host.resolve path) (.file bytes)
  | none => tree

/-- Selects the outer Cargo-wrapper entry point or the inner rustc-driver entry point. -/
def main (executable : Executable FileId) (host : Host) (world : World) : Ending × World :=
  if host.args_os.drop 1 = [.utf8 rustc_driver.DRIVER_KEY_ARGUMENT] then (.Printed executable.key, world)
  else if (host.var_os DRIVER_INNER_ENV).isSome then
    let (exit, world) := driver.analysis.run executable.rustc executable.commit host.analysis world
    (.Analyzed exit, world)
  else
    let outcome := wrapper.run host.toSystem
    (.Wrapped outcome, { world with tree := write_outcome host outcome world.tree })

/-- A process that Cargo starts as the compiler: what it is told, which operations fail, the rustc that the driver drives
for it, and what another program does that takes its place. -/
structure Started (FileId : Type) where
  host : Host
  schedule : List (Option file_system.Failure)
  executable : Executable FileId
  other : wrapper.Command → Tree → UInt8 × Tree

/-- The exit code of a process that no other program has replaced. -/
def Ending.code : Ending → UInt8
  | .Printed _ => wrapper.SUCCESS
  | .Wrapped (.Exited code _ _) => code
  | .Wrapped (.Replaced _) => wrapper.SUCCESS
  | .Analyzed exit => exit.code

namespace Started

variable (self : Started FileId)

/-- The driver's executable takes the place of the wrapper. -/
def restart (command : wrapper.Command) (world : World) : UInt8 × Tree :=
  match main self.executable (self.host.replaced command) world with
  | (.Wrapped (.Replaced command), world) => self.other command world.tree
  | (ending, world) => (ending.code, world.tree)

/-- A process may replace itself by another program, and once by the driver's executable. -/
def run (tree : Tree) : UInt8 × Tree :=
  match main self.executable self.host { tree, schedule := self.schedule } with
  | (.Wrapped (.Replaced command), world) =>
    if self.host.current_exe = .ok command.program then self.restart command world else self.other command world.tree
  | (ending, world) => (ending.code, world.tree)

end Started

/-- A build lets one process after another change the files. -/
def build (processes : List (Started FileId)) (tree : Tree) : Tree :=
  processes.foldl (fun tree process => (process.run tree).2) tree

end

end optic.launch
