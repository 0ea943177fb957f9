import Optic.Compiler.Driver
import Optic.Compiler.Relay
import Optic.Compiler.Request

open rust file_system optic.records optic.compiler

namespace optic.preparation

variable {M : CargoSchema}

/-- A package as Cargo's metadata describes it. -/
structure Package (M : CargoSchema) where
  name : String
  version : String
  id : String
  manifest_path : PathBuf
  targets : List (Target M)

/-- Cargo's metadata: the packages, which of them are members of the workspace, and the places that it names. -/
structure Metadata (M : CargoSchema) extends compiler.Metadata where
  packages : List (Package M)
  workspace_members : List String

def Metadata.workspace_packages (self : Metadata M) : List (Package M) :=
  self.packages.filter fun package => self.workspace_members.contains package.id

/-- Why a request could not be prepared. -/
inductive Error where
  | Compiler (source : compiler.Error)
  | Driver (source : rustc_driver.Error)
  | Metadata (message : String)
  | PackageNotFound (package : String)
  | TargetNotFound (package target : String)

def resolve_package (metadata : Metadata M) (name : String) : Except Error (Package M) :=
  ok_or (metadata.workspace_packages.find? fun package => package.name = name) (.PackageNotFound name)

/-- The kinds of a library-like target. -/
def LIBRARY_KINDS : List String := ["lib", "rlib", "dylib", "cdylib", "staticlib", "proc-macro"]

def is_kind (target : Target M) (name : String) : Bool := target.kind.any fun kind => M.kind_text kind = name

/-- Whether a target is the selected one. -/
def selects (selected : CargoTarget) (target : Target M) : Bool :=
  match selected with
  | .Library => target.kind.any fun kind => LIBRARY_KINDS.contains (M.kind_text kind)
  | .Binary name => is_kind target "bin" && target.name = name
  | .Example name => is_kind target "example" && target.name = name
  | .Benchmark name => is_kind target "bench" && target.name = name

def display_target : CargoTarget → String
  | .Library => "library"
  | .Binary name => s!"binary {name}"
  | .Example name => s!"example {name}"
  | .Benchmark name => s!"benchmark {name}"

def resolve_target (package : Package M) (selected : CargoTarget) : Except Error (Target M) :=
  ok_or (package.targets.find? (selects selected)) (.TargetNotFound package.name (display_target selected))

/-- What a preparation meets: the workspace and the environment, Cargo's metadata, what processes answer, the places that
paths lead to, and how a driver is built. -/
structure System (M : CargoSchema) where
  cargo : PathBuf
  invocation_directory : PathBuf
  var_os : String → Option OsString
  metadata : BuildRequest → Except String (Metadata M)
  process : PathBuf → List String → Except IoError collector.Output
  canonicalize : PathBuf → Except IoError PathBuf
  canonicalize_parent : PathBuf → Except IoError PathBuf
  canonicalize_home : Path → Except IoError OsString
  resolve : OsString → Path
  unique : String
  rustc : rustc_driver.Command → Tree → rustc_driver.Build
  survives : Path → Bool

namespace System

variable (self : System M)

/-- Runs a program that has to succeed. -/
def output (program : PathBuf) (arguments : List String) : Except compiler.Error collector.Output := do
  let output ← (self.process program arguments).mapError (.StartProcess program)
  ensure output.status.success
    (.ProcessFailed program output.status.display (some (from_utf8_lossy output.stderr)))
  return output

end System

/-- The compiler configuration that Cargo reports. -/
structure CompilerConfiguration where
  rustc : Bool := false
  global_wrapper : Bool := false
  workspace_wrapper : Bool := false

def CompilerConfiguration.record (self : CompilerConfiguration) (line : String) : CompilerConfiguration :=
  match split_once line " = " with
  | some ("build.rustc", _) => { self with rustc := true }
  | some ("build.rustc-wrapper", _) => { self with global_wrapper := true }
  | some ("build.rustc-workspace-wrapper", _) => { self with workspace_wrapper := true }
  | _ => self

def read_compiler_configuration (system : System M) : Except compiler.Error CompilerConfiguration := do
  let output ← system.output system.cargo ["-Z", "unstable-options", "config", "get"]
  return (lines (from_utf8_lossy output.stdout)).foldl CompilerConfiguration.record {}

def RUSTC_ENVIRONMENT : List String := ["RUSTC", "CARGO_BUILD_RUSTC"]

def GLOBAL_WRAPPER_ENVIRONMENT : List String := ["RUSTC_WRAPPER", "CARGO_BUILD_RUSTC_WRAPPER"]

def WORKSPACE_WRAPPER_ENVIRONMENT : List String := ["RUSTC_WORKSPACE_WRAPPER", "CARGO_BUILD_RUSTC_WORKSPACE_WRAPPER"]

/-- The first variable that is set decides, and an empty one disables the wrapper. -/
def wrapper_is_configured (system : System M) (environment : List String) (configured : Bool) : Bool :=
  match environment.findSome? system.var_os with
  | some value => value ≠ OsString.utf8 ""
  | none => configured

/-- A field of `rustc -vV`. -/
def compiler_field (verbose name : String) : Except compiler.Error String :=
  let value := (lines verbose).findSome? fun line => Option.bind ( strip_prefix line name) fun rest => strip_prefix rest ":"
  ok_or ((value.map trim).filter fun value => value ≠ "")
    (invalid_environment s!"rustc -vV must report {name}, got no value")

def inspect_rustc (system : System M) : Except compiler.Error CompilerIdentity := do
  let reported ← system.output ⟨"rustc"⟩ ["--print", "sysroot"]
  let reported_sysroot : PathBuf := ⟨trim (from_utf8_lossy reported.stdout)⟩
  let sysroot ← (system.canonicalize reported_sysroot).mapError (.Filesystem "resolve rustc sysroot" reported_sysroot)
  let executable := (sysroot.join "bin").join "rustc"
  let rustc ← (system.canonicalize executable).mapError (.Filesystem "resolve rustc executable" executable)
  let output ← system.output rustc ["-vV"]
  let verbose := from_utf8_lossy output.stdout
  let release ← compiler_field verbose "release"
  let commit_hash ← compiler_field verbose "commit-hash"
  let host ← compiler_field verbose "host"
  (CompilerIdentity.new rustc release commit_hash host sysroot).mapError .Record

/-- The default compiler, and whether collection must bypass a configured wrapper. -/
structure CompilerContext where
  identity : CompilerIdentity
  wrappers_configured : Bool

/-- Inspects `rustc` from `PATH` and rejects explicit compiler selection. -/
def CompilerContext.discover (system : System M) : Except compiler.Error CompilerContext := do
  let configuration ← read_compiler_configuration system
  ensure (!(RUSTC_ENVIRONMENT.any (fun name => (system.var_os name).isSome) || configuration.rustc))
    (invalid_environment "custom rustc selection is not supported; use the default rustc from PATH")
  let wrappers_configured := wrapper_is_configured system GLOBAL_WRAPPER_ENVIRONMENT configuration.global_wrapper ||
    wrapper_is_configured system WORKSPACE_WRAPPER_ENVIRONMENT configuration.workspace_wrapper
  let identity ← inspect_rustc system
  return { identity, wrappers_configured }

namespace System

variable (self : System M)

def workspace : rustc_driver.Workspace where
  CARGO_HOME := self.var_os "CARGO_HOME"
  HOME := self.var_os "HOME"
  resolve := self.resolve

/-- The provisioning of a driver for a compiler. -/
def attempt (identity : CompilerIdentity) : rustc_driver.Attempt where
  workspace := self.workspace
  identity := identity
  unique := self.unique
  rustc := self.rustc
  survives := self.survives
  schedule := []

end System

/-- What a request was resolved to. -/
structure Resolved (M : CargoSchema) extends Request M where
  compiler : CompilerIdentity

/-- Resolves a request, and provisions its driver without compiling the selected target. -/
def resolve (machine : rustc_driver.Machine) (system : System M) (request : BuildRequest) : Action Error (Resolved M) := do
  let metadata ← .lift ((system.metadata request).mapError .Metadata)
  let package ← .lift (resolve_package metadata request.package)
  let target ← .lift (resolve_target package request.target)
  let _ ← .lift ((system.canonicalize_parent package.manifest_path).mapError fun source =>
    .Compiler (.Filesystem "resolve selected package root" package.manifest_path source))
  let compiler ← .lift ((CompilerContext.discover system).mapError .Compiler)
  let driver ← Action.map_err .Driver ((system.attempt compiler.identity).provision machine)
  let build ← .lift ((build_record request package.name package.version target.name system.cargo
    system.invocation_directory).mapError fun error => .Compiler (.Record error))
  let output ← .lift ((system.output system.cargo ["-vV"]).mapError .Compiler)
  let home ← .lift ((rustc_driver.cargo_home system.workspace).mapError .Driver)
  let cargo_home ← .lift ((system.canonicalize_home home).mapError fun source =>
    .Compiler (.Filesystem "resolve Cargo home" system.invocation_directory source))
  return { build, package := package.id, target, metadata := metadata.toMetadata, cargo_version := output.stdout,
           driver_key := driver.key, cargo_home, compiler := compiler.identity }

/-- Prepares the request of a capture. -/
def prepare_build (machine : rustc_driver.Machine) (to_vec : RequestInputs M → Except String (List UInt8))
    (system : System M) (request : BuildRequest) : Action Error (relay.Prepared M) := do
  let resolved ← resolve machine system request
  let request_key ← .lift ((request_key to_vec machine.sha256 resolved.toRequest).mapError .Compiler)
  return { cargo := system.cargo, package := resolved.package, target := resolved.target, request_key,
           build := resolved.build, compiler := resolved.compiler }

end optic.preparation
