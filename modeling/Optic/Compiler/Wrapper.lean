import Optic.Compiler.Probe

open rust optic.compiler.protocol

namespace optic.compiler

/-- Names the unique rustc argument that identifies the selected Cargo target. -/
def SELECTED_TARGET_MARKER_ENV : String := "OPTIC_SELECTED_TARGET_MARKER"

/-- Distinguishes the inner rustc-driver process from Cargo's outer wrapper process. -/
def DRIVER_INNER_ENV : String := "OPTIC_RUSTC_DRIVER_INNER"

/-- Selects stopped probing or actual collection, with values `probe` and `collect`. -/
def MODE_ENV : String := "OPTIC_COMPILER_MODE"

/-- Names the attempt-local stale receipt. -/
def STALE_RECEIPT_ENV : String := "OPTIC_STALE_RECEIPT"

/-- Names the canonical compiler executable expected in Cargo's wrapper argument vector. -/
def RUSTC_ENV : String := "OPTIC_SELECTED_RUSTC"

/-- Names the canonical source path expected for the selected target. -/
def SOURCE_ENV : String := "OPTIC_SELECTED_SOURCE"

/-- Names the rustc crate name expected for the selected target. -/
def CRATE_NAME_ENV : String := "OPTIC_SELECTED_CRATE_NAME"

namespace wrapper

/-- A program to start, with its arguments and the variables that are set for it. -/
structure Command where
  program : OsString
  args : List OsString
  env : List (String × OsString) := []
deriving DecidableEq

/-- How the whole of a file is replaced. A failed write has not written the last byte. -/
inductive Replacement where
  | Completed
  | Unopened (error : IoError)
  | Stopped (error : IoError) (written : Nat)

/-- What the operating system answers to one process. -/
structure System where
  args_os : List OsString
  var_os : String → Option OsString
  current_exe : Except IoError OsString
  canonicalize : OsString → Except IoError OsString
  write : OsString → Replacement
  exec : Command → Option IoError

/-- A text on standard error, and what the standard library renders behind it. -/
inductive Report where
  | plain (text : String)
  | debug (text : String) (value : OsString)
  | debug_option (text : String) (value : Option OsString)
  | caused (text : String) (error : IoError)

def SUCCESS : UInt8 := 0

def FAILURE : UInt8 := 1

/-- The exit code of a process that panics. -/
def PANIC : UInt8 := 101

/-- How a process ends: another program takes its place, or it exits, with the file that it
has written. -/
inductive Outcome where
  | Replaced (command : Command)
  | Exited (code : UInt8) (report : Report) (written : Option (OsString × List UInt8))

namespace Outcome

/-- The program that was started. -/
def started : Outcome → Option Command
  | .Replaced command => some command
  | .Exited .. => none

/-- The file that was written, and what it holds. -/
def written : Outcome → Option (OsString × List UInt8)
  | .Replaced _ => none
  | .Exited _ _ written => written

end Outcome

/-- Reports a driver-owned failure. -/
def failure (report : Report) (written : Option (OsString × List UInt8) := none) : Outcome :=
  .Exited FAILURE report written

/-- Recognizes the reserved marker prefix without requiring UTF-8 compiler arguments. -/
def is_analysis_marker (argument : OsString) : Bool := (text MARKER_PREFIX).isPrefixOf argument.as_encoded_bytes

variable (system : System)

/-- Replaces the wrapper process. -/
def execute (command : Command) : Outcome :=
  match system.exec command with
  | none => .Replaced command
  | some error => failure (.caused "failed to start rustc: " error)

/-- The value behind the first `--crate-name`. -/
def first_crate_name (arguments : List OsString) : Option OsString :=
  ((arguments.zip arguments.tail).find? fun pair => pair.1 = OsString.utf8 "--crate-name").map Prod.snd

/-- A non-option argument that names the source. -/
def names_source (source argument : OsString) : Bool :=
  !(text "-").isPrefixOf argument.as_encoded_bytes &&
    match system.canonicalize argument with
    | .ok path => PathBuf.components_of path = PathBuf.components_of source
    | .error _ => false

/-- Verifies the prepared target identity before either selected-invocation route can run. -/
def verify_selected (program : OsString) (rest : List OsString) (marker : OsString) : Except Report Unit := do
  let arguments := program :: rest
  let compiler ← ok_or (system.var_os RUSTC_ENV) (.plain "selected compiler is not set")
  let source ← ok_or (system.var_os SOURCE_ENV) (.plain "selected source is not set")
  let crate_name ← ok_or (system.var_os CRATE_NAME_ENV) (.plain "selected crate name is not set")
  let markers := (arguments.filter is_analysis_marker).length
  ensure (!(markers ≠ 1 || !arguments.contains marker))
    (.plain s!"selected invocation requires one matching marker, got {markers} markers")
  ensure (program = compiler)
    (.debug "selected invocation requires the prepared compiler, got " program)
  let actual_name := first_crate_name arguments
  ensure (actual_name = some crate_name)
    (.debug_option "selected invocation requires the prepared crate name, got " actual_name)
  ensure (rest.any (names_source system source))
    (.plain "selected invocation requires the prepared source path, got no matching source")

/-- Writes a verified selected-target receipt and stops Cargo before rustc analysis. -/
def stop_probe (marker : OsString) : Outcome :=
  match system.var_os STALE_RECEIPT_ENV with
  | none => failure (.plain s!"{STALE_RECEIPT_ENV} is not set")
  | some path =>
    match marker.into_string with
    | none => failure (.plain "selected marker must be UTF-8, got a non-UTF-8 argument")
    | some marker =>
      if string.Valid marker then
        match system.write path with
        | .Completed =>
          failure (.plain "Cargo Optic stopped a stale selected-target probe before analysis")
            (some (path, header.spell marker))
        | .Unopened error => failure (.caused "failed to write stale receipt: " error)
        | .Stopped error written =>
          failure (.caused "failed to write stale receipt: " error)
            (some (path, (header.spell marker).dropLast.take written))
      else .Exited PANIC (.plain "the collector builds the marker from one fixed-length analysis token: TryFromIntError(())") none

/-- Replaces the wrapper with rustc or with the inner analysis invocation. -/
def run : Outcome :=
  match system.args_os.drop 1 with
  | [] => failure (.plain "optic rustc wrapper must receive a compiler path, got none")
  | program :: rest =>
    let arguments := program :: rest
    match system.var_os SELECTED_TARGET_MARKER_ENV with
    | none => failure (.plain s!"{SELECTED_TARGET_MARKER_ENV} is not set")
    | some marker =>
      match arguments.findIdx? (· = marker) with
      | none =>
        if arguments.any is_analysis_marker then
          failure (.plain "selected invocation must use this analysis marker, got another marker")
        else execute system { program, args := rest }
      | some selected_target =>
        match verify_selected system program rest marker with
        | .error report => failure report
        | .ok () =>
          match (system.var_os MODE_ENV).bind OsString.into_string with
          | some "probe" => stop_probe system marker
          | some "collect" =>
            match system.current_exe with
            | .error error => failure (.caused "failed to find the rustc driver: " error)
            | .ok executable =>
              execute system
                { program := executable
                  args := arguments.eraseIdx selected_target
                  env := [(DRIVER_INNER_ENV, "1")] }
          | _ => failure (.plain "compiler mode must be probe or collect, got an unsupported value")

end wrapper

end optic.compiler
