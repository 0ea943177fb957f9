import Optic.Compiler.Observation

open rust optic.records optic.compiler.protocol

namespace optic.compiler

/-- Reserves the selected-target argument prefix for analysis tokens. -/
def MARKER_PREFIX : String := "--cfg=cargo_optic_selected_target="

def selected_target_marker (token : AnalysisToken) : String := MARKER_PREFIX ++ "\"" ++ token.value ++ "\""

variable {M : CargoSchema}

/-- How grave the compiler calls a diagnostic. -/
inductive DiagnosticLevel where
  | Ice
  | Error
  | Warning
  | FailureNote
  | Note
  | Help
deriving DecidableEq, Repr

structure Diagnostic where
  level : DiagnosticLevel
  message : String
  rendered : Option String

/-- One message of Cargo's structured output. -/
inductive CargoMessage (M : CargoSchema) where
  | CompilerArtifact (artifact : Artifact M)
  | BuildFinished (success : Bool)
  | CompilerMessage (diagnostic : Diagnostic)
  | TextLine (line : String)
  | Other

structure ExitStatus where
  success : Bool
  display : String

/-- A stale receipt as the filesystem answers for it: its metadata without following links, and
its bytes. -/
structure Receipt where
  is_file : Bool
  len : Nat
  bytes : Except IoError (List UInt8)

/-- What one Cargo process does in its temporary directory. -/
structure CargoRun (M : CargoSchema) where
  directory : PathBuf
  messages : List (Except IoError (CargoMessage M))
  status : ExitStatus
  stale : Except IoError Receipt
  manifest : Except IoError Bool

/-- Owns one Cargo result and the evidence and diagnostics needed to classify it. -/
structure CargoAttempt (M : CargoSchema) where
  run : CargoRun M
  observation : CargoObservation M := {}
  diagnostics : List String := []
  warnings : List String := []
  read_error : Option IoError := none

namespace CargoAttempt

/-- Separates warnings, so that stopped probes can relay them alone. -/
def record_diagnostic (self : CargoAttempt M) (diagnostic : Diagnostic) : CargoAttempt M :=
  let rendered := diagnostic.rendered.getD (diagnostic.message ++ "\n")
  if diagnostic.level = .Warning then { self with warnings := self.warnings ++ [rendered] }
  else
    let fatal := diagnostic.level = .Error || diagnostic.level = .Ice || diagnostic.level = .FailureNote
    { self with
      observation := { self.observation with has_errors := self.observation.has_errors || fatal }
      diagnostics := self.diagnostics ++ [rendered] }

def record_message (package : String) (target : Target M) (self : CargoAttempt M) :
    Except IoError (CargoMessage M) → CargoAttempt M
  | .ok (.CompilerArtifact artifact) => { self with observation := self.observation.record artifact package target }
  | .ok (.BuildFinished success) =>
    { self with observation := { self.observation with finished := self.observation.finished ++ [success] } }
  | .ok (.CompilerMessage diagnostic) => self.record_diagnostic diagnostic
  | .ok (.TextLine line) =>
    if line ≠ "" then { self with diagnostics := self.diagnostics ++ [line ++ "\n"] } else self
  | .ok .Other => self
  | .error error => { self with read_error := self.read_error.or (some error) }

/-- Reads all messages of a run. Only then is a failure to read one of them reported. -/
def start (run : CargoRun M) (package : String) (target : Target M) : Except Error (CargoAttempt M) :=
  let attempt := run.messages.foldl (record_message package target) { run }
  match attempt.read_error with
  | some source => .error (.Filesystem "read Cargo messages for" (run.directory.join "stderr") source)
  | none => .ok attempt

def failure (self : CargoAttempt M) (cargo : PathBuf) : Error := .ProcessFailed cargo self.run.status.display none

end CargoAttempt

/-- Accepts only this attempt's exact receipt. An absent file returns false. -/
def verified_stale_receipt (path : PathBuf) (receipt : Except IoError Receipt) (marker : String) : Except Error Bool :=
  match receipt with
  | .error source => if source.kind = .NotFound then .ok false else .error (.Filesystem "inspect stale receipt" path source)
  | .ok receipt => do
    let expected := header.spell marker
    ensure (!(!receipt.is_file || receipt.len ≠ expected.length))
      (invalid_environment "stale receipt must contain exactly this attempt's header, got an invalid file")
    let actual ← receipt.bytes.mapError (.Filesystem "read stale receipt" path)
    ensure (actual = expected)
      (invalid_environment "stale receipt must match this analysis token and protocol, got a different header")
    return true

/-- Cargo's result for a candidate whose token was never compiled by the probe. -/
inductive Freshness where
  | Fresh
  | Stale
deriving DecidableEq, Repr

/-- A resolved request for one probe and collection. -/
structure PreparedBuild (M : CargoSchema) where
  cargo : PathBuf
  package : String
  target : Target M
  request_key : CaptureKey
  stopped_probe : Option (CargoAttempt M)

namespace PreparedBuild

variable (self : PreparedBuild M)

def classify_probe (attempt : CargoAttempt M) (candidate : CaptureAnalysis (CargoArtifactRecord M)) (marker : String) :
    Except Error Freshness := do
  let stale ← verified_stale_receipt (attempt.run.directory.join "stale") attempt.run.stale marker
  let manifest ← attempt.run.manifest.mapError
    (.Filesystem "inspect probe manifest" (attempt.run.directory.join "manifest"))
  ensure (!manifest)
    (invalid_environment "probe requires no selected analysis manifest, got a compiler manifest")
  if !attempt.run.status.success then
    if stale && attempt.observation.selected.isEmpty then .ok .Stale
    else .error (attempt.failure self.cargo)
  else do
    ensure (!stale)
      (invalid_environment "successful probe requires no stale receipt, got a stopped invocation")
    let artifact ← attempt.observation.completed self.target true
    ensure (artifact == candidate.artifact)
      (invalid_environment ("fresh selected artifact must match the stored observation, " ++
        "got different Cargo artifact fields"))
    return .Fresh

/-- Probes a candidate with the run that its marker leads to. A stopped probe is kept, with its
diagnostics. Diagnostics are assumed to be relayed without failures. -/
def probe (candidate : CaptureAnalysis (CargoArtifactRecord M)) (run : CargoRun M) :
    Except Error (Freshness × PreparedBuild M) := do
  ensure (candidate.request_key = self.request_key)
    (invalid_environment "candidate request key must match the prepared request, got another key")
  ensure self.stopped_probe.isNone
    (invalid_environment "a stopped probe requires collection, got another probe")
  let attempt ← CargoAttempt.start run self.package self.target
  match ← self.classify_probe attempt candidate (selected_target_marker candidate.token) with
  | .Stale => return (.Stale, { self with stopped_probe := some attempt })
  | .Fresh => return (.Fresh, self)

/-- The part of a collection that looks at what Cargo reported: the attempt, and the record of its
artifact. -/
def observe_collection (token : AnalysisToken) (run : CargoRun M) :
    Except Error (CargoAttempt M × CargoArtifactRecord M) := do
  let attempt ← CargoAttempt.start run self.package self.target
  ensure attempt.run.status.success (attempt.failure self.cargo)
  let stale ← verified_stale_receipt (attempt.run.directory.join "stale") attempt.run.stale (selected_target_marker token)
  ensure (!stale)
    (invalid_environment "collection requires no stale receipt, got a stopped probe receipt")
  let artifact ← attempt.observation.completed self.target false
  return (attempt, artifact)

end PreparedBuild

end optic.compiler
