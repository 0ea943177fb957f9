import Optic.Compiler.Artifacts
import Optic.Compiler.Probe
import Optic.Rust.Traced

open rust optic.records optic.compiler optic.compiler.protocol

namespace optic.relay

variable {M : CargoSchema}

/-- The file that Cargo's stderr went to, as it is read back: it may not open, or be read only so far. -/
structure DiagnosticFile where
  bytes : List UInt8
  unopened : Option IoError := none
  unread : Option (Nat × IoError) := none

/-- What `io::copy` writes of the file, up to the error that it reports. -/
def DiagnosticFile.copied (self : DiagnosticFile) : List UInt8 :=
  match self.unread with
  | some (count, _) => self.bytes.take count
  | none => self.bytes

/-- A Cargo process with the file that its stderr goes to. -/
structure CargoProcess (M : CargoSchema) extends CargoRun M where
  stderr : DiagnosticFile

/-- What a capture does that can be seen. Each write to stderr is one event. -/
inductive Event (M : CargoSchema) where
  | Started (process : CargoProcess M)
  | Written (bytes : List UInt8)

/-- A program that relays diagnostics. Writes to stderr and waiting for Cargo are assumed to succeed. -/
abbrev Relay (M : CargoSchema) (α : Type) : Type := Traced (Event M) compiler.Error α

def write_diagnostic (bytes : List UInt8) : Relay M Unit := .emit (.Written bytes)

/-- Owns one Cargo result, the diagnostics needed to classify it and its stderr file. -/
structure CargoAttempt (M : CargoSchema) extends compiler.CargoAttempt M where
  stderr : DiagnosticFile

/-- Copies the file to stderr. -/
def DiagnosticFile.replay (self : DiagnosticFile) (path : PathBuf) : Relay M Unit :=
  match self.unopened with
  | some source => .lift (.error (.Filesystem "open Cargo diagnostic file" path source))
  | none => do
    write_diagnostic self.copied
    match self.unread with
    | some (_, source) => .lift (.error (.Filesystem "replay Cargo diagnostics from" path source))
    | none => return ()

namespace CargoAttempt

def relay_warnings (self : CargoAttempt M) : Relay M (CargoAttempt M) := do
  self.warnings.forM fun warning => write_diagnostic (text warning)
  return { self with warnings := [] }

def replay (self : CargoAttempt M) : Relay M Unit := do
  let self ← self.relay_warnings
  self.diagnostics.forM fun diagnostic => write_diagnostic (text diagnostic)
  self.stderr.replay (self.run.directory.join "stderr")

/-- Starts a process, unless that fails, and reads all of its messages. -/
def start (process : Except compiler.Error (CargoProcess M)) (package : String) (target : Target M) : Relay M (CargoAttempt M) := do
  let process ← .lift process
  .emit (.Started process)
  let attempt := process.messages.foldl (compiler.CargoAttempt.record_message package target) { run := process.toCargoRun }
  let attempt : CargoAttempt M := { attempt with stderr := process.stderr }
  match attempt.read_error with
  | some source => do
    attempt.replay
    .lift (.error (.Filesystem "read Cargo messages for" (process.directory.join "stderr") source))
  | none => return attempt

end CargoAttempt

/-- A resolved request. -/
structure Prepared (M : CargoSchema) where
  cargo : PathBuf
  package : String
  target : Target M
  request_key : CaptureKey
  build : BuildRecord
  compiler : CompilerIdentity

/-- A resolved request for one probe and collection. -/
structure PreparedBuild (M : CargoSchema) extends Prepared M where
  /-- Preserves a stopped probe's diagnostics until the subsequent collection succeeds or fails. -/
  stopped_probe : Option (CargoAttempt M) := none

/-- The part of a prepared build that classifies what Cargo reported. -/
def PreparedBuild.classifier (self : PreparedBuild M) : compiler.PreparedBuild M where
  cargo := self.cargo
  package := self.package
  target := self.target
  request_key := self.request_key
  stopped_probe := self.stopped_probe.map (·.toCargoAttempt)

/-- Validated evidence of one collection. -/
structure CollectedBuild (M : CargoSchema) where
  build : BuildRecord
  compiler : CompilerIdentity
  evidence : collector.CollectedEvidence
  analysis : CaptureAnalysis (CargoArtifactRecord M)

/-- What Cargo and the file system answer a prepared build. `cargo` starts a process for a mode and a marker, and
`gather` reads the manifest and the artifacts that the driver left in a directory. -/
structure Environment (M : CargoSchema) where
  cargo : String → String → Except compiler.Error (CargoProcess M)
  gather : PathBuf → String → CompilerIdentity → Except compiler.Error collector.CollectedEvidence

namespace PreparedBuild

variable (self : PreparedBuild M) (environment : Environment M)

/-- Probes a candidate. A stopped probe relays its warnings alone, and everything else relays all of its diagnostics. -/
def probe (candidate : CaptureAnalysis (CargoArtifactRecord M)) : Relay M (Freshness × PreparedBuild M) := do
  .lift (ensure (candidate.request_key = self.request_key)
    (invalid_environment "candidate request key must match the prepared request, got another key"))
  .lift (ensure self.stopped_probe.isNone
    (invalid_environment "a stopped probe requires collection, got another probe"))
  let marker := selected_target_marker candidate.token
  let attempt ← CargoAttempt.start (environment.cargo "probe" marker) self.package self.target
  match self.classifier.classify_probe attempt.toCargoAttempt candidate marker with
  | .ok .Stale => do
    let attempt ← attempt.relay_warnings
    return (.Stale, { self with stopped_probe := some attempt })
  | result => do
    attempt.replay
    let freshness ← .lift result
    return (freshness, self)

def collect_new_token (token : AnalysisToken) : Relay M (CollectedBuild M) := do
  let marker := selected_target_marker token
  let attempt ← CargoAttempt.start (environment.cargo "collect" marker) self.package self.target
  attempt.replay
  .lift (ensure attempt.run.status.success (attempt.failure self.cargo))
  let stale ← .lift (verified_stale_receipt (attempt.run.directory.join "stale") attempt.run.stale marker)
  .lift (ensure (!stale)
    (invalid_environment "collection requires no stale receipt, got a stopped probe receipt"))
  let artifact ← .lift (attempt.observation.completed self.target false)
  let evidence ← .lift (environment.gather attempt.run.directory marker self.compiler)
  return { build := self.build, compiler := self.compiler, evidence,
           analysis := { request_key := self.request_key, token, artifact } }

/-- Collects once. The diagnostics of a stopped probe are replayed if the collection fails. -/
def collect (token : AnalysisToken) : Relay M (CollectedBuild M) :=
  (self.collect_new_token environment token).recover fun error =>
    match self.stopped_probe with
    | some probe => do
      probe.replay
      .lift (.error error)
    | none => .lift (.error error)

end PreparedBuild

end optic.relay
