import Optic.Capture.Capture
import Optic.Compiler.Wrapper
import Optic.Store.Publish

open rust file_system optic.records optic.relay

namespace optic.store

/-- The tree of a store with everything outside of its directory replaced. -/
def Store.beside (self : Store) (tree files : Tree) : Tree :=
  fun path => if self.optic_directory <+: path then tree path else files path

end optic.store

namespace optic.captures

open optic.store

variable {I : Type} {M : CargoSchema}

/-- What an invocation of Cargo does about the selected target: it stops before, finds it fresh, or starts the wrapper
for it. A program that replaces the wrapper succeeds or fails in its place. -/
inductive Selection where
  | Unreached
  | Fresh
  | Invoked (system : compiler.wrapper.System) (succeeds : Bool)

/-- Whether a compilation of the selected target completes. -/
def Selection.compiles : Selection → Bool
  | .Unreached | .Fresh => false
  | .Invoked system succeeds => (compiler.wrapper.run system).started.isSome && succeeds

/-- One invocation of Cargo, with the files that are there after it. -/
structure Invocation (M : CargoSchema) where
  process : Except compiler.Error (CargoProcess M)
  selection : Selection
  files : Tree

/-- One call of `capture`: what it is asked for, what it draws, what Cargo does for a mode and a marker, and which
operations of the store fail. -/
structure Call (M : CargoSchema) where
  policy : CapturePolicy
  prepared : Except compiler.Error (Prepared M)
  cargo : String → String → Invocation M
  gather : PathBuf → String → CompilerIdentity → Except compiler.Error compiler.collector.CollectedEvidence
  token : AnalysisToken
  capture_id : CaptureId
  completed_at_unix_ms : UInt64
  artifact_directory : Path
  initializing : List (Option Failure) := []
  reading : List (Option Failure) := []
  publishing : List (Option Failure) := []

def Call.environment (self : Call M) : Environment M where
  cargo mode marker := (self.cargo mode marker).process
  gather := self.gather

/-- A completed compilation of a selected target. -/
structure Compilation (I : Type) (M : CargoSchema) where
  marker : String
  inputs : I
  call : Call M

/-- A workspace: its files, the inputs that Cargo tracks, and the compilations that it has completed. -/
structure Session (I : Type) (M : CargoSchema) where
  tree : Tree
  inputs : I
  compilations : List (Compilation I M)

/-- A program in a workspace. What it did before an error stays done. -/
def Program (I : Type) (M : CargoSchema) (α : Type) : Type := Session I M → Except Error α × Session I M

namespace Program

variable {α β : Type}

instance : Monad (Program I M) where
  pure a session := (.ok a, session)
  bind p f session :=
    match p session with
    | (.ok a, session) => f a session
    | (.error e, session) => (.error e, session)

theorem bind_apply (p : Program I M α) (f : α → Program I M β) (session : Session I M) : (p >>= f) session =
    match p session with
    | (.ok a, session) => f a session
    | (.error e, session) => (.error e, session) := rfl

/-- A step without effect. -/
def lift (result : Except Error α) : Program I M α := fun session => (result, session)

/-- An operation of the store, some of whose steps fail. -/
def operate (schedule : List (Option Failure)) (p : Action store.Error α) : Program I M α := fun session =>
  let answer := p { tree := session.tree, schedule }
  (answer.1.mapError .Store, { session with tree := answer.2.tree })

end Program

namespace Call

variable (self : Call M) (store : Store)

/-- Runs Cargo, which remembers a compilation that completes. -/
def invoke (mode marker : String) : Program I M Unit := fun session =>
  let invocation := self.cargo mode marker
  (.ok (), { session with
    tree := store.beside session.tree invocation.files
    compilations := session.compilations ++
      if invocation.selection.compiles then [{ marker, inputs := session.inputs, call := self }] else [] })

/-- Probes a candidate. One of another request, or behind a stopped probe, is rejected before Cargo runs. -/
def probe (prepared : PreparedBuild M) (candidate : CaptureAnalysis (CargoArtifactRecord M)) :
    Program I M (compiler.Freshness × PreparedBuild M) := do
  if candidate.request_key = prepared.request_key ∧ prepared.stopped_probe.isNone then
    self.invoke store "probe" (compiler.selected_target_marker candidate.token)
  .lift ((prepared.probe self.environment candidate).result.mapError .Compiler)

variable [Serde (CaptureRecord (CargoArtifactRecord M))] [Serde InstanceManifest] [Serde CandidatePointer]

def collect_and_publish (prepared : PreparedBuild M) : Program I M (CaptureOutcome M) := do
  self.invoke store "collect" (compiler.selected_target_marker self.token)
  let collected ← .lift ((prepared.collect self.environment self.token).result.mapError .Compiler)
  let manifest ← .lift ((collected.evidence.into_manifest self.capture_id).mapError fun error => .Compiler (.Record error))
  let capture := CaptureRecord.new self.capture_id self.completed_at_unix_ms collected.build collected.compiler
    collected.analysis
  .operate self.publishing (store.publish capture manifest self.artifact_directory)
  return .Captured capture

/-- Reuses a candidate that Cargo confirms as fresh, or collects and publishes new evidence. -/
def reuse (prepared : PreparedBuild M) (candidate : CaptureRecord (CargoArtifactRecord M)) :
    Program I M (CaptureOutcome M) := do
  let (freshness, prepared) ← self.probe store prepared candidate.analysis
  if freshness = .Fresh then return .Reused candidate else self.collect_and_publish store prepared

/-- Reuses the candidate that the store holds, if the policy asks for one, or collects and publishes new evidence. -/
def capture : Program I M (CaptureOutcome M) := do
  let prepared ← .lift (self.prepared.mapError .Compiler)
  let prepared : PreparedBuild M := { prepared with }
  .operate self.initializing store.initialize_store
  let candidate ← if self.policy = .Reuse then
      .operate self.reading (store.read_candidate (CargoArtifactRecord M) prepared.request_key)
    else pure none
  match candidate with
  | none => self.collect_and_publish store prepared
  | some (candidate, _) => self.reuse store prepared candidate

end Call

end optic.captures
