import Optic.Store.Artifacts

open rust file_system optic.records optic.store

namespace optic.queries

/-- Why a stored evidence query could not complete. -/
inductive Error where
  | InvalidInstanceReference (reference : InstanceRef) (instance_count : Nat)
  | AliasCycle (reference : InstanceRef) (compiler_module raw_symbol : String)
  | Store (source : store.Error)
deriving DecidableEq

/-- A capture-scoped artifact range. -/
structure EvidenceRange where
  capture_id : CaptureId
  artifact : ArtifactId
  range : ByteRange
deriving DecidableEq

/-- Resolves an ordinal in the manifest of its capture. -/
def referenced_instance (manifest : InstanceManifest) (reference : InstanceRef) : Except Error InstanceRecord :=
  ok_or (manifest.instances[reference.ordinal.toNat]?) (.InvalidInstanceReference reference manifest.instances.length)

/-- Captured source for an instance, or the compiler's reason for none. -/
inductive SourceEvidence where
  | Available (evidence : EvidenceRange) (display_path : PathBuf) (starting_line : UInt64)
  | Unavailable (reason : SourceUnavailable)

/-- Selects the source range of an instance in a manifest. -/
def select_source (manifest : InstanceManifest) (reference : InstanceRef) : Except Error SourceEvidence := do
  let instance_ ← referenced_instance manifest reference
  match instance_.source with
  | .Available source =>
    return .Available ⟨reference.capture_id, source.artifact, source.range⟩ source.display_path source.starting_line
  | .Unavailable reason => return .Unavailable reason

/-- One exact function body and the direct aliases that selected it. -/
structure LlvmBody where
  evidence : EvidenceRange
  compiler_module : String
  stage : LlvmStage
  raw_symbol : String
  aliases : List String
deriving DecidableEq

/-- The exact standalone bodies of one instance, or why there are none. -/
inductive LlvmEvidence where
  | Available (bodies : List LlvmBody)
  | NotCaptured (reason : UnsupportedLlvmConfiguration)
  | NoExactDefinition
  | UnsupportedAlias
deriving DecidableEq

inductive ModuleEvidence where
  | Body (body : LlvmBody)
  | NoExactDefinition
  | UnsupportedAlias
deriving DecidableEq

/-- The definition of a symbol. The symbols of a module are distinct. -/
def definition_of (module : LlvmModuleRecord) (symbol : String) : Option LlvmDefinitionRecord :=
  module.definitions.find? fun definition => definition.raw_symbol = symbol

theorem definition_of_eq_some {module : LlvmModuleRecord} {symbol : String} {definition : LlvmDefinitionRecord}
    (h : definition_of module symbol = some definition) :
    definition ∈ module.definitions ∧ definition.raw_symbol = symbol :=
  ⟨List.mem_of_find?_eq_some h, by simpa using List.find?_some h⟩

/-- The definitions that an alias chain has not visited yet. -/
def unvisited (module : LlvmModuleRecord) (visited : List String) : Nat :=
  module.definitions.countP fun definition => definition.raw_symbol ∉ visited

/-- Visiting a defined symbol leaves fewer definitions. -/
theorem unvisited_lt {module : LlvmModuleRecord} {visited : List String} {symbol : String}
    {definition : LlvmDefinitionRecord} (hnew : symbol ∉ visited) (h : definition_of module symbol = some definition) :
    unvisited module (symbol :: visited) < unvisited module visited := by
  obtain ⟨hmem, rfl⟩ := definition_of_eq_some h
  unfold unvisited
  generalize module.definitions = definitions at hmem
  obtain ⟨before, behind, rfl⟩ := List.append_of_mem hmem
  have hless (rest : List LlvmDefinitionRecord) : rest.countP (fun other => other.raw_symbol ∉ definition.raw_symbol :: visited) ≤
      rest.countP fun other => other.raw_symbol ∉ visited := by
    apply List.countP_mono_left
    intro other _ hother
    simp only [List.mem_cons, not_or, decide_eq_true_eq] at hother ⊢
    exact hother.2
  have hbefore := hless before
  have hbehind := hless behind
  simp only [List.countP_append, List.countP_cons, hnew, List.mem_cons, true_or, not_true_eq_false, decide_false,
    not_false_eq_true, decide_true, if_true] at hbefore hbehind ⊢
  simp only [Bool.false_eq_true, if_false]
  omega

/-- Follows the direct aliases of a module from a symbol. -/
def resolve_from (module : LlvmModuleRecord) (reference : InstanceRef) (visited aliases : List String) (symbol : String) :
    Except Error ModuleEvidence :=
  if _visited : symbol ∈ visited then .error (.AliasCycle reference module.compiler_module symbol)
  else
    match _found : definition_of module symbol with
    | none => .ok .NoExactDefinition
    | some definition =>
      match definition.kind with
      | .Function =>
        .ok (.Body {
          evidence := ⟨reference.capture_id, module.artifact, definition.range⟩
          compiler_module := module.compiler_module
          stage := module.stage
          raw_symbol := definition.raw_symbol
          aliases })
      | .DirectAlias target => resolve_from module reference (symbol :: visited) (aliases ++ [symbol]) target
      | .ExpressionAlias | .Ifunc => .ok .UnsupportedAlias
termination_by unvisited module visited
decreasing_by exact unvisited_lt _visited _found

def resolve_module (module : LlvmModuleRecord) (raw_symbol : String) (reference : InstanceRef) :
    Except Error ModuleEvidence := resolve_from module reference [] [] raw_symbol

/-- Resolves a symbol in every module: the bodies, and whether an alias was unsupported. -/
def resolve_modules (raw_symbol : String) (reference : InstanceRef) :
    List LlvmModuleRecord → Except Error (List LlvmBody × Bool)
  | [] => .ok ([], false)
  | module :: modules => do
    let resolved ← resolve_module module raw_symbol reference
    let (bodies, unsupported_alias) ← resolve_modules raw_symbol reference modules
    return match resolved with
    | .Body body => (body :: bodies, unsupported_alias)
    | .NoExactDefinition => (bodies, unsupported_alias)
    | .UnsupportedAlias => (bodies, true)

/-- Compiler module, then the start and the length of the range. -/
def BodyOrder (left right : LlvmBody) : Bool :=
  ((compare left.compiler_module right.compiler_module).then
    ((compare left.evidence.range.start right.evidence.range.start).then
      (compare left.evidence.range.length right.evidence.range.length))).isLE

/-- Selects every exact body of an instance in a manifest. -/
def select_llvm (manifest : InstanceManifest) (reference : InstanceRef) : Except Error LlvmEvidence := do
  let instance_ ← referenced_instance manifest reference
  match manifest.llvm with
  | .NotCaptured reason => return .NotCaptured reason
  | .Collected modules =>
    let (bodies, unsupported_alias) ← resolve_modules instance_.raw_symbol reference modules
    return if bodies = [] then if unsupported_alias then .UnsupportedAlias else .NoExactDefinition
      else .Available (bodies.mergeSort BodyOrder)

variable (Artifact : Type) [Serde (CaptureRecord Artifact)] [Serde InstanceManifest]

/-- Selects the captured source range for an immutable instance reference. -/
def source_evidence (store : Store) (reference : InstanceRef) : Action Error SourceEvidence := do
  let manifest ← (store.read_instances Artifact reference.capture_id).map_err .Store
  .lift (select_source manifest reference)

/-- Selects every exact LLVM body for an immutable instance reference. -/
def llvm_evidence (store : Store) (reference : InstanceRef) : Action Error LlvmEvidence := do
  let manifest ← (store.read_instances Artifact reference.capture_id).map_err .Store
  .lift (select_llvm manifest reference)

end optic.queries
