import Optic.Capture.Journey
import Optic.Compiler.PreparationSpec
import Optic.Store.ListingReads

open rust file_system optic.records optic.relay

namespace optic.captures

open optic.store

section

variable {I : Type} {M : CargoSchema} [Serde (CaptureRecord (CargoArtifactRecord M))] [Serde InstanceManifest]
  [Serde CandidatePointer] {store : Store} {turns : List (Turn I M)} {session after : Session I M} {call : Call M}
  {record : CaptureRecord (CargoArtifactRecord M)}

/-- What is reused is the capture that the last installed pointer for the request names. -/
theorem reused_installed (hcargo : call.Follows session) (hreused : call.capture store session = (.ok (.Reused record), after))
    {attempts : List (Attempt (CargoArtifactRecord M))} (hhistory : History store attempts session.tree) :
    History store attempts after.tree ∧ after = { session with tree := after.tree } ∧
    session.UpToDate (compiler.selected_target_marker record.analysis.token) ∧
    ∃ prepared attempt, call.prepared = .ok prepared ∧ last_installed store prepared.request_key attempts = some attempt ∧
      attempt.completed store = true ∧ attempt.capture = record := by
  have heffect := call.capture_effect store hcargo
  rw [hreused] at heffect
  generalize houtcome : (Except.ok (CaptureOutcome.Reused record) : Except Error (CaptureOutcome M)) = outcome at heffect
  cases heffect with
  | failed htree hcompilations => cases houtcome
  | published attempt htree hproduces hdirectory hfiles hresult =>
    subst houtcome
    rcases hresult with ⟨-, hresult⟩ | ⟨-, error, hresult⟩ <;> cases hresult
  | @reused prepared record manifest before tree hprepared hbefore htree hcandidate hfresh =>
    cases houtcome
    refine ⟨htree attempts hhistory, rfl, hfresh, prepared, ?_⟩
    have hlast := ((hbefore attempts hhistory).read_candidate prepared.request_key).unique hcandidate
    cases hinstalled : last_installed store prepared.request_key attempts with
    | none =>
      rw [hinstalled] at hlast
      cases hlast
    | some attempt =>
      rw [hinstalled, Option.bind_some] at hlast
      cases hcompleted : attempt.completed store with
      | false =>
        rw [hcompleted] at hlast
        cases hlast
      | true =>
        rw [hcompleted, if_pos rfl] at hlast
        cases hlast
        exact ⟨attempt, hprepared, rfl, hcompleted, rfl⟩

/-- The capture of a call, as a store keeps it: its record, its manifest and its artifacts are read as that call produced
them. -/
structure Kept (store : Store) (tree : Tree) (turn : Turn I M) (record : CaptureRecord (CargoArtifactRecord M))
    (manifest : InstanceManifest) : Prop where
  captured : turn.captured store = some record
  produced : turn.call.Produces record manifest
  header : Answers (store.read_capture record.id) tree (.ok record)
  instances : Answers (store.read_instances (CargoArtifactRecord M) record.id) tree (.ok manifest)
  artifacts : ∀ artifact ∈ manifest.artifacts, ∃ start : Tree, ∃ bytes,
    (∀ path, ¬ store.optic_directory <+: path → start path = turn.call.files path) ∧
    start (turn.call.artifact_directory.join artifact.file_name) = some (.file bytes) ∧
    ∀ range : ByteRange, range.end ≤ artifact.byte_len → ∀ w : World, w.tree = tree → w.schedule = [] →
      w.sink.capacity = none → store.copy_evidence (CargoArtifactRecord M) record.id artifact.id range w =
        (.ok (), { w with sink := { w.sink with
          accepted := w.sink.accepted ++ (bytes.drop range.start.toNat).take range.length.toNat } })

theorem Publishes.kept {turn : Turn I M} {attempt : Attempt (CargoArtifactRecord M)} (h : Publishes store turn attempt)
    {attempts : List (Attempt (CargoArtifactRecord M))} {tree : Tree} (hhistory : History store attempts tree)
    (hattempt : attempt ∈ attempts) (hcompleted : attempt.completed store = true) :
    Kept store tree turn attempt.capture attempt.instances := by
  obtain ⟨hheader, hmanifest, hartifacts⟩ := hhistory.invariant.reads hattempt hcompleted
  refine ⟨h.captured, h.produced, hheader, hmanifest, fun artifact hartifact => ?_⟩
  obtain ⟨bytes, hbytes, hread⟩ := hartifacts artifact hartifact
  rw [h.directory] at hbytes
  exact ⟨attempt.start, bytes, h.files, hbytes, hread⟩

/-- What a reused record stands for: one call captured it, the store keeps it, and that call's compilation, the only one
with the record's token, had the same inputs. -/
structure Current (store : Store) (turns : List (Turn I M)) (session after : Session I M)
    (record : CaptureRecord (CargoArtifactRecord M)) (turn : Turn I M) (manifest : InstanceManifest) : Prop
    extends Kept store after.tree turn record manifest where
  once : turns.filter (fun turn => (turn.captured store).any fun other => other.id = record.id) = [turn]
  compiled : after.compilations.filter (fun compilation =>
    compilation.marker = compiler.selected_target_marker record.analysis.token) = [turn.call.compilation session.inputs]

/-- A call reuses nothing but what is current. Whatever inputs were edited and whatever failed in the calls before, a
reused record was captured once, is read as it was published, and comes from the only compilation of its token, whose
inputs are still the same. -/
theorem reused_current (h : Journey store turns session) (hcargo : call.Follows session)
    (hreused : call.capture store session = (.ok (.Reused record), after)) :
    ∃ turn manifest, Current store turns session after record turn manifest := by
  obtain ⟨attempts, hhistory, hpublishes⟩ := h.accounted.published
  obtain ⟨hkept, hafter, hfresh, prepared, attempt, -, hinstalled, hcompleted, rfl⟩ := reused_installed hcargo hreused hhistory
  have hattempt := (last_installed_mem hinstalled).1
  obtain ⟨turn, honce, hpublished⟩ := published_once hhistory hpublishes hattempt hcompleted
  have hturn : turn ∈ turns := (List.mem_filter.mp (honce ▸ List.mem_singleton_self turn)).1
  have hcaptured : turn.captured store = some attempt.capture := hpublished.captured
  -- The only compilation of its token is up to date.
  obtain ⟨prepared, collected, -, hcollect, -, hrecord⟩ := hpublished.produced
  have htoken : attempt.capture.analysis.token = turn.call.token := by
    rw [hrecord]
    exact (PreparedBuild.collect_eq_ok hcollect).1.1
  have hcompiled := h.accounted.compiled_once hturn (hcaptured ▸ rfl)
  obtain ⟨compilation, hmem, hmarker, hinputs⟩ := hfresh
  rw [htoken] at hmarker
  have honly : compilation ∈ [turn.call.compilation turn.before.inputs] := by
    rw [← hcompiled]
    exact List.mem_filter.mpr ⟨hmem, decide_eq_true hmarker⟩
  rw [List.mem_singleton.mp honly] at hinputs
  change turn.before.inputs = session.inputs at hinputs
  refine ⟨turn, attempt.instances, hpublished.kept hkept hattempt hcompleted, honce, ?_⟩
  rw [hafter, htoken, ← hinputs]
  exact hcompiled

/-- A reused record is the newest capture of the request: it has the key that the call prepared, and no later call
captured another record for that key. -/
theorem reused_latest (h : Journey store turns session) (hcargo : call.Follows session)
    (hreused : call.capture store session = (.ok (.Reused record), after)) :
    ∃ prepared earlier turn later, call.prepared = .ok prepared ∧ record.analysis.request_key = prepared.request_key ∧
      turns = earlier ++ turn :: later ∧ turn.captured store = some record ∧
      ∀ other ∈ later, ∀ newer ∈ other.captured store, newer.analysis.request_key ≠ prepared.request_key := by
  obtain ⟨attempts, hhistory, hpublishes⟩ := h.accounted.published
  obtain ⟨-, -, -, prepared, attempt, hprepared, hinstalled, hcompleted, rfl⟩ := reused_installed hcargo hreused hhistory
  obtain ⟨before, behind, rfl, hbehind⟩ := last_installed_split hinstalled
  rw [List.filter_append, List.filter_cons_of_pos hcompleted] at hpublishes
  obtain ⟨turn, newer, hpublished, hnewer, hdrop⟩ := List.forall₂_cons_right_iff.mp (List.forall₂_drop_append _ _ _ hpublishes)
  have hcaptures := List.take_append_drop (before.filter fun attempt => attempt.completed store).length
    (turns.filter fun turn => (turn.captured store).isSome)
  rw [hdrop] at hcaptures
  obtain ⟨earlier, rest, rfl, -, hrest⟩ := List.filter_eq_append_iff.mp hcaptures.symm
  obtain ⟨between, later, rfl, -, -, hlater⟩ := List.filter_eq_cons_iff.mp hrest
  refine ⟨prepared, earlier ++ between, turn, later, hprepared, (last_installed_mem hinstalled).2.2,
    (List.append_assoc _ _ _).symm, hpublished.captured, fun other hother record hrecord => ?_⟩
  have hmem : other ∈ newer := by
    rw [← hlater]
    exact List.mem_filter.mpr ⟨hother, Option.isSome_of_mem hrecord⟩
  obtain ⟨published, hpublished, hpublishes⟩ := exists_of_mem_right hnewer.flip hmem
  obtain ⟨hmem, hdone⟩ := List.mem_filter.mp hpublished
  rw [Option.mem_def, hpublishes.captured, Option.some.injEq] at hrecord
  rw [← hrecord]
  exact hbehind published hmem (Attempt.installed_of_completed hdone)

/-- The completed attempts hold the records that the calls captured, in their order. -/
theorem published_records {turns : List (Turn I M)} {attempts : List (Attempt (CargoArtifactRecord M))}
    (h : List.Forall₂ (Publishes store) (turns.filter fun turn => (turn.captured store).isSome) attempts) :
    attempts.map Attempt.capture = turns.filterMap (Turn.captured store) := by
  induction turns generalizing attempts with
  | nil =>
    cases h
    rfl
  | cons turn turns ih =>
    cases hcaptured : turn.captured store with
    | none =>
      rw [List.filter_cons_of_neg (by simp [hcaptured])] at h
      rw [List.filterMap_cons_none hcaptured]
      exact ih h
    | some record =>
      rw [List.filter_cons_of_pos (by simp [hcaptured])] at h
      cases h with
      | cons hpublished hrest =>
        rw [List.filterMap_cons_some hcaptured, List.map_cons, ih hrest,
          Option.some.inj (hpublished.captured.symm.trans hcaptured)]

/-- Whatever fails in some calls of a journey, a listing at its end has the records of all calls that returned a capture,
each once and the latest first, and the store keeps each of them as its call produced it. -/
theorem listed_captures (h : Journey store turns session) {names : List OsString}
    (hnames : Enumerates session.tree (store.root.join "captures") names) :
    (∃ captures, Answers (store.list_captures (CargoArtifactRecord M) names) session.tree (.ok captures) ∧
      captures.Perm (turns.filterMap (Turn.captured store)) ∧ captures.Pairwise Before) ∧
    ∀ turn ∈ turns, ∀ record ∈ turn.captured store, ∃ manifest, Kept store session.tree turn record manifest := by
  obtain ⟨attempts, hhistory, hpublishes⟩ := h.accounted.published
  constructor
  · obtain ⟨captures, hcaptures, hperm⟩ := hhistory.invariant.list_captures hnames.distinct hnames.complete
    rw [published_records hpublishes] at hperm
    exact ⟨captures, hcaptures, hperm, listed_sorted hnames.distinct hcaptures⟩
  · intro turn hturn record hrecord
    obtain ⟨attempt, hattempt, hpublished⟩ := exists_of_mem_right hpublishes.flip
      (List.mem_filter.mpr ⟨hturn, Option.isSome_of_mem hrecord⟩)
    obtain ⟨hmem, hcompleted⟩ := List.mem_filter.mp hattempt
    obtain rfl := Option.some.inj (hpublished.captured.symm.trans hrecord)
    exact ⟨attempt.instances, hpublished.kept hhistory hmem hcompleted⟩

/-- A capture is reused by the next call for its request that finds the store in order and that Cargo reports as fresh. -/
theorem captured_reusable (h : Journey store turns session) {next : Call M} (hcargo : call.Follows session)
    (hcaptured : call.capture store session = (.ok (.Captured record), after)) (hpolicy : next.policy = .Reuse)
    {prepared : Prepared M} (hprepared : next.prepared = .ok prepared)
    (hkey : record.analysis.request_key = prepared.request_key)
    (hinitialized : (store.initialize_store { tree := after.tree, schedule := next.initializing }).1 = .ok ())
    (hreading : next.reading = []) {same : PreparedBuild M}
    (hfresh : (PreparedBuild.probe { prepared with } next.environment record.analysis).result = .ok (.Fresh, same)) :
    (next.capture store after).1 = .ok (.Reused record) := by
  obtain ⟨attempts, hhistory, -⟩ := h.accounted.published
  have heffect := call.capture_effect store hcargo
  rw [hcaptured] at heffect
  generalize houtcome : (Except.ok (CaptureOutcome.Captured record) : Except Error (CaptureOutcome M)) = outcome at heffect
  cases heffect with
  | failed htree hcompilations => cases houtcome
  | reused hprepared hbefore htree hcandidate hfresh => cases houtcome
  | published attempt htree hproduces hdirectory hfiles hresult =>
    subst houtcome
    rcases hresult with ⟨hcompleted, hresult⟩ | ⟨-, error, hresult⟩
    · cases hresult
      have hkept := History.initialized (.published attempt (htree attempts hhistory)) next.initializing
      have hread := hkept.read_candidate prepared.request_key
      rw [last_installed_append, if_pos (by simp [Attempt.installed_of_completed hcompleted, hkey]), Option.bind_some,
        if_pos hcompleted] at hread
      rw [Call.capture_result, hpolicy]
      exact reused_result hprepared hinitialized (congrArg Prod.fst (hread { tree := _, schedule := next.reading } rfl hreading))
        hfresh
    · cases hresult

end

namespace fixture

def artifact (fresh : Bool) : Artifact compiler.fixture.schema where
  package_id := "path+file:///workspace#fixture@0.1.0"
  manifest_path := ⟨"/workspace/Cargo.toml"⟩
  target := (compiler.fixture.request none).target
  opt_level := "3"
  settings := ()
  features := []
  filenames := []
  executable := none
  fresh := fresh

theorem artifact_normalize (fresh : Bool) : (artifact fresh).normalize = artifact false := by
  simp [Artifact.normalize, SortOrder.sort, artifact, compiler.fixture.request, compiler.fixture.schema]

theorem artifact_acceptable (fresh : Bool) : Acceptable (artifact fresh) := validate_artifact_eq_ok_iff.mp rfl

def artifact_record : CargoArtifactRecord compiler.fixture.schema :=
  ⟨artifact false, artifact_acceptable false, artifact_normalize false⟩

def process (fresh : Bool) : CargoProcess compiler.fixture.schema where
  directory := ⟨"/tmp/optic"⟩
  messages := [.ok (.CompilerArtifact (artifact fresh)), .ok (.BuildFinished true)]
  status := ⟨true, "exit status: 0"⟩
  stale := .error ⟨.NotFound, "No such file or directory (os error 2)"⟩
  manifest := .ok !fresh
  stderr := { bytes := [] }

def prepared : Prepared compiler.fixture.schema := preparation.fixture.prepared false

theorem process_selected (fresh : Bool) :
    (process fresh).messages.filterMap (compiler.selected_of prepared.package prepared.target) = [artifact fresh] := by
  have hselected : compiler.selected_of prepared.package prepared.target (.ok (.CompilerArtifact (artifact fresh))) =
      some (artifact fresh) := compiler.selected_of_eq_some.mpr ⟨rfl, rfl, rfl, .rfl⟩
  rw [process, List.filterMap_cons_some hselected]
  rfl

theorem process_reported (fresh : Bool) : CargoArtifactRecord.new (artifact fresh) = .ok artifact_record ∧
    (artifact fresh).target.Agrees prepared.target :=
  ⟨CargoArtifactRecord.new_eq_ok_iff.mpr ⟨artifact_acceptable fresh, (artifact_normalize fresh).symm⟩,
    ⟨rfl, .rfl, .rfl, .rfl, rfl, rfl⟩⟩

theorem process_built : compiler.ReportsBuilt (PreparedBuild.classifier { prepared with }) artifact_record (process false).toCargoRun :=
  ⟨rfl, rfl, ⟨_, rfl, rfl⟩, ⟨artifact false, process_selected false, rfl, process_reported false⟩, rfl, rfl⟩

theorem token_canonical : AnalysisToken.Canonical "00000000000040008000000000000000" := by
  decide

theorem new_token_canonical : AnalysisToken.Canonical "00000000000040008000000000000001" := by
  decide

def token : AnalysisToken := ⟨_, token_canonical⟩

def evidence : compiler.collector.CollectedEvidence where
  instances := []
  artifacts := []
  provenance := fat_provenance
  llvm := .NotCaptured .FatLto

def record : CaptureRecord (CargoArtifactRecord compiler.fixture.schema) :=
  .new empty_manifest.capture_id 0 prepared.build prepared.compiler
    { request_key := prepared.request_key, token, artifact := artifact_record }

theorem process_found :
    compiler.ReportsFresh (PreparedBuild.classifier { prepared with }) record.analysis (process true).toCargoRun :=
  ⟨rfl, rfl, ⟨_, rfl, rfl⟩, rfl, ⟨artifact true, process_selected true, rfl, process_reported true⟩, rfl, rfl⟩

local instance : DecidableEq (CargoArtifactRecord compiler.fixture.schema) :=
  fun _ _ => decidable_of_iff _ CargoArtifactRecord.artifact_inj

local instance record_serde : Serde (CaptureRecord (CargoArtifactRecord compiler.fixture.schema)) := .single record "0"

local instance manifest_serde : Serde InstanceManifest := .single empty_manifest "0"

local instance pointer_serde : Serde CandidatePointer := .single (.new record) "0"

/-- A wrapper that starts the compiler for the selected target. -/
def wrapper : compiler.wrapper.System where
  args_os := ["optic-rustc", "rustc", "--crate-name", "fixture", "lib.rs",
    .utf8 (compiler.selected_target_marker token)]
  var_os name := List.lookup name
    [(compiler.SELECTED_TARGET_MARKER_ENV, .utf8 (compiler.selected_target_marker token)), (compiler.MODE_ENV, "collect"),
      (compiler.RUSTC_ENV, "rustc"), (compiler.SOURCE_ENV, "/workspace/src/lib.rs"), (compiler.CRATE_NAME_ENV, "fixture")]
  current_exe := .ok "optic-rustc"
  canonicalize _ := .ok "/workspace/src/lib.rs"
  write _ := .Completed
  exec _ := none

/-- Cargo, where it fails unless it is asked for one mode with the marker of the token. -/
def answers (asked : String) (invocation : Invocation compiler.fixture.schema) (mode marker : String) :
    Invocation compiler.fixture.schema :=
  if mode = asked ∧ marker = compiler.selected_target_marker token then invocation
  else { process := .error (compiler.invalid_environment "could not compile"), selection := .Unreached, files := library_attempt.start }

def built : Invocation compiler.fixture.schema where
  process := .ok (process false)
  selection := .Invoked wrapper true
  files := library_attempt.start

def found : Invocation compiler.fixture.schema where
  process := .ok (process true)
  selection := .Fresh
  files := library_attempt.start

/-- A call that compiles and captures. -/
def capturing : Call compiler.fixture.schema where
  policy := .Fresh
  prepared := .ok prepared
  cargo := answers "collect" built
  gather _ _ _ := .ok evidence
  token := token
  capture_id := empty_manifest.capture_id
  completed_at_unix_ms := 0
  artifact_directory := library_attempt.artifact_directory

/-- A call that finds everything as it was. -/
def reusing : Call compiler.fixture.schema :=
  { capturing with policy := .Reuse, cargo := answers "probe" found, token := ⟨_, new_token_canonical⟩ }

def collected : CollectedBuild compiler.fixture.schema where
  build := prepared.build
  compiler := prepared.compiler
  evidence := evidence
  analysis := { request_key := prepared.request_key, token, artifact := artifact_record }

def session : Session Nat compiler.fixture.schema := { tree := library_attempt.start, inputs := 0, compilations := [] }

def captured : Session Nat compiler.fixture.schema where
  tree := (capturing.attempt ⟨[]⟩ collected empty_manifest (capturing.opened ⟨[]⟩ session)).after ⟨[]⟩
  inputs := 0
  compilations := [capturing.compilation 0]

theorem opens : (Store.initialize_store ⟨[]⟩ { tree := session.tree }).1 = .ok () := by
  decide

theorem publishes : (Store.publish ⟨[]⟩ record empty_manifest capturing.artifact_directory
    (capturing.attempt ⟨[]⟩ collected empty_manifest (capturing.opened ⟨[]⟩ session)).world).1 = .ok () := by
  set_option maxRecDepth 100000 in decide

theorem reopens : (Store.initialize_store ⟨[]⟩ { tree := captured.tree }).1 = .ok () := by
  set_option maxRecDepth 100000 in decide

theorem answers_asked (asked : String) (invocation : Invocation compiler.fixture.schema) :
    answers asked invocation asked (compiler.selected_target_marker token) = invocation := by
  rw [answers, if_pos ⟨rfl, rfl⟩]

theorem collects : (PreparedBuild.collect { prepared with } capturing.environment capturing.token).result = .ok collected :=
  PreparedBuild.collect_result ⟨rfl, rfl⟩ (congrArg Invocation.process (answers_asked "collect" built)) process_built rfl

theorem built_compiles : built.selection.compiles = true := by
  decide

theorem captures_record : capturing.capture ⟨[]⟩ session = (.ok (.Captured record), captured) := by
  have hprepared : Program.lift (capturing.prepared.mapError .Compiler) session = (.ok prepared, session) := rfl
  have hopened : Program.operate capturing.initializing (Store.initialize_store ⟨[]⟩) session =
      (.ok (), { session with tree := capturing.opened ⟨[]⟩ session }) := Program.operate_of_ok opens
  have hpolicy : ¬ capturing.policy = .Reuse := by decide
  have hcompiles : (capturing.cargo "collect" (compiler.selected_target_marker capturing.token)).selection.compiles = true := by
    have hasked := congrArg Invocation.selection (answers_asked "collect" built)
    exact (congrArg Selection.compiles hasked).trans built_compiles
  have hmanifest : collected.evidence.into_manifest capturing.capture_id = .ok empty_manifest := rfl
  rw [Call.capture, Program.bind_of_ok hprepared, Program.bind_of_ok hopened, if_neg hpolicy, Program.bind_of_ok (p := pure none) rfl]
  refine (Call.collect_and_publish_eq collects hcompiles hmanifest _).trans ?_
  exact Prod.ext (congrArg (fun result => (result.mapError Error.Store).map fun _ => CaptureOutcome.Captured record) publishes) rfl

theorem answers_follow {call : Call compiler.fixture.schema} {session : Session Nat compiler.fixture.schema} (asked : String)
    (invocation : Invocation compiler.fixture.schema) (hprepared : call.prepared = .ok prepared)
    (hcargo : call.cargo = answers asked invocation)
    (h : invocation.Follows prepared asked (compiler.selected_target_marker token)
      (session.UpToDate (compiler.selected_target_marker token))) : call.Follows session := by
  intro prepared' hprepared' mode marker
  obtain rfl := Except.ok.inj (hprepared.symm.trans hprepared')
  rw [hcargo, answers]
  split
  · next hasked =>
    obtain ⟨rfl, rfl⟩ := hasked
    exact h
  · constructor
    · intro process artifact hprocess
      cases hprocess
    · intro process artifact hprocess
      cases hprocess
    · intro system succeeds hselection
      cases hselection

theorem capturing_follows : capturing.Follows session := by
  refine answers_follow "collect" built rfl rfl ⟨?_, fun _ _ _ _ _ => built_compiles, ?_⟩
  · intro process artifact hprocess hreported hfresh
    cases hprocess
    rw [process_selected, List.mem_singleton] at hreported
    subst hreported
    cases hfresh
  · intro system succeeds hselection
    cases hselection
    decide

theorem reusing_follows : reusing.Follows captured := by
  refine answers_follow "probe" found rfl rfl ⟨?_, ?_, ?_⟩
  · intro process artifact hprocess hreported hfresh
    exact ⟨_, List.mem_singleton_self _, rfl, rfl⟩
  · intro process artifact hprocess hreported hbuilt
    cases hprocess
    rw [process_selected, List.mem_singleton] at hreported
    subst hreported
    cases hbuilt
  · intro system succeeds hselection
    cases hselection

theorem finds : ∃ same, (PreparedBuild.probe { prepared with } reusing.environment record.analysis).result = .ok (.Fresh, same) := by
  have hprocess : reusing.environment.cargo "probe" (compiler.selected_target_marker record.analysis.token) = .ok (process true) :=
    congrArg Invocation.process (answers_asked "probe" found)
  have hresult : (PreparedBuild.probe { prepared with } reusing.environment record.analysis).result.map Prod.fst = _ :=
    PreparedBuild.probe_result record.analysis ⟨rfl, rfl⟩ hprocess
  have hverdict := compiler.verdict_fresh_iff.mpr ⟨⟨rfl, rfl⟩, process_found⟩
  rw [compiler.verdict, ← hresult] at hverdict
  cases hprobe : (PreparedBuild.probe { prepared with } reusing.environment record.analysis).result with
  | error error =>
    rw [hprobe] at hverdict
    cases hverdict
  | ok answer =>
    obtain ⟨freshness, same⟩ := answer
    rw [hprobe] at hverdict
    cases hverdict
    exact ⟨same, rfl⟩

theorem unopened : Store.Unopened ⟨[]⟩ session.tree := by
  refine ⟨.inl (by decide), fun path hpath => if_neg ?_⟩
  rintro (rfl | rfl) <;> simp [Store.root, Store.optic_directory, Path.join] at hpath

theorem journeyed : Journey ⟨[]⟩ [⟨capturing, session⟩] captured := by
  have hcalled := Journey.called (.start (0 : Nat) unopened) capturing capturing_follows (List.forall_mem_nil _)
  change Journey ⟨[]⟩ _ (capturing.capture ⟨[]⟩ session).2 at hcalled
  rwa [captures_record] at hcalled

theorem reused_current_fixture : ∃ turn manifest,
    Current ⟨[]⟩ [⟨capturing, session⟩] captured (reusing.capture ⟨[]⟩ captured).2 record turn manifest := by
  obtain ⟨same, hfresh⟩ := finds
  have hreused := captured_reusable (.start (0 : Nat) unopened) capturing_follows captures_record rfl rfl rfl reopens rfl hfresh
  exact reused_current journeyed reusing_follows (Prod.ext hreused rfl)

theorem reused_latest_fixture : ∃ prepared earlier, ∃ turn : Turn Nat compiler.fixture.schema, ∃ later,
    reusing.prepared = .ok prepared ∧ record.analysis.request_key = prepared.request_key ∧
    [⟨capturing, session⟩] = earlier ++ turn :: later ∧ turn.captured ⟨[]⟩ = some record ∧
    ∀ other ∈ later, ∀ newer ∈ other.captured ⟨[]⟩, newer.analysis.request_key ≠ prepared.request_key := by
  obtain ⟨same, hfresh⟩ := finds
  have hreused := captured_reusable (.start (0 : Nat) unopened) capturing_follows captures_record rfl rfl rfl reopens rfl hfresh
  exact reused_latest journeyed reusing_follows (Prod.ext hreused rfl)

theorem captured_turn : Turn.captured ⟨[]⟩ ⟨capturing, session⟩ = some record := by
  rw [Turn.captured, captures_record]

theorem enumerates :
    Enumerates captured.tree (Store.root ⟨[]⟩ |>.join "captures") [(record.id.value : OsString)] := by
  obtain ⟨attempts, hhistory, hpublishes⟩ := journeyed.accounted.published
  have hrecords := published_records hpublishes
  rw [List.filterMap_cons_some captured_turn, List.filterMap_nil] at hrecords
  refine ⟨List.nodup_singleton _, fun name => ?_⟩
  rw [List.mem_singleton, hhistory.invariant.entry_iff]
  constructor
  · rintro rfl
    obtain ⟨attempt, hattempt, hcapture⟩ := List.mem_map.mp (hrecords ▸ List.mem_singleton_self record)
    obtain ⟨hmem, hcompleted⟩ := List.mem_filter.mp hattempt
    exact ⟨attempt, hmem, hcompleted, hcapture ▸ rfl⟩
  · rintro ⟨attempt, hattempt, hcompleted, rfl⟩
    have hmem := List.mem_map_of_mem (f := Attempt.capture) (List.mem_filter.mpr ⟨hattempt, hcompleted⟩)
    rw [hrecords, List.mem_singleton] at hmem
    rw [hmem]

theorem listed_captures_fixture : ∃ manifest, Kept ⟨[]⟩ captured.tree ⟨capturing, session⟩ record manifest :=
  (listed_captures journeyed enumerates).2 _ (List.mem_singleton_self _) record captured_turn

end fixture

end optic.captures
