import Optic.Capture.Session
import Optic.Compiler.RelaySpec
import Optic.Compiler.WrapperSpec
import Optic.Store.CertainReads

open rust file_system optic.records optic.relay

namespace optic.store

theorem Store.beside_beside (self : Store) (tree files files' : Tree) :
    self.beside (self.beside tree files) files' = self.beside tree files' := by
  funext path
  rw [beside, beside, beside]
  split <;> rfl

end optic.store

namespace optic.captures

open optic.store

variable {I : Type} {M : CargoSchema}

/-- What captures rely on Cargo for in one invocation: it reports the selected artifact as fresh only where it is up to
date, and as built only where a compilation completed; and it starts the wrapper for the selected target with the marker
among its arguments. -/
structure Invocation.Follows (invocation : Invocation M) (prepared : Prepared M) (mode marker : String) (up_to_date : Prop) :
    Prop where
  fresh : ∀ process artifact, invocation.process = .ok process →
    artifact ∈ process.messages.filterMap (compiler.selected_of prepared.package prepared.target) →
      artifact.fresh = true → up_to_date
  built : ∀ process artifact, invocation.process = .ok process →
    artifact ∈ process.messages.filterMap (compiler.selected_of prepared.package prepared.target) →
      artifact.fresh = false → invocation.selection.compiles = true
  marked : ∀ system succeeds, invocation.selection = .Invoked system succeeds →
    OsString.utf8 marker ∈ system.args_os.drop 1 ∧
      system.var_os compiler.SELECTED_TARGET_MARKER_ENV = some (.utf8 marker) ∧
        system.var_os compiler.MODE_ENV = some (.utf8 mode)

/-- A compilation with a marker completed, and the inputs are the same. -/
def Session.UpToDate (self : Session I M) (marker : String) : Prop :=
  ∃ compilation ∈ self.compilations, compilation.marker = marker ∧ compilation.inputs = self.inputs

/-- Cargo, in one call. -/
def Call.Follows (self : Call M) (session : Session I M) : Prop :=
  ∀ prepared, self.prepared = .ok prepared → ∀ mode marker,
    (self.cargo mode marker).Follows prepared mode marker (session.UpToDate marker)

/-- A probe completes no compilation. -/
theorem Invocation.Follows.probe {invocation : Invocation M} {prepared : Prepared M} {marker : String} {up_to_date : Prop}
    (h : invocation.Follows prepared "probe" marker up_to_date) : invocation.selection.compiles = false := by
  cases hselection : invocation.selection with
  | Unreached => rfl
  | Fresh => rfl
  | Invoked system succeeds =>
    obtain ⟨hmarked, hmarker, hmode⟩ := h.marked system succeeds hselection
    rw [Selection.compiles, compiler.wrapper.run_probe_started hmarked hmarker hmode]
    rfl

/-- The compilation that a call completes when it collects. -/
def Call.compilation (self : Call M) (inputs : I) : Compilation I M where
  marker := compiler.selected_target_marker self.token
  inputs := inputs
  call := self

/-- The files after a call's collection. -/
def Call.files (self : Call M) : Tree := (self.cargo "collect" (compiler.selected_target_marker self.token)).files

/-- The record and the manifest that a call makes of its own collection. -/
def Call.Produces (self : Call M) (record : CaptureRecord (CargoArtifactRecord M)) (manifest : InstanceManifest) : Prop :=
  ∃ (prepared : PreparedBuild M) (collected : CollectedBuild M), self.prepared = .ok prepared.toPrepared ∧
    (prepared.collect self.environment self.token).result = .ok collected ∧
    collected.evidence.into_manifest self.capture_id = .ok manifest ∧
    record = CaptureRecord.new self.capture_id self.completed_at_unix_ms collected.build collected.compiler collected.analysis

namespace Program

variable {α β : Type} {session session' : Session I M}

theorem bind_of_ok {p : Program I M α} {a : α} (h : p session = (.ok a, session')) (f : α → Program I M β) :
    (p >>= f) session = f a session' := by
  rw [bind_apply, h]

theorem bind_of_error {p : Program I M α} {e : Error} (h : p session = (.error e, session')) (f : α → Program I M β) :
    (p >>= f) session = (.error e, session') := by
  rw [bind_apply, h]

theorem bind_result (p : Program I M α) (f : α → Program I M β) (session : Session I M) :
    ((p >>= f) session).1 = (p session).1 >>= fun a => (f a (p session).2).1 := by
  rw [bind_apply]
  rcases p session with ⟨e | a, session⟩ <;> rfl

theorem lift_bind_result (result : Except Error α) (f : α → Program I M β) (session : Session I M) :
    ((lift result >>= f) session).1 = result >>= fun a => (f a session).1 := bind_result (lift result) f session

theorem lift_ok_bind (a : α) (f : α → Program I M β) : lift (.ok a) >>= f = f a := rfl

theorem operate_of_ok {schedule : List (Option Failure)} {p : Action optic.store.Error α} {a : α}
    (h : (p { tree := session.tree, schedule }).1 = .ok a) :
    operate schedule p session = (.ok a, { session with tree := (p { tree := session.tree, schedule }).2.tree }) := by
  rw [operate, h]
  rfl

theorem operate_of_error {schedule : List (Option Failure)} {p : Action optic.store.Error α} {e : optic.store.Error}
    (h : (p { tree := session.tree, schedule }).1 = .error e) :
    operate schedule p session = (.error (.Store e), { session with tree := (p { tree := session.tree, schedule }).2.tree }) := by
  rw [operate, h]
  rfl

end Program

theorem warned_result (manifest : InstanceManifest) (outcome : CaptureOutcome M) :
    (warn_unavailable_llvm manifest >>= fun _ => pure outcome : Traced (Event M) Error (CaptureOutcome M)).result = .ok outcome := by
  rw [warn_unavailable_llvm]
  cases manifest.llvm <;> rfl

/-- A candidate that Cargo reports as fresh is reused. -/
theorem reused_result {surroundings : Surroundings M} {prepared : Prepared M} (hprepared : surroundings.prepared = .ok prepared)
    (hinitialized : surroundings.initialized = .ok ()) {candidate : CaptureRecord (CargoArtifactRecord M)}
    {manifest : InstanceManifest} (hcandidate : surroundings.read_candidate prepared.request_key = .ok (some (candidate, manifest)))
    {same : PreparedBuild M}
    (hfresh : (PreparedBuild.probe { prepared with } surroundings.environment candidate.analysis).result = .ok (.Fresh, same)) :
    (capture surroundings .Reuse).result = .ok (.Reused candidate) := by
  have hread : surroundings.candidate .Reuse prepared.request_key = .ok (some (candidate, manifest)) := by
    rw [Surroundings.candidate, if_pos rfl, hcandidate]
    rfl
  rw [capture, Traced.bind_of_ok (congrArg (Except.mapError _) hprepared)]
  change (_ >>= _ : Traced (Event M) Error (CaptureOutcome M)).result = _
  rw [Traced.bind_of_ok (congrArg (Except.mapError _) hinitialized), Traced.bind_of_ok hread]
  change (_ >>= _ : Traced (Event M) Error (CaptureOutcome M)).result = _
  rw [Traced.bind_of_ok (congrArg (Except.mapError _) hfresh)]
  exact warned_result manifest _

variable [Serde (CaptureRecord (CargoArtifactRecord M))] [Serde InstanceManifest] [Serde CandidatePointer]

variable (M) in
/-- Nothing happens to a store but what happens between publications. -/
def Keeps (store : Store) (tree tree' : Tree) : Prop :=
  ∀ attempts : List (Attempt (CargoArtifactRecord M)), History store attempts tree → History store attempts tree'

variable {store : Store}

theorem Keeps.trans {tree tree' tree'' : Tree} (h : Keeps M store tree tree') (h' : Keeps M store tree' tree'') :
    Keeps M store tree tree'' := fun attempts hattempts => h' attempts (h attempts hattempts)

theorem keeps_beside (tree files : Tree) : Keeps M store tree (store.beside tree files) :=
  fun _ hattempts => .elsewhere hattempts fun _ hpath => if_pos hpath

theorem keeps_initialize (tree : Tree) (schedule : List (Option Failure)) :
    Keeps M store tree (store.initialize_store { tree, schedule }).2.tree := fun _ hattempts => .initialized hattempts schedule

/-- What a call comes to. It fails, with or without a completed compilation; or it reuses a candidate that is up to date;
or it completes a compilation and tries to publish what that produced. -/
inductive Effect (store : Store) (call : Call M) (session : Session I M) :
    Except Error (CaptureOutcome M) → Session I M → Prop
  | failed {error : Error} {tree : Tree} {compilations : List (Compilation I M)} (htree : Keeps M store session.tree tree)
      (hcompilations : compilations = session.compilations ∨
        compilations = session.compilations ++ [call.compilation session.inputs]) :
      Effect store call session (.error error) { session with tree, compilations }
  | reused {prepared : Prepared M} {record : CaptureRecord (CargoArtifactRecord M)} {manifest : InstanceManifest}
      {before tree : Tree} (hprepared : call.prepared = .ok prepared) (hbefore : Keeps M store session.tree before)
      (htree : Keeps M store session.tree tree)
      (hcandidate : Answers (store.read_candidate (CargoArtifactRecord M) prepared.request_key) before
        (.ok (some (record, manifest))))
      (hfresh : session.UpToDate (compiler.selected_target_marker record.analysis.token)) :
      Effect store call session (.ok (.Reused record)) { session with tree }
  | published {outcome : Except Error (CaptureOutcome M)} (attempt : Attempt (CargoArtifactRecord M))
      (htree : Keeps M store session.tree attempt.start) (hproduces : call.Produces attempt.capture attempt.instances)
      (hdirectory : attempt.artifact_directory = call.artifact_directory)
      (hfiles : ∀ path, ¬ store.optic_directory <+: path → attempt.start path = call.files path)
      (houtcome : attempt.completed store = true ∧ outcome = .ok (.Captured attempt.capture) ∨
        attempt.completed store = false ∧ ∃ error, outcome = .error error) :
      Effect store call session outcome { session with
        tree := attempt.after store
        compilations := session.compilations ++ [call.compilation session.inputs] }

namespace Call

variable {call : Call M} {session : Session I M} {tree : Tree}

omit [Serde (CaptureRecord (CargoArtifactRecord M))] [Serde InstanceManifest] [Serde CandidatePointer] in
theorem invoke_eq (call : Call M) (store : Store) (mode marker : String) (session : Session I M) :
    call.invoke store mode marker session = (.ok (), { session with
      tree := store.beside session.tree (call.cargo mode marker).files
      compilations := session.compilations ++
        if (call.cargo mode marker).selection.compiles then [{ marker, inputs := session.inputs, call }] else [] }) := rfl

/-- The publication that a collection leads to. -/
def attempt (call : Call M) (store : Store) (collected : CollectedBuild M) (manifest : InstanceManifest) (tree : Tree) :
    Attempt (CargoArtifactRecord M) where
  capture := CaptureRecord.new call.capture_id call.completed_at_unix_ms collected.build collected.compiler collected.analysis
  instances := manifest
  artifact_directory := call.artifact_directory
  start := store.beside tree call.files
  schedule := call.publishing

/-- A collection with a manifest ends as its publication does. -/
theorem collect_and_publish_eq {prepared : PreparedBuild M} {collected : CollectedBuild M} {manifest : InstanceManifest}
    (hcollect : (prepared.collect call.environment call.token).result = .ok collected)
    (hcompiles : (call.cargo "collect" (compiler.selected_target_marker call.token)).selection.compiles = true)
    (hmanifest : collected.evidence.into_manifest call.capture_id = .ok manifest) (session : Session I M) :
    let attempt := call.attempt store collected manifest session.tree
    call.collect_and_publish store prepared session =
      (((store.publish attempt.capture manifest call.artifact_directory attempt.world).1.mapError .Store).map
        fun _ => .Captured attempt.capture,
      { session with
        tree := attempt.after store, compilations := session.compilations ++ [call.compilation session.inputs] }) := by
  intro attempt
  rw [collect_and_publish, Program.bind_of_ok (call.invoke_eq store "collect" _ _), if_pos hcompiles, hcollect,
    Except.mapError, Program.lift_ok_bind, hmanifest, Except.mapError, Program.lift_ok_bind]
  cases hresult : (store.publish attempt.capture manifest call.artifact_directory attempt.world).1 with
  | error error =>
    rw [Program.bind_of_error (Program.operate_of_error hresult)]
    rfl
  | ok _ =>
    rw [Program.bind_of_ok (Program.operate_of_ok hresult)]
    rfl

theorem collect_and_publish_effect (prepared : PreparedBuild M) (hcargo : call.Follows session)
    (hprepared : call.prepared = .ok prepared.toPrepared) (htree : Keeps M store session.tree tree) :
    Effect store call session (call.collect_and_publish store prepared { session with tree }).1
      (call.collect_and_publish store prepared { session with tree }).2 := by
  have hfollows := hcargo _ hprepared "collect" (compiler.selected_target_marker call.token)
  have hkept : Keeps M store session.tree (store.beside tree call.files) := htree.trans (keeps_beside tree call.files)
  cases hcollect : (prepared.collect call.environment call.token).result with
  | error error =>
    rw [collect_and_publish, Program.bind_of_ok (call.invoke_eq store "collect" _ _), hcollect]
    refine .failed hkept ?_
    cases (call.cargo "collect" (compiler.selected_target_marker call.token)).selection.compiles with
    | true => exact .inr rfl
    | false => exact .inl (List.append_nil _)
  | ok collected =>
    -- What is collected was reported as built.
    obtain ⟨-, process, artifact, hprocess, hreported, hbuilt, -⟩ := PreparedBuild.collect_eq_ok hcollect
    have hcompiles := hfollows.built process artifact hprocess hreported hbuilt
    cases hmanifest : collected.evidence.into_manifest call.capture_id with
    | error error =>
      rw [collect_and_publish, Program.bind_of_ok (call.invoke_eq store "collect" _ _), if_pos hcompiles, hcollect,
        Except.mapError, Program.lift_ok_bind, hmanifest]
      exact .failed hkept (.inr rfl)
    | ok manifest =>
      have hproduces : call.Produces (call.attempt store collected manifest tree).capture manifest :=
        ⟨prepared, collected, hprepared, hcollect, hmanifest, rfl⟩
      have hfiles (path : Path) (hpath : ¬ store.optic_directory <+: path) :
          (call.attempt store collected manifest tree).start path = call.files path := if_neg hpath
      rw [collect_and_publish_eq hcollect hcompiles hmanifest]
      refine .published (call.attempt store collected manifest tree) hkept hproduces rfl hfiles ?_
      cases hresult : (store.publish (call.attempt store collected manifest tree).capture manifest call.artifact_directory
        (call.attempt store collected manifest tree).world).1 with
      | error error => exact .inr ⟨congrArg Except.isOk hresult, _, rfl⟩
      | ok _ => exact .inl ⟨congrArg Except.isOk hresult, rfl⟩

omit [Serde (CaptureRecord (CargoArtifactRecord M))] [Serde InstanceManifest] [Serde CandidatePointer] in
/-- A probe goes on with the same request. -/
theorem probe_next {prepared next : PreparedBuild M} {candidate : CaptureAnalysis (CargoArtifactRecord M)}
    {freshness : compiler.Freshness} (h : (prepared.probe call.environment candidate).result = .ok (freshness, next)) :
    next.toPrepared = prepared.toPrepared := by
  have hprobes := PreparedBuild.probe_spec prepared call.environment candidate
  rw [h] at hprobes
  generalize (prepared.probe call.environment candidate).trace = trace at hprobes
  cases hprobes with
  | fresh process => rfl
  | stopped hretains => rfl

/-- A probe touches no store, and completes no compilation. -/
theorem probe_keeps (store : Store) (tree : Tree) (prepared : PreparedBuild M) (hcargo : call.Follows session)
    (hprepared : call.prepared = .ok prepared.toPrepared) (candidate : CaptureAnalysis (CargoArtifactRecord M)) :
    ∃ tree', Keeps M store tree tree' ∧ call.probe store prepared candidate { session with tree } =
      ((prepared.probe call.environment candidate).result.mapError .Compiler, { session with tree := tree' }) := by
  have hfollows := hcargo _ hprepared "probe" (compiler.selected_target_marker candidate.token)
  rw [probe]
  by_cases hkey : candidate.request_key = prepared.request_key ∧ prepared.stopped_probe.isNone
  · refine ⟨_, keeps_beside _ (call.cargo "probe" (compiler.selected_target_marker candidate.token)).files, ?_⟩
    rw [if_pos hkey, Program.bind_of_ok (call.invoke_eq store "probe" _ _), hfollows.probe, if_neg Bool.false_ne_true,
      List.append_nil]
    rfl
  · refine ⟨tree, fun _ hattempts => hattempts, ?_⟩
    rw [if_neg hkey]
    rfl

/-- A candidate that the store holds is reused if it is up to date. -/
theorem reuse_effect (prepared : PreparedBuild M) (hcargo : call.Follows session)
    (hprepared : call.prepared = .ok prepared.toPrepared) (htree : Keeps M store session.tree tree)
    {candidate : CaptureRecord (CargoArtifactRecord M)} {manifest : InstanceManifest}
    (hcandidate : Answers (store.read_candidate (CargoArtifactRecord M) prepared.request_key) tree
      (.ok (some (candidate, manifest)))) :
    Effect store call session (call.reuse store prepared candidate { session with tree }).1
      (call.reuse store prepared candidate { session with tree }).2 := by
  obtain ⟨tree', htree', hprobe⟩ := probe_keeps store tree prepared hcargo hprepared candidate.analysis
  rw [reuse]
  cases hresult : (prepared.probe call.environment candidate.analysis).result with
  | error error =>
    rw [hresult] at hprobe
    rw [Program.bind_of_error hprobe]
    exact .failed (htree.trans htree') (.inl rfl)
  | ok answer =>
    obtain ⟨freshness, next⟩ := answer
    rw [hresult] at hprobe
    rw [Program.bind_of_ok hprobe]
    cases freshness with
    | Fresh =>
      obtain ⟨-, process, artifact, hprocess, hreported, hfresh⟩ := PreparedBuild.probe_fresh hresult
      have hcurrent := (hcargo _ hprepared "probe" _).fresh process artifact hprocess hreported hfresh
      exact .reused hprepared htree (htree.trans htree') hcandidate hcurrent
    | Stale => exact collect_and_publish_effect next hcargo (probe_next hresult ▸ hprepared) (htree.trans htree')

/-- The tree that a call reads its candidate from. -/
def opened (call : Call M) (store : Store) (session : Session I M) : Tree :=
  (store.initialize_store { tree := session.tree, schedule := call.initializing }).2.tree

/-- What the store and Cargo answer a call. -/
def surroundings (call : Call M) (store : Store) (session : Session I M) : Surroundings M where
  prepared := call.prepared
  environment := call.environment
  initialized := (store.initialize_store { tree := session.tree, schedule := call.initializing }).1
  read_candidate key :=
    (store.read_candidate (CargoArtifactRecord M) key { tree := call.opened store session, schedule := call.reading }).1
  publish capture manifest := (store.publish capture manifest call.artifact_directory
    { tree := store.beside (call.opened store session) call.files, schedule := call.publishing }).1
  token := call.token
  capture_id := call.capture_id
  completed_at_unix_ms := call.completed_at_unix_ms

theorem collect_and_publish_result (prepared : PreparedBuild M) {start : Session I M}
    (htree : store.beside session.tree call.files = store.beside (call.opened store start) call.files) :
    (call.collect_and_publish store prepared session).1 =
      (captures.collect_and_publish (call.surroundings store start) prepared).result := by
  rw [collect_and_publish, captures.collect_and_publish, Program.bind_of_ok (call.invoke_eq store "collect" _ _)]
  change store.beside session.tree (call.cargo "collect" (compiler.selected_target_marker call.token)).files = _ at htree
  rw [Program.lift_bind_result, Traced.bind_result]
  refine bind_congr fun collected => ?_
  rw [Program.lift_bind_result, Traced.bind_result]
  refine bind_congr fun manifest => ?_
  rw [Program.bind_result, Traced.bind_result, Program.operate, htree]
  exact bind_congr fun _ => (warned_result manifest _).symm

omit [Serde (CaptureRecord (CargoArtifactRecord M))] [Serde InstanceManifest] [Serde CandidatePointer] in
theorem probe_result (call : Call M) (store : Store) (prepared : PreparedBuild M) (candidate : CaptureAnalysis (CargoArtifactRecord M))
    (session : Session I M) : (call.probe store prepared candidate session).1 =
      ((prepared.probe call.environment candidate).map_err .Compiler).result ∧
      ∀ files, store.beside (call.probe store prepared candidate session).2.tree files = store.beside session.tree files := by
  rw [probe]
  split
  · rw [Program.bind_of_ok (call.invoke_eq store "probe" _ _)]
    exact ⟨rfl, fun files => store.beside_beside session.tree _ files⟩
  · exact ⟨rfl, fun _ => rfl⟩

theorem reuse_result (prepared : PreparedBuild M) (candidate : CaptureRecord (CargoArtifactRecord M))
    (manifest : InstanceManifest) {start : Session I M}
    (htree : store.beside session.tree call.files = store.beside (call.opened store start) call.files) :
    (call.reuse store prepared candidate session).1 = (do
      let (freshness, prepared) ← (prepared.probe call.environment candidate.analysis).map_err .Compiler
      if freshness = .Fresh then do
        warn_unavailable_llvm manifest
        return .Reused candidate
      else captures.collect_and_publish (call.surroundings store start) prepared : Traced (Event M) Error (CaptureOutcome M)).result := by
  obtain ⟨hprobe, hbeside⟩ := probe_result call store prepared candidate.analysis session
  rw [reuse, Program.bind_result, hprobe, Traced.bind_result]
  refine bind_congr fun (freshness, next) => ?_
  cases freshness with
  | Fresh => exact (warned_result manifest _).symm
  | Stale => exact collect_and_publish_result next ((hbeside call.files).trans htree)

/-- A call returns what the capture returns that runs on its answers. -/
theorem capture_result (call : Call M) (store : Store) (session : Session I M) :
    (call.capture store session).1 = (captures.capture (call.surroundings store session) call.policy).result := by
  rw [capture, captures.capture, Program.lift_bind_result, Traced.bind_result]
  refine bind_congr fun prepared => ?_
  rw [Program.bind_result, Traced.bind_result]
  refine bind_congr fun _ => ?_
  rw [Traced.bind_result]
  change ((ite _ _ _ : Program I M (CaptureOutcome M)) { session with tree := call.opened store session }).1 = _
  by_cases hpolicy : call.policy = .Reuse
  · have hsame := (store.read_candidate_read_only (CargoArtifactRecord M) prepared.request_key).tree
      { tree := call.opened store session, schedule := call.reading }
    rw [if_pos hpolicy, Program.bind_result, Surroundings.candidate, if_pos hpolicy]
    refine bind_congr fun candidate => ?_
    rw [Program.operate, hsame]
    cases candidate with
    | none => exact collect_and_publish_result _ rfl
    | some candidate => exact reuse_result _ candidate.1 candidate.2 rfl
  · rw [if_neg hpolicy, Program.bind_of_ok (p := pure none) rfl, Surroundings.candidate, if_neg hpolicy]
    exact collect_and_publish_result _ rfl

/-- Every call has one of the effects. -/
theorem capture_effect (call : Call M) (store : Store) (hcargo : call.Follows session) :
    Effect store call session (call.capture store session).1 (call.capture store session).2 := by
  rw [capture]
  cases hprepared : call.prepared with
  | error error => exact .failed (fun _ hattempts => hattempts) (.inl rfl)
  | ok prepared =>
    rw [Except.mapError, Program.lift_ok_bind]
    have htree : Keeps M store session.tree _ := keeps_initialize session.tree call.initializing
    cases hinitialize : (store.initialize_store { tree := session.tree, schedule := call.initializing }).1 with
    | error error =>
      rw [Program.bind_of_error (Program.operate_of_error hinitialize)]
      exact .failed htree (.inl rfl)
    | ok _ =>
      rw [Program.bind_of_ok (Program.operate_of_ok hinitialize)]
      generalize (store.initialize_store { tree := session.tree, schedule := call.initializing }).2.tree = tree at htree
      by_cases hpolicy : call.policy = .Reuse
      · have hsame := (store.read_candidate_read_only (CargoArtifactRecord M) prepared.request_key).tree
          { tree, schedule := call.reading }
        rw [if_pos hpolicy]
        cases hread : (store.read_candidate (CargoArtifactRecord M) prepared.request_key { tree, schedule := call.reading }).1 with
        | error error =>
          rw [Program.bind_of_error (Program.operate_of_error hread), hsame]
          exact .failed htree (.inl rfl)
        | ok candidate =>
          rw [Program.bind_of_ok (Program.operate_of_ok hread), hsame]
          cases candidate with
          | none => exact collect_and_publish_effect { prepared with } hcargo hprepared htree
          | some candidate =>
            exact reuse_effect { prepared with } hcargo hprepared htree (Store.read_candidate_found (Prod.ext hread rfl))
      · rw [if_neg hpolicy, Program.bind_of_ok (p := pure none) rfl]
        exact collect_and_publish_effect { prepared with } hcargo hprepared htree

end Call

end optic.captures
