import Optic.Compiler.ProbeSpec
import Optic.Compiler.Relay

open rust optic.records optic.compiler optic.compiler.protocol

namespace optic.relay

variable {M : CargoSchema}

/-- The text of a message that is a warning. -/
def warning_of : Except IoError (CargoMessage M) → Option String
  | .ok (.CompilerMessage diagnostic) =>
    if diagnostic.level = .Warning then some (diagnostic.rendered.getD (diagnostic.message ++ "\n")) else none
  | _ => none

/-- The text of a message that is another diagnostic, or a line that is not empty. -/
def diagnostic_of : Except IoError (CargoMessage M) → Option String
  | .ok (.CompilerMessage diagnostic) =>
    if diagnostic.level = .Warning then none else some (diagnostic.rendered.getD (diagnostic.message ++ "\n"))
  | .ok (.TextLine line) => if line = "" then none else some (line ++ "\n")
  | _ => none

/-- Texts that are written one by one. -/
def written (texts : List String) : List (Event M) := texts.map fun line => .Written (text line)

/-- What is written of a stderr file: nothing if it does not open. -/
def DiagnosticFile.shown (self : DiagnosticFile) : List (Event M) :=
  match self.unopened with
  | some _ => []
  | none => [.Written self.copied]

theorem DiagnosticFile.replay_trace (self : DiagnosticFile) (path : PathBuf) :
    (self.replay path : Relay M Unit).trace = self.shown := by
  rw [replay, shown]
  cases self.unopened with
  | some source => rfl
  | none => cases self.unread <;> rfl

/-- Texts are written in their order. -/
theorem forM_write_diagnostic (texts : List String) :
    (texts.forM fun line => (write_diagnostic (text line) : Relay M Unit)) = { result := .ok (), trace := written texts } :=
  Traced.forM_emit texts fun line => (Event.Written (text line) : Event M)

/-- A file that opens and is read to its end. -/
structure DiagnosticFile.Readable (file : DiagnosticFile) : Prop where
  opens : file.unopened = none
  read : file.unread = none

theorem DiagnosticFile.Readable.replay_result {file : DiagnosticFile} (h : file.Readable) (path : PathBuf) :
    (file.replay path : Relay M Unit).result = .ok () := by
  rw [replay, h.opens, h.read]
  rfl

theorem DiagnosticFile.Readable.shown_eq {file : DiagnosticFile} (h : file.Readable) :
    file.shown = [(.Written file.bytes : Event M)] := by
  rw [DiagnosticFile.shown, h.opens, DiagnosticFile.copied, h.read]

namespace CargoProcess

/-- The warnings of a run, in their order. -/
def warnings (self : CargoProcess M) : List (Event M) := written (self.messages.filterMap warning_of)

/-- The other diagnostics of a run, in their order, and its stderr text. -/
def others (self : CargoProcess M) : List (Event M) :=
  written (self.messages.filterMap diagnostic_of) ++ self.stderr.shown

def shown (self : CargoProcess M) : List (Event M) := self.warnings ++ self.others

end CargoProcess

/-- An attempt that still holds some of the warnings of its run, and all of its other diagnostics. -/
structure Retains (process : CargoProcess M) (warnings : List String) (attempt : CargoAttempt M) : Prop where
  run : attempt.run = process.toCargoRun
  warnings : attempt.warnings = warnings
  diagnostics : attempt.diagnostics = process.messages.filterMap diagnostic_of
  stderr : attempt.stderr = process.stderr

namespace CargoAttempt

theorem record_message_keeps (package : String) (target : Target M) (self : compiler.CargoAttempt M) (message : Except IoError (CargoMessage M)) :
    (compiler.CargoAttempt.record_message package target self message).warnings = self.warnings ++ (warning_of message).toList ∧
    (compiler.CargoAttempt.record_message package target self message).diagnostics =
      self.diagnostics ++ (diagnostic_of message).toList := by
  cases message with
  | error error => simp [compiler.CargoAttempt.record_message, warning_of, diagnostic_of]
  | ok message =>
    cases message with
    | CompilerArtifact artifact => simp [compiler.CargoAttempt.record_message, warning_of, diagnostic_of]
    | BuildFinished success => simp [compiler.CargoAttempt.record_message, warning_of, diagnostic_of]
    | CompilerMessage diagnostic =>
      by_cases hwarning : diagnostic.level = .Warning <;>
        simp [compiler.CargoAttempt.record_message, compiler.CargoAttempt.record_diagnostic, hwarning, warning_of, diagnostic_of]
    | TextLine line =>
      by_cases hline : line = "" <;> simp [compiler.CargoAttempt.record_message, hline, warning_of, diagnostic_of]
    | Other => simp [compiler.CargoAttempt.record_message, warning_of, diagnostic_of]

/-- Reading messages keeps their texts in order, warnings and others apart. -/
theorem foldl_keeps (package : String) (target : Target M) (messages : List (Except IoError (CargoMessage M))) : ∀ self : compiler.CargoAttempt M,
    (messages.foldl (compiler.CargoAttempt.record_message package target) self).warnings =
      self.warnings ++ messages.filterMap warning_of ∧
    (messages.foldl (compiler.CargoAttempt.record_message package target) self).diagnostics =
      self.diagnostics ++ messages.filterMap diagnostic_of := by
  induction messages with
  | nil => simp
  | cons message messages ih =>
    intro self
    obtain ⟨hwarnings, hdiagnostics⟩ := ih (compiler.CargoAttempt.record_message package target self message)
    obtain ⟨hwarning, hdiagnostic⟩ := record_message_keeps package target self message
    rw [List.foldl_cons, hwarnings, hdiagnostics, hwarning, hdiagnostic, List.append_assoc, List.append_assoc]
    constructor
    · cases h : warning_of message <;> simp [h]
    · cases h : diagnostic_of message <;> simp [h]

/-- Reading the messages of a process retains all of its texts. -/
theorem foldl_retains (process : CargoProcess M) (package : String) (target : Target M) : Retains process (process.messages.filterMap warning_of)
    { process.messages.foldl (compiler.CargoAttempt.record_message package target) { run := process.toCargoRun } with
      stderr := process.stderr } := by
  obtain ⟨hwarnings, hdiagnostics⟩ := foldl_keeps package target process.messages { run := process.toCargoRun }
  exact ⟨(compiler.CargoAttempt.observes package target process.toCargoRun).same_run, hwarnings, hdiagnostics, rfl⟩

variable {process : CargoProcess M} {warnings : List String} {attempt : CargoAttempt M}

theorem relay_warnings_eq (self : CargoAttempt M) :
    self.relay_warnings = { result := .ok { self with warnings := [] }, trace := written self.warnings } := by
  rw [relay_warnings, forM_write_diagnostic, Traced.bind_of_ok rfl, Traced.pure_trace, List.append_nil]
  rfl

/-- A replay writes the warnings that are left, the other diagnostics and the stderr text, also where it fails. -/
theorem replay_trace (h : Retains process warnings attempt) : attempt.replay.trace = written warnings ++ process.others := by
  rw [replay, relay_warnings_eq, Traced.bind_of_ok rfl, h.warnings]
  dsimp only
  rw [forM_write_diagnostic, Traced.bind_of_ok rfl, DiagnosticFile.replay_trace, h.diagnostics, h.stderr]
  rfl

/-- What follows a replay finds everything shown, unless the stderr file cannot be read. -/
theorem replay_bind_spec {α : Type} {p : Relay M α} {T : Except compiler.Error α → List (Event M) → Prop}
    (h : Retains process warnings attempt) (hp : p.trace = [])
    (herror : ∀ error, T (.error error) (written warnings ++ process.others))
    (hok : T p.result (written warnings ++ process.others)) :
    T (attempt.replay >>= fun _ => p).result (attempt.replay >>= fun _ => p).trace := by
  refine Traced.bind_spec (P := fun _ trace => trace = written warnings ++ process.others) (replay_trace h) ?_ ?_
  · rintro error _ rfl
    exact herror error
  · rintro _ _ rfl
    rwa [hp, List.append_nil]

theorem replay_result (h : attempt.stderr.Readable) : attempt.replay.result = .ok () := by
  rw [replay, relay_warnings_eq, Traced.bind_of_ok rfl]
  dsimp only
  rw [forM_write_diagnostic, Traced.bind_of_ok rfl]
  exact h.replay_result _

/-- Relaying leaves to a process what reading its messages alone makes of it. -/
theorem start_result (h : process.stderr.Readable) (package : String) (target : Target M) :
    (start (.ok process) package target).result = (compiler.CargoAttempt.start process.toCargoRun package target).map
      fun attempt => { attempt with stderr := process.stderr } := by
  simp only [start, compiler.CargoAttempt.start, Traced.bind_result, Traced.lift_result, Traced.emit_result, ok_bind]
  cases (process.messages.foldl (compiler.CargoAttempt.record_message package target) { run := process.toCargoRun }).read_error with
  | some source =>
    dsimp only
    rw [Traced.bind_result, replay_result h]
    rfl
  | none => rfl

/-- What starting a process comes to: no process, one whose messages cannot all be read and that has shown everything, or
one that has shown nothing. -/
inductive Starts : Except compiler.Error (CargoAttempt M) → List (Event M) → Prop
  | unstarted (error : compiler.Error) : Starts (.error error) []
  | unreadable (process : CargoProcess M) (error : compiler.Error) : Starts (.error error) (.Started process :: process.shown)
  | started {process : CargoProcess M} {attempt : CargoAttempt M}
      (h : Retains process (process.messages.filterMap warning_of) attempt) : Starts (.ok attempt) [.Started process]

theorem start_spec (process : Except compiler.Error (CargoProcess M)) (package : String) (target : Target M) :
    Starts (start process package target).result (start process package target).trace := by
  rw [start]
  refine Traced.lift_bind_spec (fun error _ => .unstarted error) fun process _ => ?_
  have hretains := foldl_retains process package target
  rw [Traced.bind_of_ok rfl]
  dsimp only
  split
  · next source hread =>
    refine replay_bind_spec (T := fun result trace => Starts result ([.Started process] ++ trace)) hretains ?_
      (.unreadable process) ?_
    · rfl
    · exact .unreadable process _
  · exact .started hretains

/-- A process that starts has read all of its messages. -/
theorem start_eq_ok {process : Except compiler.Error (CargoProcess M)} {package : String} {target : Target M}
    {attempt : CargoAttempt M} (h : (start process package target).result = .ok attempt) :
    ∃ started, process = .ok started ∧
      compiler.CargoAttempt.start started.toCargoRun package target = .ok attempt.toCargoAttempt := by
  simp only [start, Traced.bind_result, Traced.lift_result, Traced.emit_result, bind_eq_ok_iff] at h
  obtain ⟨started, rfl, _, -, h⟩ := h
  refine ⟨started, rfl, ?_⟩
  split at h
  · simp only [Traced.bind_result, Traced.lift_result, bind_eq_ok_iff] at h
    obtain ⟨_, -, h⟩ := h
    cases h
  · next hread =>
    cases h
    rw [compiler.CargoAttempt.start, hread]

end CargoAttempt

namespace PreparedBuild

variable (self : PreparedBuild M) (environment : Environment M)

/-- What probing comes to: no process, one that has shown everything, or a stopped one that has shown its warnings. -/
inductive Probes (self : PreparedBuild M) : Except compiler.Error (Freshness × PreparedBuild M) → List (Event M) → Prop
  | unstarted (error : compiler.Error) : Probes self (.error error) []
  | failed (process : CargoProcess M) (error : compiler.Error) :
      Probes self (.error error) (.Started process :: process.shown)
  | fresh (process : CargoProcess M) : Probes self (.ok (.Fresh, self)) (.Started process :: process.shown)
  | stopped {process : CargoProcess M} {attempt : CargoAttempt M} (h : Retains process [] attempt) :
      Probes self (.ok (.Stale, { self with stopped_probe := some attempt })) (.Started process :: process.warnings)

theorem probe_spec (candidate : CaptureAnalysis (CargoArtifactRecord M)) :
    Probes self (self.probe environment candidate).result (self.probe environment candidate).trace := by
  rw [probe]
  refine Traced.lift_bind_spec (fun error _ => .unstarted error) fun _ _ => ?_
  refine Traced.lift_bind_spec (fun error _ => .unstarted error) fun _ _ => ?_
  dsimp only
  refine Traced.bind_spec (CargoAttempt.start_spec _ self.package self.target) (fun error trace hstarts => ?_) fun attempt trace hstarts => ?_
  · cases hstarts with
    | unstarted => exact .unstarted error
    | unreadable process => exact .failed process error
  · cases hstarts with
    | @started process _ hretains =>
      rcases self.classifier.classify_probe attempt.toCargoAttempt candidate (selected_target_marker candidate.token) with
        error | (_ | _)
      · refine CargoAttempt.replay_bind_spec (T := fun result trace => Probes self result ([.Started process] ++ trace)) hretains ?_
          (.failed process) ?_
        · rfl
        · exact .failed process error
      · refine CargoAttempt.replay_bind_spec (T := fun result trace => Probes self result ([.Started process] ++ trace)) hretains ?_
          (.failed process) ?_
        · rfl
        · exact .fresh process
      · dsimp only
        rw [CargoAttempt.relay_warnings_eq, Traced.bind_of_ok rfl, hretains.warnings, Traced.pure_trace, List.append_nil]
        exact .stopped { hretains with warnings := rfl }

/-- A relaying probe classifies a run whose stderr can be read back as one that relays nothing. -/
theorem probe_result {self : PreparedBuild M} {environment : Environment M} {process : CargoProcess M}
    (candidate : CaptureAnalysis (CargoArtifactRecord M)) (hreadable : process.stderr.Readable)
    (hcargo : environment.cargo "probe" (selected_target_marker candidate.token) = .ok process) :
    (self.probe environment candidate).result.map Prod.fst =
      (self.classifier.probe candidate process.toCargoRun).map Prod.fst := by
  have hstopped : self.classifier.stopped_probe.isNone = self.stopped_probe.isNone := Option.isNone_map
  have hkey : self.classifier.request_key = self.request_key := rfl
  have hstart : compiler.CargoAttempt.start process.toCargoRun self.classifier.package self.classifier.target =
      compiler.CargoAttempt.start process.toCargoRun self.package self.target := rfl
  rw [probe, compiler.PreparedBuild.probe, hstopped, hkey, hstart]
  simp only [Traced.bind_result, Traced.lift_result, hcargo, CargoAttempt.start_result hreadable]
  cases ensure (decide (candidate.request_key = self.request_key)) (invalid_environment
    "candidate request key must match the prepared request, got another key") with
  | error error => rfl
  | ok _ =>
    cases ensure self.stopped_probe.isNone (invalid_environment "a stopped probe requires collection, got another probe") with
    | error error => rfl
    | ok _ =>
      cases compiler.CargoAttempt.start process.toCargoRun self.package self.target with
      | error error => rfl
      | ok attempt =>
        have hreplay (result : Except compiler.Error Freshness) :
            ((CargoAttempt.replay { attempt with stderr := process.stderr } >>= fun _ =>
              Traced.lift result >>= fun freshness => pure (freshness, self) : Relay M (Freshness × PreparedBuild M)).result).map
                Prod.fst = result := by
          rw [Traced.bind_result, CargoAttempt.replay_result hreadable, ok_bind]
          cases result <;> rfl
        simp only [ok_bind, Except.map]
        cases self.classifier.classify_probe attempt candidate (selected_target_marker candidate.token) with
        | error error => exact hreplay _
        | ok freshness =>
          cases freshness with
          | Fresh => exact hreplay _
          | Stale =>
            rw [CargoAttempt.relay_warnings_eq]
            rfl

/-- What a new collection comes to: no process, or one that has shown everything. -/
inductive Collects : Except compiler.Error (CollectedBuild M) → List (Event M) → Prop
  | unstarted (error : compiler.Error) : Collects (.error error) []
  | shown (process : CargoProcess M) (result : Except compiler.Error (CollectedBuild M)) :
      Collects result (.Started process :: process.shown)

theorem collect_new_token_spec (token : AnalysisToken) :
    Collects (self.collect_new_token environment token).result (self.collect_new_token environment token).trace := by
  rw [collect_new_token]
  refine Traced.bind_spec (CargoAttempt.start_spec _ self.package self.target) (fun error trace hstarts => ?_) fun attempt trace hstarts => ?_
  · cases hstarts with
    | unstarted => exact .unstarted error
    | unreadable process => exact .shown process _
  · cases hstarts with
    | @started process _ hretains =>
      refine CargoAttempt.replay_bind_spec (T := fun result trace => Collects result ([.Started process] ++ trace)) hretains ?_
        (fun error => .shown process _) (.shown process _)
      exact Traced.lift_bind_trace fun _ => Traced.lift_bind_trace fun _ => Traced.lift_bind_trace fun _ =>
        Traced.lift_bind_trace fun _ => Traced.lift_bind_trace fun _ => rfl

variable {self environment} {token : AnalysisToken}

theorem collect_trace (hstopped : self.stopped_probe = none) :
    (self.collect environment token).trace = (self.collect_new_token environment token).trace := by
  rw [collect]
  cases hresult : (self.collect_new_token environment token).result with
  | ok build => rw [Traced.recover_of_ok hresult]
  | error error =>
    rw [Traced.recover_of_error hresult, hstopped]
    exact List.append_nil _

/-- A collection that succeeds shows nothing of a stopped probe, and one that fails shows what the probe held back. -/
theorem collect_stopped_trace (environment : Environment M) (token : AnalysisToken) {process : CargoProcess M}
    {attempt : CargoAttempt M} (hstopped : self.stopped_probe = some attempt)
    (hretains : Retains process [] attempt) :
    (∃ build, (self.collect_new_token environment token).result = .ok build) ∧
      (self.collect environment token).trace = (self.collect_new_token environment token).trace ∨
    (¬ ∃ build, (self.collect_new_token environment token).result = .ok build) ∧
      (self.collect environment token).trace = (self.collect_new_token environment token).trace ++ process.others := by
  rw [collect]
  cases hresult : (self.collect_new_token environment token).result with
  | ok build =>
    rw [Traced.recover_of_ok hresult]
    exact .inl ⟨⟨build, rfl⟩, rfl⟩
  | error error =>
    rw [Traced.recover_of_error hresult, hstopped]
    refine .inr ⟨?_, ?_⟩
    · rintro ⟨build, hbuild⟩
      cases hbuild
    dsimp only
    congr 1
    refine CargoAttempt.replay_bind_spec (T := fun _ trace => trace = process.others) hretains ?_ (fun _ => rfl) ?_
    · rfl
    · rfl

/-- A fresh candidate was reported as one, in a process with its marker. -/
theorem probe_fresh {candidate : CaptureAnalysis (CargoArtifactRecord M)} {next : PreparedBuild M}
    (h : (self.probe environment candidate).result = .ok (.Fresh, next)) :
    candidate.request_key = self.request_key ∧
    ∃ process artifact, environment.cargo "probe" (selected_target_marker candidate.token) = .ok process ∧
      artifact ∈ process.messages.filterMap (selected_of self.package self.target) ∧ artifact.fresh = true := by
  simp only [probe, Traced.bind_result, Traced.lift_result, bind_eq_ok_iff] at h
  obtain ⟨_, hkey, _, -, attempt, hstart, hclassified⟩ := h
  refine ⟨of_decide_eq_true (ensure_eq_ok_iff.mp hkey), ?_⟩
  obtain ⟨process, hprocess, hattempt⟩ := CargoAttempt.start_eq_ok hstart
  obtain ⟨hreadable, hfold⟩ := compiler.CargoAttempt.start_eq_ok_iff.mp hattempt
  have hobserves : Observes self.classifier.package self.classifier.target process.toCargoRun attempt.toCargoAttempt := by
    rw [hfold]
    exact compiler.CargoAttempt.observes _ _ _
  have hfresh : self.classifier.classify_probe attempt.toCargoAttempt candidate (selected_target_marker candidate.token) =
      .ok .Fresh := by
    split at hclassified
    · simp only [Traced.bind_result, Traced.pure_result, bind_eq_ok_iff] at hclassified
      obtain ⟨_, -, hclassified⟩ := hclassified
      cases hclassified
    · simp only [Traced.bind_result, Traced.lift_result, Traced.pure_result, bind_eq_ok_iff] at hclassified
      obtain ⟨_, -, freshness, hresult, hpair⟩ := hclassified
      cases hpair
      exact hresult
  obtain ⟨artifact, hselected, hflag, -⟩ := ((classify_fresh_iff hobserves hreadable).mp hfresh).artifact
  refine ⟨process, artifact, hprocess, ?_, hflag⟩
  change artifact ∈ process.messages.filterMap (selected_of self.classifier.package self.classifier.target)
  rw [hselected]
  exact List.mem_singleton_self artifact

/-- What a collection comes from: a process with the marker of its token, which reports the selected target as newly built. -/
theorem collect_eq_ok {token : AnalysisToken} {collected : CollectedBuild M}
    (h : (self.collect environment token).result = .ok collected) :
    (collected.analysis.token = token ∧ collected.analysis.request_key = self.request_key ∧ collected.build = self.build ∧
      collected.compiler = self.compiler) ∧
    ∃ process artifact, environment.cargo "collect" (selected_target_marker token) = .ok process ∧
      artifact ∈ process.messages.filterMap (selected_of self.package self.target) ∧ artifact.fresh = false ∧
      CargoArtifactRecord.new artifact = .ok collected.analysis.artifact ∧ artifact.target.Agrees self.target := by
  have hcollect : (self.collect_new_token environment token).result = .ok collected := by
    rw [collect] at h
    cases hresult : (self.collect_new_token environment token).result with
    | ok build =>
      rw [Traced.recover_of_ok hresult] at h
      exact h
    | error error =>
      rw [Traced.recover_of_error hresult] at h
      dsimp only at h
      split at h
      · simp only [Traced.bind_result, Traced.lift_result, bind_eq_ok_iff] at h
        obtain ⟨_, -, h⟩ := h
        cases h
      · cases h
  simp only [collect_new_token, Traced.bind_result, Traced.lift_result, Traced.pure_result, bind_eq_ok_iff] at hcollect
  obtain ⟨attempt, hstart, _, -, _, -, stale, -, _, -, artifact, hcompleted, evidence, -, hbuild⟩ := hcollect
  cases hbuild
  refine ⟨⟨rfl, rfl, rfl, rfl⟩, ?_⟩
  obtain ⟨process, hprocess, hattempt⟩ := CargoAttempt.start_eq_ok hstart
  obtain ⟨-, hfold⟩ := compiler.CargoAttempt.start_eq_ok_iff.mp hattempt
  obtain ⟨-, -, reported, hselected, hfresh, hrecord⟩ := CargoObservation.completed_eq_ok_iff.mp hcompleted
  rw [hfold, (compiler.CargoAttempt.observes _ _ _).selected] at hselected
  refine ⟨process, reported, hprocess, ?_, hfresh, hrecord⟩
  rw [hselected]
  exact List.mem_singleton_self reported

/-- A collection succeeds where Cargo reports a new compilation whose evidence can be gathered. -/
theorem collect_result {token : AnalysisToken} {process : CargoProcess M} {record : CargoArtifactRecord M}
    {evidence : collector.CollectedEvidence} (hreadable : process.stderr.Readable)
    (hcargo : environment.cargo "collect" (selected_target_marker token) = .ok process)
    (hreports : ReportsBuilt self.classifier record process.toCargoRun)
    (hgather : environment.gather process.directory (selected_target_marker token) self.compiler = .ok evidence) :
    (self.collect environment token).result = .ok {
      build := self.build, compiler := self.compiler, evidence
      analysis := { request_key := self.request_key, token, artifact := record } } := by
  have hobserves := compiler.CargoAttempt.observes self.package self.target process.toCargoRun
  generalize hattempt : process.messages.foldl (compiler.CargoAttempt.record_message self.package self.target)
    { run := process.toCargoRun } = attempt at hobserves
  have hstart : compiler.CargoAttempt.start process.toCargoRun self.package self.target = .ok attempt :=
    compiler.CargoAttempt.start_eq_ok_iff.mpr ⟨hreports.readable, hattempt.symm⟩
  have hcompleted : attempt.observation.completed self.target false = .ok record := by
    rw [CargoObservation.completed_eq_ok_iff, hobserves.finished, hobserves.has_errors, hobserves.selected]
    exact ⟨hreports.finished, hreports.calm, hreports.artifact⟩
  have hstale : verified_stale_receipt (process.directory.join "stale") process.stale (selected_target_marker token) = .ok false :=
    verified_stale_receipt_eq_false_iff.mpr hreports.receipt
  have hexit : process.status.success = true := hreports.exit
  rw [collect, Traced.recover_of_ok]
  rw [collect_new_token, hcargo, Traced.bind_result, CargoAttempt.start_result hreadable, hstart, Except.map, ok_bind,
    Traced.bind_result, CargoAttempt.replay_result hreadable, ok_bind]
  simp only [Traced.bind_result, Traced.lift_result, hobserves.same_run, hexit, hstale, hcompleted, hgather, ok_bind]
  rfl

end PreparedBuild

end optic.relay
