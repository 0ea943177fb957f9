import Optic.Compiler.ObservationSpec
import Optic.Compiler.Probe

open rust optic.records optic.compiler.protocol

namespace optic.compiler

variable {M : CargoSchema}

/-- The artifact that a message reports, if it has the package, the name and the kinds, in any order, of the prepared
target. -/
def selected_of (package : String) (target : Target M) : Except IoError (CargoMessage M) → Option (Artifact M)
  | .ok (.CompilerArtifact artifact) =>
    if artifact.package_id = package ∧ artifact.target.name = target.name ∧ artifact.target.kind.Perm target.kind then
      some artifact
    else none
  | _ => none

theorem selected_of_eq_some {package : String} {target : Target M} {message : Except IoError (CargoMessage M)}
    {artifact : Artifact M} : selected_of package target message = some artifact ↔
      message = .ok (.CompilerArtifact artifact) ∧ artifact.package_id = package ∧ artifact.target.name = target.name ∧
        artifact.target.kind.Perm target.kind := by
  unfold selected_of
  split
  · next reported =>
    rw [Option.ite_none_right_eq_some, Option.some_inj, Except.ok.injEq, CargoMessage.CompilerArtifact.injEq]
    constructor
    · rintro ⟨h, rfl⟩
      exact ⟨rfl, h⟩
    · rintro ⟨rfl, h⟩
      exact ⟨h, rfl⟩
  · next hother => exact iff_of_false nofun fun h => hother artifact h.1

/-- The outcome that a build-finished message reports. -/
def finished_of : Except IoError (CargoMessage M) → Option Bool
  | .ok (.BuildFinished success) => some success
  | _ => none

/-- Whether a message is a compiler error, an internal compiler error or a failure note. -/
def is_fatal : Except IoError (CargoMessage M) → Bool
  | .ok (.CompilerMessage diagnostic) =>
    diagnostic.level = .Error || diagnostic.level = .Ice || diagnostic.level = .FailureNote
  | _ => false

def is_unreadable : Except IoError (CargoMessage M) → Bool
  | .error _ => true
  | .ok _ => false

/-- An artifact is selected by its package, its name and its kinds in any order. -/
theorem is_selected_iff {artifact : Artifact M} {package : String} {target : Target M} :
    is_selected artifact package target = true ↔
      artifact.package_id = package ∧ artifact.target.name = target.name ∧ artifact.target.kind.Perm target.kind := by
  simp only [is_selected, Bool.and_eq_true, decide_eq_true_eq,
    SortOrder.sort_eq_iff_perm (SortOrder.linear_separates _), and_assoc]

/-- What reading some messages adds to an attempt. -/
structure Gathers (package : String) (target : Target M) (before : CargoAttempt M)
    (messages : List (Except IoError (CargoMessage M))) (after : CargoAttempt M) : Prop where
  run : after.run = before.run
  selected : after.observation.selected = before.observation.selected ++ messages.filterMap (selected_of package target)
  finished : after.observation.finished = before.observation.finished ++ messages.filterMap finished_of
  has_errors : after.observation.has_errors = (before.observation.has_errors || messages.any is_fatal)
  read_error : after.read_error.isSome = (before.read_error.isSome || messages.any is_unreadable)

namespace CargoAttempt

variable {package : String} {target : Target M}

theorem record_message_gathers (self : CargoAttempt M) (message : Except IoError (CargoMessage M)) :
    Gathers package target self [message] (record_message package target self message) := by
  cases message with
  | error error => constructor <;> simp [record_message, selected_of, finished_of, is_fatal, is_unreadable]
  | ok message =>
    cases message with
    | CompilerArtifact artifact =>
      by_cases hselected : is_selected artifact package target
      · constructor <;>
          simp [record_message, CargoObservation.record, hselected, selected_of, ← is_selected_iff, finished_of, is_fatal,
            is_unreadable]
      · constructor <;>
          simp [record_message, CargoObservation.record, hselected, selected_of, ← is_selected_iff, finished_of, is_fatal,
            is_unreadable]
    | BuildFinished success => constructor <;> simp [record_message, selected_of, finished_of, is_fatal, is_unreadable]
    | CompilerMessage diagnostic =>
      by_cases hwarning : diagnostic.level = .Warning
      · constructor <;>
          simp [record_message, record_diagnostic, hwarning, selected_of, finished_of, is_fatal, is_unreadable]
      · constructor <;>
          simp [record_message, record_diagnostic, hwarning, selected_of, finished_of, is_fatal, is_unreadable]
    | TextLine line =>
      by_cases hline : line = ""
      · constructor <;> simp [record_message, hline, selected_of, finished_of, is_fatal, is_unreadable]
      · constructor <;> simp [record_message, hline, selected_of, finished_of, is_fatal, is_unreadable]
    | Other => constructor <;> simp [record_message, selected_of, finished_of, is_fatal, is_unreadable]

end CargoAttempt

variable {package : String} {target : Target M}

theorem Gathers.trans {a b c : CargoAttempt M} {messages messages' : List (Except IoError (CargoMessage M))}
    (h : Gathers package target a messages b) (h' : Gathers package target b messages' c) :
    Gathers package target a (messages ++ messages') c where
  run := h'.run.trans h.run
  selected := by rw [h'.selected, h.selected, List.filterMap_append, List.append_assoc]
  finished := by rw [h'.finished, h.finished, List.filterMap_append, List.append_assoc]
  has_errors := by rw [h'.has_errors, h.has_errors, List.any_append, Bool.or_assoc]
  read_error := by rw [h'.read_error, h.read_error, List.any_append, Bool.or_assoc]

/-- What reading all messages adds. -/
theorem foldl_gathers (package : String) (target : Target M) (messages : List (Except IoError (CargoMessage M))) : ∀ attempt : CargoAttempt M,
    Gathers package target attempt messages (messages.foldl (CargoAttempt.record_message package target) attempt) := by
  induction messages with
  | nil => exact fun attempt => ⟨rfl, by simp, by simp, by simp, by simp⟩
  | cons message messages ih => exact fun attempt => (attempt.record_message_gathers message).trans (ih _)

/-- What an attempt observes: all of what its messages report, in their order. -/
structure Observes (package : String) (target : Target M) (run : CargoRun M) (attempt : CargoAttempt M) : Prop where
  same_run : attempt.run = run
  selected : attempt.observation.selected = run.messages.filterMap (selected_of package target)
  finished : attempt.observation.finished = run.messages.filterMap finished_of
  has_errors : attempt.observation.has_errors = run.messages.any is_fatal

/-- An attempt starts when every message can be read, and observes what they report. -/
theorem CargoAttempt.start_eq_ok_iff {run : CargoRun M} {attempt : CargoAttempt M} :
    CargoAttempt.start run package target = .ok attempt ↔
      run.messages.any is_unreadable = false ∧
        attempt = run.messages.foldl (record_message package target) { run } := by
  have hgathers := foldl_gathers package target run.messages { run }
  have herror := hgathers.read_error
  rw [Option.isSome_none, Bool.false_or] at herror
  rw [start, ← herror]
  cases hread : (run.messages.foldl (record_message package target) { run }).read_error with
  | none => simp [eq_comm]
  | some source => simp

theorem CargoAttempt.observes (package : String) (target : Target M) (run : CargoRun M) :
    Observes package target run (run.messages.foldl (record_message package target) { run }) := by
  have h := foldl_gathers package target run.messages { run }
  exact ⟨h.run, h.selected, h.finished, by rw [h.has_errors, Bool.false_or]⟩

/-- No receipt was written. -/
def NoReceipt (run : CargoRun M) : Prop := ∃ error, run.stale = .error error ∧ error.kind = .NotFound

/-- The receipt is a file with exactly the header of a marker. -/
def HasReceipt (run : CargoRun M) (marker : String) : Prop :=
  ∃ receipt, run.stale = .ok receipt ∧ receipt.is_file = true ∧ receipt.len = (header.spell marker).length ∧
    receipt.bytes = .ok (header.spell marker)

theorem verified_stale_receipt_eq_true_iff {run : CargoRun M} {path : PathBuf} {marker : String} :
    verified_stale_receipt path run.stale marker = .ok true ↔ HasReceipt run marker := by
  unfold verified_stale_receipt HasReceipt
  cases run.stale with
  | error error =>
    by_cases h : error.kind = .NotFound
    · simp [h]
    · simp [h]
  | ok receipt =>
    simp only [bind_eq_ok_iff, ensure_eq_ok_iff, mapError_eq_ok_iff, decide_eq_true_eq, Except.ok.injEq]
    simp only [Bool.not_or, Bool.and_eq_true, Bool.not_not, Bool.not_eq_true', decide_eq_false_iff_not, ne_eq, not_not,
      pure_eq_ok, and_true]
    constructor
    · rintro ⟨_, ⟨hfile, hlen⟩, bytes, hbytes, _, rfl⟩
      exact ⟨receipt, rfl, hfile, hlen, hbytes⟩
    · rintro ⟨_, rfl, hfile, hlen, hbytes⟩
      exact ⟨(), ⟨hfile, hlen⟩, header.spell marker, hbytes, (), rfl⟩

theorem verified_stale_receipt_eq_false_iff {run : CargoRun M} {path : PathBuf} {marker : String} :
    verified_stale_receipt path run.stale marker = .ok false ↔ NoReceipt run := by
  unfold verified_stale_receipt NoReceipt
  cases run.stale with
  | error error =>
    by_cases h : error.kind = .NotFound
    · simp [h]
    · simp [h]
  | ok receipt => simp [bind_eq_ok_iff]

/-- Cargo's report of a fresh target: a success without a receipt and without a manifest, with
one matching artifact that is fresh, equal to the candidate's once normalized and of the prepared
target, with one build-finished message, which reports success, and without errors. -/
structure ReportsFresh (build : PreparedBuild M) (candidate : CaptureAnalysis (CargoArtifactRecord M)) (run : CargoRun M) :
    Prop where
  readable : run.messages.any is_unreadable = false
  exit : run.status.success = true
  receipt : NoReceipt run
  manifest : run.manifest = .ok false
  artifact : ∃ artifact, run.messages.filterMap (selected_of build.package build.target) = [artifact] ∧
    artifact.fresh = true ∧ CargoArtifactRecord.new artifact = .ok candidate.artifact ∧ artifact.target.Agrees build.target
  finished : run.messages.filterMap finished_of = [true]
  calm : run.messages.any is_fatal = false

/-- Cargo's report of a stopped probe: a failure with this attempt's receipt, without a manifest
and without a matching artifact. -/
structure ReportsStale (build : PreparedBuild M) (candidate : CaptureAnalysis (CargoArtifactRecord M)) (run : CargoRun M) :
    Prop where
  readable : run.messages.any is_unreadable = false
  exit : run.status.success = false
  receipt : HasReceipt run (selected_target_marker candidate.token)
  manifest : run.manifest = .ok false
  unselected : run.messages.filterMap (selected_of build.package build.target) = []

/-- A build that may probe a candidate: the request is the candidate's, and no probe was stopped. -/
structure Ready (build : PreparedBuild M) (candidate : CaptureAnalysis (CargoArtifactRecord M)) : Prop where
  request : candidate.request_key = build.request_key
  unstopped : build.stopped_probe = none

variable {build : PreparedBuild M} {candidate : CaptureAnalysis (CargoArtifactRecord M)} {run : CargoRun M}

theorem classify_fresh_iff {attempt : CargoAttempt M} {marker : String}
    (h : Observes build.package build.target run attempt) (hreadable : run.messages.any is_unreadable = false) :
    build.classify_probe attempt candidate marker = .ok .Fresh ↔ ReportsFresh build candidate run := by
  simp only [PreparedBuild.classify_probe, bind_eq_ok_iff, ensure_eq_ok_iff, mapError_eq_ok_iff, h.same_run]
  constructor
  · rintro ⟨stale, hstale, manifest, hmanifest, _, hmissing, hclassified⟩
    cases hexit : run.status.success with
    | false =>
      rw [hexit, Bool.not_false, if_pos rfl] at hclassified
      split at hclassified <;> cases hclassified
    | true =>
      rw [hexit, Bool.not_true, if_neg Bool.false_ne_true] at hclassified
      simp only [bind_eq_ok_iff, ensure_eq_ok_iff, CargoObservation.completed_eq_ok_iff, h.selected, h.finished,
        h.has_errors] at hclassified
      obtain ⟨_, hunstopped, record, ⟨hfinished, hcalm, artifact, hselected, hfresh, hnew, hagrees⟩, _, hequal, -⟩ :=
        hclassified
      rw [CargoArtifactRecord.beq_iff] at hequal
      rw [Bool.not_eq_true'] at hunstopped hmissing
      subst hequal hunstopped hmissing
      exact ⟨hreadable, hexit, verified_stale_receipt_eq_false_iff.mp hstale, hmanifest,
        ⟨artifact, hselected, hfresh, hnew, hagrees⟩, hfinished, hcalm⟩
  · intro hreport
    obtain ⟨artifact, hselected, hfresh, hnew, hagrees⟩ := hreport.artifact
    refine ⟨false, verified_stale_receipt_eq_false_iff.mpr hreport.receipt, false, hreport.manifest, (), rfl, ?_⟩
    rw [hreport.exit, Bool.not_true, if_neg Bool.false_ne_true]
    simp only [bind_eq_ok_iff, ensure_eq_ok_iff, CargoObservation.completed_eq_ok_iff, h.selected, h.finished,
      h.has_errors]
    exact ⟨(), rfl, candidate.artifact, ⟨hreport.finished, hreport.calm, artifact, hselected, hfresh, hnew, hagrees⟩, (),
      CargoArtifactRecord.beq_iff.mpr rfl, rfl⟩

theorem classify_stale_iff {attempt : CargoAttempt M} (h : Observes build.package build.target run attempt)
    (hreadable : run.messages.any is_unreadable = false) :
    build.classify_probe attempt candidate (selected_target_marker candidate.token) = .ok .Stale ↔
      ReportsStale build candidate run := by
  simp only [PreparedBuild.classify_probe, bind_eq_ok_iff, ensure_eq_ok_iff, mapError_eq_ok_iff, h.same_run]
  constructor
  · rintro ⟨stale, hstale, manifest, hmanifest, _, hmissing, hclassified⟩
    cases hexit : run.status.success with
    | true =>
      rw [hexit, Bool.not_true, if_neg Bool.false_ne_true] at hclassified
      simp only [bind_eq_ok_iff] at hclassified
      obtain ⟨_, -, _, -, _, -, hfresh⟩ := hclassified
      cases hfresh
    | false =>
      rw [hexit, Bool.not_false, if_pos rfl] at hclassified
      split at hclassified
      · rename_i hstopped
        rw [Bool.and_eq_true, List.isEmpty_iff, h.selected] at hstopped
        obtain ⟨rfl, hunselected⟩ := hstopped
        rw [Bool.not_eq_true'] at hmissing
        subst hmissing
        exact ⟨hreadable, hexit, verified_stale_receipt_eq_true_iff.mp hstale, hmanifest, hunselected⟩
      · cases hclassified
  · intro hreport
    refine ⟨true, verified_stale_receipt_eq_true_iff.mpr hreport.receipt, false, hreport.manifest, (), rfl, ?_⟩
    rw [hreport.exit, Bool.not_false, if_pos rfl, h.selected, hreport.unselected]
    rfl

/-- The outcome of a probe, where it has one. -/
def verdict (build : PreparedBuild M) (candidate : CaptureAnalysis (CargoArtifactRecord M)) (run : CargoRun M) :
    Option Freshness :=
  ((build.probe candidate run).map Prod.fst).toOption

theorem verdict_eq_some_iff {freshness : Freshness} :
    verdict build candidate run = some freshness ↔ Ready build candidate ∧ run.messages.any is_unreadable = false ∧
      build.classify_probe (run.messages.foldl (CargoAttempt.record_message build.package build.target) { run }) candidate
        (selected_target_marker candidate.token) = .ok freshness := by
  have hok : verdict build candidate run = some freshness ↔ ∃ next, build.probe candidate run = .ok (freshness, next) := by
    rw [verdict]
    cases build.probe candidate run with
    | error error => simp [Except.map, Except.toOption]
    | ok outcome =>
      obtain ⟨found, next⟩ := outcome
      simp [Except.map, Except.toOption]
  rw [hok]
  simp only [PreparedBuild.probe, bind_eq_ok_iff, ensure_eq_ok_iff, CargoAttempt.start_eq_ok_iff]
  constructor
  · rintro ⟨next, _, hrequest, _, hunstopped, attempt, ⟨hreadable, rfl⟩, found, hfound, hnext⟩
    have heq : found = freshness := by
      cases found <;> cases hnext <;> rfl
    subst heq
    exact ⟨⟨of_decide_eq_true hrequest, Option.isNone_iff_eq_none.mp hunstopped⟩, hreadable, hfound⟩
  · rintro ⟨hready, hreadable, hfound⟩
    have hrequest := decide_eq_true hready.request
    have hunstopped := Option.isNone_iff_eq_none.mpr hready.unstopped
    cases freshness with
    | Fresh => exact ⟨build, (), hrequest, (), hunstopped, _, ⟨hreadable, rfl⟩, .Fresh, hfound, rfl⟩
    | Stale => exact ⟨_, (), hrequest, (), hunstopped, _, ⟨hreadable, rfl⟩, .Stale, hfound, rfl⟩

theorem verdict_fresh_iff :
    verdict build candidate run = some .Fresh ↔ Ready build candidate ∧ ReportsFresh build candidate run := by
  rw [verdict_eq_some_iff]
  constructor
  · rintro ⟨hready, hreadable, hclassified⟩
    exact ⟨hready, (classify_fresh_iff (CargoAttempt.observes build.package build.target run) hreadable).mp hclassified⟩
  · rintro ⟨hready, hreport⟩
    exact ⟨hready, hreport.readable, (classify_fresh_iff (CargoAttempt.observes build.package build.target run) hreport.readable).mpr hreport⟩

theorem verdict_stale_iff :
    verdict build candidate run = some .Stale ↔ Ready build candidate ∧ ReportsStale build candidate run := by
  rw [verdict_eq_some_iff]
  constructor
  · rintro ⟨hready, hreadable, hclassified⟩
    exact ⟨hready, (classify_stale_iff (CargoAttempt.observes build.package build.target run) hreadable).mp hclassified⟩
  · rintro ⟨hready, hreport⟩
    exact ⟨hready, hreport.readable, (classify_stale_iff (CargoAttempt.observes build.package build.target run) hreport.readable).mpr hreport⟩

/-- A run that differs at most in the order of its messages. -/
structure CargoRun.Reordered (run run' : CargoRun M) : Prop where
  messages : run.messages.Perm run'.messages
  directory : run'.directory = run.directory
  status : run'.status = run.status
  stale : run'.stale = run.stale
  manifest : run'.manifest = run.manifest

theorem CargoRun.Reordered.symm {run run' : CargoRun M} (h : run.Reordered run') : run'.Reordered run :=
  ⟨h.messages.symm, h.directory.symm, h.status.symm, h.stale.symm, h.manifest.symm⟩

theorem CargoRun.Reordered.any {run run' : CargoRun M} (h : run.Reordered run')
    (test : Except IoError (CargoMessage M) → Bool) : run'.messages.any test = run.messages.any test :=
  h.messages.symm.any_eq

/-- What exactly one message reports, one message of the reordered run does. -/
theorem CargoRun.Reordered.filterMap_singleton {α : Type} {run run' : CargoRun M} (h : run.Reordered run')
    {f : Except IoError (CargoMessage M) → Option α} {a : α} (hf : run.messages.filterMap f = [a]) :
    run'.messages.filterMap f = [a] :=
  List.perm_singleton.mp (hf ▸ (h.messages.symm.filterMap f))

theorem ReportsFresh.reordered {run' : CargoRun M} (h : ReportsFresh build candidate run) (hrun : run.Reordered run') :
    ReportsFresh build candidate run' where
  readable := (hrun.any _).trans h.readable
  exit := hrun.status ▸ h.exit
  receipt := by
    rw [NoReceipt, hrun.stale]
    exact h.receipt
  manifest := hrun.manifest ▸ h.manifest
  artifact := by
    obtain ⟨artifact, hselected, hfresh, hnew, hagrees⟩ := h.artifact
    exact ⟨artifact, hrun.filterMap_singleton hselected, hfresh, hnew, hagrees⟩
  finished := hrun.filterMap_singleton h.finished
  calm := (hrun.any _).trans h.calm

theorem ReportsStale.reordered {run' : CargoRun M} (h : ReportsStale build candidate run) (hrun : run.Reordered run') :
    ReportsStale build candidate run' where
  readable := (hrun.any _).trans h.readable
  exit := hrun.status ▸ h.exit
  receipt := by
    rw [HasReceipt, hrun.stale]
    exact h.receipt
  manifest := hrun.manifest ▸ h.manifest
  unselected := List.perm_nil.mp (h.unselected ▸ (hrun.messages.symm.filterMap _))

/-- The order of Cargo's messages never changes a verdict. -/
theorem verdict_reordered {run' : CargoRun M} (hrun : run.Reordered run') :
    verdict build candidate run' = verdict build candidate run := by
  apply Option.ext
  intro freshness
  cases freshness with
  | Fresh =>
    rw [verdict_fresh_iff, verdict_fresh_iff]
    exact and_congr_right fun _ => ⟨fun h => h.reordered hrun.symm, fun h => h.reordered hrun⟩
  | Stale =>
    rw [verdict_stale_iff, verdict_stale_iff]
    exact and_congr_right fun _ => ⟨fun h => h.reordered hrun.symm, fun h => h.reordered hrun⟩

/-- The record that a collection takes from what Cargo reported, where it accepts the report. -/
def accepted (build : PreparedBuild M) (token : AnalysisToken) (run : CargoRun M) : Option (CargoArtifactRecord M) :=
  ((build.observe_collection token run).map Prod.snd).toOption

/-- Cargo's report of a new compilation. -/
structure ReportsBuilt (build : PreparedBuild M) (record : CargoArtifactRecord M) (run : CargoRun M) : Prop where
  readable : run.messages.any is_unreadable = false
  exit : run.status.success = true
  receipt : NoReceipt run
  artifact : ∃ artifact, run.messages.filterMap (selected_of build.package build.target) = [artifact] ∧
    artifact.fresh = false ∧ CargoArtifactRecord.new artifact = .ok record ∧ artifact.target.Agrees build.target
  finished : run.messages.filterMap finished_of = [true]
  calm : run.messages.any is_fatal = false

theorem accepted_eq_some_iff {token : AnalysisToken} {record : CargoArtifactRecord M} :
    accepted build token run = some record ↔ ReportsBuilt build record run := by
  have hobserves := CargoAttempt.observes build.package build.target run
  have hok : accepted build token run = some record ↔
      ∃ attempt, build.observe_collection token run = .ok (attempt, record) := by
    rw [accepted]
    cases build.observe_collection token run with
    | error error => simp [Except.map, Except.toOption]
    | ok outcome =>
      obtain ⟨attempt, found⟩ := outcome
      simp [Except.map, Except.toOption]
  rw [hok]
  simp only [PreparedBuild.observe_collection, bind_eq_ok_iff, ensure_eq_ok_iff, CargoAttempt.start_eq_ok_iff,
    CargoObservation.completed_eq_ok_iff]
  constructor
  · rintro ⟨_, attempt, ⟨hreadable, rfl⟩, _, hexit, stale, hstale, _, hunstopped, found, hcompleted, hfound⟩
    cases hfound
    rw [hobserves.same_run] at hexit hstale
    rw [hobserves.finished, hobserves.has_errors, hobserves.selected] at hcompleted
    obtain ⟨hfinished, hcalm, hartifact⟩ := hcompleted
    rw [Bool.not_eq_true'] at hunstopped
    subst hunstopped
    exact ⟨hreadable, hexit, verified_stale_receipt_eq_false_iff.mp hstale, hartifact, hfinished, hcalm⟩
  · intro h
    refine ⟨_, _, ⟨h.readable, rfl⟩, (), ?_, false, ?_, (), rfl, record, ?_, rfl⟩
    · rw [hobserves.same_run]
      exact h.exit
    · rw [hobserves.same_run]
      exact verified_stale_receipt_eq_false_iff.mpr h.receipt
    · rw [hobserves.finished, hobserves.has_errors, hobserves.selected]
      exact ⟨h.finished, h.calm, h.artifact⟩

theorem ReportsBuilt.reordered {record : CargoArtifactRecord M} {run' : CargoRun M} (h : ReportsBuilt build record run)
    (hrun : run.Reordered run') : ReportsBuilt build record run' where
  readable := (hrun.any _).trans h.readable
  exit := hrun.status ▸ h.exit
  receipt := by
    rw [NoReceipt, hrun.stale]
    exact h.receipt
  artifact := by
    obtain ⟨artifact, hselected, hfresh, hnew, hagrees⟩ := h.artifact
    exact ⟨artifact, hrun.filterMap_singleton hselected, hfresh, hnew, hagrees⟩
  finished := hrun.filterMap_singleton h.finished
  calm := (hrun.any _).trans h.calm

theorem accepted_reordered {token : AnalysisToken} {run' : CargoRun M} (hrun : run.Reordered run') :
    accepted build token run' = accepted build token run := by
  apply Option.ext
  intro record
  rw [accepted_eq_some_iff, accepted_eq_some_iff]
  exact ⟨fun h => h.reordered hrun.symm, fun h => h.reordered hrun⟩

/-- What contradicts a fresh report: one more matching artifact, finish message or error anywhere
among the messages, a receipt, or a manifest. -/
inductive Contradicts (build : PreparedBuild M) (run : CargoRun M) : CargoRun M → Prop
  | message {messages} (message : Except IoError (CargoMessage M))
      (h : (selected_of build.package build.target message).isSome ∨ (finished_of message).isSome ∨
        is_fatal message = true)
      (hmessages : messages.Perm (message :: run.messages)) : Contradicts build run { run with messages }
  | receipt (receipt : Receipt) : Contradicts build run { run with stale := .ok receipt }
  | manifest : Contradicts build run { run with manifest := .ok true }

/-- One more value than exactly one is not exactly one. -/
theorem filterMap_cons_ne_singleton {α β : Type} {f : α → Option β} {a : α} {l : List α} {b c : β}
    (ha : (f a).isSome) (hl : l.filterMap f = [b]) : (a :: l).filterMap f ≠ [c] := by
  obtain ⟨d, hd⟩ := Option.isSome_iff_exists.mp ha
  rw [List.filterMap_cons_some hd, hl]
  simp

/-- A contradicted fresh report is no fresh report. -/
theorem Contradicts.not_fresh {run' : CargoRun M} (hcontradicts : Contradicts build run run')
    (h : ReportsFresh build candidate run) : ¬ ReportsFresh build candidate run' := by
  intro h'
  cases hcontradicts with
  | @message messages message hmessage hmessages =>
    have hrun : CargoRun.Reordered { run with messages } { run with messages := message :: run.messages } :=
      ⟨hmessages, rfl, rfl, rfl, rfl⟩
    have hfresh := h'.reordered hrun
    obtain ⟨artifact, hselected, -⟩ := h.artifact
    obtain ⟨artifact', hselected', -⟩ := hfresh.artifact
    rcases hmessage with hartifact | hfinish | hfatal
    · exact filterMap_cons_ne_singleton hartifact hselected hselected'
    · exact filterMap_cons_ne_singleton hfinish h.finished hfresh.finished
    · have hcalm := hfresh.calm
      rw [List.any_cons, hfatal, Bool.true_or] at hcalm
      cases hcalm
  | receipt receipt =>
    obtain ⟨error, hstale, -⟩ := h'.receipt
    cases hstale
  | manifest => cases h'.manifest

/-- A contradicted fresh report is no stale report either. -/
theorem Contradicts.not_stale {run' : CargoRun M} (hcontradicts : Contradicts build run run')
    (h : ReportsFresh build candidate run) : ¬ ReportsStale build candidate run' := by
  intro h'
  have hstatus : run'.status = run.status := by cases hcontradicts <;> rfl
  have hexit := h'.exit
  rw [hstatus, h.exit] at hexit
  cases hexit

/-- Verdicts depend on what Cargo reported and never on the order of its messages. A probe is fresh, or stale,
exactly on the reports of a fresh target, or of a stopped probe; and what contradicts a fresh report leads to an
error. -/
theorem verdicts_of_reports :
    (verdict build candidate run = some .Fresh ↔ Ready build candidate ∧ ReportsFresh build candidate run) ∧
    (verdict build candidate run = some .Stale ↔ Ready build candidate ∧ ReportsStale build candidate run) ∧
    (∀ run', run.Reordered run' → verdict build candidate run' = verdict build candidate run ∧
      ∀ token, accepted build token run' = accepted build token run) ∧
    (verdict build candidate run = some .Fresh → ∀ run', Contradicts build run run' →
      ∃ error, build.probe candidate run' = .error error) := by
  refine ⟨verdict_fresh_iff, verdict_stale_iff, ?_, ?_⟩
  · exact fun run' hrun => ⟨verdict_reordered hrun, fun token => accepted_reordered hrun⟩
  · intro hfresh run' hcontradicts
    obtain ⟨-, hreport⟩ := verdict_fresh_iff.mp hfresh
    have hnone : verdict build candidate run' = none := by
      apply Option.eq_none_iff_forall_ne_some.mpr
      intro freshness hsome
      cases freshness with
      | Fresh => exact hcontradicts.not_fresh hreport (verdict_fresh_iff.mp hsome).2
      | Stale => exact hcontradicts.not_stale hreport (verdict_stale_iff.mp hsome).2
    rw [verdict] at hnone
    cases hprobe : build.probe candidate run' with
    | error error => exact ⟨error, rfl⟩
    | ok outcome =>
      rw [hprobe] at hnone
      cases hnone

end optic.compiler
