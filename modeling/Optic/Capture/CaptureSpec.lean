import Optic.Capture.Capture
import Optic.Compiler.DigestSpec
import Optic.Compiler.RelaySpec

open rust optic.records optic.relay

namespace optic.captures

variable {M : CargoSchema}

/-- The collection, if it takes place, succeeds. -/
def Surroundings.Collects (surroundings : Surroundings M) : Prop :=
  ∃ prepared build, surroundings.prepared = .ok prepared ∧
    (PreparedBuild.collect_new_token { prepared with } surroundings.environment surroundings.token).result = .ok build

theorem Surroundings.collects_iff {surroundings : Surroundings M} {prepared : Prepared M} (h : surroundings.prepared = .ok prepared) :
    surroundings.Collects ↔ ∃ build, (PreparedBuild.collect_new_token { prepared with } surroundings.environment
      surroundings.token).result = .ok build := by
  constructor
  · rintro ⟨prepared', build, heq, hbuild⟩
    obtain rfl := Except.ok.inj (h.symm.trans heq)
    exact ⟨build, hbuild⟩
  · rintro ⟨build, hbuild⟩
    exact ⟨prepared, build, h, hbuild⟩

/-- What a capture starts and writes. The output of a stopped probe that is no warning is held back until the collection
fails, and is never written if the collection succeeds. -/
inductive Shows (collected : Prop) : List (Event M) → Prop
  | nothing : Shows collected []
  | alone (process : CargoProcess M) : Shows collected (.Started process :: (process.warnings ++ process.others))
  | recollected (probe collection : CargoProcess M) (h : collected) :
      Shows collected (.Started probe :: probe.warnings ++ .Started collection :: (collection.warnings ++ collection.others))
  | failed (probe collection : CargoProcess M) (h : ¬ collected) :
      Shows collected (.Started probe :: probe.warnings ++ .Started collection :: (collection.warnings ++ collection.others) ++
        probe.others)

/-- What a capture says of its own after Cargo's output. -/
inductive Notice : Except Error (CaptureOutcome M) → List (Event M) → Prop
  | nothing (result : Except Error (CaptureOutcome M)) : Notice result []
  | unavailable (outcome : CaptureOutcome M) (reason : UnsupportedLlvmConfiguration) :
      Notice (.ok outcome) [.Written (unavailable_llvm reason)]

/-- Cargo's output, and a notice behind it. -/
def Relayed (collected : Prop) (result : Except Error (CaptureOutcome M)) (trace : List (Event M)) : Prop :=
  ∃ output notice, trace = output ++ notice ∧ Shows collected output ∧ Notice result notice

variable {surroundings : Surroundings M} {collected : Prop} {output : List (Event M)}

theorem Shows.relayed (h : Shows collected output) (result : Except Error (CaptureOutcome M)) :
    Relayed collected result output :=
  ⟨output, [], (List.append_nil _).symm, h, .nothing result⟩

/-- A capture that returns may end with a notice. -/
theorem Shows.warned (h : Shows collected output) (manifest : InstanceManifest) (outcome : CaptureOutcome M) :
    Relayed collected (warn_unavailable_llvm manifest >>= fun _ => pure outcome : Traced (Event M) Error (CaptureOutcome M)).result
      (output ++ (warn_unavailable_llvm manifest >>= fun _ => pure outcome : Traced (Event M) Error (CaptureOutcome M)).trace) := by
  rw [warn_unavailable_llvm]
  cases manifest.llvm with
  | Collected modules => exact ⟨output, [], rfl, h, .nothing _⟩
  | NotCaptured reason => exact ⟨output, _, rfl, h, .unavailable outcome reason⟩

/-- Behind a collection, a capture only adds a notice. -/
theorem collect_and_publish_spec {prepared : PreparedBuild M} (before : List (Event M))
    (h : Shows collected (before ++ (prepared.collect surroundings.environment surroundings.token).trace)) :
    Relayed collected (collect_and_publish surroundings prepared).result
      (before ++ (collect_and_publish surroundings prepared).trace) := by
  rw [collect_and_publish]
  refine Traced.bind_spec (P := fun _ trace => trace = (prepared.collect surroundings.environment surroundings.token).trace)
    (T := fun result trace => Relayed collected result (before ++ trace)) rfl ?_ ?_
  · rintro error _ rfl
    exact h.relayed _
  · rintro build _ rfl
    rw [← List.append_assoc]
    generalize before ++ (prepared.collect surroundings.environment surroundings.token).trace = output at h
    have hstop (result : Except Error (CaptureOutcome M)) : Relayed collected result (output ++ []) := by
      rw [List.append_nil]
      exact h.relayed result
    refine Traced.lift_bind_spec (T := fun result trace => Relayed collected result (output ++ trace)) (fun error _ => hstop _)
      fun manifest _ => ?_
    refine Traced.lift_bind_spec (T := fun result trace => Relayed collected result (output ++ trace)) (fun error _ => hstop _)
      fun _ _ => ?_
    exact h.warned manifest _

/-- A collection on its own shows everything of its run. -/
theorem collect_shows (collected : Prop) (prepared : PreparedBuild M) (environment : Environment M) (token : AnalysisToken)
    (hstopped : prepared.stopped_probe = none) : Shows collected (prepared.collect environment token).trace := by
  rw [PreparedBuild.collect_trace hstopped]
  have hcollects := prepared.collect_new_token_spec environment token
  generalize (prepared.collect_new_token environment token).result = result at hcollects
  generalize (prepared.collect_new_token environment token).trace = trace at hcollects ⊢
  cases hcollects with
  | unstarted error => exact .nothing
  | shown process => exact .alone process

/-- A collection behind a stopped probe shows what the probe held back, unless it succeeds. -/
theorem collect_stopped_shows {prepared : PreparedBuild M} {environment : Environment M} {token : AnalysisToken}
    {probe : CargoProcess M} {attempt : CargoAttempt M} (hstopped : prepared.stopped_probe = some attempt)
    (hretains : Retains probe [] attempt)
    (hcollected : collected ↔ ∃ build, (prepared.collect_new_token environment token).result = .ok build) :
    Shows collected (.Started probe :: probe.warnings ++ (prepared.collect environment token).trace) := by
  have hcollects := prepared.collect_new_token_spec environment token
  rcases PreparedBuild.collect_stopped_trace environment token hstopped hretains with ⟨hbuild, htrace⟩ | ⟨hbuild, htrace⟩
  · have hsuccess := hcollected.mpr hbuild
    obtain ⟨build, hresult⟩ := hbuild
    rw [hresult] at hcollects
    rw [htrace]
    generalize (prepared.collect_new_token environment token).trace = trace at hcollects ⊢
    cases hcollects with
    | shown process => exact .recollected probe process hsuccess
  · rw [← hcollected] at hbuild
    rw [htrace]
    generalize (prepared.collect_new_token environment token).trace = trace at hcollects ⊢
    generalize (prepared.collect_new_token environment token).result = result at hcollects
    cases hcollects with
    | unstarted error => exact .alone probe
    | shown process =>
      rw [← List.append_assoc]
      exact .failed probe process hbuild

/-- Compiler diagnostics are shown exactly once. Whatever Cargo and the store answer, the warnings of each run come first
and once, and so do its other diagnostics behind them; only the output of a stopped probe is held back until the
collection has failed, and is not shown if it succeeds. -/
theorem diagnostics_shown_once (surroundings : Surroundings M) (policy : CapturePolicy) :
    Relayed surroundings.Collects (capture surroundings policy).result (capture surroundings policy).trace ∧
      ∀ process : CargoProcess M, process.stderr.Readable →
        process.others = written (process.messages.filterMap diagnostic_of) ++ [.Written process.stderr.bytes] := by
  refine ⟨?_, fun process hreadable => by rw [CargoProcess.others, hreadable.shown_eq]⟩
  have hnothing (result : Except Error (CaptureOutcome M)) : Relayed surroundings.Collects result [] := Shows.nothing.relayed result
  rw [capture]
  refine Traced.lift_bind_spec (fun error _ => hnothing _) fun prepared hprepared => ?_
  refine Traced.lift_bind_spec (fun error _ => hnothing _) fun _ _ => ?_
  refine Traced.lift_bind_spec (fun error _ => hnothing _) fun candidate _ => ?_
  cases candidate with
  | none => exact collect_and_publish_spec [] (collect_shows _ _ _ _ rfl)
  | some candidate =>
    obtain ⟨candidate, manifest⟩ := candidate
    refine Traced.map_err_bind_spec (PreparedBuild.probe_spec { prepared with } surroundings.environment candidate.analysis) ?_ ?_
    · rintro error trace hprobes
      cases hprobes with
      | unstarted => exact hnothing _
      | failed process => exact (Shows.alone process).relayed _
    · rintro outcome trace hprobes
      cases hprobes with
      | fresh process => exact (Shows.alone process).warned manifest _
      | @stopped process attempt hretains =>
        have hcollected := Surroundings.collects_iff (compiler.mapError_eq_ok_iff.mp hprepared)
        exact collect_and_publish_spec _ (collect_stopped_shows rfl hretains hcollected)

/-- The stderr text of a run is lost where its file does not open. -/
theorem stderr_text_lost : ∃ (surroundings : Surroundings compiler.fixture.schema) (process : CargoProcess compiler.fixture.schema),
    process.stderr.bytes ≠ [] ∧ (capture surroundings .Fresh).trace = [.Started process] := by
  let process : CargoProcess compiler.fixture.schema := {
    directory := ⟨"/tmp/optic"⟩
    messages := []
    status := ⟨false, "exit status: 101"⟩
    stale := .error ⟨.NotFound, "No such file or directory (os error 2)"⟩
    manifest := .ok false
    stderr := { bytes := text "error: could not compile", unopened := some ⟨.Other, "Too many open files (os error 24)"⟩ } }
  let prepared : Prepared compiler.fixture.schema := {
    cargo := ⟨"/toolchain/bin/cargo"⟩
    package := "path+file:///workspace#fixture@0.1.0"
    target := (compiler.fixture.request none).target
    request_key := ⟨"0123456789abcdef0123456789abcdef0123456789abcdef0123456789abcdef", by decide⟩
    build := compiler.fixture.build
    compiler := compiler.fixture.toolchain }
  let surroundings : Surroundings compiler.fixture.schema := {
    prepared := .ok prepared
    environment := { cargo := fun _ _ => .ok process, gather := fun path _ _ => .error (.Filesystem "open compiler manifest" path ⟨.NotFound, ""⟩) }
    initialized := .ok ()
    read_candidate := fun _ => .ok none
    publish := fun _ _ => .ok ()
    token := ⟨"0123456789ab4def8123456789abcdef", by decide⟩
    capture_id := ⟨"zyxwvutsrqponmlkzyxwvutsrqponmlk", by decide⟩
    completed_at_unix_ms := 0 }
  exact ⟨surroundings, process, by decide, rfl⟩

end optic.captures
