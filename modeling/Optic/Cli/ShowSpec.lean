import Optic.Cli.Show
import Optic.Evidence.AliasSpec
import Optic.LlvmIndex.Joined

open rust file_system optic.records optic.store optic.queries

namespace optic.cli

/-- The error of stdout, for the errors that come from it. -/
def Error.refusal : Error → Option IoError
  | .Write source => some source
  | _ => none

theorem copy_error_refusal (error : store.Error) : (copy_error error).refusal = error.refusal := by
  cases error <;> rfl

/-- The output of a command, whose bodies follow `index` bodies that were shown before. -/
def shown (index : Nat) : List (List UInt8) → List UInt8
  | [] => []
  | bytes :: rest => (if index ≠ 0 then text "\n" else []) ++ (bytes ++ shown (index + 1) rest)

theorem shown_behind (index : Nat) (first : List UInt8) (rest : List (List UInt8)) :
    first ++ shown (index + 1) rest = (text "\n").intercalate (first :: rest) := by
  induction rest generalizing index first with
  | nil => simp [shown]
  | cons next rest ih =>
    rw [shown, if_pos (Nat.succ_ne_zero index), ih (index + 1) next]
    simp [List.intercalate]

/-- Bodies are joined by line ends. -/
theorem shown_eq (bodies : List (List UInt8)) : shown 0 bodies = (text "\n").intercalate bodies := by
  cases bodies with
  | nil => rfl
  | cons first rest =>
    rw [← shown_behind 0 first rest]
    rfl

/-- The published bytes of a range. -/
def evidence_bytes (instances : InstanceManifest) (files : ArtifactRecord → List UInt8) (evidence : EvidenceRange) :
    List UInt8 :=
  match artifact_of instances.artifacts evidence.artifact with
  | some artifact => llvm_index.slice (files artifact) evidence.range
  | none => []

variable {instances : InstanceManifest} {files : ArtifactRecord → List UInt8}

/-- The modules of a manifest have the definitions that an index finds in their published files. -/
def Indexed (instances : InstanceManifest) (files : ArtifactRecord → List UInt8) : Prop :=
  ∀ module ∈ instances.llvm.modules, ∀ artifact, artifact_of instances.artifacts module.artifact = some artifact →
    llvm_index.index_bytes (files artifact) = .ok module.definitions

/-- A selected body is the text of one function. -/
theorem body_text (hindexed : Indexed instances files) {reference : InstanceRef} {bodies : List LlvmBody}
    (hselect : select_llvm instances reference = .ok (.Available bodies)) : ∀ body ∈ bodies,
      ∃ module ∈ instances.llvm.modules, ∃ definition, body.Of module reference definition ∧
        llvm_index.FunctionText (evidence_bytes instances files body.evidence) body.raw_symbol
          (llvm_index.alone definition) := by
  intro body hbody
  obtain ⟨instance_, modules, selected, unsupported_alias, -, hllvm, hselected, -, rfl⟩ := select_llvm_available hselect
  obtain ⟨module, hmodule, definition, hof⟩ := (resolve_modules_ok hselected).1 body (List.mem_mergeSort.mp hbody)
  have hmem : module ∈ instances.llvm.modules := by rwa [hllvm]
  obtain ⟨artifact, hartifact, -, -⟩ := instances.consistent.definitions module hmem definition hof.defined
  refine ⟨module, hmem, definition, hof, ?_⟩
  rw [evidence_bytes, hof.evidence, hartifact, hof.raw_symbol]
  exact .of_index (hindexed module hmem artifact hartifact) hof.defined hof.function

theorem select_llvm_ascending {reference : InstanceRef} {bodies : List LlvmBody}
    (hselect : select_llvm instances reference = .ok (.Available bodies)) :
    bodies.Pairwise fun first second => first.compiler_module < second.compiler_module := by
  obtain ⟨instance_, modules, selected, unsupported_alias, -, hllvm, hselected, -, rfl⟩ := select_llvm_available hselect
  have hdistinct := instances.consistent.modules_distinct
  rw [hllvm] at hdistinct
  exact bodies_ascending ((resolve_modules_ok hselected).2.nodup hdistinct)

section

variable {Artifact : Type} [Serde (CaptureRecord Artifact)] [Serde InstanceManifest] {store : Store} {tree : Tree}
  {capture : CaptureRecord Artifact} {w w' : World}

theorem copy_evidence_emits (h : Published tree (store.completed capture.id) capture instances files)
    (hready : store.Ready tree) {evidence : EvidenceRange} {kind : ArtifactKind} (hcapture : evidence.capture_id = capture.id)
    (hdeclared : Declared instances.artifacts evidence.artifact kind evidence.range) :
    Emits Error.refusal (copy_evidence Artifact store evidence) tree (evidence_bytes instances files evidence) := by
  obtain ⟨artifact, hartifact, -, -⟩ := hdeclared
  have hcopy := h.copy_evidence_emits hready hartifact evidence.range
  rw [← hcapture] at hcopy
  rw [evidence_bytes, hartifact]
  exact hcopy.map_err copy_error_refusal

theorem copy_evidence_writes (h : Published tree (store.completed capture.id) capture instances files)
    (hready : store.Ready tree) {evidence : EvidenceRange} {kind : ArtifactKind} (hcapture : evidence.capture_id = capture.id)
    (hdeclared : Declared instances.artifacts evidence.artifact kind evidence.range) :
    Writes (copy_evidence Artifact store evidence) tree (evidence_bytes instances files evidence) := by
  obtain ⟨artifact, hartifact, -, hrange⟩ := hdeclared
  obtain ⟨-, hid⟩ := artifact_of_eq_some hartifact
  have hcopied : Writes (store.copy_evidence Artifact capture.id artifact.id evidence.range) tree
      (llvm_index.slice (files artifact) evidence.range) := h.copy_evidence hready (hid ▸ hartifact) hrange
  rw [hid, ← hcapture] at hcopied
  rw [evidence_bytes, hartifact]
  exact hcopied.map_err

/-- Where nothing fails, the joined bodies are shown. -/
theorem show_bodies_writes (h : Published tree (store.completed capture.id) capture instances files)
    (hready : store.Ready tree) {kind : ArtifactKind} {bodies : List LlvmBody}
    (hbodies : ∀ body ∈ bodies, body.evidence.capture_id = capture.id ∧
      Declared instances.artifacts body.evidence.artifact kind body.evidence.range) (index : Nat) :
    Writes (show_bodies Artifact store index bodies) tree
      (shown index (bodies.map fun body => evidence_bytes instances files body.evidence)) := by
  induction bodies generalizing index with
  | nil => exact .pure
  | cons body bodies ih =>
    obtain ⟨⟨hcapture, hdeclared⟩, hrest⟩ := List.forall_mem_cons.mp hbodies
    refine .bind ?_ (.bind (copy_evidence_writes h hready hcapture hdeclared) (ih hrest (index + 1)))
    unfold write_separator
    split
    · exact (Writes.write_sink _).map_err
    · exact .pure

/-- Whatever fails, a prefix of the joined bodies is shown. -/
theorem show_bodies_emits (h : Published tree (store.completed capture.id) capture instances files)
    (hready : store.Ready tree) {kind : ArtifactKind} {bodies : List LlvmBody}
    (hbodies : ∀ body ∈ bodies, body.evidence.capture_id = capture.id ∧
      Declared instances.artifacts body.evidence.artifact kind body.evidence.range) (index : Nat) :
    Emits Error.refusal (show_bodies Artifact store index bodies) tree
      (shown index (bodies.map fun body => evidence_bytes instances files body.evidence)) := by
  induction bodies generalizing index with
  | nil => exact .pure
  | cons body bodies ih =>
    obtain ⟨⟨hcapture, hdeclared⟩, hrest⟩ := List.forall_mem_cons.mp hbodies
    apply Emits.bind
    · unfold write_separator
      split
      · exact (Emits.write_sink _).map_err fun _ => rfl
      · exact .pure
    · intro _ _ _ _ _
      apply (copy_evidence_emits h hready hcapture hdeclared).bind
      intro _ _ _ _ _
      exact ih hrest (index + 1)

/-- What a query selects from a published capture, it selects from the published manifest. -/
theorem query_published {α : Type} {select : InstanceManifest → Except queries.Error α} {a : α}
    (h : Published tree (store.completed capture.id) capture instances files) (hready : store.Ready tree) (htree : w.tree = tree)
    (hrun : ((store.read_instances Artifact capture.id).map_err queries.Error.Store >>= fun manifest =>
      Action.lift (select manifest)) w = (.ok a, w')) : select instances = .ok a := by
  obtain ⟨manifest, w1, hread, hselect⟩ := Action.bind_eq_ok_iff.mp hrun
  obtain ⟨hresult, -⟩ := Action.lift_eq_ok_iff.mp hselect
  have hread := Action.map_err_eq_ok_iff.mp hread
  have hanswer := h.read_instances hready { tree } rfl rfl
  obtain rfl : manifest = instances :=
    (read_instances_reading store capture.id).determined w { tree } _ _ htree (by rw [hread]) (by rw [hanswer])
  exact hresult

theorem llvm_evidence_reads (reference : InstanceRef) :
    Reads (fun _ => True) (llvm_evidence Artifact store reference) :=
  .bind (.map_err (read_instances_reading store reference.capture_id) fun _ => trivial) fun _ => .lift fun _ _ => trivial

/-- Without available bodies nothing is shown, and the error is none of stdout. -/
theorem show_llvm_unavailable {reference : InstanceRef} (hnone : ∀ bodies w1,
    llvm_evidence Artifact store reference w ≠ (.ok (.Available bodies), w1)) :
    ∃ error w', show_llvm Artifact store reference w = (.error error, w') ∧ w'.sink = w.sink ∧
      ∀ source, error ≠ .Write source := by
  have hreads : Reads (fun _ => True) (llvm_evidence Artifact store reference) := llvm_evidence_reads reference
  have hsilent := hreads.silent w
  unfold show_llvm
  rcases hrun : llvm_evidence Artifact store reference w with ⟨error | evidence, w1⟩
  · rw [hrun] at hsilent
    refine ⟨.Product (.Evidence error), w1, Action.bind_of_error (by rw [Action.map_err, hrun]) _, hsilent, fun _ h => by cases h⟩
  · rw [hrun] at hsilent
    rw [Action.bind_of_ok (Action.map_err_eq_ok_iff.mpr hrun)]
    cases evidence with
    | Available bodies => exact absurd hrun (hnone bodies w1)
    | NotCaptured reason => exact ⟨_, w1, rfl, hsilent, fun _ h => by cases h⟩
    | NoExactDefinition => exact ⟨_, w1, rfl, hsilent, fun _ h => by cases h⟩
    | UnsupportedAlias => exact ⟨_, w1, rfl, hsilent, fun _ h => by cases h⟩

theorem show_llvm_emits (h : Published tree (store.completed capture.id) capture instances files)
    (hready : store.Ready tree) {ordinal : UInt64} {bodies : List LlvmBody}
    (hselect : select_llvm instances ⟨capture.id, ordinal⟩ = .ok (.Available bodies)) :
    Emits Error.refusal (show_llvm Artifact store ⟨capture.id, ordinal⟩) tree
      ((text "\n").intercalate (bodies.map fun body => evidence_bytes instances files body.evidence)) := by
  rw [← shown_eq]
  apply Emits.after (E := fun e : Error => e.refusal = none)
    (.map_err (llvm_evidence_reads ⟨capture.id, ordinal⟩) fun _ => rfl) fun _ h => h
  intro evidence w w' htree hrun
  have hfound := query_published h hready htree (Action.map_err_eq_ok_iff.mp hrun)
  obtain rfl : evidence = .Available bodies := Except.ok.inj (hfound.symm.trans hselect)
  exact show_bodies_emits h hready (select_llvm_declared hselect) 0

/-- Where nothing fails, the bodies that a query finds are shown. -/
theorem show_llvm_writes (h : Published tree (store.completed capture.id) capture instances files)
    (hready : store.Ready tree) {ordinal : UInt64} {bodies : List LlvmBody}
    (hselect : select_llvm instances ⟨capture.id, ordinal⟩ = .ok (.Available bodies)) :
    Writes (show_llvm Artifact store ⟨capture.id, ordinal⟩) tree
      ((text "\n").intercalate (bodies.map fun body => evidence_bytes instances files body.evidence)) := by
  have hfound : file_system.Answers (llvm_evidence Artifact store ⟨capture.id, ordinal⟩) tree (.ok (.Available bodies)) := by
    rw [← hselect]
    exact .bind (.map_err (h.read_instances hready)) .lift
  rw [← shown_eq]
  exact .after hfound.map_err (show_bodies_writes h hready (select_llvm_declared hselect) 0)

/-- From the index of published modules to stdout: what is shown is a prefix of the joined
bodies, all of them where the command succeeds, and an index of the joined bodies finds exactly
these functions again. An error of stdout is reported as such, and no other error is. Where no body
is available, nothing is shown. -/
theorem show_llvm_published (h : Published w.tree (store.completed capture.id) capture instances files)
    (hready : store.Ready w.tree) (hindexed : Indexed instances files) (hsink : w.sink.refused = none) :
    (∀ reference, (∀ bodies w1, llvm_evidence Artifact store reference w ≠ (.ok (.Available bodies), w1)) →
      ∃ error w', show_llvm Artifact store reference w = (.error error, w') ∧ w'.sink = w.sink ∧
        ∀ source, error ≠ .Write source) ∧
    ∀ ordinal bodies output, select_llvm instances ⟨capture.id, ordinal⟩ = .ok (.Available bodies) →
      output = (text "\n").intercalate (bodies.map fun body => evidence_bytes instances files body.evidence) →
      (∀ w', show_llvm Artifact store ⟨capture.id, ordinal⟩ w = (.ok (), w') →
        w'.sink.accepted = w.sink.accepted ++ output) ∧
      (∀ error w', show_llvm Artifact store ⟨capture.id, ordinal⟩ w = (.error error, w') →
        (∃ done, done <+: output ∧ w'.sink.accepted = w.sink.accepted ++ done) ∧
          ∀ source, error = .Write source ↔ w'.sink.refused = some source) ∧
      (bodies.Pairwise fun first second => first.compiler_module < second.compiler_module) ∧
      (∀ body ∈ bodies, ∃ module ∈ instances.llvm.modules, ∃ definition, body.Of module ⟨capture.id, ordinal⟩ definition) ∧
      (output.length < UInt64.size → ∃ found, llvm_index.index_bytes output = .ok found ∧
        found.map (fun definition => (definition.raw_symbol, definition.kind)) =
          bodies.map fun body => (body.raw_symbol, .Function)) := by
  refine ⟨fun reference hnone => show_llvm_unavailable hnone, fun ordinal bodies output hselect houtput => ?_⟩
  have hemits := show_llvm_emits h hready hselect
  rw [← houtput] at hemits
  have htext := body_text hindexed hselect
  refine ⟨fun w' hrun => (hemits.ok w () w' rfl hsink hrun).2, fun error w' hrun => ?_, select_llvm_ascending hselect,
    fun body hbody => ?_, fun hfits => ?_⟩
  · obtain ⟨hrefused, hdone⟩ := hemits.error w error w' rfl hsink hrun
    refine ⟨hdone, fun source => ?_⟩
    rw [hrefused]
    cases error <;> simp [Error.refusal]
  · obtain ⟨module, hmodule, definition, hof, -⟩ := htext body hbody
    exact ⟨module, hmodule, definition, hof⟩
  · have hfunctions : ∀ function ∈ bodies.map (fun body => (evidence_bytes instances files body.evidence, body.raw_symbol)),
        ∃ definition, llvm_index.FunctionText function.1 function.2 definition := by
      intro function hfunction
      obtain ⟨body, hbody, rfl⟩ := List.mem_map.mp hfunction
      obtain ⟨module, -, definition, -, htext⟩ := htext body hbody
      exact ⟨_, htext⟩
    have hjoined := llvm_index.index_joined hfunctions (by simpa [Function.comp_def, ← houtput] using hfits)
    simpa [Function.comp_def, ← houtput] using hjoined

end

section

local instance : Serde (CaptureRecord Unit) := .single library_capture "0"

local instance : Serde InstanceManifest := .single function_manifest "0"

theorem function_indexed : Indexed function_manifest function_files := by
  intro module hmodule artifact hartifact
  rcases List.mem_cons.mp hmodule with rfl | hmodule
  · obtain rfl := Option.some.inj hartifact
    rw [llvm_index.index_bytes_eq_contiguous]
    rfl
  · obtain rfl := List.mem_singleton.mp hmodule
    obtain rfl := Option.some.inj hartifact
    rw [llvm_index.index_bytes_eq_contiguous]
    rfl

/-- Two bodies of the symbol `f` are shown, and an index of what is shown finds both functions again. -/
theorem show_llvm_published_function : ∃ w' found,
    show_llvm Unit ⟨[]⟩ ⟨library_capture.id, 0⟩ { tree := function_tree } = (.ok (), w') ∧
      w'.sink.accepted = text "define void @f() \x7b\x7d\ndefine void @g() \x7b\x7d" ∧
      llvm_index.index_bytes w'.sink.accepted = .ok found ∧
      found.map (fun definition => (definition.raw_symbol, definition.kind)) = [("f", .Function), ("g", .Function)] := by
  have hrun := show_llvm_writes function_published function_ready function_selected { tree := function_tree } rfl rfl rfl
  have hshown := show_llvm_published (w := { tree := function_tree }) function_published function_ready function_indexed rfl
  obtain ⟨hwhole, -, -, -, hindex⟩ := hshown.2 0 function_bodies _ function_selected rfl
  obtain ⟨found, hfound, hfunctions⟩ := hindex (by decide)
  have haccepted := hwhole _ hrun
  exact ⟨_, found, hrun, haccepted, haccepted ▸ hfound, hfunctions⟩

end

end optic.cli
