import Optic.Cli.ShowSpec
import Optic.Compiler.BuildSpec
import Optic.Compiler.CollectedSpec
import Optic.Store.PublishRecovery

open rust file_system optic.records optic.compiler optic.compiler.protocol optic.driver optic.launch optic.store optic.queries

namespace optic.cli

section

variable {instances : InstanceManifest} {files : ArtifactRecord → List UInt8}

/-- The source of an instance, as its evidence. -/
def evidence_of (reference : InstanceRef) : SourceAvailability → SourceEvidence
  | .Available source => .Available ⟨reference.capture_id, source.artifact, source.range⟩ source.display_path source.starting_line
  | .Unavailable reason => .Unavailable reason

theorem select_source_eq {reference : InstanceRef} {record : InstanceRecord}
    (h : instances.instances[reference.ordinal.toNat]? = some record) :
    select_source instances reference = .ok (evidence_of reference record.source) := by
  rw [select_source, referenced_instance, h]
  change (match record.source with | .Available _ => _ | .Unavailable _ => _) = _
  cases record.source <;> rfl

variable {Artifact : Type} [Serde (CaptureRecord Artifact)] [Serde InstanceManifest] {store : Store} {tree : Tree}
  {capture : CaptureRecord Artifact} {ordinal : UInt64}

theorem source_evidence_reads (reference : InstanceRef) :
    Reads (fun _ => True) (source_evidence Artifact store reference) :=
  .bind (.map_err (read_instances_reading store reference.capture_id) fun _ => trivial) fun _ => .lift fun _ _ => trivial

/-- The source that a published capture answers is that of its manifest. -/
theorem source_evidence_answers (h : Published tree (store.completed capture.id) capture instances files)
    (hready : store.Ready tree) :
    file_system.Answers (source_evidence Artifact store ⟨capture.id, ordinal⟩) tree (select_source instances ⟨capture.id, ordinal⟩) :=
  .bind (.map_err (h.read_instances hready)) .lift

/-- Whatever fails, a prefix of the source is shown. -/
theorem show_source_emits (h : Published tree (store.completed capture.id) capture instances files)
    (hready : store.Ready tree) {evidence : EvidenceRange} {display_path : PathBuf} {starting_line : UInt64}
    (hselect : select_source instances ⟨capture.id, ordinal⟩ = .ok (.Available evidence display_path starting_line)) :
    Emits Error.refusal (show_source Artifact store ⟨capture.id, ordinal⟩) tree (evidence_bytes instances files evidence) := by
  apply Emits.after (E := fun e : Error => e.refusal = none)
    (.map_err (source_evidence_reads ⟨capture.id, ordinal⟩) fun _ => rfl) fun _ h => h
  intro found w w' htree hrun
  have hfound := query_published h hready htree (Action.map_err_eq_ok_iff.mp hrun)
  obtain rfl := Except.ok.inj (hfound.symm.trans hselect)
  obtain ⟨hcapture, hdeclared⟩ := select_source_declared hselect
  exact copy_evidence_emits h hready hcapture hdeclared

/-- Where nothing fails, the whole source is shown. -/
theorem show_source_writes (h : Published tree (store.completed capture.id) capture instances files)
    (hready : store.Ready tree) {evidence : EvidenceRange} {display_path : PathBuf} {starting_line : UInt64}
    (hselect : select_source instances ⟨capture.id, ordinal⟩ = .ok (.Available evidence display_path starting_line)) :
    Writes (show_source Artifact store ⟨capture.id, ordinal⟩) tree (evidence_bytes instances files evidence) := by
  have hanswers : file_system.Answers (source_evidence Artifact store ⟨capture.id, ordinal⟩) tree _ :=
    source_evidence_answers h hready
  rw [hselect] at hanswers
  obtain ⟨hcapture, hdeclared⟩ := select_source_declared hselect
  exact .after hanswers.map_err (copy_evidence_writes h hready hcapture hdeclared)

/-- A source that is unavailable is never shown, and the error tells why. -/
theorem show_source_unavailable (h : Published tree (store.completed capture.id) capture instances files)
    (hready : store.Ready tree) {reason : SourceUnavailable}
    (hselect : select_source instances ⟨capture.id, ordinal⟩ = .ok (.Unavailable reason)) :
    Emits Error.refusal (show_source Artifact store ⟨capture.id, ordinal⟩) tree [] ∧
      (∀ w w', w.tree = tree → show_source Artifact store ⟨capture.id, ordinal⟩ w ≠ (.ok (), w')) ∧
      file_system.Answers (show_source Artifact store ⟨capture.id, ordinal⟩) tree
        (.error (.EvidenceUnavailable ⟨capture.id, ordinal⟩ "source" reason.display)) := by
  have hfinds {found : SourceEvidence} {w w' : World} (htree : w.tree = tree)
      (hrun : (source_evidence Artifact store ⟨capture.id, ordinal⟩).map_err (fun error => Error.Product (.Evidence error)) w =
        (.ok found, w')) : found = .Unavailable reason := by
    have hfound := query_published h hready htree (Action.map_err_eq_ok_iff.mp hrun)
    exact Except.ok.inj (hfound.symm.trans hselect)
  have hanswers : file_system.Answers (source_evidence Artifact store ⟨capture.id, ordinal⟩) tree _ :=
    source_evidence_answers h hready
  rw [hselect] at hanswers
  refine ⟨?_, fun w w' htree hrun => ?_, hanswers.map_err.bind .fail⟩
  · apply Emits.after (E := fun e : Error => e.refusal = none)
      (.map_err (source_evidence_reads ⟨capture.id, ordinal⟩) fun _ => rfl) fun _ h => h
    intro found w w' htree hrun
    obtain rfl := hfinds htree hrun
    exact .reads (E := fun e : Error => e.refusal = none) (.fail rfl) fun _ h => h
  · obtain ⟨found, w1, hfound, hfail⟩ := Action.bind_eq_ok_iff.mp hrun
    obtain rfl := hfinds htree hfound
    cases hfail

end

/-- The files of artifacts that are looked up in a directory are in a tree. -/
def Views (files : collector.Files) (directory : PathBuf) (tree : Tree) (attempt : Path) : Prop :=
  ∀ (artifact : ArtifactRecord) file, files.symlink_metadata (directory.join artifact.file_name) = .ok (.file file) →
    tree (attempt.join artifact.file_name) = some (.file file.bytes)

/-- One capture: the processes of its build, what the parent makes of the files that they leave, and what it publishes. -/
structure Captured (M : CargoSchema) (FileId Artifact : Type) where
  launch : Launch M
  mode : String
  token : AnalysisToken
  directory : PathBuf
  attempt : Path
  processes : List (Started FileId)
  before : Tree
  path : PathBuf
  stream : List UInt8
  manifest : CompilerManifest
  system : collector.System
  compiler : CompilerIdentity
  built : collector.Files
  collected : collector.Files
  evidence : collector.CollectedEvidence
  publication : Attempt Artifact

namespace Captured

variable {M : CargoSchema} {FileId Artifact : Type} [Ord FileId]

/-- Each step of a capture is given what the one in front of it has left. -/
structure Chained (captured : Captured M FileId Artifact) : Prop where
  builds : ∃ canonicalize inherited, Builds captured.launch canonicalize captured.mode captured.token captured.directory
    captured.attempt inherited captured.processes captured.before
  faithful : ∀ process ∈ captured.processes, process.executable.rustc.Faithful
  stream : build captured.processes captured.before (captured.attempt.join "manifest") = some (.file captured.stream)
  read : (⟨captured.path, captured.stream, none, selected_target_marker captured.token⟩ : ManifestDecoder).read =
    .ok captured.manifest
  built : Views captured.built captured.directory (build captured.processes captured.before) captured.attempt
  separate : collector.Separate captured.system captured.compiler captured.directory
  collect : collector.collect captured.system captured.manifest captured.compiler captured.directory captured.built =
    .ok (captured.evidence, captured.collected)
  collected : Views captured.collected captured.directory captured.publication.start captured.attempt
  durable : captured.evidence.into_manifest captured.publication.capture.id = .ok captured.publication.instances
  attempt : captured.publication.artifact_directory = captured.attempt

variable {captured : Captured M FileId Artifact}

/-- A snapshot is published as the build has left it. -/
theorem Chained.snapshot (h : captured.Chained) {artifact : ArtifactRecord} (hmem : artifact ∈ captured.manifest.artifacts) :
    captured.publication.start (captured.attempt.join artifact.file_name) =
      build captured.processes captured.before (captured.attempt.join artifact.file_name) := by
  obtain ⟨-, hdistinct, -, -⟩ := collector.decoded_distinct h.read
  obtain ⟨file, hbuilt, hcollected⟩ := (collector.collect_leaves h.separate h.collect hdistinct).1 artifact hmem
  rw [h.collected _ file hcollected, h.built _ file hbuilt]

/-- The records of a capture are those that the parent has decoded. -/
theorem Chained.instances (h : captured.Chained) :
    captured.publication.instances.instances = captured.manifest.instances := by
  obtain ⟨-, hdistinct, -, -⟩ := collector.decoded_distinct h.read
  obtain ⟨-, hinstances, -, -⟩ := collector.into_manifest_ok h.durable
  exact hinstances.trans (collector.collect_materializes h.collect hdistinct).1

section

variable [Std.TransOrd FileId] [Std.LawfulEqOrd FileId] [DecidableEq FileId]

theorem Chained.tells (h : captured.Chained) : ∃ process ∈ captured.processes, ∃ session observed,
    launch.Answers process captured.token captured.attempt session observed ∧
      Tells session.lookup_source_file captured.launch.package_root observed session.partitions
        (build captured.processes captured.before) captured.attempt captured.manifest := by
  obtain ⟨canonicalize, inherited, hbuilds⟩ := h.builds
  rcases hbuilds.delivers with habsent | ⟨process, hprocess, -, hdelivered⟩
  · rw [h.stream] at habsent
    cases habsent
  · exact ⟨process, hprocess, hdelivered.tells (h.faithful process hprocess) h.stream h.read⟩

end

variable [Serde (CaptureRecord Artifact)] [Serde InstanceManifest] [Serde CandidatePointer] {store : Store}
  {attempts : List (Attempt Artifact)} {tree : Tree}

/-- What is published of an artifact is the file of the attempt. -/
theorem Chained.file (h : captured.Chained) (hhistory : History store attempts tree) (hmem : captured.publication ∈ attempts)
    (hcompleted : captured.publication.completed store = true) {artifact : ArtifactRecord}
    (hartifact : artifact ∈ captured.publication.instances.artifacts) :
    captured.publication.start (captured.attempt.join artifact.file_name) =
      some (.file (captured.publication.files artifact)) := by
  have hinput := hhistory.invariant.inputs _ hmem hcompleted artifact hartifact
  rwa [h.attempt] at hinput

/-- The published bytes of a source are the item that was located. -/
theorem Chained.evidence_bytes (h : captured.Chained) (hhistory : History store attempts tree)
    (hmem : captured.publication ∈ attempts) (hcompleted : captured.publication.completed store = true)
    (hdeclared : collector.SourcesDeclared captured.manifest.artifacts captured.manifest.instances) {record : InstanceRecord}
    (hrecord : record ∈ captured.publication.instances.instances) {source : SourceRecord} (hsource : record.source = .Available source)
    {bytes : List UInt8} (hfile : build captured.processes captured.before
      (captured.attempt.join (snapshot_name source.artifact.value)) = some (.file bytes)) :
    cli.evidence_bytes captured.publication.instances captured.publication.files
      ⟨captured.publication.capture.id, source.artifact, source.range⟩ = llvm_index.slice bytes source.range := by
  obtain ⟨artifact, hartifact, -, -⟩ := captured.publication.instances.consistent.sources record hrecord source hsource
  obtain ⟨hpublished, hid⟩ := artifact_of_eq_some hartifact
  rw [h.instances] at hrecord
  obtain ⟨snapshot, hsnapshot, hsame, -⟩ := hdeclared record hrecord source hsource
  have hname : artifact.file_name = snapshot.file_name := by rw [ArtifactRecord.file_name, hid, ArtifactRecord.file_name, hsame]
  have hspelled : snapshot.file_name = snapshot_name source.artifact.value := by rw [ArtifactRecord.file_name, hsame, snapshot_name]
  have hinput := h.file hhistory hmem hcompleted hpublished
  rw [hname, h.snapshot hsnapshot, hspelled, hfile, Option.some.injEq, Entry.file.injEq] at hinput
  rw [cli.evidence_bytes, hartifact, hinput]

variable (Artifact) in
/-- What is shown of a function: its located item, or a prefix of it where something fails; or why there is none. -/
inductive ShowsSource (store : Store) (tree : Tree) (reference : InstanceRef) : Except Unavailable (Located FileId) → Prop
  | item {located : Located FileId}
      (hemits : Emits Error.refusal (show_source Artifact store reference) tree located.item)
      (hwhole : ∀ w, w.tree = tree → w.schedule = [] → w.sink.capacity = none → show_source Artifact store reference w =
        (.ok (), { w with sink := { w.sink with accepted := w.sink.accepted ++ located.item } })) :
      ShowsSource store tree reference (.ok located)
  | none {unavailable : Unavailable} {reason : SourceUnavailable} (hreason : unavailable.reason = unavailable_code reason)
      (hemits : Emits Error.refusal (show_source Artifact store reference) tree [])
      (hnever : ∀ w w', w.tree = tree → show_source Artifact store reference w ≠ (.ok (), w'))
      (hanswers : file_system.Answers (show_source Artifact store reference) tree
        (.error (.EvidenceUnavailable reference "source" reason.display))) :
      ShowsSource store tree reference (.error unavailable)

/-- A decoded source is shown as what it quotes. -/
theorem Chained.shows (h : captured.Chained) (hhistory : History store attempts tree) (hmem : captured.publication ∈ attempts)
    (hcompleted : captured.publication.completed store = true)
    (hdeclared : collector.SourcesDeclared captured.manifest.artifacts captured.manifest.instances) {ordinal : UInt64}
    {record : InstanceRecord} (hrecord : captured.publication.instances.instances[ordinal.toNat]? = some record)
    {located : Except Unavailable (Located FileId)}
    (hquotes : Quotes (build captured.processes captured.before) captured.attempt located record.source) :
    ShowsSource Artifact store tree ⟨captured.publication.capture.id, ordinal⟩ located := by
  obtain ⟨hready, hpublished⟩ := hhistory.invariant.published _ hmem hcompleted
  have hselect : select_source captured.publication.instances ⟨captured.publication.capture.id, ordinal⟩ = .ok (evidence_of _ _) :=
    select_source_eq hrecord
  generalize hsource : record.source = source at hquotes hselect
  cases hquotes with
  | unavailable hreason =>
    obtain ⟨hemits, hnever, hanswers⟩ := show_source_unavailable hpublished hready hselect
    exact .none hreason hemits hnever hanswers
  | available _ _ _ hfile hitem =>
    have hbytes := h.evidence_bytes hhistory hmem hcompleted hdeclared (List.mem_of_getElem? hrecord) hsource hfile
    rw [hitem] at hbytes
    have hemits := show_source_emits hpublished hready hselect
    have hwrites := show_source_writes hpublished hready hselect
    rw [hbytes] at hemits hwrites
    exact .item hemits hwrites

omit [Serde (CaptureRecord Artifact)] [Serde InstanceManifest] [Serde CandidatePointer] in
/-- The text of each published module is what the disassembler has written. -/
theorem Chained.text (h : captured.Chained) {module : LlvmModuleRecord}
    (hmodule : module ∈ captured.publication.instances.llvm.modules) :
    collector.Disassembled captured.directory captured.collected module := by
  obtain ⟨-, hdistinct, -, -⟩ := collector.decoded_distinct h.read
  obtain ⟨-, -, -, hllvm⟩ := collector.into_manifest_ok h.durable
  rw [hllvm] at hmodule
  exact (collector.collect_leaves h.separate h.collect hdistinct).2 module hmodule

end Captured

namespace fixture

open launch.fixture

theorem located (name : String) : ((⟨"/attempt"⟩ : PathBuf).join name).text = "/attempt/" ++ name := by
  have hcondition : ("/attempt" = "" || (rust.text "/attempt").getLast? = some (ascii '/')) = false := by decide
  rw [PathBuf.join, hcondition]
  rfl

theorem disassembled_other {path : String} (files : collector.Files) {other : PathBuf} (h : other.text ≠ path) :
    (disassembled path files).symlink_metadata other = files.symlink_metadata other :=
  if_neg h

theorem separate : collector.Separate system collector.fixture.identity ⟨"/attempt"⟩ where
  version _ _ := rfl
  disassembler _ _ := rfl
  artifacts files _ artifact other h := by
    have hother : (⟨"/attempt"⟩ : PathBuf).join artifact.file_name ≠ (⟨"/attempt"⟩ : PathBuf).join other.file_name := by
      intro heq
      have htext := congrArg PathBuf.text heq
      rw [located, located] at htext
      exact h ((String.append_right_inj "/attempt/").mp htext)
    exact disassembled_other files fun heq => hother (congrArg PathBuf.mk heq)

/-- The workspace in which the capture is published. -/
def start : Tree := fun path =>
  if path = [] ∨ path = launch.fixture.attempt then some .dir
  else if path = launch.fixture.attempt.join "artifact-0000000000000000" then some (.file (text "pub fn answer()"))
  else if path = launch.fixture.attempt.join "artifact-0000000000000001" then some (.file assembly)
  else none

theorem builds_source : build processes before (launch.fixture.attempt.join "artifact-0000000000000000") =
    some (.file (text "pub fn answer()")) := by
  decide +kernel

/-- An artifact that the build leaves is the source. -/
theorem files_artifact {artifact : ArtifactRecord} {file : collector.RegularFile}
    (h : files.symlink_metadata ((⟨"/attempt"⟩ : PathBuf).join artifact.file_name) = .ok (.file file)) :
    artifact.file_name = "artifact-0000000000000000" ∧ file.bytes = text "pub fn answer()" := by
  have hmodule : artifact.file_name ≠ "llvm/fixture.0.bc" := artifact.file_name_ne (by decide)
  have hlocated := located artifact.file_name
  rw [files] at h
  dsimp only at h
  rw [hlocated] at h
  split at h
  · next hname =>
    cases h
    exact ⟨(String.append_right_inj "/attempt/").mp hname, rfl⟩
  · split at h
    · next hname => exact absurd ((String.append_right_inj "/attempt/").mp hname) hmodule
    · cases h

theorem views_built : Views files ⟨"/attempt"⟩ (build processes before) launch.fixture.attempt := by
  intro artifact file h
  obtain ⟨hname, hbytes⟩ := files_artifact h
  rw [hname, hbytes, builds_source]

theorem views_collected : Views collected ⟨"/attempt"⟩ start launch.fixture.attempt := by
  intro artifact file h
  rw [collected, disassembled] at h
  dsimp only at h
  rw [located] at h
  split at h
  · next hname =>
    have hname : artifact.file_name = "artifact-0000000000000001" := (String.append_right_inj "/attempt/").mp hname
    cases h
    rw [hname]
    rfl
  · obtain ⟨hname, hbytes⟩ := files_artifact h
    rw [hname, hbytes]
    rfl

theorem unopened : Store.Unopened ⟨[]⟩ start := by
  refine ⟨.inl (by decide), fun path hpath => ?_⟩
  obtain ⟨rest, rfl⟩ := hpath
  rfl

theorem initializable : Store.Initializable ⟨[]⟩ start where
  workspace := by decide
  available := by
    unfold Available
    decide
  ignored := by decide

theorem completed_free : start (Store.completed ⟨[]⟩ library_capture.id) = none := by
  decide

theorem staging_free : start (Store.staging ⟨[]⟩ library_capture.id) = none := by
  decide

theorem directory_there : Store.reserved ⟨[]⟩ start library_capture.id launch.fixture.attempt = some .dir := by
  decide

theorem pointer_replaceable : start (Store.candidate_path ⟨[]⟩ library_capture.analysis.request_key) ≠ some .dir := by
  decide

theorem artifacts_there : ∀ artifact ∈ materialized.artifacts, ∃ bytes,
    start (launch.fixture.attempt.join artifact.file_name) = some (.file bytes) ∧ bytes.length = artifact.byte_len.toNat :=
  List.forall_mem_cons.mpr ⟨⟨text "pub fn answer()", by decide, by decide⟩,
    List.forall_mem_singleton.mpr ⟨assembly, by decide, by decide⟩⟩

/-- The publication of what was collected. -/
def publication (instances : InstanceManifest) : Attempt Unit where
  capture := library_capture
  instances
  artifact_directory := launch.fixture.attempt
  start
  schedule := []

def captured (instances : List InstanceRecord) (evidence : collector.CollectedEvidence) (durable : InstanceManifest) :
    Captured compiler.fixture.schema Nat Unit where
  launch := library
  mode := "collect"
  token := launch.fixture.token
  directory := ⟨"/attempt"⟩
  attempt := launch.fixture.attempt
  processes
  before
  path := ⟨"/attempt/manifest"⟩
  stream
  manifest := ⟨instances, [source], configuration, [collector.fixture.module]⟩
  system
  compiler := collector.fixture.identity
  built := files
  collected
  evidence
  publication := publication durable

theorem chained : ∃ instances evidence durable, (captured instances evidence durable).Chained ∧
    durable.capture_id = library_capture.id ∧ durable.artifacts = materialized.artifacts ∧ durable.llvm = .Collected [record] := by
  obtain ⟨instances, hread⟩ := reads
  obtain ⟨evidence, hartifacts, hllvm, hcollect⟩ := collects instances
  obtain ⟨process, hprocess, -, hdelivered⟩ := builds.delivers.resolve_left (by simp [built])
  obtain ⟨session, observed, hanswers, htells⟩ := hdelivered.tells (faithful process hprocess) built hread
  obtain ⟨arguments, -, hreached⟩ := hanswers.reached
  obtain ⟨haccepted, -⟩ := htells.accepted hreached.supported hread hcollect
  obtain ⟨durable, hdurable⟩ := haccepted library_capture.id
  obtain ⟨hscope, -, hpublished, hcollected⟩ := collector.into_manifest_ok hdurable
  refine ⟨instances, evidence, durable, ?_, hscope, hpublished.trans hartifacts, hcollected.trans hllvm⟩
  exact {
    builds := ⟨canonicalize, _, builds⟩
    faithful
    stream := built
    read := hread
    built := views_built
    separate
    collect := hcollect
    collected := views_collected
    durable := hdurable
    attempt := rfl }

theorem session_of {process : Started Nat} {session : Session Nat} {observed : driver.Configuration} (hprocess : process ∈ processes)
    (h : launch.Answers process launch.fixture.token launch.fixture.attempt session observed) : session = launch.fixture.session := by
  have hexecutable : process.executable = executable := by
    rcases List.mem_cons.mp hprocess with rfl | hprocess
    · rfl
    · obtain rfl := List.mem_singleton.mp hprocess
      rfl
  obtain ⟨arguments, -, options, target, -, -, hsession, -⟩ := h.reached
  rw [hexecutable] at hsession
  exact (Option.some.inj hsession).symm

/-- The function of the session. -/
def told_function : Function :=
  ⟨"fixture.0", ⟨⟨"fixture", "fixture::answer", "fixture::answer", "answer"⟩, true, true, false, ⟨0, 15, false, false⟩⟩,
    answer.data, answer.canonicalize⟩

theorem functions_session : functions launch.fixture.session.partitions = [told_function] := rfl

theorem locates : ∃ located, told_function.locate launch.fixture.session.lookup_source_file library.package_root = .ok located ∧
    located.item = text "pub fn answer()" :=
  ⟨_, rfl, by decide⟩

/-- The first instance of a capture is the function. -/
theorem instance_zero {instances : List InstanceRecord} {evidence : collector.CollectedEvidence} {durable : InstanceManifest}
    (h : (captured instances evidence durable).Chained) :
    ∃ record, durable.instances[(0 : UInt64).toNat]? = some record ∧ instance_key record = told_function.key := by
  have htells := h.tells
  obtain ⟨process, hprocess, session, observed, hanswers, htells⟩ := htells
  obtain rfl := session_of hprocess hanswers
  have hkeys := htells.keys
  rw [functions_session] at hkeys
  have hperm : (durable.instances.map instance_key).Perm [told_function.key] := by
    rw [show durable.instances = instances from h.instances]
    exact (List.perm_ext_iff_of_nodup htells.distinct (List.nodup_singleton _)).mpr hkeys
  obtain ⟨record, hrecord, hkey⟩ := List.map_eq_singleton_iff.mp hperm.eq_singleton
  refine ⟨record, ?_, hkey⟩
  rw [hrecord]
  rfl

/-- The body of the function. -/
def body : LlvmBody := ⟨⟨library_capture.id, ⟨1⟩, function.range⟩, "fixture.0", .NoLtoOptimized, "answer", []⟩

theorem selects {durable : InstanceManifest} {instance_ : InstanceRecord}
    (hinstance : durable.instances[(0 : UInt64).toNat]? = some instance_) (hkey : instance_key instance_ = told_function.key)
    (hllvm : durable.llvm = .Collected [record]) : select_llvm durable ⟨library_capture.id, 0⟩ = .ok (.Available [body]) := by
  have hfound : referenced_instance durable ⟨library_capture.id, 0⟩ = .ok instance_ := by
    rw [referenced_instance, hinstance]
    rfl
  have hsymbol : instance_.raw_symbol = "answer" := congrArg InstanceKey.raw_symbol hkey
  have hbody : resolve_module record "answer" ⟨library_capture.id, 0⟩ = .ok (.Body body) :=
    resolve_module_body_iff.mpr ⟨[], function, .here "answer", List.mem_singleton_self _, rfl, rfl⟩
  have hresolved : resolve_modules "answer" ⟨library_capture.id, 0⟩ [record] = .ok ([body], false) := by
    rw [resolve_modules, hbody]
    rfl
  rw [select_llvm_eq hfound hllvm, hsymbol, hresolved]
  change Except.ok (LlvmEvidence.Available ([body].mergeSort BodyOrder)) = _
  rw [List.mergeSort_singleton]

section

variable {durable : InstanceManifest}

local instance capture_format : Serde (CaptureRecord Unit) := .single library_capture "0"

local instance pointer_format : Serde CandidatePointer := .single (.new library_capture) "0"

theorem history [Serde InstanceManifest] :
    History ⟨[]⟩ [publication durable] ((publication durable).after ⟨[]⟩) :=
  .published (publication durable) (.start unopened)

theorem completed (hscope : durable.capture_id = library_capture.id) (hartifacts : durable.artifacts = materialized.artifacts) :
    @Attempt.completed Unit capture_format (.single durable "0") pointer_format ⟨[]⟩ (publication durable) = true := by
  let format : Serde InstanceManifest := .single durable "0"
  have hpublishable : Publishable ⟨[]⟩ (publication durable) := {
    scope := hscope.symm
    initializable
    new := completed_free
    unstaged := staging_free
    header := ⟨[text "0"], if_pos rfl, by decide⟩
    manifest := ⟨[text "0"], if_pos rfl, by decide⟩
    pointer := ⟨[text "0"], if_pos rfl, by decide⟩
    directory := by
      dsimp only [publication]
      exact directory_there
    artifacts := by
      dsimp only [publication]
      rw [hartifacts]
      exact artifacts_there }
  have hhistory : History ⟨[]⟩ ([] : List (Attempt Unit)) start := .start unopened
  obtain ⟨tree', hcompletes⟩ := publish_completes hpublishable hhistory.tidy pointer_replaceable
  rw [Attempt.completed, hcompletes (publication durable).world rfl rfl]
  rfl

end

end fixture

open Captured

section

variable {M : CargoSchema} {FileId Artifact : Type} [Ord FileId] [Std.TransOrd FileId] [Std.LawfulEqOrd FileId]
  [DecidableEq FileId] [Serde (CaptureRecord Artifact)] [Serde InstanceManifest] [Serde CandidatePointer]
  {captured : Captured M FileId Artifact} {store : Store} {attempts : List (Attempt Artifact)} {tree : Tree}

/-- From rustc to stdout: a capture has the functions that rustc has told, and shows the item of each. -/
theorem source_shown (h : captured.Chained) (hhistory : History store attempts tree) (hmem : captured.publication ∈ attempts)
    (hcompleted : captured.publication.completed store = true) :
    ∃ process ∈ captured.processes, ∃ session observed,
      launch.Answers process captured.token captured.attempt session observed ∧
        (captured.publication.instances.instances.map instance_key).Nodup ∧
        (∀ key, key ∈ captured.publication.instances.instances.map instance_key ↔
          key ∈ (functions session.partitions).map Function.key) ∧
        ∀ (ordinal : UInt64) record, captured.publication.instances.instances[ordinal.toNat]? = some record →
          ∀ function ∈ functions session.partitions, function.key = instance_key record →
            ShowsSource Artifact store tree ⟨captured.publication.capture.id, ordinal⟩
              (function.locate session.lookup_source_file captured.launch.package_root) := by
  obtain ⟨process, hprocess, session, observed, hanswers, htells⟩ := h.tells
  refine ⟨process, hprocess, session, observed, hanswers, h.instances ▸ htells.distinct, fun key => ?_, ?_⟩
  · rw [h.instances, htells.keys]
  intro ordinal record hrecord function hfunction hkey
  have hdecoded := List.mem_of_getElem? hrecord
  rw [h.instances] at hdecoded
  exact h.shows hhistory hmem hcompleted htells.declared hrecord (htells.sources record hdecoded function hfunction hkey)

end

section

attribute [local instance] fixture.capture_format fixture.pointer_format

theorem source_shown_fixture : ∃ (_ : Serde InstanceManifest) (tree : Tree),
    Writes (show_source Unit ⟨[]⟩ ⟨library_capture.id, 0⟩) tree (text "pub fn answer()") := by
  obtain ⟨instances, evidence, durable, hchained, hscope, hartifacts, -⟩ := fixture.chained
  let format : Serde InstanceManifest := .single durable "0"
  obtain ⟨process, hprocess, session, observed, hanswers, -, -, hshows⟩ := source_shown hchained fixture.history
    (List.mem_singleton_self _) (fixture.completed hscope hartifacts)
  obtain rfl := fixture.session_of hprocess hanswers
  obtain ⟨record, hrecord, hkey⟩ := fixture.instance_zero hchained
  obtain ⟨located, hlocated, hitem⟩ := fixture.locates
  have hfunction : fixture.told_function ∈ functions launch.fixture.session.partitions := by
    rw [fixture.functions_session]
    exact List.mem_singleton_self _
  have hshown := hshows 0 record hrecord _ hfunction hkey.symm
  change ShowsSource Unit _ _ _ (fixture.told_function.locate launch.fixture.session.lookup_source_file
    launch.fixture.library.package_root) at hshown
  rw [hlocated] at hshown
  cases hshown with
  | item _ hwhole =>
    rw [hitem] at hwhole
    exact ⟨format, _, hwhole⟩

end

section

variable {M : CargoSchema} {FileId Artifact : Type} [Ord FileId] [Std.TransOrd FileId] [Std.LawfulEqOrd FileId]
  [DecidableEq FileId] [Serde (CaptureRecord Artifact)] [Serde InstanceManifest] [Serde CandidatePointer]
  {captured : Captured M FileId Artifact} {store : Store} {attempts : List (Attempt Artifact)} {tree : Tree}

end

section

attribute [local instance] fixture.capture_format fixture.pointer_format

end

end optic.cli
