import Optic.Compiler.Analysis
import Optic.Compiler.SnapshotsSpec

open rust optic.records optic.compiler optic.compiler.protocol file_system streams wire

namespace file_system

variable {w w' v : World}

theorem create_file_ok {path : Path} (h : create_file path w = (.ok (), w')) : w'.tree = w.tree.set path (.file []) := by
  obtain ⟨tree, hact, htree⟩ := perform_ok h
  cases hentry : w.tree path with
  | none =>
    simp only [hentry] at hact
    split at hact
    · cases hact
    · cases hact
      exact htree
  | some entry =>
    simp only [hentry] at hact
    cases entry with
    | file old =>
      cases hact
      exact htree
    | dir => cases hact
    | other => cases hact

/-- A write that completed goes the same way wherever the path and its parent are the same and nothing fails. -/
theorem write_again {path : Path} {bytes : List UInt8} (h : write path bytes w = (.ok (), w'))
    (hpath : v.tree path = w.tree path) (hparent : v.tree path.dropLast = w.tree path.dropLast) (hcalm : v.schedule = []) :
    ∃ v', write path bytes v = (.ok (), v') ∧ v'.schedule = [] := by
  obtain ⟨⟨⟩, w1, hcreate, -⟩ := Action.bind_eq_ok_iff.mp h
  have hcreated : Runs (create_file path) v.tree 1 (.ok ()) (v.tree.set path (.file [])) := by
    obtain ⟨tree, hact, -⟩ := perform_ok hcreate
    refine Runs.perform ?_
    simp only [hpath, hparent]
    cases hentry : w.tree path with
    | none =>
      simp only [hentry] at hact ⊢
      by_cases hdir : w.tree path.dropLast = some .dir
      · rw [if_neg (not_not.mpr hdir)]
      · rw [if_pos hdir] at hact
        cases hact
    | some entry =>
      simp only [hentry] at hact ⊢
      cases entry with
      | file old => rfl
      | dir => cases hact
      | other => cases hact
  have hwritten : Runs (write path bytes) v.tree (1 + 1) (.ok ()) ((v.tree.set path (.file [])).append path bytes) :=
    hcreated.bind Runs.write_file.map_err
  refine ⟨_, hwritten v rfl fun i _ => ?_, ?_⟩
  · rw [hcalm]
    rfl
  · simp [hcalm]

end file_system

namespace optic.driver

variable {α β γ δ : Type} {directory : Path}

/-- The name that an unfinished manifest has. -/
def unfinished (directory : Path) : Path := directory.join "manifest.tmp"

/-- What an analysis may write before its manifest is finished. -/
def Scratch (directory path : Path) : Prop :=
  path = unfinished directory ∨ path = directory.join "llvm" ∨ ∃ artifact, path = directory.join (snapshot_name artifact)

/-- A process has written a stream, of which the last part may be buffered. A world in which nothing fails has the same
files otherwise. -/
structure Abreast (directory : Path) (process : Process) (w : World) (stream : List UInt8) : Prop where
  written : ∃ written, process.world.tree (unfinished directory) = some (.file written) ∧ written ++ process.buffer = stream
  tree : ∀ path, path ≠ unfinished directory → w.tree path = process.world.tree path
  calm : w.schedule = []

/-- A part of the process does what a program with the whole stream does, and touches its own files only. -/
structure Refines (directory : Path) (pack : α → List UInt8 → β) (p : Run α) (q : List UInt8 → Action Stop β) : Prop where
  within : ∀ process path, ¬ Scratch directory path → (state (p.run process)).world.tree path = process.world.tree path
  abreast : ∀ {process after a w stream}, p.run process = .ok a after → Abreast directory process w stream →
    ∃ w' stream', q stream w = (.ok (pack a stream'), w') ∧ Abreast directory after w' stream'

/-- A part of the process does what a program without the stream does. -/
structure Beside (directory : Path) (p : Run α) (q : Action Stop α) : Prop where
  within : ∀ process path, ¬ Scratch directory path → (state (p.run process)).world.tree path = process.world.tree path
  abreast : ∀ {process after a w stream}, p.run process = .ok a after → Abreast directory process w stream →
    ∃ w', q w = (.ok a, w') ∧ Abreast directory after w' stream

/-- A value that some run of a part ends with. -/
def Returns (p : Run α) (a : α) : Prop := ∃ process after, p.run process = .ok a after

theorem within_bind {p : Run α} {f : α → Run β}
    (hp : ∀ process path, ¬ Scratch directory path → (state (p.run process)).world.tree path = process.world.tree path)
    (hf : ∀ a, Returns p a → ∀ process path, ¬ Scratch directory path →
      (state ((f a).run process)).world.tree path = process.world.tree path)
    (process : Process) (path : Path) (h : ¬ Scratch directory path) :
    (state ((p >>= f).run process)).world.tree path = process.world.tree path := by
  have hfirst := hp process path h
  rw [state_bind]
  cases hrun : p.run process with
  | ok a mid =>
    rw [hrun] at hfirst
    exact (hf a ⟨process, mid, hrun⟩ mid path h).trans hfirst
  | error stop mid =>
    rw [hrun] at hfirst
    exact hfirst

namespace Refines

variable {pack : α → List UInt8 → γ} {pack' : β → List UInt8 → δ}

theorem pure {a : α} : Refines directory pack (Pure.pure a : Run α) fun stream => Pure.pure (pack a stream) where
  within _ _ _ := rfl
  abreast h habreast := by
    cases h
    exact ⟨_, _, rfl, habreast⟩

theorem throw {stop : Stop} {q : List UInt8 → Action Stop γ} : Refines directory pack (throw stop : Run α) q where
  within _ _ _ := rfl
  abreast h _ := by cases h

theorem bind {p : Run α} {f : α → Run β} {q : List UInt8 → Action Stop γ} {g : γ → Action Stop δ}
    (hp : Refines directory pack p q)
    (hf : ∀ a, Returns p a → Refines directory pack' (f a) fun stream => g (pack a stream)) :
    Refines directory pack' (p >>= f) fun stream => q stream >>= g where
  within := within_bind hp.within fun a ha => (hf a ha).within
  abreast h habreast := by
    obtain ⟨a, mid, hfirst, hrest⟩ := bind_ok_iff.mp h
    obtain ⟨w1, stream1, hq, habreast1⟩ := hp.abreast hfirst habreast
    obtain ⟨w2, stream2, hg, habreast2⟩ := (hf a ⟨_, _, hfirst⟩).abreast hrest habreast1
    exact ⟨w2, stream2, Action.bind_eq_ok_iff.mpr ⟨_, w1, hq, hg⟩, habreast2⟩

end Refines

theorem Beside.bind {pack : β → List UInt8 → δ} {p : Run α} {f : α → Run β} {q : Action Stop α}
    {g : α → List UInt8 → Action Stop δ} (hp : Beside directory p q) (hf : ∀ a, Refines directory pack (f a) (g a)) :
    Refines directory pack (p >>= f) fun stream => q >>= fun a => g a stream where
  within := within_bind hp.within fun a _ => (hf a).within
  abreast h habreast := by
    obtain ⟨a, mid, hfirst, hrest⟩ := bind_ok_iff.mp h
    obtain ⟨w1, hq, habreast1⟩ := hp.abreast hfirst habreast
    obtain ⟨w2, stream2, hg, habreast2⟩ := (hf a).abreast hrest habreast1
    exact ⟨w2, stream2, Action.bind_eq_ok_iff.mpr ⟨_, w1, hq, hg⟩, habreast2⟩

theorem check_beside {result : Except Stop Unit} : Beside directory (check result) (.lift result) where
  within process path _ := by
    cases result <;> rfl
  abreast h habreast := by
    cases result with
    | ok => cases h; exact ⟨_, rfl, habreast⟩
    | error stop => cases h

theorem check_ok_iff {ok : Bool} {stop : Stop} {process after : Process} :
    (check (ensure ok stop)).run process = .ok () after ↔ ok = true ∧ process = after := by
  cases ok with
  | true =>
    change EStateM.Result.ok () process = _ ↔ _
    simp
  | false =>
    change EStateM.Result.error stop process = _ ↔ _
    simp

theorem file_within {p : Action IoError α} (h : Within (Scratch directory) p) (process : Process) (path : Path)
    (hpath : ¬ Scratch directory path) : (state ((file p).run process)).world.tree path = process.world.tree path := by
  have htree := h process.world path hpath
  change (state (file p process)).world.tree path = _
  unfold file
  rcases hrun : p process.world with ⟨source | a, world⟩ <;> rw [hrun] at htree <;> exact htree

theorem file_of_ok {p : Action IoError α} {a : α} {process : Process} {world : World} (h : p process.world = (.ok a, world)) :
    (file p).run process = .ok a { process with world } := by
  change file p process = _
  rw [file, h]

theorem file_of_error {p : Action IoError α} {source : IoError} {process : Process} {world : World}
    (h : p process.world = (.error source, world)) : (file p).run process = .error (.filesystem source) { process with world } := by
  change file p process = _
  rw [file, h]

theorem file_ok {p : Action IoError α} {a : α} {process after : Process} (h : (file p).run process = .ok a after) :
    p process.world = (.ok a, after.world) ∧ after.buffer = process.buffer := by
  change file p process = _ at h
  unfold file at h
  rcases hrun : p process.world with ⟨source | b, world⟩ <;> rw [hrun] at h <;> cases h
  exact ⟨rfl, rfl⟩

theorem snapshot_name_front (artifact : UInt64) : (snapshot_name artifact).toList.head? = some 'a' := by
  rw [snapshot_name, String.toList_append]
  rfl

theorem snapshot_ne {name : String} (artifact : UInt64) (h : name.toList.head? ≠ some 'a') :
    directory.join (snapshot_name artifact) ≠ directory.join name := by
  intro heq
  have hname : snapshot_name artifact = name := by
    simpa using (join_inj.mp heq).2
  exact h (hname ▸ snapshot_name_front artifact)

theorem join_ne_self (path : Path) (name : OsString) : path.join name ≠ path := by
  intro h
  have hlength := congrArg List.length h
  simp [Path.join] at hlength

theorem unfinished_scratch : Scratch directory (unfinished directory) := .inl rfl

theorem manifest_not_scratch : ¬ Scratch directory (directory.join "manifest") := by
  rintro (h | h | ⟨artifact, h⟩)
  · exact absurd (join_inj.mp h).2 (by decide)
  · exact absurd (join_inj.mp h).2 (by decide)
  · exact snapshot_ne artifact (by decide) h.symm

/-- A snapshot is written as it is where nothing fails. -/
theorem snapshot_beside {artifact : UInt64} {bytes : List UInt8} :
    Beside directory (file (file_system.write (directory.join (snapshot_name artifact)) bytes))
      (.map_err .filesystem (file_system.write (directory.join (snapshot_name artifact)) bytes)) where
  within := file_within (.write bytes (.inr (.inr ⟨artifact, rfl⟩)))
  abreast {process after a w stream} h habreast := by
    have hne : directory.join (snapshot_name artifact) ≠ unfinished directory := snapshot_ne artifact (by decide)
    have hparent : (directory.join (snapshot_name artifact)).dropLast = directory := List.dropLast_concat
    obtain ⟨hwrite, hbuffer⟩ := file_ok h
    obtain ⟨w', hagain, hcalm⟩ := write_again hwrite (habreast.tree _ hne)
      (by rw [hparent]; exact habreast.tree _ (join_ne_self directory _).symm) habreast.calm
    obtain ⟨hpath, hothers⟩ := write_ok hwrite
    obtain ⟨hpath', hothers'⟩ := write_ok hagain
    refine ⟨w', Action.map_err_eq_ok_iff.mpr hagain, ?_, fun path hpath'' => ?_, hcalm⟩
    · rw [hbuffer, hothers _ hne.symm]
      exact habreast.written
    · by_cases hsame : path = directory.join (snapshot_name artifact)
      · rw [hsame, hpath, hpath']
      · rw [hothers _ hsame, hothers' _ hsame, habreast.tree _ hpath'']

namespace manifest.ManifestWriter

variable {self : ManifestWriter} (htemporary : self.temporary_path = unfinished directory)

theorem push_within (content : List UInt8) (process : Process) (path : Path) :
    (state ((push content).run process)).world.tree path = process.world.tree path := rfl

theorem push_ok {process after : Process} {w : World} {stream content : List UInt8}
    (h : (push content).run process = .ok () after) (habreast : Abreast directory process w stream) :
    Abreast directory after w (stream ++ content) := by
  obtain ⟨written, hfile, hstream⟩ := habreast.written
  cases h
  exact ⟨⟨written, hfile, by rw [← hstream, List.append_assoc]⟩, habreast.tree, habreast.calm⟩

include htemporary

/-- An append to the file, with nothing that is buffered before it. -/
theorem append_abreast {process after : Process} {w : World} {stream rest content : List UInt8}
    (h : Abreast directory process w stream) (hbuffer : process.buffer = content)
    (htree : after.world.tree = process.world.tree.append self.temporary_path (content ++ rest)) (hempty : after.buffer = []) :
    Abreast directory after w (stream ++ rest) := by
  obtain ⟨written, hfile, hstream⟩ := h.written
  rw [htemporary] at htree
  refine ⟨⟨written ++ (content ++ rest), ?_, ?_⟩, fun path hpath => ?_, h.calm⟩
  · rw [htree, Tree.append_file _ hfile]
  · rw [hempty, List.append_nil, ← hstream, hbuffer, List.append_assoc]
  · rw [htree, Tree.append_other _ hpath, h.tree path hpath]

theorem flush_within (process : Process) (path : Path) (h : ¬ Scratch directory path) :
    (state (self.flush.run process)).world.tree path = process.world.tree path := by
  have htree := Within.write_file (s := Scratch directory) process.buffer (htemporary ▸ unfinished_scratch) process.world path h
  change (state (self.flush process)).world.tree path = _
  unfold flush
  split
  · rfl
  · rcases hrun : write_file self.temporary_path process.buffer process.world with ⟨⟨source, written⟩ | _, world⟩ <;>
      rw [hrun] at htree <;> exact htree

theorem flush_ok {process after : Process} {w : World} {stream : List UInt8} (h : self.flush.run process = .ok () after)
    (habreast : Abreast directory process w stream) : Abreast directory after w stream ∧ after.buffer = [] := by
  change self.flush process = _ at h
  unfold flush at h
  by_cases hempty : process.buffer = []
  · rw [if_pos hempty] at h
    cases h
    exact ⟨habreast, hempty⟩
  · rw [if_neg hempty] at h
    rcases hrun : write_file self.temporary_path process.buffer process.world with ⟨⟨source, written⟩ | _, world⟩ <;>
      rw [hrun] at h <;> cases h
    have hflushed : Abreast directory { world } w (stream ++ []) :=
      append_abreast htemporary habreast rfl (by rw [List.append_nil]; exact write_file_ok hrun) rfl
    exact ⟨List.append_nil stream ▸ hflushed, rfl⟩

theorem write_through_within (content : List UInt8) (process : Process) (path : Path) (h : ¬ Scratch directory path) :
    (state ((self.write_through content).run process)).world.tree path = process.world.tree path := by
  unfold write_through
  split
  · exact file_within (.write_all content (htemporary ▸ unfinished_scratch)) process path h
  · exact push_within content process path

/-- What is passed on directly is behind everything in the file. -/
theorem write_through_ok {process after : Process} {w : World} {stream content : List UInt8}
    (h : (self.write_through content).run process = .ok () after) (habreast : Abreast directory process w stream)
    (hempty : content.length ≥ BUFFER_CAPACITY → process.buffer = []) : Abreast directory after w (stream ++ content) := by
  unfold write_through at h
  by_cases hlong : content.length ≥ BUFFER_CAPACITY
  · rw [if_pos hlong] at h
    obtain ⟨hwrite, hbuffer⟩ := file_ok h
    have hwritten := write_file_ok (Action.map_err_eq_ok_iff.mp hwrite)
    exact append_abreast htemporary habreast (hempty hlong) hwritten (hbuffer.trans (hempty hlong))
  · rw [if_neg hlong] at h
    exact push_ok h habreast

theorem write_bytes_refines (content : List UInt8) :
    Refines directory (fun _ stream => stream) (self.write_bytes content) fun stream => pure (stream ++ content) where
  within := by
    refine within_bind (fun _ _ _ => rfl) fun before _ => ?_
    split
    · exact fun process path _ => push_within content process path
    · split
      · exact within_bind (flush_within htemporary) fun _ _ => write_through_within htemporary content
      · exact write_through_within htemporary content
  abreast {process after _ w stream} h habreast := by
    obtain ⟨before, mid, hget, h⟩ := bind_ok_iff.mp h
    cases hget
    refine ⟨w, stream ++ content, rfl, ?_⟩
    by_cases hfits : content.length < BUFFER_CAPACITY - process.buffer.length
    · rw [if_pos hfits] at h
      exact push_ok h habreast
    · rw [if_neg hfits] at h
      by_cases hlong : content.length > BUFFER_CAPACITY - process.buffer.length
      · rw [if_pos hlong] at h
        obtain ⟨_, mid, hflush, h⟩ := bind_ok_iff.mp h
        obtain ⟨hflushed, hempty⟩ := flush_ok htemporary hflush habreast
        exact write_through_ok htemporary h hflushed fun _ => hempty
      · rw [if_neg hlong] at h
        refine write_through_ok htemporary h habreast fun hcapacity => List.length_eq_zero_iff.mp ?_
        have hpositive : 0 < BUFFER_CAPACITY := by decide
        omega

omit htemporary in
theorem write_bind (first second : driver.ManifestWriter) :
    write (first >>= fun _ => second) = fun stream => write first stream >>= write second := by
  funext stream w
  have hrun : (first >>= fun _ => second).run stream = first.run stream >>= fun out => second.run out.2 := rfl
  cases hfirst : first.run stream with
  | error failure =>
    rw [hfirst] at hrun
    simp only [write, hrun, hfirst, Action.bind_apply, Action.lift_apply]
    rfl
  | ok out =>
    rw [hfirst] at hrun
    simp only [write, hrun, hfirst, Action.bind_apply, Action.lift_apply]
    rfl

omit htemporary in
/-- What a writer spells into one stream, a part of the process streams to the file. -/
def Streams (directory : Path) (p : Run Unit) (writer : driver.ManifestWriter) : Prop :=
  Refines directory (fun _ stream => stream) p (write writer)

omit htemporary in
theorem Streams.seq {p next : Run Unit} {writer rest : driver.ManifestWriter} (h : Streams directory p writer)
    (hnext : Streams directory next rest) : Streams directory (p >>= fun _ => next) (writer >>= fun _ => rest) := by
  rw [Streams, write_bind]
  exact Refines.bind h fun _ _ => hnext

omit htemporary in
theorem Streams.check {ok : Bool} {failure : Failure} :
    Streams directory (driver.check (ensure ok (.manifest failure))) (Encoder.check ok failure) := by
  cases ok with
  | true => exact Refines.pure (a := ())
  | false => exact Refines.throw

omit htemporary in
theorem Streams.throw {failure : Failure} {writer : driver.ManifestWriter} :
    Streams directory (throw (.manifest failure)) writer := Refines.throw

theorem write_bytes_streams (content : List UInt8) :
    Streams directory (self.write_bytes content) (driver.ManifestWriter.write_bytes content) := write_bytes_refines htemporary content

theorem write_u32_streams (value : UInt32) : Streams directory (self.write_u32 value) (driver.ManifestWriter.write_u32 value) :=
  write_bytes_streams htemporary _

theorem write_u64_streams (value : UInt64) : Streams directory (self.write_u64 value) (driver.ManifestWriter.write_u64 value) :=
  write_bytes_streams htemporary _

theorem write_string_streams (value : String) :
    Streams directory (self.write_string value) (driver.ManifestWriter.write_string value) :=
  .seq .check (.seq (write_u32_streams htemporary _) (write_bytes_streams htemporary _))

theorem write_path_streams (path : OsString) (message : String) :
    Streams directory (self.write_path path message) (driver.ManifestWriter.write_path path message) := by
  cases path with
  | utf8 path => exact write_string_streams htemporary path
  | other bytes invalid => exact .throw

theorem write_source_streams (source : Source) :
    Streams directory (self.write_source source) (driver.ManifestWriter.write_source source) := by
  cases source with
  | Available span =>
    refine .seq (write_u32_streams htemporary _) (.seq (write_u64_streams htemporary _) ?_)
    refine .seq (write_u64_streams htemporary _) (.seq (write_u64_streams htemporary _) ?_)
    exact .seq (write_path_streams htemporary _ _) (write_u64_streams htemporary _)
  | Unavailable reason known => exact write_u32_streams htemporary reason

theorem write_placement_streams (instance_ : ConcreteInstance) (codegen_unit : String) (placement : MonoItemData)
    (source : Source) : Streams directory (self.write_placement instance_ codegen_unit placement source)
      (driver.ManifestWriter.write_placement instance_ codegen_unit placement source) := by
  refine .seq (write_u32_streams htemporary _) (.seq (write_string_streams htemporary _) ?_)
  refine .seq (write_string_streams htemporary _) (.seq (write_string_streams htemporary _) ?_)
  refine .seq (write_string_streams htemporary _) (.seq (write_string_streams htemporary _) ?_)
  refine .seq (write_string_streams htemporary _) (.seq (write_string_streams htemporary _) ?_)
  refine .seq (write_u32_streams htemporary _) (.seq (write_u64_streams htemporary _) ?_)
  exact write_source_streams htemporary source

theorem write_configuration_streams (configuration : Configuration) :
    Streams directory (self.write_configuration configuration) (driver.ManifestWriter.write_configuration configuration) := by
  refine .seq (write_u32_streams htemporary _) (.seq (write_string_streams htemporary _) ?_)
  refine .seq (write_string_streams htemporary _) (.seq (write_string_streams htemporary _) ?_)
  refine .seq (write_u32_streams htemporary _) (.seq (write_u32_streams htemporary _) ?_)
  refine .seq (write_u32_streams htemporary _) (.seq (write_u32_streams htemporary _) ?_)
  exact .seq (write_u32_streams htemporary _) (write_u32_streams htemporary _)

theorem write_source_file_streams (id length : UInt64) :
    Streams directory (self.write_source_file id length) (driver.ManifestWriter.write_source_file id length) :=
  .seq (write_u32_streams htemporary _) (.seq (write_u64_streams htemporary _) (write_u64_streams htemporary _))

theorem write_module_streams (name : String) (path : OsString) :
    Streams directory (self.write_module name path) (driver.ManifestWriter.write_module name path) :=
  .seq (write_u32_streams htemporary _) (.seq (write_string_streams htemporary _) (write_path_streams htemporary _ _))

end manifest.ManifestWriter

namespace analysis

open manifest.ManifestWriter

variable {FileId : Type} [Ord FileId] {manifest : manifest.ManifestWriter}
  (htemporary : manifest.temporary_path = unfinished directory) {lookup_source_file : UInt32 → SourceFile FileId}

/-- Behind the snapshots. -/
abbrev packed {α : Type} (found : α × Snapshots FileId) (stream : List UInt8) : α × Snapshots FileId × List UInt8 :=
  (found.1, found.2, stream)

include htemporary

theorem capture_file_refines (sources : Snapshots FileId) (hdirectory : sources.directory = directory) (file_id : FileId)
    (content : String) : Refines directory packed (capture_file manifest sources file_id content)
      (sources.capture_file file_id content) := by
  unfold capture_file Snapshots.capture_file
  cases sources.files[file_id]? with
  | some artifact => exact Refines.pure
  | none =>
    rw [hdirectory]
    refine Beside.bind check_beside fun _ => Beside.bind snapshot_beside fun _ => ?_
    exact Refines.bind (write_source_file_streams htemporary _ _) fun _ _ => Refines.pure

omit htemporary in
theorem capture_file_returns {sources next : Snapshots FileId} {file_id : FileId} {content : String} {artifact : UInt64}
    (h : Returns (capture_file manifest sources file_id content) (artifact, next)) :
    next.directory = sources.directory ∧ next.package_root = sources.package_root := by
  obtain ⟨process, after, hrun⟩ := h
  unfold capture_file at hrun
  cases hknown : sources.files[file_id]? with
  | some known =>
    rw [hknown] at hrun
    cases hrun
    exact ⟨rfl, rfl⟩
  | none =>
    rw [hknown] at hrun
    obtain ⟨_, _, -, hrun⟩ := bind_ok_iff.mp hrun
    obtain ⟨_, _, -, hrun⟩ := bind_ok_iff.mp hrun
    obtain ⟨_, _, -, hrun⟩ := bind_ok_iff.mp hrun
    cases hrun
    exact ⟨rfl, rfl⟩

theorem capture_refines (sources : Snapshots FileId) (hdirectory : sources.directory = directory)
    (canonicalize : OsString → Option OsString) (instance_ : Instance) :
    Refines directory packed (capture manifest lookup_source_file sources canonicalize instance_)
      (sources.capture lookup_source_file canonicalize instance_) := by
  unfold capture Snapshots.capture
  cases Snapshots.locate lookup_source_file canonicalize sources.package_root instance_ with
  | error unavailable => exact Refines.pure
  | ok located =>
    exact Refines.bind (capture_file_refines htemporary sources hdirectory _ _) fun _ _ => Refines.pure

omit htemporary in
theorem capture_returns {sources next : Snapshots FileId} {canonicalize : OsString → Option OsString} {instance_ : Instance}
    {source : Source} (h : Returns (capture manifest lookup_source_file sources canonicalize instance_) (source, next)) :
    next.directory = sources.directory := by
  obtain ⟨process, after, hrun⟩ := h
  unfold capture at hrun
  cases hlocated : Snapshots.locate lookup_source_file canonicalize sources.package_root instance_ with
  | error unavailable =>
    rw [hlocated] at hrun
    cases hrun
    rfl
  | ok located =>
    rw [hlocated] at hrun
    obtain ⟨⟨artifact, captured⟩, mid, hcapture, hrun⟩ := bind_ok_iff.mp hrun
    cases hrun
    exact (capture_file_returns ⟨_, _, hcapture⟩).1

/-- The snapshots and the stream of a collection. -/
abbrev collected (sources : Snapshots FileId) (stream : List UInt8) : Snapshots FileId × List UInt8 := (sources, stream)

theorem write_function_placements_refines (codegen_unit : String) : ∀ (items : List Item) (sources : Snapshots FileId),
    sources.directory = directory →
    Refines directory collected (write_function_placements manifest lookup_source_file codegen_unit items sources)
      (driver.write_function_placements lookup_source_file codegen_unit items sources)
  | [], sources, _ => Refines.pure
  | item :: items, sources, hdirectory => by
    change Refines directory collected _ fun stream =>
      driver.write_function_placements lookup_source_file codegen_unit (item :: items) sources stream
    unfold write_function_placements driver.write_function_placements
    cases item.mono_item with
    | Fn instance_ =>
      refine Refines.bind (capture_refines htemporary sources hdirectory _ _) fun found hfound => ?_
      refine Refines.bind (write_placement_streams htemporary _ _ _ _) fun _ _ => ?_
      exact write_function_placements_refines codegen_unit items found.2 ((capture_returns hfound).trans hdirectory)
    | Static => exact write_function_placements_refines codegen_unit items sources hdirectory
    | GlobalAsm => exact write_function_placements_refines codegen_unit items sources hdirectory

omit htemporary in
theorem write_function_placements_returns {codegen_unit : String} : ∀ (items : List Item) {sources next : Snapshots FileId},
    Returns (write_function_placements manifest lookup_source_file codegen_unit items sources) next →
    next.directory = sources.directory
  | [], sources, next, ⟨_, _, hrun⟩ => by
    cases hrun
    rfl
  | item :: items, sources, next, ⟨process, after, hrun⟩ => by
    unfold write_function_placements at hrun
    cases hitem : item.mono_item with
    | Fn instance_ =>
      rw [hitem] at hrun
      obtain ⟨⟨source, captured⟩, mid, hcapture, hrun⟩ := bind_ok_iff.mp hrun
      obtain ⟨_, placed, -, hrun⟩ := bind_ok_iff.mp hrun
      exact (write_function_placements_returns items ⟨_, _, hrun⟩).trans (capture_returns ⟨_, _, hcapture⟩)
    | Static =>
      rw [hitem] at hrun
      exact write_function_placements_returns items ⟨_, _, hrun⟩
    | GlobalAsm =>
      rw [hitem] at hrun
      exact write_function_placements_returns items ⟨_, _, hrun⟩

theorem write_expected_module_refines (configuration : Configuration) (codegen_unit : CodegenUnit) :
    Refines directory (fun _ stream => stream) (write_expected_module manifest configuration codegen_unit)
      (driver.write_expected_module configuration codegen_unit) := by
  unfold write_expected_module driver.write_expected_module
  cases configuration.extension with
  | none => exact Refines.pure
  | some extension => exact write_module_streams htemporary _ _

theorem write_codegen_units_refines (configuration : Configuration) : ∀ (codegen_units : List CodegenUnit)
    (sources : Snapshots FileId), sources.directory = directory →
    Refines directory collected (write_codegen_units manifest lookup_source_file configuration codegen_units sources)
      (driver.write_codegen_units lookup_source_file configuration codegen_units sources)
  | [], sources, _ => Refines.pure
  | codegen_unit :: codegen_units, sources, hdirectory => by
    change Refines directory collected _ fun stream =>
      driver.write_codegen_units lookup_source_file configuration (codegen_unit :: codegen_units) sources stream
    unfold write_codegen_units driver.write_codegen_units
    refine Refines.bind (write_expected_module_refines htemporary configuration codegen_unit) fun _ _ => ?_
    refine Refines.bind (write_function_placements_refines htemporary _ _ sources hdirectory) fun placed hplaced => ?_
    exact write_codegen_units_refines configuration codegen_units placed
      ((write_function_placements_returns _ hplaced).trans hdirectory)

/-- What a collection writes behind the header. -/
def body (lookup_source_file : UInt32 → SourceFile FileId) (configuration : Configuration) (codegen_units : List CodegenUnit)
    (sources : Snapshots FileId) (stream : List UInt8) : Action Stop (Snapshots FileId × List UInt8) := do
  let stream ← write (driver.ManifestWriter.write_configuration configuration) stream
  driver.write_codegen_units lookup_source_file configuration codegen_units sources stream

theorem collect_within {package_root : OsString} (configuration : Except Stop UInt32) (options : Options)
    (session : Session FileId) (process : Process) (path : Path) (h : ¬ Scratch directory path) :
    (state ((collect manifest directory package_root configuration options session).run process)).world.tree path =
      process.world.tree path := by
  unfold collect
  cases configuration with
  | error stop => rfl
  | ok unsupported =>
    cases hobserved : Configuration.observed options session unsupported with
    | error stop =>
      simp only [hobserved]
      rfl
    | ok configuration =>
      simp only [hobserved]
      refine within_bind (write_configuration_streams htemporary configuration).within (fun _ _ => ?_) process path h
      exact within_bind (write_codegen_units_refines htemporary configuration session.partitions _ rfl).within fun _ _ _ _ _ => rfl

/-- A collection that gets through has written all of the stream. -/
theorem collect_ok {package_root : OsString} {configuration : Except Stop UInt32} {options : Options}
    {session : Session FileId} {process after : Process} {w : World} {stream : List UInt8}
    (h : (collect manifest directory package_root configuration options session).run process = .ok () after)
    (habreast : Abreast directory process w stream) :
    ∃ unsupported observed sources stream' w', configuration = .ok unsupported ∧
      Configuration.observed options session unsupported = .ok observed ∧
      body session.lookup_source_file observed session.partitions (.new directory package_root) stream w =
        (.ok (sources, stream'), w') ∧ Abreast directory after w' stream' := by
  unfold collect at h
  cases configuration with
  | error stop => cases h
  | ok unsupported =>
    cases hobserved : Configuration.observed options session unsupported with
    | error stop =>
      simp only [hobserved] at h
      cases h
    | ok observed =>
      simp only [hobserved] at h
      obtain ⟨_, mid, hconfiguration, h⟩ := bind_ok_iff.mp h
      obtain ⟨sources, last, hunits, h⟩ := bind_ok_iff.mp h
      cases h
      obtain ⟨w1, stream1, hwritten, habreast1⟩ :=
        (write_configuration_streams htemporary observed).abreast hconfiguration habreast
      obtain ⟨w2, stream2, hcollected, habreast2⟩ :=
        (write_codegen_units_refines htemporary observed session.partitions _ rfl).abreast hunits habreast1
      exact ⟨unsupported, observed, sources, stream2, w2, rfl, hobserved,
        Action.bind_eq_ok_iff.mpr ⟨stream1, w1, hwritten, hcollected⟩, habreast2⟩

end analysis

end optic.driver
