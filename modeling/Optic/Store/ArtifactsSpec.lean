import Optic.Store.Artifacts
import Optic.Store.CapturesSpec

open rust file_system optic.records

namespace optic.store

variable {w w' : World} {tree : Tree}

theorem copy_bytes_within {s : Path → Prop} {path : Path} {write : List UInt8 → Action Error Unit}
    (hwrite : ∀ buffer, Within s (write buffer)) (rest : List UInt8) (remaining : Nat) :
    Within s (copy_bytes path write rest remaining) := by
  induction remaining using Nat.strongRecOn generalizing rest with
  | ind remaining ih =>
    rw [copy_bytes]
    split
    · next hmore =>
      refine .bind (.map_err .read) fun buffer => .bind (hwrite buffer) fun _ => ih _ ?_ _
      have hpositive : 0 < COPY_BUFFER_BYTES := by decide
      omega
    · exact .pure

/-- A copy that ends well has passed on the bytes one after the other. -/
theorem copy_bytes_ok {path : Path} {write : List UInt8 → Action Error Unit} {P : List UInt8 → Tree → Prop}
    (hwrite : ∀ done buffer w w', P done w.tree → write buffer w = (.ok (), w') → P (done ++ buffer) w'.tree)
    (rest : List UInt8) (remaining : Nat) : ∀ done w w', P done w.tree →
      copy_bytes path write rest remaining w = (.ok (), w') →
        remaining ≤ rest.length ∧ P (done ++ rest.take remaining) w'.tree := by
  induction remaining using Nat.strongRecOn generalizing rest with
  | ind remaining ih =>
    intro done w w' hdone h
    rw [copy_bytes] at h
    split at h
    · next hmore =>
      obtain ⟨buffer, w1, hread, hstep⟩ := Action.bind_eq_ok_iff.mp h
      obtain ⟨_, w2, hbuffer, hloop⟩ := Action.bind_eq_ok_iff.mp hstep
      obtain ⟨hresult, htree⟩ := read_ok (with_context_eq_ok_iff.mp hread)
      split at hresult
      · next hcount =>
        obtain rfl := Except.ok.inj hresult
        have hless : remaining - min remaining COPY_BUFFER_BYTES < remaining := by
          have hpositive : 0 < COPY_BUFFER_BYTES := by decide
          omega
        obtain ⟨hrest, hwritten⟩ := ih _ hless _ _ _ _ (hwrite done _ _ _ (htree ▸ hdone) hbuffer) hloop
        rw [List.length_drop] at hrest
        refine ⟨by omega, ?_⟩
        rw [List.append_assoc, ← List.take_add] at hwritten
        rwa [Nat.add_sub_cancel' (Nat.min_le_left _ _)] at hwritten
      · cases hresult
    · next hdone' =>
      obtain ⟨-, rfl⟩ := Action.pure_eq_ok_iff.mp h
      obtain rfl : remaining = 0 := by omega
      simpa using hdone

/-- A copy of bytes that are there reaches a sink without bound completely. -/
theorem copy_bytes_sink {path : Path} (rest : List UInt8) (remaining : Nat) (hlength : remaining ≤ rest.length) :
    ∀ w : World, w.schedule = [] → w.sink.capacity = none →
      copy_bytes path (fun buffer => .map_err .WriteEvidence (write_sink buffer)) rest remaining w =
        (.ok (), { w with sink := { w.sink with accepted := w.sink.accepted ++ rest.take remaining } }) := by
  induction remaining using Nat.strongRecOn generalizing rest with
  | ind remaining ih =>
    intro w hschedule hcapacity
    rw [copy_bytes]
    split
    · next hmore =>
      have hcount : min remaining COPY_BUFFER_BYTES ≤ rest.length := Nat.le_trans (Nat.min_le_left _ _) hlength
      have hread : with_context "read artifact" path (read_exact rest (min remaining COPY_BUFFER_BYTES)) w =
          (.ok (rest.take (min remaining COPY_BUFFER_BYTES)), w) := by
        rw [read_exact, if_pos hcount]
        exact (Answers.map_err .read) w rfl hschedule
      rw [Action.bind_of_ok hread]
      have hwrite : Action.map_err Error.WriteEvidence (write_sink (rest.take (min remaining COPY_BUFFER_BYTES))) w =
          (.ok (), { w with sink := { w.sink with
            accepted := w.sink.accepted ++ rest.take (min remaining COPY_BUFFER_BYTES) } }) := by
        simp only [Action.map_err, write_sink, hcapacity]
      have hless : remaining - min remaining COPY_BUFFER_BYTES < remaining := by
        have hpositive : 0 < COPY_BUFFER_BYTES := by decide
        omega
      have hrest : remaining - min remaining COPY_BUFFER_BYTES ≤ (rest.drop (min remaining COPY_BUFFER_BYTES)).length := by
        rw [List.length_drop]
        omega
      rw [Action.bind_of_ok hwrite, ih _ hless _ hrest]
      · rw [List.append_assoc, ← List.take_add, Nat.add_sub_cancel' (Nat.min_le_left _ _)]
      · exact hschedule
      · exact hcapacity
    · obtain rfl : remaining = 0 := by omega
      simp [Action.pure_apply]

theorem copy_artifact_within (source destination : Path) (artifact : ArtifactRecord) :
    Within (· = destination) (copy_artifact source destination artifact) := by
  have hvalidate : Within (· = destination) (validate_artifact_file source artifact) :=
    (validate_artifact_file_read_only source artifact).weaken fun _ => False.elim
  refine .bind hvalidate fun _ => .bind (.map_err (.open_file source)) fun reader => ?_
  refine .bind (.map_err (.create _ rfl)) fun _ => .bind ?_ fun _ => hvalidate
  exact copy_bytes_within (fun buffer => .map_err (.write_all buffer (by rfl))) _ _

/-- A copied artifact has the bytes of its source under a name that was free. -/
theorem copy_artifact_ok {source destination : Path} {artifact : ArtifactRecord}
    (h : copy_artifact source destination artifact w = (.ok (), w')) :
    source ≠ destination ∧ ∃ bytes, w.tree source = some (.file bytes) ∧ bytes.length = artifact.byte_len.toNat ∧
      w'.tree destination = some (.file bytes) := by
  obtain ⟨_, w1, hvalidate, hrun⟩ := Action.bind_eq_ok_iff.mp h
  obtain ⟨reader, w2, hopen, hrun⟩ := Action.bind_eq_ok_iff.mp hrun
  obtain ⟨_, w3, hcreate, hrun⟩ := Action.bind_eq_ok_iff.mp hrun
  obtain ⟨_, w4, hcopy, hrun⟩ := Action.bind_eq_ok_iff.mp hrun
  obtain ⟨htree1, bytes, hsource, hlength⟩ := validate_artifact_file_ok hvalidate
  obtain ⟨hreader, htree2⟩ := open_file_ok (with_context_eq_ok_iff.mp hopen)
  obtain ⟨hfree, -, htree3⟩ := create_ok (with_context_eq_ok_iff.mp hcreate)
  have htree4 : w'.tree = w4.tree := (validate_artifact_file_ok hrun).1
  obtain rfl : bytes = reader := by
    rw [htree1, hsource] at hreader
    simpa using hreader
  have hstart : w3.tree destination = some (.file []) := by rw [htree3, Tree.set_same]
  obtain ⟨-, hcopied⟩ := copy_bytes_ok (P := fun done tree => tree destination = some (.file done))
    (fun done buffer w w' hdone hwrite => by
      rw [write_file_ok (Action.map_err_eq_ok_iff.mp (with_context_eq_ok_iff.mp hwrite))]
      exact Tree.append_file buffer hdone) _ _ [] w3 w4 hstart hcopy
  refine ⟨?_, bytes, hsource, hlength, ?_⟩
  · rintro rfl
    rw [htree2, htree1, hsource] at hfree
    cases hfree
  · rw [htree4, hcopied, List.nil_append, List.take_of_length_le (by omega)]

theorem copy_each_within (input_directory staging : Path) (artifacts : List ArtifactRecord) :
    Within (fun path => ∃ artifact ∈ artifacts, path = staging.join artifact.file_name)
      (copy_each input_directory staging artifacts) := by
  induction artifacts with
  | nil => exact .pure
  | cons artifact artifacts ih =>
    refine .bind ((copy_artifact_within _ _ artifact).weaken ?_) fun _ => ih.weaken ?_
    · rintro _ rfl
      exact ⟨artifact, List.mem_cons_self, rfl⟩
    · rintro _ ⟨other, hother, rfl⟩
      exact ⟨other, List.mem_cons_of_mem artifact hother, rfl⟩

/-- Copied artifacts have the bytes that their sources had before the first copy. -/
theorem copy_each_ok {input_directory staging : Path} {artifacts : List ArtifactRecord}
    (hdistinct : (artifacts.map ArtifactRecord.id).Nodup) : ∀ {w w' : World},
      copy_each input_directory staging artifacts w = (.ok (), w') → ∀ artifact ∈ artifacts,
        input_directory ≠ staging ∧ ∃ bytes, w.tree (input_directory.join artifact.file_name) = some (.file bytes) ∧
          bytes.length = artifact.byte_len.toNat ∧ w'.tree (staging.join artifact.file_name) = some (.file bytes) := by
  induction artifacts with
  | nil => exact nofun
  | cons artifact artifacts ih =>
    intro w w' h
    obtain ⟨_, w1, hcopy, hrest⟩ := Action.bind_eq_ok_iff.mp h
    obtain ⟨hne, bytes, hsource, hlength, hcopied⟩ := copy_artifact_ok hcopy
    have hinput : input_directory ≠ staging := fun heq => hne (by rw [heq])
    rw [List.map_cons, List.nodup_cons] at hdistinct
    rintro other (_ | ⟨_, hother⟩)
    · refine ⟨hinput, bytes, hsource, hlength, ?_⟩
      have hkept := copy_each_within input_directory staging artifacts w1 (staging.join artifact.file_name)
      rw [hrest] at hkept
      rw [hkept, hcopied]
      rintro ⟨later, hlater, heq⟩
      obtain ⟨-, hname⟩ := join_inj.mp heq
      refine hdistinct.1 (List.mem_map.mpr ⟨later, hlater, (ArtifactRecord.file_name_inj ?_).symm⟩)
      simpa using hname
    · obtain ⟨-, bytes, hsource, hlength, hcopied⟩ := ih hdistinct.2 hrest other hother
      refine ⟨hinput, bytes, ?_, hlength, hcopied⟩
      have hkept := copy_artifact_within (input_directory.join artifact.file_name) (staging.join artifact.file_name)
        artifact w (input_directory.join other.file_name) fun heq => hinput (join_inj.mp heq).1
      rw [hcopy] at hkept
      rw [← hkept, hsource]

theorem copy_artifacts_within (input_directory staging : Path) (manifest : InstanceManifest) :
    Within (fun path => ∃ artifact ∈ manifest.artifacts, path = staging.join artifact.file_name)
      (copy_artifacts input_directory staging manifest) := by
  refine .bind (.map_err (.symlink_metadata _)) fun _ => .bind .lift fun _ => ?_
  refine .bind (copy_each_within _ _ _) fun _ => ?_
  exact (validate_artifacts_read_only _ _).weaken fun _ => False.elim

theorem copy_artifacts_ok {input_directory staging : Path} {manifest : InstanceManifest}
    (h : copy_artifacts input_directory staging manifest w = (.ok (), w')) : ∀ artifact ∈ manifest.artifacts,
      input_directory ≠ staging ∧ ∃ bytes, w.tree (input_directory.join artifact.file_name) = some (.file bytes) ∧
        bytes.length = artifact.byte_len.toNat ∧ w'.tree (staging.join artifact.file_name) = some (.file bytes) := by
  obtain ⟨metadata, w1, hmetadata, hrun⟩ := Action.bind_eq_ok_iff.mp h
  obtain ⟨_, w2, hcheck, hrun⟩ := Action.bind_eq_ok_iff.mp hrun
  obtain ⟨_, w3, hcopy, hvalidate⟩ := Action.bind_eq_ok_iff.mp hrun
  obtain ⟨-, htree⟩ := symlink_metadata_ok (with_context_eq_ok_iff.mp hmetadata)
  obtain ⟨-, rfl⟩ := check_eq_ok_iff.mp hcheck
  have hkept := (validate_artifacts_read_only staging manifest.artifacts).tree w3
  rw [hvalidate] at hkept
  rw [hkept, ← htree]
  exact copy_each_ok manifest.consistent.artifacts_distinct hcopy

variable {Artifact : Type} [Serde (CaptureRecord Artifact)] [Serde InstanceManifest] {self : Store}
  {capture : CaptureRecord Artifact} {instances : InstanceManifest} {files : ArtifactRecord → List UInt8}

/-- A range of a declared artifact is copied exactly as it was published. -/
theorem Published.copy_evidence (h : Published tree (self.completed capture.id) capture instances files)
    (hready : self.Ready tree) {artifact : ArtifactRecord} (hartifact : artifact_of instances.artifacts artifact.id = some artifact)
    {range : ByteRange} (hrange : range.end ≤ artifact.byte_len) (w : World) (htree : w.tree = tree)
    (hschedule : w.schedule = []) (hcapacity : w.sink.capacity = none) :
    self.copy_evidence Artifact capture.id artifact.id range w =
      (.ok (), { w with sink := { w.sink with
        accepted := w.sink.accepted ++ ((files artifact).drop range.start.toNat).take range.length.toNat } }) := by
  obtain ⟨hfile, hlength⟩ := h.artifacts artifact (artifact_of_eq_some hartifact).1
  have hfound : Answers (.lift (ok_or (artifact_of instances.artifacts artifact.id)
      (Error.UnknownArtifact capture.id artifact.id))) tree (.ok artifact) := by
    rw [hartifact]
    exact .lift
  have hbound : Answers (check (!decide (range.end > artifact.byte_len))
      (.ArtifactRange artifact.id range.start range.length artifact.byte_len)) tree (.ok ()) :=
    check_answers (by simpa using hrange)
  have hrest : range.length.toNat ≤ ((files artifact).drop range.start.toNat).length := by
    have hend : range.end.toNat ≤ artifact.byte_len.toNat := UInt64.le_iff_toNat_le.mp hrange
    rw [ByteRange.end_toNat] at hend
    rw [List.length_drop]
    omega
  rw [Store.copy_evidence, Action.bind_of_ok (h.read_instances hready w htree hschedule),
    Action.bind_of_ok (hfound w htree hschedule), Action.bind_of_ok (hbound w htree hschedule),
    Action.bind_of_ok (hready.capture_directory h.located w htree hschedule),
    Action.bind_of_ok (with_context_answers (.open_file hfile) w htree hschedule),
    Action.bind_of_ok (with_context_answers .read w htree hschedule)]
  exact copy_bytes_sink _ _ hrest w hschedule hcapacity

end optic.store
