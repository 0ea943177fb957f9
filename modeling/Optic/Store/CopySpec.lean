import Optic.FileSystem.Emits
import Optic.Store.ArtifactsSpec
import Optic.Store.ReadsSpec

open rust file_system optic.records

namespace optic.store

variable {w w' : World} {tree : Tree}

/-- The error of the caller's writer, for the errors that come from it. -/
def Error.refusal : Error → Option IoError
  | .WriteEvidence source => some source
  | _ => none

theorem Error.refusal_of_reading {e : Error} (h : e.is_copy = false) : e.refusal = none := by
  cases e <;> first | rfl | cases h

/-- What a reading program finds decides what is passed on behind it. -/
theorem reading_emits {α β : Type} {p : Action Error α} {f : α → Action Error β} {output : List UInt8} (hp : Reading p)
    (hf : ∀ a w w', w.tree = tree → p w = (.ok a, w') → Emits Error.refusal (f a) tree output) :
    Emits Error.refusal (p >>= f) tree output :=
  .after hp (fun _ => Error.refusal_of_reading) hf

/-- A copy passes on what is left of a file, up to the number of bytes. -/
theorem copy_bytes_emits {path : Path} {write : List UInt8 → Action Error Unit}
    (hwrite : ∀ buffer, Emits Error.refusal (write buffer) tree buffer) (rest : List UInt8) (remaining : Nat) :
    Emits Error.refusal (copy_bytes path write rest remaining) tree (rest.take remaining) := by
  induction remaining using Nat.strongRecOn generalizing rest with
  | ind remaining ih =>
    rw [copy_bytes]
    split
    · next hmore =>
      apply reading_emits (with_context_reading .read)
      intro buffer w w' _ hread
      obtain ⟨hresult, -⟩ := read_ok (with_context_eq_ok_iff.mp hread)
      split at hresult
      · next hcount =>
        obtain rfl := Except.ok.inj hresult
        have hless : remaining - min remaining COPY_BUFFER_BYTES < remaining := by
          have hpositive : 0 < COPY_BUFFER_BYTES := by decide
          omega
        have hpieces : rest.take remaining = rest.take (min remaining COPY_BUFFER_BYTES) ++
            (rest.drop (min remaining COPY_BUFFER_BYTES)).take (remaining - min remaining COPY_BUFFER_BYTES) := by
          rw [← List.take_add, Nat.add_sub_cancel' (Nat.min_le_left _ _)]
        rw [hpieces]
        exact (hwrite _).bind fun _ _ _ _ _ => ih _ hless _
      · cases hresult
    · next hdone =>
      obtain rfl : remaining = 0 := by omega
      exact .pure

theorem copy_bytes_raises {E : Error → Prop} {path : Path} {write : List UInt8 → Action Error Unit}
    (hread : ∀ source, E (.Filesystem "read artifact" path source)) (hwrite : ∀ buffer, Raises E (write buffer))
    (rest : List UInt8) (remaining : Nat) : Raises E (copy_bytes path write rest remaining) := by
  induction remaining using Nat.strongRecOn generalizing rest with
  | ind remaining ih =>
    rw [copy_bytes]
    split
    · next hmore =>
      refine .bind (.map_err hread) fun buffer => .bind (hwrite buffer) fun _ => ih _ ?_ _
      have hpositive : 0 < COPY_BUFFER_BYTES := by decide
      omega
    · exact .pure

/-- The errors of a copy that refuse the artifact or the range. -/
def Error.is_refused : Error → Bool
  | .UnknownArtifact _ _ | .ArtifactRange _ _ _ _ => true
  | _ => false

theorem Error.accepted_of_reading {e : Error} (h : e.is_copy = false) : e.is_refused = false := by
  cases e <;> first | rfl | cases h

variable {Artifact : Type} [Serde (CaptureRecord Artifact)] [Serde InstanceManifest] {self : Store}

/-- A range of an artifact that a manifest declares is never refused while the capture has that manifest. -/
theorem Store.copy_evidence_accepted {manifest : InstanceManifest} {id : CaptureId} {artifact : ArtifactId} {kind : ArtifactKind}
    {range : ByteRange} (hdeclared : Declared manifest.artifacts artifact kind range)
    (hsame : ∀ other w', self.read_instances Artifact id w = (.ok other, w') → other = manifest)
    {error : Error} (h : self.copy_evidence Artifact id artifact range w = (.error error, w')) :
    error.is_refused = false := by
  obtain ⟨record, hrecord, -, hrange⟩ := hdeclared
  rw [Store.copy_evidence] at h
  rcases hrun : self.read_instances Artifact id w with ⟨e | other, w1⟩
  · rw [Action.bind_of_error hrun] at h
    cases h
    exact Error.accepted_of_reading ((read_instances_reading self id).raises w error w' hrun)
  · obtain rfl := hsame other w1 hrun
    have hfound : Action.lift (ok_or (artifact_of other.artifacts artifact) (Error.UnknownArtifact id artifact)) w1 =
        (.ok record, w1) := by
      rw [hrecord]
      rfl
    have hbound : check (!(range.end > record.byte_len)) (.ArtifactRange artifact range.start range.length record.byte_len) w1 =
        (.ok (), w1) := check_eq_ok_iff.mpr ⟨by simpa using hrange, rfl⟩
    rw [Action.bind_of_ok hrun, Action.bind_of_ok hfound, Action.bind_of_ok hbound] at h
    have hrest (directory : Path) : Raises (fun e : Error => e.is_refused = false) (do
        let path := directory.join record.file_name
        let file ← with_context "open artifact" path (open_file path)
        with_context "seek artifact" path (read (.ok ()))
        copy_evidence_bytes (file.drop range.start.toNat) range.length path) := by
      refine .bind (.map_err fun _ => rfl) fun file => .bind (.map_err fun _ => rfl) fun _ => ?_
      exact copy_bytes_raises (E := fun e => e.is_refused = false) (fun _ => rfl) (fun _ => .map_err fun _ => rfl) _ _
    have hdirectory : Raises (fun e : Error => e.is_refused = false) (self.capture_directory id) :=
      fun w e w' hrun => Error.accepted_of_reading ((capture_directory_reading self id).raises w e w' hrun)
    exact (Raises.bind hdirectory hrest) w1 error w' h

variable {capture : CaptureRecord Artifact} {instances : InstanceManifest} {files : ArtifactRecord → List UInt8}

/-- Whatever fails, copying from a published capture passes on a prefix of the published bytes. -/
theorem Published.copy_evidence_emits (h : Published tree (self.completed capture.id) capture instances files)
    (hready : self.Ready tree) {id : ArtifactId} {artifact : ArtifactRecord}
    (hartifact : artifact_of instances.artifacts id = some artifact) (range : ByteRange) :
    Emits Error.refusal (self.copy_evidence Artifact capture.id id range) tree
      (((files artifact).drop range.start.toNat).take range.length.toNat) := by
  have hfile := (h.artifacts artifact (artifact_of_eq_some hartifact).1).1
  apply reading_emits (read_instances_reading self capture.id)
  intro manifest w w' htree hread
  obtain rfl : manifest = instances := by
    have hanswer := h.read_instances hready { tree } rfl rfl
    exact (read_instances_reading self capture.id).determined w { tree } _ _ htree (by rw [hread]) (by rw [hanswer])
  rw [hartifact]
  change Emits _ (check _ _ >>= _) _ _
  apply Emits.after (E := fun e : Error => e.refusal = none) (.lift ?_) fun _ h => h
  · intro _ _ _ _ _
    apply reading_emits (capture_directory_reading self capture.id)
    intro directory w w' _ hdirectory
    obtain rfl := capture_directory_ok hdirectory
    apply reading_emits (with_context_reading (.open_file _))
    intro bytes w w' htree hopen
    obtain ⟨hbytes, -⟩ := open_file_ok (with_context_eq_ok_iff.mp hopen)
    obtain rfl : files artifact = bytes := by
      rw [htree, hfile] at hbytes
      simpa using hbytes
    apply reading_emits (with_context_reading .read)
    exact fun _ _ _ _ _ => copy_bytes_emits (fun _ => (Emits.write_sink _).map_err fun _ => rfl) _ _
  · unfold ensure
    split
    · rintro _ ⟨⟩
    · rintro _ ⟨⟩
      rfl

end optic.store
