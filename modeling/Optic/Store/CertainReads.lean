import Optic.Store.CandidateReads

open rust file_system optic.records

namespace file_system

variable {ε ε' α β : Type}

/-- A program that goes on where another one returned, and fails where that failed. -/
theorem Certain.attempt {p : Action ε α} {f : Except ε α → Action ε' β} (hp : Certain p) (hok : ∀ a, Certain (f (.ok a)))
    (herror : ∀ e, ∃ e', f (.error e) = .fail e') : Certain (Action.attempt p f) where
  only := by
    refine .attempt hp.only ?_
    rintro (e | a)
    · obtain ⟨e', he⟩ := herror e
      rw [he]
      exact .fail
    · exact (hok a).only
  settled := by
    refine .attempt hp.settled ?_
    rintro (e | a)
    · obtain ⟨e', he⟩ := herror e
      rw [he]
      exact .fail
    · exact (hok a).settled
  answers w b w' h := by
    rw [Action.attempt_apply] at h
    have htree := hp.only.tree w
    rcases hrun : p w with ⟨e | a, w1⟩
    · obtain ⟨e', he⟩ := herror e
      rw [hrun] at h
      dsimp only at h
      rw [he] at h
      cases h
    · rw [hrun] at h htree
      have hanswer := (hok a).answers w1 b w' h
      rw [htree] at hanswer
      exact .attempt (hp.answers w a w1 hrun) hanswer

/-- What a program returns despite failures: its answer, with the tree as it was. -/
theorem Certain.keeps {p : Action ε α} (hp : Certain p) {w w' : World} {a : α} (h : p w = (.ok a, w')) :
    w'.tree = w.tree ∧ Answers p w.tree (.ok a) := by
  have htree := hp.only.tree w
  rw [h] at htree
  exact ⟨htree, hp.answers w a w' h⟩

theorem Certain.symlink_metadata (path : Path) : Certain (file_system.symlink_metadata path) := by
  apply perform
  intro tree metadata tree' h
  split at h
  · cases h
    rfl
  · cases h

theorem Certain.open_file (path : Path) : Certain (file_system.open_file path) := by
  apply perform
  intro tree bytes tree' h
  split at h
  · cases h
    rfl
  · cases h
  · cases h

theorem Certain.read {result : Except IoError α} : Certain (file_system.read result) := by
  apply perform
  intro tree a tree' h
  cases result with
  | ok a =>
    cases h
    rfl
  | error e => cases h

end file_system

namespace optic.store

theorem check_certain (ok : Bool) (error : Error) : Certain (check ok error) := .lift

theorem with_context_certain {α : Type} {p : Action IoError α} (operation : String) (path : Path) (hp : Certain p) :
    Certain (with_context operation path p) := .map_err hp

theorem directory_exists_certain (path : Path) : Certain (directory_exists path) where
  only := directory_exists_read_only path
  settled := directory_exists_settled path
  answers _ _ _ h := directory_exists_ok_iff.mpr (directory_exists_ok h)

theorem directories_exist_certain (paths : List Path) : Certain (directories_exist paths) := by
  induction paths with
  | nil => exact .pure
  | cons path paths ih => exact .bind (directory_exists_certain path) fun _ => .ite ih .pure

theorem read_record_certain {α : Type} [Serde α] (path : Path) (limit : Nat) :
    Certain (read_record path limit : Action Error α) := by
  apply Certain.bind (with_context_certain _ path (.symlink_metadata path))
  refine fun metadata => .bind (check_certain _ _) fun _ => .bind (check_certain _ _) fun _ => ?_
  refine .bind (with_context_certain _ path (.open_file path)) fun rest => ?_
  exact .bind (with_context_certain _ path .read) fun _ => .bind (check_certain _ _) fun _ => .map_err .lift

theorem validate_artifacts_certain (directory : Path) (artifacts : List ArtifactRecord) :
    Certain (validate_artifacts directory artifacts) := by
  induction artifacts with
  | nil => exact .pure
  | cons artifact artifacts ih =>
    refine .bind ?_ fun _ => ih
    exact .bind (with_context_certain _ _ (.symlink_metadata _)) fun _ => .bind (check_certain _ _) fun _ => check_certain _ _

namespace Store

theorem capture_directory_certain (self : Store) (id : CaptureId) : Certain (self.capture_directory id) := by
  apply Certain.bind (directories_exist_certain _)
  refine fun _ => .bind (check_certain _ _) fun _ => .attempt (.symlink_metadata _) ?_ ?_
  · exact fun _ => .bind (check_certain _ _) fun _ => .pure
  · exact fun _ => ⟨_, rfl⟩

variable {Artifact : Type} [Serde (CaptureRecord Artifact)] [Serde InstanceManifest]

theorem read_pointed_certain (self : Store) (key : CaptureKey) (pointer : CandidatePointer) (directory : Path) :
    Certain (self.read_pointed key pointer directory : Action Error (CaptureRecord Artifact × InstanceManifest)) := by
  apply Certain.bind
  · exact .bind (read_record_certain _ _) fun _ => .bind (check_certain _ _) fun _ => .pure
  refine fun _ => .bind (check_certain _ _) fun _ => .bind (check_certain _ _) fun _ => ?_
  apply Certain.bind (read_record_certain _ _)
  exact fun _ => .bind (check_certain _ _) fun _ => .bind (validate_artifacts_certain _ _) fun _ => .pure

variable [Serde CandidatePointer] {self : Store} {key : CaptureKey} {w w' : World}

variable (Artifact) in
theorem read_candidate_read_only (self : Store) (key : CaptureKey) : ReadOnly (self.read_candidate Artifact key) := by
  apply Within.bind (directories_exist_certain _).only
  refine fun found => .ite (.attempt (read_record_certain _ _).only fun result => ?_) .pure
  split
  · exact .ite .pure .fail
  · exact .fail
  · refine .bind .lift fun _ => .bind .lift fun _ => .attempt (self.capture_directory_certain _).only fun result => ?_
    split
    · exact .pure
    · exact .fail
    · exact .bind (self.read_pointed_certain _ _ _).only fun _ => .pure

/-- A candidate that is read despite failures is read without them, too. -/
theorem read_candidate_found {candidate : CaptureRecord Artifact × InstanceManifest}
    (h : self.read_candidate Artifact key w = (.ok (some candidate), w')) :
    Answers (self.read_candidate Artifact key) w.tree (.ok (some candidate)) := by
  obtain ⟨found, w1, hfound, h⟩ := Action.bind_eq_ok_iff.mp h
  obtain ⟨htree1, hanswer⟩ := (directories_exist_certain _).keeps hfound
  cases found with
  | false => cases h
  | true =>
    rw [if_pos rfl, Action.attempt_apply] at h
    rcases hrecord : (read_record (self.candidate_path key) MAX_HEADER_BYTES : Action Error CandidatePointer) w1 with
      ⟨error | pointer, w2⟩
    · rw [hrecord] at h
      dsimp only at h
      cases error with
      | Filesystem operation path source =>
        dsimp only at h
        split at h <;> cases h
      | _ => cases h
    · rw [hrecord] at h
      obtain ⟨_, w3, hformat, h⟩ := Action.bind_eq_ok_iff.mp h
      obtain ⟨_, w4, hkey, h⟩ := Action.bind_eq_ok_iff.mp h
      rw [Action.attempt_apply] at h
      rcases hlocated : self.capture_directory pointer.capture_id w4 with ⟨error | directory, w5⟩
      · rw [hlocated] at h
        cases error <;> cases h
      · rw [hlocated] at h
        obtain ⟨pointed, w6, hpointed, h⟩ := Action.bind_eq_ok_iff.mp h
        obtain ⟨htree2, hrecord⟩ := (read_record_certain _ _).keeps hrecord
        obtain ⟨htree3, hformat⟩ := (check_certain _ _).keeps hformat
        obtain ⟨htree4, hkey⟩ := (check_certain _ _).keeps hkey
        obtain ⟨htree5, hlocated⟩ := (self.capture_directory_certain _).keeps hlocated
        obtain ⟨-, hpointed⟩ := (self.read_pointed_certain _ _ _).keeps hpointed
        rw [htree5, htree4, htree3, htree2, htree1] at hpointed
        rw [htree4, htree3, htree2, htree1] at hlocated
        rw [htree3, htree2, htree1] at hkey
        rw [htree2, htree1] at hformat
        rw [htree1] at hrecord
        obtain ⟨heq, -⟩ := Action.pure_eq_ok_iff.mp h
        cases heq
        refine .bind hanswer (.ite_pos rfl (.attempt hrecord (.bind hformat (.bind hkey (.attempt hlocated ?_)))))
        exact .bind hpointed .pure

end Store

end optic.store
