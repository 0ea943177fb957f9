import Optic.Compiler.Driver
import Optic.FileSystem.Settled

open rust file_system optic.records

namespace optic.rustc_driver

variable {tree tree' : Tree} {w w' : World} {machine : Machine}

/-- A file that can be run and reports a key. -/
def Reports (machine : Machine) (tree : Tree) (executable : Path) (key : String) : Prop :=
  ∃ bytes output, tree executable = some (.file bytes) ∧ bytes ≠ [] ∧ mode tree executable &&& 0o111 ≠ 0 ∧
    machine.execute (mode tree executable) bytes [DRIVER_KEY_ARGUMENT] = .ok output ∧
    output.status.success = true ∧ output.stdout = text s!"{key}\n"

/-- A directory with the identity and the driver of a key. -/
structure Complete (machine : Machine) (tree : Tree) (entry : Path) (key : String) : Prop where
  located : tree entry = some .dir
  identified : tree (entry.join "identity") = some (.file (header key))
  reports : Reports machine tree (entry.join EXECUTABLE) key

theorem Reports.transfer {executable executable' : Path} {key : String} (h : Reports machine tree executable key)
    (hfile : tree' executable' = tree executable)
    (hmode : tree' (executable'.join "mode") = tree (executable.join "mode")) : Reports machine tree' executable' key := by
  have hsame : mode tree' executable' = mode tree executable := by rw [mode, mode, hmode]
  rwa [Reports, hfile, hsame]

/-- An entry stays complete wherever it is moved. -/
theorem Complete.transfer {entry entry' : Path} {key : String} (h : Complete machine tree entry key)
    (hsame : ∀ path, tree' (entry' ++ path) = tree (entry ++ path)) : Complete machine tree' entry' key where
  located := by simpa only [List.append_nil, h.located] using hsame []
  identified := (hsame ["identity"]).trans h.identified
  reports := by
    refine h.reports.transfer (hsame [EXECUTABLE]) ?_
    rw [Path.join, Path.join, Path.join, Path.join, List.append_assoc, List.append_assoc]
    exact hsame _

section

variable {path entry : Path} {directory ok : Bool} {key : String}

theorem check_certain (ok : Bool) (error : Error) : Certain (check ok error) := .lift

theorem check_ok_iff {error : Error} : Answers (check ok error) tree (.ok ()) ↔ ok = true := by
  rw [check, Answers.lift_iff, eq_comm]
  cases ok <;> simp [ensure]

theorem with_context_certain {α : Type} {p : Action IoError α} (operation : String) (path : Path) (hp : Certain p) :
    Certain (with_context operation path p) := .map_err hp

theorem with_context_bind_ok_iff {α β : Type} {p : Action IoError α} {operation : String} {f : α → Action Error β} {b : β}
    (hp : Certain p) : Answers (with_context operation path p >>= f) tree (.ok b) ↔
      ∃ a, Answers p tree (.ok a) ∧ Answers (f a) tree (.ok b) := by
  rw [Answers.bind_ok_iff (with_context_certain operation path hp).settled]
  exact exists_congr fun a => and_congr_left fun _ => Answers.map_err_ok_iff

theorem mode_metadata_certain (path : Path) : Certain (mode_metadata path) := by
  refine .perform fun tree metadata tree' h => ?_
  split at h <;> cases h
  rfl

theorem symlink_metadata_certain (path : Path) : Certain (symlink_metadata path) := by
  refine .perform fun tree metadata tree' h => ?_
  split at h <;> cases h
  rfl

theorem open_file_certain (path : Path) : Certain (open_file path) := by
  refine .perform fun tree metadata tree' h => ?_
  split at h <;> cases h
  rfl

theorem read_file_certain (path : Path) : Certain (read_file path) := by
  refine .bind (open_file_certain path) fun rest => .perform fun tree bytes tree' h => ?_
  cases h
  rfl

theorem output_certain (machine : Machine) (executable : Path) : Certain (output machine executable) := by
  refine .perform fun tree answer tree' h => ?_
  split at h
  · next bytes _ =>
    cases hexecute : machine.execute (mode tree executable) bytes [DRIVER_KEY_ARGUMENT] with
    | ok output =>
      rw [hexecute] at h
      cases h
      rfl
    | error error =>
      rw [hexecute] at h
      cases h
  · cases h
  · cases h

theorem validate_path_certain (path : Path) (directory : Bool) : Certain (validate_path path directory) :=
  .bind (with_context_certain _ _ (mode_metadata_certain path)) fun _ => .bind (check_certain _ _) fun _ => check_certain _ _

theorem holds_certain (path : Path) (expected : List UInt8) : Certain (holds path expected) :=
  .bind (with_context_certain _ _ (symlink_metadata_certain path)) fun _ =>
    .ite .pure (.bind (with_context_certain _ _ (read_file_certain path)) fun _ => .pure)

theorem validate_entry_certain (machine : Machine) (entry : Path) (key : String) :
    Certain (validate_entry machine entry key) :=
  .bind (validate_path_certain _ _) fun _ => .bind (validate_path_certain _ _) fun _ =>
    .bind (validate_path_certain _ _) fun _ => .bind (holds_certain _ _) fun _ => .bind (check_certain _ _) fun _ =>
      .bind (.map_err (output_certain _ _)) fun _ => check_certain _ _

theorem check_bind_ok_iff {β : Type} {error : Error} {f : Unit → Action Error β} {b : β} :
    Answers (check ok error >>= f) tree (.ok b) ↔ ok = true ∧ Answers (f ()) tree (.ok b) := by
  rw [Answers.bind_ok_iff (check_certain _ _).settled]
  constructor
  · rintro ⟨⟨⟩, hcheck, hrest⟩
    exact ⟨check_ok_iff.mp hcheck, hrest⟩
  · rintro ⟨hok, hrest⟩
    exact ⟨(), check_ok_iff.mpr hok, hrest⟩

theorem mode_metadata_iff {answer : Metadata × UInt8} :
    Answers (mode_metadata path) tree (.ok answer) ↔ tree path = some answer.1.entry ∧ answer.2 = mode tree path := by
  have hanswer {entry : Entry} (h : tree path = some entry) :
      Answers (mode_metadata path) tree (.ok (⟨entry⟩, mode tree path)) := .perform (by rw [h])
  obtain ⟨⟨entry⟩, bits⟩ := answer
  constructor
  · intro h
    cases hentry : tree path with
    | none =>
      have hmissing : Answers (mode_metadata path) tree (.error not_found) := .perform_error (by rw [hentry])
      cases h.unique hmissing
    | some entry' =>
      cases h.unique (hanswer hentry)
      exact ⟨rfl, rfl⟩
  · rintro ⟨hentry, hbits⟩
    dsimp only at hentry hbits
    rw [hbits]
    exact hanswer hentry

/-- What a name of an entry is checked for. -/
theorem validate_path_iff : Answers (validate_path path directory) tree (.ok ()) ↔
    ∃ metadata : Metadata, tree path = some metadata.entry ∧
      (if directory then metadata.is_dir else metadata.is_file) = true ∧
      (path.getLast? = some EXECUTABLE → metadata.len ≠ 0 ∧ mode tree path &&& 0o111 ≠ 0) := by
  rw [validate_path, with_context_bind_ok_iff (mode_metadata_certain path)]
  constructor
  · rintro ⟨⟨metadata, bits⟩, hmetadata, hchecks⟩
    obtain ⟨hentry, hbits⟩ := mode_metadata_iff.mp hmetadata
    dsimp only at hentry hbits hchecks
    rw [check_bind_ok_iff, check_ok_iff, hbits] at hchecks
    refine ⟨metadata, hentry, hchecks.1, fun hlast => ?_⟩
    simpa [hlast] using hchecks.2
  · rintro ⟨metadata, hentry, hkind, hrun⟩
    refine ⟨(metadata, mode tree path), mode_metadata_iff.mpr ⟨hentry, rfl⟩, ?_⟩
    dsimp only
    rw [check_bind_ok_iff, check_ok_iff]
    refine ⟨hkind, ?_⟩
    by_cases hlast : path.getLast? = some EXECUTABLE
    · simpa [hlast] using hrun hlast
    · simp [hlast]

theorem read_file_iff {bytes : List UInt8} :
    Answers (read_file path) tree (.ok bytes) ↔ tree path = some (.file bytes) := by
  have hanswer {bytes : List UInt8} (h : tree path = some (.file bytes)) : Answers (read_file path) tree (.ok bytes) :=
    .bind (.open_file h) .read
  constructor
  · intro h
    obtain ⟨rest, hopen, hread⟩ := (Answers.bind_ok_iff (open_file_certain path).settled).mp h
    cases hread.unique .read
    exact (open_file_ok (hopen { tree } rfl rfl)).1
  · exact hanswer

theorem holds_true_iff {expected : List UInt8} :
    Answers (holds path expected) tree (.ok true) ↔ tree path = some (.file expected) := by
  rw [holds, with_context_bind_ok_iff (symlink_metadata_certain path)]
  constructor
  · rintro ⟨metadata, hmetadata, hread⟩
    split at hread
    · cases hread.unique .pure
    · obtain ⟨bytes, hbytes, hsame⟩ := (with_context_bind_ok_iff (read_file_certain path)).mp hread
      rw [read_file_iff] at hbytes
      rw [Answers.pure_iff, Except.ok.injEq, eq_comm, decide_eq_true_iff] at hsame
      rw [hbytes, hsame]
  · intro hfile
    refine ⟨⟨.file expected⟩, .symlink_metadata hfile, ?_⟩
    refine .ite_neg (not_not.mpr rfl) ((with_context_bind_ok_iff (read_file_certain path)).mpr ?_)
    refine ⟨expected, read_file_iff.mpr hfile, ?_⟩
    rw [Answers.pure_iff, decide_eq_true rfl]

theorem output_iff {answer : compiler.collector.Output} : Answers (output machine path) tree (.ok answer) ↔
    ∃ bytes, tree path = some (.file bytes) ∧ machine.execute (mode tree path) bytes [DRIVER_KEY_ARGUMENT] = .ok answer := by
  constructor
  · intro h
    have hrun := h { tree } rfl rfl
    obtain ⟨tree', hact, -⟩ := perform_ok hrun
    dsimp only at hact
    split at hact
    · next bytes hfile =>
      refine ⟨bytes, hfile, ?_⟩
      cases hexecute : machine.execute (mode tree path) bytes [DRIVER_KEY_ARGUMENT] with
      | ok output =>
        rw [hexecute] at hact
        cases hact
        rfl
      | error error =>
        rw [hexecute] at hact
        cases hact
    · cases hact
    · cases hact
  · rintro ⟨bytes, hfile, hexecute⟩
    refine .perform ?_
    rw [hfile]
    dsimp only
    rw [hexecute]
    rfl

/-- Validation accepts exactly the complete entries. -/
theorem validate_entry_iff (hname : entry.getLast? ≠ some EXECUTABLE) :
    Answers (validate_entry machine entry key) tree (.ok ()) ↔ Complete machine tree entry key := by
  have hlast (name : OsString) : (entry.join name).getLast? = some name := List.getLast?_concat
  have hdir (metadata : Metadata) : metadata.is_dir = true ↔ metadata.entry = .dir := decide_eq_true_iff
  rw [validate_entry, Answers.bind_ok_iff (validate_path_certain _ _).settled]
  constructor
  · rintro ⟨⟨⟩, hentry, h⟩
    obtain ⟨⟨⟩, -, h⟩ := (Answers.bind_ok_iff (validate_path_certain _ _).settled).mp h
    obtain ⟨⟨⟩, hexecutable, h⟩ := (Answers.bind_ok_iff (validate_path_certain _ _).settled).mp h
    obtain ⟨matched, hholds, h⟩ := (Answers.bind_ok_iff (holds_certain _ _).settled).mp h
    obtain ⟨rfl, h⟩ := check_bind_ok_iff.mp h
    obtain ⟨answer, houtput, h⟩ := (Answers.bind_ok_iff (output_certain _ _).map_err.settled).mp h
    obtain ⟨directory, hlocated, hkind, -⟩ := validate_path_iff.mp hentry
    obtain ⟨file, hfile, -, hrun⟩ := validate_path_iff.mp hexecutable
    obtain ⟨bytes, hbytes, hexecute⟩ := output_iff.mp (Answers.map_err_ok_iff.mp houtput)
    have hreport := check_ok_iff.mp h
    rw [Bool.and_eq_true, decide_eq_true_iff] at hreport
    obtain ⟨hlength, hmode⟩ := hrun (hlast EXECUTABLE)
    refine ⟨?_, holds_true_iff.mp hholds, bytes, answer, hbytes, ?_, hmode, hexecute, hreport.1, hreport.2⟩
    · rw [hlocated, (hdir directory).mp hkind]
    · rintro rfl
      rw [hfile] at hbytes
      rw [Metadata.len, Option.some.inj hbytes] at hlength
      exact hlength rfl
  · rintro ⟨hlocated, hidentified, bytes, answer, hbytes, hne, hmode, hexecute, hsuccess, hreport⟩
    have hentry : Answers (validate_path entry true) tree (.ok ()) :=
      validate_path_iff.mpr ⟨⟨.dir⟩, hlocated, rfl, fun h => absurd h hname⟩
    have hidentity : Answers (validate_path (entry.join "identity") false) tree (.ok ()) :=
      validate_path_iff.mpr ⟨⟨.file (header key)⟩, hidentified, rfl, fun h => by simp [hlast, EXECUTABLE] at h⟩
    have hexecutable : Answers (validate_path (entry.join EXECUTABLE) false) tree (.ok ()) :=
      validate_path_iff.mpr ⟨⟨.file bytes⟩, hbytes, rfl, fun _ => ⟨fun h => hne (List.eq_nil_of_length_eq_zero h), hmode⟩⟩
    have houtput : Answers (output machine (entry.join EXECUTABLE)) tree (.ok answer) := output_iff.mpr ⟨bytes, hbytes, hexecute⟩
    refine ⟨(), hentry, .bind hidentity (.bind hexecutable (.bind (holds_true_iff.mpr hidentified) ?_))⟩
    refine check_bind_ok_iff.mpr ⟨rfl, .bind houtput.map_err (check_ok_iff.mpr ?_)⟩
    rw [hsuccess, hreport, decide_eq_true rfl]
    rfl

end

end optic.rustc_driver
