import Optic.Store.HistoryReads
import Optic.Store.ReadsAnswers

open rust file_system optic.records

namespace optic.store

variable {tree : Tree} {path : Path} {name : OsString}

/-- The names of the entries of a directory, each once, in any order. -/
structure Enumerates (tree : Tree) (directory : Path) (names : List OsString) : Prop where
  distinct : names.Nodup
  complete : ∀ name, name ∈ names ↔ tree (directory.join name) ≠ none

theorem capture_id_from_entry_settled (path : Path) (name : OsString) : Settled (capture_id_from_entry path name) :=
  .bind (with_context_settled _ path (.symlink_metadata path)) fun _ => .bind (check_settled _ _) fun _ =>
    .bind .lift fun _ => .map_err .lift

/-- An entry stands for an ID when it is a directory with its name. -/
theorem capture_id_from_entry_ok_iff {id : CaptureId} : Answers (capture_id_from_entry path name) tree (.ok id) ↔
    tree path = some .dir ∧ name = (id.value : OsString) := by
  constructor
  · intro h
    obtain ⟨entry, hentry, hchecks⟩ := metadata_bind_ok_iff.mp h
    obtain ⟨hdir, hnamed⟩ := check_bind_ok_iff.mp hchecks
    obtain ⟨value, hvalue, hparsed⟩ := (Answers.bind_ok_iff .lift).mp hnamed
    have hname := ok_or_eq_ok_iff.mp (Answers.lift_iff.mp hvalue).symm
    have hid := CaptureId.parse_eq_ok_iff.mp (Answers.lift_iff.mp (Answers.map_err_ok_iff.mp hparsed)).symm
    have hentry' : entry = .dir := of_decide_eq_true hdir
    rw [hentry, hentry', OsString.into_string_eq_some.mp hname, hid]
    exact ⟨rfl, rfl⟩
  · rintro ⟨hdir, rfl⟩
    exact capture_id_from_entry_answers hdir

theorem compare_isLE_iff {left right : String} : (compare left right).isLE = true ↔ left ≤ right :=
  isLE_compareOfLessAndEq String.le_antisymm String.not_le String.le_total

section

variable {Artifact : Type} {left right : CaptureRecord Artifact}

/-- Later completions come first, and among simultaneous ones lesser IDs. -/
def Before (left right : CaptureRecord Artifact) : Prop :=
  right.completed_at_unix_ms < left.completed_at_unix_ms ∨
    left.completed_at_unix_ms = right.completed_at_unix_ms ∧ left.id.value < right.id.value

theorem CaptureOrder_iff : CaptureOrder left right = true ↔ right.completed_at_unix_ms < left.completed_at_unix_ms ∨
    left.completed_at_unix_ms = right.completed_at_unix_ms ∧ left.id.value ≤ right.id.value := by
  rw [CaptureOrder, Ordering.isLE_then_iff_or, Std.compare_eq_lt, compare_isLE_iff, Std.compare_eq_iff_eq, eq_comm]

/-- A list of captures with distinct IDs is sorted strictly. -/
theorem pairwise_before {captures : List (CaptureRecord Artifact)} (h : captures.Pairwise fun a b => a.id ≠ b.id) :
    (captures.mergeSort CaptureOrder).Pairwise Before := by
  have hordered : (captures.mergeSort CaptureOrder).Pairwise fun a b => CaptureOrder a b = true := by
    apply List.pairwise_mergeSort
    · intro a b c hab hbc
      rw [CaptureOrder_iff] at hab hbc ⊢
      rcases hab with hab | ⟨hab, hid⟩
      · rcases hbc with hbc | ⟨hbc, -⟩
        · exact .inl (UInt64.lt_trans hbc hab)
        · exact .inl (hbc ▸ hab)
      · rcases hbc with hbc | ⟨hbc, hid'⟩
        · exact .inl (hab ▸ hbc)
        · exact .inr ⟨hab.trans hbc, String.le_trans hid hid'⟩
    · intro a b
      rw [Bool.or_eq_true, CaptureOrder_iff, CaptureOrder_iff]
      by_cases htime : a.completed_at_unix_ms = b.completed_at_unix_ms
      · rcases String.le_total a.id.value b.id.value with hid | hid
        · exact .inl (.inr ⟨htime, hid⟩)
        · exact .inr (.inr ⟨htime.symm, hid⟩)
      · rcases UInt64.lt_or_lt_of_ne htime with hlater | hlater
        · exact .inr (.inl hlater)
        · exact .inl (.inl hlater)
  have hdistinct : (captures.mergeSort CaptureOrder).Pairwise fun a b => a.id ≠ b.id :=
    (List.mergeSort_perm captures CaptureOrder).symm.pairwise h fun hne => hne.symm
  refine hordered.imp₂ (fun a b hab hne => ?_) hdistinct
  rcases CaptureOrder_iff.mp hab with hlater | ⟨htime, hid⟩
  · exact .inl hlater
  · exact .inr ⟨htime, String.not_le.mp fun hge => hne (CaptureId.value_inj.mp (String.le_antisymm hid hge))⟩

theorem Before.asymm (h : Before left right) (h' : Before right left) : False := by
  rcases h with htime | ⟨htime, hid⟩
  · rcases h' with htime' | ⟨htime', -⟩
    · exact UInt64.lt_asymm htime htime'
    · exact UInt64.ne_of_lt htime htime'
  · rcases h' with htime' | ⟨-, hid'⟩
    · exact UInt64.ne_of_lt htime' htime
    · exact String.lt_asymm hid hid'

/-- A sorted listing has no capture twice. -/
theorem Before.nodup {captures : List (CaptureRecord Artifact)} (h : captures.Pairwise Before) : captures.Nodup :=
  h.imp fun hbefore heq => (heq ▸ hbefore).asymm (heq ▸ hbefore)

/-- The captures that a listing in order contains determine it. -/
theorem Before.unique {captures captures' : List (CaptureRecord Artifact)} (h : captures.Pairwise Before)
    (h' : captures'.Pairwise Before) (hmem : ∀ capture, capture ∈ captures ↔ capture ∈ captures') : captures = captures' := by
  have hperm : captures.Perm captures' := (List.perm_ext_iff_of_nodup (nodup h) (nodup h')).mpr hmem
  exact hperm.eq_of_pairwise (fun _ _ _ _ hab hba => (hab.asymm hba).elim) h h'

variable [Serde (CaptureRecord Artifact)] {root : Path} {capture : CaptureRecord Artifact} {names : List OsString}

/-- The completed namespace has a directory with the header of a capture and some manifest. -/
def Listed (tree : Tree) (root : Path) (capture : CaptureRecord Artifact) : Prop :=
  tree (root.join capture.id.value) = some .dir ∧ Header tree (root.join capture.id.value) capture ∧
    ∃ bytes, tree ((root.join capture.id.value).join INSTANCES_FILE_NAME) = some (.file bytes)

namespace Store

theorem read_captures_settled (root : Path) (names : List OsString) :
    Settled (read_captures root names : Action Error (List (CaptureRecord Artifact))) := by
  induction names with
  | nil => exact .pure
  | cons name names ih =>
    apply Settled.bind (with_context_settled _ root .read)
    refine fun _ => .bind (capture_id_from_entry_settled _ name) fun id => ?_
    apply Settled.bind (read_capture_from_directory_settled _ id)
    exact fun _ => .bind (require_instances_file_settled _) fun _ => .bind ih fun _ => .pure

/-- Reading the entries reads the capture of each of them. -/
theorem read_captures_ok_iff {captures : List (CaptureRecord Artifact)} :
    Answers (read_captures root names) tree (.ok captures) ↔
      names = captures.map (fun capture => (capture.id.value : OsString)) ∧ ∀ capture ∈ captures, Listed tree root capture := by
  induction names generalizing captures with
  | nil =>
    rw [read_captures, Answers.pure_iff, Except.ok.injEq, eq_comm (a := []), List.map_eq_nil_iff]
    constructor
    · rintro rfl
      exact ⟨rfl, fun _ => (absurd · List.not_mem_nil)⟩
    · exact And.left
  | cons name names ih =>
    rw [read_captures, Answers.bind_ok_iff (with_context_settled _ root .read)]
    constructor
    · rintro ⟨⟨⟩, -, hentry⟩
      obtain ⟨id, hid, hread⟩ := (Answers.bind_ok_iff (capture_id_from_entry_settled _ name)).mp hentry
      obtain ⟨capture, hcapture, hrequired⟩ := (Answers.bind_ok_iff (read_capture_from_directory_settled _ id)).mp hread
      obtain ⟨path, hpath, hrest⟩ := (Answers.bind_ok_iff (require_instances_file_settled _)).mp hrequired
      obtain ⟨rest, hcaptures, hpure⟩ := (Answers.bind_ok_iff (read_captures_settled root names)).mp hrest
      cases Answers.pure_iff.mp hpure
      obtain ⟨hdir, rfl⟩ := capture_id_from_entry_ok_iff.mp hid
      obtain ⟨hheader, rfl⟩ := read_capture_from_directory_ok_iff.mp hcapture
      obtain ⟨rfl, hlisted⟩ := ih.mp hcaptures
      exact ⟨rfl, List.forall_mem_cons.mpr ⟨⟨hdir, hheader, (require_instances_file_ok_iff.mp hpath).2⟩, hlisted⟩⟩
    · rintro ⟨hnames, hlisted⟩
      cases captures with
      | nil => cases hnames
      | cons capture rest =>
        obtain ⟨rfl, rfl⟩ := List.cons.inj hnames
        obtain ⟨⟨hdir, hheader, hmanifest⟩, hrest⟩ := List.forall_mem_cons.mp hlisted
        refine ⟨(), .map_err .read, ?_⟩
        apply Answers.bind (capture_id_from_entry_ok_iff.mpr ⟨hdir, rfl⟩)
        apply Answers.bind (read_capture_from_directory_ok_iff.mpr ⟨hheader, rfl⟩)
        apply Answers.bind (require_instances_file_ok_iff.mpr ⟨rfl, hmanifest⟩)
        exact .bind (ih.mpr ⟨rfl, hrest⟩) .pure

variable {self : Store} {captures : List (CaptureRecord Artifact)}

/-- Where the namespace exists, a listing is the sorted captures of the entries. -/
theorem list_captures_ok_iff (hpresent : Present tree (self.namespaces "captures")) :
    Answers (self.list_captures Artifact names) tree (.ok captures) ↔
      ∃ listed : List (CaptureRecord Artifact), names = listed.map (fun capture => (capture.id.value : OsString)) ∧
        (∀ capture ∈ listed, Listed tree (self.root.join "captures") capture) ∧ captures = listed.mergeSort CaptureOrder := by
  have hexists := directories_exist_true_iff.mpr hpresent
  have hdir : tree (self.root.join "captures") = some .dir := hpresent _ (by simp [namespaces])
  constructor
  · intro h
    obtain ⟨found, hfound, hread⟩ := (Answers.bind_ok_iff (self.namespace_exists_settled "captures")).mp h
    cases hfound.unique hexists
    rw [if_pos rfl] at hread
    obtain ⟨entries, hentries, hrest⟩ := (Answers.attempt_iff (.read_dir _ names)).mp hread
    cases hentries.unique (.read_dir hdir)
    obtain ⟨listed, hlisted, hpure⟩ := (Answers.bind_ok_iff (read_captures_settled _ names)).mp hrest
    obtain ⟨hnames, hall⟩ := read_captures_ok_iff.mp hlisted
    exact ⟨listed, hnames, hall, Except.ok.inj (Answers.pure_iff.mp hpure)⟩
  · rintro ⟨listed, hnames, hall, rfl⟩
    refine .bind hexists (.ite_pos rfl ?_)
    exact .attempt (.read_dir hdir) (.bind (read_captures_ok_iff.mpr ⟨hnames, hall⟩) .pure)

/-- An entry lists what a read of its ID returns. -/
theorem listed_iff (hpresent : Present tree (self.namespaces "captures")) :
    Listed tree (self.root.join "captures") capture ↔ Answers (self.read_capture capture.id) tree (.ok capture) := by
  rw [read_capture_ok_iff]
  constructor
  · rintro ⟨hdir, hheader, hmanifest⟩
    exact ⟨⟨hpresent, hdir⟩, hheader, rfl, hmanifest⟩
  · rintro ⟨⟨-, hdir⟩, hheader, -, hmanifest⟩
    exact ⟨hdir, hheader, hmanifest⟩

end Store

variable {store : Store} {captures : List (CaptureRecord Artifact)}

/-- Entries whose IDs can be read are the names of captures. -/
theorem listed_of_readable (h : ∀ name ∈ names, ∃ (value : String) (id : CaptureId) (capture : CaptureRecord Artifact),
      name.into_string = some value ∧ CaptureId.parse value = .ok id ∧ Answers (store.read_capture id) tree (.ok capture)) :
    ∃ listed : List (CaptureRecord Artifact), names = listed.map (fun capture => (capture.id.value : OsString)) ∧
      ∀ capture ∈ listed, Answers (store.read_capture capture.id) tree (.ok capture) := by
  induction names with
  | nil => exact ⟨[], rfl, fun _ => (absurd · List.not_mem_nil)⟩
  | cons name names ih =>
    obtain ⟨⟨value, id, capture, hvalue, hid, hread⟩, hrest⟩ := List.forall_mem_cons.mp h
    obtain ⟨listed, rfl, hlisted⟩ := ih hrest
    obtain ⟨-, -, rfl, -⟩ := Store.read_capture_ok_iff.mp hread
    refine ⟨capture :: listed, ?_, List.forall_mem_cons.mpr ⟨hread, hlisted⟩⟩
    rw [List.map_cons, OsString.into_string_eq_some.mp hvalue, CaptureId.parse_eq_ok_iff.mp hid]

/-- A listing succeeds when the capture of every entry can be read, and only then. -/
theorem list_captures_ok (hpresent : Present tree (store.namespaces "captures")) :
    (∃ captures, Answers (store.list_captures Artifact names) tree (.ok captures)) ↔
      ∀ name ∈ names, tree ((store.root.join "captures").join name) = some .dir ∧
        ∃ (value : String) (id : CaptureId) (capture : CaptureRecord Artifact), name.into_string = some value ∧
          CaptureId.parse value = .ok id ∧ Answers (store.read_capture id) tree (.ok capture) := by
  constructor
  · rintro ⟨captures, h⟩ name hname
    obtain ⟨listed, rfl, hlisted, -⟩ := (Store.list_captures_ok_iff hpresent).mp h
    obtain ⟨capture, hcapture, rfl⟩ := List.mem_map.mp hname
    have hread := (Store.listed_iff hpresent).mp (hlisted capture hcapture)
    exact ⟨(hlisted capture hcapture).1, _, _, capture, rfl, capture.id.parse_value, hread⟩
  · intro h
    obtain ⟨listed, hnames, hlisted⟩ := listed_of_readable fun name hname => (h name hname).2
    refine ⟨_, (Store.list_captures_ok_iff hpresent).mpr ⟨listed, hnames, fun capture hcapture => ?_, rfl⟩⟩
    exact (Store.listed_iff hpresent).mpr (hlisted capture hcapture)

/-- A listing contains what single reads return. -/
theorem mem_listing (hpresent : Present tree (store.namespaces "captures"))
    (hnames : Enumerates tree (store.root.join "captures") names)
    (h : Answers (store.list_captures Artifact names) tree (.ok captures)) :
    capture ∈ captures ↔ ∃ id, Answers (store.read_capture id) tree (.ok capture) := by
  obtain ⟨listed, rfl, hlisted, rfl⟩ := (Store.list_captures_ok_iff hpresent).mp h
  rw [List.mem_mergeSort]
  constructor
  · intro hmem
    exact ⟨capture.id, (Store.listed_iff hpresent).mp (hlisted capture hmem)⟩
  · rintro ⟨id, hread⟩
    obtain ⟨⟨-, hdir⟩, hheader, rfl, -⟩ := Store.read_capture_ok_iff.mp hread
    have hpresent : tree ((store.root.join "captures").join capture.id.value) ≠ none := by
      intro habsent
      cases hdir.symm.trans habsent
    obtain ⟨other, hother, hid⟩ := List.mem_map.mp ((hnames.complete _).mpr hpresent)
    have heq : other.id = capture.id := CaptureId.value_inj.mp (OsString.utf8.inj hid)
    have hheader' : Header tree (store.completed capture.id) other := heq ▸ (hlisted other hother).2.1
    rwa [hheader.unique hheader']

/-- A listing is in a strict order. -/
theorem listing_sorted (hpresent : Present tree (store.namespaces "captures")) (hdistinct : names.Nodup)
    (h : Answers (store.list_captures Artifact names) tree (.ok captures)) : captures.Pairwise Before := by
  obtain ⟨listed, rfl, -, rfl⟩ := (Store.list_captures_ok_iff hpresent).mp h
  apply pairwise_before
  refine (List.pairwise_map.mp hdistinct).imp fun hne heq => hne ?_
  rw [heq]

/-- A listing of a store, which may have no namespace yet, is in a strict order. -/
theorem listed_sorted (hdistinct : names.Nodup) (h : Answers (store.list_captures Artifact names) tree (.ok captures)) :
    captures.Pairwise Before := by
  obtain ⟨found, hfound, hread⟩ := (Answers.bind_ok_iff (store.namespace_exists_settled "captures")).mp h
  cases found with
  | true => exact listing_sorted (directories_exist_true_iff.mp hfound) hdistinct h
  | false =>
    rw [if_neg Bool.false_ne_true] at hread
    cases Answers.pure_iff.mp hread
    exact .nil

/-- No enumeration of the entries changes a listing. -/
theorem listing_stable {names' : List OsString} (hpresent : Present tree (store.namespaces "captures"))
    (hnames : Enumerates tree (store.root.join "captures") names)
    (hnames' : Enumerates tree (store.root.join "captures") names')
    (h : Answers (store.list_captures Artifact names) tree (.ok captures)) :
    Answers (store.list_captures Artifact names') tree (.ok captures) := by
  obtain ⟨captures', h'⟩ := (list_captures_ok hpresent).mpr fun name hname =>
    (list_captures_ok hpresent).mp ⟨captures, h⟩ name ((hnames.complete name).mpr ((hnames'.complete name).mp hname))
  have hsame : captures = captures' := by
    apply Before.unique (listing_sorted hpresent hnames.distinct h) (listing_sorted hpresent hnames'.distinct h')
    intro capture
    rw [mem_listing hpresent hnames h, mem_listing hpresent hnames' h']
  rwa [hsame]

variable (Artifact) in
/-- A listing agrees with single reads: where its namespace exists, it succeeds exactly when every
entry is a directory whose name is an ID and whose capture can be read, and it contains each of
these captures once, in an order that no enumeration changes. -/
theorem list_captures_direct (store : Store) (tree : Tree) :
    (Missing tree (store.namespaces "captures") →
      ∀ names, Answers (store.list_captures Artifact names) tree (.ok [])) ∧
    (Present tree (store.namespaces "captures") →
      ∀ names, Enumerates tree (store.root.join "captures") names →
        ((∃ captures, Answers (store.list_captures Artifact names) tree (.ok captures)) ↔
          ∀ name ∈ names, tree ((store.root.join "captures").join name) = some .dir ∧
            ∃ (value : String) (id : CaptureId) (capture : CaptureRecord Artifact), name.into_string = some value ∧
              CaptureId.parse value = .ok id ∧ Answers (store.read_capture id) tree (.ok capture)) ∧
        ∀ captures, Answers (store.list_captures Artifact names) tree (.ok captures) →
          (∀ capture, capture ∈ captures ↔ ∃ id, Answers (store.read_capture id) tree (.ok capture)) ∧
          captures.Nodup ∧ captures.Pairwise Before ∧
          ∀ names', Enumerates tree (store.root.join "captures") names' →
            Answers (store.list_captures Artifact names') tree (.ok captures)) ∧
    (¬ Missing tree (store.namespaces "captures") → ¬ Present tree (store.namespaces "captures") →
      ∀ names, ∃ error, Answers (store.list_captures Artifact names) tree (.error error)) := by
  refine ⟨?_, ?_, ?_⟩
  · intro hmissing names
    exact .bind (directories_exist_false_iff.mpr hmissing) .pure
  · intro hpresent names hnames
    refine ⟨list_captures_ok hpresent, fun captures h => ?_⟩
    have hsorted := listing_sorted hpresent hnames.distinct h
    exact ⟨fun capture => mem_listing hpresent hnames h, Before.nodup hsorted, hsorted,
      fun names' hnames' => listing_stable hpresent hnames hnames' h⟩
  · intro hmissing hpresent names
    obtain ⟨result, hresult⟩ := store.namespace_exists_settled "captures" tree
    cases result with
    | error error => exact ⟨error, .bind_error hresult⟩
    | ok found =>
      cases found with
      | true => exact absurd (directories_exist_true_iff.mp hresult) hpresent
      | false => exact absurd (directories_exist_false_iff.mp hresult) hmissing

end

/-- A store whose completed namespace is a symlink to a directory without entries. -/
def linked_captures_tree : Tree := fun path =>
  let store : Store := ⟨[]⟩
  if path = store.optic_directory ∨ path = store.root then some .dir
  else if path = store.root.join "captures" then some .other
  else none

local instance library_serde : Serde (CaptureRecord Unit) := .single library_capture "0"

/-- A link in the place of the completed namespace is not absent and has no invalid entry, but
listing it is an error. -/
theorem linked_captures_refused :
    ¬ Missing linked_captures_tree (Store.namespaces ⟨[]⟩ "captures") ∧
    Enumerates linked_captures_tree (Store.root ⟨[]⟩ |>.join "captures") [] ∧
    Answers (Store.list_captures Unit ⟨[]⟩ []) linked_captures_tree
      (.error (.UnexpectedFileType "directory" (Store.root ⟨[]⟩ |>.join "captures"))) := by
  have hoptic : linked_captures_tree (Store.optic_directory ⟨[]⟩) = some .dir := by decide
  have hroot : linked_captures_tree (Store.root ⟨[]⟩) = some .dir := by decide
  have hlink : linked_captures_tree (Store.root ⟨[]⟩ |>.join "captures") = some .other := by decide
  refine ⟨?_, ⟨List.nodup_nil, fun name => ?_⟩, ?_⟩
  · simp [Missing, Store.namespaces, hoptic, hroot, hlink]
  · simp [linked_captures_tree, Store.optic_directory, Store.root, Path.join]
  · apply Answers.bind_error
    apply Answers.bind (a := true) (directory_exists_ok_iff.mpr hoptic)
    apply Answers.bind (a := true) (directory_exists_ok_iff.mpr hroot)
    apply Answers.bind_error
    exact .attempt (.symlink_metadata hlink) (.ite_neg (by decide) .fail)

end optic.store
