import Mathlib.Data.List.Basic
import Optic.Compiler.SnapshotsCompletes
import Optic.Compiler.SourceIds
import Optic.FileSystem.Rules
import Optic.Rust.Decimal

open rust optic.records optic.compiler optic.compiler.protocol file_system wire

namespace optic.driver

section

/-- A range of a text that starts and ends between characters. -/
def Spans (content : String) (start length : UInt64) : Prop :=
  ∃ before item after : String, content = before ++ item ++ after ∧ (text before).length = start.toNat ∧
    (text item).length = length.toNat

theorem length_text (value : String) : (text value).length = value.utf8ByteSize := by simp [text]

/-- A range that `get` accepts lies between characters. -/
theorem exists_of_get {value : String} {start stop : Nat} (h : (get value start stop).isSome) :
    ∃ before item after : String, value = before ++ item ++ after ∧ (text before).length = start ∧
      (text item).length = stop - start ∧ start ≤ stop := by
  unfold get at h
  split at h
  · next hrange =>
    simp only [Bool.and_eq_true, decide_eq_true_eq, String.Pos.Raw.isValid_eq_true_iff,
      String.Pos.Raw.isValid_iff_exists_append, String.Pos.Raw.ext_iff] at hrange
    obtain ⟨⟨hle, before, rest, hbefore, hstart⟩, front, after, hfront, hstop⟩ := hrange
    have hstart : (text before).length = start := by simpa [length_text] using hstart.symm
    have hstop : (text front).length = stop := by simpa [length_text] using hstop.symm
    have hchars : before.toList ++ rest.toList = front.toList ++ after.toList := by
      rw [← String.toList_append, ← String.toList_append, ← hbefore, ← hfront]
    obtain ⟨item, hitem, -⟩ | ⟨item, hitem, -⟩ := List.append_eq_append_iff.mp hchars
    · have hsplit : front = before ++ String.ofList item := by
        rw [← String.toList_inj, hitem, String.toList_append, String.toList_ofList]
      rw [hsplit, text_append, List.length_append] at hstop
      exact ⟨before, String.ofList item, after, by rw [hfront, hsplit], hstart, by omega, hle⟩
    · have hsplit : before = front ++ String.ofList item := by
        rw [← String.toList_inj, hitem, String.toList_append, String.toList_ofList]
      rw [hsplit, text_append, List.length_append] at hstart
      refine ⟨front, "", after, by rw [hfront, String.append_empty], by omega, ?_, hle⟩
      rw [length_text, String.utf8ByteSize_empty]
      omega
  · cases h

variable {FileId : Type} {lookup_source_file : UInt32 → SourceFile FileId}

/-- What the compiler says about its files: a file has one text however it is found, of less than 4 GiB,
and none of its lines is behind its end. -/
structure Faithful (lookup_source_file : UInt32 → SourceFile FileId) : Prop where
  fixed : ∀ pos other, (lookup_source_file pos).stable_id = (lookup_source_file other).stable_id →
    (lookup_source_file pos).src = (lookup_source_file other).src
  short : ∀ pos content, (lookup_source_file pos).src = some content → (text content).length < UInt32.size
  inside : ∀ pos content start line, (lookup_source_file pos).src = some content →
    (lookup_source_file pos).lookup_line start = some line → line.toNat ≤ (text content).length

/-- An identity and a text that the compiler has a file with. -/
def Loaded (lookup_source_file : UInt32 → SourceFile FileId) (file : FileId × String) : Prop :=
  ∃ pos, (lookup_source_file pos).stable_id = file.1 ∧ (lookup_source_file pos).src = some file.2

/-- A located item spans a part of its loaded file, from a line on. -/
theorem locate_ok {canonicalize : OsString → Option OsString} {package_root : OsString} {instance_ : Instance}
    {located : Located FileId} (hfaithful : Faithful lookup_source_file)
    (h : Snapshots.locate lookup_source_file canonicalize package_root instance_ = .ok located) :
    Loaded lookup_source_file (located.stable_id, located.text) ∧
      Spans located.text located.start.toUInt64 (located.stop - located.start).toUInt64 ∧ 1 + located.line ≠ 0 := by
  simp only [Snapshots.locate, bind_eq_ok_iff, ensure_eq_ok_iff, ok_or_eq_ok_iff] at h
  obtain ⟨_, _, _, _, _, _, _, _, _, _, _, _, content, hcontent, _, _, _, _, _, _, _, _, _, hget, line, hline, hfound⟩ := h
  cases hfound
  refine ⟨⟨_, rfl, hcontent⟩, ?_, ?_⟩
  · obtain ⟨before, item, after, hsplit, hbefore, hitem, hle⟩ := exists_of_get hget
    refine ⟨before, item, after, hsplit, ?_, ?_⟩
    · rw [hbefore, UInt32.toNat_toUInt64]
    · rw [hitem, UInt32.toNat_toUInt64, UInt32.toNat_sub_of_le _ _ (UInt32.le_iff_toNat_le.mpr hle)]
  · have hbound := hfaithful.inside _ content _ line hcontent hline
    have hshort := hfaithful.short _ content hcontent
    intro hzero
    have hnat := congrArg UInt64.toNat hzero
    rw [UInt64.toNat_add, Nat.mod_eq_of_lt] at hnat
    · exact absurd hnat (by simp)
    · change _ < UInt32.size at hshort
      have hsize : UInt32.size = 4294967296 := rfl
      simp only [UInt64.toNat_one]
      omega

theorem Faithful.length_lt {file : FileId × String} (h : Faithful lookup_source_file)
    (hloaded : Loaded lookup_source_file file) : (text file.2).length < UInt64.size := by
  obtain ⟨pos, -, hsrc⟩ := hloaded
  exact Nat.lt_trans (h.short pos file.2 hsrc) (by decide)

/-- What a source part says about the snapshots, and about the records in front of it. -/
def Refers (files : List (FileId × String)) (before : List Record) : protocol.Source → Prop
  | .Available artifact start length _ starting_line => ∃ file, files[artifact.toNat]? = some file ∧
    artifact ∈ (source_files_of before).map Prod.fst ∧ Spans file.2 start length ∧ starting_line ≠ 0
  | .Unavailable _ => True

theorem Refers.mono {files others : List (FileId × String)} {before : List Record} {source : protocol.Source}
    (h : Refers files before source) (hfiles : files <+: others) : Refers others before source := by
  cases source with
  | Unavailable reason => trivial
  | Available artifact start length path line =>
    obtain ⟨file, hfile, hrest⟩ := h
    obtain ⟨hlt, -⟩ := List.getElem?_eq_some_iff.mp hfile
    obtain ⟨later, rfl⟩ := hfiles
    exact ⟨file, by rw [List.getElem?_append_left hlt, hfile], hrest⟩

/-- The files in the order of their first captures: a file whose identity is there already adds none. -/
def note [DecidableEq FileId] (files : List (FileId × String)) (file : FileId × String) : List (FileId × String) :=
  if files.any (fun other => other.1 = file.1) then files else files ++ [file]

/-- First captures keep the order of all captures. -/
theorem ids_note [DecidableEq FileId] (l : List (FileId × String)) :
    (l.foldl note []).map Prod.fst = (l.map Prod.fst).eraseDups := by
  induction l using List.reverseRecOn with
  | nil => rfl
  | append_singleton l file ih =>
    have hknown : (l.foldl note []).any (fun other => other.1 = file.1) = true ↔ file.1 ∈ l.map Prod.fst := by
      rw [← List.mem_eraseDups, ← ih, List.any_eq_true]
      simp
    rw [List.foldl_append, List.foldl_cons, List.foldl_nil, List.map_append, List.map_singleton, List.eraseDups_append,
      ← ih, note]
    split
    · next hany => simp [List.removeAll, hknown.mp hany]
    · next hany =>
      have hnew : file.1 ∉ l.map Prod.fst := fun hmem => hany (hknown.mpr hmem)
      simp [List.removeAll, hnew, List.eraseDups_cons]

/-- First captures are captures. -/
theorem note_subset [DecidableEq FileId] (l : List (FileId × String)) : l.foldl note [] ⊆ l := by
  induction l using List.reverseRecOn with
  | nil => exact List.Subset.refl []
  | append_singleton l file ih =>
    rw [List.foldl_append, List.foldl_cons, List.foldl_nil, note]
    split
    · exact fun other hother => List.mem_append_left _ (ih hother)
    · intro other hother
      obtain hother | hother := List.mem_append.mp hother
      · exact List.mem_append_left _ (ih hother)
      · exact List.mem_append_right _ hother

variable [Ord FileId]

/-- The map, the files on disk and the stream are in step with the files captured so far. -/
structure InStep (lookup_source_file : UInt32 → SourceFile FileId) (sources : Snapshots FileId) (tree : Tree)
    (files : List (FileId × String)) (records : List Record) : Prop where
  loaded : ∀ file ∈ files, Loaded lookup_source_file file
  distinct : (files.map Prod.fst).Nodup
  few : files.length ≤ UInt64.size
  size : sources.files.size = files.length
  known : ∀ (id : FileId) (artifact : UInt64), sources.files[id]? = some artifact ↔ ∃ content, files[artifact.toNat]? = some (id, content)
  stored : ∀ (artifact : UInt64) file, files[artifact.toNat]? = some file →
    tree (sources.directory.join (snapshot_name artifact)) = some (.file (text file.2))
  declared : (source_files_of records).map (fun file => (file.1.toNat, file.2.toNat)) =
    files.mapIdx fun i file => (i, (text file.2).length)
  referenced : ∀ before placement after, records = before ++ .Placement placement :: after →
    Refers files before placement.source

namespace InStep

variable {sources : Snapshots FileId} {tree : Tree} {files : List (FileId × String)} {records : List Record}

theorem new [Std.TransOrd FileId] (lookup_source_file : UInt32 → SourceFile FileId) (directory : Path) (package_root : OsString) (tree : Tree) :
    InStep lookup_source_file (.new directory package_root) tree [] [] where
  loaded := nofun
  distinct := .nil
  few := Nat.zero_le _
  size := Std.TreeMap.size_emptyc
  known id artifact := by
    rw [Snapshots.new, Std.TreeMap.getElem?_emptyc]
    simp
  stored := by simp
  declared := rfl
  referenced before placement after h := by simp at h

/-- A captured file is declared with its length. -/
theorem exists_declared {artifact : UInt64} {file : FileId × String}
    (h : InStep lookup_source_file sources tree files records) (hfile : files[artifact.toNat]? = some file) :
    ∃ length, (artifact, length) ∈ source_files_of records ∧ length.toNat = (text file.2).length := by
  obtain ⟨hlt, rfl⟩ := List.getElem?_eq_some_iff.mp hfile
  have hmem : (artifact.toNat, (text files[artifact.toNat].2).length) ∈
      (source_files_of records).map fun file => (file.1.toNat, file.2.toNat) := by
    rw [h.declared, List.mem_mapIdx]
    exact ⟨artifact.toNat, hlt, rfl⟩
  obtain ⟨⟨declared, length⟩, hdeclared, heq⟩ := List.mem_map.mp hmem
  rw [Prod.mk.injEq, UInt64.toNat_inj] at heq
  obtain ⟨rfl, hlength⟩ := heq
  exact ⟨length, hdeclared, hlength⟩

/-- No ID is declared twice. -/
theorem ids_distinct (h : InStep lookup_source_file sources tree files records) :
    ((source_files_of records).map Prod.fst).Nodup := by
  have hids : ((source_files_of records).map Prod.fst).map UInt64.toNat = List.range files.length := by
    have hmapped := congrArg (List.map Prod.fst) h.declared
    rw [List.map_map] at hmapped
    rw [List.map_map]
    exact hmapped.trans (List.ext_getElem (by simp) fun i hi hi' => by simp)
  exact .of_map UInt64.toNat (hids ▸ List.nodup_range)

/-- The last record refers, and those in front of it did so before. -/
theorem referenced_append {record : Record} (h : InStep lookup_source_file sources tree files records)
    (hlast : ∀ placement, record = .Placement placement → Refers files records placement.source) :
    ∀ before placement after, records ++ [record] = before ++ .Placement placement :: after →
      Refers files before placement.source := by
  intro before placement after heq
  rcases List.eq_nil_or_concat after with rfl | ⟨front, last, rfl⟩
  · obtain ⟨rfl, hrecord⟩ := List.append_inj' heq rfl
    exact hlast placement (List.singleton_inj.mp hrecord)
  · rw [List.concat_eq_append, ← List.cons_append, ← List.append_assoc] at heq
    obtain ⟨hfront, -⟩ := List.append_inj' heq rfl
    exact h.referenced before placement front hfront

theorem place {placement : protocol.Placement} (h : InStep lookup_source_file sources tree files records)
    (hrefers : Refers files records placement.source) :
    InStep lookup_source_file sources tree files (records ++ [.Placement placement]) :=
  { h with
    declared := by rw [source_files_of_placement, h.declared]
    referenced := h.referenced_append fun _ heq => by cases heq; exact hrefers }

theorem expect {name path : String} (h : InStep lookup_source_file sources tree files records) :
    InStep lookup_source_file sources tree files (records ++ [.Module name path]) :=
  { h with
    declared := by rw [source_files_of_module, h.declared]
    referenced := h.referenced_append fun _ heq => by cases heq }

/-- The first snapshot of a file gets the next ID in the map, on disk and in the stream. -/
theorem add [Std.TransOrd FileId] [Std.LawfulEqOrd FileId] {id : FileId} {content : String} {next : Tree}
    (hfaithful : Faithful lookup_source_file) (h : InStep lookup_source_file sources tree files records)
    (hloaded : Loaded lookup_source_file (id, content)) (hnew : sources.files[id]? = none)
    (hsize : sources.files.size < UInt64.size)
    (hwritten : next (sources.directory.join (snapshot_name (.ofNat sources.files.size))) = some (.file (text content)))
    (hothers : ∀ other, other ≠ sources.directory.join (snapshot_name (.ofNat sources.files.size)) →
      next other = tree other) :
    InStep lookup_source_file { sources with files := sources.files.insert id (.ofNat sources.files.size) } next
      (files ++ [(id, content)])
      (records ++ [.SourceFile (.ofNat sources.files.size) (.ofNat (text content).length)]) := by
  have hid : ((UInt64.ofNat sources.files.size).toNat) = files.length := by
    rw [UInt64.toNat_ofNat_of_lt' hsize, h.size]
  have hfresh : id ∉ files.map Prod.fst := by
    intro hmem
    obtain ⟨file, hfile, rfl⟩ := List.mem_map.mp hmem
    obtain ⟨i, hi, rfl⟩ := List.mem_iff_getElem.mp hfile
    have hi' : (UInt64.ofNat i).toNat = i := UInt64.toNat_ofNat_of_lt' (Nat.lt_of_lt_of_le hi h.few)
    have hknown : sources.files[files[i].1]? = some (.ofNat i) :=
      (h.known _ _).mpr ⟨files[i].2, by rw [hi', List.getElem?_eq_getElem hi]⟩
    rw [hnew] at hknown
    cases hknown
  have hbehind : ∀ {artifact : UInt64} {file : FileId × String}, (files ++ [(id, content)])[artifact.toNat]? = some file ↔
      files[artifact.toNat]? = some file ∨ artifact = .ofNat sources.files.size ∧ (id, content) = file := by
    intro artifact file
    rw [List.getElem?_append, ← UInt64.toNat_inj, hid]
    split
    · next hlt =>
      exact ⟨.inl, fun h => h.resolve_right fun heq => absurd heq.1 (Nat.ne_of_lt hlt)⟩
    · next hge =>
      rw [List.getElem?_eq_none (Nat.le_of_not_lt hge), List.getElem?_singleton]
      split
      · next hzero =>
        have hlast : artifact.toNat = files.length := by omega
        simp [hlast]
      · next hlater =>
        have hlast : artifact.toNat ≠ files.length := by omega
        simp [hlast]
  exact {
    loaded := List.forall_mem_append.mpr ⟨h.loaded, List.forall_mem_singleton.mpr hloaded⟩
    distinct := by
      rw [List.map_append, List.map_singleton, nodup_append_singleton_iff]
      exact ⟨h.distinct, hfresh⟩
    few := by
      rw [List.length_append, List.length_singleton, ← h.size]
      exact hsize
    size := by rw [size_insert hnew, h.size, List.length_append, List.length_singleton]
    known := by
      intro other artifact
      simp only [Std.TreeMap.getElem?_insert, hbehind, exists_or, ← h.known, Prod.mk.injEq]
      split
      · next heq =>
        obtain rfl := Std.LawfulEqOrd.eq_of_compare heq
        simp [hnew, eq_comm]
      · next hne =>
        have hother : id ≠ other := fun heq => hne (by rw [heq, Std.compare_self])
        simp [hother]
    stored := by
      intro artifact file hfile
      obtain hfile | ⟨rfl, rfl⟩ := hbehind.mp hfile
      · rw [hothers _ ?_, h.stored artifact file hfile]
        intro heq
        have hartifact := snapshot_name_inj (OsString.utf8.inj (join_inj.mp heq).2)
        obtain ⟨hlt, -⟩ := List.getElem?_eq_some_iff.mp hfile
        rw [hartifact, hid] at hlt
        exact absurd hlt (Nat.lt_irrefl _)
      · exact hwritten
    declared := by
      rw [source_files_of_source_file, List.map_append, h.declared, List.mapIdx_concat, List.map_singleton, hid,
        UInt64.toNat_ofNat_of_lt' (hfaithful.length_lt hloaded)]
    referenced := fun before placement after heq =>
      (h.referenced_append (fun _ hrecord => by cases hrecord) before placement after heq).mono (List.prefix_append _ _) }

end InStep

/-- What a capture leads to: more records, which stay in step with everything else. -/
structure Advances (lookup_source_file : UInt32 → SourceFile FileId) (sources next : Snapshots FileId) (tree : Tree)
    (files : List (FileId × String)) (records added : List Record) (manifest manifest' : List UInt8) : Prop where
  directory : next.directory = sources.directory
  package_root : next.package_root = sources.package_root
  written : manifest' = manifest ++ added.flatMap Record.spell
  short : ∀ record ∈ added, Short record.texts
  in_step : InStep lookup_source_file next tree files (records ++ added)

variable {sources next : Snapshots FileId} {files : List (FileId × String)} {records : List Record}
  {manifest manifest' : List UInt8} {w w' : World}

theorem Advances.trans {mid : Snapshots FileId} {tree tree' : Tree} {files files' : List (FileId × String)}
    {added later : List Record} {written : List UInt8}
    (h : Advances lookup_source_file sources mid tree files records added manifest written)
    (h' : Advances lookup_source_file mid next tree' files' (records ++ added) later written manifest') :
    Advances lookup_source_file sources next tree' files' records (added ++ later) manifest manifest' where
  directory := h'.directory.trans h.directory
  package_root := h'.package_root.trans h.package_root
  written := by rw [h'.written, h.written, List.flatMap_append, List.append_assoc]
  short := List.forall_mem_append.mpr ⟨h.short, h'.short⟩
  in_step := by
    rw [← List.append_assoc]
    exact h'.in_step

theorem Advances.refl {tree : Tree} (h : InStep lookup_source_file sources tree files records) :
    Advances lookup_source_file sources sources tree files records [] manifest manifest where
  directory := rfl
  package_root := rfl
  written := by simp
  short := nofun
  in_step := by rwa [List.append_nil]

/-- One more record. -/
theorem Advances.record {tree : Tree} {record : Record} (hshort : Short record.texts)
    (h : InStep lookup_source_file sources tree files (records ++ [record])) :
    Advances lookup_source_file sources sources tree files records [record] manifest (manifest ++ record.spell) where
  directory := rfl
  package_root := rfl
  written := by simp
  short := List.forall_mem_singleton.mpr hshort
  in_step := h

theorem write_eq_ok_iff {writer : ManifestWriter} :
    write writer manifest w = (.ok manifest', w') ↔ writer.run manifest = .ok ((), manifest') ∧ w' = w := by
  rw [write, Action.lift_eq_ok_iff, eq_comm (a := w)]
  cases writer.run manifest with
  | error failure => simp [Except.map, Except.mapError]
  | ok found => simp [Except.map, Except.mapError, Prod.ext_iff]

theorem write_call_ok (call : Call) (h : write call.write manifest w = (.ok manifest', w')) :
    ∃ record, Recorded call record ∧ Short record.texts ∧ manifest' = manifest ++ record.spell ∧ w' = w := by
  obtain ⟨hrun, rfl⟩ := write_eq_ok_iff.mp h
  obtain ⟨record, hrecord, hshort, hspell⟩ := Call.run_write_iff.mp hrun
  exact ⟨record, hrecord, hshort, hspell, rfl⟩

theorem module_recorded {name : String} {path : OsString} {record : Record} (h : Recorded (.module name path) record) :
    ∃ name path, record = .Module name path := by
  cases h
  exact ⟨_, _, rfl⟩

theorem available_recorded {span : SourceSpan} {spelled : protocol.Source} (h : SourceRecorded (.Available span) spelled) :
    ∃ path, spelled = .Available span.artifact span.start span.length path span.starting_line := by
  generalize hsource : Source.Available span = source at h
  cases h with
  | available =>
    cases hsource
    exact ⟨_, rfl⟩
  | unavailable => cases hsource

/-- An expected module takes no snapshot. -/
theorem write_expected_module_advances {configuration : Configuration} {codegen_unit : CodegenUnit}
    (h : InStep lookup_source_file sources w.tree files records)
    (hrun : write_expected_module configuration codegen_unit manifest w = (.ok manifest', w')) :
    w' = w ∧ ∃ added, Advances lookup_source_file sources sources w.tree files records added manifest manifest' := by
  rw [write_expected_module] at hrun
  cases hextension : configuration.extension with
  | none =>
    rw [hextension] at hrun
    cases hrun
    exact ⟨rfl, [], .refl h⟩
  | some extension =>
    rw [hextension] at hrun
    obtain ⟨record, hrecord, hshort, rfl, rfl⟩ := write_call_ok (.module codegen_unit.name codegen_unit.path) hrun
    obtain ⟨name, path, rfl⟩ := module_recorded hrecord
    exact ⟨rfl, _, .record hshort h.expect⟩

theorem mem_placements_of {placement : protocol.Placement} :
    placement ∈ placements_of records ↔ Record.Placement placement ∈ records := by
  rw [placements_of, List.mem_filterMap]
  constructor
  · rintro ⟨record, hrecord, hplacement⟩
    cases record <;> cases hplacement
    exact hrecord
  · exact fun h => ⟨_, h, rfl⟩

theorem InStep.artifacts_distinct {tree : Tree} {settings : protocol.Configuration} {manifest : CompilerManifest}
    (h : InStep lookup_source_file sources tree files records) (hgrouped : Grouped settings records manifest) :
    (manifest.artifacts.map ArtifactRecord.id).Nodup := by
  have hids : manifest.artifacts.map ArtifactRecord.id = ((source_files_of records).map Prod.fst).map ArtifactId.mk := by
    rw [hgrouped.artifacts, List.map_map, List.map_map]
    rfl
  rw [hids]
  exact h.ids_distinct.map fun a b heq => congrArg ArtifactId.value heq

/-- Where the stream and its snapshots are in step, the source of each decoded instance passes its checks. -/
theorem InStep.source_valid {tree : Tree} {settings : protocol.Configuration} {manifest : CompilerManifest}
    (h : InStep lookup_source_file sources tree files records) (hgrouped : Grouped settings records manifest)
    (others : List ArtifactRecord) {instance_ : InstanceRecord} (hinstance : instance_ ∈ manifest.instances) :
    validate_source (manifest.artifacts ++ others) instance_ = .ok () := by
  rw [validate_source_eq_ok_iff]
  intro source hsource
  obtain ⟨placement, hplacement, hkey⟩ := List.mem_map.mp ((hgrouped.keys _).mp (List.mem_map_of_mem hinstance))
  have hunder := mem_placed_under.mpr ⟨hplacement, hkey⟩
  obtain ⟨first, hfirst⟩ : ∃ first, (placed_under (instance_key instance_) (placements_of records)).head? = some first :=
    Option.isSome_iff_exists.mp (List.isSome_head?.mpr (List.ne_nil_of_mem hunder))
  have hmeans := hgrouped.sources instance_ hinstance first hfirst
  have hplaced := (mem_placed_under.mp (List.mem_of_mem_head? hfirst)).1
  obtain ⟨before, after, hsplit⟩ := List.append_of_mem (mem_placements_of.mp hplaced)
  have hrefers := h.referenced before first after hsplit
  rw [hsource] at hmeans
  generalize first.source = spelled at hmeans hrefers
  cases spelled with
  | Unavailable reason => cases hmeans
  | Available artifact start length path line =>
    obtain ⟨hartifact, hstart, hlength, -, -⟩ := hmeans
    obtain ⟨file, hfile, -, ⟨front, item, back, hcontent, hfront, hitem⟩, -⟩ := hrefers
    obtain ⟨declared, hdeclared, hbytes⟩ := h.exists_declared hfile
    have hfound : artifact_of manifest.artifacts ⟨artifact⟩ = some ⟨⟨artifact⟩, .Source, declared⟩ := by
      have hmem : ArtifactRecord.mk ⟨artifact⟩ .Source declared ∈ manifest.artifacts := by
        rw [hgrouped.artifacts]
        exact List.mem_map.mpr ⟨_, hdeclared, rfl⟩
      exact artifact_of_mem (h.artifacts_distinct hgrouped) hmem
    refine ⟨⟨⟨artifact⟩, .Source, declared⟩, ?_, rfl, ?_⟩
    · rw [hartifact, artifact_of, List.find?_append]
      rw [artifact_of] at hfound
      rw [hfound, Option.some_or]
    · rw [UInt64.le_iff_toNat_le, ByteRange.end_toNat, hstart, hlength, hbytes, hcontent, text_append, text_append]
      simp only [List.length_append]
      omega

variable [Std.TransOrd FileId] [Std.LawfulEqOrd FileId] [DecidableEq FileId]

/-- A captured file is in the map, on disk and in the stream, and nothing is there twice. -/
theorem capture_file_advances {id : FileId} {content : String} {artifact : UInt64}
    (hfaithful : Faithful lookup_source_file) (h : InStep lookup_source_file sources w.tree files records)
    (hloaded : Loaded lookup_source_file (id, content))
    (hrun : sources.capture_file id content manifest w = (.ok (artifact, next, manifest'), w')) :
    ∃ added, Advances lookup_source_file sources next w'.tree (note files (id, content)) records added manifest manifest' ∧
      (note files (id, content))[artifact.toNat]? = some (id, content) := by
  rcases hknown : sources.files[id]? with _ | known
  · rw [Snapshots.capture_file, hknown] at hrun
    obtain ⟨⟨⟩, w1, hsize, hrun⟩ := Action.bind_eq_ok_iff.mp hrun
    obtain ⟨hensured, rfl⟩ := Action.lift_eq_ok_iff.mp hsize
    have hsize : sources.files.size < UInt64.size := of_decide_eq_true (ensure_eq_ok_iff.mp hensured)
    obtain ⟨⟨⟩, w2, hwrite, hrun⟩ := Action.bind_eq_ok_iff.mp hrun
    obtain ⟨hwritten, hothers⟩ := write_ok (Action.map_err_eq_ok_iff.mp hwrite)
    obtain ⟨written, w3, hspell, hrun⟩ := Action.bind_eq_ok_iff.mp hrun
    obtain ⟨record, hrecord, hshort, rfl, rfl⟩ := write_call_ok (.source_file _ _) hspell
    cases hrecord
    obtain ⟨hfound, rfl⟩ := Action.pure_eq_ok_iff.mp hrun
    cases hfound
    have hadded := h.add hfaithful hloaded hknown hsize hwritten hothers
    have hid : (UInt64.ofNat sources.files.size).toNat = files.length := by
      rw [UInt64.toNat_ofNat_of_lt' hsize, h.size]
    have hnote : note files (id, content) = files ++ [(id, content)] := by
      refine if_neg fun hany => ?_
      obtain ⟨file, hfile, heq⟩ := List.any_eq_true.mp hany
      have hdistinct := hadded.distinct
      rw [List.map_append, List.map_singleton, nodup_append_singleton_iff] at hdistinct
      exact hdistinct.2 (of_decide_eq_true heq ▸ List.mem_map_of_mem hfile)
    rw [hnote]
    refine ⟨[_], ⟨rfl, rfl, by simp, List.forall_mem_singleton.mpr hshort, hadded⟩, ?_⟩
    rw [hid, List.getElem?_append_right (Nat.le_refl _), Nat.sub_self]
    rfl
  · rw [Snapshots.capture_file, hknown] at hrun
    cases hrun
    obtain ⟨content', hfile⟩ := (h.known id artifact).mp hknown
    have hmem := List.mem_of_getElem? hfile
    have hsame : content' = content := by
      obtain ⟨pos, hid, hsrc⟩ := h.loaded _ hmem
      obtain ⟨pos', hid', hsrc'⟩ := hloaded
      have hfixed := hfaithful.fixed pos pos' (hid.trans hid'.symm)
      rw [hsrc, hsrc'] at hfixed
      exact Option.some.inj hfixed
    have hnote : note files (id, content) = files := by
      refine if_pos (List.any_eq_true.mpr ⟨_, hmem, ?_⟩)
      exact decide_eq_true rfl
    rw [hnote]
    exact ⟨[], ⟨rfl, rfl, by simp, List.forall_mem_nil _, by rwa [List.append_nil]⟩, by rw [hfile, hsame]⟩

/-- A captured source refers to a snapshot that is in the stream already. -/
theorem capture_advances {canonicalize : OsString → Option OsString} {instance_ : Instance} {source : Source}
    (hfaithful : Faithful lookup_source_file) (h : InStep lookup_source_file sources w.tree files records)
    (hrun : sources.capture lookup_source_file canonicalize instance_ manifest w = (.ok (source, next, manifest'), w')) :
    let files' := (snapshot_of lookup_source_file canonicalize sources.package_root instance_).toList.foldl note files
    ∃ added, Advances lookup_source_file sources next w'.tree files' records added manifest manifest' ∧
      ∀ spelled, SourceRecorded source spelled → Refers files' (records ++ added) spelled := by
  rw [Snapshots.capture] at hrun
  rw [snapshot_of]
  rcases hlocate : Snapshots.locate lookup_source_file canonicalize sources.package_root instance_ with reason | located
  · rw [hlocate] at hrun
    cases hrun
    refine ⟨[], .refl h, fun spelled hspelled => ?_⟩
    cases hspelled
    trivial
  · rw [hlocate] at hrun
    obtain ⟨hloaded, hspans, hline⟩ := locate_ok hfaithful hlocate
    obtain ⟨⟨artifact, last, written⟩, w1, hcapture, hrun⟩ := Action.bind_eq_ok_iff.mp hrun
    cases hrun
    obtain ⟨added, hadvances, hfile⟩ := capture_file_advances hfaithful h hloaded hcapture
    refine ⟨added, hadvances, fun spelled hspelled => ?_⟩
    obtain ⟨path, rfl⟩ := available_recorded hspelled
    obtain ⟨length, hdeclared, -⟩ := hadvances.in_step.exists_declared hfile
    exact ⟨_, hfile, List.mem_map_of_mem hdeclared, hspans, hline⟩

/-- Each function copy in a codegen unit is placed behind the snapshot that it refers to. -/
theorem write_function_placements_advances {codegen_unit : String} (hfaithful : Faithful lookup_source_file)
    (items : List Item) : ∀ {sources : Snapshots FileId} {manifest : List UInt8} {files : List (FileId × String)}
    {records : List Record} {w : World}, InStep lookup_source_file sources w.tree files records →
    write_function_placements lookup_source_file codegen_unit items sources manifest w = (.ok (next, manifest'), w') →
    ∃ added, Advances lookup_source_file sources next w'.tree
      ((items.filterMap (captured lookup_source_file sources.package_root)).foldl note files) records added manifest
      manifest' := by
  induction items with
  | nil =>
    intro sources manifest files records w h hrun
    cases hrun
    exact ⟨[], .refl h⟩
  | cons item items ih =>
    intro sources manifest files records w h hrun
    rw [write_function_placements] at hrun
    have hfold : ((item :: items).filterMap (captured lookup_source_file sources.package_root)).foldl note files =
        (items.filterMap (captured lookup_source_file sources.package_root)).foldl note
          ((captured lookup_source_file sources.package_root item).toList.foldl note files) := by
      rw [List.filterMap_cons]
      cases captured lookup_source_file sources.package_root item <;> rfl
    rw [hfold, captured]
    cases hitem : item.mono_item with
    | Static =>
      rw [hitem] at hrun
      exact ih h hrun
    | GlobalAsm =>
      rw [hitem] at hrun
      exact ih h hrun
    | Fn instance_ =>
      rw [hitem] at hrun
      obtain ⟨⟨source, captured, written⟩, w1, hcapture, hrun⟩ := Action.bind_eq_ok_iff.mp hrun
      obtain ⟨placed, w2, hplace, hrun⟩ := Action.bind_eq_ok_iff.mp hrun
      obtain ⟨added, hadvances, hrefers⟩ := capture_advances hfaithful h hcapture
      obtain ⟨record, hrecord, hshort, rfl, rfl⟩ :=
        write_call_ok (.placement instance_.concrete codegen_unit item.data source) hplace
      obtain ⟨hsource⟩ := hrecord
      have hplaced := hadvances.trans (.record hshort (hadvances.in_step.place (hrefers _ hsource)))
      obtain ⟨later, hlater⟩ := ih hplaced.in_step hrun
      rw [hadvances.package_root] at hlater
      exact ⟨_, hplaced.trans hlater⟩

theorem write_codegen_units_advances {configuration : Configuration} (hfaithful : Faithful lookup_source_file)
    (codegen_units : List CodegenUnit) : ∀ {sources : Snapshots FileId} {manifest : List UInt8}
    {files : List (FileId × String)} {records : List Record} {w : World},
    InStep lookup_source_file sources w.tree files records →
    write_codegen_units lookup_source_file configuration codegen_units sources manifest w = (.ok (next, manifest'), w') →
    ∃ added, Advances lookup_source_file sources next w'.tree
      ((captures lookup_source_file sources.package_root codegen_units).foldl note files) records added manifest
      manifest' := by
  induction codegen_units with
  | nil =>
    intro sources manifest files records w h hrun
    cases hrun
    exact ⟨[], .refl h⟩
  | cons codegen_unit codegen_units ih =>
    intro sources manifest files records w h hrun
    rw [write_codegen_units] at hrun
    obtain ⟨expected, w1, hexpect, hitems⟩ := Action.bind_eq_ok_iff.mp hrun
    obtain ⟨⟨mid, written⟩, w2, hplace, hunits⟩ := Action.bind_eq_ok_iff.mp hitems
    obtain ⟨rfl, added, hadvances⟩ := write_expected_module_advances h hexpect
    obtain ⟨placed, hplaced⟩ := write_function_placements_advances hfaithful codegen_unit.items hadvances.in_step hplace
    have hboth := hadvances.trans hplaced
    obtain ⟨later, hlater⟩ := ih hboth.in_step hunits
    have hall := hboth.trans hlater
    rw [hplaced.package_root, ← List.foldl_append] at hall
    exact ⟨_, hall⟩

/-- A whole stream is in step with the map and the disk at its end. -/
theorem collect_in_step {marker : String} {configuration : Configuration} {codegen_units : List CodegenUnit}
    {directory : Path} {package_root : OsString} {stream : List UInt8} (hfaithful : Faithful lookup_source_file)
    (hrun : collect lookup_source_file marker configuration codegen_units (.new directory package_root) w =
      (.ok (sources, stream), w')) :
    ∃ records, Spellable marker configuration.settings records ∧ stream = encode marker configuration.settings records ∧
      sources.directory = directory ∧
      InStep lookup_source_file sources w'.tree
        ((captures lookup_source_file package_root codegen_units).foldl note []) records := by
  obtain ⟨header, w1, hheader, hconfigure⟩ := Action.bind_eq_ok_iff.mp hrun
  obtain ⟨configured, w2, hconfiguration, hcollect⟩ := Action.bind_eq_ok_iff.mp hconfigure
  obtain ⟨⟨last, written⟩, w3, hunits, hfinish⟩ := Action.bind_eq_ok_iff.mp hcollect
  obtain ⟨finished, w4, hend, hdone⟩ := Action.bind_eq_ok_iff.mp hfinish
  obtain ⟨hheaded, rfl⟩ := write_eq_ok_iff.mp hheader
  obtain ⟨hconfigured, rfl⟩ := write_eq_ok_iff.mp hconfiguration
  obtain ⟨hended, rfl⟩ := write_eq_ok_iff.mp hend
  obtain ⟨hfound, rfl⟩ := Action.pure_eq_ok_iff.mp hdone
  cases hfound
  obtain ⟨records, hadvances⟩ :=
    write_codegen_units_advances hfaithful codegen_units (.new lookup_source_file directory package_root _) hunits
  obtain ⟨hmarker, rfl⟩ := ManifestWriter.run_write_header_iff.mp hheaded
  obtain ⟨hsettings, rfl⟩ := ManifestWriter.run_write_configuration_iff.mp hconfigured
  rw [ManifestWriter.finish, ManifestWriter.run_write_u32_iff, hadvances.written] at hended
  refine ⟨records, ⟨hmarker, hsettings, hadvances.short⟩, ?_, hadvances.directory, hadvances.in_step⟩
  rw [hended, encode, spell_many_eq]
  simp [protocol.configuration]

/-- The snapshots, their declarations and the placements of a collected stream agree, and the decoder and the
manifest find nothing wrong with the sources of the stream. -/
theorem collect_sources_consistent (hfaithful : Faithful lookup_source_file) (marker : String)
    (configuration : Configuration) (codegen_units : List CodegenUnit) (directory : Path) (package_root : OsString)
    (stream : List UInt8) (hrun : collect lookup_source_file marker configuration codegen_units
      (.new directory package_root) w = (.ok (sources, stream), w')) :
    ∃ files records,
      files.map Prod.fst = ((captures lookup_source_file package_root codegen_units).map Prod.fst).eraseDups ∧
      files ⊆ captures lookup_source_file package_root codegen_units ∧
      stream = encode marker configuration.settings records ∧
      (source_files_of records).map (fun file => (file.1.toNat, file.2.toNat)) =
        files.mapIdx (fun i file => (i, (text file.2).length)) ∧
      (∀ (artifact : UInt64) file, files[artifact.toNat]? = some file →
        w'.tree (directory.join (snapshot_name artifact)) = some (.file (text file.2))) ∧
      (∀ before placement after, records = before ++ .Placement placement :: after →
        Refers files before placement.source) ∧
      ∀ path, let decoder : ManifestDecoder := ⟨path, stream, none, marker⟩
        decoder.read ≠ .error decoder.duplicate_source ∧
        ∀ manifest, decoder.read = .ok manifest → require_artifacts manifest.artifacts = .ok () ∧
          ∀ others, ∀ instance_ ∈ manifest.instances,
            validate_source (manifest.artifacts ++ others) instance_ = .ok () := by
  obtain ⟨records, hspellable, hstream, rfl, hstep⟩ := collect_in_step hfaithful hrun
  refine ⟨_, records, ids_note _, note_subset _, hstream, hstep.declared, hstep.stored, hstep.referenced, fun path => ?_⟩
  intro decoder
  refine ⟨ManifestDecoder.read_ne_duplicate hstream hspellable hstep.ids_distinct, fun manifest hread => ?_⟩
  obtain ⟨settings, spelled, hspelled, hreader, -, hgrouped⟩ := ManifestDecoder.read_grouped hread
  obtain ⟨rfl, rfl, -⟩ := encode_delimited hspelled hspellable (congrArg (· ++ []) (hreader.symm.trans hstream))
  exact ⟨require_artifacts_eq_ok_iff.mpr (hstep.artifacts_distinct hgrouped),
    fun others instance_ hinstance => hstep.source_valid hgrouped others hinstance⟩

end

namespace fixture

def main_file : SourceFile Nat where
  stable_id := 0
  start_pos := 0
  src := some "fn main() \x7b kernel() \x7d\n"
  name := .Real (some ("/fixture/src/main.rs" : String))
  lookup_line _ := some 0

def kernel_file : SourceFile Nat where
  stable_id := 1
  start_pos := 100
  src := some "\npub fn kernel() \x7b\x7d\n"
  name := .Real (some ("/fixture/src/kernel.rs" : String))
  lookup_line _ := some 1

def lookup_source_file (pos : UInt32) : SourceFile Nat := if pos < 100 then main_file else kernel_file

def configuration : Configuration :=
  ⟨"llvm", "x86_64-unknown-linux-gnu", .Aggressive, .No, false, false, 16, LLVM_SUPPORTED⟩

def main : Instance :=
  ⟨⟨"fixture", "fixture::main", "fixture::main", "_RNvCfixture4main"⟩, true, true, false, ⟨0, 22, false, false⟩⟩

def kernel : Instance :=
  ⟨⟨"fixture", "fixture::kernel", "fixture::kernel", "_RNvCfixture6kernel"⟩, true, true, false, ⟨101, 119, false, false⟩⟩

/-- Both units have a copy of the kernel. -/
def codegen_units : List CodegenUnit := [
  ⟨"fixture.0", ("/attempt/llvm/fixture.0.bc" : String),
    [⟨.Fn main, ⟨false, .External, .Default, 17⟩, some⟩, ⟨.Fn kernel, ⟨true, .Internal, .Default, 5⟩, some⟩]⟩,
  ⟨"fixture.1", ("/attempt/llvm/fixture.1.bc" : String), [⟨.Fn kernel, ⟨true, .Internal, .Default, 5⟩, some⟩]⟩]

/-- An empty attempt directory. -/
def attempt : World := { tree := fun path => if path = [("attempt" : OsString)] then some .dir else none }

theorem faithful : Faithful lookup_source_file := by
  have hfile (pos : UInt32) : lookup_source_file pos = main_file ∨ lookup_source_file pos = kernel_file := by
    rw [lookup_source_file]
    split
    · exact .inl rfl
    · exact .inr rfl
  refine ⟨fun pos other => ?_, fun pos content hcontent => ?_, fun pos content start line hcontent hline => ?_⟩
  · rcases hfile pos with h | h <;> rcases hfile other with h' | h' <;> simp [h, h', main_file, kernel_file]
  · rcases hfile pos with h | h <;> rw [h] at hcontent <;> cases hcontent <;> decide
  · rcases hfile pos with h | h <;> rw [h] at hcontent hline <;> cases hcontent <;> cases hline <;> decide

theorem placeable {codegen_unit path : String} {instance_ : Instance} (hunit : string.Valid codegen_unit)
    (hkey : Short [instance_.concrete.definition_crate, instance_.concrete.definition_path,
      instance_.concrete.display_name, instance_.concrete.raw_symbol]) (hpath : string.Valid path)
    (hlocated : (Snapshots.locate lookup_source_file some ("/fixture" : String) instance_).toOption.map Located.path =
      some (.utf8 path)) : Placeable lookup_source_file ("/fixture" : String) codegen_unit some instance_ := by
  refine ⟨hkey, hunit, fun located h => ⟨path, ?_, hpath⟩⟩
  rw [h] at hlocated
  exact Option.some.inj hlocated

theorem main_placeable : Placeable lookup_source_file ("/fixture" : String) "fixture.0" some main :=
  placeable (by decide) (by decide) (show string.Valid "/fixture/src/main.rs" by decide) (by decide)

theorem kernel_placeable {codegen_unit : String} (hunit : string.Valid codegen_unit) :
    Placeable lookup_source_file ("/fixture" : String) codegen_unit some kernel :=
  placeable hunit (by decide) (show string.Valid "/fixture/src/kernel.rs" by decide) (by decide)

theorem encodable : Encodable lookup_source_file ("/fixture" : String) "marker" configuration codegen_units := by
  refine ⟨by decide, by decide, ?_, ?_⟩
  · simp only [codegen_units, List.forall_mem_cons]
    exact ⟨fun _ => ⟨_, rfl, by decide⟩, fun _ => ⟨_, rfl, by decide⟩, List.forall_mem_nil _⟩
  · simp only [codegen_units, List.forall_mem_cons, MonoItem.Fn.injEq, forall_eq']
    exact ⟨⟨main_placeable, kernel_placeable (by decide), List.forall_mem_nil _⟩,
      ⟨kernel_placeable (by decide), List.forall_mem_nil _⟩, List.forall_mem_nil _⟩

theorem captures_ids : (captures lookup_source_file ("/fixture" : String) codegen_units).map Prod.fst = [0, 1, 1] := by
  decide

end fixture

/-- Two functions from two files, one of them in both units: no write fails, so all is collected, and each file is
captured once. -/
theorem collect_sources_consistent_copies :
    ∃ sources stream w', collect fixture.lookup_source_file "marker" fixture.configuration fixture.codegen_units
        (.new [("attempt" : OsString)] ("/fixture" : String)) fixture.attempt = (.ok (sources, stream), w') ∧
      ∃ (files : List (Nat × String)) (records : List Record), files.map Prod.fst = [0, 1] ∧
      stream = encode "marker" fixture.configuration.settings records ∧
      (source_files_of records).map (fun file => (file.1.toNat, file.2.toNat)) =
        files.mapIdx (fun i file => (i, (text file.2).length)) ∧
      ∀ (artifact : UInt64) file, files[artifact.toNat]? = some file →
        w'.tree [("attempt" : OsString), snapshot_name artifact] = some (.file (text file.2)) := by
  have hfew : (captures fixture.lookup_source_file ("/fixture" : String) fixture.codegen_units).length ≤ UInt64.size := by
    rw [← List.length_map Prod.fst, fixture.captures_ids]
    decide
  have hdirectory : fixture.attempt.tree [("attempt" : OsString)] = some .dir := rfl
  obtain ⟨sources, stream, tree', hcomplete⟩ := collect_completes fixture.encodable hdirectory (fun _ => rfl) hfew
  have hrun := hcomplete fixture.attempt rfl rfl
  obtain ⟨files, records, hids, -, hstream, hdeclared, hstored, -⟩ :=
    collect_sources_consistent fixture.faithful "marker" fixture.configuration fixture.codegen_units _ _ stream hrun
  rw [fixture.captures_ids] at hids
  exact ⟨sources, stream, _, hrun, files, records, hids, hstream, hdeclared, hstored⟩

end optic.driver
