import Optic.Compiler.Snapshots
import Optic.Compiler.WriterSpec
import Optic.FileSystem.Directories

open rust optic.records optic.compiler optic.compiler.protocol file_system wire

namespace optic.driver

variable {FileId : Type} [Ord FileId] {lookup_source_file : UInt32 → SourceFile FileId}

theorem snapshot_name_inj {artifact other : UInt64} (h : snapshot_name artifact = snapshot_name other) : artifact = other := by
  have hfile : (ArtifactRecord.mk ⟨artifact⟩ .Source 0).file_name = (ArtifactRecord.mk ⟨other⟩ .Source 0).file_name := h
  exact congrArg ArtifactId.value (ArtifactRecord.file_name_inj hfile)

/-- What capturing an instance takes a snapshot of. -/
def snapshot_of (lookup_source_file : UInt32 → SourceFile FileId) (canonicalize : OsString → Option OsString)
    (package_root : OsString) (instance_ : Instance) : Option (FileId × String) :=
  match Snapshots.locate lookup_source_file canonicalize package_root instance_ with
  | .ok located => some (located.stable_id, located.text)
  | .error _ => none

/-- What collecting an item takes a snapshot of. -/
def captured (lookup_source_file : UInt32 → SourceFile FileId) (package_root : OsString) (item : Item) :
    Option (FileId × String) :=
  match item.mono_item with
  | .Fn instance_ => snapshot_of lookup_source_file item.canonicalize package_root instance_
  | .Static | .GlobalAsm => none

/-- The captures of a collection, in their order. -/
def captures (lookup_source_file : UInt32 → SourceFile FileId) (package_root : OsString)
    (codegen_units : List CodegenUnit) : List (FileId × String) :=
  codegen_units.flatMap fun codegen_unit => codegen_unit.items.filterMap (captured lookup_source_file package_root)

/-- What lets the writer spell a placement: its texts fit, and the path of its source is one. -/
structure Placeable (lookup_source_file : UInt32 → SourceFile FileId) (package_root : OsString) (codegen_unit : String)
    (canonicalize : OsString → Option OsString) (instance_ : Instance) : Prop where
  key : Short [instance_.concrete.definition_crate, instance_.concrete.definition_path, instance_.concrete.display_name,
    instance_.concrete.raw_symbol]
  codegen_unit : string.Valid codegen_unit
  path : ∀ located, Snapshots.locate lookup_source_file canonicalize package_root instance_ = .ok located →
    ∃ path, located.path = .utf8 path ∧ string.Valid path

/-- What lets the writer spell a whole collection. -/
structure Encodable (lookup_source_file : UInt32 → SourceFile FileId) (package_root : OsString) (marker : String)
    (configuration : Configuration) (codegen_units : List CodegenUnit) : Prop where
  marker : string.Valid marker
  settings : Short configuration.settings.texts
  modules : ∀ codegen_unit ∈ codegen_units, configuration.extension ≠ none →
    ∃ path, codegen_unit.path = .utf8 path ∧ Short [codegen_unit.name, path]
  placements : ∀ codegen_unit ∈ codegen_units, ∀ item ∈ codegen_unit.items, ∀ instance_, item.mono_item = .Fn instance_ →
    Placeable lookup_source_file package_root codegen_unit.name item.canonicalize instance_

/-- A snapshot can be written under every ID that is still free. -/
structure Room (sources : Snapshots FileId) (tree : Tree) : Prop where
  directory : tree sources.directory = some .dir
  free : ∀ n, sources.files.size ≤ n → n < UInt64.size →
    tree (sources.directory.join (snapshot_name (.ofNat n))) = none

/-- At most `count` more snapshots are there, and there is room for others. -/
structure Grows (sources next : Snapshots FileId) (tree : Tree) (count : Nat) : Prop where
  directory : next.directory = sources.directory
  package_root : next.package_root = sources.package_root
  size : next.files.size ≤ sources.files.size + count
  room : Room next tree

variable {sources next : Snapshots FileId} {tree : Tree} {manifest : List UInt8}

theorem Grows.refl {count : Nat} (h : Room sources tree) : Grows sources sources tree count :=
  ⟨rfl, rfl, Nat.le_add_right _ _, h⟩

theorem Grows.trans {mid : Snapshots FileId} {tree' : Tree} {count count' : Nat} (h : Grows sources mid tree count)
    (h' : Grows mid next tree' count') : Grows sources next tree' (count + count') where
  directory := h'.directory.trans h.directory
  package_root := h'.package_root.trans h.package_root
  size := by
    have hmid := h.size
    have hnext := h'.size
    omega
  room := h'.room

/-- The writer touches no file. -/
theorem write_completes {writer : ManifestWriter} {manifest' : List UInt8} (h : writer.run manifest = .ok ((), manifest')) :
    Completes (write writer manifest) tree manifest' tree [] := by
  rw [write, h]
  exact .of_answers .lift

theorem write_call_completes {call : Call} {record : Record} (hrecord : Recorded call record) (hshort : Short record.texts) :
    Completes (write call.write manifest) tree (manifest ++ record.spell) tree [] :=
  write_completes (Call.run_write_iff.mpr ⟨record, hrecord, hshort, rfl⟩)

/-- A source that refers to nothing, or to a path that is a text, is spelled. -/
theorem placement_recorded {instance_ : ConcreteInstance} {codegen_unit : String} {source : Source} {spelled : protocol.Source}
    (data : MonoItemData) (hkey : Short [instance_.definition_crate, instance_.definition_path, instance_.display_name,
      instance_.raw_symbol]) (hunit : string.Valid codegen_unit) (hsource : SourceRecorded source spelled)
    (hspelled : Short spelled.texts) :
    ∃ record, Recorded (.placement instance_ codegen_unit data source) record ∧ Short record.texts := by
  refine ⟨_, .placement hsource, ?_⟩
  have hlinkage : string.Valid (ManifestWriter.linkage_name data.linkage) := by cases data.linkage <;> decide
  have hvisibility : string.Valid (ManifestWriter.visibility_name data.visibility) := by cases data.visibility <;> decide
  refine List.forall_mem_append.mpr ⟨List.forall_mem_append.mpr ⟨hkey, ?_⟩, hspelled⟩
  exact short_cons_iff.mpr ⟨hunit, short_cons_iff.mpr ⟨hlinkage, short_cons_iff.mpr ⟨hvisibility, short_nil⟩⟩⟩

section

variable [Std.TransOrd FileId]

theorem size_insert {files : Std.TreeMap FileId UInt64} {id : FileId} (hnew : files[id]? = none) (artifact : UInt64) :
    (files.insert id artifact).size = files.size + 1 := by
  have habsent : files.contains id = false := by
    rw [Std.TreeMap.contains_eq_isSome_getElem?, hnew, Option.isSome_none]
  rw [Std.TreeMap.size_insert, habsent]
  rfl

/-- The next snapshot takes one ID, and leaves the others free. -/
theorem Room.insert {id : FileId} (content : String) (h : Room sources tree) (hnew : sources.files[id]? = none)
    (hfew : sources.files.size < UInt64.size) :
    Grows sources { sources with files := sources.files.insert id (.ofNat sources.files.size) }
      ((tree.set (sources.directory.join (snapshot_name (.ofNat sources.files.size))) (.file [])).append
        (sources.directory.join (snapshot_name (.ofNat sources.files.size))) (text content)) 1 := by
  have hsize := size_insert hnew (.ofNat sources.files.size)
  have hothers {path : Path} (hpath : path ≠ sources.directory.join (snapshot_name (.ofNat sources.files.size))) :
      ((tree.set (sources.directory.join (snapshot_name (.ofNat sources.files.size))) (.file [])).append
        (sources.directory.join (snapshot_name (.ofNat sources.files.size))) (text content)) path = tree path := by
    rw [Tree.append_other _ hpath, Tree.set_other _ hpath]
  refine ⟨rfl, rfl, Nat.le_of_eq hsize, ?_, ?_⟩
  · rw [hothers (fun heq => absurd (congrArg List.length heq) (by simp [Path.join]))]
    exact h.directory
  · intro n hlarge hn
    rw [hsize] at hlarge
    rw [hothers ?_]
    · exact h.free n (by omega) hn
    · intro heq
      have hartifact := snapshot_name_inj (OsString.utf8.inj (join_inj.mp heq).2)
      have hsame : n = sources.files.size := by
        have hnat := congrArg UInt64.toNat hartifact
        rwa [UInt64.toNat_ofNat_of_lt' hn, UInt64.toNat_ofNat_of_lt' hfew] at hnat
      omega

/-- A file is known, or a snapshot of it is written. -/
theorem capture_file_completes (h : Room sources tree) (hfew : sources.files.size < UInt64.size) (id : FileId)
    (content : String) (manifest : List UInt8) : ∃ artifact next manifest' tree',
      Completes (sources.capture_file id content manifest) tree (artifact, next, manifest') tree' [] ∧
        Grows sources next tree' 1 := by
  rcases hknown : sources.files[id]? with _ | artifact
  · have hfree := h.free _ (Nat.le_refl _) hfew
    have hparent : tree (sources.directory.join (snapshot_name (.ofNat sources.files.size))).dropLast = some .dir := by
      rw [Path.join, List.dropLast_concat]
      exact h.directory
    have hensured : ensure (decide (sources.files.size < UInt64.size)) Stop.overflow = .ok () :=
      ensure_eq_ok_iff.mpr (decide_eq_true hfew)
    let record : Record := .SourceFile (.ofNat sources.files.size) (.ofNat (text content).length)
    refine ⟨.ofNat sources.files.size, _, manifest ++ record.spell, _, ?_, h.insert content hknown hfew⟩
    rw [Snapshots.capture_file, hknown]
    dsimp only
    rw [hensured]
    refine .bind_silent (.of_answers .lift) ?_
    refine .bind_silent (Completes.of_runs (Runs.write hfree hparent)).map_err ?_
    exact .bind_silent (write_call_completes .source_file short_nil) .pure
  · refine ⟨artifact, sources, manifest, tree, ?_, .refl h⟩
    rw [Snapshots.capture_file, hknown]
    exact .pure

/-- An instance has its source captured, in a form that the writer can spell. -/
theorem capture_completes {canonicalize : OsString → Option OsString} {instance_ : Instance} {codegen_unit : String}
    (hplaceable : Placeable lookup_source_file sources.package_root codegen_unit canonicalize instance_)
    (h : Room sources tree) (hfew : sources.files.size +
      (snapshot_of lookup_source_file canonicalize sources.package_root instance_).toList.length ≤ UInt64.size)
    (manifest : List UInt8) : ∃ source spelled next manifest' tree',
      Completes (sources.capture lookup_source_file canonicalize instance_ manifest) tree (source, next, manifest') tree' [] ∧
        SourceRecorded source spelled ∧ Short spelled.texts ∧
        Grows sources next tree' (snapshot_of lookup_source_file canonicalize sources.package_root instance_).toList.length := by
  rw [snapshot_of] at hfew ⊢
  rcases hlocate : Snapshots.locate lookup_source_file canonicalize sources.package_root instance_ with unavailable | located
  · obtain ⟨reason, hreason⟩ := unavailable.known
    refine ⟨.Unavailable unavailable.reason unavailable.known, .Unavailable reason, sources, manifest, tree, ?_,
      .unavailable hreason, short_nil, .refl h⟩
    rw [Snapshots.capture, hlocate]
    exact .pure
  · rw [hlocate] at hfew
    obtain ⟨path, hpath, hvalid⟩ := hplaceable.path located hlocate
    obtain ⟨artifact, next, manifest', tree', hcapture, hgrows⟩ :=
      capture_file_completes h hfew located.stable_id located.text manifest
    refine ⟨.Available ⟨artifact, located.start.toUInt64, (located.stop - located.start).toUInt64, .utf8 path,
      1 + located.line⟩, _, next, manifest', tree', ?_, .available, short_cons_iff.mpr ⟨hvalid, short_nil⟩, hgrows⟩
    rw [Snapshots.capture, hlocate, ← hpath]
    exact .bind_silent hcapture .pure

/-- Each function of a codegen unit is placed. -/
theorem write_function_placements_completes {package_root : OsString} {codegen_unit : String} (items : List Item) :
    ∀ {sources : Snapshots FileId} {tree : Tree} (manifest : List UInt8), sources.package_root = package_root →
    (∀ item ∈ items, ∀ instance_, item.mono_item = .Fn instance_ →
      Placeable lookup_source_file package_root codegen_unit item.canonicalize instance_) → Room sources tree →
    sources.files.size + (items.filterMap (captured lookup_source_file package_root)).length ≤ UInt64.size →
    ∃ next manifest' tree', Completes (write_function_placements lookup_source_file codegen_unit items sources manifest) tree
      (next, manifest') tree' [] ∧
        Grows sources next tree' (items.filterMap (captured lookup_source_file package_root)).length := by
  induction items with
  | nil =>
    intro sources tree manifest _ _ h _
    exact ⟨sources, manifest, tree, .pure, .refl h⟩
  | cons item items ih =>
    rintro sources tree manifest rfl hplaceable h hfew
    obtain ⟨hitem, hitems⟩ := List.forall_mem_cons.mp hplaceable
    have hcount : ((item :: items).filterMap (captured lookup_source_file sources.package_root)).length =
        (captured lookup_source_file sources.package_root item).toList.length +
          (items.filterMap (captured lookup_source_file sources.package_root)).length := by
      rw [List.filterMap_cons]
      cases captured lookup_source_file sources.package_root item <;> simp [Nat.add_comm]
    rw [hcount] at hfew ⊢
    rw [captured] at hfew ⊢
    rw [write_function_placements]
    cases hmono : item.mono_item with
    | Static =>
      rw [hmono] at hfew
      simpa using ih manifest rfl hitems h (by simpa using hfew)
    | GlobalAsm =>
      rw [hmono] at hfew
      simpa using ih manifest rfl hitems h (by simpa using hfew)
    | Fn instance_ =>
      rw [hmono] at hfew
      have hown := hitem instance_ hmono
      obtain ⟨source, spelled, mid, written, tree1, hcapture, hsource, hspelled, hgrows⟩ :=
        capture_completes hown h (Nat.le_trans (Nat.add_le_add_left (Nat.le_add_right _ _) _) hfew) manifest
      obtain ⟨record, hrecord, hshort⟩ := placement_recorded item.data hown.key hown.codegen_unit hsource hspelled
      have hleft : mid.files.size + (items.filterMap (captured lookup_source_file sources.package_root)).length ≤ UInt64.size := by
        have hsize := hgrows.size
        dsimp only at hfew
        omega
      obtain ⟨next, manifest', tree', hrest, hlater⟩ :=
        ih (written ++ record.spell) hgrows.package_root hitems hgrows.room hleft
      refine ⟨next, manifest', tree', ?_, hgrows.trans hlater⟩
      refine .bind_silent hcapture ?_
      exact .bind_silent (write_call_completes hrecord hshort) hrest

theorem write_expected_module_completes {configuration : Configuration} {codegen_unit : CodegenUnit}
    (h : configuration.extension ≠ none → ∃ path, codegen_unit.path = .utf8 path ∧ Short [codegen_unit.name, path])
    (tree : Tree) (manifest : List UInt8) :
    ∃ manifest', Completes (write_expected_module configuration codegen_unit manifest) tree manifest' tree [] := by
  rw [write_expected_module]
  cases hextension : configuration.extension with
  | none => exact ⟨manifest, .pure⟩
  | some extension =>
    obtain ⟨path, hpath, hshort⟩ := h (by simp [hextension])
    rw [hpath]
    exact ⟨_, write_call_completes .module hshort⟩

theorem write_codegen_units_completes {package_root : OsString} {configuration : Configuration}
    (codegen_units : List CodegenUnit) :
    ∀ {sources : Snapshots FileId} {tree : Tree} (manifest : List UInt8), sources.package_root = package_root →
    (∀ codegen_unit ∈ codegen_units, configuration.extension ≠ none →
      ∃ path, codegen_unit.path = .utf8 path ∧ Short [codegen_unit.name, path]) →
    (∀ codegen_unit ∈ codegen_units, ∀ item ∈ codegen_unit.items, ∀ instance_, item.mono_item = .Fn instance_ →
      Placeable lookup_source_file package_root codegen_unit.name item.canonicalize instance_) → Room sources tree →
    sources.files.size + (captures lookup_source_file package_root codegen_units).length ≤ UInt64.size →
    ∃ next manifest' tree', Completes (write_codegen_units lookup_source_file configuration codegen_units sources manifest)
      tree (next, manifest') tree' [] := by
  induction codegen_units with
  | nil =>
    intro sources tree manifest _ _ _ h _
    exact ⟨sources, manifest, tree, .pure⟩
  | cons codegen_unit codegen_units ih =>
    rintro sources tree manifest rfl hmodules hplaceable h hfew
    obtain ⟨hmodule, hmodules⟩ := List.forall_mem_cons.mp hmodules
    obtain ⟨hitems, hplaceable⟩ := List.forall_mem_cons.mp hplaceable
    rw [captures, List.flatMap_cons, List.length_append] at hfew
    obtain ⟨expected, hexpected⟩ := write_expected_module_completes hmodule tree manifest
    obtain ⟨mid, written, tree1, hplaced, hgrows⟩ :=
      write_function_placements_completes codegen_unit.items expected rfl hitems h (by omega)
    have hleft : mid.files.size + (captures lookup_source_file sources.package_root codegen_units).length ≤ UInt64.size := by
      have hsize := hgrows.size
      rw [captures]
      omega
    obtain ⟨next, manifest', tree', hrest⟩ := ih written hgrows.package_root hmodules hplaceable hgrows.room hleft
    exact ⟨next, manifest', tree', .bind_silent hexpected (.bind_silent hplaced hrest)⟩

/-- Where no write fails, a collection whose texts can be spelled is complete. -/
theorem collect_completes {marker : String} {configuration : Configuration} {codegen_units : List CodegenUnit}
    {directory : Path} {package_root : OsString}
    (hencodable : Encodable lookup_source_file package_root marker configuration codegen_units)
    (hdirectory : tree directory = some .dir) (hfree : ∀ artifact, tree (directory.join (snapshot_name artifact)) = none)
    (hfew : (captures lookup_source_file package_root codegen_units).length ≤ UInt64.size) :
    ∃ sources stream tree', Completes (collect lookup_source_file marker configuration codegen_units
      (.new directory package_root)) tree (sources, stream) tree' [] := by
  have hroom : Room (.new directory package_root : Snapshots FileId) tree := ⟨hdirectory, fun _ _ _ => hfree _⟩
  have hsize : (Snapshots.new directory package_root : Snapshots FileId).files.size = 0 := Std.TreeMap.size_emptyc
  have hheader : (ManifestWriter.write_header marker).run [] = .ok ((), _) :=
    ManifestWriter.run_write_header_iff.mpr ⟨hencodable.marker, rfl⟩
  have hconfigured : (ManifestWriter.write_configuration configuration).run ([] ++ header.spell marker) = .ok ((), _) :=
    ManifestWriter.run_write_configuration_iff.mpr ⟨hencodable.settings, rfl⟩
  obtain ⟨sources, written, tree', hunits⟩ := write_codegen_units_completes codegen_units
    ([] ++ header.spell marker ++ configuration.settings.spell) rfl hencodable.modules hencodable.placements hroom
    (by rwa [hsize, Nat.zero_add])
  have hfinished : ManifestWriter.finish.run written = .ok ((), _) := ManifestWriter.run_write_u32_iff.mpr rfl
  refine ⟨sources, written ++ Format.u32.spell END_RECORD, tree', ?_⟩
  refine .bind_silent (write_completes hheader) ?_
  refine .bind_silent (write_completes hconfigured) ?_
  refine .bind_silent hunits ?_
  exact .bind_silent (write_completes hfinished) .pure

end

end optic.driver
