import Optic.Compiler.AnalysisRun
import Optic.Compiler.ArtifactsSpec
import Optic.Compiler.FunctionsSpec

open rust optic.records optic.compiler optic.compiler.protocol file_system wire

namespace optic.driver

variable {FileId : Type}

/-- Whatever rustc is asked, its files are in order. -/
def analysis.Rustc.Faithful (self : analysis.Rustc FileId) : Prop :=
  ∀ arguments options session, self.session arguments options = some session → driver.Faithful session.lookup_source_file

/-- The bytes of a located item. -/
def Located.item (self : Located FileId) : List UInt8 := ((rust.text self.text).take self.stop.toNat).drop self.start.toNat

/-- A decoded source is what locating a function finds: its snapshot is the file that the compiler has loaded, and its range
is the item. -/
inductive Quotes (tree : Tree) (directory : Path) : Except Unavailable (Located FileId) → SourceAvailability → Prop
  | unavailable {unavailable : Unavailable} {reason : SourceUnavailable} (h : unavailable.reason = unavailable_code reason) :
    Quotes tree directory (.error unavailable) (.Unavailable reason)
  | available {located : Located FileId} {source : SourceRecord} {path : String} (hpath : located.path = .utf8 path)
      (hdisplay : (source.display_path == ⟨path⟩) = true) (hline : source.starting_line = 1 + located.line)
      (hfile : tree (directory.join (snapshot_name source.artifact.value)) = some (.file (text located.text)))
      (hitem : llvm_index.slice (text located.text) source.range = located.item) :
    Quotes tree directory (.ok located) (.Available source)

/-- A decoded placement is that of a function copy. -/
structure PlacesRecord (function : Function) (record : PlacementRecord) : Prop where
  codegen_unit : record.codegen_unit = function.codegen_unit
  linkage : record.linkage = ManifestWriter.linkage_name function.data.linkage
  visibility : record.visibility = ManifestWriter.visibility_name function.data.visibility
  local_copy : record.local_copy = function.data.inlined
  size_estimate : record.size_estimate = function.data.size_estimate

/-- A manifest tells what the compiler has answered about its functions, all of it and nothing else. -/
structure Tells (lookup_source_file : UInt32 → SourceFile FileId) (package_root : OsString) (observed : Configuration)
    (codegen_units : List CodegenUnit) (tree : Tree) (directory : Path) (manifest : CompilerManifest) : Prop where
  configuration : ConfigurationMeans observed.settings manifest.configuration
  distinct : (manifest.instances.map instance_key).Nodup
  keys : ∀ key, key ∈ manifest.instances.map instance_key ↔ key ∈ (functions codegen_units).map Function.key
  placements : ∀ record ∈ manifest.instances, List.Forall₂ PlacesRecord
    ((functions codegen_units).filter fun function => function.key = instance_key record) record.placements
  sources : ∀ record ∈ manifest.instances, ∀ function ∈ functions codegen_units, function.key = instance_key record →
    Quotes tree directory (function.locate lookup_source_file package_root) record.source
  modules : List.Forall₂ Expects (retained observed codegen_units) manifest.modules
  declared : collector.SourcesDeclared manifest.artifacts manifest.instances
  snapshots : ∀ artifact ∈ manifest.artifacts, ∃ bytes, bytes.length = artifact.byte_len.toNat ∧
    tree (directory.join artifact.file_name) = some (.file bytes)

theorem forall₂_comp {α β γ : Type} {R : α → β → Prop} {S : β → γ → Prop} {T : α → γ → Prop}
    (h : ∀ a b c, R a b → S b c → T a c) {l : List α} {m : List β} (hl : List.Forall₂ R l m) :
    ∀ {n : List γ}, List.Forall₂ S m n → List.Forall₂ T l n := by
  induction hl with
  | nil =>
    intro n hm
    cases hm
    exact .nil
  | cons hab _ ih =>
    intro n hm
    cases hm with
    | cons hbc hrest => exact .cons (h _ _ _ hab hbc) (ih hrest)

variable {lookup_source_file : UInt32 → SourceFile FileId}

/-- The range of a located item starts in front of its end. -/
theorem slice_item {canonicalize : OsString → Option OsString} {package_root : OsString} {instance_ : Instance}
    {located : Located FileId} (h : Snapshots.locate lookup_source_file canonicalize package_root instance_ = .ok located)
    {range : ByteRange} (hstart : range.start = located.start.toUInt64)
    (hlength : range.length = (located.stop - located.start).toUInt64) :
    llvm_index.slice (text located.text) range = located.item := by
  simp only [Snapshots.locate, bind_eq_ok_iff, ensure_eq_ok_iff, ok_or_eq_ok_iff] at h
  obtain ⟨_, _, _, _, _, _, _, _, _, _, _, _, content, -, _, _, _, _, _, _, _, _, _, hget, line, -, hfound⟩ := h
  cases hfound
  obtain ⟨before, item, after, -, -, -, hle⟩ := exists_of_get hget
  rw [llvm_index.slice, Located.item, List.drop_take, hstart, hlength, UInt32.toNat_toUInt64, UInt32.toNat_toUInt64,
    UInt32.toNat_sub_of_le _ _ (UInt32.le_iff_toNat_le.mpr hle)]

/-- Sources that agree quote the same. -/
theorem Cites.quotes {tree : Tree} {directory : Path} {files : List (FileId × String)} {function : Function}
    {package_root : OsString} {spelled first : protocol.Source} {source : SourceAvailability}
    (h : Cites files (function.locate lookup_source_file package_root) spelled)
    (hstored : ∀ (artifact : UInt64) file, files[artifact.toNat]? = some file →
      tree (directory.join (snapshot_name artifact)) = some (.file (text file.2)))
    (hmeans : SourceMeans first source) (hagree : relationship first = relationship spelled) :
    Quotes tree directory (function.locate lookup_source_file package_root) source := by
  cases hlocate : function.locate lookup_source_file package_root with
  | error unavailable =>
    rw [hlocate] at h
    cases h with
    | unavailable hreason =>
      cases first with
      | Available artifact start length path line => cases hagree
      | Unavailable reason =>
        cases hagree
        cases source with
        | Available record => cases hmeans
        | Unavailable reason' =>
          cases hmeans
          exact .unavailable hreason
  | ok located =>
    rw [hlocate] at h
    cases h with
    | available hpath hfile =>
      cases first with
      | Unavailable reason => cases hagree
      | Available artifact start length path line =>
        simp only [relationship, Sum.inl.injEq, Prod.mk.injEq] at hagree
        obtain ⟨rfl, rfl, rfl, hcomponents, rfl⟩ := hagree
        cases source with
        | Unavailable reason => cases hmeans
        | Available record =>
          obtain ⟨hartifact, hstart, hlength, hdisplay, hline⟩ := hmeans
          refine .available hpath ?_ hline ?_ (slice_item hlocate hstart hlength)
          · rw [PathBuf.beq_iff, hdisplay, hcomponents]
          · rw [hartifact]
            exact hstored artifact _ hfile

variable [Ord FileId] {sources : Snapshots FileId} {files : List (FileId × String)} {records : List Record} {tree : Tree}

/-- A declared snapshot has the declared length. -/
theorem InStep.declared_stored (h : InStep lookup_source_file sources tree files records) {artifact length : UInt64}
    (hdeclared : (artifact, length) ∈ source_files_of records) : ∃ bytes, bytes.length = length.toNat ∧
      tree (sources.directory.join (snapshot_name artifact)) = some (.file bytes) := by
  have hmem := List.mem_map_of_mem (f := fun file : UInt64 × UInt64 => (file.1.toNat, file.2.toNat)) hdeclared
  rw [h.declared, List.mem_mapIdx] at hmem
  obtain ⟨i, hi, heq⟩ := hmem
  obtain ⟨hartifact, hlength⟩ := Prod.mk.inj heq
  refine ⟨text files[i].2, hlength, h.stored artifact _ ?_⟩
  rw [← hartifact]
  exact List.getElem?_eq_getElem hi

variable [Std.TransOrd FileId] [Std.LawfulEqOrd FileId] [DecidableEq FileId]

/-- What a manifest tells is what the compiler has answered, where its stream and its snapshots are those of a collection. -/
theorem collect_tells (hfaithful : Faithful lookup_source_file) {marker : String} {configuration : Configuration}
    {codegen_units : List CodegenUnit} {directory : Path} {package_root : OsString} {stream : List UInt8} {w w' : World}
    (hrun : collect lookup_source_file marker configuration codegen_units (.new directory package_root) w =
      (.ok (sources, stream), w'))
    (hkept : ∀ artifact, tree (directory.join (snapshot_name artifact)) = w'.tree (directory.join (snapshot_name artifact)))
    {path : PathBuf} {manifest : CompilerManifest}
    (hread : (⟨path, stream, none, marker⟩ : ManifestDecoder).read = .ok manifest) :
    Tells lookup_source_file package_root configuration codegen_units tree directory manifest := by
  obtain ⟨files, records, hspellable, hstream, rfl, hstep, hfunctions, hmodules⟩ := collect_places hfaithful hrun
  obtain ⟨settings, spelled, hspelled, hreader, hrules, hgrouped⟩ := ManifestDecoder.read_grouped hread
  obtain ⟨rfl, rfl, -⟩ := encode_delimited hspelled hspellable (congrArg (· ++ []) (hreader.symm.trans hstream))
  have hkeys : (functions codegen_units).map Function.key = (placements_of spelled).map protocol.Placement.key := by
    rw [← List.forall₂_eq_eq_eq, List.forall₂_map_left_iff, List.forall₂_map_right_iff]
    exact hfunctions.imp fun _ _ hplaces => hplaces.key.symm
  refine {
    configuration := hgrouped.configuration
    distinct := hgrouped.keys_nodup
    keys := fun key => by rw [hgrouped.keys, hkeys]
    placements := fun record hrecord => ?_
    sources := fun record hrecord function hfunction hkey => ?_
    modules := hgrouped.modules ▸ hmodules
    declared := fun record hrecord source hsource => ?_
    snapshots := fun artifact hartifact => ?_ }
  · have hunder := List.rel_filter (p := fun function => function.key = instance_key record)
      (q := fun placement => placement.key = instance_key record)
      (fun _ _ hplaces => by simp only [decide_eq_true_eq, hplaces.key]) hfunctions
    refine forall₂_comp (fun function placement record hplaces hmeans => ?_) hunder (hgrouped.placements record hrecord)
    obtain ⟨hunit, hlinkage, hvisibility, hcopy, hsize⟩ := hmeans
    exact ⟨hunit.trans hplaces.codegen_unit, hlinkage.trans hplaces.linkage, hvisibility.trans hplaces.visibility,
      hcopy.trans hplaces.local_copy, hsize.trans hplaces.size_estimate⟩
  · have hflipped : List.Forall₂ (flip (Places lookup_source_file package_root files)) (placements_of spelled)
        (functions codegen_units) := hfunctions.flip
    obtain ⟨placement, hplacement, hplaces⟩ := exists_of_mem_right hflipped hfunction
    have hunder := mem_placed_under.mpr ⟨hplacement, hplaces.key.trans hkey⟩
    obtain ⟨first, hfirst⟩ : ∃ first, (placed_under (instance_key record) (placements_of spelled)).head? = some first :=
      Option.isSome_iff_exists.mp (List.isSome_head?.mpr (List.ne_nil_of_mem hunder))
    obtain ⟨hplaced, hfirst_key⟩ := mem_placed_under.mp (List.mem_of_mem_head? hfirst)
    have hagree := hrules.record_rules.placements.agree first hplaced placement hplacement
      (hfirst_key.trans (hplaces.key.trans hkey).symm)
    exact hplaces.source.quotes (fun artifact file hfile => (hkept artifact).trans (hstep.stored artifact file hfile))
      (hgrouped.sources record hrecord first hfirst) hagree
  · have hvalid := hstep.source_valid hgrouped [] hrecord
    rw [List.append_nil, validate_source_eq_ok_iff] at hvalid
    exact (declared_iff (hstep.artifacts_distinct hgrouped)).mp (hvalid source hsource)
  · rw [hgrouped.artifacts] at hartifact
    obtain ⟨⟨id, length⟩, hdeclared, rfl⟩ := List.mem_map.mp hartifact
    obtain ⟨bytes, hlength, hfile⟩ := hstep.declared_stored hdeclared
    exact ⟨bytes, hlength, (hkept id).trans hfile⟩

end optic.driver
