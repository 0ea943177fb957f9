import Optic.Compiler.DecoderReads

open rust optic.records wire wire.Decoder optic.compiler.protocol

namespace optic.compiler

/-- The placement records of a stream. -/
def placements_of (records : List Record) : List protocol.Placement :=
  records.filterMap fun
    | .Placement placement => some placement
    | _ => none

/-- The IDs and lengths of the source-file records of a stream. -/
def source_files_of (records : List Record) : List (UInt64 × UInt64) :=
  records.filterMap fun
    | .SourceFile artifact length => some (artifact, length)
    | _ => none

/-- The names and paths of the module records of a stream. -/
def modules_of (records : List Record) : List ExpectedModule :=
  records.filterMap fun
    | .Module name path => some ⟨name, ⟨path⟩⟩
    | _ => none

section Projections

variable (records : List Record) (placement : protocol.Placement) (artifact length : UInt64) (name path : String)

theorem placements_of_placement : placements_of (records ++ [.Placement placement]) = placements_of records ++ [placement] := by
  simp [placements_of]

theorem placements_of_source_file : placements_of (records ++ [.SourceFile artifact length]) = placements_of records := by
  simp [placements_of]

theorem placements_of_module : placements_of (records ++ [.Module name path]) = placements_of records := by
  simp [placements_of]

theorem source_files_of_placement : source_files_of (records ++ [.Placement placement]) = source_files_of records := by
  simp [source_files_of]

theorem source_files_of_source_file :
    source_files_of (records ++ [.SourceFile artifact length]) = source_files_of records ++ [(artifact, length)] := by
  simp [source_files_of]

theorem source_files_of_module : source_files_of (records ++ [.Module name path]) = source_files_of records := by
  simp [source_files_of]

theorem modules_of_placement : modules_of (records ++ [.Placement placement]) = modules_of records := by
  simp [modules_of]

theorem modules_of_source_file : modules_of (records ++ [.SourceFile artifact length]) = modules_of records := by
  simp [modules_of]

theorem modules_of_module : modules_of (records ++ [.Module name path]) = modules_of records ++ [⟨name, ⟨path⟩⟩] := by
  simp [modules_of]

end Projections

/-- The placements of one instance, in stream order. -/
def placed_under (key : InstanceKey) (placements : List protocol.Placement) : List protocol.Placement :=
  placements.filter fun placement => placement.key = key

/-- What placements of one instance have to agree on. Display paths are compared by their
components. -/
def relationship : protocol.Source → (UInt64 × UInt64 × UInt64 × List Component × UInt64) ⊕ SourceUnavailable
  | .Available artifact start length display_path starting_line =>
    .inl (artifact, start, length, (PathBuf.mk display_path).components, starting_line)
  | .Unavailable reason => .inr reason

/-- An available source has a path, a line, and an end that fits in `u64`. -/
def SourceValid : protocol.Source → Prop
  | .Available _ start length display_path starting_line =>
    display_path ≠ "" ∧ starting_line ≠ 0 ∧ start.toNat + length.toNat < UInt64.size
  | .Unavailable _ => True

/-- A file right inside the `llvm` directory of the attempt that a manifest path lies in. -/
def Immediate (path file : PathBuf) : Prop :=
  ∃ attempt, path.parent = some attempt ∧ file.parent = some (attempt ++ [.Normal (text "llvm")]) ∧
    file.file_name ≠ none

/-- The rules for placement records that hold record by record. -/
structure PlacementRules (placements : List protocol.Placement) : Prop where
  named : ∀ placement ∈ placements, placement.codegen_unit ≠ "" ∧ placement.linkage ≠ "" ∧ placement.visibility ≠ ""
  valid : ∀ placement ∈ placements, SourceValid placement.source
  agree : ∀ placement ∈ placements, ∀ other ∈ placements, placement.key = other.key →
    relationship placement.source = relationship other.source

/-- The rules for instances, which the groups of placements make up. -/
structure InstanceRules (placements : List protocol.Placement) : Prop where
  named : ∀ placement ∈ placements, ∀ value ∈ placement.key.texts, value ≠ ""
  units_distinct : ∀ key, ((placed_under key placements).map protocol.Placement.codegen_unit).Nodup

/-- The rules for module records, which only a supported configuration has. -/
structure ModuleRules (path : PathBuf) (supported : Prop) (modules : List ExpectedModule) : Prop where
  configured : modules ≠ [] → supported
  named : ∀ module ∈ modules, module.name ≠ ""
  immediate : ∀ module ∈ modules, Immediate path module.path
  names_distinct : (modules.map ExpectedModule.name).Nodup
  paths_distinct : (modules.map fun module => module.path.components).Nodup

/-- The group that the placements of one instance make up. -/
def Groups : List protocol.Placement → Option InstancePlacements → Prop
  | [], none => True
  | first :: rest, some group =>
    List.Forall₂ PlacementMeans (first :: rest) group.placements ∧ SourceMeans first.source group.source
  | _, _ => False

/-- The declarations that records lead to. -/
structure Reflects (records : List Record) (declared : Declarations) : Prop where
  groups : ∀ key, Groups (placed_under key (placements_of records)) declared.placements[key]?
  artifacts : declared.artifacts = (source_files_of records).map fun file => ⟨⟨file.1⟩, .Source, file.2⟩
  ids : ∀ id, id ∈ declared.artifact_ids ↔ id.value ∈ (source_files_of records).map Prod.fst
  modules : declared.modules = modules_of records
  names : ∀ name, name ∈ declared.module_names ↔ name ∈ (modules_of records).map ExpectedModule.name
  paths : ∀ components, components ∈ declared.module_paths.map PathBuf.components ↔
    components ∈ (modules_of records).map fun module => module.path.components

theorem exists_placement_means_iff {placement : protocol.Placement} :
    (∃ record, PlacementMeans placement record) ↔
      placement.codegen_unit ≠ "" ∧ placement.linkage ≠ "" ∧ placement.visibility ≠ "" := by
  constructor
  · rintro ⟨record, hunit, hlinkage, hvisibility, -⟩
    exact ⟨hunit ▸ record.unit_named, hlinkage ▸ record.linkage_named, hvisibility ▸ record.visibility_named⟩
  · rintro ⟨hunit, hlinkage, hvisibility⟩
    exact ⟨⟨_, _, _, _, _, hunit, hlinkage, hvisibility⟩, rfl, rfl, rfl, rfl, rfl⟩

theorem exists_source_means_iff {source : protocol.Source} :
    (∃ availability, SourceMeans source availability) ↔ SourceValid source := by
  cases source with
  | Unavailable reason => exact ⟨fun _ => trivial, fun _ => ⟨.Unavailable reason, rfl⟩⟩
  | Available artifact start length path line =>
    constructor
    · rintro ⟨availability, h⟩
      cases availability with
      | Unavailable reason => cases h
      | Available record =>
        obtain ⟨-, rfl, rfl, hpath, rfl⟩ := h
        refine ⟨?_, record.line_positive, record.range.fits⟩
        have hnamed := record.path_named
        rwa [hpath] at hnamed
    · rintro ⟨hpath, hline, hfits⟩
      exact ⟨.Available ⟨⟨artifact⟩, ⟨start, length, hfits⟩, ⟨path⟩, line, hpath, hline⟩, rfl, rfl, rfl, rfl, rfl⟩

/-- Decoded sources are equal when the spelled ones agree. -/
theorem beq_iff_relationship_eq {a b : protocol.Source} {x y : SourceAvailability} (ha : SourceMeans a x)
    (hb : SourceMeans b y) : (x == y) = true ↔ relationship a = relationship b := by
  cases x with
  | Available x =>
    cases a with
    | Unavailable reason => cases ha
    | Available artifact start length path line =>
      cases y with
      | Available y =>
        cases b with
        | Unavailable reason => cases hb
        | Available artifact' start' length' path' line' =>
          obtain ⟨hartifact, hstart, hlength, hpath, hline⟩ := ha
          obtain ⟨hartifact', hstart', hlength', hpath', hline'⟩ := hb
          have hrange : x.range = y.range ↔ x.range.start = y.range.start ∧ x.range.length = y.range.length := by
            cases x.range
            cases y.range
            simp
          change (_ && _ && _ && _) = true ↔ _
          simp only [Bool.and_eq_true, decide_eq_true_eq, hrange, PathBuf.beq_iff, hartifact, hartifact', hstart,
            hstart', hlength, hlength', hpath, hpath', hline, hline', relationship, ArtifactId.mk.injEq,
            Sum.inl.injEq, Prod.mk.injEq]
          tauto
      | Unavailable reason =>
        cases b with
        | Available artifact' start' length' path' line' => cases hb
        | Unavailable reason' => exact ⟨nofun, nofun⟩
  | Unavailable x =>
    cases a with
    | Available artifact start length path line => cases ha
    | Unavailable reason =>
      cases ha
      cases y with
      | Available y =>
        cases b with
        | Available artifact' start' length' path' line' => exact ⟨nofun, nofun⟩
        | Unavailable reason' => cases hb
      | Unavailable y =>
        cases b with
        | Available artifact' start' length' path' line' => cases hb
        | Unavailable reason' =>
          cases hb
          change decide _ = true ↔ _
          simp [relationship]

theorem placed_under_append (key : InstanceKey) (placements : List protocol.Placement) (placement : protocol.Placement) :
    placed_under key (placements ++ [placement]) =
      placed_under key placements ++ if placement.key = key then [placement] else [] := by
  rw [placed_under, List.filter_append, List.filter_singleton]
  by_cases h : placement.key = key
  · simp [h, placed_under]
  · simp [h, placed_under]

theorem Groups.eq_nil {placements : List protocol.Placement} (h : Groups placements none) : placements = [] := by
  cases placements with
  | nil => rfl
  | cons first rest => cases h

/-- A group has the source of its first placement. -/
theorem Groups.exists_first {placements : List protocol.Placement} {group : InstancePlacements}
    (h : Groups placements (some group)) : ∃ first ∈ placements.head?,
      List.Forall₂ PlacementMeans placements group.placements ∧ SourceMeans first.source group.source := by
  cases placements with
  | nil => cases h
  | cons first rest => exact ⟨first, rfl, h⟩

/-- A group starts with its first placement. -/
theorem Groups.first {placements : List protocol.Placement} {placement : protocol.Placement} {record : PlacementRecord}
    {source : SourceAvailability} (h : Groups placements none) (hrecord : PlacementMeans placement record)
    (hsource : SourceMeans placement.source source) :
    Groups (placements ++ [placement]) (some ⟨[record], source⟩) := by
  cases placements with
  | nil => exact ⟨.cons hrecord .nil, hsource⟩
  | cons first rest => cases h

/-- A later placement joins the group behind the others. -/
theorem Groups.later {placements : List protocol.Placement} {placement : protocol.Placement} {record : PlacementRecord}
    {group : InstancePlacements} (h : Groups placements (some group)) (hrecord : PlacementMeans placement record) :
    Groups (placements ++ [placement]) (some { group with placements := group.placements ++ [record] }) := by
  cases placements with
  | nil => cases h
  | cons first rest => exact ⟨List.rel_append h.1 (.cons hrecord .nil), h.2⟩

variable {self : ManifestDecoder} {records : List Record} {declared next : Declarations}

/-- Accepted placements keep the groups in step with the records. -/
theorem Reflects.place {placement : protocol.Placement} (h : Reflects records declared)
    (hplaces : self.Places declared placement next) : Reflects (records ++ [.Placement placement]) next := by
  obtain ⟨record, source, placements, hrecord, hsource, hadd, rfl⟩ := hplaces
  have hfiles := source_files_of_placement records placement
  have hmodules := modules_of_placement records placement
  refine ⟨fun key => ?_, hfiles ▸ h.artifacts, hfiles ▸ h.ids, hmodules ▸ h.modules, hmodules ▸ h.names,
    hmodules ▸ h.paths⟩
  have hgroup := h.groups key
  rw [placements_of_placement, placed_under_append]
  unfold ManifestDecoder.add_placement at hadd
  split at hadd
  · next existing hexisting =>
    split at hadd
    · cases hadd
    · cases hadd
      rw [Std.TreeMap.getElem?_insert]
      by_cases hkey : placement.key = key
      · subst hkey
        rw [if_pos rfl, if_pos Std.compare_self]
        rw [hexisting] at hgroup
        exact hgroup.later hrecord
      · rw [if_neg hkey, if_neg (fun heq => hkey (Std.compare_eq_iff_eq.mp heq)), List.append_nil]
        exact hgroup
  · next hmissing =>
    cases hadd
    rw [Std.TreeMap.getElem?_insert]
    by_cases hkey : placement.key = key
    · subst hkey
      rw [if_pos rfl, if_pos Std.compare_self]
      rw [hmissing] at hgroup
      exact hgroup.first hrecord hsource
    · rw [if_neg hkey, if_neg (fun heq => hkey (Std.compare_eq_iff_eq.mp heq)), List.append_nil]
      exact hgroup

theorem placement_rules_append_iff {placements : List protocol.Placement} {placement : protocol.Placement} :
    PlacementRules (placements ++ [placement]) ↔ PlacementRules placements ∧
      (placement.codegen_unit ≠ "" ∧ placement.linkage ≠ "" ∧ placement.visibility ≠ "") ∧
        SourceValid placement.source ∧ ∀ other ∈ placements, other.key = placement.key →
          relationship other.source = relationship placement.source := by
  constructor
  · intro h
    have hmem : placement ∈ placements ++ [placement] := List.mem_append_right _ (List.mem_singleton_self _)
    refine ⟨⟨fun other hother => h.named other (List.mem_append_left _ hother),
      fun other hother => h.valid other (List.mem_append_left _ hother), fun first hfirst other hother =>
        h.agree first (List.mem_append_left _ hfirst) other (List.mem_append_left _ hother)⟩, h.named _ hmem,
      h.valid _ hmem, fun other hother => h.agree other (List.mem_append_left _ hother) _ hmem⟩
  · rintro ⟨h, hnamed, hvalid, hagree⟩
    refine ⟨List.forall_mem_append.mpr ⟨h.named, List.forall_mem_singleton.mpr hnamed⟩,
      List.forall_mem_append.mpr ⟨h.valid, List.forall_mem_singleton.mpr hvalid⟩,
      List.forall_mem_append.mpr ⟨fun first hfirst => ?_, List.forall_mem_singleton.mpr ?_⟩⟩
    · exact List.forall_mem_append.mpr ⟨h.agree first hfirst, List.forall_mem_singleton.mpr (hagree first hfirst)⟩
    · exact List.forall_mem_append.mpr ⟨fun other hother hkey => (hagree other hother hkey.symm).symm,
        List.forall_mem_singleton.mpr fun _ => rfl⟩

theorem mem_placed_under {key : InstanceKey} {placements : List protocol.Placement} {placement : protocol.Placement} :
    placement ∈ placed_under key placements ↔ placement ∈ placements ∧ placement.key = key := by
  rw [placed_under, List.mem_filter, decide_eq_true_eq]

/-- The decoder accepts the placements that the rules admit behind the records so far. -/
theorem Reflects.exists_places_iff {placement : protocol.Placement} (h : Reflects records declared)
    (hrules : PlacementRules (placements_of records)) :
    (∃ next, self.Places declared placement next) ↔ PlacementRules (placements_of records ++ [placement]) := by
  have hgroup := h.groups placement.key
  rw [placement_rules_append_iff]
  constructor
  · rintro ⟨next, record, source, placements, hrecord, hsource, hadd, -⟩
    refine ⟨hrules, exists_placement_means_iff.mp ⟨record, hrecord⟩, exists_source_means_iff.mp ⟨source, hsource⟩, ?_⟩
    intro other hother hkey
    have hunder := mem_placed_under.mpr ⟨hother, hkey⟩
    unfold ManifestDecoder.add_placement at hadd
    split at hadd
    · next existing hexisting =>
      split at hadd
      · cases hadd
      · next hsame =>
        rw [hexisting] at hgroup
        obtain ⟨first, hfirst, -, hfound⟩ := hgroup.exists_first
        obtain ⟨hplaced, hfirst⟩ := mem_placed_under.mp (List.mem_of_mem_head? hfirst)
        have hagree := (beq_iff_relationship_eq hfound hsource).mp (by simpa [bne] using hsame)
        rw [← hagree]
        exact hrules.agree other hother first hplaced (hkey.trans hfirst.symm)
    · next hmissing =>
      rw [hmissing] at hgroup
      rw [hgroup.eq_nil] at hunder
      cases hunder
  · rintro ⟨-, hnamed, hvalid, hagree⟩
    obtain ⟨record, hrecord⟩ := exists_placement_means_iff.mpr hnamed
    obtain ⟨source, hsource⟩ := exists_source_means_iff.mpr hvalid
    have hadd : ∃ placements, self.add_placement declared.placements placement.key record source = .ok placements := by
      unfold ManifestDecoder.add_placement
      split
      · next existing hexisting =>
        rw [hexisting] at hgroup
        obtain ⟨first, hfirst, -, hfound⟩ := hgroup.exists_first
        obtain ⟨hplaced, hfirst⟩ := mem_placed_under.mp (List.mem_of_mem_head? hfirst)
        have hsame := (beq_iff_relationship_eq hfound hsource).mpr (hagree first hplaced hfirst)
        rw [if_neg (by simp [bne, hsame])]
        exact ⟨_, rfl⟩
      · exact ⟨_, rfl⟩
    obtain ⟨placements, hadd⟩ := hadd
    exact ⟨_, record, source, placements, hrecord, hsource, hadd, rfl⟩

theorem nodup_append_singleton_iff {α : Type} {l : List α} {a : α} : (l ++ [a]).Nodup ↔ l.Nodup ∧ a ∉ l := by
  rw [List.nodup_append_comm, List.singleton_append, List.nodup_cons, and_comm]

/-- Accepted source files keep the artifacts in step with the records. -/
theorem Reflects.declare_source {artifact length : UInt64} (h : Reflects records declared)
    (hdeclares : ManifestDecoder.DeclaresSource declared artifact length next) :
    Reflects (records ++ [.SourceFile artifact length]) next := by
  obtain ⟨-, rfl⟩ := hdeclares
  have hplaced := placements_of_source_file records artifact length
  have hmodules := modules_of_source_file records artifact length
  refine ⟨hplaced ▸ h.groups, ?_, ?_, hmodules ▸ h.modules, hmodules ▸ h.names, hmodules ▸ h.paths⟩
  · rw [source_files_of_source_file, List.map_append, h.artifacts]
    rfl
  · intro id
    rw [source_files_of_source_file, List.map_append, List.mem_append, ← h.ids, List.mem_cons, or_comm]
    obtain ⟨value⟩ := id
    simp

/-- The decoder accepts the source files whose IDs are new. -/
theorem Reflects.exists_declares_source_iff {artifact length : UInt64} (h : Reflects records declared)
    (hdistinct : ((source_files_of records).map Prod.fst).Nodup) :
    (∃ next, ManifestDecoder.DeclaresSource declared artifact length next) ↔
      ((source_files_of (records ++ [.SourceFile artifact length])).map Prod.fst).Nodup := by
  rw [source_files_of_source_file, List.map_append, List.map_singleton, nodup_append_singleton_iff]
  have hfresh : (∀ id ∈ declared.artifact_ids, id ≠ ⟨artifact⟩) ↔ artifact ∉ (source_files_of records).map Prod.fst := by
    rw [← h.ids ⟨artifact⟩]
    exact ⟨fun hfresh hmem => hfresh _ hmem rfl, fun hnot id hid heq => hnot (heq ▸ hid)⟩
  constructor
  · rintro ⟨next, hnew, -⟩
    exact ⟨hdistinct, hfresh.mp hnew⟩
  · rintro ⟨-, hnew⟩
    exact ⟨_, hfresh.mpr hnew, rfl⟩

/-- The checks of one expected module. -/
theorem ManifestDecoder.expect_module_eq_ok_iff {settings : Configuration} {name : String} {path : PathBuf} :
    self.expect_module settings declared name path = .ok next ↔
      (settings.unsupported = none ∧ name ≠ "" ∧ Immediate self.path path ∧ name ∉ declared.module_names ∧
        path.components ∉ declared.module_paths.map PathBuf.components) ∧
      { declared with
        modules := declared.modules ++ [{ name, path }],
        module_names := name :: declared.module_names,
        module_paths := path :: declared.module_paths } = next := by
  have hnames : (∀ other ∈ declared.module_names, ¬ other = name) ↔ name ∉ declared.module_names :=
    ⟨fun h hmem => h name hmem rfl, fun h other hother heq => h (heq ▸ hother)⟩
  have hpaths : (∀ other ∈ declared.module_paths, ¬ (other == path) = true) ↔
      path.components ∉ declared.module_paths.map PathBuf.components := by
    simp only [PathBuf.beq_iff, List.mem_map, not_exists, not_and]
  simp only [expect_module, bind_eq_ok_iff, ensure_eq_ok_iff, ok_or_eq_ok_iff, pure_eq_ok, Except.ok.injEq,
    Option.isNone_iff_eq_none, Bool.not_eq_true', Bool.or_eq_false_iff, decide_eq_false_iff_not, Immediate,
    List.any_eq_false, decide_eq_true_eq, hnames, hpaths, ne_eq, Decidable.not_not]
  constructor
  · rintro ⟨-, hsupported, attempt, hattempt, -, ⟨⟨hname, hparent⟩, hfile⟩, -, ⟨hfresh, hnew⟩, rfl⟩
    refine ⟨⟨hsupported, hname, ⟨attempt, hattempt, hparent, ?_⟩, hfresh, hnew⟩, rfl⟩
    rintro hnone
    rw [hnone] at hfile
    cases hfile
  · rintro ⟨⟨hsupported, hname, ⟨attempt, hattempt, hparent, hfile⟩, hfresh, hnew⟩, rfl⟩
    refine ⟨(), hsupported, attempt, hattempt, (), ⟨⟨hname, hparent⟩, ?_⟩, (), ⟨hfresh, hnew⟩, rfl⟩
    cases hname : path.file_name with
    | none => exact absurd hname hfile
    | some file => rfl

theorem module_rules_append_iff {path : PathBuf} {supported : Prop} {modules : List ExpectedModule}
    {module : ExpectedModule} :
    ModuleRules path supported (modules ++ [module]) ↔ ModuleRules path supported modules ∧
      supported ∧ module.name ≠ "" ∧ Immediate path module.path ∧
        module.name ∉ modules.map ExpectedModule.name ∧
          module.path.components ∉ modules.map fun module => module.path.components := by
  constructor
  · intro h
    have hnamed := List.forall_mem_append.mp h.named
    have himmediate := List.forall_mem_append.mp h.immediate
    have hnames := h.names_distinct
    have hpaths := h.paths_distinct
    rw [List.map_append, List.map_singleton, nodup_append_singleton_iff] at hnames hpaths
    have hsupported : supported := h.configured (by simp)
    exact ⟨⟨fun _ => hsupported, hnamed.1, himmediate.1, hnames.1, hpaths.1⟩, hsupported,
      hnamed.2 module (List.mem_singleton_self _), himmediate.2 module (List.mem_singleton_self _), hnames.2, hpaths.2⟩
  · rintro ⟨h, hsupported, hname, hpath, hfresh, hnew⟩
    refine ⟨fun _ => hsupported, List.forall_mem_append.mpr ⟨h.named, List.forall_mem_singleton.mpr hname⟩,
      List.forall_mem_append.mpr ⟨h.immediate, List.forall_mem_singleton.mpr hpath⟩, ?_, ?_⟩
    · rw [List.map_append, List.map_singleton, nodup_append_singleton_iff]
      exact ⟨h.names_distinct, hfresh⟩
    · rw [List.map_append, List.map_singleton, nodup_append_singleton_iff]
      exact ⟨h.paths_distinct, hnew⟩

/-- Accepted modules stay in step with the records. -/
theorem Reflects.expect_module {settings : Configuration} {name path : String} (h : Reflects records declared)
    (hmodule : self.expect_module settings declared name ⟨path⟩ = .ok next) :
    Reflects (records ++ [.Module name path]) next := by
  obtain ⟨-, rfl⟩ := ManifestDecoder.expect_module_eq_ok_iff.mp hmodule
  have hplaced := placements_of_module records name path
  have hfiles := source_files_of_module records name path
  refine ⟨hplaced ▸ h.groups, hfiles ▸ h.artifacts, hfiles ▸ h.ids, ?_, ?_, ?_⟩
  · rw [modules_of_module, h.modules]
  · intro other
    rw [modules_of_module, List.map_append, List.mem_append, ← h.names, List.mem_cons, or_comm]
    simp
  · intro other
    rw [modules_of_module, List.map_append, List.mem_append, ← h.paths, List.map_cons, List.mem_cons, or_comm]
    simp

/-- The decoder accepts the modules that the rules admit behind the records so far. -/
theorem Reflects.exists_expect_module_iff {settings : Configuration} {name path : String} (h : Reflects records declared)
    (hrules : ModuleRules self.path (settings.unsupported = none) (modules_of records)) :
    (∃ next, self.expect_module settings declared name ⟨path⟩ = .ok next) ↔
      ModuleRules self.path (settings.unsupported = none) (modules_of (records ++ [.Module name path])) := by
  rw [modules_of_module, module_rules_append_iff, ← h.names, ← h.paths]
  simp only [ManifestDecoder.expect_module_eq_ok_iff, exists_and_left, exists_eq', and_true]
  exact (and_iff_right hrules).symm

/-- The rules that the decoder checks record by record. -/
structure RecordRules (path : PathBuf) (supported : Prop) (records : List Record) : Prop where
  placements : PlacementRules (placements_of records)
  ids_distinct : ((source_files_of records).map Prod.fst).Nodup
  modules : ModuleRules path supported (modules_of records)

/-- One step: the decoder accepts a record when the rules admit it behind the others. -/
theorem Reflects.exists_declares_iff {settings : Configuration} {record : Record} (h : Reflects records declared)
    (hrules : RecordRules self.path (settings.unsupported = none) records) :
    (∃ next, self.Declares settings declared record next) ↔
      RecordRules self.path (settings.unsupported = none) (records ++ [record]) := by
  cases record with
  | Placement placement =>
    have hfiles := source_files_of_placement records placement
    have hmodules := modules_of_placement records placement
    rw [show self.Declares settings declared (.Placement placement) = self.Places declared placement from rfl,
      h.exists_places_iff hrules.placements, ← placements_of_placement]
    exact ⟨fun hplaced => ⟨hplaced, hfiles ▸ hrules.ids_distinct, hmodules ▸ hrules.modules⟩, fun hnext => hnext.placements⟩
  | SourceFile artifact length =>
    have hplaced := placements_of_source_file records artifact length
    have hmodules := modules_of_source_file records artifact length
    refine (h.exists_declares_source_iff hrules.ids_distinct).trans ⟨fun hdistinct => ?_, fun hnext => hnext.ids_distinct⟩
    exact ⟨hplaced ▸ hrules.placements, hdistinct, hmodules ▸ hrules.modules⟩
  | Module name path =>
    have hplaced := placements_of_module records name path
    have hfiles := source_files_of_module records name path
    refine (h.exists_expect_module_iff hrules.modules).trans ⟨fun hmodule => ?_, fun hnext => hnext.modules⟩
    exact ⟨hplaced ▸ hrules.placements, hfiles ▸ hrules.ids_distinct, hmodule⟩

theorem Reflects.declares {settings : Configuration} {record : Record} (h : Reflects records declared)
    (hdeclares : self.Declares settings declared record next) : Reflects (records ++ [record]) next := by
  cases record with
  | Placement placement => exact h.place hdeclares
  | SourceFile artifact length => exact h.declare_source hdeclares
  | Module name path => exact h.expect_module hdeclares

theorem reflects_new : Reflects [] .new where
  groups key := by
    change Groups [] (∅ : PlacementsByInstance)[key]?
    rw [Std.TreeMap.getElem?_emptyc]
    trivial
  artifacts := rfl
  ids := by simp [Declarations.new, source_files_of]
  modules := rfl
  names := by simp [Declarations.new, modules_of]
  paths := by simp [Declarations.new, modules_of]

theorem record_rules_nil (path : PathBuf) (supported : Prop) : RecordRules path supported [] where
  placements := ⟨nofun, nofun, nofun⟩
  ids_distinct := .nil
  modules := ⟨fun h => absurd rfl h, nofun, nofun, .nil, .nil⟩

theorem RecordRules.init {path : PathBuf} {supported : Prop} {record : Record}
    (h : RecordRules path supported (records ++ [record])) : RecordRules path supported records := by
  obtain ⟨hplacements, hids, hmodules⟩ := h
  cases record with
  | Placement placement =>
    rw [placements_of_placement] at hplacements
    rw [source_files_of_placement] at hids
    rw [modules_of_placement] at hmodules
    exact ⟨(placement_rules_append_iff.mp hplacements).1, hids, hmodules⟩
  | SourceFile artifact length =>
    rw [placements_of_source_file] at hplacements
    rw [source_files_of_source_file, List.map_append, List.map_singleton, nodup_append_singleton_iff] at hids
    rw [modules_of_source_file] at hmodules
    exact ⟨hplacements, hids.1, hmodules⟩
  | Module name path =>
    rw [placements_of_module] at hplacements
    rw [source_files_of_module] at hids
    rw [modules_of_module] at hmodules
    exact ⟨hplacements, hids, (module_rules_append_iff.mp hmodules).1⟩

/-- The whole loop: the records obey the rules, and the declarations reflect them. -/
theorem steps_reflect {settings : Configuration} (records : List Record) : ∀ {declared : Declarations},
    Steps (self.Declares settings) .new records declared →
      RecordRules self.path (settings.unsupported = none) records ∧ Reflects records declared := by
  induction records using List.reverseRecOn with
  | nil =>
    intro declared h
    obtain rfl := steps_nil_iff.mp h
    exact ⟨record_rules_nil _ _, reflects_new⟩
  | append_singleton records record ih =>
    intro next h
    obtain ⟨declared, hsteps, hdeclares⟩ := steps_append_iff.mp h
    obtain ⟨hrules, hreflects⟩ := ih hsteps
    exact ⟨(hreflects.exists_declares_iff hrules).mp ⟨next, hdeclares⟩, hreflects.declares hdeclares⟩

/-- The loop gets through every stream that obeys the rules. -/
theorem exists_steps {settings : Configuration} (records : List Record)
    (h : RecordRules self.path (settings.unsupported = none) records) :
    ∃ declared, Steps (self.Declares settings) .new records declared := by
  induction records using List.reverseRecOn with
  | nil => exact ⟨.new, .nil⟩
  | append_singleton records record ih =>
    obtain ⟨declared, hsteps⟩ := ih h.init
    obtain ⟨hrules, hreflects⟩ := steps_reflect records hsteps
    obtain ⟨next, hdeclares⟩ := (hreflects.exists_declares_iff hrules).mpr h
    exact ⟨next, steps_append_iff.mpr ⟨declared, hsteps, hdeclares⟩⟩

theorem exists_forall₂_iff {α β : Type} {R : α → β → Prop} {l : List α} :
    (∃ l', List.Forall₂ R l l') ↔ ∀ a ∈ l, ∃ b, R a b := by
  induction l with
  | nil => exact ⟨fun _ => nofun, fun _ => ⟨[], .nil⟩⟩
  | cons a l ih =>
    rw [List.forall_mem_cons, ← ih]
    constructor
    · rintro ⟨_, hcons⟩
      cases hcons with
      | cons hfirst hrest => exact ⟨⟨_, hfirst⟩, _, hrest⟩
    · rintro ⟨⟨b, hfirst⟩, l', hrest⟩
      exact ⟨b :: l', .cons hfirst hrest⟩

/-- A group of the map is the group of the placements under its key. -/
theorem Reflects.group {key : InstanceKey} {group : InstancePlacements} (h : Reflects records declared)
    (hgroup : (key, group) ∈ declared.placements.toList) : Groups (placed_under key (placements_of records)) (some group) := by
  rw [← Std.TreeMap.mem_toList_iff_getElem?_eq_some.mp hgroup]
  exact h.groups key

theorem placement_means_units {placements : List protocol.Placement} {records : List PlacementRecord}
    (h : List.Forall₂ PlacementMeans placements records) :
    records.map PlacementRecord.codegen_unit = placements.map protocol.Placement.codegen_unit := by
  induction h with
  | nil => rfl
  | cons hfirst _ ih => rw [List.map_cons, List.map_cons, hfirst.1, ih]

/-- A group has a record when its identity is named and its codegen units are distinct. -/
theorem exists_instance_iff {key : InstanceKey} {group : InstancePlacements} {placements : List protocol.Placement}
    (h : Groups placements (some group)) :
    (∃ record : InstanceRecord, instance_key record = key ∧ record.placements = group.placements ∧
      record.source = group.source) ↔
      (∀ value ∈ key.texts, value ≠ "") ∧ (placements.map protocol.Placement.codegen_unit).Nodup := by
  obtain ⟨first, hfirst, hmeans, -⟩ := h.exists_first
  have hplaced : group.placements ≠ [] := by
    intro hnil
    rw [hnil] at hmeans
    rw [List.forall₂_nil_right_iff.mp hmeans] at hfirst
    cases hfirst
  rw [← placement_means_units hmeans]
  constructor
  · rintro ⟨record, rfl, hplacements, -⟩
    refine ⟨?_, hplacements ▸ record.units_distinct⟩
    simp only [InstanceKey.texts, instance_key, List.forall_mem_cons]
    exact ⟨record.definition.crate_named, record.definition.path_named, record.display_named, record.symbol_named,
      List.forall_mem_nil _⟩
  · rintro ⟨hnamed, hdistinct⟩
    obtain ⟨crate, path, display, symbol⟩ := key
    simp only [InstanceKey.texts, List.forall_mem_cons] at hnamed
    obtain ⟨hcrate, hpath, hdisplay, hsymbol, -⟩ := hnamed
    exact ⟨⟨⟨crate, path, hcrate, hpath⟩, display, symbol, group.placements, group.source, hdisplay, hsymbol, hplaced,
      hdistinct⟩, rfl, rfl, rfl⟩

/-- The groups assemble when the rules for instances hold. -/
theorem Reflects.exists_assemble_iff (h : Reflects records declared) :
    (∃ instances, assemble_instances declared.placements = .ok instances) ↔ InstanceRules (placements_of records) := by
  simp only [assemble_instances_eq_ok_iff, exists_forall₂_iff]
  constructor
  · intro hall
    refine ⟨fun placement hplacement => ?_, fun key => ?_⟩
    · have hgroup := h.groups placement.key
      have hunder := mem_placed_under.mpr ⟨hplacement, rfl⟩
      cases hfound : declared.placements[placement.key]? with
      | none =>
        rw [hfound] at hgroup
        rw [hgroup.eq_nil] at hunder
        cases hunder
      | some group =>
        have hmem := Std.TreeMap.mem_toList_iff_getElem?_eq_some.mpr hfound
        exact ((exists_instance_iff (h.group hmem)).mp (hall _ hmem)).1
    · have hgroup := h.groups key
      cases hfound : declared.placements[key]? with
      | none =>
        rw [hfound] at hgroup
        rw [hgroup.eq_nil]
        exact .nil
      | some group =>
        have hmem := Std.TreeMap.mem_toList_iff_getElem?_eq_some.mpr hfound
        exact ((exists_instance_iff (h.group hmem)).mp (hall _ hmem)).2
  · rintro hrules ⟨key, group⟩ hmem
    have hgroup := h.group hmem
    obtain ⟨first, hfirst, -, -⟩ := hgroup.exists_first
    obtain ⟨hplaced, rfl⟩ := mem_placed_under.mp (List.mem_of_mem_head? hfirst)
    exact (exists_instance_iff hgroup).mpr ⟨hrules.named first hplaced, hrules.units_distinct first.key⟩

end optic.compiler
