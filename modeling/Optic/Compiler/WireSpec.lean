import Mathlib.Data.List.Perm.Basic
import Optic.Compiler.Grouping

open rust optic.records wire wire.Decoder optic.compiler.protocol

namespace optic.compiler

/-- The rules of the protocol for a stream of an attempt. -/
structure ProtocolRules (path : PathBuf) (settings : protocol.Configuration) (records : List Record) : Prop where
  support_known : ∃ support, settings.unsupported = support_code support
  record_rules : RecordRules path (settings.unsupported = LLVM_SUPPORTED) records
  instance_rules : InstanceRules (placements_of records)

/-- A manifest is the grouping of a stream: source files and modules in stream order, and
for each key of a placement one instance, in the order of the keys, that has the
placements of the key in stream order and the source of the first one. -/
structure Grouped (settings : protocol.Configuration) (records : List Record) (manifest : CompilerManifest) : Prop where
  configuration : ConfigurationMeans settings manifest.configuration
  artifacts : manifest.artifacts = (source_files_of records).map fun file => ⟨⟨file.1⟩, .Source, file.2⟩
  modules : manifest.modules = modules_of records
  ascending : manifest.instances.Pairwise fun a b => compare (instance_key a) (instance_key b) = .lt
  keys : ∀ key, key ∈ manifest.instances.map instance_key ↔ key ∈ (placements_of records).map protocol.Placement.key
  placements : ∀ record ∈ manifest.instances,
    List.Forall₂ PlacementMeans (placed_under (instance_key record) (placements_of records)) record.placements
  sources : ∀ record ∈ manifest.instances, ∀ first ∈ (placed_under (instance_key record) (placements_of records)).head?,
    SourceMeans first.source record.source

theorem configuration_means_unique {settings : protocol.Configuration} {a b : Configuration}
    (ha : ConfigurationMeans settings a) (hb : ConfigurationMeans settings b) : a = b := by
  obtain ⟨hbackend, htarget, hoptimization, hlto, hincremental, hplugin, hunits, hsupport⟩ := ha
  obtain ⟨hbackend', htarget', hoptimization', hlto', hincremental', hplugin', hunits', hsupport'⟩ := hb
  have hunsupported := support_code_injective (hsupport.trans hsupport'.symm)
  cases a
  cases b
  simp_all

theorem placement_means_unique {placement : protocol.Placement} {a b : PlacementRecord}
    (ha : PlacementMeans placement a) (hb : PlacementMeans placement b) : a = b := by
  obtain ⟨hunit, hlinkage, hvisibility, hcopy, hsize⟩ := ha
  obtain ⟨hunit', hlinkage', hvisibility', hcopy', hsize'⟩ := hb
  cases a
  cases b
  simp_all

theorem source_means_unique {source : protocol.Source} {a b : SourceAvailability} (ha : SourceMeans source a)
    (hb : SourceMeans source b) : a = b := by
  cases source with
  | Available artifact start length path line =>
    cases a with
    | Unavailable reason => cases ha
    | Available x =>
      cases b with
      | Unavailable reason => cases hb
      | Available y =>
        obtain ⟨hartifact, hstart, hlength, hpath, hline⟩ := ha
        obtain ⟨hartifact', hstart', hlength', hpath', hline'⟩ := hb
        obtain ⟨_, ⟨_, _, _⟩, _, _, _, _⟩ := x
        obtain ⟨_, ⟨_, _, _⟩, _, _, _, _⟩ := y
        simp_all
  | Unavailable reason =>
    cases a with
    | Available x => cases ha
    | Unavailable x =>
      cases b with
      | Available y => cases hb
      | Unavailable y =>
        cases ha
        cases hb
        rfl

theorem eq_of_map_eq {α κ : Type} {key : α → κ} {l : List α} : ∀ {l' : List α}, l.map key = l'.map key →
    (∀ a ∈ l, ∀ b ∈ l', key a = key b → a = b) → l = l' := by
  induction l with
  | nil =>
    intro l' h _
    exact (List.map_eq_nil_iff.mp h.symm).symm
  | cons a l ih =>
    intro l' h hsame
    cases l' with
    | nil => cases h
    | cons b l' =>
      obtain ⟨hkey, hrest⟩ := List.cons.inj h
      rw [hsame a List.mem_cons_self b List.mem_cons_self hkey, ih hrest fun x hx y hy =>
        hsame x (List.mem_cons_of_mem a hx) y (List.mem_cons_of_mem b hy)]

variable {settings : protocol.Configuration} {records : List Record} {manifest other : CompilerManifest}

/-- Instances with one key are the same group. -/
theorem Grouped.instance_eq (h : Grouped settings records manifest) (h' : Grouped settings records other)
    {a b : InstanceRecord} (ha : a ∈ manifest.instances) (hb : b ∈ other.instances)
    (hkey : instance_key a = instance_key b) : a = b := by
  have hplacements := h.placements a ha
  have hsources := h.sources a ha
  have hplacements' := h'.placements b hb
  have hsources' := h'.sources b hb
  rw [hkey] at hplacements hsources
  have hsource : a.source = b.source := by
    cases hfirst : placed_under (instance_key b) (placements_of records) with
    | nil =>
      rw [hfirst] at hplacements
      exact absurd (List.forall₂_nil_left_iff.mp hplacements) a.placed
    | cons first rest =>
      rw [hfirst] at hsources hsources'
      exact source_means_unique (hsources first rfl) (hsources' first rfl)
  have hunique : Relator.RightUnique PlacementMeans := fun _ _ _ => placement_means_unique
  have hsame := List.right_unique_forall₂' hunique hplacements hplacements'
  obtain ⟨⟨_, _, _, _⟩, _, _, _, _, _, _, _, _⟩ := a
  obtain ⟨⟨_, _, _, _⟩, _, _, _, _, _, _, _, _⟩ := b
  simp only [instance_key, InstanceKey.mk.injEq] at hkey
  simp_all

theorem Grouped.keys_nodup (h : Grouped settings records manifest) : (manifest.instances.map instance_key).Nodup := by
  rw [List.Nodup, List.pairwise_map]
  refine h.ascending.imp fun hlt heq => ?_
  rw [heq, Std.compare_self] at hlt
  cases hlt

/-- A stream has one grouping. -/
theorem Grouped.unique (h : Grouped settings records manifest) (h' : Grouped settings records other) :
    manifest = other := by
  have hperm : (manifest.instances.map instance_key).Perm (other.instances.map instance_key) :=
    (List.perm_ext_iff_of_nodup h.keys_nodup h'.keys_nodup).mpr fun key => (h.keys key).trans (h'.keys key).symm
  have hascending : (manifest.instances.map instance_key).Pairwise fun a b => compare a b = .lt :=
    List.pairwise_map.mpr h.ascending
  have hascending' : (other.instances.map instance_key).Pairwise fun a b => compare a b = .lt :=
    List.pairwise_map.mpr h'.ascending
  have hasymm : ∀ a b : InstanceKey, compare a b = .lt → compare b a = .lt → a = b :=
    fun a b hlt hgt => absurd hgt (Std.OrientedCmp.not_lt_of_lt hlt)
  have hkeys : manifest.instances.map instance_key = other.instances.map instance_key :=
    List.Perm.eq_of_pairwise (fun a b _ _ => hasymm a b) hascending hascending' hperm
  have hinstances := eq_of_map_eq hkeys fun a ha b hb => h.instance_eq h' ha hb
  have hconfiguration := configuration_means_unique h.configuration h'.configuration
  have hartifacts := h.artifacts.trans h'.artifacts.symm
  have hmodules := h.modules.trans h'.modules.symm
  cases manifest
  cases other
  simp_all

/-- A key has a group when there is a placement under it. -/
theorem Reflects.exists_group_iff {declared : Declarations} (h : Reflects records declared) {key : InstanceKey} :
    key ∈ declared.placements.toList.map Prod.fst ↔ key ∈ (placements_of records).map protocol.Placement.key := by
  have hgroup := h.groups key
  constructor
  · intro hkey
    obtain ⟨⟨_, group⟩, hmem, rfl⟩ := List.mem_map.mp hkey
    obtain ⟨first, hfirst, -, -⟩ := (h.group hmem).exists_first
    obtain ⟨hplaced, hkey⟩ := mem_placed_under.mp (List.mem_of_mem_head? hfirst)
    exact List.mem_map.mpr ⟨first, hplaced, hkey⟩
  · intro hkey
    obtain ⟨placement, hmem, rfl⟩ := List.mem_map.mp hkey
    have hunder := mem_placed_under.mpr ⟨hmem, rfl⟩
    cases hfound : declared.placements[placement.key]? with
    | some group => exact List.mem_map.mpr ⟨_, Std.TreeMap.mem_toList_iff_getElem?_eq_some.mpr hfound, rfl⟩
    | none =>
      rw [hfound] at hgroup
      rw [hgroup.eq_nil] at hunder
      cases hunder

/-- What the decoder assembles from its declarations is the grouping of the records. -/
theorem Reflects.grouped {declared : Declarations} (h : Reflects records declared)
    (hmeans : ConfigurationMeans settings manifest.configuration)
    (hinstances : assemble_instances declared.placements = .ok manifest.instances)
    (hartifacts : declared.artifacts = manifest.artifacts) (hmodules : declared.modules = manifest.modules) :
    Grouped settings records manifest := by
  have hassembled := assemble_instances_eq_ok_iff.mp hinstances
  have hkeys : manifest.instances.map instance_key = declared.placements.toList.map Prod.fst := by
    have heq := List.forall₂_map_right_iff.mpr (List.forall₂_map_left_iff.mpr (hassembled.imp fun _ _ hrecord =>
      hrecord.1.symm))
    rw [List.forall₂_eq_eq_eq] at heq
    exact heq.symm
  have hgroup : ∀ record ∈ manifest.instances,
      Groups (placed_under (instance_key record) (placements_of records)) (some ⟨record.placements, record.source⟩) := by
    intro record hrecord
    obtain ⟨⟨key, group⟩, hmem, rfl, hplacements, hsource⟩ := exists_of_mem_right hassembled hrecord
    rw [hplacements, hsource]
    exact h.group hmem
  refine ⟨hmeans, hartifacts ▸ h.artifacts, hmodules ▸ h.modules, ?_, fun key => ?_, fun record hrecord => ?_,
    fun record hrecord first hfirst => ?_⟩
  · rw [← List.pairwise_map (f := instance_key) (R := fun a b => compare a b = .lt), hkeys, List.pairwise_map]
    exact Std.TreeMap.ordered_keys_toList
  · rw [hkeys]
    exact h.exists_group_iff
  · obtain ⟨first, -, hmeans, -⟩ := (hgroup record hrecord).exists_first
    exact hmeans
  · obtain ⟨start, hstart, -, hsource⟩ := (hgroup record hrecord).exists_first
    obtain rfl := Option.mem_unique hstart hfirst
    exact hsource

theorem Grouped.eq_iff (h : Grouped settings records manifest) : Grouped settings records other ↔ other = manifest :=
  ⟨fun h' => h'.unique h, fun heq => heq ▸ h⟩

variable {self : ManifestDecoder}

theorem supported_iff {configuration : Configuration} (h : ConfigurationMeans settings configuration) :
    configuration.unsupported = none ↔ settings.unsupported = LLVM_SUPPORTED := by
  obtain ⟨-, -, -, -, -, -, -, hsupport⟩ := h
  rw [← hsupport]
  exact ⟨fun hnone => by rw [hnone]; rfl, fun hcode => support_code_injective (hcode.trans rfl)⟩

/-- A known support code completes the transport metadata. -/
theorem exists_configuration_means (h : ∃ support, settings.unsupported = support_code support) :
    ∃ configuration, ConfigurationMeans settings configuration := by
  obtain ⟨support, hsupport⟩ := h
  exact ⟨⟨settings.backend, settings.target, settings.optimization, settings.lto, settings.incremental,
    settings.linker_plugin, settings.codegen_units, support⟩, rfl, rfl, rfl, rfl, rfl, rfl, rfl, hsupport.symm⟩

/-- What the decoder accepts obeys the rules, and is decoded as its grouping. -/
theorem ManifestDecoder.read_grouped (h : self.read = .ok manifest) :
    ∃ settings records, Spellable self.marker settings records ∧ self.reader = encode self.marker settings records ∧
      ProtocolRules self.path settings records ∧ Grouped settings records manifest := by
  obtain ⟨settings, records, declared, ⟨-, hspellable, hreader⟩, hmeans, hsteps, hinstances, hartifacts, hmodules⟩ :=
    read_eq_ok_iff.mp h
  obtain ⟨hrules, hreflects⟩ := steps_reflect records hsteps
  rw [supported_iff hmeans] at hrules
  obtain ⟨-, -, -, -, -, -, -, hsupport⟩ := id hmeans
  exact ⟨settings, records, hspellable, hreader, ⟨⟨_, hsupport.symm⟩, hrules, hreflects.exists_assemble_iff.mp ⟨_, hinstances⟩⟩,
    hreflects.grouped hmeans hinstances hartifacts hmodules⟩

/-- The decoder accepts every stream that obeys the rules. -/
theorem ManifestDecoder.exists_read (hfailure : self.failure = none)
    (hspellable : Spellable self.marker settings records) (hreader : self.reader = encode self.marker settings records)
    (hrules : ProtocolRules self.path settings records) : ∃ manifest, self.read = .ok manifest := by
  obtain ⟨configuration, hmeans⟩ := exists_configuration_means hrules.support_known
  have hrecords := hrules.record_rules
  rw [← supported_iff hmeans] at hrecords
  obtain ⟨declared, hsteps⟩ := exists_steps records hrecords
  obtain ⟨-, hreflects⟩ := steps_reflect records hsteps
  obtain ⟨instances, hinstances⟩ := hreflects.exists_assemble_iff.mpr hrules.instance_rules
  exact ⟨⟨instances, declared.artifacts, configuration, declared.modules⟩, read_eq_ok_iff.mpr
    ⟨settings, records, declared, ⟨hfailure, hspellable, hreader⟩, hmeans, hsteps, hinstances, rfl, rfl⟩⟩

/-- The bytes of an accepted stream are the spelling of exactly one configuration and
sequence of records, whose grouping the decoder returns. No other stream that starts with
them, or that they start with, is accepted. -/
theorem ManifestDecoder.read_spelled (self : ManifestDecoder) (manifest : CompilerManifest) (h : self.read = .ok manifest) :
    (∃! stream : protocol.Configuration × List Record, Spellable self.marker stream.1 stream.2 ∧
      self.reader = encode self.marker stream.1 stream.2) ∧
    (∀ settings records, Spellable self.marker settings records → self.reader = encode self.marker settings records →
      ∀ other, Grouped settings records other ↔ other = manifest) ∧
    ∀ reader failure other, ({ self with reader, failure } : ManifestDecoder).read = .ok other →
      reader <+: self.reader ∨ self.reader <+: reader → reader = self.reader := by
  obtain ⟨settings, records, hspellable, hreader, -, hgrouped⟩ := read_grouped h
  have hunique : ∀ settings' records' u v, Spellable self.marker settings' records' →
      encode self.marker settings records ++ u = encode self.marker settings' records' ++ v →
        settings = settings' ∧ records = records' ∧ u = v :=
    fun settings' records' u v hspellable' heq => encode_delimited hspellable hspellable' heq
  refine ⟨⟨(settings, records), ⟨hspellable, hreader⟩, ?_⟩, ?_, ?_⟩
  · rintro ⟨settings', records'⟩ ⟨hspellable', hreader'⟩
    obtain ⟨rfl, rfl, -⟩ := hunique settings' records' [] [] hspellable' (by rw [← hreader, ← hreader'])
    rfl
  · intro settings' records' hspellable' hreader'
    obtain ⟨rfl, rfl, -⟩ := hunique settings' records' [] [] hspellable' (by rw [← hreader, ← hreader'])
    exact fun other => hgrouped.eq_iff
  · intro reader failure other hother hprefix
    obtain ⟨settings', records', hspellable', hreader', -⟩ := read_grouped hother
    change reader = encode self.marker settings' records' at hreader'
    rw [hreader, hreader'] at hprefix ⊢
    rcases hprefix with ⟨u, heq⟩ | ⟨u, heq⟩
    · obtain ⟨rfl, rfl, -⟩ := hunique settings' records' [] u hspellable' (by rw [heq, List.append_nil])
      rfl
    · obtain ⟨rfl, rfl, -⟩ := hunique settings' records' u [] hspellable' (by rw [heq, List.append_nil])
      rfl

/-- The stream of a supported configuration with one source file and one module. -/
theorem ManifestDecoder.read_spelled_module :
    let settings : protocol.Configuration := ⟨"llvm", "x86_64-unknown-linux-gnu", "3", .Off, false, false, 16, LLVM_SUPPORTED⟩
    let records := [Record.SourceFile 7 15, .Module "fixture.0" "/attempt/llvm/fixture.0.bc"]
    let decoder : ManifestDecoder := ⟨⟨"/attempt/manifest"⟩, encode "marker" settings records, none, "marker"⟩
    ∃ manifest, decoder.read = .ok manifest ∧ ∀ reader failure other,
      ({ decoder with reader, failure } : ManifestDecoder).read = .ok other →
        reader <+: decoder.reader ∨ decoder.reader <+: reader → reader = decoder.reader := by
  intro settings records decoder
  have himmediate : Immediate decoder.path ⟨"/attempt/llvm/fixture.0.bc"⟩ :=
    ⟨[.RootDir, .Normal (text "attempt")], by decide, by decide, by decide⟩
  have hrules : ProtocolRules decoder.path settings records := {
    support_known := ⟨none, rfl⟩
    record_rules := {
      placements := ⟨nofun, nofun, nofun⟩
      ids_distinct := by decide
      modules := ⟨fun _ => rfl, by decide, List.forall_mem_singleton.mpr himmediate, by decide, by decide⟩ }
    instance_rules := ⟨nofun, fun _ => .nil⟩ }
  have hspellable : Spellable "marker" settings records := ⟨by decide, by decide, by decide⟩
  obtain ⟨manifest, hread⟩ := ManifestDecoder.exists_read rfl hspellable rfl hrules
  exact ⟨manifest, hread, (ManifestDecoder.read_spelled decoder manifest hread).2.2⟩

end optic.compiler
