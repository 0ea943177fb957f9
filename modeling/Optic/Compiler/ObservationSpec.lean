import Optic.Compiler.Observation
import Optic.Records.DurableSpec

open rust serde_json optic.records

namespace optic.records

variable {M : CargoSchema}

/-- Targets that compare alike once their unordered lists are taken as multisets. -/
structure Target.Agrees (a b : Target M) : Prop where
  name : a.name = b.name
  kind : a.kind.Perm b.kind
  crate_types : a.crate_types.Perm b.crate_types
  required_features : a.required_features.Perm b.required_features
  src_path : (a.src_path == b.src_path) = true
  options : a.options = b.options

/-- Artifacts that compare alike, apart from `fresh`, once their unordered lists are taken as
multisets. -/
structure Artifact.Agrees (a b : Artifact M) : Prop where
  package_id : a.package_id = b.package_id
  manifest_path : (a.manifest_path == b.manifest_path) = true
  target : a.target.Agrees b.target
  opt_level : a.opt_level = b.opt_level
  settings : a.settings = b.settings
  features : a.features.Perm b.features
  filenames : (a.filenames.map PathBuf.components).Perm (b.filenames.map PathBuf.components)
  executable : (a.executable == b.executable) = true

theorem PathBuf.text_text_injective : Function.Injective fun path : PathBuf => text path.text := by
  rintro ⟨a⟩ ⟨b⟩ h
  exact congrArg PathBuf.mk (text_injective h)

/-- Normalized paths are written as their components are collected. -/
theorem map_collect {paths : List PathBuf} (h : ∀ path ∈ paths, Normalized path) :
    (paths.map PathBuf.components).map PathBuf.collect = paths.map fun path => text path.text := by
  rw [List.map_map]
  exact List.map_congr_left fun path hpath => (h path hpath).written

/-- Among normalized paths, multisets are the same for paths and for their components. -/
theorem perm_components_iff {paths paths' : List PathBuf} (h : ∀ path ∈ paths, Normalized path)
    (h' : ∀ path ∈ paths', Normalized path) :
    (paths.map PathBuf.components).Perm (paths'.map PathBuf.components) ↔ paths.Perm paths' := by
  constructor
  · intro hperm
    have htexts := hperm.map PathBuf.collect
    rw [map_collect h, map_collect h'] at htexts
    exact (List.map_perm_map_iff PathBuf.text_text_injective).mp htexts
  · exact fun hperm => hperm.map _

/-- Normalized paths compare alike exactly when they are equal. -/
theorem Normalized.beq_iff {path path' : PathBuf} (h : Normalized path) (h' : Normalized path') :
    (path == path') = true ↔ path = path' := by
  rw [PathBuf.beq_iff]
  exact ⟨h.eq_of_components h', congrArg _⟩

theorem paths_beq_iff {paths paths' : List PathBuf} (h : ∀ path ∈ paths, Normalized path)
    (h' : ∀ path ∈ paths', Normalized path) : (paths == paths') = true ↔ paths = paths' := by
  induction paths generalizing paths' with
  | nil => cases paths' <;> simp
  | cons path paths ih =>
    cases paths' with
    | nil => simp
    | cons path' paths' =>
      rw [List.forall_mem_cons] at h h'
      rw [List.cons_beq_cons, Bool.and_eq_true, h.1.beq_iff h'.1, ih h.2 h'.2, List.cons.injEq]

theorem option_path_beq_iff {path path' : Option PathBuf} (h : ∀ a ∈ path, Normalized a) (h' : ∀ a ∈ path', Normalized a) :
    (path == path') = true ↔ path = path' := by
  cases path with
  | none => cases path' <;> simp
  | some path =>
    cases path' with
    | none => simp
    | some path' =>
      rw [Option.some_beq_some, (h path rfl).beq_iff (h' path' rfl), Option.some.injEq]

/-- Between acceptable artifacts, what compares alike is equal up to order. -/
theorem Acceptable.agrees_iff {a b : Artifact M} (ha : Acceptable a) (hb : Acceptable b) : a.Agrees b ↔ a.Reordered b := by
  have hmanifest := ha.manifest_normalized.beq_iff hb.manifest_normalized
  have hsource := ha.source_normalized.beq_iff hb.source_normalized
  have houtputs := perm_components_iff ha.outputs_normalized hb.outputs_normalized
  have hexecutable := option_path_beq_iff ha.executable_normalized hb.executable_normalized
  constructor
  · intro h
    exact ⟨h.package_id, hmanifest.mp h.manifest_path, ⟨h.target.name, h.target.kind, h.target.crate_types,
      h.target.required_features, hsource.mp h.target.src_path, h.target.options⟩, h.opt_level, h.settings, h.features,
      houtputs.mp h.filenames, hexecutable.mp h.executable⟩
  · intro h
    exact ⟨h.package_id, hmanifest.mpr h.manifest_path, ⟨h.target.name, h.target.kind, h.target.crate_types,
      h.target.required_features, hsource.mpr h.target.src_path, h.target.options⟩, h.opt_level, h.settings, h.features,
      houtputs.mpr h.filenames, hexecutable.mpr h.executable⟩

/-- Normalization leads two targets to one form exactly when they are reordered. -/
theorem Target.sorted_eq_iff {a b : Target M} :
    optic.compiler.CargoObservation.expected_target a = optic.compiler.CargoObservation.expected_target b ↔
      a.Reordered b := by
  simp only [optic.compiler.CargoObservation.expected_target, Target.mk.injEq,
    SortOrder.sort_eq_iff_perm (SortOrder.linear_separates _), SortOrder.sort_eq_iff_perm (text_order_separates _)]
  exact ⟨fun ⟨hname, hkind, htypes, hrequired, hpath, hoptions⟩ => ⟨hname, hkind, htypes, hrequired, hpath, hoptions⟩,
    fun h => ⟨h.name, h.kind, h.crate_types, h.required_features, h.src_path, h.options⟩⟩

theorem Artifact.normalize_target (artifact : Artifact M) :
    artifact.normalize.target = optic.compiler.CargoObservation.expected_target artifact.target := rfl

/-- An acceptable artifact has the normal form of another exactly when it is a reordering of it. -/
theorem Acceptable.normalize_eq_iff {a b : Artifact M} (ha : Acceptable a) :
    a.normalize = b.normalize ↔ a.Reordered b := by
  have hfilenames : path_order.Separates a.filenames := path_order_separates fun path hpath path' hpath' =>
    (ha.outputs_normalized path hpath).eq_of_components (ha.outputs_normalized path' hpath')
  constructor
  · intro h
    have htarget := congrArg Artifact.target h
    rw [Artifact.normalize_target, Artifact.normalize_target, Target.sorted_eq_iff] at htarget
    have hfields := h
    simp only [Artifact.normalize, Artifact.mk.injEq, SortOrder.sort_eq_iff_perm (text_order_separates _),
      SortOrder.sort_eq_iff_perm hfilenames] at hfields
    obtain ⟨hpackage, hmanifest, -, hlevel, hsettings, hfeatures, houtputs, hexecutable, -⟩ := hfields
    exact ⟨hpackage, hmanifest, htarget, hlevel, hsettings, hfeatures, houtputs, hexecutable⟩
  · intro h
    have htarget := Target.sorted_eq_iff.mpr h.target
    rw [← Artifact.normalize_target, ← Artifact.normalize_target] at htarget
    have hfeatures := (SortOrder.sort_eq_iff_perm (text_order_separates _)).mpr h.features
    have houtputs := (SortOrder.sort_eq_iff_perm hfilenames).mpr h.filenames
    rw [Artifact.mk.injEq]
    exact ⟨h.package_id, h.manifest_path, htarget, h.opt_level, h.settings, hfeatures, houtputs, h.executable, rfl⟩

/-- `==` compares the fields of targets. -/
theorem Target.beq_iff {a b : Target M} : (a == b) = true ↔ a.name = b.name ∧ a.kind = b.kind ∧
    a.crate_types = b.crate_types ∧ a.required_features = b.required_features ∧ (a.src_path == b.src_path) = true ∧
      a.options = b.options := by
  change (a.name = b.name && a.kind = b.kind && a.crate_types = b.crate_types &&
    a.required_features = b.required_features && a.src_path == b.src_path && a.options = b.options) = true ↔ _
  simp only [Bool.and_eq_true, decide_eq_true_eq, and_assoc]

/-- `==` compares the fields of artifacts. -/
theorem Artifact.beq_iff {a b : Artifact M} : (a == b) = true ↔ a.package_id = b.package_id ∧
    (a.manifest_path == b.manifest_path) = true ∧ (a.target == b.target) = true ∧ a.opt_level = b.opt_level ∧
      a.settings = b.settings ∧ a.features = b.features ∧ (a.filenames == b.filenames) = true ∧
        (a.executable == b.executable) = true ∧ a.fresh = b.fresh := by
  change (a.package_id = b.package_id && a.manifest_path == b.manifest_path && a.target == b.target &&
    a.opt_level = b.opt_level && a.settings = b.settings && a.features = b.features && a.filenames == b.filenames &&
    a.executable == b.executable && a.fresh = b.fresh) = true ↔ _
  simp only [Bool.and_eq_true, decide_eq_true_eq, and_assoc]

/-- Records compare alike exactly when they are equal. -/
theorem CargoArtifactRecord.beq_iff {a b : CargoArtifactRecord M} : (a == b) = true ↔ a = b := by
  have ha := a.acceptable
  have hb := b.acceptable
  have htarget : (a.artifact.target == b.artifact.target) = true ↔ a.artifact.target = b.artifact.target := by
    rw [Target.beq_iff, Target.mk.injEq, ha.source_normalized.beq_iff hb.source_normalized]
  rw [← CargoArtifactRecord.artifact_inj]
  change (a.artifact == b.artifact) = true ↔ _
  rw [Artifact.beq_iff, Artifact.mk.injEq, htarget, ha.manifest_normalized.beq_iff hb.manifest_normalized,
    paths_beq_iff ha.outputs_normalized hb.outputs_normalized,
    option_path_beq_iff ha.executable_normalized hb.executable_normalized]

/-- Records are equal exactly when the artifacts that they were made of agree up to order and
freshness. -/
theorem CargoArtifactRecord.new_eq_iff {a b : Artifact M} {record record' : CargoArtifactRecord M}
    (ha : CargoArtifactRecord.new a = .ok record) (hb : CargoArtifactRecord.new b = .ok record') :
    record = record' ↔ a.Agrees b := by
  rw [CargoArtifactRecord.new_eq_ok_iff] at ha hb
  rw [ha.1.agrees_iff hb.1, ← ha.1.normalize_eq_iff, ← CargoArtifactRecord.artifact_inj, ha.2, hb.2]

theorem CargoArtifactRecord.new_accepts_iff {artifact : Artifact M} :
    (∃ record, CargoArtifactRecord.new artifact = .ok record) ↔ Acceptable artifact := by
  constructor
  · rintro ⟨record, h⟩
    exact (CargoArtifactRecord.new_eq_ok_iff.mp h).1
  · intro h
    exact ⟨⟨artifact.normalize, h.reordered artifact.normalize_reordered.symm, artifact.normalize_normalize⟩,
      CargoArtifactRecord.new_eq_ok_iff.mpr ⟨h, rfl⟩⟩

/-- Acceptance looks at no order and at no flag. -/
theorem CargoArtifactRecord.new_reordered {a b : Artifact M} (h : a.Reordered b) :
    (∃ record, CargoArtifactRecord.new a = .ok record) ↔ ∃ record, CargoArtifactRecord.new b = .ok record := by
  rw [CargoArtifactRecord.new_accepts_iff, CargoArtifactRecord.new_accepts_iff]
  exact ⟨fun ha => ha.reordered h, fun hb => hb.reordered h.symm⟩

end optic.records

namespace optic.compiler

variable {M : CargoSchema}

/-- Targets whose lists were sorted compare alike exactly when they agreed before. -/
theorem expected_target_beq_iff {a b : Target M} :
    (CargoObservation.expected_target a == CargoObservation.expected_target b) = true ↔ a.Agrees b := by
  rw [Target.beq_iff]
  simp only [CargoObservation.expected_target, SortOrder.sort_eq_iff_perm (SortOrder.linear_separates _),
    SortOrder.sort_eq_iff_perm (text_order_separates _)]
  exact ⟨fun ⟨hname, hkind, htypes, hrequired, hpath, hoptions⟩ => ⟨hname, hkind, htypes, hrequired, hpath, hoptions⟩,
    fun h => ⟨h.name, h.kind, h.crate_types, h.required_features, h.src_path, h.options⟩⟩

theorem mapError_eq_ok_iff {ε ε' α : Type} {value : Except ε α} {f : ε → ε'} {a : α} :
    value.mapError f = .ok a ↔ value = .ok a := by
  cases value <;> simp [Except.mapError]

namespace CargoObservation

variable {self : CargoObservation M}

theorem only_selected_eq_ok_iff {artifact : Artifact M} :
    self.only_selected = .ok artifact ↔ self.selected = [artifact] := by
  unfold only_selected
  split
  · rename_i hselected
    simp [hselected]
  · rename_i hselected
    constructor
    · exact nofun
    · exact fun h => absurd h (hselected artifact)

/-- What an observation needs to be complete. -/
theorem completed_eq_ok_iff {target : Target M} {fresh : Bool} {record : CargoArtifactRecord M} :
    self.completed target fresh = .ok record ↔ self.finished = [true] ∧ self.has_errors = false ∧
      ∃ artifact, self.selected = [artifact] ∧ artifact.fresh = fresh ∧ CargoArtifactRecord.new artifact = .ok record ∧
        artifact.target.Agrees target := by
  have htarget {artifact : Artifact M} (h : CargoArtifactRecord.new artifact = .ok record) :
      (record.artifact.target == expected_target target) = true ↔ artifact.target.Agrees target := by
    rw [(CargoArtifactRecord.new_eq_ok_iff.mp h).2, Artifact.normalize_target, expected_target_beq_iff]
  simp only [completed, bind_eq_ok_iff, ensure_eq_ok_iff, only_selected_eq_ok_iff,
    mapError_eq_ok_iff, decide_eq_true_eq]
  simp only [Bool.not_or, Bool.and_eq_true, Bool.not_eq_true', decide_eq_false_iff_not, ne_eq, not_not, and_assoc]
  constructor
  · rintro ⟨_, hfinished, herrors, artifact, hselected, _, hfresh, record', hnew, _, hagrees, hrecord⟩
    cases hrecord
    exact ⟨hfinished, herrors, artifact, hselected, hfresh, hnew, (htarget hnew).mp hagrees⟩
  · rintro ⟨hfinished, herrors, artifact, hselected, hfresh, hnew, hagrees⟩
    exact ⟨(), hfinished, herrors, artifact, hselected, (), hfresh, record, hnew, (), (htarget hnew).mpr hagrees, rfl⟩

end CargoObservation

/-- Normalization is a canonical form. Records of accepted artifacts are equal, and compare alike, exactly when the
artifacts agree once unordered lists are taken as multisets and freshness is left out; records are normalized and
decoded to themselves; acceptance looks at no order and at no flag; and a complete observation accepts exactly the
prepared targets that agree with the observed one. -/
theorem normalization_canonical [Json (Artifact M)] :
    (∀ (a b : Artifact M) (record record' : CargoArtifactRecord M), CargoArtifactRecord.new a = .ok record →
      CargoArtifactRecord.new b = .ok record' →
        ((record == record') = true ↔ a.Agrees b) ∧ (record = record' ↔ a.Agrees b)) ∧
    (∀ record : CargoArtifactRecord M, CargoArtifactRecord.new record.artifact = .ok record ∧
      from_value (to_value record) = some record) ∧
    (∀ a b : Artifact M, a.Reordered b →
      ((∃ record, CargoArtifactRecord.new a = .ok record) ↔ ∃ record, CargoArtifactRecord.new b = .ok record)) ∧
    ∀ (observation : CargoObservation M) (artifact : Artifact M) (record : CargoArtifactRecord M) (target : Target M),
      observation.finished = [true] → observation.has_errors = false → observation.selected = [artifact] →
        CargoArtifactRecord.new artifact = .ok record →
          (observation.completed target artifact.fresh = .ok record ↔ artifact.target.Agrees target) := by
  refine ⟨?_, ?_, fun a b h => CargoArtifactRecord.new_reordered h, ?_⟩
  · intro a b record record' ha hb
    have heq := CargoArtifactRecord.new_eq_iff ha hb
    exact ⟨CargoArtifactRecord.beq_iff.trans heq, heq⟩
  · exact fun record => ⟨record.new_artifact, Json.read_back record⟩
  · intro observation artifact record target hfinished herrors hselected hnew
    rw [CargoObservation.completed_eq_ok_iff]
    constructor
    · rintro ⟨-, -, artifact', hselected', -, -, hagrees⟩
      rw [hselected, List.singleton_inj] at hselected'
      exact hselected' ▸ hagrees
    · intro hagrees
      exact ⟨hfinished, herrors, artifact, hselected, rfl, hnew, hagrees⟩

namespace fixture

/-- What Cargo reports of a library, with its lists in some order. -/
def reported (kinds features : List String) (fresh : Bool) : Artifact records.fixture.schema where
  package_id := "path+file:///workspace#example@0.1.0"
  manifest_path := ⟨"/workspace/Cargo.toml"⟩
  target := ⟨"example", kinds, kinds, features, ⟨"/workspace/src/lib.rs"⟩, "2024", true, true, true⟩
  opt_level := "s"
  settings := (1, false, true, false)
  features := features
  filenames := [⟨"/workspace/target/libexample.rlib"⟩, ⟨"/workspace/target/libexample.rmeta"⟩]
  executable := none
  fresh := fresh

theorem reported_reordered {kinds kinds' features features' : List String} (hkinds : kinds.Perm kinds')
    (hfeatures : features.Perm features') (fresh fresh' : Bool) :
    (reported kinds features fresh).Reordered (reported kinds' features' fresh') where
  package_id := rfl
  manifest_path := rfl
  target := ⟨rfl, hkinds, hkinds, hfeatures, rfl, rfl⟩
  opt_level := rfl
  settings := rfl
  features := hfeatures
  filenames := .refl _
  executable := rfl

end fixture

/-- One library, found fresh and built, and listed in two orders, has one record. -/
theorem normalization_canonical_fixture : ∃ record : CargoArtifactRecord records.fixture.schema,
    CargoArtifactRecord.new (fixture.reported ["rlib", "lib"] ["beta", "alpha"] true) = .ok record ∧
    CargoArtifactRecord.new (fixture.reported ["lib", "rlib"] ["alpha", "beta"] false) = .ok record ∧
    from_value (to_value record) = some record ∧
    CargoObservation.completed { selected := [fixture.reported ["rlib", "lib"] ["beta", "alpha"] true], finished := [true] }
      (fixture.reported ["lib", "rlib"] ["alpha", "beta"] false).target true = .ok record := by
  obtain ⟨hequal, hrecords, haccepted, hcompleted⟩ := normalization_canonical (M := records.fixture.schema)
  have hreordered := fixture.reported_reordered (.swap "lib" "rlib" []) (.swap "alpha" "beta" []) true false
  have hacceptable : Acceptable (fixture.reported ["rlib", "lib"] ["beta", "alpha"] true) :=
    validate_artifact_eq_ok_iff.mp rfl
  obtain ⟨record, hnew⟩ := CargoArtifactRecord.new_accepts_iff.mpr hacceptable
  obtain ⟨record', hnew'⟩ := (haccepted _ _ hreordered).mp ⟨record, hnew⟩
  have hagrees := (hacceptable.agrees_iff (hacceptable.reordered hreordered)).mpr hreordered
  have hsame : record = record' := (hequal _ _ _ _ hnew hnew').2.mpr hagrees
  refine ⟨record, hnew, hsame ▸ hnew', (hrecords record).2, ?_⟩
  exact (hcompleted _ _ record _ rfl rfl rfl hnew).mpr hagrees.target

end optic.compiler
