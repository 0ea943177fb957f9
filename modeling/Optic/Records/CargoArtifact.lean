import Optic.Json.Value
import Optic.Records.Capture
import Optic.Rust.Order

open rust serde_json

namespace optic.records

/-- What Cargo's metadata leaves to Cargo: kinds and crate types with their order and their
text, and the settings of a target and of a profile that are only carried along. -/
structure CargoSchema where
  Kind : Type
  CrateType : Type
  Options : Type
  Settings : Type
  kind_order : LinearOrder Kind
  crate_type_order : LinearOrder CrateType
  options_eq : DecidableEq Options
  settings_eq : DecidableEq Settings
  kind_text : Kind → String
  crate_type_text : CrateType → String

attribute [instance] CargoSchema.kind_order CargoSchema.crate_type_order CargoSchema.options_eq CargoSchema.settings_eq

variable {M : CargoSchema}

/-- A Cargo target as Cargo describes it. -/
structure Target (M : CargoSchema) where
  name : String
  kind : List M.Kind
  crate_types : List M.CrateType
  required_features : List String
  src_path : PathBuf
  options : M.Options
deriving DecidableEq

/-- What Cargo reports of one target that it has built or found fresh. -/
structure Artifact (M : CargoSchema) where
  package_id : String
  manifest_path : PathBuf
  target : Target M
  opt_level : String
  settings : M.Settings
  features : List String
  filenames : List PathBuf
  executable : Option PathBuf
  fresh : Bool
deriving DecidableEq

/-- Targets are compared field by field, and their paths by components. -/
instance : BEq (Target M) where
  beq a b := a.name = b.name && a.kind = b.kind && a.crate_types = b.crate_types &&
    a.required_features = b.required_features && a.src_path == b.src_path && a.options = b.options

instance : BEq (Artifact M) where
  beq a b := a.package_id = b.package_id && a.manifest_path == b.manifest_path && a.target == b.target &&
    a.opt_level = b.opt_level && a.settings = b.settings && a.features = b.features && a.filenames == b.filenames &&
    a.executable == b.executable && a.fresh = b.fresh

/-- The checks of a Cargo artifact, in the order of its constructor. -/
def validate_artifact (artifact : Artifact M) : Except Error Unit := do
  let _ ← require_text "Cargo artifact package ID" artifact.package_id
  let _ ← require_text "Cargo artifact target name" artifact.target.name
  let _ ← require_text "Cargo artifact optimization level" artifact.opt_level
  ensure (!(artifact.target.kind.isEmpty || artifact.target.crate_types.isEmpty))
    (.InvalidField "Cargo artifact target identity" "empty target kinds or crate types")
  artifact.target.kind.forM fun kind => do
    let _ ← require_text "Cargo artifact target kind" (M.kind_text kind)
  artifact.target.crate_types.forM fun crate_type => do
    let _ ← require_text "Cargo artifact crate type" (M.crate_type_text crate_type)
  (artifact.features ++ artifact.target.required_features).forM fun feature => do
    let _ ← require_text "Cargo artifact feature" feature
  require_absolute_normalized_path "Cargo artifact manifest path" artifact.manifest_path
  require_absolute_normalized_path "Cargo artifact source path" artifact.target.src_path
  (artifact.filenames ++ artifact.executable.toList).forM
    (require_absolute_normalized_path "Cargo artifact output path")

/-- Clears the transient flag and sorts what Cargo reports in no order. -/
def Artifact.normalize (artifact : Artifact M) : Artifact M :=
  { artifact with
    fresh := false
    features := text_order.sort artifact.features
    filenames := path_order.sort artifact.filenames
    target := { artifact.target with
      kind := (SortOrder.linear M.Kind).sort artifact.target.kind
      crate_types := (SortOrder.linear M.CrateType).sort artifact.target.crate_types
      required_features := text_order.sort artifact.target.required_features } }

/-- A path that names one place in one way. -/
structure Normalized (path : PathBuf) : Prop where
  named : path.text ≠ ""
  absolute : path.is_absolute = true
  climbs : .ParentDir ∉ path.components
  written : PathBuf.collect path.components = text path.text

theorem require_absolute_normalized_path_eq_ok_iff {field : String} {path : PathBuf} :
    require_absolute_normalized_path field path = .ok () ↔ Normalized path := by
  rw [require_absolute_normalized_path, require_path]
  by_cases hnamed : path.text = ""
  · rw [dif_pos hnamed]
    constructor
    · intro h
      cases h
    · exact fun h => absurd hnamed h.named
  · rw [dif_neg hnamed]
    simp only [ok_bind, bind_eq_ok_iff, ensure_eq_ok_iff]
    simp only [Bool.not_or, Bool.and_eq_true, Bool.not_eq_true', decide_eq_false_iff_not, not_not, List.any_eq_false,
      decide_eq_true_eq]
    constructor
    · rintro ⟨_, habsolute, hclimbs, hwritten⟩
      exact ⟨hnamed, habsolute, fun h => hclimbs _ h rfl, hwritten⟩
    · rintro ⟨_, habsolute, hclimbs, hwritten⟩
      exact ⟨(), habsolute, fun component hcomponent heq => hclimbs (heq ▸ hcomponent), hwritten⟩

/-- Normalized paths with the same components have the same text. -/
theorem Normalized.eq_of_components {path path' : PathBuf} (h : Normalized path) (h' : Normalized path')
    (hcomponents : path.components = path'.components) : path = path' := by
  have htext : text path.text = text path'.text := by rw [← h.written, hcomponents, h'.written]
  cases path
  cases path'
  exact congrArg PathBuf.mk (text_injective htext)

theorem require_text_bind_eq_ok_iff {α : Type} {field value : String} {next : Except Error α} {a : α} :
    (require_text field value >>= fun _ => next) = .ok a ↔ value ≠ "" ∧ next = .ok a := by
  rw [bind_eq_ok_iff]
  exact ⟨fun ⟨named, _, h⟩ => ⟨named.down, h⟩, fun ⟨named, h⟩ => ⟨⟨named⟩, require_text_ok named, h⟩⟩

/-- An artifact that the constructor of records accepts. -/
structure Acceptable (artifact : Artifact M) : Prop where
  package_named : artifact.package_id ≠ ""
  target_named : artifact.target.name ≠ ""
  level_named : artifact.opt_level ≠ ""
  kinds : artifact.target.kind ≠ []
  crate_types : artifact.target.crate_types ≠ []
  kinds_named : ∀ kind ∈ artifact.target.kind, M.kind_text kind ≠ ""
  crate_types_named : ∀ crate_type ∈ artifact.target.crate_types, M.crate_type_text crate_type ≠ ""
  features_named : ∀ feature ∈ artifact.features, feature ≠ ""
  required_named : ∀ feature ∈ artifact.target.required_features, feature ≠ ""
  manifest_normalized : Normalized artifact.manifest_path
  source_normalized : Normalized artifact.target.src_path
  outputs_normalized : ∀ path ∈ artifact.filenames, Normalized path
  executable_normalized : ∀ path ∈ artifact.executable, Normalized path

theorem validate_artifact_eq_ok_iff {artifact : Artifact M} :
    validate_artifact artifact = .ok () ↔ Acceptable artifact := by
  simp only [validate_artifact, require_text_bind_eq_ok_iff, unit_bind_eq_ok_iff, ensure_eq_ok_iff, forM_eq_ok_iff,
    pure_eq_ok, and_true, require_absolute_normalized_path_eq_ok_iff, List.forall_mem_append]
  simp only [Bool.not_or, Bool.and_eq_true, Bool.not_eq_true', List.isEmpty_eq_false_iff, Option.mem_toList]
  constructor
  · rintro ⟨hpackage, htarget, hlevel, ⟨hkinds, htypes⟩, hkind, htype, ⟨hfeature, hrequired⟩, hmanifest, hsource,
      houtput, hexecutable⟩
    exact ⟨hpackage, htarget, hlevel, hkinds, htypes, hkind, htype, hfeature, hrequired, hmanifest, hsource, houtput,
      hexecutable⟩
  · intro h
    exact ⟨h.package_named, h.target_named, h.level_named, ⟨h.kinds, h.crate_types⟩, h.kinds_named, h.crate_types_named,
      ⟨h.features_named, h.required_named⟩, h.manifest_normalized, h.source_normalized, h.outputs_normalized,
      h.executable_normalized⟩

/-- Targets that differ at most in the order of what Cargo lists in no order. -/
structure Target.Reordered (a b : Target M) : Prop where
  name : a.name = b.name
  kind : a.kind.Perm b.kind
  crate_types : a.crate_types.Perm b.crate_types
  required_features : a.required_features.Perm b.required_features
  src_path : a.src_path = b.src_path
  options : a.options = b.options

/-- Artifacts that differ at most in such orders, and in whether they were built or found. -/
structure Artifact.Reordered (a b : Artifact M) : Prop where
  package_id : a.package_id = b.package_id
  manifest_path : a.manifest_path = b.manifest_path
  target : a.target.Reordered b.target
  opt_level : a.opt_level = b.opt_level
  settings : a.settings = b.settings
  features : a.features.Perm b.features
  filenames : a.filenames.Perm b.filenames
  executable : a.executable = b.executable

theorem Artifact.Reordered.symm {a b : Artifact M} (h : a.Reordered b) : b.Reordered a where
  package_id := h.package_id.symm
  manifest_path := h.manifest_path.symm
  target := ⟨h.target.name.symm, h.target.kind.symm, h.target.crate_types.symm, h.target.required_features.symm,
    h.target.src_path.symm, h.target.options.symm⟩
  opt_level := h.opt_level.symm
  settings := h.settings.symm
  features := h.features.symm
  filenames := h.filenames.symm
  executable := h.executable.symm

/-- Acceptance looks at no order and at no flag. -/
theorem Acceptable.reordered {a b : Artifact M} (h : Acceptable a) (hab : a.Reordered b) : Acceptable b where
  package_named := hab.package_id ▸ h.package_named
  target_named := hab.target.name ▸ h.target_named
  level_named := hab.opt_level ▸ h.level_named
  kinds hempty := h.kinds (List.perm_nil.mp (hempty ▸ hab.target.kind))
  crate_types hempty := h.crate_types (List.perm_nil.mp (hempty ▸ hab.target.crate_types))
  kinds_named kind hkind := h.kinds_named kind (hab.target.kind.mem_iff.mpr hkind)
  crate_types_named kind hkind := h.crate_types_named kind (hab.target.crate_types.mem_iff.mpr hkind)
  features_named feature hfeature := h.features_named feature (hab.features.mem_iff.mpr hfeature)
  required_named feature hfeature := h.required_named feature (hab.target.required_features.mem_iff.mpr hfeature)
  manifest_normalized := hab.manifest_path ▸ h.manifest_normalized
  source_normalized := hab.target.src_path ▸ h.source_normalized
  outputs_normalized path hpath := h.outputs_normalized path (hab.filenames.mem_iff.mpr hpath)
  executable_normalized := hab.executable ▸ h.executable_normalized

theorem Artifact.normalize_reordered (artifact : Artifact M) : artifact.normalize.Reordered artifact where
  package_id := rfl
  manifest_path := rfl
  target := ⟨rfl, SortOrder.sort_perm _ _, SortOrder.sort_perm _ _, SortOrder.sort_perm _ _, rfl, rfl⟩
  opt_level := rfl
  settings := rfl
  features := SortOrder.sort_perm _ _
  filenames := SortOrder.sort_perm _ _
  executable := rfl

theorem Artifact.normalize_normalize (artifact : Artifact M) : artifact.normalize.normalize = artifact.normalize := by
  simp [normalize, SortOrder.sort_sort]

/-- A validated Cargo artifact with sorted unordered fields and `fresh` cleared. -/
structure CargoArtifactRecord (M : CargoSchema) where
  artifact : Artifact M
  acceptable : Acceptable artifact
  normal : artifact.normalize = artifact

namespace CargoArtifactRecord

def new (artifact : Artifact M) : Except Error (CargoArtifactRecord M) := do
  let ⟨valid⟩ ← proven (validate_artifact artifact)
  return { artifact := artifact.normalize
           acceptable := (validate_artifact_eq_ok_iff.mp valid).reordered artifact.normalize_reordered.symm
           normal := artifact.normalize_normalize }

/-- Records are compared like the artifacts that they hold. -/
instance : BEq (CargoArtifactRecord M) where
  beq a b := a.artifact == b.artifact

theorem artifact_inj {a b : CargoArtifactRecord M} : a.artifact = b.artifact ↔ a = b := by
  cases a
  cases b
  simp

/-- The constructor accepts exactly the acceptable artifacts, and normalizes them. -/
theorem new_eq_ok_iff {artifact : Artifact M} {record : CargoArtifactRecord M} :
    new artifact = .ok record ↔ Acceptable artifact ∧ record.artifact = artifact.normalize := by
  rw [← validate_artifact_eq_ok_iff]
  constructor
  · intro h
    rw [new, bind_eq_ok_iff] at h
    obtain ⟨⟨valid⟩, -, h⟩ := h
    cases h
    exact ⟨valid, rfl⟩
  · rintro ⟨valid, h⟩
    rw [new, proven_ok valid]
    exact congrArg Except.ok (artifact_inj.mp h.symm)

/-- A record's own artifact is normalized to itself. -/
theorem new_artifact (record : CargoArtifactRecord M) : new record.artifact = .ok record :=
  new_eq_ok_iff.mpr ⟨record.acceptable, record.normal.symm⟩

instance [Json (Artifact M)] : Json (CargoArtifactRecord M) where
  to_value record := to_value record.artifact
  from_value v := from_value v >>= fun artifact => (new artifact).toOption
  read_back record := by simp [new_artifact, Except.toOption]

end CargoArtifactRecord

end optic.records
