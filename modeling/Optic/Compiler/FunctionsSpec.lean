import Optic.Compiler.SnapshotsSpec

open rust optic.records optic.compiler optic.compiler.protocol file_system wire

namespace optic.driver

/-- A copy of a function in a codegen unit. -/
structure Function where
  codegen_unit : String
  instance_ : Instance
  data : MonoItemData
  canonicalize : OsString → Option OsString

/-- The function that an item of a codegen unit is, unless it is static data or assembly. -/
def Function.of (codegen_unit : String) (item : Item) : Option Function :=
  match item.mono_item with
  | .Fn instance_ => some { codegen_unit, instance_, data := item.data, canonicalize := item.canonicalize }
  | .Static | .GlobalAsm => none

theorem Function.codegen_unit_of {codegen_unit : String} {item : Item} {function : Function}
    (h : Function.of codegen_unit item = some function) : function.codegen_unit = codegen_unit := by
  unfold Function.of at h
  cases hitem : item.mono_item with
  | Fn instance_ =>
    rw [hitem] at h
    cases h
    rfl
  | Static =>
    rw [hitem] at h
    cases h
  | GlobalAsm =>
    rw [hitem] at h
    cases h

/-- The function copies of codegen units, in their order. -/
def functions (codegen_units : List CodegenUnit) : List Function :=
  codegen_units.flatMap fun codegen_unit => codegen_unit.items.filterMap (Function.of codegen_unit.name)

/-- The units whose bitcode is retained. -/
def retained (configuration : Configuration) (codegen_units : List CodegenUnit) : List CodegenUnit :=
  if configuration.extension.isSome then codegen_units else []

/-- A module record expects the bitcode of a unit where the compiler puts it. -/
def Expects (codegen_unit : CodegenUnit) (module : ExpectedModule) : Prop :=
  module.name = codegen_unit.name ∧ codegen_unit.path = .utf8 module.path.text

variable {FileId : Type}

namespace Function

variable (self : Function)

def key : InstanceKey where
  definition_crate := self.instance_.concrete.definition_crate
  definition_path := self.instance_.concrete.definition_path
  display_name := self.instance_.concrete.display_name
  raw_symbol := self.instance_.concrete.raw_symbol

def locate (lookup_source_file : UInt32 → SourceFile FileId) (package_root : OsString) :
    Except Unavailable (Located FileId) :=
  Snapshots.locate lookup_source_file self.canonicalize package_root self.instance_

end Function

/-- A source part is what locating a function finds, in the files captured so far. -/
inductive Cites (files : List (FileId × String)) : Except Unavailable (Located FileId) → protocol.Source → Prop
  | unavailable {unavailable : Unavailable} {reason : SourceUnavailable} (h : unavailable.reason = unavailable_code reason) :
    Cites files (.error unavailable) (.Unavailable reason)
  | available {located : Located FileId} {artifact : UInt64} {path : String} (hpath : located.path = .utf8 path)
      (hfile : files[artifact.toNat]? = some (located.stable_id, located.text)) :
    Cites files (.ok located) (.Available artifact located.start.toUInt64 (located.stop - located.start).toUInt64 path
      (1 + located.line))

/-- A placement says of a function copy what the compiler answers about it. -/
structure Places (lookup_source_file : UInt32 → SourceFile FileId) (package_root : OsString) (files : List (FileId × String))
    (function : Function) (placement : protocol.Placement) : Prop where
  key : placement.key = function.key
  codegen_unit : placement.codegen_unit = function.codegen_unit
  linkage : placement.linkage = ManifestWriter.linkage_name function.data.linkage
  visibility : placement.visibility = ManifestWriter.visibility_name function.data.visibility
  local_copy : placement.local_copy = function.data.inlined
  size_estimate : placement.size_estimate = function.data.size_estimate
  source : Cites files (function.locate lookup_source_file package_root) placement.source

variable {lookup_source_file : UInt32 → SourceFile FileId}

theorem Cites.mono {files others : List (FileId × String)} {located : Except Unavailable (Located FileId)}
    {source : protocol.Source} (h : Cites files located source) (hfiles : files <+: others) : Cites others located source := by
  cases h with
  | unavailable hreason => exact .unavailable hreason
  | available hpath hfile =>
    obtain ⟨hlt, -⟩ := List.getElem?_eq_some_iff.mp hfile
    obtain ⟨later, rfl⟩ := hfiles
    exact .available hpath (by rw [List.getElem?_append_left hlt, hfile])

theorem Places.mono {package_root : OsString} {files others : List (FileId × String)} {function : Function}
    {placement : protocol.Placement} (h : Places lookup_source_file package_root files function placement)
    (hfiles : files <+: others) : Places lookup_source_file package_root others function placement :=
  { h with source := h.source.mono hfiles }

theorem note_extends [DecidableEq FileId] (l files : List (FileId × String)) : files <+: l.foldl note files := by
  induction l generalizing files with
  | nil => exact List.prefix_rfl
  | cons file l ih =>
    refine List.IsPrefix.trans ?_ (ih (note files file))
    rw [note]
    split
    · exact List.prefix_rfl
    · exact List.prefix_append files [file]

/-- Bytes tell the records that they spell. -/
theorem records_injective {added others : List Record} (hadded : ∀ record ∈ added, Short record.texts)
    (hothers : ∀ record ∈ others, Short record.texts) (h : added.flatMap Record.spell = others.flatMap Record.spell) :
    added = others := by
  have hmany : record.many.spell added ++ [] = record.many.spell others ++ [] := by
    rw [spell_many_eq, spell_many_eq, h]
  exact (record.many.delimited (record_many_valid_iff.mpr hadded) (record_many_valid_iff.mpr hothers) hmany).1

theorem placements_of_append (records added : List Record) :
    placements_of (records ++ added) = placements_of records ++ placements_of added :=
  List.filterMap_append

theorem modules_of_append (records added : List Record) : modules_of (records ++ added) = modules_of records ++ modules_of added :=
  List.filterMap_append

variable [Ord FileId] {sources next : Snapshots FileId} {files : List (FileId × String)} {records : List Record}
  {manifest manifest' : List UInt8} {w w' : World}

/-- A capture writes nothing but declarations of snapshots. -/
theorem capture_written {canonicalize : OsString → Option OsString} {instance_ : Instance} {source : Source}
    (h : sources.capture lookup_source_file canonicalize instance_ manifest w = (.ok (source, next, manifest'), w')) :
    ∃ declared : List (UInt64 × UInt64),
      manifest' = manifest ++ (declared.map fun file => Record.SourceFile file.1 file.2).flatMap Record.spell := by
  rw [Snapshots.capture] at h
  cases hlocate : Snapshots.locate lookup_source_file canonicalize sources.package_root instance_ with
  | error unavailable =>
    rw [hlocate] at h
    cases h
    exact ⟨[], by simp⟩
  | ok located =>
    rw [hlocate] at h
    obtain ⟨⟨artifact, last, written⟩, w1, hcapture, hrun⟩ := Action.bind_eq_ok_iff.mp h
    cases hrun
    rw [Snapshots.capture_file] at hcapture
    cases hknown : sources.files[located.stable_id]? with
    | some known =>
      rw [hknown] at hcapture
      cases hcapture
      exact ⟨[], by simp⟩
    | none =>
      rw [hknown] at hcapture
      obtain ⟨_, w2, -, hcapture⟩ := Action.bind_eq_ok_iff.mp hcapture
      obtain ⟨_, w3, -, hcapture⟩ := Action.bind_eq_ok_iff.mp hcapture
      obtain ⟨written, w4, hspell, hcapture⟩ := Action.bind_eq_ok_iff.mp hcapture
      cases hcapture
      obtain ⟨record, hrecord, -, rfl, -⟩ := write_call_ok (.source_file _ _) hspell
      cases hrecord
      exact ⟨[(.ofNat sources.files.size, .ofNat (text located.text).length)], by simp⟩

theorem write_expected_module_expects {configuration : Configuration} {codegen_unit : CodegenUnit}
    (h : InStep lookup_source_file sources w.tree files records)
    (hrun : write_expected_module configuration codegen_unit manifest w = (.ok manifest', w')) :
    w' = w ∧ ∃ added, Advances lookup_source_file sources sources w.tree files records added manifest manifest' ∧
      placements_of added = [] ∧ List.Forall₂ Expects (retained configuration [codegen_unit]) (modules_of added) := by
  rw [write_expected_module] at hrun
  rw [retained]
  cases hextension : configuration.extension with
  | none =>
    rw [hextension] at hrun
    cases hrun
    exact ⟨rfl, [], .refl h, rfl, .nil⟩
  | some extension =>
    rw [hextension] at hrun
    obtain ⟨record, hrecord, hshort, rfl, rfl⟩ := write_call_ok (.module codegen_unit.name codegen_unit.path) hrun
    generalize hpath : codegen_unit.path = path at hrecord
    cases hrecord with
    | module => exact ⟨rfl, _, .record hshort h.expect, rfl, .cons ⟨rfl, hpath⟩ .nil⟩

variable [Std.TransOrd FileId] [Std.LawfulEqOrd FileId] [DecidableEq FileId]

/-- What is captured refers to the text that rustc has loaded, in front of any placement of it. -/
theorem capture_cites {canonicalize : OsString → Option OsString} {instance_ : Instance} {source : Source}
    (hfaithful : Faithful lookup_source_file) (h : InStep lookup_source_file sources w.tree files records)
    (hrun : sources.capture lookup_source_file canonicalize instance_ manifest w = (.ok (source, next, manifest'), w')) :
    let files' := (snapshot_of lookup_source_file canonicalize sources.package_root instance_).toList.foldl note files
    ∃ added, Advances lookup_source_file sources next w'.tree files' records added manifest manifest' ∧
      placements_of added = [] ∧ modules_of added = [] ∧
      ∀ spelled, SourceRecorded source spelled → Refers files' (records ++ added) spelled ∧
        Cites files' (Snapshots.locate lookup_source_file canonicalize sources.package_root instance_) spelled := by
  intro files'
  obtain ⟨added, hadvances, hrefers⟩ := capture_advances hfaithful h hrun
  obtain ⟨declared, hwritten⟩ := capture_written hrun
  rw [hadvances.written, List.append_cancel_left_eq] at hwritten
  have hdeclared : added = declared.map fun file => Record.SourceFile file.1 file.2 :=
    records_injective hadvances.short (List.forall_mem_map.mpr fun _ _ => short_nil) hwritten
  refine ⟨added, hadvances, ?_, ?_, fun spelled hspelled => ⟨hrefers spelled hspelled, ?_⟩⟩
  · simp [placements_of, hdeclared]
  · simp [modules_of, hdeclared]
  · rw [Snapshots.capture] at hrun
    cases hlocate : Snapshots.locate lookup_source_file canonicalize sources.package_root instance_ with
    | error unavailable =>
      rw [hlocate] at hrun
      cases hrun
      cases hspelled with
      | unavailable hreason => exact .unavailable hreason
    | ok located =>
      rw [hlocate] at hrun
      obtain ⟨⟨artifact, last, written⟩, w1, hcapture, hrun⟩ := Action.bind_eq_ok_iff.mp hrun
      cases hrun
      obtain ⟨-, -, hfile⟩ := capture_file_advances hfaithful h (locate_ok hfaithful hlocate).1 hcapture
      have hfiles : files' = note files (located.stable_id, located.text) := by
        simp only [files', snapshot_of, hlocate]
        rfl
      rw [hfiles]
      generalize hpath : located.path = path at hspelled
      cases hspelled with
      | available => exact .available hpath hfile

/-- The function copies of a unit are placed in their order. -/
theorem write_function_placements_places {codegen_unit : String} (hfaithful : Faithful lookup_source_file)
    (items : List Item) : ∀ {sources : Snapshots FileId} {manifest : List UInt8} {files : List (FileId × String)}
    {records : List Record} {w : World}, InStep lookup_source_file sources w.tree files records →
    write_function_placements lookup_source_file codegen_unit items sources manifest w = (.ok (next, manifest'), w') →
    let files' := (items.filterMap (captured lookup_source_file sources.package_root)).foldl note files
    ∃ added, Advances lookup_source_file sources next w'.tree files' records added manifest manifest' ∧
      List.Forall₂ (Places lookup_source_file sources.package_root files') (items.filterMap (Function.of codegen_unit))
        (placements_of added) ∧
      modules_of added = [] := by
  induction items with
  | nil =>
    intro sources manifest files records w h hrun
    cases hrun
    exact ⟨[], .refl h, .nil, rfl⟩
  | cons item items ih =>
    intro sources manifest files records w h hrun
    rw [write_function_placements] at hrun
    have hfold : ((item :: items).filterMap (captured lookup_source_file sources.package_root)).foldl note files =
        (items.filterMap (captured lookup_source_file sources.package_root)).foldl note
          ((captured lookup_source_file sources.package_root item).toList.foldl note files) := by
      rw [List.filterMap_cons]
      cases captured lookup_source_file sources.package_root item <;> rfl
    rw [hfold, captured, List.filterMap_cons, Function.of]
    cases hitem : item.mono_item with
    | Static =>
      rw [hitem] at hrun
      exact ih h hrun
    | GlobalAsm =>
      rw [hitem] at hrun
      exact ih h hrun
    | Fn instance_ =>
      rw [hitem] at hrun
      obtain ⟨⟨source, captured, written⟩, w1, hcapture, hrun⟩ := Action.bind_eq_ok_iff.mp hrun
      obtain ⟨placed, w2, hplace, hrun⟩ := Action.bind_eq_ok_iff.mp hrun
      obtain ⟨added, hadvances, hplacements, hmodules, hcites⟩ := capture_cites hfaithful h hcapture
      obtain ⟨record, hrecord, hshort, rfl, rfl⟩ :=
        write_call_ok (.placement instance_.concrete codegen_unit item.data source) hplace
      cases hrecord with
      | placement hsource =>
        obtain ⟨hrefers, hcited⟩ := hcites _ hsource
        have hplaced := hadvances.trans (.record hshort (hadvances.in_step.place hrefers))
        obtain ⟨later, hlater, hfunctions, hnone⟩ := ih hplaced.in_step hrun
        rw [hadvances.package_root] at hlater hfunctions
        refine ⟨_, hplaced.trans hlater, ?_, ?_⟩
        · rw [placements_of_append, placements_of_placement, hplacements]
          exact .cons ⟨rfl, rfl, rfl, rfl, rfl, rfl, hcited.mono (note_extends _ _)⟩ hfunctions
        · rw [modules_of_append, modules_of_placement, hmodules, hnone]
          rfl

/-- All function copies are placed in their order, and so are the modules expected. -/
theorem write_codegen_units_places {configuration : Configuration} (hfaithful : Faithful lookup_source_file)
    (codegen_units : List CodegenUnit) : ∀ {sources : Snapshots FileId} {manifest : List UInt8}
    {files : List (FileId × String)} {records : List Record} {w : World},
    InStep lookup_source_file sources w.tree files records →
    write_codegen_units lookup_source_file configuration codegen_units sources manifest w = (.ok (next, manifest'), w') →
    let files' := (captures lookup_source_file sources.package_root codegen_units).foldl note files
    ∃ added, Advances lookup_source_file sources next w'.tree files' records added manifest manifest' ∧
      List.Forall₂ (Places lookup_source_file sources.package_root files') (functions codegen_units) (placements_of added) ∧
      List.Forall₂ Expects (retained configuration codegen_units) (modules_of added) := by
  induction codegen_units with
  | nil =>
    intro sources manifest files records w h hrun
    cases hrun
    refine ⟨[], .refl h, .nil, ?_⟩
    rw [retained, ite_self]
    exact .nil
  | cons codegen_unit codegen_units ih =>
    intro sources manifest files records w h hrun
    rw [write_codegen_units] at hrun
    obtain ⟨expected, w1, hexpect, hitems⟩ := Action.bind_eq_ok_iff.mp hrun
    obtain ⟨⟨mid, written⟩, w2, hplace, hunits⟩ := Action.bind_eq_ok_iff.mp hitems
    obtain ⟨rfl, added, hadvances, hunplaced, hexpected⟩ := write_expected_module_expects h hexpect
    obtain ⟨placed, hplaced, hitems, hunexpected⟩ :=
      write_function_placements_places hfaithful codegen_unit.items hadvances.in_step hplace
    have hboth := hadvances.trans hplaced
    obtain ⟨later, hlater, hfunctions, hmodules⟩ := ih hboth.in_step hunits
    have hall := hboth.trans hlater
    rw [hplaced.package_root] at hall hfunctions
    have hretained : retained configuration (codegen_unit :: codegen_units) =
        retained configuration [codegen_unit] ++ retained configuration codegen_units := by
      simp only [retained]
      split <;> rfl
    rw [captures, List.flatMap_cons, List.foldl_append]
    refine ⟨_, hall, ?_, ?_⟩
    · rw [functions, List.flatMap_cons, placements_of_append, placements_of_append, hunplaced, List.nil_append]
      exact List.rel_append (hitems.imp fun _ _ hplaces => hplaces.mono (note_extends _ _)) hfunctions
    · rw [hretained, modules_of_append, modules_of_append, hunexpected, List.append_nil]
      exact List.rel_append hexpected hmodules

/-- A whole stream places the functions of an analysis, and expects its modules. -/
theorem collect_places {marker : String} {configuration : Configuration} {codegen_units : List CodegenUnit}
    {directory : Path} {package_root : OsString} {stream : List UInt8} (hfaithful : Faithful lookup_source_file)
    (hrun : collect lookup_source_file marker configuration codegen_units (.new directory package_root) w =
      (.ok (sources, stream), w')) :
    ∃ files records, Spellable marker configuration.settings records ∧
      stream = encode marker configuration.settings records ∧ sources.directory = directory ∧
      InStep lookup_source_file sources w'.tree files records ∧
      List.Forall₂ (Places lookup_source_file package_root files) (functions codegen_units) (placements_of records) ∧
      List.Forall₂ Expects (retained configuration codegen_units) (modules_of records) := by
  obtain ⟨records, hspellable, hstream, hdirectory, hstep⟩ := collect_in_step hfaithful hrun
  obtain ⟨header, w1, hheader, hrun⟩ := Action.bind_eq_ok_iff.mp hrun
  obtain ⟨configured, w2, hconfigured, hrun⟩ := Action.bind_eq_ok_iff.mp hrun
  obtain ⟨⟨last, written⟩, w3, hunits, hrun⟩ := Action.bind_eq_ok_iff.mp hrun
  obtain ⟨finished, w4, hended, hrun⟩ := Action.bind_eq_ok_iff.mp hrun
  cases hrun
  obtain ⟨added, hadvances, hfunctions, hmodules⟩ :=
    write_codegen_units_places hfaithful codegen_units (.new lookup_source_file directory package_root _) hunits
  have hsame : records = added := by
    refine records_injective hspellable.records hadvances.short ?_
    rw [(ManifestWriter.run_write_header_iff.mp (write_eq_ok_iff.mp hheader).1).2] at hconfigured
    rw [(ManifestWriter.run_write_configuration_iff.mp (write_eq_ok_iff.mp hconfigured).1).2] at hadvances
    have hfinished := ManifestWriter.run_write_u32_iff.mp (write_eq_ok_iff.mp hended).1
    rw [hadvances.written, hstream, encode, spell_many_eq] at hfinished
    simpa [protocol.configuration] using hfinished
  exact ⟨_, records, hspellable, hstream, hdirectory, hstep, hsame ▸ hfunctions, hsame ▸ hmodules⟩

end optic.driver
