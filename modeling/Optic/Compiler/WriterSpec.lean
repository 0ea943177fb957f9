import Optic.Compiler.WireSpec
import Optic.Compiler.Writer

open rust optic.records wire wire.Encoder optic.compiler optic.compiler.protocol

namespace optic.driver

def lto_mode : Lto → LlvmLto
  | .No => .Off
  | .ThinLocal => .LocalThin
  | .Thin => .CrossCrateThin
  | .Fat => .Fat

/-- The configuration record that the writer spells. -/
def Configuration.settings (self : Configuration) : protocol.Configuration where
  backend := self.backend
  target := self.target
  optimization := ManifestWriter.optimization_name self.optimization
  lto := lto_mode self.lto
  incremental := self.incremental
  linker_plugin := self.linker_plugin
  codegen_units := self.codegen_units
  unsupported := self.unsupported

/-- The source part that the writer spells, unless the path is not UTF-8. -/
inductive SourceRecorded : Source → protocol.Source → Prop
  | available {artifact start length : UInt64} {display_path : String} {starting_line : UInt64} :
    SourceRecorded (.Available ⟨artifact, start, length, display_path, starting_line⟩)
      (.Available artifact start length display_path starting_line)
  | unavailable {reason : UInt32} {known : ∃ unavailable, reason = unavailable_code unavailable}
    {unavailable : SourceUnavailable} (h : reason = unavailable_code unavailable) :
    SourceRecorded (.Unavailable reason known) (.Unavailable unavailable)

/-- The record that the writer spells for a call. -/
inductive Recorded : Call → Record → Prop
  | placement {instance_ : ConcreteInstance} {codegen_unit : String} {data : MonoItemData} {source : Source}
    {spelled : protocol.Source} (h : SourceRecorded source spelled) :
    Recorded (.placement instance_ codegen_unit data source) (.Placement {
      key := ⟨instance_.definition_crate, instance_.definition_path, instance_.display_name, instance_.raw_symbol⟩,
      codegen_unit, linkage := ManifestWriter.linkage_name data.linkage,
      visibility := ManifestWriter.visibility_name data.visibility, local_copy := data.inlined,
      size_estimate := data.size_estimate, source := spelled })
  | source_file {id length : UInt64} : Recorded (.source_file id length) (.SourceFile id length)
  | module {name path : String} : Recorded (.module name path) (.Module name path)

variable {out out' : List UInt8}

namespace ManifestWriter

theorem run_write_u32_iff {value : UInt32} :
    (write_u32 value).run out = .ok ((), out') ↔ out' = out ++ Format.u32.spell value :=
  run_bytes_iff

theorem run_write_u64_iff {value : UInt64} :
    (write_u64 value).run out = .ok ((), out') ↔ out' = out ++ Format.u64.spell value :=
  run_bytes_iff

/-- A string is written as its length and its bytes, if the length fits. -/
theorem run_write_string_iff {value : String} :
    (write_string value).run out = .ok ((), out') ↔ string.Valid value ∧ out' = out ++ string.spell value := by
  simp only [write_string, write_bytes, run_seq_iff, run_check_iff, run_write_u32_iff, run_bytes_iff, and_assoc,
    exists_and_left, exists_eq_left, decide_eq_true_eq, List.append_assoc]
  rfl

theorem run_write_path_iff {path : OsString} {message : String} :
    (write_path path message).run out = .ok ((), out') ↔
      ∃ value, path = .utf8 value ∧ string.Valid value ∧ out' = out ++ string.spell value := by
  cases path with
  | utf8 value =>
    change (write_string value).run out = _ ↔ _
    simp [run_write_string_iff]
  | other bytes invalid =>
    change (Except.error _ : Except Failure _) = _ ↔ _
    simp

theorem run_write_header_iff {marker : String} :
    (write_header marker).run out = .ok ((), out') ↔ string.Valid marker ∧ out' = out ++ header.spell marker := by
  simp only [write_header, write_bytes, run_seq_iff, run_check_iff, run_write_u32_iff, run_bytes_iff, and_assoc,
    exists_and_left, exists_eq_left, decide_eq_true_eq, List.append_assoc, header]
  rfl

theorem lto_value_eq (lto : Lto) : lto_value lto = lto_code (lto_mode lto) := by
  cases lto <;> rfl

theorem run_write_configuration_iff {configuration : Configuration} :
    (write_configuration configuration).run out = .ok ((), out') ↔
      Short configuration.settings.texts ∧ out' = out ++ configuration.settings.spell := by
  simp only [write_configuration, run_seq_iff, run_write_string_iff, run_write_u32_iff, and_assoc, exists_and_left,
    exists_eq_left, List.append_assoc, lto_value_eq]
  simp only [Configuration.settings, protocol.Configuration.texts, protocol.Configuration.spell, short_cons_iff,
    bool_code, List.append_assoc, short_nil, and_true, and_assoc]
  rfl

theorem run_write_source_iff {source : Source} :
    (write_source source).run out = .ok ((), out') ↔
      ∃ spelled, SourceRecorded source spelled ∧ Short spelled.texts ∧ out' = out ++ spelled.spell := by
  cases source with
  | Available span =>
    obtain ⟨artifact, start, length, path, line⟩ := span
    simp only [write_source, run_seq_iff, run_write_u32_iff, run_write_u64_iff, run_write_path_iff, exists_eq_left,
      List.append_assoc]
    constructor
    · rintro ⟨_, ⟨value, rfl, hvalid, rfl⟩, rfl⟩
      refine ⟨_, .available, short_cons_iff.mpr ⟨hvalid, short_nil⟩, ?_⟩
      simp [protocol.Source.spell]
    · rintro ⟨_, ⟨⟩, hshort, rfl⟩
      refine ⟨_, ⟨_, rfl, (short_cons_iff.mp hshort).1, rfl⟩, ?_⟩
      simp [protocol.Source.spell]
  | Unavailable reason known =>
    rw [write_source, run_write_u32_iff]
    constructor
    · rintro rfl
      obtain ⟨unavailable, rfl⟩ := id known
      exact ⟨_, .unavailable rfl, short_nil, rfl⟩
    · rintro ⟨_, hsource, -, rfl⟩
      cases hsource with
      | unavailable hreason =>
        rw [hreason]
        rfl

end ManifestWriter

open ManifestWriter

/-- A call writes its record, unless a text is too long or a path is not UTF-8. -/
theorem Call.run_write_iff {call : Call} :
    call.write.run out = .ok ((), out') ↔
      ∃ record, Recorded call record ∧ Short record.texts ∧ out' = out ++ record.spell := by
  cases call with
  | placement instance_ codegen_unit data source =>
    simp only [Call.write, write_placement, run_seq_iff, run_write_u32_iff, run_write_u64_iff, run_write_string_iff,
      run_write_source_iff, and_assoc, exists_and_left, exists_eq_left, List.append_assoc]
    constructor
    · rintro ⟨hcrate, hpath, hdisplay, hsymbol, hunit, hlinkage, hvisibility, spelled, hsource, hshort, rfl⟩
      refine ⟨_, .placement hsource, ?_, ?_⟩
      · simp only [Record.texts, protocol.Placement.texts, InstanceKey.texts, List.cons_append, List.nil_append,
          short_cons_iff]
        exact ⟨hcrate, hpath, hdisplay, hsymbol, hunit, hlinkage, hvisibility, hshort⟩
      · simp only [Record.spell, Record.kind, Record.fields, protocol.Placement.spell, List.append_assoc]
        rfl
    · rintro ⟨_, ⟨hsource⟩, hshort, rfl⟩
      simp only [Record.texts, protocol.Placement.texts, InstanceKey.texts, List.cons_append, List.nil_append,
        short_cons_iff] at hshort
      obtain ⟨hcrate, hpath, hdisplay, hsymbol, hunit, hlinkage, hvisibility, hshort⟩ := hshort
      refine ⟨hcrate, hpath, hdisplay, hsymbol, hunit, hlinkage, hvisibility, _, hsource, hshort, ?_⟩
      simp only [Record.spell, Record.kind, Record.fields, protocol.Placement.spell, List.append_assoc]
      rfl
  | source_file id length =>
    simp only [Call.write, write_source_file, run_seq_iff, run_write_u32_iff, run_write_u64_iff, exists_eq_left,
      List.append_assoc]
    constructor
    · rintro rfl
      exact ⟨_, .source_file, short_nil, rfl⟩
    · rintro ⟨_, ⟨⟩, -, rfl⟩
      rfl
  | module name path =>
    simp only [Call.write, write_module, run_seq_iff, run_write_u32_iff, run_write_string_iff, run_write_path_iff,
      and_assoc, exists_and_left, exists_eq_left, List.append_assoc]
    constructor
    · rintro ⟨hname, value, rfl, hvalue, rfl⟩
      exact ⟨_, .module, short_cons_iff.mpr ⟨hname, short_cons_iff.mpr ⟨hvalue, short_nil⟩⟩, rfl⟩
    · rintro ⟨_, ⟨⟩, hshort, rfl⟩
      obtain ⟨hname, hpath⟩ := short_cons_iff.mp hshort
      exact ⟨hname, _, rfl, (short_cons_iff.mp hpath).1, rfl⟩

theorem run_write_calls_iff {calls : List Call} : ∀ {out : List UInt8},
    (write_calls calls).run out = .ok ((), out') ↔ ∃ records, List.Forall₂ Recorded calls records ∧
      (∀ record ∈ records, Short record.texts) ∧ out' = out ++ records.flatMap Record.spell := by
  induction calls with
  | nil =>
    intro out
    rw [write_calls, run_pure_iff]
    simp
  | cons call calls ih =>
    intro out
    simp only [write_calls, run_seq_iff, Call.run_write_iff, ih]
    constructor
    · rintro ⟨_, ⟨record, hrecord, hshort, rfl⟩, records, hrecords, hall, rfl⟩
      exact ⟨record :: records, .cons hrecord hrecords, List.forall_mem_cons.mpr ⟨hshort, hall⟩, by simp⟩
    · rintro ⟨_, hrecords, hall, rfl⟩
      cases hrecords with
      | @cons _ record _ records hrecord hrecords =>
        obtain ⟨hshort, hall⟩ := List.forall_mem_cons.mp hall
        exact ⟨_, ⟨record, hrecord, hshort, rfl⟩, records, hrecords, hall, by simp⟩

theorem spell_many_eq (records : List Record) :
    record.many.spell records = records.flatMap Record.spell ++ Format.u32.spell END_RECORD := by
  induction records with
  | nil => rfl
  | cons first records ih =>
    rw [List.flatMap_cons, List.append_assoc, ← ih]
    rfl

/-- The writer emits the stream of its calls, unless a text is too long or a path is not
UTF-8. -/
theorem emit_eq_ok_iff {marker : String} {configuration : Configuration} {calls : List Call} :
    emit marker configuration calls = .ok out ↔ ∃ records, List.Forall₂ Recorded calls records ∧
      Spellable marker configuration.settings records ∧ out = encode marker configuration.settings records := by
  have hrun : emit marker configuration calls = .ok out ↔
      (write_header marker >>= fun _ => write_configuration configuration >>= fun _ =>
        write_calls calls >>= fun _ => finish).run [] = .ok ((), out) := by
    rw [emit]
    cases (write_header marker >>= fun _ => write_configuration configuration >>= fun _ =>
        write_calls calls >>= fun _ => finish).run [] with
    | error failure => simp [Except.map]
    | ok found => exact ⟨fun h => by cases h; rfl, fun h => by cases h; rfl⟩
  simp only [hrun, run_seq_iff, run_write_header_iff, run_write_configuration_iff, run_write_calls_iff, finish,
    run_write_u32_iff]
  constructor
  · rintro ⟨_, ⟨hmarker, rfl⟩, _, ⟨hsettings, rfl⟩, _, ⟨records, hrecorded, hshort, rfl⟩, rfl⟩
    refine ⟨records, hrecorded, ⟨hmarker, hsettings, hshort⟩, ?_⟩
    rw [encode, spell_many_eq]
    simp [protocol.configuration]
  · rintro ⟨records, hrecorded, ⟨hmarker, hsettings, hshort⟩, rfl⟩
    refine ⟨_, ⟨hmarker, rfl⟩, _, ⟨hsettings, rfl⟩, _, ⟨records, hrecorded, hshort, rfl⟩, ?_⟩
    rw [encode, spell_many_eq]
    simp [protocol.configuration]

/-- What the writer emits is accepted exactly when its records obey the rules, and is
decoded as their grouping. -/
theorem emitted_decoded (path : PathBuf) (marker : String) (configuration : Configuration) (calls : List Call)
    (records : List Record) (hrecorded : List.Forall₂ Recorded calls records)
    (hshort : Spellable marker configuration.settings records) :
    ∃ reader, emit marker configuration calls = .ok reader ∧
      ((∃ manifest, (ManifestDecoder.mk path reader none marker).read = .ok manifest) ↔
        ProtocolRules path configuration.settings records) ∧
      ∀ manifest, (ManifestDecoder.mk path reader none marker).read = .ok manifest →
        ∀ other, Grouped configuration.settings records other ↔ other = manifest := by
  have hdecoded : ∀ manifest,
      (ManifestDecoder.mk path (encode marker configuration.settings records) none marker).read = .ok manifest →
        ProtocolRules path configuration.settings records ∧ Grouped configuration.settings records manifest := by
    intro manifest hread
    obtain ⟨settings, others, hspellable, hreader, hrules, hgrouped⟩ := ManifestDecoder.read_grouped hread
    obtain ⟨hsettings, hothers, -⟩ := encode_delimited hshort hspellable (congrArg (· ++ []) hreader)
    rw [hsettings, hothers]
    exact ⟨hrules, hgrouped⟩
  refine ⟨_, emit_eq_ok_iff.mpr ⟨records, hrecorded, hshort, rfl⟩, ⟨?_, ?_⟩, fun manifest hread other => ?_⟩
  · rintro ⟨manifest, hread⟩
    exact (hdecoded manifest hread).1
  · intro hrules
    exact ManifestDecoder.exists_read rfl hshort rfl hrules
  · exact (hdecoded manifest hread).2.eq_iff

/-- One module, one source file and one placement in it. -/
theorem emitted_decoded_function :
    let configuration : Configuration := ⟨"llvm", "x86_64-unknown-linux-gnu", .Aggressive, .No, false, false, 16, LLVM_SUPPORTED⟩
    let calls : List Call := [.module "fixture.0" ("/attempt/llvm/fixture.0.bc" : String), .source_file 7 15,
      .placement ⟨"fixture", "fixture::kernel", "fixture::kernel", "_RNvCfixture6kernel"⟩ "fixture.0"
        ⟨false, .External, .Default, 17⟩ (.Available ⟨7, 2, 13, ("/fixture/src/lib.rs" : String), 1⟩)]
    ∃ records reader, List.Forall₂ Recorded calls records ∧ emit "marker" configuration calls = .ok reader ∧
      ((∃ manifest, (ManifestDecoder.mk ⟨"/attempt/manifest"⟩ reader none "marker").read = .ok manifest) ↔
        ProtocolRules ⟨"/attempt/manifest"⟩ configuration.settings records) := by
  intro configuration calls
  let records : List Record := [.Module "fixture.0" "/attempt/llvm/fixture.0.bc", .SourceFile 7 15,
    .Placement ⟨⟨"fixture", "fixture::kernel", "fixture::kernel", "_RNvCfixture6kernel"⟩, "fixture.0", "External", "Default",
      false, 17, .Available 7 2 13 "/fixture/src/lib.rs" 1⟩]
  have hrecorded : List.Forall₂ Recorded calls records :=
    .cons .module (.cons .source_file (.cons (.placement .available) .nil))
  have hshort : Spellable "marker" configuration.settings records := ⟨by decide, by decide, by decide⟩
  obtain ⟨reader, hemit, haccepted, -⟩ :=
    emitted_decoded ⟨"/attempt/manifest"⟩ "marker" configuration calls records hrecorded hshort
  exact ⟨records, reader, hrecorded, hemit, haccepted⟩

end optic.driver
