import Optic.Compiler.Decoder

open rust optic.records wire wire.Decoder optic.compiler.protocol

namespace optic.compiler

theorem lto_of_eq_some_iff {code : UInt32} {lto : LlvmLto} : lto_of code = some lto ↔ code = lto_code lto := by
  constructor
  · intro h
    unfold lto_of at h
    split_ifs at h <;> cases h <;> assumption
  · rintro rfl
    cases lto <;> rfl

theorem support_of_eq_some_iff {code : UInt32} {support : Option UnsupportedLlvmConfiguration} :
    support_of code = some support ↔ code = support_code support := by
  constructor
  · intro h
    unfold support_of at h
    split_ifs at h <;> cases h <;> assumption
  · rintro rfl
    rcases support with _ | reason
    · rfl
    · cases reason <;> rfl

theorem unavailable_of_eq_some_iff {code : UInt32} {reason : SourceUnavailable} :
    unavailable_of code = some reason ↔ code = unavailable_code reason := by
  constructor
  · intro h
    unfold unavailable_of at h
    split_ifs at h <;> cases h <;> assumption
  · rintro rfl
    cases reason <;> rfl

namespace ManifestDecoder

theorem run_check_iff {ok : Bool} {error : Error} {input rest : List UInt8} {u : Unit} :
    (check ok error).run input = .ok (u, rest) ↔ ok = true ∧ input = rest := by
  rw [check, run_lift_iff, ensure_eq_ok_iff]

theorem run_record_iff {α : Type} {result : Except records.Error α} {input rest : List UInt8} {a : α} :
    (record result).run input = .ok (a, rest) ↔ result = .ok a ∧ input = rest := by
  rw [record, run_lift_iff]
  cases result <;> simp [Except.mapError]

variable {self : ManifestDecoder} {input rest : List UInt8}

theorem run_read_exact_iff {length : Nat} {field : String} {bytes : List UInt8} :
    (self.read_exact length field).run input = .ok (bytes, rest) ↔ bytes.length = length ∧ input = bytes ++ rest :=
  run_take_iff

theorem run_read_u32_iff {field : String} {n : UInt32} :
    (self.read_u32 field).run input = .ok (n, rest) ↔ input = Format.u32.spell n ++ rest := by
  simp only [read_u32, run_bind_iff, run_read_exact_iff, run_pure_iff]
  constructor
  · rintro ⟨bytes, mid, ⟨hlength, rfl⟩, rfl, rfl⟩
    rw [Format.spell_u32_of_le_bytes hlength]
  · rintro rfl
    exact ⟨_, rest, ⟨Format.length_spell_u32 n, rfl⟩, Format.of_le_bytes_spell_u32 n, rfl⟩

theorem run_read_u64_iff {field : String} {n : UInt64} :
    (self.read_u64 field).run input = .ok (n, rest) ↔ input = Format.u64.spell n ++ rest := by
  simp only [read_u64, run_bind_iff, run_read_exact_iff, run_pure_iff]
  constructor
  · rintro ⟨bytes, mid, ⟨hlength, rfl⟩, rfl, rfl⟩
    rw [Format.spell_u64_of_le_bytes hlength]
  · rintro rfl
    exact ⟨_, rest, ⟨Format.length_spell_u64 n, rfl⟩, Format.of_le_bytes_spell_u64 n, rfl⟩

theorem run_read_bool_iff {field : String} {value : Bool} :
    (self.read_bool field).run input = .ok (value, rest) ↔ input = Format.u32.spell (bool_code value) ++ rest := by
  simp only [read_bool, run_bind_iff, run_read_u32_iff]
  constructor
  · rintro ⟨code, mid, rfl, h⟩
    split_ifs at h with hzero hone
    · obtain ⟨rfl, rfl⟩ := run_pure_iff.mp h
      rw [hzero]
      rfl
    · obtain ⟨rfl, rfl⟩ := run_pure_iff.mp h
      rw [hone]
      rfl
    · exact (run_fail_iff.mp h).elim
  · rintro rfl
    refine ⟨bool_code value, rest, rfl, ?_⟩
    cases value
    · exact run_pure_iff.mpr ⟨rfl, rfl⟩
    · exact run_pure_iff.mpr ⟨rfl, rfl⟩

/-- A string is accepted as its length and its bytes. -/
theorem run_read_string_iff {field : String} {value : String} :
    (self.read_string field).run input = .ok (value, rest) ↔
      string.Valid value ∧ input = string.spell value ++ rest := by
  simp only [read_string, run_bind_iff, run_read_u32_iff, run_read_exact_iff, run_lift_iff, ok_or_eq_ok_iff]
  constructor
  · rintro ⟨length, _, rfl, bytes, _, ⟨hlength, rfl⟩, hvalue, rfl⟩
    obtain rfl := text_of_from_utf8 hvalue
    have hspell : UInt32.ofNat (text value).length = length := by rw [hlength, UInt32.ofNat_toNat]
    refine ⟨?_, ?_⟩
    · change (text value).length < UInt32.size
      rw [hlength]
      exact length.toNat_lt
    · change _ = (Format.u32.spell (UInt32.ofNat (text value).length) ++ text value) ++ _
      rw [hspell, List.append_assoc]
  · rintro ⟨hvalid, rfl⟩
    have hlength : (text value).length = (UInt32.ofNat (text value).length).toNat :=
      (UInt32.toNat_ofNat_of_lt' hvalid).symm
    exact ⟨_, _, List.append_assoc _ _ _, text value, _, ⟨hlength, rfl⟩, from_utf8_text value, rfl⟩

end ManifestDecoder

/-- The transport metadata that a configuration record stands for. -/
def ConfigurationMeans (settings : protocol.Configuration) (configuration : Configuration) : Prop :=
  configuration.backend = settings.backend ∧ configuration.target = settings.target ∧
    configuration.optimization = settings.optimization ∧ configuration.lto = settings.lto ∧
    configuration.incremental = settings.incremental ∧ configuration.linker_plugin = settings.linker_plugin ∧
    configuration.codegen_units = settings.codegen_units ∧ support_code configuration.unsupported = settings.unsupported

/-- The relationship that the source part of a placement record stands for. -/
def SourceMeans : protocol.Source → SourceAvailability → Prop
  | .Available artifact start length display_path starting_line, .Available record =>
    record.artifact = ⟨artifact⟩ ∧ record.range.start = start ∧ record.range.length = length ∧
      record.display_path = ⟨display_path⟩ ∧ record.starting_line = starting_line
  | .Unavailable reason, .Unavailable reason' => reason' = reason
  | _, _ => False

/-- The durable record that a placement record stands for. -/
def PlacementMeans (placement : protocol.Placement) (record : PlacementRecord) : Prop :=
  record.codegen_unit = placement.codegen_unit ∧ record.linkage = placement.linkage ∧
    record.visibility = placement.visibility ∧ record.local_copy = placement.local_copy ∧
    record.size_estimate = placement.size_estimate

namespace ManifestDecoder

variable {self : ManifestDecoder} {input rest : List UInt8}

/-- The header must be the one of the selected marker. -/
theorem run_read_header_iff {u : Unit} :
    self.read_header.run input = .ok (u, rest) ↔
      string.Valid self.marker ∧ input = header.spell self.marker ++ rest := by
  simp only [read_header, run_bind_iff, run_read_exact_iff, run_check_iff, run_read_u32_iff, run_read_string_iff,
    decide_eq_true_eq]
  constructor
  · rintro ⟨magic, _, ⟨-, rfl⟩, _, _, ⟨rfl, rfl⟩, version, _, rfl, _, _, ⟨rfl, rfl⟩, marker, _, ⟨hvalid, rfl⟩, rfl, rfl⟩
    refine ⟨hvalid, ?_⟩
    simp [header]
  · rintro ⟨hvalid, rfl⟩
    refine ⟨_, _, ⟨rfl, ?_⟩, (), _, ⟨rfl, rfl⟩, _, _, rfl, (), _, ⟨rfl, rfl⟩, _, _, ⟨hvalid, rfl⟩, rfl, rfl⟩
    simp [header]

theorem read_configuration_reads : Reads self.read_configuration configuration ConfigurationMeans := by
  intro input rest result
  simp only [read_configuration, run_bind_iff, run_check_iff, run_read_u32_iff, run_read_string_iff, run_read_bool_iff,
    run_lift_iff, run_pure_iff, ok_or_eq_ok_iff, decide_eq_true_eq, lto_of_eq_some_iff, support_of_eq_some_iff]
  constructor
  · rintro ⟨_, _, rfl, _, _, ⟨rfl, rfl⟩, backend, _, ⟨hbackend, rfl⟩, target, _, ⟨htarget, rfl⟩, optimization, _,
      ⟨hoptimization, rfl⟩, _, _, rfl, lto, _, ⟨rfl, rfl⟩, incremental, _, rfl, plugin, _, rfl, units, _, rfl, _, _, rfl,
      _, _, ⟨rfl, rfl⟩, code, _, rfl, support, _, ⟨rfl, rfl⟩, rfl, rfl⟩
    let settings : protocol.Configuration :=
      ⟨backend, target, optimization, lto, incremental, plugin, units, support_code support⟩
    refine ⟨settings, ?_, ⟨rfl, rfl, rfl, rfl, rfl, rfl, rfl, rfl⟩, ?_⟩
    · exact short_cons_iff.mpr ⟨hbackend, short_cons_iff.mpr ⟨htarget, short_cons_iff.mpr ⟨hoptimization, short_nil⟩⟩⟩
    · simp [configuration, protocol.Configuration.spell, settings]
  · rintro ⟨⟨_, _, _, _, _, _, _, _⟩, hvalid, hmeans, rfl⟩
    obtain ⟨_, _, _, _, _, _, _, _⟩ := result
    obtain ⟨rfl, rfl, rfl, rfl, rfl, rfl, rfl, rfl⟩ := hmeans
    simp only [protocol.configuration, protocol.Configuration.texts, short_cons_iff] at hvalid
    obtain ⟨hbackend, htarget, hoptimization, -⟩ := hvalid
    simp only [configuration, protocol.Configuration.spell, List.append_assoc]
    exact ⟨_, _, rfl, (), _, ⟨rfl, rfl⟩, _, _, ⟨hbackend, rfl⟩, _, _, ⟨htarget, rfl⟩, _, _, ⟨hoptimization, rfl⟩,
      _, _, rfl, _, _, ⟨rfl, rfl⟩, _, _, rfl, _, _, rfl, _, _, rfl, _, _, rfl, (), _, ⟨rfl, rfl⟩, _, _, rfl, _, _,
      ⟨rfl, rfl⟩, rfl, rfl⟩

theorem run_read_available_iff {record : SourceRecord} :
    self.read_available.run input = .ok (record, rest) ↔ ∃ source : protocol.Source,
      Short source.texts ∧ SourceMeans source (.Available record) ∧
        Format.u32.spell SOURCE_AVAILABLE ++ input = source.spell ++ rest := by
  simp only [read_available, run_bind_iff, run_read_u64_iff, run_read_string_iff, run_record_iff,
    ByteRange.new_eq_ok_iff, SourceRecord.new_eq_ok_iff]
  constructor
  · rintro ⟨artifact, _, rfl, start, _, rfl, length, _, rfl, path, _, ⟨hpath, rfl⟩, line, _, rfl, range, _,
      ⟨⟨hstart, hlength⟩, rfl⟩, ⟨hartifact, hrange, hdisplay, hline⟩, rfl⟩
    refine ⟨.Available artifact start length path line, short_cons_iff.mpr ⟨hpath, short_nil⟩, ?_, ?_⟩
    · exact ⟨hartifact, by rw [hrange, hstart], by rw [hrange, hlength], hdisplay, hline⟩
    · simp [protocol.Source.spell]
  · rintro ⟨source, hshort, hmeans, h⟩
    cases source with
    | Unavailable reason => cases hmeans
    | Available artifact start length path line =>
      obtain ⟨hartifact, hstart, hlength, hdisplay, hline⟩ := hmeans
      simp only [protocol.Source.spell, List.append_assoc, List.append_cancel_left_eq] at h
      exact ⟨_, _, h, _, _, rfl, _, _, rfl, _, _, ⟨(short_cons_iff.mp hshort).1, rfl⟩, _, _, rfl, record.range, _,
        ⟨⟨hstart, hlength⟩, rfl⟩, ⟨hartifact, rfl, hdisplay, hline⟩, rfl⟩

theorem read_source_reads : Reads self.read_source source SourceMeans := by
  intro input rest result
  simp only [read_source, run_bind_iff, run_read_u32_iff]
  constructor
  · rintro ⟨code, mid, rfl, h⟩
    split_ifs at h with hcode
    · simp only [run_bind_iff, run_pure_iff, run_read_available_iff] at h
      obtain ⟨record, _, ⟨source, hshort, hmeans, hspell⟩, rfl, rfl⟩ := h
      rw [hcode]
      exact ⟨source, hshort, hmeans, hspell⟩
    · simp only [run_bind_iff, run_pure_iff, run_lift_iff, ok_or_eq_ok_iff, unavailable_of_eq_some_iff] at h
      obtain ⟨reason, _, ⟨rfl, rfl⟩, rfl, rfl⟩ := h
      exact ⟨.Unavailable reason, short_nil, rfl, rfl⟩
  · rintro ⟨source, hshort, hmeans, rfl⟩
    cases result with
    | Available record =>
      cases source with
      | Unavailable reason => cases hmeans
      | Available artifact start length path line =>
        have hspell : (protocol.Source.Available artifact start length path line).spell ++ rest =
            Format.u32.spell SOURCE_AVAILABLE ++ (Format.u64.spell artifact ++ (Format.u64.spell start ++
              (Format.u64.spell length ++ (string.spell path ++ (Format.u64.spell line ++ rest))))) := by
          simp [protocol.Source.spell]
        refine ⟨SOURCE_AVAILABLE, _, hspell, ?_⟩
        rw [if_pos rfl]
        simp only [run_bind_iff, run_pure_iff, run_read_available_iff]
        exact ⟨record, _, ⟨_, hshort, hmeans, hspell.symm⟩, rfl, rfl⟩
    | Unavailable reason =>
      cases source with
      | Available artifact start length path line => cases hmeans
      | Unavailable reason' =>
        cases hmeans
        refine ⟨unavailable_code reason, _, rfl, ?_⟩
        rw [if_neg (unavailable_code_ne reason)]
        simp only [run_bind_iff, run_pure_iff, run_lift_iff, ok_or_eq_ok_iff, unavailable_of_eq_some_iff]
        exact ⟨reason, _, ⟨rfl, rfl⟩, rfl, rfl⟩

/-- What a placement record does to the declarations. -/
def Places (self : ManifestDecoder) (declared : Declarations) (placement : protocol.Placement) (next : Declarations) :
    Prop :=
  ∃ record source placements, PlacementMeans placement record ∧ SourceMeans placement.source source ∧
    self.add_placement declared.placements placement.key record source = .ok placements ∧
      { declared with placements } = next

theorem read_instance_placement_reads (declared : Declarations) :
    Reads (self.read_instance_placement declared) placement (self.Places declared) := by
  intro input rest result
  simp only [read_instance_placement, read_placement, run_bind_iff, run_read_string_iff, run_read_bool_iff,
    run_read_u64_iff, run_record_iff, run_lift_iff, run_pure_iff, PlacementRecord.new_eq_ok_iff,
    read_source_reads.run_iff]
  constructor
  · rintro ⟨⟨key, record⟩, _, ⟨crate, _, ⟨hcrate, rfl⟩, path, _, ⟨hpath, rfl⟩, display, _, ⟨hdisplay, rfl⟩, symbol, _,
      ⟨hsymbol, rfl⟩, unit, _, ⟨hunit, rfl⟩, linkage, _, ⟨hlinkage, rfl⟩, visibility, _, ⟨hvisibility, rfl⟩, copy, _,
      rfl, size, _, rfl, _, _, ⟨hmeans, rfl⟩, hfound, rfl⟩, available, _, ⟨source, hshort, hsource, rfl⟩, placements, _,
      ⟨hadd, rfl⟩, rfl, rfl⟩
    cases hfound
    refine ⟨⟨⟨crate, path, display, symbol⟩, unit, linkage, visibility, copy, size, source⟩, ?_,
      ⟨record, available, placements, hmeans, hsource, hadd, rfl⟩, ?_⟩
    · simp only [placement, protocol.Placement.texts, InstanceKey.texts, List.cons_append, short_cons_iff,
        List.nil_append]
      exact ⟨hcrate, hpath, hdisplay, hsymbol, hunit, hlinkage, hvisibility, hshort⟩
    · simp [placement, protocol.Placement.spell, protocol.source]
  · rintro ⟨⟨⟨crate, path, display, symbol⟩, unit, linkage, visibility, copy, size, source⟩, hvalid,
      ⟨record, available, placements, hmeans, hsource, hadd, rfl⟩, rfl⟩
    simp only [placement, protocol.Placement.texts, InstanceKey.texts, List.cons_append, short_cons_iff,
      List.nil_append] at hvalid
    obtain ⟨hcrate, hpath, hdisplay, hsymbol, hunit, hlinkage, hvisibility, hshort⟩ := hvalid
    simp only [placement, protocol.Placement.spell, List.append_assoc]
    exact ⟨(_, record), _, ⟨_, _, ⟨hcrate, rfl⟩, _, _, ⟨hpath, rfl⟩, _, _, ⟨hdisplay, rfl⟩, _, _, ⟨hsymbol, rfl⟩, _, _,
      ⟨hunit, rfl⟩, _, _, ⟨hlinkage, rfl⟩, _, _, ⟨hvisibility, rfl⟩, _, _, rfl, _, _, rfl, _, _, ⟨hmeans, rfl⟩, rfl,
      rfl⟩, available, _, ⟨source, hshort, hsource, rfl⟩, placements, _, ⟨hadd, rfl⟩, rfl, rfl⟩

/-- What a source-file record does to the declarations. -/
def DeclaresSource (declared : Declarations) (artifact length : UInt64) (next : Declarations) : Prop :=
  (∀ id ∈ declared.artifact_ids, id ≠ ⟨artifact⟩) ∧
    { declared with
      artifacts := declared.artifacts ++ [⟨⟨artifact⟩, .Source, length⟩],
      artifact_ids := ⟨artifact⟩ :: declared.artifact_ids } = next

theorem run_read_source_file_iff {declared next : Declarations} :
    (self.read_source_file declared).run input = .ok (next, rest) ↔
      ∃ artifact length, DeclaresSource declared artifact length next ∧
        input = Format.u64.spell artifact ++ Format.u64.spell length ++ rest := by
  simp only [read_source_file, run_bind_iff, run_read_u64_iff, run_check_iff, run_pure_iff, DeclaresSource]
  constructor
  · rintro ⟨artifact, _, rfl, length, _, rfl, _, _, ⟨hfresh, rfl⟩, rfl, rfl⟩
    exact ⟨artifact, length, ⟨by simpa using hfresh, rfl⟩, (List.append_assoc _ _ _).symm⟩
  · rintro ⟨artifact, length, ⟨hfresh, rfl⟩, rfl⟩
    exact ⟨artifact, _, List.append_assoc _ _ _, length, _, rfl, (), _, ⟨by simpa using hfresh, rfl⟩, rfl, rfl⟩

theorem run_read_expected_module_iff {settings : Configuration} {declared next : Declarations} :
    (self.read_expected_module settings declared).run input = .ok (next, rest) ↔
      ∃ name path, Short [name, path] ∧ self.expect_module settings declared name ⟨path⟩ = .ok next ∧
        input = string.spell name ++ string.spell path ++ rest := by
  simp only [read_expected_module, run_bind_iff, run_read_string_iff, run_lift_iff]
  constructor
  · rintro ⟨name, _, ⟨hname, rfl⟩, path, _, ⟨hpath, rfl⟩, hmodule, rfl⟩
    exact ⟨name, path, short_cons_iff.mpr ⟨hname, short_cons_iff.mpr ⟨hpath, short_nil⟩⟩, hmodule,
      (List.append_assoc _ _ _).symm⟩
  · rintro ⟨name, path, hshort, hmodule, rfl⟩
    obtain ⟨hname, hpath⟩ := short_cons_iff.mp hshort
    exact ⟨name, _, ⟨hname, List.append_assoc _ _ _⟩, path, _, ⟨(short_cons_iff.mp hpath).1, rfl⟩, hmodule, rfl⟩

/-- What a record does to the declarations. -/
def Declares (self : ManifestDecoder) (settings : Configuration) (declared : Declarations) :
    Record → Declarations → Prop
  | .Placement placement, next => self.Places declared placement next
  | .SourceFile artifact length, next => DeclaresSource declared artifact length next
  | .Module name path, next => self.expect_module settings declared name ⟨path⟩ = .ok next

theorem read_record_reads (settings : Configuration) (declared : Declarations) :
    Reads (self.read_record settings declared) protocol.record (Turn (self.Declares settings) declared) := by
  intro input rest result
  simp only [read_record, run_bind_iff, run_read_u32_iff]
  constructor
  · rintro ⟨kind, mid, rfl, h⟩
    unfold read_fields at h
    split_ifs at h with hend hplace hfile hmodule
    · obtain ⟨rfl, rfl⟩ := run_pure_iff.mp h
      rw [hend]
      exact ⟨none, record_none_valid, trivial, rfl⟩
    · simp only [run_bind_iff, run_pure_iff, Reads.run_iff (read_instance_placement_reads declared)] at h
      obtain ⟨next, _, ⟨placement, hshort, hplaces, rfl⟩, rfl, rfl⟩ := h
      rw [hplace]
      exact ⟨some (.Placement placement), fun _ hself => by cases hself; exact hshort, hplaces,
        (List.append_assoc _ _ _).symm⟩
    · simp only [run_bind_iff, run_pure_iff, run_read_source_file_iff] at h
      obtain ⟨next, _, ⟨artifact, length, hdeclares, rfl⟩, rfl, rfl⟩ := h
      rw [hfile]
      exact ⟨some (.SourceFile artifact length), fun _ hself => by cases hself; exact short_nil, hdeclares,
        (List.append_assoc _ _ _).symm⟩
    · simp only [run_bind_iff, run_pure_iff, run_read_expected_module_iff] at h
      obtain ⟨next, _, ⟨name, path, hshort, hexpect, rfl⟩, rfl, rfl⟩ := h
      rw [hmodule]
      exact ⟨some (.Module name path), fun _ hself => by cases hself; exact hshort, hexpect,
        (List.append_assoc _ _ _).symm⟩
    · exact (run_fail_iff.mp h).elim
  · rintro ⟨item, hvalid, hturn, rfl⟩
    cases item with
    | none =>
      cases result with
      | some next => cases hturn
      | none => exact ⟨END_RECORD, _, rfl, run_pure_iff.mpr ⟨rfl, rfl⟩⟩
    | some item =>
      cases result with
      | none => cases hturn
      | some next =>
        have hshort := hvalid item rfl
        refine ⟨item.kind, item.fields ++ rest, List.append_assoc _ _ _, ?_⟩
        cases item with
        | Placement placement =>
          rw [Record.kind, read_fields, if_neg (by decide), if_pos rfl]
          simp only [run_bind_iff, run_pure_iff, Reads.run_iff (read_instance_placement_reads declared)]
          exact ⟨next, _, ⟨placement, hshort, hturn, rfl⟩, rfl, rfl⟩
        | SourceFile artifact length =>
          rw [Record.kind, read_fields, if_neg (by decide), if_neg (by decide), if_pos rfl]
          simp only [run_bind_iff, run_pure_iff, run_read_source_file_iff]
          exact ⟨next, _, ⟨artifact, length, hturn, rfl⟩, rfl, rfl⟩
        | Module name path =>
          rw [Record.kind, read_fields, if_neg (by decide), if_neg (by decide), if_neg (by decide), if_pos rfl]
          simp only [run_bind_iff, run_pure_iff, run_read_expected_module_iff]
          exact ⟨next, _, ⟨name, path, hshort, hturn, rfl⟩, rfl, rfl⟩

theorem read_records_reads (settings : Configuration) :
    Reads (self.read_records settings) protocol.record.many (Steps (self.Declares settings) .new) :=
  each_reads record_none_valid (read_record_reads settings) .new

theorem run_require_end_of_file_iff {u : Unit} :
    self.require_end_of_file.run input = .ok (u, rest) ↔ self.failure = none ∧ input = [] ∧ rest = [] :=
  run_finish_iff

/-- The decoder accepts the encodings of the streams whose records it can declare, and
whose placements it can assemble. -/
theorem read_eq_ok_iff {manifest : CompilerManifest} :
    self.read = .ok manifest ↔ ∃ settings records declared,
      (self.failure = none ∧ Spellable self.marker settings records ∧
        self.reader = encode self.marker settings records) ∧
      ConfigurationMeans settings manifest.configuration ∧
      Steps (self.Declares manifest.configuration) .new records declared ∧
      assemble_instances declared.placements = .ok manifest.instances ∧
      declared.artifacts = manifest.artifacts ∧ declared.modules = manifest.modules := by
  have hread : self.read = .ok manifest ↔ ∃ rest, self.read_stream.run self.reader = .ok (manifest, rest) := by
    rw [read]
    cases self.read_stream.run self.reader with
    | error error => simp [Except.map]
    | ok found => exact ⟨fun h => ⟨found.2, by cases h; rfl⟩, fun ⟨rest, h⟩ => by cases h; rfl⟩
  simp only [hread, read_stream, run_bind_iff, run_read_header_iff, Reads.run_iff read_configuration_reads,
    Reads.run_iff (read_records_reads _), run_require_end_of_file_iff, run_lift_iff, run_pure_iff]
  constructor
  · rintro ⟨_, _, _, ⟨hmarker, hinput⟩, configuration, _, ⟨settings, hsettings, hmeans, rfl⟩, declared, _,
      ⟨records, hrecords, hsteps, rfl⟩, _, _, ⟨hfailure, rfl, rfl⟩, instances, _, ⟨hinstances, rfl⟩, rfl, rfl⟩
    refine ⟨settings, records, declared, ⟨hfailure, ⟨hmarker, hsettings, record_many_valid_iff.mp hrecords⟩, ?_⟩,
      hmeans, hsteps, hinstances, rfl, rfl⟩
    rw [hinput, encode, List.append_nil, List.append_assoc]
  · rintro ⟨settings, records, declared, ⟨hfailure, hspellable, hreader⟩, hmeans, hsteps, hinstances, hartifacts,
      hmodules⟩
    refine ⟨[], (), _, ⟨hspellable.marker, ?_⟩, manifest.configuration, _, ⟨settings, hspellable.settings, hmeans, rfl⟩,
      declared, [], ⟨records, record_many_valid_iff.mpr hspellable.records, hsteps, (List.append_nil _).symm⟩, (), [],
      ⟨hfailure, rfl, rfl⟩, manifest.instances, [], ⟨hinstances, rfl⟩, ?_, rfl⟩
    · rw [hreader, encode, List.append_assoc]
    · rw [hartifacts, hmodules]

end ManifestDecoder

end optic.compiler
