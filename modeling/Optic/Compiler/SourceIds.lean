import Optic.Compiler.WireSpec
import Optic.Wire.Raises

open rust optic.records wire wire.Decoder optic.compiler.protocol

namespace optic.compiler.ManifestDecoder

/-- What the decoder says about a repeated source ID. -/
def duplicate_text : String := "source artifact IDs must be unique, got a duplicate ID"

/-- The error for a repeated source ID. -/
def duplicate_source (self : ManifestDecoder) : Error := self.invalid duplicate_text

variable {self : ManifestDecoder}

/-- An error that reports something else. -/
def Unrelated (self : ManifestDecoder) (error : Error) : Prop := error ≠ self.duplicate_source

theorem unrelated_invalid {message : String} (h : message ≠ duplicate_text) : self.Unrelated (self.invalid message) := by
  intro heq
  injection heq with _ hmessage
  injection hmessage with htext
  exact h htext

/-- Messages that start differently are different. -/
theorem ne_of_front {front back : String} (h : ¬ front.toList <+: duplicate_text.toList) : front ++ back ≠ duplicate_text := by
  intro heq
  apply h
  rw [← heq, String.toList_append]
  exact List.prefix_append _ _

/-- Messages that end differently are different. -/
theorem ne_of_back {front back : String} (h : ¬ back.toList <:+ duplicate_text.toList) : front ++ back ≠ duplicate_text := by
  intro heq
  apply h
  rw [← heq, String.toList_append]
  exact List.suffix_append _ _

theorem check_raises {ok : Bool} {message : String} (h : message ≠ duplicate_text) :
    Raises self.Unrelated (check ok (self.invalid message)) := by
  refine .lift fun error heq => ?_
  cases ok with
  | true => cases heq
  | false =>
    cases heq
    exact unrelated_invalid h

theorem ok_or_raises {α : Type} {value : Option α} {error : Error} (h : self.Unrelated error) :
    Raises self.Unrelated (Decoder.lift (ok_or value error)) := by
  refine .lift fun other heq => ?_
  cases value with
  | some a => cases heq
  | none =>
    cases heq
    exact h

theorem record_raises {α : Type} {result : Except records.Error α} : Raises self.Unrelated (record result) := by
  refine .lift fun error heq => ?_
  cases result with
  | ok a => cases heq
  | error source =>
    cases heq
    exact fun h => by cases h

theorem read_exact_raises (length : Nat) (field : String) : Raises self.Unrelated (self.read_exact length field) := by
  refine .take fun source => ?_
  split
  · exact unrelated_invalid (ne_of_back (by decide))
  · exact fun h => by cases h

theorem read_u32_raises (field : String) : Raises self.Unrelated (self.read_u32 field) :=
  .bind (read_exact_raises 4 field) fun _ => .pure

theorem read_u64_raises (field : String) : Raises self.Unrelated (self.read_u64 field) :=
  .bind (read_exact_raises 8 field) fun _ => .pure

theorem read_bool_raises {field : String} (h : ¬ field.toList <+: duplicate_text.toList) :
    Raises self.Unrelated (self.read_bool field) := by
  refine .bind (read_u32_raises field) fun actual => .ite .pure (.ite .pure (.fail (unrelated_invalid ?_)))
  simp only [String.append_assoc]
  exact ne_of_front h

theorem read_string_raises (field : String) : Raises self.Unrelated (self.read_string field) := by
  apply Raises.bind (read_u32_raises field) fun _ => ?_
  exact .bind (read_exact_raises _ field) fun _ => ok_or_raises fun h => by cases h

theorem read_configuration_raises : Raises self.Unrelated self.read_configuration := by
  apply Raises.bind (read_u32_raises _) fun _ => ?_
  apply Raises.bind (check_raises (ne_of_front (by decide))) fun _ => ?_
  apply Raises.bind (read_string_raises _) fun _ => ?_
  apply Raises.bind (read_string_raises _) fun _ => ?_
  apply Raises.bind (read_string_raises _) fun _ => ?_
  apply Raises.bind (read_u32_raises _) fun _ => ?_
  apply Raises.bind (ok_or_raises (unrelated_invalid (ne_of_front (by decide)))) fun _ => ?_
  apply Raises.bind (read_bool_raises (by decide)) fun _ => ?_
  apply Raises.bind (read_bool_raises (by decide)) fun _ => ?_
  apply Raises.bind (read_u32_raises _) fun _ => ?_
  apply Raises.bind (read_u32_raises _) fun _ => ?_
  apply Raises.bind (check_raises (ne_of_front (by decide))) fun _ => ?_
  apply Raises.bind (read_u32_raises _) fun _ => ?_
  exact .bind (ok_or_raises (unrelated_invalid (ne_of_front (by decide)))) fun _ => .pure

theorem read_placement_raises : Raises self.Unrelated self.read_placement := by
  apply Raises.bind (read_string_raises _) fun _ => ?_
  apply Raises.bind (read_string_raises _) fun _ => ?_
  apply Raises.bind (read_string_raises _) fun _ => ?_
  apply Raises.bind (read_string_raises _) fun _ => ?_
  apply Raises.bind (read_string_raises _) fun _ => ?_
  apply Raises.bind (read_string_raises _) fun _ => ?_
  apply Raises.bind (read_string_raises _) fun _ => ?_
  apply Raises.bind (read_bool_raises (by decide)) fun _ => ?_
  apply Raises.bind (read_u64_raises _) fun _ => ?_
  exact .bind record_raises fun _ => .pure

theorem read_source_raises : Raises self.Unrelated self.read_source := by
  apply Raises.bind (read_u32_raises _) fun _ => ?_
  apply Raises.ite
  · refine .bind ?_ fun _ => .pure
    apply Raises.bind (read_u64_raises _) fun _ => ?_
    apply Raises.bind (read_u64_raises _) fun _ => ?_
    apply Raises.bind (read_u64_raises _) fun _ => ?_
    apply Raises.bind (read_string_raises _) fun _ => ?_
    apply Raises.bind (read_u64_raises _) fun _ => ?_
    exact .bind record_raises fun _ => record_raises
  · exact .bind (ok_or_raises (unrelated_invalid (ne_of_front (by decide)))) fun _ => .pure

theorem add_placement_raises {placements : PlacementsByInstance} {key : InstanceKey} {placement : PlacementRecord}
    {source : SourceAvailability} :
    Raises self.Unrelated (Decoder.lift (self.add_placement placements key placement source)) := by
  refine .lift fun error heq => ?_
  unfold add_placement at heq
  split at heq
  · split at heq
    · cases heq
      exact unrelated_invalid (by decide)
    · cases heq
  · cases heq

theorem read_instance_placement_raises (declared : Declarations) :
    Raises self.Unrelated (self.read_instance_placement declared) := by
  apply Raises.bind read_placement_raises fun found => ?_
  exact .bind read_source_raises fun _ => .bind add_placement_raises fun _ => .pure

theorem expect_module_unrelated {configuration : Configuration} {declared : Declarations} {name : String}
    {path : PathBuf} {error : Error} (h : self.expect_module configuration declared name path = .error error) :
    self.Unrelated error := by
  unfold expect_module ensure at h
  split at h
  · cases hparent : self.path.parent with
    | none =>
      rw [hparent] at h
      cases h
      exact fun heq => by cases heq
    | some attempt =>
      rw [hparent] at h
      simp only [ok_or, ok_bind] at h
      split at h
      · simp only [ok_bind] at h
        split at h
        · cases h
        · cases h
          exact unrelated_invalid (by decide)
      · cases h
        exact unrelated_invalid (ne_of_front (by decide))
  · cases h
    exact unrelated_invalid (by decide)

theorem read_expected_module_raises (configuration : Configuration) (declared : Declarations) :
    Raises self.Unrelated (self.read_expected_module configuration declared) := by
  apply Raises.bind (read_string_raises _) fun _ => ?_
  exact .bind (read_string_raises _) fun _ => .lift fun _ => expect_module_unrelated

/-- No source file of the records that are left is declared, nor is one twice. -/
def Undeclared (declared : Declarations) (records : List Record) : Prop :=
  ((source_files_of records).map Prod.fst).Nodup ∧
    ∀ artifact ∈ (source_files_of records).map Prod.fst, ∀ id ∈ declared.artifact_ids, id ≠ ⟨artifact⟩

theorem Undeclared.step {configuration : Configuration} {declared next : Declarations} {first : Record}
    {records : List Record} (h : Undeclared declared (first :: records))
    (hstep : self.Declares configuration declared first next) : Undeclared next records := by
  obtain ⟨hdistinct, hfresh⟩ := h
  cases first with
  | Placement placement =>
    obtain ⟨_, _, _, _, _, _, rfl⟩ := hstep
    exact ⟨hdistinct, hfresh⟩
  | SourceFile artifact length =>
    obtain ⟨-, rfl⟩ := hstep
    obtain ⟨hfirst, hdistinct⟩ := List.nodup_cons.mp hdistinct
    refine ⟨hdistinct, fun other hother id hid => ?_⟩
    obtain rfl | hid := List.mem_cons.mp hid
    · intro heq
      injection heq with hvalue
      exact hfirst (hvalue ▸ hother)
    · exact hfresh other (List.mem_cons_of_mem _ hother) id hid
  | Module name path =>
    obtain ⟨-, rfl⟩ := expect_module_eq_ok_iff.mp hstep
    exact ⟨hdistinct, hfresh⟩

/-- A record whose ID is new leads to no error for a repeated one. -/
theorem read_record_unrelated {configuration : Configuration} {declared : Declarations} {first : Record}
    {records : List Record} {rest : List UInt8} {error : Error} (h : Undeclared declared (first :: records))
    (hrun : (self.read_record configuration declared).run (first.spell ++ rest) = .error error) : self.Unrelated error := by
  have hkind : (self.read_u32 "record kind").run (first.spell ++ rest) = .ok (first.kind, first.fields ++ rest) :=
    run_read_u32_iff.mpr (List.append_assoc _ _ _)
  rw [read_record, run_bind_of_ok hkind] at hrun
  cases first with
  | Placement placement =>
    simp only [Record.kind] at hrun
    rw [read_fields, if_neg (by decide), if_pos rfl] at hrun
    exact Raises.bind (read_instance_placement_raises declared) (fun _ => .pure) _ _ hrun
  | SourceFile artifact length =>
    simp only [Record.kind] at hrun
    rw [read_fields, if_neg (by decide), if_neg (by decide), if_pos rfl] at hrun
    have hread : (self.read_source_file declared).run ((Record.SourceFile artifact length).fields ++ rest) = .ok (_, rest) :=
      run_read_source_file_iff.mpr ⟨artifact, length, ⟨h.2 artifact List.mem_cons_self, rfl⟩, rfl⟩
    rw [run_bind_of_ok hread] at hrun
    cases hrun
  | Module name path =>
    simp only [Record.kind] at hrun
    rw [read_fields, if_neg (by decide), if_neg (by decide), if_neg (by decide), if_pos rfl] at hrun
    exact Raises.bind (read_expected_module_raises configuration declared) (fun _ => .pure) _ _ hrun

/-- Records with distinct source IDs lead to no error for a repeated one. -/
theorem read_records_unrelated {configuration : Configuration} {records : List Record} {rest : List UInt8} {error : Error}
    (hshort : ∀ record ∈ records, Short record.texts) (hdistinct : ((source_files_of records).map Prod.fst).Nodup)
    (hrun : (self.read_records configuration).run (protocol.record.many.spell records ++ rest) = .error error) :
    self.Unrelated error := by
  have hinvariant : Undeclared .new records := ⟨hdistinct, fun _ _ id hid => absurd hid List.not_mem_nil⟩
  exact each_raises (read_record_reads configuration) (fun _ _ _ _ => Undeclared.step)
    (fun _ _ _ _ _ _ => read_record_unrelated) record_none_valid (record_many_valid_iff.mpr hshort).2 hinvariant hrun

theorem require_end_of_file_raises : Raises self.Unrelated self.require_end_of_file :=
  .finish (unrelated_invalid (by decide)) fun _ heq => by cases heq

theorem assemble_raises (placements : PlacementsByInstance) :
    Raises self.Unrelated (Decoder.lift (assemble_instances placements)) := by
  refine .lift fun error heq => ?_
  rw [assemble_instances] at heq
  cases hassembled : placements.toList.mapM assemble_instance with
  | ok instances =>
    rw [hassembled] at heq
    cases heq
  | error source =>
    rw [hassembled] at heq
    cases heq
    exact fun h => by cases h

/-- A stream with distinct source IDs is never rejected for a repeated one. -/
theorem read_ne_duplicate {settings : protocol.Configuration} {records : List Record}
    (hreader : self.reader = encode self.marker settings records) (hspellable : Spellable self.marker settings records)
    (hdistinct : ((source_files_of records).map Prod.fst).Nodup) : self.read ≠ .error self.duplicate_source := by
  intro hread
  have hrun : self.read_stream.run self.reader = .error self.duplicate_source := by
    rw [read] at hread
    cases hstream : self.read_stream.run self.reader with
    | ok found =>
      rw [hstream] at hread
      cases hread
    | error error =>
      rw [hstream] at hread
      cases hread
      rfl
  rw [hreader, encode, List.append_assoc] at hrun
  have hheader : self.read_header.run (header.spell self.marker ++ (protocol.configuration.spell settings ++
      protocol.record.many.spell records)) = .ok ((), _) := run_read_header_iff.mpr ⟨hspellable.marker, rfl⟩
  rw [read_stream, run_bind_of_ok hheader] at hrun
  rcases hconfiguration : self.read_configuration.run (protocol.configuration.spell settings ++
      protocol.record.many.spell records) with error | ⟨configuration, rest⟩
  · rw [run_bind_of_error hconfiguration] at hrun
    cases hrun
    exact read_configuration_raises _ _ hconfiguration rfl
  · obtain ⟨other, hother, -, hinput⟩ := read_configuration_reads.run_iff.mp hconfiguration
    obtain ⟨-, rfl⟩ := protocol.configuration.delimited hspellable.settings hother hinput
    rw [run_bind_of_ok hconfiguration] at hrun
    rcases hrecords : (self.read_records configuration).run (protocol.record.many.spell records) with error | ⟨declared, rest⟩
    · rw [run_bind_of_error hrecords] at hrun
      cases hrun
      rw [← List.append_nil (protocol.record.many.spell records)] at hrecords
      exact read_records_unrelated hspellable.records hdistinct hrecords rfl
    · rw [run_bind_of_ok hrecords] at hrun
      refine Raises.bind require_end_of_file_raises (fun _ => ?_) _ _ hrun rfl
      exact .bind (assemble_raises _) fun _ => .pure

end optic.compiler.ManifestDecoder
