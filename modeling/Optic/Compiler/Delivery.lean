import Optic.Compiler.WireSpec
import Optic.Wire.Delivery

open rust optic.records wire wire.Decoder streams optic.compiler.protocol

namespace optic.compiler.ManifestDecoder

variable {self : ManifestDecoder}

/-- The failure of a reader, as the decoder reports it. -/
def unreadable (self : ManifestDecoder) : IoError → Error := .Filesystem "read compiler manifest" self.path

theorem check_agrees {ok : Bool} {error : Error} : Agrees self.unreadable (check ok error) := .lift

theorem record_agrees {α : Type} {result : Except records.Error α} :
    Agrees self.unreadable (record result) := .lift

section

variable (hfailure : self.failure = none)
include hfailure

theorem read_exact_agrees (length : Nat) (field : String) : Agrees self.unreadable (self.read_exact length field) := by
  rw [read_exact, hfailure]
  refine .take length fun source => ?_
  by_cases hkind : source.kind = .UnexpectedEof
  · exact .inl (by rw [if_pos hkind]; rfl)
  · exact .inr (if_neg hkind)

theorem read_u32_agrees (field : String) : Agrees self.unreadable (self.read_u32 field) :=
  .bind (read_exact_agrees hfailure 4 field) fun _ => .pure

theorem read_u64_agrees (field : String) : Agrees self.unreadable (self.read_u64 field) :=
  .bind (read_exact_agrees hfailure 8 field) fun _ => .pure

theorem read_bool_agrees (field : String) : Agrees self.unreadable (self.read_bool field) :=
  .bind (read_u32_agrees hfailure field) fun _ => .ite .pure (.ite .pure .fail)

theorem read_string_agrees (field : String) : Agrees self.unreadable (self.read_string field) :=
  .bind (read_u32_agrees hfailure field) fun length => .bind (read_exact_agrees hfailure length.toNat field) fun _ => .lift

theorem read_header_agrees : Agrees self.unreadable self.read_header := by
  apply Agrees.bind (read_exact_agrees hfailure _ _) fun _ => ?_
  apply Agrees.bind check_agrees fun _ => ?_
  apply Agrees.bind (read_u32_agrees hfailure _) fun _ => ?_
  apply Agrees.bind check_agrees fun _ => ?_
  exact .bind (read_string_agrees hfailure _) fun _ => check_agrees

theorem read_configuration_agrees : Agrees self.unreadable self.read_configuration := by
  apply Agrees.bind (read_u32_agrees hfailure _) fun _ => ?_
  apply Agrees.bind check_agrees fun _ => ?_
  apply Agrees.bind (read_string_agrees hfailure _) fun _ => ?_
  apply Agrees.bind (read_string_agrees hfailure _) fun _ => ?_
  apply Agrees.bind (read_string_agrees hfailure _) fun _ => ?_
  apply Agrees.bind (read_u32_agrees hfailure _) fun _ => ?_
  apply Agrees.bind .lift fun _ => ?_
  apply Agrees.bind (read_bool_agrees hfailure _) fun _ => ?_
  apply Agrees.bind (read_bool_agrees hfailure _) fun _ => ?_
  apply Agrees.bind (read_u32_agrees hfailure _) fun _ => ?_
  apply Agrees.bind (read_u32_agrees hfailure _) fun _ => ?_
  apply Agrees.bind check_agrees fun _ => ?_
  apply Agrees.bind (read_u32_agrees hfailure _) fun _ => ?_
  exact .bind .lift fun _ => .pure

theorem read_placement_agrees : Agrees self.unreadable self.read_placement := by
  apply Agrees.bind (read_string_agrees hfailure _) fun _ => ?_
  apply Agrees.bind (read_string_agrees hfailure _) fun _ => ?_
  apply Agrees.bind (read_string_agrees hfailure _) fun _ => ?_
  apply Agrees.bind (read_string_agrees hfailure _) fun _ => ?_
  apply Agrees.bind (read_string_agrees hfailure _) fun _ => ?_
  apply Agrees.bind (read_string_agrees hfailure _) fun _ => ?_
  apply Agrees.bind (read_string_agrees hfailure _) fun _ => ?_
  apply Agrees.bind (read_bool_agrees hfailure _) fun _ => ?_
  apply Agrees.bind (read_u64_agrees hfailure _) fun _ => ?_
  exact .bind record_agrees fun _ => .pure

theorem read_available_agrees : Agrees self.unreadable self.read_available := by
  apply Agrees.bind (read_u64_agrees hfailure _) fun _ => ?_
  apply Agrees.bind (read_u64_agrees hfailure _) fun _ => ?_
  apply Agrees.bind (read_u64_agrees hfailure _) fun _ => ?_
  apply Agrees.bind (read_string_agrees hfailure _) fun _ => ?_
  apply Agrees.bind (read_u64_agrees hfailure _) fun _ => ?_
  exact .bind record_agrees fun _ => record_agrees

theorem read_source_agrees : Agrees self.unreadable self.read_source := by
  apply Agrees.bind (read_u32_agrees hfailure _) fun _ => ?_
  exact .ite (.bind (read_available_agrees hfailure) fun _ => .pure) (.bind .lift fun _ => .pure)

theorem read_instance_placement_agrees (declared : Declarations) :
    Agrees self.unreadable (self.read_instance_placement declared) := by
  apply Agrees.bind (read_placement_agrees hfailure) fun found => ?_
  exact .bind (read_source_agrees hfailure) fun _ => .bind .lift fun _ => .pure

theorem read_source_file_agrees (declared : Declarations) : Agrees self.unreadable (self.read_source_file declared) := by
  apply Agrees.bind (read_u64_agrees hfailure _) fun _ => ?_
  apply Agrees.bind (read_u64_agrees hfailure _) fun _ => ?_
  exact .bind check_agrees fun _ => .pure

theorem read_expected_module_agrees (configuration : Configuration) (declared : Declarations) :
    Agrees self.unreadable (self.read_expected_module configuration declared) :=
  .bind (read_string_agrees hfailure _) fun _ => .bind (read_string_agrees hfailure _) fun _ => .lift

theorem read_record_agrees (configuration : Configuration) (declared : Declarations) :
    Agrees self.unreadable (self.read_record configuration declared) := by
  apply Agrees.bind (read_u32_agrees hfailure _) fun kind => ?_
  apply Agrees.ite .pure
  apply Agrees.ite (.bind (read_instance_placement_agrees hfailure declared) fun _ => .pure)
  apply Agrees.ite (.bind (read_source_file_agrees hfailure declared) fun _ => .pure)
  exact .ite (.bind (read_expected_module_agrees hfailure configuration declared) fun _ => .pure) .fail

theorem read_records_agrees (configuration : Configuration) : Agrees self.unreadable (self.read_records configuration) :=
  .each (read_record_agrees hfailure configuration) .new

end

/-- The part of a stream in front of the check for its end. -/
def read_front (self : ManifestDecoder) : Decoder Error (Configuration × Declarations) := do
  self.read_header
  let configuration ← self.read_configuration
  let declared ← self.read_records configuration
  return (configuration, declared)

/-- The manifest of a front. -/
def assembled (found : Configuration × Declarations) : Except Error CompilerManifest :=
  (assemble_instances found.2.placements).map fun instances =>
    { instances, artifacts := found.2.artifacts, configuration := found.1, modules := found.2.modules }

def trailing (self : ManifestDecoder) : Error :=
  self.invalid "manifest must not contain trailing bytes, got at least one trailing byte"

theorem read_stream_eq : self.read_stream =
    self.read_front >>= fun found => self.require_end_of_file >>= fun _ => .lift (assembled found) := by
  simp only [read_stream, read_front, Decoder.bind_assoc, Decoder.pure_bind, Decoder.lift_map, assembled]

theorem read_front_agrees (hfailure : self.failure = none) : Agrees self.unreadable self.read_front := by
  apply Agrees.bind (read_header_agrees hfailure) fun _ => ?_
  apply Agrees.bind (read_configuration_agrees hfailure) fun configuration => ?_
  exact .bind (read_records_agrees hfailure configuration) fun _ => .pure

/-- What the check for the end makes of what follows a front. -/
def ended (self : ManifestDecoder) (found : Configuration × Declarations) : List Event → Except Error CompilerManifest
  | [] => assembled found
  | .byte _ _ :: _ => .error self.trailing
  | .error source :: _ => .error (self.unreadable source)

theorem drive_end (found : Configuration × Declarations) (reader : Reader) :
    ((self.require_end_of_file >>= fun _ => Decoder.lift (assembled found)).drive reader).map Prod.fst =
      self.ended found reader.events := by
  rw [Decoder.drive_bind, require_end_of_file, Decoder.drive_finish]
  rcases hread : reader.read 1 with ⟨source | _ | ⟨byte, bytes⟩, next⟩
  · rw [(Reader.read_error hread).1]
    rfl
  · rw [(Reader.read_nil Nat.one_pos hread).1]
    simp only [ended]
    cases hassembled : assembled found <;> simp [Decoder.lift, Except.map]
  · obtain ⟨value, ends, events, hevents⟩ := Reader.events_of_read_bytes hread
    rw [hevents]
    rfl

/-- The ways that reading goes: the front is rejected, the reader fails in it, or its end is checked. -/
theorem read_from_cases (path : PathBuf) (marker : String) (events : List Event) :
    let self : ManifestDecoder := ⟨path, delivered events, none, marker⟩
    (∃ error, self.read_front.run (delivered events) = .error error ∧
      read_from path marker { events } = .error error) ∨
    (∃ source, fault events = some source ∧ read_from path marker { events } = .error (self.unreadable source)) ∨
    ∃ found n, n ≤ (delivered events).length ∧
      self.read_front.run (delivered events) = .ok (found, (delivered events).drop n) ∧
      read_from path marker { events } = self.ended found (after n events) := by
  intro self
  have hagrees : Agrees self.unreadable self.read_front := read_front_agrees rfl
  have hfront := hagrees { events }
  have hread : read_from path marker { events } = (self.read_stream.drive { events }).map Prod.fst := rfl
  rw [hread, read_stream_eq, Decoder.drive_bind]
  change Matches _ _ (self.read_front.run (delivered events)) _ at hfront
  generalize self.read_front.run (delivered events) = result at hfront
  generalize self.read_front.drive { events } = driven at hfront
  cases hfront with
  | error error => exact .inl ⟨error, rfl, rfl⟩
  | failed source failure => exact .inr (.inl ⟨source, failure, rfl⟩)
  | @ok found n next hevents hwithin =>
    refine .inr (.inr ⟨found, n, hwithin, rfl, ?_⟩)
    rw [← hevents]
    exact drive_end found next

end optic.compiler.ManifestDecoder
