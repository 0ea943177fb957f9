import Optic.Compiler.Delivery

open rust optic.records wire wire.Decoder streams optic.compiler.protocol

namespace optic.compiler

/-- The bytes of a stream up to its end record, whose records the decoder declares. -/
def Complete (path : PathBuf) (marker : String) (bytes : List UInt8) : Prop :=
  ∃ settings records, Spellable marker settings records ∧ (∃ support, settings.unsupported = support_code support) ∧
    RecordRules path (settings.unsupported = LLVM_SUPPORTED) records ∧ bytes = encode marker settings records

/-- A reader interrupts the call directly behind a complete stream. -/
def InterruptedAtEnd (path : PathBuf) (marker : String) (events : List Event) : Prop :=
  ∃ n source rest, n ≤ (delivered events).length ∧ Complete path marker ((delivered events).take n) ∧
    after n events = .error source :: rest ∧ is_interrupted source = true

/-- Reading does not depend on how the bytes are delivered: a reader that only cuts and interrupts
deliveries leads to what all bytes at once lead to, and one that fails leads to a failure of the
filesystem or to the error of its bytes. -/
def Independent (path : PathBuf) (marker : String) (events : List Event) : Prop :=
  (fault events = none → ManifestDecoder.read_from path marker { events } =
    ManifestDecoder.read_from path marker { events := at_once (delivered events) }) ∧
  ∀ source, fault events = some source →
    (∃ reported, ManifestDecoder.read_from path marker { events } =
      .error (.Filesystem "read compiler manifest" path reported)) ∨
    ∃ error, ManifestDecoder.read_from path marker { events } = .error error ∧
      ManifestDecoder.read_from path marker { events := at_once (delivered events) } = .error error

namespace ManifestDecoder

variable {path : PathBuf} {marker : String} {reader : List UInt8} {input rest : List UInt8}

/-- A front is read exactly when the input starts with a complete stream. -/
theorem exists_run_read_front_iff :
    (∃ found, (ManifestDecoder.mk path reader none marker).read_front.run input = .ok (found, rest)) ↔
      ∃ front, Complete path marker front ∧ input = front ++ rest := by
  simp only [read_front, run_bind_iff, run_read_header_iff, Reads.run_iff read_configuration_reads,
    Reads.run_iff (read_records_reads _), run_pure_iff]
  constructor
  · rintro ⟨_, _, _, ⟨hmarker, hinput⟩, configuration, _, ⟨settings, hsettings, hmeans, rfl⟩, declared, _,
      ⟨records, hrecords, hsteps, rfl⟩, -, rfl⟩
    obtain ⟨hrules, -⟩ := steps_reflect records hsteps
    rw [supported_iff hmeans] at hrules
    obtain ⟨-, -, -, -, -, -, -, hsupport⟩ := id hmeans
    refine ⟨encode marker settings records, ⟨settings, records, ⟨hmarker, hsettings, record_many_valid_iff.mp hrecords⟩,
      ⟨_, hsupport.symm⟩, hrules, rfl⟩, ?_⟩
    rw [hinput, encode, List.append_assoc, List.append_assoc]
  · rintro ⟨front, ⟨settings, records, hspellable, hsupport, hrules, rfl⟩, rfl⟩
    obtain ⟨configuration, hmeans⟩ := exists_configuration_means hsupport
    rw [← supported_iff hmeans] at hrules
    obtain ⟨declared, hsteps⟩ : ∃ declared, Steps ((ManifestDecoder.mk path reader none marker).Declares configuration)
        .new records declared := exists_steps records hrules
    refine ⟨(configuration, declared), (), _, ⟨hspellable.marker, ?_⟩, configuration, _,
      ⟨settings, hspellable.settings, hmeans, rfl⟩, declared, rest,
      ⟨records, record_many_valid_iff.mpr hspellable.records, hsteps, rfl⟩, rfl, rfl⟩
    rw [encode, List.append_assoc, List.append_assoc]

theorem assembled_ne_unreadable (self : ManifestDecoder) (found : Configuration × Declarations) (source : IoError) :
    assembled found ≠ .error (self.unreadable source) := by
  rw [assembled, assemble_instances]
  cases found.2.placements.toList.mapM assemble_instance with
  | ok instances => exact fun h => by cases h
  | error error => exact fun h => by cases h

variable {events : List Event}

/-- All bytes at once: the front is rejected. -/
theorem read_at_once_of_error {error : Error}
    (h : (ManifestDecoder.mk path input none marker).read_front.run input = .error error) :
    read_from path marker { events := at_once input } = .error error := by
  have hcases := read_from_cases path marker (at_once input)
  rw [delivered_at_once, fault_at_once] at hcases
  obtain ⟨other, hrun, hread⟩ | ⟨source, hfault, -⟩ | ⟨found, n, -, hrun, -⟩ := hcases
  · rw [h] at hrun
    cases hrun
    exact hread
  · cases hfault
  · rw [h] at hrun
    cases hrun

/-- All bytes at once: the end of the front is checked. -/
theorem read_at_once_of_ok {found : Configuration × Declarations}
    (h : (ManifestDecoder.mk path input none marker).read_front.run input = .ok (found, rest)) :
    read_from path marker { events := at_once input } =
      (ManifestDecoder.mk path input none marker).ended found (at_once rest) := by
  have hcases := read_from_cases path marker (at_once input)
  rw [delivered_at_once, fault_at_once] at hcases
  obtain ⟨other, hrun, -⟩ | ⟨source, hfault, -⟩ | ⟨other, n, -, hrun, hread⟩ := hcases
  · rw [h] at hrun
    cases hrun
  · cases hfault
  · rw [h] at hrun
    cases hrun
    rw [hread, after_at_once]

theorem ended_at_once_ne_unreadable (self : ManifestDecoder) (found : Configuration × Declarations) (bytes : List UInt8)
    (source : IoError) : self.ended found (at_once bytes) ≠ .error (self.unreadable source) := by
  cases bytes with
  | nil => exact self.assembled_ne_unreadable found source
  | cons byte bytes => exact fun h => by cases h

/-- The reader is interrupted at the end exactly when the call behind the front is. -/
theorem interrupted_at_end_iff {found : Configuration × Declarations} {n : Nat} (hn : n ≤ (delivered events).length)
    (h : (ManifestDecoder.mk path reader none marker).read_front.run (delivered events) =
      .ok (found, (delivered events).drop n)) :
    InterruptedAtEnd path marker events ↔
      ∃ source rest, after n events = .error source :: rest ∧ is_interrupted source = true := by
  constructor
  · rintro ⟨m, source, rest, hm, hcomplete, hafter, hsource⟩
    obtain ⟨other, hrun⟩ := exists_run_read_front_iff.mpr ⟨_, hcomplete, (List.take_append_drop m (delivered events)).symm⟩
    have hsame := hrun.symm.trans h
    rw [Except.ok.injEq, Prod.mk.injEq] at hsame
    have hlength := congrArg List.length hsame.2
    rw [List.length_drop, List.length_drop] at hlength
    obtain rfl : m = n := by omega
    exact ⟨source, rest, hafter, hsource⟩
  · rintro ⟨source, rest, hafter, hsource⟩
    obtain ⟨front, hcomplete, hfront⟩ := exists_run_read_front_iff.mp ⟨found, h⟩
    have htake : (delivered events).take n = front := by
      have hsplit := hfront.symm.trans (List.take_append_drop n (delivered events)).symm
      exact (List.append_cancel_right hsplit).symm
    exact ⟨n, source, rest, hn, htake ▸ hcomplete, hafter, hsource⟩

theorem not_interrupted_of_error {error : Error}
    (h : (ManifestDecoder.mk path reader none marker).read_front.run (delivered events) = .error error) :
    ¬ InterruptedAtEnd path marker events := by
  rintro ⟨m, source, rest, hm, hcomplete, -⟩
  obtain ⟨other, hrun⟩ := exists_run_read_front_iff.mpr ⟨_, hcomplete, (List.take_append_drop m (delivered events)).symm⟩
  rw [h] at hrun
  cases hrun

/-- The check for the end reports the interruption, which the bytes at once do not have. -/
theorem not_independent_of_interrupted (hfault : fault events = none) (hinterrupted : InterruptedAtEnd path marker events) :
    ¬ Independent path marker events := by
  rintro ⟨hindependent, -⟩
  obtain ⟨error, hrun, -⟩ | ⟨source, hsource, -⟩ | ⟨found, n, hn, hrun, hread⟩ := read_from_cases path marker events
  · exact not_interrupted_of_error hrun hinterrupted
  · cases hfault.symm.trans hsource
  · obtain ⟨source, rest, hafter, -⟩ := (interrupted_at_end_iff hn hrun).mp hinterrupted
    have hequal := (read_at_once_of_ok hrun).symm.trans ((hindependent hfault).symm.trans hread)
    rw [hafter] at hequal
    exact ended_at_once_ne_unreadable _ found _ source hequal

end ManifestDecoder

/-- Reading is independent of the delivery exactly when no call directly behind a complete stream is
interrupted, unless the reader fails later anyway. -/
theorem read_from_independent_iff (path : PathBuf) (marker : String) (events : List Event) :
    Independent path marker events ↔ (fault events = none → ¬ InterruptedAtEnd path marker events) := by
  constructor
  · intro hindependent hnone hinterrupted
    exact ManifestDecoder.not_independent_of_interrupted hnone hinterrupted hindependent
  intro hcalm
  obtain ⟨error, hrun, hread⟩ | ⟨source, hfault, hread⟩ | ⟨found, n, hn, hrun, hread⟩ :=
    ManifestDecoder.read_from_cases path marker events
  · have hsame := ManifestDecoder.read_at_once_of_error hrun
    exact ⟨fun _ => hread.trans hsame.symm, fun _ _ => .inr ⟨error, hread, hsame⟩⟩
  · constructor
    · intro hnone
      cases hfault.symm.trans hnone
    · exact fun _ _ => .inl ⟨source, hread⟩
  · have hsame := ManifestDecoder.read_at_once_of_ok hrun
    obtain ⟨hdelivered, hfault⟩ := after_delivered hn
    rw [← hdelivered] at hsame
    rcases hafter : after n events with _ | ⟨⟨value, ends⟩ | source, rest⟩
    · rw [hafter] at hread hsame hfault
      refine ⟨fun _ => hread.trans hsame.symm, fun source hsource => ?_⟩
      cases hfault.trans hsource
    · rw [hafter] at hread hsame
      exact ⟨fun _ => hread.trans hsame.symm, fun _ _ => .inr ⟨_, hread, hsame⟩⟩
    · rw [hafter] at hread hfault
      refine ⟨fun hnone => ?_, fun _ _ => .inl ⟨source, hread⟩⟩
      have hsource : is_interrupted source = true := by
        by_contra hsource
        rw [hnone, fault, if_neg hsource] at hfault
        cases hfault
      exact absurd ((ManifestDecoder.interrupted_at_end_iff hn hrun).mpr ⟨source, rest, hafter, hsource⟩) (hcalm hnone)

/-- A complete stream of one module, then one interruption. -/
theorem not_independent_interrupted_module :
    let settings : protocol.Configuration := ⟨"llvm", "x86_64-unknown-linux-gnu", "3", .Off, false, false, 16, LLVM_SUPPORTED⟩
    let records := [Record.Module "fixture.0" "/attempt/llvm/fixture.0.bc"]
    let events := at_once (encode "marker" settings records) ++ [.error ⟨.Interrupted, "Interrupted system call"⟩]
    fault events = none ∧ ¬ Independent ⟨"/attempt/manifest"⟩ "marker" events := by
  intro settings records events
  obtain ⟨hdelivered, hfault, hafter⟩ :=
    at_once_append (encode "marker" settings records) [.error ⟨.Interrupted, "Interrupted system call"⟩]
  rw [show delivered [.error ⟨.Interrupted, "Interrupted system call"⟩] = [] by decide, List.append_nil] at hdelivered
  have himmediate : Immediate ⟨"/attempt/manifest"⟩ ⟨"/attempt/llvm/fixture.0.bc"⟩ :=
    ⟨[.RootDir, .Normal (text "attempt")], by decide, by decide, by decide⟩
  have hrules : RecordRules ⟨"/attempt/manifest"⟩ (settings.unsupported = LLVM_SUPPORTED) records := {
    placements := ⟨nofun, nofun, nofun⟩
    ids_distinct := List.nodup_nil
    modules := ⟨fun _ => rfl, by decide, List.forall_mem_singleton.mpr himmediate, by decide, by decide⟩ }
  have hspellable : Spellable "marker" settings records := ⟨by decide, by decide, by decide⟩
  refine ⟨hfault, ManifestDecoder.not_independent_of_interrupted hfault ?_⟩
  refine ⟨(encode "marker" settings records).length, _, [], ?_, ?_, hafter, rfl⟩
  · exact hdelivered ▸ Nat.le_refl _
  · exact ⟨settings, records, hspellable, ⟨none, rfl⟩, hrules, by rw [hdelivered, List.take_length]⟩

end optic.compiler
