import Optic.Compiler.ProbeSpec
import Optic.Compiler.Wrapper

open rust optic.compiler.protocol

namespace optic.compiler.wrapper

/-- No argument carries the reserved prefix. -/
def Unmarked (arguments : List OsString) : Prop := ∀ argument ∈ arguments, is_analysis_marker argument = false

theorem unmarked_of_filter {arguments : List OsString} (h : arguments.filter is_analysis_marker = []) :
    Unmarked arguments := by
  intro argument hargument
  rw [← Bool.not_eq_true]
  exact List.filter_eq_nil_iff.mp h argument hargument

/-- The prepared target of an invocation: exactly one argument carries the prefix, which is the
marker, and the compiler, the first crate name and some non-option source are the prepared ones. -/
structure Verified (system : System) (marker : OsString) (arguments : List OsString) : Prop where
  only_marker : arguments.filter is_analysis_marker = [marker]
  prepared_compiler : ∃ compiler, system.var_os RUSTC_ENV = some compiler ∧ arguments.head? = some compiler
  prepared_name : ∃ crate_name before after, system.var_os CRATE_NAME_ENV = some crate_name ∧
    arguments = before ++ OsString.utf8 "--crate-name" :: crate_name :: after ∧ OsString.utf8 "--crate-name" ∉ before
  prepared_source : ∃ source argument path, system.var_os SOURCE_ENV = some source ∧ argument ∈ arguments.tail ∧
    ¬ text "-" <+: argument.as_encoded_bytes ∧ system.canonicalize argument = .ok path ∧
    PathBuf.components_of path = PathBuf.components_of source

/-- The ways that an invocation can go. -/
inductive Route where
  | Forwarded
  | Collected
  | Probed
  | Rejected
deriving DecidableEq

/-- The selected invocation with a mode. -/
structure Selected (system : System) (mode : String) (marker : OsString) (arguments : List OsString) : Prop where
  passed : arguments = system.args_os.drop 1
  set_marker : system.var_os SELECTED_TARGET_MARKER_ENV = some marker
  set_mode : system.var_os MODE_ENV = some (.utf8 mode)
  verified : Verified system marker arguments

/-- What each way does, and what it requires. -/
def Route.Taken (system : System) (outcome : Outcome) : Route → Prop
  | .Forwarded => ∃ program rest, system.args_os.drop 1 = program :: rest ∧ Unmarked (program :: rest) ∧
      outcome = .Replaced { program, args := rest }
  | .Collected => ∃ marker before after executable, Selected system "collect" marker (before ++ marker :: after) ∧
      system.current_exe = .ok executable ∧
      outcome = .Replaced { program := executable, args := before ++ after, env := [(DRIVER_INNER_ENV, "1")] }
  | .Probed => ∃ marker path, Selected system "probe" (.utf8 marker) (system.args_os.drop 1) ∧
      system.var_os STALE_RECEIPT_ENV = some path ∧ string.Valid marker ∧ outcome.started = none ∧
      outcome.written = some (path, header.spell marker)
  | .Rejected => ∃ code report written, outcome = .Exited code report written ∧ code ≠ SUCCESS ∧
      ∀ path bytes, written = some (path, bytes) → ∀ marker, bytes ≠ header.spell marker

variable {system : System} {outcome : Outcome}

theorem first_crate_name_eq_some_iff {arguments : List OsString} {crate_name : OsString} :
    first_crate_name arguments = some crate_name ↔
      ∃ before after, arguments = before ++ OsString.utf8 "--crate-name" :: crate_name :: after ∧
        OsString.utf8 "--crate-name" ∉ before := by
  induction arguments with
  | nil => simp [first_crate_name]
  | cons first rest ih =>
    cases rest with
    | nil =>
      simp only [first_crate_name, List.tail_cons, List.zip_nil_right, List.find?_nil, Option.map_none, reduceCtorEq,
        false_iff]
      rintro ⟨before, after, harguments, -⟩
      have hlength := congrArg List.length harguments
      simp at hlength
      omega
    | cons second rest =>
      simp only [first_crate_name, List.tail_cons, List.zip_cons_cons] at ih ⊢
      by_cases h : first = OsString.utf8 "--crate-name"
      · rw [List.find?_cons_of_pos (by simpa using h), Option.map_some, Option.some.injEq]
        constructor
        · rintro rfl
          exact ⟨[], rest, by rw [h, List.nil_append], List.not_mem_nil⟩
        · rintro ⟨before, after, harguments, hbefore⟩
          cases before with
          | nil =>
            simp only [List.nil_append, List.cons.injEq] at harguments
            exact harguments.2.1
          | cons other before =>
            simp only [List.cons_append, List.cons.injEq] at harguments
            exact absurd (List.mem_cons_self) (harguments.1 ▸ h ▸ hbefore)
      · rw [List.find?_cons_of_neg (by simpa using h), ih]
        constructor
        · rintro ⟨before, after, harguments, hbefore⟩
          refine ⟨first :: before, after, by rw [harguments, List.cons_append], ?_⟩
          rw [List.mem_cons, not_or]
          exact ⟨fun heq => h heq.symm, hbefore⟩
        · rintro ⟨before, after, harguments, hbefore⟩
          cases before with
          | nil =>
            simp only [List.nil_append, List.cons.injEq] at harguments
            exact absurd harguments.1 h
          | cons other before =>
            simp only [List.cons_append, List.cons.injEq] at harguments
            exact ⟨before, after, harguments.2, fun hmem => hbefore (List.mem_cons_of_mem other hmem)⟩

theorem names_source_iff {source argument : OsString} :
    names_source system source argument = true ↔
      ¬ text "-" <+: argument.as_encoded_bytes ∧ ∃ path, system.canonicalize argument = .ok path ∧
        PathBuf.components_of path = PathBuf.components_of source := by
  rw [names_source, Bool.and_eq_true, Bool.not_eq_true', ← Bool.not_eq_true, List.isPrefixOf_iff_prefix]
  cases system.canonicalize argument with
  | ok path => simp
  | error error => simp

/-- One marked argument that is the marker: counted, and found. -/
theorem filter_eq_singleton_iff {marker : OsString} {arguments : List OsString}
    (hmarker : is_analysis_marker marker = true) :
    arguments.filter is_analysis_marker = [marker] ↔
      (arguments.filter is_analysis_marker).length = 1 ∧ marker ∈ arguments := by
  have hmem : marker ∈ arguments.filter is_analysis_marker ↔ marker ∈ arguments := by
    rw [List.mem_filter, hmarker]
    exact and_iff_left rfl
  rw [← hmem]
  constructor
  · intro h
    rw [h]
    exact ⟨rfl, List.mem_singleton_self marker⟩
  · rintro ⟨hlength, hmem⟩
    obtain ⟨argument, hargument⟩ := List.length_eq_one_iff.mp hlength
    rw [hargument, List.mem_singleton] at hmem
    rw [hargument, hmem]

theorem verify_selected_eq_ok_iff {program marker : OsString} {rest : List OsString}
    (hmarker : is_analysis_marker marker = true) :
    verify_selected system program rest marker = .ok () ↔ Verified system marker (program :: rest) := by
  simp only [verify_selected, bind_eq_ok_iff, ok_or_eq_ok_iff, ensure_eq_ok_iff, decide_eq_true_eq, List.any_eq_true,
    names_source_iff, first_crate_name_eq_some_iff, Bool.not_or, Bool.and_eq_true, Bool.not_not,
    Bool.not_eq_true', decide_eq_false_iff_not, ne_eq, not_not, List.contains_iff_mem]
  rw [← filter_eq_singleton_iff hmarker]
  constructor
  · rintro ⟨compiler, hcompiler, source, hsource, crate_name, hname, _, hmarkers, _, hprogram, _,
      ⟨before, after, harguments, hbefore⟩, argument, hargument, hoption, path, hpath, hsame⟩
    exact ⟨hmarkers, ⟨compiler, hcompiler, by rw [hprogram]; rfl⟩,
      ⟨crate_name, before, after, hname, harguments, hbefore⟩,
      ⟨source, argument, path, hsource, hargument, hoption, hpath, hsame⟩⟩
  · rintro ⟨hmarkers, ⟨compiler, hcompiler, hprogram⟩, ⟨crate_name, before, after, hname, harguments, hbefore⟩,
      ⟨source, argument, path, hsource, hargument, hoption, hpath, hsame⟩⟩
    exact ⟨compiler, hcompiler, source, hsource, crate_name, hname, (), hmarkers, (), Option.some.inj hprogram, (),
      ⟨before, after, harguments, hbefore⟩, argument, hargument, hoption, path, hpath, hsame⟩

/-- A started program is an unmarked compiler, or the driver without the one marked argument. -/
theorem execute_taken (route : Route) {command : Command}
    (h : system.exec command = none → route.Taken system (.Replaced command)) :
    route.Taken system (execute system command) ∨ Route.Rejected.Taken system (execute system command) := by
  rw [execute]
  cases hexec : system.exec command with
  | none => exact .inl (h hexec)
  | some error => exact .inr ⟨_, _, _, rfl, by decide, fun _ _ hnone => by cases hnone⟩

/-- A failure that leaves no file is a rejection. -/
theorem failure_rejected (report : Report) : Route.Rejected.Taken system (failure report) :=
  ⟨FAILURE, report, none, rfl, by decide, fun _ _ hnone => by cases hnone⟩

/-- A header that a valid header begins with is that header. -/
theorem header_begins_with {marker other : String} (hmarker : string.Valid marker)
    (h : header.spell other <+: header.spell marker) : other = marker := by
  have hlength : ∀ value : String,
      (header.spell value).length = MANIFEST_MAGIC.length + 4 + (4 + (text value).length) := by
    intro value
    change (MANIFEST_MAGIC ++ wire.Format.u32.spell PROTOCOL_VERSION ++
      (wire.Format.u32.spell _ ++ text value)).length = _
    rw [List.length_append, List.length_append, List.length_append, wire.Format.length_spell_u32,
      wire.Format.length_spell_u32]
  have hvalid : string.Valid other := by
    have hle := h.length_le
    rw [hlength, hlength] at hle
    change (text marker).length < UInt32.size at hmarker
    change (text other).length < UInt32.size
    omega
  exact header.eq_of_prefix hvalid hmarker h

/-- A cut header is no header. -/
theorem cut_header_ne {marker : String} (hmarker : string.Valid marker) (written : Nat) (other : String) :
    (header.spell marker).dropLast.take written ≠ header.spell other := by
  intro h
  have hprefix : header.spell other <+: header.spell marker :=
    h ▸ (List.take_prefix written _).trans (List.dropLast_prefix _)
  rw [header_begins_with hmarker hprefix] at h
  have hlength := congrArg List.length h
  have hmagic : 0 < (header.spell marker).length := by
    change 0 < (MANIFEST_MAGIC ++ wire.Format.u32.spell PROTOCOL_VERSION ++ string.spell marker).length
    rw [List.length_append, List.length_append, wire.Format.length_spell_u32]
    omega
  rw [List.length_take, List.length_dropLast] at hlength
  omega

/-- A receipt is accepted for the marker that its header names, and for no other. -/
theorem bytes_of_verified_stale_receipt {path : PathBuf} {receipt : Receipt} {marker : String}
    (h : verified_stale_receipt path (.ok receipt) marker = .ok true) : receipt.bytes = .ok (header.spell marker) := by
  simp only [verified_stale_receipt, bind_eq_ok_iff, ensure_eq_ok_iff, mapError_eq_ok_iff, decide_eq_true_eq] at h
  obtain ⟨_, _, _, hbytes, _, rfl, _⟩ := h
  exact hbytes

/-- The first marker splits the arguments, and its removal keeps both sides. -/
theorem split_of_findIdx? {arguments : List OsString} {marker : OsString} {position : Nat}
    (h : arguments.findIdx? (· = marker) = some position) :
    ∃ before after, arguments = before ++ marker :: after ∧ arguments.eraseIdx position = before ++ after := by
  obtain ⟨hposition, hmarker, -⟩ := List.findIdx?_eq_some_iff_getElem.mp h
  refine ⟨arguments.take position, arguments.drop (position + 1), ?_, List.eraseIdx_eq_take_drop_succ arguments position⟩
  rw [decide_eq_true_eq] at hmarker
  rw [← hmarker, List.getElem_cons_drop, List.take_append_drop]

/-- A stopped probe writes the whole receipt, or none that is accepted. -/
theorem stop_probe_taken {marker : OsString} (h : Selected system "probe" marker (system.args_os.drop 1)) :
    Route.Probed.Taken system (stop_probe system marker) ∨ Route.Rejected.Taken system (stop_probe system marker) := by
  unfold stop_probe
  cases hpath : system.var_os STALE_RECEIPT_ENV with
  | none => exact .inr (failure_rejected _)
  | some path =>
    cases marker with
    | other bytes invalid => exact .inr (failure_rejected _)
    | utf8 marker =>
      simp only [OsString.into_string]
      by_cases hvalid : string.Valid marker
      · rw [if_pos hvalid]
        cases system.write path with
        | Completed => exact .inl ⟨marker, path, h, hpath, hvalid, rfl, rfl⟩
        | Unopened error => exact .inr (failure_rejected _)
        | Stopped error written =>
          refine .inr ⟨FAILURE, _, _, rfl, by decide, ?_⟩
          rintro _ _ ⟨rfl, rfl⟩
          exact cut_header_ne hvalid written
      · rw [if_neg hvalid]
        exact .inr ⟨PANIC, _, none, rfl, by decide, fun _ _ hnone => by cases hnone⟩

/-- Every invocation goes one of the four ways. -/
theorem run_taken
    (hmarker : ∀ marker, system.var_os SELECTED_TARGET_MARKER_ENV = some marker → is_analysis_marker marker = true) :
    ∃ route : Route, route.Taken system (run system) := by
  unfold run
  cases harguments : system.args_os.drop 1 with
  | nil => exact ⟨.Rejected, failure_rejected _⟩
  | cons program rest =>
    cases hset : system.var_os SELECTED_TARGET_MARKER_ENV with
    | none => exact ⟨.Rejected, failure_rejected _⟩
    | some marker =>
      simp only
      cases hposition : (program :: rest).findIdx? (· = marker) with
      | none =>
        cases hforeign : (program :: rest).any is_analysis_marker with
        | true => exact ⟨.Rejected, failure_rejected _⟩
        | false =>
          rw [List.any_eq_false] at hforeign
          have hunmarked : Unmarked (program :: rest) := fun argument hargument =>
            Bool.not_eq_true _ ▸ hforeign argument hargument
          have h := execute_taken .Forwarded fun _ => ⟨program, rest, harguments, hunmarked, rfl⟩
          exact h.elim (⟨_, ·⟩) (⟨_, ·⟩)
      | some selected_target =>
        cases hverified : verify_selected system program rest marker with
        | error report => exact ⟨.Rejected, failure_rejected _⟩
        | ok u =>
          have hselected : ∀ mode, system.var_os MODE_ENV = some (.utf8 mode) →
              Selected system mode marker (program :: rest) := fun mode hmode =>
            ⟨harguments.symm, hset, hmode, (verify_selected_eq_ok_iff (hmarker marker hset)).mp hverified⟩
          have hmode : ∀ mode, (system.var_os MODE_ENV).bind OsString.into_string = some mode →
              Selected system mode marker (program :: rest) := by
            intro mode hmode
            obtain ⟨value, hvalue, hutf8⟩ := Option.bind_eq_some_iff.mp hmode
            rw [OsString.into_string_eq_some] at hutf8
            exact hselected mode (hvalue.trans (congrArg some hutf8))
          simp only
          split
          · next hprobe =>
            have h := stop_probe_taken (harguments ▸ hmode "probe" hprobe)
            exact h.elim (⟨_, ·⟩) (⟨_, ·⟩)
          · next hcollect =>
            cases hexecutable : system.current_exe with
            | error error => exact ⟨.Rejected, failure_rejected _⟩
            | ok executable =>
              obtain ⟨before, after, hsplit, herased⟩ := split_of_findIdx? hposition
              have h := execute_taken .Collected fun _ =>
                ⟨marker, before, after, executable, hsplit ▸ hmode "collect" hcollect, hexecutable,
                  congrArg (fun args => Outcome.Replaced ⟨executable, args, [(DRIVER_INNER_ENV, "1")]⟩) herased⟩
              exact h.elim (⟨_, ·⟩) (⟨_, ·⟩)
          · exact ⟨.Rejected, failure_rejected _⟩

/-- Whether a way starts a program. -/
def Route.starts : Route → Bool
  | .Forwarded | .Collected => true
  | .Probed | .Rejected => false

theorem Route.Taken.started {route : Route} (h : route.Taken system outcome) :
    outcome.started.isSome = route.starts := by
  cases route with
  | Forwarded =>
    obtain ⟨_, _, _, _, rfl⟩ := h
    rfl
  | Collected =>
    obtain ⟨_, _, _, _, _, _, rfl⟩ := h
    rfl
  | Probed =>
    obtain ⟨_, _, _, _, _, hstarted, _⟩ := h
    rw [hstarted]
    rfl
  | Rejected =>
    obtain ⟨_, _, _, rfl, _⟩ := h
    rfl

/-- The marked argument of a selected invocation. -/
theorem Selected.marked {mode : String} {marker : OsString} {arguments : List OsString}
    (h : Selected system mode marker arguments) : marker ∈ arguments ∧ is_analysis_marker marker = true := by
  have hmem : marker ∈ arguments.filter is_analysis_marker := by
    rw [h.verified.only_marker]
    exact List.mem_singleton_self marker
  exact List.mem_filter.mp hmem

theorem Route.not_forwarded_of_collected (h : Route.Collected.Taken system outcome) :
    ¬ Route.Forwarded.Taken system outcome := by
  obtain ⟨marker, before, after, _, hselected, _⟩ := h
  rintro ⟨program, rest, harguments, hunmarked, _⟩
  rw [← harguments, ← hselected.passed] at hunmarked
  have hmarker := hunmarked marker hselected.marked.1
  rw [hselected.marked.2] at hmarker
  cases hmarker

theorem Route.not_rejected_of_probed (h : Route.Probed.Taken system outcome) :
    ¬ Route.Rejected.Taken system outcome := by
  obtain ⟨marker, path, _, _, _, _, hwritten⟩ := h
  rintro ⟨_, _, written, rfl, _, hcut⟩
  exact hcut path (header.spell marker) hwritten marker rfl

/-- An invocation goes at most one way. -/
theorem Route.Taken.unique {first second : Route} (h : first.Taken system outcome) (h' : second.Taken system outcome) :
    first = second := by
  have hstarts : first.starts = second.starts := h.started.symm.trans h'.started
  cases first with
  | Forwarded =>
    cases second with
    | Forwarded => rfl
    | Collected => exact absurd h (Route.not_forwarded_of_collected h')
    | Probed | Rejected => cases hstarts
  | Collected =>
    cases second with
    | Forwarded => exact absurd h' (Route.not_forwarded_of_collected h)
    | Collected => rfl
    | Probed | Rejected => cases hstarts
  | Probed =>
    cases second with
    | Probed => rfl
    | Rejected => exact absurd h' (Route.not_rejected_of_probed h)
    | Forwarded | Collected => cases hstarts
  | Rejected =>
    cases second with
    | Probed => exact absurd h (Route.not_rejected_of_probed h')
    | Rejected => rfl
    | Forwarded | Collected => cases hstarts

/-- No way hands a marked argument to the program that it starts. -/
theorem Route.Taken.unmarked {route : Route} {command : Command} (h : route.Taken system outcome)
    (hstarted : outcome.started = some command) : Unmarked command.args := by
  cases route with
  | Forwarded =>
    obtain ⟨program, rest, _, hunmarked, rfl⟩ := h
    cases hstarted
    exact fun argument hargument => hunmarked argument (List.mem_cons_of_mem program hargument)
  | Collected =>
    obtain ⟨marker, before, after, executable, hselected, _, rfl⟩ := h
    cases hstarted
    have honly := hselected.verified.only_marker
    rw [List.filter_append, List.filter_cons_of_pos hselected.marked.2] at honly
    have hlength := congrArg List.length honly
    rw [List.length_append, List.length_cons, List.length_singleton] at hlength
    apply unmarked_of_filter
    rw [List.filter_append, List.append_eq_nil_iff]
    exact ⟨List.length_eq_zero_iff.mp (by omega), List.length_eq_zero_iff.mp (by omega)⟩
  | Probed | Rejected =>
    have hnone := h.started
    rw [hstarted] at hnone
    cases hnone

/-- A receipt comes from a probe of the marker that its header names. -/
theorem Route.Taken.probed {route : Route} {path : OsString} {marker : String} (h : route.Taken system outcome)
    (hwritten : outcome.written = some (path, header.spell marker)) :
    Route.Probed.Taken system outcome ∧ system.var_os SELECTED_TARGET_MARKER_ENV = some (.utf8 marker) := by
  cases route with
  | Forwarded =>
    obtain ⟨_, _, _, _, rfl⟩ := h
    cases hwritten
  | Collected =>
    obtain ⟨_, _, _, _, _, _, rfl⟩ := h
    cases hwritten
  | Probed =>
    have hprobed := h
    obtain ⟨selected, _, hselected, _, hvalid, _, hheader⟩ := h
    rw [hheader, Option.some.injEq, Prod.mk.injEq] at hwritten
    have hprefix : header.spell marker <+: header.spell selected := hwritten.2 ▸ List.prefix_refl _
    have hsame := header_begins_with hvalid hprefix
    exact ⟨hprobed, hsame ▸ hselected.set_marker⟩
  | Rejected =>
    obtain ⟨_, _, _, rfl, _, hcut⟩ := h
    exact absurd rfl (hcut path _ hwritten marker)

theorem stop_probe_started (marker : OsString) : (stop_probe system marker).started = none := by
  unfold stop_probe
  cases system.var_os STALE_RECEIPT_ENV with
  | none => rfl
  | some path =>
    cases marker.into_string with
    | none => rfl
    | some marker =>
      dsimp only
      split
      · cases system.write path <;> rfl
      · rfl

/-- A probe starts no program for a selected invocation. -/
theorem run_probe_started {marker : OsString} (hmarked : marker ∈ system.args_os.drop 1)
    (hmarker : system.var_os SELECTED_TARGET_MARKER_ENV = some marker)
    (hmode : system.var_os MODE_ENV = some (.utf8 "probe")) : (run system).started = none := by
  unfold run
  cases harguments : system.args_os.drop 1 with
  | nil => rfl
  | cons program rest =>
    rw [harguments] at hmarked
    have hfound : ((program :: rest).findIdx? (· = marker)).isSome = true := by
      rw [List.findIdx?_isSome, List.any_eq_true]
      exact ⟨marker, hmarked, decide_eq_true rfl⟩
    obtain ⟨position, hposition⟩ := Option.isSome_iff_exists.mp hfound
    simp only [hmarker, hposition, hmode]
    cases verify_selected system program rest marker with
    | error report => rfl
    | ok _ => exact stop_probe_started marker

/-- Every invocation goes exactly one of the four ways, hands no marked argument on, and leaves a
receipt that is accepted only as a probe of that marker. -/
theorem run_routes (system : System)
    (hmarker : ∀ marker, system.var_os SELECTED_TARGET_MARKER_ENV = some marker → is_analysis_marker marker = true) :
    (∃! route : Route, route.Taken system (run system)) ∧
      (∀ command, (run system).started = some command → Unmarked command.args) ∧
      ∀ path bytes, (run system).written = some (path, bytes) →
        ∀ (stale : PathBuf) (receipt : Receipt) (marker : String), receipt.bytes = .ok bytes →
          verified_stale_receipt stale (.ok receipt) marker = .ok true →
          Route.Probed.Taken system (run system) ∧
            system.var_os SELECTED_TARGET_MARKER_ENV = some (.utf8 marker) := by
  obtain ⟨route, htaken⟩ := run_taken hmarker
  refine ⟨⟨route, htaken, fun other hother => hother.unique htaken⟩, fun command => htaken.unmarked, ?_⟩
  intro path bytes hwritten stale receipt marker hbytes haccepted
  have hheader := bytes_of_verified_stale_receipt haccepted
  rw [hbytes, Except.ok.injEq] at hheader
  exact htaken.probed (hheader ▸ hwritten)

/-- The probe of a target `app`, whose receipt can be written. -/
def probing : System where
  args_os := ["optic-rustc", "rustc", "--crate-name", "app", "main.rs", "--cfg=cargo_optic_selected_target=\"0\""]
  var_os name := List.lookup name
    [(SELECTED_TARGET_MARKER_ENV, "--cfg=cargo_optic_selected_target=\"0\""), (MODE_ENV, "probe"),
      (STALE_RECEIPT_ENV, "stale"), (RUSTC_ENV, "rustc"), (SOURCE_ENV, "/app/main.rs"), (CRATE_NAME_ENV, "app")]
  current_exe := .ok "optic-rustc"
  canonicalize argument := if argument = OsString.utf8 "main.rs" then .ok "/app/main.rs" else .error ⟨.NotFound, ""⟩
  write _ := .Completed
  exec _ := none

theorem run_routes_probing :
    (run probing).written = some (.utf8 "stale", header.spell "--cfg=cargo_optic_selected_target=\"0\"") ∧
      ∃! route : Route, route.Taken probing (run probing) := by
  refine ⟨by decide, (run_routes probing ?_).1⟩
  intro marker hmarker
  rw [← Option.some.inj hmarker]
  decide

end optic.compiler.wrapper
