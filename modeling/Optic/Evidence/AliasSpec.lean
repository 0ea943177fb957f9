import Mathlib.Data.List.Nodup
import Optic.Chain
import Optic.Evidence.EvidenceSpec
import Optic.Records.ManifestSpec

open rust file_system optic.records optic.store chain

namespace optic.queries

/-- The symbol that a direct alias of a module stands for. -/
def alias_of (module : LlvmModuleRecord) (symbol : String) : Option String :=
  match definition_of module symbol with
  | some { kind := .DirectAlias target, .. } => some target
  | _ => none

variable {module : LlvmModuleRecord} {reference : InstanceRef} {symbol : String}

/-- Symbols of a module are distinct, so each definition is found by its own. -/
theorem definition_of_eq_some_iff {definition : LlvmDefinitionRecord} :
    definition_of module symbol = some definition ↔ definition ∈ module.definitions ∧ definition.raw_symbol = symbol := by
  constructor
  · exact definition_of_eq_some
  · rintro ⟨hmem, rfl⟩
    cases hfound : definition_of module definition.raw_symbol with
    | none =>
      have hother := List.find?_eq_none.mp hfound definition hmem
      simp at hother
    | some other =>
      obtain ⟨hother, hsymbol⟩ := definition_of_eq_some hfound
      rw [List.inj_on_of_nodup_map module.symbols_distinct hother hmem hsymbol]

theorem alias_of_eq_some_iff {target : String} : alias_of module symbol = some target ↔
    ∃ definition, definition_of module symbol = some definition ∧ definition.kind = .DirectAlias target := by
  unfold alias_of
  cases definition_of module symbol with
  | none => simp
  | some definition => rcases definition with ⟨name, range, ⟨⟩, named, targeted⟩ <;> simp

theorem alias_of_eq_none {definition : LlvmDefinitionRecord} (hfound : definition_of module symbol = some definition)
    (hkind : ∀ target, definition.kind ≠ .DirectAlias target) : alias_of module symbol = none := by
  rw [Option.eq_none_iff_forall_ne_some]
  intro target halias
  obtain ⟨other, hother, hdirect⟩ := alias_of_eq_some_iff.mp halias
  rw [hfound] at hother
  obtain rfl := Option.some.inj hother
  exact hkind target hdirect

/-- The evidence of a symbol that is no direct alias, behind the aliases that lead to it. -/
def evidence_at (module : LlvmModuleRecord) (reference : InstanceRef) (aliases : List String) (symbol : String) :
    ModuleEvidence :=
  match definition_of module symbol with
  | none => .NoExactDefinition
  | some definition =>
    if definition.kind = .Function then
      .Body {
        evidence := ⟨reference.capture_id, module.artifact, definition.range⟩
        compiler_module := module.compiler_module
        stage := module.stage
        raw_symbol := definition.raw_symbol
        aliases }
    else .UnsupportedAlias

/-- What the chain of direct aliases from a symbol comes to. -/
inductive Outcome (module : LlvmModuleRecord) (reference : InstanceRef) (start : String) :
    Except Error ModuleEvidence → Prop
  | cycle {path : List String} {symbol : String} (hpath : Leads (alias_of module) start path symbol)
      (hdistinct : path.Nodup) (hreturn : symbol ∈ path) :
      Outcome module reference start (.error (.AliasCycle reference module.compiler_module symbol))
  | ends {path : List String} {symbol : String} (hpath : Leads (alias_of module) start path symbol)
      (hend : alias_of module symbol = none) :
      Outcome module reference start (.ok (evidence_at module reference path symbol))

/-- A walk that has come over distinct aliases so far ends with the outcome of its start. -/
theorem resolve_from_outcome {start : String} {visited aliases : List String}
    (hpath : Leads (alias_of module) start aliases symbol) (hdistinct : aliases.Nodup) (hvisited : visited = aliases.reverse) :
    Outcome module reference start (resolve_from module reference visited aliases symbol) := by
  fun_induction resolve_from module reference visited aliases symbol with
  | case1 visited aliases symbol hreturn =>
    rw [hvisited, List.mem_reverse] at hreturn
    exact .cycle hpath hdistinct hreturn
  | case2 visited aliases symbol hnew hmissing =>
    have hends : Outcome module reference start _ := .ends hpath (by rw [alias_of, hmissing])
    rwa [evidence_at, hmissing] at hends
  | case3 visited aliases symbol hnew definition hfound hfunction =>
    have hends : Outcome module reference start _ := .ends hpath (alias_of_eq_none hfound (by simp [hfunction]))
    simpa only [evidence_at, hfound, hfunction, if_true] using hends
  | case4 visited aliases symbol hnew definition hfound target hkind ih =>
    rw [hvisited, List.mem_reverse] at hnew
    apply ih (hpath.snoc (alias_of_eq_some_iff.mpr ⟨definition, hfound, hkind⟩))
    · rw [List.nodup_append_comm, List.singleton_append]
      exact List.nodup_cons.mpr ⟨hnew, hdistinct⟩
    · rw [hvisited, List.reverse_append]
      rfl
  | case5 visited aliases symbol hnew definition hfound hkind =>
    have hends : Outcome module reference start _ := .ends hpath (alias_of_eq_none hfound (by simp [hkind]))
    simpa [evidence_at, hfound, hkind] using hends
  | case6 visited aliases symbol hnew definition hfound hkind =>
    have hends : Outcome module reference start _ := .ends hpath (alias_of_eq_none hfound (by simp [hkind]))
    simpa [evidence_at, hfound, hkind] using hends

/-- A symbol has one outcome. -/
theorem Outcome.unique {start : String} {result result' : Except Error ModuleEvidence}
    (h : Outcome module reference start result) (h' : Outcome module reference start result') : result = result' := by
  cases h with
  | cycle hpath hdistinct hreturn =>
    cases h' with
    | cycle hpath' hdistinct' hreturn' =>
      obtain ⟨-, rfl⟩ := hpath.return_unique hdistinct hreturn hpath' hdistinct' hreturn'
      rfl
    | ends hpath' hend' => exact (hpath.no_end hreturn hpath' hend').elim
  | ends hpath hend =>
    cases h' with
    | cycle hpath' hdistinct' hreturn' => exact (hpath'.no_end hreturn' hpath hend).elim
    | ends hpath' hend' =>
      obtain ⟨rfl, rfl⟩ := hpath.end_unique hend hpath' hend'
      rfl

/-- Resolution of a symbol finds its outcome. -/
theorem resolve_module_eq_iff {start : String} {result : Except Error ModuleEvidence} :
    resolve_module module start reference = result ↔ Outcome module reference start result := by
  have houtcome : Outcome module reference start (resolve_module module start reference) :=
    resolve_from_outcome (.here start) List.nodup_nil rfl
  constructor
  · rintro rfl
    exact houtcome
  · exact fun h => houtcome.unique h

/-- Resolution fails where the aliases come back, and tells the module and the symbol. -/
theorem resolve_module_cycle_iff {start : String} {error : Error} : resolve_module module start reference = .error error ↔
    ∃ symbol, ReturnsAt (alias_of module) start symbol ∧ error = .AliasCycle reference module.compiler_module symbol := by
  rw [resolve_module_eq_iff]
  constructor
  · intro h
    cases h with
    | cycle hpath hdistinct hreturn => exact ⟨_, ⟨_, hpath, hdistinct, hreturn⟩, rfl⟩
  · rintro ⟨symbol, ⟨path, hpath, hdistinct, hreturn⟩, rfl⟩
    exact .cycle hpath hdistinct hreturn

theorem resolve_module_error_iff (reference : InstanceRef) {start : String} :
    (∃ error, resolve_module module start reference = .error error) ↔ Returns (alias_of module) start := by
  constructor
  · rintro ⟨error, herror⟩
    cases resolve_module_eq_iff.mp herror with
    | cycle hpath _ hreturn => exact ⟨_, _, hpath, hreturn⟩
  · rintro ⟨path, symbol, hpath, hreturn⟩
    cases hresult : resolve_module module start reference with
    | error error => exact ⟨error, rfl⟩
    | ok evidence =>
      cases resolve_module_eq_iff.mp hresult with
      | ends hpath' hend => exact (hpath.no_end hreturn hpath' hend).elim

theorem resolve_module_body_iff {start : String} {body : LlvmBody} :
    resolve_module module start reference = .ok (.Body body) ↔ ∃ path definition,
      Leads (alias_of module) start path definition.raw_symbol ∧ definition ∈ module.definitions ∧
        definition.kind = .Function ∧
        body = {
          evidence := ⟨reference.capture_id, module.artifact, definition.range⟩
          compiler_module := module.compiler_module
          stage := module.stage
          raw_symbol := definition.raw_symbol
          aliases := path } := by
  constructor
  · intro h
    generalize hresult : (Except.ok (.Body body) : Except Error ModuleEvidence) = result at h
    cases resolve_module_eq_iff.mp h with
    | cycle _ _ _ => cases hresult
    | ends hpath hend =>
      have hbody := Except.ok.inj hresult
      unfold evidence_at at hbody
      split at hbody
      · cases hbody
      · next definition hfound =>
        obtain ⟨hmem, rfl⟩ := definition_of_eq_some hfound
        split at hbody
        · next hfunction =>
          cases hbody
          exact ⟨_, definition, hpath, hmem, hfunction, rfl⟩
        · cases hbody
  · rintro ⟨path, definition, hpath, hmem, hfunction, rfl⟩
    have hfound := definition_of_eq_some_iff.mpr ⟨hmem, rfl⟩
    have hends : Outcome module reference start _ := .ends hpath (alias_of_eq_none hfound (by simp [hfunction]))
    rw [resolve_module_eq_iff]
    simpa only [evidence_at, hfound, hfunction, if_true] using hends

theorem resolve_module_unsupported_iff {start : String} :
    resolve_module module start reference = .ok .UnsupportedAlias ↔ ∃ path definition,
      Leads (alias_of module) start path definition.raw_symbol ∧ definition ∈ module.definitions ∧
        (definition.kind = .ExpressionAlias ∨ definition.kind = .Ifunc) := by
  constructor
  · intro h
    generalize hresult : (Except.ok .UnsupportedAlias : Except Error ModuleEvidence) = result at h
    cases resolve_module_eq_iff.mp h with
    | cycle _ _ _ => cases hresult
    | ends hpath hend =>
      have hevidence := Except.ok.inj hresult
      unfold evidence_at at hevidence
      split at hevidence
      · cases hevidence
      · next definition hfound =>
        obtain ⟨hmem, rfl⟩ := definition_of_eq_some hfound
        refine ⟨_, definition, hpath, hmem, ?_⟩
        cases hkind : definition.kind with
        | Function => simp [hkind] at hevidence
        | DirectAlias target =>
          rw [alias_of_eq_some_iff.mpr ⟨definition, hfound, hkind⟩] at hend
          cases hend
        | ExpressionAlias => exact .inl rfl
        | Ifunc => exact .inr rfl
  · rintro ⟨path, definition, hpath, hmem, hkind⟩
    have hfound := definition_of_eq_some_iff.mpr ⟨hmem, rfl⟩
    have hends : Outcome module reference start _ := .ends hpath
      (alias_of_eq_none hfound (by rcases hkind with hkind | hkind <;> simp [hkind]))
    rw [resolve_module_eq_iff]
    rcases hkind with hkind | hkind <;> simpa [evidence_at, hfound, hkind] using hends

theorem resolve_module_missing_iff {start : String} :
    resolve_module module start reference = .ok .NoExactDefinition ↔ ∃ path symbol,
      Leads (alias_of module) start path symbol ∧ ∀ definition ∈ module.definitions, definition.raw_symbol ≠ symbol := by
  have hnone {symbol : String} : definition_of module symbol = none ↔
      ∀ definition ∈ module.definitions, definition.raw_symbol ≠ symbol := by
    rw [definition_of, List.find?_eq_none]
    simp
  constructor
  · intro h
    generalize hresult : (Except.ok .NoExactDefinition : Except Error ModuleEvidence) = result at h
    cases resolve_module_eq_iff.mp h with
    | cycle _ _ _ => cases hresult
    | ends hpath hend =>
      have hevidence := Except.ok.inj hresult
      unfold evidence_at at hevidence
      split at hevidence
      · next hmissing => exact ⟨_, _, hpath, hnone.mp hmissing⟩
      · split at hevidence <;> cases hevidence
  · rintro ⟨path, symbol, hpath, hmissing⟩
    have hmissing := hnone.mpr hmissing
    have hends : Outcome module reference start _ := .ends hpath (by rw [alias_of, hmissing])
    rw [resolve_module_eq_iff]
    rwa [evidence_at, hmissing] at hends

theorem resolve_modules_cons_error_iff {start : String} {error : Error} {modules : List LlvmModuleRecord} :
    resolve_modules start reference (module :: modules) = .error error ↔ resolve_module module start reference = .error error ∨
      ¬ Returns (alias_of module) start ∧ resolve_modules start reference modules = .error error := by
  rw [resolve_modules, bind_eq_error_iff, ← resolve_module_error_iff reference]
  refine or_congr_right ?_
  cases resolve_module module start reference with
  | error found => simp
  | ok evidence => simp [bind_eq_error_iff]

theorem resolve_modules_error_iff (reference : InstanceRef) {start : String} {modules : List LlvmModuleRecord} :
    (∃ error, resolve_modules start reference modules = .error error) ↔
      ∃ module ∈ modules, Returns (alias_of module) start := by
  induction modules with
  | nil => simp [resolve_modules]
  | cons module modules ih =>
    simp only [resolve_modules_cons_error_iff, exists_or, exists_and_left, resolve_module_error_iff reference, ih,
      List.mem_cons, exists_eq_or_imp]
    tauto

/-- The first module whose aliases come back is the one that is told. -/
theorem resolve_modules_cycle_iff {start : String} {error : Error} {modules : List LlvmModuleRecord} :
    resolve_modules start reference modules = .error error ↔ ∃ before module after, modules = before ++ module :: after ∧
      (∀ earlier ∈ before, ¬ Returns (alias_of earlier) start) ∧ resolve_module module start reference = .error error := by
  induction modules with
  | nil => simp [resolve_modules]
  | cons module modules ih =>
    rw [resolve_modules_cons_error_iff, ih]
    constructor
    · rintro (hfirst | ⟨hacyclic, before, other, after, rfl, hbefore, hother⟩)
      · exact ⟨[], module, modules, rfl, List.forall_mem_nil _, hfirst⟩
      · exact ⟨module :: before, other, after, rfl, List.forall_mem_cons.mpr ⟨hacyclic, hbefore⟩, hother⟩
    · rintro ⟨before, other, after, hmodules, hbefore, hother⟩
      cases before with
      | nil =>
        cases hmodules
        exact .inl hother
      | cons earlier before =>
        cases hmodules
        obtain ⟨hacyclic, hbefore⟩ := List.forall_mem_cons.mp hbefore
        exact .inr ⟨hacyclic, before, other, after, rfl, hbefore, hother⟩

/-- What a resolution in every module collects. -/
theorem resolve_modules_collects {start : String} {modules : List LlvmModuleRecord} :
    ∀ {bodies : List LlvmBody} {unsupported_alias : Bool},
      resolve_modules start reference modules = .ok (bodies, unsupported_alias) →
        (∀ body, body ∈ bodies ↔ ∃ module ∈ modules, resolve_module module start reference = .ok (.Body body)) ∧
          (unsupported_alias = true ↔ ∃ module ∈ modules, resolve_module module start reference = .ok .UnsupportedAlias) := by
  induction modules with
  | nil =>
    rintro _ _ ⟨⟩
    simp
  | cons module modules ih =>
    intro bodies unsupported_alias h
    obtain ⟨resolved, hresolved, hrun⟩ := bind_eq_ok_iff.mp h
    obtain ⟨⟨rest, unsupported_rest⟩, hrest, hresult⟩ := bind_eq_ok_iff.mp hrun
    obtain ⟨hbodies, hunsupported⟩ := ih hrest
    cases resolved with
    | Body body =>
      cases hresult
      simp [hresolved, hbodies, hunsupported, eq_comm]
    | NoExactDefinition =>
      cases hresult
      simp [hresolved, hbodies, hunsupported]
    | UnsupportedAlias =>
      cases hresult
      simp [hresolved, hbodies]

variable {manifest : InstanceManifest} {instance_ : InstanceRecord} {modules : List LlvmModuleRecord}

/-- How the outcomes of all modules make up a verdict. -/
structure Verdict (modules : List LlvmModuleRecord) (start : String) (reference : InstanceRef)
    (result : Except Error LlvmEvidence) : Prop where
  error : (∃ error, result = .error error) ↔ ∃ module ∈ modules, Returns (alias_of module) start
  /-- The cycle of the first module that has one is reported. -/
  cycle : ∀ error, result = .error error ↔ ∃ before module after symbol, modules = before ++ module :: after ∧
    (∀ earlier ∈ before, ¬ Returns (alias_of earlier) start) ∧ ReturnsAt (alias_of module) start symbol ∧
      error = .AliasCycle reference module.compiler_module symbol
  available : ∀ bodies, result = .ok (.Available bodies) ↔
    (∀ module ∈ modules, ¬ Returns (alias_of module) start) ∧ bodies ≠ [] ∧
      (bodies.Pairwise fun first second => first.compiler_module < second.compiler_module) ∧
      ∀ body, body ∈ bodies ↔ ∃ module ∈ modules, resolve_module module start reference = .ok (.Body body)
  unsupported : result = .ok .UnsupportedAlias ↔
    (∀ module ∈ modules, ¬ Returns (alias_of module) start) ∧
      (∀ module ∈ modules, ∀ body, resolve_module module start reference ≠ .ok (.Body body)) ∧
      ∃ module ∈ modules, resolve_module module start reference = .ok .UnsupportedAlias
  missing : result = .ok .NoExactDefinition ↔
    ∀ module ∈ modules, resolve_module module start reference = .ok .NoExactDefinition

/-- Bodies in strictly ascending order are determined by which bodies they are. -/
theorem ascending_unique {bodies bodies' : List LlvmBody}
    (h : bodies.Pairwise fun first second => first.compiler_module < second.compiler_module)
    (h' : bodies'.Pairwise fun first second => first.compiler_module < second.compiler_module)
    (hsame : ∀ body, body ∈ bodies ↔ body ∈ bodies') : bodies = bodies' := by
  have hdistinct {bodies : List LlvmBody}
      (h : bodies.Pairwise fun first second => first.compiler_module < second.compiler_module) : bodies.Nodup :=
    h.imp fun hless heq => absurd (heq ▸ hless) (String.lt_irrefl _)
  have hperm := (List.perm_ext_iff_of_nodup (hdistinct h) (hdistinct h')).mpr hsame
  apply hperm.eq_of_pairwise _ h h'
  exact fun first second _ _ hless hless' => absurd (String.lt_trans hless hless') (String.lt_irrefl _)

theorem select_llvm_eq (hinstance : referenced_instance manifest reference = .ok instance_)
    (hllvm : manifest.llvm = .Collected modules) : select_llvm manifest reference =
      (resolve_modules instance_.raw_symbol reference modules).map fun (bodies, unsupported_alias) =>
        if bodies = [] then if unsupported_alias then .UnsupportedAlias else .NoExactDefinition
        else .Available (bodies.mergeSort BodyOrder) := by
  rw [select_llvm, hinstance, ok_bind, hllvm]
  change (resolve_modules instance_.raw_symbol reference modules >>= _) = _
  cases resolve_modules instance_.raw_symbol reference modules <;> rfl

/-- A verdict on modules one of which has a cycle is an error. -/
theorem Verdict.of_cycle {start : String} {error : Error} (hrun : resolve_modules start reference modules = .error error) :
    Verdict modules start reference (.error error) := by
  have hcycle : ∃ module ∈ modules, Returns (alias_of module) start :=
    (resolve_modules_error_iff reference).mp ⟨error, hrun⟩
  obtain ⟨module, hmodule, hreturns⟩ := hcycle
  refine ⟨iff_of_true ⟨error, rfl⟩ ⟨module, hmodule, hreturns⟩, fun other => ?_,
    fun bodies => iff_of_false nofun fun hnone => hnone.1 module hmodule hreturns,
    iff_of_false nofun fun hnone => hnone.1 module hmodule hreturns, iff_of_false nofun fun hmissing => ?_⟩
  · rw [Except.error.injEq, ← Except.error.injEq, ← hrun, resolve_modules_cycle_iff]
    simp only [resolve_module_cycle_iff, exists_and_left]
  · obtain ⟨error, herror⟩ := (resolve_module_error_iff reference).mpr hreturns
    rw [hmissing module hmodule] at herror
    cases herror

theorem resolve_module_acyclic (reference : InstanceRef) {start : String} (h : ¬ Returns (alias_of module) start) :
    ∃ evidence, resolve_module module start reference = .ok evidence := by
  cases hresult : resolve_module module start reference with
  | ok evidence => exact ⟨evidence, rfl⟩
  | error error => exact absurd ((resolve_module_error_iff reference).mp ⟨error, hresult⟩) h

theorem select_llvm_verdict (hinstance : referenced_instance manifest reference = .ok instance_)
    (hllvm : manifest.llvm = .Collected modules) :
    Verdict modules instance_.raw_symbol reference (select_llvm manifest reference) := by
  rw [select_llvm_eq hinstance hllvm]
  cases hrun : resolve_modules instance_.raw_symbol reference modules with
  | error error => exact .of_cycle hrun
  | ok found =>
    obtain ⟨bodies, unsupported_alias⟩ := found
    obtain ⟨hbodies, hunsupported⟩ := resolve_modules_collects hrun
    have hacyclic : ∀ module ∈ modules, ¬ Returns (alias_of module) instance_.raw_symbol := by
      intro module hmodule hcycle
      obtain ⟨error, herror⟩ := (resolve_modules_error_iff reference).mpr ⟨module, hmodule, hcycle⟩
      rw [hrun] at herror
      cases herror
    have hdistinct := manifest.consistent.modules_distinct
    rw [hllvm] at hdistinct
    have hascending := bodies_ascending ((resolve_modules_ok hrun).2.nodup hdistinct)
    have hempty : bodies = [] ↔ ∀ module ∈ modules, ∀ body, resolve_module module instance_.raw_symbol reference ≠ .ok (.Body body) := by
      simp only [List.eq_nil_iff_forall_not_mem, hbodies, not_exists, not_and]
      exact ⟨fun h module hmodule body => h body module hmodule, fun h body module hmodule => h module hmodule body⟩
    refine ⟨iff_of_false nofun fun ⟨module, hmodule, hcycle⟩ => hacyclic module hmodule hcycle, fun error => ?_,
      fun selected => ?_, ?_, ?_⟩
    · refine iff_of_false nofun ?_
      rintro ⟨before, module, after, symbol, hmodules, -, hreturns, -⟩
      exact hacyclic module (by simp [hmodules]) hreturns.returns
    · by_cases hnone : bodies = []
      · refine iff_of_false (by cases unsupported_alias <;> simp [Except.map, hnone]) ?_
        rintro ⟨-, hselected, -, hmembers⟩
        obtain ⟨body, hbody⟩ := List.exists_mem_of_ne_nil selected hselected
        obtain ⟨module, hmodule, hbody⟩ := (hmembers body).mp hbody
        exact hempty.mp hnone module hmodule body hbody
      · simp only [Except.map, hnone, if_false, Except.ok.injEq, LlvmEvidence.Available.injEq]
        constructor
        · rintro rfl
          refine ⟨hacyclic, ?_, hascending, fun body => by rw [List.mem_mergeSort, hbodies]⟩
          rwa [ne_eq, List.eq_nil_iff_length_eq_zero, List.length_mergeSort, ← List.eq_nil_iff_length_eq_zero]
        · rintro ⟨-, -, hselected, hmembers⟩
          apply ascending_unique hascending hselected
          exact fun body => by rw [List.mem_mergeSort, hbodies, hmembers]
    · rw [← hunsupported, ← hempty]
      by_cases hnone : bodies = []
      · cases unsupported_alias with
        | true => simpa [Except.map, hnone] using hacyclic
        | false => simp [Except.map, hnone]
      · simp [Except.map, hnone]
    · have hresult : Except.map (ε := Error) (fun found : List LlvmBody × Bool =>
          if found.1 = [] then if found.2 then LlvmEvidence.UnsupportedAlias else .NoExactDefinition
          else .Available (found.1.mergeSort BodyOrder)) (.ok (bodies, unsupported_alias)) = .ok .NoExactDefinition ↔
            bodies = [] ∧ unsupported_alias = false := by
        by_cases hnone : bodies = [] <;> cases unsupported_alias <;> simp [Except.map, hnone]
      refine hresult.trans ⟨fun ⟨hnone, hsupported⟩ module hmodule => ?_, fun hmissing => ⟨hempty.mpr ?_, ?_⟩⟩
      · obtain ⟨evidence, hevidence⟩ := resolve_module_acyclic reference (hacyclic module hmodule)
        cases evidence with
        | NoExactDefinition => exact hevidence
        | Body body => exact absurd hevidence (hempty.mp hnone module hmodule body)
        | UnsupportedAlias =>
          rw [hunsupported.mpr ⟨module, hmodule, hevidence⟩] at hsupported
          cases hsupported
      · intro module hmodule body hbody
        rw [hmissing module hmodule] at hbody
        cases hbody
      · rw [Bool.eq_false_iff, ne_eq, hunsupported]
        rintro ⟨module, hmodule, halias⟩
        rw [hmissing module hmodule] at halias
        cases halias

/-- The order of definitions does not matter for resolution. -/
theorem reordered_resolves {module' : LlvmModuleRecord} (h : module.Reordered module') (start : String) :
    resolve_module module' start reference = resolve_module module start reference := by
  have hdefinition (symbol : String) : definition_of module' symbol = definition_of module symbol := by
    apply Option.ext
    intro definition
    rw [definition_of_eq_some_iff, definition_of_eq_some_iff, h.definitions.mem_iff]
  have halias : alias_of module' = alias_of module := by
    funext symbol
    rw [alias_of, alias_of, hdefinition]
  have hevidence (path : List String) (symbol : String) :
      evidence_at module' reference path symbol = evidence_at module reference path symbol := by
    rw [evidence_at, evidence_at, hdefinition, h.artifact, h.compiler_module, h.stage]
  generalize hresult : resolve_module module start reference = result
  rw [resolve_module_eq_iff]
  cases resolve_module_eq_iff.mp hresult with
  | cycle hpath hdistinct hreturn =>
    rw [← h.compiler_module]
    exact .cycle (by rwa [halias]) hdistinct hreturn
  | ends hpath hend =>
    rw [← hevidence]
    exact .ends (by rwa [halias]) (by rwa [halias])

theorem reordered_mem_resolves {modules' : List LlvmModuleRecord} (h : ReorderedAll LlvmModuleRecord.Reordered modules modules')
    {start : String} (result : Except Error ModuleEvidence) :
    (∃ module ∈ modules', resolve_module module start reference = result) ↔
      ∃ module ∈ modules, resolve_module module start reference = result :=
  h.exists_iff (fun _ _ => LlvmModuleRecord.Reordered.symm) fun _ _ hsame hresult =>
    (reordered_resolves hsame start).symm.trans hresult

theorem reordered_forall_resolves {modules' : List LlvmModuleRecord}
    (h : ReorderedAll LlvmModuleRecord.Reordered modules modules') {start : String}
    {P : Except Error ModuleEvidence → Prop} (hP : ∀ module ∈ modules, P (resolve_module module start reference)) :
    ∀ module ∈ modules', P (resolve_module module start reference) := by
  intro module hmodule
  obtain ⟨other, hother, hsame⟩ := (reordered_mem_resolves h _).mp ⟨module, hmodule, rfl⟩
  rw [← hsame]
  exact hP other hother

theorem reordered_acyclic (reference : InstanceRef) {modules' : List LlvmModuleRecord}
    (h : ReorderedAll LlvmModuleRecord.Reordered modules modules') {start : String}
    (hacyclic : ∀ module ∈ modules, ¬ Returns (alias_of module) start) :
    ∀ module ∈ modules', ¬ Returns (alias_of module) start := by
  simp only [← resolve_module_error_iff reference] at hacyclic ⊢
  exact reordered_forall_resolves h (P := fun result => ¬ ∃ error, result = .error error) hacyclic

/-- Apart from which cycle is reported, the order of modules and definitions does not matter. -/
theorem select_llvm_reordered {manifest' : InstanceManifest} {modules' : List LlvmModuleRecord}
    (hinstance : referenced_instance manifest reference = .ok instance_) (hllvm : manifest.llvm = .Collected modules)
    (hinstance' : referenced_instance manifest' reference = .ok instance_) (hllvm' : manifest'.llvm = .Collected modules')
    (h : ReorderedAll LlvmModuleRecord.Reordered modules modules') :
    select_llvm manifest' reference = select_llvm manifest reference ∨
      (∃ compiler_module symbol, select_llvm manifest reference = .error (.AliasCycle reference compiler_module symbol)) ∧
        ∃ compiler_module symbol, select_llvm manifest' reference = .error (.AliasCycle reference compiler_module symbol) := by
  have hverdict := select_llvm_verdict hinstance hllvm
  have hverdict' := select_llvm_verdict hinstance' hllvm'
  cases hresult : select_llvm manifest reference with
  | error error =>
    obtain ⟨module, hmodule, hcycle⟩ := hverdict.error.mp ⟨error, hresult⟩
    obtain ⟨found, hfound⟩ := (resolve_module_error_iff reference).mpr hcycle
    obtain ⟨module', hmodule', hsame⟩ := (reordered_mem_resolves h _).mpr ⟨module, hmodule, hfound⟩
    obtain ⟨error', herror'⟩ := hverdict'.error.mpr ⟨module', hmodule', (resolve_module_error_iff reference).mp ⟨found, hsame⟩⟩
    obtain ⟨-, first, -, symbol, -, -, -, rfl⟩ := (hverdict.cycle error).mp hresult
    obtain ⟨-, first', -, symbol', -, -, -, rfl⟩ := (hverdict'.cycle error').mp herror'
    exact .inr ⟨⟨_, _, rfl⟩, _, _, herror'⟩
  | ok evidence =>
    apply Or.inl
    cases evidence with
    | Available bodies =>
      obtain ⟨hacyclic, hsome, hascending, hmembers⟩ := (hverdict.available bodies).mp hresult
      exact (hverdict'.available bodies).mpr ⟨reordered_acyclic reference h hacyclic, hsome, hascending,
        fun body => by rw [hmembers, reordered_mem_resolves h]⟩
    | UnsupportedAlias =>
      obtain ⟨hacyclic, hnone, hunsupported⟩ := hverdict.unsupported.mp hresult
      exact hverdict'.unsupported.mpr ⟨reordered_acyclic reference h hacyclic,
        reordered_forall_resolves h (P := fun result => ∀ body, result ≠ .ok (.Body body)) hnone, (reordered_mem_resolves h _).mpr hunsupported⟩
    | NoExactDefinition =>
      exact hverdict'.missing.mpr (reordered_forall_resolves h (P := fun result => result = .ok .NoExactDefinition)
        (hverdict.missing.mp hresult))
    | NotCaptured reason =>
      rw [select_llvm_eq hinstance hllvm] at hresult
      cases hrun : resolve_modules instance_.raw_symbol reference modules with
      | error error =>
        rw [hrun] at hresult
        cases hresult
      | ok found =>
        rw [hrun] at hresult
        simp only [Except.map, Except.ok.injEq] at hresult
        split at hresult
        · split at hresult <;> cases hresult
        · cases hresult

section

variable {Artifact : Type} [Serde (CaptureRecord Artifact)] [Serde InstanceManifest] {store : Store} {w w' : World}

theorem llvm_evidence_eq (hread : store.read_instances Artifact reference.capture_id w = (.ok manifest, w')) :
    llvm_evidence Artifact store reference w = (select_llvm manifest reference, w') :=
  Action.bind_of_ok (Action.map_err_eq_ok_iff.mpr hread) _

/-- Alias resolution meets its specification: in each module it follows the direct aliases from
the symbol and tells what they come to, the verdict on all modules has cycles before bodies, bodies
before unsupported aliases and these before missing definitions, and apart from which cycle is
reported, no order of modules or definitions matters. -/
theorem llvm_evidence_resolves (hread : store.read_instances Artifact reference.capture_id w = (.ok manifest, w'))
    (hinstance : referenced_instance manifest reference = .ok instance_) (hllvm : manifest.llvm = .Collected modules) :
    (∀ module ∈ modules,
      ((∃ error, resolve_module module instance_.raw_symbol reference = .error error) ↔
        Returns (alias_of module) instance_.raw_symbol) ∧
      (∀ error, resolve_module module instance_.raw_symbol reference = .error error ↔ ∃ symbol,
        ReturnsAt (alias_of module) instance_.raw_symbol symbol ∧
          error = .AliasCycle reference module.compiler_module symbol) ∧
      (∀ body, resolve_module module instance_.raw_symbol reference = .ok (.Body body) ↔ ∃ path definition,
        Leads (alias_of module) instance_.raw_symbol path definition.raw_symbol ∧ definition ∈ module.definitions ∧
          definition.kind = .Function ∧
          body = {
            evidence := ⟨reference.capture_id, module.artifact, definition.range⟩
            compiler_module := module.compiler_module
            stage := module.stage
            raw_symbol := definition.raw_symbol
            aliases := path }) ∧
      (resolve_module module instance_.raw_symbol reference = .ok .UnsupportedAlias ↔ ∃ path definition,
        Leads (alias_of module) instance_.raw_symbol path definition.raw_symbol ∧ definition ∈ module.definitions ∧
          (definition.kind = .ExpressionAlias ∨ definition.kind = .Ifunc)) ∧
      (resolve_module module instance_.raw_symbol reference = .ok .NoExactDefinition ↔ ∃ path symbol,
        Leads (alias_of module) instance_.raw_symbol path symbol ∧
          ∀ definition ∈ module.definitions, definition.raw_symbol ≠ symbol)) ∧
    Verdict modules instance_.raw_symbol reference (llvm_evidence Artifact store reference w).1 ∧
    ∀ manifest' modules' v v', store.read_instances Artifact reference.capture_id v = (.ok manifest', v') →
      referenced_instance manifest' reference = .ok instance_ → manifest'.llvm = .Collected modules' →
      ReorderedAll LlvmModuleRecord.Reordered modules modules' →
      (llvm_evidence Artifact store reference v).1 = (llvm_evidence Artifact store reference w).1 ∨
        (∃ compiler_module symbol,
            (llvm_evidence Artifact store reference w).1 = .error (.AliasCycle reference compiler_module symbol)) ∧
          ∃ compiler_module symbol,
            (llvm_evidence Artifact store reference v).1 = .error (.AliasCycle reference compiler_module symbol) := by
  refine ⟨fun module _ => ⟨resolve_module_error_iff reference, fun error => resolve_module_cycle_iff, fun body => resolve_module_body_iff,
    resolve_module_unsupported_iff, resolve_module_missing_iff⟩, ?_, ?_⟩
  · rw [llvm_evidence_eq hread]
    exact select_llvm_verdict hinstance hllvm
  · intro manifest' modules' v v' hread' hinstance' hllvm' hreordered
    rw [llvm_evidence_eq hread, llvm_evidence_eq hread']
    exact select_llvm_reordered hinstance hllvm hinstance' hllvm' hreordered

end

section

local instance : Serde (CaptureRecord Unit) := .single library_capture "0"

local instance : Serde InstanceManifest := .single function_manifest "0"

theorem llvm_evidence_resolves_function : Verdict function_modules "f" ⟨library_capture.id, 0⟩
    (llvm_evidence Unit ⟨[]⟩ ⟨library_capture.id, 0⟩ { tree := function_tree }).1 := by
  have hinstance : referenced_instance function_manifest ⟨library_capture.id, 0⟩ = .ok function_instance := rfl
  have hllvm : function_manifest.llvm = .Collected function_modules := rfl
  exact (llvm_evidence_resolves (function_read { tree := function_tree } rfl rfl) hinstance hllvm).2.1

end

end optic.queries
