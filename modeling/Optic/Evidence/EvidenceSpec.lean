import Optic.Records.Equality
import Optic.Evidence.Evidence
import Optic.Store.CopySpec
import Optic.Store.HistoryReads

open rust file_system optic.records optic.store

namespace optic.queries

/-- A body is a function of the module that its alias chain stays in. -/
structure LlvmBody.Of (body : LlvmBody) (module : LlvmModuleRecord) (reference : InstanceRef)
    (definition : LlvmDefinitionRecord) : Prop where
  defined : definition ∈ module.definitions
  function : definition.kind = .Function
  evidence : body.evidence = ⟨reference.capture_id, module.artifact, definition.range⟩
  compiler_module : body.compiler_module = module.compiler_module
  raw_symbol : body.raw_symbol = definition.raw_symbol

theorem resolve_from_body {module : LlvmModuleRecord} {reference : InstanceRef} {visited aliases : List String}
    {symbol : String} {body : LlvmBody} (h : resolve_from module reference visited aliases symbol = .ok (.Body body)) :
    ∃ definition, body.Of module reference definition := by
  fun_induction resolve_from module reference visited aliases symbol with
  | case1 visited aliases symbol hvisited => cases h
  | case2 visited aliases symbol hnew hnone => cases h
  | case3 visited aliases symbol hnew definition hfound hkind =>
    cases h
    exact ⟨definition, (definition_of_eq_some hfound).1, hkind, rfl, rfl, rfl⟩
  | case4 visited aliases symbol hnew definition hfound target hkind ih => exact ih h
  | case5 visited aliases symbol hnew definition hfound hkind => cases h
  | case6 visited aliases symbol hnew definition hfound hkind => cases h

/-- Each body comes from one module, and the bodies are in the order of their modules. -/
theorem resolve_modules_ok {raw_symbol : String} {reference : InstanceRef} {modules : List LlvmModuleRecord} :
    ∀ {bodies : List LlvmBody} {unsupported_alias : Bool},
      resolve_modules raw_symbol reference modules = .ok (bodies, unsupported_alias) →
        (∀ body ∈ bodies, ∃ module ∈ modules, ∃ definition, body.Of module reference definition) ∧
          (bodies.map LlvmBody.compiler_module).Sublist (modules.map LlvmModuleRecord.compiler_module) := by
  induction modules with
  | nil =>
    rintro _ _ ⟨⟩
    exact ⟨fun _ h => absurd h List.not_mem_nil, .slnil⟩
  | cons module modules ih =>
    intro bodies unsupported_alias h
    obtain ⟨resolved, hresolved, h⟩ := bind_eq_ok_iff.mp h
    obtain ⟨⟨rest, unsupported_rest⟩, hrest, h⟩ := bind_eq_ok_iff.mp h
    obtain ⟨hbodies, horder⟩ := ih hrest
    have hlater : ∀ body ∈ rest, ∃ other ∈ module :: modules, ∃ definition, body.Of other reference definition := by
      intro body hbody
      obtain ⟨other, hother, hdefinition⟩ := hbodies body hbody
      exact ⟨other, List.mem_cons_of_mem module hother, hdefinition⟩
    cases resolved with
    | Body body =>
      cases h
      obtain ⟨definition, hbody⟩ := resolve_from_body hresolved
      rw [List.map_cons, List.map_cons, hbody.compiler_module]
      refine ⟨List.forall_mem_cons.mpr ⟨⟨module, List.mem_cons_self, definition, hbody⟩, hlater⟩, horder.cons_cons _⟩
    | NoExactDefinition =>
      cases h
      exact ⟨hlater, horder.cons _⟩
    | UnsupportedAlias =>
      cases h
      exact ⟨hlater, horder.cons _⟩

/-- The order of bodies as a comparison. -/
def compare_bodies : LlvmBody → LlvmBody → Ordering :=
  compareLex (compareOn LlvmBody.compiler_module)
    (compareLex (compareOn fun body => body.evidence.range.start) (compareOn fun body => body.evidence.range.length))

/-- Sorted bodies of distinct modules are in strictly ascending order of their modules. -/
theorem bodies_ascending {selected : List LlvmBody} (h : (selected.map LlvmBody.compiler_module).Nodup) :
    (selected.mergeSort BodyOrder).Pairwise fun first second => first.compiler_module < second.compiler_module := by
  have htrans : Std.TransCmp compare_bodies := inferInstanceAs (Std.TransCmp (compareLex _ (compareLex _ _)))
  have hsorted : (selected.mergeSort BodyOrder).Pairwise fun first second => BodyOrder first second = true := by
    apply List.pairwise_mergeSort
    · intro a b c hab hbc
      exact htrans.isLE_trans (a := a) (b := b) (c := c) hab hbc
    · intro a b
      change (compare_bodies a b).isLE || (compare_bodies b a).isLE
      rw [htrans.eq_swap (a := b) (b := a)]
      cases compare_bodies a b <;> rfl
  have hdistinct := ((List.mergeSort_perm selected BodyOrder).map LlvmBody.compiler_module).nodup_iff.mpr h
  rw [List.Nodup, List.pairwise_map] at hdistinct
  refine (hsorted.and hdistinct).imp fun {first second} hboth => ?_
  obtain ⟨horder, hne⟩ := hboth
  rcases Ordering.isLE_then_iff_or.mp horder with hless | ⟨heq, -⟩
  · exact compareOfLessAndEq_eq_lt.mp hless
  · exact absurd (Std.LawfulEqCmp.eq_of_compare heq) hne

theorem referenced_instance_ok {manifest : InstanceManifest} {reference : InstanceRef} {instance_ : InstanceRecord}
    (h : referenced_instance manifest reference = .ok instance_) : instance_ ∈ manifest.instances :=
  List.mem_of_getElem? (ok_or_eq_ok_iff.mp h)

/-- Available source lies within a declared source artifact of the reference's capture. -/
theorem select_source_declared {manifest : InstanceManifest} {reference : InstanceRef} {evidence : EvidenceRange}
    {display_path : PathBuf} {starting_line : UInt64}
    (h : select_source manifest reference = .ok (.Available evidence display_path starting_line)) :
    evidence.capture_id = reference.capture_id ∧ Declared manifest.artifacts evidence.artifact .Source evidence.range := by
  obtain ⟨instance_, hinstance, h⟩ := bind_eq_ok_iff.mp h
  cases hsource : instance_.source with
  | Available source =>
    rw [hsource] at h
    cases h
    exact ⟨rfl, manifest.consistent.sources instance_ (referenced_instance_ok hinstance) source hsource⟩
  | Unavailable reason =>
    rw [hsource] at h
    cases h

/-- What a selection of bodies consists of. -/
theorem select_llvm_available {manifest : InstanceManifest} {reference : InstanceRef} {bodies : List LlvmBody}
    (h : select_llvm manifest reference = .ok (.Available bodies)) : ∃ instance_ modules selected unsupported_alias,
      referenced_instance manifest reference = .ok instance_ ∧ manifest.llvm = .Collected modules ∧
        resolve_modules instance_.raw_symbol reference modules = .ok (selected, unsupported_alias) ∧
        selected ≠ [] ∧ bodies = selected.mergeSort BodyOrder := by
  obtain ⟨instance_, hinstance, h⟩ := bind_eq_ok_iff.mp h
  cases hllvm : manifest.llvm with
  | Collected modules =>
    simp only [hllvm] at h
    obtain ⟨⟨selected, unsupported_alias⟩, hselected, h⟩ := bind_eq_ok_iff.mp h
    by_cases hempty : selected = []
    · cases unsupported_alias <;> simp [hempty] at h
    · simp only [hempty, if_false, pure_eq_ok] at h
      cases h
      exact ⟨instance_, modules, selected, unsupported_alias, hinstance, rfl, hselected, hempty, rfl⟩
  | NotCaptured reason =>
    simp only [hllvm, pure_eq_ok] at h
    cases h

/-- Available bodies lie within declared LLVM artifacts of the reference's capture. -/
theorem select_llvm_declared {manifest : InstanceManifest} {reference : InstanceRef} {bodies : List LlvmBody}
    (h : select_llvm manifest reference = .ok (.Available bodies)) : ∀ body ∈ bodies,
      body.evidence.capture_id = reference.capture_id ∧
        Declared manifest.artifacts body.evidence.artifact .Llvm body.evidence.range := by
  obtain ⟨instance_, modules, selected, unsupported_alias, -, hllvm, hselected, -, rfl⟩ := select_llvm_available h
  intro body hbody
  obtain ⟨module, hmodule, definition, hof⟩ := (resolve_modules_ok hselected).1 body (List.mem_mergeSort.mp hbody)
  have hmodule' : module ∈ manifest.llvm.modules := by rwa [hllvm]
  rw [hof.evidence]
  exact ⟨rfl, manifest.consistent.definitions module hmodule' definition hof.defined⟩

section

variable {Artifact : Type} [Serde (CaptureRecord Artifact)] [Serde InstanceManifest] {store : Store}
  {reference : InstanceRef} {w w' : World}

variable (Artifact) in
/-- Evidence that a query returns in a world. -/
inductive Selected (store : Store) (reference : InstanceRef) (w : World) : ArtifactKind → EvidenceRange → Prop
  | source {evidence : EvidenceRange} {display_path : PathBuf} {starting_line : UInt64} {w' : World}
      (h : source_evidence Artifact store reference w = (.ok (.Available evidence display_path starting_line), w')) :
      Selected store reference w .Source evidence
  | llvm {bodies : List LlvmBody} {body : LlvmBody} {w' : World}
      (h : llvm_evidence Artifact store reference w = (.ok (.Available bodies), w')) (hbody : body ∈ bodies) :
      Selected store reference w .Llvm body.evidence

/-- A query reads one manifest and selects from it. -/
theorem query_ok {α : Type} {select : InstanceManifest → Except Error α} {a : α}
    (h : ((store.read_instances Artifact reference.capture_id).map_err Error.Store >>= fun manifest =>
      Action.lift (select manifest)) w = (.ok a, w')) :
    ∃ manifest, store.read_instances Artifact reference.capture_id w = (.ok manifest, w') ∧ select manifest = .ok a := by
  obtain ⟨manifest, w1, hread, hselect⟩ := Action.bind_eq_ok_iff.mp h
  obtain ⟨hresult, rfl⟩ := Action.lift_eq_ok_iff.mp hselect
  exact ⟨manifest, Action.map_err_eq_ok_iff.mp hread, hresult⟩

/-- What a query selects is declared in the manifest that it read. -/
theorem Selected.declared {kind : ArtifactKind} {evidence : EvidenceRange}
    (h : Selected Artifact store reference w kind evidence) : ∃ manifest w',
      store.read_instances Artifact reference.capture_id w = (.ok manifest, w') ∧
        evidence.capture_id = reference.capture_id ∧ Declared manifest.artifacts evidence.artifact kind evidence.range := by
  cases h with
  | source hsource =>
    obtain ⟨manifest, hread, hselect⟩ := query_ok hsource
    exact ⟨manifest, _, hread, select_source_declared hselect⟩
  | llvm hllvm hbody =>
    obtain ⟨manifest, hread, hselect⟩ := query_ok hllvm
    exact ⟨manifest, _, hread, select_llvm_declared hselect _ hbody⟩

/-- Selected evidence is always copyable. -/
theorem evidence_copyable {kind : ArtifactKind} {evidence : EvidenceRange} (h : Selected Artifact store reference w kind evidence) :
    ∃ manifest w', store.read_instances Artifact reference.capture_id w = (.ok manifest, w') ∧
      evidence.capture_id = reference.capture_id ∧ Declared manifest.artifacts evidence.artifact kind evidence.range ∧
      ∀ w1 error w2, (∀ other w3, store.read_instances Artifact reference.capture_id w1 = (.ok other, w3) → other = manifest) →
        store.copy_evidence Artifact evidence.capture_id evidence.artifact evidence.range w1 = (.error error, w2) →
        (∀ capture artifact, error ≠ .UnknownArtifact capture artifact) ∧
          ∀ artifact start length byte_len, error ≠ .ArtifactRange artifact start length byte_len := by
  obtain ⟨manifest, w', hread, hcapture, hdeclared⟩ := h.declared
  refine ⟨manifest, w', hread, hcapture, hdeclared, fun w1 error w2 hsame hcopy => ?_⟩
  rw [hcapture] at hcopy
  have haccepted := Store.copy_evidence_accepted hdeclared hsame hcopy
  constructor
  · rintro capture artifact rfl
    cases haccepted
  · rintro artifact start length byte_len rfl
    cases haccepted

end

section

/-- The artifacts of a capture with one function, which is an alias in its second module. -/
def function_artifacts : List (ArtifactRecord × List UInt8) :=
  [(⟨⟨0⟩, .Source, 9⟩, text "fn f() \x7b\x7d"),
    (⟨⟨1⟩, .Llvm, 20⟩, text "define void @f() \x7b\x7d\n"),
    (⟨⟨2⟩, .Llvm, 47⟩, text "@f = alias void (), ptr @g\ndefine void @g() \x7b\x7d\n")]

def function_files (artifact : ArtifactRecord) : List UInt8 :=
  ((function_artifacts.find? fun entry => entry.1 = artifact).map Prod.snd).getD []

def function_instance : InstanceRecord where
  definition := ⟨"k", "f", by decide, by decide⟩
  display_name := "f"
  raw_symbol := "f"
  placements := [⟨"p.0", "external", "default", false, 0, by decide, by decide, by decide⟩,
    ⟨"p.1", "external", "default", true, 0, by decide, by decide, by decide⟩]
  source := .Available ⟨⟨0⟩, ⟨0, 9, by decide⟩, ⟨"src/lib.rs"⟩, 1, by decide, by decide⟩
  display_named := by decide
  symbol_named := by decide
  placed := by decide
  units_distinct := by decide

/-- The text of `f` in the artifact that defines it. -/
def function_range : ByteRange := ⟨0, 19, by decide⟩

/-- The text of `g` in the artifact whose alias leads to it. -/
def target_range : ByteRange := ⟨27, 19, by decide⟩

def function_modules : List LlvmModuleRecord :=
  [{ artifact := ⟨2⟩
     compiler_module := "p.1"
     stage := .NoLtoOptimized
     definitions := [⟨"f", ⟨0, 27, by decide⟩, .DirectAlias "g", by decide, by simp [LlvmDefinitionKind.Named]⟩,
       ⟨"g", target_range, .Function, by decide, trivial⟩]
     module_named := by decide
     symbols_distinct := by decide },
   { artifact := ⟨1⟩
     compiler_module := "p.0"
     stage := .NoLtoOptimized
     definitions := [⟨"f", function_range, .Function, by decide, trivial⟩]
     module_named := by decide
     symbols_distinct := by decide }]

def function_manifest : InstanceManifest where
  capture_id := library_capture.id
  instances := [function_instance]
  artifacts := function_artifacts.map Prod.fst
  llvm_provenance := { fat_provenance with
    llvm_version := some "21"
    lto := .Off
    version_named := by decide }
  llvm := .Collected function_modules
  consistent := validate_manifest_eq_ok_iff.mp rfl
  current := rfl

def function_tree : Tree := fun path =>
  let directory := Store.completed ⟨[]⟩ library_capture.id
  if path ∈ Store.directories ⟨[]⟩ ∨ path = directory then some .dir
  else if path = directory.join CAPTURE_FILE_NAME ∨ path = directory.join INSTANCES_FILE_NAME then some (.file (text "0\n"))
  else (function_artifacts.find? fun entry => path = directory.join entry.1.file_name).map fun entry => .file entry.2

local instance : Serde (CaptureRecord Unit) := .single library_capture "0"

local instance : Serde InstanceManifest := .single function_manifest "0"

theorem function_published :
    Published function_tree (Store.completed ⟨[]⟩ library_capture.id) library_capture function_manifest function_files where
  located := by decide
  scope := rfl
  header := ⟨[text "0"], if_pos rfl, by decide, by decide⟩
  manifest := ⟨[text "0"], if_pos rfl, by decide, by decide⟩
  artifacts := by decide

theorem function_ready : Store.Ready ⟨[]⟩ function_tree := by
  unfold Store.Ready
  decide

theorem function_read (w : World) (htree : w.tree = function_tree) (hschedule : w.schedule = []) :
    Store.read_instances Unit ⟨[]⟩ library_capture.id w = (.ok function_manifest, w) :=
  function_published.read_instances function_ready w htree hschedule

/-- The body of the module `p.0`, and the one that the alias of the module `p.1` leads to. -/
def function_bodies : List LlvmBody :=
  [⟨⟨library_capture.id, ⟨1⟩, function_range⟩, "p.0", .NoLtoOptimized, "f", []⟩,
    ⟨⟨library_capture.id, ⟨2⟩, target_range⟩, "p.1", .NoLtoOptimized, "g", ["f"]⟩]

theorem function_resolved : resolve_modules "f" ⟨library_capture.id, 0⟩ function_modules =
    .ok (function_bodies.reverse, false) := by
  have halias : resolve_module function_modules[0] "f" ⟨library_capture.id, 0⟩ = .ok (.Body function_bodies[1]) := by
    rw [resolve_module, resolve_from, dif_neg (by decide)]
    change resolve_from function_modules[0] _ ["f"] ["f"] "g" = _
    rw [resolve_from, dif_neg (by decide)]
    rfl
  have hfunction : resolve_module function_modules[1] "f" ⟨library_capture.id, 0⟩ = .ok (.Body function_bodies[0]) := by
    rw [resolve_module, resolve_from, dif_neg (by decide)]
    rfl
  change resolve_modules "f" _ [function_modules[0], function_modules[1]] = _
  rw [resolve_modules, halias, resolve_modules, hfunction]
  rfl

theorem function_selected : select_llvm function_manifest ⟨library_capture.id, 0⟩ = .ok (.Available function_bodies) := by
  have hsorted : function_bodies.reverse.mergeSort BodyOrder = function_bodies := by
    have horder : BodyOrder function_bodies[1] function_bodies[0] = false := by decide
    change [function_bodies[1], function_bodies[0]].mergeSort BodyOrder = _
    simp [List.mergeSort, List.MergeSort.Internal.splitInTwo, horder]
    rfl
  have hinstance : referenced_instance function_manifest ⟨library_capture.id, 0⟩ = .ok function_instance := rfl
  have hllvm : function_manifest.llvm = .Collected function_modules := rfl
  rw [select_llvm, hinstance, ok_bind, hllvm, ← hsorted]
  change (resolve_modules "f" _ _ >>= _) = _
  rw [function_resolved]
  rfl

/-- The source of the function is declared, and its two bodies are, also the one that its alias leads to. -/
theorem evidence_copyable_function :
    Store.read_instances Unit ⟨[]⟩ library_capture.id { tree := function_tree } =
        (.ok function_manifest, { tree := function_tree }) ∧
      Declared function_manifest.artifacts ⟨0⟩ .Source ⟨0, 9, by decide⟩ ∧
      ∀ body ∈ function_bodies, Declared function_manifest.artifacts body.evidence.artifact .Llvm body.evidence.range := by
  have hread := function_read { tree := function_tree } rfl rfl
  have hdeclared {kind : ArtifactKind} {evidence : EvidenceRange}
      (h : Selected Unit ⟨[]⟩ ⟨library_capture.id, 0⟩ { tree := function_tree } kind evidence) :
      Declared function_manifest.artifacts evidence.artifact kind evidence.range := by
    obtain ⟨manifest, w', hread', -, hdeclared, -⟩ := evidence_copyable h
    rw [hread] at hread'
    cases hread'
    exact hdeclared
  have hsource : source_evidence Unit ⟨[]⟩ ⟨library_capture.id, 0⟩ { tree := function_tree } =
      (.ok (.Available ⟨library_capture.id, ⟨0⟩, ⟨0, 9, by decide⟩⟩ ⟨"src/lib.rs"⟩ 1), { tree := function_tree }) := by
    rw [source_evidence, Action.bind_of_ok (Action.map_err_eq_ok_iff.mpr hread)]
    rfl
  have hllvm : llvm_evidence Unit ⟨[]⟩ ⟨library_capture.id, 0⟩ { tree := function_tree } =
      (.ok (.Available function_bodies), { tree := function_tree }) := by
    rw [llvm_evidence, Action.bind_of_ok (Action.map_err_eq_ok_iff.mpr hread), function_selected]
    rfl
  exact ⟨hread, hdeclared (.source hsource), fun body hbody => hdeclared (.llvm hllvm hbody)⟩

end

end optic.queries
