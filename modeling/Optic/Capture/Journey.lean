import Optic.Capture.SessionSpec

open rust file_system optic.records optic.relay

namespace optic.compiler

/-- A marker tells its token. -/
theorem selected_target_marker_injective {token other : AnalysisToken}
    (h : selected_target_marker token = selected_target_marker other) : token = other := by
  have hvalues := congrArg String.toList h
  simp only [selected_target_marker, String.toList_append, List.append_assoc, List.append_cancel_left_eq,
    List.append_cancel_right_eq, String.toList_inj] at hvalues
  cases token
  cases other
  simpa using hvalues

end optic.compiler

namespace optic.captures

open optic.store

/-- Where keys are distinct, one element has the key of a member. -/
theorem filter_key_eq {α κ : Type} [DecidableEq κ] {f : α → κ} {l : List α} (hdistinct : (l.map f).Nodup) {a : α} (h : a ∈ l) :
    l.filter (fun b => f b = f a) = [a] := by
  induction l with
  | nil => cases h
  | cons b l ih =>
    rw [List.map_cons, List.nodup_cons] at hdistinct
    rcases List.mem_cons.mp h with rfl | hrest
    · have hfirst : (decide (f a = f a)) = true := decide_eq_true rfl
      rw [List.filter_cons, if_pos hfirst, List.cons.injEq, List.filter_eq_nil_iff]
      refine ⟨rfl, fun c hc hkey => hdistinct.1 ?_⟩
      rw [← of_decide_eq_true hkey]
      exact List.mem_map_of_mem hc
    · rw [List.filter_cons_of_neg, ih hdistinct.2 hrest]
      intro hkey
      rw [of_decide_eq_true hkey] at hdistinct
      exact hdistinct.1 (List.mem_map_of_mem hrest)

variable {I : Type} {M : CargoSchema} [Serde (CaptureRecord (CargoArtifactRecord M))] [Serde InstanceManifest]
  [Serde CandidatePointer]

/-- A call, and the workspace that it starts from. -/
structure Turn (I : Type) (M : CargoSchema) where
  call : Call M
  before : Session I M

/-- What a call returns as newly captured. -/
def Turn.captured (store : Store) (self : Turn I M) : Option (CaptureRecord (CargoArtifactRecord M)) :=
  match (self.call.capture store self.before).1 with
  | .ok (.Captured record) => some record
  | _ => none

/-- The calls of a workspace so far, and what they lead to. Between them, the inputs and everything outside of the store
may change. No token is drawn twice. -/
inductive Journey (store : Store) : List (Turn I M) → Session I M → Prop
  | start {tree : Tree} (inputs : I) (h : store.Unopened tree) : Journey store [] { tree, inputs, compilations := [] }
  | edited {turns : List (Turn I M)} {session : Session I M} (before : Journey store turns session) (inputs : I) (files : Tree) :
      Journey store turns { session with tree := store.beside session.tree files, inputs }
  | called {turns : List (Turn I M)} {session : Session I M} (before : Journey store turns session) (call : Call M)
      (hcargo : call.Follows session) (hnew : ∀ turn ∈ turns, turn.call.token ≠ call.token) :
      Journey store (turns ++ [⟨call, session⟩]) (call.capture store session).2

variable {store : Store} {turns : List (Turn I M)} {session : Session I M}

/-- A call whose record and manifest an attempt published, with the artifacts that its collection left. -/
structure Publishes (store : Store) (turn : Turn I M) (attempt : Attempt (CargoArtifactRecord M)) : Prop where
  captured : turn.captured store = some attempt.capture
  produced : turn.call.Produces attempt.capture attempt.instances
  directory : attempt.artifact_directory = turn.call.artifact_directory
  files : ∀ path, ¬ store.optic_directory <+: path → attempt.start path = turn.call.files path

/-- What calls leave behind: one compilation for each token that Cargo has compiled, among them those of all captures, and
one publication for each capture. -/
structure Accounted (store : Store) (turns : List (Turn I M)) (session : Session I M) : Prop where
  compiled : ∀ compilation ∈ session.compilations, ∃ turn ∈ turns, compilation = turn.call.compilation turn.before.inputs
  distinct : (session.compilations.map Compilation.marker).Nodup
  recorded : ∀ turn ∈ turns, (turn.captured store).isSome = true →
    turn.call.compilation turn.before.inputs ∈ session.compilations
  published : ∃ attempts, History store attempts session.tree ∧
    List.Forall₂ (Publishes store) (turns.filter fun turn => (turn.captured store).isSome)
      (attempts.filter fun attempt => attempt.completed store)

namespace Accounted

/-- Another token adds another compilation. -/
theorem extended (h : Accounted store turns session) (call : Call M) (hnew : ∀ turn ∈ turns, turn.call.token ≠ call.token) :
    (∀ compilation ∈ session.compilations ++ [call.compilation session.inputs], ∃ turn ∈ turns ++ [⟨call, session⟩],
      compilation = turn.call.compilation turn.before.inputs) ∧
    ((session.compilations ++ [call.compilation session.inputs]).map Compilation.marker).Nodup := by
  constructor
  · intro compilation hcompilation
    rcases List.mem_append.mp hcompilation with hold | hlast
    · obtain ⟨turn, hturn, heq⟩ := h.compiled compilation hold
      exact ⟨turn, List.mem_append_left _ hturn, heq⟩
    · exact ⟨⟨call, session⟩, by simp, List.mem_singleton.mp hlast⟩
  · rw [List.map_append, List.map_singleton, ← List.concat_eq_append, List.nodup_concat]
    refine ⟨fun hmem => ?_, h.distinct⟩
    obtain ⟨compilation, hcompilation, hmarker⟩ := List.mem_map.mp hmem
    obtain ⟨turn, hturn, rfl⟩ := h.compiled compilation hcompilation
    exact hnew turn hturn (compiler.selected_target_marker_injective hmarker)

/-- Cargo's compilations after a call that may have added one. -/
theorem appended (h : Accounted store turns session) (call : Call M) (hnew : ∀ turn ∈ turns, turn.call.token ≠ call.token)
    {compilations : List (Compilation I M)} (hcompilations : compilations = session.compilations ∨
      compilations = session.compilations ++ [call.compilation session.inputs]) :
    (∀ compilation ∈ compilations, ∃ turn ∈ turns ++ [⟨call, session⟩],
      compilation = turn.call.compilation turn.before.inputs) ∧ (compilations.map Compilation.marker).Nodup := by
  rcases hcompilations with rfl | rfl
  · refine ⟨fun compilation hcompilation => ?_, h.distinct⟩
    obtain ⟨turn, hturn, heq⟩ := h.compiled compilation hcompilation
    exact ⟨turn, List.mem_append_left _ hturn, heq⟩
  · exact h.extended call hnew

/-- A call that captures nothing. -/
theorem uncaptured (h : Accounted store turns session) {call : Call M} (hnew : ∀ turn ∈ turns, turn.call.token ≠ call.token)
    (hcaptured : Turn.captured store ⟨call, session⟩ = none) {after : Session I M}
    (hcompilations : after.compilations = session.compilations ∨
      after.compilations = session.compilations ++ [call.compilation session.inputs])
    (hpublished : ∀ attempts, History store attempts session.tree → ∃ attempts', History store attempts' after.tree ∧
      attempts'.filter (fun attempt : Attempt (CargoArtifactRecord M) => attempt.completed store) =
        attempts.filter fun attempt => attempt.completed store) :
    Accounted store (turns ++ [⟨call, session⟩]) after := by
  obtain ⟨hcompiled, hdistinct⟩ := h.appended call hnew hcompilations
  refine ⟨hcompiled, hdistinct, fun turn hturn hsome => ?_, ?_⟩
  · rcases List.mem_append.mp hturn with hold | hlast
    · have hmem := h.recorded turn hold hsome
      rcases hcompilations with heq | heq
      · rwa [heq]
      · rw [heq]
        exact List.mem_append_left _ hmem
    · rw [List.mem_singleton.mp hlast, hcaptured] at hsome
      cases hsome
  · obtain ⟨attempts, hhistory, hpublishes⟩ := h.published
    obtain ⟨attempts', hhistory', hfilter⟩ := hpublished attempts hhistory
    refine ⟨attempts', hhistory', ?_⟩
    rw [hfilter, List.filter_append, List.filter_singleton, hcaptured]
    simpa using hpublishes

/-- A call keeps the accounts. -/
theorem called (h : Accounted store turns session) {call : Call M} (hcargo : call.Follows session)
    (hnew : ∀ turn ∈ turns, turn.call.token ≠ call.token) :
    Accounted store (turns ++ [⟨call, session⟩]) (call.capture store session).2 := by
  have heffect := call.capture_effect store hcargo
  have hcaptured : Turn.captured store ⟨call, session⟩ =
      match (call.capture store session).1 with
      | .ok (.Captured record) => some record
      | _ => none := rfl
  generalize (call.capture store session).1 = outcome at heffect hcaptured
  generalize (call.capture store session).2 = after at heffect
  cases heffect with
  | failed htree hcompilations =>
    exact h.uncaptured hnew hcaptured hcompilations fun attempts hattempts => ⟨attempts, htree attempts hattempts, rfl⟩
  | reused hprepared hbefore htree hcandidate hfresh =>
    exact h.uncaptured hnew hcaptured (.inl rfl) fun attempts hattempts => ⟨attempts, htree attempts hattempts, rfl⟩
  | published attempt htree hproduces hdirectory hfiles houtcome =>
    have hpublished (attempts : List (Attempt (CargoArtifactRecord M))) (hattempts : History store attempts session.tree) :=
      History.published attempt (htree attempts hattempts)
    rcases houtcome with ⟨hcompleted, rfl⟩ | ⟨hfailed, error, rfl⟩
    · obtain ⟨hcompiled, hdistinct⟩ := h.extended call hnew
      refine ⟨hcompiled, hdistinct, fun turn hturn hsome => ?_, ?_⟩
      · rcases List.mem_append.mp hturn with hold | hlast
        · exact List.mem_append_left _ (h.recorded turn hold hsome)
        · rw [List.mem_singleton.mp hlast]
          exact List.mem_append_right _ (List.mem_singleton_self _)
      · obtain ⟨attempts, hhistory, hpublishes⟩ := h.published
        refine ⟨attempts ++ [attempt], hpublished attempts hhistory, ?_⟩
        rw [List.filter_append, List.filter_append, List.filter_singleton, List.filter_singleton, hcaptured, hcompleted]
        exact List.rel_append hpublishes (.cons ⟨hcaptured, hproduces, hdirectory, hfiles⟩ .nil)
    · refine h.uncaptured hnew hcaptured (.inr rfl) fun attempts hattempts =>
        ⟨attempts ++ [attempt], hpublished attempts hattempts, ?_⟩
      rw [List.filter_append, List.filter_singleton, hfailed]
      exact List.append_nil _

/-- A capture's compilation is the only one with its token. -/
theorem compiled_once (h : Accounted store turns session) {turn : Turn I M} (hturn : turn ∈ turns)
    (hsome : (turn.captured store).isSome = true) :
    session.compilations.filter (fun compilation =>
      compilation.marker = compiler.selected_target_marker turn.call.token) = [turn.call.compilation turn.before.inputs] :=
  filter_key_eq h.distinct (h.recorded turn hturn hsome)

end Accounted

/-- A completed attempt comes from one call. -/
theorem published_once {attempts : List (Attempt (CargoArtifactRecord M))} (hhistory : History store attempts session.tree)
    (hpublishes : List.Forall₂ (Publishes store) (turns.filter fun turn => (turn.captured store).isSome)
      (attempts.filter fun attempt : Attempt (CargoArtifactRecord M) => attempt.completed store))
    {attempt : Attempt (CargoArtifactRecord M)} (hattempt : attempt ∈ attempts) (hcompleted : attempt.completed store = true) :
    ∃ turn, turns.filter (fun turn => (turn.captured store).any fun other => other.id = attempt.capture.id) = [turn] ∧
      Publishes store turn attempt := by
  have hmem := List.mem_filter.mpr ⟨hattempt, hcompleted⟩
  have honly := filter_key_eq (f := fun attempt : Attempt (CargoArtifactRecord M) => attempt.capture.id)
    hhistory.invariant.distinct hmem
  have hsame {turn : Turn I M} {other : Attempt (CargoArtifactRecord M)} (h : Publishes store turn other) :
      ((turn.captured store).any fun other => other.id = attempt.capture.id) = true ↔
        decide (other.capture.id = attempt.capture.id) = true := by
    rw [h.captured]
    rfl
  have hfilter := List.rel_filter (R := Publishes store) (fun _ _ => hsame) hpublishes
  rw [honly, List.filter_filter] at hfilter
  obtain ⟨turn, hpublished, hturn⟩ : ∃ turn, Publishes store turn attempt ∧ turns.filter (fun turn =>
      ((turn.captured store).any fun other => other.id = attempt.capture.id) && (turn.captured store).isSome) = [turn] := by
    generalize turns.filter _ = found at hfilter
    cases hfilter with
    | cons hpublished hrest =>
      cases hrest
      exact ⟨_, hpublished, rfl⟩
  refine ⟨turn, ?_, hpublished⟩
  rw [← hturn]
  refine List.filter_congr fun turn _ => ?_
  cases turn.captured store <;> simp

/-- Every journey keeps the accounts. -/
theorem Journey.accounted (h : Journey store turns session) : Accounted store turns session := by
  induction h with
  | start inputs hunopened =>
    exact ⟨List.forall_mem_nil _, List.nodup_nil, List.forall_mem_nil _, [], .start hunopened, .nil⟩
  | edited before inputs files ih =>
    obtain ⟨attempts, hhistory, hpublishes⟩ := ih.published
    exact ⟨ih.compiled, ih.distinct, ih.recorded, attempts, keeps_beside _ files attempts hhistory, hpublishes⟩
  | called before call hcargo hnew ih => exact ih.called hcargo hnew

end optic.captures
