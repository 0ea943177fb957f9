import Optic.FileSystem.Rules

open rust

namespace file_system

variable {ε ε' α β : Type} {tree : Tree}

/-- Two answers of a program from a tree are the same. -/
theorem Answers.unique {p : Action ε α} {result result' : Except ε α} (h : Answers p tree result)
    (h' : Answers p tree result') : result = result' := by
  have hrun := h { tree } rfl rfl
  rw [h' { tree } rfl rfl] at hrun
  exact (congrArg Prod.fst hrun).symm

/-- A program that answers from every tree. -/
def Settled (p : Action ε α) : Prop := ∀ tree, ∃ result, Answers p tree result

namespace Settled

theorem pure {a : α} : Settled (Pure.pure a : Action ε α) := fun _ => ⟨_, .pure⟩

theorem fail {e : ε} : Settled (Action.fail e : Action ε α) := fun _ => ⟨_, .fail⟩

theorem lift {result : Except ε α} : Settled (Action.lift result) := fun _ => ⟨_, .lift⟩

theorem bind {p : Action ε α} {f : α → Action ε β} (hp : Settled p) (hf : ∀ a, Settled (f a)) : Settled (p >>= f) := by
  intro tree
  obtain ⟨result, hresult⟩ := hp tree
  cases result with
  | ok a =>
    obtain ⟨result', hresult'⟩ := hf a tree
    exact ⟨result', .bind hresult hresult'⟩
  | error e => exact ⟨.error e, .bind_error hresult⟩

theorem map_err {p : Action ε α} {f : ε → ε'} (hp : Settled p) : Settled (Action.map_err f p) := by
  intro tree
  obtain ⟨result, hresult⟩ := hp tree
  cases result with
  | ok a => exact ⟨.ok a, hresult.map_err⟩
  | error e => exact ⟨.error (f e), hresult.map_err_error⟩

theorem attempt {p : Action ε α} {f : Except ε α → Action ε' β} (hp : Settled p) (hf : ∀ r, Settled (f r)) :
    Settled (Action.attempt p f) := by
  intro tree
  obtain ⟨result, hresult⟩ := hp tree
  obtain ⟨result', hresult'⟩ := hf result tree
  exact ⟨result', hresult.attempt hresult'⟩

theorem ite {c : Prop} [Decidable c] {p p' : Action ε α} (hp : Settled p) (hp' : Settled p') :
    Settled (if c then p else p') := by
  split
  · exact hp
  · exact hp'

/-- An operation that leaves every tree as it is. -/
theorem perform {act : Tree → Except IoError (α × Tree)} (h : ∀ tree a tree', act tree = .ok (a, tree') → tree' = tree) :
    Settled (file_system.perform act) := by
  intro tree
  cases hact : act tree with
  | ok answer =>
    obtain ⟨a, tree'⟩ := answer
    obtain rfl := h tree a tree' hact
    exact ⟨.ok a, .perform hact⟩
  | error e => exact ⟨.error e, .perform_error hact⟩

theorem symlink_metadata (path : Path) : Settled (file_system.symlink_metadata path) := by
  apply perform
  intro tree metadata tree' h
  split at h
  · cases h
    rfl
  · cases h

theorem open_file (path : Path) : Settled (file_system.open_file path) := by
  apply perform
  intro tree bytes tree' h
  split at h
  · cases h
    rfl
  · cases h
  · cases h

theorem read {result : Except IoError α} : Settled (file_system.read result) := by
  apply perform
  intro tree a tree' h
  cases result with
  | ok a =>
    cases h
    rfl
  | error e => cases h

theorem read_dir (path : Path) (names : List OsString) : Settled (file_system.read_dir path names) := by
  apply perform
  intro tree entries tree' h
  split at h
  · cases h
    rfl
  · cases h
  · cases h

end Settled

/-- A program that changes nothing, and answers without failures what it returns despite them. -/
structure Certain (p : Action ε α) : Prop where
  only : ReadOnly p
  settled : Settled p
  answers : ∀ w a w', p w = (.ok a, w') → Answers p w.tree (.ok a)

namespace Certain

theorem pure {a : α} : Certain (Pure.pure a : Action ε α) where
  only := .pure
  settled := .pure
  answers := by
    rintro w _ _ ⟨⟩
    exact .pure

theorem lift {result : Except ε α} : Certain (Action.lift result) where
  only := .lift
  settled := .lift
  answers := by
    rintro w a _ ⟨⟩
    exact .lift

theorem bind {p : Action ε α} {f : α → Action ε β} (hp : Certain p) (hf : ∀ a, Certain (f a)) : Certain (p >>= f) where
  only := .bind hp.only fun a => (hf a).only
  settled := .bind hp.settled fun a => (hf a).settled
  answers w b w' h := by
    obtain ⟨a, w1, hfirst, hsecond⟩ := Action.bind_eq_ok_iff.mp h
    have htree : w1.tree = w.tree := by rw [← hp.only.tree w, hfirst]
    have hanswer := (hf a).answers w1 b w' hsecond
    rw [htree] at hanswer
    exact .bind (hp.answers w a w1 hfirst) hanswer

theorem map_err {p : Action ε α} {f : ε → ε'} (hp : Certain p) : Certain (Action.map_err f p) where
  only := .map_err hp.only
  settled := .map_err hp.settled
  answers w a w' h := (hp.answers w a w' (Action.map_err_eq_ok_iff.mp h)).map_err

theorem ite {c : Prop} [Decidable c] {p p' : Action ε α} (hp : Certain p) (hp' : Certain p') :
    Certain (if c then p else p') := by
  split
  · exact hp
  · exact hp'

/-- An operation that leaves every tree as it is. -/
theorem perform {act : Tree → Except IoError (α × Tree)} (h : ∀ tree a tree', act tree = .ok (a, tree') → tree' = tree) :
    Certain (file_system.perform act) where
  only := .perform fun tree a tree' path hact _ => by rw [h tree a tree' hact]
  settled := .perform h
  answers w a w' hrun := by
    obtain ⟨tree, hact, -⟩ := perform_ok hrun
    obtain rfl := h w.tree a tree hact
    exact .perform hact

end Certain

namespace Answers

theorem pure_iff {a : α} {result : Except ε α} : Answers (Pure.pure a : Action ε α) tree result ↔ result = .ok a :=
  ⟨fun h => h.unique .pure, fun h => h ▸ .pure⟩

theorem fail_iff {e : ε} {result : Except ε α} : Answers (Action.fail e : Action ε α) tree result ↔ result = .error e :=
  ⟨fun h => h.unique .fail, fun h => h ▸ .fail⟩

theorem lift_iff {result result' : Except ε α} : Answers (Action.lift result) tree result' ↔ result' = result :=
  ⟨fun h => h.unique .lift, fun h => h ▸ .lift⟩

/-- A sequence answers with a value exactly when both of its steps do. -/
theorem bind_ok_iff {p : Action ε α} {f : α → Action ε β} {b : β} (hp : Settled p) :
    Answers (p >>= f) tree (.ok b) ↔ ∃ a, Answers p tree (.ok a) ∧ Answers (f a) tree (.ok b) := by
  constructor
  · intro h
    obtain ⟨result, hresult⟩ := hp tree
    cases result with
    | ok a =>
      refine ⟨a, hresult, fun w htree hschedule => ?_⟩
      have hrun := h w htree hschedule
      rwa [Action.bind_of_ok (hresult w htree hschedule)] at hrun
    | error e => cases h.unique (.bind_error hresult)
  · rintro ⟨a, ha, hb⟩
    exact .bind ha hb

/-- A sequence fails exactly when one of its steps does. -/
theorem bind_error_iff {p : Action ε α} {f : α → Action ε β} {e : ε} (hp : Settled p) :
    Answers (p >>= f) tree (.error e) ↔
      Answers p tree (.error e) ∨ ∃ a, Answers p tree (.ok a) ∧ Answers (f a) tree (.error e) := by
  constructor
  · intro h
    obtain ⟨result, hresult⟩ := hp tree
    cases result with
    | ok a =>
      refine .inr ⟨a, hresult, fun w htree hschedule => ?_⟩
      have hrun := h w htree hschedule
      rwa [Action.bind_of_ok (hresult w htree hschedule)] at hrun
    | error e' =>
      cases h.unique (.bind_error hresult)
      exact .inl hresult
  · rintro (h | ⟨a, ha, hf⟩)
    · exact .bind_error h
    · exact .bind ha hf

theorem map_err_ok_iff {p : Action ε α} {f : ε → ε'} {a : α} :
    Answers (Action.map_err f p) tree (.ok a) ↔ Answers p tree (.ok a) :=
  ⟨fun h w htree hschedule => Action.map_err_eq_ok_iff.mp (h w htree hschedule), .map_err⟩

theorem map_err_error_iff {p : Action ε α} {f : ε → ε'} {e : ε'} (hp : Settled p) :
    Answers (Action.map_err f p) tree (.error e) ↔ ∃ source, Answers p tree (.error source) ∧ e = f source := by
  constructor
  · intro h
    obtain ⟨result, hresult⟩ := hp tree
    cases result with
    | ok a => cases h.unique hresult.map_err
    | error source => exact ⟨source, hresult, Except.error.inj (h.unique hresult.map_err_error)⟩
  · rintro ⟨source, hsource, rfl⟩
    exact hsource.map_err_error

theorem attempt_iff {p : Action ε α} {f : Except ε α → Action ε' β} {result : Except ε' β} (hp : Settled p) :
    Answers (Action.attempt p f) tree result ↔ ∃ r, Answers p tree r ∧ Answers (f r) tree result := by
  constructor
  · intro h
    obtain ⟨r, hr⟩ := hp tree
    refine ⟨r, hr, fun w htree hschedule => ?_⟩
    have hrun := h w htree hschedule
    rwa [Action.attempt_apply, hr w htree hschedule] at hrun
  · rintro ⟨r, hr, hresult⟩
    exact .attempt hr hresult

/-- The metadata of a name is that of its entry. -/
theorem symlink_metadata_iff {path : Path} {result : Except IoError Metadata} :
    Answers (file_system.symlink_metadata path) tree result ↔
      result = (tree path).elim (.error not_found) fun entry => .ok ⟨entry⟩ := by
  have hanswer : Answers (file_system.symlink_metadata path) tree
      ((tree path).elim (.error not_found) fun entry => .ok ⟨entry⟩) := by
    cases hentry : tree path with
    | none => exact .symlink_metadata_absent hentry
    | some entry => exact .symlink_metadata hentry
  exact ⟨fun h => h.unique hanswer, fun h => h ▸ hanswer⟩

theorem symlink_metadata_ok_iff {path : Path} {metadata : Metadata} :
    Answers (file_system.symlink_metadata path) tree (.ok metadata) ↔ tree path = some metadata.entry := by
  rw [symlink_metadata_iff]
  cases tree path with
  | none => simp
  | some entry =>
    cases metadata
    simp [eq_comm]

end Answers

end file_system
