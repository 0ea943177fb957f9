import Optic.FileSystem.World

open rust

namespace file_system

variable {ε ε' α β : Type} {w w' : World}

theorem join_inj {path other : Path} {name name' : OsString} :
    path.join name = other.join name' ↔ path = other ∧ name = name' := by
  rw [Path.join, Path.join, ← List.concat_eq_append, ← List.concat_eq_append, List.concat_inj]

namespace Action

/-- A sequence returns exactly when both of its steps do. -/
theorem bind_eq_ok_iff {p : Action ε α} {f : α → Action ε β} {b : β} :
    (p >>= f) w = (.ok b, w') ↔ ∃ a w1, p w = (.ok a, w1) ∧ f a w1 = (.ok b, w') := by
  rw [bind_apply]
  constructor
  · intro h
    split at h
    · next a w1 hp => exact ⟨a, w1, hp, h⟩
    · cases h
  · rintro ⟨a, w1, hp, hf⟩
    rw [hp]
    exact hf

theorem bind_of_ok {p : Action ε α} {a : α} (h : p w = (.ok a, w')) (f : α → Action ε β) : (p >>= f) w = f a w' := by
  rw [bind_apply, h]

theorem bind_of_error {p : Action ε α} {e : ε} (h : p w = (.error e, w')) (f : α → Action ε β) :
    (p >>= f) w = (.error e, w') := by
  rw [bind_apply, h]

theorem bind_assoc {γ : Type} (p : Action ε α) (f : α → Action ε β) (g : β → Action ε γ) :
    p >>= f >>= g = p >>= fun a => f a >>= g := by
  funext w
  rw [bind_apply, bind_apply, bind_apply]
  rcases p w with ⟨error | a, w'⟩ <;> rfl

theorem pure_bind (a : α) (f : α → Action ε β) : pure a >>= f = f a := rfl

theorem map_err_eq_ok_iff {p : Action ε α} {f : ε → ε'} {a : α} :
    map_err f p w = (.ok a, w') ↔ p w = (.ok a, w') := by
  unfold map_err
  rcases p w with ⟨_ | _, _⟩ <;> simp

theorem lift_eq_ok_iff {result : Except ε α} {a : α} : lift result w = (.ok a, w') ↔ result = .ok a ∧ w = w' := by
  rw [lift_apply, Prod.mk.injEq]

theorem pure_eq_ok_iff {a b : α} : (pure a : Action ε α) w = (.ok b, w') ↔ a = b ∧ w = w' := by
  rw [pure_apply, Prod.mk.injEq, Except.ok.injEq]

end Action

/-- A program changes entries of `s` only. -/
def Within (s : Path → Prop) (p : Action ε α) : Prop := ∀ w path, ¬ s path → (p w).2.tree path = w.tree path

namespace Within

variable {s : Path → Prop}

theorem weaken {s' : Path → Prop} {p : Action ε α} (h : Within s p) (hs : ∀ path, s path → s' path) : Within s' p :=
  fun w path hpath => h w path fun hs' => hpath (hs path hs')

theorem pure {a : α} : Within s (Pure.pure a : Action ε α) := fun _ _ _ => rfl

theorem fail {e : ε} : Within s (Action.fail e : Action ε α) := fun _ _ _ => rfl

theorem lift {result : Except ε α} : Within s (Action.lift result) := fun _ _ _ => rfl

theorem bind {p : Action ε α} {f : α → Action ε β} (hp : Within s p) (hf : ∀ a, Within s (f a)) :
    Within s (p >>= f) := by
  intro w path hpath
  have hw := hp w path hpath
  rw [Action.bind_apply]
  split
  · next a w' h =>
    rw [h] at hw
    exact (hf a w' path hpath).trans hw
  · next e w' h =>
    rw [h] at hw
    exact hw

theorem attempt {p : Action ε α} {f : Except ε α → Action ε' β} (hp : Within s p) (hf : ∀ r, Within s (f r)) :
    Within s (Action.attempt p f) :=
  fun w path hpath => (hf _ _ path hpath).trans (hp w path hpath)

theorem map_err {p : Action ε α} {f : ε → ε'} (hp : Within s p) : Within s (Action.map_err f p) := by
  intro w path hpath
  have hw := hp w path hpath
  unfold Action.map_err
  rcases h : p w with ⟨_ | _, w'⟩ <;> rw [h] at hw <;> exact hw

theorem ite {c : Prop} [Decidable c] {p p' : Action ε α} (hp : Within s p) (hp' : Within s p') :
    Within s (if c then p else p') := by
  split
  · exact hp
  · exact hp'

/-- An operation whose answers change entries of `s` only. -/
theorem perform {act : Tree → Except IoError (α × Tree)}
    (h : ∀ tree a tree' path, act tree = .ok (a, tree') → ¬ s path → tree' path = tree path) :
    Within s (file_system.perform act) := by
  intro w path hpath
  unfold file_system.perform
  cases w.verdict with
  | some failure => rfl
  | none =>
    cases hact : act w.tree with
    | ok answer => exact h w.tree answer.1 answer.2 path hact hpath
    | error e => rfl

theorem symlink_metadata (path : Path) : Within s (file_system.symlink_metadata path) := by
  refine perform fun tree a tree' other h _ => ?_
  split at h
  · cases h
    rfl
  · cases h

theorem open_file (path : Path) : Within s (file_system.open_file path) := by
  refine perform fun tree a tree' other h _ => ?_
  split at h
  · cases h
    rfl
  · cases h
  · cases h

theorem read {result : Except IoError α} : Within s (file_system.read result) := by
  refine perform fun tree a tree' other h _ => ?_
  cases result with
  | ok a =>
    cases h
    rfl
  | error e => cases h

theorem create {path : Path} (entry : Entry) (hpath : s path) : Within s (file_system.create path entry) := by
  refine perform fun tree a tree' other h hother => ?_
  split at h
  · cases h
  split at h
  · cases h
  · cases h
    exact Tree.set_other entry fun heq => hother (heq ▸ hpath)

theorem write_file {path : Path} (bytes : List UInt8) (hpath : s path) : Within s (file_system.write_file path bytes) := by
  intro w other hother
  have hne : other ≠ path := fun heq => hother (heq ▸ hpath)
  unfold file_system.write_file
  cases w.verdict with
  | some failure => exact Tree.append_other _ hne
  | none => exact Tree.append_other _ hne

theorem write_all {path : Path} (bytes : List UInt8) (hpath : s path) : Within s (file_system.write_all path bytes) :=
  map_err (write_file bytes hpath)

theorem write_sink (bytes : List UInt8) : Within s (file_system.write_sink bytes) := by
  intro w path _
  unfold file_system.write_sink
  split
  · rfl
  · split <;> rfl

end Within

/-- A program that changes no entry. -/
abbrev ReadOnly (p : Action ε α) : Prop := Within (fun _ => False) p

theorem ReadOnly.tree {p : Action ε α} (h : ReadOnly p) (w : World) : (p w).2.tree = w.tree :=
  funext fun path => h w path id

/-- A program whose result, where it has one, depends on the tree alone. -/
def Determined (p : Action ε α) : Prop :=
  ∀ w w' a a', w.tree = w'.tree → (p w).1 = .ok a → (p w').1 = .ok a' → a = a'

namespace Determined

theorem pure {a : α} : Determined (Pure.pure a : Action ε α) := by
  rintro w w' _ _ - ⟨⟩ ⟨⟩
  rfl

theorem fail {e : ε} : Determined (Action.fail e : Action ε α) := by
  rintro w w' _ _ - ⟨⟩

theorem lift {result : Except ε α} : Determined (Action.lift result) := by
  rintro w w' a a' - h h'
  exact Except.ok.inj (h.symm.trans h')

theorem bind {p : Action ε α} {f : α → Action ε β} (hp : Determined p) (hread : ReadOnly p) (hf : ∀ a, Determined (f a)) :
    Determined (p >>= f) := by
  intro w w' b b' htree h h'
  rcases hrun : (p >>= f) w with ⟨r, w1⟩
  rcases hrun' : (p >>= f) w' with ⟨r', w1'⟩
  rw [hrun] at h
  rw [hrun'] at h'
  cases h
  cases h'
  obtain ⟨a, w2, ha, hb⟩ := Action.bind_eq_ok_iff.mp hrun
  obtain ⟨a', w2', ha', hb'⟩ := Action.bind_eq_ok_iff.mp hrun'
  have htree2 : w2.tree = w.tree := by rw [← hread.tree w, ha]
  have htree2' : w2'.tree = w'.tree := by rw [← hread.tree w', ha']
  obtain rfl := hp w w' a a' htree (by rw [ha]) (by rw [ha'])
  exact hf a w2 w2' b b' (by rw [htree2, htree2', htree]) (by rw [hb]) (by rw [hb'])

theorem map_err {p : Action ε α} {f : ε → ε'} (hp : Determined p) : Determined (Action.map_err f p) := by
  intro w w' a a' htree h h'
  refine hp w w' a a' htree ?_ ?_
  · unfold Action.map_err at h
    rcases hrun : p w with ⟨_ | _, _⟩ <;> rw [hrun] at h <;> cases h
    rfl
  · unfold Action.map_err at h'
    rcases hrun : p w' with ⟨_ | _, _⟩ <;> rw [hrun] at h' <;> cases h'
    rfl

theorem ite {c : Prop} [Decidable c] {p p' : Action ε α} (hp : Determined p) (hp' : Determined p') :
    Determined (if c then p else p') := by
  split
  · exact hp
  · exact hp'

theorem perform {act : Tree → Except IoError (α × Tree)} : Determined (file_system.perform act) := by
  have hact (w : World) (a : α) (h : (file_system.perform act w).1 = .ok a) : ∃ tree, act w.tree = .ok (a, tree) := by
    unfold file_system.perform at h
    cases hverdict : w.verdict with
    | some failure =>
      rw [hverdict] at h
      cases h
    | none =>
      rw [hverdict] at h
      cases hanswer : act w.tree with
      | ok answer =>
        rw [hanswer] at h
        cases h
        exact ⟨answer.2, rfl⟩
      | error e =>
        rw [hanswer] at h
        cases h
  intro w w' a a' htree h h'
  obtain ⟨tree, hok⟩ := hact w a h
  obtain ⟨tree', hok'⟩ := hact w' a' h'
  rw [htree, hok'] at hok
  cases hok
  rfl

end Determined

/-- A program whose errors all satisfy `E`. -/
def Raises (E : ε → Prop) (p : Action ε α) : Prop := ∀ w e w', p w = (.error e, w') → E e

namespace Raises

variable {E : ε → Prop} {E' : ε' → Prop}

theorem pure {a : α} : Raises E (Pure.pure a : Action ε α) := by
  rintro w e w' ⟨⟩

theorem fail {e : ε} (h : E e) : Raises E (Action.fail e : Action ε α) := by
  rintro w _ w' ⟨⟩
  exact h

theorem lift {result : Except ε α} (h : ∀ e, result = .error e → E e) : Raises E (Action.lift result) := by
  rintro w e w' ⟨⟩
  exact h e rfl

theorem bind {p : Action ε α} {f : α → Action ε β} (hp : Raises E p) (hf : ∀ a, Raises E (f a)) : Raises E (p >>= f) := by
  intro w e w' h
  rcases hrun : p w with ⟨e1 | a, w1⟩
  · rw [Action.bind_of_error hrun] at h
    cases h
    exact hp w e w' hrun
  · rw [Action.bind_of_ok hrun] at h
    exact hf a w1 e w' h

theorem map_err {p : Action ε α} {f : ε → ε'} (h : ∀ e, E' (f e)) : Raises E' (Action.map_err f p) := by
  intro w e w' hrun
  unfold Action.map_err at hrun
  rcases hp : p w with ⟨e1 | a, w1⟩
  · rw [hp] at hrun
    cases hrun
    exact h e1
  · rw [hp] at hrun
    cases hrun

theorem attempt {p : Action ε α} {f : Except ε α → Action ε' β} (h : ∀ r, Raises E' (f r)) :
    Raises E' (Action.attempt p f) := fun _ e w' hrun => h _ _ e w' hrun

theorem ite {c : Prop} [Decidable c] {p p' : Action ε α} (hp : Raises E p) (hp' : Raises E p') :
    Raises E (if c then p else p') := by
  split
  · exact hp
  · exact hp'

end Raises

/-- A program that writes nothing to the sink. -/
def Silent (p : Action ε α) : Prop := ∀ w, (p w).2.sink = w.sink

namespace Silent

theorem pure {a : α} : Silent (Pure.pure a : Action ε α) := fun _ => rfl

theorem fail {e : ε} : Silent (Action.fail e : Action ε α) := fun _ => rfl

theorem lift {result : Except ε α} : Silent (Action.lift result) := fun _ => rfl

theorem bind {p : Action ε α} {f : α → Action ε β} (hp : Silent p) (hf : ∀ a, Silent (f a)) : Silent (p >>= f) := by
  intro w
  have hw := hp w
  rw [Action.bind_apply]
  rcases hrun : p w with ⟨e | a, w1⟩
  · rw [hrun] at hw
    exact hw
  · rw [hrun] at hw
    exact (hf a w1).trans hw

theorem map_err {p : Action ε α} {f : ε → ε'} (hp : Silent p) : Silent (Action.map_err f p) := by
  intro w
  have hw := hp w
  unfold Action.map_err
  rcases hrun : p w with ⟨e | a, w1⟩ <;> rw [hrun] at hw <;> exact hw

theorem attempt {p : Action ε α} {f : Except ε α → Action ε' β} (hp : Silent p) (hf : ∀ r, Silent (f r)) :
    Silent (Action.attempt p f) := fun w => (hf _ _).trans (hp w)

theorem ite {c : Prop} [Decidable c] {p p' : Action ε α} (hp : Silent p) (hp' : Silent p') :
    Silent (if c then p else p') := by
  split
  · exact hp
  · exact hp'

theorem perform {act : Tree → Except IoError (α × Tree)} : Silent (file_system.perform act) := by
  intro w
  unfold file_system.perform
  cases w.verdict with
  | some failure => rfl
  | none => cases act w.tree <;> rfl

end Silent

/-- A program that only reads: it changes nothing and writes nothing, its result depends on the
tree alone, and its errors satisfy `E`. -/
structure Reads (E : ε → Prop) (p : Action ε α) : Prop where
  only : ReadOnly p
  silent : Silent p
  determined : Determined p
  raises : Raises E p

namespace Reads

variable {E : ε → Prop} {E' : ε' → Prop}

theorem pure {a : α} : Reads E (Pure.pure a : Action ε α) := ⟨.pure, .pure, .pure, .pure⟩

theorem fail {e : ε} (h : E e) : Reads E (Action.fail e : Action ε α) := ⟨.fail, .fail, .fail, .fail h⟩

theorem lift {result : Except ε α} (h : ∀ e, result = .error e → E e) : Reads E (Action.lift result) :=
  ⟨.lift, .lift, .lift, .lift h⟩

theorem bind {p : Action ε α} {f : α → Action ε β} (hp : Reads E p) (hf : ∀ a, Reads E (f a)) : Reads E (p >>= f) where
  only := .bind hp.only fun a => (hf a).only
  silent := .bind hp.silent fun a => (hf a).silent
  determined := .bind hp.determined hp.only fun a => (hf a).determined
  raises := .bind hp.raises fun a => (hf a).raises

theorem map_err {E₀ : ε → Prop} {p : Action ε α} {f : ε → ε'} (hp : Reads E₀ p) (h : ∀ e, E' (f e)) :
    Reads E' (Action.map_err f p) := ⟨.map_err hp.only, .map_err hp.silent, .map_err hp.determined, .map_err h⟩

theorem ite {c : Prop} [Decidable c] {p p' : Action ε α} (hp : Reads E p) (hp' : Reads E p') :
    Reads E (if c then p else p') := by
  split
  · exact hp
  · exact hp'

theorem symlink_metadata (path : Path) : Reads (fun _ => True) (file_system.symlink_metadata path) :=
  ⟨.symlink_metadata path, .perform, .perform, fun _ _ _ _ => trivial⟩

theorem open_file (path : Path) : Reads (fun _ => True) (file_system.open_file path) :=
  ⟨.open_file path, .perform, .perform, fun _ _ _ _ => trivial⟩

theorem read {result : Except IoError α} : Reads (fun _ => True) (file_system.read result) :=
  ⟨.read, .perform, .perform, fun _ _ _ _ => trivial⟩

end Reads

theorem verdict_nil (h : w.schedule = []) : w.verdict = none := by
  rw [World.verdict, h]
  rfl

theorem advance_nil (h : w.schedule = []) : w.advance = w := by
  rw [World.advance, h, List.tail_nil, ← h]

/-- Without failures, a program answers `result` from `tree` and changes nothing. -/
def Answers (p : Action ε α) (tree : Tree) (result : Except ε α) : Prop :=
  ∀ w, w.tree = tree → w.schedule = [] → p w = (result, w)

namespace Answers

variable {tree : Tree}

theorem pure {a : α} : Answers (Pure.pure a : Action ε α) tree (.ok a) := fun _ _ _ => rfl

theorem fail {e : ε} : Answers (Action.fail e : Action ε α) tree (.error e) := fun _ _ _ => rfl

theorem lift {result : Except ε α} : Answers (Action.lift result) tree result := fun _ _ _ => rfl

theorem bind {p : Action ε α} {f : α → Action ε β} {a : α} {result : Except ε β} (hp : Answers p tree (.ok a))
    (hf : Answers (f a) tree result) : Answers (p >>= f) tree result := by
  intro w htree hschedule
  rw [Action.bind_of_ok (hp w htree hschedule)]
  exact hf w htree hschedule

theorem bind_error {p : Action ε α} {f : α → Action ε β} {e : ε} (hp : Answers p tree (.error e)) :
    Answers (p >>= f) tree (.error e) :=
  fun w htree hschedule => Action.bind_of_error (hp w htree hschedule) f

theorem map_err {p : Action ε α} {f : ε → ε'} {a : α} (hp : Answers p tree (.ok a)) :
    Answers (Action.map_err f p) tree (.ok a) :=
  fun w htree hschedule => Action.map_err_eq_ok_iff.mpr (hp w htree hschedule)

theorem map_err_error {p : Action ε α} {f : ε → ε'} {e : ε} (hp : Answers p tree (.error e)) :
    Answers (Action.map_err f p) tree (.error (f e)) := by
  intro w htree hschedule
  rw [Action.map_err, hp w htree hschedule]

theorem attempt {p : Action ε α} {f : Except ε α → Action ε' β} {r : Except ε α} {r' : Except ε' β}
    (hp : Answers p tree r) (hf : Answers (f r) tree r') : Answers (Action.attempt p f) tree r' := by
  intro w htree hschedule
  rw [Action.attempt, hp w htree hschedule]
  exact hf w htree hschedule

theorem ite_pos {c : Prop} [Decidable c] {p p' : Action ε α} {result : Except ε α} (hc : c)
    (h : Answers p tree result) : Answers (if c then p else p') tree result := by rwa [if_pos hc]

theorem ite_neg {c : Prop} [Decidable c] {p p' : Action ε α} {result : Except ε α} (hc : ¬ c)
    (h : Answers p' tree result) : Answers (if c then p else p') tree result := by rwa [if_neg hc]

theorem perform {act : Tree → Except IoError (α × Tree)} {a : α} (h : act tree = .ok (a, tree)) :
    Answers (file_system.perform act) tree (.ok a) := by
  rintro w rfl hschedule
  unfold file_system.perform
  simp only [verdict_nil hschedule, advance_nil hschedule, h]

theorem perform_error {act : Tree → Except IoError (α × Tree)} {e : IoError} (h : act tree = .error e) :
    Answers (file_system.perform act) tree (.error e) := by
  rintro w rfl hschedule
  unfold file_system.perform
  simp only [verdict_nil hschedule, advance_nil hschedule, h]

theorem symlink_metadata {path : Path} {entry : Entry} (h : tree path = some entry) :
    Answers (file_system.symlink_metadata path) tree (.ok ⟨entry⟩) :=
  perform (by rw [h])

/-- Without failures, the metadata of an absent name is not found. -/
theorem symlink_metadata_absent {path : Path} (h : tree path = none) :
    Answers (file_system.symlink_metadata path) tree (.error not_found) :=
  perform_error (by rw [h])

theorem open_file {path : Path} {bytes : List UInt8} (h : tree path = some (.file bytes)) :
    Answers (file_system.open_file path) tree (.ok bytes) :=
  perform (by rw [h])

theorem read {a : α} : Answers (file_system.read (.ok a)) tree (.ok a) := perform rfl

theorem read_dir {path : Path} {names : List OsString} (h : tree path = some .dir) :
    Answers (file_system.read_dir path names) tree (.ok names) :=
  perform (by rw [h])

end Answers

/-- The metadata of a name is not found only where it is absent. -/
theorem symlink_metadata_error {path : Path} {error : IoError} (h : symlink_metadata path w = (.error error, w'))
    (hkind : error.kind = .NotFound) : w.tree path = none := by
  unfold symlink_metadata perform at h
  cases hverdict : w.verdict with
  | some failure =>
    rw [hverdict] at h
    cases h
    exact absurd hkind failure.absent
  | none =>
    rw [hverdict] at h
    cases hentry : w.tree path with
    | some entry =>
      simp only [hentry] at h
      cases h
    | none => rfl

theorem perform_ok {act : Tree → Except IoError (α × Tree)} {a : α} (h : perform act w = (.ok a, w')) :
    ∃ tree, act w.tree = .ok (a, tree) ∧ w'.tree = tree := by
  unfold perform at h
  cases hverdict : w.verdict with
  | some failure =>
    rw [hverdict] at h
    cases h
  | none =>
    rw [hverdict] at h
    cases hact : act w.tree with
    | ok answer =>
      simp only [hact] at h
      cases h
      exact ⟨answer.2, rfl, rfl⟩
    | error e =>
      simp only [hact] at h
      cases h

theorem symlink_metadata_ok {path : Path} {metadata : Metadata} (h : symlink_metadata path w = (.ok metadata, w')) :
    w.tree path = some metadata.entry ∧ w'.tree = w.tree := by
  obtain ⟨tree, hact, htree⟩ := perform_ok h
  cases hentry : w.tree path with
  | some entry =>
    rw [hentry] at hact
    cases hact
    exact ⟨rfl, htree⟩
  | none =>
    rw [hentry] at hact
    cases hact

theorem create_ok {path : Path} {entry : Entry} (h : create path entry w = (.ok (), w')) :
    w.tree path = none ∧ w.tree path.dropLast = some .dir ∧ w'.tree = w.tree.set path entry := by
  obtain ⟨tree, hact, htree⟩ := perform_ok h
  split at hact
  · cases hact
  split at hact
  · cases hact
  · next hfree hparent =>
    cases hact
    exact ⟨not_not.mp hfree, not_not.mp hparent, htree⟩

theorem open_file_ok {path : Path} {bytes : List UInt8} (h : open_file path w = (.ok bytes, w')) :
    w.tree path = some (.file bytes) ∧ w'.tree = w.tree := by
  obtain ⟨tree, hact, htree⟩ := perform_ok h
  split at hact
  · next hentry =>
    cases hact
    exact ⟨hentry, htree⟩
  · cases hact
  · cases hact

theorem read_ok {result : Except IoError α} {a : α} (h : read result w = (.ok a, w')) :
    result = .ok a ∧ w'.tree = w.tree := by
  obtain ⟨tree, hact, htree⟩ := perform_ok h
  cases result with
  | ok b =>
    cases hact
    exact ⟨rfl, htree⟩
  | error e => cases hact

theorem write_file_ok {path : Path} {bytes : List UInt8} (h : write_file path bytes w = (.ok (), w')) :
    w'.tree = w.tree.append path bytes := by
  unfold write_file at h
  split at h
  · cases h
  · cases h
    rfl

/-- A written file has just its bytes, and nothing else changes. -/
theorem write_ok {path : Path} {bytes : List UInt8} (h : write path bytes w = (.ok (), w')) :
    w'.tree path = some (.file bytes) ∧ ∀ other, other ≠ path → w'.tree other = w.tree other := by
  obtain ⟨⟨⟩, w1, hcreate, hwrite⟩ := Action.bind_eq_ok_iff.mp h
  have hempty : w1.tree = w.tree.set path (.file []) := by
    obtain ⟨tree, hact, htree⟩ := perform_ok hcreate
    split at hact
    · cases hact
      exact htree
    · cases hact
    · split at hact
      · cases hact
      · cases hact
        exact htree
  have happend := write_file_ok (Action.map_err_eq_ok_iff.mp hwrite)
  rw [happend]
  constructor
  · have hfile : w1.tree path = some (.file []) := by rw [hempty, Tree.set_same]
    rw [Tree.append_file bytes hfile, List.nil_append]
  · intro other hother
    rw [Tree.append_other bytes hother, hempty, Tree.set_other _ hother]

/-- A rename moves what has the name, and never onto a directory. -/
theorem rename_ok {source destination : Path} (h : rename source destination w = (.ok (), w')) :
    w.tree source ≠ none ∧ w.tree destination ≠ some .dir ∧ w'.tree = w.tree.move source destination := by
  obtain ⟨tree, hact, htree⟩ := perform_ok h
  split at hact
  · cases hact
  split at hact
  · cases hact
  · next hsource hdestination =>
    split at hact
    · cases hact
    · cases hact
      exact ⟨by simp [hsource], by simp [hdestination], htree⟩
  · cases hact
  · cases hact
  · next hsource _ _ hnodir =>
    cases hact
    exact ⟨by simp [hsource], hnodir, htree⟩

end file_system
