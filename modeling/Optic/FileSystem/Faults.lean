import Optic.FileSystem.Rules

open rust

namespace file_system

variable {ε ε' α β : Type} {tree tree' tree'' : Tree} {count i : Nat} {failure : Failure}

/-- The next `count` operations proceed. -/
def World.Clear (self : World) (count : Nat) : Prop := ∀ i < count, (self.schedule[i]?).join = none

theorem World.Clear.mono {w : World} {count' : Nat} (h : w.Clear count) (hle : count' ≤ count) : w.Clear count' :=
  fun i hi => h i (by omega)

theorem World.Clear.rest {w : World} {count' : Nat} (h : w.Clear (count + count')) (tree : Tree) :
    World.Clear { w with tree, schedule := w.schedule.drop count } count' := by
  intro i hi
  have hrest := h (count + i) (by omega)
  rwa [← List.getElem?_drop] at hrest

/-- A program answers after `count` operations, and leaves another tree. -/
def Runs (p : Action ε α) (tree : Tree) (count : Nat) (result : Except ε α) (tree' : Tree) : Prop :=
  ∀ w, w.tree = tree → w.Clear count → p w = (result, { w with tree := tree', schedule := w.schedule.drop count })

/-- A program whose operation `i` fails stops there, and leaves another tree. -/
def Stops (p : Action ε α) (tree : Tree) (i : Nat) (failure : Failure) (error : ε) (tree' : Tree) : Prop :=
  ∀ w, w.tree = tree → w.Clear i → w.schedule[i]? = some (some failure) →
    p w = (.error error, { w with tree := tree', schedule := w.schedule.drop (i + 1) })

namespace Runs

theorem lift {result : Except ε α} : Runs (Action.lift result) tree 0 result tree := by
  rintro w rfl -
  rfl

theorem pure {a : α} : Runs (Pure.pure a : Action ε α) tree 0 (.ok a) tree := lift

theorem fail {e : ε} : Runs (Action.fail e : Action ε α) tree 0 (.error e) tree := lift

theorem bind {p : Action ε α} {f : α → Action ε β} {a : α} {result : Except ε β} {count' : Nat}
    (hp : Runs p tree count (.ok a) tree') (hf : Runs (f a) tree' count' result tree'') :
    Runs (p >>= f) tree (count + count') result tree'' := by
  intro w htree hclear
  rw [Action.bind_of_ok (hp w htree (hclear.mono (by omega))), hf _ rfl (hclear.rest tree'), List.drop_drop]

theorem bind_error {p : Action ε α} {f : α → Action ε β} {e : ε} (hp : Runs p tree count (.error e) tree') :
    Runs (p >>= f) tree count (.error e) tree' :=
  fun w htree hclear => Action.bind_of_error (hp w htree hclear) f

theorem map_err {p : Action ε α} {f : ε → ε'} {a : α} (hp : Runs p tree count (.ok a) tree') :
    Runs (Action.map_err f p) tree count (.ok a) tree' :=
  fun w htree hclear => Action.map_err_eq_ok_iff.mpr (hp w htree hclear)

theorem attempt {p : Action ε α} {f : Except ε α → Action ε' β} {r : Except ε α} {result : Except ε' β} {count' : Nat}
    (hp : Runs p tree count r tree') (hf : Runs (f r) tree' count' result tree'') :
    Runs (Action.attempt p f) tree (count + count') result tree'' := by
  intro w htree hclear
  rw [Action.attempt_apply, hp w htree (hclear.mono (by omega)), hf _ rfl (hclear.rest tree'), List.drop_drop]

theorem ite_pos {c : Prop} [Decidable c] {p p' : Action ε α} {result : Except ε α} (hc : c)
    (h : Runs p tree count result tree') : Runs (if c then p else p') tree count result tree' := by rwa [if_pos hc]

theorem ite_neg {c : Prop} [Decidable c] {p p' : Action ε α} {result : Except ε α} (hc : ¬ c)
    (h : Runs p' tree count result tree') : Runs (if c then p else p') tree count result tree' := by rwa [if_neg hc]

theorem verdict {w : World} (h : w.Clear 1) : w.verdict = none := by
  rw [World.verdict, List.head?_eq_getElem?]
  exact h 0 (by omega)

theorem perform {act : Tree → Except IoError (α × Tree)} {a : α} (h : act tree = .ok (a, tree')) :
    Runs (file_system.perform act) tree 1 (.ok a) tree' := by
  rintro w rfl hclear
  simp only [file_system.perform, verdict hclear, h, World.advance, List.drop_one]

theorem perform_error {act : Tree → Except IoError (α × Tree)} {e : IoError} (h : act tree = .error e) :
    Runs (file_system.perform act) tree 1 (.error e) tree := by
  rintro w rfl hclear
  simp only [file_system.perform, verdict hclear, h, World.advance, List.drop_one]

theorem symlink_metadata {path : Path} {entry : Entry} (h : tree path = some entry) :
    Runs (file_system.symlink_metadata path) tree 1 (.ok ⟨entry⟩) tree :=
  perform (by rw [h])

theorem symlink_metadata_absent {path : Path} (h : tree path = none) :
    Runs (file_system.symlink_metadata path) tree 1 (.error not_found) tree :=
  perform_error (by rw [h])

theorem create {path : Path} (entry : Entry) (hfree : tree path = none) (hparent : tree path.dropLast = some .dir) :
    Runs (file_system.create path entry) tree 1 (.ok ()) (tree.set path entry) :=
  perform (by rw [if_neg (not_not.mpr hfree), if_neg (not_not.mpr hparent)])

theorem open_file {path : Path} {bytes : List UInt8} (h : tree path = some (.file bytes)) :
    Runs (file_system.open_file path) tree 1 (.ok bytes) tree :=
  perform (by rw [h])

theorem read {a : α} : Runs (file_system.read (.ok a)) tree 1 (.ok a) tree := perform rfl

theorem write_file {path : Path} {bytes : List UInt8} :
    Runs (file_system.write_file path bytes) tree 1 (.ok ()) (tree.append path bytes) := by
  rintro w rfl hclear
  simp only [file_system.write_file, verdict hclear, World.advance, List.drop_one]

/-- Without failures, a program runs to its end. -/
theorem unfailing {p : Action ε α} {result : Except ε α} (h : Runs p tree count result tree') :
    p { tree } = (result, { tree := tree' }) := by
  rw [h { tree } rfl fun _ _ => rfl, List.drop_nil]

end Runs

/-- Without failures, a program returns `a`, leaves another tree and passes `output` on to the sink. -/
def Completes (p : Action ε α) (tree : Tree) (a : α) (tree' : Tree) (output : List UInt8) : Prop :=
  ∀ w, w.tree = tree → w.schedule = [] →
    p w = (.ok a, { w with tree := tree', sink := { w.sink with accepted := w.sink.accepted ++ output } })

namespace Completes

variable {output rest : List UInt8} {a : α}

theorem of_runs {p : Action ε α} (h : Runs p tree count (.ok a) tree') : Completes p tree a tree' [] := by
  intro w htree hschedule
  have hclear : w.Clear count := by
    intro i _
    rw [hschedule]
    rfl
  rw [h w htree hclear, hschedule, List.drop_nil, ← hschedule, List.append_nil]

theorem of_answers {p : Action ε α} (h : Answers p tree (.ok a)) : Completes p tree a tree [] := by
  rintro w rfl hschedule
  rw [h w rfl hschedule, List.append_nil]

theorem pure : Completes (Pure.pure a : Action ε α) tree a tree [] := .of_answers .pure

theorem bind {p : Action ε α} {f : α → Action ε β} {b : β} (hp : Completes p tree a tree' output)
    (hf : Completes (f a) tree' b tree'' rest) : Completes (p >>= f) tree b tree'' (output ++ rest) := by
  intro w htree hschedule
  rw [Action.bind_of_ok (hp w htree hschedule)]
  have hrest := hf { w with tree := tree', sink := { w.sink with accepted := w.sink.accepted ++ output } } rfl hschedule
  rwa [List.append_assoc] at hrest

/-- Programs that pass on nothing. -/
theorem bind_silent {p : Action ε α} {f : α → Action ε β} {b : β} (hp : Completes p tree a tree' [])
    (hf : Completes (f a) tree' b tree'' []) : Completes (p >>= f) tree b tree'' [] :=
  hp.bind hf

theorem map_err {p : Action ε α} {f : ε → ε'} (hp : Completes p tree a tree' output) :
    Completes (Action.map_err f p) tree a tree' output :=
  fun w htree hschedule => Action.map_err_eq_ok_iff.mpr (hp w htree hschedule)

theorem attempt {p : Action ε α} {f : Except ε α → Action ε' β} {r : Except ε α} {b : β} (hp : Answers p tree r)
    (hf : Completes (f r) tree b tree' output) : Completes (Action.attempt p f) tree b tree' output := by
  intro w htree hschedule
  rw [Action.attempt_apply, hp w htree hschedule]
  exact hf w htree hschedule

/-- A program that completes is gone on from. -/
theorem attempt_ok {p : Action ε α} {f : Except ε α → Action ε' β} {b : β} (hp : Completes p tree a tree' output)
    (hf : Completes (f (.ok a)) tree' b tree'' rest) : Completes (Action.attempt p f) tree b tree'' (output ++ rest) := by
  intro w htree hschedule
  rw [Action.attempt_apply, hp w htree hschedule]
  have hrest := hf { w with tree := tree', sink := { w.sink with accepted := w.sink.accepted ++ output } } rfl hschedule
  rwa [List.append_assoc] at hrest

end Completes

namespace Stops

variable {error : ε}

theorem bind {p : Action ε α} {f : α → Action ε β} (hp : Stops p tree i failure error tree') :
    Stops (p >>= f) tree i failure error tree' :=
  fun w htree hclear hfailure => Action.bind_of_error (hp w htree hclear hfailure) f

theorem bind_after {p : Action ε α} {f : α → Action ε β} {a : α} (hp : Runs p tree count (.ok a) tree')
    (hf : Stops (f a) tree' i failure error tree'') : Stops (p >>= f) tree (count + i) failure error tree'' := by
  intro w htree hclear hfailure
  rw [Action.bind_of_ok (hp w htree (hclear.mono (by omega))), hf _ rfl (hclear.rest tree') (by rwa [List.getElem?_drop]),
    List.drop_drop, Nat.add_assoc]

theorem map_err {p : Action ε α} {f : ε → ε'} (hp : Stops p tree i failure error tree') :
    Stops (Action.map_err f p) tree i failure (f error) tree' := by
  intro w htree hclear hfailure
  rw [Action.map_err, hp w htree hclear hfailure]

theorem attempt {p : Action ε α} {f : Except ε α → Action ε' β} {error' : ε'} (hp : Stops p tree i failure error tree')
    (hf : Runs (f (.error error)) tree' 0 (.error error') tree'') : Stops (Action.attempt p f) tree i failure error' tree'' := by
  intro w htree hclear hfailure
  rw [Action.attempt_apply, hp w htree hclear hfailure, hf _ rfl fun _ h => absurd h (Nat.not_lt_zero _), List.drop_zero]

theorem attempt_after {p : Action ε α} {f : Except ε α → Action ε' β} {error' : ε'} {r : Except ε α}
    (hp : Runs p tree count r tree') (hf : Stops (f r) tree' i failure error' tree'') :
    Stops (Action.attempt p f) tree (count + i) failure error' tree'' := by
  intro w htree hclear hfailure
  rw [Action.attempt_apply, hp w htree (hclear.mono (by omega)), hf _ rfl (hclear.rest tree') (by rwa [List.getElem?_drop]),
    List.drop_drop, Nat.add_assoc]

theorem ite_pos {c : Prop} [Decidable c] {p p' : Action ε α} (hc : c) (h : Stops p tree i failure error tree') :
    Stops (if c then p else p') tree i failure error tree' := by rwa [if_pos hc]

theorem ite_neg {c : Prop} [Decidable c] {p p' : Action ε α} (hc : ¬ c) (h : Stops p' tree i failure error tree') :
    Stops (if c then p else p') tree i failure error tree' := by rwa [if_neg hc]

theorem verdict {w : World} (h : w.schedule[0]? = some (some failure)) : w.verdict = some failure := by
  rw [World.verdict, List.head?_eq_getElem?, h]
  rfl

/-- A failed operation changes nothing. -/
theorem perform {act : Tree → Except IoError (α × Tree)} :
    Stops (file_system.perform act) tree 0 failure failure.error tree := by
  rintro w rfl - hfailure
  simp only [file_system.perform, verdict hfailure, World.advance, Nat.zero_add, List.drop_one]

theorem create {path : Path} {entry : Entry} : Stops (file_system.create path entry) tree 0 failure failure.error tree := by
  unfold file_system.create
  exact perform

/-- A failed write may write some of its bytes. -/
theorem write_file {path : Path} {bytes : List UInt8} : Stops (file_system.write_file path bytes) tree 0 failure
    (failure.error, failure.written) (tree.append path (bytes.take failure.written)) := by
  rintro w rfl - hfailure
  simp only [file_system.write_file, verdict hfailure, World.advance, Nat.zero_add, List.drop_one]

end Stops

/-- A program that takes a tree to another one in `count` operations. A failure of one of them stops
it, and `left` tells what it leaves. -/
structure Phase (p : Action ε Unit) (tree : Tree) (count : Nat) (tree' : Tree) (left : Nat → Failure → Tree → Prop) :
    Prop where
  runs : Runs p tree count (.ok ()) tree'
  stops : ∀ i < count, ∀ failure, ∃ error after, Stops p tree i failure error after ∧ left i failure after

namespace Phase

variable {left left' : Nat → Failure → Tree → Prop}

theorem mono {p : Action ε Unit} (h : Phase p tree count tree' left)
    (hleft : ∀ i failure after, i < count → left i failure after → left' i failure after) :
    Phase p tree count tree' left' where
  runs := h.runs
  stops i hi failure := by
    obtain ⟨error, after, hstop, hafter⟩ := h.stops i hi failure
    exact ⟨error, after, hstop, hleft i failure after hi hafter⟩

theorem bind {p : Action ε Unit} {f : Unit → Action ε Unit} {count' : Nat} (hp : Phase p tree count tree' left)
    (hf : Phase (f ()) tree' count' tree'' fun i => left (count + i)) : Phase (p >>= f) tree (count + count') tree'' left where
  runs := hp.runs.bind hf.runs
  stops i hi failure := by
    by_cases hbefore : i < count
    · obtain ⟨error, after, hstop, hafter⟩ := hp.stops i hbefore failure
      exact ⟨error, after, hstop.bind, hafter⟩
    · obtain ⟨j, rfl⟩ : ∃ j, i = count + j := ⟨i - count, by omega⟩
      obtain ⟨error, after, hstop, hafter⟩ := hf.stops j (by omega) failure
      exact ⟨error, after, .bind_after hp.runs hstop, hafter⟩

end Phase

/-- The schedule on which operation `i` fails. -/
def fault (i : Nat) (failure : Failure) : List (Option Failure) := List.replicate i none ++ [some failure]

theorem fault_clear (hle : count ≤ i) : World.Clear { tree, schedule := fault i failure } count := by
  intro j hj
  have hlength : j < (List.replicate i (none : Option Failure)).length := by
    rw [List.length_replicate]
    omega
  simp only [fault, List.getElem?_append_left hlength, List.getElem?_replicate]
  rw [if_pos (by omega)]
  rfl

/-- A program stops at the one failure that meets it, and otherwise runs to its end. -/
theorem Runs.fault {p : Action ε α} {result : Except ε α} (h : Runs p tree count result tree') (hle : count ≤ i) :
    (p { tree, schedule := fault i failure }).2.tree = tree' := by
  rw [h { tree, schedule := file_system.fault i failure } rfl (fault_clear hle)]

theorem Stops.fault {p : Action ε α} {error : ε} (h : Stops p tree i failure error tree') :
    (p { tree, schedule := fault i failure }).2.tree = tree' := by
  rw [h { tree, schedule := file_system.fault i failure } rfl (fault_clear (Nat.le_refl i)) (by simp [file_system.fault])]

end file_system
