import Optic.FileSystem.Rules

open rust

namespace file_system

variable {ε ε' α β : Type} {tree : Tree}

/-- From a tree that it leaves alone, a program passes a prefix of `output` on to the sink, and
all of it where it returns. The error tells the refusal of the sink, if there was one. -/
structure Emits (refusal : ε → Option IoError) (p : Action ε α) (tree : Tree) (output : List UInt8) : Prop where
  only : ∀ w, w.tree = tree → (p w).2.tree = tree
  ok : ∀ w a w', w.tree = tree → w.sink.refused = none → p w = (.ok a, w') →
    w'.sink.refused = none ∧ w'.sink.accepted = w.sink.accepted ++ output
  error : ∀ w e w', w.tree = tree → w.sink.refused = none → p w = (.error e, w') →
    w'.sink.refused = refusal e ∧ ∃ done, done <+: output ∧ w'.sink.accepted = w.sink.accepted ++ done

namespace Emits

variable {refusal : ε → Option IoError} {output rest : List UInt8}

/-- A program that only reads passes on nothing. -/
theorem reads {E : ε → Prop} {p : Action ε α} (hp : Reads E p) (h : ∀ e, E e → refusal e = none) :
    Emits refusal p tree [] where
  only w htree := (hp.only.tree w).trans htree
  ok w a w' _ hrefused hrun := by
    have hsink := hp.silent w
    rw [hrun] at hsink
    rw [hsink, List.append_nil]
    exact ⟨hrefused, rfl⟩
  error w e w' _ hrefused hrun := by
    have hsink := hp.silent w
    rw [hrun] at hsink
    rw [hsink, h e (hp.raises w e w' hrun)]
    exact ⟨hrefused, [], List.nil_prefix, (List.append_nil _).symm⟩

theorem pure {a : α} : Emits refusal (Pure.pure a : Action ε α) tree [] :=
  .reads (E := fun _ => False) .pure fun _ => False.elim

/-- The second program passes on its output behind that of the first. -/
theorem bind {p : Action ε α} {f : α → Action ε β} (hp : Emits refusal p tree output)
    (hf : ∀ a w w', w.tree = tree → p w = (.ok a, w') → Emits refusal (f a) tree rest) :
    Emits refusal (p >>= f) tree (output ++ rest) where
  only w htree := by
    have hkept := hp.only w htree
    rcases hrun : p w with ⟨e | a, w1⟩
    · rw [Action.bind_of_error hrun]
      rwa [hrun] at hkept
    · rw [Action.bind_of_ok hrun]
      rw [hrun] at hkept
      exact (hf a w w1 htree hrun).only w1 hkept
  ok w b w' htree hrefused hrun := by
    obtain ⟨a, w1, hfirst, hsecond⟩ := Action.bind_eq_ok_iff.mp hrun
    have hkept := hp.only w htree
    rw [hfirst] at hkept
    obtain ⟨hrefused1, haccepted1⟩ := hp.ok w a w1 htree hrefused hfirst
    obtain ⟨hrefused2, haccepted2⟩ := (hf a w w1 htree hfirst).ok w1 b w' hkept hrefused1 hsecond
    rw [haccepted2, haccepted1, List.append_assoc]
    exact ⟨hrefused2, rfl⟩
  error w e w' htree hrefused hrun := by
    rcases hfirst : p w with ⟨e1 | a, w1⟩
    · rw [Action.bind_of_error hfirst] at hrun
      cases hrun
      obtain ⟨hsame, done, hprefix, haccepted⟩ := hp.error w e w' htree hrefused hfirst
      exact ⟨hsame, done, hprefix.trans (List.prefix_append _ _), haccepted⟩
    · rw [Action.bind_of_ok hfirst] at hrun
      have hkept := hp.only w htree
      rw [hfirst] at hkept
      obtain ⟨hrefused1, haccepted1⟩ := hp.ok w a w1 htree hrefused hfirst
      obtain ⟨hsame, done, hprefix, haccepted⟩ := (hf a w w1 htree hfirst).error w1 e w' hkept hrefused1 hrun
      refine ⟨hsame, output ++ done, (List.prefix_append_right_inj output).mpr hprefix, ?_⟩
      rw [haccepted, haccepted1, List.append_assoc]

/-- What is read before decides what is passed on. -/
theorem after {E : ε → Prop} {p : Action ε α} {f : α → Action ε β} (hp : Reads E p) (h : ∀ e, E e → refusal e = none)
    (hf : ∀ a w w', w.tree = tree → p w = (.ok a, w') → Emits refusal (f a) tree rest) :
    Emits refusal (p >>= f) tree rest :=
  (reads hp h).bind hf

theorem map_err {refusal' : ε' → Option IoError} {p : Action ε α} {f : ε → ε'} (hp : Emits refusal p tree output)
    (h : ∀ e, refusal' (f e) = refusal e) : Emits refusal' (Action.map_err f p) tree output where
  only w htree := by
    have hkept := hp.only w htree
    unfold Action.map_err
    rcases hrun : p w with ⟨_ | _, w1⟩ <;> rw [hrun] at hkept <;> exact hkept
  ok w a w' htree hrefused hrun := hp.ok w a w' htree hrefused (Action.map_err_eq_ok_iff.mp hrun)
  error w e w' htree hrefused hrun := by
    unfold Action.map_err at hrun
    rcases hfirst : p w with ⟨e1 | a, w1⟩
    · rw [hfirst] at hrun
      cases hrun
      rw [h]
      exact hp.error w e1 w' htree hrefused hfirst
    · rw [hfirst] at hrun
      cases hrun

theorem write_sink (bytes : List UInt8) : Emits some (file_system.write_sink bytes) tree bytes where
  only w htree := by
    unfold file_system.write_sink
    split
    · exact htree
    · split <;> exact htree
  ok w a w' _ hrefused hrun := by
    unfold file_system.write_sink at hrun
    split at hrun
    · cases hrun
      exact ⟨hrefused, rfl⟩
    · split at hrun
      · cases hrun
        exact ⟨hrefused, rfl⟩
      · cases hrun
  error w e w' _ hrefused hrun := by
    unfold file_system.write_sink at hrun
    split at hrun
    · cases hrun
    · split at hrun
      · cases hrun
      · cases hrun
        exact ⟨rfl, _, List.take_prefix _ _, rfl⟩

end Emits

/-- Where nothing fails and the sink takes everything, a program passes on `output` and does nothing else. -/
def Writes (p : Action ε Unit) (tree : Tree) (output : List UInt8) : Prop :=
  ∀ w, w.tree = tree → w.schedule = [] → w.sink.capacity = none →
    p w = (.ok (), { w with sink := { w.sink with accepted := w.sink.accepted ++ output } })

namespace Writes

variable {output rest : List UInt8}

theorem pure : Writes (Pure.pure () : Action ε Unit) tree [] := by
  intro w _ _ _
  rw [List.append_nil]
  rfl

theorem bind {p : Action ε Unit} {f : Unit → Action ε Unit} (hp : Writes p tree output) (hf : Writes (f ()) tree rest) :
    Writes (p >>= f) tree (output ++ rest) := by
  intro w htree hschedule hcapacity
  have hrest := hf { w with sink := { w.sink with accepted := w.sink.accepted ++ output } } htree hschedule hcapacity
  rw [List.append_assoc] at hrest
  rw [Action.bind_of_ok (hp w htree hschedule hcapacity), hrest]

/-- What is found first decides what is passed on. -/
theorem after {p : Action ε α} {f : α → Action ε Unit} {a : α} (hp : Answers p tree (.ok a)) (hf : Writes (f a) tree rest) :
    Writes (p >>= f) tree rest := by
  intro w htree hschedule hcapacity
  rw [Action.bind_of_ok (hp w htree hschedule), hf w htree hschedule hcapacity]

theorem map_err {p : Action ε Unit} {f : ε → ε'} (hp : Writes p tree output) : Writes (Action.map_err f p) tree output :=
  fun w htree hschedule hcapacity => Action.map_err_eq_ok_iff.mpr (hp w htree hschedule hcapacity)

theorem write_sink (bytes : List UInt8) : Writes (file_system.write_sink bytes) tree bytes := by
  intro w _ _ hcapacity
  rw [file_system.write_sink, hcapacity]

end Writes

end file_system
