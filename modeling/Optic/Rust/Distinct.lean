import Optic.Rust.Outcome

namespace rust

variable {ε α κ : Type}

/-- A loop that inserts the keys of its elements into hash sets: it stops at an element
that conflicts with an earlier one, and checks every other element. -/
def each_distinct (conflict : α → α → Bool) (duplicate : α → ε) (check : α → Except ε Unit) :
    List α → List α → Except ε Unit
  | _, [] => .ok ()
  | seen, a :: rest =>
    if seen.any (conflict a) then .error (duplicate a)
    else do
      check a
      each_distinct conflict duplicate check (a :: seen) rest

/-- The loop passes exactly when every element does and no two of them conflict. -/
theorem each_distinct_eq_ok_iff {conflict : α → α → Bool} {duplicate : α → ε} {check : α → Except ε Unit}
    (l : List α) : ∀ seen, each_distinct conflict duplicate check seen l = .ok () ↔
      (∀ a ∈ l, check a = .ok ()) ∧ l.Pairwise (fun b a => conflict a b = false) ∧
        ∀ a ∈ l, ∀ b ∈ seen, conflict a b = false := by
  induction l with
  | nil => simp [each_distinct]
  | cons a rest ih =>
    intro seen
    rw [each_distinct]
    by_cases hseen : seen.any (conflict a)
    · obtain ⟨b, hb, hconflict⟩ := List.any_eq_true.mp hseen
      rw [if_pos hseen]
      constructor
      · exact nofun
      · rintro ⟨-, -, hapart⟩
        have happart := hapart a List.mem_cons_self b hb
        rw [hconflict] at happart
        cases happart
    · have hnone : ∀ b ∈ seen, conflict a b = false := by simpa using hseen
      rw [if_neg hseen, bind_eq_ok_iff]
      simp only [ih, List.forall_mem_cons, List.pairwise_cons]
      constructor
      · rintro ⟨⟨⟩, hcheck, hrest, hpairs, hapart⟩
        exact ⟨⟨hcheck, hrest⟩, ⟨fun c hc => (hapart c hc).1, hpairs⟩, hnone, fun c hc => (hapart c hc).2⟩
      · rintro ⟨⟨hcheck, hrest⟩, ⟨hfirst, hpairs⟩, -, hapart⟩
        exact ⟨(), hcheck, hrest, hpairs, fun c hc => ⟨hfirst c hc, hapart c hc⟩⟩

/-- Where no two elements conflict, only the check of one of them stops the loop. -/
theorem each_distinct_error {conflict : α → α → Bool} {duplicate : α → ε} {check : α → Except ε Unit} {error : ε}
    (l : List α) : ∀ {seen}, each_distinct conflict duplicate check seen l = .error error →
      l.Pairwise (fun b a => conflict a b = false) → (∀ a ∈ l, ∀ b ∈ seen, conflict a b = false) →
        ∃ a ∈ l, check a = .error error := by
  induction l with
  | nil => exact nofun
  | cons a rest ih =>
    intro seen h hpairs hapart
    obtain ⟨hfirst, hpairs⟩ := List.pairwise_cons.mp hpairs
    obtain ⟨hseen, hapart⟩ := List.forall_mem_cons.mp hapart
    have hnone : ¬ seen.any (conflict a) = true := by simpa using hseen
    rw [each_distinct, if_neg hnone] at h
    obtain h | h := unit_bind_eq_error h
    · exact ⟨a, List.mem_cons_self, h⟩
    · obtain ⟨b, hb, hcheck⟩ := ih h hpairs fun c hc => List.forall_mem_cons.mpr ⟨hfirst c hc, hapart c hc⟩
      exact ⟨b, List.mem_cons_of_mem a hb, hcheck⟩

variable [DecidableEq κ]

/-- Whether two elements have one key. -/
def same_key (key : α → κ) (a b : α) : Bool := key a = key b

/-- Elements without a common key have distinct keys. -/
theorem pairwise_same_key_iff {key : α → κ} {l : List α} :
    (l.Pairwise fun b a => same_key key a b = false) ↔ (l.map key).Nodup := by
  rw [List.Nodup, List.pairwise_map]
  constructor
  · exact fun h => h.imp fun hapart heq => absurd heq.symm (of_decide_eq_false hapart)
  · exact fun h => h.imp fun hapart => decide_eq_false fun heq => hapart heq.symm

/-- A loop over one hash set of keys. -/
theorem each_distinct_key_eq_ok_iff {key : α → κ} {duplicate : α → ε} {check : α → Except ε Unit} {l : List α} :
    each_distinct (same_key key) duplicate check [] l = .ok () ↔
      (∀ a ∈ l, check a = .ok ()) ∧ (l.map key).Nodup := by
  simp [each_distinct_eq_ok_iff, pairwise_same_key_iff]

theorem each_distinct_key_error {key : α → κ} {duplicate : α → ε} {check : α → Except ε Unit} {l : List α} {error : ε}
    (h : each_distinct (same_key key) duplicate check [] l = .error error) (hdistinct : (l.map key).Nodup) :
    ∃ a ∈ l, check a = .error error :=
  each_distinct_error l h (pairwise_same_key_iff.mpr hdistinct) nofun

end rust
