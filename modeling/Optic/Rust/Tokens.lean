import Mathlib.Data.List.Destutter
import Optic.Rust.Order

namespace rust

section Split

variable {separator : Char → Bool}

/-- `str::split` at the characters that a closure picks. -/
def split (separator : Char → Bool) (s : String) : List String := (s.toList.splitOnP separator).map String.ofList

/-- The parts of a text that are not empty. -/
def tokens (separator : Char → Bool) (s : String) : List String := (split separator s).filter (· ≠ "")

/-- A text that splitting keeps whole. -/
structure Token (separator : Char → Bool) (s : String) : Prop where
  named : s ≠ ""
  whole : ∀ c ∈ s.toList, separator c = false

theorem forall_mem_splitOnP {chars part : List Char} (h : part ∈ chars.splitOnP separator) :
    ∀ c ∈ part, separator c = false := by
  induction chars generalizing part with
  | nil =>
    rw [List.splitOnP_nil, List.mem_singleton] at h
    rw [h]
    exact List.forall_mem_nil _
  | cons c chars ih =>
    rw [List.splitOnP_cons_eq_if_modifyHead] at h
    by_cases hc : separator c = true
    · rw [if_pos hc, List.mem_cons] at h
      rcases h with rfl | h
      · exact List.forall_mem_nil _
      · exact ih h
    · obtain ⟨first, rest, hparts⟩ := List.exists_cons_of_ne_nil (List.splitOnP_ne_nil separator chars)
      rw [if_neg hc, hparts, List.modifyHead_cons, List.mem_cons] at h
      rw [hparts] at ih
      rcases h with rfl | h
      · rw [List.forall_mem_cons]
        exact ⟨Bool.eq_false_of_not_eq_true hc, ih List.mem_cons_self⟩
      · exact ih (List.mem_cons_of_mem first h)

theorem token_of_mem {s name : String} (h : name ∈ tokens separator s) : Token separator name := by
  rw [tokens, List.mem_filter, split, List.mem_map] at h
  obtain ⟨⟨part, hpart, rfl⟩, hnamed⟩ := h
  refine ⟨of_decide_eq_true hnamed, ?_⟩
  rw [String.toList_ofList]
  exact forall_mem_splitOnP hpart

theorem tokens_of_token {s : String} (h : Token separator s) : tokens separator s = [s] := by
  rw [tokens, split, List.splitOnP_eq_singleton h.whole, List.map_singleton, String.ofList_toList,
    List.filter_singleton, decide_eq_true h.named]
  rfl

theorem tokens_empty : tokens separator "" = [] := by
  rw [tokens, split, String.toList_empty, List.splitOnP_nil]
  rfl

/-- Splitting undoes a separator between two texts. -/
theorem tokens_append_separator {s t : String} {c : Char} (hc : separator c = true) :
    tokens separator (s ++ String.singleton c ++ t) = tokens separator s ++ tokens separator t := by
  rw [tokens, split, String.toList_append, String.toList_append, String.toList_singleton, List.append_assoc,
    List.singleton_append, List.splitOnP_append_cons _ _ hc, List.map_append, List.filter_append]
  rfl

theorem tokens_join {c : Char} (hc : separator c = true) (l : List String) :
    tokens separator ((String.singleton c).intercalate l) = l.flatMap (tokens separator) := by
  induction l with
  | nil => exact tokens_empty
  | cons s l ih =>
    cases l with
    | nil => rw [String.intercalate_singleton, List.flatMap_singleton]
    | cons t l =>
      rw [String.intercalate_cons_cons, tokens_append_separator hc, ih]
      rfl

theorem flatMap_tokens {l : List String} (h : ∀ s ∈ l, Token separator s) : l.flatMap (tokens separator) = l := by
  induction l with
  | nil => rfl
  | cons s l ih =>
    rw [List.forall_mem_cons] at h
    rw [List.flatMap_cons, tokens_of_token h.1, ih h.2, List.singleton_append]

end Split

/-- `Vec::dedup`: one element of each run of equal ones. -/
def dedup {α : Type} [DecidableEq α] (l : List α) : List α := l.destutter (· ≠ ·)

namespace SortOrder

variable {α : Type} {order : SortOrder α}

/-- The order tells all elements apart. -/
def Linear (order : SortOrder α) : Prop := ∀ a b, order.le a b → order.le b a → a = b

/-- Each element comes before all later ones. -/
def Increasing (order : SortOrder α) (l : List α) : Prop := l.Pairwise fun a b => order.le a b = true ∧ a ≠ b

/-- Increasing lists with the same elements are equal. -/
theorem Increasing.eq_of_mem_iff (horder : order.Linear) {l l' : List α} (hl : order.Increasing l)
    (hl' : order.Increasing l') (h : ∀ a, a ∈ l ↔ a ∈ l') : l = l' := by
  have : Std.Irrefl fun a b => order.le a b = true ∧ a ≠ b := ⟨fun a h => h.2 rfl⟩
  have : Std.Antisymm fun a b => order.le a b = true ∧ a ≠ b := ⟨fun a b hab hba => horder a b hab.1 hba.1⟩
  exact List.Pairwise.eq_of_mem_iff hl hl' h

variable [DecidableEq α]

/-- Sorted, and each element once. -/
def normal (order : SortOrder α) (l : List α) : List α := dedup (order.sort l)

theorem normal_eq_dedup (horder : order.Linear) (l : List α) : order.normal l = (order.sort l).dedup := by
  have : Std.Antisymm fun a b => order.le a b = true := ⟨horder⟩
  exact (order.sort_ordered l).destutter_eq_dedup

theorem mem_normal (horder : order.Linear) {l : List α} {a : α} : a ∈ order.normal l ↔ a ∈ l := by
  rw [normal_eq_dedup horder, List.mem_dedup, mem_sort]

theorem normal_increasing (horder : order.Linear) (l : List α) : order.Increasing (order.normal l) := by
  have hordered := (order.sort_ordered l).sublist (List.dedup_sublist _)
  have hdistinct := List.nodup_dedup (order.sort l)
  rw [normal_eq_dedup horder]
  exact hordered.and hdistinct

/-- Lists have one normal form exactly if they have the same elements. -/
theorem normal_eq_iff (horder : order.Linear) {l l' : List α} :
    order.normal l = order.normal l' ↔ ∀ a, a ∈ l ↔ a ∈ l' := by
  constructor
  · intro h a
    rw [← mem_normal horder, h, mem_normal horder]
  · intro h
    apply (normal_increasing horder l).eq_of_mem_iff horder (normal_increasing horder l')
    intro a
    rw [mem_normal horder, mem_normal horder, h]

theorem normal_of_increasing (horder : order.Linear) {l : List α} (h : order.Increasing l) : order.normal l = l :=
  (normal_increasing horder l).eq_of_mem_iff horder h fun _ => mem_normal horder

end SortOrder

theorem text_order_linear : text_order.Linear := fun a b =>
  text_order_separates [a, b] a List.mem_cons_self b (List.mem_cons_of_mem a (List.mem_singleton_self b))

end rust
