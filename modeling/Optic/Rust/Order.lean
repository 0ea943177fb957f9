import Mathlib.Data.List.Sort
import Optic.Rust.Path

namespace rust

/-- A comparison that sorting may use. Elements that it does not tell apart may still differ. -/
structure SortOrder (α : Type) where
  le : α → α → Bool
  trans : ∀ a b c, le a b → le b c → le a c
  total : ∀ a b, le a b || le b a

namespace SortOrder

variable {α : Type}

/-- `slice::sort`, which is stable. -/
def sort (order : SortOrder α) (l : List α) : List α := l.mergeSort order.le

theorem sort_perm (order : SortOrder α) (l : List α) : (order.sort l).Perm l := List.mergeSort_perm l order.le

theorem mem_sort {order : SortOrder α} {l : List α} {a : α} : a ∈ order.sort l ↔ a ∈ l := List.mem_mergeSort

theorem sort_ordered (order : SortOrder α) (l : List α) : (order.sort l).Pairwise fun a b => order.le a b :=
  List.pairwise_mergeSort order.trans order.total l

/-- Sorting what is sorted changes nothing. -/
theorem sort_sort (order : SortOrder α) (l : List α) : order.sort (order.sort l) = order.sort l :=
  List.mergeSort_of_pairwise (order.sort_ordered l)

/-- The order tells the elements of a list apart. -/
def Separates (order : SortOrder α) (l : List α) : Prop := ∀ a ∈ l, ∀ b ∈ l, order.le a b → order.le b a → a = b

/-- Where the order tells elements apart, sorted lists are equal exactly when the lists hold the same elements
equally often. -/
theorem sort_eq_iff_perm {order : SortOrder α} {l l' : List α} (h : order.Separates l) :
    order.sort l = order.sort l' ↔ l.Perm l' := by
  constructor
  · intro heq
    exact (order.sort_perm l).symm.trans (heq ▸ order.sort_perm l')
  · intro hperm
    have hsorted := (order.sort_perm l).trans (hperm.trans (order.sort_perm l').symm)
    refine hsorted.eq_of_pairwise (fun a b ha hb => ?_) (order.sort_ordered l) (order.sort_ordered l')
    exact h a (mem_sort.mp ha) b (hperm.mem_iff.mpr (mem_sort.mp hb))

/-- The order of a type whose order is linear. -/
def linear (α : Type) [LinearOrder α] : SortOrder α where
  le a b := a ≤ b
  trans a b c hab hbc := by
    rw [decide_eq_true_eq] at hab hbc ⊢
    exact le_trans hab hbc
  total a b := by simpa using le_total a b

theorem linear_separates [LinearOrder α] (l : List α) : (linear α).Separates l := fun _ _ _ _ hab hba =>
  le_antisymm (of_decide_eq_true hab) (of_decide_eq_true hba)

/-- The order of what the elements are mapped to. -/
def on {β : Type} [Ord β] [Std.TransOrd β] (key : α → β) : SortOrder α where
  le a b := (compare (key a) (key b)).isLE
  trans _ _ _ := Std.TransOrd.isLE_trans
  total a b := by
    rw [Bool.or_eq_true, Std.OrientedOrd.eq_swap (a := key b)]
    cases compare (key a) (key b) <;> simp

/-- Elements that compare alike have one key. -/
theorem on_separates {β : Type} [Ord β] [Std.TransOrd β] [Std.LawfulEqOrd β] {key : α → β} {l : List α}
    (h : ∀ a ∈ l, ∀ b ∈ l, key a = key b → a = b) : (on key).Separates l := by
  intro a ha b hb hab hba
  exact h a ha b hb (Std.LawfulEqOrd.eq_of_compare (Std.OrientedCmp.isLE_antisymm hab hba))

end SortOrder

/-- Where a component stands among others: its kind first, then the bytes of its name. -/
def Component.rank : Component → List UInt8
  | .RootDir => [1]
  | .CurDir => [2]
  | .ParentDir => [3]
  | .Normal name => 4 :: name

theorem Component.rank_injective : Function.Injective Component.rank := by
  intro a b h
  cases a <;> cases b <;> simp_all [Component.rank]

/-- Texts are ordered by their bytes. -/
def text_order : SortOrder String := .on text

/-- Paths are ordered by their components. -/
def path_order : SortOrder PathBuf := .on fun path => path.components.map Component.rank

theorem text_order_separates (l : List String) : text_order.Separates l :=
  SortOrder.on_separates fun _ _ _ _ h => text_injective h

/-- Paths that compare alike have the same components. -/
theorem path_order_separates {l : List PathBuf} (h : ∀ a ∈ l, ∀ b ∈ l, a.components = b.components → a = b) :
    path_order.Separates l :=
  SortOrder.on_separates fun a ha b hb hkey => h a ha b hb (List.map_injective_iff.mpr Component.rank_injective hkey)

end rust
