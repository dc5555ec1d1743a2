import Mathlib.Order.Defs.Unbundled
import Mathlib.Data.List.Basic

/-!
# Sets kept in order

A set as an ordered container holds it: its elements in increasing order, each of them once. `insertAll`
and `eraseAll` keep the order, and `mem_insertAll` and `mem_eraseAll` say what they do as operations on sets.

The order is a field of the structure, so two sets with the same elements are equal and a listing of one is
sorted without a further proof. Arguments come as lists in any order and with repetitions.
-/

universe u

/-- A set, its elements in increasing order. -/
structure OrderedSet (α : Type u) [LT α] where
  elems : List α
  sorted : elems.Pairwise (· < ·)

namespace OrderedSet

variable {α : Type u} [LT α]

instance : Membership α (OrderedSet α) := ⟨fun s x ↦ x ∈ s.elems⟩

instance : EmptyCollection (OrderedSet α) := ⟨[], .nil⟩

theorem notMem_empty (x : α) : x ∉ (∅ : OrderedSet α) := List.not_mem_nil

variable [DecidableEq α] {s : OrderedSet α} {x : α}

/-- Remove an element. -/
def erase (s : OrderedSet α) (a : α) : OrderedSet α where
  elems := s.elems.filter (· ≠ a)
  sorted := s.sorted.filter _

/-- Remove elements one after the other. -/
def eraseAll (s : OrderedSet α) (l : List α) : OrderedSet α := l.foldl erase s

theorem mem_erase {a : α} : x ∈ s.erase a ↔ x ∈ s ∧ x ≠ a :=
  List.mem_filter.trans (and_congr_right' decide_eq_true_iff)

/-- Erasing a list takes all of its elements out. -/
theorem mem_eraseAll {l : List α} : x ∈ s.eraseAll l ↔ x ∈ s ∧ x ∉ l := by
  induction l generalizing s with
  | nil => exact (and_iff_left List.not_mem_nil).symm
  | cons a l ih =>
    rw [eraseAll, List.foldl_cons, ← eraseAll, ih, mem_erase, List.mem_cons, not_or, and_assoc]

variable [DecidableLT α]

/-- Put an element at its place in a sorted list. -/
def place (a : α) : List α → List α
  | [] => [a]
  | b :: l => if a = b then b :: l else if a < b then a :: b :: l else b :: place a l

/-- Placing adds one element. -/
theorem mem_place {a : α} {l : List α} : x ∈ place a l ↔ x = a ∨ x ∈ l := by
  induction l with
  | nil => rw [place, List.mem_singleton, or_iff_left List.not_mem_nil]
  | cons b l ih =>
    rw [place]
    split
    case isTrue h => rw [h, List.mem_cons, or_self_left]
    case isFalse =>
      split
      · rw [List.mem_cons]
      · rw [List.mem_cons, List.mem_cons, ih, or_left_comm]

variable [IsTrans α (· < ·)] [Std.Trichotomous (α := α) (· < ·)]

/-- Placing keeps the order; an element that is there already is not placed again. -/
theorem sorted_place {a : α} {l : List α} (h : l.Pairwise (· < ·)) : (place a l).Pairwise (· < ·) := by
  induction l with
  | nil => exact List.pairwise_singleton _ a
  | cons b l ih =>
    obtain ⟨hb, hl⟩ := List.pairwise_cons.1 h
    rw [place]
    split
    case isTrue => exact h
    case isFalse hne =>
      split
      case isTrue hlt =>
        refine List.pairwise_cons.2 ⟨fun y hy ↦ ?_, h⟩
        rcases List.mem_cons.1 hy with rfl | hy
        · exact hlt
        · exact IsTrans.trans a b y hlt (hb y hy)
      case isFalse hlt =>
        refine List.pairwise_cons.2 ⟨fun y hy ↦ ?_, ih hl⟩
        rcases mem_place.1 hy with rfl | hy
        · by_contra hnot
          exact hne (Std.Trichotomous.trichotomous y b hlt hnot)
        · exact hb y hy

/-- Add an element. -/
def insert (s : OrderedSet α) (a : α) : OrderedSet α := ⟨place a s.elems, sorted_place s.sorted⟩

/-- Add elements one after the other. -/
def insertAll (s : OrderedSet α) (l : List α) : OrderedSet α := l.foldl insert s

theorem mem_insert {a : α} : x ∈ s.insert a ↔ x = a ∨ x ∈ s := mem_place

/-- Inserting a list is the union with its elements. -/
theorem mem_insertAll {l : List α} : x ∈ s.insertAll l ↔ x ∈ s ∨ x ∈ l := by
  induction l generalizing s with
  | nil => exact (or_iff_left List.not_mem_nil).symm
  | cons a l ih =>
    rw [insertAll, List.foldl_cons, ← insertAll, ih, mem_insert, List.mem_cons, or_assoc, or_left_comm]

end OrderedSet
