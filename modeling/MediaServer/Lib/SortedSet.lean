import Mathlib.Data.List.Pairwise
import Mathlib.Order.Lattice
import Mathlib.Tactic.Common

/-!
# Sorted sets

A set that is kept as the increasing list of its elements.  The rank of a value is the number of
elements below it, which is also the index where a binary search finds it or would put it.
-/

namespace Collections

/-- The elements of a set in increasing order. -/
structure SortedSet (α : Type) [LinearOrder α] where
  items : List α
  sorted : items.Pairwise (· < ·)
deriving DecidableEq

namespace SortedSet

variable {α : Type} [LinearOrder α]

instance : EmptyCollection (SortedSet α) := ⟨⟨[], List.Pairwise.nil⟩⟩

instance : Membership α (SortedSet α) := ⟨fun s a => a ∈ s.items⟩

instance (s : SortedSet α) (a : α) : Decidable (a ∈ s) := inferInstanceAs (Decidable (a ∈ s.items))

def size (s : SortedSet α) : Nat := s.items.length

/-- The number of elements below a value. -/
def rank (s : SortedSet α) (a : α) : Nat := s.items.countP (· < a)

def insert (s : SortedSet α) (a : α) : SortedSet α where
  items := s.items.filter (· < a) ++ a :: s.items.filter (a < ·)
  sorted := by
    rw [List.pairwise_append, List.pairwise_cons]
    refine ⟨s.sorted.filter _, ⟨?_, s.sorted.filter _⟩, ?_⟩
    · intro b hb
      exact of_decide_eq_true (List.mem_filter.mp hb).2
    · intro b hb c hc
      have hlow : b < a := of_decide_eq_true (List.mem_filter.mp hb).2
      rcases List.mem_cons.mp hc with rfl | hhigh
      · exact hlow
      · exact lt_trans hlow (of_decide_eq_true (List.mem_filter.mp hhigh).2)

/-- Remove the smallest elements. -/
def dropFirst (s : SortedSet α) (count : Nat) : SortedSet α where
  items := s.items.drop count
  sorted := s.sorted.sublist (List.drop_sublist count s.items)

@[simp] theorem items_empty : (∅ : SortedSet α).items = [] := rfl

theorem mem_iff {s : SortedSet α} {a : α} : a ∈ s ↔ a ∈ s.items := Iff.rfl

/-- A value above all elements is put at the end. -/
theorem items_insert_of_lt {s : SortedSet α} {a : α} (h : ∀ b ∈ s.items, b < a) :
    (s.insert a).items = s.items ++ [a] := by
  have hlow : s.items.filter (· < a) = s.items := by
    rw [List.filter_eq_self]
    intro b hb
    exact decide_eq_true (h b hb)
  have hhigh : s.items.filter (a < ·) = [] := by
    rw [List.filter_eq_nil_iff]
    intro b hb hlt
    exact lt_asymm (h b hb) (of_decide_eq_true hlt)
  simp only [insert, hlow, hhigh]

/-- A value above all elements has all of them below it. -/
theorem rank_of_lt {s : SortedSet α} {a : α} (h : ∀ b ∈ s.items, b < a) : s.rank a = s.size :=
  List.countP_eq_length.mpr fun b hb => decide_eq_true (h b hb)

theorem rank_le_size (s : SortedSet α) (a : α) : s.rank a ≤ s.size := List.countP_le_length

end SortedSet

end Collections
