import Mathlib.Data.Multiset.MapFold
import Mathlib.Tactic.Common

/-!
# Interleavings

A list that takes the elements of several lists, each time the first one of a list.  The lists have
no order among themselves, and equal lists count as often as they occur.
-/

universe u

inductive Interleaves {α : Type u} : Multiset (List α) → List α → Prop where
  | nil : Interleaves 0 []
  | done {lists : Multiset (List α)} {out : List α} :
      Interleaves lists out → Interleaves ([] ::ₘ lists) out
  | take {x : α} {xs : List α} {lists : Multiset (List α)} {out : List α} :
      Interleaves (xs ::ₘ lists) out → Interleaves ((x :: xs) ::ₘ lists) (x :: out)

namespace Interleaves

variable {α : Type u} {lists : Multiset (List α)} {out : List α}

/-- Nothing is added. -/
theorem exists_mem (h : Interleaves lists out) {x : α} (hx : x ∈ out) :
    ∃ xs ∈ lists, x ∈ xs := by
  induction h with
  | nil => exact nomatch hx
  | done _ ih =>
    obtain ⟨xs, hxs, hmem⟩ := ih hx
    exact ⟨xs, Multiset.mem_cons_of_mem hxs, hmem⟩
  | @take y ys lists out _ ih =>
    rcases List.mem_cons.mp hx with rfl | hx
    · exact ⟨x :: ys, Multiset.mem_cons_self _ _, List.mem_cons_self⟩
    · obtain ⟨xs, hxs, hmem⟩ := ih hx
      rcases Multiset.mem_cons.mp hxs with rfl | hxs
      · exact ⟨y :: xs, Multiset.mem_cons_self _ _, List.mem_cons_of_mem _ hmem⟩
      · exact ⟨xs, Multiset.mem_cons_of_mem hxs, hmem⟩

/-- An element that is before all others may be taken first. -/
theorem pairwise_cons {R : α → α → Prop} (h : Interleaves lists out) (hout : out.Pairwise R) {x : α}
    (hx : ∀ xs ∈ lists, ∀ y ∈ xs, R x y) : (x :: out).Pairwise R := by
  refine .cons (fun y hy => ?_) hout
  obtain ⟨xs, hxs, hmem⟩ := h.exists_mem hy
  exact hx xs hxs y hmem

/-- A single list is taken as it is. -/
theorem eq_of_singleton {xs : List α} (h : Interleaves {xs} out) : out = xs := by
  generalize hlists : ({xs} : Multiset (List α)) = lists at h
  induction h generalizing xs with
  | nil => exact absurd hlists (Multiset.singleton_ne_zero xs)
  | @done lists out hrest _ =>
    obtain ⟨rfl, rfl⟩ := (Multiset.singleton_eq_cons_iff _).mp hlists
    cases hrest' : out with
    | nil => rfl
    | cons y ys =>
      obtain ⟨ys, hmem, -⟩ := hrest.exists_mem (hrest' ▸ List.mem_cons_self)
      exact absurd hmem (Multiset.notMem_zero _)
  | @take x ys lists out _ ih =>
    obtain ⟨rfl, rfl⟩ := (Multiset.singleton_eq_cons_iff _).mp hlists
    rw [ih rfl]

end Interleaves
