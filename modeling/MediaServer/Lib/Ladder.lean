import Mathlib.Data.List.Induction
import Mathlib.Order.Bounds.Basic
import Mathlib.Tactic.Common

/-!
# The greatest place that a budget affords

A ladder lists places with a price each, in the order of the places; the prices need not rise with
them.  It is climbed in one pass that keeps the last place the budget affords, from a ground that
is free.  That pass finds the greatest place, and a greater budget never leads to a lower one.

A budget may be cut on its way to the pass.  The pass then still finds the greatest place, and is
still monotone below the budget, exactly when the cut budget *keeps up* with the whole one.
-/

namespace Ladder

variable {Place Price : Type}

section

variable [LE Price] [DecidableLE Price]

/-- The pass. -/
def climb (budget : Price) (ground : Place) (rungs : List (Place × Price)) : Place :=
  rungs.foldl (fun place rung => if rung.2 ≤ budget then rung.1 else place) ground

theorem climb_concat (budget : Price) (ground : Place) (rungs : List (Place × Price))
    (rung : Place × Price) :
    climb budget ground (rungs ++ [rung]) =
      if rung.2 ≤ budget then rung.1 else climb budget ground rungs := by
  rw [climb, List.foldl_append]
  rfl

/-- The pass over some other description of the places. -/
theorem climb_map {Place' : Type} (f : Place → Place') (budget : Price) (ground : Place)
    (rungs : List (Place × Price)) :
    f (climb budget ground rungs) =
      climb budget (f ground) (rungs.map fun rung => (f rung.1, rung.2)) := by
  induction rungs using List.reverseRecOn with
  | nil => rfl
  | append_singleton rungs rung ih =>
    rw [List.map_append, List.map_singleton, climb_concat, climb_concat]
    split
    · rfl
    · exact ih

end

/-- The places that the budget affords. -/
def afforded [LE Price] (budget : Price) (rungs : List (Place × Price)) : Set Place :=
  {place | ∃ price, (place, price) ∈ rungs ∧ price ≤ budget}

/-- The greatest place that the budget affords, or the ground where it affords none. -/
def Best [LE Place] [LE Price] (budget : Price) (ground : Place) (rungs : List (Place × Price))
    (place : Place) : Prop :=
  IsGreatest (afforded budget rungs) place ∨ (afforded budget rungs = ∅ ∧ place = ground)

/-- Whatever one budget affords is the ground, or the other affords a place that is as great. -/
def KeepsUp [LE Place] [LE Price] (ground : Place) (rungs : List (Place × Price))
    (cut budget : Price) : Prop :=
  ∀ place ∈ afforded budget rungs, place ≤ ground ∨ ∃ place' ∈ afforded cut rungs, place ≤ place'

theorem afforded_mono [Preorder Price] {budget budget' : Price} (h : budget ≤ budget')
    (rungs : List (Place × Price)) : afforded budget rungs ⊆ afforded budget' rungs := by
  intro place hplace
  obtain ⟨price, hmem, hprice⟩ := hplace
  exact ⟨price, hmem, hprice.trans h⟩

/-- A budget that is not cut keeps up. -/
theorem keepsUp_refl [Preorder Place] [LE Price] (ground : Place) (rungs : List (Place × Price))
    (budget : Price) : KeepsUp ground rungs budget budget :=
  fun place hplace => Or.inr ⟨place, hplace, le_rfl⟩

section

variable [PartialOrder Place] [Preorder Price] [DecidableLE Price] {ground : Place}
  {rungs : List (Place × Price)} {cut budget : Price}

theorem climb_best (hrungs : rungs.Pairwise fun low high => low.1 ≤ high.1) (budget : Price)
    (ground : Place) : Best budget ground rungs (climb budget ground rungs) := by
  induction rungs using List.reverseRecOn with
  | nil =>
    refine Or.inr ⟨?_, rfl⟩
    refine Set.eq_empty_of_forall_notMem fun place hplace => ?_
    obtain ⟨price, hmem, -⟩ := hplace
    cases hmem
  | append_singleton rungs rung ih =>
    obtain ⟨hbefore, -, hlast⟩ := List.pairwise_append.mp hrungs
    rw [climb_concat]
    by_cases hrung : rung.2 ≤ budget
    · rw [if_pos hrung]
      refine Or.inl ⟨⟨rung.2, List.mem_append_right _ (List.mem_singleton_self _), hrung⟩, ?_⟩
      intro place hplace
      obtain ⟨price, hmem, -⟩ := hplace
      rcases List.mem_append.mp hmem with hmem | hmem
      · exact hlast _ hmem rung (List.mem_singleton_self _)
      · rw [List.mem_singleton] at hmem
        exact le_of_eq (congrArg Prod.fst hmem)
    · rw [if_neg hrung]
      have hsame : afforded budget (rungs ++ [rung]) = afforded budget rungs := by
        ext place
        constructor
        · intro hplace
          obtain ⟨price, hmem, hprice⟩ := hplace
          rcases List.mem_append.mp hmem with hmem | hmem
          · exact ⟨price, hmem, hprice⟩
          · rw [List.mem_singleton] at hmem
            subst hmem
            exact absurd hprice hrung
        · intro hplace
          obtain ⟨price, hmem, hprice⟩ := hplace
          exact ⟨price, List.mem_append_left _ hmem, hprice⟩
      rw [Best, hsame]
      exact ih hbefore

/-- What a lesser budget leads to is not above what the greater one best leads to. -/
theorem climb_le (hrungs : rungs.Pairwise fun low high => low.1 ≤ high.1)
    (hground : ∀ rung ∈ rungs, ground ≤ rung.1) (hcut : cut ≤ budget) {place : Place}
    (hbest : Best budget ground rungs place) : climb cut ground rungs ≤ place := by
  have hfloor : ground ≤ place := by
    rcases hbest with ⟨⟨price, hmem, -⟩, -⟩ | ⟨-, rfl⟩
    · exact hground _ hmem
    · exact le_rfl
  rcases climb_best hrungs cut ground with ⟨hin, -⟩ | ⟨-, heq⟩
  · rcases hbest with hbest | ⟨hnone, -⟩
    · exact hbest.2 (afforded_mono hcut rungs hin)
    · have hin' := afforded_mono hcut rungs hin
      rw [hnone] at hin'
      exact absurd hin' (Set.notMem_empty _)
  · rw [heq]
    exact hfloor

theorem climb_mono (hrungs : rungs.Pairwise fun low high => low.1 ≤ high.1)
    (hground : ∀ rung ∈ rungs, ground ≤ rung.1) (hcut : cut ≤ budget) :
    climb cut ground rungs ≤ climb budget ground rungs :=
  climb_le hrungs hground hcut (climb_best hrungs budget ground)

/-- **What a cut loses.**  With a cut budget the pass finds what the whole budget best leads to
    exactly when the cut budget keeps up. -/
theorem climb_cut_best_iff (hrungs : rungs.Pairwise fun low high => low.1 ≤ high.1)
    (hground : ∀ rung ∈ rungs, ground ≤ rung.1) (hcut : cut ≤ budget) :
    Best budget ground rungs (climb cut ground rungs) ↔ KeepsUp ground rungs cut budget := by
  constructor
  · intro hbest place hplace
    have hbelow : place ≤ climb cut ground rungs := by
      rcases hbest with hbest | ⟨hnone, -⟩
      · exact hbest.2 hplace
      · rw [hnone] at hplace
        exact absurd hplace (Set.notMem_empty _)
    rcases climb_best hrungs cut ground with ⟨hin, -⟩ | ⟨-, heq⟩
    · exact Or.inr ⟨_, hin, hbelow⟩
    · exact Or.inl (heq ▸ hbelow)
  · intro hkeeps
    suffices hsame : climb cut ground rungs = climb budget ground rungs by
      rw [hsame]
      exact climb_best hrungs budget ground
    refine le_antisymm (climb_mono hrungs hground hcut) ?_
    have hfloor : ground ≤ climb cut ground rungs := by
      rcases climb_best hrungs cut ground with ⟨⟨price, hmem, -⟩, -⟩ | ⟨-, heq⟩
      · exact hground _ hmem
      · exact heq.ge
    rcases climb_best hrungs budget ground with ⟨hin, -⟩ | ⟨-, heq⟩
    · rcases hkeeps _ hin with hlow | ⟨place', hplace', hle⟩
      · exact hlow.trans hfloor
      · rcases climb_best hrungs cut ground with ⟨-, htop⟩ | ⟨hnone, -⟩
        · exact hle.trans (htop hplace')
        · rw [hnone] at hplace'
          exact absurd hplace' (Set.notMem_empty _)
    · exact heq.trans_le hfloor

end

end Ladder
