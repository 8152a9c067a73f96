import Mathlib.Data.List.Basic
import Mathlib.Tactic.Common

/-!
# Lifecycles

A component announces its life to an owner: the first announcement opens it, some
announcement may close it, and nothing follows that one.  The owner cares about the
trace of announcements, the component only knows which phase of its life it is in.
`At` ties the two together and `At.move` is the induction step: a component that
makes no other moves than the allowed ones leaves a well-formed trace.
-/

namespace Lifecycle

variable {α : Type} {opens closes : α → Prop}

/-- The trace opens as it should, and nothing follows what closes it. -/
structure WellFormed (opens closes : α → Prop) (trace : List α) : Prop where
  opened : ∀ a ∈ trace.head?, opens a
  closed : ∀ before a after, trace = before ++ a :: after → closes a → after = []

inductive Phase where
  | fresh
  | live
  | shut
deriving DecidableEq, Repr

/-- What may be announced in a phase, and the phase that follows. -/
inductive Moves (opens closes : α → Prop) : Phase → List α → Phase → Prop
  | stay (phase : Phase) : Moves opens closes phase [] phase
  | start {a : α} (hopens : opens a) (hcloses : ¬closes a) :
      Moves opens closes .fresh [a] .live
  | carryOn {a : α} (hcloses : ¬closes a) : Moves opens closes .live [a] .live
  | finish {a : α} (hcloses : closes a) : Moves opens closes .live [a] .shut

/-- The trace is well formed and has come as far as the phase says. -/
structure At (opens closes : α → Prop) (trace : List α) (phase : Phase) : Prop where
  wellFormed : WellFormed opens closes trace
  fresh_iff : phase = .fresh ↔ trace = []
  shut_iff : phase = .shut ↔ ∃ a ∈ trace, closes a

theorem At.nil : At opens closes [] .fresh := by
  refine ⟨⟨by simp, ?_⟩, by simp, by simp⟩
  intro before a after htrace
  simp at htrace

/-- One more announcement keeps a trace well formed if nothing closed it before. -/
theorem WellFormed.concat {trace : List α} {a : α} (h : WellFormed opens closes trace)
    (hopen : ∀ b ∈ trace, ¬closes b) (hfirst : trace = [] → opens a) :
    WellFormed opens closes (trace ++ [a]) := by
  refine ⟨?_, ?_⟩
  · intro b hb
    cases trace with
    | nil =>
      cases hb
      exact hfirst rfl
    | cons c trace => exact h.opened b hb
  · intro before b after htrace hcloses
    rcases List.eq_nil_or_concat after with rfl | ⟨rest, c, rfl⟩
    · rfl
    · -- what closes stands before the last announcement, so in the old trace
      rw [List.concat_eq_append, ← List.cons_append, ← List.append_assoc] at htrace
      have hold := List.append_inj_left' htrace rfl
      exact absurd hcloses (hopen b (by simp [hold]))

theorem At.open {trace : List α} {phase : Phase} (h : At opens closes trace phase)
    (hphase : phase ≠ .shut) : ∀ a ∈ trace, ¬closes a := by
  intro a hmem hcloses
  exact hphase (h.shut_iff.mpr ⟨a, hmem, hcloses⟩)

theorem At.move {trace news : List α} {phase phase' : Phase} (h : At opens closes trace phase)
    (hmove : Moves opens closes phase news phase') : At opens closes (trace ++ news) phase' := by
  cases hmove with
  | stay => rwa [List.append_nil]
  | @start a hopens hcloses =>
    have hnil := h.fresh_iff.mp rfl
    subst hnil
    refine ⟨h.wellFormed.concat (by simp) fun _ => hopens, by simp, ?_⟩
    simp [hcloses]
  | @carryOn a hcloses =>
    have hopen := h.open (by simp)
    refine ⟨h.wellFormed.concat hopen fun hnil => ?_, by simp, ?_⟩
    · cases h.fresh_iff.mpr hnil
    · simp only [reduceCtorEq, false_iff, List.mem_append, List.mem_singleton]
      rintro ⟨b, hb | rfl, hclose⟩
      · exact hopen b hb hclose
      · exact hcloses hclose
  | @finish a hcloses =>
    refine ⟨h.wellFormed.concat (h.open (by simp)) fun hnil => ?_, by simp, ?_⟩
    · cases h.fresh_iff.mpr hnil
    · simp only [true_iff]
      exact ⟨a, by simp, hcloses⟩

end Lifecycle
