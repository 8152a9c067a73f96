import Mathlib.Data.List.Induction
import Mathlib.Data.Option.Basic
import Mathlib.Tactic.Common

/-!
# Custody of resources

A component that takes and gives up resources leaves a log of what it did.  For
one resource, each entry of the log is about something else (`none`) or says what
was done to it, and what counts is the last entry that is about it.
-/

namespace Custody

variable {Entry Value : Type}

/-- What the last entry about something says of it; of a resource, what was done to it. -/
def lastGrip (grip : Entry → Option Value) (log : List Entry) : Option Value :=
  (log.filterMap grip).getLast?

variable {new : List Entry} {grip : Entry → Option Value}

@[simp] theorem lastGrip_nil : lastGrip grip [] = none := rfl

theorem lastGrip_append (grip : Entry → Option Value) (log new : List Entry) :
    lastGrip grip (log ++ new) = (lastGrip grip new).or (lastGrip grip log) := by
  rw [lastGrip, List.filterMap_append, List.getLast?_append]
  rfl

theorem lastGrip_concat (grip : Entry → Option Value) (log : List Entry) (entry : Entry) :
    lastGrip grip (log ++ [entry]) = (grip entry).or (lastGrip grip log) := by
  rw [lastGrip_append]
  cases hgrip : grip entry with
  | none => simp [lastGrip, hgrip]
  | some keeps => simp [lastGrip, hgrip]

theorem lastGrip_eq_none_of_forall (h : ∀ entry ∈ new, grip entry = none) :
    lastGrip grip new = none := by
  rw [lastGrip, List.getLast?_eq_none_iff, List.filterMap_eq_nil_iff]
  exact h

/-- Entries that agree on what they say. -/
theorem lastGrip_eq_some_of_forall {value : Value} {entry : Entry} (hmem : entry ∈ new)
    (hgrip : grip entry = some value)
    (h : ∀ other ∈ new, grip other = none ∨ grip other = some value) :
    lastGrip grip new = some value := by
  cases hlast : lastGrip grip new with
  | none =>
    rw [lastGrip, List.getLast?_eq_none_iff, List.filterMap_eq_nil_iff] at hlast
    rw [hlast entry hmem] at hgrip
    cases hgrip
  | some last =>
    obtain ⟨other, hother, hsaid⟩ := List.mem_filterMap.mp (List.mem_of_getLast? hlast)
    rcases h other hother with hnone | hsome
    · rw [hnone] at hsaid
      cases hsaid
    · rw [← hsaid, hsome]

end Custody
