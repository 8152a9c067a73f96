import Mathlib.Logic.Function.Basic
import Mathlib.Tactic.Common

/-!
# Lease traces

A resource is acquired and released by a stream of commands.  The stream is well
behaved when the two commands strictly alternate, starting with an acquisition;
the resource is then held exactly when the last command was an acquisition.

`LeaseTrace trace held` packages both facts against the condition `held` that the
owner of the resource believes.  The rules below are the ones an owner needs: a
first holder acquires, a last holder releases, and every other change is silent.

The last section is about a family of resources shared by holders that each hold
at most one: `holds : Holder → Option Resource` says which.
-/

namespace Lease

inductive Command where
  | acquire
  | release
deriving DecidableEq, Repr

/-- Strict alternation, given whether the resource is held at the start. -/
def alternatesFrom : Bool → List Command → Prop
  | _, [] => True
  | held, .acquire :: rest => held = false ∧ alternatesFrom true rest
  | held, .release :: rest => held = true ∧ alternatesFrom false rest

/-- Whether the resource is held after a trace. -/
def heldFrom : Bool → List Command → Bool
  | held, [] => held
  | _, .acquire :: rest => heldFrom true rest
  | _, .release :: rest => heldFrom false rest

@[simp] theorem heldFrom_nil (held : Bool) : heldFrom held [] = held := rfl

@[simp] theorem heldFrom_acquire (held : Bool) (rest : List Command) :
    heldFrom held (.acquire :: rest) = heldFrom true rest := rfl

@[simp] theorem heldFrom_release (held : Bool) (rest : List Command) :
    heldFrom held (.release :: rest) = heldFrom false rest := rfl

/-- The commands strictly alternate, starting with an acquisition. -/
def StrictlyAlternates (trace : List Command) : Prop := alternatesFrom false trace

/-- The last command is an acquisition. -/
def Outstanding (trace : List Command) : Prop := heldFrom false trace = true

instance decidableAlternatesFrom : ∀ held trace, Decidable (alternatesFrom held trace)
  | _, [] => .isTrue trivial
  | held, .acquire :: rest =>
      haveI := decidableAlternatesFrom true rest
      inferInstanceAs (Decidable (held = false ∧ alternatesFrom true rest))
  | held, .release :: rest =>
      haveI := decidableAlternatesFrom false rest
      inferInstanceAs (Decidable (held = true ∧ alternatesFrom false rest))

instance (trace : List Command) : Decidable (StrictlyAlternates trace) :=
  decidableAlternatesFrom false trace

instance (trace : List Command) : Decidable (Outstanding trace) :=
  inferInstanceAs (Decidable (heldFrom false trace = true))

theorem alternatesFrom_append (held : Bool) (first second : List Command) :
    alternatesFrom held (first ++ second) ↔
      alternatesFrom held first ∧ alternatesFrom (heldFrom held first) second := by
  induction first generalizing held with
  | nil => simp [alternatesFrom]
  | cons command rest ih =>
    cases command with
    | acquire => simp [alternatesFrom, ih, and_assoc]
    | release => simp [alternatesFrom, ih, and_assoc]

theorem heldFrom_append (held : Bool) (first second : List Command) :
    heldFrom held (first ++ second) = heldFrom (heldFrom held first) second := by
  induction first generalizing held with
  | nil => rfl
  | cons command rest ih =>
    cases command with
    | acquire => exact ih true
    | release => exact ih false

/-- A stretch of trace without acquisition keeps the resource unless it releases it. -/
theorem heldFrom_of_not_mem_acquire {trace : List Command} (h : .acquire ∉ trace) (held : Bool) :
    heldFrom held trace = true ↔ held = true ∧ .release ∉ trace := by
  induction trace generalizing held with
  | nil => simp
  | cons command rest ih =>
    rw [List.mem_cons, not_or] at h
    cases command with
    | acquire => exact absurd rfl h.1
    | release => simp [ih h.2]

/-- A stretch of trace without release holds the resource once it acquires it. -/
theorem heldFrom_of_not_mem_release {trace : List Command} (h : .release ∉ trace) (held : Bool) :
    heldFrom held trace = true ↔ held = true ∨ .acquire ∈ trace := by
  induction trace generalizing held with
  | nil => simp
  | cons command rest ih =>
    rw [List.mem_cons, not_or] at h
    cases command with
    | acquire => simp [ih h.2]
    | release => exact absurd rfl h.1

/-- The trace alternates and the resource is outstanding exactly when `held`. -/
structure LeaseTrace (trace : List Command) (held : Prop) : Prop where
  alternates : StrictlyAlternates trace
  outstanding : Outstanding trace ↔ held

variable {trace : List Command} {held held' : Prop}

theorem LeaseTrace.nil (h : ¬ held) : LeaseTrace [] held :=
  ⟨trivial, by simp [Outstanding, h]⟩

theorem LeaseTrace.congr (h : LeaseTrace trace held) (hiff : held ↔ held') :
    LeaseTrace trace held' :=
  ⟨h.alternates, h.outstanding.trans hiff⟩

theorem LeaseTrace.heldFrom_eq_false (h : LeaseTrace trace held) (hnot : ¬ held) :
    heldFrom false trace = false :=
  Bool.eq_false_iff.mpr fun htrue => hnot (h.outstanding.mp htrue)

theorem LeaseTrace.acquire (h : LeaseTrace trace held) (hnot : ¬ held) (hnow : held') :
    LeaseTrace (trace ++ [Command.acquire]) held' := by
  have hfree := h.heldFrom_eq_false hnot
  refine ⟨(alternatesFrom_append _ _ _).mpr ⟨h.alternates, hfree, trivial⟩, ?_⟩
  simp [Outstanding, heldFrom_append, hnow]

theorem LeaseTrace.release (h : LeaseTrace trace held) (hheld : held) (hnow : ¬ held') :
    LeaseTrace (trace ++ [Command.release]) held' := by
  have htaken : heldFrom false trace = true := h.outstanding.mpr hheld
  refine ⟨(alternatesFrom_append _ _ _).mpr ⟨h.alternates, htaken, trivial⟩, ?_⟩
  simp [Outstanding, heldFrom_append, hnow]

/-- A release of a resource that is not held breaks the alternation. -/
theorem LeaseTrace.not_alternates_release (h : LeaseTrace trace held) (hnot : ¬ held) :
    ¬ StrictlyAlternates (trace ++ [Command.release]) := by
  intro halt
  have hheld := ((alternatesFrom_append _ _ _).mp halt).2.1
  rw [h.heldFrom_eq_false hnot] at hheld
  exact Bool.noConfusion hheld

/-- A trace that is empty or ends in a release leaves nothing outstanding. -/
theorem LeaseTrace.getLast?_ne_acquire (h : LeaseTrace trace held) (hnot : ¬ held) :
    trace.getLast? ≠ some .acquire := by
  intro hlast
  obtain ⟨front, rfl⟩ := List.getLast?_eq_some_iff.mp hlast
  have hfree := h.heldFrom_eq_false hnot
  rw [heldFrom_append] at hfree
  simp at hfree

/-- The command that a change of `held` calls for. -/
def edge : Bool → Bool → List Command
  | false, true => [.acquire]
  | true, false => [.release]
  | _, _ => []

@[simp] theorem edge_false_true : edge false true = [.acquire] := rfl

@[simp] theorem edge_true_false : edge true false = [.release] := rfl

@[simp] theorem edge_self (held : Bool) : edge held held = [] := by
  cases held <;> rfl

theorem alternatesFrom_edge (before after : Bool) : alternatesFrom before (edge before after) := by
  cases before with
  | false => cases after with
    | false => exact trivial
    | true => exact ⟨rfl, trivial⟩
  | true => cases after with
    | false => exact ⟨rfl, trivial⟩
    | true => exact trivial

theorem heldFrom_edge (before after : Bool) : heldFrom before (edge before after) = after := by
  cases before <;> cases after <;> rfl

/-- An owner that reports every change, and nothing else, keeps the trace. -/
theorem LeaseTrace.edge {before after : Bool} (h : LeaseTrace trace (before = true)) :
    LeaseTrace (trace ++ edge before after) (after = true) := by
  cases before with
  | false =>
    cases after with
    | false => simpa using h
    | true => exact h.acquire (by decide) rfl
  | true =>
    cases after with
    | false => exact h.release rfl (by decide)
    | true => simpa using h

/-! ### Holders of a family of resources -/

section Holders

variable {Holder Resource : Type} [DecidableEq Holder] {holds : Holder → Option Resource}
  {holder : Holder} {resource mine : Resource} {commands : List Command}

/-- A holder takes up a resource: its first holder acquires it. -/
theorem LeaseTrace.register (h : LeaseTrace trace (∃ k, holds k = some resource))
    (hfresh : holds holder = none)
    (hfirst : resource = mine → (¬ ∃ k, holds k = some resource) → commands = [.acquire])
    (hshared : resource = mine → (∃ k, holds k = some resource) → commands = [])
    (hother : resource ≠ mine → commands = []) :
    LeaseTrace (trace ++ commands)
      (∃ k, Function.update holds holder (some mine) k = some resource) := by
  by_cases hmine : resource = mine
  · have hnow : ∃ k, Function.update holds holder (some mine) k = some resource :=
      ⟨holder, by rw [Function.update_self, hmine]⟩
    by_cases hheld : ∃ k, holds k = some resource
    · rw [hshared hmine hheld, List.append_nil]
      exact h.congr ⟨fun _ => hnow, fun _ => hheld⟩
    · rw [hfirst hmine hheld]
      exact h.acquire hheld hnow
  · rw [hother hmine, List.append_nil]
    refine h.congr (exists_congr fun k => ?_)
    by_cases hk : k = holder
    · subst hk
      simp [hfresh, Ne.symm hmine]
    · rw [Function.update_of_ne hk]

/-- A holder gives up its resource: its last holder releases it. -/
theorem LeaseTrace.unregister (h : LeaseTrace trace (∃ k, holds k = some resource))
    (hholds : holds holder = some mine)
    (hlast : resource = mine → (¬ ∃ k, Function.update holds holder none k = some resource) →
      commands = [.release])
    (hshared : resource = mine → (∃ k, Function.update holds holder none k = some resource) →
      commands = [])
    (hother : resource ≠ mine → commands = []) :
    LeaseTrace (trace ++ commands) (∃ k, Function.update holds holder none k = some resource) := by
  by_cases hmine : resource = mine
  · have hwas : ∃ k, holds k = some resource := ⟨holder, by rw [hholds, hmine]⟩
    by_cases hheld : ∃ k, Function.update holds holder none k = some resource
    · rw [hshared hmine hheld, List.append_nil]
      exact h.congr ⟨fun _ => hheld, fun _ => hwas⟩
    · rw [hlast hmine hheld]
      exact h.release hwas hheld
  · rw [hother hmine, List.append_nil]
    refine h.congr (exists_congr fun k => ?_)
    by_cases hk : k = holder
    · subst hk
      simp [hholds, Ne.symm hmine]
    · rw [Function.update_of_ne hk]

end Holders

end Lease
