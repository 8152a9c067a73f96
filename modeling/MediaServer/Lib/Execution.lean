import Mathlib.Tactic.Common

/-!
# Executions under a condition

A system whose steps are not always possible is a partial step function.  An execution is a
list of actions each of which was possible, and each of which met a condition on the state
that it found.  What one step keeps under the condition holds wherever such an execution ends.
-/

namespace Execution

variable {State Act : Type}

/-- The actions lead from one state to another, and each of them meets the condition. -/
inductive Reaches (step : State → Act → Option State) (ok : State → Act → Prop) :
    State → List Act → State → Prop where
  | nil (s : State) : Reaches step ok s [] s
  | cons {s s' s'' : State} {act : Act} {acts : List Act} :
      ok s act → step s act = some s' → Reaches step ok s' acts s'' →
      Reaches step ok s (act :: acts) s''

variable {step : State → Act → Option State} {ok : State → Act → Prop} {s s' : State}
  {acts : List Act}

/-- **The invariant rule.** -/
theorem Reaches.invariant {P : State → Prop}
    (hstep : ∀ s act s', P s → ok s act → step s act = some s' → P s')
    (h : Reaches step ok s acts s') (hP : P s) : P s' := by
  induction h with
  | nil s => exact hP
  | cons hok hs _ ih => exact ih (hstep _ _ _ hP hok hs)

/-- The invariant rule for what depends also on the actions taken so far. -/
theorem Reaches.history {P : List Act → State → Prop}
    (hstep : ∀ before s act s', P before s → ok s act → step s act = some s' →
      P (before ++ [act]) s')
    (h : Reaches step ok s acts s') (before : List Act) (hP : P before s) :
    P (before ++ acts) s' := by
  induction h generalizing before with
  | nil s => simpa using hP
  | cons hok hs _ ih =>
    have hnext := ih _ (hstep _ _ _ _ hP hok hs)
    rwa [List.append_assoc, List.singleton_append] at hnext

/-- A step that is taken after an execution. -/
theorem Reaches.concat {s'' : State} {act : Act} (h : Reaches step ok s acts s')
    (hok : ok s' act) (hs : step s' act = some s'') : Reaches step ok s (acts ++ [act]) s'' := by
  induction h with
  | nil s => exact .cons hok hs (.nil _)
  | cons hok' hs' _ ih => exact .cons hok' hs' (ih hok hs)

/-- What each step takes off a measure bounds the length of an execution. -/
theorem Reaches.length_le (measure : State → Nat)
    (hstep : ∀ s act s', ok s act → step s act = some s' → measure s' < measure s)
    (h : Reaches step ok s acts s') : acts.length + measure s' ≤ measure s := by
  induction h with
  | nil s => simp
  | cons hok hs _ ih =>
    have hless := hstep _ _ _ hok hs
    rw [List.length_cons]
    omega

/-! ### What holds along a list of actions -/

/-- Each step that is taken, from the state it finds to the state it leads to, has the
    property. -/
def Along (step : State → Act → Option State) (Q : State → Act → State → Prop) :
    State → List Act → Prop
  | _, [] => True
  | s, act :: acts => ∀ s', step s act = some s' → Q s act s' ∧ Along step Q s' acts

variable {Q : State → Act → State → Prop}

/-- **The rule for two properties of steps.**  If they agree on the steps from states with the
    invariant, and steps that have them keep it, they hold along the same actions. -/
theorem along_iff {Inv : State → Prop} {Q' : State → Act → State → Prop}
    (hstep : ∀ s act s', Inv s → step s act = some s' →
      (Q s act s' ↔ Q' s act s') ∧ (Q' s act s' → Inv s')) (hs : Inv s) :
    Along step Q s acts ↔ Along step Q' s acts := by
  induction acts generalizing s with
  | nil => exact Iff.rfl
  | cons act acts ih =>
    refine forall_congr' fun s' => ?_
    constructor
    · intro h hs'
      obtain ⟨hiff, hkept⟩ := hstep s act s' hs hs'
      have hQ' := hiff.mp (h hs').1
      exact ⟨hQ', (ih (hkept hQ')).mp (h hs').2⟩
    · intro h hs'
      obtain ⟨hiff, hkept⟩ := hstep s act s' hs hs'
      exact ⟨hiff.mpr (h hs').1, (ih (hkept (h hs').1)).mpr (h hs').2⟩

/-- The rule for a property that follows from a condition of the steps. -/
theorem along_of {Inv : State → Prop} {ok : State → Act → State → Prop}
    (hstep : ∀ s act s', Inv s → step s act = some s' → ok s act s' → Q s act s' ∧ Inv s')
    (hs : Inv s) (h : Along step ok s acts) : Along step Q s acts := by
  induction acts generalizing s with
  | nil => exact h
  | cons act acts ih =>
    intro s' hs'
    obtain ⟨hok, hrest⟩ := h s' hs'
    obtain ⟨hQ, hinv⟩ := hstep s act s' hs hs' hok
    exact ⟨hQ, ih hinv hrest⟩

theorem along_mono {Q' : State → Act → State → Prop}
    (hstep : ∀ s act s', step s act = some s' → Q' s act s' → Q s act s')
    (h : Along step Q' s acts) : Along step Q s acts := by
  induction acts generalizing s with
  | nil => exact h
  | cons act acts ih =>
    intro s' hs'
    exact ⟨hstep s act s' hs' (h s' hs').1, ih (h s' hs').2⟩

instance Along.decidable [∀ s act s', Decidable (Q s act s')] :
    ∀ s acts, Decidable (Along step Q s acts)
  | _, [] => isTrue trivial
  | s, act :: acts =>
    match hs : step s act with
    | none => isTrue fun s' hs' => nomatch hs.symm.trans hs'
    | some s₁ =>
      have := Along.decidable s₁ acts
      decidable_of_iff (Q s act s₁ ∧ Along step Q s₁ acts) (by simp [Along, hs])

/-- What all steps have holds along all actions. -/
theorem along_of_forall (h : ∀ s act s', Q s act s') (s : State) (acts : List Act) :
    Along step Q s acts := by
  induction acts generalizing s with
  | nil => trivial
  | cons act acts ih => exact fun s' _ => ⟨h s act s', ih s'⟩

theorem Along.of_append {after : List Act} (h : Along step Q s (acts ++ after))
    (hs : Reaches step (fun _ _ => True) s acts s') : Along step Q s' after := by
  induction hs with
  | nil s => exact h
  | cons _ hstep _ ih => exact ih (h _ hstep).2

/-! ### Actions that go through -/

/-- Each action that meets the condition in the state it finds goes through. -/
def GoesOn {ε : Type} (step : State → Act → Except ε State) (ok : State → Act → Prop) :
    State → List Act → Prop
  | _, [] => True
  | s, act :: acts => ok s act → ∃ s', step s act = .ok s' ∧ GoesOn step ok s' acts

/-- The rule for systems that go on: the condition and the invariant are enough for a step. -/
theorem goesOn_of {ε : Type} {step : State → Act → Except ε State} {Inv : State → Prop}
    (hstep : ∀ s act, Inv s → ok s act → ∃ s', step s act = .ok s' ∧ Inv s') (hs : Inv s)
    (acts : List Act) : GoesOn step ok s acts := by
  induction acts generalizing s with
  | nil => trivial
  | cons act acts ih =>
    intro hok
    obtain ⟨s', hs', hinv⟩ := hstep s act hs hok
    exact ⟨s', hs', ih hinv⟩

/-! ### Executions that are computed -/

/-- The execution of a list of actions whose condition can be checked. -/
def exec (step : State → Act → Option State) (ok : State → Act → Bool) :
    State → List Act → Option State
  | s, [] => some s
  | s, act :: acts =>
    if ok s act then
      match step s act with
      | some s' => exec step ok s' acts
      | none => none
    else none

theorem reaches_of_exec {check : State → Act → Bool} (hcheck : ∀ s act, check s act = true → ok s act)
    (h : exec step check s acts = some s') : Reaches step ok s acts s' := by
  induction acts generalizing s with
  | nil =>
    cases h
    exact .nil _
  | cons act acts ih =>
    rw [exec] at h
    split at h
    · rename_i hok
      split at h
      · rename_i s₁ hs
        exact .cons (hcheck s act hok) hs (ih h)
      · cases h
    · cases h

/-- Actions that meet the condition in every state. -/
theorem reaches_of_all (hok : ∀ s, ∀ act ∈ acts, ok s act)
    (h : exec step (fun _ _ => true) s acts = some s') : Reaches step ok s acts s' := by
  induction acts generalizing s with
  | nil =>
    cases h
    exact .nil _
  | cons act acts ih =>
    rw [exec, if_pos rfl] at h
    split at h
    · rename_i s₁ hs
      refine .cons (hok s act (List.mem_cons_self ..)) hs (ih ?_ h)
      intro s' act' hmem
      exact hok s' act' (List.mem_cons_of_mem _ hmem)
    · cases h

end Execution
