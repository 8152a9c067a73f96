import Mathlib.Data.List.Induction
import Mathlib.Tactic.Common

/-!
# Machines with an output queue

A sans-io component is a state that is changed by inputs, may panic, and leaves
its outputs in a queue that its owner pops whenever it likes.  `Machine` states
that interface.  A run interleaves inputs and pops in any order and records, for
each input, the outputs it pushed; the pops only decide when an output becomes
visible, so every trace property is a property of that history.

The rules at the end are the two inductions every component uses: an invariant
of all runs, and the absence of panics along with it.
-/

/-- A panic of the modelled program, with its message. -/
structure Panic where
  msg : String
deriving DecidableEq, Repr

theorem Except.mem_toOption {ε α : Type} {x : Except ε α} {a : α} :
    a ∈ x.toOption ↔ x = .ok a := by
  cases x with
  | error e => simp [Except.toOption]
  | ok b => simp [Except.toOption]

/-- A component with an output queue that an input can only extend. -/
structure Machine (State Input Output : Type) where
  init : State
  step : State → Input → Except Panic State
  queue : State → List Output
  dropFront : State → State
  queue_init : queue init = []
  queue_dropFront : ∀ s, queue (dropFront s) = (queue s).tail
  step_appends : ∀ s i s', step s i = .ok s' → queue s <+: queue s'

namespace Machine

variable {State Input Output : Type}

/-- What the owner of a component does to it. -/
inductive Action (Input : Type) where
  | input (i : Input)
  | pop

/-- The inputs of a run with the outputs each of them pushed. -/
abbrev History (Input Output : Type) := List (Input × List Output)

/-- All outputs pushed along a history, in order. -/
def emitted (history : History Input Output) : List Output := history.flatMap Prod.snd

@[simp] theorem emitted_nil : emitted ([] : History Input Output) = [] := rfl

@[simp] theorem emitted_concat (history : History Input Output) (i : Input)
    (pushed : List Output) :
    emitted (history ++ [(i, pushed)]) = emitted history ++ pushed := by
  simp [emitted]

/-- A component in the middle of a run. -/
structure Config (State Input Output : Type) where
  state : State
  history : History Input Output
  popped : List Output

variable (M : Machine State Input Output)

/-- The outputs that lead from the queue of `s` to the queue of `s'`. -/
def pushed (s s' : State) : List Output := (M.queue s').drop (M.queue s).length

theorem queue_eq_append_pushed {s s' : State} {i : Input} (h : M.step s i = .ok s') :
    M.queue s' = M.queue s ++ M.pushed s s' := by
  obtain ⟨new, hnew⟩ := M.step_appends s i s' h
  simp [pushed, ← hnew]

/-- The pushed outputs are determined by the queue after the step. -/
theorem pushed_eq_of_append {s s' : State} {new : List Output}
    (h : M.queue s' = M.queue s ++ new) : M.pushed s s' = new := by
  simp [pushed, h]

def start : Config State Input Output := ⟨M.init, [], []⟩

/-- One action: an input is processed, or the front of the queue is handed out. -/
def exec (c : Config State Input Output) :
    Action Input → Except Panic (Config State Input Output)
  | .input i =>
      match M.step c.state i with
      | .ok s' => .ok ⟨s', c.history ++ [(i, M.pushed c.state s')], c.popped⟩
      | .error panic => .error panic
  | .pop =>
      match M.queue c.state with
      | [] => .ok c
      | out :: _ => .ok ⟨M.dropFront c.state, c.history, c.popped ++ [out]⟩

def run (acts : List (Action Input)) : Except Panic (Config State Input Output) :=
  acts.foldlM M.exec M.start

@[simp] theorem run_nil : M.run [] = .ok M.start := rfl

theorem run_concat (acts : List (Action Input)) (a : Action Input) :
    M.run (acts ++ [a]) = M.run acts >>= fun c => M.exec c a := by
  simp [run, List.foldlM_append]

/-- A run that ends in `c` splits at its last action. -/
theorem run_concat_eq_ok {acts : List (Action Input)} {a : Action Input}
    {c : Config State Input Output} :
    M.run (acts ++ [a]) = .ok c ↔ ∃ c₀, M.run acts = .ok c₀ ∧ M.exec c₀ a = .ok c := by
  rw [run_concat]
  cases M.run acts with
  | error panic => simp [bind, Except.bind]
  | ok c₀ => simp [bind, Except.bind]

/-- A run that ends passes every point of its actions. -/
theorem run_of_append_cons {before after : List (Action Input)} {a : Action Input}
    {c : Config State Input Output} (h : M.run (before ++ a :: after) = .ok c) :
    ∃ c₀ c₁, M.run before = .ok c₀ ∧ M.exec c₀ a = .ok c₁ := by
  rw [run, List.foldlM_append] at h
  cases hbefore : before.foldlM M.exec M.start with
  | error panic => simp [hbefore, bind, Except.bind] at h
  | ok c₀ =>
    simp only [hbefore, bind, Except.bind, List.foldlM_cons] at h
    cases hexec : M.exec c₀ a with
    | error panic => simp [hexec] at h
    | ok c₁ => exact ⟨c₀, c₁, hbefore, hexec⟩

theorem exec_input_eq_ok {c c' : Config State Input Output} {i : Input} :
    M.exec c (.input i) = .ok c' ↔
      ∃ s', M.step c.state i = .ok s' ∧
        c' = ⟨s', c.history ++ [(i, M.pushed c.state s')], c.popped⟩ := by
  simp only [exec]
  cases M.step c.state i with
  | error panic => simp
  | ok s' => simp [eq_comm]

/-- A pop leaves the history alone and the state up to its queue. -/
theorem exec_pop_eq_ok {c c' : Config State Input Output} (h : M.exec c .pop = .ok c') :
    c' = c ∨ (c'.state = M.dropFront c.state ∧ c'.history = c.history) := by
  simp only [exec] at h
  split at h
  · cases h; exact Or.inl rfl
  · cases h; exact Or.inr ⟨rfl, rfl⟩

theorem exec_pop_ok (c : Config State Input Output) : ∃ c', M.exec c .pop = .ok c' := by
  simp only [exec]
  split <;> exact ⟨_, rfl⟩

/-- **Nothing is lost or reordered.** What was popped, followed by what is still
    queued, is what the inputs pushed. -/
theorem popped_append_queue {acts : List (Action Input)} {c : Config State Input Output}
    (h : M.run acts = .ok c) : c.popped ++ M.queue c.state = emitted c.history := by
  induction acts using List.reverseRecOn generalizing c with
  | nil =>
    cases h
    simp [start, M.queue_init]
  | append_singleton acts a ih =>
    obtain ⟨c₀, h₀, ha⟩ := (M.run_concat_eq_ok).mp h
    have ih := ih h₀
    cases a with
    | input i =>
      obtain ⟨s', hs', rfl⟩ := M.exec_input_eq_ok.mp ha
      rw [emitted_concat, ← ih, M.queue_eq_append_pushed hs', List.append_assoc]
    | pop =>
      simp only [exec] at ha
      split at ha
      · cases ha; exact ih
      · rename_i out rest hqueue
        cases ha
        rw [← ih, M.queue_dropFront, hqueue]
        simp

/-- The inputs of a run from a configuration on, each with the state it met. -/
def visitedFrom (c : Config State Input Output) : List (Action Input) → List (State × Input)
  | [] => []
  | .input i :: rest =>
      match M.exec c (.input i) with
      | .ok c' => (c.state, i) :: visitedFrom c' rest
      | .error _ => []
  | .pop :: rest =>
      match M.exec c .pop with
      | .ok c' => visitedFrom c' rest
      | .error _ => []

theorem visitedFrom_input {c c' : Config State Input Output} {i : Input}
    (h : M.exec c (.input i) = .ok c') (rest : List (Action Input)) :
    M.visitedFrom c (.input i :: rest) = (c.state, i) :: M.visitedFrom c' rest := by
  change (match M.exec c (.input i) with
    | .ok c' => (c.state, i) :: M.visitedFrom c' rest
    | .error _ => []) = _
  rw [h]

theorem visitedFrom_pop {c c' : Config State Input Output} (h : M.exec c .pop = .ok c')
    (rest : List (Action Input)) : M.visitedFrom c (.pop :: rest) = M.visitedFrom c' rest := by
  change (match M.exec c .pop with
    | .ok c' => M.visitedFrom c' rest
    | .error _ => []) = _
  rw [h]

/-- The inputs of a run, each with the state it met. -/
def visited (acts : List (Action Input)) : List (State × Input) := M.visitedFrom M.start acts

theorem visitedFrom_append {c c' : Config State Input Output} {before : List (Action Input)}
    (h : before.foldlM M.exec c = .ok c') (after : List (Action Input)) :
    M.visitedFrom c (before ++ after) = M.visitedFrom c before ++ M.visitedFrom c' after := by
  induction before generalizing c with
  | nil =>
    cases h
    rfl
  | cons a rest ih =>
    rw [List.foldlM_cons] at h
    cases hexec : M.exec c a with
    | error panic => simp [hexec, bind, Except.bind] at h
    | ok c₁ =>
      rw [hexec] at h
      have hrest := ih h
      cases a with
      | input i =>
        rw [List.cons_append, M.visitedFrom_input hexec, M.visitedFrom_input hexec, hrest,
          List.cons_append]
      | pop => rw [List.cons_append, M.visitedFrom_pop hexec, M.visitedFrom_pop hexec, hrest]

theorem visited_concat_input {acts : List (Action Input)} {c c' : Config State Input Output}
    {i : Input} (h : M.run acts = .ok c) (hexec : M.exec c (.input i) = .ok c') :
    M.visited (acts ++ [Action.input i]) = M.visited acts ++ [(c.state, i)] := by
  calc M.visitedFrom M.start (acts ++ [Action.input i])
      = M.visitedFrom M.start acts ++ M.visitedFrom c [Action.input i] :=
        M.visitedFrom_append h _
    _ = M.visited acts ++ [(c.state, i)] := by rw [M.visitedFrom_input hexec]; rfl

theorem visited_concat_pop {acts : List (Action Input)} {c : Config State Input Output}
    (h : M.run acts = .ok c) : M.visited (acts ++ [Action.pop]) = M.visited acts := by
  obtain ⟨c', hc'⟩ := M.exec_pop_ok c
  calc M.visitedFrom M.start (acts ++ [Action.pop])
      = M.visitedFrom M.start acts ++ M.visitedFrom c [Action.pop] := M.visitedFrom_append h _
    _ = M.visited acts ++ [] := by rw [M.visitedFrom_pop hc']; rfl
    _ = M.visited acts := List.append_nil _

/-! ### Admissible runs and the induction rules -/

/-- What the callers of a component promise about an input, given what happened
    so far and the state the input meets. -/
abbrev Contract (State Input Output : Type) :=
  History Input Output → State → Input → Prop

/-- Every input of the run meets the contract at the moment it is given. -/
def Admits (ok : Contract State Input Output) (acts : List (Action Input)) : Prop :=
  ∀ before i after, acts = before ++ .input i :: after →
    ∀ c, M.run before = .ok c → ok c.history c.state i

variable {M}

theorem Admits.left {ok : Contract State Input Output} {acts : List (Action Input)}
    {a : Action Input} (h : M.Admits ok (acts ++ [a])) : M.Admits ok acts := by
  intro before i after hacts c hc
  refine h before i (after ++ [a]) ?_ c hc
  rw [hacts]
  simp

theorem Admits.last {ok : Contract State Input Output} {acts : List (Action Input)}
    {i : Input} (h : M.Admits ok (acts ++ [Action.input i])) {c : Config State Input Output}
    (hc : M.run acts = .ok c) : ok c.history c.state i :=
  h acts i [] rfl c hc

/-- A promise that holds whatever happened is kept by every run. -/
theorem Admits.of_forall {ok : Contract State Input Output}
    (h : ∀ history s i, ok history s i) (acts : List (Action Input)) : M.Admits ok acts :=
  fun _ i _ _ c _ => h c.history c.state i

theorem Admits.of_append {ok : Contract State Input Output} {before after : List (Action Input)}
    (h : M.Admits ok (before ++ after)) : M.Admits ok before := by
  intro first i rest hacts c hc
  refine h first i (rest ++ after) ?_ c hc
  rw [hacts]
  simp

theorem Admits.and {ok ok' : Contract State Input Output} {acts : List (Action Input)}
    (h : M.Admits ok acts) (h' : M.Admits ok' acts) :
    M.Admits (fun history s i => ok history s i ∧ ok' history s i) acts :=
  fun before i after hacts c hc =>
    ⟨h before i after hacts c hc, h' before i after hacts c hc⟩

/-- Admissibility from a configuration on, action by action. -/
def AdmitsFrom (M : Machine State Input Output) (ok : Contract State Input Output)
    (c : Config State Input Output) : List (Action Input) → Prop
  | [] => True
  | a :: rest =>
      (match a with
        | .input i => ok c.history c.state i
        | .pop => True) ∧
      match M.exec c a with
      | .ok c' => AdmitsFrom M ok c' rest
      | .error _ => True

theorem AdmitsFrom.at {ok : Contract State Input Output} {before after : List (Action Input)}
    {i : Input} {c c' : Config State Input Output}
    (h : M.AdmitsFrom ok c (before ++ .input i :: after))
    (hrun : before.foldlM M.exec c = .ok c') : ok c'.history c'.state i := by
  induction before generalizing c with
  | nil =>
    cases hrun
    exact h.1
  | cons a rest ih =>
    have hrest := h.2
    rw [List.foldlM_cons] at hrun
    cases hexec : M.exec c a with
    | error panic => simp [hexec, bind, Except.bind] at hrun
    | ok c₁ =>
      rw [hexec] at hrun hrest
      exact ih hrest hrun

theorem AdmitsFrom.admits {ok : Contract State Input Output} {acts : List (Action Input)}
    (h : M.AdmitsFrom ok M.start acts) : M.Admits ok acts := by
  intro before i after hacts c hc
  subst hacts
  exact h.at hc

instance decidableAdmitsFrom (M : Machine State Input Output) (ok : Contract State Input Output)
    [hok : ∀ history s i, Decidable (ok history s i)] :
    ∀ c acts, Decidable (M.AdmitsFrom ok c acts)
  | _, [] => .isTrue trivial
  | c, .input i :: rest =>
      match h : M.exec c (.input i) with
      | .ok c' =>
        haveI := decidableAdmitsFrom M ok c' rest
        decidable_of_iff (ok c.history c.state i ∧ M.AdmitsFrom ok c' rest)
          (by simp [AdmitsFrom, h])
      | .error _ => decidable_of_iff (ok c.history c.state i) (by simp [AdmitsFrom, h])
  | c, .pop :: rest =>
      match h : M.exec c .pop with
      | .ok c' =>
        haveI := decidableAdmitsFrom M ok c' rest
        decidable_of_iff (M.AdmitsFrom ok c' rest) (by simp [AdmitsFrom, h])
      | .error _ => .isTrue (by simp [AdmitsFrom, h])

/-- **Invariant rule.** A property of history and state that holds at the start,
    is kept by every admissible input and by every pop, holds after every
    admissible run. -/
theorem run_invariant (ok : Contract State Input Output)
    (P : History Input Output → State → Prop) (hinit : P [] M.init)
    (hstep : ∀ history s i s', P history s → ok history s i → M.step s i = .ok s' →
      P (history ++ [(i, M.pushed s s')]) s')
    (hpop : ∀ history s, P history s → P history (M.dropFront s))
    {acts : List (Action Input)} {c : Config State Input Output}
    (hadm : M.Admits ok acts) (hrun : M.run acts = .ok c) : P c.history c.state := by
  induction acts using List.reverseRecOn generalizing c with
  | nil =>
    cases hrun
    exact hinit
  | append_singleton acts a ih =>
    obtain ⟨c₀, h₀, ha⟩ := (M.run_concat_eq_ok).mp hrun
    have hP := ih hadm.left h₀
    cases a with
    | input i =>
      obtain ⟨s', hs', rfl⟩ := M.exec_input_eq_ok.mp ha
      exact hstep _ _ _ _ hP (hadm.last h₀) hs'
    | pop =>
      rcases M.exec_pop_eq_ok ha with rfl | ⟨hstate, hhistory⟩
      · exact hP
      · rw [hstate, hhistory]
        exact hpop _ _ hP

/-- **Outcome rule.** If an admissible input that meets the invariant can only panic in
    some allowed way, so can an admissible run. -/
theorem run_outcome (ok : Contract State Input Output)
    (P : History Input Output → State → Prop) (allowed : Panic → Prop) (hinit : P [] M.init)
    (hstep : ∀ history s i, P history s → ok history s i →
      (∃ s', M.step s i = .ok s' ∧ P (history ++ [(i, M.pushed s s')]) s') ∨
        ∃ panic, M.step s i = .error panic ∧ allowed panic)
    (hpop : ∀ history s, P history s → P history (M.dropFront s))
    {acts : List (Action Input)} (hadm : M.Admits ok acts) :
    (∃ c, M.run acts = .ok c ∧ P c.history c.state) ∨
      ∃ panic, M.run acts = .error panic ∧ allowed panic := by
  induction acts using List.reverseRecOn with
  | nil => exact Or.inl ⟨M.start, rfl, hinit⟩
  | append_singleton acts a ih =>
    rw [run_concat]
    rcases ih hadm.left with ⟨c₀, h₀, hP⟩ | ⟨panic, hpanic, hallowed⟩
    · rw [h₀]
      cases a with
      | input i =>
        rcases hstep _ _ i hP (hadm.last h₀) with ⟨s', hs', hP'⟩ | ⟨panic, hpanic, hallowed⟩
        · exact Or.inl ⟨_, M.exec_input_eq_ok.mpr ⟨s', hs', rfl⟩, hP'⟩
        · refine Or.inr ⟨panic, ?_, hallowed⟩
          simp only [bind, Except.bind, exec, hpanic]
      | pop =>
        obtain ⟨c, hc⟩ := M.exec_pop_ok c₀
        refine Or.inl ⟨c, hc, ?_⟩
        rcases M.exec_pop_eq_ok hc with rfl | ⟨hstate, hhistory⟩
        · exact hP
        · rw [hstate, hhistory]
          exact hpop _ _ hP
    · rw [hpanic]
      exact Or.inr ⟨panic, rfl, hallowed⟩

/-- **Progress rule.** If no admissible input that meets the invariant panics, no
    admissible run panics. -/
theorem run_progress (ok : Contract State Input Output)
    (P : History Input Output → State → Prop) (hinit : P [] M.init)
    (hstep : ∀ history s i, P history s → ok history s i →
      ∃ s', M.step s i = .ok s' ∧ P (history ++ [(i, M.pushed s s')]) s')
    (hpop : ∀ history s, P history s → P history (M.dropFront s))
    {acts : List (Action Input)} (hadm : M.Admits ok acts) :
    ∃ c, M.run acts = .ok c ∧ P c.history c.state := by
  have houtcome := run_outcome ok P (fun _ => False) hinit
    (fun history s i hP hok => Or.inl (hstep history s i hP hok)) hpop hadm
  rcases houtcome with hrun | ⟨_, _, hfalse⟩
  · exact hrun
  · cases hfalse

/-! ### A component inside a larger system -/

/-- A configuration in which some admissible run ends.  A system that owns the
    component keeps this of it, and may then use everything known of its runs. -/
def Reached (M : Machine State Input Output) (ok : Contract State Input Output)
    (c : Config State Input Output) : Prop :=
  ∃ acts, M.Admits ok acts ∧ M.run acts = .ok c

theorem Reached.start (ok : Contract State Input Output) : M.Reached ok M.start := by
  refine ⟨[], ?_, rfl⟩
  intro before i after hacts
  simp at hacts

theorem Admits.concat {ok : Contract State Input Output} {acts : List (Action Input)}
    {a : Action Input} {c : Config State Input Output} (h : M.Admits ok acts)
    (hrun : M.run acts = .ok c) (ha : ∀ i, a = .input i → ok c.history c.state i) :
    M.Admits ok (acts ++ [a]) := by
  intro before i after hacts c₀ hc₀
  rcases List.eq_nil_or_concat after with rfl | ⟨rest, b, rfl⟩
  · obtain ⟨rfl, hlast⟩ := List.append_inj' hacts rfl
    rw [hrun] at hc₀
    cases hc₀
    exact ha i (List.singleton_inj.mp hlast)
  · rw [List.concat_eq_append, ← List.cons_append, ← List.append_assoc] at hacts
    exact h before i rest (List.append_inj_left' hacts rfl) c₀ hc₀

theorem Reached.input {ok : Contract State Input Output} {c : Config State Input Output}
    (h : M.Reached ok c) {i : Input} {s' : State} (hok : ok c.history c.state i)
    (hstep : M.step c.state i = .ok s') :
    M.Reached ok ⟨s', c.history ++ [(i, M.pushed c.state s')], c.popped⟩ := by
  obtain ⟨acts, hadm, hrun⟩ := h
  refine ⟨acts ++ [Action.input i], hadm.concat hrun ?_, ?_⟩
  · intro j hj
    cases hj
    exact hok
  · exact (M.run_concat_eq_ok).mpr ⟨c, hrun, M.exec_input_eq_ok.mpr ⟨s', hstep, rfl⟩⟩

theorem Reached.pop {ok : Contract State Input Output} {c : Config State Input Output}
    (h : M.Reached ok c) {out : Output} {rest : List Output}
    (hqueue : M.queue c.state = out :: rest) :
    M.Reached ok ⟨M.dropFront c.state, c.history, c.popped ++ [out]⟩ := by
  obtain ⟨acts, hadm, hrun⟩ := h
  refine ⟨acts ++ [Action.pop], hadm.concat hrun (by simp), ?_⟩
  refine (M.run_concat_eq_ok).mpr ⟨c, hrun, ?_⟩
  simp only [exec, hqueue]

theorem Reached.invariant {ok : Contract State Input Output} {c : Config State Input Output}
    (h : M.Reached ok c) (P : History Input Output → State → Prop) (hinit : P [] M.init)
    (hstep : ∀ history s i s', P history s → ok history s i → M.step s i = .ok s' →
      P (history ++ [(i, M.pushed s s')]) s')
    (hpop : ∀ history s, P history s → P history (M.dropFront s)) : P c.history c.state := by
  obtain ⟨acts, hadm, hrun⟩ := h
  exact run_invariant ok P hinit hstep hpop hadm hrun

/-- A component whose queue is empty has handed out everything it pushed. -/
theorem Reached.popped_eq_emitted {ok : Contract State Input Output}
    {c : Config State Input Output} (h : M.Reached ok c) (hqueue : M.queue c.state = []) :
    c.popped = emitted c.history := by
  obtain ⟨acts, -, hrun⟩ := h
  have hall := M.popped_append_queue hrun
  rwa [hqueue, List.append_nil] at hall

end Machine
