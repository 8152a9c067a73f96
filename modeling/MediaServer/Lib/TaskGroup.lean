import MediaServer.Lib.IndexMap
import MediaServer.Lib.Machine
import Mathlib.Algebra.GroupWithZero.Nat

/-!
# Groups of tasks

A task is a component that its group drives by index: it takes events, keeps its
outputs in a queue of its own, and once it is empty its last output is the empty
event, on which the owner removes it.  A group hands out a free index for a new
task, may reuse the index of a removed one, and ignores an event for an index
that is not occupied.

Which free index a new task gets and which task is popped next are the group's
own affair, so both are arguments here: a `hint` for the index, and the index to
pop.  A result for all hints and all orders of pops covers every scheduler.
-/

/-- Only a success leads to a success. -/
theorem Except.bind_eq_ok {ε α β : Type} {x : Except ε α} {f : α → Except ε β} {b : β} :
    (x >>= f) = .ok b ↔ ∃ a, x = .ok a ∧ f a = .ok b := by
  cases x with
  | error e => simp [bind, Except.bind]
  | ok a => simp [bind, Except.bind]

namespace Runtime

open Collections

/-- What a group needs to know about its tasks. -/
class TaskChild (T : Type) (Out : outParam Type) where
  queue : T → List Out
  dropFront : T → T
  isEmpty : T → Bool
  emptyEvent : T → Out
  queue_dropFront : ∀ t, queue (dropFront t) = (queue t).tail
  queue_of_isEmpty : ∀ t, isEmpty t = true → queue t = []

/-- The tasks of a group by their indexes. -/
structure TaskGroup (T : Type) where
  tasks : IndexMap Nat T

namespace TaskGroup

variable {T Out : Type}

instance : EmptyCollection (TaskGroup T) := ⟨⟨∅⟩⟩

def get (g : TaskGroup T) (index : Nat) : Option T := g.tasks.get index

/-- Replace the task of an occupied index. -/
def set (g : TaskGroup T) (index : Nat) (t : T) : TaskGroup T := ⟨g.tasks.insert index t⟩

/-- The occupied indexes. -/
def indexes (g : TaskGroup T) : List Nat := g.tasks.keys

/-- The tasks of the group. -/
def all (g : TaskGroup T) : List T := g.tasks.values

def isEmpty (g : TaskGroup T) : Bool := g.tasks.isEmpty

/-- The index a new task gets: the hint if it is free, else one behind all others. -/
def freeIndex (g : TaskGroup T) (hint : Nat) : Nat :=
  if (g.get hint).isNone then hint else g.indexes.foldr max 0 + 1

def addTask (g : TaskGroup T) (hint : Nat) (t : T) : TaskGroup T := g.set (g.freeIndex hint) t

/-- Hand an event to one task; an index without a task ignores it. -/
def onEvent (g : TaskGroup T) (index : Nat) (handle : T → Except Panic T) :
    Except Panic (TaskGroup T) :=
  match g.get index with
  | none => .ok g
  | some t => do
      let t' ← handle t
      .ok (g.set index t')

/-- Hand an event to the tasks of a list of indexes, one after another. -/
def onEvents (handle : T → Except Panic T) :
    List Nat → TaskGroup T → Except Panic (TaskGroup T)
  | [], g => .ok g
  | index :: rest, g => do
      let g' ← g.onEvent index handle
      onEvents handle rest g'

/-- Hand an event to every task, as ticks and the shutdown do. -/
def onAll (g : TaskGroup T) (handle : T → Except Panic T) : Except Panic (TaskGroup T) :=
  onEvents handle g.indexes g

/-- Pop one task: its next output, or its empty event once it is empty. -/
def popOutput [TaskChild T Out] (g : TaskGroup T) (index : Nat) :
    Option (Out × TaskGroup T) :=
  match g.get index with
  | none => none
  | some t =>
      match TaskChild.queue t with
      | out :: _ => some (out, g.set index (TaskChild.dropFront t))
      | [] => if TaskChild.isEmpty t then some (TaskChild.emptyEvent t, g) else none

/-- Remove a task.  Its `Drop` asserts that nothing is left in its queue. -/
def removeTask [TaskChild T Out] (g : TaskGroup T) (index : Nat) (msg : String) :
    Except Panic (TaskGroup T) :=
  match g.get index with
  | none => .ok g
  | some t =>
      if (TaskChild.queue t).isEmpty then .ok ⟨g.tasks.swapRemove index⟩ else .error ⟨msg⟩

/-! ### Reading a group after an operation -/

@[simp] theorem get_empty (index : Nat) : (∅ : TaskGroup T).get index = none := rfl

theorem get_set (g : TaskGroup T) (index j : Nat) (t : T) :
    (g.set index t).get j = if j = index then some t else g.get j :=
  IndexMap.get_insert ..

@[simp] theorem get_set_self (g : TaskGroup T) (index : Nat) (t : T) :
    (g.set index t).get index = some t := by
  rw [get_set, if_pos rfl]

theorem get_set_ne (g : TaskGroup T) {index j : Nat} (t : T) (h : j ≠ index) :
    (g.set index t).get j = g.get j := by
  rw [get_set, if_neg h]

/-- After a replacement, a task is the new one or an old one from elsewhere. -/
theorem get_set_eq_some {g : TaskGroup T} {index j : Nat} {t u : T}
    (h : (g.set index t).get j = some u) :
    (j = index ∧ u = t) ∨ (j ≠ index ∧ g.get j = some u) := by
  rw [get_set] at h
  split at h
  · rename_i hj
    cases h
    exact Or.inl ⟨hj, rfl⟩
  · rename_i hj
    exact Or.inr ⟨hj, h⟩

theorem mem_indexes_iff {g : TaskGroup T} {index : Nat} :
    index ∈ g.indexes ↔ ∃ t, g.get index = some t :=
  IndexMap.mem_keys_iff

theorem mem_all_iff {g : TaskGroup T} {t : T} : t ∈ g.all ↔ ∃ index, g.get index = some t :=
  IndexMap.mem_values_iff

theorem nodup_indexes (g : TaskGroup T) : g.indexes.Nodup := g.tasks.nodupKeys

/-- The index handed out for a new task is not occupied. -/
theorem get_freeIndex (g : TaskGroup T) (hint : Nat) : g.get (g.freeIndex hint) = none := by
  unfold freeIndex
  split
  · rename_i hnone
    exact Option.isNone_iff_eq_none.mp hnone
  · cases hget : g.get (g.indexes.foldr max 0 + 1) with
    | none => rfl
    | some t =>
      have hbound : ∀ (l : List Nat) (n : Nat), n ∈ l → n ≤ l.foldr max 0 := by
        intro l n hn
        induction l with
        | nil => cases hn
        | cons m rest ih =>
          rcases List.mem_cons.mp hn with rfl | hn
          · exact Nat.le_max_left ..
          · have := ih hn
            simp only [List.foldr_cons]
            omega
      have hle := hbound g.indexes _ (mem_indexes_iff.mpr ⟨t, hget⟩)
      omega

theorem get_addTask (g : TaskGroup T) (hint : Nat) (t : T) (j : Nat) :
    (g.addTask hint t).get j = if j = g.freeIndex hint then some t else g.get j :=
  get_set ..

theorem onEvent_eq_ok {g g' : TaskGroup T} {index : Nat} {handle : T → Except Panic T}
    (h : g.onEvent index handle = .ok g') :
    (g.get index = none ∧ g' = g) ∨
      ∃ t t', g.get index = some t ∧ handle t = .ok t' ∧ g' = g.set index t' := by
  unfold onEvent at h
  cases hget : g.get index with
  | none =>
    rw [hget] at h
    cases h
    exact Or.inl ⟨rfl, rfl⟩
  | some t =>
    rw [hget] at h
    obtain ⟨t', ht', heq⟩ := Except.bind_eq_ok.mp h
    cases heq
    exact Or.inr ⟨t, t', rfl, ht', rfl⟩

theorem onEvent_of_get {g : TaskGroup T} {index : Nat} {handle : T → Except Panic T} {t t' : T}
    (hget : g.get index = some t) (ht' : handle t = .ok t') :
    g.onEvent index handle = .ok (g.set index t') := by
  simp [onEvent, hget, ht', bind, Except.bind]

theorem popOutput_eq_some [TaskChild T Out] {g g' : TaskGroup T} {index : Nat} {out : Out}
    (h : g.popOutput index = some (out, g')) :
    ∃ t, g.get index = some t ∧
      ((∃ rest, TaskChild.queue t = out :: rest ∧ g' = g.set index (TaskChild.dropFront t)) ∨
        (TaskChild.isEmpty t = true ∧ out = TaskChild.emptyEvent t ∧ g' = g)) := by
  unfold popOutput at h
  cases hget : g.get index with
  | none => simp [hget] at h
  | some t =>
    simp only [hget] at h
    cases hqueue : TaskChild.queue t with
    | nil =>
      simp only [hqueue] at h
      split at h
      · rename_i hempty
        cases h
        exact ⟨t, rfl, Or.inr ⟨hempty, rfl, rfl⟩⟩
      · cases h
    | cons o rest =>
      simp only [hqueue] at h
      cases h
      exact ⟨t, rfl, Or.inl ⟨rest, hqueue, rfl⟩⟩

/-- A removal frees the index and nothing else. -/
theorem removeTask_eq_ok [TaskChild T Out] {g g' : TaskGroup T} {index : Nat} {msg : String}
    (h : g.removeTask index msg = .ok g') (j : Nat) :
    g'.get j = if j = index then none else g.get j := by
  unfold removeTask at h
  cases hget : g.get index with
  | none =>
    rw [hget] at h
    cases h
    by_cases hj : j = index
    · rw [if_pos hj, hj, hget]
    · rw [if_neg hj]
  | some t =>
    simp only [hget] at h
    split at h
    · cases h
      exact IndexMap.get_swapRemove ..
    · cases h

theorem removeTask_of_isEmpty [TaskChild T Out] {g : TaskGroup T} {index : Nat} {t : T}
    (hget : g.get index = some t) (hempty : TaskChild.isEmpty t = true) (msg : String) :
    ∃ g', g.removeTask index msg = .ok g' := by
  have hqueue := TaskChild.queue_of_isEmpty t hempty
  refine ⟨⟨g.tasks.swapRemove index⟩, ?_⟩
  simp only [removeTask, hget, hqueue, List.isEmpty_nil, if_true]

/-! ### Broadcasts -/

/-- What holds of every task and is kept by every delivery holds after a broadcast. -/
theorem onEvents_invariant {handle : T → Except Panic T} (P : TaskGroup T → Prop)
    (hstep : ∀ g index t t', P g → g.get index = some t → handle t = .ok t' →
      P (g.set index t'))
    {indexes : List Nat} {g g' : TaskGroup T} (hP : P g)
    (h : onEvents handle indexes g = .ok g') : P g' := by
  induction indexes generalizing g with
  | nil =>
    cases h
    exact hP
  | cons index rest ih =>
    obtain ⟨g₁, hg₁, hrest⟩ := Except.bind_eq_ok.mp h
    rcases onEvent_eq_ok hg₁ with ⟨-, rfl⟩ | ⟨t, t', hget, ht', rfl⟩
    · exact ih hP hrest
    · exact ih (hstep g index t t' hP hget ht') hrest

/-- What a delivery establishes and later deliveries keep holds of every task addressed. -/
theorem onEvents_establishes {handle : T → Except Panic T} (P : T → Prop)
    (hstep : ∀ t t', handle t = .ok t' → P t')
    {indexes : List Nat} {g g' : TaskGroup T} (h : onEvents handle indexes g = .ok g')
    {index : Nat} (hmem : index ∈ indexes) {t' : T} (hget : g'.get index = some t') : P t' := by
  induction indexes generalizing g with
  | nil => cases hmem
  | cons i rest ih =>
    obtain ⟨g₁, hg₁, hrest⟩ := Except.bind_eq_ok.mp h
    by_cases hin : index ∈ rest
    · exact ih hrest hin
    · obtain rfl : index = i := (List.mem_cons.mp hmem).resolve_right hin
      -- no later delivery reaches this task, so it is as the first one left it
      have hkeep : ∀ (l : List Nat) (a b : TaskGroup T), index ∉ l →
          onEvents handle l a = .ok b → b.get index = a.get index := by
        intro l
        induction l with
        | nil =>
          intro a b _ hab
          cases hab
          rfl
        | cons k ks ihk =>
          intro a b hk hab
          obtain ⟨c, hc, hcb⟩ := Except.bind_eq_ok.mp hab
          rw [List.mem_cons, not_or] at hk
          rw [ihk c b hk.2 hcb]
          rcases onEvent_eq_ok hc with ⟨-, rfl⟩ | ⟨t, u, -, -, rfl⟩
          · rfl
          · exact get_set_ne _ _ hk.1
      rw [hkeep rest g₁ g' hin hrest] at hget
      rcases onEvent_eq_ok hg₁ with ⟨hnone, rfl⟩ | ⟨t, u, -, hu, rfl⟩
      · rw [hnone] at hget
        cases hget
      · rw [get_set_self] at hget
        cases hget
        exact hstep t _ hu

/-- Every task took one event. -/
def Image (handle : T → Except Panic T) (g g' : TaskGroup T) : Prop :=
  ∀ index, (g.get index = none ∧ g'.get index = none) ∨
    ∃ t t', g.get index = some t ∧ handle t = .ok t' ∧ g'.get index = some t'

theorem Image.exists_before {handle : T → Except Panic T} {g g' : TaskGroup T}
    (h : Image handle g g') {index : Nat} {t' : T} (hget : g'.get index = some t') :
    ∃ t, g.get index = some t ∧ handle t = .ok t' := by
  rcases h index with ⟨-, hnone⟩ | ⟨t, u, ht, hu, hget'⟩
  · rw [hnone] at hget
    cases hget
  · rw [hget'] at hget
    cases hget
    exact ⟨t, ht, hu⟩

theorem Image.exists_after {handle : T → Except Panic T} {g g' : TaskGroup T}
    (h : Image handle g g') {index : Nat} {t : T} (hget : g.get index = some t) :
    ∃ t', g'.get index = some t' ∧ handle t = .ok t' := by
  rcases h index with ⟨hnone, -⟩ | ⟨u, t', hu, ht', hget'⟩
  · rw [hnone] at hget
    cases hget
  · rw [hu] at hget
    cases hget
    exact ⟨t', hget', ht'⟩

/-- A broadcast to distinct indexes gives each task addressed the event exactly once. -/
theorem onEvents_once {handle : T → Except Panic T} {indexes : List Nat} {g g' : TaskGroup T}
    (hnodup : indexes.Nodup) (h : onEvents handle indexes g = .ok g') :
    (∀ index, index ∉ indexes → g'.get index = g.get index) ∧
      ∀ index ∈ indexes, (g.get index = none ∧ g'.get index = none) ∨
        ∃ t t', g.get index = some t ∧ handle t = .ok t' ∧ g'.get index = some t' := by
  induction indexes generalizing g with
  | nil =>
    cases h
    exact ⟨fun _ _ => rfl, fun _ h => by cases h⟩
  | cons i rest ih =>
    rw [List.nodup_cons] at hnodup
    obtain ⟨g₁, hg₁, hrest⟩ := Except.bind_eq_ok.mp h
    obtain ⟨hout, hin⟩ := ih hnodup.2 hrest
    have hother : ∀ j, j ≠ i → g₁.get j = g.get j := by
      intro j hj
      rcases onEvent_eq_ok hg₁ with ⟨-, rfl⟩ | ⟨t, t', -, -, rfl⟩
      · rfl
      · exact get_set_ne _ _ hj
    have hne : ∀ j ∈ rest, j ≠ i := fun j hj heq => hnodup.1 (heq ▸ hj)
    refine ⟨?_, ?_⟩
    · intro j hj
      rw [List.mem_cons, not_or] at hj
      rw [hout j hj.2, hother j hj.1]
    · intro j hj
      rcases List.mem_cons.mp hj with rfl | hj
      · rw [hout j hnodup.1]
        rcases onEvent_eq_ok hg₁ with ⟨hnone, rfl⟩ | ⟨t, t', ht, ht', rfl⟩
        · exact Or.inl ⟨hnone, hnone⟩
        · exact Or.inr ⟨t, t', ht, ht', get_set_self ..⟩
      · rw [← hother j (hne j hj)]
        exact hin j hj

/-- A broadcast to distinct indexes succeeds when every task addressed takes the event. -/
theorem onEvents_ok {handle : T → Except Panic T} {indexes : List Nat} {g : TaskGroup T}
    (hnodup : indexes.Nodup)
    (hok : ∀ index ∈ indexes, ∀ t, g.get index = some t → ∃ t', handle t = .ok t') :
    ∃ g', onEvents handle indexes g = .ok g' := by
  induction indexes generalizing g with
  | nil => exact ⟨g, rfl⟩
  | cons i rest ih =>
    rw [List.nodup_cons] at hnodup
    obtain ⟨g₁, hg₁⟩ : ∃ g₁, g.onEvent i handle = .ok g₁ := by
      cases hget : g.get i with
      | none => exact ⟨g, by simp [onEvent, hget]⟩
      | some t =>
        obtain ⟨t', ht'⟩ := hok i (List.mem_cons_self ..) t hget
        exact ⟨g.set i t', onEvent_of_get hget ht'⟩
    obtain ⟨g', hg'⟩ := ih (g := g₁) hnodup.2 (by
      intro j hj t ht
      have hne : j ≠ i := fun heq => hnodup.1 (heq ▸ hj)
      refine hok j (List.mem_cons_of_mem _ hj) t ?_
      rcases onEvent_eq_ok hg₁ with ⟨-, rfl⟩ | ⟨u, u', -, -, rfl⟩
      · exact ht
      · rwa [get_set_ne _ _ hne] at ht)
    exact ⟨g', by simp only [onEvents, hg₁, bind, Except.bind]; exact hg'⟩

theorem onAll_image {handle : T → Except Panic T} {g g' : TaskGroup T}
    (h : g.onAll handle = .ok g') : Image handle g g' := by
  obtain ⟨hout, hin⟩ := onEvents_once g.nodup_indexes h
  intro index
  by_cases hmem : index ∈ g.indexes
  · exact hin index hmem
  · have hnone : g.get index = none := by
      cases hget : g.get index with
      | none => rfl
      | some t => exact absurd (mem_indexes_iff.mpr ⟨t, hget⟩) hmem
    exact Or.inl ⟨hnone, (hout index hmem).trans hnone⟩

theorem onAll_ok {handle : T → Except Panic T} {g : TaskGroup T}
    (hok : ∀ index t, g.get index = some t → ∃ t', handle t = .ok t') :
    ∃ g', g.onAll handle = .ok g' :=
  onEvents_ok g.nodup_indexes fun index _ t ht => hok index t ht

/-! ### Turns until nothing is left -/

section Load

variable [TaskChild T Out]

/-- A bound on the turns until a task has nothing more to hand out, its removal included. -/
def load (g : TaskGroup T) (index : Nat) : Nat :=
  match g.get index with
  | none => 0
  | some t =>
      if (TaskChild.queue t).isEmpty ∧ TaskChild.isEmpty t = false then 0
      else (TaskChild.queue t).length + 1

/-- The index is free, or its task is idle and not about to be removed. -/
def Settled (g : TaskGroup T) (index : Nat) : Prop :=
  ∀ t, g.get index = some t → TaskChild.queue t = [] ∧ TaskChild.isEmpty t = false

theorem load_of_get_eq_some {g : TaskGroup T} {index : Nat} {t : T}
    (hget : g.get index = some t) :
    g.load index = if (TaskChild.queue t).isEmpty ∧ TaskChild.isEmpty t = false then 0
      else (TaskChild.queue t).length + 1 := by
  simp only [load, hget]

theorem load_of_get_eq_none {g : TaskGroup T} {index : Nat} (hget : g.get index = none) :
    g.load index = 0 := by
  simp only [load, hget]

theorem settled_of_load_eq_zero {g : TaskGroup T} {index : Nat} (h : g.load index = 0) :
    g.Settled index := by
  intro t hget
  rw [load_of_get_eq_some hget] at h
  split at h
  · rename_i hidle
    exact ⟨List.isEmpty_iff.mp hidle.1, hidle.2⟩
  · omega

theorem load_le {g : TaskGroup T} {index : Nat} {t : T} (hget : g.get index = some t) :
    g.load index ≤ (TaskChild.queue t).length + 1 := by
  rw [load_of_get_eq_some hget]
  split <;> omega

theorem load_congr {g g' : TaskGroup T} {index : Nat} (h : g'.get index = g.get index) :
    g'.load index = g.load index := by
  cases hget : g.get index with
  | none => rw [load_of_get_eq_none hget, load_of_get_eq_none (h.trans hget)]
  | some t => rw [load_of_get_eq_some hget, load_of_get_eq_some (h.trans hget)]

/-- A task from which nothing can be popped is settled. -/
theorem load_of_popOutput_eq_none {g : TaskGroup T} {index : Nat}
    (h : g.popOutput index = none) : g.load index = 0 := by
  unfold popOutput at h
  cases hget : g.get index with
  | none => exact load_of_get_eq_none hget
  | some t =>
    simp only [hget] at h
    cases hqueue : TaskChild.queue t with
    | cons out rest => simp [hqueue] at h
    | nil =>
      simp only [hqueue] at h
      cases hempty : TaskChild.isEmpty t with
      | true => simp [hempty] at h
      | false => simp [load_of_get_eq_some hget, hqueue, hempty]

/-- Popping an output takes one turn off the task's load. -/
theorem load_set_dropFront {g : TaskGroup T} {index : Nat} {t : T} {out : Out} {rest : List Out}
    (hget : g.get index = some t) (hqueue : TaskChild.queue t = out :: rest) :
    (g.set index (TaskChild.dropFront t)).load index < g.load index := by
  have hbefore : g.load index = rest.length + 2 := by
    simp [load_of_get_eq_some hget, hqueue]
  have hafter := load_le (get_set_self g index (TaskChild.dropFront t))
  rw [TaskChild.queue_dropFront, hqueue, List.tail_cons] at hafter
  omega

end Load

/-! ### Sums over the tasks -/

/-- The sum of a quantity over all tasks. -/
def total (quantity : T → Nat) (g : TaskGroup T) : Nat := (g.all.map quantity).sum

variable {quantity : T → Nat} {g g' : TaskGroup T} {index : Nat} {t : T}

/-- The quantity of all tasks but the one at an index. -/
private def totalBut (quantity : T → Nat) (g : TaskGroup T) (index : Nat) : Nat :=
  ((g.tasks.entries.filter (fun entry => entry.1 ≠ index)).map fun entry => quantity entry.2).sum

private theorem total_eq_sum (quantity : T → Nat) (g : TaskGroup T) :
    g.total quantity = (g.tasks.entries.map fun entry => quantity entry.2).sum := by
  rw [total, all, IndexMap.values, List.map_map]
  rfl

private theorem total_of_get (hget : g.get index = some t) :
    g.total quantity = quantity t + totalBut quantity g index := by
  rw [total_eq_sum, ((IndexMap.entries_perm_of_get hget).map _).sum_nat]
  rfl

private theorem total_of_get_none (hget : g.get index = none) :
    g.total quantity = totalBut quantity g index := by
  rw [total_eq_sum, totalBut, List.filter_eq_self.mpr]
  intro entry hmem
  have hnot := IndexMap.get_eq_none_iff.mp hget
  simp only [ne_eq, decide_eq_true_eq]
  rintro rfl
  exact hnot (List.mem_map.mpr ⟨entry, hmem, rfl⟩)

private theorem total_set_eq (g : TaskGroup T) (index : Nat) (u : T) :
    (g.set index u).total quantity = quantity u + totalBut quantity g index := by
  rw [total_eq_sum, set, ((IndexMap.entries_insert_perm g.tasks index u).map _).sum_nat]
  rfl

/-- Replacing a task replaces its share. -/
theorem total_set (hget : g.get index = some t) (u : T) :
    (g.set index u).total quantity + quantity t = g.total quantity + quantity u := by
  rw [total_set_eq, total_of_get hget]
  omega

theorem total_addTask (g : TaskGroup T) (hint : Nat) (t : T) :
    (g.addTask hint t).total quantity = g.total quantity + quantity t := by
  rw [addTask, total_set_eq, total_of_get_none (g.get_freeIndex hint)]
  omega

/-- Freeing an index takes the share of its task. -/
theorem total_of_gone (hget : g.get index = some t)
    (hgone : ∀ j, g'.get j = if j = index then none else g.get j) :
    g'.total quantity + quantity t = g.total quantity := by
  have hnone : g'.get index = none := by rw [hgone, if_pos rfl]
  have hperm : (g'.tasks.entries.filter fun entry => entry.1 ≠ index).Perm
      (g.tasks.entries.filter fun entry => entry.1 ≠ index) := by
    refine (List.perm_ext_iff_of_nodup ((IndexMap.nodup_entries _).filter _)
      ((IndexMap.nodup_entries _).filter _)).mpr ?_
    rintro ⟨j, u⟩
    simp only [List.mem_filter, ne_eq, decide_not, Bool.not_eq_true', decide_eq_false_iff_not,
      ← IndexMap.get_eq_some_iff]
    refine and_congr_left fun hj => ?_
    have hsame := hgone j
    rw [if_neg hj] at hsame
    change g'.get j = some u ↔ g.get j = some u
    rw [hsame]
  rw [total_of_get_none hnone, total_of_get hget, totalBut, totalBut, (hperm.map _).sum_nat]
  omega

/-- A broadcast that changes no share changes no sum. -/
theorem total_onEvents {handle : T → Except Panic T} {indexes : List Nat}
    (hkeep : ∀ t t', handle t = .ok t' → quantity t' = quantity t)
    (h : onEvents handle indexes g = .ok g') : g'.total quantity = g.total quantity := by
  refine onEvents_invariant (fun g' => g'.total quantity = g.total quantity) ?_ rfl h
  intro g₁ index t t' hsame hget hhandle
  have hset : (g₁.set index t').total quantity + quantity t = _ := total_set hget t'
  have hshare := hkeep t t' hhandle
  omega

theorem total_eq_zero (h : ∀ index t, g.get index = some t → quantity t = 0) :
    g.total quantity = 0 := by
  rw [total, List.sum_eq_zero_iff_forall_eq_nat]
  intro share hmem
  obtain ⟨t, ht, rfl⟩ := List.mem_map.mp hmem
  obtain ⟨index, hget⟩ := mem_all_iff.mp ht
  exact h index t hget

end TaskGroup

end Runtime
