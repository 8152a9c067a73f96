import MediaServer.Lib.TaskGroup
import MediaServer.Utils.IndexMap2d

/-!
# A table from ids to the tasks of a group

An owner of a task group finds its tasks through an `IndexMap2d` from ids to task
indexes.  `Indexed` says that every task is found, in both directions; `Exact` says
that moreover nothing else is in the table, so that the table is a bijection
between the ids of the tasks and the occupied indexes.
-/

namespace MediaServer

open Collections Runtime

variable {Id T : Type} [DecidableEq Id]

/-- Every task stands in the table under its own id and index. -/
def Indexed (table : IndexMap2d Id Nat) (g : TaskGroup T) (idOf : T → Id) : Prop :=
  ∀ index t, g.get index = some t →
    table.get1 (idOf t) = some index ∧ table.get2 index = some (idOf t)

/-- The pairs of the table are exactly the ids and indexes of the tasks. -/
structure Exact (table : IndexMap2d Id Nat) (g : TaskGroup T) (idOf : T → Id) : Prop where
  forth : ∀ id index, table.get1 id = some index ↔ ∃ t, g.get index = some t ∧ idOf t = id
  back : ∀ id index, table.get2 index = some id ↔ ∃ t, g.get index = some t ∧ idOf t = id

/-- The loop over the pairs of the table hands an event to every task exactly once. -/
def HandsOnce (table : IndexMap2d Id Nat) (g : TaskGroup T) (handle : T → Except Panic T) :
    Prop :=
  ∃ g', TaskGroup.onEvents handle (table.pairs.map Prod.snd) g = .ok g' ∧
    TaskGroup.Image handle g g'

namespace Indexed

variable {table : IndexMap2d Id Nat} {g g' : TaskGroup T} {idOf : T → Id}

/-- Two tasks with one id are one task. -/
theorem index_eq (h : Indexed table g idOf) {i j : Nat} {t u : T} (ht : g.get i = some t)
    (hu : g.get j = some u) (hid : idOf t = idOf u) : i = j := by
  have hi := (h i t ht).1
  have hj := (h j u hu).1
  rw [hid, hj] at hi
  exact (Option.some.inj hi).symm

/-- Tasks may be removed and may change as long as they keep their ids. -/
theorem mono (h : Indexed table g idOf)
    (hsame : ∀ index t', g'.get index = some t' → ∃ t, g.get index = some t ∧ idOf t = idOf t') :
    Indexed table g' idOf := by
  intro index t' ht'
  obtain ⟨t, ht, hid⟩ := hsame index t' ht'
  rw [← hid]
  exact h index t ht

theorem addTask (h : Indexed table g idOf) {t : T} (hint : Nat)
    (hfresh : ∀ index u, g.get index = some u → idOf u ≠ idOf t) :
    Indexed (table.insert (idOf t) (g.freeIndex hint)) (g.addTask hint t) idOf := by
  intro index u hu
  rw [TaskGroup.get_addTask] at hu
  by_cases hindex : index = g.freeIndex hint
  · rw [if_pos hindex] at hu
    cases hu
    rw [IndexMap2d.get1_insert, IndexMap2d.get2_insert, if_pos rfl, if_pos hindex, hindex]
    exact ⟨rfl, rfl⟩
  · rw [if_neg hindex] at hu
    rw [IndexMap2d.get1_insert, IndexMap2d.get2_insert, if_neg (hfresh index u hu),
      if_neg hindex]
    exact h index u hu

/-- Replacing a task by one with the same id. -/
theorem set (h : Indexed table g idOf) {index : Nat} {t t' : T} (ht : g.get index = some t)
    (hid : idOf t' = idOf t) : Indexed table (g.set index t') idOf := by
  refine h.mono fun j u hu => ?_
  rcases TaskGroup.get_set_eq_some hu with ⟨rfl, rfl⟩ | ⟨-, hold⟩
  · exact ⟨t, ht, hid.symm⟩
  · exact ⟨u, hold, rfl⟩

/-- Dropping the pair of a removed task. -/
theorem remove1 (h : Indexed table g idOf) {removed : Nat} {t : T}
    (ht : g.get removed = some t)
    (hgone : ∀ index, g'.get index = if index = removed then none else g.get index) :
    Indexed (table.remove1 (idOf t)) g' idOf := by
  intro index u hu
  rw [hgone] at hu
  by_cases hindex : index = removed
  · rw [if_pos hindex] at hu
    cases hu
  · rw [if_neg hindex] at hu
    have hid : idOf u ≠ idOf t := fun hid => hindex (h.index_eq hu ht hid)
    rw [IndexMap2d.get1_remove1, if_neg hid, IndexMap2d.get2_remove1 (h removed t ht).1,
      if_neg hindex]
    exact h index u hu

/-- The loop over the pairs reaches every task. -/
theorem mem_pairs (h : Indexed table g idOf) {index : Nat} {t : T} (ht : g.get index = some t) :
    index ∈ table.pairs.map Prod.snd :=
  List.mem_map.mpr ⟨(idOf t, index), IndexMap2d.mem_pairs_iff.mpr (h index t ht).1, rfl⟩

/-- A broadcast whose handler keeps the ids. -/
theorem onEvents (h : Indexed table g idOf) {handle : T → Except Panic T} {indexes : List Nat}
    (hid : ∀ t t', handle t = .ok t' → idOf t' = idOf t)
    (hrun : TaskGroup.onEvents handle indexes g = .ok g') : Indexed table g' idOf :=
  TaskGroup.onEvents_invariant (fun g' => Indexed table g' idOf)
    (fun _ _ _ _ hg₁ ht hhandle => hg₁.set ht (hid _ _ hhandle)) h hrun

end Indexed

/-- Every id of the list has a task. -/
def Live (ids : List Id) (g : TaskGroup T) (idOf : T → Id) : Prop :=
  ∀ id ∈ ids, ∃ index t, g.get index = some t ∧ idOf t = id

omit [DecidableEq Id] in
theorem Live.set {ids : List Id} {g : TaskGroup T} {idOf : T → Id} (h : Live ids g idOf)
    {index : Nat} {t t' : T} (ht : g.get index = some t) (hid : idOf t' = idOf t) :
    Live ids (g.set index t') idOf := by
  intro id hmem
  obtain ⟨j, u, hu, rfl⟩ := h id hmem
  by_cases hj : j = index
  · subst hj
    rw [ht] at hu
    cases hu
    exact ⟨j, t', TaskGroup.get_set_self .., hid⟩
  · exact ⟨j, u, (TaskGroup.get_set_ne _ _ hj).trans hu, rfl⟩

omit [DecidableEq Id] in
/-- Handlers that keep the id keep the tasks alive. -/
theorem Live.image {ids : List Id} {g g' : TaskGroup T} {idOf : T → Id} (h : Live ids g idOf)
    {handle : T → Except Panic T} (himage : TaskGroup.Image handle g g')
    (hid : ∀ t t', handle t = .ok t' → idOf t' = idOf t) : Live ids g' idOf := by
  intro id hmem
  obtain ⟨j, u, hu, rfl⟩ := h id hmem
  obtain ⟨u', hu', hhandle⟩ := himage.exists_after hu
  exact ⟨j, u', hu', hid u u' hhandle⟩

omit [DecidableEq Id] in
/-- A task whose id is not listed may go. -/
theorem Live.remove {ids : List Id} {g g' : TaskGroup T} {idOf : T → Id} (h : Live ids g idOf)
    {removed : Nat} {t : T} (ht : g.get removed = some t) (hclosed : idOf t ∉ ids)
    (hgone : ∀ index, g'.get index = if index = removed then none else g.get index) :
    Live ids g' idOf := by
  intro id hmem
  obtain ⟨j, u, hu, rfl⟩ := h id hmem
  refine ⟨j, u, ?_, rfl⟩
  rw [hgone, if_neg, hu]
  rintro rfl
  rw [ht] at hu
  cases hu
  exact hclosed hmem

omit [DecidableEq Id] in
theorem Live.addTask {ids : List Id} {g : TaskGroup T} {idOf : T → Id} (h : Live ids g idOf)
    (hint : Nat) (t : T) : Live ids (g.addTask hint t) idOf := by
  intro id hmem
  obtain ⟨j, u, hu, rfl⟩ := h id hmem
  refine ⟨j, u, ?_, rfl⟩
  rw [TaskGroup.get_addTask, if_neg, hu]
  rintro rfl
  rw [g.get_freeIndex] at hu
  cases hu

/-- A register of ids beside a group: every id on it is the id of a task, and each task
    stands in the relation `P` to whether its own id is on it. -/
structure Registered (P : T → Bool → Prop) (g : TaskGroup T) (idOf : T → Id)
    (listed : Id → Bool) : Prop where
  owned : ∀ id, listed id = true → ∃ index t, g.get index = some t ∧ idOf t = id
  each : ∀ index t, g.get index = some t → P t (listed (idOf t))

namespace Registered

variable {P P' : T → Bool → Prop} {g g' : TaskGroup T} {idOf : T → Id} {listed listed' : Id → Bool}
  {table : IndexMap2d Id Nat}

omit [DecidableEq Id] in
theorem mono (h : Registered P g idOf listed)
    (himp : ∀ index t m, g.get index = some t → P t m → P' t m) : Registered P' g idOf listed :=
  ⟨h.owned, fun index t ht => himp index t _ ht (h.each index t ht)⟩

omit [DecidableEq Id] in
/-- Only what the indexes hold matters. -/
theorem congr (h : Registered P g idOf listed) (hget : ∀ index, g'.get index = g.get index) :
    Registered P g' idOf listed := by
  refine ⟨fun id hlisted => ?_, fun index t ht => ?_⟩
  · obtain ⟨index, t, ht, hid⟩ := h.owned id hlisted
    exact ⟨index, t, (hget index).trans ht, hid⟩
  · rw [hget] at ht
    exact h.each index t ht

omit [DecidableEq Id] in
/-- A task changes and keeps its id. -/
theorem set (h : Registered P g idOf listed) {index : Nat} {t t' : T}
    (ht : g.get index = some t) (hid : idOf t' = idOf t) (hP : P t' (listed (idOf t))) :
    Registered P (g.set index t') idOf listed := by
  refine ⟨fun id hlisted => ?_, fun j u hu => ?_⟩
  · obtain ⟨j, u, hu, rfl⟩ := h.owned id hlisted
    by_cases hj : j = index
    · subst hj
      rw [ht] at hu
      cases hu
      exact ⟨j, t', TaskGroup.get_set_self .., hid⟩
    · exact ⟨j, u, (TaskGroup.get_set_ne _ _ hj).trans hu, rfl⟩
  · rcases TaskGroup.get_set_eq_some hu with ⟨-, rfl⟩ | ⟨-, hold⟩
    · rw [hid]
      exact hP
    · exact h.each j u hold

/-- A task changes, and the register at its id. -/
theorem pass (h : Registered P g idOf listed) (htable : Indexed table g idOf) {index : Nat}
    {t t' : T} (ht : g.get index = some t) (hid : idOf t' = idOf t)
    (hother : ∀ id, id ≠ idOf t → listed' id = listed id) (hP : P t' (listed' (idOf t))) :
    Registered P (g.set index t') idOf listed' := by
  refine ⟨fun id hlisted => ?_, fun j u hu => ?_⟩
  · by_cases hsame : id = idOf t
    · exact ⟨index, t', TaskGroup.get_set_self .., hid.trans hsame.symm⟩
    · rw [hother id hsame] at hlisted
      obtain ⟨j, u, hu, rfl⟩ := h.owned id hlisted
      refine ⟨j, u, ?_, rfl⟩
      rw [TaskGroup.get_set_ne, hu]
      rintro rfl
      rw [ht] at hu
      cases hu
      exact hsame rfl
  · rcases TaskGroup.get_set_eq_some hu with ⟨-, rfl⟩ | ⟨hj, hold⟩
    · rw [hid]
      exact hP
    · rw [hother _ fun hsame => hj (htable.index_eq hold ht hsame)]
      exact h.each j u hold

/-- A task goes, and its id is taken off the register. -/
theorem remove (h : Registered P g idOf listed) (htable : Indexed table g idOf) {removed : Nat}
    {t : T} (ht : g.get removed = some t)
    (hgone : ∀ index, g'.get index = if index = removed then none else g.get index)
    (hother : ∀ id, id ≠ idOf t → listed' id = listed id) (hoff : listed' (idOf t) = false) :
    Registered P g' idOf listed' := by
  refine ⟨fun id hlisted => ?_, fun j u hu => ?_⟩
  · have hid : id ≠ idOf t := by
      rintro rfl
      rw [hoff] at hlisted
      cases hlisted
    rw [hother id hid] at hlisted
    obtain ⟨j, u, hu, rfl⟩ := h.owned id hlisted
    refine ⟨j, u, ?_, rfl⟩
    rw [hgone, if_neg, hu]
    rintro rfl
    rw [ht] at hu
    cases hu
    exact hid rfl
  · rw [hgone] at hu
    by_cases hj : j = removed
    · rw [if_pos hj] at hu
      cases hu
    · rw [if_neg hj] at hu
      have hid : idOf u ≠ idOf t := fun hid => hj (htable.index_eq hu ht hid)
      rw [hother _ hid]
      exact h.each j u hu

omit [DecidableEq Id] in
/-- An id that no task has is not on the register. -/
theorem listed_eq_false (h : Registered P g idOf listed) {id : Id}
    (hfresh : ∀ index t, g.get index = some t → idOf t ≠ id) : listed id = false := by
  cases hlisted : listed id with
  | false => rfl
  | true =>
    obtain ⟨index, t, ht, hid⟩ := h.owned id hlisted
    exact absurd hid (hfresh index t ht)

omit [DecidableEq Id] in
/-- A task with a new id comes. -/
theorem addTask (h : Registered P g idOf listed) {t : T} (hint : Nat)
    (hfresh : ∀ index u, g.get index = some u → idOf u ≠ idOf t) (hP : P t false) :
    Registered P (g.addTask hint t) idOf listed := by
  refine ⟨fun id hlisted => ?_, fun j u hu => ?_⟩
  · obtain ⟨j, u, hu, rfl⟩ := h.owned id hlisted
    refine ⟨j, u, ?_, rfl⟩
    rw [TaskGroup.get_addTask, if_neg, hu]
    rintro rfl
    rw [g.get_freeIndex] at hu
    cases hu
  · rw [TaskGroup.get_addTask] at hu
    by_cases hj : j = g.freeIndex hint
    · rw [if_pos hj] at hu
      cases hu
      rw [h.listed_eq_false hfresh]
      exact hP
    · rw [if_neg hj] at hu
      exact h.each j u hu

omit [DecidableEq Id] in
/-- A broadcast whose handler keeps the ids and the relation. -/
theorem onEvents (h : Registered P g idOf listed) {handle : T → Except Panic T}
    {indexes : List Nat}
    (hkeep : ∀ t t' m, P t m → handle t = .ok t' → idOf t' = idOf t ∧ P t' m)
    (hrun : TaskGroup.onEvents handle indexes g = .ok g') : Registered P g' idOf listed := by
  refine TaskGroup.onEvents_invariant (fun g' => Registered P g' idOf listed) ?_ h hrun
  intro g₁ index t t' hg₁ ht hhandle
  obtain ⟨hid, hP⟩ := hkeep t t' _ (hg₁.each index t ht) hhandle
  exact hg₁.set ht hid hP

end Registered

namespace Exact

variable {table : IndexMap2d Id Nat} {g g' : TaskGroup T} {idOf : T → Id}

theorem indexed (h : Exact table g idOf) : Indexed table g idOf :=
  fun _ t ht => ⟨(h.forth _ _).mpr ⟨t, ht, rfl⟩, (h.back _ _).mpr ⟨t, ht, rfl⟩⟩

theorem empty : Exact (∅ : IndexMap2d Id Nat) (∅ : TaskGroup T) idOf := by
  have hnone : ∀ (id : Id) (index : Nat),
      ¬ ∃ t, (∅ : TaskGroup T).get index = some t ∧ idOf t = id := by
    rintro id index ⟨t, h, -⟩
    cases h
  refine ⟨fun id index => iff_of_false ?_ (hnone id index),
    fun id index => iff_of_false ?_ (hnone id index)⟩
  · rintro ⟨⟩
  · rintro ⟨⟩

/-- Tasks may change as long as they keep their ids. -/
theorem congr (h : Exact table g idOf)
    (hsame : ∀ index id, (∃ t', g'.get index = some t' ∧ idOf t' = id) ↔
      ∃ t, g.get index = some t ∧ idOf t = id) : Exact table g' idOf :=
  ⟨fun id index => (h.forth id index).trans (hsame index id).symm,
    fun id index => (h.back id index).trans (hsame index id).symm⟩

theorem addTask (h : Exact table g idOf) {t : T} (hint : Nat)
    (hfresh : ∀ index u, g.get index = some u → idOf u ≠ idOf t) :
    Exact (table.insert (idOf t) (g.freeIndex hint)) (g.addTask hint t) idOf := by
  have hfree := g.get_freeIndex hint
  -- the new id and the new index are both unused
  have hnone : ∀ index, table.get1 (idOf t) ≠ some index := by
    intro index hsome
    obtain ⟨u, hu, hid⟩ := (h.forth _ _).mp hsome
    exact hfresh index u hu hid
  refine ⟨fun id index => ?_, fun id index => ?_⟩
  · rw [IndexMap2d.get1_insert, TaskGroup.get_addTask]
    by_cases hindex : index = g.freeIndex hint
    · subst hindex
      rw [if_pos rfl]
      by_cases hid : id = idOf t
      · simp [hid]
      · rw [if_neg hid]
        refine ⟨fun hsome => ?_, fun ⟨u, hu, heq⟩ => ?_⟩
        · obtain ⟨u, hu, -⟩ := (h.forth _ _).mp hsome
          rw [hfree] at hu
          cases hu
        · cases hu
          exact absurd heq.symm hid
    · rw [if_neg hindex]
      by_cases hid : id = idOf t
      · rw [if_pos hid]
        refine ⟨fun hsome => absurd (Option.some.inj hsome).symm hindex, fun ⟨u, hu, heq⟩ => ?_⟩
        exact absurd (heq.trans hid) (hfresh index u hu)
      · rw [if_neg hid]
        exact h.forth id index
  · rw [IndexMap2d.get2_insert, TaskGroup.get_addTask]
    by_cases hindex : index = g.freeIndex hint
    · rw [if_pos hindex, if_pos hindex]
      constructor
      · intro hsome
        exact ⟨t, rfl, Option.some.inj hsome⟩
      · rintro ⟨u, hu, rfl⟩
        cases hu
        rfl
    · rw [if_neg hindex, if_neg hindex]
      exact h.back id index

theorem remove1 (h : Exact table g idOf) {removed : Nat} {t : T}
    (ht : g.get removed = some t)
    (hgone : ∀ index, g'.get index = if index = removed then none else g.get index) :
    Exact (table.remove1 (idOf t)) g' idOf := by
  have hpair := (h.indexed removed t ht).1
  refine ⟨fun id index => ?_, fun id index => ?_⟩
  · rw [IndexMap2d.get1_remove1, hgone]
    by_cases hindex : index = removed
    · subst hindex
      rw [if_pos rfl]
      by_cases hid : id = idOf t
      · simp [hid]
      · rw [if_neg hid, h.forth]
        simp [ht, Ne.symm hid]
    · rw [if_neg hindex]
      by_cases hid : id = idOf t
      · rw [if_pos hid]
        refine ⟨fun hsome => (by cases hsome), fun ⟨u, hu, heq⟩ => ?_⟩
        exact absurd (h.indexed.index_eq hu ht (heq.trans hid)) hindex
      · rw [if_neg hid]
        exact h.forth id index
  · rw [IndexMap2d.get2_remove1 hpair, hgone]
    by_cases hindex : index = removed
    · simp [hindex]
    · rw [if_neg hindex, if_neg hindex]
      exact h.back id index

/-- The loop over the pairs of the table addresses every task once and nothing else. -/
theorem count_pairs (h : Exact table g idOf) (index : Nat) :
    (table.pairs.map Prod.snd).count index = if (g.get index).isSome then 1 else 0 := by
  have hnodup : (table.pairs.map Prod.snd).Nodup := by
    refine (List.nodup_map_iff_inj_on (List.Nodup.of_map _ table.data.nodupKeys)).mpr ?_
    rintro ⟨id, i⟩ hmem ⟨id', i'⟩ hmem' heq
    obtain rfl : i = i' := heq
    obtain ⟨t, ht, rfl⟩ := (h.forth _ _).mp (IndexMap2d.mem_pairs_iff.mp hmem)
    obtain ⟨t', ht', rfl⟩ := (h.forth _ _).mp (IndexMap2d.mem_pairs_iff.mp hmem')
    rw [ht] at ht'
    cases ht'
    rfl
  rw [hnodup.count]
  congr 1
  rw [eq_iff_iff, List.mem_map, Option.isSome_iff_exists]
  constructor
  · rintro ⟨⟨id, i⟩, hmem, rfl⟩
    obtain ⟨t, ht, -⟩ := (h.forth _ _).mp (IndexMap2d.mem_pairs_iff.mp hmem)
    exact ⟨t, ht⟩
  · rintro ⟨t, ht⟩
    exact ⟨(idOf t, index), IndexMap2d.mem_pairs_iff.mpr (h.indexed index t ht).1, rfl⟩

theorem nodup_pairs (h : Exact table g idOf) : (table.pairs.map Prod.snd).Nodup := by
  rw [List.nodup_iff_count_le_one]
  intro index
  rw [h.count_pairs index]
  split <;> omega

theorem mem_pairs (h : Exact table g idOf) {index : Nat} :
    index ∈ table.pairs.map Prod.snd ↔ ∃ t, g.get index = some t := by
  rw [← List.count_pos_iff, h.count_pairs index, ← Option.isSome_iff_exists]
  split <;> simp_all

/-- The loop over the pairs hands an event to every task once, if every task takes it. -/
theorem broadcast (h : Exact table g idOf) {handle : T → Except Panic T}
    (hok : ∀ index t, g.get index = some t → ∃ t', handle t = .ok t') :
    HandsOnce table g handle := by
  obtain ⟨g', hg'⟩ := TaskGroup.onEvents_ok h.nodup_pairs fun index _ t ht => hok index t ht
  obtain ⟨hout, hin⟩ := TaskGroup.onEvents_once h.nodup_pairs hg'
  refine ⟨g', hg', fun index => ?_⟩
  by_cases hmem : index ∈ table.pairs.map Prod.snd
  · exact hin index hmem
  · have hnone : g.get index = none := by
      cases hget : g.get index with
      | none => rfl
      | some t => exact absurd (h.mem_pairs.mpr ⟨t, hget⟩) hmem
    exact Or.inl ⟨hnone, (hout index hmem).trans hnone⟩

/-- Handlers that keep the id keep the table exact. -/
theorem image (h : Exact table g idOf) {handle : T → Except Panic T}
    (himage : TaskGroup.Image handle g g')
    (hid : ∀ t t', handle t = .ok t' → idOf t' = idOf t) : Exact table g' idOf := by
  refine h.congr fun index id => ⟨?_, ?_⟩
  · rintro ⟨t', ht', rfl⟩
    obtain ⟨t, ht, hhandle⟩ := himage.exists_before ht'
    exact ⟨t, ht, (hid t t' hhandle).symm⟩
  · rintro ⟨t, ht, rfl⟩
    obtain ⟨t', ht', hhandle⟩ := himage.exists_after ht
    exact ⟨t', ht', hid t t' hhandle⟩

/-- Replacing a task by one with the same id. -/
theorem set (h : Exact table g idOf) {index : Nat} {t t' : T} (ht : g.get index = some t)
    (hid : idOf t' = idOf t) : Exact table (g.set index t') idOf := by
  refine h.congr fun j id => ?_
  by_cases hj : j = index
  · subst hj
    rw [TaskGroup.get_set_self, ht]
    simp [hid]
  · rw [TaskGroup.get_set_ne _ _ hj]

end Exact

end MediaServer
