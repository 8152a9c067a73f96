import Mathlib.Data.List.Perm.Basic
import Mathlib.Data.List.Nodup
import Mathlib.Tactic.Common

/-!
# Insertion-ordered maps and sets

An `IndexMap` is a map that iterates in insertion order: inserting a present key
replaces its value in place, inserting a new key appends, and `swapRemove` fills
the hole with the last entry.  The entries are a list whose keys are distinct,
and the distinctness is a field, so no operation has to re-prove it for its
callers.  `IndexSet` is the map with trivial values.

Iteration order is only visible in the order of the lists an operation produces.
Everything else is stated through `get`, so that clients never unfold the list.
-/

namespace Collections

variable {α K V : Type}

/-! ### Removing from a vector by swapping with its last element -/

/-- Remove position `i` by moving the last element into it. -/
def swapRemoveIdx (l : List α) (i : Nat) : List α :=
  match l.getLast? with
  | none => []
  | some last => (l.set i last).dropLast

theorem swapRemoveIdx_perm {l : List α} {i : Nat} (h : i < l.length) :
    (swapRemoveIdx l i).Perm (l.eraseIdx i) := by
  rcases List.eq_nil_or_concat l with rfl | ⟨front, last, rfl⟩
  · simp at h
  · simp only [List.concat_eq_append] at h ⊢
    have hlast : swapRemoveIdx (front ++ [last]) i =
        ((front ++ [last]).set i last).dropLast := by
      simp [swapRemoveIdx]
    rw [hlast]
    by_cases hi : i < front.length
    · rw [List.set_append_left _ _ hi, List.dropLast_concat,
        List.eraseIdx_append_of_lt_length hi]
      exact (List.set_perm_cons_eraseIdx hi last).trans (List.perm_append_singleton _ _).symm
    · have hlen : i = front.length := by simp at h; omega
      subst hlen
      simp [List.eraseIdx_append_of_length_le]

/-- Removing the position of an element of a list without duplicates removes
    that element and nothing else. -/
theorem mem_swapRemoveIdx_idxOf [DecidableEq α] {l : List α} {x y : α} {i : Nat}
    (hnodup : l.Nodup) (hi : l.findIdx? (fun z => z = x) = some i) :
    y ∈ swapRemoveIdx l i ↔ y ≠ x ∧ y ∈ l := by
  obtain ⟨hlt, hx, -⟩ := List.findIdx?_eq_some_iff_getElem.mp hi
  have hget : l[i] = x := by simpa using hx
  have hperm := List.getElem_cons_eraseIdx_perm hlt
  have hcons : (l[i] :: l.eraseIdx i).Nodup := hperm.nodup_iff.mpr hnodup
  rw [List.nodup_cons, hget] at hcons
  rw [(swapRemoveIdx_perm hlt).mem_iff, ← hperm.mem_iff, List.mem_cons, hget]
  constructor
  · intro hy
    exact ⟨fun heq => hcons.1 (heq ▸ hy), Or.inr hy⟩
  · rintro ⟨hne, heq | hy⟩
    · exact absurd heq hne
    · exact hy

/-- Removing a position keeps every other element. -/
theorem mem_swapRemoveIdx_of_ne {l : List α} {y : α} {i : Nat} (h : i < l.length)
    (hne : y ≠ l[i]) (hy : y ∈ l) : y ∈ swapRemoveIdx l i := by
  rw [(swapRemoveIdx_perm h).mem_iff]
  have hperm := List.getElem_cons_eraseIdx_perm h
  rcases List.mem_cons.mp (hperm.mem_iff.mpr hy) with heq | hrest
  · exact absurd heq hne
  · exact hrest

theorem nodup_swapRemoveIdx {l : List α} {i : Nat} (hnodup : l.Nodup) (h : i < l.length) :
    (swapRemoveIdx l i).Nodup :=
  (swapRemoveIdx_perm h).nodup_iff.mpr (hnodup.sublist (List.eraseIdx_sublist l i))

/-! ### Maps -/

/-- A map with distinct keys that remembers insertion order. -/
structure IndexMap (K V : Type) where
  entries : List (K × V)
  nodupKeys : (entries.map Prod.fst).Nodup
deriving DecidableEq

namespace IndexMap

/-- The map without entries. -/
def empty : IndexMap K V := ⟨[], List.nodup_nil⟩

instance : EmptyCollection (IndexMap K V) := ⟨empty⟩
instance : Inhabited (IndexMap K V) := ⟨empty⟩

def keys (m : IndexMap K V) : List K := m.entries.map Prod.fst

def values (m : IndexMap K V) : List V := m.entries.map Prod.snd

def isEmpty (m : IndexMap K V) : Bool := m.entries.isEmpty

def len (m : IndexMap K V) : Nat := m.entries.length

/-- Two entries under one key are the same entry. -/
theorem eq_of_mem_entries {m : IndexMap K V} {k : K} {v w : V}
    (hv : (k, v) ∈ m.entries) (hw : (k, w) ∈ m.entries) : v = w := by
  have hinj := List.inj_on_of_nodup_map m.nodupKeys hv hw rfl
  exact (Prod.mk.inj hinj).2

section Lookup

variable [DecidableEq K]

def get (m : IndexMap K V) (k : K) : Option V :=
  (m.entries.find? (fun entry => entry.1 = k)).map Prod.snd

def contains (m : IndexMap K V) (k : K) : Bool := (m.get k).isSome

theorem get_eq_some_iff {m : IndexMap K V} {k : K} {v : V} :
    m.get k = some v ↔ (k, v) ∈ m.entries := by
  constructor
  · intro h
    obtain ⟨⟨k', v'⟩, hfind, rfl⟩ := Option.map_eq_some_iff.mp h
    have hkey : k' = k := by simpa using List.find?_some hfind
    exact hkey ▸ List.mem_of_find?_eq_some hfind
  · intro hmem
    cases hfind : m.entries.find? (fun entry => entry.1 = k) with
    | none =>
      have := List.find?_eq_none.mp hfind (k, v) hmem
      simp at this
    | some entry =>
      obtain ⟨k', v'⟩ := entry
      have hkey : k' = k := by simpa using List.find?_some hfind
      subst hkey
      have hval := eq_of_mem_entries (List.mem_of_find?_eq_some hfind) hmem
      simp [get, hfind, hval]

theorem mem_keys_iff {m : IndexMap K V} {k : K} :
    k ∈ m.keys ↔ ∃ v, m.get k = some v := by
  simp [keys, get_eq_some_iff]

theorem get_eq_none_iff {m : IndexMap K V} {k : K} : m.get k = none ↔ k ∉ m.keys := by
  rw [mem_keys_iff]
  cases m.get k <;> simp

theorem mem_values_iff {m : IndexMap K V} {v : V} : v ∈ m.values ↔ ∃ k, m.get k = some v := by
  simp only [values, List.mem_map, Prod.exists, exists_eq_right, get_eq_some_iff]

@[simp] theorem get_empty (k : K) : (∅ : IndexMap K V).get k = none := rfl

theorem isEmpty_iff {m : IndexMap K V} : m.isEmpty = true ↔ ∀ k, m.get k = none := by
  constructor
  · intro h k
    have hnil : m.entries = [] := List.isEmpty_iff.mp h
    simp [get, hnil]
  · intro h
    cases hentries : m.entries with
    | nil => simp [isEmpty, hentries]
    | cons entry rest =>
      have : m.get entry.1 = some entry.2 := get_eq_some_iff.mpr (by simp [hentries])
      simp [h] at this

end Lookup

section Update

variable [DecidableEq K]

/-- Replace the value of a present key in place, append a new key. -/
def insert (m : IndexMap K V) (k : K) (v : V) : IndexMap K V :=
  if hk : k ∈ m.keys then
    ⟨m.entries.map (fun entry => if entry.1 = k then (k, v) else entry), by
      have hkeys : (m.entries.map (fun entry => if entry.1 = k then (k, v) else entry)).map
          Prod.fst = m.entries.map Prod.fst := by
        rw [List.map_map]
        refine List.map_congr_left fun entry _ => ?_
        by_cases h : entry.1 = k <;> simp [h]
      rw [hkeys]
      exact m.nodupKeys⟩
  else
    ⟨m.entries ++ [(k, v)], by
      rw [List.map_append]
      refine List.nodup_append.mpr ⟨m.nodupKeys, by simp, ?_⟩
      intro a ha b hb hab
      rw [List.map_singleton, List.mem_singleton] at hb
      rw [hab, hb] at ha
      exact hk ha⟩

theorem mem_entries_insert {m : IndexMap K V} {k k' : K} {v v' : V} :
    (k', v') ∈ (m.insert k v).entries ↔
      (k' = k ∧ v' = v) ∨ (k' ≠ k ∧ (k', v') ∈ m.entries) := by
  unfold insert
  split
  · rename_i hk
    simp only [List.mem_map]
    constructor
    · rintro ⟨entry, hmem, heq⟩
      by_cases h : entry.1 = k
      · rw [if_pos h] at heq
        exact Or.inl ⟨(congrArg Prod.fst heq).symm, (congrArg Prod.snd heq).symm⟩
      · rw [if_neg h] at heq
        subst heq
        exact Or.inr ⟨h, hmem⟩
    · rintro (⟨rfl, rfl⟩ | ⟨hne, hmem⟩)
      · obtain ⟨entry, hmem, hkey⟩ := List.mem_map.mp hk
        exact ⟨entry, hmem, by rw [if_pos hkey]⟩
      · exact ⟨(k', v'), hmem, by rw [if_neg hne]⟩
  · rename_i hk
    simp only [List.mem_append, List.mem_singleton, Prod.mk.injEq]
    constructor
    · rintro (hmem | h)
      · refine Or.inr ⟨?_, hmem⟩
        rintro rfl
        exact hk (List.mem_map.mpr ⟨_, hmem, rfl⟩)
      · exact Or.inl h
    · rintro (h | ⟨_, hmem⟩)
      · exact Or.inr h
      · exact Or.inl hmem

theorem get_insert (m : IndexMap K V) (k k' : K) (v : V) :
    (m.insert k v).get k' = if k' = k then some v else m.get k' := by
  ext w
  rw [get_eq_some_iff, mem_entries_insert]
  by_cases h : k' = k
  · simp [h, eq_comm]
  · simp [h, get_eq_some_iff]

@[simp] theorem get_insert_self (m : IndexMap K V) (k : K) (v : V) :
    (m.insert k v).get k = some v := by
  rw [get_insert, if_pos rfl]

theorem get_insert_ne (m : IndexMap K V) {k k' : K} (v : V) (h : k' ≠ k) :
    (m.insert k v).get k' = m.get k' := by
  rw [get_insert, if_neg h]

private theorem swapRemove_entries_perm (entries : List (K × V))
    (hnodup : (entries.map Prod.fst).Nodup) {k : K} {i : Nat}
    (hi : entries.findIdx? (fun entry => entry.1 = k) = some i) :
    (swapRemoveIdx entries i).Perm (entries.filter (fun entry => entry.1 ≠ k)) := by
  obtain ⟨hlt, hkey, -⟩ := List.findIdx?_eq_some_iff_getElem.mp hi
  have hperm := List.getElem_cons_eraseIdx_perm hlt
  have hcons : (entries[i] :: entries.eraseIdx i).map Prod.fst |>.Nodup :=
    (hperm.map Prod.fst).nodup_iff.mpr hnodup
  have hkey' : entries[i].1 = k := by simpa using hkey
  have hfresh : ∀ entry ∈ entries.eraseIdx i, entry.1 ≠ k := by
    intro entry hmem heq
    rw [List.map_cons, List.nodup_cons, hkey', ← heq] at hcons
    exact hcons.1 (List.mem_map.mpr ⟨entry, hmem, rfl⟩)
  refine (swapRemoveIdx_perm hlt).trans ?_
  have hfilter := hperm.filter (fun entry => entry.1 ≠ k)
  rw [List.filter_cons_of_neg (by simpa using hkey')] at hfilter
  rw [List.filter_eq_self.mpr (by simpa using hfresh)] at hfilter
  exact hfilter

/-- Drop a key; the last entry takes its place. -/
def swapRemove (m : IndexMap K V) (k : K) : IndexMap K V :=
  match hi : m.entries.findIdx? (fun entry => entry.1 = k) with
  | none => m
  | some i => ⟨swapRemoveIdx m.entries i, by
      have hperm := swapRemove_entries_perm m.entries m.nodupKeys hi
      refine (hperm.map Prod.fst).nodup_iff.mpr ?_
      exact m.nodupKeys.sublist (List.filter_sublist.map Prod.fst)⟩

theorem mem_entries_swapRemove {m : IndexMap K V} {k k' : K} {v : V} :
    (k', v) ∈ (m.swapRemove k).entries ↔ k' ≠ k ∧ (k', v) ∈ m.entries := by
  unfold swapRemove
  split
  · rename_i hi
    constructor
    · intro hmem
      refine ⟨?_, hmem⟩
      rintro rfl
      have := List.findIdx?_eq_none_iff.mp hi _ hmem
      simp at this
    · exact fun h => h.2
  · rename_i i hi
    rw [(swapRemove_entries_perm m.entries m.nodupKeys hi).mem_iff, List.mem_filter]
    simp [and_comm]

theorem get_swapRemove (m : IndexMap K V) (k k' : K) :
    (m.swapRemove k).get k' = if k' = k then none else m.get k' := by
  ext w
  rw [get_eq_some_iff, mem_entries_swapRemove]
  by_cases h : k' = k
  · simp [h]
  · simp [h, get_eq_some_iff]

@[simp] theorem get_swapRemove_self (m : IndexMap K V) (k : K) :
    (m.swapRemove k).get k = none := by
  rw [get_swapRemove, if_pos rfl]

theorem get_swapRemove_ne (m : IndexMap K V) {k k' : K} (h : k' ≠ k) :
    (m.swapRemove k).get k' = m.get k' := by
  rw [get_swapRemove, if_neg h]

omit [DecidableEq K] in
theorem nodup_entries (m : IndexMap K V) : m.entries.Nodup := List.Nodup.of_map _ m.nodupKeys

/-- Up to their order, the entries after an insertion are the new one and those of other keys. -/
theorem entries_insert_perm (m : IndexMap K V) (k : K) (v : V) :
    (m.insert k v).entries.Perm ((k, v) :: m.entries.filter (fun entry => entry.1 ≠ k)) := by
  have hnodup : ((k, v) :: m.entries.filter (fun entry => entry.1 ≠ k)).Nodup := by
    refine List.nodup_cons.mpr ⟨?_, m.nodup_entries.filter _⟩
    simp
  refine (List.perm_ext_iff_of_nodup (nodup_entries _) hnodup).mpr ?_
  rintro ⟨k', v'⟩
  rw [mem_entries_insert, List.mem_cons, List.mem_filter, Prod.mk.injEq]
  simp [and_comm]

theorem entries_perm_of_get {m : IndexMap K V} {k : K} {v : V} (h : m.get k = some v) :
    m.entries.Perm ((k, v) :: m.entries.filter (fun entry => entry.1 ≠ k)) := by
  have hnodup : ((k, v) :: m.entries.filter (fun entry => entry.1 ≠ k)).Nodup := by
    refine List.nodup_cons.mpr ⟨?_, m.nodup_entries.filter _⟩
    simp
  have hmem := get_eq_some_iff.mp h
  refine (List.perm_ext_iff_of_nodup m.nodup_entries hnodup).mpr ?_
  rintro ⟨k', v'⟩
  rw [List.mem_cons, List.mem_filter, Prod.mk.injEq]
  constructor
  · intro hmem'
    by_cases hk : k' = k
    · subst hk
      exact Or.inl ⟨rfl, eq_of_mem_entries hmem' hmem⟩
    · exact Or.inr ⟨hmem', by simpa using hk⟩
  · rintro (⟨rfl, rfl⟩ | ⟨hmem', -⟩)
    · exact hmem
    · exact hmem'

theorem entries_swapRemove_perm (m : IndexMap K V) (k : K) :
    (m.swapRemove k).entries.Perm (m.entries.filter (fun entry => entry.1 ≠ k)) := by
  refine (List.perm_ext_iff_of_nodup (nodup_entries _) (m.nodup_entries.filter _)).mpr ?_
  rintro ⟨k', v⟩
  rw [mem_entries_swapRemove, List.mem_filter]
  simp [and_comm]

theorem len_swapRemove_le (m : IndexMap K V) (k : K) : (m.swapRemove k).len ≤ m.len := by
  rw [len, (entries_swapRemove_perm m k).length_eq]
  exact List.length_filter_le _ _

theorem len_insert_le (m : IndexMap K V) (k : K) (v : V) : (m.insert k v).len ≤ m.len + 1 := by
  rw [len, (entries_insert_perm m k v).length_eq, List.length_cons]
  exact Nat.add_le_add_right (List.length_filter_le _ _) 1

/-- Keep the entries that satisfy a predicate, in order. -/
def retain (m : IndexMap K V) (keep : K → V → Bool) : IndexMap K V :=
  ⟨m.entries.filter (fun entry => keep entry.1 entry.2),
    m.nodupKeys.sublist (List.filter_sublist.map Prod.fst)⟩

theorem get_retain_eq_some_iff {m : IndexMap K V} {keep : K → V → Bool} {k : K} {v : V} :
    (m.retain keep).get k = some v ↔ m.get k = some v ∧ keep k v = true := by
  rw [get_eq_some_iff, get_eq_some_iff]
  simp [retain]

end Update

end IndexMap

/-! ### Sets -/

/-- A set that remembers insertion order. -/
structure IndexSet (α : Type) where
  map : IndexMap α Unit

namespace IndexSet

def empty : IndexSet α := ⟨∅⟩

instance : EmptyCollection (IndexSet α) := ⟨empty⟩
instance : Inhabited (IndexSet α) := ⟨empty⟩

/-- The elements in iteration order. -/
def toList (s : IndexSet α) : List α := s.map.keys

instance : Membership α (IndexSet α) := ⟨fun s x => x ∈ s.toList⟩

instance [DecidableEq α] (x : α) (s : IndexSet α) : Decidable (x ∈ s) :=
  inferInstanceAs (Decidable (x ∈ s.toList))

def isEmpty (s : IndexSet α) : Bool := s.map.isEmpty

def len (s : IndexSet α) : Nat := s.map.len

theorem nodup_toList (s : IndexSet α) : s.toList.Nodup := s.map.nodupKeys

theorem mem_toList {s : IndexSet α} {x : α} : x ∈ s.toList ↔ x ∈ s := Iff.rfl

@[simp] theorem not_mem_empty (x : α) : x ∉ (∅ : IndexSet α) := List.not_mem_nil

theorem isEmpty_iff {s : IndexSet α} : s.isEmpty = true ↔ ∀ x, x ∉ s := by
  have hmap : s.isEmpty = s.toList.isEmpty := by
    simp [isEmpty, IndexMap.isEmpty, toList, IndexMap.keys]
  rw [hmap, List.isEmpty_iff, List.eq_nil_iff_forall_not_mem]
  rfl

theorem isEmpty_eq_false_iff {s : IndexSet α} : s.isEmpty = false ↔ ∃ x, x ∈ s := by
  rw [← Bool.not_eq_true, isEmpty_iff, not_forall_not]

section Update

variable [DecidableEq α]

def insert (s : IndexSet α) (x : α) : IndexSet α := ⟨s.map.insert x ()⟩

def swapRemove (s : IndexSet α) (x : α) : IndexSet α := ⟨s.map.swapRemove x⟩

theorem mem_iff_get {s : IndexSet α} {x : α} : x ∈ s ↔ s.map.get x = some () := by
  rw [← mem_toList, toList, IndexMap.mem_keys_iff]
  exact ⟨fun ⟨(), h⟩ => h, fun h => ⟨(), h⟩⟩

@[simp] theorem mem_insert {s : IndexSet α} {x y : α} : y ∈ s.insert x ↔ y = x ∨ y ∈ s := by
  rw [mem_iff_get, mem_iff_get, insert, IndexMap.get_insert]
  by_cases h : y = x <;> simp [h]

@[simp] theorem mem_swapRemove {s : IndexSet α} {x y : α} :
    y ∈ s.swapRemove x ↔ y ≠ x ∧ y ∈ s := by
  rw [mem_iff_get, mem_iff_get, swapRemove, IndexMap.get_swapRemove]
  by_cases h : y = x <;> simp [h]

/-- A set has one element after an insertion exactly when it held nothing else. -/
theorem len_insert_eq_one_iff {s : IndexSet α} {x : α} :
    (s.insert x).len = 1 ↔ ∀ y ∈ s, y = x := by
  have hlen : (s.insert x).len = (s.insert x).toList.length := by
    simp [len, IndexMap.len, toList, IndexMap.keys]
  rw [hlen]
  constructor
  · intro h y hy
    obtain ⟨z, hz⟩ := List.length_eq_one_iff.mp h
    have hmem : ∀ w, w ∈ s.insert x → w = z := by
      intro w hw
      rw [← mem_toList, hz, List.mem_singleton] at hw
      exact hw
    rw [hmem y (mem_insert.mpr (Or.inr hy)), hmem x (mem_insert.mpr (Or.inl rfl))]
  · intro h
    have hperm : (s.insert x).toList.Perm [x] := by
      refine (List.perm_ext_iff_of_nodup (nodup_toList _) (List.nodup_singleton x)).mpr ?_
      intro w
      rw [mem_toList, mem_insert, List.mem_singleton]
      exact ⟨fun hw => hw.elim id (h w), Or.inl⟩
    simpa using hperm.length_eq

end Update

end IndexSet

end Collections
