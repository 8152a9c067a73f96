import Mathlib.Data.List.Perm.Basic
import Mathlib.Order.Lattice
import Mathlib.Tactic.Common

/-!
# Ordered maps and buckets

A `BTreeMap` keeps its entries in the order of their keys; the order is a field.  An entry that
is wanted and missing is made with a default value, and the first entry is the one with the
least key.

A map whose values are lists is a family of buckets.  Read as the collection of its pairs of a
key and a member, up to order, it has two operations: adding a pair under a key, and taking a
pair from the first bucket, which goes away when it gets empty.
-/

namespace Collections

variable {K V : Type} [LinearOrder K]

/-- A map whose entries are listed by increasing keys. -/
structure BTreeMap (K V : Type) [LinearOrder K] where
  entries : List (K × V)
  sorted : entries.Pairwise (fun entry later => entry.1 < later.1)

namespace BTreeMap

def empty : BTreeMap K V := ⟨[], List.Pairwise.nil⟩

instance : EmptyCollection (BTreeMap K V) := ⟨empty⟩

def len (m : BTreeMap K V) : Nat := m.entries.length

/-- The entry with the least key. -/
def firstEntry (m : BTreeMap K V) : Option (K × V) := m.entries.head?

/-- Remove the first entry. -/
def removeFirst (m : BTreeMap K V) : BTreeMap K V := ⟨m.entries.tail, m.sorted.tail⟩

/-- Replace the value of the first entry. -/
def setFirst (m : BTreeMap K V) (v : V) : BTreeMap K V :=
  match h : m.entries with
  | [] => m
  | (k, _) :: rest => ⟨(k, v) :: rest, by
      have hsorted := m.sorted
      rw [h, List.pairwise_cons] at hsorted
      exact List.pairwise_cons.mpr hsorted⟩

/-- Change the value of a key in a list of entries, which is made from the default where the key
    is missing. -/
def modifyEntries (key : K) (default : V) (change : V → V) : List (K × V) → List (K × V)
  | [] => [(key, change default)]
  | (k, v) :: rest =>
    if key < k then (key, change default) :: (k, v) :: rest
    else if k < key then (k, v) :: modifyEntries key default change rest
    else (k, change v) :: rest

@[simp] theorem modifyEntries_nil (key : K) (default : V) (change : V → V) :
    modifyEntries key default change [] = [(key, change default)] := rfl

theorem modifyEntries_cons (key : K) (default : V) (change : V → V) (k : K) (v : V)
    (rest : List (K × V)) :
    modifyEntries key default change ((k, v) :: rest) =
      if key < k then (key, change default) :: (k, v) :: rest
      else if k < key then (k, v) :: modifyEntries key default change rest
      else (k, change v) :: rest := rfl

theorem fst_mem_modifyEntries {key : K} {default : V} {change : V → V} {entries : List (K × V)}
    {entry : K × V} (h : entry ∈ modifyEntries key default change entries) :
    entry.1 = key ∨ entry.1 ∈ entries.map Prod.fst := by
  induction entries with
  | nil => simp_all
  | cons first rest ih =>
    obtain ⟨k, v⟩ := first
    rw [modifyEntries_cons] at h
    split at h
    · rcases List.mem_cons.mp h with rfl | hmem
      · exact Or.inl rfl
      · exact Or.inr (List.mem_map_of_mem hmem)
    · split at h
      · rcases List.mem_cons.mp h with rfl | hmem
        · exact Or.inr (by simp)
        · rcases ih hmem with hkey | hrest
          · exact Or.inl hkey
          · exact Or.inr (by simp [hrest])
      · rcases List.mem_cons.mp h with rfl | hmem
        · exact Or.inr (by simp)
        · exact Or.inr (by simp [List.mem_map_of_mem hmem])

theorem modifyEntries_sorted {key : K} {default : V} {change : V → V} {entries : List (K × V)}
    (h : entries.Pairwise (fun entry later => entry.1 < later.1)) :
    (modifyEntries key default change entries).Pairwise
      (fun entry later => entry.1 < later.1) := by
  induction entries with
  | nil => exact List.pairwise_singleton _ _
  | cons first rest ih =>
    obtain ⟨k, v⟩ := first
    obtain ⟨hfirst, hrest⟩ := List.pairwise_cons.mp h
    rw [modifyEntries_cons]
    split
    · rename_i hlt
      refine List.pairwise_cons.mpr ⟨?_, h⟩
      intro entry hmem
      rcases List.mem_cons.mp hmem with rfl | hmem
      · exact hlt
      · exact lt_trans hlt (hfirst entry hmem)
    · split
      · rename_i hlt
        refine List.pairwise_cons.mpr ⟨?_, ih hrest⟩
        intro entry hmem
        rcases fst_mem_modifyEntries hmem with hkey | hold
        · exact hkey ▸ hlt
        · obtain ⟨other, hother, heq⟩ := List.mem_map.mp hold
          exact heq ▸ hfirst other hother
      · exact List.pairwise_cons.mpr ⟨hfirst, hrest⟩

/-- The entry of a key, made with the default where it is missing, and then changed. -/
def modify (m : BTreeMap K V) (key : K) (default : V) (change : V → V) : BTreeMap K V :=
  ⟨modifyEntries key default change m.entries, modifyEntries_sorted m.sorted⟩

/-! ### Buckets -/

variable {α : Type}

/-- The pairs of a key and a member of its bucket. -/
def pairs (m : BTreeMap K (List α)) : List (K × α) :=
  m.entries.flatMap (fun entry => entry.2.map (Prod.mk entry.1))

/-- No bucket is empty. -/
def Filled (m : BTreeMap K (List α)) : Prop := ∀ entry ∈ m.entries, entry.2 ≠ []

/-- Add a member to the bucket of a key. -/
def push (m : BTreeMap K (List α)) (key : K) (a : α) : BTreeMap K (List α) :=
  m.modify key [] (fun bucket => bucket ++ [a])

@[simp] theorem pairs_empty : (∅ : BTreeMap K (List α)).pairs = [] := rfl

theorem pairs_push_perm (m : BTreeMap K (List α)) (key : K) (a : α) :
    (m.push key a).pairs.Perm ((key, a) :: m.pairs) := by
  obtain ⟨entries, hsorted⟩ := m
  simp only [pairs, push, modify]
  clear hsorted
  induction entries with
  | nil => simp
  | cons first rest ih =>
    obtain ⟨k, bucket⟩ := first
    rw [modifyEntries_cons]
    split
    · simp
    · split
      · rw [List.flatMap_cons, List.flatMap_cons]
        refine (ih.append_left _).trans ?_
        exact List.perm_middle
      · rename_i hge hle
        have hkey : key = k := le_antisymm (not_lt.mp hle) (not_lt.mp hge)
        subst hkey
        rw [List.flatMap_cons, List.flatMap_cons, List.map_append, List.map_singleton,
          List.append_assoc]
        exact List.perm_middle

theorem Filled.push {m : BTreeMap K (List α)} (h : m.Filled) (key : K) (a : α) :
    (m.push key a).Filled := by
  obtain ⟨entries, hsorted⟩ := m
  simp only [Filled, BTreeMap.push, modify] at h ⊢
  clear hsorted
  induction entries with
  | nil => simp
  | cons first rest ih =>
    obtain ⟨k, bucket⟩ := first
    rw [List.forall_mem_cons] at h
    rw [modifyEntries_cons]
    split
    · simpa using h
    · split
      · exact List.forall_mem_cons.mpr ⟨h.1, ih h.2⟩
      · exact List.forall_mem_cons.mpr ⟨by simp, h.2⟩

/-- Leave something else in the first bucket, which goes away when nothing is left. -/
def setFirstBucket (m : BTreeMap K (List α)) (bucket : List α) : BTreeMap K (List α) :=
  if bucket.isEmpty then m.removeFirst else m.setFirst bucket

theorem entries_setFirstBucket {m : BTreeMap K (List α)} {k : K} {old bucket : List α}
    {rest : List (K × List α)} (h : m.entries = (k, old) :: rest) :
    (m.setFirstBucket bucket).entries = if bucket.isEmpty then rest else (k, bucket) :: rest := by
  rw [setFirstBucket]
  split
  · change m.entries.tail = rest
    rw [h, List.tail_cons]
  · rw [setFirst]
    split
    · rename_i hnil
      rw [hnil] at h
      cases h
    · rename_i k' old' rest' hcons
      rw [hcons] at h
      cases h
      rfl

theorem pairs_setFirstBucket {m : BTreeMap K (List α)} {k : K} {old bucket : List α} {a : α}
    (h : m.firstEntry = some (k, old)) (hold : old = bucket ++ [a]) :
    m.pairs.Perm ((k, a) :: (m.setFirstBucket bucket).pairs) := by
  obtain ⟨rest, hentries⟩ := List.head?_eq_some_iff.mp h
  rw [pairs, pairs, entries_setFirstBucket hentries, hentries, hold, List.flatMap_cons]
  cases bucket with
  | nil => simp
  | cons b bucket =>
    rw [List.isEmpty_cons, if_neg Bool.false_ne_true, List.flatMap_cons, List.map_append,
      List.map_singleton, List.append_assoc]
    exact List.perm_middle

theorem Filled.setFirstBucket {m : BTreeMap K (List α)} (hfilled : m.Filled) {k : K}
    {old : List α} (h : m.firstEntry = some (k, old)) (bucket : List α) :
    (m.setFirstBucket bucket).Filled := by
  obtain ⟨rest, hentries⟩ := List.head?_eq_some_iff.mp h
  rw [Filled, hentries, List.forall_mem_cons] at hfilled
  rw [Filled, entries_setFirstBucket hentries]
  split
  · exact hfilled.2
  · rename_i hne
    exact List.forall_mem_cons.mpr ⟨by simpa using hne, hfilled.2⟩

theorem Filled.first_ne_nil {m : BTreeMap K (List α)} (h : m.Filled) {k : K} {bucket : List α}
    (hfirst : m.firstEntry = some (k, bucket)) : bucket ≠ [] :=
  h (k, bucket) (List.mem_of_head? hfirst)

/-- The first bucket has the least key. -/
theorem le_of_mem_pairs {m : BTreeMap K (List α)} {k : K} {bucket : List α} {pair : K × α}
    (hfirst : m.firstEntry = some (k, bucket)) (hmem : pair ∈ m.pairs) : k ≤ pair.1 := by
  obtain ⟨rest, hentries⟩ := List.head?_eq_some_iff.mp hfirst
  have hsorted := m.sorted
  rw [hentries, List.pairwise_cons] at hsorted
  rw [pairs, hentries, List.flatMap_cons, List.mem_append] at hmem
  rcases hmem with hmem | hmem
  · obtain ⟨a, -, rfl⟩ := List.mem_map.mp hmem
    exact le_refl k
  · obtain ⟨entry, hentry, hpair⟩ := List.mem_flatMap.mp hmem
    obtain ⟨a, -, rfl⟩ := List.mem_map.mp hpair
    exact le_of_lt (hsorted.1 entry hentry)

theorem pairs_eq_nil_of_firstEntry {m : BTreeMap K (List α)} (h : m.firstEntry = none) :
    m.pairs = [] := by
  rw [pairs, List.head?_eq_none_iff.mp h, List.flatMap_nil]

end BTreeMap

end Collections
