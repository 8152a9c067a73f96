import MediaServer.Lib.IndexMap

/-!
# `IndexMap2d`

The two-way map of `media_utils/src/indexmap_2d.rs`: a map and a reverse map that
`insert` writes without looking at what either held.  Re-inserting a key with
another value, or another key with the same value, therefore leaves a pair in one
direction that the other no longer has.
-/

namespace MediaServer

open Collections

variable {T₁ T₂ : Type}

structure IndexMap2d (T₁ T₂ : Type) where
  data : IndexMap T₁ T₂
  reverse : IndexMap T₂ T₁

namespace IndexMap2d

instance : EmptyCollection (IndexMap2d T₁ T₂) := ⟨⟨∅, ∅⟩⟩

/-- The pairs of the forward map, in its order. -/
def pairs (m : IndexMap2d T₁ T₂) : List (T₁ × T₂) := m.data.entries

variable [DecidableEq T₁] [DecidableEq T₂]

def insert (m : IndexMap2d T₁ T₂) (key : T₁) (value : T₂) : IndexMap2d T₁ T₂ :=
  ⟨m.data.insert key value, m.reverse.insert value key⟩

def get1 (m : IndexMap2d T₁ T₂) (key : T₁) : Option T₂ := m.data.get key

def get2 (m : IndexMap2d T₁ T₂) (key : T₂) : Option T₁ := m.reverse.get key

def remove1 (m : IndexMap2d T₁ T₂) (key : T₁) : IndexMap2d T₁ T₂ :=
  match m.data.get key with
  | none => m
  | some value => ⟨m.data.swapRemove key, m.reverse.swapRemove value⟩

omit [DecidableEq T₂] in
theorem mem_pairs_iff {m : IndexMap2d T₁ T₂} {key : T₁} {value : T₂} :
    (key, value) ∈ m.pairs ↔ m.get1 key = some value :=
  IndexMap.get_eq_some_iff.symm

@[simp] theorem get1_insert (m : IndexMap2d T₁ T₂) (key key' : T₁) (value : T₂) :
    (m.insert key value).get1 key' = if key' = key then some value else m.get1 key' :=
  IndexMap.get_insert ..

@[simp] theorem get2_insert (m : IndexMap2d T₁ T₂) (key : T₁) (value value' : T₂) :
    (m.insert key value).get2 value' = if value' = value then some key else m.get2 value' :=
  IndexMap.get_insert ..

theorem get1_remove1 (m : IndexMap2d T₁ T₂) (key key' : T₁) :
    (m.remove1 key).get1 key' = if key' = key then none else m.get1 key' := by
  unfold remove1
  cases hget : m.data.get key with
  | none =>
    by_cases h : key' = key
    · rw [if_pos h, h]
      exact hget
    · rw [if_neg h]
  | some value => exact IndexMap.get_swapRemove ..

theorem get2_remove1 {m : IndexMap2d T₁ T₂} {key : T₁} {value : T₂}
    (h : m.get1 key = some value) (value' : T₂) :
    (m.remove1 key).get2 value' = if value' = value then none else m.get2 value' := by
  have hget : m.data.get key = some value := h
  simp only [remove1, hget]
  exact IndexMap.get_swapRemove ..

end IndexMap2d

end MediaServer
