import Mathlib.Data.Multiset.Basic
import Mathlib.Tactic.Common

/-!
# Binary heaps

The heap of a list whose elements have a rank and may be level: `push`, `pop`, and a look at the
greatest element through a guard that may change it.  The element that moves is swapped along its
path.  `pop` sends the last element to the bottom and lets it rise from there, the guard lets the
changed element sink; an element that is level with a child stays above it.

`Misplaced` is the order of a heap but for the element that moves.
-/

universe u

/-- An order in which elements may be level. -/
structure Ranking (α : Type u) where
  le : α → α → Bool
  total : ∀ a b, le a b = true ∨ le b a = true
  trans : ∀ a b c, le a b = true → le b c = true → le a c = true

namespace Ranking

variable {α : Type u} (r : Ranking α)

theorem refl (a : α) : r.le a a = true := (r.total a a).elim id id

theorem le_of_not {a b : α} (h : ¬r.le a b = true) : r.le b a = true :=
  (r.total a b).resolve_left h

end Ranking

namespace BinaryHeap

variable {α : Type u}

/-! ### Positions -/

def IsChild (c p : Nat) : Prop := c = 2 * p + 1 ∨ c = 2 * p + 2

theorem IsChild.lt {c p : Nat} (h : IsChild c p) : p < c := by
  unfold IsChild at h
  omega

theorem IsChild.eq_parent {c p : Nat} (h : IsChild c p) : p = (c - 1) / 2 := by
  unfold IsChild at h
  omega

theorem isChild_parent {c : Nat} (h : 0 < c) : IsChild c ((c - 1) / 2) := by
  unfold IsChild
  omega

/-! ### Swaps -/

def swap (data : List α) (i j : Nat) : List α :=
  match data[i]?, data[j]? with
  | some a, some b => (data.set i b).set j a
  | _, _ => data

theorem length_swap (data : List α) (i j : Nat) : (swap data i j).length = data.length := by
  unfold swap
  split
  · rw [List.length_set, List.length_set]
  · rfl

section

variable {data : List α} {i j : Nat} {a b : α}

theorem swap_eq (hi : data[i]? = some a) (hj : data[j]? = some b) :
    swap data i j = (data.set i b).set j a := by
  rw [swap, hi, hj]

theorem getElem?_swap (hi : data[i]? = some a) (hj : data[j]? = some b) (k : Nat) :
    (swap data i j)[k]? = if k = j then some a else if k = i then some b else data[k]? := by
  obtain ⟨hilt, -⟩ := List.getElem?_eq_some_iff.mp hi
  obtain ⟨hjlt, -⟩ := List.getElem?_eq_some_iff.mp hj
  rw [swap_eq hi hj]
  by_cases hkj : k = j
  · rw [if_pos hkj, hkj, List.getElem?_set_self (by rwa [List.length_set])]
  rw [if_neg hkj, List.getElem?_set_ne (Ne.symm hkj)]
  by_cases hki : k = i
  · rw [if_pos hki, hki, List.getElem?_set_self hilt]
  · rw [if_neg hki, List.getElem?_set_ne (Ne.symm hki)]

theorem swap_perm (data : List α) (i j : Nat) : (swap data i j).Perm data := by
  unfold swap
  split
  · rename_i a b hi hj
    obtain ⟨hilt, hia⟩ := List.getElem?_eq_some_iff.mp hi
    obtain ⟨hjlt, hjb⟩ := List.getElem?_eq_some_iff.mp hj
    rw [← hia, ← hjb]
    exact List.set_set_perm hilt hjlt
  · exact .refl data

end

/-! ### The moves -/

variable (r : Ranking α)

/-- The greater child of a position, the second one if they are level. -/
def greaterChild (data : List α) (pos : Nat) : Option Nat :=
  match data[2 * pos + 1]?, data[2 * pos + 2]? with
  | some a, some b => some (if r.le a b then 2 * pos + 2 else 2 * pos + 1)
  | some _, none => some (2 * pos + 1)
  | none, _ => none

theorem greaterChild_isChild {data : List α} {pos child : Nat}
    (h : greaterChild r data pos = some child) : IsChild child pos ∧ child < data.length := by
  unfold greaterChild at h
  split at h
  · rename_i a b ha hb
    obtain ⟨halt, -⟩ := List.getElem?_eq_some_iff.mp ha
    obtain ⟨hblt, -⟩ := List.getElem?_eq_some_iff.mp hb
    split at h
    · rw [← Option.some.inj h]
      exact ⟨Or.inr rfl, hblt⟩
    · rw [← Option.some.inj h]
      exact ⟨Or.inl rfl, halt⟩
  · rename_i a ha hb
    obtain ⟨halt, -⟩ := List.getElem?_eq_some_iff.mp ha
    rw [← Option.some.inj h]
    exact ⟨Or.inl rfl, halt⟩
  · exact nomatch h

theorem le_greaterChild {data : List α} {pos child c : Nat} {a b : α}
    (h : greaterChild r data pos = some child) (hchild : data[child]? = some a)
    (hc : IsChild c pos) (hb : data[c]? = some b) : r.le b a = true := by
  unfold greaterChild at h
  split at h
  · rename_i first second hfirst hsecond
    split at h
    · rename_i hle
      rw [← Option.some.inj h, hsecond] at hchild
      rcases hc with rfl | rfl
      · rw [← Option.some.inj (hfirst.symm.trans hb), ← Option.some.inj hchild]
        exact hle
      · rw [← Option.some.inj (hsecond.symm.trans hb), ← Option.some.inj hchild]
        exact r.refl second
    · rename_i hle
      rw [← Option.some.inj h, hfirst] at hchild
      rcases hc with rfl | rfl
      · rw [← Option.some.inj (hfirst.symm.trans hb), ← Option.some.inj hchild]
        exact r.refl first
      · rw [← Option.some.inj (hsecond.symm.trans hb), ← Option.some.inj hchild]
        exact r.le_of_not hle
  · rename_i first hfirst hsecond
    rw [← Option.some.inj h, hfirst] at hchild
    rcases hc with rfl | rfl
    · rw [← Option.some.inj (hfirst.symm.trans hb), ← Option.some.inj hchild]
      exact r.refl first
    · rw [hsecond] at hb
      exact nomatch hb
  · exact nomatch h

theorem no_child {data : List α} {pos c : Nat} (h : greaterChild r data pos = none)
    (hc : IsChild c pos) : data[c]? = none := by
  unfold greaterChild at h
  split at h
  · exact nomatch h
  · exact nomatch h
  · rename_i hfirst
    rcases hc with rfl | rfl
    · exact hfirst
    · rw [List.getElem?_eq_none_iff] at hfirst ⊢
      omega

/-- The element rises while it is greater than its parent. -/
def siftUp (data : List α) (pos : Nat) : List α :=
  if 0 < pos then
    match data[pos]?, data[(pos - 1) / 2]? with
    | some a, some b =>
      if r.le a b then data else siftUp (swap data pos ((pos - 1) / 2)) ((pos - 1) / 2)
    | _, _ => data
  else data
termination_by pos
decreasing_by omega

/-- The element sinks while a child is greater. -/
def siftDown (data : List α) (pos : Nat) : List α :=
  match _h : greaterChild r data pos with
  | none => data
  | some child =>
    match data[child]?, data[pos]? with
    | some a, some b => if r.le a b then data else siftDown (swap data pos child) child
    | _, _ => data
termination_by data.length - pos
decreasing_by
  obtain ⟨hchild, hlt⟩ := greaterChild_isChild r _h
  have hgt := hchild.lt
  rw [length_swap]
  omega

/-- The element goes down to a leaf, whatever the children are. -/
def sink (data : List α) (pos : Nat) : List α × Nat :=
  match _h : greaterChild r data pos with
  | none => (data, pos)
  | some child => sink (swap data pos child) child
termination_by data.length - pos
decreasing_by
  obtain ⟨hchild, hlt⟩ := greaterChild_isChild r _h
  have hgt := hchild.lt
  rw [length_swap]
  omega

def siftDownToBottom (data : List α) : List α :=
  let (data, pos) := sink r data 0
  siftUp r data pos

/-! ### The order -/

/-- No element is greater than its parent. -/
def Ordered (data : List α) : Prop :=
  ∀ c p a b, IsChild c p → data[c]? = some a → data[p]? = some b → r.le a b = true

/-- The pairs off a position are in order, and so are its children and its parent. -/
structure Misplaced (data : List α) (pos : Nat) : Prop where
  off : ∀ c p a b, IsChild c p → c ≠ pos → p ≠ pos → data[c]? = some a → data[p]? = some b →
    r.le a b = true
  grand : ∀ c p a b, IsChild c pos → IsChild pos p → data[c]? = some a → data[p]? = some b →
    r.le a b = true

/-- The element may only be too great. -/
structure MayRise (data : List α) (pos : Nat) : Prop extends Misplaced r data pos where
  below : ∀ c a b, IsChild c pos → data[c]? = some a → data[pos]? = some b → r.le a b = true

/-- The element may only be too small. -/
structure MaySink (data : List α) (pos : Nat) : Prop extends Misplaced r data pos where
  above : ∀ p a b, IsChild pos p → data[pos]? = some a → data[p]? = some b → r.le a b = true

section

variable {r} {data : List α} {pos : Nat}

theorem MayRise.ordered (h : MayRise r data pos)
    (habove : ∀ p a b, IsChild pos p → data[pos]? = some a → data[p]? = some b → r.le a b = true) :
    Ordered r data := by
  intro c p a b hchild ha hb
  by_cases hc : c = pos
  · rw [hc] at hchild ha
    exact habove p a b hchild ha hb
  by_cases hp : p = pos
  · rw [hp] at hchild hb
    exact h.below c a b hchild ha hb
  · exact h.off c p a b hchild hc hp ha hb

theorem MaySink.ordered (h : MaySink r data pos)
    (hbelow : ∀ c a b, IsChild c pos → data[c]? = some a → data[pos]? = some b → r.le a b = true) :
    Ordered r data :=
  MayRise.ordered { toMisplaced := h.toMisplaced, below := hbelow } h.above

/-- The element changes places with its parent. -/
theorem MayRise.rise (h : MayRise r data pos) {p : Nat} {a b : α} (hchild : IsChild pos p)
    (ha : data[pos]? = some a) (hb : data[p]? = some b) (hle : r.le b a = true) :
    MayRise r (swap data pos p) p := by
  have hget := getElem?_swap ha hb
  have hlt := hchild.lt
  refine ⟨⟨?_, ?_⟩, ?_⟩
  · intro c q x y hcq hc hq hx hy
    have hgt := hcq.lt
    rw [hget, if_neg hc] at hx
    rw [hget, if_neg hq] at hy
    by_cases hqpos : q = pos
    · rw [if_neg (by omega)] at hx
      rw [if_pos hqpos] at hy
      rw [← Option.some.inj hy]
      exact h.grand c p x b (hqpos ▸ hcq) hchild hx hb
    · have hcpos : c ≠ pos := by
        rintro rfl
        exact hq (hcq.eq_parent.trans hchild.eq_parent.symm)
      rw [if_neg hcpos] at hx
      rw [if_neg hqpos] at hy
      exact h.off c q x y hcq hcpos hqpos hx hy
  · intro c q x y hcp hpq hx hy
    have hgt := hcp.lt
    have hgt' := hpq.lt
    rw [hget, if_neg (by omega)] at hx
    rw [hget, if_neg (by omega), if_neg (by omega)] at hy
    have hparent : r.le b y = true := h.off p q b y hpq (by omega) (by omega) hb hy
    by_cases hcpos : c = pos
    · rw [if_pos hcpos] at hx
      rw [← Option.some.inj hx]
      exact hparent
    · rw [if_neg hcpos] at hx
      exact r.trans _ _ _ (h.off c p x b hcp hcpos (by omega) hx hb) hparent
  · intro c x y hcp hx hy
    have hgt := hcp.lt
    rw [hget, if_neg (by omega)] at hx
    rw [hget, if_pos rfl] at hy
    rw [← Option.some.inj hy]
    by_cases hcpos : c = pos
    · rw [if_pos hcpos] at hx
      rw [← Option.some.inj hx]
      exact hle
    · rw [if_neg hcpos] at hx
      exact r.trans _ _ _ (h.off c p x b hcp hcpos (by omega) hx hb) hle

/-- The element changes places with its greater child. -/
theorem Misplaced.sink (h : Misplaced r data pos) {child : Nat} {a b : α}
    (hchild : greaterChild r data pos = some child) (ha : data[pos]? = some a)
    (hb : data[child]? = some b) : Misplaced r (swap data pos child) child := by
  have hget := getElem?_swap ha hb
  obtain ⟨hisChild, -⟩ := greaterChild_isChild r hchild
  have hlt := hisChild.lt
  refine ⟨?_, ?_⟩
  · intro c q x y hcq hc hq hx hy
    have hgt := hcq.lt
    rw [hget, if_neg hc] at hx
    rw [hget, if_neg hq] at hy
    by_cases hqpos : q = pos
    · rw [if_neg (by omega)] at hx
      rw [if_pos hqpos] at hy
      rw [← Option.some.inj hy]
      exact le_greaterChild r hchild hb (hqpos ▸ hcq) hx
    rw [if_neg hqpos] at hy
    by_cases hcpos : c = pos
    · rw [if_pos hcpos] at hx
      rw [← Option.some.inj hx]
      exact h.grand child q b y hisChild (hcpos ▸ hcq) hb hy
    · rw [if_neg hcpos] at hx
      exact h.off c q x y hcq hcpos hqpos hx hy
  · intro c q x y hcchild hq hx hy
    have hgt := hcchild.lt
    have hqpos : q = pos := hq.eq_parent.trans hisChild.eq_parent.symm
    rw [hget, if_neg (by omega), if_neg (by omega)] at hx
    rw [hget, if_neg (by omega), if_pos hqpos] at hy
    rw [← Option.some.inj hy]
    exact h.off c child x b hcchild (by omega) (by omega) hx hb

theorem Misplaced.maySink (h : Misplaced r data pos) {child : Nat} {a b : α}
    (hchild : greaterChild r data pos = some child) (ha : data[pos]? = some a)
    (hb : data[child]? = some b) (hle : r.le a b = true) :
    MaySink r (swap data pos child) child := by
  have hget := getElem?_swap ha hb
  obtain ⟨hisChild, -⟩ := greaterChild_isChild r hchild
  have hlt := hisChild.lt
  refine { toMisplaced := h.sink hchild ha hb, above := ?_ }
  intro q x y hq hx hy
  have hqpos : q = pos := hq.eq_parent.trans hisChild.eq_parent.symm
  rw [hget, if_pos rfl] at hx
  rw [hget, if_neg (by omega), if_pos hqpos] at hy
  rw [← Option.some.inj hx, ← Option.some.inj hy]
  exact hle

end

/-! ### What the moves keep -/

theorem siftUp_perm (data : List α) (pos : Nat) : (siftUp r data pos).Perm data := by
  fun_induction siftUp r data pos with
  | case1 => exact .refl _
  | case2 data pos hpos a b hb ha hle ih => exact ih.trans (swap_perm data _ _)
  | case3 => exact .refl _
  | case4 => exact .refl _

theorem siftDown_perm (data : List α) (pos : Nat) : (siftDown r data pos).Perm data := by
  fun_induction siftDown r data pos with
  | case1 => exact .refl _
  | case2 => exact .refl _
  | case3 data pos child hchild a b hb ha hle ih => exact ih.trans (swap_perm data _ _)
  | case4 => exact .refl _

theorem sink_perm (data : List α) (pos : Nat) : (sink r data pos).1.Perm data := by
  fun_induction sink r data pos with
  | case1 => exact .refl _
  | case2 data pos child hchild ih => exact ih.trans (swap_perm data _ _)

theorem siftDownToBottom_perm (data : List α) : (siftDownToBottom r data).Perm data :=
  (siftUp_perm r _ _).trans (sink_perm r data 0)

section

variable {r} {data : List α} {pos : Nat}

theorem MayRise.siftUp_ordered (h : MayRise r data pos) : Ordered r (siftUp r data pos) := by
  fun_induction siftUp r data pos with
  | case1 data pos hpos a b hb ha hle =>
    apply h.ordered
    intro p x y hp hx hy
    rw [hp.eq_parent, hb] at hy
    rw [← Option.some.inj (ha.symm.trans hx), ← Option.some.inj hy]
    exact hle
  | case2 data pos hpos a b hb ha hle ih =>
    exact ih (h.rise (isChild_parent hpos) ha hb (r.le_of_not hle))
  | case3 data pos hpos hnone =>
    apply h.ordered
    intro p x y hp hx hy
    rw [hp.eq_parent] at hy
    exact (hnone x y hx hy).elim
  | case4 data pos hpos =>
    apply h.ordered
    intro p x y hp hx hy
    exact absurd hp.lt (by omega)

theorem MaySink.siftDown_ordered (h : MaySink r data pos) : Ordered r (siftDown r data pos) := by
  fun_induction siftDown r data pos with
  | case1 data pos hchild =>
    apply h.ordered
    intro c x y hc hx hy
    rw [no_child r hchild hc] at hx
    exact nomatch hx
  | case2 data pos child hchild a b hb ha hle =>
    apply h.ordered
    intro c x y hc hx hy
    rw [← Option.some.inj (hb.symm.trans hy)]
    exact r.trans _ _ _ (le_greaterChild r hchild ha hc hx) hle
  | case3 data pos child hchild a b hb ha hle ih =>
    exact ih (h.toMisplaced.maySink hchild hb ha (r.le_of_not hle))
  | case4 data pos child hchild hnone =>
    apply h.ordered
    intro c x y hc hx hy
    have hlt := (greaterChild_isChild r hchild).2
    exact (hnone _ _ (List.getElem?_eq_getElem hlt) hy).elim

/-- At a leaf there is nothing below the element. -/
theorem Misplaced.sink_mayRise (h : Misplaced r data pos) :
    MayRise r (BinaryHeap.sink r data pos).1 (BinaryHeap.sink r data pos).2 := by
  fun_induction BinaryHeap.sink r data pos with
  | case1 data pos hchild =>
    refine { toMisplaced := h, below := ?_ }
    intro c x y hc hx hy
    rw [no_child r hchild hc] at hx
    exact nomatch hx
  | case2 data pos child hchild ih =>
    obtain ⟨hisChild, hlt⟩ := greaterChild_isChild r hchild
    have hpos : pos < data.length := hisChild.lt.trans hlt
    exact ih (h.sink hchild (List.getElem?_eq_getElem hpos) (List.getElem?_eq_getElem hlt))

theorem Misplaced.siftDownToBottom_ordered (h : Misplaced r data 0) :
    Ordered r (siftDownToBottom r data) :=
  h.sink_mayRise.siftUp_ordered

/-- The root of an ordered list is as great as any element. -/
theorem Ordered.le_root (h : Ordered r data) {root b : α} (hroot : data[0]? = some root)
    (hb : b ∈ data) : r.le b root = true := by
  obtain ⟨i, hi⟩ := List.mem_iff_getElem?.mp hb
  induction i using Nat.strongRecOn generalizing b with
  | ind i ih =>
    by_cases hpos : 0 < i
    · have hchild := isChild_parent hpos
      have hlt : i < data.length := (List.getElem?_eq_some_iff.mp hi).1
      have hparent : data[(i - 1) / 2]? = some data[(i - 1) / 2] :=
        List.getElem?_eq_getElem (hchild.lt.trans hlt)
      exact r.trans _ _ _ (h _ _ _ _ hchild hi hparent)
        (ih _ hchild.lt (List.getElem_mem _) hparent)
    · rw [Nat.eq_zero_of_not_pos hpos, hroot] at hi
      rw [← Option.some.inj hi]
      exact r.refl root

/-- Another element at the root of an ordered list. -/
theorem Ordered.misplaced_root (h : Ordered r data) (a : α) : Misplaced r (data.set 0 a) 0 := by
  refine ⟨?_, fun c p a b _ hp => absurd hp.lt (Nat.not_lt_zero p)⟩
  intro c p x y hchild hc hp hx hy
  rw [List.getElem?_set_ne (Ne.symm hc)] at hx
  rw [List.getElem?_set_ne (Ne.symm hp)] at hy
  exact h c p x y hchild hx hy

theorem Ordered.maySink_root (h : Ordered r data) (a : α) : MaySink r (data.set 0 a) 0 where
  toMisplaced := h.misplaced_root a
  above p _ _ hp := absurd hp.lt (Nat.not_lt_zero p)

/-- An element behind an ordered list. -/
theorem Ordered.mayRise_last (h : Ordered r data) (a : α) :
    MayRise r (data ++ [a]) data.length := by
  have hold : ∀ i x, i ≠ data.length → (data ++ [a])[i]? = some x → data[i]? = some x := by
    intro i x hi hx
    obtain ⟨hlt, -⟩ := List.getElem?_eq_some_iff.mp hx
    rw [List.length_append, List.length_singleton] at hlt
    rw [List.getElem?_append_left (by omega)] at hx
    exact hx
  have hleaf : ∀ c x, IsChild c data.length → (data ++ [a])[c]? ≠ some x := by
    intro c x hc hx
    obtain ⟨hlt, -⟩ := List.getElem?_eq_some_iff.mp hx
    rw [List.length_append, List.length_singleton] at hlt
    exact absurd hc.lt (by omega)
  refine ⟨⟨?_, ?_⟩, ?_⟩
  · intro c p x y hchild hc hp hx hy
    exact h c p x y hchild (hold c x hc hx) (hold p y hp hy)
  · exact fun c p x y hc hp hx hy => (hleaf c x hc hx).elim
  · exact fun c x y hc hx hy => (hleaf c x hc hx).elim

theorem Ordered.dropLast (h : Ordered r data) : Ordered r data.dropLast := by
  intro c p a b hchild ha hb
  have hpart : ∀ (i : Nat) (x : α), data.dropLast[i]? = some x → data[i]? = some x := by
    intro i x hx
    rw [List.dropLast_eq_take, List.getElem?_take] at hx
    split at hx
    · exact hx
    · exact nomatch hx
  exact h c p a b hchild (hpart c a ha) (hpart p b hb)

end

end BinaryHeap

/-! ### Heaps -/

structure BinaryHeap {α : Type u} (r : Ranking α) where
  data : List α
  ordered : BinaryHeap.Ordered r data

namespace BinaryHeap

variable {α : Type u} {r : Ranking α}

def empty : BinaryHeap r := ⟨[], fun _ _ _ _ _ ha => nomatch ha⟩

def push (h : BinaryHeap r) (a : α) : BinaryHeap r :=
  ⟨siftUp r (h.data ++ [a]) h.data.length, (h.ordered.mayRise_last a).siftUp_ordered⟩

/-- The greatest element, through the guard of `peek_mut`. -/
def peek (h : BinaryHeap r) : Option α := h.data[0]?

/-- The guard is dropped, with this element in place of the greatest one. -/
def setPeek (h : BinaryHeap r) (a : α) : BinaryHeap r :=
  ⟨siftDown r (h.data.set 0 a) 0, (h.ordered.maySink_root a).siftDown_ordered⟩

def pop (h : BinaryHeap r) : Option (α × BinaryHeap r) :=
  match h.data.getLast? with
  | none => none
  | some last =>
    match h.data.dropLast[0]? with
    | none => some (last, ⟨h.data.dropLast, h.ordered.dropLast⟩)
    | some root =>
      some (root, ⟨siftDownToBottom r (h.data.dropLast.set 0 last),
        (h.ordered.dropLast.misplaced_root last).siftDownToBottom_ordered⟩)

def contents (h : BinaryHeap r) : Multiset α := h.data

@[simp] theorem contents_empty : (empty : BinaryHeap r).contents = 0 := rfl

@[simp] theorem contents_push (h : BinaryHeap r) (a : α) :
    (h.push a).contents = a ::ₘ h.contents := by
  have hperm := (siftUp_perm r (h.data ++ [a]) h.data.length).trans
    (List.perm_append_singleton a h.data)
  exact Multiset.coe_eq_coe.mpr hperm

theorem contents_of_peek_eq_none {h : BinaryHeap r} (hpeek : h.peek = none) : h.contents = 0 := by
  rw [peek, ← List.head?_eq_getElem?, List.head?_eq_none_iff] at hpeek
  rw [contents, hpeek]
  rfl

theorem le_peek {h : BinaryHeap r} {root b : α} (hpeek : h.peek = some root)
    (hb : b ∈ h.contents) : r.le b root = true :=
  h.ordered.le_root hpeek hb

/-- Changing the greatest element through the guard, and removing it, leave the others. -/
theorem exists_rest {h : BinaryHeap r} {root : α} (hpeek : h.peek = some root) :
    ∃ rest : Multiset α, h.contents = root ::ₘ rest ∧
      (∀ a, (h.setPeek a).contents = a ::ₘ rest) ∧
      ∃ h', h.pop = some (root, h') ∧ h'.contents = rest := by
  obtain ⟨data, hordered⟩ := h
  cases data with
  | nil => exact nomatch hpeek
  | cons first rest =>
    obtain rfl : first = root := Option.some.inj hpeek
    refine ⟨rest, rfl, ?_, ?_⟩
    · intro a
      exact Multiset.coe_eq_coe.mpr (siftDown_perm r (a :: rest) 0)
    · rcases List.eq_nil_or_concat rest with rfl | ⟨before, last, rfl⟩
      · exact ⟨_, rfl, rfl⟩
      · have hlast : (first :: before.concat last).getLast? = some last := by
          rw [List.concat_eq_append, ← List.cons_append, List.getLast?_concat]
        have hdrop : (first :: before.concat last).dropLast = first :: before := by
          rw [List.concat_eq_append, ← List.cons_append, List.dropLast_concat]
        unfold pop
        dsimp only
        split
        · rename_i hnone
          rw [hlast] at hnone
          exact nomatch hnone
        · rename_i item hitem
          obtain rfl : last = item := Option.some.inj (hlast.symm.trans hitem)
          split
          · rename_i hnil
            rw [hdrop] at hnil
            exact nomatch hnil
          · rename_i root hroot
            rw [hdrop] at hroot
            obtain rfl : first = root := Option.some.inj hroot
            refine ⟨_, rfl, Multiset.coe_eq_coe.mpr ?_⟩
            apply (siftDownToBottom_perm r _).trans
            rw [hdrop, List.set_cons_zero, List.concat_eq_append]
            exact (List.perm_append_singleton last before).symm

/-- The root stays where it is if no child is greater. -/
theorem siftDown_of_le {data : List α} {pos : Nat} {b : α} (hb : data[pos]? = some b)
    (h : ∀ c a, IsChild c pos → data[c]? = some a → r.le a b = true) :
    siftDown r data pos = data := by
  rw [siftDown]
  split
  · rfl
  · rename_i child hchild
    obtain ⟨hisChild, hlt⟩ := greaterChild_isChild r hchild
    rw [List.getElem?_eq_getElem hlt, hb]
    exact if_pos (h child _ hisChild (List.getElem?_eq_getElem hlt))

/-- An element that is as great as the one whose place it takes is the greatest one. -/
theorem peek_setPeek {h : BinaryHeap r} {root a : α} (hpeek : h.peek = some root)
    (hle : r.le root a = true) : (h.setPeek a).peek = some a := by
  have hlt : 0 < h.data.length := (List.getElem?_eq_some_iff.mp hpeek).1
  have hroot : (h.data.set 0 a)[0]? = some a := List.getElem?_set_self hlt
  have hstays : siftDown r (h.data.set 0 a) 0 = h.data.set 0 a := by
    apply siftDown_of_le hroot
    intro c b hc hb
    rw [List.getElem?_set_ne hc.lt.ne] at hb
    exact r.trans _ _ _ (h.ordered c 0 b root hc hb hpeek) hle
  change (siftDown r (h.data.set 0 a) 0)[0]? = some a
  rw [hstays]
  exact hroot

end BinaryHeap
