import Mathlib.Data.List.Basic
import Mathlib.Tactic.Common

/-!
# Tables of rows that are never deleted

Rows stand in the order in which they were inserted, and the id of a row is its position: the
next insertion gets the next id, and an update keeps it.  A query returns the first row that
matches.  Everything is said about what stands under an id (`get`) and about how many rows, or
which images of rows, there are.
-/

universe u v

structure Table (Row : Type u) where
  rows : List Row

namespace Table

variable {Row : Type u} {Image : Type v}

def empty : Table Row := ⟨[]⟩

def get (t : Table Row) (id : Nat) : Option Row := t.rows[id]?

/-- The id of the next row. -/
def nextId (t : Table Row) : Nat := t.rows.length

def insert (t : Table Row) (row : Row) : Table Row := ⟨t.rows ++ [row]⟩

def update (t : Table Row) (id : Nat) (f : Row → Row) : Table Row := ⟨t.rows.modify id f⟩

/-- The first row that matches, with its id. -/
def find (t : Table Row) (p : Row → Bool) : Option (Nat × Row) :=
  (t.rows.findIdx? p).bind fun id => (t.get id).map fun row => (id, row)

/-- The rows that match, in insertion order. -/
def findAll (t : Table Row) (p : Row → Bool) : List (Nat × Row) :=
  (t.rows.zipIdx.filter fun entry => p entry.1).map fun entry => (entry.2, entry.1)

def count (t : Table Row) (p : Row → Bool) : Nat := t.rows.countP p

@[simp] theorem get_empty (id : Nat) : (empty : Table Row).get id = none := rfl

theorem get_insert (t : Table Row) (row : Row) (id : Nat) :
    (t.insert row).get id = if id = t.nextId then some row else t.get id := by
  rw [get, insert, nextId, get]
  split
  case isTrue h => simp [h]
  case isFalse h =>
    by_cases hlt : id < t.rows.length
    · exact List.getElem?_append_left hlt
    · rw [List.getElem?_eq_none (by simp; omega), List.getElem?_eq_none (by omega)]

/-- No row stands under the id of the next one. -/
theorem get_nextId (t : Table Row) : t.get t.nextId = none := by
  simp [get, nextId]

theorem ne_nextId {t : Table Row} {id : Nat} {row : Row} (h : t.get id = some row) :
    id ≠ t.nextId := by
  rintro rfl
  simp [get_nextId] at h

/-- A row that stands under an id stays there when others are inserted. -/
theorem get_insert_of_some {t : Table Row} {id : Nat} {row : Row} (h : t.get id = some row)
    (other : Row) : (t.insert other).get id = some row := by
  rw [get_insert, if_neg (ne_nextId h), h]

theorem get_update (t : Table Row) (id : Nat) (f : Row → Row) (id' : Nat) :
    (t.update id f).get id' = if id' = id then (t.get id').map f else t.get id' := by
  rw [get, update, List.getElem?_modify]
  by_cases h : id = id'
  · simp [h, get]
  · simp [h, Ne.symm h, get]

theorem find_eq_some {t : Table Row} {p : Row → Bool} {id : Nat} {row : Row}
    (h : t.find p = some (id, row)) : t.get id = some row ∧ p row = true := by
  obtain ⟨id', hfind, hrow⟩ := Option.bind_eq_some_iff.mp h
  obtain ⟨row', hget, heq⟩ := Option.map_eq_some_iff.mp hrow
  cases heq
  obtain ⟨hlt, hp, -⟩ := List.findIdx?_eq_some_iff_getElem.mp hfind
  have hrow' : t.rows[id] = row := by
    have hsome := (List.getElem?_eq_getElem hlt).symm.trans hget
    exact Option.some.inj hsome
  exact ⟨hget, hrow' ▸ hp⟩

theorem find_eq_none {t : Table Row} {p : Row → Bool} :
    t.find p = none ↔ ∀ id row, t.get id = some row → p row = false := by
  constructor
  · intro h id row hget
    cases hfind : t.rows.findIdx? p with
    | none => exact List.findIdx?_eq_none_iff.mp hfind row (List.mem_of_getElem? hget)
    | some id' =>
      obtain ⟨hlt, -, -⟩ := List.findIdx?_eq_some_iff_getElem.mp hfind
      rw [find, hfind, Option.bind_some, get, List.getElem?_eq_getElem hlt] at h
      cases h
  · intro h
    have hfind : t.rows.findIdx? p = none := by
      refine List.findIdx?_eq_none_iff.mpr ?_
      intro row hmem
      obtain ⟨id, hid⟩ := List.getElem?_of_mem hmem
      exact h id row hid
    rw [find, hfind, Option.bind_none]

theorem exists_find {t : Table Row} {p : Row → Bool} {id : Nat} {row : Row}
    (hget : t.get id = some row) (hp : p row = true) : ∃ found, t.find p = some found := by
  cases hfind : t.find p with
  | some found => exact ⟨found, rfl⟩
  | none =>
    have hfalse := find_eq_none.mp hfind id row hget
    rw [hp] at hfalse
    cases hfalse

theorem find_insert {t : Table Row} {p : Row → Bool} {row : Row} (h : t.find p = none)
    (hp : p row = true) : (t.insert row).find p = some (t.nextId, row) := by
  have hnone : t.rows.findIdx? p = none := by
    refine List.findIdx?_eq_none_iff.mpr ?_
    intro other hmem
    obtain ⟨id, hid⟩ := List.getElem?_of_mem hmem
    exact find_eq_none.mp h id other hid
  have hfind : (t.insert row).rows.findIdx? p = some t.nextId := by
    simp [insert, nextId, List.findIdx?_append, hnone, hp, List.findIdx?_cons]
  rw [find, hfind, Option.bind_some, get_insert, if_pos rfl, Option.map_some]

/-- An update that the query does not see changes only the row that it finds. -/
theorem find_update {t : Table Row} {p : Row → Bool} {f : Row → Row} {id : Nat} {row : Row}
    (hp : ∀ row, p (f row) = p row) (h : t.find p = some (id, row)) (id' : Nat) :
    ∃ row', (t.update id' f).find p = some (id, row') := by
  obtain ⟨hget, hrow⟩ := find_eq_some h
  obtain ⟨first, hfind, hfirst⟩ := Option.bind_eq_some_iff.mp h
  obtain ⟨row', -, heq⟩ := Option.map_eq_some_iff.mp hfirst
  cases heq
  have hsame : (t.update id' f).rows.findIdx? p = t.rows.findIdx? p := by
    have hmap : (t.rows.modify id' f).map p = t.rows.map p := by
      refine List.ext_getElem? ?_
      intro i
      rw [List.getElem?_map, List.getElem?_modify, List.getElem?_map]
      cases t.rows[i]? with
      | none => rfl
      | some other => by_cases hi : id' = i <;> simp [hi, hp]
    have hbool := congrArg (List.findIdx? fun b => b) hmap
    rwa [List.findIdx?_map, List.findIdx?_map] at hbool
  rw [find, hsame, hfind, Option.bind_some, get_update]
  split
  · exact ⟨f row, by simp [hget]⟩
  · exact ⟨row, by simp [hget]⟩

theorem mem_findAll {t : Table Row} {p : Row → Bool} {id : Nat} {row : Row} :
    (id, row) ∈ t.findAll p ↔ t.get id = some row ∧ p row = true := by
  simp only [findAll, List.mem_map, List.mem_filter, Prod.exists, Prod.mk.injEq,
    List.mem_zipIdx_iff_getElem?, get]
  constructor
  · rintro ⟨row', id', ⟨hget, hp⟩, rfl, rfl⟩
    exact ⟨hget, hp⟩
  · rintro ⟨hget, hp⟩
    exact ⟨row, id, ⟨hget, hp⟩, rfl, rfl⟩

theorem nodup_findAll (t : Table Row) (p : Row → Bool) : ((t.findAll p).map Prod.fst).Nodup := by
  have hids : (t.rows.zipIdx.map Prod.snd).Nodup := by
    rw [List.zipIdx_map_snd]
    exact List.nodup_range'
  have hsub : ((t.rows.zipIdx.filter fun entry => p entry.1).map Prod.snd).Sublist
      (t.rows.zipIdx.map Prod.snd) := List.Sublist.map Prod.snd List.filter_sublist
  have hnodup := hsub.nodup hids
  rwa [findAll, List.map_map]

theorem mem_rows {t : Table Row} {row : Row} : row ∈ t.rows ↔ ∃ id, t.get id = some row :=
  List.mem_iff_getElem?

/-- A query that finds rows under one id only counts at most one row. -/
theorem count_le_one {t : Table Row} {p : Row → Bool}
    (h : ∀ i j row row', t.get i = some row → t.get j = some row' → p row = true → p row' = true →
      i = j) : t.count p ≤ 1 := by
  obtain ⟨rows⟩ := t
  change rows.countP p ≤ 1
  induction rows with
  | nil => simp
  | cons row rows ih =>
    by_cases hrow : p row = true
    · -- nothing behind the row matches
      have hzero : rows.countP p = 0 := by
        refine List.countP_eq_zero.mpr ?_
        intro row' hmem hrow'
        obtain ⟨j, hj⟩ := List.getElem?_of_mem hmem
        have heq := h 0 (j + 1) row row' rfl hj hrow hrow'
        cases heq
      have hone := (List.countP_cons_of_pos hrow).trans (congrArg (· + 1) hzero)
      exact Nat.le_of_eq hone
    · rw [List.countP_cons_of_neg hrow]
      refine ih ?_
      intro i j r r' hi hj hr hr'
      exact Nat.succ.inj (h (i + 1) (j + 1) r r' hi hj hr hr')

/-! ### Images of the rows -/

/-- What some of the rows stand for. -/
def images (t : Table Row) (g : Row → Option Image) : List Image := t.rows.filterMap g

theorem mem_images {t : Table Row} {g : Row → Option Image} {x : Image} :
    x ∈ t.images g ↔ ∃ id row, t.get id = some row ∧ g row = some x := by
  rw [images, List.mem_filterMap]
  simp only [mem_rows]
  constructor
  · rintro ⟨row, ⟨id, hid⟩, hx⟩
    exact ⟨id, row, hid, hx⟩
  · rintro ⟨id, row, hid, hx⟩
    exact ⟨row, ⟨id, hid⟩, hx⟩

theorem images_insert (t : Table Row) (g : Row → Option Image) (row : Row) :
    (t.insert row).images g = t.images g ++ (g row).toList := by
  rw [images, insert, List.filterMap_append]
  cases h : g row <;> simp [images, h]

/-- An update that takes an image away leaves the others. -/
theorem images_update_perm {t : Table Row} {g : Row → Option Image} {id : Nat} {f : Row → Row}
    {row : Row} {x : Image} (hget : t.get id = some row) (hx : g row = some x)
    (hnone : g (f row) = none) : (t.images g).Perm (x :: (t.update id f).images g) := by
  obtain ⟨hlt, hrow⟩ := List.getElem?_eq_some_iff.mp hget
  have hsplit : t.rows = t.rows.take id ++ row :: t.rows.drop (id + 1) := by
    rw [← hrow, ← List.drop_eq_getElem_cons hlt, List.take_append_drop]
  have hbefore : t.images g =
      (t.rows.take id).filterMap g ++ x :: (t.rows.drop (id + 1)).filterMap g := by
    rw [images]
    conv_lhs => rw [hsplit]
    rw [List.filterMap_append, List.filterMap_cons_some hx]
  have hafter : (t.update id f).images g =
      (t.rows.take id).filterMap g ++ (t.rows.drop (id + 1)).filterMap g := by
    rw [images, update, List.modify_eq_take_cons_drop hlt, List.filterMap_append, hrow,
      List.filterMap_cons_none hnone]
  rw [hbefore, hafter]
  exact List.perm_middle

theorem images_congr {t : Table Row} {g g' : Row → Option Image}
    (h : ∀ id row, t.get id = some row → g row = g' row) : t.images g = t.images g' := by
  refine List.filterMap_congr ?_
  intro row hmem
  obtain ⟨id, hid⟩ := mem_rows.mp hmem
  exact h id row hid

/-- Rows are counted by what they stand for. -/
theorem count_eq_countP_images {t : Table Row} {g : Row → Option Image} {p : Row → Bool}
    {q : Image → Bool} (h : ∀ id row, t.get id = some row → (p row = true ↔ (g row).any q = true)) :
    t.count p = (t.images g).countP q := by
  rw [images, List.countP_filterMap, count]
  refine List.countP_congr ?_
  intro row hmem
  obtain ⟨id, hid⟩ := mem_rows.mp hmem
  rw [h id row hid]
  cases g row <;> simp

end Table
