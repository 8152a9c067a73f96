import Mathlib.Data.List.Nodup
import Mathlib.Data.List.NodupEquivFin
import Mathlib.Data.List.Infix

/-!
# Numbers from places

Lists of names arrive one after another, and a name that is not known yet is numbered by its place
in the list that brings it.  The first list is taken as it is.  The numbers that are given out
depend only on where each name is first listed, which tells when two of them are equal.
-/

namespace Collections

variable {α : Type} [DecidableEq α]

/-- The names of a list that are not known yet join with their places, counted from `place`. -/
def enroll (known : List (α × Nat)) (place : Nat) : List α → List (α × Nat)
  | [] => known
  | name :: names =>
    if name ∈ known.map Prod.fst then enroll known (place + 1) names
    else enroll (known ++ [(name, place)]) (place + 1) names

/-- All lists, the first of them as it is. -/
def enrolled (first : List α) (lists : List (List α)) : List (α × Nat) :=
  lists.foldl (fun known names => enroll known 0 names) first.zipIdx

/-- The place of a name in the first of the lists that has it. -/
def firstPlace (lists : List (List α)) (name : α) : Option Nat :=
  lists.findSome? fun names => names.idxOf? name

/-- The places give different numbers below `width`: the first list has places enough, a name that
    joins later is listed behind all of them, and no two such names are first listed at one
    place. -/
structure Numbered (width : Nat) (first : List α) (lists : List (List α)) : Prop where
  fits : first.length ≤ width
  behind : ∀ name ∉ first, ∀ place, firstPlace lists name = some place →
    first.length ≤ place % width
  apart : ∀ name ∉ first, ∀ name' ∉ first, ∀ place place', firstPlace lists name = some place →
    firstPlace lists name' = some place' → place % width = place' % width → name = name'

/-- The names that one list adds. -/
theorem enroll_eq_append (known : List (α × Nat)) (place : Nat) (names : List α) :
    ∃ added, enroll known place names = known ++ added ∧ (added.map Prod.fst).Nodup ∧
      ∀ name at', (name, at') ∈ added ↔ name ∉ known.map Prod.fst ∧
        ∃ index, names.idxOf? name = some index ∧ at' = place + index := by
  induction names generalizing known place with
  | nil => exact ⟨[], (List.append_nil _).symm, List.nodup_nil, by simp⟩
  | cons head names ih =>
    unfold enroll
    split
    · rename_i hknown
      obtain ⟨added, heq, hnodup, hmem⟩ := ih known (place + 1)
      refine ⟨added, heq, hnodup, fun name at' => ?_⟩
      rw [hmem]
      constructor
      · rintro ⟨hnew, index, hindex, rfl⟩
        refine ⟨hnew, index + 1, ?_, by omega⟩
        have hne : head ≠ name := fun heq => hnew (heq ▸ hknown)
        simp [List.idxOf?_cons, hne, hindex]
      · rintro ⟨hnew, index, hindex, rfl⟩
        have hne : head ≠ name := fun heq => hnew (heq ▸ hknown)
        simp only [List.idxOf?_cons, beq_iff_eq, hne, if_false, Option.map_eq_some_iff] at hindex
        obtain ⟨index', hindex', rfl⟩ := hindex
        exact ⟨hnew, index', hindex', by omega⟩
    · rename_i hfresh
      obtain ⟨added, heq, hnodup, hmem⟩ := ih (known ++ [(head, place)]) (place + 1)
      have hhead : head ∉ added.map Prod.fst := by
        intro hin
        obtain ⟨⟨name, at'⟩, hadded, rfl⟩ := List.mem_map.mp hin
        have hnew := ((hmem name at').mp hadded).1
        simp at hnew
      refine ⟨(head, place) :: added, ?_, List.nodup_cons.mpr ⟨hhead, hnodup⟩, fun name at' => ?_⟩
      · rw [heq, List.append_assoc]
        rfl
      · rw [List.mem_cons, hmem, Prod.mk.injEq]
        simp only [List.map_append, List.map_cons, List.map_nil, List.mem_append,
          List.mem_singleton, not_or]
        constructor
        · rintro (⟨rfl, rfl⟩ | ⟨⟨hnew, hne⟩, index, hindex, rfl⟩)
          · exact ⟨hfresh, 0, by simp [List.idxOf?_cons], rfl⟩
          · refine ⟨hnew, index + 1, ?_, by omega⟩
            simp [List.idxOf?_cons, Ne.symm hne, hindex]
        · rintro ⟨hnew, index, hindex, rfl⟩
          by_cases hne : head = name
          · subst hne
            simp only [List.idxOf?_cons, beq_self_eq_true, if_true, Option.some.injEq] at hindex
            exact Or.inl ⟨rfl, by omega⟩
          · simp only [List.idxOf?_cons, beq_iff_eq, hne, if_false, Option.map_eq_some_iff]
              at hindex
            obtain ⟨index', hindex', rfl⟩ := hindex
            exact Or.inr ⟨⟨hnew, fun heq => hne heq.symm⟩, index', hindex', by omega⟩

/-- The names that all lists add. -/
theorem foldl_enroll_eq_append (known : List (α × Nat)) (lists : List (List α)) :
    ∃ added, lists.foldl (fun known names => enroll known 0 names) known = known ++ added ∧
      (added.map Prod.fst).Nodup ∧
      ∀ name place, (name, place) ∈ added ↔
        name ∉ known.map Prod.fst ∧ firstPlace lists name = some place := by
  induction lists generalizing known with
  | nil => exact ⟨[], (List.append_nil _).symm, List.nodup_nil, by simp [firstPlace]⟩
  | cons names lists ih =>
    obtain ⟨one, hone, hnodup, hmem⟩ := enroll_eq_append known 0 names
    obtain ⟨more, hmore, hnodup', hmem'⟩ := ih (known ++ one)
    have hjoined : ∀ name, name ∈ one.map Prod.fst ↔
        name ∉ known.map Prod.fst ∧ (names.idxOf? name).isSome := by
      intro name
      rw [List.mem_map]
      constructor
      · rintro ⟨⟨_, place⟩, hin, rfl⟩
        obtain ⟨hnew, index, hindex, -⟩ := (hmem _ _).mp hin
        exact ⟨hnew, by simp [hindex]⟩
      · rintro ⟨hnew, hsome⟩
        obtain ⟨index, hindex⟩ := Option.isSome_iff_exists.mp hsome
        exact ⟨(name, 0 + index), (hmem _ _).mpr ⟨hnew, index, hindex, rfl⟩, rfl⟩
    refine ⟨one ++ more, ?_, ?_, ?_⟩
    · rw [List.foldl_cons, hone, hmore, List.append_assoc]
    · rw [List.map_append, List.nodup_append']
      refine ⟨hnodup, hnodup', ?_⟩
      intro name hfirst hsecond
      obtain ⟨⟨_, place⟩, hin, rfl⟩ := List.mem_map.mp hsecond
      apply ((hmem' _ _).mp hin).1
      rw [List.map_append]
      exact List.mem_append_right _ hfirst
    · intro name place
      have hsplit : firstPlace (names :: lists) name =
          (names.idxOf? name).or (firstPlace lists name) := by
        rw [firstPlace, List.findSome?_cons]
        cases names.idxOf? name <;> rfl
      rw [List.mem_append, hmem, hmem', List.map_append, List.mem_append, not_or, hjoined, hsplit]
      cases names.idxOf? name with
      | none => simp
      | some index => simp [eq_comm]

theorem map_snd_zipIdx (first : List α) :
    first.zipIdx.map Prod.snd = List.range first.length := by
  rw [List.zipIdx_map_snd, List.range_eq_range']

/-- A name and its place below the width are one to one when the width is not exceeded. -/
theorem nodup_range_mod_iff {width n : Nat} (hpos : 0 < width) :
    ((List.range n).map (· % width)).Nodup ↔ n ≤ width := by
  constructor
  · intro hnodup
    by_contra hlt
    have hinj := List.inj_on_of_nodup_map hnodup
    have hsame : (0 : Nat) = width := by
      apply hinj
      · rw [List.mem_range]
        omega
      · rw [List.mem_range]
        omega
      · simp
    omega
  · intro hle
    apply List.Nodup.map_on _ List.nodup_range
    intro i hi j hj heq
    rw [List.mem_range] at hi hj
    rwa [Nat.mod_eq_of_lt (by omega), Nat.mod_eq_of_lt (by omega)] at heq

/-- **When the numbers differ.** -/
theorem nodup_enrolled_iff {width : Nat} (hpos : 0 < width) (first : List α)
    (lists : List (List α)) :
    ((enrolled first lists).map fun entry => entry.2 % width).Nodup ↔
      Numbered width first lists := by
  obtain ⟨added, heq, hnodup, hmem⟩ := foldl_enroll_eq_append first.zipIdx lists
  have hnames : first.zipIdx.map Prod.fst = first := List.zipIdx_map_fst ..
  rw [hnames] at hmem
  have hfirst : first.zipIdx.map (fun entry => entry.2 % width) =
      (List.range first.length).map (· % width) := by
    rw [← map_snd_zipIdx, List.map_map]
    rfl
  rw [enrolled, heq, List.map_append, hfirst, List.nodup_append', nodup_range_mod_iff hpos,
    List.nodup_map_iff_inj_on (List.Nodup.of_map _ hnodup)]
  constructor
  · rintro ⟨hfits, hinj, hdisjoint⟩
    refine ⟨hfits, ?_, ?_⟩
    · intro name hnew place hplace
      by_contra hlt
      have hin := (hmem name place).mpr ⟨hnew, hplace⟩
      apply hdisjoint (a := place % width)
      · refine List.mem_map.mpr ⟨place % width, List.mem_range.mpr (by omega), ?_⟩
        exact Nat.mod_mod _ _
      · exact List.mem_map.mpr ⟨_, hin, rfl⟩
    · intro name hnew name' hnew' place place' hplace hplace' hsame
      have hpair := hinj _ ((hmem name place).mpr ⟨hnew, hplace⟩) _
        ((hmem name' place').mpr ⟨hnew', hplace'⟩) hsame
      exact congrArg Prod.fst hpair
  · rintro ⟨hfits, hbehind, hapart⟩
    refine ⟨hfits, ?_, ?_⟩
    · rintro ⟨name, place⟩ hin ⟨name', place'⟩ hin' hsame
      obtain ⟨hnew, hplace⟩ := (hmem _ _).mp hin
      obtain ⟨hnew', hplace'⟩ := (hmem _ _).mp hin'
      obtain rfl := hapart name hnew name' hnew' place place' hplace hplace' hsame
      rw [hplace] at hplace'
      cases hplace'
      rfl
    · intro number hold hlate
      obtain ⟨place, hrange, rfl⟩ := List.mem_map.mp hold
      obtain ⟨⟨name, place'⟩, hin, hsame⟩ := List.mem_map.mp hlate
      obtain ⟨hnew, hplace⟩ := (hmem _ _).mp hin
      have hle := hbehind name hnew place' hplace
      have hlt := List.mem_range.mp hrange
      have hsmall : place % width = place := Nat.mod_eq_of_lt (by omega)
      have hequal : place' % width = place % width := hsame
      omega

end Collections
