import MediaServer.Lib.Machine

/-!
# Arrays of slots

A fixed array whose places are empty or occupied.  Writing behind its end is the
panic of an index out of bounds; reading there finds nothing.
-/

namespace Slots

variable {α : Type}

/-- What a place holds; `none` if it is empty. -/
def slotAt (slots : List (Option α)) (slot : Nat) : Option α := slots[slot]?.getD none

theorem slotAt_eq (slots : List (Option α)) (slot : Nat) :
    slotAt slots slot = slots[slot]?.getD none := rfl

/-- `slots[slot] = state`. -/
def setSlot (slots : List (Option α)) (slot : Nat) (state : Option α) :
    Except Panic (List (Option α)) :=
  if slot < slots.length then .ok (slots.set slot state)
  else .error ⟨"index out of bounds"⟩

theorem slotAt_eq_some {slots : List (Option α)} {slot : Nat} {out : α} :
    slotAt slots slot = some out ↔ slots[slot]? = some (some out) := by
  rw [slotAt_eq]
  cases slots[slot]? with
  | none => simp
  | some state => simp

theorem slotAt_set {slots : List (Option α)} {slot : Nat} (h : slot < slots.length)
    (state : Option α) (other : Nat) :
    slotAt (slots.set slot state) other = if other = slot then state else slotAt slots other := by
  by_cases heq : other = slot
  · subst heq
    rw [if_pos rfl, slotAt_eq, List.getElem?_set_self h, Option.getD_some]
  · rw [if_neg heq, slotAt_eq, slotAt_eq, List.getElem?_set_ne (Ne.symm heq)]

theorem lt_length_of_slotAt {slots : List (Option α)} {slot : Nat} {out : α}
    (h : slotAt slots slot = some out) : slot < slots.length :=
  (List.getElem?_eq_some_iff.mp (slotAt_eq_some.mp h)).1

@[simp] theorem slotAt_replicate (n slot : Nat) :
    slotAt (List.replicate n (none : Option α)) slot = none := by
  rw [slotAt_eq, List.getElem?_replicate]
  split <;> rfl

theorem setSlot_ok {slots : List (Option α)} {slot : Nat} (h : slot < slots.length)
    (state : Option α) : setSlot slots slot state = .ok (slots.set slot state) := if_pos h

/-- What a change of one place does to the number of occupied ones. -/
theorem countP_set {slots : List (Option α)} {slot : Nat} (h : slot < slots.length)
    (state : Option α) :
    (slots.set slot state).countP Option.isSome + (slotAt slots slot).toList.length =
      slots.countP Option.isSome + state.toList.length := by
  have hat : slotAt slots slot = slots[slot] := by
    rw [slotAt_eq, List.getElem?_eq_getElem h, Option.getD_some]
  have hpos : (slots[slot]).isSome = true → 0 < slots.countP Option.isSome := by
    intro hsome
    exact List.countP_pos_iff.mpr ⟨slots[slot], List.getElem_mem h, hsome⟩
  rw [List.countP_set h, hat]
  cases hold : slots[slot] with
  | none => cases state <;> simp
  | some old =>
    rw [hold] at hpos
    have := hpos rfl
    cases state <;> simp <;> omega

/-! ### Two arrays that are occupied at the same places -/

/-- The arrays have one length and are occupied at the same places. -/
structure Aligned {β : Type} (slots : List (Option α)) (others : List (Option β)) : Prop where
  length_eq : others.length = slots.length
  occupied : ∀ slot, (slotAt others slot).isSome = (slotAt slots slot).isSome

variable {β : Type} {slots : List (Option α)} {others : List (Option β)}

theorem aligned_replicate (n : Nat) :
    Aligned (List.replicate n (none : Option α)) (List.replicate n (none : Option β)) :=
  ⟨by simp, by simp⟩

theorem Aligned.set (h : Aligned slots others) {slot : Nat} (hlt : slot < slots.length)
    (state : α) (other : β) : Aligned (slots.set slot (some state)) (others.set slot (some other)) := by
  have hlt' : slot < others.length := h.length_eq.symm ▸ hlt
  constructor
  · rw [List.length_set, List.length_set, h.length_eq]
  · intro k
    rw [slotAt_set hlt', slotAt_set hlt]
    by_cases hk : k = slot
    · rw [if_pos hk, if_pos hk]
      rfl
    · rw [if_neg hk, if_neg hk]
      exact h.occupied k

/-- Writing an occupied place keeps it occupied. -/
theorem Aligned.update (h : Aligned slots others) {slot : Nat}
    (hsome : (slotAt slots slot).isSome) (other : β) :
    Aligned slots (others.set slot (some other)) := by
  obtain ⟨state, hstate⟩ := Option.isSome_iff_exists.mp hsome
  have hlt' : slot < others.length := h.length_eq.symm ▸ lt_length_of_slotAt hstate
  constructor
  · rw [List.length_set, h.length_eq]
  · intro k
    rw [slotAt_set hlt']
    by_cases hk : k = slot
    · rw [if_pos hk, hk, hsome]
      rfl
    · rw [if_neg hk]
      exact h.occupied k

/-- Empty the places of a list, one after another. -/
def clearSlots : List Nat → List (Option α) → Except Panic (List (Option α))
  | [], slots => .ok slots
  | slot :: rest, slots => do
      let slots ← setSlot slots slot none
      clearSlots rest slots

theorem clearSlots_ok {cleared : List Nat} {slots : List (Option α)}
    (h : ∀ slot ∈ cleared, slot < slots.length) :
    ∃ slots', clearSlots cleared slots = .ok slots' ∧ slots'.length = slots.length ∧
      ∀ slot, slotAt slots' slot = if slot ∈ cleared then none else slotAt slots slot := by
  induction cleared generalizing slots with
  | nil => exact ⟨slots, rfl, rfl, fun slot => by simp⟩
  | cons first rest ih =>
    have hlt := h first (List.mem_cons_self ..)
    have hrest : ∀ slot ∈ rest, slot < (slots.set first none).length := by
      intro slot hmem
      rw [List.length_set]
      exact h slot (List.mem_cons_of_mem _ hmem)
    obtain ⟨slots', hslots', hlength, hat⟩ := ih hrest
    refine ⟨slots', ?_, ?_, ?_⟩
    · simp only [clearSlots, setSlot_ok hlt, bind, Except.bind]
      exact hslots'
    · rw [hlength, List.length_set]
    · intro slot
      rw [hat, slotAt_set hlt]
      by_cases hfirst : slot = first
      · simp [hfirst]
      · simp [hfirst]

/-- Both arrays lose the same places. -/
theorem Aligned.clear (h : Aligned slots others) {cleared : List Nat}
    {slots' : List (Option α)} {others' : List (Option β)}
    (hlength : slots'.length = slots.length) (hlength' : others'.length = others.length)
    (hslots : ∀ slot, slotAt slots' slot = if slot ∈ cleared then none else slotAt slots slot)
    (hothers : ∀ slot, slotAt others' slot = if slot ∈ cleared then none else slotAt others slot) :
    Aligned slots' others' := by
  constructor
  · rw [hlength, hlength', h.length_eq]
  · intro slot
    rw [hslots, hothers]
    by_cases hmem : slot ∈ cleared
    · rw [if_pos hmem, if_pos hmem]
      rfl
    · rw [if_neg hmem, if_neg hmem]
      exact h.occupied slot

end Slots
