import Mathlib.Tactic.Common

/-!
# Presence by heartbeat

Members of a group announce themselves over and over, may be withdrawn, and are
forgotten by a clock when their last announcement is too old.  `Alive` says who
belongs to the group after a sequence of such events: those whose last
announcement was neither withdrawn nor found too old since.

A register of the members is right, `Tracks`, if it lists exactly the living ones;
the rules say what a register has to do at each event to stay right.
-/

namespace Presence

variable {K V : Type}

inductive Event (K V : Type) where
  | refresh (now : Nat) (member : K) (value : V)
  | withdraw (member : K)
  | expire (now : Nat)

/-- The event decides anew whether the member belongs to the group. -/
def Event.Concerns (member : K) : Event K V → Prop
  | .refresh _ other _ => other = member
  | .withdraw other => other = member
  | .expire _ => False

/-- The last word about the member is its announcement at time `since`, and no later
    clock found it as old as `timeout`. -/
def Alive (timeout : Nat) (events : List (Event K V)) (member : K) (value : V)
    (since : Nat) : Prop :=
  ∃ before after, events = before ++ .refresh since member value :: after ∧
    (∀ event ∈ after, ¬ event.Concerns member) ∧
    ∀ now, .expire now ∈ after → now < since + timeout

/-- The register lists the living members. -/
def Tracks (timeout : Nat) (events : List (Event K V)) (lists : K → V → Nat → Prop) : Prop :=
  ∀ member value since, lists member value since ↔ Alive timeout events member value since

variable {timeout : Nat} {events : List (Event K V)}

theorem not_alive_nil (member : K) (value : V) (since : Nat) :
    ¬ Alive timeout ([] : List (Event K V)) member value since := by
  rintro ⟨before, after, heq, -, -⟩
  simp at heq

/-- What one more event leaves of the living members. -/
theorem alive_concat (event : Event K V) (member : K) (value : V) (since : Nat) :
    Alive timeout (events ++ [event]) member value since ↔
      event = .refresh since member value ∨
        Alive timeout events member value since ∧ ¬ event.Concerns member ∧
          ∀ now, event = .expire now → now < since + timeout := by
  constructor
  · rintro ⟨before, after, heq, hlast, hfresh⟩
    rcases List.eq_nil_or_concat after with rfl | ⟨rest, last, rfl⟩
    · obtain ⟨-, hevent⟩ := List.append_inj' heq rfl
      exact Or.inl (List.singleton_inj.mp hevent)
    · rw [List.concat_eq_append, ← List.cons_append, ← List.append_assoc] at heq
      obtain ⟨hevents, hevent⟩ := List.append_inj' heq rfl
      have hsame : event = last := List.singleton_inj.mp hevent
      rw [List.concat_eq_append] at hlast hfresh
      refine Or.inr ⟨⟨before, rest, hevents, ?_, ?_⟩, ?_, ?_⟩
      · intro other hmem
        exact hlast other (List.mem_append_left _ hmem)
      · intro now hmem
        exact hfresh now (List.mem_append_left _ hmem)
      · rw [hsame]
        exact hlast last (by simp)
      · intro now hexpire
        exact hfresh now (by simp [← hsame, hexpire])
  · rintro (rfl | ⟨⟨before, after, rfl, hlast, hfresh⟩, hevent, hnow⟩)
    · exact ⟨events, [], rfl, by simp, by simp⟩
    · refine ⟨before, after ++ [event], by simp, ?_, ?_⟩
      · intro other hmem
        rcases List.mem_append.mp hmem with hmem | hmem
        · exact hlast other hmem
        · rw [List.mem_singleton.mp hmem]
          exact hevent
      · intro now hmem
        rcases List.mem_append.mp hmem with hmem | hmem
        · exact hfresh now hmem
        · exact hnow now (List.mem_singleton.mp hmem).symm

namespace Tracks

variable {lists lists' : K → V → Nat → Prop}

theorem nil (h : ∀ member value since, ¬ lists member value since) :
    Tracks timeout [] lists :=
  fun member value since =>
    iff_of_false (h member value since) (not_alive_nil member value since)

theorem refresh (h : Tracks timeout events lists) {now : Nat} {member : K} {value : V}
    (hnew : ∀ value' since, lists' member value' since ↔ value' = value ∧ since = now)
    (hrest : ∀ other value' since, other ≠ member →
      (lists' other value' since ↔ lists other value' since)) :
    Tracks timeout (events ++ [Event.refresh now member value]) lists' := by
  intro other value' since
  rw [alive_concat]
  by_cases hother : other = member
  · subst hother
    rw [hnew]
    constructor
    · rintro ⟨rfl, rfl⟩
      exact Or.inl rfl
    · rintro (heq | ⟨-, hconcerns, -⟩)
      · cases heq
        exact ⟨rfl, rfl⟩
      · exact absurd rfl hconcerns
  · rw [hrest other value' since hother, h other value' since]
    constructor
    · intro halive
      exact Or.inr ⟨halive, Ne.symm hother, by simp⟩
    · rintro (heq | ⟨halive, -, -⟩)
      · cases heq
        exact absurd rfl hother
      · exact halive

theorem withdraw (h : Tracks timeout events lists) {member : K}
    (hgone : ∀ value since, ¬ lists' member value since)
    (hrest : ∀ other value since, other ≠ member →
      (lists' other value since ↔ lists other value since)) :
    Tracks timeout (events ++ [Event.withdraw member]) lists' := by
  intro other value since
  rw [alive_concat]
  by_cases hother : other = member
  · subst hother
    refine iff_of_false (hgone value since) ?_
    rintro (heq | ⟨-, hconcerns, -⟩)
    · cases heq
    · exact hconcerns rfl
  · rw [hrest other value since hother, h other value since]
    constructor
    · intro halive
      exact Or.inr ⟨halive, Ne.symm hother, by simp⟩
    · rintro (heq | ⟨halive, -, -⟩)
      · cases heq
      · exact halive

theorem expire (h : Tracks timeout events lists) {now : Nat}
    (hkept : ∀ member value since, lists' member value since ↔
      lists member value since ∧ now < since + timeout) :
    Tracks timeout (events ++ [Event.expire now]) lists' := by
  intro member value since
  rw [alive_concat, hkept, h member value since]
  constructor
  · rintro ⟨halive, hnow⟩
    refine Or.inr ⟨halive, id, ?_⟩
    intro now' heq
    cases heq
    exact hnow
  · rintro (heq | ⟨halive, -, hnow⟩)
    · cases heq
    · exact ⟨halive, hnow now rfl⟩

theorem congr (h : Tracks timeout events lists)
    (hsame : ∀ member value since, lists' member value since ↔ lists member value since) :
    Tracks timeout events lists' :=
  fun member value since => (hsame member value since).trans (h member value since)

end Tracks

end Presence
