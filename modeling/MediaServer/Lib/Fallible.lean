import Mathlib.Tactic.Common

/-!
# Computations whose failure keeps what was done

A computation over a state may fail half way; the state then keeps what had been done.  `wp`
says what holds after it, with one condition for success and one for failure, and the rules take
a computation apart from its first operation on.  `attempt` is an operation that fails at the
will of its environment.
-/

universe u

namespace Fallible

variable {ε σ α β : Type}

/-- After the computation the first condition holds if it returned, the second if it failed. -/
def wp (x : EStateM ε σ α) (Q : α → σ → Prop) (E : ε → σ → Prop) (s : σ) : Prop :=
  match x s with
  | .ok a s' => Q a s'
  | .error e s' => E e s'

/-- An operation that may fail, in which case it has no effect. -/
def attempt (fails : Bool) (e : ε) (f : σ → α × σ) : EStateM ε σ α := fun s =>
  if fails then .error e s else .ok (f s).1 (f s).2

variable {Q : α → σ → Prop} {E : ε → σ → Prop} {s : σ}

@[simp] theorem wp_pure {a : α} : wp (pure a : EStateM ε σ α) Q E s ↔ Q a s := Iff.rfl

@[simp] theorem wp_throw {e : ε} : wp (throw e : EStateM ε σ α) Q E s ↔ E e s := Iff.rfl

@[simp] theorem wp_get {Q : σ → σ → Prop} : wp (get : EStateM ε σ σ) Q E s ↔ Q s s := Iff.rfl

@[simp] theorem wp_set {t : σ} {Q : PUnit → σ → Prop} :
    wp (set t : EStateM ε σ PUnit) Q E s ↔ Q ⟨⟩ t := Iff.rfl

@[simp] theorem wp_modify {f : σ → σ} {Q : Unit → σ → Prop} :
    wp (modify f : EStateM ε σ Unit) Q E s ↔ Q () (f s) := Iff.rfl

@[simp] theorem wp_bind {x : EStateM ε σ α} {f : α → EStateM ε σ β} {Q : β → σ → Prop} :
    wp (x >>= f) Q E s ↔ wp x (fun a s' => wp (f a) Q E s') E s := by
  rw [wp, wp]
  change (match EStateM.bind x f s with | .ok a s' => Q a s' | .error e s' => E e s') ↔ _
  rw [EStateM.bind]
  cases x s <;> rfl

theorem wp_attempt {fails : Bool} {e : ε} {f : σ → α × σ} :
    wp (attempt fails e f) Q E s ↔ if fails then E e s else Q (f s).1 (f s).2 := by
  rw [wp, attempt]
  cases fails <;> simp

@[simp] theorem wp_attempt_false {e : ε} {f : σ → α × σ} :
    wp (attempt false e f) Q E s ↔ Q (f s).1 (f s).2 := by
  simp [wp_attempt]

@[simp] theorem wp_ite {c : Prop} [Decidable c] {x y : EStateM ε σ α} :
    wp (if c then x else y) Q E s ↔ if c then wp x Q E s else wp y Q E s := by
  split <;> rfl

/-- The rule of consequence. -/
theorem wp_mono {x : EStateM ε σ α} {Q' : α → σ → Prop} {E' : ε → σ → Prop} (h : wp x Q E s)
    (hQ : ∀ a s', Q a s' → Q' a s') (hE : ∀ e s', E e s' → E' e s') : wp x Q' E' s := by
  rw [wp] at h ⊢
  split at h
  case h_1 a s' hx => exact hQ a s' h
  case h_2 e s' hx => exact hE e s' h

/-- What the rest of a computation ensures wherever it begins. -/
theorem wp_bind_of_forall {x : EStateM ε σ α} {f : α → EStateM ε σ β} {Q : β → σ → Prop}
    (h : ∀ a s', wp (f a) Q (fun _ _ => True) s') : wp (x >>= f) Q (fun _ _ => True) s := by
  rw [wp_bind, wp]
  split
  case h_1 a s' hx => exact h a s'
  case h_2 => trivial

/-- A computation that cannot fail returns. -/
theorem ok_of_wp {x : EStateM ε σ α} (h : wp x Q (fun _ _ => False) s) :
    ∃ a s', x s = .ok a s' ∧ Q a s' := by
  rw [wp] at h
  split at h
  case h_1 a s' hx => exact ⟨a, s', hx, h⟩
  case h_2 => cases h

/-- A computation that cannot return fails. -/
theorem error_of_wp {x : EStateM ε σ α} (h : wp x (fun _ _ => False) E s) :
    ∃ e s', x s = .error e s' ∧ E e s' := by
  rw [wp] at h
  split at h
  case h_1 => cases h
  case h_2 e s' hx => exact ⟨e, s', hx, h⟩

end Fallible
