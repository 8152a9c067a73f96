import Mathlib.Data.Nat.ModEq

/-!
# Numbers on a circle

Serial numbers wrap around at some `n`.  How far one of them is ahead of another is then a number
below `n`, and a number that is less than half a round ahead counts as later.
-/

namespace Serial

variable {n a b d : Nat}

/-- How far `a` is ahead of `b` on a circle of `n` numbers. -/
def ahead (n a b : Nat) : Nat := if b ≤ a then a - b else a + n - b

theorem ahead_lt (ha : a < n) (hb : b < n) : ahead n a b < n := by
  unfold ahead
  split
  · omega
  · omega

theorem ahead_self (n a : Nat) : ahead n a a = 0 := by simp [ahead]

/-- Going as far as `a` is ahead leads to `a`. -/
theorem add_ahead (hb : b < n) : b + ahead n a b ≡ a [MOD n] := by
  unfold ahead
  split
  · rename_i hle
    rw [Nat.add_sub_cancel' hle]
  · rw [show b + (a + n - b) = a + n by omega]
    exact Nat.ModEq.symm (Nat.left_modEq_add_iff.mpr (dvd_refl n))

/-- The way from one number to another is determined by where it leads. -/
theorem ahead_unique (ha : a < n) (hb : b < n) (hd : d < n) (h : b + d ≡ a [MOD n]) :
    ahead n a b = d := by
  have hsame : b + ahead n a b ≡ b + d [MOD n] := (add_ahead hb).trans h.symm
  exact (Nat.ModEq.add_left_cancel' b hsame).eq_of_lt_of_lt (ahead_lt ha hb) hd

/-- The later of two numbers: the new one, if it is less than half a round ahead. -/
def later (n newest number : Nat) : Nat :=
  if ahead n number newest < n / 2 then number else newest

theorem later_lt (ha : a < n) (hb : b < n) : later n a b < n := by
  unfold later
  split
  · exact hb
  · exact ha

end Serial
