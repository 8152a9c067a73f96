import MediaServer.Lib.Fallible
import MediaServer.Lib.Machine
import MediaServer.Protocol
import Mathlib.Algebra.GroupWithZero.Nat
import Mathlib.Data.Nat.Bitwise

/-!
# Reading a payload

`BitRead for (&[u8], usize)` (`transport_webrtc/src/media/bit_read.rs`): a buffer and a position
in bits.  What is left is counted in bits as well.

The parsers start at the first bit and read whole bytes only.  `past` is a reader between two
bytes, by what it has read and what is left; on it the reader takes bytes off a list.
-/

namespace MediaServer.Transport.Payload

open Fallible

/-- What ends a parser that does not return: the `PacketError`s of `vp9.rs`, or a panic. -/
inductive Fault where
  | shortPacket
  | tooManySpatialLayers
  | tooManyPDiff
  | panic (p : Panic)
deriving Repr

def Fault.isPanic : Fault → Bool
  | .panic _ => true
  | _ => false

structure BitReader where
  buf : Bytes
  bit : Nat
deriving Repr

abbrev Parser := EStateM Fault BitReader

def tooFewBits : Panic := ⟨"Too few bits left"⟩
def indexOutOfBounds : Panic := ⟨"index out of bounds"⟩

def remaining : Parser Nat := fun r => .ok (r.buf.length * 8 - r.bit) r

/-- Indexing of a buffer, which is checked. -/
def byteAt (buf : Bytes) (i : Nat) : Parser UInt8 := fun r =>
  match buf[i]? with
  | none => .error (.panic indexOutOfBounds) r
  | some b => .ok b r

def getU8 : Parser UInt8 := do
  if (← remaining) = 0 then throw (.panic tooFewBits)
  let r ← get
  let offs := r.bit / 8
  let shift := r.bit % 8
  set { r with bit := r.bit + 8 }
  let n ← byteAt r.buf offs
  if 0 < shift then
    let next ← byteAt r.buf (offs + 1)
    pure (n <<< UInt8.ofNat shift ||| next >>> (8 - UInt8.ofNat shift))
  else pure n

def getU16 : Parser UInt16 := do
  let hi ← getU8
  let lo ← getU8
  pure (hi.toUInt16 <<< 8 ||| lo.toUInt16)

/-- A parser on a whole payload.  An error becomes `none`, as with `.ok()`. -/
def parse {α : Type} (p : Parser α) (payload : Bytes) : Except Panic (Option α) :=
  match p ⟨payload, 0⟩ with
  | .ok a _ => .ok (some a)
  | .error (.panic panic) _ => .error panic
  | .error _ _ => .ok none

/-! ### Single bits -/

theorem nat_and_two_pow (n k : Nat) : n &&& 2 ^ k = n / 2 ^ k % 2 * 2 ^ k := by
  rw [Nat.and_two_pow, Nat.testBit_eq_decide_div_mod_eq]
  rcases Nat.mod_two_eq_zero_or_one (n / 2 ^ k) with hzero | hone
  · rw [hzero]
    rfl
  · rw [hone]
    rfl

/-- A bit that is masked out and shifted down. -/
theorem toNat_and_shiftRight {b m s : UInt8} {k : Nat} (hm : m.toNat = 2 ^ k) (hs : s.toNat = k)
    (hk : k < 8) : ((b &&& m) >>> s).toNat = b.toNat / 2 ^ k % 2 := by
  rw [UInt8.toNat_shiftRight, UInt8.toNat_and, hm, hs, Nat.mod_eq_of_lt hk, nat_and_two_pow,
    Nat.shiftRight_eq_div_pow, Nat.mul_div_cancel _ (Nat.two_pow_pos k)]

theorem and_shiftRight_eq_one {b m s : UInt8} {k : Nat} (hm : m.toNat = 2 ^ k) (hs : s.toNat = k)
    (hk : k < 8) : (b &&& m) >>> s = 1 ↔ b.toNat / 2 ^ k % 2 = 1 := by
  rw [← toNat_and_shiftRight hm hs hk, ← UInt8.toNat_inj]
  rfl

/-- A bit that is tested with its mask. -/
theorem and_ne_zero {b m : UInt8} {k : Nat} (hm : m.toNat = 2 ^ k) :
    b &&& m ≠ 0 ↔ b.toNat / 2 ^ k % 2 = 1 := by
  rw [Ne, ← UInt8.toNat_inj, UInt8.toNat_and, hm, nat_and_two_pow, UInt8.toNat_zero,
    Nat.mul_eq_zero]
  have hpos := Nat.two_pow_pos k
  omega

/-- A flag is the bit that its mask tests. -/
theorem decide_and_ne_zero {b m : UInt8} {flag : Bool} {k : Nat} (hm : m.toNat = 2 ^ k)
    (hflag : b.toNat / 2 ^ k % 2 = flag.toNat) : decide (b &&& m ≠ 0) = flag := by
  cases flag with
  | false =>
    rw [Bool.toNat_false] at hflag
    exact decide_eq_false (mt (and_ne_zero hm).mp (by omega))
  | true => exact decide_eq_true ((and_ne_zero hm).mpr hflag)

/-! ### Readers between two bytes -/

/-- A reader of a buffer by the bytes it has read and those that are left. -/
def past (done left : Bytes) : BitReader := ⟨done ++ left, done.length * 8⟩

theorem past_nil (payload : Bytes) : past [] payload = ⟨payload, 0⟩ := rfl

/-- A parser that cannot fail returns something. -/
theorem parse_eq_some {α : Type} {p : Parser α} {payload : Bytes} {Q : α → Prop}
    (h : wp p (fun a _ => Q a) (fun _ _ => False) (past [] payload)) :
    ∃ a, parse p payload = .ok (some a) ∧ Q a := by
  obtain ⟨a, s, hrun, hQ⟩ := ok_of_wp h
  rw [past_nil] at hrun
  exact ⟨a, by rw [parse, hrun], hQ⟩

theorem parse_eq_some_iff {α : Type} {p : Parser α} {payload : Bytes} {a : α} :
    parse p payload = .ok (some a) ↔
      wp p (fun a' _ => a' = a) (fun _ _ => False) (past [] payload) := by
  constructor
  · intro h
    rw [wp, past_nil]
    rw [parse] at h
    split at h
    case h_1 a' s hrun =>
      rw [hrun]
      exact Option.some.inj (Except.ok.inj h)
    case h_2 => cases h
    case h_3 => cases h
  · intro h
    obtain ⟨a', hparse, rfl⟩ := parse_eq_some h
    exact hparse

/-- What a parser ensures when it returns. -/
theorem of_parse_eq_some {α : Type} {p : Parser α} {payload : Bytes} {Q : α → Prop} {a : α}
    (hp : wp p (fun a _ => Q a) (fun _ _ => True) (past [] payload))
    (h : parse p payload = .ok (some a)) : Q a := by
  obtain ⟨a', s, hrun, rfl⟩ := ok_of_wp (parse_eq_some_iff.mp h)
  rw [wp, hrun] at hp
  exact hp

/-- A parser that fails without a panic returns nothing. -/
theorem parse_eq_none {α : Type} {p : Parser α} {payload : Bytes}
    (h : wp p (fun _ _ => False) (fun e _ => e.isPanic = false) (past [] payload)) :
    parse p payload = .ok none := by
  obtain ⟨e, s, hrun, hpanic⟩ := error_of_wp h
  rw [past_nil] at hrun
  rw [parse, hrun]
  cases e with
  | panic p => exact nomatch hpanic
  | _ => rfl

section

variable {done left : Bytes} {E : Fault → BitReader → Prop}

@[simp] theorem wp_remaining {Q : Nat → BitReader → Prop} :
    wp remaining Q E (past done left) ↔ Q (left.length * 8) (past done left) := by
  have hbits : (done ++ left).length * 8 - done.length * 8 = left.length * 8 := by
    rw [List.length_append]
    omega
  rw [wp, remaining]
  simp only [past, hbits]

theorem wp_byteAt {Q : UInt8 → BitReader → Prop} {buf : Bytes} {i : Nat} {b : UInt8}
    (h : buf[i]? = some b) {r : BitReader} : wp (byteAt buf i) Q E r ↔ Q b r := by
  rw [wp, byteAt, h]

@[simp] theorem wp_getU8_cons {Q : UInt8 → BitReader → Prop} {b : UInt8} :
    wp getU8 Q E (past done (b :: left)) ↔ Q b (past (done ++ [b]) left) := by
  have hbyte : (past done (b :: left)).buf[(past done (b :: left)).bit / 8]? = some b := by
    simp [past]
  have hshift : (past done (b :: left)).bit % 8 = 0 := Nat.mul_mod_left _ _
  have hnext : { past done (b :: left) with bit := (past done (b :: left)).bit + 8 } =
      past (done ++ [b]) left := by
    simp [past, Nat.add_mul]
  simp only [getU8, wp_bind, wp_remaining, List.length_cons]
  rw [if_neg (by omega)]
  simp only [wp_bind, wp_pure, wp_get, wp_set, wp_byteAt hbyte, hshift, hnext, Nat.lt_irrefl,
    if_false]

@[simp] theorem wp_getU8_nil {Q : UInt8 → BitReader → Prop} :
    wp getU8 Q E (past done []) ↔ E (.panic tooFewBits) (past done []) := by
  simp only [getU8, wp_bind, wp_remaining, List.length_nil, Nat.zero_mul, if_true, wp_throw]

@[simp] theorem wp_getU16_cons {Q : UInt16 → BitReader → Prop} {hi lo : UInt8} :
    wp getU16 Q E (past done (hi :: lo :: left)) ↔
      Q (hi.toUInt16 <<< 8 ||| lo.toUInt16) (past (done ++ [hi] ++ [lo]) left) := by
  simp only [getU16, wp_bind, wp_getU8_cons, wp_pure]

end

/-! ### Parsers that read the same -/

/-- Two parsers that differ in what they have read before, but not in what they read on. -/
def Alike {α β : Type} (R : α → β → Prop) (x : Parser α) (y : Parser β) : Prop :=
  ∀ done done' left, match x (past done left), y (past done' left) with
    | .ok a r, .ok b r' => R a b ∧ ∃ d d' l, r = past d l ∧ r' = past d' l
    | .error e _, .error e' _ => e = e'
    | _, _ => False

namespace Alike

variable {α β γ δ : Type} {R : α → β → Prop} {S : γ → δ → Prop}

theorem pure {a : α} {b : β} (h : R a b) :
    Alike R (Pure.pure a : Parser α) (Pure.pure b : Parser β) :=
  fun done done' left => ⟨h, done, done', left, rfl, rfl⟩

theorem throw (e : Fault) :
    Alike R (MonadExcept.throw e : Parser α) (MonadExcept.throw e : Parser β) :=
  fun _ _ _ => rfl

theorem bind {x : Parser α} {y : Parser β} {f : α → Parser γ} {g : β → Parser δ}
    (h : Alike R x y) (hfg : ∀ a b, R a b → Alike S (f a) (g b)) :
    Alike S (x >>= f) (y >>= g) := by
  intro done done' left
  have hxy := h done done' left
  change match EStateM.bind x f (past done left), EStateM.bind y g (past done' left) with
    | .ok a r, .ok b r' => S a b ∧ ∃ d d' l, r = past d l ∧ r' = past d' l
    | .error e _, .error e' _ => e = e'
    | _, _ => False
  rw [EStateM.bind, EStateM.bind]
  cases hx : x (past done left) with
  | ok a r =>
    cases hy : y (past done' left) with
    | ok b r' =>
      rw [hx, hy] at hxy
      obtain ⟨hab, d, d', l, rfl, rfl⟩ := hxy
      exact hfg a b hab d d' l
    | error e r' =>
      rw [hx, hy] at hxy
      exact hxy.elim
  | error e r =>
    cases hy : y (past done' left) with
    | ok b r' =>
      rw [hx, hy] at hxy
      exact hxy.elim
    | error e' r' =>
      rw [hx, hy] at hxy
      exact hxy

theorem ite {c c' : Prop} [Decidable c] [Decidable c'] {x x' : Parser α} {y y' : Parser β}
    (hc : c ↔ c') (h : Alike R x y) (h' : Alike R x' y') :
    Alike R (if c then x else x') (if c' then y else y') := by
  by_cases hholds : c
  · rw [if_pos hholds, if_pos (hc.mp hholds)]
    exact h
  · rw [if_neg hholds, if_neg (fun hc' => hholds (hc.mpr hc'))]
    exact h'

theorem wp {x : Parser α} {y : Parser β} (h : Alike R x y) {Q : α → Prop}
    {done left : Bytes} (hx : wp x (fun a _ => Q a) (fun _ _ => False) (past done left))
    (done' : Bytes) :
    Fallible.wp y (fun b _ => ∃ a, Q a ∧ R a b) (fun _ _ => False) (past done' left) := by
  obtain ⟨a, s, hrun, hQ⟩ := ok_of_wp hx
  have hxy := h done done' left
  rw [hrun] at hxy
  rw [Fallible.wp]
  cases hy : y (past done' left) with
  | ok b s' =>
    rw [hy] at hxy
    exact ⟨a, hQ, hxy.1⟩
  | error e s' =>
    rw [hy] at hxy
    exact hxy

end Alike

theorem remaining_over (done left : Bytes) :
    remaining (past done left) = .ok (left.length * 8) (past done left) := by
  obtain ⟨a, s, hrun, rfl, rfl⟩ := ok_of_wp (wp_remaining.mpr ⟨rfl, rfl⟩ :
    wp remaining (fun a s => a = left.length * 8 ∧ s = past done left) (fun _ _ => False)
      (past done left))
  exact hrun

theorem alike_remaining : Alike Eq remaining remaining := by
  intro done done' left
  rw [remaining_over, remaining_over]
  exact ⟨rfl, done, done', left, rfl, rfl⟩

theorem getU8_over_cons (done left : Bytes) (b : UInt8) :
    getU8 (past done (b :: left)) = .ok b (past (done ++ [b]) left) := by
  obtain ⟨a, s, hrun, rfl, rfl⟩ := ok_of_wp (wp_getU8_cons.mpr ⟨rfl, rfl⟩ :
    wp getU8 (fun a s => a = b ∧ s = past (done ++ [b]) left) (fun _ _ => False)
      (past done (b :: left)))
  exact hrun

theorem getU8_over_nil (done : Bytes) :
    getU8 (past done []) = .error (.panic tooFewBits) (past done []) := by
  obtain ⟨e, s, hrun, rfl, rfl⟩ := error_of_wp (wp_getU8_nil.mpr ⟨rfl, rfl⟩ :
    wp getU8 (fun _ _ => False) (fun e s => e = .panic tooFewBits ∧ s = past done [])
      (past done []))
  exact hrun

theorem alike_getU8 : Alike Eq getU8 getU8 := by
  intro done done' left
  cases left with
  | nil =>
    rw [getU8_over_nil, getU8_over_nil]
  | cons b left =>
    rw [getU8_over_cons, getU8_over_cons]
    exact ⟨rfl, done ++ [b], done' ++ [b], left, rfl, rfl⟩

theorem alike_getU16 : Alike Eq getU16 getU16 := by
  refine alike_getU8.bind fun hi hi' hhi => alike_getU8.bind fun lo lo' hlo => ?_
  rw [hhi, hlo]
  exact Alike.pure rfl

end MediaServer.Transport.Payload
