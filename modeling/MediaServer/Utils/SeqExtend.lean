import MediaServer.Lib.TaskGroup
import Mathlib.Algebra.Group.Int.Defs

/-!
# `RtpSeqExtend`

`media_utils/src/seq_extend.rs`.  The sequence numbers of a sender have 16 bits on the wire and
wrap around; the extender gives each of them the number of rounds before it, so that the server
can count on.  Packets may be lost, and may come late.

The extender keeps the last number as its reference.  A late number of the same round moves the
reference back, a late number of the round before does not, so the reference is not the newest
number; what holds is that it is less than a quarter of a round behind it.

The rounds are a natural number: the 64 bits of the source are full after `2 ^ 48` of them.
-/

namespace MediaServer

/-- A subtraction of the source, which must not overflow. -/
def checkedSub (a b : Nat) : Except Panic Nat :=
  if b ≤ a then .ok (a - b) else .error ⟨"attempt to subtract with overflow"⟩

theorem checkedSub_eq_ok {a b : Nat} (h : b ≤ a) : checkedSub a b = .ok (a - b) := if_pos h

structure RtpSeqExtend where
  lastSeq : Option UInt16
  seqDelta : Nat
deriving Repr

namespace RtpSeqExtend

def RTP_SEQ_CYCLE : Nat := 2 ^ 16

def RTP_SEQ_HAFT_CYCLE : Nat := 2 ^ 15

/-- `RtpSeqExtend::default()`. -/
def new : RtpSeqExtend := ⟨none, 0⟩

/-- `a > b && a - b > RTP_SEQ_HAFT_CYCLE`: the subtraction is only made behind the comparison. -/
def farAbove (a b : UInt16) : Except Panic Bool :=
  if b < a then do
    let distance ← checkedSub a.toNat b.toNat
    return RTP_SEQ_HAFT_CYCLE < distance
  else return false

def generate (r : RtpSeqExtend) (value : UInt16) : Except Panic (Option Nat × RtpSeqExtend) :=
  match r.lastSeq with
  | some lastSeq => do
    if ← farAbove value lastSeq then
      if RTP_SEQ_CYCLE < value.toNat + r.seqDelta then
        let extended ← checkedSub (value.toNat + r.seqDelta) RTP_SEQ_CYCLE
        return (some extended, r)
      else return (none, r)
    else
      let seqDelta := if ← farAbove lastSeq value then r.seqDelta + RTP_SEQ_CYCLE else r.seqDelta
      return (some (value.toNat + seqDelta), ⟨some value, seqDelta⟩)
  | none => return (some value.toNat, { r with lastSeq := some value })

/-- The results for the numbers of a stream, one after another. -/
def generateAll : RtpSeqExtend → List UInt16 → Except Panic (List (Option Nat))
  | _, [] => .ok []
  | r, value :: values => do
    let (extended, r) ← r.generate value
    let rest ← generateAll r values
    return extended :: rest

/-! ### The numbers of a sender -/

/-- Each number is less than a quarter of a round away from the newest one before it. -/
def Near (newest : Int) : List Int → Prop
  | [] => True
  | number :: numbers =>
    newest < number + 2 ^ 14 ∧ number < newest + 2 ^ 14 ∧ Near (max newest number) numbers

/-- What a receiver may see of a sender that starts in the first round. -/
def Received : List Int → Prop
  | [] => True
  | first :: numbers => 0 ≤ first ∧ first < 2 ^ 16 ∧ Near first numbers

/-- The number itself, unless it is before the first round. -/
def original (number : Int) : Option Nat := if 0 ≤ number then some number.toNat else none

/-- The reference is a number of the sender that is not far behind the newest one. -/
structure Follows (r : RtpSeqExtend) (newest : Int) : Prop where
  lastSeq : ∃ last, r.lastSeq = some last ∧ (last.toNat + r.seqDelta : Int) ≤ newest ∧
    newest < last.toNat + r.seqDelta + 2 ^ 14
  rounds : r.seqDelta % 2 ^ 16 = 0

theorem farAbove_eq (a b : UInt16) :
    farAbove a b = .ok (decide (b.toNat + 2 ^ 15 < a.toNat)) := by
  unfold farAbove
  split
  · rename_i hlt
    have hle : b.toNat ≤ a.toNat := Nat.le_of_lt (UInt16.lt_iff_toNat_lt.mp hlt)
    have hiff : RTP_SEQ_HAFT_CYCLE < a.toNat - b.toNat ↔ b.toNat + 2 ^ 15 < a.toNat := by
      rw [RTP_SEQ_HAFT_CYCLE]
      omega
    simp only [checkedSub_eq_ok hle, hiff, bind, Except.bind, pure, Except.pure]
  · rename_i hnot
    have hle : a.toNat ≤ b.toNat := UInt16.not_lt.mp hnot
    simp only [pure, Except.pure, Except.ok.injEq, Bool.false_eq, decide_eq_false_iff_not]
    omega

/-- What `generate` does behind its first number, with the comparisons of 16-bit numbers read off. -/
theorem generate_some {r : RtpSeqExtend} {last value : UInt16} (hlast : r.lastSeq = some last) :
    r.generate value =
      if last.toNat + 2 ^ 15 < value.toNat then
        .ok (if RTP_SEQ_CYCLE < value.toNat + r.seqDelta then
          some (value.toNat + r.seqDelta - RTP_SEQ_CYCLE) else none, r)
      else
        let seqDelta := if value.toNat + 2 ^ 15 < last.toNat then r.seqDelta + RTP_SEQ_CYCLE
          else r.seqDelta
        .ok (some (value.toNat + seqDelta), ⟨some value, seqDelta⟩) := by
  simp only [generate, hlast, farAbove_eq, bind, Except.bind, pure, Except.pure]
  split
  · rename_i hfar
    rw [if_pos (of_decide_eq_true hfar)]
    by_cases hover : RTP_SEQ_CYCLE < value.toNat + r.seqDelta
    · rw [if_pos hover, if_pos hover, checkedSub_eq_ok (Nat.le_of_lt hover)]
    · rw [if_neg hover, if_neg hover]
  · rename_i hnear
    rw [if_neg (fun h => hnear (decide_eq_true h))]
    simp only [decide_eq_true_eq]

theorem toNat_ofInt (number : Int) :
    ((UInt16.ofInt number).toNat : Int) = number % 2 ^ 16 := by
  rw [UInt16.ofInt, UInt16.toNat_ofNat']
  omega

/-- A number near the newest one is found again, and the reference follows. -/
theorem Follows.generate {r : RtpSeqExtend} {newest number : Int} (h : r.Follows newest)
    (hpos : 0 ≤ newest)
    (hlate : newest < number + 2 ^ 14) (hahead : number < newest + 2 ^ 14) :
    ∃ r', r.generate (UInt16.ofInt number) = .ok (original number, r') ∧
      r'.Follows (max newest number) := by
  obtain ⟨⟨last, hlast, hle, hlt⟩, hrounds⟩ := h
  have hvalue := toNat_ofInt number
  have hsmall := (UInt16.ofInt number).toNat_lt
  have hlastSmall := last.toNat_lt
  have hcycle : RTP_SEQ_CYCLE = 2 ^ 16 := rfl
  rw [generate_some hlast]
  simp only [original]
  by_cases hback : last.toNat + 2 ^ 15 < (UInt16.ofInt number).toNat
  · -- a number of the round before leaves the reference where it is
    rw [if_pos hback]
    refine ⟨r, ?_, ⟨last, hlast, by omega, by omega⟩, hrounds⟩
    by_cases hfirst : r.seqDelta = 0
    · rw [if_neg (by omega), if_neg (by omega)]
    · rw [if_pos (by omega), if_pos (by omega)]
      simp only [Except.ok.injEq, Prod.mk.injEq, Option.some.injEq, and_true]
      omega
  · rw [if_neg hback]
    by_cases hnext : (UInt16.ofInt number).toNat + 2 ^ 15 < last.toNat
    · -- the first number of the next round
      simp only [if_pos hnext]
      refine ⟨⟨some (UInt16.ofInt number), r.seqDelta + RTP_SEQ_CYCLE⟩, ?_, ⟨_, rfl, ?_, ?_⟩, ?_⟩
      · rw [if_pos (by omega)]
        simp only [Except.ok.injEq, Prod.mk.injEq, Option.some.injEq, and_true]
        omega
      · push_cast
        omega
      · push_cast
        omega
      · simp only [hcycle]
        omega
    · -- a number of this round, late or not, becomes the reference
      simp only [if_neg hnext]
      refine ⟨⟨some (UInt16.ofInt number), r.seqDelta⟩, ?_, ⟨_, rfl, ?_, ?_⟩, hrounds⟩
      · rw [if_pos (by omega)]
        simp only [Except.ok.injEq, Prod.mk.injEq, Option.some.injEq, and_true]
        omega
      · dsimp only
        omega
      · dsimp only
        omega

theorem Follows.generateAll {r : RtpSeqExtend} {newest : Int} {numbers : List Int}
    (h : r.Follows newest) (hpos : 0 ≤ newest) (hnear : Near newest numbers) :
    r.generateAll (numbers.map UInt16.ofInt) = .ok (numbers.map original) := by
  induction numbers generalizing r newest with
  | nil => rfl
  | cons number numbers ih =>
    obtain ⟨hlate, hahead, hrest⟩ := hnear
    obtain ⟨r', hgenerate, hfollows⟩ := h.generate hpos hlate hahead
    have hlast := ih hfollows (Int.le_trans hpos (Int.le_max_left ..)) hrest
    simp only [List.map_cons, RtpSeqExtend.generateAll, hgenerate, hlast, bind, Except.bind, pure,
      Except.pure]

/-- **The numbers of the sender are reconstructed**, whatever is lost or comes late, and no
    subtraction overflows. -/
theorem generateAll_reconstructs (numbers : List Int) (h : Received numbers) :
    new.generateAll (numbers.map UInt16.ofInt) = .ok (numbers.map original) := by
  cases numbers with
  | nil => rfl
  | cons first numbers =>
    obtain ⟨hpos, hround, hnear⟩ := h
    have hvalue := toNat_ofInt first
    have hsame : ((UInt16.ofInt first).toNat : Int) = first := by omega
    have hfollows : Follows ⟨some (UInt16.ofInt first), 0⟩ first :=
      ⟨⟨_, rfl, by simp only [hsame]; omega, by simp only [hsame]; omega⟩, rfl⟩
    have hrest := hfollows.generateAll hpos hnear
    have hfirst : original first = some (UInt16.ofInt first).toNat := by
      rw [original, if_pos hpos]
      congr 1
      omega
    simp only [List.map_cons, RtpSeqExtend.generateAll, generate, new, hfirst, bind, Except.bind,
      pure, Except.pure]
    rw [hrest]

/-- A wrap-around with a packet of the round before behind it. -/
theorem generateAll_reconstructs_wrapped :
    new.generateAll ([2, -1, 16000, 32000, 48000, 64000, 65537, 65535, 65540].map UInt16.ofInt) =
      .ok [some 2, none, some 16000, some 32000, some 48000, some 64000, some 65537, some 65535,
        some 65540] :=
  generateAll_reconstructs [2, -1, 16000, 32000, 48000, 64000, 65537, 65535, 65540]
    (by simp only [Received, Near]; decide)

end RtpSeqExtend

end MediaServer
