import Mathlib.Data.Int.ModEq
import Mathlib.Tactic.Common

/-!
# `TsRewrite`

`media_utils/src/ts_rewrite.rs`.  The timestamps of a stream go on when its source changes: the
first one of a source is moved to the time of the server's clock, and the others keep their
distance from it.

Signed values are integers, and limits and times are small enough for the casts to 64 signed bits;
the cast of a negative remainder to an unsigned number is where the width shows.

The second comparison with the last timestamp, for the next round, is made when that timestamp has
just been replaced, so rounds are never counted.
-/

namespace MediaServer

inductive TsRewrite.State where
  | firstInit
  | reinit
  | rewriting
deriving DecidableEq, Repr

structure TsRewrite where
  dataRate : Nat
  deltaTs : Int
  lastExtendedTs : Int
  lastRtpTs : Nat
  state : TsRewrite.State
deriving DecidableEq, Repr

namespace TsRewrite

def new (dataRate : Nat) : TsRewrite := ⟨dataRate, 0, 0, 0, .firstInit⟩

def reinit (r : TsRewrite) : TsRewrite := { r with deltaTs := 0, state := .reinit }

/-- `x as u64`. -/
def asU64 (x : Int) : Nat := (x % 2 ^ 64).toNat

/-- `now_ms as i64 * (self.data_rate as i64 / 1000)`. -/
def nowTs (r : TsRewrite) (nowMs : Nat) : Int := nowMs * (r.dataRate / 1000 : Nat)

section

variable (tsLimit tsDeltaReinit : Nat)

/-- What `generate` does behind its match. -/
def emit (r : TsRewrite) (rtpTs : Nat) : Nat × TsRewrite :=
  (asU64 ((r.deltaTs + rtpTs).tmod tsLimit), { r with lastExtendedTs := r.deltaTs + rtpTs })

def generate (r : TsRewrite) (nowMs rtpTs : Nat) : Nat × TsRewrite :=
  match r.state with
  | .firstInit =>
    let nowTs := r.nowTs nowMs
    { r with lastRtpTs := rtpTs, deltaTs := nowTs - rtpTs, state := .rewriting }.emit tsLimit rtpTs
  | .reinit =>
    let nowTs := r.nowTs nowMs
    let nowTs := if nowTs < r.lastExtendedTs then r.lastExtendedTs + tsDeltaReinit else nowTs
    { r with lastRtpTs := rtpTs, deltaTs := nowTs - rtpTs, state := .rewriting }.emit tsLimit rtpTs
  | .rewriting =>
    if r.lastRtpTs + tsLimit / 2 < rtpTs then (asU64 ((r.deltaTs + rtpTs).tmod tsLimit), r)
    else
      let r := { r with lastRtpTs := rtpTs }
      let r := if rtpTs + tsLimit / 2 < r.lastRtpTs then { r with deltaTs := r.deltaTs + tsLimit }
        else r
      r.emit tsLimit rtpTs

/-! ### What the outputs shall be

A source has times that do not wrap around; a packet carries the time on the circle. -/

inductive Call where
  | reinit
  | generate (nowMs : Nat) (time : Int)
deriving Repr

/-- The timestamp of a packet. -/
def wire (time : Int) : Nat := (time % tsLimit).toNat

/-- What has been emitted. -/
structure Emitted where
  /-- The last time of the source with its output. -/
  last : Option (Int × Nat)
  /-- The last output with its rounds. -/
  extended : Int
  /-- The most advanced output with its rounds. -/
  newest : Option Int

def Emitted.none : Emitted := ⟨.none, 0, .none⟩

/-- The next output with its rounds: it moves as the times of the source do. -/
def Emitted.move (emitted : Emitted) (time : Int) (r : TsRewrite) : Int :=
  match emitted.last with
  | some (before, _) => emitted.extended + (time - before)
  | .none => r.lastExtendedTs

def Emitted.note (emitted : Emitted) (time : Int) (output : Nat) (extended : Int) : Emitted :=
  ⟨some (time, output), extended,
    match emitted.newest with
    | some newest => some (max newest extended)
    | .none => some extended⟩

/-- One output is on the circle, keeps the distance from the one before it, and at the start of a
    source is not behind the most advanced one. -/
structure Follows (emitted : Emitted) (time : Int) (output : Nat) (extended : Int) : Prop where
  range : output < tsLimit
  distance : ∀ before output', emitted.last = some (before, output') →
    2 * (time - before) < tsLimit → 2 * (before - time) < tsLimit →
    (output : Int) ≡ output' + (time - before) [ZMOD tsLimit]
  ahead : emitted.last = .none → ∀ newest, emitted.newest = some newest → newest ≤ extended

/-- All outputs of a run do. -/
def Lawful : TsRewrite → Emitted → List Call → Prop
  | _, _, [] => True
  | r, emitted, .reinit :: calls => Lawful r.reinit { emitted with last := .none } calls
  | r, emitted, .generate nowMs time :: calls =>
    let output := (r.generate tsLimit tsDeltaReinit nowMs (wire tsLimit time)).1
    let r' := (r.generate tsLimit tsDeltaReinit nowMs (wire tsLimit time)).2
    let extended := emitted.move time r'
    Follows tsLimit emitted time output extended ∧
      Lawful r' (emitted.note time output extended) calls

/-- Within a source, the offset does not move the timestamp below zero, unless to a multiple of the
    limit.  At the start of one, the most advanced output is not ahead of the clock, or the clock is
    behind the last output and the jump from there is far enough. -/
def Meets (r : TsRewrite) (emitted : Emitted) (nowMs : Nat) (time : Int) : Prop :=
  match r.state with
  | .firstInit => True
  | .reinit => ∀ newest, emitted.newest = some newest →
    newest ≤ r.nowTs nowMs ∨
      r.nowTs nowMs < r.lastExtendedTs ∧ newest ≤ r.lastExtendedTs + tsDeltaReinit
  | .rewriting => 0 ≤ r.deltaTs + wire tsLimit time ∨
    (tsLimit : Int) ∣ r.deltaTs + wire tsLimit time

/-- All calls of a run do. -/
def AllMeet : TsRewrite → Emitted → List Call → Prop
  | _, _, [] => True
  | r, emitted, .reinit :: calls => AllMeet r.reinit { emitted with last := .none } calls
  | r, emitted, .generate nowMs time :: calls =>
    let output := (r.generate tsLimit tsDeltaReinit nowMs (wire tsLimit time)).1
    let r' := (r.generate tsLimit tsDeltaReinit nowMs (wire tsLimit time)).2
    let extended := emitted.move time r'
    Meets tsLimit tsDeltaReinit r emitted nowMs time ∧
      AllMeet r' (emitted.note time output extended) calls

end

variable {tsLimit tsDeltaReinit : Nat} {r : TsRewrite} {emitted : Emitted}

theorem wire_modEq (hpos : 0 < tsLimit) (time : Int) :
    (wire tsLimit time : Int) ≡ time [ZMOD tsLimit] := by
  have hlimit : (tsLimit : Int) ≠ 0 := by omega
  rw [wire, Int.toNat_of_nonneg (Int.emod_nonneg time hlimit)]
  exact Int.mod_modEq time tsLimit

/-- A remainder that is not negative survives the cast. -/
theorem asU64_tmod_of_nonneg (hpos : 0 < tsLimit) (hsmall : tsLimit < 2 ^ 63) {x : Int}
    (h : 0 ≤ x ∨ (tsLimit : Int) ∣ x) :
    asU64 (x.tmod tsLimit) < tsLimit ∧ (asU64 (x.tmod tsLimit) : Int) ≡ x [ZMOD tsLimit] := by
  have hlimit : (0 : Int) < tsLimit := by omega
  have hrange : x.tmod tsLimit = x % tsLimit := by
    rcases h with hx | hdvd
    · exact Int.tmod_eq_emod_of_nonneg hx
    · rw [Int.tmod_eq_zero_of_dvd hdvd, Int.emod_eq_zero_of_dvd hdvd]
  have hlow : 0 ≤ x % tsLimit := Int.emod_nonneg x (by omega)
  have hhigh : x % tsLimit < tsLimit := Int.emod_lt_of_pos x hlimit
  have hcast : (asU64 (x.tmod tsLimit) : Int) = x % tsLimit := by
    rw [hrange, asU64]
    omega
  refine ⟨by omega, ?_⟩
  rw [hcast]
  exact Int.mod_modEq x tsLimit

/-- A negative remainder becomes a huge number. -/
theorem asU64_tmod_of_neg (hpos : 0 < tsLimit) (hsmall : tsLimit < 2 ^ 63) {x : Int} (hneg : x < 0)
    (hdvd : ¬(tsLimit : Int) ∣ x) : tsLimit ≤ asU64 (x.tmod tsLimit) := by
  have hlimit : (0 : Int) < tsLimit := by omega
  have hflip : x.tmod tsLimit = -((-x) % tsLimit) := by
    rw [← Int.tmod_eq_emod_of_nonneg (by omega), Int.neg_tmod, Int.neg_neg]
  have hlow : 0 ≤ (-x) % tsLimit := Int.emod_nonneg (-x) (by omega)
  have hhigh : (-x) % tsLimit < tsLimit := Int.emod_lt_of_pos (-x) hlimit
  have hzero : (-x) % tsLimit ≠ 0 := fun heq =>
    hdvd ((Int.dvd_neg).mp (Int.dvd_of_emod_eq_zero heq))
  rw [hflip, asU64]
  omega

theorem asU64_tmod_lt_iff (hpos : 0 < tsLimit) (hsmall : tsLimit < 2 ^ 63) (x : Int) :
    asU64 (x.tmod tsLimit) < tsLimit ↔ 0 ≤ x ∨ (tsLimit : Int) ∣ x := by
  constructor
  · intro hlt
    by_contra hnot
    have hboth := not_or.mp hnot
    exact absurd (asU64_tmod_of_neg hpos hsmall (by omega) hboth.2) (Nat.not_le_of_lt hlt)
  · intro h
    exact (asU64_tmod_of_nonneg hpos hsmall h).1

/-! ### One output -/

/-- The rewriter within a source, as far as what it emitted tells. -/
structure Moves (tsLimit : Nat) (r : TsRewrite) (emitted : Emitted) : Prop where
  source : r.state = .rewriting ↔ emitted.last.isSome
  first : r.state = .firstInit → emitted.newest = .none
  last : ∀ time output, emitted.last = some (time, output) →
    (output : Int) ≡ r.deltaTs + time [ZMOD tsLimit]

/-- The start of a source. -/
theorem emit_start (hpos : 0 < tsLimit) (hsmall : tsLimit < 2 ^ 63) {start : Int}
    (hstart : 0 ≤ start) (time : Int) {r' : TsRewrite} {output : Nat}
    (hemit : ({ r with
      lastRtpTs := wire tsLimit time
      deltaTs := start - wire tsLimit time
      state := .rewriting } : TsRewrite).emit tsLimit (wire tsLimit time) = (output, r')) :
    output < tsLimit ∧ r'.lastExtendedTs = start ∧ r'.state = .rewriting ∧
      (output : Int) ≡ r'.deltaTs + time [ZMOD tsLimit] := by
  have hsum : start - wire tsLimit time + wire tsLimit time = start := by omega
  cases hemit
  simp only [hsum]
  obtain ⟨hrange, hmod⟩ := asU64_tmod_of_nonneg hpos hsmall (.inl hstart : 0 ≤ start ∨ _)
  refine ⟨hrange, trivial, trivial, hmod.trans ?_⟩
  calc start
      = start - wire tsLimit time + wire tsLimit time := hsum.symm
    _ ≡ start - wire tsLimit time + time [ZMOD tsLimit] :=
        Int.ModEq.add_left _ (wire_modEq hpos time)

/-- Within a source the offset stays, whichever branch is taken. -/
theorem generate_rewriting (hstate : r.state = .rewriting) (nowMs rtpTs : Nat) :
    ∃ r', r.generate tsLimit tsDeltaReinit nowMs rtpTs =
        (asU64 ((r.deltaTs + rtpTs).tmod tsLimit), r') ∧
      r'.deltaTs = r.deltaTs ∧ r'.state = .rewriting := by
  simp only [generate, hstate]
  split
  · exact ⟨r, rfl, rfl, hstate⟩
  · rw [if_neg (by omega)]
    exact ⟨_, rfl, rfl, rfl⟩

/-- **An output follows from those before it exactly when the call meets the condition**, and the
    rewriter goes on with it. -/
theorem Moves.generate (hpos : 0 < tsLimit) (hsmall : tsLimit < 2 ^ 63)
    (h : Moves tsLimit r emitted) (nowMs : Nat) (time : Int) {output : Nat} {r' : TsRewrite}
    (hgenerate : r.generate tsLimit tsDeltaReinit nowMs (wire tsLimit time) = (output, r')) :
    (Follows tsLimit emitted time output (emitted.move time r') ↔
      Meets tsLimit tsDeltaReinit r emitted nowMs time) ∧
    (Meets tsLimit tsDeltaReinit r emitted nowMs time →
      Moves tsLimit r' (emitted.note time output (emitted.move time r'))) := by
  have hnow : 0 ≤ r.nowTs nowMs := Int.mul_nonneg (Int.natCast_nonneg _) (Int.natCast_nonneg _)
  -- behind its first output a source is what the note says
  have hmoves : r'.state = .rewriting → (output : Int) ≡ r'.deltaTs + time [ZMOD tsLimit] →
      Moves tsLimit r' (emitted.note time output (emitted.move time r')) := by
    intro hstate' hmod
    refine ⟨⟨fun _ => rfl, fun _ => hstate'⟩, ?_, ?_⟩
    · intro hfirst
      rw [hstate'] at hfirst
      cases hfirst
    · intro time' output' heq
      cases heq
      exact hmod
  cases hstate : r.state with
  | firstInit =>
    have hnone : emitted.last = .none := by
      rw [← Option.not_isSome_iff_eq_none, ← h.source, hstate]
      intro hcontra
      cases hcontra
    simp only [TsRewrite.generate, hstate] at hgenerate
    obtain ⟨hrange, -, hstate', hmod⟩ := emit_start hpos hsmall hnow time hgenerate
    have hmeets : Meets tsLimit tsDeltaReinit r emitted nowMs time := by
      rw [Meets, hstate]
      trivial
    have hfollows : Follows tsLimit emitted time output (emitted.move time r') := by
      refine ⟨hrange, ?_, ?_⟩
      · intro before output' heq
        rw [hnone] at heq
        cases heq
      · intro _ newest heq
        rw [h.first hstate] at heq
        cases heq
    exact ⟨iff_of_true hfollows hmeets, fun _ => hmoves hstate' hmod⟩
  | reinit =>
    have hnone : emitted.last = .none := by
      rw [← Option.not_isSome_iff_eq_none, ← h.source, hstate]
      intro hcontra
      cases hcontra
    simp only [TsRewrite.generate, hstate] at hgenerate
    have hstart : 0 ≤ (if r.nowTs nowMs < r.lastExtendedTs then
        r.lastExtendedTs + tsDeltaReinit else r.nowTs nowMs) := by
      split
      · omega
      · exact hnow
    obtain ⟨hrange, hextended, hstate', hmod⟩ := emit_start hpos hsmall hstart time hgenerate
    refine ⟨?_, fun _ => hmoves hstate' hmod⟩
    have hmove : emitted.move time r' = if r.nowTs nowMs < r.lastExtendedTs then
        r.lastExtendedTs + tsDeltaReinit else r.nowTs nowMs := by
      rw [Emitted.move, hnone, ← hextended]
    rw [hmove]
    simp only [Meets, hstate]
    constructor
    · intro hfollows newest heq
      have hahead := hfollows.ahead hnone newest heq
      split at hahead
      · rename_i hlt
        exact .inr ⟨hlt, hahead⟩
      · exact .inl hahead
    · intro hmeets
      refine ⟨hrange, ?_, ?_⟩
      · intro before output' heq
        rw [hnone] at heq
        cases heq
      · intro _ newest heq
        have hnewest := hmeets newest heq
        split
        · omega
        · omega
  | rewriting =>
    obtain ⟨r₁, hone, hdelta, hstate'⟩ : ∃ r₁,
        r.generate tsLimit tsDeltaReinit nowMs (wire tsLimit time) =
          (asU64 ((r.deltaTs + (wire tsLimit time : Int)).tmod tsLimit), r₁) ∧
        r₁.deltaTs = r.deltaTs ∧ r₁.state = .rewriting := generate_rewriting hstate nowMs _
    rw [hone] at hgenerate
    cases hgenerate
    have hmeets : Meets tsLimit tsDeltaReinit r emitted nowMs time ↔
        (0 ≤ r.deltaTs + wire tsLimit time ∨ (tsLimit : Int) ∣ r.deltaTs + wire tsLimit time) := by
      simp only [Meets, hstate]
    rw [hmeets, ← asU64_tmod_lt_iff hpos hsmall]
    have hmod (hrange : asU64 ((r.deltaTs + wire tsLimit time).tmod tsLimit) < tsLimit) :
        (asU64 ((r.deltaTs + wire tsLimit time).tmod tsLimit) : Int) ≡
          r.deltaTs + time [ZMOD tsLimit] :=
      (asU64_tmod_of_nonneg hpos hsmall ((asU64_tmod_lt_iff hpos hsmall _).mp hrange)).2.trans
        (Int.ModEq.add_left _ (wire_modEq hpos time))
    refine ⟨⟨fun hfollows => hfollows.range, fun hrange => ⟨hrange, ?_, ?_⟩⟩, ?_⟩
    · intro before output' hlast _ _
      calc (asU64 ((r.deltaTs + wire tsLimit time).tmod tsLimit) : Int)
          ≡ r.deltaTs + time [ZMOD tsLimit] := hmod hrange
        _ = r.deltaTs + before + (time - before) := by omega
        _ ≡ output' + (time - before) [ZMOD tsLimit] :=
            Int.ModEq.add_right _ (h.last before output' hlast).symm
    · intro hnone
      have hsome := h.source.mp hstate
      rw [hnone] at hsome
      cases hsome
    · intro hrange
      refine hmoves hstate' ?_
      rw [hdelta]
      exact hmod hrange

/-- A source that has not begun is in step with anything. -/
theorem moves_reinit (tsLimit : Nat) (r : TsRewrite) (emitted : Emitted) :
    Moves tsLimit r.reinit { emitted with last := .none } := by
  refine ⟨⟨fun hstate => ?_, fun hsome => ?_⟩, fun hstate => ?_, fun time output heq => ?_⟩
  · cases hstate
  · cases hsome
  · cases hstate
  · cases heq

theorem Moves.lawful_iff (hpos : 0 < tsLimit) (hsmall : tsLimit < 2 ^ 63) {calls : List Call}
    (h : Moves tsLimit r emitted) :
    Lawful tsLimit tsDeltaReinit r emitted calls ↔
      AllMeet tsLimit tsDeltaReinit r emitted calls := by
  induction calls generalizing r emitted with
  | nil => exact Iff.rfl
  | cons c calls ih =>
    cases c with
    | reinit => exact ih (moves_reinit tsLimit r emitted)
    | generate nowMs time =>
      have hpair : r.generate tsLimit tsDeltaReinit nowMs (wire tsLimit time) =
          ((r.generate tsLimit tsDeltaReinit nowMs (wire tsLimit time)).1,
            (r.generate tsLimit tsDeltaReinit nowMs (wire tsLimit time)).2) := rfl
      obtain ⟨hone, hnext⟩ := h.generate hpos hsmall nowMs time hpair
      simp only [Lawful, AllMeet]
      constructor
      · rintro ⟨hfollows, hrest⟩
        have hmeets := hone.mp hfollows
        exact ⟨hmeets, (ih (hnext hmeets)).mp hrest⟩
      · rintro ⟨hmeets, hrest⟩
        exact ⟨hone.mpr hmeets, (ih (hnext hmeets)).mpr hrest⟩

end TsRewrite

end MediaServer
