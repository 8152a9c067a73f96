import MediaServer.Lib.Serial
import MediaServer.Lib.SortedSet
import MediaServer.Lib.TaskGroup

/-!
# `SeqRewrite`

`media_utils/src/seq_rewrite.rs`.  A receiver shall see one stream of numbers, whatever the
sources behind it are and whatever is left out of them.  The rewriter maps the numbers of the
source to those of the stream; both wrap around at `max`.  It is told of each number that is taken
(`generate`) or left out (`dropValue`), and after `reinit` the next number of either kind is that
of a new source.

The numbers that were left out are a sorted set of extended numbers, which do not wrap around.
When it grows over a thousand, the smallest of them move into the base.

An assertion that fails is a panic.  The extended numbers are natural numbers: the 64 bits of the
source are enough for `2 ^ 48` rounds of 16-bit numbers.
-/

namespace MediaServer

open Collections Serial

/-- `assert!`. -/
def require (holds : Prop) [Decidable holds] (msg : String) : Except Panic Unit :=
  if holds then .ok () else .error ⟨msg⟩

theorem require_eq_ok {holds : Prop} [Decidable holds] {msg : String} (h : holds) :
    require holds msg = .ok () := if_pos h

structure SeqRewrite where
  base : Nat
  maxOutput : Nat
  maxInput : Nat
  seqDelta : Nat
  dropped : SortedSet Nat
  reinit : Bool
  reinitOffset : Option Nat
deriving DecidableEq

namespace SeqRewrite

/-- `SeqRewrite::default()`. -/
def new : SeqRewrite := ⟨0, 0, 0, 0, ∅, false, none⟩

/-- `SeqRewrite::reinit`, which sets the field of that name. -/
def callReinit (r : SeqRewrite) : SeqRewrite := { r with reinit := true }

/-- How many dropped numbers are kept. -/
def droppedMax : Nat := 1000

section

variable (max : Nat)

def wrappingSub (v1 v2 : Nat) : Except Panic Nat := do
  require (v1 < max) s!"{v1} should < MAX {max}"
  require (v2 < max) s!"{v2} should < MAX {max}"
  return ahead max v1 v2

def wrappingAdd (v1 v2 : Nat) : Nat := (v1 + v2) % max

def offset (r : SeqRewrite) (offset : Nat) : SeqRewrite :=
  if r.reinit then { r with reinitOffset := some (r.reinitOffset.getD 0 + offset) }
  else { r with base := wrappingAdd max r.base offset }

def sync (r : SeqRewrite) (value : Nat) : Except Panic SeqRewrite := do
  require (value < max) s!"{value} should < MAX {max}"
  let base ← wrappingSub max r.maxOutput value
  return { r with base, maxInput := value, seqDelta := 0, dropped := ∅ }

/-- The block with which both `drop_value` and `generate` begin: the first number of a new
    source. -/
def start (r : SeqRewrite) (input : Nat) : Except Panic SeqRewrite := do
  if r.reinit then
    let r := { r with reinit := false }
    let value ← wrappingSub max input 1
    let r ← r.sync max value
    match r.reinitOffset with
    | some reinitOffset => return { r with reinitOffset := none }.offset max reinitOffset
    | none => return r
  else return r

/-- The extended number, and the rewriter, which may have counted a round. -/
def extendedSeq (r : SeqRewrite) (value : Nat) : Except Panic (Nat × SeqRewrite) := do
  require (value < max) s!"{value} should < MAX {max}"
  let r := if value < r.maxInput ∧ r.maxInput - value > max / 2 then
    { r with seqDelta := r.seqDelta + max } else r
  return (r.seqDelta + value, r)

def isSeqHigherThan (lhs rhs : Nat) : Bool :=
  (lhs > rhs && lhs - rhs ≤ max / 2) || (rhs > lhs && rhs - lhs > max / 2)

def dropValue (r : SeqRewrite) (input : Nat) : Except Panic SeqRewrite := do
  require (input < max) s!"{input} should < MAX {max}"
  let r ← r.start max input
  let (extendedInput, r) ← r.extendedSeq max input
  let r := if isSeqHigherThan max input r.maxInput then
    { r with dropped := r.dropped.insert extendedInput } else r
  if r.dropped.size > droppedMax then
    let deleteSize := r.dropped.size - droppedMax
    let base ← wrappingSub max r.base deleteSize
    return { r with dropped := r.dropped.dropFirst deleteSize, base }
  else return r

/-- The base with the dropped numbers before the input taken off. -/
def baseBefore (r : SeqRewrite) (extendedInput : Nat) : Except Panic Nat :=
  if r.dropped.size = 0 then .ok r.base
  else wrappingSub max r.base (r.dropped.rank extendedInput)

def generate (r : SeqRewrite) (input : Nat) : Except Panic (Option Nat × SeqRewrite) := do
  require (input < max) s!"{input} should < MAX {max}"
  let r ← r.start max input
  let (extendedInput, r) ← r.extendedSeq max input
  if extendedInput ∈ r.dropped then return (none, r)
  else
    let base ← r.baseBefore max extendedInput
    let output := wrappingAdd max input base
    let idelta ← wrappingSub max input r.maxInput
    let odelta ← wrappingSub max output r.maxOutput
    let r := if idelta < max / 2 then { r with maxInput := input } else r
    let r := if odelta < max / 2 then { r with maxOutput := output } else r
    return (some output, r)

/-! ### Runs -/

inductive Call where
  | reinit
  | offset (amount : Nat)
  | dropValue (input : Nat)
  | generate (input : Nat)
deriving DecidableEq, Repr

/-- A call, with what it returns; only `generate` returns something. -/
def call (r : SeqRewrite) : Call → Except Panic (Option Nat × SeqRewrite)
  | .reinit => .ok (none, r.callReinit)
  | .offset amount => .ok (none, r.offset max amount)
  | .dropValue input => do
    let r ← r.dropValue max input
    return (none, r)
  | .generate input => r.generate max input

/-- The calls of a run with their results. -/
abbrev Trace := List (Call × Option Nat)

def run (r : SeqRewrite) : List Call → Except Panic (Trace × SeqRewrite)
  | [] => .ok ([], r)
  | c :: calls => do
    let (result, r) ← r.call max c
    let (trace, r) ← r.run calls
    return ((c, result) :: trace, r)

end

/-! ### Equations of the operations

With the assertions discharged. -/

variable {max : Nat} {r : SeqRewrite}

theorem wrappingSub_eq_ok {v1 v2 : Nat} (h1 : v1 < max) (h2 : v2 < max) :
    wrappingSub max v1 v2 = .ok (ahead max v1 v2) := by
  simp only [wrappingSub, require_eq_ok h1, require_eq_ok h2, bind, Except.bind, pure, Except.pure]

/-- The rewriter as it is when a new source begins after the number `value`. -/
def synced (max : Nat) (r : SeqRewrite) (value : Nat) : SeqRewrite :=
  { r with
    base := wrappingAdd max (ahead max r.maxOutput value) (r.reinitOffset.getD 0)
    maxInput := value, seqDelta := 0, dropped := ∅, reinit := false, reinitOffset := none }

theorem start_of_reinit {input : Nat} (hreinit : r.reinit = true) (hmax : r.maxOutput < max)
    (hone : 1 < max) (hinput : input < max) :
    r.start max input = .ok (r.synced max (ahead max input 1)) := by
  have hvalue : ahead max input 1 < max := ahead_lt hinput hone
  have hbase : ahead max r.maxOutput (ahead max input 1) < max := ahead_lt hmax hvalue
  simp only [start, hreinit, if_true, wrappingSub_eq_ok hinput hone, sync, require_eq_ok hvalue,
    wrappingSub_eq_ok hmax hvalue, bind, Except.bind, pure, Except.pure]
  cases hoffset : r.reinitOffset with
  | none => simp [synced, hoffset, wrappingAdd, Nat.mod_eq_of_lt hbase]
  | some amount => simp [synced, hoffset, offset]

theorem start_of_not_reinit {input : Nat} (hreinit : r.reinit = false) :
    r.start max input = .ok r := by
  simp only [start, hreinit, Bool.false_eq_true, if_false, pure, Except.pure]

/-- The rounds that an extended number has before it. -/
def rounds (max : Nat) (r : SeqRewrite) (value : Nat) : Nat :=
  if value < r.maxInput ∧ r.maxInput - value > max / 2 then r.seqDelta + max else r.seqDelta

theorem extendedSeq_eq_ok {value : Nat} (h : value < max) :
    r.extendedSeq max value =
      .ok (r.rounds max value + value, { r with seqDelta := r.rounds max value }) := by
  simp only [extendedSeq, require_eq_ok h, rounds, bind, Except.bind, pure, Except.pure]
  split
  · rfl
  · rfl

theorem baseBefore_eq_ok {extended : Nat} (hbase : r.base < max)
    (hrank : r.dropped.rank extended < max) :
    r.baseBefore max extended = .ok (ahead max r.base (r.dropped.rank extended)) := by
  unfold baseBefore
  split
  · rename_i hzero
    have hnone : r.dropped.rank extended = 0 :=
      Nat.le_zero.mp (hzero ▸ r.dropped.rank_le_size extended)
    rw [hnone]
    rfl
  · exact wrappingSub_eq_ok hbase hrank

/-- A number that is taken, behind the start of its source. -/
theorem generate_eq_ok {input : Nat} (hinput : input < max) (hreinit : r.reinit = false)
    (hbase : r.base < max) (hin : r.maxInput < max) (hout : r.maxOutput < max)
    (hrank : r.dropped.rank (r.rounds max input + input) < max)
    (hfresh : r.rounds max input + input ∉ r.dropped) :
    ∃ output, output < max ∧
      output + r.dropped.rank (r.rounds max input + input) ≡ input + r.base [MOD max] ∧
      r.generate max input = .ok (some output,
        { r with
          seqDelta := r.rounds max input
          maxInput := later max r.maxInput input
          maxOutput := later max r.maxOutput output }) := by
  have hpos : 0 < max := Nat.zero_lt_of_lt hinput
  refine ⟨wrappingAdd max input
    (ahead max r.base (r.dropped.rank (r.rounds max input + input))), Nat.mod_lt _ hpos, ?_, ?_⟩
  · calc wrappingAdd max input (ahead max r.base (r.dropped.rank (r.rounds max input + input))) +
          r.dropped.rank (r.rounds max input + input)
        ≡ input + ahead max r.base (r.dropped.rank (r.rounds max input + input)) +
          r.dropped.rank (r.rounds max input + input) [MOD max] :=
          Nat.ModEq.add_right _ (Nat.mod_modEq _ _)
      _ ≡ input + r.base [MOD max] := by
          rw [Nat.add_assoc, Nat.add_comm (ahead _ _ _)]
          exact Nat.ModEq.add_left _ (add_ahead hrank)
  · have houtput : wrappingAdd max input
        (ahead max r.base (r.dropped.rank (r.rounds max input + input))) < max :=
      Nat.mod_lt _ hpos
    have hbefore : { r with seqDelta := r.rounds max input }.baseBefore max
        (r.rounds max input + input) =
        .ok (ahead max r.base (r.dropped.rank (r.rounds max input + input))) :=
      baseBefore_eq_ok hbase hrank
    simp only [generate, require_eq_ok hinput, start_of_not_reinit hreinit,
      extendedSeq_eq_ok hinput, hfresh, if_false, hbefore, wrappingSub_eq_ok hinput hin,
      wrappingSub_eq_ok houtput hout, bind, Except.bind, pure, Except.pure, later]
    split
    · split
      · rfl
      · rfl
    · split
      · rfl
      · rfl

/-- A number that is not behind the newest one and was left out, behind the start of its source. -/
theorem generate_eq_none {input : Nat} (hinput : input < max) (hreinit : r.reinit = false)
    (hdropped : r.rounds max input + input ∈ r.dropped) :
    r.generate max input = .ok (none, { r with seqDelta := r.rounds max input }) := by
  simp only [generate, require_eq_ok hinput, start_of_not_reinit hreinit,
    extendedSeq_eq_ok hinput, hdropped, if_true, bind, Except.bind, pure, Except.pure]

/-- The set of dropped numbers with one more, cut to its size, and the base that goes with it. -/
def afterDrop (max : Nat) (r : SeqRewrite) (extended : Nat) : SeqRewrite :=
  if (r.dropped.insert extended).size > droppedMax then
    { r with
      dropped := (r.dropped.insert extended).dropFirst
        ((r.dropped.insert extended).size - droppedMax)
      base := ahead max r.base ((r.dropped.insert extended).size - droppedMax) }
  else { r with dropped := r.dropped.insert extended }

theorem dropValue_eq_ok {input : Nat} (hinput : input < max) (hreinit : r.reinit = false)
    (hbase : r.base < max) (hhigher : isSeqHigherThan max input r.maxInput = true)
    (hsize : (r.dropped.insert (r.rounds max input + input)).size - droppedMax < max) :
    r.dropValue max input =
      .ok ({ r with seqDelta := r.rounds max input }.afterDrop max
        (r.rounds max input + input)) := by
  simp only [dropValue, require_eq_ok hinput, start_of_not_reinit hreinit,
    extendedSeq_eq_ok hinput, hhigher, if_true, wrappingSub_eq_ok hbase hsize, bind, Except.bind,
    pure, Except.pure, afterDrop]
  split
  · rfl
  · rfl

/-- After `reinit` the rewriter does with a number what it does once it is in step with it. -/
theorem generate_of_reinit {input : Nat} (hreinit : r.reinit = true) (hmax : r.maxOutput < max)
    (hone : 1 < max) (hinput : input < max) :
    r.generate max input = (r.synced max (ahead max input 1)).generate max input := by
  have hnot : (r.synced max (ahead max input 1)).reinit = false := rfl
  simp only [generate, start_of_reinit hreinit hmax hone hinput, start_of_not_reinit hnot]

theorem dropValue_of_reinit {input : Nat} (hreinit : r.reinit = true) (hmax : r.maxOutput < max)
    (hone : 1 < max) (hinput : input < max) :
    r.dropValue max input = (r.synced max (ahead max input 1)).dropValue max input := by
  have hnot : (r.synced max (ahead max input 1)).reinit = false := rfl
  simp only [dropValue, start_of_reinit hreinit hmax hone hinput, start_of_not_reinit hnot]

end SeqRewrite

end MediaServer
