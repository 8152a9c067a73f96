import MediaServer.Lib.TaskGroup
import Mathlib.Algebra.BigOperators.Group.List.Basic
import Mathlib.Algebra.GroupWithZero.Nat
import Mathlib.Algebra.Ring.Int.Defs
import Mathlib.Data.List.Induction

/-!
# The mixer of a recording

`media_record/src/convert/composer/audio_mixer/mixer_buffer.rs`: the audio of several tracks is
mixed into frames of 960 samples.  What a track pushes is added to the first queued frame that is
near in time and has nothing of that track yet; if there is none, a new frame is opened at the end
of the queue.  The front frame is handed out once the queue is too long.

Arithmetic that leaves the range of its type panics.
-/

namespace MediaServer.Record

def frameTsDiffAcceptable : UInt64 := 100
def frameQueueLimit : Nat := 10
def frameSamples : Nat := 960

/-- `ts + FRAME_TS_DIFF_ACCEPTABLE`. -/
def addDiff (ts : UInt64) : Except Panic UInt64 :=
  if ts.toNat + 100 < 2 ^ 64 then .ok (ts + frameTsDiffAcceptable)
  else .error ⟨"attempt to add with overflow"⟩

/-- `cap_i16_cast`. -/
def capI16Cast (v : Int32) : Int16 :=
  if v > Int16.maxValue.toInt32 then Int16.maxValue
  else if v < Int16.minValue.toInt32 then Int16.minValue
  else v.toInt16

/-- A sum and a sample whose sum an `i32` holds. -/
def SampleFits (sum : Int32) (sample : Int16) : Prop :=
  -2 ^ 31 ≤ sum.toInt + sample.toInt ∧ sum.toInt + sample.toInt < 2 ^ 31

instance (sum : Int32) (sample : Int16) : Decidable (SampleFits sum sample) :=
  inferInstanceAs (Decidable (_ ∧ _))

/-- `self.buffer[i] += *sample as i32`. -/
def addSample (sum : Int32) (sample : Int16) : Except Panic Int32 :=
  if SampleFits sum sample then .ok (Int32.ofInt (sum.toInt + sample.toInt))
  else .error ⟨"attempt to add with overflow"⟩

/-- The loop of `put_into` over the samples. -/
def mixInto : List Int32 → List Int16 → Except Panic (List Int32)
  | sums, [] => .ok sums
  | [], _ :: _ => .error ⟨"index out of bounds"⟩
  | sum :: sums, sample :: data => do
      let sum ← addSample sum sample
      let sums ← mixInto sums data
      .ok (sum :: sums)

theorem addSample_eq_ok {sum sum' : Int32} {sample : Int16} (h : addSample sum sample = .ok sum') :
    SampleFits sum sample ∧ sum'.toInt = sum.toInt + sample.toInt := by
  unfold addSample at h
  split at h
  · rename_i hfits
    rw [← Except.ok.inj h]
    exact ⟨hfits, Int32.toInt_ofInt_of_le hfits.1 hfits.2⟩
  · exact nomatch h

/-- A sample of what is pushed; missing ones count nothing. -/
def sampleAt (data : List Int16) (i : Nat) : Int := (data[i]?.map Int16.toInt).getD 0

@[simp] theorem sampleAt_nil (i : Nat) : sampleAt [] i = 0 := rfl

@[simp] theorem sampleAt_cons_zero (sample : Int16) (data : List Int16) :
    sampleAt (sample :: data) 0 = sample.toInt := rfl

@[simp] theorem sampleAt_cons_succ (sample : Int16) (data : List Int16) (i : Nat) :
    sampleAt (sample :: data) (i + 1) = sampleAt data i := rfl

/-- **The loop adds each sample to the sum of its index.** -/
theorem mixInto_eq_ok {sums sums' : List Int32} {data : List Int16}
    (h : mixInto sums data = .ok sums') :
    sums'.length = sums.length ∧
      ∀ i, (sums'[i]?.map Int32.toInt) = (sums[i]?.map fun sum => sum.toInt + sampleAt data i) := by
  induction data generalizing sums sums' with
  | nil =>
    rw [mixInto] at h
    rw [← Except.ok.inj h]
    simp
  | cons sample data ih =>
    cases sums with
    | nil => exact nomatch h
    | cons sum sums =>
      obtain ⟨first, hfirst, h⟩ := Except.bind_eq_ok.mp h
      obtain ⟨rest, hrest, h⟩ := Except.bind_eq_ok.mp h
      obtain ⟨hlength, hsums⟩ := ih hrest
      rw [← Except.ok.inj h]
      refine ⟨congrArg (· + 1) hlength, fun i => ?_⟩
      cases i with
      | zero => simp [(addSample_eq_ok hfirst).2]
      | succ i => simpa using hsums i

/-- The loop goes through exactly when no sum leaves the range of an `i32`. -/
theorem mixInto_ok_iff {sums : List Int32} {data : List Int16} (hlength : data.length ≤ sums.length) :
    (∃ sums', mixInto sums data = .ok sums') ↔
      ∀ pair ∈ sums.zip data, SampleFits pair.1 pair.2 := by
  induction data generalizing sums with
  | nil => exact iff_of_true ⟨sums, by rw [mixInto]⟩ (by simp)
  | cons sample data ih =>
    cases sums with
    | nil => exact absurd hlength (by simp)
    | cons sum sums =>
      have hrest := @ih sums (by simpa using hlength)
      rw [List.zip_cons_cons, List.forall_mem_cons, ← hrest]
      constructor
      · rintro ⟨sums', h⟩
        obtain ⟨first, hfirst, h⟩ := Except.bind_eq_ok.mp h
        obtain ⟨rest, hrest, -⟩ := Except.bind_eq_ok.mp h
        exact ⟨(addSample_eq_ok hfirst).1, rest, hrest⟩
      · rintro ⟨hfits, rest, hrest⟩
        refine ⟨Int32.ofInt (sum.toInt + sample.toInt) :: rest, ?_⟩
        have hfirst : addSample sum sample = .ok (Int32.ofInt (sum.toInt + sample.toInt)) :=
          if_pos hfits
        rw [mixInto, hfirst, hrest]
        rfl

/-! ### Frames -/

variable {TID : Type}

/-- A frame that is being mixed. -/
structure MixedFrame (TID : Type) where
  ts : UInt64
  buffer : List Int32
  tracks : List TID
  size : buffer.length = frameSamples

namespace MixedFrame

def new (ts : UInt64) : MixedFrame TID where
  ts := ts
  buffer := List.replicate frameSamples 0
  tracks := []
  size := List.length_replicate

/-- `self.ts + 100 <= ts || ts + 100 <= self.ts`. -/
def tooFar (frame : MixedFrame TID) (ts : UInt64) : Except Panic Bool := do
  let latest ← addDiff frame.ts
  if latest ≤ ts then .ok true
  else do
    let late ← addDiff ts
    .ok (late ≤ frame.ts)

/-- The frame with the data added, if it takes them. -/
def putInto [DecidableEq TID] (frame : MixedFrame TID) (trackId : TID) (ts : UInt64)
    (data : List Int16) : Except Panic (Option (MixedFrame TID)) :=
  if frame.buffer.length < data.length then .ok none
  else if trackId ∈ frame.tracks then .ok none
  else
    match frame.tooFar ts with
    | .error panic => .error panic
    | .ok true => .ok none
    | .ok false =>
        match h : mixInto frame.buffer data with
        | .error panic => .error panic
        | .ok buffer =>
            .ok (some
              { ts := frame.ts
                buffer := buffer
                tracks := frame.tracks ++ [trackId]
                size := (mixInto_eq_ok h).1.trans frame.size })

/-- What is handed out of a frame. -/
def output (frame : MixedFrame TID) : UInt64 × List Int16 :=
  (frame.ts, frame.buffer.map capI16Cast)

@[simp] theorem output_fst (frame : MixedFrame TID) : frame.output.1 = frame.ts := rfl

end MixedFrame

/-! ### The buffer -/

structure MixerBuffer (TID : Type) where
  frames : List (MixedFrame TID)

namespace MixerBuffer

variable [DecidableEq TID]

def new : MixerBuffer TID := ⟨[]⟩

/-- The loop of `push_data_to_frame`: the index of the first frame that takes the data, and the
    queue with the data in it. -/
def putIntoFirst (ts : UInt64) (trackId : TID) (data : List Int16) :
    List (MixedFrame TID) → Except Panic (Option (Nat × List (MixedFrame TID)))
  | [] => .ok none
  | frame :: rest => do
      let taken ← frame.putInto trackId ts data
      match taken with
      | some frame => .ok (some (0, frame :: rest))
      | none => do
          let found ← putIntoFirst ts trackId data rest
          .ok (found.map fun (i, rest) => (i + 1, frame :: rest))

def frontTs (b : MixerBuffer TID) (ts : UInt64) : UInt64 := (b.frames.head?.map (·.ts)).getD ts

/-- The index of the frame that the data went to, or nothing for data that are rejected. -/
def pushDataToFrame (b : MixerBuffer TID) (ts : UInt64) (trackId : TID) (data : List Int16) :
    Except Panic (Option (Nat × MixerBuffer TID)) := do
  let found ← putIntoFirst ts trackId data b.frames
  match found with
  | some (i, frames) => .ok (some (i, ⟨frames⟩))
  | none =>
      if ts < b.frontTs ts then .ok none
      else do
        let taken ← (MixedFrame.new ts).putInto trackId ts data
        match taken with
        | some frame => .ok (some (b.frames.length, ⟨b.frames ++ [frame]⟩))
        | none => .error ⟨"should add data to new frame"⟩

omit [DecidableEq TID] in
def forcePop (b : MixerBuffer TID) : Option (UInt64 × List Int16) × MixerBuffer TID :=
  match b.frames with
  | [] => (none, b)
  | front :: rest => (some front.output, ⟨rest⟩)

def push (b : MixerBuffer TID) (ts : UInt64) (trackId : TID) (data : List Int16) :
    Except Panic (Option (UInt64 × List Int16) × MixerBuffer TID) := do
  let pushed ← b.pushDataToFrame ts trackId data
  match pushed with
  | none => .ok (none, b)
  | some (_, b) => .ok (if frameQueueLimit < b.frames.length then b.forcePop else (none, b))

end MixerBuffer

/-! ### What a frame takes -/

/-- What one call pushes. -/
structure Push (TID : Type) where
  ts : UInt64
  track : TID
  data : List Int16

/-- Less than 100 ms lie between the times. -/
def Near (a b : UInt64) : Prop := a.toNat < b.toNat + 100 ∧ b.toNat < a.toNat + 100

instance (a b : UInt64) : Decidable (Near a b) := inferInstanceAs (Decidable (_ ∧ _))

/-- The time leaves room for the tolerance. -/
def Room (ts : UInt64) : Prop := ts.toNat + 100 < 2 ^ 64

instance (ts : UInt64) : Decidable (Room ts) := inferInstanceAs (Decidable (_ < _))

namespace MixedFrame

/-- The frame is near in time and has nothing of the track yet. -/
def Takes (frame : MixedFrame TID) (p : Push TID) : Prop :=
  p.track ∉ frame.tracks ∧ Near frame.ts p.ts

instance [DecidableEq TID] (frame : MixedFrame TID) (p : Push TID) : Decidable (frame.Takes p) :=
  inferInstanceAs (Decidable (_ ∧ _))

/-- No sum of the frame leaves the range of an `i32`. -/
def SumsFit (frame : MixedFrame TID) (p : Push TID) : Prop :=
  ∀ pair ∈ frame.buffer.zip p.data, SampleFits pair.1 pair.2

instance (frame : MixedFrame TID) (p : Push TID) : Decidable (frame.SumsFit p) :=
  inferInstanceAs (Decidable (∀ _ ∈ _, _))

/-- The frame became `frame'` by what was pushed. -/
structure Adds (frame : MixedFrame TID) (p : Push TID) (frame' : MixedFrame TID) : Prop where
  room : Room p.ts
  length : p.data.length ≤ frameSamples
  takes : frame.Takes p
  fits : frame.SumsFit p
  ts : frame'.ts = frame.ts
  tracks : frame'.tracks = frame.tracks ++ [p.track]
  sums : ∀ i, frame'.buffer[i]?.map Int32.toInt =
    frame.buffer[i]?.map fun sum => sum.toInt + sampleAt p.data i

theorem addDiff_eq_ok {ts late : UInt64} (h : addDiff ts = .ok late) :
    Room ts ∧ late.toNat = ts.toNat + 100 := by
  unfold addDiff at h
  split at h
  · rename_i hroom
    rw [← Except.ok.inj h, UInt64.toNat_add]
    exact ⟨hroom, Nat.mod_eq_of_lt hroom⟩
  · exact nomatch h

theorem addDiff_of_room {ts : UInt64} (h : Room ts) :
    addDiff ts = .ok (ts + frameTsDiffAcceptable) := if_pos h

theorem toNat_late {ts : UInt64} (h : Room ts) :
    (ts + frameTsDiffAcceptable).toNat = ts.toNat + 100 :=
  (addDiff_eq_ok (addDiff_of_room h)).2

/-- **The tolerance** keeps out what is not near. -/
theorem tooFar_of_room {frame : MixedFrame TID} {ts : UInt64} (h : Room frame.ts) (h' : Room ts) :
    frame.tooFar ts = .ok (!decide (Near frame.ts ts)) := by
  unfold tooFar
  rw [addDiff_of_room h, addDiff_of_room h']
  change (if _ then Except.ok true else Except.ok (decide _)) = _
  split
  · rename_i hlate
    rw [UInt64.le_iff_toNat_le, toNat_late h] at hlate
    have hfar : ¬ Near frame.ts ts := by
      rintro ⟨-, hnear⟩
      omega
    rw [decide_eq_false hfar]
    rfl
  · rename_i hlate
    rw [UInt64.le_iff_toNat_le, toNat_late h] at hlate
    congr 1
    rw [Bool.eq_iff_iff, decide_eq_true_iff, UInt64.le_iff_toNat_le, toNat_late h',
      Bool.not_eq_true', decide_eq_false_iff_not, Near]
    omega

/-- Data are added only at a time that leaves room, so that the comparison goes through. -/
theorem near_of_tooFar {frame : MixedFrame TID} {ts : UInt64} (h : frame.tooFar ts = .ok false) :
    Room frame.ts ∧ Room ts ∧ Near frame.ts ts := by
  obtain ⟨latest, hlatest, hrest⟩ := Except.bind_eq_ok.mp h
  obtain ⟨hroom, htoNat⟩ := addDiff_eq_ok hlatest
  split at hrest
  · exact nomatch hrest
  · rename_i hless
    obtain ⟨late, hlate, hrest⟩ := Except.bind_eq_ok.mp hrest
    obtain ⟨hroom', htoNat'⟩ := addDiff_eq_ok hlate
    have hfar := Except.ok.inj hrest
    rw [decide_eq_false_iff_not, UInt64.le_iff_toNat_le] at hfar
    rw [UInt64.le_iff_toNat_le] at hless
    refine ⟨hroom, hroom', ?_⟩
    unfold Near
    omega

variable [DecidableEq TID]

theorem putInto_eq_some {frame frame' : MixedFrame TID} {p : Push TID}
    (h : frame.putInto p.track p.ts p.data = .ok (some frame')) : frame.Adds p frame' := by
  unfold putInto at h
  split at h
  · exact nomatch h
  · rename_i hlength
    split at h
    · exact nomatch h
    · rename_i htrack
      split at h
      · exact nomatch h
      · exact nomatch h
      · rename_i hnear
        obtain ⟨-, hroom, hnear⟩ := near_of_tooFar hnear
        split at h
        · exact nomatch h
        · rename_i buffer hbuffer
          have hle : p.data.length ≤ frame.buffer.length := Nat.le_of_not_lt hlength
          rw [← Option.some.inj (Except.ok.inj h)]
          exact
            { room := hroom
              length := frame.size ▸ hle
              takes := ⟨htrack, hnear⟩
              fits := (mixInto_ok_iff hle).mp ⟨buffer, hbuffer⟩
              ts := rfl
              tracks := rfl
              sums := (mixInto_eq_ok hbuffer).2 }

/-- A frame does not take what is too long, of a track it has, or far away. -/
theorem putInto_eq_none_iff {frame : MixedFrame TID} {p : Push TID} (hroom : Room frame.ts)
    (hroom' : Room p.ts) : frame.putInto p.track p.ts p.data = .ok none ↔
      ¬ (p.data.length ≤ frameSamples ∧ frame.Takes p) := by
  unfold putInto
  rw [frame.size]
  split
  · rename_i hlength
    exact iff_of_true rfl fun h => absurd h.1 (Nat.not_le_of_lt hlength)
  · rename_i hlength
    split
    · rename_i htrack
      exact iff_of_true rfl fun h => h.2.1 htrack
    · rename_i htrack
      have hfar := tooFar_of_room hroom hroom'
      by_cases hnear : Near frame.ts p.ts
      · rw [decide_eq_true hnear, Bool.not_true] at hfar
        rw [hfar]
        refine iff_of_false ?_ fun h => h ⟨Nat.le_of_not_lt hlength, htrack, hnear⟩
        dsimp only
        split
        · exact fun heq => nomatch heq
        · exact fun heq => nomatch heq
      · rw [decide_eq_false hnear, Bool.not_false] at hfar
        rw [hfar]
        exact iff_of_true rfl fun h => hnear h.2.2

/-- What a frame takes is added when the sums fit. -/
theorem putInto_ok {frame : MixedFrame TID} {p : Push TID} (hroom : Room frame.ts)
    (hroom' : Room p.ts) (hlength : p.data.length ≤ frameSamples) (htakes : frame.Takes p)
    (hfits : frame.SumsFit p) :
    ∃ frame', frame.putInto p.track p.ts p.data = .ok (some frame') := by
  have hle : p.data.length ≤ frame.buffer.length := frame.size ▸ hlength
  obtain ⟨buffer, hbuffer⟩ := (mixInto_ok_iff hle).mpr hfits
  have hfar := tooFar_of_room hroom hroom'
  rw [decide_eq_true htakes.2, Bool.not_true] at hfar
  unfold putInto
  rw [if_neg (Nat.not_lt_of_le hle), if_neg htakes.1, hfar]
  dsimp only
  split
  · rename_i hpanic
    exact nomatch hbuffer.symm.trans hpanic
  · exact ⟨_, rfl⟩

omit [DecidableEq TID] in
/-- Nothing leaves the range in a new frame. -/
theorem sumsFit_new (ts : UInt64) (p : Push TID) : (new ts : MixedFrame TID).SumsFit p := by
  rintro ⟨sum, sample⟩ hmem
  have hsum : sum = 0 := List.eq_of_mem_replicate (List.of_mem_zip hmem).1
  have hle := Int16.le_toInt sample
  have hlt := Int16.toInt_lt sample
  rw [SampleFits, hsum, show (0 : Int32).toInt = 0 from rfl]
  dsimp only at *
  omega

end MixedFrame

end MediaServer.Record
