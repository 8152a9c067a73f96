import MediaServer.Record.MixerBuffer

/-!
# What a mixer hands out

Every push of a session goes to one frame or is rejected, and the frames are handed out in the
order in which they were opened.  That is the order of their times only as long as a new frame is
never opened before one that is queued: the mixer compares a late push with the front of the queue
alone.
-/

namespace MediaServer.Record

variable {TID : Type} [DecidableEq TID]

namespace MixerBuffer

/-- The first frame that takes what is pushed. -/
def taker (b : MixerBuffer TID) (p : Push TID) : Option (MixedFrame TID) :=
  b.frames.find? fun frame => decide (frame.Takes p)

/-- What a push does to the queue. -/
inductive Moves (b : MixerBuffer TID) (p : Push TID) : Option (Nat × MixerBuffer TID) → Prop
  | rejected (hnone : ∀ frame ∈ b.frames, frame.putInto p.track p.ts p.data = .ok none)
      (hold : p.ts < b.frontTs p.ts) : Moves b p none
  | added {i frame frame'} (hget : b.frames[i]? = some frame) (hadds : frame.Adds p frame')
      (hfirst : ∀ earlier ∈ b.frames.take i, earlier.putInto p.track p.ts p.data = .ok none) :
      Moves b p (some (i, ⟨b.frames.set i frame'⟩))
  | opened {frame'} (hnone : ∀ frame ∈ b.frames, frame.putInto p.track p.ts p.data = .ok none)
      (hfront : b.frontTs p.ts ≤ p.ts) (hadds : (MixedFrame.new p.ts).Adds p frame') :
      Moves b p (some (b.frames.length, ⟨b.frames ++ [frame']⟩))

theorem putIntoFirst_eq_ok {frames : List (MixedFrame TID)} {p : Push TID}
    {found : Option (Nat × List (MixedFrame TID))}
    (h : putIntoFirst p.ts p.track p.data frames = .ok found) :
    (found = none ∧ ∀ frame ∈ frames, frame.putInto p.track p.ts p.data = .ok none) ∨
      ∃ i frame frame', frames[i]? = some frame ∧ frame.Adds p frame' ∧
        found = some (i, frames.set i frame') ∧
        ∀ earlier ∈ frames.take i, earlier.putInto p.track p.ts p.data = .ok none := by
  induction frames generalizing found with
  | nil =>
    rw [putIntoFirst] at h
    exact Or.inl ⟨(Except.ok.inj h).symm, fun _ hmem => (nomatch hmem)⟩
  | cons frame rest ih =>
    obtain ⟨taken, htaken, h⟩ := Except.bind_eq_ok.mp h
    cases taken with
    | some frame' =>
      rw [← Except.ok.inj h]
      exact Or.inr ⟨0, frame, frame', rfl, MixedFrame.putInto_eq_some htaken, rfl,
        fun _ hmem => (nomatch hmem)⟩
    | none =>
      obtain ⟨found', hfound', h⟩ := Except.bind_eq_ok.mp h
      rw [← Except.ok.inj h]
      rcases ih hfound' with ⟨rfl, hnone⟩ | ⟨i, taker, frame', hget, hadds, rfl, hfirst⟩
      · exact Or.inl ⟨rfl, List.forall_mem_cons.mpr ⟨htaken, hnone⟩⟩
      · exact Or.inr ⟨i + 1, taker, frame', hget, hadds, rfl,
          List.forall_mem_cons.mpr ⟨htaken, hfirst⟩⟩

theorem pushDataToFrame_moves {b : MixerBuffer TID} {p : Push TID}
    {pushed : Option (Nat × MixerBuffer TID)}
    (h : b.pushDataToFrame p.ts p.track p.data = .ok pushed) : b.Moves p pushed := by
  obtain ⟨found, hfound, h⟩ := Except.bind_eq_ok.mp h
  rcases putIntoFirst_eq_ok hfound with ⟨rfl, hnone⟩ | ⟨i, frame, frame', hget, hadds, rfl, hfirst⟩
  · dsimp only at h
    split at h
    · rename_i hold
      rw [← Except.ok.inj h]
      exact .rejected hnone hold
    · rename_i hfront
      obtain ⟨taken, htaken, h⟩ := Except.bind_eq_ok.mp h
      cases taken with
      | none => exact nomatch h
      | some frame' =>
        rw [← Except.ok.inj h]
        exact .opened hnone (UInt64.not_lt.mp hfront) (MixedFrame.putInto_eq_some htaken)
  · rw [← Except.ok.inj h]
    exact .added hget hadds hfirst

/-- A push hands out the front of a queue that is too long. -/
theorem push_eq_ok {b b' : MixerBuffer TID} {p : Push TID} {out : Option (UInt64 × List Int16)}
    (h : b.push p.ts p.track p.data = .ok (out, b')) :
    (b.pushDataToFrame p.ts p.track p.data = .ok none ∧ out = none ∧ b' = b) ∨
      ∃ i b₁, b.pushDataToFrame p.ts p.track p.data = .ok (some (i, b₁)) ∧
        ((b₁.frames.length ≤ frameQueueLimit ∧ out = none ∧ b' = b₁) ∨
          ∃ front rest, frameQueueLimit < b₁.frames.length ∧ b₁.frames = front :: rest ∧
            out = some front.output ∧ b' = ⟨rest⟩) := by
  obtain ⟨pushed, hpushed, h⟩ := Except.bind_eq_ok.mp h
  cases pushed with
  | none =>
    obtain ⟨rfl, rfl⟩ := Prod.mk.inj (Except.ok.inj h)
    exact Or.inl ⟨hpushed, rfl, rfl⟩
  | some pushed =>
    obtain ⟨i, b₁⟩ := pushed
    have hout := Except.ok.inj h
    refine Or.inr ⟨i, b₁, hpushed, ?_⟩
    split at hout
    · rename_i hlong
      unfold forcePop at hout
      split at hout
      · rename_i hempty
        rw [hempty] at hlong
        exact nomatch hlong
      · rename_i front rest hframes
        obtain ⟨rfl, rfl⟩ := Prod.mk.inj hout
        exact Or.inr ⟨front, rest, hlong, hframes, rfl, rfl⟩
    · rename_i hshort
      obtain ⟨rfl, rfl⟩ := Prod.mk.inj hout
      exact Or.inl ⟨Nat.le_of_not_lt hshort, rfl, rfl⟩

/-- A push goes through whenever its data can be placed. -/
theorem push_ok {b : MixerBuffer TID} {p : Push TID} {pushed : Option (Nat × MixerBuffer TID)}
    (h : b.pushDataToFrame p.ts p.track p.data = .ok pushed) :
    ∃ out b', b.push p.ts p.track p.data = .ok (out, b') := by
  cases pushed with
  | none => exact ⟨none, b, by rw [push, h]; rfl⟩
  | some pushed => exact ⟨_, _, by rw [push, h]; rfl⟩

/-! ### The pushes that go through -/

/-- All frames of the queue were opened at times that leave room. -/
def Roomy (b : MixerBuffer TID) : Prop := ∀ frame ∈ b.frames, Room frame.ts

/-- The condition on a push: its time leaves room for the tolerance; it has at most a frame of
    samples, unless it is older than the front; the sums of the frame that takes it stay in range;
    and a frame that is opened for it is not older than a queued one. -/
structure Orderly (b : MixerBuffer TID) (p : Push TID) : Prop where
  room : Room p.ts
  length : p.data.length ≤ frameSamples ∨ p.ts < b.frontTs p.ts
  sums : p.data.length ≤ frameSamples → ∀ frame ∈ b.taker p, frame.SumsFit p
  order : p.data.length ≤ frameSamples → b.taker p = none → b.frontTs p.ts ≤ p.ts →
    ∀ frame ∈ b.frames, frame.ts ≤ p.ts

omit [DecidableEq TID] in
theorem room_of_lt_frontTs {b : MixerBuffer TID} (h : b.Roomy) {ts : UInt64}
    (hold : ts < b.frontTs ts) : Room ts := by
  unfold frontTs at hold
  rw [UInt64.lt_iff_toNat_lt] at hold
  cases hframes : b.frames with
  | nil =>
    rw [hframes] at hold
    exact absurd hold (Nat.lt_irrefl _)
  | cons front rest =>
    rw [hframes] at hold
    have hroom := h front (hframes ▸ List.mem_cons_self)
    unfold Room at *
    have hless : ts.toNat < front.ts.toNat := hold
    omega

/-- No frame takes what none of them added. -/
theorem taker_eq_none_iff {b : MixerBuffer TID} {p : Push TID} (h : b.Roomy) (hroom : Room p.ts)
    (hlength : p.data.length ≤ frameSamples) :
    b.taker p = none ↔ ∀ frame ∈ b.frames, frame.putInto p.track p.ts p.data = .ok none := by
  rw [taker, List.find?_eq_none]
  refine forall_congr' fun frame => forall_congr' fun hmem => ?_
  rw [MixedFrame.putInto_eq_none_iff (h frame hmem) hroom, decide_eq_true_iff]
  constructor
  · exact fun hnot hboth => hnot hboth.2
  · exact fun hnot htakes => hnot ⟨hlength, htakes⟩

/-- The search goes through when the sums of the frame it finds stay in range. -/
theorem putIntoFirst_ok {frames : List (MixedFrame TID)} {p : Push TID}
    (h : ∀ frame ∈ frames, Room frame.ts) (hroom : Room p.ts)
    (hsums : p.data.length ≤ frameSamples →
      ∀ frame ∈ frames.find? (fun frame => decide (frame.Takes p)), frame.SumsFit p) :
    ∃ found, putIntoFirst p.ts p.track p.data frames = .ok found := by
  induction frames with
  | nil => exact ⟨none, by rw [putIntoFirst]⟩
  | cons frame rest ih =>
    have hfirst := h frame List.mem_cons_self
    by_cases htakes : p.data.length ≤ frameSamples ∧ frame.Takes p
    · have hfits := hsums htakes.1 frame (by simp [htakes.2])
      obtain ⟨frame', hadded⟩ := MixedFrame.putInto_ok hfirst hroom htakes.1 htakes.2 hfits
      exact ⟨some (0, frame' :: rest), by rw [putIntoFirst, hadded]; rfl⟩
    · have hskipped := (MixedFrame.putInto_eq_none_iff hfirst hroom).mpr htakes
      obtain ⟨found, hfound⟩ := ih (fun g hmem => h g (List.mem_cons_of_mem _ hmem)) (by
        intro hlength g hg
        apply hsums hlength
        rw [List.find?_cons_of_neg (by simpa using fun ht => htakes ⟨hlength, ht⟩)]
        exact hg)
      refine ⟨found.map fun placed => (placed.1 + 1, frame :: placed.2), ?_⟩
      rw [putIntoFirst, hskipped]
      change (putIntoFirst p.ts p.track p.data rest >>= _) = _
      rw [hfound]
      rfl

/-- **The pushes that go through.** -/
theorem pushDataToFrame_ok_iff {b : MixerBuffer TID} {p : Push TID} (h : b.Roomy) :
    (∃ pushed, b.pushDataToFrame p.ts p.track p.data = .ok pushed) ↔
      Room p.ts ∧ (p.data.length ≤ frameSamples ∨ p.ts < b.frontTs p.ts) ∧
        (p.data.length ≤ frameSamples → ∀ frame ∈ b.taker p, frame.SumsFit p) := by
  constructor
  · rintro ⟨pushed, hpushed⟩
    cases pushDataToFrame_moves hpushed with
    | rejected hnone hold =>
      have hroom := room_of_lt_frontTs h hold
      refine ⟨hroom, Or.inr hold, fun hlength frame hframe => ?_⟩
      rw [(taker_eq_none_iff h hroom hlength).mpr hnone] at hframe
      exact nomatch hframe
    | @added i frame frame' hget hadds hfirst =>
      refine ⟨hadds.room, Or.inl hadds.length, fun hlength found hfound => ?_⟩
      -- the frame that took the data is the first one that takes them
      have hsplit : b.frames = b.frames.take i ++ frame :: b.frames.drop (i + 1) := by
        obtain ⟨hi, hframe⟩ := List.getElem?_eq_some_iff.mp hget
        rw [← hframe, List.getElem_cons_drop, List.take_append_drop]
      have hearlier : (b.frames.take i).find? (fun frame => decide (frame.Takes p)) = none := by
        refine List.find?_eq_none.mpr fun earlier hmem htakes => ?_
        have hroomy := h earlier (List.mem_of_mem_take hmem)
        exact (MixedFrame.putInto_eq_none_iff hroomy hadds.room).mp (hfirst earlier hmem)
          ⟨hlength, of_decide_eq_true htakes⟩
      have htaker : (frame :: b.frames.drop (i + 1)).find? (fun frame => decide (frame.Takes p)) =
          some frame := List.find?_cons_of_pos (decide_eq_true hadds.takes)
      rw [taker, hsplit, List.find?_append, hearlier, Option.none_or, htaker] at hfound
      rw [← Option.some.inj hfound]
      exact hadds.fits
    | opened hnone hfront hadds =>
      refine ⟨hadds.room, Or.inl hadds.length, fun hlength frame hframe => ?_⟩
      rw [(taker_eq_none_iff h hadds.room hlength).mpr hnone] at hframe
      exact nomatch hframe
  · rintro ⟨hroom, hlength, hsums⟩
    obtain ⟨found, hfound⟩ := putIntoFirst_ok h hroom hsums
    unfold pushDataToFrame
    rw [hfound]
    cases found with
    | some found => exact ⟨_, rfl⟩
    | none =>
      change ∃ pushed, (if p.ts < b.frontTs p.ts then _ else _) = Except.ok pushed
      split
      · exact ⟨none, rfl⟩
      · rename_i hfront
        have hshort := hlength.resolve_right hfront
        have hnear : Near p.ts p.ts := by
          unfold Near
          omega
        have htakes : (MixedFrame.new p.ts).Takes p := ⟨(fun hmem => nomatch hmem), hnear⟩
        obtain ⟨frame', hadded⟩ :=
          MixedFrame.putInto_ok hroom hroom hshort htakes (MixedFrame.sumsFit_new p.ts p)
        rw [hadded]
        exact ⟨_, rfl⟩

end MixerBuffer

/-! ### Sessions -/

/-- A mixer with what it handed out and where each push went: the number of its frame in the order
    in which the frames are opened. -/
structure MixSession (TID : Type) where
  buffer : MixerBuffer TID
  returned : List (UInt64 × List Int16)
  tickets : List (Option Nat)

namespace MixSession

omit [DecidableEq TID] in
def start : MixSession TID := ⟨⟨[]⟩, [], []⟩

/-- The number of the frame that a push goes to, or nothing for one that is rejected. -/
def ticket (s : MixSession TID) (p : Push TID) : Option Nat :=
  match s.buffer.pushDataToFrame p.ts p.track p.data with
  | .ok (some (i, _)) => some (s.returned.length + i)
  | _ => none

def push (s : MixSession TID) (p : Push TID) : Except Panic (MixSession TID) := do
  let (out, buffer) ← s.buffer.push p.ts p.track p.data
  .ok ⟨buffer, s.returned ++ out.toList, s.tickets ++ [s.ticket p]⟩

def pushAll (pushes : List (Push TID)) : Except Panic (MixSession TID) :=
  pushes.foldlM push start

omit [DecidableEq TID] in
/-- `force_pop` as often as there is something to pop, at most `n` times. -/
def forcePops : Nat → MixerBuffer TID → List (UInt64 × List Int16)
  | 0, _ => []
  | n + 1, b =>
      match b.forcePop with
      | (none, _) => []
      | (some out, b) => out :: forcePops n b

omit [DecidableEq TID] in
/-- What the session returns, with the pops at its end. -/
def handedOut (s : MixSession TID) : List (UInt64 × List Int16) :=
  s.returned ++ forcePops s.buffer.frames.length s.buffer

end MixSession

end MediaServer.Record
