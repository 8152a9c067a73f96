import MediaServer.Endpoint.Messages
import MediaServer.Lib.IndexMap

/-!
# Bitrate allocator

`media_core/src/endpoint/internal/bitrate_allocator.rs` and its two halves
`egress.rs` and `ingress.rs`: the estimated bandwidth is divided among the video
tracks in proportion to their priorities.  Setters only mark the allocator as
changed; a tick does the division and queues one action per track.

Sums of priorities and products with a bitrate are taken in `u32` and `u64`.
-/

namespace MediaServer.Endpoint

open Collections

def defaultBitrateBps : UInt64 := 800000
def noTrackBweCurrent : UInt64 := 100000
def noTrackBweDesired : UInt64 := 300000

inductive EgressAction where
  | setBitrate (bitrate : UInt64)
deriving DecidableEq, Repr

inductive IngressAction where
  | setBitrate (bitrate : UInt64)
deriving DecidableEq, Repr

/-- The sum of the priorities of all tracks. -/
def prioritySum {Id : Type} (tracks : IndexMap Id TrackPriority) : TrackPriority :=
  tracks.values.foldl (· + ·) 0

/-- The share of a bitrate that a priority gets. -/
def share (bitrate : UInt64) (priority sum : TrackPriority) : UInt64 :=
  bitrate * priority.toUInt64 / sum.toUInt64

/-! ### Egress -/

inductive EgressOutput where
  | track (track : LocalTrackId) (action : EgressAction)
  | bweConfig (current desired : UInt64)
deriving DecidableEq, Repr

structure EgressBitrateAllocator where
  maxEgressBitrate : UInt64
  changed : Bool
  egressBitrate : UInt64
  tracks : IndexMap LocalTrackId TrackPriority
  queue : List EgressOutput

namespace EgressBitrateAllocator

def new (maxEgressBitrate : UInt64) : EgressBitrateAllocator where
  maxEgressBitrate := maxEgressBitrate
  changed := false
  egressBitrate := defaultBitrateBps
  tracks := ∅
  queue := []

def setEgressEstimate (a : EgressBitrateAllocator) (bitrate : UInt64) :
    EgressBitrateAllocator :=
  { a with egressBitrate := bitrate, changed := true }

def setVideoTrack (a : EgressBitrateAllocator) (track : LocalTrackId)
    (priority : TrackPriority) : EgressBitrateAllocator :=
  { a with tracks := a.tracks.insert track priority, changed := true }

def delVideoTrack (a : EgressBitrateAllocator) (track : LocalTrackId) :
    EgressBitrateAllocator :=
  { a with tracks := a.tracks.swapRemove track, changed := true }

/-- The outputs of one division of the budget. -/
def allocation (a : EgressBitrateAllocator) : List EgressOutput :=
  let useBitrate := min a.egressBitrate a.maxEgressBitrate
  let sum := prioritySum a.tracks
  let tracks :=
    if sum = 0 then []
    else a.tracks.entries.map fun entry =>
      .track entry.1 (.setBitrate (share useBitrate entry.2 sum))
  let bwe :=
    if a.tracks.isEmpty then .bweConfig noTrackBweCurrent noTrackBweDesired
    else .bweConfig useBitrate (min (useBitrate * 6 / 5) a.maxEgressBitrate)
  tracks ++ [bwe]

def process (a : EgressBitrateAllocator) : EgressBitrateAllocator :=
  if a.changed then { a with changed := false, queue := a.queue ++ a.allocation } else a

def onTick (a : EgressBitrateAllocator) : EgressBitrateAllocator := a.process

def popOutput (a : EgressBitrateAllocator) : Option (EgressOutput × EgressBitrateAllocator) :=
  match a.queue with
  | [] => none
  | out :: rest => some (out, { a with queue := rest })

end EgressBitrateAllocator

/-! ### Ingress -/

structure IngressBitrateAllocator where
  changed : Bool
  ingressBitrate : UInt64
  tracks : IndexMap RemoteTrackId TrackPriority
  queue : List (RemoteTrackId × IngressAction)

namespace IngressBitrateAllocator

def new (ingressBitrate : UInt64) : IngressBitrateAllocator where
  changed := false
  ingressBitrate := ingressBitrate
  tracks := ∅
  queue := []

def setVideoTrack (a : IngressBitrateAllocator) (track : RemoteTrackId)
    (priority : TrackPriority) : IngressBitrateAllocator :=
  { a with tracks := a.tracks.insert track priority, changed := true }

def delVideoTrack (a : IngressBitrateAllocator) (track : RemoteTrackId) :
    IngressBitrateAllocator :=
  { a with tracks := a.tracks.swapRemove track, changed := true }

/-- The outputs of one division of the budget. -/
def allocation (a : IngressBitrateAllocator) : List (RemoteTrackId × IngressAction) :=
  let sum := prioritySum a.tracks
  if sum = 0 then []
  else a.tracks.entries.map fun entry =>
    (entry.1, .setBitrate (share a.ingressBitrate entry.2 sum))

def process (a : IngressBitrateAllocator) : IngressBitrateAllocator :=
  if a.changed then { a with changed := false, queue := a.queue ++ a.allocation } else a

def onTick (a : IngressBitrateAllocator) : IngressBitrateAllocator := a.process

def popOutput (a : IngressBitrateAllocator) :
    Option ((RemoteTrackId × IngressAction) × IngressBitrateAllocator) :=
  match a.queue with
  | [] => none
  | out :: rest => some (out, { a with queue := rest })

end IngressBitrateAllocator

/-! ### Both halves -/

inductive AllocatorOutput where
  | remoteTrack (track : RemoteTrackId) (action : IngressAction)
  | localTrack (track : LocalTrackId) (action : EgressAction)
  | bweConfig (current desired : UInt64)
deriving Repr

structure BitrateAllocator where
  egress : EgressBitrateAllocator
  ingress : IngressBitrateAllocator

namespace BitrateAllocator

def new (maxIngressBitrate maxEgressBitrate : UInt64) : BitrateAllocator :=
  ⟨.new maxEgressBitrate, .new maxIngressBitrate⟩

def onTick (a : BitrateAllocator) : BitrateAllocator := ⟨a.egress.onTick, a.ingress.onTick⟩

def setEgressEstimate (a : BitrateAllocator) (bitrate : UInt64) : BitrateAllocator :=
  { a with egress := a.egress.setEgressEstimate bitrate }

def setEgressVideoTrack (a : BitrateAllocator) (track : LocalTrackId)
    (priority : TrackPriority) : BitrateAllocator :=
  { a with egress := a.egress.setVideoTrack track priority }

def delEgressVideoTrack (a : BitrateAllocator) (track : LocalTrackId) : BitrateAllocator :=
  { a with egress := a.egress.delVideoTrack track }

def setIngressVideoTrack (a : BitrateAllocator) (track : RemoteTrackId)
    (priority : TrackPriority) : BitrateAllocator :=
  { a with ingress := a.ingress.setVideoTrack track priority }

def delIngressVideoTrack (a : BitrateAllocator) (track : RemoteTrackId) : BitrateAllocator :=
  { a with ingress := a.ingress.delVideoTrack track }

/-- The egress half is emptied first. -/
def popOutput (a : BitrateAllocator) : Option (AllocatorOutput × BitrateAllocator) :=
  match a.egress.popOutput with
  | some (.track track action, egress) => some (.localTrack track action, { a with egress })
  | some (.bweConfig current desired, egress) =>
      some (.bweConfig current desired, { a with egress })
  | none =>
      match a.ingress.popOutput with
      | some ((track, action), ingress) => some (.remoteTrack track action, { a with ingress })
      | none => none

/-- The tracks that share the bandwidth, in both directions. -/
def shares (a : BitrateAllocator) :
    IndexMap LocalTrackId TrackPriority × IndexMap RemoteTrackId TrackPriority :=
  (a.egress.tracks, a.ingress.tracks)

/-- The outputs that wait to be popped. -/
def pending (a : BitrateAllocator) : Nat := a.egress.queue.length + a.ingress.queue.length

theorem popOutput_eq_none_iff {a : BitrateAllocator} : a.popOutput = none ↔ a.pending = 0 := by
  obtain ⟨⟨_, _, _, _, egress⟩, ⟨_, _, _, ingress⟩⟩ := a
  cases egress with
  | nil =>
    cases ingress with
    | nil => simp [popOutput, pending, EgressBitrateAllocator.popOutput,
        IngressBitrateAllocator.popOutput]
    | cons out rest => simp [popOutput, pending, EgressBitrateAllocator.popOutput,
        IngressBitrateAllocator.popOutput]
  | cons out rest =>
    cases out <;> simp [popOutput, pending, EgressBitrateAllocator.popOutput]

theorem pending_of_popOutput {a a' : BitrateAllocator} {out : AllocatorOutput}
    (h : a.popOutput = some (out, a')) : a.pending = a'.pending + 1 := by
  obtain ⟨⟨_, _, _, _, egress⟩, ⟨_, _, _, ingress⟩⟩ := a
  cases egress with
  | nil =>
    cases ingress with
    | nil => simp [popOutput, EgressBitrateAllocator.popOutput,
        IngressBitrateAllocator.popOutput] at h
    | cons out' rest =>
      simp only [popOutput, EgressBitrateAllocator.popOutput,
        IngressBitrateAllocator.popOutput, Option.some.injEq, Prod.mk.injEq] at h
      obtain ⟨-, rfl⟩ := h
      simp [pending]
  | cons out' rest =>
    cases out' with
    | track track action =>
      simp only [popOutput, EgressBitrateAllocator.popOutput, Option.some.injEq,
        Prod.mk.injEq] at h
      obtain ⟨-, rfl⟩ := h
      simp only [pending, List.length_cons]
      omega
    | bweConfig current desired =>
      simp only [popOutput, EgressBitrateAllocator.popOutput, Option.some.injEq,
        Prod.mk.injEq] at h
      obtain ⟨-, rfl⟩ := h
      simp only [pending, List.length_cons]
      omega

theorem shares_of_popOutput {a a' : BitrateAllocator} {out : AllocatorOutput}
    (h : a.popOutput = some (out, a')) : a'.shares = a.shares := by
  obtain ⟨⟨_, _, _, _, egress⟩, ⟨_, _, _, ingress⟩⟩ := a
  cases egress with
  | nil =>
    cases ingress with
    | nil => cases h
    | cons out' rest =>
      cases h
      rfl
  | cons out' rest =>
    cases out' with
    | track track action =>
      cases h
      rfl
    | bweConfig current desired =>
      cases h
      rfl

/-- A tick divides the bandwidth and keeps the tracks. -/
theorem shares_onTick (a : BitrateAllocator) : a.onTick.shares = a.shares := by
  have hegress : a.egress.process.tracks = a.egress.tracks := by
    unfold EgressBitrateAllocator.process
    split <;> rfl
  have hingress : a.ingress.process.tracks = a.ingress.tracks := by
    unfold IngressBitrateAllocator.process
    split <;> rfl
  exact Prod.ext hegress hingress

end BitrateAllocator

end MediaServer.Endpoint
