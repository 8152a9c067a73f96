import MediaServer.AudioMixer
import MediaServer.Cluster.MediaTrack.Publisher

/-!
# Publisher of the room's audio mixer

`media_core/src/cluster/room/audio_mixer/publisher.rs`.  Every audio track of a node
is a source of one mixer with three outputs; what the mixer forwards is put on the
mixer channel of the room.  A packet names its output slot and carries the identity
of its speaker only when the speaker has just taken the slot, and once in a while.

`slots` has an entry for every occupied output of the mixer, no more and no less;
under `Sound` the publisher panics only on calls for tracks it should not have been
given.
-/

namespace MediaServer.RoomMixer

open Collections Slots Machine Pubsub

abbrev Output := MediaTrack.Output

/-- What a node puts on the mixer channel. -/
structure AudioMixerPkt where
  slot : UInt8
  peer : PeerHashCode
  track : RemoteTrackId
  audioLevel : Option Int8
  source : Option (PeerId × TrackName)
  ts : UInt32
  seq : UInt16
  opusPayload : Bytes

/-- `FIRE_SOURCE_INTERVAL`: half a second. -/
def fireSourceInterval : Nat := 500000000

structure TrackSlot where
  peer : PeerId
  name : TrackName
  peerHash : PeerHashCode

/-- An occupied slot and when the identity of its speaker was last sent. -/
structure OutputSlot where
  lastFiredSource : Instant

structure AudioMixerPublisher (Endpoint Feedback : Type) where
  channelId : ChannelId
  tracks : IndexMap (Endpoint × RemoteTrackId) TrackSlot
  mixer : AudioMixer (Endpoint × RemoteTrackId)
  slots : List (Option OutputSlot)
  queue : List (Output Endpoint Feedback)

variable {Endpoint Feedback Src : Type}

namespace AudioMixerPublisher

def new (channelId : ChannelId) : AudioMixerPublisher Endpoint Feedback :=
  ⟨channelId, ∅, AudioMixer.new 3, [none, none, none], []⟩

def isEmpty (p : AudioMixerPublisher Endpoint Feedback) : Bool :=
  p.queue.isEmpty && p.tracks.isEmpty

def push (p : AudioMixerPublisher Endpoint Feedback) (outputs : List (Output Endpoint Feedback)) :
    AudioMixerPublisher Endpoint Feedback :=
  { p with queue := p.queue ++ outputs }

def onTick (p : AudioMixerPublisher Endpoint Feedback) (now : Instant) :
    Except Panic (AudioMixerPublisher Endpoint Feedback) := do
  let (mixer, removed) ← p.mixer.onTick now
  let slots ← clearSlots (removed.getD []) p.slots
  .ok { p with mixer, slots }

variable [DecidableEq Endpoint]

def onTrackPublish (hasher : Hasher) (p : AudioMixerPublisher Endpoint Feedback)
    (endpoint : Endpoint) (track : RemoteTrackId) (peer : PeerId) (name : TrackName) :
    Except Panic (AudioMixerPublisher Endpoint Feedback) :=
  if p.tracks.contains (endpoint, track) then
    .error ⟨"assertion failed: !self.tracks.contains_key(&key)"⟩
  else
    let start := if p.tracks.isEmpty then [.pubsub ⟨p.channelId, .pubStart⟩] else []
    .ok { p with
      tracks := p.tracks.insert (endpoint, track) ⟨peer, name, hashCode hasher peer⟩
      queue := p.queue ++ start }

/-- The slots after a packet was forwarded on one of them, and whether the packet has
    to carry the identity of its speaker. -/
def fireSource (slots : List (Option OutputSlot)) (now : Instant) (slot : Nat) (justSet : Bool) :
    Except Panic (List (Option OutputSlot) × Bool) :=
  if justSet then do
    let slots ← setSlot slots slot (some ⟨now⟩)
    .ok (slots, true)
  else
    match slotAt slots slot with
    | none => .error ⟨"Output slot not found"⟩
    | some info =>
        if info.lastFiredSource + fireSourceInterval ≤ now then do
          let slots ← setSlot slots slot (some ⟨now⟩)
          .ok (slots, true)
        else .ok (slots, false)

/-- The packet that goes out for `media` on a slot. -/
def mixerPkt (info : TrackSlot) (track : RemoteTrackId) (audioLevel : Option Int8)
    (media : MediaPacket) (slot : Nat) (fired : Bool) : AudioMixerPkt where
  slot := slot.toUInt8
  peer := info.peerHash
  track := track
  audioLevel := audioLevel
  source := if fired then some (info.peer, info.name) else none
  ts := media.ts
  seq := media.seq
  opusPayload := media.data

def onTrackData (codec : Bincode AudioMixerPkt) (p : AudioMixerPublisher Endpoint Feedback)
    (now : Instant) (endpoint : Endpoint) (track : RemoteTrackId) (media : MediaPacket) :
    Except Panic (AudioMixerPublisher Endpoint Feedback) :=
  match p.tracks.get (endpoint, track) with
  | none => .error ⟨"Track not found"⟩
  | some info =>
    match media.mediaMeta with
    | .opus audioLevel => do
        let (mixer, routed) ← p.mixer.onPkt now (endpoint, track) audioLevel
        match routed with
        | none => .ok { p with mixer }
        | some (slot, justSet) => do
            let (slots, fired) ← fireSource p.slots now slot justSet
            let pkt := mixerPkt info track audioLevel media slot fired
            .ok { p with
              mixer, slots
              queue := p.queue ++ [.pubsub ⟨p.channelId, .pubData (codec.serialize pkt)⟩] }
    | _ => .ok p

def onTrackUnpublish (p : AudioMixerPublisher Endpoint Feedback) (endpoint : Endpoint)
    (track : RemoteTrackId) : Except Panic (AudioMixerPublisher Endpoint Feedback) :=
  if p.tracks.contains (endpoint, track) then
    let tracks := p.tracks.swapRemove (endpoint, track)
    let stop := if tracks.isEmpty then [.pubsub ⟨p.channelId, .pubStop⟩] else []
    .ok { p with tracks, queue := p.queue ++ stop }
  else .error ⟨"assertion failed: self.tracks.contains_key(&key)"⟩

/-! ### The slots follow the outputs of the mixer -/

structure Sound (p : AudioMixerPublisher Endpoint Feedback) : Prop where
  wellFormed : p.mixer.WellFormed
  outputs : p.mixer.outputs.length = 3
  aligned : Aligned p.mixer.outputs p.slots

theorem sound_new (channelId : ChannelId) :
    (new channelId : AudioMixerPublisher Endpoint Feedback).Sound :=
  ⟨AudioMixer.wellFormed_new 3, rfl, aligned_replicate 3⟩

theorem Sound.onTick {p : AudioMixerPublisher Endpoint Feedback} (h : p.Sound) (now : Instant) :
    ∃ mixer slots, p.onTick now = .ok { p with mixer, slots } ∧ Sound { p with mixer, slots } := by
  obtain ⟨mixer, cleared, hmixer, hwell, hlength, hlt, hat⟩ := h.wellFormed.onTick now
  have hlt' : ∀ slot ∈ cleared, slot < p.slots.length := by
    intro slot hmem
    rw [h.aligned.length_eq]
    exact hlt slot hmem
  obtain ⟨slots, hslots, hlength', hat'⟩ := clearSlots_ok hlt'
  have hremoved : (if cleared.isEmpty then none else some cleared).getD [] = cleared := by
    cases cleared with
    | nil => rfl
    | cons first rest => rfl
  refine ⟨mixer, slots, ?_, hwell, hlength.trans h.outputs, ?_⟩
  · simp only [AudioMixerPublisher.onTick, hmixer, bind, Except.bind, hremoved, hslots]
  · exact h.aligned.clear hlength hlength' hat hat'

theorem fireSource_ok {slots : List (Option OutputSlot)} {mixer mixer' : AudioMixer Src}
    {source : Src} {slot : Nat} {justSet : Bool} (h : Aligned mixer.outputs slots)
    (hrouted : mixer.Routed mixer' source (some (slot, justSet))) (now : Instant) :
    ∃ slots' fired, fireSource slots now slot justSet = .ok (slots', fired) ∧
      Aligned mixer'.outputs slots' := by
  cases hrouted with
  | kept hsame hholder =>
    have hsome : (slotAt mixer.outputs slot).isSome := by
      obtain ⟨out, hout, -⟩ := Option.map_eq_some_iff.mp hholder
      rw [hout]
      rfl
    have hslot := h.occupied slot
    rw [hsome] at hslot
    obtain ⟨info, hinfo⟩ := Option.isSome_iff_exists.mp hslot
    rw [hsame]
    unfold fireSource
    rw [if_neg Bool.false_ne_true, hinfo]
    simp only
    split
    · rw [setSlot_ok (lt_length_of_slotAt hinfo)]
      exact ⟨_, true, rfl, h.update hsome ⟨now⟩⟩
    · exact ⟨slots, false, rfl, h⟩
  | taken level hlt hnew hset =>
    have hlt' : slot < slots.length := by
      rw [h.length_eq]
      exact hlt
    rw [hset]
    unfold fireSource
    rw [if_pos rfl, setSlot_ok hlt']
    exact ⟨_, true, rfl, h.set hlt _ _⟩

/-- **Packets.** The packet of a known track is dropped or put on the channel, under the
    identity of its track. -/
theorem Sound.onTrackData {p : AudioMixerPublisher Endpoint Feedback} (h : p.Sound)
    {endpoint : Endpoint} {track : RemoteTrackId} {info : TrackSlot}
    (hget : p.tracks.get (endpoint, track) = some info) (codec : Bincode AudioMixerPkt)
    (now : Instant) (media : MediaPacket) :
    ∃ mixer slots outputs, p.onTrackData codec now endpoint track media =
        .ok { p with mixer, slots, queue := p.queue ++ outputs } ∧
      Sound { p with mixer, slots, queue := p.queue ++ outputs } ∧
      (outputs = [] ∨ ∃ level slot fired,
        outputs = [.pubsub ⟨p.channelId,
          .pubData (codec.serialize (mixerPkt info track level media slot fired))⟩]) := by
  unfold AudioMixerPublisher.onTrackData
  rw [hget]
  have hnothing : { p with queue := p.queue ++ [] } = p := by
    rw [List.append_nil]
  cases hmeta : media.mediaMeta with
  | opus level =>
    have hpos : 0 < p.mixer.outputs.length := by
      rw [h.outputs]
      decide
    obtain ⟨mixer, routed, hmixer, hwell, hrouted⟩ :=
      h.wellFormed.onPkt hpos now (endpoint, track) level
    have hlength := hrouted.length_eq.trans h.outputs
    simp only [hmixer, bind, Except.bind]
    cases routed with
    | none =>
      cases hrouted with
      | dropped hsame _ =>
        refine ⟨mixer, p.slots, [], ?_, ⟨hwell, hlength, ?_⟩, Or.inl rfl⟩
        · rw [List.append_nil]
        · rw [hsame]
          exact h.aligned
    | some target =>
      obtain ⟨slot, justSet⟩ := target
      obtain ⟨slots, fired, hslots, haligned⟩ := fireSource_ok h.aligned hrouted now
      refine ⟨mixer, slots, [.pubsub ⟨p.channelId,
        .pubData (codec.serialize (mixerPkt info track level media slot fired))⟩], ?_,
        ⟨hwell, hlength, haligned⟩, Or.inr ⟨level, slot, fired, rfl⟩⟩
      simp only [hslots]
  | h264 key profile sim rotation =>
    exact ⟨p.mixer, p.slots, [], by rw [hnothing], by rwa [hnothing], Or.inl rfl⟩
  | vp8 key sim rotation =>
    exact ⟨p.mixer, p.slots, [], by rw [hnothing], by rwa [hnothing], Or.inl rfl⟩
  | vp9 key profile svc rotation =>
    exact ⟨p.mixer, p.slots, [], by rw [hnothing], by rwa [hnothing], Or.inl rfl⟩

theorem onTrackPublish_eq_ok {hasher : Hasher} {p p' : AudioMixerPublisher Endpoint Feedback}
    {endpoint : Endpoint} {track : RemoteTrackId} {peer : PeerId} {name : TrackName}
    (h : p.onTrackPublish hasher endpoint track peer name = .ok p') :
    p.tracks.get (endpoint, track) = none ∧ p' = { p with
      tracks := p.tracks.insert (endpoint, track) ⟨peer, name, hashCode hasher peer⟩
      queue := p.queue ++ if p.tracks.isEmpty then [.pubsub ⟨p.channelId, .pubStart⟩] else [] } := by
  unfold onTrackPublish at h
  split at h
  · cases h
  · rename_i hnot
    cases h
    rw [IndexMap.contains, Bool.not_eq_true, Option.isSome_eq_false_iff] at hnot
    exact ⟨Option.isNone_iff_eq_none.mp hnot, rfl⟩

theorem onTrackUnpublish_eq_ok {p p' : AudioMixerPublisher Endpoint Feedback}
    {endpoint : Endpoint} {track : RemoteTrackId}
    (h : p.onTrackUnpublish endpoint track = .ok p') :
    p.tracks.contains (endpoint, track) = true ∧ p' = { p with
      tracks := p.tracks.swapRemove (endpoint, track)
      queue := p.queue ++ if (p.tracks.swapRemove (endpoint, track)).isEmpty then
        [.pubsub ⟨p.channelId, .pubStop⟩] else [] } := by
  unfold onTrackUnpublish at h
  split at h
  · rename_i hin
    cases h
    exact ⟨hin, rfl⟩
  · cases h

/-- The tracks of the publisher do not matter to its slots. -/
theorem Sound.withTracks {p : AudioMixerPublisher Endpoint Feedback} (h : p.Sound)
    (tracks : IndexMap (Endpoint × RemoteTrackId) TrackSlot)
    (queue : List (Output Endpoint Feedback)) : Sound { p with tracks, queue } :=
  ⟨h.wellFormed, h.outputs, h.aligned⟩

/-- The controls by which a publisher speaks of its channel. -/
def Publishes (channelId : ChannelId) (out : Output Endpoint Feedback) : Prop :=
  out = .pubsub ⟨channelId, .pubStart⟩ ∨ out = .pubsub ⟨channelId, .pubStop⟩ ∨
    ∃ data, out = .pubsub ⟨channelId, .pubData data⟩

/-- What a call leaves as it was: the channel, and that only it is spoken of. -/
structure Extends (p p' : AudioMixerPublisher Endpoint Feedback) : Prop where
  channelId : p'.channelId = p.channelId
  queue : ∃ outputs, p'.queue = p.queue ++ outputs ∧ ∀ out ∈ outputs, Publishes p.channelId out

theorem onTrackPublish_extends {hasher : Hasher} {p p' : AudioMixerPublisher Endpoint Feedback}
    {endpoint : Endpoint} {track : RemoteTrackId} {peer : PeerId} {name : TrackName}
    (h : p.onTrackPublish hasher endpoint track peer name = .ok p') (hsound : p.Sound) :
    p'.Sound ∧ Extends p p' := by
  obtain ⟨-, rfl⟩ := onTrackPublish_eq_ok h
  refine ⟨hsound.withTracks _ _, rfl, _, rfl, fun out hmem => ?_⟩
  split at hmem
  · exact Or.inl (List.mem_singleton.mp hmem)
  · cases hmem

theorem onTrackUnpublish_extends {p p' : AudioMixerPublisher Endpoint Feedback}
    {endpoint : Endpoint} {track : RemoteTrackId}
    (h : p.onTrackUnpublish endpoint track = .ok p') (hsound : p.Sound) :
    p'.Sound ∧ Extends p p' := by
  obtain ⟨-, rfl⟩ := onTrackUnpublish_eq_ok h
  refine ⟨hsound.withTracks _ _, rfl, _, rfl, fun out hmem => ?_⟩
  split at hmem
  · exact Or.inr (Or.inl (List.mem_singleton.mp hmem))
  · cases hmem

/-- Only a packet of a known track is processed. -/
theorem onTrackData_known {codec : Bincode AudioMixerPkt}
    {p p' : AudioMixerPublisher Endpoint Feedback} {now : Instant} {endpoint : Endpoint}
    {track : RemoteTrackId} {media : MediaPacket}
    (h : p.onTrackData codec now endpoint track media = .ok p') :
    ∃ info, p.tracks.get (endpoint, track) = some info := by
  unfold AudioMixerPublisher.onTrackData at h
  cases hget : p.tracks.get (endpoint, track) with
  | none =>
    rw [hget] at h
    cases h
  | some info => exact ⟨info, rfl⟩

theorem onTrackData_extends {codec : Bincode AudioMixerPkt}
    {p p' : AudioMixerPublisher Endpoint Feedback} {now : Instant} {endpoint : Endpoint}
    {track : RemoteTrackId} {media : MediaPacket}
    (h : p.onTrackData codec now endpoint track media = .ok p') (hsound : p.Sound) :
    p'.Sound ∧ Extends p p' ∧ p'.tracks = p.tracks := by
  obtain ⟨info, hinfo⟩ := onTrackData_known h
  obtain ⟨mixer, slots, outputs, hok, hsound', hsent⟩ := hsound.onTrackData hinfo codec now media
  rw [h] at hok
  cases hok
  refine ⟨hsound', ⟨rfl, outputs, rfl, fun out hmem => ?_⟩, rfl⟩
  rcases hsent with rfl | ⟨level, slot, fired, rfl⟩
  · cases hmem
  · exact Or.inr (Or.inr ⟨_, List.mem_singleton.mp hmem⟩)

end AudioMixerPublisher

end MediaServer.RoomMixer
