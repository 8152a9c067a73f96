import MediaServer.Cluster.MediaTrack.Publisher

/-!
# Media track subscriber

`media_core/src/cluster/room/media_track/subscriber.rs`.  A subscribed track is a
pair of an endpoint and a local track id that listens to one channel.  The
component keeps the channel of every subscribed track and, inverted, a vector of
the tracks of every channel, together with the bitrates the viewers ask for.

As for the publisher, the theorems compare maps, emitted controls and deliveries
with what the inputs alone say is subscribed (`live`).
-/

namespace MediaServer.MediaTrack

open Collections Lease Machine Pubsub

def bitrateFeedbackInterval : UInt16 := 100
def bitrateFeedbackTimeout : UInt16 := 2000
def keyframeFeedbackInterval : UInt16 := 1000
def keyframeFeedbackTimeout : UInt16 := 2000
def bitrateFeedbackKind : UInt8 := 0
def keyframeFeedbackKind : UInt8 := 1

variable {Endpoint Feedback : Type}

structure ChannelContainer (Endpoint Feedback : Type) where
  endpoints : List (Endpoint × LocalTrackId)
  bitrateFbs : IndexMap Endpoint (Instant × Feedback)

/-- `ChannelContainer::default`. -/
def ChannelContainer.empty : ChannelContainer Endpoint Feedback := ⟨[], ∅⟩

structure RoomChannelSubscribe (Endpoint Feedback : Type) where
  room : ClusterRoomHash
  channels : IndexMap ChannelId (ChannelContainer Endpoint Feedback)
  subscribers : IndexMap (Endpoint × LocalTrackId) (ChannelId × PeerId × TrackName)
  queue : List (Output Endpoint Feedback)

namespace RoomChannelSubscribe

def new (room : ClusterRoomHash) : RoomChannelSubscribe Endpoint Feedback := ⟨room, ∅, ∅, []⟩

def isEmpty (s : RoomChannelSubscribe Endpoint Feedback) : Bool :=
  s.subscribers.isEmpty && s.channels.isEmpty && s.queue.isEmpty

def push (s : RoomChannelSubscribe Endpoint Feedback)
    (outputs : List (Output Endpoint Feedback)) : RoomChannelSubscribe Endpoint Feedback :=
  { s with queue := s.queue ++ outputs }

/-- One message for each track of a channel, in the order of its vector. -/
def toTracks (tracks : List (Endpoint × LocalTrackId)) (event : ClusterLocalTrackEvent) :
    List (Output Endpoint Feedback) :=
  tracks.map fun track => .endpoint [track.1] (.localTrack track.2 event)

def onTrackRelayChanged (s : RoomChannelSubscribe Endpoint Feedback) (channel : ChannelId)
    (_relay : NodeId) : RoomChannelSubscribe Endpoint Feedback :=
  match s.channels.get channel with
  | none => s
  | some container => s.push (toTracks container.endpoints .relayChanged)

def onTrackData (codec : Bincode MediaPacket) (s : RoomChannelSubscribe Endpoint Feedback)
    (channel : ChannelId) (data : Bytes) : RoomChannelSubscribe Endpoint Feedback :=
  match codec.deserialize data with
  | none => s
  | some pkt =>
    match s.channels.get channel with
    | none => s
    | some container => s.push (toTracks container.endpoints (.media channel pkt))

/-- The sum of the bitrates the viewers of a channel ask for. -/
def sumFeedbacks (api : FeedbackApi Feedback) (fbs : List Feedback) : Option Feedback :=
  fbs.foldl (fun sum fb => some (match sum with
    | some sum => api.add sum fb
    | none => fb)) none

variable [DecidableEq Endpoint]

def onTrackSubscribe (hasher : Hasher) (s : RoomChannelSubscribe Endpoint Feedback)
    (endpoint : Endpoint) (track : LocalTrackId) (targetPeer : PeerId)
    (targetTrack : TrackName) : RoomChannelSubscribe Endpoint Feedback :=
  let channelId := IdGenerator.genTrackChannelId hasher s.room targetPeer targetTrack
  let container := (s.channels.get channelId).getD .empty
  let endpoints := container.endpoints ++ [(endpoint, track)]
  let sub := if endpoints.length = 1 then [.pubsub ⟨channelId, .subAuto⟩] else []
  { s with
    subscribers := s.subscribers.insert (endpoint, track) (channelId, targetPeer, targetTrack)
    channels := s.channels.insert channelId { container with endpoints := endpoints }
    queue := s.queue ++ sub }

def onTrackRequestKey (api : FeedbackApi Feedback) (s : RoomChannelSubscribe Endpoint Feedback)
    (endpoint : Endpoint) (track : LocalTrackId) : RoomChannelSubscribe Endpoint Feedback :=
  match s.subscribers.get (endpoint, track) with
  | none => s
  | some (channelId, _, _) =>
    s.push [.pubsub ⟨channelId, .feedbackAuto
      (api.simple keyframeFeedbackKind 1 keyframeFeedbackInterval keyframeFeedbackTimeout)⟩]

def onTrackDesiredBitrate (api : FeedbackApi Feedback)
    (s : RoomChannelSubscribe Endpoint Feedback) (now : Instant) (endpoint : Endpoint)
    (track : LocalTrackId) (bitrate : UInt64) : RoomChannelSubscribe Endpoint Feedback :=
  match s.subscribers.get (endpoint, track) with
  | none => s
  | some (channelId, _, _) =>
    match s.channels.get channelId with
    | none => s
    | some container =>
      let fb := api.simple bitrateFeedbackKind bitrate bitrateFeedbackInterval
        bitrateFeedbackTimeout
      let fbs := (container.bitrateFbs.insert endpoint (now, fb)).retain
        fun _ entry => now.millisSince entry.1 < bitrateFeedbackTimeout.toNat
      let s := { s with channels := s.channels.insert channelId { container with bitrateFbs := fbs } }
      match sumFeedbacks api (fbs.values.map Prod.snd) with
      | none => s
      | some sum => s.push [.pubsub ⟨channelId, .feedbackAuto sum⟩]

def onTrackUnsubscribe (s : RoomChannelSubscribe Endpoint Feedback) (endpoint : Endpoint)
    (track : LocalTrackId) : RoomChannelSubscribe Endpoint Feedback :=
  match s.subscribers.get (endpoint, track) with
  | none => s
  | some (channelId, _, _) =>
    let s := { s with subscribers := s.subscribers.swapRemove (endpoint, track) }
    match s.channels.get channelId with
    | none => s
    | some container =>
      match container.endpoints.findIdx? (fun e => e = (endpoint, track)) with
      | none => s
      | some index =>
        let endpoints := swapRemoveIdx container.endpoints index
        if endpoints.isEmpty then
          { s with
            channels := s.channels.swapRemove channelId
            queue := s.queue ++ [.pubsub ⟨channelId, .unsubAuto⟩] }
        else
          { s with channels := s.channels.insert channelId { container with endpoints := endpoints } }

end RoomChannelSubscribe

/-! ### Runs -/

namespace Subscriber

open RoomChannelSubscribe

inductive Input (Endpoint : Type) where
  | relayChanged (channel : ChannelId) (relay : NodeId)
  | data (channel : ChannelId) (data : Bytes)
  | subscribe (endpoint : Endpoint) (track : LocalTrackId) (targetPeer : PeerId)
      (targetTrack : TrackName)
  | requestKey (endpoint : Endpoint) (track : LocalTrackId)
  | desiredBitrate (now : Instant) (endpoint : Endpoint) (track : LocalTrackId)
      (bitrate : UInt64)
  | unsubscribe (endpoint : Endpoint) (track : LocalTrackId)

variable [DecidableEq Endpoint]

def step (hasher : Hasher) (api : FeedbackApi Feedback) (codec : Bincode MediaPacket)
    (s : RoomChannelSubscribe Endpoint Feedback) :
    Input Endpoint → RoomChannelSubscribe Endpoint Feedback
  | .relayChanged channel relay => s.onTrackRelayChanged channel relay
  | .data channel data => s.onTrackData codec channel data
  | .subscribe endpoint track targetPeer targetTrack =>
      s.onTrackSubscribe hasher endpoint track targetPeer targetTrack
  | .requestKey endpoint track => s.onTrackRequestKey api endpoint track
  | .desiredBitrate now endpoint track bitrate =>
      s.onTrackDesiredBitrate api now endpoint track bitrate
  | .unsubscribe endpoint track => s.onTrackUnsubscribe endpoint track

/-- The tracks that the vector of a channel names; `none` if the channel has no
    entry. -/
def endpointsOf (s : RoomChannelSubscribe Endpoint Feedback) (channel : ChannelId) :
    Option (List (Endpoint × LocalTrackId)) :=
  (s.channels.get channel).map ChannelContainer.endpoints

/-- The subscribe commands that a list of outputs carries for one channel. -/
def subCommand (channel : ChannelId) : Output Endpoint Feedback → Option Lease.Command
  | .pubsub ⟨c, .subAuto⟩ => if c = channel then some .acquire else none
  | .pubsub ⟨c, .unsubAuto⟩ => if c = channel then some .release else none
  | _ => none

def subCommands (channel : ChannelId) (outputs : List (Output Endpoint Feedback)) :
    List Lease.Command :=
  outputs.filterMap (subCommand channel)

omit [DecidableEq Endpoint] in
theorem subCommands_append (channel : ChannelId)
    (first second : List (Output Endpoint Feedback)) :
    subCommands channel (first ++ second) =
      subCommands channel first ++ subCommands channel second :=
  List.filterMap_append

omit [DecidableEq Endpoint] in
theorem subCommands_subAuto (channel c : ChannelId) :
    subCommands channel ([.pubsub ⟨c, .subAuto⟩] : List (Output Endpoint Feedback)) =
      if c = channel then [.acquire] else [] := by
  by_cases hc : c = channel
  · rw [if_pos hc]
    exact List.filterMap_cons_some (if_pos hc)
  · rw [if_neg hc]
    exact List.filterMap_cons_none (if_neg hc)

omit [DecidableEq Endpoint] in
theorem subCommands_unsubAuto (channel c : ChannelId) :
    subCommands channel ([.pubsub ⟨c, .unsubAuto⟩] : List (Output Endpoint Feedback)) =
      if c = channel then [.release] else [] := by
  by_cases hc : c = channel
  · rw [if_pos hc]
    exact List.filterMap_cons_some (if_pos hc)
  · rw [if_neg hc]
    exact List.filterMap_cons_none (if_neg hc)

omit [DecidableEq Endpoint] in
theorem subCommands_toTracks (channel : ChannelId) (tracks : List (Endpoint × LocalTrackId))
    (event : ClusterLocalTrackEvent) :
    subCommands channel (toTracks tracks event : List (Output Endpoint Feedback)) = [] := by
  refine List.filterMap_eq_nil_iff.mpr ?_
  intro out hmem
  obtain ⟨track, -, rfl⟩ := List.mem_map.mp hmem
  rfl

/-- A step that leaves subscriptions alone: it only pushes outputs, none of which
    is a subscribe command. -/
structure Frame (s s' : RoomChannelSubscribe Endpoint Feedback)
    (outputs : List (Output Endpoint Feedback)) : Prop where
  room : s'.room = s.room
  subscribers : s'.subscribers = s.subscribers
  endpoints : ∀ channel, endpointsOf s' channel = endpointsOf s channel
  queue : s'.queue = s.queue ++ outputs
  silent : ∀ channel, subCommands channel outputs = []

omit [DecidableEq Endpoint] in
theorem Frame.refl (s : RoomChannelSubscribe Endpoint Feedback) : Frame s s [] :=
  ⟨rfl, rfl, fun _ => rfl, by simp, fun _ => rfl⟩

omit [DecidableEq Endpoint] in
theorem Frame.push (s : RoomChannelSubscribe Endpoint Feedback)
    {outputs : List (Output Endpoint Feedback)}
    (h : ∀ channel, subCommands channel outputs = []) : Frame s (s.push outputs) outputs :=
  ⟨rfl, rfl, fun _ => rfl, rfl, h⟩

/-- The outputs of an event that goes to every track of a channel. -/
def broadcast (s : RoomChannelSubscribe Endpoint Feedback) (channel : ChannelId)
    (event : ClusterLocalTrackEvent) : List (Output Endpoint Feedback) :=
  toTracks ((endpointsOf s channel).getD []) event

omit [DecidableEq Endpoint] in
theorem broadcast_frame (s : RoomChannelSubscribe Endpoint Feedback) (channel : ChannelId)
    (event : ClusterLocalTrackEvent) :
    Frame s (match s.channels.get channel with
      | none => s
      | some container => s.push (toTracks container.endpoints event))
      (broadcast s channel event) := by
  unfold broadcast endpointsOf
  cases s.channels.get channel with
  | none => exact Frame.refl s
  | some container => exact Frame.push s fun _ => subCommands_toTracks _ _ _

theorem requestKey_frame (api : FeedbackApi Feedback)
    (s : RoomChannelSubscribe Endpoint Feedback) (endpoint : Endpoint) (track : LocalTrackId) :
    ∃ outputs, Frame s (s.onTrackRequestKey api endpoint track) outputs := by
  unfold onTrackRequestKey
  cases s.subscribers.get (endpoint, track) with
  | none => exact ⟨[], Frame.refl s⟩
  | some value => exact ⟨_, Frame.push s fun _ => by simp [subCommands, subCommand]⟩

/-- A bitrate request changes what viewers ask for, not who listens. -/
theorem desiredBitrate_frame (api : FeedbackApi Feedback)
    (s : RoomChannelSubscribe Endpoint Feedback) (now : Instant) (endpoint : Endpoint)
    (track : LocalTrackId) (bitrate : UInt64) :
    ∃ outputs, Frame s (s.onTrackDesiredBitrate api now endpoint track bitrate) outputs := by
  unfold onTrackDesiredBitrate
  cases s.subscribers.get (endpoint, track) with
  | none => exact ⟨[], Frame.refl s⟩
  | some value =>
    obtain ⟨channelId, peer, name⟩ := value
    simp only
    cases hget : s.channels.get channelId with
    | none => exact ⟨[], Frame.refl s⟩
    | some container =>
      simp only
      have hends : ∀ (fbs : IndexMap Endpoint (Instant × Feedback)) (channel : ChannelId),
          ((s.channels.insert channelId { container with bitrateFbs := fbs }).get channel).map
            ChannelContainer.endpoints = endpointsOf s channel := by
        intro fbs channel
        rw [IndexMap.get_insert]
        by_cases hch : channel = channelId
        · simp [hch, endpointsOf, hget]
        · rw [if_neg hch, endpointsOf]
      split
      · exact ⟨[], rfl, rfl, hends _, by simp, fun _ => rfl⟩
      · exact ⟨_, rfl, rfl, hends _, rfl, fun _ => by simp [subCommands, subCommand]⟩

/-- What `onTrackUnsubscribe` does to a track whose channel lists it. -/
theorem onTrackUnsubscribe_of_listed {s : RoomChannelSubscribe Endpoint Feedback}
    {endpoint : Endpoint} {track : LocalTrackId} {channelId : ChannelId} {peer : PeerId}
    {name : TrackName} {container : ChannelContainer Endpoint Feedback} {index : Nat}
    (hsub : s.subscribers.get (endpoint, track) = some (channelId, peer, name))
    (hget : s.channels.get channelId = some container)
    (hindex : container.endpoints.findIdx? (fun e => e = (endpoint, track)) = some index) :
    s.onTrackUnsubscribe endpoint track =
      { s with
        subscribers := s.subscribers.swapRemove (endpoint, track)
        channels :=
          if (swapRemoveIdx container.endpoints index).isEmpty then s.channels.swapRemove channelId
          else s.channels.insert channelId
            { container with endpoints := swapRemoveIdx container.endpoints index }
        queue := s.queue ++
          if (swapRemoveIdx container.endpoints index).isEmpty then
            [.pubsub ⟨channelId, .unsubAuto⟩] else [] } := by
  simp only [onTrackUnsubscribe, hsub, hget, hindex]
  split <;> simp

theorem unsubscribe_appends (s : RoomChannelSubscribe Endpoint Feedback) (endpoint : Endpoint)
    (track : LocalTrackId) : s.queue <+: (s.onTrackUnsubscribe endpoint track).queue := by
  unfold onTrackUnsubscribe
  split
  · exact List.prefix_rfl
  · simp only
    split
    · exact List.prefix_rfl
    · split
      · exact List.prefix_rfl
      · split
        · exact List.prefix_append _ _
        · exact List.prefix_rfl

/-- Every input but the two that change subscriptions is a frame step. -/
theorem step_frame (hasher : Hasher) (api : FeedbackApi Feedback) (codec : Bincode MediaPacket)
    (s : RoomChannelSubscribe Endpoint Feedback) (i : Input Endpoint) :
    (∃ outputs, Frame s (step hasher api codec s i) outputs) ∨
    (∃ endpoint track peer name, i = .subscribe endpoint track peer name) ∨
    ∃ endpoint track, i = .unsubscribe endpoint track := by
  cases i with
  | relayChanged channel relay => exact Or.inl ⟨_, broadcast_frame s channel .relayChanged⟩
  | data channel data =>
    left
    simp only [step, RoomChannelSubscribe.onTrackData]
    cases codec.deserialize data with
    | none => exact ⟨[], Frame.refl s⟩
    | some pkt => exact ⟨_, broadcast_frame s channel (.media channel pkt)⟩
  | subscribe endpoint track peer name => exact Or.inr (Or.inl ⟨_, _, _, _, rfl⟩)
  | requestKey endpoint track => exact Or.inl (requestKey_frame api s endpoint track)
  | desiredBitrate now endpoint track bitrate =>
    exact Or.inl (desiredBitrate_frame api s now endpoint track bitrate)
  | unsubscribe endpoint track => exact Or.inr (Or.inr ⟨_, _, rfl⟩)

theorem step_appends (hasher : Hasher) (api : FeedbackApi Feedback)
    (codec : Bincode MediaPacket) (s : RoomChannelSubscribe Endpoint Feedback)
    (i : Input Endpoint) : s.queue <+: (step hasher api codec s i).queue := by
  rcases step_frame hasher api codec s i with
    ⟨outputs, hframe⟩ | ⟨endpoint, track, peer, name, rfl⟩ | ⟨endpoint, track, rfl⟩
  · rw [hframe.queue]
    exact List.prefix_append _ _
  · exact List.prefix_append _ _
  · exact unsubscribe_appends s endpoint track

def machine (hasher : Hasher) (api : FeedbackApi Feedback) (codec : Bincode MediaPacket)
    (room : ClusterRoomHash) :
    Machine (RoomChannelSubscribe Endpoint Feedback) (Input Endpoint)
      (Output Endpoint Feedback) where
  init := .new room
  step s i := .ok (step hasher api codec s i)
  queue := RoomChannelSubscribe.queue
  dropFront s := { s with queue := s.queue.tail }
  queue_init := rfl
  queue_dropFront _ := rfl
  step_appends s i s' h := by
    cases h
    exact step_appends hasher api codec s i

/-! ### What is subscribed, by the inputs alone -/

/-- The channel every subscribed track listens to. -/
abbrev Live (Endpoint : Type) := Endpoint × LocalTrackId → Option ChannelId

def liveStep (hasher : Hasher) (room : ClusterRoomHash) (live : Live Endpoint) :
    Input Endpoint → Live Endpoint
  | .subscribe endpoint track peer name =>
      Function.update live (endpoint, track)
        (some (IdGenerator.genTrackChannelId hasher room peer name))
  | .unsubscribe endpoint track => Function.update live (endpoint, track) none
  | _ => live

/-- What is subscribed after a history. -/
def live (hasher : Hasher) (room : ClusterRoomHash)
    (history : History (Input Endpoint) (Output Endpoint Feedback)) : Live Endpoint :=
  (history.map Prod.fst).foldl (liveStep hasher room) (fun _ => none)

theorem live_concat (hasher : Hasher) (room : ClusterRoomHash)
    (history : History (Input Endpoint) (Output Endpoint Feedback)) (i : Input Endpoint)
    (pushed : List (Output Endpoint Feedback)) :
    live hasher room (history ++ [(i, pushed)]) =
      liveStep hasher room (live hasher room history) i := by
  simp [live]

/-- No track is subscribed a second time without an unsubscribe between. -/
def FreshSubscribe (hasher : Hasher) (room : ClusterRoomHash) :
    Contract (RoomChannelSubscribe Endpoint Feedback) (Input Endpoint)
      (Output Endpoint Feedback)
  | history, _, .subscribe endpoint track _ _ => live hasher room history (endpoint, track) = none
  | _, _, _ => True

instance (hasher : Hasher) (room : ClusterRoomHash)
    (history : History (Input Endpoint) (Output Endpoint Feedback))
    (s : RoomChannelSubscribe Endpoint Feedback) :
    ∀ i, Decidable (FreshSubscribe hasher room history s i)
  | .subscribe endpoint track _ _ =>
      inferInstanceAs (Decidable (live hasher room history (endpoint, track) = none))
  | .unsubscribe _ _ => .isTrue trivial
  | .relayChanged _ _ => .isTrue trivial
  | .data _ _ => .isTrue trivial
  | .requestKey _ _ => .isTrue trivial
  | .desiredBitrate _ _ _ _ => .isTrue trivial

/-! ### The invariant -/

/-- The maps, the trace and the inputs agree on who listens to what. -/
structure Inv (hasher : Hasher) (room : ClusterRoomHash)
    (history : History (Input Endpoint) (Output Endpoint Feedback))
    (s : RoomChannelSubscribe Endpoint Feedback) : Prop where
  room_eq : s.room = room
  subscribers : ∀ key, (s.subscribers.get key).map Prod.fst = live hasher room history key
  endpoints : ∀ channel key, key ∈ (endpointsOf s channel).getD [] ↔
    live hasher room history key = some channel
  nodup : ∀ channel tracks, endpointsOf s channel = some tracks → tracks.Nodup
  nonempty : ∀ channel tracks, endpointsOf s channel = some tracks → tracks ≠ []
  lease : ∀ channel, LeaseTrace (subCommands channel (emitted history))
    (∃ key, live hasher room history key = some channel)

variable {hasher : Hasher} {room : ClusterRoomHash} {api : FeedbackApi Feedback}
  {codec : Bincode MediaPacket} {history : History (Input Endpoint) (Output Endpoint Feedback)}
  {s s' : RoomChannelSubscribe Endpoint Feedback}

theorem inv_init :
    Inv hasher room [] (.new room : RoomChannelSubscribe Endpoint Feedback) where
  room_eq := rfl
  subscribers _ := rfl
  endpoints channel key := by simp [RoomChannelSubscribe.new, endpointsOf, live]
  nodup channel tracks h := by simp [RoomChannelSubscribe.new, endpointsOf] at h
  nonempty channel tracks h := by simp [RoomChannelSubscribe.new, endpointsOf] at h
  lease channel := LeaseTrace.nil (by simp [live])

theorem Inv.dropFront (h : Inv hasher room history s) :
    Inv hasher room history { s with queue := s.queue.tail } :=
  ⟨h.room_eq, h.subscribers, h.endpoints, h.nodup, h.nonempty, h.lease⟩

theorem Inv.frame (h : Inv hasher room history s) {i : Input Endpoint}
    {outputs : List (Output Endpoint Feedback)} (hframe : Frame s s' outputs)
    (hlive : liveStep hasher room (live hasher room history) i = live hasher room history) :
    Inv hasher room (history ++ [(i, (machine hasher api codec room).pushed s s')]) s' where
  room_eq := hframe.room.trans h.room_eq
  subscribers key := by rw [live_concat, hlive, hframe.subscribers, h.subscribers]
  endpoints channel key := by rw [live_concat, hlive, hframe.endpoints, h.endpoints]
  nodup channel tracks hget := h.nodup channel tracks (hframe.endpoints channel ▸ hget)
  nonempty channel tracks hget := h.nonempty channel tracks (hframe.endpoints channel ▸ hget)
  lease channel := by
    have hpushed : (machine hasher api codec room).pushed s s' = outputs :=
      pushed_eq_of_append _ hframe.queue
    rw [live_concat, hlive, emitted_concat, subCommands_append, hpushed, hframe.silent,
      List.append_nil]
    exact h.lease channel

/-- The vector of a channel, empty if there is none, lists each of its tracks once. -/
theorem Inv.nodup_getD (h : Inv hasher room history s) (channel : ChannelId) :
    ((endpointsOf s channel).getD []).Nodup := by
  cases hget : endpointsOf s channel with
  | none => exact List.nodup_nil
  | some tracks => exact h.nodup channel tracks hget

theorem Inv.subscribe (h : Inv hasher room history s) {endpoint : Endpoint}
    {track : LocalTrackId} {peer : PeerId} {name : TrackName}
    (hfresh : live hasher room history (endpoint, track) = none) :
    Inv hasher room
      (history ++ [(Input.subscribe endpoint track peer name,
        (machine hasher api codec room).pushed s
          (s.onTrackSubscribe hasher endpoint track peer name))])
      (s.onTrackSubscribe hasher endpoint track peer name) := by
  set s' := s.onTrackSubscribe hasher endpoint track peer name with hs'
  set channelId := IdGenerator.genTrackChannelId hasher room peer name with hchannel
  set tracks := (endpointsOf s channelId).getD [] with htracks
  have hroom : s.room = room := h.room_eq
  have hold : ((s.channels.get channelId).getD .empty).endpoints = tracks := by
    rw [htracks, endpointsOf]
    cases s.channels.get channelId with
    | none => rfl
    | some container => rfl
  have hlive : live hasher room (history ++ [(Input.subscribe endpoint track peer name,
      (machine hasher api codec room).pushed s s')]) =
      Function.update (live hasher room history) (endpoint, track) (some channelId) :=
    live_concat _ _ _ _ _
  have hsubs : s'.subscribers =
      s.subscribers.insert (endpoint, track) (channelId, peer, name) := by
    simp [hs', onTrackSubscribe, hroom, ← hchannel]
  have hpushed : (machine hasher api codec room).pushed s s' =
      if (tracks ++ [(endpoint, track)]).length = 1 then
        [.pubsub ⟨channelId, .subAuto⟩] else [] := by
    apply pushed_eq_of_append
    simp only [machine, hs', onTrackSubscribe, hroom, ← hchannel, hold]
  have hends : ∀ channel, endpointsOf s' channel =
      if channel = channelId then some (tracks ++ [(endpoint, track)])
      else endpointsOf s channel := by
    intro channel
    simp only [hs', onTrackSubscribe, hroom, ← hchannel, endpointsOf, IndexMap.get_insert]
    by_cases hch : channel = channelId
    · simp only [if_pos hch, Option.map_some, hold]
    · simp only [if_neg hch]
  have hmem : ∀ key, key ∈ tracks ↔ live hasher room history key = some channelId :=
    fun key => h.endpoints channelId key
  refine ⟨hroom, ?_, ?_, ?_, ?_, ?_⟩
  · intro key
    rw [hlive, hsubs, IndexMap.get_insert]
    by_cases hkey : key = (endpoint, track)
    · simp [hkey]
    · rw [if_neg hkey, Function.update_of_ne hkey]
      exact h.subscribers key
  · intro channel key
    rw [hlive, hends]
    by_cases hch : channel = channelId
    · rw [if_pos hch, Option.getD_some, List.mem_append, hmem, hch]
      by_cases hkey : key = (endpoint, track)
      · simp [hkey]
      · simp [hkey]
    · rw [if_neg hch, h.endpoints]
      by_cases hkey : key = (endpoint, track)
      · simp [hkey, hfresh, Ne.symm hch]
      · rw [Function.update_of_ne hkey]
  · intro channel l hget
    rw [hends] at hget
    split at hget
    · cases hget
      refine (h.nodup_getD channelId).append (List.nodup_singleton _) ?_
      intro key hkey hnew
      rw [List.mem_singleton.mp hnew, hmem, hfresh] at hkey
      cases hkey
    · exact h.nodup channel l hget
  · intro channel l hget
    rw [hends] at hget
    split at hget
    · cases hget
      exact List.append_ne_nil_of_right_ne_nil _ (List.cons_ne_nil _ _)
    · exact h.nonempty channel l hget
  · intro channel
    rw [hlive, emitted_concat, subCommands_append, hpushed]
    -- the track that makes the vector one long is the first of its channel
    refine (h.lease channel).register hfresh ?_ ?_ ?_
    · rintro rfl hnone
      have hempty : tracks = [] := by
        refine List.eq_nil_iff_forall_not_mem.mpr fun key hkey => ?_
        exact hnone ⟨key, (hmem key).mp hkey⟩
      simp [hempty, subCommands, subCommand]
    · rintro rfl ⟨key, hkey⟩
      have hne : tracks ≠ [] := List.ne_nil_of_mem ((hmem key).mpr hkey)
      simp [hne, subCommands]
    · intro hne
      split <;> simp [subCommands, subCommand, Ne.symm hne]

/-- A track that is subscribed is listed by its channel. -/
theorem Inv.listed (h : Inv hasher room history s) {endpoint : Endpoint}
    {track : LocalTrackId} {channelId : ChannelId} {peer : PeerId} {name : TrackName}
    (hsub : s.subscribers.get (endpoint, track) = some (channelId, peer, name)) :
    ∃ container index, s.channels.get channelId = some container ∧
      container.endpoints.findIdx? (fun e => e = (endpoint, track)) = some index := by
  have hlive : live hasher room history (endpoint, track) = some channelId := by
    rw [← h.subscribers, hsub]
    rfl
  have hmem := (h.endpoints channelId (endpoint, track)).mpr hlive
  cases hget : s.channels.get channelId with
  | none => simp [endpointsOf, hget] at hmem
  | some container =>
    simp only [endpointsOf, hget, Option.map_some, Option.getD_some] at hmem
    cases hindex : container.endpoints.findIdx? (fun e => e = (endpoint, track)) with
    | none =>
      have habsent := List.findIdx?_eq_none_iff.mp hindex _ hmem
      simp at habsent
    | some index => exact ⟨container, index, rfl, hindex⟩

theorem Inv.unsubscribe (h : Inv hasher room history s) (endpoint : Endpoint)
    (track : LocalTrackId) :
    Inv hasher room
      (history ++ [(Input.unsubscribe endpoint track,
        (machine hasher api codec room).pushed s (s.onTrackUnsubscribe endpoint track))])
      (s.onTrackUnsubscribe endpoint track) := by
  cases hsub : s.subscribers.get (endpoint, track) with
  | none =>
    have hdead : live hasher room history (endpoint, track) = none := by
      rw [← h.subscribers, hsub]
      rfl
    have hsame : s.onTrackUnsubscribe endpoint track = s := by
      simp [onTrackUnsubscribe, hsub]
    rw [hsame]
    refine h.frame (Frame.refl s) ?_
    rw [liveStep, ← hdead, Function.update_eq_self]
  | some value =>
    obtain ⟨channelId, peer, name⟩ := value
    obtain ⟨container, index, hget, hindex⟩ := h.listed hsub
    set s' := s.onTrackUnsubscribe endpoint track with hs'
    rw [onTrackUnsubscribe_of_listed hsub hget hindex] at hs'
    set rest := swapRemoveIdx container.endpoints index with hrest
    have hlive : live hasher room (history ++ [(Input.unsubscribe endpoint track,
        (machine hasher api codec room).pushed s s')]) =
        Function.update (live hasher room history) (endpoint, track) none :=
      live_concat _ _ _ _ _
    have hwas : live hasher room history (endpoint, track) = some channelId := by
      rw [← h.subscribers, hsub]
      rfl
    have hlisted : endpointsOf s channelId = some container.endpoints := by
      simp [endpointsOf, hget]
    have hnodup : container.endpoints.Nodup := h.nodup channelId _ hlisted
    have hmem : ∀ key, key ∈ rest ↔
        Function.update (live hasher room history) (endpoint, track) none key =
          some channelId := by
      intro key
      have hin := h.endpoints channelId key
      rw [hlisted, Option.getD_some] at hin
      rw [hrest, mem_swapRemoveIdx_idxOf hnodup hindex, hin]
      by_cases hkey : key = (endpoint, track)
      · simp [hkey]
      · simp [hkey]
    have hends : ∀ channel, endpointsOf s' channel =
        if channel = channelId then (if rest.isEmpty then none else some rest)
        else endpointsOf s channel := by
      intro channel
      simp only [hs', endpointsOf]
      by_cases hempty : rest.isEmpty
      · rw [if_pos hempty, IndexMap.get_swapRemove]
        by_cases hch : channel = channelId
        · simp [hch, hempty]
        · simp [hch]
      · rw [if_neg hempty, IndexMap.get_insert]
        by_cases hch : channel = channelId
        · simp [hch, hempty]
        · simp [hch]
    have hpushed : (machine hasher api codec room).pushed s s' =
        if rest.isEmpty then [.pubsub ⟨channelId, .unsubAuto⟩] else [] := by
      apply pushed_eq_of_append
      rw [hs']
      rfl
    refine ⟨by rw [hs']; exact h.room_eq, ?_, ?_, ?_, ?_, ?_⟩
    · intro key
      rw [hlive, hs', IndexMap.get_swapRemove]
      by_cases hkey : key = (endpoint, track)
      · simp [hkey]
      · rw [if_neg hkey, Function.update_of_ne hkey]
        exact h.subscribers key
    · intro channel key
      rw [hlive, hends]
      by_cases hch : channel = channelId
      · rw [if_pos hch, hch, ← hmem]
        by_cases hempty : rest.isEmpty
        · simp [List.isEmpty_iff.mp hempty]
        · simp [hempty]
      · rw [if_neg hch, h.endpoints]
        by_cases hkey : key = (endpoint, track)
        · simp [hkey, hwas, Ne.symm hch]
        · rw [Function.update_of_ne hkey]
    · intro channel l hl
      rw [hends] at hl
      split at hl
      · split at hl
        · cases hl
        · cases hl
          obtain ⟨hlt, -, -⟩ := List.findIdx?_eq_some_iff_getElem.mp hindex
          exact nodup_swapRemoveIdx hnodup hlt
      · exact h.nodup channel l hl
    · intro channel l hl
      rw [hends] at hl
      split at hl
      · split at hl
        · cases hl
        · rename_i hempty
          cases hl
          exact fun hnil => hempty (by simp [hnil])
      · exact h.nonempty channel l hl
    · intro channel
      rw [hlive, emitted_concat, subCommands_append, hpushed]
      refine (h.lease channel).unregister hwas ?_ ?_ ?_
      · rintro rfl hnone
        have hempty : rest = [] := by
          refine List.eq_nil_iff_forall_not_mem.mpr fun key hkey => ?_
          exact hnone ⟨key, (hmem key).mp hkey⟩
        simp [hempty, subCommands, subCommand]
      · rintro rfl ⟨key, hkey⟩
        have hne : rest ≠ [] := List.ne_nil_of_mem ((hmem key).mpr hkey)
        simp [hne, subCommands]
      · intro hne
        split <;> simp [subCommands, subCommand, Ne.symm hne]

/-- **Every admissible input keeps the invariant.** -/
theorem inv_step (h : Inv hasher room history s) {i : Input Endpoint}
    (hok : FreshSubscribe hasher room history s i) :
    Inv hasher room
      (history ++ [(i, (machine hasher api codec room).pushed s (step hasher api codec s i))])
      (step hasher api codec s i) := by
  rcases step_frame hasher api codec s i with
    ⟨outputs, hframe⟩ | ⟨endpoint, track, peer, name, rfl⟩ | ⟨endpoint, track, rfl⟩
  · cases i with
    | subscribe endpoint track peer name => exact h.subscribe hok
    | unsubscribe endpoint track => exact h.unsubscribe endpoint track
    | relayChanged channel relay => exact h.frame hframe rfl
    | data channel data => exact h.frame hframe rfl
    | requestKey endpoint track => exact h.frame hframe rfl
    | desiredBitrate now endpoint track bitrate => exact h.frame hframe rfl
  · exact h.subscribe hok
  · exact h.unsubscribe endpoint track

/-! ### Main result -/

/-- The two maps say the same about every track, which its channel lists once, and
    no channel entry is empty. -/
structure Consistent (s : RoomChannelSubscribe Endpoint Feedback) : Prop where
  inverse : ∀ key channel,
    (∃ peer name, s.subscribers.get key = some (channel, peer, name)) ↔
      ∃ container, s.channels.get channel = some container ∧ key ∈ container.endpoints
  once : ∀ channel container, s.channels.get channel = some container →
    container.endpoints.Nodup
  nonempty : ∀ channel container, s.channels.get channel = some container →
    container.endpoints ≠ []

theorem Inv.consistent (h : Inv hasher room history s) : Consistent s where
  inverse key channel := by
    have hsub : (∃ peer name, s.subscribers.get key = some (channel, peer, name)) ↔
        live hasher room history key = some channel := by
      rw [← h.subscribers]
      cases s.subscribers.get key with
      | none => simp
      | some value => obtain ⟨c, peer, name⟩ := value; simp
    have hlisted : (∃ container, s.channels.get channel = some container ∧
        key ∈ container.endpoints) ↔ key ∈ (endpointsOf s channel).getD [] := by
      rw [endpointsOf]
      cases s.channels.get channel with
      | none => simp
      | some container => simp
    rw [hsub, hlisted, h.endpoints]
  once channel container hget := h.nodup channel _ (by simp [endpointsOf, hget])
  nonempty channel container hget := h.nonempty channel _ (by simp [endpointsOf, hget])

/-- What an event on a channel must push: one message for each subscribed track. -/
def DeliveredToTracks (live : Live Endpoint) (channel : ChannelId)
    (event : ClusterLocalTrackEvent) (pushed : List (Output Endpoint Feedback)) : Prop :=
  pushed.Nodup ∧ ∀ output, output ∈ pushed ↔
    ∃ endpoint track, live (endpoint, track) = some channel ∧
      output = .endpoint [endpoint] (.localTrack track event)

omit [DecidableEq Endpoint] in
theorem nodup_toTracks {tracks : List (Endpoint × LocalTrackId)} (h : tracks.Nodup)
    (event : ClusterLocalTrackEvent) :
    (toTracks tracks event : List (Output Endpoint Feedback)).Nodup := by
  refine h.map ?_
  rintro ⟨e, t⟩ ⟨e', t'⟩ heq
  simp only [Output.endpoint.injEq, ClusterEndpointEvent.localTrack.injEq, List.cons.injEq] at heq
  simp [heq.1.1, heq.2.1]

theorem Inv.broadcast_delivered (h : Inv hasher room history s) (channel : ChannelId)
    (event : ClusterLocalTrackEvent) :
    DeliveredToTracks (live hasher room history) channel event (broadcast s channel event) := by
  refine ⟨nodup_toTracks (h.nodup_getD channel) _, fun output => ?_⟩
  simp only [broadcast, toTracks, List.mem_map, h.endpoints, Prod.exists]
  exact exists_congr fun e => exists_congr fun t => and_congr_right fun _ => eq_comm

theorem Inv.delivered (h : Inv hasher room history s) {channel : ChannelId} {data : Bytes}
    {pkt : MediaPacket} (hpkt : codec.deserialize data = some pkt) :
    DeliveredToTracks (live hasher room history) channel (.media channel pkt)
      ((machine hasher api codec room).pushed s (s.onTrackData codec channel data)) := by
  have hpushed : (machine hasher api codec room).pushed s (s.onTrackData codec channel data) =
      broadcast s channel (.media channel pkt) := by
    apply pushed_eq_of_append
    simp only [RoomChannelSubscribe.onTrackData, hpkt]
    exact (broadcast_frame s channel (.media channel pkt)).queue
  rw [hpushed]
  exact h.broadcast_delivered channel _

/-- **Media subscriber consistency.** Along every run that never subscribes a
    subscribed track again, nothing panics, the two maps are inverse to each other
    without empty channel entries, the subscribe and unsubscribe commands of every
    channel alternate and a subscription is outstanding exactly while some track
    is subscribed, and a data packet on a channel is delivered exactly once to each
    currently subscribed track and to nobody else (bytes that are no packet are
    delivered to nobody). -/
theorem subscriber_consistency (hasher : Hasher) (api : FeedbackApi Feedback)
    (codec : Bincode MediaPacket) (room : ClusterRoomHash)
    (acts : List (Action (Input Endpoint)))
    (hacts : (machine hasher api codec room).Admits (FreshSubscribe hasher room) acts) :
    ∃ c, (machine hasher api codec room).run acts = .ok c ∧
      Consistent c.state ∧
      (∀ channel, StrictlyAlternates (subCommands channel (emitted c.history)) ∧
        (Outstanding (subCommands channel (emitted c.history)) ↔
          ∃ key, live hasher room c.history key = some channel)) ∧
      (∀ channel data pkt, codec.deserialize data = some pkt →
        DeliveredToTracks (live hasher room c.history) channel (.media channel pkt)
          ((machine hasher api codec room).pushed c.state
            (c.state.onTrackData codec channel data))) ∧
      (∀ channel data, codec.deserialize data = none →
        (machine hasher api codec room).pushed c.state
          (c.state.onTrackData codec channel data) = []) := by
  obtain ⟨c, hrun, hinv⟩ := run_progress (M := machine hasher api codec room)
    (FreshSubscribe hasher room) (Inv hasher room) inv_init
    (fun _ s i hinv hok => ⟨step hasher api codec s i, rfl, inv_step hinv hok⟩)
    (fun _ _ hinv => hinv.dropFront) hacts
  refine ⟨c, hrun, hinv.consistent, ?_, ?_, ?_⟩
  · exact fun channel => ⟨(hinv.lease channel).alternates, (hinv.lease channel).outstanding⟩
  · exact fun channel data pkt hpkt => hinv.delivered hpkt
  · intro channel data hnone
    apply pushed_eq_of_append
    simp [RoomChannelSubscribe.onTrackData, hnone]

/-- Two tracks of one endpoint listen to one channel; the first one stops. -/
def twoTracks : List (Action (Input Nat)) :=
  [.input (.subscribe 1 5 "alice" "cam"), .input (.subscribe 1 6 "alice" "cam"),
    .input (.desiredBitrate 0 1 5 1000), .pop, .input (.unsubscribe 1 5)]

theorem subscriber_consistency_twoTracks :
    ∃ c, (machine fnv1a PlainFeedback.api Publisher.emptyCodec 0).run twoTracks = .ok c ∧
      Consistent c.state :=
  (subscriber_consistency fnv1a PlainFeedback.api Publisher.emptyCodec 0 twoTracks
    (AdmitsFrom.admits (by decide +kernel))).imp fun _ h => ⟨h.1, h.2.1⟩

end Subscriber

end MediaServer.MediaTrack
