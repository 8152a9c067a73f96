import MediaServer.Lib.IndexMap
import MediaServer.Lib.Lease
import MediaServer.Lib.Machine
import MediaServer.Cluster.IdGenerator
import Mathlib.Logic.Function.Basic

/-!
# Media track publisher

`media_core/src/cluster/room/media_track/publisher.rs`.  A published track is a
pair of an endpoint and a remote track id; its channel is the hash of room, peer
and track name, so two sessions of one peer share a channel.  The publisher keeps
the channel of every live track and, inverted, the live sources of every channel.

The theorems compare the two maps and the emitted controls with what the inputs
alone say is live (`live`): the maps are inverse to each other, `PubStart` and
`PubStop` of a channel alternate and follow the existence of a source, and
feedback reaches exactly the current sources.
-/

namespace MediaServer.MediaTrack

open Collections Lease Machine Pubsub

/-- What both halves of the media track component emit. -/
inductive Output (Endpoint Feedback : Type) where
  | endpoint (endpoints : List Endpoint) (event : ClusterEndpointEvent)
  | pubsub (control : Pubsub.Control Feedback)
  | onResourceEmpty
deriving DecidableEq

/-! ### The component -/

inductive FeedbackKind where
  | bitrate (min max : UInt64)
  | keyFrameRequest

variable {Endpoint Feedback : Type}

/-- `FeedbackKind::try_from`: other kinds are not for media tracks. -/
def FeedbackKind.tryFrom (api : FeedbackApi Feedback) (value : Feedback) :
    Option FeedbackKind :=
  if api.kind value = 0 then some (.bitrate (api.min value) (api.max value))
  else if api.kind value = 1 then some .keyFrameRequest
  else none

/-- The event a source gets for a feedback. -/
def FeedbackKind.event : FeedbackKind → ClusterRemoteTrackEvent
  | .bitrate min max => .limitBitrate min max
  | .keyFrameRequest => .requestKeyFrame

structure RoomChannelPublisher (Endpoint Feedback : Type) where
  room : ClusterRoomHash
  tracks : IndexMap (Endpoint × RemoteTrackId) (PeerId × TrackName × ChannelId)
  tracksSource : IndexMap ChannelId (IndexSet (Endpoint × RemoteTrackId))
  queue : List (Output Endpoint Feedback)

namespace RoomChannelPublisher

def new (room : ClusterRoomHash) : RoomChannelPublisher Endpoint Feedback := ⟨room, ∅, ∅, []⟩

def isEmpty (p : RoomChannelPublisher Endpoint Feedback) : Bool :=
  p.tracks.isEmpty && p.tracksSource.isEmpty && p.queue.isEmpty

def push (p : RoomChannelPublisher Endpoint Feedback)
    (outputs : List (Output Endpoint Feedback)) : RoomChannelPublisher Endpoint Feedback :=
  { p with queue := p.queue ++ outputs }

def onTrackFeedback (api : FeedbackApi Feedback) (p : RoomChannelPublisher Endpoint Feedback)
    (channel : ChannelId) (fb : Feedback) : RoomChannelPublisher Endpoint Feedback :=
  match FeedbackKind.tryFrom api fb with
  | none => p
  | some fb =>
    match p.tracksSource.get channel with
    | none => p
    | some sources =>
      p.push (sources.toList.map fun source =>
        .endpoint [source.1] (.remoteTrack source.2 fb.event))

variable [DecidableEq Endpoint]

def onTrackPublish (hasher : Hasher) (p : RoomChannelPublisher Endpoint Feedback)
    (endpoint : Endpoint) (track : RemoteTrackId) (peer : PeerId) (name : TrackName) :
    RoomChannelPublisher Endpoint Feedback :=
  let channelId := IdGenerator.genTrackChannelId hasher p.room peer name
  let sources := (p.tracksSource.get channelId).getD ∅
  let start := if sources.isEmpty then [.pubsub ⟨channelId, .pubStart⟩] else []
  { p with
    tracks := p.tracks.insert (endpoint, track) (peer, name, channelId)
    tracksSource := p.tracksSource.insert channelId (sources.insert (endpoint, track))
    queue := p.queue ++ start }

def onTrackData (codec : Bincode MediaPacket) (p : RoomChannelPublisher Endpoint Feedback)
    (endpoint : Endpoint) (track : RemoteTrackId) (media : MediaPacket) :
    RoomChannelPublisher Endpoint Feedback :=
  match p.tracks.get (endpoint, track) with
  | none => p
  | some (_, _, channelId) => p.push [.pubsub ⟨channelId, .pubData (codec.serialize media)⟩]

def onTrackUnpublish (p : RoomChannelPublisher Endpoint Feedback) (endpoint : Endpoint)
    (track : RemoteTrackId) : Except Panic (RoomChannelPublisher Endpoint Feedback) :=
  match p.tracks.get (endpoint, track) with
  | none => .ok p
  | some (_, _, channelId) =>
    let p := { p with tracks := p.tracks.swapRemove (endpoint, track) }
    match p.tracksSource.get channelId with
    | none => .error ⟨"Should have track_source"⟩
    | some sources =>
      if (endpoint, track) ∈ sources then
        let sources := sources.swapRemove (endpoint, track)
        let p := { p with tracksSource := p.tracksSource.insert channelId sources }
        if sources.isEmpty then
          match p.tracksSource.get channelId with
          | none => .error ⟨"Should remove source channel on unpublish"⟩
          | some _ =>
            .ok { p with
              tracksSource := p.tracksSource.swapRemove channelId
              queue := p.queue ++ [.pubsub ⟨channelId, .pubStop⟩] }
        else .ok p
      else .error ⟨"Should remove source child on unpublish"⟩

end RoomChannelPublisher

/-! ### Runs -/

namespace Publisher

inductive Input (Endpoint Feedback : Type) where
  | feedback (channel : ChannelId) (fb : Feedback)
  | publish (endpoint : Endpoint) (track : RemoteTrackId) (peer : PeerId) (name : TrackName)
  | data (endpoint : Endpoint) (track : RemoteTrackId) (media : MediaPacket)
  | unpublish (endpoint : Endpoint) (track : RemoteTrackId)

variable [DecidableEq Endpoint]

def step (hasher : Hasher) (api : FeedbackApi Feedback) (codec : Bincode MediaPacket)
    (p : RoomChannelPublisher Endpoint Feedback) :
    Input Endpoint Feedback → Except Panic (RoomChannelPublisher Endpoint Feedback)
  | .feedback channel fb => .ok (p.onTrackFeedback api channel fb)
  | .publish endpoint track peer name => .ok (p.onTrackPublish hasher endpoint track peer name)
  | .data endpoint track media => .ok (p.onTrackData codec endpoint track media)
  | .unpublish endpoint track => p.onTrackUnpublish endpoint track

/-- What `onTrackUnpublish` does when it does not panic. -/
theorem onTrackUnpublish_cases {p p' : RoomChannelPublisher Endpoint Feedback}
    {endpoint : Endpoint} {track : RemoteTrackId}
    (h : p.onTrackUnpublish endpoint track = .ok p') :
    (p.tracks.get (endpoint, track) = none ∧ p' = p) ∨
    ∃ peer name channelId sources,
      p.tracks.get (endpoint, track) = some (peer, name, channelId) ∧
      p.tracksSource.get channelId = some sources ∧ (endpoint, track) ∈ sources ∧
      p'.room = p.room ∧
      p'.tracks = p.tracks.swapRemove (endpoint, track) ∧
      (((sources.swapRemove (endpoint, track)).isEmpty = true ∧
          p'.tracksSource = (p.tracksSource.insert channelId
            (sources.swapRemove (endpoint, track))).swapRemove channelId ∧
          p'.queue = p.queue ++ [.pubsub ⟨channelId, .pubStop⟩]) ∨
        ((sources.swapRemove (endpoint, track)).isEmpty = false ∧
          p'.tracksSource = p.tracksSource.insert channelId
            (sources.swapRemove (endpoint, track)) ∧
          p'.queue = p.queue)) := by
  unfold RoomChannelPublisher.onTrackUnpublish at h
  split at h
  · rename_i hnone
    cases h
    exact Or.inl ⟨hnone, rfl⟩
  · rename_i peer name channelId hsome
    refine Or.inr ⟨peer, name, channelId, ?_⟩
    simp only at h
    split at h
    · cases h
    · rename_i sources hsources
      refine ⟨sources, hsome, hsources, ?_⟩
      split at h
      · rename_i hmem
        split at h
        · rename_i hempty
          simp only [IndexMap.get_insert_self] at h
          cases h
          exact ⟨hmem, rfl, rfl, Or.inl ⟨hempty, rfl, rfl⟩⟩
        · rename_i hempty
          cases h
          exact ⟨hmem, rfl, rfl, Or.inr ⟨by simpa using hempty, rfl, rfl⟩⟩
      · cases h

theorem step_appends (hasher : Hasher) (api : FeedbackApi Feedback)
    (codec : Bincode MediaPacket) (p : RoomChannelPublisher Endpoint Feedback)
    (i : Input Endpoint Feedback) (p' : RoomChannelPublisher Endpoint Feedback)
    (h : step hasher api codec p i = .ok p') : p.queue <+: p'.queue := by
  cases i with
  | feedback channel fb =>
    cases h
    unfold RoomChannelPublisher.onTrackFeedback
    split
    · exact List.prefix_rfl
    · split
      · exact List.prefix_rfl
      · exact List.prefix_append _ _
  | publish endpoint track peer name =>
    cases h
    exact List.prefix_append _ _
  | data endpoint track media =>
    cases h
    unfold RoomChannelPublisher.onTrackData
    split
    · exact List.prefix_rfl
    · exact List.prefix_append _ _
  | unpublish endpoint track =>
    rcases onTrackUnpublish_cases h with
      ⟨-, rfl⟩ | ⟨_, _, _, _, _, _, _, _, _, ⟨_, _, hqueue⟩ | ⟨_, _, hqueue⟩⟩
    · exact List.prefix_rfl
    · rw [hqueue]; exact List.prefix_append _ _
    · exact ⟨[], by rw [hqueue, List.append_nil]⟩

def machine (hasher : Hasher) (api : FeedbackApi Feedback) (codec : Bincode MediaPacket)
    (room : ClusterRoomHash) :
    Machine (RoomChannelPublisher Endpoint Feedback) (Input Endpoint Feedback)
      (Output Endpoint Feedback) where
  init := .new room
  step := step hasher api codec
  queue := RoomChannelPublisher.queue
  dropFront p := { p with queue := p.queue.tail }
  queue_init := rfl
  queue_dropFront _ := rfl
  step_appends := step_appends hasher api codec

/-! ### What is live, by the inputs alone -/

/-- The channel of every live track, `none` for a track that is not live. -/
abbrev Live (Endpoint : Type) := Endpoint × RemoteTrackId → Option ChannelId

def liveStep (hasher : Hasher) (room : ClusterRoomHash) (live : Live Endpoint) :
    Input Endpoint Feedback → Live Endpoint
  | .publish endpoint track peer name =>
      Function.update live (endpoint, track)
        (some (IdGenerator.genTrackChannelId hasher room peer name))
  | .unpublish endpoint track => Function.update live (endpoint, track) none
  | .feedback _ _ => live
  | .data _ _ _ => live

/-- What is live after a history. -/
def live (hasher : Hasher) (room : ClusterRoomHash)
    (history : History (Input Endpoint Feedback) (Output Endpoint Feedback)) :
    Live Endpoint :=
  (history.map Prod.fst).foldl (liveStep hasher room) (fun _ => none)

theorem live_concat (hasher : Hasher) (room : ClusterRoomHash)
    (history : History (Input Endpoint Feedback) (Output Endpoint Feedback))
    (i : Input Endpoint Feedback) (pushed : List (Output Endpoint Feedback)) :
    live hasher room (history ++ [(i, pushed)]) =
      liveStep hasher room (live hasher room history) i := by
  simp [live]

/-- The room never publishes an endpoint's track that is already live. -/
def FreshPublish (hasher : Hasher) (room : ClusterRoomHash) :
    Contract (RoomChannelPublisher Endpoint Feedback) (Input Endpoint Feedback)
      (Output Endpoint Feedback)
  | history, _, .publish endpoint track _ _ => live hasher room history (endpoint, track) = none
  | _, _, _ => True

instance (hasher : Hasher) (room : ClusterRoomHash)
    (history : History (Input Endpoint Feedback) (Output Endpoint Feedback))
    (p : RoomChannelPublisher Endpoint Feedback) :
    ∀ i, Decidable (FreshPublish hasher room history p i)
  | .publish endpoint track _ _ =>
      inferInstanceAs (Decidable (live hasher room history (endpoint, track) = none))
  | .unpublish _ _ => .isTrue trivial
  | .feedback _ _ => .isTrue trivial
  | .data _ _ _ => .isTrue trivial

/-- The publish commands that a list of outputs carries for one channel. -/
def pubCommand (channel : ChannelId) : Output Endpoint Feedback → Option Lease.Command
  | .pubsub ⟨c, .pubStart⟩ => if c = channel then some .acquire else none
  | .pubsub ⟨c, .pubStop⟩ => if c = channel then some .release else none
  | _ => none

def pubCommands (channel : ChannelId) (outputs : List (Output Endpoint Feedback)) :
    List Lease.Command :=
  outputs.filterMap (pubCommand channel)

omit [DecidableEq Endpoint] in
theorem pubCommands_append (channel : ChannelId)
    (first second : List (Output Endpoint Feedback)) :
    pubCommands channel (first ++ second) =
      pubCommands channel first ++ pubCommands channel second :=
  List.filterMap_append

/-! ### The invariant -/

/-- The maps, the trace and the inputs agree on what is live. -/
structure Inv (hasher : Hasher) (room : ClusterRoomHash)
    (history : History (Input Endpoint Feedback) (Output Endpoint Feedback))
    (p : RoomChannelPublisher Endpoint Feedback) : Prop where
  room_eq : p.room = room
  tracks : ∀ key, (p.tracks.get key).map (fun track => track.2.2) =
    live hasher room history key
  sources : ∀ channel key, key ∈ (p.tracksSource.get channel).getD ∅ ↔
    live hasher room history key = some channel
  nonempty : ∀ channel sources, p.tracksSource.get channel = some sources →
    ∃ key, key ∈ sources
  lease : ∀ channel, LeaseTrace (pubCommands channel (emitted history))
    (∃ key, live hasher room history key = some channel)

variable {hasher : Hasher} {room : ClusterRoomHash} {api : FeedbackApi Feedback}
  {codec : Bincode MediaPacket}
  {history : History (Input Endpoint Feedback) (Output Endpoint Feedback)}
  {p p' : RoomChannelPublisher Endpoint Feedback}

theorem inv_init :
    Inv hasher room [] (.new room : RoomChannelPublisher Endpoint Feedback) where
  room_eq := rfl
  tracks _ := rfl
  sources channel key := by simp [RoomChannelPublisher.new, live]
  nonempty channel sources h := by simp [RoomChannelPublisher.new] at h
  lease channel := LeaseTrace.nil (by simp [live])

/-- An input that leaves the maps alone and pushes no start or stop. -/
theorem Inv.frame (h : Inv hasher room history p) {i : Input Endpoint Feedback}
    {pushed : List (Output Endpoint Feedback)}
    (hlive : ∀ live, liveStep hasher room live i = live)
    (hroom : p'.room = p.room) (htracks : p'.tracks = p.tracks)
    (hsources : p'.tracksSource = p.tracksSource)
    (hpushed : ∀ channel, pubCommands channel pushed = []) :
    Inv hasher room (history ++ [(i, pushed)]) p' where
  room_eq := hroom.trans h.room_eq
  tracks key := by rw [live_concat, hlive, htracks, h.tracks]
  sources channel key := by rw [live_concat, hlive, hsources, h.sources]
  nonempty channel sources hget := h.nonempty channel sources (hsources ▸ hget)
  lease channel := by
    rw [live_concat, hlive, emitted_concat, pubCommands_append, hpushed, List.append_nil]
    exact h.lease channel

theorem Inv.dropFront (h : Inv hasher room history p) :
    Inv hasher room history { p with queue := p.queue.tail } :=
  ⟨h.room_eq, h.tracks, h.sources, h.nonempty, h.lease⟩

theorem Inv.publish (h : Inv hasher room history p) {endpoint : Endpoint}
    {track : RemoteTrackId} {peer : PeerId} {name : TrackName}
    (hfresh : live hasher room history (endpoint, track) = none) :
    Inv hasher room
      (history ++ [(Input.publish endpoint track peer name,
        (machine hasher api codec room).pushed p
          (p.onTrackPublish hasher endpoint track peer name))])
      (p.onTrackPublish hasher endpoint track peer name) := by
  set p' := p.onTrackPublish hasher endpoint track peer name with hp'
  set channelId := IdGenerator.genTrackChannelId hasher room peer name with hchannel
  set sources := (p.tracksSource.get channelId).getD ∅ with hsources
  have hroom : p.room = room := h.room_eq
  have hlive : live hasher room
      (history ++ [(Input.publish endpoint track peer name,
        (machine hasher api codec room).pushed p p')]) =
      Function.update (live hasher room history) (endpoint, track) (some channelId) :=
    live_concat _ _ _ _ _
  have hpushed : (machine hasher api codec room).pushed p p' =
      if sources.isEmpty then [.pubsub ⟨channelId, .pubStart⟩] else [] := by
    apply pushed_eq_of_append
    simp [machine, hp', RoomChannelPublisher.onTrackPublish, hroom, ← hchannel, ← hsources]
  have htracks : p'.tracks = p.tracks.insert (endpoint, track) (peer, name, channelId) := by
    simp [hp', RoomChannelPublisher.onTrackPublish, hroom, ← hchannel]
  have hsource : p'.tracksSource =
      p.tracksSource.insert channelId (sources.insert (endpoint, track)) := by
    simp [hp', RoomChannelPublisher.onTrackPublish, hroom, ← hchannel, ← hsources]
  refine ⟨hroom, ?_, ?_, ?_, ?_⟩
  · intro key
    rw [hlive, htracks, IndexMap.get_insert]
    by_cases hkey : key = (endpoint, track)
    · simp [hkey]
    · rw [if_neg hkey, Function.update_of_ne hkey]
      exact h.tracks key
  · intro channel key
    rw [hlive, hsource, IndexMap.get_insert]
    by_cases hch : channel = channelId
    · subst hch
      rw [if_pos rfl, Option.getD_some, IndexSet.mem_insert, hsources, h.sources]
      by_cases hkey : key = (endpoint, track)
      · simp [hkey]
      · simp [hkey]
    · rw [if_neg hch, h.sources]
      by_cases hkey : key = (endpoint, track)
      · subst hkey
        simp [hfresh, Ne.symm hch]
      · rw [Function.update_of_ne hkey]
  · intro channel set hget
    rw [hsource, IndexMap.get_insert] at hget
    split at hget
    · cases hget
      exact ⟨(endpoint, track), by simp⟩
    · exact h.nonempty channel set hget
  · intro channel
    rw [hlive, emitted_concat, pubCommands_append, hpushed]
    -- the first source of a channel is the one that starts it
    refine (h.lease channel).register hfresh ?_ ?_ ?_
    · rintro rfl hnone
      have hempty : sources.isEmpty = true := by
        refine IndexSet.isEmpty_iff.mpr fun key hkey => ?_
        exact hnone ⟨key, (h.sources channelId key).mp hkey⟩
      simp [hempty, pubCommands, pubCommand]
    · rintro rfl ⟨key, hkey⟩
      have hempty : sources.isEmpty = false :=
        IndexSet.isEmpty_eq_false_iff.mpr ⟨key, (h.sources channelId key).mpr hkey⟩
      simp [hempty, pubCommands]
    · intro hne
      split <;> simp [pubCommands, pubCommand, Ne.symm hne]

/-- No `expect` of `on_track_unpublish` fires where the invariant holds. -/
theorem Inv.unpublish_ok (h : Inv hasher room history p) (endpoint : Endpoint)
    (track : RemoteTrackId) : ∃ p', p.onTrackUnpublish endpoint track = .ok p' := by
  unfold RoomChannelPublisher.onTrackUnpublish
  cases htrack : p.tracks.get (endpoint, track) with
  | none => exact ⟨p, rfl⟩
  | some value =>
    obtain ⟨peer, name, channelId⟩ := value
    have hlive : live hasher room history (endpoint, track) = some channelId := by
      rw [← h.tracks, htrack]
      rfl
    have hmem := (h.sources channelId (endpoint, track)).mpr hlive
    cases hsource : p.tracksSource.get channelId with
    | none => simp [hsource] at hmem
    | some sources =>
      rw [hsource, Option.getD_some] at hmem
      simp only [hsource, if_pos hmem, IndexMap.get_insert_self]
      split <;> exact ⟨_, rfl⟩

theorem Inv.unpublish (h : Inv hasher room history p) {endpoint : Endpoint}
    {track : RemoteTrackId} (hp' : p.onTrackUnpublish endpoint track = .ok p') :
    Inv hasher room
      (history ++ [(Input.unpublish endpoint track, (machine hasher api codec room).pushed p p')])
      p' := by
  have hlive : live hasher room
      (history ++ [(Input.unpublish endpoint track, (machine hasher api codec room).pushed p p')]) =
      Function.update (live hasher room history) (endpoint, track) none :=
    live_concat _ _ _ _ _
  rcases onTrackUnpublish_cases hp' with
    ⟨hnone, rfl⟩ | ⟨peer, name, channelId, sources, htrack, hget, hmem, hroom, htracks, hrest⟩
  · -- the track was not live: nothing changes, not even what is live
    have hdead : live hasher room history (endpoint, track) = none := by
      rw [← h.tracks, hnone]
      rfl
    have hsame : Function.update (live hasher room history) (endpoint, track) none =
        live hasher room history := by
      rw [← hdead, Function.update_eq_self]
    have hpushed : (machine hasher api codec room).pushed p' p' = [] :=
      pushed_eq_of_append _ (by simp)
    refine ⟨h.room_eq, ?_, ?_, h.nonempty, ?_⟩
    · intro key; rw [hlive, hsame, h.tracks]
    · intro channel key; rw [hlive, hsame, h.sources]
    · intro channel
      rw [hlive, hsame, emitted_concat, hpushed, List.append_nil]
      exact h.lease channel
  · have hwas : live hasher room history (endpoint, track) = some channelId := by
      rw [← h.tracks, htrack]
      rfl
    have hmemIff : ∀ key, key ∈ sources ↔ live hasher room history key = some channelId := by
      intro key
      rw [← h.sources, hget, Option.getD_some]
    have hremain : ∀ key, key ∈ sources.swapRemove (endpoint, track) ↔
        Function.update (live hasher room history) (endpoint, track) none key =
          some channelId := by
      intro key
      rw [IndexSet.mem_swapRemove, hmemIff]
      by_cases hkey : key = (endpoint, track)
      · simp [hkey]
      · simp [hkey]
    have hother : ∀ channel key, channel ≠ channelId →
        (live hasher room history key = some channel ↔
          Function.update (live hasher room history) (endpoint, track) none key =
            some channel) := by
      intro channel key hch
      by_cases hkey : key = (endpoint, track)
      · subst hkey
        simp [hwas, Ne.symm hch]
      · rw [Function.update_of_ne hkey]
    have htracksField : ∀ key, (p'.tracks.get key).map (fun track => track.2.2) =
        Function.update (live hasher room history) (endpoint, track) none key := by
      intro key
      rw [htracks, IndexMap.get_swapRemove]
      by_cases hkey : key = (endpoint, track)
      · simp [hkey]
      · rw [if_neg hkey, Function.update_of_ne hkey]
        exact h.tracks key
    rcases hrest with ⟨hempty, hsource, hqueue⟩ | ⟨hempty, hsource, hqueue⟩
    · -- the last source of the channel went: the channel is stopped
      have hnone := IndexSet.isEmpty_iff.mp hempty
      have hpushed : (machine hasher api codec room).pushed p p' =
          [.pubsub ⟨channelId, .pubStop⟩] := pushed_eq_of_append _ hqueue
      have hgetSource : ∀ channel, p'.tracksSource.get channel =
          if channel = channelId then none else p.tracksSource.get channel := by
        intro channel
        rw [hsource, IndexMap.get_swapRemove]
        split
        · rfl
        · rename_i hne
          rw [IndexMap.get_insert_ne _ _ hne]
      refine ⟨hroom.trans h.room_eq, ?_, ?_, ?_, ?_⟩
      · intro key; rw [hlive]; exact htracksField key
      · intro channel key
        rw [hlive, hgetSource]
        by_cases hch : channel = channelId
        · subst hch
          simp [← hremain, hnone]
        · rw [if_neg hch, h.sources]
          exact hother channel key hch
      · intro channel set hset
        rw [hgetSource] at hset
        split at hset
        · cases hset
        · exact h.nonempty channel set hset
      · intro channel
        rw [hlive, emitted_concat, pubCommands_append, hpushed]
        refine (h.lease channel).unregister hwas ?_ ?_ ?_
        · rintro rfl -
          simp [pubCommands, pubCommand]
        · rintro rfl ⟨key, hkey⟩
          exact absurd ((hremain key).mpr hkey) (hnone key)
        · intro hne
          simp [pubCommands, pubCommand, Ne.symm hne]
    · obtain ⟨witness, hwitness⟩ := IndexSet.isEmpty_eq_false_iff.mp hempty
      have hpushed : (machine hasher api codec room).pushed p p' = [] :=
        pushed_eq_of_append _ (by rw [List.append_nil]; exact hqueue)
      refine ⟨hroom.trans h.room_eq, ?_, ?_, ?_, ?_⟩
      · intro key; rw [hlive]; exact htracksField key
      · intro channel key
        rw [hlive, hsource, IndexMap.get_insert]
        by_cases hch : channel = channelId
        · subst hch
          rw [if_pos rfl, Option.getD_some]
          exact hremain key
        · rw [if_neg hch, h.sources]
          exact hother channel key hch
      · intro channel set hset
        rw [hsource, IndexMap.get_insert] at hset
        split at hset
        · cases hset
          exact ⟨witness, hwitness⟩
        · exact h.nonempty channel set hset
      · intro channel
        rw [hlive, emitted_concat, pubCommands_append, hpushed]
        refine (h.lease channel).unregister hwas ?_ (fun _ _ => rfl) (fun _ => rfl)
        rintro rfl hnone
        exact absurd ⟨witness, (hremain witness).mp hwitness⟩ hnone

/-! ### Feedback -/

/-- The messages that tell one source after the other about a feedback. -/
def feedbackOutputs (sources : List (Endpoint × RemoteTrackId)) (event : ClusterRemoteTrackEvent) :
    List (Output Endpoint Feedback) :=
  sources.map fun source => .endpoint [source.1] (.remoteTrack source.2 event)

omit [DecidableEq Endpoint] in
theorem nodup_feedbackOutputs {sources : List (Endpoint × RemoteTrackId)}
    (h : sources.Nodup) (event : ClusterRemoteTrackEvent) :
    (feedbackOutputs sources event : List (Output Endpoint Feedback)).Nodup := by
  refine h.map ?_
  rintro ⟨e, t⟩ ⟨e', t'⟩ heq
  simp only [Output.endpoint.injEq, ClusterEndpointEvent.remoteTrack.injEq, List.cons.injEq] at heq
  simp [heq.1.1, heq.2.1]

omit [DecidableEq Endpoint] in
theorem pushed_feedback (api : FeedbackApi Feedback)
    (p : RoomChannelPublisher Endpoint Feedback) (channel : ChannelId) (fb : Feedback) :
    (p.onTrackFeedback api channel fb) = p.push
      (match FeedbackKind.tryFrom api fb with
        | none => []
        | some kind =>
          feedbackOutputs ((p.tracksSource.get channel).getD ∅).toList kind.event) := by
  unfold RoomChannelPublisher.onTrackFeedback
  cases FeedbackKind.tryFrom api fb with
  | none => simp [RoomChannelPublisher.push]
  | some kind =>
    cases p.tracksSource.get channel with
    | none =>
      have hnil : (∅ : IndexSet (Endpoint × RemoteTrackId)).toList = [] := rfl
      simp [RoomChannelPublisher.push, feedbackOutputs, hnil]
    | some sources => rfl

omit [DecidableEq Endpoint] in
theorem pubCommands_feedbackOutputs (channel : ChannelId)
    (sources : List (Endpoint × RemoteTrackId)) (event : ClusterRemoteTrackEvent) :
    pubCommands channel (feedbackOutputs sources event : List (Output Endpoint Feedback)) = [] := by
  simp [pubCommands, feedbackOutputs, List.filterMap_map, Function.comp_def, pubCommand]

/-- **Every admissible input keeps the invariant and panics nowhere.** -/
theorem inv_step (h : Inv hasher room history p) {i : Input Endpoint Feedback}
    (hok : FreshPublish hasher room history p i) :
    ∃ p', step hasher api codec p i = .ok p' ∧
      Inv hasher room (history ++ [(i, (machine hasher api codec room).pushed p p')]) p' := by
  cases i with
  | feedback channel fb =>
    refine ⟨_, rfl, h.frame (fun _ => rfl) ?_ ?_ ?_ ?_⟩
    · rw [pushed_feedback]; rfl
    · rw [pushed_feedback]; rfl
    · rw [pushed_feedback]; rfl
    · intro ch
      rw [pushed_feedback, pushed_eq_of_append _ rfl]
      cases FeedbackKind.tryFrom api fb with
      | none => rfl
      | some kind => exact pubCommands_feedbackOutputs _ _ _
  | publish endpoint track peer name => exact ⟨_, rfl, h.publish hok⟩
  | data endpoint track media =>
    refine ⟨_, rfl, ?_⟩
    unfold RoomChannelPublisher.onTrackData
    cases p.tracks.get (endpoint, track) with
    | none =>
      have hpushed : (machine hasher api codec room).pushed p p = [] :=
        pushed_eq_of_append _ (by simp)
      exact h.frame (fun _ => rfl) rfl rfl rfl (fun _ => by rw [hpushed]; rfl)
    | some value =>
      refine h.frame (fun _ => rfl) rfl rfl rfl fun ch => ?_
      rw [pushed_eq_of_append _ rfl]
      simp [pubCommands, pubCommand]
  | unpublish endpoint track =>
    obtain ⟨p', hp'⟩ := h.unpublish_ok endpoint track
    exact ⟨p', hp', h.unpublish hp'⟩

/-! ### Main result -/

/-- The two maps say the same about every track and no source set is empty. -/
structure Consistent (p : RoomChannelPublisher Endpoint Feedback) : Prop where
  inverse : ∀ key channel,
    (∃ peer name, p.tracks.get key = some (peer, name, channel)) ↔
      ∃ sources, p.tracksSource.get channel = some sources ∧ key ∈ sources
  nonempty : ∀ channel sources, p.tracksSource.get channel = some sources →
    ∃ key, key ∈ sources

theorem Inv.consistent (h : Inv hasher room history p) : Consistent p where
  inverse key channel := by
    have htrack : (∃ peer name, p.tracks.get key = some (peer, name, channel)) ↔
        live hasher room history key = some channel := by
      rw [← h.tracks]
      cases p.tracks.get key with
      | none => simp
      | some value => obtain ⟨peer, name, c⟩ := value; simp
    have hsource : (∃ sources, p.tracksSource.get channel = some sources ∧ key ∈ sources) ↔
        key ∈ (p.tracksSource.get channel).getD ∅ := by
      cases p.tracksSource.get channel with
      | none => simp
      | some sources => simp
    rw [htrack, hsource, h.sources]
  nonempty := h.nonempty

/-- What a feedback on a channel must push: one message for each source. -/
def DeliveredToSources (live : Live Endpoint) (channel : ChannelId)
    (event : ClusterRemoteTrackEvent) (pushed : List (Output Endpoint Feedback)) : Prop :=
  pushed.Nodup ∧ ∀ output, output ∈ pushed ↔
    ∃ endpoint track, live (endpoint, track) = some channel ∧
      output = .endpoint [endpoint] (.remoteTrack track event)

theorem Inv.delivered (h : Inv hasher room history p) {channel : ChannelId} {fb : Feedback}
    {kind : FeedbackKind} (hkind : FeedbackKind.tryFrom api fb = some kind) :
    DeliveredToSources (live hasher room history) channel kind.event
      ((machine hasher api codec room).pushed p (p.onTrackFeedback api channel fb)) := by
  rw [pushed_feedback, pushed_eq_of_append _ rfl, hkind]
  refine ⟨nodup_feedbackOutputs (IndexSet.nodup_toList _) _, fun output => ?_⟩
  simp only [feedbackOutputs, List.mem_map, IndexSet.mem_toList, h.sources, Prod.exists]
  exact exists_congr fun e => exists_congr fun t => and_congr_right fun _ => eq_comm

/-- **Media publisher consistency.** Along every run that never publishes a live
    track again, nothing panics, the two maps are inverse to each other without
    empty source sets, the start and stop commands of every channel alternate and
    a start is outstanding exactly while the channel has a source, and a feedback
    of a known kind is delivered exactly once to each current source of its
    channel and to nobody else, one of an unknown kind to nobody. -/
theorem publisher_consistency (hasher : Hasher) (api : FeedbackApi Feedback)
    (codec : Bincode MediaPacket) (room : ClusterRoomHash)
    (acts : List (Action (Input Endpoint Feedback)))
    (hacts : (machine hasher api codec room).Admits (FreshPublish hasher room) acts) :
    ∃ c, (machine hasher api codec room).run acts = .ok c ∧
      Consistent c.state ∧
      (∀ channel, StrictlyAlternates (pubCommands channel (emitted c.history)) ∧
        (Outstanding (pubCommands channel (emitted c.history)) ↔
          ∃ key, live hasher room c.history key = some channel)) ∧
      (∀ channel fb kind, FeedbackKind.tryFrom api fb = some kind →
        DeliveredToSources (live hasher room c.history) channel kind.event
          ((machine hasher api codec room).pushed c.state
            (c.state.onTrackFeedback api channel fb))) ∧
      (∀ channel fb, FeedbackKind.tryFrom api fb = none →
        (machine hasher api codec room).pushed c.state
          (c.state.onTrackFeedback api channel fb) = []) := by
  obtain ⟨c, hrun, hinv⟩ := run_progress (M := machine hasher api codec room)
    (FreshPublish hasher room) (Inv hasher room) inv_init
    (fun _ _ _ hinv hok => inv_step hinv hok) (fun _ _ hinv => hinv.dropFront) hacts
  refine ⟨c, hrun, hinv.consistent, ?_, ?_, ?_⟩
  · exact fun channel => ⟨(hinv.lease channel).alternates, (hinv.lease channel).outstanding⟩
  · exact fun channel fb kind hkind => hinv.delivered hkind
  · intro channel fb hkind
    rw [pushed_feedback, pushed_eq_of_append _ rfl, hkind]

/-- Two sessions of one peer publish the same track name; the first one ends. -/
def twoSessions : List (Action (Input Nat PlainFeedback)) :=
  [.input (.publish 1 5 "alice" "cam"), .input (.publish 2 5 "alice" "cam"), .pop,
    .input (.unpublish 1 5)]

/-- A codec to evaluate the model with, on which nothing here depends. -/
def emptyCodec : Bincode MediaPacket := ⟨fun _ => [], fun _ => none⟩

theorem twoSessions_admits :
    (machine fnv1a PlainFeedback.api emptyCodec 0).Admits (FreshPublish fnv1a 0) twoSessions :=
  AdmitsFrom.admits (by decide +kernel)

theorem publisher_consistency_twoSessions :
    ∃ c, (machine fnv1a PlainFeedback.api emptyCodec 0).run twoSessions = .ok c ∧
      Consistent c.state :=
  (publisher_consistency fnv1a PlainFeedback.api emptyCodec 0 twoSessions twoSessions_admits).imp
    fun _ h => ⟨h.1, h.2.1⟩

/-- A feedback of a kind that is not for media tracks reaches no source. -/
theorem unknown_feedback_not_delivered :
    ∃ c, (machine fnv1a PlainFeedback.api emptyCodec 0).run
        [.input (.publish 1 5 "alice" "cam")] = .ok c ∧
      live fnv1a 0 c.history (1, 5) =
        some (IdGenerator.genTrackChannelId fnv1a 0 "alice" "cam") ∧
      ∀ event, ¬ DeliveredToSources (live fnv1a 0 c.history)
        (IdGenerator.genTrackChannelId fnv1a 0 "alice" "cam") event
        ((machine fnv1a PlainFeedback.api emptyCodec 0).pushed c.state
          (c.state.onTrackFeedback PlainFeedback.api
            (IdGenerator.genTrackChannelId fnv1a 0 "alice" "cam") ⟨2, 0, 0⟩)) := by
  refine ⟨_, rfl, rfl, fun event h => ?_⟩
  have hmem := (h.2 (.endpoint [1] (.remoteTrack 5 event))).mpr ⟨1, 5, rfl, rfl⟩
  rw [pushed_feedback, pushed_eq_of_append _ rfl] at hmem
  have hkind : FeedbackKind.tryFrom PlainFeedback.api ⟨2, 0, 0⟩ = none := by decide
  rw [hkind] at hmem
  exact absurd hmem List.not_mem_nil

end Publisher

end MediaServer.MediaTrack
