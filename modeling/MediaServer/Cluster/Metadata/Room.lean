import MediaServer.Lib.IndexMap
import MediaServer.Lib.Lease
import MediaServer.Lib.Machine
import MediaServer.Cluster.IdGenerator

/-!
# Room metadata

`media_core/src/cluster/room/metadata.rs`.  A room publishes the peers and tracks
of its local endpoints in DHT maps and subscribes to the maps its endpoints are
interested in: the room's peers map, the room's tracks map, or the private map of
one peer.  What a subscribed map delivers is cached (`clusterPeers`,
`clusterTracks`) and forwarded to the endpoints that asked for it.

This module holds the component; its last section says once, for every input,
what the step does to each field and to the queue.
-/

namespace MediaServer.Metadata

open Collections Machine DhtKv

/-- What a joined endpoint publishes and which peers it follows by hand. -/
structure PeerContainer where
  peer : PeerId
  publish : RoomInfoPublish
  subPeers : IndexSet PeerId
  pubTracks : IndexMap RemoteTrackId TrackName

inductive Output (Endpoint : Type) where
  | kv (control : DhtKv.Control)
  | endpoint (endpoints : List Endpoint) (event : ClusterEndpointEvent)
  | onResourceEmpty
deriving DecidableEq

variable {Endpoint : Type}

/-- The two room maps are fixed by the room. -/
structure RoomMetadata (Endpoint : Type) where
  room : ClusterRoomHash
  peersMap : Map
  tracksMap : Map
  peers : IndexMap Endpoint PeerContainer
  peersMapSubscribers : IndexSet Endpoint
  tracksMapSubscribers : IndexSet Endpoint
  peersTracksSubs : IndexMap Map (IndexSet Endpoint)
  clusterPeers : IndexMap Key PeerInfo
  clusterTracks : IndexMap Key TrackInfo
  queue : List (Output Endpoint)
  peersMap_eq : peersMap = IdGenerator.peersMap room
  tracksMap_eq : tracksMap = IdGenerator.tracksMap room

/-- How the two records of the DHT are encoded. -/
structure Codecs where
  peer : Bincode PeerInfo
  track : Bincode TrackInfo

/-- Codecs to evaluate the model with, for runs in which nothing is decoded. -/
def Codecs.blank : Codecs := ⟨⟨fun _ => [], fun _ => none⟩, ⟨fun _ => [], fun _ => none⟩⟩

namespace RoomMetadata

def new (room : ClusterRoomHash) : RoomMetadata Endpoint where
  room := room
  peersMap := IdGenerator.peersMap room
  tracksMap := IdGenerator.tracksMap room
  peers := ∅
  peersMapSubscribers := ∅
  tracksMapSubscribers := ∅
  peersTracksSubs := ∅
  clusterPeers := ∅
  clusterTracks := ∅
  queue := []
  peersMap_eq := rfl
  tracksMap_eq := rfl

def isEmpty (s : RoomMetadata Endpoint) : Bool :=
  s.queue.isEmpty && s.peers.isEmpty && s.peersMapSubscribers.isEmpty &&
    s.tracksMapSubscribers.isEmpty && s.peersTracksSubs.isEmpty

def push (s : RoomMetadata Endpoint) (outputs : List (Output Endpoint)) :
    RoomMetadata Endpoint :=
  { s with queue := s.queue ++ outputs }

/-- The private map of a peer in this room. -/
def peerMapOf (hasher : Hasher) (s : RoomMetadata Endpoint) (peer : PeerId) : Map :=
  IdGenerator.peerMap hasher s.room peer

/-! ### Events of the DHT -/

/-- `on_peers_kv_event`: `none` is a deletion. -/
def onPeersKvEvent (codecs : Codecs) (s : RoomMetadata Endpoint) (peerKey : Key)
    (data : Option Bytes) : RoomMetadata Endpoint :=
  let subscribers := s.peersMapSubscribers.toList
  match data with
  | some data =>
    match codecs.peer.deserialize data with
    | none => s
    | some info =>
      let s := { s with clusterPeers := s.clusterPeers.insert peerKey info }
      if subscribers.isEmpty then s
      else s.push [.endpoint subscribers (.peerJoined info.peer info.peerMeta)]
  | none =>
    match s.clusterPeers.get peerKey with
    | none => s
    | some info =>
      let s := { s with clusterPeers := s.clusterPeers.swapRemove peerKey }
      if subscribers.isEmpty then s
      else s.push [.endpoint subscribers (.peerLeaved info.peer info.peerMeta)]

/-- `on_tracks_kv_event`: an event of the room's tracks map. -/
def onTracksKvEvent (codecs : Codecs) (s : RoomMetadata Endpoint) (track : Key)
    (data : Option Bytes) : RoomMetadata Endpoint :=
  let subscribers := s.tracksMapSubscribers.toList
  match data with
  | some data =>
    match codecs.track.deserialize data with
    | none => s
    | some info =>
      let s := { s with clusterTracks := s.clusterTracks.insert track info }
      if subscribers.isEmpty then s
      else s.push [.endpoint subscribers (.trackStarted info.peer info.track info.trackMeta)]
  | none =>
    match s.clusterTracks.get track with
    | none => s
    | some info =>
      let s := { s with clusterTracks := s.clusterTracks.swapRemove track }
      if subscribers.isEmpty then s
      else s.push [.endpoint subscribers (.trackStopped info.peer info.track info.trackMeta)]

/-- `on_peers_tracks_kv_event`: an event of a peer's private map. -/
def onPeersTracksKvEvent (codecs : Codecs) (s : RoomMetadata Endpoint) (peerMap : Map)
    (track : Key) (data : Option Bytes) : RoomMetadata Endpoint :=
  match data with
  | some data =>
    match codecs.track.deserialize data with
    | none => s
    | some info =>
      match s.peersTracksSubs.get peerMap with
      | none => s
      | some subs =>
        { s with clusterTracks := s.clusterTracks.insert track info }.push
          [.endpoint subs.toList (.trackStarted info.peer info.track info.trackMeta)]
  | none =>
    match s.peersTracksSubs.get peerMap with
    | none => s
    | some subs =>
      match s.clusterTracks.get track with
      | none => s
      | some info =>
        { s with clusterTracks := s.clusterTracks.swapRemove track }.push
          [.endpoint subs.toList (.trackStopped info.peer info.track info.trackMeta)]

def onKvEvent (codecs : Codecs) (s : RoomMetadata Endpoint) (map : Map) :
    MapEvent → RoomMetadata Endpoint
  | .onSet key _ data =>
    if s.peersMap = map then s.onPeersKvEvent codecs key (some data)
    else if s.tracksMap = map then s.onTracksKvEvent codecs key (some data)
    else if s.peersTracksSubs.contains map then s.onPeersTracksKvEvent codecs map key (some data)
    else s
  | .onDel key _ =>
    if s.peersMap = map then s.onPeersKvEvent codecs key none
    else if s.tracksMap = map then s.onTracksKvEvent codecs key none
    else if s.peersTracksSubs.contains map then s.onPeersTracksKvEvent codecs map key none
    else s
  | .onRelaySelected _ => s

/-! ### Operations of the endpoints -/

variable [DecidableEq Endpoint]

def getPeerFromEndpoint (s : RoomMetadata Endpoint) (endpoint : Endpoint) :
    Option PeerId :=
  (s.peers.get endpoint).map PeerContainer.peer

/-- The part of `on_join` for an endpoint that wants the peers map: the cached
    peers are replayed to it and the first subscriber subscribes the room. -/
def joinPeersMap (s : RoomMetadata Endpoint) (endpoint : Endpoint) :
    RoomMetadata Endpoint :=
  let subscribers := s.peersMapSubscribers.insert endpoint
  let restore := s.clusterPeers.values.map fun info =>
    .endpoint [endpoint] (.peerJoined info.peer info.peerMeta)
  let sub := if subscribers.len = 1 then [.kv ⟨s.peersMap, .sub⟩] else []
  { s with peersMapSubscribers := subscribers, queue := s.queue ++ restore ++ sub }

def joinTracksMap (s : RoomMetadata Endpoint) (endpoint : Endpoint) :
    RoomMetadata Endpoint :=
  let subscribers := s.tracksMapSubscribers.insert endpoint
  let restore := s.clusterTracks.values.map fun info =>
    .endpoint [endpoint] (.trackStarted info.peer info.track info.trackMeta)
  let sub := if subscribers.len = 1 then [.kv ⟨s.tracksMap, .sub⟩] else []
  { s with tracksMapSubscribers := subscribers, queue := s.queue ++ restore ++ sub }

def onJoin (hasher : Hasher) (codecs : Codecs) (s : RoomMetadata Endpoint) (endpoint : Endpoint)
    (peer : PeerId) (peerMeta : PeerMeta) (publish : RoomInfoPublish)
    (subscribe : RoomInfoSubscribe) : RoomMetadata Endpoint :=
  let s := { s with peers := s.peers.insert endpoint ⟨peer, publish, ∅, ∅⟩ }
  let peerKey := IdGenerator.peersKey hasher peer
  let s :=
    if publish.peer then
      s.push [.kv ⟨s.peersMap, .set peerKey (codecs.peer.serialize ⟨peer, peerMeta⟩)⟩]
    else s
  let s := if subscribe.peers then s.joinPeersMap endpoint else s
  if subscribe.tracks then s.joinTracksMap endpoint else s

/-- The last loop of `on_leave`: give up the private maps the endpoint follows. -/
def leaveTargets (hasher : Hasher) (s : RoomMetadata Endpoint) (endpoint : Endpoint) :
    List PeerId → Except Panic (RoomMetadata Endpoint)
  | [] => .ok s
  | target :: rest =>
    let targetPeerMap := s.peerMapOf hasher target
    match s.peersTracksSubs.get targetPeerMap with
    | none => .error ⟨"Should have private peer_map"⟩
    | some subs =>
      let subs := subs.swapRemove endpoint
      if subs.isEmpty then
        leaveTargets hasher
          { s with
            peersTracksSubs := s.peersTracksSubs.swapRemove targetPeerMap
            queue := s.queue ++ [.kv ⟨targetPeerMap, .unsub⟩] } endpoint rest
      else
        leaveTargets hasher
          { s with peersTracksSubs := s.peersTracksSubs.insert targetPeerMap subs } endpoint rest

/-- The deletions of `on_leave` for the tracks that are still published. -/
def trackDels (hasher : Hasher) (s : RoomMetadata Endpoint) (peer : PeerId)
    (tracks : List TrackName) : List (Output Endpoint) :=
  tracks.flatMap fun track =>
    [.kv ⟨s.tracksMap, .del (IdGenerator.tracksKey hasher peer track)⟩,
      .kv ⟨s.peerMapOf hasher peer, .del (IdGenerator.tracksKey hasher peer track)⟩]

/-- `on_leave` up to its last loop. -/
def leaveRoom (hasher : Hasher) (s : RoomMetadata Endpoint) (endpoint : Endpoint)
    (container : PeerContainer) : RoomMetadata Endpoint :=
  let delPeer :=
    if container.publish.peer then
      [.kv ⟨s.peersMap, .del (IdGenerator.peersKey hasher container.peer)⟩] else []
  let delTracks := s.trackDels hasher container.peer container.pubTracks.values
  let peersSubs := s.peersMapSubscribers.swapRemove endpoint
  let unsubPeers :=
    if endpoint ∈ s.peersMapSubscribers ∧ peersSubs.isEmpty then
      [.kv ⟨s.peersMap, .unsub⟩] else []
  let tracksSubs := s.tracksMapSubscribers.swapRemove endpoint
  let unsubTracks :=
    if endpoint ∈ s.tracksMapSubscribers ∧ tracksSubs.isEmpty then
      [.kv ⟨s.tracksMap, .unsub⟩] else []
  { s with
    peers := s.peers.swapRemove endpoint
    peersMapSubscribers := peersSubs
    tracksMapSubscribers := tracksSubs
    queue := s.queue ++ (delPeer ++ delTracks ++ unsubPeers ++ unsubTracks) }

def onLeave (hasher : Hasher) (s : RoomMetadata Endpoint) (endpoint : Endpoint) :
    Except Panic (RoomMetadata Endpoint) :=
  match s.peers.get endpoint with
  | none => .ok s
  | some container =>
    (s.leaveRoom hasher endpoint container).leaveTargets hasher endpoint container.subPeers.toList

def onSubscribePeer (hasher : Hasher) (s : RoomMetadata Endpoint) (endpoint : Endpoint)
    (target : PeerId) : Except Panic (RoomMetadata Endpoint) :=
  match s.peers.get endpoint with
  | none => .error ⟨"Should have peer"⟩
  | some container =>
    let targetPeerMap := s.peerMapOf hasher target
    let subs := (s.peersTracksSubs.get targetPeerMap).getD ∅
    let sub := if subs.isEmpty then [.kv ⟨targetPeerMap, .sub⟩] else []
    .ok { s with
      peersTracksSubs := s.peersTracksSubs.insert targetPeerMap (subs.insert endpoint)
      peers := s.peers.insert endpoint
        { container with subPeers := container.subPeers.insert target }
      queue := s.queue ++ sub }

def onUnsubscribePeer (hasher : Hasher) (s : RoomMetadata Endpoint) (endpoint : Endpoint)
    (target : PeerId) : Except Panic (RoomMetadata Endpoint) :=
  match s.peers.get endpoint with
  | none => .error ⟨"Should have peer"⟩
  | some container =>
    let targetPeerMap := s.peerMapOf hasher target
    let subs := ((s.peersTracksSubs.get targetPeerMap).getD ∅).swapRemove endpoint
    let s := { s with
      peers := s.peers.insert endpoint
        { container with subPeers := container.subPeers.swapRemove target } }
    if subs.isEmpty then
      .ok { s with
        peersTracksSubs := s.peersTracksSubs.swapRemove targetPeerMap
        queue := s.queue ++ [.kv ⟨targetPeerMap, .unsub⟩] }
    else .ok { s with peersTracksSubs := s.peersTracksSubs.insert targetPeerMap subs }

def onTrackPublish (hasher : Hasher) (codecs : Codecs) (s : RoomMetadata Endpoint)
    (endpoint : Endpoint) (trackId : RemoteTrackId) (track : TrackName) (trackMeta : TrackMeta) :
    RoomMetadata Endpoint :=
  match s.peers.get endpoint with
  | none => s
  | some container =>
    if container.publish.tracks then
      let info := codecs.track.serialize ⟨container.peer, track, trackMeta⟩
      let trackKey := IdGenerator.tracksKey hasher container.peer track
      { s with
        peers := s.peers.insert endpoint
          { container with pubTracks := container.pubTracks.insert trackId track }
        queue := s.queue ++
          [.kv ⟨s.tracksMap, .set trackKey info⟩,
            .kv ⟨s.peerMapOf hasher container.peer, .set trackKey info⟩] }
    else s

def onTrackUnpublish (hasher : Hasher) (s : RoomMetadata Endpoint) (endpoint : Endpoint)
    (trackId : RemoteTrackId) : RoomMetadata Endpoint :=
  match s.peers.get endpoint with
  | none => s
  | some container =>
    match container.pubTracks.get trackId with
    | none => s
    | some track =>
      { s with
        peers := s.peers.insert endpoint
          { container with pubTracks := container.pubTracks.swapRemove trackId }
        queue := s.queue ++ s.trackDels hasher container.peer [track] }

end RoomMetadata

/-! ### Runs -/

inductive Input (Endpoint : Type) where
  | join (endpoint : Endpoint) (peer : PeerId) (peerMeta : PeerMeta)
      (publish : RoomInfoPublish) (subscribe : RoomInfoSubscribe)
  | leave (endpoint : Endpoint)
  | subscribePeer (endpoint : Endpoint) (target : PeerId)
  | unsubscribePeer (endpoint : Endpoint) (target : PeerId)
  | trackPublish (endpoint : Endpoint) (trackId : RemoteTrackId) (track : TrackName)
      (trackMeta : TrackMeta)
  | trackUnpublish (endpoint : Endpoint) (trackId : RemoteTrackId)
  | kvEvent (map : Map) (event : MapEvent)

variable [DecidableEq Endpoint]

def step (hasher : Hasher) (codecs : Codecs) (s : RoomMetadata Endpoint) :
    Input Endpoint → Except Panic (RoomMetadata Endpoint)
  | .join endpoint peer peerMeta publish subscribe =>
      .ok (s.onJoin hasher codecs endpoint peer peerMeta publish subscribe)
  | .leave endpoint => s.onLeave hasher endpoint
  | .subscribePeer endpoint target => s.onSubscribePeer hasher endpoint target
  | .unsubscribePeer endpoint target => s.onUnsubscribePeer hasher endpoint target
  | .trackPublish endpoint trackId track trackMeta =>
      .ok (s.onTrackPublish hasher codecs endpoint trackId track trackMeta)
  | .trackUnpublish endpoint trackId => .ok (s.onTrackUnpublish hasher endpoint trackId)
  | .kvEvent map event => .ok (s.onKvEvent codecs map event)

/-! ### What a step does -/

/-- What `onJoin` pushes. -/
def joinOutputs (hasher : Hasher) (codecs : Codecs) (s : RoomMetadata Endpoint)
    (endpoint : Endpoint) (peer : PeerId) (peerMeta : PeerMeta) (publish : RoomInfoPublish)
    (subscribe : RoomInfoSubscribe) : List (Output Endpoint) :=
  (if publish.peer then
    [.kv ⟨s.peersMap, .set (IdGenerator.peersKey hasher peer)
      (codecs.peer.serialize ⟨peer, peerMeta⟩)⟩] else []) ++
  ((if subscribe.peers then
    (s.clusterPeers.values.map fun info =>
      .endpoint [endpoint] (.peerJoined info.peer info.peerMeta)) ++
    if (s.peersMapSubscribers.insert endpoint).len = 1 then [.kv ⟨s.peersMap, .sub⟩] else []
    else []) ++
  if subscribe.tracks then
    (s.clusterTracks.values.map fun info =>
      .endpoint [endpoint] (.trackStarted info.peer info.track info.trackMeta)) ++
    if (s.tracksMapSubscribers.insert endpoint).len = 1 then [.kv ⟨s.tracksMap, .sub⟩] else []
  else [])

theorem onJoin_eq (hasher : Hasher) (codecs : Codecs) (s : RoomMetadata Endpoint)
    (endpoint : Endpoint) (peer : PeerId) (peerMeta : PeerMeta) (publish : RoomInfoPublish)
    (subscribe : RoomInfoSubscribe) :
    s.onJoin hasher codecs endpoint peer peerMeta publish subscribe =
      { s with
        peers := s.peers.insert endpoint ⟨peer, publish, ∅, ∅⟩
        peersMapSubscribers :=
          if subscribe.peers then s.peersMapSubscribers.insert endpoint
          else s.peersMapSubscribers
        tracksMapSubscribers :=
          if subscribe.tracks then s.tracksMapSubscribers.insert endpoint
          else s.tracksMapSubscribers
        queue := s.queue ++ joinOutputs hasher codecs s endpoint peer peerMeta publish subscribe } := by
  obtain ⟨pubPeer, pubTracks⟩ := publish
  obtain ⟨subPeers, subTracks⟩ := subscribe
  -- the three flags are independent, and every combination is a computation
  cases pubPeer <;> cases subPeers <;> cases subTracks <;>
    simp [RoomMetadata.onJoin, joinOutputs, RoomMetadata.joinPeersMap,
      RoomMetadata.joinTracksMap, RoomMetadata.push]

def unsubOutputs (maps : List Map) : List (Output Endpoint) :=
  maps.map fun map => .kv ⟨map, .unsub⟩

/-- The last loop of `onLeave` touches the private subscriptions only. -/
theorem leaveTargets_frame {hasher : Hasher} {s s' : RoomMetadata Endpoint}
    {endpoint : Endpoint} {targets : List PeerId}
    (h : s.leaveTargets hasher endpoint targets = .ok s') :
    ∃ maps, s' = { s with
      peersTracksSubs := s'.peersTracksSubs
      queue := s.queue ++ unsubOutputs maps } := by
  induction targets generalizing s with
  | nil =>
    cases h
    exact ⟨[], by simp [unsubOutputs]⟩
  | cons target rest ih =>
    simp only [RoomMetadata.leaveTargets] at h
    split at h
    · cases h
    · split at h
      · obtain ⟨maps, hmaps⟩ := ih h
        refine ⟨s.peerMapOf hasher target :: maps, ?_⟩
        rw [hmaps]
        simp [unsubOutputs]
      · obtain ⟨maps, hmaps⟩ := ih h
        refine ⟨maps, ?_⟩
        rw [hmaps]

/-- What `onLeave` does when it does not panic. -/
theorem onLeave_cases {hasher : Hasher} {s s' : RoomMetadata Endpoint} {endpoint : Endpoint}
    (h : s.onLeave hasher endpoint = .ok s') :
    (s.peers.get endpoint = none ∧ s' = s) ∨
    ∃ container maps, s.peers.get endpoint = some container ∧
      s' = { s.leaveRoom hasher endpoint container with
        peersTracksSubs := s'.peersTracksSubs
        queue := (s.leaveRoom hasher endpoint container).queue ++ unsubOutputs maps } := by
  simp only [RoomMetadata.onLeave] at h
  split at h
  · rename_i hnone
    cases h
    exact Or.inl ⟨hnone, rfl⟩
  · rename_i container hsome
    obtain ⟨maps, hmaps⟩ := leaveTargets_frame h
    exact Or.inr ⟨container, maps, hsome, hmaps⟩

theorem onSubscribePeer_cases {hasher : Hasher} {s s' : RoomMetadata Endpoint}
    {endpoint : Endpoint} {target : PeerId}
    (h : s.onSubscribePeer hasher endpoint target = .ok s') :
    ∃ container, s.peers.get endpoint = some container ∧
      s' = { s with
        peersTracksSubs := s.peersTracksSubs.insert (s.peerMapOf hasher target)
          (((s.peersTracksSubs.get (s.peerMapOf hasher target)).getD ∅).insert endpoint)
        peers := s.peers.insert endpoint
          { container with subPeers := container.subPeers.insert target }
        queue := s.queue ++
          if ((s.peersTracksSubs.get (s.peerMapOf hasher target)).getD ∅).isEmpty then
            [.kv ⟨s.peerMapOf hasher target, .sub⟩] else [] } := by
  simp only [RoomMetadata.onSubscribePeer] at h
  split at h
  · cases h
  · rename_i container hsome
    cases h
    exact ⟨container, hsome, rfl⟩

/-- The private subscribers that remain when an endpoint gives one map up. -/
def remaining (s : RoomMetadata Endpoint) (map : Map) (endpoint : Endpoint) :
    IndexSet Endpoint :=
  ((s.peersTracksSubs.get map).getD ∅).swapRemove endpoint

theorem onUnsubscribePeer_cases {hasher : Hasher} {s s' : RoomMetadata Endpoint}
    {endpoint : Endpoint} {target : PeerId}
    (h : s.onUnsubscribePeer hasher endpoint target = .ok s') :
    ∃ container, s.peers.get endpoint = some container ∧
      s' = { s with
        peersTracksSubs :=
          if (remaining s (s.peerMapOf hasher target) endpoint).isEmpty then
            s.peersTracksSubs.swapRemove (s.peerMapOf hasher target)
          else s.peersTracksSubs.insert (s.peerMapOf hasher target)
            (remaining s (s.peerMapOf hasher target) endpoint)
        peers := s.peers.insert endpoint
          { container with subPeers := container.subPeers.swapRemove target }
        queue := s.queue ++
          if (remaining s (s.peerMapOf hasher target) endpoint).isEmpty then
            [.kv ⟨s.peerMapOf hasher target, .unsub⟩] else [] } := by
  simp only [RoomMetadata.onUnsubscribePeer] at h
  split at h
  · cases h
  · rename_i container hsome
    refine ⟨container, hsome, ?_⟩
    unfold remaining
    split at h
    · rename_i hempty
      cases h
      simp only [if_pos hempty]
    · rename_i hempty
      cases h
      simp only [if_neg hempty, List.append_nil]

/-- The outputs of one event that goes to a list of endpoints; some of the
    handlers leave an output without addressees out. -/
inductive Tells (endpoints : List Endpoint) (event : ClusterEndpointEvent) :
    List (Output Endpoint) → Prop
  | sent : Tells endpoints event [.endpoint endpoints event]
  | nobody : endpoints = [] → Tells endpoints event []

/-- Who is told about the track events of a map; `none` if they are ignored. -/
def trackListeners (s : RoomMetadata Endpoint) (map : Map) : Option (List Endpoint) :=
  if s.peersMap = map then none
  else if s.tracksMap = map then some s.tracksMapSubscribers.toList
  else (s.peersTracksSubs.get map).map IndexSet.toList

omit [DecidableEq Endpoint] in
theorem tells_of_isEmpty (s : RoomMetadata Endpoint) (endpoints : List Endpoint)
    (event : ClusterEndpointEvent) :
    ∃ outputs, Tells endpoints event outputs ∧
      (if endpoints.isEmpty then s else s.push [.endpoint endpoints event]) =
        { s with queue := s.queue ++ outputs } := by
  by_cases hempty : endpoints.isEmpty
  · refine ⟨[], .nobody (List.isEmpty_iff.mp hempty), ?_⟩
    simp [hempty]
  · exact ⟨_, .sent, by simp [hempty, RoomMetadata.push]⟩

omit [DecidableEq Endpoint] in
/-- A track that a map announces is cached and told to the map's listeners. -/
theorem onKvEvent_track_set {codecs : Codecs} {s : RoomMetadata Endpoint} {map : Map}
    (key : Key) (source : NodeId) {data : Bytes} {listeners : List Endpoint} {info : TrackInfo}
    (hlisten : trackListeners s map = some listeners)
    (hinfo : codecs.track.deserialize data = some info) :
    ∃ outputs, Tells listeners (.trackStarted info.peer info.track info.trackMeta) outputs ∧
      s.onKvEvent codecs map (.onSet key source data) =
        { s with
          clusterTracks := s.clusterTracks.insert key info
          queue := s.queue ++ outputs } := by
  unfold trackListeners at hlisten
  split at hlisten
  · cases hlisten
  · rename_i hpeers
    split at hlisten
    · rename_i htracks
      cases hlisten
      simp only [RoomMetadata.onKvEvent, if_neg hpeers, if_pos htracks,
        RoomMetadata.onTracksKvEvent, hinfo]
      exact tells_of_isEmpty _ _ _
    · rename_i htracks
      obtain ⟨subs, hsubs, rfl⟩ := Option.map_eq_some_iff.mp hlisten
      refine ⟨_, .sent, ?_⟩
      simp [RoomMetadata.onKvEvent, hpeers, htracks, IndexMap.contains, hsubs,
        RoomMetadata.onPeersTracksKvEvent, hinfo, RoomMetadata.push]

omit [DecidableEq Endpoint] in
/-- A cached track that a map withdraws is forgotten and the map's listeners are
    told; a track that is not cached any more is not. -/
theorem onKvEvent_track_del (codecs : Codecs) {s : RoomMetadata Endpoint} {map : Map}
    (key : Key) (source : NodeId) {listeners : List Endpoint}
    (hlisten : trackListeners s map = some listeners) :
    (s.clusterTracks.get key = none ∧ s.onKvEvent codecs map (.onDel key source) = s) ∨
    ∃ info outputs, s.clusterTracks.get key = some info ∧
      Tells listeners (.trackStopped info.peer info.track info.trackMeta) outputs ∧
      s.onKvEvent codecs map (.onDel key source) =
        { s with
          clusterTracks := s.clusterTracks.swapRemove key
          queue := s.queue ++ outputs } := by
  unfold trackListeners at hlisten
  split at hlisten
  · cases hlisten
  · rename_i hpeers
    split at hlisten
    · rename_i htracks
      cases hlisten
      simp only [RoomMetadata.onKvEvent, if_neg hpeers, if_pos htracks,
        RoomMetadata.onTracksKvEvent]
      cases s.clusterTracks.get key with
      | none => exact Or.inl ⟨rfl, rfl⟩
      | some info =>
        obtain ⟨outputs, htells, heq⟩ := tells_of_isEmpty
          { s with clusterTracks := s.clusterTracks.swapRemove key }
          s.tracksMapSubscribers.toList (.trackStopped info.peer info.track info.trackMeta)
        exact Or.inr ⟨info, outputs, rfl, htells, heq⟩
    · rename_i htracks
      obtain ⟨subs, hsubs, rfl⟩ := Option.map_eq_some_iff.mp hlisten
      simp only [RoomMetadata.onKvEvent, if_neg hpeers, if_neg htracks, IndexMap.contains, hsubs,
        RoomMetadata.onPeersTracksKvEvent, Option.isSome_some, if_true]
      cases s.clusterTracks.get key with
      | none => exact Or.inl ⟨rfl, rfl⟩
      | some info => exact Or.inr ⟨info, _, rfl, .sent, rfl⟩

omit [DecidableEq Endpoint] in
/-- Events of a map that nobody follows, of a relay, or with bytes that are no
    track, are ignored. -/
theorem onKvEvent_ignored {codecs : Codecs} {s : RoomMetadata Endpoint} {map : Map}
    {event : MapEvent} (hmap : s.peersMap ≠ map)
    (hignored : trackListeners s map = none ∨
      (∀ key source data, event = .onSet key source data →
        codecs.track.deserialize data = none) ∧ ∀ key source, event ≠ .onDel key source) :
    s.onKvEvent codecs map event = s := by
  cases event with
  | onRelaySelected node => rfl
  | onSet key source data =>
    simp only [RoomMetadata.onKvEvent, if_neg hmap]
    rcases hignored with hlisten | ⟨hdata, -⟩
    · have htracks : s.tracksMap ≠ map := by
        intro heq
        simp [trackListeners, hmap, heq] at hlisten
      simp only [trackListeners, if_neg hmap, if_neg htracks, Option.map_eq_none_iff] at hlisten
      simp [htracks, IndexMap.contains, hlisten]
    · have hnone := hdata key source data rfl
      simp [RoomMetadata.onTracksKvEvent, RoomMetadata.onPeersTracksKvEvent, hnone]
  | onDel key source =>
    simp only [RoomMetadata.onKvEvent, if_neg hmap]
    rcases hignored with hlisten | ⟨-, hdel⟩
    · have htracks : s.tracksMap ≠ map := by
        intro heq
        simp [trackListeners, hmap, heq] at hlisten
      simp only [trackListeners, if_neg hmap, if_neg htracks, Option.map_eq_none_iff] at hlisten
      simp [htracks, IndexMap.contains, hlisten]
    · exact absurd rfl (hdel key source)

omit [DecidableEq Endpoint] in
/-- The peers map: its events change the cached peers and are told to its
    subscribers. -/
theorem onKvEvent_peers (codecs : Codecs) (s : RoomMetadata Endpoint) (event : MapEvent) :
    ((∀ key source data, event = .onSet key source data → codecs.peer.deserialize data = none) ∧
      (∀ key source, event = .onDel key source → s.clusterPeers.get key = none) ∧
      s.onKvEvent codecs s.peersMap event = s) ∨
    (∃ key source data info outputs, event = .onSet key source data ∧
      codecs.peer.deserialize data = some info ∧
      Tells s.peersMapSubscribers.toList (.peerJoined info.peer info.peerMeta) outputs ∧
      s.onKvEvent codecs s.peersMap event =
        { s with
          clusterPeers := s.clusterPeers.insert key info
          queue := s.queue ++ outputs }) ∨
    (∃ key source info outputs, event = .onDel key source ∧
      s.clusterPeers.get key = some info ∧
      Tells s.peersMapSubscribers.toList (.peerLeaved info.peer info.peerMeta) outputs ∧
      s.onKvEvent codecs s.peersMap event =
        { s with
          clusterPeers := s.clusterPeers.swapRemove key
          queue := s.queue ++ outputs }) := by
  cases event with
  | onRelaySelected node => exact Or.inl ⟨by simp, by simp, rfl⟩
  | onSet key source data =>
    simp only [RoomMetadata.onKvEvent, if_true, RoomMetadata.onPeersKvEvent]
    cases hinfo : codecs.peer.deserialize data with
    | none =>
      refine Or.inl ⟨?_, by simp, rfl⟩
      intro key' source' data' heq
      cases heq
      exact hinfo
    | some info =>
      obtain ⟨outputs, htells, heq⟩ := tells_of_isEmpty
        { s with clusterPeers := s.clusterPeers.insert key info }
        s.peersMapSubscribers.toList (.peerJoined info.peer info.peerMeta)
      exact Or.inr (Or.inl ⟨key, source, data, info, outputs, rfl, hinfo, htells, heq⟩)
  | onDel key source =>
    simp only [RoomMetadata.onKvEvent, if_true, RoomMetadata.onPeersKvEvent]
    cases hinfo : s.clusterPeers.get key with
    | none =>
      refine Or.inl ⟨by simp, ?_, rfl⟩
      intro key' source' heq
      cases heq
      exact hinfo
    | some info =>
      obtain ⟨outputs, htells, heq⟩ := tells_of_isEmpty
        { s with clusterPeers := s.clusterPeers.swapRemove key }
        s.peersMapSubscribers.toList (.peerLeaved info.peer info.peerMeta)
      exact Or.inr (Or.inr ⟨key, source, info, outputs, rfl, hinfo, htells, heq⟩)

/-- Outputs that go to endpoints, none to the DHT. -/
def ToEndpoints (outputs : List (Output Endpoint)) : Prop :=
  ∀ output ∈ outputs, ∃ endpoints event, output = .endpoint endpoints event

omit [DecidableEq Endpoint] in
theorem Tells.toEndpoints {endpoints : List Endpoint} {event : ClusterEndpointEvent}
    {outputs : List (Output Endpoint)} (h : Tells endpoints event outputs) :
    ToEndpoints outputs := by
  intro output hmem
  cases h with
  | sent => exact ⟨_, _, List.mem_singleton.mp hmem⟩
  | nobody _ => cases hmem

omit [DecidableEq Endpoint] in
/-- An event of the DHT changes the caches and talks to endpoints only. -/
theorem onKvEvent_frame (codecs : Codecs) (s : RoomMetadata Endpoint) (map : Map)
    (event : MapEvent) :
    ∃ clusterPeers clusterTracks outputs, ToEndpoints outputs ∧
      s.onKvEvent codecs map event =
        { s with
          clusterPeers := clusterPeers
          clusterTracks := clusterTracks
          queue := s.queue ++ outputs } := by
  have hsame : s.onKvEvent codecs map event = s →
      ∃ clusterPeers clusterTracks outputs, ToEndpoints outputs ∧
        s.onKvEvent codecs map event =
          { s with
            clusterPeers := clusterPeers
            clusterTracks := clusterTracks
            queue := s.queue ++ outputs } := by
    intro heq
    exact ⟨s.clusterPeers, s.clusterTracks, [], by simp [ToEndpoints], by simp [heq]⟩
  by_cases hmap : s.peersMap = map
  · subst hmap
    rcases onKvEvent_peers codecs s event with
      ⟨-, -, heq⟩ | ⟨_, _, _, _, _, -, -, htells, heq⟩ | ⟨_, _, _, _, -, -, htells, heq⟩
    · exact hsame heq
    · exact ⟨_, _, _, htells.toEndpoints, heq⟩
    · exact ⟨_, _, _, htells.toEndpoints, heq⟩
  · cases hlisten : trackListeners s map with
    | none => exact hsame (onKvEvent_ignored hmap (Or.inl hlisten))
    | some listeners =>
      cases event with
      | onRelaySelected node => exact hsame rfl
      | onSet key source data =>
        cases hinfo : codecs.track.deserialize data with
        | none =>
          refine hsame (onKvEvent_ignored hmap (Or.inr ⟨?_, by simp⟩))
          intro key' source' data' heq
          cases heq
          exact hinfo
        | some info =>
          obtain ⟨outputs, htells, heq⟩ := onKvEvent_track_set key source hlisten hinfo
          exact ⟨_, _, outputs, htells.toEndpoints, heq⟩
      | onDel key source =>
        rcases onKvEvent_track_del codecs key source hlisten with
          ⟨-, heq⟩ | ⟨info, outputs, -, htells, heq⟩
        · exact hsame heq
        · exact ⟨_, _, outputs, htells.toEndpoints, heq⟩

theorem onTrackPublish_cases (hasher : Hasher) (codecs : Codecs) (s : RoomMetadata Endpoint)
    (endpoint : Endpoint) (trackId : RemoteTrackId) (track : TrackName)
    (trackMeta : TrackMeta) :
    (s.onTrackPublish hasher codecs endpoint trackId track trackMeta = s ∧
      ∀ container, s.peers.get endpoint = some container → container.publish.tracks = false) ∨
    ∃ container, s.peers.get endpoint = some container ∧ container.publish.tracks = true ∧
      s.onTrackPublish hasher codecs endpoint trackId track trackMeta =
        { s with
          peers := s.peers.insert endpoint
            { container with pubTracks := container.pubTracks.insert trackId track }
          queue := s.queue ++
            [.kv ⟨s.tracksMap, .set (IdGenerator.tracksKey hasher container.peer track)
                (codecs.track.serialize ⟨container.peer, track, trackMeta⟩)⟩,
              .kv ⟨s.peerMapOf hasher container.peer,
                .set (IdGenerator.tracksKey hasher container.peer track)
                  (codecs.track.serialize ⟨container.peer, track, trackMeta⟩)⟩] } := by
  unfold RoomMetadata.onTrackPublish
  cases hget : s.peers.get endpoint with
  | none => exact Or.inl ⟨rfl, by simp⟩
  | some container =>
    cases htracks : container.publish.tracks with
    | false => exact Or.inl ⟨by simp [htracks], by simp [htracks]⟩
    | true => exact Or.inr ⟨container, rfl, htracks, by simp [htracks]⟩

theorem onTrackUnpublish_cases (hasher : Hasher) (s : RoomMetadata Endpoint)
    (endpoint : Endpoint) (trackId : RemoteTrackId) :
    (s.onTrackUnpublish hasher endpoint trackId = s ∧
      ∀ container, s.peers.get endpoint = some container →
        container.pubTracks.get trackId = none) ∨
    ∃ container track, s.peers.get endpoint = some container ∧
      container.pubTracks.get trackId = some track ∧
      s.onTrackUnpublish hasher endpoint trackId =
        { s with
          peers := s.peers.insert endpoint
            { container with pubTracks := container.pubTracks.swapRemove trackId }
          queue := s.queue ++ s.trackDels hasher container.peer [track] } := by
  unfold RoomMetadata.onTrackUnpublish
  cases hget : s.peers.get endpoint with
  | none => exact Or.inl ⟨rfl, by simp⟩
  | some container =>
    cases htrack : container.pubTracks.get trackId with
    | none => exact Or.inl ⟨by simp [htrack], by simp [htrack]⟩
    | some track => exact Or.inr ⟨container, track, rfl, htrack, by simp [htrack]⟩

theorem step_appends (hasher : Hasher) (codecs : Codecs) (s : RoomMetadata Endpoint)
    (i : Input Endpoint) (s' : RoomMetadata Endpoint) (h : step hasher codecs s i = .ok s') :
    s.queue <+: s'.queue := by
  cases i with
  | join endpoint peer peerMeta publish subscribe =>
    cases h
    rw [onJoin_eq]
    exact List.prefix_append _ _
  | leave endpoint =>
    rcases onLeave_cases h with ⟨-, rfl⟩ | ⟨container, maps, -, heq⟩
    · exact List.prefix_rfl
    · rw [heq]
      exact (List.prefix_append _ _).trans (List.prefix_append _ _)
  | subscribePeer endpoint target =>
    obtain ⟨container, -, rfl⟩ := onSubscribePeer_cases h
    exact List.prefix_append _ _
  | unsubscribePeer endpoint target =>
    obtain ⟨container, -, rfl⟩ := onUnsubscribePeer_cases h
    exact List.prefix_append _ _
  | trackPublish endpoint trackId track trackMeta =>
    cases h
    rcases onTrackPublish_cases hasher codecs s endpoint trackId track trackMeta with
      ⟨heq, -⟩ | ⟨container, -, -, heq⟩
    · exact ⟨[], by rw [heq, List.append_nil]⟩
    · rw [heq]
      exact List.prefix_append _ _
  | trackUnpublish endpoint trackId =>
    cases h
    rcases onTrackUnpublish_cases hasher s endpoint trackId with
      ⟨heq, -⟩ | ⟨container, track, -, -, heq⟩
    · exact ⟨[], by rw [heq, List.append_nil]⟩
    · rw [heq]
      exact List.prefix_append _ _
  | kvEvent map event =>
    cases h
    obtain ⟨_, _, outputs, -, heq⟩ := onKvEvent_frame codecs s map event
    rw [heq]
    exact List.prefix_append _ _

def machine (hasher : Hasher) (codecs : Codecs) (room : ClusterRoomHash) :
    Machine (RoomMetadata Endpoint) (Input Endpoint) (Output Endpoint) where
  init := .new room
  step := step hasher codecs
  queue := RoomMetadata.queue
  dropFront s := { s with queue := s.queue.tail }
  queue_init := rfl
  queue_dropFront _ := rfl
  step_appends := step_appends hasher codecs

end MediaServer.Metadata
