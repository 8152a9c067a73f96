import MediaServer.Cluster.Metadata.Subscription
import MediaServer.Cluster.Metadata.TrackView

/-!
# Views and the content of the subscribed maps

A subscribing endpoint learns the content of a map from events, and what it
missed before it joined from a cache.  Its view should be the content of the map
as delivered since the room subscribed it.  The cache outlives the subscription,
though: nothing clears it when the last subscriber leaves, and events of private
maps write to the same table as those of the tracks map.

The main result gives conditions under which the views are right after every run:
the caches are empty whenever a first subscriber joins, and events of private maps
do not change which tracks are cached while the tracks map is subscribed.
-/

namespace MediaServer.Metadata

open Collections Lease Machine DhtKv

variable {Endpoint : Type} [DecidableEq Endpoint]

/-! ### Views and contents, by the history alone -/

/-- An endpoint sees a peer join or leave. -/
def seePeer (view : PeerId → Bool) : ClusterEndpointEvent → PeerId → Bool
  | .peerJoined peer _ => Function.update view peer true
  | .peerLeaved peer _ => Function.update view peer false
  | _ => view

def joins (endpoint : Endpoint) : Input Endpoint → Bool
  | .join other _ _ _ _ => other = endpoint
  | _ => false

def peerViewStep (endpoint : Endpoint) (view : PeerId → Bool)
    (entry : Input Endpoint × List (Output Endpoint)) : PeerId → Bool :=
  (sentTo endpoint entry.2).foldl seePeer
    (if joins endpoint entry.1 then fun _ => false else view)

/-- The peers an endpoint believes present: those it was told about since it joined
    and not told to have left. -/
def peerView (endpoint : Endpoint) (history : History (Input Endpoint) (Output Endpoint)) :
    PeerId → Bool :=
  history.foldl (peerViewStep endpoint) (fun _ => false)

/-- An event of the map changes its content. -/
def contentEvent {α : Type} (decode : Bytes → Option α) (map : Map) (content : Key → Option α) :
    Input Endpoint → Key → Option α
  | .kvEvent m (.onSet key _ data) =>
      if m = map then Function.update content key (decode data) else content
  | .kvEvent m (.onDel key _) =>
      if m = map then Function.update content key none else content
  | _ => content

def contentStep {α : Type} (decode : Bytes → Option α) (map : Map) (content : Key → Option α)
    (entry : Input Endpoint × List (Output Endpoint)) : Key → Option α :=
  if .kv ⟨map, .sub⟩ ∈ entry.2 then fun _ => none
  else contentEvent decode map content entry.1

/-- The content of a map as delivered since the room last subscribed it. -/
def content {α : Type} (decode : Bytes → Option α) (map : Map)
    (history : History (Input Endpoint) (Output Endpoint)) : Key → Option α :=
  history.foldl (contentStep decode map) (fun _ => none)

theorem peerView_concat (endpoint : Endpoint)
    (history : History (Input Endpoint) (Output Endpoint)) (i : Input Endpoint)
    (pushed : List (Output Endpoint)) :
    peerView endpoint (history ++ [(i, pushed)]) =
      peerViewStep endpoint (peerView endpoint history) (i, pushed) := by
  simp [peerView]

theorem content_concat {α : Type} (decode : Bytes → Option α) (map : Map)
    (history : History (Input Endpoint) (Output Endpoint)) (i : Input Endpoint)
    (pushed : List (Output Endpoint)) :
    content decode map (history ++ [(i, pushed)]) =
      contentStep decode map (content decode map history) (i, pushed) := by
  simp [content]

/-- **What should hold of the peers.** Every subscriber of the peers map believes
    present exactly the peers of the map's content. -/
def PeersConverge (codecs : Codecs) (room : ClusterRoomHash)
    (history : History (Input Endpoint) (Output Endpoint)) : Prop :=
  ∀ endpoint session, registry history endpoint = some session →
    session.subscribe.peers = true → ∀ peer, peerView endpoint history peer = true ↔
      ∃ key info, content codecs.peer.deserialize (IdGenerator.peersMap room) history key =
        some info ∧ info.peer = peer

/-- **What should hold of the tracks.** Every subscriber of the tracks map is told on
    its join exactly the tracks of the map's content. -/
def TracksRestored (codecs : Codecs) (room : ClusterRoomHash)
    (history : History (Input Endpoint) (Output Endpoint)) : Prop :=
  ∀ earlier endpoint peer peerMeta publish subscribe pushed later,
    history = earlier ++ (.join endpoint peer peerMeta publish subscribe, pushed) :: later →
    subscribe.tracks = true → ∀ name track,
      (∃ trackMeta, .trackStarted name track trackMeta ∈ sentTo endpoint pushed) ↔
        ∃ key info, content codecs.track.deserialize (IdGenerator.tracksMap room)
            (earlier ++ [(Input.join endpoint peer peerMeta publish subscribe, pushed)]) key =
          some info ∧ info.peer = name ∧ info.track = track

/-! ### What is assumed and what is required -/

/-- The data is the info of one of these peers, under the key of its name. -/
def GenuinePeer (hasher : Hasher) (codecs : Codecs) (names : Set PeerId) (key : Key)
    (data : Bytes) : Prop :=
  ∃ info, codecs.peer.deserialize data = some info ∧
    key = IdGenerator.peersKey hasher info.peer ∧ info.peer ∈ names

/-- The data is the info of one of these tracks, under the key of its name. -/
def GenuineTrack (hasher : Hasher) (codecs : Codecs) (tracks : Set (PeerId × TrackName))
    (key : Key) (data : Bytes) : Prop :=
  ∃ info, codecs.track.deserialize data = some info ∧
    key = IdGenerator.tracksKey hasher info.peer info.track ∧ (info.peer, info.track) ∈ tracks

/-- What the maps carry is what rooms publish. -/
def Genuine (hasher : Hasher) (codecs : Codecs) (room : ClusterRoomHash) (names : Set PeerId)
    (tracks : Set (PeerId × TrackName)) :
    Contract (RoomMetadata Endpoint) (Input Endpoint) (Output Endpoint)
  | _, _, .kvEvent map (.onSet key _ data) =>
      if map = IdGenerator.peersMap room then GenuinePeer hasher codecs names key data
      else GenuineTrack hasher codecs tracks key data
  | _, _, _ => True

instance (hasher : Hasher) (codecs : Codecs) (names : Set PeerId) [DecidablePred (· ∈ names)]
    (key : Key) (data : Bytes) : Decidable (GenuinePeer hasher codecs names key data) :=
  match h : codecs.peer.deserialize data with
  | none => .isFalse (by simp [GenuinePeer, h])
  | some info => decidable_of_iff
      (key = IdGenerator.peersKey hasher info.peer ∧ info.peer ∈ names) (by simp [GenuinePeer, h])

instance (hasher : Hasher) (codecs : Codecs) (tracks : Set (PeerId × TrackName))
    [DecidablePred (· ∈ tracks)] (key : Key) (data : Bytes) :
    Decidable (GenuineTrack hasher codecs tracks key data) :=
  match h : codecs.track.deserialize data with
  | none => .isFalse (by simp [GenuineTrack, h])
  | some info => decidable_of_iff
      (key = IdGenerator.tracksKey hasher info.peer info.track ∧
        (info.peer, info.track) ∈ tracks) (by simp [GenuineTrack, h])

instance (hasher : Hasher) (codecs : Codecs) (room : ClusterRoomHash) (names : Set PeerId)
    (tracks : Set (PeerId × TrackName)) [DecidablePred (· ∈ names)] [DecidablePred (· ∈ tracks)]
    (history : History (Input Endpoint) (Output Endpoint)) (s : RoomMetadata Endpoint) :
    ∀ i, Decidable (Genuine hasher codecs room names tracks history s i)
  | .kvEvent map (.onSet key _ data) =>
      inferInstanceAs (Decidable (if map = IdGenerator.peersMap room then
        GenuinePeer hasher codecs names key data else GenuineTrack hasher codecs tracks key data))
  | .kvEvent _ (.onDel _ _) => .isTrue trivial
  | .kvEvent _ (.onRelaySelected _) => .isTrue trivial
  | .join _ _ _ _ _ => .isTrue trivial
  | .leave _ => .isTrue trivial
  | .subscribePeer _ _ => .isTrue trivial
  | .unsubscribePeer _ _ => .isTrue trivial
  | .trackPublish _ _ _ _ => .isTrue trivial
  | .trackUnpublish _ _ => .isTrue trivial

/-- The keys of these peers and of these tracks do not collide. -/
structure KeysDistinct (hasher : Hasher) (names : Set PeerId)
    (tracks : Set (PeerId × TrackName)) : Prop where
  peers : Set.InjOn (IdGenerator.peersKey hasher) names
  tracks : Set.InjOn (fun name : PeerId × TrackName =>
    IdGenerator.tracksKey hasher name.1 name.2) tracks

/-- The caches are empty when a first subscriber joins, and while the tracks map is
    subscribed an event of a private map leaves the cached keys as they are. -/
def FreshCaches : Contract (RoomMetadata Endpoint) (Input Endpoint) (Output Endpoint)
  | _, s, .join _ _ _ _ subscribe =>
      (subscribe.peers = true → s.peersMapSubscribers.isEmpty = true →
        s.clusterPeers.isEmpty = true) ∧
      (subscribe.tracks = true → s.tracksMapSubscribers.isEmpty = true →
        s.clusterTracks.isEmpty = true)
  | _, s, .kvEvent map (.onSet key _ _) =>
      map ≠ s.tracksMap → (trackListeners s map).isSome = true →
        s.tracksMapSubscribers.isEmpty = false → s.clusterTracks.contains key = true
  | _, s, .kvEvent map (.onDel key _) =>
      map ≠ s.tracksMap → (trackListeners s map).isSome = true →
        s.tracksMapSubscribers.isEmpty = false → s.clusterTracks.contains key = false
  | _, _, _ => True

instance (history : History (Input Endpoint) (Output Endpoint)) (s : RoomMetadata Endpoint) :
    ∀ i, Decidable (FreshCaches history s i)
  | .join _ _ _ _ _ => inferInstanceAs (Decidable ((_ → _ → _) ∧ (_ → _ → _)))
  | .kvEvent _ (.onSet _ _ _) => inferInstanceAs (Decidable (_ → _ → _ → _))
  | .kvEvent _ (.onDel _ _) => inferInstanceAs (Decidable (_ → _ → _ → _))
  | .kvEvent _ (.onRelaySelected _) => .isTrue trivial
  | .leave _ => .isTrue trivial
  | .subscribePeer _ _ => .isTrue trivial
  | .unsubscribePeer _ _ => .isTrue trivial
  | .trackPublish _ _ _ _ => .isTrue trivial
  | .trackUnpublish _ _ => .isTrue trivial

/-! ### The invariant -/

/-- A table of peers in which every entry has the key of its name. -/
def PeersWf (hasher : Hasher) (names : Set PeerId) (table : Key → Option PeerInfo) : Prop :=
  ∀ key info, table key = some info →
    key = IdGenerator.peersKey hasher info.peer ∧ info.peer ∈ names

def TracksWf (hasher : Hasher) (tracks : Set (PeerId × TrackName))
    (table : Key → Option TrackInfo) : Prop :=
  ∀ key info, table key = some info →
    key = IdGenerator.tracksKey hasher info.peer info.track ∧ (info.peer, info.track) ∈ tracks

/-- The caches, the views and the contents of the maps agree. -/
structure ConvInv (hasher : Hasher) (codecs : Codecs) (room : ClusterRoomHash)
    (peers names : Set PeerId) (tracks : Set (PeerId × TrackName))
    (history : History (Input Endpoint) (Output Endpoint)) (s : RoomMetadata Endpoint) :
    Prop where
  sub : SubInv hasher room peers (registry history) s
  peersWf : PeersWf hasher names s.clusterPeers.get
  peersContent : ∀ key, content codecs.peer.deserialize (IdGenerator.peersMap room) history key =
    s.clusterPeers.get key
  peersView : ∀ endpoint ∈ s.peersMapSubscribers, ∀ peer,
    peerView endpoint history peer = true ↔
      ∃ key info, s.clusterPeers.get key = some info ∧ info.peer = peer
  tracksWf : TracksWf hasher tracks s.clusterTracks.get
  contentWf : TracksWf hasher tracks
    (content codecs.track.deserialize (IdGenerator.tracksMap room) history)
  tracksKeys : s.tracksMapSubscribers.isEmpty = false → ∀ key,
    (content codecs.track.deserialize (IdGenerator.tracksMap room) history key).isSome =
      (s.clusterTracks.get key).isSome
  restored : TracksRestored codecs room history

variable {hasher : Hasher} {codecs : Codecs} {room : ClusterRoomHash}
  {peers names : Set PeerId} {tracks : Set (PeerId × TrackName)}
  {history : History (Input Endpoint) (Output Endpoint)} {s s' : RoomMetadata Endpoint}

theorem convInv_init :
    ConvInv hasher codecs room peers names tracks [] (.new room : RoomMetadata Endpoint) where
  sub := subInv_init
  peersWf key info h := by cases h
  peersContent key := rfl
  peersView endpoint h := absurd h (IndexSet.not_mem_empty endpoint)
  tracksWf key info h := by cases h
  contentWf key info h := by cases h
  tracksKeys h := by cases h
  restored earlier _ _ _ _ _ _ later h := by simp at h

/-- Two well-formed tables with the same keys hold the same tracks. -/
theorem exists_track_iff (hkeys : KeysDistinct hasher names tracks)
    {first second : Key → Option TrackInfo} (hfirst : TracksWf hasher tracks first)
    (hsecond : TracksWf hasher tracks second)
    (hsame : ∀ key, (first key).isSome = (second key).isSome) (peer : PeerId)
    (track : TrackName) :
    (∃ key info, first key = some info ∧ info.peer = peer ∧ info.track = track) ↔
      ∃ key info, second key = some info ∧ info.peer = peer ∧ info.track = track := by
  have hone : ∀ {a b : Key → Option TrackInfo}, TracksWf hasher tracks a →
      TracksWf hasher tracks b → (∀ key, (a key).isSome = (b key).isSome) →
      (∃ key info, a key = some info ∧ info.peer = peer ∧ info.track = track) →
      ∃ key info, b key = some info ∧ info.peer = peer ∧ info.track = track := by
    rintro a b ha hb hab ⟨key, info, hinfo, rfl, rfl⟩
    have hsome : (b key).isSome = true := by rw [← hab, hinfo]; rfl
    obtain ⟨other, hother⟩ := Option.isSome_iff_exists.mp hsome
    obtain ⟨hkey, hin⟩ := ha key info hinfo
    obtain ⟨hkey', hin'⟩ := hb key other hother
    have hname := hkeys.tracks hin hin' (hkey.symm.trans hkey')
    simp only [Prod.mk.injEq] at hname
    exact ⟨key, other, hother, hname.1.symm, hname.2.symm⟩
  exact ⟨hone hfirst hsecond hsame, hone hsecond hfirst fun key => (hsame key).symm⟩

theorem TracksRestored.concat (h : TracksRestored codecs room history) {i : Input Endpoint}
    {pushed : List (Output Endpoint)}
    (hlast : ∀ endpoint peer peerMeta publish subscribe,
      i = .join endpoint peer peerMeta publish subscribe → subscribe.tracks = true →
      ∀ name track, (∃ trackMeta, .trackStarted name track trackMeta ∈ sentTo endpoint pushed) ↔
        ∃ key info, content codecs.track.deserialize (IdGenerator.tracksMap room)
          (history ++ [(i, pushed)]) key = some info ∧ info.peer = name ∧ info.track = track) :
    TracksRestored codecs room (history ++ [(i, pushed)]) := by
  intro earlier endpoint peer peerMeta publish subscribe out later heq hsub name track
  rcases List.eq_nil_or_concat later with rfl | ⟨front, last, rfl⟩
  · obtain ⟨rfl, hentry⟩ := List.append_inj' heq rfl
    simp only [List.cons.injEq, Prod.mk.injEq, and_true] at hentry
    obtain ⟨rfl, rfl⟩ := hentry
    exact hlast endpoint peer peerMeta publish subscribe rfl hsub name track
  · rw [List.concat_eq_append, ← List.cons_append, ← List.append_assoc] at heq
    obtain ⟨hfront, -⟩ := List.append_inj' heq rfl
    exact h earlier endpoint peer peerMeta publish subscribe out front hfront hsub name track

/-! ### Inputs that talk to the DHT only -/

/-- A step that says nothing to endpoints, keeps the caches, gains no subscriber,
    and subscribes at most private maps. -/
structure Quiet (s s' : RoomMetadata Endpoint) (outputs : List (Output Endpoint)) : Prop where
  queue : s'.queue = s.queue ++ outputs
  kv : ∀ output ∈ outputs, ∃ control, output = .kv control
  clusterPeers : s'.clusterPeers = s.clusterPeers
  clusterTracks : s'.clusterTracks = s.clusterTracks
  peersSubs : ∀ endpoint ∈ s'.peersMapSubscribers, endpoint ∈ s.peersMapSubscribers
  tracksSubs : ∀ endpoint ∈ s'.tracksMapSubscribers, endpoint ∈ s.tracksMapSubscribers
  noSub : ∀ map, map = s.peersMap ∨ map = s.tracksMap → .kv ⟨map, .sub⟩ ∉ outputs

theorem quiet_leave {endpoint : Endpoint} (h : s.onLeave hasher endpoint = .ok s') :
    ∃ outputs, Quiet s s' outputs := by
  rcases onLeave_cases h with ⟨-, rfl⟩ | ⟨container, maps, -, heq⟩
  · exact ⟨[], by simp, by simp, rfl, rfl, fun _ => id, fun _ => id, by simp⟩
  · rw [heq]
    refine ⟨_, by simp only [RoomMetadata.leaveRoom, List.append_assoc]; rfl, ?_, rfl, rfl,
      ?_, ?_, ?_⟩
    · intro output hmem
      simp only [List.mem_append, List.mem_ite_nil_right, RoomMetadata.trackDels,
        List.mem_flatMap, List.mem_cons, List.not_mem_nil, or_false, unsubOutputs,
        List.mem_map] at hmem
      rcases hmem with ⟨-, rfl⟩ | ⟨_, -, rfl | rfl⟩ | ⟨-, rfl⟩ | ⟨-, rfl⟩ | ⟨_, -, rfl⟩
      all_goals exact ⟨_, rfl⟩
    · intro other hother
      exact (IndexSet.mem_swapRemove.mp hother).2
    · intro other hother
      exact (IndexSet.mem_swapRemove.mp hother).2
    · intro map _ hmem
      simp [List.mem_ite_nil_right, RoomMetadata.trackDels, unsubOutputs] at hmem

theorem SubInv.quiet_subscribePeer {reg : Registry Endpoint} {endpoint : Endpoint}
    {target : PeerId} (hsub : SubInv hasher room peers reg s)
    (hfree : CollisionFree hasher room peers) (htarget : target ∈ peers)
    (h : s.onSubscribePeer hasher endpoint target = .ok s') :
    ∃ outputs, Quiet s s' outputs := by
  obtain ⟨hpeers, htracks⟩ := hsub.peerMapOf_ne hfree htarget
  obtain ⟨container, -, rfl⟩ := onSubscribePeer_cases h
  refine ⟨_, rfl, ?_, rfl, rfl, fun _ => id, fun _ => id, ?_⟩
  · intro output hmem
    simp only [List.mem_ite_nil_right, List.mem_singleton] at hmem
    exact ⟨_, hmem.2⟩
  · rintro map hmap hmem
    simp only [List.mem_ite_nil_right, List.mem_singleton, Output.kv.injEq,
      DhtKv.Control.mk.injEq, and_true] at hmem
    rcases hmap with rfl | rfl
    · exact hpeers hmem.2.symm
    · exact htracks hmem.2.symm

theorem quiet_unsubscribePeer {endpoint : Endpoint} {target : PeerId}
    (h : s.onUnsubscribePeer hasher endpoint target = .ok s') : ∃ outputs, Quiet s s' outputs := by
  obtain ⟨container, -, rfl⟩ := onUnsubscribePeer_cases h
  refine ⟨_, rfl, ?_, rfl, rfl, fun _ => id, fun _ => id, ?_⟩
  · intro output hmem
    simp only [List.mem_ite_nil_right, List.mem_singleton] at hmem
    exact ⟨_, hmem.2⟩
  · intro map _ hmem
    simp [List.mem_ite_nil_right] at hmem

theorem quiet_trackPublish (hasher : Hasher) (endpoint : Endpoint) (trackId : RemoteTrackId)
    (track : TrackName) (trackMeta : TrackMeta) :
    ∃ outputs, Quiet s (s.onTrackPublish hasher codecs endpoint trackId track trackMeta)
      outputs := by
  rcases onTrackPublish_cases hasher codecs s endpoint trackId track trackMeta with
    ⟨heq, -⟩ | ⟨container, -, -, heq⟩
  · rw [heq]
    exact ⟨[], by simp, by simp, rfl, rfl, fun _ => id, fun _ => id, by simp⟩
  · rw [heq]
    refine ⟨_, rfl, ?_, rfl, rfl, fun _ => id, fun _ => id, ?_⟩
    · intro output hmem
      simp only [List.mem_cons, List.not_mem_nil, or_false] at hmem
      rcases hmem with rfl | rfl
      all_goals exact ⟨_, rfl⟩
    · intro map _ hmem
      simp at hmem

theorem quiet_trackUnpublish (hasher : Hasher) (endpoint : Endpoint) (trackId : RemoteTrackId) :
    ∃ outputs, Quiet s (s.onTrackUnpublish hasher endpoint trackId) outputs := by
  rcases onTrackUnpublish_cases hasher s endpoint trackId with
    ⟨heq, -⟩ | ⟨container, track, -, -, heq⟩
  · rw [heq]
    exact ⟨[], by simp, by simp, rfl, rfl, fun _ => id, fun _ => id, by simp⟩
  · rw [heq]
    refine ⟨_, rfl, ?_, rfl, rfl, fun _ => id, fun _ => id, ?_⟩
    · intro output hmem
      simp only [RoomMetadata.trackDels, List.mem_flatMap, List.mem_cons, List.not_mem_nil,
        or_false] at hmem
      rcases hmem with ⟨_, -, rfl | rfl⟩
      all_goals exact ⟨_, rfl⟩
    · intro map _ hmem
      simp [RoomMetadata.trackDels] at hmem

theorem sentTo_of_kv {outputs : List (Output Endpoint)}
    (h : ∀ output ∈ outputs, ∃ control, output = .kv control) (endpoint : Endpoint) :
    sentTo endpoint outputs = [] := by
  refine List.flatMap_eq_nil_iff.mpr fun output hmem => ?_
  obtain ⟨control, rfl⟩ := h output hmem
  rfl

/-- A quiet input changes neither views nor contents. -/
theorem ConvInv.quiet (h : ConvInv hasher codecs room peers names tracks history s)
    {i : Input Endpoint} {outputs : List (Output Endpoint)} (hquiet : Quiet s s' outputs)
    (hsub : SubInv hasher room peers (registry (history ++ [(i, outputs)])) s')
    (hjoin : ∀ endpoint, joins endpoint i = false)
    (hcontent : ∀ {α : Type} (decode : Bytes → Option α) map content,
      contentEvent decode map content i = content) :
    ConvInv hasher codecs room peers names tracks (history ++ [(i, outputs)]) s' := by
  have hview : ∀ endpoint, peerView endpoint (history ++ [(i, outputs)]) =
      peerView endpoint history := by
    intro endpoint
    rw [peerView_concat, peerViewStep, sentTo_of_kv hquiet.kv, hjoin]
    rfl
  have hsame : ∀ {α : Type} (decode : Bytes → Option α) map,
      map = s.peersMap ∨ map = s.tracksMap →
      content decode map (history ++ [(i, outputs)]) = content decode map history := by
    intro α decode map hmap
    rw [content_concat, contentStep, if_neg (hquiet.noSub map hmap), hcontent]
  have hpeersMap := h.sub.follows.peersMap
  have htracksMap := h.sub.follows.tracksMap
  have hpeers := hsame codecs.peer.deserialize (IdGenerator.peersMap room) (Or.inl hpeersMap.symm)
  have htracks := hsame codecs.track.deserialize (IdGenerator.tracksMap room)
    (Or.inr htracksMap.symm)
  refine ⟨hsub, ?_, ?_, ?_, ?_, ?_, ?_, ?_⟩
  · rw [hquiet.clusterPeers]
    exact h.peersWf
  · intro key
    rw [hpeers, hquiet.clusterPeers, h.peersContent]
  · intro endpoint hmem peer
    rw [hview, hquiet.clusterPeers]
    exact h.peersView endpoint (hquiet.peersSubs endpoint hmem) peer
  · rw [hquiet.clusterTracks]
    exact h.tracksWf
  · rw [htracks]
    exact h.contentWf
  · intro hnonempty key
    rw [htracks, hquiet.clusterTracks]
    obtain ⟨endpoint, hmem⟩ := IndexSet.isEmpty_eq_false_iff.mp hnonempty
    exact h.tracksKeys (IndexSet.isEmpty_eq_false_iff.mpr
      ⟨endpoint, hquiet.tracksSubs endpoint hmem⟩) key
  · refine h.restored.concat ?_
    rintro endpoint peer peerMeta publish subscribe rfl
    have hself := hjoin endpoint
    simp [joins] at hself

/-! ### Joining -/

theorem sentTo_map {α : Type} (endpoint other : Endpoint) (event : α → ClusterEndpointEvent)
    (l : List α) :
    sentTo endpoint (l.map fun x => (.endpoint [other] (event x) : Output Endpoint)) =
      if other = endpoint then l.map event else [] := by
  induction l with
  | nil => simp [sentTo]
  | cons x rest ih =>
    rw [List.map_cons, ← List.singleton_append, sentTo_append, ih]
    by_cases hother : other = endpoint
    · simp [sentTo, hother]
    · simp [sentTo, hother]

theorem sentTo_joinOutputs (hasher : Hasher) (codecs : Codecs) (s : RoomMetadata Endpoint)
    (other endpoint : Endpoint) (peer : PeerId) (peerMeta : PeerMeta)
    (publish : RoomInfoPublish) (subscribe : RoomInfoSubscribe) :
    sentTo other (joinOutputs hasher codecs s endpoint peer peerMeta publish subscribe) =
      if endpoint = other then
        (if subscribe.peers then
          s.clusterPeers.values.map fun info => .peerJoined info.peer info.peerMeta else []) ++
        (if subscribe.tracks then
          s.clusterTracks.values.map fun info =>
            .trackStarted info.peer info.track info.trackMeta else [])
      else [] := by
  have hkv : ∀ control, sentTo other [(.kv control : Output Endpoint)] = [] := fun _ => rfl
  have hnil : sentTo other ([] : List (Output Endpoint)) = [] := rfl
  simp only [joinOutputs, sentTo_append, apply_ite (sentTo other), sentTo_map, hkv, hnil, ite_self,
    List.append_nil, List.nil_append]
  by_cases hother : endpoint = other
  · simp [hother]
  · simp [hother]

theorem sub_mem_joinOutputs (hasher : Hasher) (codecs : Codecs)
    (hmaps : s.tracksMap ≠ s.peersMap) (endpoint : Endpoint) (peer : PeerId)
    (peerMeta : PeerMeta) (publish : RoomInfoPublish) (subscribe : RoomInfoSubscribe) :
    (.kv ⟨s.peersMap, .sub⟩ ∈
        joinOutputs hasher codecs s endpoint peer peerMeta publish subscribe ↔
      subscribe.peers = true ∧ (s.peersMapSubscribers.insert endpoint).len = 1) ∧
    (.kv ⟨s.tracksMap, .sub⟩ ∈
        joinOutputs hasher codecs s endpoint peer peerMeta publish subscribe ↔
      subscribe.tracks = true ∧ (s.tracksMapSubscribers.insert endpoint).len = 1) := by
  constructor
  · simp [joinOutputs, List.mem_ite_nil_right, hmaps.symm]
  · simp [joinOutputs, List.mem_ite_nil_right, hmaps]

omit [DecidableEq Endpoint] in
theorem foldl_seePeer_joined (infos : List PeerInfo) (view : PeerId → Bool) (peer : PeerId) :
    (infos.map fun info => .peerJoined info.peer info.peerMeta).foldl seePeer view peer = true ↔
      view peer = true ∨ ∃ info ∈ infos, info.peer = peer := by
  induction infos generalizing view with
  | nil => simp
  | cons info rest ih =>
    rw [List.map_cons, List.foldl_cons, ih, seePeer]
    by_cases hpeer : info.peer = peer
    · simp [hpeer]
    · simp [hpeer, Function.update_of_ne (Ne.symm hpeer)]

omit [DecidableEq Endpoint] in
theorem foldl_seePeer_started (infos : List TrackInfo) (view : PeerId → Bool) :
    (infos.map fun info => .trackStarted info.peer info.track info.trackMeta).foldl seePeer view =
      view := by
  induction infos generalizing view with
  | nil => rfl
  | cons info rest ih =>
    rw [List.map_cons, List.foldl_cons, ih]
    rfl

theorem len_insert_eq_one_of_fresh {set : IndexSet Endpoint} {endpoint : Endpoint}
    (hfresh : endpoint ∉ set) : (set.insert endpoint).len = 1 ↔ set.isEmpty = true := by
  rw [IndexSet.len_insert_eq_one_iff, IndexSet.isEmpty_iff]
  constructor
  · intro hall other hother
    exact hfresh (hall other hother ▸ hother)
  · intro hnone other hother
    exact absurd hother (hnone other)

theorem ConvInv.join (h : ConvInv hasher codecs room peers names tracks history s)
    (hkeys : KeysDistinct hasher names tracks) {endpoint : Endpoint} {peer : PeerId}
    {peerMeta : PeerMeta} {publish : RoomInfoPublish} {subscribe : RoomInfoSubscribe}
    (hfresh : registry history endpoint = none)
    (hcaches : FreshCaches history s (.join endpoint peer peerMeta publish subscribe)) :
    ConvInv hasher codecs room peers names tracks
      (history ++ [(Input.join endpoint peer peerMeta publish subscribe,
        joinOutputs hasher codecs s endpoint peer peerMeta publish subscribe)])
      (s.onJoin hasher codecs endpoint peer peerMeta publish subscribe) := by
  set outputs := joinOutputs hasher codecs s endpoint peer peerMeta publish subscribe with houtputs
  have hnotPeers : endpoint ∉ s.peersMapSubscribers := by
    rw [h.sub.peersSubs, hfresh]
    simp
  have hnotTracks : endpoint ∉ s.tracksMapSubscribers := by
    rw [h.sub.tracksSubs, hfresh]
    simp
  obtain ⟨hsubPeers, hsubTracks⟩ := sub_mem_joinOutputs hasher codecs
    h.sub.tracksMap_ne_peersMap endpoint peer peerMeta publish subscribe
  rw [h.sub.follows.peersMap, len_insert_eq_one_of_fresh hnotPeers] at hsubPeers
  rw [h.sub.follows.tracksMap, len_insert_eq_one_of_fresh hnotTracks] at hsubTracks
  have hcontentPeers : content codecs.peer.deserialize (IdGenerator.peersMap room)
      (history ++ [(Input.join endpoint peer peerMeta publish subscribe, outputs)]) =
      if .kv ⟨IdGenerator.peersMap room, .sub⟩ ∈ outputs then fun _ => none
      else content codecs.peer.deserialize (IdGenerator.peersMap room) history :=
    content_concat ..
  have hcontentTracks : content codecs.track.deserialize (IdGenerator.tracksMap room)
      (history ++ [(Input.join endpoint peer peerMeta publish subscribe, outputs)]) =
      if .kv ⟨IdGenerator.tracksMap room, .sub⟩ ∈ outputs then fun _ => none
      else content codecs.track.deserialize (IdGenerator.tracksMap room) history :=
    content_concat ..
  have hemptyPeers : .kv ⟨IdGenerator.peersMap room, .sub⟩ ∈ outputs →
      ∀ key, s.clusterPeers.get key = none := by
    intro hmem
    obtain ⟨hsub, hfirst⟩ := hsubPeers.mp hmem
    exact IndexMap.isEmpty_iff.mp (hcaches.1 hsub hfirst)
  have hemptyTracks : .kv ⟨IdGenerator.tracksMap room, .sub⟩ ∈ outputs →
      ∀ key, s.clusterTracks.get key = none := by
    intro hmem
    obtain ⟨hsub, hfirst⟩ := hsubTracks.mp hmem
    exact IndexMap.isEmpty_iff.mp (hcaches.2 hsub hfirst)
  have hwfAfter : TracksWf hasher tracks (content codecs.track.deserialize
      (IdGenerator.tracksMap room)
      (history ++ [(Input.join endpoint peer peerMeta publish subscribe, outputs)])) := by
    rw [hcontentTracks]
    split
    · intro key info hinfo
      cases hinfo
    · exact h.contentWf
  -- a joiner of the tracks map finds the cache in step with the map's content
  have hkeysAfter : subscribe.tracks = true ∨ s.tracksMapSubscribers.isEmpty = false → ∀ key,
      (content codecs.track.deserialize (IdGenerator.tracksMap room)
        (history ++ [(Input.join endpoint peer peerMeta publish subscribe, outputs)]) key).isSome =
          (s.clusterTracks.get key).isSome := by
    intro hwant key
    rw [hcontentTracks]
    split
    · rename_i hmem
      rw [hemptyTracks hmem key]
    · rename_i hmem
      refine h.tracksKeys ?_ key
      rcases hwant with hsub | hother
      · refine Bool.eq_false_iff.mpr fun hfirst => hmem (hsubTracks.mpr ⟨hsub, hfirst⟩)
      · exact hother
  have hsub : SubInv hasher room peers
      (regStep (registry history) (.join endpoint peer peerMeta publish subscribe))
      (s.onJoin hasher codecs endpoint peer peerMeta publish subscribe) := h.sub.join hfresh
  rw [← registry_concat history _ outputs] at hsub
  rw [onJoin_eq] at hsub ⊢
  refine ⟨hsub, h.peersWf, ?_, ?_, h.tracksWf, hwfAfter, ?_, ?_⟩
  · intro key
    rw [hcontentPeers]
    split
    · rename_i hmem
      exact (hemptyPeers hmem key).symm
    · exact h.peersContent key
  · intro other hother name
    rw [peerView_concat, peerViewStep, houtputs, sentTo_joinOutputs]
    by_cases hself : endpoint = other
    · subst hself
      have hwant : subscribe.peers = true := by
        by_contra hnot
        simp only [hnot] at hother
        exact hnotPeers hother
      have hjoins : joins endpoint (.join endpoint peer peerMeta publish subscribe) = true := by
        simp [joins]
      rw [if_pos rfl, if_pos hwant, if_pos hjoins, List.foldl_append]
      have htracksFold : ∀ view : PeerId → Bool,
          (if subscribe.tracks then s.clusterTracks.values.map fun info =>
            ClusterEndpointEvent.trackStarted info.peer info.track info.trackMeta else []).foldl
              seePeer view = view := by
        intro view
        split
        · exact foldl_seePeer_started _ _
        · rfl
      rw [htracksFold, foldl_seePeer_joined]
      constructor
      · rintro (hfalse | ⟨info, hinfo, rfl⟩)
        · exact absurd hfalse Bool.false_ne_true
        · obtain ⟨key, hkey⟩ := IndexMap.mem_values_iff.mp hinfo
          exact ⟨key, info, hkey, rfl⟩
      · rintro ⟨key, info, hkey, rfl⟩
        exact Or.inr ⟨info, IndexMap.mem_values_iff.mpr ⟨key, hkey⟩, rfl⟩
    · have hold : other ∈ s.peersMapSubscribers := by
        simp only at hother
        split at hother
        · rcases IndexSet.mem_insert.mp hother with rfl | hold
          · exact absurd rfl hself
          · exact hold
        · exact hother
      have hjoins : joins other (.join endpoint peer peerMeta publish subscribe) = false := by
        simp [joins, hself]
      rw [if_neg hself, hjoins]
      exact h.peersView other hold name
  · intro hnonempty
    refine hkeysAfter ?_
    simp only at hnonempty
    by_cases hwant : subscribe.tracks = true
    · exact Or.inl hwant
    · rw [if_neg hwant] at hnonempty
      exact Or.inr hnonempty
  · refine h.restored.concat ?_
    rintro other peer' peerMeta' publish' subscribe' heq hwant name track
    cases heq
    rw [← exists_track_iff hkeys h.tracksWf hwfAfter
      (fun key => (hkeysAfter (Or.inl hwant) key).symm), houtputs, sentTo_joinOutputs,
      if_pos rfl, if_pos hwant]
    constructor
    · rintro ⟨trackMeta, hmem⟩
      rcases List.mem_append.mp hmem with hpeer | htrack
      · split at hpeer
        · simp at hpeer
        · cases hpeer
      · obtain ⟨info, hinfo, hevent⟩ := List.mem_map.mp htrack
        obtain ⟨key, hkey⟩ := IndexMap.mem_values_iff.mp hinfo
        cases hevent
        exact ⟨key, info, hkey, rfl, rfl⟩
    · rintro ⟨key, info, hkey, rfl, rfl⟩
      refine ⟨info.trackMeta, List.mem_append.mpr (Or.inr ?_)⟩
      exact List.mem_map.mpr ⟨info, IndexMap.mem_values_iff.mpr ⟨key, hkey⟩, rfl⟩

/-! ### Events of the DHT -/

/-- Outputs to endpoints subscribe nothing. -/
theorem contentStep_toEndpoints {α : Type} {decode : Bytes → Option α} {map : Map}
    {table : Key → Option α} {i : Input Endpoint} {outputs : List (Output Endpoint)}
    (h : ToEndpoints outputs) :
    contentStep decode map table (i, outputs) = contentEvent decode map table i := by
  refine if_neg fun hmem => ?_
  obtain ⟨endpoints, event, hout⟩ := h _ hmem
  cases hout

/-- An event that is not about peers leaves every view of the peers alone. -/
theorem Tells.foldl_seePeer {endpoints : List Endpoint} {event : ClusterEndpointEvent}
    {outputs : List (Output Endpoint)} (h : Tells endpoints event outputs)
    (hnodup : endpoints.Nodup) (hevent : ∀ view, seePeer view event = view)
    (endpoint : Endpoint) (view : PeerId → Bool) :
    (Metadata.sentTo endpoint outputs).foldl seePeer view = view := by
  rw [h.sentTo hnodup]
  split
  · exact hevent view
  · rfl

theorem onKvEvent_tracks_frame (codecs : Codecs) {map : Map} (hmap : s.peersMap ≠ map) (event : MapEvent) :
    ∃ clusterTracks outputs, ToEndpoints outputs ∧
      (∀ endpoint view, (sentTo endpoint outputs).foldl seePeer view = view) ∧
      s.onKvEvent codecs map event =
        { s with clusterTracks := clusterTracks, queue := s.queue ++ outputs } := by
  have hsame : s.onKvEvent codecs map event = s →
      ∃ clusterTracks outputs, ToEndpoints outputs ∧
        (∀ endpoint view, (sentTo endpoint outputs).foldl seePeer view = view) ∧
        s.onKvEvent codecs map event =
          { s with clusterTracks := clusterTracks, queue := s.queue ++ outputs } := by
    intro heq
    exact ⟨s.clusterTracks, [], by simp [ToEndpoints], fun _ _ => rfl, by simp [heq]⟩
  cases hlisten : trackListeners s map with
  | none => exact hsame (onKvEvent_ignored hmap (Or.inl hlisten))
  | some listeners =>
    have hnodup := trackListeners_nodup hlisten
    cases event with
    | onRelaySelected node => exact hsame rfl
    | onSet key source data =>
      cases hinfo : codecs.track.deserialize data with
      | none =>
        refine hsame (onKvEvent_ignored hmap (Or.inr ⟨?_, by simp⟩))
        intro key' source' data' heq
        cases heq
        exact hinfo
      | some info =>
        obtain ⟨outputs, htells, heq⟩ := onKvEvent_track_set key source hlisten hinfo
        exact ⟨_, outputs, htells.toEndpoints, htells.foldl_seePeer hnodup fun _ => rfl, heq⟩
    | onDel key source =>
      rcases onKvEvent_track_del codecs key source hlisten with
        ⟨-, heq⟩ | ⟨info, outputs, -, htells, heq⟩
      · exact hsame heq
      · exact ⟨_, outputs, htells.toEndpoints, htells.foldl_seePeer hnodup fun _ => rfl, heq⟩

theorem peerView_kvEvent {endpoint : Endpoint} {map : Map} {event : MapEvent}
    {outputs : List (Output Endpoint)} :
    peerView endpoint (history ++ [(Input.kvEvent map event, outputs)]) =
      (sentTo endpoint outputs).foldl seePeer (peerView endpoint history) := by
  rw [peerView_concat]
  rfl

theorem SubInv.kvEvent {reg : Registry Endpoint} (h : SubInv hasher room peers reg s)
    (codecs : Codecs) (map : Map) (event : MapEvent) :
    SubInv hasher room peers reg (s.onKvEvent codecs map event) := by
  obtain ⟨_, _, _, -, heq⟩ := onKvEvent_frame codecs s map event
  rw [heq]
  exact h.frame (h.follows.frame rfl rfl) (fun _ _ => Iff.rfl) rfl rfl rfl

/-- An event of the tracks map or of a private map. -/
theorem ConvInv.kvEvent_tracks (h : ConvInv hasher codecs room peers names tracks history s)
    {map : Map} {event : MapEvent} (hmap : s.peersMap ≠ map)
    (hgenuine : Genuine hasher codecs room names tracks history s (.kvEvent map event))
    (hcaches : FreshCaches history s (.kvEvent map event)) :
    ∃ outputs, (s.onKvEvent codecs map event).queue = s.queue ++ outputs ∧
      ConvInv hasher codecs room peers names tracks
        (history ++ [(Input.kvEvent map event, outputs)])
        (s.onKvEvent codecs map event) := by
  obtain ⟨clusterTracks, outputs, houtputs, hquiet, heq⟩ :=
    onKvEvent_tracks_frame codecs hmap event
  have hpeersMap := h.sub.follows.peersMap
  have htracksMap := h.sub.follows.tracksMap
  have hmap' : IdGenerator.peersMap room ≠ map := hpeersMap ▸ hmap
  have htable : ∀ key, (s.onKvEvent codecs map event).clusterTracks.get key =
      (trackEvent codecs key s (.kvEvent map event)).getD (s.clusterTracks.get key) :=
    clusterTracks_step (show step hasher codecs s (.kvEvent map event) =
      .ok (s.onKvEvent codecs map event) from rfl)
  have hcontentPeers : content codecs.peer.deserialize (IdGenerator.peersMap room)
      (history ++ [(Input.kvEvent map event, outputs)]) =
      content codecs.peer.deserialize (IdGenerator.peersMap room) history := by
    rw [content_concat, contentStep_toEndpoints houtputs]
    cases event <;> simp [contentEvent, Ne.symm hmap']
  have hcontentTracks : content codecs.track.deserialize (IdGenerator.tracksMap room)
      (history ++ [(Input.kvEvent map event, outputs)]) =
      contentEvent codecs.track.deserialize (IdGenerator.tracksMap room)
        (content codecs.track.deserialize (IdGenerator.tracksMap room) history)
        (.kvEvent map event : Input Endpoint) := by
    rw [content_concat, contentStep_toEndpoints houtputs]
  have hentry : ∀ key source data info, event = .onSet key source data →
      codecs.track.deserialize data = some info →
      key = IdGenerator.tracksKey hasher info.peer info.track ∧
        (info.peer, info.track) ∈ tracks := by
    rintro key source data info rfl hinfo
    simp only [Genuine, if_neg (Ne.symm hmap')] at hgenuine
    obtain ⟨info', hinfo', hkey, hin⟩ := hgenuine
    rw [hinfo] at hinfo'
    cases hinfo'
    exact ⟨hkey, hin⟩
  refine ⟨outputs, by rw [heq], ?_, ?_, ?_, ?_, ?_, ?_, ?_, ?_⟩
  · rw [registry_concat]
    exact h.sub.kvEvent codecs map event
  · rw [heq]
    exact h.peersWf
  · intro key
    rw [hcontentPeers, heq]
    exact h.peersContent key
  · intro endpoint hmem peer
    rw [peerView_kvEvent, hquiet]
    rw [heq] at hmem ⊢
    exact h.peersView endpoint hmem peer
  · intro key info hinfo
    rw [htable] at hinfo
    cases event with
    | onRelaySelected node => exact h.tracksWf key info hinfo
    | onDel k source =>
      simp only [trackEvent] at hinfo
      split at hinfo
      · cases hinfo
      · exact h.tracksWf key info hinfo
    | onSet k source data =>
      simp only [trackEvent] at hinfo
      split at hinfo
      · rename_i hk
        cases hdata : codecs.track.deserialize data with
        | none =>
          rw [hdata] at hinfo
          exact h.tracksWf key info hinfo
        | some info' =>
          rw [hdata] at hinfo
          cases hinfo
          exact hk.1 ▸ hentry k source data info rfl hdata
      · exact h.tracksWf key info hinfo
  · intro key info hinfo
    rw [hcontentTracks] at hinfo
    cases event with
    | onRelaySelected node => exact h.contentWf key info hinfo
    | onDel k source =>
      simp only [contentEvent] at hinfo
      split at hinfo
      · rw [Function.update_apply] at hinfo
        split at hinfo
        · cases hinfo
        · exact h.contentWf key info hinfo
      · exact h.contentWf key info hinfo
    | onSet k source data =>
      simp only [contentEvent] at hinfo
      split at hinfo
      · rw [Function.update_apply] at hinfo
        split at hinfo
        · rename_i hk
          exact hk ▸ hentry k source data info rfl hinfo
        · exact h.contentWf key info hinfo
      · exact h.contentWf key info hinfo
  · intro hnonempty key
    have hbefore : s.tracksMapSubscribers.isEmpty = false := by
      rw [heq] at hnonempty
      exact hnonempty
    have hkeys := h.tracksKeys hbefore key
    rw [hcontentTracks, htable]
    by_cases htracks : map = s.tracksMap
    · -- the map itself: cache and content take the same change
      have hlisten : (trackListeners s map).isSome = true := by
        simp [trackListeners, htracks, h.sub.tracksMap_ne_peersMap.symm]
      have hroom : map = IdGenerator.tracksMap room := htracks.trans htracksMap
      cases event with
      | onRelaySelected node => exact hkeys
      | onDel k source =>
        simp only [contentEvent, if_pos hroom, trackEvent, hlisten, and_true,
          Function.update_apply]
        by_cases hk : key = k
        · simp [hk]
        · simp [hk, Ne.symm hk, hkeys]
      | onSet k source data =>
        simp only [Genuine, if_neg (Ne.symm hmap')] at hgenuine
        obtain ⟨info, hinfo, -, -⟩ := hgenuine
        simp only [contentEvent, if_pos hroom, trackEvent, hlisten, and_true,
          Function.update_apply, hinfo, Option.map_some]
        by_cases hk : key = k
        · simp [hk]
        · simp [hk, Ne.symm hk, hkeys]
    · -- a private map: the content stays, and the cached keys stay by assumption
      have hroom : map ≠ IdGenerator.tracksMap room := fun heq' =>
        htracks (heq'.trans htracksMap.symm)
      cases event with
      | onRelaySelected node => exact hkeys
      | onDel k source =>
        simp only [contentEvent, if_neg hroom, trackEvent]
        split
        · rename_i hk
          have habsent := hcaches htracks hk.2 hbefore
          rw [hk.1, IndexMap.contains] at habsent
          rw [hkeys, habsent]
          rfl
        · exact hkeys
      | onSet k source data =>
        simp only [contentEvent, if_neg hroom, trackEvent]
        split
        · rename_i hk
          have hpresent := hcaches htracks hk.2 hbefore
          rw [hk.1, IndexMap.contains] at hpresent
          rw [hkeys, hpresent]
          cases codecs.track.deserialize data with
          | none => exact hpresent.symm
          | some info => rfl
        · exact hkeys
  · refine h.restored.concat ?_
    intro endpoint peer peerMeta publish subscribe hjoin
    cases hjoin

/-- An event of the peers map: what is told is what changes in the cache. -/
theorem ConvInv.kvEvent_peers (h : ConvInv hasher codecs room peers names tracks history s)
    (hkeys : KeysDistinct hasher names tracks) {event : MapEvent}
    (hgenuine : Genuine hasher codecs room names tracks history s (.kvEvent s.peersMap event)) :
    ∃ outputs, (s.onKvEvent codecs s.peersMap event).queue = s.queue ++ outputs ∧
      ConvInv hasher codecs room peers names tracks
        (history ++ [(Input.kvEvent s.peersMap event, outputs)])
        (s.onKvEvent codecs s.peersMap event) := by
  have hpeersMap := h.sub.follows.peersMap
  have hmaps : s.peersMap ≠ IdGenerator.tracksMap room :=
    h.sub.follows.tracksMap ▸ h.sub.tracksMap_ne_peersMap.symm
  -- whatever the event is, it does not touch the tracks
  have hassemble : ∀ (s' : RoomMetadata Endpoint) (outputs : List (Output Endpoint)),
      SubInv hasher room peers (registry history) s' →
      s'.clusterTracks = s.clusterTracks →
      s'.tracksMapSubscribers = s.tracksMapSubscribers → ToEndpoints outputs →
      PeersWf hasher names s'.clusterPeers.get →
      (∀ key, contentEvent codecs.peer.deserialize (IdGenerator.peersMap room)
        s.clusterPeers.get (.kvEvent s.peersMap event : Input Endpoint) key =
          s'.clusterPeers.get key) →
      (∀ endpoint ∈ s'.peersMapSubscribers, ∀ peer,
        (sentTo endpoint outputs).foldl seePeer (peerView endpoint history) peer = true ↔
          ∃ key info, s'.clusterPeers.get key = some info ∧ info.peer = peer) →
      ConvInv hasher codecs room peers names tracks
        (history ++ [(Input.kvEvent s.peersMap event, outputs)]) s' := by
    intro s' outputs hsub hclusterTracks htracksSubs houtputs hwf hcontent hview
    have hsameContent : content codecs.track.deserialize (IdGenerator.tracksMap room)
        (history ++ [(Input.kvEvent s.peersMap event, outputs)]) =
        content codecs.track.deserialize (IdGenerator.tracksMap room) history := by
      rw [content_concat, contentStep_toEndpoints houtputs]
      cases event <;> simp [contentEvent, hmaps]
    refine ⟨by rw [registry_concat]; exact hsub, hwf, ?_, ?_, ?_, ?_, ?_, ?_⟩
    · intro key
      rw [content_concat, contentStep_toEndpoints houtputs, ← hcontent key,
        funext h.peersContent]
    · intro endpoint hmem peer
      rw [peerView_kvEvent]
      exact hview endpoint hmem peer
    · rw [hclusterTracks]
      exact h.tracksWf
    · rw [hsameContent]
      exact h.contentWf
    · rw [hsameContent, hclusterTracks, htracksSubs]
      exact h.tracksKeys
    · refine h.restored.concat ?_
      intro endpoint peer peerMeta publish subscribe hjoin
      cases hjoin
  have hsub := h.sub.kvEvent codecs s.peersMap event
  rcases onKvEvent_peers codecs s event with
    ⟨hset, hdel, heq⟩ | ⟨key, source, data, info, outputs, rfl, hinfo, htells, heq⟩ |
    ⟨key, source, info, outputs, rfl, hinfo, htells, heq⟩
  · rw [heq] at hsub ⊢
    refine ⟨[], by simp, hassemble s [] hsub rfl rfl (by simp [ToEndpoints]) h.peersWf ?_
      h.peersView⟩
    intro key
    cases event with
    | onRelaySelected node => rfl
    | onSet k source data =>
      simp only [Genuine, if_pos hpeersMap] at hgenuine
      obtain ⟨info, hinfo, -, -⟩ := hgenuine
      rw [hset k source data rfl] at hinfo
      cases hinfo
    | onDel k source =>
      simp only [contentEvent, if_pos hpeersMap, Function.update_apply]
      split
      · rename_i hk
        rw [hk, hdel k source rfl]
      · rfl
  · simp only [Genuine, if_pos hpeersMap] at hgenuine
    obtain ⟨info', hinfo', hkey, hin⟩ := hgenuine
    rw [hinfo] at hinfo'
    cases hinfo'
    rw [heq] at hsub ⊢
    refine ⟨outputs, rfl, hassemble _ outputs hsub rfl rfl htells.toEndpoints ?_ ?_ ?_⟩
    · intro k other hother
      simp only [IndexMap.get_insert] at hother
      split at hother
      · rename_i hk
        cases hother
        exact ⟨hk.trans hkey, hin⟩
      · exact h.peersWf k other hother
    · intro k
      simp only [contentEvent, if_pos hpeersMap, Function.update_apply, IndexMap.get_insert, hinfo]
    · intro endpoint hmem name
      change endpoint ∈ s.peersMapSubscribers.toList at hmem
      rw [htells.sentTo s.peersMapSubscribers.nodup_toList, if_pos hmem, List.foldl_cons,
        List.foldl_nil, seePeer]
      by_cases hname : name = info.peer
      · subst hname
        rw [Function.update_self]
        exact iff_of_true rfl ⟨key, info, IndexMap.get_insert_self _ _ _, rfl⟩
      · rw [Function.update_of_ne hname, h.peersView endpoint hmem]
        constructor
        · rintro ⟨k, other, hother, rfl⟩
          refine ⟨k, other, ?_, rfl⟩
          have hne : k ≠ key := by
            rintro rfl
            obtain ⟨hk, hin'⟩ := h.peersWf k other hother
            exact hname (hkeys.peers hin' hin (hk.symm.trans hkey))
          exact (IndexMap.get_insert_ne _ _ hne).trans hother
        · rintro ⟨k, other, hother, rfl⟩
          simp only [IndexMap.get_insert] at hother
          split at hother
          · cases hother
            exact absurd rfl hname
          · exact ⟨k, other, hother, rfl⟩
  · obtain ⟨hkey, hin⟩ := h.peersWf key info hinfo
    rw [heq] at hsub ⊢
    refine ⟨outputs, rfl, hassemble _ outputs hsub rfl rfl htells.toEndpoints ?_ ?_ ?_⟩
    · intro k other hother
      simp only [IndexMap.get_swapRemove] at hother
      split at hother
      · cases hother
      · exact h.peersWf k other hother
    · intro k
      simp only [contentEvent, if_pos hpeersMap, Function.update_apply, IndexMap.get_swapRemove]
    · intro endpoint hmem name
      change endpoint ∈ s.peersMapSubscribers.toList at hmem
      rw [htells.sentTo s.peersMapSubscribers.nodup_toList, if_pos hmem, List.foldl_cons,
        List.foldl_nil, seePeer]
      by_cases hname : name = info.peer
      · subst hname
        rw [Function.update_self]
        refine iff_of_false Bool.false_ne_true ?_
        rintro ⟨k, other, hother, hpeer⟩
        simp only [IndexMap.get_swapRemove] at hother
        split at hother
        · cases hother
        · rename_i hne
          obtain ⟨hk, -⟩ := h.peersWf k other hother
          exact hne (hk.trans (hpeer ▸ hkey.symm))
      · rw [Function.update_of_ne hname, h.peersView endpoint hmem]
        constructor
        · rintro ⟨k, other, hother, rfl⟩
          refine ⟨k, other, ?_, rfl⟩
          have hne : k ≠ key := by
            rintro rfl
            rw [hinfo] at hother
            cases hother
            exact hname rfl
          exact (IndexMap.get_swapRemove_ne _ hne).trans hother
        · rintro ⟨k, other, hother, rfl⟩
          simp only [IndexMap.get_swapRemove] at hother
          split at hother
          · cases hother
          · exact ⟨k, other, hother, rfl⟩

/-! ### Main result -/

/-- **Every input that meets the conditions keeps views and contents together.** -/
theorem ConvInv.step (h : ConvInv hasher codecs room peers names tracks history s)
    (hfree : CollisionFree hasher room peers) (hkeys : KeysDistinct hasher names tracks)
    {i : Input Endpoint} (hproper : Proper peers history s i)
    (hgenuine : Genuine hasher codecs room names tracks history s i)
    (hcaches : FreshCaches history s i) :
    ∃ s', Metadata.step hasher codecs s i = .ok s' ∧
      ConvInv hasher codecs room peers names tracks
        (history ++ [(i, (machine hasher codecs room).pushed s s')]) s' := by
  obtain ⟨s', hs', hsub⟩ : ∃ s', Metadata.step hasher codecs s i = .ok s' ∧
      SubInv hasher room peers (regStep (registry history) i) s' := h.sub.step hfree hproper
  refine ⟨s', hs', ?_⟩
  have hquiet : ∀ outputs, Quiet s s' outputs → (∀ endpoint, joins endpoint i = false) →
      (∀ {α : Type} (decode : Bytes → Option α) map content,
        contentEvent decode map content i = content) →
      ConvInv hasher codecs room peers names tracks
        (history ++ [(i, (machine hasher codecs room).pushed s s')]) s' := by
    intro outputs hq hjoin hcontent
    rw [pushed_eq_of_append (machine hasher codecs room) hq.queue]
    refine h.quiet hq ?_ hjoin hcontent
    rw [registry_concat]
    exact hsub
  cases i with
  | join endpoint peer peerMeta publish subscribe =>
    cases hs'
    rw [pushed_eq_of_append (machine hasher codecs room) (by rw [onJoin_eq]; rfl)]
    exact h.join hkeys hproper hcaches
  | leave endpoint =>
    obtain ⟨outputs, hq⟩ := quiet_leave hs'
    exact hquiet outputs hq (fun _ => rfl) fun _ _ _ => rfl
  | subscribePeer endpoint target =>
    obtain ⟨outputs, hq⟩ := h.sub.quiet_subscribePeer hfree hproper.2 hs'
    exact hquiet outputs hq (fun _ => rfl) fun _ _ _ => rfl
  | unsubscribePeer endpoint target =>
    obtain ⟨outputs, hq⟩ := quiet_unsubscribePeer hs'
    exact hquiet outputs hq (fun _ => rfl) fun _ _ _ => rfl
  | trackPublish endpoint trackId track trackMeta =>
    cases hs'
    obtain ⟨outputs, hq⟩ := quiet_trackPublish hasher endpoint trackId track trackMeta
    exact hquiet outputs hq (fun _ => rfl) fun _ _ _ => rfl
  | trackUnpublish endpoint trackId =>
    cases hs'
    obtain ⟨outputs, hq⟩ := quiet_trackUnpublish hasher endpoint trackId
    exact hquiet outputs hq (fun _ => rfl) fun _ _ _ => rfl
  | kvEvent map event =>
    cases hs'
    by_cases hmap : s.peersMap = map
    · subst hmap
      obtain ⟨outputs, hqueue, h'⟩ := h.kvEvent_peers hkeys hgenuine
      rw [pushed_eq_of_append (machine hasher codecs room) hqueue]
      exact h'
    · obtain ⟨outputs, hqueue, h'⟩ := h.kvEvent_tracks hmap hgenuine hcaches
      rw [pushed_eq_of_append (machine hasher codecs room) hqueue]
      exact h'

theorem ConvInv.dropFront (h : ConvInv hasher codecs room peers names tracks history s) :
    ConvInv hasher codecs room peers names tracks history { s with queue := s.queue.tail } :=
  ⟨h.sub.dropFront, h.peersWf, h.peersContent, h.peersView, h.tracksWf, h.contentWf,
    h.tracksKeys, h.restored⟩

theorem ConvInv.converge (h : ConvInv hasher codecs room peers names tracks history s) :
    PeersConverge codecs room history := by
  intro endpoint session hreg hsub peer
  have hmem := (h.sub.peersSubs endpoint).mpr ⟨session, hreg, hsub⟩
  rw [h.peersView endpoint hmem]
  simp only [h.peersContent]

/-- **View convergence.** Take any run of a room (no double joins, only joined
    endpoints follow peers, genuine data, no hash collisions) in which the caches
    are empty whenever a first subscriber joins and events of private maps leave
    the cached track keys alone while the tracks map is subscribed.  It does not
    panic, and after it every subscriber of the peers map believes present exactly
    the peers delivered in the current subscription, and every subscriber of the
    tracks map was told on its join exactly the tracks delivered in the
    subscription of that moment. -/
theorem view_convergence (hasher : Hasher) (codecs : Codecs) (room : ClusterRoomHash)
    (peers names : Set PeerId) (tracks : Set (PeerId × TrackName))
    (hfree : CollisionFree hasher room peers) (hkeys : KeysDistinct hasher names tracks)
    (acts : List (Action (Input Endpoint)))
    (hproper : (machine hasher codecs room).Admits (Proper peers) acts)
    (hgenuine : (machine hasher codecs room).Admits
      (Genuine hasher codecs room names tracks) acts)
    (hcaches : (machine hasher codecs room).Admits FreshCaches acts) :
    ∃ c, (machine hasher codecs room).run acts = .ok c ∧
      PeersConverge codecs room c.history ∧ TracksRestored codecs room c.history := by
  have hall := (hproper.and hgenuine).and hcaches
  obtain ⟨c, hrun, hinv⟩ := run_progress (M := machine hasher codecs room) _
    (ConvInv hasher codecs room peers names tracks) convInv_init
    (fun _ _ _ h hok => h.step hfree hkeys hok.1.1 hok.1.2 hok.2)
    (fun _ _ h => h.dropFront) hall
  exact ⟨c, hrun, hinv.converge, hinv.restored⟩

/-- A codec that knows bob and his camera. -/
def bobInfoCodecs : Codecs where
  peer := ⟨fun _ => [2], fun data => if data = [2] then some ⟨"bob", ⟨none, none⟩⟩ else none⟩
  track := bobCodecs.track

def bobPeerKey : Key := IdGenerator.peersKey fnv1a "bob"

def onlyBob : Set PeerId := {peer | peer = "bob"}

def onlyBobCam : Set (PeerId × TrackName) := {name | name = ("bob", "cam")}

instance : DecidablePred (· ∈ onlyBob) := fun peer => inferInstanceAs (Decidable (peer = "bob"))

instance : DecidablePred (· ∈ onlyBobCam) := fun name =>
  inferInstanceAs (Decidable (name = ("bob", "cam")))

theorem onlyBob_keysDistinct (hasher : Hasher) : KeysDistinct hasher onlyBob onlyBobCam where
  peers := fun _ hfirst _ hsecond _ => hfirst.trans hsecond.symm
  tracks := fun _ hfirst _ hsecond _ => hfirst.trans hsecond.symm

/-- Two subscribers come while bob and his camera are announced; bob leaves. -/
def lateJoiner : List (Action (Input Nat)) :=
  [.input (.join 1 "alice" ⟨none, none⟩ ⟨true, true⟩ ⟨true, true⟩),
    .input (.kvEvent 0 (.onSet bobPeerKey 0 [2])), .input (.kvEvent 1 (.onSet bobKey 0 [1])), .pop,
    .input (.join 2 "carol" ⟨none, none⟩ ⟨true, true⟩ ⟨true, true⟩),
    .input (.kvEvent 0 (.onDel bobPeerKey 0)), .input (.leave 1)]

theorem view_convergence_lateJoiner :
    ∃ c, (machine fnv1a bobInfoCodecs 0).run lateJoiner = .ok c ∧
      PeersConverge bobInfoCodecs 0 c.history ∧ TracksRestored bobInfoCodecs 0 c.history :=
  view_convergence fnv1a bobInfoCodecs 0 somePeers onlyBob onlyBobCam somePeers_collisionFree
    (onlyBob_keysDistinct fnv1a) lateJoiner (AdmitsFrom.admits (by decide +kernel))
    (AdmitsFrom.admits (by decide +kernel)) (AdmitsFrom.admits (by decide +kernel))

/-- The only subscriber leaves, and the next one is told the peers of the old
    subscription: it believes in a bob that nothing has delivered to it since. -/
theorem stale_peer_after_resubscribe :
    ∃ (acts : List (Action (Input Nat))) (c : Config _ _ _),
      acts = [.input (.join 1 "alice" ⟨none, none⟩ ⟨true, true⟩ ⟨true, false⟩),
        .input (.kvEvent 0 (.onSet bobPeerKey 0 [2])), .input (.leave 1),
        .input (.join 2 "carol" ⟨none, none⟩ ⟨true, true⟩ ⟨true, false⟩)] ∧
      CollisionFree fnv1a 0 somePeers ∧ KeysDistinct fnv1a onlyBob onlyBobCam ∧
      (machine fnv1a bobInfoCodecs 0).Admits (Proper somePeers) acts ∧
      (machine fnv1a bobInfoCodecs 0).Admits
        (Genuine fnv1a bobInfoCodecs 0 onlyBob onlyBobCam) acts ∧
      (machine fnv1a bobInfoCodecs 0).run acts = .ok c ∧
      ¬ PeersConverge bobInfoCodecs 0 c.history := by
  refine ⟨_, _, rfl, somePeers_collisionFree, onlyBob_keysDistinct fnv1a,
    AdmitsFrom.admits (by decide +kernel), AdmitsFrom.admits (by decide +kernel), rfl, ?_⟩
  intro hconverge
  obtain ⟨key, info, hinfo, -⟩ := (hconverge 2 _ rfl rfl "bob").mp (by decide)
  rw [content_concat, contentStep, if_pos (by decide)] at hinfo
  cases hinfo

end MediaServer.Metadata
