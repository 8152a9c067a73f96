import MediaServer.Cluster.Metadata.Room
import Mathlib.Data.List.Infix

/-!
# What an endpoint is told about tracks

A track is announced twice, in the tracks map of the room and in the private map
of its peer, and the events of the two maps reach the room independently.  An
endpoint listens to one of them and expects the end of every track whose start it
was told.  The room remembers the announced tracks in one table for all maps, so
an event of one map can take the memory away that the other map needs.

The main result says exactly when an endpoint is told the end of a track: if and
only if the last event on the track's key, whatever map it came through, was an
announcement of that track.
-/

namespace MediaServer.Metadata

open Collections Machine DhtKv

variable {Endpoint : Type} [DecidableEq Endpoint]

/-- The events that a list of outputs sends to one endpoint. -/
def sentTo (endpoint : Endpoint) (outputs : List (Output Endpoint)) :
    List ClusterEndpointEvent :=
  outputs.flatMap fun
    | .endpoint endpoints event => (endpoints.filter (· = endpoint)).map fun _ => event
    | .kv _ => []
    | .onResourceEmpty => []

theorem sentTo_append (endpoint : Endpoint) (first second : List (Output Endpoint)) :
    sentTo endpoint (first ++ second) = sentTo endpoint first ++ sentTo endpoint second :=
  List.flatMap_append

/-- An event told to a list of endpoints reaches each of them once. -/
theorem Tells.sentTo {endpoints : List Endpoint} {event : ClusterEndpointEvent}
    {outputs : List (Output Endpoint)} (h : Tells endpoints event outputs)
    (hnodup : endpoints.Nodup) (endpoint : Endpoint) :
    sentTo endpoint outputs = if endpoint ∈ endpoints then [event] else [] := by
  have hfilter : endpoints.filter (· = endpoint) =
      if endpoint ∈ endpoints then [endpoint] else [] := by
    rw [List.filter_eq, hnodup.count]
    split <;> rfl
  cases h with
  | sent =>
    simp only [Metadata.sentTo, List.flatMap_cons, List.flatMap_nil, List.append_nil, hfilter]
    split <;> rfl
  | nobody hnil =>
    simp [Metadata.sentTo, hnil]

/-- Whether an event is the end of this track. -/
def isStop (peer : PeerId) (track : TrackName) : ClusterEndpointEvent → Bool
  | .trackStopped p t _ => p = peer ∧ t = track
  | _ => false

/-- How many ends of this track are sent to the endpoint. -/
def stopsSent (endpoint : Endpoint) (peer : PeerId) (track : TrackName)
    (outputs : List (Output Endpoint)) : Nat :=
  (sentTo endpoint outputs).countP (isStop peer track)

/-! ### The events on one key -/

/-- What an input that meets this state says about a track key: the track it
    announces, `none` if it withdraws the key, nothing if it is another key, not an
    event, or an event that the room ignores. -/
def trackEvent (codecs : Codecs) (key : Key) (s : RoomMetadata Endpoint) :
    Input Endpoint → Option (Option TrackInfo)
  | .kvEvent map (.onSet k _ data) =>
      if k = key ∧ (trackListeners s map).isSome then
        (codecs.track.deserialize data).map some else none
  | .kvEvent map (.onDel k _) =>
      if k = key ∧ (trackListeners s map).isSome then some none else none
  | _ => none

variable {hasher : Hasher} {codecs : Codecs} {room : ClusterRoomHash}
  {s s' : RoomMetadata Endpoint}

/-- The table of tracks changes by the events on its keys only. -/
theorem clusterTracks_step {i : Input Endpoint} (h : step hasher codecs s i = .ok s')
    (key : Key) :
    s'.clusterTracks.get key = (trackEvent codecs key s i).getD (s.clusterTracks.get key) := by
  cases i with
  | join endpoint peer peerMeta publish subscribe =>
    cases h
    rw [onJoin_eq]
    rfl
  | leave endpoint =>
    rcases onLeave_cases h with ⟨-, rfl⟩ | ⟨container, maps, -, heq⟩
    · rfl
    · rw [heq]
      rfl
  | subscribePeer endpoint target =>
    obtain ⟨container, -, rfl⟩ := onSubscribePeer_cases h
    rfl
  | unsubscribePeer endpoint target =>
    obtain ⟨container, -, rfl⟩ := onUnsubscribePeer_cases h
    rfl
  | trackPublish endpoint trackId track trackMeta =>
    cases h
    rcases onTrackPublish_cases hasher codecs s endpoint trackId track trackMeta with
      ⟨heq, -⟩ | ⟨container, -, -, heq⟩
    · rw [heq]
      rfl
    · rw [heq]
      rfl
  | trackUnpublish endpoint trackId =>
    cases h
    rcases onTrackUnpublish_cases hasher s endpoint trackId with
      ⟨heq, -⟩ | ⟨container, track, -, -, heq⟩
    · rw [heq]
      rfl
    · rw [heq]
      rfl
  | kvEvent map event =>
    cases h
    cases hlisten : trackListeners s map with
    | none =>
      have hnone : trackEvent codecs key s (.kvEvent map event) = none := by
        cases event <;> simp [trackEvent, hlisten]
      rw [hnone, Option.getD_none]
      by_cases hmap : s.peersMap = map
      · subst hmap
        rcases onKvEvent_peers codecs s event with
          ⟨-, -, heq⟩ | ⟨_, _, _, _, _, -, -, -, heq⟩ | ⟨_, _, _, _, -, -, -, heq⟩
        all_goals rw [heq]
      · rw [onKvEvent_ignored hmap (Or.inl hlisten)]
    | some listeners =>
      have hmap : s.peersMap ≠ map := by
        intro heq
        simp [trackListeners, heq] at hlisten
      cases event with
      | onRelaySelected node => rfl
      | onSet k source data =>
        cases hinfo : codecs.track.deserialize data with
        | none =>
          rw [onKvEvent_ignored hmap (Or.inr ⟨?_, by simp⟩)]
          · simp [trackEvent, hinfo]
          · intro key' source' data' heq
            cases heq
            exact hinfo
        | some info =>
          obtain ⟨outputs, -, heq⟩ := onKvEvent_track_set k source hlisten hinfo
          rw [heq, IndexMap.get_insert]
          by_cases hk : key = k
          · simp [trackEvent, hlisten, hinfo, hk]
          · simp [trackEvent, hk, Ne.symm hk]
      | onDel k source =>
        rcases onKvEvent_track_del codecs k source hlisten with
          ⟨habsent, heq⟩ | ⟨info, outputs, -, -, heq⟩
        · rw [heq]
          by_cases hk : key = k
          · simp [trackEvent, hlisten, hk, habsent]
          · simp [trackEvent, Ne.symm hk]
        · rw [heq, IndexMap.get_swapRemove]
          by_cases hk : key = k
          · simp [trackEvent, hlisten, hk]
          · simp [trackEvent, hk, Ne.symm hk]

/-- The last event on a key that the room handled, through whatever map. -/
def lastTrackEvent (hasher : Hasher) (codecs : Codecs) (room : ClusterRoomHash) (key : Key)
    (acts : List (Action (Input Endpoint))) : Option (Option TrackInfo) :=
  (((machine hasher codecs room).visited acts).filterMap fun visit =>
    trackEvent codecs key visit.1 visit.2).getLast?

theorem clusterTracks_eq_last {acts : List (Action (Input Endpoint))} {c : Config _ _ _}
    (h : (machine hasher codecs room).run acts = .ok c) (key : Key) :
    c.state.clusterTracks.get key = (lastTrackEvent hasher codecs room key acts).getD none := by
  induction acts using List.reverseRecOn generalizing c with
  | nil =>
    cases h
    rfl
  | append_singleton acts a ih =>
    obtain ⟨c₀, h₀, ha⟩ := (run_concat_eq_ok _).mp h
    have hbefore := ih h₀
    cases a with
    | pop =>
      have hsame : c.state.clusterTracks = c₀.state.clusterTracks := by
        rcases exec_pop_eq_ok _ ha with rfl | ⟨hstate, -⟩
        · rfl
        · rw [hstate]
          rfl
      rw [hsame, hbefore, lastTrackEvent, lastTrackEvent, visited_concat_pop _ h₀]
    | input i =>
      have hvisited := visited_concat_input _ h₀ ha
      obtain ⟨s', hs', rfl⟩ := (exec_input_eq_ok _).mp ha
      rw [clusterTracks_step hs' key, hbefore, lastTrackEvent, lastTrackEvent, hvisited,
        List.filterMap_append]
      cases hevent : trackEvent codecs key c₀.state i with
      | none => simp [hevent]
      | some info => simp [hevent]

/-! ### Main result -/

/-- The endpoint is a subscriber of a map that carries tracks. -/
def Listens (s : RoomMetadata Endpoint) (endpoint : Endpoint) (map : Map) : Prop :=
  ∃ listeners, trackListeners s map = some listeners ∧ endpoint ∈ listeners

/-- An endpoint was told the start of a track because of a set of `key` in `map`,
    and has been a subscriber of the map since, during `middle`, in which the map
    did not delete the key. -/
structure TrackEpisode (hasher : Hasher) (codecs : Codecs) (room : ClusterRoomHash)
    (before : List (Action (Input Endpoint))) (map : Map) (key : Key) (source : NodeId)
    (data : Bytes) (middle : List (Action (Input Endpoint))) (endpoint : Endpoint)
    (peer : PeerId) (track : TrackName) : Prop where
  started : ∃ c trackMeta, (machine hasher codecs room).run before = .ok c ∧
    .trackStarted peer track trackMeta ∈ sentTo endpoint
      ((machine hasher codecs room).pushed c.state
        (c.state.onKvEvent codecs map (.onSet key source data)))
  notDeleted : ∀ source', .input (.kvEvent map (.onDel key source')) ∉ middle
  stays : ∀ between rest c, middle = between ++ rest →
    (machine hasher codecs room).run
      (before ++ .input (.kvEvent map (.onSet key source data)) :: between) = .ok c →
    Listens c.state endpoint map

omit [DecidableEq Endpoint] in
theorem trackListeners_nodup {map : Map} {listeners : List Endpoint}
    (h : trackListeners s map = some listeners) : listeners.Nodup := by
  unfold trackListeners at h
  split at h
  · cases h
  · split at h
    · cases h
      exact s.tracksMapSubscribers.nodup_toList
    · obtain ⟨subs, -, rfl⟩ := Option.map_eq_some_iff.mp h
      exact subs.nodup_toList

/-- What a listening endpoint is sent when its map deletes a key: the end of the
    track that the table holds for the key, if it holds one. -/
theorem sentTo_del {map : Map} {endpoint : Endpoint} (h : Listens s endpoint map)
    (key : Key) (source : NodeId) :
    sentTo endpoint ((machine hasher codecs room).pushed s
        (s.onKvEvent codecs map (.onDel key source))) =
      ((s.clusterTracks.get key).map fun info =>
        .trackStopped info.peer info.track info.trackMeta).toList := by
  obtain ⟨listeners, hlisten, hmem⟩ := h
  rcases onKvEvent_track_del codecs key source hlisten with
    ⟨habsent, heq⟩ | ⟨info, outputs, hinfo, htells, heq⟩
  · rw [heq, habsent, pushed_eq_of_append (machine hasher codecs room)
      (show s.queue = s.queue ++ [] from (List.append_nil _).symm)]
    rfl
  · rw [heq, hinfo, pushed_eq_of_append (machine hasher codecs room) rfl,
      htells.sentTo (trackListeners_nodup hlisten), if_pos hmem]
    rfl

/-- **Track views.** An endpoint that was told the start of a track by a set of a
    key in its map, and is still a subscriber of the map when the map deletes the
    key, is then sent exactly one end of this track if and only if the last event
    on the key that reached the room, through this map or any other, announced the
    same peer and track. -/
theorem track_view_agreement_iff (hasher : Hasher) (codecs : Codecs) (room : ClusterRoomHash)
    (before middle : List (Action (Input Endpoint))) (map : Map) (key : Key)
    (source source' : NodeId) (data : Bytes) (endpoint : Endpoint) (peer : PeerId)
    (track : TrackName) (c : Config _ _ _)
    (hepisode : TrackEpisode hasher codecs room before map key source data middle endpoint
      peer track)
    (hrun : (machine hasher codecs room).run
      (before ++ .input (.kvEvent map (.onSet key source data)) :: middle) = .ok c) :
    stopsSent endpoint peer track ((machine hasher codecs room).pushed c.state
        (c.state.onKvEvent codecs map (.onDel key source'))) = 1 ↔
      ∃ info, lastTrackEvent hasher codecs room key
          (before ++ .input (.kvEvent map (.onSet key source data)) :: middle) =
            some (some info) ∧
        info.peer = peer ∧ info.track = track := by
  have hlisten : Listens c.state endpoint map :=
    hepisode.stays middle [] c (List.append_nil _).symm hrun
  have htable := clusterTracks_eq_last hrun key
  rw [stopsSent, sentTo_del hlisten, htable]
  cases lastTrackEvent hasher codecs room key
      (before ++ .input (.kvEvent map (.onSet key source data)) :: middle) with
  | none => simp
  | some last =>
    cases last with
    | none => simp
    | some info =>
      by_cases hname : info.peer = peer ∧ info.track = track
      · simp [isStop, hname]
      · simp [isStop, hname]

instance (s : RoomMetadata Endpoint) (endpoint : Endpoint) (map : Map) :
    Decidable (Listens s endpoint map) :=
  match h : trackListeners s map with
  | none => .isFalse fun hlisten => by
      obtain ⟨listeners, hsome, -⟩ := hlisten
      rw [h] at hsome
      cases hsome
  | some listeners =>
    decidable_of_iff (endpoint ∈ listeners)
      ⟨fun hmem => ⟨listeners, h, hmem⟩, fun hlisten => by
        obtain ⟨listeners', hsome, hmem⟩ := hlisten
        rw [h] at hsome
        cases hsome
        exact hmem⟩

/-- Whether the endpoint listens after these actions. -/
def listensAfter (hasher : Hasher) (codecs : Codecs) (room : ClusterRoomHash)
    (acts : List (Action (Input Endpoint))) (endpoint : Endpoint) (map : Map) : Bool :=
  match (machine hasher codecs room).run acts with
  | .ok c => decide (Listens c.state endpoint map)
  | .error _ => true

theorem listens_of_listensAfter {acts : List (Action (Input Endpoint))} {c : Config _ _ _}
    {endpoint : Endpoint} {map : Map}
    (h : listensAfter hasher codecs room acts endpoint map = true)
    (hrun : (machine hasher codecs room).run acts = .ok c) : Listens c.state endpoint map := by
  rw [listensAfter, hrun] at h
  exact of_decide_eq_true h

/-- Bob's camera and a codec that knows it. -/
def bobCam : TrackInfo := ⟨"bob", "cam", .defaultAudio⟩

def bobCodecs : Codecs where
  peer := ⟨fun _ => [], fun _ => none⟩
  track := ⟨fun _ => [1], fun data => if data = [1] then some bobCam else none⟩

def bobKey : Key := IdGenerator.tracksKey fnv1a "bob" "cam"

def bobMap : Map := IdGenerator.peerMap fnv1a 0 "bob"

/-- One endpoint subscribes the tracks of the room, another follows bob. -/
def twoScopes : List (Action (Input Nat)) :=
  [.input (.join 1 "alice" ⟨none, none⟩ ⟨true, true⟩ ⟨false, true⟩),
    .input (.join 2 "carol" ⟨none, none⟩ ⟨true, true⟩ ⟨false, false⟩),
    .input (.subscribePeer 2 "bob")]

theorem twoScopes_episode (middle : List (Action (Input Nat)))
    (hmiddle : ∀ source, .input (.kvEvent 1 (.onDel bobKey source)) ∉ middle)
    (hstays : ∀ between ∈ middle.inits, listensAfter fnv1a bobCodecs 0
      (twoScopes ++ .input (.kvEvent 1 (.onSet bobKey 0 [1])) :: between) 1 1 = true) :
    TrackEpisode fnv1a bobCodecs 0 twoScopes 1 bobKey 0 [1] middle 1 "bob" "cam" where
  started := ⟨_, .defaultAudio, rfl, by decide⟩
  notDeleted := hmiddle
  stays between rest c heq hrun :=
    listens_of_listensAfter (hstays between ((List.mem_inits _ _).mpr ⟨rest, heq.symm⟩)) hrun

theorem track_view_agreement_twoScopes :
    ∃ c, (machine fnv1a bobCodecs 0).run
        (twoScopes ++ [Action.input (.kvEvent 1 (.onSet bobKey 0 [1]))]) = .ok c ∧
      stopsSent 1 "bob" "cam" ((machine fnv1a bobCodecs 0).pushed c.state
        (c.state.onKvEvent bobCodecs 1 (.onDel bobKey 0))) = 1 :=
  ⟨_, rfl, (track_view_agreement_iff fnv1a bobCodecs 0 twoScopes [] 1 bobKey 0 0 [1] 1 "bob"
    "cam" _ (twoScopes_episode [] (by simp) (by decide)) rfl).mpr
      ⟨bobCam, by decide +kernel, rfl, rfl⟩⟩

/-- The track is announced and withdrawn in bob's private map as well: the deletion
    there takes the table's entry, and the one in the tracks map tells nobody. -/
theorem deletion_through_other_map_swallows_stop :
    ∃ (middle : List (Action (Input Nat))) (c : Config _ _ _),
      middle = [.input (.kvEvent bobMap (.onSet bobKey 0 [1])),
        .input (.kvEvent bobMap (.onDel bobKey 0))] ∧
      TrackEpisode fnv1a bobCodecs 0 twoScopes 1 bobKey 0 [1] middle 1 "bob" "cam" ∧
      (machine fnv1a bobCodecs 0).run
        (twoScopes ++ .input (.kvEvent 1 (.onSet bobKey 0 [1])) :: middle) = .ok c ∧
      stopsSent 1 "bob" "cam" ((machine fnv1a bobCodecs 0).pushed c.state
        (c.state.onKvEvent bobCodecs 1 (.onDel bobKey 0))) ≠ 1 := by
  refine ⟨_, _, rfl, twoScopes_episode _ ?_ (by decide +kernel), rfl, by decide +kernel⟩
  intro source hmem
  have hmap : (1 : Map) ≠ bobMap := by decide +kernel
  simp [hmap] at hmem

end MediaServer.Metadata
