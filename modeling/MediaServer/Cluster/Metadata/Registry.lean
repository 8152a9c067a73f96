import MediaServer.Cluster.Metadata.Room
import Mathlib.Data.Finset.Erase
import Mathlib.Data.Finset.Insert
import Mathlib.Data.Option.Basic
import Mathlib.Logic.Function.Basic

/-!
# The room as its callers see it

An abstract account of a room: which endpoint is joined as which peer, what it
publishes, and what it asked to be told about.  It is computed from the inputs
alone and mentions no map, key or set of the implementation.  Every trace
property of the metadata component is stated against it.

`Follows` is the simulation between the two: the component's table of peers is
the registry, after every run and whatever the inputs were.
-/

namespace MediaServer.Metadata

open Collections Machine DhtKv

variable {Endpoint : Type} [DecidableEq Endpoint]

/-- One endpoint's stay in the room, as its own requests describe it. -/
structure Session where
  peer : PeerId
  publish : RoomInfoPublish
  subscribe : RoomInfoSubscribe
  targets : Finset PeerId
  tracks : RemoteTrackId → Option TrackName

abbrev Registry (Endpoint : Type) := Endpoint → Option Session

/-- Change the session of an endpoint, if it has one. -/
def Registry.modify (reg : Registry Endpoint) (endpoint : Endpoint) (f : Session → Session) :
    Registry Endpoint :=
  Function.update reg endpoint ((reg endpoint).map f)

def regStep (reg : Registry Endpoint) : Input Endpoint → Registry Endpoint
  | .join endpoint peer _ publish subscribe =>
      Function.update reg endpoint (some ⟨peer, publish, subscribe, ∅, fun _ => none⟩)
  | .leave endpoint => Function.update reg endpoint none
  | .subscribePeer endpoint target =>
      reg.modify endpoint fun session => { session with targets := insert target session.targets }
  | .unsubscribePeer endpoint target =>
      reg.modify endpoint fun session => { session with targets := session.targets.erase target }
  | .trackPublish endpoint trackId track _ =>
      reg.modify endpoint fun session =>
        { session with tracks := Function.update session.tracks trackId (some track) }
  | .trackUnpublish endpoint trackId =>
      reg.modify endpoint fun session =>
        { session with tracks := Function.update session.tracks trackId none }
  | .kvEvent _ _ => reg

/-- Who is in the room after a history. -/
def registry (history : History (Input Endpoint) (Output Endpoint)) : Registry Endpoint :=
  (history.map Prod.fst).foldl regStep (fun _ => none)

@[simp] theorem registry_nil :
    registry ([] : History (Input Endpoint) (Output Endpoint)) = fun _ => none := rfl

theorem registry_concat (history : History (Input Endpoint) (Output Endpoint))
    (i : Input Endpoint) (pushed : List (Output Endpoint)) :
    registry (history ++ [(i, pushed)]) = regStep (registry history) i := by
  simp [registry]

/-! ### The table of peers is the registry -/

/-- The entry of an endpoint describes its session. -/
structure Matches (container : PeerContainer) (session : Session) : Prop where
  peer : container.peer = session.peer
  publish : container.publish = session.publish
  targets : ∀ target, target ∈ container.subPeers ↔ target ∈ session.targets
  tracks : ∀ trackId, container.pubTracks.get trackId =
    if session.publish.tracks then session.tracks trackId else none

/-- The component is in this room and its table of peers is the registry. -/
structure Follows (room : ClusterRoomHash) (reg : Registry Endpoint)
    (s : RoomMetadata Endpoint) : Prop where
  room_eq : s.room = room
  peers : ∀ endpoint, Option.Rel Matches (s.peers.get endpoint) (reg endpoint)

variable {room : ClusterRoomHash} {reg : Registry Endpoint} {s s' : RoomMetadata Endpoint}

theorem Follows.peersMap (h : Follows room reg s) :
    s.peersMap = IdGenerator.peersMap room := by
  rw [s.peersMap_eq, h.room_eq]

theorem Follows.tracksMap (h : Follows room reg s) :
    s.tracksMap = IdGenerator.tracksMap room := by
  rw [s.tracksMap_eq, h.room_eq]

theorem Follows.peerMapOf (h : Follows room reg s) (hasher : Hasher) (peer : PeerId) :
    s.peerMapOf hasher peer = IdGenerator.peerMap hasher room peer := by
  rw [RoomMetadata.peerMapOf, h.room_eq]

theorem Follows.session_of_get (h : Follows room reg s) {endpoint : Endpoint}
    {container : PeerContainer} (hget : s.peers.get endpoint = some container) :
    ∃ session, reg endpoint = some session ∧ Matches container session := by
  have hrel := h.peers endpoint
  rw [hget] at hrel
  cases hreg : reg endpoint with
  | none => rw [hreg] at hrel; cases hrel
  | some session =>
    rw [hreg] at hrel
    cases hrel with
    | some hmatch => exact ⟨session, rfl, hmatch⟩

theorem Follows.get_of_session (h : Follows room reg s) {endpoint : Endpoint}
    {session : Session} (hreg : reg endpoint = some session) :
    ∃ container, s.peers.get endpoint = some container ∧ Matches container session := by
  have hrel := h.peers endpoint
  rw [hreg] at hrel
  cases hget : s.peers.get endpoint with
  | none => rw [hget] at hrel; cases hrel
  | some container =>
    rw [hget] at hrel
    cases hrel with
    | some hmatch => exact ⟨container, rfl, hmatch⟩

theorem Follows.get_eq_none_iff (h : Follows room reg s) (endpoint : Endpoint) :
    s.peers.get endpoint = none ↔ reg endpoint = none := by
  constructor
  · intro hnone
    cases hreg : reg endpoint with
    | none => rfl
    | some session =>
      obtain ⟨container, hget, -⟩ := h.get_of_session hreg
      rw [hnone] at hget
      cases hget
  · intro hnone
    cases hget : s.peers.get endpoint with
    | none => rfl
    | some container =>
      obtain ⟨session, hreg, -⟩ := h.session_of_get hget
      rw [hnone] at hreg
      cases hreg

theorem follows_init : Follows room (fun _ => none) (.new room : RoomMetadata Endpoint) :=
  ⟨rfl, fun _ => Option.Rel.none⟩

/-- Replacing one entry of the table and one session of the registry. -/
theorem Follows.update (h : Follows room reg s) {endpoint : Endpoint}
    {container : PeerContainer} {session : Session} (hroom : s'.room = s.room)
    (hpeers : s'.peers = s.peers.insert endpoint container)
    (hmatch : Matches container session) :
    Follows room (Function.update reg endpoint (some session)) s' := by
  refine ⟨hroom.trans h.room_eq, fun other => ?_⟩
  rw [hpeers, IndexMap.get_insert]
  by_cases hother : other = endpoint
  · subst hother
    rw [if_pos rfl, Function.update_self]
    exact Option.Rel.some hmatch
  · rw [if_neg hother, Function.update_of_ne hother]
    exact h.peers other

theorem Follows.frame (h : Follows room reg s) (hroom : s'.room = s.room)
    (hpeers : s'.peers = s.peers) : Follows room reg s' :=
  ⟨hroom.trans h.room_eq, fun endpoint => by rw [hpeers]; exact h.peers endpoint⟩

theorem Registry.modify_of_some {endpoint : Endpoint} {session : Session} (f : Session → Session)
    (hreg : reg endpoint = some session) :
    reg.modify endpoint f = Function.update reg endpoint (some (f session)) := by
  rw [Registry.modify, hreg, Option.map_some]

theorem Registry.modify_of_none {endpoint : Endpoint} (f : Session → Session)
    (hreg : reg endpoint = none) : reg.modify endpoint f = reg := by
  rw [Registry.modify, hreg, Option.map_none, ← hreg, Function.update_eq_self]

theorem Follows.leave (h : Follows room reg s) {hasher : Hasher} {endpoint : Endpoint}
    (hs' : s.onLeave hasher endpoint = .ok s') :
    Follows room (Function.update reg endpoint none) s' := by
  rcases onLeave_cases hs' with ⟨hnone, rfl⟩ | ⟨container, maps, hget, heq⟩
  · have hreg := (h.get_eq_none_iff endpoint).mp hnone
    rw [← hreg, Function.update_eq_self]
    exact h
  · have hpeers : s'.peers = s.peers.swapRemove endpoint := by rw [heq]; rfl
    have hroom : s'.room = s.room := by rw [heq]; rfl
    refine ⟨hroom.trans h.room_eq, fun other => ?_⟩
    rw [hpeers, IndexMap.get_swapRemove]
    by_cases hother : other = endpoint
    · subst hother
      rw [if_pos rfl, Function.update_self]
      exact Option.Rel.none
    · rw [if_neg hother, Function.update_of_ne hother]
      exact h.peers other

theorem Follows.trackPublish (h : Follows room reg s) (hasher : Hasher) (codecs : Codecs)
    (endpoint : Endpoint) (trackId : RemoteTrackId) (track : TrackName)
    (trackMeta : TrackMeta) :
    Follows room (regStep reg (.trackPublish endpoint trackId track trackMeta))
      (s.onTrackPublish hasher codecs endpoint trackId track trackMeta) := by
  rcases onTrackPublish_cases hasher codecs s endpoint trackId track trackMeta with
    ⟨heq, hsilent⟩ | ⟨container, hget, htracks, heq⟩
  · rw [heq]
    cases hget : s.peers.get endpoint with
    | none =>
      rw [regStep, Registry.modify_of_none _ ((h.get_eq_none_iff endpoint).mp hget)]
      exact h
    | some container =>
      obtain ⟨session, hreg, hmatch⟩ := h.session_of_get hget
      rw [regStep, Registry.modify_of_some _ hreg]
      have hquiet : session.publish.tracks = false := by
        rw [← hmatch.publish]
        exact hsilent container hget
      -- a session that does not publish tracks has no entry for them
      refine ⟨h.room_eq, fun other => ?_⟩
      by_cases hother : other = endpoint
      · subst hother
        rw [Function.update_self, hget]
        refine Option.Rel.some ⟨hmatch.peer, hmatch.publish, hmatch.targets, fun id => ?_⟩
        rw [hmatch.tracks, hquiet]
        simp
      · rw [Function.update_of_ne hother]
        exact h.peers other
  · obtain ⟨session, hreg, hmatch⟩ := h.session_of_get hget
    rw [heq, regStep, Registry.modify_of_some _ hreg]
    refine h.update rfl rfl ⟨hmatch.peer, hmatch.publish, hmatch.targets, fun id => ?_⟩
    have hpub : session.publish.tracks = true := by rw [← hmatch.publish]; exact htracks
    have hold := hmatch.tracks id
    rw [hpub, if_pos rfl] at hold
    simp only [IndexMap.get_insert, hpub, if_true, Function.update_apply, hold]

theorem Follows.trackUnpublish (h : Follows room reg s) (hasher : Hasher)
    (endpoint : Endpoint) (trackId : RemoteTrackId) :
    Follows room (regStep reg (.trackUnpublish endpoint trackId))
      (s.onTrackUnpublish hasher endpoint trackId) := by
  rcases onTrackUnpublish_cases hasher s endpoint trackId with
    ⟨heq, hsilent⟩ | ⟨container, track, hget, htrack, heq⟩
  · rw [heq]
    cases hget : s.peers.get endpoint with
    | none =>
      rw [regStep, Registry.modify_of_none _ ((h.get_eq_none_iff endpoint).mp hget)]
      exact h
    | some container =>
      obtain ⟨session, hreg, hmatch⟩ := h.session_of_get hget
      rw [regStep, Registry.modify_of_some _ hreg]
      refine ⟨h.room_eq, fun other => ?_⟩
      by_cases hother : other = endpoint
      · subst hother
        rw [Function.update_self, hget]
        refine Option.Rel.some ⟨hmatch.peer, hmatch.publish, hmatch.targets, fun id => ?_⟩
        have habsent := hsilent container hget
        rw [hmatch.tracks] at habsent
        rw [hmatch.tracks]
        by_cases hid : id = trackId
        · subst hid
          simpa using habsent
        · simp [Function.update_of_ne hid]
      · rw [Function.update_of_ne hother]
        exact h.peers other
  · obtain ⟨session, hreg, hmatch⟩ := h.session_of_get hget
    rw [heq, regStep, Registry.modify_of_some _ hreg]
    refine h.update rfl rfl ⟨hmatch.peer, hmatch.publish, hmatch.targets, fun id => ?_⟩
    simp only [IndexMap.get_swapRemove, hmatch.tracks, Function.update_apply]
    split <;> simp

/-- **Simulation.** Every step of the component is the step of the registry. -/
theorem Follows.step (h : Follows room reg s) {hasher : Hasher} {codecs : Codecs}
    {i : Input Endpoint} (hs' : step hasher codecs s i = .ok s') :
    Follows room (regStep reg i) s' := by
  cases i with
  | join endpoint peer peerMeta publish subscribe =>
    cases hs'
    rw [onJoin_eq]
    refine h.update rfl rfl ⟨rfl, rfl, fun target => ?_, fun id => ?_⟩
    · simp
    · simp
  | leave endpoint => exact h.leave hs'
  | subscribePeer endpoint target =>
    obtain ⟨container, hget, rfl⟩ := onSubscribePeer_cases hs'
    obtain ⟨session, hreg, hmatch⟩ := h.session_of_get hget
    rw [regStep, Registry.modify_of_some _ hreg]
    refine h.update rfl rfl ⟨hmatch.peer, hmatch.publish, fun other => ?_, hmatch.tracks⟩
    rw [IndexSet.mem_insert, Finset.mem_insert, hmatch.targets]
  | unsubscribePeer endpoint target =>
    obtain ⟨container, hget, rfl⟩ := onUnsubscribePeer_cases hs'
    obtain ⟨session, hreg, hmatch⟩ := h.session_of_get hget
    rw [regStep, Registry.modify_of_some _ hreg]
    refine h.update rfl rfl ⟨hmatch.peer, hmatch.publish, fun other => ?_, hmatch.tracks⟩
    rw [IndexSet.mem_swapRemove, Finset.mem_erase, hmatch.targets]
  | trackPublish endpoint trackId track trackMeta =>
    cases hs'
    exact h.trackPublish hasher codecs endpoint trackId track trackMeta
  | trackUnpublish endpoint trackId =>
    cases hs'
    exact h.trackUnpublish hasher endpoint trackId
  | kvEvent map event =>
    cases hs'
    obtain ⟨_, _, _, -, heq⟩ := onKvEvent_frame codecs s map event
    rw [heq]
    exact h.frame rfl rfl

theorem Follows.dropFront (h : Follows room reg s) :
    Follows room reg { s with queue := s.queue.tail } :=
  h.frame rfl rfl

end MediaServer.Metadata
