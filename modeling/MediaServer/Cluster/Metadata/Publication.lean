import MediaServer.Cluster.Metadata.Registry

/-!
# Publications of the room metadata

What a room announces in the DHT: the info of a peer under the peer's key in the
peers map, the info of a track under the track's key both in the tracks map and
in the peer's private map.  A key should be set exactly while some joined endpoint
publishes what it stands for.

The keys are derived from peer and track name, so two sessions of one peer share
them, but the component does not count: whoever leaves or unpublishes deletes the
key.  The main result says exactly when the keys are right all the same.
-/

namespace MediaServer.Metadata

open Collections Lease Machine DhtKv

variable {Endpoint : Type} [DecidableEq Endpoint]

inductive Publication where
  | peer (peer : PeerId)
  | track (peer : PeerId) (track : TrackName)
deriving DecidableEq

/-- Where a publication is stored. -/
def places (hasher : Hasher) (room : ClusterRoomHash) : Publication → List (Map × Key)
  | .peer peer => [(IdGenerator.peersMap room, IdGenerator.peersKey hasher peer)]
  | .track peer track =>
      [(IdGenerator.tracksMap room, IdGenerator.tracksKey hasher peer track),
        (IdGenerator.peerMap hasher room peer, IdGenerator.tracksKey hasher peer track)]

/-- What one session publishes, within the scope it chose when it joined. -/
def Session.Publishes (session : Session) : Publication → Prop
  | .peer peer => session.peer = peer ∧ session.publish.peer = true
  | .track peer track => session.peer = peer ∧ session.publish.tracks = true ∧
      ∃ trackId, session.tracks trackId = some track

/-- Some joined endpoint publishes it. -/
def Published (reg : Registry Endpoint) (pub : Publication) : Prop :=
  ∃ endpoint session, reg endpoint = some session ∧ session.Publishes pub

/-- What an input newly publishes. -/
def Announces (reg : Registry Endpoint) (pub : Publication) : Input Endpoint → Prop
  | .join _ peer _ publish _ => publish.peer = true ∧ pub = .peer peer
  | .trackPublish endpoint _ track _ =>
      ∃ session, reg endpoint = some session ∧ session.publish.tracks = true ∧
        pub = .track session.peer track
  | _ => False

/-- What an input explicitly withdraws. -/
def Withdraws (reg : Registry Endpoint) (pub : Publication) : Input Endpoint → Prop
  | .leave endpoint => ∃ session, reg endpoint = some session ∧ session.Publishes pub
  | .trackUnpublish endpoint trackId =>
      ∃ session track, reg endpoint = some session ∧ session.publish.tracks = true ∧
        session.tracks trackId = some track ∧ pub = .track session.peer track
  | _ => False

/-! ### Publications in the registry -/

variable {reg : Registry Endpoint} {pub : Publication}

theorem published_update_iff {endpoint : Endpoint} {session : Option Session} :
    Published (Function.update reg endpoint session) pub ↔
      (∃ mine, session = some mine ∧ mine.Publishes pub) ∨
      ∃ other theirs, other ≠ endpoint ∧ reg other = some theirs ∧ theirs.Publishes pub := by
  constructor
  · rintro ⟨other, theirs, hreg, hpub⟩
    by_cases hother : other = endpoint
    · subst hother
      rw [Function.update_self] at hreg
      exact Or.inl ⟨theirs, hreg, hpub⟩
    · rw [Function.update_of_ne hother] at hreg
      exact Or.inr ⟨other, theirs, hother, hreg, hpub⟩
  · rintro (⟨mine, rfl, hpub⟩ | ⟨other, theirs, hother, hreg, hpub⟩)
    · exact ⟨endpoint, mine, Function.update_self .., hpub⟩
    · exact ⟨other, theirs, by rw [Function.update_of_ne hother]; exact hreg, hpub⟩

/-- What is announced is published afterwards. -/
theorem Announces.published {i : Input Endpoint} (h : Announces reg pub i) :
    Published (regStep reg i) pub := by
  cases i with
  | join endpoint peer peerMeta publish subscribe =>
    obtain ⟨hpub, rfl⟩ := h
    exact published_update_iff.mpr (Or.inl ⟨_, rfl, rfl, hpub⟩)
  | trackPublish endpoint trackId track trackMeta =>
    obtain ⟨session, hreg, hpub, rfl⟩ := h
    rw [regStep, Registry.modify_of_some _ hreg]
    refine published_update_iff.mpr (Or.inl ⟨_, rfl, rfl, hpub, trackId, ?_⟩)
    exact Function.update_self ..
  | leave endpoint => exact h.elim
  | subscribePeer endpoint target => exact h.elim
  | unsubscribePeer endpoint target => exact h.elim
  | trackUnpublish endpoint trackId => exact h.elim
  | kvEvent map event => exact h.elim

omit [DecidableEq Endpoint] in
/-- What is withdrawn was published. -/
theorem Withdraws.published {i : Input Endpoint} (h : Withdraws reg pub i) :
    Published reg pub := by
  cases i with
  | leave endpoint =>
    obtain ⟨session, hreg, hpub⟩ := h
    exact ⟨endpoint, session, hreg, hpub⟩
  | trackUnpublish endpoint trackId =>
    obtain ⟨session, track, hreg, hscope, htrack, rfl⟩ := h
    exact ⟨endpoint, session, hreg, rfl, hscope, trackId, htrack⟩
  | join endpoint peer peerMeta publish subscribe => exact h.elim
  | trackPublish endpoint trackId track trackMeta => exact h.elim
  | subscribePeer endpoint target => exact h.elim
  | unsubscribePeer endpoint target => exact h.elim
  | kvEvent map event => exact h.elim

/-- A change of a session that leaves its scope and tracks alone. -/
theorem published_modify_iff {endpoint : Endpoint} {f : Session → Session}
    (hf : ∀ session, (f session).Publishes pub ↔ session.Publishes pub) :
    Published (reg.modify endpoint f) pub ↔ Published reg pub := by
  cases hreg : reg endpoint with
  | none => rw [Registry.modify_of_none _ hreg]
  | some session =>
    have hback : Published reg pub ↔
        Published (Function.update reg endpoint (some session)) pub := by
      rw [← hreg, Function.update_eq_self]
    rw [Registry.modify_of_some _ hreg, hback, published_update_iff, published_update_iff]
    simp [hf]

/-- Nothing is published unless it was announced. -/
theorem published_of_regStep {i : Input Endpoint} (h : Published (regStep reg i) pub) :
    Announces reg pub i ∨ Published reg pub := by
  cases i with
  | join endpoint peer peerMeta publish subscribe =>
    rcases published_update_iff.mp h with ⟨mine, heq, hpub⟩ | ⟨other, theirs, -, hreg, hpub⟩
    · cases heq
      cases pub with
      | peer p => exact Or.inl ⟨hpub.2, by rw [← hpub.1]⟩
      | track p name =>
        obtain ⟨-, -, trackId, htrack⟩ := hpub
        cases htrack
    · exact Or.inr ⟨other, theirs, hreg, hpub⟩
  | leave endpoint =>
    rcases published_update_iff.mp h with ⟨mine, heq, -⟩ | ⟨other, theirs, -, hreg, hpub⟩
    · cases heq
    · exact Or.inr ⟨other, theirs, hreg, hpub⟩
  | trackPublish endpoint trackId track trackMeta =>
    cases hreg : reg endpoint with
    | none =>
      rw [regStep, Registry.modify_of_none _ hreg] at h
      exact Or.inr h
    | some session =>
      rw [regStep, Registry.modify_of_some _ hreg] at h
      rcases published_update_iff.mp h with ⟨mine, heq, hpub⟩ | ⟨other, theirs, -, hother, hpub⟩
      · cases heq
        cases pub with
        | peer p => exact Or.inr ⟨endpoint, session, hreg, hpub⟩
        | track p name =>
          obtain ⟨hpeer, hscope, id, hid⟩ := hpub
          change Function.update session.tracks trackId (some track) id = some name at hid
          by_cases hsame : id = trackId
          · subst hsame
            rw [Function.update_self] at hid
            cases hid
            exact Or.inl ⟨session, hreg, hscope, by rw [← hpeer]⟩
          · rw [Function.update_of_ne hsame] at hid
            exact Or.inr ⟨endpoint, session, hreg, hpeer, hscope, id, hid⟩
      · exact Or.inr ⟨other, theirs, hother, hpub⟩
  | trackUnpublish endpoint trackId =>
    cases hreg : reg endpoint with
    | none =>
      rw [regStep, Registry.modify_of_none _ hreg] at h
      exact Or.inr h
    | some session =>
      rw [regStep, Registry.modify_of_some _ hreg] at h
      rcases published_update_iff.mp h with ⟨mine, heq, hpub⟩ | ⟨other, theirs, -, hother, hpub⟩
      · cases heq
        refine Or.inr ⟨endpoint, session, hreg, ?_⟩
        cases pub with
        | peer p => exact hpub
        | track p name =>
          obtain ⟨hpeer, hscope, id, hid⟩ := hpub
          change Function.update session.tracks trackId none id = some name at hid
          refine ⟨hpeer, hscope, id, ?_⟩
          by_cases hsame : id = trackId
          · subst hsame
            rw [Function.update_self] at hid
            cases hid
          · rwa [Function.update_of_ne hsame] at hid
      · exact Or.inr ⟨other, theirs, hother, hpub⟩
  | subscribePeer endpoint target =>
    exact Or.inr ((published_modify_iff fun session => by cases pub <;> rfl).mp h)
  | unsubscribePeer endpoint target =>
    exact Or.inr ((published_modify_iff fun session => by cases pub <;> rfl).mp h)
  | kvEvent map event => exact Or.inr h

/-! ### The commands of a key -/

/-- The commands that a list of outputs carries for one key of one map. -/
def keyCommand (place : Map × Key) : Output Endpoint → Option Lease.Command
  | .kv ⟨map, .set key _⟩ => if (map, key) = place then some .acquire else none
  | .kv ⟨map, .del key⟩ => if (map, key) = place then some .release else none
  | _ => none

def keyCommands (place : Map × Key) (outputs : List (Output Endpoint)) : List Lease.Command :=
  outputs.filterMap (keyCommand place)

omit [DecidableEq Endpoint] in
theorem keyCommands_append (place : Map × Key) (first second : List (Output Endpoint)) :
    keyCommands place (first ++ second) = keyCommands place first ++ keyCommands place second :=
  List.filterMap_append

omit [DecidableEq Endpoint] in
/-- A key is set or deleted by its own commands alone. -/
theorem keyCommand_eq_some {place : Map × Key} {output : Output Endpoint}
    {command : Lease.Command} :
    keyCommand place output = some command ↔
      (command = .acquire ∧ ∃ data, output = .kv ⟨place.1, .set place.2 data⟩) ∨
      (command = .release ∧ output = .kv ⟨place.1, .del place.2⟩) := by
  obtain ⟨m, k⟩ := place
  cases output with
  | kv control =>
    obtain ⟨map, cmd⟩ := control
    cases cmd with
    | set key data => simp [keyCommand, eq_comm, and_comm]
    | del key => simp [keyCommand, eq_comm, and_comm]
    | sub => simp [keyCommand]
    | unsub => simp [keyCommand]
  | endpoint endpoints event => simp [keyCommand]
  | onResourceEmpty => simp [keyCommand]

omit [DecidableEq Endpoint] in
theorem keyCommand_eq_acquire {place : Map × Key} {output : Output Endpoint} :
    keyCommand place output = some .acquire ↔
      ∃ data, output = .kv ⟨place.1, .set place.2 data⟩ := by
  simp [keyCommand_eq_some]

omit [DecidableEq Endpoint] in
theorem keyCommand_eq_release {place : Map × Key} {output : Output Endpoint} :
    keyCommand place output = some .release ↔ output = .kv ⟨place.1, .del place.2⟩ := by
  simp [keyCommand_eq_some]

omit [DecidableEq Endpoint] in
theorem acquire_mem_keyCommands {place : Map × Key} {outputs : List (Output Endpoint)} :
    .acquire ∈ keyCommands place outputs ↔
      ∃ data, .kv ⟨place.1, .set place.2 data⟩ ∈ outputs := by
  simp only [keyCommands, List.mem_filterMap, keyCommand_eq_acquire]
  constructor
  · rintro ⟨output, hmem, data, rfl⟩
    exact ⟨data, hmem⟩
  · rintro ⟨data, hmem⟩
    exact ⟨_, hmem, data, rfl⟩

omit [DecidableEq Endpoint] in
theorem release_mem_keyCommands {place : Map × Key} {outputs : List (Output Endpoint)} :
    .release ∈ keyCommands place outputs ↔ .kv ⟨place.1, .del place.2⟩ ∈ outputs := by
  simp only [keyCommands, List.mem_filterMap, keyCommand_eq_release]
  constructor
  · rintro ⟨output, hmem, rfl⟩
    exact hmem
  · intro hmem
    exact ⟨_, hmem, rfl⟩

/-- The outputs of an input set the keys of what it announces and delete the keys
    of what it withdraws. -/
structure Reports (hasher : Hasher) (room : ClusterRoomHash) (reg : Registry Endpoint)
    (i : Input Endpoint) (outputs : List (Output Endpoint)) : Prop where
  sets : ∀ place, .acquire ∈ keyCommands place outputs ↔
    ∃ pub, Announces reg pub i ∧ place ∈ places hasher room pub
  dels : ∀ place, .release ∈ keyCommands place outputs ↔
    ∃ pub, Withdraws reg pub i ∧ place ∈ places hasher room pub

variable {hasher : Hasher} {codecs : Codecs} {room : ClusterRoomHash}
  {s s' : RoomMetadata Endpoint}

omit [DecidableEq Endpoint] in
/-- An input that publishes nothing and outputs without set or del. -/
theorem reports_silent {i : Input Endpoint} {outputs : List (Output Endpoint)}
    (hannounce : ∀ pub, ¬ Announces reg pub i) (hwithdraw : ∀ pub, ¬ Withdraws reg pub i)
    (hset : ∀ map key data, .kv ⟨map, .set key data⟩ ∉ outputs)
    (hdel : ∀ map key, .kv ⟨map, .del key⟩ ∉ outputs) :
    Reports hasher room reg i outputs where
  sets place := by
    rw [acquire_mem_keyCommands]
    constructor
    · rintro ⟨data, hmem⟩
      exact absurd hmem (hset _ _ _)
    · rintro ⟨pub, hpub, -⟩
      exact absurd hpub (hannounce pub)
  dels place := by
    rw [release_mem_keyCommands]
    constructor
    · intro hmem
      exact absurd hmem (hdel _ _)
    · rintro ⟨pub, hpub, -⟩
      exact absurd hpub (hwithdraw pub)

theorem Follows.reports_join (h : Follows room reg s) (endpoint : Endpoint) (peer : PeerId)
    (peerMeta : PeerMeta) (publish : RoomInfoPublish) (subscribe : RoomInfoSubscribe) :
    Reports hasher room reg (.join endpoint peer peerMeta publish subscribe)
      (joinOutputs hasher codecs s endpoint peer peerMeta publish subscribe) where
  sets place := by
    obtain ⟨map, key⟩ := place
    rw [acquire_mem_keyCommands]
    simp [joinOutputs, List.mem_ite_nil_right, Announces, places, h.peersMap]
  dels place := by
    rw [release_mem_keyCommands]
    simp [joinOutputs, List.mem_ite_nil_right, Withdraws]

omit [DecidableEq Endpoint] in
theorem mem_trackDels {peer : PeerId} {tracks : List TrackName} {map : Map} {cmd : MapControl}
    (h : s.room = room) :
    .kv ⟨map, cmd⟩ ∈ s.trackDels hasher peer tracks ↔
      ∃ track ∈ tracks, ∃ place ∈ places hasher room (.track peer track),
        map = place.1 ∧ cmd = .del place.2 := by
  simp [RoomMetadata.trackDels, places, RoomMetadata.peerMapOf, s.tracksMap_eq, h]

theorem Follows.reports_leave (h : Follows room reg s) {endpoint : Endpoint}
    (hs' : s.onLeave hasher endpoint = .ok s') :
    ∃ outputs, s'.queue = s.queue ++ outputs ∧
      Reports hasher room reg (.leave endpoint) outputs := by
  rcases onLeave_cases hs' with ⟨hnone, rfl⟩ | ⟨container, maps, hget, heq⟩
  · have hreg := (h.get_eq_none_iff endpoint).mp hnone
    refine ⟨[], by simp, reports_silent (fun _ => id) ?_ (by simp) (by simp)⟩
    rintro pub ⟨session, hsession, -⟩
    rw [hreg] at hsession
    cases hsession
  · obtain ⟨session, hreg, hmatch⟩ := h.session_of_get hget
    rw [heq]
    refine ⟨_, by simp only [RoomMetadata.leaveRoom, List.append_assoc]; rfl, ?_, ?_⟩
    · intro place
      rw [acquire_mem_keyCommands]
      simp [List.mem_ite_nil_right, mem_trackDels h.room_eq, unsubOutputs, Announces]
    · rintro ⟨map, key⟩
      rw [release_mem_keyCommands]
      simp only [List.mem_append, List.mem_ite_nil_right, mem_trackDels h.room_eq, unsubOutputs,
        List.mem_map, List.mem_singleton, Output.kv.injEq, DhtKv.Control.mk.injEq,
        MapControl.del.injEq, reduceCtorEq, and_false, exists_false, or_false,
        h.peersMap]
      constructor
      · rintro (⟨hpub, rfl, rfl⟩ | ⟨track, htrack, place, hplace, rfl, rfl⟩)
        · refine ⟨.peer session.peer, ⟨session, hreg, rfl, ?_⟩, ?_⟩
          · rw [← hmatch.publish]
            exact hpub
          · rw [← hmatch.peer]
            exact List.mem_singleton_self _
        · obtain ⟨trackId, hid⟩ := IndexMap.mem_values_iff.mp htrack
          rw [hmatch.tracks] at hid
          split at hid
          · rename_i hscope
            refine ⟨.track session.peer track, ⟨session, hreg, rfl, hscope, trackId, hid⟩, ?_⟩
            rw [← hmatch.peer]
            exact hplace
          · cases hid
      · rintro ⟨pub, ⟨session', hreg', hpub⟩, hplace⟩
        rw [hreg] at hreg'
        cases hreg'
        cases pub with
        | peer p =>
          left
          obtain ⟨rfl, hscope⟩ := hpub
          rw [hmatch.publish, hmatch.peer]
          simp only [places, List.mem_singleton, Prod.mk.injEq] at hplace
          exact ⟨hscope, hplace⟩
        | track p name =>
          right
          obtain ⟨rfl, hscope, trackId, hid⟩ := hpub
          refine ⟨name, IndexMap.mem_values_iff.mpr ⟨trackId, ?_⟩, (map, key), ?_, rfl, rfl⟩
          · rw [hmatch.tracks, if_pos hscope]
            exact hid
          · rw [hmatch.peer]
            exact hplace

theorem Follows.reports_trackPublish (h : Follows room reg s) (endpoint : Endpoint)
    (trackId : RemoteTrackId) (track : TrackName) (trackMeta : TrackMeta) :
    ∃ outputs, (s.onTrackPublish hasher codecs endpoint trackId track trackMeta).queue =
        s.queue ++ outputs ∧
      Reports hasher room reg (.trackPublish endpoint trackId track trackMeta) outputs := by
  rcases onTrackPublish_cases hasher codecs s endpoint trackId track trackMeta with
    ⟨heq, hsilent⟩ | ⟨container, hget, hscope, heq⟩
  · rw [heq]
    refine ⟨[], by simp, reports_silent ?_ (fun _ => id) (by simp) (by simp)⟩
    rintro pub ⟨session, hreg, hscope, -⟩
    obtain ⟨container, hget, hmatch⟩ := h.get_of_session hreg
    rw [← hmatch.publish, hsilent container hget] at hscope
    cases hscope
  · obtain ⟨session, hreg, hmatch⟩ := h.session_of_get hget
    rw [heq]
    refine ⟨_, rfl, ?_, ?_⟩
    · rintro ⟨map, key⟩
      rw [acquire_mem_keyCommands]
      have hscope' : session.publish.tracks = true := by rw [← hmatch.publish]; exact hscope
      simp [Announces, hreg, hscope', places, h.tracksMap, h.peerMapOf, hmatch.peer, exists_or]
    · intro place
      rw [release_mem_keyCommands]
      simp [Withdraws]

theorem Follows.reports_trackUnpublish (h : Follows room reg s) (endpoint : Endpoint)
    (trackId : RemoteTrackId) :
    ∃ outputs, (s.onTrackUnpublish hasher endpoint trackId).queue = s.queue ++ outputs ∧
      Reports hasher room reg (.trackUnpublish endpoint trackId) outputs := by
  rcases onTrackUnpublish_cases hasher s endpoint trackId with
    ⟨heq, hsilent⟩ | ⟨container, track, hget, htrack, heq⟩
  · rw [heq]
    refine ⟨[], by simp, reports_silent (fun _ => id) ?_ (by simp) (by simp)⟩
    rintro pub ⟨session, track, hreg, hscope, htrack, -⟩
    obtain ⟨container, hget, hmatch⟩ := h.get_of_session hreg
    have habsent := hsilent container hget
    rw [hmatch.tracks, if_pos hscope, htrack] at habsent
    cases habsent
  · obtain ⟨session, hreg, hmatch⟩ := h.session_of_get hget
    rw [hmatch.tracks] at htrack
    split at htrack
    · rename_i hscope
      rw [heq]
      refine ⟨_, rfl, ?_, ?_⟩
      · intro place
        rw [acquire_mem_keyCommands]
        simp [mem_trackDels h.room_eq, Announces]
      · rintro ⟨map, key⟩
        rw [release_mem_keyCommands, mem_trackDels h.room_eq, hmatch.peer]
        constructor
        · rintro ⟨name, hname, place, hplace, rfl, hkey⟩
          cases hkey
          cases List.mem_singleton.mp hname
          exact ⟨_, ⟨session, track, hreg, hscope, htrack, rfl⟩, hplace⟩
        · rintro ⟨pub, ⟨session', track', hreg', -, htrack', rfl⟩, hplace⟩
          rw [hreg] at hreg'
          cases hreg'
          rw [htrack] at htrack'
          cases htrack'
          exact ⟨track, List.mem_singleton_self _, _, hplace, rfl, rfl⟩
    · cases htrack

/-- **What a step says about the keys.** -/
theorem Follows.reports (h : Follows room reg s) {i : Input Endpoint}
    (hs' : Metadata.step hasher codecs s i = .ok s') :
    ∃ outputs, s'.queue = s.queue ++ outputs ∧ Reports hasher room reg i outputs := by
  cases i with
  | join endpoint peer peerMeta publish subscribe =>
    cases hs'
    exact ⟨_, by rw [onJoin_eq], h.reports_join ..⟩
  | leave endpoint => exact h.reports_leave hs'
  | trackPublish endpoint trackId track trackMeta =>
    cases hs'
    exact h.reports_trackPublish ..
  | trackUnpublish endpoint trackId =>
    cases hs'
    exact h.reports_trackUnpublish ..
  | subscribePeer endpoint target =>
    obtain ⟨container, -, rfl⟩ := onSubscribePeer_cases hs'
    refine ⟨_, rfl, reports_silent (fun _ => id) (fun _ => id) ?_ ?_⟩
    · intro map key data
      simp [List.mem_ite_nil_right]
    · intro map key
      simp [List.mem_ite_nil_right]
  | unsubscribePeer endpoint target =>
    obtain ⟨container, -, rfl⟩ := onUnsubscribePeer_cases hs'
    refine ⟨_, rfl, reports_silent (fun _ => id) (fun _ => id) ?_ ?_⟩
    · intro map key data
      simp [List.mem_ite_nil_right]
    · intro map key
      simp [List.mem_ite_nil_right]
  | kvEvent map event =>
    cases hs'
    obtain ⟨_, _, outputs, houtputs, heq⟩ := onKvEvent_frame codecs s map event
    refine ⟨outputs, by rw [heq], reports_silent (fun _ => id) (fun _ => id) ?_ ?_⟩
    · intro map' key data hmem
      obtain ⟨_, _, hout⟩ := houtputs _ hmem
      cases hout
    · intro map' key hmem
      obtain ⟨_, _, hout⟩ := houtputs _ hmem
      cases hout

/-! ### One step against the registry -/

/-- Different publications among these are stored at different places. -/
def PlacesDistinct (hasher : Hasher) (room : ClusterRoomHash) (used : Set Publication) : Prop :=
  ∀ first ∈ used, ∀ second ∈ used, ∀ place,
    place ∈ places hasher room first → place ∈ places hasher room second → first = second

/-- Every key is set exactly while what it stands for is published. -/
def KeysFollow (hasher : Hasher) (room : ClusterRoomHash) (used : Set Publication)
    (reg : Registry Endpoint) (outputs : List (Output Endpoint)) : Prop :=
  ∀ pub ∈ used, ∀ place ∈ places hasher room pub,
    Outstanding (keyCommands place outputs) ↔ Published reg pub

/-- What the input withdraws is published by nobody else. -/
def WithdrawsLast (reg : Registry Endpoint) (i : Input Endpoint) : Prop :=
  ∀ pub, Withdraws reg pub i → ¬ Published (regStep reg i) pub

/-- What the input does not withdraw stays published. -/
def KeepsOthers (reg : Registry Endpoint) (i : Input Endpoint) : Prop :=
  ∀ pub, Published reg pub → ¬ Withdraws reg pub i → Published (regStep reg i) pub

omit [DecidableEq Endpoint] in
theorem not_announces_or_not_withdraws (reg : Registry Endpoint) (i : Input Endpoint) :
    (∀ pub, ¬ Announces reg pub i) ∨ ∀ pub, ¬ Withdraws reg pub i := by
  cases i with
  | join endpoint peer peerMeta publish subscribe => exact Or.inr fun _ => id
  | trackPublish endpoint trackId track trackMeta => exact Or.inr fun _ => id
  | leave endpoint => exact Or.inl fun _ => id
  | trackUnpublish endpoint trackId => exact Or.inl fun _ => id
  | subscribePeer endpoint target => exact Or.inl fun _ => id
  | unsubscribePeer endpoint target => exact Or.inl fun _ => id
  | kvEvent map event => exact Or.inl fun _ => id

omit [DecidableEq Endpoint] in
theorem exists_mem_places (hasher : Hasher) (room : ClusterRoomHash) (pub : Publication) :
    ∃ place, place ∈ places hasher room pub := by
  cases pub with
  | peer p => exact ⟨_, List.mem_cons_self ..⟩
  | track p name => exact ⟨_, List.mem_cons_self ..⟩

variable {used : Set Publication} {i : Input Endpoint} {trace outputs : List (Output Endpoint)}

omit [DecidableEq Endpoint] in
/-- The key of a publication after an input: set by an announcement, deleted by a
    withdrawal, else as before. -/
theorem Reports.outstanding_iff (h : Reports hasher room reg i outputs)
    (hfree : PlacesDistinct hasher room used)
    (hannounce : ∀ pub, Announces reg pub i → pub ∈ used)
    (hpublished : ∀ pub, Published reg pub → pub ∈ used) (hpub : pub ∈ used)
    {place : Map × Key} (hplace : place ∈ places hasher room pub) :
    Outstanding (keyCommands place (trace ++ outputs)) ↔
      Announces reg pub i ∨ (¬ Withdraws reg pub i ∧ Outstanding (keyCommands place trace)) := by
  have hsets : .acquire ∈ keyCommands place outputs ↔ Announces reg pub i := by
    rw [h.sets]
    constructor
    · rintro ⟨other, hother, hplace'⟩
      rwa [hfree pub hpub other (hannounce other hother) place hplace hplace']
    · exact fun hpub' => ⟨pub, hpub', hplace⟩
  have hdels : .release ∈ keyCommands place outputs ↔ Withdraws reg pub i := by
    rw [h.dels]
    constructor
    · rintro ⟨other, hother, hplace'⟩
      rwa [hfree pub hpub other (hpublished other hother.published) place hplace hplace']
    · exact fun hpub' => ⟨pub, hpub', hplace⟩
  rw [Outstanding, keyCommands_append, heldFrom_append]
  rcases not_announces_or_not_withdraws reg i with hnone | hnone
  · rw [heldFrom_of_not_mem_acquire (fun hmem => hnone pub (hsets.mp hmem)), hdels]
    simp [hnone pub, Outstanding, and_comm]
  · rw [heldFrom_of_not_mem_release (fun hmem => hnone pub (hdels.mp hmem)), hsets]
    simp [hnone pub, Outstanding, or_comm]

/-- **One step.** Where the keys are right, an input keeps them right exactly if it
    withdraws only what nobody else publishes and takes nothing else away. -/
theorem Reports.keysFollow_iff (h : Reports hasher room reg i outputs)
    (hfree : PlacesDistinct hasher room used)
    (hannounce : ∀ pub, Announces reg pub i → pub ∈ used)
    (hpublished : ∀ pub, Published reg pub → pub ∈ used)
    (hkeys : KeysFollow hasher room used reg trace) :
    KeysFollow hasher room used (regStep reg i) (trace ++ outputs) ↔
      WithdrawsLast reg i ∧ KeepsOthers reg i := by
  have hstep : ∀ pub ∈ used, ∀ place ∈ places hasher room pub,
      (Outstanding (keyCommands place (trace ++ outputs)) ↔
        Announces reg pub i ∨ (¬ Withdraws reg pub i ∧ Published reg pub)) := by
    intro pub hpub place hplace
    rw [h.outstanding_iff hfree hannounce hpublished hpub hplace, hkeys pub hpub place hplace]
  constructor
  · intro hafter
    have hiff : ∀ pub ∈ used, (Published (regStep reg i) pub ↔
        Announces reg pub i ∨ (¬ Withdraws reg pub i ∧ Published reg pub)) := by
      intro pub hpub
      obtain ⟨place, hplace⟩ := exists_mem_places hasher room pub
      rw [← hafter pub hpub place hplace, hstep pub hpub place hplace]
    refine ⟨fun pub hwith hstill => ?_, fun pub hpub hnot => ?_⟩
    · rcases (hiff pub (hpublished pub hwith.published)).mp hstill with hann | ⟨hnot, -⟩
      · rcases not_announces_or_not_withdraws reg i with hnone | hnone
        · exact hnone pub hann
        · exact hnone pub hwith
      · exact hnot hwith
    · exact (hiff pub (hpublished pub hpub)).mpr (Or.inr ⟨hnot, hpub⟩)
  · rintro ⟨hlast, hothers⟩ pub hpub place hplace
    rw [hstep pub hpub place hplace]
    constructor
    · rintro (hann | ⟨hnot, hbefore⟩)
      · exact hann.published
      · exact hothers pub hbefore hnot
    · intro hafter
      rcases published_of_regStep hafter with hann | hbefore
      · exact Or.inl hann
      · exact Or.inr ⟨fun hwith => hlast pub hwith hafter, hbefore⟩

/-! ### Runs -/

/-- Everything that is announced is among `used`. -/
def AnnouncesWithin (used : Set Publication) :
    Contract (RoomMetadata Endpoint) (Input Endpoint) (Output Endpoint) :=
  fun history _ i => ∀ pub, Announces (registry history) pub i → pub ∈ used

instance (used : Set Publication) [DecidablePred (· ∈ used)]
    (history : History (Input Endpoint) (Output Endpoint)) (s : RoomMetadata Endpoint) :
    ∀ i, Decidable (AnnouncesWithin used history s i)
  | .join _ peer _ publish _ =>
      decidable_of_iff (publish.peer = true → .peer peer ∈ used)
        ⟨fun h _ hpub => hpub.2 ▸ h hpub.1, fun h hpub => h _ ⟨hpub, rfl⟩⟩
  | .trackPublish endpoint _ track _ =>
      match hreg : registry history endpoint with
      | none => .isTrue fun _ hpub => by
          obtain ⟨session, hsession, -⟩ := hpub
          rw [hreg] at hsession
          cases hsession
      | some session =>
        decidable_of_iff (session.publish.tracks = true → .track session.peer track ∈ used)
          ⟨fun h _ hpub => by
              obtain ⟨session', hsession, hscope, rfl⟩ := hpub
              rw [hreg] at hsession
              cases hsession
              exact h hscope,
            fun h hscope => h _ ⟨session, hreg, hscope, rfl⟩⟩
  | .leave _ => .isTrue fun _ hpub => hpub.elim
  | .trackUnpublish _ _ => .isTrue fun _ hpub => hpub.elim
  | .subscribePeer _ _ => .isTrue fun _ hpub => hpub.elim
  | .unsubscribePeer _ _ => .isTrue fun _ hpub => hpub.elim
  | .kvEvent _ _ => .isTrue fun _ hpub => hpub.elim

/-- The input withdraws only what nobody else publishes and takes nothing else away. -/
def SoleWithdrawal : Contract (RoomMetadata Endpoint) (Input Endpoint) (Output Endpoint) :=
  fun history _ i =>
    WithdrawsLast (registry history) i ∧ KeepsOthers (registry history) i

/-- The operations that publish. -/
def IsPublishing : Input Endpoint → Prop
  | .join _ _ _ _ _ => True
  | .leave _ => True
  | .trackPublish _ _ _ _ => True
  | .trackUnpublish _ _ => True
  | _ => False

/-- Nobody follows a peer by hand. -/
def NoTargets (s : RoomMetadata Endpoint) : Prop :=
  ∀ endpoint container, s.peers.get endpoint = some container → container.subPeers.toList = []

theorem NoTargets.insert (h : NoTargets s) {endpoint : Endpoint} {container : PeerContainer}
    (hpeers : s'.peers = s.peers.insert endpoint container)
    (hempty : container.subPeers.toList = []) : NoTargets s' := by
  intro other container' hget
  rw [hpeers, IndexMap.get_insert] at hget
  split at hget
  · cases hget
    exact hempty
  · exact h other container' hget

/-- The four operations never panic. -/
theorem NoTargets.step (h : NoTargets s) (hi : IsPublishing i) :
    ∃ s', Metadata.step hasher codecs s i = .ok s' ∧ NoTargets s' := by
  cases i with
  | join endpoint peer peerMeta publish subscribe =>
    refine ⟨_, rfl, ?_⟩
    rw [onJoin_eq]
    exact h.insert rfl rfl
  | leave endpoint =>
    simp only [Metadata.step, RoomMetadata.onLeave]
    cases hget : s.peers.get endpoint with
    | none => exact ⟨s, rfl, h⟩
    | some container =>
      simp only [h endpoint container hget, RoomMetadata.leaveTargets]
      refine ⟨_, rfl, fun other container' hget' => ?_⟩
      simp only [RoomMetadata.leaveRoom, IndexMap.get_swapRemove] at hget'
      split at hget'
      · cases hget'
      · exact h other container' hget'
  | trackPublish endpoint trackId track trackMeta =>
    refine ⟨_, rfl, ?_⟩
    rcases onTrackPublish_cases hasher codecs s endpoint trackId track trackMeta with
      ⟨heq, -⟩ | ⟨container, hget, -, heq⟩
    · rw [heq]
      exact h
    · rw [heq]
      exact h.insert rfl (h endpoint container hget)
  | trackUnpublish endpoint trackId =>
    refine ⟨_, rfl, ?_⟩
    rcases onTrackUnpublish_cases hasher s endpoint trackId with
      ⟨heq, -⟩ | ⟨container, track, hget, -, heq⟩
    · rw [heq]
      exact h
    · rw [heq]
      exact h.insert rfl (h endpoint container hget)
  | subscribePeer endpoint target => exact hi.elim
  | unsubscribePeer endpoint target => exact hi.elim
  | kvEvent map event => exact hi.elim

/-- Along every run the component follows the registry and only publishes what is
    among `used`. -/
theorem follows_run {acts : List (Action (Input Endpoint))} {c : Config _ _ _}
    (hacts : (machine hasher codecs room).Admits (AnnouncesWithin used) acts)
    (hrun : (machine hasher codecs room).run acts = .ok c) :
    Follows room (registry c.history) c.state ∧
      ∀ pub, Published (registry c.history) pub → pub ∈ used := by
  refine run_invariant (M := machine hasher codecs room) (AnnouncesWithin used)
    (fun history s => Follows room (registry history) s ∧
      ∀ pub, Published (registry history) pub → pub ∈ used) ⟨follows_init, ?_⟩ ?_ ?_ hacts hrun
  · rintro pub ⟨endpoint, session, hreg, -⟩
    cases hreg
  · rintro history s i s' ⟨h, hused⟩ hok hs'
    rw [registry_concat]
    refine ⟨h.step hs', fun pub hpub => ?_⟩
    rcases published_of_regStep hpub with hann | hbefore
    · exact hok pub hann
    · exact hused pub hbefore
  · rintro history s ⟨h, hused⟩
    exact ⟨h.dropFront, hused⟩

theorem keysFollow_run (hfree : PlacesDistinct hasher room used)
    {acts : List (Action (Input Endpoint))} {c : Config _ _ _}
    (hacts : (machine hasher codecs room).Admits (AnnouncesWithin used) acts)
    (hsole : (machine hasher codecs room).Admits SoleWithdrawal acts)
    (hrun : (machine hasher codecs room).run acts = .ok c) :
    KeysFollow hasher room used (registry c.history) (emitted c.history) := by
  have hinv := run_invariant (M := machine hasher codecs room)
    (fun history s i => AnnouncesWithin used history s i ∧ SoleWithdrawal history s i)
    (fun history s => (Follows room (registry history) s ∧
      ∀ pub, Published (registry history) pub → pub ∈ used) ∧
      KeysFollow hasher room used (registry history) (emitted history))
    ⟨⟨follows_init, ?_⟩, ?_⟩ ?_ ?_ (hacts.and hsole) hrun
  · exact hinv.2
  · rintro pub ⟨endpoint, session, hreg, -⟩
    cases hreg
  · intro pub hpub place hplace
    constructor
    · intro h
      cases h
    · rintro ⟨endpoint, session, hreg, -⟩
      cases hreg
  · rintro history s i s' ⟨⟨h, hused⟩, hkeys⟩ ⟨hann, hcond⟩ hs'
    obtain ⟨outputs, hqueue, hreports⟩ := h.reports hs'
    rw [registry_concat, emitted_concat,
      pushed_eq_of_append (machine hasher codecs room) hqueue]
    refine ⟨⟨h.step hs', fun pub hpub => ?_⟩, ?_⟩
    · rcases published_of_regStep hpub with hnew | hbefore
      · exact hann pub hnew
      · exact hused pub hbefore
    · exact (hreports.keysFollow_iff hfree hann hused hkeys).mpr hcond
  · rintro history s ⟨⟨h, hused⟩, hkeys⟩
    exact ⟨⟨h.dropFront, hused⟩, hkeys⟩

/-- **Publication trace.** A run of joins, leaves, publishes and unpublishes never
    panics.  If the keys of what is announced do not collide, then in every run
    that ends the keys are right after each operation if and only if every
    operation withdraws only what no other session or track publishes and takes
    nothing else away. -/
theorem publication_trace_iff (hasher : Hasher) (codecs : Codecs) (room : ClusterRoomHash)
    (used : Set Publication) (hfree : PlacesDistinct hasher room used)
    (acts : List (Action (Input Endpoint)))
    (hacts : (machine hasher codecs room).Admits (AnnouncesWithin used) acts) :
    ((∀ i, .input i ∈ acts → IsPublishing i) →
      ∃ c, (machine hasher codecs room).run acts = .ok c) ∧
    ∀ final, (machine hasher codecs room).run acts = .ok final →
      ((∀ before after c, acts = before ++ after →
          (machine hasher codecs room).run before = .ok c →
          KeysFollow hasher room used (registry c.history) (emitted c.history)) ↔
        (machine hasher codecs room).Admits SoleWithdrawal acts) := by
  refine ⟨fun hops => ?_, fun final hfinal => ⟨fun hkeys => ?_, fun hsole => ?_⟩⟩
  · have hadm : (machine hasher codecs room).Admits
        (fun _ _ i => IsPublishing i) acts := by
      rintro before i after rfl c hc
      exact hops i (by simp)
    refine (run_progress (M := machine hasher codecs room) (fun _ _ i => IsPublishing i)
      (fun _ s => NoTargets s) ?_ ?_ ?_ hadm).imp fun c h => h.1
    · intro endpoint container hget
      cases hget
    · intro history s i h hi
      exact h.step hi
    · intro history s h
      exact h
  · rintro before i after rfl c hc
    obtain ⟨h, hused⟩ := follows_run hacts.of_append hc
    obtain ⟨c₀, c₁, hc₀, hexec⟩ := run_of_append_cons _ hfinal
    rw [hc] at hc₀
    cases hc₀
    obtain ⟨s', hs', rfl⟩ := (exec_input_eq_ok _).mp hexec
    obtain ⟨outputs, hqueue, hreports⟩ := h.reports hs'
    have hann : AnnouncesWithin used c.history c.state i := hacts before i after rfl c hc
    have hbefore := hkeys before _ c rfl hc
    have hafter := hkeys (before ++ [Action.input i]) after _ (by simp)
      ((run_concat_eq_ok _).mpr ⟨c, hc, hexec⟩)
    rw [registry_concat, emitted_concat,
      pushed_eq_of_append (machine hasher codecs room) hqueue] at hafter
    exact (hreports.keysFollow_iff hfree hann hused hbefore).mp hafter
  · rintro before after c rfl hc
    exact keysFollow_run hfree hacts.of_append hsole.of_append hc

def alicePublications : Set Publication :=
  {pub | pub ∈ [Publication.peer "alice", Publication.track "alice" "cam"]}

instance : DecidablePred (· ∈ alicePublications) := fun pub =>
  inferInstanceAs (Decidable (pub ∈ [Publication.peer "alice", Publication.track "alice" "cam"]))

theorem alicePublications_distinct : PlacesDistinct fnv1a 0 alicePublications := by
  -- `List.all`, as the places are pairs of machine words and a `∀` over them may be
  -- decided by enumerating the words
  have hall : ([Publication.peer "alice", Publication.track "alice" "cam"].all fun first =>
      [Publication.peer "alice", Publication.track "alice" "cam"].all fun second =>
        (places fnv1a 0 first).all fun place =>
          decide (place ∈ places fnv1a 0 second → first = second)) = true := by
    decide +kernel
  simp only [List.all_eq_true, decide_eq_true_eq] at hall
  exact fun first hfirst second hsecond place => hall first hfirst second hsecond place

/-- A session publishes a track, stops it and leaves. -/
def publishAndLeave : List (Action (Input Nat)) :=
  [.input (.join 1 "alice" ⟨none, none⟩ ⟨true, true⟩ ⟨false, false⟩),
    .input (.trackPublish 1 5 "cam" .defaultAudio), .pop, .input (.trackUnpublish 1 5),
    .input (.leave 1)]

theorem publication_trace_publishAndLeave :
    ∃ c, (machine fnv1a .blank 0).run publishAndLeave = .ok c := by
  refine (publication_trace_iff fnv1a .blank 0 alicePublications
    alicePublications_distinct publishAndLeave (AdmitsFrom.admits (by decide))).1 ?_
  intro i hi
  simp only [publishAndLeave, List.mem_cons, Action.input.injEq, reduceCtorEq, List.not_mem_nil,
    or_false, false_or] at hi
  rcases hi with rfl | rfl | rfl | rfl <;> trivial

/-- Two sessions of one peer: when the first leaves, it deletes the key that the
    second still publishes. -/
theorem leave_deletes_key_of_other_session :
    ∃ (acts : List (Action (Input Nat))) (c : Config _ _ _),
      acts = [.input (.join 1 "alice" ⟨none, none⟩ ⟨true, true⟩ ⟨false, false⟩),
        .input (.join 2 "alice" ⟨none, none⟩ ⟨true, true⟩ ⟨false, false⟩), .input (.leave 1)] ∧
      PlacesDistinct fnv1a 0 alicePublications ∧
      (machine fnv1a .blank 0).Admits (AnnouncesWithin alicePublications) acts ∧
      (machine fnv1a .blank 0).run acts = .ok c ∧
      ¬ KeysFollow fnv1a 0 alicePublications (registry c.history) (emitted c.history) := by
  refine ⟨_, _, rfl, alicePublications_distinct, AdmitsFrom.admits (by decide), rfl, ?_⟩
  intro hkeys
  have hset := (hkeys (.peer "alice") (by decide)
    (IdGenerator.peersMap 0, IdGenerator.peersKey fnv1a "alice")
    (List.mem_singleton_self _)).mpr ⟨2, _, rfl, rfl, rfl⟩
  revert hset
  decide +kernel

end MediaServer.Metadata
