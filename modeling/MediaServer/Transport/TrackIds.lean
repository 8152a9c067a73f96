import MediaServer.Lib.Places
import MediaServer.Transport.ClientRpc

/-!
# The track ids of an SDK client

A track gets the place it has in the request that brings it as its id, and the endpoint knows it by
that id only.  The first request numbers its tracks from zero; so does every update, and a track
that is new in it may get the id of a track that is there already.
-/

namespace MediaServer.Transport.TransportWebrtcSdk

open Proto Collections Machine

/-! ### What the claim says -/

/-- Every id belongs to one track: the endpoint and the transport mean the same track by it, and
    a request for a name goes to the track of that name. -/
structure Identified (t : TransportWebrtcSdk) : Prop where
  remoteIds : (t.remoteTracks.map RemoteTrack.id).Nodup
  localIds : (t.localTracks.map LocalTrack.id).Nodup
  remoteEvent : ∀ track ∈ t.remoteTracks, t.remoteTrack track.id = some track
  localEvent : ∀ track ∈ t.localTracks, t.localTrack track.id = some track
  remoteRequest : ∀ name track, t.remoteTrackByName name = some track →
    track.name = name ∧ t.remoteTrack track.id = some track
  localRequest : ∀ name track, t.localTrackByName name = some track →
    track.name = name ∧ t.localTrack track.id = some track

/-- Ids are 16-bit numbers. -/
def idWidth : Nat := 65536

/-- The condition on the requests of a client: the names that updates add are listed behind the
    tracks of the connect request, and apart from each other. -/
structure WellNumbered (connect : Tracks) (updates : List Tracks) : Prop where
  senders : Numbered idWidth (connect.senders.map Sender.name)
    (updates.map fun tracks => tracks.senders.map Sender.name)
  receivers : Numbered idWidth (connect.receivers.map Receiver.name)
    (updates.map fun tracks => tracks.receivers.map Receiver.name)

/-- An element with a unique key is found by its key. -/
theorem find_of_nodup {α β : Type} [DecidableEq β] {key : α → β} {xs : List α}
    (hnodup : (xs.map key).Nodup) {x : α} (hmem : x ∈ xs) :
    xs.find? (fun y => decide (key y = key x)) = some x := by
  induction xs with
  | nil => cases hmem
  | cons y xs ih =>
    rw [List.map_cons, List.nodup_cons] at hnodup
    rcases List.mem_cons.mp hmem with rfl | hrest
    · simp
    · have hne : key y ≠ key x := fun heq =>
        hnodup.1 (heq ▸ List.mem_map_of_mem hrest)
      rw [List.find?_cons_of_neg (by simpa using hne)]
      exact ih hnodup.2 hrest

theorem identified_iff (t : TransportWebrtcSdk) :
    t.Identified ↔ (t.remoteTracks.map RemoteTrack.id).Nodup ∧
      (t.localTracks.map LocalTrack.id).Nodup := by
  constructor
  · intro h
    exact ⟨h.remoteIds, h.localIds⟩
  · rintro ⟨hremote, hlocal⟩
    refine ⟨hremote, hlocal, fun track => find_of_nodup hremote, fun track => find_of_nodup hlocal,
      ?_, ?_⟩
    · intro name track hfound
      unfold remoteTrackByName at hfound
      have hname := List.find?_some hfound
      exact ⟨of_decide_eq_true hname, find_of_nodup hremote (List.mem_of_find?_eq_some hfound)⟩
    · intro name track hfound
      unfold localTrackByName at hfound
      have hname := List.find?_some hfound
      exact ⟨of_decide_eq_true hname, find_of_nodup hlocal (List.mem_of_find?_eq_some hfound)⟩

/-! ### Names and ids -/

def remoteLabels (t : TransportWebrtcSdk) : List (TrackName × RemoteTrackId) :=
  t.remoteTracks.map fun track => (track.name, track.id)

def localLabels (t : TransportWebrtcSdk) : List (TrackName × LocalTrackId) :=
  t.localTracks.map fun track => (track.name, track.id)

/-- The tracks are those they were, up to their sources and their media. -/
def SameLabels (t t' : TransportWebrtcSdk) : Prop :=
  t'.remoteLabels = t.remoteLabels ∧ t'.localLabels = t.localLabels

theorem SameLabels.refl (t : TransportWebrtcSdk) : SameLabels t t := ⟨rfl, rfl⟩

theorem SameLabels.trans {t t' t'' : TransportWebrtcSdk} (h : SameLabels t t')
    (h' : SameLabels t' t'') : SameLabels t t'' :=
  ⟨h'.1.trans h.1, h'.2.trans h.2⟩

/-- The replacement of the element that is found changes nothing that both elements agree on. -/
theorem map_set_findIdx {α β : Type} {f : α → β} {p : α → Bool} {xs : List α} {x x' : α}
    (hfind : xs.find? p = some x) (hsame : f x' = f x) :
    (xs.set (xs.findIdx p) x').map f = xs.map f := by
  induction xs with
  | nil => cases hfind
  | cons y xs ih =>
    rw [List.findIdx_cons]
    cases hp : p y with
    | true =>
      rw [List.find?_cons_of_pos hp] at hfind
      cases hfind
      simp [hsame]
    | false =>
      rw [List.find?_cons_of_neg (by simp [hp])] at hfind
      simp [ih hfind]

theorem sameLabels_push (t : TransportWebrtcSdk) (outs : List InternalOutput) :
    SameLabels t (t.push outs) := ⟨rfl, rfl⟩

theorem sameLabels_moveTo (t : TransportWebrtcSdk) (next : State × List TransportState) :
    SameLabels t (t.moveTo next) := ⟨rfl, rfl⟩

theorem sameLabels_sendEvent (t : TransportWebrtcSdk) (event : ServerEventKind) :
    SameLabels t (t.sendEvent event) := by
  unfold sendEvent
  split
  · exact SameLabels.refl t
  · exact ⟨rfl, rfl⟩

theorem sameLabels_sendRpcResult (t : TransportWebrtcSdk) (reqId : UInt32) (good : ResponseKind)
    (res : RpcResult) : SameLabels t (t.sendRpcResult reqId good res) := by
  cases res with
  | ok value => exact t.sameLabels_sendEvent _
  | error err => exact t.sameLabels_sendEvent _

theorem sameLabels_updateRemoteTrack {t : TransportWebrtcSdk} {name : String}
    {track track' : RemoteTrack} (hfound : t.remoteTrackByName name = some track)
    (hname : track'.name = track.name) (hid : track'.id = track.id) :
    SameLabels t (t.updateRemoteTrack name track') :=
  ⟨map_set_findIdx hfound (Prod.ext hname hid), rfl⟩

/-! ### Requests that add no track -/

theorem sameLabels_onJoinReq (decodeToken : DecodeToken) (t : TransportWebrtcSdk)
    (reqId : UInt32) (info : RoomJoin) (token : String) :
    SameLabels t (t.onJoinReq decodeToken reqId info token) := by
  unfold onJoinReq
  split
  · exact t.sameLabels_sendEvent _
  · split
    · exact t.sameLabels_sendEvent _
    · split
      · exact t.sameLabels_push _
      · exact t.sameLabels_sendEvent _

theorem sameLabels_onSenderReq (t : TransportWebrtcSdk) (reqId : UInt32) (name : String)
    (req : SenderRequest) : SameLabels t (t.onSenderReq reqId name req) := by
  unfold onSenderReq
  split
  · exact t.sameLabels_sendEvent _
  · rename_i track hfound
    have hupdate : ∀ source, SameLabels t
        (t.updateRemoteTrack name { track with source := source }) := fun source =>
      sameLabels_updateRemoteTrack hfound rfl rfl
    cases req with
    | attach source config =>
      dsimp only
      split
      · exact t.sameLabels_sendEvent _
      · exact ((hupdate _).trans (sameLabels_sendEvent _ _)).trans (sameLabels_push _ _)
    | detach =>
      dsimp only
      split
      · exact ((hupdate _).trans (sameLabels_sendEvent _ _)).trans (sameLabels_push _ _)
      · exact t.sameLabels_sendEvent _
    | config config => exact t.sameLabels_push _

theorem sameLabels_onReceverReq (t : TransportWebrtcSdk) (reqId : UInt32) (name : String)
    (req : ReceiverRequest) : SameLabels t (t.onReceverReq reqId name req) := by
  unfold onReceverReq
  split
  · exact t.sameLabels_sendEvent _
  · cases req with
    | attach source config => exact t.sameLabels_push _
    | detach => exact t.sameLabels_push _
    | config config => exact t.sameLabels_push _

/-- The tracks an input adds. -/
def sdpOf : Input → Option Tracks
  | .str0m _ (.channelData (some ⟨_, some (.request ⟨_, some (.session (some (.sdp tracks _)))⟩)⟩)) =>
      some (tracks.getD {})
  | _ => none

/-- What an input does to the names and ids of the tracks. -/
def Relabels (t t' : TransportWebrtcSdk) : Option Tracks → Prop
  | none => SameLabels t t'
  | some tracks => ∃ reqId sdp, t' = t.onSdpReq reqId tracks sdp

theorem onRequest_relabels {decodeToken : DecodeToken} {t t' : TransportWebrtcSdk}
    {req : Request} (now : Instant) (seq : UInt32) (h : t.onRequest decodeToken req = .ok t') :
    Relabels t t' (sdpOf (.str0m now (.channelData (some ⟨seq, some (.request req)⟩)))) := by
  obtain ⟨reqId, request⟩ := req
  have hinvalid : SameLabels t (t.onInvalidReq reqId) := t.sameLabels_sendEvent _
  cases request with
  | none =>
    cases h
    exact hinvalid
  | some kind =>
    cases kind with
    | session request =>
      cases request with
      | none =>
        cases h
        exact hinvalid
      | some session =>
        cases h
        cases session with
        | join info token => exact t.sameLabels_onJoinReq decodeToken reqId _ token
        | leave => exact t.sameLabels_push _
        | sdp tracks sdp => exact ⟨reqId, sdp, rfl⟩
        | disconnect =>
          change SameLabels t (t.onSessionReq decodeToken reqId .disconnect)
          simp only [onSessionReq]
          split
          · exact t.sameLabels_sendEvent _
          · exact (t.sameLabels_moveTo _).trans (sameLabels_sendEvent _ _)
    | room request =>
      cases request with
      | none =>
        cases h
        exact hinvalid
      | some room => cases h
    | sender name request =>
      cases request with
      | none =>
        cases h
        exact hinvalid
      | some sender =>
        cases h
        exact t.sameLabels_onSenderReq reqId name sender
    | receiver name request =>
      cases request with
      | none =>
        cases h
        exact hinvalid
      | some receiver =>
        cases h
        exact t.sameLabels_onReceverReq reqId name receiver
    | features request =>
      cases request with
      | none =>
        cases h
        exact SameLabels.refl t
      | some features =>
        obtain ⟨request⟩ := features
        cases request with
        | none =>
          cases h
          exact SameLabels.refl t
        | some mixer =>
          cases mixer with
          | attach sources | detach sources =>
            cases h
            exact t.sameLabels_push _
    | messageChannel label request =>
      cases request with
      | none =>
        cases h
        exact hinvalid
      | some channel =>
        cases h
        exact t.sameLabels_push _

/-! ### Other inputs -/

theorem sameLabels_onTransportRpcRes {t t' : TransportWebrtcSdk} {reqId : EndpointReqId}
    {res : EndpointRes} (h : t.onTransportRpcRes reqId res = .ok t') : SameLabels t t' := by
  unfold onTransportRpcRes at h
  split at h
  all_goals
    cases h
    try exact t.sameLabels_sendRpcResult ..

theorem sameLabels_onEndpointEvent (t : TransportWebrtcSdk) (now : Instant)
    (event : EndpointEvent) : SameLabels t (t.onEndpointEvent now event) := by
  cases event with
  | peerJoined | peerLeaved | peerTrackStarted | peerTrackStopped | channelMessage =>
    exact t.sameLabels_sendEvent _
  | audioMixer event =>
    cases event with
    | slotSet | slotUnset => exact t.sameLabels_sendEvent _
  | bweConfig current desired => exact t.sameLabels_push _
  | remoteMediaTrack id event =>
    change SameLabels t (t.onRemoteMediaTrack id event)
    unfold onRemoteMediaTrack
    split
    · exact SameLabels.refl t
    · split
      · exact SameLabels.refl t
      · exact t.sameLabels_push _
      · exact t.sameLabels_push _
  | localMediaTrack id event =>
    change SameLabels t (t.onLocalMediaTrack now id event)
    unfold onLocalMediaTrack
    split
    · exact SameLabels.refl t
    · split
      · exact SameLabels.refl t
      · exact ⟨rfl, rfl⟩
    · exact t.sameLabels_sendEvent _
    · exact t.sameLabels_sendEvent _

theorem setStr0m_eq_ok {track track' : RemoteTrack} {mid : Mid} {sim : Bool}
    (h : track.setStr0m mid sim = .ok track') : track'.name = track.name ∧ track'.id = track.id := by
  unfold RemoteTrack.setStr0m at h
  split at h
  · cases h
    exact ⟨rfl, rfl⟩
  · cases h

theorem setMid_eq_ok {track track' : LocalTrack} {mid : Mid}
    (h : track.setMid mid = .ok track') : track'.name = track.name ∧ track'.id = track.id := by
  unfold LocalTrack.setMid at h
  split at h
  · cases h
    exact ⟨rfl, rfl⟩
  · cases h

theorem sameLabels_onStr0mMediaAdded {t t' : TransportWebrtcSdk} {media : MediaAdded}
    (h : t.onStr0mMediaAdded media = .ok t') : SameLabels t t' := by
  have hremote : t.onRemoteMediaAdded media = .ok t' → SameLabels t t' := by
    intro h
    unfold onRemoteMediaAdded at h
    split at h
    · cases h
      exact SameLabels.refl t
    · rename_i track hfound
      obtain ⟨track', hset, heq⟩ := Except.bind_eq_ok.mp h
      obtain ⟨hname, hid⟩ := setStr0m_eq_ok hset
      have hsame : SameLabels t { t with
          remoteTracks := t.remoteTracks.set
            (t.remoteTracks.findIdx fun track : RemoteTrack => track.mid.isNone) track' } :=
        ⟨map_set_findIdx hfound (Prod.ext hname hid), rfl⟩
      cases heq
      split
      · exact hsame.trans (sameLabels_push _ _)
      · exact hsame
  unfold onStr0mMediaAdded at h
  split at h
  · exact hremote h
  · exact hremote h
  · unfold onLocalMediaAdded at h
    split at h
    · cases h
      exact SameLabels.refl t
    · rename_i track hfound
      obtain ⟨track', hset, heq⟩ := Except.bind_eq_ok.mp h
      obtain ⟨hname, hid⟩ := setMid_eq_ok hset
      cases heq
      exact ⟨rfl, map_set_findIdx hfound (Prod.ext hname hid)⟩
  · cases h
    exact SameLabels.refl t

/-- **Only updates add tracks.** -/
theorem step_relabels {decodeToken : DecodeToken} {t t' : TransportWebrtcSdk} {input : Input}
    (h : t.step decodeToken input = .ok t') : Relabels t t' (sdpOf input) := by
  cases input with
  | tick now =>
    cases h
    exact ⟨rfl, rfl⟩
  | endpoint now event =>
    cases h
    exact t.sameLabels_onEndpointEvent now event
  | rpcRes reqId res =>
    cases h
    cases res with
    | ok answer => exact t.sameLabels_sendEvent _
    | error err => exact t.sameLabels_sendEvent _
  | transportRpcRes reqId res => exact sameLabels_onTransportRpcRes h
  | shutdown =>
    cases h
    change SameLabels t t.onShutdown
    unfold onShutdown
    split
    · exact SameLabels.refl t
    · exact t.sameLabels_moveTo _
  | str0m now event =>
    cases event with
    | channelData event =>
      cases event with
      | none =>
        cases h
        exact SameLabels.refl t
      | some event =>
        obtain ⟨seq, event⟩ := event
        cases event with
        | none =>
          cases h
          exact SameLabels.refl t
        | some event =>
          obtain ⟨req⟩ := event
          exact onRequest_relabels now seq h
    | channelOpen channel label =>
      cases h
      exact ⟨rfl, rfl⟩
    | channelClose channel =>
      cases h
      change SameLabels t t.onChannelClose
      unfold onChannelClose
      split
      · exact SameLabels.refl t
      · exact t.sameLabels_moveTo _
    | iceConnectionStateChange ice =>
      cases h
      exact t.sameLabels_moveTo _
    | mediaAdded media => exact sameLabels_onStr0mMediaAdded h
    | keyframeRequest mid =>
      simp only [step, onStr0mEvent] at h
      split at h
      · cases h
        exact SameLabels.refl t
      · cases h
        exact t.sameLabels_push _
    | rtpPacket payloadType mid pkt =>
      match mid, pkt with
      | none, _ | some _, none =>
        cases h
        exact SameLabels.refl t
      | some mid, some pkt =>
        simp only [step, onStr0mEvent] at h
        split at h
        · cases h
          exact SameLabels.refl t
        · cases h
          exact t.sameLabels_push _
    | streamPaused mid paused =>
      simp only [step, onStr0mEvent] at h
      split at h
      · cases h
        exact SameLabels.refl t
      · cases h
        exact t.sameLabels_sendEvent _
    | egressBitrateEstimate bitrate =>
      cases h
      exact t.sameLabels_push _
    | connected | other =>
      cases h
      exact SameLabels.refl t

/-! ### The numbers of a run -/

/-- The label of a track with a place in a request. -/
def labelOf (entry : String × Nat) : String × UInt16 := (entry.1, UInt16.ofNat entry.2)

theorem map_fst_labelOf (known : List (String × Nat)) :
    (known.map labelOf).map Prod.fst = known.map Prod.fst := by
  rw [List.map_map]
  rfl

theorem remoteTrackByName_isNone {t : TransportWebrtcSdk} {known : List (String × Nat)}
    (h : t.remoteLabels = known.map labelOf) (name : String) :
    (t.remoteTrackByName name).isNone = true ↔ name ∉ known.map Prod.fst := by
  rw [← map_fst_labelOf, ← h, remoteLabels, List.map_map, Option.isNone_iff_eq_none,
    remoteTrackByName, List.find?_eq_none]
  simp [eq_comm]

theorem localTrackByName_isNone {t : TransportWebrtcSdk} {known : List (String × Nat)}
    (h : t.localLabels = known.map labelOf) (name : String) :
    (t.localTrackByName name).isNone = true ↔ name ∉ known.map Prod.fst := by
  rw [← map_fst_labelOf, ← h, localLabels, List.map_map, Option.isNone_iff_eq_none,
    localTrackByName, List.find?_eq_none]
  simp [eq_comm]

/-- The senders of an update join one by one. -/
theorem foldl_addRemote (senders : List Sender) (place : Nat) {t : TransportWebrtcSdk}
    {known : List (String × Nat)} (h : t.remoteLabels = known.map labelOf) :
    ((senders.zipIdx place).foldl (fun t sender =>
        if (t.remoteTrackByName sender.1.name).isNone then
          { t with remoteTracks :=
              t.remoteTracks ++ [RemoteTrack.new (UInt16.ofNat sender.2) sender.1] }
        else t) t).remoteLabels = (enroll known place (senders.map Sender.name)).map labelOf ∧
      ((senders.zipIdx place).foldl (fun t sender =>
        if (t.remoteTrackByName sender.1.name).isNone then
          { t with remoteTracks :=
              t.remoteTracks ++ [RemoteTrack.new (UInt16.ofNat sender.2) sender.1] }
        else t) t).localLabels = t.localLabels := by
  induction senders generalizing place t known with
  | nil => exact ⟨h, rfl⟩
  | cons sender senders ih =>
    have hiff := remoteTrackByName_isNone h sender.name
    rw [List.zipIdx_cons, List.foldl_cons, List.map_cons, enroll]
    by_cases hknown : sender.name ∈ known.map Prod.fst
    · rw [if_neg (fun hnone => hiff.mp hnone hknown), if_pos hknown]
      exact ih (place + 1) h
    · rw [if_pos (hiff.mpr hknown), if_neg hknown]
      apply ih (place + 1)
      rw [remoteLabels, List.map_append, List.map_append, ← h]
      rfl

/-- The receivers of an update join one by one. -/
theorem foldl_addLocal (receivers : List Receiver) (place : Nat) {t : TransportWebrtcSdk}
    {known : List (String × Nat)} (h : t.localLabels = known.map labelOf) :
    ((receivers.zipIdx place).foldl (fun t receiver =>
        if (t.localTrackByName receiver.1.name).isNone then
          { t with localTracks :=
              t.localTracks ++ [LocalTrack.new (UInt16.ofNat receiver.2) receiver.1] }
        else t) t).localLabels = (enroll known place (receivers.map Receiver.name)).map labelOf ∧
      ((receivers.zipIdx place).foldl (fun t receiver =>
        if (t.localTrackByName receiver.1.name).isNone then
          { t with localTracks :=
              t.localTracks ++ [LocalTrack.new (UInt16.ofNat receiver.2) receiver.1] }
        else t) t).remoteLabels = t.remoteLabels := by
  induction receivers generalizing place t known with
  | nil => exact ⟨h, rfl⟩
  | cons receiver receivers ih =>
    have hiff := localTrackByName_isNone h receiver.name
    rw [List.zipIdx_cons, List.foldl_cons, List.map_cons, enroll]
    by_cases hknown : receiver.name ∈ known.map Prod.fst
    · rw [if_neg (fun hnone => hiff.mp hnone hknown), if_pos hknown]
      exact ih (place + 1) h
    · rw [if_pos (hiff.mpr hknown), if_neg hknown]
      apply ih (place + 1)
      rw [localLabels, List.map_append, List.map_append, ← h]
      rfl

/-- The names and ids are those that the requests give out. -/
structure Labelled (connect : Tracks) (updates : List Tracks) (t : TransportWebrtcSdk) : Prop where
  remotes : t.remoteLabels = (enrolled (connect.senders.map Sender.name)
    (updates.map fun tracks => tracks.senders.map Sender.name)).map labelOf
  locals : t.localLabels = (enrolled (connect.receivers.map Receiver.name)
    (updates.map fun tracks => tracks.receivers.map Receiver.name)).map labelOf

theorem labelled_new (app : AppContext) (req : ConnectRequest) (extraData : Option String)
    (remote : IpAddr) : Labelled (req.tracks.getD {}) [] (.new app req extraData remote) := by
  constructor
  · change ((req.tracks.getD {}).senders.mapIdx _).map _ =
      (((req.tracks.getD {}).senders.map Sender.name).zipIdx).map labelOf
    rw [List.mapIdx_eq_zipIdx_map, List.map_map, List.zipIdx_map, List.map_map]
    rfl
  · change ((req.tracks.getD {}).receivers.mapIdx _).map _ =
      (((req.tracks.getD {}).receivers.map Receiver.name).zipIdx).map labelOf
    rw [List.mapIdx_eq_zipIdx_map, List.map_map, List.zipIdx_map, List.map_map]
    rfl

theorem Labelled.same {connect : Tracks} {updates : List Tracks} {t t' : TransportWebrtcSdk}
    (h : Labelled connect updates t) (hsame : SameLabels t t') : Labelled connect updates t' :=
  ⟨hsame.1.trans h.remotes, hsame.2.trans h.locals⟩

theorem Labelled.onSdpReq {connect : Tracks} {updates : List Tracks} {t : TransportWebrtcSdk}
    (h : Labelled connect updates t) (reqId : UInt32) (tracks : Tracks) (sdp : String) :
    Labelled connect (updates ++ [tracks]) (t.onSdpReq reqId tracks sdp) := by
  obtain ⟨hremote, hlocal⟩ := foldl_addRemote tracks.senders 0 h.remotes
  obtain ⟨hlocal', hremote'⟩ := foldl_addLocal tracks.receivers 0 (hlocal.trans h.locals)
  constructor
  · rw [List.map_append, enrolled, List.foldl_append]
    exact hremote'.trans hremote
  · rw [List.map_append, enrolled, List.foldl_append]
    exact hlocal'

theorem Labelled.identified_iff {connect : Tracks} {updates : List Tracks}
    {t : TransportWebrtcSdk} (h : Labelled connect updates t) :
    t.Identified ↔ WellNumbered connect updates := by
  have hpos : 0 < idWidth := by decide
  -- two places give one id exactly if they agree up to the width of an id
  have hids : ∀ known : List (String × Nat), ((known.map labelOf).map Prod.snd).Nodup ↔
      (known.map fun entry => entry.2 % idWidth).Nodup := by
    intro known
    have hnumbers : (known.map fun entry => entry.2 % idWidth) =
        ((known.map labelOf).map Prod.snd).map UInt16.toNat := by
      rw [List.map_map, List.map_map]
      apply List.map_congr_left
      intro entry _
      exact (UInt16.toNat_ofNat' (n := entry.2)).symm
    rw [hnumbers, List.nodup_map_iff fun _ _ => UInt16.toNat_inj.mp]
  have hremote : t.remoteTracks.map RemoteTrack.id = t.remoteLabels.map Prod.snd := by
    rw [remoteLabels, List.map_map]
    rfl
  have hlocal : t.localTracks.map LocalTrack.id = t.localLabels.map Prod.snd := by
    rw [localLabels, List.map_map]
    rfl
  rw [TransportWebrtcSdk.identified_iff, hremote, hlocal, h.remotes, h.locals, hids, hids,
    nodup_enrolled_iff hpos, nodup_enrolled_iff hpos]
  constructor
  · rintro ⟨hsenders, hreceivers⟩
    exact ⟨hsenders, hreceivers⟩
  · intro hnumbered
    exact ⟨hnumbered.senders, hnumbered.receivers⟩

/-- The updates of a run. -/
def updatesOf (history : History Input InternalOutput) : List Tracks :=
  history.filterMap fun entry => sdpOf entry.1

theorem run_labelled (decodeToken : DecodeToken) (app : AppContext) (req : ConnectRequest)
    (extraData : Option String) (remote : IpAddr) {acts : List (Action Input)}
    {c : Config TransportWebrtcSdk Input InternalOutput}
    (hrun : (machine decodeToken app req extraData remote).run acts = .ok c) :
    Labelled (req.tracks.getD {}) (updatesOf c.history) c.state := by
  refine run_invariant (M := machine decodeToken app req extraData remote) (fun _ _ _ => True)
    (fun history t => Labelled (req.tracks.getD {}) (updatesOf history) t)
    (labelled_new app req extraData remote) ?_ ?_ (Admits.of_forall (by simp) acts) hrun
  · intro history t input t' h _ hstep
    have hrelabels := step_relabels hstep
    rw [updatesOf, List.filterMap_append]
    cases hsdp : sdpOf input with
    | none =>
      rw [hsdp] at hrelabels
      simp only [List.filterMap_cons, hsdp, List.filterMap_nil, List.append_nil]
      exact h.same hrelabels
    | some tracks =>
      rw [hsdp] at hrelabels
      obtain ⟨reqId, sdp, rfl⟩ := hrelabels
      simp only [List.filterMap_cons, hsdp, List.filterMap_nil]
      exact h.onSdpReq reqId tracks sdp
  · intro history t h
    exact ⟨h.remotes, h.locals⟩

/-- **When the ids of the tracks are unique**, for every run of the transport. -/
theorem identified_iff_wellNumbered (decodeToken : DecodeToken) (app : AppContext)
    (req : ConnectRequest) (extraData : Option String) (remote : IpAddr)
    {acts : List (Action Input)} {c : Config TransportWebrtcSdk Input InternalOutput}
    (hrun : (machine decodeToken app req extraData remote).run acts = .ok c) :
    c.state.Identified ↔ WellNumbered (req.tracks.getD {}) (updatesOf c.history) :=
  (run_labelled decodeToken app req extraData remote hrun).identified_iff

/-- A client that connects with one sender and sends one update. -/
def updateSenders (names : List String) : List (Action Input) :=
  [.input (.tick 0), .input (.str0m 1 (.channelOpen 0 "data")),
    .input (.str0m 1 (.channelData (some ⟨0, some (.request ⟨1, some (.session (some
      (.sdp (some ⟨[], names.map fun name => ⟨0, name, none⟩⟩) "offer")))⟩)⟩)))]

/-- The connect request of that client. -/
def oneSender : ConnectRequest := ⟨none, some ⟨[], [⟨0, "microphone", none⟩]⟩⟩

/-- An update that repeats the sender before it adds another one. -/
theorem identified_iff_wellNumbered_repeated :
    ∃ c, (machine (fun _ => none) ⟨"app"⟩ oneSender none "ip").run
        (updateSenders ["microphone", "camera"]) = .ok c ∧
      c.state.remoteLabels = [("microphone", 0), ("camera", 1)] ∧
      (c.state.Identified ↔ WellNumbered ⟨[], [⟨0, "microphone", none⟩]⟩ (updatesOf c.history)) := by
  have hrun : ∃ c, (machine (fun _ => none) ⟨"app"⟩ oneSender none "ip").run
      (updateSenders ["microphone", "camera"]) = .ok c ∧
      c.state.remoteLabels = [("microphone", 0), ("camera", 1)] :=
    ⟨_, rfl, by decide⟩
  obtain ⟨c, hc, hlabels⟩ := hrun
  exact ⟨c, hc, hlabels,
    identified_iff_wellNumbered (fun _ => none) ⟨"app"⟩ oneSender none "ip" hc⟩

/-- An update that lists only the new sender gives it the id of the old one: what is asked of the
    camera is asked of the microphone. -/
theorem not_identified :
    ∃ c, (machine (fun _ => none) ⟨"app"⟩ oneSender none "ip").run
        (updateSenders ["camera"]) = .ok c ∧
      c.state.remoteLabels = [("microphone", 0), ("camera", 0)] ∧
      ¬c.state.Identified ∧
      (c.state.remoteTrack 0).map RemoteTrack.name = some "microphone" ∧
      (c.state.remoteTrackByName "camera").map RemoteTrack.id = some 0 := by
  refine ⟨_, rfl, by decide, ?_, by decide, by decide⟩
  intro h
  exact absurd h.remoteIds (by decide)

end MediaServer.Transport.TransportWebrtcSdk
