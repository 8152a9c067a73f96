import MediaServer.Transport.Sdk
import MediaServer.Transport.Whip
import MediaServer.Transport.Whep
import MediaServer.Lib.TaskGroup

/-!
# The WebRTC transports refine their link

For each of the three transports: the cue that each input is for the link, that the
transport does and tells what the link does and tells, and the transport as a component
with an output queue.  Everything but the cues is quiet.
-/

namespace MediaServer.Transport

open Proto

/-! ### The transport of an SDK client -/

namespace TransportWebrtcSdk

instance : Linked TransportWebrtcSdk := ⟨state, remote, queue⟩

theorem quiet_push (t : TransportWebrtcSdk) {outs : List InternalOutput}
    (houts : statesOf outs = []) : Quiet t (t.push outs) :=
  (Quiet.refl t).push rfl rfl houts

theorem quiet_sendEvent (t : TransportWebrtcSdk) (event : ServerEventKind) :
    Quiet t (t.sendEvent event) := by
  unfold sendEvent
  split
  · exact Quiet.refl t
  · exact (Quiet.refl t).push rfl rfl rfl

theorem moveTo_follows (t : TransportWebrtcSdk) (cue : State.Cue) :
    Follows t cue (t.moveTo (t.state.react t.remote cue)) :=
  follows_of_eq rfl rfl

theorem onRpcRes_quiet (t : TransportWebrtcSdk) (reqId : UInt32)
    (res : Except RpcError InternalRpcRes) : Quiet t (t.onRpcRes reqId res) := by
  unfold onRpcRes
  split
  · exact t.quiet_sendEvent _
  · exact t.quiet_sendEvent _

theorem sendRpcResult_quiet (t : TransportWebrtcSdk) (reqId : UInt32) (good : ResponseKind)
    (res : RpcResult) : Quiet t (t.sendRpcResult reqId good res) := by
  unfold sendRpcResult
  split
  · exact t.quiet_sendEvent _
  · exact t.quiet_sendEvent _

theorem onTransportRpcRes_quiet {t t' : TransportWebrtcSdk} {reqId : EndpointReqId}
    {res : EndpointRes} (h : t.onTransportRpcRes reqId res = .ok t') : Quiet t t' := by
  unfold onTransportRpcRes at h
  split at h
  all_goals cases h
  all_goals exact t.sendRpcResult_quiet ..

theorem onRemoteMediaTrack_quiet (t : TransportWebrtcSdk) (id : RemoteTrackId)
    (event : EndpointRemoteTrackEvent) : Quiet t (t.onRemoteMediaTrack id event) := by
  unfold onRemoteMediaTrack
  split
  · exact Quiet.refl t
  · split
    · exact Quiet.refl t
    · exact t.quiet_push rfl
    · exact t.quiet_push rfl

theorem onLocalMediaTrack_quiet (t : TransportWebrtcSdk) (now : Instant) (id : LocalTrackId)
    (event : EndpointLocalTrackEvent) : Quiet t (t.onLocalMediaTrack now id event) := by
  unfold onLocalMediaTrack
  split
  · exact Quiet.refl t
  · split
    · exact Quiet.refl t
    · exact (Quiet.refl t).push rfl rfl rfl
  · exact t.quiet_sendEvent _
  · exact t.quiet_sendEvent _

theorem onEndpointEvent_quiet (t : TransportWebrtcSdk) (now : Instant) (event : EndpointEvent) :
    Quiet t (t.onEndpointEvent now event) := by
  unfold onEndpointEvent
  split
  case h_7 => exact t.onRemoteMediaTrack_quiet ..
  case h_8 => exact t.onLocalMediaTrack_quiet ..
  case h_9 => exact t.quiet_push rfl
  all_goals exact t.quiet_sendEvent _

theorem onSdpReq_quiet (t : TransportWebrtcSdk) (reqId : UInt32) (tracks : Tracks)
    (sdp : String) : Quiet t (t.onSdpReq reqId tracks sdp) := by
  have hadded : ∀ u : TransportWebrtcSdk, Quiet t u →
      Quiet t (u.push [.rpcReq reqId (.setRemoteSdp sdp)]) :=
    fun u hquiet => hquiet.trans (u.quiet_push rfl)
  refine hadded _ ?_
  refine List.foldlRecOn _ _ ?_ ?_
  · refine List.foldlRecOn _ _ (Quiet.refl t) ?_
    intro u hquiet sender _
    split
    · exact hquiet.trans (quiet_of_eq rfl rfl)
    · exact hquiet
  · intro u hquiet receiver _
    split
    · exact hquiet.trans (quiet_of_eq rfl rfl)
    · exact hquiet

theorem onSenderReq_quiet (t : TransportWebrtcSdk) (reqId : UInt32) (name : String)
    (req : SenderRequest) : Quiet t (t.onSenderReq reqId name req) := by
  have hanswer : ∀ track event, Quiet t ((t.updateRemoteTrack name track).sendEvent event) := by
    intro track event
    have hupdate : Quiet t (t.updateRemoteTrack name track) := quiet_of_eq rfl rfl
    exact hupdate.trans (quiet_sendEvent _ event)
  unfold onSenderReq
  split
  · exact t.quiet_sendEvent _
  · split
    · split
      · exact t.quiet_sendEvent _
      · exact (hanswer _ _).push rfl rfl rfl
    · split
      · exact (hanswer _ _).push rfl rfl rfl
      · exact t.quiet_sendEvent _
    · exact t.quiet_push rfl

theorem onReceverReq_quiet (t : TransportWebrtcSdk) (reqId : UInt32) (name : String)
    (req : ReceiverRequest) : Quiet t (t.onReceverReq reqId name req) := by
  unfold onReceverReq
  split
  · exact t.quiet_sendEvent _
  · split
    all_goals exact t.quiet_push rfl

theorem onMixerReq_quiet (t : TransportWebrtcSdk) (reqId : UInt32) (req : MixerRequest) :
    Quiet t (t.onMixerReq reqId req) := by
  cases req with
  | attach sources => exact t.quiet_push rfl
  | detach sources => exact t.quiet_push rfl

theorem onRemoteMediaAdded_quiet {t t' : TransportWebrtcSdk} {media : MediaAdded}
    (h : t.onRemoteMediaAdded media = .ok t') : Quiet t t' := by
  unfold onRemoteMediaAdded at h
  split at h
  · cases h
    exact Quiet.refl t
  · obtain ⟨track, -, heq⟩ := Except.bind_eq_ok.mp h
    cases heq
    split
    · exact (Quiet.refl t).push rfl rfl rfl
    · exact quiet_of_eq rfl rfl

theorem onLocalMediaAdded_quiet {t t' : TransportWebrtcSdk} {media : MediaAdded}
    (h : t.onLocalMediaAdded media = .ok t') : Quiet t t' := by
  unfold onLocalMediaAdded at h
  split at h
  · cases h
    exact Quiet.refl t
  · obtain ⟨track, -, heq⟩ := Except.bind_eq_ok.mp h
    cases heq
    exact (Quiet.refl t).push rfl rfl rfl

theorem onStr0mMediaAdded_quiet {t t' : TransportWebrtcSdk} {media : MediaAdded}
    (h : t.onStr0mMediaAdded media = .ok t') : Quiet t t' := by
  unfold onStr0mMediaAdded at h
  split at h
  · exact onRemoteMediaAdded_quiet h
  · exact onRemoteMediaAdded_quiet h
  · exact onLocalMediaAdded_quiet h
  · cases h
    exact Quiet.refl t

/-- What an input means for the link: an opened channel connects it; a closed one ends it,
    as does the client's request. -/
def cue : Input → State.Cue
  | .tick now => .tick now
  | .str0m now (.iceConnectionStateChange ice) => .ice now ice
  | .str0m _ (.channelOpen ..) => .connect
  | .str0m _ (.channelClose _) => .close
  | .str0m _ (.channelData (some ⟨_, some (.request ⟨_, some (.session (some .disconnect))⟩)⟩)) =>
      .close
  | .shutdown => .shutdown
  | _ => .none

theorem onTick_follows (t : TransportWebrtcSdk) (now : Instant) :
    Follows t (.tick now) (t.onTick now) :=
  follows_tick rfl rfl

theorem onShutdown_follows (t : TransportWebrtcSdk) : Follows t .shutdown t.onShutdown := by
  have hmove := t.moveTo_follows .shutdown
  unfold onShutdown
  split
  · rename_i hshut
    exact (Quiet.refl t).follows_of_react (if_pos hshut)
  · rename_i hopen
    rwa [State.react, if_neg hopen] at hmove

theorem onChannelClose_follows (t : TransportWebrtcSdk) : Follows t .close t.onChannelClose := by
  unfold onChannelClose
  split
  · exact follows_close (fun _ => Quiet.refl t) (fun hopen => absurd ‹_› hopen)
  · exact follows_close (fun hdead => absurd hdead ‹_›) (fun _ => ⟨rfl, rfl⟩)

theorem onDisconnectReq_follows (decodeToken : DecodeToken) (t : TransportWebrtcSdk)
    (reqId : UInt32) : Follows t .close (t.onSessionReq decodeToken reqId .disconnect) := by
  simp only [onSessionReq]
  split
  · exact follows_close (fun _ => t.quiet_sendEvent _) (fun hopen => absurd ‹_› hopen)
  · have hclose : Follows t .close (t.moveTo (.disconnected, [.disconnected none])) :=
      follows_close (fun hdead => absurd hdead ‹_›) (fun _ => ⟨rfl, rfl⟩)
    exact hclose.quiet (quiet_sendEvent _ _)

theorem onChannelOpen_follows (t : TransportWebrtcSdk) (channel : ChannelId) :
    Follows t .connect (t.onChannelOpen channel) := by
  refine ⟨rfl, ?_⟩
  have hjoin : statesOf t.joinOutputs = [] := by
    unfold joinOutputs
    split
    · rfl
    · rfl
  exact (tells_append t.queue (stateOutputs [.connected t.remote])).append hjoin

theorem onSessionReq_follows (decodeToken : DecodeToken) (t : TransportWebrtcSdk)
    (reqId : UInt32) (req : SessionRequest) :
    Follows t (if req = .disconnect then .close else .none)
      (t.onSessionReq decodeToken reqId req) := by
  cases req with
  | disconnect => exact t.onDisconnectReq_follows decodeToken reqId
  | leave => exact (t.quiet_push rfl).follows
  | sdp tracks sdp => exact (t.onSdpReq_quiet ..).follows
  | join info token =>
    refine Quiet.follows ?_
    simp only [onSessionReq, onJoinReq]
    split
    · exact t.quiet_sendEvent _
    · split
      · exact t.quiet_sendEvent _
      · split
        · exact t.quiet_push rfl
        · exact t.quiet_sendEvent _

theorem onStr0mChannelEvent_follows {decodeToken : DecodeToken} {t t' : TransportWebrtcSdk}
    {now : Instant} {event : ClientEvent} (h : t.onStr0mChannelEvent decodeToken event = .ok t') :
    Follows t (cue (.str0m now (.channelData (some event)))) t' := by
  obtain ⟨seq, event⟩ := event
  have hinvalid : ∀ reqId, Follows t .none (t.onInvalidReq reqId) := fun _ =>
    (t.quiet_sendEvent _).follows
  cases event with
  | none =>
    cases h
    exact (Quiet.refl t).follows
  | some event =>
    obtain ⟨⟨reqId, request⟩⟩ := event
    cases request with
    | none => cases h; exact hinvalid _
    | some kind =>
      cases kind with
      | session request =>
        cases request with
        | none => cases h; exact hinvalid _
        | some session =>
          cases h
          have hfollows := t.onSessionReq_follows decodeToken reqId session
          cases session with
          | disconnect => exact hfollows
          | _ => exact hfollows
      | room request =>
        cases request with
        | none => cases h; exact hinvalid _
        | some room => cases h
      | sender name request =>
        cases request with
        | none => cases h; exact hinvalid _
        | some sender => cases h; exact (t.onSenderReq_quiet ..).follows
      | receiver name request =>
        cases request with
        | none => cases h; exact hinvalid _
        | some receiver => cases h; exact (t.onReceverReq_quiet ..).follows
      | features request =>
        match request, h with
        | none, h => cases h; exact (Quiet.refl t).follows
        | some (.mixer none), h => cases h; exact (Quiet.refl t).follows
        | some (.mixer (some mixer)), h => cases h; exact (t.onMixerReq_quiet ..).follows
      | messageChannel label request =>
        cases request with
        | none => cases h; exact hinvalid _
        | some channel => cases h; exact (t.quiet_push rfl).follows

theorem onStr0mEvent_follows {decodeToken : DecodeToken} {t t' : TransportWebrtcSdk}
    {now : Instant} {event : Str0mEvent} (h : t.onStr0mEvent decodeToken now event = .ok t') :
    Follows t (cue (.str0m now event)) t' := by
  unfold onStr0mEvent at h
  split at h
  case h_1 => cases h; exact t.onChannelOpen_follows _
  case h_3 => exact onStr0mChannelEvent_follows h
  case h_4 => cases h; exact t.onChannelClose_follows
  case h_5 => cases h; exact t.moveTo_follows (.ice ..)
  case h_6 => exact (onStr0mMediaAdded_quiet h).follows
  case h_7 =>
    split at h
    · cases h; exact (Quiet.refl t).follows
    · cases h; exact (t.quiet_push rfl).follows
  case h_8 =>
    split at h
    · cases h; exact (Quiet.refl t).follows
    · cases h; exact (t.quiet_push rfl).follows
  case h_10 =>
    split at h
    · cases h; exact (Quiet.refl t).follows
    · cases h; exact (t.quiet_sendEvent _).follows
  case h_11 => cases h; exact (t.quiet_push rfl).follows
  all_goals
    cases h
    exact (Quiet.refl t).follows

theorem step_follows {decodeToken : DecodeToken} {t t' : TransportWebrtcSdk} {input : Input}
    (h : t.step decodeToken input = .ok t') : Follows t (cue input) t' := by
  cases input with
  | tick now => cases h; exact t.onTick_follows now
  | str0m now event => exact onStr0mEvent_follows h
  | endpoint now event => cases h; exact (t.onEndpointEvent_quiet now event).follows
  | rpcRes reqId res => cases h; exact (t.onRpcRes_quiet reqId res).follows
  | transportRpcRes reqId res => exact (onTransportRpcRes_quiet h).follows
  | shutdown => cases h; exact t.onShutdown_follows

/-- The transport as a component with an output queue. -/
def machine (decodeToken : DecodeToken) (app : AppContext) (req : ConnectRequest)
    (extraData : Option String) (remote : IpAddr) :
    Machine TransportWebrtcSdk Input InternalOutput where
  init := .new app req extraData remote
  step t input := t.step decodeToken input
  queue t := t.queue
  dropFront t := { t with queue := t.queue.tail }
  queue_init := rfl
  queue_dropFront _ := rfl
  step_appends _ _ _ h := by
    obtain ⟨-, outs, hqueue, -⟩ := step_follows h
    exact ⟨outs, hqueue.symm⟩

theorem machine_refines (decodeToken : DecodeToken) (app : AppContext) (req : ConnectRequest)
    (extraData : Option String) (remote : IpAddr) :
    Refines (machine decodeToken app req extraData remote) cue where
  queue _ := rfl
  init := rfl
  step _ _ _ h := step_follows h
  pop _ := rfl

end TransportWebrtcSdk

/-! ### WHIP and WHEP -/

namespace TransportWebrtcWhip

instance : Linked TransportWebrtcWhip := ⟨state, remote, queue⟩

theorem quiet_push (t : TransportWebrtcWhip) {outs : List InternalOutput}
    (houts : statesOf outs = []) : Quiet t (t.push outs) :=
  (Quiet.refl t).push rfl rfl houts

theorem moveTo_follows (t : TransportWebrtcWhip) (cue : State.Cue) :
    Follows t cue (t.moveTo (t.state.react t.remote cue)) :=
  follows_of_eq rfl rfl

/-- What an input means for the link: `str0m` connects it, a shutdown ends it. -/
def cue : Input → State.Cue
  | .tick now => .tick now
  | .str0m now (.iceConnectionStateChange ice) => .ice now ice
  | .str0m _ .connected => .connect
  | .shutdown => .close
  | _ => .none

theorem onEndpointEvent_quiet (t : TransportWebrtcWhip) (event : EndpointEvent) :
    Quiet t (t.onEndpointEvent event) := by
  unfold onEndpointEvent
  split
  · split
    · exact Quiet.refl t
    · exact t.quiet_push rfl
  · split
    · exact Quiet.refl t
    · exact t.quiet_push rfl
  · exact Quiet.refl t

theorem onStr0mMediaAdded_quiet (t : TransportWebrtcWhip) (media : MediaAdded) :
    Quiet t (t.onStr0mMediaAdded media) := by
  unfold onStr0mMediaAdded
  split
  · exact Quiet.refl t
  · exact Quiet.refl t
  · split
    · exact Quiet.refl t
    · exact (Quiet.refl t).push rfl rfl rfl
  · split
    · exact Quiet.refl t
    · exact (Quiet.refl t).push rfl rfl rfl

theorem onShutdown_follows (t : TransportWebrtcWhip) : Follows t .close t.onShutdown := by
  unfold onShutdown
  split
  · exact follows_close (fun _ => Quiet.refl t) (fun hopen => absurd ‹_› hopen)
  · exact follows_close (fun hdead => absurd hdead ‹_›) (fun _ => ⟨rfl, rfl⟩)

theorem onStr0mEvent_follows (t : TransportWebrtcWhip) (now : Instant) (event : Str0mEvent) :
    Follows t (cue (.str0m now event)) (t.onStr0mEvent now event) := by
  cases event with
  | connected => exact (t.moveTo_follows .connect).quiet (quiet_push _ rfl)
  | iceConnectionStateChange ice => exact t.moveTo_follows (.ice now ice)
  | mediaAdded media => exact (t.onStr0mMediaAdded_quiet media).follows
  | rtpPacket payloadType mid pkt =>
    cases pkt with
    | none => exact (Quiet.refl t).follows
    | some pkt => exact (t.quiet_push rfl).follows
  | _ => exact (Quiet.refl t).follows

theorem step_follows {t t' : TransportWebrtcWhip} {input : Input}
    (h : t.step input = .ok t') : Follows t (cue input) t' := by
  cases input with
  | tick now => cases h; exact t.moveTo_follows (.tick now)
  | str0m now event => cases h; exact t.onStr0mEvent_follows now event
  | endpoint event => cases h; exact (t.onEndpointEvent_quiet event).follows
  | response => cases h; exact (Quiet.refl t).follows
  | shutdown => cases h; exact t.onShutdown_follows

/-- The transport as a component with an output queue. -/
def machine (room : RoomId) (peer : PeerId) (extraData : Option String) (remote : IpAddr) :
    Machine TransportWebrtcWhip Input InternalOutput where
  init := .new room peer extraData remote
  step t input := t.step input
  queue t := t.queue
  dropFront t := { t with queue := t.queue.tail }
  queue_init := rfl
  queue_dropFront _ := rfl
  step_appends _ _ _ h := by
    obtain ⟨-, outs, hqueue, -⟩ := step_follows h
    exact ⟨outs, hqueue.symm⟩

theorem machine_refines (room : RoomId) (peer : PeerId) (extraData : Option String)
    (remote : IpAddr) : Refines (machine room peer extraData remote) cue where
  queue _ := rfl
  init := rfl
  step _ _ _ h := step_follows h
  pop _ := rfl

end TransportWebrtcWhip

namespace TransportWebrtcWhep

instance : Linked TransportWebrtcWhep := ⟨state, remote, queue⟩

theorem quiet_push (t : TransportWebrtcWhep) {outs : List InternalOutput}
    (houts : statesOf outs = []) : Quiet t (t.push outs) :=
  (Quiet.refl t).push rfl rfl houts

theorem moveTo_follows (t : TransportWebrtcWhep) (cue : State.Cue) :
    Follows t cue (t.moveTo (t.state.react t.remote cue)) :=
  follows_of_eq rfl rfl

/-- What an input means for the link: `str0m` connects it, a shutdown ends it. -/
def cue : Input → State.Cue
  | .tick now => .tick now
  | .str0m now (.iceConnectionStateChange ice) => .ice now ice
  | .str0m _ .connected => .connect
  | .shutdown => .close
  | _ => .none

theorem trySubscribe_quiet (t : TransportWebrtcWhep) (peer : PeerId) (track : TrackName)
    (trackMeta : TrackMeta) : Quiet t (t.trySubscribe peer track trackMeta) := by
  unfold trySubscribe
  split
  · split
    · exact (Quiet.refl t).push rfl rfl rfl
    · split
      · exact (Quiet.refl t).push rfl rfl rfl
      · exact Quiet.refl t
  · exact Quiet.refl t

theorem tryUnsubscribe_quiet (t : TransportWebrtcWhep) (peer : PeerId) (track : TrackName) :
    Quiet t (t.tryUnsubscribe peer track) := by
  have haudio : Quiet t (t.unsubscribeAudio track) := by
    unfold unsubscribeAudio
    split
    · exact (Quiet.refl t).push rfl rfl rfl
    · exact Quiet.refl t
  have hvideo : ∀ u : TransportWebrtcWhep, Quiet u (u.unsubscribeVideo track) := by
    intro u
    unfold unsubscribeVideo
    split
    · exact (Quiet.refl u).push rfl rfl rfl
    · exact Quiet.refl u
  have hrelease : ∀ u : TransportWebrtcWhep, Quiet u u.releasePeer := by
    intro u
    unfold releasePeer
    split
    · exact quiet_of_eq rfl rfl
    · exact Quiet.refl u
  unfold tryUnsubscribe
  split
  · exact (haudio.trans (hvideo _)).trans (hrelease _)
  · exact Quiet.refl t

theorem subscribeWaits_quiet {t u : TransportWebrtcWhep} (h : Quiet t u)
    (waits : List (PeerId × TrackName × TrackMeta)) : Quiet t (u.subscribeWaits waits) := by
  refine List.foldlRecOn _ _ h ?_
  intro v hquiet wait _
  exact hquiet.trans (v.trySubscribe_quiet ..)

theorem onEndpointEvent_quiet (t : TransportWebrtcWhep) (now : Instant) (event : EndpointEvent) :
    Quiet t (t.onEndpointEvent now event) := by
  unfold onEndpointEvent
  split
  · unfold onPeerTrackStarted
    split
    · exact quiet_of_eq rfl rfl
    · split
      · exact quiet_of_eq rfl rfl
      · exact t.trySubscribe_quiet ..
  · exact t.tryUnsubscribe_quiet ..
  · unfold onLocalMedia
    split
    · split
      · exact Quiet.refl t
      · exact t.quiet_push rfl
    · split
      · exact Quiet.refl t
      · exact (Quiet.refl t).push rfl rfl rfl
  · exact t.quiet_push rfl
  · exact Quiet.refl t

theorem onStr0mMediaAdded_quiet (t : TransportWebrtcWhep) (media : MediaAdded) :
    Quiet t (t.onStr0mMediaAdded media) := by
  unfold onStr0mMediaAdded
  split
  · exact Quiet.refl t
  · exact Quiet.refl t
  · split
    · exact Quiet.refl t
    · refine subscribeWaits_quiet ?_ _
      exact (Quiet.refl t).push rfl rfl rfl
  · split
    · exact Quiet.refl t
    · refine subscribeWaits_quiet ?_ _
      exact (Quiet.refl t).push rfl rfl rfl

theorem onTick_follows (t : TransportWebrtcWhep) (now : Instant) :
    Follows t (.tick now) (t.onTick now) :=
  follows_tick rfl rfl

theorem onShutdown_follows (t : TransportWebrtcWhep) : Follows t .close t.onShutdown := by
  unfold onShutdown
  split
  · exact follows_close (fun _ => Quiet.refl t) (fun hopen => absurd ‹_› hopen)
  · exact follows_close (fun hdead => absurd hdead ‹_›) (fun _ => ⟨rfl, rfl⟩)

theorem onStr0mEvent_follows (t : TransportWebrtcWhep) (now : Instant) (event : Str0mEvent) :
    Follows t (cue (.str0m now event)) (t.onStr0mEvent now event) := by
  cases event with
  | connected => exact (t.moveTo_follows .connect).quiet (quiet_push _ rfl)
  | iceConnectionStateChange ice => exact t.moveTo_follows (.ice now ice)
  | mediaAdded media => exact (t.onStr0mMediaAdded_quiet media).follows
  | keyframeRequest mid =>
    refine Quiet.follows ?_
    simp only [onStr0mEvent]
    split
    · exact t.quiet_push rfl
    · exact Quiet.refl t
  | egressBitrateEstimate bitrate => exact (t.quiet_push rfl).follows
  | _ => exact (Quiet.refl t).follows

theorem step_follows {t t' : TransportWebrtcWhep} {input : Input}
    (h : t.step input = .ok t') : Follows t (cue input) t' := by
  cases input with
  | tick now => cases h; exact t.onTick_follows now
  | str0m now event => cases h; exact t.onStr0mEvent_follows now event
  | endpoint now event => cases h; exact (t.onEndpointEvent_quiet now event).follows
  | response => cases h; exact (Quiet.refl t).follows
  | shutdown => cases h; exact t.onShutdown_follows

/-- The transport as a component with an output queue. -/
def machine (room : RoomId) (peer : PeerId) (extraData : Option String) (remote : IpAddr) :
    Machine TransportWebrtcWhep Input InternalOutput where
  init := .new room peer extraData remote
  step t input := t.step input
  queue t := t.queue
  dropFront t := { t with queue := t.queue.tail }
  queue_init := rfl
  queue_dropFront _ := rfl
  step_appends _ _ _ h := by
    obtain ⟨-, outs, hqueue, -⟩ := step_follows h
    exact ⟨outs, hqueue.symm⟩

theorem machine_refines (room : RoomId) (peer : PeerId) (extraData : Option String)
    (remote : IpAddr) : Refines (machine room peer extraData remote) cue where
  queue _ := rfl
  init := rfl
  step _ _ _ h := step_follows h
  pop _ := rfl

end TransportWebrtcWhep

end MediaServer.Transport
