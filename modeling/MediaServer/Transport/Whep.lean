import MediaServer.Transport.Link

/-!
# The WHEP transport

`TransportWebrtcWhep` (`transport_webrtc/src/transport/whep.rs`): a client that receives
one audio and one video track of one peer.  It connects and joins its room when `str0m`
connects; tracks that start before `str0m` has added the media for them wait.
-/

namespace MediaServer.Transport

structure SubscribeStreams where
  peer : Option PeerId := none
  audio : Option TrackName := none
  video : Option TrackName := none

structure TransportWebrtcWhep where
  remote : IpAddr
  room : RoomId
  peer : PeerId
  extraData : Option String
  state : State
  audioMid : Option Mid
  videoMid : Option Mid
  subscribed : SubscribeStreams
  audioSubscribeWaits : List (PeerId × TrackName × TrackMeta)
  videoSubscribeWaits : List (PeerId × TrackName × TrackMeta)
  bweState : BweState
  queue : List InternalOutput

namespace TransportWebrtcWhep

def audioTrack : LocalTrackId := 0
def videoTrack : LocalTrackId := 1
def defaultPriority : TrackPriority := 1

def new (room : RoomId) (peer : PeerId) (extraData : Option String) (remote : IpAddr) :
    TransportWebrtcWhep :=
  { remote := remote
    room := room
    peer := peer
    extraData := extraData
    state := .new
    audioMid := none
    videoMid := none
    subscribed := {}
    audioSubscribeWaits := []
    videoSubscribeWaits := []
    bweState := .inactive
    queue := [] }

def push (t : TransportWebrtcWhep) (outs : List InternalOutput) : TransportWebrtcWhep :=
  { t with queue := t.queue ++ outs }

/-- The link is in a new state, which the endpoint is told. -/
def moveTo (t : TransportWebrtcWhep) (next : State × List TransportState) :
    TransportWebrtcWhep :=
  { t with state := next.1 }.push (stateOutputs next.2)

def isEmpty (t : TransportWebrtcWhep) : Bool := t.state.isShutdown && t.queue.isEmpty

def onTick (t : TransportWebrtcWhep) (now : Instant) : TransportWebrtcWhep :=
  let bwe := t.bweState.onTick now
  let t := { t with bweState := bwe.1 }.push (BweState.resetOutputs bwe.2)
  t.moveTo (t.state.onTick now t.remote)

/-! ### Subscriptions -/

def attachReq (track : LocalTrackId) (source : TrackSource) : InternalOutput :=
  .request 0 (.localTrack track (.attach source ⟨defaultPriority, 2, 2, none, none⟩))

def detachReq (track : LocalTrackId) : InternalOutput :=
  .request 0 (.localTrack track .detach)

def trySubscribe (t : TransportWebrtcWhep) (peer : PeerId) (track : TrackName)
    (trackMeta : TrackMeta) : TransportWebrtcWhep :=
  if t.subscribed.peer = none ∨ t.subscribed.peer = some peer then
    if t.subscribed.audio = none ∧ trackMeta.kind.isAudio then
      { t with subscribed := { t.subscribed with peer := some peer, audio := some track } }.push
        [attachReq audioTrack ⟨peer, track⟩]
    else if t.subscribed.video = none ∧ trackMeta.kind.isVideo then
      { t with subscribed := { t.subscribed with peer := some peer, video := some track } }.push
        [attachReq videoTrack ⟨peer, track⟩]
    else t
  else t

def unsubscribeAudio (t : TransportWebrtcWhep) (track : TrackName) : TransportWebrtcWhep :=
  if t.subscribed.audio = some track then
    { t with subscribed := { t.subscribed with audio := none } }.push [detachReq audioTrack]
  else t

def unsubscribeVideo (t : TransportWebrtcWhep) (track : TrackName) : TransportWebrtcWhep :=
  if t.subscribed.video = some track then
    { t with subscribed := { t.subscribed with video := none } }.push [detachReq videoTrack]
  else t

def releasePeer (t : TransportWebrtcWhep) : TransportWebrtcWhep :=
  if t.subscribed.audio = none ∧ t.subscribed.video = none then
    { t with subscribed := { t.subscribed with peer := none } }
  else t

def tryUnsubscribe (t : TransportWebrtcWhep) (peer : PeerId) (track : TrackName) :
    TransportWebrtcWhep :=
  if t.subscribed.peer = some peer then
    ((t.unsubscribeAudio track).unsubscribeVideo track).releasePeer
  else t

/-- The waiting tracks are tried in the order they came. -/
def subscribeWaits (t : TransportWebrtcWhep) (waits : List (PeerId × TrackName × TrackMeta)) :
    TransportWebrtcWhep :=
  waits.foldl (fun t wait => t.trySubscribe wait.1 wait.2.1 wait.2.2) t

/-! ### Events -/

def onPeerTrackStarted (t : TransportWebrtcWhep) (peer : PeerId) (track : TrackName)
    (trackMeta : TrackMeta) : TransportWebrtcWhep :=
  if t.audioMid = none ∧ trackMeta.kind.isAudio then
    { t with audioSubscribeWaits := t.audioSubscribeWaits ++ [(peer, track, trackMeta)] }
  else if t.videoMid = none ∧ trackMeta.kind.isVideo then
    { t with videoSubscribeWaits := t.videoSubscribeWaits ++ [(peer, track, trackMeta)] }
  else t.trySubscribe peer track trackMeta

def onLocalMedia (t : TransportWebrtcWhep) (now : Instant) (pkt : MediaPacket) :
    TransportWebrtcWhep :=
  if pkt.mediaMeta.isAudio then
    match t.audioMid with
    | none => t
    | some mid => t.push [.str0mSendMedia mid pkt]
  else
    match t.videoMid with
    | none => t
    | some mid =>
        { t with bweState := t.bweState.onSendVideo now }.push [.str0mSendMedia mid pkt]

def onEndpointEvent (t : TransportWebrtcWhep) (now : Instant) :
    EndpointEvent → TransportWebrtcWhep
  | .peerTrackStarted peer track trackMeta => t.onPeerTrackStarted peer track trackMeta
  | .peerTrackStopped peer track _ => t.tryUnsubscribe peer track
  | .localMediaTrack _ (.media pkt) => t.onLocalMedia now pkt
  | .bweConfig current desired =>
      let config := t.bweState.filterBweConfig current desired
      t.push [.str0mBwe config.1 config.2]
  | _ => t

/-- `str0m` is connected, whatever the transport was doing. -/
def onConnected (t : TransportWebrtcWhep) : TransportWebrtcWhep :=
  (t.moveTo (.connected, [.connected t.remote])).push
    [.request 0 (.joinRoom t.room t.peer ⟨none, t.extraData⟩ ⟨false, false⟩ ⟨false, true⟩ none)]

def onStr0mMediaAdded (t : TransportWebrtcWhep) (media : MediaAdded) : TransportWebrtcWhep :=
  match media.direction, media.kind with
  | .recvOnly, _ | .inactive, _ => t
  | _, .audio =>
      if t.audioMid.isSome then t
      else
        ({ t with audioMid := some media.mid, audioSubscribeWaits := [] }.push
          [.event (.localTrack audioTrack (.started .audio))]).subscribeWaits
          t.audioSubscribeWaits
  | _, .video =>
      if t.videoMid.isSome then t
      else
        ({ t with videoMid := some media.mid, videoSubscribeWaits := [] }.push
          [.event (.localTrack videoTrack (.started .video))]).subscribeWaits
          t.videoSubscribeWaits

def onStr0mEvent (t : TransportWebrtcWhep) (now : Instant) : Str0mEvent → TransportWebrtcWhep
  | .connected => t.onConnected
  | .iceConnectionStateChange ice => t.moveTo (t.state.onStr0mState now t.remote ice)
  | .mediaAdded media => t.onStr0mMediaAdded media
  | .keyframeRequest mid =>
      if t.videoMid = some mid then
        t.push [.event (.localTrack videoTrack .requestKeyFrame)]
      else t
  | .egressBitrateEstimate bitrate =>
      t.push [.event (.egressBitrateEstimate (t.bweState.filterBwe bitrate))]
  | _ => t

/-- Unlike its sibling for the SDK it asks only whether it is disconnected. -/
def onShutdown (t : TransportWebrtcWhep) : TransportWebrtcWhep :=
  match t.state with
  | .disconnected => t
  | _ => t.moveTo (.disconnected, [.disconnected none])

/-- Responses, of the endpoint as of `str0m`, are ignored. -/
inductive Input where
  | tick (now : Instant)
  | str0m (now : Instant) (event : Str0mEvent)
  | endpoint (now : Instant) (event : EndpointEvent)
  | response
  | shutdown

def step (t : TransportWebrtcWhep) : Input → Except Panic TransportWebrtcWhep
  | .tick now => .ok (t.onTick now)
  | .str0m now event => .ok (t.onStr0mEvent now event)
  | .endpoint now event => .ok (t.onEndpointEvent now event)
  | .response => .ok t
  | .shutdown => .ok t.onShutdown

end TransportWebrtcWhep

end MediaServer.Transport
