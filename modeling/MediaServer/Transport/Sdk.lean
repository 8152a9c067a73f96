import MediaServer.Transport.Link

/-!
# The transport of an SDK client

`TransportWebrtcSdk` (`transport_webrtc/src/transport/webrtc.rs`): it connects when its
data channel opens and takes the client's requests from that channel.  A request is
answered on the channel, or passed to the endpoint, whose response is sent later.

The decoding of a token (`MediaEdgeSecure`) is a parameter.  The media converter is left
out: a packet arrives converted.
-/

namespace MediaServer.Transport

open Proto

/-! ### Tracks -/

structure LocalTrack where
  id : LocalTrackId
  name : TrackName
  kind : MediaKind
  mid : Option Mid

namespace LocalTrack

def new (id : LocalTrackId) (cfg : Receiver) : LocalTrack :=
  ⟨id, cfg.name, mediaKind cfg.kind, none⟩

def setMid (t : LocalTrack) (mid : Mid) : Except Panic LocalTrack :=
  match t.mid with
  | none => .ok { t with mid := some mid }
  | some _ => .error ⟨"LocalTrack mid already configured"⟩

end LocalTrack

structure RemoteTrack where
  id : RemoteTrackId
  name : TrackName
  kind : MediaKind
  source : Option SenderSource
  config : SenderConfig
  scaling : MediaScaling
  mid : Option Mid

namespace RemoteTrack

def minStreamBitrateBps : UInt64 := 100000

def new (id : RemoteTrackId) (cfg : Sender) : RemoteTrack :=
  let state := cfg.state.getD {}
  ⟨id, cfg.name, mediaKind cfg.kind, state.source, state.config.getD {}, .none, none⟩

def hasSource (t : RemoteTrack) : Bool := t.source.isSome

def setStr0m (t : RemoteTrack) (mid : Mid) (sim : Bool) : Except Panic RemoteTrack :=
  match t.mid with
  | none => .ok { t with mid := some mid, scaling := if sim then .simulcast else t.scaling }
  | some _ => .error ⟨"LocalTrack mid already configured"⟩

def trackMeta (t : RemoteTrack) : TrackMeta :=
  ⟨t.kind, t.scaling, bitrateControlMode t.config.bitrate, t.source.bind SenderSource.metadata⟩

def calcLimitBitrate (t : RemoteTrack) (lo hi : UInt64) : UInt64 :=
  match t.scaling with
  | .none => max lo minStreamBitrateBps
  | .simulcast => hi

/-- The start of the track, as the endpoint is told. -/
def started (t : RemoteTrack) : InternalOutput :=
  .event (.remoteTrack t.id (.started t.name t.config.priority t.trackMeta))

end RemoteTrack

/-! ### The transport -/

/-- The record flag and the extra data of a token are read when the client connects. -/
structure WebrtcToken where
  room : Option String
  peer : Option String
deriving Repr

/-- `MediaEdgeSecure::decode_token::<WebrtcToken>`. -/
abbrev DecodeToken := String → Option (AppContext × WebrtcToken)

structure JoinInfo where
  room : RoomId
  peer : PeerId
  metadata : Option String
  publish : RoomInfoPublish
  subscribe : RoomInfoSubscribe

structure TransportWebrtcSdk where
  app : AppContext
  remote : IpAddr
  extraData : Option String
  join : Option JoinInfo
  state : State
  queue : List InternalOutput
  channel : Option ChannelId
  eventSeq : UInt32
  localTracks : List LocalTrack
  remoteTracks : List RemoteTrack
  audioMixer : Option AudioMixerConfig
  bweState : BweState

namespace TransportWebrtcSdk

/-- The mixer a join asks for; an output that names no track is dropped. -/
def mixerConfig (localTracks : List LocalTrack) (features : Option FeaturesConfig) :
    Option AudioMixerConfig :=
  (features.bind FeaturesConfig.mixer).map fun mixer =>
    ⟨mixerMode mixer.mode,
      mixer.outputs.filterMap fun name =>
        (localTracks.find? fun track => decide (track.name = name)).map LocalTrack.id,
      mixer.sources.map ReceiverSource.toTrackSource⟩

def new (app : AppContext) (req : ConnectRequest) (extraData : Option String)
    (remote : IpAddr) : TransportWebrtcSdk :=
  let tracks := req.tracks.getD {}
  let localTracks := tracks.receivers.mapIdx fun index receiver =>
    LocalTrack.new (UInt16.ofNat index) receiver
  let remoteTracks := tracks.senders.mapIdx fun index sender =>
    RemoteTrack.new (UInt16.ofNat index) sender
  { app := app
    remote := remote
    extraData := extraData
    join := req.join.map fun join =>
      ⟨join.room, join.peer, join.metadata, join.publish.getD ⟨false, false⟩,
        join.subscribe.getD ⟨false, false⟩⟩
    state := .new
    queue := []
    channel := none
    eventSeq := 0
    localTracks := localTracks
    remoteTracks := remoteTracks
    audioMixer := req.join.bind fun join => mixerConfig localTracks join.features
    bweState := .inactive }

def remoteTrack (t : TransportWebrtcSdk) (id : RemoteTrackId) : Option RemoteTrack :=
  t.remoteTracks.find? fun track => decide (track.id = id)

def remoteTrackByMidWithSource (t : TransportWebrtcSdk) (mid : Mid) : Option RemoteTrack :=
  t.remoteTracks.find? fun track => decide (track.mid = some mid) && track.hasSource

def remoteTrackByName (t : TransportWebrtcSdk) (name : String) : Option RemoteTrack :=
  t.remoteTracks.find? fun track => decide (track.name = name)

def localTrack (t : TransportWebrtcSdk) (id : LocalTrackId) : Option LocalTrack :=
  t.localTracks.find? fun track => decide (track.id = id)

def localTrackByMid (t : TransportWebrtcSdk) (mid : Mid) : Option LocalTrack :=
  t.localTracks.find? fun track => decide (track.mid = some mid)

def localTrackByName (t : TransportWebrtcSdk) (name : String) : Option LocalTrack :=
  t.localTracks.find? fun track => decide (track.name = name)

/-- The track found by its name, changed in place. -/
def updateRemoteTrack (t : TransportWebrtcSdk) (name : String) (track : RemoteTrack) :
    TransportWebrtcSdk :=
  { t with remoteTracks :=
      t.remoteTracks.set (t.remoteTracks.findIdx fun track : RemoteTrack =>
        decide (track.name = name)) track }

def push (t : TransportWebrtcSdk) (outs : List InternalOutput) : TransportWebrtcSdk :=
  { t with queue := t.queue ++ outs }

/-- The link is in a new state, which the endpoint is told. -/
def moveTo (t : TransportWebrtcSdk) (next : State × List TransportState) : TransportWebrtcSdk :=
  { t with state := next.1 }.push (stateOutputs next.2)

/-- Nothing is sent before the channel opens.  The counter wraps around. -/
def sendEvent (t : TransportWebrtcSdk) (event : ServerEventKind) : TransportWebrtcSdk :=
  match t.channel with
  | none => t
  | some channel =>
      { t with eventSeq := t.eventSeq + 1 }.push [.str0mSendData channel ⟨t.eventSeq, event⟩]

def sendRpcRes (t : TransportWebrtcSdk) (reqId : UInt32) (res : ResponseKind) :
    TransportWebrtcSdk :=
  t.sendEvent (.response ⟨reqId, res⟩)

def sendRpcResErr (t : TransportWebrtcSdk) (reqId : UInt32) (err : RpcError) :
    TransportWebrtcSdk :=
  t.sendEvent (.response ⟨reqId, .error err⟩)

/-- Both endings of a request. -/
def sendRpcResult (t : TransportWebrtcSdk) (reqId : UInt32) (good : ResponseKind) :
    RpcResult → TransportWebrtcSdk
  | .ok () => t.sendRpcRes reqId good
  | .error err => t.sendRpcResErr reqId err

/-! ### Timer, shutdown and the endpoint -/

def isEmpty (t : TransportWebrtcSdk) : Bool := t.state.isShutdown && t.queue.isEmpty

def onTick (t : TransportWebrtcSdk) (now : Instant) : TransportWebrtcSdk :=
  let bwe := t.bweState.onTick now
  let t := { t with bweState := bwe.1 }.push (BweState.resetOutputs bwe.2)
  t.moveTo (t.state.onTick now t.remote)

def onShutdown (t : TransportWebrtcSdk) : TransportWebrtcSdk :=
  if t.state.isShutdown then t else t.moveTo (.disconnected, [.disconnected none])

/-- The outcome of a call to `str0m`. -/
def onRpcRes (t : TransportWebrtcSdk) (reqId : UInt32) :
    Except RpcError InternalRpcRes → TransportWebrtcSdk
  | .ok (.setRemoteSdp answer) => t.sendRpcRes reqId (.session (.sdp answer))
  | .error err => t.sendRpcResErr reqId err

def onTransportRpcRes (t : TransportWebrtcSdk) (reqId : EndpointReqId) :
    EndpointRes → Except Panic TransportWebrtcSdk
  | .joinRoom res => .ok (t.sendRpcResult reqId (.session .join) res)
  | .leaveRoom res => .ok (t.sendRpcResult reqId (.session .leave) res)
  | .subscribePeer _ => .error ⟨"not yet implemented"⟩
  | .unsubscribePeer _ => .error ⟨"not yet implemented"⟩
  | .remoteTrack _ (.config res) => .ok (t.sendRpcResult reqId (.sender .config) res)
  | .localTrack _ (.attach res) => .ok (t.sendRpcResult reqId (.receiver .attach) res)
  | .localTrack _ (.detach res) => .ok (t.sendRpcResult reqId (.receiver .detach) res)
  | .localTrack _ (.config res) => .ok (t.sendRpcResult reqId (.receiver .config) res)
  | .audioMixer (.attach res) => .ok (t.sendRpcResult reqId (.mixer .attach) res)
  | .audioMixer (.detach res) => .ok (t.sendRpcResult reqId (.mixer .detach) res)
  | .messageChannel label (.subscribe res) =>
      .ok (t.sendRpcResult reqId (.messageChannel label .sub) res)
  | .messageChannel label (.unsubscribe res) =>
      .ok (t.sendRpcResult reqId (.messageChannel label .unsub) res)
  | .messageChannel label (.startPublish res) =>
      .ok (t.sendRpcResult reqId (.messageChannel label .startPub) res)
  | .messageChannel label (.stopPublish res) =>
      .ok (t.sendRpcResult reqId (.messageChannel label .stopPub) res)
  | .messageChannel label (.publishData res) =>
      .ok (t.sendRpcResult reqId (.messageChannel label .pub) res)

def onRemoteMediaTrack (t : TransportWebrtcSdk) (id : RemoteTrackId)
    (event : EndpointRemoteTrackEvent) : TransportWebrtcSdk :=
  match t.remoteTrack id with
  | none => t
  | some track =>
      match track.mid, event with
      | none, _ => t
      | some mid, .requestKeyFrame => t.push [.str0mKeyframe mid]
      | some mid, .limitBitrateBps lo hi =>
          t.push [.str0mLimitBitrate mid (track.calcLimitBitrate lo hi)]

def onLocalMediaTrack (t : TransportWebrtcSdk) (now : Instant) (id : LocalTrackId)
    (event : EndpointLocalTrackEvent) : TransportWebrtcSdk :=
  match t.localTrack id, event with
  | none, _ => t
  | some track, .media pkt =>
      match track.mid with
      | none => t
      | some mid =>
          let bweState := if track.kind.isVideo then t.bweState.onSendVideo now else t.bweState
          { t with bweState := bweState }.push [.str0mSendMedia mid pkt]
  | some track, .status status => t.sendEvent (.receiver track.name (.state status))
  | some track, .voiceActivity level =>
      t.sendEvent (.receiver track.name (.voiceActivity level.toInt32))

def onEndpointEvent (t : TransportWebrtcSdk) (now : Instant) : EndpointEvent → TransportWebrtcSdk
  | .peerJoined peer peerMeta =>
      t.sendEvent (.room (.peerJoined peer peerMeta.metadata peerMeta.extraData))
  | .peerLeaved peer _ => t.sendEvent (.room (.peerLeaved peer))
  | .peerTrackStarted peer track trackMeta =>
      t.sendEvent (.room (.trackStarted peer track trackMeta.kind.proto trackMeta.metadata))
  | .peerTrackStopped peer track trackMeta =>
      t.sendEvent (.room (.trackStopped peer track trackMeta.kind.proto))
  | .audioMixer (.slotSet slot peer track) =>
      t.sendEvent (.mixer (.slotSet slot.toUInt32 ⟨peer, track⟩))
  | .audioMixer (.slotUnset slot) => t.sendEvent (.mixer (.slotUnset slot.toUInt32))
  | .remoteMediaTrack track event => t.onRemoteMediaTrack track event
  | .localMediaTrack track event => t.onLocalMediaTrack now track event
  | .bweConfig current desired =>
      let config := t.bweState.filterBweConfig current desired
      t.push [.str0mBwe config.1 config.2]
  | .channelMessage label peer data => t.sendEvent (.messageChannel label peer data)

/-! ### Requests of the client -/

section Requests

variable (decodeToken : DecodeToken)

/-- A request that waits for `str0m`: the tracks it adds are numbered by their place in
    the request. -/
def onSdpReq (t : TransportWebrtcSdk) (reqId : UInt32) (tracks : Tracks) (sdp : String) :
    TransportWebrtcSdk :=
  let t := tracks.senders.zipIdx.foldl (fun t sender =>
    if (t.remoteTrackByName sender.1.name).isNone then
      { t with remoteTracks :=
          t.remoteTracks ++ [RemoteTrack.new (UInt16.ofNat sender.2) sender.1] }
    else t) t
  let t := tracks.receivers.zipIdx.foldl (fun t receiver =>
    if (t.localTrackByName receiver.1.name).isNone then
      { t with localTracks :=
          t.localTracks ++ [LocalTrack.new (UInt16.ofNat receiver.2) receiver.1] }
    else t) t
  t.push [.rpcReq reqId (.setRemoteSdp sdp)]

def onJoinReq (t : TransportWebrtcSdk) (reqId : UInt32) (info : RoomJoin) (token : String) :
    TransportWebrtcSdk :=
  match decodeToken token with
  | none => t.sendRpcResErr reqId WebrtcError.rpcTokenInvalid.rpcError
  | some (ctx, decoded) =>
      if ctx.app ≠ t.app.app then t.sendRpcResErr reqId WebrtcError.rpcTokenAppNotMatch.rpcError
      else if decoded.room = some info.room ∧ decoded.peer = some info.peer then
        t.push [.request reqId (.joinRoom info.room info.peer ⟨info.metadata, t.extraData⟩
          (info.publish.getD ⟨false, false⟩) (info.subscribe.getD ⟨false, false⟩)
          (mixerConfig t.localTracks info.features))]
      else t.sendRpcResErr reqId WebrtcError.rpcTokenRoomPeerNotMatch.rpcError

def onSessionReq (t : TransportWebrtcSdk) (reqId : UInt32) : SessionRequest → TransportWebrtcSdk
  | .join info token => t.onJoinReq decodeToken reqId (info.getD {}) token
  | .leave => t.push [.request reqId .leaveRoom]
  | .sdp tracks sdp => t.onSdpReq reqId (tracks.getD {}) sdp
  | .disconnect =>
      match t.state with
      | .disconnected => t.sendRpcResErr reqId WebrtcError.rpcAlreadyDisconnected.rpcError
      | _ =>
          (t.moveTo (.disconnected, [.disconnected none])).sendRpcRes reqId (.session .disconnect)

def onSenderReq (t : TransportWebrtcSdk) (reqId : UInt32) (name : String)
    (req : SenderRequest) : TransportWebrtcSdk :=
  match t.remoteTrackByName name with
  | none => t.sendRpcResErr reqId WebrtcError.rpcTrackNameNotFound.rpcError
  | some track =>
      match req with
      | .attach source _ =>
          if track.hasSource then
            t.sendRpcResErr reqId WebrtcError.rpcTrackAlreadyAttached.rpcError
          else
            let track := { track with source := some (source.getD {}) }
            ((t.updateRemoteTrack name track).sendRpcRes reqId (.sender .attach)).push
              [track.started]
      | .detach =>
          if track.hasSource then
            ((t.updateRemoteTrack name { track with source := none }).sendRpcRes reqId
              (.sender .detach)).push [.event (.remoteTrack track.id .ended)]
          else t.sendRpcResErr reqId WebrtcError.rpcTrackNotAttached.rpcError
      | .config config =>
          t.push [.request reqId (.remoteTrack track.id (.config config.toEndpoint))]

def onReceverReq (t : TransportWebrtcSdk) (reqId : UInt32) (name : String)
    (req : ReceiverRequest) : TransportWebrtcSdk :=
  match t.localTrackByName name with
  | none => t.sendRpcResErr reqId WebrtcError.rpcTrackNameNotFound.rpcError
  | some track =>
      match req with
      | .attach source config =>
          t.push [.request reqId (.localTrack track.id
            (.attach (source.getD {}).toTrackSource (config.getD {}).toEndpoint))]
      | .detach => t.push [.request reqId (.localTrack track.id .detach)]
      | .config config =>
          t.push [.request reqId (.localTrack track.id (.config config.toEndpoint))]

def onMixerReq (t : TransportWebrtcSdk) (reqId : UInt32) : MixerRequest → TransportWebrtcSdk
  | .attach sources =>
      t.push [.request reqId
        (.audioMixer (.attach (sources.map ReceiverSource.toTrackSource)))]
  | .detach sources =>
      t.push [.request reqId
        (.audioMixer (.detach (sources.map ReceiverSource.toTrackSource)))]

def msgChanReq : MessageChannelRequest → EndpointMessageChannelReq
  | .sub => .subscribe
  | .unsub => .unsubscribe
  | .startPub => .startPublish
  | .stopPub => .stopPublish
  | .pub data => .publishData data

def onMsgChanReq (t : TransportWebrtcSdk) (reqId : UInt32) (label : MessageChannelLabel)
    (req : MessageChannelRequest) : TransportWebrtcSdk :=
  t.push [.request reqId (.messageChannel label (msgChanReq req))]

def onRoomReq (_t : TransportWebrtcSdk) (_reqId : UInt32) (_req : RoomRequest) :
    Except Panic TransportWebrtcSdk :=
  .error ⟨"not yet implemented"⟩

def onInvalidReq (t : TransportWebrtcSdk) (reqId : UInt32) : TransportWebrtcSdk :=
  t.sendRpcResErr reqId WebrtcError.rpcInvalidRequest.rpcError

def onRequest (t : TransportWebrtcSdk) (req : Request) : Except Panic TransportWebrtcSdk :=
  match req.request with
  | none => .ok (t.onInvalidReq req.reqId)
  | some (.session none) => .ok (t.onInvalidReq req.reqId)
  | some (.session (some session)) => .ok (t.onSessionReq decodeToken req.reqId session)
  | some (.sender _ none) => .ok (t.onInvalidReq req.reqId)
  | some (.sender name (some sender)) => .ok (t.onSenderReq req.reqId name sender)
  | some (.receiver _ none) => .ok (t.onInvalidReq req.reqId)
  | some (.receiver name (some receiver)) => .ok (t.onReceverReq req.reqId name receiver)
  | some (.room none) => .ok (t.onInvalidReq req.reqId)
  | some (.room (some room)) => t.onRoomReq req.reqId room
  | some (.messageChannel _ none) => .ok (t.onInvalidReq req.reqId)
  | some (.messageChannel label (some channel)) => .ok (t.onMsgChanReq req.reqId label channel)
  | some (.features none) => .ok t
  | some (.features (some (.mixer none))) => .ok t
  | some (.features (some (.mixer (some mixer)))) => .ok (t.onMixerReq req.reqId mixer)

def onStr0mChannelEvent (t : TransportWebrtcSdk) (event : ClientEvent) :
    Except Panic TransportWebrtcSdk :=
  match event.event with
  | none => .ok t
  | some (.request req) => t.onRequest decodeToken req

/-! ### Events of `str0m` -/

/-- The first sender without media takes what the client sends. -/
def onRemoteMediaAdded (t : TransportWebrtcSdk) (media : MediaAdded) :
    Except Panic TransportWebrtcSdk :=
  match t.remoteTracks.find? fun track => track.mid.isNone with
  | none => .ok t
  | some track => do
      let track ← track.setStr0m media.mid media.simulcast
      let index := t.remoteTracks.findIdx fun track : RemoteTrack => track.mid.isNone
      let t := { t with remoteTracks := t.remoteTracks.set index track }
      .ok (if track.hasSource then t.push [track.started] else t)

/-- The first receiver without media takes what is sent to the client. -/
def onLocalMediaAdded (t : TransportWebrtcSdk) (media : MediaAdded) :
    Except Panic TransportWebrtcSdk :=
  match t.localTracks.find? fun track => track.mid.isNone with
  | none => .ok t
  | some track => do
      let track ← track.setMid media.mid
      let index := t.localTracks.findIdx fun track : LocalTrack => track.mid.isNone
      let t := { t with localTracks := t.localTracks.set index track }
      .ok (t.push [.event (.localTrack track.id (.started track.kind))])

def onStr0mMediaAdded (t : TransportWebrtcSdk) (media : MediaAdded) :
    Except Panic TransportWebrtcSdk :=
  match media.direction with
  | .recvOnly => t.onRemoteMediaAdded media
  | .sendRecv => t.onRemoteMediaAdded media
  | .sendOnly => t.onLocalMediaAdded media
  | .inactive => .ok t

/-- What an opened channel makes the transport ask for. -/
def joinOutputs (t : TransportWebrtcSdk) : List InternalOutput :=
  match t.join with
  | none => []
  | some join =>
      [.request 0 (.joinRoom join.room join.peer ⟨join.metadata, t.extraData⟩ join.publish
        join.subscribe t.audioMixer)]

/-- The mixer is handed over with the first join. -/
def onChannelOpen (t : TransportWebrtcSdk) (channel : ChannelId) : TransportWebrtcSdk :=
  let opened := { t with channel := some channel }.moveTo (.connected, [.connected t.remote])
  { opened with audioMixer := if t.join.isSome then none else t.audioMixer }.push t.joinOutputs

def onChannelClose (t : TransportWebrtcSdk) : TransportWebrtcSdk :=
  match t.state with
  | .disconnected => t
  | _ => t.moveTo (.disconnected, [.disconnected none])

def onStr0mEvent (t : TransportWebrtcSdk) (now : Instant) :
    Str0mEvent → Except Panic TransportWebrtcSdk
  | .channelOpen channel _ => .ok (t.onChannelOpen channel)
  | .channelData none => .ok t
  | .channelData (some event) => t.onStr0mChannelEvent decodeToken event
  | .channelClose _ => .ok t.onChannelClose
  | .iceConnectionStateChange ice => .ok (t.moveTo (t.state.onStr0mState now t.remote ice))
  | .mediaAdded media => t.onStr0mMediaAdded media
  | .keyframeRequest mid =>
      match t.localTrackByMid mid with
      | none => .ok t
      | some track => .ok (t.push [.event (.localTrack track.id .requestKeyFrame)])
  | .rtpPacket _ (some mid) (some pkt) =>
      match t.remoteTrackByMidWithSource mid with
      | none => .ok t
      | some track => .ok (t.push [.event (.remoteTrack track.id (.media pkt))])
  | .rtpPacket .. => .ok t
  | .streamPaused mid paused =>
      match t.remoteTrackByMidWithSource mid with
      | none => .ok t
      | some track =>
          .ok (t.sendEvent (.sender track.name (if paused then .inactive else .active)))
  | .egressBitrateEstimate bitrate =>
      .ok (t.push [.event (.egressBitrateEstimate (t.bweState.filterBwe bitrate))])
  | .connected => .ok t
  | .other => .ok t

/-! ### The machine -/

inductive Input where
  | tick (now : Instant)
  | str0m (now : Instant) (event : Str0mEvent)
  | endpoint (now : Instant) (event : EndpointEvent)
  | rpcRes (reqId : UInt32) (res : Except RpcError InternalRpcRes)
  | transportRpcRes (reqId : EndpointReqId) (res : EndpointRes)
  | shutdown

def step (t : TransportWebrtcSdk) : Input → Except Panic TransportWebrtcSdk
  | .tick now => .ok (t.onTick now)
  | .str0m now event => t.onStr0mEvent decodeToken now event
  | .endpoint now event => .ok (t.onEndpointEvent now event)
  | .rpcRes reqId res => .ok (t.onRpcRes reqId res)
  | .transportRpcRes reqId res => t.onTransportRpcRes reqId res
  | .shutdown => .ok t.onShutdown

end Requests

end TransportWebrtcSdk

end MediaServer.Transport
