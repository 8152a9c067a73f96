import MediaServer.Protocol

/-!
# What an endpoint hears and says

The requests, responses and events between a transport, its endpoint, the
connector and the recorder, as `media_core/src/{transport,endpoint,errors}.rs`,
`protocol/src/record.rs` and the `PeerEvent` message of the connector declare
them.  An IP address is its printed form, and an instant counts nanoseconds.
-/

namespace MediaServer

abbrev IpAddr := String
abbrev EndpointReqId := UInt32

structure AppContext where
  app : AppId
deriving DecidableEq, Repr

/-! ### Errors -/

inductive EndpointErrors where
  | endpointNotInRoom
  | localTrackNotPinSource
  | localTrackInvalidPriority
  | remoteTrackInvalidPriority
  | remoteTrackStopped
  | audioMixerWrongMode
  | destroying
deriving Repr

def EndpointErrors.code : EndpointErrors → UInt32
  | .endpointNotInRoom => 0x0001
  | .localTrackNotPinSource => 0x1001
  | .localTrackInvalidPriority => 0x1002
  | .remoteTrackInvalidPriority => 0x2001
  | .remoteTrackStopped => 0x2002
  | .audioMixerWrongMode => 0x3001
  | .destroying => 0x4001

/-- The derived `Display` of an error is its name. -/
def EndpointErrors.message : EndpointErrors → String
  | .endpointNotInRoom => "EndpointNotInRoom"
  | .localTrackNotPinSource => "LocalTrackNotPinSource"
  | .localTrackInvalidPriority => "LocalTrackInvalidPriority"
  | .remoteTrackInvalidPriority => "RemoteTrackInvalidPriority"
  | .remoteTrackStopped => "RemoteTrackStopped"
  | .audioMixerWrongMode => "AudioMixerWrongMode"
  | .destroying => "Destroying"

structure RpcError where
  code : UInt32
  message : String
deriving DecidableEq, Repr

def RpcError.new2 (err : EndpointErrors) : RpcError := ⟨err.code, err.message⟩

/-- `RpcResult<()>`. -/
abbrev RpcResult := Except RpcError Unit

instance : DecidableEq RpcResult := fun a b =>
  match a, b with
  | .ok (), .ok () => .isTrue rfl
  | .error e, .error e' => decidable_of_iff (e = e') (by simp)
  | .ok (), .error _ => .isFalse (by simp)
  | .error _, .ok () => .isFalse (by simp)

/-! ### Transport -/

inductive TransportError where
  | timeout
deriving DecidableEq, Repr

inductive TransportState where
  | new
  | connecting (ip : IpAddr)
  | connectError (err : TransportError)
  | connected (ip : IpAddr)
  | reconnecting (ip : IpAddr)
  | disconnected (err : Option TransportError)
deriving DecidableEq, Repr

inductive LocalTrackEvent where
  | started (kind : MediaKind)
  | requestKeyFrame
  | ended
deriving DecidableEq, Repr

def LocalTrackEvent.needCreate : LocalTrackEvent → Option MediaKind
  | .started kind => some kind
  | _ => none

inductive RemoteTrackEvent where
  | started (name : String) (priority : TrackPriority) (trackMeta : TrackMeta)
  | paused
  | resumed
  | media (media : MediaPacket)
  | ended
deriving DecidableEq

def RemoteTrackEvent.needCreate :
    RemoteTrackEvent → Option (TrackName × TrackPriority × TrackMeta)
  | .started name priority trackMeta => some (name, priority, trackMeta)
  | _ => none

/-- The fields of `TransportStats` are left out: the endpoint ignores them. -/
inductive TransportEvent where
  | state (state : TransportState)
  | remoteTrack (track : RemoteTrackId) (event : RemoteTrackEvent)
  | localTrack (track : LocalTrackId) (event : LocalTrackEvent)
  | stats
  | egressBitrateEstimate (bitrate : UInt64)
deriving DecidableEq

/-! ### Requests and responses -/

structure EndpointRemoteTrackConfig where
  priority : TrackPriority
  control : BitrateControlMode
deriving DecidableEq, Repr

inductive EndpointRemoteTrackReq where
  | config (config : EndpointRemoteTrackConfig)
deriving DecidableEq, Repr

inductive EndpointRemoteTrackRes where
  | config (res : RpcResult)
deriving DecidableEq

structure EndpointLocalTrackConfig where
  priority : TrackPriority
  maxSpatial : UInt8
  maxTemporal : UInt8
  minSpatial : Option UInt8
  minTemporal : Option UInt8
deriving DecidableEq, Repr

inductive EndpointLocalTrackReq where
  | attach (source : TrackSource) (config : EndpointLocalTrackConfig)
  | detach
  | config (config : EndpointLocalTrackConfig)
deriving DecidableEq, Repr

inductive EndpointLocalTrackRes where
  | attach (res : RpcResult)
  | detach (res : RpcResult)
  | config (res : RpcResult)
deriving DecidableEq

inductive EndpointAudioMixerReq where
  | attach (sources : List TrackSource)
  | detach (sources : List TrackSource)
deriving DecidableEq, Repr

inductive EndpointAudioMixerRes where
  | attach (res : RpcResult)
  | detach (res : RpcResult)
deriving DecidableEq

inductive EndpointMessageChannelReq where
  | subscribe
  | unsubscribe
  | startPublish
  | stopPublish
  | publishData (data : Bytes)
deriving DecidableEq, Repr

inductive EndpointMessageChannelRes where
  | subscribe (res : RpcResult)
  | unsubscribe (res : RpcResult)
  | startPublish (res : RpcResult)
  | stopPublish (res : RpcResult)
  | publishData (res : RpcResult)
deriving DecidableEq

inductive EndpointReq where
  | joinRoom (room : RoomId) (peer : PeerId) (peerMeta : PeerMeta) (publish : RoomInfoPublish)
      (subscribe : RoomInfoSubscribe) (mixer : Option AudioMixerConfig)
  | leaveRoom
  | subscribePeer (peer : PeerId)
  | unsubscribePeer (peer : PeerId)
  | audioMixer (req : EndpointAudioMixerReq)
  | remoteTrack (track : RemoteTrackId) (req : EndpointRemoteTrackReq)
  | localTrack (track : LocalTrackId) (req : EndpointLocalTrackReq)
  | messageChannel (label : MessageChannelLabel) (req : EndpointMessageChannelReq)
deriving DecidableEq

inductive EndpointRes where
  | joinRoom (res : RpcResult)
  | leaveRoom (res : RpcResult)
  | subscribePeer (res : RpcResult)
  | unsubscribePeer (res : RpcResult)
  | audioMixer (res : EndpointAudioMixerRes)
  | remoteTrack (track : RemoteTrackId) (res : EndpointRemoteTrackRes)
  | localTrack (track : LocalTrackId) (res : EndpointLocalTrackRes)
  | messageChannel (label : MessageChannelLabel) (res : EndpointMessageChannelRes)
deriving DecidableEq

/-! ### Events towards the transport -/

/-- `protobuf::shared::receiver::Status`. -/
inductive ReceiverStatus where
  | waiting
  | active
  | inactive
deriving DecidableEq, Repr

inductive EndpointLocalTrackEvent where
  | media (media : MediaPacket)
  | status (status : ReceiverStatus)
  | voiceActivity (level : Int8)
deriving DecidableEq

inductive EndpointRemoteTrackEvent where
  | requestKeyFrame
  | limitBitrateBps (min max : UInt64)
deriving DecidableEq

inductive EndpointAudioMixerEvent where
  | slotSet (slot : UInt8) (peer : PeerId) (track : TrackName)
  | slotUnset (slot : UInt8)
deriving DecidableEq

/-- `GoAway` is left out: only the transports build it. -/
inductive EndpointEvent where
  | peerJoined (peer : PeerId) (peerMeta : PeerMeta)
  | peerLeaved (peer : PeerId) (peerMeta : PeerMeta)
  | peerTrackStarted (peer : PeerId) (track : TrackName) (trackMeta : TrackMeta)
  | peerTrackStopped (peer : PeerId) (track : TrackName) (trackMeta : TrackMeta)
  | audioMixer (event : EndpointAudioMixerEvent)
  | remoteMediaTrack (track : RemoteTrackId) (event : EndpointRemoteTrackEvent)
  | localMediaTrack (track : LocalTrackId) (event : EndpointLocalTrackEvent)
  | bweConfig (current desired : UInt64)
  | channelMessage (label : MessageChannelLabel) (peer : PeerId) (data : Bytes)
deriving DecidableEq

/-! ### Events towards the connector and the recorder -/

/-- `Kind::from(kind) as i32`. -/
def MediaKind.proto : MediaKind → Int32
  | .audio => 0
  | .video => 1

/-- The `peer_event::Event`s an endpoint reports. -/
inductive PeerEvent where
  | connecting (remoteIp : String)
  | connectError (afterMs : UInt32) (error : Int32)
  | connected (afterMs : UInt32) (remoteIp : String)
  | reconnect (remoteIp : String)
  | reconnected (afterMs : UInt32) (remoteIp : String)
  | disconnected (durationMs : UInt32) (reason : Int32)
  | join (room : String) (peer : String)
  | leave (room : String) (peer : String)
  | remoteTrackStarted (track : String) (kind : Int32)
  | remoteTrackEnded (track : String) (kind : Int32)
  | localTrack (track : Int32) (kind : Int32)
  | localTrackAttach (track : Int32) (remotePeer : String) (remoteTrack : String)
  | localTrackDetach (track : Int32) (remotePeer : String) (remoteTrack : String)
deriving DecidableEq, Repr

inductive SessionRecordEvent where
  | joinRoom (app : AppId) (room : RoomId) (peer : PeerId)
  | leaveRoom
  | trackStarted (track : RemoteTrackId) (name : TrackName) (trackMeta : TrackMeta)
  | trackStopped (track : RemoteTrackId)
  | trackMedia (track : RemoteTrackId) (media : MediaPacket)
  | disconnected
deriving DecidableEq

/-- The event is about a track. -/
def SessionRecordEvent.isTrack : SessionRecordEvent → Bool
  | .trackStarted .. | .trackStopped _ | .trackMedia .. => true
  | .joinRoom .. | .leaveRoom | .disconnected => false

end MediaServer
