import MediaServer.Endpoint.Messages
import MediaServer.Lib.Machine

/-!
# What a transport hears and says

The messages of `protocol/proto/{shared,sdk/session,sdk/features}.proto`, as far as
the transports read or write them, and the events and outputs of
`transport_webrtc/src/transport.rs`.  An enumeration field of a message is its
number, which a getter reads with the first value for an unknown one.

Three things come from outside.  Data on the channel is what `prost` makes of its
bytes, an RTP packet is what the media converter makes of it, and an answer to an
offer is what `str0m` says.
-/

namespace MediaServer.Proto

/-! ### Tracks -/

/-- The getter of a `Kind` field. -/
def mediaKind (value : Int32) : MediaKind := if value = 1 then .video else .audio

/-- The getter of a `BitrateControlMode` field. -/
def bitrateControlMode (value : Int32) : BitrateControlMode :=
  if value = 1 then .maxBitrate else .dynamicConsumers

/-- The getter of a mixer `Mode` field. -/
def mixerMode (value : Int32) : AudioMixerMode := if value = 1 then .manual else .auto

structure ReceiverSource where
  peer : String := ""
  track : String := ""
deriving DecidableEq, Repr

def ReceiverSource.toTrackSource (source : ReceiverSource) : TrackSource :=
  ⟨source.peer, source.track⟩

structure ReceiverConfig where
  priority : UInt32 := 0
  maxSpatial : UInt32 := 0
  maxTemporal : UInt32 := 0
  minSpatial : Option UInt32 := none
  minTemporal : Option UInt32 := none
deriving DecidableEq, Repr

def ReceiverConfig.toEndpoint (config : ReceiverConfig) : EndpointLocalTrackConfig :=
  ⟨config.priority, config.maxSpatial.toUInt8, config.maxTemporal.toUInt8,
    config.minSpatial.map UInt32.toUInt8, config.minTemporal.map UInt32.toUInt8⟩

/-- The state of a receiver is left out: the transport does not read it. -/
structure Receiver where
  kind : Int32
  name : String
deriving DecidableEq, Repr

structure SenderSource where
  id : String := ""
  screen : Bool := false
  metadata : Option String := none
deriving DecidableEq, Repr

structure SenderConfig where
  priority : UInt32 := 0
  bitrate : Int32 := 0
deriving DecidableEq, Repr

def SenderConfig.toEndpoint (config : SenderConfig) : EndpointRemoteTrackConfig :=
  ⟨config.priority, bitrateControlMode config.bitrate⟩

structure SenderState where
  config : Option SenderConfig := none
  source : Option SenderSource := none
deriving DecidableEq, Repr

structure Sender where
  kind : Int32
  name : String
  state : Option SenderState
deriving DecidableEq, Repr

structure Tracks where
  receivers : List Receiver := []
  senders : List Sender := []
deriving DecidableEq, Repr

/-! ### Joining -/

structure MixerConfig where
  mode : Int32
  outputs : List String
  sources : List ReceiverSource
deriving DecidableEq, Repr

structure FeaturesConfig where
  mixer : Option MixerConfig
deriving DecidableEq, Repr

structure RoomJoin where
  room : String := ""
  peer : String := ""
  publish : Option RoomInfoPublish := none
  subscribe : Option RoomInfoSubscribe := none
  features : Option FeaturesConfig := none
  metadata : Option String := none
deriving DecidableEq, Repr

/-- The version and the offer are read before the transport is built. -/
structure ConnectRequest where
  join : Option RoomJoin
  tracks : Option Tracks
deriving DecidableEq, Repr

/-! ### Requests of a client -/

inductive SessionRequest where
  | join (info : Option RoomJoin) (token : String)
  | leave
  | sdp (tracks : Option Tracks) (sdp : String)
  | disconnect
deriving DecidableEq, Repr

inductive RoomRequest where
  | subscribe (peer : String)
  | unsubscribe (peer : String)
deriving DecidableEq, Repr

inductive SenderRequest where
  | attach (source : Option SenderSource) (config : Option SenderConfig)
  | detach
  | config (config : SenderConfig)
deriving DecidableEq, Repr

inductive ReceiverRequest where
  | attach (source : Option ReceiverSource) (config : Option ReceiverConfig)
  | detach
  | config (config : ReceiverConfig)
deriving DecidableEq, Repr

inductive MixerRequest where
  | attach (sources : List ReceiverSource)
  | detach (sources : List ReceiverSource)
deriving DecidableEq, Repr

inductive FeaturesRequest where
  | mixer (request : Option MixerRequest)
deriving DecidableEq, Repr

inductive MessageChannelRequest where
  | startPub
  | stopPub
  | sub
  | unsub
  | pub (data : Bytes)
deriving DecidableEq, Repr

/-- The `oneof` of a request, with the fields of the message it selects. -/
inductive RequestKind where
  | session (request : Option SessionRequest)
  | room (request : Option RoomRequest)
  | sender (name : String) (request : Option SenderRequest)
  | receiver (name : String) (request : Option ReceiverRequest)
  | features (request : Option FeaturesRequest)
  | messageChannel (label : String) (request : Option MessageChannelRequest)
deriving DecidableEq, Repr

structure Request where
  reqId : UInt32
  request : Option RequestKind
deriving DecidableEq, Repr

inductive ClientEventKind where
  | request (req : Request)
deriving DecidableEq, Repr

structure ClientEvent where
  seq : UInt32
  event : Option ClientEventKind
deriving DecidableEq, Repr

/-! ### Events of the server

The transport sets every field it writes, so the optional ones are plain here. -/

inductive SessionResponse where
  | join
  | leave
  | sdp (sdp : String)
  | disconnect
deriving DecidableEq, Repr

inductive SenderResponse where
  | attach
  | detach
  | config
deriving DecidableEq, Repr

inductive ReceiverResponse where
  | attach
  | detach
  | config
deriving DecidableEq, Repr

inductive MixerResponse where
  | attach
  | detach
deriving DecidableEq, Repr

inductive MessageChannelResponse where
  | startPub
  | stopPub
  | sub
  | unsub
  | pub
deriving DecidableEq, Repr

inductive ResponseKind where
  | error (err : RpcError)
  | session (response : SessionResponse)
  | sender (response : SenderResponse)
  | receiver (response : ReceiverResponse)
  | mixer (response : MixerResponse)
  | messageChannel (label : String) (response : MessageChannelResponse)
deriving DecidableEq, Repr

structure Response where
  reqId : UInt32
  response : ResponseKind
deriving DecidableEq, Repr

inductive RoomEvent where
  | peerJoined (peer : String) (metadata extraData : Option String)
  | peerLeaved (peer : String)
  | trackStarted (peer track : String) (kind : Int32) (metadata : Option String)
  | trackStopped (peer track : String) (kind : Int32)
deriving DecidableEq, Repr

inductive MixerEvent where
  | slotSet (slot : UInt32) (source : ReceiverSource)
  | slotUnset (slot : UInt32)
deriving DecidableEq, Repr

/-- `protobuf::shared::sender::Status`. -/
inductive SenderStatus where
  | active
  | inactive
deriving DecidableEq, Repr

inductive ReceiverEvent where
  | state (status : ReceiverStatus)
  | voiceActivity (audioLevel : Int32)
deriving DecidableEq, Repr

inductive ServerEventKind where
  | room (event : RoomEvent)
  | mixer (event : MixerEvent)
  | sender (name : String) (status : SenderStatus)
  | receiver (name : String) (event : ReceiverEvent)
  | messageChannel (label : String) (peer : String) (message : Bytes)
  | response (response : Response)
deriving DecidableEq, Repr

structure ServerEvent where
  seq : UInt32
  event : ServerEventKind
deriving DecidableEq, Repr

end MediaServer.Proto

namespace MediaServer.Transport

/-! ### Between a transport and its endpoint -/

abbrev SocketAddr := IpAddr × UInt16

/-- The error of a failed listen is left out: it is only logged. -/
inductive BackendIncoming where
  | udpListenResult (bind : SocketAddr) (result : Option (SocketAddr × Nat))
  | udpPacket (slot : Nat) (source : SocketAddr) (data : Bytes)

inductive BackendOutgoing where
  | udpListen (addr : SocketAddr) (reuse : Bool)
  | udpPacket (slot : Nat) (target : SocketAddr) (data : Bytes)
deriving DecidableEq

inductive TransportOutput (Ext : Type) where
  | net (out : BackendOutgoing)
  | event (event : TransportEvent)
  | rpcReq (reqId : EndpointReqId) (req : EndpointReq)
  | ext (ext : Ext)
deriving DecidableEq

/-- The change of state an output tells the endpoint. -/
def TransportOutput.state? {Ext : Type} : TransportOutput Ext → Option TransportState
  | .event (.state state) => some state
  | _ => none

/-! ### Between a WebRTC transport and `str0m` -/

abbrev Mid := String
abbrev ChannelId := Nat

inductive WebrtcError where
  | invalidSdp
  | internalServerError
  | rpcInvalidRequest
  | rpcTrackNameNotFound
  | rpcTrackNotAttached
  | rpcTrackAlreadyAttached
  | rpcEndpointNotFound
  | rpcTokenInvalid
  | rpcTokenRoomPeerNotMatch
  | rpcTokenAppNotMatch
  | rpcAlreadyDisconnected
deriving Repr

def WebrtcError.code : WebrtcError → UInt32
  | .invalidSdp => 0x2000
  | .internalServerError => 0x2001
  | .rpcInvalidRequest => 0x2002
  | .rpcTrackNameNotFound => 0x2003
  | .rpcTrackNotAttached => 0x2004
  | .rpcTrackAlreadyAttached => 0x2005
  | .rpcEndpointNotFound => 0x2006
  | .rpcTokenInvalid => 0x2007
  | .rpcTokenRoomPeerNotMatch => 0x2008
  | .rpcTokenAppNotMatch => 0x2009
  | .rpcAlreadyDisconnected => 0x2010

/-- The derived `Display` of an error is its name. -/
def WebrtcError.message : WebrtcError → String
  | .invalidSdp => "InvalidSdp"
  | .internalServerError => "InternalServerError"
  | .rpcInvalidRequest => "RpcInvalidRequest"
  | .rpcTrackNameNotFound => "RpcTrackNameNotFound"
  | .rpcTrackNotAttached => "RpcTrackNotAttached"
  | .rpcTrackAlreadyAttached => "RpcTrackAlreadyAttached"
  | .rpcEndpointNotFound => "RpcEndpointNotFound"
  | .rpcTokenInvalid => "RpcTokenInvalid"
  | .rpcTokenRoomPeerNotMatch => "RpcTokenRoomPeerNotMatch"
  | .rpcTokenAppNotMatch => "RpcTokenAppNotMatch"
  | .rpcAlreadyDisconnected => "RpcAlreadyDisconnected"

def WebrtcError.rpcError (err : WebrtcError) : RpcError := ⟨err.code, err.message⟩

inductive IceConnectionState where
  | new
  | checking
  | connected
  | completed
  | disconnected
deriving DecidableEq, Repr

inductive Direction where
  | sendOnly
  | recvOnly
  | sendRecv
  | inactive
deriving DecidableEq, Repr

structure MediaAdded where
  mid : Mid
  kind : MediaKind
  direction : Direction
  simulcast : Bool
deriving DecidableEq, Repr

/-- The events of `str0m`.  Channel data carries the decoded event, if it decodes; an RTP
    packet carries the track and the packet the media converter finds in it.  What only
    is logged or ignored is `other`. -/
inductive Str0mEvent where
  | connected
  | channelOpen (channel : ChannelId) (label : String)
  | channelData (event : Option Proto.ClientEvent)
  | channelClose (channel : ChannelId)
  | iceConnectionStateChange (state : IceConnectionState)
  | mediaAdded (media : MediaAdded)
  | keyframeRequest (mid : Mid)
  | rtpPacket (payloadType : UInt8) (mid : Option Mid) (pkt : Option MediaPacket)
  | streamPaused (mid : Mid) (paused : Bool)
  | egressBitrateEstimate (bitrate : UInt64)
  | other

inductive InternalRpcReq where
  | setRemoteSdp (sdp : String)
deriving DecidableEq, Repr

/-- The endings of a call to `str0m`; the good one carries the answer. -/
inductive InternalRpcRes where
  | setRemoteSdp (answer : String)
deriving Repr

/-- No external output is built by the transports behind `TransportWebrtc`. -/
abbrev WebrtcOutput := TransportOutput Empty

inductive InternalOutput where
  | str0mKeyframe (mid : Mid)
  | str0mLimitBitrate (mid : Mid) (bitrate : UInt64)
  | str0mSendMedia (mid : Mid) (pkt : MediaPacket)
  | str0mSendData (channel : ChannelId) (event : Proto.ServerEvent)
  | str0mBwe (current desired : UInt64)
  | str0mResetBwe (initBitrate : UInt64)
  | rpcReq (reqId : UInt32) (req : InternalRpcReq)
  | transportOutput (out : WebrtcOutput)

def InternalOutput.state? : InternalOutput → Option TransportState
  | .transportOutput out => out.state?
  | _ => none

end MediaServer.Transport
