import MediaServer.Transport.Link

/-!
# The RTP engine transport

`TransportRtpEngine` (`transport_rtpengine/src/transport.rs`): a SIP leg.  It is built to
offer or to answer, and tells its first state while it is built.  It is connected by the
first audio packet after the answer, and ended by its timer, by a request or by a shutdown.

The SDP and RTP parsers are parameters.  What the transcoders make of a packet comes with
the packet, and a tick comes with the clock: the transport reads the clock itself and
ignores the time it is given.  The SDP handed to the client is left out.
-/

namespace MediaServer.Transport

/-- What the transport reads of a session description; the media are in order. -/
structure SessionDescription where
  connection : Option IpAddr
  origin : IpAddr
  mediaPorts : List UInt16

structure RtpPacket where
  payloadType : UInt8
  sequence : UInt16
  timestamp : UInt32
  mark : Bool
  payload : Bytes
deriving DecidableEq

/-- The parsers of `sdp_rs` and `rtp_rs`; the first fails with a text. -/
structure RtpEngineEnv where
  parseSdp : String → Except String SessionDescription
  readRtp : Bytes → Option RtpPacket

inductive RtpEngineError where
  | invalidSdp
  | internalServerError
  | sdpConnectionNotFound
  | sdpMediaNotFound
deriving Repr

def RtpEngineError.code : RtpEngineError → UInt32
  | .invalidSdp => 0x2000
  | .internalServerError => 0x2001
  | .sdpConnectionNotFound => 0x2002
  | .sdpMediaNotFound => 0x2003

/-- The derived `Display` of an error is its name. -/
def RtpEngineError.message : RtpEngineError → String
  | .invalidSdp => "InvalidSdp"
  | .internalServerError => "InternalServerError"
  | .sdpConnectionNotFound => "SdpConnectionNotFound"
  | .sdpMediaNotFound => "SdpMediaNotFound"

namespace RtpEngine

inductive ExtOut where
  | setAnswer (reqId : UInt64) (res : RpcResult)
  | disconnect (reqId : UInt64)

abbrev Output := TransportOutput ExtOut

end RtpEngine

open RtpEngine

structure TransportRtpEngine where
  remote : Option SocketAddr
  room : RoomId
  peer : PeerId
  udpSlot : Option Nat
  answered : Bool
  connected : Bool
  created : Instant
  lastRecvRtp : Option Instant
  lastSendRtp : Option Instant
  queue : List Output
  shutdown : Bool

namespace TransportRtpEngine

def timeoutDurationMs : Nat := 180000
def remoteAudioTrack : RemoteTrackId := 0
def localAudioTrack : LocalTrackId := 0
def audioName : String := "audio_main"
def defaultPriority : TrackPriority := 1

/-- Where a description sends media: the address of the connection, else of the origin,
    and the port of the last media. -/
def destination (sdp : SessionDescription) : Option SocketAddr :=
  sdp.mediaPorts.getLast?.map fun port => (sdp.connection.getD sdp.origin, port)

def newOffer (room : RoomId) (peer : PeerId) (listen : SocketAddr) (created : Instant) :
    TransportRtpEngine :=
  { remote := none
    room := room
    peer := peer
    udpSlot := none
    answered := false
    connected := false
    created := created
    lastRecvRtp := none
    lastSendRtp := none
    queue := [.net (.udpListen listen false), .event (.state .new)]
    shutdown := false }

def push (t : TransportRtpEngine) (outs : List Output) : TransportRtpEngine :=
  { t with queue := t.queue ++ outs }

section

variable (env : RtpEngineEnv)

def newAnswer (room : RoomId) (peer : PeerId) (listen : SocketAddr) (created : Instant)
    (offer : String) : Except String TransportRtpEngine :=
  match env.parseSdp offer with
  | .error err => .error err
  | .ok sdp =>
      match destination sdp with
      | none => .error "MEDIA_NOT_FOUND"
      | some remote =>
          .ok
            { remote := some remote
              room := room
              peer := peer
              udpSlot := none
              answered := true
              connected := false
              created := created
              lastRecvRtp := none
              lastSendRtp := none
              queue := [.net (.udpListen listen false), .event (.state (.connecting remote.1))]
              shutdown := false }

def setAnswer (t : TransportRtpEngine) (answer : String) : TransportRtpEngine × RpcResult :=
  match env.parseSdp answer with
  | .error err => (t, .error ⟨RtpEngineError.invalidSdp.code, err⟩)
  | .ok sdp =>
      match destination sdp with
      | none =>
          let err := RtpEngineError.sdpMediaNotFound
          (t, .error ⟨err.code, err.message⟩)
      | some remote =>
          ({ t with remote := some remote, answered := true }.push
            [.event (.state (.connecting remote.1))], .ok ())

/-- One-way media counts for nothing. -/
def lastActivity (t : TransportRtpEngine) : Instant :=
  match t.lastRecvRtp, t.lastSendRtp with
  | some received, some sent => max received sent
  | _, _ => t.created

def onTick (t : TransportRtpEngine) (clock : Instant) : TransportRtpEngine :=
  if t.shutdown then t
  else if timeoutDurationMs ≤ Instant.millisSince clock t.lastActivity then
    { t with shutdown := true }.push [.event (.state (.disconnected (some .timeout)))]
  else t

def onSetAnswer (t : TransportRtpEngine) (reqId : UInt64) (answer : String) :
    TransportRtpEngine :=
  let res := t.setAnswer env answer
  res.1.push [.ext (.setAnswer reqId res.2)]

def onDisconnect (t : TransportRtpEngine) (reqId : UInt64) : TransportRtpEngine :=
  t.push [.ext (.disconnect reqId), .event (.state (.disconnected none))]

def onShutdown (t : TransportRtpEngine) : TransportRtpEngine := { t with shutdown := true }

/-! ### The network -/

inductive MultiplexKind where
  | rtp
  | rtcp
deriving Repr

/-- The first byte is read before the length is looked at. -/
def pktType (value : Bytes) : Except Panic (Option MultiplexKind) :=
  match value with
  | [] => .error ⟨"index out of bounds: the len is 0 but the index is 0"⟩
  | byte0 :: byte1 :: _ :: _ =>
      if 128 ≤ byte0 ∧ byte0 < 192 then
        let payloadType := byte1 &&& 0x7F
        .ok (some (if 64 ≤ payloadType ∧ payloadType < 96 then .rtcp else .rtp))
      else .ok none
  | _ => .ok none

/-- What the first audio packet after the answer makes of the transport. -/
def connectOutputs (t : TransportRtpEngine) (ip : IpAddr) : List Output :=
  [.event (.state (.connected ip)),
    .event (.remoteTrack remoteAudioTrack (.started audioName 100 TrackMeta.defaultAudio)),
    .event (.localTrack localAudioTrack (.started .audio)),
    .rpcReq 0 (.joinRoom t.room t.peer ⟨none, none⟩ ⟨true, true⟩ ⟨false, true⟩ none)]

/-- The first audio packet after the answer connects the transport. -/
def connectOn (t : TransportRtpEngine) (ip : IpAddr) : TransportRtpEngine :=
  if t.answered && !t.connected then { t with connected := true }.push (t.connectOutputs ip)
  else t

/-- The transcoded audio, if the transcoder makes some. -/
def mediaOutputs (rtp : RtpPacket) : Option Bytes → List Output
  | none => []
  | some data =>
      [.event (.remoteTrack remoteAudioTrack (.media
        ⟨rtp.timestamp * 6, rtp.sequence, rtp.mark, false, none, .opus (some 0), data⟩))]

def onPcma (t : TransportRtpEngine) (source : SocketAddr) (rtp : RtpPacket)
    (opus : Option Bytes) : TransportRtpEngine :=
  (t.connectOn source.1).push (mediaOutputs rtp opus)

/-- The RTP packet in a datagram, if there is one. -/
def readRtp (data : Bytes) : Except Panic (Option RtpPacket) := do
  match ← pktType data with
  | some .rtp => .ok (env.readRtp data)
  | _ => .ok none

def onUdpPacket (t : TransportRtpEngine) (now : Instant) (source : SocketAddr) (data : Bytes)
    (opus : Option Bytes) : Except Panic TransportRtpEngine := do
  match ← readRtp env data with
  | none => .ok t
  | some rtp =>
      let t := { t with lastRecvRtp := some now }
      .ok (if rtp.payloadType = 8 then t.onPcma source rtp opus else t)

def onBackend (t : TransportRtpEngine) (now : Instant) (opus : Option Bytes) :
    BackendIncoming → Except Panic TransportRtpEngine
  | .udpListenResult _ none => .ok t
  | .udpListenResult _ (some (_, slot)) => .ok { t with udpSlot := some slot }
  | .udpPacket _ source data => t.onUdpPacket env now source data opus

/-! ### The endpoint -/

def onEvent (t : TransportRtpEngine) (now : Instant) (pcma : Option Bytes) :
    EndpointEvent → TransportRtpEngine
  | .peerTrackStarted peer track _ =>
      if t.peer = peer then t
      else t.push [.rpcReq 1 (.localTrack localAudioTrack
        (.attach ⟨peer, track⟩ ⟨defaultPriority, 2, 2, none, none⟩))]
  | .peerTrackStopped peer _ _ =>
      if t.peer = peer then t
      else t.push [.rpcReq 1 (.localTrack localAudioTrack .detach)]
  | .localMediaTrack _ (.media _) =>
      let t := { t with lastSendRtp := some now }
      match t.udpSlot, t.remote, pcma with
      | some slot, some remote, some data => t.push [.net (.udpPacket slot remote data)]
      | _, _, _ => t
  | _ => t

def isEmpty (t : TransportRtpEngine) : Bool := t.shutdown && t.queue.isEmpty

end

end TransportRtpEngine

/-! ### The machine -/

namespace RtpEngine

/-- What happens to a transport, and to the worker that builds it.  A packet comes with
    what its transcoder makes of it. -/
inductive Input where
  | newOffer (room : RoomId) (peer : PeerId) (listen : SocketAddr) (created : Instant)
  | newAnswer (room : RoomId) (peer : PeerId) (listen : SocketAddr) (created : Instant)
      (offer : String)
  | tick (clock : Instant)
  | net (now : Instant) (event : BackendIncoming) (opus : Option Bytes)
  | endpoint (now : Instant) (event : EndpointEvent) (pcma : Option Bytes)
  | rpcRes (reqId : EndpointReqId) (res : EndpointRes)
  | setAnswer (reqId : UInt64) (sdp : String)
  | disconnect (reqId : UInt64)
  | shutdown

/-- The transport of one session: none until it is built, and not touched by what builds
    another one. -/
abbrev Session := Option TransportRtpEngine

def isEmpty (s : Session) : Bool := s.any TransportRtpEngine.isEmpty

variable (env : RtpEngineEnv)

def stepLive (t : TransportRtpEngine) : Input → Except Panic TransportRtpEngine
  | .newOffer .. => .ok t
  | .newAnswer .. => .ok t
  | .tick clock => .ok (t.onTick clock)
  | .net now event opus => t.onBackend env now opus event
  | .endpoint now event pcma => .ok (t.onEvent now pcma event)
  | .rpcRes .. => .ok t
  | .setAnswer reqId sdp => .ok (t.onSetAnswer env reqId sdp)
  | .disconnect reqId => .ok (t.onDisconnect reqId)
  | .shutdown => .ok t.onShutdown

/-- The transport a worker builds; a description that does not parse builds none. -/
def built : Input → Session
  | .newOffer room peer listen created => some (.newOffer room peer listen created)
  | .newAnswer room peer listen created offer =>
      (TransportRtpEngine.newAnswer env room peer listen created offer).toOption
  | _ => none

def step (s : Session) (input : Input) : Except Panic Session :=
  match s with
  | none => .ok (built env input)
  | some t => (stepLive env t input).map some

end RtpEngine

end MediaServer.Transport
