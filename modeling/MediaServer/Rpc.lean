import MediaServer.Transport.Messages

/-!
# Requests to a media node

The requests and responses of `packages/protocol/src/transport/{whip,whep,webrtc,
rtpengine}.rs`, which travel from an HTTP server through gateways and the server loop
of a media node to one of its workers, and back.

A request that belongs to a session carries its connection id.  Every layer on the way
takes off the part of the id that it routes by (`down`) and puts it back on the ids of a
response (`up`): `ClusterConnId` names a node, its run and a `ServerConnId`, which names
a worker and an index there.
-/

namespace MediaServer.Rpc

open Proto

/-- The worker of a node and the index of a task there. -/
structure ServerConnId where
  worker : UInt16
  index : Nat
deriving DecidableEq, Repr

structure ClusterConnId where
  node : NodeId
  nodeSession : UInt64
  serverConn : ServerConnId
deriving DecidableEq, Repr

def ServerConnId.down (conn : ServerConnId) : Nat × UInt16 := (conn.index, conn.worker)

/-- `ConnLayer::up` of an index. -/
def ServerConnId.up (worker : UInt16) (index : Nat) : ServerConnId := ⟨worker, index⟩

def ClusterConnId.down (conn : ClusterConnId) : ServerConnId × (NodeId × UInt64) :=
  (conn.serverConn, (conn.node, conn.nodeSession))

/-- `ConnLayer::up` of a `ServerConnId`. -/
def ClusterConnId.up (node : NodeId × UInt64) (conn : ServerConnId) : ClusterConnId :=
  ⟨node.1, node.2, conn⟩

/-! ### Requests -/

structure WhipConnectReq where
  app : AppContext
  sessionId : UInt64
  sdp : String
  room : RoomId
  peer : PeerId
  record : Bool
  ip : IpAddr
  userAgent : String
  extraData : Option String
deriving DecidableEq, Repr

structure WhepConnectReq where
  app : AppContext
  sessionId : UInt64
  sdp : String
  room : RoomId
  peer : PeerId
  ip : IpAddr
  userAgent : String
  extraData : Option String
deriving DecidableEq, Repr

/-- A `ConnectRequest` of the client with its offer. -/
structure WebrtcOffer where
  req : ConnectRequest
  sdp : String
deriving DecidableEq, Repr

structure WebrtcConnectReq where
  app : AppContext
  sessionId : UInt64
  ip : IpAddr
  userAgent : String
  req : WebrtcOffer
  extraData : Option String
  record : Bool
deriving DecidableEq, Repr

structure WebrtcRestartIceReq where
  app : AppContext
  ip : IpAddr
  userAgent : String
  req : WebrtcOffer
  extraData : Option String
  record : Bool
deriving DecidableEq, Repr

structure RtpCreateOfferRequest where
  app : AppContext
  sessionId : UInt64
  room : RoomId
  peer : PeerId
  record : Bool
  extraData : Option String
deriving DecidableEq, Repr

structure RtpCreateAnswerRequest where
  app : AppContext
  sessionId : UInt64
  room : RoomId
  peer : PeerId
  sdp : String
  record : Bool
  extraData : Option String
deriving DecidableEq, Repr

variable {Conn : Type}

inductive WhipReq (Conn : Type) where
  | connect (req : WhipConnectReq)
  | remoteIce (conn : Conn) (ice : String)
  | delete (conn : Conn)
deriving Repr

inductive WhepReq (Conn : Type) where
  | connect (req : WhepConnectReq)
  | remoteIce (conn : Conn) (ice : String)
  | delete (conn : Conn)
deriving Repr

inductive WebrtcReq (Conn : Type) where
  | connect (req : WebrtcConnectReq)
  | remoteIce (conn : Conn) (candidates : List String)
  | restartIce (conn : Conn) (req : WebrtcRestartIceReq)
  | delete (conn : Conn)
deriving Repr

inductive RtpEngineReq (Conn : Type) where
  | createOffer (req : RtpCreateOfferRequest)
  | createAnswer (req : RtpCreateAnswerRequest)
  | setAnswer (conn : Conn) (sdp : String)
  | delete (conn : Conn)
deriving Repr

inductive RpcReq (Conn : Type) where
  | whep (req : WhepReq Conn)
  | whip (req : WhipReq Conn)
  | webrtc (req : WebrtcReq Conn)
  | rtpEngine (req : RtpEngineReq Conn)
deriving Repr

/-! ### Responses -/

structure ConnectResponse where
  connId : String
  sdp : String
  iceLite : Bool
deriving Repr

inductive WhipRes (Conn : Type) where
  | connect (res : Except RpcError (Conn × String))
  | remoteIce (res : Except RpcError Unit)
  | delete (res : Except RpcError Unit)

inductive WhepRes (Conn : Type) where
  | connect (res : Except RpcError (Conn × String))
  | remoteIce (res : Except RpcError Unit)
  | delete (res : Except RpcError Unit)

inductive WebrtcRes (Conn : Type) where
  | connect (res : Except RpcError (Conn × ConnectResponse))
  | remoteIce (res : Except RpcError UInt32)
  | restartIce (res : Except RpcError (Conn × ConnectResponse))
  | delete (res : Except RpcError Unit)

inductive RtpEngineRes (Conn : Type) where
  | createOffer (res : Except RpcError (Conn × String))
  | setAnswer (res : Except RpcError Conn)
  | createAnswer (res : Except RpcError (Conn × String))
  | delete (res : Except RpcError Conn)

inductive RpcRes (Conn : Type) where
  | whep (res : WhepRes Conn)
  | whip (res : WhipRes Conn)
  | webrtc (res : WebrtcRes Conn)
  | rtpEngine (res : RtpEngineRes Conn)

/-! ### The kind of a request and of a response -/

inductive RpcKind where
  | whipConnect
  | whipRemoteIce
  | whipDelete
  | whepConnect
  | whepRemoteIce
  | whepDelete
  | webrtcConnect
  | webrtcRemoteIce
  | webrtcRestartIce
  | webrtcDelete
  | rtpCreateOffer
  | rtpCreateAnswer
  | rtpSetAnswer
  | rtpDelete
deriving DecidableEq, Repr

def RpcReq.kind : RpcReq Conn → RpcKind
  | .whip (.connect _) => .whipConnect
  | .whip (.remoteIce _ _) => .whipRemoteIce
  | .whip (.delete _) => .whipDelete
  | .whep (.connect _) => .whepConnect
  | .whep (.remoteIce _ _) => .whepRemoteIce
  | .whep (.delete _) => .whepDelete
  | .webrtc (.connect _) => .webrtcConnect
  | .webrtc (.remoteIce _ _) => .webrtcRemoteIce
  | .webrtc (.restartIce _ _) => .webrtcRestartIce
  | .webrtc (.delete _) => .webrtcDelete
  | .rtpEngine (.createOffer _) => .rtpCreateOffer
  | .rtpEngine (.createAnswer _) => .rtpCreateAnswer
  | .rtpEngine (.setAnswer _ _) => .rtpSetAnswer
  | .rtpEngine (.delete _) => .rtpDelete

def RpcRes.kind : RpcRes Conn → RpcKind
  | .whip (.connect _) => .whipConnect
  | .whip (.remoteIce _) => .whipRemoteIce
  | .whip (.delete _) => .whipDelete
  | .whep (.connect _) => .whepConnect
  | .whep (.remoteIce _) => .whepRemoteIce
  | .whep (.delete _) => .whepDelete
  | .webrtc (.connect _) => .webrtcConnect
  | .webrtc (.remoteIce _) => .webrtcRemoteIce
  | .webrtc (.restartIce _) => .webrtcRestartIce
  | .webrtc (.delete _) => .webrtcDelete
  | .rtpEngine (.createOffer _) => .rtpCreateOffer
  | .rtpEngine (.createAnswer _) => .rtpCreateAnswer
  | .rtpEngine (.setAnswer _) => .rtpSetAnswer
  | .rtpEngine (.delete _) => .rtpDelete

/-- The kind of a request decides its variant. -/
theorem RpcReq.eq_webrtcDelete {req : RpcReq Conn} (h : req.kind = .webrtcDelete) :
    ∃ conn, req = .webrtc (.delete conn) := by
  rcases req with (_ | _ | _) | (_ | _ | _) | (_ | _ | _ | conn) | (_ | _ | _ | _) <;>
    first
    | exact ⟨_, rfl⟩
    | exact absurd h (by simp [RpcReq.kind])

/-! ### Layers -/

/-- The connection id of a request that belongs to a session. -/
def RpcReq.conn? : RpcReq Conn → Option Conn
  | .whip (.connect _) => none
  | .whip (.remoteIce conn _) => some conn
  | .whip (.delete conn) => some conn
  | .whep (.connect _) => none
  | .whep (.remoteIce conn _) => some conn
  | .whep (.delete conn) => some conn
  | .webrtc (.connect _) => none
  | .webrtc (.remoteIce conn _) => some conn
  | .webrtc (.restartIce conn _) => some conn
  | .webrtc (.delete conn) => some conn
  | .rtpEngine (.createOffer _) => none
  | .rtpEngine (.createAnswer _) => none
  | .rtpEngine (.setAnswer conn _) => some conn
  | .rtpEngine (.delete conn) => some conn

/-- The request with its connection id replaced. -/
def RpcReq.mapConn {Conn' : Type} (f : Conn → Conn') : RpcReq Conn → RpcReq Conn'
  | .whip (.connect req) => .whip (.connect req)
  | .whip (.remoteIce conn ice) => .whip (.remoteIce (f conn) ice)
  | .whip (.delete conn) => .whip (.delete (f conn))
  | .whep (.connect req) => .whep (.connect req)
  | .whep (.remoteIce conn ice) => .whep (.remoteIce (f conn) ice)
  | .whep (.delete conn) => .whep (.delete (f conn))
  | .webrtc (.connect req) => .webrtc (.connect req)
  | .webrtc (.remoteIce conn candidates) => .webrtc (.remoteIce (f conn) candidates)
  | .webrtc (.restartIce conn req) => .webrtc (.restartIce (f conn) req)
  | .webrtc (.delete conn) => .webrtc (.delete (f conn))
  | .rtpEngine (.createOffer req) => .rtpEngine (.createOffer req)
  | .rtpEngine (.createAnswer req) => .rtpEngine (.createAnswer req)
  | .rtpEngine (.setAnswer conn sdp) => .rtpEngine (.setAnswer (f conn) sdp)
  | .rtpEngine (.delete conn) => .rtpEngine (.delete (f conn))

/-- `RpcReq::down`: the request for the layer below, and the part of the id taken off. -/
def RpcReq.down {Down Part : Type} (split : Conn → Down × Part) (req : RpcReq Conn) :
    RpcReq Down × Option Part :=
  (req.mapConn fun conn => (split conn).1, req.conn?.map fun conn => (split conn).2)

/-- `RpcRes::up`: the response for the layer above. -/
def RpcRes.up {Up : Type} (f : Conn → Up) : RpcRes Conn → RpcRes Up
  | .whip (.connect res) => .whip (.connect (res.map fun r => (f r.1, r.2)))
  | .whip (.remoteIce res) => .whip (.remoteIce res)
  | .whip (.delete res) => .whip (.delete res)
  | .whep (.connect res) => .whep (.connect (res.map fun r => (f r.1, r.2)))
  | .whep (.remoteIce res) => .whep (.remoteIce res)
  | .whep (.delete res) => .whep (.delete res)
  | .webrtc (.connect res) => .webrtc (.connect (res.map fun r => (f r.1, r.2)))
  | .webrtc (.remoteIce res) => .webrtc (.remoteIce res)
  | .webrtc (.restartIce res) => .webrtc (.restartIce (res.map fun r => (f r.1, r.2)))
  | .webrtc (.delete res) => .webrtc (.delete res)
  | .rtpEngine (.createOffer res) => .rtpEngine (.createOffer (res.map fun r => (f r.1, r.2)))
  | .rtpEngine (.setAnswer res) => .rtpEngine (.setAnswer (res.map f))
  | .rtpEngine (.createAnswer res) => .rtpEngine (.createAnswer (res.map fun r => (f r.1, r.2)))
  | .rtpEngine (.delete res) => .rtpEngine (.delete (res.map f))

/-- The layers keep the kind of a request. -/
@[simp] theorem RpcReq.kind_mapConn {Conn' : Type} (f : Conn → Conn') (req : RpcReq Conn) :
    (req.mapConn f).kind = req.kind := by
  rcases req with (_ | _ | _) | (_ | _ | _) | (_ | _ | _ | _) | (_ | _ | _ | _) <;> rfl

@[simp] theorem RpcReq.conn?_mapConn {Conn' : Type} (f : Conn → Conn') (req : RpcReq Conn) :
    (req.mapConn f).conn? = req.conn?.map f := by
  rcases req with (_ | _ | _) | (_ | _ | _) | (_ | _ | _ | _) | (_ | _ | _ | _) <;> rfl

/-- The layers keep the kind of a response. -/
@[simp] theorem RpcRes.kind_up {Up : Type} (f : Conn → Up) (res : RpcRes Conn) :
    (res.up f).kind = res.kind := by
  rcases res with (_ | _ | _) | (_ | _ | _) | (_ | _ | _ | _) | (_ | _ | _ | _) <;> rfl

end MediaServer.Rpc
