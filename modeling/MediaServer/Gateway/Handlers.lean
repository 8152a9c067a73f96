import MediaServer.Gateway.Store
import MediaServer.Rpc

/-!
# The request handlers of a gateway

`bin/src/server/gateway/{local_rpc_handler,remote_rpc_handler}.rs`.  A request enters a
gateway from its HTTP server (`processReq`) or from another gateway (`handleRemote`).  A
request for a new session goes to a node that the gateway's store selects; a request for
a known session goes to the node that its connection id names.

A handler may panic, and it leaves a log of effects: the calls it made to other nodes and
what it told the connector.  The elapsed times in the latter are left out.  What a call
returns is up to the other node.  Texts of addresses and connection ids are read and
written by parameters.
-/

namespace MediaServer.Gateway

open Rpc Proto

/-! ### The service of a node -/

/-- The requests of `MediaEdgeService`. -/
inductive EdgeReq where
  | whipConnect (app : Option AppContext) (sessionId : UInt64) (ip userAgent sdp : String)
      (room : RoomId) (peer : PeerId) (record : Bool) (extraData : Option String)
  | whipRemoteIce (conn ice : String)
  | whipClose (conn : String)
  | whepConnect (app : Option AppContext) (sessionId : UInt64) (ip userAgent sdp : String)
      (room : RoomId) (peer : PeerId) (extraData : Option String)
  | whepRemoteIce (conn ice : String)
  | whepClose (conn : String)
  | webrtcConnect (app : Option AppContext) (sessionId : UInt64) (ip userAgent : String)
      (req : Option WebrtcOffer) (record : Bool) (extraData : Option String)
  | webrtcRemoteIce (conn : String) (candidates : List String)
  | webrtcRestartIce (app : Option AppContext) (conn ip userAgent : String)
      (req : Option WebrtcOffer) (record : Bool) (extraData : Option String)
  | rtpEngineCreateOffer (app : Option AppContext) (sessionId : UInt64) (room : RoomId)
      (peer : PeerId) (record : Bool) (extraData : Option String)
  | rtpEngineSetAnswer (conn sdp : String)
  | rtpEngineCreateAnswer (app : Option AppContext) (sessionId : UInt64) (room : RoomId)
      (peer : PeerId) (sdp : String) (record : Bool) (extraData : Option String)
  | rtpEngineDelete (conn : String)

structure ConnSdp where
  conn : String
  sdp : String

structure ConnOnly where
  conn : String

/-- The response that each request has. -/
def EdgeReq.Res : EdgeReq → Type
  | .whipConnect .. => ConnSdp
  | .whipRemoteIce .. => ConnOnly
  | .whipClose .. => ConnOnly
  | .whepConnect .. => ConnSdp
  | .whepRemoteIce .. => ConnOnly
  | .whepClose .. => ConnOnly
  | .webrtcConnect .. => Option ConnectResponse
  | .webrtcRemoteIce .. => UInt32
  | .webrtcRestartIce .. => Option ConnectResponse
  | .rtpEngineCreateOffer .. => ConnSdp
  | .rtpEngineSetAnswer .. => ConnOnly
  | .rtpEngineCreateAnswer .. => ConnSdp
  | .rtpEngineDelete .. => ConnOnly

/-! ### Requests as messages -/

def whipRequest (p : WhipConnectReq) : EdgeReq :=
  .whipConnect (some p.app) p.sessionId p.ip p.userAgent p.sdp p.room p.peer p.record p.extraData

def whepRequest (p : WhepConnectReq) : EdgeReq :=
  .whepConnect (some p.app) p.sessionId p.ip p.userAgent p.sdp p.room p.peer p.extraData

def webrtcRequest (p : WebrtcConnectReq) : EdgeReq :=
  .webrtcConnect (some p.app) p.sessionId p.ip p.userAgent (some p.req) p.record p.extraData

def restartRequest (conn : String) (p : WebrtcRestartIceReq) : EdgeReq :=
  .webrtcRestartIce (some p.app) conn p.ip p.userAgent (some p.req) p.record p.extraData

def rtpOfferRequest (p : RtpCreateOfferRequest) : EdgeReq :=
  .rtpEngineCreateOffer (some p.app) p.sessionId p.room p.peer p.record p.extraData

def rtpAnswerRequest (p : RtpCreateAnswerRequest) : EdgeReq :=
  .rtpEngineCreateAnswer (some p.app) p.sessionId p.room p.peer p.sdp p.record p.extraData

/-! ### Effects -/

inductive RouteErrorType where
  | poolEmpty
  | timeout
  | mediaError
  | gatewayError
deriving Repr

inductive Effect where
  | routeBegin (app : AppId) (sessionId : UInt64) (remoteIp : String)
  | routeSuccess (app : AppId) (sessionId : UInt64) (destNode : NodeId)
  | routeError (app : AppId) (sessionId : UInt64) (destNode : Option NodeId)
      (error : RouteErrorType)
  | call (node : NodeId) (req : EdgeReq)

/-- A handler in the middle of its work.  The effects before a panic stay. -/
abbrev Handler := ExceptT Panic (StateM (List Effect))

/-- What a handler ends with, and the effects so far. -/
def exec {α : Type} (handler : Handler α) (log : List Effect) : Except Panic α × List Effect :=
  handler.run.run log

def emit (effect : Effect) : Handler Unit := modify fun log => log ++ [effect]

/-- The nodes that were called. -/
def calls (log : List Effect) : List NodeId :=
  log.filterMap fun
    | .call node _ => some node
    | _ => none

/-- What the handlers of a gateway use. -/
structure Env (Location D : Type) where
  store : GatewayStore Location
  distance : Location → Location → D
  getLocation : IpAddr → Option Location
  parseIp : String → Option IpAddr
  parseConn : String → Option ClusterConnId
  showConn : ClusterConnId → String
  client : NodeId → (req : EdgeReq) → Option req.Res

inductive MediaServerError where
  | gatewayRpcError
  | invalidConnId
  | nodePoolEmpty
  | mediaResError
  | notImplemented
  | nodeTimeout
deriving Repr

def MediaServerError.code : MediaServerError → UInt32
  | .gatewayRpcError => 0x00020001
  | .invalidConnId => 0x00020002
  | .nodePoolEmpty => 0x00020003
  | .mediaResError => 0x00020004
  | .notImplemented => 0x00020005
  | .nodeTimeout => 0x00020006

/-- The derived `Display` of an error is its name. -/
def MediaServerError.message : MediaServerError → String
  | .gatewayRpcError => "GatewayRpcError"
  | .invalidConnId => "InvalidConnId"
  | .nodePoolEmpty => "NodePoolEmpty"
  | .mediaResError => "MediaResError"
  | .notImplemented => "NotImplemented"
  | .nodeTimeout => "NodeTimeout"

def MediaServerError.rpcError (err : MediaServerError) : RpcError := ⟨err.code, err.message⟩

/-- `AppContext::root_app`. -/
def rootApp : AppContext := ⟨""⟩

variable {Location D : Type} [LinearOrder D]

namespace Env

variable (env : Env Location D)

/-- `GatewayDestSelector::select`, answered by the store. -/
def select (kind : ServiceKind) (location : Option Location) : Option NodeId :=
  env.store.bestFor env.distance kind location

/-- `GatewayDestSelector::dest_for`. -/
def destFor (kind : ServiceKind) (node : NodeId) : Option NodeId := env.store.destFor kind node

def call (node : NodeId) (req : EdgeReq) : Handler (Option req.Res) := do
  emit (.call node req)
  return env.client node req

/-- `parse().unwrap()` of a connection id. -/
def unwrapConn (text : String) : Handler ClusterConnId :=
  match env.parseConn text with
  | some conn => return conn
  | none => throw ⟨"called `Result::unwrap()` on an `Err` value"⟩

/-! ### Requests of the HTTP server -/

/-- A new session: the node is selected, called, and what it answers is read by `finish`. -/
def connect {α : Type} (kind : ServiceKind) (location : Option Location) (app : AppContext)
    (sessionId : UInt64) (ip : IpAddr) (req : EdgeReq)
    (finish : NodeId → Option req.Res → Handler (Except RpcError α)) :
    Handler (Except RpcError α) := do
  emit (.routeBegin app.app sessionId ip)
  match env.select kind location with
  | some node =>
    let res ← env.call node req
    finish node res
  | none =>
    emit (.routeError app.app sessionId none .poolEmpty)
    return .error MediaServerError.nodePoolEmpty.rpcError

/-- The end of `whip_connect`, `whep_connect`, `rtpengine_create_offer` and
    `rtpengine_create_answer`. -/
def finishConnSdp (app : AppContext) (sessionId : UInt64) (node : NodeId)
    (res : Option ConnSdp) : Handler (Except RpcError (ClusterConnId × String)) :=
  match res with
  | some res => do
    emit (.routeSuccess app.app sessionId node)
    let conn ← env.unwrapConn res.conn
    return .ok (conn, res.sdp)
  | none => do
    emit (.routeError app.app sessionId (some node) .timeout)
    return .error MediaServerError.gatewayRpcError.rpcError

/-- The end of `webrtc_connect`. -/
def finishWebrtc (app : AppContext) (sessionId : UInt64) (node : NodeId)
    (res : Option (Option ConnectResponse)) :
    Handler (Except RpcError (ClusterConnId × ConnectResponse)) :=
  match res with
  | some (some res) =>
    match env.parseConn res.connId with
    | some conn => do
      emit (.routeSuccess app.app sessionId node)
      return .ok (conn, res)
    | none => do
      emit (.routeError app.app sessionId (some node) .mediaError)
      return .error MediaServerError.mediaResError.rpcError
  | some none => do
    emit (.routeError app.app sessionId (some node) .gatewayError)
    return .error MediaServerError.gatewayRpcError.rpcError
  | none => do
    emit (.routeError app.app sessionId (some node) .timeout)
    return .error MediaServerError.nodeTimeout.rpcError

def whipConnect (p : WhipConnectReq) : Handler (Except RpcError (ClusterConnId × String)) :=
  env.connect .webrtc (env.getLocation p.ip) p.app p.sessionId p.ip (whipRequest p)
    (env.finishConnSdp p.app p.sessionId)

def whepConnect (p : WhepConnectReq) : Handler (Except RpcError (ClusterConnId × String)) :=
  env.connect .webrtc (env.getLocation p.ip) p.app p.sessionId p.ip (whepRequest p)
    (env.finishConnSdp p.app p.sessionId)

def webrtcConnect (p : WebrtcConnectReq) :
    Handler (Except RpcError (ClusterConnId × ConnectResponse)) :=
  env.connect .webrtc (env.getLocation p.ip) p.app p.sessionId p.ip (webrtcRequest p)
    (env.finishWebrtc p.app p.sessionId)

/-- The address of the client is not known here. -/
def localhost : IpAddr := "127.0.0.1"

def rtpengineCreateOffer (p : RtpCreateOfferRequest) :
    Handler (Except RpcError (ClusterConnId × String)) :=
  env.connect .rtpEngine none p.app p.sessionId localhost (rtpOfferRequest p)
    (env.finishConnSdp p.app p.sessionId)

def rtpengineCreateAnswer (p : RtpCreateAnswerRequest) :
    Handler (Except RpcError (ClusterConnId × String)) :=
  env.connect .rtpEngine none p.app p.sessionId localhost (rtpAnswerRequest p)
    (env.finishConnSdp p.app p.sessionId)

/-- A request for a known session: the node of its connection id is called. -/
def forward {α : Type} (connPart : Option (NodeId × UInt64)) (req : EdgeReq)
    (finish : req.Res → α) : Handler (Except RpcError α) := do
  match connPart with
  | some (node, _) =>
    match ← env.call node req with
    | some res => return .ok (finish res)
    | none => return .error MediaServerError.gatewayRpcError.rpcError
  | none => return .error MediaServerError.invalidConnId.rpcError

def whipRemoteIce (connPart : Option (NodeId × UInt64)) (conn : ClusterConnId) (ice : String) :
    Handler (Except RpcError Unit) :=
  env.forward connPart (.whipRemoteIce (env.showConn conn) ice) fun _ => ()

def whipDelete (connPart : Option (NodeId × UInt64)) (conn : ClusterConnId) :
    Handler (Except RpcError Unit) :=
  env.forward connPart (.whipClose (env.showConn conn)) fun _ => ()

def whepRemoteIce (connPart : Option (NodeId × UInt64)) (conn : ClusterConnId) (ice : String) :
    Handler (Except RpcError Unit) :=
  env.forward connPart (.whepRemoteIce (env.showConn conn) ice) fun _ => ()

def whepDelete (connPart : Option (NodeId × UInt64)) (conn : ClusterConnId) :
    Handler (Except RpcError Unit) :=
  env.forward connPart (.whepClose (env.showConn conn)) fun _ => ()

def webrtcRemoteIce (connPart : Option (NodeId × UInt64)) (conn : ClusterConnId)
    (candidates : List String) : Handler (Except RpcError UInt32) :=
  env.forward connPart (.webrtcRemoteIce (env.showConn conn) candidates) id

def rtpengineSetAnswer (connPart : Option (NodeId × UInt64)) (conn : ClusterConnId)
    (sdp : String) : Handler (Except RpcError ClusterConnId) :=
  env.forward connPart (.rtpEngineSetAnswer (env.showConn conn) sdp) fun _ => conn

def rtpengineDelete (connPart : Option (NodeId × UInt64)) (conn : ClusterConnId) :
    Handler (Except RpcError ClusterConnId) :=
  env.forward connPart (.rtpEngineDelete (env.showConn conn)) fun _ => conn

/-- The end of `webrtc_restart_ice`. -/
def finishRestart (res : Option (Option ConnectResponse)) :
    Handler (Except RpcError (ClusterConnId × ConnectResponse)) :=
  match res with
  | some (some res) => do
    let conn ← env.unwrapConn res.connId
    return .ok (conn, res)
  | some none => return .error MediaServerError.mediaResError.rpcError
  | none => return .error MediaServerError.gatewayRpcError.rpcError

/-- The node of the session, or a gateway to it; another node if it is gone. -/
def restartDest (node : NodeId) (ip : IpAddr) : Option NodeId :=
  match env.destFor .webrtc node with
  | some dest => some dest
  | none => env.select .webrtc (env.getLocation ip)

def webrtcRestartIce (connPart : Option (NodeId × UInt64)) (conn : ClusterConnId)
    (p : WebrtcRestartIceReq) : Handler (Except RpcError (ClusterConnId × ConnectResponse)) := do
  match connPart with
  | none => return .error MediaServerError.invalidConnId.rpcError
  | some (node, _) =>
    match env.restartDest node p.ip with
    | none => return .error MediaServerError.nodePoolEmpty.rpcError
    | some dest =>
      let res ← env.call dest (restartRequest (env.showConn conn) p)
      env.finishRestart res

/-- The last branch answers a deletion with the response of a restart. -/
def processReq (connPart : Option (NodeId × UInt64)) :
    RpcReq ClusterConnId → Handler (RpcRes ClusterConnId)
  | .whip (.connect p) => return .whip (.connect (← env.whipConnect p))
  | .whip (.remoteIce conn ice) =>
    return .whip (.remoteIce (← env.whipRemoteIce connPart conn ice))
  | .whip (.delete conn) => return .whip (.delete (← env.whipDelete connPart conn))
  | .whep (.connect p) => return .whep (.connect (← env.whepConnect p))
  | .whep (.remoteIce conn ice) =>
    return .whep (.remoteIce (← env.whepRemoteIce connPart conn ice))
  | .whep (.delete conn) => return .whep (.delete (← env.whepDelete connPart conn))
  | .webrtc (.connect p) => return .webrtc (.connect (← env.webrtcConnect p))
  | .webrtc (.remoteIce conn candidates) =>
    return .webrtc (.remoteIce (← env.webrtcRemoteIce connPart conn candidates))
  | .webrtc (.restartIce conn p) =>
    return .webrtc (.restartIce (← env.webrtcRestartIce connPart conn p))
  | .rtpEngine (.createOffer p) =>
    return .rtpEngine (.createOffer (← env.rtpengineCreateOffer p))
  | .rtpEngine (.setAnswer conn sdp) =>
    return .rtpEngine (.setAnswer (← env.rtpengineSetAnswer connPart conn sdp))
  | .rtpEngine (.createAnswer p) =>
    return .rtpEngine (.createAnswer (← env.rtpengineCreateAnswer p))
  | .rtpEngine (.delete conn) =>
    return .rtpEngine (.delete (← env.rtpengineDelete connPart conn))
  | .webrtc (.delete _) =>
    return .webrtc (.restartIce (.error MediaServerError.notImplemented.rpcError))

/-! ### Requests of other gateways -/

/-- A new session: the node is selected and called. -/
def remoteConnect (kind : ServiceKind) (location : Option Location) (app : Option AppContext)
    (sessionId : UInt64) (ip : String) (req : EdgeReq) : Handler (Option req.Res) := do
  let app := app.getD rootApp
  emit (.routeBegin app.app sessionId ip)
  match env.select kind location with
  | some node =>
    match ← env.call node req with
    | some res =>
      emit (.routeSuccess app.app sessionId node)
      return some res
    | none =>
      emit (.routeError app.app sessionId (some node) .timeout)
      return none
  | none =>
    emit (.routeError app.app sessionId none .poolEmpty)
    return none

/-- The location of an address given as a text. -/
def locate (ip : String) : Option Location := (env.parseIp ip).bind env.getLocation

/-- A request for a known session: the node of its connection id is called. -/
def remoteForward (conn : String) (req : EdgeReq) : Handler (Option req.Res) :=
  match env.parseConn conn with
  | some conn => env.call conn.node req
  | none => return none

/-- `MediaRemoteRpcHandlerImpl`.  The methods of the RTP engine ask for a webrtc node. -/
def handleRemote (req : EdgeReq) : Handler (Option req.Res) :=
  match req with
  | .whipConnect app sessionId ip .. =>
    env.remoteConnect .webrtc (env.locate ip) app sessionId ip _
  | .whipRemoteIce conn _ => env.remoteForward conn _
  | .whipClose conn => env.remoteForward conn _
  | .whepConnect app sessionId ip .. =>
    env.remoteConnect .webrtc (env.locate ip) app sessionId ip _
  | .whepRemoteIce conn _ => env.remoteForward conn _
  | .whepClose conn => env.remoteForward conn _
  | .webrtcConnect app sessionId ip .. =>
    env.remoteConnect .webrtc (env.locate ip) app sessionId ip _
  | .webrtcRemoteIce conn _ => env.remoteForward conn _
  | .webrtcRestartIce _ conn .. => env.remoteForward conn _
  | .rtpEngineCreateOffer app sessionId .. =>
    env.remoteConnect .webrtc none app sessionId localhost _
  | .rtpEngineSetAnswer conn _ => env.remoteForward conn _
  | .rtpEngineCreateAnswer app sessionId .. =>
    env.remoteConnect .webrtc none app sessionId localhost _
  | .rtpEngineDelete conn => env.remoteForward conn _

end Env

end MediaServer.Gateway
