import MediaServer.Lib.TaskGroup
import MediaServer.Rpc

/-!
# A worker of a media node

The way of a request through `MediaServerWorker::process_rpc` of `media_runner/src/worker.rs`
and the groups of sessions in `transport_webrtc/src/worker.rs` and
`transport_rtpengine/src/worker.rs`, and the way of its answer back.

A request for a new session makes a task in one of the two groups; its index there is the
connection id.  Any other request is handed to the task that its id names, which puts the
answer into its queue.  If there is no such task, the group of WebRTC sessions answers in its
place, and the group of RTP sessions does nothing.

What `str0m`, the SDP parsers and the sockets make of a request is a parameter, and so is
the state of a session: here it only has to keep what it was told and to answer.  The outputs
of a session that are no answers are left out.
-/

namespace MediaServer.Server

open Rpc Runtime Proto Transport

/-! ### Sessions -/

inductive Variant where
  | whip
  | whep
  | webrtc
deriving Repr

/-- `VariantParams`; the key of the tokens is left out. -/
inductive VariantParams where
  | whip (room : RoomId) (peer : PeerId) (extraData : Option String) (record : Bool)
  | whep (room : RoomId) (peer : PeerId) (extraData : Option String)
  | webrtc (userAgent : String) (req : WebrtcOffer) (extraData : Option String) (record : Bool)
deriving Repr

/-- `transport_webrtc::ExtIn`. -/
inductive WebrtcIn where
  | remoteIce (reqId : Nat) (variant : Variant) (ices : List String)
  | restartIce (reqId : Nat) (variant : Variant) (req : WebrtcRestartIceReq)
  | disconnect (reqId : Nat) (variant : Variant)

/-- `transport_webrtc::ExtOut`. -/
inductive WebrtcOut where
  | remoteIce (reqId : Nat) (variant : Variant) (res : Except RpcError UInt32)
  | restartIce (reqId : Nat) (variant : Variant) (res : Except RpcError (Bool × String))
  | disconnect (reqId : Nat) (variant : Variant) (res : Except RpcError Unit)

/-- `transport_rtpengine::ExtIn`. -/
inductive RtpIn where
  | setAnswer (reqId : Nat) (sdp : String)
  | disconnect (reqId : Nat)

/-- `transport_rtpengine::ExtOut`. -/
inductive RtpOut where
  | setAnswer (reqId : Nat) (res : Except RpcError Unit)
  | disconnect (reqId : Nat)

/-- An endpoint with its transport: its state and the answers that it has not handed out. -/
structure Session (State Out : Type) where
  sessionId : UInt64
  state : State
  queue : List Out

/-- What the media stacks do. -/
structure Media (Rtc Rtp : Type) where
  iceLite : Bool
  newRtc : AppContext → IpAddr → VariantParams → String → Except RpcError (Rtc × String)
  addCandidate : Rtc → String → Option Rtc
  isOffer : String → Bool
  acceptOffer : Rtc → String → Rtc × Option String
  shutdownRtc : Rtc → Rtc
  newOffer : RoomId → PeerId → Except String (Rtp × String)
  newAnswer : RoomId → PeerId → String → Except String (Rtp × String)
  setAnswer : Rtp → String → Except RpcError Rtp
  disconnectRtp : Rtp → Rtp

variable {Rtc Rtp : Type} (media : Media Rtc Rtp)

namespace Session

def push {State Out : Type} (s : Session State Out) (state : State) (out : Out) :
    Session State Out :=
  { s with state := state, queue := s.queue ++ [out] }

/-- The candidates that can be read are added and counted. -/
def addCandidates : Rtc → UInt32 → List String → Rtc × UInt32
  | rtc, count, [] => (rtc, count)
  | rtc, count, ice :: rest =>
    match media.addCandidate rtc ice with
    | some rtc => addCandidates rtc (count + 1) rest
    | none => addCandidates rtc count rest

/-- `TransportWebrtc::on_input` of an `ExtIn`. -/
def onWebrtc (s : Session Rtc WebrtcOut) : WebrtcIn → Session Rtc WebrtcOut
  | .remoteIce reqId variant ices =>
    let (rtc, count) := addCandidates media s.state 0 ices
    s.push rtc (.remoteIce reqId variant (.ok count))
  | .restartIce reqId variant req =>
    if media.isOffer req.req.sdp then
      match media.acceptOffer s.state req.req.sdp with
      | (rtc, some answer) => s.push rtc (.restartIce reqId variant (.ok (media.iceLite, answer)))
      | (rtc, none) =>
        s.push rtc (.restartIce reqId variant (.error WebrtcError.internalServerError.rpcError))
    else s.push s.state (.restartIce reqId variant (.error WebrtcError.invalidSdp.rpcError))
  | .disconnect reqId variant =>
    s.push (media.shutdownRtc s.state) (.disconnect reqId variant (.ok ()))

/-- `TransportRtpEngine::on_input` of an `ExtIn`. -/
def onRtp (s : Session Rtp RtpOut) : RtpIn → Session Rtp RtpOut
  | .setAnswer reqId sdp =>
    match media.setAnswer s.state sdp with
    | .ok rtp => s.push rtp (.setAnswer reqId (.ok ()))
    | .error err => s.push s.state (.setAnswer reqId (.error err))
  | .disconnect reqId => s.push (media.disconnectRtp s.state) (.disconnect reqId)

end Session

/-! ### Groups of sessions -/

/-- `MediaWorkerWebrtc`. -/
structure WebrtcGroup (Rtc : Type) where
  endpoints : TaskGroup (Session Rtc WebrtcOut)
  queue : List (Nat × WebrtcOut)

/-- `MediaWorkerRtpEngine`; nothing is ever put into its own queue. -/
structure RtpGroup (Rtp : Type) where
  endpoints : TaskGroup (Session Rtp RtpOut)

/-- What chance and the groups of tasks decide. -/
structure Draw where
  hint : Nat
  sessionId : UInt64
  whepPeer : PeerId

namespace WebrtcGroup

def spawn (g : WebrtcGroup Rtc) (hint : Nat) (app : AppContext) (remote : IpAddr)
    (sessionId : UInt64) (variant : VariantParams) (offer : String) :
    Except RpcError (Bool × String × Nat) × WebrtcGroup Rtc :=
  match media.newRtc app remote variant offer with
  | .error err => (.error err, g)
  | .ok (rtc, sdp) =>
    (.ok (media.iceLite, sdp, g.endpoints.freeIndex hint),
      { g with endpoints := g.endpoints.addTask hint ⟨sessionId, rtc, []⟩ })

def push (g : WebrtcGroup Rtc) (owner : Nat) (out : WebrtcOut) : WebrtcGroup Rtc :=
  { g with queue := g.queue ++ [(owner, out)] }

/-- `on_event` of an `Ext`: without a task the group answers, a restart with a new session. -/
def onExt (g : WebrtcGroup Rtc) (draw : Draw) (owner : Nat) (ext : WebrtcIn) : WebrtcGroup Rtc :=
  match g.endpoints.get owner with
  | some session => { g with endpoints := g.endpoints.set owner (session.onWebrtc media ext) }
  | none =>
    match ext with
    | .remoteIce reqId variant _ =>
      g.push owner (.remoteIce reqId variant (.error WebrtcError.rpcEndpointNotFound.rpcError))
    | .restartIce reqId variant req =>
      match g.spawn media draw.hint req.app req.ip draw.sessionId
          (.webrtc req.userAgent req.req req.extraData req.record) req.req.sdp with
      | (.ok (iceLite, sdp, index), g) =>
        g.push index (.restartIce reqId variant (.ok (iceLite, sdp)))
      | (.error _, g) =>
        g.push owner (.restartIce reqId variant (.error WebrtcError.rpcEndpointNotFound.rpcError))
    | .disconnect reqId variant =>
      g.push owner (.disconnect reqId variant (.error WebrtcError.rpcEndpointNotFound.rpcError))

end WebrtcGroup

namespace RtpGroup

def spawn (g : RtpGroup Rtp) (hint : Nat) (room : RoomId) (peer : PeerId) (sessionId : UInt64)
    (offer : Option String) : Except RpcError (Nat × String) × RtpGroup Rtp :=
  let made := match offer with
    | some offer => media.newAnswer room peer offer
    | none => media.newOffer room peer
  match made with
  | .error err => (.error ⟨1000, err⟩, g)
  | .ok (rtp, sdp) =>
    (.ok (g.endpoints.freeIndex hint, sdp),
      { g with endpoints := g.endpoints.addTask hint ⟨sessionId, rtp, []⟩ })

/-- `on_event` of an `Ext`: without a task it is lost. -/
def onExt (g : RtpGroup Rtp) (owner : Nat) (ext : RtpIn) : RtpGroup Rtp :=
  match g.endpoints.get owner with
  | some session => { g with endpoints := g.endpoints.set owner (session.onRtp media ext) }
  | none => g

end RtpGroup

/-! ### The worker -/

structure Worker (Rtc Rtp : Type) where
  webrtc : WebrtcGroup Rtc
  rtpengine : RtpGroup Rtp
  queue : List (Nat × RpcRes Nat)

namespace Worker

def new : Worker Rtc Rtp := ⟨⟨∅, []⟩, ⟨∅⟩, []⟩

def answer (w : Worker Rtc Rtp) (reqId : Nat) (res : RpcRes Nat) : Worker Rtc Rtp :=
  { w with queue := w.queue ++ [(reqId, res)] }

def spawnWebrtc (w : Worker Rtc Rtp) (hint : Nat) (app : AppContext) (remote : IpAddr)
    (sessionId : UInt64) (variant : VariantParams) (offer : String) :
    Except RpcError (Bool × String × Nat) × Worker Rtc Rtp :=
  let (res, webrtc) := w.webrtc.spawn media hint app remote sessionId variant offer
  (res, { w with webrtc })

def spawnRtp (w : Worker Rtc Rtp) (hint : Nat) (room : RoomId) (peer : PeerId)
    (sessionId : UInt64) (offer : Option String) :
    Except RpcError (Nat × String) × Worker Rtc Rtp :=
  let (res, rtpengine) := w.rtpengine.spawn media hint room peer sessionId offer
  (res, { w with rtpengine })

def onWebrtc (w : Worker Rtc Rtp) (draw : Draw) (owner : Nat) (ext : WebrtcIn) : Worker Rtc Rtp :=
  { w with webrtc := w.webrtc.onExt media draw owner ext }

def onRtp (w : Worker Rtc Rtp) (owner : Nat) (ext : RtpIn) : Worker Rtc Rtp :=
  { w with rtpengine := w.rtpengine.onExt media owner ext }

def processRpc (w : Worker Rtc Rtp) (draw : Draw) (reqId : Nat) : RpcReq Nat → Worker Rtc Rtp
  | .whip (.connect req) =>
    let (res, w) := w.spawnWebrtc media draw.hint req.app req.ip req.sessionId
      (.whip req.room req.peer req.extraData req.record) req.sdp
    w.answer reqId (.whip (.connect (res.map fun r => (r.2.2, r.2.1))))
  | .whip (.remoteIce conn ice) => w.onWebrtc media draw conn (.remoteIce reqId .whip [ice])
  | .whip (.delete conn) => w.onWebrtc media draw conn (.disconnect reqId .whip)
  | .whep (.connect req) =>
    let (res, w) := w.spawnWebrtc media draw.hint req.app req.ip req.sessionId
      (.whep req.room draw.whepPeer req.extraData) req.sdp
    w.answer reqId (.whep (.connect (res.map fun r => (r.2.2, r.2.1))))
  | .whep (.remoteIce conn ice) => w.onWebrtc media draw conn (.remoteIce reqId .whep [ice])
  | .whep (.delete conn) => w.onWebrtc media draw conn (.disconnect reqId .whep)
  | .webrtc (.connect req) =>
    let (res, w) := w.spawnWebrtc media draw.hint req.app req.ip req.sessionId
      (.webrtc req.userAgent req.req req.extraData req.record) req.req.sdp
    w.answer reqId (.webrtc (.connect (res.map fun r => (r.2.2, ⟨"", r.2.1, r.1⟩))))
  | .webrtc (.remoteIce conn candidates) =>
    w.onWebrtc media draw conn (.remoteIce reqId .webrtc candidates)
  | .webrtc (.restartIce conn req) => w.onWebrtc media draw conn (.restartIce reqId .webrtc req)
  | .webrtc (.delete conn) => w.onWebrtc media draw conn (.disconnect reqId .webrtc)
  | .rtpEngine (.createOffer req) =>
    let (res, w) := w.spawnRtp media draw.hint req.room req.peer req.sessionId none
    w.answer reqId (.rtpEngine (.createOffer res))
  | .rtpEngine (.setAnswer conn sdp) => w.onRtp media conn (.setAnswer reqId sdp)
  | .rtpEngine (.createAnswer req) =>
    let (res, w) := w.spawnRtp media draw.hint req.room req.peer req.sessionId (some req.sdp)
    w.answer reqId (.rtpEngine (.createAnswer res))
  | .rtpEngine (.delete conn) => w.onRtp media conn (.disconnect reqId)

end Worker

/-! ### The way back -/

/-- `output_webrtc` of an `Ext`. -/
def outputWebrtc (index : Nat) : WebrtcOut → Nat × RpcRes Nat
  | .remoteIce reqId .whip res => (reqId, .whip (.remoteIce (res.map fun _ => ())))
  | .remoteIce reqId .whep res => (reqId, .whep (.remoteIce (res.map fun _ => ())))
  | .remoteIce reqId .webrtc res => (reqId, .webrtc (.remoteIce res))
  | .restartIce reqId _ res =>
    (reqId, .webrtc (.restartIce (res.map fun r => (index, ⟨"", r.2, r.1⟩))))
  | .disconnect reqId .whip res => (reqId, .whip (.delete res))
  | .disconnect reqId .whep res => (reqId, .whep (.delete res))
  | .disconnect reqId .webrtc res => (reqId, .webrtc (.delete res))

/-- `output_rtpengine` of an `Ext`. -/
def outputRtp (index : Nat) : RtpOut → Nat × RpcRes Nat
  | .setAnswer reqId res => (reqId, .rtpEngine (.setAnswer (res.map fun _ => index)))
  | .disconnect reqId => (reqId, .rtpEngine (.delete (.ok index)))

/-- The next answer of a session. -/
def Session.popOutput {State Out : Type} (s : Session State Out) :
    Option (Out × Session State Out) :=
  match s.queue with
  | [] => none
  | out :: rest => some (out, { s with queue := rest })

/-- The group's own answers first, then those of the session whose turn it is. -/
def WebrtcGroup.popOutput (g : WebrtcGroup Rtc) (turn : Nat) :
    Option ((Nat × WebrtcOut) × WebrtcGroup Rtc) :=
  match g.queue with
  | out :: rest => some (out, { g with queue := rest })
  | [] => do
    let session ← g.endpoints.get turn
    let (out, session) ← session.popOutput
    return ((turn, out), { g with endpoints := g.endpoints.set turn session })

def RtpGroup.popOutput (g : RtpGroup Rtp) (turn : Nat) :
    Option ((Nat × RtpOut) × RtpGroup Rtp) := do
  let session ← g.endpoints.get turn
  let (out, session) ← session.popOutput
  return ((turn, out), { g with endpoints := g.endpoints.set turn session })

/-- The two groups of sessions of a worker. -/
inductive Family where
  | webrtc
  | rtpengine
deriving DecidableEq, Repr

/-- The worker's own answers first, then those of the group whose turn it is. -/
def Worker.popOutput (w : Worker Rtc Rtp) (family : Family) (turn : Nat) :
    Option ((Nat × RpcRes Nat) × Worker Rtc Rtp) :=
  match w.queue with
  | out :: rest => some (out, { w with queue := rest })
  | [] =>
    match family with
    | .webrtc => do
      let ((index, out), webrtc) ← w.webrtc.popOutput turn
      return (outputWebrtc index out, { w with webrtc })
    | .rtpengine => do
      let ((index, out), rtpengine) ← w.rtpengine.popOutput turn
      return (outputRtp index out, { w with rtpengine })

end MediaServer.Server
