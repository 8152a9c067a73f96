import MediaServer.Gateway.Handlers

/-!
# Where requests go and how they are answered

`Calls` says which nodes a handler calls, whatever it was told before, and has one rule for
each way handlers are put together.  With it every handler is read once: a request for a
new session calls the node that the store of its kind selects, any other request the node
that its connection id names.

Two places differ.  A deletion of a WebRTC session is answered with the response of a
restart, and a request for an RTP engine that comes from another gateway is sent to a
webrtc node.  `dispatch_iff` says that everything else is right.
-/

namespace MediaServer.Gateway

open Rpc

/-! ### The calls of a handler -/

/-- The calls that were made. -/
def sent (log : List Effect) : List (NodeId × EdgeReq) :=
  log.filterMap fun
    | .call node req => some (node, req)
    | _ => none

theorem map_fst_sent (log : List Effect) : (sent log).map Prod.fst = calls log := by
  rw [sent, calls, List.map_filterMap]
  refine congrFun (congrArg List.filterMap ?_) log
  funext effect
  cases effect <;> rfl

/-- One request for at most one node. -/
def once (dest : Option NodeId) (req : EdgeReq) : List (NodeId × EdgeReq) :=
  dest.toList.map fun node => (node, req)

@[simp] theorem map_fst_once (dest : Option NodeId) (req : EdgeReq) :
    (once dest req).map Prod.fst = dest.toList := by
  cases dest <;> rfl

/-- The calls that a handler makes, in this order, whatever it did before; it may only
    panic if `broken`. -/
def Calls {α : Type} (broken : Prop) (handler : Handler α) (made : List (NodeId × EdgeReq)) :
    Prop :=
  ∀ log, sent (exec handler log).2 = sent log ++ made ∧
    ∀ e, (exec handler log).1 = .error e → broken

namespace Calls

variable {α β : Type} {broken : Prop}

theorem pure (a : α) : Calls broken (Pure.pure a) [] := by
  intro log
  refine ⟨(List.append_nil _).symm, ?_⟩
  intro e he
  cases he

theorem throw (h : broken) (e : Panic) : Calls broken (MonadExcept.throw e : Handler α) [] := by
  intro log
  exact ⟨(List.append_nil _).symm, fun _ _ => h⟩

/-- The value of a handler is only wrapped up. -/
theorem exec_map (handler : Handler α) (f : α → β) (log : List Effect) :
    exec (handler >>= fun a => Pure.pure (f a)) log =
      ((exec handler log).1.map f, (exec handler log).2) := by
  simp only [exec, ExceptT.run_bind, StateT.run_bind]
  generalize handler.run.run log = final
  obtain ⟨res, log'⟩ := final
  cases res with
  | error e => rfl
  | ok a => rfl

theorem map {handler : Handler α} {made : List (NodeId × EdgeReq)}
    (h : Calls broken handler made) (f : α → β) :
    Calls broken (handler >>= fun a => Pure.pure (f a)) made := by
  intro log
  rw [exec_map]
  refine ⟨(h log).1, ?_⟩
  intro e he
  refine (h log).2 e ?_
  cases hres : (exec handler log).1 with
  | error e' =>
    rw [hres] at he
    cases he
    rfl
  | ok a =>
    rw [hres] at he
    cases he

/-- Telling the connector calls nobody. -/
theorem tell {effect : Effect} {handler : Handler α} {made : List (NodeId × EdgeReq)}
    (heffect : ∀ node req, effect ≠ .call node req) (h : Calls broken handler made) :
    Calls broken (emit effect >>= fun _ => handler) made := by
  intro log
  have hlog : sent (log ++ [effect]) = sent log := by
    cases effect with
    | call node req => exact absurd rfl (heffect node req)
    | _ => simp [sent]
  have hhandler := h (log ++ [effect])
  rw [hlog] at hhandler
  exact hhandler

end Calls

/-- The connection id in a response. -/
def EdgeReq.resConn : (req : EdgeReq) → req.Res → Option String
  | .whipConnect .., res => some (ConnSdp.conn res)
  | .whepConnect .., res => some (ConnSdp.conn res)
  | .rtpEngineCreateOffer .., res => some (ConnSdp.conn res)
  | .rtpEngineCreateAnswer .., res => some (ConnSdp.conn res)
  | .webrtcConnect .., res => (show Option ConnectResponse from res).map ConnectResponse.connId
  | .webrtcRestartIce .., res => (show Option ConnectResponse from res).map ConnectResponse.connId
  | _, _ => none

/-- A request for a new session with an RTP engine. -/
def EdgeReq.createsRtp : EdgeReq → Bool
  | .rtpEngineCreateOffer .. => true
  | .rtpEngineCreateAnswer .. => true
  | _ => false

namespace Env

variable {Location D : Type} [LinearOrder D] (env : Env Location D)

/-- A node answered with a connection id that cannot be read. -/
def Garbled : Prop :=
  ∃ node req res text, env.client node req = some res ∧ req.resConn res = some text ∧
    env.parseConn text = none

variable {broken : Prop}

omit [LinearOrder D] in
/-- What is done after a call is done with the answer of the node. -/
theorem calls_call {α : Type} (node : NodeId) (req : EdgeReq) {next : Option req.Res → Handler α}
    (h : Calls broken (next (env.client node req)) []) :
    Calls broken (env.call node req >>= next) [(node, req)] := by
  intro log
  have hlog : sent (log ++ [Effect.call node req]) = sent log ++ [(node, req)] := by simp [sent]
  have hnext := h (log ++ [Effect.call node req])
  rw [List.append_nil, hlog] at hnext
  exact hnext

omit [LinearOrder D] in
theorem calls_unwrapConn {text : String} (h : env.parseConn text = none → env.Garbled) :
    Calls env.Garbled (env.unwrapConn text) [] := by
  rw [unwrapConn]
  cases hparse : env.parseConn text with
  | none => exact Calls.throw (h hparse) _
  | some conn => exact Calls.pure conn

omit [LinearOrder D] in
theorem calls_finishConnSdp (app : AppContext) (sessionId : UInt64) (node : NodeId)
    {res : Option ConnSdp}
    (h : ∀ r, res = some r → env.parseConn r.conn = none → env.Garbled) :
    Calls env.Garbled (env.finishConnSdp app sessionId node res) [] := by
  cases res with
  | none => exact (Calls.pure _).tell (by simp)
  | some res => exact ((env.calls_unwrapConn (h res rfl)).map _).tell (by simp)

omit [LinearOrder D] in
/-- The one end that reads the connection id without unwrapping it. -/
theorem calls_finishWebrtc (app : AppContext) (sessionId : UInt64) (node : NodeId)
    (res : Option (Option ConnectResponse)) :
    Calls broken (env.finishWebrtc app sessionId node res) [] := by
  match res with
  | none => exact (Calls.pure _).tell (by simp)
  | some none => exact (Calls.pure _).tell (by simp)
  | some (some res) =>
    rw [finishWebrtc]
    cases env.parseConn res.connId with
    | none => exact (Calls.pure _).tell (by simp)
    | some conn => exact (Calls.pure _).tell (by simp)

omit [LinearOrder D] in
theorem calls_finishRestart {res : Option (Option ConnectResponse)}
    (h : ∀ r, res = some (some r) → env.parseConn r.connId = none → env.Garbled) :
    Calls env.Garbled (env.finishRestart res) [] := by
  match res with
  | none => exact Calls.pure _
  | some none => exact Calls.pure _
  | some (some res) => exact (env.calls_unwrapConn (h res rfl)).map _

/-- **New sessions.** The node that the store selects is called, and no other. -/
theorem calls_connect {α : Type} (kind : ServiceKind) (location : Option Location)
    (app : AppContext) (sessionId : UInt64) (ip : IpAddr) (req : EdgeReq)
    {finish : NodeId → Option req.Res → Handler (Except RpcError α)}
    (hfinish : ∀ node, Calls broken (finish node (env.client node req)) []) :
    Calls broken (env.connect kind location app sessionId ip req finish)
      (once (env.select kind location) req) := by
  refine Calls.tell (by simp) ?_
  cases env.select kind location with
  | none => exact (Calls.pure _).tell (by simp)
  | some node => exact env.calls_call node req (hfinish node)

omit [LinearOrder D] in
/-- **Known sessions.** The node of the connection id is called, and no other. -/
theorem calls_forward {α : Type} (connPart : Option (NodeId × UInt64)) (req : EdgeReq)
    (finish : req.Res → α) :
    Calls broken (env.forward connPart req finish) (once (connPart.map Prod.fst) req) := by
  cases connPart with
  | none => exact Calls.pure _
  | some part =>
    refine env.calls_call part.1 req ?_
    cases env.client part.1 req with
    | none => exact Calls.pure _
    | some res => exact Calls.pure _

/-- **Restarts.** The node of the session is called, or another if it is gone. -/
theorem calls_webrtcRestartIce (connPart : Option (NodeId × UInt64)) (conn : ClusterConnId)
    (p : WebrtcRestartIceReq) :
    Calls env.Garbled (env.webrtcRestartIce connPart conn p)
      (once (connPart.bind fun part => env.restartDest part.1 p.ip)
        (restartRequest (env.showConn conn) p)) := by
  cases connPart with
  | none => exact Calls.pure _
  | some part =>
    rw [webrtcRestartIce, Option.bind_some]
    cases env.restartDest part.1 p.ip with
    | none => exact Calls.pure _
    | some dest =>
      refine env.calls_call dest _ (env.calls_finishRestart ?_)
      intro r hres hparse
      exact ⟨dest, restartRequest (env.showConn conn) p, some r, r.connId, hres, rfl, hparse⟩

theorem calls_remoteConnect (kind : ServiceKind) (location : Option Location)
    (app : Option AppContext) (sessionId : UInt64) (ip : String) (req : EdgeReq) :
    Calls broken (env.remoteConnect kind location app sessionId ip req)
      (once (env.select kind location) req) := by
  refine Calls.tell (by simp) ?_
  cases env.select kind location with
  | none => exact (Calls.pure _).tell (by simp)
  | some node =>
    refine env.calls_call node req ?_
    cases env.client node req with
    | none => exact (Calls.pure _).tell (by simp)
    | some res => exact (Calls.pure _).tell (by simp)

omit [LinearOrder D] in
theorem calls_remoteForward (conn : String) (req : EdgeReq) :
    Calls broken (env.remoteForward conn req)
      (once ((env.parseConn conn).map ClusterConnId.node) req) := by
  rw [remoteForward]
  cases env.parseConn conn with
  | none => exact Calls.pure _
  | some conn => exact env.calls_call conn.node req (Calls.pure _)

/-! ### What a handler is to do -/

/-- The node that a request of the HTTP server is for: for a new session the one that the
    store of the request's kind selects. -/
def chosen (connPart : Option (NodeId × UInt64)) : RpcReq ClusterConnId → Option NodeId
  | .whip (.connect p) => env.select .webrtc (env.getLocation p.ip)
  | .whep (.connect p) => env.select .webrtc (env.getLocation p.ip)
  | .webrtc (.connect p) => env.select .webrtc (env.getLocation p.ip)
  | .webrtc (.restartIce _ p) => connPart.bind fun part => env.restartDest part.1 p.ip
  | .rtpEngine (.createOffer _) => env.select .rtpEngine none
  | .rtpEngine (.createAnswer _) => env.select .rtpEngine none
  | _ => connPart.map Prod.fst

/-- The node that a request of another gateway is for. -/
def remoteChosen : EdgeReq → Option NodeId
  | .whipConnect _ _ ip .. => env.select .webrtc (env.locate ip)
  | .whepConnect _ _ ip .. => env.select .webrtc (env.locate ip)
  | .webrtcConnect _ _ ip .. => env.select .webrtc (env.locate ip)
  | .rtpEngineCreateOffer .. => env.select .rtpEngine none
  | .rtpEngineCreateAnswer .. => env.select .rtpEngine none
  | .whipRemoteIce conn _ => (env.parseConn conn).map ClusterConnId.node
  | .whipClose conn => (env.parseConn conn).map ClusterConnId.node
  | .whepRemoteIce conn _ => (env.parseConn conn).map ClusterConnId.node
  | .whepClose conn => (env.parseConn conn).map ClusterConnId.node
  | .webrtcRemoteIce conn _ => (env.parseConn conn).map ClusterConnId.node
  | .webrtcRestartIce _ conn .. => (env.parseConn conn).map ClusterConnId.node
  | .rtpEngineSetAnswer conn _ => (env.parseConn conn).map ClusterConnId.node
  | .rtpEngineDelete conn => (env.parseConn conn).map ClusterConnId.node

/-- A request of the HTTP server calls no node but the one that it is for, and is answered
    by a response of its own kind. -/
def LocalRight (connPart : Option (NodeId × UInt64)) (req : RpcReq ClusterConnId) : Prop :=
  (∀ node ∈ calls (exec (env.processReq connPart req) []).2,
    env.chosen connPart req = some node) ∧
  match (exec (env.processReq connPart req) []).1 with
  | .ok res => res.kind = req.kind
  | .error _ => env.Garbled

/-- A request of another gateway calls no node but the one that it is for, and does not
    panic.  The response is of the type of the request. -/
def RemoteRight (req : EdgeReq) : Prop :=
  (∀ node ∈ calls (exec (env.handleRemote req) []).2, env.remoteChosen req = some node) ∧
  ∃ res, (exec (env.handleRemote req) []).1 = .ok res

variable {env}

/-- The handler of a request calls the node that the request is for, and its value is
    wrapped up in a response of the same kind. -/
theorem LocalRight.of_calls {α : Type} {connPart : Option (NodeId × UInt64)}
    {req : RpcReq ClusterConnId} {edge : EdgeReq} {handler : Handler α}
    {wrap : α → RpcRes ClusterConnId}
    (h : Calls env.Garbled handler (once (env.chosen connPart req) edge))
    (hreq : env.processReq connPart req = handler >>= fun a => Pure.pure (wrap a))
    (hkind : ∀ a, (wrap a).kind = req.kind) : env.LocalRight connPart req := by
  obtain ⟨hsent, hpanic⟩ := h []
  rw [LocalRight, hreq, Calls.exec_map]
  constructor
  · intro node hnode
    rw [← map_fst_sent, hsent] at hnode
    change node ∈ (once (env.chosen connPart req) edge).map Prod.fst at hnode
    rwa [map_fst_once, Option.mem_toList] at hnode
  · cases hres : (exec handler []).1 with
    | error e => exact hpanic e hres
    | ok a => exact hkind a

/-- The nodes that are called decide whether a request of another gateway is right. -/
theorem remoteRight_iff {req : EdgeReq} {dest : Option NodeId}
    (h : Calls False (env.handleRemote req) (once dest req)) :
    env.RemoteRight req ↔ ∀ node, dest = some node → env.remoteChosen req = some node := by
  obtain ⟨hsent, hpanic⟩ := h []
  have hcalls : calls (exec (env.handleRemote req) []).2 = dest.toList := by
    rw [← map_fst_sent, hsent]
    exact map_fst_once dest req
  have hok : ∃ res, (exec (env.handleRemote req) []).1 = .ok res := by
    cases hres : (exec (env.handleRemote req) []).1 with
    | error e => exact (hpanic e hres).elim
    | ok res => exact ⟨res, rfl⟩
  rw [RemoteRight, hcalls]
  simp only [hok, and_true, Option.mem_toList]

/-- A handler that calls the node that the request is for. -/
theorem RemoteRight.of_calls {req : EdgeReq}
    (h : Calls False (env.handleRemote req) (once (env.remoteChosen req) req)) :
    env.RemoteRight req :=
  (remoteRight_iff h).2 fun _ hnode => hnode

variable (env)

theorem calls_whipConnect (p : WhipConnectReq) :
    Calls env.Garbled (env.whipConnect p)
      (once (env.select .webrtc (env.getLocation p.ip)) (whipRequest p)) := by
  refine env.calls_connect _ _ _ _ _ _ ?_
  intro node
  refine env.calls_finishConnSdp _ _ node ?_
  intro res hres hparse
  exact ⟨node, whipRequest p, res, res.conn, hres, rfl, hparse⟩

theorem calls_whepConnect (p : WhepConnectReq) :
    Calls env.Garbled (env.whepConnect p)
      (once (env.select .webrtc (env.getLocation p.ip)) (whepRequest p)) := by
  refine env.calls_connect _ _ _ _ _ _ ?_
  intro node
  refine env.calls_finishConnSdp _ _ node ?_
  intro res hres hparse
  exact ⟨node, whepRequest p, res, res.conn, hres, rfl, hparse⟩

theorem calls_rtpengineCreateOffer (p : RtpCreateOfferRequest) :
    Calls env.Garbled (env.rtpengineCreateOffer p)
      (once (env.select .rtpEngine none) (rtpOfferRequest p)) := by
  refine env.calls_connect _ _ _ _ _ _ ?_
  intro node
  refine env.calls_finishConnSdp _ _ node ?_
  intro res hres hparse
  exact ⟨node, rtpOfferRequest p, res, res.conn, hres, rfl, hparse⟩

theorem calls_rtpengineCreateAnswer (p : RtpCreateAnswerRequest) :
    Calls env.Garbled (env.rtpengineCreateAnswer p)
      (once (env.select .rtpEngine none) (rtpAnswerRequest p)) := by
  refine env.calls_connect _ _ _ _ _ _ ?_
  intro node
  refine env.calls_finishConnSdp _ _ node ?_
  intro res hres hparse
  exact ⟨node, rtpAnswerRequest p, res, res.conn, hres, rfl, hparse⟩

theorem calls_webrtcConnect (p : WebrtcConnectReq) :
    Calls broken (env.webrtcConnect p)
      (once (env.select .webrtc (env.getLocation p.ip)) (webrtcRequest p)) := by
  refine env.calls_connect _ _ _ _ _ _ ?_
  intro node
  exact env.calls_finishWebrtc _ _ node _

/-- **The HTTP server.** Every request but the deletion of a WebRTC session is right. -/
theorem localRight_iff (connPart : Option (NodeId × UInt64)) (req : RpcReq ClusterConnId) :
    env.LocalRight connPart req ↔ req.kind ≠ .webrtcDelete := by
  constructor
  · intro hright hkind
    obtain ⟨conn, rfl⟩ := RpcReq.eq_webrtcDelete hkind
    have hres : RpcKind.webrtcRestartIce = .webrtcDelete := hright.2
    exact absurd hres (by decide)
  · intro hkind
    match req with
    | .whip (.connect p) => exact .of_calls (env.calls_whipConnect p) rfl fun _ => rfl
    | .whip (.remoteIce conn ice) =>
      exact .of_calls (env.calls_forward connPart _ _) rfl fun _ => rfl
    | .whip (.delete conn) => exact .of_calls (env.calls_forward connPart _ _) rfl fun _ => rfl
    | .whep (.connect p) => exact .of_calls (env.calls_whepConnect p) rfl fun _ => rfl
    | .whep (.remoteIce conn ice) =>
      exact .of_calls (env.calls_forward connPart _ _) rfl fun _ => rfl
    | .whep (.delete conn) => exact .of_calls (env.calls_forward connPart _ _) rfl fun _ => rfl
    | .webrtc (.connect p) => exact .of_calls (env.calls_webrtcConnect p) rfl fun _ => rfl
    | .webrtc (.remoteIce conn candidates) =>
      exact .of_calls (env.calls_forward connPart _ _) rfl fun _ => rfl
    | .webrtc (.restartIce conn p) =>
      exact .of_calls (env.calls_webrtcRestartIce connPart conn p) rfl fun _ => rfl
    | .webrtc (.delete conn) => exact absurd rfl hkind
    | .rtpEngine (.createOffer p) =>
      exact .of_calls (env.calls_rtpengineCreateOffer p) rfl fun _ => rfl
    | .rtpEngine (.createAnswer p) =>
      exact .of_calls (env.calls_rtpengineCreateAnswer p) rfl fun _ => rfl
    | .rtpEngine (.setAnswer conn sdp) =>
      exact .of_calls (env.calls_forward connPart _ _) rfl fun _ => rfl
    | .rtpEngine (.delete conn) => exact .of_calls (env.calls_forward connPart _ _) rfl fun _ => rfl

/-- **Other gateways.** A request for a new RTP session is right if the node that the
    webrtc store selects is the one that it is for. -/
theorem remoteRight_of_kind (req : EdgeReq) :
    env.RemoteRight req ↔ (req.createsRtp = true →
      ∀ node, env.select .webrtc none = some node → env.select .rtpEngine none = some node) := by
  have hrtp : ∀ P Q : Prop, (P ↔ Q) → (P ↔ (true = true → Q)) := by
    intro P Q h
    rw [h]
    exact ⟨fun hq _ => hq, fun hq => hq rfl⟩
  have hother : ∀ P Q : Prop, P → (P ↔ (false = true → Q)) := by
    intro P Q h
    exact ⟨fun _ hf => Bool.noConfusion hf, fun _ => h⟩
  cases req with
  | rtpEngineCreateOffer app sessionId =>
    exact hrtp _ _ (remoteRight_iff (env.calls_remoteConnect _ _ app sessionId _ _))
  | rtpEngineCreateAnswer app sessionId =>
    exact hrtp _ _ (remoteRight_iff (env.calls_remoteConnect _ _ app sessionId _ _))
  | whipConnect app sessionId ip =>
    exact hother _ _ (.of_calls (env.calls_remoteConnect _ _ app sessionId ip _))
  | whepConnect app sessionId ip =>
    exact hother _ _ (.of_calls (env.calls_remoteConnect _ _ app sessionId ip _))
  | webrtcConnect app sessionId ip =>
    exact hother _ _ (.of_calls (env.calls_remoteConnect _ _ app sessionId ip _))
  | whipRemoteIce conn => exact hother _ _ (.of_calls (env.calls_remoteForward conn _))
  | whipClose conn => exact hother _ _ (.of_calls (env.calls_remoteForward conn _))
  | whepRemoteIce conn => exact hother _ _ (.of_calls (env.calls_remoteForward conn _))
  | whepClose conn => exact hother _ _ (.of_calls (env.calls_remoteForward conn _))
  | webrtcRemoteIce conn => exact hother _ _ (.of_calls (env.calls_remoteForward conn _))
  | webrtcRestartIce app conn => exact hother _ _ (.of_calls (env.calls_remoteForward conn _))
  | rtpEngineSetAnswer conn => exact hother _ _ (.of_calls (env.calls_remoteForward conn _))
  | rtpEngineDelete conn => exact hother _ _ (.of_calls (env.calls_remoteForward conn _))

/-- **Service kinds and response kinds.** -/
theorem dispatch_iff :
    (∀ connPart req, env.LocalRight connPart req ↔ req.kind ≠ .webrtcDelete) ∧
    ∀ req, env.RemoteRight req ↔ (req.createsRtp = true →
      ∀ node, env.select .webrtc none = some node → env.select .rtpEngine none = some node) :=
  ⟨env.localRight_iff, env.remoteRight_of_kind⟩

end Env

/-- A gateway of a zone where node 1 offers webrtc and node 2 an RTP engine, and whose
    calls time out. -/
def twoServices : Env Unit Nat where
  store := { GatewayStore.new 0 () ⟨90, 90, 90⟩ with
    webrtc := ⟨0, .webrtc, (), [⟨1, 0, ⟨0, 10, true⟩, 0⟩], []⟩
    rtpengine := ⟨0, .rtpEngine, (), [⟨2, 0, ⟨0, 10, true⟩, 0⟩], []⟩ }
  distance _ _ := 0
  getLocation _ := none
  parseIp := some
  parseConn _ := some ⟨1, 0, ⟨0, 0⟩⟩
  showConn _ := ""
  client _ _ := none

/-- A deletion is answered as a restart, and an offer for the RTP engine of node 2 is asked
    of node 1. -/
theorem twoServices_wrong :
    ¬ twoServices.LocalRight (some (1, 0)) (.webrtc (.delete ⟨1, 0, ⟨0, 0⟩⟩)) ∧
    ¬ twoServices.RemoteRight (.rtpEngineCreateOffer none 7 "room" "peer" false none) := by
  constructor
  · intro hright
    exact (twoServices.localRight_iff _ _).mp hright rfl
  · intro hright
    have hsame := (twoServices.remoteRight_of_kind _).mp hright rfl 1 rfl
    exact absurd hsame (by decide)

end MediaServer.Gateway
