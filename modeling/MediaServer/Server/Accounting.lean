import Mathlib.Algebra.BigOperators.Group.List.Basic
import MediaServer.Lib.Execution
import MediaServer.Server.Node

/-!
# Every request is answered once

The number of a request is the place it has among all requests, and what is on its way at a
node are slips: the number of a request with the kind of its response.  A request in the inbox
of a worker is a slip, and so is an answer in any queue on the way back.

Slips are counted by weighing them.  Handling a request turns its slip into the same one
further on, with two exceptions.  The loop drops a request for a worker it does not have, and
the group of RTP sessions drops one for a session it does not have.  In a run without these two
the slips on the way are those of the requests in the table, so that a drained node has
answered every request.
-/

namespace MediaServer.Server

open Rpc Runtime Collections Execution

/-- The number of a request and the kind of its response. -/
abbrev Slip := Nat × RpcKind

def slipOf (out : Nat × RpcRes Nat) : Slip := (out.1, out.2.kind)

def WebrtcOut.slip (out : WebrtcOut) : Slip := slipOf (outputWebrtc 0 out)

def RtpOut.slip (out : RtpOut) : Slip := slipOf (outputRtp 0 out)

/-- The index of the session does not matter to the slip of an answer. -/
theorem slipOf_outputWebrtc (index : Nat) (out : WebrtcOut) :
    slipOf (outputWebrtc index out) = out.slip := by
  cases out with
  | remoteIce reqId variant res => cases variant <;> rfl
  | restartIce reqId variant res => rfl
  | disconnect reqId variant res => cases variant <;> rfl

theorem slipOf_outputRtp (index : Nat) (out : RtpOut) :
    slipOf (outputRtp index out) = out.slip := by
  cases out <;> rfl

/-- The slip of the answer that an `ExtIn` asks for. -/
def WebrtcIn.slip : WebrtcIn → Slip
  | .remoteIce reqId variant _ => (WebrtcOut.remoteIce reqId variant (.ok 0)).slip
  | .restartIce reqId variant _ => (WebrtcOut.restartIce reqId variant (.ok (true, ""))).slip
  | .disconnect reqId variant => (WebrtcOut.disconnect reqId variant (.ok ())).slip

def RtpIn.slip : RtpIn → Slip
  | .setAnswer reqId _ => (RtpOut.setAnswer reqId (.ok ())).slip
  | .disconnect reqId => (RtpOut.disconnect reqId).slip

theorem slip_remoteIce (reqId : Nat) (variant : Variant) (res : Except RpcError UInt32)
    (ices : List String) :
    (WebrtcOut.remoteIce reqId variant res).slip = (WebrtcIn.remoteIce reqId variant ices).slip := by
  cases variant <;> rfl

theorem slip_disconnect (reqId : Nat) (variant : Variant) (res : Except RpcError Unit) :
    (WebrtcOut.disconnect reqId variant res).slip = (WebrtcIn.disconnect reqId variant).slip := by
  cases variant <;> rfl

/-! ### What a worker owes -/

section Owes

variable {Rtc Rtp State Out : Type} (weigh : Slip → Nat) (media : Media Rtc Rtp)

/-- The weight of the answers in the queue of a session. -/
def Session.owes (slip : Out → Slip) (s : Session State Out) : Nat :=
  (s.queue.map fun out => weigh (slip out)).sum

def WebrtcGroup.owes (g : WebrtcGroup Rtc) : Nat :=
  (g.queue.map fun out => weigh out.2.slip).sum +
    g.endpoints.total (Session.owes weigh WebrtcOut.slip)

def RtpGroup.owes (g : RtpGroup Rtp) : Nat := g.endpoints.total (Session.owes weigh RtpOut.slip)

def Worker.owes (w : Worker Rtc Rtp) : Nat :=
  (w.queue.map fun out => weigh (slipOf out)).sum + w.webrtc.owes weigh + w.rtpengine.owes weigh

theorem Session.owes_push (slip : Out → Slip) (s : Session State Out) (state : State) (out : Out) :
    (s.push state out).owes weigh slip = s.owes weigh slip + weigh (slip out) := by
  simp [Session.owes, Session.push]

theorem Session.owes_fresh (slip : Out → Slip) (sessionId : UInt64) (state : State) :
    (⟨sessionId, state, []⟩ : Session State Out).owes weigh slip = 0 := rfl

/-- A WebRTC session answers whatever it is asked. -/
theorem Session.owes_onWebrtc (s : Session Rtc WebrtcOut) (ext : WebrtcIn) :
    (s.onWebrtc media ext).owes weigh WebrtcOut.slip =
      s.owes weigh WebrtcOut.slip + weigh ext.slip := by
  cases ext with
  | remoteIce reqId variant ices =>
    rw [Session.onWebrtc, Session.owes_push, slip_remoteIce]
  | restartIce reqId variant req =>
    rw [Session.onWebrtc]
    split
    · split
      · rw [Session.owes_push]
        rfl
      · rw [Session.owes_push]
        rfl
    · rw [Session.owes_push]
      rfl
  | disconnect reqId variant =>
    rw [Session.onWebrtc, Session.owes_push, slip_disconnect]

theorem Session.owes_onRtp (s : Session Rtp RtpOut) (ext : RtpIn) :
    (s.onRtp media ext).owes weigh RtpOut.slip = s.owes weigh RtpOut.slip + weigh ext.slip := by
  cases ext with
  | setAnswer reqId sdp =>
    rw [Session.onRtp]
    split
    · rw [Session.owes_push]
      rfl
    · rw [Session.owes_push]
      rfl
  | disconnect reqId =>
    rw [Session.onRtp, Session.owes_push]
    rfl

theorem WebrtcGroup.owes_push (g : WebrtcGroup Rtc) (owner : Nat) (out : WebrtcOut) :
    (g.push owner out).owes weigh = g.owes weigh + weigh out.slip := by
  simp only [WebrtcGroup.owes, WebrtcGroup.push, List.map_append, List.map_cons, List.map_nil,
    List.sum_append, List.sum_cons, List.sum_nil]
  omega

/-- A new session owes nothing. -/
theorem WebrtcGroup.owes_spawn (g : WebrtcGroup Rtc) (hint : Nat) (app : AppContext)
    (remote : IpAddr) (sessionId : UInt64) (variant : VariantParams) (offer : String) :
    (g.spawn media hint app remote sessionId variant offer).2.owes weigh = g.owes weigh := by
  rw [WebrtcGroup.spawn]
  split
  · rfl
  · simp only [WebrtcGroup.owes, TaskGroup.total_addTask, Session.owes_fresh, Nat.add_zero]

theorem RtpGroup.owes_spawn (g : RtpGroup Rtp) (hint : Nat) (room : RoomId) (peer : PeerId)
    (sessionId : UInt64) (offer : Option String) :
    (g.spawn media hint room peer sessionId offer).2.owes weigh = g.owes weigh := by
  simp only [RtpGroup.spawn]
  split
  · rfl
  · simp only [RtpGroup.owes, TaskGroup.total_addTask, Session.owes_fresh, Nat.add_zero]

/-- The group of WebRTC sessions answers, with or without the session. -/
theorem WebrtcGroup.owes_onExt (g : WebrtcGroup Rtc) (draw : Draw) (owner : Nat) (ext : WebrtcIn) :
    (g.onExt media draw owner ext).owes weigh = g.owes weigh + weigh ext.slip := by
  unfold WebrtcGroup.onExt
  split
  · rename_i session hget
    have hset : (g.endpoints.set owner (session.onWebrtc media ext)).total
        (Session.owes weigh WebrtcOut.slip) + session.owes weigh WebrtcOut.slip = _ :=
      TaskGroup.total_set hget _
    rw [Session.owes_onWebrtc] at hset
    simp only [WebrtcGroup.owes]
    omega
  · cases ext with
    | remoteIce reqId variant ices => rw [WebrtcGroup.owes_push, slip_remoteIce]
    | restartIce reqId variant req =>
      have hspawn := g.owes_spawn weigh media draw.hint req.app req.ip draw.sessionId
        (.webrtc req.userAgent req.req req.extraData req.record) req.req.sdp
      dsimp only
      split
      · rename_i heq
        rw [heq] at hspawn
        rw [WebrtcGroup.owes_push, hspawn]
        rfl
      · rename_i heq
        rw [heq] at hspawn
        rw [WebrtcGroup.owes_push, hspawn]
        rfl
    | disconnect reqId variant => rw [WebrtcGroup.owes_push, slip_disconnect]

/-- The group of RTP sessions answers for a session it has. -/
theorem RtpGroup.owes_onExt (g : RtpGroup Rtp) (owner : Nat) (ext : RtpIn)
    (hhas : (g.endpoints.get owner).isSome) :
    (g.onExt media owner ext).owes weigh = g.owes weigh + weigh ext.slip := by
  obtain ⟨session, hget⟩ := Option.isSome_iff_exists.mp hhas
  have hset : (g.endpoints.set owner (session.onRtp media ext)).total
      (Session.owes weigh RtpOut.slip) + session.owes weigh RtpOut.slip = _ :=
    TaskGroup.total_set hget _
  rw [Session.owes_onRtp] at hset
  simp only [RtpGroup.onExt, hget, RtpGroup.owes]
  omega

theorem Worker.owes_answer (w : Worker Rtc Rtp) (reqId : Nat) (res : RpcRes Nat) :
    (w.answer reqId res).owes weigh = w.owes weigh + weigh (reqId, res.kind) := by
  simp only [Worker.owes, Worker.answer, List.map_append, List.map_cons, List.map_nil,
    List.sum_append, List.sum_cons, List.sum_nil, slipOf]
  omega

theorem Worker.owes_spawnWebrtc (w : Worker Rtc Rtp) (hint : Nat) (app : AppContext)
    (remote : IpAddr) (sessionId : UInt64) (variant : VariantParams) (offer : String) :
    (w.spawnWebrtc media hint app remote sessionId variant offer).2.owes weigh = w.owes weigh := by
  simp only [Worker.spawnWebrtc, Worker.owes, WebrtcGroup.owes_spawn]

theorem Worker.owes_spawnRtp (w : Worker Rtc Rtp) (hint : Nat) (room : RoomId) (peer : PeerId)
    (sessionId : UInt64) (offer : Option String) :
    (w.spawnRtp media hint room peer sessionId offer).2.owes weigh = w.owes weigh := by
  simp only [Worker.spawnRtp, Worker.owes, RtpGroup.owes_spawn]

theorem Worker.owes_onWebrtc (w : Worker Rtc Rtp) (draw : Draw) (owner : Nat) (ext : WebrtcIn) :
    (w.onWebrtc media draw owner ext).owes weigh = w.owes weigh + weigh ext.slip := by
  simp only [Worker.onWebrtc, Worker.owes, WebrtcGroup.owes_onExt]
  omega

theorem Worker.owes_onRtp (w : Worker Rtc Rtp) (owner : Nat) (ext : RtpIn)
    (hhas : (w.rtpengine.endpoints.get owner).isSome) :
    (w.onRtp media owner ext).owes weigh = w.owes weigh + weigh ext.slip := by
  simp only [Worker.onRtp, Worker.owes, RtpGroup.owes_onExt weigh media _ _ _ hhas]
  omega

/-- The request is not one for an RTP session that the worker does not have. -/
def Worker.Finds (w : Worker Rtc Rtp) : RpcReq Nat → Prop
  | .rtpEngine (.setAnswer conn _) => (w.rtpengine.endpoints.get conn).isSome
  | .rtpEngine (.delete conn) => (w.rtpengine.endpoints.get conn).isSome
  | _ => True

instance (w : Worker Rtc Rtp) (req : RpcReq Nat) : Decidable (w.Finds req) := by
  unfold Worker.Finds
  split <;> infer_instance

/-- **A worker owes one answer more for each request it handles.** -/
theorem Worker.owes_processRpc (w : Worker Rtc Rtp) (draw : Draw) (reqId : Nat) (req : RpcReq Nat)
    (hfinds : w.Finds req) :
    (w.processRpc media draw reqId req).owes weigh = w.owes weigh + weigh (reqId, req.kind) := by
  rcases req with (req | ⟨conn, ice⟩ | conn) | (req | ⟨conn, ice⟩ | conn) |
    (req | ⟨conn, candidates⟩ | ⟨conn, req⟩ | conn) | (req | req | ⟨conn, sdp⟩ | conn)
  case whep.connect | whip.connect | webrtc.connect =>
    rw [Worker.processRpc, Worker.owes_answer, Worker.owes_spawnWebrtc]
    rfl
  case rtpEngine.createOffer | rtpEngine.createAnswer =>
    rw [Worker.processRpc, Worker.owes_answer, Worker.owes_spawnRtp]
    rfl
  case rtpEngine.setAnswer | rtpEngine.delete =>
    rw [Worker.processRpc, Worker.owes_onRtp weigh media _ _ _ hfinds]
    rfl
  all_goals
    rw [Worker.processRpc, Worker.owes_onWebrtc]
    rfl

/-! Handing out an answer takes its slip away, and nothing else does. -/

theorem Session.owes_popOutput {slip : Out → Slip} {s s' : Session State Out} {out : Out}
    (h : s.popOutput = some (out, s')) :
    s'.owes weigh slip + weigh (slip out) = s.owes weigh slip := by
  rw [Session.popOutput] at h
  split at h
  · cases h
  · rename_i first rest hqueue
    cases h
    simp only [Session.owes, hqueue, List.map_cons, List.sum_cons]
    omega

theorem WebrtcGroup.owes_popOutput {g g' : WebrtcGroup Rtc} {turn index : Nat} {out : WebrtcOut}
    (h : g.popOutput turn = some ((index, out), g')) :
    g'.owes weigh + weigh out.slip = g.owes weigh := by
  rw [WebrtcGroup.popOutput] at h
  split at h
  · rename_i first rest hqueue
    cases h
    simp only [WebrtcGroup.owes, hqueue, List.map_cons, List.sum_cons]
    omega
  · simp only [Option.bind_eq_bind, Option.bind_eq_some_iff, Option.pure_def] at h
    obtain ⟨session, hget, ⟨out', session'⟩, hpop, heq⟩ := h
    cases heq
    have hset : (g.endpoints.set turn session').total (Session.owes weigh WebrtcOut.slip) +
        session.owes weigh WebrtcOut.slip = _ := TaskGroup.total_set hget _
    have howes : session'.owes weigh WebrtcOut.slip + _ = _ := Session.owes_popOutput weigh hpop
    simp only [WebrtcGroup.owes]
    omega

theorem RtpGroup.owes_popOutput {g g' : RtpGroup Rtp} {turn index : Nat} {out : RtpOut}
    (h : g.popOutput turn = some ((index, out), g')) :
    g'.owes weigh + weigh out.slip = g.owes weigh := by
  simp only [RtpGroup.popOutput, Option.bind_eq_bind, Option.bind_eq_some_iff,
    Option.pure_def] at h
  obtain ⟨session, hget, ⟨out', session'⟩, hpop, heq⟩ := h
  cases heq
  have hset : (g.endpoints.set turn session').total (Session.owes weigh RtpOut.slip) +
      session.owes weigh RtpOut.slip = _ := TaskGroup.total_set hget _
  have howes : session'.owes weigh RtpOut.slip + _ = _ := Session.owes_popOutput weigh hpop
  simp only [RtpGroup.owes]
  omega

theorem Worker.owes_popOutput {w w' : Worker Rtc Rtp} {family : Family} {turn : Nat}
    {out : Nat × RpcRes Nat} (h : w.popOutput family turn = some (out, w')) :
    w'.owes weigh + weigh (slipOf out) = w.owes weigh := by
  unfold Worker.popOutput at h
  split at h
  · rename_i first rest hqueue
    cases h
    simp only [Worker.owes, hqueue, List.map_cons, List.sum_cons]
    omega
  · cases family with
    | webrtc =>
      simp only [Option.bind_eq_bind, Option.bind_eq_some_iff, Option.pure_def] at h
      obtain ⟨⟨⟨index, out'⟩, g'⟩, hpop, heq⟩ := h
      cases heq
      have howes := WebrtcGroup.owes_popOutput weigh hpop
      simp only [Worker.owes, slipOf_outputWebrtc]
      omega
    | rtpengine =>
      simp only [Option.bind_eq_bind, Option.bind_eq_some_iff, Option.pure_def] at h
      obtain ⟨⟨⟨index, out'⟩, g'⟩, hpop, heq⟩ := h
      cases heq
      have howes := RtpGroup.owes_popOutput weigh hpop
      simp only [Worker.owes, slipOf_outputRtp]
      omega

theorem total_changeSession {slip : Out → Slip} {g g' : TaskGroup (Session State Out)} {turn : Nat}
    {change : State → State} (h : changeSession g turn change = some g') :
    g'.total (Session.owes weigh slip) = g.total (Session.owes weigh slip) := by
  simp only [changeSession, Option.bind_eq_bind, Option.bind_eq_some_iff, Option.pure_def] at h
  obtain ⟨session, hget, heq⟩ := h
  cases heq
  have hset : (g.set turn { session with state := change session.state }).total
      (Session.owes weigh slip) + session.owes weigh slip = _ := TaskGroup.total_set hget _
  exact Nat.add_right_cancel hset

/-- A session that ends owes nothing any more. -/
theorem total_endSession {slip : Out → Slip} {g g' : TaskGroup (Session State Out)} {turn : Nat}
    (h : endSession g turn = some g') :
    g'.total (Session.owes weigh slip) = g.total (Session.owes weigh slip) := by
  simp only [endSession, Option.bind_eq_bind, Option.bind_eq_some_iff] at h
  obtain ⟨session, hget, hend⟩ := h
  split at hend
  · rename_i hempty
    cases hend
    have hgone : (⟨g.tasks.swapRemove turn⟩ : TaskGroup (Session State Out)).total
        (Session.owes weigh slip) + session.owes weigh slip = _ :=
      TaskGroup.total_of_gone hget fun j => IndexMap.get_swapRemove ..
    have hnone : session.owes weigh slip = 0 := by
      rw [Session.owes, List.isEmpty_iff.mp hempty]
      rfl
    omega
  · cases hend

theorem Worker.owes_changeRtc {w w' : Worker Rtc Rtp} {turn : Nat} {change : Rtc → Rtc}
    (h : w.changeRtc turn change = some w') (weigh : Slip → Nat) : w'.owes weigh = w.owes weigh := by
  obtain ⟨endpoints, hchange, heq⟩ := Option.bind_eq_some_iff.mp h
  cases heq
  simp only [Worker.owes, WebrtcGroup.owes, total_changeSession weigh hchange]

theorem Worker.owes_changeRtp {w w' : Worker Rtc Rtp} {turn : Nat} {change : Rtp → Rtp}
    (h : w.changeRtp turn change = some w') (weigh : Slip → Nat) : w'.owes weigh = w.owes weigh := by
  obtain ⟨endpoints, hchange, heq⟩ := Option.bind_eq_some_iff.mp h
  cases heq
  simp only [Worker.owes, RtpGroup.owes, total_changeSession weigh hchange]

theorem Worker.owes_endRtc {w w' : Worker Rtc Rtp} {turn : Nat} (h : w.endRtc turn = some w')
    (weigh : Slip → Nat) : w'.owes weigh = w.owes weigh := by
  obtain ⟨endpoints, hend, heq⟩ := Option.bind_eq_some_iff.mp h
  cases heq
  simp only [Worker.owes, WebrtcGroup.owes, total_endSession weigh hend]

theorem Worker.owes_endRtp {w w' : Worker Rtc Rtp} {turn : Nat} (h : w.endRtp turn = some w')
    (weigh : Slip → Nat) : w'.owes weigh = w.owes weigh := by
  obtain ⟨endpoints, hend, heq⟩ := Option.bind_eq_some_iff.mp h
  cases heq
  simp only [Worker.owes, RtpGroup.owes, total_endSession weigh hend]

end Owes

/-! ### What a node owes -/

variable {Rtc Rtp : Type}

def Cell.owes (weigh : Slip → Nat) (c : Cell Rtc Rtp) : Nat :=
  (c.inbox.map fun ext => weigh (ext.1, ext.2.kind)).sum + c.worker.owes weigh

def Node.owes (weigh : Slip → Nat) (n : Node Rtc Rtp) : Nat :=
  (n.cells.map (Cell.owes weigh)).sum +
    (n.events.map fun event => weigh (event.1, event.2.2.kind)).sum

/-- Replacing one cell replaces its share. -/
theorem sum_set_cell {cells : List (Cell Rtc Rtp)} {worker : Nat} {cell : Cell Rtc Rtp}
    (hget : cells[worker]? = some cell) (quantity : Cell Rtc Rtp → Nat) (cell' : Cell Rtc Rtp) :
    ((cells.set worker cell').map quantity).sum + quantity cell =
      (cells.map quantity).sum + quantity cell' := by
  induction cells generalizing worker with
  | nil => cases hget
  | cons first rest ih =>
    cases worker with
    | zero =>
      cases hget
      simp only [List.set_cons_zero, List.map_cons, List.sum_cons]
      omega
    | succ worker =>
      have hrest := ih (show rest[worker]? = some cell from hget)
      simp only [List.set_cons_succ, List.map_cons, List.sum_cons]
      omega

namespace Node

theorem owes_sendTo (weigh : Slip → Nat) (n : Node Rtc Rtp) {worker : Nat}
    (hworker : worker < n.cells.length) (ext : Nat × RpcReq Nat) :
    (n.sendTo worker ext).owes weigh = n.owes weigh + weigh (ext.1, ext.2.kind) := by
  have hget : n.cells[worker]? = some n.cells[worker] := List.getElem?_eq_getElem hworker
  have hset := sum_set_cell hget (Cell.owes weigh)
    { n.cells[worker] with inbox := n.cells[worker].inbox ++ [ext] }
  simp only [Cell.owes, List.map_append, List.map_cons, List.map_nil, List.sum_append,
    List.sum_cons, List.sum_nil] at hset
  simp only [Node.owes, Node.sendTo, List.modify_eq_set_get _ hworker, List.get_eq_getElem]
  omega

/-- The worker that a request names exists. -/
def Routes (n : Node Rtc Rtp) (req : RpcReq ClusterConnId) : Prop :=
  ∀ conn, req.conn? = some conn → conn.serverConn.worker < UInt16.ofNat n.cells.length

/-- A request that comes in is one more to answer. -/
theorem owes_dispatch (weigh : Slip → Nat) (n : Node Rtc Rtp) {best : Nat}
    (hbest : best < n.cells.length) {req : RpcReq ClusterConnId} (hroutes : n.Routes req) :
    (n.dispatch best req).owes weigh = n.owes weigh + weigh (n.reqIdSeed, req.kind) := by
  simp only [dispatch, RpcReq.down, RpcReq.conn?_mapConn]
  cases hconn : req.conn? with
  | none =>
    simp only [Option.map_none]
    refine (owes_sendTo weigh _ hbest _).trans ?_
    simp only [RpcReq.kind_mapConn, Node.owes]
  | some conn =>
    have hlt := hroutes conn hconn
    have hworker : conn.serverConn.worker.toNat < n.cells.length := by
      have := UInt16.lt_iff_toNat_lt.mp hlt
      rw [UInt16.toNat_ofNat'] at this
      exact Nat.lt_of_lt_of_le this (Nat.mod_le ..)
    simp only [Option.map_some, ClusterConnId.down, ServerConnId.down]
    rw [if_pos hlt]
    refine (owes_sendTo weigh _ hworker _).trans ?_
    simp only [RpcReq.kind_mapConn, Node.owes]

@[simp] theorem reqs_dispatch (n : Node Rtc Rtp) (best : Nat) (req : RpcReq ClusterConnId) :
    (n.dispatch best req).reqs = n.reqs ++ [n.reqIdSeed] := by
  simp only [dispatch]
  split
  · split <;> rfl
  · rfl

@[simp] theorem reqIdSeed_dispatch (n : Node Rtc Rtp) (best : Nat) (req : RpcReq ClusterConnId) :
    (n.dispatch best req).reqIdSeed = n.reqIdSeed + 1 := by
  simp only [dispatch]
  split
  · split <;> rfl
  · rfl

/-- Something moved inside the node: the slips and the table are what they were. -/
structure Moves (n n' : Node Rtc Rtp) : Prop where
  owes : ∀ weigh, n'.owes weigh = n.owes weigh
  reqs : n'.reqs = n.reqs
  reqIdSeed : n'.reqIdSeed = n.reqIdSeed

theorem moves_receive {n n' : Node Rtc Rtp} {worker : Nat} {media : Media Rtc Rtp} {draw : Draw}
    (hfinds : ∀ cell reqId req rest, n.cells[worker]? = some cell →
      cell.inbox = (reqId, req) :: rest → cell.worker.Finds req)
    (h : n.receive worker media draw = some n') : n.Moves n' := by
  simp only [receive, Option.bind_eq_bind, Option.bind_eq_some_iff] at h
  obtain ⟨cell, hget, h⟩ := h
  split at h
  · cases h
  · rename_i reqId req rest hinbox
    cases h
    refine ⟨fun weigh => ?_, rfl, rfl⟩
    have hset := sum_set_cell hget (Cell.owes weigh)
      ⟨rest, cell.worker.processRpc media draw reqId req⟩
    simp only [Cell.owes, hinbox, List.map_cons, List.sum_cons,
      Worker.owes_processRpc weigh media _ _ _ _ (hfinds cell reqId req rest hget hinbox)] at hset
    simp only [Node.owes]
    omega

theorem moves_pop {n n' : Node Rtc Rtp} {worker : Nat} {family : Family} {turn : Nat}
    (h : n.pop worker family turn = some n') : n.Moves n' := by
  simp only [pop, Option.bind_eq_bind, Option.bind_eq_some_iff] at h
  obtain ⟨cell, hget, ⟨⟨reqId, res⟩, w⟩, hpop, heq⟩ := h
  cases heq
  refine ⟨fun weigh => ?_, rfl, rfl⟩
  have hset := sum_set_cell hget (Cell.owes weigh) { cell with worker := w }
  have howes := Worker.owes_popOutput weigh hpop
  simp only [Cell.owes] at hset
  simp only [Node.owes, List.map_append, List.map_cons, List.map_nil, List.sum_append,
    List.sum_cons, List.sum_nil]
  simp only [slipOf] at howes
  omega

theorem moves_onWorker {n n' : Node Rtc Rtp} {worker : Nat}
    {change : Worker Rtc Rtp → Option (Worker Rtc Rtp)}
    (hchange : ∀ w w', change w = some w' → ∀ weigh, w'.owes weigh = w.owes weigh)
    (h : n.onWorker worker change = some n') : n.Moves n' := by
  simp only [onWorker, Option.bind_eq_bind, Option.bind_eq_some_iff] at h
  obtain ⟨cell, hget, w, hw, heq⟩ := h
  cases heq
  refine ⟨fun weigh => ?_, rfl, rfl⟩
  have hset := sum_set_cell hget (Cell.owes weigh) { cell with worker := w }
  have howes := hchange _ _ hw weigh
  simp only [Cell.owes] at hset
  simp only [Node.owes]
  omega

end Node

/-! ### Runs of a node -/

/-- A node with all requests that came in and all answers that went out. -/
structure Run (Rtc Rtp : Type) where
  node : Node Rtc Rtp
  asked : List (RpcReq ClusterConnId)
  answered : List (Nat × RpcRes ClusterConnId)

namespace Run

def start (nodeId : NodeId) (nodeSession : UInt64) (workers : Nat) : Run Rtc Rtp :=
  ⟨.start nodeId nodeSession workers, [], []⟩

def step (r : Run Rtc Rtp) (act : Act Rtc Rtp) : Option (Run Rtc Rtp) := do
  let (node, answer) ← r.node.step act
  return ⟨node, r.asked ++ act.asks.toList, r.answered ++ answer.toList⟩

/-- The kind of the request with a number. -/
def kindOf (r : Run Rtc Rtp) (reqId : Nat) : Option RpcKind := r.asked[reqId]?.map RpcReq.kind

/-- Nothing is lost in this step: a request names a worker that exists, and a worker has the
    RTP session that its next request is for. -/
def Meets (r : Run Rtc Rtp) : Act Rtc Rtp → Prop
  | .request req _ => r.node.Routes req
  | .receive worker _ _ => ∀ cell reqId req rest, r.node.cells[worker]? = some cell →
      cell.inbox = (reqId, req) :: rest → cell.worker.Finds req
  | _ => True

/-- The weight of the slip of a request. -/
def weight (r : Run Rtc Rtp) (weigh : Slip → Nat) (reqId : Nat) : Nat :=
  match r.kindOf reqId with
  | some kind => weigh (reqId, kind)
  | none => 0

/-- The books of a node: the slips on the way are those of the requests in the table, and the
    requests that are not in the table have been answered. -/
structure Books (r : Run Rtc Rtp) : Prop where
  seed : r.node.reqIdSeed = r.asked.length
  ids : (r.node.reqs ++ r.answered.map Prod.fst).Perm (List.range r.asked.length)
  kinds : ∀ answer ∈ r.answered, r.kindOf answer.1 = some answer.2.kind
  slips : ∀ weigh, r.node.owes weigh = (r.node.reqs.map (r.weight weigh)).sum

theorem owes_start (nodeId : NodeId) (nodeSession : UInt64) (workers : Nat) (weigh : Slip → Nat) :
    (Node.start nodeId nodeSession workers : Node Rtc Rtp).owes weigh = 0 := by
  have hcell : (⟨[], .new⟩ : Cell Rtc Rtp).owes weigh = 0 := rfl
  simp [Node.owes, Node.start, hcell]

theorem Books.start (nodeId : NodeId) (nodeSession : UInt64) (workers : Nat) :
    (Run.start nodeId nodeSession workers : Run Rtc Rtp).Books where
  seed := rfl
  ids := .refl _
  kinds := by
    intro answer hmem
    cases hmem
  slips := owes_start nodeId nodeSession workers

namespace Books

variable {r : Run Rtc Rtp}

/-- A request in the table has come in. -/
theorem lt_of_mem (h : r.Books) {reqId : Nat} (hmem : reqId ∈ r.node.reqs) :
    reqId < r.asked.length :=
  List.mem_range.mp (h.ids.subset (List.mem_append_left _ hmem))

/-- The slips of earlier requests stay what they are. -/
theorem weight_asked {asked : RpcReq ClusterConnId} {node : Node Rtc Rtp}
    {answered : List (Nat × RpcRes ClusterConnId)} {reqId : Nat} (hlt : reqId < r.asked.length)
    (weigh : Slip → Nat) :
    (⟨node, r.asked ++ [asked], answered⟩ : Run Rtc Rtp).weight weigh reqId =
      r.weight weigh reqId := by
  simp only [weight, kindOf, List.getElem?_append_left hlt]

/-- A request that comes in gets the next number. -/
theorem request (h : r.Books) {req : RpcReq ClusterConnId} {best : Nat}
    (hbest : best < r.node.cells.length) (hroutes : r.node.Routes req) :
    (⟨r.node.dispatch best req, r.asked ++ [req], r.answered⟩ : Run Rtc Rtp).Books where
  seed := by simp [h.seed]
  ids := by
    have hids := h.ids
    simp only [Node.reqs_dispatch, h.seed, List.length_append, List.length_singleton,
      List.range_succ]
    rw [List.append_assoc]
    refine (List.Perm.append_left _ List.perm_append_comm).trans ?_
    rw [← List.append_assoc]
    exact hids.append_right _
  kinds := by
    intro answer hmem
    have hkind := h.kinds answer hmem
    have hlt : answer.1 < r.asked.length := by
      have := h.ids.subset (List.mem_append_right _ (List.mem_map_of_mem hmem))
      exact List.mem_range.mp this
    simpa only [kindOf, List.getElem?_append_left hlt] using hkind
  slips := by
    intro weigh
    have hold : (r.node.reqs.map ((⟨r.node.dispatch best req, r.asked ++ [req],
        r.answered⟩ : Run Rtc Rtp).weight weigh)) = r.node.reqs.map (r.weight weigh) :=
      List.map_congr_left fun reqId hmem => weight_asked (h.lt_of_mem hmem) weigh
    rw [Node.owes_dispatch weigh _ hbest hroutes, h.slips weigh]
    simp only [Node.reqs_dispatch, List.map_append, List.sum_append, hold, List.map_cons,
      List.map_nil, List.sum_cons, List.sum_nil]
    simp [weight, kindOf, h.seed]

/-- Nothing changes in the books when something moves inside the node. -/
theorem move (h : r.Books) {node : Node Rtc Rtp} (hmove : r.node.Moves node) :
    (⟨node, r.asked, r.answered⟩ : Run Rtc Rtp).Books where
  seed := hmove.reqIdSeed.trans h.seed
  ids := by
    change (node.reqs ++ _).Perm _
    rw [hmove.reqs]
    exact h.ids
  kinds := h.kinds
  slips := by
    intro weigh
    change node.owes weigh = (node.reqs.map _).sum
    rw [hmove.owes, hmove.reqs]
    exact h.slips weigh

/-- An answer on its way is one to a request in the table, and of its kind. -/
theorem of_owes (h : r.Books) {slip : Slip}
    (howes : 0 < r.node.owes fun other => if other = slip then 1 else 0) :
    slip.1 ∈ r.node.reqs ∧ r.kindOf slip.1 = some slip.2 := by
  rw [h.slips, List.sum_pos_iff_exists_pos_nat] at howes
  obtain ⟨share, hmem, hpos⟩ := howes
  obtain ⟨reqId, hreq, rfl⟩ := List.mem_map.mp hmem
  simp only [weight] at hpos
  split at hpos
  · rename_i kind hkind
    split at hpos
    · rename_i hslip
      subst hslip
      exact ⟨hreq, hkind⟩
    · omega
  · omega

theorem deliver (h : r.Books) {node : Node Rtc Rtp}
    {answer : Option (Nat × RpcRes ClusterConnId)} (hdeliver : r.node.deliver = some (node, answer)) :
    (⟨node, r.asked, r.answered ++ answer.toList⟩ : Run Rtc Rtp).Books := by
  rw [Node.deliver] at hdeliver
  split at hdeliver
  · cases hdeliver
  · rename_i reqId worker res rest hevents
    have howes : ∀ weigh, r.node.owes weigh =
        ({ r.node with events := rest } : Node Rtc Rtp).owes weigh + weigh (reqId, res.kind) := by
      intro weigh
      simp only [Node.owes, hevents, List.map_cons, List.sum_cons]
      omega
    have hpos : 0 < r.node.owes fun other => if other = (reqId, res.kind) then 1 else 0 := by
      rw [howes, if_pos rfl]
      omega
    obtain ⟨hmem, hkind⟩ := h.of_owes hpos
    rw [if_pos hmem] at hdeliver
    cases hdeliver
    refine ⟨h.seed, ?_, ?_, ?_⟩
    · simp only [Option.toList_some, List.map_append, List.map_cons, List.map_nil]
      have hback : (r.node.reqs.erase reqId ++ (r.answered.map Prod.fst ++ [reqId])).Perm
          (reqId :: r.node.reqs.erase reqId ++ r.answered.map Prod.fst) := by
        rw [← List.append_assoc]
        exact List.perm_append_singleton ..
      exact (hback.trans ((List.perm_cons_erase hmem).symm.append_right _)).trans h.ids
    · intro answer hanswer
      rcases List.mem_append.mp hanswer with hold | hnew
      · exact h.kinds answer hold
      · rw [Option.toList_some, List.mem_singleton] at hnew
        subst hnew
        rw [RpcRes.kind_up, RpcRes.kind_up]
        exact hkind
    · intro weigh
      have hslips := h.slips weigh
      have herase := List.sum_map_erase (r.weight weigh) (show reqId ∈ r.node.reqs from hmem)
      have hweight : r.weight weigh reqId = weigh (reqId, res.kind) := by
        simp only [weight, hkind]
      rw [howes] at hslips
      change ({ r.node with events := rest } : Node Rtc Rtp).owes weigh =
        ((r.node.reqs.erase reqId).map (r.weight weigh)).sum
      omega

/-- **The books are kept.** -/
theorem step (h : r.Books) {act : Act Rtc Rtp} (hmeets : r.Meets act) {r' : Run Rtc Rtp}
    (hstep : r.step act = some r') : r'.Books := by
  simp only [Run.step, Option.bind_eq_bind, Option.bind_eq_some_iff] at hstep
  obtain ⟨⟨node, answer⟩, hnode, heq⟩ := hstep
  cases heq
  cases act with
  | request req best =>
    simp only [Node.step] at hnode
    split at hnode
    · rename_i hbest
      cases hnode
      simpa [Act.asks] using h.request hbest hmeets
    · cases hnode
  | receive worker media draw =>
    obtain ⟨hmoved, rfl⟩ := Node.silent_eq_some hnode
    simpa [Act.asks] using h.move (Node.moves_receive hmeets hmoved)
  | pop worker family turn =>
    obtain ⟨hmoved, rfl⟩ := Node.silent_eq_some hnode
    simpa [Act.asks] using h.move (Node.moves_pop hmoved)
  | deliver => simpa [Act.asks] using h.deliver hnode
  | changeRtc worker turn change =>
    obtain ⟨hmoved, rfl⟩ := Node.silent_eq_some hnode
    simpa [Act.asks] using h.move (Node.moves_onWorker (fun _ _ => Worker.owes_changeRtc) hmoved)
  | changeRtp worker turn change =>
    obtain ⟨hmoved, rfl⟩ := Node.silent_eq_some hnode
    simpa [Act.asks] using h.move (Node.moves_onWorker (fun _ _ => Worker.owes_changeRtp) hmoved)
  | endRtc worker turn =>
    obtain ⟨hmoved, rfl⟩ := Node.silent_eq_some hnode
    simpa [Act.asks] using h.move (Node.moves_onWorker (fun _ _ => Worker.owes_endRtc) hmoved)
  | endRtp worker turn =>
    obtain ⟨hmoved, rfl⟩ := Node.silent_eq_some hnode
    simpa [Act.asks] using h.move (Node.moves_onWorker (fun _ _ => Worker.owes_endRtp) hmoved)

end Books

/-! ### Draining -/

/-- The answers to a request. -/
def answersTo (r : Run Rtc Rtp) (reqId : Nat) : List (RpcRes ClusterConnId) :=
  (r.answered.filter fun answer => answer.1 = reqId).map Prod.snd

/-- How many answers to a request are on their way. -/
def toCome (r : Run Rtc Rtp) (reqId : Nat) : Nat :=
  r.node.owes fun slip => if slip.1 = reqId then 1 else 0

end Run

/-- No worker has a request to handle or an output to hand out, and the loop has none left. -/
def Node.Drained (n : Node Rtc Rtp) : Prop :=
  n.events = [] ∧ ∀ cell ∈ n.cells, cell.inbox = [] ∧
    ∀ family turn, cell.worker.popOutput family turn = none

theorem Session.queue_of_popOutput {State Out : Type} {s : Session State Out}
    (h : s.popOutput = none) : s.queue = [] := by
  rw [Session.popOutput] at h
  split at h
  · assumption
  · cases h

theorem Worker.owes_of_drained {w : Worker Rtc Rtp}
    (h : ∀ family turn, w.popOutput family turn = none) (weigh : Slip → Nat) : w.owes weigh = 0 := by
  have hqueue : w.queue = [] := by
    cases hw : w.queue with
    | nil => rfl
    | cons out rest =>
      have := h .webrtc 0
      simp [Worker.popOutput, hw] at this
  have hgroup : w.webrtc.queue = [] := by
    cases hw : w.webrtc.queue with
    | nil => rfl
    | cons out rest =>
      have := h .webrtc 0
      simp [Worker.popOutput, hqueue, WebrtcGroup.popOutput, hw] at this
  have hwebrtc : w.webrtc.endpoints.total (Session.owes weigh WebrtcOut.slip) = 0 := by
    refine TaskGroup.total_eq_zero fun turn session hget => ?_
    have hpop := h .webrtc turn
    have hnone : session.popOutput = none := by
      cases hs : session.popOutput with
      | none => rfl
      | some found => simp [Worker.popOutput, hqueue, WebrtcGroup.popOutput, hgroup, hget, hs] at hpop
    rw [Session.owes, Session.queue_of_popOutput hnone]
    rfl
  have hrtp : w.rtpengine.endpoints.total (Session.owes weigh RtpOut.slip) = 0 := by
    refine TaskGroup.total_eq_zero fun turn session hget => ?_
    have hpop := h .rtpengine turn
    have hnone : session.popOutput = none := by
      cases hs : session.popOutput with
      | none => rfl
      | some found => simp [Worker.popOutput, hqueue, RtpGroup.popOutput, hget, hs] at hpop
    rw [Session.owes, Session.queue_of_popOutput hnone]
    rfl
  simp only [Worker.owes, WebrtcGroup.owes, RtpGroup.owes, hqueue, hgroup, hwebrtc, hrtp]
  rfl

theorem Node.Drained.owes {n : Node Rtc Rtp} (h : n.Drained) (weigh : Slip → Nat) :
    n.owes weigh = 0 := by
  have hcells : (n.cells.map (Cell.owes weigh)).sum = 0 := by
    rw [List.sum_eq_zero_iff_forall_eq_nat]
    intro share hmem
    obtain ⟨cell, hcell, rfl⟩ := List.mem_map.mp hmem
    obtain ⟨hinbox, hpop⟩ := h.2 cell hcell
    rw [Cell.owes, hinbox, Worker.owes_of_drained hpop]
    rfl
  rw [Node.owes, hcells, h.1]
  rfl

/-- The steps that take requests and answers further. -/
def Act.drains : Act Rtc Rtp → Bool
  | .receive .. => true
  | .pop .. => true
  | .deliver => true
  | _ => false

def Cell.load (c : Cell Rtc Rtp) : Nat := 3 * c.inbox.length + 2 * c.worker.owes fun _ => 1

/-- A bound on the steps until a node is drained. -/
def Node.load (n : Node Rtc Rtp) : Nat := (n.cells.map Cell.load).sum + n.events.length

theorem Node.load_receive {n n' : Node Rtc Rtp} {worker : Nat} {media : Media Rtc Rtp}
    {draw : Draw} (hfinds : ∀ cell reqId req rest, n.cells[worker]? = some cell →
      cell.inbox = (reqId, req) :: rest → cell.worker.Finds req)
    (h : n.receive worker media draw = some n') : n'.load < n.load := by
  simp only [receive, Option.bind_eq_bind, Option.bind_eq_some_iff] at h
  obtain ⟨cell, hget, h⟩ := h
  split at h
  · cases h
  · rename_i reqId req rest hinbox
    cases h
    have hset := sum_set_cell hget Cell.load
      ⟨rest, cell.worker.processRpc media draw reqId req⟩
    have howes := Worker.owes_processRpc (fun _ => 1) media cell.worker draw reqId req
      (hfinds cell reqId req rest hget hinbox)
    simp only [Cell.load, hinbox, List.length_cons, howes] at hset
    simp only [Node.load]
    omega

theorem Node.load_pop {n n' : Node Rtc Rtp} {worker : Nat} {family : Family} {turn : Nat}
    (h : n.pop worker family turn = some n') : n'.load < n.load := by
  simp only [pop, Option.bind_eq_bind, Option.bind_eq_some_iff] at h
  obtain ⟨cell, hget, ⟨⟨reqId, res⟩, w⟩, hpop, heq⟩ := h
  cases heq
  have hset := sum_set_cell hget Cell.load { cell with worker := w }
  have howes := Worker.owes_popOutput (fun _ => 1) hpop
  simp only [Node.load, List.length_append, List.length_singleton]
  simp only [Cell.load] at hset ⊢
  omega

theorem Node.load_deliver {n n' : Node Rtc Rtp} {answer : Option (Nat × RpcRes ClusterConnId)}
    (h : n.deliver = some (n', answer)) : n'.load < n.load := by
  rw [Node.deliver] at h
  split at h
  · cases h
  · rename_i reqId worker res rest hevents
    dsimp only at h
    split at h
    · cases h
      simp [Node.load, hevents]
    · cases h
      simp [Node.load, hevents]

namespace Run

theorem load_step {r r' : Run Rtc Rtp} {act : Act Rtc Rtp} (hmeets : r.Meets act)
    (hdrains : act.drains = true) (h : r.step act = some r') : r'.node.load < r.node.load := by
  simp only [Run.step, Option.bind_eq_bind, Option.bind_eq_some_iff] at h
  obtain ⟨⟨node, answer⟩, hnode, heq⟩ := h
  cases heq
  cases act with
  | receive worker media draw => exact Node.load_receive hmeets (Node.silent_eq_some hnode).1
  | pop worker family turn => exact Node.load_pop (Node.silent_eq_some hnode).1
  | deliver => exact Node.load_deliver hnode
  | request => cases hdrains
  | changeRtc => cases hdrains
  | changeRtp => cases hdrains
  | endRtc => cases hdrains
  | endRtp => cases hdrains

/-- The accounts of a node are in order. -/
structure Accounted (r : Run Rtc Rtp) : Prop where
  /-- Only requests are answered. -/
  known : ∀ answer ∈ r.answered, answer.1 < r.asked.length
  /-- The table holds the requests that have no answer yet. -/
  pending : ∀ reqId, reqId ∈ r.node.reqs ↔ reqId < r.asked.length ∧ r.answersTo reqId = []
  /-- To each of them, and to no other, one answer is on its way. -/
  toCome : ∀ reqId, r.toCome reqId = if reqId ∈ r.node.reqs then 1 else 0
  /-- Any other request has had one answer, of its kind. -/
  once : ∀ reqId req, r.asked[reqId]? = some req → reqId ∉ r.node.reqs →
    ∃ res, r.answersTo reqId = [res] ∧ res.kind = req.kind
  /-- Draining the node ends. -/
  drains : ∀ acts r', Reaches step (fun s act => s.Meets act ∧ act.drains = true) r acts r' →
    acts.length ≤ r.node.load
  /-- Draining the node empties the table. -/
  drained : r.node.Drained → r.node.reqs = []

/-- Of entries with different keys, one has a given entry's key. -/
theorem filter_fst_of_nodup {Value : Type} {entries : List (Nat × Value)}
    (hnodup : (entries.map Prod.fst).Nodup) {entry : Nat × Value} (hmem : entry ∈ entries) :
    entries.filter (fun other => other.1 = entry.1) = [entry] := by
  induction entries with
  | nil => cases hmem
  | cons first rest ih =>
    rw [List.map_cons, List.nodup_cons] at hnodup
    rcases List.mem_cons.mp hmem with rfl | hrest
    · have hnone : rest.filter (fun other => other.1 = entry.1) = [] := by
        rw [List.filter_eq_nil_iff]
        intro other hother heq
        exact hnodup.1 (List.mem_map.mpr ⟨other, hother, of_decide_eq_true heq⟩)
      rw [List.filter_cons_of_pos (by simp), hnone]
    · have hne : first.1 ≠ entry.1 := fun heq =>
        hnodup.1 (heq ▸ List.mem_map_of_mem hrest)
      rw [List.filter_cons_of_neg (by simpa using hne)]
      exact ih hnodup.2 hrest

namespace Books

variable {r : Run Rtc Rtp}

theorem nodup (h : r.Books) : (r.node.reqs ++ r.answered.map Prod.fst).Nodup :=
  h.ids.nodup_iff.mpr List.nodup_range

/-- A number among the answers occurs there once. -/
theorem answersTo_of_mem (h : r.Books) {answer : Nat × RpcRes ClusterConnId}
    (hmem : answer ∈ r.answered) : r.answersTo answer.1 = [answer.2] := by
  have hnodup : (r.answered.map Prod.fst).Nodup := (List.nodup_append.mp h.nodup).2.1
  rw [answersTo, filter_fst_of_nodup hnodup hmem]
  rfl

theorem answersTo_eq_nil_iff {reqId : Nat} :
    r.answersTo reqId = [] ↔ reqId ∉ r.answered.map Prod.fst := by
  rw [answersTo, List.map_eq_nil_iff, List.filter_eq_nil_iff]
  constructor
  · intro hnone hmem
    obtain ⟨answer, hanswer, rfl⟩ := List.mem_map.mp hmem
    exact hnone answer hanswer (decide_eq_true rfl)
  · intro hnone answer hanswer hid
    exact hnone (List.mem_map.mpr ⟨answer, hanswer, of_decide_eq_true hid⟩)

theorem mem_reqs_iff (h : r.Books) {reqId : Nat} :
    reqId ∈ r.node.reqs ↔ reqId < r.asked.length ∧ r.answersTo reqId = [] := by
  rw [answersTo_eq_nil_iff]
  constructor
  · intro hmem
    exact ⟨h.lt_of_mem hmem, (List.disjoint_of_nodup_append h.nodup) hmem⟩
  · rintro ⟨hlt, hnone⟩
    have := h.ids.symm.subset (List.mem_range.mpr hlt)
    exact (List.mem_append.mp this).resolve_right hnone

/-- A sum of ones over the occurrences of an entry. -/
theorem sum_indicator {reqs : List Nat} (hnodup : reqs.Nodup) (reqId : Nat) :
    (reqs.map fun other => if other = reqId then 1 else 0).sum = if reqId ∈ reqs then 1 else 0 := by
  induction reqs with
  | nil => rfl
  | cons first rest ih =>
    rw [List.nodup_cons] at hnodup
    rw [List.map_cons, List.sum_cons, ih hnodup.2]
    by_cases hfirst : first = reqId
    · subst hfirst
      simp [hnodup.1]
    · have : reqId ≠ first := Ne.symm hfirst
      simp [hfirst, this]

theorem toCome_eq (h : r.Books) (reqId : Nat) :
    r.toCome reqId = if reqId ∈ r.node.reqs then 1 else 0 := by
  rw [← sum_indicator (List.nodup_append.mp h.nodup).1 reqId, toCome, h.slips]
  congr 1
  refine List.map_congr_left fun other hmem => ?_
  have hlt := h.lt_of_mem hmem
  simp only [weight, kindOf, List.getElem?_eq_getElem hlt, Option.map_some]

theorem accounted (h : r.Books) : r.Accounted where
  known := by
    intro answer hmem
    exact List.mem_range.mp
      (h.ids.subset (List.mem_append_right _ (List.mem_map_of_mem hmem)))
  pending _ := h.mem_reqs_iff
  toCome := h.toCome_eq
  once := by
    intro reqId req hreq hgone
    obtain ⟨hlt, -⟩ := List.getElem?_eq_some_iff.mp hreq
    have hin := h.ids.symm.subset (List.mem_range.mpr hlt)
    obtain ⟨answer, hanswer, rfl⟩ :=
      List.mem_map.mp ((List.mem_append.mp hin).resolve_left hgone)
    have hkind := h.kinds answer hanswer
    rw [kindOf, hreq, Option.map_some, Option.some.injEq] at hkind
    exact ⟨answer.2, h.answersTo_of_mem hanswer, hkind.symm⟩
  drains := by
    intro acts r' hreaches
    have hlength : acts.length + r'.node.load ≤ r.node.load :=
      hreaches.length_le (fun r => r.node.load) fun _ _ _ hok hstep => load_step hok.1 hok.2 hstep
    omega
  drained := by
    intro hdrained
    refine List.eq_nil_iff_forall_not_mem.mpr fun reqId hmem => ?_
    have hcome := h.toCome_eq reqId
    rw [if_pos hmem, toCome, hdrained.owes] at hcome
    cases hcome

end Books

/-- **Every request is answered once.**  In every run in which no request is for a worker that
    does not exist or for an RTP session that its worker does not have. -/
theorem accounts {nodeId : NodeId} {nodeSession : UInt64} {workers : Nat}
    {acts : List (Act Rtc Rtp)} {r : Run Rtc Rtp}
    (h : Reaches step Meets (start nodeId nodeSession workers) acts r) : r.Accounted :=
  (h.invariant (fun _ _ _ hbooks hmeets hstep => Books.step hbooks hmeets hstep)
    (Books.start nodeId nodeSession workers)).accounted

def createOffer : RpcReq ClusterConnId :=
  .rtpEngine (.createOffer ⟨⟨"app"⟩, 5, "room", "peer", false, none⟩)

/-- A call is offered and hung up again, and both requests are answered. -/
def offered : List (Act Unit Unit) :=
  [.request createOffer 0, .receive 0 plainMedia firstDraw,
    .request (.rtpEngine (.delete ⟨1, 9, 0, 0⟩)) 0, .receive 0 plainMedia firstDraw,
    .pop 0 .rtpengine 0, .pop 0 .rtpengine 0, .deliver, .deliver]

theorem accounts_offered :
    ∃ r, Reaches step Meets (start 1 9 1) offered r ∧ r.Accounted ∧ r.answered.length = 2 := by
  have hreaches : ∃ r, Reaches step Meets (start 1 9 1) offered r ∧ r.answered.length = 2 := by
    refine ⟨_, .cons ?_ rfl (.cons ?_ rfl (.cons ?_ rfl (.cons ?_ rfl (.cons trivial rfl
      (.cons trivial rfl (.cons trivial rfl (.cons trivial rfl (.nil _)))))))), rfl⟩
    · intro conn hconn
      cases hconn
    · intro cell reqId req rest hcell hinbox
      cases hcell
      cases hinbox
      exact trivial
    · intro conn hconn
      cases hconn
      decide
    · intro cell reqId req rest hcell hinbox
      cases hcell
      cases hinbox
      rfl
  obtain ⟨r, hr, hlength⟩ := hreaches
  exact ⟨r, hr, accounts hr, hlength⟩

theorem drained_new {events : List (Nat × UInt16 × RpcRes Nat)} (hevents : events = [])
    (nodeId : NodeId) (nodeSession : UInt64) (workers seed : Nat) (reqs : List Nat) :
    (⟨nodeId, nodeSession, List.replicate workers ⟨[], .new⟩, seed, reqs, events⟩ :
      Node Rtc Rtp).Drained := by
  refine ⟨hevents, fun cell hcell => ?_⟩
  rw [List.eq_of_mem_replicate hcell]
  refine ⟨rfl, fun family turn => ?_⟩
  cases family <;> rfl

/-- A deletion that names a worker which the node does not have is never answered, and neither
    is one of an RTP session that does not exist. -/
theorem deletions_lost :
    (∃ r : Run Unit Unit, Reaches step (fun _ _ => True) (start 1 9 1)
      [.request (.webrtc (.delete ⟨1, 9, 1, 0⟩)) 0] r ∧
      r.node.Drained ∧ r.node.reqs = [0] ∧ r.answered = []) ∧
    ∃ r : Run Unit Unit, Reaches step (fun _ _ => True) (start 1 9 1)
      [.request (.rtpEngine (.delete ⟨1, 9, 0, 0⟩)) 0, .receive 0 plainMedia firstDraw] r ∧
      r.node.Drained ∧ r.node.reqs = [0] ∧ r.answered = [] := by
  constructor
  · exact ⟨_, .cons trivial rfl (.nil _), drained_new rfl 1 9 1 1 [0], rfl, rfl⟩
  · exact ⟨_, .cons trivial rfl (.cons trivial rfl (.nil _)), drained_new rfl 1 9 1 1 [0], rfl, rfl⟩

end Run

end MediaServer.Server
