import MediaServer.Lib.Execution
import MediaServer.Server.Node

/-!
# Connection ids name sessions

Media nodes create sessions, end them and restart.  A new session gets the connection id of
its place: the node and its run, the worker, and the index in the group of its transport.

To say for which session an id was issued, sessions are numbered here in the order of their
creation, and the number and the kind of transport are written on the state of the session,
which the media stacks carry along without looking at them.  The list of births holds the id
that was issued for each number.  A client that sends a request with an id means one of the
sessions for which that id was issued, or nobody's if it never was.

The loop of a node throws the node and its run away without reading them, the worker keeps
only the index, and a group does not know which session an index stood for.  So a request
finds the session that it means as long as the id is of this run of the node, is used for the
transport it was issued for, and has not been issued again.
-/

namespace MediaServer.Server

open Rpc Runtime Collections Execution

/-- The kinds of transport that a request can be for. -/
inductive TransportKind where
  | whip
  | whep
  | webrtc
  | rtpengine
deriving Repr

/-- The group that holds the sessions of a kind of transport. -/
def TransportKind.family : TransportKind → Family
  | .whip => .webrtc
  | .whep => .webrtc
  | .webrtc => .webrtc
  | .rtpengine => .rtpengine

def reqTransport {Conn : Type} : RpcReq Conn → TransportKind
  | .whip _ => .whip
  | .whep _ => .whep
  | .webrtc _ => .webrtc
  | .rtpEngine _ => .rtpengine

@[simp] theorem reqTransport_mapConn {Conn Conn' : Type} (f : Conn → Conn') (req : RpcReq Conn) :
    reqTransport (req.mapConn f) = reqTransport req := by
  rcases req with (_ | _ | _) | (_ | _ | _) | (_ | _ | _ | _) | (_ | _ | _ | _) <;> rfl

theorem family_of_restartIce {Conn : Type} {req : RpcReq Conn} (h : req.kind = .webrtcRestartIce) :
    (reqTransport req).family = .webrtc := by
  rcases req with (_ | _ | _) | (_ | _ | _) | (_ | _ | _ | _) | (_ | _ | _ | _) <;>
    first
    | rfl
    | cases h

def VariantParams.transport : VariantParams → TransportKind
  | .whip .. => .whip
  | .whep .. => .whep
  | .webrtc .. => .webrtc

/-! ### What a request does to the sessions of a worker -/

/-- The connection id in a response that tells one. -/
def resConn {Conn : Type} : RpcRes Conn → Option Conn
  | .whip (.connect (.ok (conn, _))) => some conn
  | .whep (.connect (.ok (conn, _))) => some conn
  | .webrtc (.connect (.ok (conn, _))) => some conn
  | .webrtc (.restartIce (.ok (conn, _))) => some conn
  | .rtpEngine (.createOffer (.ok (conn, _))) => some conn
  | .rtpEngine (.createAnswer (.ok (conn, _))) => some conn
  | _ => none

/-- The answer to a request, in the queue of the worker or of its WebRTC group, tells an index. -/
def Worker.Tells {Rtc Rtp : Type} (w : Worker Rtc Rtp) (reqId index : Nat) : Prop :=
  (∃ res, (reqId, res) ∈ w.queue ∧ resConn res = some index) ∨
    ∃ out res, (index, out) ∈ w.webrtc.queue ∧ outputWebrtc index out = (reqId, res) ∧
      resConn res = some index

/-- The ways of a request through a worker, as far as the sessions can tell. -/
inductive Worker.Handles {Rtc Rtp : Type} (media : Media Rtc Rtp) (hint reqId : Nat)
    (req : RpcReq Nat) (w w' : Worker Rtc Rtp) : Prop where
  /-- No session hears of it. -/
  | idle (hwebrtc : w'.webrtc.endpoints = w.webrtc.endpoints)
      (hrtp : w'.rtpengine.endpoints = w.rtpengine.endpoints)
  /-- The WebRTC session at the index does. -/
  | webrtc {conn : Nat} {session : Session Rtc WebrtcOut} {ext : WebrtcIn}
      (hconn : req.conn? = some conn) (hfamily : (reqTransport req).family = .webrtc)
      (hget : w.webrtc.endpoints.get conn = some session)
      (hwebrtc : w'.webrtc.endpoints = w.webrtc.endpoints.set conn (session.onWebrtc media ext))
      (hrtp : w'.rtpengine.endpoints = w.rtpengine.endpoints)
  /-- There is a new WebRTC session. -/
  | newWebrtc {app : AppContext} {remote : IpAddr} {params : VariantParams} {offer sdp : String}
      {rtc : Rtc} {sessionId : UInt64} (hnew : media.newRtc app remote params offer = .ok (rtc, sdp))
      (hparams : params.transport = reqTransport req)
      (hfor : ∀ conn, req.conn? = some conn →
        req.kind = .webrtcRestartIce ∧ w.webrtc.endpoints.get conn = none)
      (hwebrtc : w'.webrtc.endpoints = w.webrtc.endpoints.addTask hint ⟨sessionId, rtc, []⟩)
      (hrtp : w'.rtpengine.endpoints = w.rtpengine.endpoints)
      (htells : w'.Tells reqId (w.webrtc.endpoints.freeIndex hint))
  /-- The RTP session at the index does. -/
  | rtp {conn : Nat} {session : Session Rtp RtpOut} {ext : RtpIn}
      (hconn : req.conn? = some conn) (hfamily : (reqTransport req).family = .rtpengine)
      (hget : w.rtpengine.endpoints.get conn = some session)
      (hwebrtc : w'.webrtc.endpoints = w.webrtc.endpoints)
      (hrtp : w'.rtpengine.endpoints = w.rtpengine.endpoints.set conn (session.onRtp media ext))
  /-- There is a new RTP session. -/
  | newRtp {room : RoomId} {peer : PeerId} {offer : Option String} {sdp : String} {rtp : Rtp}
      {sessionId : UInt64}
      (hnew : (match offer with
        | some offer => media.newAnswer room peer offer
        | none => media.newOffer room peer) = .ok (rtp, sdp))
      (htransport : reqTransport req = .rtpengine) (hfor : req.conn? = none)
      (hwebrtc : w'.webrtc.endpoints = w.webrtc.endpoints)
      (hrtp : w'.rtpengine.endpoints = w.rtpengine.endpoints.addTask hint ⟨sessionId, rtp, []⟩)
      (htells : w'.Tells reqId (w.rtpengine.endpoints.freeIndex hint))

namespace Worker

variable {Rtc Rtp : Type} {media : Media Rtc Rtp}

theorem tells_answer {w : Worker Rtc Rtp} {reqId index : Nat} {res : RpcRes Nat}
    (hres : resConn res = some index) : (w.answer reqId res).Tells reqId index :=
  Or.inl ⟨res, List.mem_append_right _ (List.mem_singleton.mpr rfl), hres⟩

theorem handles_spawnWebrtc {w w₁ : Worker Rtc Rtp} {hint : Nat} {app : AppContext}
    {remote : IpAddr} {sessionId : UInt64} {params : VariantParams} {offer : String}
    {found : Except RpcError (Bool × String × Nat)}
    (hspawn : w.spawnWebrtc media hint app remote sessionId params offer = (found, w₁))
    {req : RpcReq Nat} (hparams : params.transport = reqTransport req) (hfor : req.conn? = none)
    {reqId : Nat} {res : RpcRes Nat}
    (hres : ∀ lite sdp index, found = .ok (lite, sdp, index) → resConn res = some index) :
    w.Handles media hint reqId req (w₁.answer reqId res) := by
  simp only [spawnWebrtc, WebrtcGroup.spawn] at hspawn
  cases hnew : media.newRtc app remote params offer with
  | error err =>
    rw [hnew] at hspawn
    cases hspawn
    exact .idle rfl rfl
  | ok made =>
    rw [hnew] at hspawn
    cases hspawn
    refine .newWebrtc hnew hparams (fun conn hconn => ?_) rfl rfl (tells_answer (hres _ _ _ rfl))
    rw [hfor] at hconn
    cases hconn

theorem handles_spawnRtp {w w₁ : Worker Rtc Rtp} {hint : Nat} {room : RoomId} {peer : PeerId}
    {sessionId : UInt64} {offer : Option String} {found : Except RpcError (Nat × String)}
    (hspawn : w.spawnRtp media hint room peer sessionId offer = (found, w₁)) {req : RpcReq Nat}
    (htransport : reqTransport req = .rtpengine) (hfor : req.conn? = none) {reqId : Nat}
    {res : RpcRes Nat} (hres : ∀ index sdp, found = .ok (index, sdp) → resConn res = some index) :
    w.Handles media hint reqId req (w₁.answer reqId res) := by
  simp only [spawnRtp, RtpGroup.spawn] at hspawn
  split at hspawn
  · cases hspawn
    exact .idle rfl rfl
  · rename_i rtp sdp hnew
    cases hspawn
    exact .newRtp hnew htransport hfor rfl rfl (tells_answer (hres _ _ rfl))

theorem handles_onWebrtc {w : Worker Rtc Rtp} {draw : Draw} {conn : Nat} {ext : WebrtcIn}
    {req : RpcReq Nat} (hconn : req.conn? = some conn)
    (hfamily : (reqTransport req).family = .webrtc)
    {reqId : Nat} (hrestart : ∀ reqId' variant ice, ext = .restartIce reqId' variant ice →
      reqId' = reqId ∧ req.kind = .webrtcRestartIce ∧ reqTransport req = .webrtc) :
    w.Handles media draw.hint reqId req (w.onWebrtc media draw conn ext) := by
  simp only [onWebrtc]
  cases hget : w.webrtc.endpoints.get conn with
  | some session =>
    have hset : (w.webrtc.onExt media draw conn ext).endpoints =
        w.webrtc.endpoints.set conn (session.onWebrtc media ext) := by
      simp only [WebrtcGroup.onExt, hget]
    exact .webrtc hconn hfamily hget hset rfl
  | none =>
    cases ext with
    | remoteIce _ variant ices =>
      refine .idle ?_ rfl
      simp only [WebrtcGroup.onExt, hget, WebrtcGroup.push]
    | disconnect _ variant =>
      refine .idle ?_ rfl
      simp only [WebrtcGroup.onExt, hget, WebrtcGroup.push]
    | restartIce reqId' variant ice =>
      obtain ⟨rfl, hkind, htransport⟩ := hrestart _ _ _ rfl
      simp only [WebrtcGroup.onExt, hget, WebrtcGroup.spawn]
      cases hnew : media.newRtc ice.app ice.ip
        (.webrtc ice.userAgent ice.req ice.extraData ice.record) ice.req.sdp with
      | error err => exact .idle rfl rfl
      | ok made =>
        refine .newWebrtc hnew htransport.symm (fun other hother => ?_) rfl rfl (Or.inr ?_)
        · rw [hconn, Option.some.injEq] at hother
          exact ⟨hkind, hother ▸ hget⟩
        · exact ⟨_, _, List.mem_append_right _ (List.mem_singleton.mpr rfl), rfl, rfl⟩

theorem handles_onRtp {w : Worker Rtc Rtp} {hint reqId conn : Nat} {ext : RtpIn} {req : RpcReq Nat}
    (hconn : req.conn? = some conn) (hfamily : (reqTransport req).family = .rtpengine) :
    w.Handles media hint reqId req (w.onRtp media conn ext) := by
  simp only [onRtp]
  cases hget : w.rtpengine.endpoints.get conn with
  | some session =>
    have hset : (w.rtpengine.onExt media conn ext).endpoints =
        w.rtpengine.endpoints.set conn (session.onRtp media ext) := by
      simp only [RtpGroup.onExt, hget]
    exact .rtp hconn hfamily hget rfl hset
  | none =>
    refine .idle rfl ?_
    simp only [RtpGroup.onExt, hget]

/-- **A request touches one session at most.** -/
theorem handles_processRpc (w : Worker Rtc Rtp) (draw : Draw) (reqId : Nat) (req : RpcReq Nat) :
    w.Handles media draw.hint reqId req (w.processRpc media draw reqId req) := by
  rcases req with (req | ⟨conn, ice⟩ | conn) | (req | ⟨conn, ice⟩ | conn) |
    (req | ⟨conn, candidates⟩ | ⟨conn, req⟩ | conn) | (req | req | ⟨conn, sdp⟩ | conn)
  case whep.connect | whip.connect | webrtc.connect =>
    rw [processRpc]
    split
    rename_i found w₁ hspawn
    refine handles_spawnWebrtc hspawn rfl rfl fun lite sdp index hfound => ?_
    rw [hfound]
    rfl
  case rtpEngine.createOffer | rtpEngine.createAnswer =>
    rw [processRpc]
    split
    rename_i found w₁ hspawn
    refine handles_spawnRtp hspawn rfl rfl fun index sdp hfound => ?_
    rw [hfound]
    rfl
  case rtpEngine.setAnswer | rtpEngine.delete => exact handles_onRtp rfl rfl
  case webrtc.restartIce =>
    refine handles_onWebrtc rfl rfl fun _ _ _ hext => ?_
    cases hext
    exact ⟨rfl, rfl, rfl⟩
  all_goals
    refine handles_onWebrtc rfl rfl fun _ _ _ hext => ?_
    cases hext

end Worker

/-! ### Stamps -/

/-- The number of a session and the kind of its transport. -/
structure Stamp where
  serial : Nat
  transport : TransportKind
deriving Repr

section Stamps

variable {Rtc Rtp State Out : Type}

/-- The media stacks with a stamp on what they make; they pass it on unread. -/
def Media.stamp (serial : Nat) (media : Media Rtc Rtp) : Media (Stamp × Rtc) (Stamp × Rtp) where
  iceLite := media.iceLite
  newRtc app remote params offer :=
    (media.newRtc app remote params offer).map fun made =>
      ((⟨serial, params.transport⟩, made.1), made.2)
  addCandidate rtc ice := (media.addCandidate rtc.2 ice).map fun rtc' => (rtc.1, rtc')
  isOffer := media.isOffer
  acceptOffer rtc sdp :=
    ((rtc.1, (media.acceptOffer rtc.2 sdp).1), (media.acceptOffer rtc.2 sdp).2)
  shutdownRtc rtc := (rtc.1, media.shutdownRtc rtc.2)
  newOffer room peer :=
    (media.newOffer room peer).map fun made => ((⟨serial, .rtpengine⟩, made.1), made.2)
  newAnswer room peer offer :=
    (media.newAnswer room peer offer).map fun made => ((⟨serial, .rtpengine⟩, made.1), made.2)
  setAnswer rtp sdp := (media.setAnswer rtp.2 sdp).map fun rtp' => (rtp.1, rtp')
  disconnectRtp rtp := (rtp.1, media.disconnectRtp rtp.2)

/-- What happens, with the stamp for a session that it may create. -/
def Act.stamp (serial : Nat) : Act Rtc Rtp → Act (Stamp × Rtc) (Stamp × Rtp)
  | .request req best => .request req best
  | .receive worker media draw => .receive worker (media.stamp serial) draw
  | .pop worker family turn => .pop worker family turn
  | .deliver => .deliver
  | .changeRtc worker turn change => .changeRtc worker turn fun rtc => (rtc.1, change rtc.2)
  | .changeRtp worker turn change => .changeRtp worker turn fun rtp => (rtp.1, change rtp.2)
  | .endRtc worker turn => .endRtc worker turn
  | .endRtp worker turn => .endRtp worker turn

theorem addCandidates_stamp (serial : Nat) (media : Media Rtc Rtp) (rtc : Stamp × Rtc)
    (count : UInt32) (ices : List String) :
    (Session.addCandidates (media.stamp serial) rtc count ices).1.1 = rtc.1 := by
  induction ices generalizing rtc count with
  | nil => rfl
  | cons ice rest ih =>
    rw [Session.addCandidates]
    split
    · rename_i rtc' hadd
      rw [ih]
      obtain ⟨new, -, rfl⟩ := Option.map_eq_some_iff.mp hadd
      rfl
    · exact ih ..

/-- A session keeps its stamp. -/
theorem onWebrtc_stamp (serial : Nat) (media : Media Rtc Rtp)
    (s : Session (Stamp × Rtc) WebrtcOut) (ext : WebrtcIn) :
    (s.onWebrtc (media.stamp serial) ext).state.1 = s.state.1 := by
  cases ext with
  | remoteIce reqId variant ices => exact addCandidates_stamp ..
  | restartIce reqId variant req =>
    rw [Session.onWebrtc]
    split
    · split
      · rename_i rtc answer haccept
        exact congrArg (fun found => found.1.1) haccept.symm
      · rename_i rtc haccept
        exact congrArg (fun found => found.1.1) haccept.symm
    · rfl
  | disconnect reqId variant => rfl

theorem onRtp_stamp (serial : Nat) (media : Media Rtc Rtp) (s : Session (Stamp × Rtp) RtpOut)
    (ext : RtpIn) : (s.onRtp (media.stamp serial) ext).state.1 = s.state.1 := by
  cases ext with
  | setAnswer reqId sdp =>
    rw [Session.onRtp]
    cases hset : media.setAnswer s.state.2 sdp with
    | ok rtp => simp [Media.stamp, hset, Except.map, Session.push]
    | error err => simp [Media.stamp, hset, Except.map, Session.push]
  | disconnect reqId => rfl

/-- A new session gets the stamp. -/
theorem newRtc_stamp {serial : Nat} {media : Media Rtc Rtp} {app : AppContext} {remote : IpAddr}
    {params : VariantParams} {offer sdp : String} {rtc : Stamp × Rtc}
    (h : (media.stamp serial).newRtc app remote params offer = .ok (rtc, sdp)) :
    rtc.1 = ⟨serial, params.transport⟩ := by
  simp only [Media.stamp] at h
  cases hnew : media.newRtc app remote params offer with
  | error err =>
    rw [hnew] at h
    cases h
  | ok made =>
    rw [hnew] at h
    cases h
    rfl

theorem newRtp_stamp {serial : Nat} {media : Media Rtc Rtp} {room : RoomId} {peer : PeerId}
    {offer : Option String} {sdp : String} {rtp : Stamp × Rtp}
    (h : (match offer with
      | some offer => (media.stamp serial).newAnswer room peer offer
      | none => (media.stamp serial).newOffer room peer) = .ok (rtp, sdp)) :
    rtp.1 = ⟨serial, .rtpengine⟩ := by
  have hmap : ∀ {made : Except String (Rtp × String)},
      made.map (fun made => (((⟨serial, .rtpengine⟩ : Stamp), made.1), made.2)) = .ok (rtp, sdp) →
      rtp.1 = ⟨serial, .rtpengine⟩ := by
    intro made hmade
    cases made with
    | error err => cases hmade
    | ok made =>
      cases hmade
      rfl
  cases offer with
  | some offer => exact hmap h
  | none => exact hmap h

end Stamps

/-! ### Places of a worker -/

namespace Worker

variable {Rtc Rtp : Type}

/-- The stamp of the session at a place. -/
def stampAt (w : Worker (Stamp × Rtc) (Stamp × Rtp)) : Family → Nat → Option Stamp
  | .webrtc, index => (w.webrtc.endpoints.get index).map fun session => session.state.1
  | .rtpengine, index => (w.rtpengine.endpoints.get index).map fun session => session.state.1

/-- The session at a place is what it was, or there is none as before. -/
def SameAt {Rtc Rtp : Type} (w w' : Worker Rtc Rtp) : Family → Nat → Prop
  | .webrtc, index => w'.webrtc.endpoints.get index = w.webrtc.endpoints.get index
  | .rtpengine, index => w'.rtpengine.endpoints.get index = w.rtpengine.endpoints.get index

/-- The places after a request: the same sessions, or one more, of which its client is told. -/
inductive Places (serial reqId : Nat) (transport : TransportKind)
    (w w' : Worker (Stamp × Rtc) (Stamp × Rtp)) : Prop where
  | kept (h : ∀ family index, w'.stampAt family index = w.stampAt family index)
  | born (index : Nat) (hfree : w.stampAt transport.family index = none)
      (h : ∀ family other, w'.stampAt family other =
        if family = transport.family ∧ other = index then some ⟨serial, transport⟩
        else w.stampAt family other) (htells : w'.Tells reqId index)

theorem stampAt_congr {w w' : Worker (Stamp × Rtc) (Stamp × Rtp)}
    (hwebrtc : ∀ index, w'.stampAt .webrtc index = w.stampAt .webrtc index)
    (hrtp : ∀ index, w'.stampAt .rtpengine index = w.stampAt .rtpengine index) :
    ∀ family index, w'.stampAt family index = w.stampAt family index := by
  intro family index
  cases family with
  | webrtc => exact hwebrtc index
  | rtpengine => exact hrtp index

theorem stamp_set {State Out : Type} {g : TaskGroup (Session (Stamp × State) Out)} {index : Nat}
    {session session' : Session (Stamp × State) Out} (hget : g.get index = some session)
    (hstamp : session'.state.1 = session.state.1) (other : Nat) :
    ((g.set index session').get other).map (fun s => s.state.1) =
      (g.get other).map fun s => s.state.1 := by
  rw [TaskGroup.get_set]
  split
  · rename_i heq
    rw [heq, hget, Option.map_some, Option.map_some, hstamp]
  · rfl

theorem stamp_addTask {State Out : Type} (g : TaskGroup (Session (Stamp × State) Out)) (hint : Nat)
    (sessionId : UInt64) (state : Stamp × State) (other : Nat) :
    ((g.addTask hint ⟨sessionId, state, []⟩).get other).map (fun s => s.state.1) =
      if other = g.freeIndex hint then some state.1 else (g.get other).map fun s => s.state.1 := by
  rw [TaskGroup.get_addTask]
  split
  · rfl
  · rfl

theorem places_processRpc (w : Worker (Stamp × Rtc) (Stamp × Rtp)) (media : Media Rtc Rtp)
    (serial : Nat) (draw : Draw) (reqId : Nat) (req : RpcReq Nat) :
    w.Places serial reqId (reqTransport req) (w.processRpc (media.stamp serial) draw reqId req) := by
  have hhandles : w.Handles (media.stamp serial) draw.hint reqId req _ :=
    handles_processRpc w draw reqId req
  cases hhandles with
  | idle hwebrtc hrtp =>
    refine .kept (stampAt_congr (fun index => ?_) fun index => ?_)
    · simp only [stampAt, hwebrtc]
    · simp only [stampAt, hrtp]
  | webrtc hconn hfamily hget hwebrtc hrtp =>
    refine .kept (stampAt_congr (fun index => ?_) fun index => ?_)
    · simp only [stampAt, hwebrtc]
      exact stamp_set hget (onWebrtc_stamp ..) index
    · simp only [stampAt, hrtp]
  | rtp hconn hfamily hget hwebrtc hrtp =>
    refine .kept (stampAt_congr (fun index => ?_) fun index => ?_)
    · simp only [stampAt, hwebrtc]
    · simp only [stampAt, hrtp]
      exact stamp_set hget (onRtp_stamp ..) index
  | newWebrtc hnew hparams hfor hwebrtc hrtp htells =>
    rename_i params offer sdp rtc sessionId
    have hstamp : rtc.1 = ⟨serial, reqTransport req⟩ := by
      rw [← hparams]
      exact newRtc_stamp hnew
    have hfamily : (reqTransport req).family = .webrtc := by
      rw [← hparams]
      cases params <;> rfl
    refine .born (w.webrtc.endpoints.freeIndex draw.hint) ?_ (fun family other => ?_) htells
    · simp only [hfamily, stampAt, TaskGroup.get_freeIndex, Option.map_none]
    · cases family with
      | webrtc => simp only [hfamily, stampAt, hwebrtc, stamp_addTask, hstamp, true_and]
      | rtpengine => simp [hfamily, stampAt, hrtp]
  | newRtp hnew htransport hfor hwebrtc hrtp htells =>
    have hstamp := newRtp_stamp hnew
    refine .born (w.rtpengine.endpoints.freeIndex draw.hint) ?_ (fun family other => ?_) htells
    · simp only [htransport, TransportKind.family, stampAt, TaskGroup.get_freeIndex,
        Option.map_none]
    · cases family with
      | webrtc => simp [htransport, TransportKind.family, stampAt, hwebrtc]
      | rtpengine =>
        simp only [htransport, TransportKind.family, stampAt, hrtp, stamp_addTask, hstamp,
          true_and]

/-- A session that a request touches is at the index that the request names, and a session
    that it creates is at a free place. -/
theorem touched_processRpc {w : Worker (Stamp × Rtc) (Stamp × Rtp)}
    {media : Media (Stamp × Rtc) (Stamp × Rtp)} {draw : Draw} {reqId : Nat} {req : RpcReq Nat}
    {family : Family} {index : Nat}
    (h : ¬ w.SameAt (w.processRpc media draw reqId req) family index) :
    (req.conn? = some index ∧ family = (reqTransport req).family ∧
      (w.stampAt family index).isSome) ∨
    (w.stampAt family index = none ∧ ∀ conn, req.conn? = some conn →
      req.kind = .webrtcRestartIce ∧ w.stampAt .webrtc conn = none) := by
  have hhandles : w.Handles media draw.hint reqId req _ := handles_processRpc w draw reqId req
  cases hhandles with
  | idle hwebrtc hrtp =>
    refine absurd ?_ h
    cases family with
    | webrtc => simp only [SameAt, hwebrtc]
    | rtpengine => simp only [SameAt, hrtp]
  | webrtc hconn hfamily hget hwebrtc hrtp =>
    rename_i conn session ext
    cases family with
    | webrtc =>
      by_cases hindex : index = conn
      · subst hindex
        exact Or.inl ⟨hconn, hfamily.symm, by simp [stampAt, hget]⟩
      · refine absurd ?_ h
        simp only [SameAt, hwebrtc, TaskGroup.get_set_ne _ _ hindex]
    | rtpengine =>
      refine absurd ?_ h
      simp only [SameAt, hrtp]
  | rtp hconn hfamily hget hwebrtc hrtp =>
    rename_i conn session ext
    cases family with
    | webrtc =>
      refine absurd ?_ h
      simp only [SameAt, hwebrtc]
    | rtpengine =>
      by_cases hindex : index = conn
      · subst hindex
        exact Or.inl ⟨hconn, hfamily.symm, by simp [stampAt, hget]⟩
      · refine absurd ?_ h
        simp only [SameAt, hrtp, TaskGroup.get_set_ne _ _ hindex]
  | newWebrtc hnew hparams hfor hwebrtc hrtp htells =>
    cases family with
    | webrtc =>
      by_cases hindex : index = w.webrtc.endpoints.freeIndex draw.hint
      · refine Or.inr ⟨?_, fun conn hconn => ?_⟩
        · rw [hindex, stampAt, TaskGroup.get_freeIndex]
          rfl
        · obtain ⟨hkind, hnone⟩ := hfor conn hconn
          exact ⟨hkind, by rw [stampAt, hnone]; rfl⟩
      · refine absurd ?_ h
        simp only [SameAt, hwebrtc, TaskGroup.get_addTask, if_neg hindex]
    | rtpengine =>
      refine absurd ?_ h
      simp only [SameAt, hrtp]
  | newRtp hnew htransport hfor hwebrtc hrtp htells =>
    cases family with
    | webrtc =>
      refine absurd ?_ h
      simp only [SameAt, hwebrtc]
    | rtpengine =>
      by_cases hindex : index = w.rtpengine.endpoints.freeIndex draw.hint
      · refine Or.inr ⟨?_, fun conn hconn => ?_⟩
        · rw [hindex, stampAt, TaskGroup.get_freeIndex]
          rfl
        · rw [hfor] at hconn
          cases hconn
      · refine absurd ?_ h
        simp only [SameAt, hrtp, TaskGroup.get_addTask, if_neg hindex]

/-- Every session after a step was there before, with its stamp. -/
def Shrinks (w w' : Worker (Stamp × Rtc) (Stamp × Rtp)) : Prop :=
  ∀ family index stamp, w'.stampAt family index = some stamp → w.stampAt family index = some stamp

theorem shrinks_of_eq {w w' : Worker (Stamp × Rtc) (Stamp × Rtp)}
    (h : ∀ family index, w'.stampAt family index = w.stampAt family index) : w.Shrinks w' := by
  intro family index stamp hstamp
  rwa [h] at hstamp

theorem stamp_popOutput {State Out : Type} {g : TaskGroup (Session (Stamp × State) Out)}
    {turn : Nat} {session session' : Session (Stamp × State) Out} {out : Out}
    (hget : g.get turn = some session) (hpop : session.popOutput = some (out, session'))
    (other : Nat) :
    ((g.set turn session').get other).map (fun s => s.state.1) =
      (g.get other).map fun s => s.state.1 := by
  refine stamp_set hget ?_ other
  rw [Session.popOutput] at hpop
  split at hpop
  · cases hpop
  · cases hpop
    rfl

theorem shrinks_popOutput {w w' : Worker (Stamp × Rtc) (Stamp × Rtp)} {family : Family}
    {turn : Nat} {out : Nat × RpcRes Nat} (h : w.popOutput family turn = some (out, w')) :
    w.Shrinks w' := by
  unfold popOutput at h
  split at h
  · cases h
    exact fun _ _ _ hstamp => hstamp
  · refine shrinks_of_eq ?_
    cases family with
    | webrtc =>
      simp only [Option.bind_eq_bind, Option.bind_eq_some_iff, Option.pure_def] at h
      obtain ⟨⟨⟨index, out'⟩, g'⟩, hpop, heq⟩ := h
      cases heq
      refine stampAt_congr (fun other => ?_) fun _ => rfl
      rw [WebrtcGroup.popOutput] at hpop
      split at hpop
      · cases hpop
        rfl
      · simp only [Option.bind_eq_bind, Option.bind_eq_some_iff, Option.pure_def] at hpop
        obtain ⟨session, hget, ⟨out'', session'⟩, hs, heq⟩ := hpop
        cases heq
        exact stamp_popOutput hget hs other
    | rtpengine =>
      simp only [Option.bind_eq_bind, Option.bind_eq_some_iff, Option.pure_def] at h
      obtain ⟨⟨⟨index, out'⟩, g'⟩, hpop, heq⟩ := h
      cases heq
      refine stampAt_congr (fun _ => rfl) fun other => ?_
      simp only [RtpGroup.popOutput, Option.bind_eq_bind, Option.bind_eq_some_iff,
        Option.pure_def] at hpop
      obtain ⟨session, hget, ⟨out'', session'⟩, hs, heq⟩ := hpop
      cases heq
      exact stamp_popOutput hget hs other

theorem stamp_changeSession {State Out : Type} {g g' : TaskGroup (Session (Stamp × State) Out)}
    {turn : Nat} {change : State → State}
    (h : changeSession g turn (fun state => (state.1, change state.2)) = some g') (other : Nat) :
    (g'.get other).map (fun s => s.state.1) = (g.get other).map fun s => s.state.1 := by
  simp only [changeSession, Option.bind_eq_bind, Option.bind_eq_some_iff, Option.pure_def] at h
  obtain ⟨session, hget, heq⟩ := h
  cases heq
  refine stamp_set hget ?_ other
  rfl

theorem shrinks_changeRtc {w w' : Worker (Stamp × Rtc) (Stamp × Rtp)} {turn : Nat}
    {change : Rtc → Rtc} (h : w.changeRtc turn (fun rtc => (rtc.1, change rtc.2)) = some w') :
    w.Shrinks w' := by
  obtain ⟨endpoints, hchange, heq⟩ := Option.bind_eq_some_iff.mp h
  cases heq
  exact shrinks_of_eq (stampAt_congr (stamp_changeSession hchange) fun _ => rfl)

theorem shrinks_changeRtp {w w' : Worker (Stamp × Rtc) (Stamp × Rtp)} {turn : Nat}
    {change : Rtp → Rtp} (h : w.changeRtp turn (fun rtp => (rtp.1, change rtp.2)) = some w') :
    w.Shrinks w' := by
  obtain ⟨endpoints, hchange, heq⟩ := Option.bind_eq_some_iff.mp h
  cases heq
  exact shrinks_of_eq (stampAt_congr (fun _ => rfl) (stamp_changeSession hchange))

theorem stamp_endSession {State Out : Type} {g g' : TaskGroup (Session (Stamp × State) Out)}
    {turn : Nat} (h : endSession g turn = some g') {other : Nat} {stamp : Stamp}
    (hstamp : (g'.get other).map (fun s => s.state.1) = some stamp) :
    (g.get other).map (fun s => s.state.1) = some stamp := by
  simp only [endSession, Option.bind_eq_bind, Option.bind_eq_some_iff] at h
  obtain ⟨session, hget, hend⟩ := h
  split at hend
  · cases hend
    have hgone : (⟨g.tasks.swapRemove turn⟩ : TaskGroup (Session (Stamp × State) Out)).get other =
        if other = turn then none else g.get other := IndexMap.get_swapRemove ..
    rw [hgone] at hstamp
    split at hstamp
    · cases hstamp
    · exact hstamp
  · cases hend

theorem shrinks_endRtc {w w' : Worker (Stamp × Rtc) (Stamp × Rtp)} {turn : Nat}
    (h : w.endRtc turn = some w') : w.Shrinks w' := by
  obtain ⟨endpoints, hend, heq⟩ := Option.bind_eq_some_iff.mp h
  cases heq
  intro family index stamp hstamp
  cases family with
  | webrtc => exact stamp_endSession hend hstamp
  | rtpengine => exact hstamp

theorem shrinks_endRtp {w w' : Worker (Stamp × Rtc) (Stamp × Rtp)} {turn : Nat}
    (h : w.endRtp turn = some w') : w.Shrinks w' := by
  obtain ⟨endpoints, hend, heq⟩ := Option.bind_eq_some_iff.mp h
  cases heq
  intro family index stamp hstamp
  cases family with
  | webrtc => exact hstamp
  | rtpengine => exact stamp_endSession hend hstamp

end Worker

/-! ### Places of a node -/

namespace Node

section Places

variable {Rtc Rtp : Type}

/-- The stamp of the session at a place of a worker. -/
def stampAt (n : Node (Stamp × Rtc) (Stamp × Rtp)) (worker : Nat) (family : Family) (index : Nat) :
    Option Stamp := do
  let cell ← n.cells[worker]?
  cell.worker.stampAt family index

/-- The connection id of a place. -/
def connAt (n : Node Rtc Rtp) (worker index : Nat) : ClusterConnId :=
  ⟨n.nodeId, n.nodeSession, ⟨UInt16.ofNat worker, index⟩⟩

def inboxOf (n : Node Rtc Rtp) (worker : Nat) : List (Nat × RpcReq Nat) :=
  (n.cells[worker]?.map Cell.inbox).getD []

/-- The request as its worker gets it. -/
def forWorker (req : RpcReq ClusterConnId) : RpcReq Nat :=
  ((req.down ClusterConnId.down).1.down ServerConnId.down).1

theorem conn?_forWorker (req : RpcReq ClusterConnId) :
    (forWorker req).conn? = req.conn?.map fun conn => conn.serverConn.index := by
  simp only [forWorker, RpcReq.down, RpcReq.conn?_mapConn, Option.map_map]
  rfl

theorem kind_forWorker (req : RpcReq ClusterConnId) : (forWorker req).kind = req.kind := by
  simp only [forWorker, RpcReq.down, RpcReq.kind_mapConn]

theorem transport_forWorker (req : RpcReq ClusterConnId) :
    reqTransport (forWorker req) = reqTransport req := by
  simp only [forWorker, RpcReq.down, reqTransport_mapConn]

theorem stampAt_of_get {n : Node (Stamp × Rtc) (Stamp × Rtp)} {worker : Nat}
    {cell : Cell (Stamp × Rtc) (Stamp × Rtp)} (hget : n.cells[worker]? = some cell)
    (family : Family) (index : Nat) :
    n.stampAt worker family index = cell.worker.stampAt family index := by
  rw [stampAt, hget]
  rfl

/-- What a step that is not a request does to the workers: one of them loses sessions, or gains
    one, and takes nothing new into its inbox. -/
structure Moved (serial : Nat) (n n' : Node (Stamp × Rtc) (Stamp × Rtp)) : Prop where
  length : n'.cells.length = n.cells.length
  inbox : ∀ worker, ∀ ext ∈ n'.inboxOf worker, ext ∈ n.inboxOf worker
  places : (∀ worker family index stamp, n'.stampAt worker family index = some stamp →
      n.stampAt worker family index = some stamp) ∨
    ∃ worker index transport, worker < n.cells.length ∧
      n.stampAt worker transport.family index = none ∧
      ∀ worker' family' index', n'.stampAt worker' family' index' =
        if worker' = worker ∧ family' = transport.family ∧ index' = index then
          some ⟨serial, transport⟩
        else n.stampAt worker' family' index'

theorem getElem?_set_of_get {Value : Type} {values : List Value} {i : Nat} {value : Value}
    (hget : values[i]? = some value) (value' : Value) (j : Nat) :
    (values.set i value')[j]? = if j = i then some value' else values[j]? := by
  obtain ⟨hlt, -⟩ := List.getElem?_eq_some_iff.mp hget
  rw [List.getElem?_set]
  by_cases hj : i = j
  · subst hj
    simp [hlt]
  · have hj' : ¬ j = i := fun heq => hj heq.symm
    rw [if_neg hj, if_neg hj']

theorem cases_of_set {Value : Type} {values : List Value} {i j : Nat} {value value' found : Value}
    (hget : values[i]? = some value) (hfound : (values.set i value')[j]? = some found) :
    (j = i ∧ found = value') ∨ (j ≠ i ∧ values[j]? = some found) := by
  rw [getElem?_set_of_get hget] at hfound
  split at hfound
  · rename_i hj
    cases hfound
    exact Or.inl ⟨hj, rfl⟩
  · rename_i hj
    exact Or.inr ⟨hj, hfound⟩

/-- A step of one worker moves the node. -/
theorem moved_set {serial : Nat} {n n' : Node (Stamp × Rtc) (Stamp × Rtp)} {worker : Nat}
    {cell cell' : Cell (Stamp × Rtc) (Stamp × Rtp)} (hget : n.cells[worker]? = some cell)
    (hcells : n'.cells = n.cells.set worker cell') (hinbox : ∀ ext ∈ cell'.inbox, ext ∈ cell.inbox)
    (hworker : cell.worker.Shrinks cell'.worker ∨
      ∃ reqId transport, cell.worker.Places serial reqId transport cell'.worker) :
    n.Moved serial n' where
  length := by rw [hcells, List.length_set]
  inbox := by
    intro worker' ext hext
    rw [inboxOf, hcells, getElem?_set_of_get hget] at hext
    split at hext
    · rename_i heq
      subst heq
      rw [inboxOf, hget]
      exact hinbox ext hext
    · exact hext
  places := by
    have hstamp : ∀ worker' family index, n'.stampAt worker' family index =
        if worker' = worker then cell'.worker.stampAt family index
        else n.stampAt worker' family index := by
      intro worker' family index
      rw [stampAt, hcells, getElem?_set_of_get hget]
      split
      · rfl
      · rfl
    have hshrinks : cell.worker.Shrinks cell'.worker →
        ∀ worker' family index stamp, n'.stampAt worker' family index = some stamp →
          n.stampAt worker' family index = some stamp := by
      intro hshrinks worker' family index stamp hsome
      rw [hstamp] at hsome
      split at hsome
      · rename_i heq
        rw [heq, stampAt_of_get hget]
        exact hshrinks family index stamp hsome
      · exact hsome
    rcases hworker with hless | ⟨reqId, transport, hkept | ⟨index, hfree, hborn, -⟩⟩
    · exact Or.inl (hshrinks hless)
    · exact Or.inl (hshrinks (Worker.shrinks_of_eq hkept))
    · obtain ⟨hlt, -⟩ := List.getElem?_eq_some_iff.mp hget
      refine Or.inr ⟨worker, index, transport, hlt, ?_, fun worker' family' index' => ?_⟩
      · rw [stampAt_of_get hget]
        exact hfree
      · rw [hstamp]
        by_cases heq : worker' = worker
        · rw [if_pos heq, hborn, heq, stampAt_of_get hget]
          simp only [true_and]
        · rw [if_neg heq, if_neg (fun hand => heq hand.1)]

theorem moved_receive {serial : Nat} {n n' : Node (Stamp × Rtc) (Stamp × Rtp)} {worker : Nat}
    {media : Media Rtc Rtp} {draw : Draw}
    (h : n.receive worker (media.stamp serial) draw = some n') : n.Moved serial n' := by
  simp only [receive, Option.bind_eq_bind, Option.bind_eq_some_iff] at h
  obtain ⟨cell, hget, h⟩ := h
  split at h
  · cases h
  · rename_i reqId req rest hinbox
    cases h
    refine moved_set hget rfl (fun ext hext => ?_) (Or.inr ⟨_, _, cell.worker.places_processRpc ..⟩)
    rw [hinbox]
    exact List.mem_cons_of_mem _ hext

theorem moved_pop {serial : Nat} {n n' : Node (Stamp × Rtc) (Stamp × Rtp)} {worker : Nat}
    {family : Family} {turn : Nat} (h : n.pop worker family turn = some n') :
    n.Moved serial n' := by
  simp only [pop, Option.bind_eq_bind, Option.bind_eq_some_iff] at h
  obtain ⟨cell, hget, ⟨⟨reqId, res⟩, w⟩, hpop, heq⟩ := h
  cases heq
  exact moved_set hget rfl (fun _ hext => hext) (Or.inl (Worker.shrinks_popOutput hpop))

theorem moved_onWorker {serial : Nat} {n n' : Node (Stamp × Rtc) (Stamp × Rtp)} {worker : Nat}
    {change : Worker (Stamp × Rtc) (Stamp × Rtp) → Option (Worker (Stamp × Rtc) (Stamp × Rtp))}
    (hchange : ∀ w w', change w = some w' → w.Shrinks w')
    (h : n.onWorker worker change = some n') : n.Moved serial n' := by
  simp only [onWorker, Option.bind_eq_bind, Option.bind_eq_some_iff] at h
  obtain ⟨cell, hget, w, hw, heq⟩ := h
  cases heq
  exact moved_set hget rfl (fun _ hext => hext) (Or.inl (hchange _ _ hw))

/-- A request that is sent to a worker waits there, and nothing else changes. -/
theorem sendTo_places (n : Node (Stamp × Rtc) (Stamp × Rtp)) (worker : Nat)
    (ext : Nat × RpcReq Nat) (worker' : Nat) :
    (∀ family index, (n.sendTo worker ext).stampAt worker' family index =
      n.stampAt worker' family index) ∧
    ∀ other ∈ (n.sendTo worker ext).inboxOf worker',
      other ∈ n.inboxOf worker' ∨ (other = ext ∧ worker' = worker) := by
  simp only [stampAt, inboxOf, sendTo, List.getElem?_modify]
  cases hget : n.cells[worker']? with
  | none => simp
  | some cell =>
    by_cases heq : worker = worker'
    · simp [heq]
    · refine ⟨by simp [heq], fun other hother => Or.inl ?_⟩
      simpa [heq] using hother

/-- A request that comes in waits at the worker that its id names. -/
theorem dispatch_places (n : Node (Stamp × Rtc) (Stamp × Rtp)) (best : Nat)
    (req : RpcReq ClusterConnId) (worker : Nat) :
    (∀ family index, (n.dispatch best req).stampAt worker family index =
      n.stampAt worker family index) ∧
    ∀ ext ∈ (n.dispatch best req).inboxOf worker, ext ∈ n.inboxOf worker ∨
      (ext = (n.reqIdSeed, forWorker req) ∧
        ∀ conn, req.conn? = some conn → conn.serverConn.worker.toNat = worker) := by
  simp only [dispatch, RpcReq.down, RpcReq.conn?_mapConn]
  cases hconn : req.conn? with
  | none =>
    obtain ⟨hstamp, hinbox⟩ := sendTo_places { n with
      reqIdSeed := n.reqIdSeed + 1, reqs := n.reqs ++ [n.reqIdSeed] } best
      (n.reqIdSeed, forWorker req) worker
    refine ⟨hstamp, fun ext hext => ?_⟩
    rcases hinbox ext hext with hold | ⟨hnew, -⟩
    · exact Or.inl hold
    · refine Or.inr ⟨hnew, fun conn hsome => ?_⟩
      cases hsome
  | some conn =>
    simp only [Option.map_some, ClusterConnId.down, ServerConnId.down]
    split
    · obtain ⟨hstamp, hinbox⟩ := sendTo_places { n with
        reqIdSeed := n.reqIdSeed + 1, reqs := n.reqs ++ [n.reqIdSeed] }
        conn.serverConn.worker.toNat (n.reqIdSeed, forWorker req) worker
      refine ⟨hstamp, fun ext hext => ?_⟩
      rcases hinbox ext hext with hold | ⟨hnew, hworker⟩
      · exact Or.inl hold
      · refine Or.inr ⟨hnew, fun conn' hsome => ?_⟩
        cases hsome
        exact hworker.symm
    · exact ⟨fun _ _ => rfl, fun ext hext => Or.inl hext⟩

theorem dispatch_frame (n : Node Rtc Rtp) (best : Nat) (req : RpcReq ClusterConnId) :
    (n.dispatch best req).nodeId = n.nodeId ∧
      (n.dispatch best req).nodeSession = n.nodeSession ∧
      (n.dispatch best req).cells.length = n.cells.length ∧
      (n.dispatch best req).reqIdSeed = n.reqIdSeed + 1 := by
  simp only [dispatch, sendTo]
  split
  · split <;> simp
  · simp

theorem step_frame {n n' : Node Rtc Rtp} {act : Act Rtc Rtp}
    {answer : Option (Nat × RpcRes ClusterConnId)} (h : n.step act = some (n', answer)) :
    n'.nodeId = n.nodeId ∧ n'.nodeSession = n.nodeSession ∧
      n'.reqIdSeed = n.reqIdSeed + act.asks.toList.length := by
  have honWorker : ∀ {worker : Nat} {change : Worker Rtc Rtp → Option (Worker Rtc Rtp)},
      n.onWorker worker change = some n' →
      n'.nodeId = n.nodeId ∧ n'.nodeSession = n.nodeSession ∧ n'.reqIdSeed = n.reqIdSeed + 0 := by
    intro worker change hchange
    simp only [onWorker, Option.bind_eq_bind, Option.bind_eq_some_iff] at hchange
    obtain ⟨cell, hget, w, hw, heq⟩ := hchange
    cases heq
    exact ⟨rfl, rfl, rfl⟩
  cases act with
  | request req best =>
    simp only [step] at h
    split at h
    · cases h
      obtain ⟨hid, hsession, -, hseed⟩ := n.dispatch_frame best req
      exact ⟨hid, hsession, hseed⟩
    · cases h
  | receive worker media draw =>
    have hmoved := (silent_eq_some h).1
    simp only [receive, Option.bind_eq_bind, Option.bind_eq_some_iff] at hmoved
    obtain ⟨cell, hget, hmoved⟩ := hmoved
    split at hmoved
    · cases hmoved
    · cases hmoved
      exact ⟨rfl, rfl, rfl⟩
  | pop worker family turn =>
    have hmoved := (silent_eq_some h).1
    simp only [pop, Option.bind_eq_bind, Option.bind_eq_some_iff] at hmoved
    obtain ⟨cell, hget, found, hpop, heq⟩ := hmoved
    cases heq
    exact ⟨rfl, rfl, rfl⟩
  | deliver =>
    simp only [step, deliver] at h
    split at h
    · cases h
    · split at h
      · cases h
        exact ⟨rfl, rfl, rfl⟩
      · cases h
        exact ⟨rfl, rfl, rfl⟩
  | changeRtc worker turn change => exact honWorker (silent_eq_some h).1
  | changeRtp worker turn change => exact honWorker (silent_eq_some h).1
  | endRtc worker turn => exact honWorker (silent_eq_some h).1
  | endRtp worker turn => exact honWorker (silent_eq_some h).1

/-- A step of a node is a request that comes in, or it moves the sessions of one worker. -/
theorem step_moved {serial : Nat} {n n' : Node (Stamp × Rtc) (Stamp × Rtp)} {act : Act Rtc Rtp}
    {answer : Option (Nat × RpcRes ClusterConnId)}
    (h : n.step (act.stamp serial) = some (n', answer)) :
    (∃ req best, act = .request req best ∧ n' = n.dispatch best req) ∨
      (act.asks = none ∧ n.Moved serial n') := by
  cases act with
  | request req best =>
    simp only [step, Act.stamp] at h
    split at h
    · cases h
      exact Or.inl ⟨req, best, rfl, rfl⟩
    · cases h
  | receive worker media draw => exact Or.inr ⟨rfl, moved_receive (silent_eq_some h).1⟩
  | pop worker family turn => exact Or.inr ⟨rfl, moved_pop (silent_eq_some h).1⟩
  | deliver =>
    refine Or.inr ⟨rfl, ?_⟩
    have hcells : n'.cells = n.cells := by
      simp only [step, Act.stamp, deliver] at h
      split at h
      · cases h
      · split at h
        · cases h
          rfl
        · cases h
          rfl
    refine ⟨by rw [hcells], fun worker ext hext => ?_, Or.inl fun worker family index stamp => ?_⟩
    · rwa [inboxOf, hcells] at hext
    · rw [stampAt, stampAt, hcells]
      exact id
  | changeRtc worker turn change =>
    exact Or.inr ⟨rfl, moved_onWorker (fun _ _ => Worker.shrinks_changeRtc) (silent_eq_some h).1⟩
  | changeRtp worker turn change =>
    exact Or.inr ⟨rfl, moved_onWorker (fun _ _ => Worker.shrinks_changeRtp) (silent_eq_some h).1⟩
  | endRtc worker turn =>
    exact Or.inr ⟨rfl, moved_onWorker (fun _ _ => Worker.shrinks_endRtc) (silent_eq_some h).1⟩
  | endRtp worker turn =>
    exact Or.inr ⟨rfl, moved_onWorker (fun _ _ => Worker.shrinks_endRtp) (silent_eq_some h).1⟩

/-- The places that are taken. -/
def places (n : Node (Stamp × Rtc) (Stamp × Rtp)) : List (Nat × Family × Nat) :=
  (List.range n.cells.length).flatMap fun worker =>
    match n.cells[worker]? with
    | none => []
    | some cell =>
      cell.worker.webrtc.endpoints.indexes.map (fun index => (worker, .webrtc, index)) ++
        cell.worker.rtpengine.endpoints.indexes.map fun index => (worker, .rtpengine, index)

theorem mem_places {n : Node (Stamp × Rtc) (Stamp × Rtp)} {worker : Nat} {family : Family}
    {index : Nat} {stamp : Stamp} (h : n.stampAt worker family index = some stamp) :
    (worker, family, index) ∈ n.places := by
  obtain ⟨cell, hget, hstamp⟩ := Option.bind_eq_some_iff.mp h
  obtain ⟨hlt, -⟩ := List.getElem?_eq_some_iff.mp hget
  rw [places, List.mem_flatMap]
  refine ⟨worker, List.mem_range.mpr hlt, ?_⟩
  rw [hget]
  cases family with
  | webrtc =>
    obtain ⟨session, hsession, -⟩ := Option.map_eq_some_iff.mp hstamp
    exact List.mem_append_left _
      (List.mem_map_of_mem (TaskGroup.mem_indexes_iff.mpr ⟨session, hsession⟩))
  | rtpengine =>
    obtain ⟨session, hsession, -⟩ := Option.map_eq_some_iff.mp hstamp
    exact List.mem_append_right _
      (List.mem_map_of_mem (TaskGroup.mem_indexes_iff.mpr ⟨session, hsession⟩))

end Places

end Node

/-! ### The world -/

/-- The id that was issued for a session, and the kind of its transport. -/
structure Birth where
  conn : ClusterConnId
  transport : TransportKind
deriving Repr

/-- A node with the requests it got, and for each the session that its sender means. -/
structure Host (Rtc Rtp : Type) where
  node : Node (Stamp × Rtc) (Stamp × Rtp)
  asked : List (RpcReq ClusterConnId × Option Nat)

/-- The nodes, the sessions that were ever created, and the runs of nodes that there were. -/
structure World (Rtc Rtp : Type) where
  hosts : List (Host Rtc Rtp)
  births : List Birth
  runs : List (NodeId × UInt64)

/-- What happens in the world; a node that starts again is in a new run. -/
inductive Event (Rtc Rtp : Type) where
  | boot (nodeId : NodeId) (nodeSession : UInt64) (workers : Nat)
  | restart (host : Nat) (nodeSession : UInt64) (workers : Nat)
  | act (host : Nat) (act : Act Rtc Rtp) (meant : Option Nat)

/-- The session that a step created, as its client learns of it. -/
def Node.newborn {Rtc Rtp : Type} (n : Node (Stamp × Rtc) (Stamp × Rtp)) (serial : Nat) :
    Option Birth := do
  let (worker, family, index) ← n.places.find? fun place =>
    (n.stampAt place.1 place.2.1 place.2.2).any fun stamp => stamp.serial = serial
  let stamp ← n.stampAt worker family index
  return ⟨n.connAt worker index, stamp.transport⟩

namespace World

variable {Rtc Rtp : Type}

def start : World Rtc Rtp := ⟨[], [], []⟩

/-- The sender of a request means a session for which its id was issued; if there is none, it
    means nobody's. -/
def Means (w : World Rtc Rtp) (req : RpcReq ClusterConnId) (meant : Option Nat) : Prop :=
  match req.conn?, meant with
  | none, none => True
  | none, some _ => False
  | some conn, some serial => w.births[serial]?.map Birth.conn = some conn
  | some conn, none => ∀ birth ∈ w.births, birth.conn ≠ conn

instance (w : World Rtc Rtp) (req : RpcReq ClusterConnId) (meant : Option Nat) :
    Decidable (w.Means req meant) := by
  unfold Means
  split <;> infer_instance

/-- Workers are numbered with 16 bits. -/
def workersMax : Nat := 2 ^ 16

def step (w : World Rtc Rtp) : Event Rtc Rtp → Option (World Rtc Rtp)
  | .boot nodeId nodeSession workers =>
    if (nodeId, nodeSession) ∉ w.runs ∧ workers ≤ workersMax then
      some { w with
        hosts := w.hosts ++ [⟨.start nodeId nodeSession workers, []⟩]
        runs := w.runs ++ [(nodeId, nodeSession)] }
    else none
  | .restart host nodeSession workers => do
    let h ← w.hosts[host]?
    if (h.node.nodeId, nodeSession) ∉ w.runs ∧ workers ≤ workersMax then
      some { w with
        hosts := w.hosts.set host ⟨.start h.node.nodeId nodeSession workers, []⟩
        runs := w.runs ++ [(h.node.nodeId, nodeSession)] }
    else none
  | .act host act meant => do
    let h ← w.hosts[host]?
    if ∀ req ∈ act.asks, w.Means req meant then
      let (node, _) ← h.node.step (act.stamp w.births.length)
      some { w with
        hosts := w.hosts.set host ⟨node, h.asked ++ act.asks.toList.map (·, meant)⟩
        births := w.births ++ (node.newborn w.births.length).toList }
    else none

/-- The worker of a host. -/
def worker? (w : World Rtc Rtp) (host worker : Nat) : Option (Worker (Stamp × Rtc) (Stamp × Rtp)) := do
  let h ← w.hosts[host]?
  let cell ← h.node.cells[worker]?
  return cell.worker

/-- The session of a number is alive. -/
def Alive (w : World Rtc Rtp) (serial : Nat) : Prop :=
  ∃ h ∈ w.hosts, ∃ worker family index stamp,
    h.node.stampAt worker family index = some stamp ∧ stamp.serial = serial

/-- A worker of the world is about to handle a request that carries a connection id. -/
structure Handles (w : World Rtc Rtp) (host worker : Nat) (h : Host Rtc Rtp)
    (req : RpcReq ClusterConnId) (meant : Option Nat) (conn : ClusterConnId) : Prop where
  host : w.hosts[host]? = some h
  next : ∃ reqId ext rest, h.node.inboxOf worker = (reqId, ext) :: rest ∧
    h.asked[reqId]? = some (req, meant)
  conn : req.conn? = some conn

/-- The id has not been issued again in the group of sessions that this one was in. -/
def NotReissued (w : World Rtc Rtp) (serial : Nat) (conn : ClusterConnId) (family : Family) : Prop :=
  ∀ later birth, serial < later → w.births[later]? = some birth → birth.conn = conn →
    birth.transport.family ≠ family

/-- The id of the next request leads where it should.  Either there is no session at its place,
    and a restart is not for one that is alive elsewhere; or it is an id of this run of the node,
    used for the transport it was issued for, and not issued again. -/
def Meets (w : World Rtc Rtp) : Event Rtc Rtp → Prop
  | .act host (.receive worker _ _) _ => ∀ h req meant conn, w.Handles host worker h req meant conn →
      (h.node.stampAt worker (reqTransport req).family conn.serverConn.index = none ∧
        (req.kind = .webrtcRestartIce → ∀ serial, meant = some serial → ¬ w.Alive serial)) ∨
      ∃ serial, meant = some serial ∧
        conn.node = h.node.nodeId ∧ conn.nodeSession = h.node.nodeSession ∧
        w.births[serial]?.map Birth.transport = some (reqTransport req) ∧
        w.NotReissued serial conn (reqTransport req).family
  | _ => True

/-- A request with an id changes no session but the one it means, which is alive and for which
    exactly this id was issued with this kind of transport; or it is a restart that creates a
    session because the one it means is gone. -/
def Isolated (w : World Rtc Rtp) (event : Event Rtc Rtp) (w' : World Rtc Rtp) : Prop :=
  match event with
  | .act host (.receive worker _ _) _ =>
    ∀ h req meant conn, w.Handles host worker h req meant conn →
      ∀ host' worker' family index a b, w.worker? host' worker' = some a →
        w'.worker? host' worker' = some b → ¬ a.SameAt b family index →
        (∃ stamp, a.stampAt family index = some stamp ∧ meant = some stamp.serial ∧
          w.births[stamp.serial]? = some ⟨conn, reqTransport req⟩) ∨
        (a.stampAt family index = none ∧ req.kind = .webrtcRestartIce ∧
          ∀ serial, meant = some serial → ¬ w.Alive serial)
  | _ => True

/-! ### What the births say about the places -/

/-- The last birth at a place is that of the session that is there. -/
structure Registered (births : List Birth) (h : Host Rtc Rtp) : Prop where
  workers : h.node.cells.length ≤ workersMax
  seed : h.node.reqIdSeed = h.asked.length
  inbox : ∀ worker reqId ext, (reqId, ext) ∈ h.node.inboxOf worker →
    ∃ req meant, h.asked[reqId]? = some (req, meant) ∧ ext = Node.forWorker req ∧
      ∀ conn, req.conn? = some conn → conn.serverConn.worker.toNat = worker
  meant : ∀ req serial conn, (req, some serial) ∈ h.asked → req.conn? = some conn →
    births[serial]?.map Birth.conn = some conn
  live : ∀ worker family index stamp, h.node.stampAt worker family index = some stamp →
    births[stamp.serial]? = some ⟨h.node.connAt worker index, stamp.transport⟩ ∧
      stamp.transport.family = family ∧
      ∀ later birth, stamp.serial < later → births[later]? = some birth →
        birth.conn = h.node.connAt worker index → birth.transport.family ≠ family

structure Sound (w : World Rtc Rtp) : Prop where
  born : ∀ birth ∈ w.births, (birth.conn.node, birth.conn.nodeSession) ∈ w.runs
  running : ∀ h ∈ w.hosts, (h.node.nodeId, h.node.nodeSession) ∈ w.runs
  apart : ∀ (i j : Nat) h h', w.hosts[i]? = some h → w.hosts[j]? = some h' →
    h.node.nodeId = h'.node.nodeId → h.node.nodeSession = h'.node.nodeSession → i = j
  hosts : ∀ h ∈ w.hosts, Registered w.births h

theorem Sound.start : (start : World Rtc Rtp).Sound where
  born _ hmem := by cases hmem
  running _ hmem := by cases hmem
  apart _ _ _ _ hget := by cases hget
  hosts _ hmem := by cases hmem

/-- A node that has just started has no sessions. -/
theorem registered_start (births : List Birth) (nodeId : NodeId) (nodeSession : UInt64)
    {workers : Nat} (hworkers : workers ≤ workersMax) :
    Registered births (⟨.start nodeId nodeSession workers, []⟩ : Host Rtc Rtp) := by
  have hcell : ∀ (worker : Nat) (cell : Cell (Stamp × Rtc) (Stamp × Rtp)),
      (Node.start nodeId nodeSession workers : Node (Stamp × Rtc) (Stamp × Rtp)).cells[worker]? =
        some cell → cell = ⟨[], .new⟩ := by
    intro worker cell hget
    exact List.eq_of_mem_replicate (List.mem_of_getElem? hget)
  refine ⟨?_, rfl, ?_, ?_, ?_⟩
  · simpa [Node.start] using hworkers
  · intro worker reqId ext hmem
    rw [Node.inboxOf] at hmem
    cases hget : (Node.start nodeId nodeSession workers :
        Node (Stamp × Rtc) (Stamp × Rtp)).cells[worker]? with
    | none =>
      rw [hget] at hmem
      cases hmem
    | some cell =>
      rw [hget, hcell worker cell hget] at hmem
      cases hmem
  · intro req serial conn hmem
    cases hmem
  · intro worker family index stamp hstamp
    obtain ⟨cell, hget, hstamp⟩ := Option.bind_eq_some_iff.mp hstamp
    rw [hcell worker cell hget] at hstamp
    cases family with
    | webrtc => cases hstamp
    | rtpengine => cases hstamp

/-- A birth elsewhere does not matter to a host. -/
theorem Registered.append {births : List Birth} {h : Host Rtc Rtp} (hreg : Registered births h)
    {birth : Birth} (helse : ∀ worker index stamp family,
      h.node.stampAt worker family index = some stamp →
      birth.conn = h.node.connAt worker index → birth.transport.family ≠ family) :
    Registered (births ++ [birth]) h where
  workers := hreg.workers
  seed := hreg.seed
  inbox := hreg.inbox
  meant := by
    intro req serial conn hmem hconn
    have hold := hreg.meant req serial conn hmem hconn
    obtain ⟨b, hb, -⟩ := Option.map_eq_some_iff.mp hold
    obtain ⟨hlt, -⟩ := List.getElem?_eq_some_iff.mp hb
    rwa [List.getElem?_append_left hlt]
  live := by
    intro worker family index stamp hstamp
    obtain ⟨hbirth, hfamily, hlast⟩ := hreg.live worker family index stamp hstamp
    obtain ⟨hlt, -⟩ := List.getElem?_eq_some_iff.mp hbirth
    refine ⟨by rwa [List.getElem?_append_left hlt], hfamily, fun later b hlater hb hconn => ?_⟩
    rcases Nat.lt_or_ge later births.length with hold | hnew
    · rw [List.getElem?_append_left hold] at hb
      exact hlast later b hlater hb hconn
    · rw [List.getElem?_append_right hnew, List.getElem?_singleton] at hb
      split at hb
      · cases hb
        exact helse worker index stamp family hstamp hconn
      · cases hb

/-- The sessions of a node moved, and each new one is registered. -/
theorem Registered.moved {births : List Birth} {h : Host Rtc Rtp} (hreg : Registered births h)
    {node : Node (Stamp × Rtc) (Stamp × Rtp)} (hid : node.nodeId = h.node.nodeId)
    (hsession : node.nodeSession = h.node.nodeSession)
    (hlength : node.cells.length = h.node.cells.length)
    (hseed : node.reqIdSeed = h.node.reqIdSeed)
    (hinbox : ∀ worker, ∀ ext ∈ node.inboxOf worker, ext ∈ h.node.inboxOf worker)
    (hlive : ∀ worker family index stamp, node.stampAt worker family index = some stamp →
      h.node.stampAt worker family index = some stamp ∨
      (births[stamp.serial]? = some ⟨h.node.connAt worker index, stamp.transport⟩ ∧
        stamp.transport.family = family ∧ births.length ≤ stamp.serial + 1)) :
    Registered births ⟨node, h.asked⟩ where
  workers := by
    change node.cells.length ≤ _
    rw [hlength]
    exact hreg.workers
  seed := hseed.trans hreg.seed
  inbox worker reqId ext hmem := hreg.inbox worker reqId ext (hinbox worker _ hmem)
  meant := hreg.meant
  live := by
    intro worker family index stamp hstamp
    have hconn : node.connAt worker index = h.node.connAt worker index := by
      rw [Node.connAt, Node.connAt, hid, hsession]
    change births[stamp.serial]? = some ⟨node.connAt worker index, _⟩ ∧ _
    rw [hconn]
    rcases hlive worker family index stamp hstamp with hold | ⟨hbirth, hfamily, hlast⟩
    · exact hreg.live worker family index stamp hold
    · refine ⟨hbirth, hfamily, fun later birth hlater hget => ?_⟩
      obtain ⟨hlt, -⟩ := List.getElem?_eq_some_iff.mp hget
      omega

/-- A request came in. -/
theorem Registered.asks {births : List Birth} {h : Host Rtc Rtp} (hreg : Registered births h)
    {req : RpcReq ClusterConnId} {best : Nat} {meant : Option Nat}
    (hmeant : ∀ serial conn, meant = some serial → req.conn? = some conn →
      births[serial]?.map Birth.conn = some conn) :
    Registered births ⟨h.node.dispatch best req, h.asked ++ [(req, meant)]⟩ := by
  obtain ⟨hid, hsession, hlength, hseed⟩ := h.node.dispatch_frame best req
  refine ⟨?_, ?_, ?_, ?_, ?_⟩
  · rw [hlength]
    exact hreg.workers
  · rw [hseed, hreg.seed, List.length_append, List.length_singleton]
  · intro worker reqId ext hmem
    rcases (h.node.dispatch_places best req worker).2 _ hmem with hold | ⟨hnew, hworker⟩
    · obtain ⟨old, meant', hget, hext, hconn⟩ := hreg.inbox worker reqId ext hold
      obtain ⟨hlt, -⟩ := List.getElem?_eq_some_iff.mp hget
      exact ⟨old, meant', by rwa [List.getElem?_append_left hlt], hext, hconn⟩
    · cases hnew
      refine ⟨req, meant, ?_, rfl, hworker⟩
      rw [hreg.seed, List.getElem?_concat_length]
  · intro req' serial conn hmem hconn
    rcases List.mem_append.mp hmem with hold | hnew
    · exact hreg.meant req' serial conn hold hconn
    · rw [List.mem_singleton] at hnew
      cases hnew
      exact hmeant serial conn rfl hconn
  · intro worker family index stamp hstamp
    rw [(h.node.dispatch_places best req worker).1] at hstamp
    have hconn : (h.node.dispatch best req).connAt worker index = h.node.connAt worker index := by
      rw [Node.connAt, Node.connAt, hid, hsession]
    change births[stamp.serial]? = some ⟨(h.node.dispatch best req).connAt worker index, _⟩ ∧ _
    rw [hconn]
    exact hreg.live worker family index stamp hstamp

end World

/-! ### The newborn -/

namespace Node

variable {Rtc Rtp : Type} {n : Node (Stamp × Rtc) (Stamp × Rtp)} {serial : Nat}

theorem newborn_eq_none (h : ∀ worker family index stamp,
    n.stampAt worker family index = some stamp → stamp.serial ≠ serial) :
    n.newborn serial = none := by
  cases hnew : n.newborn serial with
  | none => rfl
  | some birth =>
    obtain ⟨⟨worker, family, index⟩, hfind, hrest⟩ := Option.bind_eq_some_iff.mp hnew
    obtain ⟨stamp, hstamp, -⟩ := Option.bind_eq_some_iff.mp hrest
    have hany := List.find?_some hfind
    rw [hstamp] at hany
    exact absurd (of_decide_eq_true hany) (h worker family index stamp hstamp)

theorem newborn_eq_some {worker : Nat} {family : Family} {index : Nat} {stamp : Stamp}
    (hstamp : n.stampAt worker family index = some stamp) (hserial : stamp.serial = serial)
    (honly : ∀ worker' family' index' stamp', n.stampAt worker' family' index' = some stamp' →
      stamp'.serial = serial → worker' = worker ∧ family' = family ∧ index' = index) :
    n.newborn serial = some ⟨n.connAt worker index, stamp.transport⟩ := by
  cases hfind : n.places.find? fun place =>
      (n.stampAt place.1 place.2.1 place.2.2).any fun stamp => stamp.serial = serial with
  | none =>
    have hnone := List.find?_eq_none.mp hfind _ (mem_places hstamp)
    simp [hstamp, hserial] at hnone
  | some place =>
    obtain ⟨worker', family', index'⟩ := place
    have hany := List.find?_some hfind
    obtain ⟨stamp', hstamp', hserial'⟩ := (Option.any_eq_true ..).mp hany
    obtain ⟨rfl, rfl, rfl⟩ :=
      honly worker' family' index' stamp' hstamp' (of_decide_eq_true hserial')
    simp only [newborn, hfind, hstamp, Option.bind_eq_bind, Option.bind_some, Option.pure_def]

end Node

namespace World

variable {Rtc Rtp : Type}

/-- Numbers are given to sessions in order. -/
theorem Registered.lt {births : List Birth} {h : Host Rtc Rtp} (hreg : Registered births h)
    {worker : Nat} {family : Family} {index : Nat} {stamp : Stamp}
    (hstamp : h.node.stampAt worker family index = some stamp) : stamp.serial < births.length := by
  obtain ⟨hbirth, -⟩ := hreg.live worker family index stamp hstamp
  exact (List.getElem?_eq_some_iff.mp hbirth).1

/-- Different places of a node have different ids. -/
theorem Registered.connAt_inj {births : List Birth} {h : Host Rtc Rtp}
    (hreg : Registered births h) {worker worker' index index' : Nat}
    (hworker : worker < h.node.cells.length) (hworker' : worker' < h.node.cells.length)
    (heq : h.node.connAt worker index = h.node.connAt worker' index') :
    worker = worker' ∧ index = index' := by
  have hmax := hreg.workers
  simp only [Node.connAt, ClusterConnId.mk.injEq, ServerConnId.mk.injEq, true_and] at heq
  have hnat := congrArg UInt16.toNat heq.1
  rw [UInt16.toNat_ofNat', UInt16.toNat_ofNat', Nat.mod_eq_of_lt, Nat.mod_eq_of_lt] at hnat
  · exact ⟨hnat, heq.2⟩
  · exact Nat.lt_of_lt_of_le hworker' hmax
  · exact Nat.lt_of_lt_of_le hworker hmax

theorem stampAt_lt {n : Node (Stamp × Rtc) (Stamp × Rtp)} {worker : Nat} {family : Family}
    {index : Nat} {stamp : Stamp} (h : n.stampAt worker family index = some stamp) :
    worker < n.cells.length := by
  obtain ⟨cell, hget, -⟩ := Option.bind_eq_some_iff.mp h
  exact (List.getElem?_eq_some_iff.mp hget).1

/-- **A step of a node keeps its register**, with the birth of the session it may create. -/
theorem Registered.step {births : List Birth} {h : Host Rtc Rtp} (hreg : Registered births h)
    {act : Act Rtc Rtp} {meant : Option Nat} {node : Node (Stamp × Rtc) (Stamp × Rtp)}
    {answer : Option (Nat × RpcRes ClusterConnId)}
    (hmeant : ∀ req ∈ act.asks, ∀ serial conn, meant = some serial → req.conn? = some conn →
      births[serial]?.map Birth.conn = some conn)
    (hstep : h.node.step (act.stamp births.length) = some (node, answer)) :
    Registered (births ++ (node.newborn births.length).toList)
        ⟨node, h.asked ++ act.asks.toList.map (·, meant)⟩ ∧
      ∀ birth ∈ node.newborn births.length,
        (birth.conn.node, birth.conn.nodeSession) = (h.node.nodeId, h.node.nodeSession) := by
  rcases Node.step_moved hstep with ⟨req, best, rfl, rfl⟩ | ⟨hasks, hmoved⟩
  · have hnone : (h.node.dispatch best req).newborn births.length = none := by
      refine Node.newborn_eq_none fun worker family index stamp hstamp => ?_
      rw [(h.node.dispatch_places best req worker).1] at hstamp
      exact Nat.ne_of_lt (hreg.lt hstamp)
    rw [hnone, Option.toList_none, List.append_nil]
    refine ⟨hreg.asks fun serial conn => hmeant req rfl serial conn, fun birth hbirth => ?_⟩
    cases hbirth
  · obtain ⟨hid, hsession, hseed⟩ := Node.step_frame hstep
    have hstamped : (act.stamp births.length).asks = none := by
      cases act <;> exact hasks
    rw [hstamped] at hseed
    rw [hasks, Option.toList_none, List.map_nil, List.append_nil]
    rcases hmoved.places with hless | ⟨worker, index, transport, hworker, hfree, hborn⟩
    · have hnone : node.newborn births.length = none :=
        Node.newborn_eq_none fun worker family index stamp hstamp =>
          Nat.ne_of_lt (hreg.lt (hless worker family index stamp hstamp))
      rw [hnone, Option.toList_none, List.append_nil]
      refine ⟨hreg.moved hid hsession hmoved.length hseed hmoved.inbox
        fun worker family index stamp hstamp => Or.inl (hless _ _ _ _ hstamp), fun birth hbirth => ?_⟩
      cases hbirth
    · have hnew : node.newborn births.length =
          some ⟨node.connAt worker index, transport⟩ := by
        have hself : node.stampAt worker transport.family index =
            some ⟨births.length, transport⟩ := by
          rw [hborn, if_pos ⟨rfl, rfl, rfl⟩]
        refine Node.newborn_eq_some hself rfl fun worker' family' index' stamp' hstamp' hserial => ?_
        rw [hborn] at hstamp'
        split at hstamp'
        · assumption
        · have := hreg.lt hstamp'
          omega
      have hconn : node.connAt worker index = h.node.connAt worker index := by
        rw [Node.connAt, Node.connAt, hid, hsession]
      rw [hnew, Option.toList_some, hconn]
      refine ⟨?_, fun birth hbirth => ?_⟩
      · -- first the birth, which is at a place where nobody was, then the session
        have happend : Registered (births ++ [⟨h.node.connAt worker index, transport⟩]) h := by
          refine hreg.append fun worker' index' stamp family hstamp heq hfamily => ?_
          obtain ⟨hw, hi⟩ := hreg.connAt_inj hworker (stampAt_lt hstamp) heq
          subst hw hi
          rw [← hfamily, hfree] at hstamp
          cases hstamp
        refine happend.moved hid hsession hmoved.length hseed hmoved.inbox
          fun worker' family' index' stamp hstamp => ?_
        rw [hborn] at hstamp
        split at hstamp
        · rename_i hplace
          obtain ⟨rfl, rfl, rfl⟩ := hplace
          cases hstamp
          refine Or.inr ⟨?_, rfl, ?_⟩
          · rw [List.getElem?_concat_length]
          · simp
        · exact Or.inl hstamp
      · cases hbirth
        rfl

/-- Starting a node in a run that never was. -/
theorem Sound.fresh {w : World Rtc Rtp} (hw : w.Sound) {nodeId : NodeId} {nodeSession : UInt64}
    {workers : Nat} (hfresh : (nodeId, nodeSession) ∉ w.runs) (hworkers : workers ≤ workersMax)
    {hosts : List (Host Rtc Rtp)} (place : Nat)
    (hhosts : ∀ (i : Nat) h, hosts[i]? = some h →
      (i = place ∧ h = ⟨.start nodeId nodeSession workers, []⟩) ∨ (i ≠ place ∧ w.hosts[i]? = some h)) :
    (⟨hosts, w.births, w.runs ++ [(nodeId, nodeSession)]⟩ : World Rtc Rtp).Sound := by
  have hold : ∀ {i : Nat} {h : Host Rtc Rtp}, w.hosts[i]? = some h →
      ¬ (h.node.nodeId = nodeId ∧ h.node.nodeSession = nodeSession) := by
    rintro i h hget ⟨rfl, rfl⟩
    exact hfresh (hw.running h (List.mem_of_getElem? hget))
  refine ⟨?_, ?_, ?_, ?_⟩
  · intro birth hbirth
    exact List.mem_append_left _ (hw.born birth hbirth)
  · intro h hmem
    obtain ⟨i, hget⟩ := List.getElem?_of_mem hmem
    rcases hhosts i h hget with ⟨-, rfl⟩ | ⟨-, hget⟩
    · exact List.mem_append_right _ (List.mem_singleton.mpr rfl)
    · exact List.mem_append_left _ (hw.running h (List.mem_of_getElem? hget))
  · intro i j h h' hi hj hid hsession
    rcases hhosts i h hi with ⟨rfl, rfl⟩ | ⟨-, hi⟩
    · rcases hhosts j h' hj with ⟨rfl, rfl⟩ | ⟨-, hj⟩
      · rfl
      · exact absurd ⟨hid.symm, hsession.symm⟩ (hold hj)
    · rcases hhosts j h' hj with ⟨rfl, rfl⟩ | ⟨-, hj⟩
      · exact absurd ⟨hid, hsession⟩ (hold hi)
      · exact hw.apart i j h h' hi hj hid hsession
  · intro h hmem
    obtain ⟨i, hget⟩ := List.getElem?_of_mem hmem
    rcases hhosts i h hget with ⟨-, rfl⟩ | ⟨-, hget⟩
    · exact registered_start _ _ _ hworkers
    · exact hw.hosts h (List.mem_of_getElem? hget)

/-- The births of a step of one host, seen from another. -/
theorem Sound.elsewhere {w : World Rtc Rtp} (hw : w.Sound) {i j : Nat} {h h' : Host Rtc Rtp}
    (hi : w.hosts[i]? = some h) (hj : w.hosts[j]? = some h') (hne : j ≠ i) {newborn : Option Birth}
    (hnew : ∀ birth ∈ newborn,
      (birth.conn.node, birth.conn.nodeSession) = (h.node.nodeId, h.node.nodeSession)) :
    Registered (w.births ++ newborn.toList) h' := by
  have hreg := hw.hosts h' (List.mem_of_getElem? hj)
  cases newborn with
  | none =>
    rw [Option.toList_none, List.append_nil]
    exact hreg
  | some birth =>
    refine hreg.append fun worker index stamp family hstamp heq => ?_
    have hpair := hnew birth rfl
    rw [heq, Prod.mk.injEq] at hpair
    exact absurd (hw.apart j i h' h hj hi hpair.1 hpair.2) hne

/-- **The births are kept in every step.** -/
theorem Sound.step {w w' : World Rtc Rtp} (hw : w.Sound) {event : Event Rtc Rtp}
    (hstep : w.step event = some w') : w'.Sound := by
  cases event with
  | boot nodeId nodeSession workers =>
    simp only [World.step] at hstep
    split at hstep
    · rename_i hok
      cases hstep
      refine hw.fresh hok.1 hok.2 w.hosts.length fun i h hget => ?_
      rcases Nat.lt_or_ge i w.hosts.length with hlt | hge
      · rw [List.getElem?_append_left hlt] at hget
        exact Or.inr ⟨Nat.ne_of_lt hlt, hget⟩
      · rw [List.getElem?_append_right hge, List.getElem?_singleton] at hget
        split at hget
        · cases hget
          exact Or.inl ⟨by omega, rfl⟩
        · cases hget
    · cases hstep
  | restart host nodeSession workers =>
    simp only [World.step, Option.bind_eq_bind, Option.bind_eq_some_iff] at hstep
    obtain ⟨h₀, hhost, hstep⟩ := hstep
    split at hstep
    · rename_i hok
      cases hstep
      exact hw.fresh hok.1 hok.2 host fun i h => Node.cases_of_set hhost
    · cases hstep
  | act host act meant =>
    simp only [World.step, Option.bind_eq_bind, Option.bind_eq_some_iff] at hstep
    obtain ⟨h₀, hhost, hstep⟩ := hstep
    split at hstep
    · rename_i hmeans
      obtain ⟨⟨node, answer⟩, hnode, heq⟩ := Option.bind_eq_some_iff.mp hstep
      cases heq
      obtain ⟨hid, hsession, -⟩ := Node.step_frame hnode
      have hmeant : ∀ req ∈ act.asks, ∀ serial conn, meant = some serial → req.conn? = some conn →
          w.births[serial]?.map Birth.conn = some conn := by
        rintro req hreq serial conn rfl hconn
        have := hmeans req hreq
        simp only [Means, hconn] at this
        exact this
      obtain ⟨hreg, hnew⟩ := (hw.hosts h₀ (List.mem_of_getElem? hhost)).step hmeant hnode
      refine ⟨?_, ?_, ?_, ?_⟩
      · intro birth hbirth
        rcases List.mem_append.mp hbirth with hold | hborn
        · exact hw.born birth hold
        · rw [hnew birth (Option.mem_toList.mp hborn)]
          exact hw.running h₀ (List.mem_of_getElem? hhost)
      · intro h hmem
        obtain ⟨i, hget⟩ := List.getElem?_of_mem hmem
        rcases Node.cases_of_set hhost hget with ⟨-, rfl⟩ | ⟨-, hget⟩
        · simp only [hid, hsession]
          exact hw.running h₀ (List.mem_of_getElem? hhost)
        · exact hw.running h (List.mem_of_getElem? hget)
      · intro i j h h' hi hj hsameId hsameSession
        -- the host that moved is where it was, under the id and in the run it had
        have hback : ∀ {k : Nat} {g : Host Rtc Rtp}, (w.hosts.set host ⟨node, h₀.asked ++
            act.asks.toList.map (·, meant)⟩)[k]? = some g →
            ∃ g₀, w.hosts[k]? = some g₀ ∧ g.node.nodeId = g₀.node.nodeId ∧
              g.node.nodeSession = g₀.node.nodeSession := by
          intro k g hget
          rcases Node.cases_of_set hhost hget with ⟨rfl, rfl⟩ | ⟨-, hget⟩
          · exact ⟨h₀, hhost, hid, hsession⟩
          · exact ⟨g, hget, rfl, rfl⟩
        obtain ⟨g, hg, hgid, hgsession⟩ := hback hi
        obtain ⟨g', hg', hgid', hgsession'⟩ := hback hj
        exact hw.apart i j g g' hg hg' (hgid ▸ hgid' ▸ hsameId)
          (hgsession ▸ hgsession' ▸ hsameSession)
      · intro h hmem
        obtain ⟨i, hget⟩ := List.getElem?_of_mem hmem
        rcases Node.cases_of_set hhost hget with ⟨-, rfl⟩ | ⟨hne, hget⟩
        · exact hreg
        · exact hw.elsewhere hhost hget hne hnew
    · cases hstep

/-! ### Isolation -/

theorem sameAt_refl {Rtc Rtp : Type} (a : Worker Rtc Rtp) (family : Family) (index : Nat) :
    a.SameAt a family index := by
  cases family <;> rfl

/-- Only the worker that handles a request changes. -/
theorem worker_of_receive {w : World Rtc Rtp} {host worker : Nat} {h : Host Rtc Rtp}
    {node : Node (Stamp × Rtc) (Stamp × Rtp)} {media : Media (Stamp × Rtc) (Stamp × Rtp)}
    {draw : Draw} {asked : List (RpcReq ClusterConnId × Option Nat)} {births : List Birth}
    (hhost : w.hosts[host]? = some h) (hnode : h.node.receive worker media draw = some node)
    {host' worker' : Nat} {family : Family} {index : Nat}
    {a b : Worker (Stamp × Rtc) (Stamp × Rtp)} (ha : w.worker? host' worker' = some a)
    (hb : (⟨w.hosts.set host ⟨node, asked⟩, births, w.runs⟩ : World Rtc Rtp).worker? host' worker' =
      some b)
    (hdiff : ¬ a.SameAt b family index) :
    ∃ cell reqId ext rest, h.node.cells[worker]? = some cell ∧ cell.inbox = (reqId, ext) :: rest ∧
      a = cell.worker ∧ b = cell.worker.processRpc media draw reqId ext := by
  simp only [Node.receive, Option.bind_eq_bind, Option.bind_eq_some_iff] at hnode
  obtain ⟨cell, hcell, hnode⟩ := hnode
  split at hnode
  · cases hnode
  · rename_i reqId ext rest hinbox
    cases hnode
    refine ⟨cell, reqId, ext, rest, hcell, hinbox, ?_⟩
    obtain ⟨h₁, hh₁, hrest₁⟩ := Option.bind_eq_some_iff.mp ha
    obtain ⟨c₁, hc₁, ha⟩ := Option.bind_eq_some_iff.mp hrest₁
    obtain ⟨h₂, hh₂, hrest₂⟩ := Option.bind_eq_some_iff.mp hb
    obtain ⟨c₂, hc₂, hb⟩ := Option.bind_eq_some_iff.mp hrest₂
    cases ha
    cases hb
    rcases Node.cases_of_set hhost hh₂ with ⟨rfl, rfl⟩ | ⟨-, hh₂⟩
    · rw [hhost] at hh₁
      cases hh₁
      rcases Node.cases_of_set hcell hc₂ with ⟨rfl, rfl⟩ | ⟨-, hc₂⟩
      · rw [hcell] at hc₁
        cases hc₁
        exact ⟨rfl, rfl⟩
      · rw [hc₁] at hc₂
        cases hc₂
        exact absurd (sameAt_refl ..) hdiff
    · rw [hh₁] at hh₂
      cases hh₂
      rw [hc₁] at hc₂
      cases hc₂
      exact absurd (sameAt_refl ..) hdiff

/-- The request that a worker handles is the one that came in under its number. -/
theorem Handles.next_eq {w : World Rtc Rtp} (hw : w.Sound) {host worker : Nat} {h : Host Rtc Rtp}
    {req : RpcReq ClusterConnId} {meant : Option Nat} {conn : ClusterConnId}
    (hhandles : w.Handles host worker h req meant conn)
    {cell : Cell (Stamp × Rtc) (Stamp × Rtp)} (hcell : h.node.cells[worker]? = some cell)
    {reqId : Nat} {ext : RpcReq Nat} {rest : List (Nat × RpcReq Nat)}
    (hinbox : cell.inbox = (reqId, ext) :: rest) :
    ext = Node.forWorker req ∧ conn.serverConn.worker.toNat = worker ∧ (req, meant) ∈ h.asked := by
  obtain ⟨hhost, ⟨reqId', ext', rest', hnext, hasked⟩, hconn⟩ := hhandles
  have hbox : h.node.inboxOf worker = (reqId, ext) :: rest := by
    rw [Node.inboxOf, hcell, Option.map_some, Option.getD_some, hinbox]
  rw [hbox] at hnext
  cases hnext
  have hreg := hw.hosts h (List.mem_of_getElem? hhost)
  obtain ⟨req', meant', hasked', hext, hworker⟩ := hreg.inbox worker reqId ext (by
    rw [hbox]
    exact List.mem_cons_self ..)
  rw [hasked] at hasked'
  cases hasked'
  exact ⟨hext, hworker conn hconn, List.mem_of_getElem? hasked⟩

/-- The id of a place, put together from its parts. -/
theorem connAt_eq {n : Node Rtc Rtp} {worker : Nat} {conn : ClusterConnId}
    (hid : conn.node = n.nodeId) (hsession : conn.nodeSession = n.nodeSession)
    (hworker : conn.serverConn.worker.toNat = worker) :
    n.connAt worker conn.serverConn.index = conn := by
  rw [Node.connAt, ← hid, ← hsession, ← hworker, UInt16.ofNat_toNat]

/-- The session at the place of an id that was not issued again is the one it was issued for. -/
theorem Registered.serial_eq {births : List Birth} {h : Host Rtc Rtp} (hreg : Registered births h)
    {worker : Nat} {stamp : Stamp} {serial : Nat} {conn : ClusterConnId} {birth : Birth}
    (hplace : h.node.connAt worker conn.serverConn.index = conn)
    (hbirth : births[serial]? = some birth) (hconn : birth.conn = conn)
    (hstamp : h.node.stampAt worker birth.transport.family conn.serverConn.index = some stamp)
    (hlast : ∀ later other, serial < later → births[later]? = some other → other.conn = conn →
      other.transport.family ≠ birth.transport.family) : stamp.serial = serial := by
  obtain ⟨hself, hfamily, hlater⟩ := hreg.live _ _ _ _ hstamp
  rcases Nat.lt_trichotomy stamp.serial serial with hlt | heq | hgt
  · exact absurd rfl (hlater serial birth hlt hbirth (hconn.trans hplace.symm))
  · exact heq
  · exact absurd hfamily (hlast stamp.serial _ hgt hself hplace)

/-- A session that is alive is at the place of its id. -/
theorem Sound.alive_at {w : World Rtc Rtp} (hw : w.Sound) {host worker : Nat} {h : Host Rtc Rtp}
    (hhost : w.hosts[host]? = some h) (hworker : worker < h.node.cells.length) {serial : Nat}
    {birth : Birth} (hbirth : w.births[serial]? = some birth)
    (hplace : h.node.connAt worker birth.conn.serverConn.index = birth.conn)
    (halive : w.Alive serial) :
    (h.node.stampAt worker birth.transport.family birth.conn.serverConn.index).isSome := by
  obtain ⟨h', hmem, worker', family, index, stamp, hstamp, rfl⟩ := halive
  obtain ⟨hself, hfamily, -⟩ := (hw.hosts h' hmem).live _ _ _ _ hstamp
  rw [hbirth, Option.some.injEq] at hself
  obtain ⟨i, hget⟩ := List.getElem?_of_mem hmem
  have hconn : h'.node.connAt worker' index = h.node.connAt worker birth.conn.serverConn.index := by
    rw [hplace, hself]
  have hsame : i = host := hw.apart i host h' h hget hhost (congrArg ClusterConnId.node hconn)
    (congrArg ClusterConnId.nodeSession hconn)
  subst hsame
  rw [hhost] at hget
  cases hget
  obtain ⟨rfl, hindex⟩ := (hw.hosts h hmem).connAt_inj (stampAt_lt hstamp) hworker hconn
  rw [← hindex, hself, hfamily, hstamp]
  rfl

/-- **One step.** -/
theorem Sound.isolated {w w' : World Rtc Rtp} (hw : w.Sound) {event : Event Rtc Rtp}
    (hmeets : w.Meets event) (hstep : w.step event = some w') : w.Isolated event w' := by
  unfold Isolated
  split
  · rename_i host worker media draw meant'
    intro h req meant conn hhandles host' worker' family index a b ha hb hdiff
    simp only [World.step, Option.bind_eq_bind, Option.bind_eq_some_iff] at hstep
    obtain ⟨h₀, hhost, hstep⟩ := hstep
    have hsame := hhandles.host
    rw [hhost] at hsame
    cases hsame
    split at hstep
    · obtain ⟨⟨node, answer⟩, hnode, heq⟩ := Option.bind_eq_some_iff.mp hstep
      cases heq
      obtain ⟨cell, reqId, ext, rest, hcell, hinbox, rfl, rfl⟩ :=
        worker_of_receive hhost (Node.silent_eq_some hnode).1 ha hb hdiff
      obtain ⟨rfl, hworker, hasked⟩ := hhandles.next_eq hw hcell hinbox
      have hreg := hw.hosts h (List.mem_of_getElem? hhost)
      have hmeans := hmeets h req meant conn hhandles
      have hconn := hhandles.conn
      -- where an id of this run of the node was issued for
      have hissued : ∀ serial, meant = some serial →
          w.births[serial]?.map Birth.transport = some (reqTransport req) →
          w.births[serial]? = some ⟨conn, reqTransport req⟩ := by
        rintro serial rfl htransport
        have hid := hreg.meant req serial conn hasked hconn
        obtain ⟨birth, hbirth, rfl⟩ := Option.map_eq_some_iff.mp hid
        rw [hbirth, Option.map_some, Option.some.injEq] at htransport
        rw [hbirth, ← htransport]
      rcases Worker.touched_processRpc hdiff with ⟨hindex, rfl, hsome⟩ | ⟨hnone, hcreates⟩
      · rw [Node.conn?_forWorker, hconn, Option.map_some, Option.some.injEq] at hindex
        subst hindex
        rw [Node.transport_forWorker] at hsome ⊢
        obtain ⟨stamp, hstamp⟩ := Option.isSome_iff_exists.mp hsome
        rw [← Node.stampAt_of_get hcell] at hstamp
        rcases hmeans with ⟨hempty, -⟩ | ⟨serial, rfl, hid, hsession, htransport, hlast⟩
        · rw [hempty] at hstamp
          cases hstamp
        · have hbirth := hissued serial rfl htransport
          have hserial := hreg.serial_eq (connAt_eq hid hsession hworker) hbirth rfl hstamp hlast
          rw [Node.stampAt_of_get hcell] at hstamp
          refine Or.inl ⟨stamp, hstamp, by rw [hserial], by rw [hserial, hbirth]⟩
      · obtain ⟨hkind, hempty⟩ := hcreates conn.serverConn.index (by
          rw [Node.conn?_forWorker, hconn]
          rfl)
        rw [Node.kind_forWorker] at hkind
        refine Or.inr ⟨hnone, hkind, fun serial hserial halive => ?_⟩
        rcases hmeans with ⟨-, hgone⟩ | ⟨serial', hserial', hid, hsession, htransport, -⟩
        · exact hgone hkind serial hserial halive
        · rw [hserial, Option.some.injEq] at hserial'
          subst hserial'
          have hbirth := hissued serial hserial htransport
          have hlt := (List.getElem?_eq_some_iff.mp hcell).1
          have hat := hw.alive_at hhost hlt hbirth (connAt_eq hid hsession hworker) halive
          have hfamily := family_of_restartIce hkind
          simp only [hfamily, Node.stampAt_of_get hcell, hempty] at hat
          cases hat
    · cases hstep
  · exact trivial

/-- **Connection ids name sessions.**  In every run in which the id of each request leads where
    it should, a request acts on no session but the one it means. -/
theorem isolates {events : List (Event Rtc Rtp)} {w w' : World Rtc Rtp} {event : Event Rtc Rtp}
    (h : Reaches step Meets start events w) (hmeets : w.Meets event)
    (hstep : w.step event = some w') : w.Isolated event w' := by
  have hsound : w.Sound :=
    h.invariant (fun _ _ _ hw _ hs => Sound.step hw hs) Sound.start
  exact hsound.isolated hmeets hstep

/-- A client of the SDK connects to the first host. -/
def connects : List (Event Unit Unit) :=
  [.act 0 (.request (.webrtc (.connect ⟨⟨"app"⟩, 5, "10.0.0.1", "agent",
      ⟨⟨none, none⟩, "v=0"⟩, none, false⟩)) 0) none,
    .act 0 (.receive 0 plainMedia firstDraw) none]

def deletes (conn : ClusterConnId) (meant : Nat) : Event Unit Unit :=
  .act 0 (.request (.webrtc (.delete conn)) 0) (some meant)

def handles : Event Unit Unit := .act 0 (.receive 0 plainMedia firstDraw) none

/-- A client connects and deletes its session. -/
def connected : List (Event Unit Unit) := .boot 1 9 1 :: connects ++ [deletes ⟨1, 9, 0, 0⟩ 0]

theorem isolates_connected :
    ∃ w w', Reaches step Meets start connected w ∧ w.step handles = some w' ∧
      w.Isolated handles w' := by
  have hreaches : ∃ w, Reaches step Meets start connected w ∧ w.Meets handles ∧
      (w.step handles).isSome := by
    refine ⟨_, .cons trivial rfl (.cons trivial rfl (.cons ?_ rfl (.cons trivial rfl (.nil _)))),
      ?_, rfl⟩
    · intro h req meant conn hhandles
      obtain ⟨hhost, ⟨reqId, ext, rest, hinbox, hasked⟩, hconn⟩ := hhandles
      cases hhost
      cases hinbox
      cases hasked
      cases hconn
    · intro h req meant conn hhandles
      obtain ⟨hhost, ⟨reqId, ext, rest, hinbox, hasked⟩, hconn⟩ := hhandles
      cases hhost
      cases hinbox
      cases hasked
      cases hconn
      refine Or.inr ⟨0, rfl, rfl, rfl, rfl, fun later birth hlater hbirth => ?_⟩
      have hlt : later < 1 := (List.getElem?_eq_some_iff.mp hbirth).1
      omega
  obtain ⟨w, hw, hmeets, hsome⟩ := hreaches
  obtain ⟨w', hstep⟩ := Option.isSome_iff_exists.mp hsome
  exact ⟨w, w', hw, hstep, isolates hw hmeets hstep⟩

/-- The session ends and another client gets its index, or the node starts again and another
    client gets the index; then the first client deletes its session. -/
theorem reused_hit :
    (∃ w w', Reaches step (fun _ _ => True) start (.boot 1 9 1 :: connects ++
        .act 0 (.endRtc 0 0) none :: connects ++ [deletes ⟨1, 9, 0, 0⟩ 0]) w ∧
      w.step handles = some w' ∧ ¬ w.Isolated handles w') ∧
    ∃ w w', Reaches step (fun _ _ => True) start (.boot 1 9 1 :: connects ++
        .restart 0 10 1 :: connects ++ [deletes ⟨1, 9, 0, 0⟩ 0]) w ∧
      w.step handles = some w' ∧ ¬ w.Isolated handles w' := by
  constructor
  · refine ⟨_, _, .cons trivial rfl (.cons trivial rfl (.cons trivial rfl (.cons trivial rfl
      (.cons trivial rfl (.cons trivial rfl (.cons trivial rfl (.nil _))))))), rfl, fun hiso => ?_⟩
    have hhit := hiso _ _ _ _ ⟨rfl, ⟨_, _, _, rfl, rfl⟩, rfl⟩ 0 0 .webrtc 0 _ _ rfl rfl
      fun hsame => by
        have hlength := congrArg (fun found => found.map fun s => s.queue.length) hsame
        cases hlength
    rcases hhit with ⟨stamp, hstamp, hserial, -⟩ | ⟨hnone, -⟩
    · cases hstamp
      cases hserial
    · cases hnone
  · refine ⟨_, _, .cons trivial rfl (.cons trivial rfl (.cons trivial rfl (.cons trivial rfl
      (.cons trivial rfl (.cons trivial rfl (.cons trivial rfl (.nil _))))))), rfl, fun hiso => ?_⟩
    have hhit := hiso _ _ _ _ ⟨rfl, ⟨_, _, _, rfl, rfl⟩, rfl⟩ 0 0 .webrtc 0 _ _ rfl rfl
      fun hsame => by
        have hlength := congrArg (fun found => found.map fun s => s.queue.length) hsame
        cases hlength
    rcases hhit with ⟨stamp, hstamp, hserial, -⟩ | ⟨hnone, -⟩
    · cases hstamp
      cases hserial
    · cases hnone

end World

end MediaServer.Server
