import MediaServer.Gateway.Dispatch

/-!
# The way of a connect request

A connect request enters at one gateway and is handed from node to node until a media node
answers it.  Every gateway on the way selects from its own store and from its own point of
view: it prefers itself among equals, and stands in for a client that cannot be located.

`Network.serve` follows a request.  If the stores agree on which zones have media nodes,
the second gateway always confirms the choice of the first: `connect_nearest`.
-/

namespace MediaServer.Gateway

open Rpc

/-- Gateways, each with its store, and the media nodes behind them. -/
structure Network (Location D : Type) where
  gateways : NodeId → Option (GatewayStore Location)
  distance : Location → Location → D
  getLocation : IpAddr → Option Location
  parseIp : String → Option IpAddr
  parseConn : String → Option ClusterConnId
  showConn : ClusterConnId → String
  media : NodeId → (req : EdgeReq) → Option req.Res

namespace Network

variable {Location D : Type} [LinearOrder D] (net : Network Location D)

/-- What the handlers of one gateway use. -/
def env (store : GatewayStore Location) (client : NodeId → (req : EdgeReq) → Option req.Res) :
    Env Location D where
  store := store
  distance := net.distance
  getLocation := net.getLocation
  parseIp := net.parseIp
  parseConn := net.parseConn
  showConn := net.showConn
  client := client

/-- The nodes that get a request, and the answer.  A gateway hands it on; every other node
    is a media node. -/
def serve : Nat → NodeId → (req : EdgeReq) → List NodeId × Option req.Res
  | 0, _, _ => ([], none)
  | fuel + 1, node, req =>
    match net.gateways node with
    | none => ([node], net.media node req)
    | some store =>
      let (res, log) := exec ((net.env store fun n r => (serve fuel n r).2).handleRemote req) []
      (node :: (sent log).flatMap fun call => (serve fuel call.1 call.2).1, res.toOption.join)

/-- A request of the HTTP server of a gateway: the nodes that get it, and the answer. -/
def enter (fuel : Nat) (store : GatewayStore Location) (req : RpcReq ClusterConnId) :
    List NodeId × Except Panic (RpcRes ClusterConnId) :=
  let (res, log) := exec ((net.env store fun n r => (net.serve fuel n r).2).processReq none req) []
  ((sent log).flatMap fun call => (net.serve fuel call.1 call.2).1, res)

end Network

/-- The address that a client connects from. -/
def connectIp : RpcReq ClusterConnId → Option IpAddr
  | .whip (.connect p) => some p.ip
  | .whep (.connect p) => some p.ip
  | .webrtc (.connect p) => some p.ip
  | _ => none

theorem connectIp_cases {req : RpcReq ClusterConnId} {ip : IpAddr} (h : connectIp req = some ip) :
    (∃ p, req = .whip (.connect p) ∧ p.ip = ip) ∨ (∃ p, req = .whep (.connect p) ∧ p.ip = ip) ∨
      ∃ p, req = .webrtc (.connect p) ∧ p.ip = ip := by
  cases req with
  | whip req =>
    cases req with
    | connect p => exact Or.inl ⟨p, rfl, Option.some.inj h⟩
    | remoteIce | delete => cases h
  | whep req =>
    cases req with
    | connect p => exact Or.inr (Or.inl ⟨p, rfl, Option.some.inj h⟩)
    | remoteIce | delete => cases h
  | webrtc req =>
    cases req with
    | connect p => exact Or.inr (Or.inr ⟨p, rfl, Option.some.inj h⟩)
    | remoteIce | restartIce | delete => cases h
  | rtpEngine req => cases h

def EdgeReq.connectIp : EdgeReq → Option String
  | .whipConnect _ _ ip .. => some ip
  | .whepConnect _ _ ip .. => some ip
  | .webrtcConnect _ _ ip .. => some ip
  | _ => none

/-- The error that a response carries. -/
def resError : RpcRes ClusterConnId → Option RpcError
  | .whip (.connect (.error err)) => some err
  | .whep (.connect (.error err)) => some err
  | .webrtc (.connect (.error err)) => some err
  | _ => none

/-- A gateway answered that it knows no node. -/
def PoolEmpty (res : Except Panic (RpcRes ClusterConnId)) : Prop :=
  ∃ r, res = .ok r ∧ resError r = some MediaServerError.nodePoolEmpty.rpcError

/-! ### One gateway -/

namespace Env

variable {Location D : Type} [LinearOrder D] (env : Env Location D)

/-- The selection decides whether the pool is reported to be empty. -/
theorem exec_connect {α : Type} (kind : ServiceKind) (location : Option Location)
    (app : AppContext) (sessionId : UInt64) (ip : IpAddr) (req : EdgeReq)
    {finish : NodeId → Option req.Res → Handler (Except RpcError α)}
    (hfinish : ∀ node res log, (exec (finish node res) log).1 ≠
      .ok (.error MediaServerError.nodePoolEmpty.rpcError)) :
    (exec (env.connect kind location app sessionId ip req finish) []).1 =
      .ok (.error MediaServerError.nodePoolEmpty.rpcError) ↔ env.select kind location = none := by
  rw [connect]
  cases hselect : env.select kind location with
  | none => exact ⟨fun _ => rfl, fun _ => rfl⟩
  | some node =>
    constructor
    · intro hres
      exact absurd hres (hfinish node (env.client node req) _)
    · intro hnone
      cases hnone

omit [LinearOrder D] in
theorem finishConnSdp_ne_poolEmpty (app : AppContext) (sessionId : UInt64) (node : NodeId)
    (res : Option ConnSdp) (log : List Effect) :
    (exec (env.finishConnSdp app sessionId node res) log).1 ≠
      .ok (.error MediaServerError.nodePoolEmpty.rpcError) := by
  cases res with
  | none =>
    intro hres
    have herr : MediaServerError.gatewayRpcError.rpcError =
        MediaServerError.nodePoolEmpty.rpcError := Except.error.inj (Except.ok.inj hres)
    exact absurd herr (by decide)
  | some res =>
    rw [finishConnSdp, unwrapConn]
    cases env.parseConn res.conn with
    | none =>
      intro hres
      cases hres
    | some conn =>
      intro hres
      cases hres

omit [LinearOrder D] in
theorem finishWebrtc_ne_poolEmpty (app : AppContext) (sessionId : UInt64) (node : NodeId)
    (res : Option (Option ConnectResponse)) (log : List Effect) :
    (exec (env.finishWebrtc app sessionId node res) log).1 ≠
      .ok (.error MediaServerError.nodePoolEmpty.rpcError) := by
  match res with
  | none =>
    intro hres
    have herr : MediaServerError.nodeTimeout.rpcError =
        MediaServerError.nodePoolEmpty.rpcError := Except.error.inj (Except.ok.inj hres)
    exact absurd herr (by decide)
  | some none =>
    intro hres
    have herr : MediaServerError.gatewayRpcError.rpcError =
        MediaServerError.nodePoolEmpty.rpcError := Except.error.inj (Except.ok.inj hres)
    exact absurd herr (by decide)
  | some (some res) =>
    rw [finishWebrtc]
    cases env.parseConn res.connId with
    | none =>
      intro hres
      have herr : MediaServerError.mediaResError.rpcError =
          MediaServerError.nodePoolEmpty.rpcError := Except.error.inj (Except.ok.inj hres)
      exact absurd herr (by decide)
    | some conn =>
      intro hres
      cases hres

end Env

namespace Network

variable {Location D : Type} [LinearOrder D] (net : Network Location D)

/-- The node that a gateway hands a connect request to. -/
def next (store : GatewayStore Location) (location : Option Location) : Option NodeId :=
  store.bestFor net.distance .webrtc location

/-- The way of a request from its next node on. -/
def follow (fuel : Nat) (req : EdgeReq) : Option NodeId → List NodeId
  | none => []
  | some node => (net.serve fuel node req).1

theorem flatMap_once (fuel : Nat) (dest : Option NodeId) (req : EdgeReq) :
    (once dest req).flatMap (fun call => (net.serve fuel call.1 call.2).1) =
      net.follow fuel req dest := by
  cases dest with
  | none => rfl
  | some node => exact List.append_nil _

theorem serve_media {node : NodeId} (h : net.gateways node = none) (fuel : Nat) (req : EdgeReq) :
    (net.serve (fuel + 1) node req).1 = [node] := by
  rw [serve, h]

/-- A gateway hands the request itself on. -/
theorem serve_gateway {node : NodeId} {store : GatewayStore Location}
    (h : net.gateways node = some store) (fuel : Nat) {req : EdgeReq} {ip : String}
    (hip : req.connectIp = some ip) :
    (net.serve (fuel + 1) node req).1 =
      node :: net.follow fuel req (net.next store ((net.parseIp ip).bind net.getLocation)) := by
  let env := net.env store fun n r => (net.serve fuel n r).2
  have hremote : ∃ app sessionId,
      env.handleRemote req = env.remoteConnect .webrtc (env.locate ip) app sessionId ip req := by
    cases req with
    | whipConnect app sessionId =>
      cases hip
      exact ⟨app, sessionId, rfl⟩
    | whepConnect app sessionId =>
      cases hip
      exact ⟨app, sessionId, rfl⟩
    | webrtcConnect app sessionId =>
      cases hip
      exact ⟨app, sessionId, rfl⟩
    | _ => cases hip
  obtain ⟨app, sessionId, hremote⟩ := hremote
  have hcalls : Calls False (env.handleRemote req) (once (net.next store (env.locate ip)) req) := by
    rw [hremote]
    exact env.calls_remoteConnect .webrtc (env.locate ip) app sessionId ip req
  rw [serve, h]
  change node :: (sent (exec (env.handleRemote req) []).2).flatMap _ = _
  rw [(hcalls []).1]
  exact congrArg (node :: ·) (net.flatMap_once fuel _ req)

/-- A connect handler whose value is wrapped up in a response. -/
theorem enter_eq {α : Type} {store : GatewayStore Location} {req : RpcReq ClusterConnId}
    {edge : EdgeReq} {fuel : Nat} {location : Option Location}
    (handler : Handler (Except RpcError α)) {wrap : Except RpcError α → RpcRes ClusterConnId}
    (hreq : (net.env store fun n r => (net.serve fuel n r).2).processReq none req =
      handler >>= fun a => Pure.pure (wrap a))
    (hsent : sent (exec handler []).2 = once (net.next store location) edge)
    (hwrap : ∀ a err, resError (wrap a) = some err ↔ a = .error err)
    (hempty : (exec handler []).1 = .ok (.error MediaServerError.nodePoolEmpty.rpcError) ↔
      net.next store location = none) :
    (net.enter fuel store req).1 = net.follow fuel edge (net.next store location) ∧
      (PoolEmpty (net.enter fuel store req).2 ↔ net.next store location = none) := by
  rw [enter, hreq, Calls.exec_map]
  constructor
  · change (sent (exec handler []).2).flatMap _ = _
    rw [hsent]
    exact net.flatMap_once fuel _ edge
  · rw [← hempty]
    constructor
    · rintro ⟨res, hres, herror⟩
      cases hexec : (exec handler []).1 with
      | error e =>
        rw [hexec] at hres
        cases hres
      | ok a =>
        rw [hexec] at hres
        cases hres
        rw [(hwrap a _).mp herror]
    · intro hexec
      refine ⟨wrap (.error MediaServerError.nodePoolEmpty.rpcError), ?_, (hwrap _ _).mpr rfl⟩
      rw [hexec]
      rfl

/-- **Entry.** The first gateway hands the request on, or answers that it knows no node. -/
theorem enter_connect {req : RpcReq ClusterConnId} {ip : IpAddr} (hip : connectIp req = some ip)
    (fuel : Nat) (store : GatewayStore Location) :
    ∃ edge : EdgeReq, edge.connectIp = some ip ∧
      (net.enter fuel store req).1 =
        net.follow fuel edge (net.next store (net.getLocation ip)) ∧
      (PoolEmpty (net.enter fuel store req).2 ↔
        net.next store (net.getLocation ip) = none) := by
  let env := net.env store fun n r => (net.serve fuel n r).2
  rcases connectIp_cases hip with ⟨p, rfl, rfl⟩ | ⟨p, rfl, rfl⟩ | ⟨p, rfl, rfl⟩
  · refine ⟨whipRequest p, rfl, net.enter_eq (env.whipConnect p) rfl
      (env.calls_whipConnect p []).1 ?_ ?_⟩
    · intro a err
      cases a <;> simp [resError]
    · exact env.exec_connect _ _ _ _ _ _ (env.finishConnSdp_ne_poolEmpty _ _)
  · refine ⟨whepRequest p, rfl, net.enter_eq (env.whepConnect p) rfl
      (env.calls_whepConnect p []).1 ?_ ?_⟩
    · intro a err
      cases a <;> simp [resError]
    · exact env.exec_connect _ _ _ _ _ _ (env.finishConnSdp_ne_poolEmpty _ _)
  · have hcalls : Calls False (env.webrtcConnect p)
        (once (net.next store (net.getLocation p.ip)) (webrtcRequest p)) :=
      env.calls_webrtcConnect p
    refine ⟨webrtcRequest p, rfl, net.enter_eq (env.webrtcConnect p) rfl (hcalls []).1 ?_ ?_⟩
    · intro a err
      cases a <;> simp [resError]
    · exact env.exec_connect _ _ _ _ _ _ (env.finishWebrtc_ne_poolEmpty _ _)

/-! ### Stores that agree -/

/-- A zone with a media node. -/
def Staffed (zone : ZoneId) : Prop :=
  ∃ gateway store, net.gateways gateway = some store ∧ store.zone = zone ∧
    store.webrtc.localSources ≠ []

/-- A media node of a zone. -/
def MediaOf (zone : ZoneId) (node : NodeId) : Prop :=
  net.gateways node = none ∧
    ∃ gateway store, net.gateways gateway = some store ∧ store.zone = zone ∧
      node ∈ store.webrtc.localSources.map NodeSource.node

/-- Every gateway knows where the zones are and which of them have media nodes. -/
structure Consistent (place : ZoneId → Location) : Prop where
  location : ∀ gateway store, net.gateways gateway = some store →
    store.webrtc.location = place store.zone
  nodes : ∀ gateway store, net.gateways gateway = some store →
    ∀ s ∈ store.webrtc.localSources, net.gateways s.node = none
  own : ∀ gateway store, net.gateways gateway = some store → net.Staffed store.zone →
    store.webrtc.localSources ≠ []
  zones : ∀ gateway store, net.gateways gateway = some store → ∀ z ∈ store.webrtc.zoneSources,
    z.zone ≠ store.zone ∧ net.Staffed z.zone ∧ z.location = place z.zone ∧ z.gateways ≠ []
  gateways : ∀ gateway store, net.gateways gateway = some store →
    ∀ z ∈ store.webrtc.zoneSources, ∀ s ∈ z.gateways,
      ∃ store', net.gateways s.node = some store' ∧ store'.zone = z.zone
  covers : ∀ gateway store, net.gateways gateway = some store → ∀ zone, zone ≠ store.zone →
    net.Staffed zone → ∃ z ∈ store.webrtc.zoneSources, z.zone = zone

/-- One of the zones with a media node that are nearest to a location. -/
structure Nearest (place : ZoneId → Location) (x : Location) (zone : ZoneId) : Prop where
  staffed : net.Staffed zone
  least : ∀ zone', net.Staffed zone' →
    net.distance x (place zone) ≤ net.distance x (place zone')

/-- What a gateway of a zone may do with a request from a location. -/
inductive Picks (place : ZoneId → Location) (zone : ZoneId) (x : Location) : Option NodeId → Prop
  | own {node : NodeId} (hnode : net.MediaOf zone node) (hnear : net.Nearest place x zone) :
      Picks place zone x (some node)
  | other {gateway : NodeId} {store : GatewayStore Location}
      (hgateway : net.gateways gateway = some store)
      (hnear : net.Nearest place x store.zone)
      (hless : net.Staffed zone →
        net.distance x (place store.zone) < net.distance x (place zone)) :
      Picks place zone x (some gateway)
  | none (hempty : ∀ zone', ¬ net.Staffed zone') : Picks place zone x none

variable {net} {place : ZoneId → Location}

section Selection

variable (hcons : net.Consistent place) (hsymm : ∀ x y, net.distance x y = net.distance y x)

include hcons hsymm

/-- **Selection.** A gateway whose store agrees with the others picks a nearest zone. -/
theorem next_picks {gateway : NodeId} {store : GatewayStore Location}
    (hgateway : net.gateways gateway = some store) (location : Option Location) :
    net.Picks place store.zone (location.getD (place store.zone)) (net.next store location) := by
  have hlocation := hcons.location gateway store hgateway
  generalize hx : location.getD (place store.zone) = x
  have hspec := ServiceStore.bestFrom_spec net.distance
    (fun z hz => (hcons.zones gateway store hgateway z hz).2.2.2) x
    (net.distance store.webrtc.location x)
    (store.webrtc.localSources.head?.map NodeSource.node)
  have hnext : net.next store location = ServiceStore.bestFrom net.distance x
      (net.distance store.webrtc.location x)
      (store.webrtc.localSources.head?.map NodeSource.node) store.webrtc.zoneSources := by
    rw [← hx, ← hlocation]
    rfl
  have hown : net.distance store.webrtc.location x = net.distance x (place store.zone) := by
    rw [hlocation, hsymm]
  -- a zone that is staffed and not this one is in the list
  have hlisted : ∀ d, (∀ z ∈ store.webrtc.zoneSources, d ≤ net.distance x z.location) →
      ∀ zone, zone ≠ store.zone → net.Staffed zone → d ≤ net.distance x (place zone) := by
    intro d hd zone hne hzone
    obtain ⟨z, hz, hzeq⟩ := hcons.covers gateway store hgateway zone hne hzone
    rw [← hzeq, ← (hcons.zones gateway store hgateway z hz).2.2.1]
    exact hd z hz
  rw [hnext]
  rcases hspec with ⟨z, hz, hbest, hleast, hless⟩ | ⟨hbest, hempty, hleast⟩
  · obtain ⟨-, hstaffed, hplace, hsome⟩ := hcons.zones gateway store hgateway z hz
    have hnearer : net.Staffed store.zone →
        net.distance x (place z.zone) < net.distance x (place store.zone) := by
      intro hzone
      have hlocal := hcons.own gateway store hgateway hzone
      rw [← hplace, ← hown]
      refine hless ?_
      cases hsources : store.webrtc.localSources with
      | nil => exact absurd hsources hlocal
      | cons s rest => simp
    have hnear : net.Nearest place x z.zone := by
      refine ⟨hstaffed, ?_⟩
      intro zone' hzone'
      by_cases hne : zone' = store.zone
      · rw [hne] at hzone' ⊢
        exact (hnearer hzone').le
      · rw [← hplace]
        exact hlisted _ hleast zone' hne hzone'
    rw [hbest]
    cases hgateways : z.gateways with
    | nil => exact absurd hgateways hsome
    | cons s rest =>
      have hs : s ∈ z.gateways := by rw [hgateways]; exact List.mem_cons_self ..
      obtain ⟨store', hstore', hzone'⟩ := hcons.gateways gateway store hgateway z hz s hs
      rw [← hzone'] at hnear hnearer
      exact Picks.other hstore' hnear hnearer
  · rw [hbest]
    cases hsources : store.webrtc.localSources with
    | nil =>
      rw [hsources] at hempty
      have hzones := hempty rfl
      refine Picks.none ?_
      intro zone hzone
      by_cases hne : zone = store.zone
      · rw [hne] at hzone
        exact hcons.own gateway store hgateway hzone hsources
      · obtain ⟨z, hz, -⟩ := hcons.covers gateway store hgateway zone hne hzone
        rw [hzones] at hz
        cases hz
    | cons s rest =>
      have hs : s ∈ store.webrtc.localSources := by rw [hsources]; exact List.mem_cons_self ..
      refine Picks.own ⟨hcons.nodes gateway store hgateway s hs, gateway, store, hgateway, rfl,
        List.mem_map_of_mem hs⟩ ⟨⟨gateway, store, hgateway, rfl, List.ne_nil_of_mem hs⟩, ?_⟩
      intro zone' hzone'
      by_cases hne : zone' = store.zone
      · rw [hne]
      · rw [← hown]
        exact hlisted _ hleast zone' hne hzone'

/-- **Confirmation.** A gateway of a zone that is nearest picks a node of its own. -/
theorem next_confirms {gateway : NodeId} {store : GatewayStore Location}
    (hgateway : net.gateways gateway = some store) {location : Option Location}
    (hnear : net.Nearest place (location.getD (place store.zone)) store.zone) :
    ∃ node, net.next store location = some node ∧ net.MediaOf store.zone node := by
  have hpicks := next_picks hcons hsymm hgateway location
  generalize hnext : net.next store location = dest at hpicks
  cases hpicks with
  | @own node hnode _ => exact ⟨node, rfl, hnode⟩
  | other _ hother hless =>
    exact absurd (hless hnear.staffed) (not_lt.mpr (hnear.least _ hother.staffed))
  | none hempty => exact absurd hnear.staffed (hempty _)

end Selection

/-- **Connect requests.** If the stores agree, a request passes at most one gateway after
    the first and ends at a media node of a nearest zone; the pool is empty exactly if no
    zone has a media node. -/
theorem connect_nearest (hcons : net.Consistent place)
    (hsymm : ∀ x y, net.distance x y = net.distance y x)
    (hself : ∀ x y, net.distance x x ≤ net.distance x y)
    {gateway : NodeId} {store : GatewayStore Location}
    (hgateway : net.gateways gateway = some store) {req : RpcReq ClusterConnId} {ip : IpAddr}
    (hip : connectIp req = some ip) (hparse : net.parseIp ip = some ip) (fuel : Nat) :
    ((net.enter (fuel + 2) store req).1.filter fun node => (net.gateways node).isSome).length ≤ 1 ∧
    ((∃ zone, net.Staffed zone) →
      ∃ zone node, (net.enter (fuel + 2) store req).1.getLast? = some node ∧
        net.MediaOf zone node ∧
        net.Nearest place ((net.getLocation ip).getD (place store.zone)) zone) ∧
    (PoolEmpty (net.enter (fuel + 2) store req).2 ↔ ¬ ∃ zone, net.Staffed zone) := by
  obtain ⟨edge, hedge, hpath, hempty⟩ := net.enter_connect hip (fuel + 2) store
  rw [hpath, hempty]
  have hpicks := next_picks hcons hsymm hgateway (net.getLocation ip)
  generalize net.next store (net.getLocation ip) = dest at hpicks
  cases hpicks with
  | @own node hnode hnear =>
    have hfollow : net.follow (fuel + 2) edge (some node) = [node] :=
      net.serve_media hnode.1 (fuel + 1) edge
    rw [hfollow]
    refine ⟨?_, ?_, ?_⟩
    · exact List.length_filter_le _ _
    · intro _
      exact ⟨store.zone, node, rfl, hnode, hnear⟩
    · simp only [reduceCtorEq, false_iff, not_not]
      exact ⟨store.zone, hnear.staffed⟩
  | @other second store' hsecond hnear _ =>
    -- the second gateway sees the location of the client, or stands in for it
    have hnear' : net.Nearest place ((net.getLocation ip).getD (place store'.zone))
        store'.zone := by
      cases hlocation : net.getLocation ip with
      | none => exact ⟨hnear.staffed, fun zone' _ => hself _ _⟩
      | some x =>
        rw [hlocation] at hnear
        exact hnear
    obtain ⟨node, hnext, hnode⟩ := next_confirms hcons hsymm hsecond hnear'
    have hfollow : net.follow (fuel + 2) edge (some second) = [second, node] := by
      rw [follow, net.serve_gateway hsecond (fuel + 1) hedge, hparse, Option.bind_some, hnext,
        follow, net.serve_media hnode.1]
    rw [hfollow]
    refine ⟨?_, ?_, ?_⟩
    · rw [List.filter_cons, hsecond, List.filter_cons, hnode.1]
      simp
    · intro _
      exact ⟨store'.zone, node, rfl, hnode, hnear⟩
    · simp only [reduceCtorEq, false_iff, not_not]
      exact ⟨store'.zone, hnear.staffed⟩
  | none hnone =>
    refine ⟨Nat.zero_le _, ?_, ?_⟩
    · rintro ⟨zone, hzone⟩
      exact absurd hzone (hnone zone)
    · simp only [true_iff, not_exists]
      exact hnone

/-- The store of a gateway of a small world of zones 1 and 2 with a media node each. -/
def smallStore (zone : ZoneId) (location : Nat) (nodes : List NodeId)
    (others : List (ZoneId × Nat)) : GatewayStore Nat :=
  { GatewayStore.new zone location ⟨90, 90, 90⟩ with
    webrtc := ⟨zone, .webrtc, location, nodes.map fun node => ⟨node, 0, ⟨0, 10, true⟩, 0⟩,
      others.map (fun z => ⟨z.1, 0, z.2, 0, [⟨z.1 <<< (8 : UInt32), 0, ⟨0, 10, true⟩, 0⟩]⟩ : ZoneId × Nat → ZoneSource Nat)⟩ }

/-- Three zones on a line; the first has no media node. -/
def threeZones : Network Nat Nat where
  gateways node :=
    if node = 0 then some (smallStore 0 0 [] [(1, 5), (2, 9)])
    else if node = 256 then some (smallStore 1 5 [257] [(2, 9)])
    else if node = 512 then some (smallStore 2 9 [513] [(1, 5)])
    else none
  distance x y := (x - y) + (y - x)
  getLocation ip := if ip = "far" then some 8 else none
  parseIp := some
  parseConn _ := none
  showConn _ := ""
  media _ _ := none

def threePlaces (zone : ZoneId) : Nat := if zone = 0 then 0 else if zone = 1 then 5 else 9

theorem threeZones_gateways {gateway : NodeId} {store : GatewayStore Nat}
    (h : threeZones.gateways gateway = some store) :
    store = smallStore 0 0 [] [(1, 5), (2, 9)] ∨ store = smallStore 1 5 [257] [(2, 9)] ∨
      store = smallStore 2 9 [513] [(1, 5)] := by
  simp only [threeZones] at h
  split at h
  · exact Or.inl (Option.some.inj h).symm
  · split at h
    · exact Or.inr (Or.inl (Option.some.inj h).symm)
    · split at h
      · exact Or.inr (Or.inr (Option.some.inj h).symm)
      · cases h

theorem threeZones_staffed {zone : ZoneId} : threeZones.Staffed zone ↔ zone = 1 ∨ zone = 2 := by
  constructor
  · rintro ⟨gateway, store, hgateway, rfl, hlocal⟩
    rcases threeZones_gateways hgateway with rfl | rfl | rfl
    · exact absurd rfl hlocal
    · exact Or.inl rfl
    · exact Or.inr rfl
  · rintro (rfl | rfl)
    · exact ⟨256, smallStore 1 5 [257] [(2, 9)], rfl, rfl, by simp [smallStore]⟩
    · exact ⟨512, smallStore 2 9 [513] [(1, 5)], rfl, rfl, by simp [smallStore]⟩

theorem threeZones_consistent : threeZones.Consistent threePlaces where
  location gateway store h := by
    rcases threeZones_gateways h with rfl | rfl | rfl <;> rfl
  nodes gateway store h s hs := by
    rcases threeZones_gateways h with rfl | rfl | rfl
    · cases hs
    · rw [List.mem_singleton.mp hs]
      rfl
    · rw [List.mem_singleton.mp hs]
      rfl
  own gateway store h hstaffed := by
    rw [threeZones_staffed] at hstaffed
    rcases threeZones_gateways h with rfl | rfl | rfl
    · exact absurd hstaffed (by decide)
    · simp [smallStore]
    · simp [smallStore]
  zones gateway store h z hz := by
    rw [threeZones_staffed]
    rcases threeZones_gateways h with rfl | rfl | rfl
    · rcases List.mem_pair.mp hz with rfl | rfl
      · exact ⟨by decide, Or.inl rfl, rfl, by simp⟩
      · exact ⟨by decide, Or.inr rfl, rfl, by simp⟩
    · rw [List.mem_singleton.mp hz]
      exact ⟨by decide, Or.inr rfl, rfl, by simp⟩
    · rw [List.mem_singleton.mp hz]
      exact ⟨by decide, Or.inl rfl, rfl, by simp⟩
  gateways gateway store h z hz s hs := by
    rcases threeZones_gateways h with rfl | rfl | rfl
    · rcases List.mem_pair.mp hz with rfl | rfl
      · rw [List.mem_singleton.mp hs]
        exact ⟨smallStore 1 5 [257] [(2, 9)], rfl, rfl⟩
      · rw [List.mem_singleton.mp hs]
        exact ⟨smallStore 2 9 [513] [(1, 5)], rfl, rfl⟩
    · rw [List.mem_singleton.mp hz] at hs ⊢
      rw [List.mem_singleton.mp hs]
      exact ⟨smallStore 2 9 [513] [(1, 5)], rfl, rfl⟩
    · rw [List.mem_singleton.mp hz] at hs ⊢
      rw [List.mem_singleton.mp hs]
      exact ⟨smallStore 1 5 [257] [(2, 9)], rfl, rfl⟩
  covers gateway store h zone hne hstaffed := by
    rw [threeZones_staffed] at hstaffed
    rcases threeZones_gateways h with rfl | rfl | rfl
    · rcases hstaffed with rfl | rfl
      · exact ⟨_, List.mem_cons_self .., rfl⟩
      · exact ⟨_, List.mem_cons_of_mem _ (List.mem_cons_self ..), rfl⟩
    · rcases hstaffed with rfl | rfl
      · exact absurd rfl hne
      · exact ⟨_, List.mem_cons_self .., rfl⟩
    · rcases hstaffed with rfl | rfl
      · exact ⟨_, List.mem_cons_self .., rfl⟩
      · exact absurd rfl hne

/-- A client near zone 2 enters at the gateway of zone 0. -/
theorem connect_nearest_threeZones :
    ∃ zone node, (threeZones.enter 2 (smallStore 0 0 [] [(1, 5), (2, 9)])
        (.whep (.connect ⟨⟨"app"⟩, 0, "sdp", "room", "peer", "far", "agent", none⟩))).1.getLast? =
      some node ∧ threeZones.MediaOf zone node ∧ threeZones.Nearest threePlaces 8 zone := by
  have hgateway : threeZones.gateways 0 = some (smallStore 0 0 [] [(1, 5), (2, 9)]) := rfl
  have hparse : threeZones.parseIp "far" = some "far" := rfl
  exact (connect_nearest threeZones_consistent (fun x y => Nat.add_comm _ _)
    (fun x y => by simp [threeZones]) hgateway rfl hparse 0).2.1
    ⟨1, threeZones_staffed.mpr (Or.inl rfl)⟩

end Network

end MediaServer.Gateway
