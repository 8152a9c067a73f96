import MediaServer.Gateway.Routing

/-!
# Gateways that tell each other about their zones

Every zone has a gateway.  Media nodes ping the gateway of their zone, and every gateway
pings the others at its ticks; these pings are on the way for any time, and each gateway
decides from what has reached it (`packages/media_gateway/src/{store_service,
agent_service}.rs`).

What a gateway lists is true in two respects, whatever the order of events: the gateways of
a zone are the gateways of that zone, and the zone is where it is listed to be.  It may be
outdated in the third: the zone may have lost its media nodes.  Then two gateways can send a
request to each other for as long as this lasts, since nothing in a request or in a gateway
counts the hops (`stale_loop`).  While no such listing exists, every gateway gets a request
at most once (`forwards_once`).
-/

namespace MediaServer.Gateway

open Rpc

/-! ### The world -/

/-- A gateway as it is started. -/
structure Site (Location : Type) where
  zone : ZoneId
  location : Location
  limits : Limits

/-- The gateways of the world, one for each zone. -/
structure Layout (Location : Type) where
  gateways : List NodeId
  site : NodeId → Site Location
  zone_injective : ∀ g ∈ gateways, ∀ h ∈ gateways, (site g).zone = (site h).zone → g = h

/-- A ping of a gateway that is on its way. -/
structure Packet (Location : Type) where
  sender : NodeId
  receiver : NodeId
  ping : PingEvent Location

structure World (Location : Type) where
  now : Nat
  store : NodeId → GatewayStore Location
  inFlight : List (Packet Location)

inductive Act (Location : Type) where
  | wait (ms : Nat)
  | mediaPing (gateway sender : NodeId) (ping : PingEvent Location)
  | nodeMetrics (gateway : NodeId) (metrics : NodeMetrics)
  | tick (gateway : NodeId)
  | deliver (index : Nat)

namespace World

variable {Location : Type}

def setStore (w : World Location) (gateway : NodeId) (store : GatewayStore Location) :
    World Location :=
  { w with store := fun g => if g = gateway then store else w.store g }

/-- The ping of a gateway goes to all others. -/
def broadcast (w : World Location) (layout : Layout Location) (gateway : NodeId)
    (ping : PingEvent Location) : World Location :=
  { w with inFlight := w.inFlight ++
      (layout.gateways.filter fun g => g ≠ gateway).map fun g => ⟨gateway, g, ping⟩ }

/-- A ping is handled at the present time. -/
def hear (w : World Location) (gateway sender : NodeId) (ping : PingEvent Location) :
    Option (World Location) :=
  match (w.store gateway).onPing w.now sender ping with
  | .ok store => some (w.setStore gateway store)
  | .error _ => none

/-- The service of a gateway ticks its store and sends what it puts out. -/
def tick (w : World Location) (layout : Layout Location) (gateway : NodeId) :
    Option (World Location) :=
  match (w.store gateway).onTick w.now with
  | .ok store =>
    let w := w.setStore gateway { store with output := none }
    match store.output with
    | some ping => some (w.broadcast layout gateway ping)
    | none => some w
  | .error _ => none

end World

namespace Layout

variable {Location : Type} (layout : Layout Location)

def start : World Location where
  now := 0
  store g := .new (layout.site g).zone (layout.site g).location (layout.site g).limits
  inFlight := []

/-- Gateways act, media nodes are no gateways, and a packet that is delivered is gone.
    There is no step in which a gateway panics. -/
def step (w : World Location) : Act Location → Option (World Location)
  | .wait ms => some { w with now := w.now + ms }
  | .mediaPing gateway sender ping =>
    if gateway ∈ layout.gateways ∧ sender ∉ layout.gateways then
      match ping.origin with
      | .media => w.hear gateway sender ping
      | .gateway _ _ => none
    else none
  | .nodeMetrics gateway metrics =>
    some (w.setStore gateway ((w.store gateway).onNodeMetrics metrics))
  | .tick gateway => if gateway ∈ layout.gateways then w.tick layout gateway else none
  | .deliver index =>
    match w.inFlight[index]? with
    | some p => { w with inFlight := w.inFlight.eraseIdx index }.hear p.receiver p.sender p.ping
    | none => none

def run (acts : List (Act Location)) : Option (World Location) := acts.foldlM layout.step layout.start

end Layout

/-! ### What is true of a store -/

namespace NodeSource

variable {sources : List NodeSource} {P : NodeId → Prop}

theorem forall_update {now : Nat} {node : NodeId} {usage : UInt8} {stats : ServiceStats}
    (h : ∀ s ∈ sources, P s.node) (hnode : P node) :
    ∀ s ∈ update now node usage stats sources, P s.node := by
  intro s hs
  by_cases heq : s.node = node
  · rw [heq]
    exact hnode
  · exact h s ((mem_update_of_ne heq).mp hs)

theorem forall_sort (h : ∀ s ∈ sources, P s.node) : ∀ s ∈ sort sources, P s.node :=
  fun s hs => h s (mem_sort.mp hs)

theorem forall_remove {node : NodeId} (h : ∀ s ∈ sources, P s.node) :
    ∀ s ∈ remove node sources, P s.node :=
  fun s hs => h s (List.mem_of_mem_eraseP hs)

theorem forall_retain {now : Nat} (h : ∀ s ∈ sources, P s.node) :
    ∀ s ∈ retain now sources, P s.node :=
  fun s hs => h s (List.mem_filter.mp hs).1

end NodeSource

/-- What a list says of a zone: who its gateways are, and where it is. -/
structure ZoneSource.Says {Location : Type} (P : ZoneId → Location → NodeId → Prop)
    (z : ZoneSource Location) : Prop where
  staffed : z.gateways ≠ []
  each : ∀ s ∈ z.gateways, P z.zone z.location s.node

namespace ZoneSource

variable {Location : Type} {P : ZoneId → Location → NodeId → Prop}
  {zones : List (ZoneSource Location)}

/-- A ping that says the same of its zone.  The location of a known zone stays the one of
    its first ping, so the new gateway has to be right for that. -/
theorem forall_update {now : Nat} {zone : ZoneId} {gateway : NodeId} {gatewayUsage : UInt8}
    {location : Location} {usage : UInt8} {stats : ServiceStats}
    (h : ∀ z ∈ zones, z.Says P) (hnew : P zone location gateway)
    (hold : ∀ z ∈ zones, z.zone = zone → P zone z.location gateway) :
    ∀ z ∈ update now zone gateway gatewayUsage location usage stats zones, z.Says P := by
  induction zones with
  | nil =>
    intro z hz
    rw [List.mem_singleton.mp hz]
    refine ⟨by simp, ?_⟩
    intro s hs
    rw [List.mem_singleton.mp hs]
    exact hnew
  | cons first rest ih =>
    have hrest := ih (fun z hz => h z (List.mem_cons_of_mem _ hz))
      (fun z hz => hold z (List.mem_cons_of_mem _ hz))
    have hfirst := h first (List.mem_cons_self ..)
    intro z hz
    rw [update] at hz
    split at hz
    · rename_i heq
      rcases List.mem_cons.mp hz with rfl | hz
      · have hgateway := hold first (List.mem_cons_self ..) heq
        rw [← heq] at hgateway
        refine ⟨?_, ?_⟩
        · rw [ne_eq, ← List.length_eq_zero_iff, NodeSource.sort, List.length_insertionSort,
            List.length_eq_zero_iff]
          exact NodeSource.update_ne_nil
        · exact NodeSource.forall_sort (NodeSource.forall_update hfirst.each hgateway)
      · exact h z (List.mem_cons_of_mem _ hz)
    · rcases List.mem_cons.mp hz with rfl | hz
      · exact hfirst
      · exact hrest z hz

theorem forall_remove {zone : ZoneId} {gateway : NodeId} (h : ∀ z ∈ zones, z.Says P) :
    ∀ z ∈ remove zone gateway zones, z.Says P := by
  induction zones with
  | nil => exact h
  | cons first rest ih =>
    have hrest := ih (fun z hz => h z (List.mem_cons_of_mem _ hz))
    have hfirst := h first (List.mem_cons_self ..)
    intro z hz
    rw [remove] at hz
    split at hz
    · split at hz
      · exact h z (List.mem_cons_of_mem _ hz)
      · rename_i hsome
        rcases List.mem_cons.mp hz with rfl | hz
        · exact ⟨by simpa using hsome, NodeSource.forall_remove hfirst.each⟩
        · exact h z (List.mem_cons_of_mem _ hz)
    · rcases List.mem_cons.mp hz with rfl | hz
      · exact hfirst
      · exact hrest z hz

theorem forall_retain {now : Nat} (h : ∀ z ∈ zones, z.Says P) :
    ∀ z ∈ retain now zones, z.Says P := by
  intro z hz
  obtain ⟨hmem, hsome⟩ := List.mem_filter.mp hz
  obtain ⟨z₀, hz₀, rfl⟩ := List.mem_map.mp hmem
  exact ⟨by simpa using hsome, NodeSource.forall_retain (h z₀ hz₀).each⟩

end ZoneSource

namespace Layout

variable {Location : Type} {layout : Layout Location}

/-- Who the gateway of a zone is, and where. -/
def Right (layout : Layout Location) (zone : ZoneId) (location : Location) (node : NodeId) : Prop :=
  node ∈ layout.gateways ∧ (layout.site node).zone = zone ∧ (layout.site node).location = location

/-- A node that is no gateway. -/
def IsMedia (layout : Layout Location) (node : NodeId) : Prop := node ∉ layout.gateways

/-- What one store holds is true of the layout. -/
structure Truthful (layout : Layout Location) (store : ServiceStore Location) : Prop where
  nodes : ∀ s ∈ store.localSources, layout.IsMedia s.node
  zones : ∀ z ∈ store.zoneSources, z.Says layout.Right

theorem Truthful.onTick {store : ServiceStore Location} (h : layout.Truthful store) (now : Nat) :
    layout.Truthful (store.onTick now) :=
  ⟨NodeSource.forall_retain h.nodes, ZoneSource.forall_retain h.zones⟩

theorem Truthful.onMediaPing {store : ServiceStore Location} (h : layout.Truthful store)
    {sender : NodeId} (hsender : layout.IsMedia sender) (now : Nat)
    (node usage : Option UInt8) (stats : Option ServiceStats) :
    layout.Truthful (store.onMediaPing now sender node usage stats) := by
  rw [ServiceStore.onMediaPing.eq_def]
  split
  · exact ⟨NodeSource.forall_sort (NodeSource.forall_update h.nodes hsender), h.zones⟩
  · exact ⟨NodeSource.forall_remove h.nodes, h.zones⟩

/-- A ping of a gateway says what the other pings of its zone said. -/
theorem Truthful.onGatewayPing {store : ServiceStore Location} (h : layout.Truthful store)
    {sender : NodeId} (hsender : sender ∈ layout.gateways) (now : Nat) (gatewayUsage usage : UInt8)
    (stats : ServiceStats) :
    layout.Truthful (store.onGatewayPing now (layout.site sender).zone sender gatewayUsage
      (layout.site sender).location usage stats) := by
  refine ⟨NodeSource.forall_sort h.nodes, ?_⟩
  refine ZoneSource.forall_update h.zones ⟨hsender, rfl, rfl⟩ ?_
  intro z hz hzone
  obtain ⟨s, hs⟩ := List.exists_mem_of_ne_nil _ (h.zones z hz).staffed
  obtain ⟨hmem, hszone, hslocation⟩ := (h.zones z hz).each s hs
  have hsame := layout.zone_injective _ hmem _ hsender (hszone.trans hzone)
  rw [hsame] at hslocation
  exact ⟨hsender, rfl, hslocation⟩

theorem Truthful.removeGateway {store : ServiceStore Location} (h : layout.Truthful store)
    (zone : ZoneId) (gateway : NodeId) : layout.Truthful (store.removeGateway zone gateway) :=
  ⟨h.nodes, ZoneSource.forall_remove h.zones⟩

/-- The invariant of the world. -/
structure Keeps (layout : Layout Location) (w : World Location) : Prop where
  zone : ∀ g, (w.store g).zone = (layout.site g).zone
  location : ∀ g, (w.store g).location = (layout.site g).location
  webrtcLocation : ∀ g, (w.store g).webrtc.location = (layout.site g).location
  truthful : ∀ g, layout.Truthful (w.store g).webrtc
  packets : ∀ p ∈ w.inFlight, p.sender ∈ layout.gateways ∧
    p.ping.origin = .gateway (layout.site p.sender).zone (some (layout.site p.sender).location)

theorem Keeps.start (layout : Layout Location) : layout.Keeps layout.start where
  zone _ := rfl
  location _ := rfl
  webrtcLocation _ := rfl
  truthful _ := ⟨by simp [Layout.start, GatewayStore.new, ServiceStore.new],
    by simp [Layout.start, GatewayStore.new, ServiceStore.new]⟩
  packets := by simp [Layout.start]

theorem Keeps.setStore {w : World Location} (h : layout.Keeps w) {gateway : NodeId}
    {store : GatewayStore Location} (hzone : store.zone = (layout.site gateway).zone)
    (hlocation : store.location = (layout.site gateway).location)
    (hwebrtc : store.webrtc.location = (layout.site gateway).location)
    (htruthful : layout.Truthful store.webrtc) : layout.Keeps (w.setStore gateway store) := by
  refine ⟨?_, ?_, ?_, ?_, h.packets⟩ <;> intro g <;> rw [World.setStore] <;> dsimp only <;> split
  · rename_i heq
    rw [heq, hzone]
  · exact h.zone g
  · rename_i heq
    rw [heq, hlocation]
  · exact h.location g
  · rename_i heq
    rw [heq, hwebrtc]
  · exact h.webrtcLocation g
  · exact htruthful
  · exact h.truthful g

/-- A ping that is true of its sender. -/
theorem Keeps.hear {w w' : World Location} (h : layout.Keeps w) {gateway sender : NodeId}
    {ping : PingEvent Location} (hmedia : ping.origin = .media → sender ∉ layout.gateways)
    (hgateway : ∀ zone location, ping.origin = .gateway zone location →
      sender ∈ layout.gateways ∧ zone = (layout.site sender).zone ∧
        location = some (layout.site sender).location)
    (hhear : w.hear gateway sender ping = some w') : layout.Keeps w' := by
  rw [World.hear] at hhear
  split at hhear
  · rename_i store hstore
    cases hhear
    have hold := h.truthful gateway
    have hplace := h.webrtcLocation gateway
    cases GatewayStore.onPing_eq_ok hstore with
    | media horigin =>
      refine h.setStore (h.zone gateway) (h.location gateway) ?_
        (hold.onMediaPing (hmedia horigin) _ _ _ _)
      dsimp only
      rw [ServiceStore.onMediaPing.eq_def]
      split <;> exact hplace
    | own _ => exact h.setStore (h.zone gateway) (h.location gateway) hplace hold
    | joins horigin _ _ _ =>
      obtain ⟨hsender, rfl, hat⟩ := hgateway _ _ horigin
      cases hat
      exact h.setStore (h.zone gateway) (h.location gateway) hplace
        (hold.onGatewayPing hsender _ _ _ _)
    | leaves _ _ _ =>
      exact h.setStore (h.zone gateway) (h.location gateway) hplace (hold.removeGateway _ _)
  · cases hhear

theorem Keeps.step {w w' : World Location} (h : layout.Keeps w) {act : Act Location}
    (hstep : layout.step w act = some w') : layout.Keeps w' := by
  cases act with
  | wait ms =>
    cases hstep
    exact ⟨h.zone, h.location, h.webrtcLocation, h.truthful, h.packets⟩
  | mediaPing gateway sender ping =>
    rw [Layout.step] at hstep
    split at hstep
    · rename_i hguard
      split at hstep
      · rename_i horigin
        refine h.hear (fun _ => hguard.2) ?_ hstep
        intro zone location hother
        rw [horigin] at hother
        cases hother
      · cases hstep
    · cases hstep
  | nodeMetrics gateway metrics =>
    cases hstep
    exact h.setStore (h.zone gateway) (h.location gateway) (h.webrtcLocation gateway)
      (h.truthful gateway)
  | tick gateway =>
    rw [Layout.step] at hstep
    split at hstep
    · rename_i hmem
      rw [World.tick] at hstep
      split at hstep
      · rename_i store hstore
        obtain ⟨webrtc, rtpengine, rfl⟩ := GatewayStore.onTick_eq_ok hstore
        cases hstep
        have hset : layout.Keeps (w.setStore gateway { w.store gateway with
            webrtc := (w.store gateway).webrtc.onTick w.now
            rtpengine := (w.store gateway).rtpengine.onTick w.now
            output := none }) :=
          h.setStore (h.zone gateway) (h.location gateway) (h.webrtcLocation gateway)
            ((h.truthful gateway).onTick w.now)
        refine ⟨hset.zone, hset.location, hset.webrtcLocation, hset.truthful, ?_⟩
        intro p hp
        rcases List.mem_append.mp hp with hp | hp
        · exact h.packets p hp
        · obtain ⟨g, -, rfl⟩ := List.mem_map.mp hp
          refine ⟨hmem, ?_⟩
          change Origin.gateway (w.store gateway).zone (some (w.store gateway).location) = _
          rw [h.zone, h.location]
      · cases hstep
    · cases hstep
  | deliver index =>
    rw [Layout.step] at hstep
    split at hstep
    · rename_i p hp
      have hmem : p ∈ w.inFlight := List.mem_of_getElem? hp
      obtain ⟨hsender, horigin⟩ := h.packets p hmem
      have hrest : layout.Keeps { w with inFlight := w.inFlight.eraseIdx index } :=
        ⟨h.zone, h.location, h.webrtcLocation, h.truthful,
          fun q hq => h.packets q (List.mem_of_mem_eraseIdx hq)⟩
      refine hrest.hear ?_ ?_ hstep
      · intro hmedia
        rw [horigin] at hmedia
        cases hmedia
      · intro zone location hother
        rw [horigin] at hother
        cases hother
        exact ⟨hsender, rfl, rfl⟩
    · cases hstep

/-- **Runs.** -/
theorem Keeps.run {acts : List (Act Location)} {w : World Location}
    (h : layout.run acts = some w) : layout.Keeps w := by
  have hfrom : ∀ (acts : List (Act Location)) (w₀ : World Location), layout.Keeps w₀ →
      acts.foldlM layout.step w₀ = some w → layout.Keeps w := by
    intro acts
    induction acts with
    | nil =>
      intro w₀ h₀ hrun
      cases hrun
      exact h₀
    | cons act rest ih =>
      intro w₀ h₀ hrun
      rw [List.foldlM_cons] at hrun
      cases hstep : layout.step w₀ act with
      | none => simp [hstep] at hrun
      | some w₁ =>
        rw [hstep] at hrun
        exact ih w₁ (h₀.step hstep) hrun
  exact hfrom acts _ (Keeps.start layout) h

end Layout

/-! ### Forwarding -/

namespace Network

variable {Location D : Type} [LinearOrder D] {net : Network Location D}

/-- The lists of the gateways are true of the network. -/
structure Honest (net : Network Location D) : Prop where
  nodes : ∀ g store, net.gateways g = some store →
    ∀ s ∈ store.webrtc.localSources, net.gateways s.node = none
  staffed : ∀ g store, net.gateways g = some store →
    ∀ z ∈ store.webrtc.zoneSources, z.gateways ≠ []
  zones : ∀ g store, net.gateways g = some store → ∀ z ∈ store.webrtc.zoneSources,
    ∀ s ∈ z.gateways, ∃ store', net.gateways s.node = some store' ∧
      store'.webrtc.location = z.location

/-- A gateway that another one lists has a media node. -/
def Fresh (net : Network Location D) : Prop :=
  ∀ g store, net.gateways g = some store → ∀ z ∈ store.webrtc.zoneSources, ∀ s ∈ z.gateways,
    ∀ store', net.gateways s.node = some store' → store'.webrtc.localSources ≠ []

/-- The client can be located, and is nearer to the first gateway than to the second. -/
def Nearer (net : Network Location D) (location : Option Location)
    (store store' : GatewayStore Location) : Prop :=
  ∃ x, location = some x ∧
    net.distance x store.webrtc.location < net.distance x store'.webrtc.location

theorem Nearer.trans {location : Option Location} {s₁ s₂ s₃ : GatewayStore Location}
    (h : net.Nearer location s₁ s₂) (h' : net.Nearer location s₂ s₃) :
    net.Nearer location s₁ s₃ := by
  obtain ⟨x, rfl, hlt⟩ := h
  obtain ⟨y, heq, hlt'⟩ := h'
  cases heq
  exact ⟨x, rfl, hlt.trans hlt'⟩

theorem Nearer.irrefl {location : Option Location} {s : GatewayStore Location} :
    ¬ net.Nearer location s s := by
  rintro ⟨x, -, hlt⟩
  exact lt_irrefl _ hlt

/-- What a gateway may do with a request. -/
inductive Hands (net : Network Location D) (store : GatewayStore Location)
    (location : Option Location) : Option NodeId → Prop
  | media {node : NodeId} (hnode : net.gateways node = none) : Hands net store location (some node)
  | gateway {node : NodeId} {store' : GatewayStore Location}
      (hnode : net.gateways node = some store') (hstaffed : store'.webrtc.localSources ≠ [])
      (hless : store.webrtc.localSources ≠ [] → net.Nearer location store' store) :
      Hands net store location (some node)
  | none (hempty : store.webrtc.localSources = []) : Hands net store location none

section Walk

variable (hhonest : net.Honest) (hfresh : net.Fresh)
  (hsymm : ∀ x y, net.distance x y = net.distance y x)
  (hself : ∀ x y, net.distance x x ≤ net.distance x y)

include hhonest hfresh hsymm hself

theorem next_hands {gateway : NodeId} {store : GatewayStore Location}
    (hgateway : net.gateways gateway = some store) (location : Option Location) :
    net.Hands store location (net.next store location) := by
  have hspec := ServiceStore.bestFrom_spec net.distance (hhonest.staffed gateway store hgateway)
    (location.getD store.webrtc.location)
    (net.distance store.webrtc.location (location.getD store.webrtc.location))
    (store.webrtc.localSources.head?.map NodeSource.node)
  change net.Hands store location (ServiceStore.bestFrom net.distance
    (location.getD store.webrtc.location)
    (net.distance store.webrtc.location (location.getD store.webrtc.location))
    (store.webrtc.localSources.head?.map NodeSource.node) store.webrtc.zoneSources)
  rcases hspec with ⟨z, hz, hbest, -, hless⟩ | ⟨hbest, -, -⟩
  · rw [hbest]
    cases hgateways : z.gateways with
    | nil => exact absurd hgateways (hhonest.staffed gateway store hgateway z hz)
    | cons s rest =>
      have hs : s ∈ z.gateways := by rw [hgateways]; exact List.mem_cons_self ..
      obtain ⟨store', hstore', hplace⟩ := hhonest.zones gateway store hgateway z hz s hs
      refine Hands.gateway hstore' (hfresh gateway store hgateway z hz s hs store' hstore') ?_
      intro hlocal
      have hlt : net.distance (location.getD store.webrtc.location) z.location <
          net.distance store.webrtc.location (location.getD store.webrtc.location) := by
        refine hless ?_
        cases hsources : store.webrtc.localSources with
        | nil => exact absurd hsources hlocal
        | cons s rest => simp
      rw [← hplace, hsymm store.webrtc.location] at hlt
      cases location with
      | none => exact absurd hlt (not_lt.mpr (hself _ _))
      | some x => exact ⟨x, rfl, hlt⟩
  · rw [hbest]
    cases hsources : store.webrtc.localSources with
    | nil => exact Hands.none hsources
    | cons s rest =>
      refine Hands.media (hhonest.nodes gateway store hgateway s ?_)
      rw [hsources]
      exact List.mem_cons_self ..

variable {req : EdgeReq} {ip : String} (hip : req.connectIp = some ip)

include hip

/-- From a gateway with a media node on, every gateway has one and is nearer to the client
    than the one before. -/
theorem serve_nearer (fuel : Nat) {gateway : NodeId} {store : GatewayStore Location}
    (hgateway : net.gateways gateway = some store) (hlocal : store.webrtc.localSources ≠ []) :
    (∀ g ∈ (net.serve fuel gateway req).1, ∀ store', net.gateways g = some store' →
      store'.webrtc.localSources ≠ [] ∧
        (g = gateway ∨ net.Nearer ((net.parseIp ip).bind net.getLocation) store' store)) ∧
    ((net.serve fuel gateway req).1.filter fun g => (net.gateways g).isSome).Nodup := by
  induction fuel generalizing gateway store with
  | zero => exact ⟨by simp [serve], by simp [serve]⟩
  | succ fuel ih =>
    rw [net.serve_gateway hgateway fuel hip, List.filter_cons, hgateway]
    have hhands := next_hands hhonest hfresh hsymm hself hgateway
      ((net.parseIp ip).bind net.getLocation)
    -- what follows the gateway is nearer, so the gateway itself does not come back
    have hrest : (∀ g ∈ net.follow fuel req
          (net.next store ((net.parseIp ip).bind net.getLocation)),
          ∀ store', net.gateways g = some store' → store'.webrtc.localSources ≠ [] ∧
            net.Nearer ((net.parseIp ip).bind net.getLocation) store' store) ∧
        ((net.follow fuel req (net.next store ((net.parseIp ip).bind net.getLocation))).filter
          fun g => (net.gateways g).isSome).Nodup := by
      generalize net.next store ((net.parseIp ip).bind net.getLocation) = dest at hhands
      cases hhands with
      | @media node hnode =>
        cases fuel with
        | zero => exact ⟨by simp [follow, serve], by simp [follow, serve]⟩
        | succ fuel =>
          rw [follow, net.serve_media hnode]
          refine ⟨?_, (List.nodup_singleton node).filter _⟩
          intro g hg store' hstore'
          rw [List.mem_singleton.mp hg, hnode] at hstore'
          cases hstore'
      | @gateway second store₂ hsecond hstaffed hless =>
        have hnearer := hless hlocal
        obtain ⟨heach, hnodup⟩ := ih hsecond hstaffed
        refine ⟨?_, hnodup⟩
        intro g hg store' hstore'
        obtain ⟨hlocal', hsame | hfurther⟩ := heach g hg store' hstore'
        · rw [hsame, hsecond] at hstore'
          cases hstore'
          exact ⟨hlocal', hnearer⟩
        · exact ⟨hlocal', hfurther.trans hnearer⟩
      | none hempty => exact absurd hempty hlocal
    refine ⟨?_, ?_⟩
    · intro g hg store' hstore'
      rcases List.mem_cons.mp hg with rfl | hg
      · rw [hgateway] at hstore'
        cases hstore'
        exact ⟨hlocal, Or.inl rfl⟩
      · obtain ⟨hlocal', hnearer⟩ := hrest.1 g hg store' hstore'
        exact ⟨hlocal', Or.inr hnearer⟩
    · refine List.nodup_cons.mpr ⟨?_, hrest.2⟩
      intro hmem
      exact Nearer.irrefl (hrest.1 gateway (List.mem_filter.mp hmem).1 store hgateway).2

/-- The way ends at a media node unless the fuel runs out. -/
theorem serve_ends (fuel : Nat) {gateway : NodeId} {store : GatewayStore Location}
    (hgateway : net.gateways gateway = some store) (hlocal : store.webrtc.localSources ≠ []) :
    ((net.serve fuel gateway req).1.filter fun g => (net.gateways g).isSome).length = fuel ∨
      ∃ node, (net.serve fuel gateway req).1.getLast? = some node ∧ net.gateways node = none := by
  induction fuel generalizing gateway store with
  | zero => exact Or.inl (by simp [serve])
  | succ fuel ih =>
    rw [net.serve_gateway hgateway fuel hip, List.filter_cons, hgateway, List.getLast?_cons]
    have hhands := next_hands hhonest hfresh hsymm hself hgateway
      ((net.parseIp ip).bind net.getLocation)
    generalize net.next store ((net.parseIp ip).bind net.getLocation) = dest at hhands
    cases hhands with
    | @media node hnode =>
      cases fuel with
      | zero => exact Or.inl rfl
      | succ fuel =>
        rw [follow, net.serve_media hnode]
        exact Or.inr ⟨node, rfl, hnode⟩
    | @gateway second store₂ hsecond hstaffed _ =>
      rcases ih hsecond hstaffed with hlength | ⟨node, hlast, hnode⟩
      · refine Or.inl ?_
        rw [Option.isSome_some, if_pos rfl, List.length_cons]
        exact congrArg (· + 1) hlength
      · refine Or.inr ⟨node, ?_, hnode⟩
        rw [follow, hlast]
        rfl
    | none hempty => exact absurd hempty hlocal

omit hip

variable {rpc : RpcReq ClusterConnId} {client : IpAddr} (hclient : connectIp rpc = some client)
  (hparse : net.parseIp client = some client)

include hclient hparse

/-- The first gateway does not get the request back, and the others get it once. -/
theorem enter_once {gateway : NodeId} {store : GatewayStore Location}
    (hgateway : net.gateways gateway = some store) (fuel : Nat) :
    ((gateway :: (net.enter fuel store rpc).1).filter fun g => (net.gateways g).isSome).Nodup := by
  obtain ⟨edge, hedge, hpath, -⟩ := net.enter_connect hclient fuel store
  have hhands := next_hands hhonest hfresh hsymm hself hgateway (net.getLocation client)
  rw [hpath, List.filter_cons, hgateway]
  refine List.nodup_cons.mpr ?_
  generalize net.next store (net.getLocation client) = dest at hhands
  cases hhands with
  | @media node hnode =>
    cases fuel with
    | zero => simp [follow, serve]
    | succ fuel =>
      rw [follow, net.serve_media hnode, List.filter_cons, hnode]
      simp
  | @gateway second store₂ hsecond hstaffed hless =>
    obtain ⟨heach, hnodup⟩ := serve_nearer hhonest hfresh hsymm hself hedge fuel hsecond hstaffed
    rw [hparse, Option.bind_some] at heach
    refine ⟨?_, hnodup⟩
    intro hmem
    obtain ⟨hlocal, hcase⟩ := heach gateway (List.mem_filter.mp hmem).1 store hgateway
    have hnearer := hless hlocal
    rcases hcase with rfl | hfurther
    · rw [hsecond] at hgateway
      cases hgateway
      exact Nearer.irrefl hnearer
    · exact Nearer.irrefl (hfurther.trans hnearer)
  | none _ => simp [follow]

omit hparse

/-- With fuel for all gateways the way ends. -/
theorem enter_ends {gateway : NodeId} {store : GatewayStore Location}
    (hgateway : net.gateways gateway = some store) {gateways : List NodeId}
    (hall : ∀ g, (net.gateways g).isSome → g ∈ gateways) {fuel : Nat}
    (hfuel : gateways.length < fuel) :
    ((net.enter fuel store rpc).1 = [] ∧ PoolEmpty (net.enter fuel store rpc).2) ∨
      ∃ node, (net.enter fuel store rpc).1.getLast? = some node ∧ net.gateways node = none := by
  obtain ⟨edge, hedge, hpath, hempty⟩ := net.enter_connect hclient fuel store
  have hhands := next_hands hhonest hfresh hsymm hself hgateway (net.getLocation client)
  rw [hpath, hempty]
  generalize net.next store (net.getLocation client) = dest at hhands
  cases hhands with
  | @media node hnode =>
    obtain ⟨fuel, rfl⟩ : ∃ n, fuel = n + 1 := ⟨fuel - 1, by omega⟩
    rw [follow, net.serve_media hnode]
    exact Or.inr ⟨node, rfl, hnode⟩
  | @gateway second store₂ hsecond hstaffed _ =>
    refine Or.inr ?_
    obtain ⟨-, hnodup⟩ := serve_nearer hhonest hfresh hsymm hself hedge fuel hsecond hstaffed
    rcases serve_ends hhonest hfresh hsymm hself hedge fuel hsecond hstaffed with hlength | hends
    · -- as many gateways as there is fuel, but there are not so many
      have hsubset : (net.serve fuel second edge).1.filter (fun g => (net.gateways g).isSome) ⊆
          gateways := fun g hg => hall g (List.mem_filter.mp hg).2
      have hle := (List.subperm_of_subset hnodup hsubset).length_le
      omega
    · exact hends
  | none _ => exact Or.inl ⟨rfl, rfl⟩

end Walk

end Network

namespace Layout

variable {Location D : Type} [LinearOrder D] {layout : Layout Location}

/-- The gateways as they are now, in a network with given clients and media nodes. -/
def net (layout : Layout Location) (base : Network Location D) (w : World Location) :
    Network Location D :=
  { base with gateways := fun g => if g ∈ layout.gateways then some (w.store g) else none }

omit [LinearOrder D] in
theorem net_gateways {base : Network Location D} {w : World Location} {g : NodeId}
    {store : GatewayStore Location} (h : (layout.net base w).gateways g = some store) :
    g ∈ layout.gateways ∧ store = w.store g := by
  simp only [net] at h
  split at h
  · rename_i hmem
    exact ⟨hmem, (Option.some.inj h).symm⟩
  · cases h

omit [LinearOrder D] in
theorem Keeps.honest {w : World Location} (h : layout.Keeps w) (base : Network Location D) :
    (layout.net base w).Honest where
  nodes g store hg s hs := by
    obtain ⟨-, rfl⟩ := net_gateways hg
    exact if_neg ((h.truthful g).nodes s hs)
  staffed g store hg z hz := by
    obtain ⟨-, rfl⟩ := net_gateways hg
    exact ((h.truthful g).zones z hz).staffed
  zones g store hg z hz s hs := by
    obtain ⟨-, rfl⟩ := net_gateways hg
    obtain ⟨hmem, -, hlocation⟩ := ((h.truthful g).zones z hz).each s hs
    exact ⟨w.store s.node, if_pos hmem, (h.webrtcLocation s.node).trans hlocation⟩

/-- **No loops without outdated lists.** In every state that the gateways can get into and in
    which no list has a gateway that lost its media nodes, a connect request gets to every
    gateway at most once, and its way ends at a media node, or at the first gateway if that
    knows no node. -/
theorem forwards_once {acts : List (Act Location)} {w : World Location}
    (hrun : layout.run acts = some w) (base : Network Location D)
    (hfresh : (layout.net base w).Fresh)
    (hsymm : ∀ x y, base.distance x y = base.distance y x)
    (hself : ∀ x y, base.distance x x ≤ base.distance x y)
    {gateway : NodeId} (hgateway : gateway ∈ layout.gateways) {req : RpcReq ClusterConnId}
    {ip : IpAddr} (hip : connectIp req = some ip) (hparse : base.parseIp ip = some ip) :
    (∀ fuel, ((gateway :: ((layout.net base w).enter fuel (w.store gateway) req).1).filter
      fun g => g ∈ layout.gateways).Nodup) ∧
    ∀ fuel, layout.gateways.length < fuel →
      (((layout.net base w).enter fuel (w.store gateway) req).1 = [] ∧
        PoolEmpty ((layout.net base w).enter fuel (w.store gateway) req).2) ∨
      ∃ node, ((layout.net base w).enter fuel (w.store gateway) req).1.getLast? = some node ∧
        node ∉ layout.gateways := by
  have hhonest := (Keeps.run hrun).honest base
  have hstore : (layout.net base w).gateways gateway = some (w.store gateway) := if_pos hgateway
  have hsome : ∀ g, ((layout.net base w).gateways g).isSome = decide (g ∈ layout.gateways) := by
    intro g
    by_cases hg : g ∈ layout.gateways <;> simp [net, hg]
  constructor
  · intro fuel
    have honce := Network.enter_once hhonest hfresh hsymm hself hip hparse hstore fuel
    simp only [hsome] at honce
    exact honce
  · intro fuel hfuel
    have hall : ∀ g, ((layout.net base w).gateways g).isSome → g ∈ layout.gateways := by
      intro g hg
      rw [hsome] at hg
      exact of_decide_eq_true hg
    rcases Network.enter_ends hhonest hfresh hsymm hself hip hstore hall hfuel with
      hempty | ⟨node, hlast, hnode⟩
    · exact Or.inl hempty
    · refine Or.inr ⟨node, hlast, ?_⟩
      have hnone := hsome node
      rw [hnode] at hnone
      exact of_decide_eq_false hnone.symm

/-! ### Outdated lists -/

/-- Two zones on a line, with gateways 256 and 512. -/
def twoSites : Layout Nat where
  gateways := [256, 512]
  site g := if g = 256 then ⟨1, 0, ⟨90, 90, 90⟩⟩ else ⟨2, 9, ⟨90, 90, 90⟩⟩
  zone_injective := by
    intro g hg h hh hzone
    rcases List.mem_pair.mp hg with rfl | rfl <;> rcases List.mem_pair.mp hh with rfl | rfl
    · rfl
    · exact absurd hzone (by simp)
    · exact absurd hzone (by simp)
    · rfl

/-- Every client is at the place of the first zone. -/
def atFirst : Network Nat Nat where
  gateways _ := none
  distance x y := (x - y) + (y - x)
  getLocation _ := some 0
  parseIp := some
  parseConn _ := none
  showConn _ := ""
  media _ _ := none

def mediaPing : PingEvent Nat := ⟨0, 0, 0, .media, some ⟨0, 10, true⟩, none⟩

/-- Both zones have a media node, and both gateways have told the other. -/
def announced : List (Act Nat) :=
  [.mediaPing 256 257 mediaPing, .wait 4000, .mediaPing 512 513 mediaPing, .wait 900,
    .tick 256, .tick 512, .deliver 0, .deliver 0]

/-- A client of the first zone connects. -/
def clientConnects : RpcReq ClusterConnId :=
  .whep (.connect ⟨⟨"app"⟩, 0, "sdp", "room", "peer", "client", "agent", none⟩)

omit [LinearOrder D] in
theorem fresh_of_staffed {base : Network Location D} {w : World Location}
    (h : ∀ g ∈ layout.gateways, (w.store g).webrtc.localSources ≠ []) :
    (layout.net base w).Fresh := by
  intro g store _ z _ s _ store' hstore'
  obtain ⟨hmem, rfl⟩ := net_gateways hstore'
  exact h s.node hmem

/-- While the lists are up to date, the request gets to each of the two gateways once. -/
theorem forwards_once_announced :
    ∃ w, twoSites.run announced = some w ∧
      ∀ fuel, ((256 :: ((twoSites.net atFirst w).enter fuel (w.store 256) clientConnects).1).filter
        fun g => g ∈ twoSites.gateways).Nodup := by
  have hstaffed : ((twoSites.run announced).map fun w =>
      twoSites.gateways.map fun g => (w.store g).webrtc.localSources.length) = some [1, 1] := by
    decide
  cases hrun : twoSites.run announced with
  | none =>
    rw [hrun] at hstaffed
    cases hstaffed
  | some w =>
    rw [hrun] at hstaffed
    have hlengths : (twoSites.gateways.map fun g => (w.store g).webrtc.localSources.length) =
        [1, 1] := Option.some.inj hstaffed
    have hfresh : (twoSites.net atFirst w).Fresh := by
      refine fresh_of_staffed ?_
      intro g hg hnil
      have hlength := List.mem_map_of_mem (f := fun g =>
        (w.store g).webrtc.localSources.length) hg
      rw [hlengths, hnil] at hlength
      simp at hlength
    exact ⟨w, rfl, (forwards_once hrun atFirst hfresh (fun x y => Nat.add_comm _ _)
      (fun x y => by simp [atFirst]) (by decide) rfl rfl).1⟩

/-- The only media node of the first zone is silent for 5000 ms, and the gateway of the
    second zone has not heard of it yet: the gateways send the request to each other. -/
theorem stale_loop :
    ((twoSites.run (announced ++ [Act.wait 100, .tick 256])).map fun w =>
      ((twoSites.net atFirst w).enter 4 (w.store 256) clientConnects).1) =
      some [512, 256, 512, 256] := by
  decide

end Layout

end MediaServer.Gateway
