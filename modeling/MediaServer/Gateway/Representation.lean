import MediaServer.Gateway.Store
import MediaServer.Lib.Presence

/-!
# What a gateway store knows

A gateway store is a register of who is present: a media node in the list of its
zone, a gateway in the list of another zone.  `nodeEvents` and `gatewayEvents` read
the calls of a store as events of such a register, and `Represents` says that after
every run the lists are in order and list exactly those who are alive.

The answers of `best_for` and `dest_for` are then answers about the living: the least
used node of the nearest zone, and a gateway of the zone that a node belongs to.
-/

namespace MediaServer.Gateway

open Presence Machine

variable {Location : Type}

/-- The calls that change a gateway store. -/
inductive Input (Location : Type) where
  | ping (now : Nat) (sender : NodeId) (ping : PingEvent Location)
  | tick (now : Nat)
  | nodeMetrics (metrics : NodeMetrics)
  | popOutput

namespace GatewayStore

def step (s : GatewayStore Location) : Input Location → Except Panic (GatewayStore Location)
  | .ping now sender ping => s.onPing now sender ping
  | .tick now => s.onTick now
  | .nodeMetrics metrics => .ok (s.onNodeMetrics metrics)
  | .popOutput => .ok { s with output := none }

/-- A store as a component; it has no queue. -/
def machine (zone : ZoneId) (location : Location) (limits : Limits) :
    Machine (GatewayStore Location) (Input Location) Empty where
  init := new zone location limits
  step := step
  queue _ := []
  dropFront s := s
  queue_init := rfl
  queue_dropFront _ := rfl
  step_appends _ _ _ _ := List.prefix_refl _

/-- The arithmetic of a call goes through: the statistics of a ping have a positive
    maximum, and nothing overflows. -/
def Fits (s : GatewayStore Location) : Input Location → Prop
  | .ping _ _ ping => ping.Fits
  | .tick now => s.TickFits now
  | .nodeMetrics _ => True
  | .popOutput => True

instance (s : GatewayStore Location) : DecidablePred s.Fits := fun input =>
  match input with
  | .ping _ _ ping => inferInstanceAs (Decidable ping.Fits)
  | .tick now => inferInstanceAs (Decidable (s.TickFits now))
  | .nodeMetrics _ => .isTrue trivial
  | .popOutput => .isTrue trivial

end GatewayStore

/-! ### Calls as events -/

/-- What a call says about the nodes of the own zone, for a kind of service: a media
    ping is an announcement if it is admitted and takes its sender away otherwise. -/
def nodeEvent (limits : Limits) (kind : ServiceKind) :
    Input Location → List (Event NodeId UInt8)
  | .ping now sender ping =>
    match ping.origin with
    | .media =>
      match admitted (ping.stats kind) ping limits with
      | some usage => [.refresh now sender usage]
      | none => [.withdraw sender]
    | .gateway _ _ => []
  | .tick now => [.expire now]
  | .nodeMetrics _ => []
  | .popOutput => []

/-- What a call says about the gateways of another zone, for webrtc. -/
def gatewayEvent (limits : Limits) (zone : ZoneId) :
    Input Location → List (Event NodeId UInt8)
  | .ping now sender ping =>
    match ping.origin with
    | .media => []
    | .gateway zone' location =>
      if zone' = zone then
        match admitted ping.webrtc ping limits, location with
        | some _, some _ => [.refresh now sender ping.cpu]
        | _, _ => [.withdraw sender]
      else []
  | .tick now => [.expire now]
  | .nodeMetrics _ => []
  | .popOutput => []

def nodeEvents (limits : Limits) (kind : ServiceKind) (inputs : List (Input Location)) :
    List (Event NodeId UInt8) :=
  inputs.flatMap (nodeEvent limits kind)

def gatewayEvents (limits : Limits) (zone : ZoneId) (inputs : List (Input Location)) :
    List (Event NodeId UInt8) :=
  inputs.flatMap (gatewayEvent limits zone)

theorem nodeEvent_media {limits : Limits} {kind : ServiceKind} {now : Nat} {sender : NodeId}
    {ping : PingEvent Location} (horigin : ping.origin = .media) :
    nodeEvent limits kind (.ping now sender ping) =
      match admitted (ping.stats kind) ping limits with
      | some usage => [.refresh now sender usage]
      | none => [.withdraw sender] := by
  simp only [nodeEvent, horigin]

theorem nodeEvent_gateway {limits : Limits} {kind : ServiceKind} {now : Nat} {sender : NodeId}
    {ping : PingEvent Location} {zone : ZoneId} {location : Option Location}
    (horigin : ping.origin = .gateway zone location) :
    nodeEvent limits kind (.ping now sender ping) = [] := by
  simp only [nodeEvent, horigin]

theorem gatewayEvent_media {limits : Limits} {zone : ZoneId} {now : Nat} {sender : NodeId}
    {ping : PingEvent Location} (horigin : ping.origin = .media) :
    gatewayEvent limits zone (.ping now sender ping) = [] := by
  simp only [gatewayEvent, horigin]

theorem gatewayEvent_gateway {limits : Limits} {zone zone' : ZoneId} {now : Nat}
    {sender : NodeId} {ping : PingEvent Location} {location : Option Location}
    (horigin : ping.origin = .gateway zone' location) :
    gatewayEvent limits zone (.ping now sender ping) =
      if zone' = zone then
        match admitted ping.webrtc ping limits, location with
        | some _, some _ => [.refresh now sender ping.cpu]
        | _, _ => [.withdraw sender]
      else [] := by
  simp only [gatewayEvent, horigin]

theorem nodeEvents_concat (limits : Limits) (kind : ServiceKind) (inputs : List (Input Location))
    (input : Input Location) :
    nodeEvents limits kind (inputs ++ [input]) =
      nodeEvents limits kind inputs ++ nodeEvent limits kind input := by
  simp [nodeEvents]

theorem gatewayEvents_concat (limits : Limits) (zone : ZoneId) (inputs : List (Input Location))
    (input : Input Location) :
    gatewayEvents limits zone (inputs ++ [input]) =
      gatewayEvents limits zone inputs ++ gatewayEvent limits zone input := by
  simp [gatewayEvents]

/-! ### The register is right -/

/-- The store after some calls of a gateway in a zone. -/
structure Represents (zone : ZoneId) (location : Location) (limits : Limits)
    (inputs : List (Input Location)) (s : GatewayStore Location) : Prop where
  zone_eq : s.zone = zone
  location_eq : s.location = location
  limits_eq : s.limits = limits
  service_zone : ∀ kind, (s.service kind).zone = zone
  service_location : ∀ kind, (s.service kind).location = location
  ranked : ∀ kind, (s.service kind).Ranked
  remote : ∀ z ∈ s.webrtc.zoneSources, z.zone ≠ zone
  noZones : s.rtpengine.zoneSources = []
  nodes : ∀ kind, Tracks pingTimeout (nodeEvents limits kind inputs)
    (NodeSource.Lists (s.service kind).localSources)
  gateways : ∀ other, other ≠ zone →
    Tracks pingTimeout (gatewayEvents limits other inputs)
      (NodeSource.Lists (ZoneSource.gatewaysOf s.webrtc.zoneSources other))

namespace Represents

variable {zone : ZoneId} {location : Location} {limits : Limits}
  {inputs : List (Input Location)} {s s' : GatewayStore Location}

theorem init : Represents zone location limits [] (GatewayStore.new zone location limits) where
  zone_eq := rfl
  location_eq := rfl
  limits_eq := rfl
  service_zone kind := by cases kind <;> rfl
  service_location kind := by cases kind <;> rfl
  ranked kind := by cases kind <;> exact ServiceStore.Ranked.new ..
  remote := by simp [GatewayStore.new, ServiceStore.new]
  noZones := rfl
  nodes kind := by
    refine Tracks.nil ?_
    rintro node usage since ⟨source, hmem, -⟩
    cases kind <;> cases hmem
  gateways other _ := by
    refine Tracks.nil ?_
    rintro node usage since ⟨source, hmem, -⟩
    cases hmem

theorem zonesRanked (h : Represents zone location limits inputs s) :
    ZoneSource.Ranked s.webrtc.zoneSources := (h.ranked .webrtc).zones

/-- A call that changes no list and says nothing. -/
theorem silent (h : Represents zone location limits inputs s) {input : Input Location}
    (hnodes : ∀ kind, nodeEvent limits kind input = [])
    (hgateways : ∀ other, other ≠ zone → gatewayEvent limits other input = [])
    (hzone : s'.zone = s.zone) (hlocation : s'.location = s.location)
    (hlimits : s'.limits = s.limits) (hservice : ∀ kind, s'.service kind = s.service kind) :
    Represents zone location limits (inputs ++ [input]) s' where
  zone_eq := hzone.trans h.zone_eq
  location_eq := hlocation.trans h.location_eq
  limits_eq := hlimits.trans h.limits_eq
  service_zone kind := by rw [hservice]; exact h.service_zone kind
  service_location kind := by rw [hservice]; exact h.service_location kind
  ranked kind := by rw [hservice]; exact h.ranked kind
  remote := by
    have hwebrtc : s'.webrtc = s.webrtc := hservice .webrtc
    rw [hwebrtc]
    exact h.remote
  noZones := by
    have hrtpengine : s'.rtpengine = s.rtpengine := hservice .rtpEngine
    rw [hrtpengine]
    exact h.noZones
  nodes kind := by
    rw [nodeEvents_concat, hnodes, List.append_nil, hservice]
    exact h.nodes kind
  gateways other hother := by
    have hwebrtc : s'.webrtc = s.webrtc := hservice .webrtc
    rw [gatewayEvents_concat, hgateways other hother, List.append_nil, hwebrtc]
    exact h.gateways other hother

/-- A media ping, for one kind of service. -/
theorem tracks_media {store : ServiceStore Location} {events : List (Event NodeId UInt8)}
    (hranked : store.Ranked)
    (h : Tracks pingTimeout events (NodeSource.Lists store.localSources)) (limits : Limits)
    (now : Nat) (sender : NodeId) (ping : PingEvent Location) (stats : Option ServiceStats) :
    (store.onMediaPing now sender (nodeUsage ping limits) (admitted stats ping limits)
        stats).Ranked ∧
      Tracks pingTimeout
        (events ++ (match admitted stats ping limits with
          | some usage => [.refresh now sender usage]
          | none => [.withdraw sender]))
        (NodeSource.Lists (store.onMediaPing now sender (nodeUsage ping limits)
          (admitted stats ping limits) stats).localSources) := by
  rcases store.onMediaPing_eq now sender ping limits stats with
    ⟨usage, st, hadmitted, -, hstore⟩ | ⟨hadmitted, hstore⟩
  · rw [hstore, hadmitted]
    refine ⟨hranked.onNodePing now sender usage st, h.refresh ?_ ?_⟩
    · intro usage' since
      exact NodeSource.lists_sort.trans (NodeSource.lists_update_self hranked.nodes.nodup)
    · intro other usage' since hother
      exact NodeSource.lists_sort.trans (NodeSource.lists_update_of_ne hother)
  · rw [hstore, hadmitted]
    refine ⟨hranked.removeNode sender, h.withdraw ?_ ?_⟩
    · intro usage since hlists
      exact (hranked.nodes.lists_remove.mp hlists).1 rfl
    · intro other usage since hother
      exact hranked.nodes.lists_remove.trans (by simp [hother])

theorem media (h : Represents zone location limits inputs s) {now : Nat} {sender : NodeId}
    {ping : PingEvent Location} (horigin : ping.origin = .media) :
    Represents zone location limits (inputs ++ [Input.ping now sender ping]) { s with
      webrtc := s.webrtc.onMediaPing now sender (nodeUsage ping s.limits)
        (admitted ping.webrtc ping s.limits) ping.webrtc
      rtpengine := s.rtpengine.onMediaPing now sender (nodeUsage ping s.limits)
        (admitted ping.rtpengine ping s.limits) ping.rtpengine } := by
  have hsame : ∀ (store : ServiceStore Location) node usage stats,
      (store.onMediaPing now sender node usage stats).zone = store.zone ∧
      (store.onMediaPing now sender node usage stats).location = store.location ∧
      (store.onMediaPing now sender node usage stats).zoneSources = store.zoneSources := by
    intro store node usage stats
    rw [ServiceStore.onMediaPing.eq_def]
    split <;> exact ⟨rfl, rfl, rfl⟩
  have hwebrtc := tracks_media (h.ranked .webrtc) (h.nodes .webrtc) limits now sender ping
    ping.webrtc
  have hrtpengine := tracks_media (h.ranked .rtpEngine) (h.nodes .rtpEngine) limits now sender
    ping ping.rtpengine
  have hlimits := h.limits_eq
  subst hlimits
  refine ⟨h.zone_eq, h.location_eq, h.limits_eq, ?_, ?_, ?_, ?_, ?_, ?_, ?_⟩
  · intro kind
    cases kind with
    | webrtc => exact (hsame ..).1.trans (h.service_zone .webrtc)
    | rtpEngine => exact (hsame ..).1.trans (h.service_zone .rtpEngine)
  · intro kind
    cases kind with
    | webrtc => exact (hsame ..).2.1.trans (h.service_location .webrtc)
    | rtpEngine => exact (hsame ..).2.1.trans (h.service_location .rtpEngine)
  · intro kind
    cases kind with
    | webrtc => exact hwebrtc.1
    | rtpEngine => exact hrtpengine.1
  · dsimp only
    rw [(hsame ..).2.2]
    exact h.remote
  · exact (hsame ..).2.2.trans h.noZones
  · intro kind
    rw [nodeEvents_concat, nodeEvent_media horigin]
    cases kind with
    | webrtc => exact hwebrtc.2
    | rtpEngine => exact hrtpengine.2
  · intro other hother
    rw [gatewayEvents_concat, gatewayEvent_media horigin, List.append_nil]
    dsimp only
    rw [(hsame ..).2.2]
    exact h.gateways other hother

/-- The zone of a gateway that is admitted. -/
theorem joins (h : Represents zone location limits inputs s) {now : Nat} {sender : NodeId}
    {ping : PingEvent Location} {zone' : ZoneId} {place : Location} {usage : UInt8}
    {stats : ServiceStats} (horigin : ping.origin = .gateway zone' (some place))
    (hzone : zone' ≠ s.zone) (hadmitted : admitted ping.webrtc ping s.limits = some usage) :
    Represents zone location limits (inputs ++ [Input.ping now sender ping]) { s with
      webrtc := s.webrtc.onGatewayPing now zone' sender ping.cpu place usage stats } := by
  have hlimits := h.limits_eq
  subst hlimits
  have hranked := (h.ranked .webrtc).onGatewayPing now zone' sender ping.cpu place usage stats
  refine ⟨h.zone_eq, h.location_eq, rfl, ?_, ?_, ?_, ?_, h.noZones, ?_, ?_⟩
  · intro kind
    cases kind with
    | webrtc => exact h.service_zone .webrtc
    | rtpEngine => exact h.service_zone .rtpEngine
  · intro kind
    cases kind with
    | webrtc => exact h.service_location .webrtc
    | rtpEngine => exact h.service_location .rtpEngine
  · intro kind
    cases kind with
    | webrtc => exact hranked
    | rtpEngine => exact h.ranked .rtpEngine
  · intro z hz
    have hmem : z.zone ∈ (s.webrtc.onGatewayPing now zone' sender ping.cpu place usage
        stats).zoneSources.map ZoneSource.zone := List.mem_map.mpr ⟨z, hz, rfl⟩
    rcases ZoneSource.mem_map_zone_update.mp hmem with heq | hmem
    · rw [heq, ← h.zone_eq]
      exact hzone
    · obtain ⟨z₀, hz₀, heq⟩ := List.mem_map.mp hmem
      rw [← heq]
      exact h.remote z₀ hz₀
  · intro kind
    rw [nodeEvents_concat, nodeEvent_gateway horigin, List.append_nil]
    cases kind with
    | webrtc =>
      refine (h.nodes .webrtc).congr ?_
      intro node usage' since
      exact NodeSource.lists_sort
    | rtpEngine => exact h.nodes .rtpEngine
  · intro other hother
    rw [gatewayEvents_concat, gatewayEvent_gateway horigin, hadmitted]
    change Tracks _ _ (NodeSource.Lists (ZoneSource.gatewaysOf (ZoneSource.update now zone' sender
      ping.cpu place usage stats s.webrtc.zoneSources) other))
    rw [ZoneSource.gatewaysOf_update]
    by_cases heq : other = zone'
    · subst heq
      rw [if_pos rfl, if_pos rfl]
      refine (h.gateways other hother).refresh ?_ ?_
      · intro usage' since
        exact NodeSource.lists_sort.trans
          (NodeSource.lists_update_self (h.zonesRanked.gatewaysOf other).nodup)
      · intro node usage' since hnode
        exact NodeSource.lists_sort.trans (NodeSource.lists_update_of_ne hnode)
    · rw [if_neg heq, if_neg (Ne.symm heq), List.append_nil]
      exact h.gateways other hother

/-- The zone of a gateway that is not admitted. -/
theorem leaves (h : Represents zone location limits inputs s) {now : Nat} {sender : NodeId}
    {ping : PingEvent Location} {zone' : ZoneId} {place : Option Location}
    (horigin : ping.origin = .gateway zone' place)
    (hrefused : admitted ping.webrtc ping s.limits = none ∨ place = none) :
    Represents zone location limits (inputs ++ [Input.ping now sender ping]) { s with
      webrtc := s.webrtc.removeGateway zone' sender
      rtpengine := s.rtpengine.removeGateway zone' sender } := by
  have hlimits := h.limits_eq
  subst hlimits
  refine ⟨h.zone_eq, h.location_eq, rfl, ?_, ?_, ?_, ?_, ?_, ?_, ?_⟩
  · intro kind
    cases kind with
    | webrtc => exact h.service_zone .webrtc
    | rtpEngine => exact h.service_zone .rtpEngine
  · intro kind
    cases kind with
    | webrtc => exact h.service_location .webrtc
    | rtpEngine => exact h.service_location .rtpEngine
  · intro kind
    cases kind with
    | webrtc => exact (h.ranked .webrtc).removeGateway zone' sender
    | rtpEngine => exact (h.ranked .rtpEngine).removeGateway zone' sender
  · intro z hz
    have hmem := (ZoneSource.map_zone_remove_sublist s.webrtc.zoneSources).subset
      (List.mem_map.mpr ⟨z, hz, rfl⟩)
    obtain ⟨z₀, hz₀, heq⟩ := List.mem_map.mp hmem
    rw [← heq]
    exact h.remote z₀ hz₀
  · change ZoneSource.remove zone' sender s.rtpengine.zoneSources = []
    rw [h.noZones]
    rfl
  · intro kind
    rw [nodeEvents_concat, nodeEvent_gateway horigin, List.append_nil]
    cases kind with
    | webrtc => exact h.nodes .webrtc
    | rtpEngine => exact h.nodes .rtpEngine
  · intro other hother
    rw [gatewayEvents_concat, gatewayEvent_gateway horigin]
    change Tracks _ _ (NodeSource.Lists (ZoneSource.gatewaysOf (ZoneSource.remove zone' sender
      s.webrtc.zoneSources) other))
    rw [h.zonesRanked.gatewaysOf_remove]
    by_cases heq : other = zone'
    · subst heq
      have hranked := h.zonesRanked.gatewaysOf other
      have hevent : (match admitted ping.webrtc ping s.limits, place with
          | some _, some _ => [Event.refresh now sender ping.cpu]
          | _, _ => [Event.withdraw sender]) = [Event.withdraw sender] := by
        rcases hrefused with hnone | hnone
        · rw [hnone]
        · rw [hnone]
          cases admitted ping.webrtc ping s.limits <;> rfl
      rw [if_pos rfl, if_pos rfl, hevent]
      refine (h.gateways other hother).withdraw ?_ ?_
      · intro usage since hlists
        exact (hranked.lists_remove.mp hlists).1 rfl
      · intro node usage since hnode
        exact hranked.lists_remove.trans (by simp [hnode])
    · rw [if_neg heq, if_neg (Ne.symm heq), List.append_nil]
      exact h.gateways other hother

theorem tick (h : Represents zone location limits inputs s) (now : Nat)
    (output : Option (PingEvent Location)) :
    Represents zone location limits (inputs ++ [Input.tick now]) { s with
      webrtc := s.webrtc.onTick now
      rtpengine := s.rtpengine.onTick now
      output := output } := by
  refine ⟨h.zone_eq, h.location_eq, h.limits_eq, ?_, ?_, ?_, ?_, ?_, ?_, ?_⟩
  · intro kind
    cases kind with
    | webrtc => exact h.service_zone .webrtc
    | rtpEngine => exact h.service_zone .rtpEngine
  · intro kind
    cases kind with
    | webrtc => exact h.service_location .webrtc
    | rtpEngine => exact h.service_location .rtpEngine
  · intro kind
    cases kind with
    | webrtc => exact (h.ranked .webrtc).onTick now
    | rtpEngine => exact (h.ranked .rtpEngine).onTick now
  · intro z hz
    obtain ⟨z₀, hz₀, rfl⟩ := List.mem_map.mp (List.mem_filter.mp hz).1
    exact h.remote z₀ hz₀
  · change ZoneSource.retain now s.rtpengine.zoneSources = []
    rw [h.noZones]
    rfl
  · intro kind
    rw [nodeEvents_concat]
    cases kind with
    | webrtc =>
      refine (h.nodes .webrtc).expire ?_
      intro node usage since
      exact NodeSource.lists_retain
    | rtpEngine =>
      refine (h.nodes .rtpEngine).expire ?_
      intro node usage since
      exact NodeSource.lists_retain
  · intro other hother
    rw [gatewayEvents_concat]
    refine (h.gateways other hother).expire ?_
    intro node usage since
    change NodeSource.Lists (ZoneSource.gatewaysOf (ZoneSource.retain now s.webrtc.zoneSources)
      other) node usage since ↔ _
    rw [h.zonesRanked.gatewaysOf_retain]
    exact NodeSource.lists_retain

theorem hears (h : Represents zone location limits inputs s) {now : Nat} {sender : NodeId}
    {ping : PingEvent Location} (hears : s.Hears now sender ping s') :
    Represents zone location limits (inputs ++ [Input.ping now sender ping]) s' := by
  cases hears with
  | media horigin => exact h.media horigin
  | own horigin =>
    refine h.silent ?_ ?_ rfl rfl rfl (fun _ => rfl)
    · intro kind
      exact nodeEvent_gateway horigin
    · intro other hother
      rw [gatewayEvent_gateway horigin, if_neg]
      rw [h.zone_eq]
      exact Ne.symm hother
  | joins horigin hzone hadmitted hstats => exact h.joins horigin hzone hadmitted
  | leaves horigin hzone hrefused => exact h.leaves horigin hrefused

/-- One call that goes through keeps the register right. -/
theorem step (h : Represents zone location limits inputs s) {input : Input Location}
    (hstep : s.step input = .ok s') : Represents zone location limits (inputs ++ [input]) s' := by
  cases input with
  | ping now sender ping => exact h.hears (GatewayStore.onPing_eq_ok hstep)
  | tick now =>
    obtain ⟨webrtc, rtpengine, rfl⟩ := GatewayStore.onTick_eq_ok hstep
    exact h.tick now _
  | nodeMetrics metrics =>
    cases hstep
    refine h.silent (fun _ => rfl) (fun _ _ => rfl) rfl rfl rfl ?_
    intro kind
    cases kind <;> rfl
  | popOutput =>
    cases hstep
    refine h.silent (fun _ => rfl) (fun _ _ => rfl) rfl rfl rfl ?_
    intro kind
    cases kind <;> rfl

end Represents

/-- A call goes through if its arithmetic does. -/
theorem GatewayStore.Fits.step_ok {s : GatewayStore Location} {input : Input Location}
    (h : s.Fits input) : ∃ s', s.step input = .ok s' := by
  cases input with
  | ping now sender ping =>
    obtain ⟨s', hs', -⟩ := GatewayStore.onPing_hears h now sender
    exact ⟨s', hs'⟩
  | tick now =>
    obtain ⟨webrtc, rtpengine, -, -, hs'⟩ := GatewayStore.TickFits.onTick h
    exact ⟨_, hs'⟩
  | nodeMetrics metrics => exact ⟨_, rfl⟩
  | popOutput => exact ⟨_, rfl⟩

/-- Every run whose arithmetic goes through ends, with a right register. -/
theorem run_represents (zone : ZoneId) (location : Location) (limits : Limits)
    {acts : List (Action (Input Location))}
    (hadm : (GatewayStore.machine zone location limits).Admits (fun _ s input => s.Fits input)
      acts) :
    ∃ c, (GatewayStore.machine zone location limits).run acts = .ok c ∧
      Represents zone location limits (c.history.map Prod.fst) c.state := by
  refine Machine.run_progress _
    (fun history s => Represents zone location limits (history.map Prod.fst) s)
    Represents.init ?_ ?_ hadm
  · intro history s input h hfits
    obtain ⟨s', hs'⟩ := hfits.step_ok
    refine ⟨s', hs', ?_⟩
    rw [List.map_append]
    exact h.step hs'
  · intro history s h
    exact h

/-- **What a gateway store knows and answers.** After every run whose arithmetic goes
    through, the lists are in order, hold no node twice and list exactly the living; no
    other zone is kept without a gateway.  `best_for` chooses by distance and usage, the own
    zone winning ties, and finds nobody only if nobody is known; `dest_for` finds a node of
    the own zone exactly if it is known, and for any other node a least used gateway of its
    zone, exactly if that zone is known. -/
theorem store_representation {D : Type} [LinearOrder D] (distance : Location → Location → D)
    (zone : ZoneId) (location : Location) (limits : Limits)
    (acts : List (Action (Input Location)))
    (hadm : (GatewayStore.machine zone location limits).Admits (fun _ s input => s.Fits input)
      acts) :
    ∃ c, (GatewayStore.machine zone location limits).run acts = .ok c ∧
      (∀ kind, NodeSource.Ranked (c.state.service kind).localSources ∧
        ∀ node usage since, NodeSource.Lists (c.state.service kind).localSources node usage since ↔
          Alive pingTimeout (nodeEvents limits kind (c.history.map Prod.fst)) node usage since) ∧
      (∀ other, other ≠ zone →
        NodeSource.Ranked (ZoneSource.gatewaysOf c.state.webrtc.zoneSources other) ∧
        ∀ node usage since,
          NodeSource.Lists (ZoneSource.gatewaysOf c.state.webrtc.zoneSources other) node usage
              since ↔
            Alive pingTimeout (gatewayEvents limits other (c.history.map Prod.fst)) node usage
              since) ∧
      ((c.state.webrtc.zoneSources.map ZoneSource.zone).Nodup ∧
        ∀ z ∈ c.state.webrtc.zoneSources, z.zone ≠ zone ∧ z.gateways ≠ [] ∧
          z.gateways = ZoneSource.gatewaysOf c.state.webrtc.zoneSources z.zone) ∧
      (∀ asked, ServiceStore.Chooses distance c.state.webrtc (asked.getD location)
          (c.state.bestFor distance .webrtc asked) ∧
        (c.state.bestFor distance .webrtc asked = none ↔
          c.state.webrtc.localSources = [] ∧ c.state.webrtc.zoneSources = [])) ∧
      ∀ dest,
        (ZoneId.fromNodeId dest = zone → ∀ node, c.state.destFor .webrtc dest = some node ↔
          node = dest ∧ dest ∈ c.state.webrtc.localSources.map NodeSource.node) ∧
        (ZoneId.fromNodeId dest ≠ zone →
          (∀ node, c.state.destFor .webrtc dest = some node →
            NodeSource.IsLeast (ZoneSource.gatewaysOf c.state.webrtc.zoneSources
              (ZoneId.fromNodeId dest)) node) ∧
          (c.state.destFor .webrtc dest ≠ none ↔
            ∃ z ∈ c.state.webrtc.zoneSources, z.zone = ZoneId.fromNodeId dest)) := by
  obtain ⟨c, hrun, h⟩ := run_represents zone location limits hadm
  refine ⟨c, hrun, ?_, ?_, ?_, ?_, ?_⟩
  · intro kind
    exact ⟨(h.ranked kind).nodes, h.nodes kind⟩
  · intro other hother
    exact ⟨h.zonesRanked.gatewaysOf other, h.gateways other hother⟩
  · refine ⟨h.zonesRanked.nodup, ?_⟩
    intro z hz
    exact ⟨h.remote z hz, h.zonesRanked.staffed z hz, (h.zonesRanked.gatewaysOf_eq hz).symm⟩
  · intro asked
    have hchooses := (h.ranked .webrtc).bestFor_chooses distance asked
    rw [h.service_location .webrtc] at hchooses
    exact ⟨hchooses, (h.ranked .webrtc).bestFor_eq_none distance asked⟩
  · intro dest
    constructor
    · intro hown node
      exact ServiceStore.destFor_own (hown.trans (h.service_zone .webrtc).symm) node
    · intro hother
      have hforeign : ZoneId.fromNodeId dest ≠ (c.state.service .webrtc).zone := by
        rw [h.service_zone .webrtc]
        exact hother
      obtain ⟨hleast, hnone⟩ := (h.ranked .webrtc).destFor_other_isLeast hforeign
      refine ⟨hleast, ?_⟩
      rw [← h.zonesRanked.gatewaysOf_ne_nil]
      exact not_congr hnone

/-- Two nodes, one of them used up in between, and the gateway of another zone, which the
    last tick finds too old. -/
theorem store_representation_pingsAndTicks :
    ∃ c, (GatewayStore.machine 0 (0 : Int) ⟨60, 80, 90⟩).run
        [.input (.ping 0 1 ⟨10, 20, 30, .media, some ⟨100, 1000, true⟩, none⟩),
          .input (.ping 0 257 ⟨10, 20, 30, .gateway 1 (some 5), some ⟨100, 1000, true⟩, none⟩),
          .input (.ping 4000 2 ⟨5, 20, 30, .media, some ⟨50, 1000, true⟩, none⟩),
          .input (.ping 4500 1 ⟨10, 80, 30, .media, some ⟨100, 1000, true⟩, none⟩),
          .input (.tick 5000)] = .ok c ∧
      c.state.webrtc.localSources.map NodeSource.node = [2] ∧
      c.state.webrtc.zoneSources.map ZoneSource.zone = [] ∧
      ServiceStore.Chooses (fun x y : Int => (x - y).natAbs) c.state.webrtc 5
        (c.state.bestFor (fun x y : Int => (x - y).natAbs) .webrtc (some 5)) := by
  obtain ⟨c, hc, -, -, -, hbest, -⟩ := store_representation (fun x y : Int => (x - y).natAbs) 0 0
    ⟨60, 80, 90⟩
    [.input (.ping 0 1 ⟨10, 20, 30, .media, some ⟨100, 1000, true⟩, none⟩),
      .input (.ping 0 257 ⟨10, 20, 30, .gateway 1 (some 5), some ⟨100, 1000, true⟩, none⟩),
      .input (.ping 4000 2 ⟨5, 20, 30, .media, some ⟨50, 1000, true⟩, none⟩),
      .input (.ping 4500 1 ⟨10, 80, 30, .media, some ⟨100, 1000, true⟩, none⟩),
      .input (.tick 5000)] (AdmitsFrom.admits (by decide))
  refine ⟨c, hc, ?_, ?_, (hbest (some 5)).1⟩
  · cases hc
    decide
  · cases hc
    decide

end MediaServer.Gateway
