import MediaServer.Gateway.Representation

/-!
# Two kinds of service in one store

A gateway store has a store for each kind of service, and both hear the same pings.  The
kinds do not disturb each other: `kindStep` is what one call does to the store of a kind,
and it reads nothing of the other kind's statistics.

They are not treated alike, though.  With the statistics of the two kinds exchanged, the
nodes of the own zone change places, but the gateways of other zones do not: only the webrtc
store ever lists them.  A run is symmetric exactly if at its end no other zone offers any
service (`kinds_symmetric_iff`).
-/

namespace MediaServer.Gateway

open Presence

variable {Location : Type}

/-! ### Exchange -/

def ServiceKind.other : ServiceKind → ServiceKind
  | .webrtc => .rtpEngine
  | .rtpEngine => .webrtc

/-- The ping with the statistics of the two kinds exchanged. -/
def PingEvent.swap (ping : PingEvent Location) : PingEvent Location :=
  { ping with webrtc := ping.rtpengine, rtpengine := ping.webrtc }

def Input.swap : Input Location → Input Location
  | .ping now sender event => .ping now sender event.swap
  | .tick now => .tick now
  | .nodeMetrics metrics => .nodeMetrics metrics
  | .popOutput => .popOutput

@[simp] theorem Input.swap_swap (input : Input Location) : input.swap.swap = input := by
  cases input <;> rfl

/-- Two calls that differ at most in the statistics of the other kind. -/
def Input.Agree (kind : ServiceKind) : Input Location → Input Location → Prop
  | .ping now sender event, .ping now' sender' event' =>
    now = now' ∧ sender = sender' ∧ event.cpu = event'.cpu ∧ event.memory = event'.memory ∧
      event.disk = event'.disk ∧ event.origin = event'.origin ∧
      event.stats kind = event'.stats kind
  | .tick now, .tick now' => now = now'
  | .nodeMetrics metrics, .nodeMetrics metrics' => metrics = metrics'
  | .popOutput, .popOutput => True
  | _, _ => False

/-! ### One kind -/

/-- What a ping does to the store of a kind. -/
def kindPing (kind : ServiceKind) (zone : ZoneId) (limits : Limits)
    (store : ServiceStore Location) (now : Nat) (sender : NodeId) (ping : PingEvent Location) :
    ServiceStore Location :=
  match ping.origin with
  | .media =>
    match admitted (ping.stats kind) ping limits, ping.stats kind with
    | some usage, some stats => store.onNodePing now sender usage stats
    | _, _ => store.removeNode sender
  | .gateway zone' location =>
    if zone' = zone then store
    else
      match kind with
      | .rtpEngine => store
      | .webrtc =>
        match admitted (ping.stats kind) ping limits, location, ping.stats kind with
        | some usage, some location, some stats =>
          store.onGatewayPing now zone' sender ping.cpu location usage stats
        | _, _, _ => store.removeGateway zone' sender

def kindStep (kind : ServiceKind) (zone : ZoneId) (limits : Limits)
    (store : ServiceStore Location) : Input Location → ServiceStore Location
  | .ping now sender ping => kindPing kind zone limits store now sender ping
  | .tick now => store.onTick now
  | .nodeMetrics _ => store
  | .popOutput => store

/-- A store without zones has no gateway to lose. -/
theorem removeGateway_of_noZones {store : ServiceStore Location} (h : store.zoneSources = [])
    (zone : ZoneId) (gateway : NodeId) : store.removeGateway zone gateway = store := by
  rw [ServiceStore.removeGateway, h]
  cases store
  cases h
  rfl

theorem GatewayStore.Hears.service {s s' : GatewayStore Location} {now : Nat} {sender : NodeId}
    {ping : PingEvent Location} (h : s.Hears now sender ping s')
    (hzones : s.rtpengine.zoneSources = []) (kind : ServiceKind) :
    s'.service kind = kindPing kind s.zone s.limits (s.service kind) now sender ping := by
  have hmedia : ∀ (store : ServiceStore Location) stats,
      store.onMediaPing now sender (nodeUsage ping s.limits) (admitted stats ping s.limits) stats =
        match admitted stats ping s.limits, stats with
        | some usage, some stats => store.onNodePing now sender usage stats
        | _, _ => store.removeNode sender := by
    intro store stats
    rcases store.onMediaPing_eq now sender ping s.limits stats with
      ⟨usage, st, hadmitted, rfl, hstore⟩ | ⟨hadmitted, hstore⟩
    · rw [hstore, hadmitted]
    · rw [hstore, hadmitted]
  cases h with
  | media horigin =>
    rw [kindPing, horigin]
    cases kind with
    | webrtc => exact hmedia _ _
    | rtpEngine => exact hmedia _ _
  | own horigin =>
    rw [kindPing, horigin]
    exact (if_pos rfl).symm
  | @joins zone location usage stats horigin hzone hadmitted hstats =>
    rw [kindPing, horigin]
    dsimp only
    rw [if_neg hzone]
    cases kind with
    | webrtc =>
      have husage : admitted (ping.stats .webrtc) ping s.limits = some usage := hadmitted
      have hst : ping.stats .webrtc = some stats := hstats
      dsimp only
      rw [husage, hst]
      rfl
    | rtpEngine => rfl
  | leaves horigin hzone hrefused =>
    rw [kindPing, horigin]
    dsimp only
    rw [if_neg hzone]
    cases kind with
    | webrtc =>
      dsimp only
      rcases hrefused with hnone | hnone
      · have husage : admitted (ping.stats .webrtc) ping s.limits = none := hnone
        rw [husage]
        rfl
      · rw [hnone]
        cases admitted (ping.stats .webrtc) ping s.limits <;> rfl
    | rtpEngine => exact removeGateway_of_noZones hzones _ _

/-- **One call, one kind.** -/
theorem GatewayStore.step_service {s s' : GatewayStore Location} {input : Input Location}
    (hstep : s.step input = .ok s') (hzones : s.rtpengine.zoneSources = []) (kind : ServiceKind) :
    s'.service kind = kindStep kind s.zone s.limits (s.service kind) input := by
  cases input with
  | ping now sender ping => exact (GatewayStore.onPing_eq_ok hstep).service hzones kind
  | tick now =>
    obtain ⟨webrtc, rtpengine, rfl⟩ := GatewayStore.onTick_eq_ok hstep
    cases kind <;> rfl
  | nodeMetrics metrics =>
    cases hstep
    cases kind <;> rfl
  | popOutput =>
    cases hstep
    cases kind <;> rfl

/-- The other kind's statistics are not read. -/
theorem kindStep_agree {kind : ServiceKind} {input input' : Input Location}
    (h : input.Agree kind input') (zone : ZoneId) (limits : Limits)
    (store : ServiceStore Location) :
    kindStep kind zone limits store input = kindStep kind zone limits store input' := by
  match input, input', h with
  | .ping now sender ⟨cpu, memory, disk, origin, webrtc, rtpengine⟩,
      .ping _ _ ⟨_, _, _, _, webrtc', rtpengine'⟩, ⟨hnow, hsender, hcpu, hmem, hdisk, horigin, hst⟩ =>
    cases hnow
    cases hsender
    cases hcpu
    cases hmem
    cases hdisk
    cases horigin
    cases kind with
    | webrtc =>
      cases hst
      cases origin <;> rfl
    | rtpEngine =>
      cases hst
      cases origin <;> rfl
  | .tick now, .tick _, h =>
    cases h
    rfl
  | .nodeMetrics _, .nodeMetrics _, _ => rfl
  | .popOutput, .popOutput, _ => rfl

/-! ### The nodes of the own zone -/

/-- What a call does to the nodes that a kind has in the own zone. -/
def localStep (kind : ServiceKind) (limits : Limits) (sources : List NodeSource) :
    Input Location → List NodeSource
  | .ping now sender ping =>
    match ping.origin with
    | .media =>
      match admitted (ping.stats kind) ping limits, ping.stats kind with
      | some usage, some stats => NodeSource.sort (NodeSource.update now sender usage stats sources)
      | _, _ => NodeSource.remove sender sources
    | .gateway _ _ => sources
  | .tick now => NodeSource.retain now sources
  | .nodeMetrics _ => sources
  | .popOutput => sources

theorem localSources_kindPing {store : ServiceStore Location} (h : store.Ranked)
    (kind : ServiceKind) (zone : ZoneId) (limits : Limits) (now : Nat) (sender : NodeId)
    (ping : PingEvent Location) :
    (kindPing kind zone limits store now sender ping).localSources =
      localStep kind limits store.localSources (.ping now sender ping) := by
  rw [kindPing, localStep]
  cases ping.origin with
  | media =>
    dsimp only
    cases admitted (ping.stats kind) ping limits with
    | none => rfl
    | some usage => cases ping.stats kind <;> rfl
  | gateway zone' location =>
    dsimp only
    split
    · rfl
    · cases kind with
      | rtpEngine => rfl
      | webrtc =>
        dsimp only
        split
        · exact h.nodes.sort_eq
        · rfl

theorem localSources_kindStep {store : ServiceStore Location} (h : store.Ranked)
    (kind : ServiceKind) (zone : ZoneId) (limits : Limits) (input : Input Location) :
    (kindStep kind zone limits store input).localSources =
      localStep kind limits store.localSources input := by
  cases input with
  | ping now sender ping => exact localSources_kindPing h kind zone limits now sender ping
  | tick now => rfl
  | nodeMetrics metrics => rfl
  | popOutput => rfl

/-- The kinds are alike here. -/
theorem localStep_swap (kind : ServiceKind) (limits : Limits) (sources : List NodeSource)
    (input : Input Location) :
    localStep kind.other limits sources input.swap = localStep kind limits sources input := by
  cases input with
  | ping now sender ping =>
    obtain ⟨cpu, memory, disk, origin, webrtc, rtpengine⟩ := ping
    cases kind <;> cases origin <;> rfl
  | tick now => rfl
  | nodeMetrics metrics => rfl
  | popOutput => rfl

/-! ### Runs -/

/-- A store after some calls. -/
def replay (zone : ZoneId) (location : Location) (limits : Limits) (inputs : List (Input Location)) :
    Except Panic (GatewayStore Location) :=
  inputs.foldlM GatewayStore.step (.new zone location limits)

section Runs

variable {zone : ZoneId} {location : Location} {limits : Limits} {inputs : List (Input Location)}
  {s s' : GatewayStore Location}

theorem replay_concat_eq_ok {input : Input Location} :
    replay zone location limits (inputs ++ [input]) = .ok s' ↔
      ∃ s, replay zone location limits inputs = .ok s ∧ s.step input = .ok s' := by
  rw [replay, List.foldlM_append, replay]
  cases hrun : inputs.foldlM GatewayStore.step (.new zone location limits) with
  | error panic => simp [bind, Except.bind]
  | ok s =>
    simp only [bind, Except.bind, List.foldlM_cons, List.foldlM_nil]
    cases hstep : s.step input with
    | error panic => simp [hstep]
    | ok s₁ => simp [hstep, pure, Except.pure]

theorem replay_represents (h : replay zone location limits inputs = .ok s) :
    Represents zone location limits inputs s := by
  induction inputs using List.reverseRecOn generalizing s with
  | nil =>
    cases h
    exact Represents.init
  | append_singleton inputs input ih =>
    obtain ⟨s₀, hrun, hstep⟩ := Iff.mp replay_concat_eq_ok h
    exact (ih hrun).step hstep

/-- What a call of a run does to the store of a kind. -/
theorem Represents.step_service (h : Represents zone location limits inputs s)
    {input : Input Location} (hstep : s.step input = .ok s') (kind : ServiceKind) :
    s'.service kind = kindStep kind zone limits (s.service kind) input := by
  rw [GatewayStore.step_service hstep h.noZones kind, h.zone_eq, h.limits_eq]

/-- Calls that agree on a kind keep two stores of it equal. -/
theorem service_eq_from {kind : ServiceKind} {later later' : List (Input Location)}
    (hagree : List.Forall₂ (Input.Agree kind) later later') {inputs' : List (Input Location)}
    {s₀ s₀' : GatewayStore Location} (h : Represents zone location limits inputs s₀)
    (h' : Represents zone location limits inputs' s₀')
    (hsame : s₀.service kind = s₀'.service kind)
    (hrun : later.foldlM GatewayStore.step s₀ = .ok s)
    (hrun' : later'.foldlM GatewayStore.step s₀' = .ok s') :
    s.service kind = s'.service kind := by
  induction hagree generalizing inputs inputs' s₀ s₀' with
  | nil =>
    cases hrun
    cases hrun'
    exact hsame
  | @cons input input' later later' hinput _ ih =>
    rw [List.foldlM_cons] at hrun hrun'
    cases hstep : s₀.step input with
    | error e => simp [hstep, bind, Except.bind] at hrun
    | ok s₁ =>
      cases hstep' : s₀'.step input' with
      | error e => simp [hstep', bind, Except.bind] at hrun'
      | ok s₁' =>
        rw [hstep] at hrun
        rw [hstep'] at hrun'
        refine ih (h.step hstep) (h'.step hstep') ?_ hrun hrun'
        rw [h.step_service hstep, h'.step_service hstep', hsame]
        exact kindStep_agree hinput zone limits _

/-- **Independence.** Runs whose calls agree on a kind end with the same store of it. -/
theorem service_eq_of_agree {kind : ServiceKind} {inputs' : List (Input Location)}
    (hagree : List.Forall₂ (Input.Agree kind) inputs inputs')
    (hrun : replay zone location limits inputs = .ok s)
    (hrun' : replay zone location limits inputs' = .ok s') : s.service kind = s'.service kind :=
  service_eq_from hagree Represents.init Represents.init rfl hrun hrun'

/-- The nodes of the own zone change places with the statistics. -/
theorem localSources_swap (hrun : replay zone location limits inputs = .ok s)
    (hrun' : replay zone location limits (inputs.map Input.swap) = .ok s') (kind : ServiceKind) :
    (s'.service kind.other).localSources = (s.service kind).localSources := by
  induction inputs using List.reverseRecOn generalizing s s' with
  | nil =>
    cases hrun
    cases hrun'
    cases kind <;> rfl
  | append_singleton inputs input ih =>
    rw [List.map_append, List.map_singleton] at hrun'
    obtain ⟨s₀, hrun₀, hstep⟩ := Iff.mp replay_concat_eq_ok hrun
    obtain ⟨s₀', hrun₀', hstep'⟩ := Iff.mp replay_concat_eq_ok hrun'
    have h := replay_represents hrun₀
    have h' := replay_represents hrun₀'
    calc (s'.service kind.other).localSources
        = localStep kind.other limits (s₀'.service kind.other).localSources input.swap := by
          rw [h'.step_service hstep', localSources_kindStep (h'.ranked _)]
      _ = localStep kind limits (s₀.service kind).localSources input := by
          rw [localStep_swap, ih hrun₀ hrun₀']
      _ = (s.service kind).localSources := by
          rw [h.step_service hstep, localSources_kindStep (h.ranked _)]

/-- A gateway of another zone offers webrtc. -/
def OffersWebrtc (limits : Limits) (other : ZoneId) (inputs : List (Input Location)) : Prop :=
  ∃ node usage since, Alive pingTimeout (gatewayEvents limits other inputs) node usage since

/-- A gateway of another zone offers a kind of service: its last ping was admitted for it and
    is not too old. -/
def Offers (limits : Limits) (kind : ServiceKind) (other : ZoneId)
    (inputs : List (Input Location)) : Prop :=
  match kind with
  | .webrtc => OffersWebrtc limits other inputs
  | .rtpEngine => OffersWebrtc limits other (inputs.map Input.swap)

theorem offers_swap (kind : ServiceKind) (other : ZoneId) :
    Offers limits kind.other other (inputs.map Input.swap) ↔ Offers limits kind other inputs := by
  have hswap : (inputs.map Input.swap).map Input.swap = inputs := by
    rw [List.map_map]
    exact (List.map_congr_left fun input _ => input.swap_swap).trans (List.map_id inputs)
  cases kind with
  | webrtc =>
    change OffersWebrtc limits other ((inputs.map Input.swap).map Input.swap) ↔ _
    rw [hswap]
    rfl
  | rtpEngine => rfl

/-- The webrtc store lists the zones that offer webrtc. -/
theorem Represents.offersWebrtc_iff (h : Represents zone location limits inputs s) {other : ZoneId}
    (hother : other ≠ zone) :
    OffersWebrtc limits other inputs ↔ ∃ z ∈ s.webrtc.zoneSources, z.zone = other := by
  rw [← h.zonesRanked.gatewaysOf_ne_nil]
  constructor
  · rintro ⟨node, usage, since, halive⟩
    obtain ⟨source, hsource, -⟩ := (h.gateways other hother node usage since).mpr halive
    exact List.ne_nil_of_mem hsource
  · intro hne
    obtain ⟨source, hsource⟩ := List.exists_mem_of_ne_nil _ hne
    exact ⟨source.node, source.usage, source.lastUpdated,
      (h.gateways other hother _ _ _).mp ⟨source, hsource, rfl, rfl, rfl⟩⟩

theorem Represents.noZones_of_offers (h : Represents zone location limits inputs s)
    (hoffers : ∀ other, other ≠ zone → ¬ OffersWebrtc limits other inputs) :
    s.webrtc.zoneSources = [] := by
  refine List.eq_nil_iff_forall_not_mem.mpr ?_
  intro z hz
  exact hoffers z.zone (h.remote z hz)
    ((h.offersWebrtc_iff (h.remote z hz)).mpr ⟨z, hz, rfl⟩)

end Runs

/-! ### Symmetry -/

/-- The answers for the two kinds are exchanged. -/
def Exchanged {D : Type} [LinearOrder D] (distance : Location → Location → D)
    (s s' : GatewayStore Location) : Prop :=
  ∀ kind : ServiceKind,
    (∀ asked, s'.bestFor distance kind.other asked = s.bestFor distance kind asked) ∧
    ∀ dest, s'.destFor kind.other dest = s.destFor kind dest

/-- Another zone that offers a kind of service can be reached for it. -/
def Reaches (limits : Limits) (zone : ZoneId) (inputs : List (Input Location))
    (s : GatewayStore Location) : Prop :=
  ∀ kind other, other ≠ zone → Offers limits kind other inputs →
    ∃ z ∈ (s.service kind).zoneSources, z.zone = other

/-- **Two kinds of service.** They are independent; and exchanging the statistics in all pings
    exchanges the answers, with the zones that offer a kind in reach of both runs, exactly
    if no other zone offers a service. -/
theorem kinds_symmetric_iff {D : Type} [LinearOrder D] (distance : Location → Location → D)
    (zone : ZoneId) (location : Location) (limits : Limits) :
    (∀ kind inputs inputs' s s', List.Forall₂ (Input.Agree kind) inputs inputs' →
      replay zone location limits inputs = .ok s → replay zone location limits inputs' = .ok s' →
      s.service kind = s'.service kind) ∧
    ∀ inputs s s', replay zone location limits inputs = .ok s →
      replay zone location limits (inputs.map Input.swap) = .ok s' →
      ((Exchanged distance s s' ∧ Reaches limits zone inputs s ∧
          Reaches limits zone (inputs.map Input.swap) s') ↔
        ∀ kind other, other ≠ zone → ¬ Offers limits kind other inputs) := by
  refine ⟨fun kind inputs inputs' s s' => service_eq_of_agree, ?_⟩
  intro inputs s s' hrun hrun'
  have h := replay_represents hrun
  have h' := replay_represents hrun'
  constructor
  · rintro ⟨-, hreaches, hreaches'⟩ kind other hother hoffers
    cases kind with
    | rtpEngine =>
      obtain ⟨z, hz, -⟩ := hreaches .rtpEngine other hother hoffers
      exact List.ne_nil_of_mem hz h.noZones
    | webrtc =>
      obtain ⟨z, hz, -⟩ := hreaches' .rtpEngine other hother ((offers_swap .webrtc other).mpr hoffers)
      exact List.ne_nil_of_mem hz h'.noZones
  · intro hnone
    have hzones : s.webrtc.zoneSources = [] :=
      h.noZones_of_offers (hnone .webrtc)
    have hzones' : s'.webrtc.zoneSources = [] :=
      h'.noZones_of_offers (hnone .rtpEngine)
    -- without zones a store answers from the nodes of its own zone
    have hsame : ∀ kind : ServiceKind,
        (s'.service kind.other).localSources = (s.service kind).localSources ∧
        (s'.service kind.other).zoneSources = (s.service kind).zoneSources ∧
        (s'.service kind.other).zone = (s.service kind).zone ∧
        (s'.service kind.other).location = (s.service kind).location := by
      intro kind
      refine ⟨localSources_swap hrun hrun' kind, ?_,
        (h'.service_zone _).trans (h.service_zone kind).symm,
        (h'.service_location _).trans (h.service_location kind).symm⟩
      cases kind with
      | webrtc => exact h'.noZones.trans hzones.symm
      | rtpEngine => exact hzones'.trans h.noZones.symm
    refine ⟨?_, ?_, ?_⟩
    · intro kind
      obtain ⟨hlocal, hzone, hown, hlocation⟩ := hsame kind
      constructor
      · intro asked
        simp only [GatewayStore.bestFor, ServiceStore.bestFor, hlocal, hzone, hlocation]
      · intro dest
        simp only [GatewayStore.destFor, ServiceStore.destFor, hlocal, hzone, hown]
    · intro kind other hother hoffers
      exact absurd hoffers (hnone kind other hother)
    · intro kind other hother hoffers
      refine absurd ((offers_swap kind.other other).mp ?_) (hnone kind.other other hother)
      cases kind <;> exact hoffers

/-- Nodes 1 and 2 of the own zone offer one kind each. -/
def twoNodes : List (Input Nat) :=
  [.ping 0 1 ⟨10, 20, 30, .media, some ⟨100, 1000, true⟩, none⟩,
    .ping 0 2 ⟨10, 20, 30, .media, none, some ⟨100, 1000, true⟩⟩]

theorem not_offers_twoNodes (kind : ServiceKind) (other : ZoneId) :
    ¬ Offers ⟨60, 80, 90⟩ kind other twoNodes := by
  cases kind with
  | webrtc =>
    rintro ⟨node, usage, since, halive⟩
    exact not_alive_nil node usage since halive
  | rtpEngine =>
    rintro ⟨node, usage, since, halive⟩
    exact not_alive_nil node usage since halive

/-- As long as only the own zone is known, the kinds are alike. -/
theorem kinds_symmetric_iff_twoNodes :
    ∃ s s', replay 0 0 ⟨60, 80, 90⟩ twoNodes = .ok s ∧
      replay 0 0 ⟨60, 80, 90⟩ (twoNodes.map Input.swap) = .ok s' ∧
      Exchanged (fun x y : Nat => (x - y) + (y - x)) s s' := by
  have hall : (∃ s, replay 0 0 ⟨60, 80, 90⟩ twoNodes = .ok s) ∧
      ∃ s', replay 0 0 ⟨60, 80, 90⟩ (twoNodes.map Input.swap) = .ok s' :=
    ⟨⟨_, rfl⟩, ⟨_, rfl⟩⟩
  obtain ⟨⟨s, hs⟩, s', hs'⟩ := hall
  refine ⟨s, s', hs, hs', ?_⟩
  exact (((kinds_symmetric_iff (fun x y : Nat => (x - y) + (y - x)) 0 0 ⟨60, 80, 90⟩).2
    twoNodes s s' hs hs').mpr fun kind other _ => not_offers_twoNodes kind other).1

/-- The gateway of zone 1 offers an RTP engine. -/
def rtpZone : List (Input Nat) :=
  [.ping 0 256 ⟨10, 20, 30, .gateway 1 (some 5), none, some ⟨100, 1000, true⟩⟩]

/-- Nobody is found for the RTP engine of zone 1, but for the same offer of webrtc. -/
theorem rtpZone_unreachable :
    ((replay 0 0 ⟨60, 80, 90⟩ rtpZone).toOption.map fun s =>
      (s.bestFor (fun x y : Nat => (x - y) + (y - x)) .rtpEngine none, s.destFor .rtpEngine 257)) =
        some (none, none) ∧
    ((replay 0 0 ⟨60, 80, 90⟩ (rtpZone.map Input.swap)).toOption.map fun s =>
      (s.bestFor (fun x y : Nat => (x - y) + (y - x)) .webrtc none, s.destFor .webrtc 257)) =
        some (some 256, some 256) := by
  decide

end MediaServer.Gateway
