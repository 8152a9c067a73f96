import MediaServer.Gateway.ServiceStore

/-!
# Gateway store

`packages/media_gateway/src/store.rs`.  A gateway hears the pings of the media nodes
of its zone and of the gateways of other zones, and keeps one `ServiceStore` for each
kind of service.  A ping is admitted for a kind if its sender is below the limits and
the service is active there; otherwise its sender leaves the list.

The two kinds share one `on_ping`.  Its branches for media pings are alike.  A gateway
ping, however, is looked at for its webrtc statistics alone: no other zone ever enters
the rtpengine store.
-/

namespace MediaServer.Gateway

inductive Origin (Location : Type) where
  | media
  | gateway (zone : UInt32) (location : Option Location)
deriving DecidableEq

structure PingEvent (Location : Type) where
  cpu : UInt8
  memory : UInt8
  disk : UInt8
  origin : Origin Location
  webrtc : Option ServiceStats
  rtpengine : Option ServiceStats

structure NodeMetrics where
  cpu : UInt8
  memory : UInt8
  disk : UInt8
deriving Repr

/-- The limits a gateway is started with. -/
structure Limits where
  maxCpu : UInt8
  maxMemory : UInt8
  maxDisk : UInt8
deriving Repr

variable {Location : Type}

def nodeUsage (ping : PingEvent Location) (limits : Limits) : Option UInt8 :=
  if limits.maxCpu ≤ ping.cpu then none
  else if limits.maxMemory ≤ ping.memory then none
  else if limits.maxDisk ≤ ping.disk then none
  else some ping.cpu

/-- `live * 100 / max`, cut to a byte; the product and the division are checked. -/
def ServiceStats.percent (stats : ServiceStats) : Except Panic UInt8 :=
  if UInt32.size ≤ stats.live.toNat * 100 then .error ⟨"attempt to multiply with overflow"⟩
  else if stats.max = 0 then .error ⟨"attempt to divide by zero"⟩
  else .ok (UInt8.ofNat (stats.live.toNat * 100 / stats.max.toNat))

/-- The body of `webrtc_usage` and `rtpengine_usage`. -/
def serviceUsage (stats : Option ServiceStats) (ping : PingEvent Location) (limits : Limits) :
    Except Panic (Option UInt8) :=
  if limits.maxCpu ≤ ping.cpu then .ok none
  else if limits.maxMemory ≤ ping.memory then .ok none
  else if limits.maxDisk ≤ ping.disk then .ok none
  else
    match stats with
    | none => .ok none
    | some stats =>
      if stats.active then do
        let percent ← stats.percent
        .ok (some (max ping.cpu percent))
      else .ok none

def webrtcUsage (ping : PingEvent Location) (limits : Limits) : Except Panic (Option UInt8) :=
  serviceUsage ping.webrtc ping limits

def rtpengineUsage (ping : PingEvent Location) (limits : Limits) : Except Panic (Option UInt8) :=
  serviceUsage ping.rtpengine ping limits

structure GatewayStore (Location : Type) where
  zone : ZoneId
  node : NodeMetrics
  location : Location
  webrtc : ServiceStore Location
  rtpengine : ServiceStore Location
  output : Option (PingEvent Location)
  limits : Limits

/-- A media ping for one kind of service. -/
def ServiceStore.onMediaPing (store : ServiceStore Location) (now : Nat) (sender : NodeId)
    (nodeUsage usage : Option UInt8) (stats : Option ServiceStats) : ServiceStore Location :=
  match nodeUsage, usage, stats with
  | some _, some usage, some stats => store.onNodePing now sender usage stats
  | _, _, _ => store.removeNode sender

namespace GatewayStore

def new (zone : ZoneId) (location : Location) (limits : Limits) : GatewayStore Location where
  zone := zone
  node := ⟨0, 0, 0⟩
  location := location
  webrtc := .new zone .webrtc location
  rtpengine := .new zone .rtpEngine location
  output := none
  limits := limits

def onNodeMetrics (s : GatewayStore Location) (metrics : NodeMetrics) : GatewayStore Location :=
  { s with node := metrics }

/-- The ping that a tick announces to the other gateways. -/
def tickPing (s : GatewayStore Location) (webrtc rtpengine : Option ServiceStats) :
    PingEvent Location :=
  ⟨s.node.cpu, s.node.memory, s.node.disk, .gateway s.zone (some s.location), webrtc, rtpengine⟩

def onTick (s : GatewayStore Location) (now : Nat) : Except Panic (GatewayStore Location) := do
  let webrtc := s.webrtc.onTick now
  let rtpengine := s.rtpengine.onTick now
  let webrtcStats ← webrtc.localStats
  let rtpengineStats ← rtpengine.localStats
  .ok { s with webrtc, rtpengine, output := some (s.tickPing webrtcStats rtpengineStats) }

def onPing (s : GatewayStore Location) (now : Nat) (sender : NodeId) (ping : PingEvent Location) :
    Except Panic (GatewayStore Location) := do
  let node := nodeUsage ping s.limits
  let webrtc ← webrtcUsage ping s.limits
  let rtpengine ← rtpengineUsage ping s.limits
  match ping.origin with
  | .media =>
      .ok { s with
        webrtc := s.webrtc.onMediaPing now sender node webrtc ping.webrtc
        rtpengine := s.rtpengine.onMediaPing now sender node rtpengine ping.rtpengine }
  | .gateway zone location =>
      if zone = s.zone then .ok s
      else
        match node, webrtc, location, ping.webrtc with
        | some node, some webrtc, some location, some stats =>
            .ok { s with
              webrtc := s.webrtc.onGatewayPing now zone sender node location webrtc stats }
        | _, _, _, _ =>
            .ok { s with
              webrtc := s.webrtc.removeGateway zone sender
              rtpengine := s.rtpengine.removeGateway zone sender }

/-- The store of a kind of service. -/
def service (s : GatewayStore Location) : ServiceKind → ServiceStore Location
  | .webrtc => s.webrtc
  | .rtpEngine => s.rtpengine

def bestFor {D : Type} [LinearOrder D] (distance : Location → Location → D)
    (s : GatewayStore Location) (kind : ServiceKind) (location : Option Location) :
    Option NodeId :=
  (s.service kind).bestFor distance location

def destFor (s : GatewayStore Location) (kind : ServiceKind) (dest : NodeId) : Option NodeId :=
  (s.service kind).destFor dest

end GatewayStore

/-! ### Admitted pings -/

/-- The statistics of a service can be turned into a percentage. -/
def ServiceStats.Fits (stats : ServiceStats) : Prop :=
  0 < stats.max ∧ stats.live.toNat * 100 < UInt32.size

instance (stats : ServiceStats) : Decidable stats.Fits := inferInstanceAs (Decidable (_ ∧ _))

/-- The statistics that a ping has for a kind of service. -/
def PingEvent.stats (ping : PingEvent Location) : ServiceKind → Option ServiceStats
  | .webrtc => ping.webrtc
  | .rtpEngine => ping.rtpengine

def PingEvent.Fits (ping : PingEvent Location) : Prop :=
  ∀ kind, ∀ stats ∈ ping.stats kind, stats.Fits

instance (ping : PingEvent Location) : Decidable ping.Fits :=
  match ping with
  | ⟨_, _, _, _, webrtc, rtpengine⟩ =>
    decidable_of_iff ((∀ stats ∈ webrtc, stats.Fits) ∧ ∀ stats ∈ rtpengine, stats.Fits) <| by
      constructor
      · rintro ⟨hwebrtc, hrtpengine⟩ kind
        cases kind with
        | webrtc => exact hwebrtc
        | rtpEngine => exact hrtpengine
      · intro h
        exact ⟨h .webrtc, h .rtpEngine⟩

/-- The usage with which a ping is admitted: its sender is below the limits and the
    service is active there. -/
def admitted (stats : Option ServiceStats) (ping : PingEvent Location) (limits : Limits) :
    Option UInt8 :=
  match nodeUsage ping limits, stats with
  | some cpu, some stats =>
    if stats.active then some (max cpu (UInt8.ofNat (stats.live.toNat * 100 / stats.max.toNat)))
    else none
  | _, _ => none

theorem ServiceStats.Fits.percent_eq {stats : ServiceStats} (h : stats.Fits) :
    stats.percent = .ok (UInt8.ofNat (stats.live.toNat * 100 / stats.max.toNat)) := by
  have hpos : stats.max ≠ 0 := (UInt32.ne_of_lt h.1).symm
  rw [percent, if_neg (Nat.not_le.mpr h.2), if_neg hpos]

theorem serviceUsage_eq {stats : Option ServiceStats} (h : ∀ st ∈ stats, st.Fits)
    (ping : PingEvent Location) (limits : Limits) :
    serviceUsage stats ping limits = .ok (admitted stats ping limits) := by
  rw [serviceUsage.eq_def, admitted.eq_def, nodeUsage]
  by_cases hcpu : limits.maxCpu ≤ ping.cpu
  · rw [if_pos hcpu, if_pos hcpu]
  rw [if_neg hcpu, if_neg hcpu]
  by_cases hmemory : limits.maxMemory ≤ ping.memory
  · rw [if_pos hmemory, if_pos hmemory]
  rw [if_neg hmemory, if_neg hmemory]
  by_cases hdisk : limits.maxDisk ≤ ping.disk
  · rw [if_pos hdisk, if_pos hdisk]
  rw [if_neg hdisk, if_neg hdisk]
  cases stats with
  | none => rfl
  | some st =>
    dsimp only
    by_cases hactive : st.active = true
    · rw [if_pos hactive, if_pos hactive, (h st rfl).percent_eq]
      rfl
    · rw [if_neg hactive, if_neg hactive]

/-- A usage that was computed is the admitted one. -/
theorem admitted_of_serviceUsage {stats : Option ServiceStats} {ping : PingEvent Location}
    {limits : Limits} {usage : Option UInt8} (h : serviceUsage stats ping limits = .ok usage) :
    usage = admitted stats ping limits := by
  rw [serviceUsage.eq_def] at h
  rw [admitted.eq_def, nodeUsage]
  by_cases hcpu : limits.maxCpu ≤ ping.cpu
  · rw [if_pos hcpu] at h ⊢
    cases h
    rfl
  rw [if_neg hcpu] at h ⊢
  by_cases hmemory : limits.maxMemory ≤ ping.memory
  · rw [if_pos hmemory] at h ⊢
    cases h
    rfl
  rw [if_neg hmemory] at h ⊢
  by_cases hdisk : limits.maxDisk ≤ ping.disk
  · rw [if_pos hdisk] at h ⊢
    cases h
    rfl
  rw [if_neg hdisk] at h ⊢
  cases stats with
  | none =>
    cases h
    rfl
  | some st =>
    dsimp only at h ⊢
    by_cases hactive : st.active = true
    · rw [if_pos hactive] at h ⊢
      rw [ServiceStats.percent] at h
      split at h
      · cases h
      · split at h
        · cases h
        · cases h
          rfl
    · rw [if_neg hactive] at h ⊢
      cases h
      rfl

theorem nodeUsage_eq_some {ping : PingEvent Location} {limits : Limits} {cpu : UInt8}
    (h : nodeUsage ping limits = some cpu) : cpu = ping.cpu := by
  rw [nodeUsage] at h
  split at h
  · cases h
  · split at h
    · cases h
    · split at h
      · cases h
      · exact (Option.some.inj h).symm

/-- An admitted ping has statistics, and its sender is below the limits. -/
theorem admitted_eq_some {stats : Option ServiceStats} {ping : PingEvent Location}
    {limits : Limits} {usage : UInt8} (h : admitted stats ping limits = some usage) :
    nodeUsage ping limits = some ping.cpu ∧ ∃ st, stats = some st := by
  cases hnode : nodeUsage ping limits with
  | none => simp [admitted, hnode] at h
  | some cpu =>
    cases stats with
    | none => simp [admitted, hnode] at h
    | some st =>
      rw [nodeUsage_eq_some hnode]
      exact ⟨rfl, st, rfl⟩

/-- A media ping refreshes its sender if it is admitted and removes it otherwise. -/
theorem ServiceStore.onMediaPing_eq (store : ServiceStore Location) (now : Nat)
    (sender : NodeId) (ping : PingEvent Location) (limits : Limits)
    (stats : Option ServiceStats) :
    (∃ usage st, admitted stats ping limits = some usage ∧ stats = some st ∧
      store.onMediaPing now sender (nodeUsage ping limits) (admitted stats ping limits) stats =
        store.onNodePing now sender usage st) ∨
    (admitted stats ping limits = none ∧
      store.onMediaPing now sender (nodeUsage ping limits) (admitted stats ping limits) stats =
        store.removeNode sender) := by
  cases hadmitted : admitted stats ping limits with
  | none =>
    refine Or.inr ⟨rfl, ?_⟩
    rw [onMediaPing.eq_def]
    cases nodeUsage ping limits <;> rfl
  | some usage =>
    obtain ⟨hnode, st, rfl⟩ := admitted_eq_some hadmitted
    refine Or.inl ⟨usage, st, rfl, rfl, ?_⟩
    rw [hnode]
    rfl

namespace GatewayStore

/-- What a ping does to the store, and when. -/
inductive Hears (s : GatewayStore Location) (now : Nat) (sender : NodeId)
    (ping : PingEvent Location) : GatewayStore Location → Prop
  | media (horigin : ping.origin = .media) :
      Hears s now sender ping { s with
        webrtc := s.webrtc.onMediaPing now sender (nodeUsage ping s.limits)
          (admitted ping.webrtc ping s.limits) ping.webrtc
        rtpengine := s.rtpengine.onMediaPing now sender (nodeUsage ping s.limits)
          (admitted ping.rtpengine ping s.limits) ping.rtpengine }
  | own {location : Option Location} (horigin : ping.origin = .gateway s.zone location) :
      Hears s now sender ping s
  | joins {zone : ZoneId} {location : Location} {usage : UInt8} {stats : ServiceStats}
      (horigin : ping.origin = .gateway zone (some location)) (hzone : zone ≠ s.zone)
      (hadmitted : admitted ping.webrtc ping s.limits = some usage)
      (hstats : ping.webrtc = some stats) :
      Hears s now sender ping { s with
        webrtc := s.webrtc.onGatewayPing now zone sender ping.cpu location usage stats }
  | leaves {zone : ZoneId} {location : Option Location}
      (horigin : ping.origin = .gateway zone location) (hzone : zone ≠ s.zone)
      (hrefused : admitted ping.webrtc ping s.limits = none ∨ location = none) :
      Hears s now sender ping { s with
        webrtc := s.webrtc.removeGateway zone sender
        rtpengine := s.rtpengine.removeGateway zone sender }

theorem onPing_hears {s : GatewayStore Location} {ping : PingEvent Location} (hfits : ping.Fits)
    (now : Nat) (sender : NodeId) :
    ∃ s', s.onPing now sender ping = .ok s' ∧ s.Hears now sender ping s' := by
  have hwebrtc : webrtcUsage ping s.limits = .ok (admitted ping.webrtc ping s.limits) :=
    serviceUsage_eq (hfits .webrtc) ping s.limits
  have hrtpengine : rtpengineUsage ping s.limits = .ok (admitted ping.rtpengine ping s.limits) :=
    serviceUsage_eq (hfits .rtpEngine) ping s.limits
  simp only [onPing, hwebrtc, hrtpengine, bind, Except.bind]
  cases horigin : ping.origin with
  | media => exact ⟨_, rfl, .media horigin⟩
  | gateway zone location =>
    dsimp only
    by_cases hzone : zone = s.zone
    · subst hzone
      rw [if_pos rfl]
      exact ⟨s, rfl, .own horigin⟩
    rw [if_neg hzone]
    cases hadmitted : admitted ping.webrtc ping s.limits with
    | none =>
      refine ⟨{ s with
        webrtc := s.webrtc.removeGateway zone sender
        rtpengine := s.rtpengine.removeGateway zone sender }, ?_,
        .leaves horigin hzone (Or.inl hadmitted)⟩
      cases nodeUsage ping s.limits <;> rfl
    | some usage =>
      obtain ⟨hnode, st, hst⟩ := admitted_eq_some hadmitted
      rw [hnode, hst]
      cases location with
      | none => exact ⟨_, rfl, .leaves horigin hzone (Or.inr rfl)⟩
      | some location => exact ⟨_, rfl, .joins horigin hzone hadmitted hst⟩

/-- A ping that goes through does one of these, whatever its statistics. -/
theorem onPing_eq_ok {s s' : GatewayStore Location} {now : Nat} {sender : NodeId}
    {ping : PingEvent Location} (h : s.onPing now sender ping = .ok s') :
    s.Hears now sender ping s' := by
  rw [onPing] at h
  cases hwebrtc : webrtcUsage ping s.limits with
  | error e => simp [hwebrtc, bind, Except.bind] at h
  | ok webrtc =>
    cases hrtpengine : rtpengineUsage ping s.limits with
    | error e => simp [hwebrtc, hrtpengine, bind, Except.bind] at h
    | ok rtpengine =>
      simp only [hwebrtc, hrtpengine, bind, Except.bind] at h
      rw [admitted_of_serviceUsage hwebrtc, admitted_of_serviceUsage hrtpengine] at h
      cases horigin : ping.origin with
      | media =>
        rw [horigin] at h
        cases h
        exact .media horigin
      | gateway zone location =>
        rw [horigin] at h
        dsimp only at h
        by_cases hzone : zone = s.zone
        · rw [if_pos hzone] at h
          cases h
          subst hzone
          exact .own horigin
        rw [if_neg hzone] at h
        cases hadmitted : admitted ping.webrtc ping s.limits with
        | none =>
          rw [hadmitted] at h
          cases hnode : nodeUsage ping s.limits <;> rw [hnode] at h <;> cases h <;>
            exact .leaves horigin hzone (Or.inl hadmitted)
        | some usage =>
          obtain ⟨hnode, st, hst⟩ := admitted_eq_some hadmitted
          rw [hadmitted, hnode, hst] at h
          cases location with
          | none =>
            cases h
            exact .leaves horigin hzone (Or.inr rfl)
          | some location =>
            cases h
            exact .joins horigin hzone hadmitted hst

/-- A tick that goes through prunes both stores. -/
theorem onTick_eq_ok {s s' : GatewayStore Location} {now : Nat} (h : s.onTick now = .ok s') :
    ∃ webrtc rtpengine, s' = { s with
      webrtc := s.webrtc.onTick now
      rtpengine := s.rtpengine.onTick now
      output := some (s.tickPing webrtc rtpengine) } := by
  rw [onTick] at h
  cases hwebrtc : (s.webrtc.onTick now).localStats with
  | error e => simp [hwebrtc, bind, Except.bind] at h
  | ok webrtc =>
    cases hrtpengine : (s.rtpengine.onTick now).localStats with
    | error e => simp [hwebrtc, hrtpengine, bind, Except.bind] at h
    | ok rtpengine =>
      simp only [hwebrtc, hrtpengine, bind, Except.bind, Except.ok.injEq] at h
      exact ⟨webrtc, rtpengine, h.symm⟩

/-- The sums that a tick computes fit their type. -/
def TickFits (s : GatewayStore Location) (now : Nat) : Prop :=
  (s.webrtc.onTick now).SumsFit ∧ (s.rtpengine.onTick now).SumsFit

instance (s : GatewayStore Location) (now : Nat) : Decidable (s.TickFits now) :=
  inferInstanceAs (Decidable (_ ∧ _))

theorem TickFits.onTick {s : GatewayStore Location} {now : Nat} (h : s.TickFits now) :
    ∃ webrtc rtpengine, (s.webrtc.onTick now).localStats = .ok webrtc ∧
      (s.rtpengine.onTick now).localStats = .ok rtpengine ∧
      s.onTick now = .ok { s with
        webrtc := s.webrtc.onTick now
        rtpengine := s.rtpengine.onTick now
        output := some (s.tickPing webrtc rtpengine) } := by
  obtain ⟨webrtc, hwebrtc⟩ := h.1.localStats_ok
  obtain ⟨rtpengine, hrtpengine⟩ := h.2.localStats_ok
  refine ⟨webrtc, rtpengine, hwebrtc, hrtpengine, ?_⟩
  simp only [GatewayStore.onTick, hwebrtc, hrtpengine, bind, Except.bind]

end GatewayStore

end MediaServer.Gateway
