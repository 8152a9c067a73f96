import MediaServer.Endpoint.BudgetShares
import MediaServer.Endpoint.Allocation

/-!
# The limits of an endpoint

The configuration limits what an endpoint may send and what it may receive.  The limits travel
from there through the constructor, the allocator and the estimates of the transport to the shares
of the tracks.  The constructor passes the limit of the other direction, so an estimate within the
egress limit is still announced with a fifth on top.
-/

namespace MediaServer.Endpoint

open Collections Runtime Machine

variable {Selector : Type}

/-! ### Within the limits -/

/-- What the transport is told to aim for: at most the limit, or the constant for an endpoint
    without a video track. -/
def BweFits (cfg : EndpointCfg) (current desired : UInt64) : Prop :=
  (current = noTrackBweCurrent ∧ desired = noTrackBweDesired) ∨ desired ≤ cfg.maxEgressBitrate

def EgressAction.Fits (cfg : EndpointCfg) : EgressAction → Prop
  | .setBitrate bitrate => bitrate ≤ cfg.maxEgressBitrate

def IngressAction.Fits (cfg : EndpointCfg) : IngressAction → Prop
  | .setBitrate bitrate => bitrate ≤ cfg.maxIngressBitrate

def EgressOutput.Fits (cfg : EndpointCfg) : EgressOutput → Prop
  | .track _ action => action.Fits cfg
  | .bweConfig current desired => BweFits cfg current desired

def InternalOutput.Fits (cfg : EndpointCfg) : InternalOutput → Prop
  | .event (.bweConfig current desired) => BweFits cfg current desired
  | _ => True

/-- The allocator of an endpoint, with nothing in its queues that exceeds a limit.  Only a tick
    fills the queues, and what a track or the transport gets is taken from them. -/
structure BitrateAllocator.Within (cfg : EndpointCfg) (a : BitrateAllocator) : Prop where
  -- the limit of the other direction
  egressLimit : a.egress.maxEgressBitrate = cfg.maxIngressBitrate
  ingressLimit : a.ingress.ingressBitrate = cfg.maxIngressBitrate
  egress : ∀ out ∈ a.egress.queue, out.Fits cfg
  ingress : ∀ grant ∈ a.ingress.queue, grant.2.Fits cfg

/-- The condition on the allocator when it divides the bandwidth: the estimate with a fifth on top
    is within the limit, unless the ingress limit is, and no sum of priorities overflows. -/
structure BitrateAllocator.Careful (cfg : EndpointCfg) (a : BitrateAllocator) : Prop where
  estimate : a.egress.changed = true → a.egress.tracks.isEmpty = false →
    cfg.maxIngressBitrate ≤ cfg.maxEgressBitrate ∨
      a.egress.egressBitrate.toNat * 6 / 5 ≤ cfg.maxEgressBitrate.toNat
  egress : a.egress.changed = true → totalPriority a.egress.tracks < 2 ^ 32
  ingress : a.ingress.changed = true → totalPriority a.ingress.tracks < 2 ^ 32

instance (cfg : EndpointCfg) (a : BitrateAllocator) : Decidable (a.Careful cfg) :=
  decidable_of_iff
    ((a.egress.changed = true → a.egress.tracks.isEmpty = false →
        cfg.maxIngressBitrate ≤ cfg.maxEgressBitrate ∨
          a.egress.egressBitrate.toNat * 6 / 5 ≤ cfg.maxEgressBitrate.toNat) ∧
      (a.egress.changed = true → totalPriority a.egress.tracks < 2 ^ 32) ∧
      (a.ingress.changed = true → totalPriority a.ingress.tracks < 2 ^ 32))
    ⟨fun ⟨h, h', h''⟩ => ⟨h, h', h''⟩, fun h => ⟨h.estimate, h.egress, h.ingress⟩⟩

/-! ### A division -/

/-- A share of a division without overflow is within the budget. -/
theorem share_le_of_mem {Id : Type} {tracks : IndexMap Id TrackPriority} {id : Id}
    {priority : TrackPriority} (hfits : totalPriority tracks < 2 ^ 32)
    (hmem : (id, priority) ∈ tracks.entries) (bitrate : UInt64) :
    share bitrate priority (prioritySum tracks) ≤ bitrate := by
  apply share_le
  rw [(checkedSum_eq tracks).2 hfits]
  exact le_totalPriority hmem

theorem EgressBitrateAllocator.allocation_fits {cfg : EndpointCfg} {a : EgressBitrateAllocator}
    (hlimit : a.maxEgressBitrate = cfg.maxIngressBitrate)
    (hestimate : a.tracks.isEmpty = false → cfg.maxIngressBitrate ≤ cfg.maxEgressBitrate ∨
      a.egressBitrate.toNat * 6 / 5 ≤ cfg.maxEgressBitrate.toNat)
    (hfits : totalPriority a.tracks < 2 ^ 32) : ∀ out ∈ a.allocation, out.Fits cfg := by
  intro out hmem
  rcases List.mem_append.mp hmem with htrack | hbwe
  · -- a share is at most what is divided
    split at htrack
    · cases htrack
    · obtain ⟨⟨id, priority⟩, hentry, rfl⟩ := List.mem_map.mp htrack
      have hshare := share_le_of_mem hfits hentry (min a.egressBitrate a.maxEgressBitrate)
      have hsome : a.tracks.isEmpty = false := by
        rw [IndexMap.isEmpty, List.isEmpty_eq_false_iff]
        exact List.ne_nil_of_mem hentry
      apply UInt64.le_trans hshare
      rcases hestimate hsome with hle | hle
      · exact UInt64.le_trans Std.min_le_right (hlimit ▸ hle)
      · apply UInt64.le_trans Std.min_le_left
        rw [UInt64.le_iff_toNat_le]
        omega
  · rw [List.mem_singleton] at hbwe
    subst hbwe
    split
    · exact Or.inl ⟨rfl, rfl⟩
    · rename_i hsome
      apply Or.inr
      rcases hestimate (Bool.not_eq_true _ ▸ hsome) with hle | hle
      · exact UInt64.le_trans Std.min_le_right (hlimit ▸ hle)
      · apply UInt64.le_trans Std.min_le_left
        rw [UInt64.le_iff_toNat_le, UInt64.toNat_div, UInt64.toNat_mul]
        have hmin : (min a.egressBitrate a.maxEgressBitrate).toNat ≤ a.egressBitrate.toNat :=
          UInt64.le_iff_toNat_le.mp Std.min_le_left
        rw [show (6 : UInt64).toNat = 6 from rfl, show (5 : UInt64).toNat = 5 from rfl]
        have hmod := Nat.mod_le ((min a.egressBitrate a.maxEgressBitrate).toNat * 6) (2 ^ 64)
        omega

theorem IngressBitrateAllocator.allocation_fits {cfg : EndpointCfg} {a : IngressBitrateAllocator}
    (hlimit : a.ingressBitrate = cfg.maxIngressBitrate)
    (hfits : totalPriority a.tracks < 2 ^ 32) : ∀ grant ∈ a.allocation, grant.2.Fits cfg := by
  intro grant hmem
  dsimp only [allocation] at hmem
  split at hmem
  · cases hmem
  · obtain ⟨⟨id, priority⟩, hentry, rfl⟩ := List.mem_map.mp hmem
    have hshare := share_le_of_mem hfits hentry a.ingressBitrate
    rw [hlimit] at hshare ⊢
    exact hshare

namespace BitrateAllocator.Within

variable {cfg : EndpointCfg} {a : BitrateAllocator}

/-- **A careful tick keeps the limits.** -/
theorem onTick (h : a.Within cfg) (hcareful : a.Careful cfg) : a.onTick.Within cfg := by
  obtain ⟨egress, ingress⟩ := a
  obtain ⟨helimit, hilimit, hegress, hingress⟩ := h
  refine ⟨?_, ?_, ?_, ?_⟩
  · change egress.process.maxEgressBitrate = _
    unfold EgressBitrateAllocator.process
    split
    · exact helimit
    · exact helimit
  · change ingress.process.ingressBitrate = _
    unfold IngressBitrateAllocator.process
    split
    · exact hilimit
    · exact hilimit
  · change ∀ out ∈ egress.process.queue, _
    unfold EgressBitrateAllocator.process
    split
    · rename_i hchanged
      intro out hmem
      rcases List.mem_append.mp hmem with hold | hnew
      · exact hegress out hold
      · exact EgressBitrateAllocator.allocation_fits helimit (hcareful.estimate hchanged)
          (hcareful.egress hchanged) out hnew
    · exact hegress
  · change ∀ grant ∈ ingress.process.queue, _
    unfold IngressBitrateAllocator.process
    split
    · rename_i hchanged
      intro grant hmem
      rcases List.mem_append.mp hmem with hold | hnew
      · exact hingress grant hold
      · exact IngressBitrateAllocator.allocation_fits hilimit (hcareful.ingress hchanged) grant hnew
    · exact hingress

theorem hearRemote (h : a.Within cfg) (id : RemoteTrackId) (out : RemoteTrack.Output) :
    (a.hearRemote id out).Within cfg := by
  unfold BitrateAllocator.hearRemote
  split
  · split <;> exact ⟨h.egressLimit, h.ingressLimit, h.egress, h.ingress⟩
  · split <;> exact ⟨h.egressLimit, h.ingressLimit, h.egress, h.ingress⟩
  · split <;> exact ⟨h.egressLimit, h.ingressLimit, h.egress, h.ingress⟩
  · exact h

theorem hearLocal (h : a.Within cfg) (id : LocalTrackId) (out : LocalTrack.Output) :
    (a.hearLocal id out).Within cfg := by
  unfold BitrateAllocator.hearLocal
  split
  · split <;> exact ⟨h.egressLimit, h.ingressLimit, h.egress, h.ingress⟩
  · split <;> exact ⟨h.egressLimit, h.ingressLimit, h.egress, h.ingress⟩
  · split <;> exact ⟨h.egressLimit, h.ingressLimit, h.egress, h.ingress⟩
  · exact h

theorem setEgressEstimate (h : a.Within cfg) (bitrate : UInt64) :
    (a.setEgressEstimate bitrate).Within cfg :=
  ⟨h.egressLimit, h.ingressLimit, h.egress, h.ingress⟩

/-- What is popped is within the limits. -/
theorem popOutput {a' : BitrateAllocator} {out : AllocatorOutput} (h : a.Within cfg)
    (hpop : a.popOutput = some (out, a')) :
    a'.Within cfg ∧ ∀ current desired, out = .bweConfig current desired →
      BweFits cfg current desired := by
  obtain ⟨⟨_, _, _, _, egress⟩, ⟨_, _, _, ingress⟩⟩ := a
  obtain ⟨helimit, hilimit, hegress, hingress⟩ := h
  cases egress with
  | nil =>
    cases ingress with
    | nil => cases hpop
    | cons first rest =>
      cases hpop
      refine ⟨⟨helimit, hilimit, hegress, fun grant hmem => ?_⟩, ?_⟩
      · exact hingress grant (List.mem_cons_of_mem _ hmem)
      · intro current desired heq
        cases heq
  | cons first rest =>
    have hrest : ∀ out ∈ rest, out.Fits cfg := fun out hmem =>
      hegress out (List.mem_cons_of_mem _ hmem)
    have hfirst := hegress first (List.mem_cons_self ..)
    cases first with
    | track track action =>
      cases hpop
      refine ⟨⟨helimit, hilimit, hrest, hingress⟩, ?_⟩
      intro current desired heq
      cases heq
    | bweConfig current desired =>
      cases hpop
      refine ⟨⟨helimit, hilimit, hrest, hingress⟩, ?_⟩
      intro current' desired' heq
      cases heq
      exact hfirst

end BitrateAllocator.Within

namespace EndpointInternal

/-! ### An endpoint within its limits -/

/-- Neither the allocator nor the queue of the endpoint holds anything that exceeds a limit. -/
structure Capped (cfg : EndpointCfg) (s : EndpointInternal Selector) : Prop where
  config : s.cfg = cfg
  allocator : s.bitrateAllocator.Within cfg
  queue : ∀ out ∈ s.queue, out.Fits cfg

theorem capped_new (cfg : EndpointCfg) : Capped cfg (.new cfg : EndpointInternal Selector) := by
  refine ⟨rfl, ⟨rfl, rfl, ?_, ?_⟩, ?_⟩
  · rintro out ⟨⟩
  · rintro grant ⟨⟩
  · rintro out ⟨⟩

variable {cfg : EndpointCfg} {s s' : EndpointInternal Selector}

theorem Capped.congr (h : Capped cfg s) (hcfg : s'.cfg = s.cfg)
    (hallocator : s'.bitrateAllocator = s.bitrateAllocator) (hqueue : s'.queue = s.queue) :
    Capped cfg s' := by
  refine ⟨hcfg.trans h.config, ?_, ?_⟩
  · rw [hallocator]
    exact h.allocator
  · rw [hqueue]
    exact h.queue

theorem Capped.withState (h : Capped cfg s) (state : Option (Instant × TransportState)) :
    Capped cfg { s with state := state } :=
  h.congr rfl rfl rfl

theorem Capped.withJoined (h : Capped cfg s) (joined : Option Joined) :
    Capped cfg { s with joined := joined } :=
  h.congr rfl rfl rfl

theorem Capped.withWait (h : Capped cfg s) (waitJoin : Option WaitJoin) :
    Capped cfg { s with waitJoin := waitJoin } :=
  h.congr rfl rfl rfl

theorem Capped.push (h : Capped cfg s) {outs : List InternalOutput}
    (houts : ∀ out ∈ outs, out.Fits cfg) : Capped cfg (s.push outs) := by
  refine ⟨h.config, h.allocator, fun out hmem => ?_⟩
  rcases List.mem_append.mp hmem with hold | hnew
  · exact h.queue out hold
  · exact houts out hnew

theorem fits_recorded (s : EndpointInternal Selector) (now : Instant)
    (event : SessionRecordEvent) : ∀ out ∈ s.recorded now event, out.Fits cfg := by
  intro out hmem
  unfold recorded at hmem
  split at hmem
  · rw [List.mem_singleton] at hmem
    subst hmem
    trivial
  · cases hmem

theorem fits_leaveOutputs (s : EndpointInternal Selector) (now : Instant) (joined : Joined) :
    ∀ out ∈ s.leaveOutputs now joined, out.Fits cfg := by
  intro out hmem
  simp only [leaveOutputs, List.mem_append, List.mem_singleton] at hmem
  rcases hmem with (rfl | hmem) | rfl
  · trivial
  · exact fits_recorded s now _ out hmem
  · trivial

theorem fits_joinOutputs (s : EndpointInternal Selector) (now : Instant) (hash : ClusterRoomHash)
    (req : WaitJoin) : ∀ out ∈ s.joinOutputs now hash req, out.Fits cfg := by
  intro out hmem
  simp only [joinOutputs, List.mem_append, List.mem_singleton] at hmem
  rcases hmem with (rfl | hmem) | rfl
  · trivial
  · exact fits_recorded s now _ out hmem
  · trivial

theorem fits_passedRemote (id : RemoteTrackId) (out : RemoteTrack.Output) :
    ∀ out' ∈ passedRemote id out, out'.Fits cfg := by
  intro out' hmem
  cases out with
  | started | update | stopped => cases hmem
  | event | cluster | rpcRes | peerEvent | recordEvent =>
    obtain rfl := List.mem_singleton.mp hmem
    trivial

theorem fits_passedLocal (id : LocalTrackId) (out : LocalTrack.Output) :
    ∀ out' ∈ passedLocal id out, out'.Fits cfg := by
  intro out' hmem
  cases out with
  | bind | updated | unbind | onResourceEmpty => cases hmem
  | event | cluster | rpcRes | peerEvent =>
    obtain rfl := List.mem_singleton.mp hmem
    trivial

/-! ### What is not a tick -/

theorem Capped.toRemote (h : Capped cfg s) {now : Instant} {index : Nat}
    {told : RemoteTrack.Input} (hok : s.toRemote now index told = .ok s') : Capped cfg s' := by
  obtain ⟨group, -, rfl⟩ := toRemote_eq_ok hok
  exact h.congr rfl rfl rfl

section

variable {env : Env Selector}

theorem Capped.toLocal (h : Capped cfg s) {now : Instant} {index : Nat}
    {told : LocalTrack.Input} (hok : s.toLocal env now index told = .ok s') : Capped cfg s' := by
  obtain ⟨group, -, rfl⟩ := toLocal_eq_ok hok
  exact h.congr rfl rfl rfl

theorem Capped.popBitrateAllocator (h : Capped cfg s) {now : Instant}
    (hok : s.popBitrateAllocator env now = .ok s') : Capped cfg s' := by
  unfold EndpointInternal.popBitrateAllocator at hok
  cases hpop : s.bitrateAllocator.popOutput with
  | none =>
    rw [hpop] at hok
    cases hok
    exact h
  | some popped =>
    obtain ⟨out, allocator⟩ := popped
    obtain ⟨hwithin, hbwe⟩ := h.allocator.popOutput hpop
    have hrest : Capped cfg { s with bitrateAllocator := allocator } := ⟨h.config, hwithin, h.queue⟩
    rw [hpop] at hok
    cases out with
    | bweConfig current desired =>
      cases hok
      apply hrest.push
      intro out hmem
      obtain rfl := List.mem_singleton.mp hmem
      exact hbwe current desired rfl
    | remoteTrack track action =>
      simp only at hok
      split at hok
      · cases hok
        exact hrest
      · exact hrest.toRemote hok
    | localTrack track action =>
      simp only at hok
      split at hok
      · cases hok
        exact hrest
      · exact hrest.toLocal hok

theorem Capped.popTask (h : Capped cfg s) {now : Instant} {pick : Pick}
    (hok : s.popTask env now pick = .ok s') : Capped cfg s' := by
  cases pick with
  | bitrateAllocator => exact h.popBitrateAllocator hok
  | localTracks index =>
    rcases popLocalTracks_eq_ok hok with ⟨-, rfl⟩ | ⟨t, id, -, -, hcase⟩
    · exact h
    · rcases hcase with ⟨out, rest, -, -, rfl⟩ | ⟨group, -, -, rfl⟩
      · have hheard : Capped cfg
            { s with bitrateAllocator := s.bitrateAllocator.hearLocal id out } :=
          ⟨h.config, h.allocator.hearLocal id out, h.queue⟩
        exact (hheard.push (fits_passedLocal id out)).congr rfl rfl rfl
      · exact h.congr rfl rfl rfl
  | remoteTracks index =>
    rcases popRemoteTracks_eq_ok hok with ⟨-, rfl⟩ | ⟨t, id, -, -, hcase⟩
    · exact h
    · rcases hcase with ⟨out, rest, -, -, rfl⟩ | ⟨kind, group, -, -, rfl⟩
      · have hheard : Capped cfg
            { s with bitrateAllocator := s.bitrateAllocator.hearRemote id out } :=
          ⟨h.config, h.allocator.hearRemote id out, h.queue⟩
        exact (hheard.push (fits_passedRemote id out)).congr rfl rfl rfl
      · exact ⟨h.config, h.allocator.hearRemote id (.stopped kind), h.queue⟩

theorem Capped.popAll (h : Capped cfg s) {now : Instant} {schedule : Schedule}
    (hok : popAll env now schedule s = .ok s') : Capped cfg s' :=
  popAll_invariant (Capped cfg) (fun _ _ _ hs hturn => hs.popTask hturn) h hok

theorem Capped.broadcast (h : Capped cfg s) {now : Instant} {toLocals : LocalTrack.Input}
    {toRemotes : RemoteTrack.Input} (hok : s.broadcast env now toLocals toRemotes = .ok s') :
    Capped cfg s' := by
  obtain ⟨localTracks, remoteTracks, -, -, rfl⟩ := broadcast_eq_ok hok
  exact h.congr rfl rfl rfl

theorem Capped.leaveRoom (h : Capped cfg s) {now : Instant} {schedule : Schedule}
    (hok : s.leaveRoom env now schedule = .ok s') : Capped cfg s' := by
  rcases leaveRoom_eq_ok hok with ⟨-, rfl⟩ | ⟨joined, s₁, s₂, -, hs₁, hs₂, rfl⟩
  · exact h
  · exact (((h.withJoined none).broadcast hs₁).popAll hs₂).push (fits_leaveOutputs s₂ now joined)

theorem Capped.joinRoom (h : Capped cfg s) {now : Instant} {schedule : Schedule}
    {req : WaitJoin} (hok : s.joinRoom env now schedule req = .ok s') : Capped cfg s' := by
  obtain ⟨s₁, hs₁, hs'⟩ := joinRoom_eq_ok hok
  have hleft : Capped cfg s₁ :=
    Capped.leaveRoom (h.push fun out hmem => by
      obtain rfl := List.mem_singleton.mp hmem
      trivial) hs₁
  exact ((hleft.withJoined _).push (fits_joinOutputs s₁ now _ req)).broadcast hs'

theorem Capped.onShutdown (h : Capped cfg s) {now : Instant} {schedule : Schedule}
    (hok : s.onShutdown env now schedule = .ok s') : Capped cfg s' := by
  rcases onShutdown_eq_ok hok with
    ⟨-, rfl⟩ | ⟨-, localTracks, remoteTracks, s₁, -, -, hs₁, hcase⟩
  · exact h
  · have hdown : Capped cfg { s with shutdown := true, localTracks := localTracks,
                                     remoteTracks := remoteTracks } := h.congr rfl rfl rfl
    have hempty := hdown.popAll hs₁
    rcases hcase with ⟨-, rfl⟩ | ⟨joined, -, rfl⟩
    · exact hempty
    · exact (hempty.withJoined none).push (fits_leaveOutputs s₁ now joined)

theorem Capped.onTransportStateChanged (h : Capped cfg s) {now : Instant} {schedule : Schedule}
    {state : TransportState} (hok : s.onTransportStateChanged env now schedule state = .ok s') :
    Capped cfg s' := by
  have hstate : ∀ (event : PeerEvent), Capped cfg
      ({ s with state := some (now, state) }.push [.peerEvent now event]) := by
    intro event
    apply (h.withState _).push
    intro out hmem
    obtain rfl := List.mem_singleton.mp hmem
    trivial
  cases state with
  | new =>
    cases hok
    exact h.congr rfl rfl rfl
  | connecting ip =>
    cases hok
    exact hstate _
  | reconnecting ip =>
    cases hok
    exact hstate _
  | connectError err =>
    simp only [EndpointInternal.onTransportStateChanged] at hok
    split at hok
    · cases hok
    · exact (hstate _).onShutdown hok
  | disconnected err =>
    refine ((h.withState _).push fun out hmem => ?_).onShutdown hok
    rcases List.mem_append.mp hmem with hpeer | hrecord
    · obtain rfl := List.mem_singleton.mp hpeer
      trivial
    · exact fits_recorded _ now _ out hrecord
  | connected ip =>
    simp only [EndpointInternal.onTransportStateChanged] at hok
    split at hok
    · cases hok
    · split at hok
      · cases hok
        exact hstate _
      · exact ((hstate _).withWait _).joinRoom hok

theorem Capped.onTransportRemoteTrack (h : Capped cfg s) {now : Instant} {hint : Nat}
    {track : RemoteTrackId} {event : RemoteTrackEvent}
    (hok : s.onTransportRemoteTrack now hint track event = .ok s') : Capped cfg s' := by
  have hreach : event.needCreate = none → Capped cfg s' := by
    intro hcreate
    simp only [EndpointInternal.onTransportRemoteTrack, hcreate] at hok
    split at hok
    · cases hok
      exact h
    · exact h.toRemote hok
  cases event with
  | started name priority trackMeta =>
    have hstart : Capped cfg (s.withRemote hint track name trackMeta) := h.congr rfl rfl rfl
    simp only [EndpointInternal.onTransportRemoteTrack, RemoteTrackEvent.needCreate] at hok
    rw [IndexMap2d.get1_insert, if_pos rfl] at hok
    exact hstart.toRemote hok
  | paused | resumed | media media | ended => exact hreach rfl

theorem Capped.onTransportLocalTrack (h : Capped cfg s) {now : Instant} {hint : Nat}
    {track : LocalTrackId} {event : LocalTrackEvent}
    (hok : s.onTransportLocalTrack env now hint track event = .ok s') : Capped cfg s' := by
  have hreach : event.needCreate = none → Capped cfg s' := by
    intro hcreate
    simp only [EndpointInternal.onTransportLocalTrack, hcreate] at hok
    split at hok
    · cases hok
      exact h
    · exact h.toLocal hok
  cases event with
  | started kind =>
    have hnew : Capped cfg (withLocal env s hint track kind) := h.congr rfl rfl rfl
    have hstart : Capped cfg ((withLocal env s hint track kind).push
        [.peerEvent now (.localTrack (Int32.ofNat track.toNat) kind.proto)]) := by
      apply hnew.push
      intro out hmem
      obtain rfl := List.mem_singleton.mp hmem
      trivial
    simp only [EndpointInternal.onTransportLocalTrack, LocalTrackEvent.needCreate,
      EndpointInternal.push] at hok
    rw [IndexMap2d.get1_insert, if_pos rfl] at hok
    exact hstart.toLocal hok
  | requestKeyFrame | ended => exact hreach rfl

theorem Capped.forward (h : Capped cfg s) (reqId : EndpointReqId) (res : RpcResult → EndpointRes)
    (room : Option ClusterRoomHash) (err : EndpointErrors) (control : ClusterEndpointControl) :
    Capped cfg (s.forward reqId res room err control) := by
  cases room with
  | none =>
    apply h.push
    intro out hmem
    obtain rfl := List.mem_singleton.mp hmem
    trivial
  | some hash =>
    apply h.push
    intro out hmem
    simp only [List.mem_cons, List.not_mem_nil, or_false] at hmem
    rcases hmem with rfl | rfl
    · trivial
    · trivial

theorem Capped.onMessageChannelReq (h : Capped cfg s) (reqId : EndpointReqId)
    (label : MessageChannelLabel) (req : EndpointMessageChannelReq) :
    Capped cfg (s.onMessageChannelReq reqId label req) := by
  unfold EndpointInternal.onMessageChannelReq
  cases req with
  | publishData data =>
    cases s.joined with
    | none =>
      apply h.push
      intro out hmem
      obtain rfl := List.mem_singleton.mp hmem
      trivial
    | some joined =>
      apply h.push
      intro out hmem
      simp only [List.mem_cons, List.not_mem_nil, or_false] at hmem
      rcases hmem with rfl | rfl
      · trivial
      · trivial
  | subscribe | unsubscribe | startPublish | stopPublish => exact h.forward ..

theorem Capped.onTransportRpc (h : Capped cfg s) {now : Instant} {schedule : Schedule}
    {reqId : EndpointReqId} {req : EndpointReq}
    (hok : s.onTransportRpc env now schedule reqId req = .ok s') : Capped cfg s' := by
  have hleft : Capped cfg (s.push [.rpcRes reqId (.leaveRoom (.ok ()))]) := by
    apply h.push
    intro out hmem
    obtain rfl := List.mem_singleton.mp hmem
    trivial
  cases req with
  | joinRoom room peer peerMeta publish subscribe mixer =>
    simp only [EndpointInternal.onTransportRpc] at hok
    split at hok
    · cases hok
      exact h.withWait _
    · exact h.joinRoom hok
  | leaveRoom =>
    simp only [EndpointInternal.onTransportRpc] at hok
    split at hok
    · cases hok
      exact hleft.withWait none
    · exact hleft.leaveRoom hok
  | subscribePeer peer | unsubscribePeer peer =>
    cases hok
    exact h.forward ..
  | remoteTrack track req =>
    simp only [EndpointInternal.onTransportRpc] at hok
    split at hok
    · cases hok
      exact h
    · exact h.toRemote hok
  | localTrack track req =>
    simp only [EndpointInternal.onTransportRpc] at hok
    split at hok
    · cases hok
      exact h
    · exact h.toLocal hok
  | audioMixer req =>
    cases hok
    unfold onAudioMixerReq
    cases req with
    | attach | detach => exact h.forward ..
  | messageChannel label req =>
    cases hok
    exact h.onMessageChannelReq reqId label req

theorem Capped.onClusterEvent (h : Capped cfg s) {now : Instant} {event : ClusterEndpointEvent}
    (hok : s.onClusterEvent env now event = .ok s') : Capped cfg s' := by
  have hpush : ∀ event : EndpointEvent, (∀ current desired, event ≠ .bweConfig current desired) →
      Capped cfg (s.push [.event event]) := by
    intro event hplain
    apply h.push
    intro out hmem
    obtain rfl := List.mem_singleton.mp hmem
    cases event with
    | bweConfig current desired => exact absurd rfl (hplain current desired)
    | _ => trivial
  cases event with
  | remoteTrack track event =>
    simp only [EndpointInternal.onClusterEvent] at hok
    split at hok
    · cases hok
      exact h
    · exact h.toRemote hok
  | localTrack track event =>
    simp only [EndpointInternal.onClusterEvent] at hok
    split at hok
    · cases hok
      exact h
    · exact h.toLocal hok
  | audioMixer event =>
    cases event with
    | slotSet | slotUnset =>
      cases hok
      exact hpush _ (by simp)
  | peerJoined | peerLeaved | trackStarted | trackStopped | messageChannelData =>
    cases hok
    exact hpush _ (by simp)

/-! ### Runs -/

/-- The condition on a run: every tick finds a careful allocator. -/
def KeepsCap (cfg : EndpointCfg) : Contract (EndpointInternal Selector) Input InternalOutput :=
  fun _ s input => ∀ now, input = .tick now → s.bitrateAllocator.Careful cfg

instance (cfg : EndpointCfg) (history : History Input InternalOutput)
    (s : EndpointInternal Selector) (input : Input) : Decidable (KeepsCap cfg history s input) :=
  match input with
  | .tick now => decidable_of_iff (s.bitrateAllocator.Careful cfg)
      ⟨fun h _ _ => h, fun h => h now rfl⟩
  | .shutdown .. | .transport .. | .rpc .. | .cluster .. | .poll .. =>
      .isTrue fun _ heq => by cases heq

/-- **Every step that meets the condition keeps the limits.** -/
theorem Capped.step {history : History Input InternalOutput} {input : Input}
    (h : Capped cfg s) (hcareful : KeepsCap cfg history s input)
    (hok : s.step env input = .ok s') : Capped cfg s' := by
  cases input with
  | tick now =>
    obtain ⟨localTracks, -, rfl⟩ := onTick_eq_ok hok
    exact ⟨h.config, h.allocator.onTick (hcareful now rfl), h.queue⟩
  | shutdown now schedule => exact h.onShutdown hok
  | transport now schedule hint event =>
    cases event with
    | state state => exact h.onTransportStateChanged hok
    | remoteTrack track event => exact h.onTransportRemoteTrack hok
    | localTrack track event => exact h.onTransportLocalTrack hok
    | stats =>
      cases hok
      exact h
    | egressBitrateEstimate bitrate =>
      cases hok
      exact ⟨h.config, h.allocator.setEgressEstimate _, h.queue⟩
  | rpc now schedule reqId req => exact h.onTransportRpc hok
  | cluster now event => exact h.onClusterEvent hok
  | poll now schedule =>
    exact poll_invariant (Capped cfg) (fun _ _ _ hs hturn => hs.popTask hturn) h hok

end

/-- What the claim says of a run: every action for a track and every target for the transport,
    queued or handed out, is within the limits. -/
structure CapKept (cfg : EndpointCfg) (c : Config (EndpointInternal Selector) Input InternalOutput) :
    Prop where
  egress : ∀ out ∈ c.state.bitrateAllocator.egress.queue, out.Fits cfg
  ingress : ∀ grant ∈ c.state.bitrateAllocator.ingress.queue, grant.2.Fits cfg
  emitted : ∀ out ∈ emitted c.history, out.Fits cfg

/-- **The limits are kept** in every run that meets the condition. -/
theorem cap_kept (env : Env Selector) (cfg : EndpointCfg) {acts : List (Action Input)}
    {c : Config (EndpointInternal Selector) Input InternalOutput}
    (hadm : (machine env cfg).Admits (KeepsCap cfg) acts)
    (hrun : (machine env cfg).run acts = .ok c) : CapKept cfg c := by
  have hinv : Capped cfg c.state ∧ ∀ out ∈ emitted c.history, out.Fits cfg := by
    refine run_invariant (KeepsCap cfg)
      (fun history s => Capped cfg s ∧ ∀ out ∈ emitted history, out.Fits cfg)
      ⟨capped_new cfg, ?_⟩ ?_ ?_ hadm hrun
    · rintro out ⟨⟩
    · rintro history s input s' ⟨hs, hemitted⟩ hcareful hstep
      have hs' := hs.step hcareful hstep
      refine ⟨hs', fun out hmem => ?_⟩
      rw [emitted_concat] at hmem
      rcases List.mem_append.mp hmem with hold | hnew
      · exact hemitted out hold
      · apply hs'.queue
        have hqueue : s'.queue = s.queue ++ (machine env cfg).pushed s s' :=
          (machine env cfg).queue_eq_append_pushed hstep
        rw [hqueue]
        exact List.mem_append_right _ hnew
    · rintro history s ⟨hs, hemitted⟩
      exact ⟨⟨hs.config, hs.allocator, fun out hmem => hs.queue out (List.mem_of_mem_tail hmem)⟩,
        hemitted⟩
  exact ⟨hinv.1.allocator.egress, hinv.1.allocator.ingress, hinv.2⟩

/-- An endpoint that may receive twice as much as it may send. -/
def halfEgressCfg : EndpointCfg :=
  { rootCfg with maxEgressBitrate := 1000000, maxIngressBitrate := 2000000 }

/-- A client that publishes its camera and watches another one stays within the limits. -/
theorem cap_kept_publishAndWatch :
    ∃ c, (machine Env.passAll halfEgressCfg).run publishAndWatch = .ok c ∧ CapKept halfEgressCfg c ∧
      InternalOutput.event (.bweConfig 800000 960000) ∈ emitted c.history := by
  have hrun : ∃ c, (machine Env.passAll halfEgressCfg).run publishAndWatch = .ok c ∧
      InternalOutput.event (.bweConfig 800000 960000) ∈ emitted c.history :=
    ⟨_, rfl, by decide⟩
  obtain ⟨c, hc, hemitted⟩ := hrun
  have hadm : (machine Env.passAll halfEgressCfg).Admits (KeepsCap halfEgressCfg) publishAndWatch :=
    AdmitsFrom.admits (by decide +kernel)
  exact ⟨c, hc, cap_kept Env.passAll halfEgressCfg hadm hc, hemitted⟩

/-- A client that watches a camera over a link that is estimated at the limit. -/
def watchAtLimit : List (Action Input) :=
  connect ++ [Action.input (joinRequest "room")] ++ watch 5 ++ drain ++
    [Action.input (.transport 0 [] 0 (.egressBitrateEstimate 1000000)), .input (.tick 0)] ++ drain

/-- The transport is told to aim for a fifth more than the limit. -/
theorem not_cap_kept :
    ∃ c, (machine Env.passAll halfEgressCfg).run watchAtLimit = .ok c ∧
      c.state.bitrateAllocator.egress.tracks.keys = [5] ∧
      InternalOutput.event (.bweConfig 1000000 1200000) ∈ emitted c.history ∧
      ¬ CapKept halfEgressCfg c := by
  have hrun : ∃ c, (machine Env.passAll halfEgressCfg).run watchAtLimit = .ok c ∧
      c.state.bitrateAllocator.egress.tracks.keys = [5] ∧
      InternalOutput.event (.bweConfig 1000000 1200000) ∈ emitted c.history :=
    ⟨_, rfl, rfl, by decide⟩
  obtain ⟨c, hc, hkeys, hemitted⟩ := hrun
  refine ⟨c, hc, hkeys, hemitted, fun hkept => ?_⟩
  rcases hkept.emitted _ hemitted with ⟨hcurrent, -⟩ | hdesired
  · exact absurd hcurrent (by decide)
  · exact absurd hdesired (by decide)

end EndpointInternal

end MediaServer.Endpoint
