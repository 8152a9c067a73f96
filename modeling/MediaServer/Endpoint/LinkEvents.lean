import MediaServer.Endpoint.LinkState

/-!
# The events of a link

What an endpoint reports of its link.  The tracks report peer events as well, but none about the
link, so the link events of a run are those of the states that the transport told.
-/

namespace MediaServer

/-- The event is about the link of its peer. -/
def PeerEvent.isLink : PeerEvent → Bool
  | .connecting _ | .connectError .. | .connected .. | .reconnect _ | .reconnected .. |
    .disconnected .. => true
  | _ => false

namespace Endpoint

open Collections Runtime Machine

variable {Selector : Type}

/-! ### Queues that grow by outputs of a kind -/

/-- The queue grew by outputs with a property. -/
def GrowsBy {Out : Type} (p : Out → Prop) (queue queue' : List Out) : Prop :=
  ∃ outs, queue' = queue ++ outs ∧ ∀ out ∈ outs, p out

namespace GrowsBy

variable {Out : Type} {p : Out → Prop} {queue queue' queue'' : List Out}

theorem refl (queue : List Out) : GrowsBy p queue queue := by
  refine ⟨[], ?_, fun _ hmem => (nomatch hmem)⟩
  rw [List.append_nil]

theorem append (queue : List Out) {outs : List Out} (h : ∀ out ∈ outs, p out) :
    GrowsBy p queue (queue ++ outs) := ⟨outs, rfl, h⟩

theorem trans (h : GrowsBy p queue queue') (h' : GrowsBy p queue' queue'') :
    GrowsBy p queue queue'' := by
  obtain ⟨outs, rfl, houts⟩ := h
  obtain ⟨outs', rfl, houts'⟩ := h'
  refine ⟨outs ++ outs', List.append_assoc .., fun out hmem => ?_⟩
  rcases List.mem_append.mp hmem with hfirst | hsecond
  · exact houts out hfirst
  · exact houts' out hsecond

theorem forall_mem (h : GrowsBy p queue queue') (hall : ∀ out ∈ queue, p out) :
    ∀ out ∈ queue', p out := by
  obtain ⟨outs, rfl, houts⟩ := h
  intro out hmem
  rcases List.mem_append.mp hmem with hold | hnew
  · exact hall out hold
  · exact houts out hnew

end GrowsBy

/-! ### Remote tracks -/

namespace EndpointRemoteTrack

open RemoteTrack

/-- The output is not about a link. -/
def Linkless : Output → Prop
  | .peerEvent _ event => event.isLink = false
  | _ => True

theorem linkless_recorded (t : EndpointRemoteTrack) (now : Instant) (event : SessionRecordEvent) :
    ∀ out ∈ t.recorded now event, Linkless out := by
  unfold recorded
  split
  · exact List.forall_mem_singleton.mpr trivial
  · simp

theorem linkless_limitOutputs (t : EndpointRemoteTrack) :
    ∀ out ∈ t.limitOutputs, Linkless out := by
  unfold limitOutputs
  split
  · exact List.forall_mem_singleton.mpr trivial
  · simp

theorem linkless_joinOutputs (t : EndpointRemoteTrack) (now : Instant) (room : ClusterRoomHash) :
    ∀ out ∈ t.joinOutputs now room, Linkless out := by
  simp only [joinOutputs, List.forall_mem_append, List.forall_mem_singleton]
  exact ⟨⟨trivial, t.linkless_recorded now _⟩, rfl⟩

theorem linkless_endOutputs (t : EndpointRemoteTrack) (now : Instant) (room : ClusterRoomHash) :
    ∀ out ∈ t.endOutputs now room, Linkless out := by
  simp only [endOutputs, List.forall_mem_append]
  exact ⟨⟨List.forall_mem_singleton.mpr trivial, t.linkless_recorded now _⟩,
    List.forall_mem_singleton.mpr rfl⟩

theorem grows_onLeaveRoom {t t' : EndpointRemoteTrack} {now : Instant}
    (h : t.onLeaveRoom now = .ok t') : GrowsBy Linkless t.queue t'.queue := by
  unfold onLeaveRoom at h
  split at h
  · exact nomatch h
  · rw [← Except.ok.inj h]
    exact .append _ (t.linkless_endOutputs now _)

theorem queue_restoreLayers (t : EndpointRemoteTrack) (media : MediaPacket) :
    (t.restoreLayers media).1.queue = t.queue := by
  dsimp only [restoreLayers]
  split
  · rfl
  · rfl

theorem grows_onTransportEvent (t : EndpointRemoteTrack) (now : Instant)
    (event : RemoteTrackEvent) :
    GrowsBy Linkless t.queue (t.onTransportEvent now event).queue := by
  cases event with
  | started name priority trackMeta =>
    dsimp only [onTransportEvent]
    split
    · exact .refl _
    · apply GrowsBy.append
      simp only [List.forall_mem_append]
      exact ⟨⟨by simp [Linkless], t.linkless_recorded now _⟩, List.forall_mem_singleton.mpr rfl⟩
  | paused => exact .refl _
  | resumed => exact .refl _
  | media media =>
    have hrecorded : GrowsBy Linkless t.queue ((t.restoreLayers media).1.queue ++
        (t.restoreLayers media).1.recorded now
          (.trackMedia (t.restoreLayers media).1.id (t.restoreLayers media).2)) := by
      rw [queue_restoreLayers]
      exact .append _ ((t.restoreLayers media).1.linkless_recorded now _)
    dsimp only [onTransportEvent]
    split
    · exact hrecorded
    · exact hrecorded.trans (.append _ (List.forall_mem_singleton.mpr trivial))
  | ended =>
    dsimp only [onTransportEvent]
    split
    · exact .refl _
    · exact .append _ (t.linkless_endOutputs now _)

theorem grows_onEvent {t t' : EndpointRemoteTrack} {now : Instant} {input : Input}
    (h : onEvent now input t = .ok t') : GrowsBy Linkless t.queue t'.queue := by
  cases input with
  | joinRoom room =>
    change t.onJoinRoom now room = .ok t' at h
    unfold onJoinRoom at h
    split at h
    · exact nomatch h
    · rw [← Except.ok.inj h]
      exact .append _ (t.linkless_joinOutputs now room)
  | leaveRoom => exact grows_onLeaveRoom h
  | cluster event =>
    rw [← Except.ok.inj h]
    cases event with
    | requestKeyFrame => exact .append _ (List.forall_mem_singleton.mpr trivial)
    | limitBitrate lo hi =>
      dsimp only [onClusterEvent]
      split
      · exact .append _ (linkless_limitOutputs _)
      · exact .refl _
  | event event =>
    rw [← Except.ok.inj h]
    exact t.grows_onTransportEvent now event
  | rpcReq reqId req =>
    rw [← Except.ok.inj h]
    obtain ⟨config⟩ := req
    dsimp only [onRpcReq]
    split
    · exact .append _ (List.forall_mem_singleton.mpr trivial)
    · exact .append _ (by simp [Linkless])
  | bitrateAllocation action =>
    rw [← Except.ok.inj h]
    obtain ⟨bitrate⟩ := action
    exact .append _ (linkless_limitOutputs _)

theorem grows_onShutdown {t t' : EndpointRemoteTrack} {now : Instant}
    (h : t.onShutdown now = .ok t') : GrowsBy Linkless t.queue t'.queue := by
  unfold onShutdown at h
  split at h
  · rw [← Except.ok.inj h]
    exact .refl _
  · dsimp only at h
    split at h
    · have hleft := grows_onLeaveRoom h
      exact hleft
    · rw [← Except.ok.inj h]
      exact .refl _

end EndpointRemoteTrack

/-! ### Local tracks -/

namespace EndpointLocalTrack

open LocalTrack

/-- The output is not about a link. -/
def Linkless : Output → Prop
  | .peerEvent _ event => event.isLink = false
  | _ => True

theorem linkless_leaveOutputs (t : EndpointLocalTrack Selector) (now : Instant)
    (room : ClusterRoomHash) : ∀ out ∈ t.leaveOutputs now room, Linkless out := by
  unfold leaveOutputs
  split
  · simp
  · simp [Linkless, PeerEvent.isLink]

theorem grows_onLeaveRoom {t t' : EndpointLocalTrack Selector} {now : Instant}
    (h : t.onLeaveRoom now = .ok t') : GrowsBy Linkless t.queue t'.queue := by
  unfold onLeaveRoom at h
  split at h
  · exact nomatch h
  · rw [← Except.ok.inj h]
    exact .append _ (t.linkless_leaveOutputs now _)

theorem grows_onTransportEvent (t : EndpointLocalTrack Selector) (event : LocalTrackEvent) :
    GrowsBy Linkless t.queue (t.onTransportEvent event).queue := by
  cases event with
  | started kind => exact .refl _
  | requestKeyFrame =>
    dsimp only [onTransportEvent]
    split
    · exact .refl _
    · exact .append _ (List.forall_mem_singleton.mpr trivial)
  | ended => exact .refl _

section

variable (api : SelectorApi Selector) (timestampMs : Instant → Nat)

theorem grows_popSelector (t : EndpointLocalTrack Selector) (nowMs : Nat) :
    GrowsBy Linkless t.queue (t.popSelector api nowMs).queue := by
  unfold popSelector
  split
  · exact .refl _
  · apply GrowsBy.append
    intro out hmem
    rw [List.eq_of_mem_replicate hmem]
    trivial

theorem grows_activate (t : EndpointLocalTrack Selector) (nowMs : Nat) :
    GrowsBy Linkless t.queue (t.activate nowMs).queue := by
  unfold activate
  split
  · exact .refl _
  · exact .refl _
  · exact .append _ (List.forall_mem_singleton.mpr trivial)

theorem grows_detectVoice (t : EndpointLocalTrack Selector) (nowMs : Nat) (pkt : MediaPacket) :
    GrowsBy Linkless t.queue (t.detectVoice nowMs pkt).queue := by
  unfold detectVoice
  split
  · dsimp only
    split
    · exact .append _ (List.forall_mem_singleton.mpr trivial)
    · exact .refl _
  · exact .refl _

theorem grows_onClusterEvent (t : EndpointLocalTrack Selector) (now : Instant)
    (event : ClusterLocalTrackEvent) :
    GrowsBy Linkless t.queue (t.onClusterEvent api timestampMs now event).queue := by
  cases event with
  | relayChanged =>
    dsimp only [onClusterEvent]
    split
    · split
      · exact .refl _
      · exact .append _ (List.forall_mem_singleton.mpr trivial)
    · exact .refl _
  | sourceChanged => exact .refl _
  | media channel pkt =>
    dsimp only [onClusterEvent]
    split
    · exact .refl _
    · refine GrowsBy.trans ?_ (.append _ (List.forall_mem_singleton.mpr trivial))
      refine GrowsBy.trans ?_ (grows_detectVoice _ _ _)
      refine GrowsBy.trans ?_ (grows_activate _ _)
      have hpopped := grows_popSelector api
        { t with selector := (api.select t.selector (timestampMs now) channel pkt).2 }
        (timestampMs now)
      exact hpopped

theorem grows_unbindCurrent (t : EndpointLocalTrack Selector) (room : ClusterRoomHash) :
    GrowsBy Linkless t.queue (t.unbindCurrent room).queue := by
  unfold unbindCurrent
  split
  · exact .refl _
  · exact .append _ (by simp [Linkless])

theorem grows_attach (t : EndpointLocalTrack Selector) (now : Instant) (reqId : EndpointReqId)
    (room : ClusterRoomHash) (source : TrackSource) (config : EndpointLocalTrackConfig) :
    GrowsBy Linkless t.queue (t.attach api timestampMs now reqId room source config).queue := by
  have hanswered : GrowsBy Linkless t.queue (t.push [.rpcRes reqId (.attach (.ok ()))]).queue :=
    .append _ (List.forall_mem_singleton.mpr trivial)
  have hunbound := hanswered.trans (grows_unbindCurrent _ room)
  exact hunbound.trans (.append _ (by simp [Linkless, PeerEvent.isLink]))

theorem grows_onRpcReq (t : EndpointLocalTrack Selector) (now : Instant) (reqId : EndpointReqId)
    (req : EndpointLocalTrackReq) :
    GrowsBy Linkless t.queue (t.onRpcReq api timestampMs now reqId req).queue := by
  cases req with
  | attach source config =>
    dsimp only [onRpcReq]
    split
    · exact .append _ (List.forall_mem_singleton.mpr trivial)
    · split
      · exact grows_attach api timestampMs ..
      · exact .append _ (List.forall_mem_singleton.mpr trivial)
  | detach =>
    dsimp only [onRpcReq]
    split
    · exact .append _ (by simp [Linkless, PeerEvent.isLink])
    · exact .append _ (List.forall_mem_singleton.mpr trivial)
    · exact .append _ (List.forall_mem_singleton.mpr trivial)
  | config config => exact .append _ (by simp [Linkless])

theorem grows_onBitrateAllocationAction (t : EndpointLocalTrack Selector) (now : Instant)
    (action : EgressAction) :
    GrowsBy Linkless t.queue (t.onBitrateAllocationAction api timestampMs now action).queue := by
  obtain ⟨bitrate⟩ := action
  have hpopped := grows_popSelector api
    { t with selector := api.setTargetBitrate t.selector (timestampMs now) bitrate }
    (timestampMs now)
  dsimp only [onBitrateAllocationAction]
  split
  · exact hpopped
  · exact hpopped.trans (.append _ (List.forall_mem_singleton.mpr trivial))

theorem grows_onTick (t : EndpointLocalTrack Selector) (now : Instant) :
    GrowsBy Linkless t.queue (onTick api timestampMs now t).queue := by
  have hpopped := grows_popSelector api
    { t with selector := api.onTick t.selector (timestampMs now) } (timestampMs now)
  dsimp only [onTick]
  split
  · split
    · exact hpopped.trans (.append _ (List.forall_mem_singleton.mpr trivial))
    · exact hpopped
  · exact hpopped

theorem grows_onEvent {t t' : EndpointLocalTrack Selector} {now : Instant} {input : Input}
    (h : onEvent api timestampMs now input t = .ok t') : GrowsBy Linkless t.queue t'.queue := by
  cases input with
  | joinRoom room =>
    change t.onJoinRoom room = .ok t' at h
    unfold onJoinRoom at h
    split at h
    · rw [← Except.ok.inj h]
      exact .refl _
    · exact nomatch h
  | leaveRoom => exact grows_onLeaveRoom h
  | cluster event =>
    rw [← Except.ok.inj h]
    exact grows_onClusterEvent api timestampMs t now event
  | event event =>
    rw [← Except.ok.inj h]
    exact t.grows_onTransportEvent event
  | rpcReq reqId req =>
    rw [← Except.ok.inj h]
    exact grows_onRpcReq api timestampMs t now reqId req
  | bitrateAllocation action =>
    rw [← Except.ok.inj h]
    exact grows_onBitrateAllocationAction api timestampMs t now action

end

theorem grows_onShutdown {t t' : EndpointLocalTrack Selector} {now : Instant}
    (h : t.onShutdown now = .ok t') : GrowsBy Linkless t.queue t'.queue := by
  unfold onShutdown at h
  split at h
  · rw [← Except.ok.inj h]
    exact .refl _
  · dsimp only at h
    split at h
    · have hleft := grows_onLeaveRoom h
      exact hleft
    · rw [← Except.ok.inj h]
      exact .refl _

end EndpointLocalTrack

/-! ### Endpoints -/

namespace EndpointInternal

/-- The link events among an endpoint's outputs. -/
def linksOf (outs : List InternalOutput) : List (Instant × PeerEvent) :=
  outs.filterMap fun
    | .peerEvent ts event => if event.isLink then some (ts, event) else none
    | _ => none

theorem linksOf_append (first second : List InternalOutput) :
    linksOf (first ++ second) = linksOf first ++ linksOf second :=
  List.filterMap_append

/-- What waits in the endpoint's queue are these link events, and none of its tracks reports any. -/
structure Queued (links : List (Instant × PeerEvent)) (s : EndpointInternal Selector) : Prop where
  links : linksOf s.queue = links
  remote : ∀ index t, s.remoteTracks.get index = some t →
    ∀ out ∈ t.queue, EndpointRemoteTrack.Linkless out
  locals : ∀ index t, s.localTracks.get index = some t →
    ∀ out ∈ t.queue, EndpointLocalTrack.Linkless out

variable {links : List (Instant × PeerEvent)} {s s' : EndpointInternal Selector}

theorem queued_new (cfg : EndpointCfg) : Queued [] (.new cfg : EndpointInternal Selector) :=
  ⟨rfl, fun _ _ h => (nomatch h), fun _ _ h => (nomatch h)⟩

theorem Queued.congr (h : Queued links s) (hqueue : s'.queue = s.queue)
    (hremote : s'.remoteTracks = s.remoteTracks) (hlocal : s'.localTracks = s.localTracks) :
    Queued links s' := by
  refine ⟨?_, ?_, ?_⟩
  · rw [hqueue]
    exact h.links
  · rw [hremote]
    exact h.remote
  · rw [hlocal]
    exact h.locals

theorem Queued.report (h : Queued links s) {outs : List InternalOutput}
    {said : List (Instant × PeerEvent)} (houts : linksOf outs = said) :
    Queued (links ++ said) (s.push outs) := by
  refine ⟨?_, h.remote, h.locals⟩
  rw [push, linksOf_append, h.links, houts]

theorem Queued.push (h : Queued links s) {outs : List InternalOutput}
    (houts : linksOf outs = []) : Queued links (s.push outs) := by
  have hreport := h.report houts
  rwa [List.append_nil] at hreport

theorem linksOf_recorded (s : EndpointInternal Selector) (now : Instant)
    (event : SessionRecordEvent) : linksOf (s.recorded now event) = [] := by
  unfold recorded
  split
  · rfl
  · rfl

theorem linksOf_leaveOutputs (s : EndpointInternal Selector) (now : Instant) (joined : Joined) :
    linksOf (s.leaveOutputs now joined) = [] := by
  rw [leaveOutputs, linksOf_append, linksOf_append, linksOf_recorded]
  rfl

theorem linksOf_joinOutputs (s : EndpointInternal Selector) (now : Instant)
    (hash : ClusterRoomHash) (req : WaitJoin) : linksOf (s.joinOutputs now hash req) = [] := by
  rw [joinOutputs, linksOf_append, linksOf_append, linksOf_recorded]
  rfl

theorem linksOf_passedRemote (id : RemoteTrackId) {out : RemoteTrack.Output}
    (h : EndpointRemoteTrack.Linkless out) : linksOf (passedRemote id out) = [] := by
  cases out with
  | peerEvent ts event =>
    apply List.filterMap_eq_nil_iff.mpr
    intro out hmem
    rw [List.mem_singleton.mp hmem]
    exact if_neg (ne_true_of_eq_false h)
  | _ => rfl

theorem linksOf_passedLocal (id : LocalTrackId) {out : LocalTrack.Output}
    (h : EndpointLocalTrack.Linkless out) : linksOf (passedLocal id out) = [] := by
  cases out with
  | peerEvent ts event =>
    apply List.filterMap_eq_nil_iff.mpr
    intro out hmem
    rw [List.mem_singleton.mp hmem]
    exact if_neg (ne_true_of_eq_false h)
  | _ => rfl

/-! ### Tracks that react -/

theorem Queued.withRemotes (h : Queued links s) {group : TaskGroup EndpointRemoteTrack}
    (hgroup : ∀ index t, group.get index = some t →
      ∀ out ∈ t.queue, EndpointRemoteTrack.Linkless out) :
    Queued links { s with remoteTracks := group } :=
  ⟨h.links, hgroup, h.locals⟩

theorem Queued.withLocals (h : Queued links s) {group : TaskGroup (EndpointLocalTrack Selector)}
    (hgroup : ∀ index t, group.get index = some t →
      ∀ out ∈ t.queue, EndpointLocalTrack.Linkless out) :
    Queued links { s with localTracks := group } :=
  ⟨h.links, h.remote, hgroup⟩

/-- A task in place of another that reports no link event either. -/
theorem forall_get_set {T : Type} {p : T → Prop} {group : TaskGroup T} {index : Nat} {t : T}
    (h : ∀ j u, group.get j = some u → p u) (ht : p t) :
    ∀ j u, (group.set index t).get j = some u → p u := by
  intro j u hget
  rcases TaskGroup.get_set_eq_some hget with ⟨-, rfl⟩ | ⟨-, hold⟩
  · exact ht
  · exact h j u hold

theorem Queued.toRemote (h : Queued links s) {now : Instant} {index : Nat}
    {told : RemoteTrack.Input} (hok : s.toRemote now index told = .ok s') : Queued links s' := by
  obtain ⟨group, hgroup, rfl⟩ := toRemote_eq_ok hok
  apply h.withRemotes
  rcases TaskGroup.onEvent_eq_ok hgroup with ⟨-, rfl⟩ | ⟨t, t', hget, ht', rfl⟩
  · exact h.remote
  · have hgrows := EndpointRemoteTrack.grows_onEvent ht'
    exact forall_get_set h.remote (hgrows.forall_mem (h.remote index t hget))

section

variable {env : Env Selector}

theorem Queued.toLocal (h : Queued links s) {now : Instant} {index : Nat}
    {told : LocalTrack.Input} (hok : s.toLocal env now index told = .ok s') : Queued links s' := by
  obtain ⟨group, hgroup, rfl⟩ := toLocal_eq_ok hok
  apply h.withLocals
  rcases TaskGroup.onEvent_eq_ok hgroup with ⟨-, rfl⟩ | ⟨t, t', hget, ht', rfl⟩
  · exact h.locals
  · have hgrows := EndpointLocalTrack.grows_onEvent env.selector env.timestampMs ht'
    exact forall_get_set h.locals (hgrows.forall_mem (h.locals index t hget))

theorem Queued.popTask (h : Queued links s) {now : Instant} {pick : Pick}
    (hok : s.popTask env now pick = .ok s') : Queued links s' := by
  cases pick with
  | bitrateAllocator =>
    rcases popBitrateAllocator_eq_ok hok with ⟨-, rfl⟩ | ⟨out, allocator, -, hcase⟩
    · exact h
    · have hallocator : Queued links { s with bitrateAllocator := allocator } :=
        h.congr rfl rfl rfl
      rcases hcase with rfl | ⟨event, rfl⟩ | ⟨index, action, hto⟩ | ⟨index, action, hto⟩
      · exact hallocator
      · exact hallocator.push rfl
      · exact hallocator.toRemote hto
      · exact hallocator.toLocal hto
  | localTracks index =>
    rcases popLocalTracks_eq_ok hok with ⟨-, rfl⟩ | ⟨t, id, hget, -, hcase⟩
    · exact h
    · have hqueue := h.locals index t hget
      rcases hcase with ⟨out, rest, hcons, -, rfl⟩ | ⟨group, -, hgroup, rfl⟩
      · rw [hcons] at hqueue
        have hpassed := h.push (linksOf_passedLocal id (hqueue out List.mem_cons_self))
        refine ⟨hpassed.links, h.remote, forall_get_set h.locals fun out' hmem => ?_⟩
        exact hqueue out' (List.mem_cons_of_mem _ hmem)
      · refine ⟨h.links, h.remote, fun j u hu => ?_⟩
        rw [hgroup] at hu
        split at hu
        · exact nomatch hu
        · exact h.locals j u hu
  | remoteTracks index =>
    rcases popRemoteTracks_eq_ok hok with ⟨-, rfl⟩ | ⟨t, id, hget, -, hcase⟩
    · exact h
    · have hqueue := h.remote index t hget
      rcases hcase with ⟨out, rest, hcons, -, rfl⟩ | ⟨kind, group, -, hgroup, rfl⟩
      · rw [hcons] at hqueue
        have hpassed := h.push (linksOf_passedRemote id (hqueue out List.mem_cons_self))
        refine ⟨hpassed.links, forall_get_set h.remote fun out' hmem => ?_, h.locals⟩
        exact hqueue out' (List.mem_cons_of_mem _ hmem)
      · refine ⟨h.links, fun j u hu => ?_, h.locals⟩
        rw [hgroup] at hu
        split at hu
        · exact nomatch hu
        · exact h.remote j u hu

theorem Queued.popAll (h : Queued links s) {now : Instant} {schedule : Schedule}
    (hok : popAll env now schedule s = .ok s') : Queued links s' :=
  popAll_invariant (Queued links) (fun _ _ _ hs hturn => hs.popTask hturn) h hok

theorem Queued.broadcast (h : Queued links s) {now : Instant} {toLocals : LocalTrack.Input}
    {toRemotes : RemoteTrack.Input} (hok : s.broadcast env now toLocals toRemotes = .ok s') :
    Queued links s' := by
  obtain ⟨localTracks, remoteTracks, hlocals, hremotes, rfl⟩ := broadcast_eq_ok hok
  refine ⟨h.links, ?_, ?_⟩
  · refine TaskGroup.onEvents_invariant (fun group => ∀ index t, group.get index = some t →
      ∀ out ∈ t.queue, EndpointRemoteTrack.Linkless out) ?_ h.remote hremotes
    intro group index t t' hgroup hget ht'
    have hgrows := EndpointRemoteTrack.grows_onEvent ht'
    exact forall_get_set hgroup (hgrows.forall_mem (hgroup index t hget))
  · refine TaskGroup.onEvents_invariant (fun group => ∀ index t, group.get index = some t →
      ∀ out ∈ t.queue, EndpointLocalTrack.Linkless out) ?_ h.locals hlocals
    intro group index t t' hgroup hget ht'
    have hgrows := EndpointLocalTrack.grows_onEvent env.selector env.timestampMs ht'
    exact forall_get_set hgroup (hgrows.forall_mem (hgroup index t hget))

/-! ### Inputs -/

theorem Queued.leaveRoom (h : Queued links s) {now : Instant} {schedule : Schedule}
    (hok : s.leaveRoom env now schedule = .ok s') : Queued links s' := by
  rcases leaveRoom_eq_ok hok with ⟨-, rfl⟩ | ⟨joined, s₁, s₂, -, hs₁, hs₂, rfl⟩
  · exact h
  · have hout : Queued links { s with joined := none } := h.congr rfl rfl rfl
    exact ((hout.broadcast hs₁).popAll hs₂).push (linksOf_leaveOutputs s₂ now joined)

theorem Queued.joinRoom (h : Queued links s) {now : Instant} {schedule : Schedule}
    {req : WaitJoin} (hok : s.joinRoom env now schedule req = .ok s') : Queued links s' := by
  obtain ⟨s₁, hs₁, hs'⟩ := joinRoom_eq_ok hok
  have hleft : Queued links s₁ := (h.push rfl).leaveRoom hs₁
  have hjoined : Queued links { s₁ with joined := some (joinedBy env s req) } :=
    hleft.congr rfl rfl rfl
  exact (hjoined.push (linksOf_joinOutputs s₁ now _ req)).broadcast hs'

theorem Queued.onShutdown (h : Queued links s) {now : Instant} {schedule : Schedule}
    (hok : s.onShutdown env now schedule = .ok s') : Queued links s' := by
  rcases onShutdown_eq_ok hok with
    ⟨-, rfl⟩ | ⟨-, localTracks, remoteTracks, s₁, hlocals, hremotes, hs₁, hcase⟩
  · exact h
  · have hdown : Queued links { s with shutdown := true, localTracks := localTracks,
                                       remoteTracks := remoteTracks } := by
      refine ⟨h.links, fun index t' hget => ?_, fun index t' hget => ?_⟩
      · obtain ⟨t, ht, ht'⟩ := (TaskGroup.onAll_image hremotes).exists_before hget
        exact (EndpointRemoteTrack.grows_onShutdown ht').forall_mem (h.remote index t ht)
      · obtain ⟨t, ht, ht'⟩ := (TaskGroup.onAll_image hlocals).exists_before hget
        exact (EndpointLocalTrack.grows_onShutdown ht').forall_mem (h.locals index t ht)
    have hempty := hdown.popAll hs₁
    rcases hcase with ⟨-, rfl⟩ | ⟨joined, -, rfl⟩
    · exact hempty
    · have hout : Queued links { s₁ with joined := none } := hempty.congr rfl rfl rfl
      exact hout.push (linksOf_leaveOutputs s₁ now joined)

theorem Queued.onTick (h : Queued links s) {now : Instant} (hok : s.onTick env now = .ok s') :
    Queued links s' := by
  obtain ⟨localTracks, hlocals, rfl⟩ := onTick_eq_ok hok
  refine ⟨h.links, h.remote, fun index t' hget => ?_⟩
  obtain ⟨t, ht, ht'⟩ := (TaskGroup.onAll_image hlocals).exists_before hget
  rw [← Except.ok.inj ht']
  have hgrows := EndpointLocalTrack.grows_onTick env.selector env.timestampMs t now
  exact hgrows.forall_mem (h.locals index t ht)

theorem Queued.onTransportRemoteTrack (h : Queued links s) {now : Instant} {hint : Nat}
    {track : RemoteTrackId} {event : RemoteTrackEvent}
    (hok : s.onTransportRemoteTrack now hint track event = .ok s') : Queued links s' := by
  have hreach : event.needCreate = none → Queued links s' := by
    intro hcreate
    simp only [EndpointInternal.onTransportRemoteTrack, hcreate] at hok
    split at hok
    · rw [← Except.ok.inj hok]
      exact h
    · exact h.toRemote hok
  cases event with
  | started name priority trackMeta =>
    have hstart : Queued links (s.withRemote hint track name trackMeta) := by
      refine ⟨h.links, fun index t hget => ?_, h.locals⟩
      rw [withRemote, TaskGroup.get_addTask] at hget
      split at hget
      · rw [← Option.some.inj hget]
        exact fun _ hmem => absurd hmem List.not_mem_nil
      · exact h.remote index t hget
    simp only [EndpointInternal.onTransportRemoteTrack, RemoteTrackEvent.needCreate] at hok
    rw [IndexMap2d.get1_insert, if_pos rfl] at hok
    exact hstart.toRemote hok
  | paused | resumed | media media | ended => exact hreach rfl

theorem Queued.onTransportLocalTrack (h : Queued links s) {now : Instant} {hint : Nat}
    {track : LocalTrackId} {event : LocalTrackEvent}
    (hok : s.onTransportLocalTrack env now hint track event = .ok s') : Queued links s' := by
  have hreach : event.needCreate = none → Queued links s' := by
    intro hcreate
    simp only [EndpointInternal.onTransportLocalTrack, hcreate] at hok
    split at hok
    · rw [← Except.ok.inj hok]
      exact h
    · exact h.toLocal hok
  cases event with
  | started kind =>
    have hnew : Queued links (withLocal env s hint track kind) := by
      refine ⟨h.links, h.remote, fun index t hget => ?_⟩
      rw [withLocal, TaskGroup.get_addTask] at hget
      split at hget
      · rw [← Option.some.inj hget]
        exact fun _ hmem => absurd hmem List.not_mem_nil
      · exact h.locals index t hget
    have hstart : Queued links ((withLocal env s hint track kind).push
        [.peerEvent now (.localTrack (Int32.ofNat track.toNat) kind.proto)]) := hnew.push rfl
    simp only [EndpointInternal.onTransportLocalTrack, LocalTrackEvent.needCreate,
      EndpointInternal.push] at hok
    rw [IndexMap2d.get1_insert, if_pos rfl] at hok
    exact hstart.toLocal hok
  | requestKeyFrame | ended => exact hreach rfl

theorem Queued.forward (h : Queued links s) (reqId : EndpointReqId) (res : RpcResult → EndpointRes)
    (room : Option ClusterRoomHash) (err : EndpointErrors) (control : ClusterEndpointControl) :
    Queued links (s.forward reqId res room err control) := by
  cases room with
  | none => exact h.push rfl
  | some hash => exact h.push rfl

theorem Queued.onMessageChannelReq (h : Queued links s) (reqId : EndpointReqId)
    (label : MessageChannelLabel) (req : EndpointMessageChannelReq) :
    Queued links (s.onMessageChannelReq reqId label req) := by
  unfold EndpointInternal.onMessageChannelReq
  cases req with
  | publishData data =>
    dsimp only
    split
    · exact h.push rfl
    · exact h.push rfl
  | subscribe | unsubscribe | startPublish | stopPublish => exact h.forward ..

theorem Queued.onTransportRpc (h : Queued links s) {now : Instant} {schedule : Schedule}
    {reqId : EndpointReqId} {req : EndpointReq}
    (hok : s.onTransportRpc env now schedule reqId req = .ok s') : Queued links s' := by
  have hanswered : Queued links (s.push [.rpcRes reqId (.leaveRoom (.ok ()))]) := h.push rfl
  cases req with
  | joinRoom room peer peerMeta publish subscribe mixer =>
    simp only [EndpointInternal.onTransportRpc] at hok
    split at hok
    · rw [← Except.ok.inj hok]
      exact h.congr rfl rfl rfl
    · exact h.joinRoom hok
  | leaveRoom =>
    simp only [EndpointInternal.onTransportRpc] at hok
    split at hok
    · rw [← Except.ok.inj hok]
      exact hanswered.congr rfl rfl rfl
    · exact hanswered.leaveRoom hok
  | subscribePeer peer | unsubscribePeer peer =>
    rw [← Except.ok.inj hok]
    exact h.forward ..
  | remoteTrack track req =>
    simp only [EndpointInternal.onTransportRpc] at hok
    split at hok
    · rw [← Except.ok.inj hok]
      exact h
    · exact h.toRemote hok
  | localTrack track req =>
    simp only [EndpointInternal.onTransportRpc] at hok
    split at hok
    · rw [← Except.ok.inj hok]
      exact h
    · exact h.toLocal hok
  | audioMixer req =>
    rw [← Except.ok.inj hok]
    unfold onAudioMixerReq
    cases req with
    | attach | detach => exact h.forward ..
  | messageChannel label req =>
    rw [← Except.ok.inj hok]
    exact h.onMessageChannelReq reqId label req

theorem Queued.onClusterEvent (h : Queued links s) {now : Instant} {event : ClusterEndpointEvent}
    (hok : s.onClusterEvent env now event = .ok s') : Queued links s' := by
  cases event with
  | remoteTrack track event =>
    simp only [EndpointInternal.onClusterEvent] at hok
    split at hok
    · rw [← Except.ok.inj hok]
      exact h
    · exact h.toRemote hok
  | localTrack track event =>
    simp only [EndpointInternal.onClusterEvent] at hok
    split at hok
    · rw [← Except.ok.inj hok]
      exact h
    · exact h.toLocal hok
  | audioMixer event =>
    cases event with
    | slotSet | slotUnset =>
      rw [← Except.ok.inj hok]
      exact h.push rfl
  | peerJoined | peerLeaved | trackStarted | trackStopped | messageChannelData =>
    rw [← Except.ok.inj hok]
    exact h.push rfl

/-! ### States -/

/-- How a state is reported, `ms` being the milliseconds from one time to another. -/
def reports (ms : Instant → Instant → UInt32) (pre : Option (Instant × TransportState))
    (now : Instant) : TransportState → List (Instant × PeerEvent)
  | .new => []
  | .connecting ip => [(now, .connecting ip)]
  | .connectError _ =>
      match pre with
      | none => []
      | some (preTs, _) => [(now, .connectError (ms preTs now) 0)]
  | .connected ip =>
      match pre with
      | none => []
      | some (preTs, .reconnecting _) => [(now, .reconnected (ms preTs now) ip)]
      | some (preTs, _) => [(now, .connected (ms preTs now) ip)]
  | .reconnecting ip => [(now, .reconnect ip)]
  | .disconnected _ => [(now, .disconnected 0 0)]

theorem Queued.onTransportStateChanged (h : Queued links s) {now : Instant} {schedule : Schedule}
    {state : TransportState} (hok : s.onTransportStateChanged env now schedule state = .ok s') :
    Queued (links ++ reports afterMs s.state now state) s' := by
  have hstate : Queued links { s with state := some (now, state) } := h.congr rfl rfl rfl
  cases state with
  | new =>
    rw [← Except.ok.inj hok, reports, List.append_nil]
    exact hstate
  | connecting ip =>
    rw [← Except.ok.inj hok]
    exact hstate.report rfl
  | reconnecting ip =>
    rw [← Except.ok.inj hok]
    exact hstate.report rfl
  | connectError err =>
    simp only [EndpointInternal.onTransportStateChanged] at hok
    split at hok
    · cases hok
    · rename_i preTs pre hpre
      rw [hpre]
      exact (hstate.report rfl).onShutdown hok
  | disconnected err =>
    refine (hstate.report ?_).onShutdown hok
    rw [linksOf_append, linksOf_recorded]
    rfl
  | connected ip =>
    simp only [EndpointInternal.onTransportStateChanged] at hok
    split at hok
    · cases hok
    · rename_i preTs pre hpre
      rw [hpre]
      split at hok
      · rw [← Except.ok.inj hok]
        refine hstate.report ?_
        cases pre with
        | reconnecting ip' => rfl
        | _ => rfl
      · refine Queued.joinRoom ?_ hok
        refine Queued.congr (hstate.report ?_) rfl rfl rfl
        cases pre with
        | reconnecting ip' => rfl
        | _ => rfl

/-- What an input makes the endpoint report of its link. -/
def reportedBy (s : EndpointInternal Selector) (input : Input) : List (Instant × PeerEvent) :=
  match toldState input with
  | none => []
  | some (now, state) => reports afterMs s.state now state

/-- **Every input queues the link events of the state it tells**, and no others. -/
theorem Queued.step (h : Queued links s) {input : Input} (hok : s.step env input = .ok s') :
    Queued (links ++ s.reportedBy input) s' := by
  have hplain : toldState input = none → Queued links s' →
      Queued (links ++ s.reportedBy input) s' := by
    intro hnone hs'
    rw [reportedBy, hnone, List.append_nil]
    exact hs'
  cases input with
  | tick now => exact hplain rfl (h.onTick hok)
  | shutdown now schedule => exact hplain rfl (h.onShutdown hok)
  | transport now schedule hint event =>
    cases event with
    | state state => exact h.onTransportStateChanged hok
    | remoteTrack track event => exact hplain rfl (h.onTransportRemoteTrack hok)
    | localTrack track event => exact hplain rfl (h.onTransportLocalTrack hok)
    | stats =>
      obtain rfl := Except.ok.inj hok
      exact hplain rfl h
    | egressBitrateEstimate bitrate =>
      obtain rfl := Except.ok.inj hok
      exact hplain rfl (h.congr rfl rfl rfl)
  | rpc now schedule reqId req => exact hplain rfl (h.onTransportRpc hok)
  | cluster now event => exact hplain rfl (h.onClusterEvent hok)
  | poll now schedule =>
    exact hplain rfl
      (poll_invariant (Queued links) (fun _ _ _ hs hturn => hs.popTask hturn) h hok)

end

end EndpointInternal

end Endpoint

end MediaServer
