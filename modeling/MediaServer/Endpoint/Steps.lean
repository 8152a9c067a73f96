import MediaServer.Endpoint.Turns

/-!
# The steps of an endpoint

Every input does one of a few things to an endpoint: it only queues outputs, it
joins, leaves or shuts down, it starts a track or reaches one, it ticks or polls.
`step_effect` is the case analysis that all results about endpoints start from;
`machine` is the endpoint as a component with an output queue, where a call of
`pop_output` is a poll followed by a pop.
-/

namespace MediaServer.Endpoint

open Collections Runtime

variable {Selector : Type}

/-- Controls that neither enter or leave a room nor concern a track. -/
def isIncidental : ClusterEndpointControl → Bool
  | .subscribePeer _ | .unsubscribePeer _ | .audioMixer _ | .messageChannel .. => true
  | .join .. | .leave | .remoteTrack .. | .localTrack .. => false

namespace EndpointInternal

/-- Only incidental outputs were queued. -/
def Quiet (s s' : EndpointInternal Selector) : Prop :=
  ∃ outs, Frame s s' outs ∧ ∀ said ∈ controlsOf outs, isIncidental said.2 = true

theorem quiet_of_frame {s s' : EndpointInternal Selector} {outs : List InternalOutput}
    (h : Frame s s' outs) (hnone : controlsOf outs = []) : Quiet s s' :=
  ⟨outs, h, by simp [hnone]⟩

theorem quiet_push (s : EndpointInternal Selector) {outs : List InternalOutput}
    (hnone : controlsOf outs = []) : Quiet s (s.push outs) :=
  quiet_of_frame (s.frame_push outs) hnone

theorem Quiet.joined {s s' : EndpointInternal Selector} (h : Quiet s s') :
    s'.joined = s.joined := by
  obtain ⟨outs, hframe, -⟩ := h
  exact hframe.joined

theorem Quiet.shutdown {s s' : EndpointInternal Selector} (h : Quiet s s') :
    s'.shutdown = s.shutdown := by
  obtain ⟨outs, hframe, -⟩ := h
  exact hframe.shutdown

theorem controlsOf_recorded (s : EndpointInternal Selector) (now : Instant)
    (event : SessionRecordEvent) : controlsOf (s.recorded now event) = [] := by
  unfold recorded
  split <;> rfl

theorem quiet_forward (s : EndpointInternal Selector) (reqId : EndpointReqId)
    (res : RpcResult → EndpointRes) (room : Option ClusterRoomHash) (err : EndpointErrors)
    (control : ClusterEndpointControl) (h : isIncidental control = true) :
    Quiet s (s.forward reqId res room err control) := by
  cases room with
  | none => exact s.quiet_push rfl
  | some hash => exact ⟨_, s.frame_push _, by simp [controlsOf, h]⟩

theorem quiet_onAudioMixerReq (s : EndpointInternal Selector) (reqId : EndpointReqId)
    (req : EndpointAudioMixerReq) : Quiet s (s.onAudioMixerReq reqId req) := by
  unfold onAudioMixerReq
  cases req with
  | attach sources => exact s.quiet_forward _ _ _ _ _ rfl
  | detach sources => exact s.quiet_forward _ _ _ _ _ rfl

theorem quiet_onMessageChannelReq (s : EndpointInternal Selector) (reqId : EndpointReqId)
    (label : MessageChannelLabel) (req : EndpointMessageChannelReq) :
    Quiet s (s.onMessageChannelReq reqId label req) := by
  unfold onMessageChannelReq
  cases req with
  | subscribe => exact s.quiet_forward _ _ _ _ _ rfl
  | unsubscribe => exact s.quiet_forward _ _ _ _ _ rfl
  | startPublish => exact s.quiet_forward _ _ _ _ _ rfl
  | stopPublish => exact s.quiet_forward _ _ _ _ _ rfl
  | publishData data =>
    cases s.joined with
    | none => exact s.quiet_push rfl
    | some joined => exact ⟨_, s.frame_push _, by simp [controlsOf, isIncidental]⟩

theorem forward_shares (s : EndpointInternal Selector) (reqId : EndpointReqId)
    (res : RpcResult → EndpointRes) (room : Option ClusterRoomHash) (err : EndpointErrors)
    (control : ClusterEndpointControl) :
    (s.forward reqId res room err control).bitrateAllocator.shares
      = s.bitrateAllocator.shares := by
  cases room with
  | none => rfl
  | some hash => rfl

theorem onAudioMixerReq_shares (s : EndpointInternal Selector) (reqId : EndpointReqId)
    (req : EndpointAudioMixerReq) :
    (s.onAudioMixerReq reqId req).bitrateAllocator.shares = s.bitrateAllocator.shares := by
  unfold onAudioMixerReq
  cases req with
  | attach sources => exact s.forward_shares ..
  | detach sources => exact s.forward_shares ..

theorem onMessageChannelReq_shares (s : EndpointInternal Selector) (reqId : EndpointReqId)
    (label : MessageChannelLabel) (req : EndpointMessageChannelReq) :
    (s.onMessageChannelReq reqId label req).bitrateAllocator.shares
      = s.bitrateAllocator.shares := by
  unfold onMessageChannelReq
  cases req with
  | publishData data =>
    cases s.joined with
    | none => rfl
    | some joined => rfl
  | _ => exact s.forward_shares ..

/-! ### The kinds of steps -/

/-- The input makes the endpoint join a room now. -/
def joins (s : EndpointInternal Selector) : Input → Bool
  | .rpc _ _ _ (.joinRoom ..) => !s.connecting
  | .transport _ _ _ (.state (.connected _)) => s.waitJoin.isSome
  | _ => false

/-- The input is a shutdown, or ends the transport. -/
def closes : Input → Bool
  | .shutdown .. => true
  | .transport _ _ _ (.state (.disconnected _)) => true
  | .transport _ _ _ (.state (.connectError _)) => true
  | _ => false

/-- The input asks to leave, and there is no parked join to drop instead. -/
def leaves (s : EndpointInternal Selector) : Input → Bool
  | .rpc _ _ _ .leaveRoom => s.waitJoin.isNone
  | _ => false

theorem closes_of_joins {s : EndpointInternal Selector} {input : Input}
    (h : s.joins input = true) : closes input = false := by
  unfold joins at h
  split at h
  · rfl
  · rfl
  · cases h

theorem closes_of_leaves {s : EndpointInternal Selector} {input : Input}
    (h : s.leaves input = true) : closes input = false := by
  unfold leaves at h
  split at h
  · rfl
  · cases h

/-- The endpoint with a new remote track, before the track hears of its start. -/
def withRemote (s : EndpointInternal Selector) (hint : Nat) (track : RemoteTrackId)
    (name : TrackName) (trackMeta : TrackMeta) : EndpointInternal Selector :=
  { s with
      remoteTracks := s.remoteTracks.addTask hint
        (.new (s.joined.map (·.hash)) track name trackMeta s.cfg.record)
      remoteTracksId := s.remoteTracksId.insert track (s.remoteTracks.freeIndex hint) }

/-- The endpoint with a new local track. -/
def withLocal (env : Env Selector) (s : EndpointInternal Selector) (hint : Nat)
    (track : LocalTrackId) (kind : MediaKind) : EndpointInternal Selector :=
  { s with
      localTracks := s.localTracks.addTask hint
        (.new env.selector track kind (s.joined.map (·.hash)))
      localTracksId := s.localTracksId.insert track (s.localTracks.freeIndex hint) }

/-- What an input can do to an endpoint. -/
inductive Effect (env : Env Selector) (s : EndpointInternal Selector) :
    Input → EndpointInternal Selector → Prop
  | quiet {input s'} (hopen : closes input = false) (hquiet : Quiet s s')
      (hshares : s'.bitrateAllocator.shares = s.bitrateAllocator.shares) : Effect env s input s'
  | join {input s₁ s' now schedule req} (hjoins : s.joins input = true) (hquiet : Quiet s s₁)
      (h : s₁.joinRoom env now schedule req = .ok s')
      (hshares : s₁.bitrateAllocator.shares = s.bitrateAllocator.shares) : Effect env s input s'
  | leave {input s₁ s' now schedule} (hleaves : s.leaves input = true) (hquiet : Quiet s s₁)
      (h : s₁.leaveRoom env now schedule = .ok s')
      (hshares : s₁.bitrateAllocator.shares = s.bitrateAllocator.shares) : Effect env s input s'
  | shutdown {input s₁ s' now schedule} (hcloses : closes input = true) (hquiet : Quiet s s₁)
      (h : s₁.onShutdown env now schedule = .ok s')
      (hshares : s₁.bitrateAllocator.shares = s.bitrateAllocator.shares) : Effect env s input s'
  | toRemote {input s' now track index told} (hopen : closes input = false)
      (hindex : s.remoteTracksId.get1 track = some index)
      (hroutine : EndpointRemoteTrack.isBroadcast told = false)
      (hevent : ∀ event, told = .event event → event.needCreate = none ∧
        ∃ now schedule hint, input = .transport now schedule hint (.remoteTrack track event))
      (h : s.toRemote now index told = .ok s')
      (hreq : ∀ reqId req, told = .rpcReq reqId req →
        ∃ now schedule, input = .rpc now schedule reqId (.remoteTrack track req)) :
      Effect env s input s'
  | toLocal {input s' now track index told} (hopen : closes input = false)
      (hindex : s.localTracksId.get1 track = some index)
      (hroutine : EndpointLocalTrack.isBroadcast told = false)
      (h : s.toLocal env now index told = .ok s')
      (hreq : ∀ reqId req, told = .rpcReq reqId req →
        ∃ now schedule, input = .rpc now schedule reqId (.localTrack track req)) :
      Effect env s input s'
  | startRemote {s' now schedule hint track name priority trackMeta}
      (h : (s.withRemote hint track name trackMeta).toRemote now (s.remoteTracks.freeIndex hint)
        (.event (.started name priority trackMeta)) = .ok s') :
      Effect env s (.transport now schedule hint
        (.remoteTrack track (.started name priority trackMeta))) s'
  | startLocal {s₁ s' now schedule hint track kind}
      (hquiet : Quiet (withLocal env s hint track kind) s₁)
      (h : s₁.toLocal env now (s.localTracks.freeIndex hint) (.event (.started kind)) = .ok s')
      (hshares : s₁.bitrateAllocator.shares = s.bitrateAllocator.shares) :
      Effect env s (.transport now schedule hint (.localTrack track (.started kind))) s'
  | tick {now s'} (h : s.onTick env now = .ok s') : Effect env s (.tick now) s'
  | poll {now schedule s'} (h : EndpointInternal.poll env now schedule s = .ok s') :
      Effect env s (.poll now schedule) s'

section

variable {env : Env Selector}

theorem onTransportStateChanged_effect {s s' : EndpointInternal Selector} {now : Instant}
    {schedule : Schedule} {hint : Nat} {state : TransportState}
    (h : s.onTransportStateChanged env now schedule state = .ok s') :
    Effect env s (.transport now schedule hint (.state state)) s' := by
  have hsame : ∀ state', Frame s { s with state := state' } [] := fun _ =>
    ⟨rfl, rfl, rfl, rfl, rfl, rfl, rfl, (List.append_nil _).symm⟩
  cases state with
  | new =>
    cases h
    exact .quiet rfl (quiet_of_frame (hsame _) rfl) rfl
  | connecting ip =>
    cases h
    exact .quiet rfl (quiet_of_frame ((hsame _).push _) rfl) rfl
  | reconnecting ip =>
    cases h
    exact .quiet rfl (quiet_of_frame ((hsame _).push _) rfl) rfl
  | connectError err =>
    simp only [onTransportStateChanged] at h
    split at h
    · cases h
    · exact .shutdown rfl (quiet_of_frame ((hsame _).push _) rfl) h rfl
  | disconnected err =>
    refine .shutdown rfl (quiet_of_frame ((hsame _).push _) ?_) h rfl
    simp only [List.nil_append, controlsOf_append, controlsOf_recorded]
    rfl
  | connected ip =>
    simp only [onTransportStateChanged] at h
    split at h
    · cases h
    · split at h
      · cases h
        exact .quiet rfl (quiet_of_frame ((hsame _).push _) rfl) rfl
      · rename_i req hwait
        have hwaiting : s.waitJoin = some req := hwait
        refine .join (by simp [joins, hwaiting]) ?_ h rfl
        exact ⟨[_], ⟨rfl, rfl, rfl, rfl, rfl, rfl, rfl, rfl⟩, by simp [controlsOf]⟩

theorem onTransportRemoteTrack_effect {s s' : EndpointInternal Selector} {now : Instant}
    {schedule : Schedule} {hint : Nat} {track : RemoteTrackId} {event : RemoteTrackEvent}
    (h : s.onTransportRemoteTrack now hint track event = .ok s') :
    Effect env s (.transport now schedule hint (.remoteTrack track event)) s' := by
  have hreach : event.needCreate = none → Effect env s
      (.transport now schedule hint (.remoteTrack track event)) s' := by
    intro hcreate
    simp only [onTransportRemoteTrack, hcreate] at h
    split at h
    · cases h
      exact .quiet rfl (quiet_of_frame (Frame.refl s) rfl) rfl
    · rename_i index hindex
      refine .toRemote rfl hindex rfl ?_ h (by simp)
      rintro event' heq
      cases heq
      exact ⟨hcreate, now, schedule, hint, rfl⟩
  cases event with
  | started name priority trackMeta =>
    simp only [onTransportRemoteTrack, RemoteTrackEvent.needCreate] at h
    rw [IndexMap2d.get1_insert, if_pos rfl] at h
    exact .startRemote h
  | paused => exact hreach rfl
  | resumed => exact hreach rfl
  | media media => exact hreach rfl
  | ended => exact hreach rfl

theorem onTransportLocalTrack_effect {s s' : EndpointInternal Selector} {now : Instant}
    {schedule : Schedule} {hint : Nat} {track : LocalTrackId} {event : LocalTrackEvent}
    (h : s.onTransportLocalTrack env now hint track event = .ok s') :
    Effect env s (.transport now schedule hint (.localTrack track event)) s' := by
  have hreach : event.needCreate = none → Effect env s
      (.transport now schedule hint (.localTrack track event)) s' := by
    intro hcreate
    simp only [onTransportLocalTrack, hcreate] at h
    split at h
    · cases h
      exact .quiet rfl (quiet_of_frame (Frame.refl s) rfl) rfl
    · rename_i index hindex
      exact .toLocal rfl hindex rfl h (by simp)
  cases event with
  | started kind =>
    simp only [onTransportLocalTrack, LocalTrackEvent.needCreate, push] at h
    rw [IndexMap2d.get1_insert, if_pos rfl] at h
    exact .startLocal (quiet_push (withLocal env s hint track kind) rfl) h rfl
  | requestKeyFrame => exact hreach rfl
  | ended => exact hreach rfl

theorem onTransportRpc_effect {s s' : EndpointInternal Selector} {now : Instant}
    {schedule : Schedule} {reqId : EndpointReqId} {req : EndpointReq}
    (h : s.onTransportRpc env now schedule reqId req = .ok s') :
    Effect env s (.rpc now schedule reqId req) s' := by
  have hwait : ∀ wait, Frame s { s with waitJoin := wait } [] := fun _ =>
    ⟨rfl, rfl, rfl, rfl, rfl, rfl, rfl, (List.append_nil _).symm⟩
  cases req with
  | joinRoom room peer peerMeta publish subscribe mixer =>
    simp only [onTransportRpc] at h
    split at h
    · cases h
      exact .quiet rfl (quiet_of_frame (hwait _) rfl) rfl
    · rename_i hconnecting
      exact .join (by simpa [joins] using hconnecting) (quiet_of_frame (Frame.refl s) rfl) h rfl
  | leaveRoom =>
    simp only [onTransportRpc] at h
    split at h
    · cases h
      exact .quiet rfl (quiet_of_frame ((hwait _).push _) rfl) rfl
    · rename_i hnone
      exact .leave (by simp [leaves, hnone]) (quiet_push s rfl) h rfl
  | subscribePeer peer =>
    cases h
    exact .quiet rfl (s.quiet_forward _ _ _ _ _ rfl) (s.forward_shares ..)
  | unsubscribePeer peer =>
    cases h
    exact .quiet rfl (s.quiet_forward _ _ _ _ _ rfl) (s.forward_shares ..)
  | remoteTrack track req =>
    simp only [onTransportRpc] at h
    split at h
    · cases h
      exact .quiet rfl (quiet_of_frame (Frame.refl s) rfl) rfl
    · rename_i index hindex
      exact .toRemote rfl hindex rfl (by simp) h fun _ _ heq => by
        cases heq
        exact ⟨now, schedule, rfl⟩
  | localTrack track req =>
    simp only [onTransportRpc] at h
    split at h
    · cases h
      exact .quiet rfl (quiet_of_frame (Frame.refl s) rfl) rfl
    · rename_i index hindex
      exact .toLocal rfl hindex rfl h fun _ _ heq => by
        cases heq
        exact ⟨now, schedule, rfl⟩
  | audioMixer req =>
    cases h
    exact .quiet rfl (s.quiet_onAudioMixerReq reqId req) (s.onAudioMixerReq_shares reqId req)
  | messageChannel label req =>
    cases h
    exact .quiet rfl (s.quiet_onMessageChannelReq reqId label req)
      (s.onMessageChannelReq_shares reqId label req)

theorem onClusterEvent_effect {s s' : EndpointInternal Selector} {now : Instant}
    {event : ClusterEndpointEvent} (h : s.onClusterEvent env now event = .ok s') :
    Effect env s (.cluster now event) s' := by
  cases event with
  | remoteTrack track event =>
    simp only [onClusterEvent] at h
    split at h
    · cases h
      exact .quiet rfl (quiet_of_frame (Frame.refl s) rfl) rfl
    · rename_i index hindex
      exact .toRemote rfl hindex rfl (by simp) h (by simp)
  | localTrack track event =>
    simp only [onClusterEvent] at h
    split at h
    · cases h
      exact .quiet rfl (quiet_of_frame (Frame.refl s) rfl) rfl
    · rename_i index hindex
      exact .toLocal rfl hindex rfl h (by simp)
  | audioMixer event =>
    cases event with
    | slotSet slot peer track =>
      cases h
      exact .quiet rfl (s.quiet_push rfl) rfl
    | slotUnset slot =>
      cases h
      exact .quiet rfl (s.quiet_push rfl) rfl
  | peerJoined peer peerMeta =>
    cases h
    exact .quiet rfl (s.quiet_push rfl) rfl
  | peerLeaved peer peerMeta =>
    cases h
    exact .quiet rfl (s.quiet_push rfl) rfl
  | trackStarted peer track trackMeta =>
    cases h
    exact .quiet rfl (s.quiet_push rfl) rfl
  | trackStopped peer track trackMeta =>
    cases h
    exact .quiet rfl (s.quiet_push rfl) rfl
  | messageChannelData label peer data =>
    cases h
    exact .quiet rfl (s.quiet_push rfl) rfl

/-- **Every step is of one of the listed kinds.** -/
theorem step_effect {s s' : EndpointInternal Selector} {input : Input}
    (h : s.step env input = .ok s') : Effect env s input s' := by
  cases input with
  | tick now => exact .tick h
  | shutdown now schedule => exact .shutdown rfl (quiet_of_frame (Frame.refl s) rfl) h rfl
  | transport now schedule hint event =>
    cases event with
    | state state => exact onTransportStateChanged_effect h
    | remoteTrack track event => exact onTransportRemoteTrack_effect h
    | localTrack track event => exact onTransportLocalTrack_effect h
    | stats =>
      cases h
      exact .quiet rfl (quiet_of_frame (Frame.refl s) rfl) rfl
    | egressBitrateEstimate bitrate =>
      cases h
      exact .quiet rfl ⟨[], ⟨rfl, rfl, rfl, rfl, rfl, rfl, rfl, (List.append_nil _).symm⟩,
        by simp [controlsOf]⟩ rfl
  | rpc now schedule reqId req => exact onTransportRpc_effect h
  | cluster now event => exact onClusterEvent_effect h
  | poll now schedule => exact .poll h

/-! ### Inside joins, leaves and shutdowns -/

/-- Controls about a track. -/
def isTrack : ClusterEndpointControl → Bool
  | .remoteTrack .. | .localTrack .. => true
  | _ => false

/-- The endpoint is in the room it was in and queued nothing but what its tracks say. -/
structure Passes (s s' : EndpointInternal Selector) : Prop where
  joined : s'.joined = s.joined
  shutdown : s'.shutdown = s.shutdown
  queue : ∃ outs, s'.queue = s.queue ++ outs ∧ ∀ said ∈ controlsOf outs, isTrack said.2 = true

theorem Passes.refl (s : EndpointInternal Selector) : Passes s s :=
  ⟨rfl, rfl, [], (List.append_nil _).symm, by simp [controlsOf]⟩

theorem Passes.trans {s s' s'' : EndpointInternal Selector} (h : Passes s s')
    (h' : Passes s' s'') : Passes s s'' := by
  obtain ⟨outs, hqueue, hsaid⟩ := h.queue
  obtain ⟨outs', hqueue', hsaid'⟩ := h'.queue
  refine ⟨h'.joined.trans h.joined, h'.shutdown.trans h.shutdown, outs ++ outs', ?_, ?_⟩
  · rw [hqueue', hqueue, List.append_assoc]
  · intro said hmem
    rw [controlsOf_append] at hmem
    rcases List.mem_append.mp hmem with hmem | hmem
    · exact hsaid said hmem
    · exact hsaid' said hmem

theorem isTrack_of_mem_remoteSaid {id : RemoteTrackId} {out : RemoteTrack.Output}
    {said : ClusterRoomHash × ClusterEndpointControl} (h : said ∈ remoteSaid id out) :
    isTrack said.2 = true := by
  cases out with
  | cluster room control =>
    obtain rfl := List.mem_singleton.mp h
    rfl
  | _ => cases h

theorem isTrack_of_mem_localSaid {id : LocalTrackId} {out : LocalTrack.Output}
    {said : ClusterRoomHash × ClusterEndpointControl} (h : said ∈ localSaid id out) :
    isTrack said.2 = true := by
  cases out with
  | cluster room control =>
    obtain rfl := List.mem_singleton.mp h
    rfl
  | _ => cases h

theorem popTask_passes {s s' : EndpointInternal Selector} {now : Instant} {pick : Pick}
    (h : s.popTask env now pick = .ok s') : Passes s s' := by
  cases pick with
  | bitrateAllocator =>
    rcases popBitrateAllocator_cases h with ⟨-, rfl⟩ | ⟨allocator, -, -, hcase⟩
    · exact Passes.refl _
    · rcases hcase with ⟨outs, hframe, hnone⟩ | ⟨index, action, hto⟩ | ⟨index, action, hto⟩
      · exact ⟨hframe.joined, hframe.shutdown, outs, hframe.queue, by simp [hnone]⟩
      · obtain ⟨group, -, rfl⟩ := toRemote_eq_ok hto
        exact ⟨rfl, rfl, [], (List.append_nil _).symm, by simp [controlsOf]⟩
      · obtain ⟨group, -, rfl⟩ := toLocal_eq_ok hto
        exact ⟨rfl, rfl, [], (List.append_nil _).symm, by simp [controlsOf]⟩
  | localTracks index =>
    rcases popLocalTracks_cases h with ⟨-, rfl⟩ | ⟨t, id, -, -, -, hcase⟩
    · exact Passes.refl _
    · rcases hcase with ⟨out, rest, outs, -, -, hframe, hsaid⟩ | ⟨-, -, hframe⟩
      · refine ⟨hframe.joined, hframe.shutdown, outs, hframe.queue, fun said hmem => ?_⟩
        rw [hsaid] at hmem
        exact isTrack_of_mem_localSaid hmem
      · exact ⟨hframe.joined, hframe.shutdown, [], hframe.queue, by simp [controlsOf]⟩
  | remoteTracks index =>
    rcases popRemoteTracks_cases h with ⟨-, rfl⟩ | ⟨t, id, -, -, -, hcase⟩
    · exact Passes.refl _
    · rcases hcase with ⟨out, rest, outs, -, -, hframe, hsaid⟩ | ⟨-, -, hframe⟩
      · refine ⟨hframe.joined, hframe.shutdown, outs, hframe.queue, fun said hmem => ?_⟩
        rw [hsaid] at hmem
        exact isTrack_of_mem_remoteSaid hmem
      · exact ⟨hframe.joined, hframe.shutdown, [], hframe.queue, by simp [controlsOf]⟩

theorem popAll_passes {s s' : EndpointInternal Selector} {now : Instant} {schedule : Schedule}
    (h : popAll env now schedule s = .ok s') : Passes s s' :=
  popAll_invariant (Passes s) (fun _ _ _ hpass hturn => hpass.trans (popTask_passes hturn))
    (Passes.refl s) h

theorem poll_passes {s s' : EndpointInternal Selector} {now : Instant} {schedule : Schedule}
    (h : EndpointInternal.poll env now schedule s = .ok s') : Passes s s' :=
  poll_invariant (Passes s) (fun _ _ _ hpass hturn => hpass.trans (popTask_passes hturn))
    (Passes.refl s) h

theorem broadcast_eq_ok {s s' : EndpointInternal Selector} {now : Instant}
    {toLocals : LocalTrack.Input} {toRemotes : RemoteTrack.Input}
    (h : s.broadcast env now toLocals toRemotes = .ok s') :
    ∃ localTracks remoteTracks,
      TaskGroup.onEvents (EndpointLocalTrack.onEvent env.selector env.timestampMs now toLocals)
        (s.localTracksId.pairs.map Prod.snd) s.localTracks = .ok localTracks ∧
      TaskGroup.onEvents (EndpointRemoteTrack.onEvent now toRemotes)
        (s.remoteTracksId.pairs.map Prod.snd) s.remoteTracks = .ok remoteTracks ∧
      s' = { s with localTracks := localTracks, remoteTracks := remoteTracks } := by
  obtain ⟨localTracks, hlocal, h⟩ := Except.bind_eq_ok.mp h
  obtain ⟨remoteTracks, hremote, heq⟩ := Except.bind_eq_ok.mp h
  cases heq
  exact ⟨localTracks, remoteTracks, hlocal, hremote, rfl⟩

theorem leaveRoom_eq_ok {s s' : EndpointInternal Selector} {now : Instant} {schedule : Schedule}
    (h : s.leaveRoom env now schedule = .ok s') :
    (s.joined = none ∧ s' = s) ∨
    ∃ joined s₁ s₂, s.joined = some joined ∧
      { s with joined := none }.broadcast env now .leaveRoom .leaveRoom = .ok s₁ ∧
      popAll env now schedule s₁ = .ok s₂ ∧ s' = s₂.push (s₂.leaveOutputs now joined) := by
  unfold leaveRoom at h
  cases hjoined : s.joined with
  | none =>
    rw [hjoined] at h
    cases h
    exact Or.inl ⟨rfl, rfl⟩
  | some joined =>
    rw [hjoined] at h
    obtain ⟨s₁, hs₁, h⟩ := Except.bind_eq_ok.mp h
    obtain ⟨s₂, hs₂, heq⟩ := Except.bind_eq_ok.mp h
    cases heq
    exact Or.inr ⟨joined, s₁, s₂, rfl, hs₁, hs₂, rfl⟩

/-- The room a join request leads to. -/
def joinedBy (env : Env Selector) (s : EndpointInternal Selector) (req : WaitJoin) : Joined :=
  ⟨ClusterRoomHash.generate env.hasher s.cfg.app req.room, req.room, req.peer,
    req.mixer.map AudioMixerConfig.mode⟩

theorem joinRoom_eq_ok {s s' : EndpointInternal Selector} {now : Instant} {schedule : Schedule}
    {req : WaitJoin} (h : s.joinRoom env now schedule req = .ok s') :
    ∃ s₁, (s.push [.rpcRes req.reqId (.joinRoom (.ok ()))]).leaveRoom env now schedule
        = .ok s₁ ∧
      ({ s₁ with joined := some (joinedBy env s req) }.push
        (s₁.joinOutputs now (joinedBy env s req).hash req)).broadcast env now
          (.joinRoom (joinedBy env s req).hash) (.joinRoom (joinedBy env s req).hash)
        = .ok s' := by
  obtain ⟨s₁, hs₁, h⟩ := Except.bind_eq_ok.mp h
  exact ⟨s₁, hs₁, h⟩

theorem onShutdown_eq_ok {s s' : EndpointInternal Selector} {now : Instant}
    {schedule : Schedule} (h : s.onShutdown env now schedule = .ok s') :
    (s.shutdown = true ∧ s' = s) ∨
    (s.shutdown = false ∧ ∃ localTracks remoteTracks s₁,
      s.localTracks.onAll (EndpointLocalTrack.onShutdown now) = .ok localTracks ∧
      s.remoteTracks.onAll (EndpointRemoteTrack.onShutdown now) = .ok remoteTracks ∧
      popAll env now schedule { s with shutdown := true, localTracks := localTracks,
                                       remoteTracks := remoteTracks } = .ok s₁ ∧
      ((s₁.joined = none ∧ s' = s₁) ∨
        ∃ joined, s₁.joined = some joined ∧
          s' = { s₁ with joined := none }.push (s₁.leaveOutputs now joined))) := by
  unfold onShutdown at h
  cases hshutdown : s.shutdown with
  | true =>
    rw [if_pos hshutdown] at h
    cases h
    exact Or.inl ⟨rfl, rfl⟩
  | false =>
    rw [if_neg (by simp [hshutdown])] at h
    obtain ⟨localTracks, hlocal, h⟩ := Except.bind_eq_ok.mp h
    obtain ⟨remoteTracks, hremote, h⟩ := Except.bind_eq_ok.mp h
    obtain ⟨s₁, hs₁, h⟩ := Except.bind_eq_ok.mp h
    refine Or.inr ⟨rfl, localTracks, remoteTracks, s₁, hlocal, hremote, hs₁, ?_⟩
    cases hjoined : s₁.joined with
    | none =>
      rw [hjoined] at h
      cases h
      exact Or.inl ⟨rfl, rfl⟩
    | some joined =>
      rw [hjoined] at h
      cases h
      exact Or.inr ⟨joined, rfl, rfl⟩

theorem onTick_eq_ok {s s' : EndpointInternal Selector} {now : Instant}
    (h : s.onTick env now = .ok s') :
    ∃ localTracks, s.localTracks.onAll (fun t =>
        .ok (EndpointLocalTrack.onTick env.selector env.timestampMs now t)) = .ok localTracks ∧
      s' = { s with bitrateAllocator := s.bitrateAllocator.onTick, localTracks := localTracks } := by
  obtain ⟨localTracks, hlocal, heq⟩ := Except.bind_eq_ok.mp h
  cases heq
  exact ⟨localTracks, hlocal, rfl⟩

/-! ### Panics -/

theorem toRemote_ok (s : EndpointInternal Selector) (now : Instant) (index : Nat)
    {told : RemoteTrack.Input} (h : EndpointRemoteTrack.isBroadcast told = false) :
    ∃ s', s.toRemote now index told = .ok s' := by
  cases hget : s.remoteTracks.get index with
  | none => exact ⟨s, by simp [toRemote, TaskGroup.onEvent, hget, bind, Except.bind]⟩
  | some t =>
    obtain ⟨t', ht'⟩ := EndpointRemoteTrack.onEvent_ok_of_routine now t h
    exact ⟨_, Except.bind_eq_ok.mpr ⟨_, TaskGroup.onEvent_of_get hget ht', rfl⟩⟩

variable (env) in
theorem toLocal_ok (s : EndpointInternal Selector) (now : Instant) (index : Nat)
    {told : LocalTrack.Input} (h : EndpointLocalTrack.isBroadcast told = false) :
    ∃ s', s.toLocal env now index told = .ok s' := by
  cases hget : s.localTracks.get index with
  | none => exact ⟨s, by simp [toLocal, TaskGroup.onEvent, hget, bind, Except.bind]⟩
  | some t =>
    obtain ⟨t', ht'⟩ :=
      EndpointLocalTrack.onEvent_ok_of_routine env.selector env.timestampMs now t h
    exact ⟨_, Except.bind_eq_ok.mpr ⟨_, TaskGroup.onEvent_of_get hget ht', rfl⟩⟩

theorem onTransportStateChanged_outcome {s : EndpointInternal Selector} {now : Instant}
    {schedule : Schedule} {hint : Nat} {state : TransportState}
    (hjoin : ∀ s₁ req, s.joins (.transport now schedule hint (.state state)) = true →
      Quiet s s₁ → ∃ s', s₁.joinRoom env now schedule req = .ok s')
    (hshutdown : ∀ s₁, closes (.transport now schedule hint (.state state)) = true →
      Quiet s s₁ → ∃ s', s₁.onShutdown env now schedule = .ok s') :
    (∃ s', s.onTransportStateChanged env now schedule state = .ok s') ∨
      s.onTransportStateChanged env now schedule state
        = .error ⟨"Should have previous state"⟩ := by
  have hsame : ∀ state', Frame s { s with state := state' } [] := fun _ =>
    ⟨rfl, rfl, rfl, rfl, rfl, rfl, rfl, (List.append_nil _).symm⟩
  cases state with
  | new => exact Or.inl ⟨_, rfl⟩
  | connecting ip => exact Or.inl ⟨_, rfl⟩
  | reconnecting ip => exact Or.inl ⟨_, rfl⟩
  | disconnected err =>
    refine Or.inl (hshutdown _ rfl (quiet_of_frame ((hsame _).push _) ?_))
    simp only [List.nil_append, controlsOf_append, controlsOf_recorded]
    rfl
  | connectError err =>
    cases hstate : s.state with
    | none =>
      right
      simp only [onTransportStateChanged, hstate]
    | some pre =>
      left
      simp only [onTransportStateChanged, hstate]
      exact hshutdown _ rfl (quiet_of_frame ((hsame _).push _) rfl)
  | connected ip =>
    cases hstate : s.state with
    | none =>
      right
      simp only [onTransportStateChanged, hstate]
    | some pre =>
      left
      simp only [onTransportStateChanged, hstate]
      split
      · exact ⟨_, rfl⟩
      · rename_i req hwait
        have hwaiting : s.waitJoin = some req := hwait
        refine hjoin _ req (by simp [joins, hwaiting]) ?_
        exact ⟨[_], ⟨rfl, rfl, rfl, rfl, rfl, rfl, rfl, rfl⟩, by simp [controlsOf]⟩

theorem onTransportRemoteTrack_ok (s : EndpointInternal Selector) (now : Instant) (hint : Nat)
    (track : RemoteTrackId) (event : RemoteTrackEvent) :
    ∃ s', s.onTransportRemoteTrack now hint track event = .ok s' := by
  simp only [onTransportRemoteTrack]
  split
  · exact ⟨_, rfl⟩
  · exact toRemote_ok _ now _ rfl

variable (env) in
theorem onTransportLocalTrack_ok (s : EndpointInternal Selector) (now : Instant) (hint : Nat)
    (track : LocalTrackId) (event : LocalTrackEvent) :
    ∃ s', s.onTransportLocalTrack env now hint track event = .ok s' := by
  simp only [onTransportLocalTrack]
  split
  · exact ⟨_, rfl⟩
  · exact toLocal_ok env _ now _ rfl

variable (env) in
theorem onClusterEvent_ok (s : EndpointInternal Selector) (now : Instant)
    (event : ClusterEndpointEvent) : ∃ s', s.onClusterEvent env now event = .ok s' := by
  cases event with
  | remoteTrack track event =>
    simp only [onClusterEvent]
    split
    · exact ⟨_, rfl⟩
    · exact toRemote_ok _ now _ rfl
  | localTrack track event =>
    simp only [onClusterEvent]
    split
    · exact ⟨_, rfl⟩
    · exact toLocal_ok env _ now _ rfl
  | audioMixer event => cases event <;> exact ⟨_, rfl⟩
  | peerJoined | peerLeaved | trackStarted | trackStopped | messageChannelData => exact ⟨_, rfl⟩

theorem onTransportRpc_ok {s : EndpointInternal Selector} {now : Instant} {schedule : Schedule}
    {reqId : EndpointReqId} {req : EndpointReq}
    (hjoin : ∀ s₁ wait, s.joins (.rpc now schedule reqId req) = true → Quiet s s₁ →
      ∃ s', s₁.joinRoom env now schedule wait = .ok s')
    (hleave : ∀ s₁, s.leaves (.rpc now schedule reqId req) = true → Quiet s s₁ →
      ∃ s', s₁.leaveRoom env now schedule = .ok s') :
    ∃ s', s.onTransportRpc env now schedule reqId req = .ok s' := by
  cases req with
  | joinRoom room peer peerMeta publish subscribe mixer =>
    simp only [onTransportRpc]
    split
    · exact ⟨_, rfl⟩
    · rename_i hconnecting
      exact hjoin s _ (by simpa [joins] using hconnecting) (quiet_of_frame (Frame.refl s) rfl)
  | leaveRoom =>
    simp only [onTransportRpc]
    split
    · exact ⟨_, rfl⟩
    · rename_i hnone
      exact hleave _ (by simp [leaves, hnone]) (quiet_push s rfl)
  | remoteTrack track req =>
    simp only [onTransportRpc]
    split
    · exact ⟨_, rfl⟩
    · exact toRemote_ok _ now _ rfl
  | localTrack track req =>
    simp only [onTransportRpc]
    split
    · exact ⟨_, rfl⟩
    · exact toLocal_ok env _ now _ rfl
  | subscribePeer | unsubscribePeer | audioMixer | messageChannel => exact ⟨_, rfl⟩

/-- **What can panic.** If joins, leaves, shutdowns and polls go through, the only panic
    left is the endpoint's own, for a transport that connects out of nothing. -/
theorem step_outcome {s : EndpointInternal Selector} {input : Input}
    (hjoin : ∀ s₁ now schedule req, s.joins input = true → Quiet s s₁ →
      ∃ s', s₁.joinRoom env now schedule req = .ok s')
    (hleave : ∀ s₁ now schedule, s.leaves input = true → Quiet s s₁ →
      ∃ s', s₁.leaveRoom env now schedule = .ok s')
    (hshutdown : ∀ s₁ now schedule, closes input = true → Quiet s s₁ →
      ∃ s', s₁.onShutdown env now schedule = .ok s')
    (hpoll : ∀ now schedule, input = .poll now schedule →
      ∃ s', EndpointInternal.poll env now schedule s = .ok s') :
    (∃ s', s.step env input = .ok s') ∨
      s.step env input = .error ⟨"Should have previous state"⟩ := by
  cases input with
  | tick now =>
    obtain ⟨localTracks, hlocals⟩ : ∃ localTracks, s.localTracks.onAll (fun t =>
        .ok (EndpointLocalTrack.onTick env.selector env.timestampMs now t)) = .ok localTracks :=
      TaskGroup.onAll_ok fun _ _ _ => ⟨_, rfl⟩
    exact Or.inl ⟨_, Except.bind_eq_ok.mpr ⟨localTracks, hlocals, rfl⟩⟩
  | shutdown now schedule =>
    exact Or.inl (hshutdown s now schedule rfl (quiet_of_frame (Frame.refl s) rfl))
  | transport now schedule hint event =>
    cases event with
    | state state =>
      exact onTransportStateChanged_outcome (fun s₁ req => hjoin s₁ now schedule req)
        (fun s₁ => hshutdown s₁ now schedule)
    | remoteTrack track event => exact Or.inl (s.onTransportRemoteTrack_ok now hint track event)
    | localTrack track event =>
      exact Or.inl (s.onTransportLocalTrack_ok env now hint track event)
    | stats => exact Or.inl ⟨_, rfl⟩
    | egressBitrateEstimate bitrate => exact Or.inl ⟨_, rfl⟩
  | rpc now schedule reqId req =>
    exact Or.inl (onTransportRpc_ok (fun s₁ wait => hjoin s₁ now schedule wait)
      (fun s₁ => hleave s₁ now schedule))
  | cluster now event => exact Or.inl (s.onClusterEvent_ok env now event)
  | poll now schedule => exact Or.inl (hpoll now schedule rfl)

/-! ### The endpoint as a component -/

theorem Quiet.appends {s s' : EndpointInternal Selector} (h : Quiet s s') :
    s.queue <+: s'.queue := by
  obtain ⟨outs, hframe, -⟩ := h
  exact ⟨outs, hframe.queue.symm⟩

theorem Passes.appends {s s' : EndpointInternal Selector} (h : Passes s s') :
    s.queue <+: s'.queue := by
  obtain ⟨outs, hqueue, -⟩ := h.queue
  exact ⟨outs, hqueue.symm⟩

theorem broadcast_queue {s s' : EndpointInternal Selector} {now : Instant}
    {toLocals : LocalTrack.Input} {toRemotes : RemoteTrack.Input}
    (h : s.broadcast env now toLocals toRemotes = .ok s') : s'.queue = s.queue := by
  obtain ⟨localTracks, remoteTracks, -, -, rfl⟩ := broadcast_eq_ok h
  rfl

theorem leaveRoom_appends {s s' : EndpointInternal Selector} {now : Instant}
    {schedule : Schedule} (h : s.leaveRoom env now schedule = .ok s') :
    s.queue <+: s'.queue := by
  rcases leaveRoom_eq_ok h with ⟨-, rfl⟩ | ⟨joined, s₁, s₂, -, hs₁, hs₂, rfl⟩
  · exact List.prefix_refl _
  · have hsame := broadcast_queue hs₁
    change s₁.queue = s.queue at hsame
    rw [← hsame]
    exact (popAll_passes hs₂).appends.trans (List.prefix_append ..)

theorem joinRoom_appends {s s' : EndpointInternal Selector} {now : Instant}
    {schedule : Schedule} {req : WaitJoin} (h : s.joinRoom env now schedule req = .ok s') :
    s.queue <+: s'.queue := by
  obtain ⟨s₁, hs₁, hs'⟩ := joinRoom_eq_ok h
  have hleft : s.queue <+: s₁.queue := (List.prefix_append ..).trans (leaveRoom_appends hs₁)
  rw [broadcast_queue hs']
  exact hleft.trans (List.prefix_append ..)

theorem onShutdown_appends {s s' : EndpointInternal Selector} {now : Instant}
    {schedule : Schedule} (h : s.onShutdown env now schedule = .ok s') :
    s.queue <+: s'.queue := by
  rcases onShutdown_eq_ok h with
    ⟨-, rfl⟩ | ⟨-, localTracks, remoteTracks, s₁, -, -, hs₁, hcase⟩
  · exact List.prefix_refl _
  · have hpass : s.queue <+: s₁.queue := (popAll_passes hs₁).appends
    rcases hcase with ⟨-, rfl⟩ | ⟨joined, -, rfl⟩
    · exact hpass
    · exact hpass.trans (List.prefix_append ..)

theorem step_appends {s s' : EndpointInternal Selector} {input : Input}
    (h : s.step env input = .ok s') : s.queue <+: s'.queue := by
  cases step_effect h with
  | quiet _ hquiet => exact hquiet.appends
  | join _ hquiet h => exact hquiet.appends.trans (joinRoom_appends h)
  | leave _ hquiet h => exact hquiet.appends.trans (leaveRoom_appends h)
  | shutdown _ hquiet h => exact hquiet.appends.trans (onShutdown_appends h)
  | toRemote _ _ _ _ h =>
    obtain ⟨group, -, rfl⟩ := toRemote_eq_ok h
    exact List.prefix_refl _
  | toLocal _ _ _ h =>
    obtain ⟨group, -, rfl⟩ := toLocal_eq_ok h
    exact List.prefix_refl _
  | startRemote h =>
    obtain ⟨group, -, rfl⟩ := toRemote_eq_ok h
    exact List.prefix_refl _
  | startLocal hquiet h =>
    obtain ⟨group, -, rfl⟩ := toLocal_eq_ok h
    exact hquiet.appends
  | tick h =>
    obtain ⟨localTracks, -, rfl⟩ := onTick_eq_ok h
    exact List.prefix_refl _
  | poll h => exact (poll_passes h).appends

end

/-- The endpoint as a component with an output queue.  A call of `pop_output` is a poll
    followed by a pop. -/
def machine (env : Env Selector) (cfg : EndpointCfg) :
    Machine (EndpointInternal Selector) Input InternalOutput where
  init := .new cfg
  step s input := s.step env input
  queue s := s.queue
  dropFront s := { s with queue := s.queue.tail }
  queue_init := rfl
  queue_dropFront _ := rfl
  step_appends _ _ _ h := step_appends h

end EndpointInternal

end MediaServer.Endpoint
