import MediaServer.Endpoint.Internal
import MediaServer.Lib.Always
import MediaServer.Transport.LiveTracks
import MediaServer.Transport.RtpEngine

/-!
# What a SIP leg listens to

A SIP leg has one local track, for audio.  Its transport asks for every track that another peer
starts, and lets go of the local track on every stop of another peer.  Neither looks at the kind of
the track, and a stop does not look at which track the local track is attached to.
-/

namespace MediaServer.Endpoint.EndpointLocalTrack

variable {Selector : Type}

/-- The source a local track is bound to. -/
def source (t : EndpointLocalTrack Selector) : Option TrackSource :=
  t.bind.map fun bound => ⟨bound.1, bound.2.1⟩

/-- A step that leaves the room and the source of a local track alone. -/
structure Stays (t t' : EndpointLocalTrack Selector) : Prop where
  track : t'.track = t.track
  room : t'.room = t.room
  source : t'.source = t.source

theorem Stays.refl (t : EndpointLocalTrack Selector) : Stays t t := ⟨rfl, rfl, rfl⟩

theorem Stays.trans {t t' t'' : EndpointLocalTrack Selector} (h : Stays t t') (h' : Stays t' t'') :
    Stays t t'' :=
  ⟨h'.track.trans h.track, h'.room.trans h.room, h'.source.trans h.source⟩

theorem stays_push (t : EndpointLocalTrack Selector) (outs : List LocalTrack.Output) :
    Stays t (t.push outs) := ⟨rfl, rfl, rfl⟩

theorem stays_selector (t : EndpointLocalTrack Selector) (selector : Selector) :
    Stays t { t with selector := selector } := ⟨rfl, rfl, rfl⟩

theorem stays_popSelector (api : SelectorApi Selector) (t : EndpointLocalTrack Selector)
    (nowMs : Nat) : Stays t (t.popSelector api nowMs) := by
  unfold popSelector
  split
  · exact Stays.refl t
  · exact (t.stays_selector _).trans (stays_push _ _)

/-- A status is not part of the source. -/
theorem stays_status {t : EndpointLocalTrack Selector} {peer : PeerId} {track : TrackName}
    {status : LocalTrack.Status} (h : t.bind = some (peer, track, status))
    (status' : LocalTrack.Status) : Stays t { t with bind := some (peer, track, status') } := by
  refine ⟨rfl, rfl, ?_⟩
  rw [source, source, h]
  rfl

theorem stays_activate (t : EndpointLocalTrack Selector) (nowMs : Nat) :
    Stays t (t.activate nowMs) := by
  unfold activate
  split
  · exact Stays.refl t
  · rename_i hbind
    exact stays_status hbind _
  · rename_i hbind
    exact (stays_status hbind _).trans (stays_push _ _)

theorem stays_detectVoice (t : EndpointLocalTrack Selector) (nowMs : Nat) (pkt : MediaPacket) :
    Stays t (t.detectVoice nowMs pkt) := by
  unfold detectVoice
  split
  · dsimp only
    split
    · exact ⟨rfl, rfl, rfl⟩
    · exact ⟨rfl, rfl, rfl⟩
  · exact Stays.refl t

variable (api : SelectorApi Selector) (timestampMs : Instant → Nat)

theorem stays_onTick (now : Instant) (t : EndpointLocalTrack Selector) :
    Stays t (onTick api timestampMs now t) := by
  have hpopped := (t.stays_selector (api.onTick t.selector (timestampMs now))).trans
    (stays_popSelector api _ (timestampMs now))
  dsimp only [onTick]
  split
  · rename_i hbind
    split
    · exact (hpopped.trans (stays_status hbind _)).trans (stays_push _ _)
    · exact hpopped
  · exact hpopped

theorem stays_onClusterEvent (now : Instant) (t : EndpointLocalTrack Selector)
    (event : ClusterLocalTrackEvent) : Stays t (t.onClusterEvent api timestampMs now event) := by
  cases event with
  | relayChanged =>
    dsimp only [onClusterEvent]
    split
    · split
      · exact Stays.refl t
      · exact t.stays_push _
    · exact Stays.refl t
  | sourceChanged => exact t.stays_selector _
  | media channel pkt =>
    dsimp only [onClusterEvent]
    have hselector := t.stays_selector (api.select t.selector (timestampMs now) channel pkt).2
    split
    · exact hselector
    · rename_i selected _
      exact (((hselector.trans (stays_popSelector api _ (timestampMs now))).trans
        (stays_activate _ (timestampMs now))).trans
        (stays_detectVoice _ (timestampMs now) selected)).trans (stays_push _ _)

theorem stays_onBitrateAllocationAction (now : Instant) (t : EndpointLocalTrack Selector)
    (action : EgressAction) :
    Stays t (t.onBitrateAllocationAction api timestampMs now action) := by
  cases action with
  | setBitrate bitrate =>
    have hpopped := (t.stays_selector (api.setTargetBitrate t.selector (timestampMs now)
      bitrate)).trans (stays_popSelector api _ (timestampMs now))
    dsimp only [onBitrateAllocationAction]
    split
    · exact hpopped
    · exact hpopped.trans (stays_push _ _)

/-- In a room an attach is always granted, whatever the local track was bound to. -/
theorem onRpcReq_attach {t : EndpointLocalTrack Selector} (hroom : t.room.isSome = true)
    (now : Instant) (reqId : EndpointReqId) (wanted : TrackSource)
    {config : EndpointLocalTrackConfig} (hpriority : config.priority ≠ 0) :
    (t.onRpcReq api timestampMs now reqId (.attach wanted config)).track = t.track ∧
      (t.onRpcReq api timestampMs now reqId (.attach wanted config)).room = t.room ∧
      (t.onRpcReq api timestampMs now reqId (.attach wanted config)).source = some wanted := by
  obtain ⟨room, hroom⟩ := Option.isSome_iff_exists.mp hroom
  simp only [onRpcReq, if_neg hpriority, hroom]
  refine ⟨?_, ?_, rfl⟩
  · simp only [attach, unbindCurrent]
    split <;> rfl
  · simp only [attach, unbindCurrent]
    split <;> exact hroom

theorem onRpcReq_detach {t : EndpointLocalTrack Selector} (hroom : t.room.isSome = true)
    (now : Instant) (reqId : EndpointReqId) :
    (t.onRpcReq api timestampMs now reqId .detach).track = t.track ∧
      (t.onRpcReq api timestampMs now reqId .detach).room = t.room ∧
      (t.onRpcReq api timestampMs now reqId .detach).source = none := by
  obtain ⟨room, hroom⟩ := Option.isSome_iff_exists.mp hroom
  cases hbind : t.bind with
  | none =>
    simp only [onRpcReq, hroom, hbind]
    exact ⟨rfl, hroom, by rw [source]; exact congrArg (Option.map _) hbind⟩
  | some bound =>
    simp only [onRpcReq, hroom, hbind]
    exact ⟨rfl, rfl, rfl⟩

end MediaServer.Endpoint.EndpointLocalTrack

namespace MediaServer.Transport

open Machine Endpoint

/-- A transport and the local track that executes its requests. -/
structure RtpEngineLeg (Selector : Type) where
  transport : TransportRtpEngine
  localTrack : EndpointLocalTrack Selector

namespace RtpEngineLeg

variable {Selector : Type}

/-- What happens to a leg: an event of the endpoint for the transport, or one of the room, the
    clock and the allocator for the local track. -/
inductive Input where
  | endpoint (now : Instant) (event : EndpointEvent) (pcma : Option Bytes)
  | cluster (now : Instant) (event : ClusterLocalTrackEvent)
  | bitrateAllocation (now : Instant) (action : EgressAction)
  | tick (now : Instant)

section Step

variable (api : SelectorApi Selector) (timestampMs : Instant → Nat)

/-- The local track executes the requests that are for it. -/
def execute (now : Instant) (t : EndpointLocalTrack Selector) :
    RtpEngine.Output → EndpointLocalTrack Selector
  | .rpcReq reqId (.localTrack id req) =>
      if id = t.track then t.onRpcReq api timestampMs now reqId req else t
  | _ => t

/-- What an event makes the transport queue is executed at once and in order. -/
def step (leg : RtpEngineLeg Selector) : Input → RtpEngineLeg Selector
  | .endpoint now event pcma =>
      let transport := leg.transport.onEvent now pcma event
      { transport := transport
        localTrack := (transport.queue.drop leg.transport.queue.length).foldl
          (execute api timestampMs now) leg.localTrack }
  | .cluster now event =>
      { leg with localTrack := leg.localTrack.onClusterEvent api timestampMs now event }
  | .bitrateAllocation now action =>
      { leg with
          localTrack := leg.localTrack.onBitrateAllocationAction api timestampMs now action }
  | .tick now =>
      { leg with localTrack := EndpointLocalTrack.onTick api timestampMs now leg.localTrack }

theorem onEvent_appends (t : TransportRtpEngine) (now : Instant) (pcma : Option Bytes)
    (event : EndpointEvent) : t.queue <+: (t.onEvent now pcma event).queue := by
  unfold TransportRtpEngine.onEvent
  split
  · split
    · exact List.prefix_rfl
    · exact List.prefix_append ..
  · split
    · exact List.prefix_rfl
    · exact List.prefix_append ..
  · dsimp only
    split
    · exact List.prefix_append ..
    · exact List.prefix_rfl
  · exact List.prefix_rfl

/-- A transport with nothing left to hand out, whose local track has joined a room. -/
def machine (transport : TransportRtpEngine) (room : ClusterRoomHash) :
    Machine (RtpEngineLeg Selector) Input RtpEngine.Output where
  init :=
    { transport := { transport with queue := [] }
      localTrack := .new api TransportRtpEngine.localAudioTrack .audio (some room) }
  step leg input := .ok (leg.step api timestampMs input)
  queue leg := leg.transport.queue
  dropFront leg := { leg with transport.queue := leg.transport.queue.tail }
  queue_init := rfl
  queue_dropFront _ := rfl
  step_appends := by
    intro leg input leg' h
    cases h
    cases input with
    | endpoint now event pcma => exact onEvent_appends leg.transport now pcma event
    | cluster | bitrateAllocation | tick => exact List.prefix_rfl

end Step

/-! ### What is live and what is listened to -/

/-- The tracks that are live after a history. -/
def liveOf (history : History Input RtpEngine.Output) : LiveTracks :=
  history.foldl (fun live entry => match entry.1 with
    | .endpoint _ event _ => live.onEvent event
    | _ => live) []

/-- A live audio track of another peer. -/
def Audible (leg : RtpEngineLeg Selector) (live : LiveTracks) (source : TrackSource) : Prop :=
  (source, .audio) ∈ live ∧ source.peer ≠ leg.transport.peer

/-- What the claim says after every event. -/
structure Listens (live : LiveTracks) (leg : RtpEngineLeg Selector) : Prop where
  attached : leg.localTrack.source.isSome = true ↔ ∃ source, leg.Audible live source
  bound : ∀ source, leg.localTrack.source = some source → leg.Audible live source

/-- The events of each track alternate. -/
def Alternate : Contract (RtpEngineLeg Selector) Input RtpEngine.Output :=
  fun history _ input => match input with
    | .endpoint _ event _ => (liveOf history).InTurn event
    | _ => True

/-- The condition on a run: other peers start audio only, and of their tracks only the last one
    stops. -/
def Steady : Contract (RtpEngineLeg Selector) Input RtpEngine.Output :=
  fun history leg input => match input with
    | .endpoint _ (.peerTrackStarted peer _ trackMeta) _ =>
        peer ≠ leg.transport.peer → trackMeta.kind = .audio
    | .endpoint _ (.peerTrackStopped peer track _) _ =>
        peer ≠ leg.transport.peer →
          ∀ source, leg.Audible (liveOf history) source → source = ⟨peer, track⟩
    | _ => True

theorem liveOf_concat (history : History Input RtpEngine.Output) (input : Input)
    (pushed : List RtpEngine.Output) :
    liveOf (history ++ [(input, pushed)]) = match input with
      | .endpoint _ event _ => (liveOf history).onEvent event
      | _ => liveOf history := by
  rw [liveOf, List.foldl_append]
  rfl

/-- The leg listens, and other peers have nothing but audio. -/
structure Settled (live : LiveTracks) (leg : RtpEngineLeg Selector) : Prop where
  room : leg.localTrack.room.isSome = true
  track : leg.localTrack.track = TransportRtpEngine.localAudioTrack
  voices : ∀ source kind, (source, kind) ∈ live → source.peer ≠ leg.transport.peer → kind = .audio
  listens : Listens live leg

/-- Nothing changed that the leg listens to. -/
theorem Settled.stays {live live' : LiveTracks} {leg leg' : RtpEngineLeg Selector}
    (h : Settled live leg) (hpeer : leg'.transport.peer = leg.transport.peer)
    (hstays : EndpointLocalTrack.Stays leg.localTrack leg'.localTrack)
    (hlive : ∀ source kind, source.peer ≠ leg.transport.peer →
      ((source, kind) ∈ live' ↔ (source, kind) ∈ live)) : Settled live' leg' := by
  have haudible : ∀ source, leg'.Audible live' source ↔ leg.Audible live source := by
    intro source
    rw [Audible, Audible, hpeer]
    exact ⟨fun ⟨hmem, hne⟩ => ⟨(hlive _ _ hne).mp hmem, hne⟩,
      fun ⟨hmem, hne⟩ => ⟨(hlive _ _ hne).mpr hmem, hne⟩⟩
  refine ⟨?_, ?_, fun source kind hmem hne => ?_, ⟨?_, fun source hsource => ?_⟩⟩
  · rw [hstays.room]
    exact h.room
  · rw [hstays.track]
    exact h.track
  · rw [hpeer] at hne
    exact h.voices source kind ((hlive _ _ hne).mp hmem) hne
  · rw [hstays.source]
    simp only [haudible]
    exact h.listens.attached
  · rw [haudible]
    rw [hstays.source] at hsource
    exact h.listens.bound source hsource

section Steps

variable (api : SelectorApi Selector) (timestampMs : Instant → Nat)

/-- The one request an event makes the transport queue is executed. -/
theorem step_request {leg : RtpEngineLeg Selector}
    (htrack : leg.localTrack.track = TransportRtpEngine.localAudioTrack) {now : Instant}
    {event : EndpointEvent} {pcma : Option Bytes} {reqId : EndpointReqId}
    {req : EndpointLocalTrackReq}
    (h : leg.transport.onEvent now pcma event = leg.transport.push
      [.rpcReq reqId (.localTrack TransportRtpEngine.localAudioTrack req)]) :
    leg.step api timestampMs (.endpoint now event pcma) =
      { transport := leg.transport.push
          [.rpcReq reqId (.localTrack TransportRtpEngine.localAudioTrack req)]
        localTrack := leg.localTrack.onRpcReq api timestampMs now reqId req } := by
  dsimp only [step]
  rw [h]
  simp only [TransportRtpEngine.push, List.drop_left, List.foldl_cons, List.foldl_nil, execute,
    htrack, if_true]

/-- **A start of another peer**: the leg is attached to the track, whatever it was attached to. -/
theorem step_started {leg : RtpEngineLeg Selector} {live : LiveTracks} (h : Settled live leg)
    {peer : PeerId} (hpeer : peer ≠ leg.transport.peer) (now : Instant) (track : TrackName)
    (trackMeta : TrackMeta) (pcma : Option Bytes) {leg' : RtpEngineLeg Selector}
    (hstep : leg.step api timestampMs
      (.endpoint now (.peerTrackStarted peer track trackMeta) pcma) = leg') :
    leg'.transport.peer = leg.transport.peer ∧ leg'.localTrack.track = leg.localTrack.track ∧
      leg'.localTrack.room = leg.localTrack.room ∧
      leg'.localTrack.source = some ⟨peer, track⟩ := by
  have hrequest : leg.transport.onEvent now pcma (.peerTrackStarted peer track trackMeta) =
      leg.transport.push [.rpcReq 1 (.localTrack TransportRtpEngine.localAudioTrack
        (.attach ⟨peer, track⟩ ⟨TransportRtpEngine.defaultPriority, 2, 2, none, none⟩))] :=
    if_neg fun heq => hpeer heq.symm
  rw [step_request api timestampMs h.track hrequest] at hstep
  subst hstep
  exact ⟨rfl, EndpointLocalTrack.onRpcReq_attach api timestampMs h.room now 1 _ (by decide)⟩

/-- **A stop of another peer**: the leg is detached, whatever it was attached to. -/
theorem step_stopped {leg : RtpEngineLeg Selector} {live : LiveTracks} (h : Settled live leg)
    {peer : PeerId} (hpeer : peer ≠ leg.transport.peer) (now : Instant) (track : TrackName)
    (trackMeta : TrackMeta) (pcma : Option Bytes) {leg' : RtpEngineLeg Selector}
    (hstep : leg.step api timestampMs
      (.endpoint now (.peerTrackStopped peer track trackMeta) pcma) = leg') :
    leg'.transport.peer = leg.transport.peer ∧ leg'.localTrack.track = leg.localTrack.track ∧
      leg'.localTrack.room = leg.localTrack.room ∧ leg'.localTrack.source = none := by
  have hrequest : leg.transport.onEvent now pcma (.peerTrackStopped peer track trackMeta) =
      leg.transport.push [.rpcReq 1 (.localTrack TransportRtpEngine.localAudioTrack .detach)] :=
    if_neg fun heq => hpeer heq.symm
  rw [step_request api timestampMs h.track hrequest] at hstep
  subst hstep
  exact ⟨rfl, EndpointLocalTrack.onRpcReq_detach api timestampMs h.room now 1⟩

/-- An event that makes the transport queue no request. -/
theorem step_unheard {leg : RtpEngineLeg Selector} {now : Instant} {event : EndpointEvent}
    {pcma : Option Bytes} {outs : List BackendOutgoing}
    (hpeer : (leg.transport.onEvent now pcma event).peer = leg.transport.peer)
    (hqueue : (leg.transport.onEvent now pcma event).queue = leg.transport.queue ++ outs.map .net) :
    (leg.step api timestampMs (.endpoint now event pcma)).transport.peer = leg.transport.peer ∧
      (leg.step api timestampMs (.endpoint now event pcma)).localTrack = leg.localTrack := by
  refine ⟨hpeer, ?_⟩
  dsimp only [step]
  rw [hqueue, List.drop_left]
  clear hpeer hqueue
  induction outs with
  | nil => rfl
  | cons out outs ih => exact ih

/-- What a leg does with everything but the tracks of other peers. -/
theorem Settled.other {leg : RtpEngineLeg Selector} {live : LiveTracks} (h : Settled live leg)
    {now : Instant} {event : EndpointEvent} {pcma : Option Bytes}
    (hstart : ∀ peer track trackMeta, event = .peerTrackStarted peer track trackMeta →
      peer = leg.transport.peer)
    (hstop : ∀ peer track trackMeta, event = .peerTrackStopped peer track trackMeta →
      peer = leg.transport.peer) :
    Settled (live.onEvent event) (leg.step api timestampMs (.endpoint now event pcma)) := by
  have hunheard : ∃ outs : List BackendOutgoing,
      (leg.transport.onEvent now pcma event).peer = leg.transport.peer ∧
      (leg.transport.onEvent now pcma event).queue = leg.transport.queue ++ outs.map .net := by
    cases event with
    | peerTrackStarted peer track trackMeta =>
      have hown : leg.transport.onEvent now pcma (.peerTrackStarted peer track trackMeta) =
          leg.transport := if_pos (hstart _ _ _ rfl).symm
      rw [hown]
      exact ⟨[], rfl, (List.append_nil _).symm⟩
    | peerTrackStopped peer track trackMeta =>
      have hown : leg.transport.onEvent now pcma (.peerTrackStopped peer track trackMeta) =
          leg.transport := if_pos (hstop _ _ _ rfl).symm
      rw [hown]
      exact ⟨[], rfl, (List.append_nil _).symm⟩
    | localMediaTrack track event =>
      cases event with
      | media pkt =>
        dsimp only [TransportRtpEngine.onEvent]
        split
        · exact ⟨[_], rfl, rfl⟩
        · exact ⟨[], rfl, (List.append_nil _).symm⟩
      | status | voiceActivity => exact ⟨[], rfl, (List.append_nil _).symm⟩
    | peerJoined | peerLeaved | audioMixer | remoteMediaTrack | bweConfig | channelMessage =>
      exact ⟨[], rfl, (List.append_nil _).symm⟩
  have hlive : ∀ source kind, source.peer ≠ leg.transport.peer →
      ((source, kind) ∈ live.onEvent event ↔ (source, kind) ∈ live) := by
    intro source kind hne
    cases event with
    | peerTrackStarted peer track trackMeta =>
      rw [LiveTracks.mem_onEvent_started, or_iff_left]
      intro heq
      cases heq
      exact hne (hstart _ _ _ rfl)
    | peerTrackStopped peer track trackMeta =>
      rw [LiveTracks.mem_onEvent_stopped, and_iff_left]
      rintro rfl
      exact hne (hstop _ _ _ rfl)
    | _ => exact Iff.rfl
  obtain ⟨outs, hpeer, hqueue⟩ := hunheard
  obtain ⟨hsame, hkept⟩ := step_unheard api timestampMs hpeer hqueue
  refine h.stays hsame ?_ hlive
  rw [hkept]
  exact EndpointLocalTrack.Stays.refl _

/-- A start of another peer brings about what the claim says exactly if it is a start of audio. -/
theorem Settled.started {leg : RtpEngineLeg Selector} {live : LiveTracks} (h : Settled live leg)
    {peer : PeerId} (hpeer : peer ≠ leg.transport.peer) {track : TrackName}
    (hturn : (⟨peer, track⟩ : TrackSource) ∉ live.map Prod.fst) (now : Instant)
    (trackMeta : TrackMeta) (pcma : Option Bytes) {leg' : RtpEngineLeg Selector}
    (hstep : leg.step api timestampMs
      (.endpoint now (.peerTrackStarted peer track trackMeta) pcma) = leg') :
    (Listens (live.onEvent (.peerTrackStarted peer track trackMeta)) leg' →
        trackMeta.kind = .audio) ∧
      (trackMeta.kind = .audio →
        Settled (live.onEvent (.peerTrackStarted peer track trackMeta)) leg') := by
  obtain ⟨hsame, htrack, hroom, hsource⟩ :=
    step_started api timestampMs h hpeer now track trackMeta pcma hstep
  refine ⟨fun hlistens => ?_, fun hkind => ?_⟩
  · obtain ⟨hmem, -⟩ := hlistens.bound _ hsource
    rcases LiveTracks.mem_onEvent_started.mp hmem with hold | hnew
    · exact absurd (List.mem_map_of_mem (f := Prod.fst) hold) hturn
    · exact (congrArg Prod.snd hnew).symm
  · have hnew : leg'.Audible (live.onEvent (.peerTrackStarted peer track trackMeta))
        ⟨peer, track⟩ := by
      refine ⟨LiveTracks.mem_onEvent_started.mpr (Or.inr ?_), ?_⟩
      · rw [hkind]
      · rw [hsame]
        exact hpeer
    refine ⟨?_, htrack.trans h.track, fun source kind hmem hne => ?_, ⟨?_, fun source heq => ?_⟩⟩
    · rw [hroom]
      exact h.room
    · rcases LiveTracks.mem_onEvent_started.mp hmem with hold | hlast
      · exact h.voices source kind hold (hsame ▸ hne)
      · cases hlast
        exact hkind
    · rw [hsource]
      exact ⟨fun _ => ⟨_, hnew⟩, fun _ => rfl⟩
    · rw [hsource] at heq
      cases heq
      exact hnew

/-- A stop of another peer brings about what the claim says exactly if nothing else is audible. -/
theorem Settled.stopped {leg : RtpEngineLeg Selector} {live : LiveTracks} (h : Settled live leg)
    {peer : PeerId} (hpeer : peer ≠ leg.transport.peer) (now : Instant) (track : TrackName)
    (trackMeta : TrackMeta) (pcma : Option Bytes) {leg' : RtpEngineLeg Selector}
    (hstep : leg.step api timestampMs
      (.endpoint now (.peerTrackStopped peer track trackMeta) pcma) = leg') :
    (Listens (live.onEvent (.peerTrackStopped peer track trackMeta)) leg' →
        ∀ source, leg.Audible live source → source = ⟨peer, track⟩) ∧
      ((∀ source, leg.Audible live source → source = ⟨peer, track⟩) →
        Settled (live.onEvent (.peerTrackStopped peer track trackMeta)) leg') := by
  obtain ⟨hsame, htrack, hroom, hsource⟩ :=
    step_stopped api timestampMs h hpeer now track trackMeta pcma hstep
  have haudible : ∀ source,
      leg'.Audible (live.onEvent (.peerTrackStopped peer track trackMeta)) source ↔
        leg.Audible live source ∧ source ≠ ⟨peer, track⟩ := by
    intro source
    rw [Audible, Audible, LiveTracks.mem_onEvent_stopped, hsame]
    exact and_right_comm
  refine ⟨fun hlistens source hlive => ?_, fun hlast => ?_⟩
  · by_contra hne
    have hattached := hlistens.attached.mpr ⟨source, (haudible source).mpr ⟨hlive, hne⟩⟩
    rw [hsource] at hattached
    cases hattached
  · refine ⟨?_, htrack.trans h.track, fun source kind hmem hne => ?_, ⟨?_, fun source heq => ?_⟩⟩
    · rw [hroom]
      exact h.room
    · exact h.voices source kind (LiveTracks.mem_onEvent_stopped.mp hmem).1 (hsame ▸ hne)
    · rw [hsource]
      refine ⟨fun hnone => ?_, fun ⟨source, hleft⟩ => ?_⟩
      · cases hnone
      obtain ⟨hlive, hne⟩ := (haudible source).mp hleft
      exact absurd (hlast source hlive) hne
    · rw [hsource] at heq
      cases heq

/-- What happens to the local track besides requests leaves its source alone. -/
theorem Settled.onLocalTrack {leg : RtpEngineLeg Selector} {live : LiveTracks}
    (h : Settled live leg) {localTrack : EndpointLocalTrack Selector}
    (hstays : EndpointLocalTrack.Stays leg.localTrack localTrack) :
    Settled live { leg with localTrack := localTrack } :=
  h.stays rfl hstays fun _ _ _ => Iff.rfl

/-- **Every step brings about what the claim says exactly if it meets the condition.** -/
theorem step_settled_iff {history : History Input RtpEngine.Output} {leg : RtpEngineLeg Selector}
    {input : Input} (h : Settled (liveOf history) leg) (hturn : Alternate history leg input)
    (pushed : List RtpEngine.Output) :
    (Listens (liveOf (history ++ [(input, pushed)])) (leg.step api timestampMs input) →
        Steady history leg input) ∧
      (Steady history leg input →
        Settled (liveOf (history ++ [(input, pushed)])) (leg.step api timestampMs input)) := by
  rw [liveOf_concat]
  cases input with
  | cluster now event =>
    exact ⟨fun _ => trivial, fun _ =>
      h.onLocalTrack (EndpointLocalTrack.stays_onClusterEvent api timestampMs now _ event)⟩
  | bitrateAllocation now action =>
    exact ⟨fun _ => trivial, fun _ => h.onLocalTrack
      (EndpointLocalTrack.stays_onBitrateAllocationAction api timestampMs now _ action)⟩
  | tick now =>
    exact ⟨fun _ => trivial, fun _ =>
      h.onLocalTrack (EndpointLocalTrack.stays_onTick api timestampMs now _)⟩
  | endpoint now event pcma =>
    cases event with
    | peerTrackStarted peer track trackMeta =>
      by_cases hpeer : peer = leg.transport.peer
      · refine ⟨fun _ hne => absurd hpeer hne, fun _ => h.other api timestampMs ?_ ?_⟩
        · rintro peer' track' trackMeta' heq
          cases heq
          exact hpeer
        · rintro peer' track' trackMeta' heq
          cases heq
      · have hboth := h.started api timestampMs hpeer hturn now trackMeta pcma rfl
        exact ⟨fun hlistens _ => hboth.1 hlistens, fun hsteady => hboth.2 (hsteady hpeer)⟩
    | peerTrackStopped peer track trackMeta =>
      by_cases hpeer : peer = leg.transport.peer
      · refine ⟨fun _ hne => absurd hpeer hne, fun _ => h.other api timestampMs ?_ ?_⟩
        · rintro peer' track' trackMeta' heq
          cases heq
        · rintro peer' track' trackMeta' heq
          cases heq
          exact hpeer
      · have hboth := h.stopped api timestampMs hpeer now track trackMeta pcma rfl
        exact ⟨fun hlistens _ => hboth.1 hlistens, fun hsteady => hboth.2 (hsteady hpeer)⟩
    | _ =>
      refine ⟨fun _ => trivial, fun _ => h.other api timestampMs ?_ ?_⟩
      · rintro peer' track' trackMeta' heq
        cases heq
      · rintro peer' track' trackMeta' heq
        cases heq

variable (transport : TransportRtpEngine) (room : ClusterRoomHash)

theorem settled_init : Settled [] (machine api timestampMs transport room).init := by
  refine ⟨rfl, rfl, fun source kind hmem => ?_, ⟨⟨fun hsome => ?_, ?_⟩, fun source heq => ?_⟩⟩
  · cases hmem
  · cases hsome
  · rintro ⟨source, hmem, -⟩
    cases hmem
  · cases heq

/-- **A SIP leg listens to a live audio track exactly in the runs in which other peers start audio
    only, and a track of theirs stops only when it is the last one.** -/
theorem listens_iff_steady {acts : List (Action Input)}
    {c : Config (RtpEngineLeg Selector) Input RtpEngine.Output}
    (hturn : (machine api timestampMs transport room).Admits Alternate acts)
    (hrun : (machine api timestampMs transport room).run acts = .ok c) :
    (machine api timestampMs transport room).Always
        (fun history leg => Listens (liveOf history) leg) acts ↔
      (machine api timestampMs transport room).Admits Steady acts := by
  have hholds : ∀ (history : History Input RtpEngine.Output) (leg : RtpEngineLeg Selector),
      Settled (liveOf history) leg → Listens (liveOf history) leg := fun _ _ h => h.listens
  refine always_iff_admits (settled_init api timestampMs transport room) hholds ?_ ?_ hturn hrun
  · rintro history leg input leg' hsettled hturns hstep
    cases hstep
    exact step_settled_iff api timestampMs hsettled hturns _
  · intro history leg hsettled
    exact hsettled.stays rfl (EndpointLocalTrack.Stays.refl _) fun _ _ _ => Iff.rfl

end Steps

instance (history : History Input RtpEngine.Output) (leg : RtpEngineLeg Selector) (input : Input) :
    Decidable (Alternate history leg input) := by
  unfold Alternate
  split <;> infer_instance

/-- A connected leg, with a selector that lets every packet pass. -/
def phone : Machine (RtpEngineLeg Unit) Input RtpEngine.Output :=
  machine Env.passAll.selector Env.passAll.timestampMs
    { TransportRtpEngine.newOffer "room" "phone" ("ip", 5060) 0 with
        answered := true, connected := true } 7

/-- Two peers talk one after the other. -/
def takeTurns : List (Action Input) :=
  [.input (.endpoint 0 (.peerTrackStarted "alice" "mic" .defaultAudio) none), .pop,
    .input (.endpoint 1 (.peerTrackStopped "alice" "mic" .defaultAudio) none), .input (.tick 2),
    .input (.endpoint 3 (.peerTrackStarted "bob" "mic" .defaultAudio) none)]

theorem listens_iff_steady_takeTurns :
    ∃ c, phone.run takeTurns = .ok c ∧
      c.state.localTrack.source = some ⟨"bob", "mic"⟩ ∧
      (phone.Always (fun history leg => Listens (liveOf history) leg) takeTurns ↔
        phone.Admits Steady takeTurns) := by
  have hrun : ∃ c, phone.run takeTurns = .ok c ∧
      c.state.localTrack.source = some ⟨"bob", "mic"⟩ := ⟨_, rfl, by decide⟩
  obtain ⟨c, hc, hsource⟩ := hrun
  exact ⟨c, hc, hsource, listens_iff_steady Env.passAll.selector Env.passAll.timestampMs _ 7
    (show phone.Admits Alternate takeTurns from AdmitsFrom.admits (by decide)) hc⟩

/-- Two peers talk, and one of them leaves. -/
def oneLeaves : List (Action Input) :=
  [.input (.endpoint 0 (.peerTrackStarted "alice" "mic" .defaultAudio) none),
    .input (.endpoint 1 (.peerTrackStarted "bob" "mic" .defaultAudio) none),
    .input (.endpoint 2 (.peerTrackStopped "alice" "mic" .defaultAudio) none)]

/-- A peer talks and switches a camera on. -/
def cameraOn : List (Action Input) :=
  [.input (.endpoint 0 (.peerTrackStarted "alice" "mic" .defaultAudio) none),
    .input (.endpoint 1 (.peerTrackStarted "alice" "camera"
      ⟨.video, .none, .maxBitrate, none⟩) none)]

/-- When one of two peers leaves nobody is heard, and a camera takes the place of the voice. -/
theorem not_listens :
    (∃ c, phone.run oneLeaves = .ok c ∧ phone.Admits Alternate oneLeaves ∧
      c.state.localTrack.source = none ∧ liveOf c.history = [(⟨"bob", "mic"⟩, .audio)] ∧
      ¬phone.Always (fun history leg => Listens (liveOf history) leg) oneLeaves) ∧
    (∃ c, phone.run cameraOn = .ok c ∧ phone.Admits Alternate cameraOn ∧
      c.state.localTrack.source = some ⟨"alice", "camera"⟩ ∧
      liveOf c.history = [(⟨"alice", "mic"⟩, .audio), (⟨"alice", "camera"⟩, .video)] ∧
      ¬phone.Always (fun history leg => Listens (liveOf history) leg) cameraOn) := by
  constructor
  · refine ⟨_, rfl, AdmitsFrom.admits (by decide), by decide, by decide, fun h => ?_⟩
    have hattached := (h.last (c := _) rfl).attached.mpr
      ⟨⟨"bob", "mic"⟩, by decide, by decide⟩
    exact absurd hattached (by decide)
  · refine ⟨_, rfl, AdmitsFrom.admits (by decide), by decide, by decide, fun h => ?_⟩
    have hbound := (h.last (c := _) rfl).bound ⟨"alice", "camera"⟩ (by decide)
    exact absurd hbound.1 (by decide)

end RtpEngineLeg

end MediaServer.Transport
