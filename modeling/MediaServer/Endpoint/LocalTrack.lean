import MediaServer.Endpoint.BitrateAllocator
import MediaServer.Lib.TaskGroup

/-!
# Local track

`media_core/src/endpoint/internal/local_track.rs`: the task of one track that the
client receives.  It is bound to at most one published track of the room at a
time, subscribes to it, and forwards the packets its selector lets through.

The packet selector (`packet_selector.rs`) is a parameter: which packets pass, and
when it asks for a key frame, plays no part in what the task tells the room
except for the number of key-frame requests.  The `TimePivot` of the SDN, which
turns an instant into a millisecond timestamp, is a parameter as well.
-/

namespace MediaServer.Endpoint

open Runtime

/-- The operations of `PacketSelector` that a local track uses.  `popOutput` gives
    all the key-frame requests that its loop would pop, as a count. -/
structure SelectorApi (Selector : Type) where
  new : (kind : MediaKind) → (maxSpatial maxTemporal : UInt8) → Selector
  onTick : Selector → (nowMs : Nat) → Selector
  reset : Selector → Selector
  setTargetBitrate : Selector → (nowMs : Nat) → (bitrate : UInt64) → Selector
  setLimitLayer : Selector → (nowMs : Nat) → (maxSpatial maxTemporal : UInt8) → Selector
  select : Selector → (nowMs : Nat) → (channel : UInt64) → MediaPacket →
    Option MediaPacket × Selector
  popOutput : Selector → (nowMs : Nat) → Nat × Selector

namespace LocalTrack

def mediaTimeoutMs : Nat := 2000

inductive Input where
  | joinRoom (room : ClusterRoomHash)
  | leaveRoom
  | cluster (event : ClusterLocalTrackEvent)
  | event (event : LocalTrackEvent)
  | rpcReq (reqId : EndpointReqId) (req : EndpointLocalTrackReq)
  | bitrateAllocation (action : EgressAction)

inductive Output where
  | event (event : EndpointLocalTrackEvent)
  | cluster (room : ClusterRoomHash) (control : ClusterLocalTrackControl)
  | peerEvent (ts : Instant) (event : PeerEvent)
  | rpcRes (reqId : EndpointReqId) (res : EndpointLocalTrackRes)
  | bind (kind : MediaKind) (priority : TrackPriority)
  | updated (kind : MediaKind) (priority : TrackPriority)
  | unbind (kind : MediaKind)
  | onResourceEmpty
deriving DecidableEq

inductive Status where
  | waiting
  | active (lastMediaTs : Nat)
  | inactive
deriving Repr

/-! ### Voice activity (`voice_activity.rs`) -/

def audioLevelThreshold : Int8 := -40
def voiceActivityInterval : Nat := 500

structure VoiceActivityDetector where
  lastActivity : Nat
deriving Repr

def VoiceActivityDetector.onAudio (d : VoiceActivityDetector) (now : Nat)
    (audioLevel : Option Int8) : Option Int8 × VoiceActivityDetector :=
  match audioLevel with
  | none => (none, d)
  | some level =>
      if audioLevelThreshold ≤ level ∧ d.lastActivity + voiceActivityInterval ≤ now then
        (some level, ⟨now⟩)
      else (none, d)

end LocalTrack

open LocalTrack

variable {Selector : Type}

structure EndpointLocalTrack (Selector : Type) where
  track : LocalTrackId
  kind : MediaKind
  room : Option ClusterRoomHash
  bind : Option (PeerId × TrackName × Status)
  queue : List Output
  selector : Selector
  voiceActivity : VoiceActivityDetector
  shutdown : Bool

namespace EndpointLocalTrack

def push (t : EndpointLocalTrack Selector) (outs : List Output) : EndpointLocalTrack Selector :=
  { t with queue := t.queue ++ outs }

def isEmpty (t : EndpointLocalTrack Selector) : Bool := t.shutdown && t.queue.isEmpty

instance : TaskChild (EndpointLocalTrack Selector) Output where
  queue t := t.queue
  dropFront t := { t with queue := t.queue.tail }
  isEmpty := isEmpty
  emptyEvent _ := .onResourceEmpty
  queue_dropFront _ := rfl
  queue_of_isEmpty t h := by
    have := (Bool.and_eq_true_iff.mp h).2
    exact List.isEmpty_iff.mp this

/-- `*self.track as i32`. -/
def trackNumber (t : EndpointLocalTrack Selector) : Int32 := Int32.ofNat t.track.toNat

def onJoinRoom (t : EndpointLocalTrack Selector) (room : ClusterRoomHash) :
    Except Panic (EndpointLocalTrack Selector) :=
  match t.room, t.bind with
  | none, none => .ok { t with room := some room }
  | _, _ => .error ⟨"assertion `left == right` failed"⟩

/-- What a track queues when its room goes away under a subscription. -/
def leaveOutputs (t : EndpointLocalTrack Selector) (now : Instant) (room : ClusterRoomHash) :
    List Output :=
  match t.bind with
  | none => []
  | some (peer, track, _) =>
      [.cluster room .unsubscribe, .peerEvent now (.localTrackDetach t.trackNumber peer track)]

def onLeaveRoom (t : EndpointLocalTrack Selector) (now : Instant) :
    Except Panic (EndpointLocalTrack Selector) :=
  match t.room with
  | none => .error ⟨"assertion `left != right` failed"⟩
  | some room => .ok ({ t with room := none, bind := none }.push (t.leaveOutputs now room))

def onTransportEvent (t : EndpointLocalTrack Selector) :
    LocalTrackEvent → EndpointLocalTrack Selector
  | .started _ => t
  | .requestKeyFrame =>
      match t.room with
      | none => t
      | some room => t.push [.cluster room .requestKeyFrame]
  | .ended => t

def onShutdown (now : Instant) (t : EndpointLocalTrack Selector) :
    Except Panic (EndpointLocalTrack Selector) :=
  if t.shutdown then .ok t
  else
    let t := { t with shutdown := true }
    if t.room.isSome then t.onLeaveRoom now else .ok t

section Selecting

variable (api : SelectorApi Selector) (timestampMs : Instant → Nat)

def new (track : LocalTrackId) (kind : MediaKind) (room : Option ClusterRoomHash) :
    EndpointLocalTrack Selector where
  track := track
  kind := kind
  room := room
  bind := none
  queue := []
  selector := api.new kind 2 2
  voiceActivity := ⟨0⟩
  shutdown := false

/-- Outside a room the selector keeps its requests. -/
def popSelector (t : EndpointLocalTrack Selector) (nowMs : Nat) : EndpointLocalTrack Selector :=
  match t.room with
  | none => t
  | some room =>
      let (requests, selector) := api.popOutput t.selector nowMs
      { t with selector := selector }.push
        (List.replicate requests (.cluster room .requestKeyFrame))

/-- A packet passed: the binding becomes active, or stays so with a new timestamp. -/
def activate (t : EndpointLocalTrack Selector) (nowMs : Nat) : EndpointLocalTrack Selector :=
  match t.bind with
  | none => t
  | some (peer, track, .active _) => { t with bind := some (peer, track, .active nowMs) }
  | some (peer, track, _) =>
      { t with bind := some (peer, track, .active nowMs) }.push [.event (.status .active)]

/-- Report the speaker's level, at most once an interval. -/
def detectVoice (t : EndpointLocalTrack Selector) (nowMs : Nat) (pkt : MediaPacket) :
    EndpointLocalTrack Selector :=
  match pkt.mediaMeta with
  | .opus audioLevel =>
      let (level, detector) := t.voiceActivity.onAudio nowMs audioLevel
      let t := { t with voiceActivity := detector }
      match level with
      | some level => t.push [.event (.voiceActivity level)]
      | none => t
  | _ => t

def onClusterEvent (t : EndpointLocalTrack Selector) (now : Instant) :
    ClusterLocalTrackEvent → EndpointLocalTrack Selector
  | .relayChanged =>
      if t.kind.isVideo then
        match t.room with
        | none => t
        | some room => t.push [.cluster room .requestKeyFrame]
      else t
  | .sourceChanged => { t with selector := api.reset t.selector }
  | .media channel pkt =>
      let nowMs := timestampMs now
      let (selected, selector) := api.select t.selector nowMs channel pkt
      let t := { t with selector := selector }
      match selected with
      | none => t
      | some pkt =>
          (((t.popSelector api nowMs).activate nowMs).detectVoice nowMs pkt).push
            [.event (.media pkt)]

/-- Drop the current source before another one is attached. -/
def unbindCurrent (t : EndpointLocalTrack Selector) (room : ClusterRoomHash) :
    EndpointLocalTrack Selector :=
  match t.bind with
  | none => t
  | some _ => { t with bind := none }.push [.cluster room .unsubscribe, .unbind t.kind]

/-- Attach a source, in a room. -/
def attach (t : EndpointLocalTrack Selector) (now : Instant) (reqId : EndpointReqId)
    (room : ClusterRoomHash) (source : TrackSource) (config : EndpointLocalTrackConfig) :
    EndpointLocalTrack Selector :=
  let t := (t.push [.rpcRes reqId (.attach (.ok ()))]).unbindCurrent room
  let selector :=
    api.setLimitLayer t.selector (timestampMs now) config.maxSpatial config.maxTemporal
  { t with
      bind := some (source.peer, source.track, .waiting)
      selector := api.reset selector }.push
    [.bind t.kind config.priority, .cluster room (.subscribe source.peer source.track),
      .peerEvent now (.localTrackAttach t.trackNumber source.peer source.track)]

def onRpcReq (t : EndpointLocalTrack Selector) (now : Instant) (reqId : EndpointReqId) :
    EndpointLocalTrackReq → EndpointLocalTrack Selector
  | .attach source config =>
      if config.priority = 0 then
        t.push [.rpcRes reqId (.attach (.error (.new2 .localTrackInvalidPriority)))]
      else
        match t.room with
        | some room => t.attach api timestampMs now reqId room source config
        | none => t.push [.rpcRes reqId (.attach (.error (.new2 .endpointNotInRoom)))]
  | .detach =>
      match t.room, t.bind with
      | some room, some (peer, track, _) =>
          { t with bind := none }.push
            [.rpcRes reqId (.detach (.ok ())), .unbind t.kind, .cluster room .unsubscribe,
              .peerEvent now (.localTrackDetach t.trackNumber peer track)]
      | some _, none =>
          t.push [.rpcRes reqId (.detach (.error (.new2 .localTrackNotPinSource)))]
      | none, _ => t.push [.rpcRes reqId (.detach (.error (.new2 .endpointNotInRoom)))]
  | .config config =>
      let selector :=
        api.setLimitLayer t.selector (timestampMs now) config.maxSpatial config.maxTemporal
      { t with selector := selector }.push
        [.rpcRes reqId (.config (.ok ())), .updated t.kind config.priority]

def onBitrateAllocationAction (t : EndpointLocalTrack Selector) (now : Instant) :
    EgressAction → EndpointLocalTrack Selector
  | .setBitrate bitrate =>
      let nowMs := timestampMs now
      let t := { t with selector := api.setTargetBitrate t.selector nowMs bitrate }
      let t := t.popSelector api nowMs
      match t.room with
      | none => t
      | some room => t.push [.cluster room (.desiredBitrate bitrate)]

/-- A binding without media for two seconds becomes inactive. -/
def onTick (now : Instant) (t : EndpointLocalTrack Selector) : EndpointLocalTrack Selector :=
  let nowMs := timestampMs now
  let t := { t with selector := api.onTick t.selector nowMs }.popSelector api nowMs
  match t.bind with
  | some (peer, track, .active lastMediaTs) =>
      if lastMediaTs + mediaTimeoutMs ≤ nowMs then
        { t with bind := some (peer, track, .inactive) }.push [.event (.status .inactive)]
      else t
  | _ => t

def onEvent (now : Instant) (input : Input) (t : EndpointLocalTrack Selector) :
    Except Panic (EndpointLocalTrack Selector) :=
  match input with
  | .joinRoom room => t.onJoinRoom room
  | .leaveRoom => t.onLeaveRoom now
  | .cluster event => .ok (t.onClusterEvent api timestampMs now event)
  | .event event => .ok (t.onTransportEvent event)
  | .rpcReq reqId req => .ok (t.onRpcReq api timestampMs now reqId req)
  | .bitrateAllocation action => .ok (t.onBitrateAllocationAction api timestampMs now action)

end Selecting

/-! ### What a track tells its room -/

/-- The controls among a track's outputs. -/
def controlsOf (outs : List Output) : List (ClusterRoomHash × ClusterLocalTrackControl) :=
  outs.filterMap fun
    | .cluster room control => some (room, control)
    | _ => none

/-- The controls that wait in a track's queue. -/
def controls (t : EndpointLocalTrack Selector) :
    List (ClusterRoomHash × ClusterLocalTrackControl) :=
  controlsOf t.queue

theorem controlsOf_append (first second : List Output) :
    controlsOf (first ++ second) = controlsOf first ++ controlsOf second :=
  List.filterMap_append

/-- `OnResourceEmpty` is the empty event: no handler queues it. -/
def Plain (outs : List Output) : Prop := .onResourceEmpty ∉ outs

theorem Plain.append {first second : List Output} (h : Plain first) (h' : Plain second) :
    Plain (first ++ second) := by
  intro hmem
  rcases List.mem_append.mp hmem with hmem | hmem
  · exact h hmem
  · exact h' hmem

/-- The queue grew by outputs that tell the room `said`. -/
def Adds (t t' : EndpointLocalTrack Selector)
    (said : List (ClusterRoomHash × ClusterLocalTrackControl)) : Prop :=
  ∃ outs, t'.queue = t.queue ++ outs ∧ controlsOf outs = said ∧ Plain outs

theorem Adds.controls {t t' : EndpointLocalTrack Selector}
    {said : List (ClusterRoomHash × ClusterLocalTrackControl)} (h : t.Adds t' said) :
    t'.controls = t.controls ++ said := by
  obtain ⟨outs, hqueue, hsaid, -⟩ := h
  rw [EndpointLocalTrack.controls, hqueue, controlsOf_append, hsaid]
  rfl

theorem Adds.plain {t t' : EndpointLocalTrack Selector}
    {said : List (ClusterRoomHash × ClusterLocalTrackControl)} (h : t.Adds t' said)
    (hplain : Plain t.queue) : Plain t'.queue := by
  obtain ⟨outs, hqueue, -, houts⟩ := h
  rw [hqueue]
  exact hplain.append houts

theorem adds_nothing {t t' : EndpointLocalTrack Selector} (h : t'.queue = t.queue) :
    t.Adds t' [] :=
  ⟨[], by rw [h, List.append_nil], rfl, by simp [Plain]⟩

theorem Adds.trans {t t' t'' : EndpointLocalTrack Selector}
    {said said' : List (ClusterRoomHash × ClusterLocalTrackControl)} (h : t.Adds t' said)
    (h' : t'.Adds t'' said') : t.Adds t'' (said ++ said') := by
  obtain ⟨outs, hqueue, hsaid, houts⟩ := h
  obtain ⟨outs', hqueue', hsaid', houts'⟩ := h'
  refine ⟨outs ++ outs', ?_, ?_, houts.append houts'⟩
  · rw [hqueue', hqueue, List.append_assoc]
  · rw [controlsOf_append, hsaid, hsaid']

/-- A control that neither opens nor closes a subscription. -/
def isFeedback : ClusterLocalTrackControl → Bool
  | .requestKeyFrame => true
  | .desiredBitrate _ => true
  | _ => false

/-- The event left the subscription as it was, and at most sent feedback to the room. -/
structure Keeps (t t' : EndpointLocalTrack Selector) : Prop where
  track : t'.track = t.track
  room : t'.room = t.room
  shutdown : t'.shutdown = t.shutdown
  bound : t'.bind.isSome = t.bind.isSome
  adds : ∃ extra, t.Adds t' extra ∧
    ∀ said ∈ extra, t.room = some said.1 ∧ isFeedback said.2 = true

/-- The queue is the same as well. -/
theorem keeps_of_queue {t t' : EndpointLocalTrack Selector} (htrack : t'.track = t.track)
    (hroom : t'.room = t.room) (hshutdown : t'.shutdown = t.shutdown)
    (hbound : t'.bind.isSome = t.bind.isSome) (hqueue : t'.queue = t.queue) : t.Keeps t' :=
  ⟨htrack, hroom, hshutdown, hbound, [], adds_nothing hqueue, by simp⟩

theorem Keeps.refl (t : EndpointLocalTrack Selector) : t.Keeps t :=
  keeps_of_queue rfl rfl rfl rfl rfl

theorem Keeps.trans {t t' t'' : EndpointLocalTrack Selector} (h : t.Keeps t')
    (h' : t'.Keeps t'') : t.Keeps t'' := by
  obtain ⟨extra, hadds, hextra⟩ := h.adds
  obtain ⟨extra', hadds', hextra'⟩ := h'.adds
  refine ⟨h'.track.trans h.track, h'.room.trans h.room, h'.shutdown.trans h.shutdown,
    h'.bound.trans h.bound, extra ++ extra', hadds.trans hadds', ?_⟩
  intro said hmem
  rcases List.mem_append.mp hmem with hmem | hmem
  · exact hextra said hmem
  · rw [← h.room]
    exact hextra' said hmem

/-- Outputs that say nothing to the room but feedback keep the subscription. -/
theorem keeps_push (t : EndpointLocalTrack Selector) {outs : List Output}
    (h : ∀ said ∈ controlsOf outs, t.room = some said.1 ∧ isFeedback said.2 = true)
    (hplain : Plain outs) : t.Keeps (t.push outs) :=
  ⟨rfl, rfl, rfl, rfl, controlsOf outs, ⟨outs, rfl, rfl, hplain⟩, h⟩

theorem keeps_push_quiet (t : EndpointLocalTrack Selector) {outs : List Output}
    (h : controlsOf outs = []) (hplain : Plain outs) : t.Keeps (t.push outs) :=
  t.keeps_push (by simp [h]) hplain

theorem keeps_selector (t : EndpointLocalTrack Selector) (selector : Selector) :
    t.Keeps { t with selector := selector } :=
  keeps_of_queue rfl rfl rfl rfl rfl

theorem onJoinRoom_eq_ok {t t' : EndpointLocalTrack Selector} {room : ClusterRoomHash}
    (h : t.onJoinRoom room = .ok t') :
    t.room = none ∧ t.bind = none ∧ t' = { t with room := some room } := by
  unfold onJoinRoom at h
  split at h
  · rename_i hroom hbind
    cases h
    exact ⟨hroom, hbind, rfl⟩
  · cases h

theorem adds_leaveOutputs {t t' : EndpointLocalTrack Selector} {now : Instant}
    {room : ClusterRoomHash} (h : t'.queue = t.queue ++ t.leaveOutputs now room) :
    t.Adds t' (if t.bind.isSome then [(room, .unsubscribe)] else []) := by
  refine ⟨t.leaveOutputs now room, h, ?_, ?_⟩
  · unfold leaveOutputs
    cases t.bind <;> rfl
  · unfold leaveOutputs
    cases t.bind <;> simp [Plain]

theorem onLeaveRoom_eq_ok {t t' : EndpointLocalTrack Selector} {now : Instant}
    (h : t.onLeaveRoom now = .ok t') :
    ∃ room, t.room = some room ∧ t'.track = t.track ∧ t'.room = none ∧ t'.bind = none ∧
      t'.shutdown = t.shutdown ∧
      t.Adds t' (if t.bind.isSome then [(room, .unsubscribe)] else []) := by
  unfold onLeaveRoom at h
  cases hroom : t.room with
  | none => simp [hroom] at h
  | some room =>
    rw [hroom] at h
    cases h
    exact ⟨room, rfl, rfl, rfl, rfl, rfl, adds_leaveOutputs rfl⟩

/-- The shutdown ends the subscription of a running track; a second one is ignored. -/
theorem onShutdown_eq_ok {t t' : EndpointLocalTrack Selector} {now : Instant}
    (h : t.onShutdown now = .ok t') :
    t'.track = t.track ∧ t'.shutdown = true ∧
      ((t.shutdown = true ∧ t' = t) ∨
        (t.shutdown = false ∧ t.room = none ∧ t'.room = none ∧ t'.bind = t.bind ∧
          t.Adds t' []) ∨
        (t.shutdown = false ∧ ∃ room, t.room = some room ∧ t'.room = none ∧ t'.bind = none ∧
          t.Adds t' (if t.bind.isSome then [(room, .unsubscribe)] else []))) := by
  unfold onShutdown at h
  cases hshutdown : t.shutdown with
  | true =>
    rw [if_pos hshutdown] at h
    cases h
    exact ⟨rfl, hshutdown, Or.inl ⟨rfl, rfl⟩⟩
  | false =>
    rw [if_neg (by simp [hshutdown])] at h
    cases hroom : t.room with
    | none =>
      rw [if_neg (by simp [hroom])] at h
      cases h
      exact ⟨rfl, rfl, Or.inr (Or.inl ⟨rfl, rfl, hroom, rfl, adds_nothing rfl⟩)⟩
    | some room =>
      rw [if_pos (by simp [hroom])] at h
      obtain ⟨room', hroom', htrack, hnone, hbind, hstop, hadds⟩ := onLeaveRoom_eq_ok h
      obtain rfl : room = room' := Option.some.inj (hroom.symm.trans hroom')
      refine ⟨htrack, hstop, Or.inr (Or.inr ⟨rfl, room, rfl, hnone, hbind, ?_⟩)⟩
      exact (adds_nothing rfl).trans hadds

theorem onTransportEvent_keeps (t : EndpointLocalTrack Selector) (event : LocalTrackEvent) :
    t.Keeps (t.onTransportEvent event) := by
  cases event with
  | started kind => exact Keeps.refl t
  | requestKeyFrame =>
    unfold onTransportEvent
    cases hroom : t.room with
    | none => exact Keeps.refl t
    | some room => exact t.keeps_push (by simp [controlsOf, isFeedback, hroom]) (by simp [Plain])
  | ended => exact Keeps.refl t

section Selecting

variable (api : SelectorApi Selector) (timestampMs : Instant → Nat)

theorem popSelector_keeps (t : EndpointLocalTrack Selector) (nowMs : Nat) :
    t.Keeps (t.popSelector api nowMs) := by
  unfold popSelector
  split
  · exact Keeps.refl t
  · rename_i room hroom
    refine (t.keeps_selector (api.popOutput t.selector nowMs).2).trans
      (keeps_push _ ?_ (by simp [Plain]))
    intro said hmem
    obtain ⟨out, hout, hsaid⟩ := List.mem_filterMap.mp hmem
    obtain rfl := List.eq_of_mem_replicate hout
    cases hsaid
    exact ⟨hroom, rfl⟩

theorem activate_keeps (t : EndpointLocalTrack Selector) (nowMs : Nat) :
    t.Keeps (t.activate nowMs) := by
  unfold activate
  split
  · exact Keeps.refl t
  · rename_i hbind
    exact keeps_of_queue rfl rfl rfl (by simp [hbind]) rfl
  · rename_i hbind
    exact ⟨rfl, rfl, rfl, by simp [push, hbind], [], ⟨_, rfl, rfl, by simp [Plain]⟩, by simp⟩

theorem detectVoice_keeps (t : EndpointLocalTrack Selector) (nowMs : Nat) (pkt : MediaPacket) :
    t.Keeps (t.detectVoice nowMs pkt) := by
  unfold detectVoice
  split
  · dsimp only
    split
    · exact ⟨rfl, rfl, rfl, rfl, [], ⟨_, rfl, rfl, by simp [Plain]⟩, by simp⟩
    · exact keeps_of_queue rfl rfl rfl rfl rfl
  · exact Keeps.refl t

theorem onClusterEvent_keeps (t : EndpointLocalTrack Selector) (now : Instant)
    (event : ClusterLocalTrackEvent) : t.Keeps (t.onClusterEvent api timestampMs now event) := by
  cases event with
  | relayChanged =>
    simp only [onClusterEvent]
    split
    · cases hroom : t.room with
      | none => exact Keeps.refl t
      | some room => exact t.keeps_push (by simp [controlsOf, isFeedback, hroom]) (by simp [Plain])
    · exact Keeps.refl t
  | sourceChanged => exact t.keeps_selector _
  | media channel pkt =>
    simp only [onClusterEvent]
    split
    · exact t.keeps_selector _
    · have hselect := t.keeps_selector (api.select t.selector (timestampMs now) channel pkt).2
      have hpop := hselect.trans (popSelector_keeps api _ (timestampMs now))
      have hactive := hpop.trans (activate_keeps _ (timestampMs now))
      exact (hactive.trans (detectVoice_keeps _ _ _)).trans (keeps_push_quiet _ rfl (by simp [Plain]))

theorem onBitrateAllocationAction_keeps (t : EndpointLocalTrack Selector) (now : Instant)
    (action : EgressAction) :
    t.Keeps (t.onBitrateAllocationAction api timestampMs now action) := by
  obtain ⟨bitrate⟩ := action
  simp only [onBitrateAllocationAction]
  have hpop := (t.keeps_selector (api.setTargetBitrate t.selector (timestampMs now) bitrate)).trans
    (popSelector_keeps api _ (timestampMs now))
  refine hpop.trans ?_
  split
  · exact Keeps.refl _
  · rename_i room hroom
    exact keeps_push _ (by simp [controlsOf, isFeedback, hroom]) (by simp [Plain])

theorem onTick_keeps (t : EndpointLocalTrack Selector) (now : Instant) :
    t.Keeps (onTick api timestampMs now t) := by
  simp only [onTick]
  have hpop := (t.keeps_selector (api.onTick t.selector (timestampMs now))).trans
    (popSelector_keeps api _ (timestampMs now))
  refine hpop.trans ?_
  split
  · rename_i hbind
    split
    · exact ⟨rfl, rfl, rfl, by simp [push, hbind], [], ⟨_, rfl, rfl, by simp [Plain]⟩, by simp⟩
    · exact Keeps.refl _
  · exact Keeps.refl _

/-- A request keeps the subscription, attaches a source in place of the current one,
    or detaches the current one. -/
theorem onRpcReq_cases (t : EndpointLocalTrack Selector) (now : Instant)
    (reqId : EndpointReqId) (req : EndpointLocalTrackReq) :
    t.Keeps (t.onRpcReq api timestampMs now reqId req) ∨
      ((t.onRpcReq api timestampMs now reqId req).track = t.track ∧
        (t.onRpcReq api timestampMs now reqId req).room = t.room ∧
        (t.onRpcReq api timestampMs now reqId req).shutdown = t.shutdown ∧
        ∃ room, t.room = some room ∧
          ((∃ peer track, (t.onRpcReq api timestampMs now reqId req).bind.isSome = true ∧
            t.Adds (t.onRpcReq api timestampMs now reqId req)
              ((if t.bind.isSome then [(room, .unsubscribe)] else []) ++
                [(room, .subscribe peer track)])) ∨
          (t.bind.isSome = true ∧ (t.onRpcReq api timestampMs now reqId req).bind = none ∧
            t.Adds (t.onRpcReq api timestampMs now reqId req) [(room, .unsubscribe)]))) := by
  cases req with
  | attach source config =>
    simp only [onRpcReq]
    split
    · exact Or.inl (keeps_push_quiet _ rfl (by simp [Plain]))
    · cases hroom : t.room with
      | none => exact Or.inl (keeps_push_quiet _ rfl (by simp [Plain]))
      | some room =>
        refine Or.inr ?_
        simp only [attach, unbindCurrent]
        cases hbind : t.bind with
        | none =>
          have hnone : (t.push [.rpcRes reqId (.attach (.ok ()))]).bind = none := hbind
          simp only [hnone]
          refine ⟨rfl, hroom, rfl, room, rfl, Or.inl ⟨source.peer, source.track, rfl, ?_⟩⟩
          have hres : t.Adds (t.push [.rpcRes reqId (.attach (.ok ()))]) [] :=
            ⟨_, rfl, rfl, by simp [Plain]⟩
          exact hres.trans ⟨_, rfl, rfl, by simp [Plain]⟩
        | some bound =>
          have hsome : (t.push [.rpcRes reqId (.attach (.ok ()))]).bind = some bound := hbind
          simp only [hsome]
          refine ⟨rfl, hroom, rfl, room, rfl, Or.inl ⟨source.peer, source.track, rfl, ?_⟩⟩
          have hres : t.Adds (t.push [.rpcRes reqId (.attach (.ok ()))]) [] :=
            ⟨_, rfl, rfl, by simp [Plain]⟩
          have hunbind : (t.push [.rpcRes reqId (.attach (.ok ()))]).Adds
              ({ t.push [.rpcRes reqId (.attach (.ok ()))] with bind := none }.push
                [.cluster room .unsubscribe, .unbind t.kind]) [(room, .unsubscribe)] :=
            ⟨_, rfl, rfl, by simp [Plain]⟩
          exact (hres.trans hunbind).trans ⟨_, rfl, rfl, by simp [Plain]⟩
  | detach =>
    simp only [onRpcReq]
    cases hroom : t.room with
    | none => exact Or.inl (keeps_push_quiet _ rfl (by simp [Plain]))
    | some room =>
      cases hbind : t.bind with
      | none => exact Or.inl (keeps_push_quiet _ rfl (by simp [Plain]))
      | some bound =>
        refine Or.inr ⟨rfl, rfl, rfl, room, rfl, Or.inr ⟨rfl, rfl, ?_⟩⟩
        exact ⟨_, rfl, rfl, by simp [Plain]⟩
  | config config =>
    have hlimit := t.keeps_selector
      (api.setLimitLayer t.selector (timestampMs now) config.maxSpatial config.maxTemporal)
    exact Or.inl (hlimit.trans (keeps_push_quiet _ rfl (by simp [Plain])))

/-- The input is one that the endpoint sends to all its tracks. -/
def isBroadcast : Input → Bool
  | .joinRoom _ | .leaveRoom => true
  | _ => false

/-- What an input can make a track do. -/
inductive Reacts (t t' : EndpointLocalTrack Selector) : Input → Prop
  | keep {input} (hinput : isBroadcast input = false) (h : t.Keeps t') : Reacts t t' input
  | join {room} (hbefore : t.room = none) (hbind : t.bind = none)
      (h : t' = { t with room := some room }) : Reacts t t' (.joinRoom room)
  | leave {room} (hbefore : t.room = some room) (hafter : t'.room = none)
      (htrack : t'.track = t.track) (hbind : t'.bind = none)
      (hshutdown : t'.shutdown = t.shutdown)
      (hadds : t.Adds t' (if t.bind.isSome then [(room, .unsubscribe)] else [])) :
      Reacts t t' .leaveRoom
  | attach {input room peer track} (hinput : isBroadcast input = false)
      (hbefore : t.room = some room) (hafter : t'.room = some room)
      (htrack : t'.track = t.track) (hshutdown : t'.shutdown = t.shutdown)
      (hbind : t'.bind.isSome = true)
      (hadds : t.Adds t' ((if t.bind.isSome then [(room, .unsubscribe)] else []) ++
        [(room, .subscribe peer track)])) : Reacts t t' input
  | detach {input room} (hinput : isBroadcast input = false) (hbefore : t.room = some room)
      (hafter : t'.room = some room) (htrack : t'.track = t.track)
      (hshutdown : t'.shutdown = t.shutdown) (hbound : t.bind.isSome = true)
      (hbind : t'.bind = none) (hadds : t.Adds t' [(room, .unsubscribe)]) : Reacts t t' input

theorem onEvent_reacts {t t' : EndpointLocalTrack Selector} {now : Instant} {input : Input}
    (h : onEvent api timestampMs now input t = .ok t') : Reacts t t' input := by
  cases input with
  | joinRoom room =>
    obtain ⟨hbefore, hbind, heq⟩ := onJoinRoom_eq_ok h
    exact .join hbefore hbind heq
  | leaveRoom =>
    obtain ⟨room, hbefore, htrack, hafter, hbind, hshutdown, hadds⟩ := onLeaveRoom_eq_ok h
    exact .leave hbefore hafter htrack hbind hshutdown hadds
  | cluster event =>
    cases h
    exact .keep rfl (onClusterEvent_keeps api timestampMs t now event)
  | event event =>
    cases h
    exact .keep rfl (t.onTransportEvent_keeps event)
  | rpcReq reqId req =>
    cases h
    rcases onRpcReq_cases api timestampMs t now reqId req with hkeeps |
      ⟨htrack, hroom, hshutdown, room, hbefore, ⟨peer, track, hbind, hadds⟩ |
        ⟨hbound, hbind, hadds⟩⟩
    · exact .keep rfl hkeeps
    · exact .attach rfl hbefore (hroom.trans hbefore) htrack hshutdown hbind hadds
    · exact .detach rfl hbefore (hroom.trans hbefore) htrack hshutdown hbound hbind hadds
  | bitrateAllocation action =>
    cases h
    exact .keep rfl (onBitrateAllocationAction_keeps api timestampMs t now action)

theorem Reacts.track {t t' : EndpointLocalTrack Selector} {input : Input}
    (h : Reacts t t' input) : t'.track = t.track := by
  cases h with
  | keep _ h => exact h.track
  | join _ _ h =>
    rw [h]
  | leave _ _ htrack | attach _ _ _ htrack | detach _ _ _ htrack => exact htrack

theorem Reacts.plain {t t' : EndpointLocalTrack Selector} {input : Input}
    (h : Reacts t t' input) (hplain : Plain t.queue) : Plain t'.queue := by
  cases h with
  | keep _ h =>
    obtain ⟨extra, hadds, -⟩ := h.adds
    exact hadds.plain hplain
  | join _ _ h =>
    rw [h]
    exact hplain
  | leave _ _ _ _ _ hadds | attach _ _ _ _ _ _ hadds | detach _ _ _ _ _ _ _ hadds =>
    exact hadds.plain hplain

theorem Reacts.shutdown {t t' : EndpointLocalTrack Selector} {input : Input}
    (h : Reacts t t' input) : t'.shutdown = t.shutdown := by
  cases h with
  | keep _ h => exact h.shutdown
  | join _ _ h =>
    rw [h]
  | leave _ _ _ _ hshutdown | attach _ _ _ _ hshutdown | detach _ _ _ _ hshutdown =>
    exact hshutdown

/-- Only a broadcast moves a track between rooms. -/
theorem Reacts.room {t t' : EndpointLocalTrack Selector} {input : Input}
    (h : Reacts t t' input) (hinput : isBroadcast input = false) : t'.room = t.room := by
  cases h with
  | keep _ h => exact h.room
  | join | leave => cases hinput
  | attach _ hbefore hafter | detach _ hbefore hafter => exact hafter.trans hbefore.symm

/-- A track outside a room is bound to nothing, and stays so. -/
theorem Reacts.bind {t t' : EndpointLocalTrack Selector} {input : Input}
    (h : Reacts t t' input) (hbound : t.bind.isSome = true → t.room.isSome = true) :
    t'.bind.isSome = true → t'.room.isSome = true := by
  cases h with
  | keep _ h =>
    rw [h.bound, h.room]
    exact hbound
  | join _ hbind h =>
    rw [h]
    exact fun _ => rfl
  | leave _ _ _ hbind =>
    rw [hbind]
    exact fun h => by cases h
  | attach _ _ hafter | detach _ _ hafter =>
    rw [hafter]
    exact fun _ => rfl

/-- Only the asserts on the room and the binding can fail. -/
theorem onEvent_ok (now : Instant) {input : Input} {t : EndpointLocalTrack Selector}
    (hjoin : ∀ room, input = .joinRoom room → t.room = none ∧ t.bind = none)
    (hleave : input = .leaveRoom → t.room.isSome = true) :
    ∃ t', onEvent api timestampMs now input t = .ok t' := by
  cases input with
  | joinRoom room =>
    obtain ⟨hroom, hbind⟩ := hjoin room rfl
    simp only [onEvent, onJoinRoom, hroom, hbind]
    exact ⟨_, rfl⟩
  | leaveRoom =>
    obtain ⟨room, hroom⟩ := Option.isSome_iff_exists.mp (hleave rfl)
    simp only [onEvent, onLeaveRoom, hroom]
    exact ⟨_, rfl⟩
  | cluster event => exact ⟨_, rfl⟩
  | event event => exact ⟨_, rfl⟩
  | rpcReq reqId req => exact ⟨_, rfl⟩
  | bitrateAllocation action => exact ⟨_, rfl⟩

theorem onEvent_ok_of_routine (now : Instant) {input : Input} (t : EndpointLocalTrack Selector)
    (h : isBroadcast input = false) : ∃ t', onEvent api timestampMs now input t = .ok t' :=
  onEvent_ok api timestampMs now (fun _ heq => by rw [heq] at h; cases h)
    (fun heq => by rw [heq] at h; cases h)

end Selecting

theorem onShutdown_ok (now : Instant) (t : EndpointLocalTrack Selector) :
    ∃ t', onShutdown now t = .ok t' := by
  unfold onShutdown
  split
  · exact ⟨t, rfl⟩
  · dsimp only
    split
    · rename_i hsome
      obtain ⟨room, hroom⟩ := Option.isSome_iff_exists.mp hsome
      simp only [onLeaveRoom, hroom]
      exact ⟨_, rfl⟩
    · exact ⟨_, rfl⟩

end EndpointLocalTrack

end MediaServer.Endpoint
