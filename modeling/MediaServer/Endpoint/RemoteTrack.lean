import MediaServer.Endpoint.BitrateAllocator
import MediaServer.Lib.TaskGroup

/-!
# Remote track

`media_core/src/endpoint/internal/remote_track.rs`: the task of one track that the
client publishes.  It tells the room when the track starts, carries its media and
ends, and limits the client's bitrate to what the allocator and the viewers grant.

A track keeps its room after `Ended`: from then on it is shut down and only waits
to be removed, but a further `Ended`, `Media` or `LeaveRoom` still finds the room
set and speaks to it again.
-/

namespace MediaServer.Endpoint

open Runtime

namespace RemoteTrack

inductive Input where
  | joinRoom (room : ClusterRoomHash)
  | leaveRoom
  | cluster (event : ClusterRemoteTrackEvent)
  | event (event : RemoteTrackEvent)
  | rpcReq (reqId : EndpointReqId) (req : EndpointRemoteTrackReq)
  | bitrateAllocation (action : IngressAction)

inductive Output where
  | event (event : EndpointRemoteTrackEvent)
  | cluster (room : ClusterRoomHash) (control : ClusterRemoteTrackControl)
  | peerEvent (ts : Instant) (event : PeerEvent)
  | recordEvent (ts : Instant) (event : SessionRecordEvent)
  | rpcRes (reqId : EndpointReqId) (res : EndpointRemoteTrackRes)
  | started (kind : MediaKind) (priority : TrackPriority)
  | update (kind : MediaKind) (priority : TrackPriority)
  | stopped (kind : MediaKind)
deriving DecidableEq

end RemoteTrack

structure EndpointRemoteTrack where
  id : RemoteTrackId
  trackMeta : TrackMeta
  room : Option ClusterRoomHash
  name : TrackName
  queue : List RemoteTrack.Output
  allocateBitrate : Option UInt64
  lastLayers : Option MediaLayersBitrate
  clusterBitrateLimit : Option (UInt64 × UInt64)
  record : Bool
  shutdown : Bool

namespace EndpointRemoteTrack

open RemoteTrack

def new (room : Option ClusterRoomHash) (id : RemoteTrackId) (name : TrackName)
    (trackMeta : TrackMeta) (record : Bool) : EndpointRemoteTrack where
  id := id
  trackMeta := trackMeta
  room := room
  name := name
  queue := []
  allocateBitrate := none
  lastLayers := none
  clusterBitrateLimit := none
  record := record
  shutdown := false

def push (t : EndpointRemoteTrack) (outs : List Output) : EndpointRemoteTrack :=
  { t with queue := t.queue ++ outs }

/-- A record event, for a track that is recorded. -/
def recorded (t : EndpointRemoteTrack) (now : Instant) (event : SessionRecordEvent) :
    List Output :=
  if t.record then [.recordEvent now event] else []

/-- What a track queues when it starts in a room after the fact. -/
def joinOutputs (t : EndpointRemoteTrack) (now : Instant) (room : ClusterRoomHash) :
    List Output :=
  [.cluster room (.started t.name t.trackMeta)] ++
    t.recorded now (.trackStarted t.id t.name t.trackMeta) ++
    [.peerEvent now (.remoteTrackStarted t.name t.trackMeta.kind.proto)]

/-- What a track queues when it ends in a room. -/
def endOutputs (t : EndpointRemoteTrack) (now : Instant) (room : ClusterRoomHash) :
    List Output :=
  [.cluster room (.ended t.name t.trackMeta)] ++
    t.recorded now (.trackStopped t.id) ++
    [.peerEvent now (.remoteTrackEnded t.name t.trackMeta.kind.proto)]

def onJoinRoom (t : EndpointRemoteTrack) (now : Instant) (room : ClusterRoomHash) :
    Except Panic EndpointRemoteTrack :=
  match t.room with
  | some _ => .error ⟨"assertion `left == right` failed"⟩
  | none => .ok ({ t with room := some room }.push (t.joinOutputs now room))

def onLeaveRoom (t : EndpointRemoteTrack) (now : Instant) : Except Panic EndpointRemoteTrack :=
  match t.room with
  | none => .error ⟨"Must have room here"⟩
  | some room => .ok ({ t with room := none }.push (t.endOutputs now room))

def calcLimitBitrate (t : EndpointRemoteTrack) : Option (UInt64 × UInt64) :=
  let clusterLimit :=
    if t.trackMeta.control = .dynamicConsumers then t.clusterBitrateLimit else none
  match t.allocateBitrate, clusterLimit with
  | some b1, some (lo, hi) => some (min lo b1, min hi b1)
  | some b1, none => some (b1, b1)
  | none, some (lo, hi) => some (lo, hi)
  | none, none => none

/-- The limit as an event for the client, when there is one. -/
def limitOutputs (t : EndpointRemoteTrack) : List Output :=
  match t.calcLimitBitrate with
  | some (lo, hi) => [.event (.limitBitrateBps lo hi)]
  | none => []

def onClusterEvent (t : EndpointRemoteTrack) : ClusterRemoteTrackEvent → EndpointRemoteTrack
  | .requestKeyFrame => t.push [.event .requestKeyFrame]
  | .limitBitrate lo hi =>
      let t := { t with clusterBitrateLimit := some (lo, hi) }
      if t.trackMeta.control = .dynamicConsumers then t.push t.limitOutputs else t

/-- The layers of the last packet that carried some, put into key frames without any. -/
def restoreLayers (t : EndpointRemoteTrack) (media : MediaPacket) :
    EndpointRemoteTrack × MediaPacket :=
  let t := if media.layers.isSome then { t with lastLayers := media.layers } else t
  let media :=
    if media.mediaMeta.isVideoKey && media.layers.isNone && t.lastLayers.isSome then
      { media with layers := t.lastLayers }
    else media
  (t, media)

def onTransportEvent (t : EndpointRemoteTrack) (now : Instant) :
    RemoteTrackEvent → EndpointRemoteTrack
  | .started name priority trackMeta =>
      match t.room with
      | none => t
      | some room =>
          t.push ([.cluster room (.started name t.trackMeta),
              .started t.trackMeta.kind priority] ++
            t.recorded now (.trackStarted t.id name t.trackMeta) ++
            [.peerEvent now (.remoteTrackStarted name trackMeta.kind.proto)])
  | .paused => t
  | .resumed => t
  | .media media =>
      let (t, media) := t.restoreLayers media
      let t := t.push (t.recorded now (.trackMedia t.id media))
      match t.room with
      | none => t
      | some room => t.push [.cluster room (.media media)]
  | .ended =>
      match t.room with
      | none => t
      | some room => { t.push (t.endOutputs now room) with shutdown := true }

def onRpcReq (t : EndpointRemoteTrack) (reqId : EndpointReqId) :
    EndpointRemoteTrackReq → EndpointRemoteTrack
  | .config config =>
      if config.priority = 0 then
        t.push [.rpcRes reqId (.config (.error (.new2 .remoteTrackInvalidPriority)))]
      else
        { t with trackMeta.control := config.control }.push
          [.rpcRes reqId (.config (.ok ())), .update t.trackMeta.kind config.priority]

def onBitrateAllocationAction (t : EndpointRemoteTrack) : IngressAction → EndpointRemoteTrack
  | .setBitrate bitrate =>
      let t := { t with allocateBitrate := some bitrate }
      t.push t.limitOutputs

def onEvent (now : Instant) (input : Input) (t : EndpointRemoteTrack) :
    Except Panic EndpointRemoteTrack :=
  match input with
  | .joinRoom room => t.onJoinRoom now room
  | .leaveRoom => t.onLeaveRoom now
  | .cluster event => .ok (t.onClusterEvent event)
  | .event event => .ok (t.onTransportEvent now event)
  | .rpcReq reqId req => .ok (t.onRpcReq reqId req)
  | .bitrateAllocation action => .ok (t.onBitrateAllocationAction action)

def onShutdown (now : Instant) (t : EndpointRemoteTrack) : Except Panic EndpointRemoteTrack :=
  if t.shutdown then .ok t
  else
    let t := { t with shutdown := true }
    if t.room.isSome then t.onLeaveRoom now else .ok t

def isEmpty (t : EndpointRemoteTrack) : Bool := t.shutdown && t.queue.isEmpty

instance : TaskChild EndpointRemoteTrack Output where
  queue t := t.queue
  dropFront t := { t with queue := t.queue.tail }
  isEmpty := isEmpty
  emptyEvent t := .stopped t.trackMeta.kind
  queue_dropFront _ := rfl
  queue_of_isEmpty t h := by
    have := (Bool.and_eq_true_iff.mp h).2
    exact List.isEmpty_iff.mp this

/-! ### What a track tells its room -/

/-- The controls among a track's outputs. -/
def controlsOf (outs : List Output) : List (ClusterRoomHash × ClusterRemoteTrackControl) :=
  outs.filterMap fun
    | .cluster room control => some (room, control)
    | _ => none

/-- The controls that wait in a track's queue. -/
def controls (t : EndpointRemoteTrack) : List (ClusterRoomHash × ClusterRemoteTrackControl) :=
  controlsOf t.queue

theorem controlsOf_append (first second : List Output) :
    controlsOf (first ++ second) = controlsOf first ++ controlsOf second :=
  List.filterMap_append

/-- `Stopped` is the empty event: no handler queues it. -/
def Plain (outs : List Output) : Prop := ∀ kind, .stopped kind ∉ outs

theorem Plain.append {first second : List Output} (h : Plain first) (h' : Plain second) :
    Plain (first ++ second) := by
  intro kind hmem
  rcases List.mem_append.mp hmem with hmem | hmem
  · exact h kind hmem
  · exact h' kind hmem

/-- The queue grew by outputs that tell the room `said`. -/
def Adds (t t' : EndpointRemoteTrack)
    (said : List (ClusterRoomHash × ClusterRemoteTrackControl)) : Prop :=
  ∃ outs, t'.queue = t.queue ++ outs ∧ controlsOf outs = said ∧ Plain outs

theorem Adds.controls {t t' : EndpointRemoteTrack}
    {said : List (ClusterRoomHash × ClusterRemoteTrackControl)} (h : t.Adds t' said) :
    t'.controls = t.controls ++ said := by
  obtain ⟨outs, hqueue, hsaid, -⟩ := h
  rw [EndpointRemoteTrack.controls, hqueue, controlsOf_append, hsaid]
  rfl

theorem Adds.plain {t t' : EndpointRemoteTrack}
    {said : List (ClusterRoomHash × ClusterRemoteTrackControl)} (h : t.Adds t' said)
    (hplain : Plain t.queue) : Plain t'.queue := by
  obtain ⟨outs, hqueue, -, houts⟩ := h
  rw [hqueue]
  exact hplain.append houts

theorem adds_nothing {t t' : EndpointRemoteTrack} (h : t'.queue = t.queue) : t.Adds t' [] :=
  ⟨[], by rw [h, List.append_nil], rfl, by simp [Plain]⟩

theorem Adds.trans {t t' t'' : EndpointRemoteTrack}
    {said said' : List (ClusterRoomHash × ClusterRemoteTrackControl)} (h : t.Adds t' said)
    (h' : t'.Adds t'' said') : t.Adds t'' (said ++ said') := by
  obtain ⟨outs, hqueue, hsaid, houts⟩ := h
  obtain ⟨outs', hqueue', hsaid', houts'⟩ := h'
  refine ⟨outs ++ outs', ?_, ?_, houts.append houts'⟩
  · rw [hqueue', hqueue, List.append_assoc]
  · rw [controlsOf_append, hsaid, hsaid']

theorem controlsOf_recorded (t : EndpointRemoteTrack) (now : Instant)
    (event : SessionRecordEvent) : controlsOf (t.recorded now event) = [] := by
  unfold recorded
  split <;> rfl

theorem plain_recorded (t : EndpointRemoteTrack) (now : Instant) (event : SessionRecordEvent) :
    Plain (t.recorded now event) := by
  unfold recorded
  split <;> simp [Plain]

theorem adds_limitOutputs (t : EndpointRemoteTrack) : t.Adds (t.push t.limitOutputs) [] := by
  refine ⟨t.limitOutputs, rfl, ?_, ?_⟩
  · unfold limitOutputs
    split <;> rfl
  · unfold limitOutputs
    split <;> simp [Plain]

theorem adds_joinOutputs {t t' : EndpointRemoteTrack} {now : Instant} {room : ClusterRoomHash}
    (h : t'.queue = t.queue ++ t.joinOutputs now room) :
    t.Adds t' [(room, .started t.name t.trackMeta)] := by
  refine ⟨t.joinOutputs now room, h, ?_, ?_⟩
  · simp only [joinOutputs, controlsOf_append, controlsOf_recorded]
    rfl
  · exact (Plain.append (by simp [Plain]) (t.plain_recorded _ _)).append (by simp [Plain])

theorem adds_endOutputs {t t' : EndpointRemoteTrack} {now : Instant} {room : ClusterRoomHash}
    (h : t'.queue = t.queue ++ t.endOutputs now room) :
    t.Adds t' [(room, .ended t.name t.trackMeta)] := by
  refine ⟨t.endOutputs now room, h, ?_, ?_⟩
  · simp only [endOutputs, controlsOf_append, controlsOf_recorded]
    rfl
  · exact (Plain.append (by simp [Plain]) (t.plain_recorded _ _)).append (by simp [Plain])

/-- The event changed nothing that the room or the endpoint can see. -/
structure Silent (t t' : EndpointRemoteTrack) : Prop where
  id : t'.id = t.id
  room : t'.room = t.room
  shutdown : t'.shutdown = t.shutdown
  adds : t.Adds t' []

/-- The event made the track say one thing to a room. -/
structure Tells (t t' : EndpointRemoteTrack) (room : ClusterRoomHash)
    (control : ClusterRemoteTrackControl) : Prop where
  id : t'.id = t.id
  adds : t.Adds t' [(room, control)]

theorem silent_of_queue {t t' : EndpointRemoteTrack} (hid : t'.id = t.id)
    (hroom : t'.room = t.room) (hshutdown : t'.shutdown = t.shutdown)
    (hqueue : t'.queue = t.queue) : t.Silent t' :=
  ⟨hid, hroom, hshutdown, adds_nothing hqueue⟩

theorem onJoinRoom_eq_ok {t t' : EndpointRemoteTrack} {now : Instant} {room : ClusterRoomHash}
    (h : t.onJoinRoom now room = .ok t') :
    t.room = none ∧ t'.room = some room ∧ t'.shutdown = t.shutdown ∧
      t.Tells t' room (.started t.name t.trackMeta) := by
  unfold onJoinRoom at h
  cases hroom : t.room with
  | some other => simp [hroom] at h
  | none =>
    rw [hroom] at h
    cases h
    exact ⟨rfl, rfl, rfl, rfl, adds_joinOutputs rfl⟩

theorem onLeaveRoom_eq_ok {t t' : EndpointRemoteTrack} {now : Instant}
    (h : t.onLeaveRoom now = .ok t') :
    ∃ room, t.room = some room ∧ t'.room = none ∧ t'.shutdown = t.shutdown ∧
      t.Tells t' room (.ended t.name t.trackMeta) := by
  unfold onLeaveRoom at h
  cases hroom : t.room with
  | none => simp [hroom] at h
  | some room =>
    rw [hroom] at h
    cases h
    exact ⟨room, rfl, rfl, rfl, rfl, adds_endOutputs rfl⟩

theorem restoreLayers_silent (t : EndpointRemoteTrack) (media : MediaPacket) :
    t.Silent (t.restoreLayers media).1 := by
  simp only [restoreLayers]
  split <;> exact silent_of_queue rfl rfl rfl rfl

/-- Outside a room the track is silent, whatever its transport reports. -/
theorem onTransportEvent_outside {t : EndpointRemoteTrack} (now : Instant)
    (event : RemoteTrackEvent) (hroom : t.room = none) :
    t.Silent (t.onTransportEvent now event) := by
  cases event with
  | started name priority trackMeta =>
    simp only [onTransportEvent, hroom]
    exact silent_of_queue rfl rfl rfl rfl
  | paused => exact silent_of_queue rfl rfl rfl rfl
  | resumed => exact silent_of_queue rfl rfl rfl rfl
  | media media =>
    have hsame := t.restoreLayers_silent media
    simp only [onTransportEvent]
    split
    · refine ⟨hsame.id, hsame.room, hsame.shutdown, hsame.adds.trans ⟨_, rfl, ?_, ?_⟩⟩
      · exact controlsOf_recorded ..
      · exact plain_recorded _ _ _
    · rename_i room hsome
      have hnone := hsame.room.symm.trans hsome
      rw [hroom] at hnone
      cases hnone
  | ended =>
    simp only [onTransportEvent, hroom]
    exact silent_of_queue rfl rfl rfl rfl

theorem onTransportEvent_started {t : EndpointRemoteTrack} {room : ClusterRoomHash}
    (hroom : t.room = some room) (now : Instant) (name : String) (priority : TrackPriority)
    (trackMeta : TrackMeta) :
    (t.onTransportEvent now (.started name priority trackMeta)).room = some room ∧
      (t.onTransportEvent now (.started name priority trackMeta)).shutdown = t.shutdown ∧
      t.Tells (t.onTransportEvent now (.started name priority trackMeta)) room
        (.started name t.trackMeta) := by
  simp only [onTransportEvent, hroom]
  refine ⟨hroom, rfl, rfl, _, rfl, ?_, ?_⟩
  · simp only [controlsOf_append, controlsOf_recorded]
    rfl
  · exact (Plain.append (by simp [Plain]) (t.plain_recorded _ _)).append (by simp [Plain])

theorem onTransportEvent_media {t : EndpointRemoteTrack} {room : ClusterRoomHash}
    (hroom : t.room = some room) (now : Instant) (media : MediaPacket) :
    (t.onTransportEvent now (.media media)).room = some room ∧
      (t.onTransportEvent now (.media media)).shutdown = t.shutdown ∧
      ∃ sent, t.Tells (t.onTransportEvent now (.media media)) room (.media sent) := by
  have hsame := t.restoreLayers_silent media
  simp only [onTransportEvent]
  split
  · rename_i hnone
    have hsome := hsame.room.symm.trans hnone
    rw [hroom] at hsome
    cases hsome
  · rename_i room' hsome
    obtain rfl : room = room' := Option.some.inj (hroom.symm.trans (hsame.room.symm.trans hsome))
    refine ⟨hsame.room.trans hroom, hsame.shutdown, (t.restoreLayers media).2, hsame.id, ?_⟩
    have hrecord : (t.restoreLayers media).1.Adds ((t.restoreLayers media).1.push
        ((t.restoreLayers media).1.recorded now
          (.trackMedia (t.restoreLayers media).1.id (t.restoreLayers media).2))) [] :=
      ⟨_, rfl, controlsOf_recorded .., plain_recorded _ _ _⟩
    exact (hsame.adds.trans hrecord).trans ⟨_, rfl, rfl, by simp [Plain]⟩

theorem onTransportEvent_ended {t : EndpointRemoteTrack} {room : ClusterRoomHash}
    (hroom : t.room = some room) (now : Instant) :
    (t.onTransportEvent now .ended).room = some room ∧
      (t.onTransportEvent now .ended).shutdown = true ∧
      t.Tells (t.onTransportEvent now .ended) room (.ended t.name t.trackMeta) := by
  unfold onTransportEvent
  rw [hroom]
  exact ⟨hroom, rfl, rfl, adds_endOutputs rfl⟩

theorem onClusterEvent_silent (t : EndpointRemoteTrack) (event : ClusterRemoteTrackEvent) :
    t.Silent (t.onClusterEvent event) := by
  cases event with
  | requestKeyFrame => exact ⟨rfl, rfl, rfl, _, rfl, rfl, by simp [Plain]⟩
  | limitBitrate lo hi =>
    simp only [onClusterEvent]
    split
    · exact ⟨rfl, rfl, rfl, (adds_nothing rfl).trans (adds_limitOutputs _)⟩
    · exact silent_of_queue rfl rfl rfl rfl

theorem onRpcReq_silent (t : EndpointRemoteTrack) (reqId : EndpointReqId)
    (req : EndpointRemoteTrackReq) : t.Silent (t.onRpcReq reqId req) := by
  obtain ⟨config⟩ := req
  simp only [onRpcReq]
  split
  · exact ⟨rfl, rfl, rfl, _, rfl, rfl, by simp [Plain]⟩
  · exact ⟨rfl, rfl, rfl, _, rfl, rfl, by simp [Plain]⟩

theorem onBitrateAllocationAction_silent (t : EndpointRemoteTrack) (action : IngressAction) :
    t.Silent (t.onBitrateAllocationAction action) := by
  obtain ⟨bitrate⟩ := action
  exact ⟨rfl, rfl, rfl, (adds_nothing rfl).trans (adds_limitOutputs _)⟩

/-- The shutdown ends a running track once; a track that has ended already ignores it. -/
theorem onShutdown_eq_ok {t t' : EndpointRemoteTrack} {now : Instant}
    (h : t.onShutdown now = .ok t') :
    t'.shutdown = true ∧
      ((t.shutdown = true ∧ t' = t) ∨
        (t.shutdown = false ∧ t.room = none ∧ t'.id = t.id ∧ t'.room = none ∧ t.Adds t' []) ∨
        (t.shutdown = false ∧ ∃ room, t.room = some room ∧ t'.room = none ∧
          t.Tells t' room (.ended t.name t.trackMeta))) := by
  unfold onShutdown at h
  cases hshutdown : t.shutdown with
  | true =>
    rw [if_pos hshutdown] at h
    cases h
    exact ⟨hshutdown, Or.inl ⟨rfl, rfl⟩⟩
  | false =>
    rw [if_neg (by simp [hshutdown])] at h
    cases hroom : t.room with
    | none =>
      rw [if_neg (by simp [hroom])] at h
      cases h
      exact ⟨rfl, Or.inr (Or.inl ⟨rfl, rfl, rfl, hroom, adds_nothing rfl⟩)⟩
    | some room =>
      rw [if_pos (by simp [hroom])] at h
      obtain ⟨room', hroom', hnone, hstop, htells⟩ := onLeaveRoom_eq_ok h
      obtain rfl : room = room' := Option.some.inj (hroom.symm.trans hroom')
      refine ⟨hstop, Or.inr (Or.inr ⟨rfl, room, rfl, hnone, htells.id, ?_⟩)⟩
      exact (adds_nothing rfl).trans htells.adds

/-- The input is one that the endpoint sends to all its tracks. -/
def isBroadcast : Input → Bool
  | .joinRoom _ | .leaveRoom => true
  | _ => false

/-- What an input can make a track do. -/
inductive Reacts (t t' : EndpointRemoteTrack) : Input → Prop
  | silent {input} (hinput : isBroadcast input = false) (h : t.Silent t') : Reacts t t' input
  | join {room} (hbefore : t.room = none) (hafter : t'.room = some room)
      (hshutdown : t'.shutdown = t.shutdown)
      (htells : t.Tells t' room (.started t.name t.trackMeta)) : Reacts t t' (.joinRoom room)
  | leave {room} (hbefore : t.room = some room) (hafter : t'.room = none)
      (hshutdown : t'.shutdown = t.shutdown)
      (htells : t.Tells t' room (.ended t.name t.trackMeta)) : Reacts t t' .leaveRoom
  | start {room name priority trackMeta} (hbefore : t.room = some room)
      (hafter : t'.room = some room) (hshutdown : t'.shutdown = t.shutdown)
      (htells : t.Tells t' room (.started name t.trackMeta)) :
      Reacts t t' (.event (.started name priority trackMeta))
  | media {room media sent} (hbefore : t.room = some room) (hafter : t'.room = some room)
      (hshutdown : t'.shutdown = t.shutdown) (htells : t.Tells t' room (.media sent)) :
      Reacts t t' (.event (.media media))
  | ended {room} (hbefore : t.room = some room) (hafter : t'.room = some room)
      (hshutdown : t'.shutdown = true) (htells : t.Tells t' room (.ended t.name t.trackMeta)) :
      Reacts t t' (.event .ended)

theorem onEvent_reacts {t t' : EndpointRemoteTrack} {now : Instant} {input : Input}
    (h : onEvent now input t = .ok t') : Reacts t t' input := by
  cases input with
  | joinRoom room =>
    obtain ⟨hbefore, hafter, hshutdown, htells⟩ := onJoinRoom_eq_ok h
    exact .join hbefore hafter hshutdown htells
  | leaveRoom =>
    obtain ⟨room, hbefore, hafter, hshutdown, htells⟩ := onLeaveRoom_eq_ok h
    exact .leave hbefore hafter hshutdown htells
  | cluster event =>
    cases h
    exact .silent rfl (t.onClusterEvent_silent event)
  | rpcReq reqId req =>
    cases h
    exact .silent rfl (t.onRpcReq_silent reqId req)
  | bitrateAllocation action =>
    cases h
    exact .silent rfl (t.onBitrateAllocationAction_silent action)
  | event event =>
    cases h
    cases hroom : t.room with
    | none => exact .silent rfl (onTransportEvent_outside now event hroom)
    | some room =>
      cases event with
      | started name priority trackMeta =>
        obtain ⟨hafter, hshutdown, htells⟩ :=
          onTransportEvent_started hroom now name priority trackMeta
        exact .start hroom hafter hshutdown htells
      | paused => exact .silent rfl (silent_of_queue rfl rfl rfl rfl)
      | resumed => exact .silent rfl (silent_of_queue rfl rfl rfl rfl)
      | media media =>
        obtain ⟨hafter, hshutdown, sent, htells⟩ := onTransportEvent_media hroom now media
        exact .media hroom hafter hshutdown htells
      | ended =>
        obtain ⟨hafter, hshutdown, htells⟩ := onTransportEvent_ended hroom now
        exact .ended hroom hafter hshutdown htells

theorem Reacts.id {t t' : EndpointRemoteTrack} {input : Input} (h : Reacts t t' input) :
    t'.id = t.id := by
  cases h with
  | silent _ h => exact h.id
  | join _ _ _ htells | leave _ _ _ htells | start _ _ _ htells | media _ _ _ htells
  | ended _ _ _ htells => exact htells.id

theorem Reacts.plain {t t' : EndpointRemoteTrack} {input : Input} (h : Reacts t t' input)
    (hplain : Plain t.queue) : Plain t'.queue := by
  cases h with
  | silent _ h => exact h.adds.plain hplain
  | join _ _ _ htells | leave _ _ _ htells | start _ _ _ htells | media _ _ _ htells
  | ended _ _ _ htells => exact htells.adds.plain hplain

/-- Only a broadcast moves a track between rooms. -/
theorem Reacts.room {t t' : EndpointRemoteTrack} {input : Input} (h : Reacts t t' input)
    (hinput : isBroadcast input = false) : t'.room = t.room := by
  cases h with
  | silent _ h => exact h.room
  | join | leave => cases hinput
  | start hbefore hafter | media hbefore hafter | ended hbefore hafter =>
    exact hafter.trans hbefore.symm

/-- Only the asserts on the room can fail. -/
theorem onEvent_ok (now : Instant) {input : Input} {t : EndpointRemoteTrack}
    (hjoin : ∀ room, input = .joinRoom room → t.room = none)
    (hleave : input = .leaveRoom → t.room.isSome = true) : ∃ t', onEvent now input t = .ok t' := by
  cases input with
  | joinRoom room =>
    simp only [onEvent, onJoinRoom, hjoin room rfl]
    exact ⟨_, rfl⟩
  | leaveRoom =>
    obtain ⟨room, hroom⟩ := Option.isSome_iff_exists.mp (hleave rfl)
    simp only [onEvent, onLeaveRoom, hroom]
    exact ⟨_, rfl⟩
  | cluster event => exact ⟨_, rfl⟩
  | event event => exact ⟨_, rfl⟩
  | rpcReq reqId req => exact ⟨_, rfl⟩
  | bitrateAllocation action => exact ⟨_, rfl⟩

theorem onEvent_ok_of_routine (now : Instant) {input : Input} (t : EndpointRemoteTrack)
    (h : isBroadcast input = false) : ∃ t', onEvent now input t = .ok t' :=
  onEvent_ok now (fun _ heq => by rw [heq] at h; cases h) (fun heq => by rw [heq] at h; cases h)

theorem onShutdown_ok (now : Instant) (t : EndpointRemoteTrack) :
    ∃ t', onShutdown now t = .ok t' := by
  unfold onShutdown
  split
  · exact ⟨t, rfl⟩
  · dsimp only
    split
    · rename_i hsome
      obtain ⟨room, hroom⟩ := Option.isSome_iff_exists.mp hsome
      simp only [onLeaveRoom, hroom]
      exact ⟨_, rfl⟩
    · exact ⟨_, rfl⟩

end EndpointRemoteTrack

end MediaServer.Endpoint
