import MediaServer.Cluster.IdGenerator
import MediaServer.Endpoint.LocalTrack
import MediaServer.Endpoint.RemoteTrack
import MediaServer.Utils.IndexMap2d

/-!
# Endpoint

`media_core/src/endpoint/internal.rs`: the hub between one client's transport and
the cluster room it is in.  It owns a task for every track of the client and a
table from track ids to task indexes, forwards what the tasks produce, and on a
leave or a shutdown pops its tasks until nothing is left before it leaves the room.

The task switcher of the runtime decides which task is popped next.  Its choices
are an argument, a list of `Pick`s: `pop_output` follows them until something is
queued, and the loops of `leave_room` and `on_shutdown` follow them and then pop
whatever is still waiting, since those loops end only when no task is flagged any
more.  The index a new task gets is a `hint` of the same kind.
-/

namespace MediaServer.Endpoint

open Collections Runtime

structure EndpointCfg where
  app : AppContext
  maxEgressBitrate : UInt64
  maxIngressBitrate : UInt64
  record : Bool
deriving Repr

inductive InternalOutput where
  | event (event : EndpointEvent)
  | peerEvent (ts : Instant) (event : PeerEvent)
  | recordEvent (ts : Instant) (event : SessionRecordEvent)
  | rpcRes (reqId : EndpointReqId) (res : EndpointRes)
  | cluster (room : ClusterRoomHash) (control : ClusterEndpointControl)
  | onResourceEmpty
deriving DecidableEq

/-- A join request that waits for the transport to connect. -/
structure WaitJoin where
  reqId : EndpointReqId
  room : RoomId
  peer : PeerId
  peerMeta : PeerMeta
  publish : RoomInfoPublish
  subscribe : RoomInfoSubscribe
  mixer : Option AudioMixerConfig

/-- The room an endpoint is in. -/
structure Joined where
  hash : ClusterRoomHash
  room : RoomId
  peer : PeerId
  mixer : Option AudioMixerMode

/-- `ClusterRoomHash::generate`. -/
def ClusterRoomHash.generate (hasher : Hasher) (app : AppContext) (room : RoomId) :
    ClusterRoomHash :=
  hasher (hashStr app.app ++ hashStr room)

/-- What the endpoint takes from outside: the standard library's hasher, the packet
    selector and the clock of its tracks. -/
structure Env (Selector : Type) where
  hasher : Hasher
  selector : SelectorApi Selector
  timestampMs : Instant → Nat

/-- An environment to evaluate the model with, whose selector lets every packet pass. -/
def Env.passAll : Env Unit where
  hasher := fnv1a
  selector :=
    { new := fun _ _ _ => ()
      onTick := fun _ _ => ()
      reset := fun _ => ()
      setTargetBitrate := fun _ _ _ => ()
      setLimitLayer := fun _ _ _ _ => ()
      select := fun _ _ _ pkt => (some pkt, ())
      popOutput := fun _ _ => (0, ()) }
  timestampMs := fun now => now / 1000000

variable {Selector : Type}

structure EndpointInternal (Selector : Type) where
  cfg : EndpointCfg
  state : Option (Instant × TransportState)
  waitJoin : Option WaitJoin
  joined : Option Joined
  localTracksId : IndexMap2d LocalTrackId Nat
  remoteTracksId : IndexMap2d RemoteTrackId Nat
  localTracks : TaskGroup (EndpointLocalTrack Selector)
  remoteTracks : TaskGroup EndpointRemoteTrack
  bitrateAllocator : BitrateAllocator
  queue : List InternalOutput
  shutdown : Bool

/-- Which task the switcher names next. -/
inductive Pick where
  | bitrateAllocator
  | localTracks (index : Nat)
  | remoteTracks (index : Nat)
deriving Repr

/-- The order in which the runtime pops tasks. -/
abbrev Schedule := List Pick

namespace EndpointInternal

def new (cfg : EndpointCfg) : EndpointInternal Selector where
  cfg := cfg
  state := none
  waitJoin := none
  joined := none
  localTracksId := ∅
  remoteTracksId := ∅
  localTracks := ∅
  remoteTracks := ∅
  -- the ingress limit is passed twice
  bitrateAllocator := .new cfg.maxIngressBitrate cfg.maxIngressBitrate
  queue := []
  shutdown := false

def push (s : EndpointInternal Selector) (outs : List InternalOutput) :
    EndpointInternal Selector :=
  { s with queue := s.queue ++ outs }

/-- A record event, for an endpoint that is recorded. -/
def recorded (s : EndpointInternal Selector) (now : Instant) (event : SessionRecordEvent) :
    List InternalOutput :=
  if s.cfg.record then [.recordEvent now event] else []

def isEmpty (s : EndpointInternal Selector) : Bool :=
  s.shutdown && s.queue.isEmpty && s.localTracks.isEmpty && s.remoteTracks.isEmpty

def emptyEvent : InternalOutput := .onResourceEmpty

/-! ### Popping the tasks -/

/-- What the endpoint does with an output of the remote track `id` at `index`. -/
def onRemoteOutput (s : EndpointInternal Selector) (index : Nat) (id : RemoteTrackId) :
    RemoteTrack.Output → Except Panic (EndpointInternal Selector)
  | .event event => .ok (s.push [.event (.remoteMediaTrack id event)])
  | .cluster room control => .ok (s.push [.cluster room (.remoteTrack id control)])
  | .rpcRes reqId res => .ok (s.push [.rpcRes reqId (.remoteTrack id res)])
  | .started kind priority | .update kind priority =>
      .ok (if kind.isVideo then
        { s with bitrateAllocator := s.bitrateAllocator.setIngressVideoTrack id priority }
        else s)
  | .stopped kind => do
      let s := if kind.isVideo then
        { s with bitrateAllocator := s.bitrateAllocator.delIngressVideoTrack id } else s
      -- the pair stays in `remote_tracks_id`
      let remoteTracks ←
        s.remoteTracks.removeTask index "remote track queue should empty on drop"
      .ok { s with remoteTracks := remoteTracks }
  | .peerEvent ts event => .ok (s.push [.peerEvent ts event])
  | .recordEvent ts event => .ok (s.push [.recordEvent ts event])

def popRemoteTracks (s : EndpointInternal Selector) (index : Nat) :
    Except Panic (EndpointInternal Selector) :=
  match s.remoteTracks.popOutput index with
  | none => .ok s
  | some (out, remoteTracks) =>
      match s.remoteTracksId.get2 index with
      | none => .error ⟨"Should have remote_track_id"⟩
      | some id => { s with remoteTracks := remoteTracks }.onRemoteOutput index id out

/-- What the endpoint does with an output of the local track `id` at `index`. -/
def onLocalOutput (s : EndpointInternal Selector) (index : Nat) (id : LocalTrackId) :
    LocalTrack.Output → Except Panic (EndpointInternal Selector)
  | .event event => .ok (s.push [.event (.localMediaTrack id event)])
  | .cluster room control => .ok (s.push [.cluster room (.localTrack id control)])
  | .rpcRes reqId res => .ok (s.push [.rpcRes reqId (.localTrack id res)])
  | .bind kind priority | .updated kind priority =>
      .ok (if kind.isVideo then
        { s with bitrateAllocator := s.bitrateAllocator.setEgressVideoTrack id priority }
        else s)
  | .unbind kind =>
      .ok (if kind.isVideo then
        { s with bitrateAllocator := s.bitrateAllocator.delEgressVideoTrack id } else s)
  | .peerEvent ts event => .ok (s.push [.peerEvent ts event])
  | .onResourceEmpty => do
      let localTracks ← s.localTracks.removeTask index "local track queue should empty on drop"
      .ok { s with localTracks := localTracks, localTracksId := s.localTracksId.remove1 id }

def popLocalTracks (s : EndpointInternal Selector) (index : Nat) :
    Except Panic (EndpointInternal Selector) :=
  match s.localTracks.popOutput index with
  | none => .ok s
  | some (out, localTracks) =>
      match s.localTracksId.get2 index with
      | none => .error ⟨"Should have local_track_id"⟩
      | some id => { s with localTracks := localTracks }.onLocalOutput index id out

/-- Hand an input to the remote track at an index. -/
def toRemote (s : EndpointInternal Selector) (now : Instant) (index : Nat)
    (input : RemoteTrack.Input) : Except Panic (EndpointInternal Selector) := do
  let remoteTracks ← s.remoteTracks.onEvent index (EndpointRemoteTrack.onEvent now input)
  .ok { s with remoteTracks := remoteTracks }

section

variable (env : Env Selector)

/-- Hand an input to the local track at an index. -/
def toLocal (s : EndpointInternal Selector) (now : Instant) (index : Nat)
    (input : LocalTrack.Input) : Except Panic (EndpointInternal Selector) := do
  let localTracks ← s.localTracks.onEvent index
    (EndpointLocalTrack.onEvent env.selector env.timestampMs now input)
  .ok { s with localTracks := localTracks }

def popBitrateAllocator (s : EndpointInternal Selector) (now : Instant) :
    Except Panic (EndpointInternal Selector) :=
  match s.bitrateAllocator.popOutput with
  | none => .ok s
  | some (out, allocator) =>
      let s := { s with bitrateAllocator := allocator }
      match out with
      | .remoteTrack track action =>
          match s.remoteTracksId.get1 track with
          | none => .ok s
          | some index => s.toRemote now index (.bitrateAllocation action)
      | .localTrack track action =>
          match s.localTracksId.get1 track with
          | none => .ok s
          | some index => s.toLocal env now index (.bitrateAllocation action)
      | .bweConfig current desired => .ok (s.push [.event (.bweConfig current desired)])

/-- One turn of the switcher's loop. -/
def popTask (now : Instant) (s : EndpointInternal Selector) :
    Pick → Except Panic (EndpointInternal Selector)
  | .bitrateAllocator => s.popBitrateAllocator env now
  | .localTracks index => s.popLocalTracks index
  | .remoteTracks index => s.popRemoteTracks index

/-- The turns of a schedule, one after another. -/
def popTasks (now : Instant) :
    Schedule → EndpointInternal Selector → Except Panic (EndpointInternal Selector)
  | [], s => .ok s
  | pick :: rest, s => do
      let s' ← s.popTask env now pick
      popTasks now rest s'

/-- Turns enough to empty the allocator. -/
def allocatorTurns (s : EndpointInternal Selector) : Schedule :=
  List.replicate s.bitrateAllocator.pending .bitrateAllocator

/-- Turns enough to empty the local tracks, with one for each empty event. -/
def localTurns (s : EndpointInternal Selector) : Schedule :=
  s.localTracks.tasks.entries.flatMap fun entry =>
    List.replicate (entry.2.queue.length + 1) (.localTracks entry.1)

/-- Turns enough to empty the remote tracks, with one for each empty event. -/
def remoteTurns (s : EndpointInternal Selector) : Schedule :=
  s.remoteTracks.tasks.entries.flatMap fun entry =>
    List.replicate (entry.2.queue.length + 1) (.remoteTracks entry.1)

/-- `while let Some(task) = self.switcher.current()`: the given turns, and then
    those that are still needed until no task has anything to pop. -/
def popAll (now : Instant) (schedule : Schedule) (s : EndpointInternal Selector) :
    Except Panic (EndpointInternal Selector) := do
  let s ← popTasks env now schedule s
  let s ← popTasks env now s.allocatorTurns s
  let s ← popTasks env now s.localTurns s
  popTasks env now s.remoteTurns s

/-- The loop of `pop_output`: turns until something is queued. -/
def poll (now : Instant) :
    Schedule → EndpointInternal Selector → Except Panic (EndpointInternal Selector)
  | [], s => .ok s
  | pick :: rest, s =>
      if s.queue.isEmpty then do
        let s' ← s.popTask env now pick
        poll now rest s'
      else .ok s

/-! ### Joining and leaving -/

/-- What an endpoint queues when it leaves a room. -/
def leaveOutputs (s : EndpointInternal Selector) (now : Instant) (joined : Joined) :
    List InternalOutput :=
  [.cluster joined.hash .leave] ++ s.recorded now .leaveRoom ++
    [.peerEvent now (.leave joined.room joined.peer)]

/-- The loops over `pairs()` of both tables, with one input for each track. -/
def broadcast (s : EndpointInternal Selector) (now : Instant) (toLocals : LocalTrack.Input)
    (toRemotes : RemoteTrack.Input) : Except Panic (EndpointInternal Selector) := do
  let localTracks ← TaskGroup.onEvents
    (EndpointLocalTrack.onEvent env.selector env.timestampMs now toLocals)
    (s.localTracksId.pairs.map Prod.snd) s.localTracks
  let remoteTracks ← TaskGroup.onEvents (EndpointRemoteTrack.onEvent now toRemotes)
    (s.remoteTracksId.pairs.map Prod.snd) s.remoteTracks
  .ok { s with localTracks := localTracks, remoteTracks := remoteTracks }

def leaveRoom (s : EndpointInternal Selector) (now : Instant) (schedule : Schedule) :
    Except Panic (EndpointInternal Selector) :=
  match s.joined with
  | none => .ok s
  | some joined => do
      let s ← { s with joined := none }.broadcast env now .leaveRoom .leaveRoom
      let s ← popAll env now schedule s
      .ok (s.push (s.leaveOutputs now joined))

/-- What an endpoint queues when it joins a room. -/
def joinOutputs (s : EndpointInternal Selector) (now : Instant) (hash : ClusterRoomHash)
    (req : WaitJoin) : List InternalOutput :=
  [.cluster hash (.join req.peer req.peerMeta req.publish req.subscribe req.mixer)] ++
    s.recorded now (.joinRoom s.cfg.app.app req.room req.peer) ++
    [.peerEvent now (.join req.room req.peer)]

def joinRoom (s : EndpointInternal Selector) (now : Instant) (schedule : Schedule)
    (req : WaitJoin) : Except Panic (EndpointInternal Selector) := do
  let hash := ClusterRoomHash.generate env.hasher s.cfg.app req.room
  let s ← (s.push [.rpcRes req.reqId (.joinRoom (.ok ()))]).leaveRoom env now schedule
  let s := { s with joined := some ⟨hash, req.room, req.peer, req.mixer.map AudioMixerConfig.mode⟩ }
  (s.push (s.joinOutputs now hash req)).broadcast env now (.joinRoom hash) (.joinRoom hash)

def onShutdown (s : EndpointInternal Selector) (now : Instant) (schedule : Schedule) :
    Except Panic (EndpointInternal Selector) :=
  if s.shutdown then .ok s
  else do
    let localTracks ← s.localTracks.onAll (EndpointLocalTrack.onShutdown now)
    let remoteTracks ← s.remoteTracks.onAll (EndpointRemoteTrack.onShutdown now)
    let s ← popAll env now schedule
      { s with shutdown := true, localTracks := localTracks, remoteTracks := remoteTracks }
    match s.joined with
    | none => .ok s
    | some joined => .ok ({ s with joined := none }.push (s.leaveOutputs now joined))

def onTick (s : EndpointInternal Selector) (now : Instant) :
    Except Panic (EndpointInternal Selector) := do
  let localTracks ← s.localTracks.onAll fun t =>
    .ok (EndpointLocalTrack.onTick env.selector env.timestampMs now t)
  .ok { s with bitrateAllocator := s.bitrateAllocator.onTick, localTracks := localTracks }

/-! ### The transport -/

/-- `(pre_ts - now).as_millis() as u32`. -/
def afterMs (preTs now : Instant) : UInt32 := UInt32.ofNat (Instant.millisSince preTs now)

def onTransportStateChanged (s : EndpointInternal Selector) (now : Instant)
    (schedule : Schedule) (state : TransportState) :
    Except Panic (EndpointInternal Selector) :=
  let preState := s.state
  let s := { s with state := some (now, state) }
  match state with
  | .new => .ok s
  | .connecting ip => .ok (s.push [.peerEvent now (.connecting ip)])
  | .connectError _ =>
      match preState with
      | none => .error ⟨"Should have previous state"⟩
      | some (preTs, _) =>
          (s.push [.peerEvent now (.connectError (afterMs preTs now) 0)]).onShutdown env now
            schedule
  | .connected ip =>
      match preState with
      | none => .error ⟨"Should have previous state"⟩
      | some (preTs, preEvent) =>
          let event := match preEvent with
            | .reconnecting _ => PeerEvent.reconnected (afterMs preTs now) ip
            | _ => PeerEvent.connected (afterMs preTs now) ip
          let s := s.push [.peerEvent now event]
          match s.waitJoin with
          | none => .ok s
          | some req => { s with waitJoin := none }.joinRoom env now schedule req
  | .reconnecting ip => .ok (s.push [.peerEvent now (.reconnect ip)])
  | .disconnected _ =>
      (s.push ([.peerEvent now (.disconnected 0 0)] ++ s.recorded now .disconnected)).onShutdown
        env now schedule

def onTransportRemoteTrack (s : EndpointInternal Selector) (now : Instant) (hint : Nat)
    (track : RemoteTrackId) (event : RemoteTrackEvent) :
    Except Panic (EndpointInternal Selector) :=
  let s := match event.needCreate with
    | none => s
    | some (name, _, trackMeta) =>
        let room := s.joined.map (·.hash)
        { s with
            remoteTracks := s.remoteTracks.addTask hint
              (.new room track name trackMeta s.cfg.record)
            remoteTracksId := s.remoteTracksId.insert track (s.remoteTracks.freeIndex hint) }
  match s.remoteTracksId.get1 track with
  | none => .ok s
  | some index => s.toRemote now index (.event event)

def onTransportLocalTrack (s : EndpointInternal Selector) (now : Instant) (hint : Nat)
    (track : LocalTrackId) (event : LocalTrackEvent) :
    Except Panic (EndpointInternal Selector) :=
  let s := match event.needCreate with
    | none => s
    | some kind =>
        let room := s.joined.map (·.hash)
        { s with
            localTracks := s.localTracks.addTask hint (.new env.selector track kind room)
            localTracksId := s.localTracksId.insert track (s.localTracks.freeIndex hint) }.push
          [.peerEvent now (.localTrack (Int32.ofNat track.toNat) kind.proto)]
  match s.localTracksId.get1 track with
  | none => .ok s
  | some index => s.toLocal env now index (.event event)

def onTransportEvent (s : EndpointInternal Selector) (now : Instant) (schedule : Schedule)
    (hint : Nat) : TransportEvent → Except Panic (EndpointInternal Selector)
  | .state state => s.onTransportStateChanged env now schedule state
  | .remoteTrack track event => s.onTransportRemoteTrack now hint track event
  | .localTrack track event => s.onTransportLocalTrack env now hint track event
  | .stats => .ok s
  | .egressBitrateEstimate bitrate =>
      .ok { s with bitrateAllocator :=
        s.bitrateAllocator.setEgressEstimate (min bitrate s.cfg.maxEgressBitrate) }

/-! ### Requests -/

/-- The transport is not connected yet, so a join has to wait. -/
def connecting (s : EndpointInternal Selector) : Bool :=
  match s.state with
  | none => true
  | some (_, .connecting _) => true
  | _ => false

/-- The pattern of most requests: in a room, acknowledge and forward to it; outside
    of it, refuse. -/
def forward (s : EndpointInternal Selector) (reqId : EndpointReqId) (res : RpcResult → EndpointRes)
    (room : Option ClusterRoomHash) (err : EndpointErrors) (control : ClusterEndpointControl) :
    EndpointInternal Selector :=
  match room with
  | some hash => s.push [.rpcRes reqId (res (.ok ())), .cluster hash control]
  | none => s.push [.rpcRes reqId (res (.error (.new2 err)))]

/-- The room, for an endpoint that mixes manually. -/
def manualRoom (s : EndpointInternal Selector) : Option ClusterRoomHash :=
  match s.joined with
  | some ⟨hash, _, _, some .manual⟩ => some hash
  | _ => none

def onAudioMixerReq (s : EndpointInternal Selector) (reqId : EndpointReqId) :
    EndpointAudioMixerReq → EndpointInternal Selector
  | .attach sources =>
      s.forward reqId (fun res => .audioMixer (.attach res)) s.manualRoom .audioMixerWrongMode
        (.audioMixer (.attach sources))
  | .detach sources =>
      s.forward reqId (fun res => .audioMixer (.detach res)) s.manualRoom .audioMixerWrongMode
        (.audioMixer (.detach sources))

def onMessageChannelReq (s : EndpointInternal Selector) (reqId : EndpointReqId)
    (label : MessageChannelLabel) (req : EndpointMessageChannelReq) :
    EndpointInternal Selector :=
  let room := s.joined.map (·.hash)
  match req with
  | .subscribe =>
      s.forward reqId (fun res => .messageChannel label (.subscribe res)) room
        .endpointNotInRoom (.messageChannel label .subscribe)
  | .unsubscribe =>
      s.forward reqId (fun res => .messageChannel label (.unsubscribe res)) room
        .endpointNotInRoom (.messageChannel label .unsubscribe)
  | .startPublish =>
      s.forward reqId (fun res => .messageChannel label (.startPublish res)) room
        .endpointNotInRoom (.messageChannel label .startPublish)
  | .stopPublish =>
      s.forward reqId (fun res => .messageChannel label (.stopPublish res)) room
        .endpointNotInRoom (.messageChannel label .stopPublish)
  | .publishData data =>
      match s.joined with
      | some joined =>
          s.push [.rpcRes reqId (.messageChannel label (.publishData (.ok ()))),
            .cluster joined.hash (.messageChannel label (.publishData joined.peer data))]
      | none =>
          s.push [.rpcRes reqId
            (.messageChannel label (.publishData (.error (.new2 .endpointNotInRoom))))]

def onTransportRpc (s : EndpointInternal Selector) (now : Instant) (schedule : Schedule)
    (reqId : EndpointReqId) : EndpointReq → Except Panic (EndpointInternal Selector)
  | .joinRoom room peer peerMeta publish subscribe mixer =>
      let req := ⟨reqId, room, peer, peerMeta, publish, subscribe, mixer⟩
      if s.connecting then .ok { s with waitJoin := some req }
      else s.joinRoom env now schedule req
  | .leaveRoom =>
      match s.waitJoin with
      | some _ => .ok ({ s with waitJoin := none }.push [.rpcRes reqId (.leaveRoom (.ok ()))])
      | none => (s.push [.rpcRes reqId (.leaveRoom (.ok ()))]).leaveRoom env now schedule
  | .subscribePeer peer =>
      .ok (s.forward reqId .subscribePeer (s.joined.map (·.hash)) .endpointNotInRoom
        (.subscribePeer peer))
  | .unsubscribePeer peer =>
      .ok (s.forward reqId .unsubscribePeer (s.joined.map (·.hash)) .endpointNotInRoom
        (.unsubscribePeer peer))
  | .remoteTrack track req =>
      match s.remoteTracksId.get1 track with
      | none => .ok s
      | some index => s.toRemote now index (.rpcReq reqId req)
  | .localTrack track req =>
      match s.localTracksId.get1 track with
      | none => .ok s
      | some index => s.toLocal env now index (.rpcReq reqId req)
  | .audioMixer req => .ok (s.onAudioMixerReq reqId req)
  | .messageChannel label req => .ok (s.onMessageChannelReq reqId label req)

/-! ### The cluster -/

def onClusterEvent (s : EndpointInternal Selector) (now : Instant) :
    ClusterEndpointEvent → Except Panic (EndpointInternal Selector)
  | .peerJoined peer peerMeta => .ok (s.push [.event (.peerJoined peer peerMeta)])
  | .peerLeaved peer peerMeta => .ok (s.push [.event (.peerLeaved peer peerMeta)])
  | .trackStarted peer track trackMeta =>
      .ok (s.push [.event (.peerTrackStarted peer track trackMeta)])
  | .trackStopped peer track trackMeta =>
      .ok (s.push [.event (.peerTrackStopped peer track trackMeta)])
  | .audioMixer (.slotSet slot peer track) =>
      .ok (s.push [.event (.audioMixer (.slotSet slot peer track))])
  | .audioMixer (.slotUnset slot) => .ok (s.push [.event (.audioMixer (.slotUnset slot))])
  | .remoteTrack track event =>
      match s.remoteTracksId.get1 track with
      | none => .ok s
      | some index => s.toRemote now index (.cluster event)
  | .localTrack track event =>
      match s.localTracksId.get1 track with
      | none => .ok s
      | some index => s.toLocal env now index (.cluster event)
  | .messageChannelData label peer data =>
      .ok (s.push [.event (.channelMessage label peer data)])

/-! ### Inputs -/

inductive Input where
  | tick (now : Instant)
  | shutdown (now : Instant) (schedule : Schedule)
  | transport (now : Instant) (schedule : Schedule) (hint : Nat) (event : TransportEvent)
  | rpc (now : Instant) (schedule : Schedule) (reqId : EndpointReqId) (req : EndpointReq)
  | cluster (now : Instant) (event : ClusterEndpointEvent)
  | poll (now : Instant) (schedule : Schedule)

def step (s : EndpointInternal Selector) : Input → Except Panic (EndpointInternal Selector)
  | .tick now => s.onTick env now
  | .shutdown now schedule => s.onShutdown env now schedule
  | .transport now schedule hint event => s.onTransportEvent env now schedule hint event
  | .rpc now schedule reqId req => s.onTransportRpc env now schedule reqId req
  | .cluster now event => s.onClusterEvent env now event
  | .poll now schedule => poll env now schedule s

end

end EndpointInternal

end MediaServer.Endpoint
