import MediaServer.Lib.Fallible
import MediaServer.Lib.Table
import MediaServer.Protocol

/-!
# The storage of the connector

The connector turns the events of the peers into rows: a room, a peer of the room, and a session
of the peer for every stay, which has left once its leaving time is set.  A room is destroyed by a
tick some time after its last session has left.  On the way the storage queues the events that
are sent to the hooks.

Rows are never deleted, so a table is the list of its rows and the id of a row is its position.
Every operation of the database may fail, by a function that says which of them do; a failure
ends the request and keeps what had been done, the queued hook events included.  No request
executes an operation twice, and a tick destroys a room once, so the name of an operation is
enough.

The parameters of the events that are only written down are an arbitrary type.
-/

namespace MediaServer.Connector.Sql

open Fallible

/-- The events of a peer that are only written down. -/
inductive Notice where
  | routeBegin
  | routeSuccess
  | routeError
  | connecting
  | connected
  | connectError
  | reconnect
  | reconnected
  | disconnected
  | remoteTrackStarted
  | remoteTrackEnded
  | localTrack
  | localTrackAttach
  | localTrackDetach
deriving DecidableEq

def Notice.name : Notice → String
  | .routeBegin => "RouteBegin"
  | .routeSuccess => "RouteSuccess"
  | .routeError => "RouteError"
  | .connecting => "Connecting"
  | .connected => "Connected"
  | .connectError => "ConnectError"
  | .reconnect => "Reconnect"
  | .reconnected => "Reconnected"
  | .disconnected => "Disconnected"
  | .remoteTrackStarted => "RemoteTrackStarted"
  | .remoteTrackEnded => "RemoteTrackEnded"
  | .localTrack => "LocalTrack"
  | .localTrackAttach => "LocalTrackAttach"
  | .localTrackDetach => "LocalTrackDetach"

/-- `peer_event::Event`. -/
inductive PeerAction (Params : Type) where
  | notice (kind : Notice) (params : Params)
  | stats (params : Params)
  | join (room peer : String)
  | leave (room peer : String)
deriving DecidableEq

structure PeerEvent (Params : Type) where
  app : AppId
  sessionId : UInt64
  event : Option (PeerAction Params)
deriving DecidableEq

inductive RoomEvent where
  | started
  | peerJoined (peer : String)
  | peerLeaved (peer : String)
  | allPeersLeaved
  | stopped
deriving DecidableEq

/-- `hook_event::Event`, without the events of the recorder. -/
inductive HookKind (Params : Type) where
  | room (app room : String) (event : RoomEvent)
  | peer (event : PeerEvent Params)

structure HookEvent (Params : Type) where
  node : NodeId
  ts : Nat
  event : HookKind Params

/-! ### Tables -/

structure SessionRow where
  id : UInt64
  app : String
  createdAt : Nat

structure RoomRow where
  app : String
  room : String
  createdAt : Nat
  lastPeerLeavedAt : Option Nat
  destroyedAt : Option Nat

structure PeerRow where
  room : Nat
  peer : String
  createdAt : Nat

structure PeerSessionRow where
  session : UInt64
  peer : Nat
  room : Nat
  createdAt : Nat
  joinedAt : Nat
  leavedAt : Option Nat

/-- `about` stands for the parameters of the event as JSON. -/
structure EventRow (Params : Type) where
  node : NodeId
  nodeTs : Nat
  session : UInt64
  createdAt : Nat
  event : String
  about : PeerAction Params

/-- What identifies a request: its node, its time and its id. -/
abbrev RequestKey := NodeId × Nat × Nat

structure Storage (Params : Type) where
  node : NodeId
  roomDestroyAfterMs : Nat
  sessions : List SessionRow
  rooms : Table RoomRow
  peers : Table PeerRow
  peerSessions : Table PeerSessionRow
  events : Table (EventRow Params)
  /-- The requests that were answered, the latest first. -/
  lru : List RequestKey
  hookEvents : List (AppId × HookEvent Params)

def LRU_CAPACITY : Nat := 10000

/-- `LruCache::put`. -/
def lruPut (lru : List RequestKey) (key : RequestKey) : List RequestKey :=
  (key :: lru.erase key).take LRU_CAPACITY

/-- A room that has not been destroyed, by its name. -/
def RoomRow.isOpen (app room : String) (row : RoomRow) : Bool :=
  row.app = app && row.room = room && row.destroyedAt.isNone

/-- A room that has been empty since the given time or longer. -/
def RoomRow.isExited (bound : Nat) (row : RoomRow) : Bool :=
  row.destroyedAt.isNone && row.lastPeerLeavedAt.any (· ≤ bound)

def PeerRow.isPeer (room : Nat) (peer : String) (row : PeerRow) : Bool :=
  row.room = room && row.peer = peer

def PeerSessionRow.isOf (peer : Nat) (session : UInt64) (row : PeerSessionRow) : Bool :=
  row.peer = peer && row.session = session

def PeerSessionRow.isOnline (row : PeerSessionRow) : Bool := row.leavedAt.isNone

/-! ### Operations of the database -/

inductive DbOp where
  | sessionFind
  | sessionInsert
  | roomFind
  | roomSave
  | roomInsert
  | peerFind
  | peerInsert
  | peerSessionFind
  | peerSessionInsert
  | peerSessionSave
  | onlineCount
  | roomUpdate
  | eventInsert
  | exitedRooms
  | roomDestroy (id : Nat)
deriving DecidableEq

inductive Fault where
  | db
  | panic

abbrev Db (Params α : Type) := EStateM Fault (Storage Params) α

namespace Storage

variable {Params : Type}

def new (node : NodeId) (roomDestroyAfterMs : Nat) : Storage Params :=
  ⟨node, roomDestroyAfterMs, [], .empty, .empty, .empty, .empty, [], []⟩

/-- The sessions that are in a room: those that have not left, of a peer of the room. -/
def onlinePeersCount (s : Storage Params) (room : Nat) : Nat :=
  s.peerSessions.count fun row => row.isOnline && (s.peers.get row.peer).any (·.room = room)

def pushRoom (app room : String) (ts : Nat) (event : RoomEvent) : Db Params Unit :=
  modify fun s => { s with hookEvents := s.hookEvents ++ [(app, ⟨s.node, ts, .room app room event⟩)] }

section

variable (fails : DbOp → Bool)

def query {α : Type} (op : DbOp) (f : Storage Params → α) : Db Params α :=
  attempt (fails op) .db fun s => (f s, s)

def exec (op : DbOp) (f : Storage Params → Storage Params) : Db Params Unit :=
  attempt (fails op) .db fun s => ((), f s)

/-- A room that somebody joins is no longer empty. -/
def backOnline (room : Nat) (info : RoomRow) : Db Params Unit :=
  if info.lastPeerLeavedAt.isSome then
    exec fails .roomSave fun s =>
      { s with rooms := s.rooms.update room fun row => { row with lastPeerLeavedAt := none } }
  else pure ()

def upsertRoom (now eventTs : Nat) (app room : String) : Db Params Nat := do
  let found ← query fails .roomFind fun s => s.rooms.find (RoomRow.isOpen app room)
  match found with
  | some (id, info) => do
    backOnline fails id info
    pure id
  | none => do
    pushRoom app room eventTs .started
    attempt (fails .roomInsert) .db fun s =>
      (s.rooms.nextId, { s with rooms := s.rooms.insert ⟨app, room, now, none, none⟩ })

def upsertPeer (now : Nat) (room : Nat) (peer : String) : Db Params Nat := do
  let found ← query fails .peerFind fun s => s.peers.find (PeerRow.isPeer room peer)
  match found with
  | some (id, _) => pure id
  | none =>
    attempt (fails .peerInsert) .db fun s =>
      (s.peers.nextId, { s with peers := s.peers.insert ⟨room, peer, now⟩ })

def upsertPeerSession (now room peer : Nat) (session : UInt64) (eventTs : Nat) :
    Db Params Nat := do
  let found ← query fails .peerSessionFind fun s =>
    s.peerSessions.find fun row => row.isOf peer session && row.isOnline
  match found with
  | some (id, _) => pure id
  | none =>
    attempt (fails .peerSessionInsert) .db fun s =>
      (s.peerSessions.nextId,
        { s with peerSessions := s.peerSessions.insert ⟨session, peer, room, now, eventTs, none⟩ })

def upsertSession (now : Nat) (app : String) (session : UInt64) : Db Params Unit := do
  let known ← query fails .sessionFind fun s => s.sessions.any (·.id = session)
  if known then pure ()
  else exec fails .sessionInsert fun s => { s with sessions := s.sessions ++ [⟨session, app, now⟩] }

def insertEvent (now : Nat) (src : NodeId) (eventTs : Nat) (session : UInt64) (event : String)
    (about : PeerAction Params) : Db Params Unit :=
  exec fails .eventInsert fun s =>
    { s with events := s.events.insert ⟨src, eventTs, session, now, event, about⟩ }

/-- The session of the peer that is found has left; the query does not ask whether it had
    left before. -/
def leavePeerSession (peer : Nat) (session : UInt64) (eventTs : Nat) : Db Params Unit := do
  let found ← query fails .peerSessionFind fun s =>
    s.peerSessions.find (PeerSessionRow.isOf peer session)
  match found with
  | some (id, _) =>
    exec fails .peerSessionSave fun s =>
      { s with peerSessions := s.peerSessions.update id fun row =>
          { row with leavedAt := some eventTs } }
  | none => pure ()

/-- The time since when a room is empty is noted when its last session has left. -/
def leaveRoom (now eventTs : Nat) (app room : String) (roomId onlinePeers : Nat) :
    Db Params Unit :=
  if onlinePeers = 0 then do
    exec fails .roomUpdate fun s =>
      { s with rooms := s.rooms.update roomId fun row => { row with lastPeerLeavedAt := some now } }
    pushRoom app room eventTs .allPeersLeaved
  else pure ()

/-- The `Join` branch of `on_peer_event`. -/
def onJoin (now : Nat) (src : NodeId) (eventTs : Nat) (app : String) (session : UInt64)
    (room peer : String) : Db Params Unit := do
  let roomId ← upsertRoom fails now eventTs app room
  let peerId ← upsertPeer fails now roomId peer
  let _ ← upsertPeerSession fails now roomId peerId session eventTs
  pushRoom app room eventTs (.peerJoined peer)
  insertEvent fails now src eventTs session "Join" (.join room peer)

/-- The `Leave` branch of `on_peer_event`. -/
def onLeave (now : Nat) (src : NodeId) (eventTs : Nat) (app : String) (session : UInt64)
    (room peer : String) : Db Params Unit := do
  pushRoom app room eventTs (.peerLeaved peer)
  let roomId ← upsertRoom fails now eventTs app room
  let peerId ← upsertPeer fails now roomId peer
  leavePeerSession fails peerId session eventTs
  let onlinePeers ← query fails .onlineCount fun s => s.onlinePeersCount roomId
  leaveRoom fails now eventTs app room roomId onlinePeers
  insertEvent fails now src eventTs session "Leave" (.leave room peer)

def onPeerEvent (now : Nat) (src : NodeId) (eventTs : Nat) (app : String) (session : UInt64)
    (event : PeerAction Params) : Db Params Unit := do
  upsertSession fails now app session
  match event with
  | .notice kind _ => insertEvent fails now src eventTs session kind.name event
  | .stats _ => throw .panic
  | .join room peer => onJoin fails now src eventTs app session room peer
  | .leave room peer => onLeave fails now src eventTs app session room peer

/-- The loop of `close_exited_rooms`. -/
def closeRooms (now : Nat) : List (Nat × RoomRow) → Db Params Unit
  | [] => pure ()
  | (id, room) :: rest => do
    exec fails (.roomDestroy id) fun s =>
      { s with rooms := s.rooms.update id fun row => { row with destroyedAt := some now } }
    pushRoom room.app room.room now .stopped
    closeRooms now rest

def closeExitedRooms (now : Nat) : Db Params Unit := do
  let s ← get
  -- the subtraction of the source overflows
  if now < s.roomDestroyAfterMs then throw .panic
  else
    let rooms ← query fails .exitedRooms fun s =>
      (s.rooms.findAll (RoomRow.isExited (now - s.roomDestroyAfterMs))).take 100
    closeRooms fails now rooms

/-- An error of the database is only logged; `none` is a panic. -/
def onTick (now : Nat) (s : Storage Params) : Option (Storage Params) :=
  match closeExitedRooms fails now s with
  | .ok _ s' => some s'
  | .error .db s' => some s'
  | .error .panic _ => none

/-- The answer to a request of a peer. -/
structure PeerRes where

/-- A request of a peer; `none` is a panic. -/
def onEvent (now : Nat) (src : NodeId) (eventTs reqId : Nat) (event : PeerEvent Params)
    (s : Storage Params) : Option (Option PeerRes × Storage Params) :=
  if (src, eventTs, reqId) ∈ s.lru then some (some {}, s)
  else
    match event.event with
    | none => some (none, s)
    | some action =>
      match onPeerEvent fails now src eventTs event.app event.sessionId action s with
      | .ok _ s' =>
        some (some {},
          { s' with
            hookEvents := s'.hookEvents ++ [(event.app, ⟨src, eventTs, .peer event⟩)]
            lru := lruPut s'.lru (src, eventTs, reqId) })
      | .error .db s' => some (none, s')
      | .error .panic _ => none

end

/-- Nothing fails. -/
def noFailure : DbOp → Bool := fun _ => false

/-! ### What the operations need -/

section

variable {α : Type} {fails : DbOp → Bool} {E : Fault → Storage Params → Prop}
  {s : Storage Params}

theorem wp_query {op : DbOp} {f : Storage Params → α} {Q : α → Storage Params → Prop} :
    wp (query fails op f) Q E s ↔ if fails op then E .db s else Q (f s) s := wp_attempt

theorem wp_exec {op : DbOp} {f : Storage Params → Storage Params}
    {Q : Unit → Storage Params → Prop} :
    wp (exec fails op f) Q E s ↔ if fails op then E .db s else Q () (f s) := wp_attempt

theorem wp_pushRoom {app room : String} {ts : Nat} {event : RoomEvent}
    {Q : Unit → Storage Params → Prop} :
    wp (pushRoom app room ts event) Q E s ↔
      Q () { s with hookEvents := s.hookEvents ++ [(app, ⟨s.node, ts, .room app room event⟩)] } :=
  Iff.rfl

theorem wp_upsertSession {now : Nat} {app : String} {session : UInt64}
    {Q : Unit → Storage Params → Prop} :
    wp (upsertSession fails now app session) Q E s ↔
      if fails .sessionFind then E .db s
      else if s.sessions.any (·.id = session) then Q () s
      else if fails .sessionInsert then E .db s
      else Q () { s with sessions := s.sessions ++ [⟨session, app, now⟩] } := by
  rw [upsertSession, wp_bind, wp_query]
  split
  · rfl
  · rw [wp_ite, wp_pure, wp_exec]

/-- The open room, and whether it has to be marked as not empty. -/
theorem wp_upsertRoom_some {now eventTs : Nat} {app room : String} {Q : Nat → Storage Params → Prop}
    {id : Nat} {info : RoomRow} (hfind : s.rooms.find (RoomRow.isOpen app room) = some (id, info)) :
    wp (upsertRoom fails now eventTs app room) Q E s ↔
      if fails .roomFind then E .db s
      else if info.lastPeerLeavedAt.isSome then
        if fails .roomSave then E .db s
        else Q id { s with
          rooms := s.rooms.update id fun row => { row with lastPeerLeavedAt := none } }
      else Q id s := by
  rw [upsertRoom, wp_bind, wp_query]
  split
  · rfl
  · simp only [hfind, backOnline, wp_bind, wp_ite, wp_exec, wp_pure]

theorem wp_upsertRoom_none {now eventTs : Nat} {app room : String} {Q : Nat → Storage Params → Prop}
    (hfind : s.rooms.find (RoomRow.isOpen app room) = none) :
    wp (upsertRoom fails now eventTs app room) Q E s ↔
      let s' := { s with
        hookEvents := s.hookEvents ++ [(app, ⟨s.node, eventTs, .room app room .started⟩)] }
      if fails .roomFind then E .db s
      else if fails .roomInsert then E .db s'
      else Q s.rooms.nextId { s' with rooms := s.rooms.insert ⟨app, room, now, none, none⟩ } := by
  rw [upsertRoom, wp_bind, wp_query]
  split
  · rfl
  · simp only [hfind, wp_bind, wp_pushRoom, wp_attempt]

theorem wp_upsertPeer {now room : Nat} {peer : String} {Q : Nat → Storage Params → Prop} :
    wp (upsertPeer fails now room peer) Q E s ↔
      if fails .peerFind then E .db s
      else match s.peers.find (PeerRow.isPeer room peer) with
        | some (id, _) => Q id s
        | none =>
          if fails .peerInsert then E .db s
          else Q s.peers.nextId { s with peers := s.peers.insert ⟨room, peer, now⟩ } := by
  rw [upsertPeer, wp_bind, wp_query]
  split
  · rfl
  · cases s.peers.find (PeerRow.isPeer room peer) with
    | some found => rw [wp_pure]
    | none => rw [wp_attempt]

theorem wp_upsertPeerSession {now room peer : Nat} {session : UInt64} {eventTs : Nat}
    {Q : Nat → Storage Params → Prop} :
    wp (upsertPeerSession fails now room peer session eventTs) Q E s ↔
      if fails .peerSessionFind then E .db s
      else match s.peerSessions.find fun row => row.isOf peer session && row.isOnline with
        | some (id, _) => Q id s
        | none =>
          if fails .peerSessionInsert then E .db s
          else Q s.peerSessions.nextId { s with
            peerSessions := s.peerSessions.insert ⟨session, peer, room, now, eventTs, none⟩ } := by
  rw [upsertPeerSession, wp_bind, wp_query]
  split
  · rfl
  · cases s.peerSessions.find fun row => row.isOf peer session && row.isOnline with
    | some found => rw [wp_pure]
    | none => rw [wp_attempt]

theorem wp_leavePeerSession {peer : Nat} {session : UInt64} {eventTs : Nat}
    {Q : Unit → Storage Params → Prop} :
    wp (leavePeerSession fails peer session eventTs) Q E s ↔
      if fails .peerSessionFind then E .db s
      else match s.peerSessions.find (PeerSessionRow.isOf peer session) with
        | some (id, _) =>
          if fails .peerSessionSave then E .db s
          else Q () { s with peerSessions := s.peerSessions.update id fun row =>
            { row with leavedAt := some eventTs } }
        | none => Q () s := by
  rw [leavePeerSession, wp_bind, wp_query]
  split
  · rfl
  · cases s.peerSessions.find (PeerSessionRow.isOf peer session) with
    | some found => rw [wp_exec]
    | none => rw [wp_pure]

theorem wp_leaveRoom {now eventTs : Nat} {app room : String} {roomId onlinePeers : Nat}
    {Q : Unit → Storage Params → Prop} :
    wp (leaveRoom fails now eventTs app room roomId onlinePeers) Q E s ↔
      if onlinePeers = 0 then
        if fails .roomUpdate then E .db s
        else Q () { s with
          rooms := s.rooms.update roomId fun row => { row with lastPeerLeavedAt := some now }
          hookEvents := s.hookEvents ++ [(app, ⟨s.node, eventTs, .room app room .allPeersLeaved⟩)] }
      else Q () s := by
  rw [leaveRoom, wp_ite, wp_bind, wp_exec, wp_pure]
  simp only [wp_pushRoom]

theorem wp_insertEvent {now : Nat} {src : NodeId} {eventTs : Nat} {session : UInt64}
    {event : String} {about : PeerAction Params} {Q : Unit → Storage Params → Prop} :
    wp (insertEvent fails now src eventTs session event about) Q E s ↔
      if fails .eventInsert then E .db s
      else Q () { s with
        events := s.events.insert ⟨src, eventTs, session, now, event, about⟩ } := wp_exec

end

end Storage

end MediaServer.Connector.Sql
