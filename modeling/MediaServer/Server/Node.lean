import MediaServer.Server.Worker

/-!
# A media node

The loop of `run_media_server` in `bin/src/server/media.rs` with its workers.  The loop gives
a request a number, keeps the sender that waits for the answer in a table, takes the node and
the worker off the connection id, and sends the request to the worker that the id names or,
for a new session, to the one with the least load.  A worker handles its requests one after
another and hands its outputs back to the loop, which puts the taken parts back on the ids and
answers the waiting sender.

Loop and workers run side by side.  Which of them moves next, which session of a worker gets
the next turn, and when a session changes or ends for reasons of its own, is up to the
actions; so is what the media stacks do.  A session ends only when it has handed out all its
answers, because until then it is not empty.
-/

namespace MediaServer.Server

open Rpc Runtime Collections

/-- A worker with the requests that were sent to it. -/
structure Cell (Rtc Rtp : Type) where
  inbox : List (Nat × RpcReq Nat)
  worker : Worker Rtc Rtp

/-- The state of the loop: of the waiting senders, the numbers of their requests. -/
structure Node (Rtc Rtp : Type) where
  nodeId : NodeId
  nodeSession : UInt64
  cells : List (Cell Rtc Rtp)
  reqIdSeed : Nat
  reqs : List Nat
  events : List (Nat × UInt16 × RpcRes Nat)

/-- What happens at a node. -/
inductive Act (Rtc Rtp : Type) where
  | request (req : RpcReq ClusterConnId) (best : Nat)
  | receive (worker : Nat) (media : Media Rtc Rtp) (draw : Draw)
  | pop (worker : Nat) (family : Family) (turn : Nat)
  | deliver
  | changeRtc (worker turn : Nat) (change : Rtc → Rtc)
  | changeRtp (worker turn : Nat) (change : Rtp → Rtp)
  | endRtc (worker turn : Nat)
  | endRtp (worker turn : Nat)

def Act.asks {Rtc Rtp : Type} : Act Rtc Rtp → Option (RpcReq ClusterConnId)
  | .request req _ => some req
  | _ => none

/-! ### Sessions on their own -/

section Sessions

variable {State Out : Type}

/-- A session changes: a packet, a tick, an event of its room. -/
def changeSession (g : TaskGroup (Session State Out)) (turn : Nat) (change : State → State) :
    Option (TaskGroup (Session State Out)) := do
  let session ← g.get turn
  return g.set turn { session with state := change session.state }

/-- A session that has become empty is removed. -/
def endSession (g : TaskGroup (Session State Out)) (turn : Nat) :
    Option (TaskGroup (Session State Out)) := do
  let session ← g.get turn
  if session.queue.isEmpty then return ⟨g.tasks.swapRemove turn⟩ else none

end Sessions

namespace Worker

variable {Rtc Rtp : Type}

def changeRtc (w : Worker Rtc Rtp) (turn : Nat) (change : Rtc → Rtc) : Option (Worker Rtc Rtp) := do
  let endpoints ← changeSession w.webrtc.endpoints turn change
  return { w with webrtc := { w.webrtc with endpoints } }

def changeRtp (w : Worker Rtc Rtp) (turn : Nat) (change : Rtp → Rtp) : Option (Worker Rtc Rtp) := do
  let endpoints ← changeSession w.rtpengine.endpoints turn change
  return { w with rtpengine := ⟨endpoints⟩ }

def endRtc (w : Worker Rtc Rtp) (turn : Nat) : Option (Worker Rtc Rtp) := do
  let endpoints ← endSession w.webrtc.endpoints turn
  return { w with webrtc := { w.webrtc with endpoints } }

def endRtp (w : Worker Rtc Rtp) (turn : Nat) : Option (Worker Rtc Rtp) := do
  let endpoints ← endSession w.rtpengine.endpoints turn
  return { w with rtpengine := ⟨endpoints⟩ }

end Worker

namespace Node

variable {Rtc Rtp : Type}

def start (nodeId : NodeId) (nodeSession : UInt64) (workers : Nat) : Node Rtc Rtp :=
  ⟨nodeId, nodeSession, List.replicate workers ⟨[], .new⟩, 0, [], []⟩

def sendTo (n : Node Rtc Rtp) (worker : Nat) (ext : Nat × RpcReq Nat) : Node Rtc Rtp :=
  { n with cells := n.cells.modify worker fun cell => { cell with inbox := cell.inbox ++ [ext] } }

/-- A request comes in.  One for a worker that does not exist is only logged. -/
def dispatch (n : Node Rtc Rtp) (best : Nat) (req : RpcReq ClusterConnId) : Node Rtc Rtp :=
  let reqId := n.reqIdSeed
  let n := { n with reqIdSeed := reqId + 1, reqs := n.reqs ++ [reqId] }
  let (req, _) := req.down ClusterConnId.down
  let (req, worker) := req.down ServerConnId.down
  match worker with
  | some worker =>
    if worker < UInt16.ofNat n.cells.length then n.sendTo worker.toNat (reqId, req) else n
  | none => n.sendTo best (reqId, req)

/-- A worker handles its next request. -/
def receive (n : Node Rtc Rtp) (worker : Nat) (media : Media Rtc Rtp) (draw : Draw) :
    Option (Node Rtc Rtp) := do
  let cell ← n.cells[worker]?
  match cell.inbox with
  | [] => none
  | (reqId, req) :: rest =>
    return { n with
      cells := n.cells.set worker ⟨rest, cell.worker.processRpc media draw reqId req⟩ }

/-- A worker hands an answer to the loop. -/
def pop (n : Node Rtc Rtp) (worker : Nat) (family : Family) (turn : Nat) :
    Option (Node Rtc Rtp) := do
  let cell ← n.cells[worker]?
  let ((reqId, res), w) ← cell.worker.popOutput family turn
  return { n with
    cells := n.cells.set worker { cell with worker := w }
    events := n.events ++ [(reqId, UInt16.ofNat worker, res)] }

/-- The loop answers the sender that waits for it, if one does. -/
def deliver (n : Node Rtc Rtp) : Option (Node Rtc Rtp × Option (Nat × RpcRes ClusterConnId)) :=
  match n.events with
  | [] => none
  | (reqId, worker, res) :: rest =>
    let res := (res.up (ServerConnId.up worker)).up (ClusterConnId.up (n.nodeId, n.nodeSession))
    if reqId ∈ n.reqs then
      some ({ n with events := rest, reqs := n.reqs.erase reqId }, some (reqId, res))
    else some ({ n with events := rest }, none)

/-- Something that concerns one worker only. -/
def onWorker (n : Node Rtc Rtp) (worker : Nat)
    (change : Worker Rtc Rtp → Option (Worker Rtc Rtp)) : Option (Node Rtc Rtp) := do
  let cell ← n.cells[worker]?
  let w ← change cell.worker
  return { n with cells := n.cells.set worker { cell with worker := w } }

def step (n : Node Rtc Rtp) :
    Act Rtc Rtp → Option (Node Rtc Rtp × Option (Nat × RpcRes ClusterConnId))
  | .request req best => if best < n.cells.length then some (n.dispatch best req, none) else none
  | .receive worker media draw => (n.receive worker media draw).map (·, none)
  | .pop worker family turn => (n.pop worker family turn).map (·, none)
  | .deliver => n.deliver
  | .changeRtc worker turn change => (n.onWorker worker (·.changeRtc turn change)).map (·, none)
  | .changeRtp worker turn change => (n.onWorker worker (·.changeRtp turn change)).map (·, none)
  | .endRtc worker turn => (n.onWorker worker (·.endRtc turn)).map (·, none)
  | .endRtp worker turn => (n.onWorker worker (·.endRtp turn)).map (·, none)

/-- A step that answers nobody. -/
theorem silent_eq_some {found : Option (Node Rtc Rtp)} {n : Node Rtc Rtp}
    {answer : Option (Nat × RpcRes ClusterConnId)} (h : found.map (·, none) = some (n, answer)) :
    found = some n ∧ answer = none := by
  obtain ⟨n', hfound, heq⟩ := Option.map_eq_some_iff.mp h
  cases heq
  exact ⟨hfound, rfl⟩

end Node

/-- A media stack that takes everything. -/
def plainMedia : Media Unit Unit where
  iceLite := true
  newRtc _ _ _ offer := .ok ((), offer)
  addCandidate rtc _ := some rtc
  isOffer _ := true
  acceptOffer rtc sdp := (rtc, some sdp)
  shutdownRtc rtc := rtc
  newOffer _ _ := .ok ((), "v=0")
  newAnswer _ _ offer := .ok ((), offer)
  setAnswer rtp _ := .ok rtp
  disconnectRtp rtp := rtp

def firstDraw : Draw := ⟨0, 7, "whep-7"⟩

end MediaServer.Server
