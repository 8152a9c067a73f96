import MediaServer.Connector.MsgQueue

/-!
# The connector agent

A media node sends its requests to the connector through this service.  A request gets the next
id, its owner is remembered under the id, and the message queue sends it until a response with
the id arrives.

The response is accepted when an owner is known under its id, and only then the queue is told.
The queue knows the id only once the message has been sent.  A response that meets a request in
the queue, which an earlier run of the node can have caused because its ids started at zero too,
therefore takes the owner away and leaves the message, and nothing can take it out afterwards.

Requests and responses are the decoded messages; a packet that cannot be decoded is `none`.
-/

namespace MediaServer.Connector

open Collections Execution

structure ConnectorRequest (Req : Type) where
  reqId : Nat
  ts : Nat
  request : Option Req
deriving DecidableEq

structure ConnectorResponse (Res : Type) where
  reqId : Nat
  response : Option Res

instance (Req : Type) : Message (ConnectorRequest Req) := ⟨ConnectorRequest.reqId⟩

inductive Control (Req : Type) where
  | sub
  | request (ts : Nat) (req : Req)

inductive Event (Res : Type) where
  | response (res : Res)
  | stats (queue inflight acked : Nat)
deriving DecidableEq

/-- What the service gives to the network and to the owners of requests. -/
inductive ServiceOutput (Owner Req Res : Type) where
  | event (actor : Owner) (event : Event Res)
  | dataListen
  | dataSend (req : ConnectorRequest Req)
deriving DecidableEq

/-- What the service is given; a control that is not one of the connector's is `none`. -/
inductive ServiceInput (Owner Req Res : Type) where
  | control (owner : Owner) (control : Option (Control Req))
  | fromWorker
  | pong
  | recv (msg : Option (ConnectorResponse Res))
  | other

inductive ServiceSharedInput where
  | tick
  | connection

/-- The number of messages that may be in flight. -/
def MAX_INFLIGHT : Nat := 1024

structure ConnectorAgentService (Owner Req Res : Type) where
  reqIdSeed : Nat
  reqData : IndexMap Nat Owner
  subscriber : Option Owner
  msgQueue : MessageQueue (ConnectorRequest Req)
  queue : List (ServiceOutput Owner Req Res)
  shutdown : Bool

namespace ConnectorAgentService

variable {Owner Req Res : Type}

def new : ConnectorAgentService Owner Req Res :=
  { reqIdSeed := 0
    reqData := ∅
    subscriber := none
    msgQueue := MessageQueue.default
    queue := [.dataListen]
    shutdown := false }

def onSharedInput (agent : ConnectorAgentService Owner Req Res) :
    ServiceSharedInput → ConnectorAgentService Owner Req Res
  | .tick =>
    match agent.subscriber with
    | some subscriber =>
      { agent with
        queue := agent.queue ++ [ServiceOutput.event subscriber
          (.stats agent.msgQueue.waits agent.msgQueue.inflightLen agent.msgQueue.acked)] }
    | none => agent
  | .connection => agent

def onInput (agent : ConnectorAgentService Owner Req Res) :
    ServiceInput Owner Req Res → ConnectorAgentService Owner Req Res
  | .control owner (some (.request ts request)) =>
    let reqId := agent.reqIdSeed
    { agent with
      reqIdSeed := reqId + 1
      reqData := agent.reqData.insert reqId owner
      msgQueue := agent.msgQueue.push ⟨reqId, ts, some request⟩ }
  | .control owner (some .sub) => { agent with subscriber := some owner }
  | .control _ none => agent
  | .fromWorker => agent
  | .pong => agent
  | .recv (some msg) =>
    match agent.reqData.get msg.reqId with
    | some actor =>
      let agent :=
        { agent with
          reqData := agent.reqData.swapRemove msg.reqId
          msgQueue := agent.msgQueue.onAck msg.reqId }
      match msg.response with
      | some res =>
        { agent with queue := agent.queue ++ [ServiceOutput.event actor (.response res)] }
      | none => agent
    | none => agent
  | .recv none => agent
  | .other => agent

def onShutdown (agent : ConnectorAgentService Owner Req Res) :
    ConnectorAgentService Owner Req Res := { agent with shutdown := true }

def popOutput2 (agent : ConnectorAgentService Owner Req Res) (now : Nat) :
    Except Panic (ConnectorAgentService Owner Req Res × Option (ServiceOutput Owner Req Res)) :=
  match agent.queue with
  | out :: queue => .ok ({ agent with queue := queue }, some out)
  | [] => do
    let (msgQueue, out) ← agent.msgQueue.pop MAX_INFLIGHT now
    .ok ({ agent with msgQueue := msgQueue }, out.map .dataSend)

theorem popOutput2_of_nil {agent : ConnectorAgentService Owner Req Res} (hqueue : agent.queue = [])
    {now : Nat} {msgQueue : MessageQueue (ConnectorRequest Req)}
    {ret : Option (ConnectorRequest Req)}
    (hret : agent.msgQueue.pop MAX_INFLIGHT now = .ok (msgQueue, ret)) :
    agent.popOutput2 now = .ok ({ agent with msgQueue := msgQueue }, ret.map .dataSend) := by
  rw [popOutput2]
  split
  · rename_i out queue hcons
    rw [hqueue] at hcons
    cases hcons
  · rw [hret]
    rfl

end ConnectorAgentService

/-! ### Runs -/

inductive AgentCall (Owner Req Res : Type) where
  | onSharedInput (input : ServiceSharedInput)
  | onInput (input : ServiceInput Owner Req Res)
  | onShutdown
  | popOutput2 (now : Nat)

/-- A call that was made, with the outputs it queued or the output it returned. -/
inductive AgentRecord (Owner Req Res : Type) where
  | shared
  | input (input : ServiceInput Owner Req Res) (queued : List (ServiceOutput Owner Req Res))
  | shutdown
  | popped (out : Option (ServiceOutput Owner Req Res))

/-- A service with the calls made so far. -/
structure AgentRun (Owner Req Res : Type) where
  agent : ConnectorAgentService Owner Req Res
  log : List (AgentRecord Owner Req Res)

namespace AgentRecord

variable {Owner Req Res : Type}

/-- A response with this id was handed to this owner. -/
def Answers (record : AgentRecord Owner Req Res) (id : Nat) (owner : Owner) : Prop :=
  ∃ msg queued res, record = .input (.recv (some msg)) queued ∧ msg.reqId = id ∧
    .event owner (.response res) ∈ queued

/-- The request with this id was sent. -/
def Sends (record : AgentRecord Owner Req Res) (id : Nat) : Prop :=
  ∃ req, record = .popped (some (.dataSend req)) ∧ req.reqId = id

end AgentRecord

namespace AgentRun

variable {Owner Req Res : Type}

def start : AgentRun Owner Req Res := ⟨.new, []⟩

def step (r : AgentRun Owner Req Res) :
    AgentCall Owner Req Res → Except Panic (AgentRun Owner Req Res)
  | .onSharedInput input => .ok ⟨r.agent.onSharedInput input, r.log ++ [AgentRecord.shared]⟩
  | .onInput input =>
    let agent := r.agent.onInput input
    .ok ⟨agent, r.log ++ [AgentRecord.input input (agent.queue.drop r.agent.queue.length)]⟩
  | .onShutdown => .ok ⟨r.agent.onShutdown, r.log ++ [AgentRecord.shutdown]⟩
  | .popOutput2 now => do
    let (agent, out) ← r.agent.popOutput2 now
    .ok ⟨agent, r.log ++ [AgentRecord.popped out]⟩

/-- The owners of the requests, in the order of the requests: the place is the id. -/
def owners (log : List (AgentRecord Owner Req Res)) : List Owner :=
  log.filterMap fun
    | .input (.control owner (some (.request _ _))) _ => some owner
    | _ => none

def Waits (r : AgentRun Owner Req Res) (id : Nat) : Prop :=
  ∃ req ∈ r.agent.msgQueue.queue, req.reqId = id

def InFlight (r : AgentRun Owner Req Res) (id : Nat) : Prop :=
  (r.agent.msgQueue.inflight.get id).isSome

/-- No response arrives for a request that still waits to be sent. -/
def Awaited (r : AgentRun Owner Req Res) : AgentCall Owner Req Res → Prop
  | .onInput (.recv (some msg)) => ¬ r.Waits msg.reqId
  | _ => True

variable {r : AgentRun Owner Req Res}

/-- A later call neither answers nor sends what an earlier one has answered. -/
def Final (earlier later : AgentRecord Owner Req Res) : Prop :=
  ∀ id owner, earlier.Answers id owner → (∀ other, ¬ later.Answers id other) ∧ ¬ later.Sends id

/-- The owners and the queue agree.  The log of the queue is the one under which the messages
    pushed to it are the requests `0, 1, …` in order. -/
structure Agrees (r : AgentRun Owner Req Res) : Prop where
  delivery : ∃ log, MessageQueue.Conserves MAX_INFLIGHT ⟨r.agent.msgQueue, log⟩ ∧
    (MessageQueue.pushed log).map msgId = List.range r.agent.reqIdSeed
  keys : ∀ id, (r.agent.reqData.get id).isSome ↔ r.Waits id ∨ r.InFlight id
  seed : (owners r.log).length = r.agent.reqIdSeed
  owner : ∀ id owner, r.agent.reqData.get id = some owner → (owners r.log)[id]? = some owner
  unsent : ∀ req, .dataSend req ∉ r.agent.queue
  answered : ∀ record ∈ r.log, ∀ id owner, record.Answers id owner →
    (owners r.log)[id]? = some owner ∧ r.agent.reqData.get id = none
  final : r.log.Pairwise Final

theorem Agrees.start : Agrees (start : AgentRun Owner Req Res) where
  delivery := ⟨[], MessageQueue.Conserves.start MAX_INFLIGHT, rfl⟩
  keys := by
    intro id
    simp [AgentRun.start, ConnectorAgentService.new, Waits, InFlight, MessageQueue.default]
  seed := rfl
  owner := by
    intro id owner h
    simp [AgentRun.start, ConnectorAgentService.new] at h
  unsent := by
    intro req h
    simp [AgentRun.start, ConnectorAgentService.new] at h
  answered := fun record h => absurd h List.not_mem_nil
  final := List.Pairwise.nil

namespace Agrees

/-- A call that answers and sends only requests with a known owner keeps answers final. -/
theorem final_concat (h : Agrees r) {record : AgentRecord Owner Req Res}
    (hanswers : ∀ id owner, record.Answers id owner → (r.agent.reqData.get id).isSome)
    (hsends : ∀ id, record.Sends id → (r.agent.reqData.get id).isSome) :
    (r.log ++ [record]).Pairwise Final := by
  refine List.pairwise_append.mpr ⟨h.final, List.pairwise_singleton _ _, ?_⟩
  intro earlier hmem later hlater id owner hearlier
  rw [List.mem_singleton.mp hlater]
  have hnone := (h.answered earlier hmem id owner hearlier).2
  constructor
  · intro other hother
    have hsome := hanswers id other hother
    rw [hnone] at hsome
    cases hsome
  · intro hsend
    have hsome := hsends id hsend
    rw [hnone] at hsome
    cases hsome

/-- A call that changes neither the owners nor the queue of messages, and answers nothing. -/
theorem quiet (h : Agrees r) {agent : ConnectorAgentService Owner Req Res}
    {record : AgentRecord Owner Req Res} (hseed : agent.reqIdSeed = r.agent.reqIdSeed)
    (hdata : agent.reqData = r.agent.reqData) (hmsgs : agent.msgQueue = r.agent.msgQueue)
    (hunsent : ∀ req, .dataSend req ∉ agent.queue)
    (howners : owners (r.log ++ [record]) = owners r.log)
    (hanswers : ∀ id owner, ¬ record.Answers id owner) (hsends : ∀ id, ¬ record.Sends id) :
    Agrees ⟨agent, r.log ++ [record]⟩ where
  delivery := by
    rw [hmsgs, hseed]
    exact h.delivery
  keys := by
    intro id
    simp only [Waits, InFlight, hdata, hmsgs]
    exact h.keys id
  seed := by
    rw [howners, hseed]
    exact h.seed
  owner := by
    intro id owner hget
    rw [howners]
    exact h.owner id owner (hdata ▸ hget)
  unsent := hunsent
  answered := by
    intro earlier hmem id owner hanswer
    rw [howners, hdata]
    rcases List.mem_append.mp hmem with hmem | hmem
    · exact h.answered earlier hmem id owner hanswer
    · rw [List.mem_singleton.mp hmem] at hanswer
      exact absurd hanswer (hanswers id owner)
  final := h.final_concat (fun id owner hans => absurd hans (hanswers id owner))
    (fun id hsend => absurd hsend (hsends id))

theorem request (h : Agrees r) (owner : Owner) (ts : Nat) (req : Req) :
    Agrees ⟨r.agent.onInput (.control owner (some (.request ts req))),
      r.log ++ [AgentRecord.input (.control owner (some (.request ts req))) []]⟩ := by
  have howners :
      owners (r.log ++ [AgentRecord.input (.control owner (some (.request ts req))) []]) =
      owners r.log ++ [owner] := by
    simp [owners]
  have hanswers : ∀ id other, ¬ (AgentRecord.input (.control owner (some (.request ts req))) [] :
      AgentRecord Owner Req Res).Answers id other := by
    rintro id other ⟨msg, queued, res, heq, -⟩
    cases heq
  obtain ⟨log, hqueue, hids⟩ := h.delivery
  constructor
  · have hnew : MessageQueue.Distinct ⟨r.agent.msgQueue, log⟩
        (.push ⟨r.agent.reqIdSeed, ts, some req⟩) := by
      change r.agent.reqIdSeed ∉ (MessageQueue.pushed log).map msgId
      rw [hids]
      simp
    refine ⟨log ++ [MessageQueue.Record.pushed ⟨r.agent.reqIdSeed, ts, some req⟩], ?_, ?_⟩
    · exact hqueue.push hnew
    · rw [MessageQueue.pushed_pushed, List.map_append, hids]
      exact List.range_succ.symm
  · intro id
    simp only [ConnectorAgentService.onInput, IndexMap.get_insert]
    by_cases hid : id = r.agent.reqIdSeed
    · simp [hid, Waits, MessageQueue.push]
    · rw [if_neg hid, h.keys]
      simp [Waits, InFlight, MessageQueue.push, Ne.symm hid]
  · rw [howners, List.length_append, h.seed]
    rfl
  · intro id other hget
    simp only [ConnectorAgentService.onInput, IndexMap.get_insert] at hget
    rw [howners]
    split at hget
    · rename_i hid
      cases hget
      rw [hid, ← h.seed]
      simp
    · have hold := h.owner id other hget
      rw [List.getElem?_append_left (List.getElem?_eq_some_iff.mp hold).1]
      exact hold
  · exact h.unsent
  · intro record hmem id other hanswer
    rcases List.mem_append.mp hmem with hmem | hmem
    · obtain ⟨hold, hnone⟩ := h.answered record hmem id other hanswer
      have hlt := (List.getElem?_eq_some_iff.mp hold).1
      rw [howners, List.getElem?_append_left hlt]
      refine ⟨hold, ?_⟩
      rw [h.seed] at hlt
      simp only [ConnectorAgentService.onInput, IndexMap.get_insert]
      rw [if_neg (Nat.ne_of_lt hlt)]
      exact hnone
    · rw [List.mem_singleton.mp hmem] at hanswer
      exact absurd hanswer (hanswers id other)
  · refine h.final_concat (fun id other hans => absurd hans (hanswers id other)) ?_
    rintro id ⟨req', heq, -⟩
    cases heq

/-- A response for a request in flight takes it out of the owners and out of the queue. -/
theorem response (h : Agrees r) {msg : ConnectorResponse Res} {actor : Owner}
    (hactor : r.agent.reqData.get msg.reqId = some actor) (hwaits : ¬ r.Waits msg.reqId)
    {agent : ConnectorAgentService Owner Req Res} {queued : List (ServiceOutput Owner Req Res)}
    (hseed : agent.reqIdSeed = r.agent.reqIdSeed)
    (hdata : agent.reqData = r.agent.reqData.swapRemove msg.reqId)
    (hmsgs : agent.msgQueue = r.agent.msgQueue.onAck msg.reqId)
    (hqueue : agent.queue = r.agent.queue ++ queued)
    (hqueued : ∀ out ∈ queued, ∃ res, out = .event actor (.response res)) :
    Agrees ⟨agent, r.log ++ [AgentRecord.input (.recv (some msg)) queued]⟩ := by
  have howners :
      owners (r.log ++ [AgentRecord.input (.recv (some msg)) queued]) = owners r.log := by
    simp [owners]
  have hanswers : ∀ id other, (AgentRecord.input (.recv (some msg)) queued :
      AgentRecord Owner Req Res).Answers id other → id = msg.reqId ∧ other = actor := by
    rintro id other ⟨msg', queued', res, heq, rfl, hmem⟩
    cases heq
    obtain ⟨res', hres⟩ := hqueued _ hmem
    cases hres
    exact ⟨rfl, rfl⟩
  constructor
  · obtain ⟨log, hq, hids⟩ := h.delivery
    refine ⟨log ++ [MessageQueue.Record.acked msg.reqId], ?_, ?_⟩
    · rw [hmsgs]
      exact hq.onAck msg.reqId
    · rw [MessageQueue.pushed_acked, hseed]
      exact hids
  · intro id
    simp only [Waits, InFlight, hdata, hmsgs, MessageQueue.queue_onAck, IndexMap.get_swapRemove,
      MessageQueue.get_onAck]
    by_cases hid : id = msg.reqId
    · subst hid
      simpa [Waits] using hwaits
    · rw [if_neg hid, if_neg hid]
      exact h.keys id
  · rw [howners, hseed]
    exact h.seed
  · intro id other hget
    rw [howners]
    change agent.reqData.get id = some other at hget
    rw [hdata, IndexMap.get_swapRemove] at hget
    split at hget
    · cases hget
    · exact h.owner id other hget
  · intro req hmem
    change _ ∈ agent.queue at hmem
    rw [hqueue, List.mem_append] at hmem
    rcases hmem with hmem | hmem
    · exact h.unsent req hmem
    · obtain ⟨res, heq⟩ := hqueued _ hmem
      cases heq
  · intro record hmem id other hanswer
    rw [howners]
    change _ ∧ agent.reqData.get id = none
    rw [hdata, IndexMap.get_swapRemove]
    rcases List.mem_append.mp hmem with hmem | hmem
    · obtain ⟨hold, hnone⟩ := h.answered record hmem id other hanswer
      refine ⟨hold, ?_⟩
      rw [hnone, ite_self]
    · rw [List.mem_singleton.mp hmem] at hanswer
      obtain ⟨rfl, rfl⟩ := hanswers id other hanswer
      exact ⟨h.owner _ _ hactor, if_pos rfl⟩
  · refine h.final_concat ?_ ?_
    · intro id other hanswer
      rw [(hanswers id other hanswer).1, hactor]
      rfl
    · rintro id ⟨req, heq, -⟩
      cases heq

theorem recv (h : Agrees r) (msg : ConnectorResponse Res) (hwaits : ¬ r.Waits msg.reqId) :
    Agrees ⟨r.agent.onInput (.recv (some msg)), r.log ++ [AgentRecord.input (.recv (some msg))
      ((r.agent.onInput (.recv (some msg))).queue.drop r.agent.queue.length)]⟩ := by
  cases hactor : r.agent.reqData.get msg.reqId with
  | none =>
    have hsame : r.agent.onInput (.recv (some msg)) = r.agent := by
      simp [ConnectorAgentService.onInput, hactor]
    rw [hsame, List.drop_length]
    refine h.quiet rfl rfl rfl h.unsent (by simp [owners]) ?_ ?_
    · rintro id owner ⟨msg', queued, res, heq, -, hmem⟩
      cases heq
      cases hmem
    · rintro id ⟨req, heq, -⟩
      cases heq
  | some actor =>
    cases hres : msg.response with
    | none =>
      have hqueue : (r.agent.onInput (.recv (some msg))).queue = r.agent.queue ++ [] := by
        simp [ConnectorAgentService.onInput, hactor, hres]
      rw [hqueue, List.drop_left]
      refine h.response hactor hwaits ?_ ?_ ?_ hqueue (by simp)
      · simp [ConnectorAgentService.onInput, hactor, hres]
      · simp [ConnectorAgentService.onInput, hactor, hres]
      · simp [ConnectorAgentService.onInput, hactor, hres]
    | some res =>
      have hqueue : (r.agent.onInput (.recv (some msg))).queue =
          r.agent.queue ++ [ServiceOutput.event actor (.response res)] := by
        simp [ConnectorAgentService.onInput, hactor, hres]
      rw [hqueue, List.drop_left]
      refine h.response hactor hwaits ?_ ?_ ?_ hqueue (by simp)
      · simp [ConnectorAgentService.onInput, hactor, hres]
      · simp [ConnectorAgentService.onInput, hactor, hres]
      · simp [ConnectorAgentService.onInput, hactor, hres]

/-- The first output of the service is never a message of the queue. -/
theorem popQueued (h : Agrees r) {out : ServiceOutput Owner Req Res}
    {queue : List (ServiceOutput Owner Req Res)} (hqueue : r.agent.queue = out :: queue) :
    Agrees ⟨{ r.agent with queue := queue }, r.log ++ [AgentRecord.popped (some out)]⟩ := by
  have hunsent := h.unsent
  rw [hqueue] at hunsent
  refine h.quiet rfl rfl rfl ?_ (by simp [owners]) ?_ ?_
  · intro req hmem
    exact hunsent req (List.mem_cons_of_mem _ hmem)
  · rintro id owner ⟨msg, queued, res, heq, -⟩
    cases heq
  · rintro id ⟨req, heq, -⟩
    cases heq
    exact hunsent req List.mem_cons_self

theorem popMessage (h : Agrees r) {log : List (MessageQueue.Record (ConnectorRequest Req))}
    (hqueue : MessageQueue.Conserves MAX_INFLIGHT ⟨r.agent.msgQueue, log⟩)
    (hids : (MessageQueue.pushed log).map msgId = List.range r.agent.reqIdSeed) {now : Nat}
    {msgQueue : MessageQueue (ConnectorRequest Req)} {ret : Option (ConnectorRequest Req)}
    (hpop : MessageQueue.Popped MAX_INFLIGHT r.agent.msgQueue now msgQueue ret) :
    Agrees ⟨{ r.agent with msgQueue := msgQueue },
      r.log ++ [AgentRecord.popped (ret.map .dataSend)]⟩ := by
  have howners : owners (r.log ++ [AgentRecord.popped (ret.map .dataSend)]) = owners r.log := by
    simp [owners]
  have hanswers : ∀ id other, ¬ (AgentRecord.popped (ret.map .dataSend) :
      AgentRecord Owner Req Res).Answers id other := by
    rintro id other ⟨msg, queued, res, heq, -⟩
    cases heq
  obtain ⟨hsame, hreturned⟩ := hqueue.pop_ids hpop
  constructor
  · refine ⟨log ++ [MessageQueue.Record.popped now ret], hqueue.pop hpop, ?_⟩
    rw [MessageQueue.pushed_popped]
    exact hids
  · intro id
    rw [h.keys]
    exact (hsame id).symm
  · rw [howners]
    exact h.seed
  · intro id other hget
    rw [howners]
    exact h.owner id other hget
  · exact h.unsent
  · intro record hmem id other hanswer
    rw [howners]
    rcases List.mem_append.mp hmem with hmem | hmem
    · exact h.answered record hmem id other hanswer
    · rw [List.mem_singleton.mp hmem] at hanswer
      exact absurd hanswer (hanswers id other)
  · refine h.final_concat (fun id other hans => absurd hans (hanswers id other)) ?_
    rintro id ⟨req, heq, rfl⟩
    cases ret with
    | none => cases heq
    | some sent =>
      cases heq
      rw [h.keys]
      exact (hsame _).mp (Or.inr (hreturned req rfl))

theorem step (h : Agrees r) {call : AgentCall Owner Req Res} (hawaited : r.Awaited call) :
    ∃ r', r.step call = .ok r' ∧ Agrees r' := by
  cases call with
  | onSharedInput input =>
    refine ⟨_, rfl, ?_⟩
    have hquiet : ∀ agent : ConnectorAgentService Owner Req Res,
        agent.reqIdSeed = r.agent.reqIdSeed → agent.reqData = r.agent.reqData →
        agent.msgQueue = r.agent.msgQueue → (∀ req, .dataSend req ∉ agent.queue) →
        Agrees ⟨agent, r.log ++ [AgentRecord.shared]⟩ := by
      intro agent hseed hdata hmsgs hunsent
      refine h.quiet hseed hdata hmsgs hunsent (by simp [owners]) ?_ ?_
      · rintro id owner ⟨msg, queued, res, heq, -⟩
        cases heq
      · rintro id ⟨req, heq, -⟩
        cases heq
    cases input with
    | connection => exact hquiet _ rfl rfl rfl h.unsent
    | tick =>
      cases hsub : r.agent.subscriber with
      | none =>
        simp only [ConnectorAgentService.onSharedInput, hsub]
        exact hquiet _ rfl rfl rfl h.unsent
      | some subscriber =>
        simp only [ConnectorAgentService.onSharedInput, hsub]
        refine hquiet _ rfl rfl rfl ?_
        intro req hmem
        rcases List.mem_append.mp hmem with hmem | hmem
        · exact h.unsent req hmem
        · cases List.mem_singleton.mp hmem
  | onInput input =>
    refine ⟨_, rfl, ?_⟩
    have hignored : ∀ agent : ConnectorAgentService Owner Req Res,
        (∀ msg, input ≠ .recv (some msg)) →
        (∀ owner ts req, input ≠ .control owner (some (.request ts req))) →
        agent.reqIdSeed = r.agent.reqIdSeed → agent.reqData = r.agent.reqData →
        agent.msgQueue = r.agent.msgQueue → agent.queue = r.agent.queue →
        Agrees ⟨agent,
          r.log ++ [AgentRecord.input input (agent.queue.drop r.agent.queue.length)]⟩ := by
      intro agent hrecv hrequest hseed hdata hmsgs hqueue
      have howners :
          owners (r.log ++ [AgentRecord.input input (agent.queue.drop r.agent.queue.length)]) =
          owners r.log := by
        rcases input with ⟨owner, _ | _ | ⟨ts, req⟩⟩ | _ | _ | _ | _
        · simp [owners]
        · simp [owners]
        · exact absurd rfl (hrequest owner ts req)
        · simp [owners]
        · simp [owners]
        · simp [owners]
        · simp [owners]
      refine h.quiet hseed hdata hmsgs (hqueue ▸ h.unsent) howners ?_ ?_
      · rintro id owner ⟨msg, queued, res, heq, -⟩
        cases heq
        exact absurd rfl (hrecv msg)
      · rintro id ⟨req, heq, -⟩
        cases heq
    rcases input with ⟨owner, _ | _ | ⟨ts, req⟩⟩ | _ | _ | (_ | msg) | _
    · exact hignored _ (by simp) (by simp) rfl rfl rfl rfl
    · exact hignored _ (by simp) (by simp) rfl rfl rfl rfl
    · have hqueue : (r.agent.onInput (.control owner (some (.request ts req)))).queue =
          r.agent.queue := rfl
      rw [hqueue, List.drop_length]
      exact h.request owner ts req
    · exact hignored _ (by simp) (by simp) rfl rfl rfl rfl
    · exact hignored _ (by simp) (by simp) rfl rfl rfl rfl
    · exact hignored _ (by simp) (by simp) rfl rfl rfl rfl
    · exact h.recv msg hawaited
    · exact hignored _ (by simp) (by simp) rfl rfl rfl rfl
  | onShutdown =>
    refine ⟨_, rfl, h.quiet rfl rfl rfl h.unsent (by simp [owners]) ?_ ?_⟩
    · rintro id owner ⟨msg, queued, res, heq, -⟩
      cases heq
    · rintro id ⟨req, heq, -⟩
      cases heq
  | popOutput2 now =>
    cases hqueue : r.agent.queue with
    | cons out queue =>
      refine ⟨_, ?_, h.popQueued hqueue⟩
      rw [AgentRun.step, ConnectorAgentService.popOutput2, hqueue]
      rfl
    | nil =>
      obtain ⟨log, hmsgs, hids⟩ := h.delivery
      obtain ⟨msgQueue, ret, hret, hpop⟩ :=
        MessageQueue.pop_spec MAX_INFLIGHT hmsgs.filled now
      refine ⟨_, ?_, h.popMessage hmsgs hids hpop⟩
      rw [AgentRun.step, ConnectorAgentService.popOutput2_of_nil hqueue hret]
      rfl

end Agrees

/-- What is expected of the service after some calls: the next call does not panic; the owners
    are known for exactly the requests that wait or are in flight; an answer goes to the owner of
    the request; after it the request is neither answered nor sent again; and a response to a
    request in flight frees its slot. -/
structure Agreed (r : AgentRun Owner Req Res) : Prop where
  no_panic : ∀ call, r.Awaited call → ∃ r', r.step call = .ok r'
  keys : ∀ id, id ∈ r.agent.reqData.keys ↔ r.Waits id ∨ r.InFlight id
  own_owner : ∀ record ∈ r.log, ∀ id owner, record.Answers id owner →
    (owners r.log)[id]? = some owner
  once : r.log.Pairwise Final
  acknowledgeable : ∀ id, r.InFlight id → ∀ response,
    (r.agent.onInput (.recv (some ⟨id, response⟩))).msgQueue.inflight.get id = none

theorem Agrees.agreed (h : Agrees r) : r.Agreed where
  no_panic := by
    intro call hawaited
    obtain ⟨r', heq, -⟩ := h.step hawaited
    exact ⟨r', heq⟩
  keys := by
    intro id
    rw [← h.keys, IndexMap.mem_keys_iff, Option.isSome_iff_exists]
  own_owner := fun record hmem id owner hanswer => (h.answered record hmem id owner hanswer).1
  once := h.final
  acknowledgeable := by
    intro id hlive response
    obtain ⟨actor, hactor⟩ := Option.isSome_iff_exists.mp ((h.keys id).mpr (Or.inr hlive))
    cases response with
    | none => simp [ConnectorAgentService.onInput, hactor, MessageQueue.get_onAck]
    | some res => simp [ConnectorAgentService.onInput, hactor, MessageQueue.get_onAck]

/-- **Agreement.** In every run in which no response meets a request that still waits to be
    sent, the owners and the message queue agree in every state. -/
theorem agrees {calls : List (AgentCall Owner Req Res)}
    (h : Reaches (fun r call => (r.step call).toOption) Awaited start calls r) : r.Agreed := by
  have hinv : Agrees r := by
    refine h.invariant (P := Agrees) ?_ Agrees.start
    intro s call s' hs hok hstep
    obtain ⟨s₁, heq, hs₁⟩ := hs.step hok
    rw [heq] at hstep
    cases hstep
    exact hs₁
  exact hinv.agreed

instance (r : AgentRun Owner Req Res) (call : AgentCall Owner Req Res) :
    Decidable (r.Awaited call) :=
  match call with
  | .onInput (.recv (some msg)) =>
    inferInstanceAs (Decidable (¬ ∃ req ∈ r.agent.msgQueue.queue, req.reqId = msg.reqId))
  | .onInput (.recv none) => isTrue trivial
  | .onInput (.control _ _) => isTrue trivial
  | .onInput .fromWorker => isTrue trivial
  | .onInput .pong => isTrue trivial
  | .onInput .other => isTrue trivial
  | .onSharedInput _ => isTrue trivial
  | .onShutdown => isTrue trivial
  | .popOutput2 _ => isTrue trivial

/-- Two requests are sent, the second one is answered first, and the late second response to it
    is ignored. -/
def outOfOrder : List (AgentCall Nat Nat Nat) :=
  [.popOutput2 0, .onInput (.control 7 (some (.request 0 70))),
    .onInput (.control 8 (some (.request 0 80))), .popOutput2 0, .popOutput2 0,
    .onInput (.recv (some ⟨1, some 81⟩)), .onInput (.recv (some ⟨1, some 82⟩))]

theorem agrees_outOfOrder : ∃ r : AgentRun Nat Nat Nat,
    Reaches (fun r call => (r.step call).toOption) Awaited start outOfOrder r ∧
    r.agent.queue = [.event 8 (.response 81)] ∧ r.InFlight 0 ∧ r.Agreed := by
  have hrun : (exec (fun (r : AgentRun Nat Nat Nat) call => (r.step call).toOption)
      (fun r call => decide (r.Awaited call)) start outOfOrder).map
        (fun r => (r.agent.queue, (r.agent.msgQueue.inflight.get 0).isSome)) =
      some ([.event 8 (.response 81)], true) := by
    decide +kernel
  obtain ⟨r, hexec, hr⟩ := Option.map_eq_some_iff.mp hrun
  obtain ⟨hqueue, hlive⟩ := Prod.mk.inj hr
  have hreach : Reaches _ Awaited start _ r :=
    reaches_of_exec (fun _ _ h => of_decide_eq_true h) hexec
  exact ⟨r, hreach, hqueue, hlive, agrees hreach⟩

/-- A response with the id of the first request arrives before the request is sent.  The request
    is answered and yet sent, nobody is known as its owner, and no response frees its slot. -/
theorem answered_before_sent : ∃ r : AgentRun Nat Nat Nat,
    Reaches (fun r call => (r.step call).toOption) (fun _ _ => True) start
      [.popOutput2 0, .onInput (.control 7 (some (.request 0 70))),
        .onInput (.recv (some ⟨0, some 71⟩)), .popOutput2 0, .popOutput2 0] r ∧
    ¬ r.Agreed := by
  have hrun : (exec (fun (r : AgentRun Nat Nat Nat) call => (r.step call).toOption)
      (fun _ _ => true) start
      [.popOutput2 0, .onInput (.control 7 (some (.request 0 70))),
        .onInput (.recv (some ⟨0, some 71⟩)), .popOutput2 0, .popOutput2 0]).map
        (fun r => (decide (0 ∈ r.agent.reqData.keys), (r.agent.msgQueue.inflight.get 0).isSome)) =
      some (false, true) := by
    decide +kernel
  obtain ⟨r, hexec, hr⟩ := Option.map_eq_some_iff.mp hrun
  obtain ⟨hkey, hlive⟩ := Prod.mk.inj hr
  refine ⟨r, reaches_of_exec (fun _ _ _ => trivial) hexec, ?_⟩
  intro hagreed
  exact of_decide_eq_false hkey ((hagreed.keys 0).mpr (Or.inr hlive))

end AgentRun

end MediaServer.Connector
