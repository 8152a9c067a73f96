import MediaServer.Transport.Refinement
import MediaServer.Transport.RtpEngine
import MediaServer.Endpoint.LinkState

/-!
# What a transport tells of its life

An endpoint expects of its transport that the states it tells begin with a new or a
connecting one, that a terminal state is the last one, and that the transport is empty
once it has told that state and been drained.  None of the four transports is that
careful: what connects them and what ends them is not guarded against all the states it
can meet.  Runs in which those inputs come only while the transport lives are as the
endpoint expects, and then its own expectation of a previous state is met.
-/

namespace MediaServer.Transport

open Lifecycle Machine

/-- What an endpoint relies on: the trace it is told, and that a transport that told its
    end is empty when it is drained. -/
structure Reliable (trace : List TransportState) (drained empty : Bool) : Prop where
  wellFormed : WellFormed Opens Closes trace
  empty_of_end : (∃ state ∈ trace, Closes state) → drained = true → empty = true

/-- A transport around a link that is as far as its trace is reliable. -/
theorem reliable_of_phase {trace : List TransportState} {state : State} {drained : Bool}
    (h : At Opens Closes trace state.phase) :
    Reliable trace drained (state.isShutdown && drained) := by
  refine ⟨h.wellFormed, fun hend hdrained => ?_⟩
  rw [hdrained, Bool.and_true]
  exact State.phase_eq_shut.mp (h.shut_iff.mpr hend)

/-! ### The RTP engine -/

namespace RtpEngine

def statesOf (outs : List Output) : List TransportState := outs.filterMap TransportOutput.state?

@[simp] theorem statesOf_append (first second : List Output) :
    statesOf (first ++ second) = statesOf first ++ statesOf second :=
  List.filterMap_append

section

variable (env : RtpEngineEnv)

/-- The description is one the transport can answer to. -/
def accepts (sdp : String) : Bool :=
  match env.parseSdp sdp with
  | .ok description => (TransportRtpEngine.destination description).isSome
  | .error _ => false

/-- The datagram is the first audio packet after the answer. -/
def connects (t : TransportRtpEngine) (data : Bytes) : Bool :=
  t.answered && !t.connected &&
    match TransportRtpEngine.readRtp env data with
    | .ok (some rtp) => rtp.payloadType == 8
    | _ => false

/-- What an input does to a live transport, as far as the endpoint is told. -/
inductive Effect (t : TransportRtpEngine) (input : Input) (t' : TransportRtpEngine)
    (outs : List Output) : Prop
  | quiet (hstates : statesOf outs = []) (hshutdown : t.shutdown = true → t'.shutdown = true)
  | timeout (hrunning : t.shutdown = false) (hshutdown : t'.shutdown = true)
      (hstates : statesOf outs = [.disconnected (some .timeout)])
  | answer {reqId sdp ip} (hinput : input = .setAnswer reqId sdp)
      (haccepts : accepts env sdp = true) (hshutdown : t'.shutdown = t.shutdown)
      (hstates : statesOf outs = [.connecting ip])
  | disconnect {reqId} (hinput : input = .disconnect reqId) (hshutdown : t'.shutdown = t.shutdown)
      (hstates : statesOf outs = [.disconnected none])
  | connect {now slot source data opus} (hinput : input = .net now (.udpPacket slot source data) opus)
      (hconnects : connects env t data = true) (hshutdown : t'.shutdown = t.shutdown)
      (hstates : statesOf outs = [.connected source.1])

end

section

variable {env : RtpEngineEnv}

theorem onSetAnswer_effect (t : TransportRtpEngine) (reqId : UInt64) (sdp : String) :
    ∃ outs, (t.onSetAnswer env reqId sdp).queue = t.queue ++ outs ∧
      Effect env t (.setAnswer reqId sdp) (t.onSetAnswer env reqId sdp) outs := by
  simp only [TransportRtpEngine.onSetAnswer, TransportRtpEngine.setAnswer]
  cases hparse : env.parseSdp sdp with
  | error err => exact ⟨_, rfl, .quiet rfl id⟩
  | ok description =>
    cases hdest : TransportRtpEngine.destination description with
    | none =>
      simp only [hdest]
      exact ⟨_, rfl, .quiet rfl id⟩
    | some remote =>
      simp only [hdest]
      have haccepts : accepts env sdp = true := by simp [accepts, hparse, hdest]
      have hstates : statesOf [.event (.state (.connecting remote.1)),
          .ext (.setAnswer reqId (.ok ()))] = [.connecting remote.1] := rfl
      exact ⟨_, List.append_assoc .., .answer rfl haccepts rfl hstates⟩

theorem onUdpPacket_effect {t t' : TransportRtpEngine} {now : Instant} {slot : Nat}
    {source : SocketAddr} {data : Bytes} {opus : Option Bytes}
    (h : t.onUdpPacket env now source data opus = .ok t') :
    ∃ outs, t'.queue = t.queue ++ outs ∧
      Effect env t (.net now (.udpPacket slot source data) opus) t' outs := by
  obtain ⟨read, hread, h⟩ := Except.bind_eq_ok.mp h
  have hsame : ∀ u : TransportRtpEngine, u.queue = t.queue → u.shutdown = t.shutdown →
      ∃ outs, u.queue = t.queue ++ outs ∧
        Effect env t (.net now (.udpPacket slot source data) opus) u outs := fun u hqueue hshut =>
    ⟨[], by rw [hqueue, List.append_nil], .quiet rfl (by rw [hshut]; exact id)⟩
  cases read with
  | none =>
    cases h
    exact hsame t rfl rfl
  | some rtp =>
    cases h
    split
    · rename_i hpcma
      have hmedia : statesOf (TransportRtpEngine.mediaOutputs rtp opus) = [] := by
        cases opus with
        | none => rfl
        | some data => rfl
      simp only [TransportRtpEngine.onPcma, TransportRtpEngine.connectOn]
      by_cases hfirst : (t.answered && !t.connected) = true
      · have hconnects : connects env t data = true := by
          simp only [connects, hread, hpcma, hfirst]
          rfl
        rw [if_pos hfirst]
        refine ⟨_, List.append_assoc .., .connect rfl hconnects rfl ?_⟩
        rw [statesOf_append, hmedia]
        rfl
      · rw [if_neg hfirst]
        exact ⟨_, rfl, .quiet hmedia id⟩
    · exact hsame _ rfl rfl

theorem stepLive_effect {t t' : TransportRtpEngine} {input : Input}
    (h : stepLive env t input = .ok t') :
    ∃ outs, t'.queue = t.queue ++ outs ∧ Effect env t input t' outs := by
  have hsame : ∃ outs, t.queue = t.queue ++ outs ∧ Effect env t input t outs :=
    ⟨[], (List.append_nil _).symm, .quiet rfl id⟩
  cases input with
  | newOffer | newAnswer | rpcRes =>
    cases h
    exact hsame
  | tick clock =>
    cases h
    simp only [TransportRtpEngine.onTick]
    split
    · exact hsame
    · rename_i hrunning
      split
      · exact ⟨_, rfl, .timeout (by simpa using hrunning) rfl rfl⟩
      · exact hsame
  | net now event opus =>
    cases event with
    | udpListenResult bind result =>
      cases result with
      | none =>
        cases h
        exact hsame
      | some bound =>
        cases h
        exact ⟨[], (List.append_nil _).symm, .quiet rfl id⟩
    | udpPacket slot source data => exact onUdpPacket_effect h
  | endpoint now event pcma =>
    cases h
    unfold TransportRtpEngine.onEvent
    split
    · split
      · exact hsame
      · exact ⟨_, rfl, .quiet rfl id⟩
    · split
      · exact hsame
      · exact ⟨_, rfl, .quiet rfl id⟩
    · dsimp only
      split
      · exact ⟨_, rfl, .quiet rfl id⟩
      · exact ⟨[], (List.append_nil _).symm, .quiet rfl id⟩
    · exact hsame
  | setAnswer reqId sdp =>
    cases h
    exact onSetAnswer_effect t reqId sdp
  | disconnect reqId =>
    cases h
    exact ⟨_, rfl, .disconnect rfl rfl rfl⟩
  | shutdown =>
    cases h
    exact ⟨[], (List.append_nil _).symm, .quiet rfl fun _ => rfl⟩

/-- A transport begins with a state that opens its trace. -/
theorem built_states {input : Input} {t : TransportRtpEngine} (h : built env input = some t) :
    ∃ state, statesOf t.queue = [state] ∧ Opens state ∧ ¬Closes state := by
  cases input with
  | newOffer room peer listen created =>
    cases h
    exact ⟨.new, rfl, trivial, id⟩
  | newAnswer room peer listen created offer =>
    simp only [built, TransportRtpEngine.newAnswer] at h
    split at h
    · cases h
    · split at h
      · cases h
      · cases h
        exact ⟨.connecting _, rfl, trivial, id⟩
  | _ => cases h

def queue (s : Session) : List Output := s.elim [] TransportRtpEngine.queue

theorem step_queue {s s' : Session} {input : Input} (h : step env s input = .ok s') :
    ∃ outs, queue s' = queue s ++ outs := by
  cases s with
  | none => exact ⟨queue s', rfl⟩
  | some t =>
    simp only [step] at h
    cases hlive : stepLive env t input with
    | error panic => simp [hlive, Except.map] at h
    | ok t' =>
      rw [hlive] at h
      cases h
      obtain ⟨outs, hqueue, -⟩ := stepLive_effect hlive
      exact ⟨outs, hqueue⟩

end

/-- A session as a component with an output queue. -/
def machine (env : RtpEngineEnv) : Machine Session Input Output where
  init := none
  step s input := step env s input
  queue := queue
  dropFront s := s.map fun t => { t with queue := t.queue.tail }
  queue_init := rfl
  queue_dropFront s := by
    cases s with
    | none => rfl
    | some t => rfl
  step_appends _ _ _ h := by
    obtain ⟨outs, hqueue⟩ := step_queue h
    exact ⟨outs, hqueue.symm⟩

/-- The endpoint has been told the end. -/
def Ended (history : History Input Output) : Prop :=
  ∃ state ∈ statesOf (emitted history), Closes state

instance (history : History Input Output) : Decidable (Ended history) :=
  inferInstanceAs (Decidable (∃ state ∈ statesOf (emitted history), Closes state))

/-- The inputs that do not disturb the life of the transport: an answer or a first packet
    before its end is told, a request to disconnect only when it is shut down already. -/
def permits (env : RtpEngineEnv) : Contract Session Input Output := fun history s input =>
  match s, input with
  | some _, .setAnswer _ sdp => accepts env sdp = true → ¬Ended history
  | some t, .net _ (.udpPacket _ _ data) _ => connects env t data = true → ¬Ended history
  | some t, .disconnect _ => t.shutdown = true ∧ ¬Ended history
  | _, _ => True

instance (env : RtpEngineEnv) (history : History Input Output) (s : Session) (input : Input) :
    Decidable (permits env history s input) :=
  match s, input with
  | some _, .setAnswer _ sdp =>
      inferInstanceAs (Decidable (accepts env sdp = true → ¬Ended history))
  | some t, .net _ (.udpPacket _ _ data) _ =>
      inferInstanceAs (Decidable (connects env t data = true → ¬Ended history))
  | some t, .disconnect _ => inferInstanceAs (Decidable (t.shutdown = true ∧ ¬Ended history))
  | none, _ | some _, .net _ (.udpListenResult ..) _ => .isTrue trivial
  | some _, .newOffer .. | some _, .newAnswer .. | some _, .tick _ | some _, .endpoint ..
  | some _, .rpcRes .. | some _, .shutdown => .isTrue trivial

/-- The session has come as far as its trace, and is shut down once it told its end. -/
def Lives (history : History Input Output) : Session → Prop
  | none => statesOf (emitted history) = []
  | some t => ∃ phase, At Opens Closes (statesOf (emitted history)) phase ∧ phase ≠ .fresh ∧
      (phase = .shut → t.shutdown = true)

theorem lives_of_live {env : RtpEngineEnv} {history : History Input Output}
    {t t' : TransportRtpEngine} {input : Input} {outs : List Output}
    (h : Lives history (some t)) (hok : permits env history (some t) input)
    (heffect : Effect env t input t' outs) :
    Lives (history ++ [(input, outs)]) (some t') := by
  obtain ⟨phase, hat, hfresh, hshut⟩ := h
  have hlive : ¬Ended history → phase = .live := by
    intro hopen
    cases phase with
    | fresh => exact absurd rfl hfresh
    | live => rfl
    | shut => exact absurd (hat.shut_iff.mp rfl) hopen
  simp only [Lives, emitted_concat, statesOf_append]
  cases heffect with
  | quiet hstates hshutdown =>
    rw [hstates]
    exact ⟨phase, hat.move (.stay _), hfresh, fun hend => hshutdown (hshut hend)⟩
  | timeout hrunning hshutdown hstates =>
    have hphase : phase = .live := by
      cases phase with
      | fresh => exact absurd rfl hfresh
      | live => rfl
      | shut => simp [hshut rfl] at hrunning
    subst hphase
    rw [hstates]
    exact ⟨.shut, hat.move (.finish trivial), by simp, fun _ => hshutdown⟩
  | answer hinput haccepts hshutdown hstates =>
    subst hinput
    obtain rfl := hlive (hok haccepts)
    rw [hstates]
    exact ⟨.live, hat.move (.carryOn id), by simp, by simp⟩
  | disconnect hinput hshutdown hstates =>
    subst hinput
    obtain rfl := hlive hok.2
    rw [hstates]
    exact ⟨.shut, hat.move (.finish trivial), by simp, fun _ => hshutdown.trans hok.1⟩
  | connect hinput hconnects hshutdown hstates =>
    subst hinput
    obtain rfl := hlive (hok hconnects)
    rw [hstates]
    exact ⟨.live, hat.move (.carryOn id), by simp, by simp⟩

theorem run_lives {env : RtpEngineEnv} {acts : List (Action Input)}
    {c : Config Session Input Output} (hadm : (machine env).Admits (permits env) acts)
    (hrun : (machine env).run acts = .ok c) : Lives c.history c.state := by
  have hinit : Lives [] (machine env).init := (rfl : statesOf (emitted []) = [])
  refine run_invariant (permits env) Lives hinit ?_ ?_ hadm hrun
  · intro history s input s' h hok hstep
    cases s with
    | none =>
      have htrace : statesOf (emitted history) = [] := h
      have hpushed : (machine env).pushed none s' = queue s' := rfl
      rw [hpushed]
      cases s' with
      | none =>
        change statesOf (emitted (history ++ [(input, [])])) = []
        rw [emitted_concat, List.append_nil, htrace]
      | some t =>
        have hbuilt : built env input = some t := Except.ok.inj hstep
        obtain ⟨state, hstates, hopens, hcloses⟩ := built_states hbuilt
        refine ⟨.live, ?_, by simp, by simp⟩
        rw [emitted_concat, statesOf_append, htrace]
        change At Opens Closes ([] ++ statesOf t.queue) .live
        rw [hstates]
        exact At.nil.move (.start hopens hcloses)
    | some t =>
      have hmap : (stepLive env t input).map some = .ok s' := hstep
      cases hlive : stepLive env t input with
      | error panic => simp [hlive, Except.map] at hmap
      | ok t' =>
        rw [hlive] at hmap
        cases hmap
        obtain ⟨outs, hqueue, heffect⟩ := stepLive_effect hlive
        have hpushed : (machine env).pushed (some t) (some t') = outs :=
          (machine env).pushed_eq_of_append hqueue
        rw [hpushed]
        exact lives_of_live h hok heffect
  · intro history s h
    cases s with
    | none => exact h
    | some t => exact h

theorem reliable_of_lives {history : History Input Output} {s : Session} (h : Lives history s) :
    Reliable (statesOf (emitted history)) (queue s).isEmpty (isEmpty s) := by
  cases s with
  | none =>
    have htrace : statesOf (emitted history) = [] := h
    rw [htrace]
    exact ⟨At.nil.wellFormed, by simp⟩
  | some t =>
    obtain ⟨phase, hat, -, hshut⟩ := h
    refine ⟨hat.wellFormed, fun hend hdrained => ?_⟩
    have hshutdown := hshut (hat.shut_iff.mpr hend)
    change (t.shutdown && t.queue.isEmpty) = true
    rw [hshutdown]
    exact hdrained

end RtpEngine

/-! ### The endpoint -/

section Endpoint

open Endpoint EndpointInternal

/-- The endpoint is told a well-formed trace, state by state. -/
def hearsLife {Selector : Type} :
    Contract (EndpointInternal Selector) EndpointInternal.Input Endpoint.InternalOutput :=
  fun history _ input => ∀ told ∈ toldState input,
    WellFormed Opens Closes (heard history ++ [told.2])

/-- An endpoint that hears of a life meets its own expectation of a previous state. -/
theorem meetsExpect_of_hearsLife {Selector : Type} {env : Env Selector} {cfg : EndpointCfg}
    {acts : List (Action EndpointInternal.Input)}
    (hadm : (EndpointInternal.machine env cfg).Admits hearsLife acts) :
    (EndpointInternal.machine env cfg).Admits (fun _ s input => MeetsExpect s input) acts := by
  intro before input after hacts c hrun told htold hexpects
  apply state_of_heard hrun
  intro hnil
  have hlife := hadm before input after hacts c hrun told htold
  rw [hnil] at hlife
  have hopens := hlife.opened told.2 rfl
  -- the states that are expected to follow another one do not open a trace
  cases hstate : told.2 with
  | connected ip =>
    rw [hstate] at hopens
    exact hopens
  | connectError err =>
    rw [hstate] at hopens
    exact hopens
  | _ => simp [hstate, expectsState] at hexpects

end Endpoint

/-- **The life of a transport.** In every run in which a transport is connected and ended
    only while it lives, the endpoint can rely on it; and an endpoint that is told such a
    life never misses a previous state. -/
theorem transports_reliable {Selector : Type} (endpointEnv : Endpoint.Env Selector)
    (cfg : Endpoint.EndpointCfg) :
    (∀ decodeToken app req extraData remote acts c,
      (TransportWebrtcSdk.machine decodeToken app req extraData remote).Admits
        (fun _ t input => t.state.permits (TransportWebrtcSdk.cue input)) acts →
      (TransportWebrtcSdk.machine decodeToken app req extraData remote).run acts = .ok c →
      Reliable (statesOf (emitted c.history)) c.state.queue.isEmpty c.state.isEmpty) ∧
    (∀ room peer extraData remote acts c,
      (TransportWebrtcWhip.machine room peer extraData remote).Admits
        (fun _ t input => t.state.permits (TransportWebrtcWhip.cue input)) acts →
      (TransportWebrtcWhip.machine room peer extraData remote).run acts = .ok c →
      Reliable (statesOf (emitted c.history)) c.state.queue.isEmpty c.state.isEmpty) ∧
    (∀ room peer extraData remote acts c,
      (TransportWebrtcWhep.machine room peer extraData remote).Admits
        (fun _ t input => t.state.permits (TransportWebrtcWhep.cue input)) acts →
      (TransportWebrtcWhep.machine room peer extraData remote).run acts = .ok c →
      Reliable (statesOf (emitted c.history)) c.state.queue.isEmpty c.state.isEmpty) ∧
    (∀ env acts c,
      (RtpEngine.machine env).Admits (RtpEngine.permits env) acts →
      (RtpEngine.machine env).run acts = .ok c →
      Reliable (RtpEngine.statesOf (emitted c.history)) (RtpEngine.queue c.state).isEmpty
        (RtpEngine.isEmpty c.state)) ∧
    ∀ acts,
      (Endpoint.EndpointInternal.machine endpointEnv cfg).Admits hearsLife acts →
      (Endpoint.EndpointInternal.machine endpointEnv cfg).Admits
        (fun _ s input => Endpoint.EndpointInternal.MeetsExpect s input) acts := by
  refine ⟨?_, ?_, ?_, ?_, ?_⟩
  · intro decodeToken app req extraData remote acts c hadm hrun
    exact reliable_of_phase
      ((TransportWebrtcSdk.machine_refines decodeToken app req extraData remote).run_at hadm hrun)
  · intro room peer extraData remote acts c hadm hrun
    exact reliable_of_phase
      ((TransportWebrtcWhip.machine_refines room peer extraData remote).run_at hadm hrun)
  · intro room peer extraData remote acts c hadm hrun
    exact reliable_of_phase
      ((TransportWebrtcWhep.machine_refines room peer extraData remote).run_at hadm hrun)
  · intro env acts c hadm hrun
    exact RtpEngine.reliable_of_lives (RtpEngine.run_lives hadm hrun)
  · intro acts hadm
    exact meetsExpect_of_hearsLife hadm

theorem transports_reliable_connectAndEnd :
    (∃ c, (TransportWebrtcSdk.machine (fun _ => none) ⟨"app"⟩ ⟨none, none⟩ none "ip").run
        [.input (.tick 0), .input (.str0m 1 (.channelOpen 0 "data")),
          .input (.str0m 2 (.channelClose 0)), .pop, .pop, .pop] = .ok c ∧
      statesOf (emitted c.history) = [.connecting "ip", .connected "ip", .disconnected none] ∧
      Reliable (statesOf (emitted c.history)) c.state.queue.isEmpty c.state.isEmpty) ∧
    (∃ c, (TransportWebrtcWhip.machine "room" "peer" none "ip").run
        [.input (.tick 0), .input (.str0m 1 .connected), .input .shutdown] = .ok c ∧
      Reliable (statesOf (emitted c.history)) c.state.queue.isEmpty c.state.isEmpty) ∧
    (∃ c, (TransportWebrtcWhep.machine "room" "peer" none "ip").run
        [.input (.tick 0), .input (.tick 10000000000)] = .ok c ∧
      Reliable (statesOf (emitted c.history)) c.state.queue.isEmpty c.state.isEmpty) ∧
    (∃ c, (RtpEngine.machine ⟨fun _ => .error "invalid", fun _ => none⟩).run
        [.input (.newOffer "room" "peer" ("ip", 1) 0), .input .shutdown,
          .input (.disconnect 1)] = .ok c ∧
      Reliable (RtpEngine.statesOf (emitted c.history)) (RtpEngine.queue c.state).isEmpty
        (RtpEngine.isEmpty c.state)) ∧
    (Endpoint.EndpointInternal.machine .passAll ⟨⟨"app"⟩, 0, 0, false⟩).Admits
      (fun _ s input => Endpoint.EndpointInternal.MeetsExpect s input)
      [.input (.transport 0 [] 0 (.state (.connecting "ip"))),
        .input (.transport 1 [] 0 (.state (.connected "ip")))] := by
  have relied := transports_reliable .passAll ⟨⟨"app"⟩, 0, 0, false⟩
  refine ⟨⟨_, rfl, rfl, ?_⟩, ⟨_, rfl, ?_⟩, ⟨_, rfl, ?_⟩, ⟨_, rfl, ?_⟩, ?_⟩
  · exact relied.1 (fun _ => none) ⟨"app"⟩ ⟨none, none⟩ none "ip"
      [.input (.tick 0), .input (.str0m 1 (.channelOpen 0 "data")),
        .input (.str0m 2 (.channelClose 0)), .pop, .pop, .pop] _
      (AdmitsFrom.admits (by decide)) rfl
  · exact relied.2.1 "room" "peer" none "ip"
      [.input (.tick 0), .input (.str0m 1 .connected), .input .shutdown] _
      (AdmitsFrom.admits (by decide)) rfl
  · exact relied.2.2.1 "room" "peer" none "ip"
      [.input (.tick 0), .input (.tick 10000000000)] _
      (AdmitsFrom.admits (by decide)) rfl
  · exact relied.2.2.2.1 ⟨fun _ => .error "invalid", fun _ => none⟩
      [.input (.newOffer "room" "peer" ("ip", 1) 0), .input .shutdown, .input (.disconnect 1)] _
      (AdmitsFrom.admits (by decide)) rfl
  · refine relied.2.2.2.2 _ (AdmitsFrom.admits ⟨?_, ?_, trivial⟩)
    · rintro told ⟨⟩
      exact (At.nil.move (.start trivial id)).wellFormed
    · rintro told ⟨⟩
      exact ((At.nil.move (.start trivial id)).move (.carryOn id)).wellFormed

/-- A channel that opens after the timeout revives a dead transport; a shutdown after the
    timeout ends it twice; a connection before the first tick opens with the wrong state; a
    client that disconnects a running RTP engine leaves it behind. -/
theorem transports_unreliable :
    (∃ c, (TransportWebrtcSdk.machine (fun _ => none) ⟨"app"⟩ ⟨none, none⟩ none "ip").run
        [.input (.tick 0), .input (.tick 10000000000),
          .input (.str0m 10000000001 (.channelOpen 0 "data"))] = .ok c ∧
      ¬Reliable (statesOf (emitted c.history)) c.state.queue.isEmpty c.state.isEmpty) ∧
    (∃ c, (TransportWebrtcWhip.machine "room" "peer" none "ip").run
        [.input (.tick 0), .input (.tick 10000000000), .input .shutdown] = .ok c ∧
      ¬Reliable (statesOf (emitted c.history)) c.state.queue.isEmpty c.state.isEmpty) ∧
    (∃ c, (TransportWebrtcWhep.machine "room" "peer" none "ip").run
        [.input (.str0m 0 .connected)] = .ok c ∧
      ¬Reliable (statesOf (emitted c.history)) c.state.queue.isEmpty c.state.isEmpty) ∧
    ∃ c, (RtpEngine.machine ⟨fun _ => .error "invalid", fun _ => none⟩).run
        [.input (.newOffer "room" "peer" ("ip", 1) 0), .input (.disconnect 1), .pop, .pop, .pop,
          .pop] = .ok c ∧
      ¬Reliable (RtpEngine.statesOf (emitted c.history)) (RtpEngine.queue c.state).isEmpty
        (RtpEngine.isEmpty c.state) := by
  refine ⟨⟨_, rfl, ?_⟩, ⟨_, rfl, ?_⟩, ⟨_, rfl, ?_⟩, ⟨_, rfl, ?_⟩⟩
  · intro h
    cases h.wellFormed.closed [.connecting "ip"] (.connectError .timeout) [.connected "ip"] rfl
      trivial
  · intro h
    cases h.wellFormed.closed [.connecting "ip"] (.connectError .timeout) [.disconnected none] rfl
      trivial
  · intro h
    exact h.wellFormed.opened (.connected "ip") rfl
  · intro h
    cases h.empty_of_end ⟨.disconnected none, by decide, trivial⟩ rfl

end MediaServer.Transport
