import MediaServer.Transport.Messages
import MediaServer.Lib.Lifecycle

/-!
# The link of a WebRTC transport

The three WebRTC transports carry the same `State`, the same timer and the same reaction
to ICE, written out in each of `webrtc.rs`, `whip.rs` and `whep.rs`; they differ in what
connects them and in what ends them.  The timer and ICE never disturb the life of the
link: they open a new one, lose and find a live one, and leave a dead one alone.

`BweState` (`bwe_state.rs`) is the bandwidth estimation of a transport that sends video.
-/

namespace MediaServer.Transport

open Lifecycle

/-! ### Life of a transport -/

/-- The states a trace may begin with. -/
def Opens : TransportState → Prop
  | .new | .connecting _ => True
  | _ => False

/-- The terminal states. -/
def Closes : TransportState → Prop
  | .connectError _ | .disconnected _ => True
  | _ => False

instance : DecidablePred Opens := fun state =>
  match state with
  | .new | .connecting _ => .isTrue trivial
  | .connectError _ | .connected _ | .reconnecting _ | .disconnected _ => .isFalse id

instance : DecidablePred Closes := fun state =>
  match state with
  | .connectError _ | .disconnected _ => .isTrue trivial
  | .new | .connecting _ | .connected _ | .reconnecting _ => .isFalse id

/-! ### The link -/

def timeoutSec : Nat := 10

inductive TransportWebrtcError where
  | timeout
deriving DecidableEq, Repr

inductive State where
  | new
  | connecting (since : Instant)
  | connectError (err : TransportWebrtcError)
  | connected
  | reconnecting (since : Instant)
  | disconnected
deriving DecidableEq, Repr

namespace State

def isShutdown : State → Bool
  | .connectError _ | .disconnected => true
  | _ => false

/-- `now - at >= Duration::from_secs(TIMEOUT_SEC)`; the difference saturates. -/
def timedOut (now since : Instant) : Bool := timeoutSec * 1000000000 ≤ now - since

/-- What the timer makes of the link, and what it tells the endpoint. -/
def onTick (state : State) (now : Instant) (remote : IpAddr) : State × List TransportState :=
  match state with
  | .new => (.connecting now, [.connecting remote])
  | .connecting since =>
      if timedOut now since then (.connectError .timeout, [.connectError .timeout])
      else (.connecting since, [])
  | .reconnecting since =>
      if timedOut now since then (.disconnected, [.disconnected (some .timeout)])
      else (.reconnecting since, [])
  | state => (state, [])

def onStr0mState (state : State) (now : Instant) (remote : IpAddr) :
    IceConnectionState → State × List TransportState
  | .new | .checking => (state, [])
  | .connected | .completed =>
      match state with
      | .reconnecting _ => (.connected, [.connected remote])
      | state => (state, [])
  | .disconnected =>
      match state with
      | .connected => (.reconnecting now, [.reconnecting remote])
      | state => (state, [])

def phase : State → Phase
  | .new => .fresh
  | .connecting _ | .connected | .reconnecting _ => .live
  | .connectError _ | .disconnected => .shut

theorem phase_eq_shut {state : State} : state.phase = .shut ↔ state.isShutdown = true := by
  cases state <;> simp [phase, isShutdown]

theorem onTick_moves (state : State) (now : Instant) (remote : IpAddr) :
    Moves Opens Closes state.phase (state.onTick now remote).2
      (state.onTick now remote).1.phase := by
  cases state with
  | new => exact .start trivial id
  | connecting since =>
    simp only [onTick]
    split
    · exact .finish trivial
    · exact .stay _
  | reconnecting since =>
    simp only [onTick]
    split
    · exact .finish trivial
    · exact .stay _
  | connectError err => exact .stay _
  | connected => exact .stay _
  | disconnected => exact .stay _

theorem onStr0mState_moves (state : State) (now : Instant) (remote : IpAddr)
    (ice : IceConnectionState) :
    Moves Opens Closes state.phase (state.onStr0mState now remote ice).2
      (state.onStr0mState now remote ice).1.phase := by
  cases ice with
  | new => exact .stay _
  | checking => exact .stay _
  | connected =>
    cases state with
    | reconnecting since => exact .carryOn id
    | _ => exact .stay _
  | completed =>
    cases state with
    | reconnecting since => exact .carryOn id
    | _ => exact .stay _
  | disconnected =>
    cases state with
    | connected => exact .carryOn id
    | _ => exact .stay _

/-! ### What the link makes of its cues -/

/-- What an input can mean for a link.  `close` is every way to end it but the shutdown of
    an SDK client, which leaves a dead link alone. -/
inductive Cue where
  | none
  | tick (now : Instant)
  | ice (now : Instant) (ice : IceConnectionState)
  | connect
  | close
  | shutdown
deriving Repr

/-- The link after a cue, and what the endpoint is told. -/
def react (state : State) (remote : IpAddr) : Cue → State × List TransportState
  | .none => (state, [])
  | .tick now => state.onTick now remote
  | .ice now ice => state.onStr0mState now remote ice
  | .connect => (.connected, [.connected remote])
  | .close =>
      match state with
      | .disconnected => (.disconnected, [])
      | _ => (.disconnected, [.disconnected .none])
  | .shutdown =>
      if state.isShutdown then (state, []) else (.disconnected, [.disconnected .none])

/-- The cues that do not disturb the life of a link: it is connected only while it lives,
    and ended neither before its timer has opened it nor after a connect error. -/
def permits (state : State) : Cue → Prop
  | .connect => state.phase = .live
  | .close => state.phase = .live ∨ state = .disconnected
  | .shutdown => state.phase ≠ .fresh
  | .none | .tick _ | .ice .. => True

instance (state : State) (cue : Cue) : Decidable (state.permits cue) :=
  match cue with
  | .connect => inferInstanceAs (Decidable (state.phase = .live))
  | .close => inferInstanceAs (Decidable (state.phase = .live ∨ state = .disconnected))
  | .shutdown => inferInstanceAs (Decidable (state.phase ≠ .fresh))
  | .none | .tick _ | .ice .. => .isTrue trivial

/-- **A permitted cue is a move of the life of the link.** -/
theorem react_moves {state : State} {cue : Cue} (h : state.permits cue) (remote : IpAddr) :
    Moves Opens Closes state.phase (state.react remote cue).2
      (state.react remote cue).1.phase := by
  cases cue with
  | none => exact .stay _
  | tick now => exact state.onTick_moves now remote
  | ice now ice => exact state.onStr0mState_moves now remote ice
  | connect =>
    have hlive : state.phase = .live := h
    rw [hlive]
    exact .carryOn id
  | close =>
    rcases h with hlive | rfl
    · cases state with
      | disconnected => cases hlive
      | new => cases hlive
      | connectError err => cases hlive
      | connecting since => exact .finish trivial
      | connected => exact .finish trivial
      | reconnecting since => exact .finish trivial
    · exact .stay _
  | shutdown =>
    have hfresh : state.phase ≠ .fresh := h
    cases state with
    | new => exact absurd rfl hfresh
    | connectError err => exact .stay _
    | disconnected => exact .stay _
    | connecting since => exact .finish trivial
    | connected => exact .finish trivial
    | reconnecting since => exact .finish trivial

end State

/-! ### Bandwidth estimation -/

def warmUpBweBps : UInt64 := 800000
def warmUpDesiredBps : UInt64 := 1000000
def warmUpMs : Nat := 5000
def bweTimeoutMs : Nat := 2000

inductive BweState where
  | inactive
  | warmUp (startedAt lastVideoPkt : Instant) (resetBwe : Bool)
  | active (lastVideoPkt : Instant)
deriving Repr

namespace BweState

/-- The bitrate to reset the estimation to, if it has to be reset. -/
def onTick (bwe : BweState) (now : Instant) : BweState × Option UInt64 :=
  match bwe with
  | .inactive => (.inactive, none)
  | .warmUp startedAt lastVideoPkt resetBwe =>
      if resetBwe then (.warmUp startedAt lastVideoPkt false, some warmUpBweBps)
      else if bweTimeoutMs ≤ Instant.millisSince now lastVideoPkt then (.inactive, some 0)
      else if warmUpMs ≤ Instant.millisSince now startedAt then (.active lastVideoPkt, none)
      else (.warmUp startedAt lastVideoPkt resetBwe, none)
  | .active lastVideoPkt =>
      if bweTimeoutMs ≤ Instant.millisSince now lastVideoPkt then (.inactive, some 0)
      else (.active lastVideoPkt, none)

def onSendVideo (bwe : BweState) (now : Instant) : BweState :=
  match bwe with
  | .inactive => .warmUp now now true
  | .warmUp startedAt _ resetBwe => .warmUp startedAt now resetBwe
  | .active _ => .active now

def filterBwe (bwe : BweState) (bitrate : UInt64) : UInt64 :=
  match bwe with
  | .inactive => 0
  | .warmUp .. => max bitrate warmUpBweBps
  | .active _ => bitrate

def filterBweConfig (bwe : BweState) (current desired : UInt64) : UInt64 × UInt64 :=
  match bwe with
  | .inactive => (0, 0)
  | .warmUp .. => (max current warmUpBweBps, max desired warmUpDesiredBps)
  | .active _ => (current, desired)

/-- What a tick of the estimation makes a transport queue. -/
def resetOutputs (reset : Option UInt64) : List InternalOutput :=
  match reset with
  | none => []
  | some bitrate => [.str0mResetBwe bitrate]

end BweState

/-! ### What the endpoint is told -/

/-- An event towards the endpoint. -/
def InternalOutput.event (event : TransportEvent) : InternalOutput :=
  .transportOutput (.event event)

/-- A request towards the endpoint. -/
def InternalOutput.request (reqId : EndpointReqId) (req : EndpointReq) : InternalOutput :=
  .transportOutput (.rpcReq reqId req)

/-- The changes of state among some outputs, in their order. -/
def statesOf (outs : List InternalOutput) : List TransportState :=
  outs.filterMap InternalOutput.state?

@[simp] theorem statesOf_nil : statesOf [] = [] := rfl

@[simp] theorem statesOf_append (first second : List InternalOutput) :
    statesOf (first ++ second) = statesOf first ++ statesOf second :=
  List.filterMap_append

def stateOutputs (states : List TransportState) : List InternalOutput :=
  states.map fun state => .event (.state state)

@[simp] theorem statesOf_stateOutputs (states : List TransportState) :
    statesOf (stateOutputs states) = states := by
  induction states with
  | nil => rfl
  | cons state rest ih =>
    change state :: statesOf (stateOutputs rest) = state :: rest
    rw [ih]

@[simp] theorem statesOf_resetOutputs (reset : Option UInt64) :
    statesOf (BweState.resetOutputs reset) = [] := by
  cases reset with
  | none => rfl
  | some bitrate => rfl

/-- The outputs from one queue to the next tell the endpoint `news`. -/
def Tells (queue queue' : List InternalOutput) (news : List TransportState) : Prop :=
  ∃ outs, queue' = queue ++ outs ∧ statesOf outs = news

theorem Tells.refl (queue : List InternalOutput) : Tells queue queue [] :=
  ⟨[], (List.append_nil _).symm, rfl⟩

theorem tells_append (queue outs : List InternalOutput) :
    Tells queue (queue ++ outs) (statesOf outs) :=
  ⟨outs, rfl, rfl⟩

theorem Tells.trans {queue queue' queue'' : List InternalOutput} {news news' : List TransportState}
    (h : Tells queue queue' news) (h' : Tells queue' queue'' news') :
    Tells queue queue'' (news ++ news') := by
  obtain ⟨outs, rfl, rfl⟩ := h
  obtain ⟨outs', rfl, rfl⟩ := h'
  exact ⟨outs ++ outs', List.append_assoc .., statesOf_append ..⟩

/-- Outputs that say nothing of the state may be queued at any time. -/
theorem Tells.append {queue queue' : List InternalOutput} {news : List TransportState}
    (h : Tells queue queue' news) {outs : List InternalOutput} (houts : statesOf outs = []) :
    Tells queue (queue' ++ outs) news := by
  have hboth := h.trans (tells_append queue' outs)
  rwa [houts, List.append_nil] at hboth

/-! ### Transports around a link -/

/-- A transport that carries a link. -/
class Linked (T : Type) where
  state : T → State
  remote : T → IpAddr
  queue : T → List InternalOutput

section Linked

open Linked

variable {T : Type} [Linked T]

/-- The link is untouched, and the endpoint is told nothing of it. -/
structure Quiet (t t' : T) : Prop where
  state : state t' = state t
  tells : Tells (queue t) (queue t') []

theorem quiet_of_eq {t t' : T} (hstate : state t' = state t) (hqueue : queue t' = queue t) :
    Quiet t t' :=
  ⟨hstate, hqueue ▸ Tells.refl _⟩

theorem Quiet.refl (t : T) : Quiet t t := quiet_of_eq rfl rfl

theorem Quiet.trans {t t' t'' : T} (h : Quiet t t') (h' : Quiet t' t'') : Quiet t t'' :=
  ⟨h'.state.trans h.state, h.tells.trans h'.tells⟩

/-- Outputs that say nothing of the link may be queued at any time. -/
theorem Quiet.push {t t' t'' : T} (h : Quiet t t') {outs : List InternalOutput}
    (hstate : Linked.state t'' = Linked.state t') (hqueue : queue t'' = queue t' ++ outs)
    (houts : statesOf outs = []) : Quiet t t'' := by
  refine ⟨hstate.trans h.state, ?_⟩
  rw [hqueue]
  exact h.tells.append houts

/-- The transport did with its link what the cue says. -/
def Follows (t : T) (cue : State.Cue) (t' : T) : Prop :=
  state t' = ((state t).react (remote t) cue).1 ∧
    Tells (queue t) (queue t') ((state t).react (remote t) cue).2

theorem Quiet.follows {t t' : T} (h : Quiet t t') : Follows t .none t' :=
  ⟨h.state, h.tells⟩

/-- A quiet handler may follow. -/
theorem Follows.quiet {t t' t'' : T} {cue : State.Cue} (h : Follows t cue t')
    (h' : Quiet t' t'') : Follows t cue t'' := by
  refine ⟨h'.state.trans h.1, ?_⟩
  have htells := h.2.trans h'.tells
  rwa [List.append_nil] at htells

/-- A transport that takes over what the link does and tells follows the cue. -/
theorem follows_of_eq {t t' : T} {cue : State.Cue}
    (hstate : state t' = ((state t).react (remote t) cue).1)
    (hqueue : queue t' = queue t ++ stateOutputs ((state t).react (remote t) cue).2) :
    Follows t cue t' := by
  refine ⟨hstate, ?_⟩
  rw [hqueue]
  have htells := tells_append (queue t) (stateOutputs ((state t).react (remote t) cue).2)
  rwa [statesOf_stateOutputs] at htells

/-- A transport that is left as it is follows a cue that the link ignores. -/
theorem Quiet.follows_of_react {t t' : T} {cue : State.Cue} (h : Quiet t t')
    (hreact : (Linked.state t).react (remote t) cue = (Linked.state t, [])) :
    Follows t cue t' := by
  rw [Follows, hreact]
  exact ⟨h.state, h.tells⟩

/-- The handlers that end a link unless it is disconnected. -/
theorem follows_close {t t' : T} (hdead : state t = .disconnected → Quiet t t')
    (hend : state t ≠ .disconnected → state t' = .disconnected ∧
      queue t' = queue t ++ stateOutputs [.disconnected none]) : Follows t .close t' := by
  by_cases hstate : state t = .disconnected
  · refine (hdead hstate).follows_of_react ?_
    rw [hstate]
    rfl
  · have hreact : (state t).react (remote t) .close = (.disconnected, [.disconnected none]) := by
      cases hcase : state t with
      | disconnected => exact absurd hcase hstate
      | _ => rfl
    obtain ⟨hstate', hqueue⟩ := hend hstate
    exact follows_of_eq (by rw [hreact, hstate']) (by rw [hreact, hqueue])

/-- The timer of a transport that also resets its bandwidth estimation. -/
theorem follows_tick {t t' : T} {now : Instant} {reset : Option UInt64}
    (hstate : state t' = ((state t).onTick now (remote t)).1)
    (hqueue : queue t' = queue t ++ BweState.resetOutputs reset ++
      stateOutputs ((state t).onTick now (remote t)).2) : Follows t (.tick now) t' := by
  refine ⟨hstate, ?_⟩
  have hreset : Tells (queue t) (queue t ++ BweState.resetOutputs reset) [] :=
    (Tells.refl _).append (statesOf_resetOutputs reset)
  have htells := hreset.trans (tells_append _ (stateOutputs ((state t).onTick now (remote t)).2))
  rw [hqueue]
  rwa [statesOf_stateOutputs, List.nil_append] at htells

open Machine

/-- A transport is a link for the endpoint: each input means a cue, and the transport does
    and tells what the link does and tells. -/
structure Refines {Input : Type} (M : Machine T Input InternalOutput)
    (cue : Input → State.Cue) : Prop where
  queue : ∀ t, M.queue t = Linked.queue t
  init : state M.init = .new
  step : ∀ t i t', M.step t i = .ok t' → Follows t (cue i) t'
  pop : ∀ t, state (M.dropFront t) = state t

/-- **The trace of a link.** Whatever a transport tells its endpoint in a run of permitted
    cues has come as far as the phase of its link. -/
theorem Refines.run_at {Input : Type} {M : Machine T Input InternalOutput}
    {cue : Input → State.Cue} (h : Refines M cue) {acts : List (Action Input)}
    {c : Config T Input InternalOutput}
    (hadm : M.Admits (fun _ t i => (state t).permits (cue i)) acts) (hrun : M.run acts = .ok c) :
    At Opens Closes (statesOf (emitted c.history)) (state c.state).phase := by
  refine run_invariant _
    (fun history t => At Opens Closes (statesOf (emitted history)) (state t).phase) ?_ ?_ ?_
    hadm hrun
  · rw [h.init]
    exact At.nil
  · intro history t i t' hat hpermits hstep
    obtain ⟨hstate, outs, hqueue, htells⟩ := h.step t i t' hstep
    rw [← h.queue, ← h.queue] at hqueue
    rw [emitted_concat, statesOf_append, M.pushed_eq_of_append hqueue, htells, hstate]
    exact hat.move (State.react_moves hpermits (remote t))
  · intro history t hat
    rwa [h.pop]

end Linked

end MediaServer.Transport
