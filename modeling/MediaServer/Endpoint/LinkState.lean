import MediaServer.Endpoint.Steps
import MediaServer.Lib.Lifecycle

/-!
# The state an endpoint remembers of its transport

An endpoint keeps the last state its transport told.  Nothing but a told state changes
it, so an endpoint that has been told anything has a previous state.
-/

namespace MediaServer.Endpoint

open Machine

variable {Selector : Type}

namespace EndpointInternal

variable {env : Env Selector}

theorem popTask_state {s s' : EndpointInternal Selector} {now : Instant} {pick : Pick}
    (h : s.popTask env now pick = .ok s') : s'.state = s.state := by
  cases pick with
  | bitrateAllocator =>
    rcases popBitrateAllocator_eq_ok h with ⟨-, rfl⟩ | ⟨out, allocator, -, hcase⟩
    · rfl
    · rcases hcase with rfl | ⟨event, rfl⟩ | ⟨index, action, hto⟩ | ⟨index, action, hto⟩
      · rfl
      · rfl
      · obtain ⟨group, -, rfl⟩ := toRemote_eq_ok hto
        rfl
      · obtain ⟨group, -, rfl⟩ := toLocal_eq_ok hto
        rfl
  | localTracks index =>
    rcases popLocalTracks_eq_ok h with ⟨-, rfl⟩ | ⟨t, id, -, -, hcase⟩
    · rfl
    · rcases hcase with ⟨out, rest, -, -, rfl⟩ | ⟨group, -, -, rfl⟩
      · rfl
      · rfl
  | remoteTracks index =>
    rcases popRemoteTracks_eq_ok h with ⟨-, rfl⟩ | ⟨t, id, -, -, hcase⟩
    · rfl
    · rcases hcase with ⟨out, rest, -, -, rfl⟩ | ⟨kind, group, -, -, rfl⟩
      · rfl
      · rfl

theorem popAll_state {s s' : EndpointInternal Selector} {now : Instant} {schedule : Schedule}
    (h : popAll env now schedule s = .ok s') : s'.state = s.state :=
  popAll_invariant (fun u => u.state = s.state)
    (fun _ _ _ hsame hturn => (popTask_state hturn).trans hsame) rfl h

theorem poll_state {s s' : EndpointInternal Selector} {now : Instant} {schedule : Schedule}
    (h : EndpointInternal.poll env now schedule s = .ok s') : s'.state = s.state :=
  poll_invariant (fun u => u.state = s.state)
    (fun _ _ _ hsame hturn => (popTask_state hturn).trans hsame) rfl h

theorem broadcast_state {s s' : EndpointInternal Selector} {now : Instant}
    {toLocals : LocalTrack.Input} {toRemotes : RemoteTrack.Input}
    (h : s.broadcast env now toLocals toRemotes = .ok s') : s'.state = s.state := by
  obtain ⟨localTracks, remoteTracks, -, -, rfl⟩ := broadcast_eq_ok h
  rfl

theorem leaveRoom_state {s s' : EndpointInternal Selector} {now : Instant}
    {schedule : Schedule} (h : s.leaveRoom env now schedule = .ok s') : s'.state = s.state := by
  rcases leaveRoom_eq_ok h with ⟨-, rfl⟩ | ⟨joined, s₁, s₂, -, hs₁, hs₂, rfl⟩
  · rfl
  · have hleft := broadcast_state hs₁
    exact (popAll_state hs₂).trans hleft

theorem joinRoom_state {s s' : EndpointInternal Selector} {now : Instant}
    {schedule : Schedule} {req : WaitJoin} (h : s.joinRoom env now schedule req = .ok s') :
    s'.state = s.state := by
  obtain ⟨s₁, hs₁, hs'⟩ := joinRoom_eq_ok h
  have hleft := leaveRoom_state hs₁
  have hjoined := broadcast_state hs'
  exact hjoined.trans hleft

theorem onShutdown_state {s s' : EndpointInternal Selector} {now : Instant}
    {schedule : Schedule} (h : s.onShutdown env now schedule = .ok s') : s'.state = s.state := by
  rcases onShutdown_eq_ok h with ⟨-, rfl⟩ | ⟨-, localTracks, remoteTracks, s₁, -, -, hs₁, hcase⟩
  · rfl
  · have hpopped := popAll_state hs₁
    rcases hcase with ⟨-, rfl⟩ | ⟨joined, -, rfl⟩
    · exact hpopped
    · exact hpopped

theorem onTransportStateChanged_state {s s' : EndpointInternal Selector} {now : Instant}
    {schedule : Schedule} {state : TransportState}
    (h : s.onTransportStateChanged env now schedule state = .ok s') :
    s'.state = some (now, state) := by
  cases state with
  | new => cases h; rfl
  | connecting ip => cases h; rfl
  | reconnecting ip => cases h; rfl
  | disconnected err =>
    have hsame := onShutdown_state h
    exact hsame
  | connectError err =>
    simp only [onTransportStateChanged] at h
    split at h
    · cases h
    · have hsame := onShutdown_state h
      exact hsame
  | connected ip =>
    simp only [onTransportStateChanged] at h
    split at h
    · cases h
    · split at h
      · cases h
        rfl
      · have hsame := joinRoom_state h
        exact hsame

theorem toRemote_state {s s' : EndpointInternal Selector} {now : Instant} {index : Nat}
    {input : RemoteTrack.Input} (h : s.toRemote now index input = .ok s') :
    s'.state = s.state := by
  obtain ⟨group, -, rfl⟩ := toRemote_eq_ok h
  rfl

theorem toLocal_state {s s' : EndpointInternal Selector} {now : Instant} {index : Nat}
    {input : LocalTrack.Input} (h : s.toLocal env now index input = .ok s') :
    s'.state = s.state := by
  obtain ⟨group, -, rfl⟩ := toLocal_eq_ok h
  rfl

theorem onTransportRemoteTrack_state {s s' : EndpointInternal Selector} {now : Instant}
    {hint : Nat} {track : RemoteTrackId} {event : RemoteTrackEvent}
    (h : s.onTransportRemoteTrack now hint track event = .ok s') : s'.state = s.state := by
  simp only [onTransportRemoteTrack] at h
  cases hcreate : event.needCreate with
  | none =>
    rw [hcreate] at h
    split at h
    · cases h
      rfl
    · exact toRemote_state h
  | some created =>
    rw [hcreate] at h
    split at h
    · cases h
      rfl
    · have hsame := toRemote_state h
      exact hsame

theorem onTransportLocalTrack_state {s s' : EndpointInternal Selector} {now : Instant}
    {hint : Nat} {track : LocalTrackId} {event : LocalTrackEvent}
    (h : s.onTransportLocalTrack env now hint track event = .ok s') : s'.state = s.state := by
  simp only [onTransportLocalTrack] at h
  cases hcreate : event.needCreate with
  | none =>
    rw [hcreate] at h
    split at h
    · cases h
      rfl
    · exact toLocal_state h
  | some kind =>
    rw [hcreate] at h
    split at h
    · cases h
      rfl
    · have hsame := toLocal_state h
      exact hsame

theorem forward_state (s : EndpointInternal Selector) (reqId : EndpointReqId)
    (res : RpcResult → EndpointRes) (room : Option ClusterRoomHash) (err : EndpointErrors)
    (control : ClusterEndpointControl) :
    (s.forward reqId res room err control).state = s.state := by
  cases room with
  | none => rfl
  | some hash => rfl

theorem onTransportRpc_state {s s' : EndpointInternal Selector} {now : Instant}
    {schedule : Schedule} {reqId : EndpointReqId} {req : EndpointReq}
    (h : s.onTransportRpc env now schedule reqId req = .ok s') : s'.state = s.state := by
  cases req with
  | joinRoom room peer peerMeta publish subscribe mixer =>
    simp only [onTransportRpc] at h
    split at h
    · cases h
      rfl
    · exact joinRoom_state h
  | leaveRoom =>
    simp only [onTransportRpc] at h
    split at h
    · cases h
      rfl
    · have hsame := leaveRoom_state h
      exact hsame
  | subscribePeer peer => cases h; exact s.forward_state ..
  | unsubscribePeer peer => cases h; exact s.forward_state ..
  | remoteTrack track req =>
    simp only [onTransportRpc] at h
    split at h
    · cases h
      rfl
    · exact toRemote_state h
  | localTrack track req =>
    simp only [onTransportRpc] at h
    split at h
    · cases h
      rfl
    · exact toLocal_state h
  | audioMixer req =>
    cases h
    cases req with
    | attach sources => exact s.forward_state ..
    | detach sources => exact s.forward_state ..
  | messageChannel label req =>
    cases h
    cases req with
    | publishData data =>
      simp only [onMessageChannelReq]
      cases s.joined with
      | none => rfl
      | some joined => rfl
    | _ => exact s.forward_state ..

theorem onClusterEvent_state {s s' : EndpointInternal Selector} {now : Instant}
    {event : ClusterEndpointEvent} (h : s.onClusterEvent env now event = .ok s') :
    s'.state = s.state := by
  cases event with
  | remoteTrack track event =>
    simp only [onClusterEvent] at h
    split at h
    · cases h
      rfl
    · exact toRemote_state h
  | localTrack track event =>
    simp only [onClusterEvent] at h
    split at h
    · cases h
      rfl
    · exact toLocal_state h
  | audioMixer event =>
    cases event with
    | slotSet slot peer track => cases h; rfl
    | slotUnset slot => cases h; rfl
  | peerJoined | peerLeaved | trackStarted | trackStopped | messageChannelData =>
    cases h
    rfl

/-- The state an input tells. -/
def toldState : Input → Option (Instant × TransportState)
  | .transport now _ _ (.state state) => some (now, state)
  | _ => none

/-- **What an endpoint remembers** is the last state it was told. -/
theorem step_state {s s' : EndpointInternal Selector} {input : Input}
    (h : s.step env input = .ok s') : s'.state = (toldState input).or s.state := by
  cases input with
  | tick now =>
    obtain ⟨localTracks, -, rfl⟩ := onTick_eq_ok h
    rfl
  | shutdown now schedule => exact onShutdown_state h
  | transport now schedule hint event =>
    cases event with
    | state state => exact onTransportStateChanged_state h
    | remoteTrack track event => exact onTransportRemoteTrack_state h
    | localTrack track event => exact onTransportLocalTrack_state h
    | stats => cases h; rfl
    | egressBitrateEstimate bitrate => cases h; rfl
  | rpc now schedule reqId req => exact onTransportRpc_state h
  | cluster now event => exact onClusterEvent_state h
  | poll now schedule => exact poll_state h

/-! ### Runs -/

/-- The states an endpoint was told, in their order. -/
def heard (history : History Input InternalOutput) : List TransportState :=
  history.filterMap fun entry => (toldState entry.1).map Prod.snd

theorem heard_concat (history : History Input InternalOutput) (input : Input)
    (outs : List InternalOutput) :
    heard (history ++ [(input, outs)]) =
      heard history ++ ((toldState input).map Prod.snd).toList := by
  rw [heard, heard, List.filterMap_append]
  cases hstate : toldState input with
  | none => simp [hstate]
  | some told => simp [hstate]

/-- An endpoint that was told anything has a previous state. -/
theorem state_of_heard {cfg : EndpointCfg} {acts : List (Action Input)}
    {c : Config (EndpointInternal Selector) Input InternalOutput}
    (hrun : (machine env cfg).run acts = .ok c) (hheard : heard c.history ≠ []) :
    c.state.state.isSome = true := by
  have hinv := run_invariant (M := machine env cfg) (fun _ _ _ => True)
    (fun history s => heard history ≠ [] → s.state.isSome = true) (fun hnil => absurd rfl hnil)
    ?_ (fun _ _ h => h) (Admits.of_forall (fun _ _ _ => trivial) acts) hrun
  · exact hinv hheard
  · intro history s input s' h _ hstep hne
    rw [step_state hstep]
    cases hstate : toldState input with
    | some told => rfl
    | none =>
      rw [heard_concat, hstate] at hne
      exact h (by simpa using hne)

/-- The transport connects, or fails to: the endpoint then expects a previous state. -/
def expectsState : TransportState → Bool
  | .connected _ | .connectError _ => true
  | _ => false

/-- The expectation of a previous state is met. -/
def MeetsExpect (s : EndpointInternal Selector) (input : Input) : Prop :=
  ∀ told ∈ toldState input, expectsState told.2 = true → s.state.isSome = true

end EndpointInternal

end MediaServer.Endpoint
