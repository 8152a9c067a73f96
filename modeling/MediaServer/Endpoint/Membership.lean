import MediaServer.Endpoint.Steps

/-!
# The rooms an endpoint joins and leaves

An endpoint joins on request, or when its transport connects with a request
parked; it leaves on request, when it joins another room, and when it is shut
down.  Its joins and leaves alternate and each leave names the room joined before
it.  A shutdown leaves the room, but only the first one does anything, and joining
is not refused afterwards: an endpoint that joins after its shutdown stays in the
room for good.
-/

namespace MediaServer.Endpoint

open Collections Runtime Machine

variable {Selector : Type}

/-- The room after one more control; a join while in a room, or a leave of another
    room than the one joined, has none. -/
def memberStep (current : Option ClusterRoomHash) :
    ClusterRoomHash × ClusterEndpointControl → Option (Option ClusterRoomHash)
  | (room, .join ..) => if current = none then some (some room) else none
  | (room, .leave) => if current = some room then some none else none
  | _ => some current

@[simp] theorem memberStep_leave (room : ClusterRoomHash) :
    memberStep (some room) (room, .leave) = some none :=
  if_pos rfl

/-- The room after a trace of controls, if its joins and leaves alternate and match. -/
def memberRun (trace : List (ClusterRoomHash × ClusterEndpointControl)) :
    Option (Option ClusterRoomHash) :=
  trace.foldlM memberStep none

theorem memberRun_append {first second : List (ClusterRoomHash × ClusterEndpointControl)}
    {current : Option ClusterRoomHash} (h : memberRun first = some current) :
    memberRun (first ++ second) = second.foldlM memberStep current := by
  rw [memberRun, List.foldlM_append]
  change (memberRun first).bind _ = _
  rw [h]
  rfl

/-- Controls that are neither joins nor leaves keep the room. -/
theorem foldlM_memberStep_of_forall {trace : List (ClusterRoomHash × ClusterEndpointControl)}
    (h : ∀ said ∈ trace, isIncidental said.2 = true ∨ EndpointInternal.isTrack said.2 = true)
    (current : Option ClusterRoomHash) :
    trace.foldlM memberStep current = some current := by
  induction trace with
  | nil => rfl
  | cons said rest ih =>
    obtain ⟨room, control⟩ := said
    have hstep : memberStep current (room, control) = some current := by
      have hcontrol := h (room, control) (List.mem_cons_self ..)
      cases control with
      | join | leave => rcases hcontrol with hcontrol | hcontrol <;> cases hcontrol
      | subscribePeer | unsubscribePeer | remoteTrack | localTrack | audioMixer | messageChannel =>
        rfl
    rw [List.foldlM_cons, hstep]
    exact ih fun said hmem => h said (List.mem_cons_of_mem _ hmem)

namespace EndpointInternal

/-- The hash of the room the endpoint takes itself to be in. -/
def inRoom (s : EndpointInternal Selector) : Option ClusterRoomHash := s.joined.map (·.hash)

/-- The outputs queued between two states lead from the room of one to the room of
    the other. -/
def Moves (s s' : EndpointInternal Selector) : Prop :=
  ∃ outs, s'.queue = s.queue ++ outs ∧
    (controlsOf outs).foldlM memberStep s.inRoom = some s'.inRoom

theorem Moves.trans {s s' s'' : EndpointInternal Selector} (h : Moves s s')
    (h' : Moves s' s'') : Moves s s'' := by
  obtain ⟨outs, hqueue, hmoves⟩ := h
  obtain ⟨outs', hqueue', hmoves'⟩ := h'
  refine ⟨outs ++ outs', by rw [hqueue', hqueue, List.append_assoc], ?_⟩
  rw [controlsOf_append, List.foldlM_append, hmoves]
  exact hmoves'

theorem moves_of_eq {s s' : EndpointInternal Selector} (hqueue : s'.queue = s.queue)
    (hjoined : s'.joined = s.joined) : Moves s s' := by
  refine ⟨[], by rw [hqueue, List.append_nil], ?_⟩
  rw [inRoom, inRoom, hjoined]
  rfl

theorem Quiet.moves {s s' : EndpointInternal Selector} (h : Quiet s s') : Moves s s' := by
  obtain ⟨outs, hframe, hincidental⟩ := h
  refine ⟨outs, hframe.queue, ?_⟩
  rw [inRoom, inRoom, hframe.joined]
  exact foldlM_memberStep_of_forall (fun said hmem => Or.inl (hincidental said hmem)) _

theorem Passes.moves {s s' : EndpointInternal Selector} (h : Passes s s') : Moves s s' := by
  obtain ⟨outs, hqueue, htrack⟩ := h.queue
  refine ⟨outs, hqueue, ?_⟩
  rw [inRoom, inRoom, h.joined]
  exact foldlM_memberStep_of_forall (fun said hmem => Or.inr (htrack said hmem)) _

theorem controlsOf_leaveOutputs (s : EndpointInternal Selector) (now : Instant)
    (joined : Joined) : controlsOf (s.leaveOutputs now joined) = [(joined.hash, .leave)] := by
  simp only [leaveOutputs, controlsOf_append, controlsOf_recorded]
  rfl

theorem controlsOf_joinOutputs (s : EndpointInternal Selector) (now : Instant)
    (hash : ClusterRoomHash) (req : WaitJoin) :
    controlsOf (s.joinOutputs now hash req) =
      [(hash, .join req.peer req.peerMeta req.publish req.subscribe req.mixer)] := by
  simp only [joinOutputs, controlsOf_append, controlsOf_recorded]
  rfl

section

variable {env : Env Selector}

theorem leaveRoom_moves {s s' : EndpointInternal Selector} {now : Instant}
    {schedule : Schedule} (h : s.leaveRoom env now schedule = .ok s') :
    Moves s s' ∧ s'.joined = none ∧ s'.shutdown = s.shutdown := by
  rcases leaveRoom_eq_ok h with ⟨hnone, rfl⟩ | ⟨joined, s₁, s₂, hjoined, hs₁, hs₂, rfl⟩
  · exact ⟨moves_of_eq rfl rfl, hnone, rfl⟩
  · obtain ⟨localTracks, remoteTracks, -, -, rfl⟩ := broadcast_eq_ok hs₁
    have hpass := popAll_passes hs₂
    refine ⟨?_, hpass.joined, hpass.shutdown⟩
    -- the room is given up first, but its leave is queued last
    obtain ⟨outs, hqueue, htrack⟩ := hpass.queue
    refine ⟨outs ++ s₂.leaveOutputs now joined, ?_, ?_⟩
    · rw [push, hqueue, List.append_assoc]
    · have hin : s.inRoom = some joined.hash := by rw [inRoom, hjoined]; rfl
      have hout : (s₂.push (s₂.leaveOutputs now joined)).inRoom = none := by
        change s₂.joined.map _ = none
        rw [hpass.joined]
        rfl
      rw [controlsOf_append, List.foldlM_append,
        foldlM_memberStep_of_forall (fun said hmem => Or.inr (htrack said hmem)),
        controlsOf_leaveOutputs, hin, hout]
      simp

theorem joinRoom_moves {s s' : EndpointInternal Selector} {now : Instant}
    {schedule : Schedule} {req : WaitJoin} (h : s.joinRoom env now schedule req = .ok s') :
    Moves s s' ∧ s'.joined = some (joinedBy env s req) ∧ s'.shutdown = s.shutdown := by
  obtain ⟨s₁, hs₁, hs'⟩ := joinRoom_eq_ok h
  obtain ⟨hmoves, hnone, hshutdown⟩ := leaveRoom_moves hs₁
  obtain ⟨localTracks, remoteTracks, -, -, rfl⟩ := broadcast_eq_ok hs'
  refine ⟨?_, rfl, hshutdown⟩
  have hleft : Moves s s₁ := (quiet_push s rfl).moves.trans hmoves
  refine hleft.trans ⟨s₁.joinOutputs now (joinedBy env s req).hash req, rfl, ?_⟩
  rw [controlsOf_joinOutputs, inRoom, hnone]
  rfl

theorem onShutdown_moves {s s' : EndpointInternal Selector} {now : Instant}
    {schedule : Schedule} (h : s.onShutdown env now schedule = .ok s') :
    Moves s s' ∧ s'.shutdown = true ∧ (s.shutdown = false → s'.joined = none) ∧
      (s.shutdown = true → s' = s) := by
  rcases onShutdown_eq_ok h with
    ⟨hdown, rfl⟩ | ⟨hup, localTracks, remoteTracks, s₁, -, -, hs₁, hcase⟩
  · exact ⟨moves_of_eq rfl rfl, hdown, fun h => by simp [hdown] at h, fun _ => rfl⟩
  · have hpass := popAll_passes hs₁
    have hmoves : Moves s s₁ := (moves_of_eq rfl rfl).trans hpass.moves
    refine ⟨?_, ?_, ?_, fun h => by simp [hup] at h⟩
    · rcases hcase with ⟨-, rfl⟩ | ⟨joined, hjoined, rfl⟩
      · exact hmoves
      · refine hmoves.trans ⟨s₁.leaveOutputs now joined, rfl, ?_⟩
        rw [controlsOf_leaveOutputs, inRoom, hjoined]
        simp [inRoom, push]
    · rcases hcase with ⟨-, rfl⟩ | ⟨joined, -, rfl⟩
      · exact hpass.shutdown
      · exact hpass.shutdown
    · rintro -
      rcases hcase with ⟨hnone, rfl⟩ | ⟨joined, -, rfl⟩
      · exact hnone
      · rfl

/-- What a step does to the room and to the shutdown flag. -/
theorem step_moves {s s' : EndpointInternal Selector} {input : Input}
    (h : s.step env input = .ok s') :
    Moves s s' ∧ (s.shutdown = true → s'.shutdown = true) ∧
      (closes input = true → s'.shutdown = true) ∧
      (s'.shutdown = true → s'.joined = none ∨
        s.shutdown = true ∧ (s'.joined = s.joined ∨ s.joins input = true)) := by
  have hroom : ∀ {s₁ : EndpointInternal Selector}, closes input = false → Moves s s₁ →
      s₁.joined = s.joined → s₁.shutdown = s.shutdown → Moves s s₁ ∧
      (s.shutdown = true → s₁.shutdown = true) ∧ (closes input = true → s₁.shutdown = true) ∧
      (s₁.shutdown = true → s₁.joined = none ∨
        s.shutdown = true ∧ (s₁.joined = s.joined ∨ s.joins input = true)) := by
    intro s₁ hopen hmoves hjoined hshutdown
    refine ⟨hmoves, fun h => hshutdown.trans h, fun h => by simp [hopen] at h, fun h => ?_⟩
    exact Or.inr ⟨hshutdown.symm.trans h, Or.inl hjoined⟩
  cases step_effect h with
  | quiet hopen hquiet => exact hroom hopen hquiet.moves hquiet.joined hquiet.shutdown
  | join hjoins hquiet h =>
    obtain ⟨hmoves, -, hshutdown⟩ := joinRoom_moves h
    have hsame : s'.shutdown = s.shutdown := hshutdown.trans hquiet.shutdown
    have hopen := closes_of_joins hjoins
    refine ⟨hquiet.moves.trans hmoves, fun h => hsame.trans h, fun h => by simp [hopen] at h, ?_⟩
    exact fun h => Or.inr ⟨hsame.symm.trans h, Or.inr hjoins⟩
  | leave hleaves hquiet h =>
    obtain ⟨hmoves, hnone, hshutdown⟩ := leaveRoom_moves h
    have hopen := closes_of_leaves hleaves
    refine ⟨hquiet.moves.trans hmoves, fun h => (hshutdown.trans hquiet.shutdown).trans h,
      fun h => by simp [hopen] at h, fun _ => Or.inl hnone⟩
  | shutdown hcloses hquiet h =>
    obtain ⟨hmoves, hdown, hfirst, hagain⟩ := onShutdown_moves h
    refine ⟨hquiet.moves.trans hmoves, fun _ => hdown, fun _ => hdown, fun _ => ?_⟩
    cases hshutdown : s.shutdown with
    | false => exact Or.inl (hfirst (hquiet.shutdown.trans hshutdown))
    | true =>
      rw [hagain (hquiet.shutdown.trans hshutdown)]
      exact Or.inr ⟨rfl, Or.inl hquiet.joined⟩
  | toRemote hopen hindex hroutine hevent h =>
    obtain ⟨group, -, rfl⟩ := toRemote_eq_ok h
    exact hroom hopen (moves_of_eq rfl rfl) rfl rfl
  | toLocal hopen hindex hroutine h =>
    obtain ⟨group, -, rfl⟩ := toLocal_eq_ok h
    exact hroom hopen (moves_of_eq rfl rfl) rfl rfl
  | startRemote h =>
    obtain ⟨group, -, rfl⟩ := toRemote_eq_ok h
    exact hroom rfl (moves_of_eq rfl rfl) rfl rfl
  | @startLocal s₁ _ now schedule hint track kind hquiet h =>
    obtain ⟨group, -, rfl⟩ := toLocal_eq_ok h
    have hmoves : Moves s (withLocal env s hint track kind) := moves_of_eq rfl rfl
    exact hroom rfl ((hmoves.trans hquiet.moves).trans (moves_of_eq rfl rfl)) hquiet.joined
      hquiet.shutdown
  | tick h =>
    obtain ⟨localTracks, -, rfl⟩ := onTick_eq_ok h
    exact hroom rfl (moves_of_eq rfl rfl) rfl rfl
  | poll h =>
    have hpass := poll_passes h
    exact hroom rfl hpass.moves hpass.joined hpass.shutdown

/-! ### Runs -/

/-- No join happens once the endpoint has been shut down. -/
def NoJoinAfterShutdown : Contract (EndpointInternal Selector) Input InternalOutput :=
  fun _ s input => s.shutdown = true → s.joins input = false

/-- The room follows the trace, and a shut down endpoint is in none. -/
structure MembershipInv (history : History Input InternalOutput)
    (s : EndpointInternal Selector) : Prop where
  run : memberRun (controlsOf (emitted history)) = some s.inRoom
  closed : (∃ entry ∈ history, closes entry.1 = true) → s.shutdown = true
  left : s.shutdown = true → s.joined = none

theorem membershipInv_init (cfg : EndpointCfg) :
    MembershipInv [] (EndpointInternal.new cfg : EndpointInternal Selector) :=
  ⟨rfl, by simp, fun h => by cases h⟩

theorem MembershipInv.step {cfg : EndpointCfg} {history : History Input InternalOutput}
    {s s' : EndpointInternal Selector} {input : Input} (hinv : MembershipInv history s)
    (hok : NoJoinAfterShutdown history s input) (h : s.step env input = .ok s') :
    MembershipInv (history ++ [(input, (machine env cfg).pushed s s')]) s' := by
  obtain ⟨⟨outs, hqueue, hmoves⟩, hkept, hcloses, hleft⟩ := step_moves h
  refine ⟨?_, ?_, ?_⟩
  · rw [emitted_concat, pushed_eq_of_append (machine env cfg) hqueue, controlsOf_append,
      memberRun_append hinv.run]
    exact hmoves
  · rintro ⟨entry, hmem, hentry⟩
    rcases List.mem_append.mp hmem with hmem | hmem
    · exact hkept (hinv.closed ⟨entry, hmem, hentry⟩)
    · rw [List.mem_singleton] at hmem
      subst hmem
      exact hcloses hentry
  · intro hshutdown
    rcases hleft hshutdown with hnone | ⟨hbefore, hsame | hjoins⟩
    · exact hnone
    · exact hsame.trans (hinv.left hbefore)
    · rw [hok hbefore] at hjoins
      cases hjoins

end

/-- The claim about a run: joins and leaves alternate, each leave names the room joined
    before it, and once a closing input was processed and everything is popped, no
    join is left open. -/
def MembershipKept (c : Config (EndpointInternal Selector) Input InternalOutput) : Prop :=
  (∃ room, memberRun (controlsOf (emitted c.history)) = some room) ∧
    ((∃ entry ∈ c.history, closes entry.1 = true) → c.state.queue = [] →
      memberRun (controlsOf c.popped) = some none)

/-- **Room membership.** In a run that does not join after a shutdown, joins and leaves
    alternate, match, and are balanced once the endpoint is closed and drained. -/
theorem membership_trace (env : Env Selector) (cfg : EndpointCfg) {acts : List (Action Input)}
    {c : Config (EndpointInternal Selector) Input InternalOutput}
    (hadm : (machine env cfg).Admits NoJoinAfterShutdown acts)
    (hrun : (machine env cfg).run acts = .ok c) : MembershipKept c := by
  have hinv := run_invariant NoJoinAfterShutdown MembershipInv (membershipInv_init cfg)
    (fun _ _ _ _ hinv hok hstep => hinv.step hok hstep)
    (fun _ _ hinv => ⟨hinv.run, hinv.closed, hinv.left⟩) hadm hrun
  refine ⟨⟨_, hinv.run⟩, fun hclosed hdrained => ?_⟩
  have hpopped : c.popped = emitted c.history := by
    have := (machine env cfg).popped_append_queue hrun
    rwa [show (machine env cfg).queue c.state = [] from hdrained, List.append_nil] at this
  rw [hpopped, hinv.run, inRoom, hinv.left (hinv.closed hclosed)]
  rfl

instance (history : History Input InternalOutput) (s : EndpointInternal Selector)
    (input : Input) : Decidable (NoJoinAfterShutdown history s input) :=
  inferInstanceAs (Decidable (_ → _))

/-- The configuration of an endpoint of the root application. -/
def rootCfg : EndpointCfg := ⟨⟨""⟩, 2000000, 2000000, false⟩

/-- The transport connects from one address. -/
def connect : List (Action Input) :=
  [.input (.transport 0 [] 0 (.state (.connecting "127.0.0.1"))),
    .input (.transport 0 [] 0 (.state (.connected "127.0.0.1")))]

/-- A request to join a room as `peer`. -/
def joinRequest (room : RoomId) : Input :=
  .rpc 0 [] 1 (.joinRoom room "peer" ⟨none, none⟩ ⟨true, true⟩ ⟨true, true⟩ none)

/-- A client that moves from one room to another and is shut down. -/
def twoRooms : List (Action Input) :=
  connect ++ [Action.input (joinRequest "room1"), .input (joinRequest "room2"),
    .input (.shutdown 0 [])]

theorem membership_trace_twoRooms :
    ∃ c, (machine Env.passAll rootCfg).run twoRooms = .ok c ∧ MembershipKept c :=
  ⟨_, rfl, membership_trace Env.passAll rootCfg
    (show (machine Env.passAll rootCfg).Admits NoJoinAfterShutdown twoRooms from
      AdmitsFrom.admits (by decide)) rfl⟩

/-- A client whose join arrives after the shutdown, before its transport ends. -/
def lateJoin : List (Action Input) :=
  connect ++ [Action.input (.shutdown 0 []), .input (joinRequest "room"),
    .input (.transport 1 [] 0 (.state (.disconnected none)))] ++ List.replicate 6 .pop

/-- An endpoint that joins after its shutdown never leaves: the end of its transport
    does nothing any more. -/
theorem join_after_shutdown_is_kept :
    ∃ c, (machine Env.passAll rootCfg).run lateJoin = .ok c ∧ c.state.queue = [] ∧
      memberRun (controlsOf c.popped) =
        some (some (ClusterRoomHash.generate fnv1a ⟨""⟩ "room")) ∧
      ¬ MembershipKept c := by
  refine ⟨_, rfl, rfl, rfl, fun h => ?_⟩
  have hopen := h.2 (List.any_eq_true.mp rfl) rfl
  cases hopen

end EndpointInternal

end MediaServer.Endpoint
