import MediaServer.Endpoint.Membership
import MediaServer.Endpoint.Outputs

/-!
# The answers to a client's requests

Every request has an id, and its answer carries that id.  Most requests are answered
on the spot; a request for a track is answered by the track, whose queue the answer
leaves when the track is popped; a join that comes before the transport is connected
is parked and answered when it is carried out.  So an answer is either popped, or in
the queue of the endpoint, or in the queue of a track.

Some requests are never answered: one for a track that is not there, a parked join
that another one replaces or that is given up, and one whose transport never connects.
-/

namespace MediaServer.Endpoint

open Collections Runtime Machine

variable {Selector : Type}

/-! ### Answers among outputs -/

/-- The requests that outputs of an endpoint answer. -/
def answersOf (outs : List InternalOutput) : List EndpointReqId :=
  outs.filterMap fun
    | .rpcRes reqId _ => some reqId
    | _ => none

theorem answersOf_append (first second : List InternalOutput) :
    answersOf (first ++ second) = answersOf first ++ answersOf second :=
  List.filterMap_append

/-- The request that an input of a local track is. -/
def LocalTrack.Input.asks : LocalTrack.Input → List EndpointReqId
  | .rpcReq reqId _ => [reqId]
  | _ => []

namespace EndpointLocalTrack

open LocalTrack

/-- The requests that outputs of a local track answer. -/
def answersOf (outs : List Output) : List EndpointReqId :=
  outs.filterMap fun
    | .rpcRes reqId _ => some reqId
    | _ => none

/-- The answers to a request that wait in a track's queue. -/
def answersTo (r : EndpointReqId) (t : EndpointLocalTrack Selector) : Nat := (answersOf t.queue).count r

theorem answersOf_reports (t : EndpointLocalTrack Selector) :
    answersOf t.reports = answersOf t.queue := by
  rw [answersOf, reports, List.filterMap_filter]
  refine List.filterMap_congr fun out _ => ?_
  cases out <;> rfl

theorem Reports.answersOf {t t' : EndpointLocalTrack Selector} {news : List Output}
    (h : t.Reports t' news) :
    answersOf t'.queue = answersOf t.queue ++ EndpointLocalTrack.answersOf news := by
  rw [← answersOf_reports, h.reports, EndpointLocalTrack.answersOf, List.filterMap_append]
  congr 1
  exact answersOf_reports t

/-- A request is answered once. -/
theorem Answers.answersOf {t t' : EndpointLocalTrack Selector} {reqId : EndpointReqId}
    {req : EndpointLocalTrackReq} (h : Answers t t' reqId req) :
    answersOf t'.queue = answersOf t.queue ++ [reqId] := by
  cases h with
  | refuse _ hreports => exact hreports.answersOf
  | attach _ _ hunbinds hreports =>
    rw [hreports.answersOf]
    rcases hunbinds with rfl | rfl
    · rfl
    · rfl
  | detach _ hreports => exact hreports.answersOf
  | config _ hreports => exact hreports.answersOf

end EndpointLocalTrack

/-- The request that an input of a remote track is. -/
def RemoteTrack.Input.asks : RemoteTrack.Input → List EndpointReqId
  | .rpcReq reqId _ => [reqId]
  | _ => []

namespace EndpointRemoteTrack

open RemoteTrack

/-- The requests that outputs of a remote track answer. -/
def answersOf (outs : List Output) : List EndpointReqId :=
  outs.filterMap fun
    | .rpcRes reqId _ => some reqId
    | _ => none

/-- The answers to a request that wait in a track's queue. -/
def answersTo (r : EndpointReqId) (t : EndpointRemoteTrack) : Nat := (answersOf t.queue).count r

theorem answersOf_reports (t : EndpointRemoteTrack) :
    answersOf t.reports = answersOf t.queue := by
  rw [answersOf, reports, List.filterMap_filter]
  refine List.filterMap_congr fun out _ => ?_
  cases out <;> rfl

theorem Reports.answersOf {t t' : EndpointRemoteTrack} {news : List Output}
    (h : t.Reports t' news) :
    answersOf t'.queue = answersOf t.queue ++ EndpointRemoteTrack.answersOf news := by
  rw [← answersOf_reports, h.reports, EndpointRemoteTrack.answersOf, List.filterMap_append]
  congr 1
  exact answersOf_reports t

theorem onEvent_answersOf {t t' : EndpointRemoteTrack} {now : Instant} {input : Input}
    (h : onEvent now input t = .ok t') :
    answersOf t'.queue = answersOf t.queue ++ input.asks := by
  cases input with
  | rpcReq reqId req =>
    cases h
    obtain ⟨res, hreports⟩ := t.onRpcReq_reports reqId req
    rw [hreports.answersOf]
    obtain ⟨config⟩ := req
    simp only
    split
    · rfl
    · rfl
  | event event =>
    cases h
    rw [(t.onTransportEvent_reports now event).answersOf]
    split
    · rfl
    · rfl
  | joinRoom room => exact (onJoinRoom_reports h).answersOf
  | leaveRoom => exact (onLeaveRoom_reports h).answersOf
  | cluster event =>
    cases h
    exact (t.onClusterEvent_reports event).answersOf
  | bitrateAllocation action =>
    cases h
    exact (t.onBitrateAllocationAction_reports action).answersOf

end EndpointRemoteTrack

theorem EndpointLocalTrack.onEvent_answersOf {api : SelectorApi Selector}
    {timestampMs : Instant → Nat} {t t' : EndpointLocalTrack Selector} {now : Instant}
    {input : LocalTrack.Input} (h : onEvent api timestampMs now input t = .ok t') :
    answersOf t'.queue = answersOf t.queue ++ input.asks := by
  cases input with
  | rpcReq reqId req =>
    cases h
    exact (onRpcReq_answers api timestampMs t now reqId req).answersOf
  | _ => exact (onEvent_reports api timestampMs h (by simp)).answersOf

namespace EndpointInternal

theorem answersOf_passedRemote (id : RemoteTrackId) (out : RemoteTrack.Output) :
    answersOf (passedRemote id out) = EndpointRemoteTrack.answersOf [out] := by
  cases out <;> rfl

theorem answersOf_passedLocal (id : LocalTrackId) (out : LocalTrack.Output) :
    answersOf (passedLocal id out) = EndpointLocalTrack.answersOf [out] := by
  cases out <;> rfl

/-! ### Where the answers are -/

/-- The answers to a request that wait in the queues of the tracks. -/
def inTracks (s : EndpointInternal Selector) (r : EndpointReqId) : Nat :=
  s.localTracks.total (EndpointLocalTrack.answersTo r) +
    s.remoteTracks.total (EndpointRemoteTrack.answersTo r)

/-- The answers to a request that wait to be popped. -/
def unpopped (s : EndpointInternal Selector) (r : EndpointReqId) : Nat :=
  (answersOf s.queue).count r + s.inTracks r

/-- The requests `ids` were answered, and the join that waits and the state of the
    transport stayed the same. -/
structure Answered (s s' : EndpointInternal Selector) (ids : List EndpointReqId) : Prop where
  unpopped : ∀ r, s'.unpopped r = s.unpopped r + ids.count r
  waitJoin : s'.waitJoin = s.waitJoin
  state : s'.state = s.state

theorem Answered.refl (s : EndpointInternal Selector) : Answered s s [] :=
  ⟨fun _ => rfl, rfl, rfl⟩

theorem Answered.trans {s s' s'' : EndpointInternal Selector} {ids ids' : List EndpointReqId}
    (h : Answered s s' ids) (h' : Answered s' s'' ids') : Answered s s'' (ids ++ ids') := by
  refine ⟨fun r => ?_, h'.waitJoin.trans h.waitJoin, h'.state.trans h.state⟩
  rw [h'.unpopped, h.unpopped, List.count_append, Nat.add_assoc]

theorem Answered.quiet {s s' s'' : EndpointInternal Selector} {ids : List EndpointReqId}
    (h : Answered s s' ids) (h' : Answered s' s'' []) : Answered s s'' ids := by
  have htrans := h.trans h'
  rwa [List.append_nil] at htrans

theorem answered_push (s : EndpointInternal Selector) (outs : List InternalOutput) :
    Answered s (s.push outs) (answersOf outs) := by
  refine ⟨fun r => ?_, rfl, rfl⟩
  simp only [EndpointInternal.unpopped, push, answersOf_append, List.count_append, inTracks]
  omega

/-! ### One task -/

/-- The tracks of one side changed, and with them the answers they hold. -/
theorem answered_localTracks {s : EndpointInternal Selector}
    {group : TaskGroup (EndpointLocalTrack Selector)} {ids : List EndpointReqId}
    (h : ∀ r, group.total (EndpointLocalTrack.answersTo r) =
      s.localTracks.total (EndpointLocalTrack.answersTo r) +
        ids.count r) : Answered s { s with localTracks := group } ids := by
  refine ⟨fun r => ?_, rfl, rfl⟩
  simp only [EndpointInternal.unpopped, inTracks, h r]
  omega

theorem answered_remoteTracks {s : EndpointInternal Selector}
    {group : TaskGroup EndpointRemoteTrack} {ids : List EndpointReqId}
    (h : ∀ r, group.total (EndpointRemoteTrack.answersTo r) =
      s.remoteTracks.total (EndpointRemoteTrack.answersTo r) +
        ids.count r) : Answered s { s with remoteTracks := group } ids := by
  refine ⟨fun r => ?_, rfl, rfl⟩
  simp only [EndpointInternal.unpopped, inTracks, h r]
  omega

/-- A track at the index answers what it is asked; without one nothing happens. -/
theorem toRemote_answered {s s' : EndpointInternal Selector} {now : Instant} {index : Nat}
    {told : RemoteTrack.Input} (h : s.toRemote now index told = .ok s') :
    Answered s s' (if (s.remoteTracks.get index).isSome then told.asks else []) := by
  obtain ⟨group, hgroup, rfl⟩ := toRemote_eq_ok h
  refine answered_remoteTracks fun r => ?_
  rcases TaskGroup.onEvent_eq_ok hgroup with ⟨hnone, rfl⟩ | ⟨t, t', hget, ht', rfl⟩
  · rw [hnone]
    rfl
  · have hset : (s.remoteTracks.set index t').total (EndpointRemoteTrack.answersTo r) +
        t.answersTo r = _ + t'.answersTo r := TaskGroup.total_set hget t'
    simp only [EndpointRemoteTrack.answersTo, EndpointRemoteTrack.onEvent_answersOf ht',
      List.count_append] at hset
    rw [hget, Option.isSome_some, if_pos rfl]
    change _ = _ + told.asks.count r
    omega

theorem toRemote_unasked {s s' : EndpointInternal Selector} {now : Instant} {index : Nat}
    {told : RemoteTrack.Input} (h : s.toRemote now index told = .ok s') (hasks : told.asks = []) :
    Answered s s' [] := by
  have hanswered := toRemote_answered h
  rwa [hasks, ite_self] at hanswered

section

variable {env : Env Selector}

theorem toLocal_answered {s s' : EndpointInternal Selector} {now : Instant} {index : Nat}
    {told : LocalTrack.Input} (h : s.toLocal env now index told = .ok s') :
    Answered s s' (if (s.localTracks.get index).isSome then told.asks else []) := by
  obtain ⟨group, hgroup, rfl⟩ := toLocal_eq_ok h
  refine answered_localTracks fun r => ?_
  rcases TaskGroup.onEvent_eq_ok hgroup with ⟨hnone, rfl⟩ | ⟨t, t', hget, ht', rfl⟩
  · rw [hnone]
    rfl
  · have hset : (s.localTracks.set index t').total (EndpointLocalTrack.answersTo r) +
        t.answersTo r = _ + t'.answersTo r := TaskGroup.total_set hget t'
    simp only [EndpointLocalTrack.answersTo, EndpointLocalTrack.onEvent_answersOf ht',
      List.count_append] at hset
    rw [hget, Option.isSome_some, if_pos rfl]
    change _ = _ + told.asks.count r
    omega

theorem toLocal_unasked {s s' : EndpointInternal Selector} {now : Instant} {index : Nat}
    {told : LocalTrack.Input} (h : s.toLocal env now index told = .ok s')
    (hasks : told.asks = []) : Answered s s' [] := by
  have hanswered := toLocal_answered h
  rwa [hasks, ite_self] at hanswered

/-- A popped answer moves from the queue of its track to the queue of the endpoint. -/
theorem popRemoteTracks_answered {s s' : EndpointInternal Selector} {index : Nat}
    (h : s.popRemoteTracks index = .ok s') : Answered s s' [] := by
  rcases popRemoteTracks_eq_ok h with ⟨-, rfl⟩ | ⟨t, id, hget, -, hcase⟩
  · exact Answered.refl _
  · refine ⟨fun r => ?_, ?_, ?_⟩
    · rcases hcase with ⟨out, rest, hqueue, -, rfl⟩ | ⟨kind, group, hend, hgone, rfl⟩
      · have hset : (s.remoteTracks.set index { t with queue := rest }).total (EndpointRemoteTrack.answersTo r) +
            t.answersTo r = _ + EndpointRemoteTrack.answersTo r { t with queue := rest } :=
          TaskGroup.total_set hget _
        have hfront : EndpointRemoteTrack.answersOf t.queue =
            EndpointRemoteTrack.answersOf [out] ++ EndpointRemoteTrack.answersOf rest := by
          rw [hqueue, EndpointRemoteTrack.answersOf, EndpointRemoteTrack.answersOf,
            EndpointRemoteTrack.answersOf, ← List.filterMap_append, List.singleton_append]
        simp only [EndpointRemoteTrack.answersTo, hfront, List.count_append] at hset
        simp only [EndpointInternal.unpopped, inTracks, answersOf_append, answersOf_passedRemote,
          List.count_append, List.count_nil]
        omega
      · have hgoes : group.total (EndpointRemoteTrack.answersTo r) + t.answersTo r = _ :=
          TaskGroup.total_of_gone hget hgone
        have hnone : EndpointRemoteTrack.answersOf t.queue = [] := by
          rcases hend with hqueue | ⟨hempty, -⟩
          · rw [hqueue]
            rfl
          · rw [show t.queue = [] from TaskChild.queue_of_isEmpty t hempty]
            rfl
        simp only [EndpointRemoteTrack.answersTo, hnone, List.count_nil] at hgoes
        simp only [EndpointInternal.unpopped, inTracks, List.count_nil]
        omega
    · rcases hcase with ⟨out, rest, -, -, rfl⟩ | ⟨kind, group, -, -, rfl⟩ <;> rfl
    · rcases hcase with ⟨out, rest, -, -, rfl⟩ | ⟨kind, group, -, -, rfl⟩ <;> rfl

theorem popLocalTracks_answered {s s' : EndpointInternal Selector} {index : Nat}
    (h : s.popLocalTracks index = .ok s') : Answered s s' [] := by
  rcases popLocalTracks_eq_ok h with ⟨-, rfl⟩ | ⟨t, id, hget, -, hcase⟩
  · exact Answered.refl _
  · refine ⟨fun r => ?_, ?_, ?_⟩
    · rcases hcase with ⟨out, rest, hqueue, -, rfl⟩ | ⟨group, hend, hgone, rfl⟩
      · have hset : (s.localTracks.set index { t with queue := rest }).total (EndpointLocalTrack.answersTo r) +
            t.answersTo r = _ + EndpointLocalTrack.answersTo r { t with queue := rest } :=
          TaskGroup.total_set hget _
        have hfront : EndpointLocalTrack.answersOf t.queue =
            EndpointLocalTrack.answersOf [out] ++ EndpointLocalTrack.answersOf rest := by
          rw [hqueue, EndpointLocalTrack.answersOf, EndpointLocalTrack.answersOf,
            EndpointLocalTrack.answersOf, ← List.filterMap_append, List.singleton_append]
        simp only [EndpointLocalTrack.answersTo, hfront, List.count_append] at hset
        simp only [EndpointInternal.unpopped, inTracks, answersOf_append, answersOf_passedLocal,
          List.count_append, List.count_nil]
        omega
      · have hgoes : group.total (EndpointLocalTrack.answersTo r) + t.answersTo r = _ :=
          TaskGroup.total_of_gone hget hgone
        have hnone : EndpointLocalTrack.answersOf t.queue = [] := by
          rcases hend with hqueue | hempty
          · rw [hqueue]
            rfl
          · rw [show t.queue = [] from TaskChild.queue_of_isEmpty t hempty]
            rfl
        simp only [EndpointLocalTrack.answersTo, hnone, List.count_nil] at hgoes
        simp only [EndpointInternal.unpopped, inTracks, List.count_nil]
        omega
    · rcases hcase with ⟨out, rest, -, -, rfl⟩ | ⟨group, -, -, rfl⟩ <;> rfl
    · rcases hcase with ⟨out, rest, -, -, rfl⟩ | ⟨group, -, -, rfl⟩ <;> rfl

theorem popBitrateAllocator_answered {s s' : EndpointInternal Selector} {now : Instant}
    (h : s.popBitrateAllocator env now = .ok s') : Answered s s' [] := by
  rcases popBitrateAllocator_eq_ok h with ⟨-, rfl⟩ | ⟨out, allocator, -, hcase⟩
  · exact Answered.refl _
  · have hsame : Answered s { s with bitrateAllocator := allocator } [] :=
      ⟨fun _ => rfl, rfl, rfl⟩
    rcases hcase with rfl | ⟨event, rfl⟩ | ⟨index, action, hto⟩ | ⟨index, action, hto⟩
    · exact hsame
    · exact hsame.trans (answered_push _ _)
    · exact hsame.trans (toRemote_unasked hto rfl)
    · exact hsame.trans (toLocal_unasked hto rfl)

/-- **A turn answers nothing and loses no answer.** -/
theorem popTask_answered {s s' : EndpointInternal Selector} {now : Instant} {pick : Pick}
    (h : s.popTask env now pick = .ok s') : Answered s s' [] := by
  cases pick with
  | bitrateAllocator => exact popBitrateAllocator_answered h
  | localTracks index => exact popLocalTracks_answered h
  | remoteTracks index => exact popRemoteTracks_answered h

theorem popAll_answered {s s' : EndpointInternal Selector} {now : Instant} {schedule : Schedule}
    (h : popAll env now schedule s = .ok s') : Answered s s' [] :=
  popAll_invariant (Answered s · []) (fun _ _ _ hsame hturn => hsame.quiet (popTask_answered hturn))
    (Answered.refl s) h

theorem poll_answered {s s' : EndpointInternal Selector} {now : Instant} {schedule : Schedule}
    (h : EndpointInternal.poll env now schedule s = .ok s') : Answered s s' [] :=
  poll_invariant (Answered s · []) (fun _ _ _ hsame hturn => hsame.quiet (popTask_answered hturn))
    (Answered.refl s) h

/-! ### Joining and leaving -/

theorem broadcast_answered {s s' : EndpointInternal Selector} {now : Instant}
    {toLocals : LocalTrack.Input} {toRemotes : RemoteTrack.Input}
    (h : s.broadcast env now toLocals toRemotes = .ok s') (hlocals : toLocals.asks = [])
    (hremotes : toRemotes.asks = []) : Answered s s' [] := by
  obtain ⟨localTracks, remoteTracks, hlocal, hremote, rfl⟩ := broadcast_eq_ok h
  have hleft : Answered s { s with localTracks := localTracks } [] := by
    refine answered_localTracks fun r => TaskGroup.total_onEvents (fun t t' ht' => ?_) hlocal
    simp only [EndpointLocalTrack.answersTo, EndpointLocalTrack.onEvent_answersOf ht', hlocals,
      List.append_nil]
  refine hleft.trans (answered_remoteTracks fun r => ?_)
  refine TaskGroup.total_onEvents (fun t t' ht' => ?_) hremote
  simp only [EndpointRemoteTrack.answersTo, EndpointRemoteTrack.onEvent_answersOf ht', hremotes,
    List.append_nil]

theorem answersOf_recorded (s : EndpointInternal Selector) (now : Instant)
    (event : SessionRecordEvent) : answersOf (s.recorded now event) = [] := by
  unfold recorded
  split
  · rfl
  · rfl

theorem answersOf_leaveOutputs (s : EndpointInternal Selector) (now : Instant)
    (joined : Joined) : answersOf (s.leaveOutputs now joined) = [] := by
  simp only [leaveOutputs, answersOf_append, answersOf_recorded]
  rfl

theorem answersOf_joinOutputs (s : EndpointInternal Selector) (now : Instant)
    (hash : ClusterRoomHash) (req : WaitJoin) : answersOf (s.joinOutputs now hash req) = [] := by
  simp only [joinOutputs, answersOf_append, answersOf_recorded]
  rfl

theorem leaveRoom_answered {s s' : EndpointInternal Selector} {now : Instant}
    {schedule : Schedule} (h : s.leaveRoom env now schedule = .ok s') : Answered s s' [] := by
  rcases leaveRoom_eq_ok h with ⟨-, rfl⟩ | ⟨joined, s₁, s₂, -, hs₁, hs₂, rfl⟩
  · exact Answered.refl _
  · have hout : Answered s { s with joined := none } [] := ⟨fun _ => rfl, rfl, rfl⟩
    have hpush := s₂.answered_push (s₂.leaveOutputs now joined)
    rw [answersOf_leaveOutputs] at hpush
    exact ((hout.quiet (broadcast_answered hs₁ rfl rfl)).quiet (popAll_answered hs₂)).quiet hpush

/-- A join is answered once it is carried out. -/
theorem joinRoom_answered {s s' : EndpointInternal Selector} {now : Instant}
    {schedule : Schedule} {req : WaitJoin} (h : s.joinRoom env now schedule req = .ok s') :
    Answered s s' [req.reqId] := by
  obtain ⟨s₁, hs₁, hs'⟩ := joinRoom_eq_ok h
  have hleft := (s.answered_push [.rpcRes req.reqId (.joinRoom (.ok ()))]).quiet
    (leaveRoom_answered hs₁)
  have hin : Answered s₁ { s₁ with joined := some (joinedBy env s req) } [] :=
    ⟨fun _ => rfl, rfl, rfl⟩
  have hpush := answered_push { s₁ with joined := some (joinedBy env s req) }
    (s₁.joinOutputs now (joinedBy env s req).hash req)
  rw [answersOf_joinOutputs] at hpush
  exact ((hleft.quiet hin).quiet hpush).quiet (broadcast_answered hs' rfl rfl)

theorem onShutdown_answered {s s' : EndpointInternal Selector} {now : Instant}
    {schedule : Schedule} (h : s.onShutdown env now schedule = .ok s') : Answered s s' [] := by
  rcases onShutdown_eq_ok h with
    ⟨-, rfl⟩ | ⟨-, localTracks, remoteTracks, s₁, hlocal, hremote, hs₁, hcase⟩
  · exact Answered.refl _
  · have hdown : Answered s { s with shutdown := true } [] := ⟨fun _ => rfl, rfl, rfl⟩
    have hlocals : Answered { s with shutdown := true }
        { s with shutdown := true, localTracks := localTracks } [] := by
      refine answered_localTracks fun r => TaskGroup.total_onEvents (fun t t' ht' => ?_) hlocal
      simp only [EndpointLocalTrack.answersTo,
        (EndpointLocalTrack.onShutdown_reports ht').answersOf, List.count_append]
      rfl
    have hremotes : Answered { s with shutdown := true, localTracks := localTracks }
        { s with shutdown := true, localTracks := localTracks, remoteTracks := remoteTracks } [] := by
      refine answered_remoteTracks fun r => TaskGroup.total_onEvents (fun t t' ht' => ?_) hremote
      simp only [EndpointRemoteTrack.answersTo,
        (EndpointRemoteTrack.onShutdown_reports ht').answersOf, List.count_append]
      rfl
    have hpopped := ((hdown.quiet hlocals).quiet hremotes).quiet (popAll_answered hs₁)
    rcases hcase with ⟨-, rfl⟩ | ⟨joined, -, rfl⟩
    · exact hpopped
    · have hout : Answered s₁ { s₁ with joined := none } [] := ⟨fun _ => rfl, rfl, rfl⟩
      have hpush := answered_push { s₁ with joined := none } (s₁.leaveOutputs now joined)
      rw [answersOf_leaveOutputs] at hpush
      exact (hpopped.quiet hout).quiet hpush

theorem onTick_answered {s s' : EndpointInternal Selector} {now : Instant}
    (h : s.onTick env now = .ok s') : Answered s s' [] := by
  obtain ⟨localTracks, hlocal, rfl⟩ := onTick_eq_ok h
  have hticks : Answered s { s with bitrateAllocator := s.bitrateAllocator.onTick } [] :=
    ⟨fun _ => rfl, rfl, rfl⟩
  refine hticks.trans (answered_localTracks fun r =>
    TaskGroup.total_onEvents (fun t t' ht' => ?_) hlocal)
  cases ht'
  simp only [EndpointLocalTrack.answersTo,
    (EndpointLocalTrack.onTick_reports env.selector env.timestampMs t now).answersOf,
    List.count_append]
  rfl

/-! ### One input -/

/-- There is a task for the remote track. -/
def hasRemote (s : EndpointInternal Selector) (track : RemoteTrackId) : Bool :=
  match s.remoteTracksId.get1 track with
  | none => false
  | some index => (s.remoteTracks.get index).isSome

/-- There is a task for the local track. -/
def hasLocal (s : EndpointInternal Selector) (track : LocalTrackId) : Bool :=
  match s.localTracksId.get1 track with
  | none => false
  | some index => (s.localTracks.get index).isSome

/-- The requests that an input makes the endpoint answer. -/
def answeredBy (s : EndpointInternal Selector) : Input → List EndpointReqId
  | .rpc _ _ reqId (.joinRoom ..) => if s.connecting then [] else [reqId]
  | .rpc _ _ reqId (.remoteTrack track _) => if s.hasRemote track then [reqId] else []
  | .rpc _ _ reqId (.localTrack track _) => if s.hasLocal track then [reqId] else []
  | .rpc _ _ reqId _ => [reqId]
  | .transport _ _ _ (.state (.connected _)) => s.waitJoin.toList.map WaitJoin.reqId
  | _ => []

/-- The join that waits after an input. -/
def parkedAfter (s : EndpointInternal Selector) : Input → Option WaitJoin
  | .rpc _ _ reqId (.joinRoom room peer peerMeta publish subscribe mixer) =>
      if s.connecting then some ⟨reqId, room, peer, peerMeta, publish, subscribe, mixer⟩
      else s.waitJoin
  | .rpc _ _ _ .leaveRoom => none
  | .transport _ _ _ (.state (.connected _)) => none
  | _ => s.waitJoin

/-- The state of the transport after an input. -/
def stateAfter (s : EndpointInternal Selector) : Input → Option (Instant × TransportState)
  | .transport now _ _ (.state state) => some (now, state)
  | _ => s.state

/-- What an input does to the accounts. -/
structure Accounts (s s' : EndpointInternal Selector) (input : Input) : Prop where
  unpopped : ∀ r, s'.unpopped r = s.unpopped r + (s.answeredBy input).count r
  waitJoin : s'.waitJoin = s.parkedAfter input
  state : s'.state = s.stateAfter input

theorem Answered.accounting {s s' : EndpointInternal Selector} {input : Input}
    {ids : List EndpointReqId} (h : Answered s s' ids) (hids : s.answeredBy input = ids)
    (hparked : s.parkedAfter input = s.waitJoin) (hstate : s.stateAfter input = s.state) :
    Accounts s s' input :=
  ⟨fun r => by rw [hids, h.unpopped], h.waitJoin.trans hparked.symm, h.state.trans hstate.symm⟩

theorem forward_answered (s : EndpointInternal Selector) (reqId : EndpointReqId)
    (res : RpcResult → EndpointRes) (room : Option ClusterRoomHash) (err : EndpointErrors)
    (control : ClusterEndpointControl) :
    Answered s (s.forward reqId res room err control) [reqId] := by
  cases room with
  | none => exact s.answered_push _
  | some hash => exact s.answered_push _

theorem onAudioMixerReq_answered (s : EndpointInternal Selector) (reqId : EndpointReqId)
    (req : EndpointAudioMixerReq) : Answered s (s.onAudioMixerReq reqId req) [reqId] := by
  unfold onAudioMixerReq
  cases req with
  | attach sources => exact s.forward_answered ..
  | detach sources => exact s.forward_answered ..

theorem onMessageChannelReq_answered (s : EndpointInternal Selector) (reqId : EndpointReqId)
    (label : MessageChannelLabel) (req : EndpointMessageChannelReq) :
    Answered s (s.onMessageChannelReq reqId label req) [reqId] := by
  unfold onMessageChannelReq
  cases req with
  | subscribe => exact s.forward_answered ..
  | unsubscribe => exact s.forward_answered ..
  | startPublish => exact s.forward_answered ..
  | stopPublish => exact s.forward_answered ..
  | publishData data =>
    cases s.joined with
    | none => exact s.answered_push _
    | some joined => exact s.answered_push _

theorem onTransportRpc_accounts {s s' : EndpointInternal Selector} {now : Instant}
    {schedule : Schedule} {reqId : EndpointReqId} {req : EndpointReq}
    (h : s.onTransportRpc env now schedule reqId req = .ok s') :
    Accounts s s' (.rpc now schedule reqId req) := by
  cases req with
  | joinRoom room peer peerMeta publish subscribe mixer =>
    simp only [onTransportRpc] at h
    split at h
    · rename_i hconnecting
      cases h
      refine ⟨fun r => ?_, ?_, rfl⟩
      · simp only [answeredBy, hconnecting, if_true]
        rfl
      · simp only [parkedAfter, hconnecting, if_true]
    · rename_i hconnecting
      exact (joinRoom_answered h).accounting (if_neg hconnecting) (if_neg hconnecting) rfl
  | leaveRoom =>
    simp only [onTransportRpc] at h
    split at h
    · cases h
      have hpush := answered_push { s with waitJoin := none } [.rpcRes reqId (.leaveRoom (.ok ()))]
      exact ⟨hpush.unpopped, rfl, rfl⟩
    · rename_i hnone
      have hpush := s.answered_push [.rpcRes reqId (.leaveRoom (.ok ()))]
      exact (hpush.quiet (leaveRoom_answered h)).accounting rfl hnone.symm rfl
  | subscribePeer peer =>
    cases h
    exact (s.forward_answered ..).accounting rfl rfl rfl
  | unsubscribePeer peer =>
    cases h
    exact (s.forward_answered ..).accounting rfl rfl rfl
  | remoteTrack track req =>
    simp only [onTransportRpc] at h
    split at h
    · rename_i hnone
      cases h
      exact (Answered.refl s).accounting (by simp [answeredBy, hasRemote, hnone]) rfl rfl
    · rename_i index hindex
      exact (toRemote_answered h).accounting (by simp [answeredBy, hasRemote, hindex]; rfl) rfl rfl
  | localTrack track req =>
    simp only [onTransportRpc] at h
    split at h
    · rename_i hnone
      cases h
      exact (Answered.refl s).accounting (by simp [answeredBy, hasLocal, hnone]) rfl rfl
    · rename_i index hindex
      exact (toLocal_answered h).accounting (by simp [answeredBy, hasLocal, hindex]; rfl) rfl rfl
  | audioMixer req =>
    cases h
    exact (s.onAudioMixerReq_answered reqId req).accounting rfl rfl rfl
  | messageChannel label req =>
    cases h
    exact (s.onMessageChannelReq_answered reqId label req).accounting rfl rfl rfl

theorem onTransportStateChanged_accounts {s s' : EndpointInternal Selector} {now : Instant}
    {schedule : Schedule} {hint : Nat} {state : TransportState}
    (h : s.onTransportStateChanged env now schedule state = .ok s') :
    Accounts s s' (.transport now schedule hint (.state state)) := by
  cases state with
  | new =>
    cases h
    exact ⟨fun _ => rfl, rfl, rfl⟩
  | connecting ip =>
    cases h
    exact ⟨(answered_push { s with state := some (now, .connecting ip) } _).unpopped, rfl, rfl⟩
  | reconnecting ip =>
    cases h
    exact ⟨(answered_push { s with state := some (now, .reconnecting ip) } _).unpopped, rfl, rfl⟩
  | connectError err =>
    simp only [onTransportStateChanged] at h
    split at h
    · cases h
    · have hdown := (answered_push { s with state := some (now, .connectError err) } _).trans
        (onShutdown_answered h)
      exact ⟨hdown.unpopped, hdown.waitJoin, hdown.state⟩
  | disconnected err =>
    have hpush := answered_push { s with state := some (now, .disconnected err) }
      ([InternalOutput.peerEvent now (.disconnected 0 0)] ++
        { s with state := some (now, .disconnected err) }.recorded now .disconnected)
    rw [answersOf_append, answersOf_recorded] at hpush
    have hdown := hpush.trans (onShutdown_answered h)
    exact ⟨hdown.unpopped, hdown.waitJoin, hdown.state⟩
  | connected ip =>
    simp only [onTransportStateChanged] at h
    split at h
    · cases h
    · split at h
      · rename_i hnone
        have hwait : s.waitJoin = none := hnone
        cases h
        refine ⟨fun r => ?_, hwait, rfl⟩
        simp only [answeredBy, hwait]
        exact (answered_push { s with state := some (now, .connected ip) } _).unpopped r
      · rename_i req hsome
        have hwait : s.waitJoin = some req := hsome
        have hjoin := (answered_push
          { s with state := some (now, .connected ip), waitJoin := none } [.peerEvent now _]).trans
          (joinRoom_answered h)
        refine ⟨fun r => ?_, hjoin.waitJoin, hjoin.state⟩
        simp only [answeredBy, hwait]
        exact hjoin.unpopped r

theorem onTransportEvent_accounts {s s' : EndpointInternal Selector} {now : Instant}
    {schedule : Schedule} {hint : Nat} {event : TransportEvent}
    (h : s.onTransportEvent env now schedule hint event = .ok s') :
    Accounts s s' (.transport now schedule hint event) := by
  cases event with
  | state state => exact onTransportStateChanged_accounts h
  | remoteTrack track event =>
    simp only [onTransportEvent, onTransportRemoteTrack] at h
    cases hcreate : event.needCreate with
    | none =>
      simp only [hcreate] at h
      split at h
      · cases h
        exact (Answered.refl s).accounting rfl rfl rfl
      · exact (toRemote_unasked h rfl).accounting rfl rfl rfl
    | some created =>
      obtain ⟨name, priority, trackMeta⟩ := created
      simp only [hcreate] at h
      have hadd : Answered s (s.withRemote hint track name trackMeta) [] := by
        refine ⟨fun r => ?_, rfl, rfl⟩
        have htotal : (s.remoteTracks.addTask hint (.new (s.joined.map (·.hash)) track name
            trackMeta s.cfg.record)).total (EndpointRemoteTrack.answersTo r) = _ :=
          TaskGroup.total_addTask ..
        simp only [EndpointInternal.unpopped, inTracks, withRemote, htotal, List.count_nil]
        rfl
      split at h
      · cases h
        exact hadd.accounting rfl rfl rfl
      · exact (hadd.trans (toRemote_unasked h rfl)).accounting rfl rfl rfl
  | localTrack track event =>
    simp only [onTransportEvent, onTransportLocalTrack] at h
    cases hcreate : event.needCreate with
    | none =>
      simp only [hcreate] at h
      split at h
      · cases h
        exact (Answered.refl s).accounting rfl rfl rfl
      · exact (toLocal_unasked h rfl).accounting rfl rfl rfl
    | some kind =>
      simp only [hcreate] at h
      have hadd : Answered s (withLocal env s hint track kind) [] := by
        refine ⟨fun r => ?_, rfl, rfl⟩
        have htotal : (s.localTracks.addTask hint (.new env.selector track kind
            (s.joined.map (·.hash)))).total (EndpointLocalTrack.answersTo r) = _ :=
          TaskGroup.total_addTask ..
        simp only [EndpointInternal.unpopped, inTracks, withLocal, htotal, List.count_nil]
        rfl
      have hpush := hadd.trans (answered_push _
        [.peerEvent now (.localTrack (Int32.ofNat track.toNat) kind.proto)])
      split at h
      · cases h
        exact hpush.accounting rfl rfl rfl
      · exact (hpush.trans (toLocal_unasked h rfl)).accounting rfl rfl rfl
  | stats =>
    cases h
    exact (Answered.refl s).accounting rfl rfl rfl
  | egressBitrateEstimate bitrate =>
    cases h
    exact ⟨fun _ => rfl, rfl, rfl⟩

theorem onClusterEvent_answered {s s' : EndpointInternal Selector} {now : Instant}
    {event : ClusterEndpointEvent} (h : s.onClusterEvent env now event = .ok s') :
    Answered s s' [] := by
  cases event with
  | remoteTrack track event =>
    simp only [onClusterEvent] at h
    split at h
    · cases h
      exact Answered.refl s
    · exact toRemote_unasked h rfl
  | localTrack track event =>
    simp only [onClusterEvent] at h
    split at h
    · cases h
      exact Answered.refl s
    · exact toLocal_unasked h rfl
  | audioMixer event =>
    cases event with
    | slotSet slot peer track =>
      cases h
      exact s.answered_push _
    | slotUnset slot =>
      cases h
      exact s.answered_push _
  | peerJoined | peerLeaved | trackStarted | trackStopped | messageChannelData =>
    cases h
    exact s.answered_push _

/-- **What an input does to the accounts.** -/
theorem step_accounts {s s' : EndpointInternal Selector} {input : Input}
    (h : s.step env input = .ok s') : Accounts s s' input := by
  cases input with
  | tick now => exact (onTick_answered h).accounting rfl rfl rfl
  | shutdown now schedule => exact (onShutdown_answered h).accounting rfl rfl rfl
  | transport now schedule hint event => exact onTransportEvent_accounts h
  | rpc now schedule reqId req => exact onTransportRpc_accounts h
  | cluster now event => exact (onClusterEvent_answered h).accounting rfl rfl rfl
  | poll now schedule => exact (poll_answered h).accounting rfl rfl rfl

end

/-! ### Runs -/

/-- What the requests of a history are owed: those whose answer is due, and the joins
    that were made before the transport connected and wait for it. -/
structure Account where
  link : Option TransportState
  owed : List EndpointReqId
  parked : List EndpointReqId

/-- The transport has connected or ended. -/
def isDecided : TransportState → Bool
  | .connected _ | .connectError _ | .disconnected _ => true
  | .new | .connecting _ | .reconnecting _ => false

namespace Account

/-- No state of the transport is known yet, or it is connecting. -/
def waits (a : Account) : Bool :=
  match a.link with
  | none => true
  | some (.connecting _) => true
  | _ => false

/-- Every request is owed one answer, and a join that waits for the transport is owed
    it from the moment the transport has connected or ended. -/
def step (a : Account) : Input → Account
  | .rpc _ _ reqId (.joinRoom ..) =>
      if a.waits then { a with parked := a.parked ++ [reqId] }
      else { a with owed := a.owed ++ [reqId] }
  | .rpc _ _ reqId _ => { a with owed := a.owed ++ [reqId] }
  | .transport _ _ _ (.state state) =>
      if isDecided state then ⟨some state, a.owed ++ a.parked, []⟩ else { a with link := some state }
  | _ => a

end Account

/-- The account of a history. -/
def account (history : History Input InternalOutput) : Account :=
  history.foldl (fun a entry => a.step entry.1) ⟨none, [], []⟩

theorem account_concat (history : History Input InternalOutput) (input : Input)
    (pushed : List InternalOutput) :
    account (history ++ [(input, pushed)]) = (account history).step input := by
  simp [account]

/-- The condition: a request for a track finds its task, and a join that waits for the
    transport is not replaced by another one, not given up, and not stranded. -/
def KeepsRequests : Contract (EndpointInternal Selector) Input InternalOutput :=
  fun _ s input =>
    match input with
    | .rpc _ _ _ (.remoteTrack track _) => s.hasRemote track = true
    | .rpc _ _ _ (.localTrack track _) => s.hasLocal track = true
    | .rpc _ _ _ (.joinRoom ..) => s.connecting = false ∨ s.waitJoin = none
    | .rpc _ _ _ .leaveRoom => s.waitJoin = none
    | .transport _ _ _ (.state (.connectError _)) => s.waitJoin = none
    | .transport _ _ _ (.state (.disconnected _)) => s.waitJoin = none
    | _ => True

instance (history : History Input InternalOutput) (s : EndpointInternal Selector) (input : Input) :
    Decidable (KeepsRequests history s input) :=
  match input with
  | .rpc _ _ _ (.remoteTrack track _) => inferInstanceAs (Decidable (s.hasRemote track = true))
  | .rpc _ _ _ (.localTrack track _) => inferInstanceAs (Decidable (s.hasLocal track = true))
  | .rpc _ _ _ (.joinRoom ..) =>
      inferInstanceAs (Decidable (s.connecting = false ∨ s.waitJoin = none))
  | .rpc _ _ _ .leaveRoom => inferInstanceAs (Decidable (s.waitJoin = none))
  | .rpc _ _ _ (.subscribePeer _) | .rpc _ _ _ (.unsubscribePeer _) | .rpc _ _ _ (.audioMixer _)
  | .rpc _ _ _ (.messageChannel ..) => .isTrue trivial
  | .transport _ _ _ (.state (.connectError _)) | .transport _ _ _ (.state (.disconnected _)) =>
      inferInstanceAs (Decidable (s.waitJoin = none))
  | .transport _ _ _ (.state .new) | .transport _ _ _ (.state (.connecting _))
  | .transport _ _ _ (.state (.connected _)) | .transport _ _ _ (.state (.reconnecting _))
  | .transport _ _ _ (.remoteTrack ..) | .transport _ _ _ (.localTrack ..)
  | .transport _ _ _ .stats | .transport _ _ _ (.egressBitrateEstimate _) => .isTrue trivial
  | .tick _ | .shutdown .. | .cluster .. | .poll .. => .isTrue trivial

/-- The account and the endpoint agree. -/
structure Balanced (history : History Input InternalOutput) (s : EndpointInternal Selector) :
    Prop where
  link : (account history).link = s.state.map Prod.snd
  parked : (account history).parked = s.waitJoin.toList.map WaitJoin.reqId
  owed : ∀ r, (answersOf (emitted history)).count r + s.inTracks r =
    (account history).owed.count r

theorem Balanced.waits {history : History Input InternalOutput} {s : EndpointInternal Selector}
    (h : Balanced history s) : (account history).waits = s.connecting := by
  unfold Account.waits connecting
  rw [h.link]
  cases s.state with
  | none => rfl
  | some pre =>
    obtain ⟨ts, state⟩ := pre
    cases state <;> rfl

/-- What the account of an admissible input says is what the endpoint does. -/
theorem Balanced.step_account {history : History Input InternalOutput}
    {s : EndpointInternal Selector} {input : Input} (h : Balanced history s)
    (hok : KeepsRequests history s input) :
    ((account history).step input).link = (s.stateAfter input).map Prod.snd ∧
      ((account history).step input).parked = (s.parkedAfter input).toList.map WaitJoin.reqId ∧
      ((account history).step input).owed = (account history).owed ++ s.answeredBy input := by
  have hsame : (account history).link = s.state.map Prod.snd ∧
      (account history).parked = s.waitJoin.toList.map WaitJoin.reqId ∧
      (account history).owed = (account history).owed ++ [] :=
    ⟨h.link, h.parked, (List.append_nil _).symm⟩
  cases input with
  | tick now => exact hsame
  | shutdown now schedule => exact hsame
  | cluster now event => exact hsame
  | poll now schedule => exact hsame
  | transport now schedule hint event =>
    cases event with
    | remoteTrack track event => exact hsame
    | localTrack track event => exact hsame
    | stats => exact hsame
    | egressBitrateEstimate bitrate => exact hsame
    | state state =>
      cases state with
      | new => exact ⟨rfl, h.parked, (List.append_nil _).symm⟩
      | connecting ip => exact ⟨rfl, h.parked, (List.append_nil _).symm⟩
      | reconnecting ip => exact ⟨rfl, h.parked, (List.append_nil _).symm⟩
      | connected ip =>
        refine ⟨rfl, rfl, ?_⟩
        simp only [Account.step, isDecided, if_true, h.parked]
        rfl
      | connectError err =>
        have hnone : s.waitJoin = none := hok
        simp only [Account.step, isDecided, if_true, h.parked, parkedAfter, hnone]
        exact ⟨rfl, rfl, rfl⟩
      | disconnected err =>
        have hnone : s.waitJoin = none := hok
        simp only [Account.step, isDecided, if_true, h.parked, parkedAfter, hnone]
        exact ⟨rfl, rfl, rfl⟩
  | rpc now schedule reqId req =>
    cases req with
    | joinRoom room peer peerMeta publish subscribe mixer =>
      simp only [Account.step, h.waits, parkedAfter, answeredBy]
      cases hconnecting : s.connecting with
      | false => exact ⟨h.link, h.parked, rfl⟩
      | true =>
        have hnone : s.waitJoin = none := by
          rcases hok with hopen | hnone
          · rw [hconnecting] at hopen
            cases hopen
          · exact hnone
        refine ⟨h.link, ?_, (List.append_nil _).symm⟩
        simp only [if_true, h.parked, hnone]
        rfl
    | leaveRoom =>
      have hnone : s.waitJoin = none := hok
      refine ⟨h.link, ?_, rfl⟩
      simp only [Account.step, h.parked, parkedAfter, hnone]
    | remoteTrack track req =>
      have hlive : s.hasRemote track = true := hok
      refine ⟨h.link, h.parked, ?_⟩
      simp only [Account.step, answeredBy, hlive, if_true]
    | localTrack track req =>
      have hlive : s.hasLocal track = true := hok
      refine ⟨h.link, h.parked, ?_⟩
      simp only [Account.step, answeredBy, hlive, if_true]
    | subscribePeer peer => exact ⟨h.link, h.parked, rfl⟩
    | unsubscribePeer peer => exact ⟨h.link, h.parked, rfl⟩
    | audioMixer req => exact ⟨h.link, h.parked, rfl⟩
    | messageChannel label req => exact ⟨h.link, h.parked, rfl⟩

theorem Balanced.step {env : Env Selector} {cfg : EndpointCfg}
    {history : History Input InternalOutput} {s s' : EndpointInternal Selector} {input : Input}
    (h : Balanced history s) (hok : KeepsRequests history s input)
    (hs' : (machine env cfg).step s input = .ok s') :
    Balanced (history ++ [(input, (machine env cfg).pushed s s')]) s' := by
  have haccounts : Accounts s s' input := step_accounts hs'
  obtain ⟨hlink, hparked, howed⟩ := h.step_account hok
  refine ⟨?_, ?_, fun r => ?_⟩
  · rw [account_concat, hlink, haccounts.state]
  · rw [account_concat, hparked, haccounts.waitJoin]
  · have hqueue : s'.queue = s.queue ++ (machine env cfg).pushed s s' :=
      (machine env cfg).queue_eq_append_pushed hs'
    have hanswers := haccounts.unpopped r
    simp only [EndpointInternal.unpopped, hqueue, answersOf_append, List.count_append] at hanswers
    have hbefore := h.owed r
    rw [account_concat, howed, emitted_concat, answersOf_append, List.count_append,
      List.count_append]
    omega

theorem balanced_init (cfg : EndpointCfg) :
    Balanced [] (EndpointInternal.new cfg : EndpointInternal Selector) :=
  ⟨rfl, rfl, fun _ => rfl⟩

/-- Nothing is left to pop, from the endpoint or from its tracks. -/
structure Drained (s : EndpointInternal Selector) : Prop where
  queue : s.queue = []
  tasks : s.Quiescent

theorem Drained.inTracks {s : EndpointInternal Selector} (h : Drained s) (r : EndpointReqId) :
    s.inTracks r = 0 := by
  have hlocal : s.localTracks.total (EndpointLocalTrack.answersTo r) = 0 := by
    refine TaskGroup.total_eq_zero fun index t ht => ?_
    have hqueue : t.queue = [] := (h.tasks.localTracks index t ht).1
    rw [EndpointLocalTrack.answersTo, hqueue]
    rfl
  have hremote : s.remoteTracks.total (EndpointRemoteTrack.answersTo r) = 0 := by
    refine TaskGroup.total_eq_zero fun index t ht => ?_
    have hqueue : t.queue = [] := (h.tasks.remoteTracks index t ht).1
    rw [EndpointRemoteTrack.answersTo, hqueue]
    rfl
  rw [EndpointInternal.inTracks, hlocal, hremote]

/-- The claim about a run: what was popped and what waits in the queues answers every
    request exactly once, so that a drained endpoint has answered every request that is
    due exactly once. -/
structure RequestsAnswered (env : Env Selector) (cfg : EndpointCfg) (acts : List (Action Input)) :
    Prop where
  held : ∀ c, (machine env cfg).run acts = .ok c → ∀ r,
    (answersOf c.popped).count r + c.state.unpopped r = (account c.history).owed.count r
  drained : ∀ c, (machine env cfg).run acts = .ok c → Drained c.state → ∀ r,
    (answersOf c.popped).count r = (account c.history).owed.count r

/-- **Every request is answered exactly once**, if requests for tracks find their tracks
    and a join that waits for the transport is left alone until it connects. -/
theorem requests_answered (env : Env Selector) (cfg : EndpointCfg) {acts : List (Action Input)}
    (hadm : (machine env cfg).Admits KeepsRequests acts) : RequestsAnswered env cfg acts := by
  have hheld : ∀ c, (machine env cfg).run acts = .ok c → ∀ r,
      (answersOf c.popped).count r + c.state.unpopped r = (account c.history).owed.count r := by
    intro c hrun r
    have hbalanced : Balanced c.history c.state :=
      run_invariant KeepsRequests Balanced (balanced_init cfg)
        (fun _ _ _ _ hP hok hs' => hP.step hok hs')
        (fun _ _ hP => ⟨hP.link, hP.parked, hP.owed⟩) hadm hrun
    have hall : c.popped ++ c.state.queue = emitted c.history :=
      (machine env cfg).popped_append_queue hrun
    have howed := hbalanced.owed r
    rw [← hall, answersOf_append, List.count_append] at howed
    rw [EndpointInternal.unpopped]
    omega
  refine ⟨hheld, fun c hrun hdrained r => ?_⟩
  have hsum := hheld c hrun r
  rw [EndpointInternal.unpopped, hdrained.queue, hdrained.inTracks r] at hsum
  exact hsum

/-- An endpoint without tracks whose allocator is idle has nothing to pop but its queue. -/
theorem drained_of_empty {s : EndpointInternal Selector} (hqueue : s.queue = [])
    (hallocator : s.bitrateAllocator.pending = 0) (hlocal : s.localTracks.all = [])
    (hremote : s.remoteTracks.all = []) : Drained s := by
  refine ⟨hqueue, hallocator, fun index t ht => ?_, fun index t ht => ?_⟩
  · have hmem := TaskGroup.mem_all_iff.mpr ⟨index, ht⟩
    rw [hlocal] at hmem
    cases hmem
  · have hmem := TaskGroup.mem_all_iff.mpr ⟨index, ht⟩
    rw [hremote] at hmem
    cases hmem

/-- A client that asks to join before it is connected, attaches a track to a source, asks
    for a priority that is refused, and is shut down. -/
def joinAttachLeave : List (Action Input) :=
  [Action.input (joinRequest "room")] ++ connect ++
    [Action.input (.transport 0 [] 0 (.localTrack 5 (.started .video))),
      .input (.rpc 0 [] 2 (.localTrack 5 (.attach ⟨"other", "video"⟩ ⟨1, 2, 2, none, none⟩))),
      .input (.transport 0 [] 0 (.remoteTrack 1 (.started "mic" 1 .defaultAudio))),
      .input (.rpc 0 [] 3 (.remoteTrack 1 (.config ⟨0, .dynamicConsumers⟩))),
      .input (.rpc 0 [] 4 (.subscribePeer "other")),
      .input (.shutdown 0 [])] ++ List.replicate 20 .pop

theorem requests_answered_joinAttachLeave :
    (∃ c, (machine Env.passAll rootCfg).run joinAttachLeave = .ok c ∧ Drained c.state ∧
      answersOf c.popped = [1, 4, 2, 3]) ∧
      RequestsAnswered Env.passAll rootCfg joinAttachLeave :=
  ⟨⟨_, rfl, drained_of_empty rfl rfl rfl rfl, rfl⟩, requests_answered Env.passAll rootCfg
    (show (machine Env.passAll rootCfg).Admits KeepsRequests joinAttachLeave from
      AdmitsFrom.admits (by decide))⟩

/-- A request for a remote track that is not there. -/
def askUnknownTrack : List (Action Input) :=
  connect ++ [Action.input (.rpc 0 [] 7 (.remoteTrack 1 (.config ⟨1, .dynamicConsumers⟩)))] ++
    List.replicate 4 .pop

/-- A join is asked for twice before the transport connects. -/
def joinTwice : List (Action Input) :=
  [.input (.rpc 0 [] 7 (.joinRoom "room1" "peer" ⟨none, none⟩ ⟨true, true⟩ ⟨true, true⟩ none)),
    .input (joinRequest "room2")] ++ connect ++ List.replicate 8 .pop

/-- A join is asked for and given up before the transport connects. -/
def joinAndLeave : List (Action Input) :=
  [.input (.rpc 0 [] 7 (.joinRoom "room1" "peer" ⟨none, none⟩ ⟨true, true⟩ ⟨true, true⟩ none)),
    .input (.rpc 0 [] 8 .leaveRoom)] ++ connect ++ List.replicate 8 .pop

/-- The transport fails before a join could be carried out. -/
def joinAndFail : List (Action Input) :=
  [.input (.transport 0 [] 0 (.state (.connecting "127.0.0.1"))),
    .input (.rpc 0 [] 7 (.joinRoom "room1" "peer" ⟨none, none⟩ ⟨true, true⟩ ⟨true, true⟩ none)),
    .input (.transport 0 [] 0 (.state (.connectError .timeout)))] ++ List.replicate 8 .pop

/-- A drained run in which the request 7 is due an answer and got none. -/
def Loses (acts : List (Action Input)) : Prop :=
  ∃ c, (machine Env.passAll rootCfg).run acts = .ok c ∧ Drained c.state ∧
    (account c.history).owed.count 7 = 1 ∧ (answersOf c.popped).count 7 = 0

theorem Loses.not_answered {acts : List (Action Input)} (h : Loses acts) :
    ¬ RequestsAnswered Env.passAll rootCfg acts := by
  obtain ⟨c, hrun, hdrained, howed, hnone⟩ := h
  intro hanswered
  have hsum := hanswered.drained c hrun hdrained 7
  omega

/-- The four ways to lose an answer. -/
theorem requests_without_answer :
    (Loses askUnknownTrack ∧ ¬ RequestsAnswered Env.passAll rootCfg askUnknownTrack) ∧
    (Loses joinTwice ∧ ¬ RequestsAnswered Env.passAll rootCfg joinTwice) ∧
    (Loses joinAndLeave ∧ ¬ RequestsAnswered Env.passAll rootCfg joinAndLeave) ∧
    (Loses joinAndFail ∧ ¬ RequestsAnswered Env.passAll rootCfg joinAndFail) := by
  have hask : Loses askUnknownTrack := ⟨_, rfl, drained_of_empty rfl rfl rfl rfl, rfl, rfl⟩
  have htwice : Loses joinTwice := ⟨_, rfl, drained_of_empty rfl rfl rfl rfl, rfl, rfl⟩
  have hleave : Loses joinAndLeave := ⟨_, rfl, drained_of_empty rfl rfl rfl rfl, rfl, rfl⟩
  have hfail : Loses joinAndFail := ⟨_, rfl, drained_of_empty rfl rfl rfl rfl, rfl, rfl⟩
  exact ⟨⟨hask, hask.not_answered⟩, ⟨htwice, htwice.not_answered⟩,
    ⟨hleave, hleave.not_answered⟩, ⟨hfail, hfail.not_answered⟩⟩

end EndpointInternal

end MediaServer.Endpoint
