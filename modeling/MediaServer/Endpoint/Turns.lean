import MediaServer.Endpoint.Internal

/-!
# The turns of the task switcher

What one turn of the endpoint's loop over its tasks can do, and that the loops of
`leave_room` and `on_shutdown` come to an end with every task idle.
-/

namespace MediaServer.Endpoint

open Collections Runtime

variable {Selector : Type}

/-- The controls for the cluster among the outputs of an endpoint. -/
def controlsOf (outs : List InternalOutput) :
    List (ClusterRoomHash × ClusterEndpointControl) :=
  outs.filterMap fun
    | .cluster room control => some (room, control)
    | _ => none

theorem controlsOf_append (first second : List InternalOutput) :
    controlsOf (first ++ second) = controlsOf first ++ controlsOf second :=
  List.filterMap_append

namespace EndpointInternal

/-- The endpoint queued `outs` and is the same otherwise, up to the transport state,
    a waiting join and the allocator. -/
structure Frame (s s' : EndpointInternal Selector) (outs : List InternalOutput) : Prop where
  cfg : s'.cfg = s.cfg
  joined : s'.joined = s.joined
  localTracksId : s'.localTracksId = s.localTracksId
  remoteTracksId : s'.remoteTracksId = s.remoteTracksId
  localTracks : s'.localTracks = s.localTracks
  remoteTracks : s'.remoteTracks = s.remoteTracks
  shutdown : s'.shutdown = s.shutdown
  queue : s'.queue = s.queue ++ outs

theorem Frame.refl (s : EndpointInternal Selector) : Frame s s [] :=
  ⟨rfl, rfl, rfl, rfl, rfl, rfl, rfl, (List.append_nil _).symm⟩

theorem frame_push (s : EndpointInternal Selector) (outs : List InternalOutput) :
    Frame s (s.push outs) outs :=
  ⟨rfl, rfl, rfl, rfl, rfl, rfl, rfl, rfl⟩

theorem Frame.push {s s' : EndpointInternal Selector} {outs : List InternalOutput}
    (h : Frame s s' outs) (more : List InternalOutput) :
    Frame s (s'.push more) (outs ++ more) :=
  ⟨h.cfg, h.joined, h.localTracksId, h.remoteTracksId, h.localTracks, h.remoteTracks,
    h.shutdown, by rw [EndpointInternal.push, h.queue, List.append_assoc]⟩

/-! ### One turn -/

/-- The control that an output of a remote track becomes. -/
def remoteSaid (id : RemoteTrackId) : RemoteTrack.Output →
    List (ClusterRoomHash × ClusterEndpointControl)
  | .cluster room control => [(room, .remoteTrack id control)]
  | _ => []

/-- The control that an output of a local track becomes. -/
def localSaid (id : LocalTrackId) : LocalTrack.Output →
    List (ClusterRoomHash × ClusterEndpointControl)
  | .cluster room control => [(room, .localTrack id control)]
  | _ => []

/-- What an output of a remote track becomes in the endpoint's queue. -/
def passedRemote (id : RemoteTrackId) : RemoteTrack.Output → List InternalOutput
  | .event event => [.event (.remoteMediaTrack id event)]
  | .cluster room control => [.cluster room (.remoteTrack id control)]
  | .rpcRes reqId res => [.rpcRes reqId (.remoteTrack id res)]
  | .peerEvent ts event => [.peerEvent ts event]
  | .recordEvent ts event => [.recordEvent ts event]
  | .started .. | .update .. | .stopped _ => []

/-- What an output of a local track becomes in the endpoint's queue. -/
def passedLocal (id : LocalTrackId) : LocalTrack.Output → List InternalOutput
  | .event event => [.event (.localMediaTrack id event)]
  | .cluster room control => [.cluster room (.localTrack id control)]
  | .rpcRes reqId res => [.rpcRes reqId (.localTrack id res)]
  | .peerEvent ts event => [.peerEvent ts event]
  | .bind .. | .updated .. | .unbind _ | .onResourceEmpty => []

theorem controlsOf_passedRemote (id : RemoteTrackId) (out : RemoteTrack.Output) :
    controlsOf (passedRemote id out) = remoteSaid id out := by
  cases out <;> rfl

theorem controlsOf_passedLocal (id : LocalTrackId) (out : LocalTrack.Output) :
    controlsOf (passedLocal id out) = localSaid id out := by
  cases out <;> rfl

end EndpointInternal

/-- What the allocator is told by an output of a remote track. -/
def BitrateAllocator.hearRemote (a : BitrateAllocator) (id : RemoteTrackId) :
    RemoteTrack.Output → BitrateAllocator
  | .started kind priority | .update kind priority =>
      if kind.isVideo then a.setIngressVideoTrack id priority else a
  | .stopped kind => if kind.isVideo then a.delIngressVideoTrack id else a
  | _ => a

/-- What the allocator is told by an output of a local track. -/
def BitrateAllocator.hearLocal (a : BitrateAllocator) (id : LocalTrackId) :
    LocalTrack.Output → BitrateAllocator
  | .bind kind priority | .updated kind priority =>
      if kind.isVideo then a.setEgressVideoTrack id priority else a
  | .unbind kind => if kind.isVideo then a.delEgressVideoTrack id else a
  | _ => a

theorem BitrateAllocator.pending_hearRemote (a : BitrateAllocator) (id : RemoteTrackId)
    (out : RemoteTrack.Output) : (a.hearRemote id out).pending = a.pending := by
  unfold hearRemote
  split <;> (try split) <;> rfl

theorem BitrateAllocator.pending_hearLocal (a : BitrateAllocator) (id : LocalTrackId)
    (out : LocalTrack.Output) : (a.hearLocal id out).pending = a.pending := by
  unfold hearLocal
  split <;> (try split) <;> rfl

namespace EndpointInternal

/-- An output of a remote track is passed on, and the allocator may hear of it. -/
theorem onRemoteOutput_eq (s : EndpointInternal Selector) (index : Nat) (id : RemoteTrackId)
    {out : RemoteTrack.Output} (hplain : ∀ kind, out ≠ .stopped kind) :
    s.onRemoteOutput index id out =
      .ok { s with
        bitrateAllocator := s.bitrateAllocator.hearRemote id out
        queue := s.queue ++ passedRemote id out } := by
  cases out with
  | stopped kind => exact absurd rfl (hplain kind)
  | started kind priority =>
    simp only [onRemoteOutput, BitrateAllocator.hearRemote, passedRemote, List.append_nil]
    split <;> rfl
  | update kind priority =>
    simp only [onRemoteOutput, BitrateAllocator.hearRemote, passedRemote, List.append_nil]
    split <;> rfl
  | _ => rfl

/-- An output of a local track is passed on, and the allocator may hear of it. -/
theorem onLocalOutput_eq (s : EndpointInternal Selector) (index : Nat) (id : LocalTrackId)
    {out : LocalTrack.Output} (hplain : out ≠ .onResourceEmpty) :
    s.onLocalOutput index id out =
      .ok { s with
        bitrateAllocator := s.bitrateAllocator.hearLocal id out
        queue := s.queue ++ passedLocal id out } := by
  cases out with
  | onResourceEmpty => exact absurd rfl hplain
  | bind kind priority =>
    simp only [onLocalOutput, BitrateAllocator.hearLocal, passedLocal, List.append_nil]
    split <;> rfl
  | updated kind priority =>
    simp only [onLocalOutput, BitrateAllocator.hearLocal, passedLocal, List.append_nil]
    split <;> rfl
  | unbind kind =>
    simp only [onLocalOutput, BitrateAllocator.hearLocal, passedLocal, List.append_nil]
    split <;> rfl
  | _ => rfl

/-- `Stopped` takes the track from the allocator and from its group. -/
theorem onRemoteOutput_stopped {s s' : EndpointInternal Selector} {index : Nat}
    {id : RemoteTrackId} {kind : MediaKind}
    (h : s.onRemoteOutput index id (.stopped kind) = .ok s') :
    ∃ group, s.remoteTracks.removeTask index "remote track queue should empty on drop"
        = .ok group ∧
      s' = { s with
        bitrateAllocator := s.bitrateAllocator.hearRemote id (.stopped kind)
        remoteTracks := group } := by
  cases hvideo : kind.isVideo with
  | true =>
    simp only [onRemoteOutput, hvideo, if_true] at h
    obtain ⟨group, hremove, heq⟩ := Except.bind_eq_ok.mp h
    cases heq
    refine ⟨group, hremove, ?_⟩
    simp only [BitrateAllocator.hearRemote, hvideo, if_true]
  | false =>
    simp only [onRemoteOutput, hvideo, Bool.false_eq_true, if_false] at h
    obtain ⟨group, hremove, heq⟩ := Except.bind_eq_ok.mp h
    cases heq
    refine ⟨group, hremove, ?_⟩
    simp only [BitrateAllocator.hearRemote, hvideo, Bool.false_eq_true, if_false]

/-- A task that could be removed after an output had nothing queued behind it. -/
theorem rest_eq_nil_of_removeTask {T Out : Type} [TaskChild T Out] {g g' : TaskGroup T}
    {index : Nat} {t : T} {out : Out} {rest : List Out} {msg : String}
    (hqueue : TaskChild.queue t = out :: rest)
    (h : (g.set index (TaskChild.dropFront t)).removeTask index msg = .ok g') : rest = [] := by
  simp only [TaskGroup.removeTask, TaskGroup.get_set_self, TaskChild.queue_dropFront] at h
  rw [hqueue, List.tail_cons] at h
  split at h
  · rename_i hnil
    exact List.isEmpty_iff.mp hnil
  · cases h

/-- A removal after a pop frees the index and nothing else. -/
theorem get_of_removeTask_set {T Out : Type} [TaskChild T Out] {g g' : TaskGroup T}
    {index : Nat} {t : T} {msg : String} (h : (g.set index t).removeTask index msg = .ok g')
    (j : Nat) : g'.get j = if j = index then none else g.get j := by
  rw [TaskGroup.removeTask_eq_ok h j]
  by_cases hj : j = index
  · rw [if_pos hj, if_pos hj]
  · rw [if_neg hj, if_neg hj]
    exact TaskGroup.get_set_ne _ _ hj

/-- **A turn for a remote track** finds nothing, passes its next output on, or removes it. -/
theorem popRemoteTracks_eq_ok {s s' : EndpointInternal Selector} {index : Nat}
    (h : s.popRemoteTracks index = .ok s') :
    (s.remoteTracks.popOutput index = none ∧ s' = s) ∨
    ∃ t id, s.remoteTracks.get index = some t ∧ s.remoteTracksId.get2 index = some id ∧
      ((∃ out rest, t.queue = out :: rest ∧ (∀ kind, out ≠ .stopped kind) ∧
          s' = { s with
            remoteTracks := s.remoteTracks.set index { t with queue := rest }
            bitrateAllocator := s.bitrateAllocator.hearRemote id out
            queue := s.queue ++ passedRemote id out }) ∨
        ∃ kind group, (t.queue = [.stopped kind] ∨ t.isEmpty = true ∧ kind = t.trackMeta.kind) ∧
          (∀ j, group.get j = if j = index then none else s.remoteTracks.get j) ∧
          s' = { s with
            remoteTracks := group
            bitrateAllocator := s.bitrateAllocator.hearRemote id (.stopped kind) }) := by
  unfold popRemoteTracks at h
  cases hpop : s.remoteTracks.popOutput index with
  | none =>
    rw [hpop] at h
    cases h
    exact Or.inl ⟨rfl, rfl⟩
  | some popped =>
    obtain ⟨out, group⟩ := popped
    simp only [hpop] at h
    cases hid : s.remoteTracksId.get2 index with
    | none => simp [hid] at h
    | some id =>
      simp only [hid] at h
      obtain ⟨t, hget, hout⟩ := TaskGroup.popOutput_eq_some hpop
      refine Or.inr ⟨t, id, hget, rfl, ?_⟩
      rcases hout with ⟨rest, hqueue, rfl⟩ | ⟨hempty, rfl, rfl⟩
      · by_cases hplain : ∀ kind, out ≠ .stopped kind
        · left
          rw [onRemoteOutput_eq _ _ _ hplain] at h
          cases h
          refine ⟨out, rest, hqueue, hplain, ?_⟩
          have htail : (TaskChild.dropFront t : EndpointRemoteTrack) = { t with queue := rest } := by
            change { t with queue := t.queue.tail } = _
            rw [show t.queue = out :: rest from hqueue, List.tail_cons]
          rw [htail]
        · right
          simp only [not_forall, not_not] at hplain
          obtain ⟨kind, rfl⟩ := hplain
          obtain ⟨group, hremove, rfl⟩ := onRemoteOutput_stopped h
          have hrest := rest_eq_nil_of_removeTask hqueue hremove
          subst hrest
          exact ⟨kind, group, Or.inl hqueue, get_of_removeTask_set hremove, rfl⟩
      · right
        obtain ⟨group, hremove, rfl⟩ := onRemoteOutput_stopped h
        exact ⟨t.trackMeta.kind, group, Or.inr ⟨hempty, rfl⟩,
          TaskGroup.removeTask_eq_ok hremove, rfl⟩

/-- **A turn for a local track** finds nothing, passes its next output on, or removes it. -/
theorem popLocalTracks_eq_ok {s s' : EndpointInternal Selector} {index : Nat}
    (h : s.popLocalTracks index = .ok s') :
    (s.localTracks.popOutput index = none ∧ s' = s) ∨
    ∃ t id, s.localTracks.get index = some t ∧ s.localTracksId.get2 index = some id ∧
      ((∃ out rest, t.queue = out :: rest ∧ out ≠ .onResourceEmpty ∧
          s' = { s with
            localTracks := s.localTracks.set index { t with queue := rest }
            bitrateAllocator := s.bitrateAllocator.hearLocal id out
            queue := s.queue ++ passedLocal id out }) ∨
        ∃ group, (t.queue = [.onResourceEmpty] ∨ t.isEmpty = true) ∧
          (∀ j, group.get j = if j = index then none else s.localTracks.get j) ∧
          s' = { s with localTracks := group, localTracksId := s.localTracksId.remove1 id }) := by
  unfold popLocalTracks at h
  cases hpop : s.localTracks.popOutput index with
  | none =>
    rw [hpop] at h
    cases h
    exact Or.inl ⟨rfl, rfl⟩
  | some popped =>
    obtain ⟨out, group⟩ := popped
    simp only [hpop] at h
    cases hid : s.localTracksId.get2 index with
    | none => simp [hid] at h
    | some id =>
      simp only [hid] at h
      obtain ⟨t, hget, hout⟩ := TaskGroup.popOutput_eq_some hpop
      refine Or.inr ⟨t, id, hget, rfl, ?_⟩
      rcases hout with ⟨rest, hqueue, rfl⟩ | ⟨hempty, rfl, rfl⟩
      · by_cases hplain : out = .onResourceEmpty
        · right
          subst hplain
          obtain ⟨group, hremove, heq⟩ := Except.bind_eq_ok.mp h
          cases heq
          have hrest := rest_eq_nil_of_removeTask hqueue hremove
          subst hrest
          exact ⟨group, Or.inl hqueue, get_of_removeTask_set hremove, rfl⟩
        · left
          rw [onLocalOutput_eq _ _ _ hplain] at h
          cases h
          refine ⟨out, rest, hqueue, hplain, ?_⟩
          have htail : (TaskChild.dropFront t : EndpointLocalTrack Selector) =
              { t with queue := rest } := by
            change { t with queue := t.queue.tail } = _
            rw [show t.queue = out :: rest from hqueue, List.tail_cons]
          rw [htail]
      · right
        obtain ⟨group, hremove, heq⟩ := Except.bind_eq_ok.mp h
        cases heq
        exact ⟨group, Or.inr hempty, TaskGroup.removeTask_eq_ok hremove, rfl⟩

/-- What a turn for a remote track does to all but the allocator. -/
theorem popRemoteTracks_cases {s s' : EndpointInternal Selector} {index : Nat}
    (h : s.popRemoteTracks index = .ok s') :
    (s.remoteTracks.popOutput index = none ∧ s' = s) ∨
    ∃ t id, s.remoteTracks.get index = some t ∧ s.remoteTracksId.get2 index = some id ∧
      s'.bitrateAllocator.pending = s.bitrateAllocator.pending ∧
      ((∃ out rest outs, t.queue = out :: rest ∧ (∀ kind, out ≠ .stopped kind) ∧
          Frame { s with remoteTracks := s.remoteTracks.set index { t with queue := rest } } s'
            outs ∧ controlsOf outs = remoteSaid id out) ∨
        (((∃ kind, t.queue = [.stopped kind]) ∨ t.isEmpty = true) ∧
          (∀ j, s'.remoteTracks.get j = if j = index then none else s.remoteTracks.get j) ∧
          Frame { s with remoteTracks := s'.remoteTracks } s' [])) := by
  rcases popRemoteTracks_eq_ok h with hnone | ⟨t, id, hget, hid, hcase⟩
  · exact Or.inl hnone
  · refine Or.inr ⟨t, id, hget, hid, ?_⟩
    rcases hcase with ⟨out, rest, hqueue, hplain, rfl⟩ | ⟨kind, group, hend, hgone, rfl⟩
    · exact ⟨BitrateAllocator.pending_hearRemote .., Or.inl ⟨out, rest, passedRemote id out,
        hqueue, hplain, ⟨rfl, rfl, rfl, rfl, rfl, rfl, rfl, rfl⟩, controlsOf_passedRemote id out⟩⟩
    · refine ⟨BitrateAllocator.pending_hearRemote .., Or.inr ⟨?_, hgone, ?_⟩⟩
      · rcases hend with hqueue | ⟨hempty, -⟩
        · exact Or.inl ⟨kind, hqueue⟩
        · exact Or.inr hempty
      · exact ⟨rfl, rfl, rfl, rfl, rfl, rfl, rfl, (List.append_nil _).symm⟩

/-- What a turn for a local track does to all but the allocator. -/
theorem popLocalTracks_cases {s s' : EndpointInternal Selector} {index : Nat}
    (h : s.popLocalTracks index = .ok s') :
    (s.localTracks.popOutput index = none ∧ s' = s) ∨
    ∃ t id, s.localTracks.get index = some t ∧ s.localTracksId.get2 index = some id ∧
      s'.bitrateAllocator.pending = s.bitrateAllocator.pending ∧
      ((∃ out rest outs, t.queue = out :: rest ∧ out ≠ .onResourceEmpty ∧
          Frame { s with localTracks := s.localTracks.set index { t with queue := rest } } s'
            outs ∧ controlsOf outs = localSaid id out) ∨
        ((t.queue = [.onResourceEmpty] ∨ t.isEmpty = true) ∧
          (∀ j, s'.localTracks.get j = if j = index then none else s.localTracks.get j) ∧
          Frame { s with localTracks := s'.localTracks,
                         localTracksId := s.localTracksId.remove1 id } s' [])) := by
  rcases popLocalTracks_eq_ok h with hnone | ⟨t, id, hget, hid, hcase⟩
  · exact Or.inl hnone
  · refine Or.inr ⟨t, id, hget, hid, ?_⟩
    rcases hcase with ⟨out, rest, hqueue, hplain, rfl⟩ | ⟨group, hend, hgone, rfl⟩
    · exact ⟨BitrateAllocator.pending_hearLocal .., Or.inl ⟨out, rest, passedLocal id out,
        hqueue, hplain, ⟨rfl, rfl, rfl, rfl, rfl, rfl, rfl, rfl⟩, controlsOf_passedLocal id out⟩⟩
    · refine ⟨rfl, Or.inr ⟨hend, hgone, ?_⟩⟩
      exact ⟨rfl, rfl, rfl, rfl, rfl, rfl, rfl, (List.append_nil _).symm⟩

theorem toRemote_eq_ok {s s' : EndpointInternal Selector} {now : Instant} {index : Nat}
    {input : RemoteTrack.Input} (h : s.toRemote now index input = .ok s') :
    ∃ group, s.remoteTracks.onEvent index (EndpointRemoteTrack.onEvent now input) = .ok group ∧
      s' = { s with remoteTracks := group } := by
  obtain ⟨group, hgroup, heq⟩ := Except.bind_eq_ok.mp h
  cases heq
  exact ⟨group, hgroup, rfl⟩

section

variable {env : Env Selector}

theorem toLocal_eq_ok {s s' : EndpointInternal Selector} {now : Instant} {index : Nat}
    {input : LocalTrack.Input} (h : s.toLocal env now index input = .ok s') :
    ∃ group, s.localTracks.onEvent index
        (EndpointLocalTrack.onEvent env.selector env.timestampMs now input) = .ok group ∧
      s' = { s with localTracks := group } := by
  obtain ⟨group, hgroup, heq⟩ := Except.bind_eq_ok.mp h
  cases heq
  exact ⟨group, hgroup, rfl⟩

/-- **A turn for the allocator** finds nothing, or takes one output off its queue and
    hands it to a track or to the transport. -/
theorem popBitrateAllocator_eq_ok {s s' : EndpointInternal Selector} {now : Instant}
    (h : s.popBitrateAllocator env now = .ok s') :
    (s.bitrateAllocator.popOutput = none ∧ s' = s) ∨
    ∃ out allocator, s.bitrateAllocator.popOutput = some (out, allocator) ∧
      (s' = { s with bitrateAllocator := allocator } ∨
        (∃ event, s' = { s with bitrateAllocator := allocator }.push [.event event]) ∨
        (∃ index action, { s with bitrateAllocator := allocator }.toRemote now index
          (.bitrateAllocation action) = .ok s') ∨
        ∃ index action, { s with bitrateAllocator := allocator }.toLocal env now index
          (.bitrateAllocation action) = .ok s') := by
  unfold popBitrateAllocator at h
  cases hpop : s.bitrateAllocator.popOutput with
  | none =>
    rw [hpop] at h
    cases h
    exact Or.inl ⟨rfl, rfl⟩
  | some popped =>
    obtain ⟨out, allocator⟩ := popped
    refine Or.inr ⟨out, allocator, rfl, ?_⟩
    rw [hpop] at h
    cases out with
    | bweConfig current desired =>
      cases h
      exact Or.inr (Or.inl ⟨_, rfl⟩)
    | remoteTrack track action =>
      simp only at h
      split at h
      · cases h
        exact Or.inl rfl
      · rename_i index _
        exact Or.inr (Or.inr (Or.inl ⟨index, action, h⟩))
    | localTrack track action =>
      simp only at h
      split at h
      · cases h
        exact Or.inl rfl
      · rename_i index _
        exact Or.inr (Or.inr (Or.inr ⟨index, action, h⟩))

/-- What a turn for the allocator does to all but the tracks it divides among. -/
theorem popBitrateAllocator_cases {s s' : EndpointInternal Selector} {now : Instant}
    (h : s.popBitrateAllocator env now = .ok s') :
    (s.bitrateAllocator.pending = 0 ∧ s' = s) ∨
    ∃ allocator, s.bitrateAllocator.pending = allocator.pending + 1 ∧
      s'.bitrateAllocator = allocator ∧
      ((∃ outs, Frame { s with bitrateAllocator := allocator } s' outs ∧ controlsOf outs = []) ∨
        (∃ index action, { s with bitrateAllocator := allocator }.toRemote now index
          (.bitrateAllocation action) = .ok s') ∨
        ∃ index action, { s with bitrateAllocator := allocator }.toLocal env now index
          (.bitrateAllocation action) = .ok s') := by
  rcases popBitrateAllocator_eq_ok h with ⟨hnone, rfl⟩ | ⟨out, allocator, hpop, hcase⟩
  · exact Or.inl ⟨BitrateAllocator.popOutput_eq_none_iff.mp hnone, rfl⟩
  · refine Or.inr ⟨allocator, BitrateAllocator.pending_of_popOutput hpop, ?_⟩
    rcases hcase with rfl | ⟨event, rfl⟩ | ⟨index, action, hto⟩ | ⟨index, action, hto⟩
    · exact ⟨rfl, Or.inl ⟨[], Frame.refl _, rfl⟩⟩
    · exact ⟨rfl, Or.inl ⟨_, frame_push _ _, rfl⟩⟩
    · obtain ⟨group, -, rfl⟩ := toRemote_eq_ok hto
      exact ⟨rfl, Or.inr (Or.inl ⟨index, action, hto⟩)⟩
    · obtain ⟨group, -, rfl⟩ := toLocal_eq_ok hto
      exact ⟨rfl, Or.inr (Or.inr ⟨index, action, hto⟩)⟩

/-- What one turn keeps, a schedule keeps. -/
theorem popTasks_invariant {now : Instant} (P : EndpointInternal Selector → Prop)
    (hturn : ∀ s pick s', P s → s.popTask env now pick = .ok s' → P s')
    {schedule : Schedule} {s s' : EndpointInternal Selector} (hP : P s)
    (h : popTasks env now schedule s = .ok s') : P s' := by
  induction schedule generalizing s with
  | nil =>
    cases h
    exact hP
  | cons pick rest ih =>
    obtain ⟨s₁, hs₁, hrest⟩ := Except.bind_eq_ok.mp h
    exact ih (hturn s pick s₁ hP hs₁) hrest

/-- What one turn keeps, the loops of `leave_room` and `on_shutdown` keep. -/
theorem popAll_invariant {now : Instant} (P : EndpointInternal Selector → Prop)
    (hturn : ∀ s pick s', P s → s.popTask env now pick = .ok s' → P s')
    {schedule : Schedule} {s s' : EndpointInternal Selector} (hP : P s)
    (h : popAll env now schedule s = .ok s') : P s' := by
  obtain ⟨s₁, hs₁, h⟩ := Except.bind_eq_ok.mp h
  obtain ⟨s₂, hs₂, h⟩ := Except.bind_eq_ok.mp h
  obtain ⟨s₃, hs₃, h⟩ := Except.bind_eq_ok.mp h
  have hP₁ := popTasks_invariant P hturn hP hs₁
  have hP₂ := popTasks_invariant P hturn hP₁ hs₂
  have hP₃ := popTasks_invariant P hturn hP₂ hs₃
  exact popTasks_invariant P hturn hP₃ h

/-- What one turn keeps, the loop of `pop_output` keeps. -/
theorem poll_invariant {now : Instant} (P : EndpointInternal Selector → Prop)
    (hturn : ∀ s pick s', P s → s.popTask env now pick = .ok s' → P s')
    {schedule : Schedule} {s s' : EndpointInternal Selector} (hP : P s)
    (h : poll env now schedule s = .ok s') : P s' := by
  induction schedule generalizing s with
  | nil =>
    cases h
    exact hP
  | cons pick rest ih =>
    unfold poll at h
    split at h
    · obtain ⟨s₁, hs₁, hrest⟩ := Except.bind_eq_ok.mp h
      exact ih (hturn s pick s₁ hP hs₁) hrest
    · cases h
      exact hP

/-! ### What turns leave alone -/

/-- Tracks may have gone, but the others are where they were. -/
structure SameTracks (s s' : EndpointInternal Selector) : Prop where
  remote : ∀ index t', s'.remoteTracks.get index = some t' →
    ∃ t, s.remoteTracks.get index = some t ∧ t'.room = t.room ∧ t'.shutdown = t.shutdown
  local_ : ∀ index t', s'.localTracks.get index = some t' →
    ∃ t, s.localTracks.get index = some t ∧ t'.room = t.room ∧ t'.shutdown = t.shutdown ∧
      (t'.bind.isSome = true → t.bind.isSome = true)

theorem SameTracks.refl (s : EndpointInternal Selector) : SameTracks s s :=
  ⟨fun _ t h => ⟨t, h, rfl, rfl⟩, fun _ t h => ⟨t, h, rfl, rfl, id⟩⟩

theorem SameTracks.trans {s s' s'' : EndpointInternal Selector} (h : SameTracks s s')
    (h' : SameTracks s' s'') : SameTracks s s'' := by
  refine ⟨fun index t'' ht'' => ?_, fun index t'' ht'' => ?_⟩
  · obtain ⟨t', ht', hroom', hshutdown'⟩ := h'.remote index t'' ht''
    obtain ⟨t, ht, hroom, hshutdown⟩ := h.remote index t' ht'
    exact ⟨t, ht, hroom'.trans hroom, hshutdown'.trans hshutdown⟩
  · obtain ⟨t', ht', hroom', hshutdown', hbind'⟩ := h'.local_ index t'' ht''
    obtain ⟨t, ht, hroom, hshutdown, hbind⟩ := h.local_ index t' ht'
    exact ⟨t, ht, hroom'.trans hroom, hshutdown'.trans hshutdown, hbind ∘ hbind'⟩

theorem SameTracks.frame {s s' : EndpointInternal Selector} {outs : List InternalOutput}
    (hframe : Frame s s' outs) : SameTracks s s' := by
  refine ⟨fun index t' ht' => ?_, fun index t' ht' => ?_⟩
  · rw [hframe.remoteTracks] at ht'
    exact ⟨t', ht', rfl, rfl⟩
  · rw [hframe.localTracks] at ht'
    exact ⟨t', ht', rfl, rfl, id⟩

theorem SameTracks.setRemote {s : EndpointInternal Selector} {index : Nat}
    {t u : EndpointRemoteTrack} (ht : s.remoteTracks.get index = some t)
    (hroom : u.room = t.room) (hshutdown : u.shutdown = t.shutdown) :
    SameTracks s { s with remoteTracks := s.remoteTracks.set index u } := by
  refine ⟨fun j v hu => ?_, fun j v hu => ⟨v, hu, rfl, rfl, fun h => h⟩⟩
  change (s.remoteTracks.set index u).get j = some v at hu
  by_cases hj : j = index
  · subst hj
    rw [TaskGroup.get_set_self] at hu
    cases hu
    exact ⟨t, ht, hroom, hshutdown⟩
  · rw [TaskGroup.get_set_ne _ _ hj] at hu
    exact ⟨v, hu, rfl, rfl⟩

theorem SameTracks.setLocal {s : EndpointInternal Selector} {index : Nat}
    {t u : EndpointLocalTrack Selector} (ht : s.localTracks.get index = some t)
    (hroom : u.room = t.room) (hshutdown : u.shutdown = t.shutdown)
    (hbound : u.bind.isSome = true → t.bind.isSome = true) :
    SameTracks s { s with localTracks := s.localTracks.set index u } := by
  refine ⟨fun j v hu => ⟨v, hu, rfl, rfl⟩, fun j v hu => ?_⟩
  change (s.localTracks.set index u).get j = some v at hu
  by_cases hj : j = index
  · subst hj
    rw [TaskGroup.get_set_self] at hu
    cases hu
    exact ⟨t, ht, hroom, hshutdown, hbound⟩
  · rw [TaskGroup.get_set_ne _ _ hj] at hu
    exact ⟨v, hu, rfl, rfl, fun h => h⟩

theorem popRemoteTracks_same {s s' : EndpointInternal Selector} {index : Nat}
    (h : s.popRemoteTracks index = .ok s') : SameTracks s s' := by
  rcases popRemoteTracks_cases h with ⟨-, rfl⟩ | ⟨t, id, ht, -, -, hcase⟩
  · exact SameTracks.refl _
  · rcases hcase with ⟨out, rest, outs, -, -, hframe, -⟩ | ⟨-, hgone, hframe⟩
    · have hset := SameTracks.setRemote (u := { t with queue := rest }) ht rfl rfl
      exact hset.trans (SameTracks.frame hframe)
    · refine ⟨fun j u hu => ?_, fun j u hu => ?_⟩
      · rw [hgone] at hu
        split at hu
        · cases hu
        · exact ⟨u, hu, rfl, rfl⟩
      · rw [hframe.localTracks] at hu
        exact ⟨u, hu, rfl, rfl, fun h => h⟩

theorem popLocalTracks_same {s s' : EndpointInternal Selector} {index : Nat}
    (h : s.popLocalTracks index = .ok s') : SameTracks s s' := by
  rcases popLocalTracks_cases h with ⟨-, rfl⟩ | ⟨t, id, ht, -, -, hcase⟩
  · exact SameTracks.refl _
  · rcases hcase with ⟨out, rest, outs, -, -, hframe, -⟩ | ⟨-, hgone, hframe⟩
    · have hset := SameTracks.setLocal (u := { t with queue := rest }) ht rfl rfl fun h => h
      exact hset.trans (SameTracks.frame hframe)
    · refine ⟨fun j u hu => ?_, fun j u hu => ?_⟩
      · rw [hframe.remoteTracks] at hu
        exact ⟨u, hu, rfl, rfl⟩
      · rw [hgone] at hu
        split at hu
        · cases hu
        · exact ⟨u, hu, rfl, rfl, fun h => h⟩

theorem popBitrateAllocator_same {s s' : EndpointInternal Selector} {now : Instant}
    (h : s.popBitrateAllocator env now = .ok s') : SameTracks s s' := by
  rcases popBitrateAllocator_cases h with ⟨-, rfl⟩ | ⟨allocator, -, -, hcase⟩
  · exact SameTracks.refl _
  · have hsame : SameTracks s { s with bitrateAllocator := allocator } :=
      ⟨fun _ t ht => ⟨t, ht, rfl, rfl⟩, fun _ t ht => ⟨t, ht, rfl, rfl, fun h => h⟩⟩
    refine hsame.trans ?_
    rcases hcase with ⟨outs, hframe, -⟩ | ⟨index, action, hto⟩ | ⟨index, action, hto⟩
    · exact SameTracks.frame hframe
    · obtain ⟨group, hgroup, rfl⟩ := toRemote_eq_ok hto
      rcases TaskGroup.onEvent_eq_ok hgroup with ⟨-, rfl⟩ | ⟨t, t', ht, ht', rfl⟩
      · exact SameTracks.refl _
      · cases EndpointRemoteTrack.onEvent_reacts ht' with
        | silent _ hsilent => exact SameTracks.setRemote ht hsilent.room hsilent.shutdown
    · obtain ⟨group, hgroup, rfl⟩ := toLocal_eq_ok hto
      rcases TaskGroup.onEvent_eq_ok hgroup with ⟨-, rfl⟩ | ⟨t, t', ht, ht', rfl⟩
      · exact SameTracks.refl _
      · cases ht'
        have hkeeps := EndpointLocalTrack.onBitrateAllocationAction_keeps env.selector
          env.timestampMs t now action
        exact SameTracks.setLocal ht hkeeps.room hkeeps.shutdown fun h => hkeeps.bound ▸ h

/-- **A turn moves no track** and tells none to stop. -/
theorem popTask_same {s s' : EndpointInternal Selector} {now : Instant} {pick : Pick}
    (h : s.popTask env now pick = .ok s') : SameTracks s s' := by
  cases pick with
  | bitrateAllocator => exact popBitrateAllocator_same h
  | localTracks index => exact popLocalTracks_same h
  | remoteTracks index => exact popRemoteTracks_same h

theorem popAll_same {s s' : EndpointInternal Selector} {now : Instant} {schedule : Schedule}
    (h : popAll env now schedule s = .ok s') : SameTracks s s' :=
  popAll_invariant (SameTracks s) (fun _ _ _ hsame hturn => hsame.trans (popTask_same hturn))
    (SameTracks.refl s) h

theorem poll_same {s s' : EndpointInternal Selector} {now : Instant} {schedule : Schedule}
    (h : poll env now schedule s = .ok s') : SameTracks s s' :=
  poll_invariant (SameTracks s) (fun _ _ _ hsame hturn => hsame.trans (popTask_same hturn))
    (SameTracks.refl s) h

/-! ### The loops empty every task -/

/-- No task has anything left to pop. -/
structure Quiescent (s : EndpointInternal Selector) : Prop where
  bitrateAllocator : s.bitrateAllocator.pending = 0
  localTracks : ∀ index, s.localTracks.Settled index
  remoteTracks : ∀ index, s.remoteTracks.Settled index

theorem popTasks_allocatorTurns {now : Instant} (n : Nat) {s s' : EndpointInternal Selector}
    (h : popTasks env now (List.replicate n .bitrateAllocator) s = .ok s') :
    s'.bitrateAllocator.pending ≤ s.bitrateAllocator.pending - n := by
  induction n generalizing s with
  | zero =>
    cases h
    exact Nat.le_refl _
  | succ n ih =>
    rw [List.replicate_succ] at h
    obtain ⟨s₁, hs₁, hrest⟩ := Except.bind_eq_ok.mp h
    have hle := ih hrest
    rcases popBitrateAllocator_cases hs₁ with ⟨hzero, rfl⟩ | ⟨allocator, hpending, rfl, -⟩
    · omega
    · omega

/-- A turn for a remote track works on that track's load and on nothing else. -/
theorem popRemoteTracks_load {s s' : EndpointInternal Selector} {index : Nat}
    (h : s.popRemoteTracks index = .ok s') :
    s'.bitrateAllocator.pending = s.bitrateAllocator.pending ∧
      s'.localTracks = s.localTracks ∧
      (∀ j, j ≠ index → s'.remoteTracks.get j = s.remoteTracks.get j) ∧
      s'.remoteTracks.load index ≤ s.remoteTracks.load index - 1 := by
  rcases popRemoteTracks_cases h with ⟨hnone, rfl⟩ | ⟨t, id, hget, -, hpending, hcase⟩
  · refine ⟨rfl, rfl, fun _ _ => rfl, ?_⟩
    have hload := TaskGroup.load_of_popOutput_eq_none hnone
    omega
  · refine ⟨hpending, ?_⟩
    rcases hcase with ⟨out, rest, outs, hqueue, -, hframe, -⟩ | ⟨-, hgone, hframe⟩
    · have hless := TaskGroup.load_set_dropFront hget hqueue
      have htail : (TaskChild.dropFront t : EndpointRemoteTrack) = { t with queue := rest } := by
        change { t with queue := t.queue.tail } = _
        rw [hqueue, List.tail_cons]
      rw [htail] at hless
      have hgroup := hframe.remoteTracks
      refine ⟨hframe.localTracks, ?_, ?_⟩
      · intro j hj
        rw [hgroup]
        exact TaskGroup.get_set_ne _ _ hj
      · rw [hgroup]
        change (s.remoteTracks.set index { t with queue := rest }).load index ≤ _
        omega
    · refine ⟨hframe.localTracks, ?_, ?_⟩
      · intro j hj
        rw [hgone j, if_neg hj]
      · have hfree : s'.remoteTracks.get index = none := by rw [hgone, if_pos rfl]
        rw [TaskGroup.load_of_get_eq_none hfree]
        exact Nat.zero_le _

theorem popLocalTracks_load {s s' : EndpointInternal Selector} {index : Nat}
    (h : s.popLocalTracks index = .ok s') :
    s'.bitrateAllocator.pending = s.bitrateAllocator.pending ∧
      (∀ j, j ≠ index → s'.localTracks.get j = s.localTracks.get j) ∧
      s'.localTracks.load index ≤ s.localTracks.load index - 1 := by
  rcases popLocalTracks_cases h with ⟨hnone, rfl⟩ | ⟨t, id, hget, -, hpending, hcase⟩
  · refine ⟨rfl, fun _ _ => rfl, ?_⟩
    have hload := TaskGroup.load_of_popOutput_eq_none hnone
    omega
  · refine ⟨hpending, ?_⟩
    rcases hcase with ⟨out, rest, outs, hqueue, -, hframe, -⟩ | ⟨-, hgone, -⟩
    · have hless := TaskGroup.load_set_dropFront hget hqueue
      have htail : (TaskChild.dropFront t : EndpointLocalTrack Selector) =
          { t with queue := rest } := by
        change { t with queue := t.queue.tail } = _
        rw [hqueue, List.tail_cons]
      rw [htail] at hless
      have hgroup := hframe.localTracks
      refine ⟨?_, ?_⟩
      · intro j hj
        rw [hgroup]
        exact TaskGroup.get_set_ne _ _ hj
      · rw [hgroup]
        change (s.localTracks.set index { t with queue := rest }).load index ≤ _
        omega
    · refine ⟨?_, ?_⟩
      · intro j hj
        rw [hgone j, if_neg hj]
      · have hfree : s'.localTracks.get index = none := by rw [hgone, if_pos rfl]
        rw [TaskGroup.load_of_get_eq_none hfree]
        exact Nat.zero_le _

theorem popTasks_append (now : Instant) (first second : Schedule)
    (s : EndpointInternal Selector) :
    popTasks env now (first ++ second) s =
      popTasks env now first s >>= popTasks env now second := by
  induction first generalizing s with
  | nil => rfl
  | cons pick rest ih =>
    simp only [List.cons_append, popTasks]
    cases s.popTask env now pick with
    | error panic => rfl
    | ok s' => exact ih s'

theorem popTasks_replicate_remote {now : Instant} {index : Nat} (n : Nat)
    {s s' : EndpointInternal Selector}
    (h : popTasks env now (List.replicate n (.remoteTracks index)) s = .ok s') :
    s'.bitrateAllocator.pending = s.bitrateAllocator.pending ∧
      s'.localTracks = s.localTracks ∧
      (∀ j, j ≠ index → s'.remoteTracks.get j = s.remoteTracks.get j) ∧
      s'.remoteTracks.load index ≤ s.remoteTracks.load index - n := by
  induction n generalizing s with
  | zero =>
    cases h
    exact ⟨rfl, rfl, fun _ _ => rfl, Nat.le_refl _⟩
  | succ n ih =>
    rw [List.replicate_succ] at h
    obtain ⟨s₁, hs₁, hrest⟩ := Except.bind_eq_ok.mp h
    obtain ⟨hpending, hlocal, hother, hload⟩ := popRemoteTracks_load hs₁
    obtain ⟨hpending', hlocal', hother', hload'⟩ := ih hrest
    refine ⟨hpending'.trans hpending, hlocal'.trans hlocal, ?_, by omega⟩
    intro j hj
    rw [hother' j hj, hother j hj]

theorem popTasks_replicate_local {now : Instant} {index : Nat} (n : Nat)
    {s s' : EndpointInternal Selector}
    (h : popTasks env now (List.replicate n (.localTracks index)) s = .ok s') :
    s'.bitrateAllocator.pending = s.bitrateAllocator.pending ∧
      (∀ j, j ≠ index → s'.localTracks.get j = s.localTracks.get j) ∧
      s'.localTracks.load index ≤ s.localTracks.load index - n := by
  induction n generalizing s with
  | zero =>
    cases h
    exact ⟨rfl, fun _ _ => rfl, Nat.le_refl _⟩
  | succ n ih =>
    rw [List.replicate_succ] at h
    obtain ⟨s₁, hs₁, hrest⟩ := Except.bind_eq_ok.mp h
    obtain ⟨hpending, hother, hload⟩ := popLocalTracks_load hs₁
    obtain ⟨hpending', hother', hload'⟩ := ih hrest
    refine ⟨hpending'.trans hpending, ?_, by omega⟩
    intro j hj
    rw [hother' j hj, hother j hj]

/-- Enough turns for each of a list of remote tracks settle all of them. -/
theorem popTasks_remoteTurns {now : Instant} (entries : List (Nat × EndpointRemoteTrack))
    {s s' : EndpointInternal Selector}
    (hbound : ∀ entry ∈ entries, s.remoteTracks.load entry.1 ≤ entry.2.queue.length + 1)
    (h : popTasks env now (entries.flatMap fun entry =>
      List.replicate (entry.2.queue.length + 1) (.remoteTracks entry.1)) s = .ok s') :
    s'.bitrateAllocator.pending = s.bitrateAllocator.pending ∧
      s'.localTracks = s.localTracks ∧
      (∀ j, s'.remoteTracks.load j ≤ s.remoteTracks.load j) ∧
      ∀ entry ∈ entries, s'.remoteTracks.load entry.1 = 0 := by
  induction entries generalizing s with
  | nil =>
    cases h
    exact ⟨rfl, rfl, fun _ => Nat.le_refl _, by simp⟩
  | cons entry rest ih =>
    rw [List.flatMap_cons, popTasks_append] at h
    obtain ⟨s₁, hs₁, hrest⟩ := Except.bind_eq_ok.mp h
    obtain ⟨hpending, hlocal, hother, hload⟩ := popTasks_replicate_remote _ hs₁
    have hmono : ∀ j, s₁.remoteTracks.load j ≤ s.remoteTracks.load j := by
      intro j
      by_cases hj : j = entry.1
      · rw [hj]
        omega
      · exact Nat.le_of_eq (TaskGroup.load_congr (hother j hj))
    obtain ⟨hpending', hlocal', hmono', hzero⟩ := ih (fun e he =>
      Nat.le_trans (hmono e.1) (hbound e (List.mem_cons_of_mem _ he))) hrest
    refine ⟨hpending'.trans hpending, hlocal'.trans hlocal,
      fun j => Nat.le_trans (hmono' j) (hmono j), ?_⟩
    intro e he
    rcases List.mem_cons.mp he with rfl | he
    · have hfirst := hbound e (List.mem_cons_self ..)
      have hlast := hmono' e.1
      omega
    · exact hzero e he

/-- Enough turns for each of a list of local tracks settle all of them. -/
theorem popTasks_localTurns {now : Instant}
    (entries : List (Nat × EndpointLocalTrack Selector)) {s s' : EndpointInternal Selector}
    (hbound : ∀ entry ∈ entries, s.localTracks.load entry.1 ≤ entry.2.queue.length + 1)
    (h : popTasks env now (entries.flatMap fun entry =>
      List.replicate (entry.2.queue.length + 1) (.localTracks entry.1)) s = .ok s') :
    s'.bitrateAllocator.pending = s.bitrateAllocator.pending ∧
      (∀ j, s'.localTracks.load j ≤ s.localTracks.load j) ∧
      ∀ entry ∈ entries, s'.localTracks.load entry.1 = 0 := by
  induction entries generalizing s with
  | nil =>
    cases h
    exact ⟨rfl, fun _ => Nat.le_refl _, by simp⟩
  | cons entry rest ih =>
    rw [List.flatMap_cons, popTasks_append] at h
    obtain ⟨s₁, hs₁, hrest⟩ := Except.bind_eq_ok.mp h
    obtain ⟨hpending, hother, hload⟩ := popTasks_replicate_local _ hs₁
    have hmono : ∀ j, s₁.localTracks.load j ≤ s.localTracks.load j := by
      intro j
      by_cases hj : j = entry.1
      · rw [hj]
        omega
      · exact Nat.le_of_eq (TaskGroup.load_congr (hother j hj))
    obtain ⟨hpending', hmono', hzero⟩ := ih (fun e he =>
      Nat.le_trans (hmono e.1) (hbound e (List.mem_cons_of_mem _ he))) hrest
    refine ⟨hpending'.trans hpending, fun j => Nat.le_trans (hmono' j) (hmono j), ?_⟩
    intro e he
    rcases List.mem_cons.mp he with rfl | he
    · have hfirst := hbound e (List.mem_cons_self ..)
      have hlast := hmono' e.1
      omega
    · exact hzero e he

/-- A group whose listed tasks carry no load carries none at all. -/
theorem load_eq_zero_of_entries {T Out : Type} [TaskChild T Out] {g g' : TaskGroup T}
    (hmono : ∀ j, g'.load j ≤ g.load j)
    (hzero : ∀ entry ∈ g.tasks.entries, g'.load entry.1 = 0) (index : Nat) :
    g'.load index = 0 := by
  cases hget : g.get index with
  | none =>
    have hle := hmono index
    rw [TaskGroup.load_of_get_eq_none hget] at hle
    omega
  | some t => exact hzero (index, t) (IndexMap.get_eq_some_iff.mp hget)

/-- **The loops of `leave_room` and `on_shutdown` leave every task idle.** -/
theorem popAll_quiescent {now : Instant} {schedule : Schedule} {s s' : EndpointInternal Selector}
    (h : popAll env now schedule s = .ok s') : s'.Quiescent := by
  obtain ⟨s₁, -, h⟩ := Except.bind_eq_ok.mp h
  obtain ⟨s₂, hs₂, h⟩ := Except.bind_eq_ok.mp h
  obtain ⟨s₃, hs₃, h⟩ := Except.bind_eq_ok.mp h
  have hpending₂ := popTasks_allocatorTurns _ hs₂
  obtain ⟨hpending₃, hmono₃, hzero₃⟩ := popTasks_localTurns _ (fun entry he =>
    TaskGroup.load_le (IndexMap.get_eq_some_iff.mpr he)) hs₃
  obtain ⟨hpending, hlocal, hmono, hzero⟩ := popTasks_remoteTurns _ (fun entry he =>
    TaskGroup.load_le (IndexMap.get_eq_some_iff.mpr he)) h
  refine ⟨by omega, fun index => ?_, fun index => ?_⟩
  · rw [hlocal]
    exact TaskGroup.settled_of_load_eq_zero (load_eq_zero_of_entries hmono₃ hzero₃ index)
  · exact TaskGroup.settled_of_load_eq_zero (load_eq_zero_of_entries hmono hzero index)

/-- The loops remove every track that was told to stop. -/
theorem popAll_removes {now : Instant} {schedule : Schedule} {s s' : EndpointInternal Selector}
    (h : popAll env now schedule s = .ok s')
    (hremote : ∀ index t, s.remoteTracks.get index = some t → t.shutdown = true)
    (hlocal : ∀ index t, s.localTracks.get index = some t → t.shutdown = true) :
    (∀ index t, s'.remoteTracks.get index ≠ some t) ∧
      ∀ index t, s'.localTracks.get index ≠ some t := by
  have hsame := popAll_same h
  have hquiet := popAll_quiescent h
  refine ⟨fun index t ht => ?_, fun index t ht => ?_⟩
  · obtain ⟨u, hu, -, hshutdown⟩ := hsame.remote index t ht
    obtain ⟨hqueue, hbusy⟩ := hquiet.remoteTracks index t ht
    have hidle : t.isEmpty = true := by
      rw [EndpointRemoteTrack.isEmpty, hshutdown, hremote index u hu,
        show t.queue = [] from hqueue]
      rfl
    rw [show t.isEmpty = false from hbusy] at hidle
    cases hidle
  · obtain ⟨u, hu, -, hshutdown, -⟩ := hsame.local_ index t ht
    obtain ⟨hqueue, hbusy⟩ := hquiet.localTracks index t ht
    have hidle : t.isEmpty = true := by
      rw [EndpointLocalTrack.isEmpty, hshutdown, hlocal index u hu,
        show t.queue = [] from hqueue]
      rfl
    rw [show t.isEmpty = false from hbusy] at hidle
    cases hidle

end

end EndpointInternal

end MediaServer.Endpoint
