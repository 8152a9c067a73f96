import MediaServer.Endpoint.Membership

/-!
# What an endpoint records

An endpoint that is recorded reports when it joins and leaves a room and what its tracks do in
between.  `Stage.step` reads these events one after another and accepts them as long as every
event of a track stands between a join and the next leave.  The events wait in two places, the
queue of the endpoint and the queues of its remote tracks.

A disconnect is reported before the tracks are shut down, and media is reported for a track that
is in no room.  Where neither happens, the events of an endpoint are in order.
-/

namespace MediaServer.Endpoint

open Collections Runtime

variable {Selector : Type}

/-! ### The order of the events -/

/-- Where the events recorded so far have led. -/
inductive Stage where
  | outside
  | inside (app : AppId) (room : RoomId) (peer : PeerId)
  /-- Disconnected, with the leave still to come. -/
  | ending

/-- One event, if it is in order. -/
def Stage.step : Stage → SessionRecordEvent → Option Stage
  | .outside, .joinRoom app room peer => some (.inside app room peer)
  | .outside, .disconnected => some .outside
  | .inside .., .leaveRoom => some .outside
  | .inside .., .disconnected => some .ending
  | .inside app room peer, .trackStarted .. => some (.inside app room peer)
  | .inside app room peer, .trackStopped _ => some (.inside app room peer)
  | .inside app room peer, .trackMedia .. => some (.inside app room peer)
  | .ending, .leaveRoom => some .outside
  | _, _ => none

def Stage.isInside : Stage → Bool
  | .inside .. => true
  | .outside | .ending => false

/-- The stage after a sequence of events, if all of them are in order. -/
def Stage.run (events : List (Instant × SessionRecordEvent)) : Option Stage :=
  events.foldlM (fun stage event => stage.step event.2) .outside

theorem Stage.run_append (first second : List (Instant × SessionRecordEvent)) :
    Stage.run (first ++ second) =
      (Stage.run first).bind fun stage => second.foldlM (fun stage event => stage.step event.2) stage :=
  List.foldlM_append

/-- Inside a room the events of tracks are in order. -/
theorem Stage.step_track {stage : Stage} (hinside : stage.isInside = true)
    {event : SessionRecordEvent} (htrack : event.isTrack = true) : stage.step event = some stage := by
  cases stage with
  | inside app room peer => cases event <;> first | rfl | cases htrack
  | outside => cases hinside
  | ending => cases hinside

/-- The events that are recorded among the outputs of an endpoint. -/
def recordsOf (outs : List InternalOutput) : List (Instant × SessionRecordEvent) :=
  outs.filterMap fun
    | .recordEvent ts event => some (ts, event)
    | _ => none

theorem recordsOf_append (first second : List InternalOutput) :
    recordsOf (first ++ second) = recordsOf first ++ recordsOf second :=
  List.filterMap_append

/-! ### What a track records -/

namespace EndpointRemoteTrack

open RemoteTrack

/-- The events that are recorded among the outputs of a track. -/
def recordsOf (outs : List Output) : List (Instant × SessionRecordEvent) :=
  outs.filterMap fun
    | .recordEvent ts event => some (ts, event)
    | _ => none

/-- The events that wait in a track's queue. -/
def records (t : EndpointRemoteTrack) : List (Instant × SessionRecordEvent) := recordsOf t.queue

theorem recordsOf_append (first second : List Output) :
    recordsOf (first ++ second) = recordsOf first ++ recordsOf second :=
  List.filterMap_append

/-- The track queued these events for the record. -/
structure Records (t t' : EndpointRemoteTrack) (now : Instant)
    (news : List (Instant × SessionRecordEvent)) : Prop where
  id : t'.id = t.id
  record : t'.record = t.record
  grows : t'.records = t.records ++ news
  events : ∀ event ∈ news, event.2.isTrack = true ∧ event.1 = now
  off : t.record = false → news = []

theorem records_nothing {t t' : EndpointRemoteTrack} (now : Instant) (hid : t'.id = t.id)
    (hrecord : t'.record = t.record) {outs : List Output} (hqueue : t'.queue = t.queue ++ outs)
    (houts : recordsOf outs = []) : Records t t' now [] := by
  refine ⟨hid, hrecord, ?_, ?_, fun _ => rfl⟩
  · rw [records, hqueue, recordsOf_append, houts]
    rfl
  · intro event hmem
    cases hmem

theorem records_silent {t t' : EndpointRemoteTrack} (now : Instant) (hid : t'.id = t.id)
    (hrecord : t'.record = t.record) (hqueue : t'.queue = t.queue) : Records t t' now [] :=
  records_nothing now hid hrecord (by rw [hqueue, List.append_nil]) rfl

theorem recordsOf_recorded (t : EndpointRemoteTrack) (now : Instant) (event : SessionRecordEvent) :
    recordsOf (t.recorded now event) = if t.record then [(now, event)] else [] := by
  unfold recorded
  split <;> rfl

/-- The track queued one event, if it is recorded. -/
theorem records_one {t t' : EndpointRemoteTrack} (now : Instant) (event : SessionRecordEvent)
    (htrack : event.isTrack = true) (hid : t'.id = t.id) (hrecord : t'.record = t.record)
    {outs : List Output} (hqueue : t'.queue = t.queue ++ outs)
    (houts : recordsOf outs = if t.record then [(now, event)] else []) :
    ∃ news, Records t t' now news := by
  refine ⟨if t.record then [(now, event)] else [], hid, hrecord, ?_, ?_, ?_⟩
  · rw [records, hqueue, recordsOf_append, houts]
    rfl
  · intro event' hmem
    split at hmem
    · rw [List.mem_singleton.mp hmem]
      exact ⟨htrack, rfl⟩
    · cases hmem
  · intro hoff
    rw [if_neg (by rw [hoff]; decide)]

theorem recordsOf_joinOutputs (t : EndpointRemoteTrack) (now : Instant) (room : ClusterRoomHash) :
    recordsOf (t.joinOutputs now room) =
      if t.record then [(now, .trackStarted t.id t.name t.trackMeta)] else [] := by
  rw [joinOutputs, recordsOf_append, recordsOf_append, recordsOf_recorded]
  exact List.append_nil _

theorem recordsOf_endOutputs (t : EndpointRemoteTrack) (now : Instant) (room : ClusterRoomHash) :
    recordsOf (t.endOutputs now room) =
      if t.record then [(now, .trackStopped t.id)] else [] := by
  rw [endOutputs, recordsOf_append, recordsOf_append, recordsOf_recorded]
  exact List.append_nil _

theorem onLeaveRoom_records {t t' : EndpointRemoteTrack} {now : Instant}
    (h : t.onLeaveRoom now = .ok t') : ∃ news, Records t t' now news := by
  unfold onLeaveRoom at h
  cases hroom : t.room with
  | none => simp [hroom] at h
  | some room =>
    rw [hroom] at h
    cases h
    exact records_one now (.trackStopped t.id) rfl rfl rfl rfl (t.recordsOf_endOutputs now room)

theorem onShutdown_records {t t' : EndpointRemoteTrack} {now : Instant}
    (h : t.onShutdown now = .ok t') :
    ∃ news, Records t t' now news ∧ (t.shutdown = true ∨ t.room = none → news = []) := by
  unfold onShutdown at h
  split at h
  case isTrue hshutdown =>
    cases h
    exact ⟨[], records_silent now rfl rfl rfl, fun _ => rfl⟩
  case isFalse hshutdown =>
    simp only at h
    split at h
    case isTrue hroom =>
      obtain ⟨news, hnews⟩ := onLeaveRoom_records h
      refine ⟨news, ⟨hnews.id, hnews.record, hnews.grows, hnews.events, hnews.off⟩, ?_⟩
      rintro (hstop | hnone)
      · exact absurd hstop hshutdown
      · rw [hnone] at hroom
        cases hroom
    case isFalse =>
      cases h
      exact ⟨[], records_silent now rfl rfl rfl, fun _ => rfl⟩

/-- The input makes a recorded track report something. -/
def speaks (t : EndpointRemoteTrack) : Input → Bool
  | .joinRoom _ | .leaveRoom => true
  | .event (.started ..) | .event .ended => t.room.isSome
  | .event (.media _) => true
  | .event .paused | .event .resumed | .cluster _ | .rpcReq .. | .bitrateAllocation _ => false

section

variable (t : EndpointRemoteTrack)

@[simp] theorem speaks_joinRoom (room : ClusterRoomHash) : t.speaks (.joinRoom room) = true := rfl

@[simp] theorem speaks_leaveRoom : t.speaks .leaveRoom = true := rfl

@[simp] theorem speaks_started (name : TrackName) (priority : TrackPriority)
    (trackMeta : TrackMeta) :
    t.speaks (.event (.started name priority trackMeta)) = t.room.isSome := rfl

@[simp] theorem speaks_ended : t.speaks (.event .ended) = t.room.isSome := rfl

@[simp] theorem speaks_media (media : MediaPacket) : t.speaks (.event (.media media)) = true := rfl

end

theorem recordsOf_limitOutputs (t : EndpointRemoteTrack) : recordsOf t.limitOutputs = [] := by
  unfold limitOutputs
  split <;> rfl

theorem onTransportEvent_records (t : EndpointRemoteTrack) (now : Instant)
    (event : RemoteTrackEvent) :
    ∃ news, Records t (t.onTransportEvent now event) now news ∧
      (t.speaks (.event event) = false → news = []) := by
  have hsilent : ∀ t', t'.id = t.id → t'.record = t.record → t'.queue = t.queue →
      ∃ news, Records t t' now news ∧ (t.speaks (.event event) = false → news = []) :=
    fun t' hid hrecord hqueue => ⟨[], records_silent now hid hrecord hqueue, fun _ => rfl⟩
  cases event with
  | started name priority trackMeta =>
    cases hroom : t.room with
    | none =>
      simp only [onTransportEvent, hroom]
      exact hsilent t rfl rfl rfl
    | some room =>
      simp only [onTransportEvent, hroom]
      have hone : ∀ outs, recordsOf outs =
          (if t.record then [(now, .trackStarted t.id name t.trackMeta)] else []) →
          ∃ news, Records t (t.push outs) now news := fun outs houts =>
        records_one now (.trackStarted t.id name t.trackMeta) rfl rfl rfl rfl houts
      refine (hone _ ?_).imp fun news hnews => ⟨hnews, by simp [hroom]⟩
      rw [recordsOf_append, recordsOf_append, recordsOf_recorded]
      simp [recordsOf]
  | paused => exact hsilent t rfl rfl rfl
  | resumed => exact hsilent t rfl rfl rfl
  | media media =>
    -- the track with the layers it keeps queues the event, and then speaks to its room
    have hsame : (t.restoreLayers media).1.queue = t.queue ∧
        (t.restoreLayers media).1.id = t.id ∧ (t.restoreLayers media).1.record = t.record := by
      simp only [restoreLayers]
      split <;> exact ⟨rfl, rfl, rfl⟩
    obtain ⟨hqueue, hid, hrecord⟩ := hsame
    have hmedia : ∀ more, recordsOf more = [] → ∃ news, Records t
        (((t.restoreLayers media).1.push ((t.restoreLayers media).1.recorded now
          (.trackMedia (t.restoreLayers media).1.id (t.restoreLayers media).2))).push more)
        now news := by
      intro more hmore
      refine records_one now (.trackMedia (t.restoreLayers media).1.id (t.restoreLayers media).2) rfl
        hid hrecord (by rw [push, push, hqueue, List.append_assoc]) ?_
      rw [recordsOf_append, hmore, List.append_nil, recordsOf_recorded, hrecord]
    simp only [onTransportEvent]
    split
    · obtain ⟨news, hnews⟩ := hmedia [] rfl
      refine ⟨news, ?_, by simp⟩
      rwa [push, List.append_nil] at hnews
    · rename_i room _
      obtain ⟨news, hnews⟩ := hmedia [.cluster room (.media (t.restoreLayers media).2)] rfl
      exact ⟨news, hnews, by simp⟩
  | ended =>
    cases hroom : t.room with
    | none =>
      simp only [onTransportEvent, hroom]
      exact hsilent t rfl rfl rfl
    | some room =>
      simp only [onTransportEvent, hroom]
      have hone : ∃ news, Records t { t.push (t.endOutputs now room) with shutdown := true } now
          news :=
        records_one now (.trackStopped t.id) rfl rfl rfl rfl (t.recordsOf_endOutputs now room)
      obtain ⟨news, hnews⟩ := hone
      exact ⟨news, hnews, by simp [hroom]⟩

theorem onEvent_records {t t' : EndpointRemoteTrack} {now : Instant} {input : Input}
    (h : onEvent now input t = .ok t') :
    ∃ news, Records t t' now news ∧ (t.speaks input = false → news = []) := by
  cases input with
  | joinRoom room =>
    have h' : t.onJoinRoom now room = .ok t' := h
    unfold onJoinRoom at h'
    cases hroom : t.room with
    | some other => simp [hroom] at h'
    | none =>
      rw [hroom] at h'
      cases h'
      have hone : ∃ news, Records t ({ t with room := some room }.push (t.joinOutputs now room))
          now news :=
        records_one now (.trackStarted t.id t.name t.trackMeta) rfl rfl rfl rfl
          (t.recordsOf_joinOutputs now room)
      obtain ⟨news, hnews⟩ := hone
      exact ⟨news, hnews, by simp⟩
  | leaveRoom =>
    obtain ⟨news, hnews⟩ := onLeaveRoom_records h
    exact ⟨news, hnews, by simp⟩
  | cluster event =>
    cases h
    refine ⟨[], ?_, fun _ => rfl⟩
    cases event with
    | requestKeyFrame => exact records_nothing now rfl rfl rfl rfl
    | limitBitrate lo hi =>
      simp only [onClusterEvent]
      split
      · exact records_nothing now rfl rfl rfl (recordsOf_limitOutputs _)
      · exact records_silent now rfl rfl rfl
  | event event =>
    cases h
    exact t.onTransportEvent_records now event
  | rpcReq reqId req =>
    cases h
    refine ⟨[], ?_, fun _ => rfl⟩
    obtain ⟨config⟩ := req
    simp only [onRpcReq]
    split
    · exact records_nothing now rfl rfl rfl rfl
    · exact records_nothing now rfl rfl rfl rfl
  | bitrateAllocation action =>
    cases h
    obtain ⟨bitrate⟩ := action
    exact ⟨[], records_nothing now rfl rfl rfl (recordsOf_limitOutputs _), fun _ => rfl⟩

end EndpointRemoteTrack

/-! ### What waits in the queues -/

namespace EndpointInternal

/-- The events recorded so far, those in `told` and those in the queue, are in order and in the
    order of their times, and lead to `stage`.  The events that still wait in tracks are of the
    time `clock`, and there are some only inside a room. -/
structure Logged (timer : Instant → UInt64) (cfg : EndpointCfg)
    (told : List (Instant × SessionRecordEvent)) (stage : Stage) (clock : UInt64)
    (s : EndpointInternal Selector) : Prop where
  config : s.cfg = cfg
  run : Stage.run (told ++ recordsOf s.queue) = some stage
  sorted : (told ++ recordsOf s.queue).Pairwise fun first second => timer first.1 ≤ timer second.1
  upTo : ∀ event ∈ told ++ recordsOf s.queue, timer event.1 ≤ clock
  waits : ∀ index t, s.remoteTracks.get index = some t →
    ∀ event ∈ t.records, event.2.isTrack = true ∧ timer event.1 = clock
  calm : stage.isInside = false → ∀ index t, s.remoteTracks.get index = some t → t.records = []
  own : ∀ index t, s.remoteTracks.get index = some t →
    t.record = cfg.record ∧ (cfg.record = true → s.remoteTracksId.get1 t.id = some index)

/-- Where the events of an endpoint have led, by the room it is in. -/
def stage (s : EndpointInternal Selector) : Stage :=
  match s.cfg.record, s.joined with
  | true, some joined => .inside s.cfg.app.app joined.room joined.peer
  | _, _ => .outside

section

variable {timer : Instant → UInt64} {cfg : EndpointCfg}
  {told : List (Instant × SessionRecordEvent)} {stage stage' : Stage} {clock : UInt64}
  {s s' : EndpointInternal Selector}

/-- Events that are appended in order. -/
theorem run_concat {events news : List (Instant × SessionRecordEvent)}
    (hrun : Stage.run events = some stage)
    (hnews : news.foldlM (fun stage event => stage.step event.2) stage = some stage') :
    Stage.run (events ++ news) = some stage' := by
  rw [Stage.run_append, hrun]
  exact hnews

theorem foldlM_tracks {news : List (Instant × SessionRecordEvent)}
    (htrack : ∀ event ∈ news, event.2.isTrack = true) (hinside : news ≠ [] → stage.isInside = true) :
    news.foldlM (fun stage event => stage.step event.2) stage = some stage := by
  induction news with
  | nil => rfl
  | cons event rest ih =>
    have hin := hinside (List.cons_ne_nil event rest)
    rw [List.foldlM_cons, Stage.step_track hin (htrack event (List.mem_cons_self ..))]
    exact ih (fun event' hmem => htrack event' (List.mem_cons_of_mem _ hmem)) fun _ => hin

theorem sorted_concat {events : List (Instant × SessionRecordEvent)}
    (news : List (Instant × SessionRecordEvent))
    (hsorted : events.Pairwise fun first second => timer first.1 ≤ timer second.1)
    (hupTo : ∀ event ∈ events, timer event.1 ≤ clock)
    (hnews : ∀ event ∈ news, timer event.1 = clock) :
    (events ++ news).Pairwise (fun first second => timer first.1 ≤ timer second.1) ∧
      ∀ event ∈ events ++ news, timer event.1 ≤ clock := by
  refine ⟨List.pairwise_append.mpr ⟨hsorted, ?_, ?_⟩, ?_⟩
  · refine List.pairwise_of_forall_mem_list ?_
    intro first hfirst second hsecond
    rw [hnews first hfirst, hnews second hsecond]
    exact UInt64.le_refl _
  · intro first hfirst second hsecond
    rw [hnews second hsecond]
    exact hupTo first hfirst
  · intro event hmem
    rcases List.mem_append.mp hmem with hold | hnew
    · exact hupTo event hold
    · rw [hnews event hnew]
      exact UInt64.le_refl _

/-- Events of tracks move to the queue, and tracks may go. -/
theorem Logged.move (h : Logged timer cfg told stage clock s)
    (news : List (Instant × SessionRecordEvent)) (hconfig : s'.cfg = s.cfg)
    (hids : s'.remoteTracksId = s.remoteTracksId)
    (hqueue : recordsOf s'.queue = recordsOf s.queue ++ news)
    (hnews : ∀ event ∈ news, event.2.isTrack = true ∧ timer event.1 = clock)
    (hinside : news ≠ [] → stage.isInside = true)
    (htracks : ∀ index t', s'.remoteTracks.get index = some t' →
      ∃ t, s.remoteTracks.get index = some t ∧ t'.id = t.id ∧ t'.record = t.record ∧
        t'.records ⊆ t.records) : Logged timer cfg told stage clock s' := by
  obtain ⟨hsorted, hupTo⟩ := sorted_concat news h.sorted h.upTo fun event hmem => (hnews event hmem).2
  refine ⟨hconfig.trans h.config, ?_, ?_, ?_, ?_, ?_, ?_⟩
  · rw [hqueue, ← List.append_assoc]
    exact run_concat h.run (foldlM_tracks (fun event hmem => (hnews event hmem).1) hinside)
  · rw [hqueue, ← List.append_assoc]
    exact hsorted
  · rw [hqueue, ← List.append_assoc]
    exact hupTo
  · intro index t' hget' event hmem
    obtain ⟨t, hget, -, -, hsub⟩ := htracks index t' hget'
    exact h.waits index t hget event (hsub hmem)
  · intro hout index t' hget'
    obtain ⟨t, hget, -, -, hsub⟩ := htracks index t' hget'
    rw [h.calm hout index t hget] at hsub
    exact List.subset_nil.mp hsub
  · intro index t' hget'
    obtain ⟨t, hget, hid, hrecord, -⟩ := htracks index t' hget'
    rw [hid, hrecord, hids]
    exact h.own index t hget

/-- Nothing that is recorded changes. -/
theorem Logged.same (h : Logged timer cfg told stage clock s) (hconfig : s'.cfg = s.cfg)
    (hids : s'.remoteTracksId = s.remoteTracksId) (htracks : s'.remoteTracks = s.remoteTracks)
    (hqueue : recordsOf s'.queue = recordsOf s.queue) : Logged timer cfg told stage clock s' := by
  refine h.move [] hconfig hids (by rw [hqueue, List.append_nil]) (fun _ hmem => ?_)
    (fun hne => absurd rfl hne) ?_
  · cases hmem
  · intro index t hget
    rw [htracks] at hget
    exact ⟨t, hget, rfl, rfl, fun _ hmem => hmem⟩

/-- The endpoint itself reports an event. -/
theorem Logged.tell (h : Logged timer cfg told stage clock s) {now : Instant}
    {event : SessionRecordEvent} (hconfig : s'.cfg = s.cfg)
    (hids : s'.remoteTracksId = s.remoteTracksId) (htracks : s'.remoteTracks = s.remoteTracks)
    (hqueue : recordsOf s'.queue = recordsOf s.queue ++ [(now, event)]) (hnow : timer now = clock)
    (hstep : stage.step event = some stage')
    (hcalm : stage'.isInside = false → ∀ index t, s.remoteTracks.get index = some t → t.records = []) :
    Logged timer cfg told stage' clock s' := by
  obtain ⟨hsorted, hupTo⟩ := sorted_concat [(now, event)] h.sorted h.upTo (by
    intro event' hmem
    rw [List.mem_singleton.mp hmem]
    exact hnow)
  refine ⟨hconfig.trans h.config, ?_, ?_, ?_, ?_, ?_, ?_⟩
  · rw [hqueue, ← List.append_assoc]
    refine run_concat h.run ?_
    rw [List.foldlM_cons, hstep]
    rfl
  · rw [hqueue, ← List.append_assoc]
    exact hsorted
  · rw [hqueue, ← List.append_assoc]
    exact hupTo
  · rw [htracks]
    exact h.waits
  · rw [htracks]
    exact hcalm
  · rw [htracks, hids]
    exact h.own

/-- A track queues events. -/
theorem Logged.setRemote (h : Logged timer cfg told stage clock s) {index : Nat}
    {t t' : EndpointRemoteTrack} (hget : s.remoteTracks.get index = some t) {now : Instant}
    {news : List (Instant × SessionRecordEvent)} (hrecords : t.Records t' now news)
    (hnow : timer now = clock) (hinside : news ≠ [] → stage.isInside = true) :
    Logged timer cfg told stage clock { s with remoteTracks := s.remoteTracks.set index t' } := by
  have hcases : ∀ j u, (s.remoteTracks.set index t').get j = some u →
      (j = index ∧ u = t') ∨ s.remoteTracks.get j = some u := by
    intro j u hu
    by_cases hj : j = index
    · subst hj
      rw [TaskGroup.get_set_self] at hu
      exact .inl ⟨rfl, (Option.some.inj hu).symm⟩
    · rw [TaskGroup.get_set_ne _ _ hj] at hu
      exact .inr hu
  refine ⟨h.config, h.run, h.sorted, h.upTo, ?_, ?_, ?_⟩
  · intro j u hu event hmem
    rcases hcases j u hu with ⟨rfl, rfl⟩ | hold
    · rw [hrecords.grows] at hmem
      rcases List.mem_append.mp hmem with hwaits | hnew
      · exact h.waits j t hget event hwaits
      · obtain ⟨htrack, htime⟩ := hrecords.events event hnew
        exact ⟨htrack, by rw [htime, hnow]⟩
    · exact h.waits j u hold event hmem
  · intro hout j u hu
    rcases hcases j u hu with ⟨rfl, rfl⟩ | hold
    · have hnone : news = [] := by
        by_contra hne
        rw [hinside hne] at hout
        cases hout
      rw [hrecords.grows, h.calm hout j t hget, hnone]
      rfl
    · exact h.calm hout j u hold
  · intro j u hu
    rcases hcases j u hu with ⟨rfl, rfl⟩ | hold
    · rw [hrecords.record, hrecords.id]
      exact h.own j t hget
    · exact h.own j u hold

/-! ### Turns -/

theorem recordsOf_passedRemote (id : RemoteTrackId) (out : RemoteTrack.Output) :
    recordsOf (passedRemote id out) = EndpointRemoteTrack.recordsOf [out] := by
  cases out <;> rfl

theorem recordsOf_passedLocal (id : LocalTrackId) (out : LocalTrack.Output) :
    recordsOf (passedLocal id out) = [] := by
  cases out <;> rfl

theorem Logged.popRemoteTracks (h : Logged timer cfg told stage clock s) {index : Nat}
    (hs : s.popRemoteTracks index = .ok s') : Logged timer cfg told stage clock s' := by
  rcases popRemoteTracks_eq_ok hs with ⟨-, rfl⟩ | ⟨t, id, hget, -, hcase⟩
  · exact h
  · rcases hcase with ⟨out, rest, hqueue, -, rfl⟩ | ⟨kind, group, -, hgone, rfl⟩
    · have hrecords : t.records = EndpointRemoteTrack.recordsOf [out] ++
          EndpointRemoteTrack.recordsOf rest := by
        rw [← EndpointRemoteTrack.recordsOf_append, EndpointRemoteTrack.records, hqueue]
        rfl
      refine h.move (EndpointRemoteTrack.recordsOf [out]) rfl rfl ?_ ?_ ?_ ?_
      · rw [recordsOf_append, recordsOf_passedRemote]
      · intro event hmem
        exact h.waits index t hget event (by rw [hrecords]; exact List.mem_append_left _ hmem)
      · intro hne
        by_contra hout
        have hnone := h.calm (Bool.eq_false_iff.mpr hout) index t hget
        rw [hrecords] at hnone
        exact hne (List.append_eq_nil_iff.mp hnone).1
      · intro j u hu
        change (s.remoteTracks.set index { t with queue := rest }).get j = some u at hu
        by_cases hj : j = index
        · subst hj
          rw [TaskGroup.get_set_self] at hu
          cases hu
          refine ⟨t, hget, rfl, rfl, ?_⟩
          rw [hrecords]
          exact List.subset_append_right ..
        · rw [TaskGroup.get_set_ne _ _ hj] at hu
          exact ⟨u, hu, rfl, rfl, fun _ hmem => hmem⟩
    · refine h.move [] rfl rfl (List.append_nil _).symm (fun _ hmem => ?_)
        (fun hne => absurd rfl hne) ?_
      · cases hmem
      · intro j u hu
        change group.get j = some u at hu
        rw [hgone j] at hu
        split at hu
        · cases hu
        · exact ⟨u, hu, rfl, rfl, fun _ hmem => hmem⟩

theorem Logged.popLocalTracks (h : Logged timer cfg told stage clock s) {index : Nat}
    (hs : s.popLocalTracks index = .ok s') : Logged timer cfg told stage clock s' := by
  rcases popLocalTracks_eq_ok hs with ⟨-, rfl⟩ | ⟨t, id, -, -, hcase⟩
  · exact h
  · rcases hcase with ⟨out, rest, -, -, rfl⟩ | ⟨group, -, -, rfl⟩
    · refine h.same rfl rfl rfl ?_
      rw [recordsOf_append, recordsOf_passedLocal, List.append_nil]
    · exact h.same rfl rfl rfl rfl

/-- An input that makes a track report nothing. -/
theorem Logged.toRemote_silent (h : Logged timer cfg told stage clock s) {now : Instant}
    {index : Nat} {told' : RemoteTrack.Input}
    (hsilent : ∀ t, s.remoteTracks.get index = some t → t.speaks told' = false)
    (hs : s.toRemote now index told' = .ok s') : Logged timer cfg told stage clock s' := by
  obtain ⟨group, hgroup, rfl⟩ := toRemote_eq_ok hs
  rcases TaskGroup.onEvent_eq_ok hgroup with ⟨-, rfl⟩ | ⟨t, t', hget, ht', rfl⟩
  · exact h.same rfl rfl rfl rfl
  · obtain ⟨news, hrecords, hnone⟩ := EndpointRemoteTrack.onEvent_records ht'
    have hnil := hnone (hsilent t hget)
    subst hnil
    refine h.move [] rfl rfl (List.append_nil _).symm (fun _ hmem => ?_)
      (fun hne => absurd rfl hne) ?_
    · cases hmem
    · intro j u hu
      change (s.remoteTracks.set index t').get j = some u at hu
      by_cases hj : j = index
      · subst hj
        rw [TaskGroup.get_set_self] at hu
        cases hu
        refine ⟨t, hget, hrecords.id, hrecords.record, ?_⟩
        rw [hrecords.grows, List.append_nil]
        exact fun _ hmem => hmem
      · rw [TaskGroup.get_set_ne _ _ hj] at hu
        exact ⟨u, hu, rfl, rfl, fun _ hmem => hmem⟩

variable {env : Env Selector}

theorem Logged.popBitrateAllocator (h : Logged timer cfg told stage clock s) {now : Instant}
    (hs : s.popBitrateAllocator env now = .ok s') : Logged timer cfg told stage clock s' := by
  rcases popBitrateAllocator_eq_ok hs with ⟨-, rfl⟩ | ⟨out, allocator, -, hcase⟩
  · exact h
  · have hsame : Logged timer cfg told stage clock { s with bitrateAllocator := allocator } :=
      h.same rfl rfl rfl rfl
    rcases hcase with rfl | ⟨event, rfl⟩ | ⟨index, action, hto⟩ | ⟨index, action, hto⟩
    · exact hsame
    · refine hsame.same rfl rfl rfl ?_
      rw [push, recordsOf_append]
      exact List.append_nil _
    · exact hsame.toRemote_silent (fun _ _ => rfl) hto
    · obtain ⟨group, -, rfl⟩ := toLocal_eq_ok hto
      exact hsame.same rfl rfl rfl rfl

/-- **A turn loses no event** and keeps them in order. -/
theorem Logged.turn (h : Logged timer cfg told stage clock s) {now : Instant} {pick : Pick}
    (hs : s.popTask env now pick = .ok s') : Logged timer cfg told stage clock s' := by
  cases pick with
  | bitrateAllocator => exact h.popBitrateAllocator hs
  | localTracks index => exact h.popLocalTracks hs
  | remoteTracks index => exact h.popRemoteTracks hs

theorem Logged.popAll (h : Logged timer cfg told stage clock s) {now : Instant}
    {schedule : Schedule} (hs : popAll env now schedule s = .ok s') :
    Logged timer cfg told stage clock s' :=
  popAll_invariant _ (fun _ _ _ hlogged hturn => hlogged.turn hturn) h hs

theorem Logged.poll (h : Logged timer cfg told stage clock s) {now : Instant}
    {schedule : Schedule} (hs : poll env now schedule s = .ok s') :
    Logged timer cfg told stage clock s' :=
  poll_invariant _ (fun _ _ _ hlogged hturn => hlogged.turn hturn) h hs

/-! ### Joining, leaving and shutting down -/

theorem Logged.broadcast (h : Logged timer cfg told stage clock s) {now : Instant}
    {toLocals : LocalTrack.Input} {toRemotes : RemoteTrack.Input} (hnow : timer now = clock)
    (hinside : cfg.record = true → stage.isInside = true)
    (hs : s.broadcast env now toLocals toRemotes = .ok s') :
    Logged timer cfg told stage clock s' := by
  obtain ⟨localTracks, remoteTracks, -, hremote, rfl⟩ := broadcast_eq_ok hs
  have hgroup : Logged timer cfg told stage clock { s with remoteTracks := remoteTracks } := by
    refine TaskGroup.onEvents_invariant
      (fun group => Logged timer cfg told stage clock { s with remoteTracks := group })
      ?_ (h.same rfl rfl rfl rfl) hremote
    intro group index t t' hlogged hget ht'
    obtain ⟨news, hrecords, -⟩ := EndpointRemoteTrack.onEvent_records ht'
    refine hlogged.setRemote hget hrecords hnow fun hne => hinside ?_
    cases hrecord : cfg.record with
    | true => rfl
    | false =>
      have hoff := (hlogged.own index t hget).1
      rw [hrecord] at hoff
      exact absurd (hrecords.off hoff) hne
  exact hgroup.same rfl rfl rfl rfl

/-- A broadcast reaches every track of an endpoint that is recorded. -/
theorem Logged.mem_pairs (h : Logged timer cfg told stage clock s) (hrecord : cfg.record = true)
    {index : Nat} {t : EndpointRemoteTrack} (hget : s.remoteTracks.get index = some t) :
    index ∈ s.remoteTracksId.pairs.map Prod.snd :=
  List.mem_map.mpr ⟨(t.id, index),
    IndexMap2d.mem_pairs_iff.mpr ((h.own index t hget).2 hrecord), rfl⟩

theorem rooms_broadcast {now : Instant} {toLocals : LocalTrack.Input}
    {toRemotes : RemoteTrack.Input} (P : EndpointRemoteTrack → Prop)
    (hP : ∀ t t', EndpointRemoteTrack.onEvent now toRemotes t = .ok t' → P t')
    (hs : s.broadcast env now toLocals toRemotes = .ok s')
    (h : Logged timer cfg told stage clock s') (hrecord : cfg.record = true) {index : Nat}
    {t : EndpointRemoteTrack} (hget : s'.remoteTracks.get index = some t) : P t := by
  have hmem := h.mem_pairs hrecord hget
  obtain ⟨localTracks, remoteTracks, -, hremote, rfl⟩ := broadcast_eq_ok hs
  exact TaskGroup.onEvents_establishes P hP hremote hmem hget

theorem recordsOf_recorded (s : EndpointInternal Selector) (now : Instant)
    (event : SessionRecordEvent) :
    recordsOf (s.recorded now event) = if s.cfg.record then [(now, event)] else [] := by
  unfold recorded
  split <;> rfl

theorem recordsOf_leaveOutputs (s : EndpointInternal Selector) (now : Instant) (joined : Joined) :
    recordsOf (s.leaveOutputs now joined) = if s.cfg.record then [(now, .leaveRoom)] else [] := by
  rw [leaveOutputs, recordsOf_append, recordsOf_append, recordsOf_recorded]
  exact List.append_nil _

theorem recordsOf_joinOutputs (s : EndpointInternal Selector) (now : Instant)
    (hash : ClusterRoomHash) (req : WaitJoin) :
    recordsOf (s.joinOutputs now hash req) =
      if s.cfg.record then [(now, .joinRoom s.cfg.app.app req.room req.peer)] else [] := by
  rw [joinOutputs, recordsOf_append, recordsOf_append, recordsOf_recorded]
  exact List.append_nil _

theorem stage_eq (s : EndpointInternal Selector) :
    s.stage = match s.cfg.record, s.joined with
      | true, some joined => .inside s.cfg.app.app joined.room joined.peer
      | _, _ => .outside :=
  rfl

theorem stage_of_none (h : s.joined = none) : s.stage = .outside := by
  rw [stage_eq, h]
  split <;> first | rfl | (rename_i heq; cases heq)

theorem stage_of_unrecorded (h : s.cfg.record = false) : s.stage = .outside := by
  rw [stage_eq, h]

theorem stage_of_joined {joined : Joined} (hrecord : s.cfg.record = true)
    (hjoined : s.joined = some joined) :
    s.stage = .inside s.cfg.app.app joined.room joined.peer := by
  rw [stage_eq, hrecord, hjoined]

/-- The leave is reported once nothing waits. -/
theorem Logged.leave (h : Logged timer cfg told stage clock s) {now : Instant}
    (hnow : timer now = clock) (joined : Joined)
    (hidle : ∀ index t, s.remoteTracks.get index = some t → t.records = [])
    (hleave : if cfg.record then stage.step .leaveRoom = some .outside else stage = .outside)
    (hconfig : s'.cfg = s.cfg) (hids : s'.remoteTracksId = s.remoteTracksId)
    (htracks : s'.remoteTracks = s.remoteTracks)
    (hqueue : s'.queue = s.queue ++ s.leaveOutputs now joined) :
    Logged timer cfg told .outside clock s' := by
  have hrecords : recordsOf s'.queue = recordsOf s.queue ++
      if cfg.record then [(now, .leaveRoom)] else [] := by
    rw [hqueue, recordsOf_append, recordsOf_leaveOutputs, h.config]
  split at hleave
  case isTrue hrecord =>
    rw [if_pos hrecord] at hrecords
    exact h.tell hconfig hids htracks hrecords hnow hleave fun _ => hidle
  case isFalse hrecord =>
    rw [if_neg hrecord, List.append_nil] at hrecords
    subst hleave
    exact h.same hconfig hids htracks hrecords

/-- Between two steps the events have led to the room the endpoint is in, and so have the
    tracks. -/
structure Diary (timer : Instant → UInt64) (cfg : EndpointCfg)
    (told : List (Instant × SessionRecordEvent)) (clock : UInt64)
    (s : EndpointInternal Selector) : Prop where
  logged : Logged timer cfg told s.stage clock s
  housed : cfg.record = true → ∀ index t room, s.remoteTracks.get index = some t →
    t.room = some room → s.inRoom = some room

theorem settled_records {index : Nat} {t : EndpointRemoteTrack}
    (h : s.remoteTracks.Settled index) (hget : s.remoteTracks.get index = some t) :
    t.records = [] := by
  rw [EndpointRemoteTrack.records, show t.queue = [] from (h t hget).1]
  rfl

/-- **Leaving**: every event of a track is reported before the leave. -/
theorem Diary.leaveRoom (h : Diary timer cfg told clock s) {now : Instant} {schedule : Schedule}
    (hnow : timer now = clock) (hs : s.leaveRoom env now schedule = .ok s') :
    Diary timer cfg told clock s' ∧ s'.joined = none := by
  rcases leaveRoom_eq_ok hs with ⟨hnone, rfl⟩ | ⟨joined, s₁, s₂, hjoined, hs₁, hs₂, rfl⟩
  · exact ⟨h, hnone⟩
  · have hlogged : Logged timer cfg told s.stage clock { s with joined := none } :=
      h.logged.same rfl rfl rfl rfl
    have hinside : cfg.record = true → s.stage.isInside = true := by
      intro hrecord
      rw [stage_of_joined (by rw [h.logged.config, hrecord]) hjoined]
      rfl
    have hlogged₁ := hlogged.broadcast hnow hinside hs₁
    have hroom₁ : cfg.record = true → ∀ index t, s₁.remoteTracks.get index = some t →
        t.room = none := by
      intro hrecord index t hget
      refine rooms_broadcast (fun t => t.room = none) ?_ hs₁ hlogged₁ hrecord hget
      intro t t' ht'
      obtain ⟨room, -, hafter, -, -⟩ := EndpointRemoteTrack.onLeaveRoom_eq_ok ht'
      exact hafter
    have hlogged₂ := hlogged₁.popAll hs₂
    have hsettled := popAll_quiescent hs₂
    have hnone : (s₂.push (s₂.leaveOutputs now joined)).joined = none := by
      obtain ⟨localTracks, remoteTracks, -, -, rfl⟩ := broadcast_eq_ok hs₁
      exact (popAll_passes hs₂).joined
    refine ⟨⟨?_, ?_⟩, hnone⟩
    · rw [stage_of_none hnone]
      refine hlogged₂.leave hnow joined
        (fun index t hget => settled_records (hsettled.remoteTracks index) hget) ?_ rfl rfl rfl rfl
      split
      case isTrue hrecord =>
        rw [stage_of_joined (by rw [h.logged.config, hrecord]) hjoined]
        rfl
      case isFalse hrecord =>
        refine stage_of_unrecorded ?_
        rw [h.logged.config]
        exact Bool.eq_false_iff.mpr hrecord
    · intro hrecord index t room hget hroom
      obtain ⟨t₁, hget₁, hsame, -⟩ := (popAll_same hs₂).remote index t hget
      rw [hsame, hroom₁ hrecord index t₁ hget₁] at hroom
      cases hroom

/-- **Joining**: the join is reported before any event of a track. -/
theorem Diary.joinRoom (h : Diary timer cfg told clock s) {now : Instant} {schedule : Schedule}
    {req : WaitJoin} (hnow : timer now = clock) (hs : s.joinRoom env now schedule req = .ok s') :
    Diary timer cfg told clock s' := by
  obtain ⟨s₁, hs₁, hs'⟩ := joinRoom_eq_ok hs
  have hpushed : Diary timer cfg told clock (s.push [.rpcRes req.reqId (.joinRoom (.ok ()))]) := by
    refine ⟨h.logged.same rfl rfl rfl ?_, h.housed⟩
    rw [push, recordsOf_append]
    exact List.append_nil _
  obtain ⟨h₁, hnone⟩ := hpushed.leaveRoom hnow hs₁
  have hlogged₁ := h₁.logged
  rw [stage_of_none hnone] at hlogged₁
  -- the endpoint with the new room, and its join reported
  have hjoined : s'.joined = some (joinedBy env s req) ∧ s'.cfg = s₁.cfg := by
    obtain ⟨localTracks, remoteTracks, -, -, rfl⟩ := broadcast_eq_ok hs'
    exact ⟨rfl, rfl⟩
  have hstage : s'.stage =
      if cfg.record then .inside cfg.app.app req.room req.peer else .outside := by
    split
    case isTrue hrecord =>
      rw [stage_of_joined (by rw [hjoined.2, hlogged₁.config, hrecord]) hjoined.1, hjoined.2,
        hlogged₁.config]
      rfl
    case isFalse hrecord =>
      refine stage_of_unrecorded ?_
      rw [hjoined.2, hlogged₁.config]
      exact Bool.eq_false_iff.mpr hrecord
  have hlogged₂ : Logged timer cfg told s'.stage clock
      ({ s₁ with joined := some (joinedBy env s req) }.push
        (s₁.joinOutputs now (joinedBy env s req).hash req)) := by
    have hrecords : recordsOf (s₁.queue ++ s₁.joinOutputs now (joinedBy env s req).hash req) =
        recordsOf s₁.queue ++
          if cfg.record then [(now, .joinRoom cfg.app.app req.room req.peer)] else [] := by
      rw [recordsOf_append, recordsOf_joinOutputs, hlogged₁.config]
    rw [hstage]
    split at hrecords
    case isTrue hrecord =>
      rw [if_pos hrecord]
      exact hlogged₁.tell rfl rfl rfl hrecords hnow rfl fun hout => by cases hout
    case isFalse hrecord =>
      rw [if_neg hrecord]
      exact hlogged₁.same rfl rfl rfl (hrecords.trans (List.append_nil _))
  have hinside : cfg.record = true → s'.stage.isInside = true := by
    intro hrecord
    rw [hstage, if_pos hrecord]
    rfl
  have hlogged' := hlogged₂.broadcast hnow hinside hs'
  refine ⟨hlogged', ?_⟩
  intro hrecord index t room hget hroom
  have hafter : t.room = some (joinedBy env s req).hash := by
    refine rooms_broadcast (fun t => t.room = some (joinedBy env s req).hash) ?_ hs' hlogged' hrecord
      hget
    intro t t' ht'
    obtain ⟨-, hafter, -, -⟩ := EndpointRemoteTrack.onJoinRoom_eq_ok ht'
    exact hafter
  rw [inRoom, hjoined.1, ← hroom, hafter]
  rfl

/-- **Shutting down**: the tracks report their end before the leave is reported. -/
theorem Logged.onShutdown (h : Logged timer cfg told stage clock s) {now : Instant}
    {schedule : Schedule} (hnow : timer now = clock) (hup : s.shutdown = false)
    (hquiet : stage.isInside = false → ∀ index t, s.remoteTracks.get index = some t →
      cfg.record = true → t.shutdown = true ∨ t.room = none)
    (hjoined : ∀ joined, s.joined = some joined →
      if cfg.record then stage.step .leaveRoom = some .outside else stage = .outside)
    (hnone : s.joined = none → stage = .outside)
    (hs : s.onShutdown env now schedule = .ok s') : Diary timer cfg told clock s' := by
  rcases onShutdown_eq_ok hs with
    ⟨hdown, -⟩ | ⟨-, localTracks, remoteTracks, s₁, hlocal, hremote, hs₁, hcase⟩
  · rw [hdown] at hup
    cases hup
  · have hgroup : Logged timer cfg told stage clock { s with remoteTracks := remoteTracks } ∧
        (stage.isInside = false → ∀ index t, remoteTracks.get index = some t →
          cfg.record = true → t.shutdown = true ∨ t.room = none) := by
      refine TaskGroup.onEvents_invariant (fun group =>
        Logged timer cfg told stage clock { s with remoteTracks := group } ∧
          (stage.isInside = false → ∀ index t, group.get index = some t →
            cfg.record = true → t.shutdown = true ∨ t.room = none))
        ?_ ⟨h.same rfl rfl rfl rfl, hquiet⟩ hremote
      rintro group index t t' ⟨hlogged, hstill⟩ hget ht'
      obtain ⟨news, hrecords, hsilent⟩ := EndpointRemoteTrack.onShutdown_records ht'
      refine ⟨hlogged.setRemote hget hrecords hnow fun hne => ?_, ?_⟩
      · by_contra hout
        have hout' := Bool.eq_false_iff.mpr hout
        refine hne ?_
        cases hrecord : cfg.record with
        | false => exact hrecords.off ((hlogged.own index t hget).1.trans hrecord)
        | true => exact hsilent (hstill hout' index t hget hrecord)
      · intro hout j u hu hrecord
        by_cases hj : j = index
        · subst hj
          rw [TaskGroup.get_set_self] at hu
          cases hu
          exact .inl (EndpointRemoteTrack.onShutdown_eq_ok ht').1
        · rw [TaskGroup.get_set_ne _ _ hj] at hu
          exact hstill hout j u hu hrecord
    have hlogged₁ : Logged timer cfg told stage clock s₁ := by
      refine Logged.popAll ?_ hs₁
      exact hgroup.1.same rfl rfl rfl rfl
    obtain ⟨hgone, -⟩ := popAll_removes hs₁
      (fun index t' hget' => by
        obtain ⟨t, -, ht'⟩ := (TaskGroup.onAll_image hremote).exists_before hget'
        exact (EndpointRemoteTrack.onShutdown_eq_ok ht').1)
      (fun index t' hget' => by
        obtain ⟨t, -, ht'⟩ := (TaskGroup.onAll_image hlocal).exists_before hget'
        exact (EndpointLocalTrack.onShutdown_eq_ok ht').2.1)
    have hsame : s₁.joined = s.joined := (popAll_passes hs₁).joined
    rcases hcase with ⟨hnone₁, rfl⟩ | ⟨joined, hjoined₁, rfl⟩
    · have hstage := hnone (hsame.symm.trans hnone₁)
      subst hstage
      refine ⟨by rw [stage_of_none hnone₁]; exact hlogged₁, ?_⟩
      intro _ index t room hget
      exact absurd hget (hgone index t)
    · have hleft : ({ s₁ with joined := none }.push (s₁.leaveOutputs now joined)).joined = none := rfl
      refine ⟨?_, ?_⟩
      · rw [stage_of_none hleft]
        refine hlogged₁.leave hnow joined (fun index t hget => absurd hget (hgone index t))
          (hjoined joined (hsame.symm.trans hjoined₁)) rfl rfl rfl rfl
      · intro _ index t room hget
        exact absurd hget (hgone index t)

/-- A shutdown that is no disconnect. -/
theorem Diary.onShutdown (h : Diary timer cfg told clock s) {now : Instant} {schedule : Schedule}
    (hnow : timer now = clock) (hs : s.onShutdown env now schedule = .ok s') :
    Diary timer cfg told clock s' := by
  cases hup : s.shutdown with
  | true =>
    rcases onShutdown_eq_ok hs with ⟨-, rfl⟩ | ⟨hup', -⟩
    · exact h
    · rw [hup] at hup'
      cases hup'
  | false =>
    have hconfig := h.logged.config
    refine h.logged.onShutdown hnow hup ?_ ?_ stage_of_none hs
    · intro hout index t hget hrecord
      cases hroom : t.room with
      | none => exact .inr rfl
      | some room =>
        have hin := h.housed hrecord index t room hget hroom
        cases hjoined : s.joined with
        | none =>
          rw [inRoom, hjoined] at hin
          cases hin
        | some joined =>
          rw [stage_of_joined (by rw [hconfig, hrecord]) hjoined] at hout
          cases hout
    · intro joined hjoined
      split
      case isTrue hrecord =>
        rw [stage_of_joined (by rw [hconfig, hrecord]) hjoined]
        rfl
      case isFalse hrecord =>
        exact stage_of_unrecorded (by rw [hconfig]; exact Bool.eq_false_iff.mpr hrecord)

/-! ### Steps -/

theorem Diary.same (h : Diary timer cfg told clock s) (hconfig : s'.cfg = s.cfg)
    (hjoined : s'.joined = s.joined) (hids : s'.remoteTracksId = s.remoteTracksId)
    (htracks : s'.remoteTracks = s.remoteTracks)
    (hqueue : recordsOf s'.queue = recordsOf s.queue) : Diary timer cfg told clock s' := by
  have hstage : s'.stage = s.stage := by
    rw [stage_eq, stage_eq, hconfig, hjoined]
  refine ⟨by rw [hstage]; exact h.logged.same hconfig hids htracks hqueue, ?_⟩
  rw [htracks, inRoom, hjoined]
  exact h.housed

/-- Outputs that are not recorded. -/
theorem Diary.frame (h : Diary timer cfg told clock s) {outs : List InternalOutput}
    (hframe : Frame s s' outs) (hnone : recordsOf outs = []) : Diary timer cfg told clock s' := by
  refine h.same hframe.cfg hframe.joined hframe.remoteTracksId hframe.remoteTracks ?_
  rw [hframe.queue, recordsOf_append, hnone, List.append_nil]

theorem Diary.push (h : Diary timer cfg told clock s) {outs : List InternalOutput}
    (hnone : recordsOf outs = []) : Diary timer cfg told clock (s.push outs) :=
  h.frame (frame_push s outs) hnone

theorem Diary.toLocal (h : Diary timer cfg told clock s) {now : Instant} {index : Nat}
    {told' : LocalTrack.Input} (hs : s.toLocal env now index told' = .ok s') :
    Diary timer cfg told clock s' := by
  obtain ⟨group, -, rfl⟩ := toLocal_eq_ok hs
  exact h.same rfl rfl rfl rfl rfl

/-- A track in a room reports while the endpoint is inside. -/
theorem Diary.inside_of_room (h : Diary timer cfg told clock s) (hrecord : cfg.record = true)
    {index : Nat} {t : EndpointRemoteTrack} (hget : s.remoteTracks.get index = some t)
    (hroom : t.room.isSome = true) : s.stage.isInside = true := by
  obtain ⟨room, hsome⟩ := Option.isSome_iff_exists.mp hroom
  have hin := h.housed hrecord index t room hget hsome
  cases hjoined : s.joined with
  | none =>
    rw [inRoom, hjoined] at hin
    cases hin
  | some joined =>
    rw [stage_of_joined (by rw [h.logged.config, hrecord]) hjoined]
    rfl

theorem Diary.toRemote (h : Diary timer cfg told clock s) {now : Instant} {index : Nat}
    {told' : RemoteTrack.Input} (hnow : timer now = clock)
    (hroutine : EndpointRemoteTrack.isBroadcast told' = false)
    (hspeaks : cfg.record = true → ∀ t, s.remoteTracks.get index = some t →
      t.speaks told' = true → t.room.isSome = true)
    (hs : s.toRemote now index told' = .ok s') : Diary timer cfg told clock s' := by
  obtain ⟨group, hgroup, rfl⟩ := toRemote_eq_ok hs
  rcases TaskGroup.onEvent_eq_ok hgroup with ⟨-, rfl⟩ | ⟨t, t', hget, ht', rfl⟩
  · exact h.same rfl rfl rfl rfl rfl
  · obtain ⟨news, hrecords, hsilent⟩ := EndpointRemoteTrack.onEvent_records ht'
    have hroom' := (EndpointRemoteTrack.onEvent_reacts ht').room hroutine
    refine ⟨h.logged.setRemote hget hrecords hnow fun hne => ?_, ?_⟩
    · cases hrecord : cfg.record with
      | false =>
        exact absurd (hrecords.off ((h.logged.own index t hget).1.trans hrecord)) hne
      | true =>
        cases hspeak : t.speaks told' with
        | false => exact absurd (hsilent hspeak) hne
        | true => exact h.inside_of_room hrecord hget (hspeaks hrecord t hget hspeak)
    · intro hrecord j u room hu hroom
      change (s.remoteTracks.set index t').get j = some u at hu
      by_cases hj : j = index
      · subst hj
        rw [TaskGroup.get_set_self] at hu
        cases hu
        exact h.housed hrecord j t room hget (hroom'.symm.trans hroom)
      · rw [TaskGroup.get_set_ne _ _ hj] at hu
        exact h.housed hrecord j u room hu hroom

theorem Diary.poll (h : Diary timer cfg told clock s) {now : Instant} {schedule : Schedule}
    (hs : poll env now schedule s = .ok s') : Diary timer cfg told clock s' := by
  have hlogged := h.logged.poll hs
  have hjoined := (poll_passes hs).joined
  have hstage : s'.stage = s.stage := by
    rw [stage_eq, stage_eq, hjoined, hlogged.config, h.logged.config]
  refine ⟨by rw [hstage]; exact hlogged, ?_⟩
  intro hrecord index t room hget hroom
  obtain ⟨t₀, hget₀, hsame, -⟩ := (poll_same hs).remote index t hget
  rw [inRoom, hjoined]
  exact h.housed hrecord index t₀ room hget₀ (hsame.symm.trans hroom)

/-- A new track, under an id that no other track has. -/
theorem Diary.withRemote (h : Diary timer cfg told clock s) (hint : Nat) {track : RemoteTrackId}
    (name : TrackName) (trackMeta : TrackMeta)
    (hfresh : cfg.record = true → ∀ index t, s.remoteTracks.get index = some t → t.id ≠ track) :
    Diary timer cfg told clock (s.withRemote hint track name trackMeta) := by
  have hnew : ∀ index t, (s.withRemote hint track name trackMeta).remoteTracks.get index = some t →
      (index = s.remoteTracks.freeIndex hint ∧
        t = .new s.inRoom track name trackMeta s.cfg.record) ∨
      s.remoteTracks.get index = some t := by
    intro index t ht
    change (s.remoteTracks.addTask hint _).get index = some t at ht
    rw [TaskGroup.get_addTask] at ht
    split at ht
    case isTrue heq =>
      cases ht
      exact .inl ⟨heq, rfl⟩
    case isFalse => exact .inr ht
  refine ⟨⟨h.logged.config, h.logged.run, h.logged.sorted, h.logged.upTo, ?_, ?_, ?_⟩, ?_⟩
  · intro index t ht event hmem
    rcases hnew index t ht with ⟨-, rfl⟩ | hold
    · cases hmem
    · exact h.logged.waits index t hold event hmem
  · intro hout index t ht
    rcases hnew index t ht with ⟨-, rfl⟩ | hold
    · rfl
    · exact h.logged.calm hout index t hold
  · intro index t ht
    change t.record = cfg.record ∧ (cfg.record = true →
      (s.remoteTracksId.insert track (s.remoteTracks.freeIndex hint)).get1 t.id = some index)
    rw [IndexMap2d.get1_insert]
    rcases hnew index t ht with ⟨rfl, rfl⟩ | hold
    · exact ⟨congrArg EndpointCfg.record h.logged.config, fun _ => if_pos rfl⟩
    · obtain ⟨hrecord, hown⟩ := h.logged.own index t hold
      refine ⟨hrecord, fun hon => ?_⟩
      rw [if_neg (hfresh hon index t hold)]
      exact hown hon
  · intro hrecord index t room ht hroom
    rcases hnew index t ht with ⟨-, rfl⟩ | hold
    · exact hroom
    · exact h.housed hrecord index t room hold hroom

/-- The time moves on; what still waits in a track must be of the new time. -/
theorem Diary.advance (h : Diary timer cfg told clock s) {clock' : UInt64} (hle : clock ≤ clock')
    (hwaits : ∀ index t, s.remoteTracks.get index = some t → ∀ event ∈ t.records,
      timer event.1 = clock') : Diary timer cfg told clock' s := by
  refine ⟨⟨h.logged.config, h.logged.run, h.logged.sorted, ?_, ?_, h.logged.calm, h.logged.own⟩,
    h.housed⟩
  · intro event hmem
    exact UInt64.le_trans (h.logged.upTo event hmem) hle
  · intro index t hget event hmem
    exact ⟨(h.logged.waits index t hget event hmem).1, hwaits index t hget event hmem⟩

end

/-! ### When the events are in order -/

/-- The time of an input. -/
def Input.now : Input → Instant
  | .tick now | .shutdown now _ | .transport now _ _ _ | .rpc now _ _ _ | .cluster now _
  | .poll now _ => now

/-- Media comes only for a track that is in a room. -/
def mediaInRoom (s : EndpointInternal Selector) : Input → Bool
  | .transport _ _ _ (.remoteTrack track (.media _)) =>
      ((s.remoteTracksId.get1 track).bind s.remoteTracks.get).all fun t => t.room.isSome
  | _ => true

/-- At a disconnect no track of the endpoint is still running in a room or has an event waiting,
    and an endpoint that was shut down before is in no room. -/
def disconnectsIdle (s : EndpointInternal Selector) : Input → Bool
  | .transport _ _ _ (.state (.disconnected _)) =>
      (s.remoteTracks.all.all fun t => (t.shutdown || t.room.isNone) && t.records.isEmpty) &&
        (!s.shutdown || s.joined.isNone)
  | _ => true

/-- A remote track starts under an id that no remote track of the endpoint has. -/
def startsOnce (s : EndpointInternal Selector) : Input → Bool
  | .transport _ _ _ (.remoteTrack track (.started ..)) =>
      s.remoteTracks.all.all fun t => t.id != track
  | _ => true

/-- Whatever waits in a track when an input comes was queued in the same millisecond. -/
def nothingLate (timer : Instant → UInt64) (s : EndpointInternal Selector) : Input → Bool
  | .poll .. => true
  | input => s.remoteTracks.all.all fun t => t.records.all fun event => timer event.1 = timer input.now

/-- The input leaves the events of a recorded endpoint in order. -/
def recordable (timer : Instant → UInt64) (s : EndpointInternal Selector) (input : Input) : Bool :=
  !s.cfg.record ||
    (s.mediaInRoom input && s.disconnectsIdle input && s.startsOnce input &&
      s.nothingLate timer input)

section

variable {timer : Instant → UInt64} {cfg : EndpointCfg}
  {told : List (Instant × SessionRecordEvent)} {clock : UInt64}
  {s s' : EndpointInternal Selector} {env : Env Selector}

theorem Diary.forward (h : Diary timer cfg told clock s) (reqId : EndpointReqId)
    (res : RpcResult → EndpointRes) (room : Option ClusterRoomHash) (err : EndpointErrors)
    (control : ClusterEndpointControl) :
    Diary timer cfg told clock (s.forward reqId res room err control) := by
  cases room with
  | none => exact h.push rfl
  | some hash => exact h.push rfl

theorem Diary.onAudioMixerReq (h : Diary timer cfg told clock s) (reqId : EndpointReqId)
    (req : EndpointAudioMixerReq) : Diary timer cfg told clock (s.onAudioMixerReq reqId req) := by
  unfold EndpointInternal.onAudioMixerReq
  cases req with
  | attach sources => exact h.forward ..
  | detach sources => exact h.forward ..

theorem Diary.onMessageChannelReq (h : Diary timer cfg told clock s) (reqId : EndpointReqId)
    (label : MessageChannelLabel) (req : EndpointMessageChannelReq) :
    Diary timer cfg told clock (s.onMessageChannelReq reqId label req) := by
  unfold EndpointInternal.onMessageChannelReq
  cases req with
  | subscribe => exact h.forward ..
  | unsubscribe => exact h.forward ..
  | startPublish => exact h.forward ..
  | stopPublish => exact h.forward ..
  | publishData data =>
    cases s.joined with
    | none => exact h.push rfl
    | some joined => exact h.push rfl

/-- What the condition says for an endpoint that is recorded. -/
theorem recordable_of_record {input : Input} (hok : s.recordable timer input = true)
    (hrecord : s.cfg.record = true) :
    s.mediaInRoom input = true ∧ s.disconnectsIdle input = true ∧ s.startsOnce input = true ∧
      s.nothingLate timer input = true := by
  rw [recordable, hrecord] at hok
  simp only [Bool.not_true, Bool.false_or, Bool.and_eq_true] at hok
  exact ⟨hok.1.1.1, hok.1.1.2, hok.1.2, hok.2⟩

/-- **A disconnect** is reported first, so nothing of a track may follow. -/
theorem Diary.disconnected {now : Instant} {schedule : Schedule} {hint : Nat}
    {err : Option TransportError}
    (h : Diary timer cfg told (timer now) s)
    (hok : s.recordable timer (.transport now schedule hint (.state (.disconnected err))) = true)
    (hs : s.onTransportStateChanged env now schedule (.disconnected err) = .ok s') :
    Diary timer cfg told (timer now) s' := by
  let s₀ : EndpointInternal Selector := { s with state := some (now, .disconnected err) }
  have hs₀ : (s₀.push ([InternalOutput.peerEvent now (.disconnected 0 0)] ++
      s₀.recorded now .disconnected)).onShutdown env now schedule = .ok s' := hs
  have h₀ : Diary timer cfg told (timer now) s₀ := h.same rfl rfl rfl rfl rfl
  have hconfig : s₀.cfg = cfg := h.logged.config
  have hrecords : recordsOf ([InternalOutput.peerEvent now (.disconnected 0 0)] ++
      s₀.recorded now .disconnected) =
      if cfg.record then [(now, .disconnected)] else [] := by
    rw [recordsOf_append, recordsOf_recorded, hconfig]
    rfl
  split at hrecords
  case isFalse => exact (h₀.push hrecords).onShutdown rfl hs₀
  case isTrue hrecord =>
    obtain ⟨-, hidle, -, -⟩ := recordable_of_record hok (by rw [h.logged.config, hrecord])
    simp only [disconnectsIdle, Bool.and_eq_true, List.all_eq_true, Bool.or_eq_true,
      Bool.not_eq_true', Option.isNone_iff_eq_none, List.isEmpty_iff] at hidle
    obtain ⟨htracks, hroom⟩ := hidle
    have hcalm : ∀ index t, s₀.remoteTracks.get index = some t →
        (t.shutdown = true ∨ t.room = none) ∧ t.records = [] := by
      intro index t hget
      exact htracks t (TaskGroup.mem_all_iff.mpr ⟨index, hget⟩)
    -- what the endpoint has reported once it has reported the disconnect
    have htold : ∀ stage', s₀.stage.step .disconnected = some stage' →
        Logged timer cfg told stage' (timer now)
          (s₀.push ([InternalOutput.peerEvent now (.disconnected 0 0)] ++
          s₀.recorded now .disconnected)) := by
      intro stage' hstep
      refine h₀.logged.tell rfl rfl rfl ?_ rfl hstep fun _ index t hget => (hcalm index t hget).2
      rw [EndpointInternal.push, recordsOf_append, hrecords]
    cases hjoined : s₀.joined with
    | none =>
      have hlogged := htold .outside (by rw [stage_of_none hjoined]; rfl)
      cases hup : s₀.shutdown with
      | false =>
        refine hlogged.onShutdown rfl hup (fun _ index t hget _ => (hcalm index t hget).1) ?_
          (fun _ => rfl) hs₀
        intro joined hsome
        change s₀.joined = some joined at hsome
        rw [hjoined] at hsome
        cases hsome
      | true =>
        rcases onShutdown_eq_ok hs₀ with ⟨-, rfl⟩ | ⟨hup', -⟩
        · refine ⟨?_, h₀.housed⟩
          rwa [stage_of_none (s := s₀.push _) hjoined]
        · change s₀.shutdown = false at hup'
          rw [hup] at hup'
          cases hup'
    | some joined =>
      have hup : s₀.shutdown = false := by
        rcases hroom with hup | hnone
        · exact hup
        · change s₀.joined = none at hnone
          rw [hjoined] at hnone
          cases hnone
      have hlogged := htold .ending (by
        rw [stage_of_joined (by rw [hconfig, hrecord]) hjoined]
        rfl)
      refine hlogged.onShutdown rfl hup (fun _ index t hget _ => (hcalm index t hget).1) ?_ ?_ hs₀
      · intro joined' _
        rw [if_pos hrecord]
        rfl
      · intro hnone
        change s₀.joined = none at hnone
        rw [hjoined] at hnone
        cases hnone

theorem Diary.onTransportStateChanged {now : Instant} {schedule : Schedule} {hint : Nat}
    {state : TransportState} (h : Diary timer cfg told (timer now) s)
    (hok : s.recordable timer (.transport now schedule hint (.state state)) = true)
    (hs : s.onTransportStateChanged env now schedule state = .ok s') :
    Diary timer cfg told (timer now) s' := by
  have hstate : Diary timer cfg told (timer now) { s with state := some (now, state) } :=
    h.same rfl rfl rfl rfl rfl
  cases state with
  | new =>
    cases hs
    exact hstate
  | connecting ip =>
    cases hs
    exact hstate.push rfl
  | reconnecting ip =>
    cases hs
    exact hstate.push rfl
  | connectError err =>
    simp only [EndpointInternal.onTransportStateChanged] at hs
    split at hs
    · cases hs
    · exact (hstate.push rfl).onShutdown rfl hs
  | connected ip =>
    simp only [EndpointInternal.onTransportStateChanged] at hs
    split at hs
    · cases hs
    · split at hs
      · cases hs
        exact hstate.push rfl
      · refine Diary.joinRoom ?_ rfl hs
        refine hstate.same rfl rfl rfl rfl ?_
        change recordsOf (s.queue ++ [_]) = recordsOf s.queue
        rw [recordsOf_append]
        exact List.append_nil _
  | disconnected err => exact h.disconnected hok hs

theorem Diary.onTransportRemoteTrack {now : Instant} {schedule : Schedule} {hint : Nat}
    {track : RemoteTrackId} {event : RemoteTrackEvent} (h : Diary timer cfg told (timer now) s)
    (hok : s.recordable timer (.transport now schedule hint (.remoteTrack track event)) = true)
    (hs : s.onTransportRemoteTrack now hint track event = .ok s') :
    Diary timer cfg told (timer now) s' := by
  have hcareful := fun hrecord : cfg.record = true =>
    recordable_of_record hok (by rw [h.logged.config, hrecord])
  have hreach : event.needCreate = none →
      (cfg.record = true → ∀ index t, s.remoteTracksId.get1 track = some index →
        s.remoteTracks.get index = some t → t.speaks (.event event) = true →
        t.room.isSome = true) → Diary timer cfg told (timer now) s' := by
    intro hcreate hspeaks
    simp only [EndpointInternal.onTransportRemoteTrack, hcreate] at hs
    split at hs
    · cases hs
      exact h
    · rename_i index hindex
      exact h.toRemote rfl rfl (fun hrecord t hget => hspeaks hrecord index t hindex hget) hs
  cases event with
  | started name priority trackMeta =>
    simp only [EndpointInternal.onTransportRemoteTrack, RemoteTrackEvent.needCreate] at hs
    rw [IndexMap2d.get1_insert, if_pos rfl] at hs
    have hnew : Diary timer cfg told (timer now) (s.withRemote hint track name trackMeta) := by
      refine h.withRemote hint name trackMeta fun hrecord index t hget => ?_
      have hfresh := (hcareful hrecord).2.2.1
      simp only [startsOnce, List.all_eq_true] at hfresh
      have hne := hfresh t (TaskGroup.mem_all_iff.mpr ⟨index, hget⟩)
      simpa using hne
    have hspeaks : ∀ t : EndpointRemoteTrack,
        t.speaks (.event (.started name priority trackMeta)) = true → t.room.isSome = true :=
      fun _ hspeaks => hspeaks
    exact hnew.toRemote rfl rfl (fun _ t _ => hspeaks t) hs
  | paused => exact hreach rfl fun _ _ _ _ _ hspeaks => by cases hspeaks
  | resumed => exact hreach rfl fun _ _ _ _ _ hspeaks => by cases hspeaks
  | ended => exact hreach rfl fun _ _ _ _ _ hspeaks => hspeaks
  | media media =>
    refine hreach rfl fun hrecord index t hindex hget _ => ?_
    have hroom := (hcareful hrecord).1
    simp only [mediaInRoom, hindex, Option.bind_some, hget, Option.all_some] at hroom
    exact hroom

theorem Diary.onTransportRpc {now : Instant} {schedule : Schedule} {reqId : EndpointReqId}
    {req : EndpointReq} (h : Diary timer cfg told (timer now) s)
    (hs : s.onTransportRpc env now schedule reqId req = .ok s') :
    Diary timer cfg told (timer now) s' := by
  cases req with
  | joinRoom room peer peerMeta publish subscribe mixer =>
    simp only [EndpointInternal.onTransportRpc] at hs
    split at hs
    · cases hs
      exact h.same rfl rfl rfl rfl rfl
    · exact h.joinRoom rfl hs
  | leaveRoom =>
    simp only [EndpointInternal.onTransportRpc] at hs
    split at hs
    · cases hs
      refine h.same rfl rfl rfl rfl ?_
      change recordsOf (s.queue ++ [_]) = recordsOf s.queue
      rw [recordsOf_append]
      exact List.append_nil _
    · exact ((h.push rfl).leaveRoom rfl hs).1
  | subscribePeer peer =>
    cases hs
    exact h.forward ..
  | unsubscribePeer peer =>
    cases hs
    exact h.forward ..
  | remoteTrack track req =>
    simp only [EndpointInternal.onTransportRpc] at hs
    split at hs
    · cases hs
      exact h
    · exact h.toRemote rfl rfl (fun _ _ _ hspeaks => by cases hspeaks) hs
  | localTrack track req =>
    simp only [EndpointInternal.onTransportRpc] at hs
    split at hs
    · cases hs
      exact h
    · exact h.toLocal hs
  | audioMixer req =>
    cases hs
    exact h.onAudioMixerReq reqId req
  | messageChannel label req =>
    cases hs
    exact h.onMessageChannelReq reqId label req

theorem Diary.onClusterEvent {now : Instant} {event : ClusterEndpointEvent}
    (h : Diary timer cfg told (timer now) s) (hs : s.onClusterEvent env now event = .ok s') :
    Diary timer cfg told (timer now) s' := by
  cases event with
  | remoteTrack track event =>
    simp only [EndpointInternal.onClusterEvent] at hs
    split at hs
    · cases hs
      exact h
    · exact h.toRemote rfl rfl (fun _ _ _ hspeaks => by cases hspeaks) hs
  | localTrack track event =>
    simp only [EndpointInternal.onClusterEvent] at hs
    split at hs
    · cases hs
      exact h
    · exact h.toLocal hs
  | audioMixer event =>
    cases event with
    | slotSet slot peer track =>
      cases hs
      exact h.push rfl
    | slotUnset slot =>
      cases hs
      exact h.push rfl
  | peerJoined peer peerMeta =>
    cases hs
    exact h.push rfl
  | peerLeaved peer peerMeta =>
    cases hs
    exact h.push rfl
  | trackStarted peer track trackMeta =>
    cases hs
    exact h.push rfl
  | trackStopped peer track trackMeta =>
    cases hs
    exact h.push rfl
  | messageChannelData label peer data =>
    cases hs
    exact h.push rfl

theorem Diary.onTransportEvent {now : Instant} {schedule : Schedule} {hint : Nat}
    {event : TransportEvent} (h : Diary timer cfg told (timer now) s)
    (hok : s.recordable timer (.transport now schedule hint event) = true)
    (hs : s.onTransportEvent env now schedule hint event = .ok s') :
    Diary timer cfg told (timer now) s' := by
  cases event with
  | state state => exact h.onTransportStateChanged hok hs
  | remoteTrack track event => exact h.onTransportRemoteTrack hok hs
  | localTrack track event =>
    have hstep : s.onTransportLocalTrack env now hint track event = .ok s' := hs
    unfold EndpointInternal.onTransportLocalTrack at hstep
    cases hcreate : event.needCreate with
    | none =>
      simp only [hcreate] at hstep
      split at hstep
      · cases hstep
        exact h
      · exact h.toLocal hstep
    | some kind =>
      simp only [hcreate] at hstep
      have hnew : Diary timer cfg told (timer now) (withLocal env s hint track kind) :=
        h.same rfl rfl rfl rfl rfl
      have hpushed : Diary timer cfg told (timer now) ((withLocal env s hint track kind).push
          [.peerEvent now (.localTrack (Int32.ofNat track.toNat) kind.proto)]) := hnew.push rfl
      split at hstep
      · cases hstep
        exact hpushed
      · exact Diary.toLocal hpushed hstep
  | stats =>
    cases hs
    exact h
  | egressBitrateEstimate bitrate =>
    cases hs
    exact h.same rfl rfl rfl rfl rfl

/-- Events that wait in tracks do so at the time of the input. -/
theorem Diary.atInput {input : Input} (h : Diary timer cfg told clock s)
    (hok : s.recordable timer input = true) (hclock : clock ≤ timer input.now)
    (hpoll : ∀ now schedule, input ≠ .poll now schedule) :
    Diary timer cfg told (timer input.now) s := by
  refine h.advance hclock ?_
  intro index t hget event hmem
  cases hrecord : cfg.record with
  | false =>
    have hnone := h.logged.calm
      (by rw [stage_of_unrecorded (by rw [h.logged.config, hrecord])]; rfl) index t hget
    rw [hnone] at hmem
    cases hmem
  | true =>
    have hlate := (recordable_of_record hok (by rw [h.logged.config, hrecord])).2.2.2
    have hall : (s.remoteTracks.all.all fun t => t.records.all fun event =>
        timer event.1 = timer input.now) = true := by
      cases input with
      | poll now schedule => exact absurd rfl (hpoll now schedule)
      | _ => exact hlate
    have htrack := List.all_eq_true.mp hall t (TaskGroup.mem_all_iff.mpr ⟨index, hget⟩)
    simpa using List.all_eq_true.mp htrack event hmem

/-- **A step that meets the condition leaves the recorded events in order.** -/
theorem Diary.step {input : Input} (h : Diary timer cfg told clock s)
    (hok : s.recordable timer input = true) (hclock : clock ≤ timer input.now)
    (hs : s.step env input = .ok s') :
    ∃ clock', clock ≤ clock' ∧ clock' ≤ timer input.now ∧ Diary timer cfg told clock' s' := by
  cases input with
  | poll now schedule => exact ⟨clock, UInt64.le_refl _, hclock, h.poll hs⟩
  | tick now =>
    have hnow := h.atInput hok hclock fun _ _ heq => by cases heq
    obtain ⟨localTracks, -, rfl⟩ := onTick_eq_ok hs
    exact ⟨timer now, hclock, UInt64.le_refl _, hnow.same rfl rfl rfl rfl rfl⟩
  | shutdown now schedule =>
    have hnow := h.atInput hok hclock fun _ _ heq => by cases heq
    exact ⟨timer now, hclock, UInt64.le_refl _, hnow.onShutdown rfl hs⟩
  | transport now schedule hint event =>
    have hnow := h.atInput hok hclock fun _ _ heq => by cases heq
    exact ⟨timer now, hclock, UInt64.le_refl _, hnow.onTransportEvent hok hs⟩
  | rpc now schedule reqId req =>
    have hnow := h.atInput hok hclock fun _ _ heq => by cases heq
    exact ⟨timer now, hclock, UInt64.le_refl _, hnow.onTransportRpc hs⟩
  | cluster now event =>
    have hnow := h.atInput hok hclock fun _ _ heq => by cases heq
    exact ⟨timer now, hclock, UInt64.le_refl _, hnow.onClusterEvent hs⟩

end

end EndpointInternal

end MediaServer.Endpoint
