import MediaServer.Endpoint.Steps

/-!
# What the tracks hand to their endpoint

Most outputs of a track are passed on as they are.  The others are reports: the
answers to requests, and what the endpoint's bitrate allocator is told.  Only a
request makes a track report, and the start of a remote track in a room.
-/

namespace MediaServer.Endpoint

open Collections Runtime

variable {Selector : Type}

/-! ### Local tracks -/

namespace EndpointLocalTrack

open LocalTrack

/-- Outputs that are more than passed on: the endpoint answers a request with them or
    tells its allocator. -/
def isReport : Output → Bool
  | .event _ | .cluster .. | .peerEvent .. => false
  | .rpcRes .. | .bind .. | .updated .. | .unbind _ | .onResourceEmpty => true

/-- The reports that wait in a track's queue. -/
def reports (t : EndpointLocalTrack Selector) : List Output := t.queue.filter isReport

/-- The track is of the same id and kind and queued the reports `news`. -/
structure Reports (t t' : EndpointLocalTrack Selector) (news : List Output) : Prop where
  track : t'.track = t.track
  kind : t'.kind = t.kind
  reports : t'.reports = t.reports ++ news

theorem reports_of_queue {t t' : EndpointLocalTrack Selector} (htrack : t'.track = t.track)
    (hkind : t'.kind = t.kind) (hqueue : t'.queue = t.queue) : t.Reports t' [] :=
  ⟨htrack, hkind, by rw [reports, hqueue, List.append_nil]; rfl⟩

theorem Reports.refl (t : EndpointLocalTrack Selector) : t.Reports t [] :=
  reports_of_queue rfl rfl rfl

theorem Reports.trans {t t' t'' : EndpointLocalTrack Selector} {news news' : List Output}
    (h : t.Reports t' news) (h' : t'.Reports t'' news') : t.Reports t'' (news ++ news') := by
  refine ⟨h'.track.trans h.track, h'.kind.trans h.kind, ?_⟩
  rw [h'.reports, h.reports, List.append_assoc]

/-- A handler that reports nothing may follow. -/
theorem Reports.quiet {t t' t'' : EndpointLocalTrack Selector} {news : List Output}
    (h : t.Reports t' news) (h' : t'.Reports t'' []) : t.Reports t'' news := by
  have htrans := h.trans h'
  rwa [List.append_nil] at htrans

theorem reports_push (t : EndpointLocalTrack Selector) (outs : List Output) :
    t.Reports (t.push outs) (outs.filter isReport) :=
  ⟨rfl, rfl, List.filter_append ..⟩

/-- Outputs without a report may be queued at any time. -/
theorem Reports.push {t t' : EndpointLocalTrack Selector} {news : List Output}
    (h : t.Reports t' news) {outs : List Output} (houts : outs.filter isReport = []) :
    t.Reports (t'.push outs) news := by
  have hpush := h.trans (t'.reports_push outs)
  rwa [houts, List.append_nil] at hpush

theorem onTransportEvent_reports (t : EndpointLocalTrack Selector) (event : LocalTrackEvent) :
    t.Reports (t.onTransportEvent event) [] := by
  cases event with
  | requestKeyFrame =>
    unfold onTransportEvent
    cases t.room with
    | none => exact Reports.refl t
    | some room => exact (Reports.refl t).push rfl
  | _ => exact Reports.refl t

theorem onLeaveRoom_reports {t t' : EndpointLocalTrack Selector} {now : Instant}
    (h : t.onLeaveRoom now = .ok t') : t.Reports t' [] := by
  unfold onLeaveRoom at h
  cases hroom : t.room with
  | none => simp [hroom] at h
  | some room =>
    rw [hroom] at h
    cases h
    have hsame : t.Reports { t with room := none, bind := none } [] :=
      reports_of_queue rfl rfl rfl
    refine hsame.push ?_
    unfold leaveOutputs
    split
    · rfl
    · rfl

theorem onShutdown_reports {t t' : EndpointLocalTrack Selector} {now : Instant}
    (h : t.onShutdown now = .ok t') : t.Reports t' [] := by
  unfold onShutdown at h
  have hsame : t.Reports { t with shutdown := true } [] := reports_of_queue rfl rfl rfl
  split at h
  · cases h
    exact Reports.refl t
  · dsimp only at h
    split at h
    · exact hsame.quiet (onLeaveRoom_reports h)
    · cases h
      exact hsame

section Selecting

variable (api : SelectorApi Selector) (timestampMs : Instant → Nat)

theorem popSelector_reports (t : EndpointLocalTrack Selector) (nowMs : Nat) :
    t.Reports (t.popSelector api nowMs) [] := by
  unfold popSelector
  split
  · exact Reports.refl t
  · have hsame : t.Reports { t with selector := (api.popOutput t.selector nowMs).2 } [] :=
      reports_of_queue rfl rfl rfl
    refine hsame.push (List.filter_eq_nil_iff.mpr fun out hmem => ?_)
    rw [List.eq_of_mem_replicate hmem]
    exact Bool.false_ne_true

theorem activate_reports (t : EndpointLocalTrack Selector) (nowMs : Nat) :
    t.Reports (t.activate nowMs) [] := by
  unfold activate
  split
  · exact Reports.refl t
  · exact reports_of_queue rfl rfl rfl
  · refine Reports.push ?_ rfl
    exact reports_of_queue rfl rfl rfl

theorem detectVoice_reports (t : EndpointLocalTrack Selector) (nowMs : Nat) (pkt : MediaPacket) :
    t.Reports (t.detectVoice nowMs pkt) [] := by
  unfold detectVoice
  split
  · dsimp only
    split
    · refine Reports.push ?_ rfl
      exact reports_of_queue rfl rfl rfl
    · exact reports_of_queue rfl rfl rfl
  · exact Reports.refl t

theorem onClusterEvent_reports (t : EndpointLocalTrack Selector) (now : Instant)
    (event : ClusterLocalTrackEvent) :
    t.Reports (t.onClusterEvent api timestampMs now event) [] := by
  cases event with
  | relayChanged =>
    simp only [onClusterEvent]
    split
    · cases t.room with
      | none => exact Reports.refl t
      | some room => exact (Reports.refl t).push rfl
    · exact Reports.refl t
  | sourceChanged => exact reports_of_queue rfl rfl rfl
  | media channel pkt =>
    simp only [onClusterEvent]
    split
    · exact reports_of_queue rfl rfl rfl
    · refine Reports.push ?_ rfl
      refine Reports.quiet ?_ (detectVoice_reports _ _ _)
      refine Reports.quiet ?_ (activate_reports _ _)
      refine Reports.quiet ?_ (popSelector_reports api _ _)
      exact reports_of_queue rfl rfl rfl

theorem onBitrateAllocationAction_reports (t : EndpointLocalTrack Selector) (now : Instant)
    (action : EgressAction) :
    t.Reports (t.onBitrateAllocationAction api timestampMs now action) [] := by
  obtain ⟨bitrate⟩ := action
  simp only [onBitrateAllocationAction]
  have hset : t.Reports { t with
      selector := api.setTargetBitrate t.selector (timestampMs now) bitrate } [] :=
    reports_of_queue rfl rfl rfl
  have hpop := hset.quiet (popSelector_reports api _ (timestampMs now))
  split
  · exact hpop
  · exact hpop.push rfl

theorem onTick_reports (t : EndpointLocalTrack Selector) (now : Instant) :
    t.Reports (onTick api timestampMs now t) [] := by
  simp only [onTick]
  have hset : t.Reports { t with selector := api.onTick t.selector (timestampMs now) } [] :=
    reports_of_queue rfl rfl rfl
  refine (hset.quiet (popSelector_reports api _ (timestampMs now))).quiet ?_
  split
  · split
    · refine Reports.push ?_ rfl
      exact reports_of_queue rfl rfl rfl
    · exact Reports.refl _
  · exact Reports.refl _

/-- Whatever is not a request makes a track report nothing. -/
theorem onEvent_reports {t t' : EndpointLocalTrack Selector} {now : Instant} {input : Input}
    (h : onEvent api timestampMs now input t = .ok t')
    (hinput : ∀ reqId req, input ≠ .rpcReq reqId req) : t.Reports t' [] := by
  cases input with
  | joinRoom room =>
    obtain ⟨-, -, rfl⟩ := onJoinRoom_eq_ok h
    exact reports_of_queue rfl rfl rfl
  | leaveRoom => exact onLeaveRoom_reports h
  | cluster event =>
    cases h
    exact onClusterEvent_reports api timestampMs t now event
  | event event =>
    cases h
    exact t.onTransportEvent_reports event
  | rpcReq reqId req => exact absurd rfl (hinput reqId req)
  | bitrateAllocation action =>
    cases h
    exact onBitrateAllocationAction_reports api timestampMs t now action

/-- What a request makes a track report: its answer first, and then what became of the
    binding. -/
inductive Answers (t t' : EndpointLocalTrack Selector) (reqId : EndpointReqId) :
    EndpointLocalTrackReq → Prop
  | refuse {req res} (hbind : t'.bind.isSome = t.bind.isSome)
      (hreports : t.Reports t' [.rpcRes reqId res]) : Answers t t' reqId req
  | attach {source config res unbinds} (hroom : t.room.isSome = true)
      (hbind : t'.bind.isSome = true) (hunbinds : unbinds = [] ∨ unbinds = [.unbind t.kind])
      (hreports : t.Reports t'
        (.rpcRes reqId res :: unbinds ++ [Output.bind t.kind config.priority])) :
      Answers t t' reqId (.attach source config)
  | detach {res} (hbind : t'.bind = none)
      (hreports : t.Reports t' [.rpcRes reqId res, .unbind t.kind]) : Answers t t' reqId .detach
  | config {config res} (hbind : t'.bind = t.bind)
      (hreports : t.Reports t' [.rpcRes reqId res, .updated t.kind config.priority]) :
      Answers t t' reqId (.config config)

theorem unbindCurrent_reports (t : EndpointLocalTrack Selector) (room : ClusterRoomHash) :
    ∃ unbinds, (unbinds = [] ∨ unbinds = [.unbind t.kind]) ∧
      t.Reports (t.unbindCurrent room) unbinds := by
  unfold unbindCurrent
  cases hbind : t.bind with
  | none => exact ⟨[], Or.inl rfl, Reports.refl t⟩
  | some bound =>
    have hsame : t.Reports { t with bind := none } [] := reports_of_queue rfl rfl rfl
    exact ⟨_, Or.inr rfl, hsame.trans (reports_push _ _)⟩

theorem attach_answers (t : EndpointLocalTrack Selector) (now : Instant) (reqId : EndpointReqId)
    {room : ClusterRoomHash} (hroom : t.room = some room) (source : TrackSource)
    (config : EndpointLocalTrackConfig) :
    Answers t (t.attach api timestampMs now reqId room source config) reqId
      (.attach source config) := by
  have hanswer := t.reports_push [.rpcRes reqId (.attach (.ok ()))]
  obtain ⟨unbinds, hunbinds, hunbind⟩ :=
    unbindCurrent_reports (t.push [.rpcRes reqId (.attach (.ok ()))]) room
  replace hunbind := hanswer.trans hunbind
  simp only [attach]
  generalize (t.push [.rpcRes reqId (.attach (.ok ()))]).unbindCurrent room = u at hunbind ⊢
  have hbind : t.Reports { u with
      bind := some (source.peer, source.track, .waiting)
      selector := api.reset (api.setLimitLayer u.selector (timestampMs now) config.maxSpatial
        config.maxTemporal) } _ := hunbind.quiet (reports_of_queue rfl rfl rfl)
  have hlast := hbind.trans (reports_push _ [.bind u.kind config.priority,
    .cluster room (.subscribe source.peer source.track),
    .peerEvent now (.localTrackAttach u.trackNumber source.peer source.track)])
  rw [hunbind.kind] at hlast ⊢
  exact .attach (by rw [hroom]; rfl) rfl hunbinds hlast

theorem onRpcReq_answers (t : EndpointLocalTrack Selector) (now : Instant)
    (reqId : EndpointReqId) (req : EndpointLocalTrackReq) :
    Answers t (t.onRpcReq api timestampMs now reqId req) reqId req := by
  cases req with
  | attach source config =>
    simp only [onRpcReq]
    split
    · exact .refuse rfl (t.reports_push _)
    · cases hroom : t.room with
      | none => exact .refuse rfl (t.reports_push _)
      | some room =>
        exact attach_answers api timestampMs t now reqId hroom source config
  | detach =>
    simp only [onRpcReq]
    cases hroom : t.room with
    | none => exact .refuse rfl (t.reports_push _)
    | some room =>
      cases hbind : t.bind with
      | none => exact .refuse rfl (t.reports_push _)
      | some bound =>
        have hsame : t.Reports { t with room := some room, bind := none } [] :=
          reports_of_queue rfl rfl rfl
        exact .detach rfl (hsame.trans (reports_push _ [.rpcRes reqId (.detach (.ok ())),
          .unbind t.kind, .cluster room .unsubscribe,
          .peerEvent now (.localTrackDetach t.trackNumber bound.1 bound.2.1)]))
  | config config =>
    have hsame : t.Reports { t with
        selector := api.setLimitLayer t.selector (timestampMs now) config.maxSpatial
          config.maxTemporal } [] := reports_of_queue rfl rfl rfl
    exact .config rfl (hsame.trans (reports_push _ _))

end Selecting

end EndpointLocalTrack

/-! ### Remote tracks -/

namespace EndpointRemoteTrack

open RemoteTrack

/-- Outputs that are more than passed on: the endpoint answers a request with them or
    tells its allocator. -/
def isReport : Output → Bool
  | .event _ | .cluster .. | .peerEvent .. | .recordEvent .. => false
  | .rpcRes .. | .started .. | .update .. | .stopped _ => true

/-- The reports that wait in a track's queue. -/
def reports (t : EndpointRemoteTrack) : List Output := t.queue.filter isReport

/-- The track is of the same id and kind and queued the reports `news`. -/
structure Reports (t t' : EndpointRemoteTrack) (news : List Output) : Prop where
  id : t'.id = t.id
  kind : t'.trackMeta.kind = t.trackMeta.kind
  reports : t'.reports = t.reports ++ news

theorem reports_of_queue {t t' : EndpointRemoteTrack} (hid : t'.id = t.id)
    (hkind : t'.trackMeta.kind = t.trackMeta.kind) (hqueue : t'.queue = t.queue) :
    t.Reports t' [] :=
  ⟨hid, hkind, by rw [reports, hqueue, List.append_nil]; rfl⟩

theorem Reports.refl (t : EndpointRemoteTrack) : t.Reports t [] :=
  reports_of_queue rfl rfl rfl

theorem Reports.trans {t t' t'' : EndpointRemoteTrack} {news news' : List Output}
    (h : t.Reports t' news) (h' : t'.Reports t'' news') : t.Reports t'' (news ++ news') := by
  refine ⟨h'.id.trans h.id, h'.kind.trans h.kind, ?_⟩
  rw [h'.reports, h.reports, List.append_assoc]

theorem reports_push (t : EndpointRemoteTrack) (outs : List Output) :
    t.Reports (t.push outs) (outs.filter isReport) :=
  ⟨rfl, rfl, List.filter_append ..⟩

/-- Outputs without a report may be queued at any time. -/
theorem Reports.push {t t' : EndpointRemoteTrack} {news : List Output}
    (h : t.Reports t' news) {outs : List Output} (houts : outs.filter isReport = []) :
    t.Reports (t'.push outs) news := by
  have hpush := h.trans (t'.reports_push outs)
  rwa [houts, List.append_nil] at hpush

theorem filter_recorded (t : EndpointRemoteTrack) (now : Instant) (event : SessionRecordEvent) :
    (t.recorded now event).filter isReport = [] := by
  unfold recorded
  split
  · rfl
  · rfl

theorem filter_limitOutputs (t : EndpointRemoteTrack) : t.limitOutputs.filter isReport = [] := by
  unfold limitOutputs
  split
  · rfl
  · rfl

theorem onJoinRoom_reports {t t' : EndpointRemoteTrack} {now : Instant} {room : ClusterRoomHash}
    (h : t.onJoinRoom now room = .ok t') : t.Reports t' [] := by
  unfold onJoinRoom at h
  split at h
  · cases h
  · cases h
    have hsame : t.Reports { t with room := some room } [] := reports_of_queue rfl rfl rfl
    refine hsame.push ?_
    simp only [joinOutputs, List.filter_append, filter_recorded]
    rfl

theorem filter_endOutputs (t : EndpointRemoteTrack) (now : Instant) (room : ClusterRoomHash) :
    (t.endOutputs now room).filter isReport = [] := by
  simp only [endOutputs, List.filter_append, filter_recorded]
  rfl

theorem onLeaveRoom_reports {t t' : EndpointRemoteTrack} {now : Instant}
    (h : t.onLeaveRoom now = .ok t') : t.Reports t' [] := by
  unfold onLeaveRoom at h
  split at h
  · cases h
  · cases h
    have hsame : t.Reports { t with room := none } [] := reports_of_queue rfl rfl rfl
    exact hsame.push (filter_endOutputs t now _)

theorem onShutdown_reports {t t' : EndpointRemoteTrack} {now : Instant}
    (h : t.onShutdown now = .ok t') : t.Reports t' [] := by
  unfold onShutdown at h
  have hsame : t.Reports { t with shutdown := true } [] := reports_of_queue rfl rfl rfl
  split at h
  · cases h
    exact Reports.refl t
  · dsimp only at h
    split at h
    · exact hsame.trans (onLeaveRoom_reports h)
    · cases h
      exact hsame

theorem restoreLayers_reports (t : EndpointRemoteTrack) (media : MediaPacket) :
    t.Reports (t.restoreLayers media).1 [] := by
  simp only [restoreLayers]
  split
  · exact reports_of_queue rfl rfl rfl
  · exact Reports.refl t

/-- Only a start in a room is reported. -/
theorem onTransportEvent_reports (t : EndpointRemoteTrack) (now : Instant)
    (event : RemoteTrackEvent) :
    t.Reports (t.onTransportEvent now event)
      (match event, t.room with
        | .started _ priority _, some _ => [.started t.trackMeta.kind priority]
        | _, _ => []) := by
  cases event with
  | started name priority trackMeta =>
    simp only [onTransportEvent]
    cases t.room with
    | none => exact Reports.refl t
    | some room =>
      have hpush := t.reports_push ([.cluster room (.started name t.trackMeta),
          .started t.trackMeta.kind priority] ++
        t.recorded now (.trackStarted t.id name t.trackMeta) ++
        [.peerEvent now (.remoteTrackStarted name trackMeta.kind.proto)])
      rwa [List.filter_append, List.filter_append, filter_recorded] at hpush
  | paused => exact Reports.refl t
  | resumed => exact Reports.refl t
  | media media =>
    simp only [onTransportEvent]
    have hrecord := (t.restoreLayers_reports media).push
      (filter_recorded (t.restoreLayers media).1 now
        (.trackMedia (t.restoreLayers media).1.id (t.restoreLayers media).2))
    split
    · exact hrecord
    · exact hrecord.push rfl
  | ended =>
    simp only [onTransportEvent]
    cases t.room with
    | none => exact Reports.refl t
    | some room =>
      have hend := (Reports.refl t).push (filter_endOutputs t now room)
      exact hend.trans (reports_of_queue rfl rfl rfl)

theorem onClusterEvent_reports (t : EndpointRemoteTrack) (event : ClusterRemoteTrackEvent) :
    t.Reports (t.onClusterEvent event) [] := by
  cases event with
  | requestKeyFrame => exact t.reports_push _
  | limitBitrate lo hi =>
    simp only [onClusterEvent]
    have hlimit : t.Reports { t with clusterBitrateLimit := some (lo, hi) } [] :=
      reports_of_queue rfl rfl rfl
    split
    · exact hlimit.push (filter_limitOutputs _)
    · exact hlimit

theorem onBitrateAllocationAction_reports (t : EndpointRemoteTrack) (action : IngressAction) :
    t.Reports (t.onBitrateAllocationAction action) [] := by
  obtain ⟨bitrate⟩ := action
  have hset : t.Reports { t with allocateBitrate := some bitrate } [] :=
    reports_of_queue rfl rfl rfl
  exact hset.push (filter_limitOutputs _)

/-- A request is answered, and a new priority reported if the request was good. -/
theorem onRpcReq_reports (t : EndpointRemoteTrack) (reqId : EndpointReqId)
    (req : EndpointRemoteTrackReq) :
    ∃ res, t.Reports (t.onRpcReq reqId req) (.rpcRes reqId res ::
      match req with
      | .config config =>
          if config.priority = 0 then [] else [.update t.trackMeta.kind config.priority]) := by
  obtain ⟨config⟩ := req
  simp only [onRpcReq]
  split
  · exact ⟨_, t.reports_push _⟩
  · have hset : t.Reports { t with trackMeta.control := config.control } [] :=
      reports_of_queue rfl rfl rfl
    exact ⟨_, hset.trans (reports_push _ _)⟩

/-- Whatever is neither a request nor a start makes a track report nothing. -/
theorem onEvent_reports {t t' : EndpointRemoteTrack} {now : Instant} {input : Input}
    (h : onEvent now input t = .ok t') (hrpc : ∀ reqId req, input ≠ .rpcReq reqId req)
    (hstart : ∀ event, input = .event event → event.needCreate = none) : t.Reports t' [] := by
  cases input with
  | joinRoom room => exact onJoinRoom_reports h
  | leaveRoom => exact onLeaveRoom_reports h
  | cluster event =>
    cases h
    exact t.onClusterEvent_reports event
  | event event =>
    cases h
    have hreports := t.onTransportEvent_reports now event
    cases event with
    | started name priority trackMeta => cases hstart _ rfl
    | _ => exact hreports
  | rpcReq reqId req => exact absurd rfl (hrpc reqId req)
  | bitrateAllocation action =>
    cases h
    exact t.onBitrateAllocationAction_reports action

end EndpointRemoteTrack

end MediaServer.Endpoint
