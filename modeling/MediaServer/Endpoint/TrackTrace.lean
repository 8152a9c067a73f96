import MediaServer.Endpoint.TrackTables

/-!
# What an endpoint tells a room about its tracks

`traceStep` reads the controls of an endpoint one after another and accepts them as
long as every track is opened and closed in turn, carries media only while it is open
and is closed before its room is left.  The controls wait in three places, the queue
of the endpoint and the queues of its remote and local tracks; the invariant is that
what each track has still to say continues what was said for it so far.

A remote track that has ended keeps its room until it is removed.  Media, a second end
or a leave that reaches it before that is passed on to the room, and breaks the order.
-/

namespace MediaServer.Endpoint

open Collections Runtime Machine

variable {Selector : Type}

/-! ### The order of the controls -/

/-- Open or close one id in a list of open ids. -/
def setOpen {Id : Type} [DecidableEq Id] (ids : List Id) (id : Id) (isOpen : Bool) : List Id :=
  if isOpen then id :: ids.filter (· ≠ id) else ids.filter (· ≠ id)

theorem mem_setOpen {Id : Type} [DecidableEq Id] {ids : List Id} {id id' : Id} {isOpen : Bool} :
    id' ∈ setOpen ids id isOpen ↔ if id' = id then isOpen = true else id' ∈ ids := by
  unfold setOpen
  cases isOpen with
  | true => by_cases h : id' = id <;> simp [h]
  | false => by_cases h : id' = id <;> simp [h]

/-- The room an endpoint is in and its open tracks there, by its controls. -/
structure TraceState where
  room : Option ClusterRoomHash
  remotes : List RemoteTrackId
  locals : List LocalTrackId
deriving DecidableEq

/-- Whether a published track is open after a control, if the control is in order. -/
def remoteStep : Bool → ClusterRemoteTrackControl → Option Bool
  | false, .started .. => some true
  | true, .media _ => some true
  | true, .ended .. => some false
  | _, _ => none

/-- Whether a viewed track is open after a control, if the control is in order. -/
def localStep : Bool → ClusterLocalTrackControl → Option Bool
  | false, .subscribe .. => some true
  | true, .unsubscribe => some false
  | isOpen, .requestKeyFrame => some isOpen
  | isOpen, .desiredBitrate _ => some isOpen
  | _, _ => none

/-- One control of an endpoint, if it is in order. -/
def traceStep (st : TraceState) :
    ClusterRoomHash × ClusterEndpointControl → Option TraceState
  | (room, .join ..) => if st.room = none then some { st with room := some room } else none
  | (room, .leave) =>
      if st.room = some room ∧ st.remotes = [] ∧ st.locals = [] then
        some { st with room := none }
      else none
  | (room, .remoteTrack id control) =>
      if st.room = some room then
        (remoteStep (decide (id ∈ st.remotes)) control).map fun isOpen =>
          { st with remotes := setOpen st.remotes id isOpen }
      else none
  | (room, .localTrack id control) =>
      if st.room = some room then
        (localStep (decide (id ∈ st.locals)) control).map fun isOpen =>
          { st with locals := setOpen st.locals id isOpen }
      else none
  | _ => some st

/-- The state after a trace of controls, if all of them are in order. -/
def traceRun (trace : List (ClusterRoomHash × ClusterEndpointControl)) : Option TraceState :=
  trace.foldlM traceStep ⟨none, [], []⟩

theorem foldlM_traceStep_of_incidental {trace : List (ClusterRoomHash × ClusterEndpointControl)}
    (h : ∀ said ∈ trace, isIncidental said.2 = true) (st : TraceState) :
    trace.foldlM traceStep st = some st := by
  induction trace with
  | nil => rfl
  | cons said rest ih =>
    obtain ⟨room, control⟩ := said
    have hstep : traceStep st (room, control) = some st := by
      have hcontrol := h (room, control) (List.mem_cons_self ..)
      cases control with
      | join | leave | remoteTrack | localTrack => cases hcontrol
      | subscribePeer | unsubscribePeer | audioMixer | messageChannel => rfl
    rw [List.foldlM_cons, hstep]
    exact ih fun said hmem => h said (List.mem_cons_of_mem _ hmem)

/-! ### A remote track and the trace -/

/-- What a remote track has still to say is for the current room and continues its
    trace; after it, the track is open if it is in a room and has not ended. -/
structure RemoteOk (st : TraceState) (t : EndpointRemoteTrack) : Prop where
  plain : EndpointRemoteTrack.Plain t.queue
  room : ∀ room, t.room = some room → st.room = some room
  pending : ∀ said ∈ t.controls, st.room = some said.1
  run : (t.controls.map Prod.snd).foldlM remoteStep (decide (t.id ∈ st.remotes)) =
    some (t.room.isSome && !t.shutdown)

theorem RemoteOk.adds {st : TraceState} {t t' : EndpointRemoteTrack} (h : RemoteOk st t)
    {said : List (ClusterRoomHash × ClusterRemoteTrackControl)} (hadds : t.Adds t' said)
    (hid : t'.id = t.id) (hroom : ∀ room, t'.room = some room → st.room = some room)
    (hsaid : ∀ x ∈ said, st.room = some x.1)
    (hrun : (said.map Prod.snd).foldlM remoteStep (t.room.isSome && !t.shutdown) =
      some (t'.room.isSome && !t'.shutdown)) : RemoteOk st t' := by
  refine ⟨hadds.plain h.plain, hroom, ?_, ?_⟩
  · intro x hx
    rw [hadds.controls] at hx
    rcases List.mem_append.mp hx with hx | hx
    · exact h.pending x hx
    · exact hsaid x hx
  · rw [hadds.controls, List.map_append, List.foldlM_append, hid, h.run]
    exact hrun

/-- A reaction keeps the order, unless the track starts again, or has ended and is
    made to speak to its room. -/
theorem RemoteOk.reacts {st : TraceState} {t t' : EndpointRemoteTrack} (h : RemoteOk st t)
    {input : RemoteTrack.Input} (hreacts : t.Reacts t' input)
    (hjoin : ∀ room, input = .joinRoom room → st.room = some room)
    (hstart : ∀ name priority trackMeta, input ≠ .event (.started name priority trackMeta))
    (hup : (EndpointRemoteTrack.isBroadcast input = true ∨ input = .event .ended ∨
      ∃ media, input = .event (.media media)) → t.shutdown = false) : RemoteOk st t' := by
  cases hreacts with
  | silent _ hsilent =>
    refine h.adds hsilent.adds hsilent.id (by rw [hsilent.room]; exact h.room) (by simp) ?_
    rw [hsilent.room, hsilent.shutdown]
    rfl
  | @join room hbefore hafter hshutdown htells =>
    have hrunning := hup (Or.inl rfl)
    refine h.adds htells.adds htells.id ?_ (by simp [hjoin room rfl]) ?_
    · rw [hafter]
      exact fun room' heq => heq ▸ hjoin room rfl
    · rw [hbefore, hafter, hshutdown, hrunning]
      rfl
  | @leave room hbefore hafter hshutdown htells =>
    have hrunning := hup (Or.inl rfl)
    refine h.adds htells.adds htells.id (by simp [hafter]) (by simp [h.room room hbefore]) ?_
    rw [hbefore, hafter, hrunning]
    rfl
  | start => exact absurd rfl (hstart _ _ _)
  | @media room media sent hbefore hafter hshutdown htells =>
    have hrunning := hup (Or.inr (Or.inr ⟨media, rfl⟩))
    refine h.adds htells.adds htells.id ?_ (by simp [h.room room hbefore]) ?_
    · rw [hafter, ← hbefore]
      exact h.room
    · rw [hbefore, hafter, hshutdown, hrunning]
      rfl
  | @ended room hbefore hafter hshutdown htells =>
    have hrunning := hup (Or.inr (Or.inl rfl))
    refine h.adds htells.adds htells.id ?_ (by simp [h.room room hbefore]) ?_
    · rw [hafter, ← hbefore]
      exact h.room
    · rw [hbefore, hafter, hshutdown, hrunning]
      rfl

theorem RemoteOk.onShutdown {st : TraceState} {t t' : EndpointRemoteTrack} {now : Instant}
    (h : RemoteOk st t) (hok : t.onShutdown now = .ok t') :
    RemoteOk st t' ∧ t'.shutdown = true ∧ t'.id = t.id := by
  obtain ⟨hstop, ⟨-, rfl⟩ | ⟨-, hbefore, hid, hafter, hadds⟩ |
    ⟨hrunning, room, hbefore, hafter, htells⟩⟩ := EndpointRemoteTrack.onShutdown_eq_ok hok
  · exact ⟨h, hstop, rfl⟩
  · refine ⟨h.adds hadds hid (by simp [hafter]) (by simp) ?_, hstop, hid⟩
    rw [hbefore, hafter]
    rfl
  · refine ⟨h.adds htells.adds htells.id (by simp [hafter]) (by simp [h.room room hbefore]) ?_,
      hstop, htells.id⟩
    rw [hbefore, hafter, hrunning]
    rfl

/-- A new track that hears of its start. -/
theorem RemoteOk.start {st : TraceState} {t t' : EndpointRemoteTrack} {now : Instant}
    {name : TrackName} {priority : TrackPriority} {trackMeta : TrackMeta}
    (hqueue : t.queue = []) (hshutdown : t.shutdown = false) (hclosed : t.id ∉ st.remotes)
    (hroom : ∀ room, t.room = some room → st.room = some room)
    (hok : EndpointRemoteTrack.onEvent now (.event (.started name priority trackMeta)) t = .ok t') :
    RemoteOk st t' ∧ t'.shutdown = false := by
  have hnone : t.controls = [] := by
    rw [EndpointRemoteTrack.controls, hqueue]
    rfl
  have hplain : EndpointRemoteTrack.Plain t.queue := by
    rw [hqueue]
    simp [EndpointRemoteTrack.Plain]
  cases hreacts : t.room with
  | none =>
    cases hok
    have hsilent := EndpointRemoteTrack.onTransportEvent_outside now
      (.started name priority trackMeta) hreacts
    refine ⟨⟨hsilent.adds.plain hplain, ?_, ?_, ?_⟩, hsilent.shutdown.trans hshutdown⟩
    · rw [hsilent.room]
      exact hroom
    · rw [hsilent.adds.controls, hnone]
      simp
    · rw [hsilent.adds.controls, hnone, hsilent.id, hsilent.room, hreacts]
      simp [hclosed]
  | some room =>
    cases hok
    obtain ⟨hafter, hstop, htells⟩ :=
      EndpointRemoteTrack.onTransportEvent_started hreacts now name priority trackMeta
    refine ⟨⟨htells.adds.plain hplain, ?_, ?_, ?_⟩, hstop.trans hshutdown⟩
    · rw [hafter, ← hreacts]
      exact hroom
    · rw [htells.adds.controls, hnone]
      simp [hroom room hreacts]
    · rw [htells.adds.controls, hnone, htells.id, hafter, hstop, hshutdown]
      simp [hclosed, remoteStep]

theorem RemoteOk.closed_of_isEmpty {st : TraceState} {t : EndpointRemoteTrack}
    (h : RemoteOk st t) (hempty : t.isEmpty = true) : t.id ∉ st.remotes := by
  simp only [EndpointRemoteTrack.isEmpty, Bool.and_eq_true, List.isEmpty_iff] at hempty
  have hrun := h.run
  rw [EndpointRemoteTrack.controls, hempty.2, hempty.1] at hrun
  simpa [EndpointRemoteTrack.controlsOf] using hrun

/-! ### A local track and the trace -/

/-- What a local track has still to say is for the current room and continues its
    trace; after it, the track is open if it is bound to a source. -/
structure LocalOk (st : TraceState) (t : EndpointLocalTrack Selector) : Prop where
  plain : EndpointLocalTrack.Plain t.queue
  room : ∀ room, t.room = some room → st.room = some room
  pending : ∀ said ∈ t.controls, st.room = some said.1
  run : (t.controls.map Prod.snd).foldlM localStep (decide (t.track ∈ st.locals)) =
    some t.bind.isSome
  bound : t.bind.isSome = true → t.room.isSome = true
  stopped : t.shutdown = true → t.bind = none

theorem foldlM_localStep_of_feedback {said : List ClusterLocalTrackControl}
    (h : ∀ control ∈ said, EndpointLocalTrack.isFeedback control = true) (isOpen : Bool) :
    said.foldlM localStep isOpen = some isOpen := by
  induction said with
  | nil => rfl
  | cons control rest ih =>
    have hstep : localStep isOpen control = some isOpen := by
      have hfeedback := h control (List.mem_cons_self ..)
      cases control with
      | subscribe peer track => cases hfeedback
      | unsubscribe => cases hfeedback
      | requestKeyFrame => cases isOpen <;> rfl
      | desiredBitrate bitrate => cases isOpen <;> rfl
    rw [List.foldlM_cons, hstep]
    exact ih fun control hmem => h control (List.mem_cons_of_mem _ hmem)

/-- Closing whatever subscription there is, and saying so. -/
theorem foldlM_localStep_unsubscribe (room : ClusterRoomHash) (isOpen : Bool) :
    ((if isOpen then [(room, ClusterLocalTrackControl.unsubscribe)] else []).map
      Prod.snd).foldlM localStep isOpen = some false := by
  cases isOpen <;> rfl

theorem LocalOk.adds {st : TraceState} {t t' : EndpointLocalTrack Selector} (h : LocalOk st t)
    {said : List (ClusterRoomHash × ClusterLocalTrackControl)} (hadds : t.Adds t' said)
    (htrack : t'.track = t.track) (hroom : ∀ room, t'.room = some room → st.room = some room)
    (hsaid : ∀ x ∈ said, st.room = some x.1)
    (hrun : (said.map Prod.snd).foldlM localStep t.bind.isSome = some t'.bind.isSome)
    (hbound : t'.bind.isSome = true → t'.room.isSome = true)
    (hstopped : t'.shutdown = true → t'.bind = none) : LocalOk st t' := by
  refine ⟨hadds.plain h.plain, hroom, ?_, ?_, hbound, hstopped⟩
  · intro x hx
    rw [hadds.controls] at hx
    rcases List.mem_append.mp hx with hx | hx
    · exact h.pending x hx
    · exact hsaid x hx
  · rw [hadds.controls, List.map_append, List.foldlM_append, htrack, h.run]
    exact hrun

theorem LocalOk.keeps {st : TraceState} {t t' : EndpointLocalTrack Selector} (h : LocalOk st t)
    (hkeeps : t.Keeps t') : LocalOk st t' := by
  obtain ⟨extra, hadds, hextra⟩ := hkeeps.adds
  refine h.adds hadds hkeeps.track (by rw [hkeeps.room]; exact h.room)
    (fun x hx => h.room x.1 (hextra x hx).1) ?_ ?_ ?_
  · rw [hkeeps.bound]
    refine foldlM_localStep_of_feedback (fun control hmem => ?_) _
    obtain ⟨x, hx, rfl⟩ := List.mem_map.mp hmem
    exact (hextra x hx).2
  · rw [hkeeps.bound, hkeeps.room]
    exact h.bound
  · intro hstop
    have hnone := h.stopped (hkeeps.shutdown ▸ hstop)
    have hbound := hkeeps.bound
    rw [hnone] at hbound
    simpa using hbound

theorem LocalOk.reacts {st : TraceState} {t t' : EndpointLocalTrack Selector} (h : LocalOk st t)
    {input : LocalTrack.Input} (hreacts : t.Reacts t' input)
    (hjoin : ∀ room, input = .joinRoom room → st.room = some room)
    (hup : t.shutdown = false) : LocalOk st t' := by
  cases hreacts with
  | keep _ hkeeps => exact h.keeps hkeeps
  | @join room hbefore hbind heq =>
    subst heq
    refine h.adds (EndpointLocalTrack.adds_nothing rfl) rfl ?_ (by simp) rfl (fun _ => rfl)
      (fun _ => hbind)
    exact fun room' heq => heq ▸ hjoin room rfl
  | @leave room hbefore hafter htrack hbind hshutdown hadds =>
    refine h.adds hadds htrack (by simp [hafter]) (fun x hx => ?_) ?_ (by simp [hbind])
      (fun _ => hbind)
    · split at hx
      · obtain rfl := List.mem_singleton.mp hx
        exact h.room room hbefore
      · cases hx
    · rw [hbind]
      exact foldlM_localStep_unsubscribe room t.bind.isSome
  | @attach _ room peer track _ hbefore hafter htrack hshutdown hbind hadds =>
    refine h.adds hadds htrack (by rw [hafter, ← hbefore]; exact h.room) (fun x hx => ?_) ?_
      (by simp [hafter]) (fun hstop => ?_)
    · have hroom := h.room room hbefore
      rcases List.mem_append.mp hx with hx | hx
      · split at hx
        · obtain rfl := List.mem_singleton.mp hx
          exact hroom
        · cases hx
      · obtain rfl := List.mem_singleton.mp hx
        exact hroom
    · rw [List.map_append, List.foldlM_append, foldlM_localStep_unsubscribe, hbind]
      rfl
    · rw [hshutdown, hup] at hstop
      cases hstop
  | @detach _ room _ hbefore hafter htrack hshutdown hbound hbind hadds =>
    refine h.adds hadds htrack (by rw [hafter, ← hbefore]; exact h.room)
      (by simp [h.room room hbefore]) ?_ (by simp [hbind]) (fun _ => hbind)
    rw [hbind, hbound]
    rfl

theorem LocalOk.onShutdown {st : TraceState} {t t' : EndpointLocalTrack Selector} {now : Instant}
    (h : LocalOk st t) (hok : t.onShutdown now = .ok t') :
    LocalOk st t' ∧ t'.shutdown = true ∧ t'.track = t.track := by
  obtain ⟨htrack, hstop, ⟨-, rfl⟩ | ⟨-, hbefore, hafter, hbind, hadds⟩ |
    ⟨-, room, hbefore, hafter, hbind, hadds⟩⟩ := EndpointLocalTrack.onShutdown_eq_ok hok
  · exact ⟨h, hstop, rfl⟩
  · have hnone : t.bind = none := by
      cases hsome : t.bind with
      | none => rfl
      | some source =>
        have := h.bound (by rw [hsome]; rfl)
        rw [hbefore] at this
        cases this
    refine ⟨h.adds hadds htrack (by simp [hafter]) (by simp) ?_ (by simp [hbind, hnone])
      (fun _ => hbind.trans hnone), hstop, htrack⟩
    rw [hbind]
    rfl
  · refine ⟨h.adds hadds htrack (by simp [hafter]) (fun x hx => ?_) ?_ (by simp [hbind])
      (fun _ => hbind), hstop, htrack⟩
    · split at hx
      · obtain rfl := List.mem_singleton.mp hx
        exact h.room room hbefore
      · cases hx
    · rw [hbind]
      exact foldlM_localStep_unsubscribe room t.bind.isSome

theorem LocalOk.closed_of_isEmpty {st : TraceState} {t : EndpointLocalTrack Selector}
    (h : LocalOk st t) (hempty : t.isEmpty = true) : t.track ∉ st.locals := by
  simp only [EndpointLocalTrack.isEmpty, Bool.and_eq_true, List.isEmpty_iff] at hempty
  have hrun := h.run
  rw [EndpointLocalTrack.controls, hempty.2, h.stopped hempty.1] at hrun
  simpa [EndpointLocalTrack.controlsOf] using hrun

namespace EndpointInternal

/-- Everything the tracks have still to say continues the trace, and every open track
    is still there. -/
structure Agrees (st : TraceState) (s : EndpointInternal Selector) : Prop where
  remoteTable : Indexed s.remoteTracksId s.remoteTracks EndpointRemoteTrack.id
  localTable : Indexed s.localTracksId s.localTracks EndpointLocalTrack.track
  remote : ∀ index t, s.remoteTracks.get index = some t → RemoteOk st t
  local_ : ∀ index t, s.localTracks.get index = some t → LocalOk st t
  remotesLive : Live st.remotes s.remoteTracks EndpointRemoteTrack.id
  localsLive : Live st.locals s.localTracks EndpointLocalTrack.track

/-- The outputs queued between two states lead from one state of the trace to another. -/
def Speaks (st : TraceState) (s : EndpointInternal Selector) (st' : TraceState)
    (s' : EndpointInternal Selector) : Prop :=
  ∃ outs, s'.queue = s.queue ++ outs ∧ (controlsOf outs).foldlM traceStep st = some st'

theorem Speaks.trans {st st' st'' : TraceState} {s s' s'' : EndpointInternal Selector}
    (h : Speaks st s st' s') (h' : Speaks st' s' st'' s'') : Speaks st s st'' s'' := by
  obtain ⟨outs, hqueue, hrun⟩ := h
  obtain ⟨outs', hqueue', hrun'⟩ := h'
  refine ⟨outs ++ outs', by rw [hqueue', hqueue, List.append_assoc], ?_⟩
  rw [controlsOf_append, List.foldlM_append, hrun]
  exact hrun'

theorem speaks_nothing (st : TraceState) {s s' : EndpointInternal Selector}
    (h : s'.queue = s.queue) : Speaks st s st s' :=
  ⟨[], by rw [h, List.append_nil], rfl⟩

theorem Quiet.speaks {s s' : EndpointInternal Selector} (h : Quiet s s') (st : TraceState) :
    Speaks st s st s' := by
  obtain ⟨outs, hframe, hincidental⟩ := h
  exact ⟨outs, hframe.queue, foldlM_traceStep_of_incidental hincidental st⟩

theorem Agrees.frame {st : TraceState} {s s' : EndpointInternal Selector}
    {outs : List InternalOutput} (h : Agrees st s) (hframe : Frame s s' outs) :
    Agrees st s' := by
  obtain ⟨-, -, hlocalId, hremoteId, hlocal, hremote, -, -⟩ := hframe
  refine ⟨?_, ?_, ?_, ?_, ?_, ?_⟩
  · rw [hremoteId, hremote]
    exact h.remoteTable
  · rw [hlocalId, hlocal]
    exact h.localTable
  · rw [hremote]
    exact h.remote
  · rw [hlocal]
    exact h.local_
  · rw [hremote]
    exact h.remotesLive
  · rw [hlocal]
    exact h.localsLive

/-- A remote track is replaced by one that reacted to an input. -/
theorem Agrees.setRemote {st : TraceState} {s : EndpointInternal Selector} (h : Agrees st s)
    {index : Nat} {t t' : EndpointRemoteTrack} (ht : s.remoteTracks.get index = some t)
    (hid : t'.id = t.id) (hok : RemoteOk st t') :
    Agrees st { s with remoteTracks := s.remoteTracks.set index t' } := by
  refine ⟨h.remoteTable.set ht hid, h.localTable, fun j u hu => ?_, h.local_,
    h.remotesLive.set ht hid, h.localsLive⟩
  rcases TaskGroup.get_set_eq_some hu with ⟨-, rfl⟩ | ⟨-, hold⟩
  · exact hok
  · exact h.remote j u hold

theorem Agrees.setLocal {st : TraceState} {s : EndpointInternal Selector} (h : Agrees st s)
    {index : Nat} {t t' : EndpointLocalTrack Selector} (ht : s.localTracks.get index = some t)
    (htrack : t'.track = t.track) (hok : LocalOk st t') :
    Agrees st { s with localTracks := s.localTracks.set index t' } := by
  refine ⟨h.remoteTable, h.localTable.set ht htrack, h.remote, fun j u hu => ?_,
    h.remotesLive, h.localsLive.set ht htrack⟩
  rcases TaskGroup.get_set_eq_some hu with ⟨-, rfl⟩ | ⟨-, hold⟩
  · exact hok
  · exact h.local_ j u hold

/-! ### Turns -/

/-- A remote track hands its next output to the endpoint. -/
theorem Agrees.passRemote {st : TraceState} {s : EndpointInternal Selector} (h : Agrees st s)
    {index : Nat} {t : EndpointRemoteTrack} (ht : s.remoteTracks.get index = some t)
    {out : RemoteTrack.Output} {rest : List RemoteTrack.Output} (hqueue : t.queue = out :: rest) :
    ∃ st', (remoteSaid t.id out).foldlM traceStep st = some st' ∧ st'.room = st.room ∧
      Agrees st'
        { s with remoteTracks := s.remoteTracks.set index { t with queue := rest } } := by
  have hok := h.remote index t ht
  have hplain : EndpointRemoteTrack.Plain rest := fun kind hmem =>
    hok.plain kind (by rw [hqueue]; exact List.mem_cons_of_mem _ hmem)
  by_cases hcluster : ∃ room control, out = .cluster room control
  · obtain ⟨room, control, rfl⟩ := hcluster
    have hcontrols : t.controls = (room, control) ::
        ({ t with queue := rest } : EndpointRemoteTrack).controls := by
      rw [EndpointRemoteTrack.controls, hqueue]
      rfl
    have hrun := hok.run
    rw [hcontrols, List.map_cons, List.foldlM_cons] at hrun
    obtain ⟨isOpen, hstep, hrest⟩ := Option.bind_eq_some_iff.mp hrun
    have hroom := hok.pending (room, control) (by rw [hcontrols]; exact List.mem_cons_self ..)
    refine ⟨{ st with remotes := setOpen st.remotes t.id isOpen }, ?_, rfl,
      h.remoteTable.set ht rfl, h.localTable, fun j u hu => ?_, fun j u hu => ?_,
      fun id hmem => ?_, h.localsLive⟩
    · simp only [remoteSaid, List.foldlM_cons, List.foldlM_nil, traceStep, if_pos hroom, hstep]
      rfl
    · rcases TaskGroup.get_set_eq_some hu with ⟨-, rfl⟩ | ⟨hj, hold⟩
      · refine ⟨hplain, hok.room, fun said hmem => hok.pending said ?_, ?_⟩
        · rw [hcontrols]
          exact List.mem_cons_of_mem _ hmem
        · rw [← hrest]
          congr 1
          simp [mem_setOpen]
      · -- the trace of another track is not touched
        have hne : u.id ≠ t.id := fun heq => hj (h.remoteTable.index_eq hold ht heq)
        have hother := h.remote j u hold
        refine ⟨hother.plain, hother.room, hother.pending, ?_⟩
        rw [← hother.run]
        congr 1
        simp [mem_setOpen, hne]
    · exact ⟨(h.local_ j u hu).plain, (h.local_ j u hu).room, (h.local_ j u hu).pending,
        (h.local_ j u hu).run, (h.local_ j u hu).bound, (h.local_ j u hu).stopped⟩
    · rw [mem_setOpen] at hmem
      split at hmem
      · rename_i heq
        exact ⟨index, _, TaskGroup.get_set_self .., heq.symm⟩
      · exact h.remotesLive.set ht (show ({ t with queue := rest } : EndpointRemoteTrack).id = t.id from rfl)
          id hmem
  · have hsaid : remoteSaid t.id out = [] := by
      cases out with
      | cluster room control => exact absurd ⟨room, control, rfl⟩ hcluster
      | _ => rfl
    have hcontrols : ({ t with queue := rest } : EndpointRemoteTrack).controls = t.controls := by
      rw [EndpointRemoteTrack.controls, EndpointRemoteTrack.controls, hqueue]
      cases out with
      | cluster room control => exact absurd ⟨room, control, rfl⟩ hcluster
      | _ => rfl
    refine ⟨st, by rw [hsaid]; rfl, rfl, h.setRemote ht rfl ⟨hplain, hok.room, ?_, ?_⟩⟩
    · rw [hcontrols]
      exact hok.pending
    · rw [hcontrols]
      exact hok.run

/-- A local track hands its next output to the endpoint. -/
theorem Agrees.passLocal {st : TraceState} {s : EndpointInternal Selector} (h : Agrees st s)
    {index : Nat} {t : EndpointLocalTrack Selector} (ht : s.localTracks.get index = some t)
    {out : LocalTrack.Output} {rest : List LocalTrack.Output} (hqueue : t.queue = out :: rest) :
    ∃ st', (localSaid t.track out).foldlM traceStep st = some st' ∧ st'.room = st.room ∧
      Agrees st'
        { s with localTracks := s.localTracks.set index { t with queue := rest } } := by
  have hok := h.local_ index t ht
  have hplain : EndpointLocalTrack.Plain rest := fun hmem =>
    hok.plain (by rw [hqueue]; exact List.mem_cons_of_mem _ hmem)
  by_cases hcluster : ∃ room control, out = .cluster room control
  · obtain ⟨room, control, rfl⟩ := hcluster
    have hcontrols : t.controls = (room, control) ::
        ({ t with queue := rest } : EndpointLocalTrack Selector).controls := by
      rw [EndpointLocalTrack.controls, hqueue]
      rfl
    have hrun := hok.run
    rw [hcontrols, List.map_cons, List.foldlM_cons] at hrun
    obtain ⟨isOpen, hstep, hrest⟩ := Option.bind_eq_some_iff.mp hrun
    have hroom := hok.pending (room, control) (by rw [hcontrols]; exact List.mem_cons_self ..)
    refine ⟨{ st with locals := setOpen st.locals t.track isOpen }, ?_, rfl,
      h.remoteTable, h.localTable.set ht rfl, fun j u hu => ?_, fun j u hu => ?_,
      h.remotesLive, fun id hmem => ?_⟩
    · simp only [localSaid, List.foldlM_cons, List.foldlM_nil, traceStep, if_pos hroom, hstep]
      rfl
    · exact ⟨(h.remote j u hu).plain, (h.remote j u hu).room, (h.remote j u hu).pending,
        (h.remote j u hu).run⟩
    · rcases TaskGroup.get_set_eq_some hu with ⟨-, rfl⟩ | ⟨hj, hold⟩
      · refine ⟨hplain, hok.room, fun said hmem => hok.pending said ?_, ?_, hok.bound,
          hok.stopped⟩
        · rw [hcontrols]
          exact List.mem_cons_of_mem _ hmem
        · rw [← hrest]
          congr 1
          simp [mem_setOpen]
      · have hne : u.track ≠ t.track := fun heq => hj (h.localTable.index_eq hold ht heq)
        have hother := h.local_ j u hold
        refine ⟨hother.plain, hother.room, hother.pending, ?_, hother.bound, hother.stopped⟩
        rw [← hother.run]
        congr 1
        simp [mem_setOpen, hne]
    · rw [mem_setOpen] at hmem
      split at hmem
      · rename_i heq
        exact ⟨index, _, TaskGroup.get_set_self .., heq.symm⟩
      · exact h.localsLive.set ht
          (show ({ t with queue := rest } : EndpointLocalTrack Selector).track = t.track from rfl)
          id hmem
  · have hsaid : localSaid t.track out = [] := by
      cases out with
      | cluster room control => exact absurd ⟨room, control, rfl⟩ hcluster
      | _ => rfl
    have hcontrols :
        ({ t with queue := rest } : EndpointLocalTrack Selector).controls = t.controls := by
      rw [EndpointLocalTrack.controls, EndpointLocalTrack.controls, hqueue]
      cases out with
      | cluster room control => exact absurd ⟨room, control, rfl⟩ hcluster
      | _ => rfl
    refine ⟨st, by rw [hsaid]; rfl, rfl,
      h.setLocal ht rfl ⟨hplain, hok.room, ?_, ?_, hok.bound, hok.stopped⟩⟩
    · rw [hcontrols]
      exact hok.pending
    · rw [hcontrols]
      exact hok.run

theorem Agrees.turnRemote {st : TraceState} {s s' : EndpointInternal Selector} (h : Agrees st s)
    {index : Nat} (hpop : s.popRemoteTracks index = .ok s') :
    ∃ st', Speaks st s st' s' ∧ st'.room = st.room ∧ Agrees st' s' := by
  rcases popRemoteTracks_cases hpop with ⟨-, rfl⟩ | ⟨t, id, ht, hid, -, hcase⟩
  · exact ⟨st, speaks_nothing st rfl, rfl, h⟩
  · obtain rfl : id = t.id := Option.some.inj (hid.symm.trans (h.remoteTable index t ht).2)
    rcases hcase with ⟨out, rest, outs, hqueue, -, hframe, hsaid⟩ | ⟨hend, hgone, hframe⟩
    · obtain ⟨st', hrun, hroom, hagrees⟩ := h.passRemote ht hqueue
      exact ⟨st', ⟨outs, hframe.queue, by rw [hsaid]; exact hrun⟩, hroom, hagrees.frame hframe⟩
    · have hempty : t.isEmpty = true := by
        rcases hend with ⟨kind, hqueue⟩ | hempty
        · refine absurd ?_ ((h.remote index t ht).plain kind)
          rw [hqueue]
          exact List.mem_singleton.mpr rfl
        · exact hempty
      refine ⟨st, ⟨[], hframe.queue, rfl⟩, rfl, ?_, ?_, fun j u hu => ?_, fun j u hu => ?_, ?_, ?_⟩
      · rw [hframe.remoteTracksId]
        refine h.remoteTable.mono fun j u hu => ?_
        rw [hgone] at hu
        split at hu
        · cases hu
        · exact ⟨u, hu, rfl⟩
      · rw [hframe.localTracksId, hframe.localTracks]
        exact h.localTable
      · rw [hgone] at hu
        split at hu
        · cases hu
        · exact h.remote j u hu
      · rw [hframe.localTracks] at hu
        exact h.local_ j u hu
      · exact h.remotesLive.remove ht ((h.remote index t ht).closed_of_isEmpty hempty) hgone
      · rw [hframe.localTracks]
        exact h.localsLive

theorem Agrees.turnLocal {st : TraceState} {s s' : EndpointInternal Selector} (h : Agrees st s)
    {index : Nat} (hpop : s.popLocalTracks index = .ok s') :
    ∃ st', Speaks st s st' s' ∧ st'.room = st.room ∧ Agrees st' s' := by
  rcases popLocalTracks_cases hpop with ⟨-, rfl⟩ | ⟨t, id, ht, hid, -, hcase⟩
  · exact ⟨st, speaks_nothing st rfl, rfl, h⟩
  · obtain rfl : id = t.track := Option.some.inj (hid.symm.trans (h.localTable index t ht).2)
    rcases hcase with ⟨out, rest, outs, hqueue, -, hframe, hsaid⟩ | ⟨hend, hgone, hframe⟩
    · obtain ⟨st', hrun, hroom, hagrees⟩ := h.passLocal ht hqueue
      exact ⟨st', ⟨outs, hframe.queue, by rw [hsaid]; exact hrun⟩, hroom, hagrees.frame hframe⟩
    · have hempty : t.isEmpty = true := by
        rcases hend with hqueue | hempty
        · refine absurd ?_ (h.local_ index t ht).plain
          rw [hqueue]
          exact List.mem_singleton.mpr rfl
        · exact hempty
      refine ⟨st, ⟨[], hframe.queue, rfl⟩, rfl, ?_, ?_, fun j u hu => ?_, fun j u hu => ?_, ?_, ?_⟩
      · rw [hframe.remoteTracksId, hframe.remoteTracks]
        exact h.remoteTable
      · rw [hframe.localTracksId]
        exact h.localTable.remove1 ht hgone
      · rw [hframe.remoteTracks] at hu
        exact h.remote j u hu
      · rw [hgone] at hu
        split at hu
        · cases hu
        · exact h.local_ j u hu
      · rw [hframe.remoteTracks]
        exact h.remotesLive
      · exact h.localsLive.remove ht ((h.local_ index t ht).closed_of_isEmpty hempty) hgone

section

variable {env : Env Selector}

theorem Agrees.turnAllocator {st : TraceState} {s s' : EndpointInternal Selector}
    (h : Agrees st s) {now : Instant} (hpop : s.popBitrateAllocator env now = .ok s') :
    ∃ st', Speaks st s st' s' ∧ st'.room = st.room ∧ Agrees st' s' := by
  rcases popBitrateAllocator_cases hpop with ⟨-, rfl⟩ | ⟨allocator, -, -, hcase⟩
  · exact ⟨st, speaks_nothing st rfl, rfl, h⟩
  · have hframe : Frame s { s with bitrateAllocator := allocator } [] :=
      ⟨rfl, rfl, rfl, rfl, rfl, rfl, rfl, (List.append_nil _).symm⟩
    have hagrees := h.frame hframe
    rcases hcase with ⟨outs, hframe', hnone⟩ | ⟨index, action, hto⟩ | ⟨index, action, hto⟩
    · exact ⟨st, ⟨outs, hframe'.queue, by rw [hnone]; rfl⟩, rfl, hagrees.frame hframe'⟩
    · obtain ⟨group, hgroup, rfl⟩ := toRemote_eq_ok hto
      refine ⟨st, speaks_nothing st rfl, rfl, ?_⟩
      rcases TaskGroup.onEvent_eq_ok hgroup with ⟨-, rfl⟩ | ⟨t, t', ht, ht', rfl⟩
      · exact hagrees
      · have hreacts := EndpointRemoteTrack.onEvent_reacts ht'
        refine hagrees.setRemote ht hreacts.id ((h.remote index t ht).reacts hreacts ?_ ?_ ?_)
        · simp
        · simp
        · rintro (hbroadcast | hended | ⟨media, hmedia⟩)
          · cases hbroadcast
          · cases hended
          · cases hmedia
    · obtain ⟨group, hgroup, rfl⟩ := toLocal_eq_ok hto
      refine ⟨st, speaks_nothing st rfl, rfl, ?_⟩
      rcases TaskGroup.onEvent_eq_ok hgroup with ⟨-, rfl⟩ | ⟨t, t', ht, ht', rfl⟩
      · exact hagrees
      · cases ht'
        have hkeeps := EndpointLocalTrack.onBitrateAllocationAction_keeps env.selector
          env.timestampMs t now action
        exact hagrees.setLocal ht hkeeps.track ((h.local_ index t ht).keeps hkeeps)

/-- **A turn keeps the controls in order**, whatever it hands on or removes. -/
theorem Agrees.turn {st : TraceState} {s s' : EndpointInternal Selector} (h : Agrees st s)
    {now : Instant} {pick : Pick} (hpop : s.popTask env now pick = .ok s') :
    ∃ st', Speaks st s st' s' ∧ st'.room = st.room ∧ Agrees st' s' := by
  cases pick with
  | bitrateAllocator => exact h.turnAllocator hpop
  | localTracks index => exact h.turnLocal hpop
  | remoteTracks index => exact h.turnRemote hpop

/-- What has been reached from a state of the trace and of the endpoint by turns. -/
def Continues (st : TraceState) (s s' : EndpointInternal Selector) : Prop :=
  ∃ st', Speaks st s st' s' ∧ st'.room = st.room ∧ Agrees st' s'

theorem Continues.turn {st : TraceState} {s s₁ s₂ : EndpointInternal Selector} {now : Instant}
    {pick : Pick} (h : Continues st s s₁) (hpop : s₁.popTask env now pick = .ok s₂) :
    Continues st s s₂ := by
  obtain ⟨st₁, hspeaks, hroom, hagrees⟩ := h
  obtain ⟨st₂, hspeaks', hroom', hagrees'⟩ := hagrees.turn hpop
  exact ⟨st₂, hspeaks.trans hspeaks', hroom'.trans hroom, hagrees'⟩

theorem Agrees.popAll {st : TraceState} {s s' : EndpointInternal Selector} (h : Agrees st s)
    {now : Instant} {schedule : Schedule}
    (hpop : EndpointInternal.popAll env now schedule s = .ok s') : Continues st s s' :=
  popAll_invariant (Continues st s) (fun _ _ _ hcont hturn => hcont.turn hturn)
    ⟨st, speaks_nothing st rfl, rfl, h⟩ hpop

theorem Agrees.poll {st : TraceState} {s s' : EndpointInternal Selector} (h : Agrees st s)
    {now : Instant} {schedule : Schedule}
    (hpop : EndpointInternal.poll env now schedule s = .ok s') : Continues st s s' :=
  poll_invariant (Continues st s) (fun _ _ _ hcont hturn => hcont.turn hturn)
    ⟨st, speaks_nothing st rfl, rfl, h⟩ hpop

/-! ### Broadcasts -/

/-- A group of remote tracks that agree with the trace, none of which has ended. -/
structure RemotesOk (st : TraceState) (table : IndexMap2d RemoteTrackId Nat)
    (g : TaskGroup EndpointRemoteTrack) : Prop where
  table : Indexed table g EndpointRemoteTrack.id
  each : ∀ index t, g.get index = some t → RemoteOk st t ∧ t.shutdown = false
  live : Live st.remotes g EndpointRemoteTrack.id

/-- A group of local tracks that agree with the trace and have not been told to stop. -/
structure LocalsOk (st : TraceState) (table : IndexMap2d LocalTrackId Nat)
    (g : TaskGroup (EndpointLocalTrack Selector)) : Prop where
  table : Indexed table g EndpointLocalTrack.track
  each : ∀ index t, g.get index = some t → LocalOk st t ∧ t.shutdown = false
  live : Live st.locals g EndpointLocalTrack.track

theorem RemotesOk.onEvents {st : TraceState} {table : IndexMap2d RemoteTrackId Nat}
    {g g' : TaskGroup EndpointRemoteTrack} {now : Instant} {told : RemoteTrack.Input}
    {indexes : List Nat} (h : RemotesOk st table g)
    (htold : EndpointRemoteTrack.isBroadcast told = true)
    (hjoin : ∀ room, told = .joinRoom room → st.room = some room)
    (hok : TaskGroup.onEvents (EndpointRemoteTrack.onEvent now told) indexes g = .ok g') :
    RemotesOk st table g' := by
  refine TaskGroup.onEvents_invariant (RemotesOk st table) ?_ h hok
  intro g index t t' hg ht ht'
  have hreacts := EndpointRemoteTrack.onEvent_reacts ht'
  obtain ⟨hok, hup⟩ := hg.each index t ht
  refine ⟨hg.table.set ht hreacts.id, fun j u hu => ?_, hg.live.set ht hreacts.id⟩
  rcases TaskGroup.get_set_eq_some hu with ⟨-, rfl⟩ | ⟨-, hold⟩
  · refine ⟨hok.reacts hreacts hjoin ?_ fun _ => hup, ?_⟩
    · rintro name priority trackMeta rfl
      cases htold
    · cases hreacts with
      | join _ _ hshutdown | leave _ _ hshutdown => exact hshutdown.trans hup
      | silent hinput =>
        rw [htold] at hinput
        cases hinput
      | start | media | ended => cases htold
  · exact hg.each j u hold

theorem LocalsOk.onEvents {st : TraceState} {table : IndexMap2d LocalTrackId Nat}
    {g g' : TaskGroup (EndpointLocalTrack Selector)} {now : Instant} {told : LocalTrack.Input}
    {indexes : List Nat} (h : LocalsOk st table g)
    (hjoin : ∀ room, told = .joinRoom room → st.room = some room)
    (hok : TaskGroup.onEvents
      (EndpointLocalTrack.onEvent env.selector env.timestampMs now told) indexes g = .ok g') :
    LocalsOk st table g' := by
  refine TaskGroup.onEvents_invariant (LocalsOk st table) ?_ h hok
  intro g index t t' hg ht ht'
  have hreacts := EndpointLocalTrack.onEvent_reacts _ _ ht'
  obtain ⟨hok, hup⟩ := hg.each index t ht
  refine ⟨hg.table.set ht hreacts.track, fun j u hu => ?_, hg.live.set ht hreacts.track⟩
  rcases TaskGroup.get_set_eq_some hu with ⟨-, rfl⟩ | ⟨-, hold⟩
  · exact ⟨hok.reacts hreacts hjoin hup, hreacts.shutdown.trans hup⟩
  · exact hg.each j u hold

theorem Agrees.remotesOk {st : TraceState} {s : EndpointInternal Selector} (h : Agrees st s)
    (hup : RemotesUp s) : RemotesOk st s.remoteTracksId s.remoteTracks :=
  ⟨h.remoteTable, fun index t ht => ⟨h.remote index t ht, hup index t ht⟩, h.remotesLive⟩

/-- No local track has been told to stop. -/
def LocalsUp (s : EndpointInternal Selector) : Prop :=
  ∀ index t, s.localTracks.get index = some t → t.shutdown = false

theorem Agrees.localsOk {st : TraceState} {s : EndpointInternal Selector} (h : Agrees st s)
    (hup : LocalsUp s) : LocalsOk st s.localTracksId s.localTracks :=
  ⟨h.localTable, fun index t ht => ⟨h.local_ index t ht, hup index t ht⟩, h.localsLive⟩

/-- A broadcast among running tracks keeps the controls in order. -/
theorem Agrees.broadcast {st : TraceState} {s s' : EndpointInternal Selector} (h : Agrees st s)
    (hremotes : RemotesUp s) (hlocals : LocalsUp s) {now : Instant}
    {toLocals : LocalTrack.Input} {toRemotes : RemoteTrack.Input}
    (htold : EndpointRemoteTrack.isBroadcast toRemotes = true)
    (hlocalJoin : ∀ room, toLocals = .joinRoom room → st.room = some room)
    (hremoteJoin : ∀ room, toRemotes = .joinRoom room → st.room = some room)
    (hok : s.broadcast env now toLocals toRemotes = .ok s') :
    Agrees st s' ∧ RemotesUp s' ∧ LocalsUp s' := by
  obtain ⟨localTracks, remoteTracks, hlocal, hremote, rfl⟩ := broadcast_eq_ok hok
  have hL := (h.localsOk hlocals).onEvents hlocalJoin hlocal
  have hR := (h.remotesOk hremotes).onEvents htold hremoteJoin hremote
  refine ⟨⟨hR.table, hL.table, ?_, ?_, hR.live, hL.live⟩, ?_, ?_⟩
  · exact fun index t ht => (hR.each index t ht).1
  · exact fun index t ht => (hL.each index t ht).1
  · exact fun index t ht => (hR.each index t ht).2
  · exact fun index t ht => (hL.each index t ht).2

/-- After the broadcast of a leave no track is in a room. -/
theorem Agrees.broadcastLeave_rooms {st : TraceState} {s s' : EndpointInternal Selector}
    {now : Instant} (h : Agrees st s')
    (hok : s.broadcast env now .leaveRoom .leaveRoom = .ok s') :
    (∀ index t, s'.remoteTracks.get index = some t → t.room = none) ∧
      ∀ index t, s'.localTracks.get index = some t → t.room = none := by
  obtain ⟨localTracks, remoteTracks, hlocal, hremote, rfl⟩ := broadcast_eq_ok hok
  refine ⟨fun index t ht => ?_, fun index t ht => ?_⟩
  · refine TaskGroup.onEvents_establishes (fun t => t.room = none) (fun t t' ht' => ?_) hremote
      (h.remoteTable.mem_pairs ht) ht
    cases EndpointRemoteTrack.onEvent_reacts ht' with
    | leave _ hafter => exact hafter
    | silent hinput => cases hinput
  · refine TaskGroup.onEvents_establishes (fun t => t.room = none) (fun t t' ht' => ?_) hlocal
      (h.localTable.mem_pairs ht) ht
    cases EndpointLocalTrack.onEvent_reacts _ _ ht' with
    | leave _ hafter => exact hafter
    | keep hinput | attach hinput | detach hinput => cases hinput

/-- Once all tracks are outside of rooms and have nothing left to say, all are closed. -/
theorem Agrees.closed {st : TraceState} {s : EndpointInternal Selector} (h : Agrees st s)
    (hquiet : s.Quiescent)
    (hremote : ∀ index t, s.remoteTracks.get index = some t → t.room = none)
    (hlocal : ∀ index t, s.localTracks.get index = some t → t.room = none) :
    st.remotes = [] ∧ st.locals = [] ∧ Agrees { st with room := none } s := by
  have hnoRemote : ∀ index t, s.remoteTracks.get index = some t → t.controls = [] := by
    intro index t ht
    rw [EndpointRemoteTrack.controls, show t.queue = [] from (hquiet.remoteTracks index t ht).1]
    rfl
  have hnoLocal : ∀ index t, s.localTracks.get index = some t → t.controls = [] := by
    intro index t ht
    rw [EndpointLocalTrack.controls, show t.queue = [] from (hquiet.localTracks index t ht).1]
    rfl
  refine ⟨?_, ?_, h.remoteTable, h.localTable, fun index t ht => ?_, fun index t ht => ?_,
    h.remotesLive, h.localsLive⟩
  · refine List.eq_nil_iff_forall_not_mem.mpr fun id hmem => ?_
    obtain ⟨index, t, ht, rfl⟩ := h.remotesLive id hmem
    have hrun := (h.remote index t ht).run
    rw [hnoRemote index t ht, hremote index t ht] at hrun
    simp [hmem] at hrun
  · refine List.eq_nil_iff_forall_not_mem.mpr fun id hmem => ?_
    obtain ⟨index, t, ht, rfl⟩ := h.localsLive id hmem
    have hok := h.local_ index t ht
    have hrun := hok.run
    have hbind : t.bind.isSome = false := by
      cases hsome : t.bind.isSome with
      | false => rfl
      | true =>
        have := hok.bound hsome
        rw [hlocal index t ht] at this
        cases this
    rw [hnoLocal index t ht, hbind] at hrun
    simp [hmem] at hrun
  · have hok := h.remote index t ht
    refine ⟨hok.plain, ?_, ?_, hok.run⟩
    · rw [hremote index t ht]
      simp
    · rw [hnoRemote index t ht]
      simp
  · have hok := h.local_ index t ht
    refine ⟨hok.plain, ?_, ?_, hok.run, hok.bound, hok.stopped⟩
    · rw [hlocal index t ht]
      simp
    · rw [hnoLocal index t ht]
      simp

/-! ### Operations -/

/-- Between inputs, the room of the trace is the endpoint's, a remote track has ended only
    in a room, and no local track has been told to stop. -/
structure TraceInv (st : TraceState) (s : EndpointInternal Selector) : Prop where
  agrees : Agrees st s
  room : st.room = s.inRoom
  ended : ∀ index t, s.remoteTracks.get index = some t → t.shutdown = true → t.room.isSome = true
  localsUp : LocalsUp s

theorem TraceInv.quiet {st : TraceState} {s s' : EndpointInternal Selector} (h : TraceInv st s)
    (hquiet : Quiet s s') : TraceInv st s' := by
  obtain ⟨outs, hframe, -⟩ := hquiet
  refine ⟨h.agrees.frame hframe, ?_, ?_, ?_⟩
  · rw [inRoom, hframe.joined]
    exact h.room
  · rw [hframe.remoteTracks]
    exact h.ended
  · rw [LocalsUp, hframe.localTracks]
    exact h.localsUp

/-- Outside of rooms no remote track has ended. -/
theorem TraceInv.remotesUp {st : TraceState} {s : EndpointInternal Selector} (h : TraceInv st s)
    (hnone : s.joined = none) : RemotesUp s := by
  intro index t ht
  cases hshutdown : t.shutdown with
  | false => rfl
  | true =>
    obtain ⟨room, hroom⟩ := Option.isSome_iff_exists.mp (h.ended index t ht hshutdown)
    have := (h.agrees.remote index t ht).room room hroom
    rw [h.room, inRoom, hnone] at this
    cases this

theorem SameTracks.localsUp {s s' : EndpointInternal Selector} (h : SameTracks s s')
    (hup : LocalsUp s) : LocalsUp s' := by
  intro index t' ht'
  obtain ⟨t, ht, -, hshutdown, -⟩ := h.local_ index t' ht'
  exact hshutdown.trans (hup index t ht)

theorem TraceInv.leaveRoom {st : TraceState} {s s' : EndpointInternal Selector}
    (h : TraceInv st s) {now : Instant} {schedule : Schedule}
    (hup : s.joined.isSome = true → RemotesUp s)
    (hok : s.leaveRoom env now schedule = .ok s') :
    ∃ st', Speaks st s st' s' ∧ TraceInv st' s' ∧ s'.joined = none := by
  rcases leaveRoom_eq_ok hok with ⟨hnone, rfl⟩ | ⟨joined, s₁, s₂, hjoined, hs₁, hs₂, rfl⟩
  · exact ⟨st, speaks_nothing st rfl, h, hnone⟩
  · have hagrees : Agrees st { s with joined := none } :=
      ⟨h.agrees.remoteTable, h.agrees.localTable, h.agrees.remote, h.agrees.local_,
        h.agrees.remotesLive, h.agrees.localsLive⟩
    obtain ⟨hagrees₁, hremotes₁, hlocals₁⟩ := hagrees.broadcast (hup (by rw [hjoined]; rfl))
      h.localsUp rfl (by simp) (by simp) hs₁
    obtain ⟨hremoteRooms, hlocalRooms⟩ := hagrees₁.broadcastLeave_rooms hs₁
    obtain ⟨st₂, hspeaks₂, hroom₂, hagrees₂⟩ := hagrees₁.popAll hs₂
    have hsame := popAll_same hs₂
    obtain ⟨hremotes, hlocals, hleft⟩ := hagrees₂.closed (popAll_quiescent hs₂)
      (fun index t ht => by
        obtain ⟨u, hu, hroom, -⟩ := hsame.remote index t ht
        exact hroom.trans (hremoteRooms index u hu))
      (fun index t ht => by
        obtain ⟨u, hu, hroom, -⟩ := hsame.local_ index t ht
        exact hroom.trans (hlocalRooms index u hu))
    have hnone : s₂.joined = none := by
      obtain ⟨localTracks, remoteTracks, -, -, rfl⟩ := broadcast_eq_ok hs₁
      exact (popAll_passes hs₂).joined
    have hin : st₂.room = some joined.hash := by
      rw [hroom₂, h.room, inRoom, hjoined]
      rfl
    refine ⟨{ st₂ with room := none }, ?_, ⟨hleft.frame (s₂.frame_push _), ?_, ?_, ?_⟩, hnone⟩
    · have hqueue : Speaks st s st s₁ := speaks_nothing st
        (show s₁.queue = ({ s with joined := none } : EndpointInternal Selector).queue from
          broadcast_queue hs₁)
      refine (hqueue.trans hspeaks₂).trans ⟨s₂.leaveOutputs now joined, rfl, ?_⟩
      rw [controlsOf_leaveOutputs, List.foldlM_cons]
      simp only [traceStep, hin, hremotes, hlocals, and_self, if_true]
      rfl
    · change none = s₂.joined.map (·.hash)
      rw [hnone]
      rfl
    · intro index t ht hshutdown
      rw [hsame.remotesUp hremotes₁ index t ht] at hshutdown
      cases hshutdown
    · exact hsame.localsUp hlocals₁

theorem TraceInv.joinRoom {st : TraceState} {s s' : EndpointInternal Selector}
    (h : TraceInv st s) {now : Instant} {schedule : Schedule} {req : WaitJoin}
    (hup : s.joined.isSome = true → RemotesUp s)
    (hok : s.joinRoom env now schedule req = .ok s') :
    ∃ st', Speaks st s st' s' ∧ TraceInv st' s' := by
  obtain ⟨s₁, hs₁, hs'⟩ := joinRoom_eq_ok hok
  have hquiet : Quiet s (s.push [.rpcRes req.reqId (.joinRoom (.ok ()))]) := quiet_push s rfl
  obtain ⟨st₁, hspeaks₁, hinv₁, hnone⟩ := (h.quiet hquiet).leaveRoom hup hs₁
  have hclosed : st₁.room = none := by
    rw [hinv₁.room, inRoom, hnone]
    rfl
  -- the tracks are outside of rooms and say nothing, so they agree with any room
  have hagrees : Agrees { st₁ with room := some (joinedBy env s req).hash }
      ({ s₁ with joined := some (joinedBy env s req) }.push
        (s₁.joinOutputs now (joinedBy env s req).hash req)) := by
    have hlift : ∀ room, st₁.room = some room →
        some (joinedBy env s req).hash = some room := by
      intro room hroom
      rw [hclosed] at hroom
      cases hroom
    refine ⟨hinv₁.agrees.remoteTable, hinv₁.agrees.localTable, fun index t ht => ?_,
      fun index t ht => ?_, hinv₁.agrees.remotesLive, hinv₁.agrees.localsLive⟩
    · have hok := hinv₁.agrees.remote index t ht
      exact ⟨hok.plain, fun room hroom => hlift room (hok.room room hroom),
        fun said hmem => hlift said.1 (hok.pending said hmem), hok.run⟩
    · have hok := hinv₁.agrees.local_ index t ht
      exact ⟨hok.plain, fun room hroom => hlift room (hok.room room hroom),
        fun said hmem => hlift said.1 (hok.pending said hmem), hok.run, hok.bound, hok.stopped⟩
  obtain ⟨hagrees', hremotes', hlocals'⟩ := hagrees.broadcast (hinv₁.remotesUp hnone)
    hinv₁.localsUp rfl (fun room heq => by cases heq; rfl) (fun room heq => by cases heq; rfl) hs'
  refine ⟨_, ?_, hagrees', ?_, fun index t ht hshutdown => ?_, hlocals'⟩
  · refine ((hquiet.speaks st).trans hspeaks₁).trans
      ⟨s₁.joinOutputs now (joinedBy env s req).hash req, broadcast_queue hs', ?_⟩
    rw [controlsOf_joinOutputs, List.foldlM_cons]
    simp only [traceStep, hclosed, if_true]
    rfl
  · obtain ⟨localTracks, remoteTracks, -, -, rfl⟩ := broadcast_eq_ok hs'
    rfl
  · rw [hremotes' index t ht] at hshutdown
    cases hshutdown

/-- The shutdown ends every track before the room is left. -/
theorem TraceInv.onShutdown {st : TraceState} {s s' : EndpointInternal Selector}
    (h : TraceInv st s) {now : Instant} {schedule : Schedule}
    (hok : s.onShutdown env now schedule = .ok s') :
    ∃ st', Speaks st s st' s' ∧ TraceInv st' s' := by
  rcases onShutdown_eq_ok hok with
    ⟨-, rfl⟩ | ⟨-, localTracks, remoteTracks, s₁, hlocals, hremotes, hs₁, hcase⟩
  · exact ⟨st, speaks_nothing st rfl, h⟩
  · have hlocalImage := TaskGroup.onAll_image hlocals
    have hremoteImage := TaskGroup.onAll_image hremotes
    let s₀ := { s with shutdown := true, localTracks := localTracks, remoteTracks := remoteTracks }
    have hremote₀ : ∀ index t', s₀.remoteTracks.get index = some t' →
        ∃ t, s.remoteTracks.get index = some t ∧ t.id = t'.id ∧ RemoteOk st t' ∧
          t'.shutdown = true := by
      intro index t' ht'
      obtain ⟨t, ht, hhandle⟩ := hremoteImage.exists_before ht'
      obtain ⟨hok', hstop, hid⟩ := (h.agrees.remote index t ht).onShutdown hhandle
      exact ⟨t, ht, hid.symm, hok', hstop⟩
    have hlocal₀ : ∀ index t', s₀.localTracks.get index = some t' →
        ∃ t, s.localTracks.get index = some t ∧ t.track = t'.track ∧ LocalOk st t' ∧
          t'.shutdown = true := by
      intro index t' ht'
      obtain ⟨t, ht, hhandle⟩ := hlocalImage.exists_before ht'
      obtain ⟨hok', hstop, htrack⟩ := (h.agrees.local_ index t ht).onShutdown hhandle
      exact ⟨t, ht, htrack.symm, hok', hstop⟩
    have hagrees₀ : Agrees st s₀ := by
      refine ⟨h.agrees.remoteTable.mono fun index t' ht' => ?_,
        h.agrees.localTable.mono fun index t' ht' => ?_, fun index t' ht' => ?_,
        fun index t' ht' => ?_, fun id hmem => ?_, fun id hmem => ?_⟩
      · obtain ⟨t, ht, hid, -⟩ := hremote₀ index t' ht'
        exact ⟨t, ht, hid⟩
      · obtain ⟨t, ht, htrack, -⟩ := hlocal₀ index t' ht'
        exact ⟨t, ht, htrack⟩
      · obtain ⟨-, -, -, hok', -⟩ := hremote₀ index t' ht'
        exact hok'
      · obtain ⟨-, -, -, hok', -⟩ := hlocal₀ index t' ht'
        exact hok'
      · obtain ⟨index, t, ht, rfl⟩ := h.agrees.remotesLive id hmem
        obtain ⟨t', ht', hhandle⟩ := hremoteImage.exists_after ht
        exact ⟨index, t', ht', ((h.agrees.remote index t ht).onShutdown hhandle).2.2⟩
      · obtain ⟨index, t, ht, rfl⟩ := h.agrees.localsLive id hmem
        obtain ⟨t', ht', hhandle⟩ := hlocalImage.exists_after ht
        exact ⟨index, t', ht', ((h.agrees.local_ index t ht).onShutdown hhandle).2.2⟩
    obtain ⟨st₁, hspeaks₁, hroom₁, hagrees₁⟩ := hagrees₀.popAll hs₁
    obtain ⟨hnoRemote, hnoLocal⟩ := popAll_removes hs₁
      (fun index u hu => by
        obtain ⟨-, -, -, -, hstop⟩ := hremote₀ index u hu
        exact hstop)
      (fun index u hu => by
        obtain ⟨-, -, -, -, hstop⟩ := hlocal₀ index u hu
        exact hstop)
    obtain ⟨hremotes₁, hlocals₁, hleft⟩ := hagrees₁.closed (popAll_quiescent hs₁)
      (fun index t ht => absurd ht (hnoRemote index t))
      (fun index t ht => absurd ht (hnoLocal index t))
    have hspeaks : Speaks st s st₁ s₁ := (show Speaks st s st s₀ from speaks_nothing st rfl).trans
      hspeaks₁
    have hroom : st₁.room = s₁.inRoom := by
      rw [hroom₁, h.room, inRoom, inRoom, (popAll_passes hs₁).joined]
    rcases hcase with ⟨-, rfl⟩ | ⟨joined, hjoined, rfl⟩
    · exact ⟨st₁, hspeaks, hagrees₁, hroom, fun index t ht => absurd ht (hnoRemote index t),
        fun index t ht => absurd ht (hnoLocal index t)⟩
    · have hin : st₁.room = some joined.hash := by
        rw [hroom, inRoom, hjoined]
        rfl
      refine ⟨{ st₁ with room := none }, hspeaks.trans ⟨s₁.leaveOutputs now joined, rfl, ?_⟩,
        ⟨hleft.remoteTable, hleft.localTable, hleft.remote, hleft.local_, hleft.remotesLive,
          hleft.localsLive⟩, rfl, fun index t ht => absurd ht (hnoRemote index t),
        fun index t ht => absurd ht (hnoLocal index t)⟩
      rw [controlsOf_leaveOutputs, List.foldlM_cons]
      simp only [traceStep, hin, hremotes₁, hlocals₁, and_self, if_true]
      rfl

theorem TraceInv.onTick {st : TraceState} {s s' : EndpointInternal Selector} (h : TraceInv st s)
    {now : Instant} (hok : s.onTick env now = .ok s') :
    ∃ st', Speaks st s st' s' ∧ TraceInv st' s' := by
  obtain ⟨localTracks, hlocals, rfl⟩ := onTick_eq_ok hok
  have himage := TaskGroup.onAll_image hlocals
  have hkeeps : ∀ index t', localTracks.get index = some t' →
      ∃ t, s.localTracks.get index = some t ∧ t.Keeps t' := by
    intro index t' ht'
    obtain ⟨t, ht, hhandle⟩ := himage.exists_before ht'
    cases hhandle
    exact ⟨t, ht, EndpointLocalTrack.onTick_keeps _ _ t now⟩
  have htrack : ∀ t t', (.ok (EndpointLocalTrack.onTick env.selector env.timestampMs now t) :
      Except Panic (EndpointLocalTrack Selector)) = .ok t' → t'.track = t.track := by
    rintro t t' ⟨⟩
    exact (EndpointLocalTrack.onTick_keeps _ _ t now).track
  refine ⟨st, speaks_nothing st rfl, ⟨h.agrees.remoteTable, ?_, h.agrees.remote, ?_,
    h.agrees.remotesLive, h.agrees.localsLive.image himage htrack⟩, h.room, h.ended, ?_⟩
  · refine h.agrees.localTable.mono fun index t' ht' => ?_
    obtain ⟨t, ht, hkeeps⟩ := hkeeps index t' ht'
    exact ⟨t, ht, hkeeps.track.symm⟩
  · intro index t' ht'
    obtain ⟨t, ht, hkeeps⟩ := hkeeps index t' ht'
    exact (h.agrees.local_ index t ht).keeps hkeeps
  · intro index t' ht'
    obtain ⟨t, ht, hkeeps⟩ := hkeeps index t' ht'
    exact hkeeps.shutdown.trans (h.localsUp index t ht)

theorem TraceInv.toLocal {st : TraceState} {s s' : EndpointInternal Selector} (h : TraceInv st s)
    {now : Instant} {index : Nat} {told : LocalTrack.Input}
    (hroutine : EndpointLocalTrack.isBroadcast told = false)
    (hok : s.toLocal env now index told = .ok s') :
    ∃ st', Speaks st s st' s' ∧ TraceInv st' s' := by
  obtain ⟨group, hgroup, rfl⟩ := toLocal_eq_ok hok
  refine ⟨st, speaks_nothing st rfl, ?_⟩
  rcases TaskGroup.onEvent_eq_ok hgroup with ⟨-, rfl⟩ | ⟨t, t', ht, ht', rfl⟩
  · exact h
  · have hreacts := EndpointLocalTrack.onEvent_reacts _ _ ht'
    have hup := h.localsUp index t ht
    refine ⟨h.agrees.setLocal ht hreacts.track ((h.agrees.local_ index t ht).reacts hreacts ?_ hup),
      h.room, h.ended, fun j u hu => ?_⟩
    · rintro room rfl
      cases hroutine
    · rcases TaskGroup.get_set_eq_some hu with ⟨-, rfl⟩ | ⟨-, hold⟩
      · exact hreacts.shutdown.trans hup
      · exact h.localsUp j u hold

/-- An input reaches a remote track; media and ends reach only tracks that have not ended. -/
theorem TraceInv.toRemote {st : TraceState} {s s' : EndpointInternal Selector}
    (h : TraceInv st s) {now : Instant} {index : Nat} {told : RemoteTrack.Input}
    (hroutine : EndpointRemoteTrack.isBroadcast told = false)
    (hstart : ∀ name priority trackMeta, told ≠ .event (.started name priority trackMeta))
    (hup : ∀ t, s.remoteTracks.get index = some t →
      (told = .event .ended ∨ ∃ media, told = .event (.media media)) → t.shutdown = false)
    (hok : s.toRemote now index told = .ok s') :
    ∃ st', Speaks st s st' s' ∧ TraceInv st' s' := by
  obtain ⟨group, hgroup, rfl⟩ := toRemote_eq_ok hok
  refine ⟨st, speaks_nothing st rfl, ?_⟩
  rcases TaskGroup.onEvent_eq_ok hgroup with ⟨-, rfl⟩ | ⟨t, t', ht, ht', rfl⟩
  · exact h
  · have hreacts := EndpointRemoteTrack.onEvent_reacts ht'
    refine ⟨h.agrees.setRemote ht hreacts.id ((h.agrees.remote index t ht).reacts hreacts ?_
      hstart ?_), h.room, fun j u hu hshutdown => ?_, h.localsUp⟩
    · rintro room rfl
      cases hroutine
    · rintro (hbroadcast | hspeaks)
      · rw [hroutine] at hbroadcast
        cases hbroadcast
      · exact hup t ht hspeaks
    · rcases TaskGroup.get_set_eq_some hu with ⟨-, rfl⟩ | ⟨-, hold⟩
      · cases hreacts with
        | silent _ hsilent =>
          rw [hsilent.room]
          exact h.ended index t ht (hsilent.shutdown ▸ hshutdown)
        | join | leave => cases hroutine
        | start _ hafter | media _ hafter | ended _ hafter =>
          rw [hafter]
          rfl
      · exact h.ended j u hold hshutdown

/-- A new remote track starts, under an id that no other track has. -/
theorem TraceInv.startRemote {st : TraceState} {s s' : EndpointInternal Selector}
    (h : TraceInv st s) {now : Instant} {hint : Nat} {track : RemoteTrackId} {name : TrackName}
    {priority : TrackPriority} {trackMeta : TrackMeta}
    (hfresh : ∀ index t, s.remoteTracks.get index = some t → t.id ≠ track)
    (hok : (s.withRemote hint track name trackMeta).toRemote now (s.remoteTracks.freeIndex hint)
      (.event (.started name priority trackMeta)) = .ok s') :
    ∃ st', Speaks st s st' s' ∧ TraceInv st' s' := by
  obtain ⟨group, hgroup, rfl⟩ := toRemote_eq_ok hok
  let new := EndpointRemoteTrack.new s.inRoom track name trackMeta s.cfg.record
  have hnew : (s.remoteTracks.addTask hint new).get (s.remoteTracks.freeIndex hint) = some new := by
    rw [TaskGroup.get_addTask, if_pos rfl]
  rcases TaskGroup.onEvent_eq_ok hgroup with ⟨hnone, -⟩ | ⟨t, t', ht, ht', rfl⟩
  · have hsome : (s.withRemote hint track name trackMeta).remoteTracks.get
        (s.remoteTracks.freeIndex hint) = some new := hnew
    rw [hsome] at hnone
    cases hnone
  · obtain rfl : new = t := Option.some.inj (hnew.symm.trans ht)
    have hclosed : track ∉ st.remotes := by
      intro hmem
      obtain ⟨index, u, hu, hid⟩ := h.agrees.remotesLive track hmem
      exact hfresh index u hu hid
    obtain ⟨hok', hup⟩ := RemoteOk.start rfl rfl hclosed
      (fun room hroom => h.room.trans hroom) ht'
    have hid := (EndpointRemoteTrack.onEvent_reacts ht').id
    have hold : ∀ j u, (s.remoteTracks.addTask hint new).get j = some u →
        j ≠ s.remoteTracks.freeIndex hint → s.remoteTracks.get j = some u := by
      intro j u hu hj
      rwa [TaskGroup.get_addTask, if_neg hj] at hu
    refine ⟨st, speaks_nothing st rfl, ⟨?_, h.agrees.localTable, fun j u hu => ?_,
      h.agrees.local_, ?_, h.agrees.localsLive⟩, h.room, fun j u hu hshutdown => ?_, h.localsUp⟩
    · exact (h.agrees.remoteTable.addTask (t := new) hint hfresh).set hnew hid
    · rcases TaskGroup.get_set_eq_some hu with ⟨-, rfl⟩ | ⟨hj, hu⟩
      · exact hok'
      · exact h.agrees.remote j u (hold j u hu hj)
    · exact (h.agrees.remotesLive.addTask hint new).set hnew hid
    · rcases TaskGroup.get_set_eq_some hu with ⟨-, rfl⟩ | ⟨hj, hu⟩
      · rw [hup] at hshutdown
        cases hshutdown
      · exact h.ended j u (hold j u hu hj) hshutdown

/-- A new local track, under an id that no other track has. -/
theorem TraceInv.withLocal {st : TraceState} {s : EndpointInternal Selector} (h : TraceInv st s)
    (env : Env Selector) (hint : Nat) {track : LocalTrackId} (kind : MediaKind)
    (hfresh : ∀ index t, s.localTracks.get index = some t → t.track ≠ track) :
    TraceInv st (EndpointInternal.withLocal env s hint track kind) := by
  let new := EndpointLocalTrack.new env.selector track kind s.inRoom
  have hclosed : track ∉ st.locals := by
    intro hmem
    obtain ⟨index, u, hu, htrack⟩ := h.agrees.localsLive track hmem
    exact hfresh index u hu htrack
  have hnew : ∀ index t, (s.localTracks.addTask hint new).get index = some t →
      t = new ∨ s.localTracks.get index = some t := by
    intro index t ht
    rw [TaskGroup.get_addTask] at ht
    split at ht
    · cases ht
      exact Or.inl rfl
    · exact Or.inr ht
  refine ⟨⟨h.agrees.remoteTable, h.agrees.localTable.addTask (t := new) hint hfresh,
    h.agrees.remote, fun index t ht => ?_, h.agrees.remotesLive,
    h.agrees.localsLive.addTask hint new⟩, h.room, h.ended, fun index t ht => ?_⟩
  · rcases hnew index t ht with rfl | hold
    · refine ⟨?_, fun room hroom => h.room.trans hroom, ?_, ?_, ?_, ?_⟩
      · change EndpointLocalTrack.Plain []
        simp [EndpointLocalTrack.Plain]
      · rintro said ⟨⟩
      · change some (decide (track ∈ st.locals)) = some false
        simp [hclosed]
      · rintro ⟨⟩
      · rintro ⟨⟩
    · exact h.agrees.local_ index t hold
  · rcases hnew index t ht with rfl | hold
    · rfl
    · exact h.localsUp index t hold

theorem TraceInv.poll {st : TraceState} {s s' : EndpointInternal Selector} (h : TraceInv st s)
    {now : Instant} {schedule : Schedule}
    (hok : EndpointInternal.poll env now schedule s = .ok s') :
    ∃ st', Speaks st s st' s' ∧ TraceInv st' s' := by
  obtain ⟨st', hspeaks, hroom, hagrees⟩ := h.agrees.poll hok
  have hsame := poll_same hok
  refine ⟨st', hspeaks, hagrees, ?_, fun index t ht hshutdown => ?_, hsame.localsUp h.localsUp⟩
  · rw [hroom, h.room, inRoom, inRoom, (poll_passes hok).joined]
  · obtain ⟨u, hu, hroom, hstop⟩ := hsame.remote index t ht
    rw [hroom]
    exact h.ended index u hu (hstop ▸ hshutdown)

/-! ### Steps -/

/-- The remote track that an id leads to has ended. -/
def hasEnded (s : EndpointInternal Selector) (track : RemoteTrackId) : Bool :=
  match s.remoteTracksId.get1 track with
  | none => false
  | some index =>
      match s.remoteTracks.get index with
      | none => false
      | some t => t.shutdown

/-- The input brings media or an end to a remote track that has ended. -/
def speaksForEnded (s : EndpointInternal Selector) : Input → Bool
  | .transport _ _ _ (.remoteTrack track (.media _)) => s.hasEnded track
  | .transport _ _ _ (.remoteTrack track .ended) => s.hasEnded track
  | _ => false

/-- No track is started twice, and nothing makes a remote track that has ended, but was
    not removed yet, speak to its room. -/
def EndsOnce : Contract (EndpointInternal Selector) Input InternalOutput :=
  fun _ s input => s.startsFresh input = true ∧ s.leavesNoEnded input = true ∧
    s.speaksForEnded input = false

theorem hasEnded_of_get {s : EndpointInternal Selector} {track : RemoteTrackId} {index : Nat}
    {t : EndpointRemoteTrack} (hindex : s.remoteTracksId.get1 track = some index)
    (ht : s.remoteTracks.get index = some t) : s.hasEnded track = t.shutdown := by
  simp only [hasEnded, hindex, ht]

/-- **Every step that meets the contract keeps the controls in order.** -/
theorem TraceInv.step {history : History Input InternalOutput} {st : TraceState}
    {s s' : EndpointInternal Selector} {input : Input} (h : TraceInv st s)
    (hok : EndsOnce history s input) (hstep : s.step env input = .ok s') :
    ∃ st', Speaks st s st' s' ∧ TraceInv st' s' := by
  obtain ⟨hfresh, hleaves, hspeaks⟩ := hok
  have hup : ∀ s₁, (s.joins input || s.leaves input) = true → Quiet s s₁ →
      s₁.joined.isSome = true → RemotesUp s₁ := by
    intro s₁ hinput hquiet hjoined
    rw [hquiet.joined] at hjoined
    exact (remotesUp_of_leavesNoEnded hleaves hinput hjoined).quiet hquiet
  cases step_effect hstep with
  | quiet _ hquiet => exact ⟨st, hquiet.speaks st, h.quiet hquiet⟩
  | @join _ s₁ _ _ _ _ hjoins hquiet hjoin =>
    obtain ⟨st', hspeaks', hinv⟩ :=
      (h.quiet hquiet).joinRoom (hup s₁ (by simp [hjoins]) hquiet) hjoin
    exact ⟨st', (hquiet.speaks st).trans hspeaks', hinv⟩
  | @leave _ s₁ _ _ _ hleave hquiet hleft =>
    obtain ⟨st', hspeaks', hinv, -⟩ :=
      (h.quiet hquiet).leaveRoom (hup s₁ (by simp [hleave]) hquiet) hleft
    exact ⟨st', (hquiet.speaks st).trans hspeaks', hinv⟩
  | shutdown _ hquiet hshutdown =>
    obtain ⟨st', hspeaks', hinv⟩ := (h.quiet hquiet).onShutdown hshutdown
    exact ⟨st', (hquiet.speaks st).trans hspeaks', hinv⟩
  | toRemote _ hindex hroutine hevent hto =>
    refine h.toRemote hroutine ?_ ?_ hto
    · rintro name priority trackMeta rfl
      cases (hevent _ rfl).1
    · intro t ht htold
      rw [← hasEnded_of_get hindex ht]
      rcases htold with rfl | ⟨media, rfl⟩
      · obtain ⟨-, now, schedule, hint, rfl⟩ := hevent _ rfl
        exact hspeaks
      · obtain ⟨-, now, schedule, hint, rfl⟩ := hevent _ rfl
        exact hspeaks
  | toLocal _ _ hroutine hto => exact h.toLocal hroutine hto
  | startRemote hstart =>
    refine h.startRemote (fun index t ht => ?_) hstart
    have := List.all_eq_true.mp hfresh t (TaskGroup.mem_all_iff.mpr ⟨index, ht⟩)
    simpa using this
  | @startLocal s₁ _ _ _ hint track kind hquiet hstart =>
    have hnew := h.withLocal env hint kind fun index t ht => by
      have := List.all_eq_true.mp hfresh t (TaskGroup.mem_all_iff.mpr ⟨index, ht⟩)
      simpa using this
    obtain ⟨st', hspeaks', hinv⟩ := (hnew.quiet hquiet).toLocal rfl hstart
    have hqueue : Speaks st s st (EndpointInternal.withLocal env s hint track kind) :=
      speaks_nothing st rfl
    exact ⟨st', (hqueue.trans (hquiet.speaks st)).trans hspeaks', hinv⟩
  | tick htick => exact h.onTick htick
  | poll hpoll => exact h.poll hpoll

end

/-! ### Runs -/

theorem traceInv_init (cfg : EndpointCfg) :
    TraceInv ⟨none, [], []⟩ (EndpointInternal.new cfg : EndpointInternal Selector) := by
  refine ⟨⟨Exact.empty.indexed, Exact.empty.indexed, ?_, ?_, ?_, ?_⟩, rfl, ?_, ?_⟩
  · rintro index t ⟨⟩
  · rintro index t ⟨⟩
  · rintro id ⟨⟩
  · rintro id ⟨⟩
  · rintro index t ⟨⟩
  · rintro index t ⟨⟩

theorem TraceInv.dropFront {st : TraceState} {s : EndpointInternal Selector}
    (h : TraceInv st s) : TraceInv st { s with queue := s.queue.tail } :=
  ⟨⟨h.agrees.remoteTable, h.agrees.localTable, h.agrees.remote, h.agrees.local_,
    h.agrees.remotesLive, h.agrees.localsLive⟩, h.room, h.ended, h.localsUp⟩

/-- The claim about a run: the controls it produced are in order. -/
def TraceKept (c : Config (EndpointInternal Selector) Input InternalOutput) : Prop :=
  ∃ st, traceRun (controlsOf (emitted c.history)) = some st

/-- **The order of the controls of a track.** In a run where no track is started twice and
    no remote track that has ended speaks again before it is removed, every track is
    opened and closed in turn, between the join and the leave of its room. -/
theorem track_trace (env : Env Selector) (cfg : EndpointCfg) {acts : List (Action Input)}
    {c : Config (EndpointInternal Selector) Input InternalOutput}
    (hadm : (machine env cfg).Admits EndsOnce acts)
    (hrun : (machine env cfg).run acts = .ok c) : TraceKept c := by
  have hinv := run_invariant EndsOnce
    (fun history s => ∃ st, traceRun (controlsOf (emitted history)) = some st ∧ TraceInv st s)
    ⟨_, rfl, traceInv_init cfg⟩ ?_ ?_ hadm hrun
  · obtain ⟨st, htrace, -⟩ := hinv
    exact ⟨st, htrace⟩
  · rintro history s input s' ⟨st, htrace, hinv⟩ hok hstep
    obtain ⟨st', ⟨outs, hqueue, hspeaks⟩, hinv'⟩ := hinv.step hok hstep
    refine ⟨st', ?_, hinv'⟩
    rw [emitted_concat, pushed_eq_of_append (machine env cfg) hqueue, controlsOf_append, traceRun,
      List.foldlM_append]
    change (traceRun (controlsOf (emitted history))).bind _ = _
    rw [htrace]
    exact hspeaks
  · rintro history s ⟨st, htrace, hinv⟩
    exact ⟨st, htrace, hinv.dropFront⟩

instance (history : History Input InternalOutput) (s : EndpointInternal Selector)
    (input : Input) : Decidable (EndsOnce history s input) :=
  inferInstanceAs (Decidable (_ ∧ _ ∧ _))

/-- A client that publishes a track, views another one, changes rooms, ends its track and
    leaves once the end has been polled. -/
def publishAndEnd : List (Action Input) :=
  publishAndMove.dropLast ++ [Action.input (.transport 0 [] 0 (.remoteTrack 1 .ended))] ++
    (List.replicate 30 [.input (.poll 0 [.localTracks 0, .remoteTracks 0]), .pop]).flatten ++
    [Action.input (.rpc 0 [] 3 .leaveRoom)]

theorem track_trace_publishAndEnd :
    ∃ c, (machine Env.passAll rootCfg).run publishAndEnd = .ok c ∧ TraceKept c :=
  ⟨_, rfl, track_trace Env.passAll rootCfg
    (show (machine Env.passAll rootCfg).Admits EndsOnce publishAndEnd from
      AdmitsFrom.admits (by decide)) rfl⟩

/-- A client that ends its track and leaves before the end has been polled. -/
def endAndLeave : List (Action Input) :=
  connect ++ [Action.input (joinRequest "room"), .input (startRemote 1 "audio"),
    .input (.transport 0 [] 0 (.remoteTrack 1 .ended)), .input (.rpc 0 [] 2 .leaveRoom)]

/-- The track tells the room of its end a second time. -/
theorem leave_ends_ended_track :
    ∃ c, (machine Env.passAll rootCfg).run endAndLeave = .ok c ∧
      (controlsOf (emitted c.history)).map Prod.snd =
        [.join "peer" ⟨none, none⟩ ⟨true, true⟩ ⟨true, true⟩ none,
          .remoteTrack 1 (.started "audio" .defaultAudio),
          .remoteTrack 1 (.ended "audio" .defaultAudio),
          .remoteTrack 1 (.ended "audio" .defaultAudio), .leave] ∧
      traceRun (controlsOf (emitted c.history)) = none ∧ ¬ TraceKept c := by
  have hnone : ((machine Env.passAll rootCfg).run endAndLeave).toOption.map
      (fun c => traceRun (controlsOf (emitted c.history))) = some none := by decide +kernel
  obtain ⟨c, hrun⟩ : ∃ c, (machine Env.passAll rootCfg).run endAndLeave = .ok c := ⟨_, rfl⟩
  rw [hrun] at hnone
  have htrace : traceRun (controlsOf (emitted c.history)) = none := Option.some.inj hnone
  refine ⟨c, hrun, ?_, htrace, ?_⟩
  · cases hrun
    rfl
  · rintro ⟨st, hst⟩
    rw [htrace] at hst
    cases hst

end EndpointInternal

end MediaServer.Endpoint
