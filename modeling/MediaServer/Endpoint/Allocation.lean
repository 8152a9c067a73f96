import MediaServer.Endpoint.Outputs
import MediaServer.Endpoint.TrackTrace

/-!
# The tracks that share the bandwidth

The bitrate allocator divides the bandwidth among the tracks that are on its two
registers.  It is told of them by the tracks, through their endpoint: a local track
reports when it is bound to a source and when it is unbound, a remote track when it
starts in a room and when it is removed.  Between a report and its turn the register
is behind; `settled` is what it will say once the reports that wait have been heard.

A local track that leaves its room is unbound without a report, and a remote track
reports neither that it leaves a room nor that it comes into one after its start; a
new priority puts any track on the register.
-/

namespace MediaServer.Endpoint

open Collections Runtime Machine

variable {Selector : Type}

/-! ### The registers -/

namespace BitrateAllocator

/-- The local track has a share of the egress bandwidth. -/
def sends (a : BitrateAllocator) (id : LocalTrackId) : Bool := (a.shares.1.get id).isSome

/-- The remote track has a share of the ingress bandwidth. -/
def receives (a : BitrateAllocator) (id : RemoteTrackId) : Bool := (a.shares.2.get id).isSome

end BitrateAllocator

/-- Whether a local track is on the register after one of its outputs. -/
def LocalTrack.Output.puts (listed : Bool) : LocalTrack.Output → Bool
  | .bind kind _ | .updated kind _ => listed || kind.isVideo
  | .unbind kind => listed && !kind.isVideo
  | _ => listed

/-- Whether a remote track is on the register after one of its outputs. -/
def RemoteTrack.Output.puts (listed : Bool) : RemoteTrack.Output → Bool
  | .started kind _ | .update kind _ => listed || kind.isVideo
  | .stopped kind => listed && !kind.isVideo
  | _ => listed

namespace BitrateAllocator

theorem sends_setEgressVideoTrack (a : BitrateAllocator) (id id' : LocalTrackId)
    (priority : TrackPriority) :
    (a.setEgressVideoTrack id priority).sends id' = if id' = id then true else a.sends id' := by
  change ((a.egress.tracks.insert id priority).get id').isSome = _
  rw [IndexMap.get_insert]
  split
  · rfl
  · rfl

theorem sends_delEgressVideoTrack (a : BitrateAllocator) (id id' : LocalTrackId) :
    (a.delEgressVideoTrack id).sends id' = if id' = id then false else a.sends id' := by
  change ((a.egress.tracks.swapRemove id).get id').isSome = _
  rw [IndexMap.get_swapRemove]
  split
  · rfl
  · rfl

theorem receives_setIngressVideoTrack (a : BitrateAllocator) (id id' : RemoteTrackId)
    (priority : TrackPriority) :
    (a.setIngressVideoTrack id priority).receives id' =
      if id' = id then true else a.receives id' := by
  change ((a.ingress.tracks.insert id priority).get id').isSome = _
  rw [IndexMap.get_insert]
  split
  · rfl
  · rfl

theorem receives_delIngressVideoTrack (a : BitrateAllocator) (id id' : RemoteTrackId) :
    (a.delIngressVideoTrack id).receives id' = if id' = id then false else a.receives id' := by
  change ((a.ingress.tracks.swapRemove id).get id').isSome = _
  rw [IndexMap.get_swapRemove]
  split
  · rfl
  · rfl

/-- An output of a local track changes the register at that track. -/
theorem sends_hearLocal (a : BitrateAllocator) (id : LocalTrackId) (out : LocalTrack.Output) :
    (a.hearLocal id out).sends id = out.puts (a.sends id) ∧
      ∀ id', id' ≠ id → (a.hearLocal id out).sends id' = a.sends id' := by
  cases out with
  | bind kind priority | updated kind priority =>
    simp only [hearLocal, LocalTrack.Output.puts]
    cases kind.isVideo with
    | true => simp +contextual [sends_setEgressVideoTrack]
    | false => simp
  | unbind kind =>
    simp only [hearLocal, LocalTrack.Output.puts]
    cases kind.isVideo with
    | true => simp +contextual [sends_delEgressVideoTrack]
    | false => simp
  | _ => exact ⟨rfl, fun _ _ => rfl⟩

theorem receives_hearLocal (a : BitrateAllocator) (id : LocalTrackId) (out : LocalTrack.Output) :
    (a.hearLocal id out).receives = a.receives := by
  unfold hearLocal
  split <;> (try split) <;> rfl

/-- An output of a remote track changes the register at that track. -/
theorem receives_hearRemote (a : BitrateAllocator) (id : RemoteTrackId)
    (out : RemoteTrack.Output) :
    (a.hearRemote id out).receives id = out.puts (a.receives id) ∧
      ∀ id', id' ≠ id → (a.hearRemote id out).receives id' = a.receives id' := by
  cases out with
  | started kind priority | update kind priority =>
    simp only [hearRemote, RemoteTrack.Output.puts]
    cases kind.isVideo with
    | true => simp +contextual [receives_setIngressVideoTrack]
    | false => simp
  | stopped kind =>
    simp only [hearRemote, RemoteTrack.Output.puts]
    cases kind.isVideo with
    | true => simp +contextual [receives_delIngressVideoTrack]
    | false => simp
  | _ => exact ⟨rfl, fun _ _ => rfl⟩

theorem sends_hearRemote (a : BitrateAllocator) (id : RemoteTrackId) (out : RemoteTrack.Output) :
    (a.hearRemote id out).sends = a.sends := by
  unfold hearRemote
  split <;> (try split) <;> rfl

end BitrateAllocator

/-! ### Local tracks -/

namespace EndpointLocalTrack

open LocalTrack

/-- What the register will say of the track once its reports have been heard. -/
def settled (t : EndpointLocalTrack Selector) (listed : Bool) : Bool :=
  t.queue.foldl Output.puts listed

theorem foldl_puts_filter (outs : List Output) (listed : Bool) :
    (outs.filter isReport).foldl Output.puts listed = outs.foldl Output.puts listed := by
  induction outs generalizing listed with
  | nil => rfl
  | cons out rest ih =>
    cases out with
    | event | cluster | peerEvent => exact ih listed
    | _ => exact ih _

theorem Reports.settled {t t' : EndpointLocalTrack Selector} {news : List Output}
    (h : t.Reports t' news) (listed : Bool) :
    t'.settled listed = news.foldl Output.puts (t.settled listed) := by
  rw [EndpointLocalTrack.settled, ← foldl_puts_filter]
  change t'.reports.foldl Output.puts listed = _
  rw [h.reports, List.foldl_append]
  congr 1
  exact foldl_puts_filter t.queue listed

/-- A video track is on the register when it is bound, which it is only in a room, and a
    track that was told to stop is not bound. -/
structure Fits (t : EndpointLocalTrack Selector) (listed : Bool) : Prop where
  plain : Plain t.queue
  settled : t.settled listed = (t.kind.isVideo && t.bind.isSome)
  bound : t.bind.isSome = true → t.room.isSome = true
  stopped : t.shutdown = true → t.bind.isSome = false

theorem fits_new (api : SelectorApi Selector) (track : LocalTrackId) (kind : MediaKind)
    (room : Option ClusterRoomHash) : (new api track kind room).Fits false := by
  refine ⟨?_, ?_, ?_, ?_⟩
  · simp [new, Plain]
  · simp [new, EndpointLocalTrack.settled]
  · intro hbind
    cases hbind
  · intro hshutdown
    cases hshutdown

/-- A handler that reports nothing and keeps the binding. -/
theorem Fits.keeps {t t' : EndpointLocalTrack Selector} {listed : Bool} (h : t.Fits listed)
    (hkeeps : t.Keeps t') (hreports : t.Reports t' []) : t'.Fits listed := by
  obtain ⟨extra, hadds, -⟩ := hkeeps.adds
  refine ⟨hadds.plain h.plain, ?_, ?_, ?_⟩
  · rw [hreports.settled, hkeeps.bound, hreports.kind]
    exact h.settled
  · rw [hkeeps.bound, hkeeps.room]
    exact h.bound
  · rw [hkeeps.shutdown, hkeeps.bound]
    exact h.stopped

/-- A track that loses its binding without a report. -/
theorem Fits.unbound {t t' : EndpointLocalTrack Selector} {listed : Bool} (h : t.Fits listed)
    (hbound : (t.kind.isVideo && t.bind.isSome) = false) (hplain : Plain t'.queue)
    (hreports : t.Reports t' []) (hbind : t'.bind.isSome = false) : t'.Fits listed := by
  refine ⟨hplain, ?_, ?_, fun _ => hbind⟩
  · rw [hreports.settled, hbind, Bool.and_false]
    exact h.settled.trans hbound
  · rw [hbind]
    intro hsome
    cases hsome

theorem Fits.onLeaveRoom {t t' : EndpointLocalTrack Selector} {listed : Bool} {now : Instant}
    (h : t.Fits listed) (hbound : (t.kind.isVideo && t.bind.isSome) = false)
    (ht' : t.onLeaveRoom now = .ok t') : t'.Fits listed := by
  obtain ⟨room, -, -, -, hbind, -, hadds⟩ := onLeaveRoom_eq_ok ht'
  exact h.unbound hbound (hadds.plain h.plain) (onLeaveRoom_reports ht') (by rw [hbind]; rfl)

theorem Fits.onShutdown {t t' : EndpointLocalTrack Selector} {listed : Bool} {now : Instant}
    (h : t.Fits listed) (hbound : (t.kind.isVideo && t.bind.isSome) = false)
    (ht' : t.onShutdown now = .ok t') : t'.Fits listed := by
  have hreports := onShutdown_reports ht'
  obtain ⟨-, -, hcase⟩ := onShutdown_eq_ok ht'
  rcases hcase with ⟨-, rfl⟩ | ⟨-, hroom, -, hbind, hadds⟩ | ⟨-, room, -, -, hbind, hadds⟩
  · exact h
  · refine h.unbound hbound (hadds.plain h.plain) hreports ?_
    -- outside a room the track was not bound
    cases hsome : t'.bind.isSome with
    | false => rfl
    | true =>
      rw [hbind] at hsome
      have hin := h.bound hsome
      rw [hroom] at hin
      cases hin
  · exact h.unbound hbound (hadds.plain h.plain) hreports (by rw [hbind]; rfl)

section Selecting

variable {api : SelectorApi Selector} {timestampMs : Instant → Nat}

theorem Fits.onRpcReq {t : EndpointLocalTrack Selector} {listed : Bool} (h : t.Fits listed)
    (now : Instant) (reqId : EndpointReqId) {req : EndpointLocalTrackReq}
    (hup : t.shutdown = false)
    (hconfig : ∀ config, req = .config config → t.kind.isVideo = true → t.bind.isSome = true) :
    (t.onRpcReq api timestampMs now reqId req).Fits listed := by
  have hreacts : Reacts t (t.onRpcReq api timestampMs now reqId req) (.rpcReq reqId req) :=
    onEvent_reacts api timestampMs rfl
  have hanswers := onRpcReq_answers api timestampMs t now reqId req
  refine ⟨hreacts.plain h.plain, ?_, hreacts.bind h.bound, fun hshutdown => ?_⟩
  · cases hanswers with
    | refuse hbind hreports =>
      rw [hreports.settled, hbind, hreports.kind]
      exact h.settled
    | attach _ hbind hunbinds hreports =>
      rw [hreports.settled, hbind, hreports.kind]
      rcases hunbinds with rfl | rfl
      · simp only [List.singleton_append, List.foldl_cons, List.foldl_nil, Output.puts, h.settled]
        cases t.kind.isVideo <;> simp
      · simp only [List.cons_append, List.nil_append, List.foldl_cons, List.foldl_nil,
          Output.puts, h.settled]
        cases t.kind.isVideo <;> simp
    | detach hbind hreports =>
      rw [hreports.settled, hbind, hreports.kind]
      simp only [List.foldl_cons, List.foldl_nil, Output.puts, h.settled]
      cases t.kind.isVideo <;> simp
    | config hbind hreports =>
      rw [hreports.settled, hbind, hreports.kind]
      simp only [List.foldl_cons, List.foldl_nil, Output.puts, h.settled]
      cases hvideo : t.kind.isVideo with
      | false => rfl
      | true =>
        rw [hconfig _ rfl hvideo]
        rfl
  · rw [hreacts.shutdown, hup] at hshutdown
    cases hshutdown

/-- What the events of a local track have to meet so that the register stays right. -/
theorem Fits.onEvent {t t' : EndpointLocalTrack Selector} {listed : Bool} {now : Instant}
    {input : Input} (h : t.Fits listed)
    (hleave : input = .leaveRoom → (t.kind.isVideo && t.bind.isSome) = false)
    (hup : ∀ reqId req, input = .rpcReq reqId req → t.shutdown = false)
    (hconfig : ∀ reqId config, input = .rpcReq reqId (.config config) →
      t.kind.isVideo = true → t.bind.isSome = true)
    (ht' : onEvent api timestampMs now input t = .ok t') : t'.Fits listed := by
  cases input with
  | joinRoom room =>
    obtain ⟨-, hbind, rfl⟩ := onJoinRoom_eq_ok ht'
    exact ⟨h.plain, h.settled, fun _ => rfl, h.stopped⟩
  | leaveRoom => exact h.onLeaveRoom (hleave rfl) ht'
  | cluster event =>
    cases ht'
    exact h.keeps (onClusterEvent_keeps api timestampMs t now event)
      (onClusterEvent_reports api timestampMs t now event)
  | event event =>
    cases ht'
    exact h.keeps (t.onTransportEvent_keeps event) (t.onTransportEvent_reports event)
  | rpcReq reqId req =>
    cases ht'
    exact h.onRpcReq now reqId (hup reqId req rfl) fun config heq =>
      hconfig reqId config (by rw [heq])
  | bitrateAllocation action =>
    cases ht'
    exact h.keeps (onBitrateAllocationAction_keeps api timestampMs t now action)
      (onBitrateAllocationAction_reports api timestampMs t now action)

end Selecting

end EndpointLocalTrack

/-! ### Remote tracks -/

namespace EndpointRemoteTrack

open RemoteTrack

/-- What the register will say of the track once its reports have been heard. -/
def settled (t : EndpointRemoteTrack) (listed : Bool) : Bool :=
  t.queue.foldl Output.puts listed

theorem foldl_puts_filter (outs : List Output) (listed : Bool) :
    (outs.filter isReport).foldl Output.puts listed = outs.foldl Output.puts listed := by
  induction outs generalizing listed with
  | nil => rfl
  | cons out rest ih =>
    cases out with
    | event | cluster | peerEvent | recordEvent => exact ih listed
    | _ => exact ih _

theorem Reports.settled {t t' : EndpointRemoteTrack} {news : List Output}
    (h : t.Reports t' news) (listed : Bool) :
    t'.settled listed = news.foldl Output.puts (t.settled listed) := by
  rw [EndpointRemoteTrack.settled, ← foldl_puts_filter]
  change t'.reports.foldl Output.puts listed = _
  rw [h.reports, List.foldl_append]
  congr 1
  exact foldl_puts_filter t.queue listed

/-- A video track that has not ended is on the register when tracks are to be `present`;
    of one that has ended nothing is said, its removal takes it off. -/
structure Fits (present : Bool) (t : EndpointRemoteTrack) (listed : Bool) : Prop where
  plain : Plain t.queue
  settled : t.trackMeta.kind.isVideo = false ∨ t.shutdown = false →
    t.settled listed = (t.trackMeta.kind.isVideo && present)

/-- A handler that reports nothing and wakes no track that has ended. -/
theorem Fits.quiet {present : Bool} {t t' : EndpointRemoteTrack} {listed : Bool}
    (h : t.Fits present listed) (hplain : Plain t'.queue)
    (hshutdown : t'.shutdown = false → t.shutdown = false) (hreports : t.Reports t' []) :
    t'.Fits present listed := by
  refine ⟨hplain, fun hup => ?_⟩
  rw [hreports.settled, hreports.kind]
  refine h.settled ?_
  rw [hreports.kind] at hup
  exact hup.imp_right hshutdown

theorem Reacts.shutdown {t t' : EndpointRemoteTrack} {input : Input} (h : Reacts t t' input)
    (hup : t'.shutdown = false) : t.shutdown = false := by
  cases h with
  | silent _ hsilent => rwa [hsilent.shutdown] at hup
  | join _ _ hshutdown | leave _ _ hshutdown | start _ _ hshutdown | media _ _ hshutdown =>
    rwa [hshutdown] at hup
  | ended _ _ hshutdown =>
    rw [hshutdown] at hup
    cases hup

/-- What the events of a remote track have to meet so that the register stays right. -/
theorem Fits.onEvent {present : Bool} {t t' : EndpointRemoteTrack} {listed : Bool}
    {now : Instant} {input : Input} (h : t.Fits present listed)
    (hstart : ∀ event, input = .event event → event.needCreate = none)
    (hconfig : ∀ reqId config, input = .rpcReq reqId (.config config) → config.priority ≠ 0 →
      t.trackMeta.kind.isVideo = true → t.shutdown = false → present = true)
    (ht' : onEvent now input t = .ok t') : t'.Fits present listed := by
  have hreacts := onEvent_reacts ht'
  by_cases hrpc : ∀ reqId req, input ≠ .rpcReq reqId req
  · exact h.quiet (hreacts.plain h.plain) hreacts.shutdown (onEvent_reports ht' hrpc hstart)
  · simp only [not_forall, not_not] at hrpc
    obtain ⟨reqId, ⟨config⟩, rfl⟩ := hrpc
    cases ht'
    obtain ⟨res, hreports⟩ := t.onRpcReq_reports reqId (.config config)
    refine ⟨hreacts.plain h.plain, fun hup => ?_⟩
    rw [hreports.kind] at hup ⊢
    replace hup := hup.imp_right hreacts.shutdown
    rw [hreports.settled]
    simp only
    split
    · exact h.settled hup
    · rename_i hpriority
      simp only [List.foldl_cons, List.foldl_nil, Output.puts, h.settled hup]
      cases hvideo : t.trackMeta.kind.isVideo with
      | false => rfl
      | true =>
        rw [hvideo] at hup
        rcases hup with hfalse | hup
        · cases hfalse
        · rw [hconfig reqId config rfl hpriority hvideo hup]
          rfl

/-- A track starts with its report if it starts in a room. -/
theorem fits_start {room : Option ClusterRoomHash} {id : RemoteTrackId} {name : TrackName}
    {trackMeta trackMeta' : TrackMeta} {record : Bool} {now : Instant} {name' : String}
    {priority : TrackPriority} {t' : EndpointRemoteTrack}
    (ht' : onEvent now (.event (.started name' priority trackMeta'))
      (new room id name trackMeta record) = .ok t') : t'.Fits room.isSome false := by
  have hreacts := onEvent_reacts ht'
  cases ht'
  have hreports := (new room id name trackMeta record).onTransportEvent_reports now
    (.started name' priority trackMeta')
  refine ⟨hreacts.plain (by simp [new, Plain]), fun _ => ?_⟩
  rw [hreports.settled, hreports.kind]
  cases room with
  | none =>
    change false = (trackMeta.kind.isVideo && false)
    rw [Bool.and_false]
  | some room =>
    change (false || trackMeta.kind.isVideo) = (trackMeta.kind.isVideo && true)
    rw [Bool.false_or, Bool.and_true]

/-- A track that is told to stop counts no more. -/
theorem Fits.onShutdown {present present' : Bool} {t t' : EndpointRemoteTrack} {listed : Bool}
    {now : Instant} (h : t.Fits present listed) (ht' : t.onShutdown now = .ok t') :
    t'.Fits present' listed := by
  have hreports := onShutdown_reports ht'
  obtain ⟨hstop, hcase⟩ := onShutdown_eq_ok ht'
  refine ⟨?_, fun hup => ?_⟩
  · rcases hcase with ⟨-, rfl⟩ | ⟨-, -, -, -, hadds⟩ | ⟨-, room, -, -, htells⟩
    · exact h.plain
    · exact hadds.plain h.plain
    · exact htells.adds.plain h.plain
  · rw [hstop] at hup
    rcases hup with haudio | hfalse
    · rw [hreports.kind] at haudio
      rw [hreports.settled, hreports.kind, haudio]
      change t.settled listed = _
      rw [h.settled (Or.inl haudio), haudio]
      rfl
    · cases hfalse

/-- Tracks that count no more may be taken to be anywhere. -/
theorem Fits.moved {present present' : Bool} {t : EndpointRemoteTrack} {listed : Bool}
    (h : t.Fits present listed)
    (hnone : t.trackMeta.kind.isVideo = true → t.shutdown = true) : t.Fits present' listed := by
  refine ⟨h.plain, fun hup => ?_⟩
  rw [h.settled hup]
  cases hvideo : t.trackMeta.kind.isVideo with
  | false => rfl
  | true =>
    rw [hvideo, hnone hvideo] at hup
    rcases hup with hfalse | hfalse
    · cases hfalse
    · cases hfalse

end EndpointRemoteTrack

/-! ### Turns -/

namespace EndpointInternal

/-- The registers are right, up to the reports that wait: every track on them is there,
    local video tracks are on theirs when they are bound, and remote ones when tracks are
    to be `present`. -/
structure Allots (present : Bool) (s : EndpointInternal Selector) : Prop where
  localTable : Indexed s.localTracksId s.localTracks EndpointLocalTrack.track
  remoteTable : Indexed s.remoteTracksId s.remoteTracks EndpointRemoteTrack.id
  locals : Registered EndpointLocalTrack.Fits s.localTracks EndpointLocalTrack.track
    s.bitrateAllocator.sends
  remotes : Registered (EndpointRemoteTrack.Fits present) s.remoteTracks EndpointRemoteTrack.id
    s.bitrateAllocator.receives

theorem Allots.congr {present : Bool} {s s' : EndpointInternal Selector} (h : Allots present s)
    (hlocalId : s'.localTracksId = s.localTracksId)
    (hremoteId : s'.remoteTracksId = s.remoteTracksId) (hlocal : s'.localTracks = s.localTracks)
    (hremote : s'.remoteTracks = s.remoteTracks)
    (hshares : s'.bitrateAllocator.shares = s.bitrateAllocator.shares) : Allots present s' := by
  have hsends : s'.bitrateAllocator.sends = s.bitrateAllocator.sends := by
    funext id
    rw [BitrateAllocator.sends, hshares]
    rfl
  have hreceives : s'.bitrateAllocator.receives = s.bitrateAllocator.receives := by
    funext id
    rw [BitrateAllocator.receives, hshares]
    rfl
  refine ⟨?_, ?_, ?_, ?_⟩
  · rw [hlocalId, hlocal]
    exact h.localTable
  · rw [hremoteId, hremote]
    exact h.remoteTable
  · rw [hlocal, hsends]
    exact h.locals
  · rw [hremote, hreceives]
    exact h.remotes

theorem Allots.quiet {present : Bool} {s s' : EndpointInternal Selector} (h : Allots present s)
    (hquiet : Quiet s s') (hshares : s'.bitrateAllocator.shares = s.bitrateAllocator.shares) :
    Allots present s' := by
  obtain ⟨outs, hframe, -⟩ := hquiet
  exact h.congr hframe.localTracksId hframe.remoteTracksId hframe.localTracks
    hframe.remoteTracks hshares

theorem Allots.setLocal {present : Bool} {s : EndpointInternal Selector} (h : Allots present s)
    {index : Nat} {t t' : EndpointLocalTrack Selector} (ht : s.localTracks.get index = some t)
    (htrack : t'.track = t.track) (hfits : t'.Fits (s.bitrateAllocator.sends t.track)) :
    Allots present { s with localTracks := s.localTracks.set index t' } :=
  ⟨h.localTable.set ht htrack, h.remoteTable, h.locals.set ht htrack hfits, h.remotes⟩

theorem Allots.setRemote {present : Bool} {s : EndpointInternal Selector} (h : Allots present s)
    {index : Nat} {t t' : EndpointRemoteTrack} (ht : s.remoteTracks.get index = some t)
    (hid : t'.id = t.id) (hfits : t'.Fits present (s.bitrateAllocator.receives t.id)) :
    Allots present { s with remoteTracks := s.remoteTracks.set index t' } :=
  ⟨h.localTable, h.remoteTable.set ht hid, h.locals, h.remotes.set ht hid hfits⟩

/-- A report that is heard moves from the queue of its track to the register. -/
theorem Allots.turnLocal {present : Bool} {s s' : EndpointInternal Selector}
    (h : Allots present s) {index : Nat} (hturn : s.popLocalTracks index = .ok s') :
    Allots present s' := by
  rcases popLocalTracks_eq_ok hturn with ⟨-, rfl⟩ | ⟨t, id, ht, hid, hcase⟩
  · exact h
  · obtain rfl : id = t.track := Option.some.inj (hid.symm.trans (h.localTable index t ht).2)
    have hfits := h.locals.each index t ht
    rcases hcase with ⟨out, rest, hqueue, -, rfl⟩ | ⟨group, hend, hgone, rfl⟩
    · obtain ⟨hself, hother⟩ := s.bitrateAllocator.sends_hearLocal t.track out
      have hpassed : ({ t with queue := rest } : EndpointLocalTrack Selector).Fits
          ((s.bitrateAllocator.hearLocal t.track out).sends t.track) := by
        have hsettled := hfits.settled
        rw [EndpointLocalTrack.settled, hqueue, List.foldl_cons, ← hself] at hsettled
        refine ⟨fun hmem => hfits.plain ?_, hsettled, hfits.bound, hfits.stopped⟩
        rw [hqueue]
        exact List.mem_cons_of_mem _ hmem
      refine ⟨h.localTable.set ht rfl, h.remoteTable,
        h.locals.pass h.localTable ht rfl hother hpassed, ?_⟩
      rw [BitrateAllocator.receives_hearLocal]
      exact h.remotes
    · have hempty : t.isEmpty = true := by
        rcases hend with hqueue | hempty
        · refine absurd ?_ hfits.plain
          rw [hqueue]
          exact List.mem_singleton.mpr rfl
        · exact hempty
      have hoff : s.bitrateAllocator.sends t.track = false := by
        have hsettled := hfits.settled
        rw [EndpointLocalTrack.settled,
          show t.queue = [] from TaskChild.queue_of_isEmpty t hempty,
          hfits.stopped (Bool.and_eq_true_iff.mp hempty).1, Bool.and_false] at hsettled
        exact hsettled
      exact ⟨h.localTable.remove1 ht hgone, h.remoteTable,
        h.locals.remove h.localTable ht hgone (fun _ _ => rfl) hoff, h.remotes⟩

theorem Allots.turnRemote {present : Bool} {s s' : EndpointInternal Selector}
    (h : Allots present s) {index : Nat} (hturn : s.popRemoteTracks index = .ok s') :
    Allots present s' := by
  rcases popRemoteTracks_eq_ok hturn with ⟨-, rfl⟩ | ⟨t, id, ht, hid, hcase⟩
  · exact h
  · obtain rfl : id = t.id := Option.some.inj (hid.symm.trans (h.remoteTable index t ht).2)
    have hfits := h.remotes.each index t ht
    rcases hcase with ⟨out, rest, hqueue, -, rfl⟩ | ⟨kind, group, hend, hgone, rfl⟩
    · obtain ⟨hself, hother⟩ := s.bitrateAllocator.receives_hearRemote t.id out
      have hpassed : ({ t with queue := rest } : EndpointRemoteTrack).Fits present
          ((s.bitrateAllocator.hearRemote t.id out).receives t.id) := by
        refine ⟨fun kind hmem => hfits.plain kind ?_, fun hup => ?_⟩
        · rw [hqueue]
          exact List.mem_cons_of_mem _ hmem
        · have hsettled := hfits.settled hup
          rw [EndpointRemoteTrack.settled, hqueue, List.foldl_cons, ← hself] at hsettled
          exact hsettled
      refine ⟨h.localTable, h.remoteTable.set ht rfl, ?_,
        h.remotes.pass h.remoteTable ht rfl hother hpassed⟩
      rw [BitrateAllocator.sends_hearRemote]
      exact h.locals
    · obtain ⟨hempty, rfl⟩ : t.isEmpty = true ∧ kind = t.trackMeta.kind := by
        rcases hend with hqueue | hempty
        · refine absurd ?_ (hfits.plain kind)
          rw [hqueue]
          exact List.mem_singleton.mpr rfl
        · exact hempty
      obtain ⟨hself, hother⟩ :=
        s.bitrateAllocator.receives_hearRemote t.id (.stopped t.trackMeta.kind)
      have hoff : (s.bitrateAllocator.hearRemote t.id (.stopped t.trackMeta.kind)).receives t.id
          = false := by
        rw [hself, RemoteTrack.Output.puts]
        cases hvideo : t.trackMeta.kind.isVideo with
        | true => exact Bool.and_false _
        | false =>
          -- an audio track never was on the register
          have hsettled := hfits.settled (Or.inl hvideo)
          rw [EndpointRemoteTrack.settled,
            show t.queue = [] from TaskChild.queue_of_isEmpty t hempty, hvideo] at hsettled
          rw [show s.bitrateAllocator.receives t.id = false from hsettled]
          rfl
      refine ⟨h.localTable, h.remoteTable.mono fun j u hu => ⟨u, ?_, rfl⟩, ?_,
        h.remotes.remove h.remoteTable ht hgone hother hoff⟩
      · rw [hgone] at hu
        split at hu
        · cases hu
        · exact hu
      · rw [BitrateAllocator.sends_hearRemote]
        exact h.locals

section

variable {env : Env Selector}

theorem Allots.turnAllocator {present : Bool} {s s' : EndpointInternal Selector}
    (h : Allots present s) {now : Instant} (hturn : s.popBitrateAllocator env now = .ok s') :
    Allots present s' := by
  rcases popBitrateAllocator_eq_ok hturn with ⟨-, rfl⟩ | ⟨out, allocator, hpop, hcase⟩
  · exact h
  · have hpopped : Allots present { s with bitrateAllocator := allocator } :=
      h.congr rfl rfl rfl rfl (BitrateAllocator.shares_of_popOutput hpop)
    rcases hcase with rfl | ⟨event, rfl⟩ | ⟨index, action, hto⟩ | ⟨index, action, hto⟩
    · exact hpopped
    · exact hpopped.congr rfl rfl rfl rfl rfl
    · obtain ⟨group, hgroup, rfl⟩ := toRemote_eq_ok hto
      rcases TaskGroup.onEvent_eq_ok hgroup with ⟨-, rfl⟩ | ⟨t, t', ht, ht', rfl⟩
      · exact hpopped
      · exact hpopped.setRemote ht (EndpointRemoteTrack.onEvent_reacts ht').id
          ((hpopped.remotes.each index t ht).onEvent (by simp) (by simp) ht')
    · obtain ⟨group, hgroup, rfl⟩ := toLocal_eq_ok hto
      rcases TaskGroup.onEvent_eq_ok hgroup with ⟨-, rfl⟩ | ⟨t, t', ht, ht', rfl⟩
      · exact hpopped
      · exact hpopped.setLocal ht (EndpointLocalTrack.onEvent_reacts _ _ ht').track
          ((hpopped.locals.each index t ht).onEvent (by simp) (by simp) (by simp) ht')

/-- **A turn keeps the registers right.** -/
theorem Allots.turn {present : Bool} {s s' : EndpointInternal Selector} (h : Allots present s)
    {now : Instant} {pick : Pick} (hturn : s.popTask env now pick = .ok s') :
    Allots present s' := by
  cases pick with
  | bitrateAllocator => exact h.turnAllocator hturn
  | localTracks index => exact h.turnLocal hturn
  | remoteTracks index => exact h.turnRemote hturn

theorem Allots.popAll {present : Bool} {s s' : EndpointInternal Selector} (h : Allots present s)
    {now : Instant} {schedule : Schedule}
    (hrun : EndpointInternal.popAll env now schedule s = .ok s') : Allots present s' :=
  popAll_invariant (Allots present) (fun _ _ _ hs hturn => hs.turn hturn) h hrun

theorem Allots.poll {present : Bool} {s s' : EndpointInternal Selector} (h : Allots present s)
    {now : Instant} {schedule : Schedule}
    (hrun : EndpointInternal.poll env now schedule s = .ok s') : Allots present s' :=
  poll_invariant (Allots present) (fun _ _ _ hs hturn => hs.turn hturn) h hrun

/-! ### Operations -/

/-- No local video track is bound. -/
def NoneBound (s : EndpointInternal Selector) : Prop :=
  ∀ index t, s.localTracks.get index = some t → (t.kind.isVideo && t.bind.isSome) = false

/-- Every remote video track has ended. -/
def NoVideo (s : EndpointInternal Selector) : Prop :=
  ∀ index t, s.remoteTracks.get index = some t → t.trackMeta.kind.isVideo = true →
    t.shutdown = true

/-- Without remote video it makes no difference where the tracks are taken to be. -/
theorem Allots.moved {present present' : Bool} {s : EndpointInternal Selector}
    (h : Allots present s) (hnone : NoVideo s) : Allots present' s :=
  ⟨h.localTable, h.remoteTable, h.locals,
    h.remotes.mono fun index t _ ht hfits => hfits.moved (hnone index t ht)⟩

/-- A broadcast among local tracks none of which is bound. -/
theorem Allots.broadcast {present : Bool} {s s' : EndpointInternal Selector}
    (h : Allots present s) (hup : LocalsUp s) (hbound : NoneBound s) {now : Instant}
    {toLocals : LocalTrack.Input} {toRemotes : RemoteTrack.Input}
    (hlocals : EndpointLocalTrack.isBroadcast toLocals = true)
    (hremotes : EndpointRemoteTrack.isBroadcast toRemotes = true)
    (hok : s.broadcast env now toLocals toRemotes = .ok s') :
    Allots present s' ∧ LocalsUp s' ∧ NoneBound s' := by
  obtain ⟨localTracks, remoteTracks, hlocal, hremote, rfl⟩ := broadcast_eq_ok hok
  -- a track may be told twice, so that it is not bound is kept along
  have hL : Registered (fun t listed => t.Fits listed ∧ t.shutdown = false ∧
      (t.kind.isVideo && t.bind.isSome) = false) localTracks EndpointLocalTrack.track
      s.bitrateAllocator.sends := by
    have hbefore : Registered (fun t listed => t.Fits listed ∧ t.shutdown = false ∧
        (t.kind.isVideo && t.bind.isSome) = false) s.localTracks EndpointLocalTrack.track
        s.bitrateAllocator.sends :=
      h.locals.mono fun index t _ ht hfits => ⟨hfits, hup index t ht, hbound index t ht⟩
    refine hbefore.onEvents ?_ hlocal
    rintro t t' listed ⟨hfits, hrunning, hunbound⟩ ht'
    have hreacts := EndpointLocalTrack.onEvent_reacts _ _ ht'
    have hfits' : t'.Fits listed := by
      refine hfits.onEvent (fun _ => hunbound) ?_ ?_ ht'
      · rintro reqId req rfl
        cases hlocals
      · rintro reqId config rfl
        cases hlocals
    refine ⟨hreacts.track, hfits', hreacts.shutdown.trans hrunning, ?_⟩
    cases hreacts with
    | keep hinput | attach hinput | detach hinput =>
      rw [hinput] at hlocals
      cases hlocals
    | join _ hbind heq =>
      rw [heq]
      exact hunbound
    | leave _ _ _ hbind =>
      rw [hbind]
      exact Bool.and_false _
  have hR : Registered (EndpointRemoteTrack.Fits present) remoteTracks EndpointRemoteTrack.id
      s.bitrateAllocator.receives := by
    refine h.remotes.onEvents ?_ hremote
    intro t t' listed hfits ht'
    refine ⟨(EndpointRemoteTrack.onEvent_reacts ht').id, hfits.onEvent ?_ ?_ ht'⟩
    · rintro event rfl
      cases hremotes
    · rintro reqId config rfl
      cases hremotes
  refine ⟨⟨?_, ?_, hL.mono fun _ _ _ _ hfits => hfits.1, hR⟩, fun index t ht => ?_,
    fun index t ht => ?_⟩
  · exact h.localTable.onEvents (fun _ _ ht' => (EndpointLocalTrack.onEvent_reacts _ _ ht').track)
      hlocal
  · exact h.remoteTable.onEvents (fun _ _ ht' => (EndpointRemoteTrack.onEvent_reacts ht').id)
      hremote
  · exact (hL.each index t ht).2.1
  · exact (hL.each index t ht).2.2

theorem SameTracks.remoteRooms {s s' : EndpointInternal Selector} (h : SameTracks s s')
    {room : Option ClusterRoomHash}
    (hrooms : ∀ index t, s.remoteTracks.get index = some t → t.room = room) :
    ∀ index t, s'.remoteTracks.get index = some t → t.room = room := by
  intro index t' ht'
  obtain ⟨t, ht, hroom, -⟩ := h.remote index t' ht'
  exact hroom.trans (hrooms index t ht)

/-- After a broadcast every remote track is where it was told to be. -/
theorem Allots.broadcast_rooms {present : Bool} {s s' : EndpointInternal Selector}
    (h : Allots present s') {now : Instant} {toLocals : LocalTrack.Input}
    {toRemotes : RemoteTrack.Input} {room : Option ClusterRoomHash}
    (hroom : toRemotes = .leaveRoom ∧ room = none ∨
      ∃ hash, toRemotes = .joinRoom hash ∧ room = some hash)
    (hok : s.broadcast env now toLocals toRemotes = .ok s') :
    ∀ index t, s'.remoteTracks.get index = some t → t.room = room := by
  obtain ⟨localTracks, remoteTracks, -, hremote, rfl⟩ := broadcast_eq_ok hok
  intro index t ht
  refine TaskGroup.onEvents_establishes (fun t => t.room = room) (fun t t' ht' => ?_) hremote
    (h.remoteTable.mem_pairs ht) ht
  have hreacts := EndpointRemoteTrack.onEvent_reacts ht'
  rcases hroom with ⟨rfl, rfl⟩ | ⟨hash, rfl, rfl⟩
  · cases hreacts with
    | leave _ hafter => exact hafter
    | silent hinput => cases hinput
  · cases hreacts with
    | join _ hafter => exact hafter
    | silent hinput => cases hinput

/-- After the broadcast of a leave no local track is bound. -/
theorem Allots.broadcastLeave_unbound {present : Bool} {s s' : EndpointInternal Selector}
    (h : Allots present s') {now : Instant} {toRemotes : RemoteTrack.Input}
    (hok : s.broadcast env now .leaveRoom toRemotes = .ok s') :
    ∀ index t, s'.localTracks.get index = some t → t.bind.isSome = false := by
  obtain ⟨localTracks, remoteTracks, hlocal, -, rfl⟩ := broadcast_eq_ok hok
  intro index t ht
  refine TaskGroup.onEvents_establishes (fun t => t.bind.isSome = false) (fun t t' ht' => ?_)
    hlocal (h.localTable.mem_pairs ht) ht
  cases EndpointLocalTrack.onEvent_reacts _ _ ht' with
  | leave _ _ _ hbind =>
    rw [hbind]
    rfl
  | keep hinput | attach hinput | detach hinput => cases hinput

/-- A leave gives up no share: it is right if the registers need no change. -/
theorem Allots.leaveRoom {present : Bool} {s s' : EndpointInternal Selector}
    (h : Allots present s) (hup : LocalsUp s) (hbound : NoneBound s) {now : Instant}
    {schedule : Schedule} (hok : s.leaveRoom env now schedule = .ok s') :
    Allots present s' ∧ LocalsUp s' ∧ NoneBound s' ∧ s'.joined = none ∧
      (s.joined.isSome = true →
        ∀ index t, s'.remoteTracks.get index = some t → t.room = none) := by
  rcases leaveRoom_eq_ok hok with ⟨hnone, rfl⟩ | ⟨joined, s₁, s₂, hjoined, hs₁, hs₂, rfl⟩
  · refine ⟨h, hup, hbound, hnone, fun hsome => ?_⟩
    rw [hnone] at hsome
    cases hsome
  · have hout : Allots present { s with joined := none } := h.congr rfl rfl rfl rfl rfl
    obtain ⟨hallots₁, hup₁, -⟩ := hout.broadcast hup hbound rfl rfl hs₁
    have hrooms₁ := hallots₁.broadcast_rooms (Or.inl ⟨rfl, rfl⟩) hs₁
    have hunbound₁ := hallots₁.broadcastLeave_unbound hs₁
    have hsame := popAll_same hs₂
    have hnone : s₂.joined = none := by
      obtain ⟨localTracks, remoteTracks, -, -, rfl⟩ := broadcast_eq_ok hs₁
      exact (popAll_passes hs₂).joined
    refine ⟨(hallots₁.popAll hs₂).congr rfl rfl rfl rfl rfl, hsame.localsUp hup₁,
      fun index t' ht' => ?_, hnone, fun _ => hsame.remoteRooms hrooms₁⟩
    obtain ⟨t, ht, -, -, hbind⟩ := hsame.local_ index t' ht'
    have hfalse : t'.bind.isSome = false := by
      cases hsome : t'.bind.isSome with
      | false => rfl
      | true => exact (hbind hsome).symm.trans (hunbound₁ index t ht)
    rw [hfalse]
    exact Bool.and_false _

/-- Between inputs the registers are right for the room the endpoint is in, its remote
    tracks are in that room, and no local track has been told to stop. -/
structure AllotsInv (s : EndpointInternal Selector) : Prop where
  allots : Allots s.joined.isSome s
  localsUp : LocalsUp s
  rooms : ∀ index t, s.remoteTracks.get index = some t → t.room = s.inRoom

theorem AllotsInv.quiet {s s' : EndpointInternal Selector} (h : AllotsInv s)
    (hquiet : Quiet s s') (hshares : s'.bitrateAllocator.shares = s.bitrateAllocator.shares) :
    AllotsInv s' := by
  have hallots := h.allots.quiet hquiet hshares
  obtain ⟨outs, hframe, -⟩ := hquiet
  refine ⟨?_, ?_, ?_⟩
  · rw [hframe.joined]
    exact hallots
  · rw [LocalsUp, hframe.localTracks]
    exact h.localsUp
  · rw [hframe.remoteTracks, inRoom, hframe.joined]
    exact h.rooms

/-- A leave is right if neither a local video track is bound nor a remote one runs. -/
theorem AllotsInv.leaveRoom {s s' : EndpointInternal Selector} (h : AllotsInv s)
    (hbound : NoneBound s) (hnone : s.joined.isSome = true → NoVideo s) {now : Instant}
    {schedule : Schedule} (hok : s.leaveRoom env now schedule = .ok s') : AllotsInv s' := by
  have hout : Allots false s := by
    cases hjoined : s.joined with
    | none =>
      have hallots := h.allots
      rwa [hjoined] at hallots
    | some joined => exact h.allots.moved (hnone (by rw [hjoined]; rfl))
  obtain ⟨hallots, hup, -, hleft, hrooms⟩ := hout.leaveRoom h.localsUp hbound hok
  refine ⟨?_, hup, fun index t ht => ?_⟩
  · rw [hleft]
    exact hallots
  · rw [inRoom, hleft]
    rcases leaveRoom_eq_ok hok with ⟨hnot, rfl⟩ | ⟨joined, -, -, hjoined, -⟩
    · have hroom := h.rooms index t ht
      rwa [inRoom, hnot] at hroom
    · exact hrooms (by rw [hjoined]; rfl) index t ht

/-- A join is right if no local video track is bound and no remote one was started outside
    of rooms; remote tracks that change rooms keep their shares. -/
theorem AllotsInv.joinRoom {s s' : EndpointInternal Selector} (h : AllotsInv s)
    (hbound : NoneBound s) (hnone : s.joined = none → NoVideo s) {now : Instant}
    {schedule : Schedule} {req : WaitJoin}
    (hok : s.joinRoom env now schedule req = .ok s') : AllotsInv s' := by
  obtain ⟨s₁, hs₁, hs'⟩ := joinRoom_eq_ok hok
  have hin : Allots true s := by
    cases hjoined : s.joined with
    | none => exact h.allots.moved (hnone hjoined)
    | some joined =>
      have hallots := h.allots
      rwa [hjoined] at hallots
  have hpush : Allots true (s.push [.rpcRes req.reqId (.joinRoom (.ok ()))]) :=
    hin.congr rfl rfl rfl rfl rfl
  obtain ⟨hallots₁, hup₁, hbound₁, -⟩ := hpush.leaveRoom h.localsUp hbound hs₁
  have hjoined : Allots true ({ s₁ with joined := some (joinedBy env s req) }.push
      (s₁.joinOutputs now (joinedBy env s req).hash req)) := hallots₁.congr rfl rfl rfl rfl rfl
  obtain ⟨hallots', hup', -⟩ := hjoined.broadcast hup₁ hbound₁ rfl rfl hs'
  have hrooms' := hallots'.broadcast_rooms (Or.inr ⟨_, rfl, rfl⟩) hs'
  have hsome : s'.joined = some (joinedBy env s req) := by
    obtain ⟨localTracks, remoteTracks, -, -, rfl⟩ := broadcast_eq_ok hs'
    rfl
  refine ⟨?_, hup', ?_⟩
  · rw [hsome]
    exact hallots'
  · rw [inRoom, hsome]
    exact hrooms'

/-- The shutdown removes every track, and with the remote ones their shares. -/
theorem AllotsInv.onShutdown {s s' : EndpointInternal Selector} (h : AllotsInv s)
    (hbound : s.shutdown = false → NoneBound s) {now : Instant} {schedule : Schedule}
    (hok : s.onShutdown env now schedule = .ok s') : AllotsInv s' := by
  rcases onShutdown_eq_ok hok with
    ⟨-, rfl⟩ | ⟨hrunning, localTracks, remoteTracks, s₁, hlocal, hremote, hs₁, hcase⟩
  · exact h
  · have hL : Registered (fun t listed => t.Fits listed ∧
        (t.kind.isVideo && t.bind.isSome) = false) localTracks EndpointLocalTrack.track
        s.bitrateAllocator.sends := by
      have hbefore : Registered (fun t listed => t.Fits listed ∧
          (t.kind.isVideo && t.bind.isSome) = false) s.localTracks EndpointLocalTrack.track
          s.bitrateAllocator.sends :=
        h.allots.locals.mono fun index t _ ht hfits => ⟨hfits, hbound hrunning index t ht⟩
      refine hbefore.onEvents ?_ hlocal
      rintro t t' listed ⟨hfits, hunbound⟩ ht'
      have hfits' := hfits.onShutdown hunbound ht'
      obtain ⟨htrack, hstop, -⟩ := EndpointLocalTrack.onShutdown_eq_ok ht'
      refine ⟨htrack, hfits', ?_⟩
      rw [hfits'.stopped hstop]
      exact Bool.and_false _
    have hR : Registered (EndpointRemoteTrack.Fits s.joined.isSome) remoteTracks
        EndpointRemoteTrack.id s.bitrateAllocator.receives :=
      h.allots.remotes.onEvents (fun _ _ _ hfits ht' =>
        ⟨(EndpointRemoteTrack.onShutdown_reports ht').id, hfits.onShutdown ht'⟩) hremote
    have hstopped : Allots s.joined.isSome { s with
        shutdown := true, localTracks := localTracks, remoteTracks := remoteTracks } :=
      ⟨h.allots.localTable.onEvents
          (fun _ _ ht' => (EndpointLocalTrack.onShutdown_eq_ok ht').1) hlocal,
        h.allots.remoteTable.onEvents
          (fun _ _ ht' => (EndpointRemoteTrack.onShutdown_reports ht').id) hremote,
        hL.mono fun _ _ _ _ hfits => hfits.1, hR⟩
    obtain ⟨hnoRemote, hnoLocal⟩ := popAll_removes hs₁
      (fun index t' ht' => by
        obtain ⟨t, -, hhandle⟩ := (TaskGroup.onAll_image hremote).exists_before ht'
        exact (EndpointRemoteTrack.onShutdown_eq_ok hhandle).1)
      (fun index t' ht' => by
        obtain ⟨t, -, hhandle⟩ := (TaskGroup.onAll_image hlocal).exists_before ht'
        exact (EndpointLocalTrack.onShutdown_eq_ok hhandle).2.1)
    have hallots : ∀ present, Allots present s₁ := fun present =>
      (hstopped.popAll hs₁).moved fun index t ht => absurd ht (hnoRemote index t)
    rcases hcase with ⟨-, rfl⟩ | ⟨joined, -, rfl⟩
    · exact ⟨hallots _, fun index t ht => absurd ht (hnoLocal index t),
        fun index t ht => absurd ht (hnoRemote index t)⟩
    · exact ⟨(hallots _).congr rfl rfl rfl rfl rfl, fun index t ht => absurd ht (hnoLocal index t),
        fun index t ht => absurd ht (hnoRemote index t)⟩

theorem AllotsInv.onTick {s s' : EndpointInternal Selector} (h : AllotsInv s) {now : Instant}
    (hok : s.onTick env now = .ok s') : AllotsInv s' := by
  obtain ⟨localTracks, hlocal, rfl⟩ := onTick_eq_ok hok
  have hkeeps : ∀ t t' : EndpointLocalTrack Selector,
      (.ok (EndpointLocalTrack.onTick env.selector env.timestampMs now t) :
        Except Panic (EndpointLocalTrack Selector)) = .ok t' → t.Keeps t' ∧ t.Reports t' [] := by
    rintro t t' ⟨⟩
    exact ⟨EndpointLocalTrack.onTick_keeps _ _ t now, EndpointLocalTrack.onTick_reports _ _ t now⟩
  have hticked : Allots s.joined.isSome { s with localTracks := localTracks } :=
    ⟨h.allots.localTable.onEvents (fun _ _ ht' => (hkeeps _ _ ht').1.track) hlocal,
      h.allots.remoteTable,
      h.allots.locals.onEvents (fun _ _ _ hfits ht' =>
        ⟨(hkeeps _ _ ht').1.track, hfits.keeps (hkeeps _ _ ht').1 (hkeeps _ _ ht').2⟩) hlocal,
      h.allots.remotes⟩
  refine ⟨hticked.congr rfl rfl rfl rfl (BitrateAllocator.shares_onTick _), ?_, h.rooms⟩
  intro index t' ht'
  obtain ⟨t, ht, hhandle⟩ := (TaskGroup.onAll_image hlocal).exists_before ht'
  exact (hkeeps t t' hhandle).1.shutdown.trans (h.localsUp index t ht)

/-- An input reaches a local track; a new priority reaches only a video track that is bound. -/
theorem AllotsInv.toLocal {s s' : EndpointInternal Selector} (h : AllotsInv s) {now : Instant}
    {index : Nat} {told : LocalTrack.Input}
    (hroutine : EndpointLocalTrack.isBroadcast told = false)
    (hconfig : ∀ t reqId config, s.localTracks.get index = some t →
      told = .rpcReq reqId (.config config) → t.kind.isVideo = true → t.bind.isSome = true)
    (hok : s.toLocal env now index told = .ok s') : AllotsInv s' := by
  obtain ⟨group, hgroup, rfl⟩ := toLocal_eq_ok hok
  rcases TaskGroup.onEvent_eq_ok hgroup with ⟨-, rfl⟩ | ⟨t, t', ht, ht', rfl⟩
  · exact h
  · have hreacts := EndpointLocalTrack.onEvent_reacts _ _ ht'
    have hfits : t'.Fits (s.bitrateAllocator.sends t.track) := by
      refine (h.allots.locals.each index t ht).onEvent ?_ (fun _ _ _ => h.localsUp index t ht)
        (fun reqId config => hconfig t reqId config ht) ht'
      rintro rfl
      cases hroutine
    refine ⟨h.allots.setLocal ht hreacts.track hfits, fun j u hu => ?_, h.rooms⟩
    rcases TaskGroup.get_set_eq_some hu with ⟨-, rfl⟩ | ⟨-, hold⟩
    · exact hreacts.shutdown.trans (h.localsUp index t ht)
    · exact h.localsUp j u hold

/-- An input reaches a remote track; a new priority reaches only a video track in a room. -/
theorem AllotsInv.toRemote {s s' : EndpointInternal Selector} (h : AllotsInv s) {now : Instant}
    {index : Nat} {told : RemoteTrack.Input}
    (hroutine : EndpointRemoteTrack.isBroadcast told = false)
    (hstart : ∀ event, told = .event event → event.needCreate = none)
    (hconfig : ∀ t reqId config, s.remoteTracks.get index = some t →
      told = .rpcReq reqId (.config config) → config.priority ≠ 0 →
      t.trackMeta.kind.isVideo = true → t.shutdown = false → s.joined.isSome = true)
    (hok : s.toRemote now index told = .ok s') : AllotsInv s' := by
  obtain ⟨group, hgroup, rfl⟩ := toRemote_eq_ok hok
  rcases TaskGroup.onEvent_eq_ok hgroup with ⟨-, rfl⟩ | ⟨t, t', ht, ht', rfl⟩
  · exact h
  · have hreacts := EndpointRemoteTrack.onEvent_reacts ht'
    have hfits : t'.Fits s.joined.isSome (s.bitrateAllocator.receives t.id) :=
      (h.allots.remotes.each index t ht).onEvent hstart
        (fun reqId config => hconfig t reqId config ht) ht'
    refine ⟨h.allots.setRemote ht hreacts.id hfits, h.localsUp, fun j u hu => ?_⟩
    rcases TaskGroup.get_set_eq_some hu with ⟨-, rfl⟩ | ⟨-, hold⟩
    · exact (hreacts.room hroutine).trans (h.rooms index t ht)
    · exact h.rooms j u hold

/-- A new remote track starts, under an id that no other track has. -/
theorem AllotsInv.startRemote {s s' : EndpointInternal Selector} (h : AllotsInv s)
    {now : Instant} {hint : Nat} {track : RemoteTrackId} {name : TrackName}
    {priority : TrackPriority} {trackMeta : TrackMeta}
    (hfresh : ∀ index t, s.remoteTracks.get index = some t → t.id ≠ track)
    (hok : (s.withRemote hint track name trackMeta).toRemote now (s.remoteTracks.freeIndex hint)
      (.event (.started name priority trackMeta)) = .ok s') : AllotsInv s' := by
  obtain ⟨group, hgroup, rfl⟩ := toRemote_eq_ok hok
  let new := EndpointRemoteTrack.new s.inRoom track name trackMeta s.cfg.record
  have hnew : (s.remoteTracks.addTask hint new).get (s.remoteTracks.freeIndex hint) = some new := by
    rw [TaskGroup.get_addTask, if_pos rfl]
  rcases TaskGroup.onEvent_eq_ok hgroup with ⟨hnone, -⟩ | ⟨t, t', ht, ht', rfl⟩
  · have hsome : (s.withRemote hint track name trackMeta).remoteTracks.get
        (s.remoteTracks.freeIndex hint) = some new := hnew
    rw [hsome] at hnone
    cases hnone
  · obtain rfl : new = t := Option.some.inj (hnew.symm.trans ht)
    have hreacts := EndpointRemoteTrack.onEvent_reacts ht'
    have hid : t'.id = track := hreacts.id
    have hfits : t'.Fits s.joined.isSome false := by
      have hstart := EndpointRemoteTrack.fits_start ht'
      rwa [inRoom, Option.isSome_map] at hstart
    have hget : ∀ j, ((s.remoteTracks.addTask hint new).set (s.remoteTracks.freeIndex hint)
        t').get j = (s.remoteTracks.addTask hint t').get j := by
      intro j
      rw [TaskGroup.get_set, TaskGroup.get_addTask, TaskGroup.get_addTask]
      split
      · rfl
      · rfl
    refine ⟨⟨h.allots.localTable, ?_, h.allots.locals, ?_⟩, h.localsUp, fun j u hu => ?_⟩
    · exact (h.allots.remoteTable.addTask (t := new) hint hfresh).set hnew hreacts.id
    · refine (h.allots.remotes.addTask hint ?_ hfits).congr hget
      rw [hid]
      exact hfresh
    · rcases TaskGroup.get_set_eq_some hu with ⟨-, rfl⟩ | ⟨hj, hu⟩
      · exact hreacts.room rfl
      · have hold : (s.remoteTracks.addTask hint new).get j = some u := hu
        rw [TaskGroup.get_addTask, if_neg hj] at hold
        exact h.rooms j u hold

/-- A new local track, under an id that no other track has. -/
theorem AllotsInv.withLocal {s : EndpointInternal Selector} (h : AllotsInv s)
    (env : Env Selector) (hint : Nat) {track : LocalTrackId} (kind : MediaKind)
    (hfresh : ∀ index t, s.localTracks.get index = some t → t.track ≠ track) :
    AllotsInv (EndpointInternal.withLocal env s hint track kind) := by
  let new := EndpointLocalTrack.new env.selector track kind s.inRoom
  refine ⟨⟨h.allots.localTable.addTask (t := new) hint hfresh, h.allots.remoteTable,
    h.allots.locals.addTask (t := new) hint hfresh (EndpointLocalTrack.fits_new _ _ _ _),
    h.allots.remotes⟩, fun index t ht => ?_, h.rooms⟩
  change (s.localTracks.addTask hint new).get index = some t at ht
  rw [TaskGroup.get_addTask] at ht
  split at ht
  · cases ht
    rfl
  · exact h.localsUp index t ht

theorem AllotsInv.poll {s s' : EndpointInternal Selector} (h : AllotsInv s) {now : Instant}
    {schedule : Schedule} (hok : EndpointInternal.poll env now schedule s = .ok s') :
    AllotsInv s' := by
  have hsame := poll_same hok
  have hjoined := (poll_passes hok).joined
  refine ⟨?_, hsame.localsUp h.localsUp, ?_⟩
  · rw [hjoined]
    exact h.allots.poll hok
  · rw [inRoom, hjoined]
    exact hsame.remoteRooms h.rooms

/-! ### Runs -/

/-- The video tracks that are bound to a source. -/
def boundVideos (s : EndpointInternal Selector) : List LocalTrackId :=
  (s.localTracks.all.filter fun t => t.kind.isVideo && t.bind.isSome).map (·.track)

/-- The video tracks of the client that are in a room. -/
def roomVideos (s : EndpointInternal Selector) : List RemoteTrackId :=
  (s.remoteTracks.all.filter fun t => t.trackMeta.kind.isVideo && t.room.isSome).map (·.id)

/-- Some video track of the client has not ended. -/
def runsVideo (s : EndpointInternal Selector) : Bool :=
  s.remoteTracks.all.any fun t => t.trackMeta.kind.isVideo && !t.shutdown

/-- The input makes the endpoint unbind its local tracks. -/
def unbinds (s : EndpointInternal Selector) (input : Input) : Bool :=
  s.joins input || s.leaves input || closes input && !s.shutdown

/-- The input takes the endpoint into a room from outside, or out of one. -/
def crosses (s : EndpointInternal Selector) (input : Input) : Bool :=
  s.joins input && s.joined.isNone || s.leaves input && s.joined.isSome

/-- A new priority is for a track that has a share, or for none. -/
def configuresShared (s : EndpointInternal Selector) : Input → Bool
  | .rpc _ _ _ (.localTrack track (.config _)) =>
      match s.localTracksId.get1 track with
      | none => true
      | some index => (s.localTracks.get index).all fun t => !t.kind.isVideo || t.bind.isSome
  | .rpc _ _ _ (.remoteTrack track (.config config)) =>
      config.priority == 0 || s.joined.isSome ||
        match s.remoteTracksId.get1 track with
        | none => true
        | some index => (s.remoteTracks.get index).all fun t =>
            !t.trackMeta.kind.isVideo || t.shutdown
  | _ => true

/-- The condition: no track is started twice, no video track is bound when the endpoint
    leaves its room or is shut down, none of the client runs when the endpoint goes into
    a room or out of it, and priorities are given to tracks that have a share. -/
def KeepsShares : Contract (EndpointInternal Selector) Input InternalOutput :=
  fun _ s input => s.startsFresh input = true ∧
    (s.unbinds input = true → s.boundVideos = []) ∧
    (s.crosses input = true → s.runsVideo = false) ∧
    s.configuresShared input = true

instance (history : History Input InternalOutput) (s : EndpointInternal Selector)
    (input : Input) : Decidable (KeepsShares history s input) :=
  inferInstanceAs (Decidable (_ ∧ _ ∧ _ ∧ _))

theorem noneBound_of_boundVideos {s : EndpointInternal Selector} (h : s.boundVideos = []) :
    NoneBound s := by
  intro index t ht
  rw [boundVideos, List.map_eq_nil_iff, List.filter_eq_nil_iff] at h
  exact Bool.not_eq_true _ ▸ h t (TaskGroup.mem_all_iff.mpr ⟨index, ht⟩)

theorem noVideo_of_runsVideo {s : EndpointInternal Selector} (h : s.runsVideo = false) :
    NoVideo s := by
  intro index t ht hvideo
  have hnot := List.any_eq_false.mp h t (TaskGroup.mem_all_iff.mpr ⟨index, ht⟩)
  simpa [hvideo] using hnot

theorem NoneBound.quiet {s s' : EndpointInternal Selector} (h : NoneBound s)
    (hquiet : Quiet s s') : NoneBound s' := by
  obtain ⟨outs, hframe, -⟩ := hquiet
  rw [NoneBound, hframe.localTracks]
  exact h

theorem NoVideo.quiet {s s' : EndpointInternal Selector} (h : NoVideo s)
    (hquiet : Quiet s s') : NoVideo s' := by
  obtain ⟨outs, hframe, -⟩ := hquiet
  rw [NoVideo, hframe.remoteTracks]
  exact h

/-- **Every step that meets the contract keeps the registers right.** -/
theorem AllotsInv.step {history : History Input InternalOutput} {s s' : EndpointInternal Selector}
    {input : Input} (h : AllotsInv s) (hok : KeepsShares history s input)
    (hstep : s.step env input = .ok s') : AllotsInv s' := by
  obtain ⟨hfresh, hunbinds, hcrosses, hconfigs⟩ := hok
  cases step_effect hstep with
  | quiet _ hquiet hshares => exact h.quiet hquiet hshares
  | join hjoins hquiet hjoin hshares =>
    have hbound := noneBound_of_boundVideos (hunbinds (by simp [unbinds, hjoins]))
    refine (h.quiet hquiet hshares).joinRoom (hbound.quiet hquiet) (fun hnone => ?_) hjoin
    rw [hquiet.joined] at hnone
    exact (noVideo_of_runsVideo (hcrosses (by simp [crosses, hjoins, hnone]))).quiet hquiet
  | leave hleaves hquiet hleave hshares =>
    have hbound := noneBound_of_boundVideos (hunbinds (by simp [unbinds, hleaves]))
    refine (h.quiet hquiet hshares).leaveRoom (hbound.quiet hquiet) (fun hsome => ?_) hleave
    rw [hquiet.joined] at hsome
    exact (noVideo_of_runsVideo (hcrosses (by simp [crosses, hleaves, hsome]))).quiet hquiet
  | shutdown hcloses hquiet hshutdown hshares =>
    refine (h.quiet hquiet hshares).onShutdown (fun hrunning => ?_) hshutdown
    rw [hquiet.shutdown] at hrunning
    exact (noneBound_of_boundVideos
      (hunbinds (by simp [unbinds, hcloses, hrunning]))).quiet hquiet
  | toRemote _ hindex hroutine hevent hto hreq =>
    refine h.toRemote hroutine (fun event heq => (hevent event heq).1) ?_ hto
    intro t reqId config ht heq hpriority hvideo hrunning
    obtain ⟨now, schedule, rfl⟩ := hreq _ _ heq
    simpa [configuresShared, hindex, ht, hpriority, hvideo, hrunning] using hconfigs
  | toLocal _ hindex hroutine hto hreq =>
    refine h.toLocal hroutine ?_ hto
    intro t reqId config ht heq hvideo
    obtain ⟨now, schedule, rfl⟩ := hreq _ _ heq
    simpa [configuresShared, hindex, ht, hvideo] using hconfigs
  | startRemote hstart =>
    refine h.startRemote (fun index t ht => ?_) hstart
    have hall := List.all_eq_true.mp hfresh t (TaskGroup.mem_all_iff.mpr ⟨index, ht⟩)
    simpa using hall
  | @startLocal s₁ _ _ _ hint track kind hquiet hstart hshares =>
    have hnew := h.withLocal env hint kind fun index t ht => by
      have hall := List.all_eq_true.mp hfresh t (TaskGroup.mem_all_iff.mpr ⟨index, ht⟩)
      simpa using hall
    exact (hnew.quiet hquiet hshares).toLocal rfl (by simp) hstart
  | tick htick => exact h.onTick htick
  | poll hpoll => exact h.poll hpoll

end

theorem allotsInv_init (cfg : EndpointCfg) :
    AllotsInv (EndpointInternal.new cfg : EndpointInternal Selector) := by
  refine ⟨⟨Exact.empty.indexed, Exact.empty.indexed, ⟨?_, ?_⟩, ⟨?_, ?_⟩⟩, ?_, ?_⟩
  · rintro id ⟨⟩
  · rintro index t ⟨⟩
  · rintro id ⟨⟩
  · rintro index t ⟨⟩
  · rintro index t ⟨⟩
  · rintro index t ⟨⟩

theorem AllotsInv.dropFront {s : EndpointInternal Selector} (h : AllotsInv s) :
    AllotsInv { s with queue := s.queue.tail } :=
  ⟨h.allots.congr rfl rfl rfl rfl rfl, h.localsUp, h.rooms⟩

/-- The claim about a state: exactly the bound video tracks share the egress bandwidth,
    and exactly the client's video tracks in a room share the ingress bandwidth. -/
structure SharesRight (s : EndpointInternal Selector) : Prop where
  egress : ∀ id, id ∈ s.bitrateAllocator.egress.tracks.keys ↔ id ∈ s.boundVideos
  ingress : ∀ id, id ∈ s.bitrateAllocator.ingress.tracks.keys ↔ id ∈ s.roomVideos

theorem mem_keys_egress {a : BitrateAllocator} {id : LocalTrackId} :
    id ∈ a.egress.tracks.keys ↔ a.sends id = true := by
  rw [BitrateAllocator.sends, Option.isSome_iff_ne_none, ne_eq, IndexMap.get_eq_none_iff,
    not_not]
  rfl

theorem mem_keys_ingress {a : BitrateAllocator} {id : RemoteTrackId} :
    id ∈ a.ingress.tracks.keys ↔ a.receives id = true := by
  rw [BitrateAllocator.receives, Option.isSome_iff_ne_none, ne_eq, IndexMap.get_eq_none_iff,
    not_not]
  rfl

/-- Once all reports have been heard, the registers are right. -/
theorem AllotsInv.sharesRight {s : EndpointInternal Selector} (h : AllotsInv s)
    (hquiet : s.Quiescent) : SharesRight s := by
  have hlocal : ∀ index t, s.localTracks.get index = some t →
      s.bitrateAllocator.sends t.track = (t.kind.isVideo && t.bind.isSome) := by
    intro index t ht
    have hsettled := (h.allots.locals.each index t ht).settled
    rwa [EndpointLocalTrack.settled,
      show t.queue = [] from (hquiet.localTracks index t ht).1] at hsettled
  have hremote : ∀ index t, s.remoteTracks.get index = some t →
      s.bitrateAllocator.receives t.id = (t.trackMeta.kind.isVideo && t.room.isSome) := by
    intro index t ht
    obtain ⟨hqueue, hbusy⟩ := hquiet.remoteTracks index t ht
    -- an idle track that had ended would have been removed
    have hrunning : t.shutdown = false := by
      have hbusy : (t.shutdown && t.queue.isEmpty) = false := hbusy
      rwa [show t.queue = [] from hqueue, List.isEmpty_nil, Bool.and_true] at hbusy
    have hsettled := (h.allots.remotes.each index t ht).settled (Or.inr hrunning)
    rw [EndpointRemoteTrack.settled, show t.queue = [] from hqueue] at hsettled
    rw [h.rooms index t ht, inRoom, Option.isSome_map]
    exact hsettled
  refine ⟨fun id => ?_, fun id => ?_⟩
  · rw [mem_keys_egress, boundVideos, List.mem_map]
    constructor
    · intro hlisted
      obtain ⟨index, t, ht, rfl⟩ := h.allots.locals.owned id hlisted
      rw [hlocal index t ht] at hlisted
      exact ⟨t, List.mem_filter.mpr ⟨TaskGroup.mem_all_iff.mpr ⟨index, ht⟩, hlisted⟩, rfl⟩
    · rintro ⟨t, hmem, rfl⟩
      obtain ⟨hall, hbound⟩ := List.mem_filter.mp hmem
      obtain ⟨index, ht⟩ := TaskGroup.mem_all_iff.mp hall
      rw [hlocal index t ht]
      exact hbound
  · rw [mem_keys_ingress, roomVideos, List.mem_map]
    constructor
    · intro hlisted
      obtain ⟨index, t, ht, rfl⟩ := h.allots.remotes.owned id hlisted
      rw [hremote index t ht] at hlisted
      exact ⟨t, List.mem_filter.mpr ⟨TaskGroup.mem_all_iff.mpr ⟨index, ht⟩, hlisted⟩, rfl⟩
    · rintro ⟨t, hmem, rfl⟩
      obtain ⟨hall, hin⟩ := List.mem_filter.mp hmem
      obtain ⟨index, ht⟩ := TaskGroup.mem_all_iff.mp hall
      rw [hremote index t ht]
      exact hin

/-- **The tracks that share the bandwidth.** In a run that meets the condition, whenever
    no report waits, the registers of the allocator are those of the live tracks. -/
theorem shares_follow_tracks (env : Env Selector) (cfg : EndpointCfg) {acts : List (Action Input)}
    {c : Config (EndpointInternal Selector) Input InternalOutput}
    (hadm : (machine env cfg).Admits KeepsShares acts) (hrun : (machine env cfg).run acts = .ok c)
    (hquiet : c.state.Quiescent) : SharesRight c.state := by
  have hinv : AllotsInv c.state :=
    run_invariant KeepsShares (fun _ s => AllotsInv s) (allotsInv_init cfg)
      (fun _ _ _ _ hP hok hs' => hP.step hok hs') (fun _ _ hP => hP.dropFront) hadm hrun
  exact hinv.sharesRight hquiet

/-- Nothing waits in an allocator or a track, and no track is about to be removed. -/
theorem quiescent_of_idle {s : EndpointInternal Selector}
    (hallocator : s.bitrateAllocator.pending = 0)
    (hlocal : (s.localTracks.all.all fun t => t.queue.isEmpty && !t.isEmpty) = true)
    (hremote : (s.remoteTracks.all.all fun t => t.queue.isEmpty && !t.isEmpty) = true) :
    s.Quiescent := by
  refine ⟨hallocator, fun index t ht => ?_, fun index t ht => ?_⟩
  · have hidle := List.all_eq_true.mp hlocal t (TaskGroup.mem_all_iff.mpr ⟨index, ht⟩)
    obtain ⟨hqueue, hbusy⟩ := Bool.and_eq_true_iff.mp hidle
    exact ⟨List.isEmpty_iff.mp hqueue, Bool.not_eq_true' _ ▸ hbusy⟩
  · have hidle := List.all_eq_true.mp hremote t (TaskGroup.mem_all_iff.mpr ⟨index, ht⟩)
    obtain ⟨hqueue, hbusy⟩ := Bool.and_eq_true_iff.mp hidle
    exact ⟨List.isEmpty_iff.mp hqueue, Bool.not_eq_true' _ ▸ hbusy⟩

/-- The owner pops until nothing is left. -/
def drain : List (Action Input) :=
  (List.replicate 12 [.input (.poll 0 [.bitrateAllocator, .localTracks 0, .remoteTracks 0]),
    .pop]).flatten

/-- A camera track starts. -/
def startCamera (track : RemoteTrackId) : Input :=
  .transport 0 [] 0 (.remoteTrack track
    (.started "camera" 1 { TrackMeta.defaultAudio with kind := .video }))

/-- A view of video starts, and is attached to the camera of another peer. -/
def watch (track : LocalTrackId) : List (Action Input) :=
  [.input (.transport 0 [] 0 (.localTrack track (.started .video))),
    .input (.rpc 0 [] 2 (.localTrack track (.attach ⟨"other", "camera"⟩ ⟨1, 2, 2, none, none⟩)))]

/-- A client that publishes its camera and watches another one. -/
def publishAndWatch : List (Action Input) :=
  connect ++ [Action.input (joinRequest "room"), .input (startCamera 1)] ++ drain ++ watch 5 ++
    drain ++ [Action.input (.tick 0)] ++ drain

theorem shares_follow_tracks_publishAndWatch :
    ∃ c, (machine Env.passAll rootCfg).run publishAndWatch = .ok c ∧ c.state.Quiescent ∧
      c.state.boundVideos = [5] ∧ c.state.roomVideos = [1] ∧ SharesRight c.state := by
  have hrun : ∃ c, (machine Env.passAll rootCfg).run publishAndWatch = .ok c ∧
      c.state.Quiescent ∧ c.state.boundVideos = [5] ∧ c.state.roomVideos = [1] :=
    ⟨_, rfl, quiescent_of_idle rfl rfl rfl, rfl, rfl⟩
  obtain ⟨c, hc, hquiet, hbound, hroom⟩ := hrun
  have hadm : (machine Env.passAll rootCfg).Admits KeepsShares publishAndWatch :=
    AdmitsFrom.admits (by decide +kernel)
  exact ⟨c, hc, hquiet, hbound, hroom,
    shares_follow_tracks Env.passAll rootCfg hadm hc hquiet⟩

/-- A client that leaves the room while it watches. -/
def leaveWatching : List (Action Input) :=
  connect ++ [Action.input (joinRequest "room")] ++ watch 5 ++ drain ++
    [Action.input (.rpc 0 [] 3 .leaveRoom)]

/-- A client that leaves the room while its camera runs. -/
def leavePublishing : List (Action Input) :=
  connect ++ [Action.input (joinRequest "room"), .input (startCamera 1)] ++ drain ++
    [Action.input (.rpc 0 [] 3 .leaveRoom)]

/-- A client that joins with its camera running. -/
def joinPublishing : List (Action Input) :=
  connect ++ [Action.input (startCamera 1)] ++ drain ++ [Action.input (joinRequest "room")] ++ drain

/-- A client that gives a priority to a view that is attached to nothing. -/
def configureUnbound : List (Action Input) :=
  connect ++ [Action.input (joinRequest "room"),
    .input (.transport 0 [] 0 (.localTrack 5 (.started .video))),
    .input (.rpc 0 [] 2 (.localTrack 5 (.config ⟨1, 2, 2, none, none⟩)))] ++ drain

/-- The run settles with a register that does not follow its tracks. -/
def Misallots (acts : List (Action Input)) : Prop :=
  ∃ c, (machine Env.passAll rootCfg).run acts = .ok c ∧ c.state.Quiescent ∧
    ¬ SharesRight c.state

/-- The ways to get the registers wrong: a binding is lost with the room, a camera keeps
    its share outside of rooms or gets none inside, and a priority alone makes a share. -/
theorem shares_without_tracks :
    Misallots leaveWatching ∧ Misallots leavePublishing ∧ Misallots joinPublishing ∧
      Misallots configureUnbound := by
  refine ⟨⟨_, rfl, quiescent_of_idle rfl rfl rfl, ?_⟩, ⟨_, rfl, quiescent_of_idle rfl rfl rfl, ?_⟩,
    ⟨_, rfl, quiescent_of_idle rfl rfl rfl, ?_⟩, ⟨_, rfl, quiescent_of_idle rfl rfl rfl, ?_⟩⟩
  · intro h
    cases (h.egress 5).mp (by decide)
  · intro h
    cases (h.ingress 1).mp (by decide)
  · intro h
    cases (h.ingress 1).mpr (by decide)
  · intro h
    cases (h.egress 5).mp (by decide)

end EndpointInternal

end MediaServer.Endpoint
