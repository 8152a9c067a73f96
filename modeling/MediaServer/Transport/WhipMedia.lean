import MediaServer.Transport.MediaConvert
import MediaServer.Transport.Refinement

/-!
# The tracks of WHIP media

`TransportWebrtcWhip` with its `RemoteMediaConvert`.  The transport looks at the payload type of a
packet twice: 111 is the audio track and everything else the video track, while the converter
finds the codec in what was negotiated.  The two agree as long as every configuration gives 111 to
Opus and to nothing else.
-/

namespace MediaServer.Transport

open Machine

structure WhipMedia where
  transport : TransportWebrtcWhip
  mediaConvert : RemoteMediaConvert

namespace WhipMedia

open TransportWebrtcWhip (audioTrack videoTrack)

/-- An input that is no RTP packet. -/
def IsPlain : TransportWebrtcWhip.Input → Prop
  | .str0m _ (.rtpPacket ..) => False
  | _ => True

inductive Input where
  | codecConfig (cfg : CodecConfig)
  | rtpPacket (now : Instant) (rtp : Str0mRtpPacket)
  | plain (input : {input : TransportWebrtcWhip.Input // IsPlain input})

def onCodecConfig (w : WhipMedia) (cfg : CodecConfig) : WhipMedia :=
  { w with mediaConvert := w.mediaConvert.setConfig cfg }

/-- The transport handles the packet that the converter makes of it. -/
def onRtpPacket (w : WhipMedia) (now : Instant) (rtp : Str0mRtpPacket) : Except Panic WhipMedia := do
  let (mediaConvert, pkt) ← w.mediaConvert.convert rtp
  let event := Str0mEvent.rtpPacket rtp.payloadType none pkt
  pure ⟨w.transport.onStr0mEvent now event, mediaConvert⟩

def step (w : WhipMedia) : Input → Except Panic WhipMedia
  | .codecConfig cfg => .ok (w.onCodecConfig cfg)
  | .rtpPacket now rtp => w.onRtpPacket now rtp
  | .plain input => do
      let transport ← w.transport.step input
      pure { w with transport := transport }

/-! ### What a step says of media -/

/-- The output is no media, or it is on the track of its kind. -/
def OnItsTrack : InternalOutput → Prop
  | .transportOutput (.event (.remoteTrack track (.media pkt))) =>
      (track = audioTrack ↔ pkt.mediaMeta.isAudio = true) ∧
        (track = videoTrack ↔ pkt.mediaMeta.isAudio = false)
  | _ => True

/-- The track that the transport takes for a payload type. -/
def trackOf (pt : UInt8) : RemoteTrackId := if pt = 111 then audioTrack else videoTrack

def mediaOutput (pt : UInt8) (pkt : MediaPacket) : InternalOutput :=
  .event (.remoteTrack (trackOf pt) (.media pkt))

theorem onItsTrack_mediaOutput {pt : UInt8} {pkt : MediaPacket} :
    OnItsTrack (mediaOutput pt pkt) ↔ (pkt.mediaMeta.isAudio = true ↔ pt = 111) := by
  change ((trackOf pt = audioTrack ↔ pkt.mediaMeta.isAudio = true) ∧
    (trackOf pt = videoTrack ↔ pkt.mediaMeta.isAudio = false)) ↔ _
  rw [trackOf]
  by_cases hpt : pt = 111
  · cases pkt.mediaMeta.isAudio <;> simp [hpt, audioTrack, videoTrack]
  · cases pkt.mediaMeta.isAudio <;> simp [hpt, audioTrack, videoTrack]

/-- The transport has added to its queue nothing that is on the wrong track. -/
def Pushes (t t' : TransportWebrtcWhip) : Prop :=
  ∃ outs, t'.queue = t.queue ++ outs ∧ ∀ out ∈ outs, OnItsTrack out

theorem Pushes.refl (t : TransportWebrtcWhip) : Pushes t t :=
  ⟨[], (List.append_nil t.queue).symm, fun _ hmem => nomatch hmem⟩

theorem Pushes.push {t t' : TransportWebrtcWhip} {outs : List InternalOutput} (h : Pushes t t')
    (houts : ∀ out ∈ outs, OnItsTrack out) : Pushes t (t'.push outs) := by
  obtain ⟨before, hqueue, hbefore⟩ := h
  refine ⟨before ++ outs, ?_, ?_⟩
  · rw [TransportWebrtcWhip.push, hqueue, List.append_assoc]
  · intro out hmem
    rcases List.mem_append.mp hmem with hold | hnew
    · exact hbefore out hold
    · exact houts out hnew

theorem Pushes.push_one {t t' : TransportWebrtcWhip} {out : InternalOutput} (h : Pushes t t')
    (hout : OnItsTrack out) : Pushes t (t'.push [out]) := by
  refine h.push fun out' hmem => ?_
  rw [List.mem_singleton.mp hmem]
  exact hout

theorem pushes_moveTo (t : TransportWebrtcWhip) (next : State × List TransportState) :
    Pushes t (t.moveTo next) := by
  have hsame : Pushes t { t with state := next.1 } := Pushes.refl t
  refine hsame.push fun out hmem => ?_
  obtain ⟨state, _, rfl⟩ := List.mem_map.mp hmem
  trivial

theorem pushes_onEndpointEvent (t : TransportWebrtcWhip) (event : EndpointEvent) :
    Pushes t (t.onEndpointEvent event) := by
  unfold TransportWebrtcWhip.onEndpointEvent
  split
  · split
    · exact Pushes.refl t
    · exact (Pushes.refl t).push_one trivial
  · split
    · exact Pushes.refl t
    · exact (Pushes.refl t).push_one trivial
  · exact Pushes.refl t

theorem pushes_onStr0mMediaAdded (t : TransportWebrtcWhip) (media : MediaAdded) :
    Pushes t (t.onStr0mMediaAdded media) := by
  unfold TransportWebrtcWhip.onStr0mMediaAdded
  split
  · exact Pushes.refl t
  · exact Pushes.refl t
  · split
    · exact Pushes.refl t
    · have hsame : Pushes t { t with audioMid := some media.mid } := Pushes.refl t
      exact hsame.push_one trivial
  · split
    · exact Pushes.refl t
    · have hsame : Pushes t { t with videoMid := some (media.mid, media.simulcast) } :=
        Pushes.refl t
      exact hsame.push_one trivial

theorem pushes_onStr0mEvent (t : TransportWebrtcWhip) {now : Instant} {event : Str0mEvent}
    (h : IsPlain (.str0m now event)) : Pushes t (t.onStr0mEvent now event) := by
  cases event with
  | connected => exact (pushes_moveTo t _).push_one trivial
  | iceConnectionStateChange ice => exact pushes_moveTo t _
  | mediaAdded media => exact pushes_onStr0mMediaAdded t media
  | rtpPacket payloadType mid pkt => exact h.elim
  | _ => exact Pushes.refl t

theorem pushes_onShutdown (t : TransportWebrtcWhip) : Pushes t t.onShutdown := by
  unfold TransportWebrtcWhip.onShutdown
  split
  · exact Pushes.refl t
  · exact pushes_moveTo t _

/-- Only RTP packets become media. -/
theorem pushes_plain {t t' : TransportWebrtcWhip} {input : TransportWebrtcWhip.Input}
    (hplain : IsPlain input) (h : t.step input = .ok t') : Pushes t t' := by
  cases input with
  | tick now =>
    rw [← Except.ok.inj h]
    exact pushes_moveTo t _
  | str0m now event =>
    rw [← Except.ok.inj h]
    exact pushes_onStr0mEvent t hplain
  | endpoint event =>
    rw [← Except.ok.inj h]
    exact pushes_onEndpointEvent t event
  | response =>
    rw [← Except.ok.inj h]
    exact Pushes.refl t
  | shutdown =>
    rw [← Except.ok.inj h]
    exact pushes_onShutdown t

theorem onStr0mEvent_rtpPacket (t : TransportWebrtcWhip) (now : Instant) (pt : UInt8)
    (pkt : MediaPacket) :
    t.onStr0mEvent now (.rtpPacket pt none (some pkt)) = t.push [mediaOutput pt pkt] := rfl

/-- What an RTP packet leads to: at most one media packet, of the codec that the converter knows
    for its payload type. -/
theorem onRtpPacket_eq_ok {w w' : WhipMedia} {now : Instant} {rtp : Str0mRtpPacket}
    (h : w.onRtpPacket now rtp = .ok w') :
    w'.mediaConvert.map = w.mediaConvert.map ∧
      (w'.transport = w.transport ∨
        ∃ pkt codec, w'.transport = w.transport.push [mediaOutput rtp.payloadType pkt] ∧
          w.mediaConvert.remotePtToCodec rtp.payloadType = some codec ∧
          pkt.mediaMeta.isAudio = codec.isAudio) := by
  obtain ⟨⟨mediaConvert, pkt⟩, hconvert, h⟩ := Except.bind_eq_ok.mp h
  obtain ⟨hmap, hpkt⟩ := RemoteMediaConvert.convert_eq_ok hconvert
  rw [← Except.ok.inj h]
  refine ⟨hmap, ?_⟩
  cases pkt with
  | none => exact Or.inl rfl
  | some pkt =>
    obtain ⟨codec, hcodec, hkind⟩ := hpkt pkt rfl
    exact Or.inr ⟨pkt, codec, onStr0mEvent_rtpPacket w.transport now rtp.payloadType pkt, hcodec,
      hkind⟩

theorem queue_step {w w' : WhipMedia} {input : Input} (h : w.step input = .ok w') :
    w.transport.queue <+: w'.transport.queue := by
  cases input with
  | codecConfig cfg =>
    obtain rfl := Except.ok.inj h
    exact List.prefix_refl _
  | rtpPacket now rtp =>
    rcases (onRtpPacket_eq_ok h).2 with hsame | ⟨pkt, codec, hpush, _, _⟩
    · exact hsame ▸ List.prefix_refl _
    · rw [hpush]
      exact List.prefix_append _ _
  | plain input =>
    obtain ⟨transport, hstep, h⟩ := Except.bind_eq_ok.mp h
    obtain ⟨outs, hqueue, _⟩ := pushes_plain input.property hstep
    rw [← Except.ok.inj h]
    exact ⟨outs, hqueue.symm⟩

def machine (room : RoomId) (peer : PeerId) (extraData : Option String) (remote : IpAddr) :
    Machine WhipMedia Input InternalOutput where
  init := ⟨.new room peer extraData remote, .default⟩
  step w input := w.step input
  queue w := w.transport.queue
  dropFront w := { w with transport.queue := w.transport.queue.tail }
  queue_init := rfl
  queue_dropFront _ := rfl
  step_appends _ _ _ h := queue_step h

/-! ### Runs -/

/-- Opus is at the payload type 111, and no other codec is. -/
def OpusAt111 (cfg : CodecConfig) : Prop :=
  ∀ param ∈ cfg.params, ∀ codec, str0mCodecConvert param.spec = some codec →
    (codec = .opus ↔ param.pt = 111)

/-- The converter and the fixed payload type tell the same packets as audio. -/
def SameKinds (c : RemoteMediaConvert) : Prop :=
  ∀ pt codec, c.remotePtToCodec pt = some codec → (codec.isAudio = true ↔ pt = 111)

theorem SameKinds.setConfig {c : RemoteMediaConvert} {cfg : CodecConfig} (h : SameKinds c)
    (hcfg : OpusAt111 cfg) : SameKinds (c.setConfig cfg) := by
  intro pt codec hcodec
  rcases RemoteMediaConvert.get_setConfig hcodec with hold | ⟨param, hmem, rfl, hconvert⟩
  · exact h pt codec hold
  · rw [MediaCodec.isAudio_iff]
    exact hcfg param hmem codec hconvert

theorem SameKinds.of_map {c c' : RemoteMediaConvert} (h : SameKinds c) (hmap : c'.map = c.map) :
    SameKinds c' := by
  intro pt codec hcodec
  rw [RemoteMediaConvert.remotePtToCodec, hmap] at hcodec
  exact h pt codec hcodec

/-- **One step.**  While the two agree, whatever a step pushes is on its track. -/
theorem SameKinds.step {w w' : WhipMedia} {input : Input} (h : SameKinds w.mediaConvert)
    (hcfg : ∀ cfg, input = .codecConfig cfg → OpusAt111 cfg) (hstep : w.step input = .ok w') :
    SameKinds w'.mediaConvert ∧ Pushes w.transport w'.transport := by
  cases input with
  | codecConfig cfg =>
    rw [← Except.ok.inj hstep]
    exact ⟨h.setConfig (hcfg cfg rfl), Pushes.refl w.transport⟩
  | rtpPacket now rtp =>
    obtain ⟨hmap, hsame | ⟨pkt, codec, hpush, hcodec, hkind⟩⟩ := onRtpPacket_eq_ok hstep
    · rw [hsame]
      exact ⟨h.of_map hmap, Pushes.refl w.transport⟩
    · have hout : OnItsTrack (mediaOutput rtp.payloadType pkt) := by
        rw [onItsTrack_mediaOutput, hkind]
        exact h rtp.payloadType codec hcodec
      rw [hpush]
      exact ⟨h.of_map hmap, (Pushes.refl w.transport).push_one hout⟩
  | plain input =>
    obtain ⟨transport, hplain, hstep⟩ := Except.bind_eq_ok.mp hstep
    rw [← Except.ok.inj hstep]
    exact ⟨h, pushes_plain input.property hplain⟩

variable {room : RoomId} {peer : PeerId} {extraData : Option String} {remote : IpAddr}

/-- The configurations that a run sets, in order. -/
def configsOf (acts : List (Action Input)) : List CodecConfig :=
  acts.filterMap fun
    | .input (.codecConfig cfg) => some cfg
    | _ => none

def setConfigs (cfgs : List CodecConfig) : List (Action Input) :=
  cfgs.map fun cfg => .input (.codecConfig cfg)

theorem configsOf_setConfigs (cfgs : List CodecConfig) : configsOf (setConfigs cfgs) = cfgs := by
  induction cfgs with
  | nil => rfl
  | cons cfg cfgs ih => exact congrArg (cfg :: ·) ih

theorem onItsTrack_of_run {acts : List (Action Input)}
    {c : Config WhipMedia Input InternalOutput}
    (hcfgs : ∀ cfg ∈ configsOf acts, OpusAt111 cfg)
    (hrun : (machine room peer extraData remote).run acts = .ok c) :
    ∀ out ∈ emitted c.history, OnItsTrack out := by
  have hadm : (machine room peer extraData remote).Admits
      (fun _ _ input => ∀ cfg, input = .codecConfig cfg → OpusAt111 cfg) acts := by
    intro before input after hacts c _ cfg hinput
    refine hcfgs cfg (List.mem_filterMap.mpr ⟨.input input, ?_, ?_⟩)
    · rw [hacts]
      exact List.mem_append_right before List.mem_cons_self
    · rw [hinput]
  have hinit : SameKinds RemoteMediaConvert.default := fun pt codec hcodec => nomatch hcodec
  refine (run_invariant _ (fun history w =>
    SameKinds w.mediaConvert ∧ ∀ out ∈ emitted history, OnItsTrack out) ?_ ?_ ?_ hadm hrun).2
  · exact ⟨hinit, fun out hmem => nomatch hmem⟩
  · intro history w input w' hinv hcfg hstep
    obtain ⟨hkinds, outs, hqueue, houts⟩ := hinv.1.step hcfg hstep
    refine ⟨hkinds, fun out hmem => ?_⟩
    rw [emitted_concat, pushed_eq_of_append _ hqueue] at hmem
    rcases List.mem_append.mp hmem with hold | hnew
    · exact hinv.2 out hold
    · exact houts out hnew
  · intro history w hinv
    exact hinv

theorem exec_setConfigs (cfgs : List CodecConfig) (c : Config WhipMedia Input InternalOutput) :
    ∃ c', (setConfigs cfgs).foldlM (machine room peer extraData remote).exec c = .ok c' ∧
      c'.state.mediaConvert = cfgs.foldl RemoteMediaConvert.setConfig c.state.mediaConvert ∧
      emitted c'.history = emitted c.history := by
  induction cfgs generalizing c with
  | nil => exact ⟨c, rfl, rfl, rfl⟩
  | cons cfg cfgs ih =>
    have hpushed : (machine room peer extraData remote).pushed c.state
        (c.state.onCodecConfig cfg) = [] :=
      pushed_eq_of_append _ (List.append_nil _).symm
    have hexec : (machine room peer extraData remote).exec c (.input (.codecConfig cfg)) =
        .ok ⟨c.state.onCodecConfig cfg, c.history ++ [(.codecConfig cfg, [])], c.popped⟩ := by
      rw [exec_input_eq_ok, ← hpushed]
      exact ⟨_, rfl, rfl⟩
    obtain ⟨c', hrun, hconvert, hemitted⟩ :=
      ih ⟨c.state.onCodecConfig cfg, c.history ++ [(.codecConfig cfg, [])], c.popped⟩
    refine ⟨c', ?_, hconvert, ?_⟩
    · rw [setConfigs, List.map_cons, List.foldlM_cons, hexec]
      exact hrun
    · rw [hemitted, emitted_concat, List.append_nil]

/-- A bare packet of a payload type that the converter knows. -/
theorem exec_bare {c : Config WhipMedia Input InternalOutput} {pt : UInt8} {codec : MediaCodec}
    (h : c.state.mediaConvert.remotePtToCodec pt = some codec) :
    ∃ c' pkt, (machine room peer extraData remote).exec c (.input (.rtpPacket 0 (.bare pt))) =
        .ok c' ∧ emitted c'.history = emitted c.history ++ [mediaOutput pt pkt] ∧
      pkt.mediaMeta.isAudio = codec.isAudio := by
  obtain ⟨pkt, hconvert, hkind⟩ := RemoteMediaConvert.convert_bare h
  have hstep : c.state.onRtpPacket 0 (.bare pt) =
      .ok ⟨c.state.transport.push [mediaOutput pt pkt], c.state.mediaConvert⟩ := by
    refine Except.bind_eq_ok.mpr ⟨_, hconvert, ?_⟩
    rw [← onStr0mEvent_rtpPacket c.state.transport 0 pt pkt]
    rfl
  refine ⟨_, pkt, exec_input_eq_ok _ |>.mpr ⟨_, hstep, rfl⟩, ?_, hkind⟩
  rw [emitted_concat]
  exact congrArg _ (pushed_eq_of_append _ rfl)

/-- Whatever is negotiated before and after, the packet of a codec that is at the wrong payload
    type goes to the wrong track. -/
theorem exists_run_onWrongTrack (before after : List CodecConfig) {cfg : CodecConfig}
    {param : PayloadParams} {codec : MediaCodec} (hmem : param ∈ cfg.params)
    (hconvert : str0mCodecConvert param.spec = some codec)
    (hwrong : ¬(codec = .opus ↔ param.pt = 111)) :
    ∃ acts c, configsOf acts = before ++ cfg :: after ∧
      (machine room peer extraData remote).run acts = .ok c ∧
      ∃ out ∈ emitted c.history, ¬OnItsTrack out := by
  obtain ⟨c₁, hrun₁, hconvert₁, -⟩ :=
    exec_setConfigs (before ++ [cfg]) (machine room peer extraData remote).start
  have hknown : c₁.state.mediaConvert.remotePtToCodec param.pt = some codec := by
    rw [hconvert₁, List.foldl_concat]
    exact RemoteMediaConvert.get_setConfig_of_mem hmem hconvert _
  obtain ⟨c₂, pkt, hrun₂, hemitted₂, hkind⟩ := exec_bare hknown
  obtain ⟨c₃, hrun₃, -, hemitted₃⟩ := exec_setConfigs after c₂
  refine ⟨setConfigs (before ++ [cfg]) ++
    .input (.rtpPacket 0 (.bare param.pt)) :: setConfigs after, c₃, ?_, ?_, ?_⟩
  · have happend := configsOf_setConfigs (before ++ cfg :: after)
    rw [setConfigs, List.map_append] at happend
    rw [configsOf, List.filterMap_append, List.filterMap_cons, setConfigs, List.map_append,
      List.filterMap_append, List.append_assoc]
    rw [configsOf, List.filterMap_append] at happend
    exact happend
  · rw [run, List.foldlM_append, hrun₁]
    change (do
      let c ← (machine room peer extraData remote).exec c₁ (.input (.rtpPacket 0 (.bare param.pt)))
      (setConfigs after).foldlM (machine room peer extraData remote).exec c) = _
    rw [hrun₂]
    exact hrun₃
  · refine ⟨mediaOutput param.pt pkt, ?_, ?_⟩
    · rw [hemitted₃, hemitted₂]
      exact List.mem_append_right _ List.mem_cons_self
    · rw [onItsTrack_mediaOutput, hkind, MediaCodec.isAudio_iff]
      exact hwrong

/-- **Media is on the track of its kind in every run exactly if every configuration has Opus, and
    nothing but Opus, at the payload type 111.** -/
theorem onItsTrack_iff (room : RoomId) (peer : PeerId) (extraData : Option String)
    (remote : IpAddr) (cfgs : List CodecConfig) :
    (∀ acts c, configsOf acts = cfgs → (machine room peer extraData remote).run acts = .ok c →
      ∀ out ∈ emitted c.history, OnItsTrack out) ↔ ∀ cfg ∈ cfgs, OpusAt111 cfg := by
  constructor
  · intro h cfg hcfg param hmem codec hconvert
    by_contra hwrong
    obtain ⟨before, after, hsplit⟩ := List.append_of_mem hcfg
    obtain ⟨acts, c, hconfigs, hrun, out, hout, hnot⟩ :=
      exists_run_onWrongTrack before after hmem hconvert hwrong
    exact hnot (h acts c (hconfigs.trans hsplit.symm) hrun out hout)
  · intro h acts c hconfigs hrun
    rw [← hconfigs] at h
    exact onItsTrack_of_run h hrun

/-- Opus at a payload type of the client's choice. -/
def opusAt (pt : UInt8) : CodecConfig := ⟨[⟨pt, ⟨.opus, {}⟩⟩], List.nodup_singleton pt⟩

/-- With Opus negotiated at 109 its packets go to the video track. -/
theorem not_onItsTrack :
    ¬∀ cfg acts c, configsOf acts = [cfg] → (machine "room" "peer" none "ip").run acts = .ok c →
      ∀ out ∈ emitted c.history, OnItsTrack out := by
  intro h
  have hmem : (⟨109, ⟨.opus, {}⟩⟩ : PayloadParams) ∈ (opusAt 109).params :=
    List.mem_singleton_self _
  have hwrong : ¬(MediaCodec.opus = .opus ↔ (109 : UInt8) = 111) := by decide
  obtain ⟨acts, c, hconfigs, hrun, out, hout, hnot⟩ :=
    exists_run_onWrongTrack [] [] hmem rfl hwrong
  exact hnot (h (opusAt 109) acts c hconfigs hrun out hout)

end WhipMedia

end MediaServer.Transport
