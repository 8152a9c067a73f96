import MediaServer.Codecs.Transcoder
import MediaServer.Transport.StateTrace

/-!
# What a SIP leg takes from the network

Anyone may send datagrams to the port of a SIP leg.  A datagram passes the multiplex test, the
reader of RTP and the transcoder; media is emitted from what is left, whether the leg has been
answered or not.
-/

namespace MediaServer.Transport

open Machine Codecs

/-- A transport, if there is one, and its transcoder. -/
structure RtpEngineIngress (ρ ε : Type) where
  session : RtpEngine.Session
  pcmaToOpus : AudioTranscoder ρ ε

namespace RtpEngineIngress

open RtpEngine (Output)

variable {ρ ε : Type}

/-- An input that is no datagram. -/
def IsPlain : RtpEngine.Input → Prop
  | .net _ (.udpPacket ..) _ => False
  | _ => True

inductive Input where
  | udpPacket (now : Instant) (slot : Nat) (source : SocketAddr) (data : Bytes)
  | plain (input : {input : RtpEngine.Input // IsPlain input})

/-- The size of `tmp_buf`. -/
def bufLen : Nat := 1500

/-- The parsers and the libraries. -/
structure Env (ρ ε : Type) where
  rtpEngine : RtpEngineEnv
  soxr : Soxr ρ
  opus : AudioEncoder ε

section Model

variable (env : Env ρ ε)

/-- The transcoder is asked for audio only. -/
def transcode (codec : AudioTranscoder ρ ε) (data : Bytes) :
    Except Panic (Option Bytes × AudioTranscoder ρ ε) := do
  match ← TransportRtpEngine.readRtp env.rtpEngine data with
  | none => pure (none, codec)
  | some rtp =>
      if rtp.payloadType = 8 then
        Codecs.transcode (pcmaDecode env.soxr) env.opus codec rtp.payload bufLen
      else pure (none, codec)

def onUdpPacket (w : RtpEngineIngress ρ ε) (now : Instant) (slot : Nat) (source : SocketAddr)
    (data : Bytes) : Except Panic (RtpEngineIngress ρ ε) :=
  match w.session with
  | none => .ok w
  | some t => do
      let (opus, codec) ← transcode env w.pcmaToOpus data
      let t ← t.onBackend env.rtpEngine now opus (.udpPacket slot source data)
      pure ⟨some t, codec⟩

def step (w : RtpEngineIngress ρ ε) : Input → Except Panic (RtpEngineIngress ρ ε)
  | .udpPacket now slot source data => w.onUdpPacket env now slot source data
  | .plain input => do
      let session ← RtpEngine.step env.rtpEngine w.session input
      pure { w with session := session }

end Model

/-! ### Media and its announcement -/

/-- The remote track that an output is media of. -/
def mediaTrack : Output → Option RemoteTrackId
  | .event (.remoteTrack track (.media _)) => some track
  | _ => none

/-- The remote track that an output announces. -/
def startedTrack : Output → Option RemoteTrackId
  | .event (.remoteTrack track (.started ..)) => some track
  | _ => none

/-- The track has been announced. -/
def Announced (outs : List Output) (track : RemoteTrackId) : Prop :=
  ∃ out ∈ outs, startedTrack out = some track

variable (env : Env ρ ε)

/-- A datagram that holds an RTP packet with a frame of PCMA. -/
def HoldsFrame (data : Bytes) : Prop :=
  ∃ rtp, env.rtpEngine.readRtp data = some rtp ∧ rtp.payloadType = 8 ∧ rtp.payload.length = 160

/-- The input is a datagram with a frame. -/
def BringsFrame : Input → Prop
  | .udpPacket _ _ _ data => HoldsFrame env data
  | .plain _ => False

/-- Such a datagram that also passes the multiplex test. -/
def PassesFrame (data : Bytes) : Prop :=
  ∃ rtp, TransportRtpEngine.readRtp env.rtpEngine data = .ok (some rtp) ∧ rtp.payloadType = 8 ∧
    rtp.payload.length = 160

/-! ### What a step does -/

/-- A step that neither announces nor emits media. -/
structure Idle (t t' : TransportRtpEngine) (outs : List Output) : Prop where
  queue : t'.queue = t.queue ++ outs
  silent : ∀ out ∈ outs, mediaTrack out = none ∧ startedTrack out = none
  connected : t'.connected = t.connected
  answered : t.answered = true → t'.answered = true

theorem idle_refl (t : TransportRtpEngine) : Idle t t [] :=
  ⟨(List.append_nil t.queue).symm, fun _ hmem => (nomatch hmem), rfl, id⟩

theorem idle_push {t t' : TransportRtpEngine} {out : Output} (h : Idle t t' [])
    (hmedia : mediaTrack out = none) (hstarted : startedTrack out = none) :
    Idle t (t'.push [out]) [out] := by
  refine ⟨?_, fun out' hmem => ?_, h.connected, h.answered⟩
  · rw [TransportRtpEngine.push, h.queue, List.append_nil]
  · rw [List.mem_singleton.mp hmem]
    exact ⟨hmedia, hstarted⟩

theorem idle_onTick (t : TransportRtpEngine) (clock : Instant) :
    ∃ outs, Idle t (t.onTick clock) outs := by
  unfold TransportRtpEngine.onTick
  split
  · exact ⟨[], idle_refl t⟩
  · split
    · have hshutdown : Idle t { t with shutdown := true } [] :=
        ⟨(List.append_nil t.queue).symm, fun _ hmem => (nomatch hmem), rfl, id⟩
      exact ⟨_, idle_push hshutdown rfl rfl⟩
    · exact ⟨[], idle_refl t⟩

theorem idle_setAnswer (t : TransportRtpEngine) (sdp : String) :
    ∃ outs, Idle t (t.setAnswer env.rtpEngine sdp).1 outs := by
  unfold TransportRtpEngine.setAnswer
  split
  · exact ⟨[], idle_refl t⟩
  · split
    · exact ⟨[], idle_refl t⟩
    case h_2 remote _ =>
      have hanswered : Idle t { t with remote := some remote, answered := true } [] :=
        ⟨(List.append_nil t.queue).symm, fun _ hmem => (nomatch hmem), rfl, fun _ => rfl⟩
      exact ⟨_, idle_push hanswered rfl rfl⟩

theorem idle_onEvent (t : TransportRtpEngine) (now : Instant) (pcma : Option Bytes)
    (event : EndpointEvent) : ∃ outs, Idle t (t.onEvent now pcma event) outs := by
  unfold TransportRtpEngine.onEvent
  split
  · split
    · exact ⟨[], idle_refl t⟩
    · exact ⟨_, idle_push (idle_refl t) rfl rfl⟩
  · split
    · exact ⟨[], idle_refl t⟩
    · exact ⟨_, idle_push (idle_refl t) rfl rfl⟩
  · have hsent : Idle t { t with lastSendRtp := some now } [] :=
      ⟨(List.append_nil t.queue).symm, fun _ hmem => (nomatch hmem), rfl, id⟩
    dsimp only
    split
    · exact ⟨_, idle_push hsent rfl rfl⟩
    · exact ⟨[], hsent⟩
  · exact ⟨[], idle_refl t⟩

/-- Only datagrams make media. -/
theorem stepLive_plain (t : TransportRtpEngine) {input : RtpEngine.Input} (h : IsPlain input) :
    ∃ t' outs, RtpEngine.stepLive env.rtpEngine t input = .ok t' ∧ Idle t t' outs := by
  cases input with
  | newOffer room peer listen created => exact ⟨t, [], rfl, idle_refl t⟩
  | newAnswer room peer listen created offer => exact ⟨t, [], rfl, idle_refl t⟩
  | tick clock =>
    obtain ⟨outs, hidle⟩ := idle_onTick t clock
    exact ⟨_, outs, rfl, hidle⟩
  | net now event opus =>
    cases event with
    | udpListenResult bind result =>
      cases result with
      | none => exact ⟨t, [], rfl, idle_refl t⟩
      | some bound =>
        exact ⟨{ t with udpSlot := some bound.2 }, [], rfl, (List.append_nil t.queue).symm,
          fun _ hmem => (nomatch hmem), rfl, id⟩
    | udpPacket slot source data => exact h.elim
  | endpoint now event pcma =>
    obtain ⟨outs, hidle⟩ := idle_onEvent t now pcma event
    exact ⟨_, outs, rfl, hidle⟩
  | rpcRes reqId res => exact ⟨t, [], rfl, idle_refl t⟩
  | setAnswer reqId sdp =>
    obtain ⟨outs, hidle⟩ := idle_setAnswer env t sdp
    refine ⟨_, outs ++ [.ext (.setAnswer reqId (t.setAnswer env.rtpEngine sdp).2)], rfl, ?_, ?_,
      hidle.connected, hidle.answered⟩
    · rw [TransportRtpEngine.onSetAnswer, TransportRtpEngine.push, hidle.queue, List.append_assoc]
    · intro out hmem
      rcases List.mem_append.mp hmem with hold | hnew
      · exact hidle.silent out hold
      · rw [List.mem_singleton.mp hnew]
        exact ⟨rfl, rfl⟩
  | disconnect reqId =>
    refine ⟨_, [.ext (.disconnect reqId), .event (.state (.disconnected none))], rfl, rfl, ?_, rfl,
      id⟩
    intro out hmem
    rcases List.mem_pair.mp hmem with rfl | rfl
    · exact ⟨rfl, rfl⟩
    · exact ⟨rfl, rfl⟩
  | shutdown =>
    exact ⟨_, [], rfl, (List.append_nil t.queue).symm, fun _ hmem => (nomatch hmem), rfl, id⟩

theorem silent_built {input : RtpEngine.Input} {t : TransportRtpEngine}
    (h : RtpEngine.built env.rtpEngine input = some t) :
    (∀ out ∈ t.queue, mediaTrack out = none ∧ startedTrack out = none) ∧ t.connected = false := by
  cases input with
  | newOffer room peer listen created =>
    rw [← Option.some.inj h]
    refine ⟨fun out hmem => ?_, rfl⟩
    rcases List.mem_pair.mp hmem with rfl | rfl
    · exact ⟨rfl, rfl⟩
    · exact ⟨rfl, rfl⟩
  | newAnswer room peer listen created offer =>
    simp only [RtpEngine.built, TransportRtpEngine.newAnswer] at h
    split at h
    · cases h
    · split at h
      · cases h
      · rw [← Option.some.inj h]
        refine ⟨fun out hmem => ?_, rfl⟩
        rcases List.mem_pair.mp hmem with rfl | rfl
        · exact ⟨rfl, rfl⟩
        · exact ⟨rfl, rfl⟩
  | _ => cases h

/-! ### Datagrams -/

theorem readRtp_of_ne_nil {data : Bytes} (h : data ≠ []) :
    ∃ read, TransportRtpEngine.readRtp env.rtpEngine data = .ok read := by
  have hkind : ∃ kind, TransportRtpEngine.pktType data = .ok kind := by
    unfold TransportRtpEngine.pktType
    split
    · exact absurd rfl h
    · split
      · exact ⟨_, rfl⟩
      · exact ⟨_, rfl⟩
    · exact ⟨_, rfl⟩
  obtain ⟨kind, hkind⟩ := hkind
  rw [TransportRtpEngine.readRtp, hkind]
  rcases kind with _ | kind
  · exact ⟨none, rfl⟩
  · cases kind with
    | rtp => exact ⟨_, rfl⟩
    | rtcp => exact ⟨none, rfl⟩

/-- What passes the multiplex test is what the reader makes of it. -/
theorem holdsFrame_of_passesFrame {data : Bytes} (h : PassesFrame env data) :
    HoldsFrame env data := by
  obtain ⟨rtp, hread, htype, hlen⟩ := h
  refine ⟨rtp, ?_, htype, hlen⟩
  obtain ⟨kind, hkind, hread⟩ := Except.bind_eq_ok.mp hread
  rcases kind with _ | kind
  · exact nomatch hread
  · cases kind with
    | rtp => exact Except.ok.inj hread
    | rtcp => exact nomatch hread

/-- The transport when an RTP packet has come. -/
def heard (t : TransportRtpEngine) (now : Instant) : TransportRtpEngine :=
  { t with lastRecvRtp := some now }

section Datagram

variable {env} {w : RtpEngineIngress ρ ε} {t : TransportRtpEngine} {now : Instant} {slot : Nat}
  {source : SocketAddr} {data : Bytes}

theorem onUdpPacket_nil (env : Env ρ ε) (hsession : w.session = some t) (now : Instant)
    (slot : Nat) (source : SocketAddr) :
    ∃ panic, w.onUdpPacket env now slot source [] = .error panic := by
  rw [onUdpPacket, hsession]
  exact ⟨_, rfl⟩

theorem onUdpPacket_none (hsession : w.session = some t)
    (hread : TransportRtpEngine.readRtp env.rtpEngine data = .ok none) :
    w.onUdpPacket env now slot source data = .ok w := by
  have htranscode : transcode env w.pcmaToOpus data = .ok (none, w.pcmaToOpus) := by
    exact Except.bind_eq_ok.mpr ⟨none, hread, rfl⟩
  have hbackend : t.onBackend env.rtpEngine now none (.udpPacket slot source data) = .ok t := by
    exact Except.bind_eq_ok.mpr ⟨none, hread, rfl⟩
  rw [onUdpPacket, hsession]
  refine Except.bind_eq_ok.mpr ⟨_, htranscode, Except.bind_eq_ok.mpr ⟨t, hbackend, ?_⟩⟩
  rw [← hsession]
  rfl

theorem onUdpPacket_other (hsession : w.session = some t) {rtp : RtpPacket}
    (hread : TransportRtpEngine.readRtp env.rtpEngine data = .ok (some rtp))
    (htype : rtp.payloadType ≠ 8) :
    w.onUdpPacket env now slot source data = .ok ⟨some (heard t now), w.pcmaToOpus⟩ := by
  have htranscode : transcode env w.pcmaToOpus data = .ok (none, w.pcmaToOpus) := by
    exact Except.bind_eq_ok.mpr ⟨some rtp, hread, if_neg htype⟩
  have hbackend : t.onBackend env.rtpEngine now none (.udpPacket slot source data) =
      .ok (heard t now) := by
    exact Except.bind_eq_ok.mpr ⟨some rtp, hread, congrArg Except.ok (if_neg htype)⟩
  rw [onUdpPacket, hsession]
  exact Except.bind_eq_ok.mpr ⟨_, htranscode, Except.bind_eq_ok.mpr ⟨_, hbackend, rfl⟩⟩

theorem onUdpPacket_pcma (hsession : w.session = some t) {rtp : RtpPacket}
    (hread : TransportRtpEngine.readRtp env.rtpEngine data = .ok (some rtp))
    (htype : rtp.payloadType = 8) {opus : Option Bytes} {codec : AudioTranscoder ρ ε}
    (hopus : Codecs.transcode (pcmaDecode env.soxr) env.opus w.pcmaToOpus rtp.payload bufLen =
      .ok (opus, codec)) :
    w.onUdpPacket env now slot source data =
      .ok ⟨some ((heard t now).onPcma source rtp opus), codec⟩ := by
  have htranscode : transcode env w.pcmaToOpus data = .ok (opus, codec) := by
    exact Except.bind_eq_ok.mpr ⟨some rtp, hread, (if_pos htype).trans hopus⟩
  have hbackend : t.onBackend env.rtpEngine now opus (.udpPacket slot source data) =
      .ok ((heard t now).onPcma source rtp opus) := by
    exact Except.bind_eq_ok.mpr ⟨some rtp, hread, congrArg Except.ok (if_pos htype)⟩
  rw [onUdpPacket, hsession]
  exact Except.bind_eq_ok.mpr ⟨_, htranscode, Except.bind_eq_ok.mpr ⟨_, hbackend, rfl⟩⟩

end Datagram

open TransportRtpEngine (remoteAudioTrack mediaOutputs connectOutputs)

/-- A packet of audio was heard: what connects the transport comes first, then the media. -/
structure Hears (t t' : TransportRtpEngine) (head media : List Output) : Prop where
  queue : t'.queue = t.queue ++ (head ++ media)
  noMedia : ∀ out ∈ head, mediaTrack out = none
  announces : Announced head remoteAudioTrack ↔ t.answered = true ∧ t.connected = false
  answered : t'.answered = t.answered
  connected : t'.connected = true ↔ t.connected = true ∨ t.answered = true

theorem hears_onPcma (t : TransportRtpEngine) (source : SocketAddr) (rtp : RtpPacket)
    (opus : Option Bytes) :
    ∃ head, Hears t (t.onPcma source rtp opus) head (mediaOutputs rtp opus) := by
  rw [TransportRtpEngine.onPcma, TransportRtpEngine.connectOn]
  by_cases hfirst : (t.answered && !t.connected) = true
  · obtain ⟨hanswered, hconnected⟩ := (Bool.and_eq_true _ _).mp hfirst
    have hannounces : Announced (t.connectOutputs source.1) remoteAudioTrack :=
      ⟨_, List.mem_cons_of_mem _ List.mem_cons_self, rfl⟩
    rw [if_pos hfirst]
    refine ⟨t.connectOutputs source.1, List.append_assoc _ _ _, ?_, ?_, rfl, ?_⟩
    · intro out hmem
      simp only [connectOutputs, List.mem_cons, List.not_mem_nil, or_false] at hmem
      rcases hmem with rfl | rfl | rfl | rfl
      · rfl
      · rfl
      · rfl
      · rfl
    · exact ⟨fun _ => ⟨hanswered, by simpa using hconnected⟩, fun _ => hannounces⟩
    · exact ⟨fun _ => Or.inr hanswered, fun _ => rfl⟩
  · rw [if_neg hfirst]
    refine ⟨[], rfl, fun _ hmem => absurd hmem List.not_mem_nil, ?_, rfl, ?_⟩
    · constructor
      · rintro ⟨_, hmem, _⟩
        cases hmem
      · rintro ⟨hanswered, hconnected⟩
        exact absurd (by rw [hanswered, hconnected]; rfl) hfirst
    · constructor
      · exact Or.inl
      · rintro (hconnected | hanswered)
        · exact hconnected
        · by_contra hnot
          have hconnected : t.connected = false := Bool.not_eq_true _ |>.mp hnot
          exact hfirst (by rw [hanswered, hconnected]; rfl)

theorem mediaOutputs_spec {rtp : RtpPacket} {opus : Option Bytes} {out : Output}
    (h : out ∈ mediaOutputs rtp opus) :
    mediaOutputs rtp opus = [out] ∧ mediaTrack out = some remoteAudioTrack ∧
      startedTrack out = none := by
  cases opus with
  | none => exact nomatch h
  | some data =>
    rw [List.mem_singleton.mp h]
    exact ⟨rfl, rfl, rfl⟩

/-- What a step does, by the session that it finds. -/
inductive Effect (w w' : RtpEngineIngress ρ ε) (input : Input) : List Output → Prop
  | absent (hsession : w.session = none) (hsession' : w'.session = none) : Effect w w' input []
  | built {t : TransportRtpEngine} (hsession : w.session = none) (hsession' : w'.session = some t)
      (hsilent : ∀ out ∈ t.queue, mediaTrack out = none ∧ startedTrack out = none)
      (hconnected : t.connected = false) : Effect w w' input t.queue
  | idle {t t' : TransportRtpEngine} {outs : List Output} (hsession : w.session = some t)
      (hsession' : w'.session = some t') (hidle : Idle t t' outs) : Effect w w' input outs
  | hears {t t' : TransportRtpEngine} {now : Instant} {slot : Nat} {source : SocketAddr}
      {data : Bytes} {rtp : RtpPacket} {opus : Option Bytes} {head : List Output}
      (hsession : w.session = some t) (hsession' : w'.session = some t')
      (hinput : input = .udpPacket now slot source data)
      (hframe : opus ≠ none → PassesFrame env data)
      (hhears : Hears t t' head (mediaOutputs rtp opus)) :
      Effect w w' input (head ++ mediaOutputs rtp opus)

variable {env}

theorem udpPacket_effect {w w' : RtpEngineIngress ρ ε} {t : TransportRtpEngine} {now : Instant}
    {slot : Nat} {source : SocketAddr} {data : Bytes} (hsession : w.session = some t)
    (h : w.onUdpPacket env now slot source data = .ok w') :
    ∃ outs, Effect env w w' (.udpPacket now slot source data) outs := by
  by_cases hdata : data = []
  · obtain ⟨panic, hpanic⟩ := onUdpPacket_nil env hsession now slot source
    rw [hdata, hpanic] at h
    exact nomatch h
  obtain ⟨read, hread⟩ := readRtp_of_ne_nil env hdata
  cases read with
  | none =>
    rw [onUdpPacket_none hsession hread] at h
    rw [← Except.ok.inj h]
    exact ⟨[], .idle hsession hsession (idle_refl t)⟩
  | some rtp =>
    by_cases htype : rtp.payloadType = 8
    · have hopus : ∃ opus codec, Codecs.transcode (pcmaDecode env.soxr) env.opus w.pcmaToOpus
          rtp.payload bufLen = .ok (opus, codec) := by
        rw [onUdpPacket, hsession] at h
        obtain ⟨⟨opus, codec⟩, htranscode, _⟩ := Except.bind_eq_ok.mp h
        rw [transcode, hread] at htranscode
        obtain ⟨_, hsome, htranscode⟩ := Except.bind_eq_ok.mp htranscode
        rw [← Except.ok.inj hsome] at htranscode
        exact ⟨opus, codec, (if_pos htype).symm.trans htranscode⟩
      obtain ⟨opus, codec, hopus⟩ := hopus
      rw [onUdpPacket_pcma hsession hread htype hopus] at h
      obtain ⟨head, hhears⟩ := hears_onPcma (heard t now) source rtp opus
      rw [← Except.ok.inj h]
      refine ⟨_, .hears hsession rfl rfl ?_ ⟨hhears.queue, hhears.noMedia, hhears.announces,
        hhears.answered, hhears.connected⟩⟩
      intro hmade
      refine ⟨rtp, hread, htype, ?_⟩
      by_contra hlen
      rw [transcode_of_ne hlen] at hopus
      exact hmade (Prod.mk.inj (Except.ok.inj hopus)).1.symm
    · rw [onUdpPacket_other hsession hread htype] at h
      rw [← Except.ok.inj h]
      exact ⟨[], .idle hsession rfl ⟨(List.append_nil t.queue).symm,
        fun _ hmem => (nomatch hmem), rfl, id⟩⟩

theorem step_effect {w w' : RtpEngineIngress ρ ε} {input : Input} (h : w.step env input = .ok w') :
    ∃ outs, Effect env w w' input outs := by
  cases hsession : w.session with
  | none =>
    cases input with
    | udpPacket now slot source data =>
      change w.onUdpPacket env now slot source data = .ok w' at h
      rw [onUdpPacket, hsession] at h
      rw [← Except.ok.inj h]
      exact ⟨[], .absent hsession hsession⟩
    | plain input =>
      obtain ⟨session, hstep, h⟩ := Except.bind_eq_ok.mp h
      rw [hsession] at hstep
      rw [← Except.ok.inj h]
      cases hbuilt : RtpEngine.built env.rtpEngine input with
      | none =>
        have hnone := (Except.ok.inj hstep).symm.trans hbuilt
        exact ⟨[], .absent hsession hnone⟩
      | some t =>
        have hsome := (Except.ok.inj hstep).symm.trans hbuilt
        obtain ⟨hsilent, hconnected⟩ := silent_built env hbuilt
        exact ⟨t.queue, .built hsession hsome hsilent hconnected⟩
  | some t =>
    cases input with
    | udpPacket now slot source data => exact udpPacket_effect hsession h
    | plain input =>
      obtain ⟨session, hstep, h⟩ := Except.bind_eq_ok.mp h
      obtain ⟨t', outs, hlive, hidle⟩ := stepLive_plain env t input.property
      rw [hsession, RtpEngine.step, hlive] at hstep
      rw [← Except.ok.inj h]
      exact ⟨outs, .idle hsession (Except.ok.inj hstep).symm hidle⟩

theorem Effect.queue {w w' : RtpEngineIngress ρ ε} {input : Input} {outs : List Output}
    (h : Effect env w w' input outs) :
    RtpEngine.queue w'.session = RtpEngine.queue w.session ++ outs := by
  cases h with
  | absent hsession hsession' =>
    rw [hsession, hsession']
    rfl
  | built hsession hsession' _ _ =>
    rw [hsession, hsession']
    rfl
  | idle hsession hsession' hidle =>
    rw [hsession, hsession']
    exact hidle.queue
  | hears hsession hsession' _ _ hhears =>
    rw [hsession, hsession']
    exact hhears.queue

def machine (env : Env ρ ε) (codec : AudioTranscoder ρ ε) :
    Machine (RtpEngineIngress ρ ε) Input Output where
  init := ⟨none, codec⟩
  step w input := w.step env input
  queue w := RtpEngine.queue w.session
  dropFront w := { w with session := w.session.map fun t => { t with queue := t.queue.tail } }
  queue_init := rfl
  queue_dropFront w := (RtpEngine.machine env.rtpEngine).queue_dropFront w.session
  step_appends _ _ _ h := by
    obtain ⟨outs, heffect⟩ := step_effect h
    exact ⟨outs, heffect.queue.symm⟩

/-! ### Runs -/

/-- Exactly a connected transport has announced its remote track, and only an answered one is
    connected. -/
structure Keeps (history : History Input Output) (w : RtpEngineIngress ρ ε) : Prop where
  announced : Announced (emitted history) remoteAudioTrack ↔
    ∃ t, w.session = some t ∧ t.connected = true
  answered : ∀ t, w.session = some t → t.connected = true → t.answered = true

theorem announced_append {first second : List Output} {track : RemoteTrackId} :
    Announced (first ++ second) track ↔ Announced first track ∨ Announced second track := by
  constructor
  · rintro ⟨out, hmem, hout⟩
    rcases List.mem_append.mp hmem with hfirst | hsecond
    · exact Or.inl ⟨out, hfirst, hout⟩
    · exact Or.inr ⟨out, hsecond, hout⟩
  · rintro (⟨out, hmem, hout⟩ | ⟨out, hmem, hout⟩)
    · exact ⟨out, List.mem_append_left second hmem, hout⟩
    · exact ⟨out, List.mem_append_right first hmem, hout⟩

theorem not_announced_of_silent {outs : List Output} {track : RemoteTrackId}
    (h : ∀ out ∈ outs, startedTrack out = none) : ¬Announced outs track := by
  rintro ⟨out, hmem, hout⟩
  rw [h out hmem] at hout
  exact nomatch hout

/-- A step announces the track exactly when it connects the transport. -/
theorem Keeps.announced_step {history : History Input Output} {w w' : RtpEngineIngress ρ ε}
    {input : Input} {outs : List Output} (h : Keeps history w)
    (heffect : Effect env w w' input outs) :
    Announced (emitted history) remoteAudioTrack ∨ Announced outs remoteAudioTrack ↔
      ∃ t, w'.session = some t ∧ t.connected = true := by
  rw [h.announced]
  cases heffect with
  | absent hsession hsession' =>
    have hnothing : ¬Announced [] remoteAudioTrack :=
      not_announced_of_silent fun out hmem => absurd hmem List.not_mem_nil
    rw [hsession, hsession', or_iff_left hnothing]
  | built hsession hsession' hsilent hconnected =>
    rw [hsession, hsession',
      or_iff_left (not_announced_of_silent fun out hmem => (hsilent out hmem).2)]
    refine ⟨fun ⟨_, hsome, _⟩ => (nomatch hsome), fun ⟨t', hsome, hconnected'⟩ => ?_⟩
    rw [Option.some.inj hsome] at hconnected
    exact absurd (hconnected'.symm.trans hconnected) (by decide)
  | @idle t t' _ hsession hsession' hidle =>
    rw [hsession, hsession',
      or_iff_left (not_announced_of_silent fun out hmem => (hidle.silent out hmem).2)]
    constructor
    · rintro ⟨t₀, hsome, hconnected⟩
      rw [← Option.some.inj hsome] at hconnected
      exact ⟨t', rfl, hidle.connected.trans hconnected⟩
    · rintro ⟨t₀, hsome, hconnected⟩
      rw [← Option.some.inj hsome] at hconnected
      exact ⟨t, rfl, hidle.connected.symm.trans hconnected⟩
  | @hears t t' now slot source data rtp opus head hsession hsession' _ _ hhears =>
    have hmedia : ¬Announced (mediaOutputs rtp opus) remoteAudioTrack :=
      not_announced_of_silent fun out hmem => (mediaOutputs_spec hmem).2.2
    rw [announced_append, or_iff_left hmedia, hhears.announces, hsession, hsession']
    constructor
    · rintro (⟨t₀, hsome, hconnected⟩ | ⟨hanswered, _⟩)
      · rw [← Option.some.inj hsome] at hconnected
        exact ⟨t', rfl, hhears.connected.mpr (Or.inl hconnected)⟩
      · exact ⟨t', rfl, hhears.connected.mpr (Or.inr hanswered)⟩
    · rintro ⟨t₀, hsome, hconnected⟩
      rw [← Option.some.inj hsome, hhears.connected] at hconnected
      by_cases hbefore : t.connected = true
      · exact Or.inl ⟨t, rfl, hbefore⟩
      · exact Or.inr ⟨hconnected.resolve_left hbefore, Bool.not_eq_true _ |>.mp hbefore⟩

theorem Keeps.answered_step {history : History Input Output} {w w' : RtpEngineIngress ρ ε}
    {input : Input} {outs : List Output} (h : Keeps history w)
    (heffect : Effect env w w' input outs) {t₀ : TransportRtpEngine} (hsome : w'.session = some t₀)
    (hconnected : t₀.connected = true) : t₀.answered = true := by
  cases heffect with
  | absent hsession hsession' => exact nomatch hsession'.symm.trans hsome
  | built hsession hsession' _ hnot =>
    rw [Option.some.inj (hsession'.symm.trans hsome)] at hnot
    exact absurd (hconnected.symm.trans hnot) (by decide)
  | idle hsession hsession' hidle =>
    rw [← Option.some.inj (hsession'.symm.trans hsome)] at hconnected ⊢
    exact hidle.answered (h.answered _ hsession (hidle.connected.symm.trans hconnected))
  | hears hsession hsession' _ _ hhears =>
    rw [← Option.some.inj (hsession'.symm.trans hsome)] at hconnected ⊢
    rw [hhears.answered]
    rcases hhears.connected.mp hconnected with hbefore | hanswered
    · exact h.answered _ hsession hbefore
    · exact hanswered

theorem Keeps.step {history : History Input Output} {w w' : RtpEngineIngress ρ ε} {input : Input}
    {outs : List Output} (h : Keeps history w) (heffect : Effect env w w' input outs) :
    Keeps (history ++ [(input, outs)]) w' := by
  refine ⟨?_, fun t hsome hconnected => h.answered_step heffect hsome hconnected⟩
  rw [emitted_concat, announced_append]
  exact h.announced_step heffect

theorem keeps_init (codec : AudioTranscoder ρ ε) : Keeps [] (machine env codec).init := by
  refine ⟨⟨?_, ?_⟩, fun _ hsome => nomatch hsome⟩
  · rintro ⟨_, hmem, _⟩
    exact nomatch hmem
  · rintro ⟨_, hsome, _⟩
    exact nomatch hsome

theorem keeps_dropFront {codec : AudioTranscoder ρ ε} {history : History Input Output}
    {w : RtpEngineIngress ρ ε} (h : Keeps history w) :
    Keeps history ((machine env codec).dropFront w) := by
  have hsession : ∀ t', ((machine env codec).dropFront w).session = some t' →
      ∃ t, w.session = some t ∧ t'.connected = t.connected ∧ t'.answered = t.answered := by
    intro t' hsome
    obtain ⟨t, hsession, rfl⟩ := Option.map_eq_some_iff.mp hsome
    exact ⟨t, hsession, rfl, rfl⟩
  refine ⟨h.announced.trans ⟨?_, ?_⟩, ?_⟩
  · rintro ⟨t, hsome, hconnected⟩
    exact ⟨_, congrArg (Option.map _) hsome, hconnected⟩
  · rintro ⟨t', hsome, hconnected⟩
    obtain ⟨t, hsession, hsame, _⟩ := hsession t' hsome
    exact ⟨t, hsession, hsame.symm.trans hconnected⟩
  · intro t' hsome hconnected
    obtain ⟨t, hsession, hsame, hanswered⟩ := hsession t' hsome
    exact hanswered.trans (h.answered t hsession (hsame.symm.trans hconnected))

/-- What an input makes a session emit as media comes from a datagram with a frame of PCMA, and
    its track has been announced before. -/
def Heralds (env : Env ρ ε) (codec : AudioTranscoder ρ ε) :
    Contract (RtpEngineIngress ρ ε) Input Output := fun history w input =>
  ∀ w', w.step env input = .ok w' → ∀ before out after track,
    (machine env codec).pushed w w' = before ++ out :: after → mediaTrack out = some track →
    BringsFrame env input ∧ Announced (emitted history ++ before) track

/-- The condition: a datagram is not empty, and if it is a frame the session has been answered. -/
def Expected (env : Env ρ ε) : Contract (RtpEngineIngress ρ ε) Input Output := fun _ w input =>
  match input with
  | .udpPacket _ _ _ data =>
      ∀ t, w.session = some t → data ≠ [] ∧ (PassesFrame env data → t.answered = true)
  | .plain _ => True

/-- The one output of a list that is media. -/
theorem media_position {head media before after : List Output} {out : Output}
    {track : RemoteTrackId} (hhead : ∀ out ∈ head, mediaTrack out = none)
    (hmedia : ∀ out ∈ media, media = [out]) (hsplit : head ++ media = before ++ out :: after)
    (hout : mediaTrack out = some track) : out ∈ media ∧ before = head := by
  rcases List.append_eq_append_iff.mp hsplit with ⟨as, rfl, hmid⟩ | ⟨bs, rfl, hmid⟩
  · have hmem : out ∈ media := by
      rw [hmid]
      exact List.mem_append_right as List.mem_cons_self
    rw [hmedia out hmem] at hmid
    cases as with
    | nil => exact ⟨hmem, List.append_nil head⟩
    | cons first as =>
      have hlen := congrArg List.length hmid
      simp at hlen
  · cases bs with
    | nil =>
      rw [List.append_nil] at hhead ⊢
      rw [List.nil_append] at hmid
      refine ⟨?_, rfl⟩
      rw [← hmid]
      exact List.mem_cons_self
    | cons first bs =>
      rw [List.cons_append] at hmid
      have hfirst := (List.cons.inj hmid).1
      have hnone := hhead out (by rw [hfirst]; exact List.mem_append_right before List.mem_cons_self)
      rw [hnone] at hout
      exact nomatch hout

/-- **One step.**  An expected input emits only media that is announced. -/
theorem Keeps.heralds {codec : AudioTranscoder ρ ε} {history : History Input Output}
    {w : RtpEngineIngress ρ ε} {input : Input} (h : Keeps history w)
    (hexpected : Expected env history w input) : Heralds env codec history w input := by
  intro w' hstep before out after track hpushed hout
  obtain ⟨outs, heffect⟩ := step_effect hstep
  have hsplit : outs = before ++ out :: after :=
    ((machine env codec).pushed_eq_of_append heffect.queue).symm.trans hpushed
  have hmem : out ∈ outs := by
    rw [hsplit]
    exact List.mem_append_right before List.mem_cons_self
  cases heffect with
  | absent => exact nomatch hmem
  | built _ _ hsilent _ => exact nomatch (hsilent out hmem).1.symm.trans hout
  | idle _ _ hidle => exact nomatch (hidle.silent out hmem).1.symm.trans hout
  | @hears t t' now slot source data rtp opus head hsession hsession' hinput hframe hhears =>
    obtain ⟨hmedia, rfl⟩ := media_position hhears.noMedia
      (fun out hmem => (mediaOutputs_spec hmem).1) hsplit hout
    obtain ⟨_, htrack, _⟩ := mediaOutputs_spec hmedia
    have hmade : opus ≠ none := by
      rintro rfl
      exact nomatch hmedia
    have hpasses := hframe hmade
    rw [hinput] at hexpected ⊢
    refine ⟨holdsFrame_of_passesFrame env hpasses, ?_⟩
    rw [← Option.some.inj (htrack.symm.trans hout), announced_append, hhears.announces,
      h.announced]
    have hanswered := (hexpected _ hsession).2 hpasses
    by_cases hconnected : t.connected = true
    · exact Or.inl ⟨t, hsession, hconnected⟩
    · exact Or.inr ⟨hanswered, Bool.not_eq_true _ |>.mp hconnected⟩

/-- An expected input does not panic. -/
theorem step_of_expected (haccepts : AcceptsFrames env.soxr env.opus bufLen)
    {history : History Input Output} {w : RtpEngineIngress ρ ε} {input : Input}
    (h : Expected env history w input) : ∃ w', w.step env input = .ok w' := by
  cases input with
  | plain input =>
    have hsession : ∃ session, RtpEngine.step env.rtpEngine w.session input = .ok session := by
      cases w.session with
      | none => exact ⟨_, rfl⟩
      | some t =>
        obtain ⟨t', _, hlive, _⟩ := stepLive_plain env t input.property
        rw [RtpEngine.step, hlive]
        exact ⟨_, rfl⟩
    obtain ⟨session, hsession⟩ := hsession
    exact ⟨{ w with session := session }, Except.bind_eq_ok.mpr ⟨session, hsession, rfl⟩⟩
  | udpPacket now slot source data =>
    change ∃ w', w.onUdpPacket env now slot source data = .ok w'
    cases hsession : w.session with
    | none =>
      rw [onUdpPacket, hsession]
      exact ⟨w, rfl⟩
    | some t =>
      obtain ⟨read, hread⟩ := readRtp_of_ne_nil env (h t hsession).1
      cases read with
      | none => exact ⟨w, onUdpPacket_none hsession hread⟩
      | some rtp =>
        by_cases htype : rtp.payloadType = 8
        · by_cases hlen : rtp.payload.length = 160
          · obtain ⟨opus, codec, hopus⟩ := transcode_frame haccepts hlen w.pcmaToOpus
            exact ⟨_, onUdpPacket_pcma hsession hread htype hopus⟩
          · exact ⟨_, onUdpPacket_pcma hsession hread htype (transcode_of_ne hlen _)⟩
        · exact ⟨_, onUdpPacket_other hsession hread htype⟩

/-- A frame for a session that was not answered becomes media of a track that was not
    announced. -/
theorem Keeps.not_heralds (haccepts : AcceptsFrames env.soxr env.opus bufLen)
    {codec : AudioTranscoder ρ ε} {history : History Input Output} {w : RtpEngineIngress ρ ε}
    {t : TransportRtpEngine} {data : Bytes} (h : Keeps history w) (hsession : w.session = some t)
    (hanswered : t.answered = false) (hframe : PassesFrame env data) (now : Instant) (slot : Nat)
    (source : SocketAddr) : ¬Heralds env codec history w (.udpPacket now slot source data) := by
  intro hheralds
  obtain ⟨rtp, hread, htype, hlen⟩ := hframe
  obtain ⟨opus, codec', hopus⟩ := transcode_frame haccepts hlen w.pcmaToOpus
  have hstep : w.onUdpPacket env now slot source data =
      .ok ⟨some ((heard t now).onPcma source rtp (some opus)), codec'⟩ :=
    onUdpPacket_pcma hsession hread htype hopus
  have hquiet : (heard t now).connectOn source.1 = heard t now := by
    rw [TransportRtpEngine.connectOn]
    exact if_neg (by rw [heard, hanswered]; exact Bool.false_ne_true)
  obtain ⟨out, hmade⟩ : ∃ out, mediaOutputs rtp (some opus) = [out] := ⟨_, rfl⟩
  have hmem : out ∈ mediaOutputs rtp (some opus) := by
    rw [hmade]
    exact List.mem_singleton_self out
  have hqueue : RtpEngine.queue (some ((heard t now).onPcma source rtp (some opus))) =
      RtpEngine.queue w.session ++ [out] := by
    rw [hsession, TransportRtpEngine.onPcma, hquiet, ← hmade]
    rfl
  obtain ⟨_, hannounced⟩ := hheralds _ hstep [] out [] _
    ((machine env codec).pushed_eq_of_append hqueue) (mediaOutputs_spec hmem).2.1
  rw [List.append_nil, h.announced] at hannounced
  obtain ⟨t', hsome, hconnected⟩ := hannounced
  have htrue := h.answered t' hsome hconnected
  rw [Option.some.inj (hsome.symm.trans hsession), hanswered] at htrue
  cases htrue

theorem keeps_of_run {codec : AudioTranscoder ρ ε} {acts : List (Action Input)}
    {c : Config (RtpEngineIngress ρ ε) Input Output}
    (hrun : (machine env codec).run acts = .ok c) : Keeps c.history c.state := by
  refine run_invariant (fun _ _ _ => True) Keeps (keeps_init codec) ?_ ?_
    (Admits.of_forall (fun _ _ _ => trivial) acts) hrun
  · intro history w input w' h _ hstep
    obtain ⟨outs, heffect⟩ := step_effect hstep
    rw [(machine env codec).pushed_eq_of_append heffect.queue]
    exact h.step heffect
  · intro history w h
    exact keeps_dropFront h

theorem run_of_expected (haccepts : AcceptsFrames env.soxr env.opus bufLen)
    {codec : AudioTranscoder ρ ε} {acts : List (Action Input)}
    (h : (machine env codec).Admits (Expected env) acts) :
    ∃ c, (machine env codec).run acts = .ok c := by
  have hprogress : ∃ c, (machine env codec).run acts = .ok c ∧ Keeps c.history c.state := by
    refine run_progress (Expected env) Keeps (keeps_init codec) ?_ ?_ h
    · intro history w input h hinput
      obtain ⟨w', hstep⟩ := step_of_expected haccepts hinput
      obtain ⟨outs, heffect⟩ := step_effect hstep
      refine ⟨w', hstep, ?_⟩
      rw [(machine env codec).pushed_eq_of_append heffect.queue]
      exact h.step heffect
    · intro history w h
      exact keeps_dropFront h
  obtain ⟨c, hrun, _⟩ := hprogress
  exact ⟨c, hrun⟩

/-- **A run does not panic and all its media is announced exactly if no datagram is empty and none
    with a frame comes before the answer.** -/
theorem heralds_iff_expected (haccepts : AcceptsFrames env.soxr env.opus bufLen)
    (codec : AudioTranscoder ρ ε) (acts : List (Action Input)) :
    ((∃ c, (machine env codec).run acts = .ok c) ∧
      (machine env codec).Admits (Heralds env codec) acts) ↔
      (machine env codec).Admits (Expected env) acts := by
  constructor
  · rintro ⟨⟨c, hrun⟩, hheralds⟩ before input after hacts c₀ hbefore
    have hkeeps := keeps_of_run hbefore
    have hinput := hheralds before input after hacts c₀ hbefore
    rw [hacts] at hrun
    obtain ⟨c₁, c₂, hbefore₁, hexec⟩ := (machine env codec).run_of_append_cons hrun
    rw [Except.ok.inj (hbefore₁.symm.trans hbefore)] at hexec
    obtain ⟨w', hstep, _⟩ := (machine env codec).exec_input_eq_ok.mp hexec
    cases input with
    | plain input => trivial
    | udpPacket now slot source data =>
      intro t hsession
      constructor
      · rintro rfl
        obtain ⟨panic, hpanic⟩ := onUdpPacket_nil env hsession now slot source
        exact nomatch hpanic.symm.trans hstep
      · intro hframe
        by_contra hanswered
        exact hkeeps.not_heralds haccepts hsession (Bool.not_eq_true _ |>.mp hanswered) hframe now
          slot source hinput
  · intro hexpected
    obtain ⟨c, hrun⟩ := run_of_expected haccepts hexpected
    exact ⟨⟨c, hrun⟩, fun before input after hacts c hrun =>
      (keeps_of_run hrun).heralds (hexpected before input after hacts c hrun)⟩

/-! ### A line -/

/-- RTP without extensions, padding and contributing sources. -/
def readPlainRtp : Bytes → Option RtpPacket
  | b₀ :: b₁ :: s₀ :: s₁ :: t₀ :: t₁ :: t₂ :: t₃ :: _ :: _ :: _ :: _ :: payload =>
      if b₀ = 0x80 then
        some
          { payloadType := b₁ &&& 0x7F
            sequence := s₀.toUInt16 <<< 8 ||| s₁.toUInt16
            timestamp := t₀.toUInt32 <<< 24 ||| t₁.toUInt32 <<< 16 ||| t₂.toUInt32 <<< 8 |||
              t₃.toUInt32
            mark := b₁ &&& 0x80 ≠ 0
            payload := payload }
      else none
  | _ => none

/-- A resampler that repeats samples, and an encoder that is content with any. -/
def line : Env Unit Unit where
  rtpEngine := ⟨fun _ => .ok ⟨some "ip", "ip", [4000]⟩, readPlainRtp⟩
  soxr := fun _ samples room => some ((samples.flatMap (List.replicate 6)).take room, ())
  opus := fun _ _ _ => (some [0x78], ())

theorem line_accepts : AcceptsFrames line.soxr line.opus bufLen := by
  intro s e samples _
  refine ⟨_, (), [0x78], (), rfl, ?_, rfl, ?_⟩
  · exact List.length_take_le bufSamples _
  · exact Nat.succ_le_of_lt (by decide)

/-- A datagram with a frame of silence. -/
def silence : Bytes := [0x80, 8, 0, 1, 0, 0, 0, 0, 0, 0, 0, 0] ++ List.replicate 160 0xD5

theorem line_passesFrame : PassesFrame line silence := by
  refine ⟨⟨8, 1, 0, false, List.replicate 160 0xD5⟩, ?_, rfl, ?_⟩
  · decide
  · exact List.length_replicate

/-- A leg that answers, and one that has only made an offer. -/
def answering : Action Input :=
  .input (.plain ⟨.newAnswer "room" "phone" ("ip", 5060) 0 "", trivial⟩)

def offering : Action Input := .input (.plain ⟨.newOffer "room" "phone" ("ip", 5060) 0, trivial⟩)

def receiving (data : Bytes) : Action Input := .input (.udpPacket 0 0 ("ip", 4000) data)

/-- Silence is announced to a leg that answers, and goes through to one that has only offered. -/
theorem run_silence :
    ((machine line ⟨(), ()⟩).run [answering, receiving silence]).toOption.any
      (fun c => (emitted c.history).any fun out => startedTrack out = some remoteAudioTrack) =
        true ∧
    ((machine line ⟨(), ()⟩).run [offering, receiving silence]).toOption.isSome = true := by
  decide +kernel

theorem heralds_iff_expected_answering :
    (∃ c, (machine line ⟨(), ()⟩).run [answering, receiving silence] = .ok c ∧
      Announced (emitted c.history) remoteAudioTrack) ∧
    (((∃ c, (machine line ⟨(), ()⟩).run [answering, receiving silence] = .ok c) ∧
      (machine line ⟨(), ()⟩).Admits (Heralds line ⟨(), ()⟩) [answering, receiving silence]) ↔
      (machine line ⟨(), ()⟩).Admits (Expected line) [answering, receiving silence]) := by
  obtain ⟨c, hrun, hany⟩ := (Option.any_eq_true _ _).mp run_silence.1
  obtain ⟨out, hmem, hout⟩ := List.any_eq_true.mp hany
  exact ⟨⟨c, Except.mem_toOption.mp hrun, out, hmem, of_decide_eq_true hout⟩,
    heralds_iff_expected line_accepts ⟨(), ()⟩ [answering, receiving silence]⟩

/-- An empty datagram brings the worker down, and a frame that comes before the answer is emitted
    as media of a track that nobody has heard of. -/
theorem not_heralds_offering :
    (∃ panic, (machine line ⟨(), ()⟩).run [offering, receiving []] = .error panic) ∧
    (∃ c, (machine line ⟨(), ()⟩).run [offering, receiving silence] = .ok c) ∧
    ¬(machine line ⟨(), ()⟩).Admits (Heralds line ⟨(), ()⟩) [offering, receiving silence] := by
  obtain ⟨c', hc'⟩ := Option.isSome_iff_exists.mp run_silence.2
  refine ⟨⟨_, rfl⟩, ⟨c', Except.mem_toOption.mp hc'⟩, fun hheralds => ?_⟩
  have hrun : ∃ c, (machine line ⟨(), ()⟩).run [offering] = .ok c ∧
      c.state.session = some (.newOffer "room" "phone" ("ip", 5060) 0) := ⟨_, rfl, rfl⟩
  obtain ⟨c, hrun, hsession⟩ := hrun
  exact (keeps_of_run hrun).not_heralds line_accepts hsession rfl line_passesFrame 0 0 ("ip", 4000)
    (hheralds [offering] _ [] rfl c hrun)

end RtpEngineIngress

end MediaServer.Transport
