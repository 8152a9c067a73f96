import Mathlib.Algebra.GroupWithZero.Nat
import Mathlib.Data.Int.ModEq
import MediaServer.Transport.RtpEngineIngress

/-!
# The clocks of a SIP leg

A SIP leg counts at 8 kHz and the room at 48 kHz.  The transport multiplies the timestamps that
come in by six and divides those that go out, both modulo 2^32.  The product of a wrapped
timestamp is the wrapped product; the quotient is not, since six does not divide 2^32.
-/

namespace MediaServer.Transport.RtpEngineClock

open Machine RtpEngine RtpEngineIngress

/-- The parsers, and the builder of `rtp_rs`. -/
structure Env where
  rtpEngine : RtpEngineEnv
  build : RtpPacket → Option Bytes

/-- What the builder is given for a media packet that was transcoded. -/
def rtpOf (media : MediaPacket) (payload : Bytes) : RtpPacket :=
  { payloadType := 8
    sequence := media.seq
    timestamp := media.ts / 6
    mark := media.marker
    payload := payload }

/-- An input that is no media for the local track. -/
def IsPlain : RtpEngine.Input → Prop
  | .endpoint _ (.localMediaTrack _ (.media _)) _ => False
  | _ => True

/-- Media comes with what its transcoder makes of it. -/
inductive Input where
  | media (now : Instant) (track : LocalTrackId) (pkt : MediaPacket) (pcma : Option Bytes)
  | plain (input : {input : RtpEngine.Input // IsPlain input})

section Model

variable (env : Env)

def engineInput : Input → RtpEngine.Input
  | .media now track pkt pcma =>
      .endpoint now (.localMediaTrack track (.media pkt))
        (pcma.bind fun payload => env.build (rtpOf pkt payload))
  | .plain input => input.val

theorem queue_none : RtpEngine.queue none = [] := rfl

def machine : Machine Session Input Output where
  init := none
  step s input := RtpEngine.step env.rtpEngine s (engineInput env input)
  queue := RtpEngine.queue
  dropFront := (RtpEngine.machine env.rtpEngine).dropFront
  queue_init := queue_none
  queue_dropFront := (RtpEngine.machine env.rtpEngine).queue_dropFront
  step_appends s input s' h :=
    (RtpEngine.machine env.rtpEngine).step_appends s (engineInput env input) s' h

/-! ### Timestamps -/

/-- The timestamp of a packet and the one that is emitted for it. -/
structure Clock where
  received : UInt32
  emitted : UInt32
deriving DecidableEq

def mediaTs : Output → Option UInt32
  | .event (.remoteTrack _ (.media pkt)) => some pkt.ts
  | _ => none

/-- The timestamp that a datagram carries to the peer. -/
def datagramTs : Output → Option UInt32
  | .net (.udpPacket _ _ data) => (env.rtpEngine.readRtp data).map RtpPacket.timestamp
  | _ => none

def inClocks : Input × List Output → List Clock
  | (.plain ⟨.net _ (.udpPacket _ _ data) _, _⟩, outs) =>
      match TransportRtpEngine.readRtp env.rtpEngine data with
      | .ok (some rtp) => (outs.filterMap mediaTs).map fun ts => ⟨rtp.timestamp, ts⟩
      | _ => []
  | _ => []

def outClocks : Input × List Output → List Clock
  | (.media _ _ pkt _, outs) => (outs.filterMap (datagramTs env)).map fun ts => ⟨pkt.ts, ts⟩
  | _ => []

/-- The packets of a run that came in and were emitted as media. -/
def clocksIn (history : History Input Output) : List Clock := history.flatMap (inClocks env)

/-- The packets of a run that went out. -/
def clocksOut (history : History Input Output) : List Clock := history.flatMap (outClocks env)

end Model

/-! ### What a step does to a timestamp -/

variable {env : Env}

theorem mediaTs_of_mediaTrack {out : Output} (h : mediaTrack out = none) : mediaTs out = none := by
  unfold mediaTs
  split
  · exact nomatch h
  · rfl

theorem mediaTs_mediaOutputs {rtp : RtpPacket} {opus : Option Bytes} {out : Output} {ts : UInt32}
    (h : out ∈ TransportRtpEngine.mediaOutputs rtp opus) (hts : mediaTs out = some ts) :
    ts = rtp.timestamp * 6 := by
  cases opus with
  | none => exact nomatch h
  | some data =>
    rw [List.mem_singleton.mp h] at hts
    exact (Option.some.inj hts).symm

/-- Media that comes of a datagram has six times its timestamp. -/
theorem mediaTs_onUdpPacket {t t' : TransportRtpEngine} {now : Instant} {source : SocketAddr}
    {data : Bytes} {opus : Option Bytes} {rtp : RtpPacket} {outs : List Output}
    (hread : TransportRtpEngine.readRtp env.rtpEngine data = .ok (some rtp))
    (h : t.onUdpPacket env.rtpEngine now source data opus = .ok t')
    (hqueue : t'.queue = t.queue ++ outs) {out : Output} (hmem : out ∈ outs) {ts : UInt32}
    (hts : mediaTs out = some ts) : ts = rtp.timestamp * 6 := by
  rw [TransportRtpEngine.onUdpPacket, hread] at h
  by_cases htype : rtp.payloadType = 8
  · have hpcma : (heard t now).onPcma source rtp opus = t' :=
      Except.ok.inj ((congrArg Except.ok (if_pos htype).symm).trans h)
    obtain ⟨head, hhears⟩ := hears_onPcma (heard t now) source rtp opus
    rw [hpcma] at hhears
    have houts : outs = head ++ TransportRtpEngine.mediaOutputs rtp opus :=
      List.append_cancel_left (hqueue.symm.trans hhears.queue)
    rw [houts] at hmem
    rcases List.mem_append.mp hmem with hhead | hmedia
    · rw [mediaTs_of_mediaTrack (hhears.noMedia out hhead)] at hts
      cases hts
    · exact mediaTs_mediaOutputs hmedia hts
  · have hsame : heard t now = t' :=
      Except.ok.inj ((congrArg Except.ok (if_neg htype).symm).trans h)
    rw [← hsame] at hqueue
    rw [List.self_eq_append_right.mp hqueue] at hmem
    cases hmem

/-- A datagram that comes of media has a sixth of its timestamp. -/
theorem datagramTs_onEvent (hreads : ∀ rtp data, env.build rtp = some data →
      env.rtpEngine.readRtp data = some rtp) {t : TransportRtpEngine} {now : Instant}
    {track : LocalTrackId} {pkt : MediaPacket} {pcma : Option Bytes} {outs : List Output}
    (hqueue : (t.onEvent now (pcma.bind fun payload => env.build (rtpOf pkt payload))
      (.localMediaTrack track (.media pkt))).queue = t.queue ++ outs) {out : Output}
    (hmem : out ∈ outs) {ts : UInt32} (hts : datagramTs env out = some ts) : ts = pkt.ts / 6 := by
  dsimp only [TransportRtpEngine.onEvent] at hqueue
  split at hqueue
  case h_1 slot remote data hslot hremote hdata =>
    have houts : outs = [.net (.udpPacket slot remote data)] :=
      List.append_cancel_left hqueue.symm
    rw [houts, List.mem_singleton] at hmem
    obtain ⟨payload, _, hbuild⟩ := Option.bind_eq_some_iff.mp hdata
    rw [hmem, datagramTs, hreads _ _ hbuild] at hts
    exact (Option.some.inj hts).symm
  case h_2 =>
    rw [List.self_eq_append_right.mp hqueue] at hmem
    exact nomatch hmem

theorem exists_stepLive {t : TransportRtpEngine} {input : Input} {s' : Session}
    (h : (machine env).step (some t) input = .ok s') :
    ∃ t', RtpEngine.stepLive env.rtpEngine t (engineInput env input) = .ok t' ∧
      s' = some t' := by
  change RtpEngine.step env.rtpEngine (some t) (engineInput env input) = .ok s' at h
  rw [RtpEngine.step] at h
  cases hlive : RtpEngine.stepLive env.rtpEngine t (engineInput env input) with
  | error panic =>
    rw [hlive] at h
    cases h
  | ok t' =>
    rw [hlive] at h
    exact ⟨t', rfl, (Except.ok.inj h).symm⟩

theorem inClocks_step {s s' : Session} {input : Input} {outs : List Output}
    (h : (machine env).step s input = .ok s')
    (hqueue : RtpEngine.queue s' = RtpEngine.queue s ++ outs) {clock : Clock}
    (hclock : clock ∈ inClocks env (input, outs)) : clock.emitted = clock.received * 6 := by
  unfold inClocks at hclock
  split at hclock
  case h_2 => exact nomatch hclock
  case h_1 now slot source data opus hplain outs' heq =>
    obtain ⟨rfl, rfl⟩ := Prod.mk.inj heq
    split at hclock
    case h_2 => exact nomatch hclock
    case h_1 rtp hread =>
      obtain ⟨ts, hts, rfl⟩ := List.mem_map.mp hclock
      obtain ⟨out, hmem, hout⟩ := List.mem_filterMap.mp hts
      cases s with
      | none =>
        rw [← Except.ok.inj h] at hqueue
        have hnone : outs = [] := hqueue.symm
        rw [hnone] at hmem
        exact nomatch hmem
      | some t =>
        obtain ⟨t', hlive, rfl⟩ := exists_stepLive h
        exact mediaTs_onUdpPacket hread hlive hqueue hmem hout

theorem outClocks_step (hreads : ∀ rtp data, env.build rtp = some data →
      env.rtpEngine.readRtp data = some rtp) {s s' : Session} {input : Input} {outs : List Output}
    (h : (machine env).step s input = .ok s')
    (hqueue : RtpEngine.queue s' = RtpEngine.queue s ++ outs) {clock : Clock}
    (hclock : clock ∈ outClocks env (input, outs)) : clock.emitted = clock.received / 6 := by
  unfold outClocks at hclock
  split at hclock
  case h_2 => exact nomatch hclock
  case h_1 now track pkt pcma outs' heq =>
    obtain ⟨rfl, rfl⟩ := Prod.mk.inj heq
    obtain ⟨ts, hts, rfl⟩ := List.mem_map.mp hclock
    obtain ⟨out, hmem, hout⟩ := List.mem_filterMap.mp hts
    cases s with
    | none =>
      rw [← Except.ok.inj h] at hqueue
      have hnone : outs = [] := hqueue.symm
      rw [hnone] at hmem
      exact nomatch hmem
    | some t =>
      obtain ⟨t', hlive, rfl⟩ := exists_stepLive h
      rw [← Except.ok.inj hlive] at hqueue
      exact datagramTs_onEvent hreads hqueue hmem hout

/-- **Runs.**  All that comes in is multiplied, all that goes out divided. -/
theorem clocks_of_run (hreads : ∀ rtp data, env.build rtp = some data →
      env.rtpEngine.readRtp data = some rtp) {acts : List (Action Input)}
    {c : Config Session Input Output} (hrun : (machine env).run acts = .ok c) :
    (∀ clock ∈ clocksIn env c.history, clock.emitted = clock.received * 6) ∧
      ∀ clock ∈ clocksOut env c.history, clock.emitted = clock.received / 6 := by
  refine run_invariant (fun _ _ _ => True) (fun history _ =>
    (∀ clock ∈ clocksIn env history, clock.emitted = clock.received * 6) ∧
      ∀ clock ∈ clocksOut env history, clock.emitted = clock.received / 6) ?_ ?_ ?_
    (Admits.of_forall (fun _ _ _ => trivial) acts) hrun
  · exact ⟨fun _ hmem => (nomatch hmem), fun _ hmem => (nomatch hmem)⟩
  · intro history s input s' hold _ hstep
    have hqueue := (machine env).queue_eq_append_pushed hstep
    constructor
    · intro clock hmem
      rw [clocksIn, List.flatMap_append, List.mem_append, List.flatMap_singleton] at hmem
      rcases hmem with hbefore | hlast
      · exact hold.1 clock hbefore
      · exact inClocks_step hstep hqueue hlast
    · intro clock hmem
      rw [clocksOut, List.flatMap_append, List.mem_append, List.flatMap_singleton] at hmem
      rcases hmem with hbefore | hlast
      · exact hold.2 clock hbefore
      · exact outClocks_step hreads hstep hqueue hlast
  · intro history s hold
    exact hold

/-! ### Differences -/

/-- A packet with the time that its sender counts, which does not wrap. -/
structure Timed where
  time : Nat
  clock : Clock
  wraps : time % 2 ^ 32 = clock.received.toNat

/-- The difference of the timestamps that were emitted. -/
def Timed.emittedDiff (x y : Timed) : Int := x.clock.emitted.toNat - y.clock.emitted.toNat

/-- The true difference of the times. -/
def Timed.timeDiff (x y : Timed) : Int := x.time - y.time

/-- A product commutes with the wrap. -/
theorem emittedDiff_mul {x y : Timed} (hx : x.clock.emitted = x.clock.received * 6)
    (hy : y.clock.emitted = y.clock.received * 6) :
    x.emittedDiff y ≡ 6 * x.timeDiff y [ZMOD 2 ^ 32] := by
  have hone : ∀ z : Timed, z.clock.emitted = z.clock.received * 6 →
      (z.clock.emitted.toNat : Int) ≡ 6 * z.time [ZMOD 2 ^ 32] := by
    intro z hz
    have hwraps := z.wraps
    rw [hz, UInt32.toNat_mul, ← hwraps]
    unfold Int.ModEq
    change ((z.time % 2 ^ 32 * 6 % 2 ^ 32 : Nat) : Int) % 2 ^ 32 = _
    omega
  rw [Timed.emittedDiff, Timed.timeDiff, mul_sub]
  exact (hone x hx).sub (hone y hy)

/-- A quotient commutes with as many wraps as six divides. -/
theorem emittedDiff_div {x y : Timed} (hx : x.clock.emitted = x.clock.received / 6)
    (hy : y.clock.emitted = y.clock.received / 6) (hmod : x.time ≡ y.time [MOD 6]) :
    x.emittedDiff y ≡ x.timeDiff y / 6 [ZMOD 2 ^ 32] ↔
      x.time / 2 ^ 32 ≡ y.time / 2 ^ 32 [MOD 6] := by
  have hxt : x.clock.emitted.toNat = x.time % 2 ^ 32 / 6 := by
    rw [hx, UInt32.toNat_div, ← x.wraps]
    rfl
  have hyt : y.clock.emitted.toNat = y.time % 2 ^ 32 / 6 := by
    rw [hy, UInt32.toNat_div, ← y.wraps]
    rfl
  rw [Timed.emittedDiff, Timed.timeDiff, hxt, hyt]
  unfold Int.ModEq Nat.ModEq at *
  omega

/-- **Differences survive on the way in, and on the way out exactly if all packets are from the
    same round of the clock, modulo six.** -/
theorem differences_iff (hreads : ∀ rtp data, env.build rtp = some data →
      env.rtpEngine.readRtp data = some rtp) {acts : List (Action Input)}
    {c : Config Session Input Output} (hrun : (machine env).run acts = .ok c) :
    (∀ timed : List Timed, timed.map Timed.clock = clocksIn env c.history →
      ∀ x ∈ timed, ∀ y ∈ timed, x.emittedDiff y ≡ 6 * x.timeDiff y [ZMOD 2 ^ 32]) ∧
    ∀ timed : List Timed, timed.map Timed.clock = clocksOut env c.history →
      (∀ first ∈ timed.head?, ∀ x ∈ timed, x.time ≡ first.time [MOD 6]) →
      ((∀ x ∈ timed, ∀ y ∈ timed, x.emittedDiff y ≡ x.timeDiff y / 6 [ZMOD 2 ^ 32]) ↔
        ∀ x ∈ timed, ∀ y ∈ timed, x.time / 2 ^ 32 ≡ y.time / 2 ^ 32 [MOD 6]) := by
  obtain ⟨hin, hout⟩ := clocks_of_run hreads hrun
  constructor
  · intro timed hclocks x hx y hy
    have hmul : ∀ z ∈ timed, z.clock.emitted = z.clock.received * 6 := by
      intro z hz
      apply hin
      rw [← hclocks]
      exact List.mem_map_of_mem hz
    exact emittedDiff_mul (hmul x hx) (hmul y hy)
  · intro timed hclocks hfirst
    have hdiv : ∀ z ∈ timed, z.clock.emitted = z.clock.received / 6 := by
      intro z hz
      apply hout
      rw [← hclocks]
      exact List.mem_map_of_mem hz
    have hmod : ∀ x ∈ timed, ∀ y ∈ timed, x.time ≡ y.time [MOD 6] := by
      intro x hx y hy
      cases timed with
      | nil => exact nomatch hx
      | cons first rest => exact (hfirst first rfl x hx).trans (hfirst first rfl y hy).symm
    refine forall₂_congr fun x hx => forall₂_congr fun y hy => ?_
    exact emittedDiff_div (hdiv x hx) (hdiv y hy) (hmod x hx y hy)

/-! ### A line -/

/-- RTP without extensions, padding and contributing sources. -/
def plainBytes (rtp : RtpPacket) : Bytes :=
  [0x80, rtp.payloadType ||| (if rtp.mark then 0x80 else 0), (rtp.sequence >>> 8).toUInt8,
    rtp.sequence.toUInt8, (rtp.timestamp >>> 24).toUInt8, (rtp.timestamp >>> 16).toUInt8,
    (rtp.timestamp >>> 8).toUInt8, rtp.timestamp.toUInt8, 0, 0, 0, 0] ++ rtp.payload

/-- A builder that refuses what cannot be read back. -/
def buildPlain (rtp : RtpPacket) : Option Bytes :=
  if readPlainRtp (plainBytes rtp) = some rtp then some (plainBytes rtp) else none

def phoneLine : Env := ⟨line.rtpEngine, buildPlain⟩

theorem phoneLine_reads (rtp : RtpPacket) (data : Bytes) (h : phoneLine.build rtp = some data) :
    phoneLine.rtpEngine.readRtp data = some rtp := by
  change buildPlain rtp = some data at h
  change readPlainRtp data = some rtp
  unfold buildPlain at h
  split at h
  case isTrue hread =>
    rw [← Option.some.inj h]
    exact hread
  case isFalse => exact nomatch h

/-- A call in which the room sends packets with the given timestamps. -/
def callWith (stamps : List UInt32) : List (Action Input) :=
  [.input (.plain ⟨.newAnswer "room" "phone" ("ip", 5060) 0 "", trivial⟩),
    .input (.plain ⟨.net 0 (.udpListenResult ("ip", 5060) (some (("ip", 5060), 0))) none,
      trivial⟩)] ++
    stamps.map fun ts =>
      .input (.media 0 0 ⟨ts, 0, false, false, none, .opus none, []⟩ (some [0xD5]))

theorem exists_callWith {stamps : List UInt32} {clocks : List Clock}
    (h : ((machine phoneLine).run (callWith stamps)).toOption.any
      (fun c => clocksOut phoneLine c.history = clocks) = true) :
    ∃ c, (machine phoneLine).run (callWith stamps) = .ok c ∧
      clocksOut phoneLine c.history = clocks := by
  obtain ⟨c, hrun, hclocks⟩ := (Option.any_eq_true _ _).mp h
  exact ⟨c, Except.mem_toOption.mp hrun, of_decide_eq_true hclocks⟩

/-- Two packets of 20 ms, before the wrap. -/
theorem differences_iff_call :
    ∃ c, (machine phoneLine).run (callWith [4800, 5760]) = .ok c ∧
      clocksOut phoneLine c.history = [⟨4800, 800⟩, ⟨5760, 960⟩] ∧
      ((∀ timed : List Timed, timed.map Timed.clock = clocksIn phoneLine c.history →
        ∀ x ∈ timed, ∀ y ∈ timed, x.emittedDiff y ≡ 6 * x.timeDiff y [ZMOD 2 ^ 32]) ∧
      ∀ timed : List Timed, timed.map Timed.clock = clocksOut phoneLine c.history →
        (∀ first ∈ timed.head?, ∀ x ∈ timed, x.time ≡ first.time [MOD 6]) →
        ((∀ x ∈ timed, ∀ y ∈ timed, x.emittedDiff y ≡ x.timeDiff y / 6 [ZMOD 2 ^ 32]) ↔
          ∀ x ∈ timed, ∀ y ∈ timed, x.time / 2 ^ 32 ≡ y.time / 2 ^ 32 [MOD 6])) := by
  have hcall : ((machine phoneLine).run (callWith [4800, 5760])).toOption.any
      (fun c => clocksOut phoneLine c.history = [⟨4800, 800⟩, ⟨5760, 960⟩]) = true := by
    decide
  obtain ⟨c, hrun, hclocks⟩ := exists_callWith hcall
  exact ⟨c, hrun, hclocks, differences_iff phoneLine_reads hrun⟩

/-- Two packets of 20 ms, one on each side of the wrap: the peer sees the clock jump back by hours
    and not on by 160. -/
theorem not_differences :
    ∃ c, (machine phoneLine).run (callWith [4294967290, 954]) = .ok c ∧
      ∃ x y : Timed, [x, y].map Timed.clock = clocksOut phoneLine c.history ∧
        x.timeDiff y = -960 ∧ ¬x.emittedDiff y ≡ x.timeDiff y / 6 [ZMOD 2 ^ 32] := by
  have hcall : ((machine phoneLine).run (callWith [4294967290, 954])).toOption.any
      (fun c => clocksOut phoneLine c.history = [⟨4294967290, 715827881⟩, ⟨954, 159⟩]) =
        true := by
    decide
  obtain ⟨c, hrun, hclocks⟩ := exists_callWith hcall
  refine ⟨c, hrun, ⟨4294967290, ⟨4294967290, 715827881⟩, by decide⟩,
    ⟨4294968250, ⟨954, 159⟩, by decide⟩, hclocks.symm, by decide, ?_⟩
  unfold Int.ModEq
  decide

end MediaServer.Transport.RtpEngineClock
