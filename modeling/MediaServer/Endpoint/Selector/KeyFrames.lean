import MediaServer.Endpoint.Selector.PacketSelector
import MediaServer.Lib.Execution

/-!
# The demand for a key frame

While a channel is selected and has no selector, nothing is forwarded until a key frame arrives,
and so `needKeyFrame` has to be set: then `on_tick` asks for one again and again.

The flag is set when a source begins with a packet that is not a key packet, and also when a
selector asks for a key frame.  A source that begins with a key packet before a bitrate is granted
has that packet used for nothing.
-/

namespace MediaServer.Endpoint.PacketSelector

open Execution

inductive Input where
  | select (nowMs : Nat) (channel : UInt64) (pkt : MediaPacket)
  | setTargetBitrate (bitrate : UInt64)
  | reset
  | setLimitLayer (maxSpatial maxTemporal : UInt8)
  | onTick (nowMs : Nat)
  | popOutput (nowMs : Nat)

def step (s : PacketSelector) : Input → Except Panic PacketSelector
  | .select nowMs channel pkt => Prod.snd <$> s.select nowMs channel pkt
  | .setTargetBitrate bitrate => .ok (s.setTargetBitrate bitrate)
  | .reset => .ok s.reset
  | .setLimitLayer maxSpatial maxTemporal => .ok (s.setLimitLayer maxSpatial maxTemporal)
  | .onTick nowMs => .ok (s.onTick nowMs)
  | .popOutput nowMs => .ok (s.popOutput nowMs).2

/-- The steps of a run, which ends where the code panics. -/
def next (s : PacketSelector) (input : Input) : Option PacketSelector := (s.step input).toOption

/-- A channel is selected, and none of its packets passes before a key frame. -/
def Waits (s : PacketSelector) : Prop := s.selectedChannel.isSome ∧ s.selector = none

/-- Whoever waits for a key frame asks for it. -/
def Demands (s : PacketSelector) : Prop := s.Waits → s.needKeyFrame = true

/-- At a tick, when the interval is over, whoever waits queues a request. -/
def Retries (s : PacketSelector) (input : Input) (s' : PacketSelector) : Prop :=
  ∀ nowMs, input = .onTick nowMs → s.Waits → s.requestDue nowMs →
    s'.queue = s.queue ++ [Action.requestKeyFrame] ∧ s'.lastKeyFrameTs = some nowMs

/-- The packet is the first one of its source, a key packet, and comes before a bitrate is
    granted. -/
def Wasted (s : PacketSelector) (input : Input) : Prop :=
  ∃ nowMs channel pkt, input = .select nowMs channel pkt ∧ s.selectedChannel ≠ some channel ∧
    pkt.mediaMeta.isVideoKey ∧ s.bitrate = none

/-! ### What each operation does to the demand -/

/-- What no operation but `select` and `reset` takes away. -/
structure Stays (s s' : PacketSelector) : Prop where
  kind : s'.kind = s.kind
  channel : s'.selectedChannel = s.selectedChannel
  selector : s'.selector.isSome = s.selector.isSome
  need : s.needKeyFrame = true → s'.needKeyFrame = true

theorem Stays.demands {s s' : PacketSelector} (h : Stays s s') (hs : s.Demands) : s'.Demands := by
  intro hwaits
  apply h.need
  apply hs
  obtain ⟨hchannel, hnone⟩ := hwaits
  rw [h.channel] at hchannel
  have hsame := h.selector
  rw [hnone, Option.isSome_none] at hsame
  exact ⟨hchannel, Option.isSome_eq_false_iff.mp hsame.symm |> Option.isNone_iff_eq_none.mp⟩

theorem setTargetBitrate_stays (s : PacketSelector) (bitrate : UInt64) :
    Stays s (s.setTargetBitrate bitrate) :=
  ⟨rfl, rfl, by simp [setTargetBitrate], id⟩

theorem setLimitLayer_stays (s : PacketSelector) (maxSpatial maxTemporal : UInt8) :
    Stays s (s.setLimitLayer maxSpatial maxTemporal) :=
  ⟨rfl, rfl, by simp [setLimitLayer], id⟩

theorem onTick_stays (s : PacketSelector) (nowMs : Nat) : Stays s (s.onTick nowMs) := by
  rw [onTick]
  split
  · exact ⟨rfl, rfl, rfl, id⟩
  · exact ⟨rfl, rfl, rfl, id⟩

theorem popActions_stays (s : PacketSelector) (nowMs waiting : Nat) :
    Stays s (s.popActions nowMs waiting).2 := by
  induction waiting generalizing s with
  | zero => exact ⟨rfl, rfl, rfl, id⟩
  | succ waiting ih =>
    rw [popActions]
    split
    · rename_i action selector hpop
      have hsome : s.selector.isSome = true := by
        obtain ⟨selector', hselector, -⟩ := Option.map_eq_some_iff.mp hpop
        rw [hselector, Option.isSome_some]
      dsimp only
      split
      · exact ⟨rfl, rfl, hsome.symm, fun _ => rfl⟩
      · obtain ⟨hkind, hchannel, hselector, hneed⟩ := ih { s with selector := some selector }
        exact ⟨hkind, hchannel, hselector.trans hsome.symm, hneed⟩
    · exact ⟨rfl, rfl, rfl, id⟩

theorem popOutput_stays (s : PacketSelector) (nowMs : Nat) : Stays s (s.popOutput nowMs).2 := by
  rw [popOutput]
  split
  · exact ⟨rfl, rfl, rfl, id⟩
  · exact popActions_stays s nowMs _

/-- A packet that passes changes the rewriters alone. -/
theorem emit_same {s s' : PacketSelector} {nowMs : Nat} {pkt : MediaPacket}
    {allowed : Option MediaPacket} (h : s.emit nowMs pkt = .ok (allowed, s')) :
    s'.kind = s.kind ∧ (s'.Demands ↔ s.Demands) := by
  simp only [emit, bind, Except.bind] at h
  split at h
  · cases h
  · split at h
    · cases h
      exact ⟨rfl, Iff.rfl⟩
    · cases h
      exact ⟨rfl, Iff.rfl⟩

theorem changeSource_same (s : PacketSelector) (nowMs : Nat) (channel : UInt64)
    (pkt : MediaPacket) :
    (s.changeSource nowMs channel pkt).kind = s.kind ∧
      (s.changeSource nowMs channel pkt).selectedChannel = some channel ∧
      (s.changeSource nowMs channel pkt).bitrate = s.bitrate := by
  rw [changeSource]
  split
  · dsimp only
    split
    · exact ⟨rfl, rfl, rfl⟩
    · exact ⟨rfl, rfl, rfl⟩
  · rename_i hsame
    exact ⟨rfl, not_not.mp hsame, rfl⟩

/-- Behind a change of source nobody asks for a key frame when the first packet is one. -/
theorem changeSource_demands {s : PacketSelector} (hs : s.Demands) (nowMs : Nat)
    (channel : UInt64) (pkt : MediaPacket) :
    (s.changeSource nowMs channel pkt).Demands ↔
      ¬ (s.selectedChannel ≠ some channel ∧ pkt.mediaMeta.isVideoKey ∧
        s.needKeyFrame = false) := by
  rw [changeSource]
  by_cases hother : s.selectedChannel ≠ some channel
  · rw [if_pos hother]
    cases hkey : pkt.mediaMeta.isVideoKey with
    | true => simp [Demands, Waits, hother]
    | false => simp [Demands]
  · rw [if_neg hother]
    simp only [hother, false_and, not_false_eq_true, iff_true]
    exact hs

theorem createSelector_isSome {pkt : MediaPacket} (hkey : pkt.mediaMeta.isVideoKey = true)
    (bitrate : UInt64) (limit : UInt8 × UInt8) : (createSelector pkt bitrate limit).isSome := by
  rcases hmeta : pkt.mediaMeta with _ | ⟨_, _, sim, _⟩ | ⟨_, sim, _⟩ | ⟨_, _, svc, _⟩
  · rw [hmeta, MediaMeta.isVideoKey] at hkey
    cases hkey
  · cases sim <;> simp [createSelector, hmeta]
  · cases sim <;> simp [createSelector, hmeta]
  · cases svc <;> simp [createSelector, hmeta]

/-- A key packet leads to a selector, and other packets leave the demand as it is. -/
theorem makeSelector_eq_ok (s : PacketSelector) (bitrate : UInt64) (pkt : MediaPacket) :
    ∃ s', s.makeSelector bitrate pkt = .ok s' ∧ s'.kind = s.kind ∧
      s'.selectedChannel = s.selectedChannel ∧
      (pkt.mediaMeta.isVideoKey = true → s'.selector.isSome) ∧
      (pkt.mediaMeta.isVideoKey = false → s' = s) := by
  rw [makeSelector]
  by_cases hmake : s.selector.isNone ∧ pkt.mediaMeta.isVideoKey
  · rw [if_pos hmake]
    obtain ⟨selector, hcreate⟩ := Option.isSome_iff_exists.mp
      (createSelector_isSome hmake.2 bitrate s.limit)
    rw [hcreate]
    refine ⟨_, rfl, rfl, rfl, fun _ => rfl, fun hkey => ?_⟩
    rw [hmake.2] at hkey
    cases hkey
  · rw [if_neg hmake]
    refine ⟨s, rfl, rfl, rfl, fun hkey => ?_, fun _ => rfl⟩
    rw [← Option.not_isNone, Bool.not_eq_true']
    exact Bool.eq_false_iff.mpr fun hnone => hmake ⟨hnone, hkey⟩

/-- What `select_video_inner` does once the source is known. -/
theorem selectVideoInner_cases {s s' : PacketSelector} {nowMs : Nat} {channel : UInt64}
    {pkt : MediaPacket} {allowed : Option MediaPacket}
    (h : s.selectVideoInner nowMs channel pkt = .ok (allowed, s')) :
    s'.kind = s.kind ∧ s'.selectedChannel = some channel ∧
      ((s.bitrate = none ∧ s' = s.changeSource nowMs channel pkt) ∨
        (s.bitrate.isSome ∧ s'.selector.isSome) ∨
        (s.bitrate.isSome ∧ pkt.mediaMeta.isVideoKey = false ∧
          s' = s.changeSource nowMs channel pkt)) := by
  obtain ⟨hkind, hchannel, hbitrate⟩ := s.changeSource_same nowMs channel pkt
  simp only [selectVideoInner] at h
  split at h
  · rename_i hnone
    cases h
    exact ⟨hkind, hchannel, Or.inl ⟨hbitrate ▸ hnone, rfl⟩⟩
  · rename_i bitrate hsome
    have hgranted : s.bitrate.isSome = true := by rw [← hbitrate, hsome, Option.isSome_some]
    obtain ⟨made, hmade, hkind', hchannel', hkeyed, hsame⟩ := makeSelector_eq_ok
      (if (s.changeSource nowMs channel pkt).needKeyFrame ∧ pkt.mediaMeta.isVideoKey then
        { s.changeSource nowMs channel pkt with needKeyFrame := false }
        else s.changeSource nowMs channel pkt) bitrate pkt
    simp only [bind, Except.bind, hmade] at h
    have hkind'' : made.kind = s.kind := by
      rw [hkind']
      split
      · exact hkind
      · exact hkind
    have hchannel'' : made.selectedChannel = some channel := by
      rw [hchannel']
      split
      · exact hchannel
      · exact hchannel
    split at h
    · rename_i hnone
      cases h
      refine ⟨hkind'', hchannel'', Or.inr (Or.inr ⟨hgranted, ?_⟩)⟩
      cases hkey : pkt.mediaMeta.isVideoKey with
      | true =>
        have hselector := hkeyed hkey
        rw [hnone] at hselector
        cases hselector
      | false =>
        refine ⟨rfl, ?_⟩
        rw [hsame hkey, hkey]
        exact if_neg fun hboth => Bool.noConfusion hboth.2
    · split at h
      · cases h
      · cases h
        exact ⟨hkind'', hchannel'', Or.inr (Or.inl ⟨hgranted, rfl⟩)⟩

theorem selectVideoInner_demands {s s' : PacketSelector} {nowMs : Nat} {channel : UInt64}
    {pkt : MediaPacket} {allowed : Option MediaPacket} (hs : s.Demands)
    (h : s.selectVideoInner nowMs channel pkt = .ok (allowed, s')) :
    s'.Demands ↔ (s.Wasted (.select nowMs channel pkt) → s.needKeyFrame = true) := by
  have hwasted : s.Wasted (.select nowMs channel pkt) ↔ s.selectedChannel ≠ some channel ∧
      pkt.mediaMeta.isVideoKey = true ∧ s.bitrate = none := by
    constructor
    · rintro ⟨_, _, _, hinput, hother, hkey, hnone⟩
      cases hinput
      exact ⟨hother, hkey, hnone⟩
    · rintro ⟨hother, hkey, hnone⟩
      exact ⟨_, _, _, rfl, hother, hkey, hnone⟩
  have hchange := changeSource_demands hs nowMs channel pkt
  rw [hwasted]
  obtain ⟨-, -, hcases⟩ := selectVideoInner_cases h
  rcases hcases with ⟨hnone, rfl⟩ | ⟨hgranted, hsome⟩ | ⟨hgranted, hkey, rfl⟩
  · rw [hchange, hnone]
    cases s.needKeyFrame with
    | true => simp
    | false => simp
  · have hbitrate : s.bitrate ≠ none := Option.ne_none_iff_isSome.mpr hgranted
    have hdemands : s'.Demands := by
      rintro ⟨-, hnone⟩
      rw [hnone] at hsome
      cases hsome
    simp [hdemands, hbitrate]
  · rw [hchange, hkey]
    simp

theorem step_select {s s' : PacketSelector} {nowMs : Nat} {channel : UInt64} {pkt : MediaPacket}
    (hkind : s.kind = .video) (hs : s.Demands)
    (h : s.step (.select nowMs channel pkt) = .ok s') :
    s'.kind = .video ∧
      (s'.Demands ↔ (s.Wasted (.select nowMs channel pkt) → s.needKeyFrame = true)) := by
  simp only [step, select, hkind, MediaKind.isAudio, Bool.false_eq_true, if_false, selectVideo,
    bind, Except.bind, Functor.map, Except.map] at h
  split at h
  · cases h
  · rename_i outcome hselect
    cases h
    split at hselect
    · cases hselect
    · rename_i inner hinner
      obtain ⟨allowed, s₁⟩ := inner
      have hdemands := selectVideoInner_demands hs hinner
      obtain ⟨hkind₁, -⟩ := selectVideoInner_cases hinner
      split at hselect
      · obtain ⟨hkind₂, hsame⟩ := emit_same hselect
        exact ⟨hkind₂.trans (hkind₁.trans hkind), hsame.trans hdemands⟩
      · cases hselect
        exact ⟨hkind₁.trans hkind, hdemands⟩

/-- The invariant: a video track that asks for the key frame it waits for. -/
def Asks (s : PacketSelector) : Prop := s.kind = .video ∧ s.Demands

theorem step_quiet {s s' : PacketSelector} {input : Input}
    (hinput : ∀ nowMs channel pkt, input ≠ .select nowMs channel pkt) (hs : s.Demands)
    (h : s.step input = .ok s') : s'.kind = s.kind ∧ s'.Demands := by
  cases input with
  | select nowMs channel pkt => exact absurd rfl (hinput nowMs channel pkt)
  | setTargetBitrate bitrate =>
    cases h
    exact ⟨rfl, (s.setTargetBitrate_stays bitrate).demands hs⟩
  | reset =>
    cases h
    exact ⟨rfl, fun hwaits => Bool.noConfusion hwaits.1⟩
  | setLimitLayer maxSpatial maxTemporal =>
    cases h
    exact ⟨rfl, (s.setLimitLayer_stays maxSpatial maxTemporal).demands hs⟩
  | onTick nowMs =>
    cases h
    exact ⟨(s.onTick_stays nowMs).kind, (s.onTick_stays nowMs).demands hs⟩
  | popOutput nowMs =>
    cases h
    exact ⟨(s.popOutput_stays nowMs).kind, (s.popOutput_stays nowMs).demands hs⟩

theorem retries_of_demands {s s' : PacketSelector} {input : Input} (hs : s.Demands)
    (h : s.step input = .ok s') : s.Retries input s' := by
  intro nowMs hinput hwaits hdue
  subst hinput
  cases h
  have hneed := hs hwaits
  rw [onTick, if_pos (by rw [hneed, hdue]; rfl)]
  exact ⟨rfl, rfl⟩

theorem step_iff {s s' : PacketSelector} {input : Input} (hasks : s.Asks)
    (h : s.step input = .ok s') :
    s'.kind = .video ∧
      (s'.Demands ∧ s.Retries input s' ↔ (s.Wasted input → s.needKeyFrame = true)) := by
  obtain ⟨hkind, hs⟩ := hasks
  have hretries := retries_of_demands hs h
  by_cases hinput : ∃ nowMs channel pkt, input = .select nowMs channel pkt
  · obtain ⟨nowMs, channel, pkt, rfl⟩ := hinput
    obtain ⟨hkind', hiff⟩ := step_select hkind hs h
    exact ⟨hkind', (and_iff_left hretries).trans hiff⟩
  · have hnone : ∀ nowMs channel pkt, input ≠ .select nowMs channel pkt :=
      fun nowMs channel pkt heq => hinput ⟨nowMs, channel, pkt, heq⟩
    obtain ⟨hkind', hdemands⟩ := step_quiet hnone hs h
    refine ⟨hkind'.trans hkind, iff_of_true ⟨hdemands, hretries⟩ ?_⟩
    rintro ⟨nowMs, channel, pkt, heq, -⟩
    exact absurd heq (hnone nowMs channel pkt)

/-- **Key frames are asked for.**  In a run of a video track whoever waits for a key frame asks for
    it at every moment, and once more at every tick behind the interval, exactly when no key packet
    that begins a source comes before a bitrate is granted, unless one is asked for already. -/
theorem key_frames_demanded_iff (maxSpatial maxTemporal : UInt8) (inputs : List Input) :
    Along next (fun s input s' => s'.Demands ∧ s.Retries input s')
        (new .video maxSpatial maxTemporal) inputs ↔
      Along next (fun s input _ => s.Wasted input → s.needKeyFrame = true)
        (new .video maxSpatial maxTemporal) inputs := by
  have hnew : (new .video maxSpatial maxTemporal).Asks :=
    ⟨rfl, fun hwaits => Bool.noConfusion hwaits.1⟩
  refine along_iff (fun s input s' hs hstep => ?_) hnew
  obtain ⟨hkind, hiff⟩ := step_iff hs (Except.mem_toOption.mp hstep)
  exact ⟨hiff, fun hmeets => ⟨hkind, (hiff.mpr hmeets).1⟩⟩

/-! ### A key frame that is used for nothing -/

/-- A VP8 packet without layers. -/
def plain (key : Bool) : MediaPacket where
  ts := 0
  seq := 0
  marker := true
  nackable := false
  layers := none
  mediaMeta := .vp8 key none none
  data := [1, 2, 3]

/-- A source begins with a key packet before the allocator has granted a bitrate. -/
theorem not_key_frames_demanded :
    ¬ ∀ (maxSpatial maxTemporal : UInt8) (inputs : List Input),
      Along next (fun s input s' => s'.Demands ∧ s.Retries input s')
        (new .video maxSpatial maxTemporal) inputs := by
  intro hall
  have hend := (hall 2 2 [.select 0 0 (plain true)] _ rfl).1.1
  exact Bool.noConfusion (hend ⟨rfl, rfl⟩)

end MediaServer.Endpoint.PacketSelector
