import MediaServer.Cluster.AudioMixer.Mixer

/-!
# Subscription of the mixer channel

The three subscribers of a room's mixer speak about one and the same channel, each for
the endpoints of its own number of outputs.  As long as only one of them is in use at a
time, what the mixer says about the channel is what that one says: `SubAuto` and
`UnsubAuto` alternate, and the channel is subscribed exactly while an endpoint mixes
automatically.  With two in use, both say `SubAuto`.
-/

namespace MediaServer.RoomMixer

open Collections Machine Pubsub Lease Runtime
open MediaTrack.Subscriber (subCommand subCommands subCommands_append subCommands_subAuto
  subCommands_unsubAuto)

namespace AutoMode

variable {Endpoint Feedback : Type}

/-! ### Who mixes automatically, by the inputs alone -/

variable [DecidableEq Endpoint]

/-- Whether an endpoint is joined in auto mode after an input. -/
def autoStep (joined : Endpoint → Bool) : MixerInput Endpoint Feedback → Endpoint → Bool
  | .join _ endpoint _ (some cfg) => Function.update joined endpoint (cfg.mode = .auto)
  | .leave _ endpoint => Function.update joined endpoint false
  | _ => joined

@[simp] theorem autoStep_join (joined : Endpoint → Bool) (hint : Nat) (endpoint : Endpoint)
    (peer : PeerId) (cfg : AudioMixerConfig) :
    autoStep joined (.join hint endpoint peer (some cfg) : MixerInput Endpoint Feedback) =
      Function.update joined endpoint (cfg.mode = .auto) := rfl

@[simp] theorem autoStep_leave (joined : Endpoint → Bool) (now : Instant) (endpoint : Endpoint) :
    autoStep joined (.leave now endpoint : MixerInput Endpoint Feedback) =
      Function.update joined endpoint false := rfl

/-- The endpoints joined in auto mode. -/
def autoJoined (history : History (MixerInput Endpoint Feedback) (Output Endpoint Feedback)) :
    Endpoint → Bool :=
  history.foldl (fun joined entry => autoStep joined entry.1) fun _ => false

theorem autoJoined_concat
    (history : History (MixerInput Endpoint Feedback) (Output Endpoint Feedback))
    (i : MixerInput Endpoint Feedback) (pushed : List (Output Endpoint Feedback)) :
    autoJoined (history ++ [(i, pushed)]) = autoStep (autoJoined history) i := by
  simp [autoJoined, List.foldl_append]

/-! ### What is asked of a run -/

/-- What callers promise: an endpoint joins when it is not joined, and the 64-bit channel of
    an attached source is not the channel of the mixer. -/
def Proper (hasher : Hasher) :
    Contract (MixerState Endpoint Feedback) (MixerInput Endpoint Feedback)
      (Output Endpoint Feedback)
  | _, s, .join _ endpoint _ _ =>
      s.mixer.autoMode.contains endpoint = false ∧ s.mixer.manualMode.contains endpoint = false
  | _, s, .control _ _ control =>
      ¬ ManualMixer.Attaches hasher s.mixer.room s.mixer.mixChannelId
        (RoomAudioMixer.controlInput control)
  | _, _, _ => True

/-- An endpoint joins in auto mode with one, two or three outputs, and only while the
    subscribers for the other numbers of outputs are empty. -/
def OneTier : Contract (MixerState Endpoint Feedback) (MixerInput Endpoint Feedback)
    (Output Endpoint Feedback)
  | _, s, .join _ _ _ (some cfg) => cfg.mode = .auto →
      ∃ tier, Tier.ofOutputs cfg.outputs.length = some tier ∧
        ∀ other, other ≠ tier → (s.mixer.subscribers other).isEmpty = true
  | _, _, _ => True

instance (hasher : Hasher) (history) (s : MixerState Endpoint Feedback)
    (i : MixerInput Endpoint Feedback) : Decidable (Proper hasher history s i) :=
  match i with
  | .join _ endpoint _ _ => inferInstanceAs (Decidable
      (s.mixer.autoMode.contains endpoint = false ∧ s.mixer.manualMode.contains endpoint = false))
  | .control _ _ control => inferInstanceAs (Decidable (¬ ManualMixer.Attaches hasher
      s.mixer.room s.mixer.mixChannelId (RoomAudioMixer.controlInput control)))
  | .tick _ | .leave .. | .trackPublish .. | .trackData .. | .trackUnpublish .. | .pubsub ..
  | .turn _ => .isTrue trivial

instance (history) (s : MixerState Endpoint Feedback) (i : MixerInput Endpoint Feedback) :
    Decidable (OneTier history s i) :=
  match i with
  | .join _ _ _ (some cfg) => inferInstanceAs (Decidable (cfg.mode = .auto →
      ∃ tier, Tier.ofOutputs cfg.outputs.length = some tier ∧
        ∀ other, other ≠ tier → (s.mixer.subscribers other).isEmpty = true))
  | .join _ _ _ none | .tick _ | .control .. | .leave .. | .trackPublish .. | .trackData ..
  | .trackUnpublish .. | .pubsub .. | .turn _ => .isTrue trivial

/-! ### The invariant -/

/-- One subscriber is in use, the others are empty, and everything the mixer said of its
    channel, with what that subscriber has yet to say, follows its endpoints. -/
structure Active (trace : List Command) (joined : Endpoint → Bool) (tier : Tier)
    (s : RoomAudioMixer Endpoint Feedback) : Prop where
  others : ∀ other, other ≠ tier → (s.subscribers other).isEmpty = true
  autoMode : ∀ endpoint n, s.autoMode.get endpoint = some n ↔
    n = tier.outputs ∧ (s.subscribers tier).endpoints.contains endpoint = true
  joined : ∀ endpoint, joined endpoint = (s.subscribers tier).endpoints.contains endpoint
  lease : LeaseTrace (trace ++ subCommands s.mixChannelId (s.subscribers tier).queue)
    ((s.subscribers tier).endpoints.isEmpty = false)

/-- The parts of a mixer that have nothing to say about the mixer channel, and subscribers
    that say it about the right one. -/
structure Wired (s : RoomAudioMixer Endpoint Feedback) : Prop where
  publisher : s.publisher.Sound
  publisherSilent : subCommands s.mixChannelId s.publisher.queue = []
  subscribers : ∀ tier, (s.subscribers tier).Sound tier.outputs
  channel : ∀ tier, (s.subscribers tier).channelId = s.mixChannelId
  manuals : ∀ index m, s.manuals.get index = some m →
    m.room = s.room ∧ m.Silent s.mixChannelId

structure Inv (history : History (MixerInput Endpoint Feedback) (Output Endpoint Feedback))
    (s : RoomAudioMixer Endpoint Feedback) : Prop where
  wired : Wired s
  active : ∃ tier, Active (subCommands s.mixChannelId (emitted history)) (autoJoined history) tier s

variable {s s' : RoomAudioMixer Endpoint Feedback} {trace : List Command}
  {joined : Endpoint → Bool} {tier : Tier}

omit [DecidableEq Endpoint] in
theorem isEmpty_iff {sub : AudioMixerSubscriber Endpoint Feedback} :
    sub.isEmpty = true ↔ sub.queue = [] ∧ sub.endpoints.isEmpty = true := by
  rw [AudioMixerSubscriber.isEmpty, Bool.and_eq_true, List.isEmpty_iff]

theorem wired_new (room : ClusterRoomHash) (mixChannelId : ChannelId) (start : Instant) :
    Wired (RoomAudioMixer.new room mixChannelId start : RoomAudioMixer Endpoint Feedback) where
  publisher := AudioMixerPublisher.sound_new mixChannelId
  publisherSilent := rfl
  subscribers tier := AudioMixerSubscriber.sound_new tier.outputs mixChannelId
  channel _ := rfl
  manuals index m hget := by simp [RoomAudioMixer.new] at hget

theorem active_new (room : ClusterRoomHash) (mixChannelId : ChannelId) (start : Instant) :
    Active [] (fun _ => false) .one
      (RoomAudioMixer.new room mixChannelId start : RoomAudioMixer Endpoint Feedback) where
  others _ _ := rfl
  autoMode endpoint n := by
    simp [RoomAudioMixer.new, AudioMixerSubscriber.new, IndexMap.contains]
  joined endpoint := rfl
  lease := LeaseTrace.nil Bool.noConfusion

/-- While all subscribers but one are empty, that one may be called the one in use. -/
theorem Active.switch (h : Active trace joined tier s) {other : Tier}
    (hothers : ∀ t, t ≠ other → (s.subscribers t).isEmpty = true) :
    Active trace joined other s := by
  by_cases heq : tier = other
  · exact heq ▸ h
  · obtain ⟨hqueue, hempty⟩ := isEmpty_iff.mp (hothers tier heq)
    obtain ⟨hqueue', hempty'⟩ := isEmpty_iff.mp (h.others other (Ne.symm heq))
    have hnone : ∀ e, (s.subscribers tier).endpoints.contains e = false := by
      intro e
      rw [IndexMap.contains, IndexMap.isEmpty_iff.mp hempty]
      rfl
    have hnone' : ∀ e, (s.subscribers other).endpoints.contains e = false := by
      intro e
      rw [IndexMap.contains, IndexMap.isEmpty_iff.mp hempty']
      rfl
    refine ⟨hothers, fun e n => ?_, fun e => ?_, ?_⟩
    · rw [h.autoMode, hnone, hnone']
      simp
    · rw [h.joined, hnone, hnone']
    · have hlease := h.lease
      rw [hqueue, hempty] at hlease
      rw [hqueue', hempty']
      exact hlease

/-- Nothing that matters here has changed. -/
theorem Active.congr (h : Active trace joined tier s) (hchannel : s'.mixChannelId = s.mixChannelId)
    (hautoMode : s'.autoMode = s.autoMode) (hsubscribers : s'.subscribers = s.subscribers) :
    Active trace joined tier s' := by
  obtain ⟨hothers, hauto, hjoined, hlease⟩ := h
  exact ⟨by rwa [hsubscribers], by rwa [hautoMode, hsubscribers], by rwa [hsubscribers],
    by rwa [hchannel, hsubscribers]⟩

omit [DecidableEq Endpoint] in
theorem subCommands_toEndpoints {c : ChannelId} {outputs : List (Output Endpoint Feedback)}
    (h : ∀ out ∈ outputs, ∃ endpoints event, out = .endpoint endpoints event) :
    subCommands c outputs = [] := by
  rw [subCommands, List.filterMap_eq_nil_iff]
  intro out hmem
  obtain ⟨endpoints, event, rfl⟩ := h out hmem
  rfl

/-- Ticks and packets keep the one subscriber in use and the others empty. -/
theorem Active.quiet (h : Active trace joined tier s)
    {subs : Tier → AudioMixerSubscriber Endpoint Feedback}
    (hquiet : ∀ t, AudioMixerSubscriber.Quiet (s.subscribers t) (subs t)) :
    Active trace joined tier { s with subscribers := subs } := by
  refine ⟨fun other hne => ?_, fun e n => ?_, fun e => ?_, ?_⟩
  · obtain ⟨hqueue, hempty⟩ := isEmpty_iff.mp (h.others other hne)
    obtain ⟨outputs, hqueue', -, hnothing⟩ := (hquiet other).queue
    refine isEmpty_iff.mpr ⟨?_, ?_⟩
    · change (subs other).queue = []
      rw [hqueue', hqueue, hnothing hempty]
      rfl
    · change (subs other).endpoints.isEmpty = true
      rw [(hquiet other).endpoints, hempty]
  · rw [h.autoMode]
    change _ ↔ n = tier.outputs ∧ (subs tier).endpoints.contains e = true
    rw [(hquiet tier).endpoints]
  · change joined e = (subs tier).endpoints.contains e
    rw [(hquiet tier).endpoints, h.joined]
  · obtain ⟨outputs, hqueue', hall, -⟩ := (hquiet tier).queue
    change LeaseTrace (trace ++ subCommands s.mixChannelId (subs tier).queue)
      ((subs tier).endpoints.isEmpty = false)
    rw [(hquiet tier).endpoints, hqueue', subCommands_append, subCommands_toEndpoints hall,
      List.append_nil]
    exact h.lease

/-- The one subscriber in use is called about its endpoints, and reports the change. -/
theorem Active.report (h : Active trace joined tier s)
    {sub : AudioMixerSubscriber Endpoint Feedback} {autoMode : IndexMap Endpoint Nat}
    {joined' : Endpoint → Bool} {outputs : List (Output Endpoint Feedback)}
    (hqueue : sub.queue = (s.subscribers tier).queue ++ outputs)
    (hauto : ∀ e n, autoMode.get e = some n ↔
      n = tier.outputs ∧ sub.endpoints.contains e = true)
    (hjoined : ∀ e, joined' e = sub.endpoints.contains e)
    (hcommands : subCommands s.mixChannelId outputs =
      edge (!(s.subscribers tier).endpoints.isEmpty) (!sub.endpoints.isEmpty)) :
    Active trace joined' tier ({ s with autoMode := autoMode }.setSubscriber tier sub) := by
  have hself : ({ s with autoMode := autoMode }.setSubscriber tier sub).subscribers tier = sub := by
    rw [RoomAudioMixer.setSubscriber_subscribers, if_pos rfl]
  refine ⟨fun other hne => ?_, fun e n => ?_, fun e => ?_, ?_⟩
  · rw [RoomAudioMixer.setSubscriber_subscribers, if_neg hne]
    exact h.others other hne
  · rw [hself]
    exact hauto e n
  · rw [hself]
    exact hjoined e
  · have hlease : LeaseTrace (trace ++ subCommands s.mixChannelId (s.subscribers tier).queue)
        ((!(s.subscribers tier).endpoints.isEmpty) = true) := by
      simpa using h.lease
    have hedge := @LeaseTrace.edge _ _ (!sub.endpoints.isEmpty) hlease
    rw [hself, hqueue]
    change LeaseTrace (trace ++ subCommands s.mixChannelId ((s.subscribers tier).queue ++ outputs)) _
    rw [subCommands_append, hcommands, ← List.append_assoc]
    simpa using hedge

/-! ### Parts that stay silent -/

omit [DecidableEq Endpoint] in
theorem subCommands_publishes {c channelId : ChannelId} {outputs : List (Output Endpoint Feedback)}
    (h : ∀ out ∈ outputs, AudioMixerPublisher.Publishes channelId out) :
    subCommands c outputs = [] := by
  rw [subCommands, List.filterMap_eq_nil_iff]
  intro out hmem
  rcases h out hmem with rfl | rfl | ⟨data, rfl⟩
  · rfl
  · rfl
  · rfl

theorem Wired.withPublisher (h : Wired s) {p : AudioMixerPublisher Endpoint Feedback}
    (hsound : p.Sound) (hextends : AudioMixerPublisher.Extends s.publisher p) :
    Wired { s with publisher := p } := by
  obtain ⟨outputs, hqueue, hall⟩ := hextends.queue
  refine ⟨hsound, ?_, h.subscribers, h.channel, h.manuals⟩
  change subCommands s.mixChannelId p.queue = []
  rw [hqueue, subCommands_append, h.publisherSilent, subCommands_publishes hall]
  rfl

theorem Wired.withManuals (h : Wired s) {manuals : TaskGroup (ManualMixer Endpoint Feedback)}
    (hmanuals : ∀ index m, manuals.get index = some m →
      m.room = s.room ∧ m.Silent s.mixChannelId) : Wired { s with manuals } :=
  ⟨h.publisher, h.publisherSilent, h.subscribers, h.channel, hmanuals⟩

theorem Wired.setManual (h : Wired s) {index : Nat} {m m' : ManualMixer Endpoint Feedback}
    (hget : s.manuals.get index = some m) (hsame : m.Same m')
    (hsilent : m'.Silent s.mixChannelId) :
    Wired { s with manuals := s.manuals.set index m' } := by
  apply h.withManuals
  intro j u hu
  rcases TaskGroup.get_set_eq_some hu with ⟨-, rfl⟩ | ⟨-, hu⟩
  · exact ⟨hsame.room.trans (h.manuals index m hget).1, hsilent⟩
  · exact h.manuals j u hu

/-- An event for a manual mixer that does not attach the mixer channel. -/
theorem Wired.toManual {hasher : Hasher} {codecs : MixerCodecs} {now : Instant} {index : Nat}
    {input : Manual.Input} (h : Wired s)
    (hattach : ¬ ManualMixer.Attaches hasher s.room s.mixChannelId input)
    (hok : s.toManual hasher codecs now index input = .ok s') :
    Wired s' ∧ ∃ manuals, s' = { s with manuals } := by
  rcases RoomAudioMixer.toManual_eq_ok hok with ⟨-, rfl⟩ | ⟨m, m', hget, hm', rfl⟩
  · exact ⟨h, s'.manuals, rfl⟩
  · obtain ⟨hroom, hsilent⟩ := h.manuals index m hget
    refine ⟨h.setManual hget (ManualMixer.onEvent_eq_ok hm').same ?_, _, rfl⟩
    exact hsilent.onEvent hm' (hroom ▸ hattach)

theorem Wired.withSubscribers (h : Wired s) {subs : Tier → AudioMixerSubscriber Endpoint Feedback}
    (hsound : ∀ tier, (subs tier).Sound tier.outputs)
    (hquiet : ∀ tier, AudioMixerSubscriber.Quiet (s.subscribers tier) (subs tier)) :
    Wired { s with subscribers := subs } := by
  refine ⟨h.publisher, h.publisherSilent, hsound, fun tier => ?_, h.manuals⟩
  exact (hquiet tier).channelId.trans (h.channel tier)

theorem Wired.setSubscriber (h : Wired s) {tier : Tier}
    {sub : AudioMixerSubscriber Endpoint Feedback} (hsound : sub.Sound tier.outputs)
    (hchannel : sub.channelId = s.mixChannelId) (autoMode : IndexMap Endpoint Nat) :
    Wired ({ s with autoMode := autoMode }.setSubscriber tier sub) := by
  refine ⟨h.publisher, h.publisherSilent, fun other => ?_, fun other => ?_, h.manuals⟩
  · rw [RoomAudioMixer.setSubscriber_subscribers]
    split
    · rename_i heq
      exact heq ▸ hsound
    · exact h.subscribers other
  · rw [RoomAudioMixer.setSubscriber_subscribers]
    split
    · exact hchannel
    · exact h.channel other

/-! ### Steps -/

/-- A tick: publisher and subscribers are quiet, and so are the manual mixers. -/
theorem tick_keeps (h : Wired s) {now : Instant} (hok : s.onTick now = .ok s') :
    Wired s' ∧ s'.mixChannelId = s.mixChannelId ∧ s'.autoMode = s.autoMode ∧
      ∀ tier, AudioMixerSubscriber.Quiet (s.subscribers tier) (s'.subscribers tier) := by
  unfold RoomAudioMixer.onTick at hok
  split at hok
  · obtain ⟨mixer, slots, hpublisher, hsound⟩ := h.publisher.onTick now
    have hsubs : ∀ tier, ∃ sub, (s.subscribers tier).onTick now = .ok sub ∧
        sub.Sound tier.outputs ∧ AudioMixerSubscriber.Quiet (s.subscribers tier) sub :=
      fun tier => (h.subscribers tier).onTick_quiet now
    choose subs hcall hsubSound hquiet using hsubs
    let ticked : RoomAudioMixer Endpoint Feedback :=
      { s with lastTick := now, publisher := { s.publisher with mixer, slots } }
    have hto : ticked.toSubscribers (fun sub => sub.onTick now) =
        .ok { ticked with subscribers := subs } := RoomAudioMixer.toSubscribers_ok hcall
    obtain ⟨publisher, hp, hok⟩ := Except.bind_eq_ok.mp hok
    rw [hpublisher] at hp
    cases hp
    obtain ⟨called, hcalled, hok⟩ := Except.bind_eq_ok.mp hok
    cases hto.symm.trans hcalled
    obtain ⟨manuals, hmanuals, hok⟩ := Except.bind_eq_ok.mp hok
    cases hok
    refine ⟨⟨hsound, h.publisherSilent, hsubSound, fun tier => ?_, fun index m' hm' => ?_⟩, rfl, rfl,
      hquiet⟩
    · exact (hquiet tier).channelId.trans (h.channel tier)
    · obtain ⟨m, hm, hmt⟩ := (TaskGroup.onAll_image hmanuals).exists_before hm'
      obtain ⟨hroom, hsilent⟩ := h.manuals index m hm
      exact ⟨(ManualMixer.onTick_eq_ok hmt).1.room.trans hroom, hsilent.onTick hmt⟩
  · cases hok
    exact ⟨h, rfl, rfl, fun tier => AudioMixerSubscriber.Quiet.refl _⟩

/-- An event of the SDN: the subscribers are quiet, and so are the manual mixers. -/
theorem pubsub_keeps (h : Wired s) {hasher : Hasher} {codecs : MixerCodecs} {now : Instant}
    {channel : ChannelId} {event : ChannelEvent Feedback}
    (hok : s.onPubsubEvent hasher codecs now channel event = .ok s') :
    Wired s' ∧ s'.mixChannelId = s.mixChannelId ∧ s'.autoMode = s.autoMode ∧
      ∀ tier, AudioMixerSubscriber.Quiet (s.subscribers tier) (s'.subscribers tier) := by
  have hnothing : Wired s ∧ s.mixChannelId = s.mixChannelId ∧ s.autoMode = s.autoMode ∧
      ∀ tier, AudioMixerSubscriber.Quiet (s.subscribers tier) (s.subscribers tier) :=
    ⟨h, rfl, rfl, fun tier => AudioMixerSubscriber.Quiet.refl _⟩
  cases event with
  | routeChanged next =>
    cases hok
    exact hnothing
  | feedbackData fb =>
    cases hok
    exact hnothing
  | sourceData source data =>
    simp only [RoomAudioMixer.onPubsubEvent] at hok
    split at hok
    · have hsubs : ∀ tier, ∃ sub, (s.subscribers tier).onChannelData codecs.audio now source data =
          .ok sub ∧ sub.Sound tier.outputs ∧ AudioMixerSubscriber.Quiet (s.subscribers tier) sub :=
        fun tier => (h.subscribers tier).onChannelData_quiet (Tier.outputs_pos tier) _ now source data
      choose subs hcall hsubSound hquiet using hsubs
      rw [RoomAudioMixer.toSubscribers_ok hcall] at hok
      cases hok
      exact ⟨h.withSubscribers hsubSound hquiet, rfl, rfl, hquiet⟩
    · split at hok
      · cases hok
        exact hnothing
      · obtain ⟨manuals, hmanuals, hok⟩ := Except.bind_eq_ok.mp hok
        cases hok
        refine ⟨h.withManuals ?_, rfl, rfl, hnothing.2.2.2⟩
        -- a packet attaches nothing, whichever tasks it reaches
        refine TaskGroup.onEvents_invariant
          (fun g => ∀ index m, g.get index = some m → m.room = s.room ∧ m.Silent s.mixChannelId)
          ?_ h.manuals hmanuals
        intro g index m m' hg hget hm' j u hu
        rcases TaskGroup.get_set_eq_some hu with ⟨-, rfl⟩ | ⟨-, hu⟩
        · obtain ⟨hroom, hsilent⟩ := hg index m hget
          exact ⟨(ManualMixer.onEvent_eq_ok hm').same.room.trans hroom,
            hsilent.onEvent hm' (fun hattach => hattach)⟩
        · exact hg j u hu

variable {history : History (MixerInput Endpoint Feedback) (Output Endpoint Feedback)}

/-- An input that hands nothing out and is not about an endpoint in auto mode. -/
theorem Inv.still (h : Inv history s) (hwired : Wired s') {i : MixerInput Endpoint Feedback}
    (hauto : autoStep (autoJoined history) i = autoJoined history)
    (hchannel : s'.mixChannelId = s.mixChannelId)
    (hactive : ∀ trace joined tier, Active trace joined tier s → Active trace joined tier s') :
    Inv (history ++ [(i, [])]) s' := by
  obtain ⟨tier, hold⟩ := h.active
  refine ⟨hwired, tier, ?_⟩
  rw [emitted_concat, List.append_nil, autoJoined_concat, hauto, hchannel]
  exact hactive _ _ _ hold

/-- The first endpoint of a subscriber subscribes the channel. -/
theorem Inv.joinAuto (h : Inv history s) {hasher : Hasher} {hint : Nat} {endpoint : Endpoint}
    {peer : PeerId} {cfg : AudioMixerConfig} (hmode : cfg.mode = .auto)
    (hfresh : s.autoMode.contains endpoint = false)
    (htier : Tier.ofOutputs cfg.outputs.length = some tier)
    (hothers : ∀ other, other ≠ tier → (s.subscribers other).isEmpty = true)
    (hok : { s with autoMode := s.autoMode.insert endpoint cfg.outputs.length }.toSubscriber tier
      (fun sub => sub.onEndpointJoin hasher endpoint peer cfg.outputs) = .ok s') :
    Inv (history ++ [(MixerInput.join hint endpoint peer (some cfg), [])]) s' := by
  obtain ⟨old, hold⟩ := h.active
  have hactive := hold.switch hothers
  obtain ⟨sub, hsub, rfl⟩ := RoomAudioMixer.toSubscriber_eq_ok hok
  have hlength := Tier.ofOutputs_eq_some.mp htier
  have hnone : s.autoMode.get endpoint = none := by
    rw [IndexMap.contains, Option.isSome_eq_false_iff] at hfresh
    exact Option.isNone_iff_eq_none.mp hfresh
  change (s.subscribers tier).onEndpointJoin hasher endpoint peer cfg.outputs = .ok sub at hsub
  unfold AudioMixerSubscriber.onEndpointJoin at hsub
  split at hsub
  · cases hsub
  · cases hsub
    have hsound := h.wired.subscribers tier
    have hcontains : ∀ e, ((s.subscribers tier).endpoints.insert endpoint
        ⟨hashCode hasher peer, cfg.outputs⟩).contains e =
        (decide (e = endpoint) || (s.subscribers tier).endpoints.contains e) := by
      intro e
      rw [IndexMap.contains, IndexMap.get_insert]
      by_cases he : e = endpoint
      · simp [he]
      · simp [he, IndexMap.contains]
    have hnotEmpty : ((s.subscribers tier).endpoints.insert endpoint
        ⟨hashCode hasher peer, cfg.outputs⟩).isEmpty = false := by
      rw [Bool.eq_false_iff]
      intro hempty
      have hnow := IndexMap.isEmpty_iff.mp hempty endpoint
      rw [IndexMap.get_insert_self] at hnow
      cases hnow
    refine ⟨?_, tier, ?_⟩
    · refine h.wired.setSubscriber ?_ ?_ _
      · refine hsound.withEndpoints (fun e slot hget => ?_) _
        rw [IndexMap.get_insert] at hget
        split at hget
        · cases hget
          exact hlength
        · exact hsound.tracks e slot hget
      · exact h.wired.channel tier
    · rw [emitted_concat, List.append_nil, autoJoined_concat]
      refine hactive.report rfl (fun e n => ?_) (fun e => ?_) ?_
      · rw [IndexMap.get_insert, hcontains]
        by_cases he : e = endpoint
        · simp [he, hlength, eq_comm]
        · rw [if_neg he, hactive.autoMode]
          simp [he]
      · rw [hcontains, ← hactive.joined]
        by_cases he : e = endpoint
        · simp [he, hmode]
        · simp [he]
      · rw [hnotEmpty, subCommands_append]
        have hrestore : subCommands s.mixChannelId
            ((AudioMixerSubscriber.knownSources (s.subscribers tier).outputs).map
              fun x => (slotSetTo endpoint x.1 x.2 : Output Endpoint Feedback)) = [] := by
          apply subCommands_toEndpoints
          intro out hmem
          obtain ⟨x, -, rfl⟩ := List.mem_map.mp hmem
          exact ⟨_, _, rfl⟩
        have hchannel := h.wired.channel tier
        cases hempty : (s.subscribers tier).endpoints.isEmpty with
        | true =>
          rw [if_pos rfl]
          change subCommands s.mixChannelId [.pubsub ⟨(s.subscribers tier).channelId, .subAuto⟩] ++ _ = _
          rw [hchannel, hrestore]
          simp [subCommands_subAuto]
        | false =>
          rw [if_neg Bool.false_ne_true, hrestore]
          rfl

/-- The last endpoint of a subscriber gives the channel up. -/
theorem Inv.leaveAuto (h : Inv history s) {now : Instant} {endpoint : Endpoint} {outputs : Nat}
    (hget : s.autoMode.get endpoint = some outputs)
    (htier : Tier.ofOutputs outputs = some tier)
    (hok : { s with autoMode := s.autoMode.swapRemove endpoint }.toSubscriber tier
      (fun sub => sub.onEndpointLeave endpoint) = .ok s') :
    Inv (history ++ [(MixerInput.leave now endpoint, [])]) s' := by
  obtain ⟨old, hactive⟩ := h.active
  obtain rfl : old = tier := by
    apply Tier.outputs_injective
    rw [← ((hactive.autoMode endpoint outputs).mp hget).1]
    exact Tier.ofOutputs_eq_some.mp htier
  obtain ⟨sub, hsub, rfl⟩ := RoomAudioMixer.toSubscriber_eq_ok hok
  change (s.subscribers old).onEndpointLeave endpoint = .ok sub at hsub
  unfold AudioMixerSubscriber.onEndpointLeave at hsub
  split at hsub
  · rename_i hin
    cases hsub
    have hsound := h.wired.subscribers old
    have hcontains : ∀ e, ((s.subscribers old).endpoints.swapRemove endpoint).contains e =
        (!decide (e = endpoint) && (s.subscribers old).endpoints.contains e) := by
      intro e
      rw [IndexMap.contains, IndexMap.get_swapRemove]
      by_cases he : e = endpoint
      · simp [he]
      · simp [he, IndexMap.contains]
    have hwas : (s.subscribers old).endpoints.isEmpty = false := by
      rw [Bool.eq_false_iff]
      intro hempty
      rw [IndexMap.contains, IndexMap.isEmpty_iff.mp hempty] at hin
      cases hin
    refine ⟨?_, old, ?_⟩
    · refine h.wired.setSubscriber ?_ ?_ _
      · refine hsound.withEndpoints (fun e slot hget => ?_) _
        rw [IndexMap.get_swapRemove] at hget
        split at hget
        · cases hget
        · exact hsound.tracks e slot hget
      · exact h.wired.channel old
    · rw [emitted_concat, List.append_nil, autoJoined_concat]
      refine hactive.report rfl (fun e n => ?_) (fun e => ?_) ?_
      · rw [IndexMap.get_swapRemove, hcontains]
        by_cases he : e = endpoint
        · simp [he]
        · rw [if_neg he, hactive.autoMode]
          simp [he]
      · rw [hcontains, ← hactive.joined]
        by_cases he : e = endpoint
        · simp [he]
        · simp [he]
      · have hchannel := h.wired.channel old
        rw [hwas]
        change subCommands s.mixChannelId (if ((s.subscribers old).endpoints.swapRemove
          endpoint).isEmpty then [.pubsub ⟨(s.subscribers old).channelId, .unsubAuto⟩] else []) = _
        cases ((s.subscribers old).endpoints.swapRemove endpoint).isEmpty with
        | true =>
          rw [if_pos rfl, hchannel]
          simp [subCommands_unsubAuto]
        | false =>
          rw [if_neg Bool.false_ne_true]
          rfl
  · cases hsub

/-- A turn of the publisher or of a manual mixer hands out nothing about the channel. -/
theorem Inv.silentTurn (h : Inv history s) {branch : RoomAudioMixer.Branch}
    {outputs : List (Output Endpoint Feedback)} (hwired : Wired s')
    (hsilent : subCommands s.mixChannelId outputs = [])
    (hchannel : s'.mixChannelId = s.mixChannelId) (hautoMode : s'.autoMode = s.autoMode)
    (hsubscribers : s'.subscribers = s.subscribers) :
    Inv (history ++ [(MixerInput.turn branch, outputs)]) s' := by
  obtain ⟨tier, hactive⟩ := h.active
  refine ⟨hwired, tier, ?_⟩
  rw [emitted_concat, autoJoined_concat, hchannel, subCommands_append, hsilent, List.append_nil]
  exact hactive.congr hchannel hautoMode hsubscribers

omit [DecidableEq Endpoint] in
theorem subCommands_head_tail (c : ChannelId) (queue : List (Output Endpoint Feedback)) :
    subCommands c queue.head?.toList ++ subCommands c queue.tail = subCommands c queue := by
  cases queue with
  | nil => rfl
  | cons out rest => rw [← subCommands_append]; rfl

theorem Inv.turnSubscriber (h : Inv history s) (other : Tier) :
    Inv (history ++ [(MixerInput.turn (.subscriber other), (s.subscribers other).queue.head?.toList)])
      (s.setSubscriber other
        { s.subscribers other with queue := (s.subscribers other).queue.tail }) := by
  obtain ⟨tier, hactive⟩ := h.active
  have hwired : Wired (s.setSubscriber other
      { s.subscribers other with queue := (s.subscribers other).queue.tail }) := by
    refine h.wired.setSubscriber ?_ ?_ s.autoMode
    · exact (h.wired.subscribers other).withEndpoints (h.wired.subscribers other).tracks _
    · exact h.wired.channel other
  refine ⟨hwired, tier, ?_⟩
  rw [emitted_concat, autoJoined_concat, subCommands_append]
  change Active (_ ++ subCommands s.mixChannelId (s.subscribers other).queue.head?.toList) _ _ _
  by_cases heq : other = tier
  · subst heq
    have hself : (s.setSubscriber other
        { s.subscribers other with queue := (s.subscribers other).queue.tail }).subscribers other =
        { s.subscribers other with queue := (s.subscribers other).queue.tail } := by
      rw [RoomAudioMixer.setSubscriber_subscribers, if_pos rfl]
    refine ⟨fun t hne => ?_, fun e n => ?_, fun e => ?_, ?_⟩
    · rw [RoomAudioMixer.setSubscriber_subscribers, if_neg hne]
      exact hactive.others t hne
    · rw [hself]
      exact hactive.autoMode e n
    · rw [hself]
      exact hactive.joined e
    · rw [hself]
      change LeaseTrace (_ ++ subCommands s.mixChannelId (s.subscribers other).queue.head?.toList ++
        subCommands s.mixChannelId (s.subscribers other).queue.tail) _
      rw [List.append_assoc, subCommands_head_tail]
      exact hactive.lease
  · -- an empty subscriber has nothing to hand out
    obtain ⟨hqueue, -⟩ := isEmpty_iff.mp (hactive.others other heq)
    have hsame : (s.setSubscriber other
        { s.subscribers other with queue := (s.subscribers other).queue.tail }).subscribers =
        s.subscribers := by
      funext t
      rw [RoomAudioMixer.setSubscriber_subscribers, hqueue]
      split
      · rename_i ht
        rw [ht]
        change { s.subscribers other with queue := [] } = _
        rw [← hqueue]
      · rfl
    have hnothing : subCommands s.mixChannelId (s.subscribers other).queue.head?.toList = [] := by
      rw [hqueue]
      rfl
    rw [hnothing, List.append_nil]
    exact hactive.congr rfl rfl hsame

theorem Inv.turnManual (h : Inv history s) {index : Nat}
    {outputs : List (Output Endpoint Feedback)}
    (hok : s.turn (.manual index) = .ok (outputs, s')) :
    Inv (history ++ [(MixerInput.turn (.manual index), outputs)]) s' := by
  rcases RoomAudioMixer.turn_manual_eq_ok hok with
    ⟨rfl, rfl⟩ | ⟨m, manualChannels, manuals, hget, rfl, hcases⟩
  · exact h.silentTurn h.wired rfl rfl rfl rfl
  · obtain ⟨hroom, hsilent⟩ := h.wired.manuals index m hget
    have hothers : (∀ j, manuals.get j = if j = index then none else s.manuals.get j) →
        ∀ j u, manuals.get j = some u → u.room = s.room ∧ u.Silent s.mixChannelId := by
      intro hremoved j u hu
      rw [hremoved] at hu
      split at hu
      · cases hu
      · exact h.wired.manuals j u hu
    rcases hcases with ⟨out, rest, hqueue, houtputs, hkept, hremoved⟩ | ⟨-, houtputs, hremoved⟩
    · have hout : subCommand s.mixChannelId out = none := by
        have hnone := hsilent.queue
        rw [hqueue, subCommands, List.filterMap_eq_nil_iff] at hnone
        exact hnone out (List.mem_cons_self ..)
      refine h.silentTurn ⟨h.wired.publisher, h.wired.publisherSilent, h.wired.subscribers,
        h.wired.channel, ?_⟩ ?_ rfl rfl rfl
      · by_cases hempty : out = .onResourceEmpty
        · exact hothers (hremoved hempty)
        · intro j u hu
          change manuals.get j = some u at hu
          rw [hkept hempty] at hu
          rcases TaskGroup.get_set_eq_some hu with ⟨-, rfl⟩ | ⟨-, hu⟩
          · exact ⟨hroom, hsilent.dropFront⟩
          · exact h.wired.manuals j u hu
      · rcases houtputs with rfl | rfl
        · rfl
        · simp [subCommands, hout]
    · refine h.silentTurn ⟨h.wired.publisher, h.wired.publisherSilent, h.wired.subscribers,
        h.wired.channel, hothers hremoved⟩ ?_ rfl rfl rfl
      rcases houtputs with rfl | rfl
      · rfl
      · rfl

/-- **Steps.** Every input of a proper run in which one subscriber is in use at a time keeps
    the invariant. -/
theorem Inv.step {hasher : Hasher} {codecs : MixerCodecs} {out : List (Output Endpoint Feedback)}
    {i : MixerInput Endpoint Feedback} {outputs : List (Output Endpoint Feedback)}
    (h : Inv history s) (hproper : Proper hasher history ⟨s, out⟩ i)
    (htier : OneTier history ⟨s, out⟩ i)
    (hok : Mixer.handle hasher codecs s i = .ok (outputs, s')) :
    Inv (history ++ [(i, outputs)]) s' := by
  cases i with
  | tick now =>
    obtain ⟨rfl, hcall⟩ := Mixer.map_eq_ok hok
    obtain ⟨hwired, hchannel, hautoMode, hquiet⟩ := tick_keeps h.wired hcall
    refine h.still hwired rfl hchannel fun trace joined tier hactive => ?_
    exact (hactive.quiet hquiet).congr hchannel hautoMode rfl
  | pubsub now channel event =>
    obtain ⟨rfl, hcall⟩ := Mixer.map_eq_ok hok
    obtain ⟨hwired, hchannel, hautoMode, hquiet⟩ := pubsub_keeps h.wired hcall
    refine h.still hwired rfl hchannel fun trace joined tier hactive => ?_
    exact (hactive.quiet hquiet).congr hchannel hautoMode rfl
  | join hint endpoint peer cfg =>
    obtain ⟨rfl, hcall⟩ := Mixer.map_eq_ok hok
    cases cfg with
    | none =>
      cases hcall
      exact h.still h.wired rfl rfl fun _ _ _ hactive => hactive
    | some cfg =>
      simp only [RoomAudioMixer.onJoin] at hcall
      cases hmode : cfg.mode with
      | auto =>
        obtain ⟨tier, hof, hothers⟩ := htier hmode
        simp only [hmode, hof] at hcall
        exact h.joinAuto hmode hproper.1 hof hothers hcall
      | manual =>
        simp only [hmode] at hcall
        split at hcall
        · cases hcall
        · cases hcall
          refine h.still ?_ ?_ rfl fun trace joined tier hactive => hactive.congr rfl rfl rfl
          · refine ⟨h.wired.publisher, h.wired.publisherSilent, h.wired.subscribers,
              h.wired.channel, fun index m hget => ?_⟩
            change (s.manuals.addTask hint _).get index = some m at hget
            rw [TaskGroup.get_addTask] at hget
            split at hget
            · cases hget
              exact ⟨rfl, rfl, rfl⟩
            · exact h.wired.manuals index m hget
          · -- it was not joined in auto mode before either
            obtain ⟨tier, hactive⟩ := h.active
            have hnot : autoJoined history endpoint = false := by
              rw [hactive.joined, Bool.eq_false_iff]
              intro hin
              have hsome := (hactive.autoMode endpoint tier.outputs).mpr ⟨rfl, hin⟩
              have hfresh := hproper.1
              simp [IndexMap.contains, hsome] at hfresh
            funext e
            by_cases he : e = endpoint
            · subst he
              simp [hmode, hnot]
            · simp [he]
  | control now endpoint control =>
    obtain ⟨rfl, hcall⟩ := Mixer.map_eq_ok hok
    simp only [RoomAudioMixer.onControl] at hcall
    split at hcall
    · cases hcall
    · obtain ⟨hwired, manuals, rfl⟩ := h.wired.toManual hproper hcall
      exact h.still hwired rfl rfl fun _ _ _ hactive => hactive.congr rfl rfl rfl
  | leave now endpoint =>
    obtain ⟨rfl, hcall⟩ := Mixer.map_eq_ok hok
    simp only [RoomAudioMixer.onLeave] at hcall
    obtain ⟨tier, hactive⟩ := h.active
    split at hcall
    · rename_i n hget
      have hn := ((hactive.autoMode endpoint n).mp hget).1
      have hof := Tier.ofOutputs_eq_some.mpr hn
      rw [hof] at hcall
      exact h.leaveAuto hget hof hcall
    · rename_i hget
      have hnot : autoStep (autoJoined history)
          (.leave now endpoint : MixerInput Endpoint Feedback) = autoJoined history := by
        have hnone : autoJoined history endpoint = false := by
          rw [hactive.joined, Bool.eq_false_iff]
          intro hin
          have hsome := (hactive.autoMode endpoint tier.outputs).mpr ⟨rfl, hin⟩
          rw [hget] at hsome
          cases hsome
        funext e
        by_cases he : e = endpoint
        · subst he
          simp [hnone]
        · simp [he]
      split at hcall
      · have hwired' : Wired { s with manualMode := s.manualMode.swapRemove endpoint } :=
          ⟨h.wired.publisher, h.wired.publisherSilent, h.wired.subscribers, h.wired.channel,
            h.wired.manuals⟩
        have hattach : ¬ ManualMixer.Attaches hasher s.room s.mixChannelId .leaveRoom :=
          fun hattach => hattach
        obtain ⟨hwired, manuals, rfl⟩ := hwired'.toManual hattach hcall
        exact h.still hwired hnot rfl fun _ _ _ hactive => hactive.congr rfl rfl rfl
      · cases hcall
        exact h.still h.wired hnot rfl fun _ _ _ hactive => hactive
  | trackPublish endpoint track peer name =>
    obtain ⟨rfl, hcall⟩ := Mixer.map_eq_ok hok
    obtain ⟨p, hp, hcall⟩ := Except.bind_eq_ok.mp hcall
    cases hcall
    obtain ⟨hsound, hextends⟩ := AudioMixerPublisher.onTrackPublish_extends hp h.wired.publisher
    exact h.still (h.wired.withPublisher hsound hextends) rfl rfl
      fun _ _ _ hactive => hactive.congr rfl rfl rfl
  | trackData now endpoint track media =>
    obtain ⟨rfl, hcall⟩ := Mixer.map_eq_ok hok
    obtain ⟨p, hp, hcall⟩ := Except.bind_eq_ok.mp hcall
    cases hcall
    obtain ⟨hsound, hextends, -⟩ := AudioMixerPublisher.onTrackData_extends hp h.wired.publisher
    exact h.still (h.wired.withPublisher hsound hextends) rfl rfl
      fun _ _ _ hactive => hactive.congr rfl rfl rfl
  | trackUnpublish endpoint track =>
    obtain ⟨rfl, hcall⟩ := Mixer.map_eq_ok hok
    obtain ⟨p, hp, hcall⟩ := Except.bind_eq_ok.mp hcall
    cases hcall
    obtain ⟨hsound, hextends⟩ := AudioMixerPublisher.onTrackUnpublish_extends hp h.wired.publisher
    exact h.still (h.wired.withPublisher hsound hextends) rfl rfl
      fun _ _ _ hactive => hactive.congr rfl rfl rfl
  | turn branch =>
    cases branch with
    | publisher =>
      cases hok
      have hsplit := subCommands_head_tail s.mixChannelId s.publisher.queue
      rw [h.wired.publisherSilent, List.append_eq_nil_iff] at hsplit
      refine h.silentTurn ⟨?_, hsplit.2, h.wired.subscribers, h.wired.channel, h.wired.manuals⟩
        hsplit.1 rfl rfl rfl
      exact h.wired.publisher.withTracks s.publisher.tracks s.publisher.queue.tail
    | subscriber tier =>
      cases hok
      exact h.turnSubscriber tier
    | manual index => exact h.turnManual hok

/-! ### Main result -/

/-- What is claimed of the mixer channel in a configuration of a run. -/
structure Follows (mixChannelId : ChannelId)
    (c : Config (MixerState Endpoint Feedback) (MixerInput Endpoint Feedback)
      (Output Endpoint Feedback)) : Prop where
  alternates : StrictlyAlternates (subCommands mixChannelId (emitted c.history))
  subscribed : (∀ tier, (c.state.mixer.subscribers tier).queue = []) →
    (Outstanding (subCommands mixChannelId (emitted c.history)) ↔
      ∃ endpoint, autoJoined c.history endpoint = true)

theorem Inv.follows {c : Config (MixerState Endpoint Feedback) (MixerInput Endpoint Feedback)
      (Output Endpoint Feedback)} (h : Inv c.history c.state.mixer) :
    Follows c.state.mixer.mixChannelId c := by
  obtain ⟨tier, hactive⟩ := h.active
  constructor
  · exact ((alternatesFrom_append _ _ _).mp hactive.lease.alternates).1
  · intro hdrained
    have hlease := hactive.lease
    rw [hdrained tier] at hlease
    rw [← List.append_nil (subCommands _ (emitted c.history))]
    refine hlease.outstanding.trans ?_
    constructor
    · intro hsome
      by_contra hnone
      rw [not_exists] at hnone
      refine absurd hsome ?_
      rw [Bool.not_eq_false, IndexMap.isEmpty_iff]
      intro endpoint
      have hnot := hnone endpoint
      rw [hactive.joined, IndexMap.contains, Bool.not_eq_true, Option.isSome_eq_false_iff] at hnot
      exact Option.isNone_iff_eq_none.mp hnot
    · rintro ⟨endpoint, hjoined⟩
      rw [hactive.joined] at hjoined
      rw [Bool.eq_false_iff]
      intro hempty
      rw [IndexMap.contains, IndexMap.isEmpty_iff.mp hempty] at hjoined
      cases hjoined

/-- **Mixer channel.** In every proper run in which only the subscriber of one number of
    outputs is in use at a time, the commands for the mixer channel alternate, starting with
    `SubAuto`, and whenever the subscribers are drained the channel is subscribed exactly if
    some endpoint is joined in auto mode. -/
theorem auto_subscription_trace (hasher : Hasher) (codecs : MixerCodecs) (room : ClusterRoomHash)
    (mixChannelId : ChannelId) (start : Instant)
    {acts : List (Action (MixerInput Endpoint Feedback))}
    (hproper : (Mixer.machine hasher codecs room mixChannelId start).Admits (Proper hasher) acts)
    (htier : (Mixer.machine hasher codecs room mixChannelId start).Admits OneTier acts)
    {c : Config (MixerState Endpoint Feedback) (MixerInput Endpoint Feedback)
      (Output Endpoint Feedback)}
    (hrun : (Mixer.machine hasher codecs room mixChannelId start).run acts = .ok c) :
    Follows mixChannelId c := by
  have hinv : Inv c.history c.state.mixer ∧ c.state.mixer.mixChannelId = mixChannelId := by
    refine run_invariant (M := Mixer.machine hasher codecs room mixChannelId start) _
      (fun history s => Inv history s.mixer ∧ s.mixer.mixChannelId = mixChannelId) ?_ ?_ ?_
      (hproper.and htier) hrun
    · exact ⟨⟨wired_new room mixChannelId start, .one, active_new room mixChannelId start⟩, rfl⟩
    · rintro history s i s' ⟨hinv, hchannel⟩ ⟨hok, hok'⟩ hstep
      obtain ⟨outputs, hhandle, hout⟩ := Mixer.step_eq_ok hstep
      rw [Mixer.pushed_eq hout]
      exact ⟨hinv.step hok hok' hhandle, (Mixer.handle_fixed hhandle).2.trans hchannel⟩
    · exact fun history s h => h
  have hfollows := hinv.1.follows
  rwa [hinv.2] at hfollows

/-- An endpoint mixes into one track and leaves; then another one mixes into two. -/
def oneThenTwo : List (Action (MixerInput Nat PlainFeedback)) :=
  [.input (.join 0 1 "alice" (some ⟨.auto, [10], []⟩)), .input (.turn (.subscriber .one)),
    .input (.leave 0 1), .input (.turn (.subscriber .one)),
    .input (.join 0 2 "bob" (some ⟨.auto, [20, 21], []⟩)), .input (.turn (.subscriber .two))]

theorem auto_subscription_trace_oneThenTwo :
    ∃ c, (Mixer.machine fnv1a .blank 0 7 0).run oneThenTwo = .ok c ∧ Follows 7 c := by
  have hproper : (Mixer.machine fnv1a .blank 0 7 0).Admits (Proper fnv1a) oneThenTwo :=
    AdmitsFrom.admits (by decide)
  have htier : (Mixer.machine fnv1a .blank 0 7 0).Admits OneTier oneThenTwo :=
    AdmitsFrom.admits (by decide)
  exact ⟨_, rfl, auto_subscription_trace fnv1a .blank 0 7 0 hproper htier rfl⟩

/-- An endpoint with one output and an endpoint with two: both subscribers ask for the
    channel, and when the first endpoint leaves, the channel is given up although the second
    still mixes automatically. -/
theorem two_output_counts_share_channel :
    ∃ (acts : List (Action (MixerInput Nat PlainFeedback))) (c : Config _ _ _),
      acts = [.input (.join 0 1 "alice" (some ⟨.auto, [10], []⟩)),
        .input (.turn (.subscriber .one)),
        .input (.join 0 2 "bob" (some ⟨.auto, [20, 21], []⟩)),
        .input (.turn (.subscriber .two)), .input (.leave 0 1),
        .input (.turn (.subscriber .one))] ∧
      (Mixer.machine fnv1a .blank 0 7 0).Admits (Proper fnv1a) acts ∧
      (Mixer.machine fnv1a .blank 0 7 0).run acts = .ok c ∧
      ¬ StrictlyAlternates (subCommands 7 (emitted c.history)) ∧
      (∀ tier, (c.state.mixer.subscribers tier).queue = []) ∧
      ¬ Outstanding (subCommands 7 (emitted c.history)) ∧ autoJoined c.history 2 = true := by
  refine ⟨_, _, rfl, AdmitsFrom.admits (by decide), rfl, ?_, ?_, ?_, ?_⟩
  · decide
  · decide
  · decide
  · decide

end AutoMode

end MediaServer.RoomMixer
