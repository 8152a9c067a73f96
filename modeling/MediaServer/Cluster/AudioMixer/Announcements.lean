import MediaServer.Lib.Custody
import MediaServer.Lib.Format
import MediaServer.Cluster.AudioMixer.Mixer

/-!
# Who is speaking, across nodes

Publishers of many nodes put packets on the mixer channel; one subscriber receives
them, those of a node in order.  A packet names its upstream slot and only sometimes
its speaker, and the subscriber tells its endpoints who is on an output slot when it
first learns it.

The publisher may give an upstream slot to another speaker while the subscriber still
holds an output for that slot.  As long as this does not happen, the last `SlotSet` of
an output names the speaker of every packet that is forwarded on it, once one of the
speaker's packets told who it is.
-/

namespace MediaServer.RoomMixer

open Collections Slots Machine Pubsub Custody

namespace Announcements

abbrev Speaker := PeerId × TrackName

variable {Endpoint Feedback : Type}

/-! ### Publishers, the wire and one subscriber -/

inductive PublisherInput (Endpoint : Type) where
  | tick (now : Instant)
  | publish (endpoint : Endpoint) (track : RemoteTrackId) (peer : PeerId) (name : TrackName)
  | data (now : Instant) (endpoint : Endpoint) (track : RemoteTrackId) (media : MediaPacket)
  | unpublish (endpoint : Endpoint) (track : RemoteTrackId)

/-- A packet on its way, with its speaker; the subscriber sees only the data. -/
structure Flight where
  speaker : Speaker
  data : Bytes

/-- A packet that reached the mixer of the subscriber: its upstream slot, its speaker, whether
    it told who that is, and where the mixer sent it. -/
structure Delivery where
  source : NodeId × UInt8
  speaker : Speaker
  tells : Bool
  routed : Option (Nat × Bool)

structure Net (Endpoint Feedback : Type) where
  nodes : NodeId → AudioMixerPublisher Endpoint Feedback
  wire : NodeId → List Flight
  subscriber : AudioMixerSubscriber Endpoint Feedback
  log : List Delivery

inductive NetInput (Endpoint : Type) where
  | publisher (node : NodeId) (input : PublisherInput Endpoint)
  | deliver (now : Instant) (node : NodeId)
  | tick (now : Instant)
  | join (endpoint : Endpoint) (peer : PeerId) (tracks : List LocalTrackId)
  | leave (endpoint : Endpoint)

/-- Where the mixer of the subscriber sends a packet. -/
def routeOf (s : AudioMixerSubscriber Endpoint Feedback) (now : Instant) (node : NodeId)
    (audio : AudioMixerPkt) : Option (Nat × Bool) :=
  match s.mixer.onPkt now (node, audio.slot) audio.audioLevel with
  | .ok (_, routed) => routed
  | .error _ => none

/-- What is recorded of a packet; a subscriber without endpoints does not look at it. -/
def deliveryOf (codec : Bincode AudioMixerPkt) (s : AudioMixerSubscriber Endpoint Feedback)
    (now : Instant) (node : NodeId) (flight : Flight) : List Delivery :=
  if s.endpoints.isEmpty then []
  else
    match codec.deserialize flight.data with
    | none => []
    | some audio =>
        [⟨(node, audio.slot), flight.speaker, audio.source.isSome, routeOf s now node audio⟩]

variable [DecidableEq Endpoint]

def publisherStep (hasher : Hasher) (codec : Bincode AudioMixerPkt)
    (p : AudioMixerPublisher Endpoint Feedback) :
    PublisherInput Endpoint → Except Panic (AudioMixerPublisher Endpoint Feedback)
  | .tick now => p.onTick now
  | .publish endpoint track peer name => p.onTrackPublish hasher endpoint track peer name
  | .data now endpoint track media => p.onTrackData codec now endpoint track media
  | .unpublish endpoint track => p.onTrackUnpublish endpoint track

/-- Who speaks when an input is processed. -/
def speakerOf (p : AudioMixerPublisher Endpoint Feedback) : PublisherInput Endpoint → Option Speaker
  | .data _ endpoint track _ => (p.tracks.get (endpoint, track)).map fun info => (info.peer, info.name)
  | _ => none

/-- The packets among the outputs of a publisher. -/
def flights (speaker : Option Speaker) (outputs : List (Output Endpoint Feedback)) : List Flight :=
  outputs.filterMap fun out =>
    match out with
    | .pubsub ⟨_, .pubData data⟩ => speaker.map fun speaker => ⟨speaker, data⟩
    | _ => none

def step (hasher : Hasher) (codec : Bincode AudioMixerPkt) (s : Net Endpoint Feedback) :
    NetInput Endpoint → Except Panic (Net Endpoint Feedback)
  | .publisher node input => do
      let p ← publisherStep hasher codec (s.nodes node) input
      let sent := flights (speakerOf (s.nodes node) input) p.queue
      .ok { s with
        nodes := Function.update s.nodes node { p with queue := [] }
        wire := Function.update s.wire node (s.wire node ++ sent) }
  | .deliver now node =>
      match s.wire node with
      | [] => .ok s
      | flight :: rest => do
          let subscriber ← s.subscriber.onChannelData codec now node flight.data
          .ok { s with
            subscriber
            wire := Function.update s.wire node rest
            log := s.log ++ deliveryOf codec s.subscriber now node flight }
  | .tick now => do
      let subscriber ← s.subscriber.onTick now
      .ok { s with subscriber }
  | .join endpoint peer tracks => do
      let subscriber ← s.subscriber.onEndpointJoin hasher endpoint peer tracks
      .ok { s with subscriber }
  | .leave endpoint => do
      let subscriber ← s.subscriber.onEndpointLeave endpoint
      .ok { s with subscriber }

/-! ### What is known, by the record -/

/-- The speakers that told who they are on an output, since its source took it. -/
def toldStep (slot : Nat) (told : List Speaker) (d : Delivery) : List Speaker :=
  match d.routed with
  | none => told
  | some (k, justSet) =>
      if k = slot then
        (if justSet then [] else told) ++ (if d.tells then [d.speaker] else [])
      else told

def toldOn (slot : Nat) (log : List Delivery) : List Speaker := log.foldl (toldStep slot) []

/-- The speaker that an output names to an endpoint. -/
def slotSetOf (endpoint : Endpoint) (slot : Nat) : Output Endpoint Feedback → Option Speaker
  | .endpoint endpoints (.audioMixer (.slotSet k peer track)) =>
      if endpoint ∈ endpoints ∧ k = slot.toUInt8 then some (peer, track) else none
  | _ => none

/-- The last `SlotSet` of an output that was sent to an endpoint. -/
def lastSlotSet (endpoint : Endpoint) (slot : Nat) (outputs : List (Output Endpoint Feedback)) :
    Option Speaker :=
  lastGrip (slotSetOf endpoint slot) outputs

/-! ### What is asked of a run -/

/-- What the owner of the subscriber sees to: the endpoints have a track for every output. -/
def Proper (tier : Tier) : Contract (Net Endpoint Feedback) (NetInput Endpoint)
    (Output Endpoint Feedback)
  | _, _, .join _ _ tracks => tracks.length = tier.outputs
  | _, _, _ => True

/-- While the subscriber's mixer holds an output for an upstream slot, the packets of that slot
    that tell their speaker are of one speaker. -/
def OneSpeaker (codec : Bincode AudioMixerPkt) : Contract (Net Endpoint Feedback)
    (NetInput Endpoint) (Output Endpoint Feedback)
  | _, s, .deliver _ node => ∀ flight ∈ (s.wire node).head?, s.subscriber.endpoints.isEmpty = false →
      ∀ audio ∈ codec.deserialize flight.data, audio.source.isSome →
        ∀ slot ∈ s.subscriber.mixer.slotOf (node, audio.slot),
          ∀ who ∈ toldOn slot s.log, who = flight.speaker
  | _, _, _ => True

/-! ### The machine -/

omit [DecidableEq Endpoint] in
theorem onTick_queue {s s' : AudioMixerSubscriber Endpoint Feedback} {now : Instant}
    (h : s.onTick now = .ok s') : s.queue <+: s'.queue := by
  obtain ⟨⟨mixer, removed⟩, -, h⟩ := Except.bind_eq_ok.mp h
  obtain ⟨outputs, -, h⟩ := Except.bind_eq_ok.mp h
  cases h
  exact List.prefix_append _ _

omit [DecidableEq Endpoint] in
theorem onChannelData_queue {codec : Bincode AudioMixerPkt}
    {s s' : AudioMixerSubscriber Endpoint Feedback} {now : Instant} {source : NodeId} {pkt : Bytes}
    (h : s.onChannelData codec now source pkt = .ok s') : s.queue <+: s'.queue := by
  unfold AudioMixerSubscriber.onChannelData at h
  split at h
  · cases h
    exact List.prefix_rfl
  · split at h
    · cases h
      exact List.prefix_rfl
    · obtain ⟨⟨mixer, routed⟩, -, h⟩ := Except.bind_eq_ok.mp h
      cases routed with
      | none =>
        cases h
        exact List.prefix_rfl
      | some target =>
        obtain ⟨outputs, -, h⟩ := Except.bind_eq_ok.mp h
        obtain ⟨announced, -, h⟩ := Except.bind_eq_ok.mp h
        obtain ⟨forwarded, -, h⟩ := Except.bind_eq_ok.mp h
        cases h
        exact List.prefix_append _ _

theorem onEndpointJoin_queue {hasher : Hasher} {s s' : AudioMixerSubscriber Endpoint Feedback}
    {endpoint : Endpoint} {peer : PeerId} {tracks : List LocalTrackId}
    (h : s.onEndpointJoin hasher endpoint peer tracks = .ok s') : s.queue <+: s'.queue := by
  unfold AudioMixerSubscriber.onEndpointJoin at h
  split at h
  · cases h
  · cases h
    exact List.prefix_append _ _

theorem onEndpointLeave_queue {s s' : AudioMixerSubscriber Endpoint Feedback}
    {endpoint : Endpoint} (h : s.onEndpointLeave endpoint = .ok s') : s.queue <+: s'.queue := by
  unfold AudioMixerSubscriber.onEndpointLeave at h
  split at h
  · cases h
    exact List.prefix_append _ _
  · cases h

abbrev Network (Endpoint Feedback : Type) :=
  Machine (Net Endpoint Feedback) (NetInput Endpoint) (Output Endpoint Feedback)

/-- The outputs of the machine are those of the subscriber. -/
def machine (hasher : Hasher) (codec : Bincode AudioMixerPkt) (tier : Tier)
    (channelId : ChannelId) : Network Endpoint Feedback where
  init := ⟨fun _ => AudioMixerPublisher.new channelId, fun _ => [],
    AudioMixerSubscriber.new tier.outputs channelId, []⟩
  step := step hasher codec
  queue s := s.subscriber.queue
  dropFront s := { s with subscriber := { s.subscriber with queue := s.subscriber.queue.tail } }
  queue_init := rfl
  queue_dropFront _ := rfl
  step_appends s i s' h := by
    cases i with
    | publisher node input =>
      obtain ⟨p, -, h⟩ := Except.bind_eq_ok.mp h
      cases h
      exact List.prefix_rfl
    | deliver now node =>
      simp only [step] at h
      split at h
      · cases h
        exact List.prefix_rfl
      · obtain ⟨subscriber, hsub, h⟩ := Except.bind_eq_ok.mp h
        cases h
        exact onChannelData_queue hsub
    | tick now =>
      obtain ⟨subscriber, hsub, h⟩ := Except.bind_eq_ok.mp h
      cases h
      exact onTick_queue hsub
    | join endpoint peer tracks =>
      obtain ⟨subscriber, hsub, h⟩ := Except.bind_eq_ok.mp h
      cases h
      exact onEndpointJoin_queue hsub
    | leave endpoint =>
      obtain ⟨subscriber, hsub, h⟩ := Except.bind_eq_ok.mp h
      cases h
      exact onEndpointLeave_queue hsub

/-! ### Slot events in the outputs -/

theorem slotSetOf_slotSetTo (endpoint other : Endpoint) (slot k : Nat) (who : Speaker) :
    slotSetOf endpoint slot (slotSetTo other k who : Output Endpoint Feedback) =
      if endpoint = other ∧ k.toUInt8 = slot.toUInt8 then some who else none := by
  simp [slotSetOf, slotSetTo]

/-- The outputs of a subscriber are few enough for one byte. -/
theorem toUInt8_inj {slot k : Nat} (hslot : slot < 256) (hk : k < 256)
    (h : k.toUInt8 = slot.toUInt8) : k = slot := by
  have hnat := congrArg UInt8.toNat h
  simp only [Nat.toUInt8_eq, UInt8.toNat_ofNat'] at hnat
  omega

theorem mem_knownSources {outputs : List (Option OutputSource)} {slot : Nat} {who : Speaker} :
    (slot, who) ∈ AudioMixerSubscriber.knownSources outputs ↔
      slotAt outputs slot = some ⟨some who⟩ := by
  rw [AudioMixerSubscriber.knownSources, List.mem_filterMap, slotAt_eq_some]
  constructor
  · rintro ⟨⟨state, k⟩, hmem, hsome⟩
    obtain ⟨source, hsource, heq⟩ := Option.map_eq_some_iff.mp hsome
    cases heq
    obtain ⟨out, rfl, hout⟩ := Option.bind_eq_some_iff.mp hsource
    rw [List.mem_zipIdx_iff_getElem?.mp hmem]
    cases out
    cases hout
    rfl
  · intro hat
    exact ⟨(some ⟨some who⟩, slot), List.mem_zipIdx_iff_getElem?.mpr hat, rfl⟩

/-- An endpoint that joins is told the speakers that are known. -/
theorem lastSlotSet_restored {outputs : List (Option OutputSource)} {slot : Nat} {who : Speaker}
    (hlength : outputs.length ≤ 256) (hat : slotAt outputs slot = some ⟨some who⟩)
    (endpoint : Endpoint) :
    lastSlotSet endpoint slot
      ((AudioMixerSubscriber.knownSources outputs).map
        fun (slot, source) => (slotSetTo endpoint slot source : Output Endpoint Feedback)) =
      some who := by
  have hlt := lt_length_of_slotAt hat
  apply lastGrip_eq_some_of_forall
  · exact List.mem_map.mpr ⟨(slot, who), mem_knownSources.mpr hat, rfl⟩
  · rw [slotSetOf_slotSetTo, if_pos ⟨rfl, rfl⟩]
  · intro out hmem
    obtain ⟨⟨k, other⟩, hknown, rfl⟩ := List.mem_map.mp hmem
    have hother := mem_knownSources.mp hknown
    rw [slotSetOf_slotSetTo]
    split
    · rename_i hsame
      have hk := lt_length_of_slotAt hother
      have heq : k = slot := toUInt8_inj (by omega) (by omega) hsame.2
      rw [heq, hat] at hother
      cases hother
      exact Or.inr rfl
    · exact Or.inl rfl

/-- All endpoints are told of a speaker. -/
theorem lastSlotSet_told {endpoints : List Endpoint} {endpoint : Endpoint}
    (hmem : endpoint ∈ endpoints) (slot : Nat) (who : Speaker) :
    lastSlotSet endpoint slot
      (endpoints.map fun other => (slotSetTo other slot who : Output Endpoint Feedback)) =
      some who := by
  apply lastGrip_eq_some_of_forall
  · exact List.mem_map.mpr ⟨endpoint, hmem, rfl⟩
  · rw [slotSetOf_slotSetTo, if_pos ⟨rfl, rfl⟩]
  · intro out hout
    obtain ⟨other, -, rfl⟩ := List.mem_map.mp hout
    rw [slotSetOf_slotSetTo]
    split
    · exact Or.inr rfl
    · exact Or.inl rfl

theorem lastSlotSet_told_other {slot k : Nat} (hslot : slot < 256) (hk : k < 256) (hne : k ≠ slot)
    (endpoints : List Endpoint) (endpoint : Endpoint) (who : Speaker) :
    lastSlotSet endpoint k
      (endpoints.map fun other => (slotSetTo other slot who : Output Endpoint Feedback)) =
      none := by
  apply lastGrip_eq_none_of_forall
  intro out hout
  obtain ⟨other, -, rfl⟩ := List.mem_map.mp hout
  rw [slotSetOf_slotSetTo, if_neg]
  rintro ⟨-, hsame⟩
  exact hne (toUInt8_inj hslot hk hsame.symm)

theorem lastSlotSet_append (endpoint : Endpoint) (slot : Nat)
    (outputs more : List (Output Endpoint Feedback)) :
    lastSlotSet endpoint slot (outputs ++ more) =
      (lastSlotSet endpoint slot more).or (lastSlotSet endpoint slot outputs) :=
  lastGrip_append _ _ _

/-- What is sent to the tracks of the endpoints names no speaker. -/
theorem lastSlotSet_forward {audio : AudioMixerPkt} {slot : Nat} {justSet : Bool}
    {entries : List (Endpoint × EndpointSlot)} {outputs : List (Output Endpoint Feedback)}
    (h : AudioMixerSubscriber.forward audio slot justSet entries = .ok outputs)
    (endpoint : Endpoint) (k : Nat) : lastSlotSet endpoint k outputs = none := by
  apply lastGrip_eq_none_of_forall
  intro out hmem
  obtain ⟨entry, -, trackId, event, -, rfl⟩ := AudioMixerSubscriber.forward_mem h hmem
  rfl

/-! ### The invariant -/

/-- The speaker that the subscriber knows on an output. -/
def knownAt (s : AudioMixerSubscriber Endpoint Feedback) (slot : Nat) : Option Speaker :=
  (slotAt s.outputs slot).bind OutputSource.source

/-- What a packet tells is its speaker. -/
def Truthful (codec : Bincode AudioMixerPkt) (flight : Flight) : Prop :=
  ∀ audio, codec.deserialize flight.data = some audio →
    ∀ who, audio.source = some who → who = flight.speaker

/-- Endpoints were last told of the speaker that the subscriber knows. -/
def Announced (outputs : List (Output Endpoint Feedback))
    (s : AudioMixerSubscriber Endpoint Feedback) : Prop :=
  ∀ endpoint slot who, s.endpoints.contains endpoint = true → knownAt s slot = some who →
    lastSlotSet endpoint slot outputs = some who

/-- Whoever told who it is on an output that is in use is known there, and nobody else. -/
def Told (log : List Delivery) (s : AudioMixerSubscriber Endpoint Feedback) : Prop :=
  ∀ slot, (slotAt s.mixer.outputs slot).isSome → ∀ who, who ∈ toldOn slot log ↔
    knownAt s slot = some who

structure Inv (codec : Bincode AudioMixerPkt) (n : Nat) (outputs : List (Output Endpoint Feedback))
    (s : Net Endpoint Feedback) : Prop where
  sound : s.subscriber.Sound n
  publishers : ∀ node, (s.nodes node).Sound ∧ (s.nodes node).queue = []
  truthful : ∀ node, ∀ flight ∈ s.wire node, Truthful codec flight
  announced : Announced outputs s.subscriber
  told : Told s.log s.subscriber

theorem inv_init (codec : Bincode AudioMixerPkt) (tier : Tier) (channelId : ChannelId) :
    Inv codec tier.outputs [] (⟨fun _ => AudioMixerPublisher.new channelId, fun _ => [],
      AudioMixerSubscriber.new tier.outputs channelId, []⟩ : Net Endpoint Feedback) where
  sound := AudioMixerSubscriber.sound_new tier.outputs channelId
  publishers _ := ⟨AudioMixerPublisher.sound_new channelId, rfl⟩
  truthful node flight hmem := by cases hmem
  announced endpoint slot who hcontains := by
    simp [AudioMixerSubscriber.new, IndexMap.contains] at hcontains
  told slot hsome := by
    simp [AudioMixerSubscriber.new, AudioMixer.new] at hsome

variable {codec : Bincode AudioMixerPkt} {n : Nat} {outputs : List (Output Endpoint Feedback)}
  {s s' : Net Endpoint Feedback}

/-- What a publisher puts on the wire names its speaker. -/
theorem publisherStep_truthful {hasher : Hasher} {p p' : AudioMixerPublisher Endpoint Feedback}
    {input : PublisherInput Endpoint}
    (hcodec : ∀ pkt, codec.deserialize (codec.serialize pkt) = some pkt) (hsound : p.Sound)
    (hqueue : p.queue = []) (h : publisherStep hasher codec p input = .ok p') :
    p'.Sound ∧ ∀ flight ∈ flights (speakerOf p input) p'.queue, Truthful codec flight := by
  cases input with
  | tick now =>
    obtain ⟨mixer, slots, hok, hsound'⟩ := hsound.onTick now
    have heq : p' = { p with mixer, slots } := Except.ok.inj (h.symm.trans hok)
    rw [heq]
    refine ⟨hsound', ?_⟩
    simp [hqueue, flights]
  | publish endpoint track peer name =>
    obtain ⟨hsound', -⟩ := AudioMixerPublisher.onTrackPublish_extends h hsound
    refine ⟨hsound', fun flight hmem => ?_⟩
    obtain ⟨out, -, hout⟩ := List.mem_filterMap.mp hmem
    simp only [speakerOf, Option.map_none] at hout
    split at hout <;> cases hout
  | data now endpoint track media =>
    obtain ⟨info, hinfo⟩ := AudioMixerPublisher.onTrackData_known h
    obtain ⟨mixer, slots, sent, hok, hsound', hsent⟩ := hsound.onTrackData hinfo codec now media
    have heq : p' = { p with mixer, slots, queue := p.queue ++ sent } :=
      Except.ok.inj (h.symm.trans hok)
    rw [heq]
    refine ⟨hsound', ?_⟩
    rcases hsent with rfl | ⟨level, slot, fired, rfl⟩
    · simp [hqueue, flights]
    · intro flight hmem
      rw [hqueue] at hmem
      simp only [List.nil_append, flights, List.filterMap_cons, List.filterMap_nil, speakerOf,
        hinfo, Option.map_some, List.mem_singleton] at hmem
      rw [hmem]
      intro audio haudio who hwho
      rw [hcodec] at haudio
      cases haudio
      simp only [AudioMixerPublisher.mixerPkt, Option.ite_none_right_eq_some] at hwho
      exact (Option.some.inj hwho.2).symm
  | unpublish endpoint track =>
    obtain ⟨hsound', -⟩ := AudioMixerPublisher.onTrackUnpublish_extends h hsound
    refine ⟨hsound', fun flight hmem => ?_⟩
    obtain ⟨out, -, hout⟩ := List.mem_filterMap.mp hmem
    simp only [speakerOf, Option.map_none] at hout
    split at hout <;> cases hout

theorem Inv.publisher {hasher : Hasher} {node : NodeId} {input : PublisherInput Endpoint}
    (hcodec : ∀ pkt, codec.deserialize (codec.serialize pkt) = some pkt)
    (h : Inv codec n outputs s) (hok : step hasher codec s (.publisher node input) = .ok s') :
    Inv codec n outputs s' := by
  obtain ⟨p, hp, hs'⟩ := Except.bind_eq_ok.mp hok
  cases hs'
  obtain ⟨hpub, hqueue⟩ := h.publishers node
  obtain ⟨hsound, htrue⟩ := publisherStep_truthful hcodec hpub hqueue hp
  refine ⟨h.sound, fun other => ?_, fun other flight hmem => ?_, h.announced, h.told⟩
  · by_cases hother : other = node
    · subst hother
      simp only [Function.update_self]
      exact ⟨hsound.withTracks p.tracks [], trivial⟩
    · simp only [Function.update_of_ne hother]
      exact h.publishers other
  · by_cases hother : other = node
    · subst hother
      simp only [Function.update_self] at hmem
      rcases List.mem_append.mp hmem with hold | hnew
      · exact h.truthful other flight hold
      · exact htrue flight hnew
    · simp only [Function.update_of_ne hother] at hmem
      exact h.truthful other flight hmem

theorem Announced.append {sub : AudioMixerSubscriber Endpoint Feedback}
    (h : Announced outputs sub) {new : List (Output Endpoint Feedback)}
    (hnew : ∀ endpoint slot, lastSlotSet endpoint slot new = none) :
    Announced (outputs ++ new) sub := by
  intro endpoint slot who hcontains hknown
  rw [lastSlotSet_append, hnew, Option.none_or]
  exact h endpoint slot who hcontains hknown

theorem Inv.tick {hasher : Hasher} {now : Instant} (h : Inv codec n outputs s)
    (hok : step hasher codec s (.tick now) = .ok s') :
    ∃ new, s'.subscriber.queue = s.subscriber.queue ++ new ∧ Inv codec n (outputs ++ new) s' := by
  obtain ⟨sub, hsub, hs'⟩ := Except.bind_eq_ok.mp hok
  obtain ⟨mixer, slots, cleared, htick, hsound, hslots, hmixer, -, -⟩ := h.sound.onTick now
  rw [hsub] at htick
  cases htick
  cases hs'
  -- a speaker that is still known was known before, and its output is still in use
  have hkept : ∀ slot, slot ∉ cleared → slotAt slots slot = slotAt s.subscriber.outputs slot := by
    intro slot hnot
    rw [hslots, if_neg hnot]
  have hsilent : ∀ endpoint slot, lastSlotSet endpoint slot (cleared.flatMap fun slot =>
      s.subscriber.endpoints.keys.map fun endpoint =>
        (slotUnsetTo endpoint slot : Output Endpoint Feedback)) = none := by
    intro endpoint slot
    apply lastGrip_eq_none_of_forall
    intro out hmem
    obtain ⟨k, -, hmem⟩ := List.mem_flatMap.mp hmem
    obtain ⟨other, -, rfl⟩ := List.mem_map.mp hmem
    rfl
  refine ⟨_, rfl, hsound _, h.publishers, h.truthful, Announced.append ?_ hsilent, ?_⟩
  · intro endpoint slot who hcontains hknown
    by_cases hmem : slot ∈ cleared
    · simp [knownAt, hslots, hmem] at hknown
    · refine h.announced endpoint slot who hcontains ?_
      rwa [knownAt, hkept slot hmem] at hknown
  · intro slot hsome who
    by_cases hmem : slot ∈ cleared
    · simp [hmixer, hmem] at hsome
    · have hheld : (slotAt s.subscriber.mixer.outputs slot).isSome := by
        rwa [hmixer, if_neg hmem] at hsome
      rw [h.told slot hheld who, knownAt, knownAt, hkept slot hmem]

theorem Inv.join {hasher : Hasher} {endpoint : Endpoint} {peer : PeerId}
    {tracks : List LocalTrackId} (h : Inv codec n outputs s) (hn : n ≤ 256)
    (htracks : tracks.length = n)
    (hok : step hasher codec s (.join endpoint peer tracks) = .ok s') :
    ∃ new, s'.subscriber.queue = s.subscriber.queue ++ new ∧ Inv codec n (outputs ++ new) s' := by
  obtain ⟨sub, hsub, hs'⟩ := Except.bind_eq_ok.mp hok
  unfold AudioMixerSubscriber.onEndpointJoin at hsub
  split at hsub
  · cases hsub
  · cases hsub
    cases hs'
    have hlength : s.subscriber.outputs.length ≤ 256 := by
      rw [h.sound.aligned.length_eq, h.sound.outputs]
      exact hn
    refine ⟨_, rfl, h.sound.withEndpoints ?_ _, h.publishers, h.truthful, ?_, h.told⟩
    · intro other slot hget
      rw [IndexMap.get_insert] at hget
      split at hget
      · cases hget
        exact htracks
      · exact h.sound.tracks other slot hget
    · intro other slot who hcontains hknown
      have hat : slotAt s.subscriber.outputs slot = some ⟨some who⟩ := by
        obtain ⟨state, hstate, hsource⟩ := Option.bind_eq_some_iff.mp hknown
        rw [hstate, ← hsource]
      by_cases hother : other = endpoint
      · -- the endpoint that joins is told every speaker that is known
        rw [hother, lastSlotSet_append, lastSlotSet_append,
          lastSlotSet_restored hlength hat endpoint]
        rfl
      · have hold : s.subscriber.endpoints.contains other = true := by
          rwa [IndexMap.contains, IndexMap.get_insert_ne _ _ hother] at hcontains
        rw [lastSlotSet_append, h.announced other slot who hold hknown]
        have hnone : lastSlotSet other slot ((if s.subscriber.endpoints.isEmpty then
            [.pubsub ⟨s.subscriber.channelId, .subAuto⟩] else []) ++
            (AudioMixerSubscriber.knownSources s.subscriber.outputs).map
              fun (slot, source) => (slotSetTo endpoint slot source : Output Endpoint Feedback)) =
              none := by
          apply lastGrip_eq_none_of_forall
          intro out hmem
          rcases List.mem_append.mp hmem with hsub | hrestored
          · split at hsub
            · rw [List.mem_singleton.mp hsub]
              rfl
            · cases hsub
          · obtain ⟨⟨k, source⟩, -, rfl⟩ := List.mem_map.mp hrestored
            rw [slotSetOf_slotSetTo, if_neg]
            exact fun hsame => hother hsame.1
        rw [hnone, Option.none_or]

theorem Inv.leave {hasher : Hasher} {endpoint : Endpoint} (h : Inv codec n outputs s)
    (hok : step hasher codec s (.leave endpoint) = .ok s') :
    ∃ new, s'.subscriber.queue = s.subscriber.queue ++ new ∧ Inv codec n (outputs ++ new) s' := by
  obtain ⟨sub, hsub, hs'⟩ := Except.bind_eq_ok.mp hok
  unfold AudioMixerSubscriber.onEndpointLeave at hsub
  split at hsub
  · cases hsub
    cases hs'
    refine ⟨_, rfl, h.sound.withEndpoints ?_ _, h.publishers, h.truthful,
      Announced.append ?_ ?_, h.told⟩
    · intro other slot hget
      rw [IndexMap.get_swapRemove] at hget
      split at hget
      · cases hget
      · exact h.sound.tracks other slot hget
    · intro other slot who hcontains hknown
      refine h.announced other slot who ?_ hknown
      rw [IndexMap.contains, IndexMap.get_swapRemove] at hcontains
      split at hcontains
      · cases hcontains
      · exact hcontains
    · intro other slot
      apply lastGrip_eq_none_of_forall
      intro out hmem
      split at hmem
      · rw [List.mem_singleton.mp hmem]
        rfl
      · cases hmem
  · cases hsub

theorem toldOn_concat (slot : Nat) (log : List Delivery) (d : Delivery) :
    toldOn slot (log ++ [d]) = toldStep slot (toldOn slot log) d := by
  rw [toldOn, List.foldl_append]
  rfl

/-- Who has told on the output of a packet once the packet arrived. -/
theorem mem_toldOn_routed {slot : Nat} {justSet : Bool} {d : Delivery}
    (hrouted : d.routed = some (slot, justSet)) (log : List Delivery) (who : Speaker) :
    who ∈ toldOn slot (log ++ [d]) ↔
      (justSet = false ∧ who ∈ toldOn slot log) ∨ (d.tells = true ∧ who = d.speaker) := by
  rw [toldOn_concat, toldStep, hrouted]
  simp only [if_pos, List.mem_append]
  cases justSet <;> cases d.tells <;> simp

theorem toldOn_other {slot k : Nat} {justSet : Bool} {d : Delivery}
    (hrouted : d.routed = some (slot, justSet)) (hne : k ≠ slot) (log : List Delivery) :
    toldOn k (log ++ [d]) = toldOn k log := by
  rw [toldOn_concat, toldStep, hrouted]
  simp only [if_neg (Ne.symm hne)]

omit [DecidableEq Endpoint] in
/-- What the subscriber knows after a packet was forwarded. -/
theorem told_forwarded {sub sub' : AudioMixerSubscriber Endpoint Feedback} {log : List Delivery}
    {source : NodeId × UInt8} {slot : Nat} {justSet : Bool} {told : Option Speaker} {d : Delivery}
    (h : Told log sub) (hrouted : sub.mixer.Routed sub'.mixer source (some (slot, justSet)))
    (hat : ∀ k, slotAt sub'.outputs k = if k = slot
      then some ⟨(sub.knownAfter slot justSet).or told⟩ else slotAt sub.outputs k)
    (hd : d.routed = some (slot, justSet)) (htells : d.tells = told.isSome)
    (htrue : ∀ who, told = some who → who = d.speaker)
    (hone : sub.mixer.holderOf slot = some source → told.isSome →
      ∀ who ∈ toldOn slot log, who = d.speaker) : Told (log ++ [d]) sub' := by
  intro k hsome who
  by_cases hk : k = slot
  · subst hk
    rw [mem_toldOn_routed hd, knownAt, hat, if_pos rfl, Option.bind_some]
    have hnew : told = some who ↔ d.tells = true ∧ who = d.speaker := by
      rw [htells]
      constructor
      · intro hwho
        exact ⟨by rw [hwho]; rfl, htrue who hwho⟩
      · rintro ⟨hsome, hwho⟩
        obtain ⟨other, hother⟩ := Option.isSome_iff_exists.mp hsome
        rw [hother, hwho, htrue other hother]
    cases hrouted with
    | taken level hlt hfresh hset =>
      rw [AudioMixerSubscriber.knownAfter, if_pos rfl, Option.none_or, hnew]
      simp
    | kept hsame hholder =>
      have hheld : (slotAt sub.mixer.outputs k).isSome := by rwa [hsame] at hsome
      have hold := h k hheld
      rw [AudioMixerSubscriber.knownAfter, if_neg Bool.false_ne_true]
      change _ ↔ (knownAt sub k).or told = some who
      cases hknown : knownAt sub k with
      | none =>
        have hnobody : who ∉ toldOn k log := by
          rw [hold who, hknown]
          exact Option.some_ne_none who |>.symm
        rw [Option.none_or, hnew]
        simp [hnobody]
      | some first =>
        -- the first speaker stays known; a second one that tells would have to be the same
        have hfirst : first ∈ toldOn k log := (hold first).mpr hknown
        rw [Option.some_or, hold who, hknown]
        constructor
        · rintro (⟨-, hwho⟩ | ⟨htell, hwho⟩)
          · exact hwho
          · rw [htells] at htell
            rw [hwho, hone hholder htell first hfirst]
        · intro hwho
          exact Or.inl ⟨rfl, hwho⟩
  · have hsome' : (slotAt sub.mixer.outputs k).isSome := by
      cases hrouted with
      | kept hsame _ => rwa [hsame] at hsome
      | taken level hlt _ hset => rwa [hset, slotAt_set hlt, if_neg hk] at hsome
    rw [toldOn_other hd hk, h k hsome' who, knownAt, knownAt, hat, if_neg hk]

/-- What the endpoints are told when a packet is forwarded. -/
theorem announced_forwarded {sub sub' : AudioMixerSubscriber Endpoint Feedback}
    {slot : Nat} {justSet : Bool} {audio : AudioMixerPkt} {sent : List (Output Endpoint Feedback)}
    (h : Announced outputs sub) (hlength : sub'.outputs.length ≤ 256)
    (hendpoints : sub'.endpoints = sub.endpoints)
    (hat : ∀ k, slotAt sub'.outputs k = if k = slot
      then some ⟨(sub.knownAfter slot justSet).or audio.source⟩ else slotAt sub.outputs k)
    (hsent : AudioMixerSubscriber.forward audio slot justSet sub.endpoints.entries = .ok sent) :
    Announced (outputs ++ ((if (sub.knownAfter slot justSet).isNone then
      audio.source.toList.flatMap fun source =>
        sub.endpoints.keys.map fun endpoint => slotSetTo endpoint slot source else []) ++ sent))
      sub' := by
  intro endpoint k who hcontains hknown
  have hslot : slot < 256 := by
    have hhere := hat slot
    rw [if_pos rfl] at hhere
    exact Nat.lt_of_lt_of_le (lt_length_of_slotAt hhere) hlength
  have hk : k < 256 := by
    obtain ⟨state, hstate, -⟩ := Option.bind_eq_some_iff.mp hknown
    exact Nat.lt_of_lt_of_le (lt_length_of_slotAt hstate) hlength
  rw [hendpoints] at hcontains
  rw [lastSlotSet_append, lastSlotSet_append, lastSlotSet_forward hsent, Option.none_or]
  rw [knownAt, hat] at hknown
  by_cases heq : k = slot
  · rw [if_pos heq, Option.bind_some] at hknown
    cases hafter : sub.knownAfter slot justSet with
    | none =>
      rw [hafter, Option.none_or] at hknown
      replace hknown : audio.source = some who := hknown
      have hmem : endpoint ∈ sub.endpoints.keys :=
        IndexMap.mem_keys_iff.mpr (Option.isSome_iff_exists.mp hcontains)
      rw [if_pos Option.isNone_none, hknown, heq]
      simp only [Option.toList_some, List.flatMap_cons, List.flatMap_nil, List.append_nil]
      rw [lastSlotSet_told hmem, Option.some_or]
    | some first =>
      rw [hafter, Option.some_or] at hknown
      have hold : knownAt sub k = some who := by
        rw [AudioMixerSubscriber.knownAfter] at hafter
        split at hafter
        · cases hafter
        · rw [heq, ← hknown]
          exact hafter
      rw [if_neg (by simp)]
      exact h endpoint k who hcontains hold
  · rw [if_neg heq] at hknown
    have hnone : lastSlotSet endpoint k (if (sub.knownAfter slot justSet).isNone then
        audio.source.toList.flatMap fun source =>
          sub.endpoints.keys.map fun endpoint =>
            (slotSetTo endpoint slot source : Output Endpoint Feedback) else []) = none := by
      split
      · cases audio.source with
        | none => rfl
        | some source =>
          simp only [Option.toList_some, List.flatMap_cons, List.flatMap_nil, List.append_nil]
          exact lastSlotSet_told_other hslot hk heq _ _ _
      · rfl
    rw [hnone, Option.none_or]
    exact h endpoint k who hcontains hknown

omit [DecidableEq Endpoint] in
theorem deliveryOf_of_routed {sub : AudioMixerSubscriber Endpoint Feedback} {now : Instant}
    {node : NodeId} {flight : Flight} {audio : AudioMixerPkt} {mixer : AudioMixer (NodeId × UInt8)}
    {routed : Option (Nat × Bool)} (hempty : sub.endpoints.isEmpty = false)
    (haudio : codec.deserialize flight.data = some audio)
    (hmixer : sub.mixer.onPkt now (node, audio.slot) audio.audioLevel = .ok (mixer, routed)) :
    deliveryOf codec sub now node flight =
      [⟨(node, audio.slot), flight.speaker, audio.source.isSome, routed⟩] := by
  simp [deliveryOf, hempty, haudio, routeOf, hmixer]

/-- **Packets.** A packet of the wire does not panic; if it is forwarded, then on the tracks
    that the endpoints have for its output. -/
theorem Inv.deliver {now : Instant} {node : NodeId} {flight : Flight}
    {rest : List Flight} (h : Inv codec n outputs s) (hasher : Hasher) (hpos : 0 < n) (hn : n ≤ 256)
    (hone : OneSpeaker codec [] s (.deliver now node)) (hwire : s.wire node = flight :: rest) :
    ∃ s' new, step hasher codec s (.deliver now node) = .ok s' ∧
      s'.subscriber.queue = s.subscriber.queue ++ new ∧ Inv codec n (outputs ++ new) s' ∧
      s'.subscriber.endpoints = s.subscriber.endpoints ∧
      ∀ endpoint trackId uuid pkt, .endpoint [endpoint] (.localTrack trackId (.media uuid pkt)) ∈ new →
        ∃ d slot justSet endpointSlot, s'.log = s.log ++ [d] ∧ d.speaker = flight.speaker ∧
          d.routed = some (slot, justSet) ∧ (slotAt s'.subscriber.mixer.outputs slot).isSome ∧
          s.subscriber.endpoints.get endpoint = some endpointSlot ∧
          endpointSlot.tracks[slot]? = some trackId := by
  obtain ⟨sub, hsub, hsound, hheard⟩ := h.sound.onChannelData hpos codec now node flight.data
  have hstep : step hasher codec s (.deliver now node) = .ok { s with
      subscriber := sub
      wire := Function.update s.wire node rest
      log := s.log ++ deliveryOf codec s.subscriber now node flight } := by
    simp only [step, hwire, hsub]
    rfl
  have hhead : flight ∈ (s.wire node).head? := by rw [hwire]; rfl
  have htrue := h.truthful node flight (by rw [hwire]; exact List.mem_cons_self ..)
  have hrest : ∀ other, ∀ f ∈ Function.update s.wire node rest other, Truthful codec f := by
    intro other f hmem
    by_cases hother : other = node
    · subst hother
      rw [Function.update_self] at hmem
      exact h.truthful other f (by rw [hwire]; exact List.mem_cons_of_mem _ hmem)
    · rw [Function.update_of_ne hother] at hmem
      exact h.truthful other f hmem
  cases hheard with
  | ignored hignored =>
    have hnone : deliveryOf codec s.subscriber now node flight = [] := by
      unfold deliveryOf
      rcases hignored with hempty | hbad
      · rw [if_pos hempty]
      · rw [hbad]
        exact ite_self _
    refine ⟨_, [], hstep, (List.append_nil _).symm, ?_, rfl, by simp⟩
    rw [List.append_nil, hnone, List.append_nil]
    exact ⟨h.sound, h.publishers, hrest, h.announced, h.told⟩
  | dropped audio mixer hempty haudio hmixer hrouted =>
    refine ⟨_, [], hstep, (List.append_nil _).symm, ?_, rfl, by simp⟩
    rw [List.append_nil, deliveryOf_of_routed hempty haudio hmixer]
    refine ⟨hsound, h.publishers, hrest, h.announced, ?_⟩
    intro slot hsome who
    rw [toldOn_concat, toldStep]
    cases hrouted with
    | dropped hsame _ =>
      rw [hsame] at hsome
      exact h.told slot hsome who
  | forwarded audio mixer slot justSet slots sent hempty haudio hmixer hrouted hat hsent =>
    have hlength : slots.length ≤ 256 := by
      have hlen := hsound.aligned.length_eq.trans hsound.outputs
      exact hlen.trans_le hn
    refine ⟨_, _, hstep, rfl, ?_, rfl, ?_⟩
    · rw [deliveryOf_of_routed hempty haudio hmixer]
      refine ⟨hsound, h.publishers, hrest, announced_forwarded h.announced hlength rfl hat hsent,
        told_forwarded h.told hrouted hat rfl rfl (htrue audio haudio) ?_⟩
      intro hholder htells
      exact hone flight hhead hempty audio haudio htells slot
        ((h.sound.wellFormed.agrees _ _).mpr hholder)
    · intro endpoint trackId uuid pkt hmem
      rcases List.mem_append.mp hmem with htold | hforwarded
      · split at htold
        · obtain ⟨who, -, htold⟩ := List.mem_flatMap.mp htold
          obtain ⟨other, -, heq⟩ := List.mem_map.mp htold
          cases heq
        · cases htold
      · obtain ⟨entry, hentry, id, event, htrack, heq⟩ :=
          AudioMixerSubscriber.forward_mem hsent hforwarded
        cases heq
        have hlog := deliveryOf_of_routed hempty haudio hmixer
        refine ⟨_, slot, justSet, entry.2, congrArg (s.log ++ ·) hlog, rfl, rfl, ?_, ?_, htrack⟩
        · rw [← hsound.aligned.occupied slot, hat, if_pos rfl]
          rfl
        · exact IndexMap.get_eq_some_iff.mpr hentry

/-! ### Main result -/

/-- The packet that is on top of the wire of a node was forwarded, and where it was sent to an
    endpoint, the last `SlotSet` of that output names its speaker if the speaker has told
    who it is. -/
def NamesSpeaker (outputs : List (Output Endpoint Feedback)) (s s' : Net Endpoint Feedback)
    (flight : Flight) (endpoint : Endpoint) (trackId : LocalTrackId) : Prop :=
  ∃ d slot justSet endpointSlot, s'.log = s.log ++ [d] ∧ d.speaker = flight.speaker ∧
    d.routed = some (slot, justSet) ∧ s.subscriber.endpoints.get endpoint = some endpointSlot ∧
    endpointSlot.tracks[slot]? = some trackId ∧
    (flight.speaker ∈ toldOn slot s'.log →
      lastSlotSet endpoint slot outputs = some flight.speaker)

/-- The invariant holds along every run in which the upstream slots keep their speakers. -/
theorem Inv.run {hasher : Hasher} {tier : Tier} {channelId : ChannelId}
    (hcodec : ∀ pkt, codec.deserialize (codec.serialize pkt) = some pkt)
    {acts : List (Action (NetInput Endpoint))}
    {c : Config (Net Endpoint Feedback) (NetInput Endpoint) (Output Endpoint Feedback)}
    (hproper : (machine hasher codec tier channelId : Network Endpoint Feedback).Admits
      (Proper tier) acts)
    (hone : (machine hasher codec tier channelId : Network Endpoint Feedback).Admits
      (OneSpeaker codec) acts)
    (hrun : (machine hasher codec tier channelId).run acts = .ok c) :
    Inv codec tier.outputs (emitted c.history) c.state := by
  refine run_invariant (M := machine hasher codec tier channelId) _
    (fun history s => Inv codec tier.outputs (emitted history) s) ?_ ?_ ?_ (hproper.and hone) hrun
  · exact inv_init codec tier channelId
  · rintro history s i s' hinv ⟨hok, hok'⟩ hstep
    replace hstep : step hasher codec s i = .ok s' := hstep
    have hnew : ∃ new, s'.subscriber.queue = s.subscriber.queue ++ new ∧
        Inv codec tier.outputs (emitted history ++ new) s' := by
      cases i with
      | publisher node input =>
        obtain ⟨p, -, hs'⟩ := Except.bind_eq_ok.mp hstep
        refine ⟨[], ?_, ?_⟩
        · cases hs'
          exact (List.append_nil _).symm
        · rw [List.append_nil]
          exact hinv.publisher hcodec hstep
      | deliver now node =>
        cases hwire : s.wire node with
        | nil =>
          simp only [step, hwire] at hstep
          cases hstep
          exact ⟨[], (List.append_nil _).symm, by rwa [List.append_nil]⟩
        | cons flight rest =>
          obtain ⟨s'', new, hs'', hqueue, hinv', -, -⟩ :=
            hinv.deliver hasher tier.outputs_pos tier.outputs_le hok' hwire
          cases hstep.symm.trans hs''
          exact ⟨new, hqueue, hinv'⟩
      | tick now => exact hinv.tick hstep
      | join endpoint peer tracks => exact hinv.join tier.outputs_le hok hstep
      | leave endpoint => exact hinv.leave hstep
    obtain ⟨new, hqueue, hinv'⟩ := hnew
    rw [emitted_concat, (machine hasher codec tier channelId).pushed_eq_of_append hqueue]
    exact hinv'
  · intro history s hinv
    exact ⟨⟨hinv.sound.wellFormed, hinv.sound.outputs, hinv.sound.aligned, hinv.sound.tracks⟩,
      hinv.publishers, hinv.truthful, hinv.announced, hinv.told⟩

/-- A lossless format of the packets. -/
def pktFormat : Format AudioMixerPkt :=
  (Format.byte.pair (Format.uint64.pair (Format.uint16.pair (Format.int8.option.pair
    ((Format.string.pair Format.string).option.pair (Format.uint32.pair
      (Format.uint16.pair Format.byte.list))))))).imap
    (fun (slot, peer, track, audioLevel, source, ts, seq, opusPayload) =>
      ⟨slot, peer, track, audioLevel, source, ts, seq, opusPayload⟩)
    (fun pkt => (pkt.slot, pkt.peer, pkt.track, pkt.audioLevel, pkt.source, pkt.ts, pkt.seq,
      pkt.opusPayload)) (fun _ => rfl)

def pktCodec : Bincode AudioMixerPkt where
  serialize := pktFormat.write
  deserialize bytes := (pktFormat.read bytes).map Prod.fst

theorem pktCodec_lossless (pkt : AudioMixerPkt) :
    pktCodec.deserialize (pktCodec.serialize pkt) = some pkt := by
  have hread := pktFormat.read_write pkt []
  rw [List.append_nil] at hread
  simp only [pktCodec, hread, Option.map_some]

instance (tier : Tier) (history) (s : Net Endpoint Feedback) (i : NetInput Endpoint) :
    Decidable (Proper tier history s i) :=
  match i with
  | .publisher .. => .isTrue trivial
  | .deliver .. => .isTrue trivial
  | .tick _ => .isTrue trivial
  | .join _ _ tracks => inferInstanceAs (Decidable (tracks.length = tier.outputs))
  | .leave _ => .isTrue trivial

instance (codec : Bincode AudioMixerPkt) (history) (s : Net Endpoint Feedback)
    (i : NetInput Endpoint) : Decidable (OneSpeaker codec history s i) :=
  match i with
  | .publisher .. => .isTrue trivial
  | .deliver _ node => inferInstanceAs (Decidable (∀ flight ∈ (s.wire node).head?,
      s.subscriber.endpoints.isEmpty = false → ∀ audio ∈ codec.deserialize flight.data,
        audio.source.isSome → ∀ slot ∈ s.subscriber.mixer.slotOf (node, audio.slot),
          ∀ who ∈ toldOn slot s.log, who = flight.speaker))
  | .tick _ => .isTrue trivial
  | .join .. => .isTrue trivial
  | .leave _ => .isTrue trivial

/-- A voice packet. -/
def voice : MediaPacket where
  ts := 0
  seq := 0
  marker := false
  nackable := false
  layers := none
  mediaMeta := .opus (some (-20))
  data := [1]

def exampleNetwork : Network Nat PlainFeedback := machine fnv1a pktCodec .one 7

/-- Alice speaks at node 1 and carol is there to hear her. -/
def aliceSpeaks : List (Action (NetInput Nat)) :=
  [.input (.join 9 "carol" [10]), .input (.publisher 1 (.publish 0 0 "alice" "mic")),
    .input (.publisher 1 (.data 0 0 0 voice))]

/-- Bob gets the slot of alice, who fell silent, before the subscriber has forgotten her. -/
def bobFollows : List (Action (NetInput Nat)) :=
  aliceSpeaks ++ [Action.input (.deliver 1 1), .input (.publisher 1 (.tick 1000000000)),
    .input (.publisher 1 (.publish 1 0 "bob" "mic")),
    .input (.publisher 1 (.data 1000000000 1 0 voice))]

end Announcements

end MediaServer.RoomMixer
