import MediaServer.Cluster.AudioMixer.MixMinus

/-!
# Mixers by their number of outputs

Who joins a room says how its audio is mixed and into which tracks.  In auto mode there are
subscribers for one, two and three tracks, and other numbers get none; in manual mode the endpoint
gets a mixer with as many outputs as it has tracks.

Nothing asks for a first track.  A manual mixer without outputs takes the packet of a new source,
which it has to remember without an output; the next packet of that source finds no output to
contend for, and the mixer insists that there is one.
-/

namespace MediaServer.RoomMixer

open Collections Slots Machine Pubsub Execution

namespace OutputCounts

open Announcements (PublisherInput publisherStep voice)

variable {Endpoint Feedback : Type}

/-! ### Runs of the mixers -/

inductive ManualCall where
  | tick (now : Instant)
  | event (now : Instant) (input : Manual.Input)
  | pop

def manualStep (hasher : Hasher) (codec : Bincode MediaPacket) (m : ManualMixer Endpoint Feedback) :
    ManualCall → Except Panic (ManualMixer Endpoint Feedback)
  | .tick now => m.onTick now
  | .event now input => m.onEvent hasher codec now input
  | .pop => .ok m.dropFront

/-- Packets come from sources that are attached. -/
def Attached (m : ManualMixer Endpoint Feedback) : ManualCall → Prop
  | .event _ (.pubsub channel _ _) => m.sources.contains channel = true
  | _ => True

variable [DecidableEq Endpoint]

/-- What the publisher asserts of its calls; packets come from tracks that are published. -/
def Published (p : AudioMixerPublisher Endpoint Feedback) : PublisherInput Endpoint → Prop
  | .tick _ => True
  | .publish endpoint track _ _ => p.tracks.contains (endpoint, track) = false
  | .data _ endpoint track _ => p.tracks.contains (endpoint, track) = true
  | .unpublish endpoint track => p.tracks.contains (endpoint, track) = true

/-- The numbers of outputs of the mixers that serve an endpoint: that of its node's publisher, and
    its own or the one it shares. -/
def mixersOf (mode : AudioMixerMode) (outputs : List LocalTrackId) : List Nat :=
  3 :: match mode with
    | .auto => (Tier.ofOutputs outputs.length).toList.map Tier.outputs
    | .manual => [outputs.length]

/-- Whatever is sent to the mixers that serve an endpoint, none of them panics. -/
structure Serves (Feedback : Type) (endpoint : Endpoint) (mode : AudioMixerMode)
    (outputs : List LocalTrackId) : Prop where
  publisher : ∀ hasher codec channelId calls, GoesOn (publisherStep hasher codec) Published
    (AudioMixerPublisher.new channelId : AudioMixerPublisher Endpoint Feedback) calls
  subscriber : mode = .auto → ∀ tier, Tier.ofOutputs outputs.length = some tier →
    ∀ hasher codec channelId (calls : List (MixMinus.Call Endpoint tier.outputs)),
      GoesOn (MixMinus.step hasher codec) MixMinus.Asked
        (MixMinus.start tier.outputs channelId : MixMinus.Mix Endpoint Feedback) calls
  manual : mode = .manual → ∀ hasher codec room calls, GoesOn (manualStep hasher codec) Attached
    (ManualMixer.new room endpoint outputs : ManualMixer Endpoint Feedback) calls
  mixers : ∀ n ∈ mixersOf mode outputs, ∀ {Src : Type} [DecidableEq Src]
    (calls : List (AudioMixer.Call Src)), ∃ m, (AudioMixer.new n).run calls = .ok m

/-! ### The publisher -/

theorem publisher_goes_on {p : AudioMixerPublisher Endpoint Feedback} (h : p.Sound)
    (hasher : Hasher) (codec : Bincode AudioMixerPkt) {input : PublisherInput Endpoint}
    (hpublished : Published p input) :
    ∃ p', publisherStep hasher codec p input = .ok p' ∧ p'.Sound := by
  cases input with
  | tick now =>
    obtain ⟨mixer, slots, hok, hsound⟩ := h.onTick now
    exact ⟨_, hok, hsound⟩
  | publish endpoint track peer name =>
    have hok : ∃ p', p.onTrackPublish hasher endpoint track peer name = .ok p' := by
      rw [AudioMixerPublisher.onTrackPublish, if_neg (Bool.eq_false_iff.mp hpublished)]
      exact ⟨_, rfl⟩
    obtain ⟨p', hok⟩ := hok
    exact ⟨p', hok, (AudioMixerPublisher.onTrackPublish_extends hok h).1⟩
  | data now endpoint track media =>
    obtain ⟨info, hinfo⟩ := Option.isSome_iff_exists.mp hpublished
    obtain ⟨mixer, slots, outputs, hok, hsound, -⟩ := h.onTrackData hinfo codec now media
    exact ⟨_, hok, hsound⟩
  | unpublish endpoint track =>
    have hok : ∃ p', p.onTrackUnpublish endpoint track = .ok p' := by
      have hin : p.tracks.contains (endpoint, track) = true := hpublished
      rw [AudioMixerPublisher.onTrackUnpublish, if_pos hin]
      exact ⟨_, rfl⟩
    obtain ⟨p', hok⟩ := hok
    exact ⟨p', hok, (AudioMixerPublisher.onTrackUnpublish_extends hok h).1⟩

/-! ### Manual mixers -/

omit [DecidableEq Endpoint] in
/-- A manual mixer in order, for certain outputs. -/
structure Ready (outputs : List LocalTrackId) (m : ManualMixer Endpoint Feedback) : Prop where
  sound : m.Sound
  outputs : m.outputs = outputs

omit [DecidableEq Endpoint] in
theorem Ready.step {outputs : List LocalTrackId} {m : ManualMixer Endpoint Feedback}
    (h : Ready outputs m) (houtputs : outputs ≠ []) (hasher : Hasher) (codec : Bincode MediaPacket)
    {c : ManualCall} (hattached : Attached m c) :
    ∃ m', manualStep hasher codec m c = .ok m' ∧ Ready outputs m' := by
  cases c with
  | tick now =>
    obtain ⟨m', hok, hsound⟩ := h.sound.onTick now
    obtain ⟨hsame, -, -⟩ := ManualMixer.onTick_eq_ok hok
    exact ⟨m', hok, hsound, hsame.outputs.trans h.outputs⟩
  | event now input =>
    have hexpects : m.Expects input := by
      cases input with
      | pubsub channel source data =>
        refine ⟨?_, hattached⟩
        rw [h.outputs]
        exact houtputs
      | attach sources => trivial
      | detach sources => trivial
      | leaveRoom => trivial
    obtain ⟨m', hok, hsound⟩ := h.sound.onEvent hexpects hasher codec now
    exact ⟨m', hok, hsound, (ManualMixer.onEvent_eq_ok hok).same.outputs.trans h.outputs⟩
  | pop => exact ⟨_, rfl, h.sound.congr rfl ⟨rfl, rfl, rfl⟩, h.outputs⟩

/-- An encoding that carries voice packets. -/
def voiceCodec : Bincode MediaPacket := ⟨fun _ => [1], fun _ => some voice⟩

/-- One source is attached and sends two packets. -/
def twoPackets (hasher : Hasher) (room : ClusterRoomHash) (source : TrackSource) :
    List ManualCall :=
  let channel := IdGenerator.genTrackChannelId hasher room source.peer source.track
  [.event 0 (.attach [source]), .event 0 (.pubsub channel 1 [1]),
    .event 0 (.pubsub channel 1 [1])]

/-- A mixer without outputs remembers a new source. -/
theorem onPkt_new_zero {Src : Type} [DecidableEq Src] (now : Instant) (source : Src)
    (level : Option Int8) :
    (AudioMixer.new 0).onPkt now source level =
      .ok (⟨0, IndexMap.insert ∅ source ⟨now, none⟩, []⟩, none) := by
  simp [AudioMixer.onPkt, AudioMixer.new, AudioMixer.findEmptySlot]

/-- A known source has nothing to contend for. -/
theorem onPkt_known_zero {Src : Type} [DecidableEq Src] (now last : Instant) (source : Src)
    (level : Option Int8) :
    (⟨0, IndexMap.insert ∅ source ⟨last, none⟩, []⟩ : AudioMixer Src).onPkt now source level =
      .error ⟨"Should have lowest pined"⟩ := by
  simp [AudioMixer.onPkt, AudioMixer.contend, AudioMixer.hasEmptySlot, AudioMixer.lowestSlot,
    AudioMixer.lowestFrom]

omit [DecidableEq Endpoint] in
/-- The second packet is the end of a mixer without outputs. -/
theorem not_goesOn_twoPackets (hasher : Hasher) (room : ClusterRoomHash) (source : TrackSource)
    (endpoint : Endpoint) :
    ¬ GoesOn (manualStep hasher voiceCodec) Attached
      (ManualMixer.new room endpoint [] : ManualMixer Endpoint Feedback)
      (twoPackets hasher room source) := by
  intro h
  obtain ⟨m₁, hattach, h⟩ := h trivial
  have hm₁ : m₁ = (ManualMixer.new room endpoint []).attach hasher source :=
    (Except.ok.inj hattach).symm
  simp only [ManualMixer.attach, ManualMixer.new, IndexMap.contains, IndexMap.get_empty,
    Option.isSome_none, Bool.false_eq_true, if_false, ManualMixer.push, List.nil_append] at hm₁
  subst hm₁
  obtain ⟨m₂, hfirst, h⟩ := h (by simp [Attached, IndexMap.contains])
  simp only [manualStep, ManualMixer.onEvent, voiceCodec, ManualMixer.onSourcePkt, voice,
    List.length_nil, onPkt_new_zero, bind, Except.bind] at hfirst
  cases hfirst
  obtain ⟨m₃, hsecond, -⟩ := h (by simp [Attached, IndexMap.contains])
  simp only [manualStep, ManualMixer.onEvent, voiceCodec, ManualMixer.onSourcePkt, voice,
    onPkt_known_zero, bind, Except.bind] at hsecond
  cases hsecond

/-! ### The number of outputs -/

/-- **Numbers of outputs.**  The mixers that serve an endpoint never panic exactly if it does not
    mix by hand into no track at all. -/
theorem serves_iff (endpoint : Endpoint) (mode : AudioMixerMode) (outputs : List LocalTrackId) :
    Serves Feedback endpoint mode outputs ↔ (mode = .manual → outputs ≠ []) := by
  constructor
  · rintro h hmanual rfl
    exact not_goesOn_twoPackets fnv1a 0 ⟨"carol", "mic"⟩ endpoint
      (h.manual hmanual fnv1a voiceCodec 0 _)
  · intro houtputs
    constructor
    · intro hasher codec channelId calls
      exact goesOn_of (fun p input hsound hpublished =>
        publisher_goes_on hsound hasher codec hpublished)
        (AudioMixerPublisher.sound_new channelId) calls
    · intro hauto tier htier hasher codec channelId calls
      refine goesOn_of (fun m c hgood hasked => ?_)
        (MixMinus.good_start tier.outputs channelId) calls
      obtain ⟨m', hok, hgood', -⟩ := hgood.step tier.outputs_pos c hasked
      exact ⟨m', hok, hgood'⟩
    · intro hmanual hasher codec room calls
      have hready : Ready outputs
          (ManualMixer.new room endpoint outputs : ManualMixer Endpoint Feedback) :=
        ⟨ManualMixer.sound_new room endpoint outputs, rfl⟩
      exact goesOn_of (fun m c hm hattached =>
        hm.step (houtputs hmanual) hasher codec hattached) hready calls
    · intro n hn Src _ calls
      have hpos : 0 < n := by
        rcases List.mem_cons.mp hn with rfl | hn
        · decide
        · cases mode with
          | auto =>
            obtain ⟨tier, -, rfl⟩ := List.mem_map.mp hn
            exact tier.outputs_pos
          | manual =>
            rw [List.mem_singleton.mp hn]
            exact List.length_pos_iff.mpr (houtputs rfl)
      have hlength : 0 < (AudioMixer.new n : AudioMixer Src).outputs.length := by
        rw [AudioMixer.new, List.length_replicate]
        exact hpos
      obtain ⟨m, hrun, -, -⟩ := (AudioMixer.wellFormed_new n).run hlength calls
      exact ⟨m, hrun⟩

/-- An endpoint that mixes by hand into no track. -/
theorem not_serves : ¬ ∀ (mode : AudioMixerMode) (outputs : List LocalTrackId),
    Serves PlainFeedback (0 : Nat) mode outputs := by
  intro hall
  have hmanual := (hall .manual []).manual rfl fnv1a voiceCodec 0
    (twoPackets fnv1a 0 ⟨"carol", "mic"⟩)
  exact not_goesOn_twoPackets fnv1a 0 ⟨"carol", "mic"⟩ 0 hmanual

end OutputCounts

end MediaServer.RoomMixer
