import MediaServer.Cluster.AudioMixer.Manual
import Mathlib.Data.Fintype.Basic
import Mathlib.Logic.Function.Basic

/-!
# The audio mixer of a room

`media_core/src/cluster/room/audio_mixer.rs`.  A room has one publisher, a subscriber
for each supported number of outputs and a group of manual mixers.  An endpoint that
joins in auto mode is given to the subscriber of its number of outputs; one that
joins in manual mode gets a task of its own, remembered by index.

A turn is one round of the loop of `pop_output`: the branch that the switcher picked
hands out its next output.  The manual branch is not only passed on: the mixer counts
which tasks share a channel, and removes a task when its empty event comes.
-/

namespace MediaServer.RoomMixer

open Collections Machine Pubsub Runtime

/-- `TICK_INTERVAL`: one second. -/
def tickInterval : Nat := 1000000000

/-- The three subscribers, by their number of outputs. -/
inductive Tier where
  | one
  | two
  | three
deriving DecidableEq, Repr

instance : Fintype Tier := ⟨{.one, .two, .three}, fun tier => by cases tier <;> decide⟩

def Tier.outputs : Tier → Nat
  | .one => 1
  | .two => 2
  | .three => 3

/-- The subscriber for a number of outputs; other numbers are not supported. -/
def Tier.ofOutputs : Nat → Option Tier
  | 1 => some .one
  | 2 => some .two
  | 3 => some .three
  | _ => none

theorem Tier.ofOutputs_eq_some {n : Nat} {tier : Tier} :
    Tier.ofOutputs n = some tier ↔ n = tier.outputs := by
  constructor
  · intro h
    unfold Tier.ofOutputs at h
    split at h <;> cases h <;> rfl
  · rintro rfl
    cases tier <;> rfl

theorem Tier.outputs_pos (tier : Tier) : 0 < tier.outputs := by
  cases tier <;> decide

theorem Tier.outputs_le (tier : Tier) : tier.outputs ≤ 256 := by
  cases tier <;> decide

theorem Tier.outputs_injective {tier tier' : Tier} (h : tier.outputs = tier'.outputs) :
    tier = tier' := by
  cases tier <;> cases tier' <;> first | rfl | cases h

/-- The two encodings that reach the mixer. -/
structure MixerCodecs where
  audio : Bincode AudioMixerPkt
  media : Bincode MediaPacket

/-- Codecs to evaluate the model with, for runs in which nothing is decoded. -/
def MixerCodecs.blank : MixerCodecs := ⟨⟨fun _ => [], fun _ => none⟩, ⟨fun _ => [], fun _ => none⟩⟩

variable {Endpoint Feedback : Type}

structure RoomAudioMixer (Endpoint Feedback : Type) where
  room : ClusterRoomHash
  mixChannelId : ChannelId
  autoMode : IndexMap Endpoint Nat
  manualMode : IndexMap Endpoint Nat
  manualChannels : IndexMap ChannelId (List Nat)
  publisher : AudioMixerPublisher Endpoint Feedback
  subscribers : Tier → AudioMixerSubscriber Endpoint Feedback
  manuals : TaskGroup (ManualMixer Endpoint Feedback)
  lastTick : Instant

namespace RoomAudioMixer

def new (room : ClusterRoomHash) (mixChannelId : ChannelId) (now : Instant) :
    RoomAudioMixer Endpoint Feedback where
  room := room
  mixChannelId := mixChannelId
  autoMode := ∅
  manualMode := ∅
  manualChannels := ∅
  publisher := AudioMixerPublisher.new mixChannelId
  subscribers tier := AudioMixerSubscriber.new tier.outputs mixChannelId
  manuals := ∅
  lastTick := now

def isEmpty (s : RoomAudioMixer Endpoint Feedback) : Bool :=
  s.manualChannels.isEmpty && s.manualMode.isEmpty && s.publisher.isEmpty &&
    (s.subscribers .one).isEmpty && (s.subscribers .two).isEmpty &&
    (s.subscribers .three).isEmpty && s.manuals.isEmpty

def setSubscriber (s : RoomAudioMixer Endpoint Feedback) (tier : Tier)
    (subscriber : AudioMixerSubscriber Endpoint Feedback) : RoomAudioMixer Endpoint Feedback :=
  { s with subscribers := Function.update s.subscribers tier subscriber }

/-- Hand a call to one of the subscribers. -/
def toSubscriber (s : RoomAudioMixer Endpoint Feedback) (tier : Tier)
    (call : AudioMixerSubscriber Endpoint Feedback →
      Except Panic (AudioMixerSubscriber Endpoint Feedback)) :
    Except Panic (RoomAudioMixer Endpoint Feedback) := do
  let subscriber ← call (s.subscribers tier)
  .ok (s.setSubscriber tier subscriber)

/-- Hand a call to all subscribers. -/
def toSubscribers (s : RoomAudioMixer Endpoint Feedback)
    (call : AudioMixerSubscriber Endpoint Feedback →
      Except Panic (AudioMixerSubscriber Endpoint Feedback)) :
    Except Panic (RoomAudioMixer Endpoint Feedback) := do
  let s ← s.toSubscriber .one call
  let s ← s.toSubscriber .two call
  s.toSubscriber .three call

def onTick (s : RoomAudioMixer Endpoint Feedback) (now : Instant) :
    Except Panic (RoomAudioMixer Endpoint Feedback) :=
  if s.lastTick + tickInterval ≤ now then do
    let publisher ← s.publisher.onTick now
    let s ← { s with lastTick := now, publisher }.toSubscribers fun sub => sub.onTick now
    let manuals ← s.manuals.onAll fun m => m.onTick now
    .ok { s with manuals }
  else .ok s

/-- Hand an event to the manual mixer of an index. -/
def toManual (hasher : Hasher) (codecs : MixerCodecs) (s : RoomAudioMixer Endpoint Feedback)
    (now : Instant) (index : Nat) (input : Manual.Input) :
    Except Panic (RoomAudioMixer Endpoint Feedback) := do
  let manuals ← s.manuals.onEvent index (ManualMixer.onEvent hasher codecs.media now input)
  .ok { s with manuals }

def onPubsubEvent (hasher : Hasher) (codecs : MixerCodecs) (s : RoomAudioMixer Endpoint Feedback)
    (now : Instant) (channel : ChannelId) :
    ChannelEvent Feedback → Except Panic (RoomAudioMixer Endpoint Feedback)
  | .routeChanged _ => .ok s
  | .sourceData source data =>
      if channel = s.mixChannelId then
        s.toSubscribers fun sub => sub.onChannelData codecs.audio now source data
      else
        match s.manualChannels.get channel with
        | none => .ok s
        | some tasks => do
            let manuals ← TaskGroup.onEvents
              (ManualMixer.onEvent hasher codecs.media now (.pubsub channel source data)) tasks s.manuals
            .ok { s with manuals }
  | .feedbackData _ => .ok s

variable [DecidableEq Endpoint]

/-- `hint` is the group's choice of an index for a new task. -/
def onJoin (hasher : Hasher) (s : RoomAudioMixer Endpoint Feedback) (hint : Nat)
    (endpoint : Endpoint) (peer : PeerId) :
    Option AudioMixerConfig → Except Panic (RoomAudioMixer Endpoint Feedback)
  | none => .ok s
  | some cfg =>
      match cfg.mode with
      | .auto =>
          let s := { s with autoMode := s.autoMode.insert endpoint cfg.outputs.length }
          match Tier.ofOutputs cfg.outputs.length with
          | some tier =>
              s.toSubscriber tier fun sub => sub.onEndpointJoin hasher endpoint peer cfg.outputs
          | none => .ok s
      | .manual =>
          let newIndex := s.manuals.freeIndex hint
          let manuals := s.manuals.addTask hint (ManualMixer.new s.room endpoint cfg.outputs)
          if s.manualMode.contains endpoint then
            .error ⟨"Manual mixer for endpoint already exist"⟩
          else .ok { s with manuals, manualMode := s.manualMode.insert endpoint newIndex }

/-- How a control of an endpoint reaches its mixer. -/
def controlInput : ClusterAudioMixerControl → Manual.Input
  | .attach sources => .attach sources
  | .detach sources => .detach sources

def onControl (hasher : Hasher) (codecs : MixerCodecs) (s : RoomAudioMixer Endpoint Feedback)
    (now : Instant) (endpoint : Endpoint) (control : ClusterAudioMixerControl) :
    Except Panic (RoomAudioMixer Endpoint Feedback) :=
  match s.manualMode.get endpoint with
  | none => .error ⟨"Manual mixer not found for control"⟩
  | some index => s.toManual hasher codecs now index (controlInput control)

def onLeave (hasher : Hasher) (codecs : MixerCodecs) (s : RoomAudioMixer Endpoint Feedback)
    (now : Instant) (endpoint : Endpoint) : Except Panic (RoomAudioMixer Endpoint Feedback) :=
  match s.autoMode.get endpoint with
  | some outputs =>
      let s := { s with autoMode := s.autoMode.swapRemove endpoint }
      match Tier.ofOutputs outputs with
      | some tier => s.toSubscriber tier fun sub => sub.onEndpointLeave endpoint
      | none => .ok s
  | none =>
      match s.manualMode.get endpoint with
      | some index =>
          { s with manualMode := s.manualMode.swapRemove endpoint }.toManual hasher codecs now
            index .leaveRoom
      | none => .ok s

/-- Hand a call to the publisher. -/
def toPublisher (s : RoomAudioMixer Endpoint Feedback)
    (call : AudioMixerPublisher Endpoint Feedback →
      Except Panic (AudioMixerPublisher Endpoint Feedback)) :
    Except Panic (RoomAudioMixer Endpoint Feedback) := do
  let publisher ← call s.publisher
  .ok { s with publisher }

def onTrackPublish (hasher : Hasher) (s : RoomAudioMixer Endpoint Feedback) (endpoint : Endpoint)
    (track : RemoteTrackId) (peer : PeerId) (name : TrackName) :
    Except Panic (RoomAudioMixer Endpoint Feedback) :=
  s.toPublisher fun p => p.onTrackPublish hasher endpoint track peer name

def onTrackData (codecs : MixerCodecs) (s : RoomAudioMixer Endpoint Feedback) (now : Instant)
    (endpoint : Endpoint) (track : RemoteTrackId) (media : MediaPacket) :
    Except Panic (RoomAudioMixer Endpoint Feedback) :=
  s.toPublisher fun p => p.onTrackData codecs.audio now endpoint track media

def onTrackUnpublish (s : RoomAudioMixer Endpoint Feedback) (endpoint : Endpoint)
    (track : RemoteTrackId) : Except Panic (RoomAudioMixer Endpoint Feedback) :=
  s.toPublisher fun p => p.onTrackUnpublish endpoint track

/-! ### Turns -/

/-- What the switcher can pick: a branch and, in the group, a task. -/
inductive Branch where
  | publisher
  | subscriber (tier : Tier)
  | manual (index : Nat)

/-- A manual mixer subscribes a channel: only the first one asks the SDN. -/
def subManual (s : RoomAudioMixer Endpoint Feedback) (index : Nat) (channel : ChannelId) :
    List (Output Endpoint Feedback) × RoomAudioMixer Endpoint Feedback :=
  match s.manualChannels.get channel with
  | some tasks =>
      ([], { s with manualChannels := s.manualChannels.insert channel (tasks ++ [index]) })
  | none =>
      ([.pubsub ⟨channel, .subAuto⟩],
        { s with manualChannels := s.manualChannels.insert channel [index] })

/-- A manual mixer gives a channel up: only the last one tells the SDN. -/
def unsubManual (s : RoomAudioMixer Endpoint Feedback) (index : Nat) (channel : ChannelId) :
    Except Panic (List (Output Endpoint Feedback) × RoomAudioMixer Endpoint Feedback) :=
  match s.manualChannels.get channel with
  | none => .error ⟨"Manual channel map not found"⟩
  | some tasks =>
      if index ∈ tasks then
        let tasks := swapRemoveIdx tasks (tasks.idxOf index)
        if tasks.isEmpty then
          .ok ([.pubsub ⟨channel, .unsubAuto⟩],
            { s with manualChannels := s.manualChannels.swapRemove channel })
        else .ok ([], { s with manualChannels := s.manualChannels.insert channel tasks })
      else .error ⟨"Subscribed task not found"⟩

/-- What the mixer makes of an output of one of its manual mixers. -/
def onManualOutput (s : RoomAudioMixer Endpoint Feedback) (index : Nat) :
    Output Endpoint Feedback →
    Except Panic (List (Output Endpoint Feedback) × RoomAudioMixer Endpoint Feedback)
  | .pubsub ⟨channel, .subAuto⟩ => .ok (s.subManual index channel)
  | .pubsub ⟨channel, .unsubAuto⟩ => s.unsubManual index channel
  | .onResourceEmpty => do
      let manuals ← s.manuals.removeTask index "AudioMixerManual Queue not empty on drop"
      let s := { s with manuals }
      .ok (if s.isEmpty then [.onResourceEmpty] else [], s)
  | out => .ok ([out], s)

/-- One round of `pop_output`: what is handed out, at most one output, and the mixer after.
    The empty events of publisher and subscribers are dropped by the source. -/
def turn (s : RoomAudioMixer Endpoint Feedback) :
    Branch → Except Panic (List (Output Endpoint Feedback) × RoomAudioMixer Endpoint Feedback)
  | .publisher =>
      .ok (s.publisher.queue.head?.toList,
        { s with publisher := { s.publisher with queue := s.publisher.queue.tail } })
  | .subscriber tier =>
      let sub := s.subscribers tier
      .ok (sub.queue.head?.toList, s.setSubscriber tier { sub with queue := sub.queue.tail })
  | .manual index =>
      match s.manuals.popOutput index with
      | none => .ok ([], s)
      | some (out, manuals) => { s with manuals }.onManualOutput index out

/-! ### Calls that are handed on -/

section Calls

omit [DecidableEq Endpoint]

variable {s s' : RoomAudioMixer Endpoint Feedback}

theorem setSubscriber_subscribers (s : RoomAudioMixer Endpoint Feedback) (tier : Tier)
    (sub : AudioMixerSubscriber Endpoint Feedback) (other : Tier) :
    (s.setSubscriber tier sub).subscribers other =
      if other = tier then sub else s.subscribers other := by
  by_cases h : other = tier
  · subst h
    simp [setSubscriber]
  · simp [setSubscriber, h]

theorem toSubscriber_eq_ok {tier : Tier}
    {call : AudioMixerSubscriber Endpoint Feedback →
      Except Panic (AudioMixerSubscriber Endpoint Feedback)}
    (h : s.toSubscriber tier call = .ok s') :
    ∃ sub, call (s.subscribers tier) = .ok sub ∧ s' = s.setSubscriber tier sub := by
  obtain ⟨sub, hsub, h⟩ := Except.bind_eq_ok.mp h
  cases h
  exact ⟨sub, hsub, rfl⟩

theorem toSubscriber_ok {tier : Tier} {sub : AudioMixerSubscriber Endpoint Feedback}
    {call : AudioMixerSubscriber Endpoint Feedback →
      Except Panic (AudioMixerSubscriber Endpoint Feedback)}
    (h : call (s.subscribers tier) = .ok sub) :
    s.toSubscriber tier call = .ok (s.setSubscriber tier sub) := by
  simp only [toSubscriber, h, bind, Except.bind]

/-- A call to all subscribers reaches each of them once. -/
theorem toSubscribers_ok {subs : Tier → AudioMixerSubscriber Endpoint Feedback}
    {call : AudioMixerSubscriber Endpoint Feedback →
      Except Panic (AudioMixerSubscriber Endpoint Feedback)}
    (h : ∀ tier, call (s.subscribers tier) = .ok (subs tier)) :
    s.toSubscribers call = .ok { s with subscribers := subs } := by
  have hone := toSubscriber_ok (s := s) (h .one)
  have htwo : ((s.setSubscriber .one (subs .one)).toSubscriber .two call) =
      .ok ((s.setSubscriber .one (subs .one)).setSubscriber .two (subs .two)) := by
    apply toSubscriber_ok
    rw [setSubscriber_subscribers, if_neg (by decide)]
    exact h .two
  have hthree : (((s.setSubscriber .one (subs .one)).setSubscriber .two (subs .two)).toSubscriber
      .three call) = .ok (((s.setSubscriber .one (subs .one)).setSubscriber .two
        (subs .two)).setSubscriber .three (subs .three)) := by
    apply toSubscriber_ok
    rw [setSubscriber_subscribers, if_neg (by decide), setSubscriber_subscribers,
      if_neg (by decide)]
    exact h .three
  have hsubs : (((s.setSubscriber .one (subs .one)).setSubscriber .two
      (subs .two)).setSubscriber .three (subs .three)).subscribers = subs := by
    funext tier
    cases tier <;> simp [setSubscriber_subscribers]
  simp only [toSubscribers, hone, htwo, hthree, bind, Except.bind]
  rw [← hsubs]
  rfl

/-- Calls to the subscribers change nothing else. -/
theorem toSubscribers_eq_ok
    {call : AudioMixerSubscriber Endpoint Feedback →
      Except Panic (AudioMixerSubscriber Endpoint Feedback)}
    (h : s.toSubscribers call = .ok s') : ∃ subs, s' = { s with subscribers := subs } := by
  obtain ⟨s₁, h₁, h⟩ := Except.bind_eq_ok.mp h
  obtain ⟨s₂, h₂, h₃⟩ := Except.bind_eq_ok.mp h
  obtain ⟨sub₁, -, rfl⟩ := toSubscriber_eq_ok h₁
  obtain ⟨sub₂, -, rfl⟩ := toSubscriber_eq_ok h₂
  obtain ⟨sub₃, -, rfl⟩ := toSubscriber_eq_ok h₃
  exact ⟨_, rfl⟩

/-- A tick reaches every manual mixer once, or it comes too early. -/
theorem onTick_eq_ok {now : Instant} (h : s.onTick now = .ok s') :
    s' = s ∨ ∃ publisher subs manuals,
      s' = { s with publisher := publisher, subscribers := subs, manuals, lastTick := now } ∧
      s.publisher.onTick now = .ok publisher ∧
      TaskGroup.Image (fun m => m.onTick now) s.manuals manuals := by
  unfold onTick at h
  split at h
  · obtain ⟨publisher, hpublisher, h⟩ := Except.bind_eq_ok.mp h
    obtain ⟨s₁, h₁, h⟩ := Except.bind_eq_ok.mp h
    obtain ⟨manuals, hmanuals, h⟩ := Except.bind_eq_ok.mp h
    obtain ⟨subs, rfl⟩ := toSubscribers_eq_ok h₁
    cases h
    exact Or.inr ⟨publisher, subs, manuals, rfl, hpublisher, TaskGroup.onAll_image hmanuals⟩
  · cases h
    exact Or.inl rfl

/-- An event for a manual mixer reaches that mixer and no other. -/
theorem toManual_eq_ok {hasher : Hasher} {codecs : MixerCodecs} {now : Instant} {index : Nat}
    {input : Manual.Input} (h : s.toManual hasher codecs now index input = .ok s') :
    (s.manuals.get index = none ∧ s' = s) ∨
      ∃ m m', s.manuals.get index = some m ∧
        m.onEvent hasher codecs.media now input = .ok m' ∧
        s' = { s with manuals := s.manuals.set index m' } := by
  obtain ⟨manuals, hmanuals, h⟩ := Except.bind_eq_ok.mp h
  cases h
  rcases TaskGroup.onEvent_eq_ok hmanuals with ⟨hnone, rfl⟩ | ⟨m, m', hget, hm', rfl⟩
  · exact Or.inl ⟨hnone, rfl⟩
  · exact Or.inr ⟨m, m', hget, hm', rfl⟩

/-- An output of a manual mixer is passed on or not; what it changes is the list of shared
    channels and, if the task is empty, the group. -/
theorem onManualOutput_eq_ok {index : Nat} {out : Output Endpoint Feedback}
    {outputs : List (Output Endpoint Feedback)}
    (h : s.onManualOutput index out = .ok (outputs, s')) :
    (outputs = [] ∨ outputs = [out]) ∧
      ∃ manualChannels manuals, s' = { s with manualChannels, manuals } ∧
        ((out ≠ .onResourceEmpty ∧ manuals = s.manuals) ∨
          (out = .onResourceEmpty ∧
            ∀ j, manuals.get j = if j = index then none else s.manuals.get j)) := by
  unfold onManualOutput at h
  split at h
  · rename_i channel
    simp only [subManual] at h
    split at h
    · cases h
      exact ⟨Or.inl rfl, _, _, rfl, Or.inl ⟨by simp, rfl⟩⟩
    · cases h
      exact ⟨Or.inr rfl, _, _, rfl, Or.inl ⟨by simp, rfl⟩⟩
  · rename_i channel
    simp only [unsubManual] at h
    split at h
    · cases h
    · split at h
      · split at h
        · cases h
          exact ⟨Or.inr rfl, _, _, rfl, Or.inl ⟨by simp, rfl⟩⟩
        · cases h
          exact ⟨Or.inl rfl, _, _, rfl, Or.inl ⟨by simp, rfl⟩⟩
      · cases h
  · obtain ⟨manuals, hmanuals, h⟩ := Except.bind_eq_ok.mp h
    cases h
    refine ⟨?_, _, manuals, rfl, Or.inr ⟨rfl, TaskGroup.removeTask_eq_ok hmanuals⟩⟩
    split
    · exact Or.inr rfl
    · exact Or.inl rfl
  · rename_i hne
    cases h
    exact ⟨Or.inr rfl, _, _, rfl, Or.inl ⟨hne, rfl⟩⟩

/-- **Manual turns.** Nothing is handed out and nothing changes, or the task hands out its
    next output, or the task is empty and is removed. -/
theorem turn_manual_eq_ok {index : Nat} {outputs : List (Output Endpoint Feedback)}
    (h : s.turn (.manual index) = .ok (outputs, s')) :
    (outputs = [] ∧ s' = s) ∨
      ∃ m manualChannels manuals, s.manuals.get index = some m ∧
        s' = { s with manualChannels, manuals } ∧
        ((∃ out rest, m.queue = out :: rest ∧ (outputs = [] ∨ outputs = [out]) ∧
            (out ≠ .onResourceEmpty → manuals = s.manuals.set index m.dropFront) ∧
            (out = .onResourceEmpty → ∀ j, manuals.get j =
              if j = index then none else s.manuals.get j)) ∨
          (m.isEmpty = true ∧ (outputs = [] ∨ outputs = [.onResourceEmpty]) ∧
            ∀ j, manuals.get j = if j = index then none else s.manuals.get j)) := by
  simp only [turn] at h
  split at h
  · cases h
    exact Or.inl ⟨rfl, rfl⟩
  · rename_i out popped hpop
    obtain ⟨m, hget, hcases⟩ := TaskGroup.popOutput_eq_some hpop
    obtain ⟨houtputs, manualChannels, manuals, rfl, hmanuals⟩ := onManualOutput_eq_ok h
    refine Or.inr ⟨m, manualChannels, manuals, hget, rfl, ?_⟩
    rcases hcases with ⟨rest, hqueue, rfl⟩ | ⟨hempty, rfl, rfl⟩
    · refine Or.inl ⟨out, rest, hqueue, houtputs, ?_, ?_⟩
      · intro hne
        rcases hmanuals with ⟨-, heq⟩ | ⟨heq, -⟩
        · exact heq
        · exact absurd heq hne
      · intro heq j
        rcases hmanuals with ⟨hne, -⟩ | ⟨-, hall⟩
        · exact absurd heq hne
        · rw [hall j]
          by_cases hj : j = index
          · rw [if_pos hj, if_pos hj]
          · rw [if_neg hj, if_neg hj]
            exact TaskGroup.get_set_ne _ _ hj
    · refine Or.inr ⟨hempty, houtputs, ?_⟩
      rcases hmanuals with ⟨hne, -⟩ | ⟨-, hall⟩
      · exact absurd rfl hne
      · exact hall

end Calls

end RoomAudioMixer

/-! ### Runs -/

/-- What happens to the mixer of a room. -/
inductive MixerInput (Endpoint Feedback : Type) where
  | tick (now : Instant)
  | join (hint : Nat) (endpoint : Endpoint) (peer : PeerId) (cfg : Option AudioMixerConfig)
  | control (now : Instant) (endpoint : Endpoint) (control : ClusterAudioMixerControl)
  | leave (now : Instant) (endpoint : Endpoint)
  | trackPublish (endpoint : Endpoint) (track : RemoteTrackId) (peer : PeerId) (name : TrackName)
  | trackData (now : Instant) (endpoint : Endpoint) (track : RemoteTrackId) (media : MediaPacket)
  | trackUnpublish (endpoint : Endpoint) (track : RemoteTrackId)
  | pubsub (now : Instant) (channel : ChannelId) (event : ChannelEvent Feedback)
  | turn (branch : RoomAudioMixer.Branch)

/-- The mixer and what its turns handed out. -/
structure MixerState (Endpoint Feedback : Type) where
  mixer : RoomAudioMixer Endpoint Feedback
  out : List (Output Endpoint Feedback)

namespace Mixer

variable [DecidableEq Endpoint]

/-- The mixer after an input, with what was handed out. -/
def handle (hasher : Hasher) (codecs : MixerCodecs) (s : RoomAudioMixer Endpoint Feedback) :
    MixerInput Endpoint Feedback →
    Except Panic (List (Output Endpoint Feedback) × RoomAudioMixer Endpoint Feedback)
  | .tick now => (s.onTick now).map ([], ·)
  | .join hint endpoint peer cfg => (s.onJoin hasher hint endpoint peer cfg).map ([], ·)
  | .control now endpoint control => (s.onControl hasher codecs now endpoint control).map ([], ·)
  | .leave now endpoint => (s.onLeave hasher codecs now endpoint).map ([], ·)
  | .trackPublish endpoint track peer name =>
      (s.onTrackPublish hasher endpoint track peer name).map ([], ·)
  | .trackData now endpoint track media =>
      (s.onTrackData codecs now endpoint track media).map ([], ·)
  | .trackUnpublish endpoint track => (s.onTrackUnpublish endpoint track).map ([], ·)
  | .pubsub now channel event => (s.onPubsubEvent hasher codecs now channel event).map ([], ·)
  | .turn branch => s.turn branch

def step (hasher : Hasher) (codecs : MixerCodecs) (s : MixerState Endpoint Feedback)
    (i : MixerInput Endpoint Feedback) : Except Panic (MixerState Endpoint Feedback) := do
  let (outputs, mixer) ← handle hasher codecs s.mixer i
  .ok ⟨mixer, s.out ++ outputs⟩

theorem step_eq_ok {hasher : Hasher} {codecs : MixerCodecs} {s s' : MixerState Endpoint Feedback}
    {i : MixerInput Endpoint Feedback} (h : step hasher codecs s i = .ok s') :
    ∃ outputs, handle hasher codecs s.mixer i = .ok (outputs, s'.mixer) ∧
      s'.out = s.out ++ outputs := by
  obtain ⟨⟨outputs, mixer⟩, hhandle, h⟩ := Except.bind_eq_ok.mp h
  cases h
  exact ⟨outputs, hhandle, rfl⟩

/-- The mixer of a room as a machine: its queue is what its turns handed out. -/
def machine (hasher : Hasher) (codecs : MixerCodecs) (room : ClusterRoomHash)
    (mixChannelId : ChannelId) (start : Instant) :
    Machine (MixerState Endpoint Feedback) (MixerInput Endpoint Feedback)
      (Output Endpoint Feedback) where
  init := ⟨RoomAudioMixer.new room mixChannelId start, []⟩
  step := step hasher codecs
  queue := MixerState.out
  dropFront s := { s with out := s.out.tail }
  queue_init := rfl
  queue_dropFront _ := rfl
  step_appends s i s' h := by
    obtain ⟨outputs, -, hout⟩ := step_eq_ok h
    exact ⟨outputs, hout.symm⟩

/-- The outputs that a step hands out are the ones the machine records. -/
theorem pushed_eq {hasher : Hasher} {codecs : MixerCodecs} {room : ClusterRoomHash}
    {mixChannelId : ChannelId} {start : Instant} {s s' : MixerState Endpoint Feedback}
    {outputs : List (Output Endpoint Feedback)} (hout : s'.out = s.out ++ outputs) :
    (machine hasher codecs room mixChannelId start).pushed s s' = outputs :=
  pushed_eq_of_append (machine hasher codecs room mixChannelId start) hout

/-! ### What never changes -/

/-- The room and the mixer channel are fixed. -/
def Fixed (s s' : RoomAudioMixer Endpoint Feedback) : Prop :=
  s'.room = s.room ∧ s'.mixChannelId = s.mixChannelId

variable {s s' : RoomAudioMixer Endpoint Feedback}

omit [DecidableEq Endpoint] in
theorem toSubscriber_fixed {tier : Tier}
    {call : AudioMixerSubscriber Endpoint Feedback →
      Except Panic (AudioMixerSubscriber Endpoint Feedback)}
    (h : s.toSubscriber tier call = .ok s') : Fixed s s' := by
  obtain ⟨sub, -, rfl⟩ := RoomAudioMixer.toSubscriber_eq_ok h
  exact ⟨rfl, rfl⟩

omit [DecidableEq Endpoint] in
theorem toSubscribers_fixed
    {call : AudioMixerSubscriber Endpoint Feedback →
      Except Panic (AudioMixerSubscriber Endpoint Feedback)}
    (h : s.toSubscribers call = .ok s') : Fixed s s' := by
  obtain ⟨subs, rfl⟩ := RoomAudioMixer.toSubscribers_eq_ok h
  exact ⟨rfl, rfl⟩

omit [DecidableEq Endpoint] in
theorem toManual_fixed {hasher : Hasher} {codecs : MixerCodecs} {now : Instant} {index : Nat}
    {input : Manual.Input} (h : s.toManual hasher codecs now index input = .ok s') :
    Fixed s s' := by
  obtain ⟨manuals, -, h⟩ := Except.bind_eq_ok.mp h
  cases h
  exact ⟨rfl, rfl⟩

omit [DecidableEq Endpoint] in
theorem onTick_fixed {now : Instant} (h : s.onTick now = .ok s') : Fixed s s' := by
  rcases RoomAudioMixer.onTick_eq_ok h with rfl | ⟨publisher, subs, manuals, rfl, -, -⟩
  · exact ⟨rfl, rfl⟩
  · exact ⟨rfl, rfl⟩

omit [DecidableEq Endpoint] in
theorem onPubsubEvent_fixed {hasher : Hasher} {codecs : MixerCodecs} {now : Instant}
    {channel : ChannelId} {event : ChannelEvent Feedback}
    (h : s.onPubsubEvent hasher codecs now channel event = .ok s') : Fixed s s' := by
  unfold RoomAudioMixer.onPubsubEvent at h
  split at h
  · cases h
    exact ⟨rfl, rfl⟩
  · split at h
    · exact toSubscribers_fixed h
    · split at h
      · cases h
        exact ⟨rfl, rfl⟩
      · obtain ⟨manuals, -, h⟩ := Except.bind_eq_ok.mp h
        cases h
        exact ⟨rfl, rfl⟩
  · cases h
    exact ⟨rfl, rfl⟩

theorem onJoin_fixed {hasher : Hasher} {hint : Nat} {endpoint : Endpoint} {peer : PeerId}
    {cfg : Option AudioMixerConfig} (h : s.onJoin hasher hint endpoint peer cfg = .ok s') :
    Fixed s s' := by
  unfold RoomAudioMixer.onJoin at h
  split at h
  · cases h
    exact ⟨rfl, rfl⟩
  · split at h
    · simp only at h
      split at h
      · have hfixed := toSubscriber_fixed h
        exact ⟨hfixed.1, hfixed.2⟩
      · cases h
        exact ⟨rfl, rfl⟩
    · simp only at h
      split at h
      · cases h
      · cases h
        exact ⟨rfl, rfl⟩

theorem onLeave_fixed {hasher : Hasher} {codecs : MixerCodecs} {now : Instant}
    {endpoint : Endpoint} (h : s.onLeave hasher codecs now endpoint = .ok s') : Fixed s s' := by
  unfold RoomAudioMixer.onLeave at h
  split at h
  · simp only at h
    split at h
    · have hfixed := toSubscriber_fixed h
      exact ⟨hfixed.1, hfixed.2⟩
    · cases h
      exact ⟨rfl, rfl⟩
  · split at h
    · have hfixed := toManual_fixed h
      exact ⟨hfixed.1, hfixed.2⟩
    · cases h
      exact ⟨rfl, rfl⟩

omit [DecidableEq Endpoint] in
theorem turn_fixed {branch : RoomAudioMixer.Branch} {outputs : List (Output Endpoint Feedback)}
    (h : s.turn branch = .ok (outputs, s')) : Fixed s s' := by
  cases branch with
  | publisher =>
    cases h
    exact ⟨rfl, rfl⟩
  | subscriber tier =>
    cases h
    exact ⟨rfl, rfl⟩
  | manual index =>
    rcases RoomAudioMixer.turn_manual_eq_ok h with ⟨-, rfl⟩ | ⟨m, channels, manuals, -, rfl, -⟩
    · exact ⟨rfl, rfl⟩
    · exact ⟨rfl, rfl⟩

omit [DecidableEq Endpoint] in
/-- An input that is not a turn hands nothing out. -/
theorem map_eq_ok {result : Except Panic (RoomAudioMixer Endpoint Feedback)}
    {outputs : List (Output Endpoint Feedback)}
    (h : result.map (fun mixer => (([] : List (Output Endpoint Feedback)), mixer)) =
      .ok (outputs, s')) : outputs = [] ∧ result = .ok s' := by
  cases result with
  | error panic => cases h
  | ok mixer =>
    cases h
    exact ⟨rfl, rfl⟩

theorem handle_fixed {hasher : Hasher} {codecs : MixerCodecs} {i : MixerInput Endpoint Feedback}
    {outputs : List (Output Endpoint Feedback)}
    (h : handle hasher codecs s i = .ok (outputs, s')) : Fixed s s' := by
  have hpublisher : ∀ {call : AudioMixerPublisher Endpoint Feedback →
      Except Panic (AudioMixerPublisher Endpoint Feedback)},
      s.toPublisher call = .ok s' → Fixed s s' := by
    intro call hcall
    obtain ⟨p, -, hcall⟩ := Except.bind_eq_ok.mp hcall
    cases hcall
    exact ⟨rfl, rfl⟩
  cases i with
  | tick now => exact onTick_fixed (map_eq_ok h).2
  | join hint endpoint peer cfg => exact onJoin_fixed (map_eq_ok h).2
  | control now endpoint control =>
    have hcall := (map_eq_ok h).2
    unfold RoomAudioMixer.onControl at hcall
    split at hcall
    · cases hcall
    · exact toManual_fixed hcall
  | leave now endpoint => exact onLeave_fixed (map_eq_ok h).2
  | trackPublish endpoint track peer name => exact hpublisher (map_eq_ok h).2
  | trackData now endpoint track media => exact hpublisher (map_eq_ok h).2
  | trackUnpublish endpoint track => exact hpublisher (map_eq_ok h).2
  | pubsub now channel event => exact onPubsubEvent_fixed (map_eq_ok h).2
  | turn branch => exact turn_fixed h

end Mixer

end MediaServer.RoomMixer
