import MediaServer.Cluster.AudioMixer.Subscriber

/-!
# Manual mixers

`media_core/src/cluster/room/audio_mixer/manual.rs`.  An endpoint that chooses its
sources by hand has a mixer of its own, a task of the room's mixer.  The task
subscribes to the channel of every attached source and gives it up when the source
is detached or the endpoint leaves.

For every channel, what the task says about it follows whether the channel is a
source (`Talks`).
-/

namespace MediaServer.RoomMixer

open Collections Slots Machine Pubsub Lease
open MediaTrack.Subscriber (subCommand subCommands subCommands_append subCommands_subAuto
  subCommands_unsubAuto)

namespace Manual

inductive Input where
  | attach (sources : List TrackSource)
  | detach (sources : List TrackSource)
  | pubsub (channel : ChannelId) (source : NodeId) (data : Bytes)
  | leaveRoom

end Manual

structure ManualMixer (Endpoint Feedback : Type) where
  endpoint : Endpoint
  room : ClusterRoomHash
  outputs : List LocalTrackId
  sources : IndexMap ChannelId TrackSource
  queue : List (Output Endpoint Feedback)
  mixer : AudioMixer ChannelId

variable {Endpoint Feedback : Type}

namespace ManualMixer

def new (room : ClusterRoomHash) (endpoint : Endpoint) (outputs : List LocalTrackId) :
    ManualMixer Endpoint Feedback :=
  ⟨endpoint, room, outputs, ∅, [], AudioMixer.new outputs.length⟩

def isEmpty (m : ManualMixer Endpoint Feedback) : Bool := m.queue.isEmpty && m.sources.isEmpty

def push (m : ManualMixer Endpoint Feedback) (outputs : List (Output Endpoint Feedback)) :
    ManualMixer Endpoint Feedback :=
  { m with queue := m.queue ++ outputs }

def attach (hasher : Hasher) (m : ManualMixer Endpoint Feedback) (source : TrackSource) :
    ManualMixer Endpoint Feedback :=
  let channelId := IdGenerator.genTrackChannelId hasher m.room source.peer source.track
  if m.sources.contains channelId then m
  else
    { m with sources := m.sources.insert channelId source }.push [.pubsub ⟨channelId, .subAuto⟩]

def detach (hasher : Hasher) (m : ManualMixer Endpoint Feedback) (source : TrackSource) :
    ManualMixer Endpoint Feedback :=
  let channelId := IdGenerator.genTrackChannelId hasher m.room source.peer source.track
  if m.sources.contains channelId then
    { m with sources := m.sources.swapRemove channelId }.push [.pubsub ⟨channelId, .unsubAuto⟩]
  else m

/-- What a packet that the mixer forwards adds to the queue. -/
def sourceOutputs (m : ManualMixer Endpoint Feedback) (channel : ChannelId) (pkt : MediaPacket)
    (slot : Nat) (justSet : Bool) : Except Panic (List (Output Endpoint Feedback)) :=
  match m.outputs[slot]? with
  | none => .error ⟨"index out of bounds"⟩
  | some trackId =>
      let media := .endpoint [m.endpoint] (.localTrack trackId (.media channel pkt))
      if justSet then
        match m.sources.get channel with
        | none => .error ⟨"Missing source info for channel"⟩
        | some info => .ok
            [.endpoint [m.endpoint] (.localTrack trackId .sourceChanged),
              slotSetTo m.endpoint slot (info.peer, info.track), media]
      else .ok [media]

def onSourcePkt (m : ManualMixer Endpoint Feedback) (now : Instant) (channel : ChannelId)
    (pkt : MediaPacket) : Except Panic (ManualMixer Endpoint Feedback) :=
  match pkt.mediaMeta with
  | .opus audioLevel => do
      let (mixer, routed) ← m.mixer.onPkt now channel audioLevel
      match routed with
      | none => .ok { m with mixer }
      | some (slot, justSet) => do
          let outputs ← m.sourceOutputs channel pkt slot justSet
          .ok { m with mixer, queue := m.queue ++ outputs }
  | _ => .ok m

def onTick (m : ManualMixer Endpoint Feedback) (now : Instant) :
    Except Panic (ManualMixer Endpoint Feedback) := do
  let (mixer, removed) ← m.mixer.onTick now
  .ok { m with
    mixer
    queue := m.queue ++ (removed.getD []).map fun slot => slotUnsetTo m.endpoint slot }

/-- The loop of the `LeaveRoom` input. -/
def release (m : ManualMixer Endpoint Feedback) : ManualMixer Endpoint Feedback :=
  { m with sources := ∅ }.push (m.sources.keys.map fun channelId => .pubsub ⟨channelId, .unsubAuto⟩)

def onEvent (hasher : Hasher) (codec : Bincode MediaPacket) (now : Instant) (input : Manual.Input)
    (m : ManualMixer Endpoint Feedback) : Except Panic (ManualMixer Endpoint Feedback) :=
  match input with
  | .attach sources => .ok (sources.foldl (attach hasher) m)
  | .detach sources => .ok (sources.foldl (detach hasher) m)
  | .pubsub channel _ data =>
      match codec.deserialize data with
      | none => .ok m
      | some pkt => m.onSourcePkt now channel pkt
  | .leaveRoom => .ok m.release

def dropFront (m : ManualMixer Endpoint Feedback) : ManualMixer Endpoint Feedback :=
  { m with queue := m.queue.tail }

end ManualMixer

instance : Runtime.TaskChild (ManualMixer Endpoint Feedback) (Output Endpoint Feedback) where
  queue := ManualMixer.queue
  dropFront := ManualMixer.dropFront
  isEmpty := ManualMixer.isEmpty
  emptyEvent _ := .onResourceEmpty
  queue_dropFront _ := rfl
  queue_of_isEmpty m h := by
    rw [ManualMixer.isEmpty, Bool.and_eq_true] at h
    exact List.isEmpty_iff.mp h.1

namespace ManualMixer

/-! ### What a manual mixer says about a channel -/

/-- The queue is extended, and what is said about every channel reports whether it became
    a source or ceased to be one. -/
def Talks (m m' : ManualMixer Endpoint Feedback) : Prop :=
  ∃ outputs, m'.queue = m.queue ++ outputs ∧ .onResourceEmpty ∉ outputs ∧
    ∀ c, subCommands c outputs = edge (m.sources.contains c) (m'.sources.contains c)

/-- The identity of a mixer: whose it is and what it mixes into. -/
structure Same (m m' : ManualMixer Endpoint Feedback) : Prop where
  endpoint : m'.endpoint = m.endpoint
  room : m'.room = m.room
  outputs : m'.outputs = m.outputs

theorem Same.refl (m : ManualMixer Endpoint Feedback) : Same m m := ⟨rfl, rfl, rfl⟩

theorem Same.trans {m m' m'' : ManualMixer Endpoint Feedback} (h : Same m m')
    (h' : Same m' m'') : Same m m'' :=
  ⟨h'.endpoint.trans h.endpoint, h'.room.trans h.room, h'.outputs.trans h.outputs⟩

theorem talks_of_silent {m m' : ManualMixer Endpoint Feedback}
    {outputs : List (Output Endpoint Feedback)} (hqueue : m'.queue = m.queue ++ outputs)
    (hsources : m'.sources = m.sources) (hplain : .onResourceEmpty ∉ outputs)
    (hsilent : ∀ c, subCommands c outputs = []) : Talks m m' := by
  refine ⟨outputs, hqueue, hplain, fun c => ?_⟩
  rw [hsilent, hsources, edge_self]

theorem Talks.refl (m : ManualMixer Endpoint Feedback) : Talks m m :=
  talks_of_silent (List.append_nil _).symm rfl List.not_mem_nil fun _ => rfl

theorem attach_talks (hasher : Hasher) (m : ManualMixer Endpoint Feedback) (source : TrackSource) :
    Talks m (m.attach hasher source) := by
  unfold attach
  simp only
  split
  · exact Talks.refl m
  · rename_i hnot
    refine ⟨_, rfl, by simp, fun c => ?_⟩
    simp only [push, IndexMap.contains, IndexMap.get_insert]
    by_cases hc : c = IdGenerator.genTrackChannelId hasher m.room source.peer source.track
    · rw [IndexMap.contains, Bool.not_eq_true] at hnot
      simp [hc, hnot, subCommands_subAuto]
    · simp [hc, Ne.symm hc, subCommands_subAuto]

theorem detach_talks (hasher : Hasher) (m : ManualMixer Endpoint Feedback) (source : TrackSource) :
    Talks m (m.detach hasher source) := by
  unfold detach
  simp only
  split
  · rename_i hin
    refine ⟨_, rfl, by simp, fun c => ?_⟩
    simp only [push, IndexMap.contains, IndexMap.get_swapRemove]
    by_cases hc : c = IdGenerator.genTrackChannelId hasher m.room source.peer source.track
    · rw [IndexMap.contains] at hin
      simp [hc, hin, subCommands_unsubAuto]
    · simp [hc, Ne.symm hc, subCommands_unsubAuto]
  · exact Talks.refl m

theorem subCommands_unsubs {channels : List ChannelId} (hnodup : channels.Nodup) (c : ChannelId) :
    subCommands c (channels.map fun channelId =>
        (.pubsub ⟨channelId, .unsubAuto⟩ : Output Endpoint Feedback)) =
      if c ∈ channels then [.release] else [] := by
  induction channels with
  | nil => rfl
  | cons first rest ih =>
    rw [List.nodup_cons] at hnodup
    have hrest := ih hnodup.2
    rw [subCommands] at hrest ⊢
    rw [List.map_cons, List.filterMap_cons, hrest]
    by_cases hfirst : first = c
    · subst hfirst
      simp [subCommand, hnodup.1]
    · simp [subCommand, hfirst, Ne.symm hfirst]

theorem release_talks (m : ManualMixer Endpoint Feedback) : Talks m m.release := by
  have hnodup : m.sources.keys.Nodup := m.sources.nodupKeys
  refine ⟨_, rfl, by simp, fun c => ?_⟩
  rw [subCommands_unsubs hnodup]
  simp only [release, push, IndexMap.contains, IndexMap.get_empty, Option.isSome_none]
  by_cases hc : c ∈ m.sources.keys
  · obtain ⟨source, hsource⟩ := IndexMap.mem_keys_iff.mp hc
    rw [if_pos hc, hsource]
    rfl
  · rw [if_neg hc, IndexMap.get_eq_none_iff.mpr hc]
    rfl

/-- The commands of the queue, read from what was announced of each channel, alternate and
    lead to its being a source or not; the empty event is not among them. -/
structure Reports (announced : ChannelId → Bool) (m : ManualMixer Endpoint Feedback) : Prop where
  plain : .onResourceEmpty ∉ m.queue
  alternates : ∀ c, alternatesFrom (announced c) (subCommands c m.queue)
  held : ∀ c, heldFrom (announced c) (subCommands c m.queue) = m.sources.contains c

theorem reports_new (room : ClusterRoomHash) (endpoint : Endpoint) (outputs : List LocalTrackId) :
    Reports (fun _ => false) (new room endpoint outputs : ManualMixer Endpoint Feedback) :=
  ⟨List.not_mem_nil, fun _ => trivial, fun _ => rfl⟩

theorem Reports.talks {announced : ChannelId → Bool} {m m' : ManualMixer Endpoint Feedback}
    (h : Reports announced m) (htalks : Talks m m') : Reports announced m' := by
  obtain ⟨outputs, hqueue, hplain, hedge⟩ := htalks
  constructor
  · rw [hqueue, List.mem_append, not_or]
    exact ⟨h.plain, hplain⟩
  · intro c
    rw [hqueue, subCommands_append, alternatesFrom_append, h.held, hedge]
    exact ⟨h.alternates c, alternatesFrom_edge _ _⟩
  · intro c
    rw [hqueue, subCommands_append, heldFrom_append, h.held, hedge, heldFrom_edge]

theorem foldl_keeps {P : ManualMixer Endpoint Feedback → Prop}
    {f : ManualMixer Endpoint Feedback → TrackSource → ManualMixer Endpoint Feedback}
    (hstep : ∀ m source, P m → P (f m source)) (sources : List TrackSource)
    {m : ManualMixer Endpoint Feedback} (h : P m) : P (sources.foldl f m) := by
  induction sources generalizing m with
  | nil => exact h
  | cons source rest ih => exact ih (hstep m source h)

theorem attach_same (hasher : Hasher) (m : ManualMixer Endpoint Feedback) (source : TrackSource) :
    Same m (m.attach hasher source) ∧ (m.attach hasher source).mixer = m.mixer := by
  unfold attach
  simp only
  split
  · exact ⟨Same.refl m, rfl⟩
  · exact ⟨⟨rfl, rfl, rfl⟩, rfl⟩

theorem detach_same (hasher : Hasher) (m : ManualMixer Endpoint Feedback) (source : TrackSource) :
    Same m (m.detach hasher source) ∧ (m.detach hasher source).mixer = m.mixer := by
  unfold detach
  simp only
  split
  · exact ⟨⟨rfl, rfl, rfl⟩, rfl⟩
  · exact ⟨Same.refl m, rfl⟩

/-- What a packet of a source leaves as it was. -/
theorem onSourcePkt_talks {m m' : ManualMixer Endpoint Feedback} {now : Instant}
    {channel : ChannelId} {pkt : MediaPacket} (h : m.onSourcePkt now channel pkt = .ok m') :
    Same m m' ∧ Talks m m' ∧ m'.sources = m.sources := by
  have hnothing : Same m m ∧ Talks m m ∧ m.sources = m.sources := ⟨Same.refl m, Talks.refl m, rfl⟩
  unfold onSourcePkt at h
  split at h
  · obtain ⟨⟨mixer, routed⟩, hmixer, h⟩ := Except.bind_eq_ok.mp h
    cases routed with
    | none =>
      cases h
      exact ⟨⟨rfl, rfl, rfl⟩,
        talks_of_silent (List.append_nil _).symm rfl List.not_mem_nil fun _ => rfl, rfl⟩
    | some target =>
      obtain ⟨slot, justSet⟩ := target
      obtain ⟨outputs, houtputs, h⟩ := Except.bind_eq_ok.mp h
      cases h
      -- everything that is sent goes to the endpoint
      have hsent : .onResourceEmpty ∉ outputs ∧ ∀ c, subCommands c outputs = [] := by
        unfold sourceOutputs at houtputs
        split at houtputs
        · cases houtputs
        · simp only at houtputs
          split at houtputs
          · split at houtputs
            · cases houtputs
            · cases houtputs
              exact ⟨by simp [slotSetTo], fun c => rfl⟩
          · cases houtputs
            exact ⟨by simp, fun c => rfl⟩
      exact ⟨⟨rfl, rfl, rfl⟩, talks_of_silent rfl rfl hsent.1 hsent.2, rfl⟩
  · cases h
    exact hnothing

/-- The mixer keeps its identity and reports what it does to the channels. -/
structure Continues (m m' : ManualMixer Endpoint Feedback) : Prop where
  same : Same m m'
  reports : ∀ announced, Reports announced m → Reports announced m'

/-- **Events.** A mixer goes on after an event as it was. -/
theorem onEvent_eq_ok {hasher : Hasher} {codec : Bincode MediaPacket} {now : Instant}
    {input : Manual.Input} {m m' : ManualMixer Endpoint Feedback}
    (h : m.onEvent hasher codec now input = .ok m') : Continues m m' := by
  cases input with
  | attach sources =>
    cases h
    constructor
    · exact foldl_keeps (P := Same m)
        (fun m' source hm' => hm'.trans (attach_same hasher m' source).1) sources (Same.refl m)
    · intro announced hm
      exact foldl_keeps (P := Reports announced)
        (fun m' source hm' => hm'.talks (attach_talks hasher m' source)) sources hm
  | detach sources =>
    cases h
    constructor
    · exact foldl_keeps (P := Same m)
        (fun m' source hm' => hm'.trans (detach_same hasher m' source).1) sources (Same.refl m)
    · intro announced hm
      exact foldl_keeps (P := Reports announced)
        (fun m' source hm' => hm'.talks (detach_talks hasher m' source)) sources hm
  | pubsub channel source data =>
    simp only [onEvent] at h
    split at h
    · cases h
      exact ⟨Same.refl m, fun _ hm => hm⟩
    · obtain ⟨hsame, htalks, -⟩ := onSourcePkt_talks h
      exact ⟨hsame, fun announced hm => hm.talks htalks⟩
  | leaveRoom =>
    cases h
    exact ⟨⟨rfl, rfl, rfl⟩, fun announced hm => hm.talks (release_talks m)⟩

theorem onTick_eq_ok {now : Instant} {m m' : ManualMixer Endpoint Feedback}
    (h : m.onTick now = .ok m') : Same m m' ∧ Talks m m' ∧ m'.sources = m.sources := by
  obtain ⟨⟨mixer, removed⟩, -, h⟩ := Except.bind_eq_ok.mp h
  cases h
  refine ⟨⟨rfl, rfl, rfl⟩, talks_of_silent rfl rfl ?_ fun c => ?_, rfl⟩
  · simp [slotUnsetTo]
  · simp [subCommands, slotUnsetTo, subCommand]

/-- A popped output settles what it says of its channel. -/
theorem Reports.pop {announced announced' : ChannelId → Bool} {m : ManualMixer Endpoint Feedback}
    {out : Output Endpoint Feedback} {rest : List (Output Endpoint Feedback)}
    (h : Reports announced m) (hqueue : m.queue = out :: rest)
    (hnow : ∀ c, announced' c = heldFrom (announced c) (subCommands c [out])) :
    Reports announced' m.dropFront := by
  have hsplit : ∀ c, subCommands c m.queue = subCommands c [out] ++ subCommands c rest := by
    intro c
    rw [hqueue, ← List.singleton_append, subCommands_append]
  have hrest : m.dropFront.queue = rest := by
    rw [dropFront, hqueue]
    rfl
  constructor
  · intro hmem
    exact h.plain (List.mem_of_mem_tail hmem)
  · intro c
    have halt := h.alternates c
    rw [hsplit, alternatesFrom_append] at halt
    rw [hrest, hnow]
    exact halt.2
  · intro c
    have hheld := h.held c
    rw [hsplit, heldFrom_append] at hheld
    rw [hrest, hnow]
    exact hheld

/-! ### Channels a manual mixer has nothing to do with -/

/-- The channel is no source, and nothing is left to say about it. -/
structure Silent (c : ChannelId) (m : ManualMixer Endpoint Feedback) : Prop where
  sources : m.sources.contains c = false
  queue : subCommands c m.queue = []

theorem Silent.talks {c : ChannelId} {m m' : ManualMixer Endpoint Feedback} (h : Silent c m)
    (htalks : Talks m m') (hsources : m'.sources.contains c = false) : Silent c m' := by
  obtain ⟨outputs, hqueue, -, hedge⟩ := htalks
  refine ⟨hsources, ?_⟩
  rw [hqueue, subCommands_append, h.queue, hedge, h.sources, hsources]
  rfl

/-- Whether an event attaches a source with this channel. -/
def Attaches (hasher : Hasher) (room : ClusterRoomHash) (c : ChannelId) : Manual.Input → Prop
  | .attach sources =>
      ∃ source ∈ sources, IdGenerator.genTrackChannelId hasher room source.peer source.track = c
  | _ => False

instance (hasher : Hasher) (room : ClusterRoomHash) (c : ChannelId) :
    DecidablePred (Attaches hasher room c)
  | .attach sources => inferInstanceAs (Decidable (∃ source ∈ sources,
      IdGenerator.genTrackChannelId hasher room source.peer source.track = c))
  | .detach _ => .isFalse fun h => h
  | .pubsub _ _ _ => .isFalse fun h => h
  | .leaveRoom => .isFalse fun h => h

theorem Silent.attach {hasher : Hasher} {c : ChannelId} {m : ManualMixer Endpoint Feedback}
    (h : Silent c m) {source : TrackSource}
    (hne : IdGenerator.genTrackChannelId hasher m.room source.peer source.track ≠ c) :
    Silent c (m.attach hasher source) := by
  refine h.talks (attach_talks hasher m source) ?_
  have hsources := h.sources
  unfold ManualMixer.attach
  simp only
  split
  · exact hsources
  · rw [IndexMap.contains] at hsources ⊢
    simp only [push, IndexMap.get_insert, if_neg (Ne.symm hne)]
    exact hsources

theorem Silent.detach {c : ChannelId} {m : ManualMixer Endpoint Feedback} (h : Silent c m)
    (hasher : Hasher) (source : TrackSource) : Silent c (m.detach hasher source) := by
  refine h.talks (detach_talks hasher m source) ?_
  have hsources := h.sources
  unfold ManualMixer.detach
  simp only
  split
  · rw [IndexMap.contains] at hsources ⊢
    simp only [push, IndexMap.get_swapRemove]
    split
    · rfl
    · exact hsources
  · exact hsources

theorem Silent.onEvent {hasher : Hasher} {codec : Bincode MediaPacket} {now : Instant}
    {input : Manual.Input} {c : ChannelId} {m m' : ManualMixer Endpoint Feedback}
    (h : Silent c m) (hok : m.onEvent hasher codec now input = .ok m')
    (hattach : ¬ Attaches hasher m.room c input) : Silent c m' := by
  cases input with
  | attach sources =>
    cases hok
    -- the room of the mixer stays the same along the loop
    have hall : ∀ (sources : List TrackSource) (m : ManualMixer Endpoint Feedback), Silent c m →
        ¬ Attaches hasher m.room c (.attach sources) →
        Silent c (sources.foldl (ManualMixer.attach hasher) m) := by
      intro sources
      induction sources with
      | nil => exact fun m hm _ => hm
      | cons source rest ih =>
        intro m hm hnot
        refine ih _ (hm.attach fun heq => hnot ⟨source, List.mem_cons_self .., heq⟩) ?_
        rintro ⟨other, hmem, heq⟩
        rw [(attach_same hasher m source).1.room] at heq
        exact hnot ⟨other, List.mem_cons_of_mem _ hmem, heq⟩
    exact hall sources m h hattach
  | detach sources =>
    cases hok
    exact foldl_keeps (P := Silent c) (fun m' source hm' => hm'.detach hasher source) sources h
  | pubsub channel source data =>
    simp only [ManualMixer.onEvent] at hok
    split at hok
    · cases hok
      exact h
    · obtain ⟨-, htalks, hsources⟩ := onSourcePkt_talks hok
      exact h.talks htalks (hsources ▸ h.sources)
  | leaveRoom =>
    cases hok
    exact h.talks (release_talks m) rfl

theorem Silent.onTick {now : Instant} {c : ChannelId} {m m' : ManualMixer Endpoint Feedback}
    (h : Silent c m) (hok : m.onTick now = .ok m') : Silent c m' := by
  obtain ⟨-, htalks, hsources⟩ := onTick_eq_ok hok
  exact h.talks htalks (hsources ▸ h.sources)

theorem Silent.dropFront {c : ChannelId} {m : ManualMixer Endpoint Feedback} (h : Silent c m) :
    Silent c m.dropFront := by
  refine ⟨h.sources, ?_⟩
  have hqueue := h.queue
  rw [subCommands, List.filterMap_eq_nil_iff] at hqueue ⊢
  intro out hmem
  exact hqueue out (List.mem_of_mem_tail hmem)

/-! ### Absence of panics -/

structure Sound (m : ManualMixer Endpoint Feedback) : Prop where
  wellFormed : m.mixer.WellFormed
  outputs : m.mixer.outputs.length = m.outputs.length

theorem sound_new (room : ClusterRoomHash) (endpoint : Endpoint) (outputs : List LocalTrackId) :
    (new room endpoint outputs : ManualMixer Endpoint Feedback).Sound :=
  ⟨AudioMixer.wellFormed_new _, List.length_replicate⟩

theorem Sound.congr {m m' : ManualMixer Endpoint Feedback} (h : m.Sound)
    (hmixer : m'.mixer = m.mixer) (hsame : Same m m') : m'.Sound := by
  constructor
  · rw [hmixer]
    exact h.wellFormed
  · rw [hmixer, hsame.outputs]
    exact h.outputs

theorem Sound.onTick {m : ManualMixer Endpoint Feedback} (h : m.Sound) (now : Instant) :
    ∃ m', m.onTick now = .ok m' ∧ m'.Sound := by
  obtain ⟨mixer, cleared, hmixer, hwell, hlength, -, -⟩ := h.wellFormed.onTick now
  simp only [ManualMixer.onTick, hmixer, bind, Except.bind]
  exact ⟨_, rfl, hwell, hlength.trans h.outputs⟩

/-- A packet of a source that is attached to a mixer with an output does not panic. -/
theorem Sound.onSourcePkt {m : ManualMixer Endpoint Feedback} (h : m.Sound)
    (houtputs : m.outputs ≠ []) {channel : ChannelId} (hsource : m.sources.contains channel)
    (now : Instant) (pkt : MediaPacket) :
    ∃ m', m.onSourcePkt now channel pkt = .ok m' ∧ m'.Sound := by
  obtain ⟨info, hinfo⟩ := Option.isSome_iff_exists.mp hsource
  unfold ManualMixer.onSourcePkt
  split
  · rename_i level hmeta
    have hpos : 0 < m.mixer.outputs.length := by
      rw [h.outputs]
      exact List.length_pos_iff.mpr houtputs
    obtain ⟨mixer, routed, hmixer, hwell, hrouted⟩ := h.wellFormed.onPkt hpos now channel level
    have hlength := hrouted.length_eq.trans h.outputs
    simp only [hmixer, bind, Except.bind]
    cases routed with
    | none => exact ⟨_, rfl, hwell, hlength⟩
    | some target =>
      obtain ⟨slot, justSet⟩ := target
      have hlt : slot < m.outputs.length := by
        rw [← h.outputs]
        cases hrouted with
        | kept hsame hholder =>
          obtain ⟨out, hout, -⟩ := Option.map_eq_some_iff.mp hholder
          exact lt_length_of_slotAt hout
        | taken level hlt hnew hset => exact hlt
      obtain ⟨outputs, hsent⟩ :
          ∃ outputs, m.sourceOutputs channel pkt slot justSet = .ok outputs := by
        unfold sourceOutputs
        rw [List.getElem?_eq_getElem hlt]
        simp only [hinfo]
        split
        · exact ⟨_, rfl⟩
        · exact ⟨_, rfl⟩
      simp only [hsent]
      exact ⟨_, rfl, hwell, hlength⟩
  · exact ⟨m, rfl, h⟩

/-- What an event must not meet: a packet for a channel that is not a source any more, or
    for a mixer without outputs. -/
def Expects (m : ManualMixer Endpoint Feedback) : Manual.Input → Prop
  | .pubsub channel _ _ => m.outputs ≠ [] ∧ m.sources.contains channel
  | _ => True

theorem Sound.onEvent {m : ManualMixer Endpoint Feedback} (h : m.Sound) {input : Manual.Input}
    (hexpects : m.Expects input) (hasher : Hasher) (codec : Bincode MediaPacket) (now : Instant) :
    ∃ m', m.onEvent hasher codec now input = .ok m' ∧ m'.Sound := by
  cases input with
  | attach sources =>
    refine ⟨_, rfl, foldl_keeps (P := Sound) (fun m' source hm' => ?_) sources h⟩
    obtain ⟨hsame, hmixer⟩ := attach_same hasher m' source
    exact hm'.congr hmixer hsame
  | detach sources =>
    refine ⟨_, rfl, foldl_keeps (P := Sound) (fun m' source hm' => ?_) sources h⟩
    obtain ⟨hsame, hmixer⟩ := detach_same hasher m' source
    exact hm'.congr hmixer hsame
  | pubsub channel source data =>
    unfold ManualMixer.onEvent
    simp only
    split
    · exact ⟨m, rfl, h⟩
    · exact h.onSourcePkt hexpects.1 hexpects.2 now _
  | leaveRoom => exact ⟨_, rfl, h.wellFormed, h.outputs⟩

end ManualMixer

end MediaServer.RoomMixer
