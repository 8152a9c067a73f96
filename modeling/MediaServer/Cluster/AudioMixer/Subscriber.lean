import MediaServer.Cluster.AudioMixer.Publisher
import MediaServer.Cluster.MediaTrack.Subscriber

/-!
# Subscriber of the room's audio mixer

`media_core/src/cluster/room/audio_mixer/subscriber.rs`.  All endpoints that mix
automatically into the same number of tracks share one mixer, whose sources are the
upstream slots of all nodes.  What the mixer forwards goes to every endpoint but the
speaker's own, on the endpoint's track for that output.

`outputs` has an entry for every occupied output of the mixer; the entry knows the
speaker once a packet told who it is.
-/

namespace MediaServer.RoomMixer

open Collections Slots Machine Pubsub

structure EndpointSlot where
  peer : PeerHashCode
  tracks : List LocalTrackId

/-- An occupied output and its speaker, as far as it is known. -/
structure OutputSource where
  source : Option (PeerId × TrackName)

structure AudioMixerSubscriber (Endpoint Feedback : Type) where
  channelId : ChannelId
  queue : List (Output Endpoint Feedback)
  endpoints : IndexMap Endpoint EndpointSlot
  outputs : List (Option OutputSource)
  mixer : AudioMixer (NodeId × UInt8)

variable {Endpoint Feedback : Type}

/-- A slot event to one endpoint. -/
def slotSetTo (endpoint : Endpoint) (slot : Nat) (source : PeerId × TrackName) :
    Output Endpoint Feedback :=
  .endpoint [endpoint] (.audioMixer (.slotSet slot.toUInt8 source.1 source.2))

def slotUnsetTo (endpoint : Endpoint) (slot : Nat) : Output Endpoint Feedback :=
  .endpoint [endpoint] (.audioMixer (.slotUnset slot.toUInt8))

namespace AudioMixerSubscriber

/-- `OUTPUTS` is the constant parameter of the source. -/
def new (OUTPUTS : Nat) (channelId : ChannelId) : AudioMixerSubscriber Endpoint Feedback :=
  ⟨channelId, [], ∅, List.replicate OUTPUTS none, AudioMixer.new OUTPUTS⟩

def isEmpty (s : AudioMixerSubscriber Endpoint Feedback) : Bool :=
  s.queue.isEmpty && s.endpoints.isEmpty

def onTick (s : AudioMixerSubscriber Endpoint Feedback) (now : Instant) :
    Except Panic (AudioMixerSubscriber Endpoint Feedback) := do
  let (mixer, removed) ← s.mixer.onTick now
  let outputs ← clearSlots (removed.getD []) s.outputs
  let unset := (removed.getD []).flatMap fun slot =>
    s.endpoints.keys.map fun endpoint => slotUnsetTo endpoint slot
  .ok { s with mixer, outputs, queue := s.queue ++ unset }

/-- The speakers known so far, with their slots. -/
def knownSources (outputs : List (Option OutputSource)) : List (Nat × PeerId × TrackName) :=
  outputs.zipIdx.filterMap fun (state, slot) =>
    (state.bind OutputSource.source).map fun source => (slot, source)

/-- A slot that a source has just taken waits for the packet that tells who it is. -/
def resetSlot (outputs : List (Option OutputSource)) (slot : Nat) (justSet : Bool) :
    Except Panic (List (Option OutputSource)) :=
  if justSet then setSlot outputs slot (some ⟨none⟩) else .ok outputs

/-- The outputs after a packet was forwarded on a slot, and the speaker to announce. -/
def announce (outputs : List (Option OutputSource)) (slot : Nat) :
    Option (PeerId × TrackName) →
    Except Panic (List (Option OutputSource) × Option (PeerId × TrackName))
  | none => .ok (outputs, none)
  | some source =>
      match slotAt outputs slot with
      | none => .error ⟨"Output slot not found"⟩
      | some state =>
          match state.source with
          | some _ => .ok (outputs, none)
          | none => do
              let outputs ← setSlot outputs slot (some ⟨some source⟩)
              .ok (outputs, some source)

/-- What an endpoint gets on its track. -/
def mediaTo (endpoint : Endpoint) (trackId : LocalTrackId) (audio : AudioMixerPkt) :
    Output Endpoint Feedback :=
  .endpoint [endpoint] (.localTrack trackId
    (.media ((audio.peer <<< 16) ||| audio.track.toUInt64)
      { ts := audio.ts, seq := audio.seq, marker := false, nackable := false, layers := none
        mediaMeta := .opus audio.audioLevel, data := audio.opusPayload }))

/-- The last loop of `on_channel_data`. -/
def forward (audio : AudioMixerPkt) (slot : Nat) (justSet : Bool) :
    List (Endpoint × EndpointSlot) → Except Panic (List (Output Endpoint Feedback))
  | [] => .ok []
  | (endpoint, endpointSlot) :: rest =>
      if endpointSlot.peer ≠ audio.peer then
        match endpointSlot.tracks[slot]? with
        | none => .error ⟨"index out of bounds"⟩
        | some trackId => do
            let later ← forward audio slot justSet rest
            let changed :=
              if justSet then [.endpoint [endpoint] (.localTrack trackId .sourceChanged)] else []
            .ok (changed ++ [mediaTo endpoint trackId audio] ++ later)
      else forward audio slot justSet rest

def onChannelData (codec : Bincode AudioMixerPkt) (s : AudioMixerSubscriber Endpoint Feedback)
    (now : Instant) (source : NodeId) (pkt : Bytes) :
    Except Panic (AudioMixerSubscriber Endpoint Feedback) :=
  if s.endpoints.isEmpty then .ok s
  else
    match codec.deserialize pkt with
    | none => .ok s
    | some audio => do
        let (mixer, routed) ← s.mixer.onPkt now (source, audio.slot) audio.audioLevel
        match routed with
        | none => .ok { s with mixer }
        | some (slot, justSet) => do
            let outputs ← resetSlot s.outputs slot justSet
            let (outputs, announced) ← announce outputs slot audio.source
            let told := announced.toList.flatMap fun source =>
              s.endpoints.keys.map fun endpoint => slotSetTo endpoint slot source
            let forwarded ← forward audio slot justSet s.endpoints.entries
            .ok { s with mixer, outputs, queue := s.queue ++ (told ++ forwarded) }

variable [DecidableEq Endpoint]

def onEndpointJoin (hasher : Hasher) (s : AudioMixerSubscriber Endpoint Feedback)
    (endpoint : Endpoint) (peer : PeerId) (tracks : List LocalTrackId) :
    Except Panic (AudioMixerSubscriber Endpoint Feedback) :=
  if s.endpoints.contains endpoint then
    .error ⟨"assertion failed: !self.endpoints.contains_key(&endpoint)"⟩
  else
    let sub := if s.endpoints.isEmpty then [.pubsub ⟨s.channelId, .subAuto⟩] else []
    let restore := (knownSources s.outputs).map fun (slot, source) => slotSetTo endpoint slot source
    .ok { s with
      endpoints := s.endpoints.insert endpoint ⟨hashCode hasher peer, tracks⟩
      queue := s.queue ++ (sub ++ restore) }

def onEndpointLeave (s : AudioMixerSubscriber Endpoint Feedback) (endpoint : Endpoint) :
    Except Panic (AudioMixerSubscriber Endpoint Feedback) :=
  if s.endpoints.contains endpoint then
    let endpoints := s.endpoints.swapRemove endpoint
    let unsub := if endpoints.isEmpty then [.pubsub ⟨s.channelId, .unsubAuto⟩] else []
    .ok { s with endpoints, queue := s.queue ++ unsub }
  else .error ⟨"assertion failed: self.endpoints.contains_key(&endpoint)"⟩

/-! ### The outputs follow the outputs of the mixer -/

structure Sound (n : Nat) (s : AudioMixerSubscriber Endpoint Feedback) : Prop where
  wellFormed : s.mixer.WellFormed
  outputs : s.mixer.outputs.length = n
  aligned : Aligned s.mixer.outputs s.outputs
  tracks : ∀ endpoint slot, s.endpoints.get endpoint = some slot → slot.tracks.length = n

variable {n : Nat} {s : AudioMixerSubscriber Endpoint Feedback}

theorem sound_new (n : Nat) (channelId : ChannelId) :
    Sound n (new n channelId : AudioMixerSubscriber Endpoint Feedback) where
  wellFormed := AudioMixer.wellFormed_new n
  outputs := List.length_replicate
  aligned := aligned_replicate n
  tracks endpoint slot hget := by simp [new] at hget

/-- What the mixer and its outputs are is not touched by calls about endpoints. -/
theorem Sound.withEndpoints (h : Sound n s) {endpoints : IndexMap Endpoint EndpointSlot}
    (htracks : ∀ endpoint slot, endpoints.get endpoint = some slot → slot.tracks.length = n)
    (queue : List (Output Endpoint Feedback)) : Sound n { s with endpoints, queue } :=
  ⟨h.wellFormed, h.outputs, h.aligned, htracks⟩

theorem Sound.onTick (h : Sound n s) (now : Instant) :
    ∃ (mixer : AudioMixer (NodeId × UInt8)) (outputs : List (Option OutputSource))
        (cleared : List Nat), s.onTick now = .ok { s with
        mixer, outputs
        queue := s.queue ++ cleared.flatMap fun slot =>
          s.endpoints.keys.map fun endpoint => slotUnsetTo endpoint slot } ∧
      (∀ queue : List (Output Endpoint Feedback), Sound n { s with mixer, outputs, queue }) ∧
      (∀ slot, slotAt outputs slot = if slot ∈ cleared then none else slotAt s.outputs slot) ∧
      (∀ slot, slotAt mixer.outputs slot =
        if slot ∈ cleared then none else slotAt s.mixer.outputs slot) ∧
      cleared.Nodup ∧ ∀ slot ∈ cleared, (slotAt s.mixer.outputs slot).isSome := by
  obtain ⟨mixer, cleared, hmixer, hwell, hlength, hnodup, hheld, hat⟩ :=
    h.wellFormed.onTick_frees now
  have hsome : ∀ slot ∈ cleared, (slotAt s.mixer.outputs slot).isSome := by
    intro slot hmem
    rw [← Option.isSome_map]
    exact hheld slot hmem
  have hlt' : ∀ slot ∈ cleared, slot < s.outputs.length := by
    intro slot hmem
    obtain ⟨out, hout⟩ := Option.isSome_iff_exists.mp (hsome slot hmem)
    rw [h.aligned.length_eq]
    exact lt_length_of_slotAt hout
  obtain ⟨outputs, houtputs, hlength', hat'⟩ := clearSlots_ok hlt'
  have hremoved : (if cleared.isEmpty then none else some cleared).getD [] = cleared := by
    cases cleared with
    | nil => rfl
    | cons first rest => rfl
  refine ⟨mixer, outputs, cleared, ?_, fun queue => ?_, hat', hat, hnodup, hsome⟩
  · simp only [AudioMixerSubscriber.onTick, hmixer, bind, Except.bind, hremoved, houtputs]
  · exact ⟨hwell, hlength.trans h.outputs, h.aligned.clear hlength hlength' hat hat', h.tracks⟩

omit [DecidableEq Endpoint] in
/-- Endpoints with a track for the output are served without a panic. -/
theorem forward_ok (audio : AudioMixerPkt) {slot : Nat} (justSet : Bool)
    {entries : List (Endpoint × EndpointSlot)}
    (hlt : ∀ entry ∈ entries, slot < entry.2.tracks.length) :
    ∃ outputs : List (Output Endpoint Feedback), forward audio slot justSet entries = .ok outputs := by
  induction entries with
  | nil => exact ⟨[], rfl⟩
  | cons entry rest ih =>
    obtain ⟨endpoint, endpointSlot⟩ := entry
    have hhere : slot < endpointSlot.tracks.length := hlt _ (List.mem_cons_self ..)
    obtain ⟨later, hlater⟩ := ih fun entry hmem => hlt entry (List.mem_cons_of_mem _ hmem)
    simp only [forward]
    split
    · rw [List.getElem?_eq_getElem hhere, hlater]
      exact ⟨_, rfl⟩
    · exact ⟨later, hlater⟩

omit [DecidableEq Endpoint] in
/-- What is sent of a packet goes to an endpoint, on its track for the output. -/
theorem forward_mem {audio : AudioMixerPkt} {slot : Nat} {justSet : Bool}
    {entries : List (Endpoint × EndpointSlot)} {outputs : List (Output Endpoint Feedback)}
    (h : forward audio slot justSet entries = .ok outputs) {out : Output Endpoint Feedback}
    (hmem : out ∈ outputs) :
    ∃ entry ∈ entries, ∃ trackId event, entry.2.tracks[slot]? = some trackId ∧
      out = .endpoint [entry.1] (.localTrack trackId event) := by
  induction entries generalizing outputs with
  | nil =>
    cases h
    cases hmem
  | cons entry rest ih =>
    have hlater : ∀ later, forward audio slot justSet rest = .ok later → out ∈ later →
        ∃ other ∈ entry :: rest, ∃ trackId event, other.2.tracks[slot]? = some trackId ∧
          out = .endpoint [other.1] (.localTrack trackId event) := by
      intro later hlater hmem
      obtain ⟨other, hother, hout⟩ := ih hlater hmem
      exact ⟨other, List.mem_cons_of_mem _ hother, hout⟩
    obtain ⟨endpoint, endpointSlot⟩ := entry
    simp only [forward] at h
    split at h
    · cases htrack : endpointSlot.tracks[slot]? with
      | none =>
        rw [htrack] at h
        cases h
      | some trackId =>
        rw [htrack] at h
        obtain ⟨later, hok, h⟩ := Except.bind_eq_ok.mp h
        cases h
        simp only [List.append_assoc, List.mem_append, List.mem_singleton] at hmem
        rcases hmem with hchanged | rfl | hmem
        · cases justSet with
          | true =>
            rw [if_pos rfl, List.mem_singleton] at hchanged
            exact ⟨_, List.mem_cons_self .., _, _, htrack, hchanged⟩
          | false => simp at hchanged
        · exact ⟨_, List.mem_cons_self .., _, _, htrack, rfl⟩
        · exact hlater later hok hmem
    · exact hlater outputs h hmem

/-- The speaker that an output is known by once a packet was forwarded on it. -/
def knownAfter (s : AudioMixerSubscriber Endpoint Feedback) (slot : Nat) (justSet : Bool) :
    Option (PeerId × TrackName) :=
  if justSet then none else (slotAt s.outputs slot).bind OutputSource.source

/-- What a packet of a node does to the subscriber. -/
inductive Heard (codec : Bincode AudioMixerPkt) (s : AudioMixerSubscriber Endpoint Feedback)
    (now : Instant) (source : NodeId) (pkt : Bytes) :
    AudioMixerSubscriber Endpoint Feedback → Prop
  | ignored : (s.endpoints.isEmpty = true ∨ codec.deserialize pkt = none) →
      Heard codec s now source pkt s
  | dropped (audio : AudioMixerPkt) (mixer : AudioMixer (NodeId × UInt8)) :
      s.endpoints.isEmpty = false → codec.deserialize pkt = some audio →
      s.mixer.onPkt now (source, audio.slot) audio.audioLevel = .ok (mixer, none) →
      s.mixer.Routed mixer (source, audio.slot) none →
      Heard codec s now source pkt { s with mixer }
  | forwarded (audio : AudioMixerPkt) (mixer : AudioMixer (NodeId × UInt8))
      (slot : Nat) (justSet : Bool) (outputs : List (Option OutputSource))
      (sent : List (Output Endpoint Feedback)) :
      s.endpoints.isEmpty = false → codec.deserialize pkt = some audio →
      s.mixer.onPkt now (source, audio.slot) audio.audioLevel =
        .ok (mixer, some (slot, justSet)) →
      s.mixer.Routed mixer (source, audio.slot) (some (slot, justSet)) →
      (∀ k, slotAt outputs k = if k = slot
        then some ⟨(s.knownAfter slot justSet).or audio.source⟩ else slotAt s.outputs k) →
      (forward audio slot justSet s.endpoints.entries = .ok sent) →
      Heard codec s now source pkt { s with
        mixer, outputs
        queue := s.queue ++ ((if (s.knownAfter slot justSet).isNone then
            audio.source.toList.flatMap fun source =>
              s.endpoints.keys.map fun endpoint => slotSetTo endpoint slot source
          else []) ++ sent) }

omit [DecidableEq Endpoint] in
/-- The speaker of an output becomes known once, by the first packet that tells. -/
theorem announce_ok {outputs : List (Option OutputSource)} {slot : Nat} {state : OutputSource}
    (hat : slotAt outputs slot = some state) (source : Option (PeerId × TrackName)) :
    ∃ outputs', announce outputs slot source =
        .ok (outputs', if state.source.isNone then source else none) ∧
      outputs'.length = outputs.length ∧
      ∀ k, slotAt outputs' k =
        if k = slot then some ⟨state.source.or source⟩ else slotAt outputs k := by
  have hlt := lt_length_of_slotAt hat
  have hsame : ∀ k, slotAt outputs k = if k = slot then some state else slotAt outputs k := by
    intro k
    by_cases hk : k = slot
    · rw [if_pos hk, hk, hat]
    · rw [if_neg hk]
  cases source with
  | none =>
    refine ⟨outputs, ?_, rfl, fun k => ?_⟩
    · rw [ite_self]
      rfl
    · rw [Option.or_none]
      exact hsame k
  | some source =>
    simp only [announce, hat]
    cases hsource : state.source with
    | some known =>
      refine ⟨outputs, rfl, rfl, fun k => ?_⟩
      rw [Option.some_or, ← hsource]
      exact hsame k
    | none =>
      refine ⟨outputs.set slot (some ⟨some source⟩), ?_, List.length_set, fun k => ?_⟩
      · rw [setSlot_ok hlt]
        rfl
      · rw [slotAt_set hlt, Option.none_or]

/-- What `on_channel_data` finds in the outputs it is about to announce on. -/
theorem Sound.reset (h : Sound n s) {mixer : AudioMixer (NodeId × UInt8)}
    {source : NodeId × UInt8} {slot : Nat} {justSet : Bool}
    (hrouted : s.mixer.Routed mixer source (some (slot, justSet))) :
    ∃ outputs, resetSlot s.outputs slot justSet = .ok outputs ∧
      Aligned mixer.outputs outputs ∧
      slotAt outputs slot = some ⟨s.knownAfter slot justSet⟩ ∧
      ∀ k, k ≠ slot → slotAt outputs k = slotAt s.outputs k := by
  cases hrouted with
  | kept hsame hholder =>
    have hsome : (slotAt s.mixer.outputs slot).isSome := by
      obtain ⟨out, hout, -⟩ := Option.map_eq_some_iff.mp hholder
      rw [hout]
      rfl
    have hslot := h.aligned.occupied slot
    rw [hsome] at hslot
    obtain ⟨state, hstate⟩ := Option.isSome_iff_exists.mp hslot
    refine ⟨s.outputs, rfl, ?_, ?_, fun k _ => rfl⟩
    · rw [hsame]
      exact h.aligned
    · rw [hstate, knownAfter, if_neg Bool.false_ne_true, hstate]
      rfl
  | taken level hlt hnew hset =>
    have hlt' : slot < s.outputs.length := by
      rw [h.aligned.length_eq]
      exact hlt
    refine ⟨s.outputs.set slot (some ⟨none⟩), ?_, ?_, ?_, fun k hk => ?_⟩
    · rw [resetSlot, if_pos rfl, setSlot_ok hlt']
    · rw [hset]
      exact h.aligned.set hlt _ _
    · rw [slotAt_set hlt', if_pos rfl]
      rfl
    · rw [slotAt_set hlt', if_neg hk]

/-- **Packets.** A packet of a node does not panic; it is ignored, dropped by the mixer
    or forwarded. -/
theorem Sound.onChannelData (h : Sound n s) (hn : 0 < n) (codec : Bincode AudioMixerPkt)
    (now : Instant) (source : NodeId) (pkt : Bytes) :
    ∃ s', s.onChannelData codec now source pkt = .ok s' ∧ Sound n s' ∧
      Heard codec s now source pkt s' := by
  unfold AudioMixerSubscriber.onChannelData
  cases hempty : s.endpoints.isEmpty with
  | true => exact ⟨s, rfl, h, .ignored (Or.inl hempty)⟩
  | false =>
    rw [if_neg Bool.false_ne_true]
    cases hpkt : codec.deserialize pkt with
    | none => exact ⟨s, rfl, h, .ignored (Or.inr hpkt)⟩
    | some audio =>
      have hpos : 0 < s.mixer.outputs.length := h.outputs.symm ▸ hn
      obtain ⟨mixer, routed, hmixer, hwell, hrouted⟩ :=
        h.wellFormed.onPkt hpos now (source, audio.slot) audio.audioLevel
      have hlength := hrouted.length_eq.trans h.outputs
      simp only [hmixer, bind, Except.bind]
      cases routed with
      | none =>
        refine ⟨_, rfl, ⟨hwell, hlength, ?_, h.tracks⟩, .dropped audio mixer hempty hpkt hmixer hrouted⟩
        cases hrouted with
        | dropped hsame _ =>
          rw [hsame]
          exact h.aligned
      | some target =>
        obtain ⟨slot, justSet⟩ := target
        obtain ⟨reset, hreset, haligned, hat, hothers⟩ := h.reset hrouted
        obtain ⟨outputs, houtputs, hlen, hafter⟩ := announce_ok hat audio.source
        have hslot : (slotAt mixer.outputs slot).isSome := by
          rw [← haligned.occupied slot, hat]
          rfl
        obtain ⟨state, hstate⟩ := Option.isSome_iff_exists.mp hslot
        have hlt : ∀ entry ∈ s.endpoints.entries, slot < entry.2.tracks.length := by
          intro entry hmem
          rw [h.tracks entry.1 entry.2 (IndexMap.get_eq_some_iff.mpr hmem), ← hlength]
          exact lt_length_of_slotAt hstate
        obtain ⟨sent, hsent⟩ := @forward_ok Endpoint Feedback audio slot justSet _ hlt
        have hk : ∀ k, slotAt outputs k = if k = slot
            then some ⟨(s.knownAfter slot justSet).or audio.source⟩ else slotAt s.outputs k := by
          intro k
          rw [hafter]
          by_cases hk : k = slot
          · rw [if_pos hk, if_pos hk]
          · rw [if_neg hk, if_neg hk, hothers k hk]
        have halign : Aligned mixer.outputs outputs := by
          refine ⟨hlen.trans haligned.length_eq, fun k => ?_⟩
          rw [hafter]
          by_cases hk : k = slot
          · rw [if_pos hk, hk, hslot]
            rfl
          · rw [if_neg hk]
            exact haligned.occupied k
        have hheard :=
          Heard.forwarded audio mixer slot justSet outputs sent hempty hpkt hmixer hrouted hk hsent
        refine ⟨_, ?_, ?_, hheard⟩
        · simp only [hreset, houtputs, hsent]
          cases (s.knownAfter slot justSet).isNone with
          | true => rfl
          | false => rfl
        · exact ⟨hwell, hlength, halign, h.tracks⟩

/-- A call that is not about endpoints: only endpoints are told something, and nobody is
    if there is none. -/
structure Quiet (s s' : AudioMixerSubscriber Endpoint Feedback) : Prop where
  channelId : s'.channelId = s.channelId
  endpoints : s'.endpoints = s.endpoints
  queue : ∃ outputs, s'.queue = s.queue ++ outputs ∧
    (∀ out ∈ outputs, ∃ endpoints event, out = .endpoint endpoints event) ∧
    (s.endpoints.isEmpty = true → outputs = [])

omit [DecidableEq Endpoint] in
theorem Quiet.refl (s : AudioMixerSubscriber Endpoint Feedback) : Quiet s s :=
  ⟨rfl, rfl, [], (List.append_nil _).symm, by simp, fun _ => rfl⟩

theorem Sound.onTick_quiet (h : Sound n s) (now : Instant) :
    ∃ s', s.onTick now = .ok s' ∧ Sound n s' ∧ Quiet s s' := by
  obtain ⟨mixer, outputs, cleared, hs', hsound, -, -, -, -⟩ := h.onTick now
  refine ⟨_, hs', hsound _, rfl, rfl, _, rfl, ?_, ?_⟩
  · intro out hmem
    obtain ⟨slot, -, hmem⟩ := List.mem_flatMap.mp hmem
    obtain ⟨endpoint, -, rfl⟩ := List.mem_map.mp hmem
    exact ⟨_, _, rfl⟩
  · intro hempty
    have hkeys : s.endpoints.keys = [] := by
      rw [IndexMap.keys, List.isEmpty_iff.mp hempty, List.map_nil]
    simp [hkeys]

omit [DecidableEq Endpoint] in
theorem Heard.quiet {codec : Bincode AudioMixerPkt} {now : Instant} {source : NodeId} {pkt : Bytes}
    {s' : AudioMixerSubscriber Endpoint Feedback} (h : Heard codec s now source pkt s') :
    Quiet s s' := by
  cases h with
  | ignored _ => exact Quiet.refl s
  | dropped audio mixer _ _ _ _ =>
    exact ⟨rfl, rfl, [], (List.append_nil _).symm, by simp, fun _ => rfl⟩
  | forwarded audio mixer slot justSet outputs sent hempty hpkt hmixer hrouted hat hsent =>
    refine ⟨rfl, rfl, _, rfl, ?_, fun htrue => absurd htrue (by simp [hempty])⟩
    intro out hmem
    rcases List.mem_append.mp hmem with htold | hforwarded
    · split at htold
      · obtain ⟨who, -, htold⟩ := List.mem_flatMap.mp htold
        obtain ⟨endpoint, -, rfl⟩ := List.mem_map.mp htold
        exact ⟨_, _, rfl⟩
      · cases htold
    · obtain ⟨entry, -, trackId, event, -, rfl⟩ := forward_mem hsent hforwarded
      exact ⟨_, _, rfl⟩

theorem Sound.onChannelData_quiet (h : Sound n s) (hn : 0 < n) (codec : Bincode AudioMixerPkt)
    (now : Instant) (source : NodeId) (pkt : Bytes) :
    ∃ s', s.onChannelData codec now source pkt = .ok s' ∧ Sound n s' ∧ Quiet s s' := by
  obtain ⟨s', hs', hsound, hheard⟩ := h.onChannelData hn codec now source pkt
  exact ⟨s', hs', hsound, hheard.quiet⟩

end AudioMixerSubscriber

end MediaServer.RoomMixer
