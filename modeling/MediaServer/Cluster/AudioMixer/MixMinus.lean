import MediaServer.Cluster.AudioMixer.Announcements
import MediaServer.Lib.Execution

/-!
# What the endpoints of a mixer hear

A subscriber keeps a table of the outputs of its mixer, with the speaker of each as far as it is
known, and forwards what the mixer selects to every endpoint but those of the speaker's own peer.

The table is a second copy of what the mixer holds.  `Mirrors` says that the two agree, and who is
known on an output: whoever the packets of its holder named first.  Under it no call fails except
by the assertions on endpoints that join or leave twice.
-/

namespace MediaServer.RoomMixer

open Collections Slots Machine Pubsub Execution

namespace MixMinus

open Announcements (Speaker routeOf mem_knownSources pktCodec)

variable {Endpoint Feedback : Type} {n : Nat}

/-- The calls of a subscriber with `n` outputs; whoever joins brings a track for each. -/
inductive Call (Endpoint : Type) (n : Nat) where
  | tick (now : Instant)
  | data (now : Instant) (source : NodeId) (pkt : Bytes)
  | join (endpoint : Endpoint) (peer : PeerId)
      (tracks : { tracks : List LocalTrackId // tracks.length = n })
  | leave (endpoint : Endpoint)
  | pop

/-- A subscriber, with the speaker that the packets of the holder of an output named first. -/
structure Mix (Endpoint Feedback : Type) where
  subscriber : AudioMixerSubscriber Endpoint Feedback
  named : Nat → Option Speaker

/-- The packet that the mixer selects, with its output and whether its source has just taken it;
    a subscriber without endpoints does not look at packets. -/
def selected (codec : Bincode AudioMixerPkt) (s : AudioMixerSubscriber Endpoint Feedback)
    (now : Instant) (source : NodeId) (pkt : Bytes) : Option (AudioMixerPkt × Nat × Bool) :=
  if s.endpoints.isEmpty then none
  else (codec.deserialize pkt).bind fun audio => (routeOf s now source audio).map (audio, ·)

/-- A new holder starts over; of the others the first name counts. -/
def namedAfter (named : Nat → Option Speaker) :
    Option (AudioMixerPkt × Nat × Bool) → Nat → Option Speaker
  | none => named
  | some (audio, slot, justSet) =>
      Function.update named slot ((if justSet then none else named slot).or audio.source)

def start (n : Nat) (channelId : ChannelId) : Mix Endpoint Feedback :=
  ⟨AudioMixerSubscriber.new n channelId, fun _ => none⟩

variable [DecidableEq Endpoint]

def step (hasher : Hasher) (codec : Bincode AudioMixerPkt) (m : Mix Endpoint Feedback) :
    Call Endpoint n → Except Panic (Mix Endpoint Feedback)
  | .tick now => do
      let subscriber ← m.subscriber.onTick now
      .ok { m with subscriber }
  | .data now source pkt => do
      let subscriber ← m.subscriber.onChannelData codec now source pkt
      .ok ⟨subscriber, namedAfter m.named (selected codec m.subscriber now source pkt)⟩
  | .join endpoint peer tracks => do
      let subscriber ← m.subscriber.onEndpointJoin hasher endpoint peer tracks.val
      .ok { m with subscriber }
  | .leave endpoint => do
      let subscriber ← m.subscriber.onEndpointLeave endpoint
      .ok { m with subscriber }
  | .pop => .ok { m with subscriber := { m.subscriber with queue := m.subscriber.queue.tail } }

def next (hasher : Hasher) (codec : Bincode AudioMixerPkt) (m : Mix Endpoint Feedback)
    (c : Call Endpoint n) : Option (Mix Endpoint Feedback) := (step hasher codec m c).toOption

/-- What the subscriber asserts of its calls. -/
def Asked (m : Mix Endpoint Feedback) : Call Endpoint n → Prop
  | .join endpoint _ _ => m.subscriber.endpoints.contains endpoint = false
  | .leave endpoint => m.subscriber.endpoints.contains endpoint = true
  | _ => True

/-! ### What is claimed of a call -/

omit [DecidableEq Endpoint] in
/-- The table has an entry for every occupied output, and it knows the speaker named there. -/
structure Mirrors (m : Mix Endpoint Feedback) : Prop where
  length_eq : m.subscriber.outputs.length = m.subscriber.mixer.outputs.length
  slots : ∀ slot, slotAt m.subscriber.outputs slot =
    (slotAt m.subscriber.mixer.outputs slot).map fun _ => ⟨m.named slot⟩

/-- Media that an endpoint gets. -/
def mediaFor (endpoint : Endpoint) : Output Endpoint Feedback → Bool
  | .endpoint endpoints (.localTrack _ (.media _ _)) => endpoint ∈ endpoints
  | _ => false

/-- Who is joined after a call, by its peer and its tracks. -/
def joinedAfter (hasher : Hasher) (s : AudioMixerSubscriber Endpoint Feedback)
    (other : Endpoint) : Call Endpoint n → Option EndpointSlot
  | .join endpoint peer tracks =>
      if other = endpoint then some ⟨hashCode hasher peer, tracks.val⟩ else s.endpoints.get other
  | .leave endpoint => if other = endpoint then none else s.endpoints.get other
  | _ => s.endpoints.get other

/-- Of a packet that is selected, joined endpoints of other peers get one copy, on their track for
    the output; nobody else gets anything, and of other packets nobody does. -/
def Forwards (codec : Bincode AudioMixerPkt) (s : AudioMixerSubscriber Endpoint Feedback)
    (now : Instant) (source : NodeId) (pkt : Bytes) (sent : List (Output Endpoint Feedback)) :
    Prop :=
  ∀ endpoint, match selected codec s now source pkt, s.endpoints.get endpoint with
    | some (audio, slot, _), some joined =>
        if joined.peer = audio.peer then sent.filter (mediaFor endpoint) = []
        else ∃ trackId, joined.tracks[slot]? = some trackId ∧
          sent.filter (mediaFor endpoint) = [AudioMixerSubscriber.mediaTo endpoint trackId audio]
    | _, _ => sent.filter (mediaFor endpoint) = []

/-- What a call adds to the queue. -/
def Sends (codec : Bincode AudioMixerPkt) (m : Mix Endpoint Feedback) (m' : Mix Endpoint Feedback) :
    Call Endpoint n → Prop
  | .tick _ => ∃ freed : List Nat, freed.Nodup ∧
      (∀ slot, slot ∈ freed ↔ (slotAt m.subscriber.mixer.outputs slot).isSome ∧
        slotAt m'.subscriber.mixer.outputs slot = none) ∧
      m'.subscriber.queue = m.subscriber.queue ++ freed.flatMap fun slot =>
        m.subscriber.endpoints.keys.map fun endpoint => slotUnsetTo endpoint slot
  | .data now source pkt => ∃ sent, m'.subscriber.queue = m.subscriber.queue ++ sent ∧
      Forwards codec m.subscriber now source pkt sent
  | .join endpoint _ _ => ∃ known : List (Nat × Speaker), (known.map Prod.fst).Nodup ∧
      (∀ slot who, (slot, who) ∈ known ↔ (slotAt m.subscriber.mixer.outputs slot).isSome ∧
        m.named slot = some who) ∧
      m'.subscriber.queue = m.subscriber.queue ++
        ((if m.subscriber.endpoints.isEmpty then [.pubsub ⟨m.subscriber.channelId, .subAuto⟩]
          else []) ++ known.map fun (slot, who) => slotSetTo endpoint slot who)
  | .leave _ => m'.subscriber.queue = m.subscriber.queue ++
      if m'.subscriber.endpoints.isEmpty then [.pubsub ⟨m.subscriber.channelId, .unsubAuto⟩] else []
  | .pop => m'.subscriber.queue = m.subscriber.queue.tail

structure Served (hasher : Hasher) (codec : Bincode AudioMixerPkt) (m : Mix Endpoint Feedback)
    (c : Call Endpoint n) (m' : Mix Endpoint Feedback) : Prop where
  before : Mirrors m
  after : Mirrors m'
  joined : ∀ endpoint, m'.subscriber.endpoints.get endpoint =
    joinedAfter hasher m.subscriber endpoint c
  sends : Sends codec m m' c

/-! ### Who gets what is forwarded -/

variable {audio : AudioMixerPkt} {slot : Nat} {justSet : Bool}
  {entries : List (Endpoint × EndpointSlot)} {sent : List (Output Endpoint Feedback)}

theorem mediaFor_mediaTo (endpoint other : Endpoint) (trackId : LocalTrackId)
    (audio : AudioMixerPkt) :
    mediaFor endpoint (AudioMixerSubscriber.mediaTo other trackId audio :
      Output Endpoint Feedback) = decide (endpoint = other) := by
  simp [mediaFor, AudioMixerSubscriber.mediaTo]

/-- What an endpoint of another peer adds to what is sent. -/
theorem forward_cons {endpoint : Endpoint} {joined : EndpointSlot}
    (hpeer : joined.peer ≠ audio.peer)
    (h : AudioMixerSubscriber.forward audio slot justSet ((endpoint, joined) :: entries) =
      .ok sent) :
    ∃ trackId later, joined.tracks[slot]? = some trackId ∧
      AudioMixerSubscriber.forward audio slot justSet entries = .ok later ∧
      ∀ other, sent.filter (mediaFor other) =
        (if other = endpoint then [AudioMixerSubscriber.mediaTo endpoint trackId audio] else []) ++
          later.filter (mediaFor other) := by
  rw [AudioMixerSubscriber.forward, if_pos hpeer] at h
  split at h
  · cases h
  · rename_i trackId htrack
    obtain ⟨later, hlater, h⟩ := Except.bind_eq_ok.mp h
    cases h
    refine ⟨trackId, later, htrack, hlater, fun other => ?_⟩
    have hchanged : (if justSet then [(.endpoint [endpoint] (.localTrack trackId .sourceChanged) :
        Output Endpoint Feedback)] else []).filter (mediaFor other) = [] := by
      split
      · simp [mediaFor]
      · rfl
    rw [List.append_assoc, List.filter_append, hchanged, List.nil_append, List.singleton_append,
      List.filter_cons, mediaFor_mediaTo]
    by_cases heq : other = endpoint
    · simp [heq]
    · simp [heq]

/-- Who is not among the endpoints, or of the speaker's peer, gets nothing. -/
theorem forward_none {endpoint : Endpoint}
    (h : AudioMixerSubscriber.forward audio slot justSet entries = .ok sent)
    (hnot : ∀ joined, (endpoint, joined) ∈ entries → joined.peer = audio.peer) :
    sent.filter (mediaFor endpoint) = [] := by
  induction entries generalizing sent with
  | nil =>
    cases h
    rfl
  | cons entry rest ih =>
    obtain ⟨other, joined⟩ := entry
    have hrest : ∀ joined, (endpoint, joined) ∈ rest → joined.peer = audio.peer :=
      fun joined hmem => hnot joined (List.mem_cons_of_mem _ hmem)
    by_cases hpeer : joined.peer = audio.peer
    · rw [AudioMixerSubscriber.forward, if_neg (not_not.mpr hpeer)] at h
      exact ih h hrest
    · obtain ⟨trackId, later, -, hlater, hfilter⟩ := forward_cons hpeer h
      have hne : endpoint ≠ other := by
        rintro rfl
        exact hpeer (hnot joined (List.mem_cons_self ..))
      rw [hfilter, if_neg hne, List.nil_append]
      exact ih hlater hrest

/-- An endpoint of another peer gets the packet once. -/
theorem forward_one {endpoint : Endpoint} {joined : EndpointSlot}
    (h : AudioMixerSubscriber.forward audio slot justSet entries = .ok sent)
    (hnodup : (entries.map Prod.fst).Nodup) (hmem : (endpoint, joined) ∈ entries)
    (hpeer : joined.peer ≠ audio.peer) :
    ∃ trackId, joined.tracks[slot]? = some trackId ∧
      sent.filter (mediaFor endpoint) =
        [AudioMixerSubscriber.mediaTo endpoint trackId audio] := by
  induction entries generalizing sent with
  | nil => cases hmem
  | cons entry rest ih =>
    obtain ⟨other, state⟩ := entry
    obtain ⟨hfirst, hnodup⟩ := List.nodup_cons.mp hnodup
    rcases List.mem_cons.mp hmem with heq | hin
    · cases heq
      obtain ⟨trackId, later, htrack, hlater, hfilter⟩ := forward_cons hpeer h
      refine ⟨trackId, htrack, ?_⟩
      rw [hfilter, if_pos rfl, forward_none hlater, List.append_nil]
      intro again hagain
      exact absurd (List.mem_map_of_mem (f := Prod.fst) hagain) hfirst
    · have hne : endpoint ≠ other := by
        rintro rfl
        have hagain := List.mem_map_of_mem (f := Prod.fst) hin
        exact hfirst hagain
      by_cases hother : state.peer = audio.peer
      · rw [AudioMixerSubscriber.forward, if_neg (not_not.mpr hother)] at h
        exact ih h hnodup hin
      · obtain ⟨trackId, later, -, hlater, hfilter⟩ := forward_cons hother h
        rw [hfilter, if_neg hne, List.nil_append]
        exact ih hlater hnodup hin

/-! ### Calls -/

omit [DecidableEq Endpoint] in
theorem nodup_knownSources (outputs : List (Option OutputSource)) :
    ((AudioMixerSubscriber.knownSources outputs).map Prod.fst).Nodup := by
  have hslots : (outputs.zipIdx.map Prod.snd).Nodup := by
    rw [List.zipIdx_map_snd]
    exact List.nodup_range'
  rw [AudioMixerSubscriber.knownSources, List.map_filterMap, List.Nodup, List.pairwise_filterMap]
  refine (List.pairwise_map.mp hslots).imp ?_
  intro first second hne slot hslot slot' hslot'
  simp only [Option.map_map, Option.map_eq_some_iff] at hslot hslot'
  obtain ⟨-, -, rfl⟩ := hslot
  obtain ⟨-, -, rfl⟩ := hslot'
  exact hne

/-- The invariant: the subscriber is in order and its table mirrors the mixer. -/
structure Good (n : Nat) (m : Mix Endpoint Feedback) : Prop where
  sound : m.subscriber.Sound n
  mirrors : Mirrors m

variable {m m' : Mix Endpoint Feedback} {hasher : Hasher} {codec : Bincode AudioMixerPkt}

theorem good_start (n : Nat) (channelId : ChannelId) :
    Good n (start n channelId : Mix Endpoint Feedback) where
  sound := AudioMixerSubscriber.sound_new n channelId
  mirrors := ⟨by simp [start, AudioMixerSubscriber.new, AudioMixer.new],
    by simp [start, AudioMixerSubscriber.new, AudioMixer.new]⟩

theorem Good.tick (h : Good n m) (now : Instant) :
    ∃ m', step hasher codec m (.tick now : Call Endpoint n) = .ok m' ∧ Good n m' ∧
      Served hasher codec m (.tick now : Call Endpoint n) m' := by
  obtain ⟨mixer, outputs, cleared, hok, hsound, houtputs, hmixer, hnodup, hsome⟩ :=
    h.sound.onTick now
  have hmirrors : ∀ queue : List (Output Endpoint Feedback),
      Mirrors (⟨{ m.subscriber with mixer, outputs, queue }, m.named⟩ : Mix Endpoint Feedback) := by
    intro queue
    refine ⟨(hsound queue).aligned.length_eq, fun slot => ?_⟩
    simp only [houtputs slot, hmixer slot]
    split
    · rfl
    · exact h.mirrors.slots slot
  refine ⟨_, ?_, ⟨hsound _, hmirrors _⟩, h.mirrors, hmirrors _, fun endpoint => rfl,
    cleared, hnodup, fun slot => ?_, rfl⟩
  · simp only [step, hok, bind, Except.bind]
  · simp only [hmixer slot]
    constructor
    · intro hmem
      exact ⟨hsome slot hmem, if_pos hmem⟩
    · rintro ⟨hheld, hfree⟩
      by_contra hmem
      rw [if_neg hmem] at hfree
      rw [hfree] at hheld
      cases hheld

omit [DecidableEq Endpoint] in
theorem selected_of_heard {s : AudioMixerSubscriber Endpoint Feedback} {now : Instant}
    {source : NodeId} {pkt : Bytes} {mixer : AudioMixer (NodeId × UInt8)}
    {routed : Option (Nat × Bool)} (hempty : s.endpoints.isEmpty = false)
    (hpkt : codec.deserialize pkt = some audio)
    (hmixer : s.mixer.onPkt now (source, audio.slot) audio.audioLevel = .ok (mixer, routed)) :
    selected codec s now source pkt = routed.map (audio, ·) := by
  rw [selected, if_neg (by simp [hempty]), hpkt, Option.bind_some, routeOf, hmixer]

/-- What a packet does to the table: it follows the mixer and who was named. -/
theorem Good.mirrors_heard (h : Good n m) {now : Instant} {source : NodeId} {pkt : Bytes}
    {s' : AudioMixerSubscriber Endpoint Feedback} (hsound : s'.Sound n)
    (hheard : AudioMixerSubscriber.Heard codec m.subscriber now source pkt s') :
    Mirrors ⟨s', namedAfter m.named (selected codec m.subscriber now source pkt)⟩ := by
  refine ⟨hsound.aligned.length_eq, fun k => ?_⟩
  cases hheard with
  | ignored hnothing =>
    have hnone : selected codec m.subscriber now source pkt = none := by
      rcases hnothing with hempty | hpkt
      · rw [selected, if_pos hempty]
      · rw [selected, hpkt, Option.bind_none, ite_self]
    rw [hnone]
    exact h.mirrors.slots k
  | dropped audio mixer hempty hpkt hmixer hrouted =>
    rw [selected_of_heard hempty hpkt hmixer]
    cases hrouted with
    | dropped hsame _ =>
      simp only [hsame]
      exact h.mirrors.slots k
  | forwarded audio mixer slot justSet outputs sent hempty hpkt hmixer hrouted hat hsent =>
    rw [selected_of_heard hempty hpkt hmixer]
    simp only [Option.map_some, namedAfter, hat k, Function.update_apply]
    cases hrouted with
    | kept hsame hholder =>
      obtain ⟨out, hout, -⟩ := Option.map_eq_some_iff.mp hholder
      have hknown : m.subscriber.knownAfter slot false = m.named slot := by
        rw [AudioMixerSubscriber.knownAfter, if_neg Bool.false_ne_true, h.mirrors.slots slot, hout]
        rfl
      rw [hsame, hknown]
      by_cases hk : k = slot
      · rw [if_pos hk, if_pos hk, hk, hout]
        rfl
      · rw [if_neg hk, if_neg hk]
        exact h.mirrors.slots k
    | taken level hlt hnew hset =>
      rw [hset, slotAt_set hlt]
      by_cases hk : k = slot
      · rw [if_pos hk, if_pos hk, if_pos hk]
        rfl
      · rw [if_neg hk, if_neg hk, if_neg hk]
        exact h.mirrors.slots k

/-- What a packet adds to the queue. -/
theorem forwards_heard {s s' : AudioMixerSubscriber Endpoint Feedback} {now : Instant}
    {source : NodeId} {pkt : Bytes}
    (hheard : AudioMixerSubscriber.Heard codec s now source pkt s') :
    ∃ sent, s'.queue = s.queue ++ sent ∧ Forwards codec s now source pkt sent := by
  cases hheard with
  | ignored hnothing =>
    have hnone : selected codec s now source pkt = none := by
      rcases hnothing with hempty | hpkt
      · rw [selected, if_pos hempty]
      · rw [selected, hpkt, Option.bind_none, ite_self]
    refine ⟨[], (List.append_nil _).symm, fun endpoint => ?_⟩
    rw [hnone]
    rfl
  | dropped audio mixer hempty hpkt hmixer _ =>
    refine ⟨[], (List.append_nil _).symm, fun endpoint => ?_⟩
    rw [selected_of_heard hempty hpkt hmixer]
    rfl
  | forwarded audio mixer slot justSet outputs sent hempty hpkt hmixer _ _ hsent =>
    refine ⟨_, rfl, fun endpoint => ?_⟩
    have htold : (if (s.knownAfter slot justSet).isNone then
        audio.source.toList.flatMap fun source => s.endpoints.keys.map fun endpoint =>
          (slotSetTo endpoint slot source : Output Endpoint Feedback)
        else []).filter (mediaFor endpoint) = [] := by
      rw [List.filter_eq_nil_iff]
      intro out hmem
      split at hmem
      · obtain ⟨who, -, hmem⟩ := List.mem_flatMap.mp hmem
        obtain ⟨other, -, rfl⟩ := List.mem_map.mp hmem
        simp [mediaFor, slotSetTo]
      · cases hmem
    rw [selected_of_heard hempty hpkt hmixer, List.filter_append, htold, List.nil_append,
      Option.map_some]
    cases hjoined : s.endpoints.get endpoint with
    | none =>
      refine forward_none hsent fun joined hmem => ?_
      rw [IndexMap.get_eq_some_iff.mpr hmem] at hjoined
      cases hjoined
    | some joined =>
      have hmem := IndexMap.get_eq_some_iff.mp hjoined
      simp only
      split
      · rename_i hpeer
        refine forward_none hsent fun again hagain => ?_
        rw [IndexMap.get_eq_some_iff.mpr hagain] at hjoined
        cases hjoined
        exact hpeer
      · rename_i hpeer
        exact forward_one hsent s.endpoints.nodupKeys hmem hpeer

theorem Good.data (h : Good n m) (hn : 0 < n) (now : Instant) (source : NodeId) (pkt : Bytes) :
    ∃ m', step hasher codec m (.data now source pkt : Call Endpoint n) = .ok m' ∧ Good n m' ∧
      Served hasher codec m (.data now source pkt : Call Endpoint n) m' := by
  obtain ⟨s', hok, hsound, hheard⟩ := h.sound.onChannelData hn codec now source pkt
  have hmirrors := h.mirrors_heard hsound hheard
  refine ⟨_, ?_, ⟨hsound, hmirrors⟩, h.mirrors, hmirrors, fun endpoint => ?_, forwards_heard hheard⟩
  · simp only [step, hok, bind, Except.bind]
  · rw [hheard.quiet.endpoints]
    rfl

theorem Good.join (h : Good n m) {endpoint : Endpoint} (peer : PeerId)
    (tracks : { tracks : List LocalTrackId // tracks.length = n })
    (hasked : m.subscriber.endpoints.contains endpoint = false) :
    ∃ m', step hasher codec m (.join endpoint peer tracks) = .ok m' ∧ Good n m' ∧
      Served hasher codec m (.join endpoint peer tracks) m' := by
  have htracks : ∀ other slot,
      (m.subscriber.endpoints.insert endpoint ⟨hashCode hasher peer, tracks.val⟩).get other =
        some slot → slot.tracks.length = n := by
    intro other slot hget
    rw [IndexMap.get_insert] at hget
    split at hget
    · cases hget
      exact tracks.property
    · exact h.sound.tracks other slot hget
  have hmirrors : ∀ (endpoints : IndexMap Endpoint EndpointSlot)
      (queue : List (Output Endpoint Feedback)),
      Mirrors (⟨{ m.subscriber with endpoints, queue }, m.named⟩ : Mix Endpoint Feedback) :=
    fun endpoints queue => ⟨h.mirrors.length_eq, h.mirrors.slots⟩
  refine ⟨_, ?_, ⟨h.sound.withEndpoints htracks _, hmirrors _ _⟩, h.mirrors, hmirrors _ _,
    fun other => IndexMap.get_insert _ _ _ _,
    AudioMixerSubscriber.knownSources m.subscriber.outputs, nodup_knownSources _,
    fun slot who => ?_, rfl⟩
  · simp only [step, AudioMixerSubscriber.onEndpointJoin, hasked, bind, Except.bind]
    rfl
  · rw [mem_knownSources, h.mirrors.slots slot]
    cases slotAt m.subscriber.mixer.outputs slot with
    | none => simp
    | some out => simp

theorem Good.leave (h : Good n m) {endpoint : Endpoint}
    (hasked : m.subscriber.endpoints.contains endpoint = true) :
    ∃ m', step hasher codec m (.leave endpoint : Call Endpoint n) = .ok m' ∧ Good n m' ∧
      Served hasher codec m (.leave endpoint : Call Endpoint n) m' := by
  have htracks : ∀ other slot, (m.subscriber.endpoints.swapRemove endpoint).get other =
      some slot → slot.tracks.length = n := by
    intro other slot hget
    rw [IndexMap.get_swapRemove] at hget
    split at hget
    · cases hget
    · exact h.sound.tracks other slot hget
  have hmirrors : ∀ (endpoints : IndexMap Endpoint EndpointSlot)
      (queue : List (Output Endpoint Feedback)),
      Mirrors (⟨{ m.subscriber with endpoints, queue }, m.named⟩ : Mix Endpoint Feedback) :=
    fun endpoints queue => ⟨h.mirrors.length_eq, h.mirrors.slots⟩
  have hok : step hasher codec m (.leave endpoint : Call Endpoint n) = .ok
      ⟨{ m.subscriber with
        endpoints := m.subscriber.endpoints.swapRemove endpoint
        queue := m.subscriber.queue ++
          if (m.subscriber.endpoints.swapRemove endpoint).isEmpty then
            [.pubsub ⟨m.subscriber.channelId, .unsubAuto⟩]
          else [] }, m.named⟩ := by
    simp only [step, AudioMixerSubscriber.onEndpointLeave, hasked, bind, Except.bind]
    rfl
  exact ⟨_, hok, ⟨h.sound.withEndpoints htracks _, hmirrors _ _⟩, h.mirrors, hmirrors _ _,
    fun other => IndexMap.get_swapRemove _ _ _, rfl⟩

/-- **Calls.** A call that the subscriber may be given goes through and does what is claimed. -/
theorem Good.step (h : Good n m) (hn : 0 < n) (c : Call Endpoint n) (hasked : Asked m c) :
    ∃ m', step hasher codec m c = .ok m' ∧ Good n m' ∧ Served hasher codec m c m' := by
  cases c with
  | tick now => exact h.tick now
  | data now source pkt => exact h.data hn now source pkt
  | join endpoint peer tracks => exact h.join peer tracks hasked
  | leave endpoint => exact h.leave hasked
  | pop => exact ⟨_, rfl, ⟨h.sound.withEndpoints h.sound.tracks _, ⟨h.mirrors.1, h.mirrors.2⟩⟩,
      h.mirrors, ⟨h.mirrors.1, h.mirrors.2⟩, fun endpoint => rfl, rfl⟩

/-- Calls that go through are calls that the subscriber may be given. -/
theorem asked_of_step {c : Call Endpoint n} (h : step hasher codec m c = .ok m') : Asked m c := by
  cases c with
  | tick now => trivial
  | data now source pkt => trivial
  | join endpoint peer tracks =>
    obtain ⟨s', hjoin, -⟩ := Except.bind_eq_ok.mp h
    rw [AudioMixerSubscriber.onEndpointJoin] at hjoin
    split at hjoin
    · cases hjoin
    · rename_i hnot
      exact eq_false_of_ne_true hnot
  | leave endpoint =>
    obtain ⟨s', hleave, -⟩ := Except.bind_eq_ok.mp h
    rw [AudioMixerSubscriber.onEndpointLeave] at hleave
    split at hleave
    · rename_i hin
      exact hin
    · cases hleave
  | pop => trivial

/-- **Mix-minus.**  With an output or more, every run goes on as long as endpoints that are not
    joined join and endpoints that are joined leave.  All along, the table mirrors the mixer,
    what is selected reaches each endpoint of another peer once and no other, a tick takes back
    the outputs it frees, and who joins is told the speakers that are known. -/
theorem mix_minus (hasher : Hasher) (codec : Bincode AudioMixerPkt) {n : Nat} (hn : 0 < n)
    (channelId : ChannelId) (calls : List (Call Endpoint n)) :
    GoesOn (step hasher codec) Asked (start n channelId : Mix Endpoint Feedback) calls ∧
      Along (next hasher codec) (Served hasher codec)
        (start n channelId : Mix Endpoint Feedback) calls := by
  have hstart : Good n (start n channelId : Mix Endpoint Feedback) := good_start n channelId
  constructor
  · refine goesOn_of (fun m c hgood hasked => ?_) hstart calls
    obtain ⟨m', hok, hgood', -⟩ := hgood.step hn c hasked
    exact ⟨m', hok, hgood'⟩
  · have hall : Along (next hasher codec) (fun _ _ _ => True)
        (start n channelId : Mix Endpoint Feedback) calls :=
      along_of_forall (fun _ _ _ => trivial) _ _
    refine along_of (fun m c m' hgood hstep _ => ?_) hstart hall
    have hok := Except.mem_toOption.mp hstep
    obtain ⟨m'', hok', hgood', hserved⟩ := hgood.step hn c (asked_of_step hok)
    cases hok.symm.trans hok'
    exact ⟨hserved, hgood'⟩

/-- Alice speaks to bob, who hears her until she falls silent. -/
def duet : List (Call Nat 3) :=
  [.join 0 "alice" ⟨[0, 1, 2], rfl⟩, .join 1 "bob" ⟨[0, 1, 2], rfl⟩,
    .data 100 1 (pktCodec.serialize
      { slot := 0, peer := hashCode fnv1a "alice", track := 0, audioLevel := some (-60)
        source := some ("alice", "audio"), ts := 0, seq := 1, opusPayload := [1, 2, 3] }),
    .pop, .tick 2000000000, .leave 0, .leave 1]

theorem mix_minus_duet :
    GoesOn (step fnv1a pktCodec) Asked (start 3 7 : Mix Nat PlainFeedback) duet ∧
      Along (next fnv1a pktCodec) (Served fnv1a pktCodec) (start 3 7 : Mix Nat PlainFeedback) duet :=
  mix_minus fnv1a pktCodec (by decide) 7 duet

end MixMinus

end MediaServer.RoomMixer
