import MediaServer.Cluster.MediaTrack.Subscriber
import MediaServer.Lib.Always
import Mathlib.Data.List.Perm.Basic

/-!
# The bitrates that viewers ask for

Every request for a bitrate makes the subscriber sum what the viewers of a channel asked for lately.
It keeps the requests by endpoint, and for as long as the channel is open: a track that unsubscribes
leaves its request behind, and of two tracks of an endpoint only the last one to ask is heard.
-/

namespace MediaServer.MediaTrack.Subscriber

open Collections Machine Pubsub RoomChannelSubscribe

variable {Endpoint Feedback : Type}

/-! ### Sums -/

/-- With a merge that is associative and commutative the order of the feedbacks does not matter. -/
theorem sumFeedbacks_perm {api : FeedbackApi Feedback} (hcomm : ∀ a b, api.add a b = api.add b a)
    (hassoc : ∀ a b c, api.add (api.add a b) c = api.add a (api.add b c)) {fbs fbs' : List Feedback}
    (h : fbs.Perm fbs') : sumFeedbacks api fbs = sumFeedbacks api fbs' := by
  unfold sumFeedbacks
  apply h.foldl_eq'
  intro a _ b _ sum
  cases sum with
  | none => exact congrArg some (hcomm a b)
  | some sum =>
    change some (api.add (api.add sum a) b) = some (api.add (api.add sum b) a)
    rw [hassoc, hassoc, hcomm a b]

/-! ### What the inputs ask for -/

/-- The feedback for one request. -/
def request (api : FeedbackApi Feedback) (bitrate : UInt64) : Feedback :=
  api.simple bitrateFeedbackKind bitrate bitrateFeedbackInterval bitrateFeedbackTimeout

/-- A request counts for two seconds. -/
def Fresh (now ts : Instant) : Prop := now.millisSince ts < bitrateFeedbackTimeout.toNat

instance (now ts : Instant) : Decidable (Fresh now ts) := inferInstanceAs (Decidable (_ < _))

theorem Fresh.earlier {clock now ts : Instant} (h : Fresh now ts) (hclock : clock ≤ now) :
    Fresh clock ts := by
  refine Nat.lt_of_le_of_lt ?_ h
  exact Nat.div_le_div_right (Nat.sub_le_sub_right hclock ts)

/-- What the inputs say of the requests: the latest one of every subscribed track, and the last one
    that an endpoint made on a channel since the channel was opened. -/
structure Demand (Endpoint : Type) where
  live : Live Endpoint
  latest : Endpoint × LocalTrackId → Option (Instant × UInt64)
  last : ChannelId → Endpoint → Option (LocalTrackId × Instant × UInt64)
  clock : Instant

/-- A track that is subscribed to the channel has lately asked for the bitrate. -/
def Demand.Counts (d : Demand Endpoint) (now : Instant) (channel : ChannelId)
    (key : Endpoint × LocalTrackId) (bitrate : UInt64) : Prop :=
  d.live key = some channel ∧ ∃ ts, d.latest key = some (ts, bitrate) ∧ Fresh now ts

/-- Of every endpoint that lately asked on the channel the last track to do so has not unsubscribed
    since, and no other track of it asked lately. -/
structure Demand.Apart (d : Demand Endpoint) (now : Instant) (channel : ChannelId) : Prop where
  stays : ∀ endpoint track ts bitrate, d.last channel endpoint = some (track, ts, bitrate) →
    Fresh now ts →
      d.live (endpoint, track) = some channel ∧ d.latest (endpoint, track) = some (ts, bitrate)
  alone : ∀ endpoint track ts bitrate, d.live (endpoint, track) = some channel →
    d.latest (endpoint, track) = some (ts, bitrate) → Fresh now ts →
      d.last channel endpoint = some (track, ts, bitrate)

/-- A list of the tracks with the bitrates they ask for. -/
def Lists (counted : List ((Endpoint × LocalTrackId) × UInt64))
    (asks : Endpoint × LocalTrackId → UInt64 → Prop) : Prop :=
  (counted.map Prod.fst).Nodup ∧ ∀ key bitrate, (key, bitrate) ∈ counted ↔ asks key bitrate

/-- The feedback merges exactly the requests: they can be listed, and in any order they add up
    to it. -/
def Merges (api : FeedbackApi Feedback) (fb : Feedback)
    (asks : Endpoint × LocalTrackId → UInt64 → Prop) : Prop :=
  (∃ counted, Lists counted asks) ∧ ∀ counted, Lists counted asks →
    sumFeedbacks api (counted.map fun ask => request api ask.2) = some fb

/-- One list decides it. -/
theorem merges_of_lists {api : FeedbackApi Feedback} (hcomm : ∀ a b, api.add a b = api.add b a)
    (hassoc : ∀ a b c, api.add (api.add a b) c = api.add a (api.add b c)) {fb : Feedback}
    {asks : Endpoint × LocalTrackId → UInt64 → Prop}
    {counted : List ((Endpoint × LocalTrackId) × UInt64)} (h : Lists counted asks)
    (hsum : sumFeedbacks api (counted.map fun ask => request api ask.2) = some fb) :
    Merges api fb asks := by
  refine ⟨⟨counted, h⟩, fun other hother => ?_⟩
  have hperm : other.Perm counted := by
    refine (List.perm_ext_iff_of_nodup (hother.1.of_map _) (h.1.of_map _)).mpr fun ask => ?_
    exact (hother.2 ask.1 ask.2).trans (h.2 ask.1 ask.2).symm
  rw [← hsum]
  exact sumFeedbacks_perm hcomm hassoc (hperm.map _)

section Runs

variable [DecidableEq Endpoint]

/-- A request is the latest of its track, and the last of its endpoint on the channel. -/
def Demand.ask (d : Demand Endpoint) (now : Instant) (endpoint : Endpoint) (track : LocalTrackId)
    (bitrate : UInt64) : Demand Endpoint :=
  match d.live (endpoint, track) with
  | none => { d with clock := max d.clock now }
  | some channel =>
    { d with
      latest := Function.update d.latest (endpoint, track) (some (now, bitrate))
      last := Function.update d.last channel
        (Function.update (d.last channel) endpoint (some (track, now, bitrate)))
      clock := max d.clock now }

/-- A new subscription has asked for nothing yet; what was asked on a channel is forgotten when the
    channel is let go of. -/
def Demand.step (hasher : Hasher) (room : ClusterRoomHash) (d : Demand Endpoint) :
    Input Endpoint → List (Output Endpoint Feedback) → Demand Endpoint
  | .subscribe endpoint track peer name, _ =>
      { d with
        live := liveStep hasher room d.live (.subscribe endpoint track peer name)
        latest := Function.update d.latest (endpoint, track) none }
  | .unsubscribe endpoint track, pushed =>
      { d with
        live := liveStep hasher room d.live (.unsubscribe endpoint track)
        latest := Function.update d.latest (endpoint, track) none
        last := fun channel => if Lease.Command.release ∈ subCommands channel pushed then
          fun _ => none else d.last channel }
  | .desiredBitrate now endpoint track bitrate, _ => d.ask now endpoint track bitrate
  | _, _ => d

def demand (hasher : Hasher) (room : ClusterRoomHash)
    (history : History (Input Endpoint) (Output Endpoint Feedback)) : Demand Endpoint :=
  history.foldl (fun d entry => d.step hasher room entry.1 entry.2)
    ⟨fun _ => none, fun _ => none, fun _ _ => none, 0⟩

theorem demand_concat (hasher : Hasher) (room : ClusterRoomHash)
    (history : History (Input Endpoint) (Output Endpoint Feedback)) (input : Input Endpoint)
    (pushed : List (Output Endpoint Feedback)) :
    demand hasher room (history ++ [(input, pushed)]) =
      (demand hasher room history).step hasher room input pushed := by
  rw [demand, List.foldl_append]
  rfl

/-- The clock does not go back. -/
def Forward (hasher : Hasher) (room : ClusterRoomHash) :
    Contract (RoomChannelSubscribe Endpoint Feedback) (Input Endpoint)
      (Output Endpoint Feedback) :=
  fun history _ input => match input with
    | .desiredBitrate now _ _ _ => (demand hasher room history).clock ≤ now
    | _ => True

/-- The condition on a run: once a request is made on a channel, the requests on it are apart. -/
def Separate (hasher : Hasher) (room : ClusterRoomHash) :
    Contract (RoomChannelSubscribe Endpoint Feedback) (Input Endpoint)
      (Output Endpoint Feedback) :=
  fun history _ input => match input with
    | .desiredBitrate now endpoint track bitrate =>
        ∀ channel, (demand hasher room history).live (endpoint, track) = some channel →
          ((demand hasher room history).ask now endpoint track bitrate).Apart now channel
    | _ => True

/-- What the claim says of every feedback that a request made the subscriber send. -/
def Aggregated (hasher : Hasher) (room : ClusterRoomHash) (api : FeedbackApi Feedback)
    (history : History (Input Endpoint) (Output Endpoint Feedback)) : Prop :=
  ∀ before now endpoint track bitrate pushed after,
    history = before ++ (.desiredBitrate now endpoint track bitrate, pushed) :: after →
      ∀ channel fb, .pubsub ⟨channel, .feedbackAuto fb⟩ ∈ pushed →
        Merges api fb ((demand hasher room
          (before ++ [(Input.desiredBitrate now endpoint track bitrate, pushed)])).Counts now
            channel)

/-! ### The tables of a channel -/

/-- The requests kept for a channel. -/
def fbsOf (s : RoomChannelSubscribe Endpoint Feedback) (channel : ChannelId) :
    IndexMap Endpoint (Instant × Feedback) :=
  ((s.channels.get channel).getD .empty).bitrateFbs

/-- The tables say what the inputs asked for: every request kept is the last of its endpoint, and
    every last request is kept as long as it is fresh. -/
structure Tallies (api : FeedbackApi Feedback) (room : ClusterRoomHash) (d : Demand Endpoint)
    (s : RoomChannelSubscribe Endpoint Feedback) : Prop where
  room_eq : s.room = room
  subscribers : ∀ key, (s.subscribers.get key).map Prod.fst = d.live key
  listed : ∀ key channel, d.live key = some channel → key ∈ (endpointsOf s channel).getD []
  kept : ∀ channel endpoint ts fb, (fbsOf s channel).get endpoint = some (ts, fb) →
    ∃ track bitrate, d.last channel endpoint = some (track, ts, bitrate) ∧ fb = request api bitrate
  known : ∀ channel endpoint track ts bitrate,
    d.last channel endpoint = some (track, ts, bitrate) → Fresh d.clock ts →
      (fbsOf s channel).get endpoint = some (ts, request api bitrate)

variable {hasher : Hasher} {room : ClusterRoomHash} {api : FeedbackApi Feedback}
  {codec : Bincode MediaPacket} {d : Demand Endpoint}
  {s s' : RoomChannelSubscribe Endpoint Feedback}

theorem tallies_init : Tallies api room (demand hasher room
    ([] : History (Input Endpoint) (Output Endpoint Feedback)))
    (.new room : RoomChannelSubscribe Endpoint Feedback) := by
  refine ⟨rfl, fun _ => rfl, fun key channel h => ?_, fun channel endpoint ts fb h => ?_,
    fun channel endpoint track ts bitrate h => ?_⟩
  · cases h
  · cases h
  · cases h

/-- A step that leaves the subscriptions and the requests alone. -/
theorem Tallies.same (h : Tallies api room d s) (hroom : s'.room = s.room)
    (hsubscribers : s'.subscribers = s.subscribers) (hchannels : s'.channels = s.channels) :
    Tallies api room d s' := by
  refine ⟨hroom.trans h.room_eq, ?_, ?_, ?_, ?_⟩
  · rw [hsubscribers]
    exact h.subscribers
  · unfold endpointsOf
    rw [hchannels]
    exact h.listed
  · unfold fbsOf
    rw [hchannels]
    exact h.kept
  · unfold fbsOf
    rw [hchannels]
    exact h.known

/-- The channel of a subscribed track is open. -/
theorem Tallies.opened (h : Tallies api room d s) {endpoint : Endpoint} {track : LocalTrackId}
    {channel : ChannelId} (hlive : d.live (endpoint, track) = some channel) :
    ∃ peer name container, s.subscribers.get (endpoint, track) = some (channel, peer, name) ∧
      s.channels.get channel = some container ∧ (endpoint, track) ∈ container.endpoints := by
  have hsub := h.subscribers (endpoint, track)
  rw [hlive, Option.map_eq_some_iff] at hsub
  obtain ⟨⟨channel', peer, name⟩, hget, rfl⟩ := hsub
  have hmem := h.listed _ _ hlive
  unfold endpointsOf at hmem
  cases hchannel : s.channels.get channel' with
  | none =>
    rw [hchannel] at hmem
    cases hmem
  | some container =>
    rw [hchannel] at hmem
    exact ⟨peer, name, container, hget, rfl, hmem⟩

theorem Tallies.subscribe (h : Tallies api room d s) (endpoint : Endpoint) (track : LocalTrackId)
    (peer : PeerId) (name : TrackName) (pushed : List (Output Endpoint Feedback)) :
    Tallies api room (d.step hasher room (.subscribe endpoint track peer name) pushed)
      (s.onTrackSubscribe hasher endpoint track peer name) := by
  have hroom := h.room_eq
  have hfbs : ∀ channel, fbsOf (s.onTrackSubscribe hasher endpoint track peer name) channel =
      fbsOf s channel := by
    intro channel
    simp only [onTrackSubscribe, fbsOf, IndexMap.get_insert]
    split
    · rename_i heq
      subst heq
      rfl
    · rfl
  refine ⟨hroom, fun key => ?_, fun key channel hlive => ?_, ?_, ?_⟩
  · simp only [onTrackSubscribe, IndexMap.get_insert, Demand.step, liveStep, hroom]
    by_cases hkey : key = (endpoint, track)
    · rw [if_pos hkey, hkey, Function.update_self]
      rfl
    · rw [if_neg hkey, Function.update_of_ne hkey]
      exact h.subscribers key
  · simp only [Demand.step, liveStep] at hlive
    simp only [onTrackSubscribe, endpointsOf, IndexMap.get_insert, hroom]
    by_cases hkey : key = (endpoint, track)
    · rw [hkey, Function.update_self] at hlive
      cases hlive
      rw [if_pos rfl, hkey]
      exact List.mem_append_right _ (List.mem_singleton_self _)
    · rw [Function.update_of_ne hkey] at hlive
      have hmem := h.listed key channel hlive
      split
      · rename_i heq
        subst heq
        refine List.mem_append_left _ ?_
        unfold endpointsOf at hmem
        cases hget : s.channels.get (IdGenerator.genTrackChannelId hasher room peer name) with
        | none =>
          rw [hget] at hmem
          cases hmem
        | some container =>
          rw [hget] at hmem
          exact hmem
      · exact hmem
  · intro channel
    rw [hfbs]
    exact h.kept channel
  · intro channel
    rw [hfbs]
    exact h.known channel

omit [DecidableEq Endpoint] in
/-- Only the last track to unsubscribe from a channel lets go of it. -/
theorem release_mem_iff {channel channel' : ChannelId} {closes : Prop} [Decidable closes] :
    Lease.Command.release ∈ subCommands channel'
      (if closes then [.pubsub ⟨channel, .unsubAuto⟩] else [] : List (Output Endpoint Feedback)) ↔
      channel' = channel ∧ closes := by
  by_cases hcloses : closes
  · rw [if_pos hcloses]
    by_cases hchannel : channel = channel'
    · simp [subCommands, subCommand, hchannel, hcloses]
    · simp [subCommands, subCommand, hchannel, Ne.symm hchannel]
  · simp [hcloses, subCommands]

theorem Tallies.unsubscribe (h : Tallies api room d s) (endpoint : Endpoint)
    (track : LocalTrackId) :
    Tallies api room
      (d.step hasher room (.unsubscribe endpoint track)
        ((machine hasher api codec room).pushed s (s.onTrackUnsubscribe endpoint track)))
      (s.onTrackUnsubscribe endpoint track) := by
  cases hlive : d.live (endpoint, track) with
  | none =>
    have hnone : s.subscribers.get (endpoint, track) = none := by
      have hsub := h.subscribers (endpoint, track)
      rwa [hlive, Option.map_eq_none_iff] at hsub
    have hsame : s.onTrackUnsubscribe endpoint track = s := by
      simp only [onTrackUnsubscribe, hnone]
    have hpushed : (machine hasher api codec room).pushed s s = [] :=
      pushed_eq_of_append _ (List.append_nil _).symm
    rw [hsame, hpushed]
    have hupdate : Function.update d.live (endpoint, track) none = d.live := by
      rw [← hlive, Function.update_eq_self]
    refine ⟨h.room_eq, ?_, ?_, h.kept, h.known⟩
    · simp only [Demand.step, liveStep, hupdate]
      exact h.subscribers
    · simp only [Demand.step, liveStep, hupdate]
      exact h.listed
  | some channel =>
    obtain ⟨peer, name, container, hsub, hget, hmem⟩ := h.opened hlive
    obtain ⟨index, hindex⟩ : ∃ index, container.endpoints.findIdx?
        (fun e => e = (endpoint, track)) = some index := by
      cases hindex : container.endpoints.findIdx? (fun e => e = (endpoint, track)) with
      | none =>
        have habsent := List.findIdx?_eq_none_iff.mp hindex _ hmem
        simp at habsent
      | some index => exact ⟨index, rfl⟩
    obtain ⟨hlt, hfound, -⟩ := List.findIdx?_eq_some_iff_getElem.mp hindex
    have hremoved : container.endpoints[index] = (endpoint, track) := of_decide_eq_true hfound
    generalize hs' : s.onTrackUnsubscribe endpoint track = s'
    rw [onTrackUnsubscribe_of_listed hsub hget hindex] at hs'
    have hpushed : (machine hasher api codec room).pushed s s' =
        if (swapRemoveIdx container.endpoints index).isEmpty then
          [.pubsub ⟨channel, .unsubAuto⟩] else [] := by
      apply pushed_eq_of_append
      rw [← hs']
      rfl
    rw [hpushed]
    -- the channel keeps its requests unless it is closed
    have hfbs : ∀ channel', fbsOf s' channel' =
        if channel' = channel ∧ (swapRemoveIdx container.endpoints index).isEmpty then ∅
        else fbsOf s channel' := by
      intro channel'
      rw [← hs']
      cases hempty : (swapRemoveIdx container.endpoints index).isEmpty with
      | true =>
        simp only [fbsOf, if_true, IndexMap.get_swapRemove, and_true]
        split <;> rfl
      | false =>
        simp only [fbsOf, Bool.false_eq_true, if_false, IndexMap.get_insert, and_false]
        split
        · rename_i heq
          rw [heq, hget]
          rfl
        · rfl
    refine ⟨?_, fun key => ?_, fun key channel' hkeyLive => ?_, fun channel' e ts fb hfb => ?_,
      fun channel' e t ts bitrate hlast hfresh => ?_⟩
    · rw [← hs']
      exact h.room_eq
    · simp only [Demand.step, liveStep]
      rw [← hs', IndexMap.get_swapRemove]
      by_cases hkey : key = (endpoint, track)
      · rw [if_pos hkey, hkey, Function.update_self]
        rfl
      · rw [if_neg hkey, Function.update_of_ne hkey]
        exact h.subscribers key
    · simp only [Demand.step, liveStep] at hkeyLive
      have hkey : key ≠ (endpoint, track) := by
        rintro rfl
        rw [Function.update_self] at hkeyLive
        cases hkeyLive
      rw [Function.update_of_ne hkey] at hkeyLive
      have hold := h.listed key channel' hkeyLive
      rw [← hs']
      unfold endpointsOf at hold ⊢
      by_cases hchannel : channel' = channel
      · subst hchannel
        rw [hget] at hold
        have hleft : key ∈ swapRemoveIdx container.endpoints index :=
          mem_swapRemoveIdx_of_ne hlt (hremoved ▸ hkey) hold
        have hopen : ¬(swapRemoveIdx container.endpoints index).isEmpty = true := by
          intro hempty
          rw [List.isEmpty_iff.mp hempty] at hleft
          cases hleft
        simp only [if_neg hopen, IndexMap.get_insert, if_true]
        exact hleft
      · dsimp only
        split
        · rwa [IndexMap.get_swapRemove_ne _ hchannel]
        · rwa [IndexMap.get_insert_ne _ _ hchannel]
    · rw [hfbs] at hfb
      split at hfb
      · cases hfb
      · rename_i hopen
        simp only [Demand.step, release_mem_iff, if_neg hopen]
        exact h.kept channel' e ts fb hfb
    · simp only [Demand.step, release_mem_iff] at hlast
      split at hlast
      · cases hlast
      · rename_i hopen
        rw [hfbs, if_neg hopen]
        exact h.known channel' e t ts bitrate hlast hfresh

/-- What a request for a subscribed track does. -/
theorem onTrackDesiredBitrate_eq (api : FeedbackApi Feedback) (now : Instant) (bitrate : UInt64)
    {endpoint : Endpoint} {track : LocalTrackId} {channel : ChannelId} {peer : PeerId}
    {name : TrackName} {container : ChannelContainer Endpoint Feedback}
    (hsub : s.subscribers.get (endpoint, track) = some (channel, peer, name))
    (hget : s.channels.get channel = some container) :
    ∃ outs : List (Output Endpoint Feedback),
      (s.onTrackDesiredBitrate api now endpoint track bitrate).queue = s.queue ++ outs ∧
      (s.onTrackDesiredBitrate api now endpoint track bitrate).room = s.room ∧
      (s.onTrackDesiredBitrate api now endpoint track bitrate).subscribers = s.subscribers ∧
      (s.onTrackDesiredBitrate api now endpoint track bitrate).channels =
        s.channels.insert channel { container with
          bitrateFbs := (container.bitrateFbs.insert endpoint (now, request api bitrate)).retain
            fun _ entry => Fresh now entry.1 } ∧
      ∀ channel' fb, .pubsub ⟨channel', .feedbackAuto fb⟩ ∈ outs → channel' = channel ∧
        sumFeedbacks api (((container.bitrateFbs.insert endpoint
          (now, request api bitrate)).retain fun _ entry => Fresh now entry.1).values.map
            Prod.snd) = some fb := by
  simp only [onTrackDesiredBitrate, hsub, hget]
  split
  · refine ⟨[], (List.append_nil _).symm, rfl, rfl, rfl, fun channel' fb hmem => ?_⟩
    cases hmem
  · rename_i sum hsum
    refine ⟨_, rfl, rfl, rfl, rfl, fun channel' fb hmem => ?_⟩
    have heq := List.mem_singleton.mp hmem
    cases heq
    exact ⟨rfl, hsum⟩

theorem Demand.ask_unsubscribed {now : Instant} {endpoint : Endpoint} {track : LocalTrackId}
    (hlive : d.live (endpoint, track) = none) (bitrate : UInt64) :
    d.ask now endpoint track bitrate = { d with clock := max d.clock now } := by
  simp only [Demand.ask, hlive]

theorem Demand.ask_subscribed {now : Instant} {endpoint : Endpoint} {track : LocalTrackId}
    {channel : ChannelId} (hlive : d.live (endpoint, track) = some channel) (bitrate : UInt64) :
    d.ask now endpoint track bitrate =
      { d with
        latest := Function.update d.latest (endpoint, track) (some (now, bitrate))
        last := Function.update d.last channel
          (Function.update (d.last channel) endpoint (some (track, now, bitrate)))
        clock := max d.clock now } := by
  simp only [Demand.ask, hlive]

omit [DecidableEq Endpoint] in
/-- The requests kept for a channel after one more. -/
theorem fbsOf_request {s s' : RoomChannelSubscribe Endpoint Feedback} {channel : ChannelId}
    {container : ChannelContainer Endpoint Feedback} {fbs : IndexMap Endpoint (Instant × Feedback)}
    (h : s'.channels = s.channels.insert channel { container with bitrateFbs := fbs })
    (channel' : ChannelId) :
    fbsOf s' channel' = if channel' = channel then fbs else fbsOf s channel' := by
  rw [fbsOf, h, IndexMap.get_insert]
  split <;> rfl

/-- A request is written down, and what is no longer fresh is dropped. -/
theorem Tallies.desiredBitrate (h : Tallies api room d s) {now : Instant} (hclock : d.clock ≤ now)
    (endpoint : Endpoint) (track : LocalTrackId) (bitrate : UInt64) :
    Tallies api room (d.ask now endpoint track bitrate)
      (s.onTrackDesiredBitrate api now endpoint track bitrate) := by
  have hmax : max d.clock now = now := Nat.max_eq_right hclock
  cases hlive : d.live (endpoint, track) with
  | none =>
    have hnone : s.subscribers.get (endpoint, track) = none := by
      have hsub := h.subscribers (endpoint, track)
      rwa [hlive, Option.map_eq_none_iff] at hsub
    have hsame : s.onTrackDesiredBitrate api now endpoint track bitrate = s := by
      simp only [onTrackDesiredBitrate, hnone]
    rw [hsame, Demand.ask_unsubscribed hlive]
    refine ⟨h.room_eq, h.subscribers, h.listed, h.kept, fun channel e t ts b hlast hfresh => ?_⟩
    exact h.known channel e t ts b hlast (hfresh.earlier (Nat.le_max_left ..))
  | some channel =>
    obtain ⟨peer, name, container, hsub, hget, -⟩ := h.opened hlive
    obtain ⟨outs, -, hroom, hsubscribers, hchannels, -⟩ :=
      onTrackDesiredBitrate_eq api now bitrate hsub hget
    have hfbs := fbsOf_request hchannels
    have hold : container.bitrateFbs = fbsOf s channel := by
      rw [fbsOf, hget]
      rfl
    rw [Demand.ask_subscribed hlive]
    refine ⟨hroom.trans h.room_eq, fun key => ?_, fun key channel' hkey => ?_,
      fun channel' e ts fb hfb => ?_, fun channel' e t ts b hlast hfresh => ?_⟩
    · rw [hsubscribers]
      exact h.subscribers key
    · have hmem := h.listed key channel' hkey
      unfold endpointsOf at hmem ⊢
      rw [hchannels, IndexMap.get_insert]
      split
      · rename_i heq
        rw [heq, hget] at hmem
        exact hmem
      · exact hmem
    · rw [hfbs] at hfb
      dsimp only
      by_cases hchannel : channel' = channel
      · rw [if_pos hchannel, IndexMap.get_retain_eq_some_iff, IndexMap.get_insert] at hfb
        rw [hchannel, Function.update_self]
        obtain ⟨hfb, -⟩ := hfb
        by_cases he : e = endpoint
        · rw [if_pos he] at hfb
          cases hfb
          rw [he, Function.update_self]
          exact ⟨track, bitrate, rfl, rfl⟩
        · rw [if_neg he, hold] at hfb
          rw [Function.update_of_ne he]
          exact h.kept channel e ts fb hfb
      · rw [if_neg hchannel] at hfb
        rw [Function.update_of_ne hchannel]
        exact h.kept channel' e ts fb hfb
    · dsimp only at hlast hfresh
      rw [hmax] at hfresh
      rw [hfbs]
      by_cases hchannel : channel' = channel
      · rw [if_pos hchannel, IndexMap.get_retain_eq_some_iff, IndexMap.get_insert]
        refine ⟨?_, decide_eq_true hfresh⟩
        rw [hchannel, Function.update_self] at hlast
        by_cases he : e = endpoint
        · rw [he, Function.update_self] at hlast
          cases hlast
          rw [if_pos he]
        · rw [Function.update_of_ne he] at hlast
          rw [if_neg he, hold]
          exact h.known channel e t ts b hlast (hfresh.earlier hclock)
      · rw [Function.update_of_ne hchannel] at hlast
        rw [if_neg hchannel]
        exact h.known channel' e t ts b hlast (hfresh.earlier hclock)

/-! ### The feedback -/

/-- Who the last to ask was for an endpoint, and for what. -/
def Demand.asked (d : Demand Endpoint) (channel : ChannelId) (endpoint : Endpoint) :
    (Endpoint × LocalTrackId) × UInt64 :=
  match d.last channel endpoint with
  | some (track, _, bitrate) => ((endpoint, track), bitrate)
  | none => ((endpoint, 0), 0)

omit [DecidableEq Endpoint] in
theorem Demand.asked_of_last {channel : ChannelId} {endpoint : Endpoint} {track : LocalTrackId}
    {ts : Instant} {bitrate : UInt64} (h : d.last channel endpoint = some (track, ts, bitrate)) :
    d.asked channel endpoint = ((endpoint, track), bitrate) := by
  simp only [Demand.asked, h]

omit [DecidableEq Endpoint] in
theorem Demand.asked_endpoint (d : Demand Endpoint) (channel : ChannelId) (endpoint : Endpoint) :
    (d.asked channel endpoint).1.1 = endpoint := by
  unfold Demand.asked
  split <;> rfl

/-- The tracks behind the requests kept for a channel. -/
def counted (d : Demand Endpoint) (s : RoomChannelSubscribe Endpoint Feedback)
    (channel : ChannelId) : List ((Endpoint × LocalTrackId) × UInt64) :=
  (fbsOf s channel).keys.map (d.asked channel)

/-- Where the requests are apart, the ones kept are the ones that count. -/
theorem Tallies.lists_counted (h : Tallies api room d s) {now : Instant} (hclock : d.clock = now)
    {channel : ChannelId}
    (hfresh : ∀ endpoint ts fb, (fbsOf s channel).get endpoint = some (ts, fb) → Fresh now ts)
    (hapart : d.Apart now channel) :
    Lists (counted d s channel) (d.Counts now channel) := by
  constructor
  · have hkeys : ((counted d s channel).map Prod.fst).map Prod.fst = (fbsOf s channel).keys := by
      rw [counted, List.map_map, List.map_map]
      exact (List.map_congr_left fun endpoint _ => d.asked_endpoint channel endpoint).trans
        (List.map_id _)
    refine List.Nodup.of_map Prod.fst ?_
    rw [hkeys]
    exact (fbsOf s channel).nodupKeys
  · rintro ⟨endpoint, track⟩ bitrate
    rw [counted, List.mem_map]
    constructor
    · rintro ⟨other, hmem, hasked⟩
      obtain ⟨⟨ts, fb⟩, hget⟩ := IndexMap.mem_keys_iff.mp hmem
      obtain ⟨track', bitrate', hlast, -⟩ := h.kept channel other ts fb hget
      rw [Demand.asked_of_last hlast] at hasked
      cases hasked
      have hnow := hfresh endpoint ts fb hget
      obtain ⟨hlive, hlatest⟩ := hapart.stays endpoint track ts bitrate hlast hnow
      exact ⟨hlive, ts, hlatest, hnow⟩
    · rintro ⟨hlive, ts, hlatest, hnow⟩
      have hlast := hapart.alone endpoint track ts bitrate hlive hlatest hnow
      have hget := h.known channel endpoint track ts bitrate hlast (hclock ▸ hnow)
      exact ⟨endpoint, IndexMap.mem_keys_iff.mpr ⟨_, hget⟩, Demand.asked_of_last hlast⟩

/-- What is summed for them is what is kept. -/
theorem Tallies.counted_requests (h : Tallies api room d s) (channel : ChannelId) :
    (counted d s channel).map (fun ask => request api ask.2) =
      (fbsOf s channel).values.map Prod.snd := by
  rw [counted, List.map_map, IndexMap.keys, IndexMap.values, List.map_map, List.map_map]
  apply List.map_congr_left
  rintro ⟨endpoint, ts, fb⟩ hmem
  have hget : (fbsOf s channel).get endpoint = some (ts, fb) := IndexMap.get_eq_some_iff.mpr hmem
  obtain ⟨track, bitrate, hlast, hfb⟩ := h.kept channel endpoint ts fb hget
  change request api (d.asked channel endpoint).2 = fb
  rw [Demand.asked_of_last hlast, hfb]

/-- **A request whose channel's requests are apart** sends the merge of what counts. -/
theorem Tallies.merges (hcomm : ∀ a b, api.add a b = api.add b a)
    (hassoc : ∀ a b c, api.add (api.add a b) c = api.add a (api.add b c))
    (h : Tallies api room d s) {now : Instant} (hclock : d.clock ≤ now) {endpoint : Endpoint}
    {track : LocalTrackId} {bitrate : UInt64}
    (hapart : ∀ channel, d.live (endpoint, track) = some channel →
      (d.ask now endpoint track bitrate).Apart now channel) {channel : ChannelId} {fb : Feedback}
    (hfb : .pubsub ⟨channel, .feedbackAuto fb⟩ ∈ (machine hasher api codec room).pushed s
      (s.onTrackDesiredBitrate api now endpoint track bitrate)) :
    Merges api fb ((d.ask now endpoint track bitrate).Counts now channel) := by
  have hafter := h.desiredBitrate hclock endpoint track bitrate
  cases hlive : d.live (endpoint, track) with
  | none =>
    have hnone : s.subscribers.get (endpoint, track) = none := by
      have hsub := h.subscribers (endpoint, track)
      rwa [hlive, Option.map_eq_none_iff] at hsub
    have hsame : s.onTrackDesiredBitrate api now endpoint track bitrate = s := by
      simp only [onTrackDesiredBitrate, hnone]
    have hpushed : (machine hasher api codec room).pushed s s = [] :=
      pushed_eq_of_append _ (List.append_nil _).symm
    rw [hsame, hpushed] at hfb
    cases hfb
  | some live =>
    obtain ⟨peer, name, container, hsub, hget, -⟩ := h.opened hlive
    obtain ⟨outs, hqueue, -, -, hchannels, houts⟩ :=
      onTrackDesiredBitrate_eq api now bitrate hsub hget
    rw [pushed_eq_of_append _ hqueue] at hfb
    obtain ⟨rfl, hsum⟩ := houts channel fb hfb
    have hnow : (d.ask now endpoint track bitrate).clock = now := by
      rw [Demand.ask_subscribed hlive]
      exact Nat.max_eq_right hclock
    have hkept := fbsOf_request hchannels channel
    rw [if_pos rfl] at hkept
    have hfresh : ∀ e ts fb', (fbsOf (s.onTrackDesiredBitrate api now endpoint track bitrate)
        channel).get e = some (ts, fb') → Fresh now ts := by
      intro e ts fb' hentry
      rw [hkept, IndexMap.get_retain_eq_some_iff] at hentry
      exact of_decide_eq_true hentry.2
    have hlists := hafter.lists_counted hnow hfresh (hapart channel hlive)
    refine merges_of_lists hcomm hassoc hlists ?_
    rw [hafter.counted_requests, hkept]
    exact hsum

/-! ### Main result -/

/-- The tables follow the inputs, and every feedback so far was right. -/
structure Sums (hasher : Hasher) (room : ClusterRoomHash) (api : FeedbackApi Feedback)
    (history : History (Input Endpoint) (Output Endpoint Feedback))
    (s : RoomChannelSubscribe Endpoint Feedback) : Prop where
  tallies : Tallies api room (demand hasher room history) s
  aggregated : Aggregated hasher room api history

theorem Aggregated.concat {history : History (Input Endpoint) (Output Endpoint Feedback)}
    (h : Aggregated hasher room api history) {input : Input Endpoint}
    {pushed : List (Output Endpoint Feedback)}
    (hlast : ∀ now endpoint track bitrate,
      input = .desiredBitrate now endpoint track bitrate →
        ∀ channel fb, .pubsub ⟨channel, .feedbackAuto fb⟩ ∈ pushed →
          Merges api fb ((demand hasher room (history ++ [(input, pushed)])).Counts now channel)) :
    Aggregated hasher room api (history ++ [(input, pushed)]) := by
  intro before now endpoint track bitrate pushed' after heq channel fb hfb
  rcases prefix_concat_cases heq with ⟨-, hnil⟩ | ⟨rest, hrest, hbefore⟩
  · cases hnil
  · cases rest with
    | nil =>
      cases hrest
      rw [List.append_nil] at hbefore
      subst hbefore
      exact hlast now endpoint track bitrate rfl channel fb hfb
    | cons entry rest =>
      cases hrest
      exact h before now endpoint track bitrate pushed' rest hbefore channel fb hfb

/-- **Every input that meets the condition** keeps the tables and sends what it should. -/
theorem sums_step (hcomm : ∀ a b, api.add a b = api.add b a)
    (hassoc : ∀ a b c, api.add (api.add a b) c = api.add a (api.add b c))
    {history : History (Input Endpoint) (Output Endpoint Feedback)} {input : Input Endpoint}
    (h : Sums hasher room api history s) (hforward : Forward hasher room history s input)
    (hseparate : Separate hasher room history s input) :
    Sums hasher room api
      (history ++ [(input,
        (machine hasher api codec room).pushed s (step hasher api codec s input))])
      (step hasher api codec s input) := by
  constructor
  · rw [demand_concat]
    cases input with
    | relayChanged channel relay =>
      change Tallies api room (demand hasher room history) (s.onTrackRelayChanged channel relay)
      unfold onTrackRelayChanged
      split
      · exact h.tallies
      · exact h.tallies.same rfl rfl rfl
    | data channel data =>
      change Tallies api room (demand hasher room history) (s.onTrackData codec channel data)
      unfold RoomChannelSubscribe.onTrackData
      split
      · exact h.tallies
      · split
        · exact h.tallies
        · exact h.tallies.same rfl rfl rfl
    | requestKey endpoint track =>
      change Tallies api room (demand hasher room history)
        (s.onTrackRequestKey api endpoint track)
      unfold onTrackRequestKey
      split
      · exact h.tallies
      · exact h.tallies.same rfl rfl rfl
    | subscribe endpoint track peer name => exact h.tallies.subscribe endpoint track peer name _
    | desiredBitrate now endpoint track bitrate =>
      exact h.tallies.desiredBitrate hforward endpoint track bitrate
    | unsubscribe endpoint track => exact h.tallies.unsubscribe endpoint track
  · refine h.aggregated.concat ?_
    rintro now endpoint track bitrate rfl channel fb hfb
    rw [demand_concat]
    exact h.tallies.merges hcomm hassoc hforward hseparate hfb

/-- **A bitrate feedback is the merge of what the subscribed tracks ask for** in every run in which
    the requests on a channel are apart whenever one is made. -/
theorem feedback_aggregated (hasher : Hasher) (api : FeedbackApi Feedback)
    (codec : Bincode MediaPacket) (room : ClusterRoomHash)
    (hcomm : ∀ a b, api.add a b = api.add b a)
    (hassoc : ∀ a b c, api.add (api.add a b) c = api.add a (api.add b c))
    {acts : List (Action (Input Endpoint))}
    {c : Config (RoomChannelSubscribe Endpoint Feedback) (Input Endpoint)
      (Output Endpoint Feedback)}
    (hforward : (machine hasher api codec room).Admits (Forward hasher room) acts)
    (hseparate : (machine hasher api codec room).Admits (Separate hasher room) acts)
    (hrun : (machine hasher api codec room).run acts = .ok c) :
    Aggregated hasher room api c.history := by
  have hsums := run_invariant
    (fun history s input => Forward hasher room history s input ∧
      Separate hasher room history s input) (Sums hasher room api) ?_ ?_ ?_
    (hforward.and hseparate) hrun
  · exact hsums.aggregated
  · refine ⟨tallies_init, ?_⟩
    intro before now endpoint track bitrate pushed after heq
    simp at heq
  · rintro history s input s' h ⟨hclock, hapart⟩ hstep
    cases hstep
    exact sums_step hcomm hassoc h hclock hapart
  · intro history s h
    exact ⟨h.tallies.same rfl rfl rfl, h.aggregated⟩

/-! ### Viewers with one track each -/

/-- No request is left behind and none is hidden. -/
def Demand.Agrees (d : Demand Endpoint) : Prop :=
  ∀ channel endpoint track ts bitrate, d.last channel endpoint = some (track, ts, bitrate) ↔
    d.live (endpoint, track) = some channel ∧ d.latest (endpoint, track) = some (ts, bitrate)

omit [DecidableEq Endpoint] in
theorem Demand.Agrees.apart (h : d.Agrees) (now : Instant) (channel : ChannelId) :
    d.Apart now channel :=
  ⟨fun endpoint track ts bitrate hlast _ => (h channel endpoint track ts bitrate).mp hlast,
    fun endpoint track ts bitrate hlive hlatest _ =>
      (h channel endpoint track ts bitrate).mpr ⟨hlive, hlatest⟩⟩

theorem agrees_init : (demand hasher room
    ([] : History (Input Endpoint) (Output Endpoint Feedback))).Agrees := by
  intro channel endpoint track ts bitrate
  constructor
  · intro h
    cases h
  · rintro ⟨h, -⟩
    cases h

theorem Demand.Agrees.subscribe (h : d.Agrees) {endpoint : Endpoint} {track : LocalTrackId}
    (hlive : d.live (endpoint, track) = none) (peer : PeerId) (name : TrackName)
    (pushed : List (Output Endpoint Feedback)) :
    (d.step hasher room (.subscribe endpoint track peer name) pushed).Agrees := by
  intro channel e t ts bitrate
  simp only [Demand.step, liveStep]
  by_cases hkey : (e, t) = (endpoint, track)
  · rw [hkey, Function.update_self, Function.update_self, h, hkey, hlive]
    constructor
    · rintro ⟨hnone, -⟩
      cases hnone
    · rintro ⟨-, hnone⟩
      cases hnone
  · rw [Function.update_of_ne hkey, Function.update_of_ne hkey]
    exact h channel e t ts bitrate

theorem Demand.Agrees.ask (h : d.Agrees) (endpoint : Endpoint) (track : LocalTrackId)
    {channel : ChannelId} (hlive : d.live (endpoint, track) = some channel)
    (hown : ((d.last channel endpoint).all fun asked => decide (asked.1 = track)) = true)
    (now : Instant) (bitrate : UInt64) : (d.ask now endpoint track bitrate).Agrees := by
  intro channel' e t ts b
  rw [Demand.ask_subscribed hlive]
  dsimp only
  by_cases hkey : (e, t) = (endpoint, track)
  · cases hkey
    rw [Function.update_self, hlive]
    by_cases hchannel : channel' = channel
    · subst hchannel
      rw [Function.update_self, Function.update_self]
      simp
    · rw [Function.update_of_ne hchannel, h, hlive]
      simp [Ne.symm hchannel]
  · rw [Function.update_of_ne hkey, ← h]
    by_cases hchannel : channel' = channel
    · subst hchannel
      rw [Function.update_self]
      by_cases he : e = endpoint
      · subst he
        rw [Function.update_self]
        constructor
        · intro heq
          cases heq
          exact absurd rfl hkey
        · intro heq
          rw [heq] at hown
          exact absurd (congrArg (Prod.mk e) (of_decide_eq_true hown)) hkey
      · rw [Function.update_of_ne he]
    · rw [Function.update_of_ne hchannel]

end Runs

/-! ### Two viewers -/

/-- A feedback to evaluate the model with: it counts, and keeps the largest, the smallest and the
    sum. -/
structure MergedFeedback where
  kind : Nat
  count : Nat
  max : Nat
  min : Nat
  sum : Nat
  intervalMs : Nat
  timeoutMs : Nat
deriving DecidableEq, Repr

namespace MergedFeedback

def merge (a b : MergedFeedback) : MergedFeedback where
  kind := Nat.max a.kind b.kind
  count := a.count + b.count
  max := Nat.max a.max b.max
  min := Nat.min a.min b.min
  sum := a.sum + b.sum
  intervalMs := Nat.min a.intervalMs b.intervalMs
  timeoutMs := Nat.max a.timeoutMs b.timeoutMs

def api : FeedbackApi MergedFeedback where
  kind fb := UInt8.ofNat fb.kind
  min fb := UInt64.ofNat fb.min
  max fb := UInt64.ofNat fb.max
  simple kind value intervalMs timeoutMs :=
    ⟨kind.toNat, 1, value.toNat, value.toNat, value.toNat, intervalMs.toNat, timeoutMs.toNat⟩
  add := merge

theorem merge_comm (a b : MergedFeedback) : merge a b = merge b a := by
  simp only [merge, Nat.max_comm, Nat.min_comm, Nat.add_comm]

theorem merge_assoc (a b c : MergedFeedback) : merge (merge a b) c = merge a (merge b c) := by
  simp only [merge, Nat.max_assoc, Nat.min_assoc, Nat.add_assoc]

end MergedFeedback

/-- Two endpoints watch one track and ask for bitrates. -/
def twoViewers : List (Action (Input Nat)) :=
  [.input (.subscribe 1 5 "alice" "cam"), .input (.subscribe 2 6 "alice" "cam"),
    .input (.desiredBitrate 0 1 5 1000), .input (.desiredBitrate 100000000 2 6 2000)]

theorem feedback_aggregated_twoViewers :
    ∃ c, (machine fnv1a MergedFeedback.api Publisher.emptyCodec 0).run twoViewers = .ok c ∧
      .pubsub ⟨IdGenerator.genTrackChannelId fnv1a 0 "alice" "cam",
        .feedbackAuto ⟨0, 2, 2000, 1000, 3000, 100, 2000⟩⟩ ∈ emitted c.history ∧
      Aggregated fnv1a 0 MergedFeedback.api c.history := by
  have hnobody : (demand fnv1a 0 ([] : History (Input Nat) (Output Nat MergedFeedback))).Agrees :=
    agrees_init
  have hone : (demand fnv1a 0 ([(.subscribe 1 5 "alice" "cam", [])] :
      History (Input Nat) (Output Nat MergedFeedback))).Agrees :=
    hnobody.subscribe rfl "alice" "cam" ([] : List (Output Nat MergedFeedback))
  have htwo : (demand fnv1a 0 ([(.subscribe 1 5 "alice" "cam", []),
      (.subscribe 2 6 "alice" "cam", [])] :
      History (Input Nat) (Output Nat MergedFeedback))).Agrees :=
    hone.subscribe rfl "alice" "cam" ([] : List (Output Nat MergedFeedback))
  have hfirst := htwo.ask 1 5 rfl (by decide) 0 1000
  have hsecond := hfirst.ask 2 6 rfl (by decide +kernel) 100000000 2000
  have hseparate : (machine fnv1a MergedFeedback.api Publisher.emptyCodec 0).Admits
      (Separate fnv1a 0) twoViewers := by
    refine AdmitsFrom.admits ⟨trivial, trivial, ?_, ?_, trivial⟩
    · intro channel hlive
      exact hfirst.apart 0 channel
    · intro channel hlive
      exact hsecond.apart 100000000 channel
  have hforward : (machine fnv1a MergedFeedback.api Publisher.emptyCodec 0).Admits
      (Forward fnv1a 0) twoViewers :=
    AdmitsFrom.admits ⟨trivial, trivial, Nat.zero_le _, Nat.zero_le _, trivial⟩
  have hrun : ∃ c, (machine fnv1a MergedFeedback.api Publisher.emptyCodec 0).run twoViewers = .ok c ∧
      .pubsub ⟨IdGenerator.genTrackChannelId fnv1a 0 "alice" "cam",
        .feedbackAuto ⟨0, 2, 2000, 1000, 3000, 100, 2000⟩⟩ ∈ emitted c.history :=
    ⟨_, rfl, by decide +kernel⟩
  obtain ⟨c, hc, hsent⟩ := hrun
  exact ⟨c, hc, hsent, feedback_aggregated fnv1a MergedFeedback.api Publisher.emptyCodec 0
    MergedFeedback.merge_comm MergedFeedback.merge_assoc hforward hseparate hc⟩

/-- A viewer asks for a bitrate and leaves before another one asks. -/
def leftBehind : List (Action (Input Nat)) :=
  [.input (.subscribe 1 5 "alice" "cam"), .input (.subscribe 2 6 "alice" "cam"),
    .input (.desiredBitrate 0 1 5 1000), .input (.unsubscribe 1 5),
    .input (.desiredBitrate 100000000 2 6 2000)]

/-- Two tracks of one viewer watch one track. -/
def twoScreens : List (Action (Input Nat)) :=
  [.input (.subscribe 1 5 "alice" "cam"), .input (.subscribe 1 6 "alice" "cam"),
    .input (.desiredBitrate 0 1 5 1000), .input (.desiredBitrate 100000000 1 6 2000)]

/-- The request of the track that unsubscribed is merged, and of two tracks of an endpoint one is
    left out. -/
theorem not_aggregated :
    (∃ c, (machine fnv1a MergedFeedback.api Publisher.emptyCodec 0).run leftBehind = .ok c ∧
      ¬Aggregated fnv1a 0 MergedFeedback.api c.history) ∧
    (∃ c, (machine fnv1a MergedFeedback.api Publisher.emptyCodec 0).run twoScreens = .ok c ∧
      ¬Aggregated fnv1a 0 MergedFeedback.api c.history) := by
  constructor
  · refine ⟨_, rfl, fun h => ?_⟩
    have hlast := h [_, _, _, _] 100000000 2 6 2000 _ [] rfl
      (IdGenerator.genTrackChannelId fnv1a 0 "alice" "cam") ⟨0, 2, 2000, 1000, 3000, 100, 2000⟩
      (by decide +kernel)
    refine absurd (hlast.2 [((2, 6), 2000)] ⟨by decide, fun key bitrate => ?_⟩) (by decide)
    rw [List.mem_singleton]
    constructor
    · intro heq
      cases heq
      exact ⟨by decide +kernel, 100000000, by decide +kernel, by decide⟩
    · rintro ⟨-, ts, hlatest, -⟩
      change Function.update (Function.update (Function.update (Function.update (Function.update
        (fun _ => none) (1, 5) none) (2, 6) none) (1, 5) (some (0, 1000))) (1, 5) none) (2, 6)
        (some (100000000, 2000)) key = some (ts, bitrate) at hlatest
      simp only [Function.update_apply] at hlatest
      split at hlatest
      · rename_i hkey
        cases hlatest
        rw [hkey]
      · split at hlatest
        · cases hlatest
        · cases hlatest
  · refine ⟨_, rfl, fun h => ?_⟩
    have hlast := h [_, _, _] 100000000 1 6 2000 _ [] rfl
      (IdGenerator.genTrackChannelId fnv1a 0 "alice" "cam") ⟨0, 1, 2000, 2000, 2000, 100, 2000⟩
      (by decide +kernel)
    refine absurd (hlast.2 [((1, 5), 1000), ((1, 6), 2000)] ⟨by decide, fun key bitrate => ?_⟩)
      (by decide)
    rw [List.mem_cons, List.mem_singleton]
    constructor
    · rintro (heq | heq)
      · cases heq
        exact ⟨by decide +kernel, 0, by decide +kernel, by decide⟩
      · cases heq
        exact ⟨by decide +kernel, 100000000, by decide +kernel, by decide⟩
    · rintro ⟨-, ts, hlatest, -⟩
      change Function.update (Function.update (Function.update (Function.update
        (fun _ => none) (1, 5) none) (1, 6) none) (1, 5) (some (0, 1000))) (1, 6)
        (some (100000000, 2000)) key = some (ts, bitrate) at hlatest
      simp only [Function.update_apply] at hlatest
      split at hlatest
      · rename_i hkey
        cases hlatest
        rw [hkey]
        exact Or.inr rfl
      · split at hlatest
        · rename_i hkey
          cases hlatest
          rw [hkey]
          exact Or.inl rfl
        · simp at hlatest

end MediaServer.MediaTrack.Subscriber
