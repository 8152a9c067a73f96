import MediaServer.Cluster.MediaTrack.Subscriber
import MediaServer.Cluster.MessageChannel.Table
import Mathlib.Data.Set.Function
import Mathlib.Data.Set.Insert

/-!
# Message channels

The two halves of `media_core/src/cluster/room/message_channel.rs` as components:
who publishes to a labelled channel and who subscribes to it.  Clients may repeat
calls, stop what they never started, and leave without cleaning up.

`Memberships` is what the calls alone say, a set of pairs of an endpoint and a label.
The main result compares both components with it after every run: the maps are the
relation, the controls of a channel follow whether it has a member, a message goes
to the members of its channel, and a member that leaves is forgotten.
-/

namespace MediaServer.MessageChannel

open Collections Lease Machine Pubsub

structure MessageChannelPacket where
  sender : PeerId
  data : Bytes

/-- A table that needs to remember nothing of a channel but its publishers. -/
abbrev MessageChannelPublisher (Endpoint Feedback : Type) := ChannelTable Endpoint Unit Feedback

/-- A table that remembers the label of a channel, to name it to its subscribers. -/
abbrev MessageChannelSubscriber (Endpoint Feedback : Type) :=
  ChannelTable Endpoint MessageChannelLabel Feedback

variable {Endpoint Feedback Info : Type} [DecidableEq Endpoint]

namespace MessageChannelPublisher

def onChannelPubStart (hasher : Hasher) (p : MessageChannelPublisher Endpoint Feedback)
    (endpoint : Endpoint) (label : MessageChannelLabel) :
    MessageChannelPublisher Endpoint Feedback :=
  p.enter .pubStart () endpoint (IdGenerator.genMsgChannelId hasher p.room label)

def onChannelPubStop (hasher : Hasher) (p : MessageChannelPublisher Endpoint Feedback)
    (endpoint : Endpoint) (label : MessageChannelLabel) :
    MessageChannelPublisher Endpoint Feedback :=
  p.quit .pubStop endpoint (IdGenerator.genMsgChannelId hasher p.room label)

def onLeave (p : MessageChannelPublisher Endpoint Feedback) (endpoint : Endpoint) :
    MessageChannelPublisher Endpoint Feedback :=
  p.leave .pubStop endpoint

def onChannelData (hasher : Hasher) (codec : Bincode MessageChannelPacket)
    (p : MessageChannelPublisher Endpoint Feedback) (endpoint : Endpoint)
    (label : MessageChannelLabel) (data : MessageChannelPacket) :
    MessageChannelPublisher Endpoint Feedback :=
  let channelId := IdGenerator.genMsgChannelId hasher p.room label
  match p.channels.get channelId with
  | none => p
  | some channel =>
      if endpoint ∈ channel.members then
        p.push [.pubsub ⟨channelId, .pubData (codec.serialize data)⟩]
      else p

end MessageChannelPublisher

namespace MessageChannelSubscriber

def onChannelSubscribe (hasher : Hasher) (s : MessageChannelSubscriber Endpoint Feedback)
    (endpoint : Endpoint) (label : MessageChannelLabel) :
    MessageChannelSubscriber Endpoint Feedback :=
  s.enter .subAuto label endpoint (IdGenerator.genMsgChannelId hasher s.room label)

def onChannelUnsubscribe (hasher : Hasher) (s : MessageChannelSubscriber Endpoint Feedback)
    (endpoint : Endpoint) (label : MessageChannelLabel) :
    MessageChannelSubscriber Endpoint Feedback :=
  s.quit .unsubAuto endpoint (IdGenerator.genMsgChannelId hasher s.room label)

def onLeave (s : MessageChannelSubscriber Endpoint Feedback) (endpoint : Endpoint) :
    MessageChannelSubscriber Endpoint Feedback :=
  s.leave .unsubAuto endpoint

omit [DecidableEq Endpoint] in
def onChannelData (codec : Bincode MessageChannelPacket)
    (s : MessageChannelSubscriber Endpoint Feedback) (channelId : ChannelId) (data : Bytes) :
    MessageChannelSubscriber Endpoint Feedback :=
  match s.channels.get channelId with
  | none => s
  | some channel =>
      match codec.deserialize data with
      | none => s
      | some pkt =>
          s.push [.endpoint channel.members.toList
            (.messageChannelData channel.info pkt.sender pkt.data)]

end MessageChannelSubscriber

/-! ### Memberships, by the calls alone -/

/-- Which endpoint is a member of which labelled channel. -/
abbrev Memberships (Endpoint : Type) := Set (Endpoint × MessageChannelLabel)

/-- What a call changes about memberships. -/
inductive Change (Endpoint : Type) where
  | enter (endpoint : Endpoint) (label : MessageChannelLabel)
  | quit (endpoint : Endpoint) (label : MessageChannelLabel)
  | leave (endpoint : Endpoint)
  | nothing

def Change.apply (rel : Memberships Endpoint) : Change Endpoint → Memberships Endpoint
  | .enter endpoint label => insert (endpoint, label) rel
  | .quit endpoint label => rel \ {(endpoint, label)}
  | .leave endpoint => {pair ∈ rel | pair.1 ≠ endpoint}
  | .nothing => rel

/-- The label a call names, if any. -/
def Change.label : Change Endpoint → Option MessageChannelLabel
  | .enter _ label => some label
  | .quit _ label => some label
  | .leave _ => none
  | .nothing => none

/-- The table of a room against the memberships; only the given labels are in use. -/
structure Mirrors (hasher : Hasher) (room : ClusterRoomHash) (labels : Set MessageChannelLabel)
    (rel : Memberships Endpoint) (t : ChannelTable Endpoint Info Feedback) : Prop where
  inverse : t.Inverse
  members : ∀ c e, e ∈ t.membersOf c ↔
    ∃ label, (e, label) ∈ rel ∧ IdGenerator.genMsgChannelId hasher room label = c
  known : ∀ e label, (e, label) ∈ rel → label ∈ labels

variable {hasher : Hasher} {room : ClusterRoomHash} {labels : Set MessageChannelLabel}
  {rel : Memberships Endpoint} {t : ChannelTable Endpoint Info Feedback}

theorem mirrors_new :
    Mirrors hasher room labels ∅ (ChannelTable.new room : ChannelTable Endpoint Info Feedback) :=
  ⟨ChannelTable.inverse_new room, fun c e => by simp [ChannelTable.new, ChannelTable.membersOf],
    fun e label h => by cases h⟩

theorem Mirrors.enter (h : Mirrors hasher room labels rel t) (start : ChannelControl Feedback)
    (info : Info) (endpoint : Endpoint) {label : MessageChannelLabel} (hlabel : label ∈ labels) :
    Mirrors hasher room labels (Change.apply rel (.enter endpoint label))
      (t.enter start info endpoint (IdGenerator.genMsgChannelId hasher room label)) := by
  obtain ⟨hinverse, hmem, -⟩ := h.inverse.enter start info endpoint
    (IdGenerator.genMsgChannelId hasher room label)
  refine ⟨hinverse, fun c e => ?_, ?_⟩
  · rw [hmem, h.members]
    simp only [Change.apply, Set.mem_insert_iff, Prod.mk.injEq]
    constructor
    · rintro (⟨label', hin, hc⟩ | ⟨rfl, rfl⟩)
      · exact ⟨label', Or.inr hin, hc⟩
      · exact ⟨label, Or.inl ⟨rfl, rfl⟩, rfl⟩
    · rintro ⟨label', ⟨rfl, rfl⟩ | hin, hc⟩
      · exact Or.inr ⟨rfl, hc.symm⟩
      · exact Or.inl ⟨label', hin, hc⟩
  · rintro e label' (heq | hin)
    · cases heq
      exact hlabel
    · exact h.known e label' hin

theorem Mirrors.quit (h : Mirrors hasher room labels rel t)
    (hinj : Set.InjOn (IdGenerator.genMsgChannelId hasher room) labels)
    (stop : ChannelControl Feedback) (endpoint : Endpoint) {label : MessageChannelLabel}
    (hlabel : label ∈ labels) :
    Mirrors hasher room labels (Change.apply rel (.quit endpoint label))
      (t.quit stop endpoint (IdGenerator.genMsgChannelId hasher room label)) := by
  obtain ⟨hinverse, hmem, -⟩ := h.inverse.quit stop endpoint
    (IdGenerator.genMsgChannelId hasher room label)
  refine ⟨hinverse, fun c e => ?_, fun e label' hin => h.known e label' hin.1⟩
  rw [hmem, h.members]
  simp only [Change.apply, Set.mem_sdiff, Set.mem_singleton_iff, Prod.mk.injEq]
  constructor
  · rintro ⟨⟨label', hin, hc⟩, hne⟩
    refine ⟨label', ⟨hin, ?_⟩, hc⟩
    rintro ⟨rfl, rfl⟩
    exact hne ⟨rfl, hc.symm⟩
  · rintro ⟨label', ⟨hin, hne⟩, hc⟩
    refine ⟨⟨label', hin, hc⟩, ?_⟩
    rintro ⟨rfl, hsame⟩
    exact hne ⟨rfl, hinj (h.known e label' hin) hlabel (hc.trans hsame)⟩

theorem Mirrors.leave (h : Mirrors hasher room labels rel t) (stop : ChannelControl Feedback)
    (endpoint : Endpoint) :
    Mirrors hasher room labels (Change.apply rel (.leave endpoint)) (t.leave stop endpoint) := by
  obtain ⟨hinverse, hmem, -, -⟩ := h.inverse.leave stop endpoint
  refine ⟨hinverse, fun c e => ?_, fun e label hin => h.known e label hin.1⟩
  rw [hmem, h.members]
  constructor
  · rintro ⟨⟨label, hin, hc⟩, hne⟩
    exact ⟨label, ⟨hin, hne⟩, hc⟩
  · rintro ⟨label, ⟨hin, hne⟩, hc⟩
    exact ⟨⟨label, hin, hc⟩, hne⟩

theorem Mirrors.frame {t' : ChannelTable Endpoint Info Feedback}
    (h : Mirrors hasher room labels rel t) (hchannels : t'.channels = t.channels)
    (hmembers : t'.members = t.members) : Mirrors hasher room labels rel t' := by
  have hof : ∀ c, t'.membersOf c = t.membersOf c := by
    intro c
    rw [ChannelTable.membersOf, hchannels, ChannelTable.membersOf]
  refine ⟨⟨fun c e => ?_, fun c k hk => ?_, fun e cs hcs => ?_⟩, fun c e => ?_, h.known⟩
  · rw [hof, h.inverse.mem_iff, ChannelTable.channelsOf, ChannelTable.channelsOf, hmembers]
  · exact h.inverse.channels_nonempty c k (hchannels ▸ hk)
  · exact h.inverse.members_nonempty e cs (hmembers ▸ hcs)
  · rw [hof, h.members]

/-! ### The controls of a channel -/

/-- How the commands of one kind of channel are read off outputs. -/
structure Speaks (command : ChannelId → Output Endpoint Feedback → Option Lease.Command)
    (start stop : ChannelControl Feedback) : Prop where
  start : ∀ c c', command c (.pubsub ⟨c', start⟩) = if c' = c then some .acquire else none
  stop : ∀ c c', command c (.pubsub ⟨c', stop⟩) = if c' = c then some .release else none

omit [DecidableEq Endpoint] in
theorem speaks_pub :
    @Speaks Endpoint Feedback MediaTrack.Publisher.pubCommand .pubStart .pubStop :=
  ⟨fun _ _ => rfl, fun _ _ => rfl⟩

omit [DecidableEq Endpoint] in
theorem speaks_sub :
    @Speaks Endpoint Feedback MediaTrack.Subscriber.subCommand .subAuto .unsubAuto :=
  ⟨fun _ _ => rfl, fun _ _ => rfl⟩

variable {command : ChannelId → Output Endpoint Feedback → Option Lease.Command}
  {start stop : ChannelControl Feedback}

theorem Speaks.enter (hspeaks : Speaks command start stop) (h : t.Inverse) (info : Info)
    (endpoint : Endpoint) (channelId c : ChannelId) :
    ∃ outputs, (t.enter start info endpoint channelId).queue = t.queue ++ outputs ∧
      outputs.filterMap (command c) =
        edge (t.used c) ((t.enter start info endpoint channelId).used c) := by
  obtain ⟨-, hmem, hqueue⟩ := h.enter start info endpoint channelId
  refine ⟨_, hqueue, ?_⟩
  by_cases hc : c = channelId
  · subst hc
    have hnow : (t.enter start info endpoint c).used c = true :=
      ChannelTable.used_eq_true_iff.mpr ⟨endpoint, (hmem c endpoint).mpr (Or.inr ⟨rfl, rfl⟩)⟩
    rw [hnow]
    cases t.used c with
    | true => rfl
    | false => simp [hspeaks.start, edge]
  · have hsame : (t.enter start info endpoint channelId).used c = t.used c :=
      ChannelTable.used_congr fun e => by rw [hmem]; simp [hc]
    rw [hsame, edge_self]
    split
    · rfl
    · simp [hspeaks.start, Ne.symm hc]

theorem Speaks.quit (hspeaks : Speaks command start stop) (h : t.Inverse)
    (endpoint : Endpoint) (channelId c : ChannelId) :
    ∃ outputs, (t.quit stop endpoint channelId).queue = t.queue ++ outputs ∧
      outputs.filterMap (command c) =
        edge (t.used c) ((t.quit stop endpoint channelId).used c) := by
  obtain ⟨-, hmem, hqueue⟩ := h.quit stop endpoint channelId
  refine ⟨_, hqueue, ?_⟩
  by_cases hc : c = channelId
  · subst hc
    cases hbefore : t.used c with
    | true =>
      cases (t.quit stop endpoint c).used c with
      | true => simp [edge]
      | false => simp [hspeaks.stop, edge]
    | false =>
      have hafter : (t.quit stop endpoint c).used c = false := by
        refine ChannelTable.used_eq_false_iff.mpr fun e he => ?_
        exact ChannelTable.used_eq_false_iff.mp hbefore e ((hmem c e).mp he).1
      simp [hafter]
  · have hsame : (t.quit stop endpoint channelId).used c = t.used c :=
      ChannelTable.used_congr fun e => by rw [hmem]; simp [hc]
    rw [hsame, edge_self]
    split
    · simp [hspeaks.stop, Ne.symm hc]
    · rfl

omit [DecidableEq Endpoint] in
theorem Speaks.stops (hspeaks : Speaks command start stop) {channels : List ChannelId}
    (hnodup : channels.Nodup) (c : ChannelId) :
    (channels.map fun c' => .pubsub ⟨c', stop⟩).filterMap (command c) =
      if c ∈ channels then [.release] else [] := by
  induction channels with
  | nil => rfl
  | cons first rest ih =>
    rw [List.nodup_cons] at hnodup
    rw [List.map_cons, List.filterMap_cons, hspeaks.stop, ih hnodup.2]
    by_cases hfirst : first = c
    · subst hfirst
      simp [hnodup.1]
    · simp [hfirst, Ne.symm hfirst]

/-- A channel is released by a leave exactly when the leaving member was its last. -/
theorem mem_lastOf (h : t.Inverse) (endpoint : Endpoint) (c : ChannelId) :
    c ∈ t.lastOf endpoint (t.channelsOf endpoint).toList ↔
      ∀ e, e ∈ t.membersOf c ↔ e = endpoint := by
  rw [ChannelTable.lastOf, List.mem_filter, IndexSet.mem_toList, ← h.mem_iff,
    IndexSet.isEmpty_iff]
  constructor
  · rintro ⟨hin, hothers⟩ e
    constructor
    · intro hmem
      by_contra hne
      exact hothers e (IndexSet.mem_swapRemove.mpr ⟨hne, hmem⟩)
    · rintro rfl
      exact hin
  · intro honly
    refine ⟨(honly endpoint).mpr rfl, fun e he => ?_⟩
    obtain ⟨hne, hmem⟩ := IndexSet.mem_swapRemove.mp he
    exact hne ((honly e).mp hmem)

theorem Speaks.leave (hspeaks : Speaks command start stop) (h : t.Inverse)
    (endpoint : Endpoint) (c : ChannelId) :
    ∃ outputs, (t.leave stop endpoint).queue = t.queue ++ outputs ∧
      outputs.filterMap (command c) = edge (t.used c) ((t.leave stop endpoint).used c) := by
  obtain ⟨-, hmem, -, hqueue⟩ := h.leave stop endpoint
  have hnodup : (t.lastOf endpoint (t.channelsOf endpoint).toList).Nodup :=
    (t.channelsOf endpoint).nodup_toList.filter _
  refine ⟨_, hqueue, ?_⟩
  rw [hspeaks.stops hnodup]
  by_cases hlast : c ∈ t.lastOf endpoint (t.channelsOf endpoint).toList
  · have honly := (mem_lastOf h endpoint c).mp hlast
    have hbefore : t.used c = true :=
      ChannelTable.used_eq_true_iff.mpr ⟨endpoint, (honly endpoint).mpr rfl⟩
    have hafter : (t.leave stop endpoint).used c = false := by
      refine ChannelTable.used_eq_false_iff.mpr fun e he => ?_
      obtain ⟨hin, hne⟩ := (hmem c e).mp he
      exact hne ((honly e).mp hin)
    rw [if_pos hlast, hbefore, hafter]
    rfl
  · rw [if_neg hlast]
    cases hbefore : t.used c with
    | false =>
      have hafter : (t.leave stop endpoint).used c = false := by
        refine ChannelTable.used_eq_false_iff.mpr fun e he => ?_
        exact ChannelTable.used_eq_false_iff.mp hbefore e ((hmem c e).mp he).1
      rw [hafter]
      rfl
    | true =>
      -- some other member remains, or the leaving one was the last
      have hafter : (t.leave stop endpoint).used c = true := by
        by_contra hnot
        rw [Bool.not_eq_true] at hnot
        have hnone := ChannelTable.used_eq_false_iff.mp hnot
        obtain ⟨witness, hwitness⟩ := ChannelTable.used_eq_true_iff.mp hbefore
        have heq : ∀ e, e ∈ t.membersOf c → e = endpoint := by
          intro e he
          by_contra hne
          exact hnone e ((hmem c e).mpr ⟨he, hne⟩)
        refine hlast ((mem_lastOf h endpoint c).mpr fun e => ⟨heq e, ?_⟩)
        rintro rfl
        rw [← heq witness hwitness]
        exact hwitness
      rw [hafter]
      rfl

/-! ### The relation and the controls together -/

/-- The table is the memberships, and the controls of every channel alternate and are
    outstanding exactly while it has a member. -/
structure TableKept (hasher : Hasher) (room : ClusterRoomHash)
    (labels : Set MessageChannelLabel)
    (command : ChannelId → Output Endpoint Feedback → Option Lease.Command)
    (log : List (Output Endpoint Feedback)) (rel : Memberships Endpoint)
    (t : ChannelTable Endpoint Info Feedback) : Prop where
  mirrors : Mirrors hasher room labels rel t
  lease : ∀ c, LeaseTrace (log.filterMap (command c)) (∃ e, e ∈ t.membersOf c)

variable {log : List (Output Endpoint Feedback)}

theorem tableKept_new :
    TableKept hasher room labels command [] ∅
      (ChannelTable.new room : ChannelTable Endpoint Info Feedback) :=
  ⟨mirrors_new, fun c => LeaseTrace.nil (by simp [ChannelTable.new, ChannelTable.membersOf])⟩

/-- A change of the table that reports which channels gained or lost their members. -/
theorem TableKept.step {t' : ChannelTable Endpoint Info Feedback} {rel' : Memberships Endpoint}
    (h : TableKept hasher room labels command log rel t)
    (hmirrors : Mirrors hasher room labels rel' t') {outputs : List (Output Endpoint Feedback)}
    (hedge : ∀ c, outputs.filterMap (command c) = edge (t.used c) (t'.used c)) :
    TableKept hasher room labels command (log ++ outputs) rel' t' := by
  refine ⟨hmirrors, fun c => ?_⟩
  have hlease := (h.lease c).congr (ChannelTable.used_eq_true_iff (t := t)).symm
  rw [List.filterMap_append, hedge c]
  exact hlease.edge.congr ChannelTable.used_eq_true_iff

/-- What a leave must achieve: the member is forgotten everywhere, and the channels that
    it alone held are released. -/
structure LeftBehind (stop : ChannelControl Feedback) (t : ChannelTable Endpoint Info Feedback)
    (endpoint : Endpoint) (t' : ChannelTable Endpoint Info Feedback) : Prop where
  members : ∀ c, endpoint ∉ t'.membersOf c
  channels : t'.members.get endpoint = none
  released : ∀ c, (∀ e, e ∈ t.membersOf c ↔ e = endpoint) →
    ∃ outputs, t'.queue = t.queue ++ outputs ∧ .pubsub ⟨c, stop⟩ ∈ outputs

theorem leftBehind_leave (h : t.Inverse) (stop : ChannelControl Feedback) (endpoint : Endpoint) :
    LeftBehind stop t endpoint (t.leave stop endpoint) := by
  obtain ⟨-, hmem, hnone, hqueue⟩ := h.leave stop endpoint
  refine ⟨fun c hin => ((hmem c endpoint).mp hin).2 rfl, hnone, fun c honly => ?_⟩
  exact ⟨_, hqueue, List.mem_map.mpr ⟨c, (mem_lastOf h endpoint c).mpr honly, rfl⟩⟩

/-! ### The publisher -/

namespace Publisher

inductive Input (Endpoint : Type) where
  | pubStart (endpoint : Endpoint) (label : MessageChannelLabel)
  | pubStop (endpoint : Endpoint) (label : MessageChannelLabel)
  | data (endpoint : Endpoint) (label : MessageChannelLabel) (data : MessageChannelPacket)
  | leave (endpoint : Endpoint)

def Input.change : Input Endpoint → Change Endpoint
  | .pubStart endpoint label => .enter endpoint label
  | .pubStop endpoint label => .quit endpoint label
  | .data _ _ _ => .nothing
  | .leave endpoint => .leave endpoint

def step (hasher : Hasher) (codec : Bincode MessageChannelPacket)
    (p : MessageChannelPublisher Endpoint Feedback) :
    Input Endpoint → MessageChannelPublisher Endpoint Feedback
  | .pubStart endpoint label =>
      MessageChannelPublisher.onChannelPubStart hasher p endpoint label
  | .pubStop endpoint label => MessageChannelPublisher.onChannelPubStop hasher p endpoint label
  | .data endpoint label data =>
      MessageChannelPublisher.onChannelData hasher codec p endpoint label data
  | .leave endpoint => MessageChannelPublisher.onLeave p endpoint

/-- Publishing data is at most one packet, on a channel of which its sender is a member. -/
theorem onChannelData_cases (hasher : Hasher) (codec : Bincode MessageChannelPacket)
    (p : MessageChannelPublisher Endpoint Feedback) (endpoint : Endpoint)
    (label : MessageChannelLabel) (data : MessageChannelPacket) :
    ∃ outputs, MessageChannelPublisher.onChannelData hasher codec p endpoint label data =
        p.push outputs ∧
      ∀ out ∈ outputs, endpoint ∈ p.membersOf (IdGenerator.genMsgChannelId hasher p.room label) ∧
        out = .pubsub ⟨IdGenerator.genMsgChannelId hasher p.room label,
          .pubData (codec.serialize data)⟩ := by
  have hnothing : p = p.push [] := by simp [ChannelTable.push]
  unfold MessageChannelPublisher.onChannelData
  simp only
  split
  · exact ⟨[], hnothing, by simp⟩
  · rename_i channel hget
    split
    · rename_i hmem
      refine ⟨_, rfl, fun out hout => ?_⟩
      rw [ChannelTable.membersOf_of_get hget]
      exact ⟨hmem, List.mem_singleton.mp hout⟩
    · exact ⟨[], hnothing, by simp⟩

theorem step_extends (hasher : Hasher) (codec : Bincode MessageChannelPacket)
    (p : MessageChannelPublisher Endpoint Feedback) (i : Input Endpoint) :
    ChannelTable.Extends p (step hasher codec p i) := by
  cases i with
  | pubStart endpoint label => exact ChannelTable.extends_enter ..
  | pubStop endpoint label => exact ChannelTable.extends_quit ..
  | data endpoint label data =>
    obtain ⟨outputs, heq, -⟩ := onChannelData_cases hasher codec p endpoint label data
    rw [step, heq]
    exact ChannelTable.extends_push p outputs
  | leave endpoint => exact ChannelTable.extends_leave ..

def machine (hasher : Hasher) (codec : Bincode MessageChannelPacket) (room : ClusterRoomHash) :
    Machine (MessageChannelPublisher Endpoint Feedback) (Input Endpoint)
      (Output Endpoint Feedback) where
  init := .new room
  step p i := .ok (step hasher codec p i)
  queue := ChannelTable.queue
  dropFront p := { p with queue := p.queue.tail }
  queue_init := rfl
  queue_dropFront _ := rfl
  step_appends p i p' h := by
    cases h
    exact (step_extends hasher codec p i).queue

/-- Who publishes what after a history. -/
def memberships (history : History (Input Endpoint) (Output Endpoint Feedback)) :
    Memberships Endpoint :=
  (history.map fun entry => entry.1.change).foldl Change.apply ∅

/-- The labels in use are among the given ones. -/
def KnownLabels (labels : Set MessageChannelLabel) :
    Contract (MessageChannelPublisher Endpoint Feedback) (Input Endpoint)
      (Output Endpoint Feedback) :=
  fun _ _ i => ∀ label, i.change.label = some label → label ∈ labels

variable {history : History (Input Endpoint) (Output Endpoint Feedback)}
  {p : MessageChannelPublisher Endpoint Feedback} {codec : Bincode MessageChannelPacket}

omit [DecidableEq Endpoint] in
theorem memberships_concat (i : Input Endpoint) (pushed : List (Output Endpoint Feedback)) :
    memberships (history ++ [(i, pushed)]) = Change.apply (memberships history) i.change := by
  simp [memberships]

/-- What a call does to the table, seen from one channel. -/
theorem step_edge (h : p.Inverse) (i : Input Endpoint) (c : ChannelId) :
    ∃ outputs, (step hasher codec p i).queue = p.queue ++ outputs ∧
      outputs.filterMap (MediaTrack.Publisher.pubCommand c) =
        edge (p.used c) ((step hasher codec p i).used c) := by
  cases i with
  | pubStart endpoint label => exact speaks_pub.enter h () endpoint _ c
  | pubStop endpoint label => exact speaks_pub.quit h endpoint _ c
  | data endpoint label data =>
    obtain ⟨outputs, heq, hdata⟩ := onChannelData_cases hasher codec p endpoint label data
    rw [step, heq]
    refine ⟨outputs, rfl, ?_⟩
    have hsilent : outputs.filterMap (MediaTrack.Publisher.pubCommand c) = [] := by
      refine List.filterMap_eq_nil_iff.mpr fun out hout => ?_
      rw [(hdata out hout).2]
      rfl
    rw [hsilent]
    exact (edge_self (p.used c)).symm
  | leave endpoint => exact speaks_pub.leave h endpoint c

theorem step_mirrors {rel : Memberships Endpoint} (h : Mirrors hasher room labels rel p)
    (hroom : p.room = room)
    (hinj : Set.InjOn (IdGenerator.genMsgChannelId hasher room) labels) {i : Input Endpoint}
    (hok : ∀ label, i.change.label = some label → label ∈ labels) :
    Mirrors hasher room labels (Change.apply rel i.change) (step hasher codec p i) := by
  cases i with
  | pubStart endpoint label =>
    rw [step, MessageChannelPublisher.onChannelPubStart, hroom]
    exact h.enter .pubStart () endpoint (hok label rfl)
  | pubStop endpoint label =>
    rw [step, MessageChannelPublisher.onChannelPubStop, hroom]
    exact h.quit hinj .pubStop endpoint (hok label rfl)
  | data endpoint label data =>
    obtain ⟨outputs, heq, -⟩ := onChannelData_cases hasher codec p endpoint label data
    rw [step, heq]
    exact h.frame rfl rfl
  | leave endpoint => exact h.leave .pubStop endpoint

/-- The publisher after a history. -/
structure Inv (hasher : Hasher) (room : ClusterRoomHash) (labels : Set MessageChannelLabel)
    (history : History (Input Endpoint) (Output Endpoint Feedback))
    (p : MessageChannelPublisher Endpoint Feedback) : Prop where
  room_eq : p.room = room
  table : TableKept hasher room labels MediaTrack.Publisher.pubCommand (emitted history)
    (memberships history) p

theorem Inv.step (h : Inv hasher room labels history p)
    (hinj : Set.InjOn (IdGenerator.genMsgChannelId hasher room) labels) {i : Input Endpoint}
    (hok : KnownLabels labels history p i) :
    Inv hasher room labels
      (history ++ [(i, (machine hasher codec room).pushed p (Publisher.step hasher codec p i))])
      (Publisher.step hasher codec p i) := by
  refine ⟨(step_extends hasher codec p i).room.trans h.room_eq, ?_⟩
  rw [emitted_concat, memberships_concat]
  refine h.table.step (step_mirrors h.table.mirrors h.room_eq hinj hok) fun c => ?_
  obtain ⟨outputs, hqueue, hedge⟩ := step_edge h.table.mirrors.inverse i c
  have hpushed : (machine hasher codec room).pushed p (Publisher.step hasher codec p i) =
      outputs := pushed_eq_of_append _ hqueue
  rw [hpushed, hedge]

variable (codec) in
theorem inv_run (hinj : Set.InjOn (IdGenerator.genMsgChannelId hasher room) labels)
    {acts : List (Action (Input Endpoint))}
    (hacts : (machine hasher codec room : Machine (MessageChannelPublisher Endpoint Feedback) _ _
      ).Admits (KnownLabels labels) acts) :
    ∃ c : Config (MessageChannelPublisher Endpoint Feedback) (Input Endpoint) _,
      (machine hasher codec room).run acts = .ok c ∧
        Inv hasher room labels c.history c.state := by
  refine run_progress (M := machine hasher codec room) (KnownLabels labels)
    (fun history p => Inv hasher room labels history p) ⟨rfl, tableKept_new⟩ ?_ ?_ hacts
  · intro history p i h hok
    exact ⟨_, rfl, h.step hinj hok⟩
  · intro history p h
    exact ⟨h.room_eq, h.table.mirrors.frame rfl rfl, h.table.lease⟩

end Publisher

/-! ### The subscriber -/

namespace Subscriber

inductive Input (Endpoint : Type) where
  | subscribe (endpoint : Endpoint) (label : MessageChannelLabel)
  | unsubscribe (endpoint : Endpoint) (label : MessageChannelLabel)
  | data (channel : ChannelId) (data : Bytes)
  | leave (endpoint : Endpoint)

def Input.change : Input Endpoint → Change Endpoint
  | .subscribe endpoint label => .enter endpoint label
  | .unsubscribe endpoint label => .quit endpoint label
  | .data _ _ => .nothing
  | .leave endpoint => .leave endpoint

def step (hasher : Hasher) (codec : Bincode MessageChannelPacket)
    (s : MessageChannelSubscriber Endpoint Feedback) :
    Input Endpoint → MessageChannelSubscriber Endpoint Feedback
  | .subscribe endpoint label =>
      MessageChannelSubscriber.onChannelSubscribe hasher s endpoint label
  | .unsubscribe endpoint label =>
      MessageChannelSubscriber.onChannelUnsubscribe hasher s endpoint label
  | .data channel data => MessageChannelSubscriber.onChannelData codec s channel data
  | .leave endpoint => MessageChannelSubscriber.onLeave s endpoint

omit [DecidableEq Endpoint] in
/-- A message is told once, to the list of members of its channel, under its label. -/
theorem onChannelData_cases (codec : Bincode MessageChannelPacket)
    (s : MessageChannelSubscriber Endpoint Feedback) (channelId : ChannelId) (data : Bytes) :
    ∃ outputs, MessageChannelSubscriber.onChannelData codec s channelId data = s.push outputs ∧
      ((outputs = [] ∧ (s.channels.get channelId = none ∨ codec.deserialize data = none)) ∨
        ∃ channel pkt, s.channels.get channelId = some channel ∧
          codec.deserialize data = some pkt ∧
          outputs = [.endpoint channel.members.toList
            (.messageChannelData channel.info pkt.sender pkt.data)]) := by
  have hnothing : s = s.push [] := by simp [ChannelTable.push]
  unfold MessageChannelSubscriber.onChannelData
  cases hget : s.channels.get channelId with
  | none => exact ⟨[], hnothing, Or.inl ⟨rfl, Or.inl rfl⟩⟩
  | some channel =>
    simp only
    cases hpkt : codec.deserialize data with
    | none => exact ⟨[], hnothing, Or.inl ⟨rfl, Or.inr rfl⟩⟩
    | some pkt => exact ⟨_, rfl, Or.inr ⟨channel, pkt, rfl, rfl, rfl⟩⟩

theorem step_extends (hasher : Hasher) (codec : Bincode MessageChannelPacket)
    (s : MessageChannelSubscriber Endpoint Feedback) (i : Input Endpoint) :
    ChannelTable.Extends s (step hasher codec s i) := by
  cases i with
  | subscribe endpoint label => exact ChannelTable.extends_enter ..
  | unsubscribe endpoint label => exact ChannelTable.extends_quit ..
  | data channel data =>
    obtain ⟨outputs, heq, -⟩ := onChannelData_cases codec s channel data
    rw [step, heq]
    exact ChannelTable.extends_push s outputs
  | leave endpoint => exact ChannelTable.extends_leave ..

def machine (hasher : Hasher) (codec : Bincode MessageChannelPacket) (room : ClusterRoomHash) :
    Machine (MessageChannelSubscriber Endpoint Feedback) (Input Endpoint)
      (Output Endpoint Feedback) where
  init := .new room
  step s i := .ok (step hasher codec s i)
  queue := ChannelTable.queue
  dropFront s := { s with queue := s.queue.tail }
  queue_init := rfl
  queue_dropFront _ := rfl
  step_appends s i s' h := by
    cases h
    exact (step_extends hasher codec s i).queue

/-- Who subscribes to what after a history. -/
def memberships (history : History (Input Endpoint) (Output Endpoint Feedback)) :
    Memberships Endpoint :=
  (history.map fun entry => entry.1.change).foldl Change.apply ∅

/-- The labels in use are among the given ones. -/
def KnownLabels (labels : Set MessageChannelLabel) :
    Contract (MessageChannelSubscriber Endpoint Feedback) (Input Endpoint)
      (Output Endpoint Feedback) :=
  fun _ _ i => ∀ label, i.change.label = some label → label ∈ labels

variable {history : History (Input Endpoint) (Output Endpoint Feedback)}
  {s : MessageChannelSubscriber Endpoint Feedback} {codec : Bincode MessageChannelPacket}

omit [DecidableEq Endpoint] in
theorem memberships_concat (i : Input Endpoint) (pushed : List (Output Endpoint Feedback)) :
    memberships (history ++ [(i, pushed)]) = Change.apply (memberships history) i.change := by
  simp [memberships]

/-- What a call does to the table, seen from one channel. -/
theorem step_edge (h : s.Inverse) (i : Input Endpoint) (c : ChannelId) :
    ∃ outputs, (step hasher codec s i).queue = s.queue ++ outputs ∧
      outputs.filterMap (MediaTrack.Subscriber.subCommand c) =
        edge (s.used c) ((step hasher codec s i).used c) := by
  cases i with
  | subscribe endpoint label => exact speaks_sub.enter h label endpoint _ c
  | unsubscribe endpoint label => exact speaks_sub.quit h endpoint _ c
  | data channel data =>
    obtain ⟨outputs, heq, hdata⟩ := onChannelData_cases codec s channel data
    rw [step, heq]
    refine ⟨outputs, rfl, ?_⟩
    have hsilent : outputs.filterMap (MediaTrack.Subscriber.subCommand c) = [] := by
      rcases hdata with ⟨rfl, -⟩ | ⟨k, pkt, -, -, rfl⟩
      · rfl
      · rfl
    rw [hsilent]
    exact (edge_self (s.used c)).symm
  | leave endpoint => exact speaks_sub.leave h endpoint c

theorem step_mirrors {rel : Memberships Endpoint} (h : Mirrors hasher room labels rel s)
    (hroom : s.room = room)
    (hinj : Set.InjOn (IdGenerator.genMsgChannelId hasher room) labels) {i : Input Endpoint}
    (hok : ∀ label, i.change.label = some label → label ∈ labels) :
    Mirrors hasher room labels (Change.apply rel i.change) (step hasher codec s i) := by
  cases i with
  | subscribe endpoint label =>
    rw [step, MessageChannelSubscriber.onChannelSubscribe, hroom]
    exact h.enter .subAuto label endpoint (hok label rfl)
  | unsubscribe endpoint label =>
    rw [step, MessageChannelSubscriber.onChannelUnsubscribe, hroom]
    exact h.quit hinj .unsubAuto endpoint (hok label rfl)
  | data channel data =>
    obtain ⟨outputs, heq, -⟩ := onChannelData_cases codec s channel data
    rw [step, heq]
    exact h.frame rfl rfl
  | leave endpoint => exact h.leave .unsubAuto endpoint

/-- The subscriber after a history; a channel is remembered under a label of its own. -/
structure Inv (hasher : Hasher) (room : ClusterRoomHash) (labels : Set MessageChannelLabel)
    (history : History (Input Endpoint) (Output Endpoint Feedback))
    (s : MessageChannelSubscriber Endpoint Feedback) : Prop where
  room_eq : s.room = room
  table : TableKept hasher room labels MediaTrack.Subscriber.subCommand (emitted history)
    (memberships history) s
  labelled : ∀ c k, s.channels.get c = some k →
    k.info ∈ labels ∧ IdGenerator.genMsgChannelId hasher room k.info = c

theorem step_labelled (hroom : s.room = room)
    (h : ∀ c k, s.channels.get c = some k →
      k.info ∈ labels ∧ IdGenerator.genMsgChannelId hasher room k.info = c)
    {i : Input Endpoint} (hok : ∀ label, i.change.label = some label → label ∈ labels)
    (c : ChannelId) (k : ChannelContainer Endpoint MessageChannelLabel)
    (hk : (step hasher codec s i).channels.get c = some k) :
    k.info ∈ labels ∧ IdGenerator.genMsgChannelId hasher room k.info = c := by
  have hsame : ChannelTable.InfoFrom s (step hasher codec s i) →
      k.info ∈ labels ∧ IdGenerator.genMsgChannelId hasher room k.info = c := by
    intro hfrom
    obtain ⟨k', hk', hinfo⟩ := hfrom c k hk
    rw [← hinfo]
    exact h c k' hk'
  cases i with
  | subscribe endpoint label =>
    rcases ChannelTable.info_enter hk with ⟨k', hk', hinfo⟩ | ⟨rfl, hinfo⟩
    · rw [← hinfo]
      exact h c k' hk'
    · rw [hinfo, hroom]
      exact ⟨hok label rfl, rfl⟩
  | unsubscribe endpoint label => exact hsame (ChannelTable.infoFrom_quit _ s endpoint _)
  | data channel data =>
    refine hsame ?_
    obtain ⟨outputs, heq, -⟩ := onChannelData_cases codec s channel data
    rw [step, heq]
    exact ChannelTable.InfoFrom.refl s
  | leave endpoint => exact hsame (ChannelTable.infoFrom_leave _ s endpoint)

theorem Inv.step (h : Inv hasher room labels history s)
    (hinj : Set.InjOn (IdGenerator.genMsgChannelId hasher room) labels) {i : Input Endpoint}
    (hok : KnownLabels labels history s i) :
    Inv hasher room labels
      (history ++ [(i, (machine hasher codec room).pushed s (Subscriber.step hasher codec s i))])
      (Subscriber.step hasher codec s i) := by
  refine ⟨(step_extends hasher codec s i).room.trans h.room_eq, ?_, ?_⟩
  · rw [emitted_concat, memberships_concat]
    refine h.table.step (step_mirrors h.table.mirrors h.room_eq hinj hok) fun c => ?_
    obtain ⟨outputs, hqueue, hedge⟩ := step_edge h.table.mirrors.inverse i c
    have hpushed : (machine hasher codec room).pushed s (Subscriber.step hasher codec s i) =
        outputs := pushed_eq_of_append _ hqueue
    rw [hpushed, hedge]
  · exact step_labelled h.room_eq h.labelled hok

variable (codec) in
theorem inv_run (hinj : Set.InjOn (IdGenerator.genMsgChannelId hasher room) labels)
    {acts : List (Action (Input Endpoint))}
    (hacts : (machine hasher codec room : Machine (MessageChannelSubscriber Endpoint Feedback) _ _
      ).Admits (KnownLabels labels) acts) :
    ∃ c : Config (MessageChannelSubscriber Endpoint Feedback) (Input Endpoint) _,
      (machine hasher codec room).run acts = .ok c ∧
        Inv hasher room labels c.history c.state := by
  refine run_progress (M := machine hasher codec room) (KnownLabels labels)
    (fun history s => Inv hasher room labels history s)
    ⟨rfl, tableKept_new, fun c k hk => by simp [machine, ChannelTable.new] at hk⟩ ?_ ?_ hacts
  · intro history s i h hok
    exact ⟨_, rfl, h.step hinj hok⟩
  · intro history s h
    exact ⟨h.room_eq, ⟨h.table.mirrors.frame rfl rfl, h.table.lease⟩, h.labelled⟩

/-- A message is delivered: one output, to a list that has every member of the channel
    once and nobody else, under the label by which the members know the channel; none if
    the channel has no member. -/
def Delivered (hasher : Hasher) (room : ClusterRoomHash) (labels : Set MessageChannelLabel)
    (rel : Memberships Endpoint) (channel : ChannelId) (pkt : MessageChannelPacket)
    (outputs : List (Output Endpoint Feedback)) : Prop :=
  ∃ endpoints : List Endpoint, endpoints.Nodup ∧
    (∀ e, e ∈ endpoints ↔
      ∃ label, (e, label) ∈ rel ∧ IdGenerator.genMsgChannelId hasher room label = channel) ∧
    ((endpoints = [] ∧ outputs = []) ∨
      ∃ label ∈ labels, IdGenerator.genMsgChannelId hasher room label = channel ∧
        outputs = [.endpoint endpoints (.messageChannelData label pkt.sender pkt.data)])

theorem Inv.delivered (h : Inv hasher room labels history s) (channel : ChannelId)
    {data : Bytes} {pkt : MessageChannelPacket} (hpkt : codec.deserialize data = some pkt) :
    Delivered hasher room labels (memberships history) channel pkt
      ((machine hasher codec room).pushed s (Subscriber.step hasher codec s (.data channel data))) := by
  obtain ⟨outputs, heq, hdata⟩ := onChannelData_cases codec s channel data
  have hpushed : (machine hasher codec room).pushed s
      (Subscriber.step hasher codec s (.data channel data)) = outputs := by
    rw [Subscriber.step, heq]
    exact pushed_eq_of_append (machine hasher codec room) (by rfl)
  have hmembers := h.table.mirrors.members channel
  rw [hpushed]
  rcases hdata with ⟨rfl, hnone | hbad⟩ | ⟨k, pkt', hget, hpkt', rfl⟩
  · refine ⟨[], List.nodup_nil, fun e => ?_, Or.inl ⟨rfl, rfl⟩⟩
    rw [← hmembers]
    have hnot := ChannelTable.not_mem_membersOf_of_get_eq_none hnone e
    simp [hnot]
  · rw [hpkt] at hbad
    cases hbad
  · rw [hpkt] at hpkt'
    cases hpkt'
    obtain ⟨hlabel, hid⟩ := h.labelled channel k hget
    refine ⟨k.members.toList, k.members.nodup_toList, fun e => ?_, Or.inr ⟨k.info, hlabel, hid, rfl⟩⟩
    rw [← hmembers, ChannelTable.membersOf_of_get hget]
    exact IndexSet.mem_toList

end Subscriber

/-! ### Main result -/

/-- What is claimed of the publisher in a configuration it reaches. -/
structure PublisherKept (hasher : Hasher) (room : ClusterRoomHash)
    (labels : Set MessageChannelLabel)
    (c : Config (MessageChannelPublisher Endpoint Feedback) (Publisher.Input Endpoint)
      (Output Endpoint Feedback)) : Prop where
  table : TableKept hasher room labels MediaTrack.Publisher.pubCommand (emitted c.history)
    (Publisher.memberships c.history) c.state
  leave : ∀ endpoint, LeftBehind .pubStop c.state endpoint
    (MessageChannelPublisher.onLeave c.state endpoint)

/-- What is claimed of the subscriber in a configuration it reaches. -/
structure SubscriberKept (hasher : Hasher) (codec : Bincode MessageChannelPacket)
    (room : ClusterRoomHash) (labels : Set MessageChannelLabel)
    (c : Config (MessageChannelSubscriber Endpoint Feedback) (Subscriber.Input Endpoint)
      (Output Endpoint Feedback)) : Prop where
  table : TableKept hasher room labels MediaTrack.Subscriber.subCommand (emitted c.history)
    (Subscriber.memberships c.history) c.state
  leave : ∀ endpoint, LeftBehind .unsubAuto c.state endpoint
    (MessageChannelSubscriber.onLeave c.state endpoint)
  delivered : ∀ channel data pkt, codec.deserialize data = some pkt →
    Subscriber.Delivered hasher room labels (Subscriber.memberships c.history) channel pkt
      ((Subscriber.machine hasher codec room).pushed c.state
        (MessageChannelSubscriber.onChannelData codec c.state channel data))

/-- **Message channels.** Take any runs of the two halves, with any calls by any endpoints
    in any order; the labels used have distinct channels.  The maps of both are inverse to
    each other, without empty entries, and are what the calls say; the controls of every
    channel alternate and are outstanding exactly while it has a member; a message goes
    once to each subscriber of its channel and to nobody else; and a leave forgets the
    endpoint and releases what it alone held. -/
theorem message_channels (hasher : Hasher) (codec : Bincode MessageChannelPacket)
    (room : ClusterRoomHash) (labels : Set MessageChannelLabel)
    (hinj : Set.InjOn (IdGenerator.genMsgChannelId hasher room) labels) :
    (∀ acts, (Publisher.machine hasher codec room : Machine
        (MessageChannelPublisher Endpoint Feedback) _ _).Admits
          (Publisher.KnownLabels labels) acts →
      ∃ c : Config (MessageChannelPublisher Endpoint Feedback) _ _,
        (Publisher.machine hasher codec room).run acts = .ok c ∧
          PublisherKept hasher room labels c) ∧
    ∀ acts, (Subscriber.machine hasher codec room : Machine
        (MessageChannelSubscriber Endpoint Feedback) _ _).Admits
          (Subscriber.KnownLabels labels) acts →
      ∃ c : Config (MessageChannelSubscriber Endpoint Feedback) _ _,
        (Subscriber.machine hasher codec room).run acts = .ok c ∧
          SubscriberKept hasher codec room labels c := by
  constructor
  · intro acts hacts
    obtain ⟨c, hrun, hinv⟩ := Publisher.inv_run codec hinj hacts
    refine ⟨c, hrun, hinv.table, fun endpoint => ?_⟩
    exact leftBehind_leave hinv.table.mirrors.inverse .pubStop endpoint
  · intro acts hacts
    obtain ⟨c, hrun, hinv⟩ := Subscriber.inv_run codec hinj hacts
    refine ⟨c, hrun, hinv.table, fun endpoint => ?_, fun channel data pkt hpkt => ?_⟩
    · exact leftBehind_leave hinv.table.mirrors.inverse .unsubAuto endpoint
    · exact hinv.delivered channel hpkt

def someLabels : Set MessageChannelLabel := {label | label ∈ ["chat", "poll"]}

theorem mem_someLabels {label : MessageChannelLabel} (h : label ∈ ["chat", "poll"]) :
    label ∈ someLabels := h

theorem someLabels_injOn : Set.InjOn (IdGenerator.genMsgChannelId fnv1a 0) someLabels := by
  have hall : ∀ a ∈ ["chat", "poll"], ∀ b ∈ ["chat", "poll"],
      IdGenerator.genMsgChannelId fnv1a 0 a = IdGenerator.genMsgChannelId fnv1a 0 b → a = b := by
    decide +kernel
  exact fun a ha b hb => hall a ha b hb

/-- Nothing is decoded in the runs that use this codec. -/
def blankPacket : Bincode MessageChannelPacket := ⟨fun _ => [], fun _ => none⟩

/-- Two endpoints publish and subscribe, one of them twice, and one leaves. -/
theorem message_channels_chat :
    (∃ c : Config (MessageChannelPublisher Nat PlainFeedback) _ _,
      (Publisher.machine fnv1a blankPacket 0).run
        [.input (.pubStart 1 "chat"), .input (.pubStart 1 "chat"), .input (.pubStart 2 "poll"),
          .input (.pubStop 2 "chat"), .input (.leave 1)] = .ok c ∧
        PublisherKept fnv1a 0 someLabels c) ∧
    ∃ c : Config (MessageChannelSubscriber Nat PlainFeedback) _ _,
      (Subscriber.machine fnv1a blankPacket 0).run
        [.input (.subscribe 1 "chat"), .input (.subscribe 2 "chat"), .pop,
          .input (.data 7 []), .input (.unsubscribe 2 "poll"), .input (.leave 2)] = .ok c ∧
        SubscriberKept fnv1a blankPacket 0 someLabels c := by
  constructor
  · refine (message_channels fnv1a blankPacket 0 someLabels someLabels_injOn).1 _ ?_
    intro before i after hacts c hc label hlabel
    have hmem : .input i ∈ before ++ Action.input i :: after := by simp
    rw [← hacts] at hmem
    simp only [List.mem_cons, Action.input.injEq, List.not_mem_nil, or_false] at hmem
    rcases hmem with rfl | rfl | rfl | rfl | rfl <;> cases hlabel <;>
      exact mem_someLabels (by decide)
  · refine (message_channels fnv1a blankPacket 0 someLabels someLabels_injOn).2 _ ?_
    intro before i after hacts c hc label hlabel
    have hmem : .input i ∈ before ++ Action.input i :: after := by simp
    rw [← hacts] at hmem
    simp only [List.mem_cons, Action.input.injEq, List.not_mem_nil, or_false, reduceCtorEq,
      false_or] at hmem
    rcases hmem with rfl | rfl | rfl | rfl | rfl <;> cases hlabel <;>
      exact mem_someLabels (by decide)

end MediaServer.MessageChannel
