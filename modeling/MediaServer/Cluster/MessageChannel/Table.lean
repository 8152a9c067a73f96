import MediaServer.Cluster.MediaTrack.Publisher

/-!
# Channels and their members

`media_core/src/cluster/room/message_channel/{publisher,subscriber}.rs`.  Both halves
of the message channels keep the same two maps: the members of every channel, and
the channels of every member.  A member enters a channel, quits it, or leaves all of
its channels at once; the first member of a channel starts it and the last one stops
it.  The halves differ in the two controls and in what they remember of a channel,
so the table is stated once, over both.

`Inverse` says that the two maps are the same relation and have no empty entries.
Each operation is described by what it does to the relation and by the controls it
queues, which are exactly the changes of which channels have a member.
-/

namespace MediaServer.MessageChannel

open Collections Lease Pubsub

/-- `message_channel::Output` has the variants of `media_track::Output`. -/
abbrev Output := MediaTrack.Output

/-- The members of a channel and what else is remembered of it. -/
structure ChannelContainer (Endpoint Info : Type) where
  members : IndexSet Endpoint
  info : Info

structure ChannelTable (Endpoint Info Feedback : Type) where
  room : ClusterRoomHash
  channels : IndexMap ChannelId (ChannelContainer Endpoint Info)
  members : IndexMap Endpoint (IndexSet ChannelId)
  queue : List (Output Endpoint Feedback)

variable {Endpoint Info Feedback : Type}

namespace ChannelTable

def new (room : ClusterRoomHash) : ChannelTable Endpoint Info Feedback := ⟨room, ∅, ∅, []⟩

def isEmpty (t : ChannelTable Endpoint Info Feedback) : Bool :=
  t.queue.isEmpty && t.channels.isEmpty && t.members.isEmpty

def push (t : ChannelTable Endpoint Info Feedback) (outputs : List (Output Endpoint Feedback)) :
    ChannelTable Endpoint Info Feedback :=
  { t with queue := t.queue ++ outputs }

variable [DecidableEq Endpoint]

/-- A member enters a channel, which is started for its first one. -/
def enter (start : ChannelControl Feedback) (info : Info)
    (t : ChannelTable Endpoint Info Feedback) (endpoint : Endpoint) (channelId : ChannelId) :
    ChannelTable Endpoint Info Feedback :=
  let t : ChannelTable Endpoint Info Feedback := match t.channels.get channelId with
    | some container =>
        let container := { container with members := container.members.insert endpoint }
        { t with channels := t.channels.insert channelId container }
    | none =>
        { t with
          channels := t.channels.insert channelId ⟨(∅ : IndexSet Endpoint).insert endpoint, info⟩
          queue := t.queue ++ [.pubsub ⟨channelId, start⟩] }
  { t with
    members := t.members.insert endpoint (((t.members.get endpoint).getD ∅).insert channelId) }

/-- The channels of a member without one of them; no entry is left empty. -/
def forget (members : IndexMap Endpoint (IndexSet ChannelId)) (endpoint : Endpoint)
    (channelId : ChannelId) : IndexMap Endpoint (IndexSet ChannelId) :=
  match members.get endpoint with
  | none => members
  | some channels =>
      let channels := channels.swapRemove channelId
      if channels.isEmpty then members.swapRemove endpoint
      else members.insert endpoint channels

/-- A channel without one of its members; the last one to go stops it. -/
def dropMember (stop : ChannelControl Feedback) (t : ChannelTable Endpoint Info Feedback)
    (endpoint : Endpoint) (channelId : ChannelId)
    (container : ChannelContainer Endpoint Info) : ChannelTable Endpoint Info Feedback :=
  let left := container.members.swapRemove endpoint
  if left.isEmpty then
    { t with
      channels := t.channels.swapRemove channelId
      queue := t.queue ++ [.pubsub ⟨channelId, stop⟩] }
  else { t with channels := t.channels.insert channelId { container with members := left } }

/-- A member quits a channel; a channel that does not exist is left alone. -/
def quit (stop : ChannelControl Feedback) (t : ChannelTable Endpoint Info Feedback)
    (endpoint : Endpoint) (channelId : ChannelId) : ChannelTable Endpoint Info Feedback :=
  match t.channels.get channelId with
  | none => t
  | some container =>
      { t with members := forget t.members endpoint channelId }.dropMember stop endpoint channelId
        container

/-- The loop of `on_leave` over the channels of the member. -/
def leaveChannels (stop : ChannelControl Feedback) (endpoint : Endpoint) :
    List ChannelId → ChannelTable Endpoint Info Feedback → ChannelTable Endpoint Info Feedback
  | [], t => t
  | channelId :: rest, t =>
      match t.channels.get channelId with
      | none => leaveChannels stop endpoint rest t
      | some container =>
          leaveChannels stop endpoint rest (t.dropMember stop endpoint channelId container)

def leave (stop : ChannelControl Feedback) (t : ChannelTable Endpoint Info Feedback)
    (endpoint : Endpoint) : ChannelTable Endpoint Info Feedback :=
  match t.members.get endpoint with
  | none => t
  | some channels =>
      leaveChannels stop endpoint channels.toList
        { t with members := t.members.swapRemove endpoint }

/-- An operation stays in its room and only adds to the queue. -/
structure Extends (t t' : ChannelTable Endpoint Info Feedback) : Prop where
  room : t'.room = t.room
  queue : t.queue <+: t'.queue

omit [DecidableEq Endpoint] in
theorem Extends.refl (t : ChannelTable Endpoint Info Feedback) : Extends t t :=
  ⟨rfl, List.prefix_rfl⟩

omit [DecidableEq Endpoint] in
theorem Extends.trans {t t' t'' : ChannelTable Endpoint Info Feedback} (h : Extends t t')
    (h' : Extends t' t'') : Extends t t'' :=
  ⟨h'.room.trans h.room, h.queue.trans h'.queue⟩

omit [DecidableEq Endpoint] in
theorem extends_push (t : ChannelTable Endpoint Info Feedback)
    (outputs : List (Output Endpoint Feedback)) : Extends t (t.push outputs) :=
  ⟨rfl, List.prefix_append _ _⟩

theorem extends_enter (start : ChannelControl Feedback) (info : Info)
    (t : ChannelTable Endpoint Info Feedback) (endpoint : Endpoint) (channelId : ChannelId) :
    Extends t (t.enter start info endpoint channelId) := by
  unfold enter
  cases t.channels.get channelId with
  | some container => exact ⟨rfl, List.prefix_rfl⟩
  | none => exact ⟨rfl, List.prefix_append _ _⟩

theorem extends_dropMember (stop : ChannelControl Feedback)
    (t : ChannelTable Endpoint Info Feedback) (endpoint : Endpoint) (channelId : ChannelId)
    (container : ChannelContainer Endpoint Info) :
    Extends t (t.dropMember stop endpoint channelId container) := by
  simp only [dropMember]
  split
  · exact ⟨rfl, List.prefix_append _ _⟩
  · exact ⟨rfl, List.prefix_rfl⟩

theorem extends_quit (stop : ChannelControl Feedback) (t : ChannelTable Endpoint Info Feedback)
    (endpoint : Endpoint) (channelId : ChannelId) :
    Extends t (t.quit stop endpoint channelId) := by
  unfold quit
  cases t.channels.get channelId with
  | none => exact Extends.refl t
  | some container =>
    have hforget : Extends t { t with members := forget t.members endpoint channelId } :=
      ⟨rfl, List.prefix_rfl⟩
    exact hforget.trans (extends_dropMember ..)

theorem extends_leaveChannels (stop : ChannelControl Feedback) (endpoint : Endpoint)
    (channels : List ChannelId) (t : ChannelTable Endpoint Info Feedback) :
    Extends t (leaveChannels stop endpoint channels t) := by
  induction channels generalizing t with
  | nil => exact Extends.refl t
  | cons first rest ih =>
    rw [leaveChannels]
    cases t.channels.get first with
    | none => exact ih t
    | some container => exact (extends_dropMember ..).trans (ih _)

theorem extends_leave (stop : ChannelControl Feedback) (t : ChannelTable Endpoint Info Feedback)
    (endpoint : Endpoint) : Extends t (t.leave stop endpoint) := by
  unfold leave
  cases t.members.get endpoint with
  | none => exact Extends.refl t
  | some channels =>
    have hremove : Extends t { t with members := t.members.swapRemove endpoint } :=
      ⟨rfl, List.prefix_rfl⟩
    exact hremove.trans (extends_leaveChannels ..)

/-! ### The relation between channels and members -/

omit [DecidableEq Endpoint] in
/-- The members of a channel, none if it has no entry. -/
def membersOf (t : ChannelTable Endpoint Info Feedback) (channelId : ChannelId) :
    IndexSet Endpoint :=
  ((t.channels.get channelId).map ChannelContainer.members).getD ∅

/-- The channels of a member, none if it has no entry. -/
def channelsOf (t : ChannelTable Endpoint Info Feedback) (endpoint : Endpoint) :
    IndexSet ChannelId :=
  (t.members.get endpoint).getD ∅

omit [DecidableEq Endpoint] in
/-- Whether a channel has a member. -/
def used (t : ChannelTable Endpoint Info Feedback) (channelId : ChannelId) : Bool :=
  !(t.membersOf channelId).isEmpty

/-- The two maps are one relation, and no entry of either is empty. -/
structure Inverse (t : ChannelTable Endpoint Info Feedback) : Prop where
  mem_iff : ∀ channelId endpoint,
    endpoint ∈ t.membersOf channelId ↔ channelId ∈ t.channelsOf endpoint
  channels_nonempty : ∀ channelId container, t.channels.get channelId = some container →
    ∃ endpoint, endpoint ∈ container.members
  members_nonempty : ∀ endpoint channels, t.members.get endpoint = some channels →
    ∃ channelId, channelId ∈ channels

variable {t : ChannelTable Endpoint Info Feedback} {endpoint : Endpoint} {channelId : ChannelId}

omit [DecidableEq Endpoint] in
theorem membersOf_of_get {container : ChannelContainer Endpoint Info}
    (h : t.channels.get channelId = some container) :
    t.membersOf channelId = container.members := by
  rw [membersOf, h]
  rfl

omit [DecidableEq Endpoint] in
theorem not_mem_membersOf_of_get_eq_none (h : t.channels.get channelId = none)
    (other : Endpoint) : other ∉ t.membersOf channelId := by
  rw [membersOf, h]
  exact IndexSet.not_mem_empty other

omit [DecidableEq Endpoint] in
theorem used_eq_true_iff : t.used channelId = true ↔ ∃ other, other ∈ t.membersOf channelId := by
  rw [used, Bool.not_eq_true', IndexSet.isEmpty_eq_false_iff]

omit [DecidableEq Endpoint] in
theorem used_eq_false_iff : t.used channelId = false ↔ ∀ other, other ∉ t.membersOf channelId := by
  rw [used, Bool.not_eq_false', IndexSet.isEmpty_iff]

omit [DecidableEq Endpoint] in
theorem used_congr {t' : ChannelTable Endpoint Info Feedback}
    (h : ∀ other, other ∈ t'.membersOf channelId ↔ other ∈ t.membersOf channelId) :
    t'.used channelId = t.used channelId := by
  cases hused : t.used channelId with
  | true =>
    obtain ⟨other, hother⟩ := used_eq_true_iff.mp hused
    exact used_eq_true_iff.mpr ⟨other, (h other).mpr hother⟩
  | false =>
    refine used_eq_false_iff.mpr fun other hother => ?_
    exact used_eq_false_iff.mp hused other ((h other).mp hother)

theorem inverse_new (room : ClusterRoomHash) :
    (new room : ChannelTable Endpoint Info Feedback).Inverse where
  mem_iff channelId endpoint := by simp [new, membersOf, channelsOf]
  channels_nonempty channelId container h := by simp [new] at h
  members_nonempty endpoint channels h := by simp [new] at h

/-! ### What the operations do to the relation -/

/-- Entering adds one pair to the relation. -/
theorem Inverse.enter (h : t.Inverse) (start : ChannelControl Feedback) (info : Info)
    (endpoint : Endpoint) (channelId : ChannelId) :
    (t.enter start info endpoint channelId).Inverse ∧
      (∀ c e, e ∈ (t.enter start info endpoint channelId).membersOf c ↔
        e ∈ t.membersOf c ∨ (e = endpoint ∧ c = channelId)) ∧
      (t.enter start info endpoint channelId).queue = t.queue ++
        if t.used channelId then [] else [.pubsub ⟨channelId, start⟩] := by
  set t' := t.enter start info endpoint channelId with ht'
  have hmembers : t'.members = t.members.insert endpoint
      ((t.channelsOf endpoint).insert channelId) := by
    rw [ht', ChannelTable.enter]
    cases t.channels.get channelId <;> rfl
  -- the entry of the channel has the old members and the new one
  have hentry : ∃ container, t'.channels = t.channels.insert channelId container ∧
      ∀ e, e ∈ container.members ↔ e = endpoint ∨ e ∈ t.membersOf channelId := by
    rw [ht', ChannelTable.enter]
    cases hget : t.channels.get channelId with
    | some container =>
      refine ⟨_, rfl, fun e => ?_⟩
      rw [IndexSet.mem_insert, membersOf_of_get hget]
    | none =>
      refine ⟨_, rfl, fun e => ?_⟩
      have hnot := not_mem_membersOf_of_get_eq_none hget e
      simp [hnot]
  obtain ⟨container, hchannels, hcontainer⟩ := hentry
  have hmem : ∀ c e, e ∈ t'.membersOf c ↔
      e ∈ t.membersOf c ∨ (e = endpoint ∧ c = channelId) := by
    intro c e
    rw [membersOf, hchannels, IndexMap.get_insert]
    by_cases hc : c = channelId
    · subst hc
      rw [if_pos rfl, Option.map_some, Option.getD_some, hcontainer]
      constructor
      · rintro (rfl | hold)
        · exact Or.inr ⟨rfl, rfl⟩
        · exact Or.inl hold
      · rintro (hold | ⟨rfl, -⟩)
        · exact Or.inr hold
        · exact Or.inl rfl
    · rw [if_neg hc, ← membersOf]
      simp [hc]
  refine ⟨⟨fun c e => ?_, fun c k hget => ?_, fun e cs hget => ?_⟩, hmem, ?_⟩
  · rw [hmem, channelsOf, hmembers, IndexMap.get_insert, h.mem_iff]
    by_cases he : e = endpoint
    · subst he
      rw [if_pos rfl, Option.getD_some, IndexSet.mem_insert]
      constructor
      · rintro (hold | ⟨-, rfl⟩)
        · exact Or.inr hold
        · exact Or.inl rfl
      · rintro (rfl | hold)
        · exact Or.inr ⟨rfl, rfl⟩
        · exact Or.inl hold
    · rw [if_neg he, ← channelsOf]
      simp [he]
  · rw [hchannels, IndexMap.get_insert] at hget
    split at hget
    · cases hget
      exact ⟨endpoint, (hcontainer endpoint).mpr (Or.inl rfl)⟩
    · exact h.channels_nonempty c k hget
  · rw [hmembers, IndexMap.get_insert] at hget
    split at hget
    · cases hget
      exact ⟨channelId, by simp⟩
    · exact h.members_nonempty e cs hget
  · rw [ht', ChannelTable.enter]
    cases hget : t.channels.get channelId with
    | some container =>
      obtain ⟨other, hother⟩ := h.channels_nonempty channelId container hget
      have hused : t.used channelId = true :=
        used_eq_true_iff.mpr ⟨other, by rw [membersOf_of_get hget]; exact hother⟩
      simp [hused]
    | none =>
      have hused : t.used channelId = false :=
        used_eq_false_iff.mpr (not_mem_membersOf_of_get_eq_none hget)
      simp [hused]

omit [DecidableEq Endpoint] in
theorem membersOf_congr {t' : ChannelTable Endpoint Info Feedback} {c : ChannelId}
    (h : t'.channels.get c = t.channels.get c) : t'.membersOf c = t.membersOf c := by
  rw [membersOf, h, membersOf]

/-- What is left of one channel when a member drops out of it. -/
theorem membersOf_dropMember {container : ChannelContainer Endpoint Info}
    (hget : t.channels.get channelId = some container) (stop : ChannelControl Feedback)
    (endpoint : Endpoint) (c : ChannelId) (e : Endpoint) :
    e ∈ (t.dropMember stop endpoint channelId container).membersOf c ↔
      e ∈ t.membersOf c ∧ ¬ (e = endpoint ∧ c = channelId) := by
  by_cases hc : c = channelId
  · subst hc
    rw [membersOf_of_get hget, ChannelTable.dropMember]
    split
    · rename_i hempty
      have hnone := IndexSet.isEmpty_iff.mp hempty e
      rw [IndexSet.mem_swapRemove] at hnone
      rw [membersOf, IndexMap.get_swapRemove_self, Option.map_none, Option.getD_none]
      refine ⟨fun hmem => absurd hmem (IndexSet.not_mem_empty e), ?_⟩
      rintro ⟨hmem, hne⟩
      exact absurd ⟨fun heq => hne ⟨heq, rfl⟩, hmem⟩ hnone
    · rw [membersOf, IndexMap.get_insert_self, Option.map_some, Option.getD_some,
        IndexSet.mem_swapRemove]
      constructor
      · rintro ⟨hne, hmem⟩
        exact ⟨hmem, fun heq => hne heq.1⟩
      · rintro ⟨hmem, hne⟩
        exact ⟨fun heq => hne ⟨heq, rfl⟩, hmem⟩
  · have hsame : (t.dropMember stop endpoint channelId container).channels.get c =
        t.channels.get c := by
      rw [ChannelTable.dropMember]
      split
      · exact IndexMap.get_swapRemove_ne _ hc
      · exact IndexMap.get_insert_ne _ _ hc
    rw [membersOf_congr hsame]
    simp [hc]

/-- Dropping out leaves no entry empty and stops the channel with its last member. -/
theorem dropMember_cases {container : ChannelContainer Endpoint Info}
    (hget : t.channels.get channelId = some container) (stop : ChannelControl Feedback)
    (endpoint : Endpoint) :
    (t.dropMember stop endpoint channelId container).members = t.members ∧
    (∀ c k, (t.dropMember stop endpoint channelId container).channels.get c = some k →
      t.channels.get c = some k ∨ ∃ e, e ∈ k.members) ∧
    (t.dropMember stop endpoint channelId container).queue = t.queue ++
      if (t.dropMember stop endpoint channelId container).used channelId then []
      else [.pubsub ⟨channelId, stop⟩] := by
  have hmem := membersOf_dropMember hget stop endpoint channelId
  have hleft : ∀ e, e ∈ (t.dropMember stop endpoint channelId container).membersOf channelId ↔
      e ∈ container.members.swapRemove endpoint := by
    intro e
    rw [hmem, membersOf_of_get hget, IndexSet.mem_swapRemove]
    constructor
    · rintro ⟨hin, hne⟩
      exact ⟨fun heq => hne ⟨heq, rfl⟩, hin⟩
    · rintro ⟨hne, hin⟩
      exact ⟨hin, fun heq => hne heq.1⟩
  cases hempty : (container.members.swapRemove endpoint).isEmpty with
  | true =>
    have hused : (t.dropMember stop endpoint channelId container).used channelId = false := by
      refine used_eq_false_iff.mpr fun e he => ?_
      exact IndexSet.isEmpty_iff.mp hempty e ((hleft e).mp he)
    have heq : t.dropMember stop endpoint channelId container =
        { t with
          channels := t.channels.swapRemove channelId
          queue := t.queue ++ [.pubsub ⟨channelId, stop⟩] } := by
      simp [ChannelTable.dropMember, hempty]
    rw [hused, heq]
    refine ⟨rfl, fun c k hk => Or.inl ?_, rfl⟩
    simp only [IndexMap.get_swapRemove] at hk
    split at hk
    · cases hk
    · exact hk
  | false =>
    obtain ⟨other, hother⟩ := IndexSet.isEmpty_eq_false_iff.mp hempty
    have hused : (t.dropMember stop endpoint channelId container).used channelId = true :=
      used_eq_true_iff.mpr ⟨other, (hleft other).mpr hother⟩
    have heq : t.dropMember stop endpoint channelId container =
        { t with
          channels := t.channels.insert channelId
            ⟨container.members.swapRemove endpoint, container.info⟩ } := by
      simp [ChannelTable.dropMember, hempty]
    rw [hused, heq]
    refine ⟨rfl, fun c k hk => ?_, by simp⟩
    simp only [IndexMap.get_insert] at hk
    split at hk
    · cases hk
      exact Or.inr ⟨other, hother⟩
    · exact Or.inl hk

theorem get_forget (members : IndexMap Endpoint (IndexSet ChannelId)) (endpoint : Endpoint)
    (channelId c : ChannelId) (e : Endpoint) :
    c ∈ ((forget members endpoint channelId).get e).getD ∅ ↔
      c ∈ (members.get e).getD ∅ ∧ ¬ (e = endpoint ∧ c = channelId) := by
  unfold forget
  cases hget : members.get endpoint with
  | none =>
    simp only
    constructor
    · intro hmem
      refine ⟨hmem, ?_⟩
      rintro ⟨rfl, rfl⟩
      rw [hget] at hmem
      exact IndexSet.not_mem_empty _ hmem
    · exact fun hmem => hmem.1
  | some channels =>
    simp only
    by_cases he : e = endpoint
    · subst he
      rw [hget, Option.getD_some]
      split
      · rename_i hempty
        have hnone := IndexSet.isEmpty_iff.mp hempty c
        rw [IndexSet.mem_swapRemove] at hnone
        rw [IndexMap.get_swapRemove_self, Option.getD_none]
        refine ⟨fun hmem => absurd hmem (IndexSet.not_mem_empty c), ?_⟩
        rintro ⟨hmem, hne⟩
        exact absurd ⟨fun heq => hne ⟨rfl, heq⟩, hmem⟩ hnone
      · rw [IndexMap.get_insert_self, Option.getD_some, IndexSet.mem_swapRemove]
        constructor
        · rintro ⟨hne, hmem⟩
          exact ⟨hmem, fun heq => hne heq.2⟩
        · rintro ⟨hmem, hne⟩
          exact ⟨fun heq => hne ⟨rfl, heq⟩, hmem⟩
    · split
      · rw [IndexMap.get_swapRemove_ne _ he]
        simp [he]
      · rw [IndexMap.get_insert_ne _ _ he]
        simp [he]

theorem forget_nonempty {members : IndexMap Endpoint (IndexSet ChannelId)}
    (h : ∀ e cs, members.get e = some cs → ∃ c, c ∈ cs) {e : Endpoint} {cs : IndexSet ChannelId}
    (hget : (forget members endpoint channelId).get e = some cs) : ∃ c, c ∈ cs := by
  unfold forget at hget
  split at hget
  · exact h e cs hget
  · simp only at hget
    split at hget
    · rw [IndexMap.get_swapRemove] at hget
      split at hget
      · cases hget
      · exact h e cs hget
    · rename_i hempty
      rw [IndexMap.get_insert] at hget
      split at hget
      · cases hget
        exact IndexSet.isEmpty_eq_false_iff.mp (by simpa using hempty)
      · exact h e cs hget

/-- Quitting removes one pair from the relation. -/
theorem Inverse.quit (h : t.Inverse) (stop : ChannelControl Feedback) (endpoint : Endpoint)
    (channelId : ChannelId) :
    (t.quit stop endpoint channelId).Inverse ∧
      (∀ c e, e ∈ (t.quit stop endpoint channelId).membersOf c ↔
        e ∈ t.membersOf c ∧ ¬ (e = endpoint ∧ c = channelId)) ∧
      (t.quit stop endpoint channelId).queue = t.queue ++
        if t.used channelId = true ∧ (t.quit stop endpoint channelId).used channelId = false then
          [.pubsub ⟨channelId, stop⟩] else [] := by
  unfold ChannelTable.quit
  cases hget : t.channels.get channelId with
  | none =>
    have hunused : t.used channelId = false :=
      used_eq_false_iff.mpr (not_mem_membersOf_of_get_eq_none hget)
    refine ⟨h, fun c e => ?_, by simp [hunused]⟩
    constructor
    · intro hmem
      refine ⟨hmem, ?_⟩
      rintro ⟨rfl, rfl⟩
      exact not_mem_membersOf_of_get_eq_none hget _ hmem
    · exact fun hmem => hmem.1
  | some container =>
    simp only
    set t₁ : ChannelTable Endpoint Info Feedback :=
      { t with members := forget t.members endpoint channelId } with ht₁
    have hget₁ : t₁.channels.get channelId = some container := hget
    obtain ⟨hmembers, hchannels, hqueue⟩ := dropMember_cases hget₁ stop endpoint
    have hmem := membersOf_dropMember hget₁ stop endpoint
    have hsame : ∀ c, t₁.membersOf c = t.membersOf c := fun c => rfl
    have hused : t.used channelId = true := by
      obtain ⟨other, hother⟩ := h.channels_nonempty channelId container hget
      exact used_eq_true_iff.mpr ⟨other, by rw [membersOf_of_get hget]; exact hother⟩
    refine ⟨⟨fun c e => ?_, fun c k hk => ?_, fun e cs hcs => ?_⟩, fun c e => ?_, ?_⟩
    · rw [hmem, hsame, h.mem_iff, channelsOf, channelsOf, hmembers, ht₁, get_forget]
    · rcases hchannels c k hk with hold | hex
      · exact h.channels_nonempty c k hold
      · exact hex
    · rw [hmembers] at hcs
      exact forget_nonempty h.members_nonempty hcs
    · rw [hmem, hsame]
    · rw [hqueue]
      cases (t₁.dropMember stop endpoint channelId container).used channelId with
      | true => simp [ht₁]
      | false => simp [ht₁, hused]

/-- The channels that a leaving member is the last one of, in the order it visits them. -/
def lastOf (t : ChannelTable Endpoint Info Feedback) (endpoint : Endpoint)
    (channels : List ChannelId) : List ChannelId :=
  channels.filter fun c => ((t.membersOf c).swapRemove endpoint).isEmpty

/-- The loop of `on_leave`, over distinct channels that all list the member. -/
theorem leaveChannels_spec (stop : ChannelControl Feedback) {channels : List ChannelId}
    (hnodup : channels.Nodup) (hin : ∀ c ∈ channels, endpoint ∈ t.membersOf c)
    (hnonempty : ∀ c k, t.channels.get c = some k → ∃ e, e ∈ k.members) :
    (leaveChannels stop endpoint channels t).members = t.members ∧
    (∀ c k, (leaveChannels stop endpoint channels t).channels.get c = some k →
      ∃ e, e ∈ k.members) ∧
    (∀ c e, e ∈ (leaveChannels stop endpoint channels t).membersOf c ↔
      e ∈ t.membersOf c ∧ ¬ (e = endpoint ∧ c ∈ channels)) ∧
    (leaveChannels stop endpoint channels t).queue = t.queue ++
      (lastOf t endpoint channels).map fun c => .pubsub ⟨c, stop⟩ := by
  induction channels generalizing t with
  | nil => exact ⟨rfl, hnonempty, fun c e => by simp [leaveChannels], by simp [leaveChannels, lastOf]⟩
  | cons first rest ih =>
    rw [List.nodup_cons] at hnodup
    have hfirst := hin first (List.mem_cons_self ..)
    cases hget : t.channels.get first with
    | none => exact absurd hfirst (not_mem_membersOf_of_get_eq_none hget endpoint)
    | some container =>
      obtain ⟨hmembers, hchannels, hqueue⟩ := dropMember_cases hget stop endpoint
      have hmem := membersOf_dropMember hget stop endpoint
      set t₁ := t.dropMember stop endpoint first container with ht₁
      have hne : ∀ c ∈ rest, c ≠ first := fun c hc heq => hnodup.1 (heq ▸ hc)
      have hrest : ∀ c ∈ rest, ∀ e, e ∈ t₁.membersOf c ↔ e ∈ t.membersOf c := by
        intro c hc e
        rw [hmem]
        simp [hne c hc]
      obtain ⟨hmembers', hnonempty', hmem', hqueue'⟩ := ih (t := t₁) hnodup.2
        (fun c hc => (hrest c hc endpoint).mpr (hin c (List.mem_cons_of_mem _ hc)))
        (fun c k hk => (hchannels c k hk).elim (hnonempty c k) fun hex => hex)
      have hstep : leaveChannels stop endpoint (first :: rest) t =
          leaveChannels stop endpoint rest t₁ := by
        rw [leaveChannels, hget]
      rw [hstep]
      refine ⟨hmembers'.trans hmembers, hnonempty', fun c e => ?_, ?_⟩
      · rw [hmem', hmem, List.mem_cons]
        constructor
        · rintro ⟨⟨hold, hnot⟩, hnot'⟩
          refine ⟨hold, ?_⟩
          rintro ⟨rfl, rfl | hc⟩
          · exact hnot ⟨rfl, rfl⟩
          · exact hnot' ⟨rfl, hc⟩
        · rintro ⟨hold, hnot⟩
          exact ⟨⟨hold, fun heq => hnot ⟨heq.1, Or.inl heq.2⟩⟩,
            fun heq => hnot ⟨heq.1, Or.inr heq.2⟩⟩
      · have hlast : lastOf t₁ endpoint rest = lastOf t endpoint rest := by
          refine List.filter_congr fun c hc => ?_
          have hiff : ∀ e, e ∈ (t₁.membersOf c).swapRemove endpoint ↔
              e ∈ (t.membersOf c).swapRemove endpoint := by
            intro e
            rw [IndexSet.mem_swapRemove, IndexSet.mem_swapRemove, hrest c hc]
          cases hempty : ((t.membersOf c).swapRemove endpoint).isEmpty with
          | true =>
            refine IndexSet.isEmpty_iff.mpr fun e he => ?_
            exact IndexSet.isEmpty_iff.mp hempty e ((hiff e).mp he)
          | false =>
            obtain ⟨e, he⟩ := IndexSet.isEmpty_eq_false_iff.mp hempty
            exact IndexSet.isEmpty_eq_false_iff.mpr ⟨e, (hiff e).mpr he⟩
        have hused : t₁.used first = !((t.membersOf first).swapRemove endpoint).isEmpty := by
          have hiff : ∀ e, e ∈ t₁.membersOf first ↔
              e ∈ (t.membersOf first).swapRemove endpoint := by
            intro e
            rw [hmem, IndexSet.mem_swapRemove]
            constructor
            · rintro ⟨hold, hnot⟩
              exact ⟨fun heq => hnot ⟨heq, rfl⟩, hold⟩
            · rintro ⟨hnot, hold⟩
              exact ⟨hold, fun heq => hnot heq.1⟩
          cases hempty : ((t.membersOf first).swapRemove endpoint).isEmpty with
          | true =>
            refine used_eq_false_iff.mpr fun e he => ?_
            exact IndexSet.isEmpty_iff.mp hempty e ((hiff e).mp he)
          | false =>
            obtain ⟨e, he⟩ := IndexSet.isEmpty_eq_false_iff.mp hempty
            exact used_eq_true_iff.mpr ⟨e, (hiff e).mpr he⟩
        rw [hqueue', hqueue, hlast, hused]
        cases hempty : ((t.membersOf first).swapRemove endpoint).isEmpty with
        | true => simp [lastOf, hempty]
        | false => simp [lastOf, hempty]

/-- Leaving removes every pair of the member from the relation. -/
theorem Inverse.leave (h : t.Inverse) (stop : ChannelControl Feedback) (endpoint : Endpoint) :
    (t.leave stop endpoint).Inverse ∧
      (∀ c e, e ∈ (t.leave stop endpoint).membersOf c ↔ e ∈ t.membersOf c ∧ e ≠ endpoint) ∧
      (t.leave stop endpoint).members.get endpoint = none ∧
      (t.leave stop endpoint).queue = t.queue ++
        (lastOf t endpoint (t.channelsOf endpoint).toList).map fun c => .pubsub ⟨c, stop⟩ := by
  unfold ChannelTable.leave
  cases hget : t.members.get endpoint with
  | none =>
    have hnot : ∀ c, endpoint ∉ t.membersOf c := by
      intro c hmem
      rw [h.mem_iff, channelsOf, hget] at hmem
      exact IndexSet.not_mem_empty _ hmem
    have hnil : (t.channelsOf endpoint).toList = [] := by
      rw [channelsOf, hget]
      rfl
    refine ⟨h, fun c e => ?_, hget, by simp [hnil, lastOf]⟩
    constructor
    · intro hmem
      refine ⟨hmem, ?_⟩
      rintro rfl
      exact hnot c hmem
    · exact fun hmem => hmem.1
  | some channels =>
    simp only
    have hchannelsOf : t.channelsOf endpoint = channels := by rw [channelsOf, hget]; rfl
    have hin : ∀ c, c ∈ channels.toList ↔ endpoint ∈ t.membersOf c := by
      intro c
      rw [h.mem_iff, hchannelsOf]
      exact IndexSet.mem_toList
    obtain ⟨hmembers, hnonempty, hmem, hqueue⟩ := leaveChannels_spec stop
      (t := { t with members := t.members.swapRemove endpoint }) channels.nodup_toList
      (fun c hc => (hin c).mp hc) h.channels_nonempty
    have hmemNe : ∀ c e, e ∈ (leaveChannels stop endpoint channels.toList
        { t with members := t.members.swapRemove endpoint }).membersOf c ↔
          e ∈ t.membersOf c ∧ e ≠ endpoint := by
      intro c e
      rw [hmem]
      constructor
      · rintro ⟨hold, hnot⟩
        refine ⟨hold, ?_⟩
        rintro rfl
        exact hnot ⟨rfl, (hin c).mpr hold⟩
      · rintro ⟨hold, hne⟩
        exact ⟨hold, fun heq => hne heq.1⟩
    refine ⟨⟨fun c e => ?_, hnonempty, fun e cs hcs => ?_⟩, hmemNe, ?_, ?_⟩
    · rw [hmemNe, channelsOf, hmembers, IndexMap.get_swapRemove]
      by_cases he : e = endpoint
      · simp [he]
      · rw [if_neg he, ← channelsOf, h.mem_iff]
        simp [he]
    · rw [hmembers, IndexMap.get_swapRemove] at hcs
      split at hcs
      · cases hcs
      · exact h.members_nonempty e cs hcs
    · rw [hmembers, IndexMap.get_swapRemove_self]
    · rw [hqueue, hchannelsOf]
      rfl

/-! ### What is remembered of a channel -/

omit [DecidableEq Endpoint] in
/-- Every channel that is left is remembered as before. -/
def InfoFrom (t t' : ChannelTable Endpoint Info Feedback) : Prop :=
  ∀ c k, t'.channels.get c = some k → ∃ k', t.channels.get c = some k' ∧ k'.info = k.info

omit [DecidableEq Endpoint] in
theorem InfoFrom.refl (t : ChannelTable Endpoint Info Feedback) : InfoFrom t t :=
  fun _ k hk => ⟨k, hk, rfl⟩

omit [DecidableEq Endpoint] in
theorem InfoFrom.trans {t t' t'' : ChannelTable Endpoint Info Feedback} (h : InfoFrom t t')
    (h' : InfoFrom t' t'') : InfoFrom t t'' := by
  intro c k hk
  obtain ⟨k', hk', hinfo'⟩ := h' c k hk
  obtain ⟨k'', hk'', hinfo''⟩ := h c k' hk'
  exact ⟨k'', hk'', hinfo''.trans hinfo'⟩

theorem infoFrom_dropMember {container : ChannelContainer Endpoint Info}
    (hget : t.channels.get channelId = some container) (stop : ChannelControl Feedback)
    (endpoint : Endpoint) : InfoFrom t (t.dropMember stop endpoint channelId container) := by
  intro c k hk
  simp only [dropMember] at hk
  split at hk
  · simp only [IndexMap.get_swapRemove] at hk
    split at hk
    · cases hk
    · exact ⟨k, hk, rfl⟩
  · simp only [IndexMap.get_insert] at hk
    split at hk
    · rename_i hc
      cases hk
      exact ⟨container, hc ▸ hget, rfl⟩
    · exact ⟨k, hk, rfl⟩

theorem infoFrom_quit (stop : ChannelControl Feedback) (t : ChannelTable Endpoint Info Feedback)
    (endpoint : Endpoint) (channelId : ChannelId) :
    InfoFrom t (t.quit stop endpoint channelId) := by
  unfold quit
  cases hget : t.channels.get channelId with
  | none => exact InfoFrom.refl t
  | some container =>
    let dropped : ChannelTable Endpoint Info Feedback :=
      { t with members := forget t.members endpoint channelId }
    have hforget : InfoFrom t dropped := InfoFrom.refl t
    have hget' : dropped.channels.get channelId = some container := hget
    exact hforget.trans (infoFrom_dropMember hget' stop endpoint)

theorem infoFrom_leaveChannels (stop : ChannelControl Feedback) (endpoint : Endpoint)
    (channels : List ChannelId) (t : ChannelTable Endpoint Info Feedback) :
    InfoFrom t (leaveChannels stop endpoint channels t) := by
  induction channels generalizing t with
  | nil => exact InfoFrom.refl t
  | cons first rest ih =>
    rw [leaveChannels]
    cases hget : t.channels.get first with
    | none => exact ih t
    | some container => exact (infoFrom_dropMember hget stop endpoint).trans (ih _)

theorem infoFrom_leave (stop : ChannelControl Feedback) (t : ChannelTable Endpoint Info Feedback)
    (endpoint : Endpoint) : InfoFrom t (t.leave stop endpoint) := by
  unfold leave
  cases t.members.get endpoint with
  | none => exact InfoFrom.refl t
  | some channels =>
    let removed : ChannelTable Endpoint Info Feedback :=
      { t with members := t.members.swapRemove endpoint }
    have hremove : InfoFrom t removed := InfoFrom.refl t
    exact hremove.trans (infoFrom_leaveChannels stop endpoint channels.toList removed)

/-- A channel that is entered is remembered as before, or as it was entered. -/
theorem info_enter {start : ChannelControl Feedback} {info : Info} {c : ChannelId}
    {k : ChannelContainer Endpoint Info}
    (hk : (t.enter start info endpoint channelId).channels.get c = some k) :
    (∃ k', t.channels.get c = some k' ∧ k'.info = k.info) ∨ (c = channelId ∧ k.info = info) := by
  unfold enter at hk
  cases hget : t.channels.get channelId with
  | some container =>
    simp only [hget, IndexMap.get_insert] at hk
    split at hk
    · rename_i hc
      cases hk
      exact Or.inl ⟨container, hc ▸ hget, rfl⟩
    · exact Or.inl ⟨k, hk, rfl⟩
  | none =>
    simp only [hget, IndexMap.get_insert] at hk
    split at hk
    · rename_i hc
      cases hk
      exact Or.inr ⟨hc, rfl⟩
    · exact Or.inl ⟨k, hk, rfl⟩

end ChannelTable

end MediaServer.MessageChannel
