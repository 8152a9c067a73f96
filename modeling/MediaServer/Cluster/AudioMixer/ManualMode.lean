import MediaServer.Cluster.AudioMixer.Mixer

/-!
# Indexes of manual mixers

The room's mixer remembers the task of a manual endpoint by its index in the group.
The group may hand out the index of a removed task again, and a task is removed when
its empty event comes, which is not only when its endpoint has left: a mixer with no
source and nothing to say is empty, and so is a fresh one.

As long as no turn meets the empty mixer of an endpoint that is still joined, every
remembered index is the index of the endpoint's own mixer, and a control reaches that
mixer and no other.
-/

namespace MediaServer.RoomMixer

open Collections Machine Pubsub Runtime

namespace ManualMode

variable {Endpoint Feedback : Type} [DecidableEq Endpoint]

/-- What is claimed of the indexes: they are those of the endpoints' own mixers, and a control
    of an endpoint is processed by its own mixer alone. -/
structure IndexesValid (hasher : Hasher) (codecs : MixerCodecs)
    (s : RoomAudioMixer Endpoint Feedback) : Prop where
  owner : ∀ endpoint index, s.manualMode.get endpoint = some index →
    ∃ m, s.manuals.get index = some m ∧ m.endpoint = endpoint
  distinct : ∀ endpoint endpoint' index, s.manualMode.get endpoint = some index →
    s.manualMode.get endpoint' = some index → endpoint = endpoint'
  control : ∀ endpoint index, s.manualMode.get endpoint = some index → ∀ now control,
    ∃ m m', s.manuals.get index = some m ∧ m.endpoint = endpoint ∧
      m.onEvent hasher codecs.media now (RoomAudioMixer.controlInput control) = .ok m' ∧
      s.onControl hasher codecs now endpoint control =
        .ok { s with manuals := s.manuals.set index m' }

/-- A turn of the manual group does not meet the empty mixer of a joined endpoint. -/
def NotEmptied : Contract (MixerState Endpoint Feedback) (MixerInput Endpoint Feedback)
    (Output Endpoint Feedback)
  | _, s, .turn (.manual index) => ∀ m, s.mixer.manuals.get index = some m →
      s.mixer.manualMode.get m.endpoint = some index → m.isEmpty = false
  | _, _, _ => True

instance (history) (s : MixerState Endpoint Feedback) (i : MixerInput Endpoint Feedback) :
    Decidable (NotEmptied history s i) :=
  match i with
  | .turn (.manual index) =>
      match h : s.mixer.manuals.get index with
      | none => .isTrue fun m hm => by rw [h] at hm; cases hm
      | some m => decidable_of_iff
          (s.mixer.manualMode.get m.endpoint = some index → m.isEmpty = false)
          ⟨fun hm m' hm' => by rw [h] at hm'; cases hm'; exact hm, fun hall => hall m h⟩
  | .turn .publisher | .turn (.subscriber _) | .join .. | .tick _ | .control .. | .leave ..
  | .trackPublish .. | .trackData .. | .trackUnpublish .. | .pubsub .. => .isTrue trivial

/-! ### The invariant -/

structure Owned (s : RoomAudioMixer Endpoint Feedback) : Prop where
  owner : ∀ endpoint index, s.manualMode.get endpoint = some index →
    ∃ m, s.manuals.get index = some m ∧ m.endpoint = endpoint
  plain : ∀ index m, s.manuals.get index = some m → ∃ announced, m.Reports announced

variable {s s' : RoomAudioMixer Endpoint Feedback}

theorem owned_new (room : ClusterRoomHash) (mixChannelId : ChannelId) (start : Instant) :
    Owned (RoomAudioMixer.new room mixChannelId start : RoomAudioMixer Endpoint Feedback) :=
  ⟨fun endpoint index h => by simp [RoomAudioMixer.new] at h,
    fun index m h => by simp [RoomAudioMixer.new] at h⟩

theorem Owned.congr (h : Owned s) (hmode : s'.manualMode = s.manualMode)
    (hmanuals : s'.manuals = s.manuals) : Owned s' :=
  ⟨by rw [hmode, hmanuals]; exact h.owner, by rw [hmanuals]; exact h.plain⟩

/-- Mixers that were called stay the mixers of their endpoints. -/
theorem Owned.image (h : Owned s) (hmode : s'.manualMode = s.manualMode)
    (himage : ∀ index, s'.manuals.get index = s.manuals.get index ∨
      ∃ m m', s.manuals.get index = some m ∧ m.Continues m' ∧
        s'.manuals.get index = some m') : Owned s' := by
  constructor
  · intro endpoint index hget
    rw [hmode] at hget
    obtain ⟨m, hm, hendpoint⟩ := h.owner endpoint index hget
    rcases himage index with hsame | ⟨u, u', hu, hu', hget'⟩
    · exact ⟨m, hsame.trans hm, hendpoint⟩
    · obtain rfl : m = u := Option.some_injective _ (hm.symm.trans hu)
      exact ⟨u', hget', hu'.same.endpoint.trans hendpoint⟩
  · intro index m' hm'
    rcases himage index with hsame | ⟨u, u', hu, hu', hget'⟩
    · exact h.plain index m' (hsame ▸ hm')
    · obtain rfl : m' = u' := Option.some_injective _ (hm'.symm.trans hget')
      obtain ⟨announced, hreports⟩ := h.plain index u hu
      exact ⟨announced, hu'.reports announced hreports⟩

/-- An event for the mixer of an index. -/
theorem Owned.toManual {hasher : Hasher} {codecs : MixerCodecs} {now : Instant} {index : Nat}
    {input : Manual.Input} (h : Owned s)
    (hok : s.toManual hasher codecs now index input = .ok s') : Owned s' := by
  rcases RoomAudioMixer.toManual_eq_ok hok with ⟨-, rfl⟩ | ⟨m, m', hget, hm', rfl⟩
  · exact h
  · refine h.image rfl fun j => ?_
    by_cases hj : j = index
    · subst hj
      exact Or.inr ⟨m, m', hget, ManualMixer.onEvent_eq_ok hm', TaskGroup.get_set_self ..⟩
    · exact Or.inl (TaskGroup.get_set_ne _ _ hj)

/-- A new endpoint gets an index that nobody has. -/
theorem Owned.join (h : Owned s) {hint : Nat} {endpoint : Endpoint} {outputs : List LocalTrackId} :
    Owned { s with
      manuals := s.manuals.addTask hint (ManualMixer.new s.room endpoint outputs)
      manualMode := s.manualMode.insert endpoint (s.manuals.freeIndex hint) } := by
  have hfree := TaskGroup.get_freeIndex s.manuals hint
  constructor
  · intro e index hget
    change (s.manualMode.insert endpoint (s.manuals.freeIndex hint)).get e = some index at hget
    change ∃ m, (s.manuals.addTask hint _).get index = some m ∧ m.endpoint = e
    rw [IndexMap.get_insert] at hget
    rw [TaskGroup.get_addTask]
    split at hget
    · rename_i he
      cases hget
      rw [if_pos rfl]
      exact ⟨_, rfl, he.symm⟩
    · obtain ⟨m, hm, hendpoint⟩ := h.owner e index hget
      have hne : index ≠ s.manuals.freeIndex hint := by
        rintro rfl
        rw [hfree] at hm
        cases hm
      rw [if_neg hne]
      exact ⟨m, hm, hendpoint⟩
  · intro index m hm
    change (s.manuals.addTask hint _).get index = some m at hm
    rw [TaskGroup.get_addTask] at hm
    split at hm
    · cases hm
      exact ⟨_, ManualMixer.reports_new s.room endpoint outputs⟩
    · exact h.plain index m hm

/-- A removal takes no mixer of a joined endpoint. -/
theorem Owned.remove (h : Owned s) {index : Nat} {m : ManualMixer Endpoint Feedback}
    {manuals : TaskGroup (ManualMixer Endpoint Feedback)}
    {manualChannels : IndexMap ChannelId (List Nat)} (hget : s.manuals.get index = some m)
    (hleft : s.manualMode.get m.endpoint ≠ some index)
    (hremoved : ∀ j, manuals.get j = if j = index then none else s.manuals.get j) :
    Owned { s with manualChannels, manuals } := by
  constructor
  · intro endpoint j hmode
    obtain ⟨u, hu, hendpoint⟩ := h.owner endpoint j hmode
    have hne : j ≠ index := by
      rintro rfl
      rw [hget] at hu
      cases hu
      exact hleft (hendpoint ▸ hmode)
    exact ⟨u, by rw [hremoved, if_neg hne, hu], hendpoint⟩
  · intro j u hu
    rw [hremoved] at hu
    split at hu
    · cases hu
    · exact h.plain j u hu

theorem Owned.turnManual (h : Owned s) {index : Nat} {outputs : List (Output Endpoint Feedback)}
    (hbusy : ∀ m, s.manuals.get index = some m →
      s.manualMode.get m.endpoint = some index → m.isEmpty = false)
    (hok : s.turn (.manual index) = .ok (outputs, s')) : Owned s' := by
  rcases RoomAudioMixer.turn_manual_eq_ok hok with
    ⟨-, rfl⟩ | ⟨m, manualChannels, manuals, hget, rfl, hcases⟩
  · exact h
  · rcases hcases with ⟨out, rest, hqueue, -, hkept, -⟩ | ⟨hempty, -, hremoved⟩
    · obtain ⟨announced, hreports⟩ := h.plain index m hget
      have hne : out ≠ .onResourceEmpty := by
        rintro rfl
        exact hreports.plain (hqueue ▸ List.mem_cons_self ..)
      have hpopped := hreports.pop hqueue fun c => rfl
      rw [hkept hne]
      constructor
      · intro endpoint j hmode
        obtain ⟨u, hu, hendpoint⟩ := h.owner endpoint j hmode
        change ∃ u, (s.manuals.set index m.dropFront).get j = some u ∧ u.endpoint = endpoint
        by_cases hj : j = index
        · subst hj
          rw [hget] at hu
          cases hu
          exact ⟨_, TaskGroup.get_set_self .., hendpoint⟩
        · exact ⟨u, by rw [TaskGroup.get_set_ne _ _ hj, hu], hendpoint⟩
      · intro j u hu
        rcases TaskGroup.get_set_eq_some hu with ⟨-, rfl⟩ | ⟨-, hu⟩
        · exact ⟨_, hpopped⟩
        · exact h.plain j u hu
    · refine h.remove hget (fun hmode => ?_) hremoved
      rw [hbusy m hget hmode] at hempty
      cases hempty

theorem Owned.tick (h : Owned s) {now : Instant} (hok : s.onTick now = .ok s') : Owned s' := by
  rcases RoomAudioMixer.onTick_eq_ok hok with rfl | ⟨publisher, subs, manuals, rfl, -, himage⟩
  · exact h
  · refine h.image rfl fun index => ?_
    rcases himage index with ⟨hnone, hnone'⟩ | ⟨m, m', hm, hmt, hm'⟩
    · exact Or.inl (hnone'.trans hnone.symm)
    · obtain ⟨hsame, htalks, -⟩ := ManualMixer.onTick_eq_ok hmt
      exact Or.inr ⟨m, m', hm, ⟨hsame, fun _ hreports => hreports.talks htalks⟩, hm'⟩

theorem Owned.pubsub (h : Owned s) {hasher : Hasher} {codecs : MixerCodecs} {now : Instant}
    {channel : ChannelId} {event : ChannelEvent Feedback}
    (hok : s.onPubsubEvent hasher codecs now channel event = .ok s') : Owned s' := by
  unfold RoomAudioMixer.onPubsubEvent at hok
  split at hok
  · cases hok
    exact h
  · split at hok
    · obtain ⟨subs, rfl⟩ := RoomAudioMixer.toSubscribers_eq_ok hok
      exact h.congr rfl rfl
    · split at hok
      · cases hok
        exact h
      · obtain ⟨manuals, hmanuals, hok⟩ := Except.bind_eq_ok.mp hok
        cases hok
        refine TaskGroup.onEvents_invariant (fun g => Owned { s with manuals := g }) ?_
          (h.congr rfl rfl) hmanuals
        intro g index m m' hg hget hm'
        refine hg.image rfl fun j => ?_
        change (g.set index m').get j = g.get j ∨ ∃ u u', g.get j = some u ∧ u.Continues u' ∧
          (g.set index m').get j = some u'
        by_cases hj : j = index
        · subst hj
          exact Or.inr ⟨m, m', hget, ManualMixer.onEvent_eq_ok hm', TaskGroup.get_set_self ..⟩
        · exact Or.inl (TaskGroup.get_set_ne _ _ hj)
  · cases hok
    exact h

/-- **Steps.** Every input keeps the indexes, unless it is a turn that meets the empty mixer
    of a joined endpoint. -/
theorem Owned.step {hasher : Hasher} {codecs : MixerCodecs}
    {history : History (MixerInput Endpoint Feedback) (Output Endpoint Feedback)}
    {out outputs : List (Output Endpoint Feedback)} {i : MixerInput Endpoint Feedback}
    (h : Owned s) (hbusy : NotEmptied history ⟨s, out⟩ i)
    (hok : Mixer.handle hasher codecs s i = .ok (outputs, s')) : Owned s' := by
  have hpublisher : ∀ {call : AudioMixerPublisher Endpoint Feedback →
      Except Panic (AudioMixerPublisher Endpoint Feedback)},
      s.toPublisher call = .ok s' → Owned s' := by
    intro call hcall
    obtain ⟨p, -, hcall⟩ := Except.bind_eq_ok.mp hcall
    cases hcall
    exact h.congr rfl rfl
  have hsubscriber : ∀ {autoMode : IndexMap Endpoint Nat} {tier : Tier}
      {call : AudioMixerSubscriber Endpoint Feedback →
        Except Panic (AudioMixerSubscriber Endpoint Feedback)},
      { s with autoMode := autoMode }.toSubscriber tier call = .ok s' → Owned s' := by
    intro autoMode tier call hcall
    obtain ⟨sub, -, rfl⟩ := RoomAudioMixer.toSubscriber_eq_ok hcall
    exact h.congr rfl rfl
  cases i with
  | tick now => exact h.tick (Mixer.map_eq_ok hok).2
  | join hint endpoint peer cfg =>
    have hcall := (Mixer.map_eq_ok hok).2
    unfold RoomAudioMixer.onJoin at hcall
    split at hcall
    · cases hcall
      exact h
    · split at hcall
      · simp only at hcall
        split at hcall
        · exact hsubscriber hcall
        · cases hcall
          exact h.congr rfl rfl
      · simp only at hcall
        split at hcall
        · cases hcall
        · cases hcall
          exact h.join
  | control now endpoint control =>
    have hcall := (Mixer.map_eq_ok hok).2
    unfold RoomAudioMixer.onControl at hcall
    split at hcall
    · cases hcall
    · exact h.toManual hcall
  | leave now endpoint =>
    have hcall := (Mixer.map_eq_ok hok).2
    unfold RoomAudioMixer.onLeave at hcall
    split at hcall
    · simp only at hcall
      split at hcall
      · exact hsubscriber hcall
      · cases hcall
        exact h.congr rfl rfl
    · split at hcall
      · refine Owned.toManual ?_ hcall
        refine ⟨fun e index hget => ?_, h.plain⟩
        change (s.manualMode.swapRemove endpoint).get e = some index at hget
        rw [IndexMap.get_swapRemove] at hget
        split at hget
        · cases hget
        · exact h.owner e index hget
      · cases hcall
        exact h
  | trackPublish endpoint track peer name => exact hpublisher (Mixer.map_eq_ok hok).2
  | trackData now endpoint track media => exact hpublisher (Mixer.map_eq_ok hok).2
  | trackUnpublish endpoint track => exact hpublisher (Mixer.map_eq_ok hok).2
  | pubsub now channel event => exact h.pubsub (Mixer.map_eq_ok hok).2
  | turn branch =>
    cases branch with
    | publisher =>
      cases hok
      exact h.congr rfl rfl
    | subscriber tier =>
      cases hok
      exact h.congr rfl rfl
    | manual index => exact h.turnManual hbusy hok

theorem Owned.indexesValid (h : Owned s) (hasher : Hasher) (codecs : MixerCodecs) :
    IndexesValid hasher codecs s := by
  refine ⟨h.owner, ?_, ?_⟩
  · intro endpoint endpoint' index hget hget'
    obtain ⟨m, hm, rfl⟩ := h.owner endpoint index hget
    obtain ⟨m', hm', rfl⟩ := h.owner endpoint' index hget'
    rw [hm] at hm'
    cases hm'
    rfl
  · intro endpoint index hget now control
    obtain ⟨m, hm, hendpoint⟩ := h.owner endpoint index hget
    obtain ⟨m', hm'⟩ : ∃ m', m.onEvent hasher codecs.media now
        (RoomAudioMixer.controlInput control) = .ok m' := by
      cases control with
      | attach sources => exact ⟨_, rfl⟩
      | detach sources => exact ⟨_, rfl⟩
    refine ⟨m, m', hm, hendpoint, hm', ?_⟩
    simp only [RoomAudioMixer.onControl, hget, RoomAudioMixer.toManual,
      TaskGroup.onEvent_of_get hm hm', bind, Except.bind]

/-! ### Main result -/

/-- **Manual indexes.** In every run in which no turn meets the empty mixer of an endpoint
    that is still joined, the remembered indexes are valid in every state reached. -/
theorem manual_index_validity (hasher : Hasher) (codecs : MixerCodecs) (room : ClusterRoomHash)
    (mixChannelId : ChannelId) (start : Instant)
    {acts : List (Action (MixerInput Endpoint Feedback))}
    (hbusy : (Mixer.machine hasher codecs room mixChannelId start).Admits NotEmptied acts)
    {c : Config (MixerState Endpoint Feedback) (MixerInput Endpoint Feedback)
      (Output Endpoint Feedback)}
    (hrun : (Mixer.machine hasher codecs room mixChannelId start).run acts = .ok c) :
    IndexesValid hasher codecs c.state.mixer := by
  have howned : Owned c.state.mixer := by
    refine run_invariant (M := Mixer.machine hasher codecs room mixChannelId start) _
      (fun _ s => Owned s.mixer) ?_ ?_ ?_ hbusy hrun
    · exact owned_new room mixChannelId start
    · intro history s i s' howned hok hstep
      obtain ⟨outputs, hhandle, -⟩ := Mixer.step_eq_ok hstep
      exact howned.step hok hhandle
    · exact fun _ _ h => h
  exact howned.indexesValid hasher codecs

/-- An endpoint attaches a source before anything is popped, and another endpoint joins. -/
def attachFirst : List (Action (MixerInput Nat PlainFeedback)) :=
  [.input (.join 0 1 "alice" (some ⟨.manual, [10], []⟩)),
    .input (.control 0 1 (.attach [⟨"carol", "mic"⟩])), .input (.turn (.manual 0)),
    .input (.turn (.manual 0)), .input (.join 0 2 "bob" (some ⟨.manual, [20], []⟩))]

theorem manual_index_validity_attachFirst :
    ∃ c, (Mixer.machine fnv1a .blank 0 7 0).run attachFirst = .ok c ∧
      IndexesValid fnv1a .blank c.state.mixer := by
  have hbusy : (Mixer.machine fnv1a .blank 0 7 0).Admits NotEmptied attachFirst :=
    AdmitsFrom.admits (by decide)
  exact ⟨_, rfl, manual_index_validity fnv1a .blank 0 7 0 hbusy rfl⟩

/-- An endpoint joins and the mixer is drained; then another endpoint joins.  The fresh mixer
    of the first was empty and is gone, the second endpoint has got its index, and a source
    that the first attaches goes to the mixer of the second. -/
theorem drained_mixer_loses_its_index :
    ∃ (acts : List (Action (MixerInput Nat PlainFeedback))) (c : Config _ _ _),
      acts = [.input (.join 0 1 "alice" (some ⟨.manual, [10], []⟩)), .input (.turn (.manual 0)),
        .input (.join 0 2 "bob" (some ⟨.manual, [20], []⟩)),
        .input (.control 0 1 (.attach [⟨"carol", "mic"⟩]))] ∧
      (Mixer.machine fnv1a .blank 0 7 0).run acts = .ok c ∧
      c.state.mixer.manualMode.get 1 = some 0 ∧ c.state.mixer.manualMode.get 2 = some 0 ∧
      (c.state.mixer.manuals.get 0).map (fun m => (m.endpoint, m.sources.values)) =
        some (2, [⟨"carol", "mic"⟩]) ∧
      ¬ IndexesValid fnv1a .blank c.state.mixer := by
  refine ⟨_, _, rfl, rfl, by decide, by decide, by decide, ?_⟩
  intro hvalid
  have hsame := hvalid.distinct 1 2 0 (by decide) (by decide)
  revert hsame
  decide

end ManualMode

end MediaServer.RoomMixer
