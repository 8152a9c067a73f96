import MediaServer.Cluster.Metadata.Registry
import Mathlib.Data.Set.Function

/-!
# Subscriptions of the room metadata

Which DHT maps a room subscribes.  An endpoint wants the peers map or the tracks
map if it said so when it joined, and the private map of every peer it follows;
the room should be subscribed to a map exactly while some endpoint wants it.

The subscriber sets of the component are what the registry says is wanted
(`SubInv`), after every run.  The commands follow the sets with one exception:
`on_unsubscribe_peer` gives up a private map that nobody holds.  The main result
says that this is the only one.
-/

namespace MediaServer.Metadata

open Collections Lease Machine DhtKv

variable {Endpoint : Type} [DecidableEq Endpoint]

/-- Whether an endpoint asked, by its own requests, for the events of a map. -/
def Wants (hasher : Hasher) (room : ClusterRoomHash) (reg : Registry Endpoint)
    (endpoint : Endpoint) (map : Map) : Prop :=
  ∃ session, reg endpoint = some session ∧
    ((map = IdGenerator.peersMap room ∧ session.subscribe.peers = true) ∨
      (map = IdGenerator.tracksMap room ∧ session.subscribe.tracks = true) ∨
      ∃ target ∈ session.targets, map = IdGenerator.peerMap hasher room target)

/-- The private maps of these peers are distinct from each other and from the two
    maps of the room. -/
structure CollisionFree (hasher : Hasher) (room : ClusterRoomHash) (peers : Set PeerId) :
    Prop where
  injOn : Set.InjOn (IdGenerator.peerMap hasher room) peers
  ne_peersMap : ∀ peer ∈ peers, IdGenerator.peerMap hasher room peer ≠ IdGenerator.peersMap room
  ne_tracksMap : ∀ peer ∈ peers,
    IdGenerator.peerMap hasher room peer ≠ IdGenerator.tracksMap room

/-- What the room promises about an input: no endpoint joins twice, only joined
    endpoints follow peers, and the followed peers are among `peers`. -/
def ProperInput (peers : Set PeerId) (reg : Registry Endpoint) : Input Endpoint → Prop
  | .join endpoint _ _ _ _ => reg endpoint = none
  | .subscribePeer endpoint target => reg endpoint ≠ none ∧ target ∈ peers
  | .unsubscribePeer endpoint target => reg endpoint ≠ none ∧ target ∈ peers
  | _ => True

instance (peers : Set PeerId) [DecidablePred (· ∈ peers)] (reg : Registry Endpoint) :
    ∀ i, Decidable (ProperInput peers reg i)
  | .join endpoint _ _ _ _ => inferInstanceAs (Decidable (reg endpoint = none))
  | .subscribePeer endpoint target =>
      inferInstanceAs (Decidable (reg endpoint ≠ none ∧ target ∈ peers))
  | .unsubscribePeer endpoint target =>
      inferInstanceAs (Decidable (reg endpoint ≠ none ∧ target ∈ peers))
  | .leave _ => .isTrue trivial
  | .trackPublish _ _ _ _ => .isTrue trivial
  | .trackUnpublish _ _ => .isTrue trivial
  | .kvEvent _ _ => .isTrue trivial

def Proper (peers : Set PeerId) :
    Contract (RoomMetadata Endpoint) (Input Endpoint) (Output Endpoint) :=
  fun history _ i => ProperInput peers (registry history) i

instance (peers : Set PeerId) [DecidablePred (· ∈ peers)]
    (history : History (Input Endpoint) (Output Endpoint)) (s : RoomMetadata Endpoint)
    (i : Input Endpoint) : Decidable (Proper peers history s i) :=
  inferInstanceAs (Decidable (ProperInput peers (registry history) i))

/-- The endpoints that the component keeps as subscribers of a map. -/
def subscribersOf (s : RoomMetadata Endpoint) (map : Map) : IndexSet Endpoint :=
  if map = s.peersMap then s.peersMapSubscribers
  else if map = s.tracksMap then s.tracksMapSubscribers
  else (s.peersTracksSubs.get map).getD ∅

/-! ### The subscriber sets are what is wanted -/

/-- The subscriber sets of the component against the registry. -/
structure SubInv (hasher : Hasher) (room : ClusterRoomHash) (peers : Set PeerId)
    (reg : Registry Endpoint) (s : RoomMetadata Endpoint) : Prop where
  follows : Follows room reg s
  peersSubs : ∀ endpoint, endpoint ∈ s.peersMapSubscribers ↔
    ∃ session, reg endpoint = some session ∧ session.subscribe.peers = true
  tracksSubs : ∀ endpoint, endpoint ∈ s.tracksMapSubscribers ↔
    ∃ session, reg endpoint = some session ∧ session.subscribe.tracks = true
  privateSubs : ∀ map endpoint, endpoint ∈ (s.peersTracksSubs.get map).getD ∅ ↔
    ∃ session, reg endpoint = some session ∧
      ∃ target ∈ session.targets, map = IdGenerator.peerMap hasher room target
  nonempty : ∀ map subs, s.peersTracksSubs.get map = some subs → ∃ endpoint, endpoint ∈ subs
  known : ∀ endpoint session target, reg endpoint = some session →
    target ∈ session.targets → target ∈ peers

variable {hasher : Hasher} {codecs : Codecs} {room : ClusterRoomHash} {peers : Set PeerId}
  {reg : Registry Endpoint} {s s' : RoomMetadata Endpoint}

theorem subInv_init :
    SubInv hasher room peers (fun _ => none) (.new room : RoomMetadata Endpoint) where
  follows := follows_init
  peersSubs endpoint := by simp [RoomMetadata.new]
  tracksSubs endpoint := by simp [RoomMetadata.new]
  privateSubs map endpoint := by simp [RoomMetadata.new]
  nonempty map subs h := by simp [RoomMetadata.new] at h
  known endpoint session target h := by cases h

theorem SubInv.mem_subscribersOf (h : SubInv hasher room peers reg s)
    (hfree : CollisionFree hasher room peers) (endpoint : Endpoint) (map : Map) :
    endpoint ∈ subscribersOf s map ↔ Wants hasher room reg endpoint map := by
  have hmaps := IdGenerator.peersMap_ne_tracksMap room
  unfold subscribersOf Wants
  rw [h.follows.peersMap, h.follows.tracksMap]
  by_cases hpeers : map = IdGenerator.peersMap room
  · rw [if_pos hpeers, h.peersSubs]
    refine exists_congr fun session => and_congr_right fun hreg => ?_
    have hprivate : ¬ ∃ target ∈ session.targets,
        map = IdGenerator.peerMap hasher room target := by
      rintro ⟨target, htarget, heq⟩
      exact hfree.ne_peersMap target (h.known _ _ _ hreg htarget) (heq ▸ hpeers)
    have htracks : map ≠ IdGenerator.tracksMap room := hpeers ▸ hmaps
    simp [hpeers, hmaps]
    intro target htarget heq
    exact absurd ⟨target, htarget, hpeers.trans heq⟩ hprivate
  · rw [if_neg hpeers]
    by_cases htracks : map = IdGenerator.tracksMap room
    · rw [if_pos htracks, h.tracksSubs]
      refine exists_congr fun session => and_congr_right fun hreg => ?_
      constructor
      · exact fun hsub => Or.inr (Or.inl ⟨htracks, hsub⟩)
      · rintro (⟨hmap, -⟩ | ⟨-, hsub⟩ | ⟨target, htarget, heq⟩)
        · exact absurd hmap hpeers
        · exact hsub
        · exact absurd (heq ▸ htracks)
            (hfree.ne_tracksMap target (h.known _ _ _ hreg htarget))
    · rw [if_neg htracks, h.privateSubs]
      refine exists_congr fun session => and_congr_right fun _ => ?_
      constructor
      · exact fun hex => Or.inr (Or.inr hex)
      · rintro (⟨hmap, -⟩ | ⟨hmap, -⟩ | hex)
        · exact absurd hmap hpeers
        · exact absurd hmap htracks
        · exact hex

/-! ### Each input keeps the sets -/

theorem SubInv.join (h : SubInv hasher room peers reg s) {endpoint : Endpoint} {peer : PeerId}
    {peerMeta : PeerMeta} {publish : RoomInfoPublish} {subscribe : RoomInfoSubscribe}
    (hfresh : reg endpoint = none) :
    SubInv hasher room peers (regStep reg (.join endpoint peer peerMeta publish subscribe))
      (s.onJoin hasher codecs endpoint peer peerMeta publish subscribe) := by
  have hfollows := h.follows.step (show step hasher codecs s
    (.join endpoint peer peerMeta publish subscribe) = .ok _ from rfl)
  rw [onJoin_eq] at hfollows ⊢
  refine ⟨hfollows, fun other => ?_, fun other => ?_, fun map other => ?_, h.nonempty, ?_⟩
  · rw [regStep]
    by_cases hother : other = endpoint
    · subst hother
      have hnot : other ∉ s.peersMapSubscribers := by
        rw [h.peersSubs, hfresh]
        simp
      cases hsub : subscribe.peers with
      | false => simp [hsub, hnot]
      | true => simp [hsub]
    · rw [Function.update_of_ne hother, ← h.peersSubs]
      cases subscribe.peers with
      | false => simp
      | true => simp [hother]
  · rw [regStep]
    by_cases hother : other = endpoint
    · subst hother
      have hnot : other ∉ s.tracksMapSubscribers := by
        rw [h.tracksSubs, hfresh]
        simp
      cases hsub : subscribe.tracks with
      | false => simp [hsub, hnot]
      | true => simp [hsub]
    · rw [Function.update_of_ne hother, ← h.tracksSubs]
      cases subscribe.tracks with
      | false => simp
      | true => simp [hother]
  · rw [regStep]
    by_cases hother : other = endpoint
    · subst hother
      rw [h.privateSubs, hfresh]
      simp
    · rw [Function.update_of_ne hother, ← h.privateSubs]
  · intro other session target hreg htarget
    rw [regStep] at hreg
    by_cases hother : other = endpoint
    · subst hother
      rw [Function.update_self] at hreg
      cases hreg
      simp at htarget
    · rw [Function.update_of_ne hother] at hreg
      exact h.known other session target hreg htarget

/-- What the last loop of `onLeave` does to the private subscriptions, if the maps
    it gives up are distinct and held. -/
theorem leaveTargets_ok (endpoint : Endpoint) {targets : List PeerId}
    (hheld : ∀ target ∈ targets, ∃ subs,
      s.peersTracksSubs.get (s.peerMapOf hasher target) = some subs)
    (hnodup : (targets.map (s.peerMapOf hasher)).Nodup) :
    ∃ s', s.leaveTargets hasher endpoint targets = .ok s' ∧
      s'.queue = s.queue ++ unsubOutputs ((targets.map (s.peerMapOf hasher)).filter
        fun map => (remaining s map endpoint).isEmpty) ∧
      ∀ map, s'.peersTracksSubs.get map =
        if map ∈ targets.map (s.peerMapOf hasher) then
          if (remaining s map endpoint).isEmpty then none else some (remaining s map endpoint)
        else s.peersTracksSubs.get map := by
  induction targets generalizing s with
  | nil => exact ⟨s, rfl, by simp [unsubOutputs], by simp⟩
  | cons target rest ih =>
    obtain ⟨subs, hsubs⟩ := hheld target (List.mem_cons_self ..)
    rw [List.map_cons, List.nodup_cons] at hnodup
    obtain ⟨hfirst, hrest⟩ := hnodup
    set first := s.peerMapOf hasher target with hfirstDef
    have hremain : remaining s first endpoint = subs.swapRemove endpoint := by
      rw [remaining, hsubs, Option.getD_some]
    -- the rest of the loop meets the other maps as they were
    have hstep : ∀ s₁ : RoomMetadata Endpoint, s₁.room = s.room →
        (∀ map, map ≠ first → s₁.peersTracksSubs.get map = s.peersTracksSubs.get map) →
        (s₁.peersTracksSubs.get first =
          if (remaining s first endpoint).isEmpty then none
          else some (remaining s first endpoint)) →
        (s₁.queue = s.queue ++
          unsubOutputs (if (remaining s first endpoint).isEmpty then [first] else [])) →
        ∃ s', s₁.leaveTargets hasher endpoint rest = .ok s' ∧
          s'.queue = s.queue ++ unsubOutputs (((target :: rest).map (s.peerMapOf hasher)).filter
            fun map => (remaining s map endpoint).isEmpty) ∧
          ∀ map, s'.peersTracksSubs.get map =
            if map ∈ (target :: rest).map (s.peerMapOf hasher) then
              if (remaining s map endpoint).isEmpty then none
              else some (remaining s map endpoint)
            else s.peersTracksSubs.get map := by
      intro s₁ hroom hother hself hqueue
      have hmapOf : s₁.peerMapOf hasher = s.peerMapOf hasher := by
        funext peer
        rw [RoomMetadata.peerMapOf, RoomMetadata.peerMapOf, hroom]
      have hne : ∀ map ∈ rest.map (s.peerMapOf hasher), map ≠ first := by
        intro map hmem heq
        exact hfirst (heq ▸ hmem)
      have hsame : ∀ map ∈ rest.map (s.peerMapOf hasher),
          remaining s₁ map endpoint = remaining s map endpoint := by
        intro map hmem
        rw [remaining, remaining, hother map (hne map hmem)]
      have hheld' : ∀ target ∈ rest, ∃ subs,
          s₁.peersTracksSubs.get (s₁.peerMapOf hasher target) = some subs := by
        intro other hmem
        rw [hmapOf, hother _ (hne _ (List.mem_map.mpr ⟨other, hmem, rfl⟩))]
        exact hheld other (List.mem_cons_of_mem _ hmem)
      obtain ⟨s', hs', hqueue', hget'⟩ := ih hheld' (by rw [hmapOf]; exact hrest)
      rw [hmapOf] at hqueue' hget'
      refine ⟨s', hs', ?_, fun map => ?_⟩
      · have hfilter : (rest.map (s.peerMapOf hasher)).filter
            (fun map => (remaining s₁ map endpoint).isEmpty) =
            (rest.map (s.peerMapOf hasher)).filter
              (fun map => (remaining s map endpoint).isEmpty) :=
          List.filter_congr fun map hmem => by rw [hsame map hmem]
        rw [hqueue', hqueue, hfilter, List.map_cons, ← hfirstDef]
        by_cases hempty : (remaining s first endpoint).isEmpty
        · simp [hempty, unsubOutputs]
        · simp [hempty, unsubOutputs]
      · rw [hget' map, List.map_cons, ← hfirstDef]
        by_cases hmem : map ∈ rest.map (s.peerMapOf hasher)
        · rw [if_pos hmem, if_pos (List.mem_cons_of_mem _ hmem), hsame map hmem]
        · rw [if_neg hmem]
          by_cases heq : map = first
          · rw [heq, hself, if_pos (List.mem_cons_self ..)]
          · rw [hother map heq, if_neg]
            rintro (_ | ⟨_, hin⟩)
            · exact heq rfl
            · exact hmem hin
    simp only [RoomMetadata.leaveTargets, ← hfirstDef, hsubs]
    rw [← hremain]
    by_cases hempty : (remaining s first endpoint).isEmpty
    · rw [if_pos hempty]
      refine hstep _ rfl (fun map hne => ?_) ?_ ?_
      · exact IndexMap.get_swapRemove_ne _ hne
      · rw [if_pos hempty]
        exact IndexMap.get_swapRemove_self _ _
      · simp [hempty, unsubOutputs]
    · rw [if_neg hempty]
      refine hstep _ rfl (fun map hne => ?_) ?_ ?_
      · exact IndexMap.get_insert_ne _ _ hne
      · rw [if_neg hempty]
        exact IndexMap.get_insert_self _ _ _
      · simp [hempty, unsubOutputs]

/-- The targets an endpoint follows have distinct private maps, each of which is
    held. -/
theorem SubInv.targets_held (h : SubInv hasher room peers reg s)
    (hfree : CollisionFree hasher room peers) {endpoint : Endpoint} {session : Session}
    {container : PeerContainer} (hreg : reg endpoint = some session)
    (hmatch : Matches container session) :
    (container.subPeers.toList.map (s.peerMapOf hasher)).Nodup ∧
      ∀ target ∈ container.subPeers.toList, ∃ subs,
        s.peersTracksSubs.get (s.peerMapOf hasher target) = some subs ∧ endpoint ∈ subs := by
  have hknown : ∀ target ∈ container.subPeers.toList, target ∈ peers := by
    intro target hmem
    exact h.known endpoint session target hreg ((hmatch.targets target).mp hmem)
  constructor
  · refine List.Nodup.map_on ?_ container.subPeers.nodup_toList
    intro target hmem other hmem' heq
    rw [h.follows.peerMapOf, h.follows.peerMapOf] at heq
    exact hfree.injOn (hknown target hmem) (hknown other hmem') heq
  · intro target hmem
    have hin : endpoint ∈ (s.peersTracksSubs.get (s.peerMapOf hasher target)).getD ∅ := by
      rw [h.privateSubs]
      exact ⟨session, hreg, target, (hmatch.targets target).mp hmem, h.follows.peerMapOf _ _⟩
    cases hget : s.peersTracksSubs.get (s.peerMapOf hasher target) with
    | none => simp [hget] at hin
    | some subs =>
      rw [hget, Option.getD_some] at hin
      exact ⟨subs, rfl, hin⟩

/-- What `onLeave` does to a joined endpoint: it never panics, and every
    subscription of the endpoint is given up. -/
theorem SubInv.onLeave_ok (h : SubInv hasher room peers reg s)
    (hfree : CollisionFree hasher room peers) {endpoint : Endpoint}
    {container : PeerContainer} (hget : s.peers.get endpoint = some container) :
    ∃ s', s.onLeave hasher endpoint = .ok s' ∧
      s'.peersMapSubscribers = s.peersMapSubscribers.swapRemove endpoint ∧
      s'.tracksMapSubscribers = s.tracksMapSubscribers.swapRemove endpoint ∧
      s'.queue = (s.leaveRoom hasher endpoint container).queue ++
        unsubOutputs ((container.subPeers.toList.map (s.peerMapOf hasher)).filter
          fun map => (remaining s map endpoint).isEmpty) ∧
      ∀ map, s'.peersTracksSubs.get map =
        if map ∈ container.subPeers.toList.map (s.peerMapOf hasher) then
          if (remaining s map endpoint).isEmpty then none else some (remaining s map endpoint)
        else s.peersTracksSubs.get map := by
  obtain ⟨session, hreg, hmatch⟩ := h.follows.session_of_get hget
  obtain ⟨hnodup, hheld⟩ := h.targets_held hfree hreg hmatch
  have hheld' : ∀ target ∈ container.subPeers.toList, ∃ subs,
      (s.leaveRoom hasher endpoint container).peersTracksSubs.get
        ((s.leaveRoom hasher endpoint container).peerMapOf hasher target) = some subs :=
    fun target hmem => (hheld target hmem).imp fun _ => And.left
  obtain ⟨s', hs', hqueue, hsubs⟩ := leaveTargets_ok endpoint hheld' hnodup
  obtain ⟨_, hframe⟩ := leaveTargets_frame hs'
  refine ⟨s', ?_, ?_, ?_, hqueue, hsubs⟩
  · simp only [RoomMetadata.onLeave, hget]
    exact hs'
  · rw [hframe]
    rfl
  · rw [hframe]
    rfl

theorem SubInv.leave (h : SubInv hasher room peers reg s)
    (hfree : CollisionFree hasher room peers) (endpoint : Endpoint) :
    ∃ s', s.onLeave hasher endpoint = .ok s' ∧
      SubInv hasher room peers (Function.update reg endpoint none) s' := by
  cases hget : s.peers.get endpoint with
  | none =>
    have hreg := (h.follows.get_eq_none_iff endpoint).mp hget
    refine ⟨s, by simp [RoomMetadata.onLeave, hget], ?_⟩
    rw [← hreg, Function.update_eq_self]
    exact h
  | some container =>
    obtain ⟨session, hreg, hmatch⟩ := h.follows.session_of_get hget
    obtain ⟨s', hs', hpeers, htracks, -, hprivate⟩ := h.onLeave_ok hfree hget
    refine ⟨s', hs', h.follows.leave hs', fun other => ?_, fun other => ?_, fun map other => ?_,
      fun map subs hsubs => ?_, ?_⟩
    · rw [hpeers, IndexSet.mem_swapRemove, h.peersSubs]
      by_cases hother : other = endpoint
      · simp [hother]
      · simp [hother]
    · rw [htracks, IndexSet.mem_swapRemove, h.tracksSubs]
      by_cases hother : other = endpoint
      · simp [hother]
      · simp [hother]
    · have hmem : other ∈ (s'.peersTracksSubs.get map).getD ∅ ↔
          other ≠ endpoint ∧ other ∈ (s.peersTracksSubs.get map).getD ∅ := by
        rw [hprivate]
        by_cases hin : map ∈ container.subPeers.toList.map (s.peerMapOf hasher)
        · rw [if_pos hin]
          have hremain : other ∈ remaining s map endpoint ↔
              other ≠ endpoint ∧ other ∈ (s.peersTracksSubs.get map).getD ∅ := by
            rw [remaining, IndexSet.mem_swapRemove]
          split
          · rename_i hempty
            rw [← hremain]
            simp [IndexSet.isEmpty_iff.mp hempty other]
          · rw [Option.getD_some, hremain]
        · rw [if_neg hin]
          refine (and_iff_right_of_imp ?_).symm
          -- the endpoint itself only holds the maps of its targets
          rintro hother rfl
          obtain ⟨session', hreg', target, htarget, rfl⟩ := (h.privateSubs map other).mp hother
          rw [hreg] at hreg'
          cases hreg'
          refine hin (List.mem_map.mpr ⟨target, (hmatch.targets target).mpr htarget, ?_⟩)
          exact h.follows.peerMapOf hasher target
      rw [hmem, h.privateSubs]
      by_cases hother : other = endpoint
      · simp [hother]
      · simp [hother]
    · rw [hprivate] at hsubs
      split at hsubs
      · split at hsubs
        · cases hsubs
        · rename_i hempty
          cases hsubs
          exact IndexSet.isEmpty_eq_false_iff.mp (by simpa using hempty)
      · exact h.nonempty map subs hsubs
    · intro other session' target hreg' htarget
      by_cases hother : other = endpoint
      · subst hother
        simp at hreg'
      · rw [Function.update_of_ne hother] at hreg'
        exact h.known other session' target hreg' htarget

theorem SubInv.subscribePeer (h : SubInv hasher room peers reg s) {endpoint : Endpoint}
    {target : PeerId} (htarget : target ∈ peers)
    (hs' : step hasher codecs s (.subscribePeer endpoint target) = .ok s') :
    SubInv hasher room peers (regStep reg (.subscribePeer endpoint target)) s' := by
  have hfollows := h.follows.step hs'
  obtain ⟨container, hget, rfl⟩ := onSubscribePeer_cases hs'
  obtain ⟨session, hreg, hmatch⟩ := h.follows.session_of_get hget
  rw [regStep, Registry.modify_of_some _ hreg] at hfollows ⊢
  refine ⟨hfollows, fun other => ?_, fun other => ?_, fun map other => ?_,
    fun map subs hsubs => ?_, ?_⟩
  · rw [h.peersSubs]
    by_cases hother : other = endpoint
    · simp [hother, hreg]
    · simp [hother]
  · rw [h.tracksSubs]
    by_cases hother : other = endpoint
    · simp [hother, hreg]
    · simp [hother]
  · rw [IndexMap.get_insert, h.follows.peerMapOf]
    by_cases hmap : map = IdGenerator.peerMap hasher room target
    · subst hmap
      rw [if_pos rfl, Option.getD_some, IndexSet.mem_insert, h.privateSubs]
      by_cases hother : other = endpoint
      · simp [hother]
      · simp [hother]
    · rw [if_neg hmap, h.privateSubs]
      by_cases hother : other = endpoint
      · simp [hother, hreg, hmap]
      · simp [hother]
  · rw [IndexMap.get_insert] at hsubs
    split at hsubs
    · cases hsubs
      exact ⟨endpoint, by simp⟩
    · exact h.nonempty map subs hsubs
  · intro other session' target' hreg' htarget'
    by_cases hother : other = endpoint
    · subst hother
      rw [Function.update_self] at hreg'
      cases hreg'
      rcases Finset.mem_insert.mp htarget' with rfl | hold
      · exact htarget
      · exact h.known other session target' hreg hold
    · rw [Function.update_of_ne hother] at hreg'
      exact h.known other session' target' hreg' htarget'

theorem SubInv.unsubscribePeer (h : SubInv hasher room peers reg s)
    (hfree : CollisionFree hasher room peers) {endpoint : Endpoint} {target : PeerId}
    (htarget : target ∈ peers)
    (hs' : step hasher codecs s (.unsubscribePeer endpoint target) = .ok s') :
    SubInv hasher room peers (regStep reg (.unsubscribePeer endpoint target)) s' := by
  have hfollows := h.follows.step hs'
  obtain ⟨container, hget, rfl⟩ := onUnsubscribePeer_cases hs'
  obtain ⟨session, hreg, hmatch⟩ := h.follows.session_of_get hget
  rw [regStep, Registry.modify_of_some _ hreg] at hfollows ⊢
  refine ⟨hfollows, fun other => ?_, fun other => ?_, fun map other => ?_,
    fun map subs hsubs => ?_, ?_⟩
  · rw [h.peersSubs]
    by_cases hother : other = endpoint
    · simp [hother, hreg]
    · simp [hother]
  · rw [h.tracksSubs]
    by_cases hother : other = endpoint
    · simp [hother, hreg]
    · simp [hother]
  · have hmem : other ∈ ((if (remaining s (s.peerMapOf hasher target) endpoint).isEmpty then
          s.peersTracksSubs.swapRemove (s.peerMapOf hasher target)
        else s.peersTracksSubs.insert (s.peerMapOf hasher target)
          (remaining s (s.peerMapOf hasher target) endpoint)).get map).getD ∅ ↔
        ¬ (map = s.peerMapOf hasher target ∧ other = endpoint) ∧
          other ∈ (s.peersTracksSubs.get map).getD ∅ := by
      by_cases hmap : map = s.peerMapOf hasher target
      · have hremain : other ∈ remaining s (s.peerMapOf hasher target) endpoint ↔
            other ≠ endpoint ∧
              other ∈ (s.peersTracksSubs.get (s.peerMapOf hasher target)).getD ∅ := by
          rw [remaining, IndexSet.mem_swapRemove]
        subst hmap
        split
        · rename_i hempty
          have hnone := IndexSet.isEmpty_iff.mp hempty other
          rw [hremain] at hnone
          simpa using hnone
        · rw [IndexMap.get_insert_self, Option.getD_some, hremain]
          simp
      · split
        · rw [IndexMap.get_swapRemove_ne _ hmap]
          simp [hmap]
        · rw [IndexMap.get_insert_ne _ _ hmap]
          simp [hmap]
    rw [hmem, h.privateSubs, h.follows.peerMapOf]
    by_cases hother : other = endpoint
    · subst hother
      simp only [hreg, Function.update_self, Option.some.injEq, exists_eq_left', and_true,
        Finset.mem_erase]
      constructor
      · rintro ⟨hne, target', htarget', rfl⟩
        exact ⟨target', ⟨fun heq => hne (by rw [heq]), htarget'⟩, rfl⟩
      · rintro ⟨target', ⟨hne, htarget'⟩, rfl⟩
        refine ⟨fun heq => hne ?_, target', htarget', rfl⟩
        exact hfree.injOn (h.known _ _ _ hreg htarget') htarget heq
    · simp [hother]
  · split at hsubs
    · rw [IndexMap.get_swapRemove] at hsubs
      split at hsubs
      · cases hsubs
      · exact h.nonempty map subs hsubs
    · rename_i hempty
      rw [IndexMap.get_insert] at hsubs
      split at hsubs
      · cases hsubs
        exact IndexSet.isEmpty_eq_false_iff.mp (by simpa using hempty)
      · exact h.nonempty map subs hsubs
  · intro other session' target' hreg' htarget'
    by_cases hother : other = endpoint
    · subst hother
      rw [Function.update_self] at hreg'
      cases hreg'
      exact h.known other session target' hreg (Finset.mem_of_mem_erase htarget')
    · rw [Function.update_of_ne hother] at hreg'
      exact h.known other session' target' hreg' htarget'

/-- An input that changes neither who wants what nor the sets. -/
theorem SubInv.frame (h : SubInv hasher room peers reg s) {reg' : Registry Endpoint}
    (hfollows : Follows room reg' s')
    (hreg : ∀ (P : RoomInfoSubscribe → Finset PeerId → Prop) endpoint,
      (∃ session, reg' endpoint = some session ∧ P session.subscribe session.targets) ↔
        ∃ session, reg endpoint = some session ∧ P session.subscribe session.targets)
    (hpeers : s'.peersMapSubscribers = s.peersMapSubscribers)
    (htracks : s'.tracksMapSubscribers = s.tracksMapSubscribers)
    (hprivate : s'.peersTracksSubs = s.peersTracksSubs) :
    SubInv hasher room peers reg' s' where
  follows := hfollows
  peersSubs endpoint := by
    rw [hpeers, h.peersSubs]
    exact (hreg (fun subscribe _ => subscribe.peers = true) endpoint).symm
  tracksSubs endpoint := by
    rw [htracks, h.tracksSubs]
    exact (hreg (fun subscribe _ => subscribe.tracks = true) endpoint).symm
  privateSubs map endpoint := by
    rw [hprivate, h.privateSubs]
    exact (hreg (fun _ targets => ∃ target ∈ targets,
      map = IdGenerator.peerMap hasher room target) endpoint).symm
  nonempty map subs hsubs := h.nonempty map subs (hprivate ▸ hsubs)
  known endpoint session target hsession htarget := by
    obtain ⟨session', hsession', htarget'⟩ :=
      (hreg (fun _ targets => target ∈ targets) endpoint).mp ⟨session, hsession, htarget⟩
    exact h.known endpoint session' target hsession' htarget'

/-- Changing the published tracks of a session changes nothing it asked for. -/
theorem exists_modify_tracks (f : Session → RemoteTrackId → Option TrackName)
    (P : RoomInfoSubscribe → Finset PeerId → Prop) (endpoint other : Endpoint) :
    (∃ session, reg.modify endpoint (fun session => { session with tracks := f session }) other =
        some session ∧ P session.subscribe session.targets) ↔
      ∃ session, reg other = some session ∧ P session.subscribe session.targets := by
  rw [Registry.modify]
  by_cases hother : other = endpoint
  · subst hother
    rw [Function.update_self]
    cases reg other with
    | none => simp
    | some session => simp
  · rw [Function.update_of_ne hother]

/-- **Every proper input succeeds and keeps the subscriber sets.** -/
theorem SubInv.step (h : SubInv hasher room peers reg s)
    (hfree : CollisionFree hasher room peers) {i : Input Endpoint}
    (hok : ProperInput peers reg i) :
    ∃ s', step hasher codecs s i = .ok s' ∧ SubInv hasher room peers (regStep reg i) s' := by
  cases i with
  | join endpoint peer peerMeta publish subscribe => exact ⟨_, rfl, h.join hok⟩
  | leave endpoint => exact h.leave hfree endpoint
  | subscribePeer endpoint target =>
    obtain ⟨session, hreg⟩ := Option.ne_none_iff_exists'.mp hok.1
    obtain ⟨container, hget, -⟩ := h.follows.get_of_session hreg
    obtain ⟨s', hs'⟩ : ∃ s', Metadata.step hasher codecs s (.subscribePeer endpoint target) =
        .ok s' := by
      simp only [Metadata.step, RoomMetadata.onSubscribePeer, hget]
      exact ⟨_, rfl⟩
    exact ⟨s', hs', h.subscribePeer hok.2 hs'⟩
  | unsubscribePeer endpoint target =>
    obtain ⟨session, hreg⟩ := Option.ne_none_iff_exists'.mp hok.1
    obtain ⟨container, hget, -⟩ := h.follows.get_of_session hreg
    obtain ⟨s', hs'⟩ : ∃ s', Metadata.step hasher codecs s (.unsubscribePeer endpoint target) =
        .ok s' := by
      simp only [Metadata.step, RoomMetadata.onUnsubscribePeer, hget]
      split <;> exact ⟨_, rfl⟩
    exact ⟨s', hs', h.unsubscribePeer hfree hok.2 hs'⟩
  | trackPublish endpoint trackId track trackMeta =>
    refine ⟨_, rfl, h.frame (h.follows.trackPublish ..)
      (fun P other => exists_modify_tracks _ P endpoint other) ?_ ?_ ?_⟩
    all_goals
      rcases onTrackPublish_cases hasher codecs s endpoint trackId track trackMeta with
        ⟨heq, -⟩ | ⟨container, -, -, heq⟩
      · rw [heq]
      · rw [heq]
  | trackUnpublish endpoint trackId =>
    refine ⟨_, rfl, h.frame (h.follows.trackUnpublish ..)
      (fun P other => exists_modify_tracks _ P endpoint other) ?_ ?_ ?_⟩
    all_goals
      rcases onTrackUnpublish_cases hasher s endpoint trackId with
        ⟨heq, -⟩ | ⟨container, track, -, -, heq⟩
      · rw [heq]
      · rw [heq]
  | kvEvent map event =>
    obtain ⟨_, _, _, -, heq⟩ := onKvEvent_frame codecs s map event
    refine ⟨_, rfl, h.frame (h.follows.step (show Metadata.step hasher codecs s
      (.kvEvent map event) = .ok _ from rfl)) (fun _ _ => Iff.rfl) ?_ ?_ ?_⟩
    all_goals rw [heq]

theorem SubInv.dropFront (h : SubInv hasher room peers reg s) :
    SubInv hasher room peers reg { s with queue := s.queue.tail } :=
  h.frame h.follows.dropFront (fun _ _ => Iff.rfl) rfl rfl rfl

/-! ### The commands follow the sets -/

/-- The subscription commands that a list of outputs carries for one map. -/
def subCommand (map : Map) : Output Endpoint → Option Lease.Command
  | .kv ⟨m, .sub⟩ => if m = map then some .acquire else none
  | .kv ⟨m, .unsub⟩ => if m = map then some .release else none
  | _ => none

def subCommands (map : Map) (outputs : List (Output Endpoint)) : List Lease.Command :=
  outputs.filterMap (subCommand map)

omit [DecidableEq Endpoint] in
theorem subCommands_append (map : Map) (first second : List (Output Endpoint)) :
    subCommands map (first ++ second) = subCommands map first ++ subCommands map second :=
  List.filterMap_append

omit [DecidableEq Endpoint] in
theorem subCommands_toEndpoints {map : Map} {outputs : List (Output Endpoint)}
    (h : ToEndpoints outputs) : subCommands map outputs = [] := by
  refine List.filterMap_eq_nil_iff.mpr fun output hmem => ?_
  obtain ⟨endpoints, event, rfl⟩ := h output hmem
  rfl

omit [DecidableEq Endpoint] in
theorem subCommands_trackDels (map : Map) (s : RoomMetadata Endpoint) (peer : PeerId)
    (tracks : List TrackName) : subCommands map (s.trackDels hasher peer tracks) = [] := by
  refine List.filterMap_eq_nil_iff.mpr fun output hmem => ?_
  obtain ⟨track, -, hout⟩ := List.mem_flatMap.mp hmem
  simp only [List.mem_cons, List.not_mem_nil, or_false] at hout
  rcases hout with rfl | rfl <;> rfl

omit [DecidableEq Endpoint] in
/-- Giving up distinct maps releases each of them once. -/
theorem subCommands_unsubOutputs {map : Map} {maps : List Map} (hnodup : maps.Nodup) :
    subCommands map (unsubOutputs maps : List (Output Endpoint)) =
      if map ∈ maps then [.release] else [] := by
  induction maps with
  | nil => rfl
  | cons first rest ih =>
    rw [List.nodup_cons] at hnodup
    have hcons : subCommands map (unsubOutputs (first :: rest) : List (Output Endpoint)) =
        subCommands map [(.kv ⟨first, .unsub⟩ : Output Endpoint)] ++
          subCommands map (unsubOutputs rest : List (Output Endpoint)) := by
      rw [← subCommands_append]
      rfl
    rw [hcons, ih hnodup.2]
    by_cases hfirst : map = first
    · subst hfirst
      simp [subCommands, subCommand, hnodup.1]
    · simp [subCommands, subCommand, hfirst, Ne.symm hfirst]

/-- Whether the component has a subscriber for a map. -/
def held (s : RoomMetadata Endpoint) (map : Map) : Bool := !(subscribersOf s map).isEmpty

theorem edge_insert {set : IndexSet Endpoint} {endpoint : Endpoint} (hfresh : endpoint ∉ set) :
    edge (!set.isEmpty) (!(set.insert endpoint).isEmpty) =
      if (set.insert endpoint).len = 1 then [.acquire] else [] := by
  have hnow : (set.insert endpoint).isEmpty = false :=
    IndexSet.isEmpty_eq_false_iff.mpr ⟨endpoint, by simp⟩
  rw [hnow]
  cases hempty : set.isEmpty with
  | true =>
    have hnone := IndexSet.isEmpty_iff.mp hempty
    have hone : (set.insert endpoint).len = 1 :=
      IndexSet.len_insert_eq_one_iff.mpr fun other hother => absurd hother (hnone other)
    rw [if_pos hone]
    rfl
  | false =>
    obtain ⟨other, hother⟩ := IndexSet.isEmpty_eq_false_iff.mp hempty
    have hmore : (set.insert endpoint).len ≠ 1 := fun hone =>
      hfresh (IndexSet.len_insert_eq_one_iff.mp hone other hother ▸ hother)
    rw [if_neg hmore]
    rfl

theorem edge_swapRemove (set : IndexSet Endpoint) (endpoint : Endpoint) :
    edge (!set.isEmpty) (!(set.swapRemove endpoint).isEmpty) =
      if endpoint ∈ set ∧ (set.swapRemove endpoint).isEmpty then [.release] else [] := by
  cases hempty : set.isEmpty with
  | true =>
    have hnone := IndexSet.isEmpty_iff.mp hempty
    have hafter : (set.swapRemove endpoint).isEmpty = true :=
      IndexSet.isEmpty_iff.mpr fun other hother => hnone other (IndexSet.mem_swapRemove.mp hother).2
    rw [hafter, if_neg fun h => hnone endpoint h.1]
    rfl
  | false =>
    cases hafter : (set.swapRemove endpoint).isEmpty with
    | false => simp [edge]
    | true =>
      -- what is left is empty, so the endpoint was the one subscriber
      obtain ⟨other, hother⟩ := IndexSet.isEmpty_eq_false_iff.mp hempty
      have hsame : other = endpoint := by
        by_contra hne
        exact IndexSet.isEmpty_iff.mp hafter other (IndexSet.mem_swapRemove.mpr ⟨hne, hother⟩)
      rw [if_pos ⟨hsame ▸ hother, rfl⟩]
      rfl

omit [DecidableEq Endpoint] in
theorem held_congr {map : Map} (hpeersMap : s'.peersMap = s.peersMap)
    (htracksMap : s'.tracksMap = s.tracksMap)
    (hpeers : s'.peersMapSubscribers = s.peersMapSubscribers)
    (htracks : s'.tracksMapSubscribers = s.tracksMapSubscribers)
    (hprivate : s'.peersTracksSubs.get map = s.peersTracksSubs.get map) :
    held s' map = held s map := by
  rw [held, held, subscribersOf, subscribersOf, hpeersMap, htracksMap, hpeers, htracks, hprivate]

omit [DecidableEq Endpoint] in
theorem held_eq_true_iff {map : Map} :
    held s map = true ↔ ∃ endpoint, endpoint ∈ subscribersOf s map := by
  rw [held, Bool.not_eq_true', IndexSet.isEmpty_eq_false_iff]

omit [DecidableEq Endpoint] in
theorem held_new (map : Map) : held (.new room : RoomMetadata Endpoint) map = false := by
  have hempty : ∀ endpoint, endpoint ∉ subscribersOf (.new room : RoomMetadata Endpoint) map := by
    intro endpoint
    unfold subscribersOf
    split
    · exact IndexSet.not_mem_empty endpoint
    · split <;> exact IndexSet.not_mem_empty endpoint
  rw [held, IndexSet.isEmpty_iff.mpr hempty]
  rfl

theorem SubInv.tracksMap_ne_peersMap (h : SubInv hasher room peers reg s) :
    s.tracksMap ≠ s.peersMap := by
  rw [h.follows.tracksMap, h.follows.peersMap]
  exact (IdGenerator.peersMap_ne_tracksMap room).symm

theorem SubInv.peerMapOf_ne (h : SubInv hasher room peers reg s)
    (hfree : CollisionFree hasher room peers) {target : PeerId} (htarget : target ∈ peers) :
    s.peerMapOf hasher target ≠ s.peersMap ∧ s.peerMapOf hasher target ≠ s.tracksMap := by
  rw [h.follows.peerMapOf, h.follows.peersMap, h.follows.tracksMap]
  exact ⟨hfree.ne_peersMap target htarget, hfree.ne_tracksMap target htarget⟩

theorem subCommands_joinOutputs (map : Map) (endpoint : Endpoint) (peer : PeerId)
    (peerMeta : PeerMeta) (publish : RoomInfoPublish) (subscribe : RoomInfoSubscribe) :
    subCommands map (joinOutputs hasher codecs s endpoint peer peerMeta publish subscribe) =
      (if subscribe.peers ∧ (s.peersMapSubscribers.insert endpoint).len = 1 ∧ s.peersMap = map then
        [.acquire] else []) ++
      (if subscribe.tracks ∧ (s.tracksMapSubscribers.insert endpoint).len = 1 ∧
        s.tracksMap = map then [.acquire] else []) := by
  have hpeers : subCommands map (s.clusterPeers.values.map fun info =>
      (.endpoint [endpoint] (.peerJoined info.peer info.peerMeta) : Output Endpoint)) = [] := by
    simp [subCommands, List.filterMap_map, Function.comp_def, subCommand]
  have htracks : subCommands map (s.clusterTracks.values.map fun info =>
      (.endpoint [endpoint] (.trackStarted info.peer info.track info.trackMeta) :
        Output Endpoint)) = [] := by
    simp [subCommands, List.filterMap_map, Function.comp_def, subCommand]
  have hset : ∀ key data, subCommands map
      [(.kv ⟨s.peersMap, .set key data⟩ : Output Endpoint)] = [] := fun _ _ => rfl
  have hsub : ∀ other, subCommands map [(.kv ⟨other, .sub⟩ : Output Endpoint)] =
      if other = map then [.acquire] else [] := by
    intro other
    by_cases heq : other = map
    · simp [subCommands, subCommand, heq]
    · simp [subCommands, subCommand, heq]
  have hnil : subCommands map ([] : List (Output Endpoint)) = [] := rfl
  simp only [joinOutputs, subCommands_append, apply_ite (subCommands map), hpeers, htracks, hset,
    hsub, hnil, List.nil_append, ite_self]
  congr 1
  · by_cases h₁ : subscribe.peers = true
    · by_cases h₂ : (s.peersMapSubscribers.insert endpoint).len = 1
      · simp [h₁, h₂]
      · simp [h₁, h₂]
    · simp [h₁]
  · by_cases h₁ : subscribe.tracks = true
    · by_cases h₂ : (s.tracksMapSubscribers.insert endpoint).len = 1
      · simp [h₁, h₂]
      · simp [h₁, h₂]
    · simp [h₁]

theorem SubInv.commands_join (h : SubInv hasher room peers reg s) {endpoint : Endpoint}
    {peer : PeerId} {peerMeta : PeerMeta} {publish : RoomInfoPublish}
    {subscribe : RoomInfoSubscribe} (hfresh : reg endpoint = none) (map : Map) :
    subCommands map (joinOutputs hasher codecs s endpoint peer peerMeta publish subscribe) =
      edge (held s map)
        (held (s.onJoin hasher codecs endpoint peer peerMeta publish subscribe) map) := by
  have hmaps := h.tracksMap_ne_peersMap
  rw [subCommands_joinOutputs, onJoin_eq]
  simp only [held, subscribersOf]
  by_cases hpeers : map = s.peersMap
  · subst hpeers
    have hnot : endpoint ∉ s.peersMapSubscribers := by
      rw [h.peersSubs, hfresh]
      simp
    cases hsub : subscribe.peers with
    | false => simp [hmaps]
    | true => simp [hmaps, edge_insert hnot]
  · by_cases htracks : map = s.tracksMap
    · subst htracks
      have hnot : endpoint ∉ s.tracksMapSubscribers := by
        rw [h.tracksSubs, hfresh]
        simp
      cases hsub : subscribe.tracks with
      | false => simp [hmaps, hmaps.symm]
      | true => simp [hmaps, hmaps.symm, edge_insert hnot]
    · simp [hpeers, htracks, Ne.symm hpeers, Ne.symm htracks]

theorem SubInv.commands_leave (h : SubInv hasher room peers reg s)
    (hfree : CollisionFree hasher room peers) {endpoint : Endpoint}
    (hs' : s.onLeave hasher endpoint = .ok s') (map : Map) :
    ∃ outputs, s'.queue = s.queue ++ outputs ∧
      subCommands map outputs = edge (held s map) (held s' map) := by
  cases hget : s.peers.get endpoint with
  | none =>
    simp only [RoomMetadata.onLeave, hget] at hs'
    cases hs'
    exact ⟨[], by simp, by rw [edge_self]; rfl⟩
  | some container =>
    obtain ⟨session, hreg, hmatch⟩ := h.follows.session_of_get hget
    obtain ⟨hnodup, hheld⟩ := h.targets_held hfree hreg hmatch
    obtain ⟨s'', hs'', hpeers, htracks, hqueue, hprivate⟩ := h.onLeave_ok hfree hget
    rw [hs'] at hs''
    cases hs''
    have hmaps := h.tracksMap_ne_peersMap
    have hprivateNe : ∀ m ∈ container.subPeers.toList.map (s.peerMapOf hasher),
        m ≠ s.peersMap ∧ m ≠ s.tracksMap := by
      intro m hmem
      obtain ⟨target, htarget, rfl⟩ := List.mem_map.mp hmem
      exact h.peerMapOf_ne hfree (h.known _ _ _ hreg ((hmatch.targets target).mp htarget))
    obtain ⟨hpeersMap, htracksMap⟩ : s'.peersMap = s.peersMap ∧ s'.tracksMap = s.tracksMap := by
      have hfollows := h.follows.leave hs'
      exact ⟨hfollows.peersMap.trans h.follows.peersMap.symm,
        hfollows.tracksMap.trans h.follows.tracksMap.symm⟩
    rw [RoomMetadata.leaveRoom, List.append_assoc] at hqueue
    refine ⟨_, hqueue, ?_⟩
    have hdel : subCommands map (if container.publish.peer then
        [(.kv ⟨s.peersMap, .del (IdGenerator.peersKey hasher container.peer)⟩ : Output Endpoint)]
        else []) = [] := by
      split <;> rfl
    have hunsub : ∀ (other : Map) (p : Prop) [Decidable p], subCommands map
        (if p then [(.kv ⟨other, .unsub⟩ : Output Endpoint)] else []) =
          if p ∧ other = map then [.release] else [] := by
      intro other p _
      by_cases hp : p
      · by_cases hother : other = map
        · simp [hp, hother, subCommands, subCommand]
        · simp [hp, hother, subCommands, subCommand]
      · simp [hp, subCommands]
    rw [subCommands_append, subCommands_append, subCommands_append, subCommands_append, hdel,
      subCommands_trackDels, hunsub, hunsub, subCommands_unsubOutputs (hnodup.filter _)]
    simp only [held, subscribersOf, hpeersMap, htracksMap, hpeers, htracks, hprivate]
    by_cases hm : map = s.peersMap
    · subst hm
      have hnot : s.peersMap ∉ (container.subPeers.toList.map (s.peerMapOf hasher)).filter
          (fun map => (remaining s map endpoint).isEmpty) :=
        fun hmem => (hprivateNe _ (List.mem_of_mem_filter hmem)).1 rfl
      simp [hmaps, hnot, edge_swapRemove]
    · by_cases ht : map = s.tracksMap
      · subst ht
        have hnot : s.tracksMap ∉ (container.subPeers.toList.map (s.peerMapOf hasher)).filter
            (fun map => (remaining s map endpoint).isEmpty) :=
          fun hmem => (hprivateNe _ (List.mem_of_mem_filter hmem)).2 rfl
        simp [hmaps, hmaps.symm, hnot, edge_swapRemove]
      · simp only [hm, ht, Ne.symm hm, Ne.symm ht, and_false, if_false, List.nil_append,
          List.mem_filter]
        by_cases hmem : map ∈ container.subPeers.toList.map (s.peerMapOf hasher)
        · obtain ⟨target, htarget, rfl⟩ := List.mem_map.mp hmem
          obtain ⟨subs, hsubs, hin⟩ := hheld target htarget
          have hremain : remaining s (s.peerMapOf hasher target) endpoint =
              subs.swapRemove endpoint := by
            rw [remaining, hsubs, Option.getD_some]
          have hedge := edge_swapRemove subs endpoint
          rw [hremain, hsubs, if_pos hmem, Option.getD_some]
          simp only [hmem, true_and]
          cases hempty : (subs.swapRemove endpoint).isEmpty with
          | true =>
            rw [hempty] at hedge
            rw [if_pos rfl, if_pos rfl, Option.getD_none]
            rw [if_pos ⟨hin, rfl⟩] at hedge
            exact hedge.symm
          | false =>
            rw [hempty] at hedge
            rw [if_neg Bool.false_ne_true, if_neg Bool.false_ne_true, Option.getD_some, hempty]
            simpa using hedge.symm
        · rw [if_neg hmem, edge_self]
          simp [hmem]

theorem SubInv.commands_subscribePeer (h : SubInv hasher room peers reg s)
    (hfree : CollisionFree hasher room peers) {endpoint : Endpoint} {target : PeerId}
    (htarget : target ∈ peers) (hs' : s.onSubscribePeer hasher endpoint target = .ok s')
    (map : Map) :
    ∃ outputs, s'.queue = s.queue ++ outputs ∧
      subCommands map outputs = edge (held s map) (held s' map) := by
  obtain ⟨container, -, rfl⟩ := onSubscribePeer_cases hs'
  obtain ⟨hpeers, htracks⟩ := h.peerMapOf_ne hfree htarget
  refine ⟨_, rfl, ?_⟩
  by_cases hmap : map = s.peerMapOf hasher target
  · subst hmap
    simp only [held, subscribersOf, if_neg hpeers, if_neg htracks, IndexMap.get_insert_self,
      Option.getD_some]
    set subs := (s.peersTracksSubs.get (s.peerMapOf hasher target)).getD ∅
    have hnow : (subs.insert endpoint).isEmpty = false :=
      IndexSet.isEmpty_eq_false_iff.mpr ⟨endpoint, by simp⟩
    rw [hnow]
    cases subs.isEmpty with
    | true => simp [subCommands, subCommand, edge]
    | false => simp [subCommands, edge]
  · have hsame : ∀ subs peers queue, held { s with
        peersTracksSubs := s.peersTracksSubs.insert (s.peerMapOf hasher target) subs
        peers := peers
        queue := queue } map = held s map := by
      intro subs peers queue
      exact held_congr rfl rfl rfl rfl (IndexMap.get_insert_ne _ _ hmap)
    rw [hsame, edge_self]
    split <;> simp [subCommands, subCommand, Ne.symm hmap]

/-- Giving up a private map: the commands follow the sets if the map is held, and
    a map that is not held is released all the same. -/
theorem SubInv.commands_unsubscribePeer (h : SubInv hasher room peers reg s)
    (hfree : CollisionFree hasher room peers) {endpoint : Endpoint} {target : PeerId}
    (htarget : target ∈ peers) (hs' : s.onUnsubscribePeer hasher endpoint target = .ok s')
    (map : Map) :
    ∃ outputs, s'.queue = s.queue ++ outputs ∧
      subCommands map outputs =
        if map = s.peerMapOf hasher target ∧ held s map = false then [.release]
        else edge (held s map) (held s' map) := by
  obtain ⟨container, -, rfl⟩ := onUnsubscribePeer_cases hs'
  obtain ⟨hpeers, htracks⟩ := h.peerMapOf_ne hfree htarget
  refine ⟨_, rfl, ?_⟩
  set remain := remaining s (s.peerMapOf hasher target) endpoint with hremain
  by_cases hmap : map = s.peerMapOf hasher target
  · subst hmap
    have hcommands : subCommands (s.peerMapOf hasher target)
        (if remain.isEmpty then [(.kv ⟨s.peerMapOf hasher target, .unsub⟩ : Output Endpoint)]
          else []) = if remain.isEmpty then [.release] else [] := by
      split <;> simp [subCommands, subCommand]
    simp only [held, subscribersOf, if_neg hpeers, if_neg htracks, hcommands, true_and]
    have hafter : (((if remain.isEmpty then
        s.peersTracksSubs.swapRemove (s.peerMapOf hasher target)
        else s.peersTracksSubs.insert (s.peerMapOf hasher target) remain).get
          (s.peerMapOf hasher target)).getD ∅).isEmpty = remain.isEmpty := by
      by_cases hempty : remain.isEmpty
      · rw [if_pos hempty, IndexMap.get_swapRemove_self, Option.getD_none, hempty]
        rfl
      · rw [if_neg hempty, IndexMap.get_insert_self, Option.getD_some]
    rw [hafter]
    have hedge := edge_swapRemove ((s.peersTracksSubs.get (s.peerMapOf hasher target)).getD ∅)
      endpoint
    rw [← remaining, ← hremain] at hedge
    cases hbefore : ((s.peersTracksSubs.get (s.peerMapOf hasher target)).getD ∅).isEmpty with
    | true =>
      have hempty : remain.isEmpty = true := by
        refine IndexSet.isEmpty_iff.mpr fun other hother => ?_
        rw [hremain, remaining, IndexSet.mem_swapRemove] at hother
        exact IndexSet.isEmpty_iff.mp hbefore other hother.2
      simp [hempty]
    | false =>
      cases remain.isEmpty with
      | true => simp [edge]
      | false => simp [edge]
  · have hsame : ∀ subs peers queue, held { s with
        peersTracksSubs := if remain.isEmpty then
            s.peersTracksSubs.swapRemove (s.peerMapOf hasher target)
          else s.peersTracksSubs.insert (s.peerMapOf hasher target) subs
        peers := peers
        queue := queue } map = held s map := by
      intro subs peers queue
      refine held_congr rfl rfl rfl rfl ?_
      simp only
      split
      · exact IndexMap.get_swapRemove_ne _ hmap
      · exact IndexMap.get_insert_ne _ _ hmap
    have hother : ¬ (map = s.peerMapOf hasher target ∧ held s map = false) :=
      fun hand => hmap hand.1
    rw [hsame, edge_self, if_neg hother]
    split <;> simp [subCommands, subCommand, Ne.symm hmap]

/-- **What a step says about a map.** It reports the change of the map's subscriber
    set, provided that an unfollow names a peer that somebody follows. -/
theorem SubInv.commands_step (h : SubInv hasher room peers reg s)
    (hfree : CollisionFree hasher room peers) {i : Input Endpoint}
    (hok : ProperInput peers reg i)
    (hwanted : ∀ endpoint target, i = .unsubscribePeer endpoint target →
      held s (IdGenerator.peerMap hasher room target) = true)
    (hs' : Metadata.step hasher codecs s i = .ok s') (map : Map) :
    ∃ outputs, s'.queue = s.queue ++ outputs ∧
      subCommands map outputs = edge (held s map) (held s' map) := by
  cases i with
  | join endpoint peer peerMeta publish subscribe =>
    cases hs'
    refine ⟨_, ?_, h.commands_join hok map⟩
    rw [onJoin_eq]
  | leave endpoint => exact h.commands_leave hfree hs' map
  | subscribePeer endpoint target => exact h.commands_subscribePeer hfree hok.2 hs' map
  | unsubscribePeer endpoint target =>
    obtain ⟨outputs, hqueue, hcommands⟩ := h.commands_unsubscribePeer hfree hok.2 hs' map
    refine ⟨outputs, hqueue, hcommands.trans (if_neg ?_)⟩
    rintro ⟨rfl, hfalse⟩
    rw [h.follows.peerMapOf, hwanted endpoint target rfl] at hfalse
    cases hfalse
  | trackPublish endpoint trackId track trackMeta =>
    cases hs'
    rcases onTrackPublish_cases hasher codecs s endpoint trackId track trackMeta with
      ⟨heq, -⟩ | ⟨container, -, -, heq⟩
    · rw [heq]
      exact ⟨[], by simp, by rw [edge_self]; rfl⟩
    · rw [heq]
      exact ⟨_, rfl, (edge_self (held s map)).symm⟩
  | trackUnpublish endpoint trackId =>
    cases hs'
    rcases onTrackUnpublish_cases hasher s endpoint trackId with
      ⟨heq, -⟩ | ⟨container, track, -, -, heq⟩
    · rw [heq]
      exact ⟨[], by simp, by rw [edge_self]; rfl⟩
    · rw [heq]
      refine ⟨_, rfl, ?_⟩
      rw [subCommands_trackDels]
      exact (edge_self (held s map)).symm
  | kvEvent kvMap event =>
    cases hs'
    obtain ⟨_, _, outputs, houtputs, heq⟩ := onKvEvent_frame codecs s kvMap event
    rw [heq]
    refine ⟨outputs, rfl, ?_⟩
    rw [subCommands_toEndpoints houtputs]
    exact (edge_self (held s map)).symm

/-! ### Main result -/

/-- The commands of every map alternate, and the map is subscribed exactly while
    some endpoint wants it. -/
def SubscriptionTrace (hasher : Hasher) (room : ClusterRoomHash)
    (history : History (Input Endpoint) (Output Endpoint)) : Prop :=
  ∀ map, LeaseTrace (subCommands map (emitted history))
    (∃ endpoint, Wants hasher room (registry history) endpoint map)

/-- An unfollow names a peer whose private map some joined endpoint wants. -/
def WantedUnsubscribe (hasher : Hasher) (room : ClusterRoomHash) :
    Contract (RoomMetadata Endpoint) (Input Endpoint) (Output Endpoint)
  | history, _, .unsubscribePeer _ target =>
      ∃ endpoint, Wants hasher room (registry history) endpoint
        (IdGenerator.peerMap hasher room target)
  | _, _, _ => True

theorem SubInv.held_iff (h : SubInv hasher room peers reg s)
    (hfree : CollisionFree hasher room peers) (map : Map) :
    held s map = true ↔ ∃ endpoint, Wants hasher room reg endpoint map := by
  rw [held_eq_true_iff]
  exact exists_congr fun endpoint => h.mem_subscribersOf hfree endpoint map

/-- The subscriber sets are right after every proper run, which never panics. -/
theorem subInv_run (hfree : CollisionFree hasher room peers)
    {acts : List (Action (Input Endpoint))}
    (hacts : (machine hasher codecs room).Admits (Proper peers) acts) :
    ∃ c, (machine hasher codecs room).run acts = .ok c ∧
      SubInv hasher room peers (registry c.history) c.state := by
  refine run_progress (M := machine hasher codecs room) (Proper peers)
    (fun history s => SubInv hasher room peers (registry history) s) subInv_init ?_ ?_ hacts
  · intro history s i h hok
    obtain ⟨s', hs', h'⟩ := h.step hfree hok
    exact ⟨s', hs', by rw [registry_concat]; exact h'⟩
  · intro history s h
    exact h.dropFront

/-- The trace of a run whose unfollows are all wanted. -/
theorem subscriptionTrace_of_wanted (hfree : CollisionFree hasher room peers)
    {acts : List (Action (Input Endpoint))} {c : Config _ _ _}
    (hacts : (machine hasher codecs room).Admits (Proper peers) acts)
    (hwanted : (machine hasher codecs room).Admits (WantedUnsubscribe hasher room) acts)
    (hrun : (machine hasher codecs room).run acts = .ok c) :
    SubscriptionTrace hasher room c.history := by
  have hinv := run_invariant (M := machine hasher codecs room)
    (fun history s i => Proper peers history s i ∧ WantedUnsubscribe hasher room history s i)
    (fun history s => SubInv hasher room peers (registry history) s ∧
      ∀ map, LeaseTrace (subCommands map (emitted history)) (held s map = true))
    ⟨subInv_init, fun map => LeaseTrace.nil (by simp [machine, held_new])⟩ ?_ ?_
    (hacts.and hwanted) hrun
  · intro map
    exact (hinv.2 map).congr (hinv.1.held_iff hfree map)
  · rintro history s i s' ⟨h, htrace⟩ ⟨hok, hunsub⟩ hs'
    obtain ⟨s'', hs'', h'⟩ := h.step hfree hok
    rw [show Metadata.step hasher codecs s i = .ok s' from hs'] at hs''
    cases hs''
    refine ⟨by rw [registry_concat]; exact h', fun map => ?_⟩
    have hheld : ∀ endpoint target, i = .unsubscribePeer endpoint target →
        held s (IdGenerator.peerMap hasher room target) = true := by
      rintro endpoint target rfl
      exact (h.held_iff hfree _).mpr hunsub
    obtain ⟨outputs, hqueue, hcommands⟩ := h.commands_step hfree hok hheld hs' map
    rw [emitted_concat, subCommands_append,
      pushed_eq_of_append (machine hasher codecs room) hqueue, hcommands]
    exact (htrace map).edge
  · rintro history s ⟨h, htrace⟩
    exact ⟨h.dropFront, htrace⟩

/-- **Subscription trace.** Take any run in which no endpoint joins twice, only
    joined endpoints follow peers and the private maps of the followed peers do not
    collide.  It does not panic; and the commands of every map alternate, starting
    with `Sub`, with the map subscribed after each operation exactly when some
    joined endpoint wants it, if and only if every unfollow names a peer whose map
    some joined endpoint wants at that moment. -/
theorem subscription_trace_iff (hasher : Hasher) (codecs : Codecs) (room : ClusterRoomHash)
    (peers : Set PeerId) (hfree : CollisionFree hasher room peers)
    (acts : List (Action (Input Endpoint)))
    (hacts : (machine hasher codecs room).Admits (Proper peers) acts) :
    (∃ c, (machine hasher codecs room).run acts = .ok c) ∧
    ((∀ before after c, acts = before ++ after →
        (machine hasher codecs room).run before = .ok c →
        SubscriptionTrace hasher room c.history) ↔
      (machine hasher codecs room).Admits (WantedUnsubscribe hasher room) acts) := by
  refine ⟨(subInv_run hfree hacts).imp fun _ h => h.1, ?_, ?_⟩
  · intro htrace before i after hacts' c hc
    subst hacts'
    cases i with
    | unsubscribePeer endpoint target =>
      by_contra hunwanted
      have hproper := hacts.of_append
      obtain ⟨c₀, hc₀, h⟩ := subInv_run hfree hproper
      rw [hc] at hc₀
      cases hc₀
      have hok : ProperInput peers (registry c.history) (.unsubscribePeer endpoint target) :=
        hacts before _ after rfl c hc
      obtain ⟨s', hs', -⟩ : ∃ s', Metadata.step hasher codecs c.state
          (.unsubscribePeer endpoint target) = .ok s' ∧ _ := h.step hfree hok
      -- the run up to and with the unfollow releases a map that is not held
      set next : Config _ _ _ := ⟨s', c.history ++ [(Input.unsubscribePeer endpoint target,
        (machine hasher codecs room).pushed c.state s')], c.popped⟩ with hnext
      have hrun : (machine hasher codecs room).run
          (before ++ [Action.input (.unsubscribePeer endpoint target)]) = .ok next :=
        (run_concat_eq_ok _).mpr ⟨c, hc, (exec_input_eq_ok _).mpr ⟨s', hs', rfl⟩⟩
      have hafter := htrace (before ++ [Action.input (.unsubscribePeer endpoint target)]) after next
        (by simp) hrun (IdGenerator.peerMap hasher room target)
      obtain ⟨outputs, hqueue, hcommands⟩ := h.commands_unsubscribePeer hfree hok.2 hs'
        (IdGenerator.peerMap hasher room target)
      have hfalse : held c.state (IdGenerator.peerMap hasher room target) = false :=
        Bool.eq_false_iff.mpr fun htrue => hunwanted ((h.held_iff hfree _).mp htrue)
      rw [if_pos ⟨(h.follows.peerMapOf _ _).symm, hfalse⟩] at hcommands
      have halt := hafter.alternates
      rw [hnext, emitted_concat, subCommands_append,
        pushed_eq_of_append (machine hasher codecs room) hqueue, hcommands] at halt
      exact (htrace before _ c rfl hc _).not_alternates_release hunwanted halt
    | _ => trivial
  · rintro hwanted before after c rfl hc
    exact subscriptionTrace_of_wanted hfree hacts.of_append hwanted.of_append hc

def somePeers : Set PeerId := {peer | peer ∈ ["bob", "carol"]}

instance : DecidablePred (· ∈ somePeers) := fun peer =>
  inferInstanceAs (Decidable (peer ∈ ["bob", "carol"]))

theorem somePeers_collisionFree : CollisionFree fnv1a 0 somePeers := by
  have hall : ∀ first ∈ ["bob", "carol"], ∀ second ∈ ["bob", "carol"],
      IdGenerator.peerMap fnv1a 0 first = IdGenerator.peerMap fnv1a 0 second →
        first = second := by
    decide +kernel
  have hpeers : ∀ peer ∈ ["bob", "carol"],
      IdGenerator.peerMap fnv1a 0 peer ≠ IdGenerator.peersMap 0 := by
    decide +kernel
  have htracks : ∀ peer ∈ ["bob", "carol"],
      IdGenerator.peerMap fnv1a 0 peer ≠ IdGenerator.tracksMap 0 := by
    decide +kernel
  exact ⟨fun first hfirst second hsecond => hall first hfirst second hsecond, hpeers, htracks⟩

/-- An endpoint follows two peers, unfollows one of them, and leaves. -/
def followAndLeave : List (Action (Input Nat)) :=
  [.input (.join 1 "alice" ⟨none, none⟩ ⟨true, true⟩ ⟨true, false⟩),
    .input (.subscribePeer 1 "bob"), .input (.subscribePeer 1 "carol"), .pop,
    .input (.unsubscribePeer 1 "bob"), .input (.leave 1)]

theorem subscription_trace_followAndLeave :
    ∃ c, (machine fnv1a .blank 0).run followAndLeave = .ok c :=
  (subscription_trace_iff fnv1a .blank 0 somePeers somePeers_collisionFree followAndLeave
    (AdmitsFrom.admits (by decide +kernel))).1

/-- An endpoint unfollows a peer that nobody follows: the room unsubscribes a map
    that it never subscribed. -/
theorem unfollow_of_unfollowed_peer :
    ∃ (acts : List (Action (Input Nat))) (c : Config _ _ _),
      acts = [.input (.join 1 "alice" ⟨none, none⟩ ⟨true, true⟩ ⟨true, false⟩),
        .input (.unsubscribePeer 1 "bob")] ∧
      CollisionFree fnv1a 0 somePeers ∧
      (machine fnv1a .blank 0).Admits (Proper somePeers) acts ∧
      (machine fnv1a .blank 0).run acts = .ok c ∧
      ¬ SubscriptionTrace fnv1a 0 c.history := by
  refine ⟨_, _, rfl, somePeers_collisionFree, AdmitsFrom.admits (by decide), rfl, ?_⟩
  intro htrace
  have halt := (htrace (IdGenerator.peerMap fnv1a 0 "bob")).alternates
  revert halt
  decide +kernel

end MediaServer.Metadata
