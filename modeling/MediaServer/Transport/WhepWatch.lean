import MediaServer.Lib.Always
import MediaServer.Transport.LiveTracks
import MediaServer.Transport.Refinement

/-!
# What a WHEP client watches

A WHEP client has one local track of each kind.  The transport attaches them to the tracks of one
peer and detaches them when these stop.  Tracks that start before the media for them is there wait;
a stop does not take them off the list, and one that stopped in the meantime is attached all the
same.
-/

namespace MediaServer.Transport.TransportWebrtcWhep

open Machine

/-! ### What the requests say -/

/-- The source of a local track after an output. -/
def hold (id : LocalTrackId) (held : Option TrackSource) : InternalOutput → Option TrackSource
  | .transportOutput (.rpcReq _ (.localTrack id' (.attach source _))) =>
      if id' = id then some source else held
  | .transportOutput (.rpcReq _ (.localTrack id' .detach)) => if id' = id then none else held
  | _ => held

/-- The source a local track is attached to after some outputs. -/
def attachedTo (id : LocalTrackId) (outs : List InternalOutput) : Option TrackSource :=
  outs.foldl (hold id) none

def localOf : MediaKind → LocalTrackId
  | .audio => audioTrack
  | .video => videoTrack

/-- The start of a local track. -/
def startOf (kind : MediaKind) : InternalOutput := .event (.localTrack (localOf kind) (.started kind))

/-- The tracks that are live after a history. -/
def liveOf (history : History Input InternalOutput) : LiveTracks :=
  history.foldl (fun live entry => match entry.1 with
    | .endpoint _ event => live.onEvent event
    | _ => live) []

/-- A local track is detached whenever it is attached to something new. -/
def InOrder (outs : List InternalOutput) : Prop :=
  ∀ before reqId id source config after,
    outs = before ++ .request reqId (.localTrack id (.attach source config)) :: after →
      attachedTo id before = none

/-- What the claim says after every step. -/
structure Watches (history : History Input InternalOutput) : Prop where
  live : ∀ kind source, attachedTo (localOf kind) (emitted history) = some source →
    (source, kind) ∈ liveOf history
  onePeer : ∀ audio video, attachedTo audioTrack (emitted history) = some audio →
    attachedTo videoTrack (emitted history) = some video → audio.peer = video.peer
  inOrder : InOrder (emitted history)
  /-- A track that starts when its local track is there and nothing is attached is attached. -/
  picks : ∀ before now peer track trackMeta pushed,
    history = before ++ [(Input.endpoint now (.peerTrackStarted peer track trackMeta), pushed)] →
      startOf trackMeta.kind ∈ emitted before →
      (∀ kind, attachedTo (localOf kind) (emitted before) = none) →
      attachedTo (localOf trackMeta.kind) (emitted history) = some ⟨peer, track⟩

/-! ### The fields of a kind -/

def mid (t : TransportWebrtcWhep) : MediaKind → Option Mid
  | .audio => t.audioMid
  | .video => t.videoMid

def waits (t : TransportWebrtcWhep) : MediaKind → List (PeerId × TrackName × TrackMeta)
  | .audio => t.audioSubscribeWaits
  | .video => t.videoSubscribeWaits

def stream (t : TransportWebrtcWhep) : MediaKind → Option TrackName
  | .audio => t.subscribed.audio
  | .video => t.subscribed.video

/-- The source of a local track, as the transport has it. -/
def subscription (t : TransportWebrtcWhep) (kind : MediaKind) : Option TrackSource :=
  t.subscribed.peer.bind fun peer => (t.stream kind).map fun track => ⟨peer, track⟩

/-- Nothing is watched, or this peer. -/
def allows (t : TransportWebrtcWhep) (peer : PeerId) : Bool :=
  decide (t.subscribed.peer = none ∨ t.subscribed.peer = some peer)

/-- The kind of the local track that an added media makes. -/
def addedKind (t : TransportWebrtcWhep) (media : MediaAdded) : Option MediaKind :=
  match media.direction with
  | .recvOnly | .inactive => none
  | .sendOnly | .sendRecv => if (t.mid media.kind).isSome then none else some media.kind

/-- The first waiting track that may be watched. -/
def firstWait (t : TransportWebrtcWhep) (kind : MediaKind) : Option TrackSource :=
  ((t.waits kind).find? fun wait => t.allows wait.1).map fun wait => ⟨wait.1, wait.2.1⟩

/-- The events of each track alternate. -/
def Alternate : Contract TransportWebrtcWhep Input InternalOutput := fun history _ input =>
  match input with
  | .endpoint _ event => (liveOf history).InTurn event
  | _ => True

/-- The condition on a run: when a local track is added, the first waiting track that may be
    watched has not stopped. -/
def FreshWaits : Contract TransportWebrtcWhep Input InternalOutput := fun history t input =>
  ∀ now media kind source, input = .str0m now (.mediaAdded media) → t.addedKind media = some kind →
    t.firstWait kind = some source → (source, kind) ∈ liveOf history

/-! ### Reading outputs -/

@[simp] theorem attachedTo_nil (id : LocalTrackId) : attachedTo id [] = none := rfl

@[simp] theorem attachedTo_concat (id : LocalTrackId) (outs : List InternalOutput)
    (out : InternalOutput) : attachedTo id (outs ++ [out]) = hold id (attachedTo id outs) out := by
  rw [attachedTo, attachedTo, List.foldl_append]
  rfl

theorem inOrder_nil : InOrder [] := by
  intro before reqId id source config after heq
  simp at heq

theorem InOrder.concat {outs : List InternalOutput} (h : InOrder outs) {out : InternalOutput}
    (hout : ∀ reqId id source config,
      out = .request reqId (.localTrack id (.attach source config)) → attachedTo id outs = none) :
    InOrder (outs ++ [out]) := by
  intro before reqId id source config after heq
  rcases prefix_concat_cases heq with ⟨-, hnil⟩ | ⟨rest, hrest, hbefore⟩
  · cases hnil
  · cases rest with
    | nil =>
      obtain ⟨hlast, -⟩ := List.cons.inj hrest
      rw [List.append_nil] at hbefore
      subst hbefore
      exact hout reqId id source config hlast.symm
    | cons first rest =>
      obtain ⟨hfirst, -⟩ := List.cons.inj hrest
      subst hfirst
      exact h before reqId id source config rest hbefore

/-- The output starts a local track or asks for one. -/
def turnsLocal : InternalOutput → Bool
  | .transportOutput (.rpcReq _ (.localTrack ..)) => true
  | .transportOutput (.event (.localTrack _ (.started _))) => true
  | _ => false

theorem hold_of_not_turnsLocal {out : InternalOutput} (h : turnsLocal out = false)
    (id : LocalTrackId) (held : Option TrackSource) : hold id held out = held := by
  unfold hold
  split
  · cases h
  · cases h
  · rfl

/-! ### The transport and what it emitted -/

/-- The transport knows what its requests say, and watches live tracks of one peer. -/
structure Knows (outs : List InternalOutput) (live : LiveTracks) (t : TransportWebrtcWhep) :
    Prop where
  subscribed : ∀ kind, attachedTo (localOf kind) outs = t.subscription kind
  peer : t.subscribed.peer = none ↔ ∀ kind, t.stream kind = none
  live : ∀ kind source, t.subscription kind = some source → (source, kind) ∈ live
  added : ∀ kind, (t.mid kind).isSome = true ↔ startOf kind ∈ outs
  parked : ∀ kind, ∀ wait ∈ t.waits kind, wait.2.2.kind = kind
  unadded : ∀ kind, t.mid kind = none → t.stream kind = none
  inOrder : InOrder outs

theorem knows_new (room : RoomId) (peer : PeerId) (extraData : Option String) (remote : IpAddr) :
    Knows [] [] (.new room peer extraData remote) := by
  refine ⟨?_, ?_, ?_, ?_, ?_, ?_, inOrder_nil⟩
  · intro kind
    cases kind <;> rfl
  · exact ⟨fun _ kind => by cases kind <;> rfl, fun _ => rfl⟩
  · intro kind source heq
    cases heq
  · intro kind
    cases kind <;> simp [mid, new]
  · intro kind wait hmem
    cases kind <;> cases hmem
  · intro kind _
    cases kind <;> rfl

/-- Two transports with the same local tracks and the same streams. -/
structure SameTracks (t t' : TransportWebrtcWhep) : Prop where
  audioMid : t'.audioMid = t.audioMid
  videoMid : t'.videoMid = t.videoMid
  subscribed : t'.subscribed = t.subscribed

theorem SameTracks.mid {t t' : TransportWebrtcWhep} (h : SameTracks t t') (kind : MediaKind) :
    t'.mid kind = t.mid kind := by
  cases kind with
  | audio => exact h.audioMid
  | video => exact h.videoMid

theorem SameTracks.stream {t t' : TransportWebrtcWhep} (h : SameTracks t t') (kind : MediaKind) :
    t'.stream kind = t.stream kind := by
  cases kind with
  | audio => exact congrArg SubscribeStreams.audio h.subscribed
  | video => exact congrArg SubscribeStreams.video h.subscribed

theorem SameTracks.subscription {t t' : TransportWebrtcWhep} (h : SameTracks t t')
    (kind : MediaKind) : t'.subscription kind = t.subscription kind := by
  rw [TransportWebrtcWhep.subscription, h.stream, h.subscribed]
  rfl

theorem Knows.congr {outs : List InternalOutput} {live : LiveTracks} {t t' : TransportWebrtcWhep}
    (h : Knows outs live t) (hsame : SameTracks t t')
    (hparked : ∀ kind, ∀ wait ∈ t'.waits kind, wait.2.2.kind = kind) : Knows outs live t' := by
  refine ⟨fun kind => ?_, ?_, fun kind source heq => ?_, fun kind => ?_, hparked,
    fun kind hmid => ?_, h.inOrder⟩
  · rw [hsame.subscription]
    exact h.subscribed kind
  · rw [hsame.subscribed]
    simp only [hsame.stream]
    exact h.peer
  · exact h.live kind source (hsame.subscription kind ▸ heq)
  · rw [hsame.mid]
    exact h.added kind
  · rw [hsame.stream]
    exact h.unadded kind (hsame.mid kind ▸ hmid)

theorem Knows.silent {outs : List InternalOutput} {live : LiveTracks} {t : TransportWebrtcWhep}
    (h : Knows outs live t) {out : InternalOutput} (hout : turnsLocal out = false) :
    Knows (outs ++ [out]) live t := by
  refine ⟨fun kind => ?_, h.peer, h.live, fun kind => ?_, h.parked, h.unadded, ?_⟩
  · rw [attachedTo_concat, hold_of_not_turnsLocal hout]
    exact h.subscribed kind
  · rw [h.added, List.mem_append, List.mem_singleton]
    constructor
    · exact Or.inl
    · rintro (hmem | heq)
      · exact hmem
      · subst heq
        cases hout
  · refine h.inOrder.concat fun reqId id source config heq => ?_
    subst heq
    cases hout

theorem Knows.silents {outs more : List InternalOutput} {live : LiveTracks}
    {t : TransportWebrtcWhep} (h : Knows outs live t) (hmore : ∀ out ∈ more, turnsLocal out = false) :
    Knows (outs ++ more) live t := by
  induction more generalizing outs with
  | nil =>
    rw [List.append_nil]
    exact h
  | cons out more ih =>
    have hone := h.silent (hmore out (List.mem_cons_self ..))
    have hrest := ih hone fun out' hmem => hmore out' (List.mem_cons_of_mem _ hmem)
    rwa [List.append_assoc] at hrest

/-- What more is live does no harm. -/
theorem Knows.mono {outs : List InternalOutput} {live live' : LiveTracks}
    {t : TransportWebrtcWhep} (h : Knows outs live t)
    (hlive : ∀ kind source, t.subscription kind = some source → (source, kind) ∈ live →
      (source, kind) ∈ live') : Knows outs live' t :=
  ⟨h.subscribed, h.peer, fun kind source heq => hlive kind source heq (h.live kind source heq),
    h.added, h.parked, h.unadded, h.inOrder⟩

theorem Knows.onePeer {outs : List InternalOutput} {live : LiveTracks} {t : TransportWebrtcWhep}
    (h : Knows outs live t) (kind kind' : MediaKind) {source source' : TrackSource}
    (hsource : attachedTo (localOf kind) outs = some source)
    (hsource' : attachedTo (localOf kind') outs = some source') : source.peer = source'.peer := by
  rw [h.subscribed, subscription] at hsource hsource'
  cases hpeer : t.subscribed.peer with
  | none =>
    rw [hpeer] at hsource
    cases hsource
  | some peer =>
    rw [hpeer, Option.bind_some, Option.map_eq_some_iff] at hsource hsource'
    obtain ⟨track, -, rfl⟩ := hsource
    obtain ⟨track', -, rfl⟩ := hsource'
    rfl

/-! ### Subscribing -/

/-- The streams with one more of a peer. -/
def withStream (streams : SubscribeStreams) (kind : MediaKind) (peer : PeerId) (track : TrackName) :
    SubscribeStreams :=
  match kind with
  | .audio => { streams with peer := some peer, audio := some track }
  | .video => { streams with peer := some peer, video := some track }

theorem trySubscribe_taken {t : TransportWebrtcWhep} {peer : PeerId} {trackMeta : TrackMeta}
    (hallows : t.allows peer = true) (hfree : t.stream trackMeta.kind = none)
    (track : TrackName) :
    t.trySubscribe peer track trackMeta =
      { t with subscribed := withStream t.subscribed trackMeta.kind peer track }.push
        [attachReq (localOf trackMeta.kind) ⟨peer, track⟩] := by
  rw [trySubscribe, if_pos (of_decide_eq_true hallows)]
  cases hkind : trackMeta.kind with
  | audio =>
    rw [hkind] at hfree
    rw [if_pos ⟨hfree, rfl⟩]
    rfl
  | video =>
    rw [hkind] at hfree
    rw [if_neg (by simp [MediaKind.isAudio]), if_pos ⟨hfree, rfl⟩]
    rfl

theorem trySubscribe_left {t : TransportWebrtcWhep} {peer : PeerId} {trackMeta : TrackMeta}
    (h : t.allows peer = true → t.stream trackMeta.kind ≠ none) (track : TrackName) :
    t.trySubscribe peer track trackMeta = t := by
  unfold trySubscribe
  split
  · rename_i hallows
    have hbusy := h (decide_eq_true hallows)
    cases hkind : trackMeta.kind with
    | audio =>
      rw [hkind] at hbusy
      rw [if_neg (fun hfree => hbusy hfree.1), if_neg (by simp [MediaKind.isVideo])]
    | video =>
      rw [hkind] at hbusy
      rw [if_neg (by simp [MediaKind.isAudio]), if_neg (fun hfree => hbusy hfree.1)]
  · rfl

theorem allows_iff {t : TransportWebrtcWhep} {peer : PeerId} :
    t.allows peer = true ↔ t.subscribed.peer = none ∨ t.subscribed.peer = some peer :=
  decide_eq_true_iff

/-- The request for a new stream, when the stream may be taken. -/
theorem Knows.take {outs : List InternalOutput} {live : LiveTracks} {t : TransportWebrtcWhep}
    (h : Knows outs live t) {kind : MediaKind} {peer : PeerId} {track : TrackName}
    (hallows : t.allows peer = true) (hfree : t.stream kind = none)
    (hmid : (t.mid kind).isSome = true) (hlive : (⟨peer, track⟩, kind) ∈ live) :
    Knows (outs ++ [attachReq (localOf kind) ⟨peer, track⟩]) live
      ({ t with subscribed := withStream t.subscribed kind peer track }.push
        [attachReq (localOf kind) ⟨peer, track⟩]) := by
  have hdetached : attachedTo (localOf kind) outs = none := by
    rw [h.subscribed, subscription, hfree]
    cases t.subscribed.peer <;> rfl
  have hstreams : ∀ kind', ({ t with subscribed := withStream t.subscribed kind peer track }.push
      [attachReq (localOf kind) ⟨peer, track⟩]).subscription kind' =
        if kind' = kind then some ⟨peer, track⟩ else t.subscription kind' := by
    intro kind'
    split
    · rename_i heq
      subst heq
      cases kind' <;> rfl
    · rename_i hne
      have hkept : ({ t with subscribed := withStream t.subscribed kind peer track }.push
          [attachReq (localOf kind) ⟨peer, track⟩]).subscription kind' =
            (t.stream kind').map fun track => ⟨peer, track⟩ := by
        cases kind with
        | audio =>
          cases kind' with
          | audio => exact absurd rfl hne
          | video => rfl
        | video =>
          cases kind' with
          | audio => rfl
          | video => exact absurd rfl hne
      rw [hkept]
      cases hstream : t.stream kind' with
      | none =>
        rw [subscription, hstream]
        cases t.subscribed.peer <;> rfl
      | some track' =>
        have hpeer : t.subscribed.peer ≠ none := by
          intro hnone
          have hempty := h.peer.mp hnone kind'
          rw [hempty] at hstream
          cases hstream
        rcases allows_iff.mp hallows with hnone | hsame
        · exact absurd hnone hpeer
        · rw [subscription, hsame, hstream]
          rfl
  refine ⟨fun kind' => ?_, ?_, fun kind' source heq => ?_, fun kind' => ?_, h.parked,
    fun kind' hnone => ?_, ?_⟩
  · rw [hstreams, attachedTo_concat, h.subscribed]
    cases kind <;> cases kind' <;> rfl
  · constructor
    · intro hnone
      cases kind <;> cases hnone
    · intro hempty
      have hkind := hempty kind
      cases kind <;> cases hkind
  · rw [hstreams] at heq
    split at heq
    · rename_i hkind
      subst hkind
      cases heq
      exact hlive
    · exact h.live kind' source heq
  · have hmids : ({ t with subscribed := withStream t.subscribed kind peer track }.push
        [attachReq (localOf kind) ⟨peer, track⟩]).mid kind' = t.mid kind' := by
      cases kind' <;> rfl
    rw [hmids, h.added, List.mem_append, List.mem_singleton]
    constructor
    · exact Or.inl
    · rintro (hmem | heq)
      · exact hmem
      · cases heq
  · have hmids : t.mid kind' = none := by
      cases kind' <;> exact hnone
    have hne : kind' ≠ kind := by
      rintro rfl
      rw [hmids] at hmid
      cases hmid
    have hempty := h.unadded kind' hmids
    cases kind with
    | audio =>
      cases kind' with
      | audio => exact absurd rfl hne
      | video => exact hempty
    | video =>
      cases kind' with
      | audio => exact hempty
      | video => exact absurd rfl hne
  · refine h.inOrder.concat fun reqId id source config heq => ?_
    cases heq
    exact hdetached

/-- A track is tried: the transport still knows what it asked for. -/
theorem Knows.trySubscribe {outs : List InternalOutput} {live : LiveTracks}
    {t : TransportWebrtcWhep} (h : Knows outs live t) {peer : PeerId} {track : TrackName}
    {trackMeta : TrackMeta} (hmid : (t.mid trackMeta.kind).isSome = true)
    (hlive : t.allows peer = true → t.stream trackMeta.kind = none →
      (⟨peer, track⟩, trackMeta.kind) ∈ live) :
    ∃ more, (t.trySubscribe peer track trackMeta).queue = t.queue ++ more ∧
      Knows (outs ++ more) live (t.trySubscribe peer track trackMeta) := by
  by_cases htaken : t.allows peer = true ∧ t.stream trackMeta.kind = none
  · rw [trySubscribe_taken htaken.1 htaken.2]
    exact ⟨_, rfl, h.take htaken.1 htaken.2 hmid (hlive htaken.1 htaken.2)⟩
  · rw [trySubscribe_left fun hallows hfree => htaken ⟨hallows, hfree⟩]
    refine ⟨[], (List.append_nil _).symm, ?_⟩
    rw [List.append_nil]
    exact h

/-- Of the waiting tracks of one kind only the first that may be watched is tried. -/
theorem subscribeWaits_eq {t : TransportWebrtcWhep} {kind : MediaKind}
    {waits : List (PeerId × TrackName × TrackMeta)} (hkind : ∀ wait ∈ waits, wait.2.2.kind = kind)
    (hfree : t.stream kind = none) :
    t.subscribeWaits waits = match waits.find? fun wait => t.allows wait.1 with
      | none => t
      | some wait => t.trySubscribe wait.1 wait.2.1 wait.2.2 := by
  -- once the stream is taken, nothing else is tried
  have hbusy : ∀ (u : TransportWebrtcWhep) (rest : List (PeerId × TrackName × TrackMeta)),
      (∀ wait ∈ rest, wait.2.2.kind = kind) → u.stream kind ≠ none → u.subscribeWaits rest = u := by
    intro u rest
    induction rest with
    | nil => exact fun _ _ => rfl
    | cons wait rest ih =>
      intro hrest htaken
      have hleft : u.trySubscribe wait.1 wait.2.1 wait.2.2 = u := by
        apply trySubscribe_left
        intro _
        rw [hrest wait (List.mem_cons_self ..)]
        exact htaken
      change (u.trySubscribe wait.1 wait.2.1 wait.2.2).subscribeWaits rest = u
      rw [hleft]
      exact ih (fun wait' hmem => hrest wait' (List.mem_cons_of_mem _ hmem)) htaken
  induction waits with
  | nil => rfl
  | cons wait waits ih =>
    have hrest : ∀ wait' ∈ waits, wait'.2.2.kind = kind := fun wait' hmem =>
      hkind wait' (List.mem_cons_of_mem _ hmem)
    have hfirst := hkind wait (List.mem_cons_self ..)
    change (t.trySubscribe wait.1 wait.2.1 wait.2.2).subscribeWaits waits = _
    cases hallows : t.allows wait.1 with
    | true =>
      simp only [List.find?_cons, hallows]
      apply hbusy _ _ hrest
      rw [trySubscribe_taken hallows (hfirst ▸ hfree), hfirst]
      cases kind <;> exact Option.some_ne_none _
    | false =>
      simp only [List.find?_cons, hallows]
      rw [trySubscribe_left]
      · exact ih hrest
      · intro htrue
        rw [hallows] at htrue
        cases htrue

/-! ### Unsubscribing -/

/-- The streams without one of them. -/
def withoutStream (streams : SubscribeStreams) : MediaKind → SubscribeStreams
  | .audio => { streams with audio := none }
  | .video => { streams with video := none }

/-- A stop detaches the local track of one kind, if it is attached to the track. -/
def unsubscribe (t : TransportWebrtcWhep) (track : TrackName) (kind : MediaKind) :
    TransportWebrtcWhep :=
  match kind with
  | .audio => t.unsubscribeAudio track
  | .video => t.unsubscribeVideo track

theorem unsubscribe_eq (t : TransportWebrtcWhep) (track : TrackName) (kind : MediaKind) :
    t.unsubscribe track kind = if t.stream kind = some track then
      { t with subscribed := withoutStream t.subscribed kind }.push [detachReq (localOf kind)]
    else t := by
  cases kind <;> rfl

/-- The transport knows what its requests say, up to a peer it may have nothing left of. -/
structure Leaves (outs : List InternalOutput) (live : LiveTracks) (peer : PeerId)
    (t : TransportWebrtcWhep) : Prop where
  subscribed : ∀ kind, attachedTo (localOf kind) outs = t.subscription kind
  peer : t.subscribed.peer = some peer
  live : ∀ kind source, t.subscription kind = some source → (source, kind) ∈ live
  added : ∀ kind, (t.mid kind).isSome = true ↔ startOf kind ∈ outs
  parked : ∀ kind, ∀ wait ∈ t.waits kind, wait.2.2.kind = kind
  unadded : ∀ kind, t.mid kind = none → t.stream kind = none
  inOrder : InOrder outs

theorem Leaves.unsubscribe {outs : List InternalOutput} {live : LiveTracks} {peer : PeerId}
    {t : TransportWebrtcWhep} (h : Leaves outs live peer t) (track : TrackName)
    (kind : MediaKind) :
    ∃ more, (t.unsubscribe track kind).queue = t.queue ++ more ∧
      Leaves (outs ++ more) live peer (t.unsubscribe track kind) ∧
      (t.unsubscribe track kind).stream kind ≠ some track ∧
      ∀ kind', (t.unsubscribe track kind).stream kind' = some track →
        t.stream kind' = some track := by
  rw [unsubscribe_eq]
  split
  · have hstreams : ∀ kind', ({ t with subscribed := withoutStream t.subscribed kind }.push
        [detachReq (localOf kind)]).stream kind' = if kind' = kind then none else t.stream kind' := by
      intro kind'
      cases kind <;> cases kind' <;> rfl
    have hsources : ∀ kind', ({ t with subscribed := withoutStream t.subscribed kind }.push
        [detachReq (localOf kind)]).subscription kind' =
          if kind' = kind then none else t.subscription kind' := by
      intro kind'
      have hpeer : (withoutStream t.subscribed kind).peer = t.subscribed.peer := by
        cases kind <;> rfl
      rw [subscription, hstreams]
      change (withoutStream t.subscribed kind).peer.bind _ = _
      rw [hpeer]
      split
      · rw [h.peer]
        rfl
      · rfl
    have hmids : ∀ kind', ({ t with subscribed := withoutStream t.subscribed kind }.push
        [detachReq (localOf kind)]).mid kind' = t.mid kind' := by
      intro kind'
      cases kind' <;> rfl
    refine ⟨_, rfl, ⟨fun kind' => ?_, ?_, fun kind' source heq => ?_, fun kind' => ?_, h.parked,
      fun kind' hnone => ?_, ?_⟩, ?_, fun kind' heq => ?_⟩
    · rw [hsources, attachedTo_concat, h.subscribed]
      cases kind <;> cases kind' <;> rfl
    · cases kind <;> exact h.peer
    · rw [hsources] at heq
      split at heq
      · cases heq
      · exact h.live kind' source heq
    · rw [hmids, h.added, List.mem_append, List.mem_singleton]
      constructor
      · exact Or.inl
      · rintro (hmem | heq)
        · exact hmem
        · cases heq
    · rw [hstreams]
      split
      · rfl
      · exact h.unadded kind' (hmids kind' ▸ hnone)
    · refine h.inOrder.concat fun reqId id source config heq => ?_
      cases heq
    · rw [hstreams, if_pos rfl]
      intro heq
      cases heq
    · rw [hstreams] at heq
      split at heq
      · cases heq
      · exact heq
  · rename_i hne
    refine ⟨[], (List.append_nil _).symm, ?_, hne, fun _ heq => heq⟩
    rw [List.append_nil]
    exact h

/-- **A stop** takes the track from the local tracks, and the peer with the last of them. -/
theorem Knows.tryUnsubscribe {outs : List InternalOutput} {live : LiveTracks}
    {t : TransportWebrtcWhep} (h : Knows outs live t) (peer : PeerId) (track : TrackName)
    (trackMeta : TrackMeta) :
    ∃ more, (t.tryUnsubscribe peer track).queue = t.queue ++ more ∧
      Knows (outs ++ more) (live.onEvent (.peerTrackStopped peer track trackMeta))
        (t.tryUnsubscribe peer track) := by
  unfold TransportWebrtcWhep.tryUnsubscribe
  split
  · rename_i hpeer
    have hleaves : Leaves outs live peer t :=
      ⟨h.subscribed, hpeer, h.live, h.added, h.parked, h.unadded, h.inOrder⟩
    obtain ⟨first, hqueue, hfirst, hnoAudio, -⟩ := hleaves.unsubscribe track .audio
    obtain ⟨second, hqueue', hsecond, hnoVideo, hkept⟩ := hfirst.unsubscribe track .video
    have hgone : ∀ kind, ((t.unsubscribe track .audio).unsubscribe track .video).stream kind ≠
        some track := by
      intro kind
      cases kind with
      | audio => exact fun heq => hnoAudio (hkept _ heq)
      | video => exact hnoVideo
    have hlive : ∀ kind source,
        ((t.unsubscribe track .audio).unsubscribe track .video).subscription kind = some source →
        (source, kind) ∈ live.onEvent (.peerTrackStopped peer track trackMeta) := by
      intro kind source heq
      refine LiveTracks.mem_onEvent_stopped.mpr ⟨hsecond.live kind source heq, ?_⟩
      rintro rfl
      rw [subscription, hsecond.peer, Option.bind_some, Option.map_eq_some_iff] at heq
      obtain ⟨track', hstream, hsource⟩ := heq
      cases hsource
      exact hgone kind hstream
    refine ⟨first ++ second, ?_, ?_⟩
    · change ((t.unsubscribe track .audio).unsubscribe track .video).releasePeer.queue = _
      unfold releasePeer
      split
      · rw [← List.append_assoc, ← hqueue]
        exact hqueue'
      · rw [← List.append_assoc, ← hqueue]
        exact hqueue'
    · rw [← List.append_assoc]
      change Knows _ _ ((t.unsubscribe track .audio).unsubscribe track .video).releasePeer
      unfold releasePeer
      split
      · rename_i hempty
        have hnone : ∀ kind,
            ((t.unsubscribe track .audio).unsubscribe track .video).stream kind = none := by
          intro kind
          cases kind with
          | audio => exact hempty.1
          | video => exact hempty.2
        refine ⟨fun kind => ?_, ⟨fun _ => hnone, fun _ => rfl⟩, ?_, hsecond.added, hsecond.parked,
          hsecond.unadded, hsecond.inOrder⟩
        · rw [hsecond.subscribed, subscription, hnone, hsecond.peer]
          rfl
        · intro kind source heq
          cases heq
      · rename_i hsome
        refine ⟨hsecond.subscribed, ⟨fun hnone => ?_, fun hempty => ?_⟩, hlive, hsecond.added,
          hsecond.parked, hsecond.unadded, hsecond.inOrder⟩
        · rw [hsecond.peer] at hnone
          cases hnone
        · exact absurd ⟨hempty .audio, hempty .video⟩ hsome
  · rename_i hpeer
    refine ⟨[], (List.append_nil _).symm, ?_⟩
    rw [List.append_nil]
    refine h.mono fun kind source heq hmem => LiveTracks.mem_onEvent_stopped.mpr ⟨hmem, ?_⟩
    rintro rfl
    rw [subscription, Option.bind_eq_some_iff] at heq
    obtain ⟨peer', hsome, hmap⟩ := heq
    rw [Option.map_eq_some_iff] at hmap
    obtain ⟨track', -, hsource⟩ := hmap
    cases hsource
    exact hpeer hsome

/-! ### Steps -/

theorem onPeerTrackStarted_tried {t : TransportWebrtcWhep} {trackMeta : TrackMeta}
    (hmid : (t.mid trackMeta.kind).isSome = true) (peer : PeerId) (track : TrackName) :
    t.onPeerTrackStarted peer track trackMeta = t.trySubscribe peer track trackMeta := by
  unfold onPeerTrackStarted
  cases hkind : trackMeta.kind with
  | audio =>
    rw [hkind] at hmid
    rw [if_neg (fun hboth => by simp [mid, hboth.1] at hmid), if_neg (by simp [MediaKind.isVideo])]
  | video =>
    rw [hkind] at hmid
    rw [if_neg (by simp [MediaKind.isAudio]), if_neg (fun hboth => by simp [mid, hboth.1] at hmid)]

/-- One more track waits. -/
def park (t : TransportWebrtcWhep) (kind : MediaKind) (wait : PeerId × TrackName × TrackMeta) :
    TransportWebrtcWhep :=
  match kind with
  | .audio => { t with audioSubscribeWaits := t.audioSubscribeWaits ++ [wait] }
  | .video => { t with videoSubscribeWaits := t.videoSubscribeWaits ++ [wait] }

theorem onPeerTrackStarted_parked {t : TransportWebrtcWhep} {trackMeta : TrackMeta}
    (hmid : t.mid trackMeta.kind = none) (peer : PeerId) (track : TrackName) :
    t.onPeerTrackStarted peer track trackMeta =
      t.park trackMeta.kind (peer, track, trackMeta) := by
  unfold onPeerTrackStarted
  cases hkind : trackMeta.kind with
  | audio =>
    rw [hkind] at hmid
    rw [if_pos ⟨hmid, rfl⟩]
    rfl
  | video =>
    rw [hkind] at hmid
    rw [if_neg (by simp [MediaKind.isAudio]), if_pos ⟨hmid, rfl⟩]
    rfl

theorem Knows.park {outs : List InternalOutput} {live : LiveTracks} {t : TransportWebrtcWhep}
    (h : Knows outs live t) (peer : PeerId) (track : TrackName) (trackMeta : TrackMeta) :
    Knows outs live (t.park trackMeta.kind (peer, track, trackMeta)) := by
  have hparked : ∀ waiting : List (PeerId × TrackName × TrackMeta),
      (∀ wait ∈ waiting, wait.2.2.kind = trackMeta.kind) →
      ∀ wait ∈ waiting ++ [(peer, track, trackMeta)], wait.2.2.kind = trackMeta.kind := by
    intro waiting hwaiting wait hmem
    rcases List.mem_append.mp hmem with hold | hlast
    · exact hwaiting wait hold
    · rw [List.mem_singleton.mp hlast]
  cases hkind : trackMeta.kind with
  | audio =>
    rw [hkind] at hparked
    refine h.congr ⟨rfl, rfl, rfl⟩ fun kind => ?_
    cases kind with
    | audio => exact hparked _ (h.parked .audio)
    | video => exact h.parked .video
  | video =>
    rw [hkind] at hparked
    refine h.congr ⟨rfl, rfl, rfl⟩ fun kind => ?_
    cases kind with
    | audio => exact h.parked .audio
    | video => exact hparked _ (h.parked .video)

/-- **A start**: the track waits, or is tried, and is taken if nothing is watched. -/
theorem Knows.onPeerTrackStarted {outs : List InternalOutput} {live : LiveTracks}
    {t : TransportWebrtcWhep} (h : Knows outs live t) (peer : PeerId) (track : TrackName)
    (trackMeta : TrackMeta) :
    ∃ more, (t.onPeerTrackStarted peer track trackMeta).queue = t.queue ++ more ∧
      Knows (outs ++ more) (live.onEvent (.peerTrackStarted peer track trackMeta))
        (t.onPeerTrackStarted peer track trackMeta) ∧
      ((t.mid trackMeta.kind).isSome = true → (∀ kind, t.stream kind = none) →
        (t.onPeerTrackStarted peer track trackMeta).subscription trackMeta.kind =
          some ⟨peer, track⟩) := by
  have hmore : Knows outs (live.onEvent (.peerTrackStarted peer track trackMeta)) t :=
    h.mono fun kind source _ hmem => LiveTracks.mem_onEvent_started.mpr (Or.inl hmem)
  have hnew : (⟨peer, track⟩, trackMeta.kind) ∈
      live.onEvent (.peerTrackStarted peer track trackMeta) :=
    LiveTracks.mem_onEvent_started.mpr (Or.inr rfl)
  cases hmid : t.mid trackMeta.kind with
  | some place =>
    have hsome : (t.mid trackMeta.kind).isSome = true := by rw [hmid, Option.isSome_some]
    rw [onPeerTrackStarted_tried hsome]
    obtain ⟨more, hqueue, hknows⟩ := hmore.trySubscribe hsome fun _ _ => hnew
    refine ⟨more, hqueue, hknows, fun _ hempty => ?_⟩
    have hallows : t.allows peer = true := allows_iff.mpr (Or.inl (h.peer.mpr hempty))
    rw [trySubscribe_taken hallows (hempty _)]
    cases trackMeta.kind <;> rfl
  | none =>
    rw [onPeerTrackStarted_parked hmid]
    refine ⟨[], ?_, ?_, fun hsome => by cases hsome⟩
    · rw [List.append_nil]
      cases trackMeta.kind <;> rfl
    · rw [List.append_nil]
      exact hmore.park peer track trackMeta

/-- The transport with one more local track, before the waiting tracks are tried. -/
def addLocal (t : TransportWebrtcWhep) (kind : MediaKind) (mid : Mid) : TransportWebrtcWhep :=
  match kind with
  | .audio => { t with audioMid := some mid, audioSubscribeWaits := [] }.push [startOf .audio]
  | .video => { t with videoMid := some mid, videoSubscribeWaits := [] }.push [startOf .video]

theorem onStr0mMediaAdded_eq (t : TransportWebrtcWhep) (media : MediaAdded) :
    t.onStr0mMediaAdded media = match t.addedKind media with
      | none => t
      | some kind => (t.addLocal kind media.mid).subscribeWaits (t.waits kind) := by
  obtain ⟨mid, kind, direction, simulcast⟩ := media
  cases direction with
  | recvOnly | inactive => rfl
  | sendOnly | sendRecv =>
    cases kind with
    | audio =>
      simp only [onStr0mMediaAdded, addedKind, TransportWebrtcWhep.mid]
      by_cases hmid : t.audioMid.isSome = true
      · simp only [hmid, if_true]
      · simp only [hmid, Bool.false_eq_true, if_false]
        rfl
    | video =>
      simp only [onStr0mMediaAdded, addedKind, TransportWebrtcWhep.mid]
      by_cases hmid : t.videoMid.isSome = true
      · simp only [hmid, if_true]
      · simp only [hmid, Bool.false_eq_true, if_false]
        rfl

theorem mid_of_addedKind {t : TransportWebrtcWhep} {media : MediaAdded} {kind : MediaKind}
    (h : t.addedKind media = some kind) : t.mid kind = none := by
  unfold addedKind at h
  split at h
  · cases h
  · cases h
  all_goals
    split at h
    · cases h
    · rename_i hnone
      cases h
      rwa [Bool.not_eq_true, Option.isSome_eq_false_iff, Option.isNone_iff_eq_none] at hnone

theorem Knows.addLocal {outs : List InternalOutput} {live : LiveTracks} {t : TransportWebrtcWhep}
    (h : Knows outs live t) (kind : MediaKind) (mid : Mid) :
    Knows (outs ++ [startOf kind]) live (t.addLocal kind mid) := by
  have hsources : ∀ kind', (t.addLocal kind mid).subscription kind' = t.subscription kind' := by
    intro kind'
    cases kind <;> cases kind' <;> rfl
  have hstreams : ∀ kind', (t.addLocal kind mid).stream kind' = t.stream kind' := by
    intro kind'
    cases kind <;> cases kind' <;> rfl
  have hmids : ∀ kind', (t.addLocal kind mid).mid kind' =
      if kind' = kind then some mid else t.mid kind' := by
    intro kind'
    cases kind <;> cases kind' <;> rfl
  refine ⟨fun kind' => ?_, ?_, fun kind' source heq => ?_, fun kind' => ?_, fun kind' wait hmem => ?_,
    fun kind' hnone => ?_, ?_⟩
  · rw [hsources, attachedTo_concat]
    exact h.subscribed kind'
  · simp only [hstreams]
    have hpeer : (t.addLocal kind mid).subscribed = t.subscribed := by
      cases kind <;> rfl
    rw [hpeer]
    exact h.peer
  · exact h.live kind' source (hsources kind' ▸ heq)
  · rw [hmids, List.mem_append, List.mem_singleton, ← h.added]
    split
    · rename_i heq
      subst heq
      simp
    · rename_i hne
      constructor
      · exact Or.inl
      · rintro (hmem | heq)
        · exact hmem
        · cases kind <;> cases kind' <;> first | exact absurd rfl hne | cases heq
  · cases kind with
    | audio =>
      cases kind' with
      | audio => cases hmem
      | video => exact h.parked .video wait hmem
    | video =>
      cases kind' with
      | audio => exact h.parked .audio wait hmem
      | video => cases hmem
  · rw [hmids] at hnone
    split at hnone
    · cases hnone
    · rw [hstreams]
      exact h.unadded kind' hnone
  · exact h.inOrder.concat fun reqId id source config heq => by cases kind <;> cases heq

/-- **A new local track** takes the first waiting track that may be watched. -/
theorem Knows.onStr0mMediaAdded {outs : List InternalOutput} {live : LiveTracks}
    {t : TransportWebrtcWhep} (h : Knows outs live t) {media : MediaAdded} {kind : MediaKind}
    (hadded : t.addedKind media = some kind) :
    (∀ source, t.firstWait kind = some source →
        (t.onStr0mMediaAdded media).queue =
            t.queue ++ [startOf kind, attachReq (localOf kind) source] ∧
        ((source, kind) ∈ live →
          Knows (outs ++ [startOf kind, attachReq (localOf kind) source]) live
            (t.onStr0mMediaAdded media))) ∧
      (t.firstWait kind = none →
        (t.onStr0mMediaAdded media).queue = t.queue ++ [startOf kind] ∧
        Knows (outs ++ [startOf kind]) live (t.onStr0mMediaAdded media)) := by
  have hfree := h.unadded kind (mid_of_addedKind hadded)
  have hnew := h.addLocal kind media.mid
  have hstream : (t.addLocal kind media.mid).stream kind = none := by
    rw [← hfree]
    cases kind <;> rfl
  have hmid : ((t.addLocal kind media.mid).mid kind).isSome = true := by
    cases kind <;> rfl
  have hallows : ∀ peer, (t.addLocal kind media.mid).allows peer = t.allows peer := by
    intro peer
    cases kind <;> rfl
  have hqueue : (t.addLocal kind media.mid).queue = t.queue ++ [startOf kind] := by
    cases kind <;> rfl
  have heq : t.onStr0mMediaAdded media = match (t.waits kind).find? fun wait => t.allows wait.1 with
      | none => t.addLocal kind media.mid
      | some wait => (t.addLocal kind media.mid).trySubscribe wait.1 wait.2.1 wait.2.2 := by
    rw [onStr0mMediaAdded_eq, hadded]
    simp only [subscribeWaits_eq (h.parked kind) hstream, hallows]
  rw [heq, firstWait]
  cases hfind : (t.waits kind).find? fun wait => t.allows wait.1 with
  | none =>
    refine ⟨fun source hsome => ?_, fun _ => ⟨hqueue, hnew⟩⟩
    cases hsome
  | some wait =>
    refine ⟨fun source hsome => ?_, fun hnone => by cases hnone⟩
    cases hsome
    have hkind : wait.2.2.kind = kind := h.parked kind wait (List.mem_of_find?_eq_some hfind)
    have hpeer : (t.addLocal kind media.mid).allows wait.1 = true := by
      rw [hallows]
      have hfound := List.find?_some hfind
      exact hfound
    dsimp only
    rw [trySubscribe_taken hpeer (hkind ▸ hstream), hkind]
    refine ⟨?_, fun hlive => ?_⟩
    · change (t.addLocal kind media.mid).queue ++ _ = _
      rw [hqueue, List.append_assoc]
      rfl
    · have htaken := hnew.take hpeer hstream hmid hlive
      rw [List.append_assoc] at htaken
      exact htaken

/-- Inputs that concern no track of another peer and no media. -/
def unrelated : Input → Bool
  | .str0m _ (.mediaAdded _) => false
  | .endpoint _ (.peerTrackStarted ..) => false
  | .endpoint _ (.peerTrackStopped ..) => false
  | _ => true

theorem silent_stateOutputs (states : List TransportState) :
    ∀ out ∈ stateOutputs states, turnsLocal out = false := by
  intro out hmem
  obtain ⟨state, -, rfl⟩ := List.mem_map.mp hmem
  rfl

theorem silent_resetOutputs (reset : Option UInt64) :
    ∀ out ∈ BweState.resetOutputs reset, turnsLocal out = false := by
  intro out hmem
  cases reset with
  | none => cases hmem
  | some bitrate =>
    obtain rfl := List.mem_singleton.mp hmem
    rfl

/-- A step that queues silent outputs and leaves the local tracks alone. -/
structure Bystands (t t' : TransportWebrtcWhep) : Prop where
  queue : ∃ more, t'.queue = t.queue ++ more ∧ ∀ out ∈ more, turnsLocal out = false
  same : SameTracks t t'
  waits : ∀ kind, t'.waits kind = t.waits kind

theorem Bystands.refl (t : TransportWebrtcWhep) : Bystands t t :=
  ⟨⟨[], (List.append_nil _).symm, by simp⟩, ⟨rfl, rfl, rfl⟩, fun _ => rfl⟩

theorem bystands_push (t : TransportWebrtcWhep) {more : List InternalOutput}
    (hmore : ∀ out ∈ more, turnsLocal out = false) : Bystands t (t.push more) :=
  ⟨⟨more, rfl, hmore⟩, ⟨rfl, rfl, rfl⟩, fun kind => by cases kind <;> rfl⟩

theorem bystands_push_one (t : TransportWebrtcWhep) {out : InternalOutput} (hout : turnsLocal out = false) :
    Bystands t (t.push [out]) :=
  t.bystands_push fun out' hmem => by rwa [List.mem_singleton.mp hmem]

theorem Bystands.trans {t t' t'' : TransportWebrtcWhep} (h : Bystands t t')
    (h' : Bystands t' t'') : Bystands t t'' := by
  obtain ⟨more, hqueue, hmore⟩ := h.queue
  obtain ⟨more', hqueue', hmore'⟩ := h'.queue
  refine ⟨⟨more ++ more', ?_, fun out hmem => ?_⟩, ⟨h'.same.audioMid.trans h.same.audioMid,
    h'.same.videoMid.trans h.same.videoMid, h'.same.subscribed.trans h.same.subscribed⟩,
    fun kind => (h'.waits kind).trans (h.waits kind)⟩
  · rw [hqueue', hqueue, List.append_assoc]
  · rcases List.mem_append.mp hmem with hold | hnew
    · exact hmore out hold
    · exact hmore' out hnew

theorem bystands_moveTo (t : TransportWebrtcWhep) (next : State × List TransportState) :
    Bystands t (t.moveTo next) :=
  ⟨⟨_, rfl, silent_stateOutputs next.2⟩, ⟨rfl, rfl, rfl⟩, fun kind => by cases kind <;> rfl⟩

theorem step_bystands {t t' : TransportWebrtcWhep} {input : Input}
    (hunrelated : unrelated input = true) (h : t.step input = .ok t') : Bystands t t' := by
  cases input with
  | tick now =>
    cases h
    have hreset : Bystands t ({ t with bweState := (t.bweState.onTick now).1 }.push
        (BweState.resetOutputs (t.bweState.onTick now).2)) :=
      ⟨⟨_, rfl, silent_resetOutputs _⟩, ⟨rfl, rfl, rfl⟩, fun kind => by cases kind <;> rfl⟩
    exact hreset.trans (bystands_moveTo _ _)
  | response =>
    cases h
    exact Bystands.refl t
  | shutdown =>
    cases h
    unfold onShutdown
    split
    · exact Bystands.refl t
    · exact t.bystands_moveTo _
  | endpoint now event =>
    cases event with
    | peerTrackStarted | peerTrackStopped => cases hunrelated
    | localMediaTrack track event =>
      cases event with
      | media pkt =>
        cases h
        change Bystands t (t.onLocalMedia now pkt)
        unfold onLocalMedia
        split
        · split
          · exact Bystands.refl t
          · exact t.bystands_push_one rfl
        · split
          · exact Bystands.refl t
          · refine ⟨⟨_, rfl, fun out hmem => ?_⟩, ⟨rfl, rfl, rfl⟩, fun kind => by cases kind <;> rfl⟩
            rw [List.mem_singleton.mp hmem]
            rfl
      | status | voiceActivity =>
        cases h
        exact Bystands.refl t
    | bweConfig current desired =>
      cases h
      exact t.bystands_push_one rfl
    | peerJoined | peerLeaved | audioMixer | remoteMediaTrack | channelMessage =>
      cases h
      exact Bystands.refl t
  | str0m now event =>
    cases event with
    | mediaAdded media => cases hunrelated
    | connected =>
      cases h
      refine (t.bystands_moveTo _).trans (bystands_push_one _ ?_)
      rfl
    | iceConnectionStateChange ice =>
      cases h
      exact t.bystands_moveTo _
    | keyframeRequest mid =>
      simp only [step, onStr0mEvent] at h
      split at h
      · cases h
        exact t.bystands_push_one rfl
      · cases h
        exact Bystands.refl t
    | egressBitrateEstimate bitrate =>
      cases h
      exact t.bystands_push_one rfl
    | channelOpen | channelData | channelClose | rtpPacket | streamPaused | other =>
      cases h
      exact Bystands.refl t

theorem Knows.bystands {outs : List InternalOutput} {live : LiveTracks}
    {t t' : TransportWebrtcWhep} (h : Knows outs live t) (hstep : Bystands t t') :
    ∃ more, t'.queue = t.queue ++ more ∧ Knows (outs ++ more) live t' := by
  obtain ⟨more, hqueue, hmore⟩ := hstep.queue
  refine ⟨more, hqueue, (h.silents hmore).congr hstep.same fun kind => ?_⟩
  rw [hstep.waits]
  exact h.parked kind

/-! ### Runs -/

/-- The transport knows what it asked for, and the last track that started was taken if nothing
    else was. -/
structure Follows (history : History Input InternalOutput) (t : TransportWebrtcWhep) : Prop where
  knows : Knows (emitted history) (liveOf history) t
  picks : ∀ before now peer track trackMeta pushed,
    history = before ++ [(Input.endpoint now (.peerTrackStarted peer track trackMeta), pushed)] →
      startOf trackMeta.kind ∈ emitted before →
      (∀ kind, attachedTo (localOf kind) (emitted before) = none) →
      attachedTo (localOf trackMeta.kind) (emitted history) = some ⟨peer, track⟩

theorem Follows.watches {history : History Input InternalOutput} {t : TransportWebrtcWhep}
    (h : Follows history t) : Watches history := by
  refine ⟨fun kind source hsource => ?_, fun audio video haudio hvideo => ?_, h.knows.inOrder,
    h.picks⟩
  · rw [h.knows.subscribed] at hsource
    exact h.knows.live kind source hsource
  · exact h.knows.onePeer .audio .video haudio hvideo

theorem liveOf_concat (history : History Input InternalOutput) (input : Input)
    (pushed : List InternalOutput) :
    liveOf (history ++ [(input, pushed)]) = match input with
      | .endpoint _ event => (liveOf history).onEvent event
      | _ => liveOf history := by
  rw [liveOf, List.foldl_append]
  rfl

theorem liveOf_concat_unrelated (history : History Input InternalOutput) {input : Input}
    (h : unrelated input = true) (pushed : List InternalOutput) :
    liveOf (history ++ [(input, pushed)]) = liveOf history := by
  rw [liveOf_concat]
  cases input with
  | endpoint now event =>
    cases event with
    | peerTrackStarted | peerTrackStopped => cases h
    | _ => rfl
  | _ => rfl

/-- Only a start is a start. -/
theorem Follows.of_knows {history : History Input InternalOutput} {t : TransportWebrtcWhep}
    {input : Input} {pushed : List InternalOutput}
    (h : Knows (emitted history ++ pushed) (liveOf (history ++ [(input, pushed)])) t)
    (hinput : ∀ now peer track trackMeta,
      input ≠ .endpoint now (.peerTrackStarted peer track trackMeta)) :
    Follows (history ++ [(input, pushed)]) t := by
  constructor
  · rw [emitted_concat]
    exact h
  · rintro before now peer track trackMeta pushed' heq
    obtain ⟨-, hlast⟩ := List.append_inj' heq rfl
    cases hlast
    exact absurd rfl (hinput now peer track trackMeta)

theorem Follows.started {history : History Input InternalOutput} {t : TransportWebrtcWhep}
    (h : Follows history t) (now : Instant) (peer : PeerId) (track : TrackName)
    (trackMeta : TrackMeta) :
    ∃ pushed, (t.onPeerTrackStarted peer track trackMeta).queue = t.queue ++ pushed ∧
      Follows (history ++ [(Input.endpoint now (.peerTrackStarted peer track trackMeta), pushed)])
        (t.onPeerTrackStarted peer track trackMeta) := by
  obtain ⟨pushed, hqueue, hknows, htaken⟩ := h.knows.onPeerTrackStarted peer track trackMeta
  refine ⟨pushed, hqueue, ?_, ?_⟩
  · rw [emitted_concat, liveOf_concat]
    exact hknows
  · rintro before now' peer' track' trackMeta' pushed' heq hadded hdetached
    obtain ⟨hbefore, hlast⟩ := List.append_inj' heq rfl
    cases hlast
    subst hbefore
    have hstreams : ∀ kind, t.stream kind = none := by
      intro kind
      have hnone := hdetached kind
      rw [h.knows.subscribed, subscription] at hnone
      cases hpeer : t.subscribed.peer with
      | none => exact h.knows.peer.mp hpeer kind
      | some watched =>
        rw [hpeer, Option.bind_some, Option.map_eq_none_iff] at hnone
        exact hnone
    rw [emitted_concat, hknows.subscribed]
    exact htaken ((h.knows.added _).mpr hadded) hstreams

theorem Follows.stopped {history : History Input InternalOutput} {t : TransportWebrtcWhep}
    (h : Follows history t) (now : Instant) (peer : PeerId) (track : TrackName)
    (trackMeta : TrackMeta) :
    ∃ pushed, (t.tryUnsubscribe peer track).queue = t.queue ++ pushed ∧
      Follows (history ++ [(Input.endpoint now (.peerTrackStopped peer track trackMeta), pushed)])
        (t.tryUnsubscribe peer track) := by
  obtain ⟨pushed, hqueue, hknows⟩ := h.knows.tryUnsubscribe peer track trackMeta
  refine ⟨pushed, hqueue, .of_knows ?_ ?_⟩
  · rw [liveOf_concat]
    exact hknows
  · rintro now' peer' track' trackMeta' heq
    cases heq

/-- After a local track is attached to a track, the claim says that the track is live. -/
theorem Watches.live_of_attach {history : History Input InternalOutput} {input : Input}
    {kind : MediaKind} {source : TrackSource}
    (h : Watches (history ++ [(input, [startOf kind, attachReq (localOf kind) source])]))
    (hlive : liveOf (history ++ [(input, [startOf kind, attachReq (localOf kind) source])]) =
      liveOf history) : (source, kind) ∈ liveOf history := by
  rw [← hlive]
  apply h.live
  rw [emitted_concat, attachedTo, List.foldl_append]
  cases kind <;> rfl

/-- A local track is added: the claim goes on to hold exactly if the track it takes is live. -/
theorem Follows.added {history : History Input InternalOutput} {t : TransportWebrtcWhep}
    (h : Follows history t) (now : Instant) (media : MediaAdded) :
    ∃ pushed, (t.onStr0mMediaAdded media).queue = t.queue ++ pushed ∧
      (Watches (history ++ [(Input.str0m now (.mediaAdded media), pushed)]) →
        FreshWaits history t (.str0m now (.mediaAdded media))) ∧
      (FreshWaits history t (.str0m now (.mediaAdded media)) →
        Follows (history ++ [(Input.str0m now (.mediaAdded media), pushed)])
          (t.onStr0mMediaAdded media)) := by
  have hinput : ∀ now' peer track trackMeta, (Input.str0m now (.mediaAdded media)) ≠
      .endpoint now' (.peerTrackStarted peer track trackMeta) := by
    rintro now' peer track trackMeta heq
    cases heq
  cases hkind : t.addedKind media with
  | none =>
    have hsame : t.onStr0mMediaAdded media = t := by
      rw [onStr0mMediaAdded_eq, hkind]
    rw [hsame]
    refine ⟨[], (List.append_nil _).symm, fun _ => ?_, fun _ => .of_knows ?_ hinput⟩
    · rintro now' media' kind source heq hsome
      cases heq
      rw [hkind] at hsome
      cases hsome
    · rw [liveOf_concat, List.append_nil]
      exact h.knows
  | some kind =>
    obtain ⟨htaken, hnothing⟩ := h.knows.onStr0mMediaAdded hkind
    cases hfirst : t.firstWait kind with
    | none =>
      obtain ⟨hqueue, hknows⟩ := hnothing hfirst
      refine ⟨_, hqueue, fun _ => ?_, fun _ => .of_knows ?_ hinput⟩
      · rintro now' media' kind' source heq hsome hwait
        cases heq
        rw [hkind] at hsome
        cases hsome
        rw [hfirst] at hwait
        cases hwait
      · rw [liveOf_concat]
        exact hknows
    | some source =>
      obtain ⟨hqueue, hknows⟩ := htaken source hfirst
      refine ⟨_, hqueue, fun hwatches => ?_, fun hfresh => .of_knows ?_ hinput⟩
      · rintro now' media' kind' source' heq hsome hwait
        cases heq
        rw [hkind] at hsome
        cases hsome
        rw [hfirst] at hwait
        cases hwait
        exact hwatches.live_of_attach (liveOf_concat ..)
      · rw [liveOf_concat]
        exact hknows (hfresh now media kind source rfl hkind hfirst)

section Run

variable (room : RoomId) (peer : PeerId) (extraData : Option String) (remote : IpAddr)

/-- **Every step brings about what the claim says exactly if it meets the condition.** -/
theorem step_follows_iff {history : History Input InternalOutput} {t t' : TransportWebrtcWhep}
    {input : Input} (h : Follows history t) (hstep : t.step input = .ok t') :
    (Watches (history ++ [(input, (machine room peer extraData remote).pushed t t')]) →
        FreshWaits history t input) ∧
      (FreshWaits history t input →
        Follows (history ++ [(input, (machine room peer extraData remote).pushed t t')]) t') := by
  have hpushed : ∀ more, t'.queue = t.queue ++ more →
      (machine room peer extraData remote).pushed t t' = more := fun more hqueue =>
    pushed_eq_of_append _ hqueue
  -- only an added media has a condition to meet
  have hfree : (∀ now media, input ≠ .str0m now (.mediaAdded media)) →
      FreshWaits history t input := by
    rintro hne now media kind source rfl
    exact absurd rfl (hne now media)
  cases hunrelated : unrelated input with
  | true =>
    obtain ⟨more, hqueue, hknows⟩ := h.knows.bystands (step_bystands hunrelated hstep)
    rw [hpushed more hqueue]
    refine ⟨fun _ => hfree ?_, fun _ => .of_knows ?_ ?_⟩
    · rintro now media rfl
      cases hunrelated
    · rw [liveOf_concat_unrelated history hunrelated]
      exact hknows
    · rintro now peer track trackMeta rfl
      cases hunrelated
  | false =>
    cases input with
    | tick | response | shutdown => cases hunrelated
    | str0m now event =>
      cases event with
      | mediaAdded media =>
        cases hstep
        obtain ⟨pushed, hqueue, hboth⟩ := h.added now media
        rw [hpushed pushed hqueue]
        exact hboth
      | _ => cases hunrelated
    | endpoint now event =>
      have hok := hfree fun now' media heq => by cases heq
      cases event with
      | peerTrackStarted other track trackMeta =>
        cases hstep
        obtain ⟨pushed, hqueue, hfollows⟩ := h.started now other track trackMeta
        rw [hpushed pushed hqueue]
        exact ⟨fun _ => hok, fun _ => hfollows⟩
      | peerTrackStopped other track trackMeta =>
        cases hstep
        obtain ⟨pushed, hqueue, hfollows⟩ := h.stopped now other track trackMeta
        rw [hpushed pushed hqueue]
        exact ⟨fun _ => hok, fun _ => hfollows⟩
      | _ => cases hunrelated

/-- **A WHEP client watches live tracks of one peer exactly in the runs in which no track that
    waited had stopped when its local track was added.** -/
theorem watches_iff_freshWaits {acts : List (Action Input)}
    {c : Config TransportWebrtcWhep Input InternalOutput}
    (hturn : (machine room peer extraData remote).Admits Alternate acts)
    (hrun : (machine room peer extraData remote).run acts = .ok c) :
    (machine room peer extraData remote).Always (fun history _ => Watches history) acts ↔
      (machine room peer extraData remote).Admits FreshWaits acts := by
  have hholds : ∀ history t, Follows history t → Watches history := fun _ _ h => h.watches
  refine always_iff_admits ?_ hholds ?_ ?_ hturn hrun
  · refine ⟨knows_new room peer extraData remote, ?_⟩
    rintro before now other track trackMeta pushed heq
    simp at heq
  · intro history t input t' hfollows _ hstep
    exact step_follows_iff room peer extraData remote hfollows hstep
  · intro history t hfollows
    exact ⟨hfollows.knows.congr ⟨rfl, rfl, rfl⟩ hfollows.knows.parked, hfollows.picks⟩

end Run

instance (history : History Input InternalOutput) (t : TransportWebrtcWhep) (input : Input) :
    Decidable (Alternate history t input) := by
  unfold Alternate
  split <;> infer_instance

/-- A track that starts and stops before the media for it is there, and one that starts after. -/
def lateMedia : List (Action Input) :=
  [.input (.endpoint 0 (.peerTrackStarted "alice" "mic" .defaultAudio)),
    .input (.endpoint 1 (.peerTrackStopped "alice" "mic" .defaultAudio)),
    .input (.str0m 2 (.mediaAdded ⟨"0", .audio, .sendOnly, false⟩)),
    .input (.endpoint 3 (.peerTrackStarted "bob" "mic" .defaultAudio))]

/-- A track that waits for its media, and one that starts while it is attached. -/
def waitingTrack : List (Action Input) :=
  [.input (.endpoint 0 (.peerTrackStarted "alice" "mic" .defaultAudio)),
    .input (.str0m 1 (.mediaAdded ⟨"0", .audio, .sendOnly, false⟩)), .pop,
    .input (.endpoint 2 (.peerTrackStarted "bob" "mic" .defaultAudio))]

theorem watches_iff_freshWaits_waitingTrack :
    ∃ c, (machine "room" "viewer" none "ip").run waitingTrack = .ok c ∧
      attachedTo audioTrack (emitted c.history) = some ⟨"alice", "mic"⟩ ∧
      ((machine "room" "viewer" none "ip").Always (fun history _ => Watches history)
          waitingTrack ↔
        (machine "room" "viewer" none "ip").Admits FreshWaits waitingTrack) := by
  have hrun : ∃ c, (machine "room" "viewer" none "ip").run waitingTrack = .ok c ∧
      attachedTo audioTrack (emitted c.history) = some ⟨"alice", "mic"⟩ := ⟨_, rfl, by decide⟩
  obtain ⟨c, hc, hattached⟩ := hrun
  exact ⟨c, hc, hattached, watches_iff_freshWaits "room" "viewer" none "ip"
    (AdmitsFrom.admits (by decide)) hc⟩

/-- The track that stopped is attached all the same, and the live one is left out. -/
theorem not_watches_lateMedia :
    ∃ c, (machine "room" "viewer" none "ip").run lateMedia = .ok c ∧
      (machine "room" "viewer" none "ip").Admits Alternate lateMedia ∧
      attachedTo audioTrack (emitted c.history) = some ⟨"alice", "mic"⟩ ∧
      liveOf c.history = [(⟨"bob", "mic"⟩, .audio)] ∧
      ¬(machine "room" "viewer" none "ip").Always (fun history _ => Watches history)
        lateMedia := by
  refine ⟨_, rfl, AdmitsFrom.admits (by decide), by decide, by decide, ?_⟩
  intro h
  have hlast := h.last (c := _) rfl
  exact absurd (hlast.live .audio ⟨"alice", "mic"⟩ (by decide)) (by decide)

end MediaServer.Transport.TransportWebrtcWhep
