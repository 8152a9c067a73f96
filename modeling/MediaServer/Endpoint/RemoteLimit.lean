import MediaServer.Endpoint.RemoteTrack
import MediaServer.Lib.Execution

/-!
# What a publisher is limited to

A remote track limits its client to what the allocator grants and, if its viewers control the
bitrate, to what they ask for.  `Seen` is the rule: the latest allocation, and the latest feedback
since the track joined the room it is in.

The track itself remembers the latest feedback for as long as it lives.  So what it tells the
client follows the rule as long as a feedback that outlived its room binds no later limit.
-/

namespace MediaServer.Endpoint.RemoteLimit

open RemoteTrack Execution

/-! ### The rule -/

/-- What has reached a track that matters to its limit. -/
structure Seen where
  control : BitrateControlMode
  joined : Bool
  ended : Bool
  allocation : Option UInt64
  feedback : Option (UInt64 × UInt64)
  ordered : Bool

def Seen.start (room : Option ClusterRoomHash) (control : BitrateControlMode) : Seen :=
  ⟨control, room.isSome, false, none, none, true⟩

inductive Call where
  | input (now : Instant) (input : Input)
  | shutdown (now : Instant)
  | pop

/-- A feedback counts in the room that the track is in, until it leaves.  A shutdown is a leave,
    unless the track has ended before. -/
def Seen.see (seen : Seen) : Call → Seen
  | .input _ (.joinRoom _) => { seen with joined := true, feedback := none }
  | .input _ .leaveRoom => { seen with joined := false, feedback := none }
  | .input _ (.cluster (.limitBitrate lo hi)) =>
      { seen with
        feedback := if seen.joined then some (lo, hi) else none
        ordered := seen.ordered && lo ≤ hi }
  | .input _ (.cluster .requestKeyFrame) => seen
  | .input _ (.event .ended) => { seen with ended := seen.ended || seen.joined }
  | .input _ (.event _) => seen
  | .input _ (.rpcReq _ (.config config)) =>
      if config.priority = 0 then seen else { seen with control := config.control }
  | .input _ (.bitrateAllocation (.setBitrate bitrate)) => { seen with allocation := some bitrate }
  | .shutdown _ =>
      if seen.ended then seen else { seen with ended := true, joined := false, feedback := none }
  | .pop => seen

theorem Seen.see_feedback (seen : Seen) (now : Instant) (lo hi : UInt64) :
    seen.see (.input now (.cluster (.limitBitrate lo hi))) =
      { seen with
        feedback := if seen.joined then some (lo, hi) else none
        ordered := seen.ordered && lo ≤ hi } :=
  rfl

theorem Seen.see_ended (seen : Seen) (now : Instant) :
    seen.see (.input now (.event .ended)) =
      { seen with ended := seen.ended || seen.joined } :=
  rfl

theorem Seen.see_config (seen : Seen) (now : Instant) (reqId : EndpointReqId)
    (config : EndpointRemoteTrackConfig) :
    seen.see (.input now (.rpcReq reqId (.config config))) =
      if config.priority = 0 then seen else { seen with control := config.control } :=
  rfl

theorem Seen.see_allocation (seen : Seen) (now : Instant) (bitrate : UInt64) :
    seen.see (.input now (.bitrateAllocation (.setBitrate bitrate))) =
      { seen with allocation := some bitrate } :=
  rfl

theorem Seen.see_shutdown (seen : Seen) (now : Instant) :
    seen.see (.shutdown now) =
      if seen.ended then seen
      else { seen with ended := true, joined := false, feedback := none } :=
  rfl

/-- The allocation caps both bounds that the viewers ask for. -/
def Seen.limit (seen : Seen) : Option (UInt64 × UInt64) :=
  match seen.allocation, if seen.control = .dynamicConsumers then seen.feedback else none with
  | some bitrate, some (lo, hi) => some (min lo bitrate, min hi bitrate)
  | some bitrate, none => some (bitrate, bitrate)
  | none, feedback => feedback

/-! ### Runs -/

/-- A track and what has reached it. -/
structure Watch where
  track : EndpointRemoteTrack
  seen : Seen

def start (room : Option ClusterRoomHash) (id : RemoteTrackId) (name : TrackName)
    (trackMeta : TrackMeta) (record : Bool) : Watch :=
  ⟨.new room id name trackMeta record, .start room trackMeta.control⟩

def callTrack (t : EndpointRemoteTrack) : Call → Except Panic EndpointRemoteTrack
  | .input now input => EndpointRemoteTrack.onEvent now input t
  | .shutdown now => EndpointRemoteTrack.onShutdown now t
  | .pop => .ok { t with queue := t.queue.tail }

/-- The steps of a run, which ends where the code panics. -/
def next (w : Watch) (c : Call) : Option Watch :=
  (callTrack w.track c).toOption.map fun track => ⟨track, w.seen.see c⟩

/-- The queue that a call adds to. -/
def queueFor (t : EndpointRemoteTrack) : Call → List Output
  | .pop => t.queue.tail
  | _ => t.queue

/-- Every limit that a call tells the client is the one of the rule, and in order if all feedbacks
    were. -/
def LimitsByRule (w : Watch) (c : Call) (w' : Watch) : Prop :=
  ∃ outs, w'.track.queue = queueFor w.track c ++ outs ∧
    ∀ lo hi, .event (.limitBitrateBps lo hi) ∈ outs →
      w'.seen.limit = some (lo, hi) ∧ (w'.seen.ordered = true → lo ≤ hi)

/-- When a limit is told in the mode of the consumers, a feedback that is remembered from a room
    already left, or that comes outside of a room, asks for no less than the allocation. -/
def StaleUnbinding (w : Watch) (c : Call) (_ : Watch) : Prop :=
  match c with
  | .input _ (.bitrateAllocation (.setBitrate bitrate)) =>
      w.track.trackMeta.control = .dynamicConsumers → w.seen.feedback = none →
        ∀ bounds ∈ w.track.clusterBitrateLimit, bitrate ≤ bounds.1 ∧ bitrate ≤ bounds.2
  | .input _ (.cluster (.limitBitrate lo hi)) =>
      w.track.trackMeta.control = .dynamicConsumers → w.track.room = none →
        ∃ bitrate ∈ w.track.allocateBitrate, bitrate ≤ lo ∧ bitrate ≤ hi
  | _ => True

instance (w : Watch) (c : Call) (w' : Watch) : Decidable (StaleUnbinding w c w') := by
  unfold StaleUnbinding
  split
  · rename_i bitrate
    haveI : Decidable (∀ bounds ∈ w.track.clusterBitrateLimit,
        bitrate ≤ bounds.1 ∧ bitrate ≤ bounds.2) := Option.decidableForallMem _
    infer_instance
  · infer_instance
  · infer_instance

/-- The track remembers what it has seen, and maybe a feedback that does not count any more. -/
structure Remembers (w : Watch) : Prop where
  control : w.track.trackMeta.control = w.seen.control
  joined : w.track.room.isSome = w.seen.joined
  ended : w.track.shutdown = w.seen.ended
  allocation : w.track.allocateBitrate = w.seen.allocation
  feedback : w.seen.feedback = none ∨ w.seen.feedback = w.track.clusterBitrateLimit
  ordered : w.seen.ordered = true → ∀ bounds ∈ w.track.clusterBitrateLimit, bounds.1 ≤ bounds.2

theorem remembers_start (room : Option ClusterRoomHash) (id : RemoteTrackId) (name : TrackName)
    (trackMeta : TrackMeta) (record : Bool) : Remembers (start room id name trackMeta record) where
  control := rfl
  joined := rfl
  ended := rfl
  allocation := rfl
  feedback := Or.inl rfl
  ordered _ _ hbounds := nomatch hbounds

/-! ### Limits -/

/-- A limit is told by no other outputs than those of a limit. -/
def NoLimit (outs : List Output) : Prop := ∀ lo hi, .event (.limitBitrateBps lo hi) ∉ outs

theorem noLimit_nil : NoLimit [] := fun _ _ => List.not_mem_nil

theorem NoLimit.append {first second : List Output} (h : NoLimit first) (h' : NoLimit second) :
    NoLimit (first ++ second) := by
  intro lo hi hmem
  rcases List.mem_append.mp hmem with hmem | hmem
  · exact h lo hi hmem
  · exact h' lo hi hmem

theorem noLimit_recorded (t : EndpointRemoteTrack) (now : Instant) (event : SessionRecordEvent) :
    NoLimit (t.recorded now event) := by
  unfold EndpointRemoteTrack.recorded
  split <;> simp [NoLimit]

theorem noLimit_joinOutputs (t : EndpointRemoteTrack) (now : Instant) (room : ClusterRoomHash) :
    NoLimit (t.joinOutputs now room) :=
  (NoLimit.append (by simp [NoLimit]) (noLimit_recorded t _ _)).append (by simp [NoLimit])

theorem noLimit_endOutputs (t : EndpointRemoteTrack) (now : Instant) (room : ClusterRoomHash) :
    NoLimit (t.endOutputs now room) :=
  (NoLimit.append (by simp [NoLimit]) (noLimit_recorded t _ _)).append (by simp [NoLimit])

theorem limitBitrateBps_mem {t : EndpointRemoteTrack} {lo hi : UInt64} :
    .event (.limitBitrateBps lo hi) ∈ t.limitOutputs ↔ t.calcLimitBitrate = some (lo, hi) := by
  unfold EndpointRemoteTrack.limitOutputs
  cases t.calcLimitBitrate with
  | none => simp
  | some bounds => simp [Prod.ext_iff, eq_comm]

/-- The limit of the track, by what it remembers. -/
theorem calcLimitBitrate_eq {w : Watch} (h : Remembers w) :
    w.track.calcLimitBitrate =
      { w.seen with feedback := w.track.clusterBitrateLimit }.limit := by
  rw [EndpointRemoteTrack.calcLimitBitrate, Seen.limit, h.control, h.allocation]
  dsimp only
  split <;> simp_all

theorem min_eq_ite (a b : UInt64) : min a b = if a ≤ b then a else b := rfl

theorem min_le_min_of_le {lo hi bitrate : UInt64} (h : lo ≤ hi) :
    min lo bitrate ≤ min hi bitrate := by
  rw [min_eq_ite, min_eq_ite]
  split <;> split <;> simp only [UInt64.le_iff_toNat_le] at * <;> omega

theorem min_eq_right_iff {bound bitrate : UInt64} : min bound bitrate = bitrate ↔ bitrate ≤ bound := by
  rw [min_eq_ite]
  split
  · rename_i hle
    constructor
    · rintro rfl
      exact UInt64.le_refl _
    · exact UInt64.le_antisymm hle
  · rename_i hlt
    exact iff_of_true rfl (UInt64.le_of_lt (UInt64.not_le.mp hlt))

/-- Bounds in order are told in order. -/
theorem Seen.limit_ordered {seen : Seen} (h : ∀ bounds ∈ seen.feedback, bounds.1 ≤ bounds.2)
    {lo hi : UInt64} (hlimit : seen.limit = some (lo, hi)) : lo ≤ hi := by
  rw [Seen.limit] at hlimit
  have hbounds : ∀ bounds ∈ (if seen.control = .dynamicConsumers then seen.feedback else none),
      bounds.1 ≤ bounds.2 := by
    split
    · exact h
    · exact fun bounds hnone => nomatch hnone
  split at hlimit
  · rename_i bitrate lo' hi' _ hfeedback
    cases hlimit
    exact min_le_min_of_le (hbounds (lo', hi') hfeedback)
  · cases hlimit
    exact UInt64.le_refl _
  · exact hbounds (lo, hi) hlimit

/-- With an allocation, a feedback that does not count makes no difference exactly if it asks for
    no less. -/
theorem Seen.limit_memory {seen : Seen} {bitrate : UInt64} (halloc : seen.allocation = some bitrate)
    {memory : Option (UInt64 × UInt64)} (hfb : seen.feedback = none ∨ seen.feedback = memory) :
    { seen with feedback := memory }.limit = seen.limit ↔
      (seen.control = .dynamicConsumers → seen.feedback = none →
        ∀ bounds ∈ memory, bitrate ≤ bounds.1 ∧ bitrate ≤ bounds.2) := by
  rw [Seen.limit, Seen.limit, halloc]
  by_cases hcontrol : seen.control = .dynamicConsumers
  · rw [if_pos hcontrol, if_pos hcontrol]
    rcases hfb with hnone | hsame
    · rw [hnone]
      cases memory with
      | none => simp
      | some bounds => simp [hcontrol, min_eq_right_iff]
    · rw [hsame]
      refine iff_of_true rfl fun _ hnone bounds hbounds => ?_
      rw [hnone] at hbounds
      cases hbounds
  · rw [if_neg hcontrol, if_neg hcontrol]
    exact iff_of_true rfl fun hdynamic => absurd hdynamic hcontrol

variable {w w' : Watch} {c : Call}

/-- A call that tells no limit. -/
theorem limitsByRule_of_noLimit {outs : List Output} (houts : NoLimit outs)
    (hqueue : w'.track.queue = queueFor w.track c ++ outs) : LimitsByRule w c w' :=
  ⟨outs, hqueue, fun lo hi hmem => absurd hmem (houts lo hi)⟩

/-- A call that tells the limit there is. -/
theorem limitsByRule_iff (h' : Remembers w')
    (hqueue : w'.track.queue = queueFor w.track c ++ w'.track.limitOutputs) :
    LimitsByRule w c w' ↔ ∀ bounds ∈ w'.track.calcLimitBitrate, w'.seen.limit = some bounds := by
  constructor
  · rintro ⟨outs, houts, hlimits⟩ ⟨lo, hi⟩ hbounds
    rw [hqueue] at houts
    rw [← List.append_cancel_left houts] at hlimits
    exact (hlimits lo hi (limitBitrateBps_mem.mpr hbounds)).1
  · intro hlimits
    refine ⟨_, hqueue, fun lo hi hmem => ?_⟩
    have hcalc := limitBitrateBps_mem.mp hmem
    refine ⟨hlimits (lo, hi) hcalc, fun hordered => ?_⟩
    rw [calcLimitBitrate_eq h'] at hcalc
    exact Seen.limit_ordered (h'.ordered hordered) hcalc

/-- With an allocation there is a limit to tell. -/
theorem limitsByRule_allocated (h' : Remembers w') {bitrate : UInt64}
    (halloc : w'.seen.allocation = some bitrate)
    (hqueue : w'.track.queue = queueFor w.track c ++ w'.track.limitOutputs) :
    LimitsByRule w c w' ↔
      (w'.seen.control = .dynamicConsumers → w'.seen.feedback = none →
        ∀ bounds ∈ w'.track.clusterBitrateLimit, bitrate ≤ bounds.1 ∧ bitrate ≤ bounds.2) := by
  rw [limitsByRule_iff h' hqueue, ← Seen.limit_memory halloc h'.feedback, calcLimitBitrate_eq h']
  have hsome : ∃ bounds,
      { w'.seen with feedback := w'.track.clusterBitrateLimit }.limit = some bounds := by
    rw [Seen.limit, halloc]
    dsimp only
    split
    · exact ⟨_, rfl⟩
    · exact ⟨_, rfl⟩
    · rename_i heq
      cases heq
  obtain ⟨bounds, hbounds⟩ := hsome
  rw [hbounds]
  constructor
  · intro h
    exact (h bounds rfl).symm
  · rintro h bounds' hbounds'
    cases hbounds'
    exact h.symm

/-! ### Steps -/

theorem callTrack_of_next (h : next w c = some w') :
    callTrack w.track c = .ok w'.track ∧ w'.seen = w.seen.see c := by
  obtain ⟨track, htrack, rfl⟩ := Option.map_eq_some_iff.mp h
  exact ⟨Except.mem_toOption.mp htrack, rfl⟩

/-- A call that leaves alone what the limit depends on, and tells none. -/
structure Bystands (t t' : EndpointRemoteTrack) : Prop where
  control : t'.trackMeta.control = t.trackMeta.control
  room : t'.room = t.room
  shutdown : t'.shutdown = t.shutdown
  allocation : t'.allocateBitrate = t.allocateBitrate
  feedback : t'.clusterBitrateLimit = t.clusterBitrateLimit
  queue : ∃ outs, NoLimit outs ∧ t'.queue = t.queue ++ outs

theorem bystands_push {t : EndpointRemoteTrack} {outs : List Output} (h : NoLimit outs) :
    Bystands t (t.push outs) := ⟨rfl, rfl, rfl, rfl, rfl, outs, h, rfl⟩

theorem Bystands.refl (t : EndpointRemoteTrack) : Bystands t t :=
  ⟨rfl, rfl, rfl, rfl, rfl, [], by simp [NoLimit], (List.append_nil _).symm⟩

theorem Bystands.trans {t t' t'' : EndpointRemoteTrack} (h : Bystands t t') (h' : Bystands t' t'') :
    Bystands t t'' := by
  obtain ⟨outs, houts, hqueue⟩ := h.queue
  obtain ⟨outs', houts', hqueue'⟩ := h'.queue
  refine ⟨h'.control.trans h.control, h'.room.trans h.room, h'.shutdown.trans h.shutdown,
    h'.allocation.trans h.allocation, h'.feedback.trans h.feedback, outs ++ outs',
    houts.append houts', ?_⟩
  rw [hqueue', hqueue, List.append_assoc]

theorem onTransportEvent_bystands (t : EndpointRemoteTrack) (now : Instant)
    {event : RemoteTrackEvent} (hevent : event ≠ .ended) :
    Bystands t (t.onTransportEvent now event) := by
  cases event with
  | started name priority trackMeta =>
    simp only [EndpointRemoteTrack.onTransportEvent]
    split
    · exact .refl t
    · refine bystands_push ((NoLimit.append ?_ (noLimit_recorded t _ _)).append ?_)
      · simp [NoLimit]
      · simp [NoLimit]
  | paused => exact .refl t
  | resumed => exact .refl t
  | media media =>
    have hlayers : Bystands t (t.restoreLayers media).1 := by
      simp only [EndpointRemoteTrack.restoreLayers]
      split
      · exact ⟨rfl, rfl, rfl, rfl, rfl, [], by simp [NoLimit], (List.append_nil _).symm⟩
      · exact .refl t
    have hrecorded := hlayers.trans (bystands_push (noLimit_recorded (t.restoreLayers media).1 now
      (.trackMedia (t.restoreLayers media).1.id (t.restoreLayers media).2)))
    simp only [EndpointRemoteTrack.onTransportEvent]
    split
    · exact hrecorded
    · exact hrecorded.trans (bystands_push (by simp [NoLimit]))
  | ended => exact absurd rfl hevent

/-- What a call keeps, and when it tells the limit of the rule. -/
def Follows (w : Watch) (c : Call) (w' : Watch) : Prop :=
  (LimitsByRule w c w' ↔ StaleUnbinding w c w') ∧ Remembers w'

theorem follows_of_noLimit (h' : Remembers w') {outs : List Output} (houts : NoLimit outs)
    (hqueue : w'.track.queue = queueFor w.track c ++ outs) (hc : StaleUnbinding w c w') :
    Follows w c w' :=
  ⟨iff_of_true (limitsByRule_of_noLimit houts hqueue) hc, h'⟩

theorem follows_of_bystands (h : Remembers w) (htrack : Bystands w.track w'.track)
    (hseen : w'.seen = w.seen) (hqueue : queueFor w.track c = w.track.queue)
    (hc : StaleUnbinding w c w') : Follows w c w' := by
  obtain ⟨outs, houts, hadds⟩ := htrack.queue
  refine follows_of_noLimit ?_ houts (by rw [hadds, hqueue]) hc
  constructor
  · rw [htrack.control, hseen, h.control]
  · rw [htrack.room, hseen, h.joined]
  · rw [htrack.shutdown, hseen, h.ended]
  · rw [htrack.allocation, hseen, h.allocation]
  · rw [htrack.feedback, hseen]
    exact h.feedback
  · rw [htrack.feedback, hseen]
    exact h.ordered

theorem follows_join (h : Remembers w) {now : Instant} {room : ClusterRoomHash}
    (hnext : next w (.input now (.joinRoom room)) = some w') :
    Follows w (.input now (.joinRoom room)) w' := by
  obtain ⟨htrack, hseen⟩ := callTrack_of_next hnext
  simp only [callTrack, EndpointRemoteTrack.onEvent, EndpointRemoteTrack.onJoinRoom] at htrack
  split at htrack
  · cases htrack
  · have heq := Except.ok.inj htrack
    refine follows_of_noLimit ?_ (noLimit_joinOutputs w.track now room) (by rw [← heq]; rfl) trivial
    constructor <;> rw [hseen]
    · rw [← heq]
      exact h.control
    · rw [← heq]
      rfl
    · rw [← heq]
      exact h.ended
    · rw [← heq]
      exact h.allocation
    · exact Or.inl rfl
    · rw [← heq]
      exact h.ordered

theorem onLeaveRoom_eq {t t' : EndpointRemoteTrack} {now : Instant}
    (h : t.onLeaveRoom now = .ok t') :
    t'.trackMeta = t.trackMeta ∧ t'.room = none ∧ t'.shutdown = t.shutdown ∧
      t'.allocateBitrate = t.allocateBitrate ∧ t'.clusterBitrateLimit = t.clusterBitrateLimit ∧
      ∃ outs, NoLimit outs ∧ t'.queue = t.queue ++ outs := by
  rw [EndpointRemoteTrack.onLeaveRoom] at h
  split at h
  · cases h
  · cases h
    exact ⟨rfl, rfl, rfl, rfl, rfl, _, noLimit_endOutputs t now _, rfl⟩

theorem follows_leave (h : Remembers w) {now : Instant}
    (hnext : next w (.input now .leaveRoom) = some w') :
    Follows w (.input now .leaveRoom) w' := by
  obtain ⟨htrack, hseen⟩ := callTrack_of_next hnext
  obtain ⟨hmeta, hroom, hstop, halloc, hfeedback, outs, houts, hqueue⟩ := onLeaveRoom_eq htrack
  refine follows_of_noLimit ?_ houts hqueue trivial
  constructor <;> rw [hseen]
  · rw [hmeta]
    exact h.control
  · rw [hroom]
    rfl
  · rw [hstop]
    exact h.ended
  · rw [halloc]
    exact h.allocation
  · exact Or.inl rfl
  · rw [hfeedback]
    exact h.ordered

theorem follows_shutdown (h : Remembers w) {now : Instant}
    (hnext : next w (.shutdown now) = some w') : Follows w (.shutdown now) w' := by
  obtain ⟨htrack, hseen⟩ := callTrack_of_next hnext
  have htrack' : EndpointRemoteTrack.onShutdown now w.track = .ok w'.track := htrack
  rw [EndpointRemoteTrack.onShutdown] at htrack'
  rw [Seen.see_shutdown, ← h.ended] at hseen
  split at htrack'
  · rename_i hstopped
    have heq := Except.ok.inj htrack'
    rw [if_pos hstopped] at hseen
    exact follows_of_bystands h (heq ▸ .refl _) hseen rfl trivial
  · rename_i hrunning
    rw [if_neg hrunning] at hseen
    dsimp only at htrack'
    split at htrack'
    · obtain ⟨hmeta, hroom, hstop, halloc, hfeedback, outs, houts, hqueue⟩ :=
        onLeaveRoom_eq htrack'
      refine follows_of_noLimit ?_ houts hqueue trivial
      constructor <;> rw [hseen]
      · rw [hmeta]
        exact h.control
      · rw [hroom]
        rfl
      · rw [hstop]
      · rw [halloc]
        exact h.allocation
      · exact Or.inl rfl
      · rw [hfeedback]
        exact h.ordered
    · rename_i hroom
      have heq := Except.ok.inj htrack'
      have hnone : w.track.room.isSome = false := Bool.eq_false_iff.mpr hroom
      refine follows_of_noLimit ?_ noLimit_nil ?_ trivial
      · constructor <;> rw [hseen, ← heq]
        · exact h.control
        · exact hnone
        · exact h.allocation
        · exact Or.inl rfl
        · exact h.ordered
      · rw [← heq, List.append_nil]
        rfl

theorem follows_ended (h : Remembers w) {now : Instant}
    (hnext : next w (.input now (.event .ended)) = some w') :
    Follows w (.input now (.event .ended)) w' := by
  obtain ⟨htrack, hseen⟩ := callTrack_of_next hnext
  have heq := Except.ok.inj htrack
  rw [Seen.see_ended] at hseen
  simp only [EndpointRemoteTrack.onTransportEvent] at heq
  split at heq
  · rename_i hroom
    have hended : (w.seen.ended || w.seen.joined) = w.seen.ended := by
      rw [← h.joined, hroom, Option.isSome_none, Bool.or_false]
    rw [hended] at hseen
    exact follows_of_bystands h (heq ▸ .refl _) hseen rfl trivial
  · rename_i room hroom
    have hended : (w.seen.ended || w.seen.joined) = true := by
      rw [← h.joined, hroom, Option.isSome_some, Bool.or_true]
    refine follows_of_noLimit ?_ (noLimit_endOutputs w.track now room) (by rw [← heq]; rfl) trivial
    constructor <;> rw [hseen, ← heq]
    · exact h.control
    · exact h.joined
    · exact hended.symm
    · exact h.allocation
    · exact h.feedback
    · exact h.ordered

theorem follows_config (h : Remembers w) {now : Instant} {reqId : EndpointReqId}
    {req : EndpointRemoteTrackReq} (hnext : next w (.input now (.rpcReq reqId req)) = some w') :
    Follows w (.input now (.rpcReq reqId req)) w' := by
  obtain ⟨htrack, hseen⟩ := callTrack_of_next hnext
  have heq := Except.ok.inj htrack
  obtain ⟨config⟩ := req
  rw [Seen.see_config] at hseen
  simp only [EndpointRemoteTrack.onRpcReq] at heq
  split at heq
  · rename_i hzero
    rw [if_pos hzero] at hseen
    exact follows_of_bystands h (heq ▸ bystands_push (by simp [NoLimit])) hseen rfl trivial
  · rename_i hpos
    rw [if_neg hpos] at hseen
    have hnone : NoLimit [.rpcRes reqId (.config (.ok ())),
        .update w.track.trackMeta.kind config.priority] := by
      simp [NoLimit]
    refine follows_of_noLimit ?_ hnone (by rw [← heq]; rfl) trivial
    constructor <;> rw [hseen, ← heq]
    · rfl
    · exact h.joined
    · exact h.ended
    · exact h.allocation
    · exact h.feedback
    · exact h.ordered

/-- A new allocation is told at once. -/
theorem follows_allocation (h : Remembers w) {now : Instant} {bitrate : UInt64}
    (hnext : next w (.input now (.bitrateAllocation (.setBitrate bitrate))) = some w') :
    Follows w (.input now (.bitrateAllocation (.setBitrate bitrate))) w' := by
  obtain ⟨htrack, hseen⟩ := callTrack_of_next hnext
  have heq := Except.ok.inj htrack
  rw [Seen.see_allocation] at hseen
  have h' : Remembers w' := by
    constructor <;> rw [hseen, ← heq]
    · exact h.control
    · exact h.joined
    · exact h.ended
    · rfl
    · exact h.feedback
    · exact h.ordered
  refine ⟨?_, h'⟩
  rw [limitsByRule_allocated h' (by rw [hseen]) (by rw [← heq]; rfl), ← h'.control, hseen, ← heq]
  rfl

/-- A feedback is told at once where the consumers control the bitrate. -/
theorem follows_feedback (h : Remembers w) {now : Instant} {lo hi : UInt64}
    (hnext : next w (.input now (.cluster (.limitBitrate lo hi))) = some w') :
    Follows w (.input now (.cluster (.limitBitrate lo hi))) w' := by
  obtain ⟨htrack, hseen⟩ := callTrack_of_next hnext
  have heq := Except.ok.inj htrack
  rw [Seen.see_feedback] at hseen
  simp only [EndpointRemoteTrack.onClusterEvent] at heq
  have h' : Remembers w' := by
    have hlast : w'.track.trackMeta = w.track.trackMeta ∧ w'.track.room = w.track.room ∧
        w'.track.shutdown = w.track.shutdown ∧
        w'.track.allocateBitrate = w.track.allocateBitrate ∧
        w'.track.clusterBitrateLimit = some (lo, hi) := by
      rw [← heq]
      split <;> exact ⟨rfl, rfl, rfl, rfl, rfl⟩
    obtain ⟨hmeta, hroom, hstop, halloc, hfeedback⟩ := hlast
    constructor <;> rw [hseen]
    · rw [hmeta]
      exact h.control
    · rw [hroom]
      exact h.joined
    · rw [hstop]
      exact h.ended
    · rw [halloc]
      exact h.allocation
    · rw [hfeedback]
      dsimp only
      split
      · exact Or.inr rfl
      · exact Or.inl rfl
    · rw [hfeedback]
      rintro hordered bounds hbounds
      cases hbounds
      exact of_decide_eq_true (Bool.and_eq_true_iff.mp hordered).2
  by_cases hcontrol : w.track.trackMeta.control = .dynamicConsumers
  · rw [if_pos hcontrol] at heq
    have hqueue : w'.track.queue = queueFor w.track
        (.input now (.cluster (.limitBitrate lo hi))) ++ w'.track.limitOutputs := by
      rw [← heq]
      rfl
    have hdynamic : w'.seen.control = .dynamicConsumers := by
      rw [hseen, ← h.control, hcontrol]
    have hmemory : w'.track.clusterBitrateLimit = some (lo, hi) := by
      rw [← heq]
      rfl
    refine ⟨?_, h'⟩
    cases halloc : w.track.allocateBitrate with
    | some bitrate =>
      rw [limitsByRule_allocated h' (by rw [hseen, ← h.allocation, halloc]) hqueue, hmemory, hseen,
        ← h.joined]
      simp only [StaleUnbinding, halloc, hcontrol]
      cases hroom : w.track.room with
      | none => simp [← h.control, hcontrol]
      | some room => simp
    | none =>
      have hnone : w'.seen.allocation = none := by rw [hseen, ← h.allocation, halloc]
      have hcalc : w'.track.calcLimitBitrate = some (lo, hi) := by
        rw [calcLimitBitrate_eq h', Seen.limit, hnone, hmemory, if_pos hdynamic]
      have hlimit : w'.seen.limit = if w.track.room.isSome then some (lo, hi) else none := by
        rw [Seen.limit, hnone, if_pos hdynamic, hseen, ← h.joined]
      rw [limitsByRule_iff h' hqueue, hcalc, hlimit]
      simp only [StaleUnbinding, halloc, hcontrol]
      cases hroom : w.track.room with
      | none => simp
      | some room => simp
  · rw [if_neg hcontrol] at heq
    refine follows_of_noLimit h' noLimit_nil ?_ ?_
    · rw [← heq, List.append_nil]
      rfl
    · exact fun hdynamic => absurd hdynamic hcontrol

/-- **Calls.**  A call tells the limit of the rule exactly if no feedback that does not count
    binds it. -/
theorem follows_next (h : Remembers w) (hnext : next w c = some w') : Follows w c w' := by
  obtain ⟨htrack, hseen⟩ := callTrack_of_next hnext
  cases c with
  | shutdown now => exact follows_shutdown h hnext
  | pop =>
    have heq := Except.ok.inj htrack
    refine follows_of_noLimit ?_ noLimit_nil ?_ trivial
    · constructor <;> rw [hseen, ← heq]
      · exact h.control
      · exact h.joined
      · exact h.ended
      · exact h.allocation
      · exact h.feedback
      · exact h.ordered
    · rw [← heq, List.append_nil]
      rfl
  | input now input =>
    cases input with
    | joinRoom room => exact follows_join h hnext
    | leaveRoom => exact follows_leave h hnext
    | rpcReq reqId req => exact follows_config h hnext
    | bitrateAllocation action =>
      cases action with
      | setBitrate bitrate => exact follows_allocation h hnext
    | cluster event =>
      cases event with
      | limitBitrate lo hi => exact follows_feedback h hnext
      | requestKeyFrame =>
        have heq := Except.ok.inj htrack
        exact follows_of_bystands h (heq ▸ bystands_push (by simp [NoLimit])) hseen rfl trivial
    | event event =>
      by_cases hended : event = .ended
      · subst hended
        exact follows_ended h hnext
      · have heq := Except.ok.inj htrack
        refine follows_of_bystands h (heq ▸ onTransportEvent_bystands w.track now hended) ?_ rfl
          trivial
        rw [hseen]
        cases event with
        | ended => exact absurd rfl hended
        | started | paused | resumed | media => rfl

/-- **Limits.**  All limits of a run are those of the rule exactly if no feedback that outlived its
    room, or came outside of one, asks for less than the allocation when a limit is told. -/
theorem limits_by_rule_iff (room : Option ClusterRoomHash) (id : RemoteTrackId) (name : TrackName)
    (trackMeta : TrackMeta) (record : Bool) (calls : List Call) :
    Along next LimitsByRule (start room id name trackMeta record) calls ↔
      Along next StaleUnbinding (start room id name trackMeta record) calls :=
  along_iff (fun _ _ _ h hnext =>
      ⟨(follows_next h hnext).1, fun _ => (follows_next h hnext).2⟩)
    (remembers_start room id name trackMeta record)

/-! ### A feedback of the room before -/

/-- The viewers of room 1 ask for little; in room 2 nobody asks for anything. -/
def moveOn : List Call :=
  [.input 0 (.cluster (.limitBitrate 100000 200000)), .input 1 .leaveRoom,
    .input 2 (.joinRoom 2), .input 3 (.bitrateAllocation (.setBitrate 1000000))]

theorem not_limits_by_rule :
    ¬ ∀ (room : Option ClusterRoomHash) (id : RemoteTrackId) (name : TrackName)
      (trackMeta : TrackMeta) (record : Bool) (calls : List Call),
      Along next LimitsByRule (start room id name trackMeta record) calls := by
  intro hall
  have hrun := hall (some 1) 0 "camera" ⟨.video, .none, .dynamicConsumers, none⟩ false moveOn
  have hstep : (exec next (fun _ _ => true)
      (start (some 1) 0 "camera" ⟨.video, .none, .dynamicConsumers, none⟩ false)
      (moveOn.take 3)).any (fun w => (next w (.input 3 (.bitrateAllocation (.setBitrate 1000000)))).any
        fun w' => w'.track.queue = w.track.queue ++ [.event (.limitBitrateBps 100000 200000)] ∧
          w'.seen.limit = some (1000000, 1000000)) = true := by
    decide
  obtain ⟨w, hw, hlast⟩ := (Option.any_eq_true _ _).mp hstep
  obtain ⟨w', hw', hbad⟩ := (Option.any_eq_true _ _).mp hlast
  obtain ⟨hqueue, hlimit⟩ := of_decide_eq_true hbad
  have hreaches : Reaches next (fun _ _ => True) _ (moveOn.take 3) w :=
    reaches_of_exec (fun _ _ _ => trivial) hw
  have hrun : Along next LimitsByRule _ (moveOn.take 3 ++ moveOn.drop 3) := hrun
  obtain ⟨outs, houts, hlimits⟩ := (Along.of_append hrun hreaches w' hw').1
  rw [hqueue] at houts
  have htold := (hlimits 100000 200000 (by
    rw [← List.append_cancel_left houts]
    exact List.mem_singleton_self _)).1
  rw [hlimit] at htold
  revert htold
  decide

end MediaServer.Endpoint.RemoteLimit
