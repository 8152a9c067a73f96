import MediaServer.Endpoint.Membership
import MediaServer.Utils.TaskTable

/-!
# The track tables of an endpoint

An endpoint finds the tasks of its tracks through two tables from track ids to task
indexes.  A local track that is removed takes its pair out of the table.  A remote
track does not: its pair stays and names a free index, which the group may hand
to the next track.  Until a remote track is removed, and as long as no track is
started twice, both tables are exact, every loop over their pairs reaches each track
once, and no assert of a track fails.
-/

namespace MediaServer.Endpoint

open Collections Runtime Machine

variable {Selector : Type}

namespace EndpointInternal

/-- Both tables are exact, and no track has its empty event in its queue. -/
structure Sound (s : EndpointInternal Selector) : Prop where
  remoteTable : Exact s.remoteTracksId s.remoteTracks EndpointRemoteTrack.id
  localTable : Exact s.localTracksId s.localTracks EndpointLocalTrack.track
  remotePlain : ∀ index t, s.remoteTracks.get index = some t → EndpointRemoteTrack.Plain t.queue
  localPlain : ∀ index t, s.localTracks.get index = some t → EndpointLocalTrack.Plain t.queue

/-- All tracks are in `room`, and a bound one is in some room. -/
structure TracksIn (room : Option ClusterRoomHash) (s : EndpointInternal Selector) : Prop where
  remote : ∀ index t, s.remoteTracks.get index = some t → t.room = room
  local_ : ∀ index t, s.localTracks.get index = some t → t.room = room
  bound : ∀ index t, s.localTracks.get index = some t → t.bind.isSome = true →
    t.room.isSome = true

theorem TracksIn.same {room : Option ClusterRoomHash} {s s' : EndpointInternal Selector}
    (h : TracksIn room s) (hsame : SameTracks s s') : TracksIn room s' := by
  refine ⟨fun index t' ht' => ?_, fun index t' ht' => ?_, fun index t' ht' hbind' => ?_⟩
  · obtain ⟨t, ht, hroom, -⟩ := hsame.remote index t' ht'
    exact hroom.trans (h.remote index t ht)
  · obtain ⟨t, ht, hroom, -⟩ := hsame.local_ index t' ht'
    exact hroom.trans (h.local_ index t ht)
  · obtain ⟨t, ht, hroom, -, hbind⟩ := hsame.local_ index t' ht'
    rw [hroom]
    exact h.bound index t ht (hbind hbind')

/-! ### Deliveries -/

theorem Sound.frame {s s' : EndpointInternal Selector} {outs : List InternalOutput}
    (h : Sound s) (hframe : Frame s s' outs) : Sound s' := by
  obtain ⟨-, -, hlocalId, hremoteId, hlocal, hremote, -, -⟩ := hframe
  exact ⟨by rw [hremoteId, hremote]; exact h.remoteTable,
    by rw [hlocalId, hlocal]; exact h.localTable,
    by rw [hremote]; exact h.remotePlain, by rw [hlocal]; exact h.localPlain⟩

/-- Replacing a remote track by one that reacted to an input. -/
theorem Sound.setRemote {s : EndpointInternal Selector} (h : Sound s) {index : Nat}
    {t u : EndpointRemoteTrack} (ht : s.remoteTracks.get index = some t) (hid : u.id = t.id)
    (hplain : EndpointRemoteTrack.Plain t.queue → EndpointRemoteTrack.Plain u.queue) :
    Sound { s with remoteTracks := s.remoteTracks.set index u } := by
  refine ⟨h.remoteTable.set ht hid, h.localTable, fun j v hu => ?_, h.localPlain⟩
  by_cases hj : j = index
  · subst hj
    change (s.remoteTracks.set j u).get j = some v at hu
    rw [TaskGroup.get_set_self] at hu
    cases hu
    exact hplain (h.remotePlain j t ht)
  · change (s.remoteTracks.set index u).get j = some v at hu
    rw [TaskGroup.get_set_ne _ _ hj] at hu
    exact h.remotePlain j v hu

theorem Sound.setLocal {s : EndpointInternal Selector} (h : Sound s) {index : Nat}
    {t u : EndpointLocalTrack Selector} (ht : s.localTracks.get index = some t)
    (hid : u.track = t.track)
    (hplain : EndpointLocalTrack.Plain t.queue → EndpointLocalTrack.Plain u.queue) :
    Sound { s with localTracks := s.localTracks.set index u } := by
  refine ⟨h.remoteTable, h.localTable.set ht hid, h.remotePlain, fun j v hu => ?_⟩
  by_cases hj : j = index
  · subst hj
    change (s.localTracks.set j u).get j = some v at hu
    rw [TaskGroup.get_set_self] at hu
    cases hu
    exact hplain (h.localPlain j t ht)
  · change (s.localTracks.set index u).get j = some v at hu
    rw [TaskGroup.get_set_ne _ _ hj] at hu
    exact h.localPlain j v hu

/-- The removal of a local track and of its pair. -/
theorem Sound.removeLocal {s s' : EndpointInternal Selector} (h : Sound s) {index : Nat}
    {t : EndpointLocalTrack Selector} (ht : s.localTracks.get index = some t)
    (hgone : ∀ j, s'.localTracks.get j = if j = index then none else s.localTracks.get j)
    (hlocalId : s'.localTracksId = s.localTracksId.remove1 t.track)
    (hremoteId : s'.remoteTracksId = s.remoteTracksId)
    (hremote : s'.remoteTracks = s.remoteTracks) : Sound s' := by
  refine ⟨by rw [hremoteId, hremote]; exact h.remoteTable, ?_,
    by rw [hremote]; exact h.remotePlain, fun j u hu => ?_⟩
  · rw [hlocalId]
    exact h.localTable.remove1 ht hgone
  · rw [hgone] at hu
    split at hu
    · cases hu
    · exact h.localPlain j u hu

section

variable {env : Env Selector}

/-- An input other than a broadcast reaches a remote track: the tables stay exact. -/
theorem Sound.toRemote {s : EndpointInternal Selector} (h : Sound s) (now : Instant)
    (index : Nat) (told : RemoteTrack.Input)
    (hroutine : EndpointRemoteTrack.isBroadcast told = false) :
    ∃ s', s.toRemote now index told = .ok s' ∧ Sound s' ∧
      (∀ room, TracksIn room s → TracksIn room s') ∧ s'.joined = s.joined := by
  cases hget : s.remoteTracks.get index with
  | none =>
    refine ⟨s, ?_, h, fun _ => id, rfl⟩
    simp [EndpointInternal.toRemote, TaskGroup.onEvent, hget, bind, Except.bind]
  | some t =>
    obtain ⟨t', ht'⟩ := EndpointRemoteTrack.onEvent_ok_of_routine now t hroutine
    have hreacts := EndpointRemoteTrack.onEvent_reacts ht'
    refine ⟨{ s with remoteTracks := s.remoteTracks.set index t' }, ?_,
      h.setRemote hget hreacts.id hreacts.plain,
      fun room hin => ⟨fun j u hu => ?_, hin.local_, hin.bound⟩, rfl⟩
    · simp [EndpointInternal.toRemote, TaskGroup.onEvent_of_get hget ht', bind, Except.bind]
    · change (s.remoteTracks.set index t').get j = some u at hu
      by_cases hj : j = index
      · subst hj
        rw [TaskGroup.get_set_self] at hu
        cases hu
        exact (hreacts.room hroutine).trans (hin.remote j t hget)
      · rw [TaskGroup.get_set_ne _ _ hj] at hu
        exact hin.remote j u hu

variable (env) in
/-- An input other than a broadcast reaches a local track: the tables stay exact. -/
theorem Sound.toLocal {s : EndpointInternal Selector} (h : Sound s) (now : Instant)
    (index : Nat) (told : LocalTrack.Input)
    (hroutine : EndpointLocalTrack.isBroadcast told = false) :
    ∃ s', s.toLocal env now index told = .ok s' ∧ Sound s' ∧
      (∀ room, TracksIn room s → TracksIn room s') ∧ s'.joined = s.joined := by
  cases hget : s.localTracks.get index with
  | none =>
    refine ⟨s, ?_, h, fun _ => id, rfl⟩
    simp [EndpointInternal.toLocal, TaskGroup.onEvent, hget, bind, Except.bind]
  | some t =>
    obtain ⟨t', ht'⟩ := EndpointLocalTrack.onEvent_ok_of_routine env.selector env.timestampMs now
      t hroutine
    have hreacts := EndpointLocalTrack.onEvent_reacts _ _ ht'
    refine ⟨{ s with localTracks := s.localTracks.set index t' }, ?_,
      h.setLocal hget hreacts.track hreacts.plain,
      fun room hin => ⟨hin.remote, fun j u hu => ?_, fun j u hu hbind => ?_⟩, rfl⟩
    · simp [EndpointInternal.toLocal, TaskGroup.onEvent_of_get hget ht', bind, Except.bind]
    all_goals
      change (s.localTracks.set index t').get j = some u at hu
      by_cases hj : j = index
    · subst hj
      rw [TaskGroup.get_set_self] at hu
      cases hu
      exact (hreacts.room hroutine).trans (hin.local_ j t hget)
    · rw [TaskGroup.get_set_ne _ _ hj] at hu
      exact hin.local_ j u hu
    · subst hj
      rw [TaskGroup.get_set_self] at hu
      cases hu
      exact hreacts.bind (hin.bound j t hget) hbind
    · rw [TaskGroup.get_set_ne _ _ hj] at hu
      exact hin.bound j u hu hbind

/-! ### Turns -/

/-- The turn is for a remote track that is about to be removed. -/
def removes (s : EndpointInternal Selector) : Pick → Bool
  | .remoteTracks index =>
      match s.remoteTracks.get index with
      | some t => t.isEmpty
      | none => false
  | _ => false

theorem onRemoteOutput_ok (s : EndpointInternal Selector) (index : Nat) (id : RemoteTrackId)
    {out : RemoteTrack.Output} (h : ∀ kind, out ≠ .stopped kind) :
    ∃ s', s.onRemoteOutput index id out = .ok s' := by
  cases out with
  | stopped kind => exact absurd rfl (h kind)
  | _ => exact ⟨_, rfl⟩

/-- A turn for a remote track that stays. -/
theorem Sound.turnRemote {s : EndpointInternal Selector} (h : Sound s) {index : Nat}
    (hkeep : s.removes (.remoteTracks index) = false) :
    ∃ s', s.popRemoteTracks index = .ok s' ∧ Sound s' := by
  have hok : ∃ s', s.popRemoteTracks index = .ok s' := by
    unfold popRemoteTracks
    cases hpop : s.remoteTracks.popOutput index with
    | none => exact ⟨s, rfl⟩
    | some popped =>
      obtain ⟨out, group⟩ := popped
      obtain ⟨t, ht, hout⟩ := TaskGroup.popOutput_eq_some hpop
      simp only [(h.remoteTable.indexed index t ht).2]
      refine onRemoteOutput_ok _ index t.id fun kind hstop => ?_
      rcases hout with ⟨rest, hqueue, -⟩ | ⟨hempty, -, -⟩
      · refine h.remotePlain index t ht kind ?_
        rw [show t.queue = out :: rest from hqueue, hstop]
        exact List.mem_cons_self ..
      · simp only [removes, ht] at hkeep
        rw [show t.isEmpty = true from hempty] at hkeep
        cases hkeep
  obtain ⟨s', hs'⟩ := hok
  refine ⟨s', hs', ?_⟩
  rcases popRemoteTracks_cases hs' with ⟨-, rfl⟩ | ⟨t, id, ht, -, -, hcase⟩
  · exact h
  · rcases hcase with ⟨out, rest, outs, hqueue, -, hframe, -⟩ | ⟨hgone, -, -⟩
    · have hset := h.setRemote (u := { t with queue := rest }) ht rfl fun hplain kind hmem =>
        hplain kind (by rw [hqueue]; exact List.mem_cons_of_mem _ hmem)
      exact hset.frame hframe
    · rcases hgone with ⟨kind, hqueue⟩ | hempty
      · refine absurd ?_ (h.remotePlain index t ht kind)
        rw [hqueue]
        exact List.mem_singleton.mpr rfl
      · simp only [removes, ht, hempty] at hkeep
        cases hkeep

/-- A turn for a local track; its removal takes its pair with it. -/
theorem Sound.turnLocal {s : EndpointInternal Selector} (h : Sound s) (index : Nat) :
    ∃ s', s.popLocalTracks index = .ok s' ∧ Sound s' := by
  have hok : ∃ s', s.popLocalTracks index = .ok s' := by
    unfold popLocalTracks
    cases hpop : s.localTracks.popOutput index with
    | none => exact ⟨s, rfl⟩
    | some popped =>
      obtain ⟨out, group⟩ := popped
      obtain ⟨t, ht, hout⟩ := TaskGroup.popOutput_eq_some hpop
      simp only [(h.localTable.indexed index t ht).2]
      cases out with
      | onResourceEmpty =>
        rcases hout with ⟨rest, hqueue, -⟩ | ⟨hempty, -, rfl⟩
        · refine absurd ?_ (h.localPlain index t ht)
          rw [show t.queue = .onResourceEmpty :: rest from hqueue]
          exact List.mem_cons_self ..
        · obtain ⟨group, hgroup⟩ := TaskGroup.removeTask_of_isEmpty ht hempty
            "local track queue should empty on drop"
          simp only [onLocalOutput, hgroup]
          exact ⟨_, rfl⟩
      | _ => exact ⟨_, rfl⟩
  obtain ⟨s', hs'⟩ := hok
  refine ⟨s', hs', ?_⟩
  rcases popLocalTracks_cases hs' with ⟨-, rfl⟩ | ⟨t, id, ht, hid, -, hcase⟩
  · exact h
  · rcases hcase with ⟨out, rest, outs, hqueue, -, hframe, -⟩ | ⟨-, hgone, hframe⟩
    · have hset := h.setLocal (u := { t with queue := rest }) ht rfl fun hplain hmem =>
        hplain (by rw [hqueue]; exact List.mem_cons_of_mem _ hmem)
      exact hset.frame hframe
    · obtain rfl : id = t.track :=
        Option.some.inj (hid.symm.trans (h.localTable.indexed index t ht).2)
      exact h.removeLocal ht hgone hframe.localTracksId hframe.remoteTracksId hframe.remoteTracks

variable (env) in
theorem Sound.turnAllocator {s : EndpointInternal Selector} (h : Sound s) (now : Instant) :
    ∃ s', s.popBitrateAllocator env now = .ok s' ∧ Sound s' := by
  unfold popBitrateAllocator
  cases hpop : s.bitrateAllocator.popOutput with
  | none => exact ⟨s, rfl, h⟩
  | some popped =>
    obtain ⟨out, allocator⟩ := popped
    have hframe : Frame s { s with bitrateAllocator := allocator } [] :=
      ⟨rfl, rfl, rfl, rfl, rfl, rfl, rfl, (List.append_nil _).symm⟩
    have hsound := h.frame hframe
    cases out with
    | bweConfig current desired => exact ⟨_, rfl, hsound.frame (frame_push _ _)⟩
    | remoteTrack track action =>
      dsimp only
      split
      · exact ⟨_, rfl, hsound⟩
      · rename_i index _
        obtain ⟨s', hs', hsound', -⟩ := hsound.toRemote now index (.bitrateAllocation action) rfl
        exact ⟨s', hs', hsound'⟩
    | localTrack track action =>
      dsimp only
      split
      · exact ⟨_, rfl, hsound⟩
      · rename_i index _
        obtain ⟨s', hs', hsound', -⟩ :=
          hsound.toLocal env now index (.bitrateAllocation action) rfl
        exact ⟨s', hs', hsound'⟩

variable (env) in
/-- **A turn that removes no remote track** does not panic and keeps both tables exact. -/
theorem Sound.turn {s : EndpointInternal Selector} (h : Sound s) (now : Instant) {pick : Pick}
    (hkeep : s.removes pick = false) : ∃ s', s.popTask env now pick = .ok s' ∧ Sound s' := by
  cases pick with
  | bitrateAllocator => exact h.turnAllocator env now
  | localTracks index => exact h.turnLocal index
  | remoteTracks index => exact h.turnRemote hkeep

/-- No remote track has been told to stop. -/
def RemotesUp (s : EndpointInternal Selector) : Prop :=
  ∀ index t, s.remoteTracks.get index = some t → t.shutdown = false

theorem SameTracks.remotesUp {s s' : EndpointInternal Selector} (h : SameTracks s s')
    (hup : RemotesUp s) : RemotesUp s' := by
  intro index t' ht'
  obtain ⟨t, ht, -, hshutdown⟩ := h.remote index t' ht'
  exact hshutdown.trans (hup index t ht)

theorem RemotesUp.removes {s : EndpointInternal Selector} (hup : RemotesUp s) (pick : Pick) :
    s.removes pick = false := by
  cases pick with
  | remoteTracks index =>
    simp only [EndpointInternal.removes]
    split
    · rename_i t ht
      simp [EndpointRemoteTrack.isEmpty, hup index t ht]
    · rfl
  | _ => rfl

variable (env) in
/-- Turns keep the tables exact while no remote track is stopping. -/
theorem Sound.popTasks (now : Instant) (schedule : Schedule) {s : EndpointInternal Selector}
    (h : Sound s) (hup : RemotesUp s) :
    ∃ s', EndpointInternal.popTasks env now schedule s = .ok s' ∧ Sound s' := by
  induction schedule generalizing s with
  | nil => exact ⟨s, rfl, h⟩
  | cons pick rest ih =>
    obtain ⟨s₁, hs₁, hsound⟩ := h.turn env now (hup.removes pick)
    obtain ⟨s', hs', hsound'⟩ := ih hsound ((popTask_same hs₁).remotesUp hup)
    exact ⟨s', Except.bind_eq_ok.mpr ⟨s₁, hs₁, hs'⟩, hsound'⟩

/-- `popAll` is one long schedule. -/
theorem popAll_eq_popTasks (env : Env Selector) (now : Instant) (schedule : Schedule) {s : EndpointInternal Selector}
    (hok : ∀ schedule, ∃ s', EndpointInternal.popTasks env now schedule s = .ok s') :
    ∃ longer, EndpointInternal.popAll env now schedule s =
      EndpointInternal.popTasks env now longer s := by
  obtain ⟨s₁, hs₁⟩ := hok schedule
  obtain ⟨s₂, hs₂⟩ := hok (schedule ++ s₁.allocatorTurns)
  obtain ⟨s₃, hs₃⟩ := hok (schedule ++ s₁.allocatorTurns ++ s₂.localTurns)
  refine ⟨schedule ++ s₁.allocatorTurns ++ s₂.localTurns ++ s₃.remoteTurns, ?_⟩
  rw [popTasks_append, hs₃]
  rw [popTasks_append, hs₂] at hs₃
  rw [popTasks_append, hs₁] at hs₂
  simp only [bind, Except.bind] at hs₂ hs₃
  simp only [EndpointInternal.popAll, hs₁, hs₂, hs₃, bind, Except.bind]

variable (env) in
theorem Sound.popAll (now : Instant) (schedule : Schedule) {s : EndpointInternal Selector}
    (h : Sound s) (hup : RemotesUp s) :
    ∃ s', EndpointInternal.popAll env now schedule s = .ok s' ∧ Sound s' := by
  obtain ⟨longer, hlonger⟩ := popAll_eq_popTasks env now schedule fun schedule => by
    obtain ⟨s', hs', -⟩ := h.popTasks env now schedule hup
    exact ⟨s', hs'⟩
  rw [hlonger]
  exact h.popTasks env now longer hup

/-! ### Broadcasts -/

variable (env) in
/-- A broadcast that every track takes reaches each of them once and keeps the tables. -/
theorem Sound.broadcast {s : EndpointInternal Selector} (h : Sound s) (now : Instant)
    (toLocals : LocalTrack.Input) (toRemotes : RemoteTrack.Input)
    (hlocal : ∀ index t, s.localTracks.get index = some t → ∃ t',
      EndpointLocalTrack.onEvent env.selector env.timestampMs now toLocals t = .ok t')
    (hremote : ∀ index t, s.remoteTracks.get index = some t → ∃ t',
      EndpointRemoteTrack.onEvent now toRemotes t = .ok t') :
    ∃ s', s.broadcast env now toLocals toRemotes = .ok s' ∧ Sound s' ∧
      s'.joined = s.joined ∧ s'.shutdown = s.shutdown ∧
      TaskGroup.Image (EndpointLocalTrack.onEvent env.selector env.timestampMs now toLocals)
        s.localTracks s'.localTracks ∧
      TaskGroup.Image (EndpointRemoteTrack.onEvent now toRemotes)
        s.remoteTracks s'.remoteTracks := by
  obtain ⟨localTracks, hlocals, hlocalImage⟩ := h.localTable.broadcast hlocal
  obtain ⟨remoteTracks, hremotes, hremoteImage⟩ := h.remoteTable.broadcast hremote
  refine ⟨{ s with localTracks := localTracks, remoteTracks := remoteTracks },
    Except.bind_eq_ok.mpr ⟨_, hlocals, Except.bind_eq_ok.mpr ⟨_, hremotes, rfl⟩⟩,
    ⟨?_, ?_, ?_, ?_⟩, rfl, rfl, hlocalImage, hremoteImage⟩
  · exact h.remoteTable.image hremoteImage fun t t' ht' =>
      (EndpointRemoteTrack.onEvent_reacts ht').id
  · exact h.localTable.image hlocalImage fun t t' ht' =>
      (EndpointLocalTrack.onEvent_reacts _ _ ht').track
  · intro index t' ht'
    obtain ⟨t, ht, hhandle⟩ := hremoteImage.exists_before ht'
    exact (EndpointRemoteTrack.onEvent_reacts hhandle).plain (h.remotePlain index t ht)
  · intro index t' ht'
    obtain ⟨t, ht, hhandle⟩ := hlocalImage.exists_before ht'
    exact (EndpointLocalTrack.onEvent_reacts _ _ hhandle).plain (h.localPlain index t ht)

variable (env) in
/-- Every track of a room can leave it. -/
theorem TracksIn.leave_ok {s : EndpointInternal Selector} {room : ClusterRoomHash}
    (hin : TracksIn (some room) s) (now : Instant) :
    (∀ index t, s.localTracks.get index = some t → ∃ t',
      EndpointLocalTrack.onEvent env.selector env.timestampMs now .leaveRoom t = .ok t') ∧
    ∀ index t, s.remoteTracks.get index = some t → ∃ t',
      EndpointRemoteTrack.onEvent now .leaveRoom t = .ok t' := by
  refine ⟨fun index t ht => ?_, fun index t ht => ?_⟩
  · refine EndpointLocalTrack.onEvent_ok _ _ now (fun _ heq => by cases heq) fun _ => ?_
    rw [hin.local_ index t ht]
    rfl
  · refine EndpointRemoteTrack.onEvent_ok now (fun _ heq => by cases heq) fun _ => ?_
    rw [hin.remote index t ht]
    rfl

variable (env) in
/-- Every track outside of rooms can join one. -/
theorem TracksIn.join_ok {s : EndpointInternal Selector} (hin : TracksIn none s)
    (now : Instant) (room : ClusterRoomHash) :
    (∀ index t, s.localTracks.get index = some t → ∃ t',
      EndpointLocalTrack.onEvent env.selector env.timestampMs now (.joinRoom room) t = .ok t') ∧
    ∀ index t, s.remoteTracks.get index = some t → ∃ t',
      EndpointRemoteTrack.onEvent now (.joinRoom room) t = .ok t' := by
  refine ⟨fun index t ht => ?_, fun index t ht => ?_⟩
  · have hunbound : t.bind = none := by
      cases hbind : t.bind with
      | none => rfl
      | some source =>
        have hroom := hin.bound index t ht (by rw [hbind]; rfl)
        rw [hin.local_ index t ht] at hroom
        cases hroom
    exact EndpointLocalTrack.onEvent_ok _ _ now (fun _ _ => ⟨hin.local_ index t ht, hunbound⟩)
      (fun heq => by cases heq)
  · exact EndpointRemoteTrack.onEvent_ok now (fun _ _ => hin.remote index t ht)
      (fun heq => by cases heq)

variable (env) in
/-- All tracks leave the room they are in. -/
theorem Sound.broadcastLeave {s : EndpointInternal Selector} (h : Sound s) (now : Instant)
    {room : ClusterRoomHash} (hin : TracksIn (some room) s) :
    ∃ s', s.broadcast env now .leaveRoom .leaveRoom = .ok s' ∧ Sound s' ∧
      TracksIn none s' ∧ (RemotesUp s → RemotesUp s') ∧ s'.joined = s.joined ∧
      s'.shutdown = s.shutdown := by
  obtain ⟨s', hs', hsound, hjoined, hshutdown, hlocal, hremote⟩ := h.broadcast env now
    .leaveRoom .leaveRoom (hin.leave_ok env now).1 (hin.leave_ok env now).2
  refine ⟨s', hs', hsound, ⟨?_, ?_, ?_⟩, ?_, hjoined, hshutdown⟩
  · intro index t' ht'
    obtain ⟨t, ht, hhandle⟩ := hremote.exists_before ht'
    cases EndpointRemoteTrack.onEvent_reacts hhandle with
    | leave hbefore hafter => exact hafter
    | silent hinput => cases hinput
  · intro index t' ht'
    obtain ⟨t, ht, hhandle⟩ := hlocal.exists_before ht'
    cases EndpointLocalTrack.onEvent_reacts _ _ hhandle with
    | leave hbefore hafter => exact hafter
    | keep hinput | attach hinput | detach hinput => cases hinput
  · intro index t' ht' hbound
    obtain ⟨t, ht, hhandle⟩ := hlocal.exists_before ht'
    exact (EndpointLocalTrack.onEvent_reacts _ _ hhandle).bind (hin.bound index t ht) hbound
  · intro hup index t' ht'
    obtain ⟨t, ht, hhandle⟩ := hremote.exists_before ht'
    cases EndpointRemoteTrack.onEvent_reacts hhandle with
    | leave _ _ hsame => exact hsame.trans (hup index t ht)
    | silent hinput => cases hinput

variable (env) in
/-- All tracks enter a room. -/
theorem Sound.broadcastJoin {s : EndpointInternal Selector} (h : Sound s) (now : Instant)
    (room : ClusterRoomHash) (hin : TracksIn none s) :
    ∃ s', s.broadcast env now (.joinRoom room) (.joinRoom room) = .ok s' ∧ Sound s' ∧
      TracksIn (some room) s' ∧ s'.joined = s.joined ∧ s'.shutdown = s.shutdown := by
  obtain ⟨s', hs', hsound, hjoined, hshutdown, hlocal, hremote⟩ := h.broadcast env now
    (.joinRoom room) (.joinRoom room) (hin.join_ok env now room).1 (hin.join_ok env now room).2
  refine ⟨s', hs', hsound, ⟨?_, ?_, ?_⟩, hjoined, hshutdown⟩
  · intro index t' ht'
    obtain ⟨t, ht, hhandle⟩ := hremote.exists_before ht'
    cases EndpointRemoteTrack.onEvent_reacts hhandle with
    | join hbefore hafter => exact hafter
    | silent hinput => cases hinput
  · intro index t' ht'
    obtain ⟨t, ht, hhandle⟩ := hlocal.exists_before ht'
    cases EndpointLocalTrack.onEvent_reacts _ _ hhandle with
    | join hbefore hbind heq =>
      rw [heq]
    | keep hinput | attach hinput | detach hinput => cases hinput
  · intro index t' ht' hbound
    obtain ⟨t, ht, hhandle⟩ := hlocal.exists_before ht'
    exact (EndpointLocalTrack.onEvent_reacts _ _ hhandle).bind (hin.bound index t ht) hbound

/-! ### Operations -/

/-- The tables are exact, and every track is in the endpoint's room. -/
structure TablesInv (s : EndpointInternal Selector) : Prop where
  sound : Sound s
  tracksIn : TracksIn s.inRoom s

theorem TablesInv.frame {s s' : EndpointInternal Selector} {outs : List InternalOutput}
    (h : TablesInv s) (hframe : Frame s s' outs) : TablesInv s' := by
  refine ⟨h.sound.frame hframe, ?_⟩
  rw [inRoom, hframe.joined]
  exact h.tracksIn.same (SameTracks.frame hframe)

theorem TablesInv.quiet {s s' : EndpointInternal Selector} (h : TablesInv s)
    (hquiet : Quiet s s') : TablesInv s' := by
  obtain ⟨outs, hframe, -⟩ := hquiet
  exact h.frame hframe

theorem RemotesUp.quiet {s s' : EndpointInternal Selector} (h : RemotesUp s)
    (hquiet : Quiet s s') : RemotesUp s' := by
  obtain ⟨outs, hframe, -⟩ := hquiet
  exact (SameTracks.frame hframe).remotesUp h

variable (env) in
theorem TablesInv.leaveRoom {s : EndpointInternal Selector} (h : TablesInv s) (now : Instant)
    (schedule : Schedule) (hup : s.joined.isSome = true → RemotesUp s) :
    ∃ s', s.leaveRoom env now schedule = .ok s' ∧ TablesInv s' ∧ s'.joined = none := by
  unfold EndpointInternal.leaveRoom
  cases hjoined : s.joined with
  | none => exact ⟨s, rfl, h, hjoined⟩
  | some joined =>
    have hroom : s.inRoom = some joined.hash := by
      rw [inRoom, hjoined]
      rfl
    have hin : TracksIn (some joined.hash) { s with joined := none } := by
      rw [← hroom]
      exact ⟨h.tracksIn.remote, h.tracksIn.local_, h.tracksIn.bound⟩
    have hsound : Sound { s with joined := none } :=
      ⟨h.sound.remoteTable, h.sound.localTable, h.sound.remotePlain, h.sound.localPlain⟩
    obtain ⟨s₁, hs₁, hsound₁, hin₁, hup₁, hjoined₁, -⟩ := hsound.broadcastLeave env now hin
    have hup' : RemotesUp s₁ := hup₁ (hup (by rw [hjoined]; rfl))
    obtain ⟨s₂, hs₂, hsound₂⟩ := hsound₁.popAll env now schedule hup'
    have hnone : s₂.joined = none := (popAll_passes hs₂).joined.trans hjoined₁
    refine ⟨s₂.push (s₂.leaveOutputs now joined),
      Except.bind_eq_ok.mpr ⟨s₁, hs₁, Except.bind_eq_ok.mpr ⟨s₂, hs₂, rfl⟩⟩, ?_, hnone⟩
    have hinv : TablesInv s₂ := by
      refine ⟨hsound₂, ?_⟩
      rw [inRoom, hnone]
      exact hin₁.same (popAll_same hs₂)
    exact hinv.frame (s₂.frame_push _)

variable (env) in
theorem TablesInv.joinRoom {s : EndpointInternal Selector} (h : TablesInv s) (now : Instant)
    (schedule : Schedule) (req : WaitJoin) (hup : s.joined.isSome = true → RemotesUp s) :
    ∃ s', s.joinRoom env now schedule req = .ok s' ∧ TablesInv s' := by
  obtain ⟨s₁, hs₁, hinv₁, hnone⟩ := (h.frame (s.frame_push [.rpcRes req.reqId
    (.joinRoom (.ok ()))])).leaveRoom env now schedule hup
  have hin₁ := hinv₁.tracksIn
  rw [inRoom, hnone] at hin₁
  let s₂ := { s₁ with joined := some (joinedBy env s req) }.push
    (s₁.joinOutputs now (joinedBy env s req).hash req)
  have hsound₂ : Sound s₂ := ⟨hinv₁.sound.remoteTable, hinv₁.sound.localTable,
    hinv₁.sound.remotePlain, hinv₁.sound.localPlain⟩
  have hin₂ : TracksIn none s₂ := ⟨hin₁.remote, hin₁.local_, hin₁.bound⟩
  obtain ⟨s', hs', hsound', hin', hjoined', -⟩ :=
    hsound₂.broadcastJoin env now (joinedBy env s req).hash hin₂
  refine ⟨s', Except.bind_eq_ok.mpr ⟨s₁, hs₁, hs'⟩, hsound', ?_⟩
  rw [inRoom, hjoined']
  exact hin'

/-- The shutdown of an endpoint without remote tracks. -/
theorem TablesInv.onShutdown (env : Env Selector) {s : EndpointInternal Selector}
    (h : TablesInv s) (now : Instant) (schedule : Schedule)
    (hnone : s.shutdown = false → ∀ index, s.remoteTracks.get index = none) :
    ∃ s', s.onShutdown env now schedule = .ok s' ∧ TablesInv s' := by
  unfold EndpointInternal.onShutdown
  split
  · exact ⟨s, rfl, h⟩
  · rename_i hup
    have hnone := hnone (by simpa using hup)
    obtain ⟨localTracks, hlocals⟩ := TaskGroup.onAll_ok fun index t
      (_ : s.localTracks.get index = some t) => EndpointLocalTrack.onShutdown_ok now t
    obtain ⟨remoteTracks, hremotes⟩ := TaskGroup.onAll_ok fun index t
      (_ : s.remoteTracks.get index = some t) => EndpointRemoteTrack.onShutdown_ok now t
    have hlocalImage := TaskGroup.onAll_image hlocals
    have hremoteImage := TaskGroup.onAll_image hremotes
    let s₁ := { s with shutdown := true, localTracks := localTracks, remoteTracks := remoteTracks }
    have hempty : ∀ index, s₁.remoteTracks.get index = none := by
      intro index
      rcases hremoteImage index with ⟨-, hnone'⟩ | ⟨t, -, ht, -⟩
      · exact hnone'
      · rw [hnone index] at ht
        cases ht
    have hsound₁ : Sound s₁ := by
      refine ⟨?_, ?_, ?_, ?_⟩
      · refine h.sound.remoteTable.congr fun index id => ?_
        rw [hnone index, show remoteTracks.get index = none from hempty index]
      · exact h.sound.localTable.image hlocalImage fun t t' ht' =>
          (EndpointLocalTrack.onShutdown_eq_ok ht').1
      · intro index t ht
        rw [hempty index] at ht
        cases ht
      · intro index t' ht'
        obtain ⟨t, ht, hhandle⟩ := hlocalImage.exists_before ht'
        have hplain := h.sound.localPlain index t ht
        obtain ⟨-, -, ⟨-, rfl⟩ | ⟨-, -, -, -, hadds⟩ | ⟨-, room, -, -, -, hadds⟩⟩ :=
          EndpointLocalTrack.onShutdown_eq_ok hhandle
        · exact hplain
        · exact hadds.plain hplain
        · exact hadds.plain hplain
    have hup₁ : RemotesUp s₁ := by
      intro index t ht
      rw [hempty index] at ht
      cases ht
    obtain ⟨s₂, hs₂, hsound₂⟩ := hsound₁.popAll env now schedule hup₁
    obtain ⟨hnoRemote, hnoLocal⟩ := popAll_removes hs₂
      (fun index t ht => by
        rw [hempty index] at ht
        cases ht)
      (fun index t' ht' => by
        obtain ⟨t, -, hhandle⟩ := hlocalImage.exists_before ht'
        exact (EndpointLocalTrack.onShutdown_eq_ok hhandle).2.1)
    have hin₂ : ∀ room, TracksIn room s₂ := fun room =>
      ⟨fun index t ht => absurd ht (hnoRemote index t),
        fun index t ht => absurd ht (hnoLocal index t),
        fun index t ht => absurd ht (hnoLocal index t)⟩
    have hpopped : ∀ s', s' = s₂ ∨ (∃ joined, s' = { s₂ with joined := none }.push
        (s₂.leaveOutputs now joined)) → TablesInv s' := by
      rintro s' (rfl | ⟨joined, rfl⟩)
      · exact ⟨hsound₂, hin₂ _⟩
      · have hleft : TablesInv { s₂ with joined := none } :=
          ⟨⟨hsound₂.remoteTable, hsound₂.localTable, hsound₂.remotePlain, hsound₂.localPlain⟩,
            ⟨(hin₂ none).remote, (hin₂ none).local_, (hin₂ none).bound⟩⟩
        exact hleft.frame (frame_push _ _)
    cases hjoined : s₂.joined with
    | none =>
      refine ⟨s₂, ?_, hpopped s₂ (Or.inl rfl)⟩
      refine Except.bind_eq_ok.mpr ⟨_, hlocals, Except.bind_eq_ok.mpr ⟨_, hremotes,
        Except.bind_eq_ok.mpr ⟨s₂, hs₂, ?_⟩⟩⟩
      rw [hjoined]
    | some joined =>
      refine ⟨_, ?_, hpopped _ (Or.inr ⟨joined, rfl⟩)⟩
      refine Except.bind_eq_ok.mpr ⟨_, hlocals, Except.bind_eq_ok.mpr ⟨_, hremotes,
        Except.bind_eq_ok.mpr ⟨s₂, hs₂, ?_⟩⟩⟩
      rw [hjoined]

variable (env) in
theorem TablesInv.onTick {s : EndpointInternal Selector} (h : TablesInv s) (now : Instant) :
    ∃ s', s.onTick env now = .ok s' ∧ TablesInv s' := by
  obtain ⟨localTracks, hlocals⟩ : ∃ localTracks, s.localTracks.onAll (fun t =>
      .ok (EndpointLocalTrack.onTick env.selector env.timestampMs now t)) = .ok localTracks :=
    TaskGroup.onAll_ok fun _ _ _ => ⟨_, rfl⟩
  have himage := TaskGroup.onAll_image hlocals
  have hkeeps : ∀ index t', localTracks.get index = some t' →
      ∃ t, s.localTracks.get index = some t ∧ t.Keeps t' := by
    intro index t' ht'
    obtain ⟨t, ht, hhandle⟩ := himage.exists_before ht'
    cases hhandle
    exact ⟨t, ht, EndpointLocalTrack.onTick_keeps _ _ t now⟩
  refine ⟨_, Except.bind_eq_ok.mpr ⟨localTracks, hlocals, rfl⟩, ⟨?_, ?_, ?_, ?_⟩, ?_, ?_, ?_⟩
  · exact h.sound.remoteTable
  · refine h.sound.localTable.image himage fun t t' ht' => ?_
    cases ht'
    exact (EndpointLocalTrack.onTick_keeps _ _ t now).track
  · exact h.sound.remotePlain
  · intro index t' ht'
    obtain ⟨t, ht, hkeeps⟩ := hkeeps index t' ht'
    obtain ⟨extra, hadds, -⟩ := hkeeps.adds
    exact hadds.plain (h.sound.localPlain index t ht)
  · exact h.tracksIn.remote
  · intro index t' ht'
    obtain ⟨t, ht, hkeeps⟩ := hkeeps index t' ht'
    exact hkeeps.room.trans (h.tracksIn.local_ index t ht)
  · intro index t' ht' hbound
    obtain ⟨t, ht, hkeeps⟩ := hkeeps index t' ht'
    rw [hkeeps.room]
    exact h.tracksIn.bound index t ht (hkeeps.bound ▸ hbound)

theorem TablesInv.toRemote {s : EndpointInternal Selector} (h : TablesInv s) (now : Instant)
    (index : Nat) (told : RemoteTrack.Input)
    (hroutine : EndpointRemoteTrack.isBroadcast told = false) :
    ∃ s', s.toRemote now index told = .ok s' ∧ TablesInv s' := by
  obtain ⟨s', hs', hsound, hin, hjoined⟩ := h.sound.toRemote now index told hroutine
  refine ⟨s', hs', hsound, ?_⟩
  rw [inRoom, hjoined]
  exact hin _ h.tracksIn

variable (env) in
theorem TablesInv.toLocal {s : EndpointInternal Selector} (h : TablesInv s) (now : Instant)
    (index : Nat) (told : LocalTrack.Input)
    (hroutine : EndpointLocalTrack.isBroadcast told = false) :
    ∃ s', s.toLocal env now index told = .ok s' ∧ TablesInv s' := by
  obtain ⟨s', hs', hsound, hin, hjoined⟩ := h.sound.toLocal env now index told hroutine
  refine ⟨s', hs', hsound, ?_⟩
  rw [inRoom, hjoined]
  exact hin _ h.tracksIn

/-- A new remote track, under an id that no other track has. -/
theorem TablesInv.withRemote {s : EndpointInternal Selector} (h : TablesInv s) (hint : Nat)
    {track : RemoteTrackId} (name : TrackName) (trackMeta : TrackMeta)
    (hfresh : ∀ index t, s.remoteTracks.get index = some t → t.id ≠ track) :
    TablesInv (s.withRemote hint track name trackMeta) := by
  have hnew : ∀ index t, (s.withRemote hint track name trackMeta).remoteTracks.get index = some t →
      (t.queue = [] ∧ t.room = s.inRoom) ∨ s.remoteTracks.get index = some t := by
    intro index t ht
    change (s.remoteTracks.addTask hint _).get index = some t at ht
    rw [TaskGroup.get_addTask] at ht
    split at ht
    · cases ht
      exact Or.inl ⟨rfl, rfl⟩
    · exact Or.inr ht
  refine ⟨⟨?_, h.sound.localTable, ?_, h.sound.localPlain⟩, ?_, h.tracksIn.local_,
    h.tracksIn.bound⟩
  · exact h.sound.remoteTable.addTask
      (t := .new s.inRoom track name trackMeta s.cfg.record) hint hfresh
  · intro index t ht
    rcases hnew index t ht with ⟨hqueue, -⟩ | hold
    · rw [hqueue]
      simp [EndpointRemoteTrack.Plain]
    · exact h.sound.remotePlain index t hold
  · intro index t ht
    rcases hnew index t ht with ⟨-, hroom⟩ | hold
    · exact hroom
    · exact h.tracksIn.remote index t hold

/-- A new local track, under an id that no other track has. -/
theorem TablesInv.withLocal (env : Env Selector) {s : EndpointInternal Selector}
    (h : TablesInv s) (hint : Nat) {track : LocalTrackId} (kind : MediaKind)
    (hfresh : ∀ index t, s.localTracks.get index = some t → t.track ≠ track) :
    TablesInv (EndpointInternal.withLocal env s hint track kind) := by
  have hnew : ∀ index t,
      (EndpointInternal.withLocal env s hint track kind).localTracks.get index = some t →
      (t.queue = [] ∧ t.room = s.inRoom ∧ t.bind = none) ∨
        s.localTracks.get index = some t := by
    intro index t ht
    change (s.localTracks.addTask hint _).get index = some t at ht
    rw [TaskGroup.get_addTask] at ht
    split at ht
    · cases ht
      exact Or.inl ⟨rfl, rfl, rfl⟩
    · exact Or.inr ht
  refine ⟨⟨h.sound.remoteTable, ?_, h.sound.remotePlain, ?_⟩, h.tracksIn.remote, ?_, ?_⟩
  · exact h.sound.localTable.addTask (t := .new env.selector track kind s.inRoom) hint hfresh
  · intro index t ht
    rcases hnew index t ht with ⟨hqueue, -, -⟩ | hold
    · rw [hqueue]
      simp [EndpointLocalTrack.Plain]
    · exact h.sound.localPlain index t hold
  · intro index t ht
    rcases hnew index t ht with ⟨-, hroom, -⟩ | hold
    · exact hroom
    · exact h.tracksIn.local_ index t hold
  · intro index t ht hbound
    rcases hnew index t ht with ⟨-, -, hbind⟩ | hold
    · rw [hbind] at hbound
      cases hbound
    · exact h.tracksIn.bound index t hold hbound

end

/-! ### Steps -/

section

variable (env : Env Selector)

/-- No turn of a poll removes a remote track. -/
def pollKeeps (now : Instant) : Schedule → EndpointInternal Selector → Bool
  | [], _ => true
  | pick :: rest, s =>
      if s.queue.isEmpty then
        !s.removes pick &&
          match s.popTask env now pick with
          | .ok s' => pollKeeps now rest s'
          | .error _ => true
      else true

/-- If the input makes the endpoint leave a room, none of its remote tracks has ended. -/
def leavesNoEnded (s : EndpointInternal Selector) (input : Input) : Bool :=
  !(s.joined.isSome && (s.joins input || s.leaves input)) ||
    s.remoteTracks.all.all fun t => !t.shutdown

/-- The input removes no remote track: a poll reaches none that is about to go, a leave
    finds none that has ended, and a shutdown finds none at all. -/
def keepsRemotes (s : EndpointInternal Selector) (input : Input) : Bool :=
  (match input with
    | .poll now schedule => pollKeeps env now schedule s
    | _ => true) &&
  s.leavesNoEnded input &&
  (!closes input || s.shutdown || s.remoteTracks.all.isEmpty)

/-- A track starts under an id that no track of the endpoint has. -/
def startsFresh (s : EndpointInternal Selector) : Input → Bool
  | .transport _ _ _ (.remoteTrack track (.started ..)) =>
      s.remoteTracks.all.all fun t => t.id != track
  | .transport _ _ _ (.localTrack track (.started _)) =>
      s.localTracks.all.all fun t => t.track != track
  | _ => true

/-- No remote track is removed and no track is started twice. -/
def TracksStay : Contract (EndpointInternal Selector) Input InternalOutput :=
  fun _ s input => s.keepsRemotes env input = true ∧ s.startsFresh input = true

instance (history : History Input InternalOutput) (s : EndpointInternal Selector)
    (input : Input) : Decidable (TracksStay env history s input) :=
  inferInstanceAs (Decidable (_ ∧ _))

variable {env}

theorem keepsRemotes_eq_true {s : EndpointInternal Selector} {input : Input}
    (h : s.keepsRemotes env input = true) :
    s.leavesNoEnded input = true ∧
      (!closes input || s.shutdown || s.remoteTracks.all.isEmpty) = true :=
  have hparts := Bool.and_eq_true_iff.mp h
  ⟨(Bool.and_eq_true_iff.mp hparts.1).2, hparts.2⟩

theorem remotesUp_of_leavesNoEnded {s : EndpointInternal Selector} {input : Input}
    (h : s.leavesNoEnded input = true) (hinput : (s.joins input || s.leaves input) = true)
    (hjoined : s.joined.isSome = true) : RemotesUp s := by
  simp only [leavesNoEnded, hinput, hjoined, Bool.and_true, Bool.not_true, Bool.false_or] at h
  intro index t ht
  have := List.all_eq_true.mp h t (TaskGroup.mem_all_iff.mpr ⟨index, ht⟩)
  simpa using this

theorem TracksStay.remotesUp {history : History Input InternalOutput}
    {s : EndpointInternal Selector} {input : Input} (h : TracksStay env history s input)
    (hinput : (s.joins input || s.leaves input) = true) (hjoined : s.joined.isSome = true) :
    RemotesUp s :=
  remotesUp_of_leavesNoEnded (keepsRemotes_eq_true h.1).1 hinput hjoined

theorem TracksStay.noRemotes {history : History Input InternalOutput}
    {s : EndpointInternal Selector} {input : Input} (h : TracksStay env history s input)
    (hcloses : closes input = true) (hup : s.shutdown = false) (index : Nat) :
    s.remoteTracks.get index = none := by
  have hempty := (keepsRemotes_eq_true h.1).2
  rw [hcloses, hup, Bool.not_true, Bool.false_or, Bool.false_or] at hempty
  cases hget : s.remoteTracks.get index with
  | none => rfl
  | some t =>
    have hmem := TaskGroup.mem_all_iff.mpr ⟨index, hget⟩
    rw [List.isEmpty_iff.mp hempty] at hmem
    cases hmem

theorem TracksStay.pollKeeps {history : History Input InternalOutput}
    {s : EndpointInternal Selector} {now : Instant} {schedule : Schedule}
    (h : TracksStay env history s (.poll now schedule)) :
    EndpointInternal.pollKeeps env now schedule s = true := by
  have hkeeps : (EndpointInternal.pollKeeps env now schedule s && _ && _) = true := h.1
  rw [Bool.and_eq_true, Bool.and_eq_true] at hkeeps
  exact hkeeps.1.1

theorem TablesInv.poll {now : Instant} {schedule : Schedule} {s : EndpointInternal Selector}
    (h : TablesInv s) (hkeeps : EndpointInternal.pollKeeps env now schedule s = true) :
    ∃ s', EndpointInternal.poll env now schedule s = .ok s' ∧ TablesInv s' := by
  induction schedule generalizing s with
  | nil => exact ⟨s, rfl, h⟩
  | cons pick rest ih =>
    unfold EndpointInternal.poll
    unfold EndpointInternal.pollKeeps at hkeeps
    split
    · rename_i hidle
      rw [if_pos hidle, Bool.and_eq_true, Bool.not_eq_true'] at hkeeps
      obtain ⟨s₁, hs₁, hsound⟩ := h.sound.turn env now hkeeps.1
      have hinv : TablesInv s₁ := by
        refine ⟨hsound, ?_⟩
        rw [inRoom, (popTask_passes hs₁).joined]
        exact h.tracksIn.same (popTask_same hs₁)
      rw [hs₁] at hkeeps
      obtain ⟨s', hs', hinv'⟩ := ih hinv hkeeps.2
      exact ⟨s', Except.bind_eq_ok.mpr ⟨s₁, hs₁, hs'⟩, hinv'⟩
    · exact ⟨s, rfl, h⟩

/-- **A step that removes no remote track and starts none twice** keeps the tables exact
    and every track in the endpoint's room, and no track panics in it. -/
theorem TablesInv.step {history : History Input InternalOutput} {s : EndpointInternal Selector}
    {input : Input} (h : TablesInv s) (hok : TracksStay env history s input) :
    (∃ s', s.step env input = .ok s' ∧ TablesInv s') ∨
      s.step env input = .error ⟨"Should have previous state"⟩ := by
  have hup : ∀ s₁, (s.joins input || s.leaves input) = true → Quiet s s₁ →
      s₁.joined.isSome = true → RemotesUp s₁ := by
    intro s₁ hinput hquiet hjoined
    rw [hquiet.joined] at hjoined
    exact (hok.remotesUp hinput hjoined).quiet hquiet
  have hjoin : ∀ s₁ now schedule req, s.joins input = true → Quiet s s₁ →
      ∃ s', s₁.joinRoom env now schedule req = .ok s' ∧ TablesInv s' :=
    fun s₁ now schedule req hjoins hquiet =>
      (h.quiet hquiet).joinRoom env now schedule req (hup s₁ (by simp [hjoins]) hquiet)
  have hleave : ∀ s₁ now schedule, s.leaves input = true → Quiet s s₁ →
      ∃ s', s₁.leaveRoom env now schedule = .ok s' ∧ TablesInv s' := by
    intro s₁ now schedule hleaves hquiet
    obtain ⟨s', hs', hinv, -⟩ := (h.quiet hquiet).leaveRoom env now schedule
      (hup s₁ (by simp [hleaves]) hquiet)
    exact ⟨s', hs', hinv⟩
  have hshutdown : ∀ s₁ now schedule, closes input = true → Quiet s s₁ →
      ∃ s', s₁.onShutdown env now schedule = .ok s' ∧ TablesInv s' := by
    intro s₁ now schedule hcloses hquiet
    refine (h.quiet hquiet).onShutdown env now schedule fun hrunning index => ?_
    rw [hquiet.shutdown] at hrunning
    obtain ⟨outs, hframe, -⟩ := hquiet
    rw [hframe.remoteTracks]
    exact hok.noRemotes hcloses hrunning index
  have hpoll : ∀ now schedule, input = .poll now schedule →
      ∃ s', EndpointInternal.poll env now schedule s = .ok s' ∧ TablesInv s' := by
    rintro now schedule rfl
    exact h.poll hok.pollKeeps
  -- the step goes through, and each kind of step keeps the invariant
  rcases step_outcome
    (fun s₁ now schedule req hjoins hquiet =>
      (hjoin s₁ now schedule req hjoins hquiet).imp fun _ => And.left)
    (fun s₁ now schedule hleaves hquiet =>
      (hleave s₁ now schedule hleaves hquiet).imp fun _ => And.left)
    (fun s₁ now schedule hcloses hquiet =>
      (hshutdown s₁ now schedule hcloses hquiet).imp fun _ => And.left)
    (fun now schedule heq => (hpoll now schedule heq).imp fun _ => And.left)
    with ⟨s', hs'⟩ | hpanic
  · refine Or.inl ⟨s', hs', ?_⟩
    have hsame : ∀ {x : Except Panic (EndpointInternal Selector)}, x = .ok s' →
        (∃ s'', x = .ok s'' ∧ TablesInv s'') → TablesInv s' := by
      rintro x hx ⟨s'', hs'', hinv⟩
      rw [hx] at hs''
      cases hs''
      exact hinv
    cases step_effect hs' with
    | quiet _ hquiet => exact h.quiet hquiet
    | join hjoins hquiet h' => exact hsame h' (hjoin _ _ _ _ hjoins hquiet)
    | leave hleaves hquiet h' => exact hsame h' (hleave _ _ _ hleaves hquiet)
    | shutdown hcloses hquiet h' => exact hsame h' (hshutdown _ _ _ hcloses hquiet)
    | toRemote _ _ hroutine _ h' => exact hsame h' (h.toRemote _ _ _ hroutine)
    | toLocal _ _ hroutine h' => exact hsame h' (h.toLocal env _ _ _ hroutine)
    | startRemote h' =>
      refine hsame h' ((h.withRemote _ _ _ fun index t ht => ?_).toRemote _ _ _ rfl)
      have := List.all_eq_true.mp hok.2 t (TaskGroup.mem_all_iff.mpr ⟨index, ht⟩)
      simpa using this
    | startLocal hquiet h' =>
      refine hsame h' (((h.withLocal env _ _ fun index t ht => ?_).quiet hquiet).toLocal env
        _ _ _ rfl)
      have := List.all_eq_true.mp hok.2 t (TaskGroup.mem_all_iff.mpr ⟨index, ht⟩)
      simpa using this
    | tick h' => exact hsame h' (h.onTick env _)
    | poll h' => exact hsame h' (hpoll _ _ rfl)
  · exact Or.inr hpanic

theorem tablesInv_init (cfg : EndpointCfg) :
    TablesInv (EndpointInternal.new cfg : EndpointInternal Selector) := by
  refine ⟨⟨Exact.empty, Exact.empty, ?_, ?_⟩, ?_, ?_, ?_⟩ <;> rintro index t ⟨⟩

theorem TablesInv.dropFront {s : EndpointInternal Selector} (h : TablesInv s) :
    TablesInv { s with queue := s.queue.tail } :=
  ⟨⟨h.sound.remoteTable, h.sound.localTable, h.sound.remotePlain, h.sound.localPlain⟩,
    ⟨h.tracksIn.remote, h.tracksIn.local_, h.tracksIn.bound⟩⟩

/-! ### Runs -/

variable (env) in
/-- The step hands `LeaveRoom` to every track once if it leaves a room, and `JoinRoom`
    to every track that is left then once if it joins one. -/
structure RollCalls (s : EndpointInternal Selector) (input : Input) : Prop where
  leave : ∀ now, (s.joins input || s.leaves input) = true → s.joined.isSome = true →
    HandsOnce s.localTracksId s.localTracks
      (EndpointLocalTrack.onEvent env.selector env.timestampMs now .leaveRoom) ∧
    HandsOnce s.remoteTracksId s.remoteTracks (EndpointRemoteTrack.onEvent now .leaveRoom)
  join : ∀ s₁ s₂ now schedule room, s.joins input = true → Quiet s s₁ →
    s₁.leaveRoom env now schedule = .ok s₂ →
    HandsOnce s₂.localTracksId s₂.localTracks
      (EndpointLocalTrack.onEvent env.selector env.timestampMs now (.joinRoom room)) ∧
    HandsOnce s₂.remoteTracksId s₂.remoteTracks
      (EndpointRemoteTrack.onEvent now (.joinRoom room))

theorem TablesInv.rollCalls {history : History Input InternalOutput}
    {s : EndpointInternal Selector} {input : Input} (h : TablesInv s)
    (hok : TracksStay env history s input) : RollCalls env s input := by
  refine ⟨fun now hinput hjoined => ?_, fun s₁ s₂ now schedule room hjoins hquiet hs₂ => ?_⟩
  · obtain ⟨joined, hjoined⟩ := Option.isSome_iff_exists.mp hjoined
    have hin := h.tracksIn
    rw [inRoom, hjoined] at hin
    exact ⟨h.sound.localTable.broadcast (hin.leave_ok env now).1,
      h.sound.remoteTable.broadcast (hin.leave_ok env now).2⟩
  · obtain ⟨s', hs', hinv, hnone⟩ := (h.quiet hquiet).leaveRoom env now schedule fun hjoined =>
      (hok.remotesUp (by simp [hjoins]) (by rwa [hquiet.joined] at hjoined)).quiet hquiet
    rw [hs₂] at hs'
    cases hs'
    have hin := hinv.tracksIn
    rw [inRoom, hnone] at hin
    exact ⟨hinv.sound.localTable.broadcast (hin.join_ok env now room).1,
      hinv.sound.remoteTable.broadcast (hin.join_ok env now room).2⟩

end

/-- The claim about a run: both tables are exact at its end, every join and leave on the
    way reached every track once, and if it panicked, it was not in a track. -/
structure TablesKept (env : Env Selector) (cfg : EndpointCfg) (acts : List (Action Input)) :
    Prop where
  remoteTable : ∀ c, (machine env cfg).run acts = .ok c →
    Exact c.state.remoteTracksId c.state.remoteTracks EndpointRemoteTrack.id
  localTable : ∀ c, (machine env cfg).run acts = .ok c →
    Exact c.state.localTracksId c.state.localTracks EndpointLocalTrack.track
  rollCalls : ∀ before input after c, acts = before ++ .input input :: after →
    (machine env cfg).run before = .ok c → RollCalls env c.state input
  panics : ∀ panic, (machine env cfg).run acts = .error panic →
    panic = ⟨"Should have previous state"⟩

theorem tablesInv_run (env : Env Selector) (cfg : EndpointCfg) {acts : List (Action Input)}
    (hadm : (machine env cfg).Admits (TracksStay env) acts) :
    (∃ c, (machine env cfg).run acts = .ok c ∧ TablesInv c.state) ∨
      ∃ panic, (machine env cfg).run acts = .error panic ∧
        panic = ⟨"Should have previous state"⟩ := by
  refine run_outcome (TracksStay env) (fun _ s => TablesInv s) _ (tablesInv_init cfg)
    (fun history s input hinv hok => ?_) (fun _ _ hinv => hinv.dropFront) hadm
  rcases hinv.step hok with hstep | hpanic
  · exact Or.inl hstep
  · exact Or.inr ⟨_, hpanic, rfl⟩

/-- **The track tables.** In a run that removes no remote track and starts no track
    twice, the tables are bijections between the ids and the indexes of the tracks,
    and every join and leave reaches every track once. -/
theorem track_tables (env : Env Selector) (cfg : EndpointCfg) {acts : List (Action Input)}
    (hadm : (machine env cfg).Admits (TracksStay env) acts) : TablesKept env cfg acts := by
  have hinv : ∀ {before : List (Action Input)} {c},
      (machine env cfg).Admits (TracksStay env) before →
      (machine env cfg).run before = .ok c → TablesInv c.state := by
    intro before c hbefore hrun
    rcases tablesInv_run env cfg hbefore with ⟨c', hc', hinv⟩ | ⟨panic, hpanic, -⟩
    · rw [hrun] at hc'
      cases hc'
      exact hinv
    · rw [hrun] at hpanic
      cases hpanic
  refine ⟨fun c hrun => (hinv hadm hrun).sound.remoteTable,
    fun c hrun => (hinv hadm hrun).sound.localTable, ?_, fun panic hrun => ?_⟩
  · intro before input after c hacts hrun
    have hok := hadm before input after hacts c hrun
    subst hacts
    exact (hinv hadm.of_append hrun).rollCalls hok
  · rcases tablesInv_run env cfg hadm with ⟨c, hc, -⟩ | ⟨panic', hpanic, hmsg⟩
    · rw [hrun] at hc
      cases hc
    · rw [hrun] at hpanic
      cases hpanic
      exact hmsg

/-- A microphone track starts. -/
def startRemote (track : RemoteTrackId) (name : String) : Input :=
  .transport 0 [] 0 (.remoteTrack track (.started name 1 .defaultAudio))

/-- A client that publishes a track and views another one while it changes rooms. -/
def publishAndMove : List (Action Input) :=
  connect ++ [Action.input (joinRequest "room1"), .input (startRemote 1 "audio"),
    .input (.transport 0 [] 0 (.localTrack 5 (.started .video))),
    .input (.rpc 0 [] 2 (.localTrack 5 (.attach ⟨"other", "video"⟩ ⟨1, 2, 2, none, none⟩))),
    .input (joinRequest "room2"), .input (.rpc 0 [] 3 .leaveRoom)]

theorem track_tables_publishAndMove :
    (∃ c, (machine Env.passAll rootCfg).run publishAndMove = .ok c) ∧
      TablesKept Env.passAll rootCfg publishAndMove :=
  ⟨⟨_, rfl⟩, track_tables Env.passAll rootCfg
    (show (machine Env.passAll rootCfg).Admits (TracksStay Env.passAll) publishAndMove from
      AdmitsFrom.admits (by decide))⟩

/-- A client that ends its track, and whose outputs are polled until the track is removed. -/
def endTrack : List (Action Input) :=
  connect ++ [Action.input (joinRequest "room"), .input (startRemote 1 "audio"),
    .input (.transport 0 [] 0 (.remoteTrack 1 .ended))] ++
    (List.replicate 12 [.input (.poll 0 [.remoteTracks 0, .remoteTracks 0]), .pop]).flatten

/-- The client starts another track, which gets the index of the first, and leaves. -/
def reuseIndex : List (Action Input) :=
  endTrack ++ [Action.input (startRemote 2 "audio"), .input (.rpc 0 [] 2 .leaveRoom)]

/-- An ended track is removed but keeps its pair.  With a second track at its index the
    leave reaches that track twice, and the second time it panics. -/
theorem ended_track_keeps_pair :
    (∃ c, (machine Env.passAll rootCfg).run endTrack = .ok c ∧
      c.state.remoteTracksId.get1 1 = some 0 ∧ c.state.remoteTracks.get 0 = none ∧
      ¬ TablesKept Env.passAll rootCfg endTrack) ∧
    (machine Env.passAll rootCfg).run reuseIndex = .error ⟨"Must have room here"⟩ ∧
    ¬ TablesKept Env.passAll rootCfg reuseIndex := by
  have hpanic : (machine Env.passAll rootCfg).run reuseIndex
      = .error ⟨"Must have room here"⟩ := rfl
  refine ⟨⟨_, rfl, rfl, rfl, fun h => ?_⟩, hpanic, fun h => ?_⟩
  · obtain ⟨t, ht, -⟩ := ((h.remoteTable _ rfl).forth 1 0).mp rfl
    cases ht
  · have hmsg := h.panics _ hpanic
    revert hmsg
    decide

end EndpointInternal

end MediaServer.Endpoint
