import MediaServer.Connector.SqlStorage
import MediaServer.Lib.Execution
import Mathlib.Data.List.Dedup
import Mathlib.Data.List.Perm.Subperm

/-!
# The hook events of a request

A request that cannot be answered is sent again, so its hook events are wanted once: when it is
answered.  The storage remembers which requests it has answered, but it queues hook events while
it processes a request, before operations that may still fail.  Those that were queued before
such a failure stay in the queue, and the next delivery queues them again.

The events of a request come out once as long as no operation fails after the first hook event:
after the beginning of a leave, after a room was found missing, after a join is complete but for
its entry in the list of events.
-/

namespace MediaServer.Connector.Sql

open Fallible Execution

namespace Storage

variable {Params : Type}

/-- The hook event for a new room, if the room is one. -/
def startedHook (s : Storage Params) (ts : Nat) (app room : String) :
    List (AppId × HookEvent Params) :=
  if (s.rooms.find (RoomRow.isOpen app room)).isNone then
    [(app, ⟨s.node, ts, .room app room .started⟩)]
  else []

/-- Nobody is in the room. -/
def nobodyOnline (s : Storage Params) (app room : String) : Bool :=
  (s.rooms.find (RoomRow.isOpen app room)).all fun found => s.onlinePeersCount found.1 = 0

/-- The room events of a request that takes the storage from `s` to `s'`. -/
def roomHooks (s s' : Storage Params) (ts : Nat) (app : String) :
    PeerAction Params → List (AppId × HookEvent Params)
  | .notice _ _ => []
  | .stats _ => []
  | .join room peer =>
    s.startedHook ts app room ++ [(app, ⟨s.node, ts, .room app room (.peerJoined peer)⟩)]
  | .leave room peer =>
    [(app, ⟨s.node, ts, .room app room (.peerLeaved peer)⟩)] ++ s.startedHook ts app room ++
      if s'.nobodyOnline app room then [(app, ⟨s.node, ts, .room app room .allPeersLeaved⟩)]
      else []

theorem roomHooks_notice (s s' : Storage Params) (ts : Nat) (app : String) (kind : Notice)
    (params : Params) : s.roomHooks s' ts app (.notice kind params) = [] := rfl

theorem roomHooks_join (s s' : Storage Params) (ts : Nat) (app room peer : String) :
    s.roomHooks s' ts app (.join room peer) =
      s.startedHook ts app room ++
        [(app, ⟨s.node, ts, .room app room (.peerJoined peer)⟩)] := rfl

theorem roomHooks_leave (s s' : Storage Params) (ts : Nat) (app room peer : String) :
    s.roomHooks s' ts app (.leave room peer) =
      [(app, ⟨s.node, ts, .room app room (.peerLeaved peer)⟩)] ++ s.startedHook ts app room ++
        if s'.nobodyOnline app room then [(app, ⟨s.node, ts, .room app room .allPeersLeaved⟩)]
        else [] := rfl

/-- Whether an operation may fail without harm: nothing has been queued before it. -/
def Harmless (s : Storage Params) (app : String) : PeerAction Params → DbOp → Prop
  | .notice _ _, _ => True
  | .stats _, _ => True
  | .join room _, op =>
    op = .sessionFind ∨ op = .sessionInsert ∨ op = .roomFind ∨
      ((s.rooms.find (RoomRow.isOpen app room)).isSome ∧ op ≠ .eventInsert)
  | .leave _ _, op => op = .sessionFind ∨ op = .sessionInsert

/-- What the hook events and the answers depend on. -/
structure Same (s s' : Storage Params) : Prop where
  hooks : s'.hookEvents = s.hookEvents
  lru : s'.lru = s.lru
  node : s'.node = s.node
  rooms : s'.rooms = s.rooms

theorem Same.refl (s : Storage Params) : Same s s := ⟨rfl, rfl, rfl, rfl⟩

theorem Same.trans {s s' s'' : Storage Params} (h : Same s s') (h' : Same s' s'') : Same s s'' :=
  ⟨h'.hooks.trans h.hooks, h'.lru.trans h.lru, h'.node.trans h.node, h'.rooms.trans h.rooms⟩

section

variable {fails : DbOp → Bool}

/-- The computation queues nothing and leaves the rooms alone; if it fails then in one of the
    given operations. -/
def Keeps {α : Type} (fails : DbOp → Bool) (ops : List DbOp) (x : Db Params α) : Prop :=
  ∀ s, wp x (fun _ s' => Same s s')
    (fun e s' => e = .db ∧ Same s s' ∧ ∃ op ∈ ops, fails op = true) s

theorem keeps_upsertSession (now : Nat) (app : String) (session : UInt64) :
    Keeps fails [.sessionFind, .sessionInsert]
      (upsertSession fails now app session : Db Params Unit) := by
  intro s
  rw [wp_upsertSession]
  split
  case isTrue hfails => exact ⟨rfl, .refl s, _, by simp, hfails⟩
  case isFalse =>
    split
    case isTrue => exact .refl s
    case isFalse =>
      split
      case isTrue hfails => exact ⟨rfl, .refl s, _, by simp, hfails⟩
      case isFalse => exact ⟨rfl, rfl, rfl, rfl⟩

theorem keeps_upsertPeer (now room : Nat) (peer : String) :
    Keeps fails [.peerFind, .peerInsert] (upsertPeer fails now room peer : Db Params Nat) := by
  intro s
  rw [wp_upsertPeer]
  split
  case isTrue hfails => exact ⟨rfl, .refl s, _, by simp, hfails⟩
  case isFalse =>
    split
    case h_1 => exact .refl s
    case h_2 =>
      split
      case isTrue hfails => exact ⟨rfl, .refl s, _, by simp, hfails⟩
      case isFalse => exact ⟨rfl, rfl, rfl, rfl⟩

theorem keeps_upsertPeerSession (now room peer : Nat) (session : UInt64) (eventTs : Nat) :
    Keeps fails [.peerSessionFind, .peerSessionInsert]
      (upsertPeerSession fails now room peer session eventTs : Db Params Nat) := by
  intro s
  rw [wp_upsertPeerSession]
  split
  case isTrue hfails => exact ⟨rfl, .refl s, _, by simp, hfails⟩
  case isFalse =>
    split
    case h_1 => exact .refl s
    case h_2 =>
      split
      case isTrue hfails => exact ⟨rfl, .refl s, _, by simp, hfails⟩
      case isFalse => exact ⟨rfl, rfl, rfl, rfl⟩

theorem keeps_leavePeerSession (peer : Nat) (session : UInt64) (eventTs : Nat) :
    Keeps fails [.peerSessionFind, .peerSessionSave]
      (leavePeerSession fails peer session eventTs : Db Params Unit) := by
  intro s
  rw [wp_leavePeerSession]
  split
  case isTrue hfails => exact ⟨rfl, .refl s, _, by simp, hfails⟩
  case isFalse =>
    split
    case h_1 =>
      split
      case isTrue hfails => exact ⟨rfl, .refl s, _, by simp, hfails⟩
      case isFalse => exact ⟨rfl, rfl, rfl, rfl⟩
    case h_2 => exact .refl s

theorem keeps_insertEvent (now : Nat) (src : NodeId) (eventTs : Nat) (session : UInt64)
    (event : String) (about : PeerAction Params) :
    Keeps fails [.eventInsert] (insertEvent fails now src eventTs session event about) := by
  intro s
  rw [wp_insertEvent]
  split
  case isTrue hfails => exact ⟨rfl, .refl s, _, by simp, hfails⟩
  case isFalse => exact ⟨rfl, rfl, rfl, rfl⟩

/-- A computation whose operations do not fail returns. -/
theorem Keeps.ok {α : Type} {ops : List DbOp} {x : Db Params α} (h : Keeps fails ops x)
    (hops : ∀ op ∈ ops, fails op = false) (s : Storage Params) {E : Fault → Storage Params → Prop} :
    wp x (fun _ s' => Same s s') E s := by
  refine wp_mono (h s) (fun _ _ hsame => hsame) ?_
  rintro e s' ⟨-, -, op, hop, hfails⟩
  rw [hops op hop] at hfails
  cases hfails

/-- What `upsert_room` leaves behind: the room is open under the returned id, and a new room
    has been announced. -/
structure RoomOpened (s : Storage Params) (ts : Nat) (app room : String) (id : Nat)
    (s' : Storage Params) : Prop where
  hooks : s'.hookEvents = s.hookEvents ++ s.startedHook ts app room
  lru : s'.lru = s.lru
  node : s'.node = s.node
  isOpen : ∃ row, s'.rooms.find (RoomRow.isOpen app room) = some (id, row)

theorem roomOpened_upsertRoom (now ts : Nat) (app room : String) (s : Storage Params) :
    wp (upsertRoom fails now ts app room) (fun id s' => RoomOpened s ts app room id s')
      (fun e s' => e = .db ∧ s'.lru = s.lru ∧ ∃ op, fails op = true ∧
        ((op ∈ [.roomFind, .roomSave] ∧ s'.hookEvents = s.hookEvents) ∨
          (op = .roomInsert ∧ s.rooms.find (RoomRow.isOpen app room) = none))) s := by
  cases hfind : s.rooms.find (RoomRow.isOpen app room) with
  | some found =>
    obtain ⟨id, info⟩ := found
    have hstarted : s.startedHook ts app room = [] := by simp [startedHook, hfind]
    rw [wp_upsertRoom_some hfind]
    split
    case isTrue hfails => exact ⟨rfl, rfl, _, hfails, .inl ⟨by simp, rfl⟩⟩
    case isFalse =>
      split
      case isTrue =>
        split
        case isTrue hfails => exact ⟨rfl, rfl, _, hfails, .inl ⟨by simp, rfl⟩⟩
        case isFalse =>
          have hopen := Table.find_update (p := RoomRow.isOpen app room)
            (f := fun row => { row with lastPeerLeavedAt := none }) (fun _ => rfl) hfind id
          exact ⟨by simp [hstarted], rfl, rfl, hopen⟩
      case isFalse => exact ⟨by simp [hstarted], rfl, rfl, info, hfind⟩
  | none =>
    have hstarted : s.startedHook ts app room =
        [(app, ⟨s.node, ts, .room app room .started⟩)] := by simp [startedHook, hfind]
    rw [wp_upsertRoom_none hfind]
    split
    case isTrue hfails => exact ⟨rfl, rfl, _, hfails, .inl ⟨by simp, rfl⟩⟩
    case isFalse =>
      split
      case isTrue hfails => exact ⟨rfl, rfl, _, hfails, .inr ⟨rfl, rfl⟩⟩
      case isFalse =>
        exact ⟨by rw [hstarted], rfl, rfl, _, Table.find_insert hfind (by simp [RoomRow.isOpen])⟩

theorem Same.startedHook {s s' : Storage Params} (h : Same s s') (ts : Nat) (app room : String) :
    s'.startedHook ts app room = s.startedHook ts app room := by
  rw [Storage.startedHook, Storage.startedHook, h.rooms, h.node]

/-- A request is over: its hook events are there if it succeeded, and none if it failed. -/
def Once (s : Storage Params) (ts : Nat) (app : String) (action : PeerAction Params)
    (x : Db Params Unit) (s₁ : Storage Params) : Prop :=
  wp x (fun _ s' => s'.hookEvents = s.hookEvents ++ s.roomHooks s' ts app action ∧ s'.lru = s.lru)
    (fun e s' => e = .db → s'.hookEvents = s.hookEvents ∧ s'.lru = s.lru) s₁

theorem once_onJoin {s s₁ : Storage Params} {now : Nat} {src : NodeId} {ts : Nat} {app : String}
    {session : UInt64} {room peer : String} (hsame : Same s s₁)
    (hclean : ∀ op, fails op = true → s.Harmless app (.join room peer) op) :
    s.Once ts app (.join room peer) (onJoin fails now src ts app session room peer) s₁ := by
  have hevent : fails .eventInsert = false := by
    refine Bool.eq_false_iff.mpr ?_
    intro hfails
    have hharm := hclean _ hfails
    simp [Harmless] at hharm
  -- an operation other than the first ones fails only where the room was open
  have hopen : ∀ op, fails op = true → op ≠ .sessionFind → op ≠ .sessionInsert → op ≠ .roomFind →
      s.startedHook ts app room = [] := by
    intro op hfails h1 h2 h3
    have hharm := hclean op hfails
    simp only [Harmless, h1, h2, h3, false_or] at hharm
    simp [startedHook, Option.isSome_iff_ne_none.mp hharm.1]
  rw [Once, onJoin, wp_bind]
  refine wp_mono (roomOpened_upsertRoom now ts app room s₁) ?_ ?_
  · intro roomId s₂ hroom
    have hhooks₂ : s₂.hookEvents = s.hookEvents ++ s.startedHook ts app room := by
      rw [hroom.hooks, hsame.hooks, hsame.startedHook]
    have hlru₂ : s₂.lru = s.lru := hroom.lru.trans hsame.lru
    rw [wp_bind]
    refine wp_mono (keeps_upsertPeer now roomId peer s₂) ?_ ?_
    · intro peerId s₃ hsame₃
      rw [wp_bind]
      refine wp_mono (keeps_upsertPeerSession now roomId peerId session ts s₃) ?_ ?_
      · intro id s₄ hsame₄
        have hsame₂₄ := hsame₃.trans hsame₄
        rw [wp_bind, wp_pushRoom, wp_insertEvent, if_neg (by simp [hevent])]
        refine ⟨?_, hsame₂₄.lru.trans hlru₂⟩
        rw [roomHooks_join, hsame₂₄.hooks, hsame₂₄.node, hroom.node, hsame.node, hhooks₂, List.append_assoc]
      · rintro e s₄ ⟨rfl, hsame₄, op, hop, hfails⟩
        have hsame₂₄ := hsame₃.trans hsame₄
        have hnil := hopen op hfails (by rintro rfl; simp at hop) (by rintro rfl; simp at hop)
          (by rintro rfl; simp at hop)
        exact fun _ => ⟨by rw [hsame₂₄.hooks, hhooks₂, hnil, List.append_nil],
          hsame₂₄.lru.trans hlru₂⟩
    · rintro e s₃ ⟨rfl, hsame₃, op, hop, hfails⟩
      have hnil := hopen op hfails (by rintro rfl; simp at hop) (by rintro rfl; simp at hop)
        (by rintro rfl; simp at hop)
      exact fun _ => ⟨by rw [hsame₃.hooks, hhooks₂, hnil, List.append_nil],
        hsame₃.lru.trans hlru₂⟩
  · rintro e s₂ ⟨rfl, hlru, op, hfails, ⟨-, hhooks⟩ | ⟨rfl, hmissing⟩⟩
    · exact fun _ => ⟨hhooks.trans hsame.hooks, hlru.trans hsame.lru⟩
    · have hnil := hopen _ hfails (by simp) (by simp) (by simp)
      rw [hsame.rooms] at hmissing
      simp [startedHook, hmissing] at hnil

theorem once_onLeave {s s₁ : Storage Params} {now : Nat} {src : NodeId} {ts : Nat} {app : String}
    {session : UInt64} {room peer : String} (hsame : Same s s₁)
    (hclean : ∀ op, fails op = true → s.Harmless app (.leave room peer) op) :
    s.Once ts app (.leave room peer) (onLeave fails now src ts app session room peer) s₁ := by
  have hok : ∀ op, op ≠ .sessionFind → op ≠ .sessionInsert → fails op = false := by
    intro op h1 h2
    refine Bool.eq_false_iff.mpr ?_
    intro hfails
    exact (hclean op hfails).elim h1 h2
  rw [Once, onLeave, wp_bind, wp_pushRoom, wp_bind]
  refine wp_mono (roomOpened_upsertRoom now ts app room _) ?_ ?_
  · intro roomId s₂ hroom
    obtain ⟨row, hrow⟩ := hroom.isOpen
    rw [wp_bind]
    refine wp_mono ((keeps_upsertPeer now roomId peer).ok ?_ s₂) ?_ (fun _ _ h => h)
    · simp [hok]
    intro peerId s₃ hsame₃
    rw [wp_bind]
    refine wp_mono ((keeps_leavePeerSession peerId session ts).ok ?_ s₃) ?_ (fun _ _ h => h)
    · simp [hok]
    intro _ s₄ hsame₄
    have hsame₂₄ := hsame₃.trans hsame₄
    have hrow₄ : s₄.rooms.find (RoomRow.isOpen app room) = some (roomId, row) := by
      rw [hsame₂₄.rooms, hrow]
    have hlru₄ : s₄.lru = s.lru := by rw [hsame₂₄.lru, hroom.lru, ← hsame.lru]
    have hhooks₄ : s₄.hookEvents = s.hookEvents ++
        ([(app, ⟨s.node, ts, .room app room (.peerLeaved peer)⟩)] ++ s.startedHook ts app room) := by
      rw [hsame₂₄.hooks, hroom.hooks, ← List.append_assoc, ← hsame.hooks, ← hsame.node,
        ← hsame.startedHook]
      rfl
    have hnode₄ : s₄.node = s.node := by rw [hsame₂₄.node, hroom.node, ← hsame.node]
    rw [wp_bind, wp_query, if_neg (by simp [hok]), wp_bind, wp_leaveRoom]
    split
    case isTrue hzero =>
      have hopen := Table.find_update (p := RoomRow.isOpen app room)
        (f := fun row => { row with lastPeerLeavedAt := some now }) (fun _ => rfl) hrow₄ roomId
      obtain ⟨row', hrow'⟩ := hopen
      rw [if_neg (by simp [hok]), wp_insertEvent, if_neg (by simp [hok])]
      refine ⟨?_, hlru₄⟩
      have hnobody : ({ s₄ with
          rooms := s₄.rooms.update roomId fun row => { row with lastPeerLeavedAt := some now }
          hookEvents := s₄.hookEvents ++ [(app, ⟨s₄.node, ts, .room app room .allPeersLeaved⟩)]
          events := s₄.events.insert ⟨src, ts, session, now, "Leave", .leave room peer⟩ } :
          Storage Params).nobodyOnline app room = true := by
        simp only [nobodyOnline, hrow', Option.all_some]
        exact decide_eq_true hzero
      rw [roomHooks_leave, if_pos hnobody, hhooks₄, hnode₄, List.append_assoc, List.append_assoc]
    case isFalse hsome =>
      rw [wp_insertEvent, if_neg (by simp [hok])]
      refine ⟨?_, hlru₄⟩
      have hsomebody : ({ s₄ with
          events := s₄.events.insert ⟨src, ts, session, now, "Leave", .leave room peer⟩ } :
          Storage Params).nobodyOnline app room = false := by
        simp only [nobodyOnline, hrow₄, Option.all_some]
        exact decide_eq_false hsome
      rw [roomHooks_leave, hsomebody, hhooks₄]
      simp
  · rintro e s₂ ⟨-, -, op, hfails, ⟨hop, -⟩ | ⟨rfl, -⟩⟩
    · rw [hok op (by rintro rfl; simp at hop) (by rintro rfl; simp at hop)] at hfails
      cases hfails
    · rw [hok _ (by simp) (by simp)] at hfails
      cases hfails

/-- Every operation that fails may fail without harm. -/
def Clean (s : Storage Params) (fails : DbOp → Bool) (app : String) (action : PeerAction Params) :
    Prop :=
  ∀ op, fails op = true → s.Harmless app action op

theorem once_onPeerEvent {s : Storage Params} {now : Nat} {src : NodeId} {ts : Nat} {app : String}
    {session : UInt64} {action : PeerAction Params} (hclean : s.Clean fails app action) :
    s.Once ts app action (onPeerEvent fails now src ts app session action) s := by
  unfold Once onPeerEvent
  rw [wp_bind]
  refine wp_mono (keeps_upsertSession now app session s) ?_ ?_
  · intro _ s₁ hsame
    cases action with
    | notice kind params =>
      refine wp_mono (keeps_insertEvent now src ts session kind.name _ s₁) ?_ ?_
      · intro _ s' hsame'
        exact ⟨by simp [roomHooks_notice, (hsame.trans hsame').hooks], (hsame.trans hsame').lru⟩
      · rintro e s' ⟨rfl, hsame', -⟩
        exact fun _ => ⟨(hsame.trans hsame').hooks, (hsame.trans hsame').lru⟩
    | stats params =>
      intro hpanic
      cases hpanic
    | join room peer => exact once_onJoin hsame hclean
    | leave room peer => exact once_onLeave hsame hclean
  · rintro e s₁ ⟨rfl, hsame, -⟩
    exact fun _ => ⟨hsame.hooks, hsame.lru⟩

theorem lru_closeRooms (now : Nat) (rooms : List (Nat × RoomRow)) (s : Storage Params) :
    wp (closeRooms fails now rooms) (fun _ s' => s'.lru = s.lru) (fun _ s' => s'.lru = s.lru) s := by
  induction rooms generalizing s with
  | nil => rfl
  | cons found rooms ih =>
    rw [closeRooms, wp_bind, wp_exec]
    split
    case isTrue => rfl
    case isFalse =>
      rw [wp_bind, wp_pushRoom]
      exact ih _

theorem lru_onTick {now : Nat} {s s' : Storage Params} (h : onTick fails now s = some s') :
    s'.lru = s.lru := by
  have hwp : wp (closeExitedRooms fails now) (fun _ s' => s'.lru = s.lru)
      (fun _ s' => s'.lru = s.lru) s := by
    rw [closeExitedRooms, wp_bind, wp_get, wp_ite]
    split
    case isTrue => rfl
    case isFalse =>
      rw [wp_bind, wp_query]
      split
      case isTrue => rfl
      case isFalse => exact lru_closeRooms now _ s
  rw [wp] at hwp
  rw [onTick] at h
  split at h
  case h_1 hclose =>
    cases h
    rwa [hclose] at hwp
  case h_2 hclose =>
    cases h
    rwa [hclose] at hwp
  case h_3 => cases h

/-- What a delivery of a request can do. -/
theorem onEvent_cases {now : Nat} {key : RequestKey} {event : PeerEvent Params}
    {s s' : Storage Params} {response : Option PeerRes}
    (hclean : key ∉ s.lru → ∀ action, event.event = some action → s.Clean fails event.app action)
    (h : onEvent fails now key.1 key.2.1 key.2.2 event s = some (response, s')) :
    (key ∈ s.lru ∧ response = some {} ∧ s' = s) ∨
    (key ∉ s.lru ∧ response = none ∧ s'.hookEvents = s.hookEvents ∧ s'.lru = s.lru) ∨
    (key ∉ s.lru ∧ response = some {} ∧ s'.lru = lruPut s.lru key ∧
      ∃ action, event.event = some action ∧ s'.hookEvents = s.hookEvents ++
        (s.roomHooks s' key.2.1 event.app action ++
          [(event.app, ⟨key.1, key.2.1, .peer event⟩)])) := by
  rw [onEvent] at h
  split at h
  case isTrue hseen =>
    cases h
    exact .inl ⟨hseen, rfl, rfl⟩
  case isFalse hnew =>
    split at h
    case h_1 =>
      cases h
      exact .inr (.inl ⟨hnew, rfl, rfl, rfl⟩)
    case h_2 action haction =>
      have honce : s.Once key.2.1 event.app action
          (onPeerEvent fails now key.1 key.2.1 event.app event.sessionId action) s :=
        once_onPeerEvent (hclean hnew action haction)
      rw [Once, wp] at honce
      split at h
      case h_1 s₁ hres =>
        rw [hres] at honce
        obtain ⟨hhooks, hlru⟩ := honce
        cases h
        refine .inr (.inr ⟨hnew, rfl, by rw [hlru], action, haction, ?_⟩)
        rw [hhooks, List.append_assoc]
        rfl
      case h_2 s₁ hres =>
        rw [hres] at honce
        obtain ⟨hhooks, hlru⟩ := honce rfl
        cases h
        exact .inr (.inl ⟨hnew, rfl, hhooks, hlru⟩)
      case h_3 => cases h

end

end Storage

/-! ### Deliveries -/

/-- A request is delivered, or time passes; each time some operations fail. -/
inductive Call where
  | deliver (key : RequestKey) (now : Nat) (fails : DbOp → Bool)
  | tick (now : Nat) (fails : DbOp → Bool)

def Call.key? : Call → Option RequestKey
  | .deliver key _ _ => some key
  | .tick _ _ => none

/-- A delivery with what it met and what it left. -/
structure Delivery (Params : Type) where
  key : RequestKey
  before : Storage Params
  after : Storage Params
  response : Option Storage.PeerRes

/-- The hook events that the delivery queued. -/
def Delivery.hooks {Params : Type} (d : Delivery Params) : List (AppId × HookEvent Params) :=
  d.after.hookEvents.drop d.before.hookEvents.length

/-- A storage with the deliveries so far. -/
structure DeliveryRun (Params : Type) where
  storage : Storage Params
  log : List (Delivery Params)

namespace DeliveryRun

variable {Params : Type}

def start (node : NodeId) (roomDestroyAfterMs : Nat) : DeliveryRun Params :=
  ⟨.new node roomDestroyAfterMs, []⟩

/-- The requests are given with their keys: every delivery of a request carries the same event. -/
def step (requests : RequestKey → PeerEvent Params) (r : DeliveryRun Params) :
    Call → Option (DeliveryRun Params)
  | .deliver key now fails =>
    (Storage.onEvent fails now key.1 key.2.1 key.2.2 (requests key) r.storage).map fun result =>
      ⟨result.2, r.log ++ [⟨key, r.storage, result.2, result.1⟩]⟩
  | .tick now fails =>
    (Storage.onTick fails now r.storage).map fun storage => { r with storage }

/-- The hook events of all deliveries of a request. -/
def contributed (r : DeliveryRun Params) (key : RequestKey) : List (AppId × HookEvent Params) :=
  (r.log.filter fun d => d.key = key).flatMap Delivery.hooks

def Answered (r : DeliveryRun Params) (key : RequestKey) : Prop :=
  ∃ d ∈ r.log, d.key = key ∧ d.response.isSome

/-- The hook events that a delivery of a request should leave: those of the room and that of
    the peer. -/
def hooksOf (requests : RequestKey → PeerEvent Params) (d : Delivery Params)
    (action : PeerAction Params) : List (AppId × HookEvent Params) :=
  d.before.roomHooks d.after d.key.2.1 (requests d.key).app action ++
    [((requests d.key).app, ⟨d.key.1, d.key.2.1, .peer (requests d.key)⟩)]

/-- A delivery without an answer leaves no hook event, and all deliveries of a request that is
    answered leave together the hook events of one of them. -/
structure ExactlyOnce (requests : RequestKey → PeerEvent Params) (r : DeliveryRun Params) :
    Prop where
  unanswered : ∀ d ∈ r.log, d.response = none → d.hooks = []
  answered : ∀ key, r.Answered key → ∃ d ∈ r.log, d.key = key ∧ d.response.isSome ∧
    ∃ action, (requests key).event = some action ∧ r.contributed key = hooksOf requests d action

/-- The operations that fail in a delivery do so before anything has been queued. -/
def Clean (requests : RequestKey → PeerEvent Params) (r : DeliveryRun Params) : Call → Prop
  | .deliver key _ fails => key ∉ r.storage.lru → ∀ action, (requests key).event = some action →
      r.storage.Clean fails (requests key).app action
  | .tick _ _ => True

def keys (calls : List Call) : List RequestKey := (calls.filterMap Call.key?).dedup

/-- The storage knows which requests were answered, and those that were not have left nothing. -/
structure Tracked (requests : RequestKey → PeerEvent Params) (calls : List Call)
    (r : DeliveryRun Params) : Prop where
  once : r.ExactlyOnce requests
  known : ∀ key, key ∈ r.storage.lru ↔ r.Answered key
  silent : ∀ key, ¬ r.Answered key → r.contributed key = []
  nodup : r.storage.lru.Nodup
  called : ∀ key ∈ r.storage.lru, key ∈ keys calls

variable {requests : RequestKey → PeerEvent Params} {calls : List Call} {r r' : DeliveryRun Params}

theorem Tracked.length_le (h : Tracked requests calls r) :
    r.storage.lru.length ≤ (keys calls).length :=
  (List.subperm_of_subset h.nodup h.called).length_le

theorem mem_keys_append {key : RequestKey} (h : key ∈ keys calls) (call : Call) :
    key ∈ keys (calls ++ [call]) := by
  simp only [keys, List.mem_dedup, List.filterMap_append, List.mem_append] at h ⊢
  exact .inl h

theorem length_keys_le (calls : List Call) (call : Call) :
    (keys calls).length ≤ (keys (calls ++ [call])).length :=
  (List.subperm_of_subset (List.nodup_dedup _) fun _ hkey => mem_keys_append hkey call).length_le

/-- Nothing is forgotten while there is room. -/
theorem mem_lruPut {lru : List RequestKey} {key : RequestKey} (hlen : lru.length < LRU_CAPACITY)
    (hnew : key ∉ lru) : lruPut lru key = key :: lru := by
  rw [lruPut, List.erase_of_not_mem hnew]
  exact List.take_of_length_le hlen

/-- One more delivery. -/
theorem contributed_append (r : DeliveryRun Params) (s : Storage Params) (d : Delivery Params)
    (key : RequestKey) :
    (⟨s, r.log ++ [d]⟩ : DeliveryRun Params).contributed key =
      r.contributed key ++ if d.key = key then d.hooks else [] := by
  rw [contributed, List.filter_append, List.flatMap_append, contributed]
  split
  case isTrue hkey => simp [hkey]
  case isFalse hkey => simp [hkey]

theorem answered_append {s : Storage Params} {d : Delivery Params} {key : RequestKey} :
    (⟨s, r.log ++ [d]⟩ : DeliveryRun Params).Answered key ↔
      r.Answered key ∨ (d.key = key ∧ d.response.isSome) := by
  simp only [Answered, List.mem_append, List.mem_singleton]
  constructor
  · rintro ⟨d', hmem | rfl, hd⟩
    · exact .inl ⟨d', hmem, hd⟩
    · exact .inr hd
  · rintro (⟨d', hmem, hd⟩ | hd)
    · exact ⟨d', .inl hmem, hd⟩
    · exact ⟨d, .inr rfl, hd⟩

/-- A delivery that leaves no hook event and changes nothing about what was answered. -/
theorem Tracked.quiet {s : Storage Params} {d : Delivery Params} {call : Call}
    (h : Tracked requests calls r) (hhooks : d.hooks = [])
    (hanswer : d.response.isSome → r.Answered d.key) (hlru : s.lru = r.storage.lru) :
    Tracked requests (calls ++ [call]) ⟨s, r.log ++ [d]⟩ := by
  have hcontributed : ∀ key, (⟨s, r.log ++ [d]⟩ : DeliveryRun Params).contributed key =
      r.contributed key := by
    intro key
    rw [contributed_append, hhooks]
    simp
  have hanswered : ∀ key, (⟨s, r.log ++ [d]⟩ : DeliveryRun Params).Answered key ↔
      r.Answered key := by
    intro key
    rw [answered_append]
    constructor
    · rintro (hold | ⟨rfl, hnew⟩)
      · exact hold
      · exact hanswer hnew
    · exact .inl
  refine ⟨⟨?_, ?_⟩, ?_, ?_, hlru ▸ h.nodup, ?_⟩
  · intro d' hmem hnone
    rcases List.mem_append.mp hmem with hold | hnew
    · exact h.once.unanswered d' hold hnone
    · rw [List.mem_singleton.mp hnew, hhooks]
  · intro key hkey
    obtain ⟨d', hmem, hd'⟩ := h.once.answered key ((hanswered key).mp hkey)
    rw [hcontributed]
    exact ⟨d', List.mem_append_left _ hmem, hd'⟩
  · intro key
    rw [hlru, h.known, hanswered]
  · intro key hkey
    rw [hcontributed, h.silent key (fun hold => hkey ((hanswered key).mpr hold))]
  · intro key hkey
    rw [hlru] at hkey
    exact mem_keys_append (h.called key hkey) call

/-- The first delivery of a request that is answered. -/
theorem Tracked.answer {s : Storage Params} {d : Delivery Params} {call : Call}
    {action : PeerAction Params} (h : Tracked requests calls r)
    (hfirst : d.key ∉ r.storage.lru) (hresponse : d.response.isSome)
    (hlru : s.lru = d.key :: r.storage.lru) (hcall : call.key? = some d.key)
    (haction : (requests d.key).event = some action) (hhooks : d.hooks = hooksOf requests d action) :
    Tracked requests (calls ++ [call]) ⟨s, r.log ++ [d]⟩ := by
  have hnew : ¬ r.Answered d.key := fun hold => hfirst ((h.known d.key).mpr hold)
  refine ⟨⟨?_, ?_⟩, ?_, ?_, ?_, ?_⟩
  · intro d' hmem hnone
    rcases List.mem_append.mp hmem with hold | hlast
    · exact h.once.unanswered d' hold hnone
    · rw [List.mem_singleton.mp hlast] at hnone
      rw [hnone] at hresponse
      cases hresponse
  · intro key hkey
    rw [contributed_append]
    by_cases hsame : d.key = key
    · subst hsame
      refine ⟨d, by simp, rfl, hresponse, action, haction, ?_⟩
      rw [if_pos rfl, h.silent _ hnew, List.nil_append, hhooks]
    · have hold : r.Answered key := by
        rcases answered_append.mp hkey with hold | ⟨hlast, -⟩
        · exact hold
        · exact absurd hlast hsame
      obtain ⟨d', hmem, hd'⟩ := h.once.answered key hold
      rw [if_neg hsame, List.append_nil]
      exact ⟨d', List.mem_append_left _ hmem, hd'⟩
  · intro key
    rw [hlru, List.mem_cons, h.known, answered_append]
    constructor
    · rintro (rfl | hold)
      · exact .inr ⟨rfl, hresponse⟩
      · exact .inl hold
    · rintro (hold | ⟨rfl, -⟩)
      · exact .inr hold
      · exact .inl rfl
  · intro key hkey
    have hparts := mt answered_append.mpr hkey
    rw [not_or] at hparts
    have hother : d.key ≠ key := fun hsame => hparts.2 ⟨hsame, hresponse⟩
    rw [contributed_append, if_neg hother, List.append_nil, h.silent key hparts.1]
  · rw [hlru]
    exact List.nodup_cons.mpr ⟨hfirst, h.nodup⟩
  · intro key hkey
    rw [hlru, List.mem_cons] at hkey
    rcases hkey with rfl | hold
    · simp [keys, List.filterMap_append, hcall]
    · exact mem_keys_append (h.called key hold) call

theorem Tracked.step {call : Call} (h : Tracked requests calls r)
    (hcap : (keys (calls ++ [call])).length < LRU_CAPACITY) (hclean : Clean requests r call)
    (hstep : step requests r call = some r') : Tracked requests (calls ++ [call]) r' := by
  cases call with
  | deliver key now fails =>
    obtain ⟨⟨response, s⟩, hevent, rfl⟩ := Option.map_eq_some_iff.mp hstep
    rcases Storage.onEvent_cases hclean hevent with
      ⟨hseen, rfl, rfl⟩ | ⟨-, rfl, hhooks, hlru⟩ | ⟨hnew, rfl, hlru, action, haction, hhooks⟩
    · refine h.quiet ?_ (fun _ => (h.known key).mp hseen) rfl
      exact List.drop_length
    · refine h.quiet ?_ (fun hsome => absurd hsome (by simp)) hlru
      simp [Delivery.hooks, hhooks]
    · have hroom : r.storage.lru.length < LRU_CAPACITY :=
        Nat.lt_of_le_of_lt (Nat.le_trans h.length_le (length_keys_le calls _)) hcap
      refine h.answer hnew rfl (hlru.trans (mem_lruPut hroom hnew)) rfl haction ?_
      simp [Delivery.hooks, hhooks, hooksOf]
  | tick now fails =>
    obtain ⟨s, htick, rfl⟩ := Option.map_eq_some_iff.mp hstep
    have hlru := Storage.lru_onTick htick
    refine ⟨⟨h.once.unanswered, h.once.answered⟩, ?_, h.silent, ?_, ?_⟩
    · intro key
      rw [hlru]
      exact h.known key
    · rw [hlru]
      exact h.nodup
    · intro key hkey
      rw [hlru] at hkey
      exact mem_keys_append (h.called key hkey) _

theorem tracked_start (node : NodeId) (roomDestroyAfterMs : Nat) :
    Tracked requests [] (start node roomDestroyAfterMs) := by
  refine ⟨⟨?_, ?_⟩, ?_, ?_, List.nodup_nil, ?_⟩
  · intro d hmem
    cases hmem
  · rintro key ⟨d, hmem, -⟩
    cases hmem
  · intro key
    simp [start, Storage.new, Answered]
  · intro key _
    rfl
  · intro key hmem
    cases hmem

/-- In every run of deliveries whose failures are harmless, hook events come out exactly once. -/
theorem exactlyOnce (requests : RequestKey → PeerEvent Params) (node : NodeId)
    (roomDestroyAfterMs : Nat) (calls : List Call) (r : DeliveryRun Params)
    (hrun : Reaches (step requests) (Clean requests) (start node roomDestroyAfterMs) calls r)
    (hcap : (keys calls).length < LRU_CAPACITY) : r.ExactlyOnce requests := by
  have htracked := hrun.history
    (P := fun before r => (keys before).length < LRU_CAPACITY → Tracked requests before r) ?_ []
    (fun _ => tracked_start node roomDestroyAfterMs)
  · exact (htracked hcap).once
  · intro before r call r' hP hclean hstep hcap'
    exact (hP (Nat.lt_of_le_of_lt (length_keys_le before call) hcap')).step hcap' hclean hstep

/-- A session joins a room and leaves it. -/
def joinAndLeave (key : RequestKey) : PeerEvent Unit :=
  ⟨"app", 7, some (if key.2.2 = 0 then .join "room" "peer" else .leave "room" "peer")⟩

/-- The session cannot be written at first, then the request is answered twice. -/
def retriedJoin : List Call :=
  [.deliver (1, 0, 0) 0 (fun op => op = .sessionInsert), .deliver (1, 0, 0) 0 Storage.noFailure,
    .deliver (1, 0, 0) 0 Storage.noFailure]

theorem exactlyOnce_retriedJoin :
    ∃ r, exec (step joinAndLeave) (fun _ _ => true) (start 1 300000) retriedJoin = some r ∧
      r.ExactlyOnce joinAndLeave := by
  have hrun : (exec (step joinAndLeave) (fun _ _ => true) (start 1 300000) retriedJoin).isSome = true :=
    by decide
  obtain ⟨r, hr⟩ := Option.isSome_iff_exists.mp hrun
  refine ⟨r, hr, exactlyOnce joinAndLeave 1 300000 retriedJoin r ?_ (by decide)⟩
  refine reaches_of_all ?_ hr
  intro s call hcall
  simp only [retriedJoin, List.mem_cons, List.not_mem_nil, or_false] at hcall
  rcases hcall with rfl | rfl | rfl
  · intro _ action haction op hop
    cases haction
    exact .inr (.inl (of_decide_eq_true hop))
  · intro _ action _ op hop
    cases hop
  · intro _ action _ op hop
    cases hop

/-- The leaving of a session is announced, then the leave cannot be written down; it is announced
    again when the request is delivered again. -/
theorem leave_announced_twice :
    ¬ ∀ (requests : RequestKey → PeerEvent Unit) (node : NodeId) (roomDestroyAfterMs : Nat)
      (calls : List Call) (r : DeliveryRun Unit),
      Reaches (step requests) (fun _ _ => True) (start node roomDestroyAfterMs) calls r →
      (keys calls).length < LRU_CAPACITY → r.ExactlyOnce requests := by
  intro h
  have hrun : (exec (step joinAndLeave) (fun _ _ => true) (start 1 300000)
      [.deliver (1, 0, 0) 0 Storage.noFailure, .deliver (1, 0, 1) 1 (fun op => op = .eventInsert),
        .deliver (1, 0, 1) 2 Storage.noFailure]).any
      (fun r => r.log.any fun d => d.response.isNone && !d.hooks.isEmpty) = true := by
    decide
  obtain ⟨r, hr, hbad⟩ := (Option.any_eq_true _ _).mp hrun
  have honce := h _ _ _ _ r (reaches_of_all (fun _ _ _ => trivial) hr) (by decide)
  obtain ⟨d, hmem, hd⟩ := List.any_eq_true.mp hbad
  rw [Bool.and_eq_true] at hd
  have hnil := honce.unanswered d hmem (Option.isNone_iff_eq_none.mp hd.1)
  rw [hnil] at hd
  simp at hd

end DeliveryRun

end MediaServer.Connector.Sql
