import MediaServer.Connector.HookEvents
import MediaServer.Connector.RoomTables

/-!
# The life of a room

Sessions join rooms as peers and leave them again.  The storage should count the sessions in a
room, know since when an empty room is empty, keep one open room of a name, and announce the
beginning and the end of a room in turn.

A leave looks for a row of the session without asking whether the row has been left.  A session
that joins a room again as the same peer has two rows there, and its second leave finds the first
one: the second row stays online, and the room is never empty again.  A tick before the time that
a room may stand empty has passed once cannot compute the bound.  Everything holds in the runs in
which neither happens.
-/

namespace MediaServer.Connector.Sql

open Fallible Execution

/-! ### The announcements of a room -/

inductive Mark where
  | started
  | stopped

def markOf {Params : Type} (app room : String) (hook : AppId × HookEvent Params) : Option Mark :=
  match hook.2.event with
  | .room app' room' .started => if app' = app ∧ room' = room then some .started else none
  | .room app' room' .stopped => if app' = app ∧ room' = room then some .stopped else none
  | _ => none

/-- The beginnings and ends of a room. -/
def marks {Params : Type} (app room : String) (hooks : List (AppId × HookEvent Params)) :
    List Mark :=
  hooks.filterMap (markOf app room)

/-- A beginning, an end, a beginning, and so on. -/
def Alternates (l : List Mark) : Prop :=
  ∀ i mark, l[i]? = some mark → mark = if i % 2 = 0 then .started else .stopped

/-- The announcements alternate, and the last one tells whether the room is open. -/
structure Announced (l : List Mark) (isOpen : Prop) : Prop where
  alternates : Alternates l
  last : l.length % 2 = 1 ↔ isOpen

theorem Alternates.concat {l : List Mark} {mark : Mark} (h : Alternates l)
    (hmark : mark = if l.length % 2 = 0 then .started else .stopped) :
    Alternates (l ++ [mark]) := by
  intro i mark' hget
  rcases Nat.lt_trichotomy i l.length with hlt | rfl | hgt
  · rw [List.getElem?_append_left hlt] at hget
    exact h i mark' hget
  · rw [List.getElem?_concat_length] at hget
    cases hget
    exact hmark
  · rw [List.getElem?_eq_none (by simp; omega)] at hget
    cases hget

theorem Announced.begin {l : List Mark} {P Q : Prop} (h : Announced l P) (hP : ¬ P) (hQ : Q) :
    Announced (l ++ [Mark.started]) Q := by
  have hlen : l.length % 2 = 0 := by
    have hodd := mt h.last.mp hP
    omega
  refine ⟨h.alternates.concat (by rw [if_pos hlen]), ?_⟩
  rw [List.length_append, List.length_singleton]
  constructor
  · exact fun _ => hQ
  · intro _
    omega

theorem Announced.finish {l : List Mark} {P Q : Prop} (h : Announced l P) (hP : P) (hQ : ¬ Q) :
    Announced (l ++ [Mark.stopped]) Q := by
  have hlen : l.length % 2 = 1 := h.last.mpr hP
  refine ⟨h.alternates.concat (by rw [if_neg (by omega)]), ?_⟩
  rw [List.length_append, List.length_singleton]
  constructor
  · intro hodd
    omega
  · exact fun hq => absurd hq hQ

namespace Storage

variable {Params : Type}

def HasOpen (s : Storage Params) (app room : String) : Prop :=
  ∃ id row, s.rooms.get id = some row ∧ row.isOpen app room = true

theorem hasOpen_iff_find {s : Storage Params} {app room : String} :
    s.HasOpen app room ↔ ∃ found, s.rooms.find (RoomRow.isOpen app room) = some found := by
  constructor
  · rintro ⟨id, row, hget, hopen⟩
    exact Table.exists_find hget hopen
  · rintro ⟨⟨id, row⟩, hfind⟩
    obtain ⟨hget, hopen⟩ := Table.find_eq_some hfind
    exact ⟨id, row, hget, hopen⟩

/-- The mark of a room that is empty. -/
def Quiet (stays : List Stay) (emptySince : String → String → Option Nat) (room : RoomRow) : Prop :=
  (room.lastPeerLeavedAt.isSome ↔ present stays room.app room.room = 0) ∧
    ∀ since, room.lastPeerLeavedAt = some since → emptySince room.app room.room = some since

/-- The state of the storage, but for the mark of a room that is being joined. -/
structure Inv (after : Nat) (stays : List Stay) (emptySince : String → String → Option Nat)
    (joining : Option Nat) (s : Storage Params) : Prop where
  config : s.roomDestroyAfterMs = after
  linked : s.Linked stays
  announced : ∀ app room, Announced (marks app room s.hookEvents) (s.HasOpen app room)
  quiet : ∀ id room, s.rooms.get id = some room → some id ≠ joining → room.destroyedAt = none →
    Quiet stays emptySince room

variable {after : Nat} {stays : List Stay} {emptySince : String → String → Option Nat}
  {joining : Option Nat} {s : Storage Params}

theorem marks_concat (app room : String) (hooks : List (AppId × HookEvent Params))
    (hook : AppId × HookEvent Params) :
    marks app room (hooks ++ [hook]) = marks app room hooks ++ (markOf app room hook).toList := by
  rw [marks, List.filterMap_append, marks]
  cases hmark : markOf app room hook <;> simp [hmark]

/-- A hook event that is no announcement. -/
theorem Inv.push (h : Inv after stays emptySince joining s) (hook : AppId × HookEvent Params)
    (hmark : ∀ app room, markOf app room hook = none) :
    Inv after stays emptySince joining { s with hookEvents := s.hookEvents ++ [hook] } := by
  refine ⟨h.config, h.linked.congr rfl rfl rfl, ?_, h.quiet⟩
  intro app room
  rw [marks_concat, hmark, Option.toList_none, List.append_nil]
  exact h.announced app room

theorem Inv.insertEvent (h : Inv after stays emptySince joining s) (row : EventRow Params) :
    Inv after stays emptySince joining { s with events := s.events.insert row } :=
  ⟨h.config, h.linked.congr rfl rfl rfl, h.announced, h.quiet⟩

theorem Inv.insertSession (h : Inv after stays emptySince joining s) (rows : List SessionRow) :
    Inv after stays emptySince joining { s with sessions := rows } :=
  ⟨h.config, h.linked.congr rfl rfl rfl, h.announced, h.quiet⟩

/-- An update of a room that leaves it open or destroyed. -/
theorem hasOpen_update (id : Nat) {f : RoomRow → RoomRow}
    (hf : ∀ app room row, (f row).isOpen app room = row.isOpen app room) (app room : String) :
    ({ s with rooms := s.rooms.update id f } : Storage Params).HasOpen app room ↔
      s.HasOpen app room := by
  constructor
  · rintro ⟨id', row', hget, hopen⟩
    change (s.rooms.update id f).get id' = some row' at hget
    rw [Table.get_update] at hget
    split at hget
    case isTrue =>
      obtain ⟨row, hrow, rfl⟩ := Option.map_eq_some_iff.mp hget
      exact ⟨id', row, hrow, by rw [← hf, hopen]⟩
    case isFalse => exact ⟨id', row', hget, hopen⟩
  · rintro ⟨id', row, hget, hopen⟩
    by_cases hid : id' = id
    · refine ⟨id', f row, ?_, by rw [hf, hopen]⟩
      change (s.rooms.update id f).get id' = some (f row)
      rw [Table.get_update, if_pos hid, hget, Option.map_some]
    · refine ⟨id', row, ?_, hopen⟩
      change (s.rooms.update id f).get id' = some row
      rw [Table.get_update, if_neg hid, hget]

/-- The mark of a room is set or removed. -/
theorem Inv.markRoom (h : Inv after stays emptySince joining s) (id : Nat) (mark : Option Nat)
    (hjoining : joining = none ∨ joining = some id) :
    Inv after stays emptySince (some id)
      { s with rooms := s.rooms.update id fun row => { row with lastPeerLeavedAt := mark } } := by
  refine ⟨h.config, ?_, ?_, ?_⟩
  · refine h.linked.updateRoom id _ (fun _ => ⟨rfl, rfl⟩) (fun _ hnone => hnone) ?_
    rintro rowId row peer room hrow honline hpeer rfl hroom
    exact h.linked.onlineOpen rowId row peer room hrow honline hpeer hroom
  · intro app room
    have hopen := hasOpen_update (s := s) id
      (f := fun row => { row with lastPeerLeavedAt := mark }) (fun _ _ _ => rfl) app room
    exact ⟨(h.announced app room).alternates, (h.announced app room).last.trans hopen.symm⟩
  · intro id' room hget hother hopen
    have hne : id' ≠ id := fun heq => hother (congrArg some heq)
    change (s.rooms.update id _).get id' = some room at hget
    rw [Table.get_update, if_neg hne] at hget
    refine h.quiet id' room hget ?_ hopen
    rcases hjoining with rfl | rfl
    · simp
    · exact hother

theorem Inv.forget (h : Inv after stays emptySince none s) (id : Nat) :
    Inv after stays emptySince (some id) s :=
  ⟨h.config, h.linked, h.announced, fun id' room hget _ hopen => h.quiet id' room hget (by simp) hopen⟩

/-- The room that is being joined has its mark right again. -/
theorem Inv.settle {id : Nat} {room : RoomRow} (h : Inv after stays emptySince (some id) s)
    (hget : s.rooms.get id = some room) (hquiet : Quiet stays emptySince room) :
    Inv after stays emptySince none s := by
  refine ⟨h.config, h.linked, h.announced, ?_⟩
  intro id' room' hget' _ hopen
  by_cases hid : id' = id
  · subst hid
    cases hget.symm.trans hget'
    exact hquiet
  · exact h.quiet id' room' hget' (by simpa using hid) hopen

/-! ### Joining -/

/-- The room is there for a join. -/
structure Ready (s : Storage Params) (app room : String) (id : Nat) (row : RoomRow) : Prop where
  get : s.rooms.get id = some row
  isOpen : row.isOpen app room = true
  unmarked : row.lastPeerLeavedAt = none

theorem Inv.upsertRoom (h : Inv after stays emptySince none s) (now ts : Nat) (app room : String) :
    wp (upsertRoom noFailure now ts app room)
      (fun id s' => Inv after stays emptySince (some id) s' ∧ ∃ row, s'.Ready app room id row)
      (fun _ _ => False) s := by
  cases hfind : s.rooms.find (RoomRow.isOpen app room) with
  | some found =>
    obtain ⟨id, info⟩ := found
    obtain ⟨hget, hopen⟩ := Table.find_eq_some hfind
    rw [wp_upsertRoom_some hfind]
    simp only [noFailure, Bool.false_eq_true, if_false]
    split
    case isTrue =>
      refine ⟨h.markRoom id none (.inl rfl), { info with lastPeerLeavedAt := none }, ?_, hopen, rfl⟩
      change (s.rooms.update id _).get id = _
      rw [Table.get_update, if_pos rfl, hget, Option.map_some]
    case isFalse hnone =>
      exact ⟨h.forget id, info, hget, hopen, by simpa using hnone⟩
  | none =>
    rw [wp_upsertRoom_none hfind]
    simp only [noFailure, Bool.false_eq_true, if_false]
    have hget : (s.rooms.insert ⟨app, room, now, none, none⟩).get s.rooms.nextId =
        some ⟨app, room, now, none, none⟩ := by rw [Table.get_insert, if_pos rfl]
    have hopen : RoomRow.isOpen app room ⟨app, room, now, none, none⟩ = true :=
      isOpen_iff.mpr ⟨rfl, rfl, rfl⟩
    refine ⟨⟨h.config, ?_, ?_, ?_⟩, ⟨app, room, now, none, none⟩, hget, hopen, rfl⟩
    · exact (h.linked.insertRoom now hfind).congr rfl rfl rfl
    · intro app' room'
      rw [marks_concat]
      by_cases hname : app = app' ∧ room = room'
      · obtain ⟨rfl, rfl⟩ := hname
        have hmark : markOf app room ((app, ⟨s.node, ts, .room app room .started⟩) :
            AppId × HookEvent Params) = some .started := by simp [markOf]
        rw [hmark]
        refine (h.announced app room).begin ?_ ⟨_, _, hget, hopen⟩
        intro hold
        obtain ⟨found, hfound⟩ := hasOpen_iff_find.mp hold
        rw [hfind] at hfound
        cases hfound
      · have hmark : markOf app' room' ((app, ⟨s.node, ts, .room app room .started⟩) :
            AppId × HookEvent Params) = none := by simp [markOf, hname]
        rw [hmark, Option.toList_none, List.append_nil]
        refine ⟨(h.announced app' room').alternates, (h.announced app' room').last.trans ?_⟩
        constructor
        · rintro ⟨id, row, hrow, hrow'⟩
          exact ⟨id, row, Table.get_insert_of_some hrow _, hrow'⟩
        · rintro ⟨id, row, hrow, hrow'⟩
          change (s.rooms.insert _).get id = some row at hrow
          rw [Table.get_insert] at hrow
          split at hrow
          case isTrue =>
            cases hrow
            obtain ⟨happ, hroom, -⟩ := isOpen_iff.mp hrow'
            exact absurd ⟨happ, hroom⟩ hname
          case isFalse => exact ⟨id, row, hrow, hrow'⟩
    · intro id row hrow hother hnone
      change (s.rooms.insert _).get id = some row at hrow
      rw [Table.get_insert, if_neg (fun hid => hother (congrArg some hid))] at hrow
      exact h.quiet id row hrow (by simp) hnone

theorem Inv.upsertPeer (h : Inv after stays emptySince joining s) (now roomId : Nat)
    (peer : String) :
    wp (upsertPeer noFailure now roomId peer)
      (fun id s' => Inv after stays emptySince joining s' ∧ s'.rooms = s.rooms ∧
        ∃ row, s'.peers.get id = some row ∧ row.room = roomId ∧ row.peer = peer)
      (fun _ _ => False) s := by
  rw [wp_upsertPeer, if_neg (by simp [noFailure])]
  split
  case h_1 id row hfind =>
    obtain ⟨hget, hpeer⟩ := Table.find_eq_some hfind
    simp only [PeerRow.isPeer, Bool.and_eq_true, decide_eq_true_eq] at hpeer
    exact ⟨h, rfl, row, hget, hpeer⟩
  case h_2 hfind =>
    rw [if_neg (by simp [noFailure])]
    have hget : (s.peers.insert ⟨roomId, peer, now⟩).get s.peers.nextId =
        some ⟨roomId, peer, now⟩ := by rw [Table.get_insert, if_pos rfl]
    exact ⟨⟨h.config, h.linked.insertPeer now hfind, h.announced, h.quiet⟩, rfl, _, hget, rfl, rfl⟩

theorem present_append (stays : List Stay) (stay : Stay) (app room : String) :
    present (stays ++ [stay]) app room =
      present stays app room + if stay.app = app ∧ stay.room = room then 1 else 0 := by
  simp [present, List.countP_cons]

theorem present_erase {stays : List Stay} {stay : Stay} (hmem : stay ∈ stays) (app room : String) :
    present stays app room =
      present (stays.erase stay) app room + if stay.app = app ∧ stay.room = room then 1 else 0 := by
  rw [present, (List.perm_cons_erase hmem).countP_eq, List.countP_cons, present]
  simp

/-- Two open rooms are the same or have different names. -/
theorem Linked.name_ne (h : Linked stays s) {i j : Nat} {row row' : RoomRow} {app room : String}
    (hi : s.rooms.get i = some row) (hrow : row.isOpen app room = true)
    (hj : s.rooms.get j = some row') (hopen : row'.destroyedAt = none) (hne : j ≠ i) :
    ¬ (app = row'.app ∧ room = row'.room) := by
  rintro ⟨rfl, rfl⟩
  exact hne (h.oneOpen _ _ j i row' row hj hi (isOpen_iff.mpr ⟨rfl, rfl, hopen⟩) hrow)

theorem Inv.upsertPeerSession {roomId peerId : Nat} {row : RoomRow} {peerRow : PeerRow}
    {app room peer : String} {session : UInt64}
    (h : Inv after stays emptySince (some roomId) s) (hroom : s.Ready app room roomId row)
    (hpeer : s.peers.get peerId = some peerRow) (hin : peerRow.room = roomId)
    (hname : peerRow.peer = peer) (hnew : ⟨session, app, room, peer⟩ ∉ stays) (now ts : Nat) :
    wp (upsertPeerSession noFailure now roomId peerId session ts)
      (fun _ s' => Inv after (stays ++ [⟨session, app, room, peer⟩]) emptySince none s')
      (fun _ _ => False) s := by
  subst hin
  subst hname
  obtain ⟨happ, hname, hopen⟩ := isOpen_iff.mp hroom.isOpen
  subst happ
  subst hname
  rw [wp_upsertPeerSession, if_neg (by simp [noFailure])]
  split
  case h_1 id found hfind =>
    -- the session is not in the room yet
    obtain ⟨hget, hfound⟩ := Table.find_eq_some hfind
    simp only [PeerSessionRow.isOf, Bool.and_eq_true, decide_eq_true_eq] at hfound
    obtain ⟨⟨rfl, rfl⟩, honline⟩ := hfound
    have hmem := h.linked.mem_stays.mpr ⟨id, found, hget, honline, Linked.stayOf_eq hpeer hroom.get⟩
    exact absurd hmem hnew
  case h_2 =>
    rw [if_neg (by simp [noFailure])]
    refine ⟨h.config, h.linked.insertPeerSession hpeer hroom.get hopen, h.announced, ?_⟩
    intro id row' hget _ hopen'
    by_cases hid : id = peerRow.room
    · subst hid
      cases hroom.get.symm.trans hget
      rw [Quiet, hroom.unmarked, present_append, if_pos ⟨rfl, rfl⟩]
      simp
    · rw [Quiet, present_append,
        if_neg (h.linked.name_ne hroom.get hroom.isOpen hget hopen' hid), Nat.add_zero]
      exact h.quiet id row' hget (by simpa using hid) hopen'

theorem Inv.onJoin {app room peer : String} {session : UInt64} (h : Inv after stays emptySince none s)
    (hnew : ⟨session, app, room, peer⟩ ∉ stays) (now : Nat) (src : NodeId) (ts : Nat) :
    wp (onJoin noFailure now src ts app session room peer)
      (fun _ s' => Inv after (stays ++ [⟨session, app, room, peer⟩]) emptySince none s')
      (fun _ _ => False) s := by
  rw [Storage.onJoin, wp_bind]
  refine wp_mono (h.upsertRoom now ts app room) ?_ (fun _ _ hfalse => hfalse)
  rintro roomId s₁ ⟨h₁, row, hroom⟩
  rw [wp_bind]
  refine wp_mono (h₁.upsertPeer now roomId peer) ?_ (fun _ _ hfalse => hfalse)
  rintro peerId s₂ ⟨h₂, hrooms, peerRow, hpeer, hin, hname⟩
  have hroom₂ : s₂.Ready app room roomId row := ⟨by rw [hrooms, hroom.get], hroom.isOpen, hroom.unmarked⟩
  rw [wp_bind]
  refine wp_mono (h₂.upsertPeerSession hroom₂ hpeer hin hname hnew now ts) ?_
    (fun _ _ hfalse => hfalse)
  intro _ s₃ h₃
  rw [wp_bind, wp_pushRoom, wp_insertEvent, if_neg (by simp [noFailure])]
  exact (h₃.push _ (fun _ _ => rfl)).insertEvent _

/-! ### Leaving -/

/-- The session has left the open room of the name as the peer before. -/
def hasLeft (s : Storage Params) (session : UInt64) (app room peer : String) : Bool :=
  s.peerSessions.rows.any fun row => row.session = session && !row.isOnline &&
    (s.peers.get row.peer).any fun peerRow => peerRow.peer = peer &&
      (s.rooms.get peerRow.room).any (RoomRow.isOpen app room)

/-- The time since when a room is empty, after a leave. -/
def emptiedAt (stays : List Stay) (emptySince : String → String → Option Nat) (now : Nat)
    (app room : String) : String → String → Option Nat := fun app' room' =>
  if app = app' ∧ room = room' ∧ present stays app room = 0 then some now
  else emptySince app' room'

/-- What a leave finds. -/
structure Found (s : Storage Params) (stay : Stay) (roomId peerId rowId : Nat)
    (roomRow : RoomRow) (row : PeerSessionRow) : Prop where
  room : s.rooms.find (RoomRow.isOpen stay.app stay.room) = some (roomId, roomRow)
  unmarked : roomRow.lastPeerLeavedAt = none
  peer : ∃ peerRow, s.peers.find (PeerRow.isPeer roomId stay.peer) = some (peerId, peerRow)
  session : s.peerSessions.find (PeerSessionRow.isOf peerId stay.session) = some (rowId, row)
  online : row.isOnline = true
  stands : s.stayOf row = some stay

theorem Inv.found (h : Inv after stays emptySince none s) {stay : Stay} (hmem : stay ∈ stays)
    (hfirst : s.hasLeft stay.session stay.app stay.room stay.peer = false) :
    ∃ roomId peerId rowId room row, s.Found stay roomId peerId rowId room row := by
  obtain ⟨rowId₀, row₀, hrow₀, honline₀, hstay₀⟩ := h.linked.mem_stays.mp hmem
  obtain ⟨peer₀, room₀, hpeer₀, hroom₀⟩ := h.linked.linked rowId₀ row₀ hrow₀
  rw [Linked.stayOf_eq hpeer₀ hroom₀] at hstay₀
  cases hstay₀
  have hopen₀ := h.linked.onlineOpen rowId₀ row₀ peer₀ room₀ hrow₀ honline₀ hpeer₀ hroom₀
  have hisOpen₀ : room₀.isOpen room₀.app room₀.room = true := isOpen_iff.mpr ⟨rfl, rfl, hopen₀⟩
  -- the room that is found is the room of the stay
  obtain ⟨⟨roomId, room⟩, hroom⟩ := Table.exists_find hroom₀ hisOpen₀
  obtain ⟨hgetRoom, hisOpen⟩ := Table.find_eq_some hroom
  have hroomId := h.linked.oneOpen _ _ roomId peer₀.room room room₀ hgetRoom hroom₀ hisOpen hisOpen₀
  subst hroomId
  cases hgetRoom.symm.trans hroom₀
  have hpresent : present stays room₀.app room₀.room ≠ 0 := by
    rw [present_erase hmem, if_pos ⟨rfl, rfl⟩]
    simp
  have hunmarked : room₀.lastPeerLeavedAt = none := by
    have hiff := (h.quiet _ room₀ hgetRoom (by simp) hopen₀).1
    have hnone := mt hiff.mp hpresent
    simpa using hnone
  -- and so is the peer
  have hisPeer₀ : PeerRow.isPeer peer₀.room peer₀.peer peer₀ = true := by simp [PeerRow.isPeer]
  obtain ⟨⟨peerId, peerRow⟩, hpeer⟩ := Table.exists_find hpeer₀ hisPeer₀
  obtain ⟨hgetPeer, hisPeer⟩ := Table.find_eq_some hpeer
  simp only [PeerRow.isPeer, Bool.and_eq_true, decide_eq_true_eq] at hisPeer
  have hpeerId := h.linked.onePeer peerId row₀.peer peerRow peer₀ hgetPeer hpeer₀ hisPeer.1 hisPeer.2
  subst hpeerId
  -- the row of the session that is found has not left
  have hisOf₀ : row₀.isOf row₀.peer row₀.session = true := by simp [PeerSessionRow.isOf]
  obtain ⟨⟨rowId, row⟩, hrow⟩ := Table.exists_find hrow₀ hisOf₀
  obtain ⟨hgetRow, hisOf⟩ := Table.find_eq_some hrow
  simp only [PeerSessionRow.isOf, Bool.and_eq_true, decide_eq_true_eq] at hisOf
  have honline : row.isOnline = true := by
    have hrows := List.any_eq_false.mp hfirst row (Table.mem_rows.mpr ⟨rowId, hgetRow⟩)
    rw [hisOf.1, hpeer₀] at hrows
    simpa [hisOf.2, hroom₀, hisOpen₀] using hrows
  refine ⟨peer₀.room, row₀.peer, rowId, room₀, row, hroom, hunmarked, ⟨peerRow, hpeer⟩, hrow,
    honline, ?_⟩
  have hpeerOf : s.peers.get row.peer = some peer₀ := by rw [hisOf.1, hpeer₀]
  rw [Linked.stayOf_eq hpeerOf hroom₀, hisOf.2]

/-- The row of the stay has left; the mark of the room is open. -/
theorem Inv.leaveRow (h : Inv after stays emptySince none s) {stay : Stay}
    {roomId peerId rowId : Nat} {roomRow : RoomRow} {row : PeerSessionRow}
    (hfound : s.Found stay roomId peerId rowId roomRow row) (now eventTs : Nat) :
    Inv after (stays.erase stay)
      (emptiedAt (stays.erase stay) emptySince now stay.app stay.room) (some roomId)
      { s with peerSessions := s.peerSessions.update rowId fun row =>
          { row with leavedAt := some eventTs } } := by
  obtain ⟨hget, -⟩ := Table.find_eq_some hfound.session
  obtain ⟨hgetRoom, hisOpen⟩ := Table.find_eq_some hfound.room
  have hmem : stay ∈ stays := h.linked.mem_stays.mpr ⟨rowId, row, hget, hfound.online, hfound.stands⟩
  refine ⟨h.config, h.linked.leave hget hfound.online hfound.stands, h.announced, ?_⟩
  intro id room hroom hother hopen
  have hid : id ≠ roomId := fun heq => hother (congrArg some heq)
  have hname := h.linked.name_ne hgetRoom hisOpen hroom hopen hid
  have hquiet := h.quiet id room hroom (by simp) hopen
  have hpresent := present_erase hmem room.app room.room
  rw [if_neg hname, Nat.add_zero] at hpresent
  refine ⟨hpresent ▸ hquiet.1, ?_⟩
  intro since hsince
  rw [emptiedAt, if_neg (fun hmatch => hname ⟨hmatch.1, hmatch.2.1⟩)]
  exact hquiet.2 since hsince

theorem Inv.onLeave {app room peer : String} {session : UInt64}
    (h : Inv after stays emptySince none s) (hmem : ⟨session, app, room, peer⟩ ∈ stays)
    (hfirst : s.hasLeft session app room peer = false) (now : Nat) (src : NodeId) (ts : Nat) :
    wp (onLeave noFailure now src ts app session room peer)
      (fun _ s' => Inv after (stays.erase ⟨session, app, room, peer⟩)
        (emptiedAt (stays.erase ⟨session, app, room, peer⟩) emptySince now app room) none s')
      (fun _ _ => False) s := by
  rw [Storage.onLeave, wp_bind, wp_pushRoom]
  have h₁ := h.push (app, ⟨s.node, ts, .room app room (.peerLeaved peer)⟩) (fun _ _ => rfl)
  have hfirst₁ : ({ s with hookEvents :=
      s.hookEvents ++ [(app, ⟨s.node, ts, .room app room (.peerLeaved peer)⟩)] } :
      Storage Params).hasLeft session app room peer = false := hfirst
  generalize ({ s with hookEvents :=
      s.hookEvents ++ [(app, ⟨s.node, ts, .room app room (.peerLeaved peer)⟩)] } :
      Storage Params) = s₁ at h₁ hfirst₁ ⊢
  obtain ⟨roomId, peerId, rowId, roomRow, row, hfound⟩ := h₁.found hmem hfirst₁
  obtain ⟨peerRow, hpeer⟩ := hfound.peer
  have hroom : s₁.rooms.find (RoomRow.isOpen app room) = some (roomId, roomRow) := hfound.room
  have hrow : s₁.peerSessions.find (PeerSessionRow.isOf peerId session) = some (rowId, row) :=
    hfound.session
  rw [wp_bind, wp_upsertRoom_some hroom, if_neg (by simp [noFailure]),
    if_neg (by simp [hfound.unmarked]), wp_bind, wp_upsertPeer, if_neg (by simp [noFailure])]
  simp only [hpeer]
  rw [wp_bind, wp_leavePeerSession, if_neg (by simp [noFailure])]
  simp only [hrow]
  rw [if_neg (by simp [noFailure]), wp_bind, wp_query, if_neg (by simp [noFailure])]
  have h₂ := h₁.leaveRow hfound now ts
  obtain ⟨hget, hisOpen⟩ := Table.find_eq_some hroom
  have hget₂ : ({ s₁ with peerSessions := s₁.peerSessions.update rowId fun row =>
      { row with leavedAt := some ts } } : Storage Params).rooms.get roomId = some roomRow := hget
  generalize ({ s₁ with peerSessions := s₁.peerSessions.update rowId fun row =>
      { row with leavedAt := some ts } } : Storage Params) = s₂ at h₂ hget₂ ⊢
  obtain ⟨rfl, rfl, hopen⟩ := isOpen_iff.mp hisOpen
  rw [h₂.linked.onlinePeersCount_eq hget₂ hopen, wp_bind, wp_leaveRoom]
  split
  case isTrue hzero =>
    rw [if_neg (by simp [noFailure]), wp_insertEvent, if_neg (by simp [noFailure])]
    have hget₃ : (s₂.rooms.update roomId fun row => { row with lastPeerLeavedAt := some now }).get
        roomId = some { roomRow with lastPeerLeavedAt := some now } := by
      rw [Table.get_update, if_pos rfl, hget₂, Option.map_some]
    have hquiet : Quiet (stays.erase ⟨session, roomRow.app, roomRow.room, peer⟩)
        (emptiedAt (stays.erase ⟨session, roomRow.app, roomRow.room, peer⟩) emptySince now
          roomRow.app roomRow.room) { roomRow with lastPeerLeavedAt := some now } := by
      refine ⟨by simp [hzero], ?_⟩
      intro since hsince
      rw [emptiedAt, if_pos ⟨rfl, rfl, hzero⟩]
      exact hsince
    exact (((h₂.markRoom roomId (some now) (.inr rfl)).settle hget₃ hquiet).push _
      (fun _ _ => rfl)).insertEvent _
  case isFalse hsome =>
    rw [wp_insertEvent, if_neg (by simp [noFailure])]
    have hquiet : Quiet (stays.erase ⟨session, roomRow.app, roomRow.room, peer⟩)
        (emptiedAt (stays.erase ⟨session, roomRow.app, roomRow.room, peer⟩) emptySince now
          roomRow.app roomRow.room) roomRow := by
      refine ⟨by simp [hfound.unmarked, hsome], ?_⟩
      intro since hsince
      rw [hfound.unmarked] at hsince
      cases hsince
    exact (h₂.settle hget₂ hquiet).insertEvent _

/-! ### Destroying rooms -/

theorem Inv.destroyRoom (h : Inv after stays emptySince none s) {id : Nat} {row : RoomRow}
    (hget : s.rooms.get id = some row) (hopen : row.destroyedAt = none)
    (hmarked : row.lastPeerLeavedAt.isSome) (now : Nat) :
    Inv after stays emptySince none
      { s with
        rooms := s.rooms.update id fun row => { row with destroyedAt := some now }
        hookEvents := s.hookEvents ++ [(row.app, ⟨s.node, now, .room row.app row.room .stopped⟩)] } := by
  have hempty : present stays row.app row.room = 0 := (h.quiet id row hget (by simp) hopen).1.mp hmarked
  have hother : ∀ id' row', (s.rooms.update id fun row => { row with destroyedAt := some now }).get
      id' = some row' → row'.destroyedAt = none → id' ≠ id ∧ s.rooms.get id' = some row' := by
    intro id' row' hrow' hnone
    rw [Table.get_update] at hrow'
    split at hrow'
    case isTrue =>
      obtain ⟨row'', -, rfl⟩ := Option.map_eq_some_iff.mp hrow'
      cases hnone
    case isFalse hne => exact ⟨hne, hrow'⟩
  refine ⟨h.config, ?_, ?_, ?_⟩
  · have hlinked : Linked stays
        { s with rooms := s.rooms.update id fun row => { row with destroyedAt := some now } } := by
      refine h.linked.updateRoom id _ (fun _ => ⟨rfl, rfl⟩) (fun _ hnone => by cases hnone) ?_
      rintro rowId sessionRow peer room hrow honline hpeer rfl hroom
      cases hget.symm.trans hroom
      have hmem := h.linked.mem_stays.mpr ⟨rowId, sessionRow, hrow, honline,
        Linked.stayOf_eq hpeer hroom⟩
      rw [present_erase hmem, if_pos ⟨rfl, rfl⟩] at hempty
      cases hempty
    exact hlinked.congr rfl rfl rfl
  · intro app room
    rw [marks_concat]
    by_cases hname : row.app = app ∧ row.room = room
    · obtain ⟨rfl, rfl⟩ := hname
      have hmark : markOf row.app row.room ((row.app, ⟨s.node, now,
          .room row.app row.room .stopped⟩) : AppId × HookEvent Params) = some .stopped := by
        simp [markOf]
      have hisOpen : row.isOpen row.app row.room = true := isOpen_iff.mpr ⟨rfl, rfl, hopen⟩
      rw [hmark]
      refine (h.announced row.app row.room).finish ⟨id, row, hget, hisOpen⟩ ?_
      rintro ⟨id', row', hrow', hisOpen'⟩
      obtain ⟨hne, hget'⟩ := hother id' row' hrow' (isOpen_iff.mp hisOpen').2.2
      exact hne (h.linked.oneOpen _ _ id' id row' row hget' hget hisOpen' hisOpen)
    · have hmark : markOf app room ((row.app, ⟨s.node, now,
          .room row.app row.room .stopped⟩) : AppId × HookEvent Params) = none := by
        simp [markOf, hname]
      rw [hmark, Option.toList_none, List.append_nil]
      refine ⟨(h.announced app room).alternates, (h.announced app room).last.trans ?_⟩
      constructor
      · rintro ⟨id', row', hget', hisOpen'⟩
        have hne : id' ≠ id := by
          rintro rfl
          cases hget.symm.trans hget'
          obtain ⟨happ, hroom, -⟩ := isOpen_iff.mp hisOpen'
          exact hname ⟨happ, hroom⟩
        refine ⟨id', row', ?_, hisOpen'⟩
        change (s.rooms.update id _).get id' = some row'
        rw [Table.get_update, if_neg hne, hget']
      · rintro ⟨id', row', hrow', hisOpen'⟩
        exact ⟨id', row', (hother id' row' hrow' (isOpen_iff.mp hisOpen').2.2).2, hisOpen'⟩
  · intro id' row' hrow' _ hnone
    exact h.quiet id' row' (hother id' row' hrow' hnone).2 (by simp) hnone

/-- The hook event for a room that is destroyed. -/
def stoppedHook (node : NodeId) (now : Nat) (found : Nat × RoomRow) : AppId × HookEvent Params :=
  (found.2.app, ⟨node, now, .room found.2.app found.2.room .stopped⟩)

theorem Inv.closeRooms (now : Nat) (rooms : List (Nat × RoomRow))
    (h : Inv after stays emptySince none s) (hnodup : (rooms.map Prod.fst).Nodup)
    (hrooms : ∀ found ∈ rooms, s.rooms.get found.1 = some found.2 ∧ found.2.destroyedAt = none ∧
      found.2.lastPeerLeavedAt.isSome) :
    wp (closeRooms noFailure now rooms)
      (fun _ s' => Inv after stays emptySince none s' ∧
        s'.hookEvents = s.hookEvents ++ rooms.map (stoppedHook s.node now))
      (fun _ _ => False) s := by
  induction rooms generalizing s with
  | nil => exact ⟨h, by simp⟩
  | cons found rooms ih =>
    obtain ⟨id, row⟩ := found
    obtain ⟨hget, hopen, hmarked⟩ := hrooms (id, row) (List.mem_cons_self ..)
    obtain ⟨hnew, hnodup⟩ := List.nodup_cons.mp hnodup
    rw [Storage.closeRooms, wp_bind, wp_exec, if_neg (by simp [noFailure]), wp_bind, wp_pushRoom]
    have hrest := ih (h.destroyRoom hget hopen hmarked now) hnodup ?_
    · refine wp_mono hrest ?_ (fun _ _ hfalse => hfalse)
      rintro _ s' ⟨h', hhooks⟩
      refine ⟨h', ?_⟩
      rw [hhooks, List.map_cons, List.append_assoc, List.singleton_append]
      rfl
    · -- the other rooms are not touched
      rintro ⟨id', row'⟩ hmem
      obtain ⟨hget', hopen', hmarked'⟩ := hrooms (id', row') (List.mem_cons_of_mem _ hmem)
      have hne : id' ≠ id := by
        rintro rfl
        exact hnew (List.mem_map.mpr ⟨(id', row'), hmem, rfl⟩)
      refine ⟨?_, hopen', hmarked'⟩
      change (s.rooms.update id _).get id' = some row'
      rw [Table.get_update, if_neg hne, hget']

/-- A tick closes rooms that have been empty long enough. -/
theorem Inv.onTick (h : Inv after stays emptySince none s) {now : Nat} (hnow : after ≤ now) :
    ∃ (s' : Storage Params) (closed : List (Nat × RoomRow)), onTick noFailure now s = some s' ∧ Inv after stays emptySince none s' ∧
      s'.hookEvents = s.hookEvents ++ closed.map (stoppedHook s.node now) ∧
      ∀ found ∈ closed, present stays found.2.app found.2.room = 0 ∧
        ∃ since, emptySince found.2.app found.2.room = some since ∧ since + after ≤ now := by
  obtain ⟨closed, hclosed⟩ : ∃ closed, closed =
      (s.rooms.findAll (RoomRow.isExited (now - s.roomDestroyAfterMs))).take 100 := ⟨_, rfl⟩
  have hrooms : ∀ found ∈ closed, s.rooms.get found.1 = some found.2 ∧
      found.2.isExited (now - after) = true := by
    intro found hmem
    rw [hclosed, h.config] at hmem
    exact Table.mem_findAll.mp (List.mem_of_mem_take hmem)
  have hexited : ∀ found ∈ closed, found.2.destroyedAt = none ∧
      ∃ since, found.2.lastPeerLeavedAt = some since ∧ since ≤ now - after := by
    intro found hmem
    have hex := (hrooms found hmem).2
    simp only [RoomRow.isExited, Bool.and_eq_true, Option.isNone_iff_eq_none, Option.any_eq_true,
      decide_eq_true_eq] at hex
    exact hex
  have hnodup : (closed.map Prod.fst).Nodup := by
    rw [hclosed, List.map_take]
    exact (Table.nodup_findAll _ _).sublist (List.take_sublist _ _)
  have hwp : wp (closeExitedRooms noFailure now)
      (fun _ s' => Inv after stays emptySince none s' ∧
        s'.hookEvents = s.hookEvents ++ closed.map (stoppedHook s.node now))
      (fun _ _ => False) s := by
    rw [closeExitedRooms, wp_bind, wp_get, wp_ite, if_neg (by rw [h.config]; omega), wp_bind,
      wp_query, if_neg (by simp [noFailure]), ← hclosed]
    refine h.closeRooms now closed hnodup ?_
    intro found hmem
    obtain ⟨hnone, since, hsince, -⟩ := hexited found hmem
    exact ⟨(hrooms found hmem).1, hnone, by simp [hsince]⟩
  obtain ⟨_, s', hres, h', hhooks⟩ := ok_of_wp hwp
  refine ⟨s', closed, by rw [Storage.onTick, hres], h', hhooks, ?_⟩
  intro found hmem
  obtain ⟨hnone, since, hsince, hle⟩ := hexited found hmem
  have hquiet := h.quiet found.1 found.2 (hrooms found hmem).1 (by simp) hnone
  exact ⟨hquiet.1.mp (by simp [hsince]), since, hquiet.2 since hsince, by omega⟩

end Storage

/-! ### Histories -/

/-- An event of a peer, or the time. -/
inductive Input (Params : Type) where
  | peer (now : Nat) (src : NodeId) (eventTs : Nat) (app : String) (session : UInt64)
      (action : PeerAction Params)
  | tick (now : Nat)

/-- A storage with the sessions that are in rooms, and since when the empty rooms are empty. -/
structure RoomRun (Params : Type) where
  storage : Storage Params
  stays : List Stay
  emptySince : String → String → Option Nat

namespace RoomRun

variable {Params : Type}

def start (node : NodeId) (roomDestroyAfterMs : Nat) : RoomRun Params :=
  ⟨.new node roomDestroyAfterMs, [], fun _ _ => none⟩

def staysAfter (stays : List Stay) (app : String) (session : UInt64) :
    PeerAction Params → List Stay
  | .join room peer => stays ++ [⟨session, app, room, peer⟩]
  | .leave room peer => stays.erase ⟨session, app, room, peer⟩
  | .notice _ _ => stays
  | .stats _ => stays

def emptySinceAfter (r : RoomRun Params) (now : Nat) (app : String) (session : UInt64) :
    PeerAction Params → String → String → Option Nat
  | .leave room peer =>
    Storage.emptiedAt (r.stays.erase ⟨session, app, room, peer⟩) r.emptySince now app room
  | .join _ _ => r.emptySince
  | .notice _ _ => r.emptySince
  | .stats _ => r.emptySince

/-- No operation of the database fails; `none` is a panic. -/
def step (r : RoomRun Params) : Input Params → Option (RoomRun Params)
  | .peer now src eventTs app session action =>
    match Storage.onPeerEvent Storage.noFailure now src eventTs app session action r.storage with
    | .ok _ storage =>
      some ⟨storage, staysAfter r.stays app session action,
        r.emptySinceAfter now app session action⟩
    | .error _ _ => none
  | .tick now =>
    (Storage.onTick Storage.noFailure now r.storage).map fun storage => { r with storage }

/-- A session joins a room that it is not in, and leaves one that it is in. -/
def allowed (r : RoomRun Params) : Input Params → Bool
  | .peer _ _ _ app session action =>
    match action with
    | .join room _ =>
      r.stays.all fun stay => !(stay.session = session && stay.app = app && stay.room = room)
    | .leave room peer => ⟨session, app, room, peer⟩ ∈ r.stays
    | .notice _ _ => true
    | .stats _ => true
  | .tick _ => true

/-- A session that leaves has not left the room as this peer before, and a tick does not come
    before the time that a room may stand empty. -/
def handled (r : RoomRun Params) : Input Params → Bool
  | .peer _ _ _ app session action =>
    match action with
    | .join _ _ => true
    | .leave room peer => !r.storage.hasLeft session app room peer
    | .notice _ _ => true
    | .stats _ => false
  | .tick now => r.storage.roomDestroyAfterMs ≤ now

/-- What holds of the tables after every input. -/
structure Agrees (r : RoomRun Params) : Prop where
  online : ∀ id row, r.storage.rooms.get id = some row → row.destroyedAt = none →
    r.storage.onlinePeersCount id = present r.stays row.app row.room
  missing : ∀ app room, ¬ r.storage.HasOpen app room → present r.stays app room = 0
  marked : ∀ id row, r.storage.rooms.get id = some row → row.destroyedAt = none →
    (row.lastPeerLeavedAt.isSome ↔ present r.stays row.app row.room = 0)
  unique : ∀ app room, r.storage.rooms.count (RoomRow.isOpen app room) ≤ 1
  alternates : ∀ app room, Alternates (marks app room r.storage.hookEvents)

/-- The end of a room is only announced by a tick, when nobody has been in the room for the time
    that it may stand empty. -/
def StopsQuietRooms (roomDestroyAfterMs : Nat) (r : RoomRun Params) (input : Input Params)
    (r' : RoomRun Params) : Prop :=
  ∀ hook ∈ r'.storage.hookEvents.drop r.storage.hookEvents.length, ∀ app room,
    hook.2.event = .room app room .stopped →
    ∃ now, input = .tick now ∧ present r.stays app room = 0 ∧
      ∃ since, r.emptySince app room = some since ∧ since + roomDestroyAfterMs ≤ now

def Inv (after : Nat) (r : RoomRun Params) : Prop :=
  r.storage.Inv after r.stays r.emptySince none

variable {after : Nat} {r : RoomRun Params}

theorem Inv.tables (h : Inv after r) : r.Agrees := by
  refine ⟨?_, ?_, ?_, ?_, ?_⟩
  · intro id row hget hopen
    exact h.linked.onlinePeersCount_eq hget hopen
  · intro app room hmissing
    refine h.linked.present_of_missing ?_
    intro id row hget
    refine Bool.eq_false_iff.mpr ?_
    intro hopen
    exact hmissing ⟨id, row, hget, hopen⟩
  · intro id row hget hopen
    exact (h.quiet id row hget (by simp) hopen).1
  · intro app room
    exact Table.count_le_one fun i j row row' hi hj => h.linked.oneOpen app room i j row row' hi hj
  · intro app room
    exact (h.announced app room).alternates

theorem inv_start (node : NodeId) (after : Nat) : Inv after (start node after : RoomRun Params) := by
  refine ⟨rfl, ⟨?_, ?_, ?_, ?_, List.Perm.nil⟩, ?_, ?_⟩
  · intro id row hget
    cases hget
  · intro i j peer peer' hget
    cases hget
  · intro app room i j row row' hget
    cases hget
  · intro id row peer room hget
    cases hget
  · intro app room
    refine ⟨?_, ?_⟩
    · intro i mark hget
      cases hget
    · constructor
      · intro hodd
        cases hodd
      · rintro ⟨id, row, hget, -⟩
        cases hget
  · intro id room hget
    cases hget

theorem Inv.peer (h : Inv after r) {now : Nat} {src : NodeId} {eventTs : Nat} {app : String}
    {session : UInt64} {action : PeerAction Params}
    (hallowed : r.allowed (.peer now src eventTs app session action) = true)
    (hhandled : r.handled (.peer now src eventTs app session action) = true) :
    wp (Storage.onPeerEvent Storage.noFailure now src eventTs app session action)
      (fun _ s' => s'.Inv after (staysAfter r.stays app session action)
        (r.emptySinceAfter now app session action) none) (fun _ _ => False) r.storage := by
  have hsession : wp (Storage.upsertSession Storage.noFailure now app session)
      (fun _ s' => s'.Inv after r.stays r.emptySince none ∧ ∀ session app room peer,
        s'.hasLeft session app room peer = r.storage.hasLeft session app room peer)
      (fun _ _ => False) r.storage := by
    rw [Storage.wp_upsertSession, if_neg (by simp [Storage.noFailure])]
    split
    case isTrue => exact ⟨h, fun _ _ _ _ => rfl⟩
    case isFalse =>
      rw [if_neg (by simp [Storage.noFailure])]
      exact ⟨h.insertSession _, fun _ _ _ _ => rfl⟩
  unfold Storage.onPeerEvent
  rw [wp_bind]
  refine wp_mono hsession ?_ (fun _ _ hfalse => hfalse)
  rintro _ s₁ ⟨h₁, hleft⟩
  cases action with
  | notice kind params =>
    refine Storage.wp_insertEvent.mpr ?_
    rw [if_neg (by simp [Storage.noFailure])]
    exact h₁.insertEvent _
  | stats params => cases hhandled
  | join room peer =>
    refine h₁.onJoin ?_ now src eventTs
    intro hmem
    have hall : r.stays.all (fun stay =>
        !(stay.session = session && stay.app = app && stay.room = room)) = true := hallowed
    have hout := List.all_eq_true.mp hall _ hmem
    simp at hout
  | leave room peer =>
    refine h₁.onLeave (of_decide_eq_true hallowed) ?_ now src eventTs
    rw [hleft]
    simpa [handled] using hhandled

/-- The events of a peer announce no end of a room. -/
theorem not_stopped_of_mem_roomHooks {s s' : Storage Params} {ts : Nat} {app : String}
    {action : PeerAction Params} {hook : AppId × HookEvent Params}
    (hmem : hook ∈ s.roomHooks s' ts app action) (app' room' : String) :
    hook.2.event ≠ .room app' room' .stopped := by
  cases action with
  | notice kind params => cases hmem
  | stats params => cases hmem
  | join room peer =>
    simp only [Storage.roomHooks, Storage.startedHook, List.mem_append, List.mem_singleton] at hmem
    rcases hmem with hstarted | rfl
    · split at hstarted
      · rw [List.mem_singleton.mp hstarted]
        simp
      · cases hstarted
    · simp
  | leave room peer =>
    simp only [Storage.roomHooks, Storage.startedHook, List.mem_append, List.mem_singleton] at hmem
    rcases hmem with (rfl | hstarted) | hleft
    · simp
    · split at hstarted
      · rw [List.mem_singleton.mp hstarted]
        simp
      · cases hstarted
    · split at hleft
      · rw [List.mem_singleton.mp hleft]
        simp
      · cases hleft

/-- One input: it does not panic, keeps the invariant and closes only rooms that are empty. -/
theorem Inv.step (h : Inv after r) {input : Input Params} (hallowed : r.allowed input = true)
    (hhandled : r.handled input = true) :
    ∃ r', r.step input = some r' ∧ Inv after r' ∧ StopsQuietRooms after r input r' := by
  cases input with
  | peer now src eventTs app session action =>
    obtain ⟨_, s', hres, h'⟩ := ok_of_wp (h.peer hallowed hhandled)
    have honce : r.storage.Once eventTs app action
        (Storage.onPeerEvent Storage.noFailure now src eventTs app session action) r.storage := by
      refine Storage.once_onPeerEvent ?_
      intro op hfails
      cases hfails
    rw [Storage.Once, wp, hres] at honce
    refine ⟨⟨s', staysAfter r.stays app session action, r.emptySinceAfter now app session action⟩,
      by rw [RoomRun.step, hres], h', ?_⟩
    intro hook hmem app' room' hstopped
    change hook ∈ s'.hookEvents.drop r.storage.hookEvents.length at hmem
    rw [honce.1, List.drop_left] at hmem
    exact absurd hstopped (not_stopped_of_mem_roomHooks hmem app' room')
  | tick now =>
    have hnow : after ≤ now := by
      rw [← h.config]
      exact of_decide_eq_true hhandled
    obtain ⟨s', closed, hres, h', hhooks, hclosed⟩ := Storage.Inv.onTick h hnow
    refine ⟨{ r with storage := s' }, by rw [RoomRun.step, hres, Option.map_some], h', ?_⟩
    intro hook hmem app room hstopped
    change hook ∈ s'.hookEvents.drop r.storage.hookEvents.length at hmem
    rw [hhooks, List.drop_left] at hmem
    obtain ⟨found, hfound, rfl⟩ := List.mem_map.mp hmem
    cases hstopped
    obtain ⟨hempty, hsince⟩ := hclosed found hfound
    exact ⟨now, rfl, hempty, hsince⟩

/-- In every history in which sessions join and leave in turn, no session leaves a room for the
    second time as the same peer, and no tick comes too early, the tables agree with the sessions
    in the rooms, and rooms are closed only when they have been empty long enough. -/
theorem rooms_agree (node : NodeId) (roomDestroyAfterMs : Nat) (inputs : List (Input Params))
    (r : RoomRun Params)
    (hrun : Reaches step (fun r input => r.allowed input = true ∧ r.handled input = true)
      (start node roomDestroyAfterMs) inputs r) :
    r.Agrees ∧ ∀ input, r.allowed input = true → r.handled input = true →
      ∃ r', r.step input = some r' ∧ StopsQuietRooms roomDestroyAfterMs r input r' := by
  have hinv : Inv roomDestroyAfterMs r := by
    refine hrun.invariant ?_ (inv_start node roomDestroyAfterMs)
    rintro r₁ input r₂ h₁ ⟨hallowed, hhandled⟩ hstep
    obtain ⟨r', hr', h', -⟩ := h₁.step hallowed hhandled
    cases hstep.symm.trans hr'
    exact h'
  refine ⟨hinv.tables, ?_⟩
  intro input hallowed hhandled
  obtain ⟨r', hr', -, hstops⟩ := hinv.step hallowed hhandled
  exact ⟨r', hr', hstops⟩

/-- A session joins a room and leaves it, another one joins, leaves, and the room is closed. -/
def twoVisits : List (Input Unit) :=
  [.peer 0 1 0 "app" 7 (.join "room" "alice"), .peer 1 1 1 "app" 8 (.join "room" "bob"),
    .peer 2 1 2 "app" 7 (.leave "room" "alice"), .peer 3 1 3 "app" 8 (.leave "room" "bob"),
    .tick 13]

theorem rooms_agree_twoVisits :
    ∃ r, exec step (fun r input => r.allowed input && r.handled input) (start 1 10) twoVisits =
      some r ∧ r.Agrees := by
  have hrun : (exec step (fun r input => r.allowed input && r.handled input) (start 1 10)
      twoVisits).isSome = true := by
    decide
  obtain ⟨r, hr⟩ := Option.isSome_iff_exists.mp hrun
  refine ⟨r, hr, (rooms_agree 1 10 twoVisits r ?_).1⟩
  refine reaches_of_exec ?_ hr
  intro r input hcheck
  exact Bool.and_eq_true_iff.mp hcheck

/-- A session joins, leaves, joins again as the same peer and leaves again: it is still counted
    as in the room. -/
theorem second_leave_not_counted :
    ¬ ∀ (node : NodeId) (roomDestroyAfterMs : Nat) (inputs : List (Input Unit)) (r : RoomRun Unit),
      Reaches step (fun r input => r.allowed input = true) (start node roomDestroyAfterMs) inputs r →
      r.Agrees := by
  intro h
  have hrun : (exec step (fun r input => r.allowed input) (start 1 10 : RoomRun Unit)
      [.peer 0 1 0 "app" 7 (.join "room" "alice"), .peer 1 1 1 "app" 7 (.leave "room" "alice"),
        .peer 2 1 2 "app" 7 (.join "room" "alice"), .peer 3 1 3 "app" 7 (.leave "room" "alice")]).any
      (fun r => (r.storage.rooms.get 0).any fun row => row.destroyedAt.isNone &&
        !decide (r.storage.onlinePeersCount 0 = present r.stays row.app row.room)) = true := by
    decide
  obtain ⟨r, hr, hbad⟩ := (Option.any_eq_true _ _).mp hrun
  obtain ⟨row, hrow, hcount⟩ := (Option.any_eq_true _ _).mp hbad
  rw [Bool.and_eq_true] at hcount
  have hagrees := h _ _ _ r (reaches_of_exec (fun _ _ hcheck => hcheck) hr)
  have honline := hagrees.online 0 row hrow (Option.isNone_iff_eq_none.mp hcount.1)
  simp [honline] at hcount

end RoomRun

end MediaServer.Connector.Sql
