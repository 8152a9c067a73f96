import MediaServer.Connector.SqlStorage

/-!
# Sessions in rooms, as rows

A session is in a room when it has a row that has not left, of a peer of the room.  `Linked` says
that the rows which have not left are exactly the sessions in the rooms, each in an open room, with
one open room of a name and one peer of a name in a room.  Each way in which the storage changes
its rows keeps this, and it makes the count of the source the number of sessions in a room.
-/

namespace MediaServer.Connector.Sql

/-- A session in a room. -/
structure Stay where
  session : UInt64
  app : String
  room : String
  peer : String
deriving DecidableEq

/-- The number of sessions in a room. -/
def present (stays : List Stay) (app room : String) : Nat :=
  stays.countP fun stay => stay.app = app && stay.room = room

namespace Storage

variable {Params : Type}

/-- The stay that a row of a session stands for. -/
def stayOf (s : Storage Params) (row : PeerSessionRow) : Option Stay :=
  (s.peers.get row.peer).bind fun peer => (s.rooms.get peer.room).map fun room =>
    ⟨row.session, room.app, room.room, peer.peer⟩

def onlineStay (s : Storage Params) (row : PeerSessionRow) : Option Stay :=
  if row.isOnline then s.stayOf row else none

/-- The tables describe the sessions in the rooms. -/
structure Linked (stays : List Stay) (s : Storage Params) : Prop where
  linked : ∀ id row, s.peerSessions.get id = some row →
    ∃ peer room, s.peers.get row.peer = some peer ∧ s.rooms.get peer.room = some room
  onePeer : ∀ i j peer peer', s.peers.get i = some peer → s.peers.get j = some peer' →
    peer.room = peer'.room → peer.peer = peer'.peer → i = j
  oneOpen : ∀ app room i j row row', s.rooms.get i = some row → s.rooms.get j = some row' →
    row.isOpen app room = true → row'.isOpen app room = true → i = j
  onlineOpen : ∀ id row peer room, s.peerSessions.get id = some row → row.isOnline = true →
    s.peers.get row.peer = some peer → s.rooms.get peer.room = some room → room.destroyedAt = none
  online : (s.peerSessions.images s.onlineStay).Perm stays

theorem isOpen_iff {app room : String} {row : RoomRow} :
    row.isOpen app room = true ↔ row.app = app ∧ row.room = room ∧ row.destroyedAt = none := by
  simp [RoomRow.isOpen, and_assoc]

namespace Linked

variable {stays : List Stay} {s : Storage Params}

theorem stayOf_eq {row : PeerSessionRow} {peer : PeerRow} {room : RoomRow}
    (hpeer : s.peers.get row.peer = some peer) (hroom : s.rooms.get peer.room = some room) :
    s.stayOf row = some ⟨row.session, room.app, room.room, peer.peer⟩ := by
  rw [stayOf, hpeer, Option.bind_some, hroom, Option.map_some]

theorem mem_stays (h : Linked stays s) {stay : Stay} :
    stay ∈ stays ↔ ∃ id row, s.peerSessions.get id = some row ∧ row.isOnline = true ∧
      s.stayOf row = some stay := by
  rw [← h.online.mem_iff, Table.mem_images]
  constructor
  · rintro ⟨id, row, hget, hstay⟩
    rw [onlineStay] at hstay
    split at hstay
    case isTrue honline => exact ⟨id, row, hget, honline, hstay⟩
    case isFalse => cases hstay
  · rintro ⟨id, row, hget, honline, hstay⟩
    exact ⟨id, row, hget, by rw [onlineStay, if_pos honline, hstay]⟩

/-- The count of the source is the number of sessions in the room. -/
theorem onlinePeersCount_eq (h : Linked stays s) {id : Nat} {room : RoomRow}
    (hget : s.rooms.get id = some room) (hopen : room.destroyedAt = none) :
    s.onlinePeersCount id = present stays room.app room.room := by
  rw [present, ← h.online.countP_eq, onlinePeersCount]
  refine Table.count_eq_countP_images ?_
  intro rowId row hrow
  obtain ⟨peer, room', hpeer, hroom'⟩ := h.linked rowId row hrow
  rw [onlineStay, stayOf_eq hpeer hroom', hpeer]
  by_cases honline : row.isOnline = true
  · simp only [honline, Bool.true_and, if_true, Option.any_some, decide_eq_true_eq,
      Bool.and_eq_true]
    constructor
    · intro hid
      rw [hid, hget] at hroom'
      cases hroom'
      exact ⟨rfl, rfl⟩
    · rintro ⟨happ, hname⟩
      -- the room of an online row is open, and there is only one of the name
      have hopen' := h.onlineOpen rowId row peer room' hrow honline hpeer hroom'
      exact h.oneOpen room.app room.room _ _ room' room hroom' hget
        (isOpen_iff.mpr ⟨happ, hname, hopen'⟩) (isOpen_iff.mpr ⟨rfl, rfl, hopen⟩)
  · simp [honline]

/-- A session is in an open room. -/
theorem open_of_mem (h : Linked stays s) {stay : Stay} (hmem : stay ∈ stays) :
    ∃ id room, s.rooms.get id = some room ∧ room.isOpen stay.app stay.room = true := by
  obtain ⟨rowId, row, hrow, honline, hstay⟩ := h.mem_stays.mp hmem
  obtain ⟨peer, room, hpeer, hroom⟩ := h.linked rowId row hrow
  rw [stayOf_eq hpeer hroom] at hstay
  cases hstay
  have hopen := h.onlineOpen rowId row peer room hrow honline hpeer hroom
  exact ⟨peer.room, room, hroom, isOpen_iff.mpr ⟨rfl, rfl, hopen⟩⟩

theorem present_of_missing (h : Linked stays s) {app room : String}
    (hmissing : ∀ id row, s.rooms.get id = some row → row.isOpen app room = false) :
    present stays app room = 0 := by
  refine List.countP_eq_zero.mpr ?_
  intro stay hmem hname
  simp only [Bool.and_eq_true, decide_eq_true_eq] at hname
  obtain ⟨id, row, hget, hopen⟩ := h.open_of_mem hmem
  rw [hname.1, hname.2, hmissing id row hget] at hopen
  cases hopen

/-- An update of a room keeps its name; it may destroy the room if nobody is in it. -/
theorem updateRoom (h : Linked stays s) (id : Nat) (f : RoomRow → RoomRow)
    (hname : ∀ row, (f row).app = row.app ∧ (f row).room = row.room)
    (hopen : ∀ row, (f row).destroyedAt = none → row.destroyedAt = none)
    (hused : ∀ rowId row peer room, s.peerSessions.get rowId = some row → row.isOnline = true →
      s.peers.get row.peer = some peer → peer.room = id → s.rooms.get id = some room →
      (f room).destroyedAt = none) :
    Linked stays { s with rooms := s.rooms.update id f } := by
  have hget : ∀ id' room', (s.rooms.update id f).get id' = some room' →
      ∃ room, s.rooms.get id' = some room ∧ room'.app = room.app ∧ room'.room = room.room ∧
        (room'.destroyedAt = none → room.destroyedAt = none) := by
    intro id' room' hroom'
    rw [Table.get_update] at hroom'
    split at hroom'
    case isTrue =>
      obtain ⟨room, hroom, rfl⟩ := Option.map_eq_some_iff.mp hroom'
      exact ⟨room, hroom, (hname room).1, (hname room).2, hopen room⟩
    case isFalse => exact ⟨room', hroom', rfl, rfl, fun hnone => hnone⟩
  have hkept : ∀ id' room, s.rooms.get id' = some room →
      ∃ room', (s.rooms.update id f).get id' = some room' ∧ room'.app = room.app ∧
        room'.room = room.room := by
    intro id' room hroom
    rw [Table.get_update]
    split
    case isTrue => exact ⟨f room, by rw [hroom, Option.map_some], (hname room).1, (hname room).2⟩
    case isFalse => exact ⟨room, hroom, rfl, rfl⟩
  refine ⟨?_, h.onePeer, ?_, ?_, ?_⟩
  · intro rowId row hrow
    obtain ⟨peer, room, hpeer, hroom⟩ := h.linked rowId row hrow
    obtain ⟨room', hroom', -⟩ := hkept _ _ hroom
    exact ⟨peer, room', hpeer, hroom'⟩
  · intro app room i j row row' hi hj hrow hrow'
    obtain ⟨before, hi', happ, hroom, hnone⟩ := hget i row hi
    obtain ⟨before', hj', happ', hroom', hnone'⟩ := hget j row' hj
    rw [isOpen_iff] at hrow hrow'
    refine h.oneOpen app room i j before before' hi' hj' (isOpen_iff.mpr ?_) (isOpen_iff.mpr ?_)
    · exact ⟨happ ▸ hrow.1, hroom ▸ hrow.2.1, hnone hrow.2.2⟩
    · exact ⟨happ' ▸ hrow'.1, hroom' ▸ hrow'.2.1, hnone' hrow'.2.2⟩
  · intro rowId row peer room' hrow honline hpeer hroom'
    change (s.rooms.update id f).get peer.room = some room' at hroom'
    rw [Table.get_update] at hroom'
    split at hroom'
    case isTrue hid =>
      obtain ⟨room, hroom, rfl⟩ := Option.map_eq_some_iff.mp hroom'
      exact hused rowId row peer room hrow honline hpeer hid (hid ▸ hroom)
    case isFalse => exact h.onlineOpen rowId row peer room' hrow honline hpeer hroom'
  · have himages : s.peerSessions.images
        (onlineStay { s with rooms := s.rooms.update id f }) = s.peerSessions.images s.onlineStay := by
      refine Table.images_congr ?_
      intro rowId row hrow
      obtain ⟨peer, room, hpeer, hroom⟩ := h.linked rowId row hrow
      obtain ⟨room', hroom', happ, hname'⟩ := hkept _ _ hroom
      have hafter : stayOf { s with rooms := s.rooms.update id f } row =
          some ⟨row.session, room'.app, room'.room, peer.peer⟩ := stayOf_eq hpeer hroom'
      rw [onlineStay, onlineStay, hafter, stayOf_eq hpeer hroom, happ, hname']
    change (s.peerSessions.images (onlineStay { s with rooms := s.rooms.update id f })).Perm stays
    rw [himages]
    exact h.online

/-- Rows that are added to the tables of rooms and peers change no stay. -/
theorem images_eq (h : Linked stays s) {s' : Storage Params}
    (hsessions : s'.peerSessions = s.peerSessions)
    (hpeers : ∀ id peer, s.peers.get id = some peer → s'.peers.get id = some peer)
    (hrooms : ∀ id room, s.rooms.get id = some room → s'.rooms.get id = some room) :
    s'.peerSessions.images s'.onlineStay = s.peerSessions.images s.onlineStay := by
  rw [hsessions]
  refine Table.images_congr ?_
  intro rowId row hrow
  obtain ⟨peer, room, hpeer, hroom⟩ := h.linked rowId row hrow
  rw [onlineStay, onlineStay, stayOf_eq hpeer hroom,
    stayOf_eq (hpeers _ _ hpeer) (hrooms _ _ hroom)]

theorem insertRoom (h : Linked stays s) {app room : String} (now : Nat)
    (hmissing : s.rooms.find (RoomRow.isOpen app room) = none) :
    Linked stays { s with rooms := s.rooms.insert ⟨app, room, now, none, none⟩ } := by
  have hnone := Table.find_eq_none.mp hmissing
  refine ⟨?_, h.onePeer, ?_, ?_, ?_⟩
  · intro rowId row hrow
    obtain ⟨peer, room', hpeer, hroom'⟩ := h.linked rowId row hrow
    exact ⟨peer, room', hpeer, Table.get_insert_of_some hroom' _⟩
  · intro app' room' i j row row' hi hj hrow hrow'
    simp only [Table.get_insert] at hi hj
    split at hi <;> split at hj
    case isTrue.isTrue hi' hj' => rw [hi', hj']
    case isTrue.isFalse =>
      cases hi
      obtain ⟨rfl, rfl, -⟩ := isOpen_iff.mp hrow
      rw [hnone j row' hj] at hrow'
      cases hrow'
    case isFalse.isTrue =>
      cases hj
      obtain ⟨rfl, rfl, -⟩ := isOpen_iff.mp hrow'
      rw [hnone i row hi] at hrow
      cases hrow
    case isFalse.isFalse => exact h.oneOpen app' room' i j row row' hi hj hrow hrow'
  · intro rowId row peer room' hrow honline hpeer hroom'
    obtain ⟨peer', room'', hpeer', hroom''⟩ := h.linked rowId row hrow
    cases hpeer.symm.trans hpeer'
    have hsame := Table.get_insert_of_some hroom'' ⟨app, room, now, none, none⟩
    cases hroom'.symm.trans hsame
    exact h.onlineOpen rowId row peer room' hrow honline hpeer hroom''
  · refine List.Perm.trans (List.Perm.of_eq ?_) h.online
    exact h.images_eq rfl (fun _ _ hget => hget) (fun _ _ hget => Table.get_insert_of_some hget _)

theorem insertPeer (h : Linked stays s) {room : Nat} {peer : String} (now : Nat)
    (hmissing : s.peers.find (PeerRow.isPeer room peer) = none) :
    Linked stays { s with peers := s.peers.insert ⟨room, peer, now⟩ } := by
  have hnone : ∀ id row, s.peers.get id = some row → row.room = room → row.peer ≠ peer := by
    intro id row hget hroom hpeer
    have hfalse := Table.find_eq_none.mp hmissing id row hget
    simp [PeerRow.isPeer, hroom, hpeer] at hfalse
  refine ⟨?_, ?_, h.oneOpen, ?_, ?_⟩
  · intro rowId row hrow
    obtain ⟨peer', room', hpeer', hroom'⟩ := h.linked rowId row hrow
    exact ⟨peer', room', Table.get_insert_of_some hpeer' _, hroom'⟩
  · intro i j row row' hi hj hroom hname
    simp only [Table.get_insert] at hi hj
    split at hi <;> split at hj
    case isTrue.isTrue hi' hj' => rw [hi', hj']
    case isTrue.isFalse =>
      cases hi
      exact absurd hname.symm (hnone j row' hj hroom.symm)
    case isFalse.isTrue =>
      cases hj
      exact absurd hname (hnone i row hi hroom)
    case isFalse.isFalse => exact h.onePeer i j row row' hi hj hroom hname
  · intro rowId row peer' room' hrow honline hpeer' hroom'
    obtain ⟨peer'', room'', hpeer'', hroom''⟩ := h.linked rowId row hrow
    cases hpeer'.symm.trans (Table.get_insert_of_some hpeer'' ⟨room, peer, now⟩)
    exact h.onlineOpen rowId row peer' room' hrow honline hpeer'' hroom'
  · refine List.Perm.trans (List.Perm.of_eq ?_) h.online
    exact h.images_eq rfl (fun _ _ hget => Table.get_insert_of_some hget _) (fun _ _ hget => hget)

/-- A row for a session in an open room. -/
theorem insertPeerSession (h : Linked stays s) {session : UInt64} {peerId now eventTs : Nat}
    {peer : PeerRow} {room : RoomRow} (hpeer : s.peers.get peerId = some peer)
    (hroom : s.rooms.get peer.room = some room) (hopen : room.destroyedAt = none) :
    Linked (stays ++ [⟨session, room.app, room.room, peer.peer⟩])
      { s with peerSessions :=
          s.peerSessions.insert ⟨session, peerId, peer.room, now, eventTs, none⟩ } := by
  refine ⟨?_, h.onePeer, h.oneOpen, ?_, ?_⟩
  · intro rowId row hrow
    change (s.peerSessions.insert _).get rowId = some row at hrow
    rw [Table.get_insert] at hrow
    split at hrow
    case isTrue =>
      cases hrow
      exact ⟨peer, room, hpeer, hroom⟩
    case isFalse => exact h.linked rowId row hrow
  · intro rowId row peer' room' hrow honline hpeer' hroom'
    change (s.peerSessions.insert _).get rowId = some row at hrow
    rw [Table.get_insert] at hrow
    split at hrow
    case isTrue =>
      cases hrow
      cases hpeer.symm.trans hpeer'
      cases hroom.symm.trans hroom'
      exact hopen
    case isFalse => exact h.onlineOpen rowId row peer' room' hrow honline hpeer' hroom'
  · change ((s.peerSessions.insert _).images s.onlineStay).Perm _
    rw [Table.images_insert]
    refine List.Perm.append h.online (List.Perm.of_eq ?_)
    have hstay : s.stayOf ⟨session, peerId, peer.room, now, eventTs, none⟩ =
        some ⟨session, room.app, room.room, peer.peer⟩ := stayOf_eq hpeer hroom
    simp [onlineStay, PeerSessionRow.isOnline, hstay]

/-- A row that was online has left. -/
theorem leave (h : Linked stays s) {id eventTs : Nat} {row : PeerSessionRow} {stay : Stay}
    (hrow : s.peerSessions.get id = some row) (honline : row.isOnline = true)
    (hstay : s.stayOf row = some stay) :
    Linked (stays.erase stay)
      { s with peerSessions := s.peerSessions.update id fun row =>
          { row with leavedAt := some eventTs } } := by
  have hget : ∀ id' row', (s.peerSessions.update id fun row =>
      { row with leavedAt := some eventTs }).get id' = some row' →
      ∃ before, s.peerSessions.get id' = some before ∧ before.peer = row'.peer ∧
        (row'.isOnline = true → before = row') := by
    intro id' row' hrow'
    rw [Table.get_update] at hrow'
    split at hrow'
    case isTrue =>
      obtain ⟨before, hbefore, rfl⟩ := Option.map_eq_some_iff.mp hrow'
      exact ⟨before, hbefore, rfl, fun hfalse => by cases hfalse⟩
    case isFalse => exact ⟨row', hrow', rfl, fun _ => rfl⟩
  refine ⟨?_, h.onePeer, h.oneOpen, ?_, ?_⟩
  · intro id' row' hrow'
    obtain ⟨before, hbefore, hpeer, -⟩ := hget id' row' hrow'
    rw [← hpeer]
    exact h.linked id' before hbefore
  · intro id' row' peer room hrow' honline' hpeer hroom
    obtain ⟨before, hbefore, -, hsame⟩ := hget id' row' hrow'
    rw [hsame honline'] at hbefore
    exact h.onlineOpen id' row' peer room hbefore honline' hpeer hroom
  · change ((s.peerSessions.update id _).images s.onlineStay).Perm _
    have hbefore : s.onlineStay row = some stay := by rw [onlineStay, if_pos honline, hstay]
    have hperm := Table.images_update_perm (f := fun row => { row with leavedAt := some eventTs })
      hrow hbefore rfl
    have hmem : stay ∈ stays := h.mem_stays.mpr ⟨id, row, hrow, honline, hstay⟩
    exact ((hperm.symm.trans h.online).trans (List.perm_cons_erase hmem)).cons_inv

end Linked

theorem Linked.congr {stays : List Stay} {s s' : Storage Params} (h : Linked stays s)
    (hrooms : s'.rooms = s.rooms) (hpeers : s'.peers = s.peers)
    (hsessions : s'.peerSessions = s.peerSessions) : Linked stays s' := by
  cases s
  cases s'
  cases hrooms
  cases hpeers
  cases hsessions
  exact ⟨h.linked, h.onePeer, h.oneOpen, h.onlineOpen, h.online⟩

end Storage

end MediaServer.Connector.Sql
