import MediaServer.Cluster.IdGenerator
import Mathlib.Data.List.Basic
import Mathlib.Data.Nat.ModEq
import Mathlib.Data.Set.Function

/-!
# Names of pubsub channels

Three generators turn what a channel is for into a 64-bit id: a track of a peer, a
message channel with a label, or the mixer of a room.  What they write to the
hasher is never ambiguous about where a string ends, because no UTF-8 byte is
`0xff`.  It is ambiguous about the kind of channel: a track called
`message_channel` of a peer is written exactly like the message channel whose label
is that peer's name.  The main result says that this is the only confusion.
-/

namespace MediaServer

open Pubsub

/-! ### What is written to the hasher -/

theorem byteArray_loop_eq (bytes : ByteArray) (i : Nat) (acc : List UInt8) :
    ByteArray.toList.loop bytes i acc = acc.reverse ++ bytes.data.toList.drop i := by
  fun_induction ByteArray.toList.loop bytes i acc with
  | case1 i acc hlt ih =>
    have hlen : i < bytes.data.toList.length := by simpa using hlt
    rw [ih, List.drop_eq_getElem_cons hlen]
    have hget : bytes.get! i = bytes.data.toList[i] := by
      simp only [ByteArray.get!, Array.getElem_toList]
      exact getElem!_pos bytes.data i (by simpa using hlt)
    simp [hget]
  | case2 i acc hge =>
    have hlen : bytes.data.toList.length ≤ i := by simpa using hge
    rw [List.drop_eq_nil_of_le hlen, List.append_nil]

theorem byteArray_toList_eq (bytes : ByteArray) : bytes.toList = bytes.data.toList := by
  rw [ByteArray.toList, byteArray_loop_eq]
  rfl

/-- No character has the byte `0xff` in its UTF-8 encoding. -/
theorem not_mem_utf8EncodeChar (c : Char) : (0xff : UInt8) ∉ String.utf8EncodeChar c := by
  have hne : ∀ n < 0xff, (0xff : UInt8) ≠ UInt8.ofNat n := by
    intro n hn heq
    have hnat := congrArg UInt8.toNat heq
    simp only [UInt8.toNat_ofNat'] at hnat
    have hff : (0xff : UInt8).toNat = 255 := rfl
    omega
  unfold String.utf8EncodeChar
  simp only
  intro hmem
  split at hmem
  · rename_i hsmall
    rw [List.mem_singleton] at hmem
    exact hne _ (by omega) hmem
  · split at hmem
    · rcases List.mem_cons.mp hmem with heq | hmem
      · exact hne _ (by omega) heq
      · rw [List.mem_singleton] at hmem
        exact hne _ (by omega) hmem
    · split at hmem
      · rcases List.mem_cons.mp hmem with heq | hmem
        · exact hne _ (by omega) heq
        · rcases List.mem_cons.mp hmem with heq | hmem
          · exact hne _ (by omega) heq
          · rw [List.mem_singleton] at hmem
            exact hne _ (by omega) hmem
      · rcases List.mem_cons.mp hmem with heq | hmem
        · exact hne _ (by omega) heq
        · rcases List.mem_cons.mp hmem with heq | hmem
          · exact hne _ (by omega) heq
          · rcases List.mem_cons.mp hmem with heq | hmem
            · exact hne _ (by omega) heq
            · rw [List.mem_singleton] at hmem
              exact hne _ (by omega) hmem

/-- The bytes of a string before the end mark. -/
def strBytes (s : String) : Bytes := s.toUTF8.toList

theorem strBytes_injective : Function.Injective strBytes := by
  intro s t h
  rw [strBytes, strBytes, byteArray_toList_eq, byteArray_toList_eq, Array.toList_inj,
    String.toUTF8_eq_toByteArray, String.toUTF8_eq_toByteArray] at h
  exact String.toByteArray_inj.mp (ByteArray.ext h)

theorem not_mem_strBytes (s : String) : (0xff : UInt8) ∉ strBytes s := by
  rw [strBytes, byteArray_toList_eq, String.toUTF8_eq_toByteArray]
  have hutf8 := s.isValidUTF8
  obtain ⟨chars, hchars⟩ := hutf8
  rw [hchars, List.utf8Encode, List.toList_data_toByteArray, List.mem_flatMap]
  rintro ⟨c, -, hmem⟩
  exact not_mem_utf8EncodeChar c hmem

/-- A hashed string says where it ends, so what follows it is determined. -/
theorem hashStr_append_inj {s t : String} {rest rest' : Bytes}
    (h : hashStr s ++ rest = hashStr t ++ rest') : s = t ∧ rest = rest' := by
  change (strBytes s ++ [0xff]) ++ rest = (strBytes t ++ [0xff]) ++ rest' at h
  rw [List.append_assoc, List.append_assoc, List.singleton_append, List.singleton_append] at h
  -- the end mark is the first `0xff` on both sides
  rcases List.append_eq_append_iff.mp h with ⟨mid, hs, hrest⟩ | ⟨mid, ht, hrest⟩
  · cases mid with
    | nil =>
      rw [List.append_nil] at hs
      exact ⟨strBytes_injective hs.symm, (List.cons.inj hrest).2⟩
    | cons byte mid =>
      obtain ⟨rfl, -⟩ := List.cons.inj hrest
      exact absurd (hs ▸ List.mem_append_right _ (List.mem_cons_self ..)) (not_mem_strBytes t)
  · cases mid with
    | nil =>
      rw [List.append_nil] at ht
      exact ⟨strBytes_injective ht, (List.cons.inj hrest).2.symm⟩
    | cons byte mid =>
      obtain ⟨rfl, -⟩ := List.cons.inj hrest
      exact absurd (ht ▸ List.mem_append_right _ (List.mem_cons_self ..)) (not_mem_strBytes s)

theorem hashStr_ne_nil (s : String) : hashStr s ≠ [] := by
  simp [hashStr]

theorem length_hashU64 (x : UInt64) : (hashU64 x).length = 8 := by
  simp [hashU64]

/-- The eight bytes of a word determine it. -/
theorem hashU64_injective : Function.Injective hashU64 := by
  intro x y h
  have hbyte : ∀ i < 8, x.toNat / 256 ^ i % 256 = y.toNat / 256 ^ i % 256 := by
    intro i hi
    have hget := congrArg (fun bytes : Bytes => bytes[i]?) h
    simp only [hashU64, List.getElem?_map, List.getElem?_range hi, Option.map_some,
      Option.some_inj] at hget
    have hnat := congrArg UInt8.toNat hget
    have hshift : (8 * i).toUInt64.toNat % 64 = 8 * i := by
      have hto : (8 * i).toUInt64.toNat = 8 * i := by
        simp only [Nat.toUInt64_eq, UInt64.toNat_ofNat']
        omega
      omega
    simp only [UInt64.toNat_toUInt8, UInt64.toNat_shiftRight, hshift, Nat.shiftRight_eq_div_pow,
      Nat.pow_mul] at hnat
    exact hnat
  -- byte by byte, the two words agree on ever longer remainders
  have hmod : ∀ n ≤ 8, x.toNat % 256 ^ n = y.toNat % 256 ^ n := by
    intro n
    induction n with
    | zero => simp [Nat.mod_one]
    | succ n ih =>
      intro hn
      rw [Nat.mod_pow_succ, Nat.mod_pow_succ, ih (by omega), hbyte n (by omega)]
  have hfull := hmod 8 le_rfl
  have hx : x.toNat < 256 ^ 8 := x.toNat_lt
  have hy : y.toNat < 256 ^ 8 := y.toNat_lt
  rw [Nat.mod_eq_of_lt hx, Nat.mod_eq_of_lt hy] at hfull
  exact UInt64.toNat_inj.mp hfull

/-! ### Channels -/

/-- What a pubsub channel is for. -/
inductive ChannelName where
  | track (room : ClusterRoomHash) (peer : PeerId) (name : TrackName)
  | message (room : ClusterRoomHash) (label : MessageChannelLabel)
  | mixerAuto (room : ClusterRoomHash)
deriving Repr

namespace ChannelName

/-- The id of a channel: each kind by its own generator. -/
def id (hasher : Hasher) : ChannelName → ChannelId
  | .track room peer name => IdGenerator.genTrackChannelId hasher room peer name
  | .message room label => IdGenerator.genMsgChannelId hasher room label
  | .mixerAuto room => IdGenerator.genMixerAutoChannelId hasher room

/-- What the generator of a channel writes to the hasher. -/
def written : ChannelName → Bytes
  | .track room peer name => hashU64 room ++ hashStr peer ++ hashStr name
  | .message room label => hashU64 room ++ hashStr label ++ hashStr "message_channel"
  | .mixerAuto room => hashU64 room ++ hashStr "mixer_auto"

theorem id_eq (hasher : Hasher) (name : ChannelName) : name.id hasher = hasher name.written := by
  cases name with
  | track room peer track => rfl
  | message room label => rfl
  | mixerAuto room => rfl

/-- The track and the message channel that are written alike. -/
inductive Confused : ChannelName → ChannelName → Prop
  | track (room : ClusterRoomHash) (name : String) :
      Confused (.track room name "message_channel") (.message room name)
  | message (room : ClusterRoomHash) (name : String) :
      Confused (.message room name) (.track room name "message_channel")

/-- A room and two strings, as two of the generators write them. -/
theorem written_pair_inj {room room' : ClusterRoomHash} {first first' second second' : String}
    (h : hashU64 room ++ hashStr first ++ hashStr second =
      hashU64 room' ++ hashStr first' ++ hashStr second') :
    room = room' ∧ first = first' ∧ second = second' := by
  rw [List.append_assoc, List.append_assoc] at h
  obtain ⟨hroom, hrest⟩ := List.append_inj h (by rw [length_hashU64, length_hashU64])
  obtain ⟨hfirst, hsecond⟩ := hashStr_append_inj hrest
  rw [← List.append_nil (hashStr second), ← List.append_nil (hashStr second')] at hsecond
  exact ⟨hashU64_injective hroom, hfirst, (hashStr_append_inj hsecond).1⟩

/-- A room and two strings are never written like a room and one string. -/
theorem written_pair_ne_single {room room' : ClusterRoomHash} {first second only : String} :
    hashU64 room ++ hashStr first ++ hashStr second ≠ hashU64 room' ++ hashStr only := by
  intro h
  rw [List.append_assoc] at h
  obtain ⟨-, hrest⟩ := List.append_inj h (by rw [length_hashU64, length_hashU64])
  rw [← List.append_nil (hashStr only)] at hrest
  exact hashStr_ne_nil second (hashStr_append_inj hrest).2

/-- Two channels are written alike exactly when they are the same channel or confused. -/
theorem written_eq_iff (a b : ChannelName) : a.written = b.written ↔ a = b ∨ Confused a b := by
  constructor
  · intro h
    cases a with
    | track room peer track =>
      cases b with
      | track room' peer' track' =>
        obtain ⟨rfl, rfl, rfl⟩ := written_pair_inj h
        exact Or.inl rfl
      | message room' label =>
        obtain ⟨rfl, rfl, rfl⟩ := written_pair_inj h
        exact Or.inr (.track room peer)
      | mixerAuto room' => exact absurd h written_pair_ne_single
    | message room label =>
      cases b with
      | track room' peer' track' =>
        obtain ⟨rfl, rfl, rfl⟩ := written_pair_inj h
        exact Or.inr (.message room label)
      | message room' label' =>
        obtain ⟨rfl, rfl, -⟩ := written_pair_inj h
        exact Or.inl rfl
      | mixerAuto room' => exact absurd h written_pair_ne_single
    | mixerAuto room =>
      cases b with
      | track room' peer' track' => exact absurd h.symm written_pair_ne_single
      | message room' label' => exact absurd h.symm written_pair_ne_single
      | mixerAuto room' =>
        obtain ⟨hroom, -⟩ := List.append_inj h (by rw [length_hashU64, length_hashU64])
        rw [hashU64_injective hroom]
        exact Or.inl rfl
  · rintro (rfl | hconfused)
    · rfl
    · cases hconfused <;> rfl

/-- **Domain separation.** Take any collection of channels for which the hasher does not
    collide on what is written to it.  Equal ids come from the same generator with the
    same arguments if and only if the collection does not contain both a track called
    `message_channel` and a message channel of the same room labelled by the track's
    peer. -/
theorem channel_separation_iff (hasher : Hasher) (names : Set ChannelName)
    (hinj : Set.InjOn hasher (written '' names)) :
    Set.InjOn (ChannelName.id hasher) names ↔
      ∀ room peer, ¬ (ChannelName.track room peer "message_channel" ∈ names ∧
        ChannelName.message room peer ∈ names) := by
  constructor
  · rintro hsep room peer ⟨htrack, hmessage⟩
    have hid : (ChannelName.track room peer "message_channel").id hasher =
        (ChannelName.message room peer).id hasher := rfl
    cases hsep htrack hmessage hid
  · intro hnone a ha b hb hid
    rw [id_eq, id_eq] at hid
    have hwritten := hinj (Set.mem_image_of_mem _ ha) (Set.mem_image_of_mem _ hb) hid
    rcases (written_eq_iff a b).mp hwritten with heq | hconfused
    · exact heq
    · cases hconfused with
      | track room name => exact absurd ⟨ha, hb⟩ (hnone room name)
      | message room name => exact absurd ⟨hb, ha⟩ (hnone room name)

/-- The channels of a small room: two tracks, two message channels and the mixer. -/
def smallRoom : List ChannelName :=
  [.track 1 "alice" "audio_main", .track 1 "bob" "message_channel", .message 1 "alice",
    .message 1 "chat", .mixerAuto 1]

theorem smallRoom_injOn : Set.InjOn fnv1a (written '' {name | name ∈ smallRoom}) := by
  have hall : ∀ a ∈ smallRoom, ∀ b ∈ smallRoom,
      fnv1a a.written = fnv1a b.written → a.written = b.written := by
    decide +kernel
  rintro _ ⟨a, ha, rfl⟩ _ ⟨b, hb, rfl⟩ heq
  exact hall a ha b hb heq

theorem channel_separation_smallRoom :
    Set.InjOn (ChannelName.id fnv1a) {name | name ∈ smallRoom} := by
  refine (channel_separation_iff fnv1a _ smallRoom_injOn).mpr ?_
  rintro room peer ⟨htrack, hmessage⟩
  simp only [smallRoom, Set.mem_ofPred_eq, List.mem_cons, ChannelName.track.injEq,
    ChannelName.message.injEq, List.not_mem_nil, reduceCtorEq, false_or, or_false] at htrack hmessage
  simp_all

/-- A client that calls its track `message_channel` publishes into the message channel
    that carries its peer id as a label. -/
theorem track_shadows_message_channel :
    Set.InjOn fnv1a (written '' {.track 1 "chat" "message_channel", .message 1 "chat"}) ∧
      ¬ Set.InjOn (ChannelName.id fnv1a)
        {.track 1 "chat" "message_channel", .message 1 "chat"} := by
  constructor
  · rintro _ ⟨a, ha, rfl⟩ _ ⟨b, hb, rfl⟩ -
    rcases ha with rfl | rfl
    · rcases hb with rfl | rfl <;> rfl
    · rcases hb with rfl | rfl <;> rfl
  · intro hsep
    have heq := hsep (Set.mem_insert _ _) (Set.mem_insert_of_mem _ rfl)
      (show (ChannelName.track 1 "chat" "message_channel").id fnv1a =
        (ChannelName.message 1 "chat").id fnv1a from rfl)
    cases heq

end ChannelName

end MediaServer
