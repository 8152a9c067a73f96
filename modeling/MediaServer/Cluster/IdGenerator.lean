import MediaServer.Protocol

/-!
# Identifiers derived by hashing

`media_core/src/cluster/id_generator.rs`: every DHT map, DHT key and pubsub
channel of a room is the 64-bit hash of what it stands for.  The hasher is a
parameter; what the code decides is the byte string that is fed to it.  Rust
hashes a string as its UTF-8 bytes followed by `0xff` and a `u64` as its eight
bytes in native (little-endian) order.
-/

namespace MediaServer

open DhtKv Pubsub

/-- `DefaultHasher`: the word that `finish` returns after the bytes were written. -/
abbrev Hasher := Bytes → UInt64

/-- A hasher to evaluate the model with (FNV-1a). -/
def fnv1a : Hasher :=
  List.foldl (fun acc byte => (acc ^^^ byte.toUInt64) * 0x100000001b3) 0xcbf29ce484222325

def hashStr (s : String) : Bytes := s.toUTF8.toList ++ [0xff]

def hashU64 (x : UInt64) : Bytes :=
  (List.range 8).map fun i => (x >>> (8 * i).toUInt64).toUInt8

namespace IdGenerator

variable (hasher : Hasher)

def peerMap (room : ClusterRoomHash) (peer : PeerId) : Map :=
  hasher (hashU64 room ++ hashStr peer)

def peersMap (room : ClusterRoomHash) : Map := room

def peersKey (peer : PeerId) : Key := hasher (hashStr peer)

def tracksMap (room : ClusterRoomHash) : Map := room + 1

def tracksKey (peer : PeerId) (track : TrackName) : Key :=
  hasher (hashStr peer ++ hashStr track)

def genTrackChannelId (room : ClusterRoomHash) (peer : PeerId) (track : TrackName) :
    ChannelId :=
  hasher (hashU64 room ++ hashStr peer ++ hashStr track)

def genMsgChannelId (room : ClusterRoomHash) (label : MessageChannelLabel) : ChannelId :=
  hasher (hashU64 room ++ hashStr label ++ hashStr "message_channel")

def genMixerAutoChannelId (room : ClusterRoomHash) : ChannelId :=
  hasher (hashU64 room ++ hashStr "mixer_auto")

/-- The two maps every room has are never the same map. -/
theorem peersMap_ne_tracksMap (room : ClusterRoomHash) : peersMap room ≠ tracksMap room := by
  intro h
  have hzero : room + 0 = room + 1 := by
    rw [UInt64.add_zero]
    exact h
  exact absurd (UInt64.add_right_inj room |>.mp hzero) (by decide)

end IdGenerator

/-- `PeerId::hash_code`. -/
def hashCode (hasher : Hasher) (peer : PeerId) : PeerHashCode := hasher (hashStr peer)

/-- `ClusterRoomHash::generate`. -/
def ClusterRoomHash.generate (hasher : Hasher) (app : AppId) (room : RoomId) :
    ClusterRoomHash :=
  hasher (hashStr app ++ hashStr room)

end MediaServer
