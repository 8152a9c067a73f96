import Mathlib.Tactic.Common

/-!
# Protocol data

The values that travel between the transport, the endpoint, the cluster room and
the SDN, as `packages/protocol` and `media_core/src/cluster.rs` declare them.
Newtypes around strings and machine words are plain abbreviations; records and
enumerations keep the source's fields.

Two things come from crates outside the repository and stay parameters: the
`bincode` encoding of a record (`Bincode`) and the SDN's feedback value
(`FeedbackApi`).
-/

namespace MediaServer

abbrev Bytes := List UInt8
abbrev AppId := String
abbrev RoomId := String
abbrev PeerId := String
abbrev TrackName := String
abbrev MessageChannelLabel := String
abbrev RemoteTrackId := UInt16
abbrev LocalTrackId := UInt16
abbrev TrackPriority := UInt32
abbrev PeerHashCode := UInt64
abbrev ClusterRoomHash := UInt64
abbrev NodeId := UInt32

/-- A point in time, in nanoseconds. -/
abbrev Instant := Nat

/-- The milliseconds between two instants; zero when the first is not the later one. -/
def Instant.millisSince (now earlier : Instant) : Nat := (now - earlier) / 1000000

/-! ### Media -/

inductive MediaKind where
  | audio
  | video
deriving DecidableEq, Repr

def MediaKind.isAudio : MediaKind → Bool
  | .audio => true
  | .video => false

def MediaKind.isVideo : MediaKind → Bool
  | .audio => false
  | .video => true

inductive MediaScaling where
  | none
  | simulcast
deriving DecidableEq, Repr

inductive BitrateControlMode where
  | maxBitrate
  | dynamicConsumers
deriving DecidableEq, Repr

/-- Bitrates in kbps of the temporal layers of one spatial layer. -/
abbrev MediaLayerBitrate := Vector (Option UInt16) 3

/-- Bitrates of the spatial layers. -/
abbrev MediaLayersBitrate := Vector (Option MediaLayerBitrate) 3

inductive Vp9Profile where
  | p0
  | p2
deriving DecidableEq, Repr

inductive H264Profile where
  | p42001fNonInterleaved
  | p42001fSingleNal
  | p42e01fNonInterleaved
  | p42e01fSingleNal
  | p4d001fNonInterleaved
  | p4d001fSingleNal
  | p64001fNonInterleaved
deriving DecidableEq, Repr

structure H264Sim where
  spatial : UInt8
deriving DecidableEq, Repr

structure Vp8Sim where
  pictureId : Option UInt16
  tl0PicIdx : Option UInt8
  spatial : UInt8
  temporal : UInt8
  layerSync : Bool
deriving DecidableEq, Repr

structure Vp9Svc where
  spatial : UInt8
  temporal : UInt8
  beginFrame : Bool
  endFrame : Bool
  spatialLayers : Option UInt8
  pictureId : Option UInt16
  switchingPoint : Bool
  predictedFrame : Bool
deriving DecidableEq, Repr

inductive MediaOrientation where
  | deg0
  | deg90
  | deg180
  | deg270
deriving DecidableEq, Repr

inductive MediaMeta where
  | opus (audioLevel : Option Int8)
  | h264 (key : Bool) (profile : H264Profile) (sim : Option H264Sim)
      (rotation : Option MediaOrientation)
  | vp8 (key : Bool) (sim : Option Vp8Sim) (rotation : Option MediaOrientation)
  | vp9 (key : Bool) (profile : Vp9Profile) (svc : Option Vp9Svc)
      (rotation : Option MediaOrientation)
deriving DecidableEq

def MediaMeta.isAudio : MediaMeta → Bool
  | .opus _ => true
  | _ => false

def MediaMeta.isVideoKey : MediaMeta → Bool
  | .opus _ => false
  | .h264 key .. => key
  | .vp8 key .. => key
  | .vp9 key .. => key

/-- The kind of track a packet belongs to. -/
def MediaMeta.kind (mediaMeta : MediaMeta) : MediaKind :=
  if mediaMeta.isAudio then .audio else .video

structure MediaPacket where
  ts : UInt32
  seq : UInt16
  marker : Bool
  nackable : Bool
  layers : Option MediaLayersBitrate
  mediaMeta : MediaMeta
  data : Bytes
deriving DecidableEq

/-! ### Rooms, peers and tracks -/

structure RoomInfoPublish where
  peer : Bool
  tracks : Bool
deriving DecidableEq, Repr

structure RoomInfoSubscribe where
  peers : Bool
  tracks : Bool
deriving DecidableEq, Repr

structure PeerMeta where
  metadata : Option String
  extraData : Option String
deriving DecidableEq, Repr

structure PeerInfo where
  peer : PeerId
  peerMeta : PeerMeta
deriving Repr

structure TrackMeta where
  kind : MediaKind
  scaling : MediaScaling
  control : BitrateControlMode
  metadata : Option String
deriving DecidableEq, Repr

def TrackMeta.defaultAudio : TrackMeta := ⟨.audio, .none, .maxBitrate, Option.none⟩

structure TrackInfo where
  peer : PeerId
  track : TrackName
  trackMeta : TrackMeta
deriving DecidableEq, Repr

structure TrackSource where
  peer : PeerId
  track : TrackName
deriving DecidableEq, Repr

inductive AudioMixerMode where
  | auto
  | manual
deriving DecidableEq, Repr

structure AudioMixerConfig where
  mode : AudioMixerMode
  outputs : List LocalTrackId
  sources : List TrackSource
deriving DecidableEq, Repr

/-! ### What an endpoint and its room say to each other -/

inductive ClusterRemoteTrackControl where
  | started (name : TrackName) (trackMeta : TrackMeta)
  | media (media : MediaPacket)
  | ended (name : TrackName) (trackMeta : TrackMeta)
deriving DecidableEq

inductive ClusterRemoteTrackEvent where
  | requestKeyFrame
  | limitBitrate (min max : UInt64)
deriving DecidableEq

inductive ClusterLocalTrackControl where
  | subscribe (peer : PeerId) (track : TrackName)
  | requestKeyFrame
  | desiredBitrate (bitrate : UInt64)
  | unsubscribe
deriving DecidableEq

inductive ClusterLocalTrackEvent where
  | relayChanged
  | sourceChanged
  | media (channel : UInt64) (media : MediaPacket)
deriving DecidableEq

inductive ClusterAudioMixerControl where
  | attach (sources : List TrackSource)
  | detach (sources : List TrackSource)
deriving DecidableEq

inductive ClusterAudioMixerEvent where
  | slotSet (slot : UInt8) (peer : PeerId) (track : TrackName)
  | slotUnset (slot : UInt8)
deriving DecidableEq

inductive ClusterMessageChannelControl where
  | startPublish
  | stopPublish
  | subscribe
  | unsubscribe
  | publishData (peer : PeerId) (data : Bytes)
deriving DecidableEq

inductive ClusterEndpointControl where
  | join (peer : PeerId) (peerMeta : PeerMeta) (publish : RoomInfoPublish)
      (subscribe : RoomInfoSubscribe) (mixer : Option AudioMixerConfig)
  | leave
  | subscribePeer (peer : PeerId)
  | unsubscribePeer (peer : PeerId)
  | audioMixer (control : ClusterAudioMixerControl)
  | remoteTrack (track : RemoteTrackId) (control : ClusterRemoteTrackControl)
  | localTrack (track : LocalTrackId) (control : ClusterLocalTrackControl)
  | messageChannel (label : MessageChannelLabel) (control : ClusterMessageChannelControl)
deriving DecidableEq

inductive ClusterEndpointEvent where
  | peerJoined (peer : PeerId) (peerMeta : PeerMeta)
  | peerLeaved (peer : PeerId) (peerMeta : PeerMeta)
  | trackStarted (peer : PeerId) (track : TrackName) (trackMeta : TrackMeta)
  | trackStopped (peer : PeerId) (track : TrackName) (trackMeta : TrackMeta)
  | audioMixer (event : ClusterAudioMixerEvent)
  | remoteTrack (track : RemoteTrackId) (event : ClusterRemoteTrackEvent)
  | localTrack (track : LocalTrackId) (event : ClusterLocalTrackEvent)
  | messageChannelData (label : MessageChannelLabel) (peer : PeerId) (data : Bytes)
deriving DecidableEq

/-! ### What a room and the SDN say to each other -/

namespace DhtKv

abbrev Map := UInt64
abbrev Key := UInt64

inductive MapControl where
  | set (key : Key) (data : Bytes)
  | del (key : Key)
  | sub
  | unsub
deriving DecidableEq

inductive MapEvent where
  | onSet (key : Key) (source : NodeId) (data : Bytes)
  | onDel (key : Key) (source : NodeId)
  | onRelaySelected (node : NodeId)

/-- `dht_kv::Control::MapCmd`, the only control a room sends. -/
structure Control where
  map : Map
  cmd : MapControl
deriving DecidableEq

end DhtKv

namespace Pubsub

abbrev ChannelId := UInt64

inductive ChannelControl (Feedback : Type) where
  | subAuto
  | unsubAuto
  | feedbackAuto (fb : Feedback)
  | pubStart
  | pubStop
  | pubData (data : Bytes)
deriving DecidableEq

structure Control (Feedback : Type) where
  channel : ChannelId
  control : ChannelControl Feedback
deriving DecidableEq

inductive ChannelEvent (Feedback : Type) where
  | routeChanged (next : NodeId)
  | sourceData (source : NodeId) (data : Bytes)
  | feedbackData (fb : Feedback)

end Pubsub

/-! ### What comes from outside the repository -/

/-- The `bincode` encoding of one record type. -/
structure Bincode (α : Type) where
  serialize : α → Bytes
  deserialize : Bytes → Option α

/-- The SDN's `pubsub::Feedback`, as far as the media server reads or builds it. -/
structure FeedbackApi (Feedback : Type) where
  kind : Feedback → UInt8
  min : Feedback → UInt64
  max : Feedback → UInt64
  simple : (kind : UInt8) → (value : UInt64) → (intervalMs timeoutMs : UInt16) → Feedback
  add : Feedback → Feedback → Feedback

/-- A feedback value to evaluate the model with: its fields, summed when two are added. -/
structure PlainFeedback where
  kind : UInt8
  min : UInt64
  max : UInt64
deriving DecidableEq, Repr

def PlainFeedback.api : FeedbackApi PlainFeedback where
  kind := PlainFeedback.kind
  min := PlainFeedback.min
  max := PlainFeedback.max
  simple kind value _ _ := ⟨kind, value, value⟩
  add a b := ⟨a.kind, a.min + b.min, a.max + b.max⟩

end MediaServer
