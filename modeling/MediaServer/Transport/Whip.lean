import MediaServer.Transport.Link

/-!
# The WHIP transport

`TransportWebrtcWhip` (`transport_webrtc/src/transport/whip.rs`): a client that publishes
one audio and one video track.  It connects and joins its room when `str0m` connects.
-/

namespace MediaServer.Transport

structure TransportWebrtcWhip where
  remote : IpAddr
  room : RoomId
  peer : PeerId
  extraData : Option String
  state : State
  audioMid : Option Mid
  /-- The mid and the simulcast flag. -/
  videoMid : Option (Mid × Bool)
  queue : List InternalOutput

namespace TransportWebrtcWhip

def audioTrack : RemoteTrackId := 0
def videoTrack : RemoteTrackId := 1
def audioName : String := "audio_main"
def videoName : String := "video_main"

def new (room : RoomId) (peer : PeerId) (extraData : Option String) (remote : IpAddr) :
    TransportWebrtcWhip :=
  { remote := remote
    room := room
    peer := peer
    extraData := extraData
    state := .new
    audioMid := none
    videoMid := none
    queue := [] }

def push (t : TransportWebrtcWhip) (outs : List InternalOutput) : TransportWebrtcWhip :=
  { t with queue := t.queue ++ outs }

/-- The link is in a new state, which the endpoint is told. -/
def moveTo (t : TransportWebrtcWhip) (next : State × List TransportState) :
    TransportWebrtcWhip :=
  { t with state := next.1 }.push (stateOutputs next.2)

def isEmpty (t : TransportWebrtcWhip) : Bool := t.state.isShutdown && t.queue.isEmpty

def onTick (t : TransportWebrtcWhip) (now : Instant) : TransportWebrtcWhip :=
  t.moveTo (t.state.onTick now t.remote)

def onEndpointEvent (t : TransportWebrtcWhip) : EndpointEvent → TransportWebrtcWhip
  | .remoteMediaTrack _ .requestKeyFrame =>
      match t.videoMid with
      | none => t
      | some (mid, _) => t.push [.str0mKeyframe mid]
  | .remoteMediaTrack _ (.limitBitrateBps lo hi) =>
      match t.videoMid with
      | none => t
      | some (mid, sim) => t.push [.str0mLimitBitrate mid (if sim then hi else lo)]
  | _ => t

/-- `str0m` is connected, whatever the transport was doing. -/
def onConnected (t : TransportWebrtcWhip) : TransportWebrtcWhip :=
  (t.moveTo (.connected, [.connected t.remote])).push
    [.request 0 (.joinRoom t.room t.peer ⟨none, t.extraData⟩ ⟨true, true⟩ ⟨false, false⟩ none)]

def onStr0mMediaAdded (t : TransportWebrtcWhip) (media : MediaAdded) : TransportWebrtcWhip :=
  match media.direction, media.kind with
  | .sendOnly, _ | .inactive, _ => t
  | _, .audio =>
      if t.audioMid.isSome then t
      else
        { t with audioMid := some media.mid }.push
          [.event (.remoteTrack audioTrack
            (.started audioName 1 ⟨.audio, .none, .maxBitrate, none⟩))]
  | _, .video =>
      if t.videoMid.isSome then t
      else
        let scaling := if media.simulcast then MediaScaling.simulcast else MediaScaling.none
        { t with videoMid := some (media.mid, media.simulcast) }.push
          [.event (.remoteTrack videoTrack
            (.started videoName 1 ⟨.video, scaling, .maxBitrate, none⟩))]

def onStr0mEvent (t : TransportWebrtcWhip) (now : Instant) : Str0mEvent → TransportWebrtcWhip
  | .connected => t.onConnected
  | .iceConnectionStateChange ice => t.moveTo (t.state.onStr0mState now t.remote ice)
  | .mediaAdded media => t.onStr0mMediaAdded media
  | .rtpPacket payloadType _ (some pkt) =>
      t.push [.event (.remoteTrack (if payloadType = 111 then audioTrack else videoTrack)
        (.media pkt))]
  | _ => t

/-- Unlike its sibling for the SDK it asks only whether it is disconnected. -/
def onShutdown (t : TransportWebrtcWhip) : TransportWebrtcWhip :=
  match t.state with
  | .disconnected => t
  | _ => t.moveTo (.disconnected, [.disconnected none])

/-- Responses, of the endpoint as of `str0m`, are ignored. -/
inductive Input where
  | tick (now : Instant)
  | str0m (now : Instant) (event : Str0mEvent)
  | endpoint (event : EndpointEvent)
  | response
  | shutdown

def step (t : TransportWebrtcWhip) : Input → Except Panic TransportWebrtcWhip
  | .tick now => .ok (t.onTick now)
  | .str0m now event => .ok (t.onStr0mEvent now event)
  | .endpoint event => .ok (t.onEndpointEvent event)
  | .response => .ok t
  | .shutdown => .ok t.onShutdown

end TransportWebrtcWhip

end MediaServer.Transport
