import MediaServer.Endpoint.Selector.H264Sim
import MediaServer.Endpoint.Selector.Vp8Sim
import MediaServer.Endpoint.Selector.Vp9Svc

/-!
# The packet selector of a local track

`local_track/packet_selector.rs`.  It decides which packets of the source go to the client and
rewrites their sequence numbers and timestamps.  Audio passes.  For video the first key packet of
a source decides which selector is made; until there is one no packet passes, and key frames are
requested.

A selector in a box is a sum of the four kinds.  Their `on_tick` does nothing and is left out.
-/

namespace MediaServer.Endpoint

inductive VideoSelector where
  | h264Sim (s : H264Sim.Selector)
  | vp8Sim (s : Vp8Sim.Selector)
  | vp9Svc (s : Vp9Svc.Selector)
  | single

namespace VideoSelector

def onInit (ctx : VideoSelectorCtx) : VideoSelector → VideoSelectorCtx
  | .h264Sim _ => ctx
  | .vp8Sim s => (s.onInit ctx).2
  | .vp9Svc s => (s.onInit ctx).2
  | .single => ctx

def setTargetBitrate (bitrate : UInt64) : VideoSelector → VideoSelector
  | .h264Sim s => .h264Sim (s.setTargetBitrate bitrate)
  | .vp8Sim s => .vp8Sim (s.setTargetBitrate bitrate)
  | .vp9Svc s => .vp9Svc (s.setTargetBitrate bitrate)
  | .single => .single

def setLimitLayer (maxSpatial maxTemporal : UInt8) : VideoSelector → VideoSelector
  | .h264Sim s => .h264Sim (s.setLimitLayer maxSpatial maxTemporal)
  | .vp8Sim s => .vp8Sim (s.setLimitLayer maxSpatial maxTemporal)
  | .vp9Svc s => .vp9Svc (s.setLimitLayer maxSpatial maxTemporal)
  | .single => .single

def select (ctx : VideoSelectorCtx) (pkt : MediaPacket) :
    VideoSelector → Except Panic (Option MediaPacket × VideoSelector × VideoSelectorCtx)
  | .h264Sim s => .ok ((s.select ctx pkt).map id (Prod.map .h264Sim id))
  | .vp8Sim s => do
    let (allowed, s, ctx) ← s.select ctx pkt
    return (allowed, .vp8Sim s, ctx)
  | .vp9Svc s => do
    let (allowed, s, ctx) ← s.select ctx pkt
    return (allowed, .vp9Svc s, ctx)
  | .single => .ok (some pkt, .single, ctx)

def popAction : VideoSelector → Option Action × VideoSelector
  | .h264Sim s => s.popAction.map id .h264Sim
  | .vp8Sim s => s.popAction.map id .vp8Sim
  | .vp9Svc s => s.popAction.map id .vp9Svc
  | .single => (none, .single)

/-- The requests that wait in the selector. -/
def waiting : VideoSelector → Nat
  | .h264Sim s => s.queue.length
  | .vp8Sim s => s.queue.length
  | .vp9Svc s => s.queue.length
  | .single => 0

end VideoSelector

def createSelector (pkt : MediaPacket) (bitrate : UInt64) (limit : UInt8 × UInt8) :
    Option VideoSelector :=
  let layers := pkt.layers.getD MediaLayersBitrate.defaultSim
  match pkt.mediaMeta with
  | .opus _ => none
  | .h264 _ _ (some _) _ => some (.h264Sim (.new bitrate layers limit))
  | .vp8 _ (some _) _ => some (.vp8Sim (.new bitrate layers limit))
  | .vp9 _ _ (some _) _ => some (.vp9Svc (.new false bitrate layers limit))
  | .h264 _ _ none _ | .vp8 _ none _ | .vp9 _ _ none _ => some .single

def requestKeyFrameIntervalMs : Nat := 100

structure PacketSelector where
  kind : MediaKind
  ctx : VideoSelectorCtx
  selectedChannel : Option UInt64
  needKeyFrame : Bool
  lastKeyFrameTs : Option Nat
  selector : Option VideoSelector
  queue : List Action
  bitrate : Option UInt64
  limit : UInt8 × UInt8

namespace PacketSelector

def new (kind : MediaKind) (maxSpatial maxTemporal : UInt8) : PacketSelector where
  kind := kind
  ctx := VideoSelectorCtx.new kind
  selectedChannel := none
  needKeyFrame := false
  lastKeyFrameTs := none
  selector := none
  queue := []
  bitrate := none
  limit := (maxSpatial, maxTemporal)

/-- The interval since the last request is over. -/
def requestDue (s : PacketSelector) (nowMs : Nat) : Bool :=
  match s.lastKeyFrameTs with
  | none => true
  | some last => last + requestKeyFrameIntervalMs ≤ nowMs

def onTick (s : PacketSelector) (nowMs : Nat) : PacketSelector :=
  if s.needKeyFrame && s.requestDue nowMs then
    { s with lastKeyFrameTs := some nowMs, queue := s.queue ++ [Action.requestKeyFrame] }
  else s

def reset (s : PacketSelector) : PacketSelector :=
  { s with
    selectedChannel := none
    needKeyFrame := false
    lastKeyFrameTs := none
    bitrate := none }

def setTargetBitrate (s : PacketSelector) (bitrate : UInt64) : PacketSelector :=
  { s with
    bitrate := some bitrate
    selector := s.selector.map (·.setTargetBitrate bitrate) }

def setLimitLayer (s : PacketSelector) (maxSpatial maxTemporal : UInt8) : PacketSelector :=
  { s with
    limit := (maxSpatial, maxTemporal)
    selector := s.selector.map (·.setLimitLayer maxSpatial maxTemporal) }

/-- What `select_audio` and `select_video` do with a packet that passes. -/
def emit (s : PacketSelector) (nowMs : Nat) (pkt : MediaPacket) :
    Except Panic (Option MediaPacket × PacketSelector) := do
  let (ts, tsRewrite) := s.ctx.tsRewrite.generate tsMax tsDeltaReinit nowMs pkt.ts.toNat
  let (seq, seqRewrite) ← s.ctx.seqRewrite.generate seqMax pkt.seq.toNat
  let s := { s with ctx := { s.ctx with tsRewrite, seqRewrite } }
  match seq with
  | none => return (none, s)
  | some seq => return (some { pkt with ts := .ofNat ts, seq := .ofNat seq }, s)

def selectAudio (s : PacketSelector) (nowMs : Nat) (channel : UInt64) (pkt : MediaPacket) :
    Except Panic (Option MediaPacket × PacketSelector) :=
  let s :=
    if s.selectedChannel ≠ some channel then
      { s with ctx := s.ctx.reinit, selectedChannel := some channel }
    else s
  s.emit nowMs pkt

/-- The first block of `select_video_inner`: the packet is of another source. -/
def changeSource (s : PacketSelector) (nowMs : Nat) (channel : UInt64) (pkt : MediaPacket) :
    PacketSelector :=
  if s.selectedChannel ≠ some channel then
    let s := { s with ctx := s.ctx.reinit, selectedChannel := some channel, selector := none }
    if ¬ pkt.mediaMeta.isVideoKey then
      { s with
        queue := s.queue ++ [Action.requestKeyFrame]
        needKeyFrame := true
        lastKeyFrameTs := some nowMs }
    else s
  else s

/-- The last block of `select_video_inner`: a key packet is used to make the selector. -/
def makeSelector (s : PacketSelector) (bitrate : UInt64) (pkt : MediaPacket) :
    Except Panic PacketSelector :=
  if s.selector.isNone ∧ pkt.mediaMeta.isVideoKey then
    match createSelector pkt bitrate s.limit with
    | some selector => .ok { s with selector := some selector, ctx := selector.onInit s.ctx }
    | none => .error ⟨"Should have video selector"⟩
  else .ok s

def selectVideoInner (s : PacketSelector) (nowMs : Nat) (channel : UInt64) (pkt : MediaPacket) :
    Except Panic (Option MediaPacket × PacketSelector) :=
  let s := s.changeSource nowMs channel pkt
  match s.bitrate with
  | none => .ok (none, s)
  | some bitrate => do
    let s :=
      if s.needKeyFrame ∧ pkt.mediaMeta.isVideoKey then { s with needKeyFrame := false } else s
    let s ← s.makeSelector bitrate pkt
    match s.selector with
    | none => return (none, s)
    | some selector =>
      let (allowed, selector, ctx) ← selector.select s.ctx pkt
      return (allowed, { s with selector := some selector, ctx })

def selectVideo (s : PacketSelector) (nowMs : Nat) (channel : UInt64) (pkt : MediaPacket) :
    Except Panic (Option MediaPacket × PacketSelector) := do
  let (allowed, s) ← s.selectVideoInner nowMs channel pkt
  match allowed with
  | some pkt => s.emit nowMs pkt
  | none => return (none, s)

def select (s : PacketSelector) (nowMs : Nat) (channel : UInt64) (pkt : MediaPacket) :
    Except Panic (Option MediaPacket × PacketSelector) :=
  if s.kind.isAudio then s.selectAudio nowMs channel pkt else s.selectVideo nowMs channel pkt

/-- The loop of `pop_output` over the requests of the selector: they are dropped until one is
    due. -/
def popActions (s : PacketSelector) (nowMs : Nat) : Nat → Option Action × PacketSelector
  | 0 => (none, s)
  | waiting + 1 =>
    match s.selector.map VideoSelector.popAction with
    | some (some action, selector) =>
      let s := { s with selector := some selector }
      if s.requestDue nowMs then
        (some action, { s with needKeyFrame := true, lastKeyFrameTs := some nowMs })
      else s.popActions nowMs waiting
    | _ => (none, s)

def popOutput (s : PacketSelector) (nowMs : Nat) : Option Action × PacketSelector :=
  match s.queue with
  | out :: queue => (some out, { s with queue })
  | [] => s.popActions nowMs ((s.selector.map VideoSelector.waiting).getD 0)

end PacketSelector

end MediaServer.Endpoint
