import MediaServer.Endpoint.Selector.Context

/-!
# The H264 simulcast selector

`packet_selector/video_h264_sim.rs`.  H264 has no temporal layers here: the selector takes the
spatial part of the chosen layer and forwards the packets of one spatial layer.
-/

namespace MediaServer.Endpoint.H264Sim

structure Selector where
  bitrateKbps : UInt16
  layers : MediaLayersBitrate
  current : Option UInt8
  target : Option UInt8
  queue : List Action
  limit : UInt8 × UInt8
deriving DecidableEq

namespace Selector

def new (bitrate : UInt64) (layers : MediaLayersBitrate) (limit : UInt8 × UInt8) : Selector where
  bitrateKbps := Endpoint.bitrateKbps bitrate
  layers := layers
  current := none
  target := (layers.selectLayer (Endpoint.bitrateKbps bitrate) limit.1 limit.2).map
    MediaLayerSelection.spatial
  queue := []
  limit := limit

def push (s : Selector) (action : Action) : Selector := { s with queue := s.queue ++ [action] }

def selectLayer (s : Selector) : Selector :=
  let target := (s.layers.selectLayer s.bitrateKbps s.limit.1 s.limit.2).map
    MediaLayerSelection.spatial
  if target ≠ s.target then
    let s := { s with target }
    match target, s.current with
    | some _, none => s.push .requestKeyFrame
    | some target, some current => if target ≠ current then s.push .requestKeyFrame else s
    | none, _ => s
  else s

def trySwitch (s : Selector) (ctx : VideoSelectorCtx) (pkt : MediaPacket) :
    Selector × VideoSelectorCtx :=
  if s.target = s.current then (s, ctx)
  else
    match pkt.mediaMeta with
    | .h264 key _ (some _) _ =>
      match s.current, s.target with
      | some current, some target =>
        if target < current then
          if key then ({ s with current := s.target }, ctx.reinit)
          else (s.push .requestKeyFrame, ctx)
        else if current < target then
          if key then ({ s with current := some target }, ctx.reinit)
          else (s.push .requestKeyFrame, ctx)
        else (s, ctx)
      | some _, none => ({ s with current := none }, ctx)
      | none, some target => if key then ({ s with current := some target }, ctx) else (s, ctx)
      | none, none => (s, ctx)
    | _ => (s, ctx)

def isAllow (s : Selector) (pkt : MediaPacket) : Option MediaPacket :=
  match s.current, pkt.mediaMeta with
  | some current, .h264 _ _ (some sim) _ => if current = sim.spatial then some pkt else none
  | _, _ => none

def setTargetBitrate (s : Selector) (bitrate : UInt64) : Selector :=
  { s with bitrateKbps := Endpoint.bitrateKbps bitrate }.selectLayer

def setLimitLayer (s : Selector) (maxSpatial maxTemporal : UInt8) : Selector :=
  { s with limit := (maxSpatial, maxTemporal) }.selectLayer

/-- What `select` does first: the bitrates that come with a packet replace those known. -/
def learn (s : Selector) (pkt : MediaPacket) : Selector :=
  match pkt.layers with
  | some layers => { s with layers }.selectLayer
  | none => s

def select (s : Selector) (ctx : VideoSelectorCtx) (pkt : MediaPacket) :
    Option MediaPacket × Selector × VideoSelectorCtx :=
  let (s, ctx) := (s.learn pkt).trySwitch ctx pkt
  (s.isAllow pkt, s, ctx)

def popAction (s : Selector) : Option Action × Selector :=
  (s.queue.head?, { s with queue := s.queue.tail })

end Selector

end MediaServer.Endpoint.H264Sim
