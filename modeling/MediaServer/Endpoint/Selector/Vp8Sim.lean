import MediaServer.Endpoint.Selector.Context

/-!
# The VP8 simulcast selector

`packet_selector/video_vp8_sim.rs`.  The spatial layers are streams of their own, so the selector
forwards one of them, up to a temporal layer, and tells the rewriters what it leaves out.

A change of the temporal layer waits for a packet with `layer_sync` on the way up and is immediate
on the way down; a change of the spatial layer waits for a key frame, and until then the temporal
layer is moved to 0 or to 2.
-/

namespace MediaServer.Endpoint.Vp8Sim

structure Selector where
  bitrateKbps : UInt16
  layers : MediaLayersBitrate
  current : Option MediaLayerSelection
  target : Option MediaLayerSelection
  queue : List Action
  limit : UInt8 × UInt8
deriving DecidableEq

namespace Selector

def new (bitrate : UInt64) (layers : MediaLayersBitrate) (limit : UInt8 × UInt8) : Selector where
  bitrateKbps := Endpoint.bitrateKbps bitrate
  layers := layers
  current := none
  target := layers.selectLayer (Endpoint.bitrateKbps bitrate) limit.1 limit.2
  queue := []
  limit := limit

def push (s : Selector) (action : Action) : Selector := { s with queue := s.queue ++ [action] }

def selectLayer (s : Selector) : Selector :=
  let target := s.layers.selectLayer s.bitrateKbps s.limit.1 s.limit.2
  if target ≠ s.target then
    let s := { s with target }
    match target, s.current with
    | some _, none => s.push .requestKeyFrame
    | some target, some current =>
      if target.spatial ≠ current.spatial then s.push .requestKeyFrame else s
    | none, _ => s
  else s

/-- `reinit` of all rewriters: another spatial layer is another stream. -/
def reinitAll (ctx : VideoSelectorCtx) : VideoSelectorCtx := ctx.reinitVp8.reinit

/-- A pending change from `current` to `target` meets a packet. -/
def move (s : Selector) (ctx : VideoSelectorCtx) (key : Bool) (sim : Vp8Sim)
    (current target : MediaLayerSelection) : Selector × VideoSelectorCtx :=
  if target.spatial = current.spatial then
    if current.temporal < target.temporal then
      if sim.spatial = current.spatial ∧ sim.temporal ≤ target.temporal ∧ sim.layerSync then
        ({ s with current := some { current with temporal := target.temporal } }, ctx)
      else (s, ctx)
    else if target.temporal < current.temporal then
      ({ s with current := some { current with temporal := target.temporal } }, ctx)
    else (s, ctx)
  else if target.spatial < current.spatial then
    let s := { s with current := some { current with temporal := 0 } }
    if key then ({ s with current := some target }, reinitAll ctx)
    else (s.push .requestKeyFrame, ctx)
  else
    let s :=
      if sim.spatial = current.spatial ∧ current.temporal ≠ 2 ∧ sim.layerSync then
        { s with current := some { current with temporal := 2 } }
      else s
    if key then ({ s with current := some target }, reinitAll ctx)
    else (s.push .requestKeyFrame, ctx)

def trySwitch (s : Selector) (ctx : VideoSelectorCtx) (pkt : MediaPacket) :
    Selector × VideoSelectorCtx :=
  if s.target = s.current then (s, ctx)
  else
    match pkt.mediaMeta with
    | .vp8 key (some sim) _ =>
      match s.current, s.target with
      | some current, some target => s.move ctx key sim current target
      | some _, none => ({ s with current := none }, ctx)
      | none, some target =>
        if key then ({ s with current := some target }, ctx.reinitVp8) else (s, ctx)
      | none, none => (s, ctx)
    | _ => (s, ctx)

/-- The packet with its numbers rewritten, unless the rewriter of the picture ids refuses its
    number. -/
def rewrite (ctx : VideoSelectorCtx) (pkt : MediaPacket) (key : Bool) (sim : Vp8Sim)
    (rotation : Option MediaOrientation) :
    Except Panic (Option MediaPacket × VideoSelectorCtx) := do
  let (tl0PicIdx, tl0idxRewrite) ← VideoSelectorCtx.rewriteField tl0idxMax ctx.vp8Ctx.tl0idxRewrite
    (sim.tl0PicIdx.map UInt8.toNat)
  let ctx := { ctx with vp8Ctx := { ctx.vp8Ctx with tl0idxRewrite } }
  match tl0PicIdx with
  | none => return (none, ctx)
  | some tl0PicIdx =>
    let (pictureId, picIdRewrite) ← VideoSelectorCtx.rewriteField picIdMax ctx.vp8Ctx.picIdRewrite
      (sim.pictureId.map UInt16.toNat)
    let ctx := { ctx with vp8Ctx := { ctx.vp8Ctx with picIdRewrite } }
    match pictureId with
    | none => return (none, ctx)
    | some pictureId =>
      let sim := { sim with
        tl0PicIdx := tl0PicIdx.map UInt8.ofNat, pictureId := pictureId.map UInt16.ofNat }
      return (some { pkt with mediaMeta := .vp8 key (some sim) rotation }, ctx)

/-- What is rejected from the forwarded stream is told to its rewriters. -/
def reject (ctx : VideoSelectorCtx) (pkt : MediaPacket) (sim : Vp8Sim) :
    Except Panic VideoSelectorCtx := do
  let picIdRewrite ← VideoSelectorCtx.dropField picIdMax ctx.vp8Ctx.picIdRewrite
    (sim.pictureId.map UInt16.toNat)
  { ctx with vp8Ctx := { ctx.vp8Ctx with picIdRewrite } }.dropSeq pkt.seq

def isAllow (s : Selector) (ctx : VideoSelectorCtx) (pkt : MediaPacket) :
    Except Panic (Option MediaPacket × VideoSelectorCtx) :=
  match s.current, pkt.mediaMeta with
  | some current, .vp8 key (some sim) rotation =>
    if sim.spatial = current.spatial ∧ sim.temporal ≤ current.temporal then
      rewrite ctx pkt key sim rotation
    else if sim.spatial = current.spatial then do
      let ctx ← reject ctx pkt sim
      return (none, ctx)
    else .ok (none, ctx)
  | _, _ => .ok (none, ctx)

def onInit (s : Selector) (ctx : VideoSelectorCtx) : Selector × VideoSelectorCtx :=
  (s, ctx.reinitVp8)

def setTargetBitrate (s : Selector) (bitrate : UInt64) : Selector :=
  { s with bitrateKbps := Endpoint.bitrateKbps bitrate }.selectLayer

def setLimitLayer (s : Selector) (maxSpatial maxTemporal : UInt8) : Selector :=
  { s with limit := (maxSpatial, maxTemporal) }.selectLayer

/-- What `select` does first: the bitrates that come with a packet replace those known. -/
def learn (s : Selector) (pkt : MediaPacket) : Selector :=
  match pkt.layers with
  | some layers => { s with layers }.selectLayer
  | none => s

def select (s : Selector) (ctx : VideoSelectorCtx) (pkt : MediaPacket) :
    Except Panic (Option MediaPacket × Selector × VideoSelectorCtx) := do
  let (s, ctx) := (s.learn pkt).trySwitch ctx pkt
  let (allowed, ctx) ← s.isAllow ctx pkt
  return (allowed, s, ctx)

def popAction (s : Selector) : Option Action × Selector :=
  (s.queue.head?, { s with queue := s.queue.tail })

/-! ### What the choice of a layer leaves alone -/

theorem selectLayer_current (s : Selector) : s.selectLayer.current = s.current := by
  simp only [selectLayer]
  split
  · split
    · rfl
    · split
      · rfl
      · rfl
    · rfl
  · rfl

theorem learn_current (s : Selector) (pkt : MediaPacket) : (s.learn pkt).current = s.current := by
  rw [learn]
  split
  · exact selectLayer_current _
  · rfl

theorem setTargetBitrate_current (s : Selector) (bitrate : UInt64) :
    (s.setTargetBitrate bitrate).current = s.current :=
  selectLayer_current _

theorem select_eq_ok {s s' : Selector} {ctx ctx' : VideoSelectorCtx} {pkt : MediaPacket}
    {allowed : Option MediaPacket} (h : s.select ctx pkt = .ok (allowed, s', ctx')) :
    s' = ((s.learn pkt).trySwitch ctx pkt).1 ∧
      s'.isAllow ((s.learn pkt).trySwitch ctx pkt).2 pkt = .ok (allowed, ctx') := by
  simp only [select, bind, Except.bind] at h
  split at h
  · cases h
  · rename_i result hallow
    cases h
    exact ⟨rfl, hallow⟩

end Selector

end MediaServer.Endpoint.Vp8Sim
