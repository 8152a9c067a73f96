import MediaServer.Endpoint.Selector.Context

/-!
# The VP9 SVC selector

`packet_selector/video_vp9_svc.rs`.  All spatial layers are in one stream, so the selector forwards
every layer up to the current one, and tells the rewriters what it leaves out.

A change that needs no key frame waits for the end of a frame.  The selector keeps in
`preEndFrame` whether the packet before ended one; it sets the flag at the end of `try_switch`,
and so only while a change is pending.
-/

namespace MediaServer.Endpoint.Vp9Svc

structure Selector where
  kSvc : Bool
  bitrateKbps : UInt16
  layers : MediaLayersBitrate
  current : Option MediaLayerSelection
  target : Option MediaLayerSelection
  queue : List Action
  preEndFrame : Bool
  limit : UInt8 × UInt8
deriving DecidableEq

namespace Selector

def new (kSvc : Bool) (bitrate : UInt64) (layers : MediaLayersBitrate) (limit : UInt8 × UInt8) :
    Selector where
  kSvc := kSvc
  bitrateKbps := Endpoint.bitrateKbps bitrate
  layers := layers
  current := none
  target := layers.selectLayer (Endpoint.bitrateKbps bitrate) limit.1 limit.2
  queue := []
  preEndFrame := false
  limit := limit

def push (s : Selector) (action : Action) : Selector := { s with queue := s.queue ++ [action] }

def selectLayer (s : Selector) : Selector :=
  let target := s.layers.selectLayer s.bitrateKbps s.limit.1 s.limit.2
  if target ≠ s.target then
    let s := { s with target }
    match target, s.current with
    | some _, none => s.push .requestKeyFrame
    | some target, some current =>
      if s.kSvc ∨ current.spatial < target.spatial then s.push .requestKeyFrame else s
    | none, _ => s
  else s

/-- `reinit` of the rewriters that a change of the spatial layer calls. -/
def reinitAll (ctx : VideoSelectorCtx) : VideoSelectorCtx := ctx.reinitVp9.reinit

/-- A pending change from `current` to `target` meets a packet. -/
def move (s : Selector) (ctx : VideoSelectorCtx) (key : Bool) (svc : Vp9Svc)
    (current target : MediaLayerSelection) : Selector × VideoSelectorCtx :=
  if target.spatial = current.spatial then
    if current.temporal < target.temporal then
      if svc.spatial = current.spatial ∧ current.temporal < svc.temporal ∧ svc.switchingPoint ∧
          s.preEndFrame then
        ({ s with current := some { current with temporal := target.temporal } }, ctx)
      else (s, ctx)
    else if target.temporal < current.temporal then
      if s.preEndFrame then
        ({ s with current := some { current with temporal := target.temporal } }, ctx)
      else (s, ctx)
    else (s, ctx)
  else if target.spatial < current.spatial then
    let s :=
      if current.temporal ≠ 0 ∧ s.preEndFrame then
        { s with current := some { current with temporal := 0 } }
      else s
    if s.kSvc ∧ key ∨ ¬ s.kSvc ∧ s.preEndFrame then
      ({ s with current := some target }, reinitAll ctx)
    else if s.kSvc then (s.push .requestKeyFrame, ctx)
    else (s, ctx)
  else
    let s :=
      if svc.spatial = current.spatial ∧ current.temporal < svc.temporal ∧ current.temporal ≠ 2 ∧
          svc.switchingPoint ∧ s.preEndFrame then
        { s with current := some { current with temporal := 2 } }
      else s
    if key then ({ s with current := some target }, reinitAll ctx)
    else (s.push .requestKeyFrame, ctx)

/-- The match of `try_switch` on the current layer and the target. -/
def change (s : Selector) (ctx : VideoSelectorCtx) (key : Bool) (svc : Vp9Svc) :
    Selector × VideoSelectorCtx :=
  match s.current, s.target with
  | some current, some target => s.move ctx key svc current target
  | some _, none => if s.preEndFrame then ({ s with current := none }, ctx) else (s, ctx)
  | none, some target =>
    if key then ({ s with current := some target }, ctx.reinitVp9) else (s, ctx)
  | none, none => (s, ctx)

def trySwitch (s : Selector) (ctx : VideoSelectorCtx) (pkt : MediaPacket) :
    Selector × VideoSelectorCtx :=
  if s.target = s.current then (s, ctx)
  else
    match pkt.mediaMeta with
    | .vp9 key _ (some svc) _ =>
      let (s, ctx) := s.change ctx key svc
      ({ s with preEndFrame := svc.endFrame }, ctx)
    | _ => (s, ctx)

/-- The packet with its picture id rewritten, unless the rewriter refuses its number. -/
def rewrite (ctx : VideoSelectorCtx) (pkt : MediaPacket) (key : Bool) (profile : Vp9Profile)
    (svc : Vp9Svc) (rotation : Option MediaOrientation) (current : MediaLayerSelection) :
    Except Panic (Option MediaPacket × VideoSelectorCtx) := do
  let (pictureId, picIdRewrite) ← VideoSelectorCtx.rewriteField picIdMax ctx.vp9Ctx.picIdRewrite
    (svc.pictureId.map UInt16.toNat)
  let ctx := { ctx with vp9Ctx := { ctx.vp9Ctx with picIdRewrite } }
  match pictureId with
  | none => return (none, ctx)
  | some pictureId =>
    let marker := if svc.spatial = current.spatial ∧ svc.endFrame then true else pkt.marker
    let svc := { svc with pictureId := pictureId.map UInt16.ofNat }
    return (some { pkt with marker, mediaMeta := .vp9 key profile (some svc) rotation }, ctx)

/-- What is rejected is told to the rewriters. -/
def reject (ctx : VideoSelectorCtx) (pkt : MediaPacket) (svc : Vp9Svc) :
    Except Panic VideoSelectorCtx := do
  let picIdRewrite ← VideoSelectorCtx.dropField picIdMax ctx.vp9Ctx.picIdRewrite
    (svc.pictureId.map UInt16.toNat)
  { ctx with vp9Ctx := { ctx.vp9Ctx with picIdRewrite } }.dropSeq pkt.seq

def isAllow (s : Selector) (ctx : VideoSelectorCtx) (pkt : MediaPacket) :
    Except Panic (Option MediaPacket × VideoSelectorCtx) :=
  match s.current, pkt.mediaMeta with
  | some current, .vp9 key profile (some svc) rotation =>
    if svc.spatial ≤ current.spatial ∧ svc.temporal ≤ current.temporal then
      rewrite ctx pkt key profile svc rotation current
    else do
      let ctx ← reject ctx pkt svc
      return (none, ctx)
  | _, _ => .ok (none, ctx)

def onInit (s : Selector) (ctx : VideoSelectorCtx) : Selector × VideoSelectorCtx :=
  (s, ctx.reinitVp9)

def setTargetBitrate (s : Selector) (bitrate : UInt64) : Selector :=
  { s with bitrateKbps := Endpoint.bitrateKbps bitrate }.selectLayer

def setLimitLayer (s : Selector) (maxSpatial maxTemporal : UInt8) : Selector :=
  { s with limit := (maxSpatial, maxTemporal) }.selectLayer

/-- What `select` does first: the bitrates that come with a packet replace those known. -/
def learn (s : Selector) (pkt : MediaPacket) : Selector :=
  match pkt.layers with
  | some layers => { s with layers }.selectLayer
  | none => s

def select (s : Selector) (ctx : VideoSelectorCtx) (pkt : MediaPacket) :
    Except Panic (Option MediaPacket × Selector × VideoSelectorCtx) := do
  let (s, ctx) := (s.learn pkt).trySwitch ctx pkt
  let (allowed, ctx) ← s.isAllow ctx pkt
  return (allowed, s, ctx)

def popAction (s : Selector) : Option Action × Selector :=
  (s.queue.head?, { s with queue := s.queue.tail })

/-! ### What the choice of a layer leaves alone -/

theorem selectLayer_same (s : Selector) :
    s.selectLayer.current = s.current ∧ s.selectLayer.preEndFrame = s.preEndFrame := by
  simp only [selectLayer]
  split
  · split
    · exact ⟨rfl, rfl⟩
    · split
      · exact ⟨rfl, rfl⟩
      · exact ⟨rfl, rfl⟩
    · exact ⟨rfl, rfl⟩
  · exact ⟨rfl, rfl⟩

theorem learn_same (s : Selector) (pkt : MediaPacket) :
    (s.learn pkt).current = s.current ∧ (s.learn pkt).preEndFrame = s.preEndFrame := by
  rw [learn]
  split
  · exact selectLayer_same _
  · exact ⟨rfl, rfl⟩

theorem setTargetBitrate_same (s : Selector) (bitrate : UInt64) :
    (s.setTargetBitrate bitrate).current = s.current ∧
      (s.setTargetBitrate bitrate).preEndFrame = s.preEndFrame :=
  selectLayer_same _

theorem setLimitLayer_same (s : Selector) (maxSpatial maxTemporal : UInt8) :
    (s.setLimitLayer maxSpatial maxTemporal).current = s.current ∧
      (s.setLimitLayer maxSpatial maxTemporal).preEndFrame = s.preEndFrame :=
  selectLayer_same _

theorem select_eq_ok {s s' : Selector} {ctx ctx' : VideoSelectorCtx} {pkt : MediaPacket}
    {allowed : Option MediaPacket} (h : s.select ctx pkt = .ok (allowed, s', ctx')) :
    s' = ((s.learn pkt).trySwitch ctx pkt).1 ∧
      s'.isAllow ((s.learn pkt).trySwitch ctx pkt).2 pkt = .ok (allowed, ctx') := by
  simp only [select, bind, Except.bind] at h
  split at h
  · cases h
  · rename_i result hallow
    cases h
    exact ⟨rfl, hallow⟩

end Selector

end MediaServer.Endpoint.Vp9Svc
