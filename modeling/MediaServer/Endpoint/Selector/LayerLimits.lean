import MediaServer.Endpoint.Selector.LayerChoice
import MediaServer.Lib.Execution

/-!
# Layers within the limits

A target lies within the limits, and so do the layers that a selector goes through on its way to
it, but for one: while a VP8 or VP9 selector waits for a key frame to go up in the spatial layers,
it raises the temporal layer to 2, whatever the limit of the temporal layers is.
-/

namespace MediaServer.Endpoint

open Execution

/-- The layer that a packet belongs to. -/
def layerOf (pkt : MediaPacket) : Option MediaLayerSelection :=
  match pkt.mediaMeta with
  | .vp8 _ (some sim) _ => some ⟨sim.spatial, sim.temporal⟩
  | .vp9 _ _ (some svc) _ => some ⟨svc.spatial, svc.temporal⟩
  | _ => none

/-- Within the limits. -/
def Fits (limit : UInt8 × UInt8) (layer : Option MediaLayerSelection) : Prop :=
  ∀ l, layer = some l → l.spatial ≤ limit.1 ∧ l.temporal ≤ limit.2

theorem Fits.none (limit : UInt8 × UInt8) : Fits limit none := fun _ h => nomatch h

theorem Fits.some {limit : UInt8 × UInt8} {l : MediaLayerSelection} (hspatial : l.spatial ≤ limit.1)
    (htemporal : l.temporal ≤ limit.2) : Fits limit (some l) := by
  intro l' h
  cases h
  exact ⟨hspatial, htemporal⟩

namespace Vp8Sim.Selector

variable {s s' : Selector} {ctx ctx' : VideoSelectorCtx} {pkt : MediaPacket}
  {limit : UInt8 × UInt8}

/-- At the packet, which is not a key packet, the temporal layer is raised to 2 while a higher
    spatial layer is awaited. -/
def Raises (s : Selector) (pkt : MediaPacket) : Prop :=
  ∃ current target sim rotation, s.current = some current ∧ s.target = some target ∧
    current.spatial < target.spatial ∧ pkt.mediaMeta = .vp8 false (some sim) rotation ∧
    sim.spatial = current.spatial ∧ current.temporal ≠ 2 ∧ sim.layerSync = true

section

variable {current target : MediaLayerSelection} {key : Bool} {sim : Vp8Sim}

theorem move_fits (hc : s.current = some current) (hcurrent : Fits limit (some current))
    (htarget : Fits limit (some target))
    (hraise : key = false → current.spatial < target.spatial → sim.spatial = current.spatial →
      current.temporal ≠ 2 → sim.layerSync = true → 2 ≤ limit.2) :
    Fits limit (s.move ctx key sim current target).1.current := by
  obtain ⟨hspatial, htemporal⟩ := hcurrent current rfl
  obtain ⟨-, hother⟩ := htarget target rfl
  have hstays : Fits limit s.current := hc ▸ hcurrent
  have hmoved : Fits limit (some { current with temporal := target.temporal }) :=
    Fits.some hspatial hother
  simp only [move]
  split
  · split
    · split
      · exact hmoved
      · exact hstays
    · split
      · exact hmoved
      · exact hstays
  · rename_i hne
    split
    · split
      · exact htarget
      · exact Fits.some hspatial UInt8.zero_le
    · rename_i hdown
      have hup : current.spatial < target.spatial :=
        (UInt8.lt_or_lt_of_ne hne).resolve_left hdown
      by_cases hkey : key = true
      · rw [if_pos hkey]
        exact htarget
      · rw [if_neg hkey]
        have hnot : key = false := Bool.eq_false_iff.mpr hkey
        simp only [push]
        split
        · rename_i hpoint
          exact Fits.some hspatial (hraise hnot hup hpoint.1 hpoint.2.1 hpoint.2.2)
        · exact hstays

end

theorem trySwitch_fits (htarget : Fits limit s.target) (hcurrent : Fits limit s.current)
    (hraise : s.Raises pkt → 2 ≤ limit.2) : Fits limit (s.trySwitch ctx pkt).1.current := by
  rw [trySwitch]
  split
  · exact hcurrent
  · split
    · rename_i key sim rotation hmeta
      split
      · rename_i current target hc ht
        refine move_fits hc (hc ▸ hcurrent) (ht ▸ htarget) ?_
        intro hkey hup hsame hne hsync
        rw [hkey] at hmeta
        exact hraise ⟨current, target, sim, rotation, hc, ht, hup, hmeta, hsame, hne, hsync⟩
      · exact Fits.none limit
      · rename_i target hc ht
        split
        · exact ht ▸ htarget
        · exact hcurrent
      · exact hcurrent
    · exact hcurrent

/-- A packet is rewritten, but its layer is not. -/
theorem rewrite_layer {key : Bool} {sim : Vp8Sim} {rotation : Option MediaOrientation}
    {out : MediaPacket} (h : rewrite ctx pkt key sim rotation = .ok (some out, ctx')) :
    layerOf out = some ⟨sim.spatial, sim.temporal⟩ := by
  simp only [rewrite, bind, Except.bind] at h
  split at h
  · cases h
  · split at h
    · cases h
    · split at h
      · cases h
      · split at h
        · cases h
        · cases h
          rfl

theorem isAllow_fits (hcurrent : Fits limit s.current) {out : MediaPacket}
    (h : s.isAllow ctx pkt = .ok (some out, ctx')) : Fits limit (layerOf out) := by
  rw [isAllow.eq_def] at h
  split at h
  · rename_i current key sim rotation hc hmeta
    obtain ⟨hspatial, htemporal⟩ := hcurrent current hc
    split at h
    · rename_i hallow
      rw [rewrite_layer h]
      exact Fits.some (hallow.1 ▸ hspatial) (UInt8.le_trans hallow.2 htemporal)
    · split at h
      · simp only [bind, Except.bind] at h
        split at h
        · cases h
        · cases h
      · cases h
  · cases h

end Vp8Sim.Selector

namespace Vp9Svc.Selector

variable {s s' : Selector} {ctx ctx' : VideoSelectorCtx} {pkt : MediaPacket}
  {limit : UInt8 × UInt8}

/-- At the packet, which is not a key packet, the temporal layer is raised to 2 while a higher
    spatial layer is awaited. -/
def Raises (s : Selector) (pkt : MediaPacket) : Prop :=
  ∃ current target profile svc rotation, s.current = some current ∧ s.target = some target ∧
    current.spatial < target.spatial ∧ pkt.mediaMeta = .vp9 false profile (some svc) rotation ∧
    svc.spatial = current.spatial ∧ current.temporal < svc.temporal ∧ current.temporal ≠ 2 ∧
    svc.switchingPoint = true ∧ s.preEndFrame = true

section

variable {current target : MediaLayerSelection} {key : Bool} {svc : Vp9Svc}

theorem move_fits (hc : s.current = some current) (hcurrent : Fits limit (some current))
    (htarget : Fits limit (some target))
    (hraise : key = false → current.spatial < target.spatial → svc.spatial = current.spatial →
      current.temporal < svc.temporal → current.temporal ≠ 2 → svc.switchingPoint = true →
      s.preEndFrame = true → 2 ≤ limit.2) :
    Fits limit (s.move ctx key svc current target).1.current := by
  obtain ⟨hspatial, htemporal⟩ := hcurrent current rfl
  obtain ⟨-, hother⟩ := htarget target rfl
  have hstays : Fits limit s.current := hc ▸ hcurrent
  have hmoved : Fits limit (some { current with temporal := target.temporal }) :=
    Fits.some hspatial hother
  have hlow : Fits limit (some { current with temporal := 0 }) :=
    Fits.some hspatial UInt8.zero_le
  simp only [move]
  split
  · split
    · split
      · exact hmoved
      · exact hstays
    · split
      · split
        · exact hmoved
        · exact hstays
      · exact hstays
  · rename_i hne
    split
    · have hwaits : Fits limit (if current.temporal ≠ 0 ∧ s.preEndFrame = true then
          { s with current := some { current with temporal := 0 } } else s).current := by
        split
        · exact hlow
        · exact hstays
      generalize (if current.temporal ≠ 0 ∧ s.preEndFrame = true then
          { s with current := some { current with temporal := 0 } } else s) = lowered at hwaits ⊢
      split
      · exact htarget
      · split
        · exact hwaits
        · exact hwaits
    · rename_i hdown
      have hup : current.spatial < target.spatial :=
        (UInt8.lt_or_lt_of_ne hne).resolve_left hdown
      by_cases hkey : key = true
      · rw [if_pos hkey]
        exact htarget
      · rw [if_neg hkey]
        have hnot : key = false := Bool.eq_false_iff.mpr hkey
        simp only [push]
        split
        · rename_i hpoint
          obtain ⟨hsame, hhigher, hne2, hswitch, hend⟩ := hpoint
          exact Fits.some hspatial (hraise hnot hup hsame hhigher hne2 hswitch hend)
        · exact hstays

end

theorem trySwitch_fits (htarget : Fits limit s.target) (hcurrent : Fits limit s.current)
    (hraise : s.Raises pkt → 2 ≤ limit.2) : Fits limit (s.trySwitch ctx pkt).1.current := by
  rw [trySwitch]
  split
  · exact hcurrent
  · split
    · rename_i key profile svc rotation hmeta
      change Fits limit (s.change ctx key svc).1.current
      rw [change]
      split
      · rename_i current target hc ht
        refine move_fits hc (hc ▸ hcurrent) (ht ▸ htarget) ?_
        intro hkey hup hsame hhigher hne hswitch hend
        rw [hkey] at hmeta
        exact hraise ⟨current, target, profile, svc, rotation, hc, ht, hup, hmeta, hsame, hhigher,
          hne, hswitch, hend⟩
      · split
        · exact Fits.none limit
        · exact hcurrent
      · rename_i target hc ht
        split
        · exact ht ▸ htarget
        · exact hcurrent
      · exact hcurrent
    · exact hcurrent

/-- A packet is rewritten, but its layer is not. -/
theorem rewrite_layer {key : Bool} {profile : Vp9Profile} {svc : Vp9Svc}
    {rotation : Option MediaOrientation} {current : MediaLayerSelection} {out : MediaPacket}
    (h : rewrite ctx pkt key profile svc rotation current = .ok (some out, ctx')) :
    layerOf out = some ⟨svc.spatial, svc.temporal⟩ := by
  simp only [rewrite, bind, Except.bind] at h
  split at h
  · cases h
  · split at h
    · cases h
    · cases h
      rfl

theorem isAllow_fits (hcurrent : Fits limit s.current) {out : MediaPacket}
    (h : s.isAllow ctx pkt = .ok (some out, ctx')) : Fits limit (layerOf out) := by
  rw [isAllow.eq_def] at h
  split at h
  · rename_i current key profile svc rotation hc hmeta
    obtain ⟨hspatial, htemporal⟩ := hcurrent current hc
    split at h
    · rename_i hallow
      rw [rewrite_layer h]
      exact Fits.some (UInt8.le_trans hallow.1 hspatial) (UInt8.le_trans hallow.2 htemporal)
    · simp only [bind, Except.bind] at h
      split at h
      · cases h
      · cases h
  · cases h

end Vp9Svc.Selector

/-! ### Runs under fixed limits -/

namespace VideoSelector

/-- The layer up to which a selector of VP8 or VP9 forwards. -/
def current : VideoSelector → Option MediaLayerSelection
  | .vp8Sim s => s.current
  | .vp9Svc s => s.current
  | _ => none

/-- At the packet the temporal layer is raised to 2 while a higher spatial layer is awaited. -/
def Raises (pkt : MediaPacket) : VideoSelector → Prop
  | .vp8Sim s => (s.learn pkt).Raises pkt
  | .vp9Svc s => (s.learn pkt).Raises pkt
  | _ => False

/-- The VP8 and VP9 selectors that are made with the limits. -/
inductive MadeWith (limit : UInt8 × UInt8) : VideoSelector → Prop where
  | vp8Sim (bitrate : UInt64) (layers : MediaLayersBitrate) :
    MadeWith limit (.vp8Sim (.new bitrate layers limit))
  | vp9Svc (kSvc : Bool) (bitrate : UInt64) (layers : MediaLayersBitrate) :
    MadeWith limit (.vp9Svc (.new kSvc bitrate layers limit))

/-- What keeps the selector within the limits. -/
structure Within (s : VideoSelector) (limit : UInt8 × UInt8) : Prop where
  current : Fits limit s.current
  plan : ∃ codec p, s.plan = some (codec, p) ∧ codec ≠ .h264 ∧ p.limit = limit ∧
    p.target = p.choice codec

end VideoSelector

theorem Plan.choice_fits {codec : LayeredCodec} (hcodec : codec ≠ .h264) (p : Plan) :
    Fits p.limit (p.choice codec) := by
  intro l hl
  have hchosen : p.layers.selectLayer p.bitrateKbps p.limit.1 p.limit.2 = some l := by
    rw [choice] at hl
    obtain ⟨l', hl', hplace⟩ := Option.map_eq_some_iff.mp hl
    rw [hl', ← hplace]
    cases codec with
    | h264 => exact absurd rfl hcodec
    | vp8 => rfl
    | vp9 => rfl
  exact MediaLayersBitrate.selectLayer_within hchosen

/-- A selector with the context and the packet that it has let through last. -/
structure LayerRun where
  selector : VideoSelector
  ctx : VideoSelectorCtx
  allowed : Option MediaPacket

namespace LayerRun

/-- What happens to a selector while its limits stay; `shared` is what the packet selector does
    meanwhile to the context that it shares. -/
inductive Input where
  | setTargetBitrate (bitrate : UInt64)
  | popAction
  | shared (ctx : VideoSelectorCtx)
  | select (pkt : MediaPacket)

def step (w : LayerRun) : Input → Except Panic LayerRun
  | .setTargetBitrate bitrate =>
    .ok { w with selector := w.selector.setTargetBitrate bitrate, allowed := none }
  | .popAction => .ok { w with selector := w.selector.popAction.2, allowed := none }
  | .shared ctx => .ok { w with ctx, allowed := none }
  | .select pkt => do
    let (allowed, selector, ctx) ← w.selector.select w.ctx pkt
    return ⟨selector, ctx, allowed⟩

/-- The steps of a run, which ends where the code panics. -/
def next (w : LayerRun) (input : Input) : Option LayerRun := (w.step input).toOption

/-- What is let through is within the limits. -/
def ForwardsWithin (limit : UInt8 × UInt8) (_ : LayerRun) (_ : Input) (w' : LayerRun) : Prop :=
  ∀ out, w'.allowed = some out → Fits limit (layerOf out)

/-- The temporal layer is raised to 2 only where the limit is that high. -/
def RaisesWithin (limit : UInt8 × UInt8) (w : LayerRun) (input : Input) (_ : LayerRun) : Prop :=
  ∀ pkt, input = .select pkt → w.selector.Raises pkt → 2 ≤ limit.2

end LayerRun

namespace VideoSelector

variable {limit : UInt8 × UInt8} {s s' : VideoSelector}

theorem MadeWith.within (h : MadeWith limit s) : s.Within limit := by
  cases h with
  | vp8Sim bitrate layers => exact ⟨Fits.none limit, .vp8, _, rfl, by decide, rfl, rfl⟩
  | vp9Svc kSvc bitrate layers => exact ⟨Fits.none limit, .vp9, _, rfl, by decide, rfl, rfl⟩

theorem Within.setTargetBitrate (h : s.Within limit) (bitrate : UInt64) :
    (s.setTargetBitrate bitrate).Within limit := by
  obtain ⟨hcurrent, codec, p, hs, hcodec, hlimit, -⟩ := h
  refine ⟨?_, codec, _, setTargetBitrate_plan hs bitrate, hcodec, hlimit, rfl⟩
  cases s with
  | h264Sim s => exact Fits.none limit
  | vp8Sim s =>
    rw [VideoSelector.setTargetBitrate, VideoSelector.current,
      Vp8Sim.Selector.setTargetBitrate_current]
    exact hcurrent
  | vp9Svc s =>
    rw [VideoSelector.setTargetBitrate, VideoSelector.current,
      (s.setTargetBitrate_same bitrate).1]
    exact hcurrent
  | single => exact Fits.none limit

theorem Within.popAction (h : s.Within limit) : s.popAction.2.Within limit := by
  obtain ⟨hcurrent, hplan⟩ := h
  refine ⟨?_, by rw [popAction_plan]; exact hplan⟩
  cases s with
  | h264Sim s => exact hcurrent
  | vp8Sim s => exact hcurrent
  | vp9Svc s => exact hcurrent
  | single => exact hcurrent

/-- A packet that raises nothing above the limit keeps the selector within the limits. -/
theorem Within.select {ctx ctx' : VideoSelectorCtx} {pkt : MediaPacket}
    {allowed : Option MediaPacket} (h : s.Within limit) (hraise : s.Raises pkt → 2 ≤ limit.2)
    (hs : s.select ctx pkt = .ok (allowed, s', ctx')) :
    s'.Within limit ∧ ∀ out, allowed = some out → Fits limit (layerOf out) := by
  obtain ⟨hcurrent, codec, p, hplan, hcodec, rfl, htarget⟩ := h
  obtain ⟨htarget', -, hlimit'⟩ := Plan.learn_settled htarget pkt
  have hfits : Fits p.limit (p.learn codec pkt).target := by
    rw [htarget', ← hlimit']
    exact Plan.choice_fits hcodec _
  have hplan' := select_plan hplan hs
  cases s with
  | h264Sim s =>
    cases hplan
    exact absurd rfl hcodec
  | vp8Sim s =>
    cases hplan
    simp only [VideoSelector.select, bind, Except.bind] at hs
    split at hs
    · cases hs
    · rename_i result hselect
      cases hs
      obtain ⟨heq, hallow⟩ := Vp8Sim.Selector.select_eq_ok hselect
      have hmoved : Fits s.plan.limit result.2.1.current := by
        rw [heq]
        refine Vp8Sim.Selector.trySwitch_fits ?_ ?_ hraise
        · rw [← Vp8Sim.Selector.learn_plan] at hfits
          exact hfits
        · rw [Vp8Sim.Selector.learn_current]
          exact hcurrent
      refine ⟨⟨hmoved, .vp8, _, hplan', hcodec, hlimit', htarget'⟩, ?_⟩
      intro out hout
      rw [hout] at hallow
      exact Vp8Sim.Selector.isAllow_fits hmoved hallow
  | vp9Svc s =>
    cases hplan
    simp only [VideoSelector.select, bind, Except.bind] at hs
    split at hs
    · cases hs
    · rename_i result hselect
      cases hs
      obtain ⟨heq, hallow⟩ := Vp9Svc.Selector.select_eq_ok hselect
      have hmoved : Fits s.plan.limit result.2.1.current := by
        rw [heq]
        refine Vp9Svc.Selector.trySwitch_fits ?_ ?_ hraise
        · rw [← Vp9Svc.Selector.learn_plan] at hfits
          exact hfits
        · rw [(s.learn_same pkt).1]
          exact hcurrent
      refine ⟨⟨hmoved, .vp9, _, hplan', hcodec, hlimit', htarget'⟩, ?_⟩
      intro out hout
      rw [hout] at hallow
      exact Vp9Svc.Selector.isAllow_fits hmoved hallow
  | single => cases hplan

end VideoSelector

namespace LayerRun

/-- The invariant of the runs. -/
def Within (limit : UInt8 × UInt8) (w : LayerRun) : Prop := w.selector.Within limit

theorem step_within {limit : UInt8 × UInt8} {w w' : LayerRun} {input : Input} (hw : w.Within limit)
    (h : w.step input = .ok w') (hraise : w.RaisesWithin limit input w') :
    w.ForwardsWithin limit input w' ∧ w'.Within limit := by
  cases input with
  | setTargetBitrate bitrate =>
    cases h
    exact ⟨fun _ hout => (nomatch hout), hw.setTargetBitrate bitrate⟩
  | popAction =>
    cases h
    exact ⟨fun _ hout => (nomatch hout), hw.popAction⟩
  | shared ctx =>
    cases h
    exact ⟨fun _ hout => (nomatch hout), hw⟩
  | select pkt =>
    simp only [step, bind, Except.bind] at h
    split at h
    · cases h
    · rename_i result hselect
      cases h
      obtain ⟨hwithin, hfits⟩ := hw.select (hraise pkt rfl) hselect
      exact ⟨hfits, hwithin⟩

/-- **Layers within the limits.**  Under limits that stay, in every run that raises the temporal
    layer to 2 only where the limit is that high, what is let through is within the limits. -/
theorem forwards_within {limit : UInt8 × UInt8} {s : VideoSelector}
    (hs : VideoSelector.MadeWith limit s) (ctx : VideoSelectorCtx) (inputs : List Input)
    (h : Along next (RaisesWithin limit) ⟨s, ctx, none⟩ inputs) :
    Along next (ForwardsWithin limit) ⟨s, ctx, none⟩ inputs := by
  have hwithin : (LayerRun.mk s ctx none).Within limit := hs.within
  refine along_of (fun w input w' hw hstep hok => ?_) hwithin h
  exact step_within hw (Except.mem_toOption.mp hstep) hok

/-! ### A raise above the limit -/

/-- A VP8 packet of the lower spatial layer. -/
def low (seq : UInt16) (key : Bool) (temporal : UInt8) (layerSync : Bool) : MediaPacket where
  ts := 0
  seq := seq
  marker := true
  nackable := false
  layers := none
  mediaMeta := .vp8 key (some ⟨none, none, 0, temporal, layerSync⟩) none
  data := []

/-- Two spatial layers with three temporal layers each. -/
def twoByThree : MediaLayersBitrate :=
  #v[some #v[some 50, some 75, some 100], some #v[some 250, some 375, some 500], none]

/-- A key packet starts the lower layer; the bitrate then reaches the higher one. -/
def pastLimit : List Input :=
  [.select (low 1 true 0 false), .setTargetBitrate 300000, .select (low 2 false 2 true)]

theorem forwards_within_low :
    Along next (ForwardsWithin (1, 2))
      ⟨.vp8Sim (.new 100000 twoByThree (1, 2)), .new .video, none⟩ pastLimit := by
  refine forwards_within (.vp8Sim 100000 twoByThree) (.new .video) pastLimit ?_
  exact along_of_forall (fun _ _ _ _ _ _ => UInt8.le_refl _) _ _

theorem not_forwards_within :
    ¬ ∀ (limit : UInt8 × UInt8) (s : VideoSelector), VideoSelector.MadeWith limit s →
      ∀ (ctx : VideoSelectorCtx) (inputs : List Input),
        Along next (ForwardsWithin limit) ⟨s, ctx, none⟩ inputs := by
  intro hall
  have halong := hall (1, 0) _ (.vp8Sim 100000 twoByThree) (.new .video) pastLimit
  have hrun : (exec next (fun _ _ => true)
      ⟨.vp8Sim (.new 100000 twoByThree (1, 0)), .new .video, none⟩ (pastLimit.take 2)).any
      (fun w => (next w (.select (low 2 false 2 true))).any fun w' =>
        w'.allowed.bind layerOf = some ⟨0, 2⟩) = true := by
    decide
  obtain ⟨w, hw, hlast⟩ := (Option.any_eq_true _ _).mp hrun
  obtain ⟨w', hw', hlayer⟩ := (Option.any_eq_true _ _).mp hlast
  obtain ⟨out, hout, hfar⟩ := Option.bind_eq_some_iff.mp (of_decide_eq_true hlayer)
  have hreaches : Reaches next (fun _ _ => True) _ (pastLimit.take 2) w :=
    reaches_of_exec (fun _ _ _ => trivial) hw
  have hend := ((halong.of_append hreaches) w' hw').1
  have hfits := hend out hout _ hfar
  revert hfits
  decide

end LayerRun

end MediaServer.Endpoint
