import MediaServer.Endpoint.Selector.PacketSelector

/-!
# The layer that a bitrate is granted for

Whatever happens to a selector of layers, its target is the layer that `select_layer` chooses for
the bitrate granted last, in the kbps that the selector keeps.  The kbps are 16 bits wide, so a
bitrate from 65,536,000 bits per second on is cut, and the choice is then that of a lower bitrate.
-/

namespace MediaServer.Endpoint

open MediaLayersBitrate

/-- The codecs whose selectors choose among layers. -/
inductive LayeredCodec where
  | h264
  | vp8
  | vp9
deriving DecidableEq, Repr

namespace LayeredCodec

/-- What the codec takes of a layer: H264 has spatial layers alone. -/
def place : LayeredCodec → MediaLayerSelection → MediaLayerSelection
  | .h264, layer => { layer with temporal := 0 }
  | .vp8, layer => layer
  | .vp9, layer => layer

/-- The announced layers within the limits, as the codec has them. -/
def ladder (codec : LayeredCodec) (layers : MediaLayersBitrate) (limit : UInt8 × UInt8) :
    List (MediaLayerSelection × ℕ) :=
  (layers.announced limit).map fun rung => (codec.place rung.1, rung.2)

theorem place_mono (codec : LayeredCodec) {low high : MediaLayerSelection} (h : low ≤ high) :
    codec.place low ≤ codec.place high := by
  cases codec with
  | h264 =>
    rw [MediaLayerSelection.le_iff] at h ⊢
    simp only [place]
    omega
  | vp8 => exact h
  | vp9 => exact h

theorem place_ground (codec : LayeredCodec) : codec.place (layer 0 0) = layer 0 0 := by
  cases codec with
  | h264 => rfl
  | vp8 => rfl
  | vp9 => rfl

theorem ladder_sorted (codec : LayeredCodec) (layers : MediaLayersBitrate)
    (limit : UInt8 × UInt8) :
    (codec.ladder layers limit).Pairwise fun low high => low.1 ≤ high.1 := by
  rw [ladder, List.pairwise_map]
  exact (layers.announced_sorted limit).imp fun hle => codec.place_mono hle

/-- The choice of `select_layer`, as the codec takes it. -/
theorem place_selectLayer (codec : LayeredCodec) (layers : MediaLayersBitrate) (kbps : UInt16)
    (limit : UInt8 × UInt8) :
    (layers.selectLayer kbps limit.1 limit.2).map codec.place =
      some (Ladder.climb kbps.toNat (layer 0 0) (codec.ladder layers limit)) := by
  rw [selectLayer_eq_climb, Option.map_some, Ladder.climb_map codec.place, place_ground, ladder]

end LayeredCodec

/-! ### What a selector of layers goes by -/

structure Plan where
  bitrateKbps : UInt16
  layers : MediaLayersBitrate
  limit : UInt8 × UInt8
  target : Option MediaLayerSelection

namespace Plan

/-- The choice for the rest of the plan. -/
def choice (codec : LayeredCodec) (p : Plan) : Option MediaLayerSelection :=
  (p.layers.selectLayer p.bitrateKbps p.limit.1 p.limit.2).map codec.place

def choose (codec : LayeredCodec) (p : Plan) : Plan := { p with target := p.choice codec }

def learn (codec : LayeredCodec) (p : Plan) (pkt : MediaPacket) : Plan :=
  match pkt.layers with
  | some layers => { p with layers }.choose codec
  | none => p

theorem learn_settled {codec : LayeredCodec} {p : Plan} (h : p.target = p.choice codec)
    (pkt : MediaPacket) :
    (p.learn codec pkt).target = (p.learn codec pkt).choice codec ∧
      (p.learn codec pkt).bitrateKbps = p.bitrateKbps ∧ (p.learn codec pkt).limit = p.limit := by
  rw [learn]
  split
  · exact ⟨rfl, rfl, rfl⟩
  · exact ⟨h, rfl, rfl⟩

end Plan

/-! ### The three selectors

The plan changes where the layer is chosen, and nowhere else. -/

namespace Vp8Sim.Selector

def plan (s : Selector) : Plan := ⟨s.bitrateKbps, s.layers, s.limit, s.target⟩

theorem selectLayer_plan (s : Selector) : s.selectLayer.plan = s.plan.choose .vp8 := by
  simp only [selectLayer]
  split
  · split
    · rfl
    · split
      · rfl
      · rfl
    · rfl
  · rename_i hsame
    rw [plan, ← not_not.mp hsame]
    rfl

theorem learn_plan (s : Selector) (pkt : MediaPacket) :
    (s.learn pkt).plan = s.plan.learn .vp8 pkt := by
  rcases hlayers : pkt.layers with _ | layers
  · simp only [learn, Plan.learn, hlayers]
  · simp only [learn, Plan.learn, hlayers, selectLayer_plan]
    rfl

theorem trySwitch_plan (s : Selector) (ctx : VideoSelectorCtx) (pkt : MediaPacket) :
    (s.trySwitch ctx pkt).1.plan = s.plan := by
  simp only [trySwitch, move, push]
  repeat' split
  all_goals rfl

theorem select_plan {s s' : Selector} {ctx ctx' : VideoSelectorCtx} {pkt : MediaPacket}
    {allowed : Option MediaPacket} (h : s.select ctx pkt = .ok (allowed, s', ctx')) :
    s'.plan = s.plan.learn .vp8 pkt := by
  simp only [select, bind, Except.bind] at h
  split at h
  · cases h
  · cases h
    rw [trySwitch_plan, learn_plan]

end Vp8Sim.Selector

namespace Vp9Svc.Selector

def plan (s : Selector) : Plan := ⟨s.bitrateKbps, s.layers, s.limit, s.target⟩

theorem selectLayer_plan (s : Selector) : s.selectLayer.plan = s.plan.choose .vp9 := by
  simp only [selectLayer]
  split
  · split
    · rfl
    · split
      · rfl
      · rfl
    · rfl
  · rename_i hsame
    rw [plan, ← not_not.mp hsame]
    rfl

theorem learn_plan (s : Selector) (pkt : MediaPacket) :
    (s.learn pkt).plan = s.plan.learn .vp9 pkt := by
  rcases hlayers : pkt.layers with _ | layers
  · simp only [learn, Plan.learn, hlayers]
  · simp only [learn, Plan.learn, hlayers, selectLayer_plan]
    rfl

theorem change_plan (s : Selector) (ctx : VideoSelectorCtx) (key : Bool) (svc : Vp9Svc) :
    (s.change ctx key svc).1.plan = s.plan := by
  simp only [change, move, push]
  repeat' split
  all_goals rfl

theorem trySwitch_plan (s : Selector) (ctx : VideoSelectorCtx) (pkt : MediaPacket) :
    (s.trySwitch ctx pkt).1.plan = s.plan := by
  rw [trySwitch]
  split
  · rfl
  · split
    · exact change_plan ..
    · rfl

theorem select_plan {s s' : Selector} {ctx ctx' : VideoSelectorCtx} {pkt : MediaPacket}
    {allowed : Option MediaPacket} (h : s.select ctx pkt = .ok (allowed, s', ctx')) :
    s'.plan = s.plan.learn .vp9 pkt := by
  simp only [select, bind, Except.bind] at h
  split at h
  · cases h
  · cases h
    rw [trySwitch_plan, learn_plan]

end Vp9Svc.Selector

namespace H264Sim.Selector

def plan (s : Selector) : Plan :=
  ⟨s.bitrateKbps, s.layers, s.limit, s.target.map fun spatial => ⟨spatial, 0⟩⟩

theorem selectLayer_plan (s : Selector) : s.selectLayer.plan = s.plan.choose .h264 := by
  simp only [selectLayer]
  split
  · split
    · rfl
    · split
      · rfl
      · rfl
    · rfl
  · rename_i hsame
    rw [plan, ← not_not.mp hsame]
    rfl

theorem learn_plan (s : Selector) (pkt : MediaPacket) :
    (s.learn pkt).plan = s.plan.learn .h264 pkt := by
  rcases hlayers : pkt.layers with _ | layers
  · simp only [learn, Plan.learn, hlayers]
  · simp only [learn, Plan.learn, hlayers, selectLayer_plan]
    rfl

theorem trySwitch_plan (s : Selector) (ctx : VideoSelectorCtx) (pkt : MediaPacket) :
    (s.trySwitch ctx pkt).1.plan = s.plan := by
  simp only [trySwitch, push]
  repeat' split
  all_goals rfl

theorem select_plan (s : Selector) (ctx : VideoSelectorCtx) (pkt : MediaPacket) :
    (s.select ctx pkt).2.1.plan = s.plan.learn .h264 pkt := by
  rw [select, ← learn_plan]
  exact trySwitch_plan ..

end H264Sim.Selector

/-! ### Any selector of layers -/

namespace VideoSelector

def plan : VideoSelector → Option (LayeredCodec × Plan)
  | .h264Sim s => some (.h264, s.plan)
  | .vp8Sim s => some (.vp8, s.plan)
  | .vp9Svc s => some (.vp9, s.plan)
  | .single => none

variable {s s' : VideoSelector} {codec : LayeredCodec} {p : Plan}

theorem setTargetBitrate_plan (hs : s.plan = some (codec, p)) (bitrate : UInt64) :
    (s.setTargetBitrate bitrate).plan =
      some (codec, { p with bitrateKbps := bitrateKbps bitrate }.choose codec) := by
  cases s with
  | h264Sim s =>
    cases hs
    exact congrArg (fun p => some (LayeredCodec.h264, p)) (H264Sim.Selector.selectLayer_plan _)
  | vp8Sim s =>
    cases hs
    exact congrArg (fun p => some (LayeredCodec.vp8, p)) (Vp8Sim.Selector.selectLayer_plan _)
  | vp9Svc s =>
    cases hs
    exact congrArg (fun p => some (LayeredCodec.vp9, p)) (Vp9Svc.Selector.selectLayer_plan _)
  | single => cases hs

theorem setLimitLayer_plan (hs : s.plan = some (codec, p)) (maxSpatial maxTemporal : UInt8) :
    (s.setLimitLayer maxSpatial maxTemporal).plan =
      some (codec, { p with limit := (maxSpatial, maxTemporal) }.choose codec) := by
  cases s with
  | h264Sim s =>
    cases hs
    exact congrArg (fun p => some (LayeredCodec.h264, p)) (H264Sim.Selector.selectLayer_plan _)
  | vp8Sim s =>
    cases hs
    exact congrArg (fun p => some (LayeredCodec.vp8, p)) (Vp8Sim.Selector.selectLayer_plan _)
  | vp9Svc s =>
    cases hs
    exact congrArg (fun p => some (LayeredCodec.vp9, p)) (Vp9Svc.Selector.selectLayer_plan _)
  | single => cases hs

theorem select_plan (hs : s.plan = some (codec, p)) {ctx ctx' : VideoSelectorCtx}
    {pkt : MediaPacket} {allowed : Option MediaPacket}
    (h : s.select ctx pkt = .ok (allowed, s', ctx')) :
    s'.plan = some (codec, p.learn codec pkt) := by
  cases s with
  | h264Sim s =>
    cases hs
    cases h
    exact congrArg (fun p => some (LayeredCodec.h264, p)) (s.select_plan ctx pkt)
  | vp8Sim s =>
    cases hs
    simp only [select, bind, Except.bind] at h
    split at h
    · cases h
    · rename_i hselect
      cases h
      exact congrArg (fun p => some (LayeredCodec.vp8, p)) (Vp8Sim.Selector.select_plan hselect)
  | vp9Svc s =>
    cases hs
    simp only [select, bind, Except.bind] at h
    split at h
    · cases h
    · rename_i hselect
      cases h
      exact congrArg (fun p => some (LayeredCodec.vp9, p)) (Vp9Svc.Selector.select_plan hselect)
  | single => cases hs

theorem popAction_plan (s : VideoSelector) : s.popAction.2.plan = s.plan := by
  cases s with
  | h264Sim s => rfl
  | vp8Sim s => rfl
  | vp9Svc s => rfl
  | single => rfl

/-! ### The target on a run -/

/-- The selectors of layers on their runs, with the bitrate that has been granted last. -/
inductive Granted : VideoSelector → UInt64 → Prop where
  | h264Sim (bitrate : UInt64) (layers : MediaLayersBitrate) (limit : UInt8 × UInt8) :
    Granted (.h264Sim (.new bitrate layers limit)) bitrate
  | vp8Sim (bitrate : UInt64) (layers : MediaLayersBitrate) (limit : UInt8 × UInt8) :
    Granted (.vp8Sim (.new bitrate layers limit)) bitrate
  | vp9Svc (kSvc : Bool) (bitrate : UInt64) (layers : MediaLayersBitrate)
      (limit : UInt8 × UInt8) :
    Granted (.vp9Svc (.new kSvc bitrate layers limit)) bitrate
  | setTargetBitrate {s : VideoSelector} {before : UInt64} (bitrate : UInt64) :
    Granted s before → Granted (s.setTargetBitrate bitrate) bitrate
  | setLimitLayer {s : VideoSelector} {bitrate : UInt64} (maxSpatial maxTemporal : UInt8) :
    Granted s bitrate → Granted (s.setLimitLayer maxSpatial maxTemporal) bitrate
  | select {s s' : VideoSelector} {bitrate : UInt64} {ctx ctx' : VideoSelectorCtx}
      {pkt : MediaPacket} {allowed : Option MediaPacket} :
    Granted s bitrate → s.select ctx pkt = .ok (allowed, s', ctx') → Granted s' bitrate
  | popAction {s : VideoSelector} {bitrate : UInt64} :
    Granted s bitrate → Granted s.popAction.2 bitrate

/-- On a run the target is the choice for the bitrate granted last. -/
theorem Granted.plan {bitrate : UInt64} (h : Granted s bitrate) :
    ∃ codec p, s.plan = some (codec, p) ∧ p.bitrateKbps = bitrateKbps bitrate ∧
      p.target = p.choice codec := by
  induction h with
  | h264Sim bitrate layers limit => exact ⟨.h264, _, rfl, rfl, rfl⟩
  | vp8Sim bitrate layers limit => exact ⟨.vp8, _, rfl, rfl, rfl⟩
  | vp9Svc kSvc bitrate layers limit => exact ⟨.vp9, _, rfl, rfl, rfl⟩
  | setTargetBitrate bitrate _ ih =>
    obtain ⟨codec, p, hs, -, -⟩ := ih
    exact ⟨codec, _, setTargetBitrate_plan hs bitrate, rfl, rfl⟩
  | setLimitLayer maxSpatial maxTemporal _ ih =>
    obtain ⟨codec, p, hs, hbitrate, -⟩ := ih
    exact ⟨codec, _, setLimitLayer_plan hs maxSpatial maxTemporal, hbitrate, rfl⟩
  | @select s s' bitrate ctx ctx' pkt allowed _ hselect ih =>
    obtain ⟨codec, p, hs, hbitrate, htarget⟩ := ih
    obtain ⟨htarget', hbitrate', -⟩ := Plan.learn_settled htarget pkt
    exact ⟨codec, _, select_plan hs hselect, hbitrate'.trans hbitrate, htarget'⟩
  | @popAction s _ _ ih =>
    rw [popAction_plan]
    exact ih

end VideoSelector

/-- On some run a selector of the codec, which knows of the layers and has the limits, has been
    granted the bitrate, and this is its target. -/
def Chooses (codec : LayeredCodec) (layers : MediaLayersBitrate) (limit : UInt8 × UInt8)
    (bitrate : UInt64) (target : MediaLayerSelection) : Prop :=
  ∃ s p, VideoSelector.Granted s bitrate ∧ s.plan = some (codec, p) ∧ p.layers = layers ∧
    p.limit = limit ∧ p.target = some target

section

variable {codec : LayeredCodec} {layers : MediaLayersBitrate} {limit : UInt8 × UInt8}

/-- There is one target for each bitrate: where the ladder is climbed to with the kbps of it. -/
theorem chooses_iff {bitrate : UInt64} {target : MediaLayerSelection} :
    Chooses codec layers limit bitrate target ↔
      target = Ladder.climb (bitrateKbps bitrate).toNat (layer 0 0) (codec.ladder layers limit) := by
  have hchoice := codec.place_selectLayer layers (bitrateKbps bitrate) limit
  constructor
  · rintro ⟨s, p, hgranted, hplan, rfl, rfl, htarget⟩
    obtain ⟨codec', p', hplan', hbitrate, hchosen⟩ := hgranted.plan
    rw [hplan] at hplan'
    cases hplan'
    rw [Plan.choice, hbitrate, htarget, hchoice] at hchosen
    exact Option.some.inj hchosen
  · rintro rfl
    cases codec with
    | h264 => exact ⟨_, _, .h264Sim bitrate layers limit, rfl, rfl, rfl, hchoice⟩
    | vp8 => exact ⟨_, _, .vp8Sim bitrate layers limit, rfl, rfl, rfl, hchoice⟩
    | vp9 => exact ⟨_, _, .vp9Svc false bitrate layers limit, rfl, rfl, rfl, hchoice⟩

end

/-- The choice for the bitrate is monotone below it, and the best one that it affords. -/
def ChoosesBest (codec : LayeredCodec) (layers : MediaLayersBitrate) (limit : UInt8 × UInt8)
    (bitrate : UInt64) : Prop :=
  ∀ target, Chooses codec layers limit bitrate target →
    Ladder.Best (bitrate.toNat / 1000) lowest (codec.ladder layers limit) target ∧
      ∀ lower ≤ bitrate, ∀ target', Chooses codec layers limit lower target' → target' ≤ target

/-- **The choice of a layer.**  It is monotone and the best exactly when the lower 16 bits of the
    kbps afford a layer as great as each one that the kbps afford. -/
theorem chooses_best_iff (codec : LayeredCodec) (layers : MediaLayersBitrate)
    (limit : UInt8 × UInt8) (bitrate : UInt64) :
    ChoosesBest codec layers limit bitrate ↔
      Ladder.KeepsUp (layer 0 0) (codec.ladder layers limit) (bitrate.toNat / 1000 % 65536)
        (bitrate.toNat / 1000) := by
  have hsorted := codec.ladder_sorted layers limit
  have hground : ∀ rung ∈ codec.ladder layers limit, layer 0 0 ≤ rung.1 :=
    fun rung _ => ground_le rung.1
  have hcut : ∀ b : UInt64, (bitrateKbps b).toNat ≤ b.toNat / 1000 := by
    intro b
    rw [bitrateKbps_toNat]
    exact Nat.mod_le _ _
  have hkbps : bitrate.toNat / 1000 % 65536 = (bitrateKbps bitrate).toNat :=
    (bitrateKbps_toNat bitrate).symm
  rw [hkbps]
  constructor
  · intro hbest
    obtain ⟨hfound, -⟩ := hbest _ (chooses_iff.mpr rfl)
    exact (Ladder.climb_cut_best_iff hsorted hground (hcut bitrate)).mp hfound
  · intro hkeeps target htarget
    have hfound := (Ladder.climb_cut_best_iff hsorted hground (hcut bitrate)).mpr hkeeps
    rw [← chooses_iff.mp htarget] at hfound
    refine ⟨hfound, fun lower hlower target' htarget' => ?_⟩
    have hless : (bitrateKbps lower).toNat ≤ bitrate.toNat / 1000 :=
      (hcut lower).trans (Nat.div_le_div_right (UInt64.le_iff_toNat_le.mp hlower))
    rw [chooses_iff.mp htarget']
    exact Ladder.climb_le hsorted hground hless hfound

/-- A bitrate that fits is not cut. -/
theorem keepsUp_of_lt (codec : LayeredCodec) (layers : MediaLayersBitrate)
    (limit : UInt8 × UInt8) {bitrate : UInt64} (h : bitrate.toNat < 65536000) :
    Ladder.KeepsUp (layer 0 0) (codec.ladder layers limit) (bitrate.toNat / 1000 % 65536)
      (bitrate.toNat / 1000) := by
  have hwhole : bitrate.toNat / 1000 % 65536 = bitrate.toNat / 1000 :=
    Nat.mod_eq_of_lt (by omega)
  rw [hwhole]
  exact Ladder.keepsUp_refl (layer 0 0) (codec.ladder layers limit) (bitrate.toNat / 1000)

/-- 65,536,000 bits per second are 0 kbps. -/
theorem not_chooses_best :
    ¬ ∀ (codec : LayeredCodec) (layers : MediaLayersBitrate) (limit : UInt8 × UInt8)
      (bitrate : UInt64), ChoosesBest codec layers limit bitrate := by
  intro hall
  have hhigh : Chooses .vp8 #v[some #v[some 100, some 200, none], none, none] (2, 2) 65536000
      (layer 0 0) := chooses_iff.mpr (by decide)
  have hlow : Chooses .vp8 #v[some #v[some 100, some 200, none], none, none] (2, 2) 200000
      (layer 0 1) := chooses_iff.mpr (by decide)
  have hle : layer 0 1 ≤ layer 0 0 := (hall _ _ _ _ _ hhigh).2 _ (by decide) _ hlow
  rw [MediaLayerSelection.le_iff] at hle
  revert hle
  decide

end MediaServer.Endpoint
