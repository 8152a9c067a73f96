import MediaServer.Lib.Ladder
import MediaServer.Protocol
import Mathlib.Data.Prod.Lex
import Mathlib.Data.List.FinRange

/-!
# Layers and their bitrates

`protocol/src/media.rs`.  A simulcast or SVC source announces for each pair of a spatial and a
temporal layer the bitrate that the layers up to it need, and may leave any of them out.  From these
bitrates a selector takes the layer that its own bitrate reaches (`select_layer`).

The layers in lexicographic order are a ladder, and `select_layer` climbs it.
-/

namespace MediaServer

structure MediaLayerSelection where
  spatial : UInt8
  temporal : UInt8
deriving DecidableEq, Repr

namespace MediaLayersBitrate

def defaultSim : MediaLayersBitrate := #v[some #v[some 81, none, none], none, none]

/-- `0..=max.min(2)`. -/
def upTo (max : UInt8) : List (Fin 3) := (List.finRange 3).filter fun i => i.val ≤ max.toNat

def layer (spatial temporal : Fin 3) : MediaLayerSelection :=
  ⟨.ofNat spatial.val, .ofNat temporal.val⟩

/-- Always `some`: the source has a note that it might become `none` one day. -/
def selectLayer (layers : MediaLayersBitrate) (targetBitrateKbps : UInt16)
    (maxSpatial maxTemporal : UInt8) : Option MediaLayerSelection :=
  some <| (upTo maxSpatial).foldl (fun best i =>
    match layers[i] with
    | some temporals => (upTo maxTemporal).foldl (fun best j =>
        match temporals[j] with
        | some bitrate => if bitrate ≤ targetBitrateKbps then layer i j else best
        | none => best) best
    | none => best) (layer 0 0)

/-- The layer that is selected when none fits. -/
abbrev lowest : MediaLayerSelection := layer 0 0

end MediaLayersBitrate

namespace MediaLayerSelection

/-! ### The lexicographic order -/

def rank (s : MediaLayerSelection) : ℕ ×ₗ ℕ := toLex (s.spatial.toNat, s.temporal.toNat)

theorem rank_injective : Function.Injective rank := by
  intro a b h
  have hpair := toLex.injective h
  cases a
  cases b
  simp only [Prod.mk.injEq, UInt8.toNat_inj] at hpair
  obtain ⟨rfl, rfl⟩ := hpair
  rfl

instance : LinearOrder MediaLayerSelection := LinearOrder.lift' rank rank_injective

theorem le_iff_rank {a b : MediaLayerSelection} : a ≤ b ↔ rank a ≤ rank b := Iff.rfl

theorem le_iff {a b : MediaLayerSelection} :
    a ≤ b ↔ a.spatial.toNat < b.spatial.toNat ∨
      a.spatial.toNat = b.spatial.toNat ∧ a.temporal.toNat ≤ b.temporal.toNat := by
  rw [le_iff_rank, rank, rank, Prod.Lex.toLex_le_toLex]

end MediaLayerSelection

namespace MediaLayersBitrate

/-- The layers within the limits that are announced, with their bitrates in kbps. -/
def announced (layers : MediaLayersBitrate) (limit : UInt8 × UInt8) :
    List (MediaLayerSelection × ℕ) :=
  (upTo limit.1).flatMap fun i => (upTo limit.2).filterMap fun j =>
    (layers[i].bind fun temporals => temporals[j]).map fun bitrate => (layer i j, bitrate.toNat)

theorem mem_upTo {max : UInt8} {i : Fin 3} : i ∈ upTo max ↔ i.val ≤ max.toNat := by
  simp [upTo, List.mem_finRange]

theorem upTo_sorted (max : UInt8) : (upTo max).Pairwise (· < ·) :=
  (List.pairwise_lt_finRange 3).filter _

theorem mem_announced {layers : MediaLayersBitrate} {limit : UInt8 × UInt8}
    {rung : MediaLayerSelection × ℕ} :
    rung ∈ layers.announced limit ↔ ∃ i j temporals bitrate,
      i.val ≤ limit.1.toNat ∧ j.val ≤ limit.2.toNat ∧ layers[i] = some temporals ∧
      temporals[j] = some bitrate ∧ rung = (layer i j, bitrate.toNat) := by
  simp only [announced, List.mem_flatMap, List.mem_filterMap, mem_upTo, Option.map_eq_some_iff,
    Option.bind_eq_some_iff]
  constructor
  · rintro ⟨i, hi, j, hj, bitrate, ⟨temporals, hi', hj'⟩, rfl⟩
    exact ⟨i, j, temporals, bitrate, hi, hj, hi', hj', rfl⟩
  · rintro ⟨i, j, temporals, bitrate, hi, hj, hi', hj', rfl⟩
    exact ⟨i, hi, j, hj, bitrate, ⟨temporals, hi', hj'⟩, rfl⟩

theorem selectLayer_eq_climb (layers : MediaLayersBitrate) (kbps : UInt16)
    (limit : UInt8 × UInt8) :
    layers.selectLayer kbps limit.1 limit.2 =
      some (Ladder.climb kbps.toNat (layer 0 0) (layers.announced limit)) := by
  rw [selectLayer, Ladder.climb, announced, List.foldl_flatMap]
  congr 2
  funext best i
  rw [List.foldl_filterMap]
  cases layers[i] with
  | none => simp
  | some temporals =>
    simp only [Option.bind_some]
    congr 1
    funext best j
    cases temporals[j] with
    | none => rfl
    | some bitrate => simp [UInt16.le_iff_toNat_le]

@[simp] theorem layer_spatial (i j : Fin 3) : (layer i j).spatial.toNat = i.val := by
  simp [layer]
  omega

@[simp] theorem layer_temporal (i j : Fin 3) : (layer i j).temporal.toNat = j.val := by
  simp [layer]
  omega

theorem ground_le (place : MediaLayerSelection) : layer 0 0 ≤ place := by
  rw [MediaLayerSelection.le_iff]
  simp
  omega

theorem announced_sorted (layers : MediaLayersBitrate) (limit : UInt8 × UInt8) :
    (layers.announced limit).Pairwise fun low high => low.1 ≤ high.1 := by
  rw [announced, List.pairwise_flatMap]
  constructor
  · intro i _
    rw [List.pairwise_filterMap]
    refine (upTo_sorted limit.2).imp fun hlt => ?_
    intro low hlow high hhigh
    obtain ⟨bitrate, -, rfl⟩ := Option.map_eq_some_iff.mp hlow
    obtain ⟨bitrate', -, rfl⟩ := Option.map_eq_some_iff.mp hhigh
    rw [MediaLayerSelection.le_iff]
    simp
    exact le_of_lt hlt
  · refine (upTo_sorted limit.1).imp fun hlt => ?_
    intro low hlow high hhigh
    obtain ⟨j, -, hlow⟩ := List.mem_filterMap.mp hlow
    obtain ⟨j', -, hhigh⟩ := List.mem_filterMap.mp hhigh
    obtain ⟨bitrate, -, rfl⟩ := Option.map_eq_some_iff.mp hlow
    obtain ⟨bitrate', -, rfl⟩ := Option.map_eq_some_iff.mp hhigh
    rw [MediaLayerSelection.le_iff]
    simp
    exact Or.inl hlt

/-- A layer that is chosen lies within the limits. -/
theorem selectLayer_within {layers : MediaLayersBitrate} {kbps : UInt16} {limit : UInt8 × UInt8}
    {target : MediaLayerSelection}
    (h : layers.selectLayer kbps limit.1 limit.2 = some target) :
    target.spatial ≤ limit.1 ∧ target.temporal ≤ limit.2 := by
  rw [selectLayer_eq_climb, Option.some.injEq] at h
  rw [UInt8.le_iff_toNat_le, UInt8.le_iff_toNat_le]
  rcases Ladder.climb_best (layers.announced_sorted limit) kbps.toNat (layer 0 0) with
    ⟨⟨price, hmem, -⟩, -⟩ | ⟨-, hground⟩
  · rw [h] at hmem
    obtain ⟨i, j, temporals, bitrate, hi, hj, -, -, heq⟩ := mem_announced.mp hmem
    cases heq
    simpa using ⟨hi, hj⟩
  · rw [h] at hground
    subst hground
    simp

end MediaLayersBitrate

end MediaServer
