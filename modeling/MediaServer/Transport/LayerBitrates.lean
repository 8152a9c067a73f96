import MediaServer.Lib.TaskGroup
import MediaServer.Protocol
import Mathlib.Algebra.BigOperators.Group.List.Basic
import Mathlib.Data.List.Forall2

/-!
# Bitrates of layers

`extract_simulcast` and `extract_svc` (`transport_webrtc/src/media/mod.rs`) turn the layer
allocation that a client announces into the bitrates of at most three layers of at most three
temporal layers.  The rates are announced in 64 bits and kept in 16.
-/

namespace MediaServer.Transport.LayerBitrates

/-! ### The announced layers -/

/-- The rates of the temporal layers, each with those below it, in kbps. -/
structure SpatialLayerAllocation where
  temporalLayers : List UInt64
deriving DecidableEq

structure SimulcastStreamAllocation where
  spatialLayers : List SpatialLayerAllocation
deriving DecidableEq

structure VideoLayersAllocation where
  simulcastStreams : List SimulcastStreamAllocation

/-! ### The extraction -/

section

variable {α β σ : Type}

/-- `set_layer`, with the check of the index. -/
def setLayer (layers : Vector (Option α) 3) (index : Nat) (layer : α) :
    Except Panic (Vector (Option α) 3) :=
  if h : index < 3 then .ok (layers.set index (some layer))
  else .error ⟨"index out of bounds"⟩

def placeLayer (layers : Vector (Option α) 3) (index : Nat) :
    Option α → Except Panic (Vector (Option α) 3)
  | none => .ok layers
  | some layer => setLayer layers index layer

/-- The loops over `iter().enumerate()`: what is made of an item goes to its index, if anything
    is made of it. -/
def fillLoop (f : σ → β → Except Panic (Option α × σ)) :
    Nat → σ → List β → Vector (Option α) 3 → Except Panic (Vector (Option α) 3)
  | _, _, [], layers => .ok layers
  | index, s, item :: items, layers => do
    let (made, s) ← f s item
    let layers ← placeLayer layers index made
    fillLoop f (index + 1) s items layers

end

/-- `u16` addition, checked. -/
def checkedAdd (a b : UInt16) : Except Panic UInt16 :=
  if a.toNat + b.toNat < 2 ^ 16 then .ok (a + b) else .error ⟨"attempt to add with overflow"⟩

def noLayers {α : Type} : Vector (Option α) 3 := Vector.replicate 3 none

/-- The temporal layers of a spatial layer, with a rate for each. -/
def fillTemporals (rate : UInt64 → Except Panic UInt16) (spatial : SpatialLayerAllocation) :
    Except Panic MediaLayerBitrate :=
  fillLoop (fun _ bitrate => do
    let rate ← rate bitrate
    pure (some rate, ())) 0 () spatial.temporalLayers noLayers

/-- One stream of simulcast, whose first spatial layer counts. -/
def simulcastLayer (_ : Unit) (sim : SimulcastStreamAllocation) :
    Except Panic (Option MediaLayerBitrate × Unit) :=
  match sim.spatialLayers.head? with
  | none => .ok (none, ())
  | some spatial => do
    let layer ← fillTemporals (fun bitrate => .ok bitrate.toUInt16) spatial
    pure (some layer, ())

def extractSimulcast (vla : VideoLayersAllocation) : Except Panic (Option MediaLayersBitrate) :=
  if vla.simulcastStreams.isEmpty then .ok none
  else do
    let layers ← fillLoop simulcastLayer 0 () vla.simulcastStreams noLayers
    pure (some layers)

/-- One spatial layer of a stream, with the rate of the layers below. -/
def svcLayer (previousBitrate : UInt16) (spatial : SpatialLayerAllocation) :
    Except Panic (Option MediaLayerBitrate × UInt16) := do
  let layer ← fillTemporals (fun bitrate => checkedAdd bitrate.toUInt16 previousBitrate) spatial
  let previousBitrate ←
    checkedAdd previousBitrate (spatial.temporalLayers.getLast?.getD 0).toUInt16
  pure (some layer, previousBitrate)

def extractSvc (vla : VideoLayersAllocation) : Except Panic (Option MediaLayersBitrate) :=
  match vla.simulcastStreams.head? with
  | none => .ok none
  | some stream => do
    let layers ← fillLoop svcLayer 0 0 stream.spatialLayers noLayers
    pure (some layers)

/-! ### What the loops make -/

section

variable {α β σ : Type} {f : σ → β → Except Panic (Option α × σ)}

/-- The items of a loop and what is made of each. -/
inductive Makes (f : σ → β → Except Panic (Option α × σ)) : σ → List β → List (Option α) → Prop
  | nil (s : σ) : Makes f s [] []
  | cons {s s' : σ} {item : β} {items : List β} {made : Option α} {rest : List (Option α)}
      (hitem : f s item = .ok (made, s')) (hitems : Makes f s' items rest) :
      Makes f s (item :: items) (made :: rest)

/-- The layers with what was made from an index on. -/
def overlay (layers : Vector (Option α) 3) (index : Nat) (made : List (Option α)) :
    Vector (Option α) 3 :=
  Vector.ofFn fun k =>
    if index ≤ k then (made[k.val - index]?).join.or (layers.get k) else layers.get k

theorem getElem_overlay (layers : Vector (Option α) 3) (index : Nat) (made : List (Option α))
    {k : Nat} (hk : k < 3) :
    (overlay layers index made)[k] =
      if index ≤ k then (made[k - index]?).join.or layers[k] else layers[k] :=
  Vector.getElem_ofFn hk

theorem overlay_nil (layers : Vector (Option α) 3) (index : Nat) :
    overlay layers index [] = layers := by
  apply Vector.ext
  intro k hk
  simp [getElem_overlay]

/-- The item at a place behind the first one. -/
theorem getElem?_cons_sub {made : Option α} {rest : List (Option α)} {index k : Nat}
    (h : index + 1 ≤ k) : (made :: rest)[k - index]? = rest[k - (index + 1)]? := by
  have hsucc : k - index = k - (index + 1) + 1 := by omega
  rw [hsucc, List.getElem?_cons_succ]

theorem overlay_none (layers : Vector (Option α) 3) (index : Nat) (rest : List (Option α)) :
    overlay layers index (none :: rest) = overlay layers (index + 1) rest := by
  apply Vector.ext
  intro k hk
  rw [getElem_overlay, getElem_overlay]
  rcases Nat.lt_trichotomy k index with hlt | rfl | hgt
  · rw [if_neg (by omega), if_neg (by omega)]
  · rw [if_pos (Nat.le_refl k), if_neg (by omega), Nat.sub_self]
    rfl
  · rw [if_pos (by omega), if_pos (by omega), getElem?_cons_sub hgt]

theorem overlay_some (layers : Vector (Option α) 3) {index : Nat} (hindex : index < 3) (layer : α)
    (rest : List (Option α)) :
    overlay layers index (some layer :: rest) =
      overlay (layers.set index (some layer)) (index + 1) rest := by
  apply Vector.ext
  intro k hk
  rw [getElem_overlay, getElem_overlay]
  rcases Nat.lt_trichotomy k index with hlt | rfl | hgt
  · rw [if_neg (by omega), if_neg (by omega), Vector.getElem_set_ne _ _ (by omega)]
  · rw [if_pos (Nat.le_refl k), if_neg (by omega), Nat.sub_self, Vector.getElem_set_self]
    rfl
  · rw [if_pos (by omega), if_pos (by omega), getElem?_cons_sub hgt,
      Vector.getElem_set_ne _ _ (by omega)]

theorem setLayer_eq_ok {layers out : Vector (Option α) 3} {index : Nat} {layer : α} :
    setLayer layers index layer = .ok out ↔
      ∃ h : index < 3, out = layers.set index (some layer) := by
  rw [setLayer]
  split
  case isTrue h => exact ⟨fun heq => ⟨h, (Except.ok.inj heq).symm⟩, fun ⟨_, heq⟩ => by rw [heq]⟩
  case isFalse h => exact ⟨fun heq => (nomatch heq), fun ⟨h', _⟩ => absurd h' h⟩

/-- A loop fills in what is made of its items, unless something is made of a fourth one. -/
theorem fillLoop_eq_ok {index : Nat} {s : σ} {items : List β} {layers out : Vector (Option α) 3} :
    fillLoop f index s items layers = .ok out ↔
      ∃ made, Makes f s items made ∧
        (∀ (k : Nat) (layer : α), made[k]? = some (some layer) → index + k < 3) ∧
        out = overlay layers index made := by
  induction items generalizing index s layers with
  | nil =>
    constructor
    · intro h
      refine ⟨[], .nil s, fun k layer h => (nomatch h), ?_⟩
      rw [overlay_nil]
      exact (Except.ok.inj h).symm
    · rintro ⟨_, ⟨⟩, _, rfl⟩
      rw [overlay_nil]
      rfl
  | cons item items ih =>
    rw [fillLoop, Except.bind_eq_ok]
    constructor
    · rintro ⟨⟨made, s'⟩, hitem, h⟩
      rw [Except.bind_eq_ok] at h
      obtain ⟨layers', hset, h⟩ := h
      obtain ⟨rest, hrest, hbound, rfl⟩ := ih.mp h
      refine ⟨made :: rest, .cons hitem hrest, ?_, ?_⟩
      · intro k layer hk
        cases k with
        | zero =>
          rw [List.getElem?_cons_zero, Option.some.injEq] at hk
          rw [hk] at hset
          exact (setLayer_eq_ok.mp hset).1
        | succ k =>
          have hlt := hbound k layer hk
          omega
      · cases made with
        | none =>
          rw [overlay_none]
          exact congrArg (fun layers => overlay layers (index + 1) rest) (Except.ok.inj hset).symm
        | some layer =>
          obtain ⟨hindex, rfl⟩ := setLayer_eq_ok.mp hset
          rw [overlay_some layers hindex]
    · rintro ⟨_, hmade, hbound, rfl⟩
      cases hmade with
      | @cons _ s' _ _ made rest hitem hrest =>
        have hbound' : ∀ (k : Nat) (layer : α), rest[k]? = some (some layer) →
            index + 1 + k < 3 := by
          intro k layer hk
          have hlt := hbound (k + 1) layer (by rw [List.getElem?_cons_succ]; exact hk)
          omega
        refine ⟨(made, s'), hitem, Except.bind_eq_ok.mpr ?_⟩
        cases made with
        | none =>
          refine ⟨layers, rfl, ih.mpr ⟨rest, hrest, hbound', ?_⟩⟩
          rw [overlay_none]
        | some layer =>
          have hindex : index < 3 := hbound 0 layer rfl
          refine ⟨_, setLayer_eq_ok.mpr ⟨hindex, rfl⟩, ih.mpr ⟨rest, hrest, hbound', ?_⟩⟩
          rw [overlay_some layers hindex]

/-- A loop without a state treats its items one by one. -/
theorem makes_iff_forall₂ {f : Unit → β → Except Panic (Option α × Unit)} {items : List β}
    {made : List (Option α)} :
    Makes f () items made ↔
      List.Forall₂ (fun item made => f () item = .ok (made, ())) items made := by
  constructor
  · intro h
    induction items generalizing made with
    | nil =>
      cases h
      exact .nil
    | cons item items ih =>
      cases h with
      | cons hitem hitems => exact .cons hitem (ih hitems)
  · intro h
    induction h with
    | nil => exact .nil ()
    | cons hitem _ ih => exact .cons hitem ih

/-- The layer at a place. -/
def layerAt (layers : Vector (Option α) 3) (k : Nat) : Option α := (layers[k]?).join

theorem layerAt_overlay {made : List (Option α)} {k : Nat} (hk : k < 3) :
    layerAt (overlay noLayers 0 made) k = (made[k]?).join := by
  rw [layerAt, Vector.getElem?_eq_getElem hk, Option.join_some, getElem_overlay,
    if_pos (Nat.zero_le _)]
  simp [noLayers]

end

/-! ### What should be extracted -/

/-- The rate as far as it can be represented. -/
def cap (rate : Nat) : UInt16 := UInt16.ofNat (min rate 65535)

def entry (out : Option MediaLayersBitrate) (spatial temporal : Nat) : Option UInt16 :=
  out.bind fun layers => (layerAt layers spatial).bind fun layer => layerAt layer temporal

def announcedSimulcast (vla : VideoLayersAllocation) (index temporal : Nat) : Option Nat := do
  let sim ← vla.simulcastStreams[index]?
  let spatial ← sim.spatialLayers.head?
  let bitrate ← spatial.temporalLayers[temporal]?
  some bitrate.toNat

/-- The whole rate of a spatial layer. -/
def lastRate (spatial : SpatialLayerAllocation) : Nat :=
  (spatial.temporalLayers.getLast?.getD 0).toNat

/-- The rates of the spatial layers below an index. -/
def lowerTotal (spatials : List SpatialLayerAllocation) (index : Nat) : Nat :=
  ((spatials.take index).map lastRate).sum

def announcedSvc (vla : VideoLayersAllocation) (index temporal : Nat) : Option Nat := do
  let stream ← vla.simulcastStreams.head?
  let spatial ← stream.spatialLayers[index]?
  let bitrate ← spatial.temporalLayers[temporal]?
  some (bitrate.toNat + lowerTotal stream.spatialLayers index)

/-- Every entry is what was announced, capped, so the entries are ordered as the announced rates
    are. -/
structure Faithful (out : Option MediaLayersBitrate) (announced : Nat → Nat → Option Nat) :
    Prop where
  entries : ∀ i < 3, ∀ t < 3, entry out i t = (announced i t).map cap
  ordered : ∀ i < 3, ∀ t < 3, ∀ i' < 3, ∀ t' < 3, ∀ n n', announced i t = some n →
    announced i' t' = some n' → n ≤ n' →
    ∃ e e', entry out i t = some e ∧ entry out i' t' = some e' ∧ e ≤ e'

theorem cap_le_cap {n n' : Nat} (h : n ≤ n') : cap n ≤ cap n' := by
  rw [UInt16.le_iff_toNat_le, cap, cap, UInt16.toNat_ofNat', UInt16.toNat_ofNat']
  omega

theorem faithful_of_entries {out : Option MediaLayersBitrate}
    {announced : Nat → Nat → Option Nat}
    (h : ∀ i < 3, ∀ t < 3, entry out i t = (announced i t).map cap) : Faithful out announced := by
  refine ⟨h, ?_⟩
  intro i hi t ht i' hi' t' ht' n n' hn hn' hle
  refine ⟨cap n, cap n', ?_, ?_, cap_le_cap hle⟩
  · rw [h i hi t ht, hn]
    rfl
  · rw [h i' hi' t' ht', hn']
    rfl

/-- Neither extraction panics, and both are faithful. -/
def Extracts (vla : VideoLayersAllocation) : Prop :=
  (∃ out, extractSimulcast vla = .ok out ∧ Faithful out (announcedSimulcast vla)) ∧
    ∃ out, extractSvc vla = .ok out ∧ Faithful out (announcedSvc vla)

/-! ### When it is -/

/-- At most three streams have layers, their first layer has at most three temporal layers, and
    the rates fit, or are cut to the largest one by chance. -/
def SimulcastFits (vla : VideoLayersAllocation) : Prop :=
  ∀ (i : Nat) (sim : SimulcastStreamAllocation) (spatial : SpatialLayerAllocation),
    vla.simulcastStreams[i]? = some sim → sim.spatialLayers.head? = some spatial →
      i < 3 ∧ spatial.temporalLayers.length ≤ 3 ∧
        ∀ bitrate ∈ spatial.temporalLayers,
          bitrate.toNat ≤ 65535 ∨ bitrate.toNat % 65536 = 65535

/-- The rates of the spatial layers below an index, each cut to 16 bits. -/
def lowerCut (spatials : List SpatialLayerAllocation) (index : Nat) : Nat :=
  ((spatials.take index).map fun spatial => lastRate spatial % 65536).sum

/-- The first stream has at most three spatial layers of at most three temporal layers, and the
    rates fit together with those of the lower layers, or add up to the largest one by chance. -/
def SvcFits (vla : VideoLayersAllocation) : Prop :=
  ∀ stream, vla.simulcastStreams.head? = some stream →
    stream.spatialLayers.length ≤ 3 ∧
      ∀ (i : Nat) (spatial : SpatialLayerAllocation), stream.spatialLayers[i]? = some spatial →
        spatial.temporalLayers.length ≤ 3 ∧
          ∀ bitrate ∈ spatial.temporalLayers,
            bitrate.toNat + lowerTotal stream.spatialLayers i ≤ 65535 ∨
              bitrate.toNat % 65536 + lowerCut stream.spatialLayers i = 65535

/-! ### Temporal layers -/

section

variable {rate : UInt64 → Except Panic UInt16} {want : UInt64 → UInt16}
  {spatial : SpatialLayerAllocation}

/-- The layer with the wanted rates. -/
def layerOf (want : UInt64 → UInt16) (spatial : SpatialLayerAllocation) : MediaLayerBitrate :=
  overlay noLayers 0 (spatial.temporalLayers.map fun bitrate => some (want bitrate))

theorem layerAt_layerOf {t : Nat} (ht : t < 3) :
    layerAt (layerOf want spatial) t = (spatial.temporalLayers[t]?).map want := by
  rw [layerOf, layerAt_overlay ht, List.getElem?_map]
  cases spatial.temporalLayers[t]? <;> rfl

theorem makes_rates {bitrates : List UInt64} {made : List (Option UInt16)} :
    Makes (fun (_ : Unit) bitrate => do
      let r ← rate bitrate
      pure (some r, ())) () bitrates made ↔
      ∃ rates, made = rates.map some ∧
        List.Forall₂ (fun bitrate r => rate bitrate = .ok r) bitrates rates := by
  rw [makes_iff_forall₂]
  constructor
  · intro h
    induction h with
    | nil => exact ⟨[], rfl, .nil⟩
    | cons hitem _ ih =>
      obtain ⟨r, hr, hmade⟩ := Except.bind_eq_ok.mp hitem
      obtain ⟨rates, rfl, hrates⟩ := ih
      have hsome := (Prod.mk.inj (Except.ok.inj hmade)).1
      exact ⟨r :: rates, by rw [← hsome]; rfl, .cons hr hrates⟩
  · rintro ⟨rates, rfl, hrates⟩
    induction hrates with
    | nil => exact .nil
    | cons hr _ ih => exact .cons (Except.bind_eq_ok.mpr ⟨_, hr, rfl⟩) ih

theorem fillTemporals_eq_ok {layer : MediaLayerBitrate} :
    fillTemporals rate spatial = .ok layer ↔
      ∃ rates, List.Forall₂ (fun bitrate r => rate bitrate = .ok r) spatial.temporalLayers rates ∧
        rates.length ≤ 3 ∧ layer = overlay noLayers 0 (rates.map some) := by
  rw [fillTemporals, fillLoop_eq_ok]
  constructor
  · rintro ⟨made, hmade, hbound, rfl⟩
    obtain ⟨rates, rfl, hrates⟩ := Iff.mp makes_rates hmade
    refine ⟨rates, hrates, Nat.le_of_not_lt fun hlt => ?_, rfl⟩
    have hthree := hbound 3 rates[3] (by rw [List.getElem?_map, List.getElem?_eq_getElem hlt]; rfl)
    omega
  · rintro ⟨rates, hrates, hlength, rfl⟩
    refine ⟨rates.map some, Iff.mpr makes_rates ⟨rates, rfl, hrates⟩, ?_, rfl⟩
    intro k r hk
    rw [List.getElem?_map] at hk
    obtain ⟨r', hr', -⟩ := Option.map_eq_some_iff.mp hk
    have hlt := (List.getElem?_eq_some_iff.mp hr').1
    omega

/-- The wanted rates are extracted if they are computed. -/
theorem fillTemporals_layerOf (hlength : spatial.temporalLayers.length ≤ 3)
    (hrate : ∀ bitrate ∈ spatial.temporalLayers, rate bitrate = .ok (want bitrate)) :
    fillTemporals rate spatial = .ok (layerOf want spatial) := by
  refine Iff.mpr fillTemporals_eq_ok ⟨spatial.temporalLayers.map want, ?_, ?_, ?_⟩
  · rw [List.forall₂_map_right_iff, List.forall₂_same]
    exact hrate
  · rw [List.length_map]
    exact hlength
  · rw [layerOf, List.map_map]
    rfl

/-- And only then. -/
theorem rates_of_fillTemporals {layer : MediaLayerBitrate}
    (h : fillTemporals rate spatial = .ok layer)
    (hentries : ∀ t < 3, layerAt layer t = (spatial.temporalLayers[t]?).map want) :
    spatial.temporalLayers.length ≤ 3 ∧
      ∀ bitrate ∈ spatial.temporalLayers, rate bitrate = .ok (want bitrate) := by
  obtain ⟨rates, hrates, hlength, rfl⟩ := Iff.mp fillTemporals_eq_ok h
  have hsame := hrates.length_eq
  have hwant : rates = spatial.temporalLayers.map want := by
    apply List.ext_getElem?
    intro t
    by_cases ht : t < 3
    · have hentry := hentries t ht
      rw [layerAt_overlay ht, List.getElem?_map] at hentry
      rw [List.getElem?_map, ← hentry]
      cases rates[t]? <;> rfl
    · rw [List.getElem?_eq_none (by omega), List.getElem?_eq_none (by rw [List.length_map]; omega)]
  rw [hwant, List.forall₂_map_right_iff, List.forall₂_same] at hrates
  exact ⟨hsame ▸ hlength, hrates⟩

end

/-! ### Simulcast -/

theorem toUInt16_eq_cap {c : UInt64} :
    c.toUInt16 = cap c.toNat ↔ c.toNat ≤ 65535 ∨ c.toNat % 65536 = 65535 := by
  rw [← UInt16.toNat_inj, UInt64.toNat_toUInt16, cap, UInt16.toNat_ofNat']
  omega

theorem simulcastLayer_eq_ok {sim : SimulcastStreamAllocation} {made : Option MediaLayerBitrate} :
    simulcastLayer () sim = .ok (made, ()) ↔
      (∀ spatial, sim.spatialLayers.head? = some spatial →
        ∃ layer, made = some layer ∧
          fillTemporals (fun bitrate => .ok bitrate.toUInt16) spatial = .ok layer) ∧
      (sim.spatialLayers.head? = none → made = none) := by
  rw [simulcastLayer]
  cases sim.spatialLayers.head? with
  | none =>
    constructor
    · intro h
      exact ⟨fun _ h => (nomatch h), fun _ => (Prod.mk.inj (Except.ok.inj h)).1.symm⟩
    · intro h
      rw [h.2 rfl]
  | some spatial =>
    constructor
    · intro h
      obtain ⟨layer, hlayer, hmade⟩ := Except.bind_eq_ok.mp h
      refine ⟨?_, fun h => (nomatch h)⟩
      rintro _ ⟨⟩
      exact ⟨layer, (Prod.mk.inj (Except.ok.inj hmade)).1.symm, hlayer⟩
    · intro h
      obtain ⟨layer, rfl, hlayer⟩ := h.1 spatial rfl
      exact Except.bind_eq_ok.mpr ⟨layer, hlayer, rfl⟩

theorem forall₂_getElem? {α β : Type} {R : α → β → Prop} {xs : List α} {ys : List β}
    (h : List.Forall₂ R xs ys) {i : Nat} {x : α} (hx : xs[i]? = some x) :
    ∃ y, ys[i]? = some y ∧ R x y := by
  induction h generalizing i with
  | nil => exact nomatch hx
  | cons hR _ ih =>
    cases i with
    | zero =>
      rw [List.getElem?_cons_zero, Option.some.injEq] at hx
      exact ⟨_, rfl, hx ▸ hR⟩
    | succ i => exact ih hx

theorem announcedSimulcast_eq (vla : VideoLayersAllocation) (i t : Nat) :
    announcedSimulcast vla i t =
      ((vla.simulcastStreams[i]?).bind fun sim => sim.spatialLayers.head?).bind fun spatial =>
        (spatial.temporalLayers[t]?).map UInt64.toNat := by
  rw [announcedSimulcast]
  cases vla.simulcastStreams[i]? with
  | none => rfl
  | some sim =>
    cases hspatial : sim.spatialLayers.head? with
    | none => simp only [bind, Option.bind, hspatial]
    | some spatial =>
      simp only [bind, Option.bind, hspatial]
      cases spatial.temporalLayers[t]? <;> rfl

theorem extractSimulcast_iff (vla : VideoLayersAllocation) :
    (∃ out, extractSimulcast vla = .ok out ∧
      ∀ i < 3, ∀ t < 3, entry out i t = (announcedSimulcast vla i t).map cap) ↔
      SimulcastFits vla := by
  rw [extractSimulcast]
  by_cases hempty : vla.simulcastStreams.isEmpty
  · rw [if_pos hempty]
    rw [List.isEmpty_iff] at hempty
    refine iff_of_true ⟨none, rfl, ?_⟩ ?_
    · intro i hi t ht
      rw [announcedSimulcast, hempty]
      rfl
    · intro i sim spatial hsim
      rw [hempty] at hsim
      exact nomatch hsim
  rw [if_neg hempty]
  constructor
  · rintro ⟨out, hout, hentries⟩
    obtain ⟨layers, hlayers, hsome⟩ := Except.bind_eq_ok.mp hout
    have hsome : out = some layers := (Except.ok.inj hsome).symm
    obtain ⟨made, hmade, hbound, rfl⟩ := fillLoop_eq_ok.mp hlayers
    intro i sim spatial hsim hspatial
    obtain ⟨m, hm, hstep⟩ := forall₂_getElem? (makes_iff_forall₂.mp hmade) hsim
    obtain ⟨layer, rfl, hlayer⟩ := (simulcastLayer_eq_ok.mp hstep).1 spatial hspatial
    have hi : i < 3 := by
      have hlt := hbound i layer hm
      omega
    refine ⟨hi, ?_⟩
    have hwant : ∀ t < 3, layerAt layer t =
        (spatial.temporalLayers[t]?).map fun bitrate => cap bitrate.toNat := by
      intro t ht
      have hentry := hentries i hi t ht
      rw [hsome, entry, Option.bind_some, layerAt_overlay hi, hm, Option.join_some, Option.bind_some,
        announcedSimulcast_eq, hsim, Option.bind_some, hspatial, Option.bind_some,
        Option.map_map] at hentry
      exact hentry
    obtain ⟨hlength, hrates⟩ := rates_of_fillTemporals hlayer hwant
    exact ⟨hlength, fun bitrate hmem => toUInt16_eq_cap.mp (Except.ok.inj (hrates bitrate hmem))⟩
  · intro hfits
    let made := vla.simulcastStreams.map fun sim =>
      sim.spatialLayers.head?.map (layerOf fun bitrate => cap bitrate.toNat)
    have hmade : Makes simulcastLayer () vla.simulcastStreams made := by
      rw [makes_iff_forall₂, List.forall₂_map_right_iff, List.forall₂_same]
      intro sim hsim
      obtain ⟨i, hi⟩ := List.mem_iff_getElem?.mp hsim
      refine simulcastLayer_eq_ok.mpr ⟨?_, fun hnone => by rw [hnone]; rfl⟩
      intro spatial hspatial
      obtain ⟨_, hlength, hrates⟩ := hfits i sim spatial hi hspatial
      refine ⟨layerOf (fun bitrate => cap bitrate.toNat) spatial, by rw [hspatial]; rfl, ?_⟩
      refine fillTemporals_layerOf hlength fun bitrate hmem => ?_
      exact congrArg Except.ok (toUInt16_eq_cap.mpr (hrates bitrate hmem))
    have hbound : ∀ (k : Nat) (layer : MediaLayerBitrate), made[k]? = some (some layer) →
        0 + k < 3 := by
      intro k layer hk
      rw [List.getElem?_map] at hk
      obtain ⟨sim, hsim, hmap⟩ := Option.map_eq_some_iff.mp hk
      obtain ⟨spatial, hspatial, _⟩ := Option.map_eq_some_iff.mp hmap
      rw [Nat.zero_add]
      exact (hfits k sim spatial hsim hspatial).1
    refine ⟨some (overlay noLayers 0 made), ?_, ?_⟩
    · exact Except.bind_eq_ok.mpr ⟨_, fillLoop_eq_ok.mpr ⟨made, hmade, hbound, rfl⟩, rfl⟩
    · intro i hi t ht
      rw [entry, Option.bind_some, layerAt_overlay hi, List.getElem?_map, announcedSimulcast_eq]
      cases vla.simulcastStreams[i]? with
      | none => rfl
      | some sim =>
        rw [Option.map_some, Option.join_some, Option.bind_some]
        cases sim.spatialLayers.head? with
        | none => rfl
        | some spatial =>
          rw [Option.map_some, Option.bind_some, Option.bind_some, layerAt_layerOf ht,
            Option.map_map]
          rfl

/-! ### Spatial layers of one stream -/

/-- The sum of the cut rates is the true one as long as that fits. -/
theorem checkedAdd_eq_cap {c : UInt64} {prev : UInt16} {base : Nat} (hle : prev.toNat ≤ base)
    (hsame : base ≤ 65535 → prev.toNat = base) :
    checkedAdd c.toUInt16 prev = .ok (cap (c.toNat + base)) ↔
      c.toNat + base ≤ 65535 ∨ c.toNat % 65536 + prev.toNat = 65535 := by
  have hcut : c.toUInt16.toNat = c.toNat % 65536 := UInt64.toNat_toUInt16 c
  have hlt := prev.toNat_lt
  rw [checkedAdd, hcut]
  constructor
  · intro h
    split at h
    case isFalse => exact nomatch h
    case isTrue hfits =>
      have hvalue := congrArg UInt16.toNat (Except.ok.inj h)
      rw [UInt16.toNat_add, hcut, cap, UInt16.toNat_ofNat'] at hvalue
      omega
  · intro h
    rw [if_pos (by omega)]
    apply congrArg Except.ok
    rw [← UInt16.toNat_inj, UInt16.toNat_add, hcut, cap, UInt16.toNat_ofNat']
    omega

theorem lowerTotal_succ (spatial : SpatialLayerAllocation) (spatials : List SpatialLayerAllocation)
    (i : Nat) : lowerTotal (spatial :: spatials) (i + 1) = lastRate spatial + lowerTotal spatials i := by
  rw [lowerTotal, List.take_succ_cons, List.map_cons, List.sum_cons]
  rfl

theorem lowerCut_succ (spatial : SpatialLayerAllocation) (spatials : List SpatialLayerAllocation)
    (i : Nat) :
    lowerCut (spatial :: spatials) (i + 1) = lastRate spatial % 65536 + lowerCut spatials i := by
  rw [lowerCut, List.take_succ_cons, List.map_cons, List.sum_cons]
  rfl

theorem lowerCut_le (spatials : List SpatialLayerAllocation) (i : Nat) :
    lowerCut spatials i ≤ lowerTotal spatials i ∧
      (lowerTotal spatials i ≤ 65535 → lowerCut spatials i = lowerTotal spatials i) := by
  induction spatials generalizing i with
  | nil =>
    rw [lowerCut, lowerTotal, List.take_nil]
    exact ⟨Nat.le_refl _, fun _ => rfl⟩
  | cons spatial spatials ih =>
    cases i with
    | zero => exact ⟨Nat.le_refl _, fun _ => rfl⟩
    | succ i =>
      obtain ⟨hle, hsame⟩ := ih i
      rw [lowerTotal_succ, lowerCut_succ]
      omega

theorem svcLayer_eq_ok {prev prev' : UInt16} {spatial : SpatialLayerAllocation}
    {made : Option MediaLayerBitrate} :
    svcLayer prev spatial = .ok (made, prev') ↔
      (∃ layer, made = some layer ∧
        fillTemporals (fun bitrate => checkedAdd bitrate.toUInt16 prev) spatial = .ok layer) ∧
      prev.toNat + lastRate spatial % 65536 < 65536 ∧
        prev'.toNat = prev.toNat + lastRate spatial % 65536 := by
  have hlast : (spatial.temporalLayers.getLast?.getD 0).toUInt16.toNat =
      lastRate spatial % 65536 := UInt64.toNat_toUInt16 _
  have hadd : checkedAdd prev (spatial.temporalLayers.getLast?.getD 0).toUInt16 = .ok prev' ↔
      prev.toNat + lastRate spatial % 65536 < 65536 ∧
        prev'.toNat = prev.toNat + lastRate spatial % 65536 := by
    rw [checkedAdd, hlast]
    constructor
    · intro h
      split at h
      case isFalse => exact nomatch h
      case isTrue hfits =>
        refine ⟨hfits, ?_⟩
        rw [← Except.ok.inj h, UInt16.toNat_add, hlast]
        exact Nat.mod_eq_of_lt hfits
    · rintro ⟨hfits, hvalue⟩
      rw [if_pos (show _ < 2 ^ 16 from hfits)]
      apply congrArg Except.ok
      rw [← UInt16.toNat_inj, UInt16.toNat_add, hlast, hvalue]
      exact Nat.mod_eq_of_lt hfits
  rw [svcLayer, Except.bind_eq_ok]
  constructor
  · rintro ⟨layer, hlayer, h⟩
    obtain ⟨next, hnext, h⟩ := Except.bind_eq_ok.mp h
    obtain ⟨hmade, rfl⟩ := Prod.mk.inj (Except.ok.inj h)
    exact ⟨⟨layer, hmade.symm, hlayer⟩, hadd.mp hnext⟩
  · rintro ⟨⟨layer, rfl, hlayer⟩, hnext⟩
    exact ⟨layer, hlayer, Except.bind_eq_ok.mpr ⟨prev', hadd.mpr hnext, rfl⟩⟩

/-- What is made of the layers, with the rate that the loop has come to. -/
theorem getElem?_of_makes {prev : UInt16} {spatials : List SpatialLayerAllocation}
    {made : List (Option MediaLayerBitrate)} (h : Makes svcLayer prev spatials made) {i : Nat}
    {spatial : SpatialLayerAllocation} (hi : spatials[i]? = some spatial) :
    ∃ (layer : MediaLayerBitrate) (lower : UInt16), made[i]? = some (some layer) ∧
      lower.toNat = prev.toNat + lowerCut spatials i ∧
      fillTemporals (fun bitrate => checkedAdd bitrate.toUInt16 lower) spatial = .ok layer := by
  induction h generalizing i with
  | nil => exact nomatch hi
  | @cons prev next item items _ rest hitem _ ih =>
    obtain ⟨⟨layer, rfl, hlayer⟩, _, hnext⟩ := Iff.mp svcLayer_eq_ok hitem
    cases i with
    | zero =>
      rw [List.getElem?_cons_zero, Option.some.injEq] at hi
      exact ⟨layer, prev, rfl, rfl, hi ▸ hlayer⟩
    | succ i =>
      obtain ⟨layer, lower, hmade, hlower, hlayer⟩ := ih hi
      refine ⟨layer, lower, hmade, ?_, hlayer⟩
      rw [lowerCut_succ, hlower, hnext]
      omega

/-- The layers with the wanted rates, over what is below. -/
def svcLayers (base : Nat) : List SpatialLayerAllocation → List (Option MediaLayerBitrate)
  | [] => []
  | spatial :: spatials =>
    some (layerOf (fun bitrate => cap (bitrate.toNat + base)) spatial) ::
      svcLayers (base + lastRate spatial) spatials

theorem getElem?_svcLayers (base : Nat) (spatials : List SpatialLayerAllocation) (i : Nat) :
    (svcLayers base spatials)[i]? = (spatials[i]?).map fun spatial =>
      some (layerOf (fun bitrate => cap (bitrate.toNat + (base + lowerTotal spatials i)))
        spatial) := by
  induction spatials generalizing base i with
  | nil => rfl
  | cons spatial spatials ih =>
    cases i with
    | zero => rfl
    | succ i =>
      rw [svcLayers, List.getElem?_cons_succ, List.getElem?_cons_succ, ih, lowerTotal_succ,
        Nat.add_assoc]

theorem makes_svcLayers {prev : UInt16} {base : Nat} {spatials : List SpatialLayerAllocation}
    (hle : prev.toNat ≤ base) (hsame : base ≤ 65535 → prev.toNat = base)
    (h : ∀ (i : Nat) (spatial : SpatialLayerAllocation), spatials[i]? = some spatial →
      spatial.temporalLayers.length ≤ 3 ∧
        ∀ bitrate ∈ spatial.temporalLayers,
          bitrate.toNat + (base + lowerTotal spatials i) ≤ 65535 ∨
            bitrate.toNat % 65536 + (prev.toNat + lowerCut spatials i) = 65535) :
    Makes svcLayer prev spatials (svcLayers base spatials) := by
  induction spatials generalizing prev base with
  | nil => exact .nil prev
  | cons spatial spatials ih =>
    obtain ⟨hlength, hrates⟩ := h 0 spatial rfl
    have hlast : prev.toNat + lastRate spatial % 65536 < 65536 := by
      rw [lastRate]
      cases hgetLast : spatial.temporalLayers.getLast? with
      | none => exact prev.toNat_lt
      | some bitrate =>
        have hrate := hrates bitrate (List.mem_of_getLast? hgetLast)
        change bitrate.toNat + (base + 0) ≤ 65535 ∨
          bitrate.toNat % 65536 + (prev.toNat + 0) = 65535 at hrate
        rw [Option.getD_some]
        omega
    have hvalue : (UInt16.ofNat (prev.toNat + lastRate spatial % 65536)).toNat =
        prev.toNat + lastRate spatial % 65536 := by
      rw [UInt16.toNat_ofNat', Nat.mod_eq_of_lt hlast]
    refine .cons (Iff.mpr svcLayer_eq_ok ⟨⟨_, rfl, ?_⟩, hlast, hvalue⟩) ?_
    · exact fillTemporals_layerOf hlength fun bitrate hmem =>
        (checkedAdd_eq_cap hle hsame).mpr (hrates bitrate hmem)
    · apply ih
      · rw [hvalue]
        omega
      · rw [hvalue]
        omega
      · intro i spatial' hi
        have hshift := h (i + 1) spatial' hi
        rw [lowerTotal_succ, lowerCut_succ] at hshift
        rw [hvalue]
        simp only [Nat.add_assoc]
        exact hshift

theorem announcedSvc_eq {vla : VideoLayersAllocation} {stream : SimulcastStreamAllocation}
    (h : vla.simulcastStreams.head? = some stream) (i t : Nat) :
    announcedSvc vla i t =
      (stream.spatialLayers[i]?).bind fun spatial =>
        (spatial.temporalLayers[t]?).map fun bitrate =>
          bitrate.toNat + lowerTotal stream.spatialLayers i := by
  simp only [announcedSvc, h, bind, Option.bind]
  cases stream.spatialLayers[i]? with
  | none => rfl
  | some spatial =>
    simp only
    cases spatial.temporalLayers[t]? <;> rfl

theorem extractSvc_iff (vla : VideoLayersAllocation) :
    (∃ out, extractSvc vla = .ok out ∧
      ∀ i < 3, ∀ t < 3, entry out i t = (announcedSvc vla i t).map cap) ↔ SvcFits vla := by
  rw [extractSvc, SvcFits]
  cases hstream : vla.simulcastStreams.head? with
  | none =>
    refine iff_of_true ⟨none, rfl, ?_⟩ (fun _ h => nomatch h)
    intro i hi t ht
    rw [announcedSvc, hstream]
    rfl
  | some stream =>
    simp only [Option.some.injEq, forall_eq']
    constructor
    · rintro ⟨out, hout, hentries⟩
      obtain ⟨layers, hlayers, hsome⟩ := Except.bind_eq_ok.mp hout
      have hsome : out = some layers := (Except.ok.inj hsome).symm
      obtain ⟨made, hmade, hbound, rfl⟩ := fillLoop_eq_ok.mp hlayers
      have hlength : stream.spatialLayers.length ≤ 3 := by
        refine Nat.le_of_not_lt fun hlt => ?_
        obtain ⟨layer, _, hthree, _⟩ := getElem?_of_makes hmade (List.getElem?_eq_getElem hlt)
        have hfalse := hbound 3 layer hthree
        omega
      refine ⟨hlength, fun i spatial hi => ?_⟩
      obtain ⟨layer, lower, hlayer, hlower, hfill⟩ := getElem?_of_makes hmade hi
      have hi3 : i < 3 := Nat.lt_of_lt_of_le (List.getElem?_eq_some_iff.mp hi).1 hlength
      have hwant : ∀ t < 3, layerAt layer t = (spatial.temporalLayers[t]?).map fun bitrate =>
          cap (bitrate.toNat + lowerTotal stream.spatialLayers i) := by
        intro t ht
        have hentry := hentries i hi3 t ht
        rw [hsome, entry, Option.bind_some, layerAt_overlay hi3, hlayer, Option.join_some,
          Option.bind_some, announcedSvc_eq hstream, hi, Option.bind_some, Option.map_map] at hentry
        exact hentry
      obtain ⟨htemporals, hrates⟩ := rates_of_fillTemporals hfill hwant
      obtain ⟨hle, hsame⟩ := lowerCut_le stream.spatialLayers i
      have hzero : lower.toNat = lowerCut stream.spatialLayers i := by
        rw [hlower]
        exact Nat.zero_add _
      refine ⟨htemporals, fun bitrate hmem => ?_⟩
      rw [← hzero] at hle hsame ⊢
      exact (checkedAdd_eq_cap hle hsame).mp (hrates bitrate hmem)
    · rintro ⟨hlength, hfits⟩
      have hmade : Makes svcLayer 0 stream.spatialLayers (svcLayers 0 stream.spatialLayers) := by
        apply makes_svcLayers (Nat.le_refl _) (fun _ => rfl)
        intro i spatial hi
        simp only [UInt16.toNat_zero, Nat.zero_add]
        exact hfits i spatial hi
      have hbound : ∀ (k : Nat) (layer : MediaLayerBitrate),
          (svcLayers 0 stream.spatialLayers)[k]? = some (some layer) → 0 + k < 3 := by
        intro k layer hk
        rw [getElem?_svcLayers] at hk
        obtain ⟨spatial, hspatial, _⟩ := Option.map_eq_some_iff.mp hk
        have hlt := (List.getElem?_eq_some_iff.mp hspatial).1
        omega
      refine ⟨some (overlay noLayers 0 (svcLayers 0 stream.spatialLayers)), ?_, ?_⟩
      · exact Except.bind_eq_ok.mpr ⟨_, fillLoop_eq_ok.mpr ⟨_, hmade, hbound, rfl⟩, rfl⟩
      · intro i hi t ht
        rw [entry, Option.bind_some, layerAt_overlay hi, getElem?_svcLayers, announcedSvc_eq hstream]
        cases stream.spatialLayers[i]? with
        | none => rfl
        | some spatial =>
          rw [Option.map_some, Option.join_some, Option.bind_some, Option.bind_some,
            layerAt_layerOf ht, Option.map_map, Nat.zero_add]
          rfl

/-- The extractions are faithful exactly for allocations that fit. -/
theorem extracts_iff (vla : VideoLayersAllocation) :
    Extracts vla ↔ SimulcastFits vla ∧ SvcFits vla := by
  have hentries : ∀ {out : Option MediaLayersBitrate} {announced : Nat → Nat → Option Nat},
      Faithful out announced ↔
        ∀ i < 3, ∀ t < 3, entry out i t = (announced i t).map cap :=
    ⟨fun h => h.entries, faithful_of_entries⟩
  simp only [Extracts, hentries, extractSimulcast_iff, extractSvc_iff]

/-- Four streams, a rate beyond 16 bits, and two rates whose sum is. -/
theorem not_extracts :
    ¬(∀ vla, Extracts vla) ∧
      extractSimulcast ⟨[⟨[⟨[1]⟩]⟩, ⟨[⟨[1]⟩]⟩, ⟨[⟨[1]⟩]⟩, ⟨[⟨[1]⟩]⟩]⟩ =
        .error ⟨"index out of bounds"⟩ ∧
      (∃ out, extractSimulcast ⟨[⟨[⟨[65536]⟩]⟩]⟩ = .ok out ∧ entry out 0 0 = some 0) ∧
      extractSvc ⟨[⟨[⟨[40000]⟩, ⟨[40000]⟩]⟩]⟩ = .error ⟨"attempt to add with overflow"⟩ := by
  refine ⟨fun h => ?_, rfl, ⟨_, rfl, rfl⟩, rfl⟩
  obtain ⟨out, hout, _⟩ := (h ⟨[⟨[⟨[1]⟩]⟩, ⟨[⟨[1]⟩]⟩, ⟨[⟨[1]⟩]⟩, ⟨[⟨[1]⟩]⟩]⟩).1
  exact nomatch hout

end MediaServer.Transport.LayerBitrates
