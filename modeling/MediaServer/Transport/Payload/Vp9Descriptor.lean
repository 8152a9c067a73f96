import MediaServer.Transport.Payload.Vp9

/-!
# The VP9 payload descriptor

The descriptor as the comments of `transport_webrtc/src/media/vp9.rs` draw it, and its bytes.  The
parser differs from the drawings in two places: it refuses a third `P_DIFF`, and it takes the two
reserved bits next to `G` for `G` as well.  It reads all other descriptors.
-/

namespace MediaServer.Transport.Payload.Vp9

open Fallible

/-! ### The grammar -/

structure Resolution where
  width : UInt16
  height : UInt16

def Resolution.bytes (r : Resolution) : Bytes :=
  [(r.width >>> 8).toUInt8, r.width.toUInt8, (r.height >>> 8).toUInt8, r.height.toUInt8]

/-- `|  T  |U| R |-|-|` and `R` differences. -/
structure Picture where
  tid : Fin 8
  u : Bool
  reserved : Fin 4
  diffs : List UInt8
  hdiffs : diffs.length < 4

def pictureByte (tid : Fin 8) (u : Bool) (r reserved : Fin 4) : UInt8 :=
  UInt8.ofNat (32 * tid + 16 * u.toNat + 4 * r + reserved)

def Picture.bytes (p : Picture) : Bytes :=
  pictureByte p.tid p.u ⟨p.diffs.length, p.hdiffs⟩ p.reserved :: p.diffs

/-- `N_G` and the pictures. -/
def groupBytes (pictures : List Picture) : Bytes :=
  UInt8.ofNat pictures.length :: pictures.flatMap Picture.bytes

/-- `| N_S |Y|G|-|-|-|`, the resolutions and the pictures. -/
structure Scalability where
  ns : Fin 8
  reserved : Fin 8
  resolutions : Option (List Resolution)
  group : Option (List Picture)
  hresolutions : ∀ rs ∈ resolutions, rs.length = ns + 1
  hgroup : ∀ pictures ∈ group, pictures.length < 256

def scalabilityByte (ns : Fin 8) (y g : Bool) (reserved : Fin 8) : UInt8 :=
  UInt8.ofNat (32 * ns + 16 * y.toNat + 8 * g.toNat + reserved)

def Scalability.bytes (s : Scalability) : Bytes :=
  scalabilityByte s.ns s.resolutions.isSome s.group.isSome s.reserved ::
    (s.resolutions.elim [] (List.flatMap Resolution.bytes) ++ s.group.elim [] groupBytes)

/-- `|  T  |U|  S  |D|`, and `tl0picidx` in non-flexible mode. -/
structure LayerIndices where
  tid : Fin 8
  u : Bool
  sid : Fin 5
  d : Bool
  tl0picidx : Option UInt8

def layerByte (tid : Fin 8) (u : Bool) (sid : Fin 5) (d : Bool) : UInt8 :=
  UInt8.ofNat (32 * tid + 16 * u.toNat + 2 * sid + d.toNat)

def LayerIndices.bytes (l : LayerIndices) : Bytes :=
  layerByte l.tid l.u l.sid l.d :: l.tl0picidx.toList

/-- `| P_DIFF      |N|`: all but the last have `N`. -/
def refBytes : List (Fin 128) → Bytes
  | [] => []
  | [diff] => [UInt8.ofNat (2 * diff)]
  | diff :: diffs => UInt8.ofNat (2 * diff + 1) :: refBytes diffs

structure Descriptor where
  pictureId : Option PictureId
  p : Bool
  f : Bool
  b : Bool
  e : Bool
  z : Bool
  layers : Option LayerIndices
  refs : List (Fin 128)
  ss : Option Scalability
  hlayers : ∀ l ∈ layers, l.tl0picidx.isSome = !f
  hrefs : if f && p then 1 ≤ refs.length ∧ refs.length ≤ 3 else refs = []

def firstByte (i p l f b e v z : Bool) : UInt8 :=
  UInt8.ofNat (128 * i.toNat + 64 * p.toNat + 32 * l.toNat + 16 * f.toNat + 8 * b.toNat +
    4 * e.toNat + 2 * v.toNat + z.toNat)

namespace Descriptor

def first (d : Descriptor) : UInt8 :=
  firstByte d.pictureId.isSome d.p d.layers.isSome d.f d.b d.e d.ss.isSome d.z

def bytes (d : Descriptor) : Bytes :=
  d.first :: (idBytes d.pictureId ++ (d.layers.elim [] LayerIndices.bytes ++
    (refBytes d.refs ++ d.ss.elim [] Scalability.bytes)))

/-- The first packet of a key frame is not predicted, neither from another picture nor from
    another layer. -/
def key (d : Descriptor) : Bool :=
  !d.p && d.b && d.layers.all fun l => l.sid = 0 || !l.d

/-- What the descriptor says about its layer; without layer indices there is none to speak of. -/
def svc (d : Descriptor) : Option Vp9Svc :=
  d.layers.map fun l =>
    { spatial := UInt8.ofNat l.sid
      temporal := UInt8.ofNat l.tid
      beginFrame := d.b
      endFrame := d.e
      spatialLayers := d.ss.map fun s => UInt8.ofNat (s.ns + 1)
      pictureId := d.pictureId.map PictureId.value
      switchingPoint := l.u
      predictedFrame := d.p }

end Descriptor

/-! ### Single bytes -/

theorem toNat_and_seven (b : UInt8) : (b &&& 0x7).toNat = b.toNat % 8 := by
  rw [UInt8.toNat_and]
  exact Nat.and_two_pow_sub_one_eq_mod _ 3

theorem toNat_and_three (b : UInt8) : (b &&& 0x3).toNat = b.toNat % 4 := by
  rw [UInt8.toNat_and]
  exact Nat.and_two_pow_sub_one_eq_mod _ 2

theorem toNat_shiftRight_eq {b s : UInt8} {k : Nat} (hs : s.toNat = k) (hk : k < 8) :
    (b >>> s).toNat = b.toNat / 2 ^ k := by
  rw [UInt8.toNat_shiftRight, hs, Nat.mod_eq_of_lt hk, Nat.shiftRight_eq_div_pow]

theorem required_firstByte (i p l f b e v z : Bool) :
    required (firstByte i p l f b e v z) =
      { i := i, p := p, l := l, f := f, b := b, e := e, v := v, z := z } := by
  have hi := i.toNat_le
  have hp := p.toNat_le
  have hl := l.toNat_le
  have hf := f.toNat_le
  have hb := b.toNat_le
  have he := e.toNat_le
  have hv := v.toNat_le
  have hz := z.toNat_le
  have hbyte : (firstByte i p l f b e v z).toNat = 128 * i.toNat + 64 * p.toNat + 32 * l.toNat +
      16 * f.toNat + 8 * b.toNat + 4 * e.toNat + 2 * v.toNat + z.toNat := by
    rw [firstByte, UInt8.toNat_ofNat']
    omega
  rw [required]
  congr 1
  · exact decide_and_ne_zero (k := 7) rfl (by omega)
  · exact decide_and_ne_zero (k := 6) rfl (by omega)
  · exact decide_and_ne_zero (k := 5) rfl (by omega)
  · exact decide_and_ne_zero (k := 4) rfl (by omega)
  · exact decide_and_ne_zero (k := 3) rfl (by omega)
  · exact decide_and_ne_zero (k := 2) rfl (by omega)
  · exact decide_and_ne_zero (k := 1) rfl (by omega)
  · exact decide_and_ne_zero (k := 0) rfl (by omega)

theorem layerByte_fields (tid : Fin 8) (u : Bool) (sid : Fin 5) (d : Bool) :
    layerByte tid u sid d >>> 5 = UInt8.ofNat tid ∧
      decide ((layerByte tid u sid d &&& 0x10) ≠ 0) = u ∧
      (layerByte tid u sid d >>> 1) &&& 0x7 = UInt8.ofNat sid ∧
      decide ((layerByte tid u sid d &&& 0x01) ≠ 0) = d ∧
      ¬maxSpatialLayers ≤ UInt8.ofNat sid := by
  have htid := tid.isLt
  have hsid := sid.isLt
  have hu := u.toNat_le
  have hd := d.toNat_le
  have hbyte : (layerByte tid u sid d).toNat = 32 * tid + 16 * u.toNat + 2 * sid + d.toNat := by
    rw [layerByte, UInt8.toNat_ofNat']
    omega
  refine ⟨UInt8.toNat_inj.mp ?_, decide_and_ne_zero (k := 4) rfl (by omega), UInt8.toNat_inj.mp ?_,
    decide_and_ne_zero (k := 0) rfl (by omega), ?_⟩
  · rw [toNat_shiftRight_eq (k := 5) rfl (by decide), UInt8.toNat_ofNat']
    omega
  · rw [toNat_and_seven, toNat_shiftRight_eq (k := 1) rfl (by decide), UInt8.toNat_ofNat']
    omega
  · rw [UInt8.le_iff_toNat_le, UInt8.toNat_ofNat']
    change ¬5 ≤ _
    omega

theorem refByte_last (diff : Fin 128) : ¬(UInt8.ofNat (2 * diff) &&& 0x1) ≠ 0 := by
  have hdiff := diff.isLt
  rw [and_ne_zero (k := 0) rfl, UInt8.toNat_ofNat']
  omega

theorem refByte_next (diff : Fin 128) : (UInt8.ofNat (2 * diff + 1) &&& 0x1) ≠ 0 := by
  have hdiff := diff.isLt
  rw [and_ne_zero (k := 0) rfl, UInt8.toNat_ofNat']
  omega

theorem scalabilityByte_fields (ns : Fin 8) (y g : Bool) (reserved : Fin 8) :
    scalabilityByte ns y g reserved >>> 5 = UInt8.ofNat ns ∧
      decide ((scalabilityByte ns y g reserved &&& 0x10) ≠ 0) = y ∧
      decide (((scalabilityByte ns y g reserved >>> 1) &&& 0x7) ≠ 0) =
        (g || decide (2 ≤ reserved.val)) := by
  have hns := ns.isLt
  have hy := y.toNat_le
  have hreserved := reserved.isLt
  have hbyte : (scalabilityByte ns y g reserved).toNat =
      32 * ns + 16 * y.toNat + 8 * g.toNat + reserved := by
    have hg := g.toNat_le
    rw [scalabilityByte, UInt8.toNat_ofNat']
    omega
  have hbits : ((scalabilityByte ns y g reserved >>> 1) &&& 0x7).toNat =
      4 * g.toNat + reserved / 2 := by
    have hg := g.toNat_le
    rw [toNat_and_seven, toNat_shiftRight_eq (k := 1) rfl (by decide), hbyte]
    omega
  refine ⟨UInt8.toNat_inj.mp ?_, ?_, ?_⟩
  · have hg := g.toNat_le
    rw [toNat_shiftRight_eq (k := 5) rfl (by decide), UInt8.toNat_ofNat']
    omega
  · have hg := g.toNat_le
    exact decide_and_ne_zero (k := 4) rfl (by omega)
  · rw [Bool.eq_iff_iff, decide_eq_true_eq, Bool.or_eq_true, decide_eq_true_eq]
    refine (not_congr UInt8.toNat_inj.symm).trans ?_
    rw [hbits, UInt8.toNat_zero]
    cases g with
    | false =>
      rw [Bool.toNat_false]
      refine ⟨fun h => Or.inr (by omega), ?_⟩
      rintro (h | h)
      · cases h
      · omega
    | true => exact iff_of_true (by rw [Bool.toNat_true]; omega) (Or.inl rfl)

theorem pictureByte_count (tid : Fin 8) (u : Bool) (r reserved : Fin 4) :
    ((pictureByte tid u r reserved >>> 2) &&& 0x3).toNat = r := by
  have hr := r.isLt
  have hreserved := reserved.isLt
  have hu := u.toNat_le
  rw [toNat_and_three, toNat_shiftRight_eq (k := 2) rfl (by decide), pictureByte,
    UInt8.toNat_ofNat']
  omega

/-- Every byte describes a picture. -/
theorem exists_pictureByte (n : Fin 256) : ∃ (tid : Fin 8) (u : Bool) (r reserved : Fin 4),
    UInt8.ofNat n = pictureByte tid u r reserved := by
  refine ⟨⟨n / 32, Nat.div_lt_of_lt_mul n.isLt⟩, decide (n.val / 16 % 2 = 1),
    ⟨n / 4 % 4, Nat.mod_lt _ (by decide)⟩, ⟨n % 4, Nat.mod_lt _ (by decide)⟩, ?_⟩
  rw [pictureByte]
  apply congrArg UInt8.ofNat
  dsimp only
  rcases Nat.mod_two_eq_zero_or_one (n.val / 16) with hzero | hone
  · rw [decide_eq_false (by omega), Bool.toNat_false]
    omega
  · rw [decide_eq_true hone, Bool.toNat_true]
    omega

/-! ### Groups of pictures -/

/-- Nothing that the parser returns differs. -/
def SameResult (h h' : Vp9Header) : Prop := isKey h' = isKey h ∧ svcOf h' = svcOf h

theorem SameResult.refl (h : Vp9Header) : SameResult h h := ⟨rfl, rfl⟩

section

variable {done left : Bytes}

/-- So many pictures stand in front of the bytes. -/
def HasPictures (count : Nat) (left : Bytes) : Prop :=
  ∃ pictures : List Picture, pictures.length = count ∧
    pictures.flatMap Picture.bytes <+: left

theorem hasPictures_cons {count : Nat} {b : UInt8} :
    HasPictures (count + 1) (b :: left) ↔
      ((b >>> 2) &&& 0x3).toNat ≤ left.length ∧
        HasPictures count (left.drop ((b >>> 2) &&& 0x3).toNat) := by
  constructor
  · rintro ⟨pictures, hlength, hprefix⟩
    match pictures, hlength with
    | picture :: pictures, hlength =>
      rw [List.flatMap_cons, Picture.bytes, List.cons_append, List.cons_prefix_cons] at hprefix
      obtain ⟨hb, after, hafter⟩ := hprefix
      have hcount : ((b >>> 2) &&& 0x3).toNat = picture.diffs.length := by
        rw [← hb]
        exact pictureByte_count _ _ _ _
      rw [hcount, ← hafter, List.append_assoc]
      refine ⟨by rw [List.length_append]; omega, pictures, Nat.succ.inj hlength, ?_⟩
      rw [List.drop_left]
      exact List.prefix_append _ _
  · rintro ⟨hle, pictures, hlength, hprefix⟩
    obtain ⟨tid, u, r, reserved, hbyte⟩ := exists_pictureByte ⟨b.toNat, b.toNat_lt⟩
    rw [show UInt8.ofNat (⟨b.toNat, b.toNat_lt⟩ : Fin 256) = b from UInt8.ofNat_toNat] at hbyte
    have hcount : ((b >>> 2) &&& 0x3).toNat = r := by
      rw [hbyte]
      exact pictureByte_count _ _ _ _
    rw [hcount] at hle hprefix
    have htake : (left.take r).length = r := List.length_take_of_le hle
    let picture : Picture := ⟨tid, u, reserved, left.take r, by rw [htake]; exact r.isLt⟩
    refine ⟨picture :: pictures, by rw [List.length_cons, hlength], ?_⟩
    have hr : (⟨(left.take r).length, by rw [htake]; exact r.isLt⟩ : Fin 4) = r := Fin.ext htake
    have hfirst : picture.bytes = b :: left.take r := by
      rw [hbyte, Picture.bytes]
      exact congrArg (fun r => pictureByte tid u r reserved :: left.take _) hr
    rw [List.flatMap_cons, hfirst, List.cons_append, List.cons_prefix_cons]
    refine ⟨rfl, ?_⟩
    obtain ⟨after, hafter⟩ := hprefix
    exact ⟨after, by rw [List.append_assoc, hafter, List.take_append_drop]⟩

/-- The loop returns exactly where the pictures are. -/
theorem wp_readPictures {count : Nat} {h : Vp9Header} {i : Nat} (hi : h.pgpdiff.length = i) :
    wp (readPictures i count h) (fun h' _ => SameResult h h' ∧ HasPictures count left)
      (fun _ _ => ¬HasPictures count left) (past done left) := by
  induction count generalizing h i done left with
  | zero => exact ⟨.refl h, [], rfl, List.nil_prefix⟩
  | succ count ih =>
    rw [readPictures, wp_bind]
    match left with
    | [] =>
      rw [wp_checkShort_nil]
      rintro ⟨pictures, hlength, hprefix⟩
      match pictures, hlength with
      | picture :: pictures, _ => exact nomatch List.prefix_nil.mp hprefix
    | b :: left =>
      have hi' : i < (h.pgpdiff ++ [[]]).length := by
        rw [List.length_append, List.length_singleton]
        omega
      rw [wp_checkShort_cons, wp_bind, wp_getU8_cons, wp_bind, wp_remaining, hasPictures_cons]
      by_cases hshort : left.length * 8 < ((b >>> 2) &&& 0x3).toNat
      · rw [if_pos hshort, wp_throw]
        rintro ⟨hle, _⟩
        omega
      rw [if_neg hshort, wp_bind]
      by_cases henough : ((b >>> 2) &&& 0x3).toNat ≤ left.length
      · apply wp_readDiffs_of_le hi' henough
        intro diffs done' hdiffs
        rw [List.length_append, List.length_singleton, hi] at hdiffs
        refine wp_mono (ih hdiffs) ?_ ?_
        · rintro h' - ⟨hsame, hpictures⟩
          exact ⟨hsame, henough, hpictures⟩
        · rintro e - hnone ⟨_, hpictures⟩
          exact hnone hpictures
      · exact wp_readDiffs_of_lt hi' (Nat.lt_of_not_le henough) fun _ h => henough h.1

/-- A complete group stands in front of the bytes. -/
def HasGroup (left : Bytes) : Prop :=
  ∃ pictures : List Picture, pictures.length < 256 ∧ groupBytes pictures <+: left

theorem hasGroup_cons {ng : UInt8} : HasGroup (ng :: left) ↔ HasPictures ng.toNat left := by
  constructor
  · rintro ⟨pictures, hlt, hprefix⟩
    rw [groupBytes, List.cons_prefix_cons] at hprefix
    refine ⟨pictures, ?_, hprefix.2⟩
    rw [← hprefix.1, UInt8.toNat_ofNat', Nat.mod_eq_of_lt hlt]
  · rintro ⟨pictures, hlength, hprefix⟩
    refine ⟨pictures, by rw [hlength]; exact ng.toNat_lt, ?_⟩
    rw [groupBytes, List.cons_prefix_cons, hlength]
    exact ⟨UInt8.ofNat_toNat, hprefix⟩

theorem wp_readGroup {g : Bool} {h : Vp9Header} (hg : h.g = g) (hng : h.ng = 0)
    (hpictures : h.pgpdiff = []) :
    wp (whenSet h.g readGroupSize h >>= fun h => readPictures 0 h.ng.toNat h)
      (fun h' _ => SameResult h h' ∧ (g → HasGroup left)) (fun _ _ => ¬(g → HasGroup left))
      (past done left) := by
  rw [wp_bind, hg]
  cases g with
  | false =>
    have hcount : (0 : UInt8).toNat = 0 := rfl
    rw [whenSet, if_neg Bool.false_ne_true, wp_pure, hng, hcount]
    exact ⟨.refl h, fun hg => by cases hg⟩
  | true =>
    rw [whenSet, if_pos rfl, readGroupSize, wp_bind]
    cases left with
    | nil =>
      rw [wp_checkShort_nil]
      intro hgroup
      obtain ⟨pictures, _, hprefix⟩ := hgroup rfl
      cases List.prefix_nil.mp hprefix
    | cons ng left =>
      rw [wp_checkShort_cons, wp_bind, wp_getU8_cons, wp_pure, hasGroup_cons]
      refine wp_mono (wp_readPictures (by rw [hpictures]; rfl)) ?_ ?_
      · rintro h' - ⟨hsame, hpictures⟩
        exact ⟨hsame, fun _ => hpictures⟩
      · exact fun _ _ hnone hpictures => hnone (hpictures rfl)

/-! ### The scalability structure -/

/-- The parser finds a group where the structure says that there is none, or it finds none. -/
def Scalability.Read (s : Scalability) (rest : Bytes) : Prop :=
  s.group.isSome ∨ s.reserved.val < 2 ∨ HasGroup rest

theorem Scalability.read_iff (s : Scalability) (rest : Bytes) :
    ((s.group.isSome || decide (2 ≤ s.reserved.val)) →
      HasGroup (s.group.elim [] groupBytes ++ rest)) ↔ s.Read rest := by
  rw [Scalability.Read]
  cases hgroup : s.group with
  | some pictures =>
    refine iff_of_true (fun _ => ?_) (Or.inl rfl)
    exact ⟨pictures, s.hgroup pictures hgroup, List.prefix_append _ _⟩
  | none =>
    simp only [Option.isSome_none, Bool.false_or, decide_eq_true_eq, Option.elim_none,
      List.nil_append, Bool.false_eq_true, false_or]
    constructor
    · intro h
      rcases Nat.lt_or_ge s.reserved.val 2 with hlt | hge
      · exact Or.inl hlt
      · exact Or.inr (h hge)
    · rintro (hlt | hrest) hge
      · exact absurd hge (Nat.not_le_of_lt hlt)
      · exact hrest

theorem length_resolutions (rs : List Resolution) :
    (rs.flatMap Resolution.bytes).length = 4 * rs.length := by
  induction rs with
  | nil => rfl
  | cons r rs ih =>
    rw [List.flatMap_cons, List.length_append, ih, List.length_cons]
    simp only [Resolution.bytes, List.length_cons, List.length_nil]
    omega

theorem wp_parseSsdata (s : Scalability) {rest : Bytes} {h : Vp9Header}
    (hpictures : h.pgpdiff = []) :
    wp (parseSsdata h)
      (fun h' _ => SameResult { h with ns := UInt8.ofNat s.ns } h' ∧ s.Read rest)
      (fun _ _ => ¬s.Read rest) (past done (s.bytes ++ rest)) := by
  obtain ⟨hns, hy, hg⟩ :=
    scalabilityByte_fields s.ns s.resolutions.isSome s.group.isSome s.reserved
  have hcount : (UInt8.ofNat s.ns + 1).toNat = s.ns + 1 := by
    have hlt := s.ns.isLt
    rw [UInt8.toNat_add, UInt8.toNat_ofNat']
    change (_ % 256 + 1) % 256 = _
    omega
  rw [← s.read_iff]
  rw [Scalability.bytes, List.cons_append, List.append_assoc, parseSsdata, wp_bind,
    wp_checkShort_cons, wp_bind, wp_getU8_cons, wp_bind]
  rw [hns, hy, hg]
  cases hresolutions : s.resolutions with
  | none =>
    rw [whenSet, if_neg (by simp), wp_pure]
    exact wp_readGroup rfl rfl hpictures
  | some rs =>
    have hlength : (rs.flatMap Resolution.bytes).length = 4 * (s.ns + 1) := by
      rw [length_resolutions, s.hresolutions rs hresolutions]
    have hpresent : (some rs).isSome = true := rfl
    rw [Option.elim_some, hpresent, whenSet, if_pos rfl, readSizes, wp_bind, wp_remaining]
    dsimp only
    rw [hcount, if_neg (by rw [List.length_append, hlength]; omega)]
    apply wp_readResolutions_of_le (by simp) (by simp) (by rw [List.length_append, hlength]; omega)
    intro width height done'
    rw [← hlength, List.drop_left]
    exact wp_readGroup rfl rfl hpictures

end

/-! ### Layer indices and references -/

section

variable {done left : Bytes} {E : Fault → BitReader → Prop} {Q : Vp9Header → BitReader → Prop}

/-- The header with the layer indices. -/
def layered (h : Vp9Header) (l : LayerIndices) : Vp9Header :=
  { h with
    tid := UInt8.ofNat l.tid
    u := l.u
    sid := UInt8.ofNat l.sid
    d := l.d
    tl0picidx := l.tl0picidx.getD h.tl0picidx }

theorem wp_parseLayerInfo {h : Vp9Header} (l : LayerIndices) (hl : l.tl0picidx.isSome = !h.f)
    (hQ : ∀ done', Q (layered h l) (past done' left)) :
    wp (parseLayerInfo h) Q E (past done (l.bytes ++ left)) := by
  obtain ⟨htid, hu, hsid, hd, hspatial⟩ := layerByte_fields l.tid l.u l.sid l.d
  rw [LayerIndices.bytes, List.cons_append, parseLayerInfo, wp_bind, parseLayerInfoCommon, wp_bind,
    wp_checkShort_cons, wp_bind, wp_getU8_cons]
  dsimp only
  rw [htid, hu, hsid, hd, if_neg hspatial, wp_pure]
  cases htl0 : l.tl0picidx with
  | none =>
    have hf : h.f = true := by
      rw [htl0] at hl
      simpa using hl
    have hQ := hQ (done ++ [layerByte l.tid l.u l.sid l.d])
    rw [layered, htl0] at hQ
    rw [if_pos hf, wp_pure]
    exact hQ
  | some b =>
    have hf : ¬h.f = true := by
      rw [htl0] at hl
      simpa using hl
    have hQ := hQ (done ++ [layerByte l.tid l.u l.sid l.d] ++ [b])
    rw [layered, htl0] at hQ
    rw [if_neg hf, parseLayerInfoNonFlexibleMode, wp_bind, Option.toList_some, List.singleton_append,
      wp_checkShort_cons, wp_bind, wp_getU8_cons, wp_pure]
    exact hQ

theorem wp_refLoop_succ {h : Vp9Header} {rounds : Nat} {b : UInt8} :
    wp (refLoop (rounds + 1) h) Q E (past done (b :: left)) ↔
      wp (if maxVp9RefPics ≤ h.pdiff.length + 1 then throw .tooManyPDiff
        else if (b &&& 0x1) ≠ 0 then refLoop rounds { h with pdiff := h.pdiff ++ [b >>> 1] }
        else pure { h with pdiff := h.pdiff ++ [b >>> 1] }) Q E (past (done ++ [b]) left) := by
  rw [refLoop, wp_bind, wp_checkShort_cons, wp_bind, wp_getU8_cons]
  dsimp only
  rw [List.length_append, List.length_singleton]

/-- A reference that is not the last one, where a third may not be. -/
theorem wp_refLoop_next {h : Vp9Header} {rounds : Nat} (diff : Fin 128)
    (hlength : h.pdiff.length < 2) :
    wp (refLoop (rounds + 1) h) Q E (past done (UInt8.ofNat (2 * diff + 1) :: left)) ↔
      wp (refLoop rounds { h with pdiff := h.pdiff ++ [UInt8.ofNat (2 * diff + 1) >>> 1] }) Q E
        (past (done ++ [UInt8.ofNat (2 * diff + 1)]) left) := by
  have hmax : maxVp9RefPics = 3 := rfl
  rw [wp_refLoop_succ, if_neg (by omega), if_pos (refByte_next diff)]

theorem wp_refLoop_last {h : Vp9Header} {rounds : Nat} (diff : Fin 128)
    (hlength : h.pdiff.length < 2) :
    wp (refLoop (rounds + 1) h) Q E (past done (UInt8.ofNat (2 * diff) :: left)) ↔
      Q { h with pdiff := h.pdiff ++ [UInt8.ofNat (2 * diff) >>> 1] }
        (past (done ++ [UInt8.ofNat (2 * diff)]) left) := by
  have hmax : maxVp9RefPics = 3 := rfl
  rw [wp_refLoop_succ, if_neg (by omega), if_neg (refByte_last diff), wp_pure]

theorem wp_parseRefIndices {h : Vp9Header} (hempty : h.pdiff = []) {refs : List (Fin 128)}
    (hpos : 1 ≤ refs.length) (hle : refs.length ≤ 3)
    (hQ : refs.length ≤ 2 → ∀ (diffs : List UInt8) (done' : Bytes),
      Q { h with pdiff := diffs } (past done' left))
    (hE : 2 < refs.length → ∀ e s, E e s) :
    wp (parseRefIndices h) Q E (past done (refBytes refs ++ left)) := by
  have hzero : h.pdiff.length = 0 := by rw [hempty]; rfl
  match refs, hpos, hle with
  | [first], _, _ =>
    refine (wp_refLoop_last first (by omega)).mpr ?_
    exact hQ (by simp) _ _
  | [first, second], _, _ =>
    refine (wp_refLoop_next first (by omega)).mpr ?_
    refine (wp_refLoop_last second (by simp [hempty])).mpr ?_
    exact hQ (by simp) _ _
  | [first, second, third], _, _ =>
    refine (wp_refLoop_next first (by omega)).mpr ?_
    refine (wp_refLoop_next second (by simp [hempty])).mpr ?_
    refine wp_refLoop_succ.mpr ?_
    rw [if_pos (by simp [hempty, maxVp9RefPics]), wp_throw]
    exact hE (by simp) _ _

end

/-! ### Whole descriptors -/

/-- The descriptors that the parser reads, by what they say and what follows them. -/
def Descriptor.Read (d : Descriptor) (rest : Bytes) : Prop :=
  d.refs.length ≤ 2 ∧ ∀ s ∈ d.ss, s.Read rest

namespace Descriptor

/-- The header behind the picture id. -/
def header (d : Descriptor) : Vp9Header :=
  { i := d.pictureId.isSome
    p := d.p
    l := d.layers.isSome
    f := d.f
    b := d.b
    e := d.e
    v := d.ss.isSome
    z := d.z
    pictureId := d.pictureId.elim 0 PictureId.value }

theorem headed_first (d : Descriptor) : headed d.first d.pictureId = d.header := by
  rw [headed, first, required_firstByte]
  rfl

/-- The header behind the layer indices. -/
def layered (d : Descriptor) : Vp9Header := d.layers.elim d.header (Vp9.layered d.header)

theorem layered_flags (d : Descriptor) :
    d.layered.f = d.f ∧ d.layered.p = d.p ∧ d.layered.v = d.ss.isSome ∧ d.layered.pdiff = [] ∧
      d.layered.pgpdiff = [] := by
  rw [layered]
  cases d.layers <;> exact ⟨rfl, rfl, rfl, rfl, rfl⟩

/-- With the number of spatial layers the header says what the descriptor does. -/
theorem result_layered (d : Descriptor) (ns : UInt8)
    (hns : ∀ s ∈ d.ss, ns = UInt8.ofNat s.ns) (diffs : List UInt8) :
    isKey { d.layered with pdiff := diffs, ns := ns } = d.key ∧
      svcOf { d.layered with pdiff := diffs, ns := ns } = d.svc := by
  have hspatial : (if d.ss.isSome then some (ns + 1) else none) =
      d.ss.map fun s => UInt8.ofNat (s.ns + 1) := by
    cases hss : d.ss with
    | none => rfl
    | some s =>
      rw [hns s hss, Option.isSome_some, if_pos rfl, Option.map_some]
      exact congrArg some (UInt8.ofNat_add s.ns 1).symm
  have hpictureId : (if d.pictureId.isSome then some (d.pictureId.elim 0 PictureId.value) else none) =
      d.pictureId.map PictureId.value := by
    cases d.pictureId <;> rfl
  have hsid : ∀ sid : Fin 5, UInt8.ofNat sid = 0 ↔ sid = 0 := by decide
  rw [layered, key, svc]
  cases hlayers : d.layers with
  | none =>
    constructor
    · simp [isKey, header]
    · simp [svcOf, header, hlayers]
  | some l =>
    constructor
    · simp [isKey, header, Vp9.layered, hsid]
    · simp only [svcOf, Option.elim_some, Vp9.layered, header, hlayers, Option.isSome_some, if_true,
        hspatial, hpictureId, Option.map_some]

/-- The parser on a descriptor. -/
theorem wp_parseLayers (d : Descriptor) (rest done : Bytes) :
    wp (parseLayers d.header)
      (fun found _ => found = (d.key, d.svc) ∧ d.Read rest) (fun _ _ => ¬d.Read rest)
      (past done (d.layers.elim [] LayerIndices.bytes ++
        (refBytes d.refs ++ (d.ss.elim [] Scalability.bytes ++ rest)))) := by
  obtain ⟨hf, hp, hv, hpdiff, hpictures⟩ := d.layered_flags
  -- Each part, from the last one on.
  have hss : ∀ (diffs : List UInt8) (done : Bytes), d.refs.length ≤ 2 →
      wp (whenSet d.layered.v parseSsdata { d.layered with pdiff := diffs } >>= fun h =>
          pure (isKey h, svcOf h))
        (fun found _ => found = (d.key, d.svc) ∧ d.Read rest) (fun _ _ => ¬d.Read rest)
        (past done (d.ss.elim [] Scalability.bytes ++ rest)) := by
    intro diffs done hrefs
    rw [wp_bind, hv]
    cases hss : d.ss with
    | none =>
      obtain ⟨hkey, hsvc⟩ := d.result_layered d.layered.ns (by simp [hss]) diffs
      rw [Option.isSome_none, whenSet, if_neg Bool.false_ne_true, wp_pure, wp_pure]
      exact ⟨Prod.ext hkey hsvc, hrefs, by simp [hss]⟩
    | some s =>
      obtain ⟨hkey, hsvc⟩ := d.result_layered (UInt8.ofNat s.ns) (by simp [hss]) diffs
      rw [Option.isSome_some, whenSet, if_pos rfl]
      refine wp_mono (wp_parseSsdata s hpictures) ?_ ?_
      · rintro h - ⟨hsame, hread⟩
        refine ⟨Prod.ext (hsame.1.trans hkey) (hsame.2.trans hsvc), hrefs, ?_⟩
        rintro s' hs'
        rw [hss, Option.mem_some_iff] at hs'
        rw [← hs']
        exact hread
      · rintro e - hunread hread
        exact hunread (hread.2 s hss)
  have hrefs : ∀ done : Bytes,
      wp (whenSet (d.layered.f && d.layered.p) parseRefIndices d.layered >>= fun h =>
          whenSet h.v parseSsdata h >>= fun h => pure (isKey h, svcOf h))
        (fun found _ => found = (d.key, d.svc) ∧ d.Read rest) (fun _ _ => ¬d.Read rest)
        (past done (refBytes d.refs ++ (d.ss.elim [] Scalability.bytes ++ rest))) := by
    intro done
    rw [wp_bind, hf, hp]
    have hnumber := d.hrefs
    by_cases hpresent : (d.f && d.p) = true
    · rw [if_pos hpresent] at hnumber
      rw [hpresent, whenSet, if_pos rfl]
      apply wp_parseRefIndices hpdiff hnumber.1 hnumber.2
      · exact fun hle diffs done' => hss diffs done' hle
      · exact fun hlt _ _ hread => absurd hread.1 (Nat.not_le_of_lt hlt)
    · rw [if_neg hpresent] at hnumber
      rw [whenSet, if_neg hpresent, wp_pure, hnumber]
      exact hss d.layered.pdiff done (by rw [hnumber]; decide)
  rw [parseLayers, wp_bind]
  cases hlayers : d.layers with
  | none =>
    have hl : d.header.l = false := by rw [header, hlayers]; rfl
    have hsame : d.layered = d.header := by rw [layered, hlayers]; rfl
    rw [hl, whenSet, if_neg Bool.false_ne_true, wp_pure, ← hsame]
    exact hrefs done
  | some l =>
    have hl : d.header.l = true := by rw [header, hlayers]; rfl
    have hsame : d.layered = Vp9.layered d.header l := by rw [layered, hlayers]; rfl
    rw [hl, whenSet, if_pos rfl, Option.elim_some]
    apply wp_parseLayerInfo l (d.hlayers l hlayers)
    intro done'
    rw [← hsame]
    exact hrefs done'

end Descriptor

/-- The parser reads a descriptor exactly if it has at most two references and no reserved bit is
    taken for `G`, and then it returns what the descriptor says. -/
theorem parseRtp_bytes_iff (d : Descriptor) (rest : Bytes) (profile : Vp9Profile)
    (rotation : Option MediaOrientation) :
    parseRtp (d.bytes ++ rest) profile rotation = .ok (some (.vp9 d.key profile d.svc rotation)) ↔
      d.Read rest := by
  have hbytes : d.bytes ++ rest = d.first :: (idBytes d.pictureId ++
      (d.layers.elim [] LayerIndices.bytes ++
        (refBytes d.refs ++ (d.ss.elim [] Scalability.bytes ++ rest)))) := by
    simp only [Descriptor.bytes, List.cons_append, List.append_assoc]
  have hpresent : d.pictureId.isSome ↔ (required d.first).i := by
    rw [Descriptor.first, required_firstByte]
  have hparse := d.wp_parseLayers rest (d.first :: idBytes d.pictureId)
  rw [hbytes, parseRtp_cons hpresent, d.headed_first]
  constructor
  · intro h
    obtain ⟨found, s, hrun, -⟩ := ok_of_wp h
    rw [wp, hrun] at hparse
    exact hparse.2
  · intro hread
    exact wp_mono hparse (fun _ _ h => h.1) (fun _ _ hunread => absurd hread hunread)

/-- A flexible-mode packet with three references. -/
def threeRefs : Descriptor where
  pictureId := none
  p := true
  f := true
  b := true
  e := true
  z := false
  layers := none
  refs := [1, 2, 3]
  ss := none
  hlayers := by simp
  hrefs := by decide

/-- A scalability structure without a group whose reserved bits are set. -/
def reservedSet : Descriptor where
  pictureId := none
  p := false
  f := true
  b := true
  e := true
  z := false
  layers := none
  refs := []
  ss := some ⟨0, 7, none, none, by simp, by simp⟩
  hlayers := by simp
  hrefs := by decide

theorem not_parseRtp_bytes :
    ¬(∀ (d : Descriptor) (rest : Bytes) (profile : Vp9Profile) (rotation : Option MediaOrientation),
        parseRtp (d.bytes ++ rest) profile rotation =
          .ok (some (.vp9 d.key profile d.svc rotation))) ∧
      parseRtp (threeRefs.bytes ++ []) .p0 none = .ok none ∧
      parseRtp (reservedSet.bytes ++ []) .p0 none = .ok none := by
  refine ⟨fun h => ?_, rfl, rfl⟩
  have hthree := h threeRefs [] .p0 none
  exact nomatch hthree

end MediaServer.Transport.Payload.Vp9
