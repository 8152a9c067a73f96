import MediaServer.Transport.Payload.PictureId

/-!
# VP9 payloads

`vp9::parse_rtp` and `vp9::rewrite_rtp` (`transport_webrtc/src/media/vp9.rs`).  The parser stops
with an error where it finds that the payload is too short.  In the scalability structure it asks
for bytes, while the reader answers in bits: with some of the bytes left the check passes and the
reader panics later on.
-/

namespace MediaServer.Transport.Payload

open Fallible

structure Vp9Header where
  i : Bool := false
  p : Bool := false
  l : Bool := false
  f : Bool := false
  b : Bool := false
  e : Bool := false
  v : Bool := false
  z : Bool := false
  pictureId : UInt16 := 0
  tid : UInt8 := 0
  u : Bool := false
  sid : UInt8 := 0
  d : Bool := false
  pdiff : List UInt8 := []
  tl0picidx : UInt8 := 0
  ns : UInt8 := 0
  y : Bool := false
  g : Bool := false
  ng : UInt8 := 0
  width : List UInt16 := []
  height : List UInt16 := []
  pgtid : List UInt8 := []
  pgu : List Bool := []
  pgpdiff : List (List UInt8) := []
deriving DecidableEq

namespace Vp9

def maxSpatialLayers : UInt8 := 5
def maxVp9RefPics : Nat := 3

/-! ### The parser -/

def required (b : UInt8) : Vp9Header :=
  { i := (b &&& 0x80) ≠ 0
    p := (b &&& 0x40) ≠ 0
    l := (b &&& 0x20) ≠ 0
    f := (b &&& 0x10) ≠ 0
    b := (b &&& 0x08) ≠ 0
    e := (b &&& 0x04) ≠ 0
    v := (b &&& 0x02) ≠ 0
    z := (b &&& 0x01) ≠ 0 }

/-- The check before a byte is read. -/
def checkShort : Parser Unit := do
  if (← remaining) = 0 then throw .shortPacket

def parsePictureId (h : Vp9Header) : Parser Vp9Header := do
  checkShort
  let b ← getU8
  if (b &&& 0x80) ≠ 0 then
    checkShort
    let low ← getU8
    pure { h with pictureId := longValue b low }
  else pure { h with pictureId := (b &&& 0x7F).toUInt16 }

def parseLayerInfoCommon (h : Vp9Header) : Parser Vp9Header := do
  checkShort
  let b ← getU8
  let h := { h with
    tid := b >>> 5
    u := (b &&& 0x10) ≠ 0
    sid := (b >>> 1) &&& 0x7
    d := (b &&& 0x01) ≠ 0 }
  if maxSpatialLayers ≤ h.sid then throw .tooManySpatialLayers else pure h

def parseLayerInfoNonFlexibleMode (h : Vp9Header) : Parser Vp9Header := do
  checkShort
  let b ← getU8
  pure { h with tl0picidx := b }

def parseLayerInfo (h : Vp9Header) : Parser Vp9Header := do
  let h ← parseLayerInfoCommon h
  if h.f then pure h else parseLayerInfoNonFlexibleMode h

/-- The `while` loop of `parse_ref_indices`, for so many rounds.  A round that does not leave the
    loop adds an index, and the last one that may be there is an error. -/
def refLoop : Nat → Vp9Header → Parser Vp9Header
  | 0, _ => throw .tooManyPDiff
  | rounds + 1, h => do
    checkShort
    let b ← getU8
    let h := { h with pdiff := h.pdiff ++ [b >>> 1] }
    if maxVp9RefPics ≤ h.pdiff.length then throw .tooManyPDiff
    else if (b &&& 0x1) ≠ 0 then refLoop rounds h
    else pure h

def parseRefIndices (h : Vp9Header) : Parser Vp9Header := refLoop maxVp9RefPics h

/-- `xs[i] = f(xs[i])`, with the check of the index. -/
def update {α : Type} (xs : List α) (i : Nat) (f : α → α) : Parser (List α) :=
  match xs[i]? with
  | none => throw (.panic indexOutOfBounds)
  | some a => pure (xs.set i (f a))

/-- The loop over the resolutions, from an index on. -/
def readResolutions (i : Nat) : Nat → Vp9Header → Parser Vp9Header
  | 0, h => pure h
  | count + 1, h => do
    let w ← getU16
    let width ← update h.width i fun _ => w
    let w ← getU16
    let height ← update h.height i fun _ => w
    readResolutions (i + 1) count { h with width := width, height := height }

def readSizes (h : Vp9Header) : Parser Vp9Header := do
  let ns := (h.ns + 1).toNat
  if (← remaining) < 4 * ns then throw .shortPacket
  else
    readResolutions 0 ns
      { h with width := List.replicate ns 0, height := List.replicate ns 0 }

def readGroupSize (h : Vp9Header) : Parser Vp9Header := do
  checkShort
  let b ← getU8
  pure { h with ng := b }

/-- The loop over the reference indices of a picture. -/
def readDiffs (i : Nat) : Nat → Vp9Header → Parser Vp9Header
  | 0, h => pure h
  | count + 1, h => do
    let b ← getU8
    let pgpdiff ← update h.pgpdiff i fun diffs => diffs ++ [b]
    readDiffs i count { h with pgpdiff := pgpdiff }

/-- The loop over the pictures of the group, from an index on. -/
def readPictures (i : Nat) : Nat → Vp9Header → Parser Vp9Header
  | 0, h => pure h
  | count + 1, h => do
    checkShort
    let b ← getU8
    let r := ((b >>> 2) &&& 0x3).toNat
    if (← remaining) < r then throw .shortPacket
    else
      let h ← readDiffs i r { h with
        pgtid := h.pgtid ++ [b >>> 5]
        pgu := h.pgu ++ [decide ((b &&& 0x10) ≠ 0)]
        pgpdiff := h.pgpdiff ++ [[]] }
      readPictures (i + 1) count h

/-- A part of the descriptor that is there only if it is announced. -/
def whenSet (present : Bool) (p : Vp9Header → Parser Vp9Header) (h : Vp9Header) :
    Parser Vp9Header :=
  if present then p h else pure h

def parseSsdata (h : Vp9Header) : Parser Vp9Header := do
  checkShort
  let b ← getU8
  let h := { h with
    ns := b >>> 5
    y := (b &&& 0x10) ≠ 0
    g := ((b >>> 1) &&& 0x7) ≠ 0
    ng := 0 }
  let h ← whenSet h.y readSizes h
  let h ← whenSet h.g readGroupSize h
  readPictures 0 h.ng.toNat h

def isKey (h : Vp9Header) : Bool := !h.p && h.b && (h.sid = 0 || !h.d)

def svcOf (h : Vp9Header) : Option Vp9Svc :=
  if h.l then
    some
      { pictureId := if h.i then some h.pictureId else none
        spatialLayers := if h.v then some (h.ns + 1) else none
        spatial := h.sid
        temporal := h.tid
        beginFrame := h.b
        endFrame := h.e
        switchingPoint := h.u
        predictedFrame := h.p }
  else none

/-- The parser behind the picture id. -/
def parseLayers (h : Vp9Header) : Parser (Bool × Option Vp9Svc) := do
  let h ← whenSet h.l parseLayerInfo h
  let h ← whenSet (h.f && h.p) parseRefIndices h
  let h ← whenSet h.v parseSsdata h
  pure (isKey h, svcOf h)

def parseFrom (packet : Bytes) : Parser (Bool × Option Vp9Svc) := do
  if packet.isEmpty then throw .shortPacket
  else
    let b ← getU8
    let h := required b
    let h ← whenSet h.i parsePictureId h
    parseLayers h

def parseRtp (payload : Bytes) (profile : Vp9Profile) (rotation : Option MediaOrientation) :
    Except Panic (Option MediaMeta) :=
  (parse (parseFrom payload) payload).map
    (Option.map fun found => .vp9 found.1 profile found.2 rotation)

/-! ### The rewriter -/

def rewriteRtp (payload : Bytes) (svc : Vp9Svc) : Except Panic Bytes := do
  let b ← payloadAt payload 0
  let i := (b &&& 0x80) ≠ 0
  let (payload, _) ← rewriteId i payload 1 (svc.pictureId.getD 0)
  pure payload

/-! ### Loops over the bytes that are left -/

section

variable {done left : Bytes} {E : Fault → BitReader → Prop} {Q : Vp9Header → BitReader → Prop}

theorem wp_checkShort_cons {b : UInt8} {Q : Unit → BitReader → Prop} :
    wp checkShort Q E (past done (b :: left)) ↔ Q () (past done (b :: left)) := by
  rw [checkShort, wp_bind, wp_remaining, if_neg (by simp), wp_pure]

theorem wp_checkShort_nil {Q : Unit → BitReader → Prop} :
    wp checkShort Q E (past done []) ↔ E .shortPacket (past done []) := by
  rw [checkShort, wp_bind, wp_remaining, if_pos (by simp), wp_throw]

theorem wp_update {α : Type} {xs : List α} {i : Nat} (hi : i < xs.length) {f : α → α}
    {r : BitReader} {Q : List α → BitReader → Prop} :
    wp (update xs i f) Q E r ↔ Q (xs.set i (f xs[i])) r := by
  rw [update, List.getElem?_eq_getElem hi]
  exact wp_pure

theorem wp_readDiffs_of_le {h : Vp9Header} {i r : Nat} (hi : i < h.pgpdiff.length)
    (hr : r ≤ left.length)
    (hQ : ∀ (diffs : List (List UInt8)) (done' : Bytes), diffs.length = h.pgpdiff.length →
      Q { h with pgpdiff := diffs } (past done' (left.drop r))) :
    wp (readDiffs i r h) Q E (past done left) := by
  induction r generalizing h done left with
  | zero => exact wp_pure.mpr (hQ h.pgpdiff done rfl)
  | succ r ih =>
    match left, hr with
    | b :: left, hr =>
      rw [readDiffs, wp_bind, wp_getU8_cons, wp_bind, wp_update hi]
      apply ih (by rw [List.length_set]; exact hi) (Nat.le_of_succ_le_succ hr)
      intro diffs done' hdiffs
      rw [List.length_set] at hdiffs
      exact hQ diffs done' hdiffs

theorem wp_readDiffs_of_lt {h : Vp9Header} {i r : Nat} (hi : i < h.pgpdiff.length)
    (hr : left.length < r) (hE : ∀ s, E (.panic tooFewBits) s) :
    wp (readDiffs i r h) Q E (past done left) := by
  induction r generalizing h done left with
  | zero => exact absurd hr (Nat.not_lt_zero _)
  | succ r ih =>
    match left, hr with
    | [], _ =>
      rw [readDiffs, wp_bind, wp_getU8_nil]
      exact hE _
    | b :: left, hr =>
      rw [readDiffs, wp_bind, wp_getU8_cons, wp_bind, wp_update hi]
      exact ih (by rw [List.length_set]; exact hi) (Nat.lt_of_succ_lt_succ hr)

theorem wp_getU16_of_lt {Q : UInt16 → BitReader → Prop} (hleft : left.length < 2)
    (hE : ∀ s, E (.panic tooFewBits) s) : wp getU16 Q E (past done left) := by
  match left, hleft with
  | [], _ =>
    rw [getU16, wp_bind, wp_getU8_nil]
    exact hE _
  | [b], _ =>
    rw [getU16, wp_bind, wp_getU8_cons, wp_bind, wp_getU8_nil]
    exact hE _

theorem wp_readResolutions_of_le {h : Vp9Header} {i count : Nat}
    (hwidth : i + count ≤ h.width.length) (hheight : i + count ≤ h.height.length)
    (hleft : 4 * count ≤ left.length)
    (hQ : ∀ (width height : List UInt16) (done' : Bytes),
      Q { h with width := width, height := height } (past done' (left.drop (4 * count)))) :
    wp (readResolutions i count h) Q E (past done left) := by
  induction count generalizing h done left i with
  | zero => exact wp_pure.mpr (hQ h.width h.height done)
  | succ count ih =>
    match left, hleft with
    | w :: w' :: w'' :: w''' :: left, hleft =>
      rw [readResolutions, wp_bind, wp_getU16_cons, wp_bind, wp_update (by omega), wp_bind,
        wp_getU16_cons, wp_bind, wp_update (by omega)]
      refine ih (by rw [List.length_set]; omega) (by rw [List.length_set]; omega)
        (by simp only [List.length_cons] at hleft; omega) ?_
      intro width height done'
      exact hQ width height done'

theorem wp_readResolutions_of_lt {h : Vp9Header} {i count : Nat}
    (hwidth : i + count ≤ h.width.length) (hheight : i + count ≤ h.height.length)
    (hleft : left.length < 4 * count) (hE : ∀ s, E (.panic tooFewBits) s) :
    wp (readResolutions i count h) Q E (past done left) := by
  induction count generalizing h done left i with
  | zero => exact absurd hleft (Nat.not_lt_zero _)
  | succ count ih =>
    rw [readResolutions, wp_bind]
    match left, hleft with
    | [], _ => exact wp_getU16_of_lt (by decide) hE
    | [_], _ => exact wp_getU16_of_lt (by simp) hE
    | w :: w' :: left, hleft =>
      rw [wp_getU16_cons, wp_bind, wp_update (by omega), wp_bind]
      match left, hleft with
      | [], _ => exact wp_getU16_of_lt (by decide) hE
      | [_], _ => exact wp_getU16_of_lt (by simp) hE
      | w'' :: w''' :: left, hleft =>
        rw [wp_getU16_cons, wp_bind, wp_update (by omega)]
        exact ih (by rw [List.length_set]; omega) (by rw [List.length_set]; omega)
          (by simp only [List.length_cons] at hleft; omega)

end

/-! ### Behind the picture id -/

section

variable {i : Bool} {id : UInt16}

/-- The same header with another picture id, or with none. -/
def withId (h : Vp9Header) (i : Bool) (id : UInt16) : Vp9Header :=
  { h with i := i, pictureId := id }

/-- A step of the parser that does not look at the picture id. -/
def Blind (i : Bool) (id : UInt16) (p : Vp9Header → Parser Vp9Header) : Prop :=
  ∀ h, Alike (fun h h' => h' = withId h i id) (p h) (p (withId h i id))

theorem alike_checkShort : Alike Eq checkShort checkShort :=
  alike_remaining.bind fun _ _ hleft =>
    Alike.ite (by rw [hleft]) (Alike.throw _) (Alike.pure rfl)

theorem alike_update {α : Type} (xs : List α) (n : Nat) (f : α → α) :
    Alike Eq (update xs n f) (update xs n f) := by
  rw [update]
  cases xs[n]? with
  | none => exact Alike.throw _
  | some a => exact Alike.pure rfl

theorem blind_whenSet {present : Bool} {p : Vp9Header → Parser Vp9Header} (hp : Blind i id p) :
    Blind i id (whenSet present p) :=
  fun h => Alike.ite Iff.rfl (hp h) (Alike.pure rfl)

theorem blind_parseLayerInfoNonFlexibleMode : Blind i id parseLayerInfoNonFlexibleMode := by
  intro h
  refine alike_checkShort.bind fun _ _ _ => alike_getU8.bind fun b b' hb => ?_
  rw [hb]
  exact Alike.pure rfl

theorem blind_parseLayerInfoCommon : Blind i id parseLayerInfoCommon := by
  intro h
  refine alike_checkShort.bind fun _ _ _ => alike_getU8.bind fun b b' hb => ?_
  rw [hb]
  exact Alike.ite Iff.rfl (Alike.throw _) (Alike.pure rfl)

theorem blind_parseLayerInfo : Blind i id parseLayerInfo := by
  intro h
  refine (blind_parseLayerInfoCommon h).bind fun h h' hh => ?_
  rw [hh]
  exact Alike.ite Iff.rfl (Alike.pure rfl) (blind_parseLayerInfoNonFlexibleMode h)

theorem blind_refLoop (rounds : Nat) : Blind i id (refLoop rounds) := by
  induction rounds with
  | zero => exact fun _ => Alike.throw _
  | succ rounds ih =>
    intro h
    refine alike_checkShort.bind fun _ _ _ => alike_getU8.bind fun b b' hb => ?_
    rw [hb]
    exact Alike.ite Iff.rfl (Alike.throw _) (Alike.ite Iff.rfl (ih _) (Alike.pure rfl))

theorem blind_readResolutions (n count : Nat) : Blind i id (readResolutions n count) := by
  induction count generalizing n with
  | zero => exact fun _ => Alike.pure rfl
  | succ count ih =>
    intro h
    refine alike_getU16.bind fun w w' hw => ?_
    rw [hw]
    refine (alike_update _ _ _).bind fun width width' hwidth => ?_
    rw [hwidth]
    refine alike_getU16.bind fun v v' hv => ?_
    rw [hv]
    refine (alike_update _ _ _).bind fun height height' hheight => ?_
    rw [hheight]
    exact ih (n + 1) _

theorem blind_readSizes : Blind i id readSizes := by
  intro h
  refine alike_remaining.bind fun n n' hn => ?_
  rw [hn]
  exact Alike.ite Iff.rfl (Alike.throw _) (blind_readResolutions _ _ _)

theorem blind_readGroupSize : Blind i id readGroupSize := by
  intro h
  refine alike_checkShort.bind fun _ _ _ => alike_getU8.bind fun b b' hb => ?_
  rw [hb]
  exact Alike.pure rfl

theorem blind_readDiffs (n count : Nat) : Blind i id (readDiffs n count) := by
  induction count with
  | zero => exact fun _ => Alike.pure rfl
  | succ count ih =>
    intro h
    refine alike_getU8.bind fun b b' hb => ?_
    rw [hb]
    refine (alike_update _ _ _).bind fun diffs diffs' hdiffs => ?_
    rw [hdiffs]
    exact ih _

theorem blind_readPictures (n count : Nat) : Blind i id (readPictures n count) := by
  induction count generalizing n with
  | zero => exact fun _ => Alike.pure rfl
  | succ count ih =>
    intro h
    refine alike_checkShort.bind fun _ _ _ => alike_getU8.bind fun b b' hb => ?_
    rw [hb]
    refine alike_remaining.bind fun bits bits' hbits => ?_
    rw [hbits]
    refine Alike.ite Iff.rfl (Alike.throw _) ((blind_readDiffs n _ _).bind fun h h' hh => ?_)
    rw [hh]
    exact ih (n + 1) h

theorem blind_parseSsdata : Blind i id parseSsdata := by
  intro h
  refine alike_checkShort.bind fun _ _ _ => alike_getU8.bind fun b b' hb => ?_
  rw [hb]
  refine (blind_whenSet blind_readSizes _).bind fun h h' hh => ?_
  rw [hh]
  refine (blind_whenSet blind_readGroupSize h).bind fun h h' hh => ?_
  rw [hh]
  exact blind_readPictures 0 h.ng.toNat h

/-- The picture id is only passed on. -/
theorem alike_parseLayers (i : Bool) (id : UInt16) (h : Vp9Header) :
    Alike (fun found found' => found'.1 = found.1 ∧
        found'.2 = found.2.map fun svc => { svc with pictureId := if i then some id else none })
      (parseLayers h) (parseLayers (withId h i id)) := by
  refine (blind_whenSet blind_parseLayerInfo h).bind fun h h' hh => ?_
  rw [hh]
  refine (blind_whenSet (blind_refLoop maxVp9RefPics) h).bind fun h h' hh => ?_
  rw [hh]
  refine (blind_whenSet blind_parseSsdata h).bind fun h h' hh => ?_
  rw [hh]
  refine Alike.pure ⟨rfl, ?_⟩
  rw [svcOf, svcOf]
  by_cases hl : h.l <;> simp [withId, hl]

end

/-! ### The picture id -/

/-- The header in front of the layers. -/
def headed (first : UInt8) (p : Option PictureId) : Vp9Header :=
  withId (required first) p.isSome (p.elim 0 PictureId.value)

theorem wp_parsePictureId {p : PictureId} {h : Vp9Header} {done left : Bytes}
    {E : Fault → BitReader → Prop} {Q : Vp9Header → BitReader → Prop} :
    wp (parsePictureId h) Q E (past done (p.bytes ++ left)) ↔
      Q { h with pictureId := p.value } (past (done ++ p.bytes) left) := by
  rcases p.eq_short_or_long with ⟨b, hwidth, hbytes, hvalue⟩ | ⟨hi, lo, hwidth, hbytes, hvalue⟩
  · have hshort : ¬(b &&& 0x80) ≠ 0 := by
      rw [← UInt8.pos_iff_ne_zero, width_bit]
      omega
    have hmask : b &&& 0x7F = b := by
      apply UInt8.toNat_inj.mp
      rw [toNat_and_7f]
      omega
    simp only [parsePictureId, hbytes, hvalue, List.singleton_append, wp_bind, wp_checkShort_cons,
      wp_getU8_cons, if_neg hshort, wp_pure, hmask]
  · have hlong : (hi &&& 0x80) ≠ 0 := by
      rw [← UInt8.pos_iff_ne_zero, width_bit]
      exact hwidth
    simp only [parsePictureId, hbytes, hvalue, List.cons_append, List.nil_append, wp_bind,
      wp_checkShort_cons, wp_getU8_cons, if_pos hlong, wp_pure, List.append_assoc]

/-- The parser up to the layers. -/
theorem wp_parseFrom {first : UInt8} {p : Option PictureId} {left : Bytes}
    (hp : p.isSome ↔ (required first).i) {E : Fault → BitReader → Prop}
    {Q : Bool × Option Vp9Svc → BitReader → Prop} :
    wp (parseFrom (first :: (idBytes p ++ left))) Q E (past [] (first :: (idBytes p ++ left))) ↔
      wp (parseLayers (headed first p)) Q E (past (first :: idBytes p) left) := by
  rw [parseFrom, if_neg (by simp), wp_bind, wp_getU8_cons, wp_bind]
  cases p with
  | none =>
    have hi : (required first).i = false := Bool.eq_false_iff.mpr fun hi => nomatch hp.mpr hi
    have hheaded : headed first none = required first := by
      rw [headed, withId, Option.isSome_none, ← hi]
      rfl
    simp only [whenSet, hi, Bool.false_eq_true, if_false, wp_pure, hheaded]
    rfl
  | some p =>
    have hi : (required first).i = true := hp.mp rfl
    have hheaded : headed first (some p) = { required first with pictureId := p.value } := by
      rw [headed, withId, Option.isSome_some, ← hi]
      rfl
    simp only [whenSet, hi, if_true, idBytes, Option.elim_some, wp_parsePictureId, hheaded]
    rfl

/-- A payload has the picture id that it announces, or it is refused. -/
theorem exists_idBytes_or_refused (payload : Bytes) :
    (∃ (first : UInt8) (p : Option PictureId) (left : Bytes),
        payload = first :: (idBytes p ++ left) ∧ (p.isSome ↔ (required first).i)) ∨
      parse (parseFrom payload) payload = .ok none := by
  match payload with
  | [] => exact Or.inr rfl
  | first :: left =>
    by_cases hi : (required first).i
    case neg => exact Or.inl ⟨first, none, left, rfl, by simp [hi]⟩
    have hhead : ∀ {E : Fault → BitReader → Prop} {Q : Bool × Option Vp9Svc → BitReader → Prop},
        wp (parsePictureId (required first)) (fun h s => wp (parseLayers h) Q E s) E
          (past [first] left) →
        wp (parseFrom (first :: left)) Q E (past [] (first :: left)) := by
      intro E Q h
      rw [parseFrom, if_neg (by simp), wp_bind, wp_getU8_cons, wp_bind, whenSet, if_pos hi]
      exact h
    match left with
    | [] =>
      refine Or.inr (parse_eq_none (hhead ?_))
      rw [parsePictureId, wp_bind, wp_checkShort_nil]
      rfl
    | b :: left =>
      by_cases hwidth : b.toNat < 128
      · obtain ⟨p, hp, _⟩ := exists_short hwidth
        exact Or.inl ⟨first, some p, left, by rw [idBytes, Option.elim_some, hp]; rfl, by simp [hi]⟩
      match left with
      | lo :: left =>
        obtain ⟨p, hp, _⟩ := exists_long (Nat.le_of_not_lt hwidth) lo
        exact Or.inl ⟨first, some p, left, by rw [idBytes, Option.elim_some, hp]; rfl, by simp [hi]⟩
      | [] =>
        refine Or.inr (parse_eq_none (hhead ?_))
        have hlong : (b &&& 0x80) ≠ 0 := by
          rw [← UInt8.pos_iff_ne_zero, width_bit]
          omega
        rw [parsePictureId, wp_bind, wp_checkShort_cons, wp_bind, wp_getU8_cons, if_pos hlong,
          wp_bind, wp_checkShort_nil]
        rfl

/-! ### Parsing and rewriting -/

section

variable {profile : Vp9Profile} {rotation : Option MediaOrientation}

/-- The place of the picture id in a payload. -/
def idAt (payload : Bytes) : Bool := bitAt payload 0 7

def idLen (payload : Bytes) : Nat := if idAt payload then idLength payload 1 else 0

theorem idAt_cons (first : UInt8) (left : Bytes) :
    idAt (first :: left) = (required first).i :=
  decide_eq_decide.mpr (and_ne_zero (m := 0x80) (k := 7) rfl).symm

theorem idLen_cons {first : UInt8} {p : Option PictureId} (left : Bytes)
    (hp : p.isSome ↔ (required first).i) :
    idLen (first :: (idBytes p ++ left)) = (idBytes p).length := by
  have hi : p.isSome = (required first).i := Bool.eq_iff_iff.mpr hp
  rw [idLen, idAt_cons, ← hi]
  cases p with
  | none => rfl
  | some p => exact idLength_append [first] left p

theorem rewriteRtp_cons {first : UInt8} {p : Option PictureId} (left : Bytes)
    (hp : p.isSome ↔ (required first).i) (svc : Vp9Svc) :
    rewriteRtp (first :: (idBytes p ++ left)) svc =
      .ok (first :: (idBytes (p.map fun p => p.replace (svc.pictureId.getD 0)) ++ left)) := by
  have hid := rewriteId_append hp [first] left (svc.pictureId.getD 0)
  rw [List.singleton_append, List.length_singleton] at hid
  rw [rewriteRtp]
  change (do
    let (payload, _) ←
      rewriteId (required first).i (first :: (idBytes p ++ left)) 1 (svc.pictureId.getD 0)
    pure payload : Except Panic Bytes) = _
  rw [hid]
  rfl

theorem parseRtp_eq_some {payload : Bytes} {key : Bool} {svc : Option Vp9Svc} :
    parseRtp payload profile rotation = .ok (some (.vp9 key profile svc rotation)) ↔
      parse (parseFrom payload) payload = .ok (some (key, svc)) := by
  rw [parseRtp]
  match parse (parseFrom payload) payload with
  | .error panic => exact ⟨fun h => (nomatch h), fun h => (nomatch h)⟩
  | .ok none => exact ⟨fun h => (nomatch h), fun h => (nomatch h)⟩
  | .ok (some found) =>
    constructor
    · intro h
      obtain ⟨hkey, _, hsvc, _⟩ := MediaMeta.vp9.inj (Option.some.inj (Except.ok.inj h))
      rw [← hkey, ← hsvc]
    · intro h
      rw [Option.some.inj (Except.ok.inj h)]
      rfl

/-- Profile and rotation are passed on. -/
theorem profile_of_parseRtp {payload : Bytes} {key : Bool} {svc : Option Vp9Svc}
    {profile' : Vp9Profile} {rotation' : Option MediaOrientation}
    (h : parseRtp payload profile rotation = .ok (some (.vp9 key profile' svc rotation'))) :
    profile = profile' ∧ rotation = rotation' := by
  rw [parseRtp] at h
  match hparse : parse (parseFrom payload) payload with
  | .error panic =>
    rw [hparse] at h
    exact nomatch h
  | .ok none =>
    rw [hparse] at h
    exact nomatch h
  | .ok (some found) =>
    rw [hparse] at h
    obtain ⟨_, hprofile, _, hrotation⟩ := MediaMeta.vp9.inj (Option.some.inj (Except.ok.inj h))
    exact ⟨hprofile, hrotation⟩

/-- What the parser makes of the bytes behind a picture id. -/
theorem parseRtp_cons {first : UInt8} {p : Option PictureId} {left : Bytes}
    (hp : p.isSome ↔ (required first).i) {key : Bool} {svc : Option Vp9Svc} :
    parseRtp (first :: (idBytes p ++ left)) profile rotation =
        .ok (some (.vp9 key profile svc rotation)) ↔
      wp (parseLayers (headed first p)) (fun found _ => found = (key, svc)) (fun _ _ => False)
        (past (first :: idBytes p) left) := by
  rw [← wp_parseFrom hp, ← parse_eq_some_iff, parseRtp_eq_some]

/-- Another picture id of the same width comes through. -/
theorem parseRtp_replace {first : UInt8} {p p' : Option PictureId} {left : Bytes}
    (hp : p.isSome ↔ (required first).i) (hp' : p'.isSome = p.isSome) {key : Bool} {svc : Vp9Svc}
    (h : parseRtp (first :: (idBytes p ++ left)) profile rotation =
      .ok (some (.vp9 key profile (some svc) rotation))) :
    parseRtp (first :: (idBytes p' ++ left)) profile rotation =
      .ok (some (.vp9 key profile (some { svc with pictureId := p'.map PictureId.value })
        rotation)) := by
  have hheaded : headed first p' = withId (headed first p) p'.isSome (p'.elim 0 PictureId.value) :=
    rfl
  have hvalue : (if p'.isSome then some (p'.elim 0 PictureId.value) else none) =
      p'.map PictureId.value := by
    cases p' <;> rfl
  have halike := (alike_parseLayers p'.isSome (p'.elim 0 PictureId.value) (headed first p)).wp
    ((parseRtp_cons hp).mp h) (first :: idBytes p')
  rw [parseRtp_cons (by rw [hp']; exact hp), hheaded]
  refine wp_mono halike ?_ (fun _ _ h => h)
  rintro found s ⟨found', hfound', hkey, hsvc⟩
  rw [hfound'] at hkey hsvc
  rw [hvalue] at hsvc
  exact Prod.ext hkey hsvc

/-- The picture id of a parsed payload. -/
theorem pictureId_of_parseRtp {first : UInt8} {p : Option PictureId} {left : Bytes}
    (hp : p.isSome ↔ (required first).i) {key : Bool} {svc : Vp9Svc}
    (h : parseRtp (first :: (idBytes p ++ left)) profile rotation =
      .ok (some (.vp9 key profile (some svc) rotation))) :
    svc.pictureId = p.map PictureId.value := by
  have hsame := parseRtp_replace hp rfl h
  rw [h] at hsame
  exact congrArg Vp9Svc.pictureId (Option.some.inj
    (MediaMeta.vp9.inj (Option.some.inj (Except.ok.inj hsame))).2.2.1)

/-- A payload with layer info, rewritten and parsed again. -/
theorem parseRtp_rewriteRtp {payload : Bytes} {key : Bool} {svc : Vp9Svc}
    (h : parseRtp payload profile rotation = .ok (some (.vp9 key profile (some svc) rotation)))
    {id : Option UInt16} (hid : id.isSome = svc.pictureId.isSome) :
    ∃ out, rewriteRtp payload { svc with pictureId := id } = .ok out ∧
      out.length = payload.length ∧
      (∀ i, (i < 1 ∨ 1 + idLen payload ≤ i) → out[i]? = payload[i]?) ∧
      (idAt payload → bitAt out 1 7 = bitAt payload 1 7) ∧
      parseRtp out profile rotation =
        .ok (some (.vp9 key profile
          (some { svc with pictureId := id.map (wrapId payload 1) }) rotation)) := by
  rcases exists_idBytes_or_refused payload with ⟨first, p, left, rfl, hp⟩ | hrefused
  case inr =>
    rw [parseRtp_eq_some, hrefused] at h
    exact nomatch h
  rw [pictureId_of_parseRtp hp h, Option.isSome_map] at hid
  refine ⟨_, rewriteRtp_cons left hp _, ?_, ?_, ?_, ?_⟩
  · simp only [List.length_cons, List.length_append, length_idBytes_replace]
  · intro i hi
    rw [idLen_cons left hp] at hi
    exact getElem?_append_congr [first] left (length_idBytes_replace p _) hi
  · intro hpresent
    rw [idAt_cons, ← hp] at hpresent
    obtain ⟨p, rfl⟩ := Option.isSome_iff_exists.mp hpresent
    have hwidth := bitAt_width [first] left p
    have hwidth' := bitAt_width [first] left (p.replace (id.getD 0))
    rw [p.length_bytes_replace, ← hwidth] at hwidth'
    exact hwidth'
  · rw [parseRtp_replace hp (by rw [Option.isSome_map]) h]
    have hvalue : (p.map fun p => p.replace (id.getD 0)).map PictureId.value =
        id.map (wrapId (first :: (idBytes p ++ left)) 1) := by
      cases p with
      | none =>
        rw [Option.isSome_none, Option.isSome_eq_false_iff, Option.isNone_iff_eq_none] at hid
        rw [hid]
        rfl
      | some p =>
        rw [Option.isSome_some, Option.isSome_iff_exists] at hid
        obtain ⟨id, rfl⟩ := hid
        exact congrArg some (value_replace [first] left p id)
    rw [hvalue]

end

end Vp9

end MediaServer.Transport.Payload
