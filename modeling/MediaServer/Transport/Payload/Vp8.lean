import MediaServer.Transport.Payload.PictureId

/-!
# VP8 payloads

`vp8::parse_rtp` and `vp8::rewrite_rtp` (`transport_webrtc/src/media/vp8.rs`).  The parser reads
the descriptor bit by bit; the rewriter finds the picture id and the `TL0PICIDX` again by a walk
of its own, without a check of the length.
-/

namespace MediaServer.Transport.Payload

open Fallible

structure Vp8Header where
  x : UInt8 := 0
  n : UInt8 := 0
  s : UInt8 := 0
  pid : UInt8 := 0
  i : UInt8 := 0
  l : UInt8 := 0
  t : UInt8 := 0
  k : UInt8 := 0
  pictureId : UInt16 := 0
  tl0PicIdx : UInt8 := 0
  tid : UInt8 := 0
  y : UInt8 := 0
  keyIdx : UInt8 := 0

namespace Vp8

/-! ### The parser -/

def required (b : UInt8) : Vp8Header :=
  { x := (b &&& 0x80) >>> 7
    n := (b &&& 0x20) >>> 5
    s := (b &&& 0x10) >>> 4
    pid := b &&& 0x07 }

/-- The steps of the parser take the header and the index of the payload. -/
def readExtension (vp8 : Vp8Header) (index : Nat) : Parser (Vp8Header × Nat) := do
  if vp8.x = 1 then
    let b ← getU8
    pure ({ vp8 with
      i := (b &&& 0x80) >>> 7
      l := (b &&& 0x40) >>> 6
      t := (b &&& 0x20) >>> 5
      k := (b &&& 0x10) >>> 4 }, index + 1)
  else pure (vp8, index)

def readPictureId (vp8 : Vp8Header) (index : Nat) : Parser (Vp8Header × Nat) := do
  if vp8.i = 1 then
    let b ← getU8
    if 0 < b &&& 0x80 then
      let low ← getU8
      pure ({ vp8 with pictureId := longValue b low }, index + 2)
    else pure ({ vp8 with pictureId := b.toUInt16 }, index + 1)
  else pure (vp8, index)

def readTl0PicIdx (vp8 : Vp8Header) (index : Nat) : Parser (Vp8Header × Nat) := do
  if vp8.l = 1 then
    let b ← getU8
    pure ({ vp8 with tl0PicIdx := b }, index + 1)
  else pure (vp8, index)

def readTidKeyIdx (vp8 : Vp8Header) (index : Nat) : Parser (Vp8Header × Nat) := do
  if vp8.t = 1 ∨ vp8.k = 1 then
    let b ← getU8
    let vp8 := if vp8.t = 1 then { vp8 with tid := b >>> 6, y := (b >>> 5) &&& 0x1 } else vp8
    let vp8 := if vp8.k = 1 then { vp8 with keyIdx := b &&& 0x1F } else vp8
    pure (vp8, index + 1)
  else pure (vp8, index)

def simOf (vp8 : Vp8Header) (rid : Option UInt8) : Option Vp8Sim :=
  if vp8.t = 1 then
    some
      { spatial := rid.getD 0
        temporal := vp8.tid
        pictureId := if vp8.i ≠ 0 then some vp8.pictureId else none
        tl0PicIdx := if vp8.l ≠ 0 then some vp8.tl0PicIdx else none
        layerSync := vp8.y ≠ 0 }
  else none

/-- `is_key`, which looks at the payload only in the first packet of a frame. -/
def readKey (packet : Bytes) (vp8 : Vp8Header) (index : Nat) : Parser Bool := do
  if vp8.s ≠ 0 ∧ vp8.pid = 0 then
    let b ← byteAt packet index
    pure (b &&& 0x01 = 0)
  else pure false

/-- The parser from its first check of the index on. -/
def parseLayers (packet : Bytes) (rid : Option UInt8) (rotation : Option MediaOrientation)
    (vp8 : Vp8Header) (index : Nat) : Parser (Option MediaMeta) := do
  if packet.length ≤ index then pure none
  else
    let (vp8, index) ← readTl0PicIdx vp8 index
    if packet.length ≤ index then pure none
    else
      let (vp8, index) ← readTidKeyIdx vp8 index
      if packet.length ≤ index then pure none
      else
        let isKey ← readKey packet vp8 index
        pure (some (.vp8 isKey (simOf vp8 rid) rotation))

def parsePacket (packet : Bytes) (rid : Option UInt8) (rotation : Option MediaOrientation) :
    Parser (Option MediaMeta) := do
  if packet.length < 4 then pure none
  else
    let b ← getU8
    let (vp8, index) ← readExtension (required b) 1
    let (vp8, index) ← readPictureId vp8 index
    parseLayers packet rid rotation vp8 index

/-- `parse_rtp` has no errors of its own. -/
def parseRtp (packet : Bytes) (rid : Option UInt8) (rotation : Option MediaOrientation) :
    Except Panic (Option MediaMeta) :=
  (parse (parsePacket packet rid rotation) packet).map Option.join

/-! ### The rewriter -/

/-- The flags `i` and `l`, and the index behind the control bits. -/
def controlBits (payload : Bytes) : Except Panic (UInt8 × UInt8 × Nat) := do
  let b ← payloadAt payload 0
  let x := (b &&& 0x80) >>> 7
  if x = 1 then
    let b ← payloadAt payload 1
    pure ((b &&& 0x80) >>> 7, (b &&& 0x40) >>> 6, 2)
  else pure (0, 0, 1)

def rewriteRtp (payload : Bytes) (sim : Vp8Sim) : Except Panic Bytes := do
  let (i, l, index) ← controlBits payload
  let (payload, index) ← rewriteId (i = 1) payload index (sim.pictureId.getD 0)
  if l = 1 then setPayload payload index (sim.tl0PicIdx.getD 0) else pure payload

/-! ### The layout of a descriptor -/

/-- The header once the extension is read. -/
def extended (first : UInt8) (ext : Option UInt8) : Vp8Header :=
  { required first with
    i := (ext.getD 0 &&& 0x80) >>> 7
    l := (ext.getD 0 &&& 0x40) >>> 6
    t := (ext.getD 0 &&& 0x20) >>> 5
    k := (ext.getD 0 &&& 0x10) >>> 4 }

def withPictureId (vp8 : Vp8Header) (p : Option PictureId) : Vp8Header :=
  { vp8 with pictureId := p.elim vp8.pictureId PictureId.value }

def withTl0PicIdx (vp8 : Vp8Header) (tl0 : Option UInt8) : Vp8Header :=
  { vp8 with tl0PicIdx := tl0.getD vp8.tl0PicIdx }

def withTidKeyIdx (vp8 : Vp8Header) (tk : Option UInt8) : Vp8Header :=
  { vp8 with
    tid := if vp8.t = 1 then tk.getD 0 >>> 6 else vp8.tid
    y := if vp8.t = 1 then (tk.getD 0 >>> 5) &&& 0x1 else vp8.y
    keyIdx := if vp8.k = 1 then tk.getD 0 &&& 0x1F else vp8.keyIdx }

/-- A payload whose descriptor is complete and is followed by at least a byte. -/
structure Layout where
  first : UInt8
  ext : Option UInt8
  pictureId : Option PictureId
  tl0 : Option UInt8
  tk : Option UInt8
  body : UInt8
  rest : Bytes
  hext : ext.isSome ↔ (required first).x = 1
  hid : pictureId.isSome ↔ (extended first ext).i = 1
  htl0 : tl0.isSome ↔ (extended first ext).l = 1
  htk : tk.isSome ↔ (extended first ext).t = 1 ∨ (extended first ext).k = 1

namespace Layout

def bytes (d : Layout) : Bytes :=
  d.first :: (d.ext.toList ++
    (idBytes d.pictureId ++ (d.tl0.toList ++ (d.tk.toList ++ d.body :: d.rest))))

/-- The header that the parser ends with. -/
def header (d : Layout) : Vp8Header :=
  withTidKeyIdx (withTl0PicIdx (withPictureId (extended d.first d.ext) d.pictureId) d.tl0) d.tk

def isKey (d : Layout) : Bool :=
  d.header.s ≠ 0 ∧ d.header.pid = 0 ∧ d.body &&& 0x01 = 0

def mediaMeta (d : Layout) (rid : Option UInt8) (rotation : Option MediaOrientation) : MediaMeta :=
  .vp8 d.isKey (simOf d.header rid) rotation

end Layout

/-! ### What the parser does on a layout -/

section

variable {done left : Bytes} {E : Fault → BitReader → Prop} {Q : Vp8Header × Nat → BitReader → Prop}

theorem wp_readExtension {first : UInt8} {ext : Option UInt8}
    (h : ext.isSome ↔ (required first).x = 1) :
    wp (readExtension (required first) 1) Q E (past done (ext.toList ++ left)) ↔
      Q (extended first ext, 1 + ext.toList.length) (past (done ++ ext.toList) left) := by
  cases ext with
  | none =>
    have hx : ¬(required first).x = 1 := fun hx => nomatch h.mpr hx
    simp only [readExtension, if_neg hx, Option.toList_none, List.nil_append, wp_pure,
      List.append_nil]
    rfl
  | some e =>
    have hx : (required first).x = 1 := h.mp rfl
    simp only [readExtension, if_pos hx, Option.toList_some, List.singleton_append, wp_bind,
      wp_getU8_cons, wp_pure]
    rfl

theorem wp_readPictureId {vp8 : Vp8Header} {index : Nat} {p : Option PictureId}
    (h : p.isSome ↔ vp8.i = 1) :
    wp (readPictureId vp8 index) Q E (past done (idBytes p ++ left)) ↔
      Q (withPictureId vp8 p, index + (idBytes p).length) (past (done ++ idBytes p) left) := by
  cases p with
  | none =>
    have hi : ¬vp8.i = 1 := fun hi => nomatch h.mpr hi
    simp only [readPictureId, if_neg hi, withPictureId, idBytes, Option.elim_none, List.nil_append, wp_pure,
      List.append_nil, List.length_nil, Nat.add_zero]
  | some p =>
    have hi : vp8.i = 1 := h.mp rfl
    rcases p.eq_short_or_long with ⟨b, hwidth, hbytes, hvalue⟩ | ⟨hi', lo, hwidth, hbytes, hvalue⟩
    · have hshort : ¬0 < b &&& 0x80 := by
        rw [width_bit]
        omega
      simp only [readPictureId, if_pos hi, withPictureId, idBytes, Option.elim_some, hbytes,
        hvalue, wp_bind, List.singleton_append, wp_getU8_cons, if_neg hshort, wp_pure, List.length_singleton]
    · simp only [readPictureId, if_pos hi, withPictureId, idBytes, Option.elim_some, hbytes,
        hvalue, wp_bind, List.cons_append, List.nil_append, wp_getU8_cons, if_pos (width_bit.mpr hwidth), wp_pure,
        List.append_assoc, List.length_cons, List.length_nil]

theorem wp_readTl0PicIdx {vp8 : Vp8Header} {index : Nat} {tl0 : Option UInt8}
    (h : tl0.isSome ↔ vp8.l = 1) :
    wp (readTl0PicIdx vp8 index) Q E (past done (tl0.toList ++ left)) ↔
      Q (withTl0PicIdx vp8 tl0, index + tl0.toList.length) (past (done ++ tl0.toList) left) := by
  cases tl0 with
  | none =>
    have hl : ¬vp8.l = 1 := fun hl => nomatch h.mpr hl
    simp only [readTl0PicIdx, withTl0PicIdx, if_neg hl, Option.toList_none, List.nil_append, wp_pure,
      List.append_nil, Option.getD_none, List.length_nil, Nat.add_zero]
  | some b =>
    have hl : vp8.l = 1 := h.mp rfl
    simp only [readTl0PicIdx, withTl0PicIdx, if_pos hl, Option.toList_some, List.singleton_append, wp_bind,
      wp_getU8_cons, wp_pure, Option.getD_some, List.length_singleton]

theorem wp_readTidKeyIdx {vp8 : Vp8Header} {index : Nat} {tk : Option UInt8}
    (h : tk.isSome ↔ vp8.t = 1 ∨ vp8.k = 1) :
    wp (readTidKeyIdx vp8 index) Q E (past done (tk.toList ++ left)) ↔
      Q (withTidKeyIdx vp8 tk, index + tk.toList.length) (past (done ++ tk.toList) left) := by
  cases tk with
  | none =>
    have htk : ¬(vp8.t = 1 ∨ vp8.k = 1) := fun htk => nomatch h.mpr htk
    have hneither := not_or.mp htk
    simp only [readTidKeyIdx, withTidKeyIdx, if_neg htk, if_neg hneither.1, if_neg hneither.2, Option.toList_none,
      List.nil_append, wp_pure, List.append_nil, List.length_nil, Nat.add_zero]
  | some b =>
    have htk : vp8.t = 1 ∨ vp8.k = 1 := h.mp rfl
    simp only [readTidKeyIdx, withTidKeyIdx, if_pos htk, Option.toList_some, List.singleton_append, wp_bind,
      wp_getU8_cons, wp_pure, Option.getD_some, List.length_singleton]
    by_cases ht : vp8.t = 1 <;> by_cases hk : vp8.k = 1 <;> simp only [ht, hk, if_true, if_false]

end

section

variable {rid : Option UInt8} {rotation : Option MediaOrientation}

/-- The code has come to the byte at its index. -/
theorem wp_readKey {packet left : Bytes} {vp8 : Vp8Header} {done : Bytes} {b : UInt8}
    (h : packet = done ++ b :: left) {r : BitReader} {E : Fault → BitReader → Prop}
    {Q : Bool → BitReader → Prop} :
    wp (readKey packet vp8 done.length) Q E r ↔
      Q (vp8.s ≠ 0 ∧ vp8.pid = 0 ∧ b &&& 0x01 = 0 : Bool) r := by
  have hbyte : packet[done.length]? = some b := by simp [h]
  rw [readKey]
  by_cases hfirst : vp8.s ≠ 0 ∧ vp8.pid = 0
  · have hkey : (vp8.s ≠ 0 ∧ vp8.pid = 0 ∧ b &&& 0x01 = 0) ↔ b &&& 0x01 = 0 := by
      rw [← and_assoc, and_iff_right hfirst]
    simp only [if_pos hfirst, wp_bind, wp_byteAt hbyte, wp_pure, hkey]
  · have hnot : ¬(vp8.s ≠ 0 ∧ vp8.pid = 0 ∧ b &&& 0x01 = 0) := fun h => hfirst ⟨h.1, h.2.1⟩
    simp only [if_neg hfirst, wp_pure, decide_eq_false hnot]

theorem wp_parseLayers {packet done rest : Bytes} {vp8 : Vp8Header} {tl0 tk : Option UInt8}
    {body : UInt8} (htl0 : tl0.isSome ↔ vp8.l = 1) (htk : tk.isSome ↔ vp8.t = 1 ∨ vp8.k = 1)
    (hpacket : packet = done ++ (tl0.toList ++ (tk.toList ++ body :: rest)))
    {E : Fault → BitReader → Prop} {Q : Option MediaMeta → BitReader → Prop} :
    wp (parseLayers packet rid rotation vp8 done.length) Q E
        (past done (tl0.toList ++ (tk.toList ++ body :: rest))) ↔
      Q (some (.vp8 (vp8.s ≠ 0 ∧ vp8.pid = 0 ∧ body &&& 0x01 = 0 : Bool)
          (simOf (withTidKeyIdx (withTl0PicIdx vp8 tl0) tk) rid) rotation))
        (past (done ++ tl0.toList ++ tk.toList) (body :: rest)) := by
  have hlength : packet.length =
      done.length + (tl0.toList.length + (tk.toList.length + (rest.length + 1))) := by
    simp only [hpacket, List.length_append, List.length_cons]
  have hbefore : packet = (done ++ tl0.toList ++ tk.toList) ++ body :: rest := by
    simp only [hpacket, List.append_assoc]
  have hindex : done.length + tl0.toList.length + tk.toList.length =
      (done ++ tl0.toList ++ tk.toList).length := by
    simp only [List.length_append]
  have htk' : tk.isSome ↔ (withTl0PicIdx vp8 tl0).t = 1 ∨ (withTl0PicIdx vp8 tl0).k = 1 := htk
  rw [parseLayers, if_neg (by omega), wp_bind, wp_readTl0PicIdx htl0]
  dsimp only
  rw [if_neg (by omega), wp_bind, wp_readTidKeyIdx htk']
  dsimp only
  rw [if_neg (by omega), hindex, wp_bind, wp_readKey hbefore]
  exact wp_pure

/-- The first half of the parser. -/
theorem wp_parsePacket_head {first : UInt8} {ext : Option UInt8} {p : Option PictureId}
    {packet left : Bytes} (hext : ext.isSome ↔ (required first).x = 1)
    (hid : p.isSome ↔ (extended first ext).i = 1)
    (hpacket : packet = first :: (ext.toList ++ (idBytes p ++ left))) (hlen : 4 ≤ packet.length)
    {E : Fault → BitReader → Prop} {Q : Option MediaMeta → BitReader → Prop} :
    wp (parsePacket packet rid rotation) Q E (past [] packet) ↔
      wp (parseLayers packet rid rotation (withPictureId (extended first ext) p)
          (first :: (ext.toList ++ idBytes p)).length) Q E
        (past (first :: (ext.toList ++ idBytes p)) left) := by
  have hover : past [] packet = past [] (first :: (ext.toList ++ (idBytes p ++ left))) := by
    rw [hpacket]
  have hindex : 1 + ext.toList.length + (idBytes p).length =
      (first :: (ext.toList ++ idBytes p)).length := by
    simp only [List.length_cons, List.length_append]
    omega
  rw [parsePacket, if_neg (by omega), wp_bind, hover, wp_getU8_cons, wp_bind,
    wp_readExtension hext, wp_bind]
  dsimp only
  rw [wp_readPictureId hid, hindex]
  simp only [List.nil_append, List.cons_append]

/-- The parser reads every layout. -/
theorem wp_parsePacket (d : Layout) (hlen : 4 ≤ d.bytes.length)
    {E : Fault → BitReader → Prop} :
    wp (parsePacket d.bytes rid rotation) (fun m _ => m = some (d.mediaMeta rid rotation)) E
      (past [] d.bytes) := by
  have hpacket : d.bytes = (d.first :: (d.ext.toList ++ idBytes d.pictureId)) ++
      (d.tl0.toList ++ (d.tk.toList ++ d.body :: d.rest)) := by
    simp only [Layout.bytes, List.append_assoc, List.cons_append]
  have hbytes : d.bytes = d.first :: (d.ext.toList ++ (idBytes d.pictureId ++
      (d.tl0.toList ++ (d.tk.toList ++ d.body :: d.rest)))) := rfl
  have htl0 : d.tl0.isSome ↔ (withPictureId (extended d.first d.ext) d.pictureId).l = 1 := d.htl0
  have htk : d.tk.isSome ↔ (withPictureId (extended d.first d.ext) d.pictureId).t = 1 ∨
      (withPictureId (extended d.first d.ext) d.pictureId).k = 1 := d.htk
  rw [wp_parsePacket_head d.hext d.hid hbytes hlen, wp_parseLayers htl0 htk hpacket]
  rfl

/-! ### Every payload is read -/

/-- As many bytes as the parser may read before its first check of the index. -/
theorem exists_idBytes (c : Prop) [Decidable c] {left : Bytes} (h : c → 2 ≤ left.length) :
    ∃ p left', left = idBytes p ++ left' ∧ (p.isSome ↔ c) := by
  by_cases hc : c
  · match left, h hc with
    | b :: b' :: left, _ =>
      by_cases hwidth : b.toNat < 128
      · obtain ⟨p, hp, _⟩ := exists_short hwidth
        exact ⟨some p, b' :: left, by rw [idBytes, Option.elim_some, hp]; rfl, by simp [hc]⟩
      · obtain ⟨p, hp, _⟩ := exists_long (Nat.le_of_not_lt hwidth) b'
        exact ⟨some p, left, by rw [idBytes, Option.elim_some, hp]; rfl, by simp [hc]⟩
  · exact ⟨none, left, rfl, by simp [hc]⟩

theorem exists_byte (c : Prop) [Decidable c] {left : Bytes} (h : c → left ≠ []) :
    ∃ (o : Option UInt8) (left' : Bytes), left = o.toList ++ left' ∧ (o.isSome ↔ c) := by
  by_cases hc : c
  · match left, h hc with
    | b :: left, _ => exact ⟨some b, left, rfl, by simp [hc]⟩
  · exact ⟨none, left, rfl, by simp [hc]⟩

/-- The second half of the parser refuses a payload that ends with the descriptor. -/
theorem wp_parseLayers_cases {packet done left : Bytes} {vp8 : Vp8Header}
    (hpacket : packet = done ++ left) {E : Fault → BitReader → Prop}
    {Q : Option MediaMeta → BitReader → Prop} (hnone : ∀ r, Q none r)
    (hsome : ∀ (tl0 tk : Option UInt8) (body : UInt8) (rest : Bytes), left = tl0.toList ++ (tk.toList ++ body :: rest) →
      (tl0.isSome ↔ vp8.l = 1) → (tk.isSome ↔ vp8.t = 1 ∨ vp8.k = 1) →
      wp (parseLayers packet rid rotation vp8 done.length) Q E (past done left)) :
    wp (parseLayers packet rid rotation vp8 done.length) Q E (past done left) := by
  have hlength : packet.length = done.length + left.length := by
    rw [hpacket, List.length_append]
  by_cases hleft : left = []
  · rw [parseLayers, if_pos (by simp [hlength, hleft]), wp_pure]
    exact hnone _
  have hpos : 0 < left.length := List.length_pos_iff.mpr hleft
  obtain ⟨tl0, second, hsplit, htl0⟩ := exists_byte (vp8.l = 1) (fun _ => hleft)
  by_cases hsecond : second = []
  · rw [parseLayers, if_neg (by omega), wp_bind, hsplit, wp_readTl0PicIdx htl0]
    dsimp only
    rw [if_pos (by simp [hlength, hsplit, hsecond]), wp_pure]
    exact hnone _
  obtain ⟨tk, third, hsplit', htk⟩ := exists_byte (vp8.t = 1 ∨ vp8.k = 1) (fun _ => hsecond)
  match third with
  | [] =>
    have htk' : tk.isSome ↔ (withTl0PicIdx vp8 tl0).t = 1 ∨ (withTl0PicIdx vp8 tl0).k = 1 := htk
    have hpos' : 0 < second.length := List.length_pos_iff.mpr hsecond
    rw [hsplit, List.length_append] at hlength
    rw [parseLayers, if_neg (by omega), wp_bind, hsplit, wp_readTl0PicIdx htl0]
    dsimp only
    rw [if_neg (by omega), wp_bind, hsplit', wp_readTidKeyIdx htk']
    dsimp only
    rw [if_pos (by rw [hlength, hsplit', List.append_nil]; omega), wp_pure]
    exact hnone _
  | body :: rest => exact hsome tl0 tk body rest (by rw [hsplit, hsplit']) htl0 htk

/-- A payload is refused, or it is a layout. -/
theorem wp_parsePacket_cases (packet : Bytes) {E : Fault → BitReader → Prop} :
    wp (parsePacket packet rid rotation)
      (fun m _ => m = none ∨
        ∃ d : Layout, d.bytes = packet ∧ m = some (d.mediaMeta rid rotation)) E
      (past [] packet) := by
  by_cases hshort : packet.length < 4
  · rw [parsePacket, if_pos hshort, wp_pure]
    exact Or.inl rfl
  have hlen : 4 ≤ packet.length := Nat.le_of_not_lt hshort
  match packet, hlen with
  | first :: packet, hlen =>
    have hthree : 3 ≤ packet.length := Nat.le_of_succ_le_succ hlen
    obtain ⟨ext, left, rfl, hext⟩ := exists_byte ((required first).x = 1)
      (fun _ => List.ne_nil_of_length_pos (Nat.lt_of_lt_of_le (by decide) hthree))
    have hone : ext.toList.length ≤ 1 := by cases ext <;> simp
    rw [List.length_append] at hthree
    have htwo : 2 ≤ left.length := by omega
    obtain ⟨p, left, rfl, hid⟩ := exists_idBytes ((extended first ext).i = 1) (fun _ => htwo)
    rw [wp_parsePacket_head hext hid rfl hlen]
    refine wp_parseLayers_cases (by simp) (fun _ => Or.inl rfl) ?_
    rintro tl0 tk body rest rfl htl0 htk
    rw [← wp_parsePacket_head hext hid rfl hlen]
    let d : Layout := ⟨first, ext, p, tl0, tk, body, rest, hext, hid, htl0, htk⟩
    exact wp_mono (wp_parsePacket d hlen) (fun _ _ hm => Or.inr ⟨d, rfl, hm⟩) (fun _ _ h => h)

end

/-! ### What the rewriter does on a layout -/

/-- The layout with the picture id and the `TL0PICIDX` of another layer info. -/
def Layout.rewritten (d : Layout) (sim : Vp8Sim) : Layout :=
  { d with
    pictureId := d.pictureId.map fun p => p.replace (sim.pictureId.getD 0)
    tl0 := d.tl0.map fun _ => sim.tl0PicIdx.getD 0
    hid := by rw [Option.isSome_map]; exact d.hid
    htl0 := by rw [Option.isSome_map]; exact d.htl0 }

theorem controlBits_cons {first : UInt8} {ext : Option UInt8} {left : Bytes}
    (h : ext.isSome ↔ (required first).x = 1) :
    controlBits (first :: (ext.toList ++ left)) =
      .ok ((extended first ext).i, (extended first ext).l, 1 + ext.toList.length) := by
  cases ext with
  | none =>
    have hx : ¬(first &&& 0x80) >>> 7 = 1 := fun hx => nomatch h.mpr hx
    simp only [controlBits, payloadAt, List.getElem?_cons_zero, bind, Except.bind, if_neg hx]
    rfl
  | some e =>
    have hx : (first &&& 0x80) >>> 7 = 1 := h.mp rfl
    simp only [controlBits, payloadAt, List.getElem?_cons_zero, bind, Except.bind, if_pos hx]
    rfl

/-- The last byte that the rewriter writes. -/
theorem setTl0PicIdx_append {c : Prop} [Decidable c] {tl0 : Option UInt8} (h : tl0.isSome ↔ c)
    (done left : Bytes) (b : UInt8) :
    (if c then setPayload (done ++ (tl0.toList ++ left)) done.length b
      else pure (done ++ (tl0.toList ++ left))) =
      .ok (done ++ ((tl0.map fun _ => b).toList ++ left)) := by
  cases tl0 with
  | none =>
    have hc : ¬c := fun hc => nomatch h.mpr hc
    rw [if_neg hc]
    rfl
  | some old =>
    rw [if_pos (h.mp rfl)]
    exact setPayload_append done left old b

/-- The rewriter's own walk comes to the same places as the parser's. -/
theorem rewriteRtp_bytes (d : Layout) (sim : Vp8Sim) :
    rewriteRtp d.bytes sim = .ok (d.rewritten sim).bytes := by
  have hindex : 1 + d.ext.toList.length = (d.first :: d.ext.toList).length := by
    rw [List.length_cons, Nat.add_comm]
  have hid := rewriteId_append (d.hid.trans decide_eq_true_iff.symm) (d.first :: d.ext.toList)
    (d.tl0.toList ++ (d.tk.toList ++ d.body :: d.rest)) (sim.pictureId.getD 0)
  have htl0 := setTl0PicIdx_append d.htl0
    (d.first :: d.ext.toList ++ idBytes (d.rewritten sim).pictureId)
    (d.tk.toList ++ d.body :: d.rest) (sim.tl0PicIdx.getD 0)
  have hlength : (d.first :: d.ext.toList ++ idBytes (d.rewritten sim).pictureId).length =
      (d.first :: d.ext.toList).length + (idBytes d.pictureId).length := by
    rw [List.length_append, Layout.rewritten, length_idBytes_replace]
  rw [hlength] at htl0
  simp only [List.append_assoc, List.cons_append] at hid htl0
  simp only [rewriteRtp, Layout.bytes, controlBits_cons d.hext, bind, Except.bind, hindex, hid]
  exact htl0

/-! ### Parsing and rewriting -/

section

variable {rid : Option UInt8} {rotation : Option MediaOrientation}

/-- The parser never panics. -/
theorem exists_parseRtp (packet : Bytes) : ∃ m, parseRtp packet rid rotation = .ok m := by
  obtain ⟨m, hm, _⟩ := parse_eq_some (wp_parsePacket_cases packet)
  exact ⟨m, by rw [parseRtp, hm]; rfl⟩

theorem parseRtp_bytes (d : Layout) (hlen : 4 ≤ d.bytes.length) :
    parseRtp d.bytes rid rotation = .ok (some (d.mediaMeta rid rotation)) := by
  obtain ⟨m, hm, rfl⟩ := parse_eq_some (wp_parsePacket d hlen)
  rw [parseRtp, hm]
  rfl

/-- What the parser accepts is a layout. -/
theorem parseRtp_eq_some {packet : Bytes} {m : MediaMeta}
    (h : parseRtp packet rid rotation = .ok (some m)) :
    ∃ d : Layout, d.bytes = packet ∧ 4 ≤ d.bytes.length ∧ m = d.mediaMeta rid rotation := by
  have hshort : ¬packet.length < 4 := by
    intro hshort
    have hnone : wp (parsePacket packet rid rotation) (fun m _ => m = none) (fun _ _ => False)
        (past [] packet) := by
      rw [parsePacket, if_pos hshort, wp_pure]
    obtain ⟨m', hm', hnone⟩ := parse_eq_some hnone
    rw [parseRtp, hm', hnone] at h
    exact nomatch h
  obtain ⟨m', hm', hcases⟩ := parse_eq_some (wp_parsePacket_cases packet)
  rw [parseRtp, hm'] at h
  have hjoin : m' = some m := Except.ok.inj h
  rcases hcases with hnone | ⟨d, hbytes, hsome⟩
  · rw [hnone] at hjoin
    exact nomatch hjoin
  · refine ⟨d, hbytes, by rw [hbytes]; omega, ?_⟩
    rw [hjoin] at hsome
    exact Option.some.inj hsome

/-- A flag is zero or one. -/
theorem flag_ne_zero {b m s : UInt8} {k : Nat} (hm : m.toNat = 2 ^ k) (hs : s.toNat = k)
    (hk : k < 8) : (b &&& m) >>> s ≠ 0 ↔ (b &&& m) >>> s = 1 := by
  have hvalue := toNat_and_shiftRight (b := b) hm hs hk
  rw [Ne, ← UInt8.toNat_inj, ← UInt8.toNat_inj, hvalue]
  change ¬_ = 0 ↔ _ = 1
  omega

/-- The layer info of a layout. -/
theorem simOf_header (d : Layout) :
    simOf d.header rid =
      if d.header.t = 1 then
        some ⟨d.pictureId.map PictureId.value, d.tl0, rid.getD 0, d.header.tid, d.header.y ≠ 0⟩
      else none := by
  have hi : d.header.i ≠ 0 ↔ d.pictureId.isSome :=
    (flag_ne_zero (k := 7) rfl rfl (by decide)).trans d.hid.symm
  have hl : d.header.l ≠ 0 ↔ d.tl0.isSome :=
    (flag_ne_zero (k := 6) rfl rfl (by decide)).trans d.htl0.symm
  have hpictureId : (if d.header.i ≠ 0 then some d.header.pictureId else none) =
      d.pictureId.map PictureId.value := by
    rw [if_congr hi rfl rfl, Layout.header]
    cases d.pictureId <;> rfl
  have htl0 : (if d.header.l ≠ 0 then some d.header.tl0PicIdx else none) = d.tl0 := by
    rw [if_congr hl rfl rfl, Layout.header]
    cases d.tl0 <;> rfl
  rw [simOf, hpictureId, htl0]

/-- The places of the picture id and the `TL0PICIDX` in a payload. -/
def idAt (payload : Bytes) : Bool := bitAt payload 0 7 && bitAt payload 1 7

def idLen (payload : Bytes) : Nat := if idAt payload then idLength payload 2 else 0

def tl0Len (payload : Bytes) : Nat := if bitAt payload 0 7 && bitAt payload 1 6 then 1 else 0

theorem bitAt_zero_bytes (d : Layout) : bitAt d.bytes 0 7 = d.ext.isSome := by
  have hbit := (and_shiftRight_eq_one (b := d.first) (m := 0x80) (s := 7) (k := 7) rfl rfl
    (by decide)).symm.trans d.hext.symm
  exact Bool.eq_iff_iff.mpr (decide_eq_true_iff.trans hbit)

/-- The bits that announce the two fields. -/
theorem bitAt_ext {d : Layout} {c : Bool} {m s : UInt8} {k : Nat} (hm : m.toNat = 2 ^ k)
    (hs : s.toNat = k) (hk : k < 8) (hc : c ↔ (d.ext.getD 0 &&& m) >>> s = 1) :
    (bitAt d.bytes 0 7 && bitAt d.bytes 1 k) = c := by
  rw [and_shiftRight_eq_one hm hs hk] at hc
  rw [bitAt_zero_bytes]
  obtain ⟨first, ext, p, tl0, tk, body, rest, hext, hid, htl0, htk⟩ := d
  cases ext with
  | none =>
    have hzero : c = false := by
      rw [Bool.eq_false_iff, Ne, hc]
      simp
    rw [hzero]
    rfl
  | some e => exact Bool.eq_iff_iff.mpr (decide_eq_true_iff.trans hc.symm)

theorem idAt_bytes (d : Layout) : idAt d.bytes = d.pictureId.isSome :=
  bitAt_ext (s := 7) rfl rfl (by decide) d.hid

theorem tl0Len_bytes (d : Layout) : tl0Len d.bytes = d.tl0.toList.length := by
  have hbit : (bitAt d.bytes 0 7 && bitAt d.bytes 1 6) = d.tl0.isSome :=
    bitAt_ext (s := 6) rfl rfl (by decide) d.htl0
  rw [tl0Len, hbit]
  cases d.tl0 <;> rfl

/-- Where there is a picture id, there are control bits before it. -/
theorem bytes_of_pictureId {d : Layout} {p : PictureId} (h : d.pictureId = some p) :
    ∃ e, d.bytes = [d.first, e] ++
      (p.bytes ++ (d.tl0.toList ++ (d.tk.toList ++ d.body :: d.rest))) := by
  obtain ⟨first, ext, pictureId, tl0, tk, body, rest, hext, hid, htl0, htk⟩ := d
  subst h
  cases ext with
  | none => exact nomatch hid.mp rfl
  | some e => exact ⟨e, rfl⟩

theorem idLen_bytes (d : Layout) : idLen d.bytes = (idBytes d.pictureId).length := by
  rw [idLen, idAt_bytes]
  cases hp : d.pictureId with
  | none => rfl
  | some p =>
    obtain ⟨e, hbytes⟩ := bytes_of_pictureId hp
    rw [hbytes]
    exact idLength_append [d.first, e] _ p

/-- The bytes of the two fields are the only ones that change. -/
theorem getElem?_rewritten (d : Layout) (sim : Vp8Sim) {i : Nat}
    (hi : i < 2 ∨ 2 + (idLen d.bytes + tl0Len d.bytes) ≤ i) :
    (d.rewritten sim).bytes[i]? = d.bytes[i]? := by
  rw [idLen_bytes, tl0Len_bytes] at hi
  obtain ⟨first, ext, p, tl0, tk, body, rest, hext, hid, htl0, htk⟩ := d
  cases ext with
  | none =>
    cases p with
    | some p => exact nomatch hid.mp rfl
    | none =>
      cases tl0 with
      | some b => exact nomatch htl0.mp rfl
      | none => rfl
  | some e =>
    have hlength : (idBytes (p.map fun p => p.replace (sim.pictureId.getD 0)) ++
          (tl0.map fun _ => sim.tl0PicIdx.getD 0).toList).length =
        (idBytes p ++ tl0.toList).length := by
      rw [List.length_append, List.length_append, length_idBytes_replace]
      cases tl0 <;> rfl
    have hcongr := getElem?_append_congr [first, e] (tk.toList ++ body :: rest)
      hlength (i := i) (by rw [List.length_append]; exact hi)
    simp only [List.append_assoc] at hcongr
    exact hcongr

theorem length_rewritten (d : Layout) (sim : Vp8Sim) :
    (d.rewritten sim).bytes.length = d.bytes.length := by
  simp only [Layout.bytes, Layout.rewritten, List.length_cons, List.length_append,
    length_idBytes_replace]
  cases d.tl0 <;> rfl

theorem map_value_rewritten (d : Layout) (sim : Vp8Sim)
    (h : sim.pictureId.isSome = d.pictureId.isSome) :
    (d.rewritten sim).pictureId.map PictureId.value = sim.pictureId.map (wrapId d.bytes 2) := by
  have hrewritten : (d.rewritten sim).pictureId =
      d.pictureId.map fun p => p.replace (sim.pictureId.getD 0) := rfl
  rw [hrewritten]
  cases hp : d.pictureId with
  | none =>
    rw [hp, Option.isSome_none, Option.isSome_eq_false_iff, Option.isNone_iff_eq_none] at h
    rw [h]
    rfl
  | some p =>
    rw [hp, Option.isSome_some, Option.isSome_iff_exists] at h
    obtain ⟨id, hid⟩ := h
    obtain ⟨e, hbytes⟩ := bytes_of_pictureId hp
    rw [hid, hbytes]
    exact congrArg some (value_replace [d.first, e] _ p id)

theorem tl0_rewritten (d : Layout) (sim : Vp8Sim) (h : sim.tl0PicIdx.isSome = d.tl0.isSome) :
    (d.rewritten sim).tl0 = sim.tl0PicIdx := by
  have hrewritten : (d.rewritten sim).tl0 = d.tl0.map fun _ => sim.tl0PicIdx.getD 0 := rfl
  rw [hrewritten]
  cases htl0 : d.tl0 with
  | none =>
    rw [htl0, Option.isSome_none, Option.isSome_eq_false_iff, Option.isNone_iff_eq_none] at h
    exact h.symm
  | some b =>
    rw [htl0, Option.isSome_some, Option.isSome_iff_exists] at h
    obtain ⟨tl0, htl0⟩ := h
    rw [htl0]
    rfl

/-- The layer info of the rewritten layout. -/
theorem simOf_rewritten {d : Layout} {sim : Vp8Sim} (h : simOf d.header rid = some sim)
    {id : Option UInt16} {tl0 : Option UInt8} (hid : id.isSome = sim.pictureId.isSome)
    (htl0 : tl0.isSome = sim.tl0PicIdx.isSome) :
    simOf (d.rewritten { sim with pictureId := id, tl0PicIdx := tl0 }).header rid =
      some { sim with pictureId := id.map (wrapId d.bytes 2), tl0PicIdx := tl0 } := by
  rw [simOf_header] at h ⊢
  split at h
  case isFalse => exact nomatch h
  case isTrue ht =>
    have hsim := Option.some.inj h
    have hpictureId : d.pictureId.map PictureId.value = sim.pictureId := congrArg Vp8Sim.pictureId hsim
    have htl0' : d.tl0 = sim.tl0PicIdx := congrArg Vp8Sim.tl0PicIdx hsim
    rw [← hpictureId, Option.isSome_map] at hid
    rw [← htl0'] at htl0
    rw [if_pos (show (d.rewritten _).header.t = 1 from ht), map_value_rewritten d _ hid,
      tl0_rewritten d _ htl0, ← hsim]
    rfl

/-- The width bit stays. -/
theorem bitAt_rewritten (d : Layout) (sim : Vp8Sim) {p : PictureId} (hp : d.pictureId = some p) :
    bitAt (d.rewritten sim).bytes 2 7 = bitAt d.bytes 2 7 := by
  have hp' : (d.rewritten sim).pictureId = some (p.replace (sim.pictureId.getD 0)) :=
    congrArg (Option.map _) hp
  obtain ⟨e, hbytes⟩ := bytes_of_pictureId hp
  obtain ⟨e', hbytes'⟩ := bytes_of_pictureId hp'
  have hwidth := bitAt_width [d.first, e] (d.tl0.toList ++ (d.tk.toList ++ d.body :: d.rest)) p
  have hwidth' := bitAt_width [(d.rewritten sim).first, e'] ((d.rewritten sim).tl0.toList ++
    ((d.rewritten sim).tk.toList ++ (d.rewritten sim).body :: (d.rewritten sim).rest))
    (p.replace (sim.pictureId.getD 0))
  rw [p.length_bytes_replace, ← hwidth, ← hbytes, ← hbytes'] at hwidth'
  exact hwidth'

/-- A payload with layer info, rewritten and parsed again. -/
theorem parseRtp_rewriteRtp {payload : Bytes} {key : Bool} {sim : Vp8Sim}
    {rotation' : Option MediaOrientation}
    (h : parseRtp payload rid rotation = .ok (some (.vp8 key (some sim) rotation')))
    {id : Option UInt16} {tl0 : Option UInt8} (hid : id.isSome = sim.pictureId.isSome)
    (htl0 : tl0.isSome = sim.tl0PicIdx.isSome) :
    ∃ out, rewriteRtp payload { sim with pictureId := id, tl0PicIdx := tl0 } = .ok out ∧
      out.length = payload.length ∧
      (∀ i, (i < 2 ∨ 2 + (idLen payload + tl0Len payload) ≤ i) → out[i]? = payload[i]?) ∧
      (idAt payload → bitAt out 2 7 = bitAt payload 2 7) ∧
      parseRtp out rid rotation =
        .ok (some (.vp8 key
          (some { sim with pictureId := id.map (wrapId payload 2), tl0PicIdx := tl0 })
          rotation')) := by
  obtain ⟨d, rfl, hlen, hmeta⟩ := parseRtp_eq_some h
  have hsim : simOf d.header rid = some sim := (MediaMeta.vp8.inj hmeta).2.1.symm
  refine ⟨_, rewriteRtp_bytes d _, length_rewritten d _, fun i => getElem?_rewritten d _, ?_, ?_⟩
  · intro hpresent
    rw [idAt_bytes] at hpresent
    obtain ⟨p, hp⟩ := Option.isSome_iff_exists.mp hpresent
    exact bitAt_rewritten d _ hp
  · rw [parseRtp_bytes _ (by rw [length_rewritten]; exact hlen), Layout.mediaMeta,
      simOf_rewritten hsim hid htl0, (MediaMeta.vp8.inj hmeta).1, (MediaMeta.vp8.inj hmeta).2.2]
    rfl

end

end Vp8

end MediaServer.Transport.Payload
