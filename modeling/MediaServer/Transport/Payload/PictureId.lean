import MediaServer.Transport.Payload.BitRead

/-!
# Picture ids

Both payload formats write a picture id as seven or fifteen bits after a width bit.  The two
parsers and the two rewriters treat it alike, so what they do is stated once.
-/

namespace MediaServer.Transport.Payload

open Fallible

/-- Indexing of a payload, which is checked. -/
def payloadAt (payload : Bytes) (index : Nat) : Except Panic UInt8 :=
  match payload[index]? with
  | none => .error indexOutOfBounds
  | some b => .ok b

def setPayload (payload : Bytes) (index : Nat) (b : UInt8) : Except Panic Bytes :=
  if index < payload.length then .ok (payload.set index b) else .error indexOutOfBounds

/-- The branch `i` of `rewrite_rtp`, which moves the index behind the picture id. -/
def rewritePictureId (payload : Bytes) (index : Nat) (id : UInt16) :
    Except Panic (Bytes × Nat) := do
  let b ← payloadAt payload index
  if 0 < b &&& 0x80 then
    let payload ← setPayload payload index ((0x80 : UInt8) ||| (id >>> 8).toUInt8)
    let payload ← setPayload payload (index + 1) id.toUInt8
    pure (payload, index + 2)
  else
    let payload ← setPayload payload index ((0x7F : UInt8) &&& id.toUInt8)
    pure (payload, index + 1)

/-- The part `has PictureID` of `rewrite_rtp`. -/
def rewriteId (present : Bool) (payload : Bytes) (index : Nat) (id : UInt16) :
    Except Panic (Bytes × Nat) :=
  if present then rewritePictureId payload index id else pure (payload, index)

/-! ### The two widths -/

inductive PictureId where
  | short (id : Fin 128)
  | long (id : Fin 32768)

namespace PictureId

def bytes : PictureId → Bytes
  | .short id => [UInt8.ofNat id]
  | .long id => [UInt8.ofNat (128 + id / 256), UInt8.ofNat (id % 256)]

def value : PictureId → UInt16
  | .short id => UInt16.ofNat id
  | .long id => UInt16.ofNat id

/-- The same width with another id, as far as it fits. -/
def replace (p : PictureId) (id : UInt16) : PictureId :=
  match p with
  | .short _ => .short ⟨id.toNat % 128, Nat.mod_lt _ (by decide)⟩
  | .long _ => .long ⟨id.toNat % 32768, Nat.mod_lt _ (by decide)⟩

@[simp] theorem length_bytes_replace (p : PictureId) (id : UInt16) :
    (p.replace id).bytes.length = p.bytes.length := by
  cases p <;> rfl

end PictureId

/-- The bytes of a picture id that may be absent. -/
def idBytes (p : Option PictureId) : Bytes := p.elim [] PictureId.bytes

theorem length_idBytes_replace (p : Option PictureId) (id : UInt16) :
    (idBytes (p.map fun p => p.replace id)).length = (idBytes p).length := by
  cases p with
  | none => rfl
  | some p => exact p.length_bytes_replace id

/-! ### Reading and writing them -/

theorem width_bit {b : UInt8} : 0 < b &&& 0x80 ↔ 128 ≤ b.toNat := by
  have hbit := and_ne_zero (b := b) (m := 0x80) (k := 7) rfl
  have hlt := b.toNat_lt
  rw [UInt8.pos_iff_ne_zero, hbit]
  omega

/-- Reads a long id from its two bytes, as both parsers do. -/
def longValue (hi lo : UInt8) : UInt16 := (hi &&& 0x7f).toUInt16 <<< 8 ||| lo.toUInt16

theorem toNat_and_7f (b : UInt8) : (b &&& 0x7f).toNat = b.toNat % 128 := by
  rw [UInt8.toNat_and]
  exact Nat.and_two_pow_sub_one_eq_mod _ 7

theorem toNat_longValue (hi lo : UInt8) :
    (longValue hi lo).toNat = hi.toNat % 128 * 256 + lo.toNat := by
  have hlo := lo.toNat_lt
  have hshift : ((hi &&& 0x7f).toUInt16 <<< 8).toNat = (hi.toNat % 128) <<< 8 := by
    rw [UInt16.toNat_shiftLeft, UInt8.toNat_toUInt16, toNat_and_7f, Nat.shiftLeft_eq,
      Nat.shiftLeft_eq]
    exact Nat.mod_eq_of_lt (b := 2 ^ 16) (by
      change hi.toNat % 128 * 256 < 65536
      omega)
  rw [longValue, UInt16.toNat_or, hshift, UInt8.toNat_toUInt16,
    ← Nat.shiftLeft_add_eq_or_of_lt hlo, Nat.shiftLeft_eq]

/-- A byte without the width bit is a short id. -/
theorem exists_short {b : UInt8} (h : b.toNat < 128) :
    ∃ p : PictureId, p.bytes = [b] ∧ p.value = b.toUInt16 := by
  refine ⟨.short ⟨b.toNat, h⟩, ?_, ?_⟩
  · simp [PictureId.bytes]
  · apply UInt16.toNat_inj.mp
    simp [PictureId.value]

/-- A byte with the width bit and the next one are a long id. -/
theorem exists_long {hi : UInt8} (h : 128 ≤ hi.toNat) (lo : UInt8) :
    ∃ p : PictureId, p.bytes = [hi, lo] ∧ p.value = longValue hi lo := by
  have hhi := hi.toNat_lt
  have hlo := lo.toNat_lt
  refine ⟨.long ⟨hi.toNat % 128 * 256 + lo.toNat, by omega⟩, ?_, ?_⟩
  · have hfirst : 128 + (hi.toNat % 128 * 256 + lo.toNat) / 256 = hi.toNat := by omega
    have hsecond : (hi.toNat % 128 * 256 + lo.toNat) % 256 = lo.toNat := by omega
    simp [PictureId.bytes, hfirst, hsecond]
  · apply UInt16.toNat_inj.mp
    rw [toNat_longValue]
    simp only [PictureId.value, UInt16.toNat_ofNat']
    omega

/-- The bytes of a picture id, as a parser meets them. -/
theorem PictureId.eq_short_or_long (p : PictureId) :
    (∃ b : UInt8, b.toNat < 128 ∧ p.bytes = [b] ∧ p.value = b.toUInt16) ∨
      ∃ hi lo : UInt8, 128 ≤ hi.toNat ∧ p.bytes = [hi, lo] ∧ p.value = longValue hi lo := by
  cases p with
  | short id =>
    have hid := id.isLt
    refine Or.inl ⟨UInt8.ofNat id, ?_, rfl, ?_⟩
    · rw [UInt8.toNat_ofNat']
      omega
    · apply UInt16.toNat_inj.mp
      simp only [PictureId.value, UInt16.toNat_ofNat', UInt8.toNat_toUInt16, UInt8.toNat_ofNat']
      omega
  | long id =>
    have hid := id.isLt
    refine Or.inr ⟨UInt8.ofNat (128 + id / 256), UInt8.ofNat (id % 256), ?_, rfl, ?_⟩
    · rw [UInt8.toNat_ofNat']
      omega
    · apply UInt16.toNat_inj.mp
      rw [toNat_longValue]
      simp only [PictureId.value, UInt16.toNat_ofNat', UInt8.toNat_ofNat']
      omega

theorem nat_or_128 {n : Nat} (h : n < 256) : 128 ||| n = 128 + n % 128 := by
  have hor : ∀ m < 128, 128 ||| m = 128 + m := fun m hm =>
    (Nat.two_pow_add_eq_or_of_lt (i := 7) hm 1).symm
  rcases Nat.lt_or_ge n 128 with hlt | hge
  · rw [hor n hlt, Nat.mod_eq_of_lt hlt]
  · have hmod : n % 128 = n - 128 := by omega
    rw [show n = 128 + (n - 128) by omega, ← hor (n - 128) (by omega), ← Nat.or_assoc, Nat.or_self,
      hor _ (by omega)]
    omega

theorem payloadAt_append (done left : Bytes) (b : UInt8) :
    payloadAt (done ++ b :: left) done.length = .ok b := by
  simp [payloadAt]

theorem setPayload_append (done left : Bytes) (old b : UInt8) :
    setPayload (done ++ old :: left) done.length b = .ok (done ++ b :: left) := by
  simp [setPayload]

/-- Whether a bit of a payload is set. -/
def bitAt (payload : Bytes) (i k : Nat) : Bool := (payload.getD i 0).toNat / 2 ^ k % 2 = 1

/-- The length of a picture id that starts at an index. -/
def idLength (payload : Bytes) (index : Nat) : Nat := if bitAt payload index 7 then 2 else 1

theorem getElem?_append_congr (before after : Bytes) {mid mid' : Bytes} (h : mid'.length = mid.length)
    {i : Nat} (hi : i < before.length ∨ before.length + mid.length ≤ i) :
    (before ++ (mid' ++ after))[i]? = (before ++ (mid ++ after))[i]? := by
  rcases hi with hi | hi
  · rw [List.getElem?_append_left hi, List.getElem?_append_left hi]
  · rw [List.getElem?_append_right (by omega), List.getElem?_append_right (by omega),
      List.getElem?_append_right (by omega), List.getElem?_append_right (by omega), h]

theorem bitAt_append {done left : Bytes} {b : UInt8} {k : Nat} :
    bitAt (done ++ b :: left) done.length k = decide (b.toNat / 2 ^ k % 2 = 1) := by
  simp [bitAt]

/-- The width bit is the top bit of the first byte. -/
theorem bitAt_width (done left : Bytes) (p : PictureId) :
    bitAt (done ++ (p.bytes ++ left)) done.length 7 = decide (p.bytes.length = 2) := by
  rcases p.eq_short_or_long with ⟨b, hwidth, hbytes, _⟩ | ⟨hi, lo, hwidth, hbytes, _⟩
  · rw [hbytes, List.singleton_append, bitAt_append]
    simp only [List.length_singleton]
    exact decide_eq_decide.mpr (by omega)
  · have hlt := hi.toNat_lt
    have hbit : hi.toNat / 2 ^ 7 % 2 = 1 := by omega
    rw [hbytes, List.cons_append, bitAt_append, decide_eq_true hbit]
    rfl

theorem idLength_append (done left : Bytes) (p : PictureId) :
    idLength (done ++ (p.bytes ++ left)) done.length = p.bytes.length := by
  rw [idLength, bitAt_width]
  cases p <;> rfl

/-- A picture id as far as it fits into the width that a payload has for it. -/
def wrapId (payload : Bytes) (index : Nat) (id : UInt16) : UInt16 :=
  UInt16.ofNat (id.toNat % if bitAt payload index 7 then 2 ^ 15 else 2 ^ 7)

theorem value_replace (done left : Bytes) (p : PictureId) (id : UInt16) :
    (p.replace id).value = wrapId (done ++ (p.bytes ++ left)) done.length id := by
  rw [wrapId, bitAt_width]
  cases p <;> rfl

/-- A rewritten picture id keeps its width and its place. -/
theorem rewritePictureId_append (done left : Bytes) (p : PictureId) (id : UInt16) :
    rewritePictureId (done ++ (p.bytes ++ left)) done.length id =
      .ok (done ++ ((p.replace id).bytes ++ left), done.length + p.bytes.length) := by
  have hid := id.toNat_lt
  cases p with
  | short old =>
    have hold : (UInt8.ofNat old).toNat < 128 := by
      rw [UInt8.toNat_ofNat']
      omega
    have hnew : (0x7F : UInt8) &&& id.toUInt8 = UInt8.ofNat (id.toNat % 128) := by
      apply UInt8.toNat_inj.mp
      rw [UInt8.and_comm, toNat_and_7f, UInt16.toNat_toUInt8, UInt8.toNat_ofNat']
      omega
    simp only [PictureId.bytes, PictureId.replace, List.singleton_append, rewritePictureId,
      payloadAt_append, bind, Except.bind]
    rw [if_neg (by rw [width_bit]; omega), setPayload_append, hnew]
    rfl
  | long old =>
    have hold : 128 ≤ (UInt8.ofNat (128 + old / 256)).toNat := by
      rw [UInt8.toNat_ofNat']
      omega
    have hhi : (0x80 : UInt8) ||| (id >>> 8).toUInt8 =
        UInt8.ofNat (128 + id.toNat % 32768 / 256) := by
      apply UInt8.toNat_inj.mp
      have hor := nat_or_128 (id >>> 8).toUInt8.toNat_lt
      rw [UInt8.toNat_or, UInt8.toNat_ofNat']
      change 128 ||| (id >>> 8).toUInt8.toNat = _
      rw [hor, UInt16.toNat_toUInt8, UInt16.toNat_shiftRight, Nat.shiftRight_eq_div_pow]
      change 128 + id.toNat / 256 % 256 % 128 = _
      omega
    have hlo : id.toUInt8 = UInt8.ofNat (id.toNat % 32768 % 256) := by
      apply UInt8.toNat_inj.mp
      rw [UInt16.toNat_toUInt8, UInt8.toNat_ofNat']
      omega
    simp only [PictureId.bytes, PictureId.replace, List.cons_append, List.nil_append,
      rewritePictureId, payloadAt_append, bind, Except.bind]
    rw [if_pos (width_bit.mpr hold), setPayload_append]
    have hnext := setPayload_append (done ++ [(0x80 : UInt8) ||| (id >>> 8).toUInt8]) left
      (UInt8.ofNat (old % 256)) id.toUInt8
    simp only [List.append_assoc, List.singleton_append, List.length_append, List.length_singleton]
      at hnext
    simp only [hnext]
    rw [hhi, hlo]
    rfl

theorem rewriteId_append {present : Bool} {p : Option PictureId} (h : p.isSome ↔ present)
    (done left : Bytes) (id : UInt16) :
    rewriteId present (done ++ (idBytes p ++ left)) done.length id =
      .ok (done ++ (idBytes (p.map fun p => p.replace id) ++ left),
        done.length + (idBytes p).length) := by
  cases p with
  | none =>
    have habsent : ¬present := fun hpresent => nomatch h.mpr hpresent
    rw [rewriteId, if_neg habsent]
    rfl
  | some p =>
    rw [rewriteId, if_pos (h.mp rfl)]
    exact rewritePictureId_append done left p id

end MediaServer.Transport.Payload
