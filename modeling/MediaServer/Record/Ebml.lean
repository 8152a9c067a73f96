import MediaServer.Lib.Machine
import MediaServer.Protocol
import Mathlib.Algebra.Order.Group.Nat
import Mathlib.Data.Nat.Log
import Mathlib.Tactic.Ring

/-!
# Elements of an EBML file

An element is an id, the size of its data and the data.  Id and size have one to eight bytes; the
number of leading zero bits of the first byte tells how many.  The size is written without the
marker bit.

Positions are natural numbers: a sum that overflows is behind the end of the data, and the source
gives up in both cases.
-/

namespace MediaServer.Record

structure Element where
  id : Nat
  start : Nat
  dataStart : Nat
  dataEnd : Nat
  sizeLen : Nat
deriving DecidableEq, Repr

def Element.totalLen (el : Element) : Nat := el.dataEnd - el.start

/-! ### Reading -/

def vintLen (first : UInt8) : Option Nat :=
  [1, 2, 3, 4, 5, 6, 7, 8].find? fun len => first &&& ((1 : UInt8) <<< (8 - UInt8.ofNat len)) ≠ 0

/-- The loop that takes the bytes of a number into a value. -/
def takeBytes (data : Bytes) (value pos : Nat) : Nat → Option Nat
  | 0 => some value
  | count + 1 =>
    match data[pos]? with
    | none => none
    | some byte => takeBytes data (value * 256 + byte.toNat) (pos + 1) count

def readId (data : Bytes) (pos : Nat) : Option (Nat × Nat) := do
  let first ← data[pos]?
  let len ← vintLen first
  let value ← takeBytes data 0 pos len
  some (value, len)

/-- The marker of a number of the given length. -/
def vintMarker (len : Nat) : UInt8 := (1 : UInt8) <<< (8 - UInt8.ofNat len)

def readVint (data : Bytes) (pos : Nat) : Option (Nat × Nat) := do
  let first ← data[pos]?
  let len ← vintLen first
  let value ← takeBytes data (first &&& ~~~vintMarker len).toNat (pos + 1) (len - 1)
  some (value, len)

def readElement (data : Bytes) (pos : Nat) : Option Element := do
  let (id, idLen) ← readId data pos
  let sizePos := pos + idLen
  let (size, sizeLen) ← readVint data sizePos
  let dataStart := sizePos + sizeLen
  let dataEnd := dataStart + size
  if dataEnd > data.length then none
  else some ⟨id, pos, dataStart, dataEnd, sizeLen⟩

/-- `read_uint`, whose value wraps. -/
def readUint (data : Bytes) : Nat :=
  data.foldl (fun value byte => (value * 256 + byte.toNat) % 2 ^ 64) 0

/-! ### Writing -/

/-- The byte of a number at a position, counted from the least significant one. -/
def byteAt (value i : Nat) : UInt8 := UInt8.ofNat (value / 256 ^ i % 256)

def writeVintSize (value len : Nat) : Option Bytes :=
  if len = 0 ∨ len > 8 then none
  else if value > 2 ^ (7 * len) - 2 then none
  else
    some ((List.range len).reverse.map fun i =>
      if i = len - 1 then byteAt value i ||| vintMarker len else byteAt value i)

def ID_VOID : Nat := 0xec

def voidElement (totalLen : Nat) : Option Bytes :=
  if totalLen = 0 then some []
  else
    [1, 2, 3, 4, 5, 6, 7, 8].findSome? fun sizeLen =>
      if totalLen < 1 + sizeLen then none
      else
        (writeVintSize (totalLen - 1 - sizeLen) sizeLen).map fun size =>
          let out := UInt8.ofNat ID_VOID :: size
          out ++ List.replicate (totalLen - out.length) 0

/-! ### Numbers -/

theorem vintLen_bounds {first : UInt8} {len : Nat} (h : vintLen first = some len) :
    1 ≤ len ∧ len ≤ 8 := by
  have hmem := List.mem_of_find?_eq_some h
  simp only [List.mem_cons, List.not_mem_nil, or_false] at hmem
  omega

/-- A fact about bytes holds when it does for the numbers below 256. -/
theorem forall_byte {P : UInt8 → Prop} (h : ∀ n < 256, P (UInt8.ofNat n)) (byte : UInt8) : P byte := by
  have hbyte := h byte.toNat byte.toNat_lt
  rwa [UInt8.ofNat_toNat] at hbyte

/-- A first byte and its marker: what the byte leaves without the marker, and what it becomes with
    a marker above it. -/
theorem vint_firstByte (byte : UInt8) :
    ∀ len ∈ [1, 2, 3, 4, 5, 6, 7, 8],
      (vintLen byte = some len → (byte &&& ~~~vintMarker len).toNat < 2 ^ (8 - len)) ∧
      (byte.toNat < 2 ^ (8 - len) →
        vintLen (byte ||| vintMarker len) = some len ∧
        ((byte ||| vintMarker len) &&& ~~~vintMarker len) = byte) := by
  revert byte
  refine forall_byte ?_
  decide +kernel

/-- The first byte without its marker. -/
theorem vint_payload_lt (first : UInt8) (len : Nat) (hmem : len ∈ [1, 2, 3, 4, 5, 6, 7, 8])
    (h : vintLen first = some len) : (first &&& ~~~vintMarker len).toNat < 2 ^ (8 - len) :=
  (vint_firstByte first len hmem).1 h

/-- A marker above a payload that leaves room for it. -/
theorem vint_marked (top : UInt8) (len : Nat) (hmem : len ∈ [1, 2, 3, 4, 5, 6, 7, 8])
    (h : top.toNat < 2 ^ (8 - len)) :
    vintLen (top ||| vintMarker len) = some len ∧
    ((top ||| vintMarker len) &&& ~~~vintMarker len) = top :=
  (vint_firstByte top len hmem).2 h

theorem mem_lens {len : Nat} (h1 : 1 ≤ len) (h8 : len ≤ 8) : len ∈ [1, 2, 3, 4, 5, 6, 7, 8] := by
  simp only [List.mem_cons, List.not_mem_nil, or_false]
  omega

theorem takeBytes_congr {data data' : Bytes} {value pos pos' count : Nat}
    (h : ∀ i < count, data[pos + i]? = data'[pos' + i]?) :
    takeBytes data value pos count = takeBytes data' value pos' count := by
  induction count generalizing value pos pos' with
  | zero => rfl
  | succ count ih =>
    have hfirst := h 0 (Nat.succ_pos count)
    rw [Nat.add_zero, Nat.add_zero] at hfirst
    rw [takeBytes, takeBytes, hfirst]
    cases data'[pos']? with
    | none => rfl
    | some byte =>
      refine ih ?_
      intro i hi
      have hnext := h (i + 1) (Nat.succ_lt_succ hi)
      rwa [Nat.add_assoc pos, Nat.add_assoc pos', Nat.add_comm 1 i]

theorem takeBytes_lt {data : Bytes} {value pos count result : Nat}
    (h : takeBytes data value pos count = some result) :
    result < (value + 1) * 256 ^ count ∧ (0 < count → pos + count ≤ data.length) := by
  induction count generalizing value pos with
  | zero =>
    cases h
    simp
  | succ count ih =>
    rw [takeBytes] at h
    split at h
    case h_1 => cases h
    case h_2 byte hbyte =>
      obtain ⟨hlt, hlen⟩ := ih h
      have hb : byte.toNat < 256 := byte.toNat_lt
      have hpos : pos < data.length := (List.getElem?_eq_some_iff.mp hbyte).1
      constructor
      · calc result < (value * 256 + byte.toNat + 1) * 256 ^ count := hlt
          _ ≤ ((value + 1) * 256) * 256 ^ count := Nat.mul_le_mul_right _ (by omega)
          _ = (value + 1) * 256 ^ (count + 1) := by rw [Nat.pow_succ']; ring
      · intro _
        rcases Nat.eq_zero_or_pos count with rfl | hcount
        · omega
        · have hend := hlen hcount
          omega

theorem readVint_lt {data : Bytes} {pos value len : Nat} (h : readVint data pos = some (value, len)) :
    1 ≤ len ∧ len ≤ 8 ∧ value < 2 ^ (7 * len) ∧ pos + len ≤ data.length := by
  simp only [readVint, Option.bind_eq_bind, Option.bind_eq_some_iff, Option.some.injEq,
    Prod.mk.injEq] at h
  obtain ⟨first, hfirst, len', hlen, value', hvalue, rfl, rfl⟩ := h
  obtain ⟨h1, h8⟩ := vintLen_bounds hlen
  obtain ⟨hlt, hend⟩ := takeBytes_lt hvalue
  have htop := vint_payload_lt first len' (mem_lens h1 h8) hlen
  have hpos : pos < data.length := (List.getElem?_eq_some_iff.mp hfirst).1
  refine ⟨h1, h8, ?_, ?_⟩
  · calc value' < ((first &&& ~~~vintMarker len').toNat + 1) * 256 ^ (len' - 1) := hlt
      _ ≤ 2 ^ (8 - len') * 256 ^ (len' - 1) := Nat.mul_le_mul_right _ htop
      _ = 2 ^ (7 * len') := by
        rw [show (256 : Nat) = 2 ^ 8 by rfl, ← Nat.pow_mul, ← Nat.pow_add]
        congr 1
        omega
  · rcases Nat.eq_zero_or_pos (len' - 1) with hzero | hcount
    · omega
    · have hle := hend hcount
      omega

theorem readId_bounds {data : Bytes} {pos value len : Nat} (h : readId data pos = some (value, len)) :
    1 ≤ len ∧ len ≤ 8 ∧ pos + len ≤ data.length := by
  simp only [readId, Option.bind_eq_bind, Option.bind_eq_some_iff, Option.some.injEq,
    Prod.mk.injEq] at h
  obtain ⟨first, hfirst, len', hlen, value', hvalue, rfl, rfl⟩ := h
  obtain ⟨h1, h8⟩ := vintLen_bounds hlen
  exact ⟨h1, h8, (takeBytes_lt hvalue).2 (by omega)⟩

/-! ### Elements -/

theorem readElement_eq_some {data : Bytes} {pos : Nat} {el : Element} :
    readElement data pos = some el ↔ ∃ id idLen size sizeLen,
      readId data pos = some (id, idLen) ∧ readVint data (pos + idLen) = some (size, sizeLen) ∧
      pos + idLen + sizeLen + size ≤ data.length ∧
      el = ⟨id, pos, pos + idLen + sizeLen, pos + idLen + sizeLen + size, sizeLen⟩ := by
  simp only [readElement, Option.bind_eq_bind, Option.bind_eq_some_iff, Prod.exists]
  constructor
  · rintro ⟨id, idLen, hid, size, sizeLen, hsize, hel⟩
    split at hel
    case isTrue => cases hel
    case isFalse hle =>
      cases hel
      exact ⟨id, idLen, size, sizeLen, hid, hsize, Nat.not_lt.mp hle, rfl⟩
  · rintro ⟨id, idLen, size, sizeLen, hid, hsize, hle, rfl⟩
    exact ⟨id, idLen, hid, size, sizeLen, hsize, if_neg (Nat.not_lt.mpr hle)⟩

/-- Where the parts of an element that was read lie. -/
structure Element.Bounds (data : Bytes) (el : Element) : Prop where
  header : el.start + 1 + el.sizeLen ≤ el.dataStart
  sizeLen : 1 ≤ el.sizeLen ∧ el.sizeLen ≤ 8
  size : el.dataStart ≤ el.dataEnd
  fits : el.dataEnd - el.dataStart < 2 ^ (7 * el.sizeLen)
  inside : el.dataEnd ≤ data.length

theorem readElement_bounds {data : Bytes} {pos : Nat} {el : Element}
    (h : readElement data pos = some el) : el.start = pos ∧ el.Bounds data := by
  obtain ⟨id, idLen, size, sizeLen, hid, hsize, hle, rfl⟩ := readElement_eq_some.mp h
  obtain ⟨hid1, -, -⟩ := readId_bounds hid
  obtain ⟨h1, h8, hlt, -⟩ := readVint_lt hsize
  refine ⟨rfl, ?_, ⟨h1, h8⟩, ?_, ?_, hle⟩
  · change pos + 1 + sizeLen ≤ pos + idLen + sizeLen
    omega
  · exact Nat.le_add_right _ _
  · change pos + idLen + sizeLen + size - (pos + idLen + sizeLen) < _
    rwa [Nat.add_sub_cancel_left]

/-- An element takes at least two bytes. -/
theorem readElement_lt {data : Bytes} {pos : Nat} {el : Element}
    (h : readElement data pos = some el) : pos + 2 ≤ el.dataEnd ∧ el.dataEnd ≤ data.length := by
  obtain ⟨rfl, hbounds⟩ := readElement_bounds h
  have h1 := hbounds.header
  have h2 := hbounds.sizeLen
  have h3 := hbounds.size
  exact ⟨by omega, hbounds.inside⟩

/-! ### Elements in other data -/

/-- The same bytes at two places. -/
structure Agree (data : Bytes) (a : Nat) (data' : Bytes) (a' n : Nat) : Prop where
  bytes : ∀ i < n, data[a + i]? = data'[a' + i]?
  inside : a' + n ≤ data'.length

/-- The element at the other place. -/
def Element.move (a a' : Nat) (el : Element) : Element :=
  ⟨el.id, a' + (el.start - a), a' + (el.dataStart - a), a' + (el.dataEnd - a), el.sizeLen⟩

theorem Agree.sub {data data' : Bytes} {a a' n : Nat} (h : Agree data a data' a' n) (pos len : Nat)
    (hpos : a ≤ pos) (hlen : pos + len ≤ a + n) : Agree data pos data' (a' + (pos - a)) len := by
  refine ⟨?_, ?_⟩
  · intro i hi
    have hbyte := h.bytes (pos - a + i) (by omega)
    rwa [show a + (pos - a + i) = pos + i by omega, ← Nat.add_assoc] at hbyte
  · have hinside := h.inside
    omega

theorem Agree.readId {data data' : Bytes} {pos pos' n value len : Nat}
    (h : Agree data pos data' pos' n) (hread : readId data pos = some (value, len)) (hn : len ≤ n) :
    readId data' pos' = some (value, len) := by
  obtain ⟨hlen, -, -⟩ := readId_bounds hread
  have hfirst := h.bytes 0 (by omega)
  simp only [Record.readId, Option.bind_eq_bind, Option.bind_eq_some_iff, Option.some.injEq,
    Prod.mk.injEq] at hread ⊢
  obtain ⟨first, hget, len', hlen', value', hvalue, rfl, rfl⟩ := hread
  refine ⟨first, ?_, len', hlen', value', ?_, rfl, rfl⟩
  · rwa [← hget, eq_comm]
  · rw [← hvalue]
    exact (takeBytes_congr fun i hi => h.bytes i (by omega)).symm

theorem Agree.readVint {data data' : Bytes} {pos pos' n value len : Nat}
    (h : Agree data pos data' pos' n) (hread : readVint data pos = some (value, len)) (hn : len ≤ n) :
    readVint data' pos' = some (value, len) := by
  obtain ⟨hlen, -, -, -⟩ := readVint_lt hread
  have hfirst := h.bytes 0 (by omega)
  simp only [Record.readVint, Option.bind_eq_bind, Option.bind_eq_some_iff, Option.some.injEq,
    Prod.mk.injEq] at hread ⊢
  obtain ⟨first, hget, len', hlen', value', hvalue, rfl, rfl⟩ := hread
  refine ⟨first, ?_, len', hlen', value', ?_, rfl, rfl⟩
  · rwa [← hget, eq_comm]
  · rw [← hvalue]
    refine (takeBytes_congr ?_).symm
    intro i hi
    have hbyte := h.bytes (1 + i) (by omega)
    rwa [← Nat.add_assoc, ← Nat.add_assoc] at hbyte

/-- An element is read wherever its bytes stand. -/
theorem Agree.readElement {data data' : Bytes} {a a' n pos : Nat} {el : Element}
    (h : Agree data a data' a' n) (hread : readElement data pos = some el) (hpos : a ≤ pos)
    (hend : el.dataEnd ≤ a + n) : readElement data' (a' + (pos - a)) = some (el.move a a') := by
  obtain ⟨id, idLen, size, sizeLen, hid, hsize, hle, rfl⟩ := readElement_eq_some.mp hread
  change pos + idLen + sizeLen + size ≤ a + n at hend
  have hid' := (h.sub pos idLen hpos (by omega)).readId hid (Nat.le_refl _)
  have hsize' := (h.sub (pos + idLen) sizeLen (by omega) (by omega)).readVint hsize
    (Nat.le_refl _)
  have hinside := h.inside
  refine readElement_eq_some.mpr ⟨id, idLen, size, sizeLen, hid', ?_, by omega, ?_⟩
  · rwa [show a' + (pos - a) + idLen = a' + (pos + idLen - a) by omega]
  · simp only [Element.move, Element.mk.injEq, true_and, and_true]
    omega

/-! ### What is written is read -/

theorem byteAt_toNat (value i : Nat) : (byteAt value i).toNat = value / 256 ^ i % 256 := by
  rw [byteAt, UInt8.toNat_ofNat']
  exact Nat.mod_mod _ _

/-- The lower bytes of a number, the most significant one first. -/
theorem takeBytes_byteAt {data : Bytes} {value v pos n : Nat}
    (h : ∀ i < n, data[pos + i]? = some (byteAt value (n - 1 - i))) :
    takeBytes data v pos n = some (v * 256 ^ n + value % 256 ^ n) := by
  induction n generalizing v pos with
  | zero => simp [takeBytes, Nat.mod_one]
  | succ n ih =>
    have hfirst := h 0 (Nat.succ_pos n)
    rw [Nat.add_zero, Nat.add_sub_cancel, Nat.sub_zero] at hfirst
    rw [takeBytes, hfirst]
    change takeBytes data (v * 256 + (byteAt value n).toNat) (pos + 1) n = _
    rw [ih, byteAt_toNat, Nat.mod_pow_succ, Nat.pow_succ]
    · congr 1
      ring
    · intro i hi
      have hnext := h (i + 1) (Nat.succ_lt_succ hi)
      rwa [show n + 1 - 1 - (i + 1) = n - 1 - i by omega, Nat.add_comm i, ← Nat.add_assoc] at hnext

theorem writeVintSize_eq_some (value : Nat) {len : Nat} (h1 : 1 ≤ len) (h8 : len ≤ 8)
    (hvalue : value ≤ 2 ^ (7 * len) - 2) : ∃ size, writeVintSize value len = some size := by
  rw [writeVintSize, if_neg (by omega), if_neg (by omega)]
  exact ⟨_, rfl⟩

/-- The bytes of a size are read as that size. -/
theorem writeVintSize_spec {value len : Nat} {size : Bytes} (h : writeVintSize value len = some size) :
    size.length = len ∧ ∀ data pos, Agree size 0 data pos len →
      readVint data pos = some (value, len) := by
  rw [writeVintSize] at h
  split at h
  case isTrue => cases h
  case isFalse hlen =>
    split at h
    case isTrue => cases h
    case isFalse hvalue =>
      cases h
      obtain ⟨n, rfl⟩ : ∃ n, len = n + 1 := ⟨len - 1, by omega⟩
      refine ⟨by simp, ?_⟩
      intro data pos hagree
      have hbyte : ∀ i < n + 1, data[pos + i]? = some
          (if n - i = n then byteAt value (n - i) ||| vintMarker (n + 1) else byteAt value (n - i)) := by
        intro i hi
        rw [← hagree.bytes i hi, Nat.zero_add, List.getElem?_map,
          List.getElem?_eq_getElem (by simpa using hi), List.getElem_reverse, List.getElem_range]
        simp
      have hfirst := hbyte 0 (Nat.succ_pos n)
      rw [Nat.sub_zero, if_pos rfl, Nat.add_zero] at hfirst
      -- the payload of the first byte leaves room for the marker
      have hpow : (2 : Nat) ^ (7 * (n + 1)) = 2 ^ (8 - (n + 1)) * 256 ^ n := by
        rw [show (256 : Nat) = 2 ^ 8 by rfl, ← Nat.pow_mul, ← Nat.pow_add]
        congr 1
        omega
      have hpos : 0 < 2 ^ (7 * (n + 1)) := Nat.two_pow_pos _
      have hdiv : value / 256 ^ n < 2 ^ (8 - (n + 1)) := by
        rw [Nat.div_lt_iff_lt_mul (Nat.pow_pos (by decide)), ← hpow]
        omega
      have hsmall : (2 : Nat) ^ (8 - (n + 1)) ≤ 256 :=
        Nat.pow_le_pow_right (by decide) (show 8 - (n + 1) ≤ 8 by omega)
      have htop : (byteAt value n).toNat = value / 256 ^ n := by
        rw [byteAt_toNat, Nat.mod_eq_of_lt (by omega)]
      obtain ⟨hvlen, hpayload⟩ := vint_marked (byteAt value n) (n + 1) (mem_lens (by omega) (by omega))
        (by rw [htop]; exact hdiv)
      have hrest : takeBytes data (byteAt value n).toNat (pos + 1) n =
          some ((byteAt value n).toNat * 256 ^ n + value % 256 ^ n) := by
        refine takeBytes_byteAt ?_
        intro i hi
        have hnext := hbyte (i + 1) (by omega)
        rwa [if_neg (by omega), show n - (i + 1) = n - 1 - i by omega, Nat.add_comm i,
          ← Nat.add_assoc] at hnext
      rw [htop, Nat.div_add_mod'] at hrest
      rw [Record.readVint, hfirst]
      simp only [Option.bind_eq_bind, Option.bind_some, hvlen, hpayload, Nat.add_sub_cancel, htop,
        hrest]

/-- Every gap of two bytes or more can be filled, if a size can say how long it is. -/
theorem voidElement_spec {totalLen : Nat} (h2 : 2 ≤ totalLen) (hmax : totalLen < 2 ^ 56) :
    ∃ void, voidElement totalLen = some void ∧ void.length = totalLen ∧
      ∀ data pos, Agree void 0 data pos totalLen → ∃ el, readElement data pos = some el ∧
        el.id = ID_VOID ∧ el.dataEnd = pos + totalLen := by
  have hne : totalLen ≠ 0 := by omega
  have hsome : (voidElement totalLen).isSome := by
    rw [voidElement, if_neg hne, List.findSome?_isSome_iff]
    -- one byte is enough for a short gap, eight are for every other one
    by_cases hshort : totalLen ≤ 128
    · obtain ⟨size, hsize⟩ := writeVintSize_eq_some (totalLen - 1 - 1) (Nat.le_refl 1)
        (by decide) (by omega)
      exact ⟨1, by decide, by simp [show ¬ totalLen < 1 + 1 by omega, hsize]⟩
    · obtain ⟨size, hsize⟩ := writeVintSize_eq_some (totalLen - 1 - 8) (show 1 ≤ 8 by decide)
        (Nat.le_refl 8) (by omega)
      exact ⟨8, by decide, by simp [show ¬ totalLen < 1 + 8 by omega, hsize]⟩
  obtain ⟨void, hvoid⟩ := Option.isSome_iff_exists.mp hsome
  refine ⟨void, hvoid, ?_⟩
  rw [voidElement, if_neg hne] at hvoid
  obtain ⟨sizeLen, -, hfill⟩ := List.exists_of_findSome?_eq_some hvoid
  split at hfill
  case isTrue => cases hfill
  case isFalse hroom =>
    obtain ⟨size, hsize, rfl⟩ := Option.map_eq_some_iff.mp hfill
    obtain ⟨hlen, hread⟩ := writeVintSize_spec hsize
    have hlength : (UInt8.ofNat ID_VOID :: size ++
        List.replicate (totalLen - (UInt8.ofNat ID_VOID :: size).length) 0).length = totalLen := by
      simp only [List.length_append, List.length_cons, List.length_replicate, hlen]
      omega
    refine ⟨hlength, ?_⟩
    intro data pos hagree
    have hinside := hagree.inside
    have hfirst : data[pos]? = some (UInt8.ofNat ID_VOID) := by
      rw [← Nat.add_zero pos, ← hagree.bytes 0 (by omega)]
      rfl
    have hid : readId data pos = some (ID_VOID, 1) := by
      rw [Record.readId, hfirst]
      have hlen1 : vintLen (UInt8.ofNat ID_VOID) = some 1 := by decide
      simp only [Option.bind_eq_bind, Option.bind_some, hlen1, takeBytes, hfirst]
      rfl
    have hsize' : readVint data (pos + 1) = some (totalLen - 1 - sizeLen, sizeLen) := by
      refine hread data (pos + 1) ⟨?_, by omega⟩
      intro i hi
      rw [Nat.add_assoc, ← hagree.bytes (1 + i) (by omega), Nat.zero_add, Nat.zero_add,
        Nat.add_comm 1 i, List.cons_append, List.getElem?_cons_succ,
        List.getElem?_append_left (by omega)]
    refine ⟨_, readElement_eq_some.mpr ⟨ID_VOID, 1, _, sizeLen, hid, hsize', by omega, rfl⟩, rfl, ?_⟩
    change pos + 1 + sizeLen + (totalLen - 1 - sizeLen) = pos + totalLen
    omega

/-! ### Sequences of elements -/

/-- The elements that fill the data from one position to another. -/
inductive Chain (data : Bytes) : Nat → Nat → List Element → Prop
  | nil (a : Nat) : Chain data a a []
  | cons {a b : Nat} {el : Element} {els : List Element} :
      readElement data a = some el → Chain data el.dataEnd b els → Chain data a b (el :: els)

namespace Chain

variable {data data' : Bytes} {a b c : Nat} {el : Element} {els els' : List Element}

theorem le (h : Chain data a b els) : a ≤ b := by
  induction h with
  | nil => exact Nat.le_refl _
  | cons hread _ ih =>
    have hlt := (readElement_lt hread).1
    omega

theorem mem (h : Chain data a b els) (hmem : el ∈ els) :
    readElement data el.start = some el ∧ a ≤ el.start ∧ el.dataEnd ≤ b := by
  induction h with
  | nil => cases hmem
  | cons hread hrest ih =>
    obtain ⟨hstart, hbounds⟩ := readElement_bounds hread
    rcases List.mem_cons.mp hmem with rfl | hmem'
    · exact ⟨by rw [hstart, hread], by omega, hrest.le⟩
    · obtain ⟨hread', hle, hend⟩ := ih hmem'
      have hlt := (readElement_lt hread).1
      exact ⟨hread', by omega, hend⟩

theorem append (h : Chain data a b els) (h' : Chain data b c els') : Chain data a c (els ++ els') := by
  induction h with
  | nil => exact h'
  | cons hread _ ih => exact .cons hread (ih h')

/-- A sequence is determined by its ends. -/
theorem unique (h : Chain data a b els) (h' : Chain data a b els') : els = els' := by
  induction h generalizing els' with
  | nil a =>
    cases h' with
    | nil => rfl
    | cons hread hrest =>
      have hlt := (readElement_lt hread).1
      have hle := hrest.le
      omega
  | cons hread hrest ih =>
    cases h' with
    | nil =>
      have hlt := (readElement_lt hread).1
      have hle := hrest.le
      omega
    | cons hread' hrest' =>
      cases hread.symm.trans hread'
      rw [ih hrest']

/-- The part of a sequence up to an element, the element and the rest. -/
theorem split {before after : List Element} (h : Chain data a b (before ++ el :: after)) :
    Chain data a el.start before ∧ readElement data el.start = some el ∧
      Chain data el.dataEnd b after := by
  induction before generalizing a with
  | nil =>
    cases h with
    | cons hread hrest =>
      obtain ⟨rfl, -⟩ := readElement_bounds hread
      exact ⟨.nil _, hread, hrest⟩
  | cons first before ih =>
    cases h with
    | cons hread hrest =>
      obtain ⟨hbefore, hel, hafter⟩ := ih hrest
      exact ⟨.cons hread hbefore, hel, hafter⟩

theorem move {lo lo' n : Nat} (hagree : Agree data lo data' lo' n) (h : Chain data a b els)
    (hlo : lo ≤ a) (hhi : b ≤ lo + n) :
    Chain data' (lo' + (a - lo)) (lo' + (b - lo)) (els.map (Element.move lo lo')) := by
  induction h with
  | nil => exact .nil _
  | cons hread hrest ih =>
    have hlt := (readElement_lt hread).1
    have hle := hrest.le
    exact .cons (hagree.readElement hread hlo (by omega)) (ih (by omega) hhi)

/-- The bytes of a sequence are those of its elements. -/
theorem sum_totalLen (h : Chain data a b els) : (els.map Element.totalLen).sum = b - a := by
  induction h with
  | nil => simp
  | cons hread hrest ih =>
    obtain ⟨hstart, -⟩ := readElement_bounds hread
    have hlt := (readElement_lt hread).1
    have hle := hrest.le
    rw [List.map_cons, List.sum_cons, ih, Element.totalLen, hstart]
    omega

end Chain

/-- What a loop over elements does with one of them. -/
inductive Visit (α : Type) where
  | go
  | stop (result : Option α)

section

variable {α β : Type}

/-- A loop over elements that returns at one of them or when it has passed them all. -/
def scan (data : Bytes) (stop : Nat) (visit : Element → Except Panic (Visit α)) (done : Option α)
    (pos : Nat) : Except Panic (Option α) :=
  if pos < stop then
    match h : readElement data pos with
    | none => .ok none
    | some el =>
      match visit el with
      | .error e => .error e
      | .ok (.stop result) => .ok result
      | .ok .go => scan data stop visit done el.dataEnd
  else .ok done
termination_by data.length - pos
decreasing_by
  have hlt := readElement_lt h
  omega

/-- A loop over elements that picks something from some of them. -/
def collect (data : Bytes) (stop : Nat) (pick : Element → Except Panic (Option (Option β)))
    (pos : Nat) : Except Panic (Option (List β)) :=
  if pos < stop then
    match h : readElement data pos with
    | none => .ok none
    | some el =>
      match pick el with
      | .error e => .error e
      | .ok none => .ok none
      | .ok (some picked) =>
        match collect data stop pick el.dataEnd with
        | .error e => .error e
        | .ok none => .ok none
        | .ok (some rest) => .ok (some (picked.toList ++ rest))
  else .ok (some [])
termination_by data.length - pos
decreasing_by
  have hlt := readElement_lt h
  omega

/-- The elements from a position on, as far as they can be read. -/
def children (data : Bytes) (stop pos : Nat) : List Element :=
  if pos < stop then
    match h : readElement data pos with
    | none => []
    | some el => el :: children data stop el.dataEnd
  else []
termination_by data.length - pos
decreasing_by
  have hlt := readElement_lt h
  omega

theorem children_of_chain {data : Bytes} {a b : Nat} {els : List Element} (h : Chain data a b els) :
    children data b a = els := by
  induction h with
  | nil => rw [children, if_neg (Nat.lt_irrefl _)]
  | cons hread hrest ih =>
    have hlt := (readElement_lt hread).1
    have hle := hrest.le
    rw [children, if_pos (by omega)]
    split
    case h_1 hnone =>
      rw [hread] at hnone
      cases hnone
    case h_2 el' hsome =>
      cases hread.symm.trans hsome
      rw [ih]

/-- A loop over elements that can all be read, one step of it. -/
theorem scan_cons {data : Bytes} {a b : Nat} {el : Element} {els : List Element}
    {visit : Element → Except Panic (Visit α)} {done : Option α}
    (hread : readElement data a = some el) (hrest : Chain data el.dataEnd b els) :
    scan data b visit done a =
      match visit el with
      | .error e => .error e
      | .ok (.stop result) => .ok result
      | .ok .go => scan data b visit done el.dataEnd := by
  have hlt := (readElement_lt hread).1
  have hle := hrest.le
  rw [scan, if_pos (by omega)]
  split
  case h_1 hnone =>
    rw [hread] at hnone
    cases hnone
  case h_2 el' hsome =>
    cases hread.symm.trans hsome
    rfl

/-- A loop that looks for an id. -/
theorem scan_first {data : Bytes} {a b : Nat} {els : List Element} (h : Chain data a b els)
    (id : Nat) {visit : Element → Except Panic (Visit α)} (result : Element → Option α) {done : Option α}
    (hvisit : ∀ el ∈ els, visit el = .ok (if el.id = id then .stop (result el) else .go)) :
    scan data b visit done a =
      .ok (match els.find? (·.id = id) with | some el => result el | none => done) := by
  induction h with
  | nil =>
    rw [scan, if_neg (Nat.lt_irrefl _)]
    rfl
  | @cons a b el els hread hrest ih =>
    rw [scan_cons hread hrest, hvisit _ (List.mem_cons_self ..), List.find?_cons]
    by_cases hid : el.id = id
    · simp [hid]
    · simp only [hid, decide_false, if_false]
      exact ih fun el hmem => hvisit el (List.mem_cons_of_mem _ hmem)

/-- A loop that looks for the first element with a value. -/
theorem scan_of_chain {data : Bytes} {a b : Nat} {els : List Element} (h : Chain data a b els)
    {visit : Element → Except Panic (Visit α)} (look : Element → Option α) {done : Option α}
    (hvisit : ∀ el ∈ els, visit el =
      .ok (match look el with | some result => .stop (some result) | none => .go)) :
    scan data b visit done a = .ok ((els.findSome? look).or done) := by
  induction h with
  | nil =>
    rw [scan, if_neg (Nat.lt_irrefl _)]
    rfl
  | @cons a b el els hread hrest ih =>
    rw [scan_cons hread hrest, hvisit _ (List.mem_cons_self ..), List.findSome?_cons]
    cases hlook : look el with
    | some result => rfl
    | none => exact ih fun el hmem => hvisit el (List.mem_cons_of_mem _ hmem)

theorem collect_of_chain {data : Bytes} {a b : Nat} {els : List Element} (h : Chain data a b els)
    {pick : Element → Except Panic (Option (Option β))} (look : Element → Option β)
    (hpick : ∀ el ∈ els, pick el = .ok (some (look el))) :
    collect data b pick a = .ok (some (els.filterMap look)) := by
  induction h with
  | nil =>
    rw [collect, if_neg (Nat.lt_irrefl _)]
    rfl
  | @cons a b el els hread hrest ih =>
    have hlt := (readElement_lt hread).1
    have hle := hrest.le
    rw [collect, if_pos (by omega)]
    split
    case h_1 hnone =>
      rw [hread] at hnone
      cases hnone
    case h_2 el' hsome =>
      cases hread.symm.trans hsome
      rw [hpick _ (List.mem_cons_self ..), ih fun el hmem => hpick el (List.mem_cons_of_mem _ hmem)]
      cases hlook : look el <;> simp [hlook]

/-- A loop does not panic if it does not at any element. -/
theorem scan_ok {data : Bytes} {stop pos : Nat} {visit : Element → Except Panic (Visit α)}
    {done : Option α} (hvisit : ∀ el, readElement data el.start = some el → ∃ v, visit el = .ok v) :
    ∃ result, scan data stop visit done pos = .ok result := by
  fun_induction scan data stop visit done pos with
  | case1 pos hpos hread => exact ⟨none, rfl⟩
  | case2 pos hpos el hread e herror =>
    obtain ⟨rfl, -⟩ := readElement_bounds hread
    obtain ⟨v, hv⟩ := hvisit el hread
    rw [hv] at herror
    cases herror
  | case3 pos hpos el hread result hresult => exact ⟨result, rfl⟩
  | case4 pos hpos el hread hgo ih => exact ih
  | case5 pos hpos => exact ⟨done, rfl⟩

theorem collect_ok {data : Bytes} {stop pos : Nat}
    {pick : Element → Except Panic (Option (Option β))}
    (hpick : ∀ el, readElement data el.start = some el → pos ≤ el.start → ∃ v, pick el = .ok v) :
    ∃ result, collect data stop pick pos = .ok result := by
  fun_induction collect data stop pick pos with
  | case1 pos hpos hread => exact ⟨none, rfl⟩
  | case2 pos hpos el hread e herror =>
    obtain ⟨rfl, -⟩ := readElement_bounds hread
    obtain ⟨v, hv⟩ := hpick el hread (Nat.le_refl _)
    rw [hv] at herror
    cases herror
  | case3 pos hpos el hread hnone => exact ⟨none, rfl⟩
  | case4 pos hpos el hread picked hpicked e herror ih =>
    have hlt := (readElement_lt hread).1
    obtain ⟨result, hresult⟩ := ih fun el' hread' hle => hpick el' hread' (by omega)
    rw [hresult] at herror
    cases herror
  | case5 pos hpos el hread picked hpicked hnone ih => exact ⟨none, rfl⟩
  | case6 pos hpos el hread picked hpicked rest hrest ih => exact ⟨_, rfl⟩
  | case7 pos hpos => exact ⟨some [], rfl⟩

end

end MediaServer.Record
