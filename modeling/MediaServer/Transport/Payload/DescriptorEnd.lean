import MediaServer.Transport.Payload.Vp8
import MediaServer.Transport.Payload.Vp9Reads

/-!
# Where a payload descriptor ends

What follows the descriptor of a VP8 or VP9 payload, byte by byte along the drawings in
`transport_webrtc/src/media/vp8.rs` and `vp9.rs`.  A payload that the parsers accept has a
complete descriptor.
-/

namespace MediaServer.Transport.Payload

open Fallible

/-! ### VP8 -/

namespace Vp8

open Vp9 (behind behindPictureId)

def behindByte : Bytes → Option Bytes
  | [] => none
  | _ :: left => some left

/-- Behind the parts that the extension announces. -/
def behindFields (vp8 : Vp8Header) (left : Bytes) : Option Bytes := do
  let left ← behind (vp8.i = 1) behindPictureId left
  let left ← behind (vp8.l = 1) behindByte left
  behind (vp8.t = 1 ∨ vp8.k = 1) behindByte left

def behindDescriptor : Bytes → Option Bytes
  | [] => none
  | first :: left =>
    if (required first).x = 1 then
      match left with
      | [] => none
      | ext :: left => behindFields (extended first (some ext)) left
    else some left

theorem behind_toList {o : Option UInt8} {c : Prop} [Decidable c] (h : o.isSome ↔ c)
    (left : Bytes) : behind c behindByte (o.toList ++ left) = some left := by
  cases o with
  | none =>
    have hc : ¬c := fun hc => nomatch h.mpr hc
    rw [behind, decide_eq_false hc]
    rfl
  | some b =>
    rw [behind, decide_eq_true (h.mp rfl)]
    rfl

theorem behind_idBytes {p : Option PictureId} {c : Prop} [Decidable c] (h : p.isSome ↔ c)
    (left : Bytes) : behind c behindPictureId (idBytes p ++ left) = some left := by
  cases p with
  | none =>
    have hc : ¬c := fun hc => nomatch h.mpr hc
    rw [behind, decide_eq_false hc]
    rfl
  | some p =>
    rw [behind, decide_eq_true (h.mp rfl), if_pos rfl, idBytes, Option.elim_some]
    rcases p.eq_short_or_long with ⟨b, hwidth, hbytes, -⟩ | ⟨hi, lo, hwidth, hbytes, -⟩
    · have hshort : ¬(b &&& 0x80) ≠ 0 := by
        rw [and_ne_zero (k := 7) rfl]
        omega
      rw [hbytes, List.singleton_append]
      exact if_neg hshort
    · have hlong : (hi &&& 0x80) ≠ 0 := by
        rw [and_ne_zero (k := 7) rfl]
        have hlt := hi.toNat_lt
        omega
      rw [hbytes, List.cons_append, List.singleton_append]
      exact if_pos hlong

/-- The descriptor of a layout ends in front of its body. -/
theorem behindDescriptor_bytes (d : Layout) :
    behindDescriptor d.bytes = some (d.body :: d.rest) := by
  have hid := d.hid
  have htl0 := d.htl0
  have htk := d.htk
  rw [Layout.bytes, behindDescriptor.eq_def]
  dsimp only
  cases hext : d.ext with
  | some ext =>
    rw [hext] at hid htl0 htk
    rw [if_pos (d.hext.mp (by rw [hext]; rfl)), Option.toList_some, List.singleton_append]
    dsimp only
    rw [behindFields, behind_idBytes hid, Option.bind_eq_bind, Option.bind_some,
      behind_toList htl0, Option.bind_some, behind_toList htk]
  | none =>
    rw [hext] at hid htl0 htk
    have hx : ¬(required d.first).x = 1 := by
      rw [← d.hext, hext]
      exact Bool.false_ne_true
    have hi : ¬(extended d.first none).i = 1 := by
      change ¬((0 : UInt8) &&& 0x80) >>> 7 = 1
      decide
    have hl : ¬(extended d.first none).l = 1 := by
      change ¬((0 : UInt8) &&& 0x40) >>> 6 = 1
      decide
    have htk' : ¬((extended d.first none).t = 1 ∨ (extended d.first none).k = 1) := by
      change ¬(((0 : UInt8) &&& 0x20) >>> 5 = 1 ∨ ((0 : UInt8) &&& 0x10) >>> 4 = 1)
      decide
    have hpictureId : d.pictureId = none := Option.not_isSome_iff_eq_none.mp (mt hid.mp hi)
    have htl0 : d.tl0 = none := Option.not_isSome_iff_eq_none.mp (mt htl0.mp hl)
    have htk : d.tk = none := Option.not_isSome_iff_eq_none.mp (mt htk.mp htk')
    rw [if_neg hx, hpictureId, htl0, htk]
    rfl

/-- The parser accepts no payload that ends with its descriptor. -/
theorem behindDescriptor_of_parseRtp {payload : Bytes} {rid : Option UInt8}
    {rotation : Option MediaOrientation} {m : MediaMeta}
    (h : parseRtp payload rid rotation = .ok (some m)) :
    4 ≤ payload.length ∧ ∃ left, behindDescriptor payload = some left ∧ left ≠ [] := by
  obtain ⟨d, rfl, hlen, -⟩ := parseRtp_eq_some h
  exact ⟨hlen, d.body :: d.rest, behindDescriptor_bytes d, List.cons_ne_nil _ _⟩

end Vp8

/-! ### VP9 -/

namespace Vp9

def behindBytes (count : Nat) (left : Bytes) : Option Bytes :=
  if left.length < count then none else some (left.drop count)

def behindPictures : Nat → Bytes → Option Bytes
  | 0, left => some left
  | _ + 1, [] => none
  | count + 1, b :: left => do
    let left ← behindBytes ((b >>> 2) &&& 0x3).toNat left
    behindPictures count left

def behindGroup : Bytes → Option Bytes
  | [] => none
  | ng :: left => behindPictures ng.toNat left

def behindScalability : Bytes → Option Bytes
  | [] => none
  | b :: left => do
    let left ← behind ((b &&& 0x10) ≠ 0) (behindBytes (4 * ((b >>> 5) + 1).toNat)) left
    behind (((b >>> 1) &&& 0x7) ≠ 0) behindGroup left

def behindDescriptor : Bytes → Option Bytes
  | [] => none
  | first :: left => do
    let left ← behindHeader (required first) left
    behind (required first).v behindScalability left

theorem behindBytes_of_le {count : Nat} {left : Bytes} (h : count ≤ left.length) :
    behindBytes count left = some (left.drop count) :=
  if_neg (Nat.not_lt_of_le h)

section

variable {done left : Bytes}

/-- A part of the parser that returns only where a function says where the part ends. -/
def Needs (f : Bytes → Option Bytes) (p : Parser Vp9Header) (done left : Bytes) : Prop :=
  wp p (fun _ _ => (f left).isSome) (fun _ _ => True) (past done left)

theorem needs_readPictures {count : Nat} {h : Vp9Header} {i : Nat} (hi : h.pgpdiff.length = i) :
    Needs (behindPictures count) (readPictures i count h) done left := by
  induction count generalizing h i done left with
  | zero => exact rfl
  | succ count ih =>
    rw [Needs, readPictures, wp_bind]
    cases left with
    | nil =>
      rw [wp_checkShort_nil]
      trivial
    | cons b left =>
      have hi' : i < (h.pgpdiff ++ [[]]).length := by
        rw [List.length_append, List.length_singleton]
        omega
      rw [wp_checkShort_cons, wp_bind, wp_getU8_cons, wp_bind, wp_remaining]
      by_cases hshort : left.length * 8 < ((b >>> 2) &&& 0x3).toNat
      · rw [if_pos hshort, wp_throw]
        trivial
      rw [if_neg hshort, wp_bind]
      by_cases henough : ((b >>> 2) &&& 0x3).toNat ≤ left.length
      · apply wp_readDiffs_of_le hi' henough
        intro diffs done' hdiffs
        rw [List.length_append, List.length_singleton, hi] at hdiffs
        rw [behindPictures, behindBytes_of_le henough]
        exact ih hdiffs
      · exact wp_readDiffs_of_lt hi' (Nat.lt_of_not_le henough) fun _ => trivial

theorem needs_readGroup {g : Bool} {h : Vp9Header} (hg : h.g = g) (hng : h.ng = 0)
    (hpictures : h.pgpdiff = []) :
    Needs (behind g behindGroup)
      (whenSet h.g readGroupSize h >>= fun h => readPictures 0 h.ng.toNat h) done left := by
  rw [Needs, wp_bind, hg]
  cases g with
  | false =>
    rw [whenSet, if_neg Bool.false_ne_true, wp_pure, hng]
    exact rfl
  | true =>
    rw [whenSet, if_pos rfl, readGroupSize, wp_bind]
    cases left with
    | nil =>
      rw [wp_checkShort_nil]
      trivial
    | cons ng left =>
      rw [wp_checkShort_cons, wp_bind, wp_getU8_cons, wp_pure]
      apply needs_readPictures
      rw [hpictures]
      rfl

theorem needs_parseSsdata {h : Vp9Header} (hpictures : h.pgpdiff = []) :
    Needs behindScalability (parseSsdata h) done left := by
  rw [Needs, parseSsdata, wp_bind]
  cases left with
  | nil =>
    rw [wp_checkShort_nil]
    trivial
  | cons b left =>
    rw [wp_checkShort_cons, wp_bind, wp_getU8_cons, wp_bind, behindScalability]
    by_cases hy : (b &&& 0x10) ≠ 0
    case neg =>
      rw [whenSet, if_neg (by simpa using hy), wp_pure, behind, if_neg (by simpa using hy)]
      exact needs_readGroup rfl rfl hpictures
    have hsizes : behind ((b &&& 0x10) ≠ 0) (behindBytes (4 * ((b >>> 5) + 1).toNat)) left =
        behindBytes (4 * ((b >>> 5) + 1).toNat) left :=
      if_pos (decide_eq_true hy)
    rw [hsizes, whenSet, if_pos (by simpa using hy), readSizes, wp_bind, wp_remaining]
    by_cases hshort : left.length * 8 < 4 * ((b >>> 5) + 1).toNat
    · rw [if_pos hshort, wp_throw]
      trivial
    rw [if_neg hshort]
    by_cases henough : 4 * ((b >>> 5) + 1).toNat ≤ left.length
    · apply wp_readResolutions_of_le (by simp) (by simp) henough
      intro width height done'
      rw [behindBytes_of_le henough]
      exact needs_readGroup rfl rfl hpictures
    · exact wp_readResolutions_of_lt (by simp) (by simp) (Nat.lt_of_not_le henough)
        fun _ => trivial

end

/-- Where the parser returns, the descriptor is complete. -/
theorem wp_parseFrom_behind (payload : Bytes) :
    wp (parseFrom payload) (fun _ _ => (behindDescriptor payload).isSome) (fun _ _ => True)
      (past [] payload) := by
  cases payload with
  | nil => exact trivial
  | cons first left =>
    rw [parseFrom, if_neg (by simp), wp_bind, wp_getU8_cons, wp_bind]
    refine wp_mono ((skips_parsePictureId _).whenSet (.refl _) _ ([] ++ [first]) left) ?_
      (fun _ _ _ => trivial)
    rintro h - ⟨done₁, left₁, hleft₁, rfl, hsame₁⟩
    rw [parseLayers, wp_bind]
    refine wp_mono ((skips_parseLayerInfo h).whenSet (.refl h) h.l done₁ left₁) ?_
      (fun _ _ _ => trivial)
    rintro h' - ⟨done₂, left₂, hleft₂, rfl, hsame₂⟩
    have hempty : h'.pdiff.length + maxVp9RefPics = maxVp9RefPics := by
      rw [hsame₂.pdiff, hsame₁.pdiff]
      rfl
    rw [wp_bind]
    refine wp_mono ((skips_refLoop hempty).whenSet (SameRefs.refl h').toSameFlags
      (h'.f && h'.p) done₂ left₂) ?_ (fun _ _ _ => trivial)
    rintro h'' - ⟨done₃, left₃, hleft₃, rfl, hsame₃⟩
    have hv : h''.v = (required first).v := (hsame₃.v.trans hsame₂.v).trans hsame₁.v
    have hpictures : h''.pgpdiff = [] :=
      (hsame₃.pgpdiff.trans hsame₂.pgpdiff).trans hsame₁.pgpdiff
    have hbehind : behindHeader (required first) left = some left₃ := by
      rw [hsame₁.l, hsame₁.f] at hleft₂
      rw [hsame₂.f, hsame₂.p, hsame₁.f, hsame₁.p] at hleft₃
      rw [behindHeader, hleft₁]
      exact (congrArg (· >>= _) hleft₂).trans hleft₃
    rw [wp_bind, hv, behindDescriptor, hbehind, Option.bind_eq_bind, Option.bind_some]
    by_cases hpresent : (required first).v
    · rw [whenSet, if_pos hpresent, behind, if_pos hpresent]
      exact wp_mono (needs_parseSsdata hpictures) (fun _ _ h => h) (fun _ _ h => h)
    · rw [whenSet, if_neg hpresent, wp_pure, wp_pure, behind, if_neg hpresent]
      rfl

section

variable {payload : Bytes} {profile : Vp9Profile} {rotation : Option MediaOrientation}
  {m : MediaMeta}

theorem parse_of_parseRtp (h : parseRtp payload profile rotation = .ok (some m)) :
    ∃ key svc, m = .vp9 key profile svc rotation ∧
      parse (parseFrom payload) payload = .ok (some (key, svc)) := by
  rw [parseRtp] at h
  rcases hparse : parse (parseFrom payload) payload with panic | (_ | ⟨key, svc⟩)
  · rw [hparse] at h
    cases h
  · rw [hparse] at h
    cases h
  · rw [hparse] at h
    exact ⟨key, svc, (Option.some.inj (Except.ok.inj h)).symm, rfl⟩

/-- The parser accepts no payload that ends within its descriptor. -/
theorem behindDescriptor_of_parseRtp (h : parseRtp payload profile rotation = .ok (some m)) :
    ∃ left, behindDescriptor payload = some left := by
  obtain ⟨key, svc, -, hparse⟩ := parse_of_parseRtp h
  have hsome : (behindDescriptor payload).isSome :=
    of_parse_eq_some (Q := fun _ => (behindDescriptor payload).isSome)
      (wp_parseFrom_behind payload) hparse
  exact Option.isSome_iff_exists.mp hsome

end

end Vp9

end MediaServer.Transport.Payload
