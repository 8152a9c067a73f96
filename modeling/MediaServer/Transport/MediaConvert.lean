import MediaServer.Lib.IndexMap
import MediaServer.Transport.LayerBitrates
import MediaServer.Transport.Payload.Vp8
import MediaServer.Transport.Payload.Vp9

/-!
# The media converter

`RemoteMediaConvert` (`transport_webrtc/src/media/mod.rs`) turns the RTP packets of a client into
media packets.  Which codec a payload type stands for is read from the codecs that were
negotiated; a later configuration adds to what the earlier ones said.
-/

namespace MediaServer.Transport

open Collections Fallible LayerBitrates

/-! ### Codecs -/

inductive MediaCodec where
  | opus
  | h264 (profile : H264Profile)
  | vp8
  | vp9 (profile : Vp9Profile)
deriving DecidableEq, Repr

def MediaCodec.isAudio : MediaCodec → Bool
  | .opus => true
  | _ => false

/-- The codecs of `str0m`; those that no client may send are `other`. -/
inductive Str0mCodec where
  | opus
  | h264
  | vp8
  | vp9
  | other
deriving DecidableEq, Repr

structure FormatParams where
  profileLevelId : Option UInt32 := none
  packetizationMode : Option UInt8 := none
  profileId : Option UInt32 := none
deriving DecidableEq, Repr

structure CodecSpec where
  codec : Str0mCodec
  format : FormatParams := {}
deriving DecidableEq, Repr

def h264Profile (format : FormatParams) : Option H264Profile :=
  match format.profileLevelId, format.packetizationMode with
  | some 0x42001f, some 1 => some .p42001fNonInterleaved
  | some 0x42001f, some 0 => some .p42001fSingleNal
  | some 0x42e01f, some 1 => some .p42e01fNonInterleaved
  | some 0x42e01f, some 0 => some .p42e01fSingleNal
  | some 0x4d001f, some 1 => some .p4d001fNonInterleaved
  | some 0x4d001f, some 0 => some .p4d001fSingleNal
  | some 0x64001f, some 1 => some .p64001fNonInterleaved
  | _, _ => none

def vp9Profile (format : FormatParams) : Option Vp9Profile :=
  match format.profileId with
  | some 0 => some .p0
  | some 2 => some .p2
  | _ => none

def str0mCodecConvert (spec : CodecSpec) : Option MediaCodec :=
  match spec.codec with
  | .opus => some .opus
  | .h264 => (h264Profile spec.format).map .h264
  | .vp8 => some .vp8
  | .vp9 => (vp9Profile spec.format).map .vp9
  | .other => none

structure PayloadParams where
  pt : UInt8
  spec : CodecSpec
deriving Repr

/-- The codecs of a session, with a payload type of its own for each. -/
structure CodecConfig where
  params : List PayloadParams
  nodup : (params.map PayloadParams.pt).Nodup

/-! ### RTP packets -/

inductive VideoOrientation where
  | deg0
  | deg90
  | deg180
  | deg270
deriving Repr

def fromWebrtcOrientation : VideoOrientation → MediaOrientation
  | .deg0 => .deg0
  | .deg90 => .deg90
  | .deg180 => .deg180
  | .deg270 => .deg270

structure Str0mRtpPacket where
  payloadType : UInt8
  ssrc : UInt32 := 0
  timestamp : UInt32 := 0
  sequenceNumber : UInt16 := 0
  marker : Bool := false
  rid : Option Bytes := none
  audioLevel : Option Int8 := none
  videoOrientation : Option VideoOrientation := none
  vla : Option VideoLayersAllocation := none
  payload : Bytes

/-- The layer is the digit that the rid begins with. -/
def ridToSpatial (rid : Bytes) : UInt8 :=
  match rid.head? with
  | some 0x30 => 0
  | some 0x31 => 1
  | some 0x32 => 2
  | _ => 0

namespace Payload.H264

def naluTtypeStapA : UInt32 := 24
def naluTtypeSps : UInt32 := 7
def naluTypeBitmask : UInt32 := 0x1F

def beWord (b₀ b₁ b₂ b₃ : UInt8) : UInt32 :=
  b₀.toUInt32 <<< 24 ||| b₁.toUInt32 <<< 16 ||| b₂.toUInt32 <<< 8 ||| b₃.toUInt32

def isKey (word : UInt32) : Bool :=
  let naluType := (word >>> 24) &&& naluTypeBitmask
  (naluType = naluTtypeStapA && word &&& naluTypeBitmask = naluTtypeSps) ||
    naluType = naluTtypeSps

def parseRtp (payload : Bytes) (profile : H264Profile) (rid : Option UInt8)
    (rotation : Option MediaOrientation) : Option MediaMeta :=
  match payload with
  | b₀ :: b₁ :: b₂ :: b₃ :: _ =>
      some (.h264 (isKey (beWord b₀ b₁ b₂ b₃)) profile (rid.map fun rid => ⟨rid⟩) rotation)
  | _ => none

end Payload.H264

/-! ### The converter -/

structure RemoteMediaConvert where
  map : IndexMap UInt8 MediaCodec
  ssrcsRid : IndexMap UInt32 UInt8

/-- What a packet of a codec is made of: whether it may be asked for again, its layers and its
    meta. -/
structure Converted where
  nackable : Bool
  layers : Option MediaLayersBitrate
  mediaMeta : MediaMeta

namespace Str0mRtpPacket

variable (rtp : Str0mRtpPacket)

def rotation : Option MediaOrientation := rtp.videoOrientation.map fromWebrtcOrientation

def layers (extract : VideoLayersAllocation → Except Panic (Option MediaLayersBitrate)) :
    Except Panic (Option MediaLayersBitrate) :=
  match rtp.vla with
  | none => .ok none
  | some vla => extract vla

/-- The layers are read first, and the payload may still be refused. -/
def convertAs (spatial : Option UInt8) : MediaCodec → Except Panic (Option Converted)
  | .opus => .ok (some ⟨false, none, .opus rtp.audioLevel⟩)
  | .h264 profile => do
      let layers ← rtp.layers extractSimulcast
      let found := Payload.H264.parseRtp rtp.payload profile spatial rtp.rotation
      pure (found.map fun mediaMeta => ⟨true, layers, mediaMeta⟩)
  | .vp8 => do
      let layers ← rtp.layers extractSimulcast
      let found ← Payload.Vp8.parseRtp rtp.payload spatial rtp.rotation
      pure (found.map fun mediaMeta => ⟨true, layers, mediaMeta⟩)
  | .vp9 profile => do
      let layers ← rtp.layers extractSvc
      let found ← Payload.Vp9.parseRtp rtp.payload profile rtp.rotation
      pure (found.map fun mediaMeta => ⟨true, layers, mediaMeta⟩)

def packetOf (found : Converted) : MediaPacket :=
  { ts := rtp.timestamp
    seq := rtp.sequenceNumber
    marker := rtp.marker
    nackable := found.nackable
    layers := found.layers
    mediaMeta := found.mediaMeta
    data := rtp.payload }

end Str0mRtpPacket

namespace RemoteMediaConvert

def default : RemoteMediaConvert := ⟨∅, ∅⟩

def addParam (map : IndexMap UInt8 MediaCodec) (param : PayloadParams) :
    IndexMap UInt8 MediaCodec :=
  match str0mCodecConvert param.spec with
  | none => map
  | some codec => map.insert param.pt codec

def setConfig (c : RemoteMediaConvert) (cfg : CodecConfig) : RemoteMediaConvert :=
  { c with map := cfg.params.foldl addParam c.map }

def remotePtToCodec (c : RemoteMediaConvert) (pt : UInt8) : Option MediaCodec := c.map.get pt

/-- The layer of the stream: the packet names it, or an earlier one of its SSRC has. -/
def spatialOf (c : RemoteMediaConvert) (rtp : Str0mRtpPacket) :
    RemoteMediaConvert × Option UInt8 :=
  match rtp.rid with
  | some rid =>
      let layer := ridToSpatial rid
      if c.ssrcsRid.contains rtp.ssrc then (c, some layer)
      else ({ c with ssrcsRid := c.ssrcsRid.insert rtp.ssrc layer }, some layer)
  | none => (c, c.ssrcsRid.get rtp.ssrc)

def convert (c : RemoteMediaConvert) (rtp : Str0mRtpPacket) :
    Except Panic (RemoteMediaConvert × Option MediaPacket) :=
  let (c, spatial) := c.spatialOf rtp
  match c.remotePtToCodec rtp.payloadType with
  | none => .ok (c, none)
  | some codec => do
      let found ← rtp.convertAs spatial codec
      pure (c, found.map rtp.packetOf)

end RemoteMediaConvert

/-! ### What a packet becomes -/

theorem Payload.H264.isAudio_of_parseRtp {payload : Bytes} {profile : H264Profile}
    {rid : Option UInt8} {rotation : Option MediaOrientation} {mediaMeta : MediaMeta}
    (h : parseRtp payload profile rid rotation = some mediaMeta) : mediaMeta.isAudio = false := by
  unfold parseRtp at h
  split at h
  · rw [← Option.some.inj h]
    rfl
  · exact nomatch h

theorem MediaCodec.isAudio_iff {codec : MediaCodec} : codec.isAudio = true ↔ codec = .opus := by
  cases codec <;> simp [isAudio]

theorem Payload.Vp8.parseLayers_video (packet : Bytes) (rid : Option UInt8)
    (rotation : Option MediaOrientation) (vp8 : Vp8Header) (index : Nat) (s : BitReader) :
    wp (parseLayers packet rid rotation vp8 index) (fun found _ => ∀ m ∈ found, m.isAudio = false)
      (fun _ _ => True) s := by
  rw [parseLayers, wp_ite]
  split
  · intro m hm
    cases hm
  · refine wp_bind_of_forall fun read s => ?_
    rw [wp_ite]
    split
    · intro m hm
      cases hm
    · refine wp_bind_of_forall fun read s => ?_
      rw [wp_ite]
      split
      · intro m hm
        cases hm
      · refine wp_bind_of_forall fun isKey s m hm => ?_
        rw [← Option.some.inj hm]
        rfl

theorem Payload.Vp8.isAudio_of_parseRtp {payload : Bytes} {rid : Option UInt8}
    {rotation : Option MediaOrientation} {mediaMeta : MediaMeta}
    (h : parseRtp payload rid rotation = .ok (some mediaMeta)) : mediaMeta.isAudio = false := by
  have hpacket : wp (parsePacket payload rid rotation)
      (fun found _ => ∀ m ∈ found, m.isAudio = false) (fun _ _ => True) (past [] payload) := by
    rw [parsePacket, wp_ite]
    split
    · intro m hm
      cases hm
    · refine wp_bind_of_forall fun b _ => ?_
      refine wp_bind_of_forall fun extended _ => ?_
      refine wp_bind_of_forall fun read _ => ?_
      exact parseLayers_video _ _ _ _ _ _
  rw [parseRtp] at h
  rcases hparse : parse (parsePacket payload rid rotation) payload with panic | (_ | found)
  · rw [hparse] at h
    cases h
  · rw [hparse] at h
    cases h
  · rw [hparse] at h
    exact of_parse_eq_some hpacket hparse mediaMeta (Except.ok.inj h)

theorem Payload.Vp9.isAudio_of_parseRtp {payload : Bytes} {profile : Vp9Profile}
    {rotation : Option MediaOrientation} {mediaMeta : MediaMeta}
    (h : parseRtp payload profile rotation = .ok (some mediaMeta)) : mediaMeta.isAudio = false := by
  rw [parseRtp] at h
  rcases hparse : parse (parseFrom payload) payload with panic | (_ | found)
  · rw [hparse] at h
    cases h
  · rw [hparse] at h
    cases h
  · rw [hparse] at h
    rw [← Option.some.inj (Except.ok.inj h)]
    rfl

/-- A packet becomes audio exactly if its codec is. -/
theorem Str0mRtpPacket.isAudio_of_convertAs {rtp : Str0mRtpPacket} {spatial : Option UInt8}
    {codec : MediaCodec} {found : Converted}
    (h : rtp.convertAs spatial codec = .ok (some found)) :
    found.mediaMeta.isAudio = codec.isAudio := by
  cases codec with
  | opus =>
    rw [← Option.some.inj (Except.ok.inj h)]
    rfl
  | h264 profile =>
    obtain ⟨layers, _, h⟩ := Except.bind_eq_ok.mp h
    obtain ⟨mediaMeta, hmeta, rfl⟩ := Option.map_eq_some_iff.mp (Except.ok.inj h)
    exact Payload.H264.isAudio_of_parseRtp hmeta
  | vp8 =>
    obtain ⟨layers, _, h⟩ := Except.bind_eq_ok.mp h
    obtain ⟨found?, hparse, h⟩ := Except.bind_eq_ok.mp h
    obtain ⟨mediaMeta, rfl, rfl⟩ := Option.map_eq_some_iff.mp (Except.ok.inj h)
    exact Payload.Vp8.isAudio_of_parseRtp hparse
  | vp9 profile =>
    obtain ⟨layers, _, h⟩ := Except.bind_eq_ok.mp h
    obtain ⟨found?, hparse, h⟩ := Except.bind_eq_ok.mp h
    obtain ⟨mediaMeta, rfl, rfl⟩ := Option.map_eq_some_iff.mp (Except.ok.inj h)
    exact Payload.Vp9.isAudio_of_parseRtp hparse

/-- A packet with nothing set but its payload type, which every codec can read. -/
def Str0mRtpPacket.bare (pt : UInt8) : Str0mRtpPacket :=
  { payloadType := pt, payload := [0, 0, 0, 0] }

theorem Str0mRtpPacket.convertAs_bare (pt : UInt8) (spatial : Option UInt8) (codec : MediaCodec) :
    ∃ found, (bare pt).convertAs spatial codec = .ok (some found) := by
  cases codec with
  | opus => exact ⟨_, rfl⟩
  | h264 profile => exact ⟨_, rfl⟩
  | vp8 =>
    have hparse : Payload.Vp8.parseRtp [0, 0, 0, 0] spatial none =
        .ok (some (.vp8 false none none)) := rfl
    refine ⟨⟨true, none, .vp8 false none none⟩, Except.bind_eq_ok.mpr ⟨none, rfl, ?_⟩⟩
    exact Except.bind_eq_ok.mpr ⟨_, hparse, rfl⟩
  | vp9 profile =>
    have hparse : Payload.Vp9.parseRtp [0, 0, 0, 0] profile none =
        .ok (some (.vp9 false profile none none)) := rfl
    refine ⟨⟨true, none, .vp9 false profile none none⟩, Except.bind_eq_ok.mpr ⟨none, rfl, ?_⟩⟩
    exact Except.bind_eq_ok.mpr ⟨_, hparse, rfl⟩

namespace RemoteMediaConvert

theorem spatialOf_map (c : RemoteMediaConvert) (rtp : Str0mRtpPacket) :
    (c.spatialOf rtp).1.map = c.map := by
  unfold spatialOf
  split
  · dsimp only
    split
    · rfl
    · rfl
  · rfl

/-- What the converter learns from packets says nothing about codecs, and a media packet comes
    from a codec that was negotiated for its payload type. -/
theorem convert_eq_ok {c c' : RemoteMediaConvert} {rtp : Str0mRtpPacket} {pkt : Option MediaPacket}
    (h : c.convert rtp = .ok (c', pkt)) :
    c'.map = c.map ∧ ∀ p ∈ pkt, ∃ codec, c.remotePtToCodec rtp.payloadType = some codec ∧
      p.mediaMeta.isAudio = codec.isAudio := by
  have hmap := c.spatialOf_map rtp
  rw [convert] at h
  revert hmap h
  obtain ⟨c₁, spatial⟩ := c.spatialOf rtp
  intro h hmap
  dsimp only at hmap h
  rw [remotePtToCodec, hmap] at h
  simp only [remotePtToCodec]
  cases hcodec : c.map.get rtp.payloadType with
  | none =>
    rw [hcodec] at h
    obtain ⟨rfl, rfl⟩ := Prod.mk.inj (Except.ok.inj h)
    exact ⟨hmap, fun p hp => by cases hp⟩
  | some codec =>
    rw [hcodec] at h
    obtain ⟨found, hfound, h⟩ := Except.bind_eq_ok.mp h
    obtain ⟨rfl, rfl⟩ := Prod.mk.inj (Except.ok.inj h)
    refine ⟨hmap, fun p hp => ⟨codec, rfl, ?_⟩⟩
    obtain ⟨f, rfl, rfl⟩ := Option.map_eq_some_iff.mp hp
    exact Str0mRtpPacket.isAudio_of_convertAs hfound

/-- A bare packet of a negotiated codec gets through. -/
theorem convert_bare {c : RemoteMediaConvert} {pt : UInt8} {codec : MediaCodec}
    (h : c.remotePtToCodec pt = some codec) :
    ∃ pkt, c.convert (.bare pt) = .ok (c, some pkt) ∧ pkt.mediaMeta.isAudio = codec.isAudio := by
  obtain ⟨found, hfound⟩ := Str0mRtpPacket.convertAs_bare pt (c.ssrcsRid.get 0) codec
  refine ⟨(Str0mRtpPacket.bare pt).packetOf found, ?_, Str0mRtpPacket.isAudio_of_convertAs hfound⟩
  change (match c.remotePtToCodec pt with
    | none => Except.ok (c, none)
    | some codec => do
        let found ← (Str0mRtpPacket.bare pt).convertAs (c.ssrcsRid.get 0) codec
        pure (c, found.map (Str0mRtpPacket.bare pt).packetOf)) = _
  rw [h]
  dsimp only
  rw [hfound]
  rfl

/-! ### What a configuration adds -/

theorem get_addParam {map : IndexMap UInt8 MediaCodec} {param : PayloadParams} {pt : UInt8}
    {codec : MediaCodec} (h : (addParam map param).get pt = some codec) :
    map.get pt = some codec ∨ (param.pt = pt ∧ str0mCodecConvert param.spec = some codec) := by
  rw [addParam] at h
  split at h
  case h_1 => exact Or.inl h
  case h_2 codec' hconvert =>
    rw [IndexMap.get_insert] at h
    split at h
    case isTrue hpt => exact Or.inr ⟨hpt.symm, hconvert.trans h⟩
    case isFalse => exact Or.inl h

theorem get_foldl_addParam {params : List PayloadParams} {map : IndexMap UInt8 MediaCodec}
    {pt : UInt8} {codec : MediaCodec} (h : (params.foldl addParam map).get pt = some codec) :
    map.get pt = some codec ∨
      ∃ param ∈ params, param.pt = pt ∧ str0mCodecConvert param.spec = some codec := by
  induction params generalizing map with
  | nil => exact Or.inl h
  | cons param params ih =>
    rcases ih h with hmap | ⟨other, hmem, hother⟩
    · rcases get_addParam hmap with hold | hnew
      · exact Or.inl hold
      · exact Or.inr ⟨param, List.mem_cons_self, hnew⟩
    · exact Or.inr ⟨other, List.mem_cons_of_mem param hmem, hother⟩

/-- A payload type that no param has keeps its codec. -/
theorem get_foldl_addParam_of_notMem {params : List PayloadParams} {pt : UInt8}
    (h : pt ∉ params.map PayloadParams.pt) (map : IndexMap UInt8 MediaCodec) :
    (params.foldl addParam map).get pt = map.get pt := by
  induction params generalizing map with
  | nil => rfl
  | cons param params ih =>
    rw [List.map_cons, List.mem_cons, not_or] at h
    rw [List.foldl_cons, ih h.2, addParam]
    split
    · rfl
    · exact IndexMap.get_insert_ne map _ h.1

theorem get_foldl_addParam_of_mem {params : List PayloadParams} {param : PayloadParams}
    {codec : MediaCodec} (hnodup : (params.map PayloadParams.pt).Nodup) (hmem : param ∈ params)
    (hconvert : str0mCodecConvert param.spec = some codec) (map : IndexMap UInt8 MediaCodec) :
    (params.foldl addParam map).get param.pt = some codec := by
  induction params generalizing map with
  | nil => exact nomatch hmem
  | cons first params ih =>
    rw [List.map_cons, List.nodup_cons] at hnodup
    rcases List.mem_cons.mp hmem with rfl | hrest
    · rw [List.foldl_cons, get_foldl_addParam_of_notMem hnodup.1, addParam, hconvert]
      exact IndexMap.get_insert_self map param.pt codec
    · exact ih hnodup.2 hrest (addParam map first)

/-- The converter knows what a configuration says until the next one. -/
theorem get_setConfig_of_mem {cfg : CodecConfig} {param : PayloadParams} {codec : MediaCodec}
    (hmem : param ∈ cfg.params) (hconvert : str0mCodecConvert param.spec = some codec)
    (c : RemoteMediaConvert) : (c.setConfig cfg).remotePtToCodec param.pt = some codec :=
  get_foldl_addParam_of_mem cfg.nodup hmem hconvert c.map

/-- The converter learns no more than a configuration says. -/
theorem get_setConfig {c : RemoteMediaConvert} {cfg : CodecConfig} {pt : UInt8}
    {codec : MediaCodec} (h : (c.setConfig cfg).remotePtToCodec pt = some codec) :
    c.remotePtToCodec pt = some codec ∨
      ∃ param ∈ cfg.params, param.pt = pt ∧ str0mCodecConvert param.spec = some codec :=
  get_foldl_addParam h

end RemoteMediaConvert

end MediaServer.Transport
