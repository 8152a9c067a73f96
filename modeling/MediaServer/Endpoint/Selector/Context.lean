import MediaServer.Endpoint.Selector.Layers
import MediaServer.Utils.SeqRewrite
import MediaServer.Utils.TsRewrite

/-!
# What the selectors of a track share

`local_track/packet_selector.rs`.  Sequence numbers and timestamps of the forwarded stream are
rewritten by the packet selector of the track, and the numbers inside VP8 and VP9 payloads by the
selector of the codec; all rewriters live in one context that outlives the selectors.
-/

namespace MediaServer.Endpoint

inductive Action where
  | requestKeyFrame
deriving DecidableEq, Repr

namespace Vp8Sim

def picIdMax : Nat := 2 ^ 15
def tl0idxMax : Nat := 2 ^ 8

structure Ctx where
  picIdRewrite : SeqRewrite
  tl0idxRewrite : SeqRewrite
deriving DecidableEq

end Vp8Sim

namespace Vp9Svc

def picIdMax : Nat := 2 ^ 15

structure Ctx where
  picIdRewrite : SeqRewrite
deriving DecidableEq

end Vp9Svc

def seqMax : Nat := 2 ^ 16
def tsMax : Nat := 2 ^ 32

/-- The second parameter of `MediaTsRewrite`. -/
def tsDeltaReinit : Nat := 10

/-- `MediaKind::sample_rate`. -/
def sampleRate : MediaKind → Nat
  | .audio => 48000
  | .video => 90000

structure VideoSelectorCtx where
  tsRewrite : TsRewrite
  seqRewrite : SeqRewrite
  vp8Ctx : Vp8Sim.Ctx
  vp9Ctx : Vp9Svc.Ctx

namespace VideoSelectorCtx

def new (kind : MediaKind) : VideoSelectorCtx where
  tsRewrite := TsRewrite.new (sampleRate kind)
  seqRewrite := SeqRewrite.new
  vp8Ctx := ⟨SeqRewrite.new, SeqRewrite.new⟩
  vp9Ctx := ⟨SeqRewrite.new⟩

/-- `ctx.seq_rewrite.reinit(); ctx.ts_rewrite.reinit();`. -/
def reinit (ctx : VideoSelectorCtx) : VideoSelectorCtx :=
  { ctx with seqRewrite := ctx.seqRewrite.callReinit, tsRewrite := ctx.tsRewrite.reinit }

def reinitVp8 (ctx : VideoSelectorCtx) : VideoSelectorCtx :=
  { ctx with vp8Ctx :=
      ⟨ctx.vp8Ctx.picIdRewrite.callReinit, ctx.vp8Ctx.tl0idxRewrite.callReinit⟩ }

def reinitVp9 (ctx : VideoSelectorCtx) : VideoSelectorCtx :=
  { ctx with vp9Ctx := ⟨ctx.vp9Ctx.picIdRewrite.callReinit⟩ }

/-- `ctx.seq_rewrite.drop_value(pkt.seq as u64)`. -/
def dropSeq (ctx : VideoSelectorCtx) (seq : UInt16) : Except Panic VideoSelectorCtx := do
  let seqRewrite ← ctx.seqRewrite.dropValue seqMax seq.toNat
  return { ctx with seqRewrite }

/-- `if let Some(x) = field { field = Some(rewrite.generate(x as u64)?) }`.  The result is `none`
    when the `?` leaves. -/
def rewriteField (max : Nat) (rewrite : SeqRewrite) :
    Option Nat → Except Panic (Option (Option Nat) × SeqRewrite)
  | none => .ok (some none, rewrite)
  | some input => do
    let (output, rewrite) ← rewrite.generate max input
    return (output.map some, rewrite)

/-- `if let Some(x) = field { rewrite.drop_value(x as u64); }`. -/
def dropField (max : Nat) (rewrite : SeqRewrite) : Option Nat → Except Panic SeqRewrite
  | none => .ok rewrite
  | some input => rewrite.dropValue max input

end VideoSelectorCtx

/-- `(bitrate / 1000) as u16`. -/
def bitrateKbps (bitrate : UInt64) : UInt16 := (bitrate / 1000).toUInt16

theorem bitrateKbps_toNat (bitrate : UInt64) :
    (bitrateKbps bitrate).toNat = bitrate.toNat / 1000 % 2 ^ 16 := by
  simp [bitrateKbps]

end MediaServer.Endpoint
