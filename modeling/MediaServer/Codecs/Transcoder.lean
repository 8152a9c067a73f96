import MediaServer.Lib.TaskGroup
import MediaServer.Protocol

/-!
# Transcoding of audio

`AudioTranscoder` (`media_codecs/src/lib.rs`) decodes into a buffer of 20 ms and encodes what is
there; `PcmaDecoder` (`pcma.rs`) decodes packets of exactly 20 ms and brings them to 48 kHz.  The
resampler and the Opus encoder are libraries, with a state of their own.
-/

namespace MediaServer.Codecs

abbrev Samples := List Int16

/-- `soxr` is given the room that it may fill, and may fail. -/
abbrev Soxr (ρ : Type) := ρ → Samples → Nat → Option (Samples × ρ)

/-- A decoder is given the room for its samples. -/
abbrev AudioDecoder (δ : Type) := δ → Bytes → Nat → Except Panic (Option Samples × δ)

/-- An encoder is given the room for its bytes; a failure is `none`. -/
abbrev AudioEncoder (ε : Type) := ε → Samples → Nat → Option Bytes × ε

def outOfRange : Panic := ⟨"range end index out of range for slice"⟩

/-- The room for the samples of a packet, 20 ms at 48 kHz. -/
def bufSamples : Nat := 960

/-! ### A-law -/

def alawToLinearTable : List Int16 :=
  [-5504, -5248, -6016, -5760, -4480, -4224, -4992, -4736, -7552, -7296, -8064, -7808, -6528,
    -6272, -7040, -6784, -2752, -2624, -3008, -2880, -2240, -2112, -2496, -2368, -3776, -3648,
    -4032, -3904, -3264, -3136, -3520, -3392, -22016, -20992, -24064, -23040, -17920, -16896,
    -19968, -18944, -30208, -29184, -32256, -31232, -26112, -25088, -28160, -27136, -11008,
    -10496, -12032, -11520, -8960, -8448, -9984, -9472, -15104, -14592, -16128, -15616, -13056,
    -12544, -14080, -13568, -344, -328, -376, -360, -280, -264, -312, -296, -472, -456, -504,
    -488, -408, -392, -440, -424, -88, -72, -120, -104, -24, -8, -56, -40, -216, -200, -248, -232,
    -152, -136, -184, -168, -1376, -1312, -1504, -1440, -1120, -1056, -1248, -1184, -1888, -1824,
    -2016, -1952, -1632, -1568, -1760, -1696, -688, -656, -752, -720, -560, -528, -624, -592,
    -944, -912, -1008, -976, -816, -784, -880, -848, 5504, 5248, 6016, 5760, 4480, 4224, 4992,
    4736, 7552, 7296, 8064, 7808, 6528, 6272, 7040, 6784, 2752, 2624, 3008, 2880, 2240, 2112,
    2496, 2368, 3776, 3648, 4032, 3904, 3264, 3136, 3520, 3392, 22016, 20992, 24064, 23040, 17920,
    16896, 19968, 18944, 30208, 29184, 32256, 31232, 26112, 25088, 28160, 27136, 11008, 10496,
    12032, 11520, 8960, 8448, 9984, 9472, 15104, 14592, 16128, 15616, 13056, 12544, 14080, 13568,
    344, 328, 376, 360, 280, 264, 312, 296, 472, 456, 504, 488, 408, 392, 440, 424, 88, 72, 120,
    104, 24, 8, 56, 40, 216, 200, 248, 232, 152, 136, 184, 168, 1376, 1312, 1504, 1440, 1120,
    1056, 1248, 1184, 1888, 1824, 2016, 1952, 1632, 1568, 1760, 1696, 688, 656, 752, 720, 560,
    528, 624, 592, 944, 912, 1008, 976, 816, 784, 880, 848]

def alawToLinear (alawValue : UInt8) : Int16 := alawToLinearTable.getD alawValue.toNat 0

def decodePcma (input : Bytes) : Samples := input.map alawToLinear

/-! ### Resampling and transcoding -/

section

variable {ρ δ ε : Type}

/-- The output is sliced to the room that the input needs. -/
def resample (soxr : Soxr ρ) (source target : Nat) (s : ρ) (input : Samples) (outLen : Nat) :
    Except Panic (Samples × ρ) :=
  let room := input.length * target / source
  if outLen < room then .error outOfRange
  else
    match soxr s input room with
    | none => .error ⟨"Should process"⟩
    | some made => .ok made

def pcmaDecode (soxr : Soxr ρ) : AudioDecoder ρ := fun s inBuf outLen =>
  if inBuf.length ≠ 160 then .ok (none, s)
  else do
    let (samples, s) ← resample soxr 8000 48000 s (decodePcma inBuf) outLen
    pure (some samples, s)

/-- The states of the two halves. -/
structure AudioTranscoder (δ ε : Type) where
  decoder : δ
  encoder : ε

/-- What was decoded is sliced from the buffer, and what was encoded from the output. -/
def transcode (decode : AudioDecoder δ) (encode : AudioEncoder ε) (t : AudioTranscoder δ ε)
    (input : Bytes) (outLen : Nat) : Except Panic (Option Bytes × AudioTranscoder δ ε) := do
  let (rawSamples, decoder) ← decode t.decoder input bufSamples
  match rawSamples with
  | none => pure (none, ⟨decoder, t.encoder⟩)
  | some rawSamples =>
      if bufSamples < rawSamples.length then throw outOfRange
      else
        let (data, encoder) := encode t.encoder rawSamples outLen
        if data.any fun data => outLen < data.length then throw outOfRange
        else pure (data, ⟨decoder, encoder⟩)

/-- A frame of 20 ms gets through the resampler and the encoder, within the room for it. -/
def AcceptsFrames (soxr : Soxr ρ) (encode : AudioEncoder ε) (outLen : Nat) : Prop :=
  ∀ s e samples, samples.length = 160 →
    ∃ made s' data e', soxr s samples bufSamples = some (made, s') ∧ made.length ≤ bufSamples ∧
      encode e made outLen = (some data, e') ∧ data.length ≤ outLen

theorem length_decodePcma (input : Bytes) : (decodePcma input).length = input.length :=
  List.length_map alawToLinear

variable {soxr : Soxr ρ} {encode : AudioEncoder ε} {outLen : Nat}

/-- What is not a frame is left alone. -/
theorem transcode_of_ne {input : Bytes} (h : input.length ≠ 160) (t : AudioTranscoder ρ ε) :
    transcode (pcmaDecode soxr) encode t input outLen = .ok (none, t) := by
  rw [transcode, pcmaDecode, if_pos h]
  rfl

/-- A frame becomes a packet. -/
theorem transcode_frame (haccepts : AcceptsFrames soxr encode outLen) {input : Bytes}
    (h : input.length = 160) (t : AudioTranscoder ρ ε) :
    ∃ data t', transcode (pcmaDecode soxr) encode t input outLen = .ok (some data, t') := by
  have hlen : (decodePcma input).length = 160 := (length_decodePcma input).trans h
  obtain ⟨made, s', data, e', hprocess, hmade, hencode, hdata⟩ :=
    haccepts t.decoder t.encoder (decodePcma input) hlen
  have hresample : resample soxr 8000 48000 t.decoder (decodePcma input) bufSamples =
      .ok (made, s') := by
    rw [resample, hlen]
    change (if bufSamples < bufSamples then _ else
      match soxr t.decoder (decodePcma input) bufSamples with
      | none => _
      | some made => _) = _
    rw [if_neg (Nat.lt_irrefl bufSamples), hprocess]
  have hdecode : pcmaDecode soxr t.decoder input bufSamples = .ok (some made, s') := by
    rw [pcmaDecode, if_neg (not_not.mpr h), hresample]
    rfl
  refine ⟨data, ⟨s', e'⟩, ?_⟩
  rw [transcode, hdecode]
  refine Except.bind_eq_ok.mpr ⟨_, rfl, ?_⟩
  dsimp only
  rw [if_neg (Nat.not_lt.mpr hmade), hencode]
  dsimp only
  rw [if_neg]
  · rfl
  · rw [Option.any_some, decide_eq_true_iff]
    exact Nat.not_lt.mpr hdata

end

end MediaServer.Codecs
