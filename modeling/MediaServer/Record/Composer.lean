import MediaServer.Record.Mixing
import MediaServer.Record.SessionMerge
import MediaServer.Record.VpxDemuxer
import Mathlib.Logic.Function.Basic

/-!
# Composing a recording

`RecordComposer::compose` with its audio mixer (`media_record/src/convert/composer.rs`,
`composer/audio_mixer.rs`) and the WebM writer (`convert/codec/vpx_writer.rs`).  The rows of all
sessions are merged; the audio of the tracks is decoded and mixed, and the mixed frames are encoded
and written.  The writer is created for the first frame that the mixer hands out.  What is in the
mixer at the end is flushed.

The codecs, the listing of the sessions, and whether the output can be opened and uploaded are
parameters.  The video composer does nothing but log, and is left out.
-/

namespace MediaServer.Record

/-- A track of a session. -/
abbrev TrackKey := UInt64 × RemoteTrackId

/-- The Opus codecs over the states of a decoder and of an encoder. -/
structure Opus (D E : Type) where
  newDecoder : D
  newEncoder : E
  decode : D → Bytes → D × Option (List Int16)
  encode : E → List Int16 → E × Option Bytes

variable {D E : Type}

/-! ### The mixer -/

structure AudioMixer (D E : Type) where
  tracks : TrackKey → Option D
  mixer : MixerBuffer TrackKey
  encoder : E

/-- `MediaPacket::build_audio`. -/
def buildAudio (ts : UInt32) (seq : UInt16) (audioLevel : Option Int8) (data : Bytes) :
    MediaPacket :=
  { ts := ts, seq := seq, marker := true, nackable := false, layers := none
    mediaMeta := .opus audioLevel, data := data }

/-- The samples of a packet, if its track is there and the packet can be decoded. -/
def decodeMedia (opus : Opus D E) (tracks : TrackKey → Option D) (key : TrackKey) (data : Bytes) :
    (TrackKey → Option D) × Option (List Int16) :=
  if data.isEmpty then (tracks, none)
  else
    match tracks key with
    | none => (tracks, none)
    | some decoder =>
      let (decoder, samples) := opus.decode decoder data
      (Function.update tracks key (some decoder), samples)

namespace AudioMixer

def new (opus : Opus D E) : AudioMixer D E := ⟨fun _ => none, .new, opus.newEncoder⟩

def addTrack (opus : Opus D E) (m : AudioMixer D E) (key : TrackKey) : AudioMixer D E :=
  { m with tracks := Function.update m.tracks key (some opus.newDecoder) }

def removeTrack (m : AudioMixer D E) (key : TrackKey) : AudioMixer D E :=
  { m with tracks := Function.update m.tracks key none }

/-- A frame that the mixer handed out becomes a packet, if it can be encoded. -/
def encodeFrame (opus : Opus D E) (m : AudioMixer D E) :
    Option (UInt64 × List Int16) → AudioMixer D E × Option (UInt64 × MediaPacket)
  | none => (m, none)
  | some (ts, frame) =>
    let (encoder, data) := opus.encode m.encoder frame
    ({ m with encoder := encoder }, data.map fun data => (ts, buildAudio 0 0 none data))

def onMedia (opus : Opus D E) (m : AudioMixer D E) (key : TrackKey) (ts : UInt64)
    (media : MediaPacket) : Except Panic (AudioMixer D E × Option (UInt64 × MediaPacket)) :=
  match decodeMedia opus m.tracks key media.data with
  | (tracks, none) => .ok ({ m with tracks := tracks }, none)
  | (tracks, some samples) => do
    let (popped, mixer) ← m.mixer.push ts key samples
    .ok (encodeFrame opus { m with tracks := tracks, mixer := mixer } popped)

def forcePop (opus : Opus D E) (m : AudioMixer D E) :
    AudioMixer D E × Option (UInt64 × MediaPacket) :=
  let (popped, mixer) := m.mixer.forcePop
  encodeFrame opus { m with mixer := mixer } popped

end AudioMixer

/-! ### The writer -/

/-- What is written to the audio track and to the video track: times in nanoseconds and data, for
    video with the key flag. -/
structure VpxWriter where
  startTs : UInt64
  lastTs : UInt64
  audio : List (UInt64 × Bytes)
  video : Option VpxDemuxer
  frames : List (UInt64 × Bytes × Bool)

namespace VpxWriter

def new (startTs : UInt64) : VpxWriter := ⟨startTs, startTs, [], none, []⟩

def subtracted (a b : UInt64) : Except Panic UInt64 :=
  if b ≤ a then .ok (a - b) else .error ⟨"attempt to subtract with overflow"⟩

/-- `delta_ts * 1_000_000`. -/
def nanos (deltaTs : UInt64) : Except Panic UInt64 :=
  if deltaTs.toNat * 1000000 < 2 ^ 64 then .ok (deltaTs * 1000000)
  else .error ⟨"attempt to multiply with overflow"⟩

def duration (w : VpxWriter) : Except Panic UInt64 := subtracted w.lastTs w.startTs

/-- The demuxer of the video track, which the first packet opens. -/
def videoTrack (w : VpxWriter) (mediaMeta : MediaMeta) : Except Panic VpxDemuxer :=
  match w.video, mediaMeta with
  | some demuxer, _ => .ok demuxer
  | none, .vp8 .. => .ok .new
  | none, .vp9 .. => .ok .new
  | none, _ => .error ⟨"Wrong codec, should be vp8 or vp9"⟩

def pushMedia (dep : Depacketizers) (w : VpxWriter) (pktMs : UInt64) (pkt : MediaPacket) :
    Except Panic VpxWriter := do
  let deltaTs ← subtracted pktMs w.startTs
  let w := { w with lastTs := pktMs }
  if pkt.mediaMeta.isAudio then do
    let ns ← nanos deltaTs
    .ok { w with audio := w.audio ++ [(ns, pkt.data)] }
  else do
    let demuxer ← w.videoTrack pkt.mediaMeta
    let (demuxer, returned) ← demuxer.push dep pkt
    let w := { w with video := some demuxer }
    match returned with
    | none => .ok w
    | some (key, data) => do
      let ns ← nanos deltaTs
      .ok { w with frames := w.frames ++ [(ns, data, key)] }

end VpxWriter

/-! ### The composer -/

structure RecordComposerConfig where
  audio : Bool
  video : Bool
  outputRelative : String

/-- What the composer finds: the sessions of the room, and what opening the output and uploading
    it come to; nothing is uploaded for a local output. -/
structure ComposerEnv where
  codes : Codes
  store : ObjectStore
  listing : Except String (List SessionReader)
  openOutput : Except String Unit
  upload : Option (Except String Unit)

structure RecordComposer (D E : Type) where
  audioMixer : Option (AudioMixer D E)
  trackWriter : Option VpxWriter

structure RecordComposerResult where
  mediaUri : String
  durationMs : UInt64

/-- A call that returns an error message. -/
def orErr {α : Type} : Except String α → Except Stop α
  | .error message => .error (.err message)
  | .ok a => .ok a

namespace RecordComposer

variable (opus : Opus D E) (dep : Depacketizers) (cfg : RecordComposerConfig) (env : ComposerEnv)

def new : RecordComposer D E :=
  ⟨if cfg.audio then some (.new opus) else none, none⟩

/-- A kind of media that is not composed. -/
def skips (isAudio : Bool) : Bool := (!cfg.audio && isAudio) || (!cfg.video && !isAudio)

/-- A packet of the mixer goes to the writer, which the first one creates. -/
def writeMedia (s : RecordComposer D E) :
    Option (UInt64 × MediaPacket) → Except Stop (RecordComposer D E)
  | none => .ok s
  | some (ts, pkt) =>
    match s.trackWriter with
    | some file => do
      let file ← orPanic (file.pushMedia dep ts pkt)
      .ok { s with trackWriter := some file }
    | none => do
      orErr env.openOutput
      let file ← orPanic ((VpxWriter.new ts).pushMedia dep ts pkt)
      .ok { s with trackWriter := some file }

/-- What the loop does with a row of a session. -/
def onRow (sessionId : UInt64) (row : SessionRecordRow) (s : RecordComposer D E) :
    Except Stop (RecordComposer D E) :=
  match row.event with
  | .trackStarted track _ trackMeta =>
    if skips cfg trackMeta.kind.isAudio then .ok s
    else if trackMeta.kind.isAudio then
      .ok { s with audioMixer := s.audioMixer.map (·.addTrack opus (sessionId, track)) }
    else .ok s
  | .trackMedia track media =>
    if skips cfg media.mediaMeta.isAudio then .ok s
    else if media.mediaMeta.isAudio then
      match s.audioMixer with
      | none => .ok s
      | some mixer => do
        let (mixer, popped) ← orPanic (mixer.onMedia opus (sessionId, track) row.ts media)
        writeMedia dep env { s with audioMixer := some mixer } popped
    else .ok s
  | .trackStopped track =>
    .ok { s with audioMixer := s.audioMixer.map (·.removeTrack (sessionId, track)) }
  | _ => .ok s

/-- The loop over `force_pop` at the end, for at most so many frames. -/
def flush : Nat → AudioMixer D E → Option VpxWriter → Except Panic (Option VpxWriter)
  | 0, _, writer => .ok writer
  | n + 1, mixer, writer =>
    match mixer.forcePop opus with
    | (_, none) => .ok writer
    | (mixer, some (ts, pkt)) =>
      match writer with
      | none => .error ⟨"must have track"⟩
      | some file => do
        let file ← file.pushMedia dep ts pkt
        flush n mixer (some file)

/-- What comes after the loop: the result, and the writer with all that was written. -/
def finish (s : RecordComposer D E) : Except Stop (RecordComposerResult × VpxWriter) := do
  let writer ←
    match s.audioMixer with
    | none => .ok s.trackWriter
    | some mixer => orPanic (flush opus dep mixer.mixer.frames.length mixer s.trackWriter)
  match writer with
  | none => .error (.err "record empty")
  | some file => do
    let durationMs ← orPanic file.duration
    match env.upload with
    | none => .ok (⟨cfg.outputRelative, durationMs⟩, file)
    | some uploaded => do
      orErr uploaded
      .ok (⟨cfg.outputRelative, durationMs⟩, file)

/-- `compose` with so many rounds of its loop; nothing if these do not suffice. -/
def compose (fuel : Nat) : Except Stop (Option (RecordComposerResult × VpxWriter)) := do
  let readers ← orErr env.listing
  let sessions ← connectAll env.codes env.store .empty readers
  match ← rounds env.codes env.store (onRow opus dep cfg env) fuel sessions (new opus cfg) with
  | none => .ok none
  | some s => do
    let composed ← finish opus dep cfg env s
    .ok (some composed)

end RecordComposer

end MediaServer.Record
