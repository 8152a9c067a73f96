import MediaServer.Record.Composer
import MediaServer.Record.MixAccounting

/-!
# What a composer writes

The composer as the mixer over what the tracks push.  Its state is a function of the session of the
mixer (`stateOf`): the writer is there exactly when a push has handed out a frame, and it has
written the frames that were handed out.  Only more than ten frames make a push hand one out, so a
recording with fewer frames comes to the flush without a writer.
-/

namespace MediaServer.Record

variable {D E : Type} (opus : Opus D E) (dep : Depacketizers)

/-! ### What the tracks push -/

/-- The decoders after a row, and what it pushes into the mixer. -/
def rowPush (tracks : TrackKey → Option D) (sessionId : UInt64) (row : SessionRecordRow) :
    (TrackKey → Option D) × Option (Push TrackKey) :=
  match row.event with
  | .trackStarted track _ trackMeta =>
    if trackMeta.kind.isAudio then
      (Function.update tracks (sessionId, track) (some opus.newDecoder), none)
    else (tracks, none)
  | .trackMedia track media =>
    if media.mediaMeta.isAudio then
      let (tracks, samples) := decodeMedia opus tracks (sessionId, track) media.data
      (tracks, samples.map fun data => ⟨row.ts, (sessionId, track), data⟩)
    else (tracks, none)
  | .trackStopped track => (Function.update tracks (sessionId, track) none, none)
  | _ => (tracks, none)

def audioPushes : (TrackKey → Option D) → List (UInt64 × SessionRecordRow) → List (Push TrackKey)
  | _, [] => []
  | tracks, (sessionId, row) :: rows =>
    (rowPush opus tracks sessionId row).2.toList ++
      audioPushes (rowPush opus tracks sessionId row).1 rows

/-- The decoders after some rows. -/
def tracksAfter : (TrackKey → Option D) → List (UInt64 × SessionRecordRow) → TrackKey → Option D
  | tracks, [] => tracks
  | tracks, (sessionId, row) :: rows => tracksAfter (rowPush opus tracks sessionId row).1 rows

theorem ts_of_rowPush {tracks : TrackKey → Option D} {sessionId : UInt64} {row : SessionRecordRow}
    {p : Push TrackKey} (h : (rowPush opus tracks sessionId row).2 = some p) : p.ts = row.ts := by
  unfold rowPush at h
  split at h
  · split at h
    · exact nomatch h
    · exact nomatch h
  · split at h
    · obtain ⟨samples, -, rfl⟩ := Option.map_eq_some_iff.mp h
      rfl
    · exact nomatch h
  · exact nomatch h
  · exact nomatch h

theorem ts_of_audioPushes {tracks : TrackKey → Option D} {rows : List (UInt64 × SessionRecordRow)}
    {p : Push TrackKey} (h : p ∈ audioPushes opus tracks rows) : ∃ row ∈ rows, p.ts = row.2.ts := by
  induction rows generalizing tracks with
  | nil => exact nomatch h
  | cons entry rows ih =>
    obtain ⟨sessionId, row⟩ := entry
    rcases List.mem_append.mp h with hfirst | hrest
    · exact ⟨(sessionId, row), List.mem_cons_self,
        ts_of_rowPush opus (Option.mem_toList.mp hfirst)⟩
    · obtain ⟨later, hmem, hts⟩ := ih hrest
      exact ⟨later, List.mem_cons_of_mem _ hmem, hts⟩

/-- Rows in order push in order. -/
theorem audioPushes_pairwise {tracks : TrackKey → Option D}
    {rows : List (UInt64 × SessionRecordRow)}
    (h : rows.Pairwise fun row next => row.2.ts ≤ next.2.ts) :
    (audioPushes opus tracks rows).Pairwise fun p next => p.ts ≤ next.ts := by
  induction rows generalizing tracks with
  | nil => exact .nil
  | cons entry rows ih =>
    obtain ⟨sessionId, row⟩ := entry
    obtain ⟨hfirst, hrest⟩ := List.pairwise_cons.mp h
    refine List.pairwise_append.mpr ⟨?_, ih hrest, ?_⟩
    · cases (rowPush opus tracks sessionId row).2 with
      | none => exact .nil
      | some p => exact List.pairwise_singleton _ _
    · intro p hp next hnext
      obtain ⟨later, hmem, hts⟩ := ts_of_audioPushes opus hnext
      rw [ts_of_rowPush opus (Option.mem_toList.mp hp), hts]
      exact hfirst later hmem

/-! ### Encoding and writing -/

/-- The encoder after some frames, and their encodings. -/
def encodeAll : E → List (UInt64 × List Int16) → E × List (UInt64 × Bytes)
  | e, [] => (e, [])
  | e, (ts, frame) :: frames =>
    ((encodeAll (opus.encode e frame).1 frames).1,
      (ts, (opus.encode e frame).2.getD []) :: (encodeAll (opus.encode e frame).1 frames).2)

theorem encodeAll_append (e : E) (frames more : List (UInt64 × List Int16)) :
    encodeAll opus e (frames ++ more) =
      ((encodeAll opus (encodeAll opus e frames).1 more).1,
        (encodeAll opus e frames).2 ++ (encodeAll opus (encodeAll opus e frames).1 more).2) := by
  induction frames generalizing e with
  | nil => rfl
  | cons frame frames ih =>
    obtain ⟨ts, frame⟩ := frame
    rw [List.cons_append, encodeAll, ih]
    rfl

theorem encodeAll_concat {e : E} {frames : List (UInt64 × List Int16)} {ts : UInt64}
    {frame : List Int16} {data : Bytes}
    (hdata : (opus.encode (encodeAll opus e frames).1 frame).2 = some data) :
    encodeAll opus e (frames ++ [(ts, frame)]) =
      ((opus.encode (encodeAll opus e frames).1 frame).1,
        (encodeAll opus e frames).2 ++ [(ts, data)]) := by
  rw [encodeAll_append, encodeAll, encodeAll, hdata]
  rfl

@[simp] theorem encodeAll_times (e : E) (frames : List (UInt64 × List Int16)) :
    (encodeAll opus e frames).2.map Prod.fst = frames.map Prod.fst := by
  induction frames generalizing e with
  | nil => rfl
  | cons frame frames ih =>
    obtain ⟨ts, frame⟩ := frame
    rw [encodeAll, List.map_cons, ih]
    rfl

/-- The encoder takes every frame that a mixer hands out. -/
def Opus.Total (opus : Opus D E) : Prop :=
  ∀ e frame, frame.length = frameSamples → ∃ data, (opus.encode e frame).2 = some data

/-- The times of frames as they are written, from the first one on. -/
def written (frames : List (UInt64 × Bytes)) : List (UInt64 × Bytes) :=
  match frames with
  | [] => []
  | first :: _ => frames.map fun frame => ((frame.1 - first.1) * 1000000, frame.2)

/-- The writer after some frames. -/
def writerOf (frames : List (UInt64 × Bytes)) : Option VpxWriter :=
  match frames with
  | [] => none
  | first :: rest =>
    some { startTs := first.1, lastTs := ((rest.getLast?).getD first).1
           audio := written frames, video := none, frames := [] }

/-- The checks on the time of a frame. -/
def checkTime (start ts : UInt64) : Except Panic Unit := do
  let deltaTs ← VpxWriter.subtracted ts start
  let _ ← VpxWriter.nanos deltaTs
  .ok ()

/-- The time is not before the first one, and not so late that its nanoseconds do not fit. -/
def Writable (start ts : UInt64) : Prop :=
  start ≤ ts ∧ (ts.toNat - start.toNat) * 1000000 < 2 ^ 64

instance (start ts : UInt64) : Decidable (Writable start ts) := inferInstanceAs (Decidable (_ ∧ _))

-- not by `rfl` at the multiplication: the kernel would count its second factor down
theorem ok_bind {ε α β : Type} (a : α) (f : α → Except ε β) : (Except.ok a >>= f) = f a := rfl

theorem subtracted_of_le {a b : UInt64} (h : b ≤ a) : VpxWriter.subtracted a b = .ok (a - b) :=
  if_pos h

theorem subtracted_of_not_le {a b : UInt64} (h : ¬b ≤ a) :
    VpxWriter.subtracted a b = .error ⟨"attempt to subtract with overflow"⟩ := if_neg h

theorem checkTime_eq_ok_iff {start ts : UInt64} : checkTime start ts = .ok () ↔ Writable start ts := by
  unfold checkTime Writable
  by_cases hle : start ≤ ts
  · have hdelta : (ts - start).toNat = ts.toNat - start.toNat :=
      UInt64.toNat_sub_of_le _ _ (UInt64.le_iff_toNat_le.mp hle)
    rw [subtracted_of_le hle, ok_bind, VpxWriter.nanos, hdelta, and_iff_right hle]
    split
    · rename_i hfits
      rw [ok_bind]
      exact iff_of_true rfl hfits
    · rename_i hfits
      exact iff_of_false (fun h => nomatch h) hfits
  · rw [subtracted_of_not_le hle]
    exact iff_of_false (fun h => nomatch h) (fun h => hle h.1)

theorem checkTime_self (ts : UInt64) : checkTime ts ts = .ok () := by
  rw [checkTime_eq_ok_iff]
  exact ⟨UInt64.le_refl ts, by rw [Nat.sub_self]; decide⟩

theorem pushMedia_audio (w : VpxWriter) (ts : UInt64) (data : Bytes) :
    w.pushMedia dep ts (buildAudio 0 0 none data) =
      (checkTime w.startTs ts).map fun _ =>
        { w with lastTs := ts, audio := w.audio ++ [((ts - w.startTs) * 1000000, data)] } := by
  have haudio : (buildAudio 0 0 none data).mediaMeta.isAudio = true := rfl
  rw [VpxWriter.pushMedia, checkTime]
  by_cases hle : w.startTs ≤ ts
  · rw [subtracted_of_le hle, ok_bind, ok_bind, if_pos haudio, VpxWriter.nanos]
    split
    · rw [ok_bind, ok_bind]
      rfl
    · rfl
  · rw [subtracted_of_not_le hle]
    rfl

theorem written_cons (first : UInt64 × Bytes) (rest : List (UInt64 × Bytes)) :
    written (first :: rest) =
      (first :: rest).map fun frame => ((frame.1 - first.1) * 1000000, frame.2) := rfl

/-- The first frame creates the writer. -/
theorem writerOf_single (ts : UInt64) (data : Bytes) :
    ∃ file, (VpxWriter.new ts).pushMedia dep ts (buildAudio 0 0 none data) = .ok file ∧
      writerOf [(ts, data)] = some file := by
  rw [pushMedia_audio]
  change ∃ file, (checkTime ts ts).map _ = .ok file ∧ _
  rw [checkTime_self]
  exact ⟨_, rfl, rfl⟩

/-- A later frame is written behind the others if its time allows. -/
theorem writerOf_concat (first : UInt64 × Bytes) (rest : List (UInt64 × Bytes)) (ts : UInt64)
    (data : Bytes) :
    ∃ file file', writerOf (first :: rest) = some file ∧
      file.pushMedia dep ts (buildAudio 0 0 none data) =
        (checkTime first.1 ts).map (fun _ => file') ∧
      writerOf (first :: rest ++ [(ts, data)]) = some file' := by
  refine ⟨_, _, rfl, pushMedia_audio dep _ ts data, ?_⟩
  rw [List.cons_append, writerOf, List.getLast?_concat, written_cons, ← List.cons_append,
    List.map_append, List.map_singleton, written_cons]
  rfl

/-! ### The composer follows the mixer -/

open MixSession

/-- A push of the session, and the checks on the frame that it hands out: the first one opens the
    output, the others have to be writable. -/
def composeStep (openOutput : Except String Unit) (ms : MixSession TrackKey) (p : Push TrackKey) :
    Except Stop (MixSession TrackKey) := do
  let (out, buffer) ← orPanic (ms.buffer.push p.ts p.track p.data)
  let ms' : MixSession TrackKey :=
    ⟨buffer, ms.returned ++ out.toList, ms.tickets ++ [ms.ticket p]⟩
  match out, ms.returned with
  | none, _ => .ok ms'
  | some _, [] => (orErr openOutput).map fun _ => ms'
  | some (ts, _), first :: _ => (orPanic (checkTime first.1 ts)).map fun _ => ms'

/-- The composer when its mixer is in this state and the writer has what was handed out. -/
def stateOf (tracks : TrackKey → Option D) (ms : MixSession TrackKey) : RecordComposer D E :=
  { audioMixer := some
      { tracks := tracks, mixer := ms.buffer
        encoder := (encodeAll opus opus.newEncoder ms.returned).1 }
    trackWriter := writerOf (encodeAll opus opus.newEncoder ms.returned).2 }

theorem length_of_push {b b' : MixerBuffer TrackKey} {p : Push TrackKey} {ts : UInt64}
    {frame : List Int16} (h : b.push p.ts p.track p.data = .ok (some (ts, frame), b')) :
    frame.length = frameSamples := by
  rcases MixerBuffer.push_eq_ok h with ⟨-, hnone, -⟩ | ⟨i, b₁, -, ⟨-, hnone, -⟩ | ⟨front, rest, -, -, hout, -⟩⟩
  · exact nomatch hnone
  · exact nomatch hnone
  · rw [(Prod.mk.inj (Option.some.inj hout)).2, List.length_map]
    exact front.size

/-- A packet of the mixer is written, or stops the composer, as the checks say. -/
theorem writeMedia_stateOf (env : ComposerEnv) (tracks : TrackKey → Option D)
    {ms : MixSession TrackKey} (buffer : MixerBuffer TrackKey) (ts : UInt64) {frame : List Int16}
    {data : Bytes} (tickets : List (Option Nat))
    (hdata : (opus.encode (encodeAll opus opus.newEncoder ms.returned).1 frame).2 = some data) :
    RecordComposer.writeMedia dep env
        { audioMixer := some
            { tracks := tracks, mixer := buffer
              encoder := (opus.encode (encodeAll opus opus.newEncoder ms.returned).1 frame).1 }
          trackWriter := writerOf (encodeAll opus opus.newEncoder ms.returned).2 }
        (some (ts, buildAudio 0 0 none data)) =
      (match ms.returned with
        | [] => orErr env.openOutput
        | first :: _ => orPanic (checkTime first.1 ts)).map fun _ =>
          stateOf opus tracks ⟨buffer, ms.returned ++ [(ts, frame)], tickets⟩ := by
  rw [stateOf, encodeAll_concat opus hdata, RecordComposer.writeMedia]
  cases hreturned : ms.returned with
  | nil =>
    obtain ⟨file, hpush, hfile⟩ := writerOf_single dep ts data
    change (orErr env.openOutput >>= fun _ => _) = _
    cases env.openOutput with
    | error message => rfl
    | ok u =>
      change (orPanic ((VpxWriter.new ts).pushMedia dep ts (buildAudio 0 0 none data)) >>= _) = _
      rw [hpush]
      have hwriter : writerOf ((encodeAll opus opus.newEncoder []).2 ++ [(ts, data)]) = some file :=
        hfile
      rw [hwriter]
      rfl
  | cons first rest =>
    obtain ⟨t, samples⟩ := first
    rw [encodeAll]
    obtain ⟨file, file', hfile, hpush, hfile'⟩ := writerOf_concat dep
      (t, (opus.encode opus.newEncoder samples).2.getD [])
      (encodeAll opus (opus.encode opus.newEncoder samples).1 rest).2 ts data
    dsimp only
    rw [hfile, hfile']
    dsimp only
    rw [hpush]
    cases checkTime t ts <;> rfl

variable {opus} {cfg : RecordComposerConfig} {env : ComposerEnv}

theorem onMedia_stateOf (htotal : opus.Total) {tracks : TrackKey → Option D}
    {ms : MixSession TrackKey} {key : TrackKey} {ts : UInt64} {media : MediaPacket}
    {tracks' : TrackKey → Option D} {samples : List Int16}
    (hdecoded : decodeMedia opus tracks key media.data = (tracks', some samples)) :
    (do
      let (mixer, popped) ← orPanic (AudioMixer.onMedia opus
        { tracks := tracks, mixer := ms.buffer
          encoder := (encodeAll opus opus.newEncoder ms.returned).1 } key ts media)
      RecordComposer.writeMedia dep env
        { stateOf opus tracks ms with audioMixer := some mixer } popped) =
      (composeStep env.openOutput ms ⟨ts, key, samples⟩).map (stateOf opus tracks') := by
  unfold AudioMixer.onMedia composeStep
  rw [hdecoded]
  dsimp only
  cases hpush : ms.buffer.push ts key samples with
  | error panic => rfl
  | ok result =>
    obtain ⟨out, buffer⟩ := result
    cases out with
    | none =>
      change Except.ok _ = Except.ok (stateOf opus tracks' ⟨buffer, ms.returned ++ [], _⟩)
      rw [List.append_nil]
      rfl
    | some out =>
      obtain ⟨popped, frame⟩ := out
      obtain ⟨data, hdata⟩ := htotal (encodeAll opus opus.newEncoder ms.returned).1 frame
        (length_of_push (p := ⟨ts, key, samples⟩) hpush)
      have hwrite := writeMedia_stateOf opus dep env tracks' buffer popped
        (ms.tickets ++ [ms.ticket ⟨ts, key, samples⟩]) hdata
      change RecordComposer.writeMedia dep env
        { audioMixer := some
            { tracks := tracks', mixer := buffer
              encoder := (opus.encode (encodeAll opus opus.newEncoder ms.returned).1 frame).1 }
          trackWriter := writerOf (encodeAll opus opus.newEncoder ms.returned).2 }
        ((opus.encode (encodeAll opus opus.newEncoder ms.returned).1 frame).2.map fun data =>
          (popped, buildAudio 0 0 none data)) = _
      rw [hdata, Option.map_some, hwrite]
      change Except.map _ _ = Except.map _ (match some (popped, frame), ms.returned with
        | none, _ => _
        | some _, [] => _
        | some (ts, _), first :: _ => _)
      cases ms.returned with
      | nil => cases env.openOutput <;> rfl
      | cons first rest =>
        dsimp only
        cases checkTime first.1 popped <;> rfl

/-- **One row**: the composer does what the mixer does on what the row pushes. -/
theorem onRow_stateOf (htotal : opus.Total) (haudio : cfg.audio = true)
    (tracks : TrackKey → Option D) (ms : MixSession TrackKey) (sessionId : UInt64)
    (row : SessionRecordRow) :
    RecordComposer.onRow opus dep cfg env sessionId row (stateOf opus tracks ms) =
      ((rowPush opus tracks sessionId row).2.toList.foldlM (composeStep env.openOutput) ms).map
        (stateOf opus (rowPush opus tracks sessionId row).1) := by
  have hskips : RecordComposer.skips cfg true = false := by
    rw [RecordComposer.skips, haudio]
    simp
  unfold RecordComposer.onRow rowPush
  cases row.event with
  | trackStarted track name trackMeta =>
    cases hkind : trackMeta.kind.isAudio with
    | true =>
      simp only [hkind, hskips]
      rfl
    | false =>
      simp only [hkind]
      cases RecordComposer.skips cfg false <;> rfl
  | trackMedia track media =>
    cases hkind : media.mediaMeta.isAudio with
    | true =>
      simp only [hkind, hskips]
      change (do
        let (mixer, popped) ← orPanic (AudioMixer.onMedia opus
          { tracks := tracks, mixer := ms.buffer
            encoder := (encodeAll opus opus.newEncoder ms.returned).1 } (sessionId, track) row.ts
          media)
        RecordComposer.writeMedia dep env
          { stateOf opus tracks ms with audioMixer := some mixer } popped) = _
      rcases hdecoded : decodeMedia opus tracks (sessionId, track) media.data with ⟨tracks', samples⟩
      cases samples with
      | none =>
        unfold AudioMixer.onMedia
        rw [hdecoded]
        rfl
      | some samples =>
        rw [onMedia_stateOf dep htotal hdecoded]
        change _ = Except.map _ (composeStep env.openOutput ms _ >>= fun ms => pure ms)
        rw [bind_pure]
        rfl
    | false =>
      simp only [hkind]
      cases RecordComposer.skips cfg false <;> rfl
  | trackStopped track => rfl
  | joinRoom app room peer => rfl
  | leaveRoom => rfl
  | disconnected => rfl

theorem handleAll_stateOf (htotal : opus.Total) (haudio : cfg.audio = true)
    (rows : List (UInt64 × SessionRecordRow)) (tracks : TrackKey → Option D)
    (ms : MixSession TrackKey) :
    handleAll (RecordComposer.onRow opus dep cfg env) rows (stateOf opus tracks ms) =
      ((audioPushes opus tracks rows).foldlM (composeStep env.openOutput) ms).map
        (stateOf opus (tracksAfter opus tracks rows)) := by
  induction rows generalizing tracks ms with
  | nil => rfl
  | cons entry rows ih =>
    obtain ⟨sessionId, row⟩ := entry
    rw [handleAll, List.foldlM_cons]
    dsimp only
    rw [onRow_stateOf dep htotal haudio, audioPushes, List.foldlM_append]
    cases hstep : (rowPush opus tracks sessionId row).2.toList.foldlM
        (composeStep env.openOutput) ms with
    | error stop => rfl
    | ok ms' => exact ih _ _

/-! ### The end of the composer -/

/-- The checks on the times of the frames that are flushed. -/
def checkAll (start : UInt64) : List UInt64 → Except Panic Unit
  | [] => .ok ()
  | ts :: rest => do
    checkTime start ts
    checkAll start rest

theorem checkAll_eq_ok_iff {start : UInt64} {times : List UInt64} :
    checkAll start times = .ok () ↔ ∀ ts ∈ times, Writable start ts := by
  induction times with
  | nil => exact iff_of_true rfl (fun _ hmem => nomatch hmem)
  | cons ts times ih =>
    rw [checkAll, List.forall_mem_cons, ← checkTime_eq_ok_iff, ← ih]
    cases checkTime start ts with
    | error panic => exact iff_of_false (fun h => nomatch h) (fun h => nomatch h.1)
    | ok u => exact ⟨fun h => ⟨rfl, h⟩, fun h => h.2⟩

/-- A pop of the front of the queue. -/
theorem forcePop_eq {m : AudioMixer D E} {front : MixedFrame TrackKey}
    {frames : List (MixedFrame TrackKey)} (hframes : m.mixer.frames = front :: frames) {data : Bytes}
    (hdata : (opus.encode m.encoder front.output.2).2 = some data) :
    m.forcePop opus =
      ({ tracks := m.tracks, mixer := ⟨frames⟩
         encoder := (opus.encode m.encoder front.output.2).1 },
        some (front.ts, buildAudio 0 0 none data)) := by
  have hpop : m.mixer.forcePop = (some (front.ts, front.output.2), ⟨frames⟩) := by
    rw [MixerBuffer.forcePop, hframes]
    rfl
  rw [AudioMixer.forcePop, hpop]
  change (_, (opus.encode m.encoder front.output.2).2.map fun data =>
    (front.ts, buildAudio 0 0 none data)) = _
  rw [hdata]
  rfl

theorem encode_front (htotal : opus.Total) (e : E) (front : MixedFrame TrackKey) :
    ∃ data, (opus.encode e front.output.2).2 = some data :=
  htotal e _ (by rw [MixedFrame.output, List.length_map]; exact front.size)

/-- The flush with a writer: all frames are written, if their times allow. -/
theorem flush_writer (htotal : opus.Total) (tracks : TrackKey → Option D)
    (frames : List (MixedFrame TrackKey)) (first : UInt64 × List Int16)
    (rest : List (UInt64 × List Int16)) :
    RecordComposer.flush opus dep frames.length
        { tracks := tracks, mixer := ⟨frames⟩
          encoder := (encodeAll opus opus.newEncoder (first :: rest)).1 }
        (writerOf (encodeAll opus opus.newEncoder (first :: rest)).2) =
      (checkAll first.1 (frames.map (·.ts))).map fun _ =>
        writerOf (encodeAll opus opus.newEncoder
          (first :: rest ++ frames.map MixedFrame.output)).2 := by
  induction frames generalizing rest with
  | nil =>
    rw [List.map_nil, List.append_nil]
    rfl
  | cons front frames ih =>
    obtain ⟨data, hdata⟩ := encode_front htotal (encodeAll opus opus.newEncoder (first :: rest)).1
      front
    have hencoded : encodeAll opus opus.newEncoder
        (first :: (rest ++ [(front.ts, front.output.2)])) = _ := encodeAll_concat opus hdata
    have hnext := ih (rest ++ [(front.ts, front.output.2)])
    rw [hencoded] at hnext
    obtain ⟨ts, samples⟩ := first
    obtain ⟨file, file', hfile, hpush, hfile'⟩ := writerOf_concat dep
      (ts, (opus.encode opus.newEncoder samples).2.getD [])
      (encodeAll opus (opus.encode opus.newEncoder samples).1 rest).2 front.ts data
    have hwriter : writerOf (encodeAll opus opus.newEncoder ((ts, samples) :: rest)).2 =
        some file := hfile
    have hwriter' : writerOf ((encodeAll opus opus.newEncoder ((ts, samples) :: rest)).2 ++
        [(front.ts, data)]) = some file' := hfile'
    rw [hwriter'] at hnext
    rw [hwriter, List.length_cons, RecordComposer.flush, forcePop_eq rfl hdata]
    dsimp only
    have htimes : (front :: frames).map (·.ts) = front.ts :: frames.map (·.ts) := rfl
    rw [hpush, htimes, checkAll]
    cases checkTime ts front.ts with
    | error panic => rfl
    | ok u =>
      have hframes : ((ts, samples) :: rest) ++ (front :: frames).map MixedFrame.output =
          ((ts, samples) :: (rest ++ [(front.ts, front.output.2)])) ++
            frames.map MixedFrame.output := by
        rw [List.map_cons, List.cons_append, List.cons_append, List.append_assoc,
          List.singleton_append]
        rfl
      rw [hframes]
      exact hnext

/-- The flush without a writer: the first frame panics. -/
theorem flush_none (htotal : opus.Total) (m : AudioMixer D E) {front : MixedFrame TrackKey}
    {frames : List (MixedFrame TrackKey)} (hframes : m.mixer.frames = front :: frames) :
    RecordComposer.flush opus dep m.mixer.frames.length m none = .error ⟨"must have track"⟩ := by
  obtain ⟨data, hdata⟩ := encode_front htotal m.encoder front
  have hlength : m.mixer.frames.length = frames.length + 1 := by rw [hframes, List.length_cons]
  rw [hlength, RecordComposer.flush, forcePop_eq hframes hdata]

/-- The times of the first frame and of the last one that was written. -/
theorem duration_ok {frames : List (UInt64 × Bytes)} {file : VpxWriter}
    (hfile : writerOf frames = some file)
    (htimes : ∀ first ∈ frames.head?, ∀ frame ∈ frames, first.1 ≤ frame.1) :
    ∃ durationMs, file.duration = .ok durationMs := by
  cases frames with
  | nil => exact nomatch hfile
  | cons first rest =>
    rw [← Option.some.inj hfile]
    have hle : first.1 ≤ ((rest.getLast?).getD first).1 := by
      cases hlast : rest.getLast? with
      | none => exact UInt64.le_refl _
      | some last =>
        have hmem : last ∈ rest := List.mem_of_getLast? hlast
        exact htimes first rfl last (List.mem_cons_of_mem _ hmem)
    exact ⟨_, if_pos hle⟩

/-- What the composer is to end with: an error, or a writer that has the encodings of all frames
    that the mixer hands out, in order. -/
def Done (opus : Opus D E) (handedOut : List (UInt64 × List Int16))
    (outcome : Except Stop (RecordComposerResult × VpxWriter)) : Prop :=
  (∃ message, outcome = .error (.err message)) ∨
    ∃ result file, outcome = .ok (result, file) ∧
      file.audio = written (encodeAll opus opus.newEncoder handedOut).2

theorem audio_of_writerOf {frames : List (UInt64 × Bytes)} {file : VpxWriter}
    (hfile : writerOf frames = some file) : file.audio = written frames := by
  cases frames with
  | nil => exact nomatch hfile
  | cons first rest => rw [← Option.some.inj hfile]

/-- What is left to do with a writer cannot panic. -/
theorem done_upload (cfg : RecordComposerConfig) (env : ComposerEnv)
    {handedOut : List (UInt64 × List Int16)} {file : VpxWriter}
    (hfile : writerOf (encodeAll opus opus.newEncoder handedOut).2 = some file)
    (htimes : ∀ first ∈ handedOut.head?, ∀ frame ∈ handedOut, first.1 ≤ frame.1) :
    Done opus handedOut (do
      let durationMs ← orPanic file.duration
      match env.upload with
      | none => .ok (⟨cfg.outputRelative, durationMs⟩, file)
      | some uploaded => do
        orErr uploaded
        .ok (⟨cfg.outputRelative, durationMs⟩, file)) := by
  have hle : ∀ first ∈ (encodeAll opus opus.newEncoder handedOut).2.head?,
      ∀ frame ∈ (encodeAll opus opus.newEncoder handedOut).2, first.1 ≤ frame.1 := by
    intro first hfirst frame hframe
    have hhead : first.1 ∈ (handedOut.map Prod.fst).head? := by
      rw [← encodeAll_times opus opus.newEncoder, List.head?_map]
      exact Option.mem_map_of_mem Prod.fst hfirst
    have hmem : frame.1 ∈ handedOut.map Prod.fst := by
      rw [← encodeAll_times opus opus.newEncoder]
      exact List.mem_map_of_mem hframe
    rw [List.head?_map] at hhead
    obtain ⟨out, hout, hts⟩ := Option.mem_map.mp hhead
    obtain ⟨out', hout', hts'⟩ := List.mem_map.mp hmem
    rw [← hts, ← hts']
    exact htimes out hout out' hout'
  obtain ⟨durationMs, hduration⟩ := duration_ok hfile hle
  rw [hduration]
  have haudio := audio_of_writerOf hfile
  cases env.upload with
  | none => exact Or.inr ⟨_, file, rfl, haudio⟩
  | some uploaded =>
    cases uploaded with
    | error message => exact Or.inl ⟨message, rfl⟩
    | ok u => exact Or.inr ⟨_, file, rfl, haudio⟩

/-- **The end.**  A recording that has frames ends well exactly when a push has handed one out and
    the times of those that are flushed can be written. -/
theorem done_finish_iff (htotal : opus.Total) (tracks : TrackKey → Option D)
    {ms : MixSession TrackKey} (hsorted : ms.openedAt.Pairwise (· ≤ ·)) :
    Done opus ms.handedOut (RecordComposer.finish opus dep cfg env (stateOf opus tracks ms)) ↔
      ms.handedOut = [] ∨ ms.returned ≠ [] ∧
        ∀ first ∈ ms.returned.head?, ∀ frame ∈ ms.buffer.frames, Writable first.1 frame.ts := by
  have hhanded := handedOut_eq ms
  unfold RecordComposer.finish
  change Done opus ms.handedOut (orPanic (RecordComposer.flush opus dep ms.buffer.frames.length _
    (writerOf (encodeAll opus opus.newEncoder ms.returned).2)) >>= _) ↔ _
  cases hreturned : ms.returned with
  | nil =>
    cases hframes : ms.buffer.frames with
    | nil =>
      refine iff_of_true (Or.inl ⟨"record empty", ?_⟩) (Or.inl ?_)
      · rfl
      · rw [hhanded, hreturned, hframes]
        rfl
    | cons front frames =>
      have hflush := flush_none dep htotal
        { tracks := tracks, mixer := ms.buffer, encoder := (encodeAll opus opus.newEncoder []).1 }
        hframes
      dsimp only at hflush
      rw [hframes] at hflush
      apply iff_of_false
      · change ¬Done opus ms.handedOut (orPanic (RecordComposer.flush opus dep _ _ none) >>= _)
        rw [hflush]
        rintro (⟨message, h⟩ | ⟨result, file, h, -⟩)
        · cases h
        · cases h
      · rw [hhanded, hreturned, hframes]
        rintro (h | ⟨h, -⟩)
        · cases h
        · exact h rfl
  | cons first rest =>
    have hall : first :: rest ++ ms.buffer.frames.map MixedFrame.output = ms.handedOut := by
      rw [hhanded, hreturned]
    have hflush := flush_writer dep htotal tracks ms.buffer.frames first rest
    rw [hall] at hflush
    change Done opus ms.handedOut (orPanic (RecordComposer.flush opus dep _
      { tracks := tracks, mixer := ⟨ms.buffer.frames⟩
        encoder := (encodeAll opus opus.newEncoder (first :: rest)).1 } _) >>= _) ↔ _
    rw [hflush]
    by_cases hwritable : ∀ ts ∈ ms.buffer.frames.map (·.ts), Writable first.1 ts
    · rw [checkAll_eq_ok_iff.mpr hwritable]
      apply iff_of_true
      · have htimes : ∀ out ∈ ms.handedOut.head?, ∀ frame ∈ ms.handedOut, out.1 ≤ frame.1 := by
          intro out hout frame hframe
          rw [← handedOut_times, ← hall, List.cons_append, List.map_cons] at hsorted
          rw [← hall, List.cons_append] at hout hframe
          rw [← Option.some.inj (Option.mem_def.mp hout)]
          rcases List.mem_cons.mp hframe with rfl | hframe
          · exact UInt64.le_refl _
          · exact List.rel_of_pairwise_cons hsorted (List.mem_map_of_mem hframe)
        obtain ⟨file, hfile⟩ : ∃ file,
            writerOf (encodeAll opus opus.newEncoder ms.handedOut).2 = some file := by
          rw [← hall]
          exact ⟨_, rfl⟩
        have hdone := done_upload cfg env hfile htimes
        have hflushed : orPanic ((Except.ok ()).map fun _ =>
            writerOf (encodeAll opus opus.newEncoder ms.handedOut).2) = .ok (some file) :=
          congrArg Except.ok hfile
        rw [hflushed]
        exact hdone
      · refine Or.inr ⟨List.cons_ne_nil _ _, ?_⟩
        intro out hout frame hframe
        rw [← Option.some.inj (Option.mem_def.mp hout)]
        exact hwritable _ (List.mem_map_of_mem hframe)
    · apply iff_of_false
      · cases hcheck : checkAll first.1 (ms.buffer.frames.map (·.ts)) with
        | ok u => exact absurd (checkAll_eq_ok_iff.mp hcheck) hwritable
        | error panic =>
          rintro (⟨message, h⟩ | ⟨result, file, h, -⟩)
          · cases h
          · cases h
      · rintro (h | ⟨-, h⟩)
        · rw [← hall] at h
          cases h
        · apply hwritable
          intro ts hts
          obtain ⟨frame, hframe, rfl⟩ := List.mem_map.mp hts
          exact h first rfl frame hframe

end MediaServer.Record
