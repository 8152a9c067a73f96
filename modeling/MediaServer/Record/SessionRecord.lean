import MediaServer.Record.Chunk
import MediaServer.Lib.TaskGroup

/-!
# The recorder

`media_record/src/session.rs` and the sessions of `media_record/src/lib.rs`.  The recorder keeps
the events of a session, since the session joined a room, until they span a minute or none came
for a minute, and then cuts a chunk off.  Leaving the room and disconnecting cut the last one.

Every chunk is announced to the connector with a request and handed to an upload worker as a file.
The ids of the files and what comes back from the connector are left out.
-/

namespace MediaServer.Record.Recorder

open Collections

def MAX_FILE_LEN_MS : UInt64 := 60000

structure RecordReq where
  app : AppId
  room : RoomId
  peer : PeerId
  session : UInt64
  index : Nat
  fromTs : UInt64
  toTs : UInt64

structure RoomState where
  index : Nat
  app : AppId
  room : RoomId
  peer : PeerId
  queue : Option (List SessionRecordRow)

structure SessionRecord where
  session : UInt64
  state : Option RoomState
  closed : Bool

/-- The row is queued behind those that wait. -/
def RoomState.add (state : RoomState) (row : SessionRecordRow) : RoomState :=
  { state with queue := some (state.queue.getD [] ++ [row]) }

def underflow : Panic := ⟨"attempt to subtract with overflow"⟩

/-- A subtraction of times. -/
def elapsed (later earlier : UInt64) : Except Panic UInt64 :=
  if earlier ≤ later then .ok (later - earlier) else .error underflow

/-- `index += 1` of a 32-bit index. -/
def nextIndex (index : Nat) : Except Panic Nat :=
  if index + 1 < 2 ^ 32 then .ok (index + 1) else .error ⟨"attempt to add with overflow"⟩

namespace SessionRecord

def new (session : UInt64) : SessionRecord := ⟨session, none, false⟩

variable (codes : Codes)

def popFile (r : SessionRecord) (nowMs : UInt64) (force : Bool) :
    Except Panic (SessionRecord × Option (RecordReq × MemoryFile)) :=
  match r.state with
  | none => .ok (r, none)
  | some state =>
    match state.queue with
    | none => .ok (r, none)
    | some queue =>
      match queue.head?, queue.getLast? with
      | some first, some last => do
        let durationMs ← elapsed last.ts first.ts
        let ttlMs ← elapsed nowMs last.ts
        if force || durationMs ≥ MAX_FILE_LEN_MS || ttlMs ≥ MAX_FILE_LEN_MS then do
          let file ← Chunk.write codes
            ⟨⟨state.room, state.peer, r.session, first.ts, last.ts⟩, queue⟩
          let index ← nextIndex state.index
          .ok ({ r with state := some { state with index := index, queue := none } },
            some (⟨state.app, state.room, state.peer, r.session, state.index, first.ts, last.ts⟩,
              file))
        else .ok (r, none)
      | _, _ => .ok (r, none)

def tick (r : SessionRecord) (nowMs : UInt64) :
    Except Panic (SessionRecord × Option (RecordReq × MemoryFile)) :=
  r.popFile codes nowMs false

def push (r : SessionRecord) (nowMs eventTs : UInt64) (event : SessionRecordEvent) :
    Except Panic (SessionRecord × Option (RecordReq × MemoryFile)) :=
  if r.closed then r.popFile codes nowMs true
  else
    match event with
    | .joinRoom app room peer =>
      .ok ({ r with state := some ⟨0, app, room, peer, some [⟨eventTs, event⟩]⟩ }, none)
    | .leaveRoom => r.popFile codes nowMs true
    | .disconnected => { r with closed := true }.popFile codes nowMs true
    | .trackStarted .. | .trackStopped _ | .trackMedia .. =>
      match r.state with
      | none => .ok (r, none)
      | some state =>
        { r with state := some (state.add ⟨eventTs, event⟩) }.popFile codes nowMs false

end SessionRecord

/-- A chunk that was announced and handed to the upload worker. -/
structure Upload where
  reqId : Nat
  req : RecordReq
  file : MemoryFile

structure MediaRecordService where
  reqIdSeed : Nat
  uploads : List Upload
  sessions : IndexMap UInt64 SessionRecord

namespace MediaRecordService

def new : MediaRecordService := ⟨0, [], ∅⟩

def processChunk (s : MediaRecordService) (req : RecordReq) (file : MemoryFile) :
    MediaRecordService :=
  { s with reqIdSeed := s.reqIdSeed + 1, uploads := s.uploads ++ [⟨s.reqIdSeed, req, file⟩] }

/-- A session with what it cut off. -/
def store (s : MediaRecordService) (id : UInt64)
    (result : SessionRecord × Option (RecordReq × MemoryFile)) : MediaRecordService :=
  let s := { s with sessions := s.sessions.insert id result.1 }
  match result.2 with
  | some (req, file) => s.processChunk req file
  | none => s

variable (codes : Codes)

def onRecordEvent (s : MediaRecordService) (nowMs : UInt64) (session eventTs : UInt64)
    (event : SessionRecordEvent) : Except Panic MediaRecordService := do
  let record := (s.sessions.get session).getD (.new session)
  let result ← record.push codes nowMs eventTs event
  .ok (s.store session result)

/-- The loop of `on_tick`. -/
def tickAll (nowMs : UInt64) : List (UInt64 × SessionRecord) → MediaRecordService →
    Except Panic MediaRecordService
  | [], s => .ok s
  | (id, record) :: rest, s => do
    let result ← record.tick codes nowMs
    tickAll nowMs rest (s.store id result)

def onTick (s : MediaRecordService) (nowMs : UInt64) : Except Panic MediaRecordService := do
  let s ← s.tickAll codes nowMs s.sessions.entries
  .ok { s with sessions := s.sessions.retain fun _ record => !record.closed }

end MediaRecordService

/-! ### Panics of the writer -/

theorem write_panic {α : Type} {code : Bincode α} {w : RecordChunkWriter} {value : α} {panic : Panic}
    (h : w.write code value = .error panic) : panic = ⟨"should read"⟩ := by
  rw [RecordChunkWriter.write] at h
  split at h
  · exact (Except.error.inj h).symm
  · cases h

theorem pushAll_panic {codes : Codes} {rows : List SessionRecordRow} {w : RecordChunkWriter}
    {panic : Panic} (h : w.pushAll codes rows = .error panic) : panic = ⟨"should read"⟩ := by
  induction rows generalizing w with
  | nil => cases h
  | cons row rows ih =>
    rw [RecordChunkWriter.pushAll] at h
    cases hpush : w.push codes row with
    | error panic' =>
      rw [hpush] at h
      cases h
      exact write_panic hpush
    | ok w' =>
      rw [hpush] at h
      exact ih h

theorem chunk_write_panic {codes : Codes} {chunk : Chunk} {panic : Panic}
    (h : chunk.write codes = .error panic) : panic = ⟨"should read"⟩ := by
  rw [Chunk.write] at h
  cases hnew : RecordChunkWriter.new codes chunk.header.room chunk.header.peer chunk.header.session
      chunk.header.startTs chunk.header.endTs with
  | error panic' =>
    rw [hnew] at h
    cases h
    exact write_panic hnew
  | ok w =>
    rw [hnew] at h
    change (do let w ← w.pushAll codes chunk.rows; Except.ok w.take) = _ at h
    cases hrows : w.pushAll codes chunk.rows with
    | error panic' =>
      rw [hrows] at h
      cases h
      exact pushAll_panic hrows
    | ok w' =>
      rw [hrows] at h
      cases h

/-! ### The rows of a visit and their chunks -/

/-- A stay in a room with the rows to record of it. -/
structure Visit where
  app : AppId
  room : RoomId
  peer : PeerId
  rows : List SessionRecordRow

def Visit.add (visit : Visit) (row : SessionRecordRow) : Visit :=
  { visit with rows := visit.rows ++ [row] }

/-- The upload holds these rows of the visit under this index. -/
structure Written (codes : Codes) (session : UInt64) (visit : Visit) (piece : List SessionRecordRow)
    (index : Nat) (upload : Upload) : Prop where
  times : ∃ first last, piece.head? = some first ∧ piece.getLast? = some last ∧
    upload.req = ⟨visit.app, visit.room, visit.peer, session, index, first.ts, last.ts⟩ ∧
    Chunk.write codes ⟨⟨visit.room, visit.peer, session, first.ts, last.ts⟩, piece⟩ =
      .ok upload.file

/-- The uploads hold the pieces of a visit in order, under the indexes from `0` on. -/
inductive Uploaded (codes : Codes) (session : UInt64) (visit : Visit) :
    List (List SessionRecordRow) → List Upload → Prop
  | nil : Uploaded codes session visit [] []
  | concat {pieces : List (List SessionRecordRow)} {uploads : List Upload}
      {piece : List SessionRecordRow} {upload : Upload} :
      Uploaded codes session visit pieces uploads →
      Written codes session visit piece pieces.length upload →
      Uploaded codes session visit (pieces ++ [piece]) (uploads ++ [upload])

/-- The uploads hold all rows of the visits but the last rows of the last visit, which wait. -/
inductive Filed (codes : Codes) (session : UInt64) :
    List Visit → List Upload → Nat → List SessionRecordRow → Prop
  | nil : Filed codes session [] [] 0 []
  | visit {visits : List Visit} {uploads : List Upload} {index : Nat} {visit : Visit}
      {pieces : List (List SessionRecordRow)} {news : List Upload} {waiting : List SessionRecordRow} :
      Filed codes session visits uploads index [] →
      Uploaded codes session visit pieces news →
      pieces.flatten ++ waiting = visit.rows →
      Filed codes session (visits ++ [visit]) (uploads ++ news) pieces.length waiting

section

variable {codes : Codes} {session : UInt64} {visits : List Visit} {uploads : List Upload}
  {index : Nat} {visit : Visit} {waiting : List SessionRecordRow}

theorem Uploaded.add {pieces : List (List SessionRecordRow)}
    (h : Uploaded codes session visit pieces uploads) (row : SessionRecordRow) :
    Uploaded codes session (visit.add row) pieces uploads := by
  induction h with
  | nil => exact .nil
  | concat _ hwritten ih => exact .concat ih ⟨hwritten.times⟩

/-- A new visit. -/
theorem Filed.join (h : Filed codes session visits uploads index []) (app : AppId) (room : RoomId)
    (peer : PeerId) (row : SessionRecordRow) :
    Filed codes session (visits ++ [⟨app, room, peer, [row]⟩]) uploads 0 [row] := by
  have hnew := Filed.visit h (.nil : Uploaded codes session ⟨app, room, peer, [row]⟩ [] []) rfl
  rwa [List.append_nil] at hnew

/-- A row of the visit waits. -/
theorem Filed.add (h : Filed codes session (visits ++ [visit]) uploads index waiting)
    (row : SessionRecordRow) :
    Filed codes session (visits ++ [visit.add row]) uploads index (waiting ++ [row]) := by
  generalize hall : visits ++ [visit] = all at h
  cases h with
  | nil => exact absurd hall (by simp)
  | visit hbefore huploaded hrows =>
    obtain ⟨rfl, hlast⟩ := List.append_inj' hall rfl
    cases hlast
    refine .visit hbefore (huploaded.add row) ?_
    rw [← List.append_assoc, hrows]
    rfl

/-- The rows that wait are cut off. -/
theorem Filed.cut (h : Filed codes session (visits ++ [visit]) uploads index waiting)
    {upload : Upload} (hwritten : Written codes session visit waiting index upload) :
    Filed codes session (visits ++ [visit]) (uploads ++ [upload]) (index + 1) [] := by
  generalize hall : visits ++ [visit] = all at h
  cases h with
  | nil => exact absurd hall (by simp)
  | @visit visits' uploads' index' visit' pieces news _ hbefore huploaded hrows =>
    obtain ⟨rfl, hlast⟩ := List.append_inj' hall rfl
    cases hlast
    have hall : (pieces ++ [waiting]).flatten ++ [] = visit.rows := by
      rw [List.flatten_append, List.append_nil, List.flatten_singleton, hrows]
    have hnew := Filed.visit hbefore (huploaded.concat hwritten) hall
    rwa [List.length_append, ← List.append_assoc] at hnew

end

/-! ### What a session does -/

namespace SessionRecord

/-- The rows that wait. -/
def waiting (r : SessionRecord) : List SessionRecordRow := (r.state.bind RoomState.queue).getD []

/-- What a session is after it cut a chunk off. -/
structure Cuts (codes : Codes) (r r' : SessionRecord) (req : RecordReq) (file : MemoryFile) :
    Prop where
  holds : ∃ state first last, r.state = some state ∧ r.waiting.head? = some first ∧
    r.waiting.getLast? = some last ∧
    req = ⟨state.app, state.room, state.peer, r.session, state.index, first.ts, last.ts⟩ ∧
    Chunk.write codes ⟨⟨state.room, state.peer, r.session, first.ts, last.ts⟩, r.waiting⟩ =
      .ok file ∧
    r' = { r with state := some { state with index := state.index + 1, queue := none } }

variable {codes : Codes}

/-- A session either stays as it is, unless forced to cut what waits, or cuts off all that
    waits. -/
theorem popFile_ok {r r' : SessionRecord} {nowMs : UInt64} {force : Bool}
    {out : Option (RecordReq × MemoryFile)} (h : r.popFile codes nowMs force = .ok (r', out)) :
    (out = none ∧ r' = r ∧ (force = true → r.waiting = [])) ∨
      ∃ req file, out = some (req, file) ∧ Cuts codes r r' req file := by
  unfold popFile at h
  split at h
  case h_1 hstate =>
    cases h
    exact .inl ⟨rfl, rfl, fun _ => by rw [waiting, hstate]; rfl⟩
  case h_2 state hstate =>
    split at h
    case h_1 hqueue =>
      cases h
      refine .inl ⟨rfl, rfl, fun _ => ?_⟩
      rw [waiting, hstate, Option.bind_some, hqueue]
      rfl
    case h_2 queue hqueue =>
      have hwaiting : r.waiting = queue := by
        rw [waiting, hstate, Option.bind_some, hqueue]
        rfl
      split at h
      case h_1 first last hfirst hlast =>
        obtain ⟨durationMs, -, h⟩ := Except.bind_eq_ok.mp h
        obtain ⟨ttlMs, -, h⟩ := Except.bind_eq_ok.mp h
        split at h
        case isTrue =>
          obtain ⟨file, hfile, h⟩ := Except.bind_eq_ok.mp h
          obtain ⟨index, hindex, h⟩ := Except.bind_eq_ok.mp h
          cases h
          have hnext : index = state.index + 1 := by
            rw [nextIndex] at hindex
            split at hindex
            · exact (Except.ok.inj hindex).symm
            · cases hindex
          subst hnext
          exact .inr ⟨_, _, rfl, state, first, last, hstate, by rw [hwaiting, hfirst],
            by rw [hwaiting, hlast], rfl, by rw [hwaiting]; exact hfile, rfl⟩
        case isFalse hkeep =>
          cases h
          refine .inl ⟨rfl, rfl, fun hforce => ?_⟩
          rw [hforce] at hkeep
          exact absurd rfl hkeep
      case h_2 hnone =>
        cases h
        refine .inl ⟨rfl, rfl, fun _ => ?_⟩
        rw [hwaiting]
        cases queue with
        | nil => rfl
        | cons row rows =>
          exact (hnone row _ rfl (List.getLast?_eq_getLast_of_ne_nil (List.cons_ne_nil row rows))).elim

/-- The rows that wait are in the order of their times, up to a bound. -/
structure Timely (bound : UInt64) (r : SessionRecord) : Prop where
  sorted : r.waiting.Pairwise fun first second => first.ts ≤ second.ts
  upTo : ∀ row ∈ r.waiting, row.ts ≤ bound

theorem Timely.weaken {r : SessionRecord} {bound bound' : UInt64} (h : Timely bound r)
    (hle : bound ≤ bound') : Timely bound' r :=
  ⟨h.sorted, fun row hmem => UInt64.le_trans (h.upTo row hmem) hle⟩

theorem timely_of_nil {r : SessionRecord} (bound : UInt64) (h : r.waiting = []) :
    Timely bound r := by
  refine ⟨by rw [h]; exact .nil, ?_⟩
  rw [h]
  intro row hmem
  cases hmem

theorem Cuts.waiting {r r' : SessionRecord} {req : RecordReq} {file : MemoryFile}
    (h : Cuts codes r r' req file) : r'.waiting = [] := by
  obtain ⟨state, first, last, -, -, -, -, -, rfl⟩ := h.holds
  rfl

theorem popFile_timely {r r' : SessionRecord} {nowMs bound : UInt64} {force : Bool}
    {out : Option (RecordReq × MemoryFile)} (h : r.popFile codes nowMs force = .ok (r', out))
    (htimely : Timely bound r) : Timely bound r' := by
  rcases popFile_ok h with ⟨-, rfl, -⟩ | ⟨req, file, -, hcuts⟩
  · exact htimely
  · exact timely_of_nil bound hcuts.waiting

theorem elapsed_ok {later earlier : UInt64} (h : earlier ≤ later) :
    elapsed later earlier = .ok (later - earlier) := if_pos h

/-- Where the rows that wait are in the order of their times, and none is later than now, nothing
    underflows. -/
theorem popFile_no_underflow (codes : Codes) {r : SessionRecord} {nowMs : UInt64} (force : Bool)
    (h : Timely nowMs r) : r.popFile codes nowMs force ≠ .error underflow := by
  intro herror
  unfold popFile at herror
  split at herror
  case h_1 => cases herror
  case h_2 state hstate =>
    split at herror
    case h_1 => cases herror
    case h_2 queue hqueue =>
      have hwaiting : r.waiting = queue := by
        rw [waiting, hstate, Option.bind_some, hqueue]
        rfl
      split at herror
      case h_1 first last hfirst hlast =>
        have hmem : last ∈ r.waiting := by
          rw [hwaiting]
          exact List.mem_of_getLast? hlast
        have hspan : first.ts ≤ last.ts := by
          have hsorted := h.sorted
          rw [hwaiting] at hsorted hmem
          cases queue with
          | nil => cases hfirst
          | cons row rows =>
            cases hfirst
            rcases List.mem_cons.mp hmem with rfl | hrest
            · exact UInt64.le_refl _
            · exact List.rel_of_pairwise_cons hsorted hrest
        rw [elapsed_ok hspan, elapsed_ok (h.upTo last hmem)] at herror
        simp only [bind, Except.bind] at herror
        split at herror
        case isTrue =>
          split at herror
          case h_1 panic hwrite =>
            have hpanic := chunk_write_panic hwrite
            cases herror
            exact absurd hpanic (by decide)
          case h_2 file hwrite =>
            rw [nextIndex] at herror
            split at herror
            case h_1 panic hindex =>
              split at hindex
              case isTrue => cases hindex
              case isFalse =>
                cases hindex
                exact absurd (Except.error.inj herror) (by decide)
            case h_2 index hindex => cases herror
        case isFalse => cases herror
      case h_2 => cases herror

/-- The session with one more row that waits. -/
def add (r : SessionRecord) (row : SessionRecordRow) : SessionRecord :=
  { r with state := r.state.map fun state => state.add row }

theorem waiting_add {r : SessionRecord} {state : RoomState} (hstate : r.state = some state)
    (row : SessionRecordRow) : (r.add row).waiting = r.waiting ++ [row] := by
  rw [waiting, waiting, add, hstate]
  rfl

theorem push_track {r : SessionRecord} (hopen : r.closed = false) {event : SessionRecordEvent}
    (htrack : event.isTrack = true) (nowMs eventTs : UInt64) :
    r.push codes nowMs eventTs event = (r.add ⟨eventTs, event⟩).popFile codes nowMs false := by
  have hclosed : ¬ r.closed = true := by rw [hopen]; decide
  have hpush : r.push codes nowMs eventTs event =
      match r.state with
      | none => .ok (r, none)
      | some state =>
        { r with state := some (state.add ⟨eventTs, event⟩) }.popFile codes nowMs false := by
    cases event with
    | trackStarted track name trackMeta => exact if_neg hclosed
    | trackStopped track => exact if_neg hclosed
    | trackMedia track media => exact if_neg hclosed
    | joinRoom app room peer => cases htrack
    | leaveRoom => cases htrack
    | disconnected => cases htrack
  rw [hpush]
  cases hstate : r.state with
  | none =>
    have hsame : r.add ⟨eventTs, event⟩ = r := by
      rw [add, hstate, Option.map_none, ← hstate]
    rw [hsame, popFile, hstate]
  | some state => rw [add, hstate, Option.map_some]

theorem Timely.add {r : SessionRecord} {ts : UInt64} (h : Timely ts r)
    (event : SessionRecordEvent) : Timely ts (r.add ⟨ts, event⟩) := by
  cases hstate : r.state with
  | none =>
    refine timely_of_nil _ ?_
    rw [waiting, SessionRecord.add, hstate]
    rfl
  | some state =>
    refine ⟨?_, ?_⟩
    · rw [waiting_add hstate, List.pairwise_append]
      refine ⟨h.sorted, List.pairwise_singleton .., ?_⟩
      intro first hfirst second hsecond
      rw [List.mem_singleton.mp hsecond]
      exact h.upTo first hfirst
    · rw [waiting_add hstate]
      intro other hmem
      rcases List.mem_append.mp hmem with hold | hnew
      · exact h.upTo other hold
      · rw [List.mem_singleton.mp hnew]
        exact UInt64.le_refl _

theorem Timely.close {r : SessionRecord} {bound : UInt64} (h : Timely bound r) :
    Timely bound { r with closed := true } := ⟨h.sorted, h.upTo⟩

theorem timely_joined (r : SessionRecord) (app : AppId) (room : RoomId) (peer : PeerId)
    (row : SessionRecordRow) :
    Timely row.ts { r with state := some ⟨0, app, room, peer, some [row]⟩ } := by
  refine ⟨List.pairwise_singleton .., ?_⟩
  intro other hmem
  rw [List.mem_singleton.mp hmem]
  exact UInt64.le_refl _

/-- What an event can do to a session: it starts a visit, or may make it cut what waits. -/
theorem push_cases (codes : Codes) (r : SessionRecord) (nowMs eventTs : UInt64) (event : SessionRecordEvent) :
    (∃ app room peer, event = .joinRoom app room peer ∧ r.closed = false ∧
      r.push codes nowMs eventTs event =
        .ok ({ r with state := some ⟨0, app, room, peer, some [⟨eventTs, event⟩]⟩ }, none)) ∨
    (event.isTrack = true ∧ r.closed = false ∧
      r.push codes nowMs eventTs event =
        (r.add ⟨eventTs, event⟩).popFile codes nowMs false) ∨
    ((r.closed = true ∨ event = .leaveRoom) ∧
      r.push codes nowMs eventTs event = r.popFile codes nowMs true) ∨
    (event = .disconnected ∧
      r.push codes nowMs eventTs event = { r with closed := true }.popFile codes nowMs true) := by
  by_cases hopen : r.closed = true
  · exact .inr (.inr (.inl ⟨.inl hopen, if_pos hopen⟩))
  · have hclosed : r.closed = false := Bool.eq_false_iff.mpr hopen
    cases event with
    | joinRoom app room peer =>
      exact .inl ⟨app, room, peer, rfl, hclosed, if_neg hopen⟩
    | leaveRoom => exact .inr (.inr (.inl ⟨.inr rfl, if_neg hopen⟩))
    | disconnected => exact .inr (.inr (.inr ⟨rfl, if_neg hopen⟩))
    | trackStarted track name trackMeta =>
      exact .inr (.inl ⟨rfl, hclosed, push_track hclosed rfl nowMs eventTs⟩)
    | trackStopped track => exact .inr (.inl ⟨rfl, hclosed, push_track hclosed rfl nowMs eventTs⟩)
    | trackMedia track media => exact .inr (.inl ⟨rfl, hclosed, push_track hclosed rfl nowMs eventTs⟩)

/-- An event that is not older than the rows that wait. -/
theorem push_timely {r r' : SessionRecord} {nowMs eventTs : UInt64} {event : SessionRecordEvent}
    {out : Option (RecordReq × MemoryFile)} (h : r.push codes nowMs eventTs event = .ok (r', out))
    (htimely : Timely eventTs r) : Timely eventTs r' := by
  rcases push_cases codes r nowMs eventTs event with
    ⟨app, room, peer, rfl, -, hpush⟩ | ⟨-, -, hpush⟩ | ⟨-, hpush⟩ | ⟨-, hpush⟩
  · rw [hpush] at h
    cases h
    exact timely_joined r app room peer ⟨eventTs, _⟩
  · rw [hpush] at h
    exact popFile_timely h (htimely.add event)
  · rw [hpush] at h
    exact popFile_timely h htimely
  · rw [hpush] at h
    exact popFile_timely h htimely.close

/-- An event that is neither older than the rows that wait nor later than now. -/
theorem push_no_underflow (codes : Codes) (event : SessionRecordEvent) {r : SessionRecord}
    {nowMs eventTs : UInt64} (htimely : Timely eventTs r) (hnow : eventTs ≤ nowMs) :
    r.push codes nowMs eventTs event ≠ .error underflow := by
  rcases push_cases codes r nowMs eventTs event with
    ⟨app, room, peer, rfl, -, hpush⟩ | ⟨-, -, hpush⟩ | ⟨-, hpush⟩ | ⟨-, hpush⟩
  · rw [hpush]
    intro herror
    cases herror
  · rw [hpush]
    exact popFile_no_underflow codes false
      ((htimely.add event).weaken hnow)
  · rw [hpush]
    exact popFile_no_underflow codes true (htimely.weaken hnow)
  · rw [hpush]
    exact popFile_no_underflow codes true (htimely.weaken hnow).close

end SessionRecord

/-! ### What the service has of a session -/

namespace MediaRecordService

/-- The service records one session. -/
def Only (session : UInt64) (s : MediaRecordService) : Prop :=
  ∀ id r, s.sessions.get id = some r → id = session ∧ r.session = session

/-- The session is in a room, and its rows go to the last visit. -/
structure Recording (codes : Codes) (session : UInt64) (s : MediaRecordService)
    (visits : List Visit) : Prop where
  only : Only session s
  holds : ∃ r state before rows, s.sessions.get session = some r ∧ r.closed = false ∧
    r.state = some state ∧ visits = before ++ [⟨state.app, state.room, state.peer, rows⟩] ∧
    Filed codes session visits s.uploads state.index r.waiting

/-- No row waits: all rows are in chunks. -/
structure Idle (codes : Codes) (session : UInt64) (s : MediaRecordService)
    (visits : List Visit) : Prop where
  only : Only session s
  filed : ∃ index, Filed codes session visits s.uploads index []
  nothing : ∀ r, s.sessions.get session = some r → r.waiting = []

section

variable {codes : Codes} {session : UInt64} {s : MediaRecordService} {visits : List Visit}

theorem sessions_store (s : MediaRecordService) (id : UInt64)
    (result : SessionRecord × Option (RecordReq × MemoryFile)) :
    (s.store id result).sessions = s.sessions.insert id result.1 := by
  rw [store]
  split <;> rfl

theorem get_store (s : MediaRecordService) (id : UInt64)
    (result : SessionRecord × Option (RecordReq × MemoryFile)) :
    (s.store id result).sessions.get id = some result.1 := by
  rw [sessions_store, IndexMap.get_insert_self]

theorem Only.store (h : Only session s) {result : SessionRecord × Option (RecordReq × MemoryFile)}
    (hsession : result.1.session = session) : Only session (s.store session result) := by
  intro id r hget
  rw [sessions_store, IndexMap.get_insert] at hget
  split at hget
  case isTrue heq =>
    cases hget
    exact ⟨heq, hsession⟩
  case isFalse => exact h id r hget

theorem uploads_store_some (s : MediaRecordService) (id : UInt64) (r : SessionRecord)
    (req : RecordReq) (file : MemoryFile) :
    (s.store id (r, some (req, file))).uploads = s.uploads ++ [⟨s.reqIdSeed, req, file⟩] := rfl

/-- What may be cut off stays filed. -/
theorem popFile_filed {r r' : SessionRecord} {state : RoomState} (before : List Visit)
    (rows : List SessionRecordRow) {nowMs : UInt64} {force : Bool}
    {out : Option (RecordReq × MemoryFile)} (hsession : r.session = session)
    (hstate : r.state = some state)
    (hfiled : Filed codes session (before ++ [⟨state.app, state.room, state.peer, rows⟩]) s.uploads
      state.index r.waiting)
    (h : r.popFile codes nowMs force = .ok (r', out)) :
    ∃ state', r'.state = some state' ∧ state'.app = state.app ∧ state'.room = state.room ∧
      state'.peer = state.peer ∧ r'.session = session ∧ r'.closed = r.closed ∧
      (force = true → r'.waiting = []) ∧
      Filed codes session (before ++ [⟨state.app, state.room, state.peer, rows⟩])
        (s.store session (r', out)).uploads state'.index r'.waiting := by
  rcases SessionRecord.popFile_ok h with ⟨rfl, rfl, hforce⟩ | ⟨req, file, rfl, hcuts⟩
  · exact ⟨state, hstate, rfl, rfl, rfl, hsession, rfl, hforce, hfiled⟩
  · have hwaiting := hcuts.waiting
    obtain ⟨state', first, last, hstate', hfirst, hlast, hreq, hwrite, hr'⟩ := hcuts.holds
    obtain rfl : state = state' := Option.some.inj (hstate.symm.trans hstate')
    rw [hsession] at hreq hwrite
    refine ⟨{ state with index := state.index + 1, queue := none }, by rw [hr'], rfl, rfl, rfl,
      by rw [hr']; exact hsession, by rw [hr'], fun _ => hwaiting, ?_⟩
    rw [hwaiting, uploads_store_some]
    exact hfiled.cut ⟨first, last, hfirst, hlast, hreq, hwrite⟩

theorem onRecordEvent_eq_ok {s' : MediaRecordService} {nowMs eventTs : UInt64}
    {event : SessionRecordEvent}
    (h : s.onRecordEvent codes nowMs session eventTs event = .ok s') :
    ∃ r' out, ((s.sessions.get session).getD (.new session)).push codes nowMs eventTs event =
      .ok (r', out) ∧ s' = s.store session (r', out) := by
  obtain ⟨⟨r', out⟩, hpush, hstore⟩ := Except.bind_eq_ok.mp h
  exact ⟨r', out, hpush, (Except.ok.inj hstore).symm⟩

/-- The session that an event reaches. -/
theorem session_getD (h : Only session s) :
    ((s.sessions.get session).getD (.new session)).session = session := by
  cases hget : s.sessions.get session with
  | none => rfl
  | some r => exact (h session r hget).2

theorem Idle.waiting_getD (h : Idle codes session s visits) :
    ((s.sessions.get session).getD (.new session)).waiting = [] := by
  cases hget : s.sessions.get session with
  | none => rfl
  | some r => exact h.nothing r hget

/-- A visit begins. -/
theorem Idle.join {s' : MediaRecordService} {nowMs eventTs : UInt64} {app : AppId} {room : RoomId}
    {peer : PeerId} (h : Idle codes session s visits)
    (hopen : ∀ r, s.sessions.get session = some r → r.closed = false)
    (hok : s.onRecordEvent codes nowMs session eventTs (.joinRoom app room peer) = .ok s') :
    Recording codes session s' (visits ++ [⟨app, room, peer, [⟨eventTs, .joinRoom app room peer⟩]⟩]) := by
  obtain ⟨r', out, hpush, rfl⟩ := onRecordEvent_eq_ok hok
  have hclosed : ((s.sessions.get session).getD (.new session)).closed = false := by
    cases hget : s.sessions.get session with
    | none => rfl
    | some r => exact hopen r hget
  have hpush' : ((s.sessions.get session).getD (.new session)).push codes nowMs eventTs
      (.joinRoom app room peer) = .ok ({ (s.sessions.get session).getD (.new session) with
        state := some ⟨0, app, room, peer, some [⟨eventTs, .joinRoom app room peer⟩]⟩ }, none) := by
    exact if_neg (by rw [hclosed]; decide)
  rw [hpush'] at hpush
  cases hpush
  obtain ⟨index, hfiled⟩ := h.filed
  refine ⟨h.only.store (session_getD h.only), _, _, visits, _, get_store .., hclosed, rfl, rfl, ?_⟩
  exact hfiled.join app room peer ⟨eventTs, .joinRoom app room peer⟩

/-- A track event of the visit. -/
theorem Recording.track {s' : MediaRecordService} {nowMs eventTs : UInt64}
    {event : SessionRecordEvent} {before : List Visit} {visit : Visit}
    (h : Recording codes session s (before ++ [visit])) (htrack : event.isTrack = true)
    (hok : s.onRecordEvent codes nowMs session eventTs event = .ok s') :
    Recording codes session s' (before ++ [visit.add ⟨eventTs, event⟩]) := by
  obtain ⟨r, state, before', rows, hget, hclosed, hstate, hvisits, hfiled⟩ := h.holds
  obtain ⟨rfl, hlast⟩ := List.append_inj' hvisits rfl
  cases hlast
  obtain ⟨r', out, hpush, rfl⟩ := onRecordEvent_eq_ok hok
  rw [hget, Option.getD_some, SessionRecord.push_track hclosed htrack] at hpush
  have hadd := hfiled.add ⟨eventTs, event⟩
  rw [← SessionRecord.waiting_add hstate] at hadd
  have hstate' : (r.add ⟨eventTs, event⟩).state = some (state.add ⟨eventTs, event⟩) := by
    rw [SessionRecord.add, hstate]
    rfl
  obtain ⟨state', hstate'', happ, hroom, hpeer, hsession, hclosed', -, hfiled'⟩ :=
    popFile_filed before (rows ++ [⟨eventTs, event⟩])
      (show (r.add ⟨eventTs, event⟩).session = session from (h.only session r hget).2) hstate' hadd
      hpush
  refine ⟨h.only.store hsession, r', state', before, rows ++ [⟨eventTs, event⟩], get_store ..,
    hclosed'.trans hclosed, hstate'', ?_, hfiled'⟩
  rw [happ, hroom, hpeer]
  rfl

/-- A forced cut ends the visit. -/
theorem stop {r r' : SessionRecord} {nowMs : UInt64}
    {out : Option (RecordReq × MemoryFile)} (closed : Bool)
    (h : Recording codes session s visits) (hget : s.sessions.get session = some r)
    (hpop : { r with closed := closed }.popFile codes nowMs true = .ok (r', out)) :
    Idle codes session (s.store session (r', out)) visits := by
  obtain ⟨r₀, state, before, rows, hget₀, -, hstate, rfl, hfiled⟩ := h.holds
  obtain rfl : r = r₀ := Option.some.inj (hget.symm.trans hget₀)
  obtain ⟨state', -, -, -, -, hsession, -, hforce, hfiled'⟩ :=
    popFile_filed (r := { r with closed := closed }) before rows (h.only session r hget).2 hstate hfiled hpop
  rw [hforce rfl] at hfiled'
  refine ⟨h.only.store hsession, ⟨_, hfiled'⟩, ?_⟩
  intro r'' hget''
  rw [get_store] at hget''
  cases hget''
  exact hforce rfl

/-- The session leaves the room or disconnects. -/
theorem Recording.leave {s' : MediaRecordService} {nowMs eventTs : UInt64}
    {event : SessionRecordEvent} (h : Recording codes session s visits)
    (hevent : event = .leaveRoom ∨ event = .disconnected)
    (hok : s.onRecordEvent codes nowMs session eventTs event = .ok s') :
    Idle codes session s' visits := by
  obtain ⟨r, state, before, rows, hget, hclosed, -, -, -⟩ := h.holds
  obtain ⟨r', out, hpush, rfl⟩ := onRecordEvent_eq_ok hok
  rw [hget, Option.getD_some] at hpush
  have hopen : ¬ r.closed = true := by rw [hclosed]; decide
  rcases hevent with rfl | rfl
  · have hpush' : r.push codes nowMs eventTs .leaveRoom = r.popFile codes nowMs true := if_neg hopen
    rw [hpush'] at hpush
    exact stop r.closed h hget hpush
  · have hpush' : r.push codes nowMs eventTs .disconnected =
        { r with closed := true }.popFile codes nowMs true := if_neg hopen
    rw [hpush'] at hpush
    exact stop true h hget hpush

/-- Nothing waits, so nothing is cut. -/
theorem popFile_of_nil {r : SessionRecord} (h : r.waiting = []) (nowMs : UInt64) (force : Bool) :
    r.popFile codes nowMs force = .ok (r, none) := by
  unfold SessionRecord.popFile
  cases hstate : r.state with
  | none => rfl
  | some state =>
    cases hqueue : state.queue with
    | none => simp only [hqueue]
    | some queue =>
      have hnil : queue = [] := by
        rw [SessionRecord.waiting, hstate, Option.bind_some, hqueue] at h
        exact h
      simp only [hqueue, hnil, List.head?_nil]

theorem Idle.store {r : SessionRecord} (h : Idle codes session s visits) (hnil : r.waiting = [])
    (hsession : r.session = session) : Idle codes session (s.store session (r, none)) visits := by
  refine ⟨h.only.store hsession, h.filed, ?_⟩
  intro r' hget
  rw [get_store] at hget
  cases hget
  exact hnil

/-- Outside a room a leave and a disconnect change nothing that is recorded. -/
theorem Idle.leave {s' : MediaRecordService} {nowMs eventTs : UInt64}
    {event : SessionRecordEvent} (h : Idle codes session s visits)
    (hevent : event = .leaveRoom ∨ event = .disconnected)
    (hok : s.onRecordEvent codes nowMs session eventTs event = .ok s') :
    Idle codes session s' visits := by
  obtain ⟨r', out, hpush, rfl⟩ := onRecordEvent_eq_ok hok
  have hnil := h.waiting_getD
  have hsession := session_getD h.only
  generalize (s.sessions.get session).getD (.new session) = r at hpush hnil hsession
  rcases SessionRecord.push_cases codes r nowMs eventTs event with
    ⟨app, room, peer, rfl, -, -⟩ | ⟨htrack, -, -⟩ | ⟨-, hpush'⟩ | ⟨-, hpush'⟩
  · rcases hevent with hevent | hevent <;> cases hevent
  · rcases hevent with rfl | rfl <;> cases htrack
  · rw [hpush', popFile_of_nil hnil] at hpush
    cases hpush
    exact h.store hnil hsession
  · rw [hpush', popFile_of_nil (r := { r with closed := true }) hnil] at hpush
    cases hpush
    exact h.store hnil hsession

/-! ### Ticks -/

theorem entries_of_get_none (h : Only session s) (hget : s.sessions.get session = none) :
    s.sessions.entries = [] := by
  refine List.eq_nil_iff_forall_not_mem.mpr ?_
  rintro ⟨id, r⟩ hmem
  have hsome := IndexMap.get_eq_some_iff.mpr hmem
  rw [(h id r hsome).1, hget] at hsome
  cases hsome

theorem entries_of_get_some (h : Only session s) {r : SessionRecord}
    (hget : s.sessions.get session = some r) : s.sessions.entries = [(session, r)] := by
  have hperm := IndexMap.entries_perm_of_get hget
  have hnone : (s.sessions.entries.filter fun entry => entry.1 ≠ session) = [] := by
    refine List.filter_eq_nil_iff.mpr ?_
    rintro ⟨id, r'⟩ hmem
    have hid := (h id r' (IndexMap.get_eq_some_iff.mpr hmem)).1
    simp [hid]
  rw [hnone] at hperm
  exact List.perm_singleton.mp hperm

/-- A tick reaches the session, if there is one, and drops it if it is closed. -/
theorem onTick_eq_ok {s' : MediaRecordService} {nowMs : UInt64} (h : Only session s)
    (hok : s.onTick codes nowMs = .ok s') :
    (s.sessions.get session = none ∧ s'.uploads = s.uploads ∧
      ∀ id, s'.sessions.get id = none) ∨
    ∃ r r' out, s.sessions.get session = some r ∧ r.popFile codes nowMs false = .ok (r', out) ∧
      s'.uploads = (s.store session (r', out)).uploads ∧
      ∀ id r'', s'.sessions.get id = some r'' ↔ id = session ∧ r'' = r' ∧ r'.closed = false := by
  obtain ⟨s₁, htick, hs'⟩ := Except.bind_eq_ok.mp hok
  cases hs'
  cases hget : s.sessions.get session with
  | none =>
    rw [entries_of_get_none h hget] at htick
    cases htick
    refine .inl ⟨rfl, rfl, ?_⟩
    intro id
    cases hnew : (s.sessions.retain fun _ record => !record.closed).get id with
    | none => rfl
    | some r =>
      obtain ⟨hold, -⟩ := IndexMap.get_retain_eq_some_iff.mp hnew
      rw [(h id r hold).1, hget] at hold
      cases hold
  | some r =>
    rw [entries_of_get_some h hget] at htick
    obtain ⟨⟨r', out⟩, hpop, hstore⟩ := Except.bind_eq_ok.mp htick
    cases hstore
    refine .inr ⟨r, r', out, rfl, hpop, rfl, ?_⟩
    intro id r''
    rw [IndexMap.get_retain_eq_some_iff, sessions_store, IndexMap.get_insert]
    constructor
    · rintro ⟨hsome, hkeep⟩
      split at hsome
      case isTrue heq =>
        cases hsome
        exact ⟨heq, rfl, by simpa using hkeep⟩
      case isFalse hne => exact absurd (h id r'' hsome).1 hne
    · rintro ⟨rfl, rfl, hclosed⟩
      rw [if_pos rfl, hclosed]
      exact ⟨rfl, rfl⟩

theorem Recording.tick {s' : MediaRecordService} {nowMs : UInt64}
    (h : Recording codes session s visits) (hok : s.onTick codes nowMs = .ok s') :
    Recording codes session s' visits := by
  obtain ⟨r, state, before, rows, hget, hclosed, hstate, rfl, hfiled⟩ := h.holds
  rcases onTick_eq_ok h.only hok with ⟨hnone, -⟩ | ⟨r₀, r', out, hget', hpop, huploads, hkept⟩
  · rw [hnone] at hget
    cases hget
  · obtain rfl : r = r₀ := Option.some.inj (hget.symm.trans hget')
    obtain ⟨state', hstate', happ, hroom, hpeer, hsession, hclosed', -, hfiled'⟩ :=
      popFile_filed before rows (h.only session r hget).2 hstate hfiled hpop
    rw [← huploads] at hfiled'
    refine ⟨?_, r', state', before, rows, (hkept session r').mpr ⟨rfl, rfl, hclosed'.trans hclosed⟩,
      hclosed'.trans hclosed, hstate', ?_, hfiled'⟩
    · intro id r'' hget''
      obtain ⟨hid, rfl, -⟩ := (hkept id r'').mp hget''
      exact ⟨hid, hsession⟩
    · rw [happ, hroom, hpeer]

theorem Idle.tick {s' : MediaRecordService} {nowMs : UInt64} (h : Idle codes session s visits)
    (hok : s.onTick codes nowMs = .ok s') : Idle codes session s' visits := by
  rcases onTick_eq_ok h.only hok with ⟨-, huploads, hnone⟩ | ⟨r, r', out, hget, hpop, huploads, hkept⟩
  · refine ⟨?_, by rw [huploads]; exact h.filed, ?_⟩
    · intro id r hsome
      rw [hnone id] at hsome
      cases hsome
    · intro r hsome
      rw [hnone session] at hsome
      cases hsome
  · have hnil := h.nothing r hget
    rw [popFile_of_nil hnil] at hpop
    cases hpop
    refine ⟨?_, by rw [huploads]; exact h.filed, ?_⟩
    · intro id r' hsome
      obtain ⟨rfl, rfl, -⟩ := (hkept id r').mp hsome
      exact h.only id r' hget
    · intro r' hsome
      obtain ⟨-, rfl, -⟩ := (hkept session r').mp hsome
      exact hnil

/-! ### Times -/

/-- The rows that wait are in the order of their times, up to a bound. -/
def Timely (session bound : UInt64) (s : MediaRecordService) : Prop :=
  ∀ r, s.sessions.get session = some r → r.Timely bound

theorem Timely.getD {bound : UInt64} (h : Timely session bound s) :
    ((s.sessions.get session).getD (.new session)).Timely bound := by
  cases hget : s.sessions.get session with
  | none => exact SessionRecord.timely_of_nil bound rfl
  | some r => exact h r hget

theorem Timely.event {s' : MediaRecordService} {nowMs eventTs : UInt64} {event : SessionRecordEvent}
    (h : Timely session eventTs s)
    (hok : s.onRecordEvent codes nowMs session eventTs event = .ok s') :
    Timely session eventTs s' := by
  obtain ⟨r', out, hpush, rfl⟩ := onRecordEvent_eq_ok hok
  intro r hget
  rw [get_store] at hget
  cases hget
  exact SessionRecord.push_timely hpush h.getD

theorem Timely.event_no_underflow {nowMs eventTs : UInt64} {event : SessionRecordEvent}
    (h : Timely session eventTs s) (hnow : eventTs ≤ nowMs) :
    s.onRecordEvent codes nowMs session eventTs event ≠ .error underflow := by
  intro herror
  have hpush := SessionRecord.push_no_underflow codes event h.getD hnow
  rw [onRecordEvent] at herror
  cases hresult : ((s.sessions.get session).getD (.new session)).push codes nowMs eventTs event with
  | error panic =>
    rw [hresult] at herror hpush
    cases herror
    exact hpush rfl
  | ok result =>
    rw [hresult] at herror
    cases herror

theorem Timely.tick {s' : MediaRecordService} {nowMs bound : UInt64} (h : Timely session bound s)
    (honly : Only session s) (hok : s.onTick codes nowMs = .ok s') : Timely session bound s' := by
  intro r'' hget''
  rcases onTick_eq_ok honly hok with ⟨-, -, hnone⟩ | ⟨r, r', out, hget, hpop, -, hkept⟩
  · rw [hnone session] at hget''
    cases hget''
  · obtain ⟨-, rfl, -⟩ := (hkept session r'').mp hget''
    exact SessionRecord.popFile_timely hpop (h r hget)

theorem Timely.tick_no_underflow {nowMs : UInt64} (h : Timely session nowMs s)
    (honly : Only session s) : s.onTick codes nowMs ≠ .error underflow := by
  intro herror
  rw [onTick] at herror
  cases hget : s.sessions.get session with
  | none =>
    rw [entries_of_get_none honly hget] at herror
    cases herror
  | some r =>
    rw [entries_of_get_some honly hget, tickAll, SessionRecord.tick] at herror
    have hpop := SessionRecord.popFile_no_underflow codes false (h r hget)
    cases hresult : r.popFile codes nowMs false with
    | error panic =>
      rw [hresult] at herror hpop
      cases herror
      exact hpop rfl
    | ok result =>
      rw [hresult] at herror
      cases herror

end

end MediaRecordService

end MediaServer.Record.Recorder
