import MediaServer.Endpoint.RecordTrace
import MediaServer.Endpoint.TrackTables
import MediaServer.Lib.Execution
import MediaServer.Record.SessionRecord

/-!
# Nothing that is recorded is lost

An endpoint and the recorder of its session.  The endpoint takes inputs, what it records is handed
to the recorder one event after another, and the recorder has a clock of its own that ticks.  As
long as every step leaves the events in order and no visit begins in a session that is closed, the
uploads hold the events of every visit, all of them once and in their order.
-/

namespace MediaServer.Record

open Collections Runtime Endpoint Recorder Execution

/-- How the recorder counts the milliseconds of the clock. -/
structure Timer where
  ms : Instant → UInt64
  mono : ∀ {earlier later : Instant}, earlier ≤ later → ms earlier ≤ ms later

/-- What a run is about. -/
structure Setting (Selector : Type) where
  env : Env Selector
  codes : Codes
  timer : Timer
  session : UInt64

variable {Selector : Type}

/-- An endpoint and its recorder, with the events handed over so far. -/
structure World (Selector : Type) where
  endpoint : EndpointInternal Selector
  recorder : MediaRecordService
  clock : Instant
  handed : List (Instant × SessionRecordEvent)

inductive Act where
  | input (input : EndpointInternal.Input)
  /-- The next output of the endpoint is handed out. -/
  | deliver (now : Instant)
  | tick (now : Instant)

def Act.now : Act → Instant
  | .input i => i.now
  | .deliver now => now
  | .tick now => now

namespace World

def init (cfg : EndpointCfg) : World Selector := ⟨.new cfg, .new, 0, []⟩

section

variable (set : Setting Selector)

/-- The recorder is told an event. -/
def tell (w : World Selector) (now ts : Instant) (event : SessionRecordEvent) :
    Except Panic MediaRecordService :=
  w.recorder.onRecordEvent set.codes (set.timer.ms now) set.session (set.timer.ms ts) event

/-- The front output is handed out; the recorder takes what is for it. -/
def deliver (w : World Selector) (now : Instant) : Except Panic (World Selector) :=
  match w.endpoint.queue with
  | [] => .ok { w with clock := now }
  | .recordEvent ts event :: rest => do
    let recorder ← w.tell set now ts event
    .ok ⟨{ w.endpoint with queue := rest }, recorder, now, w.handed ++ [(ts, event)]⟩
  | _ :: rest => .ok { w with endpoint := { w.endpoint with queue := rest }, clock := now }

def act (w : World Selector) : Act → Except Panic (World Selector)
  | .input input => do
    let endpoint ← w.endpoint.step set.env input
    .ok { w with endpoint := endpoint, clock := input.now }
  | .deliver now => w.deliver set now
  | .tick now => do
    let recorder ← w.recorder.onTick set.codes (set.timer.ms now)
    .ok { w with recorder := recorder, clock := now }

/-- The clock does not go back, and a panic ends the run. -/
def step (w : World Selector) (act : Act) : Option (World Selector) :=
  if w.clock ≤ act.now then (w.act set act).toOption else none

/-- The condition on a run: an input leaves the events in order, and a visit does not begin in a
    session that is closed. -/
def careful (w : World Selector) : Act → Bool
  | .input input => w.endpoint.recordable set.timer.ms input
  | .deliver _ =>
    match w.endpoint.queue with
    | .recordEvent _ (.joinRoom ..) :: _ =>
      (w.recorder.sessions.get set.session).all fun record => !record.closed
    | _ => true
  | .tick _ => true

end

end World

/-! ### The visits of a run -/

section

variable (timer : Timer)

def row (event : Instant × SessionRecordEvent) : SessionRecordRow := ⟨timer.ms event.1, event.2⟩

/-- A row goes to the last visit. -/
def addToLast (visits : List Recorder.Visit) (row : SessionRecordRow) : List Recorder.Visit :=
  match visits.getLast? with
  | none => visits
  | some visit => visits.dropLast ++ [visit.add row]

/-- A join begins a visit, and what tracks do belongs to the last one. -/
def addEvent (visits : List Recorder.Visit) (event : Instant × SessionRecordEvent) :
    List Recorder.Visit :=
  match event.2 with
  | .joinRoom app room peer => visits ++ [⟨app, room, peer, [row timer event]⟩]
  | .leaveRoom | .disconnected => visits
  | .trackStarted .. | .trackStopped _ | .trackMedia .. => addToLast visits (row timer event)

/-- The visits of the events of a run, with the rows to record of each. -/
def visits (events : List (Instant × SessionRecordEvent)) : List Recorder.Visit :=
  events.foldl (addEvent timer) []

/-- The event makes a row: a leave and a disconnect only end a visit. -/
def isRow : SessionRecordEvent → Bool
  | .leaveRoom | .disconnected => false
  | .joinRoom .. | .trackStarted .. | .trackStopped _ | .trackMedia .. => true

/-- The time of the last event. -/
def lastTime (events : List (Instant × SessionRecordEvent)) : UInt64 :=
  (events.getLast?.map fun event => timer.ms event.1).getD 0

variable {timer}

theorem visits_concat (events : List (Instant × SessionRecordEvent))
    (event : Instant × SessionRecordEvent) :
    visits timer (events ++ [event]) = addEvent timer (visits timer events) event := by
  rw [visits, visits, List.foldl_append]
  rfl

theorem addEvent_track {event : Instant × SessionRecordEvent} (htrack : event.2.isTrack = true)
    (before : List Recorder.Visit) (visit : Recorder.Visit) :
    addEvent timer (before ++ [visit]) event = before ++ [visit.add (row timer event)] := by
  have hlast : addToLast (before ++ [visit]) (row timer event) =
      before ++ [visit.add (row timer event)] := by
    rw [addToLast, List.getLast?_concat]
    simp only [List.dropLast_concat]
  obtain ⟨ts, event⟩ := event
  cases event with
  | trackStarted | trackStopped | trackMedia => exact hlast
  | joinRoom | leaveRoom | disconnected => cases htrack

theorem stage_concat {events : List (Instant × SessionRecordEvent)}
    {event : Instant × SessionRecordEvent} {stage : Stage}
    (h : Stage.run (events ++ [event]) = some stage) :
    ∃ before, Stage.run events = some before ∧ before.step event.2 = some stage := by
  rw [Stage.run_append, Option.bind_eq_some_iff] at h
  obtain ⟨before, hbefore, hstep⟩ := h
  exact ⟨before, hbefore, by simpa using hstep⟩

/-- Where the events are in order, every row is a row of a visit. -/
theorem visits_rows {events : List (Instant × SessionRecordEvent)} {stage : Stage}
    (hrun : Stage.run events = some stage) :
    (visits timer events).flatMap Recorder.Visit.rows =
        (events.filter fun event => isRow event.2).map (row timer) ∧
      (stage.isInside = true → visits timer events ≠ []) := by
  induction events using List.reverseRecOn generalizing stage with
  | nil =>
    cases hrun
    exact ⟨rfl, fun hinside => by cases hinside⟩
  | append_singleton events event ih =>
    obtain ⟨before, hbefore, hstep⟩ := stage_concat hrun
    obtain ⟨hrows, hvisits⟩ := ih hbefore
    rw [visits_concat, List.filter_append, List.map_append, ← hrows]
    -- what a track does is added to the last visit
    have htrack : event.2.isTrack = true → before.isInside = true →
        (addEvent timer (visits timer events) event).flatMap Recorder.Visit.rows =
            (visits timer events).flatMap Recorder.Visit.rows ++ [row timer event] ∧
          addEvent timer (visits timer events) event ≠ [] := by
      intro htrack hinside
      obtain ⟨front, last, hlast⟩ :=
        (List.eq_nil_or_concat (visits timer events)).resolve_left (hvisits hinside)
      rw [hlast, List.concat_eq_append, addEvent_track htrack]
      refine ⟨?_, by simp⟩
      rw [List.flatMap_append, List.flatMap_append, List.flatMap_singleton, List.flatMap_singleton,
        Recorder.Visit.add, List.append_assoc]
    obtain ⟨ts, event⟩ := event
    cases event with
    | joinRoom app room peer =>
      refine ⟨?_, fun _ => List.append_ne_nil_of_right_ne_nil _ (List.cons_ne_nil _ _)⟩
      exact List.flatMap_append ..
    | leaveRoom =>
      refine ⟨(List.append_nil _).symm, fun hinside => ?_⟩
      cases before <;> cases hstep <;> cases hinside
    | disconnected =>
      refine ⟨(List.append_nil _).symm, fun hinside => ?_⟩
      cases before <;> cases hstep <;> cases hinside
    | trackStarted | trackStopped | trackMedia =>
      cases before with
      | inside app room peer =>
        obtain ⟨hrow, hne⟩ := htrack rfl rfl
        exact ⟨hrow, fun _ => hne⟩
      | outside | ending => cases hstep

theorem lastTime_concat (events : List (Instant × SessionRecordEvent))
    (event : Instant × SessionRecordEvent) :
    lastTime timer (events ++ [event]) = timer.ms event.1 := by
  rw [lastTime, List.getLast?_concat]
  rfl

/-- What comes behind sorted events is not older than the last of them. -/
theorem lastTime_le {events more : List (Instant × SessionRecordEvent)}
    (h : (events ++ more).Pairwise fun first second => timer.ms first.1 ≤ timer.ms second.1) :
    ∀ event ∈ more, lastTime timer events ≤ timer.ms event.1 := by
  intro event hmem
  rcases List.eq_nil_or_concat events with rfl | ⟨front, last, rfl⟩
  · exact UInt64.zero_le
  · rw [List.concat_eq_append] at h ⊢
    rw [lastTime_concat]
    exact (List.pairwise_append.mp h).2.2 last (List.mem_append_right _ (List.mem_singleton_self _))
      event hmem

theorem lastTime_le_of_forall {events : List (Instant × SessionRecordEvent)} {clock : UInt64}
    (h : ∀ event ∈ events, timer.ms event.1 ≤ clock) : lastTime timer events ≤ clock := by
  rcases List.eq_nil_or_concat events with rfl | ⟨front, last, rfl⟩
  · exact UInt64.zero_le
  · rw [List.concat_eq_append, lastTime_concat]
    exact h last (by rw [List.concat_eq_append]; exact List.mem_append_right _ (List.mem_singleton_self _))

end

/-! ### What a run keeps -/

/-- What the recorder has of the events handed over. -/
def Holds (set : Setting Selector) (handed : List (Instant × SessionRecordEvent))
    (recorder : MediaRecordService) (stage : Stage) : Prop :=
  if stage.isInside then
    MediaRecordService.Recording set.codes set.session recorder (visits set.timer handed)
  else MediaRecordService.Idle set.codes set.session recorder (visits set.timer handed)

structure Kept (set : Setting Selector) (cfg : EndpointCfg) (w : World Selector) : Prop where
  diary : ∃ clock, clock ≤ set.timer.ms w.clock ∧
    EndpointInternal.Diary set.timer.ms cfg w.handed clock w.endpoint
  holds : ∃ stage, Stage.run w.handed = some stage ∧ Holds set w.handed w.recorder stage
  timely : MediaRecordService.Timely set.session (lastTime set.timer w.handed) w.recorder

section

variable {set : Setting Selector} {cfg : EndpointCfg} {w w' : World Selector}
  {handed : List (Instant × SessionRecordEvent)} {recorder recorder' : MediaRecordService}
  {stage stage' : Stage}

theorem Holds.only (h : Holds set handed recorder stage) :
    MediaRecordService.Only set.session recorder := by
  unfold Holds at h
  split at h
  · exact h.only
  · exact h.only

theorem Holds.tick (h : Holds set handed recorder stage) {nowMs : UInt64}
    (hok : recorder.onTick set.codes nowMs = .ok recorder') : Holds set handed recorder' stage := by
  unfold Holds at h ⊢
  split
  · rename_i hinside
    rw [if_pos hinside] at h
    exact h.tick hok
  · rename_i houtside
    rw [if_neg houtside] at h
    exact h.tick hok

/-- **An event that is in order** goes where it belongs. -/
theorem Holds.event (h : Holds set handed recorder stage) {ts : Instant}
    {event : SessionRecordEvent} (hstage : stage.step event = some stage')
    (hopen : ∀ app room peer, event = .joinRoom app room peer →
      ∀ record, recorder.sessions.get set.session = some record → record.closed = false)
    {nowMs : UInt64}
    (hok : recorder.onRecordEvent set.codes nowMs set.session (set.timer.ms ts) event =
      .ok recorder') :
    Holds set (handed ++ [(ts, event)]) recorder' stage' := by
  have htracks : ∀ {app room peer}, stage = .inside app room peer → event.isTrack = true →
      MediaRecordService.Recording set.codes set.session recorder'
        (visits set.timer (handed ++ [(ts, event)])) := by
    rintro app room peer rfl htrack
    have hrecording : MediaRecordService.Recording set.codes set.session recorder
      (visits set.timer handed) := h
    obtain ⟨record, state, before, rows, -, -, -, hvisits, -⟩ := hrecording.holds
    rw [hvisits] at hrecording
    rw [visits_concat, hvisits, addEvent_track htrack]
    exact hrecording.track htrack hok
  cases stage with
  | outside =>
    cases event with
    | joinRoom app room peer =>
      cases hstage
      have hjoined := MediaRecordService.Idle.join h (hopen app room peer rfl) hok
      change MediaRecordService.Recording ..
      rw [visits_concat]
      exact hjoined
    | disconnected =>
      cases hstage
      change MediaRecordService.Idle ..
      rw [visits_concat]
      exact MediaRecordService.Idle.leave h (Or.inr rfl) hok
    | leaveRoom | trackStarted | trackStopped | trackMedia => cases hstage
  | inside app room peer =>
    cases event with
    | leaveRoom =>
      cases hstage
      change MediaRecordService.Idle ..
      rw [visits_concat]
      exact MediaRecordService.Recording.leave h (Or.inl rfl) hok
    | disconnected =>
      cases hstage
      change MediaRecordService.Idle ..
      rw [visits_concat]
      exact MediaRecordService.Recording.leave h (Or.inr rfl) hok
    | trackStarted | trackStopped | trackMedia =>
      cases hstage
      exact htracks rfl rfl
    | joinRoom => cases hstage
  | ending =>
    cases event with
    | leaveRoom =>
      cases hstage
      change MediaRecordService.Idle ..
      rw [visits_concat]
      exact MediaRecordService.Idle.leave h (Or.inl rfl) hok
    | joinRoom | disconnected | trackStarted | trackStopped | trackMedia => cases hstage

/-- The next event is in order. -/
theorem stage_next {events rest : List (Instant × SessionRecordEvent)}
    {event : Instant × SessionRecordEvent} (hrun : Stage.run events = some stage)
    (hall : Stage.run (events ++ event :: rest) = some stage') :
    ∃ next, stage.step event.2 = some next ∧ Stage.run (events ++ [event]) = some next := by
  rw [Stage.run_append, hrun, Option.bind_some, List.foldlM_cons] at hall
  cases hnext : stage.step event.2 with
  | none =>
    rw [hnext] at hall
    cases hall
  | some next =>
    refine ⟨next, rfl, ?_⟩
    rw [Stage.run_append, hrun, Option.bind_some, List.foldlM_cons, hnext]
    rfl

/-- The endpoint hands an output out. -/
theorem diary_handed {timer : Instant → UInt64} {told told' : List (Instant × SessionRecordEvent)}
    {clock : UInt64} {s : EndpointInternal Selector} {rest : List InternalOutput}
    (h : EndpointInternal.Diary timer cfg told clock s)
    (hsame : told' ++ recordsOf rest = told ++ recordsOf s.queue) :
    EndpointInternal.Diary timer cfg told' clock { s with queue := rest } := by
  refine ⟨⟨h.logged.config, ?_, ?_, ?_, h.logged.waits, h.logged.calm, h.logged.own⟩, h.housed⟩
  · change Stage.run (told' ++ recordsOf rest) = _
    rw [hsame]
    exact h.logged.run
  · change (told' ++ recordsOf rest).Pairwise _
    rw [hsame]
    exact h.logged.sorted
  · change ∀ event ∈ told' ++ recordsOf rest, _
    rw [hsame]
    exact h.logged.upTo

theorem Kept.onInput (h : Kept set cfg w) {input : EndpointInternal.Input}
    (hok : w.endpoint.recordable set.timer.ms input = true) (hclock : w.clock ≤ input.now)
    {endpoint : EndpointInternal Selector} (hstep : w.endpoint.step set.env input = .ok endpoint) :
    Kept set cfg { w with endpoint := endpoint, clock := input.now } := by
  obtain ⟨clock, hle, hdiary⟩ := h.diary
  obtain ⟨clock', -, hle', hdiary'⟩ := hdiary.step hok
    (UInt64.le_trans hle (set.timer.mono hclock)) hstep
  exact ⟨⟨clock', hle', hdiary'⟩, h.holds, h.timely⟩

theorem Kept.later (h : Kept set cfg w) {now : Instant} (hclock : w.clock ≤ now) :
    Kept set cfg { w with clock := now } := by
  obtain ⟨clock, hle, hdiary⟩ := h.diary
  exact ⟨⟨clock, UInt64.le_trans hle (set.timer.mono hclock), hdiary⟩, h.holds, h.timely⟩

/-- An output that is not for the recorder. -/
theorem Kept.drop (h : Kept set cfg w) {out : InternalOutput} {rest : List InternalOutput}
    (hqueue : w.endpoint.queue = out :: rest) (hout : recordsOf [out] = []) :
    Kept set cfg { w with endpoint := { w.endpoint with queue := rest } } := by
  obtain ⟨clock, hle, hdiary⟩ := h.diary
  refine ⟨⟨clock, hle, diary_handed hdiary ?_⟩, h.holds, h.timely⟩
  rw [hqueue, ← List.singleton_append, recordsOf_append, hout, List.nil_append]

theorem Kept.event (h : Kept set cfg w) {now ts : Instant} {event : SessionRecordEvent}
    {rest : List InternalOutput} (hqueue : w.endpoint.queue = .recordEvent ts event :: rest)
    (hopen : ∀ app room peer, event = .joinRoom app room peer →
      ∀ record, w.recorder.sessions.get set.session = some record → record.closed = false)
    (hok : w.tell set now ts event = .ok recorder') :
    Kept set cfg ⟨{ w.endpoint with queue := rest }, recorder', w.clock,
      w.handed ++ [(ts, event)]⟩ := by
  obtain ⟨clock, hle, hdiary⟩ := h.diary
  obtain ⟨stage, hrun, hholds⟩ := h.holds
  have hrecords : recordsOf w.endpoint.queue = (ts, event) :: recordsOf rest := by
    rw [hqueue]
    rfl
  have hall := hdiary.logged.run
  have hsorted := hdiary.logged.sorted
  rw [hrecords] at hall hsorted
  obtain ⟨next, hnext, hrun'⟩ := stage_next hrun hall
  have hlast : lastTime set.timer w.handed ≤ set.timer.ms ts :=
    lastTime_le hsorted (ts, event) (List.mem_cons_self ..)
  refine ⟨⟨clock, hle, diary_handed hdiary ?_⟩, ⟨next, hrun', hholds.event hnext hopen hok⟩, ?_⟩
  · rw [hrecords, List.append_assoc]
    rfl
  · rw [lastTime_concat]
    refine MediaRecordService.Timely.event ?_ hok
    intro record hget
    exact (h.timely record hget).weaken hlast

/-- **Every careful step keeps it.** -/
theorem Kept.step (h : Kept set cfg w) {act : Act} (hcareful : w.careful set act = true)
    (hstep : w.step set act = some w') : Kept set cfg w' := by
  unfold World.step at hstep
  split at hstep
  case isFalse => cases hstep
  case isTrue hclock =>
    have hact := Except.mem_toOption.mp hstep
    cases act with
    | input input =>
      obtain ⟨endpoint, hendpoint, hw'⟩ := Except.bind_eq_ok.mp hact
      cases hw'
      exact h.onInput hcareful hclock hendpoint
    | tick now =>
      obtain ⟨recorder, hrecorder, hw'⟩ := Except.bind_eq_ok.mp hact
      cases hw'
      obtain ⟨stage, hrun, hholds⟩ := h.holds
      obtain ⟨clock, hle, hdiary⟩ := h.diary
      exact ⟨⟨clock, UInt64.le_trans hle (set.timer.mono hclock), hdiary⟩,
        ⟨stage, hrun, hholds.tick hrecorder⟩, h.timely.tick hholds.only hrecorder⟩
    | deliver now =>
      simp only [World.act, World.deliver] at hact
      split at hact
      case h_1 =>
        cases hact
        exact h.later hclock
      case h_2 ts event rest hqueue =>
        obtain ⟨recorder, hrecorder, hw'⟩ := Except.bind_eq_ok.mp hact
        cases hw'
        refine (h.event hqueue ?_ hrecorder).later hclock
        rintro app room peer rfl record hget
        simp only [World.careful, hqueue, hget] at hcareful
        simpa using hcareful
      case h_3 out rest hother hqueue =>
        cases hact
        refine (h.drop hqueue ?_).later hclock
        cases out with
        | recordEvent ts event => exact absurd rfl (hother ts event)
        | _ => rfl

theorem kept_init (set : Setting Selector) (cfg : EndpointCfg) :
    Kept set cfg (World.init cfg : World Selector) := by
  have hstage : (EndpointInternal.new cfg : EndpointInternal Selector).stage = .outside :=
    EndpointInternal.stage_of_none rfl
  have hnone : ∀ index, (EndpointInternal.new cfg : EndpointInternal Selector).remoteTracks.get
      index = none := fun _ => rfl
  refine ⟨⟨0, UInt64.zero_le, ⟨?_, ?_⟩⟩, ⟨.outside, rfl, ?_⟩, ?_⟩
  · change EndpointInternal.Logged set.timer.ms cfg [] (EndpointInternal.new cfg).stage 0
      (EndpointInternal.new cfg)
    rw [hstage]
    refine ⟨rfl, rfl, .nil, ?_, ?_, ?_, ?_⟩
    · intro event hmem
      cases hmem
    · intro index t hget
      rw [hnone] at hget
      cases hget
    · intro _ index t hget
      rw [hnone] at hget
      cases hget
    · intro index t hget
      rw [hnone] at hget
      cases hget
  · intro _ index t room hget
    cases hget
  · change MediaRecordService.Idle ..
    refine ⟨?_, ⟨0, .nil⟩, ?_⟩
    · intro id record hget
      cases hget
    · intro record hget
      cases hget
  · intro record hget
    cases hget

end

/-! ### Main result -/

/-- What the claim says at a moment of a run. -/
structure Conserved (set : Setting Selector) (w : World Selector) : Prop where
  /-- The events of tracks are recorded in a room, and only there. -/
  inRooms : (Stage.run w.handed).isSome = true
  /-- What is recorded is the rows of the visits, in the order it was recorded. -/
  rows : (visits set.timer w.handed).flatMap Recorder.Visit.rows =
    (w.handed.filter fun event => isRow event.2).map (row set.timer)
  /-- The uploads hold the rows of the visits, but for the last rows of a visit that goes on. -/
  filed : ∃ index waiting,
    Filed set.codes set.session (visits set.timer w.handed) w.recorder.uploads index waiting ∧
      ((Stage.run w.handed).any Stage.isInside = false → waiting = [])
  /-- Neither a tick nor the next event makes a subtraction underflow. -/
  tick : ∀ now, w.clock ≤ now →
    w.recorder.onTick set.codes (set.timer.ms now) ≠ .error underflow
  event : ∀ now ts event rest, w.clock ≤ now →
    w.endpoint.queue = .recordEvent ts event :: rest → w.tell set now ts event ≠ .error underflow

/-- Where nothing waits, the last upload ends with the last row. -/
theorem Filed.last_time {codes : Codes} {session : UInt64} {visits : List Recorder.Visit}
    {visit : Recorder.Visit} {uploads : List Upload} {upload : Upload} {index : Nat}
    (h : Filed codes session (visits ++ [visit]) (uploads ++ [upload]) index [])
    {last : SessionRecordRow} (hlast : visit.rows.getLast? = some last) :
    upload.req.toTs = last.ts := by
  generalize hvisits : visits ++ [visit] = all at h
  generalize huploads : uploads ++ [upload] = files at h
  cases h with
  | nil => exact absurd hvisits (by simp)
  | visit hbefore huploaded hrows =>
    obtain ⟨rfl, hvisit⟩ := List.append_inj' hvisits rfl
    cases hvisit
    rw [List.append_nil] at hrows
    rw [← hrows] at hlast
    cases huploaded with
    | nil => cases hlast
    | @concat pieces before piece upload' _ hwritten =>
      rw [← List.append_assoc] at huploads
      cases (List.append_inj' huploads rfl).2
      obtain ⟨first, last', -, hpiece, hreq, -⟩ := hwritten.times
      rw [List.flatten_append, List.flatten_singleton, List.getLast?_append, hpiece] at hlast
      cases hlast
      rw [hreq]

theorem Kept.conserved {set : Setting Selector} {cfg : EndpointCfg} {w : World Selector}
    (h : Kept set cfg w) : Conserved set w := by
  obtain ⟨clock, hle, hdiary⟩ := h.diary
  obtain ⟨stage, hrun, hholds⟩ := h.holds
  have hupTo : ∀ event ∈ w.handed, set.timer.ms event.1 ≤ clock := fun event hmem =>
    hdiary.logged.upTo event (List.mem_append_left _ hmem)
  refine ⟨by rw [hrun]; rfl, (visits_rows hrun).1, ?_, fun now hnow => ?_, fun now ts event rest hnow hqueue => ?_⟩
  · rw [hrun]
    unfold Holds at hholds
    split at hholds
    · rename_i hinside
      obtain ⟨record, state, before, rows, -, -, -, hvisits, hfiled⟩ := hholds.holds
      refine ⟨_, _, hfiled, fun houtside => ?_⟩
      rw [Option.any_some, hinside] at houtside
      cases houtside
    · obtain ⟨index, hfiled⟩ := hholds.filed
      exact ⟨index, [], hfiled, fun _ => rfl⟩
  · refine MediaRecordService.Timely.tick_no_underflow ?_ hholds.only
    intro record hget
    exact (h.timely record hget).weaken (UInt64.le_trans (lastTime_le_of_forall hupTo)
      (UInt64.le_trans hle (set.timer.mono hnow)))
  · have hmem : (ts, event) ∈ recordsOf w.endpoint.queue := by
      rw [hqueue]
      exact List.mem_cons_self ..
    have hlast := lastTime_le hdiary.logged.sorted (ts, event) hmem
    have hts := hdiary.logged.upTo (ts, event) (List.mem_append_right _ hmem)
    refine MediaRecordService.Timely.event_no_underflow ?_
      (UInt64.le_trans hts (UInt64.le_trans hle (set.timer.mono hnow)))
    intro record hget
    exact (h.timely record hget).weaken hlast

/-- **Every event that is recorded in a room is in exactly one chunk of the visit, in order,** and
    nothing underflows, in every run whose steps are careful. -/
theorem recording_conserved (set : Setting Selector) (cfg : EndpointCfg) {acts : List Act}
    {w : World Selector}
    (h : Reaches (World.step set) (fun w act => w.careful set act = true) (.init cfg) acts w) :
    Conserved set w := by
  have hkept : Kept set cfg w :=
    h.invariant (fun w act w' hkept hcareful hstep => hkept.step hcareful hstep)
      (kept_init set cfg)
  exact hkept.conserved

/-- Whole milliseconds of a clock of nanoseconds. -/
def millis (now : Instant) : UInt64 := UInt64.ofNat (min (now / 1000000) (2 ^ 64 - 1))

theorem millis_mono {earlier later : Nat} (hle : earlier ≤ later) :
    millis earlier ≤ millis later := by
  have hdiv : earlier / 1000000 ≤ later / 1000000 := Nat.div_le_div_right hle
  rw [UInt64.le_iff_toNat_le, millis, millis, UInt64.toNat_ofNat', UInt64.toNat_ofNat']
  omega

/-- Session 7 of an endpoint that is recorded, with records that are encoded as nothing. -/
def plainSetting : Setting Unit :=
  ⟨Env.passAll, ⟨⟨fun _ => [], fun _ => none⟩, ⟨fun _ => [], fun _ => none⟩⟩,
    ⟨millis, millis_mono⟩, 7⟩

def recordedCfg : EndpointCfg := { EndpointInternal.rootCfg with record := true }

def transport (now : Instant) (event : TransportEvent) : Act := .input (.transport now [] 0 event)

/-- A client connects, joins a room and starts a track. -/
def arrive : List Act :=
  [transport 0 (.state (.connecting "127.0.0.1")), transport 0 (.state (.connected "127.0.0.1")),
    .input (EndpointInternal.joinRequest "room"), .input (EndpointInternal.startRemote 1 "audio")]

/-- The endpoint is polled and hands out, for a number of times. -/
def turns (n : Nat) (now : Instant) : List Act :=
  (List.replicate n [.input (.poll now [.bitrateAllocator, .localTracks 0, .remoteTracks 0]),
    .deliver now]).flatten

/-- The client ends its track before it leaves. -/
def endThenLeave : List Act :=
  arrive ++ turns 14 0 ++ [transport 2000000 (.remoteTrack 1 .ended)] ++ turns 6 2000000 ++
    [Act.input (.rpc 2000000 [] 3 .leaveRoom)] ++ turns 8 2000000

/-- The client is cut off while its track runs. -/
def cutOff : List Act :=
  arrive ++ turns 14 0 ++ [transport 2000000 (.state (.disconnected none))] ++ turns 8 2000000

/-- What the two clients leave behind. -/
theorem exec_recorded :
    (exec (World.step plainSetting) (World.careful plainSetting) (.init recordedCfg)
      endThenLeave).any (fun w =>
        w.recorder.uploads.map (fun upload => (upload.req.fromTs, upload.req.toTs)) = [(0, 2)]) =
      true ∧
    (exec (World.step plainSetting) (fun _ _ => true) (.init recordedCfg) cutOff).any
      (fun w => w.endpoint.queue = [] ∧
        w.handed = [(0, .joinRoom "" "room" "peer"), (0, .trackStarted 1 "audio" .defaultAudio),
          (2000000, .disconnected), (2000000, .trackStopped 1), (2000000, .leaveRoom)] ∧
        w.recorder.uploads.map (fun upload => upload.req.toTs) = [0]) = true := by
  decide +kernel

theorem recording_conserved_endThenLeave :
    ∃ w, Reaches (World.step plainSetting) (fun w act => w.careful plainSetting act = true)
        (.init recordedCfg) endThenLeave w ∧
      w.recorder.uploads.map (fun upload => (upload.req.fromTs, upload.req.toTs)) = [(0, 2)] ∧
      Conserved plainSetting w := by
  obtain ⟨w, hw, huploads⟩ := (Option.any_eq_true _ _).mp exec_recorded.1
  have hreaches := reaches_of_exec (fun _ _ hok => hok) hw
  exact ⟨w, hreaches, of_decide_eq_true huploads,
    recording_conserved plainSetting recordedCfg hreaches⟩

/-- The disconnect closes the recorder's session before the track's stop and the leave reach it:
    the stop is recorded in the room, but no chunk holds it and it does not wait either. -/
theorem not_conserved_cutOff :
    ∃ w, exec (World.step plainSetting) (fun _ _ => true) (.init recordedCfg) cutOff = some w ∧
      w.endpoint.queue = [] ∧
      w.handed.map Prod.snd = [.joinRoom "" "room" "peer", .trackStarted 1 "audio" .defaultAudio,
        .disconnected, .trackStopped 1, .leaveRoom] ∧
      ¬ Conserved plainSetting w := by
  obtain ⟨w, hw, hholds⟩ := (Option.any_eq_true _ _).mp exec_recorded.2
  obtain ⟨hqueue, hhanded, htimes⟩ := of_decide_eq_true hholds
  obtain ⟨upload, huploads, htime⟩ := List.map_eq_singleton_iff.mp htimes
  refine ⟨w, hw, hqueue, by rw [hhanded]; rfl, fun hconserved => ?_⟩
  obtain ⟨index, waiting, hfiled, hnothing⟩ := hconserved.filed
  rw [hnothing (by rw [hhanded]; rfl), hhanded, huploads] at hfiled
  have hlast := Filed.last_time (show Filed _ _ ([] ++ [_]) ([] ++ [upload]) index [] from hfiled) rfl
  rw [htime] at hlast
  exact absurd hlast (by decide)

end MediaServer.Record
