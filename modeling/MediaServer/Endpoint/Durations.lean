import MediaServer.Endpoint.LinkEvents
import MediaServer.Endpoint.Membership

/-!
# The durations an endpoint reports

A connection, a reconnection and a failed attempt are reported with the time since the state
before them.  The endpoint takes the later time from the earlier one, and a difference of instants
saturates, so what it reports is always zero.
-/

namespace MediaServer.Endpoint.EndpointInternal

open Machine

variable {Selector : Type}

/-- The milliseconds from one time to the next, as 32 bits hold them. -/
def elapsedMs (preTs now : Instant) : UInt32 := UInt32.ofNat (Instant.millisSince now preTs)

/-- The states an endpoint was told, with their times. -/
def toldOf (history : History Input InternalOutput) : List (Instant × TransportState) :=
  history.filterMap fun entry => toldState entry.1

/-- What a sequence of states is reported as, after the state `pre`. -/
def reportsOf (ms : Instant → Instant → UInt32) :
    Option (Instant × TransportState) → List (Instant × TransportState) →
      List (Instant × PeerEvent)
  | _, [] => []
  | pre, told :: rest => reports ms pre told.1 told.2 ++ reportsOf ms (some told) rest

/-- The link is reported right: the events are those of the told states, a connection after
    `Reconnecting` is a reconnection, and each duration is the time since the state before. -/
def ReportsRight (history : History Input InternalOutput) : Prop :=
  linksOf (emitted history) = reportsOf elapsedMs none (toldOf history)

instance (history : History Input InternalOutput) : Decidable (ReportsRight history) :=
  inferInstanceAs (Decidable (_ = _))

/-- No millisecond lies between two states of which the second is reported with a duration. -/
def Prompt (pre next : Instant × TransportState) : Prop :=
  expectsState next.2 = true → elapsedMs pre.1 next.1 = 0

instance (pre next : Instant × TransportState) : Decidable (Prompt pre next) :=
  inferInstanceAs (Decidable (_ → _))

/-! ### Sequences of states -/

theorem reportsOf_concat (ms : Instant → Instant → UInt32)
    (pre : Option (Instant × TransportState)) (told : List (Instant × TransportState))
    (last : Instant × TransportState) :
    reportsOf ms pre (told ++ [last]) =
      reportsOf ms pre told ++ reports ms (told.getLast?.or pre) last.1 last.2 := by
  induction told generalizing pre with
  | nil => exact List.append_nil _
  | cons first rest ih =>
    have hlast : rest.getLast?.or (some first) = (first :: rest).getLast?.or pre := by
      rw [List.getLast?_cons]
      cases rest.getLast? with
      | none => rfl
      | some last => rfl
    rw [List.cons_append, reportsOf, reportsOf, ih, hlast, List.append_assoc]

theorem length_reports (ms ms' : Instant → Instant → UInt32)
    (pre : Option (Instant × TransportState)) (now : Instant) (state : TransportState) :
    (reports ms pre now state).length = (reports ms' pre now state).length := by
  cases state with
  | connectError err =>
    cases pre with
    | none => rfl
    | some pre => rfl
  | connected ip =>
    rcases pre with - | ⟨preTs, preState⟩
    · rfl
    · cases preState with
      | _ => rfl
  | _ => rfl

/-- With the operands the wrong way round the difference saturates. -/
theorem afterMs_eq_zero {preTs now : Instant} (h : preTs ≤ now) : afterMs preTs now = 0 := by
  have hzero : preTs - now = 0 := Nat.sub_eq_zero_of_le h
  rw [afterMs, Instant.millisSince, hzero]
  rfl

theorem reports_iff {pre next : Instant × TransportState} (h : pre.1 ≤ next.1) :
    reports afterMs (some pre) next.1 next.2 = reports elapsedMs (some pre) next.1 next.2 ↔
      Prompt pre next := by
  obtain ⟨preTs, preState⟩ := pre
  obtain ⟨now, state⟩ := next
  unfold Prompt
  cases state with
  | connectError err =>
    simp only [reports, expectsState, afterMs_eq_zero h, List.cons.injEq, Prod.mk.injEq,
      PeerEvent.connectError.injEq, true_and, and_true, forall_const]
    exact eq_comm
  | connected ip =>
    cases preState with
    | reconnecting ip' =>
      simp only [reports, expectsState, afterMs_eq_zero h, List.cons.injEq, Prod.mk.injEq,
        PeerEvent.reconnected.injEq, true_and, and_true, forall_const]
      exact eq_comm
    | _ =>
      simp only [reports, expectsState, afterMs_eq_zero h, List.cons.injEq, Prod.mk.injEq,
        PeerEvent.connected.injEq, true_and, and_true, forall_const]
      exact eq_comm
  | _ => exact iff_of_true rfl (fun hfalse => by cases hfalse)

/-- **The durations of a sequence** are right exactly when all its states come promptly. -/
theorem reportsOf_iff {pre : Instant × TransportState} {told : List (Instant × TransportState)}
    (htimes : (pre :: told).IsChain fun a b => a.1 ≤ b.1) :
    reportsOf afterMs (some pre) told = reportsOf elapsedMs (some pre) told ↔
      (pre :: told).IsChain Prompt := by
  induction told generalizing pre with
  | nil => exact iff_of_true rfl (.singleton _)
  | cons next rest ih =>
    obtain ⟨hle, hrest⟩ := List.isChain_cons_cons.mp htimes
    rw [reportsOf, reportsOf, List.isChain_cons_cons, ← reports_iff hle, ← ih hrest]
    constructor
    · intro heq
      exact List.append_inj heq (length_reports afterMs elapsedMs _ _ _)
    · rintro ⟨hfirst, hafter⟩
      rw [hfirst, hafter]

/-! ### Runs -/

theorem toldOf_concat (history : History Input InternalOutput) (input : Input)
    (outs : List InternalOutput) :
    toldOf (history ++ [(input, outs)]) = toldOf history ++ (toldState input).toList := by
  rw [toldOf, toldOf, List.filterMap_append]
  cases hstate : toldState input with
  | none => simp [hstate]
  | some told => simp [hstate]

/-- An endpoint in a run: its tracks report nothing of the link, and it has reported all states
    and remembers the last one. -/
structure Reporting (history : History Input InternalOutput) (s : EndpointInternal Selector) :
    Prop where
  queued : Queued (linksOf s.queue) s
  reported : linksOf (emitted history) = reportsOf afterMs none (toldOf history)
  state : s.state = (toldOf history).getLast?

theorem Reporting.step {env : Env Selector} {cfg : EndpointCfg}
    {history : History Input InternalOutput} {s s' : EndpointInternal Selector} {input : Input}
    (h : Reporting history s) (hstep : (machine env cfg).step s input = .ok s') :
    Reporting (history ++ [(input, (machine env cfg).pushed s s')]) s' := by
  have hs' := h.queued.step hstep
  have hpushed : linksOf ((machine env cfg).pushed s s') = s.reportedBy input := by
    have hqueue : s'.queue = s.queue ++ (machine env cfg).pushed s s' :=
      (machine env cfg).queue_eq_append_pushed hstep
    have hlinks := hs'.links
    rw [hqueue, linksOf_append] at hlinks
    exact List.append_cancel_left hlinks
  have hstate := step_state hstep
  refine ⟨⟨rfl, hs'.remote, hs'.locals⟩, ?_, ?_⟩
  · rw [emitted_concat, linksOf_append, h.reported, hpushed, reportedBy, h.state, toldOf_concat]
    cases toldState input with
    | none => simp
    | some told =>
      rw [Option.toList_some, reportsOf_concat, Option.or_none]
  · rw [hstate, h.state, toldOf_concat]
    cases toldState input with
    | none => simp
    | some told => simp

/-- **A run reports the states it was told**, with the durations the endpoint computes. -/
theorem reporting_run {env : Env Selector} {cfg : EndpointCfg} {acts : List (Action Input)}
    {c : Config (EndpointInternal Selector) Input InternalOutput}
    (hrun : (machine env cfg).run acts = .ok c) : Reporting c.history c.state := by
  refine run_invariant (M := machine env cfg) (fun _ _ _ => True) Reporting ?_ ?_ ?_
    (Admits.of_forall (fun _ _ _ => trivial) acts) hrun
  · exact ⟨queued_new cfg, rfl, rfl⟩
  · intro history s input s' h _ hstep
    exact h.step hstep
  · intro history s h
    exact ⟨⟨rfl, h.queued.remote, h.queued.locals⟩, h.reported, h.state⟩

/-- **The durations of a run are right exactly when they are all zero.** -/
theorem reportsRight_iff (env : Env Selector) (cfg : EndpointCfg) {acts : List (Action Input)}
    {c : Config (EndpointInternal Selector) Input InternalOutput}
    (hrun : (machine env cfg).run acts = .ok c)
    (htimes : (toldOf c.history).IsChain fun pre next => pre.1 ≤ next.1) :
    ReportsRight c.history ↔ (toldOf c.history).IsChain Prompt := by
  rw [ReportsRight, (reporting_run hrun).reported]
  cases htold : toldOf c.history with
  | nil => exact iff_of_true rfl .nil
  | cons first rest =>
    rw [htold] at htimes
    rw [← reportsOf_iff htimes]
    -- nothing comes before the first state, so no duration is reported with it
    have hfirst : reports afterMs none first.1 first.2 = reports elapsedMs none first.1 first.2 := by
      obtain ⟨now, state⟩ := first
      cases state with
      | _ => rfl
    rw [reportsOf, reportsOf, hfirst]
    exact List.append_right_inj _

/-- A link that is up within a millisecond, and again after it was lost. -/
def promptLink : List (Action Input) :=
  [.input (.transport 0 [] 0 (.state (.connecting "127.0.0.1"))),
    .input (.transport 400000 [] 0 (.state (.connected "127.0.0.1"))),
    .input (.transport 7000000000 [] 0 (.state (.reconnecting "127.0.0.1"))),
    .input (.transport 7000900000 [] 0 (.state (.connected "127.0.0.1")))]

theorem reportsRight_promptLink :
    ∃ c, (machine Env.passAll rootCfg).run promptLink = .ok c ∧ ReportsRight c.history ∧
      linksOf (emitted c.history) =
        [(0, .connecting "127.0.0.1"), (400000, .connected 0 "127.0.0.1"),
          (7000000000, .reconnect "127.0.0.1"), (7000900000, .reconnected 0 "127.0.0.1")] := by
  have hrun : ∃ c, (machine Env.passAll rootCfg).run promptLink = .ok c ∧
      (toldOf c.history).IsChain (fun pre next => pre.1 ≤ next.1) ∧
      (toldOf c.history).IsChain Prompt ∧
      linksOf (emitted c.history) =
        [(0, .connecting "127.0.0.1"), (400000, .connected 0 "127.0.0.1"),
          (7000000000, .reconnect "127.0.0.1"), (7000900000, .reconnected 0 "127.0.0.1")] :=
    ⟨_, rfl, by decide, by decide, by decide⟩
  obtain ⟨c, hc, htimes, hprompt, hlinks⟩ := hrun
  exact ⟨c, hc, (reportsRight_iff Env.passAll rootCfg hc htimes).mpr hprompt, hlinks⟩

/-- A link that takes five seconds to come up. -/
def slowLink : List (Action Input) :=
  [.input (.transport 0 [] 0 (.state (.connecting "127.0.0.1"))),
    .input (.transport 5000000000 [] 0 (.state (.connected "127.0.0.1")))]

/-- The five seconds are reported as none. -/
theorem not_reportsRight_slowLink :
    ∃ c, (machine Env.passAll rootCfg).run slowLink = .ok c ∧
      (toldOf c.history).IsChain (fun pre next => pre.1 ≤ next.1) ∧
      linksOf (emitted c.history) =
        [(0, .connecting "127.0.0.1"), (5000000000, .connected 0 "127.0.0.1")] ∧
      reportsOf elapsedMs none (toldOf c.history) =
        [(0, .connecting "127.0.0.1"), (5000000000, .connected 5000 "127.0.0.1")] ∧
      ¬ ReportsRight c.history :=
  ⟨_, rfl, by decide, by decide, by decide, by decide⟩

end MediaServer.Endpoint.EndpointInternal
