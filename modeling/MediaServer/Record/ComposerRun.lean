import MediaServer.Record.ComposerOutput

/-!
# Composing a recording to its end

A push stops the composer when the output cannot be opened or a time cannot be written.  What is
left is flushed.  So the composer comes to its end exactly when there was nothing to mix, or more
frames were opened than the queue of the mixer holds.
-/

namespace MediaServer.Record

open MixSession

/-! ### The pushes that are composed -/

def composeAll (openOutput : Except String Unit) (pushes : List (Push TrackKey)) :
    Except Stop (MixSession TrackKey) :=
  pushes.foldlM (composeStep openOutput) start

/-- The output could be opened for these frames, and each of them can be written. -/
def Allowed (openOutput : Except String Unit) (returned : List (UInt64 × List Int16)) : Prop :=
  match returned with
  | [] => True
  | first :: rest => openOutput = .ok () ∧ ∀ out ∈ rest, Writable first.1 out.1

section

variable {openOutput : Except String Unit} {ms ms' : MixSession TrackKey} {p : Push TrackKey}

/-- What a step can be: the push panics; it hands nothing out; it hands out a frame, which is
    checked. -/
theorem composeStep_cases (openOutput : Except String Unit) (ms : MixSession TrackKey)
    (p : Push TrackKey) :
    (∃ panic, ms.push p = .error panic ∧ composeStep openOutput ms p = .error (.panic panic)) ∨
      (∃ ms', ms.push p = .ok ms' ∧ ms'.returned = ms.returned ∧
        composeStep openOutput ms p = .ok ms') ∨
      ∃ ms' out, ms.push p = .ok ms' ∧ ms'.returned = ms.returned ++ [out] ∧
        composeStep openOutput ms p =
          (match ms.returned with
            | [] => orErr openOutput
            | first :: _ => orPanic (checkTime first.1 out.1)).map fun _ => ms' := by
  unfold composeStep MixSession.push
  cases ms.buffer.push p.ts p.track p.data with
  | error panic => exact Or.inl ⟨panic, rfl, rfl⟩
  | ok result =>
    obtain ⟨out, buffer⟩ := result
    cases out with
    | none => exact Or.inr (Or.inl ⟨_, rfl, List.append_nil _, rfl⟩)
    | some out =>
      refine Or.inr (Or.inr ⟨_, out, rfl, rfl, ?_⟩)
      cases hreturned : ms.returned with
      | nil => rfl
      | cons first rest => rfl

theorem composeAll_concat {pushes : List (Push TrackKey)} :
    composeAll openOutput (pushes ++ [p]) =
      composeAll openOutput pushes >>= fun ms => composeStep openOutput ms p := by
  unfold composeAll
  rw [List.foldlM_append]
  cases pushes.foldlM (composeStep openOutput) start with
  | error stop => rfl
  | ok ms =>
    change (composeStep openOutput ms p >>= fun ms => pure ms) = composeStep openOutput ms p
    exact bind_pure _

theorem pushAll_concat {pushes : List (Push TrackKey)} :
    pushAll (pushes ++ [p]) = pushAll pushes >>= fun ms => ms.push p := by
  unfold pushAll
  rw [List.foldlM_append]
  cases pushes.foldlM MixSession.push start with
  | error panic => rfl
  | ok ms =>
    change (ms.push p >>= fun ms => pure ms) = ms.push p
    exact bind_pure _

theorem allowed_concat {returned : List (UInt64 × List Int16)} {out : UInt64 × List Int16} :
    Allowed openOutput (returned ++ [out]) ↔
      Allowed openOutput returned ∧
        match returned with
        | [] => openOutput = .ok ()
        | first :: _ => Writable first.1 out.1 := by
  cases returned with
  | nil => exact ⟨fun h => ⟨trivial, h.1⟩, fun h => ⟨h.2, fun _ hmem => nomatch hmem⟩⟩
  | cons first rest =>
    constructor
    · rintro ⟨hopen, hrest⟩
      exact ⟨⟨hopen, fun out hout => hrest out (List.mem_append_left _ hout)⟩,
        hrest out (List.mem_append_right _ List.mem_cons_self)⟩
    · rintro ⟨⟨hopen, hrest⟩, hout⟩
      refine ⟨hopen, fun out hmem => ?_⟩
      rcases List.mem_append.mp hmem with hmem | hmem
      · exact hrest out hmem
      · rw [List.mem_singleton.mp hmem]
        exact hout

theorem composeStep_eq_ok_iff (h : Allowed openOutput ms.returned) :
    composeStep openOutput ms p = .ok ms' ↔
      ms.push p = .ok ms' ∧ Allowed openOutput ms'.returned := by
  rcases composeStep_cases openOutput ms p with
    ⟨panic, hpush, hstep⟩ | ⟨next, hpush, hsame, hstep⟩ | ⟨next, out, hpush, hmore, hstep⟩
  · rw [hstep, hpush]
    exact iff_of_false (fun h => nomatch h) (fun h => nomatch h.1)
  · rw [hstep, hpush]
    constructor
    · intro heq
      obtain rfl := Except.ok.inj heq
      exact ⟨rfl, hsame ▸ h⟩
    · rintro ⟨heq, -⟩
      exact congrArg _ (Except.ok.inj heq)
  · have hallowed : Allowed openOutput next.returned ↔
        (match ms.returned with
          | [] => orErr openOutput
          | first :: _ => orPanic (checkTime first.1 out.1)) = .ok () := by
      rw [hmore, allowed_concat, and_iff_right h]
      cases ms.returned with
      | nil => cases openOutput <;> simp [orErr]
      | cons first rest =>
        dsimp only
        rw [← checkTime_eq_ok_iff]
        cases checkTime first.1 out.1 <;> simp [orPanic]
    rw [hstep, hpush]
    cases hcheck : (match ms.returned with
      | [] => orErr openOutput
      | first :: _ => orPanic (checkTime first.1 out.1)) with
    | error stop =>
      refine iff_of_false (fun h => nomatch h) ?_
      rintro ⟨heq, hnext⟩
      obtain rfl := Except.ok.inj heq
      rw [hcheck] at hallowed
      exact nomatch hallowed.mp hnext
    | ok u =>
      rw [hcheck] at hallowed
      constructor
      · intro heq
        obtain rfl := Except.ok.inj heq
        exact ⟨rfl, hallowed.mpr rfl⟩
      · rintro ⟨heq, -⟩
        exact congrArg _ (Except.ok.inj heq)

/-- The pushes go through exactly when they go through the mixer and what it hands out can be
    written. -/
theorem composeAll_eq_ok_iff {pushes : List (Push TrackKey)} :
    composeAll openOutput pushes = .ok ms ↔
      pushAll pushes = .ok ms ∧ Allowed openOutput ms.returned := by
  induction pushes using List.reverseRecOn generalizing ms with
  | nil =>
    constructor
    · intro h
      rw [← Except.ok.inj h]
      exact ⟨rfl, trivial⟩
    · exact fun h => congrArg _ (Except.ok.inj h.1)
  | append_singleton pushes p ih =>
    rw [composeAll_concat, pushAll_concat, Except.bind_eq_ok, Except.bind_eq_ok]
    constructor
    · rintro ⟨before, hbefore, hstep⟩
      obtain ⟨hpushed, hallowed⟩ := ih.mp hbefore
      obtain ⟨hpush, hallowed⟩ := (composeStep_eq_ok_iff hallowed).mp hstep
      exact ⟨⟨before, hpushed, hpush⟩, hallowed⟩
    · rintro ⟨⟨before, hpushed, hpush⟩, hallowed⟩
      have hearlier : Allowed openOutput before.returned := by
        rcases composeStep_cases openOutput before p with
          ⟨panic, hpanic, -⟩ | ⟨next, hnext, hsame, -⟩ | ⟨next, out, hnext, hmore, -⟩
        · exact nomatch hpush.symm.trans hpanic
        · obtain rfl := Except.ok.inj (hpush.symm.trans hnext)
          exact hsame ▸ hallowed
        · obtain rfl := Except.ok.inj (hpush.symm.trans hnext)
          rw [hmore] at hallowed
          exact (allowed_concat.mp hallowed).1
      exact ⟨before, ih.mpr ⟨hpushed, hearlier⟩, (composeStep_eq_ok_iff hearlier).mpr ⟨hpush, hallowed⟩⟩

theorem composeAll_of_prefix {before pushes : List (Push TrackKey)} (h : before <+: pushes)
    {stop : Stop} (hstop : composeAll openOutput before = .error stop) :
    composeAll openOutput pushes = .error stop := by
  obtain ⟨rest, rfl⟩ := h
  unfold composeAll at *
  rw [List.foldlM_append, hstop]
  rfl

/-- The pushes end with an error exactly when the output cannot be opened and a frame is handed
    out. -/
theorem composeAll_eq_err_iff {pushes : List (Push TrackKey)} {message : String} :
    composeAll openOutput pushes = .error (.err message) ↔
      openOutput = .error message ∧
        ∃ before ms, before <+: pushes ∧ pushAll before = .ok ms ∧ ms.returned ≠ [] := by
  constructor
  · intro h
    induction pushes using List.reverseRecOn with
    | nil => exact nomatch h
    | append_singleton pushes p ih =>
      rw [composeAll_concat] at h
      cases hbefore : composeAll openOutput pushes with
      | error stop =>
        rw [hbefore] at h
        obtain rfl := Except.error.inj h
        obtain ⟨hopen, before, ms, hprefix, hbefore, hreturned⟩ := ih hbefore
        exact ⟨hopen, before, ms, hprefix.trans (List.prefix_append _ _), hbefore, hreturned⟩
      | ok ms =>
        rw [hbefore] at h
        have hpushed := (composeAll_eq_ok_iff.mp hbefore).1
        change composeStep openOutput ms p = _ at h
        rcases composeStep_cases openOutput ms p with
          ⟨panic, -, hstep⟩ | ⟨next, -, -, hstep⟩ | ⟨next, out, hpush, hmore, hstep⟩
        · rw [hstep] at h
          exact nomatch h
        · rw [hstep] at h
          exact nomatch h
        · rw [hstep] at h
          cases hreturned : ms.returned with
          | nil =>
            rw [hreturned] at h
            cases openOutput with
            | ok u => exact nomatch h
            | error failed =>
              obtain rfl : failed = message := by
                injection h with h
                injection h
              refine ⟨rfl, pushes ++ [p], next, List.prefix_rfl, ?_, ?_⟩
              · rw [pushAll_concat, hpushed]
                exact hpush
              · rw [hmore]
                exact List.append_ne_nil_of_right_ne_nil _ (List.cons_ne_nil _ _)
          | cons first rest =>
            rw [hreturned] at h
            dsimp only at h
            cases hcheck : checkTime first.1 out.1 with
            | error panic =>
              rw [hcheck] at h
              exact nomatch h
            | ok u =>
              rw [hcheck] at h
              exact nomatch h
  · rintro ⟨hopen, before, ms, hprefix, hbefore, hreturned⟩
    refine composeAll_of_prefix hprefix ?_
    clear hprefix
    induction before using List.reverseRecOn generalizing ms with
    | nil => exact absurd (by rw [← Except.ok.inj hbefore]; rfl) hreturned
    | append_singleton before p ih =>
      rw [pushAll_concat] at hbefore
      obtain ⟨earlier, hearlier, hpush⟩ := Except.bind_eq_ok.mp hbefore
      by_cases hfirst : earlier.returned = []
      · have hallowed : Allowed openOutput earlier.returned := by rw [hfirst]; trivial
        rw [composeAll_concat, composeAll_eq_ok_iff.mpr ⟨hearlier, hallowed⟩]
        change composeStep openOutput earlier p = _
        rcases composeStep_cases openOutput earlier p with
          ⟨panic, hpanic, -⟩ | ⟨next, hnext, hsame, -⟩ | ⟨next, out, -, -, hstep⟩
        · exact nomatch hpush.symm.trans hpanic
        · obtain rfl := Except.ok.inj (hpush.symm.trans hnext)
          exact absurd (hsame.trans hfirst) hreturned
        · rw [hstep, hfirst, hopen]
          rfl
      · exact composeAll_of_prefix (List.prefix_append _ _) (ih earlier hearlier hfirst)

end

/-! ### Recordings that complete -/

/-- The pushes go through the mixer and open more frames than its queue holds. -/
def Overflows (pushes : List (Push TrackKey)) : Prop :=
  KeepsOrder start pushes ∧ frameQueueLimit < (openings start pushes).length

/-- All frames are opened at times that can be written. -/
def InTime (pushes : List (Push TrackKey)) : Prop :=
  ∀ first ∈ (openings start pushes).head?, ∀ ts ∈ openings start pushes, Writable first ts

/-- The recordings that are composed: those with nothing to mix; those with enough frames, if the
    output can be opened; and those with enough frames for the output to fail. -/
def Composable (openOutput : Except String Unit) (pushes : List (Push TrackKey)) : Prop :=
  pushes = [] ∨
    (openOutput = .ok () ∧ Overflows pushes ∧ InTime pushes) ∨
    ((∃ message, openOutput = .error message) ∧ ∃ before, before <+: pushes ∧ Overflows before)

/-- An error is returned, or every frame that the mixer hands out is written once, in order. -/
def Completed {D E : Type} (opus : Opus D E) (pushes : List (Push TrackKey))
    (outcome : Except Stop (Option (RecordComposerResult × VpxWriter))) : Prop :=
  (∃ message, outcome = .error (.err message)) ∨
    ∃ ms result file, pushAll pushes = .ok ms ∧ outcome = .ok (some (result, file)) ∧
      file.audio = written (encodeAll opus opus.newEncoder ms.handedOut).2

section

variable {openOutput : Except String Unit} {ms : MixSession TrackKey}
  {pushes : List (Push TrackKey)} (hsorted : pushes.Pairwise fun p next => p.ts ≤ next.ts)

theorem pushAll_of_keepsOrder (h : KeepsOrder start pushes) : ∃ ms, pushAll pushes = .ok ms := by
  obtain ⟨ms, hms, -⟩ := (sorted_iff tidy_start .nil).mpr h
  exact ⟨ms, hms⟩

/-- For pushes that go through the mixer, the frames are those of the session. -/
theorem completed_iff_done {D E : Type} {opus : Opus D E} (h : pushAll pushes = .ok ms)
    (outcome : Except Stop (RecordComposerResult × VpxWriter)) :
    Completed opus pushes (outcome.map some) ↔ Done opus ms.handedOut outcome := by
  cases outcome with
  | error stop =>
    constructor
    · rintro (⟨message, hmessage⟩ | ⟨_, _, _, _, hok, -⟩)
      · exact Or.inl ⟨message, congrArg _ (Except.error.inj hmessage)⟩
      · exact nomatch hok
    · rintro (⟨message, hmessage⟩ | ⟨_, _, hok, -⟩)
      · exact Or.inl ⟨message, congrArg _ (Except.error.inj hmessage)⟩
      · exact nomatch hok
  | ok composed =>
    constructor
    · rintro (⟨message, hmessage⟩ | ⟨ms', result, file, hpushed, hok, haudio⟩)
      · exact nomatch hmessage
      · obtain rfl := Except.ok.inj (h.symm.trans hpushed)
        exact Or.inr ⟨result, file, congrArg _ (Option.some.inj (Except.ok.inj hok)), haudio⟩
    · rintro (⟨message, hmessage⟩ | ⟨result, file, hok, haudio⟩)
      · exact nomatch hmessage
      · exact Or.inr ⟨ms, result, file, h, congrArg _ (congrArg some (Except.ok.inj hok)), haudio⟩

include hsorted

theorem overflows_iff (h : pushAll pushes = .ok ms) : Overflows pushes ↔ ms.returned ≠ [] := by
  obtain ⟨hopened, horder⟩ := openedAt_sorted h hsorted
  have hkeeps : KeepsOrder start pushes := (sorted_iff tidy_start .nil).mp ⟨ms, h, horder⟩
  rw [returned_ne_nil_iff h, hopened]
  exact and_iff_right hkeeps

theorem handedOut_eq_nil_iff (h : pushAll pushes = .ok ms) : ms.handedOut = [] ↔ pushes = [] := by
  obtain ⟨hopened, horder⟩ := openedAt_sorted h hsorted
  rw [← List.map_eq_nil_iff (f := Prod.fst), handedOut_times, hopened]
  constructor
  · intro hnone
    cases pushes with
    | nil => rfl
    | cons p rest =>
      have hkeeps := (sorted_iff tidy_start .nil).mp ⟨ms, h, horder⟩
      exact absurd hnone (openings_ne_nil hkeeps)
  · rintro rfl
    rfl

/-- What was handed out and what is still queued can be written, exactly when all frames can. -/
theorem inTime_iff (h : pushAll pushes = .ok ms) (hreturned : ms.returned ≠ []) :
    openOutput = .ok () ∧ InTime pushes ↔
      Allowed openOutput ms.returned ∧
        ∀ first ∈ ms.returned.head?, ∀ frame ∈ ms.buffer.frames, Writable first.1 frame.ts := by
  obtain ⟨hopened, -⟩ := openedAt_sorted h hsorted
  unfold InTime
  rw [← hopened, openedAt]
  cases hall : ms.returned with
  | nil => exact absurd hall hreturned
  | cons first rest =>
    constructor
    · rintro ⟨hopen, hin⟩
      have hall := hin first.1 rfl
      refine ⟨⟨hopen, fun out hout => hall out.1 ?_⟩, ?_⟩
      · exact List.mem_append_left _ (List.mem_cons_of_mem _ (List.mem_map_of_mem hout))
      · intro out hout frame hframe
        obtain rfl := Option.some.inj (Option.mem_def.mp hout)
        exact hall frame.ts (List.mem_append_right _ (List.mem_map_of_mem hframe))
    · rintro ⟨⟨hopen, hrest⟩, hframes⟩
      refine ⟨hopen, fun start hstart ts hts => ?_⟩
      obtain rfl : first.1 = start := Option.some.inj (Option.mem_def.mp hstart)
      rcases List.mem_append.mp hts with hts | hts
      · rcases List.mem_cons.mp hts with rfl | hts
        · exact checkTime_eq_ok_iff.mp (checkTime_self _)
        · obtain ⟨out, hout, rfl⟩ := List.mem_map.mp hts
          exact hrest out hout
      · obtain ⟨frame, hframe, rfl⟩ := List.mem_map.mp hts
        exact hframes first rfl frame hframe

variable {D E : Type} {opus : Opus D E} (dep : Depacketizers) (cfg : RecordComposerConfig)
  (env : ComposerEnv)

/-- **Pushes in order are composed to the end** exactly when the recording is composable. -/
theorem completed_iff (htotal : opus.Total) (tracks : TrackKey → Option D) :
    Completed opus pushes ((composeAll env.openOutput pushes >>= fun ms =>
        RecordComposer.finish opus dep cfg env (stateOf opus tracks ms)).map some) ↔
      Composable env.openOutput pushes := by
  -- a prefix with too many frames stops the composer if the output cannot be opened
  have hfails : ∀ message, env.openOutput = .error message →
      (∃ before, before <+: pushes ∧ Overflows before) →
      composeAll env.openOutput pushes = .error (.err message) := by
    rintro message hopen ⟨before, hprefix, hoverflows⟩
    obtain ⟨ms, hms⟩ := pushAll_of_keepsOrder hoverflows.1
    have hreturned := (overflows_iff (hsorted.sublist hprefix.sublist) hms).mp hoverflows
    exact Iff.mpr composeAll_eq_err_iff ⟨hopen, before, ms, hprefix, hms, hreturned⟩
  cases hall : composeAll env.openOutput pushes with
  | ok ms =>
    obtain ⟨hpushed, hallowed⟩ := composeAll_eq_ok_iff.mp hall
    have hnil := handedOut_eq_nil_iff hsorted hpushed
    have hfull := overflows_iff hsorted hpushed
    change Completed opus pushes ((RecordComposer.finish opus dep cfg env
      (stateOf opus tracks ms)).map some) ↔ _
    rw [completed_iff_done hpushed,
      done_finish_iff dep htotal tracks (openedAt_sorted hpushed hsorted).2, hnil]
    refine or_congr_right ⟨?_, ?_⟩
    · rintro ⟨hreturned, hframes⟩
      obtain ⟨hopen, hin⟩ := (inTime_iff hsorted hpushed hreturned).mpr ⟨hallowed, hframes⟩
      exact Or.inl ⟨hopen, hfull.mpr hreturned, hin⟩
    · rintro (⟨hopen, hoverflows, hin⟩ | ⟨⟨message, hopen⟩, hbefore⟩)
      · have hreturned := hfull.mp hoverflows
        exact ⟨hreturned, ((inTime_iff hsorted hpushed hreturned).mp ⟨hopen, hin⟩).2⟩
      · exact nomatch hall.symm.trans (hfails message hopen hbefore)
  | error stop =>
    constructor
    · rintro (⟨message, hmessage⟩ | ⟨_, _, _, _, hok, -⟩)
      · obtain rfl : stop = .err message := Except.error.inj hmessage
        obtain ⟨hopen, before, ms, hprefix, hpushed, hreturned⟩ := Iff.mp composeAll_eq_err_iff hall
        have hoverflows := (overflows_iff (hsorted.sublist hprefix.sublist) hpushed).mpr hreturned
        exact Or.inr (Or.inr ⟨⟨message, hopen⟩, before, hprefix, hoverflows⟩)
      · exact nomatch hok
    · rintro (rfl | ⟨hopen, hoverflows, hin⟩ | ⟨⟨message, hopen⟩, hbefore⟩)
      · exact nomatch hall
      · obtain ⟨ms, hpushed⟩ := pushAll_of_keepsOrder hoverflows.1
        have hreturned := (overflows_iff hsorted hpushed).mp hoverflows
        have hallowed := ((inTime_iff hsorted hpushed hreturned).mp ⟨hopen, hin⟩).1
        exact nomatch hall.symm.trans (composeAll_eq_ok_iff.mpr ⟨hpushed, hallowed⟩)
      · obtain rfl := Except.error.inj (hall.symm.trans (hfails message hopen hbefore))
        exact Or.inl ⟨message, rfl⟩

end

/-! ### The composer -/

section

variable {D E : Type} {opus : Opus D E} {dep : Depacketizers} {cfg : RecordComposerConfig}
  {env : ComposerEnv}

/-- Composing comes to its end, whatever it finds there. -/
def Completes (opus : Opus D E) (dep : Depacketizers) (cfg : RecordComposerConfig)
    (env : ComposerEnv) (pushes : List (Push TrackKey)) : Prop :=
  ∃ enough, ∀ fuel, enough ≤ fuel →
    Completed opus pushes (RecordComposer.compose opus dep cfg env fuel)

/-- A room that cannot be listed is an error. -/
theorem compose_of_listing {message : String} (hlisting : env.listing = .error message) (fuel : Nat) :
    RecordComposer.compose opus dep cfg env fuel = .error (.err message) := by
  rw [RecordComposer.compose, hlisting]
  rfl

/-- The loop and what comes after it, over the rows that the loop takes. -/
theorem compose_eq (htotal : opus.Total) (haudio : cfg.audio = true)
    {readers : List SessionReader} (hlisting : env.listing = .ok readers) {heap : Sessions}
    (hall : connectAll env.codes env.store .empty readers = .ok heap)
    {taken : List (UInt64 × SessionRecordRow)} {enough : Nat}
    (hmerges : Merges env.codes env.store heap taken enough) {fuel : Nat} (hfuel : enough ≤ fuel) :
    RecordComposer.compose opus dep cfg env fuel =
      (composeAll env.openOutput (audioPushes opus (fun _ => none) taken) >>= fun ms =>
        RecordComposer.finish opus dep cfg env
          (stateOf opus (tracksAfter opus (fun _ => none) taken) ms)).map some := by
  have hnew : RecordComposer.new opus cfg = stateOf opus (fun _ => none) start := by
    rw [RecordComposer.new, haudio]
    rfl
  have hloop : handleAll (RecordComposer.onRow opus dep cfg env) taken
      (stateOf opus (fun _ => none) start) = _ := handleAll_stateOf dep htotal haudio taken _ start
  rw [RecordComposer.compose, hlisting]
  change (connectAll env.codes env.store .empty readers >>= _) = _
  rw [hall]
  change (rounds env.codes env.store (RecordComposer.onRow opus dep cfg env) fuel heap
    (RecordComposer.new opus cfg) >>= _) = _
  rw [hmerges _ _ fuel hfuel, hnew, hloop, ← composeAll]
  cases composeAll env.openOutput (audioPushes opus (fun _ => none) taken) with
  | error stop => rfl
  | ok ms =>
    have hfinish : ∀ composed : Except Stop (RecordComposerResult × VpxWriter),
        (composed >>= fun composed => .ok (some composed)) = composed.map some := by
      rintro (stop | composed)
      · rfl
      · rfl
    exact hfinish (RecordComposer.finish opus dep cfg env
      (stateOf opus (tracksAfter opus (fun _ => none) taken) ms))

/-- The rows that the loop takes from sessions that yield theirs in order. -/
theorem exists_taken {codes : Codes} {store : ObjectStore}
    {sessions : List (SessionReader × List SessionRecordRow)}
    (hyields : ∀ entry ∈ sessions, entry.1.Yields codes store entry.2)
    (horder : ∀ entry ∈ sessions, InOrder entry.2) :
    ∃ heap taken enough,
      connectAll codes store .empty (sessions.map Prod.fst) = .ok heap ∧
      Merges codes store heap taken enough ∧
      Interleaves (sessions.map fun entry => labelled entry.1.sessionId entry.2) taken ∧
      taken.Pairwise fun row next => row.2.ts ≤ next.2.ts := by
  obtain ⟨heap, left, hall, hqueued, hinOrder, hmerge⟩ :=
    queued_empty.connectAll (fun _ hmem => absurd hmem (Multiset.notMem_zero _)) hyields horder
  obtain ⟨taken, hinterleaves, hsorted, hmerges⟩ := hqueued.merges hinOrder
  refine ⟨heap, taken, _, hall, hmerges, ?_, hsorted⟩
  have htaken := hmerge taken hinterleaves
  rw [labels, Multiset.map_zero, zero_add] at htaken
  exact htaken

end

/-! ### A recording of one packet -/

namespace Layout

/-- The row of an audio track that starts. -/
def readStart (bytes : Bytes) : Option SessionRecordRow := do
  let (ts, bytes) ← readLe 8 bytes
  let (variant, bytes) ← readLe 4 bytes
  let (track, bytes) ← readLe 2 bytes
  let (name, bytes) ← readText bytes
  if variant = 2 ∧ bytes = List.replicate 13 0 then
    some ⟨UInt64.ofNat ts, .trackStarted (UInt16.ofNat track) name ⟨.audio, .none, .maxBitrate, none⟩⟩
  else none

def startCodes : Codes :=
  ⟨⟨header, readHeader⟩, ⟨row, fun bytes => (readStart bytes).or (readRow bytes)⟩⟩

end Layout

/-- An Opus frame of silence. -/
def silence : Bytes := [0xf8, 0xff, 0xfe]

/-- The codecs on silence. -/
def silentOpus : Opus Unit Unit where
  newDecoder := ()
  newEncoder := ()
  decode _ data := ((), if data = silence then some (List.replicate frameSamples 0) else none)
  encode _ _ := ((), some silence)

theorem silentOpus_total : silentOpus.Total := fun _ _ _ => ⟨silence, rfl⟩

def onePacket : Chunk :=
  ⟨⟨"room", "a", 1, 10, 20⟩,
    [⟨10, .trackStarted 1 "audio_main" ⟨.audio, .none, .maxBitrate, none⟩⟩,
      ⟨20, .trackMedia 1 ⟨20, 1, true, false, none, .opus (some (-30)), silence⟩⟩]⟩

def onePacketEnv : ComposerEnv where
  codes := Layout.startCodes
  store :=
    { listObjects := fun _ => .ok ["a/0"]
      getObject := fun key =>
        if key = "a/0" then some (onePacket.bytes Layout.startCodes) else none }
  listing := .ok [.new 1 "a/"]
  openOutput := .ok ()
  upload := none

def audioOnly : RecordComposerConfig := ⟨true, false, "out.webm"⟩

theorem yields_onePacket :
    ∀ entry ∈ [(SessionReader.new 1 "a/", onePacket.rows)],
      entry.1.Yields onePacketEnv.codes onePacketEnv.store entry.2 := by
  have hstored : SessionReader.Stored onePacketEnv.codes onePacketEnv.store "a/0" onePacket := by
    refine ⟨rfl, ?_, ?_⟩
    · simp only [Chunk.Fits, Fits]
      decide
    · simp only [Chunk.RoundTrips, RoundTrips]
      decide
  have hchunks : List.Forall₂ (SessionReader.Stored onePacketEnv.codes onePacketEnv.store)
      (["a/0"].mergeSort (fun a b => decide (a ≤ b))) [onePacket] := by
    rw [List.mergeSort_singleton]
    exact .cons hstored .nil
  have hyields := SessionReader.yields_of_stored (r := .new 1 "a/") rfl rfl hchunks
  rw [List.flatMap_singleton] at hyields
  exact List.forall_mem_singleton.mpr hyields

theorem inOrder_onePacket :
    ∀ entry ∈ [(SessionReader.new 1 "a/", onePacket.rows)], InOrder entry.2 :=
  List.forall_mem_singleton.mpr (.cons (by decide) (.cons (by simp) .nil))

end MediaServer.Record
