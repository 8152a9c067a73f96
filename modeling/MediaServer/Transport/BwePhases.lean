import MediaServer.Lib.Answers
import MediaServer.Transport.Link

/-!
# The phases of the bandwidth estimation

`bwe_state.rs`: a phase of the estimation begins with the first video packet and ends with the
`0` that a tick returns once no video was sent for two seconds.  The laws are about the calls and
their answers alone, whatever state the estimation keeps to follow them.
-/

namespace MediaServer.Transport

namespace BweState

open Answers

/-- The calls of the estimation. -/
inductive Call where
  | tick
  | sendVideo
  | filterBwe (bitrate : UInt64)
  | filterBweConfig (current desired : UInt64)
deriving DecidableEq, Repr

/-- What a call returns. -/
inductive Reply where
  | reset (bitrate : Option UInt64)
  | sent
  | bwe (bitrate : UInt64)
  | config (current desired : UInt64)
deriving DecidableEq, Repr

/-- A call at a time. -/
def answer (bwe : BweState) (call : Instant × Call) : BweState × Reply :=
  match call.2 with
  | .tick => ((bwe.onTick call.1).1, .reset (bwe.onTick call.1).2)
  | .sendVideo => (bwe.onSendVideo call.1, .sent)
  | .filterBwe bitrate => (bwe, .bwe (bwe.filterBwe bitrate))
  | .filterBweConfig current desired =>
      (bwe, .config (bwe.filterBweConfig current desired).1
        (bwe.filterBweConfig current desired).2)

/-! ### Phases -/

abbrev Calls := Trace (Instant × Call) Reply

/-- A phase that is on: the time of its first video packet, and the calls since. -/
abbrev Phase := Option (Instant × Calls)

/-- A video packet begins a phase, and a `0` ends it. -/
def Phase.next (phase : Phase) (entry : (Instant × Call) × Reply) : Phase :=
  if entry.2 = .reset (some 0) then none
  else
    match phase with
    | none => if entry.1.2 = .sendVideo then some (entry.1.1, []) else none
    | some (first, since) => some (first, since ++ [entry])

/-- The phase that is on after some calls. -/
def phaseOf (calls : Calls) : Phase := calls.foldl Phase.next none

/-- The time of the last video packet. -/
def lastVideo (calls : Calls) : Option Instant :=
  (calls.filterMap fun entry => if entry.1.2 = .sendVideo then some entry.1.1 else none).getLast?

/-- The bitrates that ticks returned. -/
def resetsOf (calls : Calls) : List UInt64 :=
  calls.filterMap fun entry =>
    match entry.2 with
    | .reset bitrate => bitrate
    | _ => none

/-- The reset and `0` in turn, the reset first. -/
def Alternates (bitrates : List UInt64) : Prop :=
  ∀ i (h : i < bitrates.length), bitrates[i] = if i % 2 = 0 then warmUpBweBps else 0

/-- Filtered to nothing. -/
def Reply.IsZero : Reply → Prop
  | .bwe bitrate => bitrate = 0
  | .config current desired => current = 0 ∧ desired = 0
  | _ => True

/-- Filtered to the minimum of the warm-up or more. -/
def Reply.IsWarm : Reply → Prop
  | .bwe bitrate => warmUpBweBps ≤ bitrate
  | .config current desired => warmUpBweBps ≤ current ∧ warmUpDesiredBps ≤ desired
  | _ => True

/-- What a call may return, given the calls before it. -/
structure Right (before : Calls) (call : Instant × Call) (reply : Reply) : Prop where
  /-- A `0` comes at least two seconds after the last video packet. -/
  zero : reply = .reset (some 0) →
    ∃ last, lastVideo before = some last ∧ 2000 ≤ Instant.millisSince call.1 last
  /-- The first tick of a phase returns the reset. -/
  first : ∀ start since, phaseOf before = some (start, since) → call.2 = .tick →
    (∀ entry ∈ since, entry.1.2 ≠ .tick) → reply = .reset (some warmUpBweBps)
  /-- Outside of phases all is filtered to nothing. -/
  idle : phaseOf before = none → reply.IsZero
  /-- For five seconds nothing is filtered to less than the minimum. -/
  warm : ∀ start since, phaseOf before = some (start, since) →
    Instant.millisSince call.1 start < 5000 → reply.IsWarm

theorem phaseOf_concat (calls : Calls) (entry : (Instant × Call) × Reply) :
    phaseOf (calls ++ [entry]) = (phaseOf calls).next entry := by
  rw [phaseOf, List.foldl_append]
  rfl

theorem lastVideo_concat (calls : Calls) (entry : (Instant × Call) × Reply) :
    lastVideo (calls ++ [entry]) =
      if entry.1.2 = .sendVideo then some entry.1.1 else lastVideo calls := by
  unfold lastVideo
  split
  · rename_i h
    simp [h]
  · rename_i h
    simp [h]

theorem resetsOf_concat (calls : Calls) (entry : (Instant × Call) × Reply) :
    resetsOf (calls ++ [entry]) = resetsOf calls ++ (match entry.2 with
      | .reset bitrate => bitrate.toList
      | _ => []) := by
  rw [resetsOf, List.filterMap_append]
  congr 1
  obtain ⟨call, reply⟩ := entry
  cases reply with
  | reset bitrate =>
    cases bitrate with
    | none => rfl
    | some bitrate => rfl
  | sent | bwe | config => rfl

theorem Alternates.concat {bitrates : List UInt64} {bitrate : UInt64} (h : Alternates bitrates)
    (hlast : bitrate = if bitrates.length % 2 = 0 then warmUpBweBps else 0) :
    Alternates (bitrates ++ [bitrate]) := by
  intro i hi
  by_cases hold : i < bitrates.length
  · rw [List.getElem_append_left hold]
    exact h i hold
  · have heq : i = bitrates.length := by
      rw [List.length_append, List.length_singleton] at hi
      omega
    subst heq
    rw [List.getElem_concat_length rfl]
    exact hlast

/-! ### One call -/

/-- How the state of the estimation follows the calls. -/
def Follows (calls : Calls) : BweState → Prop
  | .inactive => phaseOf calls = none
  | .warmUp start last reset => ∃ since, phaseOf calls = some (start, since) ∧
      lastVideo calls = some last ∧ (reset = true ↔ ∀ entry ∈ since, entry.1.2 ≠ .tick)
  | .active last => ∃ start since, phaseOf calls = some (start, since) ∧
      lastVideo calls = some last ∧ (∃ entry ∈ since, entry.1.2 = .tick) ∧
      ∃ entry ∈ calls, 5000 ≤ Instant.millisSince entry.1.1 start

/-- The next bitrate that a tick returns is the reset. -/
def awaitsReset : BweState → Bool
  | .inactive => true
  | .warmUp _ _ reset => reset
  | .active _ => false

structure Sound (calls : Calls) (bwe : BweState) : Prop where
  follows : Follows calls bwe
  alternates : Alternates (resetsOf calls)
  turn : (resetsOf calls).length % 2 = 0 ↔ bwe.awaitsReset = true

theorem Phase.next_some {start : Instant} {since : Calls} {entry : (Instant × Call) × Reply}
    (h : entry.2 ≠ .reset (some 0)) :
    Phase.next (some (start, since)) entry = some (start, since ++ [entry]) :=
  if_neg h

theorem Phase.next_none {entry : (Instant × Call) × Reply} (h : entry.1.2 ≠ .sendVideo) :
    Phase.next none entry = none := by
  by_cases hreply : entry.2 = .reset (some 0)
  · exact if_pos hreply
  · exact (if_neg hreply).trans (if_neg h)

theorem phaseOf_append {calls : Calls} {entry : (Instant × Call) × Reply} {start : Instant}
    {since : Calls} (hphase : phaseOf calls = some (start, since))
    (hreply : entry.2 ≠ .reset (some 0)) :
    phaseOf (calls ++ [entry]) = some (start, since ++ [entry]) := by
  rw [phaseOf_concat, hphase, Phase.next_some hreply]

/-- A call that neither sends video nor ends the phase. -/
theorem Follows.append {calls : Calls} {bwe : BweState} {entry : (Instant × Call) × Reply}
    (h : Follows calls bwe) (hcall : entry.1.2 ≠ .sendVideo)
    (hreply : entry.2 ≠ .reset (some 0))
    (htick : entry.1.2 = .tick → bwe = .inactive ∨ bwe.awaitsReset = false) :
    Follows (calls ++ [entry]) bwe := by
  have hlast : lastVideo (calls ++ [entry]) = lastVideo calls := by
    rw [lastVideo_concat, if_neg hcall]
  cases bwe with
  | inactive =>
    have hidle : phaseOf calls = none := h
    change phaseOf (calls ++ [entry]) = none
    rw [phaseOf_concat, hidle, Phase.next_none hcall]
  | warmUp start last reset =>
    obtain ⟨since, hphase, hvideo, hreset⟩ := h
    refine ⟨since ++ [entry], phaseOf_append hphase hreply, hlast.trans hvideo, ?_⟩
    rw [hreset]
    constructor
    · intro hall e hmem
      rcases List.mem_append.mp hmem with hold | hnew
      · exact hall e hold
      · rw [List.mem_singleton.mp hnew]
        intro hit
        rcases htick hit with heq | hfalse
        · exact nomatch heq
        · exact absurd (hreset.mpr hall) (ne_true_of_eq_false hfalse)
    · exact fun hall e hmem => hall e (List.mem_append_left _ hmem)
  | active last =>
    obtain ⟨start, since, hphase, hvideo, ⟨e, he, hit⟩, ⟨e', he', hwarm⟩⟩ := h
    refine ⟨start, since ++ [entry], phaseOf_append hphase hreply, hlast.trans hvideo, ?_, ?_⟩
    · exact ⟨e, List.mem_append_left _ he, hit⟩
    · exact ⟨e', List.mem_append_left _ he', hwarm⟩

/-- A call that no bitrate is returned to leaves the turn to who has it. -/
theorem Sound.quiet {calls : Calls} {bwe bwe' : BweState} {call : Instant × Call} {reply : Reply}
    (h : Sound calls bwe) (hfollows : Follows (calls ++ [(call, reply)]) bwe')
    (hreply : resetsOf (calls ++ [(call, reply)]) = resetsOf calls)
    (hawaits : bwe'.awaitsReset = bwe.awaitsReset) :
    Sound (calls ++ [(call, reply)]) bwe' := by
  refine ⟨hfollows, ?_, ?_⟩
  · rw [hreply]
    exact h.alternates
  · rw [hreply, hawaits]
    exact h.turn

/-- A tick that returns the bitrate whose turn it is. -/
theorem Sound.returns {calls : Calls} {bwe bwe' : BweState} {call : Instant × Call}
    {bitrate : UInt64} (h : Sound calls bwe)
    (hfollows : Follows (calls ++ [(call, .reset (some bitrate))]) bwe')
    (hbitrate : bitrate = if bwe.awaitsReset then warmUpBweBps else 0)
    (hawaits : bwe'.awaitsReset = !bwe.awaitsReset) :
    Sound (calls ++ [(call, .reset (some bitrate))]) bwe' := by
  have hresets : resetsOf (calls ++ [(call, .reset (some bitrate))]) = resetsOf calls ++ [bitrate] :=
    resetsOf_concat ..
  have hturn := h.turn
  refine ⟨hfollows, ?_, ?_⟩
  · rw [hresets]
    apply h.alternates.concat
    rw [hbitrate]
    exact if_congr hturn.symm rfl rfl
  · rw [hresets, List.length_append, List.length_singleton, hawaits]
    cases hbwe : bwe.awaitsReset with
    | true =>
      have heven := hturn.mpr hbwe
      simp only [Bool.not_true, Bool.false_eq_true, iff_false]
      omega
    | false =>
      rw [hbwe] at hturn
      simp only [Bool.not_false, iff_true]
      have hodd : ¬ (resetsOf calls).length % 2 = 0 := fun heven => nomatch hturn.mp heven
      omega

/-- **A video packet** begins a phase or goes on with it. -/
theorem Sound.sendVideo {calls : Calls} {bwe : BweState} (h : Sound calls bwe) (now : Instant) :
    Sound (calls ++ [((now, .sendVideo), .sent)]) (bwe.onSendVideo now) := by
  have hresets : resetsOf (calls ++ [((now, .sendVideo), .sent)]) = resetsOf calls :=
    (resetsOf_concat ..).trans (List.append_nil _)
  have hlast : lastVideo (calls ++ [((now, .sendVideo), .sent)]) = some now :=
    lastVideo_concat ..
  cases bwe with
  | inactive =>
    have hidle : phaseOf calls = none := h.follows
    refine h.quiet ⟨[], ?_, hlast, ?_⟩ hresets rfl
    · rw [phaseOf_concat, hidle]
      rfl
    · exact iff_of_true rfl fun _ hmem => (nomatch hmem)
  | warmUp start last reset =>
    obtain ⟨since, hphase, hvideo, hreset⟩ := h.follows
    refine h.quiet ⟨_, phaseOf_append hphase (by simp), hlast, ?_⟩ hresets rfl
    rw [hreset]
    simp [or_imp, forall_and]
  | active last =>
    obtain ⟨start, since, hphase, hvideo, ⟨e, he, hit⟩, ⟨e', he', hwarm⟩⟩ := h.follows
    refine h.quiet ⟨start, _, phaseOf_append hphase (by simp), hlast, ?_, ?_⟩ hresets rfl
    · exact ⟨e, List.mem_append_left _ he, hit⟩
    · exact ⟨e', List.mem_append_left _ he', hwarm⟩

/-- The phase ends. -/
theorem Sound.timeout {calls : Calls} {bwe : BweState} (h : Sound calls bwe) (call : Instant × Call)
    (hbwe : bwe.awaitsReset = false) :
    Sound (calls ++ [(call, .reset (some 0))]) .inactive := by
  refine h.returns ?_ ?_ ?_
  · change phaseOf _ = none
    rw [phaseOf_concat]
    exact if_pos rfl
  · rw [hbwe]
    rfl
  · rw [hbwe]
    rfl

/-- **A tick** returns the reset, ends the phase, or returns nothing. -/
theorem Sound.tick {calls : Calls} {bwe : BweState} (h : Sound calls bwe) (now : Instant) :
    Sound (calls ++ [((now, .tick), .reset (bwe.onTick now).2)]) (bwe.onTick now).1 := by
  have hresets : resetsOf (calls ++ [((now, .tick), .reset none)]) = resetsOf calls :=
    (resetsOf_concat ..).trans (List.append_nil _)
  cases bwe with
  | inactive =>
    exact h.quiet (h.follows.append (by simp) (by simp [onTick]) fun _ => Or.inl rfl) hresets rfl
  | warmUp start last reset =>
    obtain ⟨since, hphase, hvideo, hreset⟩ := h.follows
    cases reset with
    | true =>
      refine h.returns ⟨_, phaseOf_append hphase (by simp [warmUpBweBps]), ?_, ?_⟩ rfl rfl
      · exact (lastVideo_concat ..).trans hvideo
      · -- the tick itself is the first of the phase
        refine iff_of_false (fun hfalse => nomatch hfalse) fun hall => ?_
        exact hall _ (List.mem_append_right _ List.mem_cons_self) rfl
    | false =>
      have hfollows : Follows (calls ++ [((now, .tick), .reset none)])
          (.warmUp start last false) :=
        h.follows.append (by simp) (by simp) fun _ => Or.inr rfl
      dsimp only [onTick]
      rw [if_neg Bool.false_ne_true]
      split
      · exact h.timeout _ rfl
      · split
        · rename_i hwarm
          refine h.quiet ⟨start, _, phaseOf_append hphase (by simp), ?_, ?_, ?_⟩ hresets rfl
          · exact (lastVideo_concat ..).trans hvideo
          · exact ⟨_, List.mem_append_right _ List.mem_cons_self, rfl⟩
          · exact ⟨_, List.mem_append_right _ List.mem_cons_self, hwarm⟩
        · exact h.quiet hfollows hresets rfl
  | active last =>
    dsimp only [onTick]
    split
    · exact h.timeout _ rfl
    · exact h.quiet (h.follows.append (by simp) (by simp) fun _ => Or.inr rfl) hresets rfl

/-- What filters return leaves the estimation as it is. -/
theorem Sound.filter {calls : Calls} {bwe : BweState} (h : Sound calls bwe) {call : Instant × Call}
    {reply : Reply} (hcall : call.2 ≠ .sendVideo) (htick : call.2 ≠ .tick)
    (hreply : ∀ bitrate, reply ≠ .reset bitrate) : Sound (calls ++ [(call, reply)]) bwe := by
  refine h.quiet (h.follows.append hcall (hreply _) fun hit => absurd hit htick) ?_ rfl
  rw [resetsOf_concat]
  cases reply with
  | reset bitrate => exact absurd rfl (hreply bitrate)
  | sent | bwe | config => exact List.append_nil _

/-! ### The laws -/

/-- What a phase says of the state. -/
theorem Sound.phase_eq_none {calls : Calls} {bwe : BweState} (h : Sound calls bwe) :
    phaseOf calls = none ↔ bwe = .inactive := by
  have hfollows := h.follows
  cases bwe with
  | inactive => exact iff_of_true hfollows rfl
  | warmUp start last reset =>
    obtain ⟨since, hphase, -⟩ := hfollows
    rw [hphase]
    exact iff_of_false (fun heq => nomatch heq) fun heq => nomatch heq
  | active last =>
    obtain ⟨start, since, hphase, -⟩ := hfollows
    rw [hphase]
    exact iff_of_false (fun heq => nomatch heq) fun heq => nomatch heq

/-- A filter in the first five seconds of a phase finds the estimation warming up. -/
theorem Sound.warmingUp {calls : Calls} {bwe : BweState} (h : Sound calls bwe) {start now : Instant}
    {since : Calls} (hphase : phaseOf calls = some (start, since))
    (htimes : ∀ entry ∈ calls, entry.1.1 ≤ now) (hsoon : Instant.millisSince now start < 5000) :
    ∃ start' last reset, bwe = .warmUp start' last reset := by
  have hfollows := h.follows
  cases bwe with
  | inactive => exact nomatch hphase.symm.trans hfollows
  | warmUp start' last reset => exact ⟨start', last, reset, rfl⟩
  | active last =>
    obtain ⟨start', since', hphase', -, -, entry, hmem, hwarm⟩ := hfollows
    obtain ⟨rfl, rfl⟩ := Prod.mk.inj (Option.some.inj (hphase.symm.trans hphase'))
    have hle : (entry.1.1 : Nat) ≤ now := htimes entry hmem
    have hmono : Instant.millisSince entry.1.1 start ≤ Instant.millisSince now start :=
      Nat.div_le_div_right (Nat.sub_le_sub_right hle start)
    omega

theorem le_max_warmUp (bitrate least : UInt64) : least ≤ max bitrate least := by
  change least ≤ if bitrate ≤ least then least else bitrate
  split
  · exact UInt64.le_refl least
  · rename_i hless
    exact (UInt64.le_total bitrate least).resolve_left hless

theorem Sound.right_filterBwe {calls : Calls} {bwe : BweState} (h : Sound calls bwe) {now : Instant}
    (bitrate : UInt64) (htimes : ∀ entry ∈ calls, entry.1.1 ≤ now) :
    Right calls (now, .filterBwe bitrate) (.bwe (bwe.filterBwe bitrate)) where
  zero heq := nomatch heq
  first _ _ _ heq := nomatch heq
  idle hidle := by
    rw [h.phase_eq_none.mp hidle]
    rfl
  warm start since hphase hsoon := by
    obtain ⟨start', last, reset, rfl⟩ := h.warmingUp hphase htimes hsoon
    exact le_max_warmUp _ _

theorem Sound.right_filterBweConfig {calls : Calls} {bwe : BweState} (h : Sound calls bwe)
    {now : Instant} (current desired : UInt64) (htimes : ∀ entry ∈ calls, entry.1.1 ≤ now) :
    Right calls (now, .filterBweConfig current desired)
      (.config (bwe.filterBweConfig current desired).1
        (bwe.filterBweConfig current desired).2) where
  zero heq := nomatch heq
  first _ _ _ heq := nomatch heq
  idle hidle := by
    rw [h.phase_eq_none.mp hidle]
    exact ⟨rfl, rfl⟩
  warm start since hphase hsoon := by
    obtain ⟨start', last, reset, rfl⟩ := h.warmingUp hphase htimes hsoon
    exact ⟨le_max_warmUp _ _, le_max_warmUp _ _⟩

theorem Sound.right_tick {calls : Calls} {bwe : BweState} (h : Sound calls bwe) (now : Instant) :
    Right calls (now, .tick) (.reset (bwe.onTick now).2) where
  zero heq := by
    have hfollows := h.follows
    cases bwe with
    | inactive => exact nomatch heq
    | warmUp start last reset =>
      obtain ⟨since, -, hvideo, -⟩ := hfollows
      dsimp only [onTick] at heq
      split at heq
      · have hzero : warmUpBweBps = 0 := Option.some.inj (Reply.reset.inj heq)
        exact absurd hzero (by decide)
      · split at heq
        · rename_i hlate
          exact ⟨last, hvideo, hlate⟩
        · split at heq
          · exact nomatch heq
          · exact nomatch heq
    | active last =>
      obtain ⟨start, since, -, hvideo, -⟩ := hfollows
      dsimp only [onTick] at heq
      split at heq
      · rename_i hlate
        exact ⟨last, hvideo, hlate⟩
      · exact nomatch heq
  first start since hphase _ hnone := by
    have hfollows := h.follows
    cases bwe with
    | inactive => exact nomatch hphase.symm.trans hfollows
    | warmUp start' last reset =>
      obtain ⟨since', hphase', -, hreset⟩ := hfollows
      obtain ⟨rfl, rfl⟩ := Prod.mk.inj (Option.some.inj (hphase.symm.trans hphase'))
      rw [hreset.mpr hnone]
      rfl
    | active last =>
      obtain ⟨start', since', hphase', -, ⟨entry, hmem, hit⟩, -⟩ := hfollows
      obtain ⟨rfl, rfl⟩ := Prod.mk.inj (Option.some.inj (hphase.symm.trans hphase'))
      exact absurd hit (hnone entry hmem)
  idle _ := trivial
  warm _ _ _ _ := trivial

/-- **One call**, at a time that is no earlier than those of the calls before. -/
theorem Sound.step {calls : Calls} {bwe : BweState} (h : Sound calls bwe) (call : Instant × Call)
    (htimes : ∀ entry ∈ calls, entry.1.1 ≤ call.1) :
    Right calls call (bwe.answer call).2 ∧
      Sound (calls ++ [(call, (bwe.answer call).2)]) (bwe.answer call).1 := by
  obtain ⟨now, call⟩ := call
  cases call with
  | tick => exact ⟨h.right_tick now, h.tick now⟩
  | sendVideo =>
    refine ⟨⟨?_, ?_, ?_, ?_⟩, h.sendVideo now⟩
    · exact fun heq => nomatch heq
    · exact fun _ _ _ heq => nomatch heq
    · exact fun _ => trivial
    · exact fun _ _ _ _ => trivial
  | filterBwe bitrate =>
    exact ⟨h.right_filterBwe bitrate htimes, h.filter (by simp) (by simp) (by simp [answer])⟩
  | filterBweConfig current desired =>
    exact ⟨h.right_filterBweConfig current desired htimes,
      h.filter (by simp) (by simp) (by simp [answer])⟩

/-- **The phases of the estimation**, for every order of calls at times that never go back. -/
theorem phases (calls : List (Instant × Call))
    (htimes : calls.Pairwise fun earlier later => earlier.1 ≤ later.1) :
    Alternates (resetsOf (trace answer .inactive calls)) ∧
      Lawful Right (trace answer .inactive calls) := by
  have hinit : Sound [] .inactive := by
    refine ⟨rfl, fun i hi => (nomatch hi), ?_⟩
    exact iff_of_true rfl rfl
  have hok : ∀ before call rest, calls = before ++ call :: rest →
      ∀ earlier ∈ before, earlier.1 ≤ call.1 := by
    rintro before call rest rfl earlier hmem
    exact (List.pairwise_append.mp htimes).2.2 earlier hmem call List.mem_cons_self
  obtain ⟨hlawful, hsound⟩ := lawful_trace hinit
    (fun before bwe call hsound hok =>
      hsound.step call fun entry hmem => hok entry.1 (mem_trace _ hmem)) hok
  exact ⟨hsound.alternates, hlawful⟩

/-- A camera that is turned on, turned off, and turned on again. -/
def camera : List (Instant × Call) :=
  [(0, .filterBwe 100), (0, .sendVideo), (1000000, .tick), (1000000000, .filterBwe 100),
    (1500000000, .sendVideo), (3500000000, .tick), (3600000000, .filterBweConfig 100 200),
    (4000000000, .sendVideo), (4100000000, .tick), (4200000000, .filterBweConfig 100 900000)]

theorem phases_camera :
    resetsOf (trace answer .inactive camera) = [800000, 0, 800000] ∧
      Alternates (resetsOf (trace answer .inactive camera)) ∧
      Lawful Right (trace answer .inactive camera) ∧
      ((4200000000, .filterBweConfig 100 900000), .config 800000 1000000) ∈
        trace answer .inactive camera := by
  obtain ⟨halternates, hlawful⟩ := phases camera (by decide)
  exact ⟨by decide, halternates, hlawful, by decide⟩

end BweState

end MediaServer.Transport
