import MediaServer.Lib.BTreeMap
import MediaServer.Lib.Execution
import MediaServer.Lib.IndexMap
import MediaServer.Lib.Machine
import Mathlib.Data.Nat.Basic

/-!
# The message queue of the connector agent

Messages wait in a queue, are sent while fewer than `MAX_INFLIGHT` of them are unacknowledged,
and are sent again when no acknowledgement came for a second.  The time index holds the ids of
sent messages by the time they were last sent.  An acknowledgement does not touch the index: a
pop that finds the id of an acknowledged message there throws it away.

Times are milliseconds of the node's clock, as natural numbers.
-/

namespace MediaServer.Connector

open Collections Execution

def RESEND_AFTER_MS : Nat := 1000

/-- The messages of a queue have ids. -/
class Message (M : Type) where
  msgId : M → Nat

export Message (msgId)

structure MessageQueue (M : Type) where
  inflightTs : BTreeMap Nat (List Nat)
  inflight : IndexMap Nat M
  queue : List M
  acked : Nat

namespace MessageQueue

variable {M : Type}

def default : MessageQueue M := ⟨∅, ∅, [], 0⟩

def push (q : MessageQueue M) (msg : M) : MessageQueue M := { q with queue := q.queue ++ [msg] }

def onAck (q : MessageQueue M) (id : Nat) : MessageQueue M :=
  if (q.inflight.get id).isSome then
    { q with inflight := q.inflight.swapRemove id, acked := q.acked + 1 }
  else q

theorem get_onAck (q : MessageQueue M) (id other : Nat) :
    (q.onAck id).inflight.get other = if other = id then none else q.inflight.get other := by
  rw [onAck]
  split
  · exact IndexMap.get_swapRemove _ id other
  · rename_i hnone
    split
    · rename_i hother
      rw [hother]
      simpa using hnone
    · rfl

@[simp] theorem queue_onAck (q : MessageQueue M) (id : Nat) : (q.onAck id).queue = q.queue := by
  rw [onAck]
  split <;> rfl

@[simp] theorem inflightTs_onAck (q : MessageQueue M) (id : Nat) :
    (q.onAck id).inflightTs = q.inflightTs := by
  rw [onAck]
  split <;> rfl

theorem len_onAck_le (q : MessageQueue M) (id : Nat) :
    (q.onAck id).inflight.len ≤ q.inflight.len := by
  rw [onAck]
  split
  · exact IndexMap.len_swapRemove_le _ id
  · exact le_refl _

/-- The loop takes the last id of the first bucket that is due, until one is still in flight. -/
def popRetryMsgId (q : MessageQueue M) (nowMs : Nat) :
    Except Panic (MessageQueue M × Option Nat) :=
  match hfirst : q.inflightTs.firstEntry with
  | none => .ok (q, none)
  | some (ts, ids) =>
    if ts + RESEND_AFTER_MS ≤ nowMs then
      match hlast : ids.getLast? with
      | none => .error ⟨"should have msg"⟩
      | some msgId =>
        let q' := { q with inflightTs := q.inflightTs.setFirstBucket ids.dropLast }
        if (q.inflight.get msgId).isSome then .ok (q', some msgId) else popRetryMsgId q' nowMs
    else .ok (q, none)
termination_by q.inflightTs.pairs.length
decreasing_by
  have hperm := BTreeMap.pairs_setFirstBucket hfirst
    (List.dropLast_append_getLast? _ hlast).symm
  have hlen := hperm.length_eq
  rw [List.length_cons] at hlen
  change (q.inflightTs.setFirstBucket ids.dropLast).pairs.length < _
  omega

variable [Message M]

def pop (maxInflight : Nat) (q : MessageQueue M) (nowMs : Nat) :
    Except Panic (MessageQueue M × Option M) := do
  let (q, retry) ← q.popRetryMsgId nowMs
  match retry with
  | some id =>
    match q.inflight.get id with
    | some msg => .ok ({ q with inflightTs := q.inflightTs.push nowMs id }, some msg)
    | none => .error ⟨"should exist retry_msg_id"⟩
  | none =>
    if q.inflight.len < maxInflight then
      match q.queue with
      | [] => .ok (q, none)
      | msg :: rest =>
        let q :=
          { q with
            queue := rest
            inflightTs := q.inflightTs.push nowMs (msgId msg)
            inflight := q.inflight.insert (msgId msg) msg }
        .ok (q, q.inflight.get (msgId msg))
    else .ok (q, none)

def waits (q : MessageQueue M) : Nat := q.queue.length

/-- The number of messages in flight, `inflight()` in the source. -/
def inflightLen (q : MessageQueue M) : Nat := q.inflight.len

/-! ### What one call does -/

/-- The pairs of a time and an id that a pop looked at and threw away. -/
structure Retried (q : MessageQueue M) (nowMs : Nat) (q' : MessageQueue M) (retry : Option Nat)
    (dead : List (Nat × Nat)) : Prop where
  inflight : q'.inflight = q.inflight
  queue : q'.queue = q.queue
  acked : q'.acked = q.acked
  filled : q'.inflightTs.Filled
  acknowledged : ∀ pair ∈ dead, q.inflight.get pair.2 = none
  none_due : retry = none →
    q.inflightTs.pairs.Perm (dead ++ q'.inflightTs.pairs) ∧
    ∀ pair ∈ q'.inflightTs.pairs, nowMs < pair.1 + RESEND_AFTER_MS
  first_due : ∀ id, retry = some id → ∃ ts,
    q.inflightTs.pairs.Perm (dead ++ (ts, id) :: q'.inflightTs.pairs) ∧
    ts + RESEND_AFTER_MS ≤ nowMs ∧ (q.inflight.get id).isSome ∧
    ∀ pair ∈ q'.inflightTs.pairs, ts ≤ pair.1

omit [Message M] in
theorem popRetryMsgId_spec {q : MessageQueue M} (hfilled : q.inflightTs.Filled) (nowMs : Nat) :
    ∃ q' retry dead, q.popRetryMsgId nowMs = .ok (q', retry) ∧
      Retried q nowMs q' retry dead := by
  fun_induction popRetryMsgId q nowMs with
  | case1 q hfirst =>
    refine ⟨q, none, [], rfl, rfl, rfl, rfl, hfilled, by simp, ?_, by simp⟩
    intro _
    simp [BTreeMap.pairs_eq_nil_of_firstEntry hfirst]
  | case2 q ts ids hfirst hdue hlast =>
    exact absurd (List.getLast?_eq_none_iff.mp hlast) (hfilled.first_ne_nil hfirst)
  | case3 q ts ids hfirst hdue id hlast q₁ hlive =>
    have hids := (List.dropLast_append_getLast? id hlast).symm
    have hperm := BTreeMap.pairs_setFirstBucket hfirst hids
    refine ⟨q₁, some id, [], rfl, rfl, rfl, rfl, hfilled.setFirstBucket hfirst _, by simp,
      by simp, ?_⟩
    intro id' hid
    cases hid
    refine ⟨ts, hperm, hdue, hlive, ?_⟩
    intro pair hmem
    exact BTreeMap.le_of_mem_pairs hfirst (hperm.mem_iff.mpr (List.mem_cons_of_mem _ hmem))
  | case4 q ts ids hfirst hdue id hlast q₁ hdead ih =>
    have hids := (List.dropLast_append_getLast? id hlast).symm
    have hperm := BTreeMap.pairs_setFirstBucket hfirst hids
    obtain ⟨q', retry, dead, hret, hspec⟩ := ih (hfilled.setFirstBucket hfirst _)
    refine ⟨q', retry, (ts, id) :: dead, hret, hspec.inflight, hspec.queue, hspec.acked,
      hspec.filled, ?_, ?_, ?_⟩
    · intro pair hmem
      rcases List.mem_cons.mp hmem with rfl | hmem
      · simpa using hdead
      · exact hspec.acknowledged pair hmem
    · intro hnone
      obtain ⟨hrest, hlate⟩ := hspec.none_due hnone
      exact ⟨hperm.trans (hrest.cons _), hlate⟩
    · intro id' hsome
      obtain ⟨ts', hrest, hfound⟩ := hspec.first_due id' hsome
      exact ⟨ts', hperm.trans (hrest.cons _), hfound⟩
  | case5 q ts ids hfirst hlate =>
    refine ⟨q, none, [], rfl, rfl, rfl, rfl, hfilled, by simp, ?_, by simp⟩
    intro _
    refine ⟨List.Perm.refl _, ?_⟩
    intro pair hmem
    have hle := BTreeMap.le_of_mem_pairs hfirst hmem
    omega

/-- The three things a pop can do. -/
inductive Popped (maxInflight : Nat) (q : MessageQueue M) (nowMs : Nat) :
    MessageQueue M → Option M → Prop where
  | again {q₁ : MessageQueue M} {id : Nat} {msg : M} {dead : List (Nat × Nat)}
      (hretried : Retried q nowMs q₁ (some id) dead) (hmsg : q.inflight.get id = some msg) :
      Popped maxInflight q nowMs { q₁ with inflightTs := q₁.inflightTs.push nowMs id } (some msg)
  | first {q₁ : MessageQueue M} {msg : M} {rest : List M} {dead : List (Nat × Nat)}
      (hretried : Retried q nowMs q₁ none dead) (hroom : q.inflight.len < maxInflight)
      (hqueue : q.queue = msg :: rest) :
      Popped maxInflight q nowMs
        { q₁ with
          queue := rest
          inflightTs := q₁.inflightTs.push nowMs (msgId msg)
          inflight := q₁.inflight.insert (msgId msg) msg } (some msg)
  | nothing {q₁ : MessageQueue M} {dead : List (Nat × Nat)}
      (hretried : Retried q nowMs q₁ none dead) :
      Popped maxInflight q nowMs q₁ none

theorem pop_spec (maxInflight : Nat) {q : MessageQueue M} (hfilled : q.inflightTs.Filled)
    (nowMs : Nat) :
    ∃ q' ret, q.pop maxInflight nowMs = .ok (q', ret) ∧ Popped maxInflight q nowMs q' ret := by
  obtain ⟨q₁, retry, dead, hret, hspec⟩ := popRetryMsgId_spec hfilled nowMs
  rw [pop, hret]
  cases retry with
  | some id =>
    obtain ⟨-, -, -, hlive, -⟩ := hspec.first_due id rfl
    obtain ⟨msg, hmsg⟩ := Option.isSome_iff_exists.mp hlive
    refine ⟨_, some msg, ?_, .again hspec hmsg⟩
    change (match q₁.inflight.get id with | some msg => _ | none => _) = _
    rw [hspec.inflight, hmsg]
  | none =>
    by_cases hroom : q.inflight.len < maxInflight
    · cases hqueue : q.queue with
      | nil =>
        refine ⟨q₁, none, ?_, .nothing hspec⟩
        change (if q₁.inflight.len < maxInflight then _ else _) = _
        rw [hspec.inflight, if_pos hroom, hspec.queue, hqueue]
      | cons msg rest =>
        refine ⟨_, some msg, ?_, .first hspec hroom hqueue⟩
        change (if q₁.inflight.len < maxInflight then _ else _) = _
        rw [hspec.inflight, if_pos hroom, hspec.queue, hqueue]
        simp only [IndexMap.get_insert_self]
    · refine ⟨q₁, none, ?_, .nothing hspec⟩
      change (if q₁.inflight.len < maxInflight then _ else _) = _
      rw [hspec.inflight, if_neg hroom]

/-! ### Runs -/

inductive Call (M : Type) where
  | push (msg : M)
  | onAck (id : Nat)
  | pop (nowMs : Nat)

/-- A call that was made, with what it returned. -/
inductive Record (M : Type) where
  | pushed (msg : M)
  | acked (id : Nat)
  | popped (nowMs : Nat) (returned : Option M)
deriving DecidableEq

/-- A queue with the calls made so far. -/
structure Run (M : Type) where
  queue : MessageQueue M
  log : List (Record M)

namespace Run

def start : Run M := ⟨MessageQueue.default, []⟩

def step (maxInflight : Nat) (r : Run M) : Call M → Except Panic (Run M)
  | .push msg => .ok ⟨r.queue.push msg, r.log ++ [Record.pushed msg]⟩
  | .onAck id => .ok ⟨r.queue.onAck id, r.log ++ [Record.acked id]⟩
  | .pop nowMs => do
    let (queue, returned) ← r.queue.pop maxInflight nowMs
    .ok ⟨queue, r.log ++ [Record.popped nowMs returned]⟩

end Run

/-- The pushed messages in the order of the calls. -/
def pushed (log : List (Record M)) : List M :=
  log.filterMap fun
    | .pushed msg => some msg
    | _ => none

/-- A message is noted when it is returned for the first time. -/
def noteSent (sent : List M) : Record M → List M
  | .popped _ (some msg) => if msgId msg ∈ sent.map msgId then sent else sent ++ [msg]
  | _ => sent

/-- The returned messages in the order of their first return. -/
def firstSent (log : List (Record M)) : List M := log.foldl noteSent []

def noteReturn (id : Nat) (last : Option Nat) : Record M → Option Nat
  | .popped nowMs (some msg) => if msgId msg = id then some nowMs else last
  | _ => last

/-- The time at which a message was last returned. -/
def lastReturned (log : List (Record M)) (id : Nat) : Option Nat := log.foldl (noteReturn id) none

/-- An acknowledgement came after the message had been sent. -/
def Acknowledged (log : List (Record M)) (id : Nat) : Prop :=
  ∃ before after, log = before ++ .acked id :: after ∧ id ∈ (firstSent before).map msgId

/-- A message is pushed under an id that no message was pushed under before. -/
def Distinct (r : Run M) : Call M → Prop
  | .push msg => msgId msg ∉ (pushed r.log).map msgId
  | _ => True

/-- The messages in flight that were last returned so long before a time that they are due. -/
def due (r : Run M) (time : Nat) : List M :=
  r.queue.inflight.values.filter fun msg =>
    (lastReturned r.log (msgId msg)).any (fun last => last + RESEND_AFTER_MS ≤ time)

section Log

variable (log : List (Record M)) (record : Record M)

omit [Message M] in
@[simp] theorem pushed_pushed (msg : M) :
    pushed (log ++ [Record.pushed msg]) = pushed log ++ [msg] := by
  simp [pushed]

omit [Message M] in
@[simp] theorem pushed_acked (id : Nat) : pushed (log ++ [Record.acked id]) = pushed log := by
  simp [pushed]

omit [Message M] in
@[simp] theorem pushed_popped (nowMs : Nat) (returned : Option M) :
    pushed (log ++ [Record.popped nowMs returned]) = pushed log := by
  simp [pushed]

@[simp] theorem firstSent_concat :
    firstSent (log ++ [record]) = noteSent (firstSent log) record := by
  simp [firstSent]

@[simp] theorem lastReturned_concat (id : Nat) :
    lastReturned (log ++ [record]) id = noteReturn id (lastReturned log id) record := by
  simp [lastReturned]

theorem acknowledged_concat (id : Nat) :
    Acknowledged (log ++ [record]) id ↔
      Acknowledged log id ∨ record = .acked id ∧ id ∈ (firstSent log).map msgId := by
  constructor
  · rintro ⟨before, after, heq, hsent⟩
    rcases List.eq_nil_or_concat after with rfl | ⟨front, last, rfl⟩
    · obtain ⟨rfl, hlast⟩ := List.append_inj' heq rfl
      exact Or.inr ⟨List.singleton_injective hlast, hsent⟩
    · rw [List.concat_eq_append, ← List.cons_append, ← List.append_assoc] at heq
      obtain ⟨rfl, -⟩ := List.append_inj' heq rfl
      exact Or.inl ⟨before, front, rfl, hsent⟩
  · rintro (⟨before, after, rfl, hsent⟩ | ⟨rfl, hsent⟩)
    · exact ⟨before, after ++ [record], by simp, hsent⟩
    · exact ⟨log, [], rfl, hsent⟩

end Log

theorem lastReturned_isSome_iff (log : List (Record M)) (id : Nat) :
    (lastReturned log id).isSome ↔ id ∈ (firstSent log).map msgId := by
  induction log using List.reverseRecOn with
  | nil => simp [lastReturned, firstSent]
  | append_singleton log record ih =>
    rw [lastReturned_concat, firstSent_concat]
    rcases record with msg | id' | ⟨nowMs, _ | msg⟩
    · exact ih
    · exact ih
    · exact ih
    · simp only [noteReturn, noteSent]
      by_cases hid : msgId msg = id
      · subst hid
        rw [if_pos rfl]
        split
        · rename_i hsent
          simpa using hsent
        · simp
      · rw [if_neg hid, ih]
        split
        · rfl
        · simp [Ne.symm hid]

theorem Acknowledged.sent {log : List (Record M)} {id : Nat} (h : Acknowledged log id) :
    id ∈ (firstSent log).map msgId := by
  induction log using List.reverseRecOn with
  | nil =>
    obtain ⟨before, after, heq, -⟩ := h
    simp at heq
  | append_singleton log record ih =>
    have hold : id ∈ (firstSent log).map msgId := by
      rcases (acknowledged_concat log record id).mp h with hack | ⟨-, hsent⟩
      · exact ih hack
      · exact hsent
    rw [firstSent_concat]
    rcases record with msg | id' | ⟨nowMs, _ | msg⟩
    · exact hold
    · exact hold
    · exact hold
    · simp only [noteSent]
      split
      · exact hold
      · rw [List.map_append]
        exact List.mem_append_left _ hold

/-- Where every pushed message is, and what the time index says about it. -/
structure Conserves (maxInflight : Nat) (r : Run M) : Prop where
  order : firstSent r.log ++ r.queue.queue = pushed r.log
  distinct : ((pushed r.log).map msgId).Nodup
  inflight : ∀ id msg, r.queue.inflight.get id = some msg ↔
    msg ∈ firstSent r.log ∧ msgId msg = id ∧ ¬ Acknowledged r.log id
  bound : r.queue.inflight.len ≤ maxInflight
  filled : r.queue.inflightTs.Filled
  stamps_distinct : (r.queue.inflightTs.pairs.map Prod.snd).Nodup
  stamps : ∀ pair ∈ r.queue.inflightTs.pairs, lastReturned r.log pair.2 = some pair.1
  stamped : ∀ id, (r.queue.inflight.get id).isSome →
    id ∈ r.queue.inflightTs.pairs.map Prod.snd

theorem Conserves.start (maxInflight : Nat) : Conserves maxInflight (Run.start : Run M) where
  order := rfl
  distinct := List.nodup_nil
  inflight := by
    intro id msg
    simp [Run.start, MessageQueue.default, firstSent]
  bound := Nat.zero_le _
  filled := fun entry hmem => absurd hmem List.not_mem_nil
  stamps_distinct := List.nodup_nil
  stamps := fun pair hmem => absurd hmem List.not_mem_nil
  stamped := by
    intro id h
    simp [Run.start, MessageQueue.default] at h

namespace Conserves

variable {maxInflight : Nat} {r : Run M}

theorem push (h : Conserves maxInflight r) {msg : M} (hnew : Distinct r (.push msg)) :
    Conserves maxInflight ⟨r.queue.push msg, r.log ++ [Record.pushed msg]⟩ where
  order := by
    rw [firstSent_concat, pushed_pushed, ← h.order]
    exact (List.append_assoc _ _ _).symm
  distinct := by
    rw [pushed_pushed, List.map_append, List.map_singleton]
    refine List.nodup_append.mpr ⟨h.distinct, List.nodup_singleton _, ?_⟩
    intro id hid other hother
    rw [List.mem_singleton.mp hother]
    rintro rfl
    exact hnew hid
  inflight := by
    intro id m
    simp only [firstSent_concat, noteSent, acknowledged_concat, reduceCtorEq, false_and, or_false]
    exact h.inflight id m
  bound := h.bound
  filled := h.filled
  stamps_distinct := h.stamps_distinct
  stamps := by
    intro pair hmem
    rw [lastReturned_concat]
    exact h.stamps pair hmem
  stamped := h.stamped

/-- A sent message that is not in flight has been acknowledged. -/
theorem acknowledged_of_sent (h : Conserves maxInflight r) {id : Nat}
    (hsent : id ∈ (firstSent r.log).map msgId) (hget : r.queue.inflight.get id = none) :
    Acknowledged r.log id := by
  by_contra hopen
  obtain ⟨msg, hmsg, hid⟩ := List.mem_map.mp hsent
  rw [(h.inflight id msg).mpr ⟨hmsg, hid, hopen⟩] at hget
  cases hget

theorem onAck (h : Conserves maxInflight r) (id : Nat) :
    Conserves maxInflight ⟨r.queue.onAck id, r.log ++ [Record.acked id]⟩ := by
  constructor
  · rw [firstSent_concat, pushed_acked, queue_onAck]
    exact h.order
  · rw [pushed_acked]
    exact h.distinct
  · intro x msg
    simp only [firstSent_concat, noteSent, acknowledged_concat, get_onAck, Record.acked.injEq]
    by_cases hx : x = id
    · subst hx
      rw [if_pos rfl]
      refine ⟨fun hnone => absurd hnone (by simp), ?_⟩
      rintro ⟨hmsg, hid, hopen⟩
      exact absurd (Or.inr ⟨rfl, List.mem_map.mpr ⟨msg, hmsg, hid⟩⟩) hopen
    · rw [if_neg hx, h.inflight]
      simp [Ne.symm hx]
  · exact le_trans (len_onAck_le _ id) h.bound
  · rw [inflightTs_onAck]
    exact h.filled
  · rw [inflightTs_onAck]
    exact h.stamps_distinct
  · intro pair hmem
    rw [inflightTs_onAck] at hmem
    rw [lastReturned_concat]
    exact h.stamps pair hmem
  · intro x hx
    rw [inflightTs_onAck]
    refine h.stamped x ?_
    rw [get_onAck] at hx
    split at hx
    · cases hx
    · exact hx

/-- A message in flight that is stamped before a pop is still stamped where the pop stopped, or
    is the one to be sent again. -/
theorem stamped_of_retried (h : Conserves maxInflight r) {nowMs : Nat} {q₁ : MessageQueue M}
    {retry : Option Nat} {dead : List (Nat × Nat)}
    (hretried : Retried r.queue nowMs q₁ retry dead) {id : Nat}
    (hlive : (r.queue.inflight.get id).isSome) :
    retry = some id ∨ id ∈ q₁.inflightTs.pairs.map Prod.snd := by
  have hnotdead : id ∉ dead.map Prod.snd := by
    intro hmem
    obtain ⟨pair, hpair, rfl⟩ := List.mem_map.mp hmem
    rw [hretried.acknowledged pair hpair] at hlive
    cases hlive
  have hmem := h.stamped id hlive
  cases retry with
  | none =>
    have hperm := (hretried.none_due rfl).1.map Prod.snd
    rw [hperm.mem_iff, List.map_append, List.mem_append] at hmem
    exact Or.inr (hmem.resolve_left hnotdead)
  | some id' =>
    obtain ⟨ts, hpairs, -⟩ := hretried.first_due id' rfl
    rw [(hpairs.map Prod.snd).mem_iff, List.map_append, List.mem_append, List.map_cons,
      List.mem_cons] at hmem
    rcases hmem.resolve_left hnotdead with rfl | hrest
    · exact Or.inl rfl
    · exact Or.inr hrest

/-- The messages in flight and their log are as before, the stamps are those left over. -/
theorem nothing (h : Conserves maxInflight r) {nowMs : Nat} {q₁ : MessageQueue M}
    {dead : List (Nat × Nat)} (hretried : Retried r.queue nowMs q₁ none dead) :
    Conserves maxInflight ⟨q₁, r.log ++ [Record.popped nowMs none]⟩ where
  order := by
    rw [firstSent_concat, pushed_popped, hretried.queue]
    exact h.order
  distinct := by
    rw [pushed_popped]
    exact h.distinct
  inflight := by
    intro id msg
    simp only [firstSent_concat, noteSent, acknowledged_concat, reduceCtorEq, false_and, or_false,
      hretried.inflight]
    exact h.inflight id msg
  bound := by
    rw [hretried.inflight]
    exact h.bound
  filled := hretried.filled
  stamps_distinct := by
    have hnodup := ((hretried.none_due rfl).1.map Prod.snd).nodup_iff.mp h.stamps_distinct
    rw [List.map_append] at hnodup
    exact (List.nodup_append.mp hnodup).2.1
  stamps := by
    intro pair hmem
    rw [lastReturned_concat]
    exact h.stamps pair ((hretried.none_due rfl).1.mem_iff.mpr (List.mem_append_right _ hmem))
  stamped := by
    intro id hlive
    rw [hretried.inflight] at hlive
    exact (h.stamped_of_retried hretried hlive).resolve_left (by simp)

theorem msgId_of_inflight (h : Conserves maxInflight r) {id : Nat} {msg : M}
    (hget : r.queue.inflight.get id = some msg) :
    msgId msg = id ∧ id ∈ (firstSent r.log).map msgId := by
  obtain ⟨hmsg, hid, -⟩ := (h.inflight id msg).mp hget
  exact ⟨hid, List.mem_map.mpr ⟨msg, hmsg, hid⟩⟩

theorem again (h : Conserves maxInflight r) {nowMs id : Nat} {q₁ : MessageQueue M} {msg : M}
    {dead : List (Nat × Nat)} (hretried : Retried r.queue nowMs q₁ (some id) dead)
    (hmsg : r.queue.inflight.get id = some msg) :
    Conserves maxInflight ⟨{ q₁ with inflightTs := q₁.inflightTs.push nowMs id },
      r.log ++ [Record.popped nowMs (some msg)]⟩ := by
  obtain ⟨hid, hsent⟩ := h.msgId_of_inflight hmsg
  obtain ⟨ts, hpairs, -⟩ := hretried.first_due id rfl
  have hfirst : noteSent (firstSent r.log) (.popped nowMs (some msg)) = firstSent r.log := by
    rw [noteSent, if_pos (hid ▸ hsent)]
  have hnodup := (hpairs.map Prod.snd).nodup_iff.mp h.stamps_distinct
  rw [List.map_append, List.map_cons] at hnodup
  have hrest := (List.nodup_append.mp hnodup).2.1
  have hnew := BTreeMap.pairs_push_perm q₁.inflightTs nowMs id
  constructor
  · rw [firstSent_concat, hfirst, pushed_popped, hretried.queue]
    exact h.order
  · rw [pushed_popped]
    exact h.distinct
  · intro x m
    simp only [firstSent_concat, hfirst, acknowledged_concat, reduceCtorEq, false_and, or_false,
      hretried.inflight]
    exact h.inflight x m
  · rw [hretried.inflight]
    exact h.bound
  · exact hretried.filled.push nowMs id
  · rw [(hnew.map Prod.snd).nodup_iff]
    exact hrest
  · intro pair hmem
    rw [lastReturned_concat, noteReturn, hid]
    rcases List.mem_cons.mp (hnew.mem_iff.mp hmem) with rfl | hleft
    · rw [if_pos rfl]
    · have hne : id ≠ pair.2 := by
        intro heq
        exact (List.nodup_cons.mp hrest).1 (List.mem_map.mpr ⟨pair, hleft, heq.symm⟩)
      rw [if_neg hne]
      exact h.stamps pair (hpairs.mem_iff.mpr (by simp [hleft]))
  · intro x hlive
    change (q₁.inflight.get x).isSome at hlive
    rw [hretried.inflight] at hlive
    rw [(hnew.map Prod.snd).mem_iff, List.map_cons, List.mem_cons]
    rcases h.stamped_of_retried hretried hlive with heq | hmem
    · exact Or.inl (Option.some.inj heq).symm
    · exact Or.inr hmem

/-- The message that waits first has never been returned. -/
theorem head_not_sent (h : Conserves maxInflight r) {msg : M} {rest : List M}
    (hqueue : r.queue.queue = msg :: rest) : msgId msg ∉ (firstSent r.log).map msgId := by
  have hnodup := h.distinct
  rw [← h.order, hqueue, List.map_append, List.map_cons] at hnodup
  intro hmem
  exact (List.nodup_append.mp hnodup).2.2 _ hmem _ List.mem_cons_self rfl

theorem first (h : Conserves maxInflight r) {nowMs : Nat} {q₁ : MessageQueue M} {msg : M}
    {rest : List M} {dead : List (Nat × Nat)} (hretried : Retried r.queue nowMs q₁ none dead)
    (hroom : r.queue.inflight.len < maxInflight) (hqueue : r.queue.queue = msg :: rest) :
    Conserves maxInflight
      ⟨{ q₁ with
          queue := rest
          inflightTs := q₁.inflightTs.push nowMs (msgId msg)
          inflight := q₁.inflight.insert (msgId msg) msg },
        r.log ++ [Record.popped nowMs (some msg)]⟩ := by
  have hunsent := h.head_not_sent hqueue
  have hold := h.nothing hretried
  have hfirst : noteSent (firstSent r.log) (.popped nowMs (some msg)) =
      firstSent r.log ++ [msg] := by
    rw [noteSent, if_neg hunsent]
  have hnew := BTreeMap.pairs_push_perm q₁.inflightTs nowMs (msgId msg)
  have hunstamped : ∀ pair ∈ q₁.inflightTs.pairs, pair.2 ≠ msgId msg := by
    intro pair hmem heq
    have hlast := h.stamps pair ((hretried.none_due rfl).1.mem_iff.mpr
      (List.mem_append_right _ hmem))
    refine hunsent ((lastReturned_isSome_iff r.log (msgId msg)).mp ?_)
    rw [← heq, hlast]
    rfl
  constructor
  · rw [firstSent_concat, hfirst, pushed_popped, ← h.order, hqueue]
    simp
  · rw [pushed_popped]
    exact h.distinct
  · intro x m
    simp only [firstSent_concat, hfirst, acknowledged_concat, reduceCtorEq, false_and, or_false,
      hretried.inflight, IndexMap.get_insert, List.mem_append, List.mem_singleton]
    by_cases hx : x = msgId msg
    · subst hx
      rw [if_pos rfl, Option.some.injEq]
      constructor
      · rintro rfl
        exact ⟨Or.inr rfl, rfl, fun hack => hunsent hack.sent⟩
      · rintro ⟨hsent | rfl, hid, -⟩
        · exact absurd (List.mem_map.mpr ⟨m, hsent, hid⟩) hunsent
        · rfl
    · rw [if_neg hx, h.inflight]
      constructor
      · rintro ⟨hsent, hid, hopen⟩
        exact ⟨Or.inl hsent, hid, hopen⟩
      · rintro ⟨hsent | rfl, hid, hopen⟩
        · exact ⟨hsent, hid, hopen⟩
        · exact absurd hid.symm hx
  · have hlen := IndexMap.len_insert_le q₁.inflight (msgId msg) msg
    change (q₁.inflight.insert (msgId msg) msg).len ≤ maxInflight
    rw [hretried.inflight] at hlen ⊢
    omega
  · exact hretried.filled.push nowMs (msgId msg)
  · rw [(hnew.map Prod.snd).nodup_iff, List.map_cons]
    refine List.nodup_cons.mpr ⟨?_, hold.stamps_distinct⟩
    intro hmem
    obtain ⟨pair, hpair, heq⟩ := List.mem_map.mp hmem
    exact hunstamped pair hpair heq
  · intro pair hmem
    rw [lastReturned_concat, noteReturn]
    rcases List.mem_cons.mp (hnew.mem_iff.mp hmem) with rfl | hmem
    · rw [if_pos rfl]
    · rw [if_neg (Ne.symm (hunstamped pair hmem))]
      exact h.stamps pair ((hretried.none_due rfl).1.mem_iff.mpr (List.mem_append_right _ hmem))
  · intro x hlive
    rw [(hnew.map Prod.snd).mem_iff, List.map_cons, List.mem_cons]
    simp only [IndexMap.get_insert] at hlive
    split at hlive
    · rename_i hx
      exact Or.inl hx
    · exact Or.inr (hold.stamped x hlive)

theorem pop (h : Conserves maxInflight r) {nowMs : Nat} {q : MessageQueue M} {ret : Option M}
    (hpop : Popped maxInflight r.queue nowMs q ret) :
    Conserves maxInflight ⟨q, r.log ++ [Record.popped nowMs ret]⟩ := by
  cases hpop with
  | again hretried hmsg => exact h.again hretried hmsg
  | first hretried hroom hqueue => exact h.first hretried hroom hqueue
  | nothing hretried => exact h.nothing hretried

/-- A pop keeps the messages that wait or are in flight together, and what it returns is in
    flight afterwards. -/
theorem pop_ids (h : Conserves maxInflight r) {nowMs : Nat} {q : MessageQueue M} {ret : Option M}
    (hpop : Popped maxInflight r.queue nowMs q ret) :
    (∀ id, ((∃ msg ∈ q.queue, msgId msg = id) ∨ (q.inflight.get id).isSome) ↔
      (∃ msg ∈ r.queue.queue, msgId msg = id) ∨ (r.queue.inflight.get id).isSome) ∧
    ∀ msg, ret = some msg → (q.inflight.get (msgId msg)).isSome := by
  cases hpop with
  | again hretried hmsg =>
    constructor
    · intro id
      rw [hretried.queue, hretried.inflight]
    · intro msg heq
      cases heq
      rw [(h.msgId_of_inflight hmsg).1, hretried.inflight, hmsg]
      rfl
  | @first q₁ msg rest dead hretried hroom hqueue =>
    constructor
    · intro id
      simp only [hretried.inflight, IndexMap.get_insert, hqueue, List.exists_mem_cons_iff]
      by_cases hid : id = msgId msg
      · simp [hid]
      · rw [if_neg hid]
        simp [Ne.symm hid]
    · intro msg' heq
      cases heq
      simp [IndexMap.get_insert]
  | nothing hretried =>
    constructor
    · intro id
      rw [hretried.queue, hretried.inflight]
    · intro msg heq
      cases heq

/-- No call of a run panics, and each keeps the invariant. -/
theorem step (h : Conserves maxInflight r) {call : Call M} (hdistinct : Distinct r call) :
    ∃ r', r.step maxInflight call = .ok r' ∧ Conserves maxInflight r' := by
  cases call with
  | push msg => exact ⟨_, rfl, h.push hdistinct⟩
  | onAck id => exact ⟨_, rfl, h.onAck id⟩
  | pop nowMs =>
    obtain ⟨q, ret, hret, hpop⟩ := pop_spec maxInflight h.filled nowMs
    refine ⟨⟨q, r.log ++ [Record.popped nowMs ret]⟩, ?_, h.pop hpop⟩
    rw [Run.step, hret]
    rfl

/-! What the invariant says about one message. -/

theorem waiting_iff (h : Conserves maxInflight r) {msg : M} (hmsg : msg ∈ pushed r.log) :
    msg ∈ r.queue.queue ↔ msgId msg ∉ (firstSent r.log).map msgId := by
  have hnodup := h.distinct
  rw [← h.order, List.map_append] at hnodup
  rw [← h.order, List.mem_append] at hmsg
  constructor
  · intro hwaits hsent
    exact (List.nodup_append.mp hnodup).2.2 _ hsent _ (List.mem_map_of_mem hwaits) rfl
  · intro hunsent
    exact hmsg.resolve_left fun hsent => hunsent (List.mem_map_of_mem hsent)

theorem inflight_iff (h : Conserves maxInflight r) {msg : M} (hmsg : msg ∈ pushed r.log) :
    r.queue.inflight.get (msgId msg) = some msg ↔
      msgId msg ∈ (firstSent r.log).map msgId ∧ ¬ Acknowledged r.log (msgId msg) := by
  rw [h.inflight]
  constructor
  · rintro ⟨hsent, -, hopen⟩
    exact ⟨List.mem_map_of_mem hsent, hopen⟩
  · rintro ⟨hsent, hopen⟩
    refine ⟨?_, rfl, hopen⟩
    by_contra hnot
    rw [← h.order, List.mem_append] at hmsg
    exact (h.waiting_iff (h.order ▸ List.mem_append_right _ (hmsg.resolve_left hnot))).mp
      (hmsg.resolve_left hnot) hsent

/-- The stamp of a message in flight is the time it was last returned. -/
theorem stamp_of_inflight (h : Conserves maxInflight r) {id : Nat}
    (hlive : (r.queue.inflight.get id).isSome) :
    ∃ last, lastReturned r.log id = some last ∧ (last, id) ∈ r.queue.inflightTs.pairs := by
  obtain ⟨⟨last, id'⟩, hmem, rfl⟩ := List.mem_map.mp (h.stamped id hlive)
  exact ⟨last, h.stamps _ hmem, hmem⟩

theorem one_stamp (h : Conserves maxInflight r) {id : Nat}
    (hlive : (r.queue.inflight.get id).isSome) :
    ∃ last, lastReturned r.log id = some last ∧
      r.queue.inflightTs.pairs.filter (fun pair => pair.2 = id) = [(last, id)] := by
  obtain ⟨last, hlast, hmem⟩ := h.stamp_of_inflight hlive
  refine ⟨last, hlast, ?_⟩
  obtain ⟨before, after, heq⟩ := List.append_of_mem hmem
  have hnodup := h.stamps_distinct
  rw [heq, List.map_append, List.map_cons, List.nodup_append, List.nodup_cons] at hnodup
  have hbefore : before.filter (fun pair => pair.2 = id) = [] := by
    refine List.filter_eq_nil_iff.mpr ?_
    intro pair hpair heq
    exact hnodup.2.2 _ (List.mem_map_of_mem hpair) id List.mem_cons_self (by simpa using heq)
  have hafter : after.filter (fun pair => pair.2 = id) = [] := by
    refine List.filter_eq_nil_iff.mpr ?_
    intro pair hpair heq
    exact hnodup.2.1.1 (List.mem_map.mpr ⟨pair, hpair, by simpa using heq⟩)
  rw [heq, List.filter_append, hbefore, List.filter_cons_of_pos (by simp), hafter]
  rfl

theorem mem_due (h : Conserves maxInflight r) {time : Nat} {msg : M} :
    msg ∈ due r time ↔ r.queue.inflight.get (msgId msg) = some msg ∧
      ∃ last, lastReturned r.log (msgId msg) = some last ∧ last + RESEND_AFTER_MS ≤ time := by
  rw [due, List.mem_filter, Option.any_eq_true, IndexMap.mem_values_iff]
  simp only [decide_eq_true_eq]
  refine and_congr ?_ Iff.rfl
  constructor
  · rintro ⟨id, hget⟩
    rw [(h.msgId_of_inflight hget).1]
    exact hget
  · exact fun hget => ⟨_, hget⟩

theorem nodup_due (h : Conserves maxInflight r) (time : Nat) : (due r time).Nodup := by
  refine List.Nodup.filter _ (List.Nodup.map_on ?_ (IndexMap.nodup_entries _))
  rintro ⟨id, msg⟩ hmem ⟨id', msg'⟩ hmem' heq
  have hid := (h.msgId_of_inflight (IndexMap.get_eq_some_iff.mpr hmem)).1
  have hid' := (h.msgId_of_inflight (IndexMap.get_eq_some_iff.mpr hmem')).1
  cases heq
  rw [← hid, ← hid']

/-- The stamp of a message in flight is where the pop stopped, unless it is the one sent again. -/
theorem stamp_left (h : Conserves maxInflight r) {nowMs : Nat} {q₁ : MessageQueue M}
    {retry : Option Nat} {dead : List (Nat × Nat)}
    (hretried : Retried r.queue nowMs q₁ retry dead) {id last : Nat}
    (hlive : (r.queue.inflight.get id).isSome) (hlast : lastReturned r.log id = some last) :
    retry = some id ∨ (last, id) ∈ q₁.inflightTs.pairs := by
  rcases h.stamped_of_retried hretried hlive with heq | hmem
  · exact Or.inl heq
  · right
    obtain ⟨⟨ts, id'⟩, hpair, rfl⟩ := List.mem_map.mp hmem
    have hold : (ts, id') ∈ r.queue.inflightTs.pairs := by
      cases retry with
      | none => exact (hretried.none_due rfl).1.mem_iff.mpr (List.mem_append_right _ hpair)
      | some other =>
        obtain ⟨_, hpairs, -⟩ := hretried.first_due other rfl
        exact hpairs.mem_iff.mpr (List.mem_append_right _ (List.mem_cons_of_mem _ hpair))
    have hstamp := h.stamps _ hold
    rw [hlast] at hstamp
    cases hstamp
    exact hpair

/-- Nothing is due where a pop has nothing to send again. -/
theorem due_eq_nil (h : Conserves maxInflight r) {nowMs : Nat} {q₁ : MessageQueue M}
    {dead : List (Nat × Nat)} (hretried : Retried r.queue nowMs q₁ none dead) :
    due r nowMs = [] := by
  refine List.eq_nil_iff_forall_not_mem.mpr ?_
  intro msg hmem
  obtain ⟨hget, last, hlast, hle⟩ := h.mem_due.mp hmem
  rcases h.stamp_left hretried (by rw [hget]; rfl) hlast with heq | hpair
  · cases heq
  · have hlate := (hretried.none_due rfl).2 _ hpair
    exact absurd hle (by omega)

/-- While a message is due, a pop returns one that is due, which then no longer is. -/
theorem due_step (h : Conserves maxInflight r) {time nowMs : Nat} (htime : time ≤ nowMs)
    (hdue : due r time ≠ []) :
    ∃ r' msg, r.step maxInflight (.pop nowMs) = .ok r' ∧ Conserves maxInflight r' ∧
      r'.log = r.log ++ [Record.popped nowMs (some msg)] ∧
        (due r time).Perm (msg :: due r' time) := by
  obtain ⟨other, hother⟩ := List.exists_mem_of_ne_nil _ hdue
  obtain ⟨hlive, last, hlast, hle⟩ := h.mem_due.mp hother
  obtain ⟨q, ret, hret, hpop⟩ := pop_spec maxInflight h.filled nowMs
  have hnext := h.pop hpop
  have hnow : due r nowMs ≠ [] :=
    List.ne_nil_of_mem (h.mem_due.mpr ⟨hlive, last, hlast, by omega⟩)
  have hstep : r.step maxInflight (.pop nowMs) = .ok ⟨q, r.log ++ [Record.popped nowMs ret]⟩ := by
    rw [Run.step, hret]
    rfl
  cases hpop with
  | first hretried hroom hqueue => exact absurd (h.due_eq_nil hretried) hnow
  | nothing hretried => exact absurd (h.due_eq_nil hretried) hnow
  | @again q₁ id msg dead hretried hmsg =>
    refine ⟨_, msg, hstep, hnext, rfl, ?_⟩
    have hid := (h.msgId_of_inflight hmsg).1
    obtain ⟨ts, hpairs, -, -, hmin⟩ := hretried.first_due id rfl
    have hts : lastReturned r.log id = some ts := h.stamps (ts, id) (hpairs.mem_iff.mpr (by simp))
    have hmsgdue : ts + RESEND_AFTER_MS ≤ time := by
      rcases h.stamp_left hretried (by rw [hlive]; rfl) hlast with heq | hpair
      · cases heq
        rw [hlast] at hts
        cases hts
        exact hle
      · have hfirst := hmin _ hpair
        exact le_trans (Nat.add_le_add_right hfirst _) hle
    have hfresh : msg ∉ due ⟨{ q₁ with inflightTs := q₁.inflightTs.push nowMs id },
        r.log ++ [Record.popped nowMs (some msg)]⟩ time := by
      intro hmem
      obtain ⟨-, last', hlast', hle'⟩ := hnext.mem_due.mp hmem
      rw [lastReturned_concat, noteReturn, if_pos rfl] at hlast'
      cases hlast'
      simp only [RESEND_AFTER_MS] at hle'
      omega
    refine (List.perm_ext_iff_of_nodup (h.nodup_due time)
      (List.nodup_cons.mpr ⟨hfresh, hnext.nodup_due time⟩)).mpr ?_
    intro m
    rw [List.mem_cons, h.mem_due, hnext.mem_due]
    change _ ↔ m = msg ∨ q₁.inflight.get (msgId m) = some m ∧ _
    rw [hretried.inflight]
    by_cases hm : msgId m = id
    · constructor
      · rintro ⟨hget, -⟩
        rw [hm, hmsg] at hget
        cases hget
        exact Or.inl rfl
      · rintro (rfl | ⟨hget, last', hlast', hle'⟩)
        · rw [hid]
          exact ⟨hmsg, ts, hts, hmsgdue⟩
        · rw [hm, hmsg] at hget
          cases hget
          exact absurd (hnext.mem_due.mpr
            ⟨by rw [hid]; exact hretried.inflight ▸ hmsg, last', hlast', hle'⟩) hfresh
    · have hne : m ≠ msg := by
        rintro rfl
        exact hm hid
      simp only [hne, false_or, lastReturned_concat, noteReturn, hid, if_neg (Ne.symm hm)]

/-- What is due at a time is returned, each message once, by as many pops from that time on. -/
theorem due_run (h : Conserves maxInflight r) {time : Nat} {times : List Nat}
    (htimes : ∀ nowMs ∈ times, time ≤ nowMs) (hcount : times.length = (due r time).length) :
    ∃ r' returned, Reaches (fun r call => (r.step maxInflight call).toOption) Distinct r
        (times.map .pop) r' ∧ returned.Perm (due r time) ∧
      r'.log = r.log ++ List.zipWith (fun nowMs msg => .popped nowMs (some msg)) times returned := by
  induction times generalizing r with
  | nil =>
    have hnil : due r time = [] := List.length_eq_zero_iff.mp hcount.symm
    exact ⟨r, [], .nil r, by rw [hnil], by simp⟩
  | cons nowMs times ih =>
    have hdue : due r time ≠ [] := by
      intro hnil
      rw [hnil] at hcount
      cases hcount
    obtain ⟨r₁, msg, hstep, hnext, hlog, hperm⟩ := h.due_step (htimes nowMs (by simp)) hdue
    have hcount' : times.length = (due r₁ time).length := by
      have hlen := hperm.length_eq
      rw [List.length_cons] at hlen hcount
      omega
    obtain ⟨r', returned, hreach, hreturned, hlog'⟩ :=
      ih hnext (fun t ht => htimes t (List.mem_cons_of_mem _ ht)) hcount'
    refine ⟨r', msg :: returned, ?_, (hreturned.cons msg).trans hperm.symm, ?_⟩
    · exact .cons trivial (by rw [hstep]; rfl) hreach
    · rw [hlog', hlog, List.zipWith_cons_cons, List.append_assoc]
      rfl

end Conserves

/-- Exactly one of three things holds. -/
def ExactlyOne (a b c : Prop) : Prop := a ∧ ¬ b ∧ ¬ c ∨ ¬ a ∧ b ∧ ¬ c ∨ ¬ a ∧ ¬ b ∧ c

/-- **Conservation and retry.** After any calls that push under distinct ids: the next call does
    not panic; every pushed message waits, is in flight or is acknowledged; messages were first
    returned in the order pushed; the bound is kept; a message that was returned before is
    returned by a pop only when it is unacknowledged and a resend interval has passed; each
    message in flight has one stamp, the time it was last returned; a pop returns a new message
    only when none is due, and as many pops as there are due messages return these. -/
theorem conserves_and_retries (maxInflight : Nat) {calls : List (Call M)} {r : Run M}
    (h : Reaches (fun r call => (r.step maxInflight call).toOption) Distinct Run.start calls r) :
    (∀ call, Distinct r call → ∃ r', r.step maxInflight call = .ok r') ∧
    (∀ msg ∈ pushed r.log, ExactlyOne (msg ∈ r.queue.queue)
      (r.queue.inflight.get (msgId msg) = some msg) (Acknowledged r.log (msgId msg))) ∧
    firstSent r.log ++ r.queue.queue = pushed r.log ∧
    r.queue.inflight.len ≤ maxInflight ∧
    (∀ nowMs q msg, r.queue.pop maxInflight nowMs = .ok (q, some msg) →
      ∀ last, lastReturned r.log (msgId msg) = some last →
        ¬ Acknowledged r.log (msgId msg) ∧ last + RESEND_AFTER_MS ≤ nowMs) ∧
    (∀ id msg, r.queue.inflight.get id = some msg → ∃ last, lastReturned r.log id = some last ∧
      r.queue.inflightTs.pairs.filter (fun pair => pair.2 = id) = [(last, id)]) ∧
    (∀ nowMs q msg, r.queue.pop maxInflight nowMs = .ok (q, some msg) →
      lastReturned r.log (msgId msg) = none → due r nowMs = []) ∧
    ∀ time times, (∀ nowMs ∈ times, time ≤ nowMs) → times.length = (due r time).length →
      ∃ r' returned, Reaches (fun r call => (r.step maxInflight call).toOption) Distinct r
          (times.map .pop) r' ∧ returned.Perm (due r time) ∧
        r'.log = r.log ++
          List.zipWith (fun nowMs msg => .popped nowMs (some msg)) times returned := by
  have hinv : Conserves maxInflight r := by
    refine h.invariant (P := Conserves maxInflight) ?_ (Conserves.start maxInflight)
    intro s call s' hs hok hstep
    obtain ⟨s₁, heq, hs₁⟩ := hs.step hok
    rw [heq] at hstep
    cases hstep
    exact hs₁
  refine ⟨?_, ?_, hinv.order, hinv.bound, ?_, ?_, ?_, ?_⟩
  · intro call hok
    obtain ⟨r', heq, -⟩ := hinv.step hok
    exact ⟨r', heq⟩
  · intro msg hmsg
    rw [hinv.waiting_iff hmsg, hinv.inflight_iff hmsg, ExactlyOne]
    have hsent : Acknowledged r.log (msgId msg) → msgId msg ∈ (firstSent r.log).map msgId :=
      Acknowledged.sent
    tauto
  · intro nowMs q msg hpop last hlast
    obtain ⟨q', ret, hret, hspec⟩ := pop_spec maxInflight hinv.filled nowMs
    rw [hret] at hpop
    cases hpop
    cases hspec with
    | again hretried hmsg =>
      obtain ⟨hid, -⟩ := hinv.msgId_of_inflight hmsg
      rw [← hid] at hmsg hretried
      obtain ⟨ts, hpairs, hdue, -⟩ := hretried.first_due _ rfl
      have hts := hinv.stamps (ts, msgId msg) (hpairs.mem_iff.mpr (by simp))
      rw [hlast] at hts
      cases hts
      exact ⟨((hinv.inflight _ _).mp hmsg).2.2, hdue⟩
    | first hretried hroom hqueue =>
      have hsent := (lastReturned_isSome_iff r.log (msgId msg)).mp (by rw [hlast]; rfl)
      exact absurd hsent (hinv.head_not_sent hqueue)
  · intro id msg hget
    exact hinv.one_stamp (by rw [hget]; rfl)
  · intro nowMs q msg hpop hnone
    obtain ⟨q', ret, hret, hspec⟩ := pop_spec maxInflight hinv.filled nowMs
    rw [hret] at hpop
    cases hpop
    cases hspec with
    | again hretried hmsg =>
      obtain ⟨hid, hsent⟩ := hinv.msgId_of_inflight hmsg
      rw [← hid, ← lastReturned_isSome_iff, hnone] at hsent
      cases hsent
    | first hretried hroom hqueue => exact hinv.due_eq_nil hretried
  · intro time times htimes hcount
    exact hinv.due_run htimes hcount

instance (r : Run M) (call : Call M) : Decidable (Distinct r call) :=
  match call with
  | .push msg => inferInstanceAs (Decidable (msgId msg ∉ (pushed r.log).map msgId))
  | .onAck _ => isTrue trivial
  | .pop _ => isTrue trivial

instance : Message Nat := ⟨fun n => n⟩

/-- With room for one message, the first one is sent again after a second, an early
    acknowledgement of the second one is ignored, and the second one is sent when the first one
    is acknowledged. -/
theorem conserves_and_retries_resend : ∃ r : Run Nat,
    Reaches (fun r call => (r.step 1 call).toOption) Distinct Run.start
      [.push 1, .push 2, .pop 0, .onAck 2, .pop 1000, .onAck 1, .pop 1000] r ∧
    r.log = [.pushed 1, .pushed 2, .popped 0 (some 1), .acked 2, .popped 1000 (some 1), .acked 1,
      .popped 1000 (some 2)] ∧
    r.queue.inflight.len ≤ 1 ∧ firstSent r.log ++ r.queue.queue = [1, 2] := by
  have hlog : (exec (fun r call => (r.step 1 call).toOption) (fun r call => decide (Distinct r call))
      (Run.start : Run Nat)
      [.push 1, .push 2, .pop 0, .onAck 2, .pop 1000, .onAck 1, .pop 1000]).map Run.log =
      some [.pushed 1, .pushed 2, .popped 0 (some 1), .acked 2, .popped 1000 (some 1), .acked 1,
        .popped 1000 (some 2)] := by
    decide +kernel
  obtain ⟨r, hexec, hlog⟩ := Option.map_eq_some_iff.mp hlog
  have hreach : Reaches _ Distinct Run.start _ r :=
    reaches_of_exec (fun _ _ h => of_decide_eq_true h) hexec
  obtain ⟨-, -, horder, hbound, -⟩ := conserves_and_retries 1 hreach
  refine ⟨r, hreach, hlog, hbound, ?_⟩
  rw [horder, hlog]
  rfl

end MessageQueue

end MediaServer.Connector
