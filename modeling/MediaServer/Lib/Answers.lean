import Mathlib.Data.List.Induction
import Mathlib.Tactic.Common

/-!
# Components that answer their calls

A component that is only called is a state and an answer to each call.  Its trace lists the calls
with their answers.  A law says of a call what its answer may be, given the trace before it; the
rule shows it for a whole trace from what one call keeps.
-/

namespace Answers

variable {State Call Answer : Type}

/-- The calls of a component with their answers. -/
abbrev Trace (Call Answer : Type) := List (Call × Answer)

variable (answer : State → Call → State × Answer)

/-- The state after some calls. -/
def after (s : State) (calls : List Call) : State :=
  calls.foldl (fun s call => (answer s call).1) s

/-- The calls with the answers they get, one after another. -/
def trace : State → List Call → Trace Call Answer
  | _, [] => []
  | s, call :: rest => (call, (answer s call).2) :: trace (answer s call).1 rest

theorem trace_cons (s : State) (call : Call) (rest : List Call) :
    trace answer s (call :: rest) = (call, (answer s call).2) :: trace answer (answer s call).1 rest :=
  rfl

theorem after_concat (s : State) (calls : List Call) (call : Call) :
    after answer s (calls ++ [call]) = (answer (after answer s calls) call).1 := by
  rw [after, List.foldl_append]
  rfl

theorem trace_concat (s : State) (calls : List Call) (call : Call) :
    trace answer s (calls ++ [call]) =
      trace answer s calls ++ [(call, (answer (after answer s calls) call).2)] := by
  induction calls generalizing s with
  | nil => rfl
  | cons first rest ih =>
    rw [List.cons_append, trace_cons, trace_cons, ih, List.cons_append]
    rfl

theorem mem_trace {s : State} {calls : List Call} {entry : Call × Answer}
    (h : entry ∈ trace answer s calls) : entry.1 ∈ calls := by
  induction calls generalizing s with
  | nil => exact nomatch h
  | cons first rest ih =>
    rcases List.mem_cons.mp h with rfl | hrest
    · exact List.mem_cons_self
    · exact List.mem_cons_of_mem _ (ih hrest)

/-- Every answer meets the law, given the trace before it. -/
def Lawful (law : Trace Call Answer → Call → Answer → Prop) (entries : Trace Call Answer) : Prop :=
  ∀ before call reply rest, entries = before ++ (call, reply) :: rest → law before call reply

theorem Lawful.concat {law : Trace Call Answer → Call → Answer → Prop}
    {entries : Trace Call Answer} {call : Call} {reply : Answer} (h : Lawful law entries)
    (hlast : law entries call reply) : Lawful law (entries ++ [(call, reply)]) := by
  intro before call' reply' rest heq
  rcases List.eq_nil_or_concat rest with rfl | ⟨rest, last, rfl⟩
  · obtain ⟨rfl, hentry⟩ := List.append_inj' heq rfl
    cases hentry
    exact hlast
  · rw [List.concat_eq_append, ← List.cons_append, ← List.append_assoc] at heq
    obtain ⟨hentries, -⟩ := List.append_inj' heq rfl
    exact h before call' reply' rest hentries

variable {answer}

/-- **The rule.**  Every call that the condition allows gets a lawful answer and keeps the
    invariant, so a trace of such calls is lawful and ends with the invariant. -/
theorem lawful_trace {Inv : Trace Call Answer → State → Prop}
    {law : Trace Call Answer → Call → Answer → Prop} {ok : List Call → Call → Prop} {s : State}
    (hinit : Inv [] s)
    (hstep : ∀ calls s' call, Inv (trace answer s calls) s' → ok calls call →
      law (trace answer s calls) call (answer s' call).2 ∧
        Inv (trace answer s calls ++ [(call, (answer s' call).2)]) (answer s' call).1)
    {calls : List Call}
    (hok : ∀ before call rest, calls = before ++ call :: rest → ok before call) :
    Lawful law (trace answer s calls) ∧ Inv (trace answer s calls) (after answer s calls) := by
  induction calls using List.reverseRecOn with
  | nil => exact ⟨fun before call reply rest heq => by simp [trace] at heq, hinit⟩
  | append_singleton calls call ih =>
    obtain ⟨hlawful, hinv⟩ := ih fun before call' rest heq =>
      hok before call' (rest ++ [call]) (by rw [heq, List.append_assoc, List.cons_append])
    obtain ⟨hlaw, hnext⟩ := hstep calls _ call hinv (hok calls call [] rfl)
    rw [trace_concat, after_concat]
    exact ⟨hlawful.concat hlaw, hnext⟩

end Answers
