import MediaServer.Utils.SeqRewrite

/-!
# Sources in order

What `SeqRewrite` does with sources whose numbers come in order, some of them taken and some left
out.  A source begins after a `reinit`; its numbers wrap around as often as they like, but each is
less than half a round ahead of the last one that was taken.

Two accounts are kept of a run.  `Place` reads the calls alone and says whether they are in order.
`Note` reads the results as well, and what it has noted determines the next one: the stream goes on
behind the largest number so far when a source begins, and within a source the numbers that were
left out leave no gap.
-/

namespace MediaServer.SeqRewrite

open Collections Serial

/-! ### Calls in order -/

/-- Where a run is: the number before the source or the last one taken, and the newest number. -/
inductive Place where
  | fresh
  | waiting
  | running (reference newest : Nat)
deriving Repr

/-- The number is behind the newest one, and less than half a round ahead of the reference. -/
def follows (max reference newest input : Nat) : Bool :=
  input < max && ahead max newest reference < ahead max input reference &&
    ahead max input reference < max / 2

def Place.next (max : Nat) : Place → Call → Option Place
  | _, .reinit => some .waiting
  | .waiting, .offset _ => some .waiting
  | .waiting, .dropValue input =>
    if input < max then some (.running (ahead max input 1) input) else none
  | .waiting, .generate input => if input < max then some (.running input input) else none
  | .running reference newest, .dropValue input =>
    if follows max reference newest input then some (.running reference input) else none
  | .running reference newest, .generate input =>
    if follows max reference newest input then some (.running input input) else none
  | .fresh, _ => none
  | .running _ _, .offset _ => none

/-- The calls start with `reinit`, offsets are only given behind a `reinit`, and the numbers of
    each source are in order. -/
def InOrder (max : Nat) (calls : List Call) : Prop :=
  (calls.foldlM (Place.next max) .fresh).isSome

instance (max : Nat) (calls : List Call) : Decidable (InOrder max calls) :=
  inferInstanceAs (Decidable (_ = true))

/-! ### What the results shall be -/

/-- The last number taken from the source with its result, and how many were left out since.  At
    its start a source has the number before its first one in place of the last. -/
inductive Standing where
  | fresh
  | waiting (pending : Nat)
  | running (input output skipped : Nat)

structure Note where
  /-- The largest result so far. -/
  largest : Nat
  standing : Standing

def Note.new : Note := ⟨0, .fresh⟩

variable {max : Nat}

def Note.next (max : Nat) (note : Note) : Call × Option Nat → Note
  | (.reinit, _) =>
    match note.standing with
    | .waiting pending => { note with standing := .waiting pending }
    | _ => { note with standing := .waiting 0 }
  | (.offset amount, _) =>
    match note.standing with
    | .waiting pending => { note with standing := .waiting (pending + amount) }
    | _ => note
  | (.dropValue input, _) =>
    match note.standing with
    | .fresh => note
    | .waiting pending =>
      { note with standing := .running (ahead max input 1) (note.largest + pending) 1 }
    | .running last output skipped => { note with standing := .running last output (skipped + 1) }
  | (.generate input, some output) =>
    ⟨later max note.largest output, .running input output 0⟩
  | (.generate _, none) => note

/-- The result that the note calls for. -/
def Note.Allows (max : Nat) (note : Note) : Call × Option Nat → Prop
  | (.generate input, result) =>
    match note.standing with
    | .fresh => False
    | .waiting pending => ∃ output, result = some output ∧
        output ≡ note.largest + pending + 1 [MOD max]
    | .running last before skipped => ∃ output, result = some output ∧
        output + skipped ≡ before + ahead max input last [MOD max]
  | (.dropValue input, result) => result = none ∧ input < max
  | (_, result) => result = none

/-- Each result is the one that the note before it calls for. -/
def Fits (max : Nat) : Note → Trace → Prop
  | _, [] => True
  | note, event :: trace => note.Allows max event ∧ Fits max (note.next max event) trace

/-! ### The rewriter within a source -/

/-- The rewriter has got as far as the note says. -/
structure Tracks (max : Nat) (r : SeqRewrite) (largest reference newest output skipped : Nat) :
    Prop where
  reinit : r.reinit = false
  reinitOffset : r.reinitOffset = none
  base : r.base < max
  maxOutput : r.maxOutput = largest
  largestLt : largest < max
  maxInput : r.maxInput = reference
  referenceLt : reference < max
  newestLt : newest < max
  /-- The base leads from the reference to its result, with the dropped numbers taken off. -/
  numbers : reference + r.base + skipped ≡ output + r.dropped.size [MOD max]
  below : ∀ number ∈ r.dropped.items, number ≤ r.seqDelta + newest
  count : r.dropped.size ≤ droppedMax

/-- The rewriter waits for a new source. -/
structure Waits (max : Nat) (r : SeqRewrite) (largest pending : Nat) : Prop where
  reinit : r.reinit = true
  reinitOffset : r.reinitOffset.getD 0 = pending
  maxOutput : r.maxOutput = largest
  largestLt : largest < max

variable {r : SeqRewrite} {largest reference newest output skipped pending input : Nat}

theorem follows_iff : follows max reference newest input = true ↔
    input < max ∧ ahead max newest reference < ahead max input reference ∧
      ahead max input reference < max / 2 := by
  simp only [follows, Bool.and_eq_true, decide_eq_true_eq, and_assoc]

/-- The extended number of the next number is above all that were dropped. -/
theorem Tracks.above (h : Tracks max r largest reference newest output skipped)
    (hnext : follows max reference newest input = true) :
    ∀ number ∈ r.dropped.items, number < r.rounds max input + input := by
  intro number hmem
  have hbelow := h.below number hmem
  have hnewest := h.newestLt
  have hreference := h.referenceLt
  obtain ⟨hinput, hfar, hnear⟩ := follows_iff.mp hnext
  rw [rounds, h.maxInput]
  unfold ahead at hfar hnear
  -- either the source goes on in its round, or the wrap-around adds one
  by_cases hround : reference ≤ input
  · rw [if_neg (by omega)]
    rw [if_pos hround] at hfar hnear
    split at hfar
    · omega
    · omega
  · rw [if_neg hround] at hnear
    rw [if_pos ⟨by omega, by omega⟩]
    omega

theorem Tracks.rank_eq (h : Tracks max r largest reference newest output skipped)
    (hnext : follows max reference newest input = true) :
    r.dropped.rank (r.rounds max input + input) = r.dropped.size :=
  SortedSet.rank_of_lt (h.above hnext)

theorem Tracks.isSeqHigherThan (h : Tracks max r largest reference newest output skipped)
    (hnext : follows max reference newest input = true) :
    isSeqHigherThan max input r.maxInput = true := by
  have hreference := h.referenceLt
  obtain ⟨hinput, hfar, hnear⟩ := follows_iff.mp hnext
  have hpos : 0 < ahead max input reference := Nat.zero_lt_of_lt hfar
  rw [h.maxInput]
  simp only [SeqRewrite.isSeqHigherThan, Bool.or_eq_true, Bool.and_eq_true, decide_eq_true_eq]
  unfold ahead at hpos hnear
  split at hnear
  · rename_i hround
    rw [if_pos hround] at hpos
    exact .inl ⟨by omega, by omega⟩
  · exact .inr ⟨by omega, by omega⟩

/-- **A number that is taken goes on from the last one, without those that were left out.** -/
theorem Tracks.generate (hmax : 1001 < max)
    (h : Tracks max r largest reference newest output skipped)
    (hnext : follows max reference newest input = true) :
    ∃ result r', r.generate max input = .ok (some result, r') ∧
      result + skipped ≡ output + ahead max input reference [MOD max] ∧
      Tracks max r' (later max largest result) input input result 0 := by
  obtain ⟨hinput, hfar, hnear⟩ := follows_iff.mp hnext
  have habove := h.above hnext
  have hcount := h.count
  have hsize : r.dropped.size < max := by
    rw [droppedMax] at hcount
    omega
  have hfresh : r.rounds max input + input ∉ r.dropped := fun hmem =>
    Nat.lt_irrefl _ (habove _ hmem)
  obtain ⟨result, hresult, hsum, hgenerate⟩ := generate_eq_ok hinput h.reinit h.base
    (h.maxInput ▸ h.referenceLt) (h.maxOutput ▸ h.largestLt) (h.rank_eq hnext ▸ hsize) hfresh
  rw [h.rank_eq hnext] at hsum
  refine ⟨result, _, hgenerate, ?_, ?_⟩
  · apply Nat.ModEq.add_right_cancel' r.dropped.size
    calc result + skipped + r.dropped.size
        = result + r.dropped.size + skipped := by omega
      _ ≡ input + r.base + skipped [MOD max] := Nat.ModEq.add_right _ hsum
      _ ≡ reference + ahead max input reference + r.base + skipped [MOD max] :=
          Nat.ModEq.add_right _ (Nat.ModEq.add_right _ (add_ahead h.referenceLt).symm)
      _ = reference + r.base + skipped + ahead max input reference := by omega
      _ ≡ output + r.dropped.size + ahead max input reference [MOD max] :=
          Nat.ModEq.add_right _ h.numbers
      _ = output + ahead max input reference + r.dropped.size := by omega
  · refine ⟨h.reinit, h.reinitOffset, h.base, ?_, later_lt h.largestLt hresult, ?_, hinput,
      hinput, ?_, ?_, h.count⟩
    · rw [← h.maxOutput]
    · simp only [later, h.maxInput, if_pos hnear]
    · exact hsum.symm
    · intro number hmem
      exact Nat.le_of_lt (habove number hmem)

/-- **A number that is left out changes no result.** -/
theorem Tracks.dropValue (hmax : 1001 < max)
    (h : Tracks max r largest reference newest output skipped)
    (hnext : follows max reference newest input = true) :
    ∃ r', r.dropValue max input = .ok r' ∧
      Tracks max r' largest reference input output (skipped + 1) := by
  obtain ⟨hinput, -, -⟩ := follows_iff.mp hnext
  have habove := h.above hnext
  have hcount := h.count
  have hitems : (r.dropped.insert (r.rounds max input + input)).items =
      r.dropped.items ++ [r.rounds max input + input] := SortedSet.items_insert_of_lt habove
  have hsize : (r.dropped.insert (r.rounds max input + input)).size = r.dropped.size + 1 := by
    rw [SortedSet.size, hitems, List.length_append]
    rfl
  have hcut : (r.dropped.insert (r.rounds max input + input)).size - droppedMax < max := by
    rw [hsize]
    rw [droppedMax] at hcount ⊢
    omega
  have hbelow : ∀ number ∈ (r.dropped.insert (r.rounds max input + input)).items,
      number ≤ r.rounds max input + input := by
    intro number hmem
    rw [hitems, List.mem_append, List.mem_singleton] at hmem
    rcases hmem with hold | rfl
    · exact Nat.le_of_lt (habove number hold)
    · exact Nat.le_refl _
  have hnumbers : reference + r.base + (skipped + 1) ≡
      output + (r.dropped.size + 1) [MOD max] := Nat.ModEq.add_right 1 h.numbers
  refine ⟨_, dropValue_eq_ok hinput h.reinit h.base (h.isSeqHigherThan hnext) hcut, ?_⟩
  unfold afterDrop
  by_cases hfull : (r.dropped.insert (r.rounds max input + input)).size > droppedMax
  · -- the smallest number moves into the base
    have hone : (r.dropped.insert (r.rounds max input + input)).size - droppedMax = 1 := by
      rw [hsize] at hfull ⊢
      omega
    rw [if_pos hfull, hone]
    refine ⟨h.reinit, h.reinitOffset, ahead_lt h.base (by omega), h.maxOutput, h.largestLt,
      h.maxInput, h.referenceLt, hinput, ?_, ?_, ?_⟩
    · have hleft : ((r.dropped.insert (r.rounds max input + input)).dropFirst 1).size + 1 =
          r.dropped.size + 1 := by
        rw [SortedSet.size, SortedSet.dropFirst, List.length_drop, hitems, List.length_append]
        rfl
      apply Nat.ModEq.add_right_cancel' 1
      calc reference + ahead max r.base 1 + (skipped + 1) + 1
          = 1 + ahead max r.base 1 + (reference + (skipped + 1)) := by omega
        _ ≡ r.base + (reference + (skipped + 1)) [MOD max] :=
            Nat.ModEq.add_right _ (add_ahead (by omega))
        _ = reference + r.base + (skipped + 1) := by omega
        _ ≡ output + (r.dropped.size + 1) [MOD max] := hnumbers
        _ = output + ((r.dropped.insert (r.rounds max input + input)).dropFirst 1).size + 1 := by
            rw [← hleft, Nat.add_assoc]
    · intro number hmem
      exact hbelow number (List.mem_of_mem_drop hmem)
    · change ((r.dropped.insert (r.rounds max input + input)).items.drop 1).length ≤ droppedMax
      rw [List.length_drop]
      have hlength : (r.dropped.insert (r.rounds max input + input)).items.length =
          r.dropped.size + 1 := hsize
      omega
  · rw [if_neg hfull]
    refine ⟨h.reinit, h.reinitOffset, h.base, h.maxOutput, h.largestLt, h.maxInput, h.referenceLt,
      hinput, ?_, hbelow, ?_⟩
    · change _ ≡ output + (r.dropped.insert (r.rounds max input + input)).size [MOD max]
      rw [hsize]
      exact hnumbers
    · exact Nat.le_of_not_lt hfull

/-- The first number of a source is one ahead of the number before it. -/
theorem ahead_before (hmax : 2 < max) (hinput : input < max) :
    ahead max input (ahead max input 1) = 1 := by
  have hone : 1 < max := by omega
  refine ahead_unique hinput (ahead_lt hinput hone) hone ?_
  rw [Nat.add_comm]
  exact add_ahead hone

/-- The rewriter in step with a new source. -/
theorem Waits.synced (h : Waits max r largest pending) (hmax : 1001 < max) (hinput : input < max) :
    Tracks max (r.synced max (ahead max input 1)) largest (ahead max input 1) (ahead max input 1)
      (largest + pending) 0 ∧
    follows max (ahead max input 1) (ahead max input 1) input = true := by
  have hone : 1 < max := by omega
  have hbefore : ahead max input 1 < max := ahead_lt hinput hone
  have hbase : (r.synced max (ahead max input 1)).base =
      (ahead max largest (ahead max input 1) + pending) % max := by
    rw [← h.maxOutput, ← h.reinitOffset]
    rfl
  refine ⟨⟨rfl, rfl, Nat.mod_lt _ (by omega), h.maxOutput, h.largestLt, rfl, hbefore, hbefore, ?_,
    ?_, Nat.zero_le _⟩, ?_⟩
  · rw [hbase]
    calc ahead max input 1 + (ahead max largest (ahead max input 1) + pending) % max + 0
        ≡ ahead max input 1 + (ahead max largest (ahead max input 1) + pending) [MOD max] :=
          Nat.ModEq.add_left _ (Nat.mod_modEq _ _)
      _ = ahead max input 1 + ahead max largest (ahead max input 1) + pending := by omega
      _ ≡ largest + pending [MOD max] := Nat.ModEq.add_right _ (add_ahead hbefore)
  · intro number hmem
    cases hmem
  · rw [follows_iff, ahead_before (by omega) hinput, ahead_self]
    exact ⟨hinput, by omega, by omega⟩

/-! ### Whole runs -/

/-- The rewriter has got where the calls say, with the results that are noted. -/
def Mirrors (max : Nat) (r : SeqRewrite) : Place → Note → Prop
  | .fresh, ⟨largest, .fresh⟩ =>
    r.reinitOffset = none ∧ r.maxOutput = largest ∧ largest < max
  | .waiting, ⟨largest, .waiting pending⟩ => Waits max r largest pending
  | .running reference newest, ⟨largest, .running last output skipped⟩ =>
    last = reference ∧ Tracks max r largest reference newest output skipped
  | _, _ => False

variable {place place' : Place} {note : Note}

theorem Mirrors.reinit (h : Mirrors max r place note) :
    Mirrors max r.callReinit .waiting (note.next max (.reinit, none)) := by
  obtain ⟨largest, standing⟩ := note
  match place, standing, h with
  | .fresh, .fresh, ⟨hoffset, hlargest, hlt⟩ =>
    refine ⟨rfl, ?_, hlargest, hlt⟩
    rw [callReinit, hoffset]
    rfl
  | .waiting, .waiting pending, hwaits =>
    exact ⟨rfl, hwaits.reinitOffset, hwaits.maxOutput, hwaits.largestLt⟩
  | .running reference newest, .running last output skipped, ⟨_, htracks⟩ =>
    refine ⟨rfl, ?_, htracks.maxOutput, htracks.largestLt⟩
    rw [callReinit, htracks.reinitOffset]
    rfl

theorem Waits.offset (h : Waits max r largest pending) (amount : Nat) :
    Waits max (r.offset max amount) largest (pending + amount) := by
  rw [SeqRewrite.offset, if_pos h.reinit]
  refine ⟨h.reinit, ?_, h.maxOutput, h.largestLt⟩
  rw [← h.reinitOffset]
  rfl

/-- **One call** is made without a panic, and its result is the one that the note calls for. -/
theorem Mirrors.call (hmax : 1001 < max) (h : Mirrors max r place note) {c : Call}
    (hplace : place.next max c = some place') :
    ∃ result r', r.call max c = .ok (result, r') ∧ note.Allows max (c, result) ∧
      Mirrors max r' place' (note.next max (c, result)) := by
  cases c with
  | reinit =>
    have heq : place' = .waiting := by
      cases place <;> exact (Option.some.inj hplace).symm
    rw [heq]
    exact ⟨none, _, rfl, rfl, h.reinit⟩
  | offset amount =>
    obtain ⟨largest, standing⟩ := note
    match place, standing, h with
    | .waiting, .waiting pending, hwaits =>
      cases hplace
      exact ⟨none, _, rfl, rfl, hwaits.offset amount⟩
  | dropValue input =>
    obtain ⟨largest, standing⟩ := note
    match place, standing, h with
    | .waiting, .waiting pending, hwaits =>
      simp only [Place.next, Option.ite_none_right_eq_some, Option.some.injEq] at hplace
      obtain ⟨hinput, rfl⟩ := hplace
      have hstate : Waits max r largest pending := hwaits
      obtain ⟨hsynced, hnext⟩ := hstate.synced hmax hinput
      obtain ⟨r', hdrop, htracks⟩ := hsynced.dropValue hmax hnext
      refine ⟨none, r', ?_, ⟨rfl, hinput⟩, rfl, htracks⟩
      rw [SeqRewrite.call, dropValue_of_reinit hstate.reinit (hstate.maxOutput ▸ hstate.largestLt)
        (by omega) hinput, hdrop]
      rfl
    | .running reference newest, .running last output skipped, ⟨hlast, htracks⟩ =>
      simp only [Place.next, Option.ite_none_right_eq_some, Option.some.injEq] at hplace
      obtain ⟨hnext, rfl⟩ := hplace
      obtain ⟨r', hdrop, htracks'⟩ := htracks.dropValue hmax hnext
      refine ⟨none, r', ?_, ⟨rfl, (follows_iff.mp hnext).1⟩, hlast, htracks'⟩
      rw [SeqRewrite.call, hdrop]
      rfl
  | generate input =>
    obtain ⟨largest, standing⟩ := note
    match place, standing, h with
    | .waiting, .waiting pending, hwaits =>
      simp only [Place.next, Option.ite_none_right_eq_some, Option.some.injEq] at hplace
      obtain ⟨hinput, rfl⟩ := hplace
      have hstate : Waits max r largest pending := hwaits
      obtain ⟨hsynced, hnext⟩ := hstate.synced hmax hinput
      obtain ⟨result, r', hgenerate, hresult, htracks⟩ := hsynced.generate hmax hnext
      rw [ahead_before (by omega) hinput] at hresult
      refine ⟨some result, r', ?_, ⟨result, rfl, hresult⟩, rfl, htracks⟩
      rw [SeqRewrite.call, generate_of_reinit hstate.reinit (hstate.maxOutput ▸ hstate.largestLt)
        (by omega) hinput, hgenerate]
    | .running reference newest, .running last output skipped, ⟨hlast, htracks⟩ =>
      simp only [Place.next, Option.ite_none_right_eq_some, Option.some.injEq] at hplace
      obtain ⟨hnext, rfl⟩ := hplace
      obtain ⟨result, r', hgenerate, hresult, htracks'⟩ := htracks.generate hmax hnext
      rw [← hlast] at hresult
      exact ⟨some result, r', hgenerate, ⟨result, rfl, hresult⟩, rfl, htracks'⟩

theorem Mirrors.run (hmax : 1001 < max) {calls : List Call} (h : Mirrors max r place note)
    (horder : (calls.foldlM (Place.next max) place).isSome) :
    ∃ trace r', r.run max calls = .ok (trace, r') ∧ trace.map Prod.fst = calls ∧
      Fits max note trace := by
  induction calls generalizing r place note with
  | nil => exact ⟨[], r, rfl, rfl, trivial⟩
  | cons c calls ih =>
    rw [List.foldlM_cons] at horder
    cases hplace : place.next max c with
    | none =>
      rw [hplace] at horder
      cases horder
    | some place' =>
      rw [hplace] at horder
      obtain ⟨result, r₁, hcall, hallows, hmirrors⟩ := h.call hmax hplace
      obtain ⟨trace, r', hrun, hcalls, hfits⟩ := ih hmirrors horder
      refine ⟨(c, result) :: trace, r', ?_, ?_, hallows, hfits⟩
      · simp only [SeqRewrite.run, hcall, hrun, bind, Except.bind, pure, Except.pure]
      · rw [List.map_cons, hcalls]

/-! ### The law -/

def Call.isDrop : Call → Bool
  | .dropValue _ => true
  | _ => false

def Call.isPending : Call → Bool
  | .reinit => true
  | .offset _ => true
  | _ => false

/-- The largest result of a run, where larger is less than half a round ahead. -/
def largestOf (max : Nat) (trace : Trace) : Nat :=
  trace.foldl (fun largest event =>
    match event with
    | (.generate _, some output) => later max largest output
    | _ => largest) 0

/-- The offsets given before a source begins. -/
def offsets (trace : Trace) : Nat :=
  (trace.map fun event =>
    match event.1 with
    | .offset amount => amount
    | _ => 0).sum

/-- The first number of a source that begins with these numbers left out. -/
def firstInput (skipped : Trace) (input : Nat) : Nat :=
  match skipped with
  | (.dropValue first, _) :: _ => first
  | _ => input

/-- What the results of a run in order are. -/
structure Lawful (max : Nat) (trace : Trace) : Prop where
  returns : ∀ input result, (.generate input, result) ∈ trace → result.isSome
  /-- The first result of a source is the largest one before it and one more, moved by the offsets
      and by the way from the first number of the source, without the numbers left out. -/
  first : ∀ before pending skipped after input output,
    trace = before ++ (.reinit, none) :: (pending ++ (skipped ++ (.generate input, some output) ::
      after)) →
    (∀ event, before.getLast? = some event → event.1.isPending = false) →
    (∀ event ∈ pending, event.1.isPending = true) →
    (∀ event ∈ skipped, event.1.isDrop = true) →
    output + skipped.length ≡ largestOf max before + 1 + offsets pending +
      ahead max input (firstInput skipped input) [MOD max]
  /-- Within a source the results go on as the numbers do, without those left out. -/
  consecutive : ∀ before skipped after input output input' output',
    trace = before ++ (.generate input, some output) ::
      (skipped ++ (.generate input', some output') :: after) →
    (∀ event ∈ skipped, event.1.isDrop = true) →
    output' + skipped.length ≡ output + ahead max input' input [MOD max]

/-- The largest result is noted. -/
theorem foldl_next_largest (trace : Trace) (note : Note) :
    (trace.foldl (Note.next max) note).largest =
      trace.foldl (fun largest event =>
        match event with
        | (.generate _, some output) => later max largest output
        | _ => largest) note.largest := by
  induction trace generalizing note with
  | nil => rfl
  | cons event trace ih =>
    obtain ⟨c, result⟩ := event
    rw [List.foldl_cons, List.foldl_cons, ih]
    congr 1
    obtain ⟨largest, standing⟩ := note
    cases c with
    | reinit => cases standing <;> rfl
    | offset amount => cases standing <;> rfl
    | dropValue input => cases standing <;> rfl
    | generate input => cases result <;> rfl

/-- Offsets add up until the source begins. -/
theorem foldl_next_pending {pending : Trace} (h : ∀ event ∈ pending, event.1.isPending = true)
    (largest amount : Nat) :
    pending.foldl (Note.next max) ⟨largest, .waiting amount⟩ =
      ⟨largest, .waiting (amount + offsets pending)⟩ := by
  induction pending generalizing amount with
  | nil => rfl
  | cons event pending ih =>
    obtain ⟨c, result⟩ := event
    have hrest := ih fun event hmem => h event (List.mem_cons_of_mem _ hmem)
    cases c with
    | reinit =>
      rw [List.foldl_cons, Note.next, hrest]
      simp [offsets]
    | offset more =>
      rw [List.foldl_cons, Note.next, hrest]
      simp [offsets, Nat.add_assoc]
    | dropValue input => cases h _ (List.mem_cons_self ..)
    | generate input => cases h _ (List.mem_cons_self ..)

/-- The numbers that are left out are counted. -/
theorem foldl_next_skipped {skipped : Trace} (h : ∀ event ∈ skipped, event.1.isDrop = true)
    (largest input output count : Nat) :
    skipped.foldl (Note.next max) ⟨largest, .running input output count⟩ =
      ⟨largest, .running input output (count + skipped.length)⟩ := by
  induction skipped generalizing count with
  | nil => rfl
  | cons event skipped ih =>
    obtain ⟨c, result⟩ := event
    have hrest := ih fun event hmem => h event (List.mem_cons_of_mem _ hmem)
    cases c with
    | reinit => cases h _ (List.mem_cons_self ..)
    | offset more => cases h _ (List.mem_cons_self ..)
    | dropValue number =>
      rw [List.foldl_cons, Note.next, hrest, List.length_cons, Nat.add_right_comm, Nat.add_assoc]
    | generate number => cases h _ (List.mem_cons_self ..)

theorem Fits.append {before after : Trace} :
    Fits max note (before ++ after) ↔
      Fits max note before ∧ Fits max (before.foldl (Note.next max) note) after := by
  induction before generalizing note with
  | nil => exact ⟨fun h => ⟨trivial, h⟩, fun h => h.2⟩
  | cons event before ih =>
    rw [List.cons_append, Fits, Fits, ih, and_assoc]
    rfl

theorem Fits.returns {trace : Trace} (h : Fits max note trace) {input : Nat} {result : Option Nat}
    (hmem : (.generate input, result) ∈ trace) : result.isSome := by
  obtain ⟨before, after, rfl⟩ := List.append_of_mem hmem
  have hallows := (Iff.mp Fits.append h).2.1
  simp only [Note.Allows] at hallows
  split at hallows
  · cases hallows
  · obtain ⟨output, rfl, -⟩ := hallows
    rfl
  · obtain ⟨output, rfl, -⟩ := hallows
    rfl

/-- Behind a number, no source is waited for. -/
theorem Fits.not_waiting {before : Trace} (h : Fits max ⟨0, .fresh⟩ before)
    (hlast : ∀ event, before.getLast? = some event → event.1.isPending = false) (pending : Nat) :
    (before.foldl (Note.next max) ⟨0, .fresh⟩).standing ≠ .waiting pending := by
  rcases List.eq_nil_or_concat before with rfl | ⟨front, event, rfl⟩
  · intro heq
    cases heq
  · obtain ⟨c, result⟩ := event
    have hevent := hlast (c, result) (by simp)
    rw [List.concat_eq_append] at h ⊢
    rw [List.foldl_append, List.foldl_cons, List.foldl_nil]
    cases c with
    | reinit => cases hevent
    | offset amount => cases hevent
    | dropValue input =>
      simp only [Note.next]
      split
      · rename_i heq
        rw [heq]
        intro hcontra
        cases hcontra
      · intro hcontra
        cases hcontra
      · intro hcontra
        cases hcontra
    | generate input =>
      have hsome := h.returns (List.mem_append_right _ (List.mem_singleton_self _))
      obtain ⟨output, rfl⟩ := Option.isSome_iff_exists.mp hsome
      intro hcontra
      cases hcontra

/-- Counting from the first number of a source or from the one before it. -/
theorem ahead_before_modEq {first : Nat} (hmax : 1 < max) (hfirst : first < max) :
    ahead max input (ahead max first 1) ≡ 1 + ahead max input first [MOD max] := by
  apply Nat.ModEq.add_left_cancel' (ahead max first 1)
  calc ahead max first 1 + ahead max input (ahead max first 1)
      ≡ input [MOD max] := add_ahead (ahead_lt hfirst hmax)
    _ ≡ first + ahead max input first [MOD max] := (add_ahead hfirst).symm
    _ ≡ 1 + ahead max first 1 + ahead max input first [MOD max] :=
        Nat.ModEq.add_right _ (add_ahead hmax).symm
    _ = ahead max first 1 + (1 + ahead max input first) := by omega

theorem Fits.lawful (hmax : 1 < max) {trace : Trace} (h : Fits max .new trace) :
    Lawful max trace := by
  refine ⟨fun input result hmem => h.returns hmem, ?_, ?_⟩
  · intro before pending skipped after input output htrace hlast hpending hskipped
    subst htrace
    obtain ⟨hbefore, hafter⟩ := Iff.mp Fits.append h
    have hlargest : (before.foldl (Note.next max) .new).largest = largestOf max before :=
      foldl_next_largest before Note.new
    -- the source begins with what is pending behind the first `reinit`
    have hreinit : (before.foldl (Note.next max) .new).next max (.reinit, none) =
        ⟨largestOf max before, .waiting 0⟩ := by
      rw [← hlargest]
      simp only [Note.next]
      split
      · rename_i amount heq
        exact absurd heq (hbefore.not_waiting hlast amount)
      · rfl
    have hsource := hafter.2
    rw [hreinit] at hsource
    have hstart := (Iff.mp Fits.append hsource).2
    rw [foldl_next_pending hpending, Nat.zero_add] at hstart
    have hresult := (Iff.mp Fits.append hstart).2.1
    match skipped with
    | [] =>
      obtain ⟨result, heq, hmod⟩ := hresult
      cases heq
      have hself : ahead max input (firstInput [] input) = 0 := ahead_self max input
      rw [hself]
      calc output + 0
          ≡ largestOf max before + offsets pending + 1 [MOD max] := hmod
        _ = largestOf max before + 1 + offsets pending + 0 := by omega
    | (.dropValue first, result) :: skipped =>
      have hfirst : first < max := hstart.1.2
      have hrest : ∀ event ∈ skipped, event.1.isDrop = true := fun event hmem =>
        hskipped event (List.mem_cons_of_mem _ hmem)
      rw [List.foldl_cons, Note.next, foldl_next_skipped hrest] at hresult
      obtain ⟨result', heq, hmod⟩ := hresult
      cases heq
      rw [List.length_cons, Nat.add_comm skipped.length]
      calc output + (1 + skipped.length)
          ≡ largestOf max before + offsets pending + ahead max input (ahead max first 1)
            [MOD max] := hmod
        _ ≡ largestOf max before + offsets pending + (1 + ahead max input first) [MOD max] :=
            Nat.ModEq.add_left _ (ahead_before_modEq hmax hfirst)
        _ = largestOf max before + 1 + offsets pending + ahead max input first := by omega
        _ = largestOf max before + 1 + offsets pending +
            ahead max input (firstInput ((.dropValue first, result) :: skipped) input) := rfl
    | (.reinit, _) :: _ => cases hskipped _ (List.mem_cons_self ..)
    | (.offset _, _) :: _ => cases hskipped _ (List.mem_cons_self ..)
    | (.generate _, _) :: _ => cases hskipped _ (List.mem_cons_self ..)
  · intro before skipped after input output input' output' htrace hskipped
    subst htrace
    have hafter := (Iff.mp Fits.append h).2.2
    have hresult := (Iff.mp Fits.append hafter).2.1
    rw [Note.next, foldl_next_skipped hskipped, Nat.zero_add] at hresult
    obtain ⟨result, heq, hmod⟩ := hresult
    cases heq
    exact hmod

end MediaServer.SeqRewrite
