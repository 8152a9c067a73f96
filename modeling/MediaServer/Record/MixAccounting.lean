import MediaServer.Record.Mixing

/-!
# The books of a mixer

Which pushes a frame consists of, and that it hands out their saturated sum.  A session that goes
through keeps these books whatever it is pushed.  It goes through, and hands out its frames in the
order of their times, exactly when every push finds the queue in order.
-/

namespace MediaServer.Record

variable {TID : Type}

/-- Saturated to the range of an `i16`. -/
def saturate (v : Int) : Int := max (-32768) (min 32767 v)

theorem capI16Cast_eq (v : Int32) : (capI16Cast v).toInt = saturate v.toInt := by
  have hmax : Int16.maxValue.toInt32.toInt = 32767 := by decide
  have hmin : Int16.minValue.toInt32.toInt = -32768 := by decide
  unfold capI16Cast saturate
  split
  · rename_i hhigh
    rw [gt_iff_lt, Int32.lt_iff_toInt_lt, hmax] at hhigh
    rw [show Int16.maxValue.toInt = 32767 from rfl]
    omega
  · rename_i hhigh
    rw [gt_iff_lt, Int32.lt_iff_toInt_lt, hmax] at hhigh
    split
    · rename_i hlow
      rw [Int32.lt_iff_toInt_lt, hmin] at hlow
      rw [show Int16.minValue.toInt = -32768 from rfl]
      omega
    · rename_i hlow
      rw [Int32.lt_iff_toInt_lt, hmin] at hlow
      rw [Int32.toInt_toInt16, Int.bmod_eq_of_le (by omega) (by omega)]
      omega

/-! ### Contributions -/

/-- The pushes with the ticket of a frame. -/
def contributions (pushes : List (Push TID)) (tickets : List (Option Nat)) (k : Nat) :
    List (Push TID) :=
  (pushes.zip tickets).filterMap fun entry => if entry.2 = some k then some entry.1 else none

theorem contributions_concat {pushes : List (Push TID)} {tickets : List (Option Nat)}
    (h : tickets.length = pushes.length) (p : Push TID) (ticket : Option Nat) (k : Nat) :
    contributions (pushes ++ [p]) (tickets ++ [ticket]) k =
      contributions pushes tickets k ++ (if ticket = some k then [p] else []) := by
  unfold contributions
  rw [List.zip_append h.symm, List.filterMap_append]
  congr 1
  by_cases hticket : ticket = some k
  · simp [hticket]
  · simp [hticket]

theorem contributions_eq_nil {pushes : List (Push TID)} {tickets : List (Option Nat)} {k : Nat}
    (h : some k ∉ tickets) : contributions pushes tickets k = [] := by
  refine List.filterMap_eq_nil_iff.mpr fun entry hmem => if_neg fun hticket => h ?_
  rw [← hticket]
  exact (List.of_mem_zip hmem).2

/-- The frame consists of these pushes. -/
structure MixedFrame.Holds (frame : MixedFrame TID) (pushes : List (Push TID)) : Prop where
  tracks : frame.tracks = pushes.map (·.track)
  nodup : (pushes.map (·.track)).Nodup
  near : ∀ p ∈ pushes, Near frame.ts p.ts
  sums : ∀ i < frameSamples,
    frame.buffer[i]?.map Int32.toInt = some (pushes.map fun p => sampleAt p.data i).sum

theorem MixedFrame.holds_new (ts : UInt64) : (MixedFrame.new ts : MixedFrame TID).Holds [] where
  tracks := rfl
  nodup := .nil
  near _ hmem := nomatch hmem
  sums i hi := by
    rw [new, List.getElem?_replicate, if_pos hi]
    rfl

theorem MixedFrame.Holds.adds {frame frame' : MixedFrame TID} {pushes : List (Push TID)}
    {p : Push TID} (h : frame.Holds pushes) (hadds : frame.Adds p frame') :
    frame'.Holds (pushes ++ [p]) where
  tracks := by rw [hadds.tracks, h.tracks, List.map_append, List.map_singleton]
  nodup := by
    have hfresh := hadds.takes.1
    rw [h.tracks] at hfresh
    rw [List.map_append, List.map_singleton, List.nodup_append]
    refine ⟨h.nodup, by simp, ?_⟩
    rintro track hmem _ hlast rfl
    rw [List.mem_singleton] at hlast
    exact hfresh (hlast ▸ hmem)
  near := by
    intro q hmem
    rw [hadds.ts]
    rcases List.mem_append.mp hmem with hold | hnew
    · exact h.near q hold
    · rw [List.mem_singleton.mp hnew]
      exact hadds.takes.2
  sums := by
    intro i hi
    have hsum := h.sums i hi
    rw [hadds.sums i]
    obtain ⟨sum, hget, hsum⟩ := Option.map_eq_some_iff.mp hsum
    rw [hget, Option.map_some, hsum, List.map_append, List.sum_append, List.map_singleton,
      List.sum_singleton]

/-! ### The books -/

namespace MixSession

/-- All frames of a session, in the order in which they were opened. -/
structure Books (pushes : List (Push TID)) (s : MixSession TID) (old : List (MixedFrame TID)) : Prop
    where
  returned : s.returned = old.map MixedFrame.output
  length : s.tickets.length = pushes.length
  placed : ∀ k, some k ∈ s.tickets → k < (old ++ s.buffer.frames).length
  holds : ∀ (k : Nat) (frame : MixedFrame TID), (old ++ s.buffer.frames)[k]? = some frame →
    frame.Holds (contributions pushes s.tickets k)

theorem books_start : Books [] (start : MixSession TID) [] where
  returned := rfl
  length := rfl
  placed _ hmem := nomatch hmem
  holds _ _ hget := nomatch hget

/-- The queue after a push, and what was handed out before it. -/
theorem Books.of_frames {pushes : List (Push TID)} {s : MixSession TID} {old : List (MixedFrame TID)}
    {p : Push TID} {ticket : Option Nat} {all : List (MixedFrame TID)} (h : Books pushes s old)
    (hplaced : ∀ k, ticket = some k → k < all.length)
    (hgrows : (old ++ s.buffer.frames).length ≤ all.length)
    (hholds : ∀ (k : Nat) (frame : MixedFrame TID), all[k]? = some frame →
      frame.Holds (contributions pushes s.tickets k ++ (if ticket = some k then [p] else [])))
    {buffer : MixerBuffer TID} {returned : List (UInt64 × List Int16)}
    {old' : List (MixedFrame TID)} (hreturned : returned = old'.map MixedFrame.output)
    (hall : old' ++ buffer.frames = all) :
    Books (pushes ++ [p]) ⟨buffer, returned, s.tickets ++ [ticket]⟩ old' where
  returned := hreturned
  length := by rw [List.length_append, List.length_append, h.length]; rfl
  placed := by
    intro k hmem
    rw [hall]
    rcases List.mem_append.mp hmem with hold | hnew
    · exact Nat.lt_of_lt_of_le (h.placed k hold) hgrows
    · exact hplaced k (List.mem_singleton.mp hnew).symm
  holds := by
    intro k frame hget
    rw [hall] at hget
    rw [contributions_concat h.length]
    exact hholds k frame hget

variable [DecidableEq TID]

theorem ticket_eq {s : MixSession TID} {p : Push TID} {pushed : Option (Nat × MixerBuffer TID)}
    (h : s.buffer.pushDataToFrame p.ts p.track p.data = .ok pushed) :
    s.ticket p = pushed.map fun placed => s.returned.length + placed.1 := by
  rw [ticket, h]
  cases pushed with
  | none => rfl
  | some placed => rfl

/-- What a push that was placed does to the frames. -/
theorem Books.moves {pushes : List (Push TID)} {s : MixSession TID} {old : List (MixedFrame TID)}
    {p : Push TID} {i : Nat} {b : MixerBuffer TID} (h : Books pushes s old)
    (hmoves : s.buffer.Moves p (some (i, b))) :
    s.returned.length + i < (old ++ b.frames).length ∧
      (old ++ s.buffer.frames).length ≤ (old ++ b.frames).length ∧
      ∀ (k : Nat) (frame : MixedFrame TID), (old ++ b.frames)[k]? = some frame → frame.Holds
        (contributions pushes s.tickets k ++
          (if some (s.returned.length + i) = some k then [p] else [])) := by
  have hlength : s.returned.length = old.length := by rw [h.returned, List.length_map]
  rw [hlength]
  cases hmoves with
  | @added _ frame frame' hget hadds hfirst =>
    have hi := (List.getElem?_eq_some_iff.mp hget).1
    have hset : old ++ s.buffer.frames.set i frame' =
        (old ++ s.buffer.frames).set (old.length + i) frame' := by
      rw [List.set_append_right _ _ (Nat.le_add_right ..), Nat.add_sub_cancel_left]
    refine ⟨?_, ?_, ?_⟩
    · rw [List.length_append, List.length_set]
      omega
    · exact Nat.le_of_eq (by rw [hset, List.length_set])
    · intro k found hfound
      rw [hset, List.getElem?_set] at hfound
      split at hfound
      · rename_i heq
        subst heq
        split at hfound
        · rw [← Option.some.inj hfound, if_pos rfl]
          refine MixedFrame.Holds.adds (h.holds _ _ ?_) hadds
          rw [List.getElem?_append_right (Nat.le_add_right ..), Nat.add_sub_cancel_left]
          exact hget
        · exact nomatch hfound
      · rename_i hne
        rw [if_neg (fun heq => hne (Option.some.inj heq)), List.append_nil]
        exact h.holds k found hfound
  | @opened frame' hnone hfront hadds =>
    have hall : old ++ (s.buffer.frames ++ [frame']) = (old ++ s.buffer.frames) ++ [frame'] :=
      (List.append_assoc ..).symm
    have hend : old.length + s.buffer.frames.length = (old ++ s.buffer.frames).length :=
      List.length_append.symm
    rw [hall, hend]
    refine ⟨by simp, by simp, ?_⟩
    intro k found hfound
    rw [List.getElem?_append] at hfound
    split at hfound
    · rename_i hk
      rw [if_neg (fun heq => Nat.ne_of_gt hk (Option.some.inj heq)), List.append_nil]
      exact h.holds k found hfound
    · rename_i hk
      obtain ⟨hless, hfound⟩ := List.getElem?_eq_some_iff.mp hfound
      have hzero : k = (old ++ s.buffer.frames).length := by
        rw [List.length_singleton] at hless
        omega
      subst hzero
      -- no push has the ticket of a frame that is only being opened
      have hfresh : contributions pushes s.tickets (old ++ s.buffer.frames).length = [] :=
        contributions_eq_nil fun hmem => Nat.lt_irrefl _ (h.placed _ hmem)
      rw [hfresh, if_pos rfl, ← hfound]
      simpa using (MixedFrame.holds_new p.ts).adds hadds

/-- **A push is entered into the books.** -/
theorem Books.push {pushes : List (Push TID)} {s s' : MixSession TID} {old : List (MixedFrame TID)}
    {p : Push TID} (h : Books pushes s old) (hpush : s.push p = .ok s') :
    ∃ old', Books (pushes ++ [p]) s' old' := by
  obtain ⟨⟨out, buffer⟩, hbuffer, heq⟩ := Except.bind_eq_ok.mp hpush
  rw [← Except.ok.inj heq]
  rcases MixerBuffer.push_eq_ok hbuffer with ⟨hnone, rfl, rfl⟩ | ⟨i, b₁, hplaced, hcase⟩
  · rw [ticket_eq hnone]
    refine ⟨old, h.of_frames (by simp) (Nat.le_refl _) ?_ ?_ rfl⟩
    · intro k frame hget
      simpa using h.holds k frame hget
    · rw [Option.toList_none, List.append_nil]
      exact h.returned
  · obtain ⟨hless, hgrows, hholds⟩ := h.moves (MixerBuffer.pushDataToFrame_moves hplaced)
    rw [ticket_eq hplaced]
    rcases hcase with ⟨-, rfl, rfl⟩ | ⟨front, rest, -, hframes, rfl, rfl⟩
    · refine ⟨old, h.of_frames (fun k hk => ?_) hgrows hholds ?_ rfl⟩
      · rw [← Option.some.inj hk]
        exact hless
      · rw [Option.toList_none, List.append_nil]
        exact h.returned
    · refine ⟨old ++ [front], h.of_frames (fun k hk => ?_) hgrows hholds ?_ ?_⟩
      · rw [← Option.some.inj hk]
        exact hless
      · rw [Option.toList_some, List.map_append, h.returned]
        rfl
      · rw [hframes, List.append_assoc]
        rfl

/-! ### The order of the frames -/

omit [DecidableEq TID] in
/-- The times of all frames of a session, in the order in which they were opened. -/
def openedAt (s : MixSession TID) : List UInt64 :=
  s.returned.map Prod.fst ++ s.buffer.frames.map (·.ts)

omit [DecidableEq TID] in
theorem forcePops_eq (frames : List (MixedFrame TID)) :
    forcePops frames.length ⟨frames⟩ = frames.map MixedFrame.output := by
  induction frames with
  | nil => rfl
  | cons front rest ih =>
    change front.output :: forcePops rest.length ⟨rest⟩ = _
    rw [ih, List.map_cons]

omit [DecidableEq TID] in
theorem handedOut_eq (s : MixSession TID) :
    s.handedOut = s.returned ++ s.buffer.frames.map MixedFrame.output := by
  rw [handedOut, forcePops_eq]

omit [DecidableEq TID] in
theorem handedOut_times (s : MixSession TID) : s.handedOut.map Prod.fst = s.openedAt := by
  rw [handedOut_eq, openedAt, List.map_append, List.map_map]
  rfl

/-- A new frame is opened for the push. -/
def Opens (b : MixerBuffer TID) (p : Push TID) : Prop :=
  p.data.length ≤ frameSamples ∧ b.taker p = none ∧ b.frontTs p.ts ≤ p.ts

/-- What a session keeps whatever it is pushed. -/
structure Tidy (s : MixSession TID) : Prop where
  roomy : s.buffer.Roomy
  bounded : s.buffer.frames.length ≤ frameQueueLimit
  first : s.buffer.frames = [] → s.returned = []

omit [DecidableEq TID] in
theorem tidy_start : Tidy (start : MixSession TID) where
  roomy _ hmem := nomatch hmem
  bounded := Nat.zero_le _
  first _ := rfl

/-- The frames of a queue after a push, up to what is handed out. -/
theorem Tidy.moves {s : MixSession TID} (h : s.Tidy) {p : Push TID} {i : Nat} {b : MixerBuffer TID}
    (hmoves : s.buffer.Moves p (some (i, b))) :
    b.Roomy ∧ b.frames.length ≤ frameQueueLimit + 1 ∧ b.frames ≠ [] ∧
      ((¬ Opens s.buffer p ∧ b.frames.map (·.ts) = s.buffer.frames.map (·.ts)) ∨
        (Opens s.buffer p ∧ b.frames.map (·.ts) = s.buffer.frames.map (·.ts) ++ [p.ts])) := by
  cases hmoves with
  | @added _ frame frame' hget hadds hfirst =>
    obtain ⟨hi, hframe⟩ := List.getElem?_eq_some_iff.mp hget
    have hmem : frame ∈ s.buffer.frames := hframe ▸ List.getElem_mem hi
    have hts : (s.buffer.frames.set i frame').map (·.ts) = s.buffer.frames.map (·.ts) := by
      rw [List.map_set, hadds.ts]
      refine List.ext_getElem? fun j => ?_
      rw [List.getElem?_set]
      split
      · rename_i heq
        subst heq
        rw [List.length_map, if_pos hi, List.getElem?_map, hget]
        rfl
      · rfl
    refine ⟨?_, ?_, ?_, Or.inl ⟨?_, hts⟩⟩
    · intro g hg
      rcases List.mem_or_eq_of_mem_set hg with hold | rfl
      · exact h.roomy g hold
      · rw [hadds.ts]
        exact h.roomy frame hmem
    · have hbound := h.bounded
      rw [List.length_set]
      omega
    · intro hnil
      have hzero := congrArg List.length hnil
      rw [List.length_set, List.length_nil] at hzero
      omega
    · rintro ⟨-, hnone, -⟩
      exact List.find?_eq_none.mp hnone frame hmem (decide_eq_true hadds.takes)
  | @opened frame' hnone hfront hadds =>
    have hts : frame'.ts = p.ts := hadds.ts
    have htaker := (MixerBuffer.taker_eq_none_iff h.roomy hadds.room hadds.length).mpr hnone
    refine ⟨?_, ?_, by simp, Or.inr ⟨⟨hadds.length, htaker, hfront⟩, ?_⟩⟩
    · intro g hg
      rcases List.mem_append.mp hg with hold | hnew
      · exact h.roomy g hold
      · rw [List.mem_singleton.mp hnew, hts]
        exact hadds.room
    · have hbound := h.bounded
      rw [List.length_append, List.length_singleton]
      omega
    · rw [List.map_append, List.map_singleton, hts]

/-- **A push keeps the session tidy**, and opens at most one frame, at its own time. -/
theorem Tidy.push {s s' : MixSession TID} (h : s.Tidy) {p : Push TID} (hpush : s.push p = .ok s') :
    s'.Tidy ∧ ((¬ Opens s.buffer p ∧ s'.openedAt = s.openedAt) ∨
      (Opens s.buffer p ∧ s'.openedAt = s.openedAt ++ [p.ts])) := by
  obtain ⟨⟨out, buffer⟩, hbuffer, heq⟩ := Except.bind_eq_ok.mp hpush
  rw [← Except.ok.inj heq]
  rcases MixerBuffer.push_eq_ok hbuffer with ⟨hnone, rfl, rfl⟩ | ⟨i, b₁, hplaced, hcase⟩
  · have hmoves := MixerBuffer.pushDataToFrame_moves hnone
    cases hmoves with
    | rejected hnone hold =>
      refine ⟨⟨h.roomy, h.bounded, ?_⟩, Or.inl ⟨?_, ?_⟩⟩
      · intro hempty
        rw [Option.toList_none, List.append_nil]
        exact h.first hempty
      · rintro ⟨-, -, hfront⟩
        exact absurd hold (UInt64.not_lt.mpr hfront)
      · rw [openedAt, Option.toList_none, List.append_nil]
        rfl
  · obtain ⟨hroomy, hbound, hsome, hopened⟩ :=
      h.moves (MixerBuffer.pushDataToFrame_moves hplaced)
    rcases hcase with ⟨hshort, rfl, rfl⟩ | ⟨front, rest, hlong, hframes, rfl, rfl⟩
    · refine ⟨⟨hroomy, hshort, fun hempty => absurd hempty hsome⟩, ?_⟩
      simpa only [openedAt, Option.toList_none, List.append_nil, List.append_assoc,
        List.append_cancel_left_eq] using hopened
    · refine ⟨⟨?_, ?_, ?_⟩, ?_⟩
      · exact fun g hg => hroomy g (hframes ▸ List.mem_cons_of_mem _ hg)
      · rw [hframes, List.length_cons] at hbound
        exact Nat.le_of_succ_le_succ hbound
      · intro hempty
        have hzero : rest.length = 0 := by
          rw [show rest = [] from hempty]
          rfl
        rw [hframes, List.length_cons, hzero] at hlong
        exact absurd hlong (by decide)
      · rw [hframes, List.map_cons] at hopened
        simpa only [openedAt, Option.toList_some, List.map_append, List.map_singleton,
          List.append_assoc, List.singleton_append, List.append_cancel_left_eq,
          MixedFrame.output_fst] using hopened

/-- **One push.** A session whose frames are in the order of their times goes on with them in
    order exactly when the push finds the queue in order. -/
theorem Tidy.push_iff {s : MixSession TID} (h : s.Tidy) (hsorted : s.openedAt.Pairwise (· ≤ ·))
    (p : Push TID) :
    (∃ s', s.push p = .ok s' ∧ s'.openedAt.Pairwise (· ≤ ·)) ↔ s.buffer.Orderly p := by
  have hmoves := MixerBuffer.pushDataToFrame_ok_iff (p := p) h.roomy
  constructor
  · rintro ⟨s', hpush, hsorted'⟩
    have hplaced : ∃ pushed, s.buffer.pushDataToFrame p.ts p.track p.data = .ok pushed := by
      obtain ⟨⟨out, buffer⟩, hbuffer, -⟩ := Except.bind_eq_ok.mp hpush
      rcases MixerBuffer.push_eq_ok hbuffer with ⟨hnone, -⟩ | ⟨i, b₁, hsome, -⟩
      · exact ⟨_, hnone⟩
      · exact ⟨_, hsome⟩
    obtain ⟨hroom, hlength, hsums⟩ := hmoves.mp hplaced
    refine ⟨hroom, hlength, hsums, fun hshort hnone hfront frame hmem => ?_⟩
    rcases (h.push hpush).2 with ⟨hstays, -⟩ | ⟨-, hopened⟩
    · exact absurd ⟨hshort, hnone, hfront⟩ hstays
    · rw [hopened] at hsorted'
      have hqueued : frame.ts ∈ s.openedAt :=
        List.mem_append_right _ (List.mem_map_of_mem hmem)
      exact (List.pairwise_append.mp hsorted').2.2 _ hqueued p.ts List.mem_cons_self
  · intro horderly
    obtain ⟨pushed, hpushed⟩ := hmoves.mpr ⟨horderly.room, horderly.length, horderly.sums⟩
    obtain ⟨out, buffer, hbuffer⟩ := MixerBuffer.push_ok hpushed
    have hpush : s.push p = .ok ⟨buffer, s.returned ++ out.toList, s.tickets ++ [s.ticket p]⟩ := by
      rw [MixSession.push, hbuffer]
      rfl
    refine ⟨_, hpush, ?_⟩
    rcases (h.push hpush).2 with ⟨-, hsame⟩ | ⟨⟨hshort, hnone, hfront⟩, hopened⟩
    · rw [hsame]
      exact hsorted
    · rw [hopened, List.pairwise_append]
      refine ⟨hsorted, List.pairwise_singleton .., fun ts hmem last hlast => ?_⟩
      rw [List.mem_singleton.mp hlast]
      have hqueue := horderly.order hshort hnone hfront
      rcases List.mem_append.mp hmem with hreturned | hqueued
      · -- what was handed out is not later than the front, which is queued
        cases hframes : s.buffer.frames with
        | nil =>
          rw [h.first hframes] at hreturned
          exact nomatch hreturned
        | cons front rest =>
          have hfrontMem : front ∈ s.buffer.frames := hframes ▸ List.mem_cons_self
          have hle := (List.pairwise_append.mp hsorted).2.2 ts hreturned front.ts
            (List.mem_map_of_mem hfrontMem)
          exact UInt64.le_trans hle (hqueue front hfrontMem)
      · obtain ⟨frame, hframe, rfl⟩ := List.mem_map.mp hqueued
        exact hqueue frame hframe

/-! ### Sessions that mix right -/

/-- Every push finds the queue in order. -/
def KeepsOrder : MixSession TID → List (Push TID) → Prop
  | _, [] => True
  | s, p :: rest => s.buffer.Orderly p ∧ ∀ s', s.push p = .ok s' → KeepsOrder s' rest

/-- What holds after some pushes, whatever they were. -/
theorem after_pushes {pushes : List (Push TID)} {s : MixSession TID} (h : pushAll pushes = .ok s) :
    s.Tidy ∧ ∃ old, Books pushes s old := by
  induction pushes using List.reverseRecOn generalizing s with
  | nil =>
    rw [← Except.ok.inj h]
    exact ⟨tidy_start, [], books_start⟩
  | append_singleton pushes p ih =>
    rw [pushAll, List.foldlM_append] at h
    obtain ⟨s₀, hs₀, h⟩ := Except.bind_eq_ok.mp h
    obtain ⟨s₁, hs₁, h⟩ := Except.bind_eq_ok.mp h
    obtain rfl := Except.ok.inj h
    obtain ⟨htidy, old, hbooks⟩ := ih hs₀
    exact ⟨(htidy.push hs₁).1, hbooks.push hs₁⟩

/-- The frames that were opened stay opened, in their order. -/
theorem prefix_openedAt {pushes : List (Push TID)} {s s' : MixSession TID} (h : s.Tidy)
    (hs' : pushes.foldlM push s = .ok s') : s.openedAt <+: s'.openedAt := by
  induction pushes generalizing s with
  | nil =>
    obtain rfl := Except.ok.inj hs'
    exact List.prefix_rfl
  | cons p rest ih =>
    obtain ⟨s₁, hs₁, hrest⟩ := Except.bind_eq_ok.mp hs'
    obtain ⟨htidy, hopened⟩ := h.push hs₁
    have hlater := ih htidy hrest
    rcases hopened with ⟨-, hsame⟩ | ⟨-, hmore⟩
    · exact hsame ▸ hlater
    · rw [hmore] at hlater
      exact (List.prefix_append _ _).trans hlater

/-- **A session goes through with its frames in order** exactly when every push finds the queue in
    order. -/
theorem sorted_iff {pushes : List (Push TID)} {s : MixSession TID} (h : s.Tidy)
    (hsorted : s.openedAt.Pairwise (· ≤ ·)) :
    (∃ s', pushes.foldlM push s = .ok s' ∧ s'.openedAt.Pairwise (· ≤ ·)) ↔
      KeepsOrder s pushes := by
  induction pushes generalizing s with
  | nil => exact iff_of_true ⟨s, rfl, hsorted⟩ trivial
  | cons p rest ih =>
    constructor
    · rintro ⟨s', hs', hsorted'⟩
      obtain ⟨s₁, hs₁, hrest⟩ := Except.bind_eq_ok.mp hs'
      have htidy := (h.push hs₁).1
      have hsorted₁ := hsorted'.sublist (prefix_openedAt htidy hrest).sublist
      refine ⟨(h.push_iff hsorted p).mp ⟨s₁, hs₁, hsorted₁⟩, fun s₂ hs₂ => ?_⟩
      obtain rfl := Except.ok.inj (hs₁.symm.trans hs₂)
      exact (ih htidy hsorted₁).mp ⟨s', hrest, hsorted'⟩
    · rintro ⟨horderly, hkeeps⟩
      obtain ⟨s₁, hs₁, hsorted₁⟩ := (h.push_iff hsorted p).mpr horderly
      obtain ⟨s', hs', hsorted'⟩ := (ih (h.push hs₁).1 hsorted₁).mpr (hkeeps s₁ hs₁)
      exact ⟨s', Except.bind_eq_ok.mpr ⟨s₁, hs₁, hs'⟩, hsorted'⟩

/-! ### The frames that are opened -/

instance (b : MixerBuffer TID) (p : Push TID) : Decidable (Opens b p) :=
  inferInstanceAs (Decidable (_ ∧ _ ∧ _))

/-- The times at which pushes open a frame. -/
def openings : MixSession TID → List (Push TID) → List UInt64
  | _, [] => []
  | s, p :: rest =>
    (if Opens s.buffer p then [p.ts] else []) ++
      match s.push p with
      | .ok s => openings s rest
      | .error _ => []

theorem openings_cons (s : MixSession TID) (p : Push TID) (rest : List (Push TID)) :
    openings s (p :: rest) =
      (if Opens s.buffer p then [p.ts] else []) ++
        match s.push p with
        | .ok s => openings s rest
        | .error _ => [] := rfl

theorem openedAt_openings {pushes : List (Push TID)} {s s' : MixSession TID} (h : s.Tidy)
    (hs' : pushes.foldlM push s = .ok s') : s'.openedAt = s.openedAt ++ openings s pushes := by
  induction pushes generalizing s with
  | nil =>
    rw [← Except.ok.inj hs']
    exact (List.append_nil _).symm
  | cons p rest ih =>
    obtain ⟨s₁, hs₁, hrest⟩ := Except.bind_eq_ok.mp hs'
    obtain ⟨htidy, hopened⟩ := h.push hs₁
    rw [ih htidy hrest, openings_cons, hs₁]
    rcases hopened with ⟨hnot, hsame⟩ | ⟨hopens, hmore⟩
    · rw [if_neg hnot, hsame, List.nil_append]
    · rw [if_pos hopens, hmore, List.append_assoc]

theorem openings_sublist (s : MixSession TID) (pushes : List (Push TID)) :
    (openings s pushes).Sublist (pushes.map (·.ts)) := by
  induction pushes generalizing s with
  | nil => exact .slnil
  | cons p rest ih =>
    have hrest : List.Sublist (match s.push p with
        | .ok s => openings s rest
        | .error _ => []) (rest.map (·.ts)) := by
      cases s.push p with
      | error panic => exact List.nil_sublist _
      | ok s => exact ih s
    rw [openings_cons, List.map_cons]
    split
    · exact hrest.cons_cons p.ts
    · exact hrest.cons p.ts

/-- Pushes in order that go through keep the frames in order. -/
theorem openedAt_sorted {pushes : List (Push TID)} {s : MixSession TID}
    (h : pushAll pushes = .ok s) (hsorted : pushes.Pairwise fun p next => p.ts ≤ next.ts) :
    s.openedAt = openings start pushes ∧ s.openedAt.Pairwise (· ≤ ·) := by
  have hall := openedAt_openings tidy_start h
  have hopened : s.openedAt = openings start pushes := hall
  rw [hopened]
  exact ⟨rfl, (List.pairwise_map.mpr hsorted).sublist (openings_sublist start pushes)⟩

/-- The first push opens a frame. -/
theorem openings_ne_nil {p : Push TID} {rest : List (Push TID)}
    (h : KeepsOrder start (p :: rest)) : openings start (p :: rest) ≠ [] := by
  have hopens : Opens (start : MixSession TID).buffer p := by
    refine ⟨?_, rfl, UInt64.le_refl _⟩
    rcases h.1.length with hlength | hold
    · exact hlength
    · exact absurd hold (UInt64.lt_irrefl _)
  rw [openings_cons, if_pos hopens]
  exact List.cons_ne_nil _ _

/-- The queue is full once a frame was handed out. -/
theorem full_push {s s' : MixSession TID} {p : Push TID} (h : s.Tidy)
    (hfull : s.returned = [] ∨ s.buffer.frames.length = frameQueueLimit) (hpush : s.push p = .ok s') :
    s'.returned = [] ∨ s'.buffer.frames.length = frameQueueLimit := by
  obtain ⟨⟨out, buffer⟩, hbuffer, heq⟩ := Except.bind_eq_ok.mp hpush
  rw [← Except.ok.inj heq]
  rcases MixerBuffer.push_eq_ok hbuffer with ⟨-, rfl, rfl⟩ | ⟨i, b₁, hplaced, hcase⟩
  · rw [Option.toList_none, List.append_nil]
    exact hfull
  · obtain ⟨-, hbound, -, hopened⟩ := h.moves (MixerBuffer.pushDataToFrame_moves hplaced)
    have hgrows : s.buffer.frames.length ≤ b₁.frames.length := by
      rcases hopened with ⟨-, htimes⟩ | ⟨-, htimes⟩
      · have hlength := congrArg List.length htimes
        rw [List.length_map, List.length_map] at hlength
        omega
      · have hlength := congrArg List.length htimes
        rw [List.length_append, List.length_map, List.length_map, List.length_singleton] at hlength
        omega
    rcases hcase with ⟨hshort, rfl, rfl⟩ | ⟨front, rest, hlong, hframes, rfl, rfl⟩
    · rw [Option.toList_none, List.append_nil]
      rcases hfull with hnone | hfull
      · exact Or.inl hnone
      · exact Or.inr (Nat.le_antisymm hshort (hfull ▸ hgrows))
    · rw [hframes, List.length_cons] at hlong hbound
      exact Or.inr (Nat.le_antisymm (Nat.le_of_succ_le_succ hbound) (Nat.le_of_lt_succ hlong))

/-- A push has handed out a frame exactly when more frames were opened than the queue holds. -/
theorem returned_ne_nil_iff {pushes : List (Push TID)} {s : MixSession TID}
    (h : pushAll pushes = .ok s) : s.returned ≠ [] ↔ frameQueueLimit < s.openedAt.length := by
  have hfull : s.returned = [] ∨ s.buffer.frames.length = frameQueueLimit := by
    induction pushes using List.reverseRecOn generalizing s with
    | nil => exact Or.inl (by rw [← Except.ok.inj h]; rfl)
    | append_singleton pushes p ih =>
      unfold pushAll at h
      rw [List.foldlM_append] at h
      obtain ⟨before, hbefore, h⟩ := Except.bind_eq_ok.mp h
      obtain ⟨next, hnext, h⟩ := Except.bind_eq_ok.mp h
      obtain rfl := Except.ok.inj h
      exact full_push (after_pushes hbefore).1 (ih hbefore) hnext
  have hbound := (after_pushes h).1.bounded
  rw [openedAt, List.length_append, List.length_map, List.length_map]
  constructor
  · intro hreturned
    have hpos := List.length_pos_iff.mpr hreturned
    have hlength := hfull.resolve_left hreturned
    omega
  · intro hlong hnone
    rw [hnone, List.length_nil] at hlong
    omega

end MixSession

open MixSession

/-- What is handed out is the mix of these pushes. -/
structure MixOf (out : UInt64 × List Int16) (pushes : List (Push TID)) : Prop where
  nodup : (pushes.map (·.track)).Nodup
  near : ∀ p ∈ pushes, Near out.1 p.ts
  length : out.2.length = frameSamples
  samples : ∀ i < frameSamples,
    out.2[i]?.map Int16.toInt = some (saturate (pushes.map fun p => sampleAt p.data i).sum)

theorem MixedFrame.Holds.mixOf {frame : MixedFrame TID} {pushes : List (Push TID)}
    (h : frame.Holds pushes) : MixOf frame.output pushes where
  nodup := h.nodup
  near := h.near
  length := by
    rw [output, List.length_map]
    exact frame.size
  samples := by
    intro i hi
    obtain ⟨sum, hget, hsum⟩ := Option.map_eq_some_iff.mp (h.sums i hi)
    rw [output, List.getElem?_map, hget, Option.map_some, Option.map_some, capI16Cast_eq, hsum]

/-- Every push is in one of the frames that are handed out, or was rejected, and every frame is the
    mix of its pushes. -/
structure Accounted (pushes : List (Push TID)) (s : MixSession TID) : Prop where
  length : s.tickets.length = pushes.length
  placed : ∀ k, some k ∈ s.tickets → k < s.handedOut.length
  mixed : ∀ (k : Nat) (out : UInt64 × List Int16), s.handedOut[k]? = some out →
    MixOf out (contributions pushes s.tickets k)

theorem MixSession.Books.accounted {pushes : List (Push TID)} {s : MixSession TID}
    {old : List (MixedFrame TID)} (h : Books pushes s old) : Accounted pushes s := by
  have hall : s.handedOut = (old ++ s.buffer.frames).map MixedFrame.output := by
    rw [handedOut_eq, h.returned, List.map_append]
  refine ⟨h.length, ?_, ?_⟩
  · intro k hmem
    rw [hall, List.length_map]
    exact h.placed k hmem
  · intro k out hget
    rw [hall, List.getElem?_map] at hget
    obtain ⟨frame, hframe, rfl⟩ := Option.map_eq_some_iff.mp hget
    exact (h.holds k frame hframe).mixOf

variable [DecidableEq TID]

/-- A session goes through, with a short queue after every push, and hands out the pushes mixed,
    in the order of time. -/
structure MixesRight (pushes : List (Push TID)) : Prop where
  session : ∃ s, pushAll pushes = .ok s ∧ Accounted pushes s ∧
    (s.handedOut.map Prod.fst).Pairwise (· ≤ ·)
  bounded : ∀ before rest s, pushes = before ++ rest → pushAll before = .ok s →
    s.buffer.frames.length ≤ frameQueueLimit

/-- **A mixer does its work exactly when every push finds the queue in order.** -/
theorem mixesRight_iff (pushes : List (Push TID)) :
    MixesRight pushes ↔ KeepsOrder start pushes := by
  rw [← sorted_iff tidy_start .nil]
  constructor
  · rintro ⟨⟨s, hs, -, hsorted⟩, -⟩
    exact ⟨s, hs, handedOut_times s ▸ hsorted⟩
  · rintro ⟨s, hs, hsorted⟩
    obtain ⟨-, old, hbooks⟩ := after_pushes hs
    refine ⟨⟨s, hs, hbooks.accounted, ?_⟩, ?_⟩
    · rw [handedOut_times]
      exact hsorted
    · rintro before rest s' - hs'
      exact (after_pushes hs').1.bounded

/-- One track whose packet of 20 ms comes after the one of 40 ms. -/
def latePacket : List (Push Nat) := [⟨0, 1, [100]⟩, ⟨40, 1, [200]⟩, ⟨20, 1, [300]⟩]

/-- The late packet gets a frame of its own, behind the one that it should precede. -/
theorem not_mixesRight_latePacket :
    (∃ s, pushAll latePacket = .ok s ∧ s.handedOut.map Prod.fst = [0, 40, 20]) ∧
      ¬ MixesRight latePacket := by
  have hany : (pushAll latePacket).toOption.any
      (fun s => decide (s.handedOut.map Prod.fst = [0, 40, 20])) = true := by decide +kernel
  obtain ⟨s, hmem, htimes⟩ := (Option.any_eq_true _ _).mp hany
  have hs := Except.mem_toOption.mp hmem
  have htimes := of_decide_eq_true htimes
  refine ⟨⟨s, hs, htimes⟩, ?_⟩
  rintro ⟨⟨s', hs', -, hsorted⟩, -⟩
  obtain rfl := Except.ok.inj (hs.symm.trans hs')
  rw [htimes] at hsorted
  exact absurd hsorted (by decide)

end MediaServer.Record
