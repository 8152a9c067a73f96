import MediaServer.Utils.SeqRewrite

/-!
# Numbers that come late

Two runs of `SeqRewrite` with the numbers of one source.  In the first the numbers come in order;
in the second some of those that are taken come late.  Each of them should have the same result in
both runs.

The rewriter looks a late number up among the dropped ones by its extended number, and the rounds
in it are those the rewriter has counted so far.  They are the right ones only as long as no
wrap-around lies between the number and what has come before it, and as long as a wrap-around is
counted once: a dropped number behind a wrap-around counts the round, and so does every number
after it until one is taken.
-/

namespace MediaServer.SeqRewrite

open Collections Serial

/-- A number of a source, which does not wrap around: it is taken or left out. -/
inductive Item where
  | take (number : Nat)
  | skip (number : Nat)
deriving Repr

namespace Item

def number : Item → Nat
  | .take number => number
  | .skip number => number

/-- The number as it is on the wire. -/
def call : Item → Call
  | .take number => .generate (number % 65536)
  | .skip number => .dropValue (number % 65536)

def skipped? : Item → Option Nat
  | .take _ => none
  | .skip number => some number

/-- The order of a source: a number is left out only if it is new, and one that is taken is not
    behind the newest. -/
def Before (a : Item) : Item → Prop
  | .take number => a.number ≤ number
  | .skip number => a.number < number

end Item

/-- The numbers that were left out. -/
def skippedOf (items : List Item) : List Nat := items.filterMap Item.skipped?

/-- What has been delivered: the greatest number taken (at the start, the one before the source),
    and the numbers left out, each with the greatest number taken at that time. -/
structure Delivered where
  newest : Nat
  skipped : List (Nat × Nat)

namespace Delivered

def next (d : Delivered) : Item → Delivered
  | .take number =>
    if number ∈ d.skipped.map Prod.fst then d else { d with newest := max d.newest number }
  | .skip number => { d with skipped := d.skipped ++ [(number, d.newest)] }

/-- Numbers are less than half a round ahead of the greatest one taken and not more than half a
    round behind it.  Where a number is taken that is not ahead of all dropped ones, it lies with
    those that are not before it, and with the greatest number taken then and now, in one round. -/
def Meets (d : Delivered) : Item → Prop
  | .take number =>
    number < d.newest + 32768 ∧ d.newest ≤ number + 32768 ∧
      ∀ s ∈ d.skipped, number ≤ s.1 →
        s.1 / 65536 = number / 65536 ∧ s.2 / 65536 = number / 65536 ∧
          d.newest / 65536 = number / 65536
  | .skip number => number < d.newest + 32768

instance (d : Delivered) (item : Item) : Decidable (d.Meets item) :=
  match item with
  | .take number => inferInstanceAs (Decidable (number < d.newest + 32768 ∧
      d.newest ≤ number + 32768 ∧ ∀ s ∈ d.skipped, number ≤ s.1 →
        s.1 / 65536 = number / 65536 ∧ s.2 / 65536 = number / 65536 ∧
          d.newest / 65536 = number / 65536))
  | .skip number => inferInstanceAs (Decidable (number < d.newest + 32768))

/-- All numbers do, in the order in which they are delivered. -/
def AllMeet : Delivered → List Item → Prop
  | _, [] => True
  | d, item :: items => d.Meets item ∧ AllMeet (d.next item) items

/-- The number comes where a run in order, or one with late numbers, may have it; `all` are the
    numbers of the source that are left out. -/
def Placed (all : List Nat) (d : Delivered) : Item → Prop
  | .take number =>
    (d.skipped.map Prod.fst).countP (number < ·) < 1000 ∧
    (d.skipped.map Prod.fst).countP (· < number) = all.countP (· < number) ∧
    (number ∈ d.skipped.map Prod.fst ↔ number ∈ all)
  | .skip number => d.newest < number ∧ ∀ s ∈ d.skipped.map Prod.fst, s < number

end Delivered

/-- The result of a number: `start` leads from the numbers of the source to those of the stream. -/
def resultOf (start : Nat) (all : List Nat) (number : Nat) : Option Nat :=
  if number ∈ all then none
  else some ((number + start + (65536 - all.countP (· < number) % 65536)) % 65536)

def Item.result (start : Nat) (all : List Nat) : Item → Option Nat
  | .take number => resultOf start all number
  | .skip _ => none

/-! ### The dropped numbers and their stamps -/

/-- A number that was left out, the greatest number taken at that time, and the extended number it
    was given. -/
structure Record where
  number : Nat
  reference : Nat
  stamp : Nat

/-- The rewriter knows what has been delivered. -/
structure Knows (r : SeqRewrite) (start : Nat) (d : Delivered) (records : List Record) : Prop where
  reinit : r.reinit = false
  base : r.base < 65536
  maxOutput : r.maxOutput < 65536
  maxInput : r.maxInput = d.newest % 65536
  skipped : d.skipped = records.map fun x => (x.number, x.reference)
  items : r.dropped.items = (records.map Record.stamp).drop (records.length - 1000)
  numbers : (r.base + (records.length - 1000)) % 65536 = start % 65536
  increasing : records.Pairwise fun x y => x.number < y.number ∧ x.stamp < y.stamp
  reference : ∀ x ∈ records, x.reference ≤ d.newest
  low : ∀ x ∈ records, x.stamp ≤ r.seqDelta + x.number % 65536
  /-- A stamp of a round that is over is a round behind. -/
  passed : ∀ x ∈ records, x.number / 65536 < d.newest / 65536 →
    x.stamp + 65536 ≤ r.seqDelta + x.number % 65536
  /-- A stamp of this round is exact, unless a wrap-around was counted before a number was taken. -/
  exact : ∀ x ∈ records, x.reference / 65536 = x.number / 65536 →
    d.newest / 65536 = x.number / 65536 →
    (∀ y ∈ records, x.number ≤ y.number → y.number / 65536 = x.number / 65536) →
    x.stamp = r.seqDelta + x.number % 65536

variable {r : SeqRewrite} {start number : Nat} {d : Delivered} {records : List Record}

/-- Within half a round of the greatest number taken, a round is counted exactly behind a
    wrap-around. -/
theorem Knows.rounds (h : Knows r start d records) (hahead : number < d.newest + 32768)
    (hbehind : d.newest ≤ number + 32768) :
    r.rounds 65536 (number % 65536) =
      if d.newest / 65536 < number / 65536 then r.seqDelta + 65536 else r.seqDelta := by
  rw [SeqRewrite.rounds, h.maxInput]
  split
  · rw [if_pos (by omega)]
  · rw [if_neg (by omega)]

/-- The extended number is above those of the dropped numbers before it. -/
theorem Knows.above (h : Knows r start d records) (hahead : number < d.newest + 32768)
    (hbehind : d.newest ≤ number + 32768) {x : Record} (hx : x ∈ records) (hlt : x.number < number) :
    x.stamp < r.rounds 65536 (number % 65536) + number % 65536 := by
  have hlow := h.low x hx
  rw [h.rounds hahead hbehind]
  by_cases hround : x.number / 65536 = number / 65536
  · split <;> omega
  · by_cases hpassed : x.number / 65536 < d.newest / 65536
    · have hstamp := h.passed x hx hpassed
      split <;> omega
    · rw [if_pos (by omega)]
      omega

/-- Under the condition, the dropped numbers that are not before a number have exact stamps, and
    its own is exact as well. -/
theorem Knows.exact_of_meets (h : Knows r start d records) (hmeets : d.Meets (.take number))
    {x : Record} (hx : x ∈ records) (hle : number ≤ x.number) :
    x.number / 65536 = number / 65536 ∧ r.rounds 65536 (number % 65536) = r.seqDelta ∧
      x.stamp = r.seqDelta + x.number % 65536 := by
  obtain ⟨hahead, hbehind, hskipped⟩ := hmeets
  have hmem (y : Record) (hy : y ∈ records) : (y.number, y.reference) ∈ d.skipped := by
    rw [h.skipped]
    exact List.mem_map_of_mem hy
  obtain ⟨hround, hreference, hnewest⟩ := hskipped _ (hmem x hx) hle
  dsimp only at hround hreference
  refine ⟨hround, ?_, ?_⟩
  · rw [h.rounds hahead hbehind, if_neg (by omega)]
  · refine h.exact x hx (by omega) (by omega) fun y hy hxy => ?_
    have hy' := (hskipped _ (hmem y hy) (Nat.le_trans hle hxy)).1
    dsimp only at hy'
    omega

/-- The stamps of the dropped numbers compare with the extended number as the numbers do. -/
theorem Knows.stamp_lt_iff (h : Knows r start d records) (hmeets : d.Meets (.take number))
    {x : Record} (hx : x ∈ records) :
    x.stamp < r.rounds 65536 (number % 65536) + number % 65536 ↔ x.number < number := by
  constructor
  · intro hlt
    by_contra hnot
    obtain ⟨hround, hrounds, hstamp⟩ := h.exact_of_meets hmeets hx (Nat.le_of_not_lt hnot)
    omega
  · exact h.above hmeets.1 hmeets.2.1 hx

theorem Knows.stamp_eq_iff (h : Knows r start d records) (hmeets : d.Meets (.take number))
    {x : Record} (hx : x ∈ records) :
    x.stamp = r.rounds 65536 (number % 65536) + number % 65536 ↔ x.number = number := by
  constructor
  · intro heq
    by_contra hne
    by_cases hlt : x.number < number
    · have habove := h.above hmeets.1 hmeets.2.1 hx hlt
      omega
    · obtain ⟨hround, hrounds, hstamp⟩ := h.exact_of_meets hmeets hx (Nat.le_of_not_lt hlt)
      omega
  · intro heq
    obtain ⟨hround, hrounds, hstamp⟩ := h.exact_of_meets hmeets hx (Nat.le_of_eq heq.symm)
    omega

/-! ### What is still kept of the dropped numbers -/

/-- Fewer than a thousand dropped numbers are above this one, so those that are not before it have
    not moved into the base. -/
theorem kept {records : List Record} (h : records.Pairwise fun x y => x.number < y.number)
    (hfew : records.countP (fun x => number < x.number) < 1000) {x : Record} (hx : x ∈ records)
    (hle : number ≤ x.number) : x ∈ records.drop (records.length - 1000) := by
  rw [← List.take_append_drop (records.length - 1000) records, List.mem_append] at hx
  rcases hx with hgone | hkept
  · -- everything behind a number that is gone is above it, and that is a thousand
    exfalso
    have hpos : 0 < records.length - 1000 := by
      by_contra hzero
      rw [Nat.le_zero.mp (Nat.le_of_not_lt hzero)] at hgone
      simp at hgone
    rw [← List.take_append_drop (records.length - 1000) records, List.pairwise_append] at h
    have hall : (records.drop (records.length - 1000)).countP (fun x => number < x.number) =
        (records.drop (records.length - 1000)).length := by
      rw [List.countP_eq_length]
      intro y hy
      exact decide_eq_true (Nat.lt_of_le_of_lt hle (h.2.2 x hgone y hy))
    have hsub : (records.drop (records.length - 1000)).countP (fun x => number < x.number) ≤
        records.countP (fun x => number < x.number) :=
      (List.drop_sublist _ _).countP_le
    rw [hall, List.length_drop] at hsub
    omega
  · exact hkept

theorem Knows.numbers_increasing (h : Knows r start d records) :
    records.Pairwise fun x y => x.number < y.number := h.increasing.imp fun hxy => hxy.1

theorem Knows.skipped_fst (h : Knows r start d records) :
    d.skipped.map Prod.fst = records.map Record.number := by
  rw [h.skipped, List.map_map]
  rfl

/-- A number is found among the dropped ones if and only if it was left out. -/
theorem Knows.mem_dropped_iff (h : Knows r start d records) (hmeets : d.Meets (.take number))
    (hfew : records.countP (fun x => number < x.number) < 1000) :
    r.rounds 65536 (number % 65536) + number % 65536 ∈ r.dropped ↔
      number ∈ d.skipped.map Prod.fst := by
  rw [SortedSet.mem_iff, h.items, h.skipped_fst, ← List.map_drop]
  simp only [List.mem_map]
  constructor
  · rintro ⟨x, hx, heq⟩
    have hmem := List.mem_of_mem_drop hx
    exact ⟨x, hmem, (h.stamp_eq_iff hmeets hmem).mp heq⟩
  · rintro ⟨x, hx, heq⟩
    exact ⟨x, kept h.numbers_increasing hfew hx (Nat.le_of_eq heq.symm),
      (h.stamp_eq_iff hmeets hx).mpr heq⟩

/-- Its rank there is the number of those before it, without those that moved into the base. -/
theorem Knows.rank_eq (h : Knows r start d records) (hmeets : d.Meets (.take number))
    (hfew : records.countP (fun x => number < x.number) < 1000) :
    r.dropped.rank (r.rounds 65536 (number % 65536) + number % 65536) +
      (records.length - 1000) = (d.skipped.map Prod.fst).countP (· < number) := by
  rw [SortedSet.rank, h.items, h.skipped_fst, ← List.map_drop, List.countP_map, List.countP_map]
  have hsame : (records.drop (records.length - 1000)).countP
      ((fun a => decide (a < r.rounds 65536 (number % 65536) + number % 65536)) ∘ Record.stamp) =
      (records.drop (records.length - 1000)).countP ((fun a => decide (a < number)) ∘
        Record.number) := by
    apply List.countP_congr
    intro x hx
    simp only [Function.comp, decide_eq_true_eq]
    exact h.stamp_lt_iff hmeets (List.mem_of_mem_drop hx)
  have hgone : (records.take (records.length - 1000)).countP ((fun a => decide (a < number)) ∘
      Record.number) = records.length - 1000 := by
    rw [List.countP_eq_length.mpr, List.length_take]
    · omega
    · intro x hx
      simp only [Function.comp, decide_eq_true_eq]
      by_contra hnot
      -- a number that is gone is not kept
      have hkept := kept h.numbers_increasing hfew (List.mem_of_mem_take hx)
        (Nat.le_of_not_lt hnot)
      have hincreasing := h.numbers_increasing
      rw [← List.take_append_drop (records.length - 1000) records, List.pairwise_append]
        at hincreasing
      exact Nat.lt_irrefl _ (hincreasing.2.2 x hx x hkept)
  rw [hsame]
  conv_rhs => rw [← List.take_append_drop (records.length - 1000) records, List.countP_append]
  rw [hgone, Nat.add_comm]

/-! ### One number -/

/-- The greatest number taken, as the rewriter keeps it. -/
theorem later_newest {newest number : Nat} (hahead : number < newest + 32768)
    (hbehind : newest ≤ number + 32768) :
    later 65536 (newest % 65536) (number % 65536) = max newest number % 65536 := by
  rw [later]
  unfold ahead
  split <;> split <;> omega

/-- Counting a round, where the greatest number taken enters the next one, keeps what is known. -/
theorem Knows.take_newest (h : Knows r start d records) (hmeets : d.Meets (.take number))
    {output : Nat} (houtput : output < 65536) :
    Knows { r with
        seqDelta := r.rounds 65536 (number % 65536)
        maxInput := later 65536 r.maxInput (number % 65536)
        maxOutput := later 65536 r.maxOutput output }
      start { d with newest := max d.newest number } records := by
  obtain ⟨hahead, hbehind, -⟩ := hmeets
  have hrounds := h.rounds hahead hbehind
  have hmono : r.seqDelta ≤ r.rounds 65536 (number % 65536) := by
    rw [hrounds]
    split <;> omega
  refine ⟨h.reinit, h.base, later_lt h.maxOutput houtput, ?_, h.skipped, h.items, h.numbers,
    h.increasing, ?_, ?_, ?_, ?_⟩
  · rw [h.maxInput]
    exact later_newest hahead hbehind
  · intro x hx
    exact Nat.le_trans (h.reference x hx) (Nat.le_max_left ..)
  · intro x hx
    exact Nat.le_trans (h.low x hx) (Nat.add_le_add_right hmono _)
  · intro x hx hlt
    dsimp only at hlt ⊢
    have hlow := h.low x hx
    by_cases hpassed : x.number / 65536 < d.newest / 65536
    · have hstamp := h.passed x hx hpassed
      omega
    · rw [hrounds, if_pos (by omega)]
      omega
  · intro x hx hreference hnewest hround
    dsimp only at hnewest ⊢
    have hle := h.reference x hx
    have hstamp := h.exact x hx hreference (by omega) hround
    rw [hrounds, if_neg (by omega)]
    exact hstamp

/-- **A number that is taken, late or not, has its result.** -/
theorem Knows.generate (h : Knows r start d records) {all : List Nat}
    (hmeets : d.Meets (.take number)) (hplaced : d.Placed all (.take number)) :
    ∃ r', r.generate 65536 (number % 65536) = .ok (resultOf start all number, r') ∧
      Knows r' start (d.next (.take number)) records := by
  obtain ⟨hfew, hcount, hmem⟩ := hplaced
  have hinput : number % 65536 < 65536 := Nat.mod_lt _ (by decide)
  have hfew' : records.countP (fun x => number < x.number) < 1000 := by
    rw [h.skipped_fst, List.countP_map] at hfew
    exact hfew
  have hdropped := h.mem_dropped_iff hmeets hfew'
  have hrank := h.rank_eq hmeets hfew'
  by_cases hskipped : number ∈ d.skipped.map Prod.fst
  · -- it was left out before
    have hgenerate := generate_eq_none hinput h.reinit (hdropped.mpr hskipped)
    refine ⟨{ r with seqDelta := r.rounds 65536 (number % 65536) }, ?_, ?_⟩
    · rw [resultOf, if_pos (hmem.mp hskipped)]
      exact hgenerate
    · rw [Delivered.next, if_pos hskipped]
      rw [h.skipped_fst, List.mem_map] at hskipped
      obtain ⟨x, hx, heq⟩ := hskipped
      obtain ⟨-, hrounds, -⟩ := h.exact_of_meets hmeets hx (Nat.le_of_eq heq.symm)
      rw [hrounds]
      exact h
  · have hsize : r.dropped.size ≤ 1000 := by
      rw [SortedSet.size, h.items, List.length_drop, List.length_map]
      omega
    have hlimit := Nat.le_trans (r.dropped.rank_le_size
      (r.rounds 65536 (number % 65536) + number % 65536)) hsize
    have hin : r.maxInput < 65536 := by
      rw [h.maxInput]
      exact Nat.mod_lt _ (by decide)
    obtain ⟨output, houtput, hsum, hgenerate⟩ := generate_eq_ok hinput h.reinit h.base hin
      h.maxOutput (by omega) fun hcontra => hskipped (hdropped.mp hcontra)
    have hnumbers := h.numbers
    rw [Nat.ModEq] at hsum
    have hvalue : output =
        (number + start + (65536 - all.countP (· < number) % 65536)) % 65536 := by
      rw [← hcount, ← hrank]
      omega
    rw [hvalue] at hgenerate
    have hnext : d.next (.take number) = { d with newest := max d.newest number } := by
      rw [Delivered.next, if_neg hskipped]
    have hknows := h.take_newest hmeets houtput
    rw [← hnext] at hknows
    refine ⟨_, ?_, hknows⟩
    rw [resultOf, if_neg fun hcontra => hskipped (hmem.mpr hcontra), hgenerate, ← hvalue]

/-- The set of dropped numbers with a new one in it. -/
theorem Knows.items_insert (h : Knows r start d records) (hahead : number < d.newest + 32768)
    (hnew : d.newest < number) (hlast : ∀ x ∈ records, x.number < number) :
    (r.dropped.insert (r.rounds 65536 (number % 65536) + number % 65536)).items =
      (records.map Record.stamp).drop (records.length - 1000) ++
        [r.rounds 65536 (number % 65536) + number % 65536] := by
  rw [← h.items]
  apply SortedSet.items_insert_of_lt
  intro stamp hstamp
  rw [h.items] at hstamp
  obtain ⟨x, hx, rfl⟩ := List.mem_map.mp (List.mem_of_mem_drop hstamp)
  exact h.above hahead (by omega) hx (hlast x hx)

/-- **A number that is left out is stamped.** -/
theorem Knows.dropValue (h : Knows r start d records) {all : List Nat}
    (hmeets : d.Meets (.skip number)) (hplaced : d.Placed all (.skip number)) :
    ∃ r', r.dropValue 65536 (number % 65536) = .ok r' ∧
      Knows r' start (d.next (.skip number)) (records ++ [⟨number, d.newest,
        r.rounds 65536 (number % 65536) + number % 65536⟩]) := by
  have hahead : number < d.newest + 32768 := hmeets
  obtain ⟨hnew, hskipped⟩ := hplaced
  have hlast : ∀ x ∈ records, x.number < number := by
    intro x hx
    refine hskipped x.number ?_
    rw [h.skipped_fst]
    exact List.mem_map_of_mem hx
  have hinput : number % 65536 < 65536 := Nat.mod_lt _ (by decide)
  have hitems := h.items_insert hahead hnew hlast
  have hrounds := h.rounds hahead (Nat.le_trans (Nat.le_of_lt hnew) (Nat.le_add_right ..))
  have hmono : r.seqDelta ≤ r.rounds 65536 (number % 65536) := by
    rw [hrounds]
    split <;> omega
  have hsize : (r.dropped.insert (r.rounds 65536 (number % 65536) + number % 65536)).size =
      records.length - (records.length - 1000) + 1 := by
    rw [SortedSet.size, hitems, List.length_append, List.length_drop, List.length_map]
    rfl
  have hhigher : isSeqHigherThan 65536 (number % 65536) r.maxInput = true := by
    rw [h.maxInput]
    simp only [isSeqHigherThan, Bool.or_eq_true, Bool.and_eq_true, decide_eq_true_eq]
    omega
  have hbase := h.base
  have hnumbers := h.numbers
  refine ⟨_, dropValue_eq_ok hinput h.reinit h.base hhigher (by rw [hsize, droppedMax]; omega), ?_⟩
  -- the state of the dropped numbers, whether or not the oldest of them moves into the base
  have hstate : ∃ base dropped, { r with
        seqDelta := r.rounds 65536 (number % 65536) }.afterDrop 65536
          (r.rounds 65536 (number % 65536) + number % 65536) =
        { r with seqDelta := r.rounds 65536 (number % 65536), base, dropped } ∧
      base < 65536 ∧ (base + (records.length + 1 - 1000)) % 65536 = start % 65536 ∧
      dropped.items = (records.map Record.stamp ++
        [r.rounds 65536 (number % 65536) + number % 65536]).drop (records.length + 1 - 1000) := by
    unfold afterDrop
    dsimp only
    rw [hsize, droppedMax]
    by_cases hfull : 1000 < records.length + 1
    · rw [if_pos (by omega)]
      refine ⟨_, _, rfl, ahead_lt h.base (by omega), ?_, ?_⟩
      · unfold ahead
        split <;> omega
      · have hone : records.length - (records.length - 1000) + 1 - 1000 = 1 := by omega
        rw [hone, SortedSet.dropFirst]
        dsimp only
        have hmore : records.length - 1000 + 1 = records.length + 1 - 1000 := by omega
        rw [hitems, List.drop_append_of_le_length, List.drop_append_of_le_length, List.drop_drop,
          hmore]
        · rw [List.length_map]
          omega
        · rw [List.length_drop, List.length_map]
          omega
    · have hzero : records.length - 1000 = 0 := Nat.sub_eq_zero_of_le (by omega)
      have hzero' : records.length + 1 - 1000 = 0 := Nat.sub_eq_zero_of_le (by omega)
      rw [if_neg (by omega)]
      refine ⟨_, _, rfl, h.base, ?_, ?_⟩
      · rw [hzero', ← hzero]
        exact hnumbers
      · rw [hitems, hzero, hzero']
        rfl
  obtain ⟨base, dropped, heq, hlt, hmod, hdropped⟩ := hstate
  rw [heq]
  refine ⟨h.reinit, hlt, h.maxOutput, h.maxInput, ?_, ?_, ?_, ?_, ?_, ?_, ?_, ?_⟩
  · rw [Delivered.next, h.skipped, List.map_append]
    rfl
  · rw [List.map_append, List.length_append, List.length_singleton]
    exact hdropped
  · rw [List.length_append, List.length_singleton]
    exact hmod
  · rw [List.pairwise_append]
    refine ⟨h.increasing, List.pairwise_singleton .., ?_⟩
    intro x hx y hy
    rw [List.mem_singleton.mp hy]
    exact ⟨hlast x hx, h.above hahead (by omega) hx (hlast x hx)⟩
  · intro x hx
    rcases List.mem_append.mp hx with hold | hone
    · exact h.reference x hold
    · rw [List.mem_singleton.mp hone]
      exact Nat.le_refl _
  · intro x hx
    dsimp only
    rcases List.mem_append.mp hx with hold | hone
    · exact Nat.le_trans (h.low x hold) (Nat.add_le_add_right hmono _)
    · rw [List.mem_singleton.mp hone]
  · intro x hx hlt'
    dsimp only [Delivered.next] at hlt' ⊢
    rcases List.mem_append.mp hx with hold | hone
    · exact Nat.le_trans (h.passed x hold hlt') (Nat.add_le_add_right hmono _)
    · rw [List.mem_singleton.mp hone] at hlt'
      dsimp only at hlt'
      omega
  · intro x hx hreference hnewest hround
    dsimp only [Delivered.next] at hnewest ⊢
    rcases List.mem_append.mp hx with hold | hone
    · -- the new number is in the round of the greatest one taken, so no round is counted
      have hsame := hround _ (List.mem_append_right _ (List.mem_singleton_self _))
        (Nat.le_of_lt (hlast x hold))
      dsimp only at hsame
      rw [hrounds, if_neg (by omega)]
      exact h.exact x hold hreference hnewest fun y hy => hround y (List.mem_append_left _ hy)
    · rw [List.mem_singleton.mp hone]

/-! ### Whole runs -/

/-- All numbers come where they may. -/
def Delivered.AllPlaced (all : List Nat) : Delivered → List Item → Prop
  | _, [] => True
  | d, item :: items => d.Placed all item ∧ AllPlaced all (d.next item) items

theorem Knows.run (h : Knows r start d records) {all : List Nat} {items : List Item}
    (hmeets : d.AllMeet items) (hplaced : d.AllPlaced all items) :
    ∃ r', r.run 65536 (items.map Item.call) =
      .ok (items.map fun item => (item.call, item.result start all), r') := by
  induction items generalizing r d records with
  | nil => exact ⟨r, rfl⟩
  | cons item items ih =>
    obtain ⟨hone, hrest⟩ := hmeets
    obtain ⟨hplace, hplaces⟩ := hplaced
    have hstep : ∃ r' records', r.call 65536 item.call = .ok (item.result start all, r') ∧
        Knows r' start (d.next item) records' := by
      cases item with
      | take number =>
        obtain ⟨r', hgenerate, hknows⟩ := h.generate hone hplace
        exact ⟨r', records, hgenerate, hknows⟩
      | skip number =>
        obtain ⟨r', hdrop, hknows⟩ := h.dropValue hone hplace
        refine ⟨r', _, ?_, hknows⟩
        rw [Item.call, SeqRewrite.call, hdrop]
        rfl
    obtain ⟨r₁, records', hcall, hknows⟩ := hstep
    obtain ⟨r', hrun⟩ := ih hknows hrest hplaces
    refine ⟨r', ?_⟩
    simp only [List.map_cons, SeqRewrite.run, hcall, hrun, bind, Except.bind, pure, Except.pure]

/-- The rewriter in step with a new source knows the number before it. -/
theorem synced_knows {first : Nat} (hpos : 0 < first) (hmax : r.maxOutput < 65536) :
    Knows (r.synced 65536 (ahead 65536 (first % 65536) 1))
      (r.synced 65536 (ahead 65536 (first % 65536) 1)).base ⟨first - 1, []⟩ [] := by
  refine ⟨rfl, Nat.mod_lt _ (by decide), hmax, ?_, rfl, rfl, rfl, List.Pairwise.nil, ?_, ?_, ?_, ?_⟩
  · change ahead 65536 (first % 65536) 1 = (first - 1) % 65536
    unfold ahead
    split <;> omega
  · intro x hx
    cases hx
  · intro x hx
    cases hx
  · intro x hx
    cases hx
  · intro x hx
    cases hx

theorem run_of_reinit (hreinit : r.reinit = true) (hmax : r.maxOutput < 65536) (first : Item)
    (items : List Item) :
    r.run 65536 ((first :: items).map Item.call) =
      (r.synced 65536 (ahead 65536 (first.number % 65536) 1)).run 65536
        ((first :: items).map Item.call) := by
  have hinput : first.number % 65536 < 65536 := Nat.mod_lt _ (by decide)
  have hcall : r.call 65536 first.call =
      (r.synced 65536 (ahead 65536 (first.number % 65536) 1)).call 65536 first.call := by
    cases first with
    | take number => exact generate_of_reinit hreinit hmax (by decide) hinput
    | skip number =>
      have hdrop := dropValue_of_reinit hreinit hmax (by decide) hinput
      simp only [Item.call, SeqRewrite.call]
      rw [show number % 65536 = (Item.skip number).number % 65536 from rfl, hdrop]
  rw [List.map_cons, SeqRewrite.run, SeqRewrite.run, hcall]

/-! ### The numbers in another order -/

/-- The numbers of a source in order; they are counted from one on. -/
structure Ordered (items : List Item) : Prop where
  before : items.Pairwise Item.Before
  positive : ∀ item ∈ items, 0 < item.number

/-- The same calls in another order, in which some are late: `order` tells their positions. -/
structure Delayed (items second : List Item) (order : List Nat) : Prop where
  perm : order.Perm (List.range items.length)
  calls : second.map some = order.map (items[·]?)
  /-- Only a number that is taken is overtaken. -/
  late : order.Pairwise fun j i => i < j → ∃ number, items[i]? = some (.take number)
  /-- It is overtaken by fewer than a thousand calls. -/
  few : ∀ k i, order[k]? = some i → (order.take k).countP (i < ·) < 1000

variable {items second : List Item} {order : List Nat}

theorem Ordered.at (h : Ordered items) {i j : Nat} {a b : Item} (hij : i < j)
    (ha : items[i]? = some a) (hb : items[j]? = some b) : a.Before b := by
  obtain ⟨hi, rfl⟩ := List.getElem?_eq_some_iff.mp ha
  obtain ⟨hj, rfl⟩ := List.getElem?_eq_some_iff.mp hb
  exact List.pairwise_iff_getElem.mp h.before i j hi hj hij

/-- The calls in order are not late. -/
theorem delayed_range (items : List Item) : Delayed items items (List.range items.length) := by
  refine ⟨List.Perm.refl _, ?_, ?_, ?_⟩
  · apply List.ext_getElem?
    intro k
    by_cases hk : k < items.length
    · simp [hk]
    · simp [hk]
  · exact List.pairwise_lt_range.imp fun hlt hij => absurd hij (Nat.lt_asymm hlt)
  · intro k i hi
    obtain ⟨hk, rfl⟩ := List.getElem?_eq_some_iff.mp hi
    have hnone : ((List.range items.length).take k).countP
        ((List.range items.length)[k] < ·) = 0 := by
      rw [List.countP_eq_zero]
      intro j hj hij
      rw [List.take_range, List.mem_range] at hj
      have hlt := of_decide_eq_true hij
      rw [List.getElem_range] at hlt
      omega
    rw [hnone]
    decide

theorem Delayed.late_at (h : Delayed items second order) {front back : List Nat} {i j : Nat}
    (horder : order = front ++ i :: back) (hj : j ∈ front) (hij : i < j) :
    ∃ number, items[i]? = some (.take number) := by
  have hlate := h.late
  rw [horder, List.pairwise_append] at hlate
  exact hlate.2.2 j hj i (List.mem_cons_self ..) hij

theorem Delayed.few_at (h : Delayed items second order) {front back : List Nat} {i : Nat}
    (horder : order = front ++ i :: back) : front.countP (i < ·) < 1000 := by
  have hfew := h.few front.length i (by rw [horder]; simp)
  rwa [horder, List.take_left'  rfl] at hfew

/-- A call of the second run, with its position and those before and after it. -/
theorem Delayed.split (h : Delayed items second order) {before after : List Item} {item : Item}
    (heq : second = before ++ item :: after) :
    ∃ front i back, order = front ++ i :: back ∧ items[i]? = some item ∧
      before.map some = front.map (items[·]?) ∧ after.map some = back.map (items[·]?) := by
  have hcalls := h.calls.symm
  rw [heq, List.map_append, List.map_cons, List.map_eq_append_iff] at hcalls
  obtain ⟨front, rest, horder, hfront, hrest⟩ := hcalls
  obtain ⟨i, back, rfl, hi, hback⟩ := List.map_eq_cons_iff.mp hrest
  exact ⟨front, i, back, horder, hi, hfront.symm, hback.symm⟩

theorem exists_index {calls : List Item} {positions : List Nat}
    (h : calls.map some = positions.map (items[·]?)) {item : Item} (hmem : item ∈ calls) :
    ∃ j ∈ positions, items[j]? = some item := by
  have hsome : some item ∈ positions.map (items[·]?) := h ▸ List.mem_map_of_mem hmem
  exact List.mem_map.mp hsome

theorem Delayed.nodup (h : Delayed items second order) : order.Nodup :=
  h.perm.nodup_iff.mpr List.nodup_range

/-- What comes before a call in the second run: a call before it in order, or one that overtakes
    it. -/
theorem Delayed.front_ne (h : Delayed items second order) {front back : List Nat} {i j : Nat}
    (horder : order = front ++ i :: back) (hj : j ∈ front) : j ≠ i := by
  have hnodup := h.nodup
  rw [horder, List.nodup_append] at hnodup
  exact hnodup.2.2 j hj i (List.mem_cons_self ..)

/-- What is left out and comes behind a number that is taken is above it. -/
theorem Delayed.back_above (h : Delayed items second order) (hordered : Ordered items)
    {front back : List Nat} {i j number skipped : Nat} (horder : order = front ++ i :: back)
    (hi : items[i]? = some (.take number)) (hj : j ∈ back)
    (hskip : items[j]? = some (.skip skipped)) : number < skipped := by
  have hne : j ≠ i := by
    have hnodup := h.nodup
    rw [horder, List.nodup_append, List.nodup_cons] at hnodup
    rintro rfl
    exact hnodup.2.1.1 hj
  rcases Nat.lt_or_gt_of_ne hne with hlt | hgt
  · -- a number that is left out is not overtaken
    exfalso
    obtain ⟨middle, last, rfl⟩ := List.append_of_mem hj
    have hsplit : order = (front ++ i :: middle) ++ j :: last := by
      rw [horder, List.append_assoc, List.cons_append]
    obtain ⟨other, htake⟩ := h.late_at hsplit
      (List.mem_append_right front (List.mem_cons_self ..)) hlt
    rw [hskip] at htake
    cases htake
  · exact hordered.at hgt hi hskip

theorem mem_skippedOf {items : List Item} {number : Nat} :
    number ∈ skippedOf items ↔ .skip number ∈ items := by
  simp only [skippedOf, List.mem_filterMap]
  constructor
  · rintro ⟨item, hmem, heq⟩
    cases item with
    | take other => cases heq
    | skip other =>
      cases heq
      exact hmem
  · intro hmem
    exact ⟨_, hmem, rfl⟩

theorem skippedOf_append (a b : List Item) : skippedOf (a ++ b) = skippedOf a ++ skippedOf b :=
  List.filterMap_append ..

theorem Delayed.perm_items (h : Delayed items second order) : second.Perm items := by
  have hperm : (second.map some).Perm (items.map some) := by
    rw [h.calls, (delayed_range items).calls]
    exact h.perm.map _
  exact (List.map_perm_map_iff (Option.some_injective _)).mp hperm

/-- Of the numbers that are left out, those up to a number that is taken have come before it. -/
theorem Delayed.countP_front (h : Delayed items second order) (hordered : Ordered items)
    {before after : List Item} {number : Nat} (heq : second = before ++ .take number :: after)
    (q : Nat → Bool) (hq : ∀ s, q s = true → s ≤ number) :
    (skippedOf before).countP q = (skippedOf items).countP q := by
  obtain ⟨front, i, back, horder, hi, -, hback⟩ := h.split heq
  have hperm : (skippedOf second).Perm (skippedOf items) := h.perm_items.filterMap _
  have hnone : (skippedOf after).countP q = 0 := by
    rw [List.countP_eq_zero]
    intro s hs hqs
    obtain ⟨j, hj, hskip⟩ := exists_index hback (mem_skippedOf.mp hs)
    have habove := h.back_above hordered horder hi hj hskip
    exact absurd (hq s hqs) (Nat.not_le_of_lt habove)
  rw [← hperm.countP_eq, heq, skippedOf_append, List.countP_append]
  have hsame : skippedOf (.take number :: after) = skippedOf after := rfl
  rw [hsame, hnone, Nat.add_zero]

theorem foldl_next_skipped_fst (calls : List Item) (d : Delivered) :
    (calls.foldl Delivered.next d).skipped.map Prod.fst =
      d.skipped.map Prod.fst ++ skippedOf calls := by
  induction calls generalizing d with
  | nil => simp [skippedOf]
  | cons item calls ih =>
    rw [List.foldl_cons, ih]
    cases item with
    | take number =>
      rw [Delivered.next]
      split <;> rfl
    | skip number => simp [Delivered.next, skippedOf, Item.skipped?]

theorem foldl_next_newest_lt {bound : Nat} (calls : List Item) (d : Delivered)
    (hd : d.newest < bound) (hcalls : ∀ item ∈ calls, item.number < bound) :
    (calls.foldl Delivered.next d).newest < bound := by
  induction calls generalizing d with
  | nil => exact hd
  | cons item calls ih =>
    refine ih _ ?_ fun other hmem => hcalls other (List.mem_cons_of_mem _ hmem)
    have hnumber := hcalls item (List.mem_cons_self ..)
    cases item with
    | take number =>
      rw [Delivered.next]
      split
      · exact hd
      · exact Nat.max_lt.mpr ⟨hd, hnumber⟩
    | skip number => exact hd

/-- The call leaves a number out above this one. -/
def skipsAbove (number : Nat) : Option Item → Bool
  | some (.skip s) => number < s
  | _ => false

/-- A call of the second run comes where it may. -/
theorem Delayed.placed (h : Delayed items second order) (hordered : Ordered items) {start : Nat}
    (hstart : ∀ item ∈ items, start < item.number) {before after : List Item} {item : Item}
    (heq : second = before ++ item :: after) :
    (before.foldl Delivered.next ⟨start, []⟩).Placed (skippedOf items) item := by
  obtain ⟨front, i, back, horder, hi, hfront, -⟩ := h.split heq
  have hskipped := foldl_next_skipped_fst before ⟨start, []⟩
  rw [List.map_nil, List.nil_append] at hskipped
  cases item with
  | take number =>
    refine ⟨?_, ?_, ?_⟩
    · -- what is above the number has overtaken it
      rw [hskipped]
      refine Nat.lt_of_le_of_lt ?_ (h.few_at horder)
      calc (skippedOf before).countP (number < ·)
          = before.countP (skipsAbove number ∘ some) := by
            rw [skippedOf, List.countP_filterMap]
            apply List.countP_congr
            intro call _
            cases call <;> simp [Item.skipped?, skipsAbove]
        _ = (front.map (items[·]?)).countP (skipsAbove number) := by
            rw [← hfront, List.countP_map]
        _ = front.countP (skipsAbove number ∘ (items[·]?)) := List.countP_map
        _ ≤ front.countP (i < ·) := by
            apply List.countP_mono_left
            intro j hj habove
            simp only [Function.comp, skipsAbove] at habove
            split at habove
            · rename_i s hs
              rcases Nat.lt_or_gt_of_ne (h.front_ne horder hj) with hlt | hgt
              · have hle : s ≤ number := hordered.at hlt hs hi
                exact absurd (of_decide_eq_true habove) (Nat.not_lt_of_le hle)
              · exact decide_eq_true hgt
            · cases habove
    · rw [hskipped]
      exact h.countP_front hordered heq _ fun s hs => Nat.le_of_lt (of_decide_eq_true hs)
    · have hcount := h.countP_front hordered heq (· = number) fun s hs =>
        Nat.le_of_eq (of_decide_eq_true hs)
      have hmem (calls : List Item) :
          number ∈ skippedOf calls ↔ 0 < (skippedOf calls).countP (· = number) := by
        rw [List.countP_pos_iff]
        simp
      rw [hskipped, hmem, hmem, hcount]
  | skip number =>
    have hbelow : ∀ call ∈ before, call.number < number := by
      intro call hmem
      obtain ⟨j, hj, hcall⟩ := exists_index hfront hmem
      rcases Nat.lt_or_gt_of_ne (h.front_ne horder hj) with hlt | hgt
      · exact hordered.at hlt hcall hi
      · obtain ⟨other, htake⟩ := h.late_at horder hj hgt
        rw [hi] at htake
        cases htake
    refine ⟨foldl_next_newest_lt before _ ?_ hbelow, ?_⟩
    · exact hstart (.skip number) (List.mem_of_getElem? hi)
    · intro s hs
      rw [hskipped] at hs
      exact hbelow _ (mem_skippedOf.mp hs)

theorem allPlaced_of_splits {all : List Nat} {calls : List Item} {d : Delivered}
    (h : ∀ before item after, calls = before ++ item :: after →
      (before.foldl Delivered.next d).Placed all item) : d.AllPlaced all calls := by
  induction calls generalizing d with
  | nil => trivial
  | cons item calls ih =>
    refine ⟨h [] item calls rfl, ih fun before other after heq => ?_⟩
    exact h (item :: before) other after (by rw [heq, List.cons_append])

/-! ### The results of both runs -/

/-- The largest output is on the circle. -/
theorem call_maxOutput {max : Nat} {r r' : SeqRewrite} (hpos : 0 < max) (h : r.maxOutput < max)
    {c : Call} {result : Option Nat} (hcall : r.call max c = .ok (result, r')) :
    r'.maxOutput < max := by
  have hstart (input : Nat) (r₁ : SeqRewrite) (h₁ : r.start max input = .ok r₁) :
      r₁.maxOutput = r.maxOutput := by
    unfold start at h₁
    split at h₁
    · simp only [Except.bind_eq_ok, sync] at h₁
      obtain ⟨value, -, r₂, ⟨-, -, base, -, hsync⟩, hend⟩ := h₁
      cases hsync
      split at hend
      · cases hend
        simp [offset]
      · cases hend
        rfl
    · cases h₁
      rfl
  have hextended (r₁ r₂ : SeqRewrite) (value extended : Nat)
      (h₁ : r₁.extendedSeq max value = .ok (extended, r₂)) : r₂.maxOutput = r₁.maxOutput := by
    simp only [extendedSeq, Except.bind_eq_ok] at h₁
    obtain ⟨-, -, hend⟩ := h₁
    split at hend
    · cases hend
      rfl
    · cases hend
      rfl
  cases c with
  | reinit =>
    cases hcall
    exact h
  | offset amount =>
    cases hcall
    unfold SeqRewrite.offset
    split
    · exact h
    · exact h
  | dropValue input =>
    simp only [SeqRewrite.call, dropValue, Except.bind_eq_ok] at hcall
    obtain ⟨r₃, ⟨-, -, r₁, h₁, ⟨extended, r₂⟩, h₂, hend⟩, heq⟩ := hcall
    cases heq
    have hsame := (hextended _ _ _ _ h₂).trans (hstart _ _ h₁)
    rw [← hsame] at h
    split at hend
    · split at hend
      · simp only [Except.bind_eq_ok] at hend
        obtain ⟨base, -, hlast⟩ := hend
        cases hlast
        exact h
      · cases hend
        exact h
    · split at hend
      · simp only [Except.bind_eq_ok] at hend
        obtain ⟨base, -, hlast⟩ := hend
        cases hlast
        exact h
      · cases hend
        exact h
  | generate input =>
    simp only [SeqRewrite.call, SeqRewrite.generate, Except.bind_eq_ok] at hcall
    obtain ⟨-, -, r₁, h₁, ⟨extended, r₂⟩, h₂, hend⟩ := hcall
    have hsame := (hextended _ _ _ _ h₂).trans (hstart _ _ h₁)
    rw [← hsame] at h
    split at hend
    · cases hend
      exact h
    · simp only [Except.bind_eq_ok] at hend
      obtain ⟨base, -, idelta, -, odelta, -, hlast⟩ := hend
      cases hlast
      have hout : wrappingAdd max input base < max := Nat.mod_lt _ hpos
      split
      · exact hout
      · split
        · exact h
        · exact h

theorem run_maxOutput {max : Nat} {r r' : SeqRewrite} (hpos : 0 < max) (h : r.maxOutput < max)
    {calls : List Call} {trace : Trace} (hrun : r.run max calls = .ok (trace, r')) :
    r'.maxOutput < max := by
  induction calls generalizing r trace with
  | nil =>
    cases hrun
    exact h
  | cons c calls ih =>
    simp only [SeqRewrite.run, Except.bind_eq_ok] at hrun
    obtain ⟨⟨result, r₁⟩, hcall, ⟨trace₁, r₂⟩, hrest, heq⟩ := hrun
    cases heq
    exact ih (call_maxOutput hpos h hcall) hrest

/-- A run from the start of a source: the results are those of the numbers, wherever they come. -/
theorem Delayed.run (h : Delayed items second order) (hordered : Ordered items)
    (hreinit : r.reinit = true) (hmax : r.maxOutput < 65536) {first : Item}
    (hitems : items.head? = some first) (hsecond : second.head? = some first)
    (hmeets : Delivered.AllMeet ⟨first.number - 1, []⟩ second) :
    ∃ r', r.run 65536 (second.map Item.call) = .ok (second.map fun item => (item.call,
      item.result (r.synced 65536 (ahead 65536 (first.number % 65536) 1)).base
        (skippedOf items)), r') := by
  obtain ⟨rest, rfl⟩ := List.head?_eq_some_iff.mp hsecond
  obtain ⟨others, rfl⟩ := List.head?_eq_some_iff.mp hitems
  have hpos := hordered.positive first (List.mem_cons_self ..)
  have hstart : ∀ item ∈ first :: others, first.number - 1 < item.number := by
    intro item hmem
    rcases List.mem_cons.mp hmem with rfl | hother
    · omega
    · have hbefore := (List.pairwise_cons.mp hordered.before).1 item hother
      cases item with
      | take number =>
        have hle : first.number ≤ number := hbefore
        change first.number - 1 < number
        omega
      | skip number =>
        have hlt : first.number < number := hbefore
        change first.number - 1 < number
        omega
  rw [run_of_reinit hreinit hmax]
  refine (synced_knows hpos hmax).run hmeets (allPlaced_of_splits ?_)
  intro before item after heq
  exact h.placed hordered hstart heq

/-- **Late numbers have their results.**  If all calls of both runs meet the condition, and the
    first number is not late, then each call returns the same in both runs, and a number that is
    taken has no result if and only if it was left out. -/
theorem run_reordered (calls : List Call) (trace : Trace) (r : SeqRewrite)
    (hreached : new.run 65536 calls = .ok (trace, r)) (hreinit : r.reinit = true)
    (items second : List Item) (order : List Nat) (hordered : Ordered items)
    (hdelayed : Delayed items second order) (first : Item) (hitems : items.head? = some first)
    (hfirst : second.head? = some first)
    (hmeets : Delivered.AllMeet ⟨first.number - 1, []⟩ items)
    (hmeets' : Delivered.AllMeet ⟨first.number - 1, []⟩ second) :
    ∃ trace₁ r₁ trace₂ r₂, r.run 65536 (items.map Item.call) = .ok (trace₁, r₁) ∧
      r.run 65536 (second.map Item.call) = .ok (trace₂, r₂) ∧
      (∀ k i : Nat, order[k]? = some i → trace₂[k]? = trace₁[i]?) ∧
      (∀ (i : Nat) number, items[i]? = some (.take number) →
        ∃ result, trace₁[i]? = some (.generate (number % 65536), result) ∧
          (result = none ↔ .skip number ∈ items)) := by
  have hmax : r.maxOutput < 65536 := run_maxOutput (by decide) (by decide) hreached
  obtain ⟨r₁, hrun₁⟩ := (delayed_range items).run hordered hreinit hmax hitems hitems hmeets
  obtain ⟨r₂, hrun₂⟩ := hdelayed.run hordered hreinit hmax hitems hfirst hmeets'
  refine ⟨_, r₁, _, r₂, hrun₁, hrun₂, ?_, ?_⟩
  · intro k i hk
    have hcall : (second.map some)[k]? = (order.map (items[·]?))[k]? :=
      congrArg (·[k]?) hdelayed.calls
    rw [List.getElem?_map, List.getElem?_map, hk, Option.map_some] at hcall
    have hsame : second[k]? = items[i]? := by
      cases hsecond : second[k]? with
      | none =>
        rw [hsecond] at hcall
        cases hcall
      | some item =>
        rw [hsecond] at hcall
        exact Option.some.inj hcall
    rw [List.getElem?_map, List.getElem?_map, hsame]
  · intro i number hi
    refine ⟨_, by rw [List.getElem?_map, hi]; rfl, ?_⟩
    rw [Item.result, resultOf, ← mem_skippedOf]
    split
    · rename_i hmem
      exact iff_of_true rfl hmem
    · rename_i hmem
      exact iff_of_false (fun hcontra => by cases hcontra) hmem

/-- A number that comes behind the next one and behind one that is left out. -/
theorem run_reordered_late :
    ∃ trace₁ r₁ trace₂ r₂,
      new.callReinit.run 65536 ([.take 7, .take 8, .skip 9, .take 10].map Item.call) =
        .ok (trace₁, r₁) ∧
      new.callReinit.run 65536 ([.take 7, .skip 9, .take 10, .take 8].map Item.call) =
        .ok (trace₂, r₂) ∧
      (∀ k i : Nat, [0, 2, 3, 1][k]? = some i → trace₂[k]? = trace₁[i]?) ∧
      (∀ (i : Nat) number,
        [Item.take 7, Item.take 8, Item.skip 9, Item.take 10][i]? = some (.take number) →
        ∃ result, trace₁[i]? = some (.generate (number % 65536), result) ∧
          (result = none ↔ .skip number ∈ [Item.take 7, Item.take 8, Item.skip 9, Item.take 10])) :=
  run_reordered [.reinit] [(.reinit, none)] new.callReinit rfl rfl
    [.take 7, .take 8, .skip 9, .take 10] [.take 7, .skip 9, .take 10, .take 8] [0, 2, 3, 1]
    ⟨by simp [Item.Before, Item.number], by simp [Item.number]⟩
    ⟨by decide, rfl, by simp, fun k i _ => Nat.lt_of_le_of_lt
      (List.countP_le_length.trans (List.length_take_le' ..)) (by decide)⟩
    (.take 7) rfl rfl
    (by simp [Delivered.AllMeet, Delivered.Meets, Delivered.next, Item.number])
    (by simp [Delivered.AllMeet, Delivered.Meets, Delivered.next, Item.number])

/-- A number before a wrap-around that has been crossed, with one left out behind it, has the result
    of another.  So has a number behind one that has crossed the wrap-around by being left out, and
    the whole stream moves if the first number comes late. -/
theorem not_run_reordered :
    (Ordered [.take 65534, .take 65535, .take 65536, .skip 65537, .take 65538] ∧
      Delayed [.take 65534, .take 65535, .take 65536, .skip 65537, .take 65538]
        [.take 65534, .take 65536, .skip 65537, .take 65538, .take 65535] [0, 2, 3, 4, 1] ∧
      ∃ trace₁ r₁ trace₂ r₂,
        new.callReinit.run 65536 ([.take 65534, .take 65535, .take 65536, .skip 65537,
          .take 65538].map Item.call) = .ok (trace₁, r₁) ∧
        new.callReinit.run 65536 ([.take 65534, .take 65536, .skip 65537, .take 65538,
          .take 65535].map Item.call) = .ok (trace₂, r₂) ∧
        trace₁[1]? = some (.generate 65535, some 2) ∧
        trace₂[4]? = some (.generate 65535, some 1)) ∧
    (∃ trace₁ r₁ trace₂ r₂,
      new.callReinit.run 65536 ([.take 65535, .take 65536, .skip 65537,
        .take 65538].map Item.call) = .ok (trace₁, r₁) ∧
      new.callReinit.run 65536 ([.take 65535, .skip 65537, .take 65538,
        .take 65536].map Item.call) = .ok (trace₂, r₂) ∧
      trace₁[1]? = some (.generate 0, some 2) ∧ trace₂[3]? = some (.generate 0, some 1)) ∧
    (∃ trace₁ r₁ trace₂ r₂,
      new.callReinit.run 65536 ([.take 10, .take 11].map Item.call) = .ok (trace₁, r₁) ∧
      new.callReinit.run 65536 ([.take 11, .take 10].map Item.call) = .ok (trace₂, r₂) ∧
      trace₁[0]? = some (.generate 10, some 1) ∧ trace₂[1]? = some (.generate 10, some 0)) := by
  refine ⟨⟨⟨by simp [Item.Before, Item.number], by simp [Item.number]⟩,
    ⟨by decide, rfl, by simp, fun k i _ => Nat.lt_of_le_of_lt
      (List.countP_le_length.trans (List.length_take_le' ..)) (by decide)⟩,
    _, _, _, _, rfl, rfl, ?_, ?_⟩, ⟨_, _, _, _, rfl, rfl, ?_, ?_⟩, _, _, _, _, rfl, rfl, ?_, ?_⟩
  · decide
  · decide
  · decide
  · decide
  · decide
  · decide

end MediaServer.SeqRewrite
