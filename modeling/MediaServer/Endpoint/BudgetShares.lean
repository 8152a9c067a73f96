import Mathlib.Algebra.Order.BigOperators.Group.List
import Mathlib.Algebra.Order.Ring.Nat
import Mathlib.Tactic.NormNum
import MediaServer.Endpoint.BitrateAllocator
import MediaServer.Lib.TaskGroup

/-!
# The shares of a budget

What a division of the bandwidth gives to the tracks.  The priorities come from the clients and
are any 32-bit numbers; their sum is taken in 32 bits as well, so it may overflow.  A build with
checks then panics, and one without goes on with the remainder: `checkedProcess` is `process` with
the checks.
-/

namespace MediaServer.Endpoint

open Collections

/-! ### Checked arithmetic -/

/-- `a + b` of priorities. -/
def checkedAdd (a b : TrackPriority) : Except Panic TrackPriority :=
  if a.toNat + b.toNat < 2 ^ 32 then .ok (a + b) else .error ⟨"attempt to add with overflow"⟩

/-- `a * b` of bitrates. -/
def checkedMul (a b : UInt64) : Except Panic UInt64 :=
  if a.toNat * b.toNat < 2 ^ 64 then .ok (a * b) else .error ⟨"attempt to multiply with overflow"⟩

/-- `a / b` of bitrates. -/
def checkedDiv (a b : UInt64) : Except Panic UInt64 :=
  if b = 0 then .error ⟨"attempt to divide by zero"⟩ else .ok (a / b)

def checkedSum {Id : Type} (tracks : IndexMap Id TrackPriority) : Except Panic TrackPriority :=
  tracks.values.foldlM checkedAdd 0

def checkedShare (bitrate : UInt64) (priority sum : TrackPriority) : Except Panic UInt64 := do
  let product ← checkedMul bitrate priority.toUInt64
  checkedDiv product sum.toUInt64

/-- The shares of all tracks. -/
def checkedShares {Id : Type} (bitrate : UInt64) (sum : TrackPriority) :
    List (Id × TrackPriority) → Except Panic (List (Id × UInt64))
  | [] => .ok []
  | (id, priority) :: entries => do
    let granted ← checkedShare bitrate priority sum
    let rest ← checkedShares bitrate sum entries
    return (id, granted) :: rest

/-- `EgressBitrateAllocator::process`. -/
def EgressBitrateAllocator.checkedProcess (a : EgressBitrateAllocator) :
    Except Panic EgressBitrateAllocator := do
  if a.changed then
    let useBitrate := min a.egressBitrate a.maxEgressBitrate
    let sum ← checkedSum a.tracks
    let shares ← if sum = 0 then .ok [] else checkedShares useBitrate sum a.tracks.entries
    let tracks := shares.map fun entry => EgressOutput.track entry.1 (.setBitrate entry.2)
    let bwe ← if a.tracks.isEmpty then .ok (.bweConfig noTrackBweCurrent noTrackBweDesired)
      else do
        let product ← checkedMul useBitrate 6
        .ok (.bweConfig useBitrate (min (product / 5) a.maxEgressBitrate))
    return { a with changed := false, queue := a.queue ++ (tracks ++ [bwe]) }
  else return a

/-- `IngressBitrateAllocator::process`. -/
def IngressBitrateAllocator.checkedProcess (a : IngressBitrateAllocator) :
    Except Panic IngressBitrateAllocator := do
  if a.changed then
    let sum ← checkedSum a.tracks
    let shares ← if sum = 0 then .ok [] else checkedShares a.ingressBitrate sum a.tracks.entries
    let tracks := shares.map fun entry => (entry.1, IngressAction.setBitrate entry.2)
    return { a with changed := false, queue := a.queue ++ tracks }
  else return a

/-! ### A partition of a budget -/

/-- The budget is divided among the tracks. -/
structure Partition {Id : Type} [DecidableEq Id] (tracks : IndexMap Id TrackPriority)
    (budget : UInt64) (grants : List (Id × UInt64)) : Prop where
  /-- Every registered track gets one share, and nobody else any. -/
  once : ∀ id, (grants.map Prod.fst).count id = if id ∈ tracks.keys then 1 else 0
  total : (grants.map fun grant => grant.2.toNat).sum ≤ budget.toNat
  ordered : ∀ id priority granted id' priority' granted', (id, priority) ∈ tracks.entries →
    (id', priority') ∈ tracks.entries → (id, granted) ∈ grants → (id', granted') ∈ grants →
    priority < priority' → granted ≤ granted'

/-- A division by the egress allocator does not overflow, and queues a partition of the budget. -/
def EgressBitrateAllocator.Partitions (a : EgressBitrateAllocator) : Prop :=
  ∃ grants current desired, a.checkedProcess = .ok a.process ∧
    a.process.queue = a.queue ++ (grants.map fun grant =>
      EgressOutput.track grant.1 (.setBitrate grant.2)) ++
        [EgressOutput.bweConfig current desired] ∧
    Partition a.tracks (min a.egressBitrate a.maxEgressBitrate) grants

/-- A division by the ingress allocator does not overflow, and queues a partition of the budget. -/
def IngressBitrateAllocator.Partitions (a : IngressBitrateAllocator) : Prop :=
  ∃ grants, a.checkedProcess = .ok a.process ∧
    a.process.queue = a.queue ++ (grants.map fun grant =>
      (grant.1, IngressAction.setBitrate grant.2)) ∧
    Partition a.tracks a.ingressBitrate grants

/-- The sum of the priorities, as a number. -/
def totalPriority {Id : Type} (tracks : IndexMap Id TrackPriority) : Nat :=
  (tracks.values.map UInt32.toNat).sum

/-! ### Sums and shares as numbers -/

theorem foldlM_checkedAdd (priorities : List TrackPriority) (acc : TrackPriority) :
    priorities.foldlM checkedAdd acc =
        (if acc.toNat + (priorities.map UInt32.toNat).sum < 2 ^ 32 then
          .ok (priorities.foldl (· + ·) acc)
        else .error ⟨"attempt to add with overflow"⟩) ∧
      (acc.toNat + (priorities.map UInt32.toNat).sum < 2 ^ 32 →
        (priorities.foldl (· + ·) acc).toNat = acc.toNat + (priorities.map UInt32.toNat).sum) := by
  induction priorities generalizing acc with
  | nil =>
    have hlt := acc.toNat_lt
    simp only [List.foldlM_nil, List.map_nil, List.sum_nil, Nat.add_zero, List.foldl_nil]
    rw [if_pos hlt]
    exact ⟨rfl, fun _ => trivial⟩
  | cons priority priorities ih =>
    obtain ⟨hfold, hvalue⟩ := ih (acc + priority)
    simp only [List.foldlM_cons, List.map_cons, List.sum_cons, List.foldl_cons]
    by_cases hone : acc.toNat + priority.toNat < 2 ^ 32
    · have hadd : (acc + priority).toNat = acc.toNat + priority.toNat := by
        rw [UInt32.toNat_add]
        exact Nat.mod_eq_of_lt hone
      rw [hadd, Nat.add_assoc] at hfold hvalue
      rw [checkedAdd, if_pos hone]
      exact ⟨hfold, hvalue⟩
    · rw [checkedAdd, if_neg hone, if_neg (by omega)]
      exact ⟨rfl, fun hlt => by omega⟩

/-- The sum of priorities that fits in its type. -/
theorem checkedSum_eq {Id : Type} (tracks : IndexMap Id TrackPriority) :
    checkedSum tracks =
        (if totalPriority tracks < 2 ^ 32 then .ok (prioritySum tracks)
        else .error ⟨"attempt to add with overflow"⟩) ∧
      (totalPriority tracks < 2 ^ 32 → (prioritySum tracks).toNat = totalPriority tracks) := by
  have hfold := foldlM_checkedAdd tracks.values 0
  simp only [UInt32.toNat_zero, Nat.zero_add] at hfold
  exact hfold

theorem le_totalPriority {Id : Type} {tracks : IndexMap Id TrackPriority} {id : Id}
    {priority : TrackPriority} (h : (id, priority) ∈ tracks.entries) :
    priority.toNat ≤ totalPriority tracks := by
  have hmem : priority ∈ tracks.values := List.mem_map_of_mem h
  exact List.single_le_sum (fun _ _ => Nat.zero_le _) _ (List.mem_map_of_mem hmem)

/-- **A share is not more than the budget**, even if the product overflows. -/
theorem share_le {bitrate : UInt64} {priority sum : TrackPriority}
    (h : priority.toNat ≤ sum.toNat) : share bitrate priority sum ≤ bitrate := by
  rw [UInt64.le_iff_toNat_le, share, UInt64.toNat_div, UInt64.toNat_mul, UInt32.toNat_toUInt64,
    UInt32.toNat_toUInt64]
  calc bitrate.toNat * priority.toNat % 2 ^ 64 / sum.toNat
      ≤ bitrate.toNat * priority.toNat / sum.toNat := Nat.div_le_div_right (Nat.mod_le _ _)
    _ ≤ bitrate.toNat * sum.toNat / sum.toNat :=
        Nat.div_le_div_right (Nat.mul_le_mul_left _ h)
    _ ≤ bitrate.toNat := by
        rw [Nat.mul_comm]
        exact Nat.div_le_of_le_mul (Nat.le_refl _)

theorem product_lt {bitrate : UInt64} (hbudget : bitrate.toNat < 2 ^ 32)
    (priority : TrackPriority) : bitrate.toNat * priority.toNat < 2 ^ 64 := by
  have hsquare : (2 : Nat) ^ 64 = 2 ^ 32 * 2 ^ 32 := by norm_num
  rw [hsquare]
  exact Nat.mul_lt_mul'' hbudget priority.toNat_lt

theorem toNat_share {bitrate : UInt64} (hbudget : bitrate.toNat < 2 ^ 32)
    (priority sum : TrackPriority) :
    (share bitrate priority sum).toNat = bitrate.toNat * priority.toNat / sum.toNat := by
  have hproduct : bitrate.toNat * priority.toNat < 2 ^ 64 := product_lt hbudget priority
  rw [share, UInt64.toNat_div, UInt64.toNat_mul, UInt32.toNat_toUInt64, UInt32.toNat_toUInt64,
    Nat.mod_eq_of_lt hproduct]

theorem checkedShare_eq_ok {bitrate : UInt64} (hbudget : bitrate.toNat < 2 ^ 32)
    {priority sum : TrackPriority} (hsum : sum ≠ 0) :
    checkedShare bitrate priority sum = .ok (share bitrate priority sum) := by
  have hproduct : bitrate.toNat * priority.toUInt64.toNat < 2 ^ 64 := by
    rw [UInt32.toNat_toUInt64]
    exact product_lt hbudget priority
  have hdivisor : sum.toUInt64 ≠ 0 := by
    intro hzero
    apply hsum
    rw [← UInt32.toNat_inj, UInt32.toNat_zero, ← UInt32.toNat_toUInt64, hzero]
    rfl
  simp only [checkedShare, checkedMul, if_pos hproduct, checkedDiv, if_neg hdivisor, share, bind,
    Except.bind]

theorem checkedShares_eq_ok {Id : Type} {bitrate : UInt64} (hbudget : bitrate.toNat < 2 ^ 32)
    {sum : TrackPriority} (hsum : sum ≠ 0) (entries : List (Id × TrackPriority)) :
    checkedShares bitrate sum entries =
      .ok (entries.map fun entry => (entry.1, share bitrate entry.2 sum)) := by
  induction entries with
  | nil => rfl
  | cons entry entries ih =>
    obtain ⟨id, priority⟩ := entry
    simp only [checkedShares, checkedShare_eq_ok hbudget hsum, ih, List.map_cons, bind,
      Except.bind, pure, Except.pure]

/-- The shares of a budget do not add up to more than the budget. -/
theorem sum_share_le (budget total : Nat) (priorities : List Nat) :
    (priorities.map fun priority => budget * priority / total).sum ≤
      budget * priorities.sum / total := by
  induction priorities with
  | nil => simp
  | cons priority priorities ih =>
    rw [List.map_cons, List.sum_cons, List.sum_cons, Nat.mul_add]
    calc budget * priority / total +
          (priorities.map fun priority => budget * priority / total).sum
        ≤ budget * priority / total + budget * priorities.sum / total :=
          Nat.add_le_add_left ih _
      _ ≤ (budget * priority + budget * priorities.sum) / total := Nat.div_add_div_le_add_div

theorem partition_shares {Id : Type} [DecidableEq Id] {tracks : IndexMap Id TrackPriority}
    {budget : UInt64} (hbudget : budget.toNat < 2 ^ 32) (hfits : totalPriority tracks < 2 ^ 32) :
    Partition tracks budget
      (tracks.entries.map fun entry => (entry.1, share budget entry.2 (prioritySum tracks))) := by
  have hsum := (checkedSum_eq tracks).2 hfits
  have hvalues : (fun entry : Id × TrackPriority =>
      (share budget entry.2 (prioritySum tracks)).toNat) =
      fun entry => budget.toNat * entry.2.toNat / totalPriority tracks := by
    funext entry
    rw [toNat_share hbudget, hsum]
  refine ⟨?_, ?_, ?_⟩
  · intro id
    rw [List.map_map]
    have hkeys : tracks.entries.map (Prod.fst ∘ fun entry =>
        (entry.1, share budget entry.2 (prioritySum tracks))) = tracks.keys := rfl
    rw [hkeys]
    split
    · rename_i hmem
      exact List.count_eq_one_of_mem tracks.nodupKeys hmem
    · rename_i hnot
      exact List.count_eq_zero_of_not_mem hnot
  · rw [List.map_map]
    calc (tracks.entries.map ((fun grant => grant.2.toNat) ∘ fun entry =>
          (entry.1, share budget entry.2 (prioritySum tracks)))).sum
        = ((tracks.values.map UInt32.toNat).map fun priority =>
            budget.toNat * priority / totalPriority tracks).sum := by
          rw [IndexMap.values, List.map_map, List.map_map]
          exact congrArg (fun f => (tracks.entries.map f).sum) hvalues
      _ ≤ budget.toNat * totalPriority tracks / totalPriority tracks := sum_share_le ..
      _ ≤ budget.toNat := by
          rw [Nat.mul_comm]
          exact Nat.div_le_of_le_mul (Nat.le_refl _)
  · intro id priority granted id' priority' granted' he he' hg hg' hlt
    obtain ⟨⟨_, p⟩, hmem, heq⟩ := List.mem_map.mp hg
    obtain ⟨⟨_, p'⟩, hmem', heq'⟩ := List.mem_map.mp hg'
    cases heq
    cases heq'
    obtain rfl := IndexMap.eq_of_mem_entries he hmem
    obtain rfl := IndexMap.eq_of_mem_entries he' hmem'
    rw [UInt64.le_iff_toNat_le, toNat_share hbudget, toNat_share hbudget]
    exact Nat.div_le_div_right (Nat.mul_le_mul_left _
      (Nat.le_of_lt (UInt32.lt_iff_toNat_lt.mp hlt)))

theorem prioritySum_ne_zero {Id : Type} {tracks : IndexMap Id TrackPriority}
    (hfits : totalPriority tracks < 2 ^ 32) (hsome : ∃ entry ∈ tracks.entries, entry.2 ≠ 0) :
    prioritySum tracks ≠ 0 := by
  obtain ⟨⟨id, priority⟩, hmem, hne⟩ := hsome
  intro hzero
  have hsum := (checkedSum_eq tracks).2 hfits
  have hle := le_totalPriority hmem
  rw [← hsum, hzero, UInt32.toNat_zero, Nat.le_zero] at hle
  exact hne (UInt32.toNat_inj.mp hle)

theorem EgressBitrateAllocator.partitions_iff {a : EgressBitrateAllocator}
    (hchanged : a.changed = true) (hsome : ∃ entry ∈ a.tracks.entries, entry.2 ≠ 0)
    (hbudget : (min a.egressBitrate a.maxEgressBitrate).toNat < 2 ^ 32) :
    a.Partitions ↔ totalPriority a.tracks < 2 ^ 32 := by
  obtain ⟨hsum, -⟩ := checkedSum_eq a.tracks
  constructor
  · rintro ⟨grants, current, desired, hprocess, -, -⟩
    by_contra hover
    rw [if_neg hover] at hsum
    rw [checkedProcess, if_pos hchanged, hsum] at hprocess
    cases hprocess
  · intro hfits
    rw [if_pos hfits] at hsum
    have hnonzero := prioritySum_ne_zero hfits hsome
    have hfilled : a.tracks.isEmpty = false := by
      obtain ⟨entry, hmem, -⟩ := hsome
      rw [IndexMap.isEmpty, List.isEmpty_eq_false_iff]
      exact List.ne_nil_of_mem hmem
    have hsix : (min a.egressBitrate a.maxEgressBitrate).toNat * (6 : UInt64).toNat < 2 ^ 64 := by
      rw [show (6 : UInt64).toNat = 6 from rfl]
      omega
    have hqueue : a.process.queue = a.queue ++ (a.tracks.entries.map fun entry =>
        (entry.1, share (min a.egressBitrate a.maxEgressBitrate) entry.2
          (prioritySum a.tracks))).map (fun grant =>
          EgressOutput.track grant.1 (.setBitrate grant.2)) ++
        [EgressOutput.bweConfig (min a.egressBitrate a.maxEgressBitrate)
          (min (min a.egressBitrate a.maxEgressBitrate * 6 / 5) a.maxEgressBitrate)] := by
      rw [process, if_pos hchanged, allocation]
      simp only [if_neg hnonzero, hfilled, Bool.false_eq_true, if_false, List.map_map,
        List.append_assoc]
      rfl
    refine ⟨_, _, _, ?_, hqueue, partition_shares hbudget hfits⟩
    rw [checkedProcess, if_pos hchanged]
    simp only [hsum, if_neg hnonzero, checkedShares_eq_ok hbudget hnonzero, hfilled,
      Bool.false_eq_true, if_false, checkedMul, if_pos hsix, bind, Except.bind, pure, Except.pure]
    rw [process, if_pos hchanged, allocation]
    simp only [if_neg hnonzero, hfilled, Bool.false_eq_true, if_false, List.map_map]
    rfl

theorem IngressBitrateAllocator.partitions_iff {a : IngressBitrateAllocator}
    (hchanged : a.changed = true) (hsome : ∃ entry ∈ a.tracks.entries, entry.2 ≠ 0)
    (hbudget : a.ingressBitrate.toNat < 2 ^ 32) :
    a.Partitions ↔ totalPriority a.tracks < 2 ^ 32 := by
  obtain ⟨hsum, -⟩ := checkedSum_eq a.tracks
  constructor
  · rintro ⟨grants, hprocess, -, -⟩
    by_contra hover
    rw [if_neg hover] at hsum
    rw [checkedProcess, if_pos hchanged, hsum] at hprocess
    cases hprocess
  · intro hfits
    rw [if_pos hfits] at hsum
    have hnonzero := prioritySum_ne_zero hfits hsome
    have hqueue : a.process.queue = a.queue ++ (a.tracks.entries.map fun entry =>
        (entry.1, share a.ingressBitrate entry.2 (prioritySum a.tracks))).map (fun grant =>
          (grant.1, IngressAction.setBitrate grant.2)) := by
      rw [process, if_pos hchanged, allocation]
      simp only [if_neg hnonzero, List.map_map]
      rfl
    refine ⟨_, ?_, hqueue, partition_shares hbudget hfits⟩
    rw [checkedProcess, if_pos hchanged]
    simp only [hsum, if_neg hnonzero, checkedShares_eq_ok hbudget hnonzero, bind, Except.bind,
      pure, Except.pure]
    rw [process, if_pos hchanged, allocation]
    simp only [if_neg hnonzero, List.map_map]
    rfl

/-- **Both allocators partition their budgets exactly when the priorities add up to a 32-bit
    number.** -/
theorem process_partitions (a : EgressBitrateAllocator) (b : IngressBitrateAllocator)
    (hegress : a.changed = true) (hingress : b.changed = true)
    (hsome : ∃ entry ∈ a.tracks.entries, entry.2 ≠ 0)
    (hsome' : ∃ entry ∈ b.tracks.entries, entry.2 ≠ 0)
    (hbudget : (min a.egressBitrate a.maxEgressBitrate).toNat < 2 ^ 32)
    (hbudget' : b.ingressBitrate.toNat < 2 ^ 32) :
    (a.Partitions ↔ totalPriority a.tracks < 2 ^ 32) ∧
      (b.Partitions ↔ totalPriority b.tracks < 2 ^ 32) :=
  ⟨a.partitions_iff hegress hsome hbudget, b.partitions_iff hingress hsome' hbudget'⟩

/-- An egress allocator with a priority of its client's choice for each of two tracks. -/
def twoEgress (first second : TrackPriority) : EgressBitrateAllocator :=
  ((EgressBitrateAllocator.new 2500000).setVideoTrack 0 first).setVideoTrack 1 second

/-- An ingress allocator with two such tracks. -/
def twoIngress (first second : TrackPriority) : IngressBitrateAllocator :=
  ((IngressBitrateAllocator.new 2000000).setVideoTrack 0 first).setVideoTrack 1 second

theorem process_partitions_oneToThree :
    ((twoEgress 1 3).Partitions ↔ totalPriority (twoEgress 1 3).tracks < 2 ^ 32) ∧
      ((twoIngress 1 3).Partitions ↔ totalPriority (twoIngress 1 3).tracks < 2 ^ 32) :=
  process_partitions (twoEgress 1 3) (twoIngress 1 3) rfl rfl ⟨(0, 1), by decide, by decide⟩
    ⟨(0, 1), by decide, by decide⟩ (by decide) (by decide)

/-- Two tracks with half the range each: the sum overflows, and without the check it is zero and no
    track gets anything. -/
theorem not_partitions :
    (twoEgress 2147483648 2147483648).checkedProcess =
        .error ⟨"attempt to add with overflow"⟩ ∧
      ¬(twoEgress 2147483648 2147483648).Partitions ∧
      (twoEgress 2147483648 2147483648).process.queue = [.bweConfig 800000 960000] ∧
      (twoIngress 2147483648 2147483648).checkedProcess =
        .error ⟨"attempt to add with overflow"⟩ ∧
      ¬(twoIngress 2147483648 2147483648).Partitions ∧
      (twoIngress 2147483648 2147483648).process.queue = [] := by
  have hegress : (twoEgress 2147483648 2147483648).checkedProcess =
      .error ⟨"attempt to add with overflow"⟩ := rfl
  have hingress : (twoIngress 2147483648 2147483648).checkedProcess =
      .error ⟨"attempt to add with overflow"⟩ := rfl
  refine ⟨hegress, ?_, rfl, hingress, ?_, rfl⟩
  · rintro ⟨grants, current, desired, hprocess, -, -⟩
    rw [hegress] at hprocess
    cases hprocess
  · rintro ⟨grants, hprocess, -, -⟩
    rw [hingress] at hprocess
    cases hprocess

end MediaServer.Endpoint
