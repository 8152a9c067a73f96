import MediaServer.Lib.Machine
import MediaServer.Protocol
import Mathlib.Algebra.GroupWithZero.Nat
import Mathlib.Data.List.Sort
import Mathlib.Order.Basic

/-!
# Service store of a gateway

`packages/media_gateway/src/store/service.rs`.  For one kind of service a gateway
knows the media nodes of its own zone and, for every other zone, the gateways that
offer the service there.  Both are lists in order of usage, refreshed by pings and
pruned by ticks.

The distance between two locations is a floating-point computation; here it is a
parameter with values in a linear order, and so is the type of locations.
-/

namespace MediaServer.Gateway

abbrev ZoneId := UInt32

/-- `ZoneId::from_node_id`. -/
def ZoneId.fromNodeId (node : NodeId) : ZoneId := node >>> 8

inductive ServiceKind where
  | webrtc
  | rtpEngine
deriving Repr

structure ServiceStats where
  live : UInt32
  max : UInt32
  active : Bool
deriving DecidableEq, Repr

/-- `PING_TIMEOUT`, in milliseconds. -/
def pingTimeout : Nat := 5000

structure NodeSource where
  node : NodeId
  usage : UInt8
  stats : ServiceStats
  lastUpdated : Nat
deriving Repr

/-! ### Lists of nodes -/

namespace NodeSource

/-- The order of `NodeSource`, by usage alone. -/
def Before (s t : NodeSource) : Prop := s.usage ≤ t.usage

instance : DecidableRel Before := fun s t => inferInstanceAs (Decidable (s.usage ≤ t.usage))

instance : Std.Total Before := ⟨fun s t => UInt8.le_total s.usage t.usage⟩

instance : IsTrans NodeSource Before := ⟨fun _ _ _ => UInt8.le_trans⟩

/-- `Vec::sort`, which keeps the order of equal elements. -/
def sort (sources : List NodeSource) : List NodeSource := sources.insertionSort Before

/-- The source of the node is updated, or a new one is pushed.  The statistics of a
    known node stay those of its first ping. -/
def update (now : Nat) (node : NodeId) (usage : UInt8) (stats : ServiceStats) :
    List NodeSource → List NodeSource
  | [] => [⟨node, usage, stats, now⟩]
  | s :: rest =>
    if s.node = node then { s with usage, lastUpdated := now } :: rest
    else s :: update now node usage stats rest

def remove (node : NodeId) (sources : List NodeSource) : List NodeSource :=
  sources.eraseP fun s => s.node = node

def retain (now : Nat) (sources : List NodeSource) : List NodeSource :=
  sources.filter fun s => now < s.lastUpdated + pingTimeout

/-- In order of usage, with no node twice. -/
structure Ranked (sources : List NodeSource) : Prop where
  sorted : sources.Pairwise Before
  nodup : (sources.map node).Nodup

/-- The list has the node, with this usage since this time. -/
def Lists (sources : List NodeSource) (node : NodeId) (usage : UInt8) (since : Nat) : Prop :=
  ∃ s ∈ sources, s.node = node ∧ s.usage = usage ∧ s.lastUpdated = since

/-- The node is one of the least used. -/
def IsLeast (sources : List NodeSource) (node : NodeId) : Prop :=
  ∃ s ∈ sources, s.node = node ∧ ∀ t ∈ sources, s.usage ≤ t.usage

variable {sources : List NodeSource} {now : Nat} {node : NodeId} {usage : UInt8}
  {stats : ServiceStats}

theorem Ranked.nil : Ranked [] := ⟨List.Pairwise.nil, List.nodup_nil⟩

theorem Ranked.eq_of_node (h : Ranked sources) {s t : NodeSource} (hs : s ∈ sources)
    (ht : t ∈ sources) (heq : s.node = t.node) : s = t :=
  List.inj_on_of_nodup_map h.nodup hs ht heq

theorem mem_sort {s : NodeSource} : s ∈ sort sources ↔ s ∈ sources := List.mem_insertionSort _

theorem lists_sort {node' : NodeId} {usage' : UInt8} {since : Nat} :
    Lists (sort sources) node' usage' since ↔ Lists sources node' usage' since := by
  simp only [Lists, mem_sort]

theorem ranked_sort (h : (sources.map NodeSource.node).Nodup) : Ranked (sort sources) := by
  refine ⟨List.pairwise_insertionSort Before sources, ?_⟩
  exact ((List.perm_insertionSort Before sources).map _).nodup_iff.mpr h

theorem Ranked.sort_eq (h : Ranked sources) : sort sources = sources := h.sorted.insertionSort_eq

theorem update_nil :
    update now node usage stats [] = [⟨node, usage, stats, now⟩] := rfl

theorem update_cons_of_eq {s : NodeSource} {rest : List NodeSource} (h : s.node = node) :
    update now node usage stats (s :: rest) = { s with usage, lastUpdated := now } :: rest :=
  if_pos h

theorem update_cons_of_ne {s : NodeSource} {rest : List NodeSource} (h : s.node ≠ node) :
    update now node usage stats (s :: rest) = s :: update now node usage stats rest :=
  if_neg h

theorem map_node_update :
    (update now node usage stats sources).map NodeSource.node =
      if node ∈ sources.map NodeSource.node then sources.map NodeSource.node
      else sources.map NodeSource.node ++ [node] := by
  induction sources with
  | nil => simp [update_nil]
  | cons s rest ih =>
    by_cases hs : s.node = node
    · simp [update_cons_of_eq hs, hs]
    · rw [update_cons_of_ne hs, List.map_cons, ih, List.map_cons]
      by_cases hmem : node ∈ rest.map NodeSource.node
      · simp [hmem]
      · simp [hmem, Ne.symm hs]

theorem nodup_update (h : (sources.map NodeSource.node).Nodup) :
    ((update now node usage stats sources).map NodeSource.node).Nodup := by
  rw [map_node_update]
  split
  · exact h
  · rename_i hnot
    refine List.Nodup.append h (List.nodup_singleton _) ?_
    intro other hmem hother
    rw [List.mem_singleton.mp hother] at hmem
    exact hnot hmem

theorem mem_update_of_ne {s : NodeSource} (hs : s.node ≠ node) :
    s ∈ update now node usage stats sources ↔ s ∈ sources := by
  induction sources with
  | nil =>
    rw [update_nil, List.mem_singleton]
    refine iff_of_false ?_ (by simp)
    rintro rfl
    exact hs rfl
  | cons t rest ih =>
    by_cases ht : t.node = node
    · rw [update_cons_of_eq ht, List.mem_cons, List.mem_cons]
      have hnew : s ≠ { t with usage, lastUpdated := now } := by
        rintro rfl
        exact hs ht
      have hold : s ≠ t := by
        rintro rfl
        exact hs ht
      simp [hnew, hold]
    · rw [update_cons_of_ne ht, List.mem_cons, List.mem_cons, ih]

theorem lists_update_self (h : (sources.map NodeSource.node).Nodup) {usage' : UInt8}
    {since : Nat} :
    Lists (update now node usage stats sources) node usage' since ↔
      usage' = usage ∧ since = now := by
  induction sources with
  | nil => simp [Lists, update_nil, eq_comm]
  | cons t rest ih =>
    rw [List.map_cons, List.nodup_cons] at h
    by_cases ht : t.node = node
    · rw [update_cons_of_eq ht]
      constructor
      · rintro ⟨s, hmem, hnode, rfl, rfl⟩
        rcases List.mem_cons.mp hmem with rfl | hmem
        · exact ⟨rfl, rfl⟩
        · exact absurd (List.mem_map.mpr ⟨s, hmem, hnode.trans ht.symm⟩) h.1
      · rintro ⟨rfl, rfl⟩
        exact ⟨_, List.mem_cons_self .., ht, rfl, rfl⟩
    · rw [update_cons_of_ne ht, ← ih h.2]
      simp [Lists, ht]

theorem lists_update_of_ne {node' : NodeId} (hne : node' ≠ node) {usage' : UInt8}
    {since : Nat} :
    Lists (update now node usage stats sources) node' usage' since ↔
      Lists sources node' usage' since := by
  constructor
  · rintro ⟨s, hmem, rfl, husage, hsince⟩
    exact ⟨s, (mem_update_of_ne hne).mp hmem, rfl, husage, hsince⟩
  · rintro ⟨s, hmem, rfl, husage, hsince⟩
    exact ⟨s, (mem_update_of_ne hne).mpr hmem, rfl, husage, hsince⟩

theorem Ranked.remove (h : Ranked sources) (node : NodeId) :
    Ranked (NodeSource.remove node sources) := by
  have hsub : (NodeSource.remove node sources).Sublist sources := List.eraseP_sublist
  exact ⟨h.sorted.sublist hsub, h.nodup.sublist (hsub.map _)⟩

theorem Ranked.mem_remove (h : Ranked sources) {s : NodeSource} :
    s ∈ NodeSource.remove node sources ↔ s ∈ sources ∧ s.node ≠ node := by
  constructor
  · intro hmem
    refine ⟨List.mem_of_mem_eraseP hmem, ?_⟩
    rintro rfl
    -- the first source of the node is removed, and no other has the same node
    have hs : s ∈ sources := List.mem_of_mem_eraseP hmem
    obtain ⟨t, before, after, hbefore, ht, hsplit, herase⟩ :=
      List.exists_of_eraseP hs (p := fun t => t.node = s.node) (by simp)
    have hnodup := h.nodup
    rw [NodeSource.remove, herase] at hmem
    rw [hsplit, List.map_append, List.map_cons] at hnodup
    have hnot : t.node ∉ (before ++ after).map NodeSource.node := by
      rw [List.map_append]
      exact (List.nodup_middle.mp hnodup).notMem
    refine hnot (List.mem_map.mpr ⟨s, hmem, ?_⟩)
    exact (of_decide_eq_true ht).symm
  · rintro ⟨hmem, hne⟩
    exact (List.mem_eraseP_of_neg (by simpa using hne)).mpr hmem

theorem Ranked.lists_remove (h : Ranked sources) {node' : NodeId} {usage' : UInt8}
    {since : Nat} :
    Lists (NodeSource.remove node sources) node' usage' since ↔
      node' ≠ node ∧ Lists sources node' usage' since := by
  constructor
  · rintro ⟨s, hmem, rfl, husage, hsince⟩
    obtain ⟨hmem, hne⟩ := h.mem_remove.mp hmem
    exact ⟨hne, s, hmem, rfl, husage, hsince⟩
  · rintro ⟨hne, s, hmem, rfl, husage, hsince⟩
    exact ⟨s, h.mem_remove.mpr ⟨hmem, hne⟩, rfl, husage, hsince⟩

theorem Ranked.retain (h : Ranked sources) (now : Nat) : Ranked (NodeSource.retain now sources) :=
  have hsub : (NodeSource.retain now sources).Sublist sources := List.filter_sublist
  ⟨h.sorted.sublist hsub, h.nodup.sublist (hsub.map _)⟩

theorem lists_retain {node' : NodeId} {usage' : UInt8} {since : Nat} :
    Lists (retain now sources) node' usage' since ↔
      Lists sources node' usage' since ∧ now < since + pingTimeout := by
  constructor
  · rintro ⟨s, hmem, hnode, husage, rfl⟩
    obtain ⟨hmem, hnow⟩ := List.mem_filter.mp hmem
    exact ⟨⟨s, hmem, hnode, husage, rfl⟩, of_decide_eq_true hnow⟩
  · rintro ⟨⟨s, hmem, hnode, husage, rfl⟩, hnow⟩
    exact ⟨s, List.mem_filter.mpr ⟨hmem, decide_eq_true hnow⟩, hnode, husage, rfl⟩

theorem Ranked.isLeast_head (h : Ranked sources) {s : NodeSource} {rest : List NodeSource}
    (heq : sources = s :: rest) : IsLeast sources s.node := by
  subst heq
  refine ⟨s, List.mem_cons_self .., rfl, ?_⟩
  intro t ht
  rcases List.mem_cons.mp ht with rfl | ht
  · exact UInt8.le_refl _
  · exact List.rel_of_pairwise_cons h.sorted ht

end NodeSource

/-! ### Lists of zones -/

/-- Another zone, with the gateways that offer the service there. -/
structure ZoneSource (Location : Type) where
  zone : ZoneId
  usage : UInt8
  location : Location
  lastUpdated : Nat
  gateways : List NodeSource

namespace ZoneSource

variable {Location : Type}

/-- The gateways that the list has for a zone. -/
def gatewaysOf (zones : List (ZoneSource Location)) (zone : ZoneId) : List NodeSource :=
  match zones.find? fun z => z.zone = zone with
  | some z => z.gateways
  | none => []

/-- The zone is updated, or a new one is pushed.  The location of a known zone stays that
    of its first ping. -/
def update (now : Nat) (zone : ZoneId) (gateway : NodeId) (gatewayUsage : UInt8)
    (location : Location) (usage : UInt8) (stats : ServiceStats) :
    List (ZoneSource Location) → List (ZoneSource Location)
  | [] => [⟨zone, usage, location, now, [⟨gateway, gatewayUsage, stats, now⟩]⟩]
  | z :: rest =>
    if z.zone = zone then
      { z with
        usage := usage
        lastUpdated := now
        gateways := NodeSource.sort
          (NodeSource.update now gateway gatewayUsage stats z.gateways) } :: rest
    else z :: update now zone gateway gatewayUsage location usage stats rest

/-- The gateway is removed from the zone, and the zone with its last gateway. -/
def remove (zone : ZoneId) (gateway : NodeId) :
    List (ZoneSource Location) → List (ZoneSource Location)
  | [] => []
  | z :: rest =>
    if z.zone = zone then
      if (NodeSource.remove gateway z.gateways).isEmpty then rest
      else { z with gateways := NodeSource.remove gateway z.gateways } :: rest
    else z :: remove zone gateway rest

def retain (now : Nat) (zones : List (ZoneSource Location)) : List (ZoneSource Location) :=
  (zones.map fun z => { z with gateways := NodeSource.retain now z.gateways }).filter
    fun z => !z.gateways.isEmpty

/-- No zone twice, none without a gateway, and the gateways of each in order of usage. -/
structure Ranked (zones : List (ZoneSource Location)) : Prop where
  nodup : (zones.map ZoneSource.zone).Nodup
  staffed : ∀ z ∈ zones, z.gateways ≠ []
  ranked : ∀ z ∈ zones, NodeSource.Ranked z.gateways

variable {zones : List (ZoneSource Location)} {now : Nat} {zone : ZoneId} {gateway : NodeId}
  {gatewayUsage usage : UInt8} {location : Location} {stats : ServiceStats}

theorem Ranked.nil : Ranked ([] : List (ZoneSource Location)) :=
  ⟨List.nodup_nil, by simp, by simp⟩

theorem Ranked.tail {z : ZoneSource Location} (h : Ranked (z :: zones)) : Ranked zones :=
  ⟨(List.nodup_cons.mp h.nodup).2, fun other hmem => h.staffed other (List.mem_cons_of_mem _ hmem),
    fun other hmem => h.ranked other (List.mem_cons_of_mem _ hmem)⟩

@[simp] theorem gatewaysOf_nil (zone : ZoneId) :
    gatewaysOf ([] : List (ZoneSource Location)) zone = [] := rfl

theorem gatewaysOf_cons (z : ZoneSource Location) (zones : List (ZoneSource Location))
    (zone : ZoneId) :
    gatewaysOf (z :: zones) zone = if z.zone = zone then z.gateways else gatewaysOf zones zone := by
  by_cases hz : z.zone = zone
  · simp [gatewaysOf, hz]
  · simp [gatewaysOf, hz]

theorem gatewaysOf_eq_nil_of_not_mem (h : zone ∉ zones.map ZoneSource.zone) :
    gatewaysOf zones zone = [] := by
  induction zones with
  | nil => rfl
  | cons z rest ih =>
    rw [List.map_cons, List.mem_cons, not_or] at h
    rw [gatewaysOf_cons, if_neg (Ne.symm h.1)]
    exact ih h.2

theorem Ranked.gatewaysOf (h : Ranked zones) (zone : ZoneId) :
    NodeSource.Ranked (gatewaysOf zones zone) := by
  induction zones with
  | nil => exact NodeSource.Ranked.nil
  | cons z rest ih =>
    rw [gatewaysOf_cons]
    split
    · exact h.ranked z (List.mem_cons_self ..)
    · exact ih h.tail

/-- A zone is known exactly if it has a gateway. -/
theorem Ranked.gatewaysOf_ne_nil (h : Ranked zones) :
    ZoneSource.gatewaysOf zones zone ≠ [] ↔ ∃ z ∈ zones, z.zone = zone := by
  induction zones with
  | nil => simp
  | cons z rest ih =>
    rw [gatewaysOf_cons]
    by_cases hz : z.zone = zone
    · rw [if_pos hz]
      exact iff_of_true (h.staffed z (List.mem_cons_self ..)) ⟨z, List.mem_cons_self .., hz⟩
    · rw [if_neg hz, ih h.tail]
      simp [hz]

theorem Ranked.gatewaysOf_eq (h : Ranked zones) {z : ZoneSource Location} (hz : z ∈ zones) :
    ZoneSource.gatewaysOf zones z.zone = z.gateways := by
  induction zones with
  | nil => cases hz
  | cons first rest ih =>
    rw [gatewaysOf_cons]
    rcases List.mem_cons.mp hz with rfl | hmem
    · rw [if_pos rfl]
    · have hne : first.zone ≠ z.zone := by
        intro heq
        have hnot := (List.nodup_cons.mp h.nodup).1
        exact hnot (List.mem_map.mpr ⟨z, hmem, heq.symm⟩)
      rw [if_neg hne]
      exact ih h.tail hmem

theorem update_nil :
    update now zone gateway gatewayUsage location usage stats [] =
      [⟨zone, usage, location, now, [⟨gateway, gatewayUsage, stats, now⟩]⟩] := rfl

theorem update_cons (z : ZoneSource Location) (rest : List (ZoneSource Location)) :
    update now zone gateway gatewayUsage location usage stats (z :: rest) =
      if z.zone = zone then
        { z with
          usage := usage
          lastUpdated := now
          gateways := NodeSource.sort
            (NodeSource.update now gateway gatewayUsage stats z.gateways) } :: rest
      else z :: update now zone gateway gatewayUsage location usage stats rest := rfl

theorem remove_cons (z : ZoneSource Location) (rest : List (ZoneSource Location)) :
    remove zone gateway (z :: rest) =
      if z.zone = zone then
        if (NodeSource.remove gateway z.gateways).isEmpty then rest
        else { z with gateways := NodeSource.remove gateway z.gateways } :: rest
      else z :: remove zone gateway rest := rfl

theorem mem_map_zone_update {other : ZoneId} :
    other ∈ (update now zone gateway gatewayUsage location usage stats zones).map
        ZoneSource.zone ↔ other = zone ∨ other ∈ zones.map ZoneSource.zone := by
  induction zones with
  | nil => simp [update_nil]
  | cons z rest ih =>
    by_cases hz : z.zone = zone
    · subst hz
      simp [update_cons]
    · rw [update_cons, if_neg hz, List.map_cons, List.map_cons, List.mem_cons, List.mem_cons, ih]
      tauto

theorem NodeSource.update_ne_nil {sources : List NodeSource} :
    NodeSource.update now gateway usage stats sources ≠ [] := by
  cases sources with
  | nil => simp [NodeSource.update_nil]
  | cons s rest =>
    by_cases hs : s.node = gateway
    · simp [NodeSource.update_cons_of_eq hs]
    · simp [NodeSource.update_cons_of_ne hs]

theorem Ranked.update (h : Ranked zones) :
    Ranked (ZoneSource.update now zone gateway gatewayUsage location usage stats zones) := by
  induction zones with
  | nil =>
    refine ⟨List.nodup_singleton _, ?_, ?_⟩
    · simp [update_nil]
    · intro z hz
      rw [List.mem_singleton.mp hz]
      exact ⟨List.pairwise_singleton _ _, List.nodup_singleton _⟩
  | cons z rest ih =>
    have hnodup := List.nodup_cons.mp h.nodup
    rw [update_cons]
    split
    · rename_i hz
      refine ⟨h.nodup, ?_, ?_⟩
      · intro other hmem
        rcases List.mem_cons.mp hmem with rfl | hmem
        · intro hnil
          have hlength := congrArg List.length hnil
          rw [NodeSource.sort, List.length_insertionSort, List.length_nil,
            List.length_eq_zero_iff] at hlength
          exact NodeSource.update_ne_nil hlength
        · exact h.tail.staffed other hmem
      · intro other hmem
        rcases List.mem_cons.mp hmem with rfl | hmem
        · exact NodeSource.ranked_sort
            (NodeSource.nodup_update (h.ranked z (List.mem_cons_self ..)).nodup)
        · exact h.tail.ranked other hmem
    · rename_i hz
      have htail := ih h.tail
      refine ⟨?_, ?_, ?_⟩
      · rw [List.map_cons, List.nodup_cons, mem_map_zone_update, not_or]
        exact ⟨⟨hz, hnodup.1⟩, htail.nodup⟩
      · intro other hmem
        rcases List.mem_cons.mp hmem with rfl | hmem
        · exact h.staffed _ (List.mem_cons_self ..)
        · exact htail.staffed other hmem
      · intro other hmem
        rcases List.mem_cons.mp hmem with rfl | hmem
        · exact h.ranked _ (List.mem_cons_self ..)
        · exact htail.ranked other hmem

theorem gatewaysOf_update (other : ZoneId) :
    gatewaysOf (update now zone gateway gatewayUsage location usage stats zones) other =
      if other = zone then
        NodeSource.sort (NodeSource.update now gateway gatewayUsage stats (gatewaysOf zones zone))
      else gatewaysOf zones other := by
  induction zones with
  | nil =>
    rw [update_nil, gatewaysOf_cons, gatewaysOf_nil]
    by_cases hother : other = zone
    · rw [if_pos hother.symm, if_pos hother]
      rfl
    · rw [if_neg (Ne.symm hother), if_neg hother]
  | cons z rest ih =>
    by_cases hz : z.zone = zone
    · rw [update_cons, if_pos hz, gatewaysOf_cons, gatewaysOf_cons, gatewaysOf_cons, if_pos hz]
      by_cases hother : other = zone
      · rw [if_pos hother, if_pos (hz.trans hother.symm)]
      · have hne : z.zone ≠ other := by
          rw [hz]
          exact Ne.symm hother
        rw [if_neg hother, if_neg hne, if_neg hne]
    · rw [update_cons, if_neg hz, gatewaysOf_cons, ih]
      by_cases hother : other = zone
      · subst hother
        simp [gatewaysOf_cons, hz]
      · simp [gatewaysOf_cons, hother]

theorem map_zone_remove_sublist (zones : List (ZoneSource Location)) :
    ((remove zone gateway zones).map ZoneSource.zone).Sublist (zones.map ZoneSource.zone) := by
  induction zones with
  | nil => exact List.Sublist.slnil
  | cons z rest ih =>
    rw [remove_cons]
    split
    · split
      · exact List.sublist_cons_self ..
      · exact List.Sublist.refl _
    · exact ih.cons_cons _

theorem Ranked.remove (h : Ranked zones) : Ranked (ZoneSource.remove zone gateway zones) := by
  induction zones with
  | nil => exact Ranked.nil
  | cons z rest ih =>
    refine ⟨h.nodup.sublist (map_zone_remove_sublist _), ?_, ?_⟩
    · intro other hmem
      rw [remove_cons] at hmem
      split at hmem
      · split at hmem
        · exact h.tail.staffed other hmem
        · rename_i hsome
          rcases List.mem_cons.mp hmem with rfl | hmem
          · simpa using hsome
          · exact h.tail.staffed other hmem
      · rcases List.mem_cons.mp hmem with rfl | hmem
        · exact h.staffed _ (List.mem_cons_self ..)
        · exact (ih h.tail).staffed other hmem
    · intro other hmem
      rw [remove_cons] at hmem
      split at hmem
      · split at hmem
        · exact h.tail.ranked other hmem
        · rcases List.mem_cons.mp hmem with rfl | hmem
          · exact (h.ranked z (List.mem_cons_self ..)).remove gateway
          · exact h.tail.ranked other hmem
      · rcases List.mem_cons.mp hmem with rfl | hmem
        · exact h.ranked _ (List.mem_cons_self ..)
        · exact (ih h.tail).ranked other hmem

theorem Ranked.gatewaysOf_remove (h : Ranked zones) (other : ZoneId) :
    ZoneSource.gatewaysOf (ZoneSource.remove zone gateway zones) other =
      if other = zone then NodeSource.remove gateway (ZoneSource.gatewaysOf zones zone)
      else ZoneSource.gatewaysOf zones other := by
  induction zones with
  | nil =>
    split
    · rfl
    · rfl
  | cons z rest ih =>
    by_cases hz : z.zone = zone
    · rw [remove_cons, if_pos hz, gatewaysOf_cons, gatewaysOf_cons, if_pos hz]
      -- the zone occurs once, so nothing of it is left behind
      have hgone : ZoneSource.gatewaysOf rest zone = [] := by
        refine gatewaysOf_eq_nil_of_not_mem ?_
        rw [← hz]
        exact (List.nodup_cons.mp h.nodup).1
      by_cases hother : other = zone
      · rw [if_pos hother, hother]
        split
        · rename_i hempty
          rw [hgone]
          exact (List.isEmpty_iff.mp hempty).symm
        · rw [gatewaysOf_cons, if_pos hz]
      · have hne : z.zone ≠ other := by
          rw [hz]
          exact Ne.symm hother
        rw [if_neg hother, if_neg hne]
        split
        · rfl
        · rw [gatewaysOf_cons, if_neg hne]
    · rw [remove_cons, if_neg hz, gatewaysOf_cons, ih h.tail]
      by_cases hother : other = zone
      · subst hother
        simp [gatewaysOf_cons, hz]
      · simp [gatewaysOf_cons, hother]

theorem retain_cons (z : ZoneSource Location) :
    retain now (z :: zones) =
      if (NodeSource.retain now z.gateways).isEmpty then retain now zones
      else { z with gateways := NodeSource.retain now z.gateways } :: retain now zones := by
  simp only [retain, List.map_cons, List.filter_cons]
  split <;> simp_all

theorem Ranked.retain (h : Ranked zones) (now : Nat) : Ranked (ZoneSource.retain now zones) := by
  refine ⟨?_, ?_, ?_⟩
  · have hmap : (zones.map fun z =>
        { z with gateways := NodeSource.retain now z.gateways }).map ZoneSource.zone =
          zones.map ZoneSource.zone := by
      rw [List.map_map]
      rfl
    have hnodup := h.nodup
    rw [← hmap] at hnodup
    exact hnodup.sublist (List.filter_sublist.map _)
  · intro z hz
    simpa using (List.mem_filter.mp hz).2
  · intro z hz
    obtain ⟨z₀, hz₀, rfl⟩ := List.mem_map.mp (List.mem_filter.mp hz).1
    exact (h.ranked z₀ hz₀).retain now

theorem Ranked.gatewaysOf_retain (h : Ranked zones) (zone : ZoneId) :
    ZoneSource.gatewaysOf (ZoneSource.retain now zones) zone =
      NodeSource.retain now (ZoneSource.gatewaysOf zones zone) := by
  induction zones with
  | nil => rfl
  | cons z rest ih =>
    rw [retain_cons, gatewaysOf_cons]
    by_cases hz : z.zone = zone
    · rw [if_pos hz]
      split
      · rename_i hempty
        have hgone : ZoneSource.gatewaysOf rest zone = [] := by
          refine gatewaysOf_eq_nil_of_not_mem ?_
          rw [← hz]
          exact (List.nodup_cons.mp h.nodup).1
        rw [ih h.tail, hgone, List.isEmpty_iff.mp hempty]
        rfl
      · rw [gatewaysOf_cons, if_pos hz]
    · rw [if_neg hz, ← ih h.tail]
      split
      · rfl
      · rw [gatewaysOf_cons, if_neg hz]

end ZoneSource

/-! ### The store -/

structure ServiceStore (Location : Type) where
  zone : ZoneId
  kind : ServiceKind
  location : Location
  localSources : List NodeSource
  zoneSources : List (ZoneSource Location)

namespace ServiceStore

variable {Location : Type}

def new (zone : ZoneId) (kind : ServiceKind) (location : Location) : ServiceStore Location :=
  ⟨zone, kind, location, [], []⟩

def onTick (store : ServiceStore Location) (now : Nat) : ServiceStore Location :=
  { store with
    localSources := NodeSource.retain now store.localSources
    zoneSources := ZoneSource.retain now store.zoneSources }

def onNodePing (store : ServiceStore Location) (now : Nat) (node : NodeId) (usage : UInt8)
    (stats : ServiceStats) : ServiceStore Location :=
  { store with
    localSources := NodeSource.sort (NodeSource.update now node usage stats store.localSources) }

def removeNode (store : ServiceStore Location) (node : NodeId) : ServiceStore Location :=
  { store with localSources := NodeSource.remove node store.localSources }

/-- The last line sorts the nodes of the own zone, as the source does. -/
def onGatewayPing (store : ServiceStore Location) (now : Nat) (zone : ZoneId) (gateway : NodeId)
    (gatewayUsage : UInt8) (location : Location) (usage : UInt8) (stats : ServiceStats) :
    ServiceStore Location :=
  { store with
    zoneSources := ZoneSource.update now zone gateway gatewayUsage location usage stats
      store.zoneSources
    localSources := NodeSource.sort store.localSources }

def removeGateway (store : ServiceStore Location) (zone : ZoneId) (gateway : NodeId) :
    ServiceStore Location :=
  { store with zoneSources := ZoneSource.remove zone gateway store.zoneSources }

/-- If the node is of this zone, itself if it is known; else a gateway of its zone. -/
def destFor (store : ServiceStore Location) (dest : NodeId) : Option NodeId :=
  if ZoneId.fromNodeId dest = store.zone then
    if store.localSources.any fun s => s.node = dest then some dest else none
  else
    match store.zoneSources.find? fun z => z.zone = ZoneId.fromNodeId dest with
    | some z => z.gateways.head?.map NodeSource.node
    | none => none

/-- `u32` addition, checked. -/
def checkedAdd (a b : UInt32) : Except Panic UInt32 :=
  if a.toNat + b.toNat < UInt32.size then .ok (a + b)
  else .error ⟨"attempt to add with overflow"⟩

/-- The loop of `local_stats`. -/
def sumStats : ServiceStats → List NodeSource → Except Panic ServiceStats
  | stats, [] => .ok stats
  | stats, s :: rest => do
      let live ← checkedAdd stats.live s.stats.live
      let max ← checkedAdd stats.max s.stats.max
      sumStats ⟨live, max, stats.active || s.stats.active⟩ rest

def localStats (store : ServiceStore Location) : Except Panic (Option ServiceStats) :=
  if store.localSources.isEmpty then .ok none
  else do
    let stats ← sumStats ⟨0, 0, false⟩ store.localSources
    .ok (some stats)

/-- The sums of `local_stats` fit their type. -/
def SumsFit (store : ServiceStore Location) : Prop :=
  (store.localSources.map fun s => s.stats.live.toNat).sum < UInt32.size ∧
    (store.localSources.map fun s => s.stats.max.toNat).sum < UInt32.size

instance (store : ServiceStore Location) : Decidable store.SumsFit :=
  inferInstanceAs (Decidable (_ ∧ _))

theorem sumStats_ok {sources : List NodeSource} (stats : ServiceStats)
    (hlive : stats.live.toNat + (sources.map fun s => s.stats.live.toNat).sum < UInt32.size)
    (hmax : stats.max.toNat + (sources.map fun s => s.stats.max.toNat).sum < UInt32.size) :
    ∃ stats', sumStats stats sources = .ok stats' := by
  induction sources generalizing stats with
  | nil => exact ⟨stats, rfl⟩
  | cons s rest ih =>
    rw [List.map_cons, List.sum_cons] at hlive hmax
    have hlive' : stats.live.toNat + s.stats.live.toNat < UInt32.size := by omega
    have hmax' : stats.max.toNat + s.stats.max.toNat < UInt32.size := by omega
    simp only [sumStats, checkedAdd, if_pos hlive', if_pos hmax', bind, Except.bind]
    refine ih _ ?_ ?_
    · rw [UInt32.toNat_add, Nat.mod_eq_of_lt hlive']
      omega
    · rw [UInt32.toNat_add, Nat.mod_eq_of_lt hmax']
      omega

theorem SumsFit.localStats_ok {store : ServiceStore Location} (h : store.SumsFit) :
    ∃ stats, store.localStats = .ok stats := by
  rw [localStats]
  split
  · exact ⟨none, rfl⟩
  · obtain ⟨stats, hstats⟩ := sumStats_ok ⟨0, 0, false⟩
      (by simpa using h.1) (by simpa using h.2)
    exact ⟨some stats, by simp only [hstats, bind, Except.bind]⟩

/-- The lists of a store are in order. -/
structure Ranked (store : ServiceStore Location) : Prop where
  nodes : NodeSource.Ranked store.localSources
  zones : ZoneSource.Ranked store.zoneSources

theorem Ranked.new (zone : ZoneId) (kind : ServiceKind) (location : Location) :
    Ranked (ServiceStore.new zone kind location) :=
  ⟨NodeSource.Ranked.nil, ZoneSource.Ranked.nil⟩

section Operations

variable {store : ServiceStore Location}

theorem Ranked.onTick (h : store.Ranked) (now : Nat) : (store.onTick now).Ranked :=
  ⟨h.nodes.retain now, h.zones.retain now⟩

theorem Ranked.onNodePing (h : store.Ranked) (now : Nat) (node : NodeId) (usage : UInt8)
    (stats : ServiceStats) : (store.onNodePing now node usage stats).Ranked :=
  ⟨NodeSource.ranked_sort (NodeSource.nodup_update h.nodes.nodup), h.zones⟩

theorem Ranked.removeNode (h : store.Ranked) (node : NodeId) : (store.removeNode node).Ranked :=
  ⟨h.nodes.remove node, h.zones⟩

theorem Ranked.onGatewayPing (h : store.Ranked) (now : Nat) (zone : ZoneId) (gateway : NodeId)
    (gatewayUsage : UInt8) (location : Location) (usage : UInt8) (stats : ServiceStats) :
    (store.onGatewayPing now zone gateway gatewayUsage location usage stats).Ranked :=
  ⟨NodeSource.ranked_sort h.nodes.nodup, h.zones.update⟩

theorem Ranked.removeGateway (h : store.Ranked) (zone : ZoneId) (gateway : NodeId) :
    (store.removeGateway zone gateway).Ranked :=
  ⟨h.nodes, h.zones.remove⟩

end Operations

/-! ### Selection -/

section Selection

variable {D : Type} [LinearOrder D] (distance : Location → Location → D)

/-- The loop of `best_for` over the other zones. -/
def bestFrom (location : Location) :
    D → Option NodeId → List (ZoneSource Location) → Option NodeId
  | _, minNode, [] => minNode
  | minDis, minNode, z :: rest =>
    if minNode = none ∨ distance location z.location < minDis then
      bestFrom location (distance location z.location) (z.gateways.head?.map NodeSource.node) rest
    else bestFrom location minDis minNode rest

def bestFor (store : ServiceStore Location) (location : Option Location) : Option NodeId :=
  let location := location.getD store.location
  bestFrom distance location (distance store.location location)
    (store.localSources.head?.map NodeSource.node) store.zoneSources

/-- The loop ends with the nearest zone if that is nearer than the start, or if there
    was no start; else with the start. -/
theorem bestFrom_spec {zones : List (ZoneSource Location)}
    (hstaffed : ∀ z ∈ zones, z.gateways ≠ []) (location : Location) (minDis : D)
    (minNode : Option NodeId) :
    (∃ z ∈ zones, bestFrom distance location minDis minNode zones =
          z.gateways.head?.map NodeSource.node ∧
        (∀ z' ∈ zones, distance location z.location ≤ distance location z'.location) ∧
        (minNode ≠ none → distance location z.location < minDis)) ∨
      bestFrom distance location minDis minNode zones = minNode ∧
        (minNode = none → zones = []) ∧
        ∀ z ∈ zones, minDis ≤ distance location z.location := by
  induction zones generalizing minDis minNode with
  | nil => exact Or.inr ⟨rfl, fun _ => rfl, by simp⟩
  | cons z rest ih =>
    have hrest : ∀ z' ∈ rest, z'.gateways ≠ [] :=
      fun z' hz' => hstaffed z' (List.mem_cons_of_mem _ hz')
    rw [bestFrom]
    by_cases htake : minNode = none ∨ distance location z.location < minDis
    · rw [if_pos htake]
      have hnear : minNode ≠ none → distance location z.location < minDis := by
        intro hsome
        exact htake.resolve_left hsome
      have hsome : z.gateways.head?.map NodeSource.node ≠ none := by
        have hne := hstaffed z (List.mem_cons_self ..)
        cases hgateways : z.gateways with
        | nil => exact absurd hgateways hne
        | cons g gs => simp
      rcases ih hrest (distance location z.location) (z.gateways.head?.map NodeSource.node) with
        ⟨z', hz', hbest, hleast, hless⟩ | ⟨hbest, -, hleast⟩
      · have hlt := hless hsome
        refine Or.inl ⟨z', List.mem_cons_of_mem _ hz', hbest, ?_, ?_⟩
        · intro z'' hz''
          rcases List.mem_cons.mp hz'' with rfl | hz''
          · exact hlt.le
          · exact hleast z'' hz''
        · intro hmin
          exact hlt.trans (hnear hmin)
      · refine Or.inl ⟨z, List.mem_cons_self .., hbest, ?_, hnear⟩
        intro z' hz'
        rcases List.mem_cons.mp hz' with rfl | hz'
        · exact le_rfl
        · exact hleast z' hz'
    · rw [if_neg htake]
      rw [not_or, not_lt] at htake
      rcases ih hrest minDis minNode with ⟨z', hz', hbest, hleast, hless⟩ | ⟨hbest, hempty, hleast⟩
      · have hlt := hless htake.1
        refine Or.inl ⟨z', List.mem_cons_of_mem _ hz', hbest, ?_, hless⟩
        intro z'' hz''
        rcases List.mem_cons.mp hz'' with rfl | hz''
        · exact hlt.le.trans htake.2
        · exact hleast z'' hz''
      · refine Or.inr ⟨hbest, fun hnone => absurd hnone htake.1, ?_⟩
        intro z' hz'
        rcases List.mem_cons.mp hz' with rfl | hz'
        · exact htake.2
        · exact hleast z' hz'

/-- Where `best_for` may send a request for a location: to a least used node of the own
    zone if that has one and no other zone is nearer, or to a least used gateway of a
    nearest other zone if the own zone is empty or farther away. -/
inductive Chooses (store : ServiceStore Location) (location : Location) : Option NodeId → Prop
  | own {node : NodeId} (hleast : NodeSource.IsLeast store.localSources node)
      (hnear : ∀ z ∈ store.zoneSources,
        distance store.location location ≤ distance location z.location) :
      Chooses store location (some node)
  | zone {gateway : NodeId} (z : ZoneSource Location) (hz : z ∈ store.zoneSources)
      (hleast : NodeSource.IsLeast z.gateways gateway)
      (hnear : ∀ z' ∈ store.zoneSources,
        distance location z.location ≤ distance location z'.location)
      (hless : store.localSources ≠ [] →
        distance location z.location < distance store.location location) :
      Chooses store location (some gateway)
  | none (hlocal : store.localSources = []) (hzones : store.zoneSources = []) :
      Chooses store location none

/-- **Selection.** -/
theorem Ranked.bestFor_chooses {store : ServiceStore Location} (h : store.Ranked)
    (location : Option Location) :
    Chooses distance store (location.getD store.location) (store.bestFor distance location) := by
  have hspec := bestFrom_spec distance h.zones.staffed (location.getD store.location)
    (distance store.location (location.getD store.location))
    (store.localSources.head?.map NodeSource.node)
  rw [bestFor]
  rcases hspec with ⟨z, hz, hbest, hnear, hless⟩ | ⟨hbest, hempty, hnear⟩
  · rw [hbest]
    cases hgateways : z.gateways with
    | nil => exact absurd hgateways (h.zones.staffed z hz)
    | cons g gs =>
      refine Chooses.zone z hz ((h.zones.ranked z hz).isLeast_head hgateways) hnear ?_
      intro hlocal
      refine hless ?_
      cases hsources : store.localSources with
      | nil => exact absurd hsources hlocal
      | cons s rest => simp
  · rw [hbest]
    cases hsources : store.localSources with
    | nil =>
      rw [hsources] at hempty
      exact Chooses.none hsources (hempty rfl)
    | cons s rest => exact Chooses.own (h.nodes.isLeast_head hsources) hnear

theorem Ranked.bestFor_eq_none {store : ServiceStore Location} (h : store.Ranked)
    (location : Option Location) :
    store.bestFor distance location = none ↔
      store.localSources = [] ∧ store.zoneSources = [] := by
  constructor
  · intro hnone
    have hchooses := h.bestFor_chooses distance location
    rw [hnone] at hchooses
    cases hchooses with
    | none hlocal hzones => exact ⟨hlocal, hzones⟩
  · rintro ⟨hlocal, hzones⟩
    rw [bestFor, hlocal, hzones]
    rfl

end Selection

/-- **Destination in the own zone.** -/
theorem destFor_own {store : ServiceStore Location} {dest : NodeId}
    (hown : ZoneId.fromNodeId dest = store.zone) (node : NodeId) :
    store.destFor dest = some node ↔
      node = dest ∧ dest ∈ store.localSources.map NodeSource.node := by
  rw [destFor, if_pos hown]
  by_cases hmem : dest ∈ store.localSources.map NodeSource.node
  · have hany : (store.localSources.any fun s => s.node = dest) = true := by
      obtain ⟨s, hs, hnode⟩ := List.mem_map.mp hmem
      exact List.any_eq_true.mpr ⟨s, hs, decide_eq_true hnode⟩
    rw [if_pos hany]
    simp [hmem, eq_comm]
  · have hany : ¬ (store.localSources.any fun s => s.node = dest) = true := by
      intro hany
      obtain ⟨s, hs, hnode⟩ := List.any_eq_true.mp hany
      exact hmem (List.mem_map.mpr ⟨s, hs, of_decide_eq_true hnode⟩)
    rw [if_neg hany]
    simp [hmem]

theorem destFor_other {store : ServiceStore Location} {dest : NodeId}
    (hother : ZoneId.fromNodeId dest ≠ store.zone) :
    store.destFor dest =
      (ZoneSource.gatewaysOf store.zoneSources (ZoneId.fromNodeId dest)).head?.map
        NodeSource.node := by
  rw [destFor, if_neg hother, ZoneSource.gatewaysOf]
  cases store.zoneSources.find? fun z => z.zone = ZoneId.fromNodeId dest with
  | none => rfl
  | some z => rfl

/-- **Destination in another zone.** -/
theorem Ranked.destFor_other_isLeast {store : ServiceStore Location} (h : store.Ranked)
    {dest : NodeId} (hother : ZoneId.fromNodeId dest ≠ store.zone) :
    (∀ node, store.destFor dest = some node →
      NodeSource.IsLeast (ZoneSource.gatewaysOf store.zoneSources (ZoneId.fromNodeId dest)) node) ∧
    (store.destFor dest = none ↔
      ZoneSource.gatewaysOf store.zoneSources (ZoneId.fromNodeId dest) = []) := by
  rw [destFor_other hother]
  have hranked := h.zones.gatewaysOf (ZoneId.fromNodeId dest)
  cases hgateways : ZoneSource.gatewaysOf store.zoneSources (ZoneId.fromNodeId dest) with
  | nil => simp
  | cons g gs =>
    refine ⟨?_, by simp⟩
    intro node hnode
    cases hnode
    rw [hgateways] at hranked
    exact hranked.isLeast_head rfl

end ServiceStore

end MediaServer.Gateway
