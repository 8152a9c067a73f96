import MediaServer.Gateway.ServiceStore
import MediaServer.Lib.IndexMap
import Mathlib.Data.List.Pairwise

/-!
# The network view of the console

The console keeps the nodes that ping it, by zone and by role, and shows them to observers: an
observer gets a snapshot and from then on the events that the store broadcasts.  A ping
broadcasts the node, a removal its id.  A tick drops the nodes that have not pinged for a while,
and broadcasts nothing.  A ping under another role leaves the node in the table of the old one.

So an observer keeps seeing what the store shows exactly as long as no tick drops a node and no
node changes its role while the store still has it under the old one.

The coordinates of a gateway are an arbitrary type.
-/

namespace MediaServer.Console

open Collections Gateway

/-- The time without a ping after which a node is dropped. -/
def NODE_TIMEOUT : Nat := 30000

structure ClusterNodeGenericInfo where
  addr : String
  cpu : UInt8
  memory : UInt8
  disk : UInt8
deriving DecidableEq

structure ClusterGatewayInfo (F : Type) where
  live : UInt32
  max : UInt32
  lat : F
  lon : F

structure ClusterMediaInfo where
  live : UInt32
  max : UInt32

inductive ClusterNodeInfo (F : Type) where
  | console (generic : ClusterNodeGenericInfo)
  | gateway (generic : ClusterNodeGenericInfo) (info : ClusterGatewayInfo F)
  | media (generic : ClusterNodeGenericInfo) (info : ClusterMediaInfo)
  | connector (generic : ClusterNodeGenericInfo)

/-- What the network reports about a connection; `remote` is the text of the address. -/
structure ConnectionInfo where
  session : UInt64
  dest : NodeId
  remote : String
  rttMs : UInt32

structure Connection where
  id : UInt64
  node : NodeId
  addr : String
  rttMs : UInt32
deriving DecidableEq

def Connection.ofInfo (value : ConnectionInfo) : Connection :=
  ⟨value.session, value.dest, value.remote, value.rttMs⟩

/-- The containers of the four roles differ in the information they carry. -/
structure Container (Info : Type) where
  lastUpdated : Nat
  generic : ClusterNodeGenericInfo
  info : Info
  conns : List Connection

abbrev ConsoleContainer := Container Unit
abbrev GatewayContainer (F : Type) := Container (ClusterGatewayInfo F)
abbrev MediaContainer := Container ClusterMediaInfo
abbrev ConnectorContainer := Container Unit

structure ZoneContainer (F : Type) where
  lat : F
  lon : F
  consoles : IndexMap NodeId ConsoleContainer
  gateways : IndexMap NodeId (GatewayContainer F)
  medias : IndexMap NodeId MediaContainer
  connectors : IndexMap NodeId ConnectorContainer

def ZoneContainer.default {F : Type} [Inhabited F] : ZoneContainer F :=
  ⟨Inhabited.default, Inhabited.default, ∅, ∅, ∅, ∅⟩

/-- The container has been updated recently. -/
def Container.fresh {Info : Type} (g : Container Info) (now : Nat) : Bool :=
  g.lastUpdated + NODE_TIMEOUT > now

/-- Drop the nodes that have not pinged for too long. -/
def ZoneContainer.retain {F : Type} (now : Nat) (zone : ZoneContainer F) : ZoneContainer F :=
  { zone with
    consoles := zone.consoles.retain fun _ g => g.fresh now
    gateways := zone.gateways.retain fun _ g => g.fresh now
    medias := zone.medias.retain fun _ g => g.fresh now
    connectors := zone.connectors.retain fun _ g => g.fresh now }

structure NetworkNodeData where
  id : NodeId
  zoneId : ZoneId
  info : ClusterNodeGenericInfo
  conns : List Connection

inductive NetworkNodeEvent where
  | snapshot (nodes : List NetworkNodeData)
  | onChanged (node : NetworkNodeData)
  | onRemoved (nodes : List NodeId)

structure Storage (F : Type) where
  zones : IndexMap ZoneId (ZoneContainer F)

namespace Storage

variable {F : Type}

def new : Storage F := ⟨∅⟩

/-- Change every value of a map. -/
def mapValues {K V W : Type} (m : IndexMap K V) (f : V → W) : IndexMap K W :=
  ⟨m.entries.map fun entry => (entry.1, f entry.2), by
    have hkeys := m.nodupKeys
    rwa [List.map_map]⟩

def onTick (s : Storage F) (now : Nat) : Storage F :=
  let zones := mapValues s.zones (ZoneContainer.retain now)
  ⟨zones.retain fun _ z =>
    z.consoles.len + z.gateways.len + z.medias.len + z.connectors.len > 0⟩

variable [Inhabited F]

/-- `self.zones.entry(zone_id).or_default()`. -/
def zoneOrDefault (s : Storage F) (zoneId : ZoneId) : ZoneContainer F :=
  (s.zones.get zoneId).getD ZoneContainer.default

def genericOf : ClusterNodeInfo F → ClusterNodeGenericInfo
  | .console generic => generic
  | .gateway generic _ => generic
  | .media generic _ => generic
  | .connector generic => generic

/-- Put a node into the table of its role; a gateway also moves the zone. -/
def insertNode (now : Nat) (node : NodeId) (conns : List Connection) (zone : ZoneContainer F) :
    ClusterNodeInfo F → ZoneContainer F
  | .console generic =>
    { zone with consoles := zone.consoles.insert node ⟨now, generic, (), conns⟩ }
  | .gateway generic info =>
    { zone with
      lat := info.lat
      lon := info.lon
      gateways := zone.gateways.insert node ⟨now, generic, info, conns⟩ }
  | .media generic info =>
    { zone with medias := zone.medias.insert node ⟨now, generic, info, conns⟩ }
  | .connector generic =>
    { zone with connectors := zone.connectors.insert node ⟨now, generic, (), conns⟩ }

def onPing (s : Storage F) (now : Nat) (node : NodeId) (info : ClusterNodeInfo F)
    (conns : List ConnectionInfo) : Storage F × NetworkNodeEvent :=
  let zoneId := ZoneId.fromNodeId node
  let nodeData : NetworkNodeData := ⟨node, zoneId, genericOf info, conns.map Connection.ofInfo⟩
  let zone := insertNode now node (conns.map Connection.ofInfo) (s.zoneOrDefault zoneId) info
  (⟨s.zones.insert zoneId zone⟩, .onChanged nodeData)

def onNodeRemoved (s : Storage F) (node : NodeId) : Storage F × NetworkNodeEvent :=
  let zoneId := ZoneId.fromNodeId node
  let zone := s.zoneOrDefault zoneId
  let zone :=
    { zone with
      consoles := zone.consoles.swapRemove node
      gateways := zone.gateways.swapRemove node
      medias := zone.medias.swapRemove node
      connectors := zone.connectors.swapRemove node }
  (⟨s.zones.insert zoneId zone⟩, .onRemoved [node])

/-- The nodes of one table as an observer sees them. -/
def tableNodes {Info : Type} (zoneId : ZoneId) (table : IndexMap NodeId (Container Info)) :
    List NetworkNodeData :=
  table.entries.map fun entry => ⟨entry.1, zoneId, entry.2.generic, entry.2.conns⟩

def zoneNodes (zoneId : ZoneId) (z : ZoneContainer F) : List NetworkNodeData :=
  tableNodes zoneId z.consoles ++ tableNodes zoneId z.gateways ++ tableNodes zoneId z.medias ++
    tableNodes zoneId z.connectors

def networkNode (s : Storage F) : List NetworkNodeData :=
  s.zones.entries.flatMap fun entry => zoneNodes entry.1 entry.2

end Storage

/-! ### Observers -/

/-- What an observer does with a broadcast event. -/
def observe (view : List NetworkNodeData) : NetworkNodeEvent → List NetworkNodeData
  | .snapshot nodes => nodes
  | .onChanged node => view.filter (fun other => other.id ≠ node.id) ++ [node]
  | .onRemoved nodes => view.filter (fun other => other.id ∉ nodes)

inductive Op (F : Type) where
  | onTick (now : Nat)
  | onPing (now : Nat) (node : NodeId) (info : ClusterNodeInfo F) (conns : List ConnectionInfo)
  | onNodeRemoved (now : Nat) (node : NodeId)

namespace Storage

variable {F : Type} [Inhabited F]

/-- An operation with the events it broadcasts. -/
def step (s : Storage F) : Op F → Storage F × List NetworkNodeEvent
  | .onTick now => (s.onTick now, [])
  | .onPing now node info conns =>
    let (s, event) := s.onPing now node info conns
    (s, [event])
  | .onNodeRemoved _ node =>
    let (s, event) := s.onNodeRemoved node
    (s, [event])

/-- The store after some operations. -/
def after (s : Storage F) (ops : List (Op F)) : Storage F := ops.foldl (fun s op => (s.step op).1) s

/-- The view of an observer after some operations of a store. -/
def follow : List NetworkNodeData → Storage F → List (Op F) → List NetworkNodeData
  | view, _, [] => view
  | view, s, op :: ops => follow ((s.step op).2.foldl observe view) (s.step op).1 ops

/-- An observer that joins after any operations sees, after any further ones, exactly what the
    store shows, each node once. -/
def Faithful (ops : List (Op F)) : Prop :=
  ∀ before middle, before ++ middle <+: ops →
    let joined := new.after before
    let shown := (joined.after middle).networkNode
    (follow joined.networkNode joined middle).Perm shown ∧ (shown.map NetworkNodeData.id).Nodup

end Storage

/-! ### Tables by role -/

inductive Role where
  | console
  | gateway
  | media
  | connector
deriving DecidableEq, Repr

def ClusterNodeInfo.role {F : Type} : ClusterNodeInfo F → Role
  | .console _ => .console
  | .gateway _ _ => .gateway
  | .media _ _ => .media
  | .connector _ => .connector

/-- What a container says independently of its role. -/
structure Entry where
  lastUpdated : Nat
  generic : ClusterNodeGenericInfo
  conns : List Connection

def Container.entry {Info : Type} (g : Container Info) : Entry := ⟨g.lastUpdated, g.generic, g.conns⟩

namespace ZoneContainer

variable {F : Type}

def lookup (z : ZoneContainer F) (node : NodeId) : Role → Option Entry
  | .console => (z.consoles.get node).map Container.entry
  | .gateway => (z.gateways.get node).map Container.entry
  | .media => (z.medias.get node).map Container.entry
  | .connector => (z.connectors.get node).map Container.entry

def keysOf (z : ZoneContainer F) : Role → List NodeId
  | .console => z.consoles.keys
  | .gateway => z.gateways.keys
  | .media => z.medias.keys
  | .connector => z.connectors.keys

theorem mem_keysOf {z : ZoneContainer F} {role : Role} {node : NodeId} :
    node ∈ z.keysOf role ↔ (z.lookup node role).isSome := by
  cases role <;> simp [keysOf, lookup, IndexMap.mem_keys_iff, Option.isSome_iff_exists]

theorem nodup_keysOf (z : ZoneContainer F) (role : Role) : (z.keysOf role).Nodup := by
  cases role
  · exact z.consoles.nodupKeys
  · exact z.gateways.nodupKeys
  · exact z.medias.nodupKeys
  · exact z.connectors.nodupKeys

/-- The order in which the tables are shown. -/
def roles : List Role := [.console, .gateway, .media, .connector]

theorem mem_roles (role : Role) : role ∈ roles := by
  cases role <;> decide

end ZoneContainer

namespace Storage

variable {F : Type}

open ZoneContainer

theorem map_id_zoneNodes (zoneId : ZoneId) (z : ZoneContainer F) :
    (zoneNodes zoneId z).map NetworkNodeData.id = roles.flatMap z.keysOf := by
  simp [zoneNodes, tableNodes, roles, keysOf, IndexMap.keys, Function.comp_def]

theorem mem_tableNodes {Info : Type} {zoneId : ZoneId} {table : IndexMap NodeId (Container Info)}
    {d : NetworkNodeData} :
    d ∈ tableNodes zoneId table ↔ d.zoneId = zoneId ∧ ∃ entry : Entry,
      (table.get d.id).map Container.entry = some entry ∧ d.info = entry.generic ∧
      d.conns = entry.conns := by
  simp only [tableNodes, List.mem_map, Prod.exists, Option.map_eq_some_iff]
  constructor
  · rintro ⟨node, g, hmem, rfl⟩
    exact ⟨rfl, g.entry, ⟨g, IndexMap.get_eq_some_iff.mpr hmem, rfl⟩, rfl, rfl⟩
  · rintro ⟨rfl, entry, ⟨g, hget, rfl⟩, hinfo, hconns⟩
    refine ⟨d.id, g, IndexMap.get_eq_some_iff.mp hget, ?_⟩
    cases d
    simp_all [Container.entry]

theorem mem_zoneNodes {zoneId : ZoneId} {z : ZoneContainer F} {d : NetworkNodeData} :
    d ∈ zoneNodes zoneId z ↔ d.zoneId = zoneId ∧ ∃ role entry,
      z.lookup d.id role = some entry ∧ d.info = entry.generic ∧ d.conns = entry.conns := by
  simp only [zoneNodes, List.mem_append, mem_tableNodes]
  constructor
  · rintro (((⟨hzone, entry, hget, hdata⟩ | ⟨hzone, entry, hget, hdata⟩) |
      ⟨hzone, entry, hget, hdata⟩) | ⟨hzone, entry, hget, hdata⟩)
    · exact ⟨hzone, .console, entry, hget, hdata⟩
    · exact ⟨hzone, .gateway, entry, hget, hdata⟩
    · exact ⟨hzone, .media, entry, hget, hdata⟩
    · exact ⟨hzone, .connector, entry, hget, hdata⟩
  · rintro ⟨hzone, role, entry, hget, hdata⟩
    cases role with
    | console => exact Or.inl (Or.inl (Or.inl ⟨hzone, entry, hget, hdata⟩))
    | gateway => exact Or.inl (Or.inl (Or.inr ⟨hzone, entry, hget, hdata⟩))
    | media => exact Or.inl (Or.inr ⟨hzone, entry, hget, hdata⟩)
    | connector => exact Or.inr ⟨hzone, entry, hget, hdata⟩

/-- What the store has about a node under a role in a zone. -/
def lookup (s : Storage F) (zoneId : ZoneId) (role : Role) (node : NodeId) : Option Entry :=
  (s.zones.get zoneId).bind fun z => z.lookup node role

theorem mem_networkNode {s : Storage F} {d : NetworkNodeData} :
    d ∈ s.networkNode ↔ ∃ role entry, s.lookup d.zoneId role d.id = some entry ∧
      d.info = entry.generic ∧ d.conns = entry.conns := by
  simp only [networkNode, List.mem_flatMap, Prod.exists, mem_zoneNodes, lookup,
    Option.bind_eq_some_iff]
  constructor
  · rintro ⟨zoneId, z, hmem, hzone, role, entry, hget, hdata⟩
    exact ⟨role, entry, ⟨z, hzone ▸ IndexMap.get_eq_some_iff.mpr hmem, hget⟩, hdata⟩
  · rintro ⟨role, entry, ⟨z, hz, hget⟩, hdata⟩
    exact ⟨d.zoneId, z, IndexMap.get_eq_some_iff.mp hz, rfl, role, entry, hget, hdata⟩

/-- Every node stands in its own zone. -/
def Placed (s : Storage F) : Prop :=
  ∀ zoneId role node entry, s.lookup zoneId role node = some entry →
    zoneId = ZoneId.fromNodeId node

/-- No node stands under two roles. -/
def Single (s : Storage F) : Prop :=
  ∀ zoneId role role' node, (s.lookup zoneId role node).isSome →
    (s.lookup zoneId role' node).isSome → role = role'

/-- A node is shown once exactly when it has one role. -/
theorem nodup_networkNode_iff {s : Storage F} (hplaced : s.Placed) :
    (s.networkNode.map NetworkNodeData.id).Nodup ↔ s.Single := by
  have hids : s.networkNode.map NetworkNodeData.id =
      s.zones.entries.flatMap fun entry => roles.flatMap entry.2.keysOf := by
    rw [networkNode, List.map_flatMap]
    simp only [map_id_zoneNodes]
  have hlookup : ∀ zoneId (z : ZoneContainer F), (zoneId, z) ∈ s.zones.entries →
      ∀ role node, node ∈ z.keysOf role ↔ (s.lookup zoneId role node).isSome := by
    intro zoneId z hmem role node
    rw [mem_keysOf, lookup, IndexMap.get_eq_some_iff.mpr hmem, Option.bind_some]
  rw [hids, List.nodup_flatMap]
  constructor
  · rintro ⟨hzones, -⟩ zoneId role role' node hrole hrole'
    obtain ⟨entry, hentry⟩ := Option.isSome_iff_exists.mp hrole
    obtain ⟨z, hz, -⟩ := Option.bind_eq_some_iff.mp hentry
    have hmem := IndexMap.get_eq_some_iff.mp hz
    have hpair := (List.nodup_flatMap.mp (hzones _ hmem)).2
    by_contra hne
    have hsymm : Std.Symm (Function.onFun List.Disjoint z.keysOf) :=
      ⟨fun _ _ h _ hright hleft => h hleft hright⟩
    have hdisjoint := hpair.forall (mem_roles role) (mem_roles role') hne
    exact hdisjoint ((hlookup _ z hmem role node).mpr hrole) ((hlookup _ z hmem role' node).mpr hrole')
  · intro hsingle
    constructor
    · rintro ⟨zoneId, z⟩ hmem
      refine List.nodup_flatMap.mpr ⟨fun role _ => z.nodup_keysOf role, ?_⟩
      have hne : roles.Pairwise (· ≠ ·) := by decide
      refine hne.imp ?_
      intro role role' hne node hrole hrole'
      exact hne (hsingle zoneId role role' node ((hlookup _ z hmem role node).mp hrole)
        ((hlookup _ z hmem role' node).mp hrole'))
    · refine (List.pairwise_map.mp s.zones.nodupKeys).imp_of_mem ?_
      rintro ⟨zoneId, z⟩ ⟨zoneId', z'⟩ hmem hmem' hne node hnode hnode'
      obtain ⟨role, -, hrole⟩ := List.mem_flatMap.mp hnode
      obtain ⟨role', -, hrole'⟩ := List.mem_flatMap.mp hnode'
      obtain ⟨entry, hentry⟩ := Option.isSome_iff_exists.mp ((hlookup _ z hmem role node).mp hrole)
      obtain ⟨entry', hentry'⟩ :=
        Option.isSome_iff_exists.mp ((hlookup _ z' hmem' role' node).mp hrole')
      exact hne ((hplaced _ _ _ _ hentry).trans (hplaced _ _ _ _ hentry').symm)

/-! ### What the operations do to the tables -/

theorem get_mapValues {K V W : Type} [DecidableEq K] (m : IndexMap K V) (f : V → W) (k : K) :
    (mapValues m f).get k = (m.get k).map f := by
  ext w
  rw [IndexMap.get_eq_some_iff, Option.map_eq_some_iff]
  simp only [mapValues, List.mem_map, Prod.mk.injEq, Prod.exists, IndexMap.get_eq_some_iff]
  constructor
  · rintro ⟨k', v, hmem, rfl, rfl⟩
    exact ⟨v, hmem, rfl⟩
  · rintro ⟨v, hmem, rfl⟩
    exact ⟨k, v, hmem, rfl, rfl⟩

/-- The entry has been updated recently. -/
def Entry.fresh (now : Nat) (entry : Entry) : Bool := entry.lastUpdated + NODE_TIMEOUT > now

theorem get_retain_fresh {Info : Type} (table : IndexMap NodeId (Container Info)) (now : Nat)
    (node : NodeId) :
    ((table.retain fun _ g => g.fresh now).get node).map Container.entry =
      ((table.get node).map Container.entry).filter (Entry.fresh now) := by
  ext entry
  simp only [Option.map_eq_some_iff, IndexMap.get_retain_eq_some_iff, Option.filter_eq_some_iff]
  constructor
  · rintro ⟨g, ⟨hget, hfresh⟩, rfl⟩
    exact ⟨⟨g, hget, rfl⟩, hfresh⟩
  · rintro ⟨⟨g, hget, rfl⟩, hfresh⟩
    exact ⟨g, ⟨hget, hfresh⟩, rfl⟩

theorem lookup_retain (z : ZoneContainer F) (now : Nat) (node : NodeId) (role : Role) :
    (z.retain now).lookup node role = (z.lookup node role).filter (Entry.fresh now) := by
  cases role with
  | console => exact get_retain_fresh z.consoles now node
  | gateway => exact get_retain_fresh z.gateways now node
  | media => exact get_retain_fresh z.medias now node
  | connector => exact get_retain_fresh z.connectors now node

theorem get_of_len {K V : Type} [DecidableEq K] {m : IndexMap K V} (h : m.len = 0) (k : K) :
    m.get k = none := by
  have hnil : m.entries = [] := List.length_eq_zero_iff.mp h
  simp [IndexMap.get, hnil]

theorem lookup_of_empty {z : ZoneContainer F}
    (h : ¬ z.consoles.len + z.gateways.len + z.medias.len + z.connectors.len > 0) (node : NodeId)
    (role : Role) : z.lookup node role = none := by
  cases role
  · rw [ZoneContainer.lookup, get_of_len (by omega), Option.map_none]
  · rw [ZoneContainer.lookup, get_of_len (by omega), Option.map_none]
  · rw [ZoneContainer.lookup, get_of_len (by omega), Option.map_none]
  · rw [ZoneContainer.lookup, get_of_len (by omega), Option.map_none]

/-- A tick keeps the fresh entries; a zone is dropped only without any. -/
theorem lookup_onTick (s : Storage F) (now : Nat) (zoneId : ZoneId) (role : Role)
    (node : NodeId) :
    (s.onTick now).lookup zoneId role node =
      (s.lookup zoneId role node).filter (Entry.fresh now) := by
  rw [lookup, lookup, onTick]
  cases hz : s.zones.get zoneId with
  | none =>
    have hnone : ((mapValues s.zones (ZoneContainer.retain now)).retain fun _ z =>
        z.consoles.len + z.gateways.len + z.medias.len + z.connectors.len > 0).get zoneId =
        none := by
      refine Option.eq_none_iff_forall_not_mem.mpr ?_
      intro z hmem
      have hget := (IndexMap.get_retain_eq_some_iff.mp hmem).1
      rw [get_mapValues, hz] at hget
      cases hget
    rw [hnone]
    rfl
  | some z =>
    by_cases hkept : (z.retain now).consoles.len + (z.retain now).gateways.len +
        (z.retain now).medias.len + (z.retain now).connectors.len > 0
    · have hsome : ((mapValues s.zones (ZoneContainer.retain now)).retain fun _ z =>
          z.consoles.len + z.gateways.len + z.medias.len + z.connectors.len > 0).get zoneId =
          some (z.retain now) := by
        refine IndexMap.get_retain_eq_some_iff.mpr ⟨?_, by simpa using hkept⟩
        rw [get_mapValues, hz]
        rfl
      rw [hsome]
      exact lookup_retain z now node role
    · have hnone : ((mapValues s.zones (ZoneContainer.retain now)).retain fun _ z =>
          z.consoles.len + z.gateways.len + z.medias.len + z.connectors.len > 0).get zoneId =
          none := by
        refine Option.eq_none_iff_forall_not_mem.mpr ?_
        intro z' hmem
        obtain ⟨hget, hlen⟩ := IndexMap.get_retain_eq_some_iff.mp hmem
        rw [get_mapValues, hz] at hget
        cases hget
        exact hkept (by simpa using hlen)
      rw [hnone, Option.bind_some, ← lookup_retain, lookup_of_empty hkept]
      rfl

variable [Inhabited F]

/-- A zone that is missing is like one without nodes. -/
theorem lookup_zoneOrDefault (s : Storage F) (zoneId : ZoneId) (node : NodeId) (role : Role) :
    (s.zoneOrDefault zoneId).lookup node role = s.lookup zoneId role node := by
  rw [zoneOrDefault, lookup]
  cases s.zones.get zoneId with
  | none => cases role <;> rfl
  | some z => rfl

omit [Inhabited F] in
theorem lookup_insertNode (now : Nat) (node : NodeId) (conns : List Connection)
    (zone : ZoneContainer F) (info : ClusterNodeInfo F) (other : NodeId) (role : Role) :
    (insertNode now node conns zone info).lookup other role =
      if role = info.role ∧ other = node then some ⟨now, genericOf info, conns⟩
      else zone.lookup other role := by
  cases info <;> cases role <;>
    simp only [insertNode, ZoneContainer.lookup, ClusterNodeInfo.role, reduceCtorEq, false_and,
      true_and, if_false, IndexMap.get_insert, genericOf] <;>
    split <;> rfl

theorem lookup_onPing (s : Storage F) (now : Nat) (node : NodeId) (info : ClusterNodeInfo F)
    (conns : List ConnectionInfo) (zoneId : ZoneId) (role : Role) (other : NodeId) :
    (s.onPing now node info conns).1.lookup zoneId role other =
      if zoneId = ZoneId.fromNodeId node ∧ role = info.role ∧ other = node then
        some ⟨now, genericOf info, conns.map Connection.ofInfo⟩
      else s.lookup zoneId role other := by
  rw [onPing, lookup]
  simp only [IndexMap.get_insert]
  by_cases hzone : zoneId = ZoneId.fromNodeId node
  · rw [if_pos hzone, Option.bind_some, lookup_insertNode, lookup_zoneOrDefault, hzone]
    simp
  · rw [if_neg hzone, if_neg (fun h => hzone h.1)]
    rfl

theorem lookup_onNodeRemoved (s : Storage F) (node : NodeId) (zoneId : ZoneId) (role : Role)
    (other : NodeId) :
    (s.onNodeRemoved node).1.lookup zoneId role other =
      if zoneId = ZoneId.fromNodeId node ∧ other = node then none
      else s.lookup zoneId role other := by
  rw [onNodeRemoved, lookup]
  simp only [IndexMap.get_insert]
  by_cases hzone : zoneId = ZoneId.fromNodeId node
  · rw [if_pos hzone, Option.bind_some, ← lookup_zoneOrDefault, hzone]
    cases role <;> simp only [ZoneContainer.lookup, IndexMap.get_swapRemove, true_and] <;> split <;>
      rfl
  · rw [if_neg hzone, if_neg (fun h => hzone h.1)]
    rfl

/-! ### Runs -/

theorem Placed.step {s : Storage F} (h : s.Placed) (op : Op F) : (s.step op).1.Placed := by
  intro zoneId role other entry hlookup
  cases op with
  | onTick now =>
    rw [Storage.step, lookup_onTick, Option.filter_eq_some_iff] at hlookup
    exact h _ _ _ _ hlookup.1
  | onPing now node info conns =>
    change (s.onPing now node info conns).1.lookup zoneId role other = some entry at hlookup
    rw [lookup_onPing] at hlookup
    split at hlookup
    case isTrue hnew => rw [hnew.1, hnew.2.2]
    case isFalse => exact h _ _ _ _ hlookup
  | onNodeRemoved now node =>
    change (s.onNodeRemoved node).1.lookup zoneId role other = some entry at hlookup
    rw [lookup_onNodeRemoved] at hlookup
    split at hlookup
    case isTrue => cases hlookup
    case isFalse => exact h _ _ _ _ hlookup

omit [Inhabited F] in
theorem placed_new : (new : Storage F).Placed := by
  intro zoneId role node entry hlookup
  cases hlookup

theorem Placed.after {s : Storage F} (h : s.Placed) (ops : List (Op F)) : (s.after ops).Placed := by
  induction ops generalizing s with
  | nil => exact h
  | cons op ops ih => exact ih (h.step op)

/-- No tick drops a node, and no node pings under a role other than the one it is stored
    under. -/
def Steady (s : Storage F) : Op F → Prop
  | .onTick now => ∀ zoneId role node entry, s.lookup zoneId role node = some entry →
      entry.lastUpdated + NODE_TIMEOUT > now
  | .onPing _ node info _ => ∀ zoneId role, (s.lookup zoneId role node).isSome → role = info.role
  | .onNodeRemoved _ _ => True

omit [Inhabited F] in
theorem lookup_onTick_of_steady {s : Storage F} {now : Nat} (h : s.Steady (.onTick now))
    (zoneId : ZoneId) (role : Role) (node : NodeId) :
    (s.onTick now).lookup zoneId role node = s.lookup zoneId role node := by
  rw [lookup_onTick]
  cases hlookup : s.lookup zoneId role node with
  | none => rfl
  | some entry => exact Option.filter_some_pos (decide_eq_true (h _ _ _ _ hlookup))

theorem Single.step {s : Storage F} {op : Op F} (h : s.Single) (hsteady : s.Steady op) :
    (s.step op).1.Single := by
  intro zoneId role role' other hrole hrole'
  cases op with
  | onTick now =>
    rw [Storage.step, lookup_onTick_of_steady hsteady] at hrole hrole'
    exact h _ _ _ _ hrole hrole'
  | onPing now node info conns =>
    change ((s.onPing now node info conns).1.lookup zoneId role other).isSome at hrole
    change ((s.onPing now node info conns).1.lookup zoneId role' other).isSome at hrole'
    rw [lookup_onPing] at hrole hrole'
    split at hrole
    case isTrue hnew =>
      obtain ⟨-, rfl, rfl⟩ := hnew
      split at hrole'
      case isTrue hnew' => exact hnew'.2.1.symm
      case isFalse => exact (hsteady _ _ hrole').symm
    case isFalse =>
      split at hrole'
      case isTrue hnew' =>
        obtain ⟨-, rfl, rfl⟩ := hnew'
        exact hsteady _ _ hrole
      case isFalse => exact h _ _ _ _ hrole hrole'
  | onNodeRemoved now node =>
    change ((s.onNodeRemoved node).1.lookup zoneId role other).isSome at hrole
    change ((s.onNodeRemoved node).1.lookup zoneId role' other).isSome at hrole'
    rw [lookup_onNodeRemoved] at hrole hrole'
    split at hrole
    case isTrue => cases hrole
    case isFalse hother =>
      rw [if_neg hother] at hrole'
      exact h _ _ _ _ hrole hrole'

omit [Inhabited F] in
theorem single_new : (new : Storage F).Single := by
  intro zoneId role role' node hrole
  cases hrole

theorem mem_networkNode_onPing {s : Storage F} {now : Nat} {node : NodeId}
    {info : ClusterNodeInfo F} {conns : List ConnectionInfo} (hplaced : s.Placed)
    (hsteady : s.Steady (.onPing now node info conns)) (d : NetworkNodeData) :
    d ∈ (s.onPing now node info conns).1.networkNode ↔
      (d ∈ s.networkNode ∧ d.id ≠ node) ∨
      d = ⟨node, ZoneId.fromNodeId node, genericOf info, conns.map Connection.ofInfo⟩ := by
  simp only [mem_networkNode, lookup_onPing]
  constructor
  · rintro ⟨role, entry, hlookup, hinfo, hconns⟩
    split at hlookup
    case isTrue hnew =>
      obtain ⟨hzone, -, hid⟩ := hnew
      cases hlookup
      right
      cases d
      simp_all
    case isFalse hold =>
      left
      refine ⟨⟨role, entry, hlookup, hinfo, hconns⟩, ?_⟩
      intro hid
      have hzone := hplaced _ _ _ _ hlookup
      rw [hid] at hlookup hzone
      have hrole := hsteady d.zoneId role (Option.isSome_iff_exists.mpr ⟨entry, hlookup⟩)
      exact hold ⟨hzone, hrole, hid⟩
  · rintro (⟨⟨role, entry, hlookup, hdata⟩, hid⟩ | rfl)
    · refine ⟨role, entry, ?_, hdata⟩
      rw [if_neg (fun hnew => hid hnew.2.2), hlookup]
    · exact ⟨info.role, ⟨now, genericOf info, conns.map Connection.ofInfo⟩,
        if_pos ⟨rfl, rfl, rfl⟩, rfl, rfl⟩

theorem mem_networkNode_onNodeRemoved {s : Storage F} {node : NodeId} (hplaced : s.Placed)
    (d : NetworkNodeData) :
    d ∈ (s.onNodeRemoved node).1.networkNode ↔ d ∈ s.networkNode ∧ d.id ≠ node := by
  simp only [mem_networkNode, lookup_onNodeRemoved]
  constructor
  · rintro ⟨role, entry, hlookup, hdata⟩
    split at hlookup
    case isTrue => cases hlookup
    case isFalse hold =>
      refine ⟨⟨role, entry, hlookup, hdata⟩, ?_⟩
      intro hid
      have hzone := hplaced _ _ _ _ hlookup
      rw [hid] at hzone
      exact hold ⟨hzone, hid⟩
  · rintro ⟨⟨role, entry, hlookup, hdata⟩, hid⟩
    refine ⟨role, entry, ?_, hdata⟩
    rw [if_neg (fun hnew => hid hnew.2), hlookup]

theorem mem_networkNode_onTick {s : Storage F} {now : Nat} (hsteady : s.Steady (.onTick now))
    (d : NetworkNodeData) : d ∈ (s.onTick now).networkNode ↔ d ∈ s.networkNode := by
  simp only [mem_networkNode, lookup_onTick_of_steady hsteady]

/-- A steady operation keeps an observer up to date. -/
theorem observe_step {s : Storage F} {op : Op F} {view : List NetworkNodeData}
    (hplaced : s.Placed) (hsingle : s.Single) (hsteady : s.Steady op)
    (hview : view.Perm s.networkNode) :
    ((s.step op).2.foldl observe view).Perm (s.step op).1.networkNode := by
  have hnodup : view.Nodup :=
    hview.nodup_iff.mpr (List.Nodup.of_map _ ((nodup_networkNode_iff hplaced).mpr hsingle))
  have hnext : (s.step op).1.networkNode.Nodup :=
    List.Nodup.of_map _ ((nodup_networkNode_iff (hplaced.step op)).mpr (hsingle.step hsteady))
  have hmem : ∀ d, d ∈ view ↔ d ∈ s.networkNode := fun d => hview.mem_iff
  cases op with
  | onTick now =>
    refine (List.perm_ext_iff_of_nodup hnodup hnext).mpr ?_
    intro d
    rw [hmem]
    exact (mem_networkNode_onTick hsteady d).symm
  | onPing now node info conns =>
    refine (List.perm_ext_iff_of_nodup ?_ hnext).mpr ?_
    · refine List.Nodup.append (hnodup.filter _) (List.nodup_singleton _) ?_
      intro d hd hd'
      rw [List.mem_singleton.mp hd'] at hd
      simp [List.mem_filter] at hd
    · intro d
      refine Iff.trans ?_ (mem_networkNode_onPing hplaced hsteady d).symm
      simp [onPing, observe, Storage.step, hmem]
  | onNodeRemoved now node =>
    refine (List.perm_ext_iff_of_nodup (hnodup.filter _) hnext).mpr ?_
    intro d
    refine Iff.trans ?_ (mem_networkNode_onNodeRemoved hplaced d).symm
    simp [hmem]

/-- Every operation of the run is steady in the state it meets. -/
def AllSteady : Storage F → List (Op F) → Prop
  | _, [] => True
  | s, op :: ops => s.Steady op ∧ AllSteady (s.step op).1 ops

theorem allSteady_append {s : Storage F} {xs ys : List (Op F)} :
    s.AllSteady (xs ++ ys) ↔ s.AllSteady xs ∧ (s.after xs).AllSteady ys := by
  induction xs generalizing s with
  | nil => simp [AllSteady, after]
  | cons op xs ih =>
    simp only [List.cons_append, AllSteady, ih, and_assoc]
    rfl

theorem Single.after {s : Storage F} {ops : List (Op F)} (h : s.Single) (hall : s.AllSteady ops) :
    (s.after ops).Single := by
  induction ops generalizing s with
  | nil => exact h
  | cons op ops ih => exact ih (h.step hall.1) hall.2

theorem follow_perm {s : Storage F} {ops : List (Op F)} {view : List NetworkNodeData}
    (hplaced : s.Placed) (hsingle : s.Single) (hall : s.AllSteady ops)
    (hview : view.Perm s.networkNode) : (follow view s ops).Perm (s.after ops).networkNode := by
  induction ops generalizing s view with
  | nil => exact hview
  | cons op ops ih =>
    exact ih (hplaced.step op) (hsingle.step hall.1) hall.2
      (observe_step hplaced hsingle hall.1 hview)

/-- An operation that an observer survives is steady: a node dropped by a tick stays in the view,
    and a node that pings under a second role is shown twice. -/
theorem steady_of_observe {s : Storage F} {op : Op F} (hplaced : s.Placed) (hsingle : s.Single)
    (hview : ((s.step op).2.foldl observe s.networkNode).Perm (s.step op).1.networkNode)
    (hnext : (s.step op).1.Single) : s.Steady op := by
  cases op with
  | onTick now =>
    intro zoneId role node entry hlookup
    let d : NetworkNodeData := ⟨node, zoneId, entry.generic, entry.conns⟩
    have hbefore : d ∈ s.networkNode := mem_networkNode.mpr ⟨role, entry, hlookup, rfl, rfl⟩
    have hafter : d ∈ (s.onTick now).networkNode := hview.mem_iff.mp hbefore
    obtain ⟨role', entry', hkept, -, -⟩ := mem_networkNode.mp hafter
    rw [lookup_onTick, Option.filter_eq_some_iff] at hkept
    have hrole : role = role' :=
      hsingle zoneId role role' node (Option.isSome_of_eq_some hlookup)
        (Option.isSome_of_eq_some hkept.1)
    subst hrole
    have hentry : entry = entry' := Option.some.inj (hlookup.symm.trans hkept.1)
    subst hentry
    exact of_decide_eq_true hkept.2
  | onPing now node info conns =>
    intro zoneId role hold
    have hzone : zoneId = ZoneId.fromNodeId node := by
      obtain ⟨entry, hlookup⟩ := Option.isSome_iff_exists.mp hold
      exact hplaced _ _ _ _ hlookup
    refine hnext zoneId role info.role node ?_ ?_
    · change ((s.onPing now node info conns).1.lookup zoneId role node).isSome
      rw [lookup_onPing]
      split
      case isTrue => rfl
      case isFalse => exact hold
    · change ((s.onPing now node info conns).1.lookup zoneId info.role node).isSome
      rw [lookup_onPing, if_pos ⟨hzone, rfl, rfl⟩]
      rfl
  | onNodeRemoved now node => trivial

theorem after_append (s : Storage F) (xs ys : List (Op F)) :
    s.after (xs ++ ys) = (s.after xs).after ys := by
  rw [after, List.foldl_append]
  rfl

theorem Faithful.single {ops before : List (Op F)} (h : Faithful ops) (hpre : before <+: ops) :
    (new.after before).Single := by
  have hshown := (h before [] (by simpa using hpre)).2
  exact (nodup_networkNode_iff (placed_new.after before)).mp hshown

theorem Faithful.steady {ops before : List (Op F)} {op : Op F} (h : Faithful ops)
    (hpre : before ++ [op] <+: ops) : (new.after before).Steady op := by
  have hbefore : before <+: ops := (List.prefix_append before [op]).trans hpre
  refine steady_of_observe (placed_new.after before) (h.single hbefore) (h before [op] hpre).1 ?_
  have hnext := h.single hpre
  rwa [after_append] at hnext

theorem Faithful.allSteady {ops : List (Op F)} (h : Faithful ops) (before rest : List (Op F))
    (hsplit : before ++ rest = ops) : (new.after before).AllSteady rest := by
  induction rest generalizing before with
  | nil => trivial
  | cons op rest ih =>
    have hops : before ++ [op] ++ rest = ops := by simpa using hsplit
    refine ⟨h.steady ⟨rest, hops⟩, ?_⟩
    have htail := ih (before ++ [op]) hops
    rwa [after_append] at htail

/-- Observers agree with the store exactly in the runs in which no tick drops a node and no node
    pings under a role other than the one it is stored under. -/
theorem faithful_iff (ops : List (Op F)) : Faithful ops ↔ new.AllSteady ops := by
  constructor
  · intro h
    exact h.allSteady [] ops rfl
  · rintro hall before middle ⟨rest, rfl⟩
    obtain ⟨hbefore, hmiddle⟩ := allSteady_append.mp (allSteady_append.mp hall).1
    have hplaced := placed_new.after before
    have hsingle := single_new.after hbefore
    refine ⟨follow_perm hplaced hsingle hmiddle (List.Perm.refl _), ?_⟩
    exact (nodup_networkNode_iff (hplaced.after middle)).mpr (hsingle.after hmiddle)

/-- The first failure of the view: a media node pings once, and a tick drops it after the
    timeout.  The second: the node comes back as a connector and is shown twice. -/
theorem dropped_and_doubled_nodes :
    let generic : ClusterNodeGenericInfo := ⟨"media-1", 0, 0, 0⟩
    let ping : Op Nat := .onPing 0 257 (.media generic ⟨0, 10⟩) []
    ¬ Faithful [ping, .onTick 30000] ∧ ¬ Faithful [ping, .onPing 1 257 (.connector generic) []] := by
  intro generic ping
  constructor
  · intro h
    have hview := (h [ping] [.onTick 30000] (List.prefix_refl _)).1
    have hlength := hview.length_eq
    revert hlength
    decide
  · intro h
    have hshown := (h [ping] [.onPing 1 257 (.connector generic) []] (List.prefix_refl _)).2
    revert hshown
    decide

end Storage

end MediaServer.Console
