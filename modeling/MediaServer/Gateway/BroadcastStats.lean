import MediaServer.Gateway.Kinds
import MediaServer.Lib.Execution
import MediaServer.Lib.TaskGroup
import Mathlib.Algebra.Order.BigOperators.Group.List
import Mathlib.Algebra.Order.Group.Nat

/-!
# The statistics that a gateway broadcasts

At every tick a gateway adds up, for each kind of service, what the nodes of its zone reported,
and sends the sums to the other gateways.  A node is entered with the statistics of the ping that
registers it, and later pings refresh its usage and its time alone.

So the sums are those of the latest reports as long as nobody who is registered reports anything
new.
-/

namespace MediaServer.Gateway.BroadcastStats

open Presence Machine Execution

variable {Location : Type}

/-! ### What was reported last -/

/-- What an input tells of a node, for a kind of service. -/
def reportStep (kind : ServiceKind) (node : NodeId) (last : Option ServiceStats) :
    Input Location → Option ServiceStats
  | .ping _ sender ping =>
    match ping.origin with
    | .media => if sender = node then ping.stats kind else last
    | .gateway _ _ => last
  | .tick _ => last
  | .nodeMetrics _ => last
  | .popOutput => last

/-- The statistics of the most recent ping of a node. -/
def lastStats (kind : ServiceKind) (inputs : List (Input Location)) (node : NodeId) :
    Option ServiceStats :=
  inputs.foldl (reportStep kind node) none

theorem lastStats_concat (kind : ServiceKind) (inputs : List (Input Location))
    (input : Input Location) (node : NodeId) :
    lastStats kind (inputs ++ [input]) node =
      reportStep kind node (lastStats kind inputs node) input := by
  rw [lastStats, List.foldl_append]
  rfl

/-! ### Sums -/

/-- One record for several: the totals, active if one is. -/
structure Sums (stats : List ServiceStats) (sum : ServiceStats) : Prop where
  live : sum.live.toNat = (stats.map fun st => st.live.toNat).sum
  max : sum.max.toNat = (stats.map fun st => st.max.toNat).sum
  active : sum.active = stats.any ServiceStats.active

theorem checkedAdd_eq_ok {a b c : UInt32} (h : ServiceStore.checkedAdd a b = .ok c) :
    c.toNat = a.toNat + b.toNat := by
  rw [ServiceStore.checkedAdd] at h
  split at h
  · rename_i hlt
    cases h
    rw [UInt32.toNat_add]
    exact Nat.mod_eq_of_lt hlt
  · cases h

theorem sumStats_eq_ok {sources : List NodeSource} {start sum : ServiceStats}
    (h : ServiceStore.sumStats start sources = .ok sum) :
    Sums (start :: sources.map NodeSource.stats) sum := by
  induction sources generalizing start with
  | nil =>
    cases h
    exact ⟨by simp, by simp, by simp⟩
  | cons s rest ih =>
    obtain ⟨live, hlive, h⟩ := Except.bind_eq_ok.mp h
    obtain ⟨max, hmax, h⟩ := Except.bind_eq_ok.mp h
    obtain ⟨htotal, hcapacity, hactive⟩ := ih h
    constructor
    · rw [htotal, List.map_cons, List.sum_cons, checkedAdd_eq_ok hlive]
      simp [Nat.add_assoc]
    · rw [hcapacity, List.map_cons, List.sum_cons, checkedAdd_eq_ok hmax]
      simp [Nat.add_assoc]
    · rw [hactive]
      simp [Bool.or_assoc]

theorem localStats_eq_ok {store : ServiceStore Location} {carried : Option ServiceStats}
    (h : store.localStats = .ok carried) :
    (carried = none ↔ store.localSources = []) ∧
      ∀ sum ∈ carried, Sums (store.localSources.map NodeSource.stats) sum := by
  rw [ServiceStore.localStats] at h
  split at h
  · rename_i hempty
    cases h
    exact ⟨iff_of_true rfl (List.isEmpty_iff.mp hempty), fun sum hsum => by cases hsum⟩
  · rename_i hsome
    obtain ⟨sum, hsum, h⟩ := Except.bind_eq_ok.mp h
    cases h
    obtain ⟨hlive, hmax, hactive⟩ := sumStats_eq_ok hsum
    refine ⟨iff_of_false (by simp) fun hempty => hsome (by simp [hempty]), ?_⟩
    rintro sum' hsum'
    cases hsum'
    exact ⟨by simpa using hlive, by simpa using hmax, by simpa using hactive⟩

/-! ### Runs -/

/-- A store and the calls it has had. -/
structure Watch (Location : Type) where
  store : GatewayStore Location
  inputs : List (Input Location)

def start (zone : ZoneId) (location : Location) (limits : Limits) : Watch Location :=
  ⟨.new zone location limits, []⟩

/-- The steps of a run, which ends where the code panics. -/
def next (w : Watch Location) (input : Input Location) : Option (Watch Location) :=
  (w.store.step input).toOption.map fun store => ⟨store, w.inputs ++ [input]⟩

/-- The statistics carried for a kind are the sums of what the nodes registered for it reported
    last, each counted once, and there are none exactly if nobody is registered. -/
def Current (limits : Limits) (kind : ServiceKind) (inputs : List (Input Location))
    (carried : Option ServiceStats) : Prop :=
  ∃ nodes : List NodeId, nodes.Nodup ∧
    (∀ node, node ∈ nodes ↔
      ∃ usage since, Alive pingTimeout (nodeEvents limits kind inputs) node usage since) ∧
    (carried = none ↔ nodes = []) ∧
    ∀ sum ∈ carried, ∃ stats, nodes.map (lastStats kind inputs) = stats.map some ∧ Sums stats sum

/-- What a tick broadcasts is current. -/
def TickCurrent (limits : Limits) (_ : Watch Location) (input : Input Location)
    (w' : Watch Location) : Prop :=
  match input with
  | .tick _ => ∃ ping, w'.store.output = some ping ∧
      ∀ kind, Current limits kind w'.inputs (ping.stats kind)
  | _ => True

/-- Nobody who is registered for a kind of service reports anything new of it. -/
def NothingNew (limits : Limits) (w : Watch Location) (input : Input Location)
    (_ : Watch Location) : Prop :=
  match input with
  | .ping _ sender ping => ping.origin = .media → ∀ kind,
      (admitted (ping.stats kind) ping limits).isSome →
        ∀ s ∈ (w.store.service kind).localSources, s.node = sender → ping.stats kind = some s.stats
  | _ => True

instance [DecidableEq Location] (limits : Limits) (w : Watch Location) (input : Input Location)
    (w' : Watch Location) : Decidable (NothingNew limits w input w') :=
  match input with
  | .ping _ sender ping =>
    have (kind : ServiceKind) : Decidable ((admitted (ping.stats kind) ping limits).isSome →
        ∀ s ∈ (w.store.service kind).localSources, s.node = sender →
          ping.stats kind = some s.stats) := inferInstance
    decidable_of_iff (ping.origin = .media → ∀ kind ∈ [ServiceKind.webrtc, .rtpEngine],
        (admitted (ping.stats kind) ping limits).isSome →
          ∀ s ∈ (w.store.service kind).localSources, s.node = sender →
            ping.stats kind = some s.stats) <| by
      constructor
      · intro h horigin kind
        exact h horigin kind (by cases kind <;> simp)
      · intro h horigin kind _
        exact h horigin kind
  | .tick _ => isTrue trivial
  | .nodeMetrics _ => isTrue trivial
  | .popOutput => isTrue trivial

/-- The nodes of a kind are entered with what they reported last. -/
def Entered (kind : ServiceKind) (inputs : List (Input Location)) (sources : List NodeSource) :
    Prop :=
  ∀ s ∈ sources, lastStats kind inputs s.node = some s.stats

/-- The invariant. -/
structure UpToDate (zone : ZoneId) (location : Location) (limits : Limits) (w : Watch Location) :
    Prop where
  represents : Represents zone location limits w.inputs w.store
  entered : ∀ kind, Entered kind w.inputs (w.store.service kind).localSources

theorem mem_update_self {sources : List NodeSource} {now : Nat} {node : NodeId} {usage : UInt8}
    {stats : ServiceStats} {s : NodeSource} (h : s ∈ NodeSource.update now node usage stats sources)
    (hs : s.node = node) :
    s.stats = stats ∨ ∃ t ∈ sources, t.node = node ∧ s.stats = t.stats := by
  induction sources with
  | nil =>
    rw [NodeSource.update, List.mem_singleton] at h
    subst h
    exact Or.inl rfl
  | cons t rest ih =>
    rw [NodeSource.update] at h
    split at h
    · rename_i ht
      rcases List.mem_cons.mp h with rfl | h
      · exact Or.inr ⟨t, List.mem_cons_self .., ht, rfl⟩
      · exact Or.inr ⟨s, List.mem_cons_of_mem _ h, hs, rfl⟩
    · rename_i ht
      rcases List.mem_cons.mp h with rfl | h
      · exact absurd hs ht
      · rcases ih h with hnew | ⟨u, hu, hnode, hstats⟩
        · exact Or.inl hnew
        · exact Or.inr ⟨u, List.mem_cons_of_mem _ hu, hnode, hstats⟩

/-- What one call does to the entries. -/
theorem Entered.step {kind : ServiceKind} {limits : Limits} {inputs : List (Input Location)}
    {sources : List NodeSource} (h : Entered kind inputs sources)
    (hranked : NodeSource.Ranked sources) {input : Input Location}
    (hnew : ∀ now sender ping, input = .ping now sender ping → ping.origin = .media →
      (admitted (ping.stats kind) ping limits).isSome →
        ∀ s ∈ sources, s.node = sender → ping.stats kind = some s.stats) :
    Entered kind (inputs ++ [input]) (localStep kind limits sources input) := by
  have hquiet : ∀ sources' : List NodeSource, (∀ s ∈ sources', s ∈ sources) →
      (∀ node, reportStep kind node (lastStats kind inputs node) input =
        lastStats kind inputs node) →
      Entered kind (inputs ++ [input]) sources' := by
    intro sources' hsub hsame s hs
    rw [lastStats_concat, hsame]
    exact h s (hsub s hs)
  cases input with
  | ping now sender ping =>
    cases horigin : ping.origin with
    | gateway zone location =>
      rw [localStep, horigin]
      exact hquiet _ (fun s hs => hs) fun node => by rw [reportStep, horigin]
    | media =>
      have hreport : ∀ node, lastStats kind (inputs ++ [.ping now sender ping]) node =
          if sender = node then ping.stats kind else lastStats kind inputs node := by
        intro node
        rw [lastStats_concat, reportStep, horigin]
      rw [localStep, horigin]
      cases hadmitted : admitted (ping.stats kind) ping limits with
      | none =>
        intro s hs
        obtain ⟨hold, hother⟩ := hranked.mem_remove.mp hs
        rw [hreport, if_neg (Ne.symm hother)]
        exact h s hold
      | some usage =>
        obtain ⟨-, stats, hstats⟩ := admitted_eq_some hadmitted
        rw [hstats]
        intro s hs
        rw [NodeSource.mem_sort] at hs
        rw [hreport]
        by_cases hsender : sender = s.node
        · rw [if_pos hsender, hstats]
          rcases mem_update_self hs hsender.symm with hfresh | ⟨t, ht, hnode, hsame⟩
          · rw [hfresh]
          · have hold := hnew now sender ping rfl horigin (by rw [hadmitted]; rfl) t ht hnode
            rw [hsame, ← hold, hstats]
        · rw [if_neg hsender]
          exact h s ((NodeSource.mem_update_of_ne (Ne.symm hsender)).mp hs)
  | tick now => exact hquiet _ (fun s hs => (List.mem_filter.mp hs).1) fun node => rfl
  | nodeMetrics metrics => exact hquiet _ (fun s hs => hs) fun node => rfl
  | popOutput => exact hquiet _ (fun s hs => hs) fun node => rfl

variable {zone : ZoneId} {location : Location} {limits : Limits} {w w' : Watch Location}

theorem upToDate_start (zone : ZoneId) (location : Location) (limits : Limits) :
    UpToDate zone location limits (start zone location limits) where
  represents := Represents.init
  entered kind s hs := by
    cases kind <;> cases hs

theorem next_eq_some {input : Input Location} (h : next w input = some w') :
    w.store.step input = .ok w'.store ∧ w'.inputs = w.inputs ++ [input] := by
  obtain ⟨store, hstore, rfl⟩ := Option.map_eq_some_iff.mp h
  exact ⟨Except.mem_toOption.mp hstore, rfl⟩

theorem UpToDate.next (h : UpToDate zone location limits w) {input : Input Location}
    (hnext : next w input = some w') (hnew : NothingNew limits w input w') :
    UpToDate zone location limits w' := by
  obtain ⟨hstep, hinputs⟩ := next_eq_some hnext
  refine ⟨?_, fun kind => ?_⟩
  · rw [hinputs]
    exact h.represents.step hstep
  · rw [h.represents.step_service hstep kind, localSources_kindStep (h.represents.ranked kind),
      hinputs]
    refine (h.entered kind).step (h.represents.ranked kind).nodes ?_
    rintro now sender ping rfl horigin hadmitted
    exact hnew horigin kind hadmitted

/-- What a kind carries when its entries are up to date. -/
theorem UpToDate.current (h : UpToDate zone location limits w) {kind : ServiceKind}
    {carried : Option ServiceStats} (hstats : (w.store.service kind).localStats = .ok carried) :
    Current limits kind w.inputs carried := by
  obtain ⟨hnone, hsums⟩ := localStats_eq_ok hstats
  refine ⟨(w.store.service kind).localSources.map NodeSource.node,
    (h.represents.ranked kind).nodes.nodup, fun node => ?_, ?_, fun sum hsum => ?_⟩
  · constructor
    · intro hmem
      obtain ⟨s, hs, rfl⟩ := List.mem_map.mp hmem
      exact ⟨s.usage, s.lastUpdated, (h.represents.nodes kind _ _ _).mp ⟨s, hs, rfl, rfl, rfl⟩⟩
    · rintro ⟨usage, since, halive⟩
      obtain ⟨s, hs, hnode, -⟩ := (h.represents.nodes kind _ _ _).mpr halive
      exact List.mem_map.mpr ⟨s, hs, hnode⟩
  · rw [hnone, List.map_eq_nil_iff]
  · refine ⟨_, ?_, hsums sum hsum⟩
    rw [List.map_map, List.map_map]
    exact List.map_congr_left fun s hs => h.entered kind s hs

/-- What a tick puts out are the sums over the lists it leaves. -/
theorem onTick_output {s s' : GatewayStore Location} {now : Nat} (h : s.onTick now = .ok s') :
    ∃ ping, s'.output = some ping ∧
      ∀ kind, (s'.service kind).localStats = .ok (ping.stats kind) := by
  obtain ⟨webrtc, hwebrtc, h⟩ := Except.bind_eq_ok.mp h
  obtain ⟨rtpengine, hrtpengine, h⟩ := Except.bind_eq_ok.mp h
  cases h
  refine ⟨_, rfl, fun kind => ?_⟩
  cases kind with
  | webrtc => exact hwebrtc
  | rtpEngine => exact hrtpengine

/-- Whatever is reported, the lists are right. -/
theorem represents_of_reaches {ok : Watch Location → Input Location → Prop}
    {inputs : List (Input Location)}
    (h : Execution.Reaches next ok (start zone location limits) inputs w) :
    Represents zone location limits w.inputs w.store := by
  refine h.invariant (P := fun w => Represents zone location limits w.inputs w.store) ?_
    Represents.init
  intro w input w' hrep _ hnext
  obtain ⟨hstep, hinputs⟩ := next_eq_some hnext
  rw [hinputs]
  exact hrep.step hstep

/-- **Broadcast statistics.**  In every run in which nobody who is registered for a kind reports
    anything new of it, every tick broadcasts the sums of what the registered nodes reported
    last. -/
theorem broadcast_current (zone : ZoneId) (location : Location) (limits : Limits)
    (inputs : List (Input Location))
    (h : Along next (NothingNew limits) (start zone location limits) inputs) :
    Along next (TickCurrent limits) (start zone location limits) inputs := by
  refine along_of (fun w input w' hdate hnext hnew => ?_)
    (upToDate_start zone location limits) h
  have hdate' := hdate.next hnext hnew
  refine ⟨?_, hdate'⟩
  cases input with
  | tick now =>
    obtain ⟨ping, hout, hstats⟩ := onTick_output (next_eq_some hnext).1
    exact ⟨ping, hout, fun kind => hdate'.current (hstats kind)⟩
  | ping now sender ping => trivial
  | nodeMetrics metrics => trivial
  | popOutput => trivial

/-- A node that reports the same all the time. -/
theorem broadcast_current_steady :
    Along next (TickCurrent ⟨60, 80, 90⟩) (start 0 (0 : Int) ⟨60, 80, 90⟩)
      [.ping 0 1 ⟨10, 20, 30, .media, some ⟨100, 1000, true⟩, none⟩,
        .ping 100 1 ⟨20, 20, 30, .media, some ⟨100, 1000, true⟩, none⟩, .tick 200] :=
  broadcast_current 0 0 ⟨60, 80, 90⟩ _ (by decide)

/-! ### A node with more and more sessions -/

/-- Node 1 registers with 100 sessions and has 500 at its next ping. -/
def busier : List (Input Int) :=
  [.ping 0 1 ⟨10, 20, 30, .media, some ⟨100, 1000, true⟩, none⟩,
    .ping 100 1 ⟨10, 20, 30, .media, some ⟨500, 1000, true⟩, none⟩]

/-- The tick after that still broadcasts 100 sessions. -/
theorem not_broadcast_current :
    ¬ ∀ (limits : Limits) (inputs : List (Input Int)),
      Along next (TickCurrent limits) (start 0 0 limits) inputs := by
  intro hall
  have hrun : (exec next (fun _ _ => true) (start 0 (0 : Int) ⟨60, 80, 90⟩) busier).any
      (fun w => (next w (.tick 200)).any fun w' =>
        w'.store.output.any fun ping => ping.webrtc = some ⟨100, 1000, true⟩ ∧
          (w'.store.webrtc.localSources.map NodeSource.node = [1]) ∧
          lastStats .webrtc w'.inputs 1 = some ⟨500, 1000, true⟩) = true := by
    decide
  obtain ⟨w, hw, hlast⟩ := (Option.any_eq_true _ _).mp hrun
  obtain ⟨w', hw', hlast⟩ := (Option.any_eq_true _ _).mp hlast
  obtain ⟨ping, hping, hbad⟩ := (Option.any_eq_true _ _).mp hlast
  obtain ⟨hcarried, hnodes, hreported⟩ := of_decide_eq_true hbad
  have hreaches : Execution.Reaches next (fun _ _ => True) _ busier w :=
    reaches_of_exec (fun _ _ _ => trivial) hw
  obtain ⟨ping', hping', hcurrent⟩ :=
    (((hall ⟨60, 80, 90⟩ (busier ++ [.tick 200])).of_append hreaches) w' hw').1
  rw [hping] at hping'
  cases hping'
  obtain ⟨nodes, -, halive, -, hsums⟩ := hcurrent .webrtc
  -- node 1 is registered, so its 500 sessions are among what is to be summed up
  have hrep := represents_of_reaches (hreaches.concat trivial hw')
  have hlisted : (1 : NodeId) ∈ w'.store.webrtc.localSources.map NodeSource.node := by
    rw [hnodes]
    exact List.mem_singleton_self _
  obtain ⟨s, hs, hnode⟩ := List.mem_map.mp hlisted
  have hmem : (1 : NodeId) ∈ nodes := (halive 1).mpr
    ⟨s.usage, s.lastUpdated, (hrep.nodes .webrtc _ _ _).mp ⟨s, hs, hnode, rfl, rfl⟩⟩
  obtain ⟨stats, hstats, hlive, -, -⟩ := hsums _ hcarried
  have hreport : some ⟨500, 1000, true⟩ ∈ stats.map some := by
    rw [← hstats, ← hreported]
    exact List.mem_map_of_mem hmem
  obtain ⟨report, hin, heq⟩ := List.mem_map.mp hreport
  cases heq
  have hle := List.single_le_sum (fun _ _ => Nat.zero_le _) _
    (List.mem_map_of_mem (f := fun st : ServiceStats => st.live.toNat) hin)
  rw [← hlive] at hle
  revert hle
  decide

end MediaServer.Gateway.BroadcastStats
