import MediaServer.Lib.IndexMap
import MediaServer.Lib.Slots
import MediaServer.Lib.TaskGroup
import MediaServer.Protocol

/-!
# Audio mixer

`packages/audio_mixer/src/lib.rs`.  A mixer forwards the loudest sources: it has a
fixed number of outputs, and a source that sends a packet may take an empty output
or one whose holder is clearly quieter.  A source that stays silent is forgotten.

Sources and outputs refer to each other by key and by index.  `WellFormed` says
that the two directions agree and that the recorded number of occupied outputs is
right; under it no `expect`, index or subtraction of the mixer fails.
-/

namespace MediaServer

open Collections Slots

def silentLevel : Int8 := -127
def switchAudioThreshold : Int := 30

/-- `AUDIO_SLOT_TIMEOUT`: one second. -/
def audioSlotTimeout : Nat := 1000000000

structure SourceState where
  lastChangedAt : Instant
  slot : Option Nat
deriving Repr

/-- Nothing was heard of the source for too long. -/
def SourceState.expired (now : Instant) (state : SourceState) : Bool :=
  state.lastChangedAt + audioSlotTimeout ≤ now

structure OutputSlotState (Src : Type) where
  audioLevel : Int8
  source : Src

structure AudioMixer (Src : Type) where
  len : Nat
  sources : IndexMap Src SourceState
  outputs : List (Option (OutputSlotState Src))

namespace AudioMixer

variable {Src : Type}

def new (output : Nat) : AudioMixer Src := ⟨0, ∅, List.replicate output none⟩

/-- What the closure of `on_tick` changes while it decides which sources to retain. -/
structure Clearing (Src : Type) where
  len : Nat
  outputs : List (Option (OutputSlotState Src))
  clear : List Nat

/-- The closure of `on_tick`, over the sources in order. -/
def clearExpired (now : Instant) :
    List (Src × SourceState) → Clearing Src → Except Panic (Clearing Src)
  | [], acc => .ok acc
  | (_, state) :: rest, acc =>
    if state.expired now then
      match state.slot with
      | some slot => do
          let outputs ← setSlot acc.outputs slot none
          if acc.len = 0 then .error ⟨"attempt to subtract with overflow"⟩
          else clearExpired now rest ⟨acc.len - 1, outputs, acc.clear ++ [slot]⟩
      | none => clearExpired now rest acc
    else clearExpired now rest acc

/-- The mixer after a tick and the outputs that were freed, if any. -/
def onTick (m : AudioMixer Src) (now : Instant) :
    Except Panic (AudioMixer Src × Option (List Nat)) := do
  let acc ← clearExpired now m.sources.entries ⟨m.len, m.outputs, []⟩
  let sources := m.sources.retain fun _ state => !state.expired now
  .ok (⟨acc.len, sources, acc.outputs⟩, if acc.clear.isEmpty then none else some acc.clear)

def findEmptySlot (m : AudioMixer Src) : Option Nat := m.outputs.findIdx? Option.isNone

def hasEmptySlot (m : AudioMixer Src) : Bool := m.len < m.outputs.length

/-- The loop of `lowest_slot`, from index `i` on. -/
def lowestFrom : Nat → Option (Nat × Src × Int8) → List (Option (OutputSlotState Src)) →
    Option (Nat × Src × Int8)
  | _, lowest, [] => lowest
  | i, lowest, none :: rest => lowestFrom (i + 1) lowest rest
  | i, none, some slot :: rest =>
      lowestFrom (i + 1) (some (i, slot.source, slot.audioLevel)) rest
  | i, some (j, source, level), some slot :: rest =>
      if slot.audioLevel ≤ level then
        lowestFrom (i + 1) (some (i, slot.source, slot.audioLevel)) rest
      else lowestFrom (i + 1) (some (j, source, level)) rest

theorem lowestFrom_some (i j : Nat) (source : Src) (level : Int8) (slot : OutputSlotState Src)
    (rest : List (Option (OutputSlotState Src))) :
    lowestFrom i (some (j, source, level)) (some slot :: rest) =
      if slot.audioLevel ≤ level then
        lowestFrom (i + 1) (some (i, slot.source, slot.audioLevel)) rest
      else lowestFrom (i + 1) (some (j, source, level)) rest := rfl

def lowestSlot (m : AudioMixer Src) : Option (Nat × Src × Int8) := lowestFrom 0 none m.outputs

variable [DecidableEq Src]

/-- The branch of `on_pkt` for a known source that has no output. -/
def contend (m : AudioMixer Src) (now : Instant) (source : Src) (audioLevel : Int8) :
    Except Panic (AudioMixer Src × Option (Nat × Bool)) :=
  if m.hasEmptySlot then
    match m.findEmptySlot with
    | none => .error ⟨"Should have empty"⟩
    | some slot => do
        let outputs ← setSlot m.outputs slot (some ⟨audioLevel, source⟩)
        .ok (⟨m.len + 1, m.sources.insert source ⟨now, some slot⟩, outputs⟩, some (slot, true))
  else
    match m.lowestSlot with
    | none => .error ⟨"Should have lowest pined"⟩
    | some (lowestIndex, lowestSource, lowestAudioLevel) =>
      if lowestSource ≠ source ∧
          lowestAudioLevel.toInt + switchAudioThreshold ≤ audioLevel.toInt then
        let sources := m.sources.insert source ⟨now, some lowestIndex⟩
        match sources.get lowestSource with
        | none => .error ⟨"Should have lowest_source"⟩
        | some state => do
            let outputs ← setSlot m.outputs lowestIndex (some ⟨audioLevel, source⟩)
            .ok (⟨m.len, sources.insert lowestSource { state with slot := none }, outputs⟩,
              some (lowestIndex, true))
      else .ok (m, none)

/-- The output a packet goes to, if any, with whether its source has just taken it. -/
def onPkt (m : AudioMixer Src) (now : Instant) (source : Src) (audioLevel : Option Int8) :
    Except Panic (AudioMixer Src × Option (Nat × Bool)) :=
  let audioLevel := audioLevel.getD silentLevel
  match m.sources.get source with
  | some state =>
    let m := { m with sources := m.sources.insert source { state with lastChangedAt := now } }
    match state.slot with
    | some slot => .ok (m, some (slot, false))
    | none => m.contend now source audioLevel
  | none =>
    match m.findEmptySlot with
    | some slot => do
        let outputs ← setSlot m.outputs slot (some ⟨audioLevel, source⟩)
        .ok (⟨m.len + 1, m.sources.insert source ⟨now, some slot⟩, outputs⟩, some (slot, true))
    | none => .ok ({ m with sources := m.sources.insert source ⟨now, none⟩ }, none)

/-! ### Sources and outputs refer to each other -/

/-- The source that holds an output. -/
def holderOf (m : AudioMixer Src) (slot : Nat) : Option Src :=
  (slotAt m.outputs slot).map OutputSlotState.source

/-- The output that a source holds. -/
def slotOf (m : AudioMixer Src) (source : Src) : Option Nat :=
  (m.sources.get source).bind SourceState.slot

structure WellFormed (m : AudioMixer Src) : Prop where
  agrees : ∀ source slot, m.slotOf source = some slot ↔ m.holderOf slot = some source
  len_eq : m.len = m.outputs.countP Option.isSome

omit [DecidableEq Src] in
theorem findEmptySlot_eq_some {m : AudioMixer Src} {slot : Nat}
    (h : m.findEmptySlot = some slot) :
    slot < m.outputs.length ∧ slotAt m.outputs slot = none := by
  obtain ⟨hlt, hnone, -⟩ := List.findIdx?_eq_some_iff_getElem.mp h
  refine ⟨hlt, ?_⟩
  rw [slotAt, List.getElem?_eq_getElem hlt, Option.getD_some]
  exact Option.isNone_iff_eq_none.mp hnone

omit [DecidableEq Src] in
theorem findEmptySlot_eq_none {m : AudioMixer Src} (h : m.findEmptySlot = none) :
    m.outputs.countP Option.isSome = m.outputs.length := by
  rw [List.countP_eq_length]
  intro state hmem
  have hsome := List.findIdx?_eq_none_iff.mp h state hmem
  cases state with
  | none => cases hsome
  | some out => rfl

omit [DecidableEq Src] in
/-- The lowest slot is one of the occupied outputs looked at, or the one given. -/
theorem lowestFrom_eq_some {outputs rest : List (Option (OutputSlotState Src))} {i slot : Nat}
    {lowest : Option (Nat × Src × Int8)} {source : Src} {level : Int8}
    (hrest : ∀ k, rest[k]? = outputs[i + k]?)
    (hlowest : ∀ j src l, lowest = some (j, src, l) → slotAt outputs j = some ⟨l, src⟩)
    (h : lowestFrom i lowest rest = some (slot, source, level)) :
    slotAt outputs slot = some ⟨level, source⟩ := by
  induction rest generalizing i lowest with
  | nil => exact hlowest slot source level h
  | cons state rest ih =>
    have hnext : ∀ k, rest[k]? = outputs[i + 1 + k]? := by
      intro k
      have hk := hrest (k + 1)
      rw [List.getElem?_cons_succ] at hk
      rw [hk, Nat.add_right_comm, Nat.add_assoc]
    have hhere : slotAt outputs i = state := by
      have hzero := hrest 0
      rw [List.getElem?_cons_zero, Nat.add_zero] at hzero
      rw [slotAt, ← hzero, Option.getD_some]
    cases state with
    | none => exact ih hnext hlowest h
    | some out =>
      have htaken : ∀ j src l, some (i, out.source, out.audioLevel) = some (j, src, l) →
          slotAt outputs j = some ⟨l, src⟩ := by
        intro j src l heq
        cases heq
        exact hhere
      cases lowest with
      | none => exact ih hnext htaken h
      | some found =>
        obtain ⟨j, src, l⟩ := found
        rw [lowestFrom_some] at h
        split at h
        · exact ih hnext htaken h
        · exact ih hnext hlowest h

omit [DecidableEq Src] in
theorem lowestFrom_isSome {i : Nat} {lowest : Option (Nat × Src × Int8)}
    {outputs : List (Option (OutputSlotState Src))}
    (h : lowest.isSome ∨ ∃ out, some out ∈ outputs) :
    (lowestFrom i lowest outputs).isSome := by
  induction outputs generalizing i lowest with
  | nil =>
    rcases h with h | ⟨out, hmem⟩
    · exact h
    · cases hmem
  | cons state rest ih =>
    cases state with
    | none =>
      refine ih ?_
      rcases h with h | ⟨out, hmem⟩
      · exact Or.inl h
      · rcases List.mem_cons.mp hmem with heq | hmem
        · cases heq
        · exact Or.inr ⟨out, hmem⟩
    | some out =>
      cases lowest with
      | none => exact ih (Or.inl rfl)
      | some found =>
        obtain ⟨j, src, l⟩ := found
        rw [lowestFrom_some]
        split <;> exact ih (Or.inl rfl)

theorem wellFormed_new (output : Nat) : (new output : AudioMixer Src).WellFormed where
  agrees source slot := by
    have hnone : slotAt (List.replicate output (none : Option (OutputSlotState Src))) slot =
        none := by
      rw [slotAt, List.getElem?_replicate]
      split <;> rfl
    simp [slotOf, holderOf, new, hnone]
  len_eq := by simp [new, List.countP_replicate]

/-! ### Ticks -/

/-- The outputs of the sources that a tick forgets. -/
def expiredSlots (now : Instant) (sources : List (Src × SourceState)) : List Nat :=
  sources.filterMap fun entry => if entry.2.expired now then entry.2.slot else none

theorem mem_expiredSlots_entries {m : AudioMixer Src} {now : Instant} {slot : Nat} :
    slot ∈ expiredSlots now m.sources.entries ↔
      ∃ source state, m.sources.get source = some state ∧ state.expired now = true ∧
        state.slot = some slot := by
  simp only [expiredSlots, List.mem_filterMap, Prod.exists, Option.ite_none_right_eq_some,
    IndexMap.get_eq_some_iff]

omit [DecidableEq Src] in
/-- The closure of `on_tick` frees the outputs of the expired sources and counts them. -/
theorem clearExpired_ok (now : Instant) {rest : List (Src × SourceState)} (acc : Clearing Src)
    (hlen : acc.len = acc.outputs.countP Option.isSome)
    (hheld : ∀ source state slot, (source, state) ∈ rest → state.slot = some slot →
      (slotAt acc.outputs slot).map OutputSlotState.source = some source)
    (hnodup : (rest.map Prod.fst).Nodup) :
    ∃ acc', clearExpired now rest acc = .ok acc' ∧
      acc'.len = acc'.outputs.countP Option.isSome ∧
      acc'.clear = acc.clear ++ expiredSlots now rest ∧
      acc'.outputs.length = acc.outputs.length ∧
      ∀ slot, slotAt acc'.outputs slot =
        if slot ∈ expiredSlots now rest then none else slotAt acc.outputs slot := by
  induction rest generalizing acc with
  | nil => exact ⟨acc, rfl, hlen, by simp [expiredSlots], rfl, by simp [expiredSlots]⟩
  | cons entry rest ih =>
    obtain ⟨source, state⟩ := entry
    rw [List.map_cons, List.nodup_cons] at hnodup
    have hrest : ∀ src st slot, (src, st) ∈ rest → st.slot = some slot →
        (slotAt acc.outputs slot).map OutputSlotState.source = some src :=
      fun src st slot hmem hslot => hheld src st slot (List.mem_cons_of_mem _ hmem) hslot
    cases hexpired : state.expired now with
    | false =>
      have hslots : expiredSlots now ((source, state) :: rest) = expiredSlots now rest := by
        simp [expiredSlots, hexpired]
      rw [hslots]
      simp only [clearExpired, hexpired]
      exact ih acc hlen hrest hnodup.2
    | true =>
      cases hslot : state.slot with
      | none =>
        have hslots : expiredSlots now ((source, state) :: rest) = expiredSlots now rest := by
          simp [expiredSlots, hexpired, hslot]
        rw [hslots]
        simp only [clearExpired, hexpired, hslot]
        exact ih acc hlen hrest hnodup.2
      | some slot =>
        have hholder := hheld source state slot (List.mem_cons_self ..) hslot
        obtain ⟨out, hout, hsource⟩ := Option.map_eq_some_iff.mp hholder
        have hlt := lt_length_of_slotAt hout
        have hcount := countP_set hlt none
        rw [hout] at hcount
        simp only [Option.toList_some, Option.toList_none, List.length_singleton,
          List.length_nil] at hcount
        have hpos : acc.len ≠ 0 := by omega
        -- the other sources keep their outputs: an output has one source
        have hothers : ∀ src st slot', (src, st) ∈ rest → st.slot = some slot' →
            (slotAt (acc.outputs.set slot none) slot').map OutputSlotState.source =
              some src := by
          intro src st slot' hmem hslot'
          have hholder' := hrest src st slot' hmem hslot'
          have hne : slot' ≠ slot := by
            rintro rfl
            rw [hholder] at hholder'
            cases hholder'
            exact hnodup.1 (List.mem_map.mpr ⟨_, hmem, rfl⟩)
          rw [slotAt_set hlt, if_neg hne]
          exact hholder'
        obtain ⟨acc', hacc', hlen', hclear', hlength', houtputs'⟩ :=
          ih ⟨acc.len - 1, acc.outputs.set slot none, acc.clear ++ [slot]⟩
            (show acc.len - 1 = (acc.outputs.set slot none).countP Option.isSome by omega)
            hothers hnodup.2
        have hslots : expiredSlots now ((source, state) :: rest) =
            slot :: expiredSlots now rest := by
          simp [expiredSlots, hexpired, hslot]
        refine ⟨acc', ?_, hlen', ?_, ?_, fun slot' => ?_⟩
        · simp only [clearExpired, hexpired, hslot, setSlot_ok hlt, bind, Except.bind,
            if_neg hpos, if_true]
          exact hacc'
        · rw [hclear', hslots, List.append_assoc]
          rfl
        · rw [hlength', List.length_set]
        · rw [houtputs' slot', hslots, slotAt_set hlt]
          by_cases hmem : slot' ∈ expiredSlots now rest
          · rw [if_pos hmem, if_pos (List.mem_cons_of_mem _ hmem)]
          · rw [if_neg hmem]
            by_cases heq : slot' = slot
            · rw [if_pos heq, heq, if_pos (List.mem_cons_self ..)]
            · have hnot : slot' ∉ slot :: expiredSlots now rest := by
                rw [List.mem_cons, not_or]
                exact ⟨heq, hmem⟩
              rw [if_neg heq, if_neg hnot]

/-- An output is freed exactly when the source that holds it has expired. -/
theorem WellFormed.mem_expiredSlots {m : AudioMixer Src} (h : m.WellFormed) {now : Instant}
    {source : Src} {state : SourceState} {slot : Nat} (hget : m.sources.get source = some state)
    (hslot : state.slot = some slot) :
    slot ∈ expiredSlots now m.sources.entries ↔ state.expired now = true := by
  have hmine := (h.agrees source slot).mp (by rw [slotOf, hget]; exact hslot)
  rw [mem_expiredSlots_entries]
  constructor
  · rintro ⟨other, state', hget', hexpired, hslot'⟩
    have hother := (h.agrees other slot).mp (by rw [slotOf, hget']; exact hslot')
    rw [hmine] at hother
    cases hother
    rw [hget] at hget'
    cases hget'
    exact hexpired
  · intro hexpired
    exact ⟨source, state, hget, hexpired, hslot⟩

theorem WellFormed.nodup_expiredSlots {m : AudioMixer Src} (h : m.WellFormed) (now : Instant) :
    (expiredSlots now m.sources.entries).Nodup := by
  have hheld : ∀ entry ∈ m.sources.entries, ∀ slot,
      (if entry.2.expired now then entry.2.slot else none) = some slot →
      m.holderOf slot = some entry.1 := by
    rintro ⟨source, state⟩ hmem slot hslot
    rw [Option.ite_none_right_eq_some] at hslot
    refine (h.agrees source slot).mp ?_
    rw [slotOf, IndexMap.get_eq_some_iff.mpr hmem]
    exact hslot.2
  rw [expiredSlots, List.Nodup, List.pairwise_filterMap]
  refine (List.pairwise_map.mp m.sources.nodupKeys).imp_of_mem ?_
  intro first second hfirst hsecond hne slot hslot slot' hslot' heq
  subst heq
  have hholder := hheld first hfirst slot hslot
  rw [hheld second hsecond slot hslot'] at hholder
  exact hne (Option.some.inj hholder).symm

/-- **Ticks.** A tick of a well-formed mixer does not panic and keeps it well formed; it
    returns the outputs it frees, and changes no other. -/
theorem WellFormed.onTick_frees {m : AudioMixer Src} (h : m.WellFormed) (now : Instant) :
    ∃ m' cleared, m.onTick now = .ok (m', if cleared.isEmpty then none else some cleared) ∧
      m'.WellFormed ∧ m'.outputs.length = m.outputs.length ∧ cleared.Nodup ∧
      (∀ slot ∈ cleared, (m.holderOf slot).isSome) ∧
      ∀ slot, slotAt m'.outputs slot =
        if slot ∈ cleared then none else slotAt m.outputs slot := by
  have hheld : ∀ source state slot, (source, state) ∈ m.sources.entries →
      state.slot = some slot →
      (slotAt m.outputs slot).map OutputSlotState.source = some source := by
    intro source state slot hmem hslot
    refine (h.agrees source slot).mp ?_
    rw [slotOf, IndexMap.get_eq_some_iff.mpr hmem]
    exact hslot
  obtain ⟨acc, hacc, hlen, hclear, hlength, houtputs⟩ :=
    clearExpired_ok now ⟨m.len, m.outputs, []⟩ h.len_eq hheld m.sources.nodupKeys
  rw [List.nil_append] at hclear
  set sources := m.sources.retain fun _ state => !state.expired now with hsources
  refine ⟨⟨acc.len, sources, acc.outputs⟩, acc.clear, ?_, ⟨fun source slot => ?_, hlen⟩,
    hlength, ?_, ?_, ?_⟩
  · simp only [AudioMixer.onTick, hacc, bind, Except.bind]
    rfl
  · constructor
    · intro hslotOf
      obtain ⟨state, hget, hslot⟩ := Option.bind_eq_some_iff.mp hslotOf
      obtain ⟨hget, hkept⟩ := IndexMap.get_retain_eq_some_iff.mp hget
      have hnot : slot ∉ expiredSlots now m.sources.entries := by
        rw [h.mem_expiredSlots hget hslot]
        simpa using hkept
      rw [holderOf, houtputs slot, if_neg hnot]
      exact (h.agrees source slot).mp (by rw [slotOf, hget]; exact hslot)
    · intro hholder
      rw [holderOf, houtputs slot] at hholder
      split at hholder
      · cases hholder
      · rename_i hnot
        obtain ⟨state, hget, hslot⟩ :=
          Option.bind_eq_some_iff.mp ((h.agrees source slot).mpr hholder)
        rw [h.mem_expiredSlots hget hslot] at hnot
        refine Option.bind_eq_some_iff.mpr
          ⟨state, IndexMap.get_retain_eq_some_iff.mpr ⟨hget, ?_⟩, hslot⟩
        simpa using hnot
  · rw [hclear]
    exact h.nodup_expiredSlots now
  · intro slot hmem
    rw [hclear, mem_expiredSlots_entries] at hmem
    obtain ⟨source, state, hget, -, hslot⟩ := hmem
    rw [(h.agrees source slot).mp (by rw [slotOf, hget]; exact hslot)]
    rfl
  · intro slot
    rw [houtputs slot, hclear]

theorem WellFormed.onTick {m : AudioMixer Src} (h : m.WellFormed) (now : Instant) :
    ∃ m' cleared, m.onTick now = .ok (m', if cleared.isEmpty then none else some cleared) ∧
      m'.WellFormed ∧ m'.outputs.length = m.outputs.length ∧
      (∀ slot ∈ cleared, slot < m.outputs.length) ∧
      ∀ slot, slotAt m'.outputs slot =
        if slot ∈ cleared then none else slotAt m.outputs slot := by
  obtain ⟨m', cleared, hm', hwell, hlength, -, hheld, houtputs⟩ := h.onTick_frees now
  refine ⟨m', cleared, hm', hwell, hlength, ?_, houtputs⟩
  intro slot hmem
  obtain ⟨source, hholder⟩ := Option.isSome_iff_exists.mp (hheld slot hmem)
  obtain ⟨out, hout, -⟩ := Option.map_eq_some_iff.mp hholder
  exact lt_length_of_slotAt hout

/-! ### Packets -/

/-- What a packet of a source does to the outputs. -/
inductive Routed (m m' : AudioMixer Src) (source : Src) : Option (Nat × Bool) → Prop
  | dropped : m'.outputs = m.outputs → (∀ slot, m.holderOf slot ≠ some source) →
      Routed m m' source none
  | kept {slot : Nat} : m'.outputs = m.outputs → m.holderOf slot = some source →
      Routed m m' source (some (slot, false))
  | taken {slot : Nat} (level : Int8) : slot < m.outputs.length → m.holderOf slot ≠ some source →
      m'.outputs = m.outputs.set slot (some ⟨level, source⟩) →
      Routed m m' source (some (slot, true))

theorem slotOf_insert (len : Nat) (sources : IndexMap Src SourceState) (source : Src)
    (state : SourceState) (outputs : List (Option (OutputSlotState Src))) (other : Src) :
    slotOf ⟨len, sources.insert source state, outputs⟩ other =
      if other = source then state.slot else (sources.get other).bind SourceState.slot := by
  rw [slotOf, IndexMap.get_insert]
  split <;> rfl

/-- A source whose output stays the same. -/
theorem WellFormed.touch {m : AudioMixer Src} (h : m.WellFormed) {source : Src}
    {state : SourceState} (hslot : m.slotOf source = state.slot) :
    WellFormed { m with sources := m.sources.insert source state } := by
  refine ⟨fun other slot => ?_, h.len_eq⟩
  change _ ↔ m.holderOf slot = some other
  rw [← h.agrees, slotOf_insert]
  by_cases hother : other = source
  · rw [if_pos hother, hother, hslot]
  · rw [if_neg hother, slotOf]

/-- A source takes an empty output. -/
theorem WellFormed.take {m : AudioMixer Src} (h : m.WellFormed) {source : Src} {slot : Nat}
    (hfree : m.slotOf source = none) (hlt : slot < m.outputs.length)
    (hempty : slotAt m.outputs slot = none) (now : Instant) (level : Int8) :
    WellFormed ⟨m.len + 1, m.sources.insert source ⟨now, some slot⟩,
      m.outputs.set slot (some ⟨level, source⟩)⟩ := by
  refine ⟨fun other slot' => ?_, ?_⟩
  · have hagrees := h.agrees other slot'
    rw [slotOf_insert, ← slotOf, holderOf, slotAt_set hlt]
    by_cases hother : other = source
    · subst hother
      rw [hfree, holderOf] at hagrees
      rw [if_pos rfl]
      by_cases heq : slot' = slot
      · simp [heq]
      · rw [if_neg heq, ← hagrees]
        simp [Ne.symm heq]
    · rw [if_neg hother]
      by_cases heq : slot' = slot
      · subst heq
        rw [holderOf, hempty] at hagrees
        rw [if_pos rfl, hagrees]
        simp [Ne.symm hother]
      · rw [if_neg heq]
        exact hagrees
  · have hcount := countP_set hlt (some ⟨level, source⟩)
    rw [hempty] at hcount
    simp only [Option.toList_some, Option.toList_none, List.length_singleton,
      List.length_nil] at hcount
    have hlen := h.len_eq
    change m.len + 1 = (m.outputs.set slot (some ⟨level, source⟩)).countP Option.isSome
    omega

/-- A source takes the output of another one. -/
theorem WellFormed.takeOver {m : AudioMixer Src} (h : m.WellFormed) {source lowest : Src}
    {slot : Nat} {oldLevel : Int8} (hfree : m.slotOf source = none)
    (hlowest : slotAt m.outputs slot = some ⟨oldLevel, lowest⟩) (state : SourceState)
    (now : Instant) (level : Int8) :
    WellFormed ⟨m.len, (m.sources.insert source ⟨now, some slot⟩).insert lowest
      { state with slot := none }, m.outputs.set slot (some ⟨level, source⟩)⟩ := by
  have hlt := lt_length_of_slotAt hlowest
  have hheld : m.slotOf lowest = some slot := by
    rw [h.agrees, holderOf, hlowest, Option.map_some]
  have hne : lowest ≠ source := by
    rintro rfl
    rw [hfree] at hheld
    cases hheld
  refine ⟨fun other slot' => ?_, ?_⟩
  · have hagrees := h.agrees other slot'
    rw [slotOf_insert, holderOf, slotAt_set hlt]
    by_cases hlow : other = lowest
    · subst hlow
      rw [hheld, holderOf] at hagrees
      rw [if_pos rfl]
      by_cases heq : slot' = slot
      · simp [heq, Ne.symm hne]
      · rw [if_neg heq, ← hagrees]
        simp [Ne.symm heq]
    · rw [if_neg hlow, IndexMap.get_insert]
      by_cases hother : other = source
      · subst hother
        rw [hfree, holderOf] at hagrees
        rw [if_pos rfl]
        by_cases heq : slot' = slot
        · simp [heq]
        · rw [if_neg heq, ← hagrees]
          simp [Ne.symm heq]
      · rw [if_neg hother, ← slotOf, hagrees, holderOf]
        by_cases heq : slot' = slot
        · subst heq
          rw [if_pos rfl, hlowest]
          simp [Ne.symm hlow, Ne.symm hother]
        · rw [if_neg heq]
  · have hcount := countP_set hlt (some ⟨level, source⟩)
    rw [hlowest] at hcount
    simp only [Option.toList_some, List.length_singleton] at hcount
    have hlen := h.len_eq
    change m.len = (m.outputs.set slot (some ⟨level, source⟩)).countP Option.isSome
    omega

theorem WellFormed.contend {m : AudioMixer Src} (h : m.WellFormed)
    (houtputs : 0 < m.outputs.length) {source : Src} (hfree : m.slotOf source = none)
    (now : Instant) (level : Int8) :
    ∃ m' r, m.contend now source level = .ok (m', r) ∧ m'.WellFormed ∧ Routed m m' source r := by
  have hnot : ∀ slot, m.holderOf slot ≠ some source := by
    intro slot hholder
    rw [← h.agrees, hfree] at hholder
    cases hholder
  unfold AudioMixer.contend
  cases hhas : m.hasEmptySlot with
  | true =>
    rw [if_pos rfl]
    have hless : m.len < m.outputs.length := by simpa [hasEmptySlot] using hhas
    cases hfind : m.findEmptySlot with
    | none =>
      have hfull := findEmptySlot_eq_none hfind
      have hlen := h.len_eq
      omega
    | some slot =>
      obtain ⟨hlt, hempty⟩ := findEmptySlot_eq_some hfind
      refine ⟨_, _, ?_, h.take hfree hlt hempty now level, .taken level hlt (hnot slot) rfl⟩
      simp only [setSlot_ok hlt, bind, Except.bind]
  | false =>
    rw [if_neg Bool.false_ne_true]
    have hmore : ¬ m.len < m.outputs.length := by simpa [hasEmptySlot] using hhas
    have hpos : 0 < m.outputs.countP Option.isSome := by
      have hlen := h.len_eq
      omega
    -- every output is occupied, so there is a lowest one
    have hsome : m.lowestSlot.isSome := by
      obtain ⟨state, hmem, hstate⟩ := List.countP_pos_iff.mp hpos
      obtain ⟨out, rfl⟩ := Option.isSome_iff_exists.mp hstate
      exact lowestFrom_isSome (Or.inr ⟨out, hmem⟩)
    cases hlow : m.lowestSlot with
    | none =>
      rw [hlow] at hsome
      cases hsome
    | some found =>
      obtain ⟨slot, lowest, lowestLevel⟩ := found
      have hat : slotAt m.outputs slot = some ⟨lowestLevel, lowest⟩ :=
        lowestFrom_eq_some (fun k => by rw [Nat.zero_add]) (by simp) hlow
      have hlt := lt_length_of_slotAt hat
      simp only
      split
      · rename_i hswitch
        have hheld : m.slotOf lowest = some slot := by
          rw [h.agrees, holderOf, hat, Option.map_some]
        obtain ⟨state, hstate, -⟩ := Option.bind_eq_some_iff.mp hheld
        have hget : (m.sources.insert source ⟨now, some slot⟩).get lowest = some state := by
          rw [IndexMap.get_insert_ne _ _ hswitch.1]
          exact hstate
        refine ⟨_, _, ?_, h.takeOver hfree hat state now level, .taken level hlt (hnot slot) rfl⟩
        simp only [hget, setSlot_ok hlt, bind, Except.bind]
      · exact ⟨m, none, rfl, h, .dropped rfl hnot⟩

/-- **Packets.** A packet at a well-formed mixer that has an output does not panic and
    keeps it well formed; the slot it is sent to is reported as newly set exactly when
    its source did not hold it before. -/
theorem WellFormed.onPkt {m : AudioMixer Src} (h : m.WellFormed)
    (houtputs : 0 < m.outputs.length) (now : Instant) (source : Src) (level : Option Int8) :
    ∃ m' r, m.onPkt now source level = .ok (m', r) ∧ m'.WellFormed ∧ Routed m m' source r := by
  unfold AudioMixer.onPkt
  cases hget : m.sources.get source with
  | some state =>
    have hslotOf : m.slotOf source = state.slot := by rw [slotOf, hget]; rfl
    have htouch : WellFormed { m with
        sources := m.sources.insert source { state with lastChangedAt := now } } :=
      h.touch hslotOf
    simp only
    cases hslot : state.slot with
    | some slot =>
      rw [hslot] at htouch
      refine ⟨_, _, rfl, htouch, .kept rfl ?_⟩
      rw [← h.agrees, hslotOf, hslot]
    | none =>
      rw [hslot] at htouch
      have hfree : slotOf { m with
          sources := m.sources.insert source ⟨now, none⟩ } source = none := by
        rw [slotOf_insert, if_pos rfl]
      obtain ⟨m', r, hm', hwell, hrouted⟩ :=
        htouch.contend houtputs hfree now (level.getD silentLevel)
      refine ⟨m', r, hm', hwell, ?_⟩
      cases hrouted with
      | dropped hsame hnot => exact .dropped hsame hnot
      | kept hsame hholder => exact .kept hsame hholder
      | taken l hlt hnew hset => exact .taken l hlt hnew hset
  | none =>
    have hfree : m.slotOf source = none := by rw [slotOf, hget]; rfl
    simp only
    cases hfind : m.findEmptySlot with
    | some slot =>
      obtain ⟨hlt, hempty⟩ := findEmptySlot_eq_some hfind
      refine ⟨_, _, ?_, h.take hfree hlt hempty now (level.getD silentLevel), .taken _ hlt ?_ rfl⟩
      · simp only [setSlot_ok hlt, bind, Except.bind]
      · rw [holderOf, hempty]
        simp
    | none =>
      refine ⟨_, _, rfl, h.touch hfree, .dropped rfl fun slot hholder => ?_⟩
      rw [← h.agrees, hfree] at hholder
      cases hholder

omit [DecidableEq Src] in
theorem Routed.length_eq {m m' : AudioMixer Src} {source : Src} {r : Option (Nat × Bool)}
    (h : Routed m m' source r) : m'.outputs.length = m.outputs.length := by
  cases h with
  | dropped hsame _ => rw [hsame]
  | kept hsame _ => rw [hsame]
  | taken level _ _ hset => rw [hset, List.length_set]

/-! ### Runs -/

/-- The calls of a mixer's owner. -/
inductive Call (Src : Type) where
  | tick (now : Instant)
  | pkt (now : Instant) (source : Src) (audioLevel : Option Int8)

inductive Reply where
  | cleared (slots : Option (List Nat))
  | routed (slot : Option (Nat × Bool))

def call (m : AudioMixer Src) : Call Src → Except Panic (AudioMixer Src × Reply)
  | .tick now => do
      let (m, slots) ← m.onTick now
      .ok (m, .cleared slots)
  | .pkt now source audioLevel => do
      let (m, slot) ← m.onPkt now source audioLevel
      .ok (m, .routed slot)

/-- The mixer after some calls. -/
def run (m : AudioMixer Src) : List (Call Src) → Except Panic (AudioMixer Src)
  | [] => .ok m
  | c :: rest => do
      let (m, _) ← m.call c
      m.run rest

/-- What a reply tells about the outputs before and after the call: a tick lists the
    outputs it frees, without repetition and only if there are any; a packet is said to
    have set an output exactly if that output has a new holder. -/
def Reports (m m' : AudioMixer Src) : Reply → Prop
  | .cleared slots =>
      slots ≠ some [] ∧ (slots.getD []).Nodup ∧
      (∀ slot, slot ∈ slots.getD [] ↔ m.holderOf slot ≠ none ∧ m'.holderOf slot = none) ∧
      ∀ slot, slot ∉ slots.getD [] → m'.holderOf slot = m.holderOf slot
  | .routed r => ∀ slot, r = some (slot, true) ↔ m'.holderOf slot ≠ m.holderOf slot

theorem WellFormed.call {m : AudioMixer Src} (h : m.WellFormed)
    (houtputs : 0 < m.outputs.length) (c : Call Src) :
    ∃ m' reply, m.call c = .ok (m', reply) ∧ m'.WellFormed ∧
      m'.outputs.length = m.outputs.length ∧ Reports m m' reply := by
  cases c with
  | tick now =>
    obtain ⟨m', cleared, hm', hwell, hlength, hnodup, hheld, hat⟩ := h.onTick_frees now
    refine ⟨m', .cleared (if cleared.isEmpty then none else some cleared), ?_, hwell, hlength,
      ?_⟩
    · simp only [AudioMixer.call, hm', bind, Except.bind]
    have hslots : (if cleared.isEmpty then none else some cleared).getD [] = cleared := by
      cases cleared <;> rfl
    have hkept : ∀ slot, slot ∉ cleared → m'.holderOf slot = m.holderOf slot := by
      intro slot hnot
      rw [holderOf, hat slot, if_neg hnot, holderOf]
    refine ⟨?_, ?_, ?_, ?_⟩
    · cases cleared <;> simp
    · rw [hslots]
      exact hnodup
    · intro slot
      rw [hslots]
      constructor
      · intro hmem
        refine ⟨Option.isSome_iff_ne_none.mp (hheld slot hmem), ?_⟩
        rw [holderOf, hat slot, if_pos hmem, Option.map_none]
      · rintro ⟨hsome, hnone⟩
        by_contra hnot
        rw [hkept slot hnot] at hnone
        exact hsome hnone
    · rw [hslots]
      exact hkept
  | pkt now source level =>
    obtain ⟨m', r, hm', hwell, hrouted⟩ := h.onPkt houtputs now source level
    refine ⟨m', .routed r, ?_, hwell, hrouted.length_eq, ?_⟩
    · simp only [AudioMixer.call, hm', bind, Except.bind]
    intro slot
    cases hrouted with
    | dropped hsame _ => simp [holderOf, hsame]
    | kept hsame _ => simp [holderOf, hsame]
    | @taken taken level hlt hnew hset =>
      rw [Option.some.injEq, Prod.mk.injEq, holderOf, hset, slotAt_set hlt]
      by_cases heq : slot = taken
      · subst heq
        simp [Ne.symm hnew]
      · simp [heq, Ne.symm heq, holderOf]

/-- Every sequence of calls of a well-formed mixer that has an output goes through. -/
theorem WellFormed.run {m : AudioMixer Src} (h : m.WellFormed)
    (houtputs : 0 < m.outputs.length) (calls : List (Call Src)) :
    ∃ m', m.run calls = .ok m' ∧ m'.WellFormed ∧ m'.outputs.length = m.outputs.length := by
  induction calls generalizing m with
  | nil => exact ⟨m, rfl, h, rfl⟩
  | cons c rest ih =>
    obtain ⟨m₁, reply, hm₁, hwell₁, hlength₁, -⟩ := h.call houtputs c
    obtain ⟨m', hm', hwell', hlength'⟩ := ih hwell₁ (by rw [hlength₁]; exact houtputs)
    refine ⟨m', ?_, hwell', hlength'.trans hlength₁⟩
    simp only [AudioMixer.run, hm₁, bind, Except.bind]
    exact hm'

/-- **Representation.** Whatever is sent to a mixer with an output, no `expect` and no index
    fails; after every run an output names a source exactly if the source records that
    output, the occupied outputs are as many as recorded, and the next call, whichever it
    is, reports the outputs it frees or sets. -/
theorem mixer_representation (output : Nat) (hpos : 0 < output) (calls : List (Call Src)) :
    ∃ m, (new output : AudioMixer Src).run calls = .ok m ∧ m.outputs.length = output ∧
      (∀ source slot, m.holderOf slot = some source ↔ m.slotOf source = some slot) ∧
      m.outputs.countP Option.isSome = m.len ∧
      ∀ c, ∃ m' reply, m.call c = .ok (m', reply) ∧ Reports m m' reply := by
  have hlength : (new output : AudioMixer Src).outputs.length = output := by
    simp [new]
  obtain ⟨m, hm, hwell, hsame⟩ :=
    (wellFormed_new output).run (by rw [hlength]; exact hpos) calls
  rw [hlength] at hsame
  refine ⟨m, hm, hsame, ?_, hwell.len_eq.symm, ?_⟩
  · intro source slot
    exact (hwell.agrees source slot).symm
  · intro c
    obtain ⟨m', reply, hm', -, -, hreports⟩ := hwell.call (by rw [hsame]; exact hpos) c
    exact ⟨m', reply, hm', hreports⟩

/-- One output: a clearly louder source takes it over, and the first one is forgotten. -/
theorem mixer_representation_oneOutput :
    ∃ m, (new 1 : AudioMixer Nat).run
        [.pkt 0 100 (some 10), .pkt 0 101 (some 10), .pkt 1 101 (some 40),
          .tick audioSlotTimeout] = .ok m ∧
      m.holderOf 0 = some 101 ∧
      ∀ c, ∃ m' reply, m.call c = .ok (m', reply) ∧ Reports m m' reply := by
  obtain ⟨m, hm, -, -, -, hcalls⟩ := mixer_representation 1 (by decide)
    [.pkt 0 100 (some 10), .pkt 0 101 (some 10), .pkt 1 101 (some 40), .tick audioSlotTimeout]
  refine ⟨m, hm, ?_, hcalls⟩
  cases hm
  rfl

end AudioMixer

end MediaServer
