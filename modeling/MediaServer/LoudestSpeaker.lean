import MediaServer.AudioMixer
import MediaServer.Lib.Execution

/-!
# The loudest speakers

When all outputs are held, a source without one may take the output of the quietest holder, if it
is louder by the margin.  The mixer compares with the level that a holder took its output with;
later packets of the holder do not change that level.  So the policy is that of the levels heard
most recently as long as the holders still speak as loud as they did.
-/

namespace MediaServer.AudioMixer

open Collections Slots Execution

variable {Src : Type}

/-! ### The quietest holder -/

/-- The lowest slot is as low as the one given and those looked at. -/
theorem lowestFrom_le {outputs : List (Option (OutputSlotState Src))} {i slot : Nat}
    {lowest : Option (Nat × Src × Int8)} {source : Src} {level : Int8}
    (h : lowestFrom i lowest outputs = some (slot, source, level)) :
    (∀ found, lowest = some found → level ≤ found.2.2) ∧
      ∀ out, some out ∈ outputs → level ≤ out.audioLevel := by
  induction outputs generalizing i lowest with
  | nil =>
    refine ⟨fun found hfound => ?_, fun out hout => absurd hout List.not_mem_nil⟩
    rw [lowestFrom.eq_def] at h
    rw [hfound] at h
    cases h
    exact Int8.le_refl _
  | cons state rest ih =>
    rcases state with _ | here
    · obtain ⟨hlowest, hrest⟩ := ih h
      refine ⟨hlowest, fun out hout => ?_⟩
      rcases List.mem_cons.mp hout with heq | hout
      · cases heq
      · exact hrest out hout
    · rcases lowest with _ | ⟨j, src, l⟩
      · obtain ⟨hlowest, hrest⟩ := ih h
        refine ⟨fun found hfound => (by cases hfound), fun out hout => ?_⟩
        rcases List.mem_cons.mp hout with heq | hout
        · cases heq
          exact hlowest _ rfl
        · exact hrest out hout
      · simp only [lowestFrom] at h
        split at h
        · rename_i hle
          obtain ⟨hlowest, hrest⟩ := ih h
          have hhere := hlowest _ rfl
          refine ⟨fun found hfound => ?_, fun out hout => ?_⟩
          · cases hfound
            exact Int8.le_trans hhere hle
          · rcases List.mem_cons.mp hout with heq | hout
            · cases heq
              exact hhere
            · exact hrest out hout
        · rename_i hle
          obtain ⟨hlowest, hrest⟩ := ih h
          have hfound := hlowest _ rfl
          refine ⟨hlowest, fun out hout => ?_⟩
          rcases List.mem_cons.mp hout with heq | hout
          · cases heq
            exact Int8.le_trans hfound (Int8.le_of_lt (Int8.not_le.mp hle))
          · exact hrest out hout

theorem lowestSlot_spec {m : AudioMixer Src} {slot : Nat} {source : Src} {level : Int8}
    (h : m.lowestSlot = some (slot, source, level)) :
    slotAt m.outputs slot = some ⟨level, source⟩ ∧
      ∀ slot' out, slotAt m.outputs slot' = some out → level ≤ out.audioLevel := by
  constructor
  · exact lowestFrom_eq_some (fun k => by rw [Nat.zero_add]) (by simp) h
  · intro slot' out hout
    exact (lowestFrom_le h).2 out (List.mem_of_getElem? (slotAt_eq_some.mp hout))

/-! ### Who takes an output from whom -/

theorem clearExpired_slotAt {now : Instant} {rest : List (Src × SourceState)}
    {acc acc' : Clearing Src} (h : clearExpired now rest acc = .ok acc') (slot : Nat) :
    slotAt acc'.outputs slot = none ∨ slotAt acc'.outputs slot = slotAt acc.outputs slot := by
  induction rest generalizing acc with
  | nil =>
    cases h
    exact Or.inr rfl
  | cons entry rest ih =>
    obtain ⟨source, state⟩ := entry
    simp only [clearExpired] at h
    split at h
    · split at h
      · rename_i freed hslot
        simp only [setSlot, bind, Except.bind] at h
        split at h
        · cases h
        · rename_i outputs hset
          split at hset
          · rename_i hlt
            cases hset
            split at h
            · cases h
            · rcases ih h with hnone | hsame
              · exact Or.inl hnone
              · rw [slotAt_set hlt] at hsame
                by_cases hfreed : slot = freed
                · rw [if_pos hfreed] at hsame
                  exact Or.inl hsame
                · rw [if_neg hfreed] at hsame
                  exact Or.inr hsame
          · cases hset
      · exact ih h
    · exact ih h

/-- After a tick an output is empty or has the holder it had. -/
theorem onTick_holderOf {m m' : AudioMixer Src} {now : Instant} {cleared : Option (List Nat)}
    (h : m.onTick now = .ok (m', cleared)) (slot : Nat) :
    m'.holderOf slot = none ∨ m'.holderOf slot = m.holderOf slot := by
  simp only [onTick, bind, Except.bind] at h
  split at h
  · cases h
  · rename_i acc hacc
    cases h
    rcases clearExpired_slotAt hacc slot with hnone | hsame
    · exact Or.inl (by rw [holderOf, hnone, Option.map_none])
    · exact Or.inr (by rw [holderOf, hsame, holderOf])

theorem setSlot_eq_ok {α : Type} {slots slots' : List (Option α)} {slot : Nat} {state : Option α}
    (h : setSlot slots slot state = .ok slots') :
    slot < slots.length ∧ slots' = slots.set slot state := by
  rw [setSlot] at h
  split at h
  · rename_i hlt
    cases h
    exact ⟨hlt, rfl⟩
  · cases h

/-- A source that has no output takes a held one: it is the quietest, and quieter by the margin. -/
structure TakesOver (m : AudioMixer Src) (source : Src) (level : Int8) (slot : Nat)
    (holder : Src) : Prop where
  full : m.hasEmptySlot = false
  lowest : ∃ taken, m.lowestSlot = some (slot, holder, taken) ∧
    taken.toInt + switchAudioThreshold ≤ level.toInt

variable [DecidableEq Src]

theorem contend_takesOver {m m' : AudioMixer Src} {now : Instant} {source : Src} {level : Int8}
    {r : Option (Nat × Bool)} (h : m.contend now source level = .ok (m', r)) {slot : Nat}
    {holder source' : Src} (hold : m.holderOf slot = some holder)
    (hnew : m'.holderOf slot = some source') (hne : source' ≠ holder) :
    source' = source ∧ m.TakesOver source level slot holder := by
  simp only [contend] at h
  split at h
  · split at h
    · cases h
    · rename_i hfind
      obtain ⟨outputs, hset, h⟩ := Except.bind_eq_ok.mp h
      cases h
      obtain ⟨hlt, rfl⟩ := setSlot_eq_ok hset
      obtain ⟨-, hempty⟩ := findEmptySlot_eq_some hfind
      rw [holderOf, slotAt_set hlt] at hnew
      split at hnew
      · rename_i heq
        rw [holderOf, heq, hempty] at hold
        cases hold
      · rw [← holderOf, hold] at hnew
        cases hnew
        exact absurd rfl hne
  · rename_i hfull
    split at h
    · cases h
    · rename_i lowest lowestSource taken hlowest
      split at h
      · rename_i hswitch
        split at h
        · cases h
        · obtain ⟨outputs, hset, h⟩ := Except.bind_eq_ok.mp h
          cases h
          obtain ⟨hlt, rfl⟩ := setSlot_eq_ok hset
          obtain ⟨hat, -⟩ := lowestSlot_spec hlowest
          rw [holderOf, slotAt_set hlt] at hnew
          split at hnew
          · rename_i heq
            subst heq
            rw [holderOf, hat] at hold
            cases hold
            cases hnew
            exact ⟨rfl, Bool.eq_false_iff.mpr hfull, taken, hlowest, hswitch.2⟩
          · rw [← holderOf, hold] at hnew
            cases hnew
            exact absurd rfl hne
      · cases h
        rw [hold] at hnew
        cases hnew
        exact absurd rfl hne

/-- Only a contention changes the holder of a held output. -/
theorem onPkt_takesOver {m m' : AudioMixer Src} {now : Instant} {source : Src}
    {level : Option Int8} {r : Option (Nat × Bool)} (h : m.onPkt now source level = .ok (m', r))
    {slot : Nat} {holder source' : Src} (hold : m.holderOf slot = some holder)
    (hnew : m'.holderOf slot = some source') (hne : source' ≠ holder) :
    source' = source ∧ m.sources.contains source = true ∧ m.slotOf source = none ∧
      m.TakesOver source (level.getD silentLevel) slot holder := by
  simp only [onPkt] at h
  split at h
  · rename_i state hget
    split at h
    · cases h
      have hsame : m.holderOf slot = some source' := hnew
      rw [hold] at hsame
      cases hsame
      exact absurd rfl hne
    · rename_i hslot
      obtain ⟨hsource, hfull, hlowest⟩ := contend_takesOver h hold hnew hne
      refine ⟨hsource, ?_, ?_, hfull, hlowest⟩
      · rw [IndexMap.contains, hget]
        rfl
      · rw [slotOf, hget, Option.bind_some, hslot]
  · split at h
    · rename_i hfind
      obtain ⟨outputs, hset, h⟩ := Except.bind_eq_ok.mp h
      cases h
      obtain ⟨hlt, rfl⟩ := setSlot_eq_ok hset
      obtain ⟨-, hempty⟩ := findEmptySlot_eq_some hfind
      rw [holderOf, slotAt_set hlt] at hnew
      split at hnew
      · rename_i heq
        rw [holderOf, heq, hempty] at hold
        cases hold
      · rw [← holderOf, hold] at hnew
        cases hnew
        exact absurd rfl hne
    · cases h
      have hsame : m.holderOf slot = some source' := hnew
      rw [hold] at hsame
      cases hsame
      exact absurd rfl hne

/-! ### Levels heard most recently -/

/-- A mixer, with the level that each source has reported last. -/
structure Watch (Src : Type) where
  mixer : AudioMixer Src
  heard : Src → Int8

namespace Watch

def start (output : Nat) : Watch Src := ⟨new output, fun _ => silentLevel⟩

def step (w : Watch Src) : Call Src → Except Panic (Watch Src)
  | .tick now => do
    let (mixer, _) ← w.mixer.onTick now
    return { w with mixer }
  | .pkt now source audioLevel => do
    let (mixer, _) ← w.mixer.onPkt now source audioLevel
    return ⟨mixer, Function.update w.heard source (audioLevel.getD silentLevel)⟩

/-- The steps of a run, which ends where the code panics. -/
def next (w : Watch Src) (c : Call Src) : Option (Watch Src) := (w.step c).toOption

/-- Who takes an output from its holder is louder by the margin than the holder has been last, and
    no other holder has been quieter. -/
def LoudestTakes (w : Watch Src) (_ : Call Src) (w' : Watch Src) : Prop :=
  ∀ slot holder source, w.mixer.holderOf slot = some holder →
    w'.mixer.holderOf slot = some source → source ≠ holder →
    (w.heard holder).toInt + switchAudioThreshold ≤ (w'.heard source).toInt ∧
      ∀ slot' other, w.mixer.holderOf slot' = some other → w.heard holder ≤ w.heard other

/-- When a known source without an output speaks and all outputs are held, each holder has last
    reported the level with which it took its output. -/
def MeetsTaken (w : Watch Src) (c : Call Src) (_ : Watch Src) : Prop :=
  match c with
  | .tick _ => True
  | .pkt _ source _ =>
    w.mixer.sources.contains source = true → w.mixer.slotOf source = none →
      w.mixer.hasEmptySlot = false →
      ∀ state ∈ w.mixer.outputs, ∀ out ∈ state, w.heard out.source = out.audioLevel

instance (w : Watch Src) (c : Call Src) (w' : Watch Src) : Decidable (w.MeetsTaken c w') := by
  unfold MeetsTaken
  cases c <;> infer_instance

theorem step_loudest {w w' : Watch Src} {c : Call Src} (h : w.step c = .ok w')
    (hmeets : w.MeetsTaken c w') : w.LoudestTakes c w' := by
  intro slot holder source hold hnew hne
  rcases c with now | ⟨now, speaker, level⟩
  · obtain ⟨⟨mixer, cleared⟩, htick, h⟩ := Except.bind_eq_ok.mp h
    cases h
    rcases onTick_holderOf htick slot with hnone | hsame
    · rw [hnone] at hnew
      cases hnew
    · rw [hsame, hold] at hnew
      cases hnew
      exact absurd rfl hne
  · obtain ⟨⟨mixer, r⟩, hpkt, h⟩ := Except.bind_eq_ok.mp h
    cases h
    obtain ⟨rfl, hknown, hfree, hfull, taken, hlowest, hlouder⟩ :=
      onPkt_takesOver hpkt hold hnew hne
    have hlast : ∀ slot' out, slotAt w.mixer.outputs slot' = some out →
        w.heard out.source = out.audioLevel :=
      fun slot' out hout => hmeets hknown hfree hfull _
        (List.mem_of_getElem? (slotAt_eq_some.mp hout)) out rfl
    obtain ⟨hat, hmin⟩ := lowestSlot_spec hlowest
    have hholder : w.heard holder = taken := hlast slot _ hat
    constructor
    · rw [hholder]
      simpa using hlouder
    · intro slot' other hother
      obtain ⟨out, hout, rfl⟩ := Option.map_eq_some_iff.mp hother
      rw [hholder, hlast slot' out hout]
      exact hmin slot' out hout

/-- **The loudest speakers.**  In every run in which each holder has last reported the level with
    which it took its output, whenever a source contends for one, the loudest speakers take. -/
theorem loudest_takes (output : Nat) (calls : List (Call Src))
    (h : Along next MeetsTaken (start output) calls) :
    Along next LoudestTakes (start output : Watch Src) calls :=
  along_mono (fun _ _ _ hstep hmeets => step_loudest (Except.mem_toOption.mp hstep) hmeets) h

/-- Source 100 speaks at -60 all the time, and source 101 takes over at -25. -/
theorem loudest_takes_steady :
    Along next LoudestTakes (start 1 : Watch Nat)
      [.pkt 0 100 (some (-60)), .pkt 0 101 (some (-60)), .pkt 10 100 (some (-60)),
        .pkt 20 101 (some (-25))] :=
  loudest_takes 1 _ (by decide)

/-! ### A holder that has become louder -/

/-- Source 100 takes the only output at -60 and goes on at -10; source 101 speaks at -25. -/
def louderSince : List (Call Nat) :=
  [.pkt 0 100 (some (-60)), .pkt 0 101 (some (-60)), .pkt 10 100 (some (-10)),
    .pkt 20 101 (some (-25))]

theorem not_loudest_takes :
    ¬ ∀ (output : Nat) (calls : List (Call Nat)),
      Along next LoudestTakes (start output : Watch Nat) calls := by
  intro hall
  have hrun : (exec next (fun _ _ => true) (start 1 : Watch Nat) (louderSince.take 3)).any
      (fun w => (next w (.pkt 20 101 (some (-25)))).any fun w' =>
        w.mixer.holderOf 0 = some 100 ∧ w'.mixer.holderOf 0 = some 101 ∧
          w.heard 100 = -10 ∧ w'.heard 101 = -25) = true := by
    decide
  obtain ⟨w, hw, hlast⟩ := (Option.any_eq_true _ _).mp hrun
  obtain ⟨w', hw', hbad⟩ := (Option.any_eq_true _ _).mp hlast
  obtain ⟨hold, hnew, hholder, hsource⟩ := of_decide_eq_true hbad
  have hreaches : Reaches next (fun _ _ => True) _ (louderSince.take 3) w :=
    reaches_of_exec (fun _ _ _ => trivial) hw
  have hend := (((hall 1 louderSince).of_append hreaches) w' hw').1
  have hlouder := (hend 0 100 101 hold hnew (by decide)).1
  rw [hholder, hsource] at hlouder
  revert hlouder
  decide

end Watch

end MediaServer.AudioMixer
