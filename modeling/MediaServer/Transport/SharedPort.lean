import MediaServer.Lib.Execution
import MediaServer.Lib.IndexMap

/-!
# The shared UDP port

All WebRTC sessions of a worker receive their packets through one UDP port.  A session is
registered with the user name fragment of its offer.  The first STUN message that carries the
fragment binds the address it came from to the session, and every later packet from that
address goes there without being looked at.

The session indexes are given out again after a session has ended, so a binding must not
outlive the registration under which it was made.
-/

namespace MediaServer.Transport

open Collections Execution

structure SharedUdpPort (Addr Task : Type) where
  taskRemotes : IndexMap Addr Task
  taskRemotesMap : IndexMap Task (List Addr)
  taskUfrags : IndexMap String Task
  taskUfragsReverse : IndexMap Task String

namespace SharedUdpPort

variable {Addr Task Msg : Type}

def default : SharedUdpPort Addr Task := ⟨∅, ∅, ∅, ∅⟩

variable [DecidableEq Addr] [DecidableEq Task]

def addUfrag (port : SharedUdpPort Addr Task) (ufrag : String) (task : Task) :
    SharedUdpPort Addr Task :=
  { port with
    taskUfrags := port.taskUfrags.insert ufrag task
    taskUfragsReverse := port.taskUfragsReverse.insert task ufrag }

/-- The early returns of the source leave what was removed before them removed. -/
def removeTask (port : SharedUdpPort Addr Task) (task : Task) :
    SharedUdpPort Addr Task × Option Unit :=
  match port.taskUfragsReverse.get task with
  | none => (port, none)
  | some ufrag =>
    let port := { port with taskUfragsReverse := port.taskUfragsReverse.swapRemove task }
    match port.taskUfrags.get ufrag with
    | none => (port, none)
    | some _ =>
      let port := { port with taskUfrags := port.taskUfrags.swapRemove ufrag }
      match port.taskRemotesMap.get task with
      | none => (port, none)
      | some remotes =>
        ({ port with
            taskRemotesMap := port.taskRemotesMap.swapRemove task
            taskRemotes := remotes.foldl IndexMap.swapRemove port.taskRemotes }, some ())

/-- What `StunMessage` offers: the parser of a packet, and the two parts of the user name of a
    message. -/
structure StunMessage (Msg : Type) where
  parse : List UInt8 → Option Msg
  splitUsername : Msg → Option (String × String)

/-- The user name fragment that a packet carries, if it is a STUN message with a user name. -/
def StunMessage.username (stun : StunMessage Msg) (buf : List UInt8) : Option String :=
  match stun.parse buf with
  | none => none
  | some msg => (stun.splitUsername msg).map Prod.fst

def mapRemote (stun : StunMessage Msg) (port : SharedUdpPort Addr Task) (remote : Addr)
    (buf : List UInt8) : SharedUdpPort Addr Task × Option Task :=
  match port.taskRemotes.get remote with
  | some task => (port, some task)
  | none =>
    match stun.parse buf with
    | none => (port, none)
    | some msg =>
      match stun.splitUsername msg with
      | none => (port, none)
      | some (stunUsername, _) =>
        match port.taskUfrags.get stunUsername with
        | none => (port, none)
        | some task =>
          let remotes := (port.taskRemotesMap.get task).getD []
          ({ port with
              taskRemotes := port.taskRemotes.insert remote task
              taskRemotesMap := port.taskRemotesMap.insert task (remotes ++ [remote]) },
            some task)

theorem get_foldl_swapRemove (remotes : List Addr) (map : IndexMap Addr Task) (remote : Addr) :
    (remotes.foldl IndexMap.swapRemove map).get remote =
      if remote ∈ remotes then none else map.get remote := by
  induction remotes generalizing map with
  | nil => simp
  | cons first rest ih =>
    rw [List.foldl_cons, ih, IndexMap.get_swapRemove]
    by_cases hrest : remote ∈ rest
    · simp [hrest]
    · by_cases hfirst : remote = first
      · simp [hfirst]
      · simp [hrest, hfirst]

/-- What a packet from an address can do, the user name read in one step. -/
theorem mapRemote_cases (stun : StunMessage Msg) (port : SharedUdpPort Addr Task) (remote : Addr)
    (buf : List UInt8) :
    (∃ task, port.taskRemotes.get remote = some task ∧
      port.mapRemote stun remote buf = (port, some task)) ∨
    (port.taskRemotes.get remote = none ∧ port.mapRemote stun remote buf = (port, none)) ∨
    ∃ ufrag task, port.taskRemotes.get remote = none ∧ stun.username buf = some ufrag ∧
      port.taskUfrags.get ufrag = some task ∧
      port.mapRemote stun remote buf =
        ({ port with
            taskRemotes := port.taskRemotes.insert remote task
            taskRemotesMap := port.taskRemotesMap.insert task
              ((port.taskRemotesMap.get task).getD [] ++ [remote]) }, some task) := by
  cases hknown : port.taskRemotes.get remote with
  | some task => exact Or.inl ⟨task, rfl, by simp [mapRemote, hknown]⟩
  | none =>
    right
    cases hparse : stun.parse buf with
    | none => exact Or.inl ⟨rfl, by simp [mapRemote, hknown, hparse]⟩
    | some msg =>
      cases hsplit : stun.splitUsername msg with
      | none => exact Or.inl ⟨rfl, by simp [mapRemote, hknown, hparse, hsplit]⟩
      | some parts =>
        obtain ⟨ufrag, other⟩ := parts
        cases htask : port.taskUfrags.get ufrag with
        | none => exact Or.inl ⟨rfl, by simp [mapRemote, hknown, hparse, hsplit, htask]⟩
        | some task =>
          refine Or.inr ⟨ufrag, task, rfl, ?_, htask, ?_⟩
          · simp [StunMessage.username, hparse, hsplit]
          · simp [mapRemote, hknown, hparse, hsplit, htask]

/-! ### Runs -/

inductive Op (Addr Task : Type) where
  | addUfrag (ufrag : String) (task : Task)
  | removeTask (task : Task)
  | mapRemote (remote : Addr) (buf : List UInt8)

def step (stun : StunMessage Msg) (port : SharedUdpPort Addr Task) :
    Op Addr Task → Option (SharedUdpPort Addr Task)
  | .addUfrag ufrag task => some (port.addUfrag ufrag task)
  | .removeTask task => some (port.removeTask task).1
  | .mapRemote remote buf => some (port.mapRemote stun remote buf).1

/-- What the worker sees to: a new session gets a fragment that no registered session has, and
    an index that no registered session has. -/
def Fresh (port : SharedUdpPort Addr Task) : Op Addr Task → Prop
  | .addUfrag ufrag task =>
    port.taskUfrags.get ufrag = none ∧ port.taskUfragsReverse.get task = none
  | _ => True

/-- The operations since a task was registered, which has not been removed again. -/
def RegisteredSince (ops : List (Op Addr Task)) (task : Task) (ufrag : String)
    (since : List (Op Addr Task)) : Prop :=
  (∃ before, ops = before ++ .addUfrag ufrag task :: since) ∧ .removeTask task ∉ since

def Registered (ops : List (Op Addr Task)) (task : Task) : Prop :=
  ∃ ufrag since, RegisteredSince ops task ufrag since

/-- Since the task was registered, a STUN message with its fragment came from the address. -/
def HeardFrom (stun : StunMessage Msg) (ops : List (Op Addr Task)) (task : Task)
    (remote : Addr) : Prop :=
  ∃ ufrag since, RegisteredSince ops task ufrag since ∧
    ∃ buf, .mapRemote remote buf ∈ since ∧ stun.username buf = some ufrag

theorem RegisteredSince.concat {ops since : List (Op Addr Task)} {task : Task} {ufrag : String}
    (h : RegisteredSince ops task ufrag since) {op : Op Addr Task} (hop : op ≠ .removeTask task) :
    RegisteredSince (ops ++ [op]) task ufrag (since ++ [op]) := by
  obtain ⟨⟨before, rfl⟩, hkept⟩ := h
  refine ⟨⟨before, by simp⟩, ?_⟩
  intro hmem
  rcases List.mem_append.mp hmem with hmem | hmem
  · exact hkept hmem
  · exact hop (List.mem_singleton.mp hmem).symm

theorem RegisteredSince.now (ops : List (Op Addr Task)) (task : Task) (ufrag : String) :
    RegisteredSince (ops ++ [Op.addUfrag ufrag task]) task ufrag [] :=
  ⟨⟨ops, rfl⟩, List.not_mem_nil⟩

/-- The two maps of fragments are inverse to each other. -/
def Inverse (port : SharedUdpPort Addr Task) : Prop :=
  ∀ ufrag task, port.taskUfrags.get ufrag = some task ↔
    port.taskUfragsReverse.get task = some ufrag

/-- The two maps of addresses hold the same pairs, and each address stands in its list once. -/
def SameRemotes (port : SharedUdpPort Addr Task) : Prop :=
  (∀ remote task, port.taskRemotes.get remote = some task ↔
    ∃ remotes, port.taskRemotesMap.get task = some remotes ∧ remote ∈ remotes) ∧
  ∀ task remotes, port.taskRemotesMap.get task = some remotes → remotes.Nodup

/-- What holds of the port after some operations. -/
structure Sound (stun : StunMessage Msg) (ops : List (Op Addr Task))
    (port : SharedUdpPort Addr Task) : Prop where
  inverse : port.Inverse
  remotes : port.SameRemotes
  registered : ∀ task ufrag, port.taskUfragsReverse.get task = some ufrag →
    ∃ since, RegisteredSince ops task ufrag since
  heard : ∀ remote task, port.taskRemotes.get remote = some task →
    (∃ ufrag, port.taskUfragsReverse.get task = some ufrag) ∧ HeardFrom stun ops task remote

theorem HeardFrom.concat {stun : StunMessage Msg} {ops : List (Op Addr Task)} {task : Task}
    {remote : Addr} (h : HeardFrom stun ops task remote) {op : Op Addr Task}
    (hop : op ≠ .removeTask task) : HeardFrom stun (ops ++ [op]) task remote := by
  obtain ⟨ufrag, since, hsince, buf, hmem, hname⟩ := h
  exact ⟨ufrag, since ++ [op], hsince.concat hop, buf, List.mem_append_left _ hmem, hname⟩

theorem Sound.default (stun : StunMessage Msg) :
    Sound stun [] (SharedUdpPort.default : SharedUdpPort Addr Task) where
  inverse := by
    intro ufrag task
    simp [SharedUdpPort.default]
  remotes := by
    constructor
    · intro remote task
      simp [SharedUdpPort.default]
    · intro task remotes h
      simp [SharedUdpPort.default] at h
  registered := by
    intro task ufrag h
    simp [SharedUdpPort.default] at h
  heard := by
    intro remote task h
    simp [SharedUdpPort.default] at h

namespace Sound

variable {stun : StunMessage Msg} {ops : List (Op Addr Task)} {port : SharedUdpPort Addr Task}

theorem addUfrag (h : Sound stun ops port) {ufrag : String} {task : Task}
    (hfresh : Fresh port (.addUfrag ufrag task)) :
    Sound stun (ops ++ [Op.addUfrag ufrag task]) (port.addUfrag ufrag task) := by
  obtain ⟨hufrag, htask⟩ := hfresh
  constructor
  · intro u t
    simp only [SharedUdpPort.addUfrag, IndexMap.get_insert]
    by_cases hu : u = ufrag
    · subst hu
      have hnot : port.taskUfragsReverse.get t ≠ some u := by
        intro hget
        rw [← h.inverse, hufrag] at hget
        cases hget
      by_cases ht : t = task
      · simp [ht]
      · simpa [ht, Ne.symm ht] using hnot
    · by_cases ht : t = task
      · subst ht
        have hnot : port.taskUfrags.get u ≠ some t := by
          intro hget
          rw [h.inverse, htask] at hget
          cases hget
        simpa [hu, Ne.symm hu] using hnot
      · simpa [hu, ht] using h.inverse u t
  · exact h.remotes
  · intro t u hget
    simp only [SharedUdpPort.addUfrag, IndexMap.get_insert] at hget
    split at hget
    · rename_i ht
      cases hget
      subst ht
      exact ⟨[], RegisteredSince.now ops t ufrag⟩
    · obtain ⟨since, hsince⟩ := h.registered t u hget
      exact ⟨_, hsince.concat (by simp)⟩
  · intro remote t hget
    obtain ⟨⟨u, hu⟩, hheard⟩ := h.heard remote t hget
    refine ⟨⟨u, ?_⟩, hheard.concat (by simp)⟩
    have hne : t ≠ task := by
      rintro rfl
      rw [htask] at hu
      cases hu
    simpa [SharedUdpPort.addUfrag, IndexMap.get_insert, hne] using hu

/-- Nothing of the port changes, and nobody is removed. -/
theorem quiet (h : Sound stun ops port) {op : Op Addr Task}
    (hop : ∀ task ufrag, port.taskUfragsReverse.get task = some ufrag → op ≠ .removeTask task) :
    Sound stun (ops ++ [op]) port where
  inverse := h.inverse
  remotes := h.remotes
  registered := by
    intro task ufrag hget
    obtain ⟨since, hsince⟩ := h.registered task ufrag hget
    exact ⟨_, hsince.concat (hop task ufrag hget)⟩
  heard := by
    intro remote task hget
    obtain ⟨⟨ufrag, hufrag⟩, hheard⟩ := h.heard remote task hget
    exact ⟨⟨ufrag, hufrag⟩, hheard.concat (hop task ufrag hufrag)⟩

/-- An unknown address is bound to the task whose fragment its packet carries. -/
theorem bind (h : Sound stun ops port) {remote : Addr} {buf : List UInt8} {ufrag : String}
    {task : Task} (hnew : port.taskRemotes.get remote = none)
    (hname : stun.username buf = some ufrag) (htask : port.taskUfrags.get ufrag = some task) :
    Sound stun (ops ++ [Op.mapRemote remote buf])
      { port with
        taskRemotes := port.taskRemotes.insert remote task
        taskRemotesMap := port.taskRemotesMap.insert task
          ((port.taskRemotesMap.get task).getD [] ++ [remote]) } := by
  have hunlisted : remote ∉ (port.taskRemotesMap.get task).getD [] := by
    intro hmem
    cases hlist : port.taskRemotesMap.get task with
    | none => simp [hlist] at hmem
    | some remotes =>
      rw [hlist, Option.getD_some] at hmem
      rw [(h.remotes.1 remote task).mpr ⟨remotes, hlist, hmem⟩] at hnew
      cases hnew
  have hold : Sound stun (ops ++ [Op.mapRemote remote buf]) port := h.quiet (by simp)
  constructor
  · exact h.inverse
  · constructor
    · intro r t
      simp only [IndexMap.get_insert]
      by_cases ht : t = task
      · subst ht
        by_cases hr : r = remote
        · simp [hr]
        · rw [if_neg hr, h.remotes.1]
          cases port.taskRemotesMap.get t <;> simp [hr]
      · by_cases hr : r = remote
        · subst hr
          have hold := h.remotes.1 r t
          rw [hnew] at hold
          simpa [ht, Ne.symm ht] using hold
        · simpa [hr, ht] using h.remotes.1 r t
    · intro t remotes hget
      rw [IndexMap.get_insert] at hget
      split at hget
      · cases hget
        refine List.nodup_append.mpr ⟨?_, List.nodup_singleton remote, ?_⟩
        · cases hlist : port.taskRemotesMap.get task with
          | none => exact List.nodup_nil
          | some remotes => exact h.remotes.2 task remotes hlist
        · intro r hr r' hr'
          rw [List.mem_singleton.mp hr']
          rintro rfl
          exact hunlisted hr
      · exact h.remotes.2 t remotes hget
  · exact hold.registered
  · intro r t hget
    simp only [IndexMap.get_insert] at hget
    split at hget
    · rename_i hr
      cases hget
      subst hr
      have hreverse := (h.inverse ufrag task).mp htask
      obtain ⟨since, hsince⟩ := h.registered task ufrag hreverse
      exact ⟨⟨ufrag, hreverse⟩, ufrag, _, hsince.concat (by simp), buf, by simp, hname⟩
    · exact hold.heard r t hget

theorem mapRemote (h : Sound stun ops port) (remote : Addr) (buf : List UInt8) :
    Sound stun (ops ++ [Op.mapRemote remote buf]) (port.mapRemote stun remote buf).1 := by
  rcases mapRemote_cases stun port remote buf with
    ⟨task, -, heq⟩ | ⟨-, heq⟩ | ⟨ufrag, task, hnew, hname, htask, heq⟩
  · rw [heq]
    exact h.quiet (by simp)
  · rw [heq]
    exact h.quiet (by simp)
  · rw [heq]
    exact h.bind hnew hname htask

/-- The loop over the remotes of the task and the early return before it leave the same
    address map: a task without a list of remotes has none in the address map. -/
theorem removeTask_fst (h : Sound stun ops port) {task : Task} {ufrag : String}
    (hget : port.taskUfragsReverse.get task = some ufrag) :
    (port.removeTask task).1.taskUfragsReverse = port.taskUfragsReverse.swapRemove task ∧
    (port.removeTask task).1.taskUfrags = port.taskUfrags.swapRemove ufrag ∧
    (∀ other, (port.removeTask task).1.taskRemotesMap.get other =
      if other = task then none else port.taskRemotesMap.get other) ∧
    ∀ remote, (port.removeTask task).1.taskRemotes.get remote =
      if port.taskRemotes.get remote = some task then none
      else port.taskRemotes.get remote := by
  have hufrag := (h.inverse ufrag task).mpr hget
  cases hlist : port.taskRemotesMap.get task with
  | none =>
    have hnone : ∀ remote, port.taskRemotes.get remote ≠ some task := by
      intro remote hremote
      obtain ⟨remotes, hremotes, -⟩ := (h.remotes.1 remote task).mp hremote
      rw [hlist] at hremotes
      cases hremotes
    simp only [SharedUdpPort.removeTask, hget, hufrag, hlist, true_and]
    constructor
    · intro other
      split
      · rename_i hother
        rw [hother, hlist]
      · rfl
    · intro remote
      rw [if_neg (hnone remote)]
  | some remotes =>
    have hmem : ∀ remote, remote ∈ remotes ↔ port.taskRemotes.get remote = some task := by
      intro remote
      rw [h.remotes.1, hlist]
      simp
    simp only [SharedUdpPort.removeTask, hget, hufrag, hlist, true_and]
    constructor
    · exact fun other => IndexMap.get_swapRemove _ task other
    · intro remote
      rw [get_foldl_swapRemove]
      simp only [hmem]

theorem removeTask (h : Sound stun ops port) (task : Task) :
    Sound stun (ops ++ [Op.removeTask task]) (port.removeTask task).1 := by
  cases hget : port.taskUfragsReverse.get task with
  | none =>
    have hsame : (port.removeTask task).1 = port := by simp [SharedUdpPort.removeTask, hget]
    rw [hsame]
    refine h.quiet ?_
    rintro t u ht heq
    cases heq
    rw [hget] at ht
    cases ht
  | some ufrag =>
    obtain ⟨hreverse, hufrags, hlists, hremotes⟩ := h.removeTask_fst hget
    have hufrag := (h.inverse ufrag task).mpr hget
    constructor
    · intro u t
      rw [hreverse, hufrags, IndexMap.get_swapRemove, IndexMap.get_swapRemove]
      by_cases hu : u = ufrag
      · subst hu
        by_cases ht : t = task
        · simp [ht]
        · have hnot : port.taskUfragsReverse.get t ≠ some u := by
            intro hother
            rw [← h.inverse, hufrag] at hother
            exact ht (Option.some.inj hother).symm
          simpa [ht] using hnot
      · by_cases ht : t = task
        · subst ht
          have hnot : port.taskUfrags.get u ≠ some t := by
            intro hother
            rw [h.inverse, hget] at hother
            exact hu (Option.some.inj hother).symm
          simpa [hu] using hnot
        · simpa [hu, ht] using h.inverse u t
    · constructor
      · intro r t
        rw [hremotes, hlists]
        by_cases ht : t = task
        · subst ht
          by_cases hr : port.taskRemotes.get r = some t
          · simp [hr]
          · simp [hr]
        · by_cases hr : port.taskRemotes.get r = some task
          · have hold := h.remotes.1 r t
            rw [hr] at hold
            simpa [hr, ht, Ne.symm ht] using hold
          · simpa [hr, ht] using h.remotes.1 r t
      · intro t remotes hlist
        rw [hlists] at hlist
        split at hlist
        · cases hlist
        · exact h.remotes.2 t remotes hlist
    · intro t u ht
      rw [hreverse, IndexMap.get_swapRemove] at ht
      split at ht
      · cases ht
      · rename_i hne
        obtain ⟨since, hsince⟩ := h.registered t u ht
        exact ⟨_, hsince.concat (by simpa using Ne.symm hne)⟩
    · intro r t hr
      rw [hremotes] at hr
      split at hr
      · cases hr
      · rename_i hother
        have hne : t ≠ task := by
          rintro rfl
          exact hother hr
        obtain ⟨⟨u, hu⟩, hheard⟩ := h.heard r t hr
        refine ⟨⟨u, ?_⟩, hheard.concat (by simpa using Ne.symm hne)⟩
        rw [hreverse, IndexMap.get_swapRemove_ne _ hne]
        exact hu

theorem step (h : Sound stun ops port) {op : Op Addr Task} (hfresh : Fresh port op)
    {port' : SharedUdpPort Addr Task} (hstep : SharedUdpPort.step stun port op = some port') :
    Sound stun (ops ++ [op]) port' := by
  cases op with
  | addUfrag ufrag task =>
    cases hstep
    exact h.addUfrag hfresh
  | removeTask task =>
    cases hstep
    exact h.removeTask task
  | mapRemote remote buf =>
    cases hstep
    exact h.mapRemote remote buf

/-- A packet goes to a task that is bound to its address once the packet has been seen. -/
theorem bound_of_mapRemote (remote : Addr) (buf : List UInt8) {task : Task}
    (hret : (port.mapRemote stun remote buf).2 = some task) :
    (port.mapRemote stun remote buf).1.taskRemotes.get remote = some task := by
  rcases mapRemote_cases stun port remote buf with
    ⟨task', hknown, heq⟩ | ⟨-, heq⟩ | ⟨ufrag, task', -, -, -, heq⟩
  · rw [heq] at hret ⊢
    cases hret
    exact hknown
  · rw [heq] at hret
    cases hret
  · rw [heq] at hret ⊢
    cases hret
    exact IndexMap.get_insert_self _ _ _

end Sound

/-- **Demultiplexing.** After any operations the two maps of fragments are inverse, the two maps
    of addresses describe one relation, and a packet is given only to a registered task that has
    been heard from its address since it was registered. -/
theorem demultiplexes (stun : StunMessage Msg) {ops : List (Op Addr Task)}
    {port : SharedUdpPort Addr Task}
    (h : Reaches (step stun) Fresh SharedUdpPort.default ops port) :
    port.Inverse ∧ port.SameRemotes ∧
    ∀ remote buf task, (port.mapRemote stun remote buf).2 = some task →
      Registered ops task ∧ HeardFrom stun (ops ++ [Op.mapRemote remote buf]) task remote := by
  have hsound : Sound stun ops port :=
    h.history (P := Sound stun) (fun _ _ _ _ hP hok hs => hP.step hok hs) [] (Sound.default stun)
  refine ⟨hsound.inverse, hsound.remotes, ?_⟩
  intro remote buf task hret
  have hbound := Sound.bound_of_mapRemote remote buf hret
  obtain ⟨⟨ufrag, hufrag⟩, hheard⟩ := (hsound.mapRemote remote buf).heard remote task hbound
  refine ⟨?_, hheard⟩
  have hsame : (port.mapRemote stun remote buf).1.taskUfragsReverse = port.taskUfragsReverse := by
    rcases mapRemote_cases stun port remote buf with
      ⟨_, -, heq⟩ | ⟨-, heq⟩ | ⟨_, _, -, -, -, heq⟩ <;> rw [heq]
  rw [hsame] at hufrag
  obtain ⟨since, hsince⟩ := hsound.registered task ufrag hufrag
  exact ⟨ufrag, since, hsince⟩

/-- The part of the STUN format that a binding request with a user name as its first attribute
    uses: the magic cookie, the type and length of the attribute, and the colon in its text. -/
def bindingRequest : StunMessage (List UInt8) where
  parse buf :=
    if (buf.drop 4).take 4 = [0x21, 0x12, 0xa4, 0x42] ∧ (buf.drop 20).take 2 = [0, 6] then
      some ((buf.drop 24).take (buf[23]?.getD 0).toNat)
    else none
  splitUsername name :=
    let text := name.map (fun byte => Char.ofNat byte.toNat)
    match text.span (· ≠ ':') with
    | (_, []) => none
    | (ufrag, _ :: other) => some (String.ofList ufrag, String.ofList other)

/-- Two binding requests, for the fragments `a` and `b`. -/
def requestA : List UInt8 :=
  [0, 1, 0, 8, 0x21, 0x12, 0xa4, 0x42, 1, 2, 3, 4, 5, 6, 7, 8, 9, 10, 11, 12,
    0, 6, 0, 3, 97, 58, 120, 0]

def requestB : List UInt8 :=
  [0, 1, 0, 8, 0x21, 0x12, 0xa4, 0x42, 1, 2, 3, 4, 5, 6, 7, 8, 9, 10, 11, 12,
    0, 6, 0, 3, 98, 58, 120, 0]

/-- Index 0 is given out again: the address that was bound to the first session is bound to the
    second one only by a request of its own. -/
def reuse : List (Op Nat Nat) :=
  [.addUfrag "a" 0, .mapRemote 7 requestA, .removeTask 0, .addUfrag "b" 0]

theorem demultiplexes_reuse : ∃ port : SharedUdpPort Nat Nat,
    Reaches (step bindingRequest) Fresh SharedUdpPort.default reuse port ∧
    (port.mapRemote bindingRequest 7 requestA).2 = none ∧
    (port.mapRemote bindingRequest 7 requestB).2 = some 0 ∧
    HeardFrom bindingRequest (reuse ++ [Op.mapRemote 7 requestB]) 0 7 := by
  have hreach : Reaches (step bindingRequest) Fresh (SharedUdpPort.default : SharedUdpPort Nat Nat)
      reuse _ :=
    .cons ⟨rfl, rfl⟩ rfl (.cons trivial rfl (.cons trivial rfl (.cons ⟨rfl, rfl⟩ rfl (.nil _))))
  refine ⟨_, hreach, by decide, by decide, ?_⟩
  exact ((demultiplexes bindingRequest hreach).2.2 7 requestB 0 (by decide)).2

end SharedUdpPort

end MediaServer.Transport
