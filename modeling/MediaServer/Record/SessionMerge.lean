import MediaServer.Lib.BinaryHeap
import MediaServer.Lib.Interleaving
import MediaServer.Lib.TaskGroup
import MediaServer.Record.SessionReader
import Mathlib.Algebra.BigOperators.Group.Multiset.Basic

/-!
# Merging sessions

The loop of `RecordComposer::compose` (`media_record/src/convert/composer.rs`).  The sessions are
in a heap by the time of their next row.  The loop takes a row from the session at the top, through
the guard of the heap, and gives it to a handler, a parameter here; a session without a row is
popped.  Such a session has kept its time, so it is still at the top when it is popped, also among
sessions with the same time.
-/

namespace MediaServer.Record

/-- How composing ends early: a panic, or an error that is returned. -/
inductive Stop where
  | panic (p : Panic)
  | err (message : String)
deriving DecidableEq

/-- A panic on the way. -/
def orPanic {α : Type} : Except Panic α → Except Stop α
  | .error p => .error (.panic p)
  | .ok a => .ok a

structure SessionWrapper where
  session : SessionReader
  frontTs : UInt64

namespace SessionWrapper

def id (w : SessionWrapper) : UInt64 := w.session.sessionId

variable (codes : Codes) (store : ObjectStore)

/-- The front time becomes that of the row that is taken, and then that of the next one. -/
def pop (w : SessionWrapper) : Except Panic (SessionWrapper × Option SessionRecordRow) := do
  let (session, res) ← w.session.pop codes store
  match res with
  | none => .ok (⟨session, w.frontTs⟩, none)
  | some row => do
    let (session, ts) ← session.peekTs codes store
    .ok (⟨session, ts.getD row.ts⟩, some row)

/-- `Reverse` of the order by the front time. -/
def ranking : Ranking SessionWrapper where
  le a b := decide (b.frontTs ≤ a.frontTs)
  total a b := by
    rw [decide_eq_true_iff, decide_eq_true_iff]
    exact UInt64.le_total _ _
  trans a b c hab hbc := by
    rw [decide_eq_true_iff] at *
    exact UInt64.le_trans hbc hab

theorem ranking_le {a b : SessionWrapper} :
    ranking.le a b = true ↔ b.frontTs ≤ a.frontTs := decide_eq_true_iff

end SessionWrapper

abbrev Sessions := BinaryHeap SessionWrapper.ranking

section

variable (codes : Codes) (store : ObjectStore)

/-- The loop that connects the sessions.  A session that has no row to show is left out. -/
def connectAll (sessions : Sessions) : List SessionReader → Except Stop Sessions
  | [] => .ok sessions
  | session :: rest =>
    match session.connect store with
    | (_, .error err) => .error (.err err.message)
    | (session, .ok ()) => do
      let (session, peek) ← orPanic (session.peekTs codes store)
      match peek with
      | some peek => connectAll (sessions.push ⟨session, peek⟩) rest
      | none => connectAll sessions rest

variable {σ : Type} (handle : UInt64 → SessionRecordRow → σ → Except Stop σ)

/-- A round of the loop, or nothing when it breaks. -/
def round (sessions : Sessions) (s : σ) : Except Stop (Option (Sessions × σ)) :=
  match sessions.peek with
  | none => .ok none
  | some session => do
    let (session, res) ← orPanic (session.pop codes store)
    match res with
    | some row => do
      let s ← handle session.id row s
      .ok (some (sessions.setPeek session, s))
    | none =>
      match (sessions.setPeek session).pop with
      | none => .ok (some (sessions.setPeek session, s))
      | some (_, sessions) => .ok (some (sessions, s))

/-- The loop for so many rounds, and nothing if it has not come to its end. -/
def rounds : Nat → Sessions → σ → Except Stop (Option σ)
  | 0, _, _ => .ok none
  | n + 1, sessions, s => do
    match ← round codes store handle sessions s with
    | none => .ok (some s)
    | some (sessions, s) => rounds n sessions s

/-- The handler on one row after the other. -/
def handleAll (rows : List (UInt64 × SessionRecordRow)) (s : σ) : Except Stop σ :=
  rows.foldlM (fun s row => handle row.1 row.2 s) s

end

/-! ### What a reader yields -/

namespace SessionReader

variable {codes : Codes} {store : ObjectStore}

section

variable {α : Type} {ask : RecordChunkReader → Except Panic (RecordChunkReader × Answer α)}

theorem nextChunkIfEmpty_sessionId {r r' : SessionReader} {res : Option Unit}
    (h : r.nextChunkIfEmpty codes store = .ok (r', res)) : r'.sessionId = r.sessionId := by
  unfold nextChunkIfEmpty at h
  split at h
  · rw [← (Prod.mk.inj (Except.ok.inj h)).1]
  · split at h
    · rw [← (Prod.mk.inj (Except.ok.inj h)).1]
    · split at h
      · rw [← (Prod.mk.inj (Except.ok.inj h)).1]
      · obtain ⟨⟨chunk, connected⟩, -, h⟩ := Except.bind_eq_ok.mp h
        cases connected with
        | error err => rw [← (Prod.mk.inj (Except.ok.inj h)).1]
        | ok u => rw [← (Prod.mk.inj (Except.ok.inj h)).1]

theorem turn_sessionId {r r' : SessionReader} {res : Turn α}
    (h : r.turn codes store ask = .ok (r', res)) : r'.sessionId = r.sessionId := by
  unfold turn at h
  split at h
  · exact nomatch h
  · rename_i hnext
    rw [← (Prod.mk.inj (Except.ok.inj h)).1]
    exact nextChunkIfEmpty_sessionId hnext
  · rename_i hnext
    have hid := nextChunkIfEmpty_sessionId hnext
    split at h
    · rw [← (Prod.mk.inj (Except.ok.inj h)).1]
      exact hid
    · split at h
      · exact nomatch h
      · rw [← (Prod.mk.inj (Except.ok.inj h)).1]
        exact hid
      · rw [← (Prod.mk.inj (Except.ok.inj h)).1]
        exact hid
      · rw [← (Prod.mk.inj (Except.ok.inj h)).1]
        exact hid

theorem loop_sessionId {r r' : SessionReader} {res : Option α}
    (h : r.loop codes store ask = .ok (r', res)) : r'.sessionId = r.sessionId := by
  fun_induction SessionReader.loop codes store ask r with
  | case1 r p hturn => exact nomatch h
  | case2 r r₁ value hturn =>
    rw [← (Prod.mk.inj (Except.ok.inj h)).1]
    exact turn_sessionId hturn
  | case3 r r₁ hturn =>
    rw [← (Prod.mk.inj (Except.ok.inj h)).1]
    exact turn_sessionId hturn
  | case4 r r₁ hturn ih => exact (ih h).trans (turn_sessionId hturn)

end

theorem peekTs_sessionId {r r' : SessionReader} {ts : Option UInt64}
    (h : r.peekTs codes store = .ok (r', ts)) : r'.sessionId = r.sessionId :=
  loop_sessionId h

theorem pop_sessionId {r r' : SessionReader} {row : Option SessionRecordRow}
    (h : r.pop codes store = .ok (r', row)) : r'.sessionId = r.sessionId :=
  loop_sessionId h

theorem connect_sessionId {r r' : SessionReader} {res : Except IoError Unit}
    (h : r.connect store = (r', res)) : r'.sessionId = r.sessionId := by
  unfold connect at h
  split at h
  · rw [← (Prod.mk.inj h).1]
  · rw [← (Prod.mk.inj h).1]

/-- Pops give these rows and then none, and a peek after each of them shows the next one. -/
inductive Gives (codes : Codes) (store : ObjectStore) :
    SessionReader → List SessionRecordRow → Prop where
  | done {r r' : SessionReader} : r.pop codes store = .ok (r', none) → Gives codes store r []
  | row {r r' r'' : SessionReader} {row : SessionRecordRow} {rows : List SessionRecordRow} :
      r.pop codes store = .ok (r', some row) →
      r'.peekTs codes store = .ok (r'', rows.head?.map (·.ts)) → Gives codes store r'' rows →
        Gives codes store r (row :: rows)

/-- The session connects, the first peek shows the first of these rows, and then the reader gives
    them. -/
def Yields (codes : Codes) (store : ObjectStore) (r : SessionReader)
    (rows : List SessionRecordRow) : Prop :=
  ∃ r' r'', r.connect store = (r', .ok ()) ∧
    r'.peekTs codes store = .ok (r'', rows.head?.map (·.ts)) ∧ Gives codes store r'' rows

theorem Rest.gives {r : SessionReader} {rows : List SessionRecordRow} (h : Rest codes store r rows) :
    Gives codes store r rows := by
  induction rows generalizing r with
  | nil =>
    obtain ⟨r', hpop, -⟩ := h.pop
    exact .done hpop
  | cons row rows ih =>
    obtain ⟨r', hpop, hrest⟩ := h.pop
    obtain ⟨r'', hpeek, hrest'⟩ := hrest.peekTs
    exact .row hpop hpeek (ih hrest')

/-- A session whose chunks are stored under the keys that are listed yields their rows. -/
theorem yields_of_stored {r : SessionReader} {keys : List String} {chunks : List Chunk}
    (hlist : store.listObjects r.path = .ok keys) (hcurrent : r.currentChunk = none)
    (hchunks : List.Forall₂ (Stored codes store) (keys.mergeSort (fun a b => decide (a ≤ b)))
      chunks) :
    Yields codes store r (chunks.flatMap Chunk.rows) := by
  let connected : SessionReader :=
    { r with files := (keys.mergeSort (fun a b => decide (a ≤ b))).reverse }
  have hconnect : r.connect store = (connected, .ok ()) := by
    rw [connect, hlist]
  have hrest : Rest codes store connected (chunks.flatMap Chunk.rows) := by
    refine ⟨[], chunks, rfl, ?_, ?_⟩
    · rw [List.reverse_reverse]
      exact hchunks
    · rw [show connected.currentChunk = none from hcurrent]
  obtain ⟨r', hpeek, hrest'⟩ := hrest.peekTs
  exact ⟨connected, r', hconnect, hpeek, hrest'.gives⟩

end SessionReader

/-! ### One round -/

section

variable {codes : Codes} {store : ObjectStore}

/-- A session in the heap and the rows that it will still give; its time is that of the next one. -/
structure Carries (codes : Codes) (store : ObjectStore) (w : SessionWrapper)
    (rows : List SessionRecordRow) : Prop where
  gives : w.session.Gives codes store rows
  front : ∀ row ∈ rows.head?, w.frontTs = row.ts

theorem Carries.pop_nil {w : SessionWrapper} (h : Carries codes store w []) :
    ∃ w', w.pop codes store = .ok (w', none) ∧ w'.frontTs = w.frontTs := by
  cases h.gives with
  | @done _ r' hpop =>
    refine ⟨⟨r', w.frontTs⟩, ?_, rfl⟩
    rw [SessionWrapper.pop, hpop]
    rfl

theorem Carries.pop_cons {w : SessionWrapper} {row : SessionRecordRow}
    {rows : List SessionRecordRow} (h : Carries codes store w (row :: rows)) :
    ∃ w', w.pop codes store = .ok (w', some row) ∧ w'.id = w.id ∧ Carries codes store w' rows := by
  cases h.gives with
  | @row _ r' r'' _ _ hpop hpeek hgives =>
    refine ⟨⟨r'', (rows.head?.map (·.ts)).getD row.ts⟩, ?_, ?_, hgives, ?_⟩
    · rw [SessionWrapper.pop, hpop]
      change (r'.peekTs codes store >>= _) = _
      rw [hpeek]
      rfl
    · exact (SessionReader.peekTs_sessionId hpeek).trans (SessionReader.pop_sessionId hpop)
    · intro next hnext
      rw [Option.mem_def.mp hnext]
      rfl

/-- The sessions in the heap, each with the rows that it will still give. -/
structure Queued (codes : Codes) (store : ObjectStore) (sessions : Sessions)
    (left : Multiset (SessionWrapper × List SessionRecordRow)) : Prop where
  contents : sessions.contents = left.map Prod.fst
  carries : ∀ entry ∈ left, Carries codes store entry.1 entry.2

/-- What a round does: it ends the loop, removes the session at the top, or takes a row of it. -/
inductive RoundOf (codes : Codes) (store : ObjectStore) (sessions : Sessions) :
    Multiset (SessionWrapper × List SessionRecordRow) → Prop where
  | ended : (∀ {σ : Type} (handle : UInt64 → SessionRecordRow → σ → Except Stop σ) (s : σ),
        round codes store handle sessions s = .ok none) → RoundOf codes store sessions 0
  | removed {w : SessionWrapper} {rest : Multiset (SessionWrapper × List SessionRecordRow)}
      {sessions' : Sessions} (holds : Queued codes store sessions' rest)
      (eq : ∀ {σ : Type} (handle : UInt64 → SessionRecordRow → σ → Except Stop σ) (s : σ),
        round codes store handle sessions s = .ok (some (sessions', s))) :
      RoundOf codes store sessions ((w, []) ::ₘ rest)
  | took {w w' : SessionWrapper} {row : SessionRecordRow} {rows : List SessionRecordRow}
      {rest : Multiset (SessionWrapper × List SessionRecordRow)} {sessions' : Sessions}
      (id : w'.id = w.id) (ts : w.frontTs = row.ts)
      (least : ∀ entry ∈ rest, w.frontTs ≤ entry.1.frontTs)
      (holds : Queued codes store sessions' ((w', rows) ::ₘ rest))
      (eq : ∀ {σ : Type} (handle : UInt64 → SessionRecordRow → σ → Except Stop σ) (s : σ),
        round codes store handle sessions s =
          (handle w.id row s).map fun s => some (sessions', s)) :
      RoundOf codes store sessions ((w, row :: rows) ::ₘ rest)

/-- The session at the top has the least time. -/
theorem Queued.least {sessions : Sessions}
    {left : Multiset (SessionWrapper × List SessionRecordRow)} (h : Queued codes store sessions left)
    {w : SessionWrapper} (hpeek : sessions.peek = some w) :
    ∀ entry ∈ left, w.frontTs ≤ entry.1.frontTs := by
  intro entry hmem
  have hin : entry.1 ∈ sessions.contents := by
    rw [h.contents]
    exact Multiset.mem_map_of_mem _ hmem
  exact SessionWrapper.ranking_le.mp (BinaryHeap.le_peek hpeek hin)

theorem Queued.roundOf {sessions : Sessions}
    {left : Multiset (SessionWrapper × List SessionRecordRow)}
    (h : Queued codes store sessions left) : RoundOf codes store sessions left := by
  classical
  cases hpeek : sessions.peek with
  | none =>
    have hnone := BinaryHeap.contents_of_peek_eq_none hpeek
    rw [h.contents, Multiset.map_eq_zero] at hnone
    rw [hnone]
    apply RoundOf.ended
    intro σ handle s
    rw [round, hpeek]
  | some w =>
    obtain ⟨others, hcontents, hset, -⟩ := BinaryHeap.exists_rest hpeek
    rw [h.contents] at hcontents
    obtain ⟨entry, hentry, hfirst, hrest⟩ :=
      (Multiset.map_eq_cons Prod.fst left others w).mpr hcontents
    obtain ⟨w₀, rows⟩ := entry
    obtain rfl : w₀ = w := hfirst
    have hleft : (w₀, rows) ::ₘ left.erase (w₀, rows) = left := Multiset.cons_erase hentry
    have hcarries := h.carries _ hentry
    have hcarriesRest : ∀ entry ∈ left.erase (w₀, rows), Carries codes store entry.1 entry.2 :=
      fun entry hmem => h.carries entry (Multiset.mem_of_mem_erase hmem)
    rw [← hleft]
    cases rows with
    | nil =>
      obtain ⟨w', hpop, hts⟩ := hcarries.pop_nil
      -- the session has kept its time, so it is the one that is popped
      have hstays : (sessions.setPeek w').peek = some w' :=
        BinaryHeap.peek_setPeek hpeek (SessionWrapper.ranking_le.mpr (by rw [hts]; exact UInt64.le_refl _))
      obtain ⟨others', hcontents', -, sessions', hremoved, hothers⟩ :=
        BinaryHeap.exists_rest hstays
      have hsame : others' = others :=
        ((Multiset.cons_inj_right w').mp ((hset w').symm.trans hcontents')).symm
      have hholds : Queued codes store sessions' (left.erase (w₀, [])) :=
        ⟨by rw [hothers, hsame, hrest], hcarriesRest⟩
      apply RoundOf.removed hholds
      intro σ handle s
      rw [round, hpeek]
      change (orPanic (w₀.pop codes store) >>= _) = _
      rw [hpop]
      change (match (sessions.setPeek w').pop with | none => _ | some (_, sessions) => _) = _
      rw [hremoved]
    | cons row rows =>
      obtain ⟨w', hpop, hid, hcarries'⟩ := hcarries.pop_cons
      have hholds : Queued codes store (sessions.setPeek w')
          ((w', rows) ::ₘ left.erase (w₀, row :: rows)) := by
        refine ⟨?_, ?_⟩
        · rw [hset, Multiset.map_cons, hrest]
        · intro entry hmem
          rcases Multiset.mem_cons.mp hmem with rfl | hmem
          · exact hcarries'
          · exact hcarriesRest entry hmem
      refine .took hid (hcarries.front row rfl) ?_ hholds ?_
      · exact fun entry hmem => h.least hpeek entry (Multiset.mem_of_mem_erase hmem)
      · intro σ handle s
        rw [round, hpeek]
        change (orPanic (w₀.pop codes store) >>= _) = _
        rw [hpop]
        change (handle w'.id row s >>= _) = _
        rw [hid]
        cases handle w₀.id row s <;> rfl

/-! ### The whole loop -/

/-- The rows of a session with its id. -/
def labelled (id : UInt64) (rows : List SessionRecordRow) : List (UInt64 × SessionRecordRow) :=
  rows.map fun row => (id, row)

def labels (left : Multiset (SessionWrapper × List SessionRecordRow)) :
    Multiset (List (UInt64 × SessionRecordRow)) :=
  left.map fun entry => labelled entry.1.id entry.2

/-- The rounds that are still to come. -/
def size (left : Multiset (SessionWrapper × List SessionRecordRow)) : Nat :=
  (left.map fun entry => entry.2.length + 1).sum

def InOrder (rows : List SessionRecordRow) : Prop := rows.Pairwise fun row next => row.ts ≤ next.ts

/-- The loop does to any handler what the handler does on these rows. -/
def Merges (codes : Codes) (store : ObjectStore) (sessions : Sessions)
    (taken : List (UInt64 × SessionRecordRow)) (enough : Nat) : Prop :=
  ∀ {σ : Type} (handle : UInt64 → SessionRecordRow → σ → Except Stop σ) (s : σ) (fuel : Nat),
    enough ≤ fuel →
      rounds codes store handle fuel sessions s = (handleAll handle taken s).map some

/-- What a session in the heap has left is not before its front time. -/
theorem Carries.front_le {w : SessionWrapper} {rows : List SessionRecordRow}
    (h : Carries codes store w rows) (hrows : InOrder rows) :
    ∀ row ∈ rows, w.frontTs ≤ row.ts := by
  intro row hmem
  cases rows with
  | nil => exact nomatch hmem
  | cons first rows =>
    rw [h.front first rfl]
    rcases List.mem_cons.mp hmem with rfl | hmem
    · exact UInt64.le_refl _
    · exact List.rel_of_pairwise_cons hrows hmem

theorem Queued.merges {sessions : Sessions}
    {left : Multiset (SessionWrapper × List SessionRecordRow)}
    (h : Queued codes store sessions left) (hleft : ∀ entry ∈ left, InOrder entry.2) :
    ∃ taken, Interleaves (labels left) taken ∧
      taken.Pairwise (fun row next => row.2.ts ≤ next.2.ts) ∧
      Merges codes store sessions taken (size left + 1) := by
  induction hsize : size left using Nat.strongRecOn generalizing left sessions with
  | ind n ih =>
    cases h.roundOf with
    | ended hround =>
      refine ⟨[], .nil, .nil, ?_⟩
      intro σ handle s fuel hfuel
      obtain ⟨fuel, rfl⟩ := Nat.exists_eq_add_of_lt hfuel
      rw [rounds, hround]
      rfl
    | @removed w rest sessions' hholds hround =>
      have hless : size rest + 1 = n := by
        rw [← hsize, size, size, Multiset.map_cons, Multiset.sum_cons, List.length_nil]
        omega
      obtain ⟨taken, hinterleaves, hsorted, hmerges⟩ := ih (size rest) (by omega) hholds
        (fun entry hmem => hleft entry (Multiset.mem_cons_of_mem hmem)) rfl
      refine ⟨taken, ?_, hsorted, ?_⟩
      · rw [labels, Multiset.map_cons]
        exact .done hinterleaves
      · intro σ handle s fuel hfuel
        obtain ⟨fuel, rfl⟩ := Nat.exists_eq_add_of_lt hfuel
        rw [rounds, hround]
        exact hmerges handle s _ (by omega)
    | @took w w' row rows rest sessions' hid hts hleast hholds hround =>
      have hless : size ((w', rows) ::ₘ rest) + 1 = n := by
        rw [← hsize, size, size, Multiset.map_cons, Multiset.sum_cons, Multiset.map_cons,
          Multiset.sum_cons]
        dsimp only
        rw [List.length_cons]
        omega
      have hrows : InOrder (row :: rows) := hleft _ (Multiset.mem_cons_self _ _)
      have hrest : ∀ entry ∈ (w', rows) ::ₘ rest, InOrder entry.2 := by
        intro entry hmem
        rcases Multiset.mem_cons.mp hmem with rfl | hmem
        · exact List.Pairwise.of_cons hrows
        · exact hleft entry (Multiset.mem_cons_of_mem hmem)
      obtain ⟨taken, hinterleaves, hsorted, hmerges⟩ :=
        ih (size ((w', rows) ::ₘ rest)) (by omega) hholds hrest rfl
      rw [labels, Multiset.map_cons, hid] at hinterleaves
      refine ⟨(w.id, row) :: taken, ?_, ?_, ?_⟩
      · rw [labels, Multiset.map_cons]
        exact .take hinterleaves
      · -- the row is not later than any row that is left
        apply hinterleaves.pairwise_cons hsorted
        intro xs hxs next hnext
        rcases Multiset.mem_cons.mp hxs with rfl | hxs
        · obtain ⟨later, hlater, rfl⟩ := List.mem_map.mp hnext
          exact List.rel_of_pairwise_cons hrows hlater
        · obtain ⟨entry, hentry, rfl⟩ := Multiset.mem_map.mp hxs
          obtain ⟨later, hlater, rfl⟩ := List.mem_map.mp hnext
          have hmem : entry ∈ (w', rows) ::ₘ rest := Multiset.mem_cons_of_mem hentry
          have hfront := (hholds.carries entry hmem).front_le (hrest entry hmem) later hlater
          rw [← hts]
          exact UInt64.le_trans (hleast entry hentry) hfront
      · intro σ handle s fuel hfuel
        obtain ⟨fuel, rfl⟩ := Nat.exists_eq_add_of_lt hfuel
        rw [rounds, hround, handleAll, List.foldlM_cons]
        cases hhandle : handle w.id row s with
        | error stop => rfl
        | ok s' => exact hmerges handle s' _ (by omega)

/-! ### All sessions -/

/-- The sessions that have rows come into the heap; the others have nothing to add to a merge. -/
theorem Queued.connectAll {heap : Sessions}
    {left : Multiset (SessionWrapper × List SessionRecordRow)} (h : Queued codes store heap left)
    (hleft : ∀ entry ∈ left, InOrder entry.2)
    {sessions : List (SessionReader × List SessionRecordRow)}
    (hyields : ∀ entry ∈ sessions, entry.1.Yields codes store entry.2)
    (horder : ∀ entry ∈ sessions, InOrder entry.2) :
    ∃ heap' left', Record.connectAll codes store heap (sessions.map Prod.fst) = .ok heap' ∧
      Queued codes store heap' left' ∧ (∀ entry ∈ left', InOrder entry.2) ∧
      ∀ taken, Interleaves (labels left') taken → Interleaves
        (labels left + Multiset.ofList
          (sessions.map fun entry => labelled entry.1.sessionId entry.2)) taken := by
  induction sessions generalizing heap left with
  | nil =>
    refine ⟨heap, left, rfl, h, hleft, fun taken htaken => ?_⟩
    rw [List.map_nil, Multiset.coe_nil, add_zero]
    exact htaken
  | cons entry sessions ih =>
    obtain ⟨reader, rows⟩ := entry
    obtain ⟨hreader, hsessions⟩ := List.forall_mem_cons.mp hyields
    obtain ⟨hrows, hothers⟩ := List.forall_mem_cons.mp horder
    obtain ⟨r', r'', hconnect, hpeek, hgives⟩ := hreader
    have hid : r''.sessionId = reader.sessionId := by
      exact (SessionReader.peekTs_sessionId hpeek).trans (SessionReader.connect_sessionId hconnect)
    cases rows with
    | nil =>
      obtain ⟨heap', left', hall, hholds, hinOrder, hmerge⟩ := ih h hleft hsessions hothers
      refine ⟨heap', left', ?_, hholds, hinOrder, fun taken htaken => ?_⟩
      · rw [List.map_cons, Record.connectAll, hconnect]
        change (orPanic (r'.peekTs codes store) >>= _) = _
        rw [hpeek]
        exact hall
      · rw [List.map_cons, ← Multiset.cons_coe, Multiset.add_cons]
        exact .done (hmerge taken htaken)
    | cons row rows =>
      have hheld : Queued codes store (heap.push ⟨r'', row.ts⟩)
          ((⟨r'', row.ts⟩, row :: rows) ::ₘ left) := by
        refine ⟨?_, ?_⟩
        · rw [BinaryHeap.contents_push, h.contents, Multiset.map_cons]
        · intro entry hmem
          rcases Multiset.mem_cons.mp hmem with rfl | hmem
          · exact ⟨hgives, fun first hfirst => by rw [← Option.some.inj hfirst]⟩
          · exact h.carries entry hmem
      have hleft' : ∀ entry ∈ ((⟨r'', row.ts⟩ : SessionWrapper), row :: rows) ::ₘ left,
          InOrder entry.2 := by
        intro entry hmem
        rcases Multiset.mem_cons.mp hmem with rfl | hmem
        · exact hrows
        · exact hleft entry hmem
      obtain ⟨heap', left', hall, hholds, hinOrder, hmerge⟩ := ih hheld hleft' hsessions hothers
      refine ⟨heap', left', ?_, hholds, hinOrder, fun taken htaken => ?_⟩
      · rw [List.map_cons, Record.connectAll, hconnect]
        change (orPanic (r'.peekTs codes store) >>= _) = _
        rw [hpeek]
        exact hall
      · have htaken' := hmerge taken htaken
        rw [labels, Multiset.map_cons, ← labels, Multiset.cons_add] at htaken'
        rw [List.map_cons, ← Multiset.cons_coe, Multiset.add_cons]
        dsimp only [SessionWrapper.id] at htaken'
        rw [hid] at htaken'
        exact htaken'

theorem queued_empty : Queued codes store .empty 0 where
  contents := rfl
  carries _ hmem := absurd hmem (Multiset.notMem_zero _)

/-- **Composing merges the sessions.**  The loop takes every row of every session once, in an order
    that never goes back in time and keeps that of each session, and comes to its end. -/
theorem merges_sessions (sessions : List (SessionReader × List SessionRecordRow))
    (hyields : ∀ entry ∈ sessions, entry.1.Yields codes store entry.2)
    (horder : ∀ entry ∈ sessions, InOrder entry.2) :
    ∃ heap taken enough,
      connectAll codes store .empty (sessions.map Prod.fst) = .ok heap ∧
      Interleaves (sessions.map fun entry => labelled entry.1.sessionId entry.2) taken ∧
      taken.Pairwise (fun row next => row.2.ts ≤ next.2.ts) ∧
      Merges codes store heap taken enough := by
  obtain ⟨heap, left, hall, hholds, hinOrder, hmerge⟩ :=
    queued_empty.connectAll (fun _ hmem => absurd hmem (Multiset.notMem_zero _)) hyields horder
  obtain ⟨taken, hinterleaves, hsorted, hmerges⟩ := hholds.merges hinOrder
  refine ⟨heap, taken, _, hall, ?_, hsorted, hmerges⟩
  have htaken := hmerge taken hinterleaves
  rw [labels, Multiset.map_zero, zero_add] at htaken
  exact htaken

end

/-! ### Three sessions -/

/-- The rows of the first session, and of the second, which begins at the same time. -/
def firstChunk : Chunk :=
  ⟨⟨"room", "a", 1, 10, 20⟩, [Layout.audio 10 3, ⟨20, .trackStopped 1⟩]⟩
def secondChunk : Chunk := ⟨⟨"room", "b", 2, 10, 10⟩, [Layout.audio 10 5]⟩

/-- Each session has a chunk, but for the third. -/
def threeSessions : ObjectStore where
  listObjects path := .ok (if path = "c/" then [] else [path ++ "0"])
  getObject key :=
    if key = "a/0" then some (firstChunk.bytes Layout.codes)
    else if key = "b/0" then some (secondChunk.bytes Layout.codes) else none

theorem stored_firstChunk : SessionReader.Stored Layout.codes threeSessions "a/0" firstChunk := by
  refine ⟨rfl, ?_, ?_⟩
  · simp only [Chunk.Fits, Fits]
    decide
  · simp only [Chunk.RoundTrips, RoundTrips]
    decide

theorem stored_secondChunk :
    SessionReader.Stored Layout.codes threeSessions "b/0" secondChunk := by
  refine ⟨rfl, ?_, ?_⟩
  · simp only [Chunk.Fits, Fits]
    decide
  · simp only [Chunk.RoundTrips, RoundTrips]
    decide

/-- A session with a single chunk. -/
theorem yields_single {id : UInt64} {path : String} {chunk : Chunk} (hpath : path ≠ "c/")
    (h : SessionReader.Stored Layout.codes threeSessions (path ++ "0") chunk) :
    (SessionReader.new id path).Yields Layout.codes threeSessions chunk.rows := by
  have hlist : threeSessions.listObjects path = .ok [path ++ "0"] := by
    change Except.ok (if path = "c/" then [] else [path ++ "0"]) = _
    rw [if_neg hpath]
  have hstored : List.Forall₂ (SessionReader.Stored Layout.codes threeSessions)
      ([path ++ "0"].mergeSort (fun a b => decide (a ≤ b))) [chunk] := by
    rw [List.mergeSort_singleton]
    exact .cons h .nil
  have hyields := SessionReader.yields_of_stored (r := .new id path) hlist rfl hstored
  rw [List.flatMap_singleton] at hyields
  exact hyields

theorem yields_none : (SessionReader.new 3 "c/").Yields Layout.codes threeSessions [] := by
  have hstored : List.Forall₂ (SessionReader.Stored Layout.codes threeSessions)
      (([] : List String).mergeSort (fun a b => decide (a ≤ b))) [] := by
    rw [List.mergeSort_nil]
    exact .nil
  exact SessionReader.yields_of_stored rfl rfl hstored

theorem merges_threeSessions :
    ∃ heap taken enough,
      connectAll Layout.codes threeSessions .empty [.new 1 "a/", .new 2 "b/", .new 3 "c/"] =
        .ok heap ∧
      Interleaves (Multiset.ofList
        [labelled 1 firstChunk.rows, labelled 2 secondChunk.rows, labelled 3 []]) taken ∧
      taken.Pairwise (fun row next => row.2.ts ≤ next.2.ts) ∧
      Merges Layout.codes threeSessions heap taken enough := by
  refine merges_sessions
    [(.new 1 "a/", firstChunk.rows), (.new 2 "b/", secondChunk.rows), (.new 3 "c/", [])] ?_ ?_
  · intro entry hmem
    simp only [List.mem_cons, List.not_mem_nil, or_false] at hmem
    rcases hmem with rfl | rfl | rfl
    · exact yields_single (by decide) stored_firstChunk
    · exact yields_single (by decide) stored_secondChunk
    · exact yields_none
  · intro entry hmem
    simp only [List.mem_cons, List.not_mem_nil, or_false] at hmem
    rcases hmem with rfl | rfl | rfl
    · exact .cons (by decide) (.cons (by simp) .nil)
    · exact .cons (by simp) .nil
    · exact .nil

end MediaServer.Record
