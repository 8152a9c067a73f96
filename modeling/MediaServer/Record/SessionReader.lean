import MediaServer.Record.Chunk
import Mathlib.Data.String.Basic

/-!
# Reading a session

A session reader lists the objects of a session, sorts their keys and reads the chunks one after
another.  Peeks and pops go to the chunk that is open; when it ends, the next one is opened and
the call is tried again.

The object store is a parameter: it lists the keys under a path and gets objects.
-/

namespace MediaServer.Record

structure ObjectStore where
  listObjects : String → Except IoError (List String)
  getObject : String → Option Bytes

structure SessionReader where
  sessionId : UInt64
  path : String
  files : List String
  currentChunk : Option RecordChunkReader

/-- What the open chunk answers. -/
inductive Answer (α : Type) where
  | found (value : α)
  | finished
  | failed

/-- How a turn of a loop ends. -/
inductive Turn (α : Type) where
  | found (value : α)
  | again
  | stop

namespace SessionReader

variable (codes : Codes) (store : ObjectStore)

def new (sessionId : UInt64) (path : String) : SessionReader := ⟨sessionId, path, [], none⟩

/-- The keys are taken from the end, so they are put there in descending order. -/
def connect (r : SessionReader) : SessionReader × Except IoError Unit :=
  match store.listObjects r.path with
  | .error err => (r, .error err)
  | .ok files =>
    ({ r with files := (files.mergeSort (fun a b => decide (a ≤ b))).reverse }, .ok ())

def nextChunkIfEmpty (r : SessionReader) : Except Panic (SessionReader × Option Unit) :=
  match r.currentChunk with
  | some _ => .ok (r, some ())
  | none =>
    match r.files.getLast? with
    | none => .ok (r, none)
    | some first =>
      let r := { r with files := r.files.dropLast }
      match store.getObject first with
      | none => .ok (r, none)
      | some source => do
        let (chunk, res) ← (RecordChunkReader.new source).connect codes
        match res with
        | .error _ => .ok (r, none)
        | .ok () => .ok ({ r with currentChunk := some chunk }, some ())

variable {α : Type}
  (ask : RecordChunkReader → Except Panic (RecordChunkReader × Answer α))

/-- One turn of the loops of `peek_ts` and `pop`. -/
def turn (r : SessionReader) : Except Panic (SessionReader × Turn α) :=
  match r.nextChunkIfEmpty codes store with
  | .error p => .error p
  | .ok (r, none) => .ok (r, .stop)
  | .ok (r, some ()) =>
    match r.currentChunk with
    | none => .ok (r, .stop)
    | some chunk =>
      match ask chunk with
      | .error p => .error p
      | .ok (chunk, .found value) => .ok ({ r with currentChunk := some chunk }, .found value)
      | .ok (_, .finished) => .ok ({ r with currentChunk := none }, .again)
      | .ok (chunk, .failed) => .ok ({ r with currentChunk := some chunk }, .stop)

/-- The chunks that can still end. -/
def size (r : SessionReader) : Nat := r.files.length + if r.currentChunk.isSome then 1 else 0

theorem turn_again {r r' : SessionReader} (h : r.turn codes store ask = .ok (r', .again)) :
    r'.size < r.size := by
  have hnext : ∀ r₁, r.nextChunkIfEmpty codes store = .ok (r₁, some ()) →
      r₁.files.length < r.size := by
    intro r₁ hnext
    rw [nextChunkIfEmpty] at hnext
    split at hnext
    · rename_i chunk hchunk
      cases hnext
      simp [size, hchunk]
    · rename_i hchunk
      split at hnext
      · cases hnext
      · rename_i first hlast
        have hne : r.files ≠ [] := by
          rintro hnil
          simp [hnil] at hlast
        have hlen := List.length_pos_of_ne_nil hne
        split at hnext
        · cases hnext
        · rename_i source hsource
          cases hconnect : (RecordChunkReader.new source).connect codes with
          | error p =>
            rw [hconnect] at hnext
            cases hnext
          | ok result =>
            obtain ⟨chunk, res⟩ := result
            rw [hconnect] at hnext
            cases res with
            | error err => cases hnext
            | ok u =>
              cases hnext
              simp only [size, List.length_dropLast]
              omega
  rw [turn] at h
  split at h
  · cases h
  · cases h
  · rename_i r₁ hready
    have hlt := hnext r₁ hready
    split at h
    · cases h
    · split at h
      · cases h
      · cases h
      · cases h
        simpa [size] using hlt
      · cases h

/-- Turns until one is the last. -/
def loop (r : SessionReader) : Except Panic (SessionReader × Option α) :=
  match h : r.turn codes store ask with
  | .error p => .error p
  | .ok (r', .found value) => .ok (r', some value)
  | .ok (r', .stop) => .ok (r', none)
  | .ok (r', .again) => loop r'
termination_by r.size
decreasing_by exact turn_again codes store ask h

/-- A chunk that has no row to show is left, also after an error. -/
def askPeek (chunk : RecordChunkReader) : Except Panic (RecordChunkReader × Answer UInt64) := do
  let (chunk, ts) ← chunk.peekTs codes
  match ts with
  | some ts => .ok (chunk, .found ts)
  | none => .ok (chunk, .finished)

def askPop (chunk : RecordChunkReader) :
    Except Panic (RecordChunkReader × Answer SessionRecordRow) := do
  let (chunk, res) ← chunk.pop codes
  match res with
  | .error _ => .ok (chunk, .failed)
  | .ok (some row) => .ok (chunk, .found row)
  | .ok none => .ok (chunk, .finished)

def peekTs (r : SessionReader) : Except Panic (SessionReader × Option UInt64) :=
  r.loop codes store (askPeek codes)

def pop (r : SessionReader) : Except Panic (SessionReader × Option SessionRecordRow) :=
  r.loop codes store (askPop codes)

end SessionReader

/-! ### The rows of a session -/

namespace SessionReader

variable {codes : Codes} {store : ObjectStore} {α : Type}

/-- The chunk is stored under the key, was written and can be read. -/
def Stored (codes : Codes) (store : ObjectStore) (key : String) (chunk : Chunk) : Prop :=
  store.getObject key = some (chunk.bytes codes) ∧ chunk.Fits codes ∧ chunk.RoundTrips codes

/-- The rows that the reader will still give: those of the open chunk and those of the chunks of
    the files, which are taken from the end. -/
def Rest (codes : Codes) (store : ObjectStore) (r : SessionReader) (rows : List SessionRecordRow) :
    Prop :=
  ∃ current chunks, rows = current ++ chunks.flatMap Chunk.rows ∧
    List.Forall₂ (Stored codes store) r.files.reverse chunks ∧
    match r.currentChunk with
    | none => current = []
    | some chunk => Left codes chunk current

/-- What a question to a chunk gives and leaves, when it asks for the next row. -/
structure Asks (codes : Codes)
    (ask : RecordChunkReader → Except Panic (RecordChunkReader × Answer α))
    (view : SessionRecordRow → α) (after : List SessionRecordRow → List SessionRecordRow) :
    Prop where
  finished : ∀ chunk, Left codes chunk [] → ∃ chunk', ask chunk = .ok (chunk', .finished)
  found : ∀ chunk row rows, Left codes chunk (row :: rows) →
    ∃ chunk', ask chunk = .ok (chunk', .found (view row)) ∧
      Left codes chunk' (after (row :: rows))
  after_nil : after [] = []
  after_append : ∀ row rows more, after (row :: rows ++ more) = after (row :: rows) ++ more

theorem asksPeek (codes : Codes) :
    Asks codes (askPeek codes) SessionRecordRow.ts (fun rows => rows) where
  finished := by
    intro chunk h
    obtain ⟨chunk', hpeek, -⟩ := h.peekTs
    refine ⟨chunk', ?_⟩
    rw [askPeek, hpeek]
    rfl
  found := by
    intro chunk row rows h
    obtain ⟨chunk', hpeek, hleft⟩ := h.peekTs
    refine ⟨chunk', ?_, hleft⟩
    rw [askPeek, hpeek]
    rfl
  after_nil := rfl
  after_append := fun _ _ _ => rfl

theorem asksPop (codes : Codes) :
    Asks codes (askPop codes) (fun row => row) (fun rows => rows.tail) where
  finished := by
    intro chunk h
    obtain ⟨chunk', hpop, -⟩ := h.pop
    refine ⟨chunk', ?_⟩
    rw [askPop, hpop]
    rfl
  found := by
    intro chunk row rows h
    obtain ⟨chunk', hpop, hleft⟩ := h.pop
    refine ⟨chunk', ?_, hleft⟩
    rw [askPop, hpop]
    rfl
  after_nil := rfl
  after_append := fun _ _ _ => rfl

/-- Opening the next chunk keeps the rows. -/
theorem Rest.next {r : SessionReader} {rows : List SessionRecordRow} (h : Rest codes store r rows) :
    (rows = [] ∧ ∃ r', r.nextChunkIfEmpty codes store = .ok (r', none) ∧ Rest codes store r' []) ∨
    ∃ r' chunk current chunks, r.nextChunkIfEmpty codes store = .ok (r', some ()) ∧
      r'.currentChunk = some chunk ∧ Left codes chunk current ∧
      List.Forall₂ (Stored codes store) r'.files.reverse chunks ∧
      rows = current ++ chunks.flatMap Chunk.rows := by
  obtain ⟨current, chunks, hrows, hfiles, hcurrent⟩ := h
  cases hchunk : r.currentChunk with
  | some chunk =>
    rw [hchunk] at hcurrent
    refine Or.inr ⟨r, chunk, current, chunks, ?_, hchunk, hcurrent, hfiles, hrows⟩
    rw [nextChunkIfEmpty, hchunk]
  | none =>
    rw [hchunk] at hcurrent
    have hnil : current = [] := hcurrent
    subst hnil
    cases hkeys : r.files.reverse with
    | nil =>
      rw [hkeys] at hfiles
      cases hfiles
      have hfilesNil : r.files = [] := List.reverse_eq_nil_iff.mp hkeys
      refine Or.inl ⟨hrows, r, ?_, [], [], rfl, ?_, ?_⟩
      · rw [nextChunkIfEmpty, hchunk, hfilesNil]
        rfl
      · rw [hkeys]
        exact List.Forall₂.nil
      · rw [hchunk]
    | cons first keys =>
      have hfilesEq : r.files = keys.reverse ++ [first] := by
        rw [← List.reverse_reverse r.files, hkeys, List.reverse_cons]
      rw [hkeys] at hfiles
      cases hfiles with
      | @cons _ chunk _ chunks hstored hfiles =>
        obtain ⟨hget, hfits, htrips⟩ := hstored
        obtain ⟨opened, hconnect, -, hleft⟩ := Chunk.connect_spec hfits htrips
        refine Or.inr ⟨{ r with files := keys.reverse, currentChunk := some opened }, opened,
          chunk.rows, chunks, ?_, rfl, hleft, ?_, hrows⟩
        · rw [nextChunkIfEmpty, hchunk, hfilesEq, List.getLast?_concat]
          simp only [hget, hconnect, List.dropLast_concat]
          rfl
        · rw [List.reverse_reverse]
          exact hfiles

/-- A loop gives the view of the next row of the session, if there is one. -/
theorem Rest.loop {ask : RecordChunkReader → Except Panic (RecordChunkReader × Answer α)}
    {view : SessionRecordRow → α} {after : List SessionRecordRow → List SessionRecordRow}
    (hask : Asks codes ask view after) {r : SessionReader} {rows : List SessionRecordRow}
    (h : Rest codes store r rows) :
    ∃ r', r.loop codes store ask = .ok (r', rows.head?.map view) ∧
      Rest codes store r' (after rows) := by
  induction hsize : r.size using Nat.strongRecOn generalizing r with
  | ind n ih =>
    rcases h.next with ⟨rfl, r₁, hnext, hrest⟩ | ⟨r₁, chunk, current, chunks, hnext, hchunk, hleft,
      hfiles, hrows⟩
    · refine ⟨r₁, ?_, ?_⟩
      · rw [SessionReader.loop]
        split <;> rename_i hturn <;> rw [turn, hnext] at hturn <;> cases hturn
        rfl
      · rw [hask.after_nil]
        exact hrest
    · cases current with
      | cons row current =>
        obtain ⟨chunk', hfound, hleft'⟩ := hask.found chunk row current hleft
        have hturn : r.turn codes store ask =
            .ok ({ r₁ with currentChunk := some chunk' }, .found (view row)) := by
          rw [turn, hnext]
          simp only [hchunk, hfound]
        refine ⟨{ r₁ with currentChunk := some chunk' }, ?_, ?_⟩
        · rw [SessionReader.loop]
          split <;> rename_i hturn' <;> rw [hturn] at hturn' <;> cases hturn'
          rw [hrows]
          rfl
        · rw [hrows, hask.after_append]
          exact ⟨_, chunks, rfl, hfiles, hleft'⟩
      | nil =>
        obtain ⟨chunk', hfinished⟩ := hask.finished chunk hleft
        have hturn : r.turn codes store ask = .ok ({ r₁ with currentChunk := none }, .again) := by
          rw [turn, hnext]
          simp only [hchunk, hfinished]
        have hless := turn_again codes store ask hturn
        have hleft₁ : Rest codes store { r₁ with currentChunk := none } rows :=
          ⟨[], chunks, hrows, hfiles, rfl⟩
        obtain ⟨r', hloop, hrest⟩ := ih _ (hsize ▸ hless) hleft₁ rfl
        refine ⟨r', ?_, hrest⟩
        rw [SessionReader.loop]
        split <;> rename_i hturn' <;> rw [hturn] at hturn' <;> cases hturn'
        exact hloop

theorem Rest.peekTs {r : SessionReader} {rows : List SessionRecordRow}
    (h : Rest codes store r rows) :
    ∃ r', r.peekTs codes store = .ok (r', rows.head?.map SessionRecordRow.ts) ∧
      Rest codes store r' rows :=
  h.loop (asksPeek codes)

theorem Rest.pop {r : SessionReader} {rows : List SessionRecordRow} (h : Rest codes store r rows) :
    ∃ r', r.pop codes store = .ok (r', rows.head?) ∧ Rest codes store r' rows.tail := by
  obtain ⟨r', hpop, hrest⟩ := h.loop (asksPop codes)
  rw [Option.map_id'] at hpop
  exact ⟨r', hpop, hrest⟩

/-! ### Any mixture of calls -/

inductive Call where
  | peekTs
  | pop

inductive Result where
  | peeked (ts : Option UInt64)
  | popped (row : Option SessionRecordRow)

/-- The results of a list of calls. -/
def run (codes : Codes) (store : ObjectStore) : List Call → SessionReader → Except Panic (List Result)
  | [], _ => .ok []
  | .peekTs :: calls, r => do
    let (r, ts) ← r.peekTs codes store
    let results ← run codes store calls r
    .ok (.peeked ts :: results)
  | .pop :: calls, r => do
    let (r, row) ← r.pop codes store
    let results ← run codes store calls r
    .ok (.popped row :: results)

/-- What the calls should give on a list of rows: a peek the time of the next row, a pop the next
    row, which is then gone. -/
def replay : List Call → List SessionRecordRow → List Result
  | [], _ => []
  | .peekTs :: calls, rows => .peeked (rows.head?.map SessionRecordRow.ts) :: replay calls rows
  | .pop :: calls, rows => .popped rows.head? :: replay calls rows.tail

theorem Rest.run {r : SessionReader} {rows : List SessionRecordRow} (h : Rest codes store r rows)
    (calls : List Call) : r.run codes store calls = .ok (replay calls rows) := by
  induction calls generalizing r rows with
  | nil => rfl
  | cons call calls ih =>
    cases call with
    | peekTs =>
      obtain ⟨r', hpeek, hrest⟩ := h.peekTs
      rw [SessionReader.run, hpeek]
      change (do let results ← r'.run codes store calls; Except.ok (_ :: results)) = _
      rw [ih hrest]
      rfl
    | pop =>
      obtain ⟨r', hpop, hrest⟩ := h.pop
      rw [SessionReader.run, hpop]
      change (do let results ← r'.run codes store calls; Except.ok (_ :: results)) = _
      rw [ih hrest]
      rfl

end SessionReader

/-- The chunk is written, and reading the file gives its header, its rows in order and then the
    end. -/
def Chunk.ReadsBack (codes : Codes) (chunk : Chunk) : Prop :=
  ∃ file, chunk.write codes = .ok file ∧
    ∃ r, (RecordChunkReader.new file.data).connect codes = .ok (r, .ok ()) ∧
      r.header = some chunk.header ∧
      r.popMany codes (chunk.rows.length + 1) =
        .ok (chunk.rows.map (fun row => .ok (some row)) ++ [Except.ok none])

/-- What does not fit is not written. -/
theorem Chunk.ReadsBack.fits {codes : Codes} {chunk : Chunk} (h : chunk.ReadsBack codes) :
    chunk.Fits codes := by
  obtain ⟨file, hwrite, -⟩ := h
  rcases chunk.write_spec codes with ⟨hfits, -⟩ | ⟨-, p, herr⟩
  · exact hfits
  · rw [herr] at hwrite
    cases hwrite

/-- A session reader over these chunks, which are stored under keys that it will take in this
    order, gives the rows of the session to any mixture of calls. -/
def Replays (codes : Codes) (chunks : List Chunk) : Prop :=
  ∀ (r : SessionReader) (store : ObjectStore), r.currentChunk = none →
    List.Forall₂ (fun key (chunk : Chunk) => ∃ file, chunk.write codes = .ok file ∧
      store.getObject key = some file.data) r.files.reverse chunks →
    ∀ calls, r.run codes store calls = .ok (SessionReader.replay calls (chunks.flatMap Chunk.rows))

theorem forall₂_imp_of_mem {β γ : Type} {R S : β → γ → Prop} {first : List β} {second : List γ}
    (h : List.Forall₂ R first second) (himp : ∀ b, ∀ c ∈ second, R b c → S b c) :
    List.Forall₂ S first second := by
  induction h with
  | nil => exact .nil
  | cons hhead _ ih =>
    exact .cons (himp _ _ (by simp) hhead) (ih fun b c hc => himp b c (by simp [hc]))

/-- **Chunks and sessions come back.** The chunks of a session are written and read back, and a
    session reader over them gives every row once, exactly when the encodings of all headers and
    rows fit into the buffer. -/
theorem readsBack_iff (codes : Codes) (chunks : List Chunk)
    (htrips : ∀ chunk ∈ chunks, chunk.RoundTrips codes) :
    ((∀ chunk ∈ chunks, chunk.ReadsBack codes) ∧ Replays codes chunks) ↔
      ∀ chunk ∈ chunks, chunk.Fits codes := by
  constructor
  · rintro ⟨hback, -⟩ chunk hmem
    exact (hback chunk hmem).fits
  · intro hfits
    have hwritten : ∀ chunk ∈ chunks, ∀ file, chunk.write codes = .ok file →
        file.data = chunk.bytes codes := by
      intro chunk hmem file hwrite
      rcases chunk.write_spec codes with ⟨-, hok⟩ | ⟨hbad, -⟩
      · rw [hok] at hwrite
        cases hwrite
        rfl
      · exact absurd (hfits chunk hmem) hbad
    constructor
    · intro chunk hmem
      rcases chunk.write_spec codes with ⟨-, hok⟩ | ⟨hbad, -⟩
      · obtain ⟨r, hconnect, hheader, hleft⟩ :=
          Chunk.connect_spec (hfits chunk hmem) (htrips chunk hmem)
        exact ⟨_, hok, r, hconnect, hheader, hleft.popMany⟩
      · exact absurd (hfits chunk hmem) hbad
    · intro r store hcurrent hfiles calls
      have hrest : SessionReader.Rest codes store r (chunks.flatMap Chunk.rows) := by
        refine ⟨[], chunks, rfl, ?_, by rw [hcurrent]⟩
        refine forall₂_imp_of_mem hfiles ?_
        rintro key chunk hmem ⟨file, hwrite, hget⟩
        rw [hwritten chunk hmem file hwrite] at hget
        exact ⟨hget, hfits chunk hmem, htrips chunk hmem⟩
      exact hrest.run calls

/-! ### The layout of the encoding

Integers are little-endian, a sequence stands behind its length in eight bytes, an enumeration
behind the number of its variant in four, an option behind a byte.  The decoders read texts of
single bytes, and the rows of stopped tracks and of audio. -/

namespace Layout

def le (n : Nat) : Nat → Bytes
  | 0 => []
  | width + 1 => UInt8.ofNat n :: le (n / 256) width

def text (s : String) : Bytes :=
  let bytes := s.toList.flatMap String.utf8EncodeChar
  le bytes.length 8 ++ bytes

def bool (b : Bool) : Bytes := if b then [1] else [0]

def option {α : Type} (write : α → Bytes) : Option α → Bytes
  | none => [0]
  | some a => 1 :: write a

def layers (layers : MediaLayersBitrate) : Bytes :=
  layers.toList.flatMap (option fun layer => layer.toList.flatMap (option fun b => le b.toNat 2))

def rotation : MediaOrientation → Bytes
  | .deg0 => le 0 4
  | .deg90 => le 1 4
  | .deg180 => le 2 4
  | .deg270 => le 3 4

def h264Profile : H264Profile → Bytes
  | .p42001fNonInterleaved => le 0 4
  | .p42001fSingleNal => le 1 4
  | .p42e01fNonInterleaved => le 2 4
  | .p42e01fSingleNal => le 3 4
  | .p4d001fNonInterleaved => le 4 4
  | .p4d001fSingleNal => le 5 4
  | .p64001fNonInterleaved => le 6 4

def vp9Profile : Vp9Profile → Bytes
  | .p0 => le 0 4
  | .p2 => le 1 4

def mediaMeta : MediaMeta → Bytes
  | .opus level => le 0 4 ++ option (fun level => [level.toUInt8]) level
  | .h264 key profile sim turn =>
    le 1 4 ++ bool key ++ h264Profile profile ++ option (fun sim => [sim.spatial]) sim ++
      option rotation turn
  | .vp8 key sim turn =>
    le 2 4 ++ bool key ++
      option (fun sim => option (fun id => le id.toNat 2) sim.pictureId ++
        option (fun idx => [idx]) sim.tl0PicIdx ++ [sim.spatial, sim.temporal] ++
        bool sim.layerSync) sim ++ option rotation turn
  | .vp9 key profile svc turn =>
    le 3 4 ++ bool key ++ vp9Profile profile ++
      option (fun svc => [svc.spatial, svc.temporal] ++ bool svc.beginFrame ++ bool svc.endFrame ++
        option (fun n => [n]) svc.spatialLayers ++ option (fun id => le id.toNat 2) svc.pictureId ++
        bool svc.switchingPoint ++ bool svc.predictedFrame) svc ++ option rotation turn

def packet (pkt : MediaPacket) : Bytes :=
  le pkt.ts.toNat 4 ++ le pkt.seq.toNat 2 ++ bool pkt.marker ++ bool pkt.nackable ++
    option layers pkt.layers ++ mediaMeta pkt.mediaMeta ++ le pkt.data.length 8 ++ pkt.data

def trackMeta (m : TrackMeta) : Bytes :=
  (match m.kind with | .audio => le 0 4 | .video => le 1 4) ++
  (match m.scaling with | .none => le 0 4 | .simulcast => le 1 4) ++
  (match m.control with | .maxBitrate => le 0 4 | .dynamicConsumers => le 1 4) ++
  option text m.metadata

def event : SessionRecordEvent → Bytes
  | .joinRoom app room peer => le 0 4 ++ text app ++ text room ++ text peer
  | .leaveRoom => le 1 4
  | .trackStarted track name m => le 2 4 ++ le track.toNat 2 ++ text name ++ trackMeta m
  | .trackStopped track => le 3 4 ++ le track.toNat 2
  | .trackMedia track media => le 4 4 ++ le track.toNat 2 ++ packet media
  | .disconnected => le 5 4

def header (h : SessionRecordHeader) : Bytes :=
  text h.room ++ text h.peer ++ le h.session.toNat 8 ++ le h.startTs.toNat 8 ++ le h.endTs.toNat 8

def row (r : SessionRecordRow) : Bytes := le r.ts.toNat 8 ++ event r.event

def readLe : Nat → Bytes → Option (Nat × Bytes)
  | 0, bytes => some (0, bytes)
  | _ + 1, [] => none
  | width + 1, b :: bytes => do
    let (n, bytes) ← readLe width bytes
    some (b.toNat + 256 * n, bytes)

def readBytes (bytes : Bytes) : Option (Bytes × Bytes) := do
  let (len, bytes) ← readLe 8 bytes
  if bytes.length < len then none else some (bytes.take len, bytes.drop len)

def readText (bytes : Bytes) : Option (String × Bytes) := do
  let (chars, bytes) ← readBytes bytes
  some (String.ofList (chars.map fun b => Char.ofNat b.toNat), bytes)

def readHeader (bytes : Bytes) : Option SessionRecordHeader := do
  let (room, bytes) ← readText bytes
  let (peer, bytes) ← readText bytes
  let (session, bytes) ← readLe 8 bytes
  let (startTs, bytes) ← readLe 8 bytes
  let (endTs, _) ← readLe 8 bytes
  some ⟨room, peer, UInt64.ofNat session, UInt64.ofNat startTs, UInt64.ofNat endTs⟩

def readAudio (bytes : Bytes) : Option MediaPacket := do
  let (ts, bytes) ← readLe 4 bytes
  let (seq, bytes) ← readLe 2 bytes
  match bytes with
  | marker :: nackable :: 0 :: 0 :: 0 :: 0 :: 0 :: 1 :: level :: bytes =>
    let (data, _) ← readBytes bytes
    some ⟨UInt32.ofNat ts, UInt16.ofNat seq, marker == 1, nackable == 1, none,
      .opus (some level.toInt8), data⟩
  | _ => none

def readRow (bytes : Bytes) : Option SessionRecordRow := do
  let (ts, bytes) ← readLe 8 bytes
  let (variant, bytes) ← readLe 4 bytes
  let (track, bytes) ← readLe 2 bytes
  match variant with
  | 3 => some ⟨UInt64.ofNat ts, .trackStopped (UInt16.ofNat track)⟩
  | 4 =>
    let media ← readAudio bytes
    some ⟨UInt64.ofNat ts, .trackMedia (UInt16.ofNat track) media⟩
  | _ => none

def codes : Codes := ⟨⟨header, readHeader⟩, ⟨row, readRow⟩⟩

/-- An audio packet of a track with a payload of this length. -/
def audio (ts len : Nat) : SessionRecordRow :=
  ⟨UInt64.ofNat ts, .trackMedia 1
    ⟨UInt32.ofNat ts, UInt16.ofNat ts, true, false, none, .opus (some (-30)), List.replicate len 7⟩⟩

end Layout

/-- Two chunks with three rows. -/
theorem readsBack_twoChunks :
    let chunks : List Chunk :=
      [⟨⟨"room", "peer", 5, 10, 20⟩, [Layout.audio 10 3, Layout.audio 20 160]⟩,
        ⟨⟨"room", "peer", 5, 30, 30⟩, [⟨30, .trackStopped 1⟩]⟩]
    (∀ chunk ∈ chunks, chunk.Fits Layout.codes) ∧
    (∀ chunk ∈ chunks, chunk.ReadsBack Layout.codes) ∧ Replays Layout.codes chunks := by
  have hfits : ∀ chunk ∈ ([⟨⟨"room", "peer", 5, 10, 20⟩, [Layout.audio 10 3, Layout.audio 20 160]⟩,
        ⟨⟨"room", "peer", 5, 30, 30⟩, [⟨30, .trackStopped 1⟩]⟩] : List Chunk),
      chunk.Fits Layout.codes := by
    simp only [Chunk.Fits, Fits]
    decide +kernel
  have htrips : ∀ chunk ∈ ([⟨⟨"room", "peer", 5, 10, 20⟩, [Layout.audio 10 3, Layout.audio 20 160]⟩,
        ⟨⟨"room", "peer", 5, 30, 30⟩, [⟨30, .trackStopped 1⟩]⟩] : List Chunk),
      chunk.RoundTrips Layout.codes := by
    simp only [Chunk.RoundTrips, RoundTrips]
    decide +kernel
  exact ⟨hfits, (readsBack_iff Layout.codes _ htrips).mpr hfits⟩

/-- The payload of an RTP packet that fills an Ethernet frame does not fit, although its row has
    an encoding that can be decoded: the recorder panics. -/
theorem full_packet_not_written :
    let chunk : Chunk := ⟨⟨"room", "peer", 5, 10, 10⟩, [Layout.audio 10 1460]⟩
    chunk.RoundTrips Layout.codes ∧ (chunk.write Layout.codes).toOption = none ∧
    ¬ chunk.ReadsBack Layout.codes := by
  refine ⟨?_, ?_, ?_⟩
  · simp only [Chunk.RoundTrips, RoundTrips]
    decide +kernel
  · decide +kernel
  · intro hback
    have hfits := hback.fits
    revert hfits
    simp only [Chunk.Fits, Fits]
    decide +kernel

end MediaServer.Record
