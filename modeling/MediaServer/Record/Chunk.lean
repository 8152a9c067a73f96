import MediaServer.Lib.Machine
import MediaServer.Endpoint.Messages

/-!
# Chunks of a recording

A chunk is a header and rows, each written as its length in four bytes and its encoding.  Writer
and reader go through a buffer of 1500 bytes, of which the writer keeps four for the length.

A reader can look at the next row without taking it: it reads the row and keeps it until the
next pop.

The source of a reader is the list of the bytes still to come.  The encoding of headers and rows
is the crate `bincode`.
-/

namespace MediaServer.Record

inductive IoErrorKind where
  | unexpectedEof
  | outOfMemory
  | invalidInput
deriving DecidableEq, Repr

structure IoError where
  kind : IoErrorKind
  message : String
deriving Repr

structure SessionRecordHeader where
  room : String
  peer : String
  session : UInt64
  startTs : UInt64
  endTs : UInt64
deriving DecidableEq

structure SessionRecordRow where
  ts : UInt64
  event : SessionRecordEvent
deriving DecidableEq

/-- The encodings of the two kinds of records. -/
structure Codes where
  header : Bincode SessionRecordHeader
  row : Bincode SessionRecordRow

section Encoding

variable {α : Type}

/-- The `write_to` of headers and of rows: how much was written, and the buffer afterwards. -/
def writeTo (code : Bincode α) (value : α) (buf : Bytes) : Except IoError (Nat × Bytes) :=
  let len := (code.serialize value).length
  if len > buf.length then .error ⟨.outOfMemory, "Buffer too small"⟩
  else .ok (len, code.serialize value ++ buf.drop len)

/-- The `read_from` of headers and of rows. -/
def readFrom (code : Bincode α) (buf : Bytes) : Except IoError α :=
  match code.deserialize buf with
  | some value => .ok value
  | none => .error ⟨.invalidInput, "bincode deserialize error"⟩

def toBeBytes (n : UInt32) : Bytes :=
  [UInt8.ofNat (n.toNat / 16777216), UInt8.ofNat (n.toNat / 65536), UInt8.ofNat (n.toNat / 256),
    UInt8.ofNat n.toNat]

/-- The length of the buffers. -/
def BUF_LEN : Nat := 1500

structure MemoryFile where
  data : Bytes
  startTs : Option UInt64
  endTs : Option UInt64

structure RecordChunkWriter where
  buf : Bytes
  file : MemoryFile

/-- Encode a record behind the place of its length, write the length, and copy both to the
    file. -/
def RecordChunkWriter.write (code : Bincode α) (w : RecordChunkWriter) (value : α) :
    Except Panic RecordChunkWriter :=
  match writeTo code value (w.buf.drop 4) with
  | .error _ => .error ⟨"should read"⟩
  | .ok (len, rest) =>
    let buf := toBeBytes (UInt32.ofNat len) ++ rest
    .ok ⟨buf, { w.file with data := w.file.data ++ buf.take (len + 4) }⟩

end Encoding

namespace RecordChunkWriter

variable (codes : Codes)

def new (room peer : String) (session startTs endTs : UInt64) : Except Panic RecordChunkWriter :=
  write codes.header ⟨List.replicate BUF_LEN 0, ⟨[], some startTs, some endTs⟩⟩
    ⟨room, peer, session, startTs, endTs⟩

def push (w : RecordChunkWriter) (row : SessionRecordRow) : Except Panic RecordChunkWriter :=
  write codes.row w row

def take (w : RecordChunkWriter) : MemoryFile := w.file

/-- Push all rows, one after another. -/
def pushAll : List SessionRecordRow → RecordChunkWriter → Except Panic RecordChunkWriter
  | [], w => .ok w
  | row :: rows, w => do
    let w ← w.push codes row
    pushAll rows w

end RecordChunkWriter

/-- A header with its rows. -/
structure Chunk where
  header : SessionRecordHeader
  rows : List SessionRecordRow

/-- The chunk as the recorder writes it. -/
def Chunk.write (codes : Codes) (chunk : Chunk) : Except Panic MemoryFile := do
  let w ← RecordChunkWriter.new codes chunk.header.room chunk.header.peer chunk.header.session
    chunk.header.startTs chunk.header.endTs
  let w ← w.pushAll codes chunk.rows
  .ok w.take

structure RecordChunkReader where
  source : Bytes
  buf : Bytes
  header : Option SessionRecordHeader
  peek : Option SessionRecordRow

namespace RecordChunkReader

def new (source : Bytes) : RecordChunkReader := ⟨source, List.replicate BUF_LEN 0, none, none⟩

/-- `read_u32` of the source; a source that ends before is used up. -/
def readU32 (r : RecordChunkReader) : RecordChunkReader × Except IoError Nat :=
  match r.source with
  | a :: b :: c :: d :: rest =>
    ({ r with source := rest },
      .ok (a.toNat * 16777216 + b.toNat * 65536 + c.toNat * 256 + d.toNat))
  | _ => ({ r with source := [] }, .error ⟨.unexpectedEof, "early eof"⟩)

/-- Fill the front of the buffer from the source and decode it. -/
def readRecord {α : Type} (code : Bincode α) (r : RecordChunkReader) (len : Nat) :
    Except Panic (RecordChunkReader × Except IoError α) :=
  if len > r.buf.length then .error ⟨"range end index out of range for slice"⟩
  else if r.source.length < len then
    .ok ({ r with source := [] }, .error ⟨.unexpectedEof, "early eof"⟩)
  else
    let buf := r.source.take len ++ r.buf.drop len
    .ok ({ r with source := r.source.drop len, buf := buf }, readFrom code (buf.take len))

variable (codes : Codes)

def connect (r : RecordChunkReader) : Except Panic (RecordChunkReader × Except IoError Unit) :=
  match r.readU32 with
  | (r, .error err) => .ok (r, .error err)
  | (r, .ok headerLen) => do
    let (r, res) ← r.readRecord codes.header headerLen
    match res with
    | .ok header => .ok ({ r with header := some header }, .ok ())
    | .error err => .ok (r, .error err)

def pop (r : RecordChunkReader) :
    Except Panic (RecordChunkReader × Except IoError (Option SessionRecordRow)) :=
  match r.peek with
  | some row => .ok ({ r with peek := none }, .ok (some row))
  | none =>
    match r.readU32 with
    | (r, .error err) =>
      if err.kind = .unexpectedEof then .ok (r, .ok none) else .ok (r, .error err)
    | (r, .ok chunkLen) => do
      let (r, res) ← r.readRecord codes.row chunkLen
      match res with
      | .ok event => .ok (r, .ok (some event))
      | .error err => .ok (r, .error err)

def peekTs (r : RecordChunkReader) : Except Panic (RecordChunkReader × Option UInt64) :=
  match r.peek with
  | some row => .ok (r, some row.ts)
  | none => do
    let (r, res) ← r.pop codes
    match res with
    | .error _ => .ok (r, none)
    | .ok row => .ok ({ r with peek := row }, row.map SessionRecordRow.ts)

end RecordChunkReader

/-! ### What a chunk looks like in a file -/

section Frames

variable {α : Type}

/-- A record as it stands in a file. -/
def frame (code : Bincode α) (value : α) : Bytes :=
  toBeBytes (UInt32.ofNat (code.serialize value).length) ++ code.serialize value

/-- The encoding of a record fits between the length and the end of the buffer. -/
def Fits (code : Bincode α) (value : α) : Prop := (code.serialize value).length + 4 ≤ BUF_LEN

/-- The encoding of this record can be decoded. -/
def RoundTrips (code : Bincode α) (value : α) : Prop :=
  code.deserialize (code.serialize value) = some value

def frames (code : Bincode α) (values : List α) : Bytes := values.flatMap (frame code)

/-- A record is written exactly when it fits. -/
theorem write_spec (code : Bincode α) (w : RecordChunkWriter) (hbuf : w.buf.length = BUF_LEN)
    (value : α) :
    (Fits code value ∧ ∃ buf, buf.length = BUF_LEN ∧
      w.write code value = .ok ⟨buf, { w.file with data := w.file.data ++ frame code value }⟩) ∨
    (¬ Fits code value ∧ ∃ p, w.write code value = .error p) := by
  by_cases hfits : Fits code value
  · left
    refine ⟨hfits, toBeBytes (UInt32.ofNat (code.serialize value).length) ++
      (code.serialize value ++ (w.buf.drop 4).drop (code.serialize value).length), ?_, ?_⟩
    · rw [Fits] at hfits
      simp only [toBeBytes, List.length_append, List.length_cons, List.length_nil,
        List.length_drop, hbuf]
      omega
    · have hroom : ¬ (code.serialize value).length > (w.buf.drop 4).length := by
        rw [Fits] at hfits
        rw [List.length_drop, hbuf]
        omega
      rw [RecordChunkWriter.write, writeTo, if_neg hroom]
      have htake : (toBeBytes (UInt32.ofNat (code.serialize value).length) ++
          (code.serialize value ++ (w.buf.drop 4).drop (code.serialize value).length)).take
            ((code.serialize value).length + 4) = frame code value := by
        rw [← List.append_assoc, ← frame]
        refine List.take_left' ?_
        simp [frame, toBeBytes]
      simp only [htake]
  · right
    refine ⟨hfits, ⟨"should read"⟩, ?_⟩
    have hfull : (code.serialize value).length > (w.buf.drop 4).length := by
      rw [Fits] at hfits
      rw [List.length_drop, hbuf]
      simp only [BUF_LEN] at hfits ⊢
      omega
    rw [RecordChunkWriter.write, writeTo, if_pos hfull]

end Frames

/-- All rows are written exactly when each of them fits. -/
theorem pushAll_spec (codes : Codes) (rows : List SessionRecordRow) (w : RecordChunkWriter)
    (hbuf : w.buf.length = BUF_LEN) :
    ((∀ row ∈ rows, Fits codes.row row) ∧ ∃ w', w.pushAll codes rows = .ok w' ∧
      w'.file = { w.file with data := w.file.data ++ frames codes.row rows }) ∨
    ((¬ ∀ row ∈ rows, Fits codes.row row) ∧ ∃ p, w.pushAll codes rows = .error p) := by
  induction rows generalizing w with
  | nil => exact Or.inl ⟨by simp, w, rfl, by simp [frames]⟩
  | cons row rows ih =>
    rcases write_spec codes.row w hbuf row with ⟨hfits, buf, hlen, hok⟩ | ⟨hfits, p, herr⟩
    · rcases ih ⟨buf, _⟩ hlen with ⟨hrows, w', hrest, hfile⟩ | ⟨hrows, p, hrest⟩
      · refine Or.inl ⟨List.forall_mem_cons.mpr ⟨hfits, hrows⟩, w', ?_, ?_⟩
        · rw [RecordChunkWriter.pushAll, RecordChunkWriter.push, hok]
          exact hrest
        · rw [hfile, frames, frames, List.flatMap_cons, List.append_assoc]
      · refine Or.inr ⟨fun hall => hrows (List.forall_mem_cons.mp hall).2, p, ?_⟩
        rw [RecordChunkWriter.pushAll, RecordChunkWriter.push, hok]
        exact hrest
    · refine Or.inr ⟨fun hall => hfits (List.forall_mem_cons.mp hall).1, p, ?_⟩
      rw [RecordChunkWriter.pushAll, RecordChunkWriter.push, herr]
      rfl

/-- Everything of the chunk fits into the buffers. -/
def Chunk.Fits (codes : Codes) (chunk : Chunk) : Prop :=
  Record.Fits codes.header chunk.header ∧ ∀ row ∈ chunk.rows, Record.Fits codes.row row

/-- The bytes of the chunk. -/
def Chunk.bytes (codes : Codes) (chunk : Chunk) : Bytes :=
  frame codes.header chunk.header ++ frames codes.row chunk.rows

/-- A chunk is written exactly when everything of it fits. -/
theorem Chunk.write_spec (codes : Codes) (chunk : Chunk) :
    (chunk.Fits codes ∧ chunk.write codes =
      .ok ⟨chunk.bytes codes, some chunk.header.startTs, some chunk.header.endTs⟩) ∨
    (¬ chunk.Fits codes ∧ ∃ p, chunk.write codes = .error p) := by
  rcases Record.write_spec codes.header
      ⟨List.replicate BUF_LEN 0, ⟨[], some chunk.header.startTs, some chunk.header.endTs⟩⟩
      List.length_replicate chunk.header with ⟨hfits, buf, hlen, hok⟩ | ⟨hfits, p, herr⟩
  · rcases pushAll_spec codes chunk.rows ⟨buf, _⟩ hlen with
      ⟨hrows, w', hrest, hfile⟩ | ⟨hrows, p, hrest⟩
    · refine Or.inl ⟨⟨hfits, hrows⟩, ?_⟩
      rw [Chunk.write, RecordChunkWriter.new, hok]
      change (do let w ← RecordChunkWriter.pushAll codes chunk.rows _; Except.ok w.take) = _
      rw [hrest]
      change Except.ok w'.file = _
      rw [hfile]
      rfl
    · refine Or.inr ⟨fun hall => hrows hall.2, p, ?_⟩
      rw [Chunk.write, RecordChunkWriter.new, hok]
      change (do let w ← RecordChunkWriter.pushAll codes chunk.rows _; Except.ok w.take) = _
      rw [hrest]
      rfl
  · refine Or.inr ⟨fun hall => hfits hall.1, p, ?_⟩
    rw [Chunk.write, RecordChunkWriter.new, herr]
    rfl

/-! ### Reading a chunk back -/

theorem readU32_frame {α : Type} (code : Bincode α) {value : α} (hfits : Fits code value)
    (rest : Bytes) (r : RecordChunkReader) (hsource : r.source = frame code value ++ rest) :
    r.readU32 = ({ r with source := code.serialize value ++ rest },
      .ok (code.serialize value).length) := by
  have hlen : (UInt32.ofNat (code.serialize value).length).toNat =
      (code.serialize value).length := by
    rw [Fits, BUF_LEN] at hfits
    rw [UInt32.toNat_ofNat']
    omega
  have hsmall : (code.serialize value).length < 16777216 := by
    rw [Fits, BUF_LEN] at hfits
    omega
  rw [RecordChunkReader.readU32, hsource]
  simp only [frame, toBeBytes, List.cons_append, List.nil_append, hlen, UInt8.toNat_ofNat',
    Prod.mk.injEq, Except.ok.injEq, true_and]
  omega

theorem readRecord_frame {α : Type} (code : Bincode α) {value : α} (hfits : Fits code value)
    (htrip : RoundTrips code value) (rest : Bytes) (r : RecordChunkReader)
    (hbuf : r.buf.length = BUF_LEN) (hsource : r.source = code.serialize value ++ rest) :
    ∃ buf, buf.length = BUF_LEN ∧
      r.readRecord code (code.serialize value).length =
        .ok ({ r with source := rest, buf := buf }, .ok value) := by
  have hroom : ¬ (code.serialize value).length > r.buf.length := by
    rw [Fits] at hfits
    omega
  have hthere : ¬ r.source.length < (code.serialize value).length := by
    rw [hsource, List.length_append]
    omega
  refine ⟨code.serialize value ++ r.buf.drop (code.serialize value).length, ?_, ?_⟩
  · rw [List.length_append, List.length_drop]
    omega
  · rw [RecordChunkReader.readRecord, if_neg hroom, if_neg hthere, hsource]
    simp only [List.take_left, List.drop_left, readFrom]
    rw [htrip]

/-- The rows that a reader will still give. -/
structure Left (codes : Codes) (r : RecordChunkReader) (rows : List SessionRecordRow) : Prop where
  buf : r.buf.length = BUF_LEN
  fits : ∀ row ∈ rows, Fits codes.row row
  trips : ∀ row ∈ rows, RoundTrips codes.row row
  source : match r.peek with
    | none => r.source = frames codes.row rows
    | some row => ∃ rest, rows = row :: rest ∧ r.source = frames codes.row rest

/-- A row is read from the source. -/
theorem pop_frame (codes : Codes) {r : RecordChunkReader} {row : SessionRecordRow} {rest : Bytes}
    (hbuf : r.buf.length = BUF_LEN) (hpeek : r.peek = none) (hfits : Fits codes.row row)
    (htrip : RoundTrips codes.row row) (hsource : r.source = frame codes.row row ++ rest) :
    ∃ buf, buf.length = BUF_LEN ∧
      r.pop codes = .ok ({ r with source := rest, buf := buf }, .ok (some row)) := by
  obtain ⟨buf, hlen, hread⟩ := readRecord_frame codes.row hfits htrip rest
    { r with source := codes.row.serialize row ++ rest } hbuf rfl
  refine ⟨buf, hlen, ?_⟩
  rw [RecordChunkReader.pop, hpeek]
  simp only [readU32_frame codes.row hfits rest r hsource]
  rw [hread]
  simp only [hpeek]
  rfl

theorem Left.pop {codes : Codes} {r : RecordChunkReader} {rows : List SessionRecordRow}
    (h : Left codes r rows) :
    ∃ r', r.pop codes = .ok (r', .ok rows.head?) ∧ Left codes r' rows.tail := by
  have hsource := h.source
  cases hpeek : r.peek with
  | some row =>
    rw [hpeek] at hsource
    obtain ⟨rest, rfl, hrest⟩ := hsource
    refine ⟨{ r with peek := none }, ?_, h.buf, ?_, ?_, hrest⟩
    · rw [RecordChunkReader.pop, hpeek]
      rfl
    · exact fun row hmem => h.fits row (List.mem_cons_of_mem _ hmem)
    · exact fun row hmem => h.trips row (List.mem_cons_of_mem _ hmem)
  | none =>
    rw [hpeek] at hsource
    cases rows with
    | nil =>
      have hnil : r.source = [] := hsource
      refine ⟨r, ?_, h⟩
      rw [RecordChunkReader.pop, hpeek, RecordChunkReader.readU32, hnil]
      obtain ⟨source, buf, header, peek⟩ := r
      cases hnil
      rfl
    | cons row rows =>
      obtain ⟨buf, hlen, hpop⟩ := pop_frame codes h.buf hpeek (h.fits row (by simp))
        (h.trips row (by simp)) hsource
      refine ⟨_, hpop, hlen, ?_, ?_, ?_⟩
      · exact fun row hmem => h.fits row (List.mem_cons_of_mem _ hmem)
      · exact fun row hmem => h.trips row (List.mem_cons_of_mem _ hmem)
      · rw [hpeek]
        rfl

theorem Left.peekTs {codes : Codes} {r : RecordChunkReader} {rows : List SessionRecordRow}
    (h : Left codes r rows) :
    ∃ r', r.peekTs codes = .ok (r', rows.head?.map SessionRecordRow.ts) ∧ Left codes r' rows := by
  have hsource := h.source
  cases hpeek : r.peek with
  | some row =>
    rw [hpeek] at hsource
    obtain ⟨rest, rfl, hrest⟩ := hsource
    refine ⟨r, ?_, h⟩
    rw [RecordChunkReader.peekTs, hpeek]
    rfl
  | none =>
    obtain ⟨r', hpop, hleft⟩ := h.pop
    have hnone : r'.peek = none := by
      rw [hpeek] at hsource
      cases rows with
      | nil =>
        have hnil : r.source = [] := hsource
        rw [RecordChunkReader.pop, hpeek, RecordChunkReader.readU32, hnil] at hpop
        cases hpop
        exact hpeek
      | cons row rows =>
        obtain ⟨buf, -, hpop'⟩ := pop_frame codes h.buf hpeek (h.fits row (by simp))
          (h.trips row (by simp)) hsource
        rw [hpop'] at hpop
        cases hpop
        exact hpeek
    refine ⟨{ r' with peek := rows.head? }, ?_, hleft.buf, h.fits, h.trips, ?_⟩
    · rw [RecordChunkReader.peekTs, hpeek]
      simp only [hpop]
      rfl
    · have hrest := hleft.source
      rw [hnone] at hrest
      cases rows with
      | nil => exact hrest
      | cons row rows => exact ⟨rows, rfl, hrest⟩

/-- The results of a number of pops. -/
def RecordChunkReader.popMany (codes : Codes) :
    Nat → RecordChunkReader → Except Panic (List (Except IoError (Option SessionRecordRow)))
  | 0, _ => .ok []
  | n + 1, r => do
    let (r, res) ← r.pop codes
    let rest ← popMany codes n r
    .ok (res :: rest)

theorem Left.popMany {codes : Codes} {r : RecordChunkReader} {rows : List SessionRecordRow}
    (h : Left codes r rows) :
    r.popMany codes (rows.length + 1) =
      .ok (rows.map (fun row => .ok (some row)) ++ [Except.ok none]) := by
  induction rows generalizing r with
  | nil =>
    obtain ⟨r', hpop, -⟩ := h.pop
    rw [RecordChunkReader.popMany, List.length_nil, hpop]
    rfl
  | cons row rows ih =>
    obtain ⟨r', hpop, hleft⟩ := h.pop
    rw [RecordChunkReader.popMany, hpop]
    simp only [List.length_cons]
    change (do let rest ← r'.popMany codes (rows.length + 1); Except.ok (_ :: rest)) = _
    rw [ih hleft]
    rfl

/-- Everything of the chunk comes back from its encoding. -/
def Chunk.RoundTrips (codes : Codes) (chunk : Chunk) : Prop :=
  Record.RoundTrips codes.header chunk.header ∧ ∀ row ∈ chunk.rows, Record.RoundTrips codes.row row

/-- Opening a chunk that was written gives its header, and leaves its rows. -/
theorem Chunk.connect_spec {codes : Codes} {chunk : Chunk} (hfits : chunk.Fits codes)
    (htrips : chunk.RoundTrips codes) :
    ∃ r, (RecordChunkReader.new (chunk.bytes codes)).connect codes = .ok (r, .ok ()) ∧
      r.header = some chunk.header ∧ Left codes r chunk.rows := by
  obtain ⟨buf, hlen, hread⟩ := readRecord_frame codes.header hfits.1 htrips.1
    (frames codes.row chunk.rows)
    { RecordChunkReader.new (chunk.bytes codes) with
      source := codes.header.serialize chunk.header ++ frames codes.row chunk.rows }
    List.length_replicate rfl
  refine ⟨{ RecordChunkReader.new (chunk.bytes codes) with
      source := frames codes.row chunk.rows, buf := buf, header := some chunk.header }, ?_, rfl,
    hlen, hfits.2, htrips.2, rfl⟩
  have hu32 := readU32_frame codes.header hfits.1 (frames codes.row chunk.rows)
    (RecordChunkReader.new (chunk.bytes codes)) rfl
  rw [RecordChunkReader.connect]
  simp only [hu32]
  rw [hread]
  rfl

end MediaServer.Record
