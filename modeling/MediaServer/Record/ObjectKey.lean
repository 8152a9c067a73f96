import MediaServer.Record.SessionReader
import Mathlib.Data.List.Sort

/-!
# The order of the chunks of a session

The connector gives every chunk of a session an object key: the folder of the session and a file
name with the index and the times of the chunk, written in decimal.  A session reader sorts the
keys it finds as strings.

Up to index 9 the strings stand in the order of the indexes.  The key of index 10 comes before
the key of index 2, so a session of more than ten chunks is replayed in another order.
-/

namespace MediaServer.Record

/-- The part of a record request that its object key is made from. -/
structure RecordReq where
  index : Nat
  fromTs : Nat
  toTs : Nat

/-- `Path::join`, for paths separated by slashes. -/
def joinPath (base part : String) : String :=
  if part.toList.head? = some '/' then part
  else if base.toList.getLast?.all (· = '/') then base ++ part
  else base ++ "/" ++ part

def fileName (req : RecordReq) : String :=
  toString req.index ++ "-" ++ toString req.fromTs ++ "-" ++ toString req.toTs ++ ".rec"

/-- The key under which the connector lets a chunk be uploaded. -/
def objectKey (roomPath peerPath : String) (req : RecordReq) : String :=
  joinPath (joinPath roomPath peerPath) (fileName req)

/-- A recorded session: each chunk with the times of its request, in the order of the indexes. -/
abbrev Session := List (Nat × Nat × Chunk)

namespace Session

variable (roomPath peerPath : String)

def reqs (session : Session) : List RecordReq :=
  session.mapIdx fun index chunk => ⟨index, chunk.1, chunk.2.1⟩

/-- The keys of the chunks in the order of the indexes. -/
def keys (session : Session) : List String := session.reqs.map (objectKey roomPath peerPath)

def chunks (session : Session) : List Chunk := session.map fun chunk => chunk.2.2

/-- The rows of the session in the order in which they were recorded. -/
def rows (session : Session) : List SessionRecordRow := session.chunks.flatMap Chunk.rows

end Session

/-! ### Keys as strings -/

theorem toString_digit {n : Nat} (h : n < 10) : (toString n).toList = [Nat.digitChar n] := by
  revert n
  decide

theorem digitChar_lt {m n : Nat} (hmn : m < n) (hn : n < 10) :
    Nat.digitChar m < Nat.digitChar n := by
  have hall : ∀ n < 10, ∀ m < n, Nat.digitChar m < Nat.digitChar n := by decide
  exact hall n hn m hmn

/-- A file name starts with a digit, so it is appended to the folder. -/
theorem objectKey_eq (roomPath peerPath : String) :
    ∃ folder : String, ∀ req, objectKey roomPath peerPath req = folder ++ fileName req := by
  have hname : ∀ req, (fileName req).toList.head? ≠ some '/' := by
    intro req hslash
    have hne : (toString req.index).toList ≠ [] := by
      rw [Nat.toString_eq_repr, Nat.toList_repr]
      exact Nat.toDigits_ne_nil
    simp only [fileName, String.toList_append, List.append_assoc] at hslash
    rw [List.head?_append_of_ne_nil _ hne, Nat.toString_eq_repr, Nat.toList_repr] at hslash
    have hdigit := Nat.isDigit_of_mem_toDigits (by decide) (by decide) (List.mem_of_head? hslash)
    cases hdigit
  by_cases hlast : (joinPath roomPath peerPath).toList.getLast?.all (· = '/')
  · refine ⟨joinPath roomPath peerPath, fun req => ?_⟩
    rw [objectKey, joinPath, if_neg (hname req), if_pos hlast]
  · refine ⟨joinPath roomPath peerPath ++ "/", fun req => ?_⟩
    rw [objectKey, joinPath, if_neg (hname req), if_neg hlast]

/-- The first digit decides where one comes before the other. -/
theorem key_lt {folder : String} {first second : RecordReq} {a b : Char} {as bs : List Char}
    (hfirst : (toString first.index).toList = a :: as)
    (hsecond : (toString second.index).toList = b :: bs) (hlt : a < b) :
    folder ++ fileName first < folder ++ fileName second := by
  rw [String.lt_iff_toList_lt, String.toList_append, String.toList_append]
  refine List.append_left_lt ?_
  simp only [fileName, String.toList_append, hfirst, hsecond, List.append_assoc, List.cons_append]
  exact List.cons_lt_cons_iff.mpr (Or.inl hlt)

namespace Session

variable (roomPath peerPath : String)

theorem getElem_reqs (session : Session) {index : Nat} (h : index < session.reqs.length) :
    (session.reqs[index]).index = index := by
  simp [reqs]

/-- Up to ten chunks, the keys ascend. -/
theorem keys_sorted {session : Session} (h : session.length ≤ 10) :
    (session.keys roomPath peerPath).Pairwise (· ≤ ·) := by
  obtain ⟨folder, hfolder⟩ := objectKey_eq roomPath peerPath
  rw [keys, List.pairwise_map, List.pairwise_iff_getElem]
  intro i j hi hj hij
  have hlen : session.reqs.length = session.length := by simp [reqs]
  rw [hfolder, hfolder]
  have hdigit := digitChar_lt hij (by omega)
  have hfirst : (toString (session.reqs[i]).index).toList = [Nat.digitChar i] := by
    rw [getElem_reqs]
    exact toString_digit (by omega)
  have hsecond : (toString (session.reqs[j]).index).toList = [Nat.digitChar j] := by
    rw [getElem_reqs]
    exact toString_digit (by omega)
  exact le_of_lt (key_lt hfirst hsecond hdigit)

/-- From eleven chunks on, the key of index 10 comes before the key of index 2. -/
theorem keys_not_sorted {session : Session} (h : 10 < session.length) :
    ¬ (session.keys roomPath peerPath).Pairwise (· ≤ ·) := by
  obtain ⟨folder, hfolder⟩ := objectKey_eq roomPath peerPath
  intro hsorted
  rw [keys, List.pairwise_map, List.pairwise_iff_getElem] at hsorted
  have hlen : session.reqs.length = session.length := by simp [reqs]
  have hle := hsorted 2 10 (by omega) (by omega) (by decide)
  rw [hfolder, hfolder] at hle
  have hten : (toString (session.reqs[10]).index).toList = ['1', '0'] := by
    rw [getElem_reqs]
    decide
  have htwo : (toString (session.reqs[2]).index).toList = ['2'] := by
    rw [getElem_reqs]
    decide
  exact absurd hle (not_le_of_gt (key_lt hten htwo (by decide)))

/-- A reader that is connected to a store with the keys of the session takes the chunks in the
    order of their indexes, and gives the rows in the order in which they were recorded. -/
def Replayed (codes : Codes) (session : Session) : Prop :=
  ∀ (store : ObjectStore) (r r' : SessionReader) (listing : List String),
    r.currentChunk = none → store.listObjects r.path = .ok listing →
    listing.Perm (session.keys roomPath peerPath) → r.connect store = (r', .ok ()) →
    r'.files.reverse = session.keys roomPath peerPath ∧
    (List.Forall₂ (SessionReader.Stored codes store) (session.keys roomPath peerPath)
        session.chunks →
      ∀ calls, r'.run codes store calls = .ok (SessionReader.replay calls session.rows))

theorem Replayed.sorted {codes : Codes} {session : Session}
    (h : session.Replayed roomPath peerPath codes) :
    (session.keys roomPath peerPath).Pairwise (· ≤ ·) := by
  -- a store that lists the keys in the order of the indexes
  let store : ObjectStore := ⟨fun _ => .ok (session.keys roomPath peerPath), fun _ => none⟩
  obtain ⟨horder, -⟩ := h store (SessionReader.new 0 "") _ _ rfl rfl (List.Perm.refl _) rfl
  rw [List.reverse_reverse] at horder
  rw [← horder]
  exact List.pairwise_mergeSort' (· ≤ ·) _

/-- **The order of replay.** A session is replayed in the order in which it was recorded exactly
    when it has at most ten chunks. -/
theorem replayed_iff (codes : Codes) (session : Session) :
    session.Replayed roomPath peerPath codes ↔ session.length ≤ 10 := by
  constructor
  · intro h
    by_contra hmany
    exact keys_not_sorted roomPath peerPath (not_le.mp hmany) h.sorted
  · intro hfew store r r' listing hcurrent hlist hperm hconnect
    have hsorted : listing.mergeSort (fun a b => decide (a ≤ b)) =
        session.keys roomPath peerPath := by
      refine ((List.mergeSort_perm _ _).trans hperm).eq_of_pairwise' (r := (· ≤ ·)) ?_
        (keys_sorted roomPath peerPath hfew)
      exact List.pairwise_mergeSort' (· ≤ ·) _
    rw [SessionReader.connect, hlist] at hconnect
    cases hconnect
    rw [hsorted, List.reverse_reverse]
    refine ⟨rfl, ?_⟩
    intro hstored calls
    have hrest : SessionReader.Rest codes store
        { r with files := (session.keys roomPath peerPath).reverse } session.rows := by
      refine ⟨[], session.chunks, rfl, ?_, ?_⟩
      · rw [List.reverse_reverse]
        exact hstored
      · simp only [hcurrent]
    exact hrest.run calls

/-- A session of eleven chunks, one stopped track in each. -/
def eleven : Session :=
  (List.range 11).map fun i => (i, i, ⟨⟨"room", "peer", 1, UInt64.ofNat i, UInt64.ofNat i⟩,
    [⟨UInt64.ofNat i, .trackStopped (UInt16.ofNat i)⟩]⟩)

theorem eleven_not_replayed : ¬ eleven.Replayed "app/room/1" "peer/1" Layout.codes := by
  intro h
  exact keys_not_sorted "app/room/1" "peer/1" (by decide) h.sorted

end Session

end MediaServer.Record
