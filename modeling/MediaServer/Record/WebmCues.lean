import MediaServer.Record.Ebml

/-!
# Repairing the cues of a WebM file

The cues of a segment tell where its clusters are, for seeking.  A cue that points to a cluster
which does not start with a key frame is of no use, and the repair takes it out: the cues that
remain move together, the size of the cues is written again in as many bytes as before, and the
gap behind them becomes a void element.  The length of the file stays the same.

`repair_cues_for_seekable_clusters` reads the whole file and writes the repaired one back; here is
the function between the two.
-/

namespace MediaServer.Record

def ID_SEGMENT : Nat := 0x18538067
def ID_CLUSTER : Nat := 0x1f43b675
def ID_CUES : Nat := 0x1c53bb6b
def ID_CUE_POINT : Nat := 0xbb
def ID_CUE_TRACK_POSITIONS : Nat := 0xb7
def ID_CUE_CLUSTER_POSITION : Nat := 0xf1
def ID_SIMPLE_BLOCK : Nat := 0xa3

/-- `&data[a..b]`. -/
def slice (data : Bytes) (a b : Nat) : Except Panic Bytes :=
  if a ≤ b ∧ b ≤ data.length then .ok ((data.take b).drop a)
  else .error ⟨"range out of range for slice"⟩

/-- A subtraction that must not overflow. -/
def minus (a b : Nat) : Except Panic Nat :=
  if b ≤ a then .ok (a - b) else .error ⟨"attempt to subtract with overflow"⟩

/-- The question mark operator. -/
def orNone {α β : Type} (x : Except Panic (Option α)) (f : α → Except Panic (Option β)) :
    Except Panic (Option β) :=
  match x with
  | .error e => .error e
  | .ok none => .ok none
  | .ok (some a) => f a

def findElement (data : Bytes) (start stop id : Nat) : Except Panic (Option Element) :=
  scan data stop (fun el => if el.id = id then .ok (.stop (some el)) else .ok .go) none start

def simpleBlockIsKeyframe (block : Bytes) : Option Bool := do
  let (_, trackLen) ← readVint block 0
  let flags ← block[trackLen + 2]?
  some (flags &&& 0x80 ≠ 0)

def clusterStartsWithKeyframe (data : Bytes) (cluster : Element) : Except Panic (Option Bool) :=
  scan data cluster.dataEnd
    (fun el =>
      if el.id = ID_SIMPLE_BLOCK then do
        let block ← slice data el.dataStart el.dataEnd
        pure (.stop (simpleBlockIsKeyframe block))
      else pure .go)
    (some false) cluster.dataStart

/-- The clusters are a set in the source. -/
def seekableClusterPositions (data : Bytes) (segment : Element) :
    Except Panic (Option (List Nat)) :=
  collect data segment.dataEnd
    (fun el =>
      if el.id = ID_CLUSTER then do
        match ← clusterStartsWithKeyframe data el with
        | none => pure none
        | some true => do
          let position ← minus el.start segment.dataStart
          pure (some (some position))
        | some false => pure (some none)
      else pure (some none))
    segment.dataStart

def cueClusterPosition (data : Bytes) (positions : Element) : Except Panic (Option Nat) :=
  scan data positions.dataEnd
    (fun el =>
      if el.id = ID_CUE_CLUSTER_POSITION then do
        let value ← slice data el.dataStart el.dataEnd
        pure (.stop (some (readUint value)))
      else pure .go)
    none positions.dataStart

def cuePointTargetsSeekableCluster (data : Bytes) (point : Element) (seekable : List Nat) :
    Except Panic (Option Bool) :=
  scan data point.dataEnd
    (fun el =>
      if el.id = ID_CUE_TRACK_POSITIONS then do
        match ← cueClusterPosition data el with
        | some position => pure (.stop (some (decide (position ∈ seekable))))
        | none => pure .go
      else pure .go)
    (some false) point.dataStart

def collectRepairedCuePoints (data : Bytes) (cues : Element) (seekable : List Nat) :
    Except Panic (Option (List Bytes)) :=
  collect data cues.dataEnd
    (fun point =>
      if point.id = ID_CUE_POINT then do
        match ← cuePointTargetsSeekableCluster data point seekable with
        | none => pure none
        | some true => do
          let bytes ← slice data point.start point.dataEnd
          pure (some (some bytes))
        | some false => pure (some none)
      else pure (some none))
    cues.dataStart

/-- `out[start..stop].copy_from_slice(src)`. -/
def copyInto (data : Bytes) (start stop : Nat) (src : Bytes) : Except Panic Bytes := do
  let target ← slice data start stop
  if target.length = src.length then .ok (data.take start ++ src ++ data.drop stop)
  else .error ⟨"source slice length does not match destination slice length"⟩

/-- The end of `repair_cues_bytes`: the cues are written again. -/
def rewriteCues (data : Bytes) (cues : Element) (cuePoints : List Bytes) :
    Except Panic (Option Bytes) := do
  let repairedPayloadLen := (cuePoints.map List.length).sum
  let originalPayloadLen ← minus cues.dataEnd cues.dataStart
  if repairedPayloadLen = originalPayloadLen then pure none
  else do
    let headerEnd ← minus cues.dataStart cues.sizeLen
    let header ← slice data cues.start headerEnd
    let totalLen ← minus cues.dataEnd cues.start
    match writeVintSize repairedPayloadLen cues.sizeLen with
    | none => pure none
    | some size =>
      let repaired := header ++ size ++ cuePoints.flatten
      if totalLen < repaired.length then pure none
      else
        match voidElement (totalLen - repaired.length) with
        | none => pure none
        | some void =>
          if (repaired ++ void).length ≠ totalLen then pure none
          else do
            let out ← copyInto data cues.start cues.dataEnd (repaired ++ void)
            pure (some out)

def repairCuesBytes (data : Bytes) : Except Panic (Option Bytes) :=
  orNone (findElement data 0 data.length ID_SEGMENT) fun segment =>
  orNone (findElement data segment.dataStart segment.dataEnd ID_CUES) fun cues =>
  orNone (seekableClusterPositions data segment) fun seekable =>
  orNone (collectRepairedCuePoints data cues seekable) fun cuePoints =>
  rewriteCues data cues cuePoints

/-! ### Nothing panics -/

theorem slice_ok {data : Bytes} {a b : Nat} (hab : a ≤ b) (hb : b ≤ data.length) :
    slice data a b = .ok ((data.take b).drop a) := if_pos ⟨hab, hb⟩

theorem minus_ok {a b : Nat} (h : b ≤ a) : minus a b = .ok (a - b) := if_pos h

/-- The bytes of an element's data. -/
def bodyOf (data : Bytes) (el : Element) : Bytes := (data.take el.dataEnd).drop el.dataStart

/-- The bytes of an element. -/
def bytesOf (data : Bytes) (el : Element) : Bytes := (data.take el.dataEnd).drop el.start

theorem slice_body {data : Bytes} {el : Element} (h : el.Bounds data) :
    slice data el.dataStart el.dataEnd = .ok (bodyOf data el) := slice_ok h.size h.inside

theorem slice_bytes {data : Bytes} {el : Element} (h : el.Bounds data) :
    slice data el.start el.dataEnd = .ok (bytesOf data el) := by
  have h1 := h.header
  have h2 := h.size
  exact slice_ok (by omega) h.inside

theorem findElement_ok (data : Bytes) (start stop id : Nat) :
    ∃ result, findElement data start stop id = .ok result := by
  refine scan_ok ?_
  intro el _
  by_cases hid : el.id = id
  · exact ⟨_, if_pos hid⟩
  · exact ⟨_, if_neg hid⟩

theorem clusterStartsWithKeyframe_ok (data : Bytes) (cluster : Element) :
    ∃ result, clusterStartsWithKeyframe data cluster = .ok result := by
  refine scan_ok ?_
  intro el hread
  split
  case isTrue =>
    rw [slice_body (readElement_bounds hread).2]
    exact ⟨_, rfl⟩
  case isFalse => exact ⟨_, rfl⟩

theorem seekableClusterPositions_ok (data : Bytes) (segment : Element) :
    ∃ result, seekableClusterPositions data segment = .ok result := by
  refine collect_ok ?_
  intro el _ hle
  split
  case isTrue =>
    obtain ⟨starts, hstarts⟩ := clusterStartsWithKeyframe_ok data el
    rw [hstarts]
    match starts with
    | none => exact ⟨_, rfl⟩
    | some true => exact ⟨some (some (el.start - segment.dataStart)), by rw [minus_ok hle]; rfl⟩
    | some false => exact ⟨_, rfl⟩
  case isFalse => exact ⟨_, rfl⟩

theorem cueClusterPosition_ok (data : Bytes) (positions : Element) :
    ∃ result, cueClusterPosition data positions = .ok result := by
  refine scan_ok ?_
  intro el hread
  split
  case isTrue =>
    rw [slice_body (readElement_bounds hread).2]
    exact ⟨_, rfl⟩
  case isFalse => exact ⟨_, rfl⟩

theorem cuePointTargetsSeekableCluster_ok (data : Bytes) (point : Element) (seekable : List Nat) :
    ∃ result, cuePointTargetsSeekableCluster data point seekable = .ok result := by
  refine scan_ok ?_
  intro el _
  split
  case isTrue =>
    obtain ⟨position, hposition⟩ := cueClusterPosition_ok data el
    rw [hposition]
    match position with
    | some position => exact ⟨_, rfl⟩
    | none => exact ⟨_, rfl⟩
  case isFalse => exact ⟨_, rfl⟩

theorem collectRepairedCuePoints_ok (data : Bytes) (cues : Element) (seekable : List Nat) :
    ∃ result, collectRepairedCuePoints data cues seekable = .ok result := by
  refine collect_ok ?_
  intro el hread _
  split
  case isTrue =>
    obtain ⟨targets, htargets⟩ := cuePointTargetsSeekableCluster_ok data el seekable
    rw [htargets]
    match targets with
    | none => exact ⟨_, rfl⟩
    | some true =>
      exact ⟨some (some (bytesOf data el)), by
        rw [slice_bytes (readElement_bounds hread).2]; rfl⟩
    | some false => exact ⟨_, rfl⟩
  case isFalse => exact ⟨_, rfl⟩

/-- An element that was found has the id, and can be read. -/
theorem findElement_some {data : Bytes} {start stop id : Nat} {el : Element}
    (h : findElement data start stop id = .ok (some el)) :
    el.id = id ∧ readElement data el.start = some el := by
  rw [findElement] at h
  fun_induction scan data stop
      (fun el => if el.id = id then .ok (.stop (some el)) else .ok .go) none start with
  | case1 pos hpos hread => cases h
  | case2 pos hpos el' hread e herror => cases h
  | case3 pos hpos el' hread result hresult =>
    cases h
    split at hresult
    case isTrue hid =>
      cases hresult
      obtain ⟨hstart, -⟩ := readElement_bounds hread
      exact ⟨hid, by rw [hstart, hread]⟩
    case isFalse => cases hresult
  | case4 pos hpos el' hread hgo ih => exact ih h
  | case5 pos hpos => cases h

theorem length_slice {data : Bytes} {a b : Nat} (hab : a ≤ b) (hb : b ≤ data.length) :
    ((data.take b).drop a).length = b - a := by
  rw [List.length_drop, List.length_take, Nat.min_eq_left hb]

/-- What the rewriting does to cues that were read. -/
theorem rewriteCues_ok {data : Bytes} {cues : Element} (h : cues.Bounds data)
    (cuePoints : List Bytes) :
    ∃ result, rewriteCues data cues cuePoints = .ok result ∧ ∀ out, result = some out →
      ∃ repaired, repaired.length = cues.dataEnd - cues.start ∧
        out = data.take cues.start ++ repaired ++ data.drop cues.dataEnd := by
  have h1 := h.header
  have h2 := h.size
  have h3 := h.inside
  rw [rewriteCues, minus_ok h2]
  simp only [bind, Except.bind, pure, Except.pure]
  split
  case isTrue => exact ⟨none, rfl, fun out hout => by cases hout⟩
  case isFalse =>
    rw [minus_ok (show cues.sizeLen ≤ cues.dataStart by omega)]
    simp only []
    rw [slice_ok (show cues.start ≤ cues.dataStart - cues.sizeLen by omega) (by omega)]
    simp only []
    rw [minus_ok (show cues.start ≤ cues.dataEnd by omega)]
    simp only []
    split
    case h_1 => exact ⟨none, rfl, fun out hout => by cases hout⟩
    case h_2 size hsize =>
      split
      case isTrue => exact ⟨none, rfl, fun out hout => by cases hout⟩
      case isFalse =>
        split
        case h_1 => exact ⟨none, rfl, fun out hout => by cases hout⟩
        case h_2 void hvoid =>
          split
          case isTrue => exact ⟨none, rfl, fun out hout => by cases hout⟩
          case isFalse hlen =>
            have hlen' := not_not.mp hlen
            rw [copyInto, slice_ok (show cues.start ≤ cues.dataEnd by omega) h3]
            simp only [bind, Except.bind]
            rw [length_slice (by omega) h3, if_pos hlen'.symm]
            refine ⟨_, rfl, ?_⟩
            intro out hout
            cases hout
            exact ⟨_, hlen', rfl⟩

/-! ### Files that are well nested -/

/-- What contains elements that the repair looks into. -/
inductive Master where
  | file
  | segment
  | cluster
  | cues
  | cuePoint
  | cueTrackPositions
deriving DecidableEq

/-- The elements of a master element that are master elements themselves. -/
def Master.child : Master → Nat → Option Master
  | .file, id => if id = ID_SEGMENT then some .segment else none
  | .segment, id =>
    if id = ID_CLUSTER then some .cluster else if id = ID_CUES then some .cues else none
  | .cues, id => if id = ID_CUE_POINT then some .cuePoint else none
  | .cuePoint, id => if id = ID_CUE_TRACK_POSITIONS then some .cueTrackPositions else none
  | .cluster, _ => none
  | .cueTrackPositions, _ => none

/-- A block of a cluster holds its track number, its time code and its flags. -/
def Master.Whole (data : Bytes) (kind : Master) (el : Element) : Prop :=
  kind = .cluster → el.id = ID_SIMPLE_BLOCK →
    ∃ track len, readVint (bodyOf data el) 0 = some (track, len) ∧ len + 3 ≤ (bodyOf data el).length

/-- The elements of a master element can be read and fill it, and so on for those that are master
    elements. -/
inductive Nested (data : Bytes) : Master → Nat → Nat → Prop
  | mk {kind : Master} {a b : Nat} {els : List Element} :
      Chain data a b els →
      (∀ el ∈ els, ∀ kind', kind.child el.id = some kind' →
        Nested data kind' el.dataStart el.dataEnd) →
      (∀ el ∈ els, kind.Whole data el) → Nested data kind a b

def WellNested (data : Bytes) : Prop := Nested data .file 0 data.length

/-- The elements in an element. -/
def kids (data : Bytes) (el : Element) : List Element := children data el.dataEnd el.dataStart

def startsWithKeyframe (data : Bytes) (cluster : Element) : Bool :=
  ((kids data cluster).find? (·.id = ID_SIMPLE_BLOCK)).any fun block =>
    simpleBlockIsKeyframe (bodyOf data block) = some true

/-- The positions of the clusters that start with a key frame. -/
def seekablePositions (data : Bytes) (segment : Element) : List Nat :=
  ((kids data segment).filter fun el => el.id = ID_CLUSTER && startsWithKeyframe data el).map
    fun el => el.start - segment.dataStart

def clusterPosition (data : Bytes) (positions : Element) : Option Nat :=
  ((kids data positions).find? (·.id = ID_CUE_CLUSTER_POSITION)).map fun el =>
    readUint (bodyOf data el)

/-- The first cluster position in the track positions of a cue point. -/
def cuePosition (data : Bytes) (point : Element) : Option Nat :=
  ((kids data point).filter (·.id = ID_CUE_TRACK_POSITIONS)).findSome? (clusterPosition data)

/-- A cue point that points to a cluster that starts with a key frame. -/
def isUseful (data : Bytes) (segment : Element) (el : Element) : Bool :=
  el.id = ID_CUE_POINT && (cuePosition data el).any (· ∈ seekablePositions data segment)

/-! ### The loops over well nested elements -/

section

variable {data : Bytes} {kind : Master}

theorem Nested.chain {el : Element} (h : Nested data kind el.dataStart el.dataEnd) :
    Chain data el.dataStart el.dataEnd (kids data el) := by
  cases h with
  | mk hchain _ _ =>
    rw [kids, children_of_chain hchain]
    exact hchain

theorem Nested.child {el child : Element} {kind' : Master}
    (h : Nested data kind el.dataStart el.dataEnd) (hmem : child ∈ kids data el)
    (hkind : kind.child child.id = some kind') : Nested data kind' child.dataStart child.dataEnd := by
  cases h with
  | mk hchain hkids _ =>
    rw [kids, children_of_chain hchain] at hmem
    exact hkids child hmem kind' hkind

theorem Nested.whole {el child : Element} (h : Nested data kind el.dataStart el.dataEnd)
    (hmem : child ∈ kids data el) : kind.Whole data child := by
  cases h with
  | mk hchain _ hwhole =>
    rw [kids, children_of_chain hchain] at hmem
    exact hwhole child hmem

theorem filterMap_ite {α β : Type} (p : α → Bool) (f : α → β) (l : List α) :
    l.filterMap (fun x => if p x then some (f x) else none) = (l.filter p).map f := by
  induction l with
  | nil => rfl
  | cons x l ih => cases hp : p x <;> simp [hp, ih]

theorem findSome?_ite {α β : Type} (p : α → Bool) (f : α → Option β) (l : List α) :
    l.findSome? (fun x => if p x then f x else none) = (l.filter p).findSome? f := by
  induction l with
  | nil => rfl
  | cons x l ih => cases hp : p x <;> simp [hp, ih, List.findSome?_cons]

theorem findSome?_congr {α β : Type} {f g : α → Option β} {l : List α} (h : ∀ x ∈ l, f x = g x) :
    l.findSome? f = l.findSome? g := by
  induction l with
  | nil => rfl
  | cons x l ih =>
    rw [List.findSome?_cons, List.findSome?_cons, h x (List.mem_cons_self ..),
      ih fun y hy => h y (List.mem_cons_of_mem _ hy)]

/-- The element that is found is the first one with the id. -/
theorem findElement_of_chain {a b : Nat} {els : List Element} (h : Chain data a b els) (id : Nat) :
    findElement data a b id = .ok (els.find? (·.id = id)) := by
  rw [findElement, scan_first h id some]
  · cases els.find? (·.id = id) <;> rfl
  · intro el _
    split <;> rfl

theorem keyframe_of_whole {block : Element} (h : Master.Whole data .cluster block)
    (hid : block.id = ID_SIMPLE_BLOCK) : ∃ key, simpleBlockIsKeyframe (bodyOf data block) = some key := by
  obtain ⟨track, len, hread, hlen⟩ := h rfl hid
  have hflags : len + 2 < (bodyOf data block).length := by omega
  refine ⟨(bodyOf data block)[len + 2] &&& 0x80 ≠ 0, ?_⟩
  simp [simpleBlockIsKeyframe, hread, List.getElem?_eq_getElem hflags]

theorem clusterStartsWithKeyframe_eq {cluster : Element}
    (h : Nested data .cluster cluster.dataStart cluster.dataEnd) :
    clusterStartsWithKeyframe data cluster = .ok (some (startsWithKeyframe data cluster)) := by
  rw [clusterStartsWithKeyframe, scan_first h.chain ID_SIMPLE_BLOCK
    (fun el => simpleBlockIsKeyframe (bodyOf data el)), startsWithKeyframe]
  · cases hfind : (kids data cluster).find? (·.id = ID_SIMPLE_BLOCK) with
    | none => rfl
    | some block =>
      have hmem := List.mem_of_find?_eq_some hfind
      have hid : block.id = ID_SIMPLE_BLOCK := by simpa using List.find?_some hfind
      obtain ⟨key, hkey⟩ := keyframe_of_whole (h.whole hmem) hid
      cases key <;> simp [hkey]
  · intro el hmem
    have hbounds := (readElement_bounds (h.chain.mem hmem).1).2
    split
    case isTrue =>
      rw [slice_body hbounds]
      rfl
    case isFalse => rfl

theorem seekableClusterPositions_eq {segment : Element}
    (h : Nested data .segment segment.dataStart segment.dataEnd) :
    seekableClusterPositions data segment = .ok (some (seekablePositions data segment)) := by
  rw [seekableClusterPositions, collect_of_chain h.chain (fun el =>
    if el.id = ID_CLUSTER && startsWithKeyframe data el then some (el.start - segment.dataStart)
    else none), seekablePositions]
  · congr 2
    exact filterMap_ite _ _ _
  · intro el hmem
    obtain ⟨hread, hle, -⟩ := h.chain.mem hmem
    by_cases hid : el.id = ID_CLUSTER
    · have hnested : Nested data .cluster el.dataStart el.dataEnd :=
        h.child hmem (by simp [Master.child, hid])
      rw [if_pos hid, clusterStartsWithKeyframe_eq hnested]
      cases hkey : startsWithKeyframe data el
      · simp [hid, bind, Except.bind, pure, Except.pure]
      · simp [hid, bind, Except.bind, pure, Except.pure, minus_ok hle]
    · simp [hid, pure, Except.pure]

theorem cueClusterPosition_eq {positions : Element}
    (h : Nested data .cueTrackPositions positions.dataStart positions.dataEnd) :
    cueClusterPosition data positions = .ok (clusterPosition data positions) := by
  rw [cueClusterPosition, scan_first h.chain ID_CUE_CLUSTER_POSITION
    (fun el => some (readUint (bodyOf data el))), clusterPosition]
  · cases (kids data positions).find? (·.id = ID_CUE_CLUSTER_POSITION) <;> rfl
  · intro el hmem
    have hbounds := (readElement_bounds (h.chain.mem hmem).1).2
    split
    case isTrue =>
      rw [slice_body hbounds]
      rfl
    case isFalse => rfl

theorem cuePointTargetsSeekableCluster_eq {point : Element} (seekable : List Nat)
    (h : Nested data .cuePoint point.dataStart point.dataEnd) :
    cuePointTargetsSeekableCluster data point seekable =
      .ok (some ((cuePosition data point).any (· ∈ seekable))) := by
  rw [cuePointTargetsSeekableCluster, scan_of_chain h.chain (fun el =>
    if decide (el.id = ID_CUE_TRACK_POSITIONS) then
      (clusterPosition data el).map fun position => decide (position ∈ seekable)
    else none), cuePosition]
  · rw [findSome?_ite (fun el : Element => decide (el.id = ID_CUE_TRACK_POSITIONS))]
    have hmap := List.map_findSome? (l := (kids data point).filter (·.id = ID_CUE_TRACK_POSITIONS))
      (f := clusterPosition data) (g := fun position => decide (position ∈ seekable))
    refine congrArg (fun found => Except.ok (Option.or found (some false))) hmap.symm |>.trans ?_
    cases ((kids data point).filter (·.id = ID_CUE_TRACK_POSITIONS)).findSome?
      (clusterPosition data) <;> rfl
  · intro el hmem
    by_cases hid : el.id = ID_CUE_TRACK_POSITIONS
    · have hnested : Nested data .cueTrackPositions el.dataStart el.dataEnd :=
        h.child hmem (by simp [Master.child, hid])
      rw [if_pos hid, if_pos (decide_eq_true hid), cueClusterPosition_eq hnested]
      cases clusterPosition data el <;> rfl
    · rw [if_neg hid, if_neg (by simpa using hid)]
      rfl

theorem collectRepairedCuePoints_eq {segment cues : Element}
    (h : Nested data .cues cues.dataStart cues.dataEnd) :
    collectRepairedCuePoints data cues (seekablePositions data segment) =
      .ok (some (((kids data cues).filter (isUseful data segment)).map (bytesOf data))) := by
  rw [collectRepairedCuePoints, collect_of_chain h.chain (fun el =>
    if isUseful data segment el then some (bytesOf data el) else none)]
  · congr 2
    exact filterMap_ite _ _ _
  · intro el hmem
    have hbounds := (readElement_bounds (h.chain.mem hmem).1).2
    by_cases hid : el.id = ID_CUE_POINT
    · have hnested : Nested data .cuePoint el.dataStart el.dataEnd :=
        h.child hmem (by simp [Master.child, hid])
      rw [if_pos hid, cuePointTargetsSeekableCluster_eq _ hnested]
      have huseful : isUseful data segment el =
          (cuePosition data el).any (· ∈ seekablePositions data segment) := by simp [isUseful, hid]
      rw [huseful]
      cases (cuePosition data el).any (· ∈ seekablePositions data segment)
      · rfl
      · simp [bind, Except.bind, pure, Except.pure, slice_bytes hbounds]
    · simp [isUseful, hid, pure, Except.pure]

/-! ### Elements that are moved -/

theorem getElem?_slice (data : Bytes) (a b i : Nat) :
    ((data.take b).drop a)[i]? = if a + i < b then data[a + i]? else none := by
  rw [List.getElem?_drop, List.getElem?_take]

theorem slice_agree {data' : Bytes} {a a' b n : Nat} (h : Agree data a data' a' n) (hb : b = a + n) :
    (data'.take (a' + n)).drop a' = (data.take b).drop a := by
  subst hb
  refine List.ext_getElem? ?_
  intro i
  rw [getElem?_slice, getElem?_slice]
  by_cases hi : i < n
  · rw [if_pos (by omega), if_pos (by omega), h.bytes i hi]
  · rw [if_neg (by omega), if_neg (by omega)]

section

variable {data' : Bytes} {lo lo' n : Nat} (hagree : Agree data lo data' lo' n)

include hagree

theorem bodyOf_move {el : Element} (hlo : lo ≤ el.dataStart) (hsize : el.dataStart ≤ el.dataEnd)
    (hhi : el.dataEnd ≤ lo + n) : bodyOf data' (el.move lo lo') = bodyOf data el := by
  have hsub := hagree.sub el.dataStart (el.dataEnd - el.dataStart) hlo (by omega)
  have hslice := slice_agree hsub (b := el.dataEnd) (by omega)
  rwa [show lo' + (el.dataStart - lo) + (el.dataEnd - el.dataStart) = lo' + (el.dataEnd - lo) by
    omega] at hslice

theorem kids_move {el : Element} (h : Nested data kind el.dataStart el.dataEnd)
    (hlo : lo ≤ el.dataStart) (hhi : el.dataEnd ≤ lo + n) :
    kids data' (el.move lo lo') = (kids data el).map (Element.move lo lo') :=
  children_of_chain (h.chain.move hagree hlo hhi)

theorem clusterPosition_move {el : Element}
    (h : Nested data .cueTrackPositions el.dataStart el.dataEnd) (hlo : lo ≤ el.dataStart)
    (hhi : el.dataEnd ≤ lo + n) :
    clusterPosition data' (el.move lo lo') = clusterPosition data el := by
  rw [clusterPosition, kids_move hagree h hlo hhi, List.find?_map, Option.map_map, clusterPosition]
  change ((kids data el).find? (·.id = ID_CUE_CLUSTER_POSITION)).map _ = _
  cases hfind : (kids data el).find? (·.id = ID_CUE_CLUSTER_POSITION) with
  | none => rfl
  | some child =>
    obtain ⟨hread, hle, hend⟩ := h.chain.mem (List.mem_of_find?_eq_some hfind)
    have hbounds := (readElement_bounds hread).2
    have h1 := hbounds.header
    simp only [Option.map_some, Function.comp_apply]
    rw [bodyOf_move hagree (by omega) hbounds.size (by omega)]

theorem cuePosition_move {el : Element} (h : Nested data .cuePoint el.dataStart el.dataEnd)
    (hlo : lo ≤ el.dataStart) (hhi : el.dataEnd ≤ lo + n) :
    cuePosition data' (el.move lo lo') = cuePosition data el := by
  rw [cuePosition, kids_move hagree h hlo hhi, List.filter_map, List.findSome?_map, cuePosition]
  change ((kids data el).filter (·.id = ID_CUE_TRACK_POSITIONS)).findSome? _ = _
  refine findSome?_congr ?_
  intro child hmem
  obtain ⟨hkid, hid⟩ := List.mem_filter.mp hmem
  obtain ⟨hread, hle, hend⟩ := h.chain.mem hkid
  have hbounds := (readElement_bounds hread).2
  have h1 := hbounds.header
  have hnested : Nested data .cueTrackPositions child.dataStart child.dataEnd :=
    h.child hkid (by simpa [Master.child] using hid)
  exact clusterPosition_move hagree hnested (by omega) (by omega)

theorem startsWithKeyframe_move {el : Element} (h : Nested data .cluster el.dataStart el.dataEnd)
    (hlo : lo ≤ el.dataStart) (hhi : el.dataEnd ≤ lo + n) :
    startsWithKeyframe data' (el.move lo lo') = startsWithKeyframe data el := by
  rw [startsWithKeyframe, kids_move hagree h hlo hhi, List.find?_map, startsWithKeyframe]
  change (((kids data el).find? (·.id = ID_SIMPLE_BLOCK)).map _).any _ = _
  cases hfind : (kids data el).find? (·.id = ID_SIMPLE_BLOCK) with
  | none => rfl
  | some child =>
    obtain ⟨hread, hle, hend⟩ := h.chain.mem (List.mem_of_find?_eq_some hfind)
    have hbounds := (readElement_bounds hread).2
    have h1 := hbounds.header
    simp only [Option.map_some, Option.any_some]
    rw [bodyOf_move hagree (by omega) hbounds.size (by omega)]

/-- What is well nested is so wherever its bytes stand. -/
theorem Nested.move {a b : Nat} (h : Nested data kind a b) (hlo : lo ≤ a) (hhi : b ≤ lo + n) :
    Nested data' kind (lo' + (a - lo)) (lo' + (b - lo)) := by
  induction h with
  | @mk kind a b els hchain hkids hwhole ih =>
    have hinside : ∀ el ∈ els, lo ≤ el.dataStart ∧ el.dataStart ≤ el.dataEnd ∧
        el.dataEnd ≤ lo + n := by
      intro el hmem
      obtain ⟨hread, hle, hend⟩ := hchain.mem hmem
      have hbounds := (readElement_bounds hread).2
      have h1 := hbounds.header
      exact ⟨by omega, hbounds.size, by omega⟩
    refine .mk (hchain.move hagree hlo hhi) ?_ ?_
    · intro el' hmem kind' hkind
      obtain ⟨el, hel, rfl⟩ := List.mem_map.mp hmem
      obtain ⟨h1, -, h3⟩ := hinside el hel
      exact ih el hel kind' hkind h1 h3
    · intro el' hmem hcluster hid
      obtain ⟨el, hel, rfl⟩ := List.mem_map.mp hmem
      obtain ⟨h1, h2, h3⟩ := hinside el hel
      rw [bodyOf_move hagree h1 h2 h3]
      exact hwhole el hel hcluster hid

end

end

end MediaServer.Record
