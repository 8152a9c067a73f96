import MediaServer.Record.WebmCues

/-!
# What the repair of the cues leaves

On a well nested file the repair keeps exactly the cue points that are of use.  The new file is
laid out as the old one up to the size of the cues and from their end on; between the two stand
the size, the cue points that were kept, and the void element (`Rewritten`).  From this the new
file is well nested, has the same clusters to seek to, and needs no further repair.
-/

namespace MediaServer.Record

/-! ### The new file, part by part -/

theorem agree_append (before part after : Bytes) :
    Agree part 0 (before ++ part ++ after) before.length part.length := by
  refine ⟨?_, by simp⟩
  intro i hi
  rw [Nat.zero_add, List.append_assoc, List.getElem?_append_right (by omega),
    Nat.add_sub_cancel_left, List.getElem?_append_left hi]

/-- The file with the cues written again. -/
structure Rewritten (data : Bytes) (cues : Element) (payload : Bytes) (out : Bytes) : Prop where
  length : out.length = data.length
  front : Agree data 0 out 0 (cues.dataStart - cues.sizeLen)
  size : readVint out (cues.dataStart - cues.sizeLen) = some (payload.length, cues.sizeLen)
  points : Agree payload 0 out cues.dataStart payload.length
  void : ∃ void, readElement out (cues.dataStart + payload.length) = some void ∧
    void.id = ID_VOID ∧ void.dataEnd = cues.dataEnd
  back : Agree data cues.dataEnd out cues.dataEnd (data.length - cues.dataEnd)

theorem rewriteCues_same {data : Bytes} {cues : Element} (h : cues.Bounds data)
    {cuePoints : List Bytes} (hlen : (cuePoints.map List.length).sum = cues.dataEnd - cues.dataStart) :
    rewriteCues data cues cuePoints = .ok none := by
  rw [rewriteCues, minus_ok h.size]
  simp only [bind, Except.bind, pure, Except.pure]
  rw [if_pos hlen]

/-- A gap of two bytes or more can always be filled. -/
theorem rewriteCues_some {data : Bytes} {cues : Element} (h : cues.Bounds data)
    {cuePoints : List Bytes}
    (hlen : cuePoints.flatten.length + 2 ≤ cues.dataEnd - cues.dataStart) :
    ∃ out, rewriteCues data cues cuePoints = .ok (some out) ∧
      Rewritten data cues cuePoints.flatten out := by
  have h1 := h.header
  have h2 := h.size
  have h3 := h.inside
  have hsum : (cuePoints.map List.length).sum = cuePoints.flatten.length := List.length_flatten.symm
  have hfits := h.fits
  obtain ⟨size, hsize⟩ := writeVintSize_eq_some cuePoints.flatten.length h.sizeLen.1 h.sizeLen.2
    (by omega)
  obtain ⟨hsizeLen, hreadSize⟩ := writeVintSize_spec hsize
  have hpow : (2 : Nat) ^ (7 * cues.sizeLen) ≤ 2 ^ 56 :=
    Nat.pow_le_pow_right (by decide) (by have h8 := h.sizeLen.2; omega)
  have hgap : 2 ≤ cues.dataEnd - cues.dataStart - cuePoints.flatten.length := by omega
  obtain ⟨void, hvoid, hvoidLen, hreadVoid⟩ := voidElement_spec hgap (by omega)
  have hheader : ((data.take (cues.dataStart - cues.sizeLen)).drop cues.start).length =
      cues.dataStart - cues.sizeLen - cues.start := length_slice (by omega) (by omega)
  have hrepaired : ((data.take (cues.dataStart - cues.sizeLen)).drop cues.start ++ size ++
      cuePoints.flatten).length = cues.dataStart - cues.start + cuePoints.flatten.length := by
    rw [List.length_append, List.length_append, hheader, hsizeLen]
    omega
  have hpadding : cues.dataEnd - cues.start -
      (cues.dataStart - cues.start + cuePoints.flatten.length) =
      cues.dataEnd - cues.dataStart - cuePoints.flatten.length := by omega
  have htotal : ((data.take (cues.dataStart - cues.sizeLen)).drop cues.start ++ size ++
      cuePoints.flatten ++ void).length = cues.dataEnd - cues.start := by
    rw [List.length_append, hrepaired, hvoidLen]
    omega
  have hout : rewriteCues data cues cuePoints = .ok (some (data.take cues.start ++
      ((data.take (cues.dataStart - cues.sizeLen)).drop cues.start ++ size ++
        cuePoints.flatten ++ void) ++ data.drop cues.dataEnd)) := by
    rw [rewriteCues, minus_ok h2]
    simp only [bind, Except.bind, pure, Except.pure]
    rw [if_neg (by omega), minus_ok (show cues.sizeLen ≤ cues.dataStart by omega)]
    simp only []
    rw [slice_ok (show cues.start ≤ cues.dataStart - cues.sizeLen by omega) (by omega)]
    simp only []
    rw [minus_ok (show cues.start ≤ cues.dataEnd by omega)]
    simp only [hsum, hsize]
    rw [if_neg (by omega), hrepaired, hpadding, hvoid]
    simp only []
    rw [if_neg (not_not.mpr htotal), copyInto,
      slice_ok (show cues.start ≤ cues.dataEnd by omega) h3]
    simp only [bind, Except.bind]
    rw [length_slice (by omega) h3, if_pos htotal.symm]
  refine ⟨_, hout, ?_⟩
  -- the same file, split at the size of the cues
  have hfront : data.take cues.start ++ (data.take (cues.dataStart - cues.sizeLen)).drop cues.start =
      data.take (cues.dataStart - cues.sizeLen) := by
    have hsplit := List.take_append_drop cues.start (data.take (cues.dataStart - cues.sizeLen))
    rwa [List.take_take, Nat.min_eq_left (by omega)] at hsplit
  have hparts : data.take cues.start ++
      ((data.take (cues.dataStart - cues.sizeLen)).drop cues.start ++ size ++
        cuePoints.flatten ++ void) ++ data.drop cues.dataEnd =
      data.take (cues.dataStart - cues.sizeLen) ++ size ++ cuePoints.flatten ++ void ++
        data.drop cues.dataEnd := by
    conv_rhs => rw [← hfront]
    simp only [List.append_assoc]
  rw [hparts]
  have htake : (data.take (cues.dataStart - cues.sizeLen)).length = cues.dataStart - cues.sizeLen := by
    rw [List.length_take, Nat.min_eq_left (by omega)]
  have hlength : (data.take (cues.dataStart - cues.sizeLen) ++ size ++ cuePoints.flatten ++ void ++
      data.drop cues.dataEnd).length = data.length := by
    simp only [List.length_append, htake, hsizeLen, hvoidLen, List.length_drop]
    omega
  generalize hnew : data.take (cues.dataStart - cues.sizeLen) ++ size ++ cuePoints.flatten ++ void ++
      data.drop cues.dataEnd = out at hlength
  refine ⟨hlength, ?_, ?_, ?_, ?_, ?_⟩
  · refine ⟨?_, by omega⟩
    intro i hi
    rw [Nat.zero_add, ← hnew, List.append_assoc, List.append_assoc, List.append_assoc,
      List.getElem?_append_left (by omega), List.getElem?_take, if_pos hi]
  · refine hreadSize out _ ?_
    have hagree := agree_append (data.take (cues.dataStart - cues.sizeLen)) size
      (cuePoints.flatten ++ void ++ data.drop cues.dataEnd)
    rw [htake, hsizeLen] at hagree
    rw [← hnew]
    simpa only [List.append_assoc] using hagree
  · have hagree := agree_append (data.take (cues.dataStart - cues.sizeLen) ++ size)
      cuePoints.flatten (void ++ data.drop cues.dataEnd)
    rw [List.length_append, htake, hsizeLen, Nat.sub_add_cancel (by omega)] at hagree
    rw [← hnew]
    simpa only [List.append_assoc] using hagree
  · have hagree := agree_append (data.take (cues.dataStart - cues.sizeLen) ++ size ++
      cuePoints.flatten) void (data.drop cues.dataEnd)
    rw [List.length_append, List.length_append, htake, hsizeLen, Nat.sub_add_cancel (by omega),
      hvoidLen, hnew] at hagree
    obtain ⟨el, hel, hid, hend⟩ := hreadVoid out _ hagree
    exact ⟨el, hel, hid, by omega⟩
  · refine ⟨?_, by omega⟩
    intro i hi
    have hbefore : (data.take (cues.dataStart - cues.sizeLen) ++ size ++ cuePoints.flatten ++
        void).length = cues.dataEnd := by
      simp only [List.length_append, htake, hsizeLen, hvoidLen]
      omega
    rw [← hnew, List.getElem?_append_right (by omega), hbefore, Nat.add_sub_cancel_left,
      List.getElem?_drop]

/-! ### Elements that stay where they are -/

theorem move_self {el : Element} {lo : Nat} (h1 : lo ≤ el.start) (h2 : lo ≤ el.dataStart)
    (h3 : lo ≤ el.dataEnd) : el.move lo lo = el := by
  simp only [Element.move, Nat.add_sub_cancel' h1, Nat.add_sub_cancel' h2, Nat.add_sub_cancel' h3]

section

variable {data out : Bytes} {lo n : Nat} (hagree : Agree data lo out lo n)

include hagree

theorem Chain.same {a b : Nat} {els : List Element} (h : Chain data a b els) (hlo : lo ≤ a)
    (hhi : b ≤ lo + n) : Chain out a b els := by
  have hmoved := h.move hagree hlo hhi
  have hle := h.le
  have hmap : els.map (Element.move lo lo) = els := by
    refine (List.map_congr_left ?_).trans (List.map_id els)
    intro el hmem
    obtain ⟨hread, hstart, -⟩ := h.mem hmem
    have hbounds := (readElement_bounds hread).2
    have h1 := hbounds.header
    have h2 := hbounds.size
    exact move_self (by omega) (by omega) (by omega)
  rwa [hmap, Nat.add_sub_cancel' hlo, Nat.add_sub_cancel' (by omega)] at hmoved

theorem Nested.same {kind : Master} {a b : Nat} (h : Nested data kind a b) (hlo : lo ≤ a)
    (hab : a ≤ b) (hhi : b ≤ lo + n) : Nested out kind a b := by
  have hmoved := h.move hagree hlo hhi
  rwa [Nat.add_sub_cancel' hlo, Nat.add_sub_cancel' (by omega)] at hmoved

theorem startsWithKeyframe_same {el : Element} (h : Nested data .cluster el.dataStart el.dataEnd)
    (hstart : lo ≤ el.start) (hlo : lo ≤ el.dataStart) (hsize : el.dataStart ≤ el.dataEnd)
    (hhi : el.dataEnd ≤ lo + n) : startsWithKeyframe out el = startsWithKeyframe data el := by
  have hmoved := startsWithKeyframe_move hagree h hlo hhi
  rwa [move_self hstart hlo (by omega)] at hmoved

end

/-- The bytes of a sequence of elements, one behind the other at another place. -/
def place (pos : Nat) : List Element → List Element
  | [] => []
  | el :: els => el.move el.start pos :: place (pos + el.totalLen) els

/-- Where an element that was placed comes from. -/
def Placed (data out : Bytes) (els : List Element) (el' : Element) : Prop :=
  ∃ el ∈ els, ∃ pos, el' = el.move el.start pos ∧ Agree data el.start out pos el.totalLen

theorem place_spec {data out : Bytes} {els : List Element} {pos : Nat}
    (hread : ∀ el ∈ els, readElement data el.start = some el)
    (hagree : Agree (els.map (bytesOf data)).flatten 0 out pos (els.map (bytesOf data)).flatten.length) :
    Chain out pos (pos + (els.map (bytesOf data)).flatten.length) (place pos els) ∧
      (place pos els).map (bytesOf out) = els.map (bytesOf data) ∧
      ∀ el' ∈ place pos els, Placed data out els el' := by
  induction els generalizing pos with
  | nil => exact ⟨.nil _, rfl, fun el' hmem => by cases hmem⟩
  | cons el els ih =>
    have hel := hread el (List.mem_cons_self ..)
    have hbounds := (readElement_bounds hel).2
    have h1 := hbounds.header
    have h2 := hbounds.size
    have h3 := hbounds.inside
    have htotal : (bytesOf data el).length = el.totalLen := length_slice (by omega) h3
    have hlen : ((el :: els).map (bytesOf data)).flatten.length =
        el.totalLen + (els.map (bytesOf data)).flatten.length := by
      rw [List.map_cons, List.flatten_cons, List.length_append, htotal]
    have hinside := hagree.inside
    rw [hlen] at hagree hinside ⊢
    -- the bytes of the first element, and those of the others
    have hfirst : Agree data el.start out pos el.totalLen := by
      refine ⟨?_, by omega⟩
      intro i hi
      rw [← hagree.bytes i (by omega), Nat.zero_add, List.map_cons, List.flatten_cons,
        List.getElem?_append_left (by omega), bytesOf, getElem?_slice, if_pos]
      rw [Element.totalLen] at hi
      omega
    have hrest : Agree (els.map (bytesOf data)).flatten 0 out (pos + el.totalLen)
        (els.map (bytesOf data)).flatten.length := by
      refine ⟨?_, by omega⟩
      intro i hi
      have hbyte := hagree.bytes (el.totalLen + i) (by omega)
      rw [Nat.zero_add, List.map_cons, List.flatten_cons, ← htotal,
        List.getElem?_append_right (by omega), Nat.add_sub_cancel_left, htotal,
        ← Nat.add_assoc] at hbyte
      rwa [Nat.zero_add]
    obtain ⟨hchain, hbytes, hplaced⟩ := ih (fun el' hmem => hread el' (List.mem_cons_of_mem _ hmem)) hrest
    have hend : el.dataEnd = el.start + el.totalLen := by
      rw [Element.totalLen]
      omega
    have hnew : readElement out pos = some (el.move el.start pos) := by
      have hmoved := hfirst.readElement hel (Nat.le_refl _) (by omega)
      rwa [Nat.sub_self, Nat.add_zero] at hmoved
    have hnewEnd : (el.move el.start pos).dataEnd = pos + el.totalLen := by
      change pos + (el.dataEnd - el.start) = _
      omega
    refine ⟨?_, ?_, ?_⟩
    · refine .cons hnew ?_
      rw [hnewEnd, ← Nat.add_assoc]
      exact hchain
    · rw [place, List.map_cons, List.map_cons, hbytes]
      congr 1
      have hslice := slice_agree hfirst hend
      have hnewStart : (el.move el.start pos).start = pos := by
        change pos + (el.start - el.start) = pos
        omega
      rw [bytesOf, hnewEnd, hnewStart, hslice]
      rfl
    · intro el' hmem
      rcases List.mem_cons.mp hmem with rfl | hmem'
      · exact ⟨el, List.mem_cons_self .., pos, rfl, hfirst⟩
      · obtain ⟨el'', hel'', pos', hmove, hagree'⟩ := hplaced el' hmem'
        exact ⟨el'', List.mem_cons_of_mem _ hel'', pos', hmove, hagree'⟩

/-! ### The first cues of the first segment -/

/-- The segment among the elements of the file, and the cues among those of the segment. -/
structure Layout (data : Bytes) (segment cues : Element) (before after pre post : List Element) :
    Prop where
  nested : WellNested data
  top : Chain data 0 data.length (before ++ segment :: after)
  segmentId : segment.id = ID_SEGMENT
  firstSegment : ∀ el ∈ before, el.id ≠ ID_SEGMENT
  kids : Chain data segment.dataStart segment.dataEnd (pre ++ cues :: post)
  cuesId : cues.id = ID_CUES
  firstCues : ∀ el ∈ pre, el.id ≠ ID_CUES

theorem find_id_split {els : List Element} {id : Nat} {el : Element}
    (h : els.find? (·.id = id) = some el) :
    el.id = id ∧ ∃ before after, els = before ++ el :: after ∧ ∀ other ∈ before, other.id ≠ id := by
  obtain ⟨hid, before, after, hels, hbefore⟩ := List.find?_eq_some_iff_append.mp h
  refine ⟨by simpa using hid, before, after, hels, ?_⟩
  intro other hmem
  simpa using hbefore other hmem

theorem find_id_append {before after : List Element} {id : Nat} {el : Element} (hid : el.id = id)
    (hbefore : ∀ other ∈ before, other.id ≠ id) :
    (before ++ el :: after).find? (·.id = id) = some el := by
  refine List.find?_eq_some_iff_append.mpr ⟨by simpa using hid, before, after, rfl, ?_⟩
  intro other hmem
  simpa using hbefore other hmem

/-- The cue points that are kept. -/
def usefulPoints (data : Bytes) (segment cues : Element) : List Element :=
  (kids data cues).filter (isUseful data segment)

def usefulBytes (data : Bytes) (segment cues : Element) : Bytes :=
  ((usefulPoints data segment cues).map (bytesOf data)).flatten

/-- The elements of a part of the file, with what is known of them. -/
theorem Nested.of_chain {data : Bytes} {kind : Master} {a b : Nat} {els : List Element}
    (h : Nested data kind a b) (hchain : Chain data a b els) {el : Element} (hmem : el ∈ els)
    {kind' : Master} (hkind : kind.child el.id = some kind') :
    Nested data kind' el.dataStart el.dataEnd := by
  cases h with
  | mk hchain' hkids _ =>
    rw [hchain.unique hchain'] at hmem
    exact hkids el hmem kind' hkind

theorem exists_layout {data : Bytes} {segment cues : Element} (h : WellNested data)
    (hsegment : findElement data 0 data.length ID_SEGMENT = .ok (some segment))
    (hcues : findElement data segment.dataStart segment.dataEnd ID_CUES = .ok (some cues)) :
    ∃ before after pre post, Layout data segment cues before after pre post := by
  cases hnested : h with
  | @mk _ _ _ els hchain hkids _ =>
    rw [findElement_of_chain hchain] at hsegment
    obtain ⟨hid, before, after, rfl, hbefore⟩ := find_id_split (Except.ok.inj hsegment)
    have hseg : Nested data .segment segment.dataStart segment.dataEnd :=
      h.of_chain hchain (by simp) (by simp [Master.child, hid])
    rw [findElement_of_chain hseg.chain] at hcues
    obtain ⟨hid', pre, post, hsplit, hpre⟩ := find_id_split (Except.ok.inj hcues)
    exact ⟨before, after, pre, post, h, hchain, hid, hbefore, hsplit ▸ hseg.chain, hid', hpre⟩

namespace Layout

variable {data : Bytes} {segment cues : Element} {before after pre post : List Element}
  (h : Layout data segment cues before after pre post)

include h

theorem segmentNested : Nested data .segment segment.dataStart segment.dataEnd :=
  h.nested.of_chain h.top (by simp) (by simp [Master.child, h.segmentId])

theorem cuesNested : Nested data .cues cues.dataStart cues.dataEnd :=
  h.segmentNested.of_chain h.kids (by simp) (by
    rw [Master.child, h.cuesId]
    decide)

theorem kids_segment : Record.kids data segment = pre ++ cues :: post := children_of_chain h.kids

theorem find_segment : findElement data 0 data.length ID_SEGMENT = .ok (some segment) := by
  rw [findElement_of_chain h.top, find_id_append h.segmentId h.firstSegment]

theorem find_cues :
    findElement data segment.dataStart segment.dataEnd ID_CUES = .ok (some cues) := by
  rw [findElement_of_chain h.kids, find_id_append h.cuesId h.firstCues]

/-- The repair of a well nested file. -/
theorem repair_eq : repairCuesBytes data =
    rewriteCues data cues
      ((usefulPoints data segment cues).map (bytesOf data)) := by
  rw [repairCuesBytes, h.find_segment]
  change orNone (findElement data segment.dataStart segment.dataEnd ID_CUES) _ = _
  rw [h.find_cues]
  change orNone (seekableClusterPositions data segment) _ = _
  rw [seekableClusterPositions_eq h.segmentNested]
  change orNone (collectRepairedCuePoints data cues (seekablePositions data segment)) _ = _
  rw [collectRepairedCuePoints_eq h.cuesNested]
  rfl

/-- Where the segment and the cues lie. -/
theorem order : segment.dataStart ≤ cues.start ∧ cues.dataEnd ≤ segment.dataEnd ∧
    segment.dataEnd ≤ data.length ∧ segment.start < segment.dataStart ∧ cues.Bounds data := by
  obtain ⟨hread, hstart, hend⟩ := h.kids.mem (show cues ∈ pre ++ cues :: post by simp)
  obtain ⟨hread', -, hend'⟩ := h.top.mem (show segment ∈ before ++ segment :: after by simp)
  have h1 := (readElement_bounds hread').2.header
  exact ⟨hstart, hend, hend', by omega, (readElement_bounds hread).2⟩

/-! ### The file after the repair -/

variable {out payload : Bytes} (hnew : Rewritten data cues payload out)

omit h in
/-- The cues with their new size. -/
theorem read_cues (hread : readElement data cues.start = some cues) :
    payload.length ≤ cues.dataEnd - cues.dataStart → Rewritten data cues payload out →
    readElement out cues.start = some { cues with dataEnd := cues.dataStart + payload.length } := by
  intro hle hnew
  obtain ⟨id, idLen, size, sizeLen, hid, hsize, hend, hcues⟩ := readElement_eq_some.mp hread
  have hds : cues.dataStart = cues.start + idLen + sizeLen := congrArg Element.dataStart hcues
  have hsl : cues.sizeLen = sizeLen := congrArg Element.sizeLen hcues
  have hde : cues.dataEnd = cues.start + idLen + sizeLen + size := congrArg Element.dataEnd hcues
  have hfront := hnew.front.sub cues.start idLen (Nat.zero_le _) (by omega)
  rw [Nat.zero_add, Nat.sub_zero] at hfront
  have hid' := hfront.readId hid (Nat.le_refl _)
  have hsize' := hnew.size
  rw [show cues.dataStart - cues.sizeLen = cues.start + idLen by omega] at hsize'
  have hlength := hnew.length
  refine readElement_eq_some.mpr ⟨id, idLen, payload.length, cues.sizeLen, hid', hsize', ?_, ?_⟩
  · omega
  · have hidEq : cues.id = id := congrArg Element.id hcues
    rw [Element.mk.injEq]
    exact ⟨hidEq, rfl, by omega, by omega, rfl⟩

include hnew

theorem read_segment : readElement out segment.start = some segment := by
  obtain ⟨hread, -, -⟩ := h.top.mem (show segment ∈ before ++ segment :: after by simp)
  obtain ⟨id, idLen, size, sizeLen, hid, hsize, hend, hsegment⟩ := readElement_eq_some.mp hread
  have hds : segment.dataStart = segment.start + idLen + sizeLen :=
    congrArg Element.dataStart hsegment
  obtain ⟨hstart, -, -, -, hbounds⟩ := h.order
  have h1 := hbounds.header
  have hfront := hnew.front.sub segment.start idLen (Nat.zero_le _) (by omega)
  have hfront' := hnew.front.sub (segment.start + idLen) sizeLen (Nat.zero_le _) (by omega)
  rw [Nat.zero_add, Nat.sub_zero] at hfront hfront'
  refine readElement_eq_some.mpr ⟨id, idLen, size, sizeLen, hfront.readId hid (Nat.le_refl _),
    hfront'.readVint hsize (Nat.le_refl _), ?_, hsegment⟩
  rw [hnew.length]
  exact hend

/-- The elements of the file are the same ones. -/
theorem top_out : Chain out 0 out.length (before ++ segment :: after) := by
  obtain ⟨hbefore, -, hafter⟩ := h.top.split
  obtain ⟨hstart, hend, hinside, hlt, hbounds⟩ := h.order
  have h1 := hbounds.header
  rw [hnew.length]
  refine (hbefore.same hnew.front (Nat.zero_le _) (by omega)).append
    (.cons (h.read_segment hnew) ?_)
  exact hafter.same hnew.back (by omega) (by omega)

/-- The elements of the segment: the cues have become shorter, and a void element follows. -/
theorem kids_out (hle : payload.length ≤ cues.dataEnd - cues.dataStart) :
    ∃ void, readElement out (cues.dataStart + payload.length) = some void ∧ void.id = ID_VOID ∧
      void.dataEnd = cues.dataEnd ∧
      Chain out segment.dataStart segment.dataEnd
        (pre ++ { cues with dataEnd := cues.dataStart + payload.length } :: void :: post) := by
  obtain ⟨hpre, hread, hpost⟩ := h.kids.split
  obtain ⟨hstart, hend, hinside, -, hbounds⟩ := h.order
  have h1 := hbounds.header
  obtain ⟨void, hvoid, hid, hvoidEnd⟩ := hnew.void
  refine ⟨void, hvoid, hid, hvoidEnd, ?_⟩
  refine (hpre.same hnew.front (Nat.zero_le _) (by omega)).append ?_
  refine .cons (read_cues hread hle hnew) (.cons hvoid ?_)
  rw [hvoidEnd]
  exact hpost.same hnew.back (Nat.le_refl _) (by omega)

/-- The elements around the cues are nested as before. -/
theorem nested_outside {kind kind' : Master} {a b : Nat} {els : List Element} {el : Element}
    (hkind : Nested data kind a b) (hchain : Chain data a b els) (hmem : el ∈ els)
    (hside : el.dataEnd ≤ cues.start ∨ cues.dataEnd ≤ el.start)
    (hchild : kind.child el.id = some kind') : Nested out kind' el.dataStart el.dataEnd := by
  have hnested := hkind.of_chain hchain hmem hchild
  have hbounds := (readElement_bounds (hchain.mem hmem).1).2
  have h1 := hbounds.header
  have h2 := hbounds.size
  have h3 := hbounds.inside
  obtain ⟨-, -, -, -, hcues⟩ := h.order
  have h4 := hcues.header
  rcases hside with hleft | hright
  · exact hnested.same hnew.front (Nat.zero_le _) h2 (by omega)
  · exact hnested.same hnew.back (by omega) h2 (by omega)

end Layout

/-- The part of a list that is kept takes up less, by an element, if something is not kept. -/
theorem sum_filter_totalLen {els : List Element} (hsize : ∀ el ∈ els, 2 ≤ el.totalLen)
    (p : Element → Bool) :
    ((els.filter p).map Element.totalLen).sum ≤ (els.map Element.totalLen).sum ∧
      ((∃ el ∈ els, p el = false) →
        ((els.filter p).map Element.totalLen).sum + 2 ≤ (els.map Element.totalLen).sum) := by
  induction els with
  | nil => simp
  | cons el els ih =>
    obtain ⟨hle, hless⟩ := ih fun other hmem => hsize other (List.mem_cons_of_mem _ hmem)
    have htwo := hsize el (List.mem_cons_self ..)
    cases hp : p el with
    | true =>
      rw [List.filter_cons_of_pos hp]
      simp only [List.map_cons, List.sum_cons]
      refine ⟨by omega, ?_⟩
      rintro ⟨other, hmem, hother⟩
      rcases List.mem_cons.mp hmem with rfl | hmem'
      · rw [hp] at hother
        cases hother
      · have hgap := hless ⟨other, hmem', hother⟩
        omega
    | false =>
      rw [List.filter_cons_of_neg (by simp [hp])]
      simp only [List.map_cons, List.sum_cons]
      exact ⟨by omega, fun _ => by omega⟩

theorem length_flatten_bytesOf {data : Bytes} {els : List Element}
    (hread : ∀ el ∈ els, readElement data el.start = some el) :
    (els.map (bytesOf data)).flatten.length = (els.map Element.totalLen).sum := by
  rw [List.length_flatten, List.map_map]
  congr 1
  refine List.map_congr_left ?_
  intro el hmem
  have hbounds := (readElement_bounds (hread el hmem)).2
  have h1 := hbounds.header
  have h2 := hbounds.size
  exact length_slice (by omega) hbounds.inside

namespace Layout

variable {data : Bytes} {segment cues : Element} {before after pre post : List Element}
  (h : Layout data segment cues before after pre post)

include h

theorem read_useful : ∀ el ∈ usefulPoints data segment cues,
    readElement data el.start = some el := by
  intro el hmem
  exact (h.cuesNested.chain.mem (List.mem_filter.mp hmem).1).1

/-- The useful cue points take up as much as the cues, or at least two bytes less. -/
theorem payload_length :
    (usefulBytes data segment cues).length ≤
        cues.dataEnd - cues.dataStart ∧
      ((∃ el ∈ Record.kids data cues, isUseful data segment el = false) →
        (usefulBytes data segment cues).length +
          2 ≤ cues.dataEnd - cues.dataStart) := by
  rw [usefulBytes, length_flatten_bytesOf h.read_useful, usefulPoints,
    ← h.cuesNested.chain.sum_totalLen]
  refine sum_filter_totalLen ?_ _
  intro el hmem
  have hread := (h.cuesNested.chain.mem hmem).1
  have hlt := (readElement_lt hread).1
  rw [Element.totalLen]
  omega

variable {out : Bytes}
  (hnew : Rewritten data cues
    (usefulBytes data segment cues) out)

include hnew

/-- The new cues hold the useful cue points. -/
theorem cues_out :
    Nested out .cues cues.dataStart (cues.dataStart +
        (usefulBytes data segment cues).length) ∧
      Record.kids out { cues with dataEnd := cues.dataStart +
          (usefulBytes data segment cues).length } =
        place cues.dataStart (usefulPoints data segment cues) := by
  obtain ⟨hchain, -, hplaced⟩ := place_spec h.read_useful hnew.points
  refine ⟨.mk hchain ?_ ?_, children_of_chain hchain⟩
  · intro el' hmem kind' hkind
    obtain ⟨el, hel, pos, rfl, hagree⟩ := hplaced el' hmem
    obtain ⟨hkid, -⟩ := List.mem_filter.mp hel
    have hnested := h.cuesNested.child hkid hkind
    have hbounds := (readElement_bounds (h.cuesNested.chain.mem hkid).1).2
    have h1 := hbounds.header
    have h2 := hbounds.size
    refine hnested.move hagree (by omega) ?_
    rw [Element.totalLen]
    omega
  · intro el' _ hcluster
    cases hcluster

/-- The file is well nested, with the new cues in the place of the old ones. -/
theorem layout_out : ∃ void,
    readElement out (cues.dataStart +
      (usefulBytes data segment cues).length) =
        some void ∧
    void.id = ID_VOID ∧ void.dataEnd = cues.dataEnd ∧
    Layout out segment { cues with dataEnd := cues.dataStart +
        (usefulBytes data segment cues).length }
      before after pre (void :: post) := by
  obtain ⟨void, hvoid, hid, hend, hkids⟩ := h.kids_out hnew h.payload_length.1
  refine ⟨void, hvoid, hid, hend, ?_, h.top_out hnew, h.segmentId, h.firstSegment, hkids, h.cuesId,
    h.firstCues⟩
  obtain ⟨hstart, hcuesEnd, hinside, hlt, hbounds⟩ := h.order
  have h1 := hbounds.header
  have h2 := hbounds.size
  obtain ⟨hbefore, -, hafter⟩ := h.top.split
  obtain ⟨hpre, -, hpost⟩ := h.kids.split
  -- the elements of the segment
  have hsegment : Nested out .segment segment.dataStart segment.dataEnd := by
    refine .mk hkids ?_ ?_
    · intro el hmem kind' hkind
      rcases List.mem_append.mp hmem with hleft | hmem'
      · obtain ⟨-, -, hle⟩ := hpre.mem hleft
        exact h.nested_outside hnew h.segmentNested h.kids (List.mem_append_left _ hleft)
          (.inl hle) hkind
      · rcases List.mem_cons.mp hmem' with rfl | hmem''
        · change Master.segment.child cues.id = some kind' at hkind
          rw [h.cuesId, show Master.segment.child ID_CUES = some .cues by decide] at hkind
          cases hkind
          exact (h.cues_out hnew).1
        · rcases List.mem_cons.mp hmem'' with rfl | hright
          · rw [hid, show Master.segment.child ID_VOID = none by decide] at hkind
            cases hkind
          · obtain ⟨-, hge, -⟩ := hpost.mem hright
            exact h.nested_outside hnew h.segmentNested h.kids
              (List.mem_append_right _ (List.mem_cons_of_mem _ hright)) (.inr hge) hkind
    · intro el _ hcluster
      cases hcluster
  refine .mk (h.top_out hnew) ?_ ?_
  · intro el hmem kind' hkind
    rcases List.mem_append.mp hmem with hleft | hmem'
    · obtain ⟨-, -, hle⟩ := hbefore.mem hleft
      exact h.nested_outside hnew h.nested h.top (List.mem_append_left _ hleft)
        (.inl (by omega)) hkind
    · rcases List.mem_cons.mp hmem' with rfl | hright
      · rw [h.segmentId, show Master.file.child ID_SEGMENT = some .segment by decide] at hkind
        cases hkind
        exact hsegment
      · obtain ⟨-, hge, -⟩ := hafter.mem hright
        exact h.nested_outside hnew h.nested h.top
          (List.mem_append_right _ (List.mem_cons_of_mem _ hright)) (.inr (by omega)) hkind
  · intro el _ hcluster
    cases hcluster

theorem seekable_out : seekablePositions out segment = seekablePositions data segment := by
  obtain ⟨void, -, hid, -, hlayout⟩ := h.layout_out hnew
  obtain ⟨hstart, hcuesEnd, hinside, hlt, hbounds⟩ := h.order
  have h1 := hbounds.header
  have h2 := hbounds.size
  obtain ⟨hpre, -, hpost⟩ := h.kids.split
  have hcues : ¬ (cues.id = ID_CLUSTER) := by
    rw [h.cuesId]
    decide
  have hvoid : ¬ (void.id = ID_CLUSTER) := by
    rw [hid]
    decide
  -- a cluster beside the cues starts as before
  have hsame : ∀ el ∈ pre ++ cues :: post, (el.dataEnd ≤ cues.start ∨ cues.dataEnd ≤ el.start) →
      (decide (el.id = ID_CLUSTER) && startsWithKeyframe out el) =
        (decide (el.id = ID_CLUSTER) && startsWithKeyframe data el) := by
    intro el hmem hside
    by_cases hcluster : el.id = ID_CLUSTER
    · have hnested : Nested data .cluster el.dataStart el.dataEnd :=
        h.segmentNested.of_chain h.kids hmem (by simp [Master.child, hcluster])
      have hel := (readElement_bounds (h.kids.mem hmem).1).2
      have h3 := hel.header
      have h4 := hel.size
      have h5 := hel.inside
      congr 1
      rcases hside with hleft | hright
      · exact startsWithKeyframe_same hnew.front hnested (Nat.zero_le _) (Nat.zero_le _) h4 (by omega)
      · exact startsWithKeyframe_same hnew.back hnested (by omega) (by omega) h4 (by omega)
    · simp [hcluster]
  have hfilterPre : pre.filter (fun el => el.id = ID_CLUSTER && startsWithKeyframe out el) =
      pre.filter (fun el => el.id = ID_CLUSTER && startsWithKeyframe data el) := by
    refine List.filter_congr ?_
    intro el hmem
    exact hsame el (List.mem_append_left _ hmem) (.inl (hpre.mem hmem).2.2)
  have hfilterPost : post.filter (fun el => el.id = ID_CLUSTER && startsWithKeyframe out el) =
      post.filter (fun el => el.id = ID_CLUSTER && startsWithKeyframe data el) := by
    refine List.filter_congr ?_
    intro el hmem
    exact hsame el (List.mem_append_right _ (List.mem_cons_of_mem _ hmem))
      (.inr (hpost.mem hmem).2.1)
  rw [seekablePositions, seekablePositions, hlayout.kids_segment, h.kids_segment,
    List.filter_append, List.filter_append, hfilterPre]
  congr 2
  rw [List.filter_cons_of_neg (by simp [hcues]), List.filter_cons_of_neg (by simp [hvoid]),
    List.filter_cons_of_neg (by simp [hcues]), hfilterPost]

/-- Every cue point of the new file is useful. -/
theorem useful_out : ∀ el' ∈ place cues.dataStart (usefulPoints data segment cues),
    isUseful out segment el' = true := by
  intro el' hmem
  obtain ⟨-, -, hplaced⟩ := place_spec h.read_useful hnew.points
  obtain ⟨el, hel, pos, rfl, hagree⟩ := hplaced el' hmem
  obtain ⟨hkid, huseful⟩ := List.mem_filter.mp hel
  rw [isUseful, Bool.and_eq_true, decide_eq_true_eq] at huseful
  have hnested : Nested data .cuePoint el.dataStart el.dataEnd :=
    h.cuesNested.child hkid (by simp [Master.child, huseful.1])
  have hbounds := (readElement_bounds (h.cuesNested.chain.mem hkid).1).2
  have h1 := hbounds.header
  have h2 := hbounds.size
  have hposition : cuePosition out (el.move el.start pos) = cuePosition data el := by
    refine cuePosition_move hagree hnested (by omega) ?_
    rw [Element.totalLen]
    omega
  rw [isUseful, Bool.and_eq_true, decide_eq_true_eq, hposition, h.seekable_out hnew]
  exact huseful

/-- The new file needs no repair. -/
theorem repair_out : repairCuesBytes out = .ok none := by
  obtain ⟨void, -, -, -, hlayout⟩ := h.layout_out hnew
  obtain ⟨-, hbytes, -⟩ := place_spec h.read_useful hnew.points
  rw [hlayout.repair_eq, usefulPoints, (h.cues_out hnew).2,
    List.filter_eq_self.mpr (h.useful_out hnew), hbytes]
  refine rewriteCues_same hlayout.order.2.2.2.2 ?_
  rw [← List.length_flatten]
  change (usefulBytes data segment cues).length =
    cues.dataStart + (usefulBytes data segment cues).length - cues.dataStart
  omega

end Layout

/-! ### The repair -/

/-- What holds of the repaired file. -/
structure Repaired (data : Bytes) (segment cues : Element) (out : Bytes) : Prop where
  nested : WellNested out
  found : findElement out 0 out.length ID_SEGMENT = .ok (some segment)
  points : ∃ cues' void,
    findElement out segment.dataStart segment.dataEnd ID_CUES = .ok (some cues') ∧
    (kids out cues').map (bytesOf out) = (usefulPoints data segment cues).map (bytesOf data) ∧
    bodyOf out cues' = usefulBytes data segment cues ∧
    readElement out cues'.dataEnd = some void ∧ void.id = ID_VOID ∧
    cues'.start = cues.start ∧ void.dataEnd = cues.dataEnd
  seekable : seekablePositions out segment = seekablePositions data segment
  settled : repairCuesBytes out = .ok none

theorem Layout.repaired {data out : Bytes} {segment cues : Element}
    {before after pre post : List Element} (h : Layout data segment cues before after pre post)
    (hnew : Rewritten data cues (usefulBytes data segment cues) out) :
    Repaired data segment cues out := by
  obtain ⟨void, hvoid, hid, hend, hlayout⟩ := h.layout_out hnew
  obtain ⟨-, hbytes, -⟩ := place_spec h.read_useful hnew.points
  refine ⟨hlayout.nested, hlayout.find_segment, ?_, h.seekable_out hnew, h.repair_out hnew⟩
  refine ⟨{ cues with dataEnd := cues.dataStart + (usefulBytes data segment cues).length }, void,
    hlayout.find_cues, ?_, ?_, hvoid, hid, rfl, hend⟩
  · rw [(h.cues_out hnew).2, hbytes]
  · have hslice := slice_agree hnew.points (Nat.zero_add _).symm
    rwa [List.take_length, List.drop_zero] at hslice

/-- On a well nested file the repair does nothing if all cue points are of use. -/
theorem Layout.repair_none {data : Bytes} {segment cues : Element}
    {before after pre post : List Element} (h : Layout data segment cues before after pre post)
    (huseful : ∀ el ∈ Record.kids data cues, isUseful data segment el = true) :
    repairCuesBytes data = .ok none := by
  rw [h.repair_eq]
  refine rewriteCues_same h.order.2.2.2.2 ?_
  rw [← List.length_flatten, length_flatten_bytesOf h.read_useful, usefulPoints,
    List.filter_eq_self.mpr huseful, h.cuesNested.chain.sum_totalLen]

theorem Layout.repair_some {data : Bytes} {segment cues : Element}
    {before after pre post : List Element} (h : Layout data segment cues before after pre post)
    (hbad : ∃ el ∈ Record.kids data cues, isUseful data segment el = false) :
    ∃ out, repairCuesBytes data = .ok (some out) ∧
      Rewritten data cues (usefulBytes data segment cues) out := by
  rw [h.repair_eq]
  exact rewriteCues_some h.order.2.2.2.2 (h.payload_length.2 hbad)

/-- Only the first cues of the first segment change. -/
theorem repair_ok (data : Bytes) : ∃ result, repairCuesBytes data = .ok result ∧
    ∀ out, result = some out → out.length = data.length ∧ ∃ segment cues,
      findElement data 0 data.length ID_SEGMENT = .ok (some segment) ∧
      findElement data segment.dataStart segment.dataEnd ID_CUES = .ok (some cues) ∧
      ∀ i, i < cues.start ∨ cues.dataEnd ≤ i → out[i]? = data[i]? := by
  obtain ⟨segment?, hsegment⟩ := findElement_ok data 0 data.length ID_SEGMENT
  rw [repairCuesBytes, hsegment]
  match segment? with
  | none => exact ⟨none, rfl, fun out hout => by cases hout⟩
  | some segment =>
    obtain ⟨cues?, hcues⟩ := findElement_ok data segment.dataStart segment.dataEnd ID_CUES
    rw [orNone, hcues]
    match cues? with
    | none => exact ⟨none, rfl, fun out hout => by cases hout⟩
    | some cues =>
      obtain ⟨seekable?, hseekable⟩ := seekableClusterPositions_ok data segment
      rw [orNone, hseekable]
      match seekable? with
      | none => exact ⟨none, rfl, fun out hout => by cases hout⟩
      | some seekable =>
        obtain ⟨points?, hpoints⟩ := collectRepairedCuePoints_ok data cues seekable
        rw [orNone, hpoints]
        match points? with
        | none => exact ⟨none, rfl, fun out hout => by cases hout⟩
        | some points =>
          have hbounds := (readElement_bounds (findElement_some hcues).2).2
          have h1 := hbounds.header
          have h2 := hbounds.size
          have h3 := hbounds.inside
          obtain ⟨result, hresult, hout⟩ := rewriteCues_ok hbounds points
          refine ⟨result, hresult, ?_⟩
          intro out heq
          obtain ⟨repaired, hlen, rfl⟩ := hout out heq
          have htake : (data.take cues.start).length = cues.start := by
            rw [List.length_take, Nat.min_eq_left (by omega)]
          refine ⟨?_, segment, cues, rfl, hcues, ?_⟩
          · simp only [List.length_append, htake, hlen, List.length_drop]
            omega
          · rintro i (hlt | hge)
            · rw [List.append_assoc, List.getElem?_append_left (by omega), List.getElem?_take,
                if_pos hlt]
            · have hfront : (data.take cues.start ++ repaired).length = cues.dataEnd := by
                rw [List.length_append, htake, hlen]
                omega
              rw [List.getElem?_append_right (by omega), hfront, List.getElem?_drop,
                Nat.add_sub_cancel' hge]

/-- For every byte string the repair ends without a panic and changes nothing outside the first
    cues of the first segment.  On a well nested file it does something exactly when there is a cue
    point of no use, and then leaves those that are of use. -/
theorem repairs_cues (data : Bytes) :
    ∃ result, repairCuesBytes data = .ok result ∧
      (∀ out, result = some out → out.length = data.length ∧ ∃ segment cues,
        findElement data 0 data.length ID_SEGMENT = .ok (some segment) ∧
        findElement data segment.dataStart segment.dataEnd ID_CUES = .ok (some cues) ∧
        ∀ i, i < cues.start ∨ cues.dataEnd ≤ i → out[i]? = data[i]?) ∧
      (∀ segment cues, findElement data 0 data.length ID_SEGMENT = .ok (some segment) →
        findElement data segment.dataStart segment.dataEnd ID_CUES = .ok (some cues) →
        WellNested data →
        (result.isSome ↔ ∃ el ∈ kids data cues, isUseful data segment el = false) ∧
          ∀ out, result = some out → Repaired data segment cues out) := by
  obtain ⟨result, hresult, hchanged⟩ := repair_ok data
  refine ⟨result, hresult, hchanged, ?_⟩
  intro segment cues hsegment hcues hnested
  obtain ⟨before, after, pre, post, h⟩ := exists_layout hnested hsegment hcues
  by_cases hbad : ∃ el ∈ kids data cues, isUseful data segment el = false
  · obtain ⟨out, hout, hnew⟩ := h.repair_some hbad
    rw [hout] at hresult
    cases hresult
    refine ⟨⟨fun _ => hbad, fun _ => rfl⟩, ?_⟩
    intro out' heq
    cases heq
    exact h.repaired hnew
  · have hnone := h.repair_none fun el hmem => by
      cases huseful : isUseful data segment el with
      | true => rfl
      | false => exact absurd ⟨el, hmem, huseful⟩ hbad
    rw [hnone] at hresult
    cases hresult
    refine ⟨⟨fun hsome => ?_, fun hsome => absurd hsome hbad⟩, fun out heq => ?_⟩
    · cases hsome
    · cases heq

/-- A cluster that starts with a key frame, a cue point to it, and one to nowhere. -/
def twoCues : Bytes :=
  [0x18, 0x53, 0x80, 0x67, 0x9e,
    0x1f, 0x43, 0xb6, 0x75, 0x86, 0xa3, 0x84, 0x81, 0, 0, 0x80,
    0x1c, 0x53, 0xbb, 0x6b, 0x8e,
      0xbb, 0x85, 0xb7, 0x83, 0xf1, 0x81, 0, 0xbb, 0x85, 0xb7, 0x83, 0xf1, 0x81, 5]

theorem twoCues_nested : WellNested twoCues := by
  have hcluster : Nested twoCues .cluster 10 16 := by
    have hchain : Chain twoCues 10 16 [⟨ID_SIMPLE_BLOCK, 10, 12, 16, 1⟩] := .cons rfl (.nil _)
    refine .mk hchain ?_ ?_
    · intro el _ kind' hkind
      cases hkind
    · intro el hmem _ _
      rw [List.mem_singleton.mp hmem]
      exact ⟨1, 1, by decide, by decide⟩
  have hpoint : ∀ a, a = 23 ∨ a = 30 → Nested twoCues .cuePoint a (a + 5) := by
    intro a ha
    have hinner : Chain twoCues (a + 2) (a + 5)
        [⟨ID_CUE_CLUSTER_POSITION, a + 2, a + 4, a + 5, 1⟩] := by
      rcases ha with rfl | rfl <;> exact .cons rfl (.nil _)
    have houter : Chain twoCues a (a + 5) [⟨ID_CUE_TRACK_POSITIONS, a, a + 2, a + 5, 1⟩] := by
      rcases ha with rfl | rfl <;> exact .cons rfl (.nil _)
    refine .mk houter ?_ fun _ _ hkind => by cases hkind
    intro el hmem kind' hkind
    rw [List.mem_singleton.mp hmem] at hkind ⊢
    cases hkind
    exact .mk hinner (fun _ _ _ hkind => by cases hkind) fun _ _ hkind => by cases hkind
  have hcues : Nested twoCues .cues 21 35 := by
    have hchain : Chain twoCues 21 35 [⟨ID_CUE_POINT, 21, 23, 28, 1⟩, ⟨ID_CUE_POINT, 28, 30, 35, 1⟩] :=
      .cons rfl (.cons rfl (.nil _))
    refine .mk hchain ?_ fun _ _ hkind => by cases hkind
    intro el hmem kind' hkind
    simp only [List.mem_cons, List.not_mem_nil, or_false] at hmem
    rcases hmem with rfl | rfl
    · cases hkind
      exact hpoint 23 (.inl rfl)
    · cases hkind
      exact hpoint 30 (.inr rfl)
  have hsegment : Nested twoCues .segment 5 35 := by
    have hchain : Chain twoCues 5 35 [⟨ID_CLUSTER, 5, 10, 16, 1⟩, ⟨ID_CUES, 16, 21, 35, 1⟩] :=
      .cons rfl (.cons rfl (.nil _))
    refine .mk hchain ?_ fun _ _ hkind => by cases hkind
    intro el hmem kind' hkind
    simp only [List.mem_cons, List.not_mem_nil, or_false] at hmem
    rcases hmem with rfl | rfl
    · cases hkind
      exact hcluster
    · cases hkind
      exact hcues
  have hchain : Chain twoCues 0 35 [⟨ID_SEGMENT, 0, 5, 35, 1⟩] := .cons rfl (.nil _)
  refine .mk hchain ?_ fun _ _ hkind => by cases hkind
  intro el hmem kind' hkind
  rw [List.mem_singleton.mp hmem] at hkind ⊢
  cases hkind
  exact hsegment

theorem repairs_cues_twoCues :
    ∃ out, repairCuesBytes twoCues = .ok (some out) ∧ out.length = 35 ∧
      repairCuesBytes out = .ok none := by
  obtain ⟨result, hresult, hchanged, hnested⟩ := repairs_cues twoCues
  obtain ⟨hsome, hout⟩ := hnested ⟨ID_SEGMENT, 0, 5, 35, 1⟩ ⟨ID_CUES, 16, 21, 35, 1⟩
    (by decide +kernel) (by decide +kernel) twoCues_nested
  have hbad := hsome.mpr ⟨⟨ID_CUE_POINT, 28, 30, 35, 1⟩, by decide +kernel, by decide +kernel⟩
  obtain ⟨out, rfl⟩ := Option.isSome_iff_exists.mp hbad
  exact ⟨out, hresult, (hchanged out rfl).1, (hout out rfl).settled⟩

end MediaServer.Record
