import MediaServer.Transport.Payload.Vp9

/-!
# Where the VP9 parser panics

Up to the scalability structure every read is checked.  In the structure the resolutions and the
references of a picture are checked against eight times what is left.  `Readable` says that no
such check passes in vain, and it is exactly when the parser returns.
-/

namespace MediaServer.Transport.Payload.Vp9

open Fallible

/-! ### The bytes of the scalability structure -/

def behindPictureId : Bytes → Option Bytes
  | [] => none
  | b :: left =>
    if (b &&& 0x80) ≠ 0 then
      match left with
      | [] => none
      | _ :: left => some left
    else some left

def behindLayerInfo (flexible : Bool) : Bytes → Option Bytes
  | [] => none
  | b :: left =>
    if maxSpatialLayers ≤ (b >>> 1) &&& 0x7 then none
    else if flexible then some left
    else
      match left with
      | [] => none
      | _ :: left => some left

def behindRefs : Nat → Bytes → Option Bytes
  | 0, _ => none
  | _, [] => none
  | rounds + 1, b :: left =>
    if rounds = 0 then none
    else if (b &&& 0x1) ≠ 0 then behindRefs rounds left
    else some left

/-- A part that is there only if it is announced. -/
def behind (present : Bool) (f : Bytes → Option Bytes) (left : Bytes) : Option Bytes :=
  if present then f left else some left

/-- What is left of a payload behind its first byte and the parts that the byte announces, if the
    parser comes that far. -/
def behindHeader (h : Vp9Header) (left : Bytes) : Option Bytes := do
  let left ← behind h.i behindPictureId left
  let left ← behind h.l (behindLayerInfo h.f) left
  behind (h.f && h.p) (behindRefs maxVp9RefPics) left

/-- The scalability structure of a payload and what follows it. -/
def scalability : Bytes → Option Bytes
  | [] => none
  | first :: left =>
    if (required first).v then behindHeader (required first) left else none

/-- The references of each picture are all there, or no byte is. -/
def PicturesReadable : Nat → Bytes → Prop
  | 0, _ => True
  | _ + 1, [] => True
  | count + 1, b :: left =>
    left.length * 8 < ((b >>> 2) &&& 0x3).toNat ∨
      ((b >>> 2) &&& 0x3).toNat ≤ left.length ∧
        PicturesReadable count (left.drop ((b >>> 2) &&& 0x3).toNat)

def GroupReadable (present : Bool) (left : Bytes) : Prop :=
  present → ∀ ng after, left = ng :: after → PicturesReadable ng.toNat after

/-- The resolutions are all there, or fewer bits are left than they need bytes. -/
def Readable (left : Bytes) : Prop :=
  ∀ b after, left = b :: after →
    if (b &&& 0x10) ≠ 0 then
      after.length * 8 < 4 * ((b >>> 5) + 1).toNat ∨
        4 * ((b >>> 5) + 1).toNat ≤ after.length ∧
          GroupReadable (((b >>> 1) &&& 0x7) ≠ 0) (after.drop (4 * ((b >>> 5) + 1).toNat))
    else GroupReadable (((b >>> 1) &&& 0x7) ≠ 0) after

/-! ### The scalability structure -/

section

variable {done left : Bytes}

/-- The parser returns only under a condition, and panics only without it. -/
def Decides {α : Type} (P : Prop) (p : Parser α) (s : BitReader) : Prop :=
  wp p (fun _ _ => P) (fun e _ => e.isPanic = true ↔ ¬P) s

theorem Decides.congr {α : Type} {P P' : Prop} {p : Parser α} {s : BitReader} (hP : P ↔ P')
    (h : Decides P' p s) : Decides P p s := by
  rw [Decides, hP]
  exact h

theorem decides_of_short {α : Type} {P : Prop} {p : Parser α} (hP : P)
    (h : wp p (fun _ _ => True) (fun e _ => e.isPanic = false) (past done left)) :
    Decides P p (past done left) := by
  refine wp_mono h (fun _ _ _ => hP) (fun e _ he => ?_)
  rw [he]
  exact iff_of_false Bool.false_ne_true (not_not_intro hP)

theorem decides_readPictures {count : Nat} {h : Vp9Header} {i : Nat} (hi : h.pgpdiff.length = i) :
    Decides (PicturesReadable count left) (readPictures i count h) (past done left) := by
  induction count generalizing i h done left with
  | zero => exact trivial
  | succ count ih =>
    match left with
    | [] =>
      refine decides_of_short trivial ?_
      rw [readPictures, wp_bind, wp_checkShort_nil]
      rfl
    | b :: left =>
      have hi' : i < (h.pgpdiff ++ [[]]).length := by
        rw [List.length_append, List.length_singleton]
        omega
      rw [Decides, readPictures, wp_bind, wp_checkShort_cons, wp_bind, wp_getU8_cons, wp_bind,
        wp_remaining]
      by_cases hshort : left.length * 8 < ((b >>> 2) &&& 0x3).toNat
      · rw [if_pos hshort, wp_throw]
        exact iff_of_false Bool.false_ne_true (not_not_intro (Or.inl hshort))
      rw [if_neg hshort, wp_bind]
      by_cases henough : ((b >>> 2) &&& 0x3).toNat ≤ left.length
      · apply wp_readDiffs_of_le hi' henough
        intro diffs done' hdiffs
        have hiff : PicturesReadable (count + 1) (b :: left) ↔
            PicturesReadable count (left.drop ((b >>> 2) &&& 0x3).toNat) := by
          rw [PicturesReadable]
          exact ⟨fun h => (h.resolve_left hshort).2, fun h => Or.inr ⟨henough, h⟩⟩
        apply Decides.congr hiff
        apply ih
        rw [hdiffs, List.length_append, List.length_singleton, hi]
      · refine wp_readDiffs_of_lt hi' (Nat.lt_of_not_le henough) fun _ => ?_
        refine iff_of_true rfl ?_
        rintro (hlt | ⟨hle, _⟩)
        · exact hshort hlt
        · exact henough hle

theorem decides_readGroup {g : Bool} {h : Vp9Header} (hg : h.g = g) (hng : h.ng = 0)
    (hpictures : h.pgpdiff = []) :
    Decides (GroupReadable g left)
      (whenSet h.g readGroupSize h >>= fun h => readPictures 0 h.ng.toNat h) (past done left) := by
  rw [Decides, wp_bind, hg]
  cases g with
  | false =>
    have hreadable : GroupReadable false left := fun hg => by cases hg
    have hcount : (0 : UInt8).toNat = 0 := rfl
    rw [whenSet, if_neg Bool.false_ne_true, wp_pure, hng, hcount]
    exact hreadable
  | true =>
    rw [whenSet, if_pos rfl, readGroupSize, wp_bind]
    cases left with
    | nil =>
      rw [wp_checkShort_nil]
      exact iff_of_false Bool.false_ne_true (not_not_intro fun _ _ _ h => by cases h)
    | cons ng left =>
      have hiff : GroupReadable true (ng :: left) ↔ PicturesReadable ng.toNat left := by
        constructor
        · exact fun h => h rfl ng left rfl
        · rintro h - ng' left' heq
          rw [List.cons.injEq] at heq
          rw [← heq.1, ← heq.2]
          exact h
      rw [wp_checkShort_cons, wp_bind, wp_getU8_cons, wp_pure]
      apply Decides.congr hiff
      apply decides_readPictures
      rw [hpictures]
      rfl

theorem decides_parseSsdata {h : Vp9Header} (hpictures : h.pgpdiff = []) :
    Decides (Readable left) (parseSsdata h) (past done left) := by
  match left with
  | [] =>
    refine decides_of_short (fun _ _ h => nomatch h) ?_
    rw [parseSsdata, wp_bind, wp_checkShort_nil]
    rfl
  | b :: left =>
    have hiff : Readable (b :: left) ↔
        if (b &&& 0x10) ≠ 0 then
          left.length * 8 < 4 * ((b >>> 5) + 1).toNat ∨
            4 * ((b >>> 5) + 1).toNat ≤ left.length ∧
              GroupReadable (((b >>> 1) &&& 0x7) ≠ 0) (left.drop (4 * ((b >>> 5) + 1).toNat))
        else GroupReadable (((b >>> 1) &&& 0x7) ≠ 0) left := by
      constructor
      · exact fun h => h b left rfl
      · intro h b' left' heq
        rw [List.cons.injEq] at heq
        rw [← heq.1, ← heq.2]
        exact h
    apply Decides.congr hiff
    rw [Decides, parseSsdata, wp_bind, wp_checkShort_cons, wp_bind, wp_getU8_cons, wp_bind]
    by_cases hy : (b &&& 0x10) ≠ 0
    case neg =>
      rw [if_neg hy, whenSet, if_neg (by simpa using hy), wp_pure]
      exact decides_readGroup rfl rfl hpictures
    rw [if_pos hy, whenSet, if_pos (by simpa using hy), readSizes, wp_bind, wp_remaining]
    by_cases hshort : left.length * 8 < 4 * ((b >>> 5) + 1).toNat
    · rw [if_pos hshort, wp_throw]
      exact iff_of_false Bool.false_ne_true (not_not_intro (Or.inl hshort))
    rw [if_neg hshort]
    by_cases henough : 4 * ((b >>> 5) + 1).toNat ≤ left.length
    · apply wp_readResolutions_of_le (by simp) (by simp) henough
      intro width height done'
      have hrest : (left.length * 8 < 4 * ((b >>> 5) + 1).toNat ∨
            4 * ((b >>> 5) + 1).toNat ≤ left.length ∧
              GroupReadable (((b >>> 1) &&& 0x7) ≠ 0) (left.drop (4 * ((b >>> 5) + 1).toNat))) ↔
          GroupReadable (((b >>> 1) &&& 0x7) ≠ 0) (left.drop (4 * ((b >>> 5) + 1).toNat)) :=
        ⟨fun h => (h.resolve_left hshort).2, fun h => Or.inr ⟨henough, h⟩⟩
      exact Decides.congr hrest (decides_readGroup rfl rfl hpictures)
    · refine wp_readResolutions_of_lt (by simp) (by simp) (Nat.lt_of_not_le henough) fun _ => ?_
      refine iff_of_true rfl ?_
      rintro (hlt | ⟨hle, _⟩)
      · exact hshort hlt
      · exact henough hle

end

/-! ### The parts before it -/

section

variable {done left : Bytes}

/-- The parts before the scalability structure leave alone what the later ones look at. -/
structure SameFlags (h h' : Vp9Header) : Prop where
  l : h'.l = h.l
  f : h'.f = h.f
  p : h'.p = h.p
  v : h'.v = h.v
  pgpdiff : h'.pgpdiff = h.pgpdiff

/-- And those before the references leave alone these. -/
structure SameRefs (h h' : Vp9Header) : Prop extends SameFlags h h' where
  pdiff : h'.pdiff = h.pdiff

theorem SameRefs.refl (h : Vp9Header) : SameRefs h h := ⟨⟨rfl, rfl, rfl, rfl, rfl⟩, rfl⟩

/-- A part that reads what a function takes off the front, keeps what a relation says and never
    panics. -/
def Skips (Same : Vp9Header → Vp9Header → Prop) (f : Bytes → Option Bytes) (h : Vp9Header)
    (p : Vp9Header → Parser Vp9Header) : Prop :=
  ∀ done left, wp (p h)
    (fun h' s => ∃ done' left', f left = some left' ∧ s = past done' left' ∧ Same h h')
    (fun e _ => f left = none ∧ e.isPanic = false) (past done left)

theorem Skips.whenSet {Same : Vp9Header → Vp9Header → Prop} {f : Bytes → Option Bytes}
    {h : Vp9Header} {p : Vp9Header → Parser Vp9Header} (hp : Skips Same f h p) (hsame : Same h h)
    (present : Bool) : Skips Same (behind present f) h (whenSet present p) := by
  intro done left
  cases present with
  | false =>
    rw [Vp9.whenSet, if_neg Bool.false_ne_true, wp_pure]
    exact ⟨done, left, rfl, rfl, hsame⟩
  | true => exact hp done left

theorem skips_parsePictureId (h : Vp9Header) : Skips SameRefs behindPictureId h parsePictureId := by
  intro done left
  rw [parsePictureId, wp_bind]
  cases left with
  | nil =>
    rw [wp_checkShort_nil]
    exact ⟨rfl, rfl⟩
  | cons b left =>
    rw [wp_checkShort_cons, wp_bind, wp_getU8_cons, behindPictureId.eq_def]
    dsimp only
    by_cases hlong : (b &&& 0x80) ≠ 0
    case neg =>
      rw [if_neg hlong, if_neg hlong, wp_pure]
      exact ⟨_, left, rfl, rfl, ⟨⟨rfl, rfl, rfl, rfl, rfl⟩, rfl⟩⟩
    rw [if_pos hlong, if_pos hlong, wp_bind]
    cases left with
    | nil =>
      rw [wp_checkShort_nil]
      exact ⟨rfl, rfl⟩
    | cons lo left =>
      rw [wp_checkShort_cons, wp_bind, wp_getU8_cons, wp_pure]
      exact ⟨_, left, rfl, rfl, ⟨⟨rfl, rfl, rfl, rfl, rfl⟩, rfl⟩⟩

theorem skips_parseLayerInfo (h : Vp9Header) :
    Skips SameRefs (behindLayerInfo h.f) h parseLayerInfo := by
  intro done left
  rw [parseLayerInfo, wp_bind, parseLayerInfoCommon, wp_bind]
  match left with
  | [] =>
    rw [wp_checkShort_nil]
    exact ⟨rfl, rfl⟩
  | b :: left =>
    rw [wp_checkShort_cons, wp_bind, wp_getU8_cons, behindLayerInfo.eq_def]
    dsimp only
    by_cases hspatial : maxSpatialLayers ≤ (b >>> 1) &&& 0x7
    · rw [if_pos hspatial, if_pos hspatial, wp_throw]
      exact ⟨rfl, rfl⟩
    rw [if_neg hspatial, if_neg hspatial, wp_pure]
    by_cases hf : h.f
    · rw [if_pos hf, if_pos hf, wp_pure]
      exact ⟨_, left, rfl, rfl, ⟨⟨rfl, rfl, rfl, rfl, rfl⟩, rfl⟩⟩
    rw [if_neg hf, if_neg hf, parseLayerInfoNonFlexibleMode, wp_bind]
    match left with
    | [] =>
      rw [wp_checkShort_nil]
      exact ⟨rfl, rfl⟩
    | tl0 :: left =>
      rw [wp_checkShort_cons, wp_bind, wp_getU8_cons, wp_pure]
      exact ⟨_, left, rfl, rfl, ⟨⟨rfl, rfl, rfl, rfl, rfl⟩, rfl⟩⟩

theorem skips_refLoop {rounds : Nat} {h : Vp9Header}
    (hrounds : h.pdiff.length + rounds = maxVp9RefPics) :
    Skips SameFlags (behindRefs rounds) h (refLoop rounds) := by
  induction rounds generalizing h with
  | zero => exact fun _ _ => ⟨rfl, rfl⟩
  | succ rounds ih =>
    intro done left
    rw [refLoop, wp_bind]
    match left with
    | [] =>
      rw [wp_checkShort_nil]
      exact ⟨rfl, rfl⟩
    | b :: left =>
      rw [wp_checkShort_cons, wp_bind, wp_getU8_cons, behindRefs]
      dsimp only
      rw [List.length_append, List.length_singleton]
      by_cases hlast : rounds = 0
      · rw [if_pos (by omega), if_pos hlast, wp_throw]
        exact ⟨rfl, rfl⟩
      rw [if_neg (by omega), if_neg hlast]
      by_cases hnext : (b &&& 0x1) ≠ 0
      · rw [if_pos hnext, if_pos hnext]
        have hrest : (h.pdiff ++ [b >>> 1]).length + rounds = maxVp9RefPics := by
          rw [List.length_append, List.length_singleton]
          omega
        refine wp_mono (ih hrest (done ++ [b]) left) ?_ (fun _ _ he => he)
        rintro h' s ⟨done', left', hleft, hs, hsame⟩
        exact ⟨done', left', hleft, hs, ⟨hsame.l, hsame.f, hsame.p, hsame.v, hsame.pgpdiff⟩⟩
      · rw [if_neg hnext, if_neg hnext, wp_pure]
        exact ⟨_, left, rfl, rfl, ⟨rfl, rfl, rfl, rfl, rfl⟩⟩

end

/-! ### The whole parser -/

/-- The loop has rounds enough. -/
theorem refLoop_add (extra : Nat) {rounds : Nat} {h : Vp9Header}
    (hrounds : h.pdiff.length + (rounds + 1) = maxVp9RefPics) :
    refLoop (rounds + 1 + extra) h = refLoop (rounds + 1) h := by
  induction rounds generalizing h with
  | zero =>
    have hlast : ∀ b : UInt8, maxVp9RefPics ≤ (h.pdiff ++ [b]).length := by
      intro b
      rw [List.length_append, List.length_singleton]
      omega
    rw [Nat.add_right_comm, refLoop, refLoop]
    simp only [if_pos (hlast _)]
  | succ rounds ih =>
    have hnext : ∀ b : UInt8, (h.pdiff ++ [b]).length + (rounds + 1) = maxVp9RefPics := by
      intro b
      rw [List.length_append, List.length_singleton]
      omega
    rw [Nat.add_right_comm, refLoop, refLoop]
    refine bind_congr fun _ => bind_congr fun b => ?_
    dsimp only
    rw [ih (h := { h with pdiff := h.pdiff ++ [b >>> 1] }) (hnext _)]

theorem decides_parseFrom (payload : Bytes) :
    Decides (∀ ss, scalability payload = some ss → Readable ss) (parseFrom payload)
      (past [] payload) := by
  cases payload with
  | nil => exact decides_of_short (fun _ h => by cases h) rfl
  | cons first left =>
    rw [Decides, parseFrom, if_neg (by simp), wp_bind, wp_getU8_cons, wp_bind]
    -- A part that fails is one that is not behind the header.
    have hnone : ∀ {e : Fault}, behindHeader (required first) left = none →
        e.isPanic = false →
        (e.isPanic = true ↔ ¬∀ ss, scalability (first :: left) = some ss → Readable ss) := by
      intro e hbehind hpanic
      rw [hpanic]
      refine iff_of_false Bool.false_ne_true (not_not_intro ?_)
      intro ss hss
      rw [scalability, hbehind, ite_self] at hss
      cases hss
    refine wp_mono ((skips_parsePictureId _).whenSet (.refl _) _ ([] ++ [first]) left) ?_ ?_
    · rintro h - ⟨done₁, left₁, hleft₁, rfl, hsame₁⟩
      rw [parseLayers, wp_bind]
      refine wp_mono ((skips_parseLayerInfo h).whenSet (.refl h) h.l done₁ left₁) ?_ ?_
      · rintro h' - ⟨done₂, left₂, hleft₂, rfl, hsame₂⟩
        rw [wp_bind]
        have hempty : h'.pdiff.length + maxVp9RefPics = maxVp9RefPics := by
          rw [hsame₂.pdiff, hsame₁.pdiff]
          rfl
        refine wp_mono ((skips_refLoop hempty).whenSet (SameRefs.refl h').toSameFlags (h'.f && h'.p) done₂ left₂) ?_ ?_
        · rintro h'' - ⟨done₃, left₃, hleft₃, rfl, hsame₃⟩
          have hflags : h'.f = (required first).f ∧ h'.p = (required first).p :=
            ⟨hsame₂.f.trans hsame₁.f, hsame₂.p.trans hsame₁.p⟩
          have hv : h''.v = (required first).v := (hsame₃.v.trans hsame₂.v).trans hsame₁.v
          have hpictures : h''.pgpdiff = [] :=
            (hsame₃.pgpdiff.trans hsame₂.pgpdiff).trans hsame₁.pgpdiff
          rw [hflags.1, hflags.2] at hleft₃
          have hbehind : behindHeader (required first) left = some left₃ := by
            rw [behindHeader, hleft₁]
            rw [hsame₁.l, hsame₁.f] at hleft₂
            exact (congrArg (· >>= _) hleft₂).trans hleft₃
          rw [wp_bind, hv]
          by_cases hpresent : (required first).v
          · have hiff : (∀ ss, scalability (first :: left) = some ss → Readable ss) ↔
                Readable left₃ := by
              rw [scalability, if_pos hpresent, hbehind]
              exact ⟨fun h => h left₃ rfl, fun h ss hss => Option.some.inj hss ▸ h⟩
            rw [whenSet, if_pos hpresent]
            exact wp_mono (Decides.congr hiff (decides_parseSsdata hpictures))
              (fun _ _ h => h) (fun _ _ h => h)
          · rw [whenSet, if_neg hpresent, wp_pure, wp_pure]
            intro ss hss
            rw [scalability, if_neg hpresent] at hss
            cases hss
        · rintro e - ⟨hrefs, hpanic⟩
          rw [hsame₂.f, hsame₂.p, hsame₁.f, hsame₁.p] at hrefs
          rw [hsame₁.l, hsame₁.f] at hleft₂
          refine hnone ?_ hpanic
          rw [behindHeader, hleft₁]
          exact (congrArg (· >>= _) hleft₂).trans hrefs
      · rintro e - ⟨hlayers, hpanic⟩
        rw [hsame₁.l, hsame₁.f] at hlayers
        exact hnone (by rw [behindHeader, hleft₁]; exact congrArg (· >>= _) hlayers) hpanic
    · rintro e - ⟨hpictureId, hpanic⟩
      exact hnone (by rw [behindHeader, hpictureId]; rfl) hpanic

theorem exists_parse_iff {payload : Bytes} {α : Type} {P : Prop} {p : Parser α}
    (h : Decides P p (past [] payload)) : (∃ a, parse p payload = .ok a) ↔ P := by
  rw [Decides, wp, past_nil] at h
  rw [parse]
  split at h
  case h_1 a s hrun =>
    rw [hrun]
    exact iff_of_true ⟨_, rfl⟩ h
  case h_2 e s hrun =>
    rw [hrun]
    cases e with
    | panic panic => exact iff_of_false (by rintro ⟨_, ⟨⟩⟩) (h.mp rfl)
    | _ => exact iff_of_true ⟨_, rfl⟩ (not_not.mp fun hP => by cases h.mpr hP)

/-- The parser returns on a payload exactly when its scalability structure can be read. -/
theorem parses_iff (payload : Bytes) (profile : Vp9Profile) (rotation : Option MediaOrientation) :
    (∃ m, parseRtp payload profile rotation = .ok m) ↔
      ∀ ss, scalability payload = some ss → Readable ss := by
  rw [← exists_parse_iff (decides_parseFrom payload), parseRtp]
  cases parse (parseFrom payload) payload with
  | error panic => exact iff_of_false (by rintro ⟨_, ⟨⟩⟩) (by rintro ⟨_, ⟨⟩⟩)
  | ok found => exact iff_of_true ⟨_, rfl⟩ ⟨_, rfl⟩

/-- One resolution is announced and one byte is left of its four. -/
theorem not_parses :
    ¬∀ (payload : Bytes) (profile : Vp9Profile) (rotation : Option MediaOrientation),
      ∃ m, parseRtp payload profile rotation = .ok m := by
  intro h
  obtain ⟨m, hm⟩ := h [0x02, 0x10, 0x00] .p0 none
  exact nomatch hm

end MediaServer.Transport.Payload.Vp9
