import MediaServer.Lib.Machine
import MediaServer.Lib.TaskGroup
import MediaServer.Transport.Payload.DescriptorEnd
import Mathlib.Data.List.Chain
import Mathlib.Data.List.DropRight

/-!
# The VPx demuxer

`VpxDemuxer` (`media_record/src/convert/codec/vpx_demuxer.rs`).  It appends the payloads of the
packets that it takes to a frame and returns the frame at a packet with the marker.  The
depacketizers come from the `rtp` crate and are parameters; they return what follows the
descriptor of a payload.

The timestamps of the packets play no part in it.  Where the packet with the marker is lost, the
frame goes on with the packets of the next one.
-/

namespace MediaServer.Record

open MediaServer.Transport.Payload

/-- `depacketize` of `Vp8Packet` and `Vp9Packet`; an error is `none`. -/
structure Depacketizers where
  vp8 : Bytes → Option Bytes
  vp9 : Bytes → Option Bytes

/-- The depacketizers return what follows a complete descriptor, a VP8 one only if that is not
    empty. -/
structure Depacketizers.ReadsDescriptors (dep : Depacketizers) : Prop where
  vp8 : ∀ payload left, 4 ≤ payload.length → Vp8.behindDescriptor payload = some left →
    left ≠ [] → dep.vp8 payload = some left
  vp9 : ∀ payload left, Vp9.behindDescriptor payload = some left → dep.vp9 payload = some left

structure VpxDemuxer where
  seenKeyFrame : Bool
  currentFrame : Option (Bool × Bytes)

namespace VpxDemuxer

def wrongCodec : Panic := ⟨"wrong codec"⟩
def depacketizeFailed : Panic := ⟨"called `Result::unwrap()` on an `Err` value"⟩

def new : VpxDemuxer := ⟨false, none⟩

/-- The depacketizer of a packet and its key flag, or nothing for an upper spatial layer. -/
def depacketizer (dep : Depacketizers) :
    MediaMeta → Except Panic (Option ((Bytes → Option Bytes) × Bool))
  | .opus _ => .error wrongCodec
  | .h264 .. => .error wrongCodec
  | .vp8 key sim _ =>
    match sim with
    | some sim => if sim.spatial ≠ 0 then .ok none else .ok (some (dep.vp8, key))
    | none => .ok (some (dep.vp8, key))
  | .vp9 key .. => .ok (some (dep.vp9, key))

/-- The current frame with a payload, or a new one. -/
def extend (d : VpxDemuxer) (isKeyFrame : Bool) (payload : Bytes) : Bool × Bytes :=
  match d.currentFrame with
  | some (isKey, frame) => (isKey, frame ++ payload)
  | none => (isKeyFrame, payload)

def push (dep : Depacketizers) (d : VpxDemuxer) (rtp : MediaPacket) :
    Except Panic (VpxDemuxer × Option (Bool × Bytes)) := do
  match ← depacketizer dep rtp.mediaMeta with
  | none => .ok (d, none)
  | some (depacketize, isKeyFrame) =>
    match depacketize rtp.data with
    | none => .error depacketizeFailed
    | some payload =>
      if !d.seenKeyFrame && !isKeyFrame then .ok (d, none)
      else
        let frame := d.extend isKeyFrame payload
        if !rtp.marker then .ok (⟨true, some frame⟩, none)
        else .ok (⟨true, none⟩, some frame)

end VpxDemuxer

/-! ### The packets that are taken -/

/-- A packet as the transport hands it on: its payload was accepted by the parser, which also
    made its metadata. -/
def Accepted (rtp : MediaPacket) : Prop :=
  (∃ rid rotation, Vp8.parseRtp rtp.data rid rotation = .ok (some rtp.mediaMeta)) ∨
    ∃ profile rotation, Vp9.parseRtp rtp.data profile rotation = .ok (some rtp.mediaMeta)

def inBaseLayer (rtp : MediaPacket) : Bool :=
  match rtp.mediaMeta with
  | .vp8 _ (some sim) _ => sim.spatial = 0
  | _ => true

def payloadOf (dep : Depacketizers) (rtp : MediaPacket) : Bytes :=
  match rtp.mediaMeta with
  | .vp8 .. => (dep.vp8 rtp.data).getD []
  | _ => (dep.vp9 rtp.data).getD []

def VpxDemuxer.takes (d : VpxDemuxer) (rtp : MediaPacket) : Bool :=
  inBaseLayer rtp && (d.seenKeyFrame || rtp.mediaMeta.isVideoKey)

/-- The packets of the base layer from the first key packet on. -/
def taken (packets : List MediaPacket) : List MediaPacket :=
  (packets.filter inBaseLayer).dropWhile fun rtp => !rtp.mediaMeta.isVideoKey

theorem taken_concat (packets : List MediaPacket) (rtp : MediaPacket) :
    taken (packets ++ [rtp]) = taken packets ++
      (if inBaseLayer rtp && (!(taken packets).isEmpty || rtp.mediaMeta.isVideoKey) then [rtp]
        else []) := by
  unfold taken
  rw [List.filter_append, List.dropWhile_append]
  cases hbase : inBaseLayer rtp with
  | false =>
    rw [List.filter_cons_of_neg (by simp [hbase]), List.filter_nil]
    split
    · rename_i hempty
      rw [List.isEmpty_iff.mp hempty]
      rfl
    · rfl
  | true =>
    rw [List.filter_cons_of_pos hbase, List.filter_nil]
    split
    · rename_i hempty
      rw [List.isEmpty_iff.mp hempty]
      cases hkey : rtp.mediaMeta.isVideoKey <;> simp [hkey]
    · rename_i hempty
      simp [hempty]

theorem taken_sublist (packets : List MediaPacket) : (taken packets).Sublist packets :=
  (List.dropWhile_sublist _).trans List.filter_sublist

theorem head_taken {packets : List MediaPacket} {rtp : MediaPacket}
    (h : (taken packets).head? = some rtp) : rtp.mediaMeta.isVideoKey = true := by
  have hnot := List.head?_dropWhile_not (fun rtp : MediaPacket => !rtp.mediaMeta.isVideoKey)
    (packets.filter inBaseLayer)
  unfold taken at h
  rw [h] at hnot
  simpa using hnot

/-! ### One push -/

section

variable {dep : Depacketizers} {rtp : MediaPacket}

/-- The parsers accept no payload that the depacketizers refuse. -/
theorem depacketizer_of_accepted (hdep : dep.ReadsDescriptors) (h : Accepted rtp) :
    ∃ depacketize, VpxDemuxer.depacketizer dep rtp.mediaMeta =
        .ok (if inBaseLayer rtp then some (depacketize, rtp.mediaMeta.isVideoKey) else none) ∧
      depacketize rtp.data = some (payloadOf dep rtp) := by
  rcases h with ⟨rid, rotation, h⟩ | ⟨profile, rotation, h⟩
  · obtain ⟨hlen, left, hleft, hne⟩ := Vp8.behindDescriptor_of_parseRtp h
    have hdata := hdep.vp8 _ _ hlen hleft hne
    obtain ⟨d, -, -, hmeta⟩ := Vp8.parseRtp_eq_some h
    refine ⟨dep.vp8, ?_, ?_⟩
    · rw [hmeta, inBaseLayer, hmeta, Vp8.Layout.mediaMeta]
      cases hsim : Vp8.simOf d.header rid with
      | none => rfl
      | some sim =>
        by_cases hspatial : sim.spatial = 0
        · simp [VpxDemuxer.depacketizer, MediaMeta.isVideoKey, hspatial]
        · simp [VpxDemuxer.depacketizer, hspatial]
    · rw [payloadOf, hmeta, hdata]
      rfl
  · obtain ⟨left, hleft⟩ := Vp9.behindDescriptor_of_parseRtp h
    have hdata := hdep.vp9 _ _ hleft
    obtain ⟨key, svc, hmeta, -⟩ := Vp9.parse_of_parseRtp h
    refine ⟨dep.vp9, ?_, ?_⟩
    · rw [inBaseLayer, hmeta]
      rfl
    · rw [payloadOf, hmeta, hdata]
      rfl

theorem VpxDemuxer.push_of_accepted (hdep : dep.ReadsDescriptors) (h : Accepted rtp)
    (d : VpxDemuxer) :
    d.push dep rtp = .ok (
      if d.takes rtp then
        if rtp.marker then (⟨true, none⟩, some (d.extend rtp.mediaMeta.isVideoKey (payloadOf dep rtp)))
        else (⟨true, some (d.extend rtp.mediaMeta.isVideoKey (payloadOf dep rtp))⟩, none)
      else (d, none)) := by
  obtain ⟨depacketize, hdepacketizer, hpayload⟩ := depacketizer_of_accepted hdep h
  rw [push, hdepacketizer, takes]
  cases hbase : inBaseLayer rtp with
  | false => rfl
  | true =>
    change (match depacketize rtp.data with | none => _ | some payload => _) = _
    rw [hpayload]
    cases hseen : d.seenKeyFrame <;> cases hkey : rtp.mediaMeta.isVideoKey <;>
      cases hmarker : rtp.marker <;> simp

end

/-! ### Runs -/

/-- A run of the demuxer with the packets that its frames are made of: those of the current frame,
    and the frames that were returned, each with its packets. -/
structure Demuxing where
  demuxer : VpxDemuxer
  parts : List MediaPacket
  frames : List ((Bool × Bytes) × List MediaPacket)

namespace Demuxing

def start : Demuxing := ⟨.new, [], []⟩

def push (dep : Depacketizers) (s : Demuxing) (rtp : MediaPacket) : Except Panic Demuxing := do
  let (demuxer, returned) ← s.demuxer.push dep rtp
  let parts := if s.demuxer.takes rtp then s.parts ++ [rtp] else s.parts
  match returned with
  | none => .ok ⟨demuxer, parts, s.frames⟩
  | some frame => .ok ⟨demuxer, [], s.frames ++ [(frame, parts)]⟩

def pushAll (dep : Depacketizers) (packets : List MediaPacket) : Except Panic Demuxing :=
  packets.foldlM (push dep) start

end Demuxing

/-- The payloads of the packets, one after the other, and the key flag of the first one. -/
def frameOf (dep : Depacketizers) (first : MediaPacket) (rest : List MediaPacket) : Bool × Bytes :=
  (first.mediaMeta.isVideoKey, (first :: rest).flatMap (payloadOf dep))

theorem frameOf_concat (dep : Depacketizers) (first : MediaPacket) (rest : List MediaPacket)
    (rtp : MediaPacket) :
    frameOf dep first (rest ++ [rtp]) =
      ((frameOf dep first rest).1, (frameOf dep first rest).2 ++ payloadOf dep rtp) := by
  rw [frameOf, frameOf, ← List.cons_append, List.flatMap_append, List.flatMap_singleton]

/-- A frame of these packets; the last of them, and no other, has the marker. -/
structure Closed (dep : Depacketizers) (frame : Bool × Bytes) (parts : List MediaPacket) : Prop where
  made : ∃ first rest, parts = first :: rest ∧ frame = frameOf dep first rest
  marked : ∃ before last, parts = before ++ [last] ∧ last.marker = true ∧
    ∀ rtp ∈ before, rtp.marker = false

/-- What a run keeps, whatever it is pushed. -/
structure Demuxing.Keeps (dep : Depacketizers) (packets : List MediaPacket) (s : Demuxing) : Prop
    where
  taken : s.frames.flatMap (·.2) ++ s.parts = taken packets
  seen : s.demuxer.seenKeyFrame = !(Record.taken packets).isEmpty
  current : s.demuxer.currentFrame = match s.parts with
    | [] => none
    | first :: rest => some (frameOf dep first rest)
  unmarked : ∀ rtp ∈ s.parts, rtp.marker = false
  closed : ∀ entry ∈ s.frames, Closed dep entry.1 entry.2

namespace Demuxing

variable {dep : Depacketizers} {packets : List MediaPacket} {s : Demuxing} {rtp : MediaPacket}

theorem keeps_start : Keeps dep [] start where
  taken := rfl
  seen := rfl
  current := rfl
  unmarked _ hmem := nomatch hmem
  closed _ hmem := nomatch hmem

theorem Keeps.takes_eq (h : Keeps dep packets s) :
    s.demuxer.takes rtp =
      (inBaseLayer rtp && (!(Record.taken packets).isEmpty || rtp.mediaMeta.isVideoKey)) := by
  rw [VpxDemuxer.takes, h.seen]

/-- The frame that a packet is appended to, or that it opens. -/
theorem Keeps.extend_eq (h : Keeps dep packets s) (rtp : MediaPacket) :
    ∃ first rest, s.parts ++ [rtp] = first :: rest ∧
      s.demuxer.extend rtp.mediaMeta.isVideoKey (payloadOf dep rtp) = frameOf dep first rest := by
  have hcurrent := h.current
  unfold VpxDemuxer.extend
  cases hparts : s.parts with
  | nil =>
    rw [hparts] at hcurrent
    rw [hcurrent]
    exact ⟨rtp, [], rfl, by simp [frameOf]⟩
  | cons first rest =>
    rw [hparts] at hcurrent
    rw [hcurrent]
    exact ⟨first, rest ++ [rtp], rfl, (frameOf_concat dep first rest rtp).symm⟩

/-- The run goes on at every packet that the parsers accepted. -/
theorem Keeps.push (h : Keeps dep packets s) (hdep : dep.ReadsDescriptors) (hrtp : Accepted rtp) :
    ∃ s', s.push dep rtp = .ok s' ∧ Keeps dep (packets ++ [rtp]) s' := by
  rw [Demuxing.push, VpxDemuxer.push_of_accepted hdep hrtp]
  have htaken := taken_concat packets rtp
  rw [← h.takes_eq] at htaken
  cases htakes : s.demuxer.takes rtp with
  | false =>
    rw [htakes, if_neg Bool.false_ne_true, List.append_nil] at htaken
    refine ⟨s, rfl, ?_, ?_, h.current, h.unmarked, h.closed⟩
    · rw [htaken, h.taken]
    · rw [htaken, h.seen]
  | true =>
    rw [htakes, if_pos rfl] at htaken
    obtain ⟨first, rest, hparts, hframe⟩ := h.extend_eq rtp
    have hseen : true = !(Record.taken (packets ++ [rtp])).isEmpty := by simp [htaken]
    rw [hframe]
    cases hmarker : rtp.marker with
    | false =>
      refine ⟨⟨⟨true, some (frameOf dep first rest)⟩, s.parts ++ [rtp], s.frames⟩, rfl, ?_, hseen,
        ?_, ?_, h.closed⟩
      · rw [htaken, ← h.taken, List.append_assoc]
      · dsimp only
        rw [hparts]
      · intro part hmem
        rcases List.mem_append.mp hmem with hold | hnew
        · exact h.unmarked part hold
        · rw [List.mem_singleton.mp hnew]
          exact hmarker
    | true =>
      refine ⟨⟨⟨true, none⟩, [], s.frames ++ [(frameOf dep first rest, s.parts ++ [rtp])]⟩, rfl, ?_,
        hseen, rfl, fun _ hmem => (nomatch hmem), ?_⟩
      · rw [htaken, ← h.taken]
        simp
      · intro entry hmem
        rcases List.mem_append.mp hmem with hold | hnew
        · exact h.closed entry hold
        · rw [List.mem_singleton.mp hnew]
          exact ⟨⟨first, rest, hparts, rfl⟩, s.parts, rtp, rfl, hmarker, h.unmarked⟩

theorem keeps_pushAll (hdep : dep.ReadsDescriptors) (h : ∀ rtp ∈ packets, Accepted rtp) :
    ∃ s, pushAll dep packets = .ok s ∧ Keeps dep packets s := by
  induction packets using List.reverseRecOn with
  | nil => exact ⟨start, rfl, keeps_start⟩
  | append_singleton packets rtp ih =>
    obtain ⟨s, hs, hkeeps⟩ := ih fun p hmem => h p (List.mem_append_left _ hmem)
    obtain ⟨s', hs', hkeeps'⟩ := hkeeps.push hdep (h rtp (by simp))
    refine ⟨s', ?_, hkeeps'⟩
    rw [pushAll, List.foldlM_append, ← pushAll, hs]
    change List.foldlM (Demuxing.push dep) s [rtp] = _
    rw [List.foldlM_cons, hs']
    rfl

end Demuxing

/-! ### One time in a frame -/

/-- The packets up to the last one with the marker. -/
def completed (packets : List MediaPacket) : List MediaPacket :=
  packets.rdropWhile fun rtp => !rtp.marker

/-- Each packet has the marker, or it is followed by one of its own time. -/
def Marked (packets : List MediaPacket) : Prop :=
  packets.IsChain fun rtp next => rtp.marker = true ∨ rtp.ts = next.ts

def OneTime (parts : List MediaPacket) : Prop := ∀ p ∈ parts, ∀ q ∈ parts, p.ts = q.ts

theorem completed_append {xs ys : List MediaPacket} (h : ∀ rtp ∈ ys, rtp.marker = false) :
    completed (xs ++ ys) = completed xs := by
  induction ys using List.reverseRecOn with
  | nil => rw [List.append_nil]
  | append_singleton ys rtp ih =>
    have hmarker : rtp.marker = false := h rtp (by simp)
    rw [completed, ← List.append_assoc, List.rdropWhile_concat_pos _ _ _ (by simp [hmarker])]
    exact ih fun p hmem => h p (List.mem_append_left _ hmem)

theorem marked_concat_iff {before : List MediaPacket} {last : MediaPacket}
    (h : ∀ rtp ∈ before, rtp.marker = false) :
    Marked (before ++ [last]) ↔ ∀ rtp ∈ before, rtp.ts = last.ts := by
  induction before with
  | nil => exact iff_of_true (.singleton _) (fun _ hmem => nomatch hmem)
  | cons rtp before ih =>
    obtain ⟨hmarker, hbefore⟩ := List.forall_mem_cons.mp h
    rw [List.forall_mem_cons, ← ih hbefore, Marked, List.cons_append, List.isChain_cons]
    refine and_congr_left fun hrest => ?_
    have htimes := (ih hbefore).mp hrest
    cases before with
    | nil => simp [hmarker]
    | cons next before =>
      have hnext : next.ts = last.ts := htimes next List.mem_cons_self
      simp [hmarker, hnext]

theorem oneTime_concat_iff {before : List MediaPacket} {last : MediaPacket} :
    OneTime (before ++ [last]) ↔ ∀ rtp ∈ before, rtp.ts = last.ts := by
  constructor
  · exact fun h rtp hmem => h rtp (List.mem_append_left _ hmem) last (by simp)
  · intro h
    have hlast : ∀ rtp ∈ before ++ [last], rtp.ts = last.ts := by
      intro rtp hmem
      rcases List.mem_append.mp hmem with hold | hnew
      · exact h rtp hold
      · rw [List.mem_singleton.mp hnew]
    exact fun p hp q hq => (hlast p hp).trans (hlast q hq).symm

theorem completed_frames {dep : Depacketizers} {frames : List ((Bool × Bytes) × List MediaPacket)}
    (h : ∀ entry ∈ frames, Closed dep entry.1 entry.2) :
    completed (frames.flatMap (·.2)) = frames.flatMap (·.2) := by
  rcases List.eq_nil_or_concat frames with rfl | ⟨frames, entry, rfl⟩
  · rfl
  · obtain ⟨before, last, hparts, hmarker, -⟩ := (h entry (by simp)).marked
    rw [List.concat_eq_append, List.flatMap_append, List.flatMap_singleton, hparts,
      ← List.append_assoc]
    exact List.rdropWhile_concat_neg _ _ _ (by simp [hmarker])

/-- The last packet of a frame has the marker, so the next frame may have a time of its own. -/
theorem marked_frames_iff {dep : Depacketizers} {frames : List ((Bool × Bytes) × List MediaPacket)}
    (h : ∀ entry ∈ frames, Closed dep entry.1 entry.2) :
    Marked (frames.flatMap (·.2)) ↔ ∀ entry ∈ frames, OneTime entry.2 := by
  induction frames with
  | nil => exact iff_of_true .nil (fun _ hmem => nomatch hmem)
  | cons entry frames ih =>
    obtain ⟨hentry, hframes⟩ := List.forall_mem_cons.mp h
    obtain ⟨before, last, hparts, hmarker, hunmarked⟩ := hentry.marked
    have hjunction : ∀ p ∈ entry.2.getLast?, ∀ q ∈ (frames.flatMap (·.2)).head?,
        p.marker = true ∨ p.ts = q.ts := by
      intro p hp q hq
      rw [hparts, List.getLast?_concat, Option.mem_some_iff] at hp
      rw [← hp]
      exact Or.inl hmarker
    have hfirst : Marked entry.2 ↔ OneTime entry.2 := by
      rw [hparts, marked_concat_iff hunmarked, oneTime_concat_iff]
    rw [List.forall_mem_cons, ← ih hframes, ← hfirst, List.flatMap_cons, Marked,
      List.isChain_append]
    exact ⟨fun hall => ⟨hall.1, hall.2.1⟩, fun hboth => ⟨hboth.1, hboth.2, hjunction⟩⟩

/-! ### The frames of a recording -/

/-- What the frames of a run are to be: made in order of the packets that were pushed, each of
    packets of one time and with the key flag of the first of them, and the first one a key
    frame. -/
structure Demuxing.Right (dep : Depacketizers) (packets : List MediaPacket) (s : Demuxing) : Prop
    where
  order : (s.frames.flatMap (·.2)).Sublist packets
  made : ∀ entry ∈ s.frames, ∃ first rest, entry.2 = first :: rest ∧
    entry.1 = frameOf dep first rest
  oneTime : ∀ entry ∈ s.frames, OneTime entry.2
  key : ∀ entry ∈ s.frames.head?, entry.1.1 = true

def FramesRight (dep : Depacketizers) (packets : List MediaPacket) : Prop :=
  ∃ s, Demuxing.pushAll dep packets = .ok s ∧ s.Right dep packets

/-- Of the packets that are taken, up to the last one with the marker, each without it is followed
    by one of its own time. -/
def MarkersArrive (packets : List MediaPacket) : Prop := Marked (completed (taken packets))

namespace Demuxing.Keeps

variable {dep : Depacketizers} {packets : List MediaPacket} {s : Demuxing}

theorem order (h : s.Keeps dep packets) : (s.frames.flatMap (·.2)).Sublist packets := by
  have hprefix : (s.frames.flatMap (·.2)).Sublist (Record.taken packets) := by
    rw [← h.taken]
    exact List.sublist_append_left _ _
  exact hprefix.trans (taken_sublist packets)

theorem key (h : s.Keeps dep packets) : ∀ entry ∈ s.frames.head?, entry.1.1 = true := by
  intro entry hmem
  obtain ⟨frames, hframes⟩ : ∃ frames, s.frames = entry :: frames :=
    List.head?_eq_some_iff.mp (Option.mem_def.mp hmem)
  obtain ⟨first, rest, hparts, hframe⟩ := (h.closed entry (by simp [hframes])).made
  have htaken := h.taken
  rw [hframes, List.flatMap_cons, hparts] at htaken
  rw [hframe]
  exact head_taken (by rw [← htaken]; rfl)

theorem markersArrive_iff (h : s.Keeps dep packets) :
    MarkersArrive packets ↔ ∀ entry ∈ s.frames, OneTime entry.2 := by
  rw [MarkersArrive, ← h.taken, completed_append h.unmarked, completed_frames h.closed,
    marked_frames_iff h.closed]

end Demuxing.Keeps

/-- **Frames are not merged** exactly when the markers arrive. -/
theorem framesRight_iff {dep : Depacketizers} (hdep : dep.ReadsDescriptors)
    {packets : List MediaPacket} (h : ∀ rtp ∈ packets, Accepted rtp) :
    FramesRight dep packets ↔ MarkersArrive packets := by
  obtain ⟨s, hs, hkeeps⟩ := Demuxing.keeps_pushAll hdep h
  rw [hkeeps.markersArrive_iff]
  constructor
  · rintro ⟨s', hs', hright⟩
    rw [hs] at hs'
    rw [Except.ok.inj hs']
    exact hright.oneTime
  · exact fun htimes => ⟨s, hs, hkeeps.order, fun entry hmem => (hkeeps.closed entry hmem).made,
      htimes, hkeeps.key⟩

/-! ### Two frames of a track -/

/-- What follows the descriptors, as the depacketizers return it. -/
def standard : Depacketizers where
  vp8 payload :=
    if payload.length < 4 then none else (Vp8.behindDescriptor payload).filter (· ≠ [])
  vp9 := Vp9.behindDescriptor

theorem standard_readsDescriptors : standard.ReadsDescriptors where
  vp8 payload left hlen hleft hne := by
    change (if payload.length < 4 then none else _) = _
    rw [if_neg (Nat.not_lt_of_le hlen), hleft]
    simp [hne]
  vp9 _ _ h := h

def vp8Packet (ts : UInt32) (marker key : Bool) (data : Bytes) : MediaPacket :=
  { ts := ts, seq := 0, marker := marker, nackable := true, layers := none
    mediaMeta := .vp8 key none none, data := data }

/-- A key frame of two packets and a frame of one. -/
def keyStart : MediaPacket := vp8Packet 0 false true [0x10, 0x00, 0x01, 0x02]
def keyEnd : MediaPacket := vp8Packet 0 true false [0x00, 0x03, 0x04, 0x05]
def delta : MediaPacket := vp8Packet 3000 true false [0x10, 0x01, 0x06, 0x07]

theorem accepted_track : ∀ rtp ∈ [keyStart, keyEnd, delta], Accepted rtp := by
  intro rtp hmem
  refine Or.inl ⟨none, none, ?_⟩
  simp only [List.mem_cons, List.not_mem_nil, or_false] at hmem
  rcases hmem with rfl | rfl | rfl
  · rfl
  · rfl
  · rfl

theorem framesRight_track : FramesRight standard [keyStart, keyEnd, delta] :=
  (framesRight_iff standard_readsDescriptors accepted_track).mpr
    (.cons_cons (Or.inr rfl) (.cons_cons (Or.inl rfl) (.singleton _)))

/-- The second packet is lost, and its frame goes on with the third. -/
theorem not_framesRight_lostMarker :
    ¬∀ (dep : Depacketizers) (sent received : List MediaPacket), dep.ReadsDescriptors →
      (∀ rtp ∈ sent, Accepted rtp) → Marked sent → received.Sublist sent →
        FramesRight dep received := by
  intro h
  have hmarked : Marked [keyStart, keyEnd, delta] :=
    .cons_cons (Or.inr rfl) (.cons_cons (Or.inl rfl) (.singleton _))
  have hlost : [keyStart, delta].Sublist [keyStart, keyEnd, delta] :=
    .cons_cons _ (.cons _ (.refl _))
  obtain ⟨s, hs, hright⟩ :=
    h standard _ _ standard_readsDescriptors accepted_track hmarked hlost
  have hrun : Demuxing.pushAll standard [keyStart, delta] = .ok ⟨⟨true, none⟩, [],
      [((true, [0x00, 0x01, 0x02, 0x01, 0x06, 0x07]), [keyStart, delta])]⟩ := rfl
  rw [hrun] at hs
  have htimes := hright.oneTime _ (by rw [← Except.ok.inj hs]; exact List.mem_singleton_self _)
  exact absurd (htimes keyStart (by simp) delta (by simp)) (by decide)

end MediaServer.Record
