import MediaServer.Endpoint.Selector.Vp9Svc
import MediaServer.Lib.Execution

/-!
# Layers change at the end of a frame

A layer frame is many packets, and a change of the current layer in the middle of one forwards
the frame in part.  So a change without a key frame waits until the packet before has ended a
frame, which the selector reads from `preEndFrame`.

The flag tells of the last packet that *met* a pending change.  While no change is pending the
packets pass it by, and when the next change becomes pending in the middle of a frame the flag may
be left over from a frame long before.
-/

namespace MediaServer.Endpoint.Vp9Svc

open Execution

namespace Selector

/-! ### What a packet does to the current layer -/

/-- A change is pending. -/
def Pending (s : Selector) : Prop := s.target ≠ s.current

instance (s : Selector) : Decidable s.Pending := inferInstanceAs (Decidable (_ ≠ _))

/-- The pending change may happen at a packet that is not a key packet: down at once, up at a
    switching point of the current spatial layer. -/
def MayChange (s : Selector) (svc : Vp9Svc) : Prop :=
  match s.current, s.target with
  | some current, some target =>
    if target.spatial = current.spatial then
      target.temporal < current.temporal ∨ current.temporal < target.temporal ∧
        svc.spatial = current.spatial ∧ current.temporal < svc.temporal ∧ svc.switchingPoint
    else if target.spatial < current.spatial then current.temporal ≠ 0 ∨ ¬ s.kSvc
    else svc.spatial = current.spatial ∧ current.temporal < svc.temporal ∧ current.temporal ≠ 2 ∧
      svc.switchingPoint
  | some _, none => True
  | none, _ => False

/-- Another temporal layer is another layer. -/
theorem temporal_ne {current : MediaLayerSelection} {temporal : UInt8} :
    some { current with temporal } ≠ some current ↔ temporal ≠ current.temporal := by
  rw [Ne, Option.some.injEq, MediaLayerSelection.mk.injEq]
  simp

theorem spatial_ne {current target : MediaLayerSelection}
    (h : target.spatial ≠ current.spatial) : some target ≠ some current := by
  intro heq
  apply h
  rw [Option.some.inj heq]

section

variable {s : Selector} {ctx : VideoSelectorCtx} {svc : Vp9Svc}
  {current target : MediaLayerSelection}

theorem move_temporal_ne (hcurrent : s.current = some current) (htarget : s.target = some target)
    (hsame : target.spatial = current.spatial) :
    (s.move ctx false svc current target).1.current ≠ s.current ↔
      s.preEndFrame ∧ s.MayChange svc := by
  simp only [MayChange, hcurrent, htarget, move, if_pos hsame]
  have hne : current.temporal < target.temporal ∨ target.temporal < current.temporal →
      target.temporal ≠ current.temporal := by
    intro hlt heq
    rw [heq] at hlt
    rcases hlt with hlt | hlt
    · exact UInt8.lt_irrefl _ hlt
    · exact UInt8.lt_irrefl _ hlt
  by_cases hup : current.temporal < target.temporal
  · have hdown : ¬ target.temporal < current.temporal := UInt8.lt_asymm hup
    rw [if_pos hup]
    split
    · simp only [temporal_ne]
      tauto
    · simp only [hcurrent, ne_eq, not_true_eq_false, false_iff]
      tauto
  · rw [if_neg hup]
    split
    · split
      · simp only [temporal_ne]
        tauto
      · simp only [hcurrent, ne_eq, not_true_eq_false, false_iff]
        tauto
    · simp only [hcurrent, ne_eq, not_true_eq_false, false_iff]
      tauto

theorem move_down_ne (hcurrent : s.current = some current) (htarget : s.target = some target)
    (hdown : target.spatial < current.spatial) :
    (s.move ctx false svc current target).1.current ≠ s.current ↔
      s.preEndFrame ∧ s.MayChange svc := by
  have hother : target.spatial ≠ current.spatial := UInt8.ne_of_lt hdown
  simp only [MayChange, hcurrent, htarget, move, if_neg hother, if_pos hdown]
  cases hend : s.preEndFrame with
  | false =>
    cases hk : s.kSvc with
    | false => simp [hend, hk, hcurrent]
    | true => simp [hend, hk, hcurrent, push]
  | true =>
    by_cases hzero : current.temporal = 0
    · cases hk : s.kSvc with
      | false => simpa [hzero, hend, hk] using spatial_ne hother
      | true => simp [hzero, hend, hk, hcurrent, push]
    · have hlow : some { current with temporal := 0 } ≠ some current :=
        temporal_ne.mpr (Ne.symm hzero)
      cases hk : s.kSvc with
      | false => simpa [hzero, hend, hk] using spatial_ne hother
      | true => simpa [hzero, hend, hk, push] using hlow

theorem move_up_ne (hcurrent : s.current = some current) (htarget : s.target = some target)
    (hup : current.spatial < target.spatial) :
    (s.move ctx false svc current target).1.current ≠ s.current ↔
      s.preEndFrame ∧ s.MayChange svc := by
  have hother : target.spatial ≠ current.spatial := UInt8.ne_of_lt hup |>.symm
  have hdown : ¬ target.spatial < current.spatial := UInt8.lt_asymm hup
  simp only [MayChange, hcurrent, htarget, move, if_neg hother, if_neg hdown, Bool.false_eq_true,
    if_false, push]
  split
  · rename_i hpoint
    have hhigh : some { current with temporal := 2 } ≠ some current :=
      temporal_ne.mpr hpoint.2.2.1.symm
    simp only [ne_eq, hhigh, not_false_eq_true, true_iff]
    tauto
  · simp only [hcurrent, ne_eq, not_true_eq_false, false_iff]
    tauto

/-- Without a key frame the layer moves exactly when it may and the flag is set. -/
theorem change_current_ne :
    (s.change ctx false svc).1.current ≠ s.current ↔ s.preEndFrame ∧ s.MayChange svc := by
  rcases hcurrent : s.current with _ | current
  · rcases htarget : s.target with _ | target
    · simp [change, MayChange, hcurrent, htarget]
    · simp [change, MayChange, hcurrent, htarget]
  · rcases htarget : s.target with _ | target
    · cases hend : s.preEndFrame with
      | false => simp [change, MayChange, hcurrent, htarget, hend]
      | true => simp [change, MayChange, hcurrent, htarget, hend]
    · have hmove : s.change ctx false svc = s.move ctx false svc current target := by
        simp only [change, hcurrent, htarget]
      rw [hmove, ← hcurrent]
      by_cases hsame : target.spatial = current.spatial
      · exact move_temporal_ne hcurrent htarget hsame
      · rcases UInt8.lt_or_lt_of_ne hsame with hdown | hup
        · exact move_down_ne hcurrent htarget hdown
        · exact move_up_ne hcurrent htarget hup

end

/-- What `try_switch` leaves behind, at a packet of the stream. -/
theorem trySwitch_preEndFrame (s : Selector) (ctx : VideoSelectorCtx) {pkt : MediaPacket}
    {key : Bool} {profile : Vp9Profile} {svc : Vp9Svc} {rotation : Option MediaOrientation}
    (hmeta : pkt.mediaMeta = .vp9 key profile (some svc) rotation) :
    (s.trySwitch ctx pkt).1.preEndFrame = if s.Pending then svc.endFrame else s.preEndFrame := by
  by_cases hpending : s.Pending
  · rw [if_pos hpending, trySwitch, if_neg hpending]
    simp only [hmeta]
  · rw [if_neg hpending, trySwitch, if_pos (not_not.mp hpending)]

theorem trySwitch_current_ne (s : Selector) (ctx : VideoSelectorCtx) {pkt : MediaPacket}
    {profile : Vp9Profile} {svc : Vp9Svc} {rotation : Option MediaOrientation}
    (hmeta : pkt.mediaMeta = .vp9 false profile (some svc) rotation) :
    (s.trySwitch ctx pkt).1.current ≠ s.current ↔
      s.Pending ∧ s.preEndFrame ∧ s.MayChange svc := by
  simp only [trySwitch, hmeta, Pending]
  by_cases hsame : s.target = s.current
  · rw [if_pos hsame]
    simp [hsame]
  · rw [if_neg hsame]
    exact change_current_ne.trans (and_iff_right hsame).symm

end Selector

/-! ### A selector and its packets -/

/-- What the header of an SVC packet says of its layers. -/
def svcOf (pkt : MediaPacket) : Option Vp9Svc :=
  match pkt.mediaMeta with
  | .vp9 _ _ svc _ => svc
  | _ => none

/-- A packet of a VP9 SVC stream. -/
abbrev SvcPacket := {pkt : MediaPacket // (svcOf pkt).isSome}

namespace SvcPacket

def svc (pkt : SvcPacket) : Vp9Svc := (svcOf pkt.val).get pkt.property

def isKey (pkt : SvcPacket) : Bool := pkt.val.mediaMeta.isVideoKey

theorem eq_of_meta (pkt : SvcPacket) :
    ∃ profile rotation, pkt.val.mediaMeta = .vp9 pkt.isKey profile (some pkt.svc) rotation := by
  obtain ⟨⟨ts, seq, marker, nackable, layers, mediaMeta, data⟩, hsvc⟩ := pkt
  rcases mediaMeta with _ | _ | _ | ⟨key, profile, svc, rotation⟩
  · simp [svcOf] at hsvc
  · simp [svcOf] at hsvc
  · simp [svcOf] at hsvc
  · rcases svc with _ | svc
    · simp [svcOf] at hsvc
    · exact ⟨profile, rotation, rfl⟩

end SvcPacket

/-- What happens to a selector on its way; `shared` is what the packet selector does meanwhile to
    the context that it shares. -/
inductive Input where
  | setTargetBitrate (bitrate : UInt64)
  | setLimitLayer (maxSpatial maxTemporal : UInt8)
  | popAction
  | shared (ctx : VideoSelectorCtx)
  | select (pkt : SvcPacket)

/-- The packets of a run follow each other without a loss, and layer frames begin where others
    end. -/
def Lossless (inputs : List Input) : Prop :=
  (inputs.filterMap fun
    | .select pkt => some pkt
    | _ => none).IsChain fun pkt next : SvcPacket =>
      next.val.seq = pkt.val.seq + 1 ∧ next.svc.beginFrame = pkt.svc.endFrame

instance (inputs : List Input) : Decidable (Lossless inputs) :=
  inferInstanceAs (Decidable (List.IsChain _ _))

/-- A selector, with the packet that it processed last, and the last one that met a pending
    change. -/
structure Watch where
  selector : Selector
  ctx : VideoSelectorCtx
  previous : Option SvcPacket
  met : Option SvcPacket

namespace Watch

def start (kSvc : Bool) (bitrate : UInt64) (layers : MediaLayersBitrate) (limit : UInt8 × UInt8)
    (ctx : VideoSelectorCtx) : Watch :=
  ⟨Selector.new kSvc bitrate layers limit, ctx, none, none⟩

def step (w : Watch) : Input → Except Panic Watch
  | .setTargetBitrate bitrate =>
    .ok { w with selector := w.selector.setTargetBitrate bitrate }
  | .setLimitLayer maxSpatial maxTemporal =>
    .ok { w with selector := w.selector.setLimitLayer maxSpatial maxTemporal }
  | .popAction => .ok { w with selector := w.selector.popAction.2 }
  | .shared ctx => .ok { w with ctx }
  | .select pkt => do
    let (_, selector, ctx) ← w.selector.select w.ctx pkt.val
    let met := if (w.selector.learn pkt.val).Pending then some pkt else w.met
    return ⟨selector, ctx, some pkt, met⟩

/-- The packet ended its frame. -/
def Ended (pkt : Option SvcPacket) : Prop := pkt.any (fun pkt => pkt.svc.endFrame) = true

instance (pkt : Option SvcPacket) : Decidable (Ended pkt) := inferInstanceAs (Decidable (_ = _))

/-- Layers change while a packet is processed, and only at a key packet or behind the end of a
    frame. -/
def ChangesAtFrameEnd (w : Watch) (input : Input) (w' : Watch) : Prop :=
  w'.selector.current ≠ w.selector.current →
    ∃ pkt, input = .select pkt ∧ (pkt.isKey = false → Ended w.previous)

/-- A packet at which a pending change may happen without a key frame finds the end of a frame
    before it, if the last packet that met a pending change ended one. -/
def MeetsFresh (w : Watch) (input : Input) (_ : Watch) : Prop :=
  ∀ pkt, input = .select pkt → pkt.isKey = false → (w.selector.learn pkt.val).Pending →
    (w.selector.learn pkt.val).MayChange pkt.svc → Ended w.met → Ended w.previous

/-- The flag tells of the last packet that met a pending change. -/
def Recorded (w : Watch) : Prop := w.selector.preEndFrame = true ↔ Ended w.met

/-- What one packet does. -/
theorem step_select {w w' : Watch} {pkt : SvcPacket} (hw : w.Recorded)
    (h : w.step (.select pkt) = .ok w') :
    (w'.selector.current ≠ w.selector.current ∧ pkt.isKey = false ↔
      pkt.isKey = false ∧ (w.selector.learn pkt.val).Pending ∧ Ended w.met ∧
        (w.selector.learn pkt.val).MayChange pkt.svc) ∧ w'.Recorded := by
  obtain ⟨profile, rotation, hmeta⟩ := pkt.eq_of_meta
  obtain ⟨hcurrent, hflag⟩ := w.selector.learn_same pkt.val
  simp only [step, bind, Except.bind] at h
  split at h
  · cases h
  · rename_i result hselect
    obtain ⟨allowed, selector, ctx⟩ := result
    cases h
    obtain ⟨hselector, -⟩ := Selector.select_eq_ok hselect
    subst hselector
    constructor
    · refine (and_comm.trans ?_)
      refine and_congr_right fun hkey => ?_
      rw [hkey] at hmeta
      have hmet : w.selector.preEndFrame = true ↔ Ended w.met := hw
      rw [← hcurrent, Selector.trySwitch_current_ne _ _ hmeta, hflag, hmet]
    · change _ = true ↔ _
      rw [Selector.trySwitch_preEndFrame _ _ hmeta]
      by_cases hpending : (w.selector.learn pkt.val).Pending
      · simp only [if_pos hpending, Ended, Option.any_some]
      · simp only [if_neg hpending, hflag]
        exact hw

theorem step_quiet {w w' : Watch} {input : Input} (hinput : ∀ pkt, input ≠ .select pkt)
    (h : w.step input = .ok w') :
    w'.selector.current = w.selector.current ∧
      w'.selector.preEndFrame = w.selector.preEndFrame ∧ w'.met = w.met := by
  cases input with
  | setTargetBitrate bitrate =>
    cases h
    obtain ⟨hcurrent, hflag⟩ := w.selector.setTargetBitrate_same bitrate
    exact ⟨hcurrent, hflag, rfl⟩
  | setLimitLayer maxSpatial maxTemporal =>
    cases h
    obtain ⟨hcurrent, hflag⟩ := w.selector.setLimitLayer_same maxSpatial maxTemporal
    exact ⟨hcurrent, hflag, rfl⟩
  | popAction =>
    cases h
    exact ⟨rfl, rfl, rfl⟩
  | shared ctx =>
    cases h
    exact ⟨rfl, rfl, rfl⟩
  | select pkt => exact absurd rfl (hinput pkt)

theorem step_iff {w w' : Watch} {input : Input} (hw : w.Recorded) (h : w.step input = .ok w') :
    (w.ChangesAtFrameEnd input w' ↔ w.MeetsFresh input w') ∧ w'.Recorded := by
  by_cases hinput : ∃ pkt, input = .select pkt
  · obtain ⟨pkt, rfl⟩ := hinput
    obtain ⟨hchange, hkept⟩ := step_select hw h
    refine ⟨?_, hkept⟩
    constructor
    · intro hends other hother hkey hpending hmay hended
      cases hother
      obtain ⟨hchanged, -⟩ := hchange.mpr ⟨hkey, hpending, hended, hmay⟩
      obtain ⟨other, hother, hprevious⟩ := hends hchanged
      cases hother
      exact hprevious hkey
    · intro hfresh hchanged
      refine ⟨pkt, rfl, fun hkey => ?_⟩
      obtain ⟨-, hpending, hended, hmay⟩ := hchange.mp ⟨hchanged, hkey⟩
      exact hfresh pkt rfl hkey hpending hmay hended
  · have hnone : ∀ pkt, input ≠ .select pkt := fun pkt heq => hinput ⟨pkt, heq⟩
    obtain ⟨hcurrent, hflag, hmet⟩ := step_quiet hnone h
    refine ⟨⟨fun _ pkt hpkt => absurd hpkt (hnone pkt), fun _ hchanged => ?_⟩, ?_⟩
    · exact absurd hcurrent hchanged
    · rw [Recorded, hflag, hmet]
      exact hw

/-- The steps of a run, which ends where the code panics. -/
def next (w : Watch) (input : Input) : Option Watch := (w.step input).toOption

/-- **Changes at the ends of frames.**  In a run, layers change at the ends of frames alone exactly
    when pending changes meet only packets for which the flag is fresh. -/
theorem changes_at_frame_end_iff (kSvc : Bool) (bitrate : UInt64) (layers : MediaLayersBitrate)
    (limit : UInt8 × UInt8) (ctx : VideoSelectorCtx) (inputs : List Input) :
    Along next ChangesAtFrameEnd (start kSvc bitrate layers limit ctx) inputs ↔
      Along next MeetsFresh (start kSvc bitrate layers limit ctx) inputs := by
  have hstart : (start kSvc bitrate layers limit ctx).Recorded := by
    simp [Recorded, start, Selector.new, Ended]
  refine along_iff (fun w input w' hw hstep => ?_) hstart
  have hok : w.step input = .ok w' := Except.mem_toOption.mp hstep
  obtain ⟨hiff, hkept⟩ := step_iff hw hok
  exact ⟨hiff, fun _ => hkept⟩

/-! ### A change in the middle of a frame -/

/-- A packet of the only spatial layer. -/
def frame (seq : UInt16) (key : Bool) (temporal : UInt8) (beginFrame endFrame : Bool) :
    SvcPacket :=
  ⟨{ ts := 0, seq, marker := false, nackable := false, layers := none
     mediaMeta := .vp9 key .p0 (some ⟨0, temporal, beginFrame, endFrame, none, none, true, true⟩)
      none
     data := [] }, rfl⟩

/-- One spatial layer with three temporal layers. -/
def temporals : MediaLayersBitrate := #v[some #v[some 100, some 200, some 400], none, none]

/-- A key frame; then a frame of two packets, between which the bitrate falls. -/
def midFrame : List Input :=
  [.select (frame 1 true 0 true true), .select (frame 2 false 1 true false),
    .setTargetBitrate 100000, .select (frame 3 false 1 false true)]

theorem not_changes_at_frame_end :
    ¬ ∀ (kSvc : Bool) (bitrate : UInt64) (layers : MediaLayersBitrate) (limit : UInt8 × UInt8)
      (inputs : List Input), Lossless inputs →
      Along next ChangesAtFrameEnd (start kSvc bitrate layers limit (.new .video)) inputs := by
  intro hall
  have halong := hall false 400000 temporals (2, 2) midFrame (by decide)
  have hrun : (exec next (fun _ _ => true) (start false 400000 temporals (2, 2) (.new .video))
      (midFrame.take 3)).any (fun w => (next w (.select (frame 3 false 1 false true))).any fun w' =>
        w'.selector.current ≠ w.selector.current ∧ ¬ Ended w.previous) = true := by
    decide
  obtain ⟨w, hw, hlast⟩ := (Option.any_eq_true _ _).mp hrun
  obtain ⟨w', hw', hbad⟩ := (Option.any_eq_true _ _).mp hlast
  obtain ⟨hchanged, hprevious⟩ := of_decide_eq_true hbad
  have hreaches : Reaches next (fun _ _ => True) _ (midFrame.take 3) w :=
    reaches_of_exec (fun _ _ _ => trivial) hw
  have hend := ((halong.of_append hreaches) w' hw').1
  obtain ⟨pkt, hpkt, hends⟩ := hend hchanged
  cases hpkt
  exact hprevious (hends rfl)

end Watch

end MediaServer.Endpoint.Vp9Svc
