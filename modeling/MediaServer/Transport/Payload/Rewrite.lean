import MediaServer.Transport.Payload.Vp8
import MediaServer.Transport.Payload.Vp9

/-!
# Rewriting a payload

`LocalMediaConvert::rewrite_pkt` (`transport_webrtc/src/media/mod.rs`) writes the layer info of a
packet back into its payload.  What was parsed is found again: the ids are the new ones, as far as
they fit, and everything else is what it was.
-/

namespace MediaServer.Transport.Payload

/-- `h264::rewrite_rtp` does nothing. -/
def rewritePkt (pkt : MediaPacket) : Except Panic MediaPacket :=
  match pkt.mediaMeta with
  | .opus _ => .ok pkt
  | .h264 .. => .ok pkt
  | .vp8 _ none _ => .ok pkt
  | .vp8 _ (some sim) _ => do
    let data ← Vp8.rewriteRtp pkt.data sim
    pure { pkt with data := data }
  | .vp9 _ _ none _ => .ok pkt
  | .vp9 _ _ (some svc) _ => do
    let data ← Vp9.rewriteRtp pkt.data svc
    pure { pkt with data := data }

/-- A VP8 packet with layer info of the shape of its payload's is rewritten. -/
theorem rewritePkt_vp8 {pkt : MediaPacket} {rid : Option UInt8} {rotation : Option MediaOrientation}
    {key key' : Bool} {sim : Vp8Sim} {rotation' rotation'' : Option MediaOrientation}
    {id : Option UInt16} {tl0 : Option UInt8}
    (h : Vp8.parseRtp pkt.data rid rotation = .ok (some (.vp8 key (some sim) rotation')))
    (hmeta : pkt.mediaMeta =
      .vp8 key' (some { sim with pictureId := id, tl0PicIdx := tl0 }) rotation'')
    (hid : id.isSome = sim.pictureId.isSome) (htl0 : tl0.isSome = sim.tl0PicIdx.isSome) :
    ∃ out, rewritePkt pkt = .ok { pkt with data := out } ∧
      Vp8.parseRtp out rid rotation =
        .ok (some (.vp8 key
          (some { sim with pictureId := id.map (wrapId pkt.data 2), tl0PicIdx := tl0 })
          rotation')) := by
  obtain ⟨out, hout, _, _, _, hparse⟩ := Vp8.parseRtp_rewriteRtp h hid htl0
  refine ⟨out, ?_, hparse⟩
  rw [rewritePkt, hmeta]
  dsimp only
  rw [hout]
  rfl

theorem rewritePkt_vp9 {pkt : MediaPacket} {profile profile' : Vp9Profile}
    {rotation rotation' : Option MediaOrientation} {key key' : Bool} {svc : Vp9Svc}
    {id : Option UInt16}
    (h : Vp9.parseRtp pkt.data profile rotation =
      .ok (some (.vp9 key profile (some svc) rotation)))
    (hmeta : pkt.mediaMeta = .vp9 key' profile' (some { svc with pictureId := id }) rotation')
    (hid : id.isSome = svc.pictureId.isSome) :
    ∃ out, rewritePkt pkt = .ok { pkt with data := out } ∧
      Vp9.parseRtp out profile rotation =
        .ok (some (.vp9 key profile
          (some { svc with pictureId := id.map (wrapId pkt.data 1) }) rotation)) := by
  obtain ⟨out, hout, _, _, _, hparse⟩ := Vp9.parseRtp_rewriteRtp h hid
  refine ⟨out, ?_, hparse⟩
  rw [rewritePkt, hmeta]
  dsimp only
  rw [hout]
  rfl

/-- Parsing VP8 is total.  A rewritten payload has its length, changes only where the picture id
    and the `TL0PICIDX` are, keeps the width of the picture id and is parsed as before, with the
    new ids. -/
theorem rewrite_parses_back (payload : Bytes) :
    (∀ rid rotation, ∃ m, Vp8.parseRtp payload rid rotation = .ok m) ∧
    (∀ rid rotation key sim rotation',
      Vp8.parseRtp payload rid rotation = .ok (some (.vp8 key (some sim) rotation')) →
      ∀ (id : Option UInt16) (tl0 : Option UInt8), id.isSome = sim.pictureId.isSome →
        tl0.isSome = sim.tl0PicIdx.isSome →
      ∃ out, Vp8.rewriteRtp payload { sim with pictureId := id, tl0PicIdx := tl0 } = .ok out ∧
        out.length = payload.length ∧
        (∀ i, (i < 2 ∨ 2 + (Vp8.idLen payload + Vp8.tl0Len payload) ≤ i) →
          out[i]? = payload[i]?) ∧
        (Vp8.idAt payload → bitAt out 2 7 = bitAt payload 2 7) ∧
        Vp8.parseRtp out rid rotation =
          .ok (some (.vp8 key
            (some { sim with pictureId := id.map (wrapId payload 2), tl0PicIdx := tl0 })
            rotation'))) ∧
    ∀ profile rotation key svc profile' rotation',
      Vp9.parseRtp payload profile rotation = .ok (some (.vp9 key profile' (some svc) rotation')) →
      ∀ id : Option UInt16, id.isSome = svc.pictureId.isSome →
      ∃ out, Vp9.rewriteRtp payload { svc with pictureId := id } = .ok out ∧
        out.length = payload.length ∧
        (∀ i, (i < 1 ∨ 1 + Vp9.idLen payload ≤ i) → out[i]? = payload[i]?) ∧
        (Vp9.idAt payload → bitAt out 1 7 = bitAt payload 1 7) ∧
        Vp9.parseRtp out profile rotation =
          .ok (some (.vp9 key profile'
            (some { svc with pictureId := id.map (wrapId payload 1) }) rotation')) := by
  refine ⟨fun rid rotation => Vp8.exists_parseRtp payload, ?_, ?_⟩
  · intro rid rotation key sim rotation' h id tl0 hid htl0
    exact Vp8.parseRtp_rewriteRtp h hid htl0
  · intro profile rotation key svc profile' rotation' h id hid
    obtain ⟨rfl, rfl⟩ := Vp9.profile_of_parseRtp h
    exact Vp9.parseRtp_rewriteRtp h hid

/-- A long picture id and a `TL0PICIDX`, with an id that does not fit. -/
theorem rewrite_parses_back_long :
    ∃ out, Vp8.rewriteRtp [0x90, 0xe0, 0x81, 0x02, 0x05, 0x40, 0x00]
        ⟨some 0x9234, some 7, 0, 1, false⟩ = .ok out ∧
      out.length = 7 ∧
      (∀ i, (i < 2 ∨ 2 + (2 + 1) ≤ i) →
        out[i]? = ([0x90, 0xe0, 0x81, 0x02, 0x05, 0x40, 0x00] : Bytes)[i]?) ∧
      bitAt out 2 7 = true ∧
      Vp8.parseRtp out none none =
        .ok (some (.vp8 true (some ⟨some 0x1234, some 7, 0, 1, false⟩) none)) := by
  obtain ⟨out, hout, hlength, helsewhere, hwidth, hparse⟩ :=
    (rewrite_parses_back [0x90, 0xe0, 0x81, 0x02, 0x05, 0x40, 0x00]).2.1 none none true
      ⟨some 0x0102, some 5, 0, 1, false⟩ none rfl (some 0x9234) (some 7) rfl rfl
  exact ⟨out, hout, hlength, helsewhere, hwidth rfl, hparse⟩

end MediaServer.Transport.Payload
