import MediaServer.Transport.Link

/-!
# The live tracks of a room

A transport hears of the tracks of other peers through their starts and stops.  A track is live
between the two.
-/

namespace MediaServer.Transport

/-- The live tracks, each with its kind. -/
abbrev LiveTracks := List (TrackSource × MediaKind)

namespace LiveTracks

def onEvent (live : LiveTracks) : EndpointEvent → LiveTracks
  | .peerTrackStarted peer track trackMeta => live ++ [(⟨peer, track⟩, trackMeta.kind)]
  | .peerTrackStopped peer track _ => live.filter fun entry => entry.1 ≠ ⟨peer, track⟩
  | _ => live

/-- The events of each track alternate: what starts is not live, and what stops is. -/
def InTurn (live : LiveTracks) : EndpointEvent → Prop
  | .peerTrackStarted peer track _ => (⟨peer, track⟩ : TrackSource) ∉ live.map Prod.fst
  | .peerTrackStopped peer track _ => (⟨peer, track⟩ : TrackSource) ∈ live.map Prod.fst
  | _ => True

instance (live : LiveTracks) : (event : EndpointEvent) → Decidable (live.InTurn event)
  | .peerTrackStarted peer track _ =>
      inferInstanceAs (Decidable ((⟨peer, track⟩ : TrackSource) ∉ live.map Prod.fst))
  | .peerTrackStopped peer track _ =>
      inferInstanceAs (Decidable ((⟨peer, track⟩ : TrackSource) ∈ live.map Prod.fst))
  | .peerJoined .. | .peerLeaved .. | .audioMixer _ | .remoteMediaTrack .. | .localMediaTrack ..
  | .bweConfig .. | .channelMessage .. => .isTrue trivial

theorem mem_onEvent_started {live : LiveTracks} {peer : PeerId} {track : TrackName}
    {trackMeta : TrackMeta} {entry : TrackSource × MediaKind} :
    entry ∈ live.onEvent (.peerTrackStarted peer track trackMeta) ↔
      entry ∈ live ∨ entry = (⟨peer, track⟩, trackMeta.kind) := by
  rw [onEvent, List.mem_append, List.mem_singleton]

theorem mem_onEvent_stopped {live : LiveTracks} {peer : PeerId} {track : TrackName}
    {trackMeta : TrackMeta} {entry : TrackSource × MediaKind} :
    entry ∈ live.onEvent (.peerTrackStopped peer track trackMeta) ↔
      entry ∈ live ∧ entry.1 ≠ ⟨peer, track⟩ := by
  rw [onEvent, List.mem_filter, decide_eq_true_iff]

end LiveTracks

end MediaServer.Transport
