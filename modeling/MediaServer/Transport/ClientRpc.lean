import MediaServer.Transport.Refinement

/-!
# The requests of an SDK client

Every request a client sends should be settled once: by a response on the channel, or by
a request to the endpoint under the same id.  A new offer takes a detour through `str0m`,
whose answer comes back to the transport and is sent then.

The requests about a room are not implemented and bring the transport down, and a request
for a feature that does not say which, or what, is dropped.  All others are settled, as
long as there is a channel for the responses.
-/

namespace MediaServer.Transport.TransportWebrtcSdk

open Proto Machine

/-! ### What settles a request -/

/-- The output is a response to the request, or passes it on to the endpoint. -/
def settles (reqId : UInt32) : InternalOutput → Bool
  | .str0mSendData _ ⟨_, .response res⟩ => decide (res.reqId = reqId)
  | .transportOutput (.rpcReq id _) => decide (id = reqId)
  | _ => false

/-- The output calls `str0m`. -/
def isCall : InternalOutput → Bool
  | .rpcReq .. => true
  | _ => false

/-- `TransportWebrtc::process_internal_output`, as far as it comes back to the transport:
    `str0m` takes the offer, and the transport hears its answer. -/
def processInternalOutput (str0m : String → Except RpcError InternalRpcRes)
    (t : TransportWebrtcSdk) : InternalOutput → TransportWebrtcSdk
  | .rpcReq reqId (.setRemoteSdp offer) => t.onRpcRes reqId (str0m offer)
  | _ => t

/-- All a client event makes the transport queue: while it is handled, and while what was
    queued then is processed. -/
def outcome (decodeToken : DecodeToken) (str0m : String → Except RpcError InternalRpcRes)
    (t : TransportWebrtcSdk) (event : ClientEvent) : Except Panic (List InternalOutput) := do
  let handled ← t.onStr0mChannelEvent decodeToken event
  let processed := (handled.queue.drop t.queue.length).foldl (processInternalOutput str0m) handled
  .ok (processed.queue.drop t.queue.length)

/-- The event is handled, and the request in it settled exactly once. -/
def Accounted (decodeToken : DecodeToken) (str0m : String → Except RpcError InternalRpcRes)
    (t : TransportWebrtcSdk) (event : ClientEvent) : Prop :=
  ∃ outs, outcome decodeToken str0m t event = .ok outs ∧
    ∀ req, event.event = some (.request req) → outs.countP (settles req.reqId) = 1

/-- Requests nobody answers: those about a room, and those for no feature or for nothing
    of the mixer. -/
def neglected : Option RequestKind → Bool
  | some (.room (some _)) => true
  | some (.features none) => true
  | some (.features (some (.mixer none))) => true
  | _ => false

theorem eq_of_neglected {request : Option RequestKind} (h : neglected request = true) :
    (∃ room, request = some (.room (some room))) ∨ request = some (.features none) ∨
      request = some (.features (some (.mixer none))) := by
  unfold neglected at h
  split at h
  · exact Or.inl ⟨_, rfl⟩
  · exact Or.inr (Or.inl rfl)
  · exact Or.inr (Or.inr rfl)
  · cases h

/-- The token is good for the room and the peer of the join. -/
def admits (decodeToken : DecodeToken) (t : TransportWebrtcSdk) (info : RoomJoin)
    (token : String) : Bool :=
  match decodeToken token with
  | none => false
  | some (ctx, decoded) =>
      decide (ctx.app = t.app.app) &&
        decide (decoded.room = some info.room ∧ decoded.peer = some info.peer)

/-- Requests that are for the endpoint. -/
def forwards (decodeToken : DecodeToken) (t : TransportWebrtcSdk) : Option RequestKind → Bool
  | some (.session (some .leave)) => true
  | some (.session (some (.join info token))) => t.admits decodeToken (info.getD {}) token
  | some (.sender name (some (.config _))) => (t.remoteTrackByName name).isSome
  | some (.receiver name (some _)) => (t.localTrackByName name).isSome
  | some (.messageChannel _ (some _)) => true
  | some (.features (some (.mixer (some _)))) => true
  | _ => false

/-! ### What a handler queues -/

/-- The transport keeps its channel, calls nobody and queues outputs of which `n` settle
    the request. -/
def Settles (reqId : UInt32) (t t' : TransportWebrtcSdk) (n : Nat) : Prop :=
  ∃ outs, t'.queue = t.queue ++ outs ∧ outs.countP (settles reqId) = n ∧
    ∀ out ∈ outs, isCall out = false

/-- The responses that get through. -/
def reach (t : TransportWebrtcSdk) : Nat := if t.channel.isSome then 1 else 0

theorem settles_response (t : TransportWebrtcSdk) (reqId : UInt32) (res : ResponseKind) :
    Settles reqId t (t.sendEvent (.response ⟨reqId, res⟩)) t.reach := by
  unfold sendEvent reach
  cases t.channel with
  | none => exact ⟨[], (List.append_nil _).symm, rfl, by simp⟩
  | some channel =>
    refine ⟨_, rfl, ?_, ?_⟩
    · rw [List.countP_singleton]
      simp [settles]
    · intro out hmem
      rw [List.mem_singleton.mp hmem]
      rfl

theorem settles_request (t : TransportWebrtcSdk) (reqId : UInt32) (req : EndpointReq) :
    Settles reqId t (t.push [.request reqId req]) 1 := by
  refine ⟨_, rfl, ?_, ?_⟩
  · rw [List.countP_singleton]
    simp [settles, InternalOutput.request]
  · intro out hmem
    rw [List.mem_singleton.mp hmem]
    rfl

/-- An event for the endpoint settles nothing. -/
theorem Settles.event {t t' : TransportWebrtcSdk} {reqId : UInt32} {n : Nat}
    (h : Settles reqId t t' n) (event : TransportEvent) :
    Settles reqId t (t'.push [.event event]) n := by
  obtain ⟨outs, hqueue, hcount, hcalls⟩ := h
  refine ⟨outs ++ [InternalOutput.event event], ?_, ?_, ?_⟩
  · rw [push, hqueue, List.append_assoc]
  · rw [List.countP_append, hcount]
    rfl
  · intro out hmem
    rcases List.mem_append.mp hmem with hold | hnew
    · exact hcalls out hold
    · rw [List.mem_singleton.mp hnew]
      rfl

theorem Settles.congr {t u t' : TransportWebrtcSdk} {reqId : UInt32} {n : Nat}
    (h : Settles reqId u t' n) (hqueue : u.queue = t.queue) : Settles reqId t t' n := by
  rwa [Settles, hqueue] at h

/-- A response on the channel to a request that is not for the endpoint. -/
theorem settles_answer {decodeToken : DecodeToken} {t t' : TransportWebrtcSdk} {reqId : UInt32}
    {kind : Option RequestKind} (h : Settles reqId t t' t.reach)
    (hstays : t.forwards decodeToken kind = false) :
    Settles reqId t t' (if t.forwards decodeToken kind then 1 else t.reach) := by
  rwa [hstays]

/-- A request to the endpoint. -/
theorem settles_forward {decodeToken : DecodeToken} {t t' : TransportWebrtcSdk} {reqId : UInt32}
    {kind : Option RequestKind} (h : Settles reqId t t' 1)
    (hgoes : t.forwards decodeToken kind = true) :
    Settles reqId t t' (if t.forwards decodeToken kind then 1 else t.reach) := by
  rwa [hgoes]

theorem onJoinReq_settles (decodeToken : DecodeToken) (t : TransportWebrtcSdk) (reqId : UInt32)
    (info : RoomJoin) (token : String) :
    Settles reqId t (t.onJoinReq decodeToken reqId info token)
      (if t.admits decodeToken info token then 1 else t.reach) := by
  unfold onJoinReq admits
  cases decodeToken token with
  | none => exact t.settles_response reqId _
  | some decoded =>
    obtain ⟨ctx, token⟩ := decoded
    by_cases happ : ctx.app = t.app.app
    · by_cases hmatch : token.room = some info.room ∧ token.peer = some info.peer
      · simp only [happ, ne_eq, not_true, if_false, hmatch, and_self, if_true, decide_true,
          Bool.and_self]
        exact t.settles_request reqId _
      · simp only [happ, ne_eq, not_true, if_false, if_neg hmatch, decide_true,
          decide_eq_false hmatch, Bool.and_false]
        exact t.settles_response reqId _
    · simp only [ne_eq, happ, not_false_eq_true, if_true, decide_false, Bool.false_and]
      exact t.settles_response reqId _

theorem onSenderReq_settles (decodeToken : DecodeToken) (t : TransportWebrtcSdk)
    (reqId : UInt32) (name : String) (req : SenderRequest) :
    Settles reqId t (t.onSenderReq reqId name req)
      (if t.forwards decodeToken (some (.sender name (some req))) then 1 else t.reach) := by
  have hanswer : ∀ track res, Settles reqId t
      ((t.updateRemoteTrack name track).sendEvent (.response ⟨reqId, res⟩)) t.reach :=
    fun track res =>
      (settles_response (t.updateRemoteTrack name track) reqId res).congr rfl
  unfold onSenderReq
  cases hfound : t.remoteTrackByName name with
  | none =>
    refine settles_answer (t.settles_response reqId _) ?_
    cases req with
    | attach source config => rfl
    | detach => rfl
    | config config =>
      simp only [forwards, hfound]
      rfl
  | some track =>
    cases req with
    | attach source config =>
      refine settles_answer ?_ rfl
      dsimp only
      split
      · exact t.settles_response reqId _
      · exact (hanswer _ _).event _
    | detach =>
      refine settles_answer ?_ rfl
      dsimp only
      split
      · exact (hanswer _ _).event _
      · exact t.settles_response reqId _
    | config config =>
      refine settles_forward (t.settles_request reqId _) ?_
      simp only [forwards, hfound]
      rfl

theorem onReceverReq_settles (decodeToken : DecodeToken) (t : TransportWebrtcSdk)
    (reqId : UInt32) (name : String) (req : ReceiverRequest) :
    Settles reqId t (t.onReceverReq reqId name req)
      (if t.forwards decodeToken (some (.receiver name (some req))) then 1 else t.reach) := by
  unfold onReceverReq
  cases hfound : t.localTrackByName name with
  | none =>
    refine settles_answer (t.settles_response reqId _) ?_
    simp only [forwards, hfound]
    rfl
  | some track =>
    have hgoes : t.forwards decodeToken (some (.receiver name (some req))) = true := by
      simp only [forwards, hfound]
      rfl
    cases req with
    | attach source config => exact settles_forward (t.settles_request reqId _) hgoes
    | detach => exact settles_forward (t.settles_request reqId _) hgoes
    | config config => exact settles_forward (t.settles_request reqId _) hgoes

theorem onDisconnectReq_settles (decodeToken : DecodeToken) (t : TransportWebrtcSdk)
    (reqId : UInt32) : Settles reqId t (t.onSessionReq decodeToken reqId .disconnect) t.reach := by
  simp only [onSessionReq]
  split
  · exact t.settles_response reqId _
  · -- the end of the link is told first
    obtain ⟨outs, hqueue, hcount, hcalls⟩ :=
      settles_response (t.moveTo (.disconnected, [.disconnected none])) reqId (.session .disconnect)
    refine ⟨[InternalOutput.event (.state (.disconnected none))] ++ outs, ?_, ?_, ?_⟩
    · rw [← List.append_assoc]
      exact hqueue
    · rw [List.countP_append, hcount]
      exact Nat.zero_add _
    · intro out hmem
      rcases List.mem_append.mp hmem with hfirst | hrest
      · rw [List.mem_singleton.mp hfirst]
        rfl
      · exact hcalls out hrest

/-- The request takes the detour through `str0m`. -/
def isSdp : Option RequestKind → Bool
  | some (.session (some (.sdp ..))) => true
  | _ => false

theorem eq_of_isSdp {request : Option RequestKind} (h : isSdp request = true) :
    ∃ tracks sdp, request = some (.session (some (.sdp tracks sdp))) := by
  unfold isSdp at h
  split at h
  · exact ⟨_, _, rfl⟩
  · cases h

/-- **One handler for each request.** What is neither neglected nor an offer is settled as
    often as it gets through. -/
theorem onRequest_settles (decodeToken : DecodeToken) (t : TransportWebrtcSdk) (req : Request)
    (hserved : neglected req.request = false) (hsdp : isSdp req.request = false) :
    ∃ t', t.onRequest decodeToken req = .ok t' ∧ Settles req.reqId t t'
      (if t.forwards decodeToken req.request then 1 else t.reach) := by
  obtain ⟨reqId, request⟩ := req
  have hinvalid : Settles reqId t (t.onInvalidReq reqId) t.reach := t.settles_response reqId _
  cases request with
  | none => exact ⟨_, rfl, hinvalid⟩
  | some kind =>
    cases kind with
    | session request =>
      cases request with
      | none => exact ⟨_, rfl, hinvalid⟩
      | some session =>
        refine ⟨_, rfl, ?_⟩
        cases session with
        | join info token => exact t.onJoinReq_settles decodeToken reqId (info.getD {}) token
        | leave => exact t.settles_request reqId _
        | sdp tracks sdp => cases hsdp
        | disconnect => exact t.onDisconnectReq_settles decodeToken reqId
    | room request =>
      cases request with
      | none => exact ⟨_, rfl, hinvalid⟩
      | some room => cases hserved
    | sender name request =>
      cases request with
      | none => exact ⟨_, rfl, hinvalid⟩
      | some sender => exact ⟨_, rfl, t.onSenderReq_settles decodeToken reqId name sender⟩
    | receiver name request =>
      cases request with
      | none => exact ⟨_, rfl, hinvalid⟩
      | some receiver => exact ⟨_, rfl, t.onReceverReq_settles decodeToken reqId name receiver⟩
    | features request =>
      match request, hserved with
      | some (.mixer (some (.attach sources))), _ => exact ⟨_, rfl, t.settles_request reqId _⟩
      | some (.mixer (some (.detach sources))), _ => exact ⟨_, rfl, t.settles_request reqId _⟩
    | messageChannel label request =>
      cases request with
      | none => exact ⟨_, rfl, hinvalid⟩
      | some channel => exact ⟨_, rfl, t.settles_request reqId _⟩

/-! ### The detour through `str0m` -/

/-- Neither the queue nor the channel has changed. -/
def Idle (t t' : TransportWebrtcSdk) : Prop := t'.queue = t.queue ∧ t'.channel = t.channel

theorem onSdpReq_queue (t : TransportWebrtcSdk) (reqId : UInt32) (tracks : Tracks)
    (sdp : String) :
    (t.onSdpReq reqId tracks sdp).queue =
        t.queue ++ [InternalOutput.rpcReq reqId (.setRemoteSdp sdp)] ∧
      (t.onSdpReq reqId tracks sdp).channel = t.channel := by
  have hpush : ∀ u, Idle t u →
      (u.push [.rpcReq reqId (.setRemoteSdp sdp)]).queue
          = t.queue ++ [InternalOutput.rpcReq reqId (.setRemoteSdp sdp)] ∧
        (u.push [.rpcReq reqId (.setRemoteSdp sdp)]).channel = t.channel := by
    intro u hidle
    refine ⟨?_, hidle.2⟩
    rw [push, hidle.1]
  -- adding tracks changes neither
  refine hpush _ ?_
  refine List.foldlRecOn _ _ ?_ ?_
  · refine List.foldlRecOn _ _ ⟨rfl, rfl⟩ ?_
    intro u hidle sender _
    split
    · exact hidle
    · exact hidle
  · intro u hidle receiver _
    split
    · exact hidle
    · exact hidle

theorem onRpcRes_settles (t : TransportWebrtcSdk) (reqId : UInt32)
    (res : Except RpcError InternalRpcRes) : Settles reqId t (t.onRpcRes reqId res) t.reach := by
  unfold onRpcRes
  split
  · exact t.settles_response reqId _
  · exact t.settles_response reqId _

/-! ### Events -/

variable {decodeToken : DecodeToken} {str0m : String → Except RpcError InternalRpcRes}

theorem foldl_processInternalOutput {outs : List InternalOutput}
    (h : ∀ out ∈ outs, isCall out = false) (t : TransportWebrtcSdk) :
    outs.foldl (processInternalOutput str0m) t = t := by
  induction outs with
  | nil => rfl
  | cons out rest ih =>
    have hout : processInternalOutput str0m t out = t := by
      cases out with
      | rpcReq reqId req => cases h _ (List.mem_cons_self ..)
      | _ => rfl
    rw [List.foldl_cons, hout]
    exact ih fun out hmem => h out (List.mem_cons_of_mem _ hmem)

theorem outcome_of_settles {t t' : TransportWebrtcSdk} {event : ClientEvent} {reqId : UInt32}
    {n : Nat} (h : t.onStr0mChannelEvent decodeToken event = .ok t')
    (hsettles : Settles reqId t t' n) :
    ∃ outs, outcome decodeToken str0m t event = .ok outs ∧ outs.countP (settles reqId) = n := by
  obtain ⟨outs, hqueue, hcount, hcalls⟩ := hsettles
  refine ⟨outs, ?_, hcount⟩
  have hdrop : t'.queue.drop t.queue.length = outs := by
    rw [hqueue, List.drop_left]
  simp only [outcome, h, bind, Except.bind, hdrop, foldl_processInternalOutput hcalls]

theorem outcome_of_sdp (t : TransportWebrtcSdk) {event : ClientEvent} {reqId : UInt32}
    {tracks : Tracks} {sdp : String}
    (h : t.onStr0mChannelEvent decodeToken event = .ok (t.onSdpReq reqId tracks sdp)) :
    ∃ outs, outcome decodeToken str0m t event = .ok outs ∧
      outs.countP (settles reqId) = t.reach := by
  obtain ⟨hqueue, hchannel⟩ := t.onSdpReq_queue reqId tracks sdp
  obtain ⟨outs, hanswer, hcount, -⟩ :=
    (t.onSdpReq reqId tracks sdp).onRpcRes_settles reqId (str0m sdp)
  refine ⟨[InternalOutput.rpcReq reqId (.setRemoteSdp sdp)] ++ outs, ?_, ?_⟩
  · have hdrop : (t.onSdpReq reqId tracks sdp).queue.drop t.queue.length
        = [.rpcReq reqId (.setRemoteSdp sdp)] := by
      rw [hqueue, List.drop_left]
    have hall : ((t.onSdpReq reqId tracks sdp).onRpcRes reqId (str0m sdp)).queue.drop
        t.queue.length = [InternalOutput.rpcReq reqId (.setRemoteSdp sdp)] ++ outs := by
      rw [hanswer, hqueue, List.append_assoc, List.drop_left]
    simp only [outcome, h, bind, Except.bind, hdrop]
    rw [← hall]
    rfl
  · have hreach : (t.onSdpReq reqId tracks sdp).reach = t.reach := by
      rw [reach, reach, hchannel]
    rw [List.countP_append, hcount, hreach]
    exact Nat.zero_add _

/-- A request that is not neglected is settled as often as it gets through. -/
theorem outcome_of_served (t : TransportWebrtcSdk) (seq : UInt32) (req : Request)
    (hserved : neglected req.request = false) :
    ∃ outs, outcome decodeToken str0m t ⟨seq, some (.request req)⟩ = .ok outs ∧
      outs.countP (settles req.reqId) =
        if t.forwards decodeToken req.request then 1 else t.reach := by
  cases hsdp : isSdp req.request with
  | false =>
    obtain ⟨t', hhandled, hsettles⟩ := t.onRequest_settles decodeToken req hserved hsdp
    exact outcome_of_settles hhandled hsettles
  | true =>
    obtain ⟨reqId, request⟩ := req
    obtain ⟨tracks, sdp, rfl⟩ := eq_of_isSdp hsdp
    exact t.outcome_of_sdp rfl

/-- A neglected request is not settled, if the transport survives it. -/
theorem count_of_neglected {t : TransportWebrtcSdk} {seq : UInt32} {req : Request}
    (hneglected : neglected req.request = true) {outs : List InternalOutput}
    (h : outcome decodeToken str0m t ⟨seq, some (.request req)⟩ = .ok outs) :
    outs.countP (settles req.reqId) = 0 := by
  obtain ⟨reqId, request⟩ := req
  have hdropped : t.onRequest decodeToken ⟨reqId, request⟩ = .ok t →
      outs.countP (settles reqId) = 0 := by
    intro hsame
    have hnone : Settles reqId t t 0 := ⟨[], (List.append_nil _).symm, rfl, by simp⟩
    have hhandled : t.onStr0mChannelEvent decodeToken
        ⟨seq, some (.request ⟨reqId, request⟩)⟩ = .ok t := hsame
    obtain ⟨outs', houts', hcount⟩ := outcome_of_settles hhandled hnone
    rw [houts'] at h
    cases h
    exact hcount
  rcases eq_of_neglected hneglected with ⟨room, rfl⟩ | rfl | rfl
  · cases h
  · exact hdropped rfl
  · exact hdropped rfl

/-- **The accounts of a client's requests.** An event of a client is handled, and its
    request settled exactly once, if and only if the request is not one of the neglected
    ones and there is a channel to answer on, unless it is for the endpoint. -/
theorem accounted_iff (decodeToken : DecodeToken)
    (str0m : String → Except RpcError InternalRpcRes) (t : TransportWebrtcSdk)
    (event : ClientEvent) :
    Accounted decodeToken str0m t event ↔
      ∀ req, event.event = some (.request req) → neglected req.request = false ∧
        (t.channel.isSome = true ∨ t.forwards decodeToken req.request = true) := by
  obtain ⟨seq, event⟩ := event
  cases event with
  | none =>
    have hnone : Settles 0 t t 0 := ⟨[], (List.append_nil _).symm, rfl, by simp⟩
    have hhandled : t.onStr0mChannelEvent decodeToken ⟨seq, none⟩ = .ok t := rfl
    constructor
    · intro _ req hreq
      cases hreq
    · intro _
      obtain ⟨outs, houts, -⟩ := outcome_of_settles hhandled hnone
      refine ⟨outs, houts, ?_⟩
      intro req hreq
      cases hreq
  | some event =>
    obtain ⟨req⟩ := event
    constructor
    · rintro ⟨outs, houts, hcount⟩ req' hreq
      cases hreq
      have hone := hcount req rfl
      cases hneglected : neglected req.request with
      | true =>
        rw [count_of_neglected hneglected houts] at hone
        cases hone
      | false =>
        refine ⟨rfl, ?_⟩
        obtain ⟨outs', houts', hcount'⟩ := outcome_of_served t seq req hneglected
        rw [houts'] at houts
        cases houts
        rw [hcount'] at hone
        cases hforwards : t.forwards decodeToken req.request with
        | true => exact Or.inr rfl
        | false =>
          left
          rw [hforwards] at hone
          by_contra hclosed
          simp [reach, hclosed] at hone
    · intro hcond
      obtain ⟨hserved, hreach⟩ := hcond req rfl
      obtain ⟨outs, houts, hcount⟩ := outcome_of_served t seq req hserved
      refine ⟨outs, houts, ?_⟩
      intro req' hreq
      cases hreq
      rw [hcount]
      rcases hreach with hopen | hforwards
      · rw [reach, if_pos hopen]
        exact ite_self 1
      · rw [if_pos hforwards]

/-- A client whose channel is open brings the transport down with a request about a room,
    and waits in vain for the answer to a request without a feature. -/
theorem requests_unaccounted :
    ∃ c, (machine (fun _ => none) ⟨"app"⟩ ⟨none, none⟩ none "ip").run
        [.input (.tick 0), .input (.str0m 1 (.channelOpen 0 "data"))] = .ok c ∧
      outcome (fun _ => none) (fun _ => .ok (.setRemoteSdp "answer")) c.state
          ⟨0, some (.request ⟨1, some (.room (some (.subscribe "peer")))⟩)⟩
        = .error ⟨"not yet implemented"⟩ ∧
      outcome (fun _ => none) (fun _ => .ok (.setRemoteSdp "answer")) c.state
          ⟨0, some (.request ⟨1, some (.features none)⟩)⟩ = .ok [] ∧
      ¬Accounted (fun _ => none) (fun _ => .ok (.setRemoteSdp "answer")) c.state
          ⟨0, some (.request ⟨1, some (.room (some (.subscribe "peer")))⟩)⟩ ∧
      ¬Accounted (fun _ => none) (fun _ => .ok (.setRemoteSdp "answer")) c.state
          ⟨0, some (.request ⟨1, some (.features none)⟩)⟩ := by
  refine ⟨_, rfl, rfl, rfl, ?_, ?_⟩
  · rintro ⟨outs, houts, -⟩
    cases houts
  · rintro ⟨outs, houts, hcount⟩
    cases houts
    cases hcount _ rfl

end MediaServer.Transport.TransportWebrtcSdk
