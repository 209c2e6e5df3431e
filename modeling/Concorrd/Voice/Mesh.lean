import Concorrd.Voice.PeerConnection

/-!
# The two ends of a voice mesh

A participant of a mesh runs the native call or the orchestration in the browser. Both offer to every
participant they know of when they join, one after the other, and neither yields to an offer that
crosses its own. The browser takes envelopes from the start of its join on, the native call only
when it is registered at the end. Apart from that they do the same: each step of either is the step
of one abstract end (`proceed_offers`, `receive_responds`).
-/

namespace Concorrd.Voice

variable {PeerId Pc : Type} [DecidableEq PeerId]

/-! ## The browser -/

/-- The mesh state of a room in the browser. -/
structure MeshRoom (PeerId Pc : Type) where
  peers : AList fun _ : PeerId => Pc
  nextRequestId : UInt64

namespace MeshRoom

variable (api : WebRtc Pc)

def setPeer (room : MeshRoom PeerId Pc) (remoteId : PeerId) (pc : Pc) : MeshRoom PeerId Pc :=
  { room with peers := room.peers.insert remoteId pc }

/-- One turn of the loop in `joinMesh`. A failure is only logged, and leaves the connection behind. -/
def initiate (room : MeshRoom PeerId Pc) (remoteId : PeerId) :
    MeshRoom PeerId Pc × List (PeerId × SignalingMessage) :=
  if remoteId ∈ room.peers then (room, [])
  else
    match api.newPeerConnection [] with
    | .error _ => (room, [])
    | .ok pc =>
      let added := room.setPeer remoteId pc
      match api.createOffer pc with
      | .error _ => (added, [])
      | .ok sdp =>
        match api.setLocalDescription (.offer sdp) pc with
        | .error _ => (added, [])
        | .ok pc =>
          ({ room.setPeer remoteId pc with nextRequestId := room.nextRequestId + 1 },
            [(remoteId, .offer sdp room.nextRequestId)])

/-- Take an offer on a connection and answer it. -/
def answerOffer (room : MeshRoom PeerId Pc) (remoteId : PeerId) (pc : Pc) (sdp : String)
    (requestId : UInt64) : MeshRoom PeerId Pc × List (PeerId × SignalingMessage) :=
  match api.setRemoteDescription (.offer sdp) pc with
  | .error _ => (room.setPeer remoteId pc, [])
  | .ok pc =>
    match api.createAnswer pc with
    | .error _ => (room.setPeer remoteId pc, [])
    | .ok answer =>
      match api.setLocalDescription (.answer answer) pc with
      | .error _ => (room.setPeer remoteId pc, [])
      | .ok pc => (room.setPeer remoteId pc, [(remoteId, .answer answer requestId)])

/-- Dispatch an inbound envelope. What throws is only logged. -/
def handleInbound (room : MeshRoom PeerId Pc) (remoteId : PeerId) (message : SignalingMessage) :
    MeshRoom PeerId Pc × List (PeerId × SignalingMessage) :=
  match message, room.peers.lookup remoteId with
  | .offer sdp requestId, some pc => room.answerOffer api remoteId pc sdp requestId
  | .offer sdp requestId, none =>
    match api.newPeerConnection [] with
    | .error _ => (room, [])
    | .ok pc => room.answerOffer api remoteId pc sdp requestId
  | .answer sdp _, some pc =>
    match api.setRemoteDescription (.answer sdp) pc with
    | .error _ => (room, [])
    | .ok pc => (room.setPeer remoteId pc, [])
  | .iceCandidate candidate _, some pc =>
    match api.addIceCandidate candidate pc with
    | .error _ => (room, [])
    | .ok pc => (room.setPeer remoteId pc, [])
  | .bye _, some _ => ({ room with peers := room.peers.erase remoteId }, [])
  | _, none => (room, [])

end MeshRoom

/-! ## A participant -/

inductive EndKind where
  | native
  | browser
  deriving DecidableEq, Repr

/-- A participant of a room: outside, or with its calls or mesh state and those it has yet to offer
to. A native call is registered when it has offered to all. -/
inductive Member (PeerId Pc : Type) where
  | outside
  | native (call : VoiceCall PeerId Pc) (ahead : List PeerId) (registered : Bool)
  | browser (room : MeshRoom PeerId Pc) (ahead : List PeerId)

namespace Member

variable (api : WebRtc Pc) (roomId : String)

/-- Begin to join with the participants it knows of. -/
def start (self : PeerId) (known : List PeerId) : EndKind → Member PeerId Pc
  | .native =>
    match VoiceCall.new api roomId self true [] with
    | .error _ => .outside
    | .ok call => .native call (known.filter fun peerId => peerId ≠ self) false
  | .browser => .browser ⟨∅, 1⟩ known

/-- Offer to the next participant, or end the join. -/
def proceed : Member PeerId Pc → Member PeerId Pc × List (PeerId × SignalingMessage)
  | .outside => (.outside, [])
  | .native call [] _ => (.native call [] true, [])
  | .native call (peerId :: ahead) registered =>
    let added := call.addPeerAsInitiator api peerId
    (.native added.call ahead registered, added.sent)
  | .browser room [] => (.browser room [], [])
  | .browser room (peerId :: ahead) =>
    let (room, sent) := room.initiate api peerId
    (.browser room ahead, sent)

/-- The call that the registry holds after it was alone there and an envelope was delivered. -/
def deliver (call : VoiceCall PeerId Pc) (sender : PeerId) (message : SignalingMessage) :
    VoiceCall PeerId Pc × List (PeerId × SignalingMessage) :=
  let registry : VoiceCallRegistry PeerId Pc := AList.singleton roomId call
  let done := registry.deliverSignaling api [roomId] sender message
  ((done.registry.lookup roomId).getD call, done.sent)

/-- Take an envelope, if the participant is there to take it. -/
def receive (sender : PeerId) (message : SignalingMessage) :
    Member PeerId Pc → Option (Member PeerId Pc × List (PeerId × SignalingMessage))
  | .native call ahead true =>
    let (call, sent) := deliver api roomId call sender message
    some (.native call ahead true, sent)
  | .browser room ahead =>
    let (room, sent) := room.handleInbound api sender message
    some (.browser room ahead, sent)
  | _ => none

/-- The participant has joined: its offers are out, and it takes envelopes. -/
def Joined : Member PeerId Pc → Prop
  | .native _ _ registered => registered
  | .browser _ ahead => ahead = []
  | .outside => False

instance (member : Member PeerId Pc) : Decidable member.Joined := by
  cases member <;> unfold Joined <;> infer_instance

/-- The connection to a peer. -/
def connection (member : Member PeerId Pc) (peerId : PeerId) : Option Pc :=
  match member with
  | .outside => none
  | .native call _ _ => (call.peers.lookup peerId).map WebRtcMediaPeer.pc
  | .browser room _ => room.peers.lookup peerId

/-- A native call can send. -/
def Open : Member PeerId Pc → Prop
  | .native call _ _ => call.outboundOpen = true
  | _ => True

end Member

/-! ## One abstract end -/

/-- What an end makes of its connection to the sender of an envelope, and what it sends back. -/
def respond : Option RtcPeer → SignalingMessage → Option RtcPeer × List SignalingMessage
  | pc, .offer _ requestId =>
    match (pc.getD .fresh).signaling with
    | .haveLocalOffer => (pc, [])
    | _ => (some .connected, [.answer "answer" requestId])
  | some pc, .answer .. =>
    (some (match pc.signaling with
      | .haveLocalOffer => .connected
      | _ => pc), [])
  | some pc, .iceCandidate .. => (some pc, [])
  | _, _ => (none, [])

/-- The connection to one peer has become another one, and the others are as they were. -/
structure Changes (before after : PeerId → Option RtcPeer) (peerId : PeerId)
    (pc : Option RtcPeer) : Prop where
  here : after peerId = pc
  elsewhere : ∀ other ≠ peerId, after other = before other

/-- An end makes of an envelope what the abstract end makes of it. -/
structure Responds (before after : PeerId → Option RtcPeer) (sender : PeerId)
    (message : SignalingMessage) (sent : List (PeerId × SignalingMessage)) : Prop where
  changes : Changes before after sender (respond (before sender) message).1
  sends : sent = (respond (before sender) message).2.map (sender, ·)

/-- An end has offered to a peer it has no connection to, or has done nothing. -/
def Offers (before after : PeerId → Option RtcPeer) (sent : List (PeerId × SignalingMessage)) :
    Prop :=
  (∃ peerId requestId, before peerId = none ∧ Changes before after peerId (some .offering) ∧
    sent = [(peerId, .offer "offer" requestId)]) ∨ after = before ∧ sent = []

namespace VoiceCall

def connection (call : VoiceCall PeerId RtcPeer) (peerId : PeerId) : Option RtcPeer :=
  (call.peers.lookup peerId).map WebRtcMediaPeer.pc

variable {call : VoiceCall PeerId RtcPeer} {sender : PeerId} {message : SignalingMessage}

theorem changes_setPeer (call : VoiceCall PeerId RtcPeer) (sender : PeerId)
    (peer : WebRtcMediaPeer RtcPeer) :
    Changes call.connection (call.setPeer sender peer).connection sender (some peer.pc) where
  here := congrArg _ (AList.lookup_insert _)
  elsewhere _ h := congrArg _ (AList.lookup_insert_ne h)

theorem connection_setPeer_self {peer : WebRtcMediaPeer RtcPeer}
    (found : call.connection sender = some peer.pc) :
    (call.setPeer sender peer).connection = call.connection := by
  funext other
  by_cases same : other = sender
  · subst same
    exact (changes_setPeer call other peer).here.trans found.symm
  · exact (changes_setPeer call sender peer).elsewhere other same

theorem changes_erase (call : VoiceCall PeerId RtcPeer) (sender : PeerId) :
    Changes call.connection
      ({ call with peers := call.peers.erase sender } : VoiceCall PeerId RtcPeer).connection
      sender none where
  here := congrArg _ (AList.lookup_erase sender call.peers)
  elsewhere _ h := congrArg _ (AList.lookup_erase_ne h)

theorem drainPendingOutbound_spec (call : VoiceCall PeerId RtcPeer) (sender : PeerId) :
    (call.drainPendingOutbound signalingApi sender).sent = [] ∧
      (call.drainPendingOutbound signalingApi sender).call.connection = call.connection ∧
      (call.drainPendingOutbound signalingApi sender).call.outboundOpen = call.outboundOpen := by
  unfold drainPendingOutbound
  cases found : call.peers.lookup sender with
  | none => exact ⟨rfl, rfl, rfl⟩
  | some peer => exact ⟨rfl, connection_setPeer_self (congrArg (Option.map _) found), rfl⟩

/-- What is left after an envelope has been handed to the connection. -/
theorem onSignalingIn_of_apply {peer : WebRtcMediaPeer RtcPeer} {after : VoiceCall PeerId RtcPeer}
    {result : Except (VoiceError PeerId) Unit} {sent : List (PeerId × SignalingMessage)}
    (hpeer : call.peerFor signalingApi sender message = .ok (some peer))
    (happly : call.apply signalingApi sender peer message = ⟨result, after, sent⟩) :
    (call.onSignalingIn signalingApi sender message).sent = sent ∧
      (call.onSignalingIn signalingApi sender message).call.connection = after.connection ∧
      (call.onSignalingIn signalingApi sender message).call.outboundOpen = after.outboundOpen := by
  unfold onSignalingIn
  rw [hpeer]
  cases result with
  | error e =>
    simp only [happly]
    exact ⟨trivial, trivial, trivial⟩
  | ok u =>
    obtain ⟨quiet, same, still⟩ := drainPendingOutbound_spec after sender
    simp only [happly, quiet, List.append_nil]
    exact ⟨trivial, same, still⟩

omit [DecidableEq PeerId] in
theorem handleOffer_signaling (sdp : String) (requestId : UInt64) (peer : WebRtcMediaPeer RtcPeer) :
    peer.handleOffer PeerId signalingApi sdp requestId =
      match peer.pc.signaling with
      | .haveLocalOffer => (.error (.webRtc "cannot set remote offer in have-local-offer"), peer)
      | _ => (.ok "answer", ⟨.connected, requestId⟩) := by
  obtain ⟨⟨signaling, negotiated⟩, id⟩ := peer
  cases signaling <;> rfl

/-- An offer is answered unless it crosses one of the call's own. -/
theorem apply_offer_responds (canSend : call.outboundOpen = true) (sdp : String) (requestId : UInt64)
    {peer : WebRtcMediaPeer RtcPeer} (held : (call.connection sender).getD .fresh = peer.pc)
    (crossed : peer.pc.signaling = .haveLocalOffer → call.connection sender = some peer.pc) :
    let done := call.apply signalingApi sender peer (.offer sdp requestId)
    Responds call.connection done.call.connection sender (.offer sdp requestId) done.sent ∧
      done.call.outboundOpen = true := by
  unfold apply
  simp only [handleOffer_signaling]
  cases hsig : peer.pc.signaling with
  | haveLocalOffer =>
    have own := crossed hsig
    refine ⟨⟨?_, ?_⟩, canSend⟩
    · simp only [respond, own, Option.getD_some, hsig]
      exact changes_setPeer call sender peer
    · simp only [respond, own, Option.getD_some, hsig, List.map_nil]
  | stable | haveRemoteOffer =>
    simp only [sendOutbound, setPeer, canSend, if_true]
    refine ⟨⟨?_, ?_⟩, trivial⟩
    · simp only [respond, held, hsig]
      exact changes_setPeer call sender _
    · simp only [respond, held, hsig, List.map_cons, List.map_nil]

/-- An envelope that is no offer is handed to the connection it finds. -/
theorem apply_found_responds (canSend : call.outboundOpen = true)
    {peer : WebRtcMediaPeer RtcPeer} (found : call.connection sender = some peer.pc) :
    let done := call.apply signalingApi sender peer message
    Responds call.connection done.call.connection sender message done.sent ∧
      done.call.outboundOpen = true := by
  cases message with
  | offer sdp requestId =>
    exact apply_offer_responds canSend sdp requestId (by rw [found, Option.getD_some]) fun _ => found
  | answer sdp requestId =>
    refine ⟨⟨?_, by rw [found]; rfl⟩, canSend⟩
    have changed (pc : RtcPeer) : Changes call.connection
        (call.setPeer sender { peer with pc }).connection sender (some pc) :=
      changes_setPeer call sender _
    rw [found]
    obtain ⟨⟨signaling, negotiated⟩, id⟩ := peer
    cases signaling <;> exact changed _
  | iceCandidate candidate requestId =>
    exact ⟨⟨found ▸ changes_setPeer call sender peer, by rw [found]; rfl⟩, canSend⟩
  | bye requestId => exact ⟨⟨found ▸ changes_erase call sender, by rw [found]; rfl⟩, canSend⟩

/-- The native call does what the abstract end does. -/
theorem onSignalingIn_responds (canSend : call.outboundOpen = true) (sender : PeerId)
    (message : SignalingMessage) :
    let done := call.onSignalingIn signalingApi sender message
    Responds call.connection done.call.connection sender message done.sent ∧
      done.call.outboundOpen = true := by
  -- what the connection makes of the envelope is all there is
  have handed (peer : WebRtcMediaPeer RtcPeer)
      (hpeer : call.peerFor signalingApi sender message = .ok (some peer))
      (done : Responds call.connection (call.apply signalingApi sender peer message).call.connection
        sender message (call.apply signalingApi sender peer message).sent ∧
          (call.apply signalingApi sender peer message).call.outboundOpen = true) :
      Responds call.connection (call.onSignalingIn signalingApi sender message).call.connection
        sender message (call.onSignalingIn signalingApi sender message).sent ∧
          (call.onSignalingIn signalingApi sender message).call.outboundOpen = true := by
    obtain ⟨sent, same, still⟩ := onSignalingIn_of_apply hpeer rfl
    rwa [sent, same, still]
  cases found : call.peers.lookup sender with
  | some peer =>
    have known : call.connection sender = some peer.pc := congrArg (Option.map _) found
    refine handed peer ?_ (apply_found_responds canSend known)
    cases message <;> simp only [peerFor, found]
  | none =>
    have unknown : call.connection sender = none := congrArg (Option.map _) found
    cases message with
    | offer sdp requestId =>
      refine handed ⟨.fresh, 0⟩ ?_ ?_
      · simp only [peerFor, found]
        rfl
      · exact apply_offer_responds canSend sdp requestId (by rw [unknown]; rfl) fun h => by cases h
    | answer | iceCandidate | bye =>
      simp only [onSignalingIn, peerFor, found]
      exact ⟨⟨by rw [unknown]; exact ⟨unknown, fun _ _ => rfl⟩, by rw [unknown]; rfl⟩, canSend⟩

theorem addPeerAsInitiator_offers (canSend : call.outboundOpen = true) (peerId : PeerId) :
    let done := call.addPeerAsInitiator signalingApi peerId
    Offers call.connection done.call.connection done.sent ∧ done.call.outboundOpen = true := by
  unfold addPeerAsInitiator
  split
  · exact ⟨.inr ⟨rfl, rfl⟩, canSend⟩
  · rename_i absent
    have unknown : call.connection peerId = none :=
      congrArg (Option.map _) (AList.lookup_eq_none.mpr absent)
    refine ⟨.inl ⟨peerId, 1, unknown, ?_, ?_⟩, ?_⟩ <;>
      simp only [WebRtcMediaPeer.new, WebRtcMediaPeer.createOffer, signalingApi,
        RtcPeer.setLocalDescription, RtcPeer.fresh, sendOutbound, setPeer, canSend, if_true]
    · exact changes_setPeer call peerId _
    · rfl

end VoiceCall

namespace MeshRoom

variable {room : MeshRoom PeerId RtcPeer}

def connection (room : MeshRoom PeerId RtcPeer) (peerId : PeerId) : Option RtcPeer :=
  room.peers.lookup peerId

theorem changes_setPeer (room : MeshRoom PeerId RtcPeer) (remoteId : PeerId) (pc : RtcPeer) :
    Changes room.connection (room.setPeer remoteId pc).connection remoteId (some pc) where
  here := AList.lookup_insert _
  elsewhere _ h := AList.lookup_insert_ne h

theorem answerOffer_responds (room : MeshRoom PeerId RtcPeer) (remoteId : PeerId) (sdp : String)
    (requestId : UInt64) {pc : RtcPeer} (held : (room.connection remoteId).getD .fresh = pc)
    (crossed : pc.signaling = .haveLocalOffer → room.connection remoteId = some pc) :
    let done := room.answerOffer signalingApi remoteId pc sdp requestId
    Responds room.connection done.1.connection remoteId (.offer sdp requestId) done.2 := by
  have changed (pc : RtcPeer) := changes_setPeer room remoteId pc
  obtain ⟨signaling, negotiated⟩ := pc
  cases signaling with
  | haveLocalOffer =>
    have own := crossed rfl
    refine ⟨?_, ?_⟩
    · simp only [respond, own, Option.getD_some]
      exact changed _
    · rw [own]
      rfl
  | stable | haveRemoteOffer =>
    refine ⟨?_, ?_⟩
    · simp only [respond, held]
      exact changed _
    · simp only [respond, held]
      rfl

/-- The browser does what the abstract end does. -/
theorem handleInbound_responds (room : MeshRoom PeerId RtcPeer) (remoteId : PeerId)
    (message : SignalingMessage) :
    let done := room.handleInbound signalingApi remoteId message
    Responds room.connection done.1.connection remoteId message done.2 := by
  cases found : room.peers.lookup remoteId with
  | some pc =>
    have known : room.connection remoteId = some pc := found
    have kept := changes_setPeer room remoteId pc
    cases message with
    | offer sdp requestId =>
      simp only [handleInbound, found]
      exact answerOffer_responds room remoteId sdp requestId (by rw [known, Option.getD_some])
        fun _ => known
    | answer sdp requestId =>
      simp only [handleInbound, found]
      obtain ⟨signaling, negotiated⟩ := pc
      cases signaling with
      | haveLocalOffer =>
        exact ⟨by rw [known]; exact changes_setPeer room remoteId _, by rw [known]; rfl⟩
      | stable | haveRemoteOffer =>
        exact ⟨by rw [known]; exact ⟨known, fun _ _ => rfl⟩, by rw [known]; rfl⟩
    | iceCandidate candidate requestId =>
      simp only [handleInbound, found]
      exact ⟨by rw [known]; exact kept, by rw [known]; rfl⟩
    | bye requestId =>
      simp only [handleInbound, found]
      refine ⟨?_, by rw [known]; rfl⟩
      rw [known]
      exact ⟨AList.lookup_erase remoteId room.peers, fun _ h => AList.lookup_erase_ne h⟩
  | none =>
    have unknown : room.connection remoteId = none := found
    cases message with
    | offer sdp requestId =>
      simp only [handleInbound, found]
      exact answerOffer_responds room remoteId sdp requestId (by rw [unknown]; rfl) fun h => by cases h
    | answer | iceCandidate | bye =>
      simp only [handleInbound, found]
      exact ⟨by rw [unknown]; exact ⟨unknown, fun _ _ => rfl⟩, by rw [unknown]; rfl⟩

theorem initiate_offers (room : MeshRoom PeerId RtcPeer) (remoteId : PeerId) :
    let done := room.initiate signalingApi remoteId
    Offers room.connection done.1.connection done.2 := by
  unfold initiate
  split
  · exact .inr ⟨rfl, rfl⟩
  · rename_i absent
    exact .inl ⟨remoteId, room.nextRequestId, AList.lookup_eq_none.mpr absent,
      changes_setPeer room remoteId .offering, rfl⟩

end MeshRoom

namespace Member

variable {member member' : Member PeerId RtcPeer} {sent : List (PeerId × SignalingMessage)}

theorem start_fresh (roomId : String) (self : PeerId) (known : List PeerId) (kind : EndKind) :
    (start signalingApi roomId self known kind).Open ∧
      (start signalingApi roomId self known kind).connection = fun _ => none := by
  cases kind <;> exact ⟨by first | rfl | trivial, rfl⟩

/-- A step of a join offers to one more peer, or does nothing that the others could see. -/
theorem proceed_offers (canSend : member.Open) :
    Offers member.connection (member.proceed signalingApi).1.connection
        (member.proceed signalingApi).2 ∧ (member.proceed signalingApi).1.Open := by
  cases member with
  | outside => exact ⟨.inr ⟨rfl, rfl⟩, trivial⟩
  | native call ahead registered =>
    cases ahead with
    | nil => exact ⟨.inr ⟨rfl, rfl⟩, canSend⟩
    | cons peerId ahead => exact VoiceCall.addPeerAsInitiator_offers canSend peerId
  | browser room ahead =>
    cases ahead with
    | nil => exact ⟨.inr ⟨rfl, rfl⟩, trivial⟩
    | cons peerId ahead => exact ⟨MeshRoom.initiate_offers room peerId, trivial⟩

/-- A registry with one call delivers to it. -/
theorem deliver_eq (roomId : String) (call : VoiceCall PeerId RtcPeer) (sender : PeerId)
    (message : SignalingMessage) : deliver signalingApi roomId call sender message =
      ((call.onSignalingIn signalingApi sender message).call,
        (call.onSignalingIn signalingApi sender message).sent) := by
  have held : (AList.singleton roomId call : VoiceCallRegistry PeerId RtcPeer).lookup roomId =
      some call := by
    rw [← AList.insert_empty, AList.lookup_insert]
  have target (P : String → Bool) : ([roomId].find? P).or [roomId].head? = some roomId := by
    cases h : P roomId <;> simp only [List.find?_cons, h, List.find?_nil, Option.none_or,
      Option.some_or, List.head?_cons]
  simp only [deliver, VoiceCallRegistry.deliverSignaling, target, held, AList.lookup_insert,
    Option.getD_some]

/-- Both ends do what the abstract end does. -/
theorem receive_responds (roomId : String) {sender : PeerId} {message : SignalingMessage}
    (canSend : member.Open)
    (taken : member.receive signalingApi roomId sender message = some (member', sent)) :
    Responds member.connection member'.connection sender message sent ∧ member'.Open := by
  cases member with
  | outside => cases taken
  | native call ahead registered =>
    cases registered with
    | false => cases taken
    | true =>
      simp only [receive, deliver_eq, Option.some.injEq, Prod.mk.injEq] at taken
      obtain ⟨rfl, rfl⟩ := taken
      exact VoiceCall.onSignalingIn_responds canSend sender message
  | browser room ahead =>
    cases taken
    exact ⟨MeshRoom.handleInbound_responds room sender message, trivial⟩

end Member

end Concorrd.Voice
