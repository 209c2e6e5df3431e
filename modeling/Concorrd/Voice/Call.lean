import Mathlib.Data.List.AList

/-!
# Voice calls

A voice call holds a WebRTC connection a participant, and the registry holds a call a room. The
envelopes of the signaling protocol name no room: `deliver_signaling` hands an envelope to the first
call, in the order in which the map yields the rooms, that has the sender among its peers, and to the
first call of all when none has. What the WebRTC library does with a connection is a parameter.
-/

namespace Concorrd.Voice

/-- An envelope of the signaling protocol. -/
inductive SignalingMessage where
  | offer (sdp : String) (requestId : UInt64)
  | answer (sdp : String) (requestId : UInt64)
  | iceCandidate (candidate : String) (requestId : UInt64)
  | bye (requestId : UInt64)
  deriving DecidableEq, Repr

/-- An offer or an answer, as the WebRTC library takes it. -/
inductive SessionDescription where
  | offer (sdp : String)
  | answer (sdp : String)
  deriving DecidableEq, Repr

/-- What the WebRTC library does with a connection. A call that fails leaves it as it was. -/
structure WebRtc (Pc : Type) where
  build : Except String Unit
  newPeerConnection : List String → Except String Pc
  createOffer : Pc → Except String String
  createAnswer : Pc → Except String String
  setLocalDescription : SessionDescription → Pc → Except String Pc
  setRemoteDescription : SessionDescription → Pc → Except String Pc
  addIceCandidate : String → Pc → Except String Pc
  /-- The candidates found since the last call. -/
  takeCandidates : Pc → List String × Pc
  close : Pc → Pc

inductive VoiceError (PeerId : Type) where
  | webRtc (e : String)
  | callNotFound (roomId : String)
  | peerAlreadyPresent (peerId : PeerId)
  | peerNotPresent (peerId : PeerId)
  | channelClosed (e : String)
  deriving DecidableEq, Repr

def VoiceError.toString {PeerId : Type} [ToString PeerId] : VoiceError PeerId → String
  | .webRtc e => "webrtc error: " ++ e
  | .callNotFound roomId => "voice call not found for room_id=" ++ roomId.quote
  | .peerAlreadyPresent peerId => "peer already in call: " ++ ToString.toString peerId
  | .peerNotPresent peerId => "peer not in call: " ++ ToString.toString peerId
  | .channelClosed e => "internal channel closed: " ++ e

/-- The connection to a participant. -/
structure WebRtcMediaPeer (Pc : Type) where
  pc : Pc
  requestId : UInt64
  deriving DecidableEq, Repr

namespace WebRtcMediaPeer

variable {Pc : Type} (PeerId : Type) (api : WebRtc Pc)

def new (iceServers : List String) : Except (VoiceError PeerId) (WebRtcMediaPeer Pc) :=
  match api.newPeerConnection iceServers with
  | .error e => .error (.webRtc e)
  | .ok pc => .ok ⟨pc, 0⟩

def createOffer (peer : WebRtcMediaPeer Pc) :
    Except (VoiceError PeerId) (String × UInt64) × WebRtcMediaPeer Pc :=
  match api.createOffer peer.pc with
  | .error e => (.error (.webRtc e), peer)
  | .ok sdp =>
    match api.setLocalDescription (.offer sdp) peer.pc with
    | .error e => (.error (.webRtc e), peer)
    | .ok pc =>
      let requestId := max (peer.requestId + 1) 1
      (.ok (sdp, requestId), ⟨pc, requestId⟩)

def handleOffer (sdp : String) (requestId : UInt64) (peer : WebRtcMediaPeer Pc) :
    Except (VoiceError PeerId) String × WebRtcMediaPeer Pc :=
  match api.setRemoteDescription (.offer sdp) peer.pc with
  | .error e => (.error (.webRtc e), peer)
  | .ok pc =>
    match api.createAnswer pc with
    | .error e => (.error (.webRtc e), { peer with pc })
    | .ok answer =>
      match api.setLocalDescription (.answer answer) pc with
      | .error e => (.error (.webRtc e), { peer with pc })
      | .ok pc => (.ok answer, ⟨pc, requestId⟩)

def handleAnswer (sdp : String) (peer : WebRtcMediaPeer Pc) :
    Except (VoiceError PeerId) Unit × WebRtcMediaPeer Pc :=
  match api.setRemoteDescription (.answer sdp) peer.pc with
  | .error e => (.error (.webRtc e), peer)
  | .ok pc => (.ok (), { peer with pc })

def handleIceCandidate (candidate : String) (peer : WebRtcMediaPeer Pc) :
    Except (VoiceError PeerId) Unit × WebRtcMediaPeer Pc :=
  match api.addIceCandidate candidate peer.pc with
  | .error e => (.error (.webRtc e), peer)
  | .ok pc => (.ok (), { peer with pc })

/-- The candidates found since the last call, and the connection without them. -/
def drainPendingIce (peer : WebRtcMediaPeer Pc) : List String × WebRtcMediaPeer Pc :=
  let (candidates, pc) := api.takeCandidates peer.pc
  (candidates, { peer with pc })

end WebRtcMediaPeer

inductive CallState where
  | active
  | closed
  deriving DecidableEq, Repr

/-- A call. `outboundOpen` says whether the runtime still takes envelopes from it. -/
structure VoiceCall (PeerId Pc : Type) where
  roomId : String
  localPeerId : PeerId
  peers : AList fun _ : PeerId => WebRtcMediaPeer Pc
  state : CallState
  outboundOpen : Bool
  iceServers : List String

/-- What a method of a call comes to: its result, the call, and what it sent to whom. -/
structure Outcome (PeerId Pc : Type) where
  result : Except (VoiceError PeerId) Unit
  call : VoiceCall PeerId Pc
  sent : List (PeerId × SignalingMessage)

variable {PeerId Pc : Type} [DecidableEq PeerId]

namespace VoiceCall

variable (api : WebRtc Pc)

def new (roomId : String) (localPeerId : PeerId) (outboundOpen : Bool) (iceServers : List String) :
    Except (VoiceError PeerId) (VoiceCall PeerId Pc) :=
  match api.build with
  | .error e => .error (.webRtc e)
  | .ok _ => .ok ⟨roomId, localPeerId, ∅, .active, outboundOpen, iceServers⟩

/-- Send an envelope, and go on with it among what was sent. -/
def sendOutbound (call : VoiceCall PeerId Pc) (peerId : PeerId) (message : SignalingMessage) :
    Outcome PeerId Pc :=
  if call.outboundOpen then ⟨.ok (), call, [(peerId, message)]⟩
  else ⟨.error (.channelClosed "signaling outbound: channel closed"), call, []⟩

/-- Replace the connection to a peer. -/
def setPeer (call : VoiceCall PeerId Pc) (peerId : PeerId) (peer : WebRtcMediaPeer Pc) :
    VoiceCall PeerId Pc :=
  { call with peers := call.peers.insert peerId peer }

def addPeerAsInitiator (call : VoiceCall PeerId Pc) (peerId : PeerId) : Outcome PeerId Pc :=
  if peerId ∈ call.peers then ⟨.error (.peerAlreadyPresent peerId), call, []⟩
  else
    match WebRtcMediaPeer.new PeerId api call.iceServers with
    | .error e => ⟨.error e, call, []⟩
    | .ok media =>
      match media.createOffer PeerId api with
      | (.error e, _) => ⟨.error e, call, []⟩
      | (.ok (sdp, requestId), media) =>
        (call.setPeer peerId media).sendOutbound peerId (.offer sdp requestId)

/-- Send the candidates of a peer until a send fails. -/
def sendCandidates (call : VoiceCall PeerId Pc) (peerId : PeerId) :
    List String → Outcome PeerId Pc
  | [] => ⟨.ok (), call, []⟩
  | candidate :: candidates =>
    match call.sendOutbound peerId (.iceCandidate candidate 1) with
    | ⟨.error e, call, sent⟩ => ⟨.error e, call, sent⟩
    | ⟨.ok _, call, sent⟩ =>
      let rest := sendCandidates call peerId candidates
      { rest with sent := sent ++ rest.sent }

def drainPendingOutbound (call : VoiceCall PeerId Pc) (peerId : PeerId) : Outcome PeerId Pc :=
  match call.peers.lookup peerId with
  | none => ⟨.ok (), call, []⟩
  | some peer =>
    let (candidates, peer) := peer.drainPendingIce api
    (call.setPeer peerId peer).sendCandidates peerId candidates

/-- The connection an envelope is for. An offer of a stranger makes one. -/
def peerFor (call : VoiceCall PeerId Pc) (sender : PeerId) :
    SignalingMessage → Except (VoiceError PeerId) (Option (WebRtcMediaPeer Pc))
  | .offer .. =>
    match call.peers.lookup sender with
    | some peer => .ok (some peer)
    | none => (WebRtcMediaPeer.new PeerId api call.iceServers).map some
  | _ => .ok (call.peers.lookup sender)

/-- Hand an envelope to the connection to its sender. -/
def apply (call : VoiceCall PeerId Pc) (sender : PeerId) (peer : WebRtcMediaPeer Pc) :
    SignalingMessage → Outcome PeerId Pc
  | .offer sdp requestId =>
    match peer.handleOffer PeerId api sdp requestId with
    | (.error e, peer) => ⟨.error e, call.setPeer sender peer, []⟩
    | (.ok answer, peer) =>
      (call.setPeer sender peer).sendOutbound sender (.answer answer requestId)
  | .answer sdp _ =>
    let (result, peer) := peer.handleAnswer PeerId api sdp
    ⟨result, call.setPeer sender peer, []⟩
  | .iceCandidate candidate _ =>
    -- an error is only logged
    ⟨.ok (), call.setPeer sender (peer.handleIceCandidate PeerId api candidate).2, []⟩
  | .bye _ => ⟨.ok (), { call with peers := call.peers.erase sender }, []⟩

/-- Handle an inbound envelope. -/
def onSignalingIn (call : VoiceCall PeerId Pc) (sender : PeerId) (message : SignalingMessage) :
    Outcome PeerId Pc :=
  match call.peerFor api sender message with
  | .error e => ⟨.error e, call, []⟩
  | .ok none => ⟨.ok (), call, []⟩
  | .ok (some peer) =>
    match call.apply api sender peer message with
    | ⟨.error e, call, sent⟩ => ⟨.error e, call, sent⟩
    | ⟨.ok _, call, sent⟩ =>
      let rest := call.drainPendingOutbound api sender
      { rest with sent := sent ++ rest.sent }

def tick (call : VoiceCall PeerId Pc) : Outcome PeerId Pc :=
  call.peers.keys.foldl (fun done peerId =>
    match done.result with
    | .error _ => done
    | .ok _ =>
      let next := done.call.drainPendingOutbound api peerId
      { next with sent := done.sent ++ next.sent }) ⟨.ok (), call, []⟩

/-- Say goodbye to every peer and close. A send that fails is let go. -/
def leave (call : VoiceCall PeerId Pc) : Outcome PeerId Pc :=
  ⟨.ok (), { call with peers := ∅, state := .closed },
    call.peers.keys.flatMap fun peerId => (call.sendOutbound peerId (.bye 0)).sent⟩

end VoiceCall

/-! ## The registry -/

/-- The call of each room. -/
abbrev VoiceCallRegistry (PeerId Pc : Type) := AList fun _ : String => VoiceCall PeerId Pc

namespace VoiceCallRegistry

variable (api : WebRtc Pc)

def register (registry : VoiceCallRegistry PeerId Pc) (call : VoiceCall PeerId Pc) :
    Except (VoiceError PeerId) Unit × VoiceCallRegistry PeerId Pc :=
  if call.roomId ∈ registry then
    (.error (.callNotFound ("voice call already active for " ++ call.roomId)), registry)
  else (.ok (), registry.insert call.roomId call)

def remove (registry : VoiceCallRegistry PeerId Pc) (roomId : String) :
    Except (VoiceError PeerId) Unit × VoiceCallRegistry PeerId Pc ×
      List (PeerId × SignalingMessage) :=
  match registry.lookup roomId with
  | none => (.error (.callNotFound roomId), registry, [])
  | some call =>
    let left := call.leave
    (left.result, registry.erase roomId, left.sent)

/-- Run a method of the call of a room. -/
def onCall (registry : VoiceCallRegistry PeerId Pc) (roomId : String)
    (method : VoiceCall PeerId Pc → Outcome PeerId Pc) :
    Except (VoiceError PeerId) Unit × VoiceCallRegistry PeerId Pc ×
      List (PeerId × SignalingMessage) :=
  match registry.lookup roomId with
  | none => (.error (.callNotFound roomId), registry, [])
  | some call =>
    let outcome := method call
    (outcome.result, registry.insert roomId outcome.call, outcome.sent)

def addPeerAsInitiator (registry : VoiceCallRegistry PeerId Pc) (roomId : String)
    (peerId : PeerId) : Except (VoiceError PeerId) Unit × VoiceCallRegistry PeerId Pc ×
      List (PeerId × SignalingMessage) :=
  registry.onCall roomId fun call => call.addPeerAsInitiator api peerId

def tick (registry : VoiceCallRegistry PeerId Pc) (roomId : String) :
    Except (VoiceError PeerId) Unit × VoiceCallRegistry PeerId Pc ×
      List (PeerId × SignalingMessage) :=
  registry.onCall roomId fun call => call.tick api

/-- Whether the call of the room has the sender among its peers. -/
def Knows (registry : VoiceCallRegistry PeerId Pc) (sender : PeerId) (room : String) : Prop :=
  ∃ call ∈ registry.lookup room, sender ∈ call.peers

instance (registry : VoiceCallRegistry PeerId Pc) (sender : PeerId) (room : String) :
    Decidable (registry.Knows sender room) :=
  inferInstanceAs (Decidable (∃ call ∈ registry.lookup room, sender ∈ call.peers))

/-- What delivering an envelope comes to: the registry, what was sent, and the room whose connection
to the sender the envelope was handed to, which the code does not report. -/
structure Delivery (PeerId Pc : Type) where
  registry : VoiceCallRegistry PeerId Pc
  sent : List (PeerId × SignalingMessage)
  applied : Option String

/-- Hand an envelope to a call. `order` is the order in which the map yields the rooms. -/
def deliverSignaling (registry : VoiceCallRegistry PeerId Pc) (order : List String)
    (sender : PeerId) (message : SignalingMessage) : Delivery PeerId Pc :=
  let targetRoom := (order.find? fun room => registry.Knows sender room).or order.head?
  match targetRoom with
  | none => ⟨registry, [], none⟩
  | some room =>
    match registry.lookup room with
    | none => ⟨registry, [], none⟩
    | some call =>
      let outcome := call.onSignalingIn api sender message
      let applied := match call.peerFor api sender message with
        | .ok (some _) => some room
        | _ => none
      ⟨registry.insert room outcome.call, outcome.sent, applied⟩

end VoiceCallRegistry

/-! ## Commands -/

variable [ToString PeerId] (api : WebRtc Pc) (parse : String → Except String PeerId)

/-- The peers of the texts, up to the first that does not parse. -/
def parsePeers : List String → Except String (List PeerId)
  | [] => .ok []
  | s :: participants =>
    match parse s with
    | .error e => .error ("voice_mesh_join: invalid peer_id " ++ s.quote ++ ": " ++ e)
    | .ok peerId => (parsePeers participants).map (peerId :: ·)

/-- Offer to the participants one after the other. One that fails is only logged. -/
def offerAll (call : VoiceCall PeerId Pc) :
    List PeerId → VoiceCall PeerId Pc × List (PeerId × SignalingMessage)
  | [] => (call, [])
  | peerId :: peers =>
    let added := call.addPeerAsInitiator api peerId
    let rest := offerAll added.call peers
    (rest.1, added.sent ++ rest.2)

/-- Join a call. The offers are on their way before the call is registered. -/
def voiceMeshJoin (localPeerId : PeerId) (outboundOpen : Bool) (roomId : String)
    (participants iceServers : List String) (registry : VoiceCallRegistry PeerId Pc) :
    Except String Unit × VoiceCallRegistry PeerId Pc × List (PeerId × SignalingMessage) :=
  match parsePeers parse participants with
  | .error e => (.error e, registry, [])
  | .ok peers =>
    match VoiceCall.new api roomId localPeerId outboundOpen iceServers with
    | .error e => (.error ("voice_mesh_join: build call: " ++ e.toString), registry, [])
    | .ok call =>
      let (call, sent) := offerAll api call (peers.filter fun peerId => peerId ≠ localPeerId)
      match registry.register call with
      | (.error e, registry) =>
        (.error ("voice_mesh_join: registry insert: " ++ e.toString), registry, sent)
      | (.ok _, registry) => (.ok (), registry, sent)

def voiceMeshLeave (roomId : String) (registry : VoiceCallRegistry PeerId Pc) :
    Except String Unit × VoiceCallRegistry PeerId Pc × List (PeerId × SignalingMessage) :=
  match registry.remove roomId with
  | (.error e, after) => (.error ("voice_mesh_leave: " ++ e.toString), after)
  | (.ok _, after) => (.ok (), after)

end Concorrd.Voice
