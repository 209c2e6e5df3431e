import Concorrd.Voice.Call

/-!
# The signaling states of a connection

A connection waits for nothing, for the answer to an offer of its own, or for its own answer to an
offer it took. An offer of the other side fails while it waits for an answer.
-/

namespace Concorrd.Voice

inductive SignalingState where
  | stable
  | haveLocalOffer
  | haveRemoteOffer
  deriving DecidableEq, Repr

/-- A connection, and whether an offer and its answer have gone through on it. -/
structure RtcPeer where
  signaling : SignalingState
  negotiated : Bool
  deriving DecidableEq, Repr

namespace RtcPeer

def setLocalDescription : SessionDescription → RtcPeer → Except String RtcPeer
  | .offer _, pc =>
    match pc.signaling with
    | .haveRemoteOffer => .error "cannot set local offer in have-remote-offer"
    | _ => .ok { pc with signaling := .haveLocalOffer }
  | .answer _, pc =>
    match pc.signaling with
    | .haveRemoteOffer => .ok ⟨.stable, true⟩
    | _ => .error "cannot set local answer outside have-remote-offer"

def setRemoteDescription : SessionDescription → RtcPeer → Except String RtcPeer
  | .offer _, pc =>
    match pc.signaling with
    | .haveLocalOffer => .error "cannot set remote offer in have-local-offer"
    | _ => .ok { pc with signaling := .haveRemoteOffer }
  | .answer _, pc =>
    match pc.signaling with
    | .haveLocalOffer => .ok ⟨.stable, true⟩
    | _ => .error "cannot set remote answer outside have-local-offer"

def createAnswer (pc : RtcPeer) : Except String String :=
  match pc.signaling with
  | .haveRemoteOffer => .ok "answer"
  | _ => .error "cannot create an answer outside have-remote-offer"

/-- Before the first description. -/
def fresh : RtcPeer := ⟨.stable, false⟩

/-- Waits for the answer to the first offer. -/
def offering : RtcPeer := ⟨.haveLocalOffer, false⟩

/-- An offer and its answer have gone through. -/
def connected : RtcPeer := ⟨.stable, true⟩

end RtcPeer

/-- The WebRTC library, as far as its signaling states go. -/
def signalingApi : WebRtc RtcPeer where
  build := .ok ()
  newPeerConnection _ := .ok .fresh
  createOffer _ := .ok "offer"
  createAnswer := RtcPeer.createAnswer
  setLocalDescription := RtcPeer.setLocalDescription
  setRemoteDescription := RtcPeer.setRemoteDescription
  addIceCandidate _ pc := .ok pc
  takeCandidates pc := ([], pc)
  close _ := .fresh

end Concorrd.Voice
