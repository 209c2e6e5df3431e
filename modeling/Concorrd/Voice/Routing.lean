import Concorrd.Lib.Run
import Concorrd.Voice.PeerConnection

/-!
# Rooms of voice envelopes

An envelope does not say which room it is for. What a peer sends in reaction to an offer for a room
is handed to the first call in the order of the map that has the peer, so it reaches its own room
exactly when no call of another room that has the peer comes first (`routedHome_along_iff`). Where two
calls share a peer, some order sends it to the wrong one (`exists_order_misrouting`).
-/

namespace Concorrd.Voice

open Machine

/-- An envelope on the wire, with the room its sender means. The wire does not carry the room. -/
structure Envelope (PeerId : Type) where
  sender : PeerId
  message : SignalingMessage
  room : String

/-- Everything but an offer reacts to an offer. -/
def SignalingMessage.IsReaction : SignalingMessage → Prop
  | .offer .. => False
  | _ => True

instance (message : SignalingMessage) : Decidable message.IsReaction := by
  cases message <;> unfold SignalingMessage.IsReaction <;> infer_instance

section

variable {PeerId Pc : Type} [DecidableEq PeerId] {api : WebRtc Pc}
  {registry : VoiceCallRegistry PeerId Pc} {order : List String} {sender : PeerId}
  {message : SignalingMessage}

namespace VoiceCallRegistry

theorem peerFor_of_reaction {call : VoiceCall PeerId Pc} (reaction : message.IsReaction) :
    call.peerFor api sender message = .ok (call.peers.lookup sender) := by
  cases message with
  | offer sdp requestId => exact reaction.elim
  | answer sdp requestId => rfl
  | iceCandidate candidate requestId => rfl
  | bye requestId => rfl

omit [DecidableEq PeerId] in
theorem knows_iff {room : String} {call : VoiceCall PeerId Pc}
    (found : registry.lookup room = some call) : registry.Knows sender room ↔ sender ∈ call.peers := by
  simp only [Knows, found, Option.mem_some_iff, exists_eq_left']

omit [DecidableEq PeerId] in
theorem mem_of_knows {room : String} (knows : registry.Knows sender room) : room ∈ registry := by
  obtain ⟨call, found, -⟩ := knows
  exact AList.lookup_isSome.mp (Option.isSome_iff_exists.mpr ⟨call, found⟩)

/-- A reaction is handed to the first call that has its sender, or to none. -/
theorem applied_of_reaction (reaction : message.IsReaction) :
    (registry.deliverSignaling api order sender message).applied =
      order.find? fun room => registry.Knows sender room := by
  unfold deliverSignaling
  cases hfind : order.find? fun room => registry.Knows sender room with
  | some room =>
    have first := List.find?_some hfind
    rw [decide_eq_true_eq] at first
    obtain ⟨call, found, known⟩ := first
    obtain ⟨peer, hpeer⟩ := Option.isSome_iff_exists.mp (AList.lookup_isSome.mpr known)
    simp only [Option.some_or, Option.mem_def.mp found, peerFor_of_reaction reaction, hpeer]
  | none =>
    rw [Option.none_or]
    cases hhead : order.head? with
    | none => rfl
    | some room =>
      cases found : registry.lookup room with
      | none => simp only [found]
      | some call =>
        have unknown : call.peers.lookup sender = none := by
          refine AList.lookup_eq_none.mpr fun known => ?_
          have stranger := List.find?_eq_none.mp hfind room (List.mem_of_mem_head? hhead)
          exact stranger (decide_eq_true ((knows_iff found).mpr known))
        simp only [found, peerFor_of_reaction reaction, unknown]

/-- A call whose connections an envelope was not handed to is as it was. -/
theorem lookup_of_not_applied {room : String}
    (other : (registry.deliverSignaling api order sender message).applied ≠ some room) :
    (registry.deliverSignaling api order sender message).registry.lookup room =
      registry.lookup room := by
  revert other
  unfold deliverSignaling
  cases (order.find? fun room => registry.Knows sender room).or order.head? with
  | none => exact fun _ => rfl
  | some target =>
    cases found : registry.lookup target with
    | none => simp only [found, implies_true]
    | some call =>
      simp only [found]
      intro other
      by_cases same : room = target
      · subst same
        rw [AList.lookup_insert, found]
        -- the call handed the envelope to none of its connections
        unfold VoiceCall.onSignalingIn
        cases hpeer : call.peerFor api sender message with
        | error e => rfl
        | ok peer =>
          cases peer with
          | none => rfl
          | some peer => simp only [hpeer, ne_eq, not_true_eq_false] at other
      · exact AList.lookup_insert_ne same

/-- Where two calls have a peer, the map may yield either of them first. -/
theorem exists_order_misrouting {home room : String} (reaction : message.IsReaction)
    (knows : registry.Knows sender room) (other : room ≠ home) :
    ∃ order : List String, order.Perm registry.keys ∧ ∃ wrong ≠ home,
      (registry.deliverSignaling api order sender message).applied = some wrong := by
  have mem : room ∈ registry.keys := mem_of_knows knows
  refine ⟨room :: registry.keys.erase room, (List.perm_cons_erase mem).symm, room, other, ?_⟩
  rw [applied_of_reaction reaction, List.find?_cons, decide_eq_true knows]

end VoiceCallRegistry

end

/-! ## Runs of a node -/

/-- The calls of a node, and the offers it sent, each with its room. -/
structure VoiceNode (PeerId Pc : Type) where
  registry : VoiceCallRegistry PeerId Pc
  offered : List (String × PeerId)

/-- A command of the user, a tick, or an envelope of the network. -/
inductive VoiceEvent (PeerId : Type) where
  | join (room : String) (participants iceServers : List String) (outboundOpen : Bool)
  | addPeer (room : String) (peerId : PeerId)
  | tick (room : String)
  | leave (room : String)
  | deliver (order : List String) (envelope : Envelope PeerId)

namespace VoiceNode

variable {PeerId Pc : Type} [DecidableEq PeerId] (api : WebRtc Pc)
  (parse : String → Except String PeerId) (localPeerId : PeerId)

/-- Take over a registry, and note the offers among what was sent for the room. -/
def sends (s : VoiceNode PeerId Pc) (room : String) (registry : VoiceCallRegistry PeerId Pc)
    (sent : List (PeerId × SignalingMessage)) : VoiceNode PeerId Pc :=
  { registry
    offered := s.offered ++ (sent.filter fun x => ¬x.2.IsReaction).map fun x => (room, x.1) }

def step [ToString PeerId] (s : VoiceNode PeerId Pc) : VoiceEvent PeerId → VoiceNode PeerId Pc
  | .join room participants iceServers outboundOpen =>
    let (_, registry, sent) :=
      voiceMeshJoin api parse localPeerId outboundOpen room participants iceServers s.registry
    s.sends room registry sent
  | .addPeer room peerId =>
    let (_, registry, sent) := s.registry.addPeerAsInitiator api room peerId
    s.sends room registry sent
  | .tick room => { s with registry := (s.registry.tick api room).2.1 }
  | .leave room => { s with registry := (voiceMeshLeave room s.registry).2.1 }
  | .deliver order env =>
    { s with registry := (s.registry.deliverSignaling api order env.sender env.message).registry }

/-- An envelope meets the rooms in the order of the map, which is any. -/
def Ordered (s : VoiceNode PeerId Pc) : VoiceEvent PeerId → Prop
  | .deliver order _ => order.Perm s.registry.keys
  | _ => True

instance (s : VoiceNode PeerId Pc) (e : VoiceEvent PeerId) : Decidable (s.Ordered e) := by
  cases e <;> unfold Ordered <;> infer_instance

/-- A peer reacts to offers it was sent only. -/
def Honest (s : VoiceNode PeerId Pc) : VoiceEvent PeerId → Prop
  | .deliver _ env => env.message.IsReaction → (env.room, env.sender) ∈ s.offered
  | _ => True

/-- A reaction is handed to no connection but that of its own room, and leaves the calls of all other
rooms as they are. -/
def RoutedHome (s : VoiceNode PeerId Pc) : VoiceEvent PeerId → Prop
  | .deliver order env => env.message.IsReaction →
    let done := s.registry.deliverSignaling api order env.sender env.message
    (∀ room ∈ done.applied, room = env.room) ∧
      ∀ room ≠ env.room, done.registry.lookup room = s.registry.lookup room
  | _ => True

/-- Every other call that has the sender comes after the call of the envelope's room, which has it
too. -/
def HomeFirst (s : VoiceNode PeerId Pc) : VoiceEvent PeerId → Prop
  | .deliver order env => env.message.IsReaction →
    ∀ room ≠ env.room, s.registry.Knows env.sender room → s.registry.Knows env.sender env.room ∧
      ∃ before after, order = before ++ env.room :: after ∧ room ∉ before
  | _ => True

variable {api parse localPeerId} {s : VoiceNode PeerId Pc} {e : VoiceEvent PeerId}

theorem routedHome_iff (ordered : s.Ordered e) : s.RoutedHome api e ↔ s.HomeFirst e := by
  cases e with
  | join room participants iceServers outboundOpen => exact Iff.rfl
  | addPeer room peerId => exact Iff.rfl
  | tick room => exact Iff.rfl
  | leave room => exact Iff.rfl
  | deliver order env =>
    refine forall_congr' fun reaction => ?_
    have applied : (s.registry.deliverSignaling api order env.sender env.message).applied =
        order.find? fun room => s.registry.Knows env.sender room :=
      VoiceCallRegistry.applied_of_reaction reaction
    constructor
    · rintro ⟨home, -⟩ room other knows
      -- somebody is found, since the other call would do, and it is the call of the room
      cases hfind : order.find? fun room => s.registry.Knows env.sender room with
      | none =>
        have mem : room ∈ order := ordered.mem_iff.mpr (VoiceCallRegistry.mem_of_knows knows)
        exact absurd (decide_eq_true knows) (List.find?_eq_none.mp hfind room mem)
      | some target =>
        obtain rfl := home target (applied.trans hfind)
        obtain ⟨known, before, after, heq, none⟩ := List.find?_eq_some_iff_append.mp hfind
        refine ⟨of_decide_eq_true known, before, after, heq, fun mem => ?_⟩
        have stranger := none room mem
        rw [decide_eq_true knows] at stranger
        cases stranger
    · intro first
      have home : ∀ room ∈ (s.registry.deliverSignaling api order env.sender env.message).applied,
          room = env.room := by
        intro room mem
        rw [applied] at mem
        obtain ⟨known, before, after, heq, none⟩ := List.find?_eq_some_iff_append.mp mem
        by_contra other
        obtain ⟨homeKnown, before', after', heq', notBefore⟩ :=
          first room other (of_decide_eq_true known)
        rcases List.append_eq_append_iff.mp (heq.symm.trans heq') with
          ⟨mid, rfl, hmid⟩ | ⟨mid, rfl, hmid⟩
        · cases mid with
          | nil => exact other (List.cons.inj hmid).1
          | cons r mid =>
            cases (List.cons.inj hmid).1
            exact notBefore (List.mem_append_right _ List.mem_cons_self)
        · cases mid with
          | nil => exact other (List.cons.inj hmid).1.symm
          | cons r mid =>
            cases (List.cons.inj hmid).1
            have stranger := none env.room (List.mem_append_right _ List.mem_cons_self)
            rw [decide_eq_true homeKnown] at stranger
            cases stranger
      refine ⟨home, fun room other => VoiceCallRegistry.lookup_of_not_applied fun wrong => ?_⟩
      exact other (home room wrong)

/-- In a run of a node, every reaction to an offer of its own is handed to the connection of its
room only, and no other room loses a connection over it, exactly when no call of another room that
has the sender ever comes before the call of that room. -/
theorem routedHome_along_iff [ToString PeerId] (api : WebRtc Pc)
    (parse : String → Except String PeerId) (localPeerId : PeerId) (start : VoiceNode PeerId Pc)
    (events : List (VoiceEvent PeerId))
    (ordered : Along (step api parse localPeerId) Ordered start events) :
    Along (step api parse localPeerId) (RoutedHome api) start events ↔
      Along (step api parse localPeerId) HomeFirst start events :=
  along_congr_of ordered fun _ _ => routedHome_iff

/-! ## Two rooms with the same peer -/

def twoRooms (last : SignalingMessage) : List (VoiceEvent String) :=
  [.join "!general" ["bob"] [] true, .join "!huddle" ["bob"] [] true,
    .deliver ["!general", "!huddle"] ⟨"bob", last, "!huddle"⟩]

/-- Bob leaves the huddle, and the call of the other room loses its connection to him. -/
theorem bye_closes_other_room :
    Along (step signalingApi .ok "alice") Ordered ⟨∅, []⟩ (twoRooms (.bye 0)) ∧
      Along (step signalingApi .ok "alice") Honest ⟨∅, []⟩ (twoRooms (.bye 0)) ∧
      ¬Along (step signalingApi .ok "alice") (RoutedHome signalingApi) ⟨∅, []⟩
        (twoRooms (.bye 0)) := by
  refine ⟨⟨trivial, trivial, by decide, trivial⟩, ⟨trivial, trivial, fun _ => by decide, trivial⟩, ?_⟩
  rintro ⟨-, -, routed, -⟩
  exact absurd ((routed trivial).1 "!general" (by decide)) (by decide)

theorem routedHome_along_iff_twoRooms :
    Along (step signalingApi .ok "alice") (RoutedHome signalingApi) ⟨∅, []⟩
        (twoRooms (.answer "answer" 1)) ↔
      Along (step signalingApi .ok "alice") HomeFirst ⟨∅, []⟩ (twoRooms (.answer "answer" 1)) :=
  routedHome_along_iff signalingApi .ok "alice" ⟨∅, []⟩ (twoRooms (.answer "answer" 1))
    ⟨trivial, trivial, by decide, trivial⟩

end VoiceNode

end Concorrd.Voice
