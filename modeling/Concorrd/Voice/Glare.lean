import Concorrd.Lib.Run
import Concorrd.Voice.Mesh

/-!
# Offers that cross

Participants join a room one step at a time, and what they send arrives in any order. Two of them end
up connected exactly when one has offered to the other and not the other way round, and the offer
and its answer came when their addressee was there to take them. Two offers that cross are both
refused, since neither end gives way, and nothing is ever sent again (`joined_connected_iff`).
-/

namespace Concorrd.Voice

open Machine

structure Packet (PeerId : Type) where
  sender : PeerId
  recipient : PeerId
  message : SignalingMessage
  deriving DecidableEq

/-- A room. Beside the participants and what is in flight, it keeps who has offered to whom, and
between whom an offer or an answer got lost because its addressee was not there to take it. -/
structure MeshNet (PeerId Pc : Type) where
  member : PeerId → Member PeerId Pc
  inFlight : List (Packet PeerId)
  offered : List (PeerId × PeerId)
  missed : List (PeerId × PeerId)

/-- Somebody begins to join or goes on joining, one of the packets in flight arrives, or a connection
finds a candidate. -/
inductive MeshEvent (PeerId : Type) where
  | enter (self : PeerId) (kind : EndKind) (known : List PeerId)
  | proceed (self : PeerId)
  | deliver (index : Nat)
  | gather (self peer : PeerId) (candidate : String)

def SignalingMessage.isOffer : SignalingMessage → Bool
  | .offer .. => true
  | _ => false

/-- An offer or an answer. -/
def SignalingMessage.isDescription : SignalingMessage → Bool
  | .offer .. | .answer .. => true
  | _ => false

namespace MeshNet

variable {PeerId Pc : Type} [DecidableEq PeerId]

/-- Nobody is there. -/
def empty : MeshNet PeerId Pc := ⟨fun _ => .outside, [], [], []⟩

/-- A participant has done a step and sent something. -/
def acts (s : MeshNet PeerId Pc) (self : PeerId) (member : Member PeerId Pc)
    (sent : List (PeerId × SignalingMessage)) : MeshNet PeerId Pc :=
  { s with
    member := Function.update s.member self member
    inFlight := s.inFlight ++ sent.map fun x => ⟨self, x.1, x.2⟩
    offered := s.offered ++ (sent.filter fun x => x.2.isOffer).map fun x => (self, x.1) }

def step (api : WebRtc Pc) (roomId : String) (s : MeshNet PeerId Pc) :
    MeshEvent PeerId → MeshNet PeerId Pc
  | .enter self kind known =>
    match s.member self with
    | .outside => s.acts self (.start api roomId self known kind) []
    | _ => s
  | .proceed self =>
    let (member, sent) := (s.member self).proceed api
    s.acts self member sent
  | .deliver index =>
    match s.inFlight[index]? with
    | none => s
    | some packet =>
      let rest := { s with inFlight := s.inFlight.eraseIdx index }
      match (s.member packet.recipient).receive api roomId packet.sender packet.message with
      | some (member, sent) => rest.acts packet.recipient member sent
      | none =>
        if packet.message.isDescription then
          { rest with missed := s.missed ++ [(packet.sender, packet.recipient)] }
        else rest
  | .gather self peer candidate =>
    match (s.member self).connection peer with
    | none => s
    | some _ => { s with inFlight := s.inFlight ++ [⟨self, peer, .iceCandidate candidate 1⟩] }

/-! ## What lies between two participants -/

/-- The offers and answers in flight from one to the other. -/
def descriptions (packets : List (Packet PeerId)) (p q : PeerId) : List SignalingMessage :=
  (packets.filter fun packet => packet.sender = p && packet.recipient = q &&
    packet.message.isDescription).map Packet.message

/-- One side of a pair: its connection to the other, what it has in flight to the other, and whether
it has offered to the other, and has had an offer or answer to the other lost. -/
@[ext]
structure Half where
  connection : Option RtcPeer
  inFlight : List SignalingMessage
  offered : Bool
  missed : Bool

def half (s : MeshNet PeerId RtcPeer) (p q : PeerId) : Half where
  connection := (s.member p).connection q
  inFlight := descriptions s.inFlight p q
  offered := (p, q) ∈ s.offered
  missed := (p, q) ∈ s.missed

/-- How far a pair has come, the side that offered first. -/
inductive Stage : Half → Half → Prop where
  | apart : Stage ⟨none, [], false, false⟩ ⟨none, [], false, false⟩
  | offerInFlight (id : UInt64) :
    Stage ⟨some .offering, [.offer "offer" id], true, false⟩ ⟨none, [], false, false⟩
  | offerMissed : Stage ⟨some .offering, [], true, true⟩ ⟨none, [], false, false⟩
  | answerInFlight (id : UInt64) : Stage ⟨some .offering, [], true, false⟩
      ⟨some .connected, [.answer "answer" id], false, false⟩
  | answerMissed : Stage ⟨some .offering, [], true, false⟩ ⟨some .connected, [], false, true⟩
  | done : Stage ⟨some .connected, [], true, false⟩ ⟨some .connected, [], false, false⟩
  | crossed (there back : List SignalingMessage) (missed missed' : Bool)
    (offers : ∀ message ∈ there ++ back, message.isOffer) :
    Stage ⟨some .offering, there, true, missed⟩ ⟨some .offering, back, true, missed'⟩

/-- A pair is at some stage, in one order or the other. -/
def Linked (a b : Half) : Prop := Stage a b ∨ Stage b a

section

variable {a b : Half} {before after : List SignalingMessage} {message : SignalingMessage}

theorem Linked.symm (h : Linked a b) : Linked b a := Or.symm h

/-- Where one side has no connection yet, it may offer. -/
theorem Linked.offer (h : Linked a b) (unconnected : a.connection = none) (id : UInt64) :
    Linked ⟨some .offering, a.inFlight ++ [.offer "offer" id], true, a.missed⟩ b := by
  rcases h with h | h
  · cases h with
    | apart => exact .inl (.offerInFlight id)
    | offerInFlight | offerMissed | answerInFlight | answerMissed | done | crossed =>
      cases unconnected
  · cases h with
    | apart => exact .inl (.offerInFlight id)
    | offerInFlight id' =>
      exact .inl (.crossed _ _ _ _ fun message mem => by
        rcases List.mem_pair.mp mem with rfl | rfl <;> rfl)
    | offerMissed =>
      exact .inl (.crossed _ _ _ _ fun message mem => by
        rw [List.mem_singleton.mp mem]
        rfl)
    | answerInFlight | answerMissed | done | crossed => cases unconnected

theorem not_nil_eq_split : [] ≠ before ++ message :: after :=
  fun h => List.cons_ne_nil _ _ (List.append_eq_nil_iff.mp h.symm).2

/-- Taking out of one leaves none. -/
theorem eq_of_split {only : SignalingMessage} (h : [only] = before ++ message :: after) :
    message = only ∧ before ++ after = [] := by
  cases before with
  | nil =>
    cases h
    exact ⟨rfl, rfl⟩
  | cons first before => exact absurd (List.cons.inj h).2 not_nil_eq_split

/-- Taking out of offers leaves offers. -/
theorem offers_of_split {back : List SignalingMessage}
    (offers : ∀ m ∈ before ++ message :: after ++ back, m.isOffer) :
    message.isOffer ∧ ∀ m ∈ before ++ after ++ back, m.isOffer := by
  refine ⟨offers message (by simp), fun m mem => offers m ?_⟩
  simp only [List.append_assoc, List.mem_append, List.cons_append, List.mem_cons] at mem ⊢
  rcases mem with mem | mem | mem
  · exact .inl mem
  · exact .inr (.inr (.inl mem))
  · exact .inr (.inr (.inr mem))

/-- An offer or answer that nobody took is lost. -/
theorem Linked.lose (h : Linked a b) (split : a.inFlight = before ++ message :: after) :
    Linked { a with inFlight := before ++ after, missed := true } b := by
  rcases h with h | h
  · cases h with
    | offerInFlight id =>
      rw [(eq_of_split split).2]
      exact .inl .offerMissed
    | crossed there back missed missed' offers =>
      cases split
      exact .inl (.crossed _ _ _ _ (offers_of_split offers).2)
    | apart | offerMissed | answerInFlight | answerMissed | done => exact absurd split not_nil_eq_split
  · cases h with
    | answerInFlight id =>
      rw [(eq_of_split split).2]
      exact .inr .answerMissed
    | crossed back there missed missed' offers =>
      cases split
      exact .inl (.crossed _ _ _ _ (offers_of_split fun m mem =>
        offers m (List.mem_append.mpr (List.mem_append.mp mem).symm)).2)
    | apart | offerInFlight | offerMissed | answerMissed | done => exact absurd split not_nil_eq_split

/-- An offer or answer is taken, and what it calls for is sent back. -/
theorem Linked.take (h : Linked a b) (split : a.inFlight = before ++ message :: after) :
    Linked { a with inFlight := before ++ after }
      { b with
        connection := (respond b.connection message).1
        inFlight := b.inFlight ++ (respond b.connection message).2 } := by
  have refused (offer : message.isOffer) : respond (some .offering) message =
      (some .offering, []) := by
    cases message with
    | offer sdp id => rfl
    | answer | iceCandidate | bye => cases offer
  rcases h with h | h
  · cases h with
    | offerInFlight id =>
      obtain ⟨rfl, none⟩ := eq_of_split split
      rw [none]
      exact .inl (.answerInFlight id)
    | crossed there back missed missed' offers =>
      cases split
      obtain ⟨offer, offers⟩ := offers_of_split offers
      rw [refused offer, List.append_nil]
      exact .inl (.crossed _ _ _ _ offers)
    | apart | offerMissed | answerInFlight | answerMissed | done => exact absurd split not_nil_eq_split
  · cases h with
    | answerInFlight id =>
      obtain ⟨rfl, none⟩ := eq_of_split split
      rw [none]
      exact .inr .done
    | crossed back there missed missed' offers =>
      cases split
      obtain ⟨offer, offers⟩ := offers_of_split fun m mem =>
        offers m (List.mem_append.mpr (List.mem_append.mp mem).symm)
      rw [refused offer, List.append_nil]
      exact .inl (.crossed _ _ _ _ offers)
    | apart | offerInFlight | offerMissed | answerMissed | done => exact absurd split not_nil_eq_split

end

/-! ## What a step does to a pair -/

section

variable {s s' : MeshNet PeerId RtcPeer} {self x p q : PeerId} {member : Member PeerId RtcPeer}
  {sent : List (PeerId × SignalingMessage)}

theorem descriptions_append (packets packets' : List (Packet PeerId)) (p q : PeerId) :
    descriptions (packets ++ packets') p q =
      descriptions packets p q ++ descriptions packets' p q := by
  simp only [descriptions, List.filter_append, List.map_append]

theorem descriptions_cons (packet : Packet PeerId) (packets : List (Packet PeerId)) (p q : PeerId) :
    descriptions (packet :: packets) p q =
      (if packet.sender = p ∧ packet.recipient = q ∧ packet.message.isDescription then
        [packet.message] else []) ++ descriptions packets p q := by
  unfold descriptions
  rw [List.filter_cons]
  by_cases h : packet.sender = p ∧ packet.recipient = q ∧ packet.message.isDescription
  · simp only [h, decide_true, Bool.and_self, if_true, List.map_cons, and_self, List.singleton_append]
  · have no : (decide (packet.sender = p) && decide (packet.recipient = q) &&
        packet.message.isDescription) = false := by
      rw [Bool.eq_false_iff]
      intro yes
      simp only [Bool.and_eq_true, decide_eq_true_eq] at yes
      exact h ⟨yes.1.1, yes.1.2, yes.2⟩
    simp only [no, if_neg h, Bool.false_eq_true, if_false, List.nil_append]

theorem descriptions_sent (self x : PeerId) (messages : List SignalingMessage)
    (own : ∀ m ∈ messages, m.isDescription) (p q : PeerId) :
    descriptions (messages.map fun m => (⟨self, x, m⟩ : Packet PeerId)) p q =
      if self = p ∧ x = q then messages else [] := by
  induction messages with
  | nil => exact (ite_self _).symm
  | cons m messages ih =>
    rw [List.map_cons, descriptions_cons, ih fun m' mem => own m' (List.mem_cons_of_mem m mem)]
    simp only [own m List.mem_cons_self, and_true]
    split <;> rfl

/-- A step of a participant that sends one peer something is a matter of these two. -/
theorem half_acts (s : MeshNet PeerId RtcPeer) {messages : List SignalingMessage}
    (own : ∀ m ∈ messages, m.isDescription)
    (elsewhere : ∀ other ≠ x, member.connection other = (s.member self).connection other) :
    (s.acts self member (messages.map (x, ·))).half p q =
      if self = p ∧ x = q then
        ⟨member.connection x, (s.half self x).inFlight ++ messages,
          (s.half self x).offered || messages.any SignalingMessage.isOffer, (s.half self x).missed⟩
      else s.half p q := by
  have packets : (s.acts self member (messages.map (x, ·))).inFlight =
      s.inFlight ++ messages.map fun m => ⟨self, x, m⟩ := by
    simp only [acts, List.map_map]
    rfl
  have offers : ((p, q) ∈ (s.acts self member (messages.map (x, ·))).offered) ↔
      (p, q) ∈ s.offered ∨ (self = p ∧ x = q) ∧ messages.any SignalingMessage.isOffer = true := by
    simp only [acts, List.mem_append, List.mem_map, List.mem_filter, Prod.mk.injEq, List.any_eq_true]
    refine or_congr_right ⟨?_, ?_⟩
    · rintro ⟨y, ⟨⟨m, mem, rfl⟩, offer⟩, rfl, rfl⟩
      exact ⟨⟨rfl, rfl⟩, m, mem, offer⟩
    · rintro ⟨⟨rfl, rfl⟩, m, mem, offer⟩
      exact ⟨(x, m), ⟨⟨m, mem, rfl⟩, offer⟩, rfl, rfl⟩
  split
  · rename_i here
    obtain ⟨rfl, rfl⟩ := here
    refine Half.ext ?_ ?_ ?_ rfl
    · show (Function.update s.member self member self).connection x = _
      rw [Function.update_self]
    · show descriptions _ self x = _
      rw [packets, descriptions_append, descriptions_sent self x messages own, if_pos ⟨rfl, rfl⟩]
      rfl
    · rw [Bool.eq_iff_iff, Bool.or_eq_true]
      refine decide_eq_true_iff.trans (offers.trans (or_congr decide_eq_true_iff.symm ?_))
      exact and_iff_right ⟨rfl, rfl⟩
  · rename_i here
    refine Half.ext ?_ ?_ ?_ rfl
    · show (Function.update s.member self member p).connection q = (s.member p).connection q
      by_cases same : p = self
      · subst same
        rw [Function.update_self]
        exact elsewhere q fun h => here ⟨rfl, h.symm⟩
      · rw [Function.update_of_ne same]
    · show descriptions _ p q = descriptions s.inFlight p q
      rw [packets, descriptions_append, descriptions_sent self x messages own, if_neg here,
        List.append_nil]
    · exact decide_eq_decide.mpr (offers.trans (or_iff_left fun h => here h.1))

/-- Taking one packet out of flight is a matter of its sender and its recipient. -/
theorem half_remove (s : MeshNet PeerId RtcPeer) {l l' : List (Packet PeerId)} {packet : Packet PeerId}
    (split : s.inFlight = l ++ packet :: l') :
    if packet.sender = p ∧ packet.recipient = q ∧ packet.message.isDescription then
      ∃ before after, (s.half p q).inFlight = before ++ packet.message :: after ∧
        { s with inFlight := l ++ l' }.half p q =
          { s.half p q with inFlight := before ++ after }
    else { s with inFlight := l ++ l' }.half p q = s.half p q := by
  have whole : (s.half p q).inFlight = descriptions l p q ++
      ((if packet.sender = p ∧ packet.recipient = q ∧ packet.message.isDescription then
        [packet.message] else []) ++ descriptions l' p q) := by
    show descriptions s.inFlight p q = _
    rw [split, descriptions_append, descriptions_cons]
  split
  · rename_i here
    rw [if_pos here] at whole
    refine ⟨descriptions l p q, descriptions l' p q, whole, Half.ext rfl ?_ rfl rfl⟩
    exact descriptions_append l l' p q
  · rename_i here
    rw [if_neg here, List.nil_append] at whole
    exact Half.ext rfl ((descriptions_append l l' p q).trans whole.symm) rfl rfl

end

/-! ## What holds all along -/

/-- Native calls can send, nobody says goodbye, and every pair is at some stage. -/
structure Sound (s : MeshNet PeerId RtcPeer) : Prop where
  canSend : ∀ p, (s.member p).Open
  staying : ∀ packet ∈ s.inFlight, ∀ id, packet.message ≠ .bye id
  linked : ∀ p q, p ≠ q → Linked (s.half p q) (s.half q p)

theorem sound_empty : Sound (empty : MeshNet PeerId RtcPeer) where
  canSend _ := trivial
  staying _ h := by cases h
  linked _ _ _ := .inl .apart

section

variable {s s' : MeshNet PeerId RtcPeer} {self x : PeerId} {member : Member PeerId RtcPeer}

/-- Where a step is a matter of two participants only, so is the stage of pairs. -/
theorem linked_of_pair (h : ∀ p q, p ≠ q → Linked (s.half p q) (s.half q p)) (self x : PeerId)
    (here : self ≠ x → Linked (s'.half self x) (s'.half x self))
    (elsewhere : ∀ p q, ¬(self = p ∧ x = q) → ¬(self = q ∧ x = p) → s'.half p q = s.half p q) :
    ∀ p q, p ≠ q → Linked (s'.half p q) (s'.half q p) := by
  intro p q apart
  by_cases there : self = p ∧ x = q
  · obtain ⟨rfl, rfl⟩ := there
    exact here apart
  · by_cases back : self = q ∧ x = p
    · obtain ⟨rfl, rfl⟩ := back
      exact (here apart.symm).symm
    · rw [elsewhere p q there back, elsewhere q p back there]
      exact h p q apart

theorem canSend_acts (h : ∀ p, (s.member p).Open) (canSend : member.Open)
    {sent : List (PeerId × SignalingMessage)} (p : PeerId) :
    ((s.acts self member sent).member p).Open := by
  show (Function.update s.member self member p).Open
  by_cases same : p = self
  · subst same
    rwa [Function.update_self]
  · rw [Function.update_of_ne same]
    exact h p

/-- Offers and answers are no goodbyes. -/
theorem staying_acts
    (staying : ∀ packet ∈ s.inFlight, ∀ id, packet.message ≠ .bye id)
    {messages : List SignalingMessage} (own : ∀ m ∈ messages, m.isDescription) :
    ∀ packet ∈ (s.acts self member (messages.map (x, ·))).inFlight,
      ∀ id, packet.message ≠ .bye id := by
  intro packet mem id bye
  rcases List.mem_append.mp mem with mem | mem
  · exact staying packet mem id bye
  · obtain ⟨sent, there, rfl⟩ := List.mem_map.mp mem
    obtain ⟨message, from', rfl⟩ := List.mem_map.mp there
    have described := own message from'
    rw [show message = .bye id from bye] at described
    cases described

/-- A step that sends nothing and changes no connection is no matter of anybody. -/
theorem half_acts_quiet (s : MeshNet PeerId RtcPeer)
    (same : member.connection = (s.member self).connection) (p q : PeerId) :
    (s.acts self member []).half p q = s.half p q := by
  have none : ∀ m ∈ ([] : List SignalingMessage), m.isDescription := by
    rintro _ ⟨⟩
  refine (half_acts (x := self) (p := p) (q := q) s none fun other _ => congrFun same other).trans ?_
  split
  · rename_i here
    obtain ⟨rfl, rfl⟩ := here
    exact Half.ext (congrFun same self) (List.append_nil _) (Bool.or_false _) rfl
  · rfl

theorem sound_quiet (h : Sound s) (same : member.connection = (s.member self).connection)
    (canSend : member.Open) : Sound (s.acts self member []) where
  canSend := canSend_acts h.canSend canSend
  staying packet mem := h.staying packet (by rwa [acts, List.map_nil, List.append_nil] at mem)
  linked p q apart := by
    rw [half_acts_quiet s same, half_acts_quiet s same]
    exact h.linked p q apart

theorem sound_proceed (h : Sound s) (self : PeerId) :
    Sound (s.acts self ((s.member self).proceed signalingApi).1
      ((s.member self).proceed signalingApi).2) := by
  obtain ⟨offers, canSend⟩ := Member.proceed_offers (h.canSend self)
  rcases offers with ⟨x, id, unconnected, changes, sent⟩ | ⟨same, sent⟩
  · have own : ∀ m ∈ [SignalingMessage.offer "offer" id], m.isDescription := by
      rintro m (_ | ⟨_, ⟨⟩⟩)
      rfl
    have pairs (p q : PeerId) := half_acts (p := p) (q := q) s own changes.elsewhere
    rw [sent]
    refine ⟨canSend_acts h.canSend canSend, staying_acts h.staying own,
      linked_of_pair h.linked self x (fun apart => ?_) fun p q there _ =>
        (pairs p q).trans (if_neg there)⟩
    have here := (pairs self x).trans (if_pos ⟨rfl, rfl⟩)
    have back := (pairs x self).trans (if_neg fun turned => apart turned.1)
    rw [changes.here, List.any_cons, show (SignalingMessage.offer "offer" id).isOffer from rfl,
      Bool.true_or, Bool.or_true] at here
    exact here.symm ▸ back.symm ▸ (h.linked self x apart).offer unconnected id
  · rw [sent]
    exact sound_quiet h same canSend

/-- What is not an offer or answer, nor a goodbye, changes nothing. -/
theorem respond_candidate (pc : Option RtcPeer) {message : SignalingMessage}
    (other : message.isDescription = false) (staying : ∀ id, message ≠ .bye id) :
    respond pc message = (pc, []) := by
  cases message with
  | offer | answer => cases other
  | bye id => exact absurd rfl (staying id)
  | iceCandidate => cases pc <;> rfl

theorem respond_describes (pc : Option RtcPeer) (message : SignalingMessage) :
    ∀ m ∈ (respond pc message).2, m.isDescription ∧ m.isOffer = false := by
  cases message with
  | offer sdp id =>
    have answered : ∀ m ∈ [SignalingMessage.answer "answer" id],
        m.isDescription ∧ m.isOffer = false := by
      rintro m (_ | ⟨_, ⟨⟩⟩)
      exact ⟨rfl, rfl⟩
    rcases pc with _ | ⟨_ | _ | _, negotiated⟩
    · exact answered
    · exact answered
    · rintro m ⟨⟩
    · exact answered
  | answer | iceCandidate | bye => cases pc <;> rintro m ⟨⟩

section

variable {l l' : List (Packet PeerId)} {packet : Packet PeerId}

theorem sound_lost (h : Sound s) (split : s.inFlight = l ++ packet :: l') :
    Sound (if packet.message.isDescription then
        { s with inFlight := l ++ l', missed := s.missed ++ [(packet.sender, packet.recipient)] }
      else { s with inFlight := l ++ l' }) := by
  have fewer : ∀ other ∈ l ++ l', other ∈ s.inFlight := fun other mem => by
    rw [split]
    exact List.mem_append.mpr ((List.mem_append.mp mem).imp_right (List.mem_cons_of_mem packet))
  have removed (p q : PeerId) := half_remove (p := p) (q := q) s split
  by_cases described : packet.message.isDescription
  · rw [if_pos described]
    have lost (p q : PeerId) : half
        { s with inFlight := l ++ l', missed := s.missed ++ [(packet.sender, packet.recipient)] }
        p q = { half { s with inFlight := l ++ l' } p q with
          missed := (s.half p q).missed || decide (packet.sender = p ∧ packet.recipient = q) } := by
      refine Half.ext rfl rfl rfl ?_
      rw [Bool.eq_iff_iff, Bool.or_eq_true, decide_eq_true_iff]
      refine decide_eq_true_iff.trans (List.mem_append.trans ?_)
      exact or_congr decide_eq_true_iff.symm (List.mem_singleton.trans (by
        rw [Prod.mk.injEq, eq_comm, eq_comm (a := q)]))
    refine ⟨h.canSend, fun other mem => h.staying other (fewer other mem),
      linked_of_pair h.linked packet.sender packet.recipient (fun apart => ?_)
        fun p q there _ => ?_⟩
    · have there := removed packet.sender packet.recipient
      rw [if_pos ⟨rfl, rfl, described⟩] at there
      obtain ⟨before, after, pending, there⟩ := there
      have back := removed packet.recipient packet.sender
      rw [if_neg fun turned => apart turned.1] at back
      rw [lost, lost, there, back, decide_eq_true ⟨rfl, rfl⟩, Bool.or_true,
        decide_eq_false fun turned => apart turned.1, Bool.or_false]
      exact (h.linked _ _ apart).lose pending
    · have same := removed p q
      rw [if_neg fun here => there ⟨here.1, here.2.1⟩] at same
      rw [lost, same, decide_eq_false there, Bool.or_false]
  · rw [if_neg described]
    refine ⟨h.canSend, fun other mem => h.staying other (fewer other mem), fun p q apart => ?_⟩
    have there := (removed p q)
    have back := (removed q p)
    rw [if_neg fun h => described h.2.2] at there back
    rw [there, back]
    exact h.linked p q apart

theorem sound_received (h : Sound s) (split : s.inFlight = l ++ packet :: l')
    {messages : List (PeerId × SignalingMessage)}
    (responds : Responds (s.member packet.recipient).connection member.connection packet.sender
      packet.message messages)
    (canSend : member.Open) :
    Sound (acts { s with inFlight := l ++ l' } packet.recipient member messages) := by
  have fewer : ∀ other ∈ l ++ l', other ∈ s.inFlight := fun other mem => by
    rw [split]
    exact List.mem_append.mpr ((List.mem_append.mp mem).imp_right (List.mem_cons_of_mem packet))
  have arrived : packet ∈ s.inFlight := split ▸ List.mem_append_right l List.mem_cons_self
  have describes :=
    respond_describes ((s.member packet.recipient).connection packet.sender) packet.message
  have removed (p q : PeerId) := half_remove (p := p) (q := q) s split
  have acted (p q : PeerId) := half_acts (p := p) (q := q) { s with inFlight := l ++ l' }
    (fun m mem => (describes m mem).1) responds.changes.elsewhere
  rw [responds.sends]
  refine ⟨canSend_acts (s := { s with inFlight := l ++ l' }) h.canSend canSend,
    staying_acts (fun other mem => h.staying other (fewer other mem)) fun m mem => (describes m mem).1,
    linked_of_pair h.linked packet.sender packet.recipient (fun apart => ?_)
      fun p q there back => ?_⟩
  · have taken := (acted packet.recipient packet.sender).trans (if_pos ⟨rfl, rfl⟩)
    have sent := (acted packet.sender packet.recipient).trans (if_neg fun turned => apart turned.2)
    have there := removed packet.sender packet.recipient
    have back := removed packet.recipient packet.sender
    rw [if_neg fun turned => apart turned.1] at back
    have offers : List.any (respond ((s.member packet.recipient).connection packet.sender)
        packet.message).2 SignalingMessage.isOffer = false :=
      List.any_eq_false.mpr fun m mem => by
        rw [(describes m mem).2]
        exact Bool.false_ne_true
    rw [offers, Bool.or_false, responds.changes.here, back] at taken
    rw [taken, sent]
    by_cases described : packet.message.isDescription
    · rw [if_pos ⟨rfl, rfl, described⟩] at there
      obtain ⟨before, after, pending, there⟩ := there
      rw [there]
      exact (h.linked _ _ apart).take pending
    · rw [if_neg fun h => described h.2.2] at there
      rw [there, respond_candidate _ (Bool.eq_false_iff.mpr described) (h.staying packet arrived),
        List.append_nil]
      exact h.linked _ _ apart
  · rw [acted, if_neg fun turned => back ⟨turned.2, turned.1⟩]
    have same := removed p q
    rwa [if_neg fun here => there ⟨here.1, here.2.1⟩] at same

end

theorem sound_step (roomId : String) (h : Sound s) (event : MeshEvent PeerId) :
    Sound (s.step signalingApi roomId event) := by
  cases event with
  | enter self kind known =>
    cases outside : s.member self with
    | outside =>
      obtain ⟨canSend, fresh⟩ := Member.start_fresh roomId self known kind
      simp only [step, outside]
      exact sound_quiet h (by rw [fresh, outside]; rfl) canSend
    | native | browser =>
      simp only [step, outside]
      exact h
  | proceed self => exact sound_proceed h self
  | deliver index =>
    cases at? : s.inFlight[index]? with
    | none =>
      simp only [step, at?]
      exact h
    | some packet =>
      obtain ⟨there, rfl⟩ := List.getElem?_eq_some_iff.mp at?
      have split : s.inFlight =
          s.inFlight.take index ++ s.inFlight[index] :: s.inFlight.drop (index + 1) := by
        rw [List.getElem_cons_drop, List.take_append_drop]
      cases taken : (s.member s.inFlight[index].recipient).receive signalingApi roomId
          s.inFlight[index].sender s.inFlight[index].message with
      | none =>
        simp only [step, at?, taken, List.eraseIdx_eq_take_drop_succ]
        exact sound_lost h split
      | some done =>
        obtain ⟨responds, canSend⟩ := Member.receive_responds roomId (h.canSend _) taken
        simp only [step, at?, taken, List.eraseIdx_eq_take_drop_succ]
        exact sound_received h split responds canSend
  | gather self peer candidate =>
    cases open? : (s.member self).connection peer with
    | none =>
      simp only [step, open?]
      exact h
    | some pc =>
      simp only [step, open?]
      refine ⟨h.canSend, fun packet mem id bye => ?_, fun p q apart => ?_⟩
      · rcases List.mem_append.mp mem with mem | mem
        · exact h.staying packet mem id bye
        · rw [List.mem_singleton.mp mem] at bye
          cases bye
      · have same (p q : PeerId) : half { s with inFlight := s.inFlight ++
            [⟨self, peer, .iceCandidate candidate 1⟩] } p q = s.half p q := by
          refine Half.ext rfl ?_ rfl rfl
          show descriptions _ p q = descriptions s.inFlight p q
          rw [descriptions_append, descriptions_cons, if_neg fun h => Bool.false_ne_true h.2.2]
          exact List.append_nil _
        rw [same, same]
        exact h.linked p q apart

theorem sound_run (roomId : String) (events : List (MeshEvent PeerId)) (h : Sound s) :
    Sound (run (step signalingApi roomId) s events) :=
  invariant (P := fun _ _ => True) Sound (fun _ event _ h => sound_step roomId h event)
    (Along.of_forall fun _ _ => trivial) h

end

/-! ## Who ends up connected -/

/-- Both ends have gone through the whole exchange. -/
def Completed (s : MeshNet PeerId RtcPeer) (p q : PeerId) : Prop :=
  (s.member p).connection q = some .connected ∧ (s.member q).connection p = some .connected

/-- One of the two has offered to the other and not the other way round, and neither the offer nor
its answer came when nobody was there to take it. -/
def OneOffer (s : MeshNet PeerId RtcPeer) (p q : PeerId) : Prop :=
  ((p, q) ∈ s.offered ↔ (q, p) ∉ s.offered) ∧ (p, q) ∉ s.missed ∧ (q, p) ∉ s.missed

/-- What holds of every two that have joined. -/
def JoinedPairs (s : MeshNet PeerId RtcPeer) (Pair : PeerId → PeerId → Prop) : Prop :=
  ∀ p q, p ≠ q → (s.member p).Joined → (s.member q).Joined → Pair p q

/-- When nothing is in flight, a stage says who is connected. -/
theorem Stage.quiet_iff {a b : Half} (h : Stage a b) (quiet : a.inFlight = [])
    (quiet' : b.inFlight = []) :
    a.connection = some .connected ∧ b.connection = some .connected ↔
      (a.offered = true ↔ ¬b.offered = true) ∧ ¬a.missed = true ∧ ¬b.missed = true := by
  cases h with
  | offerInFlight => cases quiet
  | answerInFlight => cases quiet'
  | apart | offerMissed | answerMissed | done | crossed => simp [RtcPeer.offering, RtcPeer.connected]

theorem Linked.quiet_iff {a b : Half} (h : Linked a b) (quiet : a.inFlight = [])
    (quiet' : b.inFlight = []) :
    a.connection = some .connected ∧ b.connection = some .connected ↔
      (a.offered = true ↔ ¬b.offered = true) ∧ ¬a.missed = true ∧ ¬b.missed = true := by
  rcases h with h | h
  · exact h.quiet_iff quiet quiet'
  · rw [and_comm, h.quiet_iff quiet' quiet, iff_not_comm, and_comm (a := ¬b.missed = true)]

theorem completed_iff {s : MeshNet PeerId RtcPeer} (h : Sound s) (quiescent : s.inFlight = [])
    {p q : PeerId} (apart : p ≠ q) : s.Completed p q ↔ s.OneOffer p q := by
  have quiet (p q : PeerId) : (s.half p q).inFlight = [] := by
    show descriptions s.inFlight p q = []
    rw [quiescent]
    rfl
  refine ((h.linked p q apart).quiet_iff (quiet p q) (quiet q p)).trans ?_
  simp only [half, decide_eq_true_eq, OneOffer]

/-- However participants join and whatever arrives when: once nothing is in flight, all who have
joined are connected exactly when each two of them got by with one offer. -/
theorem joined_connected_iff (roomId : String) (events : List (MeshEvent PeerId))
    (quiescent : (run (step signalingApi roomId) empty events).inFlight = []) :
    let s := run (step signalingApi roomId) empty events
    s.JoinedPairs s.Completed ↔ s.JoinedPairs s.OneOffer := by
  have sound := sound_run roomId events sound_empty
  refine forall_congr' fun p => forall_congr' fun q => forall_congr' fun apart => ?_
  exact imp_congr_right fun _ => imp_congr_right fun _ => completed_iff sound quiescent apart

/-- Bob, in the browser, joins when alice is there. -/
theorem joined_connected_iff_in_turn :
    let s := run (step signalingApi "lobby") empty [.enter "alice" .native [], .proceed "alice",
      .enter "bob" .browser ["alice"], .proceed "bob", .deliver 0, .deliver 0]
    s.inFlight = [] ∧ (s.JoinedPairs s.Completed ↔ s.JoinedPairs s.OneOffer) :=
  ⟨by decide, joined_connected_iff "lobby" _ (by decide)⟩

/-- Two that join at the same time and know of each other are never connected. -/
theorem crossing_offers_stuck : ¬∀ events : List (MeshEvent String),
    (run (step signalingApi "lobby") empty events).inFlight = [] →
      (run (step signalingApi "lobby") empty events).JoinedPairs
        (run (step signalingApi "lobby") empty events).Completed := by
  intro h
  have connected := h [.enter "alice" .native ["bob"], .proceed "alice", .proceed "alice",
    .enter "bob" .browser ["alice"], .proceed "bob", .deliver 0, .deliver 0] (by decide)
    "alice" "bob" (by decide) (by decide) (by decide)
  exact absurd connected.1 (by decide)

end MeshNet

end Concorrd.Voice
