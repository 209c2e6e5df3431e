import Mathlib.Data.Finset.Card
import Mathlib.Data.Finset.Image
import Concorrd.Lib.Run

/-!
# Connected peers

The loop over the events of the libp2p swarm keeps the set of connected peers and tells the UI its
size. libp2p reports connections, and a peer may have several. The set gains a peer with its first
connection and loses it with any of them, so it is the set of peers with an open connection exactly
as long as every connection that closes is the only one of its peer (`connected_kept_iff`).
-/

namespace Concorrd

open Machine

/-- What libp2p reports. Events the loop takes no part of are one. -/
inductive LibP2pSwarmEvent (PeerId ConnectionId : Type) where
  | newListenAddr (address : String)
  | connectionEstablished (peerId : PeerId) (connectionId : ConnectionId)
  | connectionClosed (peerId : PeerId) (connectionId : ConnectionId)
  | outgoingConnectionError (peerId : Option PeerId) (error : String)
  | other

/-- What the UI is told. -/
inductive SwarmEvent (PeerId : Type) where
  | localAddrChanged (addr : String)
  | peerCountChanged (count : Nat)
  | dialSuccess (peerId : PeerId)
  | dialFailure (peerId : Option PeerId) (reason : String)

variable {PeerId ConnectionId : Type} [DecidableEq PeerId]

/-- What the UI is told of an event, and the connected peers after it. -/
def translateEvent (connected : Finset PeerId) :
    LibP2pSwarmEvent PeerId ConnectionId → List (SwarmEvent PeerId) × Finset PeerId
  | .newListenAddr address => ([.localAddrChanged address], connected)
  | .connectionEstablished peerId _ =>
    if peerId ∉ connected then
      ([.dialSuccess peerId, .peerCountChanged (insert peerId connected).card],
        insert peerId connected)
    else ([], connected)
  | .connectionClosed peerId _ =>
    if peerId ∈ connected then
      ([.peerCountChanged (connected.erase peerId).card], connected.erase peerId)
    else ([], connected)
  | .outgoingConnectionError peerId error => ([.dialFailure peerId error], connected)
  | .other => ([], connected)

section

variable {connected : Finset PeerId} {p : PeerId}

theorem translateEvent_established (c : ConnectionId) (known : p ∈ connected) :
    translateEvent connected (.connectionEstablished p c) = ([], connected) :=
  if_neg (not_not.mpr known)

theorem translateEvent_established_new (c : ConnectionId) (unknown : p ∉ connected) :
    translateEvent connected (.connectionEstablished p c) =
      ([.dialSuccess p, .peerCountChanged (insert p connected).card], insert p connected) :=
  if_pos unknown

theorem translateEvent_closed (c : ConnectionId) (known : p ∈ connected) :
    translateEvent connected (.connectionClosed p c) =
      ([.peerCountChanged (connected.erase p).card], connected.erase p) :=
  if_pos known

theorem translateEvent_closed_unknown (c : ConnectionId) (unknown : p ∉ connected) :
    translateEvent connected (.connectionClosed p c) = ([], connected) :=
  if_neg unknown

end

/-- The loop, with what it has sent, and the connections that libp2p holds open. -/
structure SwarmLoop (PeerId ConnectionId : Type) where
  connected : Finset PeerId
  sent : List (SwarmEvent PeerId)
  links : Finset (PeerId × ConnectionId)

namespace SwarmLoop

variable [DecidableEq ConnectionId]

def start : SwarmLoop PeerId ConnectionId := ⟨∅, [], ∅⟩

def step (s : SwarmLoop PeerId ConnectionId) (e : LibP2pSwarmEvent PeerId ConnectionId) :
    SwarmLoop PeerId ConnectionId :=
  let (events, connected) := translateEvent s.connected e
  { connected
    sent := s.sent ++ events
    links :=
      match e with
      | .connectionEstablished peerId connectionId => insert (peerId, connectionId) s.links
      | .connectionClosed peerId connectionId => s.links.erase (peerId, connectionId)
      | _ => s.links }

/-- An event that libp2p can report: a connection is established that is not open, and one is closed
that is. -/
def Emits (s : SwarmLoop PeerId ConnectionId) : LibP2pSwarmEvent PeerId ConnectionId → Prop
  | .connectionEstablished peerId connectionId => (peerId, connectionId) ∉ s.links
  | .connectionClosed peerId connectionId => (peerId, connectionId) ∈ s.links
  | _ => True

/-- The last count the UI was told; before the first it shows none. -/
def lastCount : List (SwarmEvent PeerId) → Nat :=
  List.foldl (fun last e => match e with | .peerCountChanged count => count | _ => last) 0

/-- The peers with an open connection. -/
def peers (s : SwarmLoop PeerId ConnectionId) : Finset PeerId := s.links.image Prod.fst

/-- The connected peers are those with an open connection, and the UI was told how many. -/
structure Counts (s : SwarmLoop PeerId ConnectionId) : Prop where
  connected : s.connected = s.peers
  told : lastCount s.sent = s.connected.card

/-- A connection that closes is the only one its peer has open. -/
def ClosesOnly (s : SwarmLoop PeerId ConnectionId) : LibP2pSwarmEvent PeerId ConnectionId → Prop
  | .connectionClosed peerId connectionId => ∀ link ∈ s.links, link.1 = peerId → link.2 = connectionId
  | _ => True

variable {s : SwarmLoop PeerId ConnectionId}

omit [DecidableEq ConnectionId] in
theorem mem_peers_iff {p : PeerId} : p ∈ s.peers ↔ ∃ c, (p, c) ∈ s.links := by
  simp only [peers, Finset.mem_image, Prod.exists, exists_and_right, exists_eq_right]

/-- What the UI was told last is the size of the set, whether or not the event changed it. -/
theorem told_step (told : lastCount s.sent = s.connected.card)
    (e : LibP2pSwarmEvent PeerId ConnectionId) :
    lastCount (s.step e).sent = (s.step e).connected.card := by
  show lastCount (s.sent ++ (translateEvent s.connected e).1) = (translateEvent s.connected e).2.card
  unfold lastCount at told ⊢
  rw [List.foldl_append, told]
  cases e with
  | newListenAddr address => rfl
  | connectionEstablished p c =>
    by_cases known : p ∈ s.connected
    · rw [translateEvent_established c known]
      rfl
    · rw [translateEvent_established_new c known]
      rfl
  | connectionClosed p c =>
    by_cases known : p ∈ s.connected
    · rw [translateEvent_closed c known]
      rfl
    · rw [translateEvent_closed_unknown c known]
      rfl
  | outgoingConnectionError peerId error => rfl
  | other => rfl

theorem peers_established (s : SwarmLoop PeerId ConnectionId) (p : PeerId) (c : ConnectionId) :
    (s.step (.connectionEstablished p c)).peers = insert p s.peers :=
  Finset.image_insert Prod.fst (p, c) s.links

/-- A peer that loses a connection stays one with an open connection if it has another. -/
theorem peers_closed_iff {p : PeerId} {c : ConnectionId} :
    (s.step (.connectionClosed p c)).peers = s.peers.erase p ↔
      s.ClosesOnly (.connectionClosed p c) := by
  have mem_iff (q : PeerId) : q ∈ (s.step (.connectionClosed p c)).peers ↔
      ∃ d, (q, d) ≠ (p, c) ∧ (q, d) ∈ s.links := by
    rw [mem_peers_iff]
    exact exists_congr fun d => Finset.mem_erase
  constructor
  · intro same link hlink about
    by_contra other
    have mem := (mem_iff p).mpr ⟨link.2, fun h => other (Prod.mk.inj h).2, about ▸ hlink⟩
    rw [same] at mem
    exact Finset.notMem_erase p _ mem
  · intro only
    ext q
    rw [mem_iff, Finset.mem_erase, mem_peers_iff]
    constructor
    · rintro ⟨d, differs, mem⟩
      refine ⟨fun about => differs ?_, d, mem⟩
      exact Prod.ext about (only (q, d) mem about)
    · rintro ⟨differs, d, mem⟩
      exact ⟨d, fun h => differs (Prod.mk.inj h).1, mem⟩

theorem counts_step_iff {e : LibP2pSwarmEvent PeerId ConnectionId} (emits : s.Emits e)
    (counts : s.Counts) : (s.step e).Counts ↔ s.ClosesOnly e := by
  have told := told_step counts.told e
  rw [show (s.step e).Counts ↔ (s.step e).connected = (s.step e).peers from
    ⟨Counts.connected, fun connected => ⟨connected, told⟩⟩]
  cases e with
  | newListenAddr address => exact iff_of_true counts.connected trivial
  | outgoingConnectionError peerId error => exact iff_of_true counts.connected trivial
  | other => exact iff_of_true counts.connected trivial
  | connectionEstablished p c =>
    refine iff_of_true ?_ trivial
    rw [peers_established, ← counts.connected]
    show (translateEvent s.connected (.connectionEstablished p c)).2 = _
    by_cases known : p ∈ s.connected
    · rw [translateEvent_established c known, Finset.insert_eq_of_mem known]
    · rw [translateEvent_established_new c known]
  | connectionClosed p c =>
    have known : p ∈ s.connected := by
      rw [counts.connected]
      exact mem_peers_iff.mpr ⟨c, emits⟩
    rw [← peers_closed_iff, ← counts.connected]
    show (translateEvent s.connected (.connectionClosed p c)).2 = _ ↔ _
    rw [translateEvent_closed c known]
    exact eq_comm

/-- In a run of events that libp2p can report, the set and the count are right after every event
exactly when every connection that closes is the only one of its peer. -/
theorem connected_kept_iff (events : List (LibP2pSwarmEvent PeerId ConnectionId))
    (emits : Along step Emits start events) :
    Along step (fun s e => (step s e).Counts) start events ↔ Along step ClosesOnly start events :=
  along_step_iff_of _ emits (fun _ _ => counts_step_iff) ⟨rfl, rfl⟩

/-- A peer with a relayed and a direct connection, of which the first is closed. -/
def upgraded : List (LibP2pSwarmEvent String Nat) :=
  [.connectionEstablished "12D3KooWPeer" 1, .connectionEstablished "12D3KooWPeer" 2,
    .connectionClosed "12D3KooWPeer" 1]

theorem emits_upgraded : Along step Emits start upgraded := by
  refine ⟨?_, ?_, ?_, trivial⟩
  · exact Finset.notMem_empty _
  · show ("12D3KooWPeer", 2) ∉ insert ("12D3KooWPeer", 1) ∅
    decide
  · show ("12D3KooWPeer", 1) ∈ insert ("12D3KooWPeer", 2) (insert ("12D3KooWPeer", 1) ∅)
    decide

theorem connected_kept_iff_upgraded :
    Along step (fun s e => (step s e).Counts) start upgraded ↔ Along step ClosesOnly start upgraded :=
  connected_kept_iff upgraded emits_upgraded

/-- The peer keeps its direct connection, and is no longer counted. -/
theorem upgraded_peer_lost : ¬∀ events : List (LibP2pSwarmEvent String Nat),
    Along step Emits start events → Along step (fun s e => (step s e).Counts) start events := by
  intro all
  have counts := (all upgraded emits_upgraded).2.2.1
  exact absurd counts.connected (by decide)

end SwarmLoop

end Concorrd
