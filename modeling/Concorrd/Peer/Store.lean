import Concorrd.Lib.Run

/-!
# Known peers

The peers an install has been introduced to lie in one encrypted file that every operation reads and,
when it changes something, replaces as a whole. `PeerStoreIo` says whether the file is read and
written; an operation that fails leaves it as it was. A peer whose access is revoked stays in the
list, with its flag turned off.
-/

namespace Concorrd

inductive PeerSource where
  | qr
  | deeplink
  | matrixRoom
  | dht
  deriving DecidableEq, Repr

/-- How a peer introduces itself. -/
structure PeerCard where
  peerId : String
  publicKeyHex : String
  multiaddrs : List String
  deriving DecidableEq, Repr

/-- A peer of the store. Times are in seconds. -/
structure KnownPeer where
  peerId : String
  publicKeyHex : String
  multiaddrs : List String
  source : PeerSource
  firstSeen : Int
  lastSeen : Int
  accessGranted : Bool
  lastAccessGrantAt : Option Int
  deriving DecidableEq, Repr

inductive PeerStoreError where
  | storage (path error : String)
  | crypto (detail : String)
  | serde (detail : String)
  | invalidPeerId (detail : String)
  | handleNotPersistent
  | unsupportedVersion (version supported : UInt32)
  | fileTruncated (path : String) (length : Nat)
  deriving DecidableEq, Repr

/-- Whether an operation can read the file, and whether it can replace it. -/
structure PeerStoreIo where
  read : Except PeerStoreError Unit
  write : Except PeerStoreError Unit

/-- An operation meets no error. -/
def PeerStoreIo.Works (io : PeerStoreIo) : Prop := io.read = .ok () ∧ io.write = .ok ()

/-- What the libp2p library says of the text of an address, and the text in quotes. -/
structure AddressText where
  parses : String → Bool
  quote : String → String

def publicKeyHexLen : Nat := 64

/-- Check a card. -/
def validateCard (text : AddressText) (card : PeerCard) : Except PeerStoreError Unit :=
  if card.peerId = "" then .error (.invalidPeerId "peer_id must not be empty")
  else if card.publicKeyHex.utf8ByteSize ≠ publicKeyHexLen then
    .error (.invalidPeerId ("public_key_hex must be exactly " ++ toString publicKeyHexLen ++
      " hex chars, got " ++ toString card.publicKeyHex.utf8ByteSize))
  else if !card.publicKeyHex.toList.all fun c =>
      c.isDigit || ('a' ≤ c && c ≤ 'f') || ('A' ≤ c && c ≤ 'F') then
    .error (.invalidPeerId "public_key_hex contains non-hex characters")
  else
    match card.multiaddrs.find? fun address => !text.parses address with
    | some address => .error (.invalidPeerId ("multiaddr " ++ text.quote address ++
        " does not parse as a libp2p Multiaddr"))
    | none => .ok ()

/-! ## Operations -/

/-- Change the first peer of the id. -/
def modifyPeer (peerId : String) (change : KnownPeer → KnownPeer) :
    List KnownPeer → List KnownPeer
  | [] => []
  | peer :: peers =>
    if peer.peerId = peerId then change peer :: peers
    else peer :: modifyPeer peerId change peers

/-- The peers of the file. -/
def readEnvelope (io : PeerStoreIo) (peers : List KnownPeer) :
    Except PeerStoreError (List KnownPeer) :=
  io.read.map fun _ => peers

/-- Replace the peers of the file, and answer. -/
def writeEnvelope {α : Type} (io : PeerStoreIo) (peers peers' : List KnownPeer) (answer : α) :
    Except PeerStoreError α × List KnownPeer :=
  match io.write with
  | .error e => (.error e, peers)
  | .ok _ => (.ok answer, peers')

/-- Change the first peer of an id, if there is one, and answer with it. -/
def updatePeer (io : PeerStoreIo) (peerId : String) (change : KnownPeer → KnownPeer)
    (peers : List KnownPeer) : Except PeerStoreError (Option KnownPeer) × List KnownPeer :=
  match readEnvelope io peers with
  | .error e => (.error e, peers)
  | .ok peers =>
    match peers.find? fun peer => peer.peerId = peerId with
    | none => (.ok none, peers)
    | some peer =>
      writeEnvelope io peers (modifyPeer peerId change peers) (some (change peer))

def PeerStore.list (io : PeerStoreIo) (peers : List KnownPeer) :
    Except PeerStoreError (List KnownPeer) :=
  readEnvelope io peers

/-- A repeated address of a card counts once. -/
def dedupAddresses (addresses : List String) : List String :=
  addresses.foldl (fun deduped a => if a ∈ deduped then deduped else deduped ++ [a]) []

/-- A known peer gains the addresses of a card. They are compared with its own, not with each other. -/
def PeerCard.refresh (card : PeerCard) (now : Int) (peer : KnownPeer) : KnownPeer :=
  { peer with
    multiaddrs := peer.multiaddrs ++ card.multiaddrs.filter fun a => a ∉ peer.multiaddrs
    lastSeen := now }

/-- An unknown peer comes in with access. -/
def PeerCard.introduce (card : PeerCard) (source : PeerSource) (now : Int) : KnownPeer :=
  ⟨card.peerId, card.publicKeyHex, dedupAddresses card.multiaddrs, source, now, now, true, some now⟩

/-- Take in a card. -/
def PeerStore.add (text : AddressText) (io : PeerStoreIo) (now : Int) (card : PeerCard)
    (source : PeerSource) (peers : List KnownPeer) :
    Except PeerStoreError KnownPeer × List KnownPeer :=
  match validateCard text card with
  | .error e => (.error e, peers)
  | .ok _ =>
    match readEnvelope io peers with
    | .error e => (.error e, peers)
    | .ok peers =>
      match peers.find? fun peer => peer.peerId = card.peerId with
      | some existing =>
        writeEnvelope io peers (modifyPeer card.peerId (card.refresh now) peers)
          (card.refresh now existing)
      | none =>
        let peer := card.introduce source now
        writeEnvelope io peers (peers ++ [peer]) peer

def PeerStore.markSeen (io : PeerStoreIo) (now : Int) (peerId : String) (peers : List KnownPeer) :
    Except PeerStoreError Unit × List KnownPeer :=
  let (answer, peers) := updatePeer io peerId (fun peer => { peer with lastSeen := now }) peers
  (answer.map fun _ => (), peers)

def PeerStore.revokeAccess (io : PeerStoreIo) (peerId : String) (peers : List KnownPeer) :
    Except PeerStoreError (Option KnownPeer) × List KnownPeer :=
  updatePeer io peerId (fun peer => { peer with accessGranted := false }) peers

def PeerStore.grantAccess (io : PeerStoreIo) (now : Int) (peerId : String)
    (peers : List KnownPeer) : Except PeerStoreError (Option KnownPeer) × List KnownPeer :=
  updatePeer io peerId
    (fun peer => { peer with accessGranted := true, lastAccessGrantAt := some now }) peers

/-- The peers with access. -/
def PeerStore.listAccessPeers (io : PeerStoreIo) (peers : List KnownPeer) :
    Except PeerStoreError (List KnownPeer) :=
  (readEnvelope io peers).map fun peers => peers.filter fun peer => peer.accessGranted

def PeerStore.remove (io : PeerStoreIo) (peerId : String) (peers : List KnownPeer) :
    Except PeerStoreError Bool × List KnownPeer :=
  match readEnvelope io peers with
  | .error e => (.error e, peers)
  | .ok peers =>
    let kept := peers.filter fun peer => peer.peerId ≠ peerId
    if kept.length ≠ peers.length then writeEnvelope io peers kept true else (.ok false, peers)

/-! ## What an operation does to the file -/

/-- The ids of the peers, revoked ones included. -/
def knownIds (peers : List KnownPeer) : List String := peers.map KnownPeer.peerId

section

variable {peers : List KnownPeer} {peerId : String}

theorem knownIds_modifyPeer (change : KnownPeer → KnownPeer)
    (keeps : ∀ peer, (change peer).peerId = peer.peerId) :
    knownIds (modifyPeer peerId change peers) = knownIds peers := by
  induction peers with
  | nil => rfl
  | cons peer peers ih =>
    unfold modifyPeer
    split
    · exact congrArg (· :: knownIds peers) (keeps peer)
    · exact congrArg (peer.peerId :: ·) ih

theorem find?_peer_eq_none_iff : (peers.find? fun peer => peer.peerId = peerId) = none ↔
    peerId ∉ knownIds peers := by
  simp only [List.find?_eq_none, decide_eq_true_eq, knownIds, List.mem_map, not_exists, not_and]

/-- A write either replaces the peers or fails. -/
theorem writeEnvelope_cases {α : Type} (io : PeerStoreIo) (peers peers' : List KnownPeer)
    (answer : α) : (writeEnvelope io peers peers' answer).2 = peers' ∧ io.write = .ok () ∨
      (writeEnvelope io peers peers' answer).2 = peers ∧ io.write ≠ .ok () := by
  unfold writeEnvelope
  split
  · rename_i e failed
    exact .inr ⟨rfl, by rw [failed]; rintro ⟨⟩⟩
  · rename_i done
    exact .inl ⟨rfl, done⟩

theorem updatePeer_cases (io : PeerStoreIo) (peerId : String) (change : KnownPeer → KnownPeer)
    (peers : List KnownPeer) : (updatePeer io peerId change peers).2 = peers ∨
      (updatePeer io peerId change peers).2 = modifyPeer peerId change peers := by
  unfold updatePeer readEnvelope
  cases io.read with
  | error e => exact .inl rfl
  | ok u =>
    simp only [Except.map]
    split
    · exact .inl rfl
    · rename_i peer _
      rcases writeEnvelope_cases io peers (modifyPeer peerId change peers) (some (change peer)) with
        ⟨replaced, -⟩ | ⟨kept, -⟩
      · exact .inr replaced
      · exact .inl kept

/-- An update that answers with a peer knew it and has written it. -/
theorem updatePeer_of_found {io : PeerStoreIo} {change : KnownPeer → KnownPeer} {row : KnownPeer}
    (found : (updatePeer io peerId change peers).1 = .ok (some row)) :
    peerId ∈ knownIds peers ∧
      (updatePeer io peerId change peers).2 = modifyPeer peerId change peers := by
  unfold updatePeer readEnvelope at found ⊢
  cases hread : io.read with
  | error e =>
    rw [hread] at found
    cases found
  | ok u =>
    simp only [hread, Except.map] at found ⊢
    split at found
    · cases found
    · rename_i peer some_peer
      refine ⟨?_, ?_⟩
      · by_contra unknown
        rw [find?_peer_eq_none_iff.mpr unknown] at some_peer
        cases some_peer
      · unfold writeEnvelope at found ⊢
        cases hwrite : io.write with
        | error e =>
          rw [hwrite] at found
          cases found
        | ok u' => rfl

/-- A card that is taken in refreshes a known peer or introduces an unknown one. -/
theorem PeerStore.add_cases (text : AddressText) (io : PeerStoreIo) (now : Int) (card : PeerCard)
    (source : PeerSource) (peers : List KnownPeer) :
    let after := (PeerStore.add text io now card source peers).2
    (after = peers ∧ ¬(io.Works ∧ validateCard text card = .ok ())) ∨
      (card.peerId ∈ knownIds peers ∧ after = modifyPeer card.peerId (card.refresh now) peers) ∨
      (card.peerId ∉ knownIds peers ∧ after = peers ++ [card.introduce source now] ∧
        io.Works ∧ validateCard text card = .ok ()) := by
  unfold PeerStore.add readEnvelope PeerStoreIo.Works
  cases hvalid : validateCard text card with
  | error e =>
    refine .inl ⟨rfl, ?_⟩
    rintro ⟨-, ⟨⟩⟩
  | ok u =>
    cases hread : io.read with
    | error e =>
      refine .inl ⟨rfl, ?_⟩
      rintro ⟨⟨⟨⟩, -⟩, -⟩
    | ok u' =>
      simp only [Except.map]
      split
      · rename_i existing found
        have known : card.peerId ∈ knownIds peers := by
          by_contra unknown
          rw [find?_peer_eq_none_iff.mpr unknown] at found
          cases found
        rcases writeEnvelope_cases io peers (modifyPeer card.peerId (card.refresh now) peers)
          (card.refresh now existing) with ⟨replaced, -⟩ | ⟨kept, failed⟩
        · exact .inr (.inl ⟨known, replaced⟩)
        · exact .inl ⟨kept, fun h => failed h.1.2⟩
      · rename_i absent
        have unknown := find?_peer_eq_none_iff.mp absent
        rcases writeEnvelope_cases io peers (peers ++ [card.introduce source now])
          (card.introduce source now) with ⟨replaced, done⟩ | ⟨kept, failed⟩
        · exact .inr (.inr ⟨unknown, replaced, ⟨trivial, done⟩, trivial⟩)
        · exact .inl ⟨kept, fun h => failed h.1.2⟩

/-- A removal drops every peer of the id, or there is none or the file fails. -/
theorem PeerStore.remove_cases (io : PeerStoreIo) (peerId : String) (peers : List KnownPeer) :
    let after := (PeerStore.remove io peerId peers).2
    (after = peers ∧ (¬io.Works ∨ peerId ∉ knownIds peers)) ∨
      (after = (peers.filter fun peer => peer.peerId ≠ peerId) ∧ io.Works) := by
  unfold PeerStore.remove readEnvelope PeerStoreIo.Works
  cases hread : io.read with
  | error e =>
    refine .inl ⟨rfl, .inl ?_⟩
    rintro ⟨⟨⟩, -⟩
  | ok u =>
    simp only [Except.map]
    split
    · rcases writeEnvelope_cases io peers (peers.filter fun peer => peer.peerId ≠ peerId) true with
        ⟨replaced, done⟩ | ⟨kept, failed⟩
      · exact .inr ⟨replaced, trivial, done⟩
      · exact .inl ⟨kept, .inl fun h => failed h.2⟩
    · rename_i same
      refine .inl ⟨rfl, .inr fun known => ?_⟩
      obtain ⟨peer, mem, rfl⟩ := List.mem_map.mp known
      have all := List.length_filter_eq_length_iff.mp (not_not.mp same) peer mem
      exact of_decide_eq_true all rfl

end

end Concorrd
