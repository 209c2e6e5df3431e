import Concorrd.Porch.Readers

/-!
# Multi-hop history

A peer that is not paired with the host may read the history of an open channel when it presents
a chain of vouches from itself to a peer that is. `verifyHopChain` is the check of the chain and
`dispatch` answers a request. Peer ids, keys and signatures are those of the libp2p and ed25519
crates, which `PeerCrypto` stands for.
-/

namespace Concorrd

/-- Longest hop chain. -/
def maxHopChainLen : Nat := 5

/-- Most messages of one answer. -/
def maxHistoryLimit : UInt32 := 100

/-- Domain separation tag of a vouch. -/
def vouchDomain : String := "concord:porch-history:vouch:v1"

def signatureLen : Nat := 64

def publicKeyLen : Nat := 32

/-- What the crates for ids, keys and signatures answer. `quote` is the text of a string in
quotes. -/
structure PeerCrypto (PeerId Key : Type) where
  parsePeerId : String → Option PeerId
  toBase58 : PeerId → String
  decodeHex : String → Except String (List UInt8)
  verifyingKey : List UInt8 → Except String Key
  derivePeerId : Key → Except String PeerId
  verify : Key → ByteArray → List UInt8 → Except String Unit
  quote : String → String

/-- A peer by its id and its public key. -/
structure PeerIdent where
  peerId : String
  pubkeyHex : String
  deriving DecidableEq, Repr

/-- One hop: the voucher signs that it knows the subject, for one target. -/
structure VouchLink where
  subject : PeerIdent
  voucher : PeerIdent
  targetPeerId : String
  signatureHex : String
  deriving DecidableEq, Repr

/-- A request for the history of a channel. -/
structure HistoryRequest where
  requester : PeerIdent
  targetPeerId : String
  channelId : String
  limit : UInt32
  chain : List VouchLink
  deriving DecidableEq, Repr

/-- The messages of an answer and the hops the verifier walked. -/
structure HistoryResult where
  messages : List ChannelMessage
  hops : Nat
  deriving DecidableEq, Repr

/-- The bytes the voucher signs. -/
def VouchLink.canonicalMessage (link : VouchLink) : ByteArray :=
  vouchDomain.toUTF8 ++ "\n".toUTF8 ++ link.subject.peerId.toUTF8 ++ "\n".toUTF8 ++
    link.targetPeerId.toUTF8

namespace PeerCrypto

variable {PeerId Key : Type} [DecidableEq PeerId] (c : PeerCrypto PeerId Key)

/-- Parse the public key of a peer. -/
def parseVerifyingKey (ident : PeerIdent) : Except PorchError Key :=
  match c.decodeHex ident.pubkeyHex with
  | .error e => .error (.invalidInput ("hop-chain pubkey hex decode: " ++ e))
  | .ok bytes =>
    if bytes.length ≠ publicKeyLen then
      .error (.invalidInput ("hop-chain pubkey expected " ++ toString publicKeyLen ++
        " bytes, got " ++ toString bytes.length))
    else
      (c.verifyingKey bytes).mapError fun e =>
        .invalidInput ("hop-chain pubkey is not a valid ed25519 point: " ++ e)

/-- The id and the key of a peer, when the id is the one the key derives to. -/
def verifyPeeridPubkeyLink (ident : PeerIdent) : Except PorchError (PeerId × Key) :=
  match c.parsePeerId ident.peerId with
  | none => .error (.invalidInput ("hop-chain peer_id not parseable: " ++ c.quote ident.peerId))
  | some claimed =>
    match c.parseVerifyingKey ident with
    | .error e => .error e
    | .ok key =>
      match c.derivePeerId key with
      | .error e => .error (.invalidInput ("ed25519 pubkey not accepted by libp2p: " ++ e))
      | .ok derived =>
        if derived ≠ claimed then
          .error (.invalidInput ("hop-chain peer_id " ++ c.quote ident.peerId ++
            " does not derive from supplied pubkey (derived " ++ c.toBase58 derived ++ ")"))
        else .ok (claimed, key)

/-- The signature of a hop under the key of its voucher. -/
def verifySignature (link : VouchLink) : Except PorchError Unit :=
  match c.verifyPeeridPubkeyLink link.voucher with
  | .error e => .error e
  | .ok (_, key) =>
    match c.decodeHex link.signatureHex with
    | .error e => .error (.invalidInput ("vouch signature hex decode: " ++ e))
    | .ok bytes =>
      if bytes.length ≠ signatureLen then
        .error (.invalidInput ("vouch signature expected " ++ toString signatureLen ++
          " bytes, got " ++ toString bytes.length))
      else
        (c.verify key link.canonicalMessage bytes).mapError fun e =>
          .invalidInput ("vouch signature verification failed: " ++ e)

/-- The checks of one hop by itself. -/
def verifyLink (server : String) (i : Nat) (link : VouchLink) : Except PorchError Unit :=
  if link.targetPeerId ≠ server then
    .error (.invalidInput ("hop chain link " ++ toString i ++ " targets " ++
      c.quote link.targetPeerId ++ ", expected " ++ server))
  else do
    let _ ← c.verifyPeeridPubkeyLink link.subject
    let _ ← c.verifyPeeridPubkeyLink link.voucher
    c.verifySignature link

/-- The first loop: every hop by itself, from hop `i` on. -/
def verifyLinks (server : String) : Nat → List VouchLink → Except PorchError Unit
  | _, [] => .ok ()
  | i, link :: links => do
    c.verifyLink server i link
    verifyLinks server (i + 1) links

/-- The second loop: every hop from `i` on vouches for the voucher of the hop before it. -/
def verifyLinked : Nat → PeerIdent → List VouchLink → Except PorchError Unit
  | _, _, [] => .ok ()
  | i, previous, link :: links =>
    if link.subject.peerId ≠ previous.peerId then
      .error (.invalidInput ("hop chain link " ++ toString i ++ " subject " ++
        c.quote link.subject.peerId ++ " != previous voucher " ++ c.quote previous.peerId))
    else verifyLinked (i + 1) link.voucher links

/-- Verify a request against the peer of the connection, this server and its paired peers, and
count the hops. -/
def verifyHopChain (request : HistoryRequest) (connection server : PeerId)
    (paired : List String) : Except PorchError Nat :=
  if request.chain.length > maxHopChainLen then
    .error (.invalidInput ("hop chain length " ++ toString request.chain.length ++
      " > server max " ++ toString maxHopChainLen))
  else if request.limit > maxHistoryLimit * 10 then
    .error (.invalidInput ("history limit " ++ toString request.limit ++
      " far exceeds server cap " ++ toString maxHistoryLimit))
  else if request.targetPeerId ≠ c.toBase58 server then
    .error (.invalidInput ("request addressed to " ++ c.quote request.targetPeerId ++
      ", but I am " ++ c.toBase58 server))
  else
    match c.verifyPeeridPubkeyLink request.requester with
    | .error e => .error e
    | .ok (requester, _) =>
      if connection ≠ requester then
        .error (.invalidInput ("request requester " ++ c.toBase58 requester ++
          " does not match libp2p connection peer " ++ c.toBase58 connection))
      else
        match request.chain with
        | [] =>
          if c.toBase58 requester ∈ paired then .ok 0
          else .error (.accessDenied (c.toBase58 requester ++
            " is not in our paired-peer list and presented no hop chain"))
        | first :: rest =>
          match c.verifyLinks (c.toBase58 server) 0 (first :: rest) with
          | .error e => .error e
          | .ok () =>
            if first.subject.peerId ≠ c.toBase58 requester then
              .error (.invalidInput ("hop chain link 0 subject " ++ c.quote first.subject.peerId ++
                " != requester " ++ c.toBase58 requester))
            else
              match c.verifyLinked 1 first.voucher rest with
              | .error e => .error e
              | .ok () =>
                let terminus :=
                  ((first :: rest).getLast (List.cons_ne_nil first rest)).voucher.peerId
                if terminus ∈ paired then .ok (first :: rest).length
                else .error (.accessDenied ("hop chain terminus " ++ terminus ++
                  " is not in our paired-peer list"))

/-- Answer a request for history. `paired` is what the lookup of paired peers answers. -/
def dispatchHistory (p : Porch) (server : PeerId) (paired : Except String (List String))
    (connection : PeerId) (request : HistoryRequest) : Except PorchError HistoryResult :=
  match paired with
  | .error e => .error (.invalidInput ("paired-peer lookup: " ++ e))
  | .ok paired =>
    match c.verifyHopChain request connection server paired with
    | .error e => .error e
    | .ok hops =>
      match p.getChannel request.channelId with
      | none => .error (.channelNotFound request.channelId)
      | some channel =>
        match channel.aclMode with
        | .allowlist | .ownerOnly =>
          .error (.accessDenied ("channel " ++ request.channelId ++
            " is not open; multi-hop read-only access is restricted to open channels"))
        | .open =>
          let effectiveLimit := min request.limit maxHistoryLimit
          match p.getMessages request.channelId none maxHistoryLimit with
          | .error e => .error e
          | .ok messages =>
            .ok ⟨messages.drop (messages.length - effectiveLimit.toNat), hops⟩

end PeerCrypto

end Concorrd
