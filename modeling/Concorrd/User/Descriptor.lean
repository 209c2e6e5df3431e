import Concorrd.Lib.Bytes
import Concorrd.Lib.JsonText

/-!
# User descriptors

A hero is an Ed25519 public key, its `ConcordUid`. A descriptor carries the key, one signed row for
each server the hero appears on, and a log of signed trust edges and revocations. The signatures
are those of the ed25519 crate, which `Ed25519` stands for; the bytes they cover are written out.
`verifyAllSignatures_eq_ok_iff` says what the check of a descriptor checks, and
`verifyAllSignatures_empty` what it does not.
-/

namespace Concorrd

/-- Keys and signatures. A key verifies only when its bytes are a point of the curve. -/
structure Ed25519 where
  verifyingKey : Vector UInt8 32 → Vector UInt8 32
  fromBytes : Vector UInt8 32 → Bool
  sign : Vector UInt8 32 → List UInt8 → Vector UInt8 64
  verify : Vector UInt8 32 → List UInt8 → Vector UInt8 64 → Bool

/-- The key of a seed verifies what the seed signs. -/
structure Ed25519.Correct (ed : Ed25519) : Prop where
  fromBytes : ∀ seed, ed.fromBytes (ed.verifyingKey seed) = true
  verify : ∀ seed message, ed.verify (ed.verifyingKey seed) message (ed.sign seed message) = true

def domainTagDescriptorRow : String := "concord/user-protocol/server-row/v1"

def domainTagTrustEdge : String := "concord/user-protocol/trust-edge/v1"

def domainTagTrustRevoke : String := "concord/user-protocol/trust-revoke/v1"

/-- A length in four bytes, the text after it. -/
def lengthPrefixed (s : String) : List UInt8 := Bytes.be 4 s.utf8ByteSize ++ Bytes.utf8 s

/-! ## Rows -/

/-- The public key of a hero. -/
structure ConcordUid where
  asBytes : Vector UInt8 32
  deriving DecidableEq, Repr

def ConcordUid.toHex (uid : ConcordUid) : String := Bytes.hex uid.asBytes.toList

/-- Whether a signature over a message verifies under the key. -/
def ConcordUid.verifies (ed : Ed25519) (uid : ConcordUid) (message : List UInt8)
    (signature : Vector UInt8 64) : Bool :=
  ed.fromBytes uid.asBytes && ed.verify uid.asBytes message signature

/-- Where an avatar lies. -/
inductive AvatarRef where
  | multiaddr (multiaddr : String)
  | matrixMxc (mxc : String)
  | porchAsset (assetId : String)
  | none
  deriving DecidableEq, Repr

def AvatarRef.toJson : AvatarRef → Json
  | .multiaddr address => .obj [("kind", .str "multiaddr"), ("multiaddr", .str address)]
  | .matrixMxc mxc => .obj [("kind", .str "matrix_mxc"), ("mxc", .str mxc)]
  | .porchAsset assetId => .obj [("kind", .str "porch_asset"), ("asset_id", .str assetId)]
  | .none => .obj [("kind", .str "none")]

/-- What one server sees of a hero. -/
structure ServerProfile where
  serverId : String
  displayName : String
  avatar : AvatarRef
  bio : Option String
  signature : Vector UInt8 64
  deriving DecidableEq, Repr

namespace ServerProfile

/-- The bytes a row's signature covers. -/
def signingBytes (concordUid : ConcordUid) (serverId displayName : String) (bio : Option String)
    (avatar : AvatarRef) : List UInt8 :=
  Bytes.utf8 domainTagDescriptorRow ++ concordUid.asBytes.toList ++ lengthPrefixed serverId ++
    lengthPrefixed displayName ++
    (match bio with
    | some bio => 1 :: lengthPrefixed bio
    | none => [0]) ++
    lengthPrefixed avatar.toJson.write

def signNew (ed : Ed25519) (signingKey : Vector UInt8 32) (concordUid : ConcordUid)
    (serverId displayName : String) (bio : Option String) (avatar : AvatarRef) : ServerProfile :=
  ⟨serverId, displayName, avatar, bio,
    ed.sign signingKey (signingBytes concordUid serverId displayName bio avatar)⟩

/-- The bytes of this row under a hero. -/
def message (row : ServerProfile) (concordUid : ConcordUid) : List UInt8 :=
  signingBytes concordUid row.serverId row.displayName row.bio row.avatar

def verify (ed : Ed25519) (row : ServerProfile) (concordUid : ConcordUid) : Bool :=
  concordUid.verifies ed (row.message concordUid) row.signature

end ServerProfile

/-! ## The trust log -/

/-- The id of the edge between two servers, whichever way they are given: the first eight bytes of
a digest, as hex. -/
def computeTrustEdgeId (sha256 : List UInt8 → Vector UInt8 32) (concordUid : ConcordUid)
    (serverA serverB : String) : String :=
  let (a, b) := if serverA ≤ serverB then (serverA, serverB) else (serverB, serverA)
  Bytes.hex ((sha256 (Bytes.utf8 "concord/user-protocol/edge-id/v1" ++
    concordUid.asBytes.toList ++ lengthPrefixed a ++ lengthPrefixed b)).toList.take 8)

/-- Two servers may merge the hero's rows. -/
structure TrustEdge where
  edgeId : String
  concordUid : ConcordUid
  serverA : String
  serverB : String
  issuedAt : UInt64
  signature : Vector UInt8 64
  deriving DecidableEq, Repr

namespace TrustEdge

/-- The bytes an edge's signature covers: the servers in order, whichever way they are given. -/
def signingBytes (concordUid : ConcordUid) (serverA serverB : String) (issuedAt : UInt64) :
    List UInt8 :=
  let (a, b) := if serverA ≤ serverB then (serverA, serverB) else (serverB, serverA)
  Bytes.utf8 domainTagTrustEdge ++ concordUid.asBytes.toList ++ lengthPrefixed a ++
    lengthPrefixed b ++ Bytes.be 8 issuedAt.toNat

/-- An edge a hero signs, under the id of its servers. -/
def signNew (ed : Ed25519) (sha256 : List UInt8 → Vector UInt8 32) (signingKey : Vector UInt8 32)
    (concordUid : ConcordUid) (serverA serverB : String) (issuedAt : UInt64) : TrustEdge :=
  ⟨computeTrustEdgeId sha256 concordUid serverA serverB, concordUid, serverA, serverB, issuedAt,
    ed.sign signingKey (signingBytes concordUid serverA serverB issuedAt)⟩

def message (edge : TrustEdge) : List UInt8 :=
  signingBytes edge.concordUid edge.serverA edge.serverB edge.issuedAt

def verify (ed : Ed25519) (edge : TrustEdge) : Bool :=
  edge.concordUid.verifies ed edge.message edge.signature

/-- The edge names the server. -/
def touches (edge : TrustEdge) (serverId : String) : Bool :=
  edge.serverA = serverId || edge.serverB = serverId

end TrustEdge

/-- An edge no longer holds. -/
structure TrustEdgeRevocation where
  edgeId : String
  concordUid : ConcordUid
  revokedAt : UInt64
  signature : Vector UInt8 64
  deriving DecidableEq, Repr

namespace TrustEdgeRevocation

def signingBytes (concordUid : ConcordUid) (edgeId : String) (revokedAt : UInt64) : List UInt8 :=
  Bytes.utf8 domainTagTrustRevoke ++ concordUid.asBytes.toList ++ lengthPrefixed edgeId ++
    Bytes.be 8 revokedAt.toNat

def signNew (ed : Ed25519) (signingKey : Vector UInt8 32) (concordUid : ConcordUid)
    (edgeId : String) (revokedAt : UInt64) : TrustEdgeRevocation :=
  ⟨edgeId, concordUid, revokedAt, ed.sign signingKey (signingBytes concordUid edgeId revokedAt)⟩

def message (revocation : TrustEdgeRevocation) : List UInt8 :=
  signingBytes revocation.concordUid revocation.edgeId revocation.revokedAt

def verify (ed : Ed25519) (revocation : TrustEdgeRevocation) : Bool :=
  revocation.concordUid.verifies ed revocation.message revocation.signature

end TrustEdgeRevocation

/-- An entry of the log. -/
inductive TrustLogEntry where
  | edge (edge : TrustEdge)
  | revocation (revocation : TrustEdgeRevocation)
  deriving DecidableEq, Repr

namespace TrustLogEntry

def timestamp : TrustLogEntry → UInt64
  | .edge e => e.issuedAt
  | .revocation r => r.revokedAt

def edgeId : TrustLogEntry → String
  | .edge e => e.edgeId
  | .revocation r => r.edgeId

def concordUid : TrustLogEntry → ConcordUid
  | .edge e => e.concordUid
  | .revocation r => r.concordUid

def verify (ed : Ed25519) : TrustLogEntry → Bool
  | .edge e => e.verify ed
  | .revocation r => r.verify ed

end TrustLogEntry

/-- Two servers in order, whichever way they are given. -/
theorem inOrder_comm (a b : String) :
    (if a ≤ b then (a, b) else (b, a)) = if b ≤ a then (b, a) else (a, b) := by
  by_cases hab : a ≤ b
  · by_cases hba : b ≤ a
    · rw [String.le_antisymm hab hba]
    · rw [if_pos hab, if_neg hba]
  · rw [if_neg hab, if_pos ((String.le_total a b).resolve_left hab)]

theorem computeTrustEdgeId_comm (sha256 : List UInt8 → Vector UInt8 32) (uid : ConcordUid)
    (a b : String) : computeTrustEdgeId sha256 uid a b = computeTrustEdgeId sha256 uid b a := by
  unfold computeTrustEdgeId
  rw [inOrder_comm]

namespace TrustEdge

theorem signingBytes_comm (uid : ConcordUid) (a b : String) (issuedAt : UInt64) :
    signingBytes uid a b issuedAt = signingBytes uid b a issuedAt := by
  unfold signingBytes
  rw [inOrder_comm]

/-- The edge is the one between two servers, whichever way they are given. -/
def Between (edge : TrustEdge) (a b : String) : Prop :=
  edge.serverA = a ∧ edge.serverB = b ∨ edge.serverA = b ∧ edge.serverB = a

instance (edge : TrustEdge) (a b : String) : Decidable (edge.Between a b) :=
  inferInstanceAs (Decidable (_ ∨ _))

variable {edge : TrustEdge} {a b : String}

theorem Between.message_eq (h : edge.Between a b) :
    edge.message = signingBytes edge.concordUid a b edge.issuedAt := by
  rcases h with ⟨ha, hb⟩ | ⟨ha, hb⟩
  · rw [message, ha, hb]
  · rw [message, ha, hb, signingBytes_comm]

end TrustEdge

/-! ## Descriptors -/

/-- A hero as peers exchange it. -/
structure ConcordUserDescriptor where
  concordUid : ConcordUid
  displayName : String
  serverProfiles : List ServerProfile
  trustLog : List TrustLogEntry
  deriving DecidableEq, Repr

inductive DescriptorError where
  | invalidSignature (field : String)
  deriving DecidableEq, Repr

namespace ConcordUserDescriptor

/-- No row and no edge. -/
def empty (concordUid : ConcordUid) (displayName : String) : ConcordUserDescriptor :=
  ⟨concordUid, displayName, [], []⟩

/-- Put a row in the place of the row of its server, or after the others, and sort. -/
def upsertServerProfile (d : ConcordUserDescriptor) (profile : ServerProfile) :
    ConcordUserDescriptor :=
  let rows :=
    match d.serverProfiles.findIdx? fun row => row.serverId = profile.serverId with
    | some i => d.serverProfiles.set i profile
    | none => d.serverProfiles ++ [profile]
  { d with serverProfiles := rows.mergeSort fun a b => a.serverId ≤ b.serverId }

def appendTrust (d : ConcordUserDescriptor) (entry : TrustLogEntry) : ConcordUserDescriptor :=
  { d with trustLog := d.trustLog ++ [entry] }

variable (ed : Ed25519)

/-- Check the row of a server under a hero. -/
def verifyRow (uid : ConcordUid) (row : ServerProfile) : Except DescriptorError Unit :=
  if row.verify ed uid then .ok ()
  else .error (.invalidSignature ("server_profile[" ++ row.serverId ++ "]"))

/-- Check an entry of the log under a hero. -/
def verifyEntry (uid : ConcordUid) (entry : TrustLogEntry) : Except DescriptorError Unit :=
  if entry.concordUid ≠ uid then
    .error (.invalidSignature ("trust_log[" ++ entry.edgeId ++ "]: wrong concord_uid"))
  else if entry.verify ed then .ok ()
  else .error (.invalidSignature ("trust_log[" ++ entry.edgeId ++ "]"))

/-- Check every row and every entry. -/
def verifyAllSignatures (d : ConcordUserDescriptor) : Except DescriptorError Unit := do
  d.serverProfiles.forM (verifyRow ed d.concordUid)
  d.trustLog.forM (verifyEntry ed d.concordUid)

end ConcordUserDescriptor

/-- Checks of a list pass exactly when each does. -/
theorem forM_eq_ok_iff {ε α : Type} (check : α → Except ε Unit) (l : List α) :
    l.forM check = .ok () ↔ ∀ a ∈ l, check a = .ok () := by
  induction l with
  | nil => exact iff_of_true rfl fun a h => by cases h
  | cons a l ih =>
    show (check a >>= fun _ => l.forM check) = .ok () ↔ _
    rw [List.forall_mem_cons, ← ih]
    cases check a with
    | error e => exact iff_of_false (by rintro ⟨⟩) fun h => by cases h.1
    | ok u => exact (and_iff_right rfl).symm

namespace ConcordUserDescriptor

variable {ed : Ed25519} {d : ConcordUserDescriptor} {uid : ConcordUid}

theorem verifyRow_eq_ok_iff {row : ServerProfile} :
    verifyRow ed uid row = .ok () ↔ row.verify ed uid = true := by
  unfold verifyRow
  split <;> rename_i h <;> simp only [h, reduceCtorEq, Bool.false_eq_true]

theorem verifyEntry_eq_ok_iff {entry : TrustLogEntry} :
    verifyEntry ed uid entry = .ok () ↔ entry.concordUid = uid ∧ entry.verify ed = true := by
  unfold verifyEntry
  split
  · rename_i h
    exact iff_of_false (by rintro ⟨⟩) fun both => h both.1
  · rename_i h
    rw [not_not] at h
    split <;> rename_i hverify <;> simp only [h, hverify, reduceCtorEq, and_true, and_false,
      Bool.false_eq_true]

/-- Every row is signed by the hero of the descriptor, and every entry of the log is the hero's
own and signed by it. -/
theorem verifyAllSignatures_eq_ok_iff : d.verifyAllSignatures ed = .ok () ↔
    (∀ row ∈ d.serverProfiles, row.verify ed d.concordUid = true) ∧
      ∀ entry ∈ d.trustLog, entry.concordUid = d.concordUid ∧ entry.verify ed = true := by
  have rows := forM_eq_ok_iff (verifyRow ed d.concordUid) d.serverProfiles
  have entries := forM_eq_ok_iff (verifyEntry ed d.concordUid) d.trustLog
  simp only [verifyRow_eq_ok_iff, verifyEntry_eq_ok_iff] at rows entries
  rw [← rows, ← entries, verifyAllSignatures]
  cases d.serverProfiles.forM (verifyRow ed d.concordUid) with
  | error e => exact iff_of_false (by rintro ⟨⟩) fun h => by cases h.1
  | ok u => exact (and_iff_right rfl).symm

/-- A descriptor without rows and entries passes the check under any hero: nothing in it is signed
by that hero. -/
theorem verifyAllSignatures_empty (ed : Ed25519) (uid : ConcordUid) (displayName : String) :
    (empty uid displayName).verifyAllSignatures ed = .ok () := rfl

end ConcordUserDescriptor

end Concorrd
