import Concorrd.Api.Admin

/-!
# Re-minting a place

Ownership passes to a new owner by way of a new place that is built from a snapshot of the old one.
-/

namespace Concorrd.Api

structure RemintRequest where
  newOwnerUserId : UserIdField
  encrypted : Bool := false

structure RemintResponse where
  newPlaceId : String
  previousPlaceId : String
  newOwnerId : String
  encrypted : Bool
  mediaFilenamesPreserved : Nat
  channelIdMapping : List (String × String)
  memberCountPreserved : Nat
  deriving DecidableEq, Repr

/-- A channel in the snapshot. -/
structure ChannelEntry where
  id : Nat
  name : String
  channelType : ChannelType
  matrixRoomId : String
  position : Nat
  deriving DecidableEq, Repr

/-- A member in the snapshot. -/
structure MemberEntry where
  userId : String
  role : Role
  displayName : Option String
  canKick : Bool
  canBan : Bool
  deriving DecidableEq, Repr

structure Snapshot where
  previousPlaceId : String
  previousOwnerId : String
  channels : List ChannelEntry
  members : List MemberEntry
  mediaFilenames : List String
  deriving DecidableEq, Repr

def snapshotChannel (channel : Row Channel) : ChannelEntry :=
  { id := channel.id, name := channel.val.name, channelType := channel.val.channelType,
    matrixRoomId := channel.val.matrixRoomId, position := channel.val.position }

def snapshotMember (member : ServerMember) : MemberEntry :=
  { userId := member.userId, role := member.role, displayName := member.displayName,
    canKick := member.canKick, canBan := member.canBan }

def Db.membersOf (db : Db) (serverId : String) : List ServerMember :=
  db.members.filter fun member => member.serverId = serverId

/-- The ledger of a place. -/
def Db.snapshot (db : Db) (server : Server) : Snapshot where
  previousPlaceId := server.id
  previousOwnerId := server.ownerId
  channels := (db.channelsOf server.id).map snapshotChannel
  members := (db.membersOf server.id).map snapshotMember
  mediaFilenames :=
    (db.clips.filter fun clip => clip.serverId = server.id).map SoundboardClip.filename

/-- The new place. -/
def newServer (server : Server) (id newOwnerUserId : String) : Server where
  id := id
  name := server.name
  iconUrl := server.iconUrl
  ownerId := newOwnerUserId
  visibility := server.visibility
  abbreviation := server.abbreviation
  kickLimit := server.kickLimit
  kickWindowMinutes := server.kickWindowMinutes
  banMode := server.banMode
  mediaUploadsEnabled := server.mediaUploadsEnabled
  previousPlaceId := some server.id

/-- A channel of the new place, with a room id that stands in for a room. -/
def rehydrateChannel (newPlaceId : String) (entry : ChannelEntry) (token : String) : Channel where
  serverId := newPlaceId
  matrixRoomId := "!remint-" ++ newPlaceId ++ "-" ++ token ++ ":placeholder.local"
  name := entry.name
  channelType := entry.channelType
  position := entry.position

/-- The members of the new place, but for those seen already. -/
def rehydrateMembers (newPlaceId : String) : List String → List MemberEntry → List ServerMember
  | _, [] => []
  | seen, entry :: entries =>
    if entry.userId ∈ seen then rehydrateMembers newPlaceId seen entries
    else
      { serverId := newPlaceId, userId := entry.userId,
        role := if entry.role = .owner then .admin else entry.role,
        canKick := entry.canKick, canBan := entry.canBan, displayName := entry.displayName } ::
      rehydrateMembers newPlaceId (entry.userId :: seen) entries

variable (db : Db)

/-- The answer to a re-mint, and what it commits. -/
def reminted (encode : Snapshot → String) (server : Server) (body : RemintRequest) (id : String)
    (tokens : Nat → String) : RemintResponse × List Write :=
  let snapshot := db.snapshot server
  let newOwner := body.newOwnerUserId.text
  let channels := snapshot.channels.zipIdx.map fun entry =>
    rehydrateChannel id entry.1 (tokens entry.2)
  let members : List ServerMember :=
    { serverId := id, userId := newOwner, role := .owner } ::
      rehydrateMembers id [newOwner] snapshot.members
  -- the table hands out its ids one after the other
  let channelIdMapping := snapshot.channels.zipIdx.map fun entry =>
    (toString entry.1.id, toString (db.channels.nextId + entry.2))
  let response : RemintResponse :=
    { newPlaceId := id, previousPlaceId := server.id, newOwnerId := newOwner,
      encrypted := body.encrypted, mediaFilenamesPreserved := snapshot.mediaFilenames.length,
      channelIdMapping, memberCountPreserved := members.length }
  let header : PlaceLedgerHeader :=
    { newPlaceId := id, previousPlaceId := server.id, encrypted := body.encrypted,
      payload := encode snapshot }
  (response, .addServer (newServer server id newOwner) :: channels.map .addChannel ++
    members.map .addMember ++ [.addHeader header])

/-- Re-mint a place. The id and the tokens are drawn, and `encode` writes out the snapshot. -/
def remintOwnership (encode : Snapshot → String) (serverId : String) (body : RemintRequest)
    (userId id : String) (tokens : Nat → String) :
    Except HttpError (RemintResponse × List Write) := do
  let server ← found (db.server? serverId) ⟨404, "Place not found", some "RESOURCE_NOT_FOUND"⟩
  refuse (server.ownerId ≠ userId)
    ⟨403, "Only the current place owner can re-mint ownership.", some "OWNER_REQUIRED"⟩
  refuse (body.newOwnerUserId.text = server.ownerId)
    ⟨400, "New owner must differ from current owner.", some "OWNERSHIP_TRANSFER_FAILED"⟩
  refuse (body.encrypted = true)
    ⟨501, "Encrypted re-mint is not yet implemented. " ++
      "Pass encrypted=false for an unencrypted ownership transfer.",
      some "ENCRYPTION_NOT_AVAILABLE"⟩
  refuse (db.channelsOf server.id ≠ [] ∧ (db.snapshot server).channels = [])
    ⟨500, "Re-mint snapshot is missing channel data required to reconstruct the place.",
      some "REMINT_SNAPSHOT_INCOMPLETE"⟩
  refuse (db.membersOf server.id ≠ [] ∧ (db.snapshot server).members = [])
    ⟨500, "Re-mint snapshot is missing member roster required to reconstruct the place.",
      some "REMINT_SNAPSHOT_INCOMPLETE"⟩
  return reminted db encode server body id tokens

/-! ## What it makes sure of -/

theorem remintOwnership_ok {db : Db} {encode : Snapshot → String} {serverId userId id : String}
    {body : RemintRequest} {tokens : Nat → String} {done : RemintResponse × List Write} :
    remintOwnership db encode serverId body userId id tokens = .ok done ↔
    ∃ server, db.server? serverId = some server ∧ server.ownerId = userId ∧
      body.newOwnerUserId.text ≠ server.ownerId ∧ body.encrypted = false ∧
      done = reminted db encode server body id tokens := by
  -- a snapshot misses nothing
  have complete {α β : Type} (l : List α) (f : α → β) : ¬(l ≠ [] ∧ l.map f = []) := by
    rw [List.map_eq_nil_iff]
    exact fun h => h.1 h.2
  simp only [remintOwnership, Db.snapshot, found_bind, refuse_bind, complete, pure_eq_ok, ne_eq,
    not_not, not_false_eq_true, true_and, Bool.not_eq_true]

end Concorrd.Api
