import Mathlib.Data.List.Basic
import Concorrd.Lib.Json
import Concorrd.Lib.RowTable

/-!
# The tables of the server

A route reads the database, and either raises an error or ends with the statements its session
commits. A commit applies all of them or, where one runs into a unique constraint, none. Foreign keys
are not enforced. Deleting a server takes its channels, invites, members and bans with it and nothing
else.
-/

namespace Concorrd.Api

inductive Role where
  | owner
  | admin
  | member
  deriving DecidableEq, Repr

inductive Visibility where
  | publicServer
  | privateServer
  deriving DecidableEq, Repr

inductive BanMode where
  | soft
  | harsh
  deriving DecidableEq, Repr

inductive ChannelType where
  | text
  | voice
  | app
  deriving DecidableEq, Repr

structure Server where
  id : String
  name : String
  iconUrl : Option String := none
  ownerId : String
  visibility : Visibility := .privateServer
  abbreviation : Option String := none
  kickLimit : Nat := 3
  kickWindowMinutes : Nat := 30
  banMode : BanMode := .soft
  mediaUploadsEnabled : Bool := true
  previousPlaceId : Option String := none
  allowUserChannelCreation : Bool := false
  deriving DecidableEq, Repr

structure Channel where
  serverId : String
  matrixRoomId : String
  name : String
  channelType : ChannelType := .text
  position : Nat := 0
  extensionId : Option String := none
  appAccess : Option String := none
  deriving DecidableEq, Repr

structure InviteToken where
  token : String
  serverId : String
  createdBy : String
  expiresAt : Nat
  maxUses : Int := 10
  useCount : Int := 0
  permanent : Bool := false
  deriving DecidableEq, Repr

def InviteToken.IsValid (invite : InviteToken) (now : Nat) : Prop :=
  invite.permanent = true ∨ invite.useCount < invite.maxUses ∧ now < invite.expiresAt

instance (invite : InviteToken) (now : Nat) : Decidable (invite.IsValid now) :=
  inferInstanceAs (Decidable (_ ∨ _))

structure ServerMember where
  serverId : String
  userId : String
  role : Role := .member
  canKick : Bool := false
  canBan : Bool := false
  displayName : Option String := none
  deriving DecidableEq, Repr

structure ServerBan where
  serverId : String
  userId : String
  bannedBy : String
  deriving DecidableEq, Repr

structure Webhook where
  id : String
  serverId : String
  channelId : Nat
  name : String
  createdBy : String
  enabled : Bool := true
  deriving DecidableEq, Repr

structure SoundboardClip where
  serverId : String
  filename : String
  deriving DecidableEq, Repr

inductive InviteStatus where
  | pending
  | accepted
  | declined
  deriving DecidableEq, Repr

structure DirectInvite where
  serverId : String
  inviterId : String
  inviteeId : String
  status : InviteStatus := .pending
  deriving DecidableEq, Repr

structure ChannelLock where
  channelId : Nat
  pinHash : String
  lockedBy : String
  deriving DecidableEq, Repr

inductive VoteStatus where
  | active
  | passed
  | failed
  | executed
  deriving DecidableEq, Repr

/-- A vote. The voters are user ids separated by commas. -/
structure VoteKick where
  serverId : String
  channelId : String
  targetUserId : String
  initiatedBy : String
  votesYes : String := ""
  votesNo : String := ""
  totalEligible : Nat := 0
  status : VoteStatus := .active
  deriving DecidableEq, Repr

structure KickRecord where
  serverId : String
  userId : String
  kickedBy : String
  reason : Option String := none
  createdAt : Nat
  deriving DecidableEq, Repr

/-- What a re-minted place keeps of the one before it. -/
structure PlaceLedgerHeader where
  newPlaceId : String
  previousPlaceId : String
  encrypted : Bool
  payload : String
  deriving DecidableEq, Repr

structure Db where
  servers : List Server := []
  channels : RowTable Channel := []
  invites : RowTable InviteToken := []
  members : List ServerMember := []
  bans : List ServerBan := []
  webhooks : List Webhook := []
  clips : List SoundboardClip := []
  directInvites : RowTable DirectInvite := []
  locks : List ChannelLock := []
  voteKicks : RowTable VoteKick := []
  kickRecords : List KickRecord := []
  headers : List PlaceLedgerHeader := []
  deriving DecidableEq, Repr

/-! ## Statements -/

/-- What a session has pending when it commits. -/
inductive Write where
  | addServer (server : Server)
  | setOwner (serverId ownerId : String)
  | setBanSettings (serverId : String) (kickLimit kickWindowMinutes : Nat) (banMode : BanMode)
  | deleteServer (serverId : String)
  | addChannel (channel : Channel)
  | deleteChannel (channelId : Nat)
  | addMember (member : ServerMember)
  | setRole (serverId userId : String) (role : Role)
  | setPermissions (serverId userId : String) (canKick canBan : Bool)
  | deleteMember (serverId userId : String)
  | addBan (ban : ServerBan)
  | deleteBan (serverId userId : String)
  | deleteBansOf (userId : String)
  | addInvite (invite : InviteToken)
  | setUseCount (inviteId : Nat) (useCount : Int)
  | deleteInvite (inviteId : Nat)
  | addDirectInvite (invite : DirectInvite)
  | setInviteStatus (inviteId : Nat) (status : InviteStatus)
  | addLock (lock : ChannelLock)
  | deleteLock (channelId : Nat)
  | addWebhook (webhook : Webhook)
  | setEnabled (webhookId : String) (enabled : Bool)
  | deleteWebhook (webhookId : String)
  | deleteClips (serverId : String)
  | addVoteKick (vote : VoteKick)
  | setVoteKick (voteId : Nat) (vote : VoteKick)
  | addKickRecord (record : KickRecord)
  | addHeader (header : PlaceLedgerHeader)
  deriving DecidableEq, Repr

namespace Db

def server? (db : Db) (serverId : String) : Option Server :=
  db.servers.find? fun server => server.id = serverId

def member? (db : Db) (serverId userId : String) : Option ServerMember :=
  db.members.find? fun member => member.serverId = serverId ∧ member.userId = userId

def ban? (db : Db) (serverId userId : String) : Option ServerBan :=
  db.bans.find? fun ban => ban.serverId = serverId ∧ ban.userId = userId

def lock? (db : Db) (channelId : Nat) : Option ChannelLock :=
  db.locks.find? fun lock => lock.channelId = channelId

def webhook? (db : Db) (webhookId : String) : Option Webhook :=
  db.webhooks.find? fun webhook => webhook.id = webhookId

/-- The channels of a server. -/
def channelsOf (db : Db) (serverId : String) : List (Row Channel) :=
  db.channels.filter fun channel => channel.val.serverId = serverId

def IsMember (db : Db) (serverId userId : String) : Prop :=
  ∃ member ∈ db.members, member.serverId = serverId ∧ member.userId = userId

def IsBanned (db : Db) (serverId userId : String) : Prop :=
  ∃ ban ∈ db.bans, ban.serverId = serverId ∧ ban.userId = userId

instance (db : Db) (serverId userId : String) : Decidable (db.IsMember serverId userId) :=
  inferInstanceAs (Decidable (∃ member ∈ db.members, _))

instance (db : Db) (serverId userId : String) : Decidable (db.IsBanned serverId userId) :=
  inferInstanceAs (Decidable (∃ ban ∈ db.bans, _))

/-- One statement. It fails where it would break a unique constraint. -/
def apply (db : Db) : Write → Option Db
  | .addServer server =>
    if ∃ other ∈ db.servers, other.id = server.id then none
    else some { db with servers := db.servers ++ [server] }
  | .setOwner serverId ownerId =>
    some { db with
      servers := db.servers.map fun s => if s.id = serverId then { s with ownerId } else s }
  | .setBanSettings serverId kickLimit kickWindowMinutes banMode =>
    some { db with
      servers := db.servers.map fun s =>
        if s.id = serverId then { s with kickLimit, kickWindowMinutes, banMode } else s }
  | .deleteServer serverId =>
    some { db with
      servers := db.servers.filter fun server => server.id ≠ serverId
      channels := db.channels.filter fun channel => channel.val.serverId ≠ serverId
      invites := db.invites.filter fun invite => invite.val.serverId ≠ serverId
      members := db.members.filter fun member => member.serverId ≠ serverId
      bans := db.bans.filter fun ban => ban.serverId ≠ serverId }
  | .addChannel channel =>
    if ∃ other ∈ db.channels, other.val.matrixRoomId = channel.matrixRoomId then none
    else some { db with channels := db.channels.insert channel }
  | .deleteChannel channelId => some { db with channels := db.channels.delete channelId }
  | .addMember member =>
    if db.IsMember member.serverId member.userId then none
    else some { db with members := db.members ++ [member] }
  | .setRole serverId userId role =>
    some { db with
      members := db.members.map fun m =>
        if m.serverId = serverId ∧ m.userId = userId then { m with role } else m }
  | .setPermissions serverId userId canKick canBan =>
    some { db with
      members := db.members.map fun m =>
        if m.serverId = serverId ∧ m.userId = userId then { m with canKick, canBan } else m }
  | .deleteMember serverId userId =>
    some { db with
      members := db.members.filter fun m => ¬(m.serverId = serverId ∧ m.userId = userId) }
  | .addBan ban =>
    if db.IsBanned ban.serverId ban.userId then none
    else some { db with bans := db.bans ++ [ban] }
  | .deleteBan serverId userId =>
    some { db with bans := db.bans.filter fun b => ¬(b.serverId = serverId ∧ b.userId = userId) }
  | .deleteBansOf userId => some { db with bans := db.bans.filter fun ban => ban.userId ≠ userId }
  | .addInvite invite =>
    if ∃ other ∈ db.invites, other.val.token = invite.token then none
    else some { db with invites := db.invites.insert invite }
  | .setUseCount inviteId useCount =>
    some { db with invites := db.invites.update inviteId fun invite => { invite with useCount } }
  | .deleteInvite inviteId => some { db with invites := db.invites.delete inviteId }
  | .addDirectInvite invite => some { db with directInvites := db.directInvites.insert invite }
  | .setInviteStatus inviteId status =>
    some { db with
      directInvites := db.directInvites.update inviteId fun invite => { invite with status } }
  | .addLock lock =>
    if ∃ other ∈ db.locks, other.channelId = lock.channelId then none
    else some { db with locks := db.locks ++ [lock] }
  | .deleteLock channelId =>
    some { db with locks := db.locks.filter fun lock => lock.channelId ≠ channelId }
  | .addWebhook webhook =>
    if ∃ other ∈ db.webhooks, other.id = webhook.id then none
    else some { db with webhooks := db.webhooks ++ [webhook] }
  | .setEnabled webhookId enabled =>
    some { db with
      webhooks := db.webhooks.map fun w => if w.id = webhookId then { w with enabled } else w }
  | .deleteWebhook webhookId =>
    some { db with webhooks := db.webhooks.filter fun webhook => webhook.id ≠ webhookId }
  | .deleteClips serverId =>
    some { db with clips := db.clips.filter fun clip => clip.serverId ≠ serverId }
  | .addVoteKick vote => some { db with voteKicks := db.voteKicks.insert vote }
  | .setVoteKick voteId vote => some { db with voteKicks := db.voteKicks.update voteId fun _ => vote }
  | .addKickRecord record => some { db with kickRecords := db.kickRecords ++ [record] }
  | .addHeader header => some { db with headers := db.headers ++ [header] }

/-- All statements of a session, or none. -/
def commit (db : Db) (writes : List Write) : Option Db := writes.foldlM apply db

theorem commit_cons (db : Db) (w : Write) (ws : List Write) :
    db.commit (w :: ws) = (db.apply w).bind fun db => db.commit ws := rfl

theorem commit_singleton (db : Db) (w : Write) : db.commit [w] = db.apply w :=
  Option.bind_fun_some (db.apply w)

end Db

/-! ## Fields of request bodies -/

/-- The characters of a user id before and after its colon. -/
def isLocalpartChar (c : Char) : Bool := c.isAlphanum || c ∈ ['.', '_', '=', '-', '/', '+']

def isDomainChar (c : Char) : Bool := c.isAlphanum || c ∈ ['.', '-']

/-- The pattern of Matrix user ids and, with another sigil, of room ids. -/
def matchesMatrixId (sigil : Char) (text : String) : Bool :=
  match text.toList with
  | [] => false
  | c :: rest =>
    let (localpart, domain) := rest.span (· ≠ ':')
    c = sigil && !localpart.isEmpty && localpart.all isLocalpartChar &&
      !(domain.drop 1).isEmpty && (domain.drop 1).all isDomainChar

/-- A user id that a body passed validation with. -/
structure UserIdField where
  text : String
  pattern : matchesMatrixId '@' text = true
  short : text.length ≤ 255

/-! ## Errors and replies -/

/-- What a route raises. A classified error also carries its code. -/
structure HttpError where
  statusCode : Nat
  detail : String
  errorCode : Option String := none
  deriving DecidableEq, Repr

namespace HttpError

/-- What the client is told of an exception that nobody caught. -/
def internal : HttpError :=
  ⟨500, "An internal error occurred. The server logs have details.", some "INTERNAL_ERROR"⟩

end HttpError

/-- A route that got to its end: the body it returns, and what its session commits. -/
structure Reply where
  body : List (String × Json)
  writes : List Write := []

/-- The body of most replies. -/
def status (text : String) : List (String × Json) := [("status", .str text)]

/-- Raise the error under the condition. -/
def refuse (c : Prop) [Decidable c] (e : HttpError) : Except HttpError Unit :=
  if c then .error e else .ok ()

/-- Raise the error when nothing was found. -/
def found {α : Type} (o : Option α) (e : HttpError) : Except HttpError α :=
  match o with
  | some a => .ok a
  | none => .error e

section

variable {α β : Type} {e : HttpError} {b : β}

@[simp] theorem refuse_bind {c : Prop} [Decidable c] {k : Unit → Except HttpError β} :
    (refuse c e >>= k) = .ok b ↔ ¬c ∧ k () = .ok b := by
  unfold refuse
  split
  · rename_i h
    refine ⟨fun out => ?_, fun out => absurd h out.1⟩
    cases out
  · rename_i h
    exact ⟨fun out => ⟨h, out⟩, fun out => out.2⟩

@[simp] theorem found_bind {o : Option α} {k : α → Except HttpError β} :
    (found o e >>= k) = .ok b ↔ ∃ a, o = some a ∧ k a = .ok b := by
  cases o with
  | none =>
    constructor
    · intro out
      cases out
    · rintro ⟨a, h, -⟩
      cases h
  | some a =>
    refine ⟨fun out => ⟨a, rfl, out⟩, ?_⟩
    rintro ⟨a', h, out⟩
    cases h
    exact out

@[simp] theorem pure_eq_ok {a : β} : (pure a : Except HttpError β) = .ok b ↔ b = a := by
  constructor
  · intro h
    cases h
    rfl
  · rintro rfl
    rfl

@[simp] theorem ok_bind {a : α} {k : α → Except HttpError β} : ((Except.ok a) >>= k) = k a := rfl

end

/-! ## Who may -/

def requireServerMember (db : Db) (serverId userId : String) : Except HttpError ServerMember :=
  found (db.member? serverId userId) ⟨403, "You are not a member of this server", none⟩

def requireServerAdmin (db : Db) (serverId userId : String) : Except HttpError ServerMember := do
  let member ← requireServerMember db serverId userId
  refuse (member.role ≠ .owner ∧ member.role ≠ .admin)
    ⟨403, "Only admins and the server owner can do this", none⟩
  return member

def requireServerOwner (db : Db) (serverId userId : String) : Except HttpError ServerMember := do
  let member ← requireServerMember db serverId userId
  refuse (member.role ≠ .owner) ⟨403, "Only the server owner can do this", none⟩
  return member

section

variable {db : Db} {serverId userId : String} {β : Type} {k : ServerMember → Except HttpError β} {b : β}

@[simp] theorem requireServerMember_bind :
    (requireServerMember db serverId userId >>= k) = .ok b ↔
      ∃ member, db.member? serverId userId = some member ∧ k member = .ok b :=
  found_bind

@[simp] theorem requireServerAdmin_bind :
    (requireServerAdmin db serverId userId >>= k) = .ok b ↔
      ∃ member, db.member? serverId userId = some member ∧ member.role ≠ .member ∧
        k member = .ok b := by
  have roles (role : Role) : ¬(role ≠ .owner ∧ role ≠ .admin) ↔ role ≠ .member := by
    cases role <;> decide
  simp only [requireServerAdmin, bind_assoc, requireServerMember_bind, refuse_bind, roles, pure_bind]

@[simp] theorem requireServerOwner_bind :
    (requireServerOwner db serverId userId >>= k) = .ok b ↔
      ∃ member, db.member? serverId userId = some member ∧ member.role = .owner ∧
        k member = .ok b := by
  simp only [requireServerOwner, bind_assoc, requireServerMember_bind, refuse_bind, ne_eq,
    not_not, pure_bind]

end

end Concorrd.Api
