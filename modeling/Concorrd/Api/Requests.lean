import Concorrd.Lib.Run
import Concorrd.Api.Remint

/-!
# The server as a machine

A request is handled to its end before the next one: its route runs, and what its session holds is
committed. A request that fails, in the route or in the commit, changes nothing.
-/

namespace Concorrd.Api

/-- The database and the settings file. -/
structure Instance where
  db : Db := {}
  settings : Settings := {}

/-- What the process runs with, and how it writes out a snapshot. -/
structure Process extends Config where
  encode : Snapshot → String := fun _ => ""

/-- The id drawn for a new server. -/
structure DrawnId where
  text : String
  nonempty : text ≠ ""

/-- A request, with what it draws and what the homeserver answers to it. -/
inductive Request where
  | seedDefaultServer (instanceName : String) (id : DrawnId) (rooms : String → Option String)
  | listServers (userId : String) (joins : String → Bool)
  | createServer (body : ServerCreate) (userId : String) (id : DrawnId) (room : Option String)
  | deleteServer (serverId userId : String)
  | leaveServer (serverId userId : String)
  | joinServer (serverId userId : String)
  | updateMemberRole (serverId memberUserId : String) (body : RoleUpdate) (userId : String)
  | kickMember (serverId memberUserId userId : String)
  | banUser (serverId : String) (body : UserIdField) (userId : String) (bans : String → Bool)
  | unbanUser (serverId banUserId userId : String)
  | createChannel (serverId : String) (body : ChannelCreate) (userId : String) (room : Option String)
  | startExtension (serverId extensionId userId : String) (room : Option String)
  | deleteChannel (serverId : String) (channelId : Nat) (userId : String)
  | lockChannel (channelId : Nat) (pin userId : String)
  | unlockChannel (channelId : Nat) (pin userId : String)
  | createWebhook (serverId : String) (channelId : Nat) (name userId id : String)
  | deleteWebhook (serverId webhookId userId : String)
  | toggleWebhook (serverId webhookId userId : String)
  | createInvite (body : InviteCreate) (userId token : String) (now : Nat)
  | revokeInvite (inviteId : Nat) (userId : String)
  | redeemInvite (token userId : String) (now : Nat)
  | sendDirectInvite (serverId inviteeId userId : String)
  | respondToInvite (inviteId : Nat) (accept : Bool) (userId : String)
  | registerUser (body : RegisterRequest) (withinRateLimit : Bool) (now : Nat)
      (matrix : Except String String)
  | updateMemberPermissions (serverId memberUserId : String) (body : UpdatePermissions)
      (userId : String)
  | startVoteKick (serverId : String) (body : VoteKickStart) (userId : String)
  | castVoteKick (voteId : Nat) (yes : Bool) (userId : String) (order : SetOrder)
  | setVoteEligible (voteId count : Nat)
  | kickUser (serverId targetUserId userId : String) (now : Nat)
  | executeVoteKick (voteId : Nat) (now : Nat)
  | updateBanSettings (serverId : String) (body : BanSettings) (userId : String)
  | adminBanUser (targetUserId userId : String)
  | adminUnbanUser (targetUserId userId : String)
  | remintOwnership (serverId : String) (body : RemintRequest) (userId : String) (id : DrawnId)
      (tokens : Nat → String)

namespace Instance

variable (p : Process) (s : Instance)

/-- The route of a request. It leaves the settings alone unless it says otherwise. -/
def handle : Request → Except HttpError (Reply × Settings)
  | .seedDefaultServer instanceName id rooms =>
    seedDefaultServer p.toConfig s.settings instanceName id.text rooms
  | .listServers userId joins => (·, s.settings) <$> Api.listServers s.db s.settings userId joins
  | .createServer body userId id room => (·, s.settings) <$> Api.createServer body userId id.text room
  | .deleteServer serverId userId => (·, s.settings) <$> Api.deleteServer s.db serverId userId
  | .leaveServer serverId userId => (·, s.settings) <$> Api.leaveServer s.db serverId userId
  | .joinServer serverId userId => (·, s.settings) <$> Api.joinServer s.db serverId userId
  | .updateMemberRole serverId memberUserId body userId =>
    (·, s.settings) <$> Api.updateMemberRole s.db serverId memberUserId body userId
  | .kickMember serverId memberUserId userId =>
    (·, s.settings) <$> Api.kickMember s.db serverId memberUserId userId
  | .banUser serverId body userId bans =>
    (·, s.settings) <$> Api.banUser s.db serverId body userId bans
  | .unbanUser serverId banUserId userId =>
    (·, s.settings) <$> Api.unbanUser s.db serverId banUserId userId
  | .createChannel serverId body userId room =>
    (·, s.settings) <$> Api.createChannel p.toConfig s.db serverId body userId room
  | .startExtension serverId extensionId userId room =>
    (·, s.settings) <$> Api.startExtension p.toConfig s.db serverId extensionId userId room
  | .deleteChannel serverId channelId userId =>
    (·, s.settings) <$> Api.deleteChannel s.db serverId channelId userId
  | .lockChannel channelId pin userId =>
    (·, s.settings) <$> Api.lockChannel p.toConfig s.db channelId pin userId
  | .unlockChannel channelId pin userId =>
    (·, s.settings) <$> Api.unlockChannel p.toConfig s.db channelId pin userId
  | .createWebhook serverId channelId name userId id =>
    (·, s.settings) <$> Api.createWebhook s.db serverId channelId name userId id
  | .deleteWebhook serverId webhookId userId =>
    (·, s.settings) <$> Api.deleteWebhook s.db serverId webhookId userId
  | .toggleWebhook serverId webhookId userId =>
    (·, s.settings) <$> Api.toggleWebhook s.db serverId webhookId userId
  | .createInvite body userId token now =>
    (·, s.settings) <$> Api.createInvite s.db body userId token now
  | .revokeInvite inviteId userId => (·, s.settings) <$> Api.revokeInvite s.db inviteId userId
  | .redeemInvite token userId now => (·, s.settings) <$> Api.redeemInvite s.db token userId now
  | .sendDirectInvite serverId inviteeId userId =>
    (·, s.settings) <$> Api.sendDirectInvite s.db serverId inviteeId userId
  | .respondToInvite inviteId accept userId =>
    (·, s.settings) <$> Api.respondToInvite s.db inviteId accept userId
  | .registerUser body withinRateLimit now matrix =>
    Api.registerUser p.toConfig s.db s.settings body withinRateLimit now matrix
  | .updateMemberPermissions serverId memberUserId body userId =>
    (·, s.settings) <$> Api.updateMemberPermissions s.db serverId memberUserId body userId
  | .startVoteKick serverId body userId =>
    (·, s.settings) <$> Api.startVoteKick s.db serverId body userId
  | .castVoteKick voteId yes userId order =>
    (·, s.settings) <$> Api.castVoteKick s.db voteId yes userId order
  | .setVoteEligible voteId count => (·, s.settings) <$> Api.setVoteEligible s.db voteId count
  | .kickUser serverId targetUserId userId now =>
    (·, s.settings) <$> Api.kickUser s.db serverId targetUserId userId now
  | .executeVoteKick voteId now => (·, s.settings) <$> Api.executeVoteKick s.db voteId now
  | .updateBanSettings serverId body userId =>
    (·, s.settings) <$> Api.updateBanSettings s.db serverId body userId
  | .adminBanUser targetUserId userId =>
    (·, s.settings) <$> Api.adminBanUser p.toConfig s.db s.settings targetUserId userId
  | .adminUnbanUser targetUserId userId =>
    (·, s.settings) <$> Api.adminUnbanUser p.toConfig s.settings targetUserId userId
  | .remintOwnership serverId body userId id tokens =>
    (fun done => (⟨[("new_place_id", .str id.text)], done.2⟩, s.settings)) <$>
      Api.remintOwnership s.db p.encode serverId body userId id.text tokens

/-- One request. -/
def step (request : Request) : Instance :=
  match s.handle p request with
  | .error _ => s
  | .ok (reply, settings) =>
    match s.db.commit reply.writes with
    | none => s
    | some db => ⟨db, settings⟩

end Instance

end Concorrd.Api
