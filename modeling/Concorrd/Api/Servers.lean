import Concorrd.Api.Models

/-!
# Servers, their members and their bans

The routes under `/api/servers` that found and delete servers and decide who is a member, with which
role, and who is banned. What the homeserver answers and the ids that are drawn come with the request.
-/

namespace Concorrd.Api

/-- What `instance.json` says. -/
structure Settings where
  defaultServerId : Option String := none
  firstBootComplete : Bool := false
  defaultServerSeeded : Bool := false
  welcomePosted : Bool := false
  openRegistration : Option Bool := none
  adminUserIds : List String := []
  deriving DecidableEq, Repr

/-- The default server, when one is set. -/
def Settings.lobby? (settings : Settings) : Option String :=
  settings.defaultServerId.filter fun serverId => serverId ≠ ""

structure ServerCreate where
  name : String
  visibility : Visibility := .privateServer
  abbreviation : Option String := none

/-- A role that a member can be given. -/
structure RoleUpdate where
  role : Role
  notOwner : role ≠ .owner

variable (db : Db)

/-- Join the user to the lobby, if it is set and the user is not there. Nothing is committed unless
every one of its rooms lets the user in. -/
def lobbyJoin (settings : Settings) (userId : String) (joins : String → Bool) : List Write :=
  match settings.lobby? with
  | none => []
  | some lobby =>
    if db.IsMember lobby userId then []
    else if (db.channelsOf lobby).all fun channel => joins channel.val.matrixRoomId then
      [.addMember { serverId := lobby, userId }]
    else []

def listServers (settings : Settings) (userId : String) (joins : String → Bool) :
    Except HttpError Reply :=
  let writes := lobbyJoin db settings userId joins
  let after := (db.commit writes).getD db
  let servers := after.servers.filter fun server => after.IsMember server.id userId
  .ok ⟨[("servers", .arr (servers.map fun server => .str server.id))], writes⟩

/-- Create a server with a default `general` channel. The id is drawn, and the room is what the
homeserver created, if it did. -/
def createServer (body : ServerCreate) (userId id : String) (room : Option String) :
    Except HttpError Reply := do
  let roomId ← found room .internal
  let server : Server :=
    { id, name := body.name, ownerId := userId, visibility := body.visibility,
      abbreviation := body.abbreviation }
  return ⟨[("id", .str id), ("name", .str body.name), ("owner_id", .str userId)],
    [.addServer server, .addMember { serverId := id, userId, role := .owner },
      .addChannel { serverId := id, matrixRoomId := roomId, name := "general" }]⟩

/-- Delete a server. The cascade of the session takes what belongs to it. -/
def deleteServer (serverId userId : String) : Except HttpError Reply := do
  let _ ← requireServerAdmin db serverId userId
  let _ ← found (db.server? serverId) ⟨404, "Server not found", none⟩
  return ⟨status "deleted", [.deleteClips serverId, .deleteServer serverId]⟩

def leaveServer (serverId userId : String) : Except HttpError Reply := do
  let member ← requireServerMember db serverId userId
  refuse (member.role = .owner)
    ⟨400, "Owners cannot leave their server. Delete the server instead.", none⟩
  return ⟨status "left", [.deleteMember serverId userId]⟩

/-- Join a public server. Its rooms are joined where they can be. -/
def joinServer (serverId userId : String) : Except HttpError Reply := do
  let server ← found (db.server? serverId) ⟨404, "Server not found", none⟩
  refuse (server.visibility ≠ .publicServer)
    ⟨403, "This server is private. You need an invite.", none⟩
  refuse (db.IsBanned serverId userId) ⟨403, "You are banned from this server", none⟩
  refuse (db.IsMember serverId userId) ⟨400, "Already a member", none⟩
  return ⟨status "joined", [.addMember { serverId, userId }]⟩

def updateMemberRole (serverId memberUserId : String) (body : RoleUpdate) (userId : String) :
    Except HttpError Reply := do
  let _ ← requireServerOwner db serverId userId
  let member ← found (db.member? serverId memberUserId) ⟨404, "Member not found", none⟩
  refuse (member.role = .owner) ⟨400, "Cannot change the owner's role", none⟩
  return ⟨status "updated", [.setRole serverId memberUserId body.role]⟩

def kickMember (serverId memberUserId userId : String) : Except HttpError Reply := do
  let _ ← requireServerAdmin db serverId userId
  let member ← found (db.member? serverId memberUserId) ⟨404, "Member not found", none⟩
  refuse (member.role = .owner) ⟨400, "Cannot kick the owner", none⟩
  return ⟨status "kicked", [.deleteMember serverId memberUserId]⟩

/-- Ban a user, who need not be a member, and end the membership. Nothing is committed unless every
room of the server takes the ban. -/
def banUser (serverId : String) (body : UserIdField) (userId : String) (bans : String → Bool) :
    Except HttpError Reply := do
  let _ ← requireServerAdmin db serverId userId
  let server ← found (db.server? serverId) ⟨404, "Server not found", none⟩
  refuse (body.text = server.ownerId) ⟨400, "Cannot ban the server owner", none⟩
  refuse (db.IsBanned serverId body.text) ⟨400, "User is already banned", none⟩
  refuse (¬(db.channelsOf serverId).all fun channel => bans channel.val.matrixRoomId)
    ⟨502, "Ban could not be applied to every channel; no change committed. " ++
      "Retry once the homeserver is reachable.", none⟩
  return ⟨status "banned", [.addBan { serverId, userId := body.text, bannedBy := userId },
    .deleteMember serverId body.text]⟩

def unbanUser (serverId banUserId userId : String) : Except HttpError Reply := do
  let _ ← requireServerAdmin db serverId userId
  refuse (¬db.IsBanned serverId banUserId) ⟨404, "Ban not found", none⟩
  return ⟨status "unbanned", [.deleteBan serverId banUserId]⟩

/-! ## What they make sure of -/

section

variable {db : Db} {reply : Reply} {serverId userId memberUserId banUserId id : String}

theorem lobbyJoin_eq (settings : Settings) (userId : String) (joins : String → Bool) :
    lobbyJoin db settings userId joins = [] ∨ ∃ lobby, settings.lobby? = some lobby ∧
      ¬db.IsMember lobby userId ∧
      ((db.channelsOf lobby).all fun channel => joins channel.val.matrixRoomId) = true ∧
      lobbyJoin db settings userId joins = [.addMember { serverId := lobby, userId }] := by
  unfold lobbyJoin
  cases settings.lobby? with
  | none => exact .inl rfl
  | some lobby =>
    dsimp only
    split
    · exact .inl rfl
    · split
      · rename_i absent joined
        exact .inr ⟨lobby, rfl, absent, joined, rfl⟩
      · exact .inl rfl

theorem createServer_ok {body : ServerCreate} {room : Option String} :
    createServer body userId id room = .ok reply ↔ ∃ roomId, room = some roomId ∧
      reply = ⟨[("id", .str id), ("name", .str body.name), ("owner_id", .str userId)],
        [.addServer { id, name := body.name, ownerId := userId, visibility := body.visibility,
                      abbreviation := body.abbreviation },
          .addMember { serverId := id, userId, role := .owner },
          .addChannel { serverId := id, matrixRoomId := roomId, name := "general" }]⟩ := by
  simp only [createServer, found_bind, pure_eq_ok]

theorem deleteServer_ok : deleteServer db serverId userId = .ok reply ↔
    ∃ member, db.member? serverId userId = some member ∧ member.role ≠ .member ∧
      ∃ server, db.server? serverId = some server ∧
        reply = ⟨status "deleted", [.deleteClips serverId, .deleteServer serverId]⟩ := by
  simp only [deleteServer, requireServerAdmin_bind, found_bind, pure_eq_ok]

theorem leaveServer_ok : leaveServer db serverId userId = .ok reply ↔
    ∃ member, db.member? serverId userId = some member ∧ member.role ≠ .owner ∧
      reply = ⟨status "left", [.deleteMember serverId userId]⟩ := by
  simp only [leaveServer, requireServerMember_bind, refuse_bind, pure_eq_ok, ne_eq]

theorem joinServer_ok : joinServer db serverId userId = .ok reply ↔
    ∃ server, db.server? serverId = some server ∧ server.visibility = .publicServer ∧
      ¬db.IsBanned serverId userId ∧ ¬db.IsMember serverId userId ∧
      reply = ⟨status "joined", [.addMember { serverId, userId }]⟩ := by
  simp only [joinServer, found_bind, refuse_bind, pure_eq_ok, ne_eq, not_not]

theorem updateMemberRole_ok {body : RoleUpdate} :
    updateMemberRole db serverId memberUserId body userId = .ok reply ↔
    ∃ caller, db.member? serverId userId = some caller ∧ caller.role = .owner ∧
      ∃ member, db.member? serverId memberUserId = some member ∧ member.role ≠ .owner ∧
        reply = ⟨status "updated", [.setRole serverId memberUserId body.role]⟩ := by
  simp only [updateMemberRole, requireServerOwner_bind, found_bind, refuse_bind, pure_eq_ok, ne_eq]

theorem kickMember_ok : kickMember db serverId memberUserId userId = .ok reply ↔
    ∃ caller, db.member? serverId userId = some caller ∧ caller.role ≠ .member ∧
      ∃ member, db.member? serverId memberUserId = some member ∧ member.role ≠ .owner ∧
        reply = ⟨status "kicked", [.deleteMember serverId memberUserId]⟩ := by
  simp only [kickMember, requireServerAdmin_bind, found_bind, refuse_bind, pure_eq_ok, ne_eq]

theorem banUser_ok {body : UserIdField} {bans : String → Bool} :
    banUser db serverId body userId bans = .ok reply ↔
    ∃ caller, db.member? serverId userId = some caller ∧ caller.role ≠ .member ∧
      ∃ server, db.server? serverId = some server ∧ body.text ≠ server.ownerId ∧
        ¬db.IsBanned serverId body.text ∧
        ((db.channelsOf serverId).all fun channel => bans channel.val.matrixRoomId) = true ∧
        reply = ⟨status "banned", [.addBan { serverId, userId := body.text, bannedBy := userId },
          .deleteMember serverId body.text]⟩ := by
  simp only [banUser, requireServerAdmin_bind, found_bind, refuse_bind, pure_eq_ok, ne_eq, not_not]

theorem unbanUser_ok : unbanUser db serverId banUserId userId = .ok reply ↔
    ∃ caller, db.member? serverId userId = some caller ∧ caller.role ≠ .member ∧
      db.IsBanned serverId banUserId ∧
      reply = ⟨status "unbanned", [.deleteBan serverId banUserId]⟩ := by
  simp only [unbanUser, requireServerAdmin_bind, refuse_bind, pure_eq_ok, not_not]

end

end Concorrd.Api
