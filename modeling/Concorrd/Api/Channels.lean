import Concorrd.Api.Servers

/-!
# Channels, their locks and their webhooks

Channels come from `create_channel` and `start_extension` and go with `delete_channel` or with their
server. A lock and a webhook name a channel by its id, and nothing deletes them with the channel.
-/

namespace Concorrd.Api

structure Extension where
  id : String
  name : String

/-- What the process runs with. -/
structure Config where
  adminUserIds : List String := []
  botUserId : String := "@concord-bot:localhost"
  botAccessToken : Option String := none
  openRegistration : Bool := false
  catalog : List Extension := []
  hashPin : String → String := id

structure ChannelCreate where
  name : String
  channelType : ChannelType := .text
  extensionId : Option String := none
  appAccess : Option String := none

variable (config : Config) (db : Db)

/-- The position after the last one. -/
def nextPosition (serverId : String) : Nat :=
  match ((db.channelsOf serverId).map fun channel => channel.val.position).max? with
  | some last => last + 1
  | none => 0

def notInstalled (extensionId : String) : String :=
  "Extension '" ++ extensionId ++ "' is not installed on this instance"

/-- What an app channel mounts and who can open it, and nothing of that for other channels. -/
def ChannelCreate.mount (body : ChannelCreate) : Except HttpError (Option String × Option String) :=
  match body.channelType with
  | .app => do
    let extensionId ← found (body.extensionId.filter fun extensionId => extensionId ≠ "")
      ⟨400, "extension_id is required when channel_type=app", none⟩
    refuse (extensionId ∉ config.catalog.map Extension.id) ⟨400, notInstalled extensionId, none⟩
    return (some extensionId, some ((body.appAccess.filter fun access => access ≠ "").getD "all"))
  | _ => return (none, none)

def createChannel (serverId : String) (body : ChannelCreate) (userId : String)
    (room : Option String) : Except HttpError Reply := do
  let member ← requireServerMember db serverId userId
  let server ← found (db.server? serverId) ⟨404, "Server not found", none⟩
  refuse (member.role = .member ∧ server.allowUserChannelCreation = false)
    ⟨403, "Channel creation requires admin role or server permission", none⟩
  let (extensionId, appAccess) ← body.mount config
  let roomId ← found room .internal
  let channel : Channel :=
    { serverId, matrixRoomId := roomId, name := body.name, channelType := body.channelType,
      position := nextPosition db serverId, extensionId, appAccess }
  return ⟨[("id", .num db.channels.nextId), ("name", .str body.name)], [.addChannel channel]⟩

/-- What is left of a display name in a channel name. -/
def safeBase (text : String) : String :=
  let allowed := text.toList.map fun c => if c.isAlphanum ∨ c = '_' ∨ c = '-' then c else ' '
  String.ofList (((allowed.dropWhile (· = ' ')).reverse.dropWhile (· = ' ')).reverse)

/-- The names a channel of an extension may take, in the order they are tried. -/
def candidates (base : String) : List String :=
  base :: (List.range 98).map fun i => base ++ " " ++ toString (i + 2)

/-- Start an extension: create the app channel that mounts it. Any member may. -/
def startExtension (serverId extensionId userId : String) (room : Option String) :
    Except HttpError Reply := do
  let _ ← requireServerMember db serverId userId
  let _ ← found (db.server? serverId) ⟨404, "Server not found", none⟩
  let extension ← found (config.catalog.find? fun extension => extension.id = extensionId)
    ⟨404, notInstalled extensionId, none⟩
  let base := safeBase (if extension.name = "" then extensionId else extension.name)
  let base := if base = "" then extensionId else base
  let name ← found
    ((candidates base).find? fun name =>
      name ∉ (db.channelsOf serverId).map fun channel => channel.val.name)
    ⟨409, "Too many app channels for this extension on this server", none⟩
  let roomId ← found room .internal
  let channel : Channel :=
    { serverId, matrixRoomId := roomId, name, channelType := .app,
      position := nextPosition db serverId, extensionId := some extensionId, appAccess := some "all" }
  return ⟨[("id", .num db.channels.nextId), ("name", .str name)], [.addChannel channel]⟩

/-- A channel of the server. -/
def channelIn (serverId : String) (channelId : Nat) : Option Channel :=
  (db.channels.get channelId).filter fun channel => channel.serverId = serverId

/-- Delete a channel. Any member may delete an app channel, and the owner every channel. -/
def deleteChannel (serverId : String) (channelId : Nat) (userId : String) :
    Except HttpError Reply := do
  let channel ← found (channelIn db serverId channelId) ⟨404, "Channel not found", none⟩
  let _ ← if channel.channelType = .app then requireServerMember db serverId userId
    else requireServerOwner db serverId userId
  return ⟨status "deleted", [.deleteChannel channelId]⟩

/-! ## Locks -/

/-- Lock a channel with a PIN. Any member of its server may. -/
def lockChannel (channelId : Nat) (pin userId : String) : Except HttpError Reply := do
  let channel ← found (db.channels.get channelId) ⟨404, "Channel not found", none⟩
  refuse (¬db.IsMember channel.serverId userId) ⟨403, "Not a member of this server", none⟩
  refuse (db.lock? channelId).isSome ⟨400, "Channel is already locked", none⟩
  return ⟨status "locked", [.addLock ⟨channelId, config.hashPin pin, userId⟩]⟩

/-- Unlock a channel: whoever locked it, with the PIN, as an admin, or when the channel is gone. -/
def unlockChannel (channelId : Nat) (pin userId : String) : Except HttpError Reply := do
  let lock ← found (db.lock? channelId) ⟨400, "Channel is not locked", none⟩
  let admin := match db.channels.get channelId with
    | none => true
    | some channel => (db.member? channel.serverId userId).any fun member => member.role ≠ .member
  refuse (lock.lockedBy ≠ userId ∧ config.hashPin pin ≠ lock.pinHash ∧ admin = false)
    ⟨403, "Incorrect PIN", none⟩
  return ⟨status "unlocked", [.deleteLock channelId]⟩

def channelLockStatus (channelId : Nat) (userId : String) : Reply :=
  let lock := db.lock? channelId
  ⟨[("locked", .bool lock.isSome),
    ("locked_by", (lock.map fun lock => Json.str lock.lockedBy).getD .null),
    ("is_owner", .bool (lock.any fun lock => lock.lockedBy = userId))], []⟩

/-! ## Webhooks -/

/-- Create a webhook for a channel of the server. Its id is drawn. -/
def createWebhook (serverId : String) (channelId : Nat) (name userId id : String) :
    Except HttpError Reply := do
  let _ ← requireServerAdmin db serverId userId
  let channel ← found (channelIn db serverId channelId)
    ⟨404, "Channel not found in this server", none⟩
  return ⟨[("id", .str id), ("server_id", .str serverId), ("channel_id", .num channelId),
    ("channel_name", .str channel.name), ("name", .str name), ("created_by", .str userId),
    ("enabled", .bool true)], [.addWebhook { id, serverId, channelId, name, createdBy := userId }]⟩

/-- A webhook of the server. -/
def webhookIn (serverId webhookId : String) : Option Webhook :=
  (db.webhook? webhookId).filter fun webhook => webhook.serverId = serverId

def deleteWebhook (serverId webhookId userId : String) : Except HttpError Reply := do
  let _ ← requireServerAdmin db serverId userId
  let _ ← found (webhookIn db serverId webhookId) ⟨404, "Webhook not found", none⟩
  return ⟨[("ok", .bool true)], [.deleteWebhook webhookId]⟩

def toggleWebhook (serverId webhookId userId : String) : Except HttpError Reply := do
  let _ ← requireServerAdmin db serverId userId
  let webhook ← found (webhookIn db serverId webhookId) ⟨404, "Webhook not found", none⟩
  return ⟨[("id", .str webhookId), ("enabled", .bool !webhook.enabled)],
    [.setEnabled webhookId !webhook.enabled]⟩

/-- The room a message to a webhook is sent to. -/
def submitWebhookMessage (webhookId : String) (withinRateLimit : Bool) : Except HttpError String := do
  let webhook ← found (db.webhook? webhookId) ⟨404, "Webhook not found", none⟩
  refuse (webhook.enabled = false) ⟨403, "This webhook is currently disabled", none⟩
  refuse (config.botAccessToken = none) ⟨503, "Webhook delivery is not available", none⟩
  refuse (withinRateLimit = false)
    ⟨429, "Rate limit exceeded. Please wait before sending another message.", none⟩
  let channel ← found (db.channels.get webhook.channelId) ⟨500, "Webhook channel not found", none⟩
  return channel.matrixRoomId

/-! ## What they make sure of -/

section

variable {config : Config} {db : Db} {reply : Reply} {serverId userId : String} {channelId : Nat}

theorem createChannel_ok {body : ChannelCreate} {room : Option String}
    (h : createChannel config db serverId body userId room = .ok reply) :
    ∃ server, db.server? serverId = some server ∧
      ∃ channel : Channel, channel.serverId = serverId ∧ reply.writes = [.addChannel channel] := by
  simp only [createChannel, requireServerMember_bind, found_bind, refuse_bind] at h
  obtain ⟨member, -, server, there, -, h⟩ := h
  cases mount : body.mount config with
  | error e =>
    rw [mount] at h
    cases h
  | ok mounted =>
    rw [mount, ok_bind] at h
    simp only [found_bind, pure_eq_ok] at h
    obtain ⟨roomId, -, rfl⟩ := h
    exact ⟨server, there, _, rfl, rfl⟩

theorem startExtension_ok {extensionId : String} {room : Option String}
    (h : startExtension config db serverId extensionId userId room = .ok reply) :
    ∃ server, db.server? serverId = some server ∧
      ∃ channel : Channel, channel.serverId = serverId ∧ reply.writes = [.addChannel channel] := by
  simp only [startExtension, requireServerMember_bind, found_bind, pure_eq_ok] at h
  obtain ⟨member, -, server, there, extension, -, name, -, roomId, -, rfl⟩ := h
  exact ⟨server, there, _, rfl, rfl⟩

theorem deleteChannel_ok : deleteChannel db serverId channelId userId = .ok reply ↔
    ∃ channel, channelIn db serverId channelId = some channel ∧
      (∃ member, db.member? serverId userId = some member ∧
        (channel.channelType = .app ∨ member.role = .owner)) ∧
      reply = ⟨status "deleted", [.deleteChannel channelId]⟩ := by
  simp only [deleteChannel, found_bind]
  refine exists_congr fun channel => and_congr_right fun _ => ?_
  split
  · rename_i app
    simp only [requireServerMember_bind, pure_eq_ok, app, true_or, and_true, exists_and_right]
  · rename_i other
    simp only [requireServerOwner_bind, pure_eq_ok, other, false_or, ← and_assoc, exists_and_right]

theorem lockChannel_ok {pin : String} : lockChannel config db channelId pin userId = .ok reply ↔
    ∃ channel, db.channels.get channelId = some channel ∧ db.IsMember channel.serverId userId ∧
      db.lock? channelId = none ∧
      reply = ⟨status "locked", [.addLock ⟨channelId, config.hashPin pin, userId⟩]⟩ := by
  simp only [lockChannel, found_bind, refuse_bind, pure_eq_ok, not_not, Option.isSome_iff_ne_none,
    ne_eq]

theorem unlockChannel_ok {pin : String}
    (h : unlockChannel config db channelId pin userId = .ok reply) :
    reply.writes = [.deleteLock channelId] := by
  simp only [unlockChannel, found_bind, refuse_bind, pure_eq_ok] at h
  obtain ⟨lock, -, -, rfl⟩ := h
  rfl

theorem createWebhook_ok {name id : String} :
    createWebhook db serverId channelId name userId id = .ok reply ↔
    ∃ member, db.member? serverId userId = some member ∧ member.role ≠ .member ∧
      ∃ channel, channelIn db serverId channelId = some channel ∧
        reply = ⟨[("id", .str id), ("server_id", .str serverId), ("channel_id", .num channelId),
          ("channel_name", .str channel.name), ("name", .str name), ("created_by", .str userId),
          ("enabled", .bool true)],
          [.addWebhook { id, serverId, channelId, name, createdBy := userId }]⟩ := by
  simp only [createWebhook, requireServerAdmin_bind, found_bind, pure_eq_ok]

theorem deleteWebhook_ok {webhookId : String}
    (h : deleteWebhook db serverId webhookId userId = .ok reply) :
    reply.writes = [.deleteWebhook webhookId] := by
  simp only [deleteWebhook, requireServerAdmin_bind, found_bind, pure_eq_ok] at h
  obtain ⟨member, -, -, webhook, -, rfl⟩ := h
  rfl

theorem toggleWebhook_ok {webhookId : String}
    (h : toggleWebhook db serverId webhookId userId = .ok reply) :
    ∃ enabled, reply.writes = [.setEnabled webhookId enabled] := by
  simp only [toggleWebhook, requireServerAdmin_bind, found_bind, pure_eq_ok] at h
  obtain ⟨member, -, -, webhook, -, rfl⟩ := h
  exact ⟨_, rfl⟩

end

end Concorrd.Api
