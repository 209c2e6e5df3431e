import Concorrd.Api.Moderation

/-!
# The administrator's bans and the first start

An instance-wide ban is a row of the same table with the empty text as its server. The first start
seeds the lobby, owned by the bot.
-/

namespace Concorrd.Api

variable (config : Config) (db : Db) (settings : Settings)

def requireAdmin (userId : String) : Except HttpError Unit :=
  refuse (userId ∉ config.adminUserIds ∧ userId ∉ settings.adminUserIds)
    ⟨403, "Admin access required", none⟩

/-- What stands for all servers in a ban. -/
def instanceWide : String := ""

/-- Ban a user from the whole instance, unless there is some ban of that user. -/
def adminBanUser (targetUserId userId : String) : Except HttpError Reply := do
  requireAdmin config settings userId
  if ∃ ban ∈ db.bans, ban.userId = targetUserId then
    return ⟨[("status", .str "already_banned"), ("user_id", .str targetUserId)], []⟩
  else
    return ⟨[("status", .str "banned"), ("user_id", .str targetUserId)],
      [.addBan { serverId := instanceWide, userId := targetUserId, bannedBy := userId }]⟩

/-- Delete the bans of a user. -/
def adminUnbanUser (targetUserId userId : String) : Except HttpError Reply := do
  requireAdmin config settings userId
  return ⟨[], [.deleteBansOf targetUserId]⟩

/-- The channels a lobby is seeded with. -/
def channelDefs : List (String × ChannelType) :=
  [("welcome", .text), ("general", .text), ("off-topic", .text), ("introductions", .text),
    ("media-sharing", .text), ("hangout", .voice), ("music-lounge", .voice)]

/-- A channel of the lobby, with its position. -/
def seedChannel (id : String) (rooms : String → Option String)
    (entry : (String × ChannelType) × Nat) : Except HttpError Channel := do
  let roomId ← found (rooms entry.1.1) .internal
  return { serverId := id, matrixRoomId := roomId, name := entry.1.1, channelType := entry.1.2,
           position := entry.2 }

/-- Seed the lobby, once. The id is drawn, and the rooms are what the homeserver created. -/
def seedDefaultServer (instanceName id : String) (rooms : String → Option String) :
    Except HttpError (Reply × Settings) := do
  if settings.defaultServerSeeded ∨ config.botAccessToken = none then
    return (⟨[], []⟩, settings)
  else
    let server : Server :=
      { id, name := instanceName ++ " Lobby", ownerId := config.botUserId,
        visibility := .publicServer, abbreviation := some "LOB" }
    let channels ← channelDefs.zipIdx.mapM (seedChannel id rooms)
    return (⟨[], .addServer server ::
        .addMember { serverId := id, userId := config.botUserId, role := .owner } ::
          channels.map .addChannel⟩,
      { settings with defaultServerId := some id, defaultServerSeeded := true })

/-! ## What they make sure of -/

section

variable {config : Config} {db : Db} {settings : Settings} {reply : Reply}
  {targetUserId userId : String}

/-- The user administers the instance. -/
def IsAdmin (config : Config) (settings : Settings) (userId : String) : Prop :=
  userId ∈ config.adminUserIds ∨ userId ∈ settings.adminUserIds

theorem requireAdmin_bind {β : Type} {b : β} {k : Unit → Except HttpError β} :
    (requireAdmin config settings userId >>= k) = .ok b ↔
      IsAdmin config settings userId ∧ k () = .ok b := by
  rw [requireAdmin, refuse_bind, not_and_or, not_not, not_not]
  rfl

theorem adminBanUser_ok : adminBanUser config db settings targetUserId userId = .ok reply ↔
    IsAdmin config settings userId ∧
      reply = if ∃ ban ∈ db.bans, ban.userId = targetUserId then
          ⟨[("status", .str "already_banned"), ("user_id", .str targetUserId)], []⟩
        else ⟨[("status", .str "banned"), ("user_id", .str targetUserId)],
          [.addBan { serverId := instanceWide, userId := targetUserId, bannedBy := userId }]⟩ := by
  simp only [adminBanUser, requireAdmin_bind]
  refine and_congr_right fun _ => ?_
  split <;> exact pure_eq_ok

theorem adminUnbanUser_ok : adminUnbanUser config settings targetUserId userId = .ok reply ↔
    IsAdmin config settings userId ∧ reply = ⟨[], [.deleteBansOf targetUserId]⟩ := by
  simp only [adminUnbanUser, requireAdmin_bind, pure_eq_ok]

/-- What a loop that may fail has made of a list. -/
theorem forall_of_mapM {α β : Type} {f : α → Except HttpError β} {P : β → Prop}
    (each : ∀ a b, f a = .ok b → P b) {l : List α} {bs : List β} (h : l.mapM f = .ok bs) :
    ∀ b ∈ bs, P b := by
  induction l generalizing bs with
  | nil =>
    cases h
    rintro b ⟨⟩
  | cons a l ih =>
    rw [List.mapM_cons] at h
    cases first : f a with
    | error e =>
      rw [first] at h
      cases h
    | ok b =>
      rw [first, ok_bind] at h
      cases rest : l.mapM f with
      | error e =>
        rw [rest] at h
        cases h
      | ok bs' =>
        rw [rest] at h
        cases h
        exact List.forall_mem_cons.mpr ⟨each a b first, ih rest⟩

/-- A server with the bot as its owner and some channels, or nothing when the lobby is there. -/
theorem seedDefaultServer_ok {instanceName id : String} {rooms : String → Option String}
    {done : Reply × Settings}
    (h : seedDefaultServer config settings instanceName id rooms = .ok done) :
    done.1.writes = [] ∨ ∃ (server : Server) (channels : List Channel), server.id = id ∧
      server.ownerId = config.botUserId ∧ (∀ channel ∈ channels, channel.serverId = id) ∧
      done.1.writes = .addServer server ::
        .addMember { serverId := id, userId := config.botUserId, role := .owner } ::
          channels.map .addChannel := by
  unfold seedDefaultServer at h
  split at h
  · cases h
    exact .inl rfl
  · cases made : channelDefs.zipIdx.mapM (seedChannel id rooms) with
    | error e =>
      rw [made] at h
      cases h
    | ok channels =>
      rw [made] at h
      cases h
      refine .inr ⟨_, channels, rfl, rfl, forall_of_mapM (fun entry channel made => ?_) made, rfl⟩
      simp only [seedChannel, found_bind, pure_eq_ok] at made
      obtain ⟨roomId, -, rfl⟩ := made
      rfl

end

end Concorrd.Api
