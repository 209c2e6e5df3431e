import Mathlib.Data.List.Dedup
import Concorrd.Api.Invites

/-!
# Votes, kicks and what they escalate to

A vote keeps its voters in two texts of user ids separated by commas. A kick is only recorded; when
as many of them fall into the window of the server as its limit says, the user is banned.
-/

namespace Concorrd.Api

variable (db : Db)

/-- Whether a member may do something to others. -/
def canModerate (member : ServerMember) (permitted : ServerMember → Bool) : Bool :=
  member.role ≠ .member || permitted member

structure UpdatePermissions where
  canKick : Option Bool := none
  canBan : Option Bool := none

def updateMemberPermissions (serverId memberUserId : String) (body : UpdatePermissions)
    (userId : String) : Except HttpError Reply := do
  refuse ((db.member? serverId userId).all fun caller => caller.role = .member)
    ⟨403, "Only owner/admin can modify permissions", none⟩
  let target ← found (db.member? serverId memberUserId) ⟨404, "Member not found", none⟩
  return ⟨status "updated", [.setPermissions serverId memberUserId
    (body.canKick.getD target.canKick) (body.canBan.getD target.canBan)]⟩

/-! ## Votes -/

/-- The ids in a text, each once. -/
def voters (text : String) : List String :=
  (((text.toList.splitOn ',').map String.ofList).filter fun voter => voter ≠ "").dedup

def joinVoters (ids : List String) : String :=
  String.ofList ([','].intercalate (ids.map String.toList))

/-- The order in which a set hands over its elements. -/
structure SetOrder where
  list : List String → List String
  perm : ∀ ids, (list ids).Perm ids

structure VoteKickStart where
  channelId : String
  targetUserId : UserIdField
  totalEligible : Nat := 0

/-- Whether a vote against the user is under way. -/
def IsVotedOn (serverId targetUserId : String) : Prop :=
  ∃ vote ∈ db.voteKicks, vote.val.serverId = serverId ∧ vote.val.targetUserId = targetUserId ∧
    vote.val.status = .active

instance (serverId targetUserId : String) : Decidable (IsVotedOn db serverId targetUserId) :=
  inferInstanceAs (Decidable (∃ vote ∈ db.voteKicks, _))

/-- Start a vote. Who starts it votes for it. -/
def startVoteKick (serverId : String) (body : VoteKickStart) (userId : String) :
    Except HttpError Reply := do
  refuse (¬db.IsMember serverId userId) ⟨403, "Not a member", none⟩
  refuse (body.targetUserId.text = userId) ⟨400, "Cannot vote-kick yourself", none⟩
  refuse (¬db.IsMember serverId body.targetUserId.text)
    ⟨404, "Target user is not a member of this server", none⟩
  refuse (IsVotedOn db serverId body.targetUserId.text)
    ⟨400, "A vote is already in progress for this user", none⟩
  let vote : VoteKick :=
    { serverId, channelId := body.channelId, targetUserId := body.targetUserId.text,
      initiatedBy := userId, votesYes := userId, totalEligible := body.totalEligible }
  return ⟨[("vote_id", .num db.voteKicks.nextId), ("status", .str "active")], [.addVoteKick vote]⟩

/-- Who has voted yes and who no, with one more vote. -/
def VoteKick.tally (vote : VoteKick) (userId : String) (yes : Bool) : List String × List String :=
  (if yes then userId :: voters vote.votesYes else voters vote.votesYes,
    if yes then voters vote.votesNo else userId :: voters vote.votesNo)

/-- One user votes on a vote. A single no fails it, and enough yes pass it. -/
def VoteKick.cast (vote : VoteKick) (order : SetOrder) (userId : String) (yes : Bool) :
    Except HttpError VoteKick := do
  refuse (vote.status ≠ .active) ⟨404, "Vote not found or already completed", none⟩
  refuse (vote.targetUserId = userId) ⟨400, "Cannot vote on your own kick", none⟩
  refuse (userId ∈ voters vote.votesYes ∨ userId ∈ voters vote.votesNo) ⟨400, "Already voted", none⟩
  let (yesVoters, noVoters) := vote.tally userId yes
  let status := if noVoters ≠ [] then VoteStatus.failed
    else if 0 < vote.totalEligible ∧ vote.totalEligible ≤ yesVoters.length then .passed
    else vote.status
  return { vote with
    votesYes := joinVoters (order.list yesVoters)
    votesNo := joinVoters (order.list noVoters)
    status }

def VoteStatus.text : VoteStatus → String
  | .active => "active"
  | .passed => "passed"
  | .failed => "failed"
  | .executed => "executed"

def castVoteKick (voteId : Nat) (yes : Bool) (userId : String) (order : SetOrder) :
    Except HttpError Reply := do
  let vote ← found (db.voteKicks.get voteId) ⟨404, "Vote not found or already completed", none⟩
  let after ← vote.cast order userId yes
  let (yesVoters, noVoters) := vote.tally userId yes
  return ⟨[("status", .str after.status.text), ("yes_count", .num yesVoters.length),
    ("no_count", .num noVoters.length)], [.setVoteKick voteId after]⟩

def VoteKick.setEligible (vote : VoteKick) (count : Nat) : Except HttpError VoteKick := do
  refuse (vote.status ≠ .active) ⟨404, "Vote not found", none⟩
  return { vote with totalEligible := count }

/-- Set the number of eligible voters. Any user may. -/
def setVoteEligible (voteId count : Nat) : Except HttpError Reply := do
  let vote ← found (db.voteKicks.get voteId) ⟨404, "Vote not found", none⟩
  let vote ← vote.setEligible count
  return ⟨status "ok", [.setVoteKick voteId vote]⟩

/-! ## Kicks -/

def BanMode.text : BanMode → String
  | .soft => "soft"
  | .harsh => "harsh"

/-- The kicks of a user that fall into the window of the server. -/
def recentKicks (server : Server) (targetUserId : String) (now : Nat) : Nat :=
  db.kickRecords.countP fun record => record.serverId = server.id ∧ record.userId = targetUserId ∧
    now ≤ record.createdAt + minutes server.kickWindowMinutes

/-- The kick about to be recorded is one too many. -/
def Escalates (server : Server) (targetUserId : String) (now : Nat) : Prop :=
  server.kickLimit ≤ recentKicks db server targetUserId now + 1

instance (server : Server) (targetUserId : String) (now : Nat) :
    Decidable (Escalates db server targetUserId now) :=
  inferInstanceAs (Decidable (_ ≤ _))

/-- The ban a kick escalates to, unless the user is banned already. -/
def escalation (server : Server) (targetUserId bannedBy : String) (now : Nat) : List Write :=
  if Escalates db server targetUserId now ∧ ¬db.IsBanned server.id targetUserId then
    [.addBan { serverId := server.id, userId := targetUserId, bannedBy }]
  else []

/-- What the client is told of a kick. -/
def kickBody (server : Server) (targetUserId : String) (now : Nat) : List (String × Json) :=
  let count := ("kick_count", Json.num (recentKicks db server targetUserId now + 1))
  if Escalates db server targetUserId now then
    [("status", .str "banned"), count, ("ban_mode", .str server.banMode.text),
      ("show_harsh_message", .bool true)]
  else [("status", .str "kicked"), count]

/-- Kick a user. The user stays a member. -/
def kickUser (serverId targetUserId userId : String) (now : Nat) : Except HttpError Reply := do
  refuse ((db.member? serverId userId).all fun caller => canModerate caller ServerMember.canKick = false)
    ⟨403, "No permission to kick", none⟩
  refuse (¬db.IsMember serverId targetUserId)
    ⟨404, "Target user is not a member of this server", none⟩
  let server ← found (db.server? serverId) ⟨404, "Server not found", none⟩
  return ⟨kickBody db server targetUserId now,
    .addKickRecord { serverId, userId := targetUserId, kickedBy := userId, createdAt := now } ::
      escalation db server targetUserId userId now⟩

/-- Execute a passed vote. Any user may. -/
def executeVoteKick (voteId : Nat) (now : Nat) : Except HttpError Reply := do
  let vote ← found (db.voteKicks.get voteId) ⟨404, "Vote not found", none⟩
  if vote.status = .executed then
    return ⟨status "already_executed", []⟩
  else
    refuse (vote.status ≠ .passed) ⟨400, "Vote has not passed", none⟩
    let server ← found (db.server? vote.serverId) ⟨404, "Server not found", none⟩
    let record : KickRecord :=
      { serverId := vote.serverId, userId := vote.targetUserId, kickedBy := "vote", createdAt := now
        reason := some ("Vote-kick by room (vote #" ++ toString voteId ++ ")") }
    return ⟨kickBody db server vote.targetUserId now ++ [("kick_limit", .num server.kickLimit)],
      .setVoteKick voteId { vote with status := .executed } :: .addKickRecord record ::
        escalation db server vote.targetUserId "vote" now⟩

structure BanSettings where
  kickLimit : Option { n : Nat // 1 ≤ n ∧ n ≤ 100 } := none
  kickWindowMinutes : Option { n : Nat // 1 ≤ n ∧ n ≤ 1440 } := none
  banMode : Option BanMode := none

def updateBanSettings (serverId : String) (body : BanSettings) (userId : String) :
    Except HttpError Reply := do
  refuse ((db.member? serverId userId).all fun member => member.role = .member)
    ⟨403, "Only owner/admin can change these settings", none⟩
  let server ← found (db.server? serverId) ⟨404, "Server not found", none⟩
  let kickLimit := (body.kickLimit.map Subtype.val).getD server.kickLimit
  let kickWindowMinutes := (body.kickWindowMinutes.map Subtype.val).getD server.kickWindowMinutes
  let banMode := body.banMode.getD server.banMode
  return ⟨[("kick_limit", .num kickLimit), ("kick_window_minutes", .num kickWindowMinutes),
    ("ban_mode", .str banMode.text)],
    [.setBanSettings serverId kickLimit kickWindowMinutes banMode]⟩

/-! ## What they make sure of -/

section

variable {db : Db} {reply : Reply} {serverId targetUserId userId : String} {voteId now : Nat}

theorem updateMemberPermissions_ok {memberUserId : String} {body : UpdatePermissions}
    (h : updateMemberPermissions db serverId memberUserId body userId = .ok reply) :
    ∃ canKick canBan, reply.writes = [.setPermissions serverId memberUserId canKick canBan] := by
  simp only [updateMemberPermissions, refuse_bind, found_bind, pure_eq_ok] at h
  obtain ⟨-, target, -, rfl⟩ := h
  exact ⟨_, _, rfl⟩

theorem startVoteKick_ok {body : VoteKickStart} :
    startVoteKick db serverId body userId = .ok reply ↔
    db.IsMember serverId userId ∧ body.targetUserId.text ≠ userId ∧
      db.IsMember serverId body.targetUserId.text ∧
      ¬IsVotedOn db serverId body.targetUserId.text ∧
      reply = ⟨[("vote_id", .num db.voteKicks.nextId), ("status", .str "active")],
        [.addVoteKick
          { serverId, channelId := body.channelId, targetUserId := body.targetUserId.text,
            initiatedBy := userId, votesYes := userId, totalEligible := body.totalEligible }]⟩ := by
  simp only [startVoteKick, refuse_bind, pure_eq_ok, not_not, ne_eq]

theorem castVoteKick_ok {yes : Bool} {order : SetOrder}
    (h : castVoteKick db voteId yes userId order = .ok reply) :
    ∃ vote after, db.voteKicks.get voteId = some vote ∧ vote.cast order userId yes = .ok after ∧
      reply.writes = [.setVoteKick voteId after] := by
  simp only [castVoteKick, found_bind] at h
  obtain ⟨vote, there, h⟩ := h
  cases cast : vote.cast order userId yes with
  | error e =>
    rw [cast] at h
    cases h
  | ok after =>
    rw [cast] at h
    cases h
    exact ⟨vote, after, there, cast, rfl⟩

theorem setVoteEligible_ok {count : Nat} (h : setVoteEligible db voteId count = .ok reply) :
    ∃ vote, db.voteKicks.get voteId = some vote ∧ vote.status = .active ∧
      reply.writes = [.setVoteKick voteId { vote with totalEligible := count }] := by
  simp only [setVoteEligible, VoteKick.setEligible, found_bind, bind_assoc, refuse_bind, pure_bind,
    pure_eq_ok, not_not, ne_eq] at h
  obtain ⟨vote, there, active, rfl⟩ := h
  exact ⟨vote, there, active, rfl⟩

/-- The caller of a kick may kick, and the target is a member. -/
def MayKick (db : Db) (serverId targetUserId userId : String) : Prop :=
  (∃ caller, db.member? serverId userId = some caller ∧
    canModerate caller ServerMember.canKick = true) ∧ db.IsMember serverId targetUserId

theorem kickUser_ok : kickUser db serverId targetUserId userId now = .ok reply ↔
    MayKick db serverId targetUserId userId ∧ ∃ server, db.server? serverId = some server ∧
      reply = ⟨kickBody db server targetUserId now,
        .addKickRecord { serverId, userId := targetUserId, kickedBy := userId, createdAt := now } ::
          escalation db server targetUserId userId now⟩ := by
  have caller : ¬((db.member? serverId userId).all fun caller =>
      decide (canModerate caller ServerMember.canKick = false)) = true ↔
      ∃ caller, db.member? serverId userId = some caller ∧
        canModerate caller ServerMember.canKick = true := by
    cases db.member? serverId userId <;> simp
  simp only [kickUser, refuse_bind, found_bind, pure_eq_ok, not_not, MayKick, and_assoc, caller]

theorem executeVoteKick_ok : executeVoteKick db voteId now = .ok reply ↔
    ∃ vote, db.voteKicks.get voteId = some vote ∧
      (vote.status = .executed ∧ reply = ⟨status "already_executed", []⟩ ∨
        vote.status = .passed ∧ ∃ server, db.server? vote.serverId = some server ∧
          reply = ⟨kickBody db server vote.targetUserId now ++
              [("kick_limit", .num server.kickLimit)],
            .setVoteKick voteId { vote with status := .executed } ::
              .addKickRecord
                { serverId := vote.serverId, userId := vote.targetUserId, kickedBy := "vote",
                  createdAt := now,
                  reason := some ("Vote-kick by room (vote #" ++ toString voteId ++ ")") } ::
              escalation db server vote.targetUserId "vote" now⟩) := by
  simp only [executeVoteKick, found_bind]
  refine exists_congr fun vote => and_congr_right fun _ => ?_
  split
  · rename_i executed
    simp only [pure_eq_ok, executed, true_and, reduceCtorEq, false_and, or_false]
  · rename_i other
    simp only [refuse_bind, found_bind, pure_eq_ok, other, false_and, false_or, not_not, ne_eq]

theorem updateBanSettings_ok {body : BanSettings}
    (h : updateBanSettings db serverId body userId = .ok reply) :
    ∃ kickLimit kickWindowMinutes banMode,
      reply.writes = [.setBanSettings serverId kickLimit kickWindowMinutes banMode] := by
  simp only [updateBanSettings, refuse_bind, found_bind, pure_eq_ok] at h
  obtain ⟨-, server, -, rfl⟩ := h
  exact ⟨_, _, _, rfl⟩

end

end Concorrd.Api
