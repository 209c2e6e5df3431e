import Concorrd.Api.Roster

/-!
# What a request does to the roster

Each request changes the roster in one way or not at all, and only after its route has made sure of
something (`Moves`, `step_moves`).
-/

namespace Concorrd.Api

open Machine

/-- The changes of the roster that statements make. -/
def rosterChanges (ws : List Write) : List RosterChange := ws.filterMap Write.change

/-- What a request does to the roster, and what its route has made sure of before. -/
inductive Moves (p : Process) (s : Instance) : Request → List RosterChange → Prop where
  | none (request : Request) : Moves p s request []
  | seed {instanceName : String} {id : DrawnId} {rooms : String → Option String} :
    Moves p s (.seedDefaultServer instanceName id rooms)
      [.establish id.text p.botUserId, .enroll id.text p.botUserId .owner]
  | create {body : ServerCreate} {userId : String} {id : DrawnId} {room : Option String} :
    Moves p s (.createServer body userId id room)
      [.establish id.text userId, .enroll id.text userId .owner]
  | dissolve {serverId userId : String} :
    Moves p s (.deleteServer serverId userId) [.dissolve serverId]
  | lobby {userId lobby : String} {joins : String → Bool} (set : s.settings.lobby? = some lobby)
    (joined : (s.db.channelsOf lobby).all fun channel => joins channel.val.matrixRoomId) :
    Moves p s (.listServers userId joins) [.enroll lobby userId .member]
  | join {serverId userId : String} {server : Server} (there : s.db.server? serverId = some server)
    (isPublic : server.visibility = .publicServer) (allowed : ¬s.db.IsBanned serverId userId) :
    Moves p s (.joinServer serverId userId) [.enroll serverId userId .member]
  | redeem {token userId : String} {now : Nat} {invite : Row InviteToken}
    (valid : (s.db.inviteByToken? token).filter (fun invite => invite.val.IsValid now) = some invite)
    (allowed : ¬s.db.IsBanned invite.val.serverId userId) :
    Moves p s (.redeemInvite token userId now) [.enroll invite.val.serverId userId .member]
  | accept {inviteId : Nat} {userId : String} {invite : DirectInvite}
    (sent : s.db.directInvites.get inviteId = some invite) (own : invite.inviteeId = userId)
    (pending : invite.status = .pending) :
    Moves p s (.respondToInvite inviteId true userId) [.enroll invite.serverId userId .member]
  | register {body : RegisterRequest} {withinRateLimit : Bool} {now : Nat} {userId : String}
    (registers : Registers p.toConfig s.db s.settings body withinRateLimit now) :
    Moves p s (.registerUser body withinRateLimit now (.ok userId))
      (rosterChanges (body.joins p.toConfig s.db s.settings now userId))
  | leave {serverId userId : String} {member : ServerMember}
    (there : s.db.member? serverId userId = some member) (spared : member.role ≠ .owner) :
    Moves p s (.leaveServer serverId userId) [.drop serverId userId]
  | kick {serverId memberUserId userId : String} {member : ServerMember}
    (there : s.db.member? serverId memberUserId = some member) (spared : member.role ≠ .owner) :
    Moves p s (.kickMember serverId memberUserId userId) [.drop serverId memberUserId]
  | setRole {serverId memberUserId userId : String} {body : RoleUpdate} {member : ServerMember}
    (there : s.db.member? serverId memberUserId = some member) (spared : member.role ≠ .owner) :
    Moves p s (.updateMemberRole serverId memberUserId body userId)
      [.setRole serverId memberUserId body.role]
  | ban {serverId userId : String} {body : UserIdField} {bans : String → Bool} {server : Server}
    (there : s.db.server? serverId = some server) (spared : body.text ≠ server.ownerId) :
    Moves p s (.banUser serverId body userId bans)
      [.ban serverId body.text, .drop serverId body.text]
  | unban {serverId banUserId userId : String} :
    Moves p s (.unbanUser serverId banUserId userId) [.unban serverId banUserId]
  | escalate {serverId targetUserId userId : String} {now : Nat} {server : Server}
    (there : s.db.server? serverId = some server) (mayKick : MayKick s.db serverId targetUserId userId)
    (oneTooMany : Escalates s.db server targetUserId now) :
    Moves p s (.kickUser serverId targetUserId userId now) [.ban serverId targetUserId]
  | execute {voteId now : Nat} {vote : VoteKick} {server : Server}
    (there : s.db.voteKicks.get voteId = some vote) (passed : vote.status = .passed)
    (server? : s.db.server? vote.serverId = some server)
    (oneTooMany : Escalates s.db server vote.targetUserId now) :
    Moves p s (.executeVoteKick voteId now) [.ban vote.serverId vote.targetUserId]
  | adminBan {targetUserId userId : String} :
    Moves p s (.adminBanUser targetUserId userId) [.ban instanceWide targetUserId]
  | pardon {targetUserId userId : String} :
    Moves p s (.adminUnbanUser targetUserId userId) [.pardon targetUserId]
  | remint {serverId userId : String} {body : RemintRequest} {id : DrawnId} {tokens : Nat → String}
    {server : Server} (there : s.db.server? serverId = some server) (own : server.ownerId = userId)
    (other : body.newOwnerUserId.text ≠ server.ownerId) :
    Moves p s (.remintOwnership serverId body userId id tokens)
      (.establish id.text body.newOwnerUserId.text ::
        .enroll id.text body.newOwnerUserId.text .owner ::
        (rehydrateMembers id.text [body.newOwnerUserId.text] (s.db.snapshot server).members).map
          fun member => .enroll member.serverId member.userId member.role)

section

variable {p : Process} {s : Instance}

theorem map_eq_ok {α β : Type} {f : α → β} {x : Except HttpError α} {b : β} :
    (f <$> x) = .ok b ↔ ∃ a, x = .ok a ∧ f a = b := by
  cases x with
  | error e =>
    constructor
    · intro h
      cases h
    · rintro ⟨a, h, -⟩
      cases h
  | ok a =>
    constructor
    · intro h
      cases h
      exact ⟨a, rfl, rfl⟩
    · rintro ⟨a', h, rfl⟩
      cases h
      rfl

theorem rosterChanges_append (ws ws' : List Write) :
    rosterChanges (ws ++ ws') = rosterChanges ws ++ rosterChanges ws' :=
  List.filterMap_append

theorem rosterChanges_countUse (invite : Option (Row InviteToken)) :
    rosterChanges ((invite.map countUse).getD []) = [] := by
  cases invite with
  | none => rfl
  | some invite =>
    show rosterChanges (countUse invite) = []
    unfold countUse
    split <;> rfl

/-- A kick bans the user or leaves the roster alone. -/
theorem escalation_moves {request : Request} {server : Server} {userId bannedBy : String} {now : Nat}
    (oneTooMany : Escalates s.db server userId now → Moves p s request [.ban server.id userId]) :
    Moves p s request (rosterChanges (escalation s.db server userId bannedBy now)) := by
  unfold escalation
  split
  · rename_i h
    exact oneTooMany h.1
  · exact .none _

theorem server?_id {db : Db} {serverId : String} {server : Server}
    (h : db.server? serverId = some server) : server.id = serverId := by
  have same := List.find?_some h
  exact of_decide_eq_true same

theorem rosterChanges_addChannel (channels : List Channel) :
    rosterChanges (channels.map .addChannel) = [] :=
  List.filterMap_eq_nil_iff.mpr fun w mem => by
    obtain ⟨channel, -, rfl⟩ := List.mem_map.mp mem
    rfl

theorem rosterChanges_addMember (members : List ServerMember) :
    rosterChanges (members.map .addMember) =
      members.map fun member => .enroll member.serverId member.userId member.role := by
  rw [rosterChanges, List.filterMap_map]
  exact congrFun List.filterMap_eq_map' members

theorem rosterChanges_reminted (db : Db) (encode : Snapshot → String) (server : Server)
    (body : RemintRequest) (id : String) (tokens : Nat → String) :
    rosterChanges (reminted db encode server body id tokens).2 =
      .establish id body.newOwnerUserId.text :: .enroll id body.newOwnerUserId.text .owner ::
        (rehydrateMembers id [body.newOwnerUserId.text] (db.snapshot server).members).map
          fun member => .enroll member.serverId member.userId member.role := by
  unfold reminted
  rw [rosterChanges_append, rosterChanges_append, rosterChanges_addMember]
  show .establish id body.newOwnerUserId.text :: rosterChanges (List.map .addChannel _) ++ _ ++ [] = _
  rw [rosterChanges_addChannel, List.append_nil]
  rfl

/-- What a route that gets to its end does to the roster. -/
theorem handle_moves {request : Request} {done : Reply × Settings}
    (h : s.handle p request = .ok done) : Moves p s request (rosterChanges done.1.writes) := by
  cases request with
  | seedDefaultServer instanceName id rooms =>
    rcases seedDefaultServer_ok h with none | ⟨server, channels, same, own, -, writes⟩
    · rw [none]
      exact .none _
    · rw [writes]
      show Moves p s _ (.establish server.id server.ownerId :: .enroll id.text p.botUserId .owner ::
        rosterChanges (channels.map .addChannel))
      rw [rosterChanges_addChannel, same, own]
      exact .seed
  | listServers userId joins =>
    obtain ⟨reply, ran, rfl⟩ := map_eq_ok.mp h
    cases ran
    show Moves p s _ (rosterChanges (lobbyJoin s.db s.settings userId joins))
    rcases lobbyJoin_eq s.settings userId joins with none | ⟨lobby, set, -, joined, one⟩
    · rw [none]
      exact .none _
    · rw [one]
      exact .lobby set joined
  | createServer body userId id room =>
    obtain ⟨reply, ran, rfl⟩ := map_eq_ok.mp h
    obtain ⟨roomId, -, rfl⟩ := createServer_ok.mp ran
    exact .create
  | deleteServer serverId userId =>
    obtain ⟨reply, ran, rfl⟩ := map_eq_ok.mp h
    obtain ⟨member, -, -, server, -, rfl⟩ := deleteServer_ok.mp ran
    exact .dissolve
  | leaveServer serverId userId =>
    obtain ⟨reply, ran, rfl⟩ := map_eq_ok.mp h
    obtain ⟨member, there, spared, rfl⟩ := leaveServer_ok.mp ran
    exact .leave there spared
  | joinServer serverId userId =>
    obtain ⟨reply, ran, rfl⟩ := map_eq_ok.mp h
    obtain ⟨server, there, isPublic, allowed, -, rfl⟩ := joinServer_ok.mp ran
    exact .join there isPublic allowed
  | updateMemberRole serverId memberUserId body userId =>
    obtain ⟨reply, ran, rfl⟩ := map_eq_ok.mp h
    obtain ⟨caller, -, -, member, there, spared, rfl⟩ := updateMemberRole_ok.mp ran
    exact .setRole there spared
  | kickMember serverId memberUserId userId =>
    obtain ⟨reply, ran, rfl⟩ := map_eq_ok.mp h
    obtain ⟨caller, -, -, member, there, spared, rfl⟩ := kickMember_ok.mp ran
    exact .kick there spared
  | banUser serverId body userId bans =>
    obtain ⟨reply, ran, rfl⟩ := map_eq_ok.mp h
    obtain ⟨caller, -, -, server, there, spared, -, -, rfl⟩ := banUser_ok.mp ran
    exact .ban there spared
  | unbanUser serverId banUserId userId =>
    obtain ⟨reply, ran, rfl⟩ := map_eq_ok.mp h
    obtain ⟨caller, -, -, -, rfl⟩ := unbanUser_ok.mp ran
    exact .unban
  | createChannel serverId body userId room =>
    obtain ⟨reply, ran, rfl⟩ := map_eq_ok.mp h
    obtain ⟨server, -, channel, -, writes⟩ := createChannel_ok ran
    rw [writes]
    exact .none _
  | startExtension serverId extensionId userId room =>
    obtain ⟨reply, ran, rfl⟩ := map_eq_ok.mp h
    obtain ⟨server, -, channel, -, writes⟩ := startExtension_ok ran
    rw [writes]
    exact .none _
  | deleteChannel serverId channelId userId =>
    obtain ⟨reply, ran, rfl⟩ := map_eq_ok.mp h
    obtain ⟨channel, -, -, rfl⟩ := deleteChannel_ok.mp ran
    exact .none _
  | lockChannel channelId pin userId =>
    obtain ⟨reply, ran, rfl⟩ := map_eq_ok.mp h
    obtain ⟨channel, -, -, -, rfl⟩ := lockChannel_ok.mp ran
    exact .none _
  | unlockChannel channelId pin userId =>
    obtain ⟨reply, ran, rfl⟩ := map_eq_ok.mp h
    rw [unlockChannel_ok ran]
    exact .none _
  | createWebhook serverId channelId name userId id =>
    obtain ⟨reply, ran, rfl⟩ := map_eq_ok.mp h
    obtain ⟨member, -, -, channel, -, rfl⟩ := createWebhook_ok.mp ran
    exact .none _
  | deleteWebhook serverId webhookId userId =>
    obtain ⟨reply, ran, rfl⟩ := map_eq_ok.mp h
    rw [deleteWebhook_ok ran]
    exact .none _
  | toggleWebhook serverId webhookId userId =>
    obtain ⟨reply, ran, rfl⟩ := map_eq_ok.mp h
    obtain ⟨enabled, writes⟩ := toggleWebhook_ok ran
    rw [writes]
    exact .none _
  | createInvite body userId token now =>
    obtain ⟨reply, ran, rfl⟩ := map_eq_ok.mp h
    obtain ⟨server, -, invite, -, writes⟩ := createInvite_ok ran
    rw [writes]
    exact .none _
  | revokeInvite inviteId userId =>
    obtain ⟨reply, ran, rfl⟩ := map_eq_ok.mp h
    rw [revokeInvite_ok ran]
    exact .none _
  | redeemInvite token userId now =>
    obtain ⟨reply, ran, rfl⟩ := map_eq_ok.mp h
    obtain ⟨invite, valid, allowed, rfl⟩ := redeemInvite_ok.mp ran
    split
    · exact .none _
    · show Moves p s _ (.enroll invite.val.serverId userId .member :: rosterChanges (countUse invite))
      rw [show rosterChanges (countUse invite) = [] from rosterChanges_countUse (some invite)]
      exact .redeem valid allowed
  | sendDirectInvite serverId inviteeId userId =>
    obtain ⟨reply, ran, rfl⟩ := map_eq_ok.mp h
    obtain ⟨member, -, -, -, -, -, rfl⟩ := sendDirectInvite_ok.mp ran
    exact .none _
  | respondToInvite inviteId accept userId =>
    obtain ⟨reply, ran, rfl⟩ := map_eq_ok.mp h
    obtain ⟨invite, sent, own, pending, writes⟩ := respondToInvite_ok ran
    rw [writes]
    cases accept with
    | false => exact .none _
    | true => exact .accept sent own pending
  | registerUser body withinRateLimit now matrix =>
    obtain ⟨registers, userId, rfl, rfl⟩ := registerUser_ok.mp h
    show Moves p s _ (rosterChanges (((body.invite? s.db now).map countUse).getD [] ++
      body.joins p.toConfig s.db s.settings now userId))
    rw [rosterChanges_append, rosterChanges_countUse, List.nil_append]
    exact .register registers
  | updateMemberPermissions serverId memberUserId body userId =>
    obtain ⟨reply, ran, rfl⟩ := map_eq_ok.mp h
    obtain ⟨canKick, canBan, writes⟩ := updateMemberPermissions_ok ran
    rw [writes]
    exact .none _
  | startVoteKick serverId body userId =>
    obtain ⟨reply, ran, rfl⟩ := map_eq_ok.mp h
    obtain ⟨-, -, -, -, rfl⟩ := startVoteKick_ok.mp ran
    exact .none _
  | castVoteKick voteId yes userId order =>
    obtain ⟨reply, ran, rfl⟩ := map_eq_ok.mp h
    obtain ⟨vote, after, -, -, writes⟩ := castVoteKick_ok ran
    rw [writes]
    exact .none _
  | setVoteEligible voteId count =>
    obtain ⟨reply, ran, rfl⟩ := map_eq_ok.mp h
    obtain ⟨vote, -, -, writes⟩ := setVoteEligible_ok ran
    rw [writes]
    exact .none _
  | kickUser serverId targetUserId userId now =>
    obtain ⟨reply, ran, rfl⟩ := map_eq_ok.mp h
    obtain ⟨mayKick, server, there, rfl⟩ := kickUser_ok.mp ran
    refine escalation_moves fun oneTooMany => ?_
    rw [server?_id there]
    exact .escalate there mayKick oneTooMany
  | executeVoteKick voteId now =>
    obtain ⟨reply, ran, rfl⟩ := map_eq_ok.mp h
    obtain ⟨vote, there, ⟨-, rfl⟩ | ⟨passed, server, server?, rfl⟩⟩ := executeVoteKick_ok.mp ran
    · exact .none _
    · refine escalation_moves fun oneTooMany => ?_
      rw [server?_id server?]
      exact .execute there passed server? oneTooMany
  | updateBanSettings serverId body userId =>
    obtain ⟨reply, ran, rfl⟩ := map_eq_ok.mp h
    obtain ⟨kickLimit, kickWindowMinutes, banMode, writes⟩ := updateBanSettings_ok ran
    rw [writes]
    exact .none _
  | adminBanUser targetUserId userId =>
    obtain ⟨reply, ran, rfl⟩ := map_eq_ok.mp h
    obtain ⟨-, rfl⟩ := adminBanUser_ok.mp ran
    split
    · exact .none _
    · exact .adminBan
  | adminUnbanUser targetUserId userId =>
    obtain ⟨reply, ran, rfl⟩ := map_eq_ok.mp h
    obtain ⟨-, rfl⟩ := adminUnbanUser_ok.mp ran
    exact .pardon
  | remintOwnership serverId body userId id tokens =>
    obtain ⟨done, ran, rfl⟩ := map_eq_ok.mp h
    obtain ⟨server, there, own, other, -, rfl⟩ := remintOwnership_ok.mp ran
    show Moves p s _ (rosterChanges (reminted s.db p.encode server body id.text tokens).2)
    rw [rosterChanges_reminted]
    exact .remint there own other

/-- A request moves the roster in one of these ways, and the constraints let each change through. -/
theorem step_moves (request : Request) : ∃ changes, Moves p s request changes ∧
    Along Roster.change Roster.Admissible s.db.roster changes ∧
    (s.step p request).db.roster = run Roster.change s.db.roster changes := by
  unfold Instance.step
  cases ran : s.handle p request with
  | error e => exact ⟨[], .none _, trivial, rfl⟩
  | ok done =>
    cases committed : s.db.commit done.1.writes with
    | none => exact ⟨[], .none _, trivial, by simp only [committed]; rfl⟩
    | some db =>
      obtain ⟨admissible, after⟩ := Db.roster_commit committed
      exact ⟨_, handle_moves ran, admissible, by simp only [committed]; exact after⟩

end

/-- A route that gets to its end changes the roster when the constraints let it. -/
theorem roster_step {p : Process} {s : Instance} {request : Request} {done : Reply × Settings}
    (ran : s.handle p request = .ok done) (free : ∀ w ∈ done.1.writes, w.Unconstrained)
    (admissible : Along Roster.change Roster.Admissible s.db.roster (rosterChanges done.1.writes)) :
    (s.step p request).db.roster =
      run Roster.change s.db.roster (rosterChanges done.1.writes) := by
  obtain ⟨db, committed⟩ := Db.commit_of_admissible free admissible
  simp only [Instance.step, ran, committed]
  exact (Db.roster_commit committed).2

/-! ## The memberships of a new account -/

section

variable {config : Config} {db : Db} {settings : Settings} {body : RegisterRequest} {now : Nat}
  {userId lobby serverId user : String} {role : Role} {c : RosterChange}

/-- The change joins an account, or passes the lobby on. -/
def RosterChange.Joins : RosterChange → Prop
  | .enroll .. | .setRole .. | .handOver .. => True
  | _ => False

theorem RosterChange.Joins.keeps (h : c.Joins) : Roster.Keeps c := by cases c <;> trivial

/-- Joining the lobby as a member does, or as its owner. -/
def lobbyChanges (r : Roster) (bot lobby userId : String) (promote : Prop) [Decidable promote]
    (joined : Prop) [Decidable joined] : List RosterChange :=
  if promote then
    let first := if joined then .setRole lobby userId .owner else .enroll lobby userId .owner
    first :: .handOver lobby userId ::
      if (r.change first).role? lobby bot = some .owner then [.setRole lobby bot .admin] else []
  else if joined then [] else [.enroll lobby userId .member]

theorem defaultJoin_changes : rosterChanges (defaultJoin config db settings lobby userId) =
    lobbyChanges db.roster config.botUserId lobby userId (Promotes config db settings lobby)
      (db.IsMember lobby userId) := by
  have demotes (flushed : Db) : (flushed.member? lobby config.botUserId).any
      (fun member => member.role = .owner) = true ↔
      flushed.roster.role? lobby config.botUserId = some .owner := by
    rw [Db.role?_roster]
    cases flushed.member? lobby config.botUserId <;> simp
  -- the first statements are flushed before the bot is looked up
  have handedOver (first : RosterChange) (ws : List Write)
      (admissible : db.roster.Admissible first) (free : ∀ w ∈ ws, w.Unconstrained)
      (one : rosterChanges ws = [first]) :
      rosterChanges (ws ++ .setOwner lobby userId ::
        if ((((db.commit ws).getD db).member? lobby config.botUserId).any
          fun member => member.role = .owner) = true
        then [.setRole lobby config.botUserId .admin] else []) =
      first :: .handOver lobby userId ::
        if (db.roster.change first).role? lobby config.botUserId = some .owner
        then [.setRole lobby config.botUserId .admin] else [] := by
    obtain ⟨flushed, done⟩ := Db.commit_of_admissible free
      (show Along Roster.change Roster.Admissible db.roster (rosterChanges ws) by
        rw [one]
        exact ⟨admissible, trivial⟩)
    have after : flushed.roster = db.roster.change first := by
      rw [(Db.roster_commit done).2, show ws.filterMap Write.change = [first] from one]
      rfl
    rw [rosterChanges_append, one, done, Option.getD_some, ← after]
    simp only [demotes]
    split <;> rfl
  unfold defaultJoin lobbyMembership lobbyChanges
  by_cases promote : Promotes config db settings lobby
  · by_cases joined : db.IsMember lobby userId
    · simp only [promote, joined, decide_true, if_true]
      refine handedOver _ _ trivial ?_ rfl
      rintro w (_ | ⟨_, _ | ⟨_, ⟨⟩⟩⟩) <;> trivial
    · simp only [promote, joined, decide_true, if_true, if_false]
      refine handedOver _ _ (fun h => joined (Db.isMember_roster.mp h)) ?_ rfl
      rintro w (_ | ⟨_, ⟨⟩⟩)
      trivial
  · by_cases joined : db.IsMember lobby userId
    · simp only [promote, joined, decide_false, Bool.false_eq_true, if_true, if_false]
      rfl
    · simp only [promote, joined, decide_false, Bool.false_eq_true, if_false]
      rfl

section

variable {r : Roster} {bot : String} {promote joined : Prop} [Decidable promote] [Decidable joined]

theorem lobbyChanges_joins : ∀ c ∈ lobbyChanges r bot lobby userId promote joined, c.Joins := by
  intro c mem
  unfold lobbyChanges at mem
  split at mem
  · rcases List.mem_cons.mp mem with rfl | mem
    · split <;> trivial
    · rcases List.mem_cons.mp mem with rfl | mem
      · trivial
      · rw [List.mem_singleton.mp (List.mem_ite_nil_right.mp mem).2]
        trivial
  · split at mem
    · cases mem
    · rw [List.mem_singleton.mp mem]
      trivial

theorem admit_mem_lobbyChanges :
    .enroll serverId user role ∈ lobbyChanges r bot lobby userId promote joined ↔
      serverId = lobby ∧ user = userId ∧ ¬joined ∧ role = if promote then .owner else .member := by
  unfold lobbyChanges
  by_cases p : promote <;> by_cases j : joined
  · simp only [p, j, if_true, List.mem_cons, reduceCtorEq, false_or, not_true, false_and, and_false,
      iff_false]
    split <;> simp
  · simp only [p, j, if_true, if_false, List.mem_cons, RosterChange.enroll.injEq, reduceCtorEq,
      false_or, not_false_eq_true, true_and]
    split <;> simp
  · simp [p, j]
  · simp [p, j]

end

variable (config db settings body now userId) in
/-- What a registration changes. -/
def joinChanges : List RosterChange :=
  ((body.lobby? db settings now).map fun lobby => lobbyChanges db.roster config.botUserId lobby
      userId (Promotes config db settings lobby) (db.IsMember lobby userId)).getD [] ++
    ((body.invite? db now).map fun invite =>
      [.enroll invite.val.serverId userId .member]).getD []

theorem rosterChanges_joins : rosterChanges (body.joins config db settings now userId) =
    joinChanges config db settings body now userId := by
  rw [RegisterRequest.joins, rosterChanges_append, joinChanges]
  congr 1
  · cases body.lobby? db settings now with
    | none => rfl
    | some lobby => exact defaultJoin_changes
  · cases body.invite? db now <;> rfl

theorem joinChanges_joins : ∀ c ∈ joinChanges config db settings body now userId, c.Joins := by
  intro c mem
  rcases List.mem_append.mp mem with mem | mem
  · cases found : body.lobby? db settings now with
    | none =>
      rw [found] at mem
      cases mem
    | some lobby =>
      rw [found] at mem
      exact lobbyChanges_joins c mem
  · cases found : body.invite? db now with
    | none =>
      rw [found] at mem
      cases mem
    | some invite =>
      rw [found] at mem
      rw [List.mem_singleton.mp mem]
      trivial

/-- A registration admits the account to the lobby and to the server of the invite. -/
theorem admit_mem_joinChanges :
    (∃ role, .enroll serverId user role ∈ joinChanges config db settings body now userId) ↔
      user = userId ∧ (serverId ∈ body.lobby? db settings now ∧ ¬db.IsMember serverId userId ∨
        ∃ invite ∈ body.invite? db now, invite.val.serverId = serverId) := by
  simp only [joinChanges, List.mem_append, exists_or, and_or_left]
  refine or_congr ?_ ?_
  · cases body.lobby? db settings now with
    | none => simp
    | some lobby =>
      simp only [Option.map_some, Option.getD_some, admit_mem_lobbyChanges, Option.mem_def,
        Option.some.injEq]
      constructor
      · rintro ⟨role, rfl, rfl, absent, -⟩
        exact ⟨rfl, rfl, absent⟩
      · rintro ⟨rfl, rfl, absent⟩
        exact ⟨_, rfl, rfl, absent, rfl⟩
  · cases body.invite? db now with
    | none => simp
    | some invite =>
      simp only [Option.map_some, Option.getD_some, List.mem_singleton, RosterChange.enroll.injEq,
        Option.mem_def, Option.some.injEq]
      constructor
      · rintro ⟨role, rfl, rfl, rfl⟩
        exact ⟨rfl, invite, rfl, rfl⟩
      · rintro ⟨rfl, _, rfl, rfl⟩
        exact ⟨_, rfl, rfl, rfl⟩

/-- A registration goes through only when the account is not yet a member where it is invited. -/
theorem not_isMember_of_admissible
    (h : Along Roster.change Roster.Admissible db.roster
      (joinChanges config db settings body now userId)) :
    ∀ invite ∈ body.invite? db now, ¬db.IsMember invite.val.serverId userId := by
  intro invite found member
  obtain ⟨-, rest⟩ := along_append.mp h
  rw [Option.mem_def.mp found] at rest
  refine rest.1 (Roster.isMember_run_of_mem (fun c mem => ?_) (.inl (Db.isMember_roster.mpr member)))
  exact (joinChanges_joins c (List.mem_append_left _ mem)).keeps

theorem lobbyChanges_admissible {r : Roster} {bot : String} {promote joined : Prop}
    [Decidable promote] [Decidable joined] (absent : ¬joined → ¬r.IsMember lobby userId) :
    Along Roster.change Roster.Admissible r (lobbyChanges r bot lobby userId promote joined) := by
  unfold lobbyChanges
  by_cases p : promote
  · rw [if_pos p]
    refine ⟨?_, trivial, ?_⟩
    · by_cases j : joined
      · rw [if_pos j]
        trivial
      · rw [if_neg j]
        exact absent j
    · refine Along.of_mem (R := fun c => c = .setRole lobby bot .admin) ?_ fun c mem => ?_
      · rintro r' c rfl
        trivial
      · exact List.mem_singleton.mp (List.mem_ite_nil_right.mp mem).2
  · rw [if_neg p]
    by_cases j : joined
    · rw [if_pos j]
      trivial
    · rw [if_neg j]
      exact ⟨absent j, trivial⟩

/-- And then it does. -/
theorem joinChanges_admissible
    (h : ∀ invite ∈ body.invite? db now, ¬db.IsMember invite.val.serverId userId) :
    Along Roster.change Roster.Admissible db.roster
      (joinChanges config db settings body now userId) := by
  refine along_append.mpr ⟨?_, ?_⟩
  · cases body.lobby? db settings now with
    | none => trivial
    | some lobby => exact lobbyChanges_admissible fun absent => mt Db.isMember_roster.mp absent
  · cases found : body.invite? db now with
    | none => trivial
    | some invite =>
      refine ⟨fun member => ?_, trivial⟩
      rcases Roster.isMember_run member with before | ⟨role, mem⟩
      · exact h invite found (Db.isMember_roster.mp before)
      · -- the lobby is not the server of the invite
        cases set : body.lobby? db settings now with
        | none =>
          rw [set] at mem
          cases mem
        | some lobby =>
          rw [set, Option.map_some, Option.getD_some, admit_mem_lobbyChanges] at mem
          obtain ⟨-, other⟩ := Option.filter_eq_some_iff.mp set
          rw [found, ← mem.1] at other
          simp at other

theorem rosterChanges_registered :
    rosterChanges (registered config db settings body now userId).1.writes =
      joinChanges config db settings body now userId := by
  show rosterChanges (((body.invite? db now).map countUse).getD [] ++ _) = _
  rw [rosterChanges_append, rosterChanges_countUse, rosterChanges_joins, List.nil_append]

/-- A registration runs into no constraint but those of the members. -/
theorem registered_unconstrained :
    ∀ w ∈ (registered config db settings body now userId).1.writes, w.Unconstrained := by
  have one (w : Write) (h : w.Unconstrained) : ∀ w' ∈ [w], w'.Unconstrained :=
    fun w' mem => List.mem_singleton.mp mem ▸ h
  have both {ws ws' : List Write} (h : ∀ w ∈ ws, w.Unconstrained)
      (h' : ∀ w ∈ ws', w.Unconstrained) : ∀ w ∈ ws ++ ws', w.Unconstrained :=
    fun w mem => (List.mem_append.mp mem).elim (h w) (h' w)
  have none : ∀ w ∈ ([] : List Write), w.Unconstrained := by
    rintro w ⟨⟩
  refine both ?_ (both ?_ ?_)
  · cases body.invite? db now with
    | none => exact none
    | some invite =>
      show ∀ w ∈ countUse invite, w.Unconstrained
      unfold countUse
      split
      · exact none
      · exact one _ trivial
  · cases body.lobby? db settings now with
    | none => exact none
    | some lobby =>
      have joined (promote : Bool) : ∀ w ∈ lobbyMembership db lobby userId promote,
          w.Unconstrained := by
        unfold lobbyMembership
        split
        · split
          · rintro w (_ | ⟨_, _ | ⟨_, ⟨⟩⟩⟩) <;> trivial
          · exact none
        · exact one _ trivial
      show ∀ w ∈ defaultJoin .., w.Unconstrained
      unfold defaultJoin
      dsimp only
      split
      · refine both (joined _) (List.forall_mem_cons.mpr ⟨trivial, ?_⟩)
        split
        · exact one _ trivial
        · exact none
      · exact joined _
  · cases body.invite? db now with
    | none => exact none
    | some invite => exact one _ trivial

end

end Concorrd.Api
