import Mathlib.Data.List.Infix
import Concorrd.Api.Channels

/-!
# Invites and registration

A user comes to be a member by redeeming an invite, by accepting a direct invite, or by registering,
with an invite or into the lobby.
-/

namespace Concorrd.Api

/-- Times are in microseconds. -/
def minutes (n : Nat) : Nat := n * 60000000

variable (config : Config) (db : Db)

structure InviteCreate where
  serverId : String
  passphrase : Option String := none
  maxUses : Nat := 1
  expiresInHours : Nat := 1
  permanent : Bool := false

def Db.inviteByToken? (db : Db) (token : String) : Option (Row InviteToken) :=
  db.invites.find? fun invite => invite.val.token = token

/-- Create an invite. Without a passphrase its token is drawn. -/
def createInvite (body : InviteCreate) (userId token : String) (now : Nat) :
    Except HttpError Reply := do
  let _ ← requireServerMember db body.serverId userId
  let server ← found (db.server? body.serverId) ⟨404, "Server not found", none⟩
  refuse (∃ passphrase ∈ body.passphrase, ∃ other ∈ db.inviteByToken? passphrase,
    other.val.IsValid now) ⟨409, "That passphrase is already in use", none⟩
  let invite : InviteToken :=
    { token := body.passphrase.getD token, serverId := body.serverId, createdBy := userId,
      expiresAt := now + minutes (60 * body.expiresInHours), maxUses := body.maxUses,
      permanent := body.permanent }
  return ⟨[("id", .num db.invites.nextId), ("token", .str invite.token),
    ("server_id", .str body.serverId), ("server_name", .str server.name)], [.addInvite invite]⟩

def revokeInvite (inviteId : Nat) (userId : String) : Except HttpError Reply := do
  let invite ← found (db.invites.get inviteId) ⟨404, "Invite not found", none⟩
  let _ ← requireServerAdmin db invite.serverId userId
  return ⟨status "revoked", [.deleteInvite inviteId]⟩

/-- One more use of an invite, unless it is permanent. -/
def countUse (invite : Row InviteToken) : List Write :=
  if invite.val.permanent then [] else [.setUseCount invite.id (invite.val.useCount + 1)]

/-- Redeem an invite as a logged-in user. -/
def redeemInvite (token userId : String) (now : Nat) : Except HttpError Reply := do
  let invite ← found ((db.inviteByToken? token).filter fun invite => invite.val.IsValid now)
    ⟨400, "Invalid or expired invite", none⟩
  refuse (db.IsBanned invite.val.serverId userId) ⟨403, "You are banned from this server", none⟩
  if db.IsMember invite.val.serverId userId then
    return ⟨status "already_member", []⟩
  else
    return ⟨status "joined",
      .addMember { serverId := invite.val.serverId, userId } :: countUse invite⟩

/-! ## Direct invites -/

/-- Whether an invite to the user is pending. -/
def IsInvited (serverId inviteeId : String) : Prop :=
  ∃ invite ∈ db.directInvites, invite.val.serverId = serverId ∧ invite.val.inviteeId = inviteeId ∧
    invite.val.status = .pending

instance (serverId inviteeId : String) : Decidable (IsInvited db serverId inviteeId) :=
  inferInstanceAs (Decidable (∃ invite ∈ db.directInvites, _))

def sendDirectInvite (serverId inviteeId userId : String) : Except HttpError Reply := do
  let _ ← requireServerAdmin db serverId userId
  refuse (db.IsMember serverId inviteeId) ⟨400, "User is already a member of this server", none⟩
  refuse (db.IsBanned serverId inviteeId) ⟨400, "User is banned from this server", none⟩
  refuse (IsInvited db serverId inviteeId) ⟨400, "Invite already pending for this user", none⟩
  return ⟨[("status", .str "sent"), ("id", .num db.directInvites.nextId)],
    [.addDirectInvite { serverId, inviterId := userId, inviteeId }]⟩

/-- The pending invites of the user. An invite whose server is gone makes the whole list fail. -/
def getPendingInvites (userId : String) : Except HttpError Reply := do
  let pending := db.directInvites.filter fun invite =>
    invite.val.inviteeId = userId ∧ invite.val.status = .pending
  let items ← pending.mapM fun invite => do
    let server ← found (db.server? invite.val.serverId) .internal
    return Json.obj [("id", .num invite.id), ("server_id", .str invite.val.serverId),
      ("server_name", .str server.name), ("inviter_id", .str invite.val.inviterId)]
  return ⟨[("invites", .arr items)], []⟩

def InviteStatus.text : InviteStatus → String
  | .pending => "pending"
  | .accepted => "accepted"
  | .declined => "declined"

/-- What the client is told of an invite it accepted. When the server of the invite is gone the
reply fails, but only after the commit. -/
def acceptedBody (invite : DirectInvite) : List (String × Json) :=
  match db.server? invite.serverId with
  | some server => [("status", .str "accepted"), ("server_id", .str invite.serverId),
    ("server_name", .str server.name)]
  | none => [("error_code", .str "INTERNAL_ERROR"), ("message", .str HttpError.internal.detail),
    ("details", .null)]

/-- Accept or decline a direct invite. -/
def respondToInvite (inviteId : Nat) (accept : Bool) (userId : String) : Except HttpError Reply := do
  let invite ← found (db.directInvites.get inviteId) ⟨404, "Invite not found", none⟩
  refuse (invite.inviteeId ≠ userId) ⟨403, "This invite is not for you", none⟩
  refuse (invite.status ≠ .pending) ⟨400, "Invite already " ++ invite.status.text, none⟩
  if accept = false then
    return ⟨status "declined", [.setInviteStatus inviteId .declined]⟩
  else
    return ⟨acceptedBody db invite, [.setInviteStatus inviteId .accepted,
      .addMember { serverId := invite.serverId, userId }]⟩

/-! ## Registration -/

structure RegisterRequest where
  username : String
  inviteToken : Option String := none

def Settings.isFirstBoot (settings : Settings) : Bool :=
  !settings.firstBootComplete && !settings.defaultServerSeeded && !settings.welcomePosted

def Settings.openRegistrationEnabled (settings : Settings) (config : Config) : Bool :=
  settings.openRegistration.getD config.openRegistration

/-- What a refusal of the homeserver is told as. -/
def registrationError (message : String) : HttpError :=
  let lower := message.toLower.toList
  if "taken".toList <:+: lower then ⟨400, "Username is already taken", none⟩
  else if "exclusive".toList <:+: lower then ⟨400, "That username is reserved", none⟩
  else if "invalid".toList <:+: lower ∨ "not allowed".toList <:+: lower then
    ⟨400, "Invalid username: " ++ message, none⟩
  else ⟨400, "Registration failed: " ++ message, none⟩

/-- Whether a new account inherits the lobby from the bot. -/
def Promotes (settings : Settings) (lobby : String) : Prop :=
  settings.isFirstBoot = true ∧ ∃ server ∈ db.server? lobby, server.ownerId = config.botUserId

instance (settings : Settings) (lobby : String) : Decidable (Promotes config db settings lobby) :=
  inferInstanceAs (Decidable (_ ∧ ∃ server ∈ db.server? lobby, _))

/-- The membership of a new account in the lobby. -/
def lobbyMembership (lobby userId : String) (promote : Bool) : List Write :=
  if db.IsMember lobby userId then
    if promote then [.setRole lobby userId .owner, .setPermissions lobby userId true true] else []
  else [.addMember { serverId := lobby, userId, role := if promote then .owner else .member,
                     canKick := promote, canBan := promote }]

/-- Join a new account to the lobby, as its owner on first boot while the bot owns it. -/
def defaultJoin (settings : Settings) (lobby userId : String) : List Write :=
  let promote := decide (Promotes config db settings lobby)
  let joined := lobbyMembership db lobby userId promote
  if promote then
    let flushed := (db.commit joined).getD db
    let bot := (flushed.member? lobby config.botUserId).any fun member => member.role = .owner
    joined ++ .setOwner lobby userId :: if bot then [.setRole lobby config.botUserId .admin] else []
  else joined

/-- The invite token, if one is given. -/
def RegisterRequest.token? (body : RegisterRequest) : Option String :=
  body.inviteToken.filter fun token => token ≠ ""

/-- The invite of the token, if it is valid. -/
def RegisterRequest.invite? (body : RegisterRequest) (now : Nat) : Option (Row InviteToken) :=
  body.token?.bind fun token =>
    (db.inviteByToken? token).filter fun invite => invite.val.IsValid now

/-- The lobby, unless it is joined by the invite. -/
def RegisterRequest.lobby? (body : RegisterRequest) (settings : Settings) (now : Nat) :
    Option String :=
  settings.lobby?.filter fun lobby => (body.invite? db now).map (·.val.serverId) ≠ some lobby

/-- The memberships of a new account. -/
def RegisterRequest.joins (body : RegisterRequest) (settings : Settings) (now : Nat)
    (userId : String) : List Write :=
  ((body.lobby? db settings now).map fun lobby =>
      defaultJoin config db settings lobby userId).getD [] ++
    ((body.invite? db now).map fun invite =>
      [.addMember { serverId := invite.val.serverId, userId }]).getD []

/-- What a registration ends with. The settings are written on first boot, after the session was
flushed. -/
def registered (settings : Settings) (body : RegisterRequest) (now : Nat) (userId : String) :
    Reply × Settings :=
  let invite := body.invite? db now
  let serverId := (invite.map fun invite => Json.str invite.val.serverId).getD .null
  let booted :=
    { settings with
      firstBootComplete := true
      adminUserIds := if userId ∈ settings.adminUserIds then settings.adminUserIds
        else settings.adminUserIds ++ [userId] }
  (⟨[("user_id", .str userId), ("server_id", serverId)],
      (invite.map countUse).getD [] ++ body.joins config db settings now userId⟩,
    if settings.isFirstBoot then booted else settings)

/-- Register an account. -/
def registerUser (settings : Settings) (body : RegisterRequest) (withinRateLimit : Bool) (now : Nat)
    (matrix : Except String String) : Except HttpError (Reply × Settings) := do
  refuse (settings.isFirstBoot = false ∧ settings.openRegistrationEnabled config = false ∧
    body.token? = none) ⟨403, "Registration requires an invite token", none⟩
  refuse (withinRateLimit = false)
    ⟨429, "Too many registration attempts. Please try again later.", none⟩
  refuse (body.token? ≠ none ∧ body.invite? db now = none)
    ⟨400, "Invalid or expired invite token", none⟩
  -- a slot reserved before is given back when the homeserver refuses
  match matrix with
  | .error message => .error (registrationError message)
  | .ok userId => return registered config db settings body now userId

/-! ## What they make sure of -/

section

variable {config : Config} {db : Db} {reply : Reply} {serverId userId inviteeId : String}
  {inviteId now : Nat}

theorem createInvite_ok {body : InviteCreate} {token : String}
    (h : createInvite db body userId token now = .ok reply) :
    ∃ server, db.server? body.serverId = some server ∧
      ∃ invite : InviteToken, invite.serverId = body.serverId ∧
        reply.writes = [.addInvite invite] := by
  simp only [createInvite, requireServerMember_bind, found_bind, refuse_bind, pure_eq_ok] at h
  obtain ⟨member, -, server, there, -, rfl⟩ := h
  exact ⟨server, there, _, rfl, rfl⟩

theorem revokeInvite_ok (h : revokeInvite db inviteId userId = .ok reply) :
    reply.writes = [.deleteInvite inviteId] := by
  simp only [revokeInvite, found_bind, requireServerAdmin_bind, pure_eq_ok] at h
  obtain ⟨invite, -, member, -, -, rfl⟩ := h
  rfl

theorem redeemInvite_ok {token : String} : redeemInvite db token userId now = .ok reply ↔
    ∃ invite, (db.inviteByToken? token).filter (fun invite => invite.val.IsValid now) = some invite ∧
      ¬db.IsBanned invite.val.serverId userId ∧
      reply = if db.IsMember invite.val.serverId userId then ⟨status "already_member", []⟩
        else ⟨status "joined",
          .addMember { serverId := invite.val.serverId, userId } :: countUse invite⟩ := by
  simp only [redeemInvite, found_bind, refuse_bind]
  refine exists_congr fun invite => and_congr_right fun _ => and_congr_right fun _ => ?_
  split <;> exact pure_eq_ok

theorem sendDirectInvite_ok : sendDirectInvite db serverId inviteeId userId = .ok reply ↔
    ∃ member, db.member? serverId userId = some member ∧ member.role ≠ .member ∧
      ¬db.IsMember serverId inviteeId ∧ ¬db.IsBanned serverId inviteeId ∧
      ¬IsInvited db serverId inviteeId ∧
      reply = ⟨[("status", .str "sent"), ("id", .num db.directInvites.nextId)],
        [.addDirectInvite { serverId, inviterId := userId, inviteeId }]⟩ := by
  simp only [sendDirectInvite, requireServerAdmin_bind, refuse_bind, pure_eq_ok]

theorem respondToInvite_ok {accept : Bool} (h : respondToInvite db inviteId accept userId = .ok reply) :
    ∃ invite, db.directInvites.get inviteId = some invite ∧ invite.inviteeId = userId ∧
      invite.status = .pending ∧
      reply.writes = if accept then [.setInviteStatus inviteId .accepted,
          .addMember { serverId := invite.serverId, userId }]
        else [.setInviteStatus inviteId .declined] := by
  simp only [respondToInvite, found_bind, refuse_bind, ne_eq, not_not] at h
  obtain ⟨invite, sent, own, pending, h⟩ := h
  refine ⟨invite, sent, own, pending, ?_⟩
  cases accept <;> cases h <;> rfl

/-- A pending invite can be accepted. -/
theorem respondToInvite_accepts {invite : DirectInvite}
    (sent : db.directInvites.get inviteId = some invite) (own : invite.inviteeId = userId)
    (pending : invite.status = .pending) :
    ∃ reply, respondToInvite db inviteId true userId = .ok reply ∧
      reply.writes = [.setInviteStatus inviteId .accepted,
        .addMember { serverId := invite.serverId, userId }] := by
  refine ⟨⟨acceptedBody db invite, [.setInviteStatus inviteId .accepted,
    .addMember { serverId := invite.serverId, userId }]⟩, ?_, rfl⟩
  simp only [respondToInvite, found_bind, refuse_bind]
  exact ⟨invite, sent, not_not.mpr own, not_not.mpr pending, rfl⟩

/-- What a registration makes sure of. -/
def Registers (config : Config) (db : Db) (settings : Settings) (body : RegisterRequest)
    (withinRateLimit : Bool) (now : Nat) : Prop :=
  ¬(settings.isFirstBoot = false ∧ settings.openRegistrationEnabled config = false ∧
      body.token? = none) ∧
    withinRateLimit = true ∧ ¬(body.token? ≠ none ∧ body.invite? db now = none)

theorem registerUser_ok {settings : Settings} {body : RegisterRequest} {withinRateLimit : Bool}
    {matrix : Except String String} {done : Reply × Settings} :
    registerUser config db settings body withinRateLimit now matrix = .ok done ↔
    Registers config db settings body withinRateLimit now ∧ ∃ userId, matrix = .ok userId ∧
      done = registered config db settings body now userId := by
  simp only [registerUser, refuse_bind, Registers, and_assoc, Bool.not_eq_false]
  refine and_congr_right fun _ => and_congr_right fun _ => and_congr_right fun _ => ?_
  cases matrix with
  | error message =>
    constructor
    · intro h
      cases h
    · rintro ⟨userId, h, -⟩
      cases h
  | ok userId =>
    rw [pure_eq_ok]
    constructor
    · rintro rfl
      exact ⟨userId, rfl, rfl⟩
    · rintro ⟨userId', h, rfl⟩
      cases h
      rfl

end

end Concorrd.Api
