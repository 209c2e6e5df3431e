import Concorrd.Api.Moves

/-!
# Instance-wide bans

A ban from the instance is meant to keep a user out of every server, and to leave the bans of servers
alone. No membership route looks it up, and pardoning a user deletes the bans of servers too
(`global_along_iff`).
-/

namespace Concorrd.Api

open Machine

/-- The route makes whoever calls it a member, if it succeeds. -/
def Request.isMembership : Request → Bool
  | .createServer .. | .listServers .. | .joinServer .. | .redeemInvite .. | .respondToInvite ..
  | .registerUser .. => true
  | _ => false

/-- The route bans a user from the instance, or pardons one. -/
def Request.isAdminBan : Request → Bool
  | .adminBanUser .. | .adminUnbanUser .. => true
  | _ => false

/-- The bans that are not from the whole instance. -/
def Db.serverBans (db : Db) : List ServerBan := db.bans.filter fun ban => ban.serverId ≠ instanceWide

instance (config : Config) (settings : Settings) (userId : String) :
    Decidable (IsAdmin config settings userId) :=
  inferInstanceAs (Decidable (_ ∨ _))

/-- A server, and whom its administrators have banned from the instance and not pardoned since. -/
structure Watch where
  server : Instance := {}
  out : List String := []

def Watch.step (p : Process) (w : Watch) (request : Request) : Watch where
  server := w.server.step p request
  out := match request with
    | .adminBanUser target userId =>
      if IsAdmin p.toConfig w.server.settings userId then target :: w.out else w.out
    | .adminUnbanUser target userId =>
      if IsAdmin p.toConfig w.server.settings userId then w.out.filter fun user => user ≠ target
      else w.out
    | _ => w.out

/-- No membership route lets anybody in who is out, and the administrators' routes leave the bans of
servers as they are. -/
structure Global (p : Process) (w : Watch) (request : Request) : Prop where
  keptOut : request.isMembership = true → ∀ user ∈ w.out, ∀ serverId,
    (w.server.step p request).db.IsMember serverId user → w.server.db.IsMember serverId user
  independent : request.isAdminBan = true →
    (w.server.step p request).db.serverBans = w.server.db.serverBans

/-- Something else turns away whoever is out, and a user who is pardoned is banned from no server. -/
def TurnsAway (p : Process) (w : Watch) : Request → Prop
  | .createServer _ userId id room => userId ∈ w.out → ∀ roomId ∈ room,
    (∃ server ∈ w.server.db.servers, server.id = id.text) ∨
      (∃ channel ∈ w.server.db.channels, channel.val.matrixRoomId = roomId) ∨
      w.server.db.IsMember id.text userId
  | .listServers userId joins => userId ∈ w.out → ∀ lobby ∈ w.server.settings.lobby?,
    ((w.server.db.channelsOf lobby).all fun channel => joins channel.val.matrixRoomId) = true →
      w.server.db.IsMember lobby userId
  | .joinServer serverId userId => userId ∈ w.out → ∀ server ∈ w.server.db.server? serverId,
    server.visibility = .publicServer →
      w.server.db.IsBanned serverId userId ∨ w.server.db.IsMember serverId userId
  | .redeemInvite token userId now => userId ∈ w.out →
    ∀ invite ∈ w.server.db.inviteByToken? token, invite.val.IsValid now →
      w.server.db.IsBanned invite.val.serverId userId ∨
        w.server.db.IsMember invite.val.serverId userId
  | .respondToInvite inviteId accept userId => userId ∈ w.out →
    ∀ invite ∈ w.server.db.directInvites.get inviteId, accept = true →
      invite.inviteeId = userId → invite.status = .pending →
        w.server.db.IsMember invite.serverId userId
  | .registerUser body withinRateLimit now matrix => ∀ userId ∈ w.out, matrix = .ok userId →
    Registers p.toConfig w.server.db w.server.settings body withinRateLimit now →
      (∃ invite ∈ body.invite? w.server.db now, w.server.db.IsMember invite.val.serverId userId) ∨
        body.invite? w.server.db now = none ∧
          ∀ lobby ∈ body.lobby? w.server.db w.server.settings now, w.server.db.IsMember lobby userId
  | .adminUnbanUser target userId => IsAdmin p.toConfig w.server.settings userId →
    ∀ ban ∈ w.server.db.bans, ban.userId = target → ban.serverId = instanceWide
  | _ => True

section

variable {p : Process} {w : Watch} {request : Request}

theorem serverBans_adminBan {target userId : String} :
    (w.server.step p (.adminBanUser target userId)).db.serverBans = w.server.db.serverBans := by
  unfold Instance.step
  cases ran : w.server.handle p (.adminBanUser target userId) with
  | error e => rfl
  | ok done =>
    obtain ⟨reply, ended, rfl⟩ := map_eq_ok.mp ran
    obtain ⟨-, same⟩ := adminBanUser_ok.mp ended
    split at same
    · cases same
      rfl
    · rename_i unbanned
      cases same
      have added : w.server.db.commit
          [.addBan { serverId := instanceWide, userId := target, bannedBy := userId }] =
          some { w.server.db with
            bans := w.server.db.bans ++ [{ serverId := instanceWide, userId := target,
                                           bannedBy := userId }] } := by
        refine (Db.commit_singleton _ _).trans (if_neg ?_)
        rintro ⟨ban, mem, -, same⟩
        exact unbanned ⟨ban, mem, same⟩
      simp only [added, Db.serverBans, List.filter_append]
      exact List.append_nil _

theorem serverBans_adminUnban {target userId : String} :
    (w.server.step p (.adminUnbanUser target userId)).db.serverBans = w.server.db.serverBans ↔
      TurnsAway p w (.adminUnbanUser target userId) := by
  unfold Instance.step
  cases ran : w.server.handle p (.adminUnbanUser target userId) with
  | error e =>
    refine iff_of_true rfl fun admin => ?_
    have done : w.server.handle p (.adminUnbanUser target userId) = .ok (_, _) :=
      map_eq_ok.mpr ⟨_, adminUnbanUser_ok.mpr ⟨admin, rfl⟩, rfl⟩
    rw [ran] at done
    cases done
  | ok done =>
    obtain ⟨reply, ended, rfl⟩ := map_eq_ok.mp ran
    obtain ⟨admin, rfl⟩ := adminUnbanUser_ok.mp ended
    show ((w.server.db.bans.filter fun ban => ban.userId ≠ target).filter
      fun ban => ban.serverId ≠ instanceWide) = w.server.db.bans.filter _ ↔ _
    rw [List.filter_comm, List.filter_eq_self]
    constructor
    · intro kept _ ban mem same
      by_contra server
      have other := kept ban (List.mem_filter.mpr ⟨mem, decide_eq_true server⟩)
      exact of_decide_eq_true other same
    · intro wide ban mem
      obtain ⟨mem, server⟩ := List.mem_filter.mp mem
      exact decide_eq_true fun same => of_decide_eq_true server (wide admin ban mem same)

/-- What founds a server with its owner and a channel goes through when all of it is new. -/
theorem commit_create (db : Db) (server : Server) (member : ServerMember) (channel : Channel) :
    (∃ db', db.commit [.addServer server, .addMember member, .addChannel channel] = some db') ↔
      (∀ other ∈ db.servers, other.id ≠ server.id) ∧
        ¬db.IsMember member.serverId member.userId ∧
          ∀ other ∈ db.channels, other.val.matrixRoomId ≠ channel.matrixRoomId := by
  simp only [Db.commit_cons, Option.bind_eq_some_iff, Db.apply, Option.ite_none_left_eq_some,
    Option.some.injEq, not_exists, not_and]
  constructor
  · rintro ⟨db', first, ⟨fresh, rfl⟩, second, ⟨outside, rfl⟩, third, ⟨free, -⟩, -⟩
    exact ⟨fresh, outside, free⟩
  · rintro ⟨fresh, outside, free⟩
    exact ⟨_, _, ⟨fresh, rfl⟩, _, ⟨outside, rfl⟩, _, ⟨free, rfl⟩, rfl⟩

/-- Who founds a server is a member of it. -/
theorem isMember_createServer {body : ServerCreate} {userId user serverId : String} {id : DrawnId}
    {room : Option String} :
    (w.server.step p (.createServer body userId id room)).db.IsMember serverId user ↔
      w.server.db.IsMember serverId user ∨ (serverId = id.text ∧ user = userId) ∧
        ∃ roomId ∈ room, (∀ other ∈ w.server.db.servers, other.id ≠ id.text) ∧
          ¬w.server.db.IsMember id.text userId ∧
            ∀ other ∈ w.server.db.channels, other.val.matrixRoomId ≠ roomId := by
  cases room with
  | none =>
    refine (or_iff_left ?_).symm
    rintro ⟨-, roomId, ⟨⟩, -⟩
  | some roomId =>
    simp only [Option.mem_some_iff, exists_eq_left']
    have ran : w.server.handle p (.createServer body userId id (some roomId)) = .ok (⟨_, _⟩, _) :=
      map_eq_ok.mpr ⟨_, createServer_ok.mpr ⟨roomId, rfl, rfl⟩, rfl⟩
    have goesThrough := commit_create w.server.db
      { id := id.text, name := body.name, ownerId := userId, visibility := body.visibility,
        abbreviation := body.abbreviation }
      { serverId := id.text, userId, role := .owner }
      { serverId := id.text, matrixRoomId := roomId, name := "general" }
    unfold Instance.step
    rw [ran, ← goesThrough]
    dsimp only
    cases committed : w.server.db.commit _ with
    | none =>
      refine (or_iff_left ?_).symm
      rintro ⟨-, db, ⟨⟩⟩
    | some db =>
      rw [← Db.isMember_roster, (Db.roster_commit committed).2, ← Db.isMember_roster]
      refine Roster.isMember_enroll.trans (or_congr_right ?_)
      exact (and_iff_left ⟨db, rfl⟩).symm

/-- A route that goes through makes whom it admits a member. -/
theorem isMember_step {s : Instance} {done : Reply × Settings} {serverId userId : String}
    (ran : s.handle p request = .ok done) (free : ∀ w ∈ done.1.writes, w.Unconstrained)
    (admissible : Along Roster.change Roster.Admissible s.db.roster (rosterChanges done.1.writes))
    (keeps : ∀ c ∈ rosterChanges done.1.writes, Roster.Keeps c)
    (enrolled : ∃ role, .enroll serverId userId role ∈ rosterChanges done.1.writes) :
    (s.step p request).db.IsMember serverId userId := by
  rw [← Db.isMember_roster, roster_step ran free admissible]
  exact Roster.isMember_run_of_mem keeps (.inr enrolled)

/-- Who is turned away does not become a member. -/
theorem keptOut_of_turnsAway (turnsAway : TurnsAway p w request) (membership : request.isMembership)
    {user serverId : String} (out : user ∈ w.out)
    (after : (w.server.step p request).db.IsMember serverId user) :
    w.server.db.IsMember serverId user := by
  obtain ⟨changes, moves, admissible, roster⟩ := step_moves (p := p) (s := w.server) request
  by_contra outside
  have member := Db.isMember_roster.mpr after
  rw [roster] at member
  obtain ⟨role, mem⟩ := (Roster.isMember_run member).resolve_left (mt Db.isMember_roster.mp outside)
  cases moves with
  | none => cases mem
  | create =>
    obtain ⟨⟨rfl, rfl⟩, roomId, set, fresh, absent, free⟩ :=
      (isMember_createServer.mp after).resolve_left outside
    rcases turnsAway out roomId set with ⟨server, there, same⟩ | ⟨channel, there, same⟩ | member
    · exact fresh server there same
    · exact free channel there same
    · exact absent member
  | lobby set joined =>
    cases List.mem_singleton.mp mem
    exact outside (turnsAway out _ set joined)
  | join there isPublic allowed =>
    cases List.mem_singleton.mp mem
    exact outside ((turnsAway out _ there isPublic).resolve_left allowed)
  | redeem valid allowed =>
    cases List.mem_singleton.mp mem
    obtain ⟨sent, isValid⟩ := Option.filter_eq_some_iff.mp valid
    exact outside ((turnsAway out _ sent (of_decide_eq_true isValid)).resolve_left allowed)
  | accept sent own pending =>
    cases List.mem_singleton.mp mem
    exact outside (turnsAway out _ sent rfl own pending)
  | register registers =>
    rw [rosterChanges_joins] at admissible mem
    obtain ⟨rfl, joins⟩ := admit_mem_joinChanges.mp ⟨role, mem⟩
    rcases turnsAway _ out rfl registers with ⟨invite, found, joined⟩ | ⟨uninvited, lobby⟩
    · exact not_isMember_of_admissible admissible invite found joined
    · rcases joins with ⟨set, -⟩ | ⟨invite, found, -⟩
      · exact outside (lobby serverId set)
      · rw [uninvited] at found
        cases found
  | seed | dissolve | leave | kick | setRole | ban | unban | escalate | execute | adminBan | pardon
  | remint => cases membership

/-- A user who is not let in anywhere is turned away. -/
theorem turnsAway_of_keptOut (membership : request.isMembership)
    (kept : ∀ user ∈ w.out, ∀ serverId, (w.server.step p request).db.IsMember serverId user →
      w.server.db.IsMember serverId user) : TurnsAway p w request := by
  cases request with
  | createServer body userId id room =>
    intro out roomId set
    by_contra open'
    obtain ⟨fresh, free, absent⟩ := not_or.mp open' |>.imp_right not_or.mp
    refine absent (kept userId out id.text (isMember_createServer.mpr (.inr ⟨⟨rfl, rfl⟩, roomId, set,
      fun other mem same => fresh ⟨other, mem, same⟩, absent,
      fun other mem same => free ⟨other, mem, same⟩⟩)))
  | listServers userId joins =>
    intro out lobby set joined
    by_contra absent
    have writes : lobbyJoin w.server.db w.server.settings userId joins =
        [.addMember { serverId := lobby, userId }] := by
      rw [lobbyJoin, Option.mem_def.mp set]
      exact (if_neg absent).trans (if_pos joined)
    have ran : w.server.handle p (.listServers userId joins) = .ok (⟨_, _⟩, w.server.settings) := rfl
    rw [writes] at ran
    refine absent (kept userId out lobby (isMember_step ran ?_ ⟨mt Db.isMember_roster.mp absent, trivial⟩
      ?_ ⟨.member, List.mem_singleton_self _⟩))
    · rintro w (_ | ⟨_, ⟨⟩⟩)
      trivial
    · rintro c (_ | ⟨_, ⟨⟩⟩)
      trivial
  | joinServer serverId userId =>
    intro out server there isPublic
    by_contra neither
    obtain ⟨allowed, absent⟩ := not_or.mp neither
    have ran : w.server.handle p (.joinServer serverId userId) = .ok (⟨_, _⟩, w.server.settings) :=
      map_eq_ok.mpr ⟨_, joinServer_ok.mpr ⟨server, there, isPublic, allowed, absent, rfl⟩, rfl⟩
    refine absent (kept userId out serverId (isMember_step ran ?_
      ⟨mt Db.isMember_roster.mp absent, trivial⟩ ?_ ⟨.member, List.mem_singleton_self _⟩))
    · rintro w (_ | ⟨_, ⟨⟩⟩)
      trivial
    · rintro c (_ | ⟨_, ⟨⟩⟩)
      trivial
  | redeemInvite token userId now =>
    intro out invite sent isValid
    by_contra neither
    obtain ⟨allowed, absent⟩ := not_or.mp neither
    have valid : (w.server.db.inviteByToken? token).filter (fun invite => invite.val.IsValid now) =
        some invite := Option.filter_eq_some_iff.mpr ⟨sent, decide_eq_true isValid⟩
    have ran : w.server.handle p (.redeemInvite token userId now) = .ok (⟨_, _⟩, w.server.settings) :=
      map_eq_ok.mpr ⟨_, redeemInvite_ok.mpr ⟨invite, valid, allowed, (if_neg absent).symm⟩, rfl⟩
    have changes : rosterChanges (.addMember { serverId := invite.val.serverId, userId } ::
        countUse invite) = [.enroll invite.val.serverId userId .member] :=
      congrArg _ (rosterChanges_countUse (some invite))
    refine absent (kept userId out _ (isMember_step ran ?_ ?_ ?_ ⟨.member, ?_⟩))
    · refine List.forall_mem_cons.mpr ⟨trivial, ?_⟩
      unfold countUse
      split
      · rintro w ⟨⟩
      · rintro w (_ | ⟨_, ⟨⟩⟩)
        trivial
    · rw [changes]
      exact ⟨mt Db.isMember_roster.mp absent, trivial⟩
    · rw [changes]
      rintro c (_ | ⟨_, ⟨⟩⟩)
      trivial
    · rw [changes]
      exact List.mem_singleton_self _
  | respondToInvite inviteId accept userId =>
    rintro out invite sent rfl own pending
    by_contra absent
    obtain ⟨⟨body, writes⟩, accepts, rfl⟩ := respondToInvite_accepts sent own pending
    have ran : w.server.handle p (.respondToInvite inviteId true userId) =
        .ok (⟨body, _⟩, w.server.settings) := map_eq_ok.mpr ⟨_, accepts, rfl⟩
    refine absent (kept userId out _ (isMember_step ran ?_ ⟨mt Db.isMember_roster.mp absent, trivial⟩
      ?_ ⟨.member, List.mem_singleton_self _⟩))
    · rintro w (_ | ⟨_, _ | ⟨_, ⟨⟩⟩⟩) <;> trivial
    · rintro c (_ | ⟨_, ⟨⟩⟩)
      trivial
  | registerUser body withinRateLimit now matrix =>
    rintro userId out rfl registers
    by_contra neither
    obtain ⟨outside, unlessInvited⟩ := not_or.mp neither
    have absent : ∀ invite ∈ body.invite? w.server.db now,
        ¬w.server.db.IsMember invite.val.serverId userId :=
      fun invite found member => outside ⟨invite, found, member⟩
    have ran : w.server.handle p (.registerUser body withinRateLimit now (.ok userId)) = .ok _ :=
      registerUser_ok.mpr ⟨registers, userId, rfl, rfl⟩
    have stays {serverId : String} (joins : ∃ role, .enroll serverId userId role ∈
        joinChanges p.toConfig w.server.db w.server.settings body now userId) :
        w.server.db.IsMember serverId userId := by
      refine kept userId out serverId (isMember_step ran registered_unconstrained ?_ ?_ ?_)
      · rw [rosterChanges_registered]
        exact joinChanges_admissible absent
      · rw [rosterChanges_registered]
        exact fun c mem => (joinChanges_joins c mem).keeps
      · rw [rosterChanges_registered]
        exact joins
    refine unlessInvited ⟨?_, fun lobby set => ?_⟩
    · refine Option.eq_none_iff_forall_not_mem.mpr fun invite found => absent invite found ?_
      exact stays (admit_mem_joinChanges.mpr ⟨rfl, .inr ⟨invite, found, rfl⟩⟩)
    · by_contra alone
      exact alone (stays (admit_mem_joinChanges.mpr ⟨rfl, .inl ⟨set, alone⟩⟩))
  | _ => cases membership

/-- One request treats the bans of the instance as they are meant exactly when something else does its
part. -/
theorem global_iff : Global p w request ↔ TurnsAway p w request := by
  constructor
  · intro h
    cases request with
    | adminUnbanUser target userId => exact serverBans_adminUnban.mp (h.independent rfl)
    | createServer | listServers | joinServer | redeemInvite | respondToInvite | registerUser =>
      exact turnsAway_of_keptOut rfl (h.keptOut rfl)
    | _ => trivial
  · intro turnsAway
    refine ⟨fun membership user out serverId after =>
      keptOut_of_turnsAway turnsAway membership out after, fun admin => ?_⟩
    cases request with
    | adminBanUser target userId => exact serverBans_adminBan
    | adminUnbanUser target userId => exact serverBans_adminUnban.mpr turnsAway
    | _ => cases admin

end

/-- In every run, nobody who is banned from the instance is let in and the bans of servers stay as they
are exactly when something else turns the user away each time, and nobody is pardoned who is banned
from a server. -/
theorem global_along_iff (p : Process) (settings : Settings) (requests : List Request) :
    Along (Watch.step p) (Global p) ⟨⟨{}, settings⟩, []⟩ requests ↔
      Along (Watch.step p) (TurnsAway p) ⟨⟨{}, settings⟩, []⟩ requests :=
  along_congr (fun _ => True) (fun _ _ _ => trivial) (fun _ _ _ => global_iff) trivial

/-- A user who is banned from the instance joins a public server. -/
theorem banned_from_all_but_joins : ¬∀ requests : List Request,
    Along (Watch.step { adminUserIds := ["@admin:localhost"] })
      (Global { adminUserIds := ["@admin:localhost"] }) {} requests := by
  intro h
  have kept := h [.createServer ⟨"Home", .publicServer, none⟩ "@alice:localhost" ⟨"srv", by decide⟩
      (some "!general:localhost"),
    .adminBanUser "@mallory:localhost" "@admin:localhost",
    .joinServer "srv" "@mallory:localhost"]
  exact absurd (kept.2.2.1.keptOut rfl "@mallory:localhost" (by decide) "srv" (by decide)) (by decide)

end Concorrd.Api
