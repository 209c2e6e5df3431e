import Concorrd.Api.Moves

/-!
# Banned users and members

A ban is meant to end a membership and to keep the user out. Some routes see to it and some do not: a
user is banned and a member at once exactly when a user who is banned is let in by the lobby, a direct
invite or a registration, or a kick escalates to a ban (`noBannedMember_along_iff`).
-/

namespace Concorrd.Api

open Machine

/-- The user is banned from a server, and not only from the instance. -/
def Roster.BannedFrom (r : Roster) (serverId userId : String) : Prop :=
  serverId ≠ instanceWide ∧ r.IsBanned serverId userId

/-- The bans of servers are bans of servers that are there, and no server has the id that stands for
all of them. -/
structure Roster.Sound (r : Roster) : Prop where
  named : ∀ o ∈ r.owners, o.1 ≠ instanceWide
  refer : ∀ serverId userId, r.BannedFrom serverId userId → ∃ o ∈ r.owners, o.1 = serverId

/-- No user is both banned from a server and a member of it. -/
def Roster.NoBannedMember (r : Roster) : Prop :=
  ∀ serverId userId, r.IsMember serverId userId → ¬r.BannedFrom serverId userId

namespace Roster

variable {r : Roster} {serverId userId : String} {c : RosterChange} {cs : List RosterChange}

/-- The change founds no server under the id of all, and bans from a server that is there. -/
def Lawful (r : Roster) : RosterChange → Prop
  | .establish serverId _ => serverId ≠ instanceWide
  | .ban serverId _ => serverId ≠ instanceWide → ∃ o ∈ r.owners, o.1 = serverId
  | _ => True

theorem sound_change (h : r.Sound) (lawful : r.Lawful c) : (r.change c).Sound := by
  cases c with
  | establish server owner =>
    refine ⟨fun o mem => ?_, fun s u banned => ?_⟩
    · rcases List.mem_append.mp mem with mem | mem
      · exact h.named o mem
      · rw [List.mem_singleton.mp mem]
        exact lawful
    · obtain ⟨o, mem, same⟩ := h.refer s u banned
      exact ⟨o, List.mem_append_left _ mem, same⟩
  | handOver server owner =>
    refine ⟨fun o mem => ?_, fun s u banned => ?_⟩
    · obtain ⟨o', there, rfl⟩ := List.mem_map.mp mem
      split
      · exact h.named o' there
      · exact h.named o' there
    · obtain ⟨o, mem, same⟩ := h.refer s u banned
      refine ⟨_, List.mem_map.mpr ⟨o, mem, rfl⟩, ?_⟩
      split
      · exact same
      · exact same
  | dissolve server =>
    refine ⟨fun o mem => h.named o (List.mem_filter.mp mem).1, fun s u banned => ?_⟩
    obtain ⟨there, other⟩ := List.mem_filter.mp banned.2
    obtain ⟨o, mem, same⟩ := h.refer s u ⟨banned.1, there⟩
    exact ⟨o, List.mem_filter.mpr ⟨mem, by rwa [same]⟩, same⟩
  | ban server user =>
    refine ⟨h.named, fun s u banned => ?_⟩
    rcases isBanned_ban.mp banned.2 with there | ⟨rfl, rfl⟩
    · exact h.refer s u ⟨banned.1, there⟩
    · exact lawful banned.1
  | unban | pardon =>
    exact ⟨h.named, fun s u banned => h.refer s u ⟨banned.1, (List.mem_filter.mp banned.2).1⟩⟩
  | enroll | setRole | drop => exact ⟨h.named, h.refer⟩

/-- Changes that let nobody in who is banned, and ban nobody, keep members and banned users apart. -/
theorem noBannedMember_run (h : r.NoBannedMember)
    (admitted : ∀ s u role, .enroll s u role ∈ cs → ¬r.BannedFrom s u)
    (quiet : ∀ s u, .ban s u ∉ cs) : (run change r cs).NoBannedMember := by
  intro s u member banned
  have before : r.BannedFrom s u := ⟨banned.1, (isBanned_run banned.2).resolve_right (quiet s u)⟩
  rcases isMember_run member with member | ⟨role, mem⟩
  · exact h s u member before
  · exact admitted s u role mem before

/-- A ban of somebody who is no member keeps them apart. -/
theorem noBannedMember_ban (h : r.NoBannedMember)
    (outside : r.IsMember serverId userId → serverId = instanceWide) :
    (r.change (.ban serverId userId)).NoBannedMember := by
  intro s u member banned
  rcases isBanned_ban.mp banned.2 with before | ⟨rfl, rfl⟩
  · exact h s u member ⟨banned.1, before⟩
  · exact banned.1 (outside member)

end Roster

variable {p : Process} {s : Instance} {changes : List RosterChange} {request : Request}

theorem mem_owners_of_server? {db : Db} {serverId : String} {server : Server}
    (h : db.server? serverId = some server) : (serverId, server.ownerId) ∈ db.roster.owners := by
  rw [← server?_id h]
  exact List.mem_map.mpr ⟨server, List.mem_of_find?_eq_some h, rfl⟩

/-- What a request does is lawful. -/
theorem Moves.lawful (h : Moves p s request changes) :
    Along Roster.change Roster.Lawful s.db.roster changes := by
  have there {serverId : String} {server : Server} (h : s.db.server? serverId = some server) :
      ∃ o ∈ s.db.roster.owners, o.1 = serverId := ⟨_, mem_owners_of_server? h, rfl⟩
  cases h with
  | seed | create => exact ⟨DrawnId.nonempty _, trivial, trivial⟩
  | ban server => exact ⟨fun _ => there server, trivial, trivial⟩
  | escalate server => exact ⟨fun _ => there server, trivial⟩
  | execute vote passed server => exact ⟨fun _ => there server, trivial⟩
  | adminBan => exact ⟨fun h => absurd rfl h, trivial⟩
  | none => trivial
  | dissolve | lobby | join | redeem | accept | leave | kick | setRole | unban | pardon =>
    exact ⟨trivial, trivial⟩
  | register registers =>
    rw [rosterChanges_joins]
    refine Along.of_mem (R := RosterChange.Joins) (fun r c joins => ?_) joinChanges_joins
    cases c <;> trivial
  | remint =>
    refine ⟨DrawnId.nonempty _, trivial, ?_⟩
    refine Along.of_mem (R := RosterChange.Joins) (fun r c joins => ?_) fun c mem => ?_
    · cases c <;> trivial
    · obtain ⟨member, -, rfl⟩ := List.mem_map.mp mem
      trivial

theorem sound_step (h : s.db.roster.Sound) (request : Request) :
    (s.step p request).db.roster.Sound := by
  obtain ⟨changes, moves, -, after⟩ := step_moves (p := p) (s := s) request
  rw [after]
  exact invariant Roster.Sound (fun r c lawful h => Roster.sound_change h lawful) moves.lawful h

/-- The user is banned from a server, and not only from the instance. -/
def Db.BannedFrom (db : Db) (serverId userId : String) : Prop :=
  serverId ≠ instanceWide ∧ db.IsBanned serverId userId

theorem bannedFrom_roster {db : Db} {serverId userId : String} :
    db.roster.BannedFrom serverId userId ↔ db.BannedFrom serverId userId :=
  and_congr_right fun _ => Db.isBanned_roster

/-- The request lets nobody in who is banned, and bans no member. Joining, redeeming an invite,
banning and everything else never do. -/
def Spares (p : Process) (s : Instance) : Request → Prop
  | .listServers userId joins => ∀ lobby ∈ s.settings.lobby?,
    ((s.db.channelsOf lobby).all fun channel => joins channel.val.matrixRoomId) = true →
      ¬s.db.BannedFrom lobby userId
  | .respondToInvite inviteId accept userId => ∀ invite ∈ s.db.directInvites.get inviteId,
    accept = true → invite.inviteeId = userId → invite.status = .pending →
      ¬s.db.BannedFrom invite.serverId userId
  | .registerUser body withinRateLimit now matrix => ∀ userId, matrix = .ok userId →
    Registers p.toConfig s.db s.settings body withinRateLimit now →
    (∀ invite ∈ body.invite? s.db now, ¬s.db.IsMember invite.val.serverId userId) →
      (∀ lobby ∈ body.lobby? s.db s.settings now, ¬s.db.BannedFrom lobby userId) ∧
        ∀ invite ∈ body.invite? s.db now, ¬s.db.BannedFrom invite.val.serverId userId
  | .kickUser serverId targetUserId userId now =>
    MayKick s.db serverId targetUserId userId → ∀ server ∈ s.db.server? serverId,
      ¬Escalates s.db server targetUserId now
  | .executeVoteKick voteId now => ∀ vote ∈ s.db.voteKicks.get voteId, vote.status = .passed →
    ∀ server ∈ s.db.server? vote.serverId, Escalates s.db server vote.targetUserId now →
      ¬s.db.IsMember vote.serverId vote.targetUserId
  | _ => True

/-- A new server bans nobody yet. -/
theorem not_bannedFrom_new (h : s.db.roster.Sound) {serverId ownerId userId : String}
    (new : s.db.roster.Admissible (.establish serverId ownerId)) :
    ¬s.db.roster.BannedFrom serverId userId := by
  intro banned
  obtain ⟨o, mem, same⟩ := h.refer serverId userId banned
  exact new o mem same

theorem rehydrateMembers_serverId {id : String} {seen : List String} {entries : List MemberEntry} :
    ∀ member ∈ rehydrateMembers id seen entries, member.serverId = id := by
  induction entries generalizing seen with
  | nil => rintro member ⟨⟩
  | cons entry entries ih =>
    unfold rehydrateMembers
    split
    · exact ih
    · exact List.forall_mem_cons.mpr ⟨rfl, ih⟩

/-- Who spares the roster keeps members and banned users apart. -/
theorem noBannedMember_of_spares (sound : s.db.roster.Sound) (h : s.db.roster.NoBannedMember)
    (spares : Spares p s request) : (s.step p request).db.roster.NoBannedMember := by
  obtain ⟨changes, moves, admissible, after⟩ := step_moves (p := p) (s := s) request
  rw [after]
  have one {serverId userId : String} {role : Role} (allowed : ¬s.db.BannedFrom serverId userId) :
      (run Roster.change s.db.roster [.enroll serverId userId role]).NoBannedMember := by
    refine Roster.noBannedMember_run h (fun s' u role' mem => ?_) fun s' u mem => ?_
    · cases List.mem_singleton.mp mem
      exact mt bannedFrom_roster.mp allowed
    · cases List.mem_singleton.mp mem
  have none' {c : RosterChange} (noAdmit : ∀ s' u role, c ≠ .enroll s' u role)
      (noBan : ∀ s' u, c ≠ .ban s' u) : (run Roster.change s.db.roster [c]).NoBannedMember := by
    refine Roster.noBannedMember_run h (fun s' u role mem => ?_) fun s' u mem => ?_
    · exact absurd (List.mem_singleton.mp mem).symm (noAdmit s' u role)
    · exact absurd (List.mem_singleton.mp mem).symm (noBan s' u)
  cases moves with
  | none => exact h
  | seed | create =>
    refine Roster.noBannedMember_run h (fun s' u role mem => ?_) fun s' u mem => ?_
    · rcases List.mem_pair.mp mem with mem | mem
      · cases mem
      · cases mem
        exact not_bannedFrom_new sound admissible.1
    · rcases List.mem_pair.mp mem with mem | mem <;> cases mem
  | lobby set joined => exact one (spares _ set joined)
  | join there isPublic allowed => exact one fun banned => allowed banned.2
  | redeem valid allowed => exact one fun banned => allowed banned.2
  | accept sent own pending => exact one (spares _ sent rfl own pending)
  | dissolve | leave | kick | setRole | unban | pardon =>
    exact none' (fun _ _ _ h => by cases h) fun _ _ h => by cases h
  | register registers =>
    rw [rosterChanges_joins] at admissible ⊢
    obtain ⟨lobby, invited⟩ := spares _ rfl registers (not_isMember_of_admissible admissible)
    refine Roster.noBannedMember_run h (fun s' u role mem => ?_) fun s' u mem => ?_
    · rw [bannedFrom_roster]
      obtain ⟨rfl, ⟨set, -⟩ | ⟨invite, found, rfl⟩⟩ := admit_mem_joinChanges.mp ⟨role, mem⟩
      · exact lobby s' set
      · exact invited invite found
    · exact joinChanges_joins _ mem
  | ban there spared =>
    intro s' u member banned
    obtain ⟨member, other⟩ := Roster.isMember_drop.mp member
    rcases Roster.isBanned_ban.mp banned.2 with before | same
    · exact h s' u member ⟨banned.1, before⟩
    · exact other same
  | escalate there mayKick oneTooMany => exact absurd oneTooMany (spares mayKick _ there)
  | execute vote passed server oneTooMany =>
    refine Roster.noBannedMember_ban h fun member => ?_
    exact absurd (Db.isMember_roster.mp member) (spares _ vote passed _ server oneTooMany)
  | adminBan => exact Roster.noBannedMember_ban h fun _ => rfl
  | remint there own other =>
    refine Roster.noBannedMember_run h (fun s' u role mem => ?_) fun s' u mem => ?_
    · rcases List.mem_cons.mp mem with mem | mem
      · cases mem
      · rcases List.mem_cons.mp mem with mem | mem
        · cases mem
          exact not_bannedFrom_new sound admissible.1
        · obtain ⟨member, there, same⟩ := List.mem_map.mp mem
          cases same
          rw [rehydrateMembers_serverId member there]
          exact not_bannedFrom_new sound admissible.1
    · rcases List.mem_cons.mp mem with mem | mem
      · cases mem
      · rcases List.mem_cons.mp mem with mem | mem
        · cases mem
        · obtain ⟨member, -, same⟩ := List.mem_map.mp mem
          cases same

/-- Whoever lets a banned user in, or bans a member, does not keep them apart. -/
theorem not_noBannedMember {done : Reply × Settings} {serverId userId : String}
    (ran : s.handle p request = .ok done) (free : ∀ w ∈ done.1.writes, w.Unconstrained)
    (admissible : Along Roster.change Roster.Admissible s.db.roster (rosterChanges done.1.writes))
    (keeps : ∀ c ∈ rosterChanges done.1.writes, Roster.Keeps c)
    (member : s.db.IsMember serverId userId ∨
      ∃ role, .enroll serverId userId role ∈ rosterChanges done.1.writes)
    (banned : serverId ≠ instanceWide ∧ (s.db.IsBanned serverId userId ∨
      .ban serverId userId ∈ rosterChanges done.1.writes)) :
    ¬(s.step p request).db.roster.NoBannedMember := by
  rw [roster_step ran free admissible]
  intro h
  exact h serverId userId
    (Roster.isMember_run_of_mem keeps (member.imp_left Db.isMember_roster.mpr))
    ⟨banned.1, Roster.isBanned_run_of_mem keeps (banned.2.imp_left Db.isBanned_roster.mpr)⟩

theorem spares_of_noBannedMember (sound : s.db.roster.Sound) (h : s.db.roster.NoBannedMember)
    (after : (s.step p request).db.roster.NoBannedMember) : Spares p s request := by
  have apart {serverId userId : String} (banned : s.db.BannedFrom serverId userId) :
      ¬s.db.IsMember serverId userId :=
    fun member => h serverId userId (Db.isMember_roster.mpr member) (bannedFrom_roster.mpr banned)
  cases request with
  | listServers userId joins =>
    intro lobby set joined banned
    have absent := apart banned
    have writes : lobbyJoin s.db s.settings userId joins =
        [.addMember { serverId := lobby, userId }] := by
      rw [lobbyJoin, Option.mem_def.mp set]
      exact (if_neg absent).trans (if_pos joined)
    have ran : s.handle p (.listServers userId joins) = .ok (⟨_, _⟩, s.settings) := rfl
    rw [writes] at ran
    refine not_noBannedMember ran ?_ ⟨mt Db.isMember_roster.mp absent, trivial⟩ ?_
      (.inr ⟨.member, List.mem_singleton_self _⟩) ⟨banned.1, .inl banned.2⟩ after
    · rintro w (_ | ⟨_, ⟨⟩⟩)
      trivial
    · rintro c (_ | ⟨_, ⟨⟩⟩)
      trivial
  | respondToInvite inviteId accept userId =>
    rintro invite sent rfl own pending banned
    obtain ⟨⟨body, writes⟩, accepts, rfl⟩ := respondToInvite_accepts sent own pending
    have ran : s.handle p (.respondToInvite inviteId true userId) = .ok (⟨body, _⟩, s.settings) :=
      map_eq_ok.mpr ⟨_, accepts, rfl⟩
    refine not_noBannedMember ran ?_
      ⟨mt Db.isMember_roster.mp (apart banned), trivial⟩ ?_
      (.inr ⟨.member, List.mem_singleton_self _⟩) ⟨banned.1, .inl banned.2⟩ after
    · rintro w (_ | ⟨_, _ | ⟨_, ⟨⟩⟩⟩) <;> trivial
    · rintro c (_ | ⟨_, ⟨⟩⟩)
      trivial
  | registerUser body withinRateLimit now matrix =>
    rintro userId rfl registers outside
    have ran : s.handle p (.registerUser body withinRateLimit now (.ok userId)) = .ok _ :=
      registerUser_ok.mpr ⟨registers, userId, rfl, rfl⟩
    have changes : rosterChanges (registered p.toConfig s.db s.settings body now userId).1.writes =
        joinChanges p.toConfig s.db s.settings body now userId := rosterChanges_registered
    have violated {serverId : String} (banned : s.db.BannedFrom serverId userId)
        (joins : ∃ role, .enroll serverId userId role ∈
          joinChanges p.toConfig s.db s.settings body now userId) : False := by
      refine not_noBannedMember ran registered_unconstrained ?_ ?_ (.inr ?_)
        ⟨banned.1, .inl banned.2⟩ after
      · rw [changes]
        exact joinChanges_admissible outside
      · rw [changes]
        exact fun c mem => (joinChanges_joins c mem).keeps
      · rw [changes]
        exact joins
    refine ⟨fun lobby set banned => ?_, fun invite found banned => ?_⟩
    · exact violated banned (admit_mem_joinChanges.mpr ⟨rfl, .inl ⟨set, apart banned⟩⟩)
    · exact violated banned (admit_mem_joinChanges.mpr ⟨rfl, .inr ⟨invite, found, rfl⟩⟩)
  | kickUser serverId targetUserId userId now =>
    intro mayKick server there oneTooMany
    have named : serverId ≠ instanceWide := sound.named _ (mem_owners_of_server? there)
    have free : ¬s.db.IsBanned serverId targetUserId := fun banned => apart ⟨named, banned⟩ mayKick.2
    have ran : s.handle p (.kickUser serverId targetUserId userId now) = .ok (⟨_, _⟩, s.settings) :=
      map_eq_ok.mpr ⟨_, kickUser_ok.mpr ⟨mayKick, server, there, rfl⟩, rfl⟩
    rw [escalation, server?_id there, if_pos ⟨oneTooMany, free⟩] at ran
    refine not_noBannedMember ran ?_ ⟨mt Db.isBanned_roster.mp free, trivial⟩ ?_
      (.inl mayKick.2) ⟨named, .inr (List.mem_singleton_self _)⟩ after
    · rintro w (_ | ⟨_, _ | ⟨_, ⟨⟩⟩⟩) <;> trivial
    · rintro c (_ | ⟨_, ⟨⟩⟩)
      trivial
  | executeVoteKick voteId now =>
    intro vote there passed server server? oneTooMany member
    have named : vote.serverId ≠ instanceWide := sound.named _ (mem_owners_of_server? server?)
    have free : ¬s.db.IsBanned vote.serverId vote.targetUserId :=
      fun banned => apart ⟨named, banned⟩ member
    have ran : s.handle p (.executeVoteKick voteId now) = .ok (⟨_, _⟩, s.settings) :=
      map_eq_ok.mpr ⟨_, executeVoteKick_ok.mpr ⟨vote, there, .inr ⟨passed, server, server?, rfl⟩⟩, rfl⟩
    rw [escalation, server?_id server?, if_pos ⟨oneTooMany, free⟩] at ran
    refine not_noBannedMember ran ?_ ⟨mt Db.isBanned_roster.mp free, trivial⟩ ?_
      (.inl member) ⟨named, .inr (List.mem_singleton_self _)⟩ after
    · rintro w (_ | ⟨_, _ | ⟨_, _ | ⟨_, ⟨⟩⟩⟩⟩) <;> trivial
    · rintro c (_ | ⟨_, ⟨⟩⟩)
      trivial
  | _ => trivial

/-- No user is both banned from a server and a member of it. -/
def Db.NoBannedMember (db : Db) : Prop :=
  ∀ serverId userId, db.IsMember serverId userId → ¬db.BannedFrom serverId userId

theorem noBannedMember_roster {db : Db} : db.roster.NoBannedMember ↔ db.NoBannedMember :=
  forall₂_congr fun _ _ => imp_congr Db.isMember_roster (not_congr bannedFrom_roster)

theorem sound_empty : ({} : Db).roster.Sound where
  named o mem := by cases mem
  refer serverId userId banned := by cases banned.2

/-- In every run, members and banned users are apart in every state exactly when every request spares
them: the lobby, direct invites and registrations let nobody in who is banned, and no kick escalates
to the ban of a member. -/
theorem noBannedMember_along_iff (p : Process) (settings : Settings) (requests : List Request) :
    Along (Instance.step p) (fun s request => (s.step p request).db.NoBannedMember)
        ⟨{}, settings⟩ requests ↔
      Along (Instance.step p) (Spares p) ⟨{}, settings⟩ requests := by
  have sound : Along (Instance.step p) (fun s _ => s.db.roster.Sound) ⟨{}, settings⟩ requests :=
    (Along.of_forall (P := fun _ _ => True) fun _ _ => trivial).of_invariant
      (fun s => s.db.roster.Sound) (fun _ request _ h => sound_step h request) (fun _ _ _ h => h)
      sound_empty
  refine along_step_iff_of (fun s => s.db.NoBannedMember) sound
    (fun s request sound h => ?_) fun serverId userId member => ?_
  · rw [← noBannedMember_roster] at h ⊢
    exact ⟨spares_of_noBannedMember sound h, noBannedMember_of_spares sound h⟩
  · obtain ⟨row, mem, -⟩ := member
    cases mem

def mallory : UserIdField := ⟨"@mallory:localhost", by decide, by decide⟩

/-- A direct invite outlives the ban of the invited. -/
theorem invited_then_banned : ¬∀ requests : List Request,
    Along (Instance.step {}) (fun s request => (s.step {} request).db.NoBannedMember) {} requests := by
  intro h
  have kept := h [.createServer ⟨"Home", .privateServer, none⟩ "@alice:localhost" ⟨"srv", by decide⟩
      (some "!general:localhost"),
    .sendDirectInvite "srv" mallory.text "@alice:localhost",
    .banUser "srv" mallory "@alice:localhost" fun _ => true,
    .respondToInvite 1 true mallory.text]
  exact kept.2.2.2.1 "srv" mallory.text (by decide) ⟨by decide, by decide⟩

end Concorrd.Api
