import Concorrd.Api.BannedMembers

/-!
# Owners

A server has one owner, who is a member in that role and is never banned from it. Every route keeps
this but a kick or a vote that escalates to a ban of the owner, and the registration that takes the
lobby over from the bot, when the new account is banned from it or is the bot's
(`ownersProtected_along_iff`).
-/

namespace Concorrd.Api

open Machine

namespace Roster

/-- The user is a member in the role of an owner. -/
def IsOwner (r : Roster) (serverId userId : String) : Prop := (serverId, userId, .owner) ∈ r.members

/-- Nobody is a member twice, and who is an owner is one of a server that is there. -/
structure Proper (r : Roster) : Prop where
  sound : r.Sound
  distinct : (r.members.map fun m => (m.1, m.2.1)).Nodup
  backed : ∀ serverId userId, r.IsOwner serverId userId → ∃ o ∈ r.owners, o.1 = serverId

/-- The owner of each server is the one member in that role, and is not banned from it. -/
def Guarded (r : Roster) : Prop :=
  ∀ o ∈ r.owners, (∀ userId, r.IsOwner o.1 userId ↔ userId = o.2) ∧ ¬r.IsBanned o.1 o.2

section

variable {r : Roster} {serverId userId server user : String} {role : Role} {c : RosterChange}
  {cs : List RosterChange}

@[simp] theorem isOwner_enroll : (r.change (.enroll server user role)).IsOwner serverId userId ↔
    r.IsOwner serverId userId ∨ (serverId = server ∧ userId = user) ∧ role = .owner := by
  simp only [IsOwner, change, List.mem_append, List.mem_singleton, Prod.mk.injEq, and_assoc,
    eq_comm]

@[simp] theorem isOwner_drop : (r.change (.drop server user)).IsOwner serverId userId ↔
    r.IsOwner serverId userId ∧ ¬(serverId = server ∧ userId = user) := by
  simp only [IsOwner, change, List.mem_filter, decide_eq_true_eq]

@[simp] theorem isOwner_dissolve : (r.change (.dissolve server)).IsOwner serverId userId ↔
    r.IsOwner serverId userId ∧ serverId ≠ server := by
  simp only [IsOwner, change, List.mem_filter, decide_eq_true_eq]

@[simp] theorem isOwner_setRole : (r.change (.setRole server user role)).IsOwner serverId userId ↔
    if serverId = server ∧ userId = user then r.IsMember server user ∧ role = .owner
    else r.IsOwner serverId userId := by
  simp only [IsOwner, IsMember, change, List.mem_map]
  split
  · rename_i here
    obtain ⟨rfl, rfl⟩ := here
    constructor
    · rintro ⟨⟨s, u, role'⟩, there, same⟩
      dsimp only at same
      split at same
      · rename_i here
        obtain ⟨rfl, rfl⟩ := here
        cases same
        exact ⟨⟨role', there⟩, rfl⟩
      · rename_i other
        cases same
        exact absurd ⟨rfl, rfl⟩ other
    · rintro ⟨⟨role', there⟩, rfl⟩
      exact ⟨_, there, if_pos ⟨rfl, rfl⟩⟩
  · rename_i other
    constructor
    · rintro ⟨⟨s, u, role'⟩, there, same⟩
      dsimp only at same
      split at same
      · rename_i here
        cases same
        exact absurd here other
      · cases same
        exact there
    · intro there
      exact ⟨_, there, if_neg other⟩

/-- The role of a member. -/
theorem role?_eq_some (distinct : (r.members.map fun m => (m.1, m.2.1)).Nodup) :
    r.role? serverId userId = some role ↔ (serverId, userId, role) ∈ r.members := by
  unfold role?
  rw [Option.map_eq_some_iff]
  constructor
  · rintro ⟨⟨s, u, role'⟩, found, rfl⟩
    have same := List.find?_some found
    obtain ⟨rfl, rfl⟩ := of_decide_eq_true same
    exact List.mem_of_find?_eq_some found
  · intro mem
    cases found : r.members.find? fun m => m.1 = serverId ∧ m.2.1 = userId with
    | none => exact absurd (decide_eq_true ⟨rfl, rfl⟩) (List.find?_eq_none.mp found _ mem)
    | some m =>
      have same := List.find?_some found
      obtain ⟨here, whose⟩ := of_decide_eq_true same
      have one := List.inj_on_of_nodup_map distinct (List.mem_of_find?_eq_some found) mem
        (Prod.ext here whose)
      exact ⟨m, rfl, congrArg (fun m => m.2.2) one⟩

/-- A member in another role is no owner. -/
theorem not_isOwner_of_role? (proper : r.Proper) (there : r.role? serverId userId = some role)
    (other : role ≠ .owner) : ¬r.IsOwner serverId userId := by
  intro owner
  rw [(role?_eq_some proper.distinct).mpr owner] at there
  cases there
  exact other rfl

/-! ### What keeps a roster proper -/

/-- Owners are made of servers that are there. -/
def Supported (r : Roster) : RosterChange → Prop
  | .enroll serverId _ role | .setRole serverId _ role =>
    role = .owner → ∃ o ∈ r.owners, o.1 = serverId
  | _ => True

theorem supported_member : r.Supported (.enroll serverId userId .member) := by
  rintro ⟨⟩

theorem proper_change (h : r.Proper) (lawful : r.Lawful c) (admissible : r.Admissible c)
    (supported : r.Supported c) : (r.change c).Proper := by
  refine ⟨sound_change h.sound lawful, ?_, fun serverId userId owner => ?_⟩
  · cases c with
    | establish | handOver | ban | unban | pardon => exact h.distinct
    | dissolve | drop => exact h.distinct.sublist (List.filter_sublist.map _)
    | enroll server user role =>
      rw [change, List.map_append]
      refine h.distinct.append (List.nodup_singleton _) ?_
      intro key before new
      obtain ⟨⟨s, u, role'⟩, there, rfl⟩ := List.mem_map.mp before
      cases List.mem_singleton.mp new
      exact admissible ⟨role', there⟩
    | setRole server user role =>
      have keys : ((r.change (.setRole server user role)).members.map fun m => (m.1, m.2.1)) =
          r.members.map fun m => (m.1, m.2.1) := by
        rw [change, List.map_map]
        refine List.map_congr_left fun m _ => ?_
        simp only [Function.comp_apply]
        split <;> rfl
      rw [keys]
      exact h.distinct
  · cases c with
    | establish server user =>
      obtain ⟨o, mem, same⟩ := h.backed _ _ owner
      exact ⟨o, List.mem_append_left _ mem, same⟩
    | handOver server user =>
      obtain ⟨o, mem, same⟩ := h.backed _ _ owner
      refine ⟨_, List.mem_map.mpr ⟨o, mem, rfl⟩, ?_⟩
      split <;> exact same
    | dissolve server =>
      obtain ⟨owner, other⟩ := isOwner_dissolve.mp owner
      obtain ⟨o, mem, same⟩ := h.backed _ _ owner
      exact ⟨o, List.mem_filter.mpr ⟨mem, decide_eq_true (same ▸ other)⟩, same⟩
    | enroll server user role =>
      rcases isOwner_enroll.mp owner with before | ⟨⟨rfl, -⟩, new⟩
      · exact h.backed _ _ before
      · exact supported new
    | setRole server user role =>
      rw [isOwner_setRole] at owner
      split at owner
      · rename_i here
        rw [here.1]
        exact supported owner.2
      · exact h.backed _ _ owner
    | drop => exact h.backed _ _ (isOwner_drop.mp owner).1
    | ban | unban | pardon => exact h.backed _ _ owner

/-! ### What keeps the owners -/

/-- The change has nothing to do with owners. -/
def Harmless (r : Roster) : RosterChange → Prop
  | .enroll _ _ role => role ≠ .owner
  | .drop serverId userId => ¬r.IsOwner serverId userId
  | .setRole serverId userId role => role ≠ .owner ∧ ¬r.IsOwner serverId userId
  | .ban serverId userId => (serverId, userId) ∉ r.owners
  | .dissolve _ | .unban _ _ | .pardon _ => True
  | .establish _ _ | .handOver _ _ => False

theorem guarded_change (h : r.Guarded) (harmless : r.Harmless c) : (r.change c).Guarded := by
  cases c with
  | establish | handOver => exact harmless.elim
  | enroll server user role =>
    intro o mem
    refine ⟨fun userId => ?_, (h o mem).2⟩
    rw [isOwner_enroll, (h o mem).1]
    exact or_iff_left fun new => harmless new.2
  | drop server user =>
    intro o mem
    refine ⟨fun userId => ?_, (h o mem).2⟩
    rw [isOwner_drop, ← (h o mem).1]
    refine and_iff_left_of_imp ?_
    rintro owner ⟨same, rfl⟩
    exact harmless (same ▸ owner)
  | setRole server user role =>
    intro o mem
    refine ⟨fun userId => ?_, (h o mem).2⟩
    rw [isOwner_setRole, ← (h o mem).1]
    split
    · rename_i here
      rw [here.1, here.2]
      exact iff_of_false (fun new => harmless.1 new.2) harmless.2
    · exact Iff.rfl
  | ban server user =>
    intro o mem
    refine ⟨(h o mem).1, fun banned => ?_⟩
    rcases isBanned_ban.mp banned with before | ⟨same, same'⟩
    · exact (h o mem).2 before
    · exact harmless (by rwa [← same, ← same'])
  | dissolve server =>
    intro o mem
    obtain ⟨there, other⟩ := List.mem_filter.mp mem
    refine ⟨fun userId => ?_, fun banned => (h o there).2 (List.mem_filter.mp banned).1⟩
    rw [isOwner_dissolve, (h o there).1]
    exact and_iff_left (of_decide_eq_true other)
  | unban | pardon =>
    intro o mem
    exact ⟨(h o mem).1, fun banned => (h o mem).2 (List.mem_filter.mp banned).1⟩

/-- Members who are no owners may join. -/
theorem guarded_members
    (members : ∀ c ∈ cs, ∃ serverId userId role, c = .enroll serverId userId role ∧ role ≠ .owner) :
    (run change r cs).Guarded ↔ r.Guarded := by
  induction cs generalizing r with
  | nil => exact Iff.rfl
  | cons c cs ih =>
    obtain ⟨⟨server, user, role, rfl, other⟩, rest⟩ := List.forall_mem_cons.mp members
    refine (ih rest).trans ?_
    have owner (serverId userId : String) : (r.change (.enroll server user role)).IsOwner serverId
        userId ↔ r.IsOwner serverId userId := isOwner_enroll.trans (or_iff_left fun new => other new.2)
    exact forall₂_congr fun o _ => and_congr_left fun _ => forall_congr' fun userId =>
      iff_congr (owner _ _) Iff.rfl

/-- A new server comes with its owner. -/
theorem guarded_found (h : r.Guarded) (proper : r.Proper) (named : server ≠ instanceWide)
    (fresh : r.Admissible (.establish server user)) :
    ((r.change (.establish server user)).change (.enroll server user .owner)).Guarded := by
  intro o mem
  rcases List.mem_append.mp mem with there | new
  · refine ⟨fun userId => ?_, (h o there).2⟩
    rw [← (h o there).1]
    exact isOwner_enroll.trans (or_iff_left fun new => fresh o there new.1.1)
  · rw [List.mem_singleton.mp new]
    refine ⟨fun userId => ?_, fun banned => ?_⟩
    · refine isOwner_enroll.trans ((or_iff_right ?_).trans ?_)
      · intro owner
        obtain ⟨o', there, same⟩ := proper.backed _ _ owner
        exact fresh o' there same
      · exact (and_iff_left rfl).trans (and_iff_right rfl)
    · obtain ⟨o', there, same⟩ := proper.sound.refer server user ⟨named, banned⟩
      exact fresh o' there same

/-- Who is made an owner is one beside those before. -/
theorem isOwner_promoted {lobby : String} {joined : Prop} [Decidable joined]
    (present : joined ↔ r.IsMember lobby userId) :
    (r.change (if joined then .setRole lobby userId .owner
      else .enroll lobby userId .owner)).IsOwner serverId user ↔
    r.IsOwner serverId user ∨ serverId = lobby ∧ user = userId := by
  split
  · rename_i there
    rw [isOwner_setRole]
    split
    · rename_i here
      exact iff_of_true ⟨present.mp there, rfl⟩ (.inr here)
    · rename_i other
      exact (or_iff_left other).symm
  · exact isOwner_enroll.trans (or_congr_right (and_iff_left rfl))

/-- The bot gives the lobby up to whoever is made an owner of it and is not the bot. -/
theorem role?_promoted {lobby bot : String} {joined : Prop} [Decidable joined] (proper : r.Proper)
    (present : joined ↔ r.IsMember lobby userId) (there : ∃ o ∈ r.owners, o.1 = lobby)
    (owner : r.IsOwner lobby bot) :
    (r.change (if joined then .setRole lobby userId .owner
      else .enroll lobby userId .owner)).role? lobby bot = some .owner := by
  refine (role?_eq_some (Proper.distinct ?_)).mpr ((isOwner_promoted present).mpr (.inl owner))
  split
  · exact proper_change proper trivial trivial fun _ => there
  · rename_i absent
    exact proper_change proper trivial (fun member => absent (present.mpr member)) fun _ => there

/-- Who is made an owner beside the bot, and is neither the bot nor banned, is the one owner once the
bot has given the lobby up. -/
theorem guarded_handOver {mid : Roster} {lobby bot : String} (h : r.Guarded)
    (owned : (lobby, bot) ∈ r.owners) (apart : userId ≠ bot) (allowed : ¬r.IsBanned lobby userId)
    (owners : mid.owners = r.owners) (bans : mid.bans = r.bans)
    (owner : ∀ server user, mid.IsOwner server user ↔
      r.IsOwner server user ∨ server = lobby ∧ user = userId) :
    ((mid.change (.handOver lobby userId)).change (.setRole lobby bot .admin)).Guarded := by
  have one (server user : String) : ((mid.change (.handOver lobby userId)).change
      (.setRole lobby bot .admin)).IsOwner server user ↔
        ¬(server = lobby ∧ user = bot) ∧ (r.IsOwner server user ∨ server = lobby ∧ user = userId) := by
    rw [← owner, isOwner_setRole]
    split
    · rename_i given
      exact iff_of_false (fun new => by cases new.2) fun new => new.1 given
    · rename_i other
      exact (and_iff_right other).symm
  have banned {server user : String} : ((mid.change (.handOver lobby userId)).change
      (.setRole lobby bot .admin)).IsBanned server user ↔ r.IsBanned server user := by
    show (server, user) ∈ mid.bans ↔ _
    rw [bans]
    rfl
  intro o mem
  obtain ⟨o', there, same⟩ := List.mem_map.mp mem
  rw [owners] at there
  split at same
  · rename_i here
    subst here
    cases same
    refine ⟨fun user => (one _ user).trans ?_, mt banned.mp allowed⟩
    rw [(h _ owned).1]
    constructor
    · rintro ⟨other, whose | whose⟩
      · exact absurd ⟨rfl, whose⟩ other
      · exact whose.2
    · rintro rfl
      exact ⟨fun given => apart given.2, .inr ⟨rfl, rfl⟩⟩
  · rename_i other
    cases same
    refine ⟨fun user => (one _ user).trans ?_, mt banned.mp (h _ there).2⟩
    rw [(h _ there).1, and_iff_right fun given => other given.1]
    exact or_iff_left fun given => other given.1

/-- Who joins the lobby leaves it with one owner, unless it is the bot or banned and takes it over. -/
theorem guarded_lobbyChanges {bot lobby : String} {promote joined : Prop} [Decidable promote]
    [Decidable joined] (h : r.Guarded) (proper : r.Proper) (present : joined ↔ r.IsMember lobby userId)
    (owned : promote → (lobby, bot) ∈ r.owners)
    (fit : promote → userId ≠ bot ∧ ¬r.IsBanned lobby userId) :
    (run change r (lobbyChanges r bot lobby userId promote joined)).Guarded := by
  unfold lobbyChanges
  split
  · rename_i promoted
    obtain ⟨apart, allowed⟩ := fit promoted
    have here := owned promoted
    have botOwner : r.IsOwner lobby bot := ((h _ here).1 bot).mpr rfl
    dsimp only
    rw [if_pos (role?_promoted proper present ⟨_, here, rfl⟩ botOwner)]
    refine guarded_handOver h here apart allowed ?_ ?_ fun server user => isOwner_promoted present
    · split <;> rfl
    · split <;> rfl
  · split
    · exact h
    · exact guarded_change (c := .enroll lobby userId .member) h fun owner => by cases owner

/-- And else it is not. -/
theorem fit_of_guarded {bot lobby : String} {promote joined : Prop} [Decidable promote]
    [Decidable joined] (h : r.Guarded) (proper : r.Proper) (present : joined ↔ r.IsMember lobby userId)
    (promoted : promote) (owned : (lobby, bot) ∈ r.owners)
    (after : (run change r (lobbyChanges r bot lobby userId promote joined)).Guarded) :
    userId ≠ bot ∧ ¬r.IsBanned lobby userId := by
  have botOwner : r.IsOwner lobby bot := ((h _ owned).1 bot).mpr rfl
  unfold lobbyChanges at after
  dsimp only at after
  rw [if_pos promoted, if_pos (role?_promoted proper present ⟨_, owned, rfl⟩ botOwner)] at after
  have handed : (lobby, userId) ∈ (run change r [if joined then .setRole lobby userId .owner
      else .enroll lobby userId .owner, .handOver lobby userId, .setRole lobby bot .admin]).owners := by
    refine List.mem_map.mpr ⟨(lobby, bot), ?_, if_pos rfl⟩
    split <;> exact owned
  obtain ⟨owner, allowed⟩ := after _ handed
  constructor
  · rintro rfl
    have given := isOwner_setRole.mp ((owner userId).mpr rfl)
    rw [if_pos ⟨rfl, rfl⟩] at given
    cases given.2
  · intro banned
    refine allowed (isBanned_run_of_mem ?_ (.inl banned))
    rintro c (_ | ⟨_, _ | ⟨_, _ | ⟨_, ⟨⟩⟩⟩⟩)
    · split <;> trivial
    · trivial
    · trivial

end

end Roster

section

variable {p : Process} {s : Instance} {changes : List RosterChange} {request : Request}

theorem rehydrateMembers_role {id : String} {seen : List String} {entries : List MemberEntry} :
    ∀ member ∈ rehydrateMembers id seen entries, member.role ≠ .owner := by
  induction entries generalizing seen with
  | nil => rintro member ⟨⟩
  | cons entry entries ih =>
    unfold rehydrateMembers
    split
    · exact ih
    · refine List.forall_mem_cons.mpr ⟨?_, ih⟩
      dsimp only
      split
      · decide
      · assumption

/-- What is promised of the changes of a registration holds along them. -/
theorem mem_owners_of_promotes {config : Config} {db : Db} {settings : Settings} {lobby : String}
    (promotes : Promotes config db settings lobby) : (lobby, config.botUserId) ∈ db.roster.owners := by
  obtain ⟨-, server, there, own⟩ := promotes
  rw [← own]
  exact mem_owners_of_server? there

theorem lobbyChanges_supported {r : Roster} {bot lobby userId : String} {promote joined : Prop}
    [Decidable promote] [Decidable joined] (owned : promote → ∃ o ∈ r.owners, o.1 = lobby) :
    Along Roster.change Roster.Supported r (lobbyChanges r bot lobby userId promote joined) := by
  unfold lobbyChanges
  split
  · rename_i promoted
    refine ⟨?_, trivial, ?_⟩
    · split <;> exact fun _ => owned promoted
    · refine Along.of_mem (R := fun c => c = .setRole lobby bot .admin) ?_ fun c mem => ?_
      · rintro r' c rfl owner
        cases owner
      · exact List.mem_singleton.mp (List.mem_ite_nil_right.mp mem).2
  · split
    · trivial
    · exact ⟨Roster.supported_member, trivial⟩

theorem joinChanges_supported {config : Config} {db : Db} {settings : Settings}
    {body : RegisterRequest} {now : Nat} {userId : String} :
    Along Roster.change Roster.Supported db.roster
      (joinChanges config db settings body now userId) := by
  refine along_append.mpr ⟨?_, ?_⟩
  · cases body.lobby? db settings now with
    | none => trivial
    | some lobby =>
      exact lobbyChanges_supported fun promotes => ⟨_, mem_owners_of_promotes promotes, rfl⟩
  · cases body.invite? db now with
    | none => trivial
    | some invite => exact ⟨Roster.supported_member, trivial⟩

/-- What a request does makes owners of servers that are there only. -/
theorem Moves.supported (h : Moves p s request changes) :
    Along Roster.change Roster.Supported s.db.roster changes := by
  cases h with
  | seed | create =>
    exact ⟨trivial, fun _ => ⟨_, List.mem_append_right _ (List.mem_singleton_self _), rfl⟩, trivial⟩
  | ban => exact ⟨trivial, trivial, trivial⟩
  | none => trivial
  | dissolve | leave | kick | unban | escalate | execute | adminBan | pardon =>
    exact ⟨trivial, trivial⟩
  | lobby | join | redeem | accept => exact ⟨Roster.supported_member, trivial⟩
  | setRole => exact ⟨fun owner => absurd owner (RoleUpdate.notOwner _), trivial⟩
  | register registers =>
    rw [rosterChanges_joins]
    exact joinChanges_supported
  | remint =>
    refine ⟨trivial, fun _ => ⟨_, List.mem_append_right _ (List.mem_singleton_self _), rfl⟩, ?_⟩
    refine Along.of_mem (R := fun c => ∃ serverId userId role, c = .enroll serverId userId role ∧
      role ≠ .owner) ?_ fun c mem => ?_
    · rintro r c ⟨serverId, userId, role, rfl, other⟩ owner
      exact absurd owner other
    · obtain ⟨member, there, rfl⟩ := List.mem_map.mp mem
      exact ⟨_, _, _, rfl, rehydrateMembers_role member there⟩

theorem proper_step (h : s.db.roster.Proper) (request : Request) :
    (s.step p request).db.roster.Proper := by
  obtain ⟨changes, moves, admissible, after⟩ := step_moves (p := p) (s := s) request
  rw [after]
  exact invariant Roster.Proper
    (fun r c lawful h => Roster.proper_change h lawful.1 lawful.2.1 lawful.2.2)
    (moves.lawful.and (admissible.and moves.supported)) h

/-- The request bans no owner, and hands the lobby to nobody who is banned from it, nor back to the
bot. -/
def SparesOwners (p : Process) (s : Instance) : Request → Prop
  | .kickUser serverId targetUserId userId now =>
    MayKick s.db serverId targetUserId userId → ∀ server ∈ s.db.server? serverId,
      Escalates s.db server targetUserId now → targetUserId ≠ server.ownerId
  | .executeVoteKick voteId now => ∀ vote ∈ s.db.voteKicks.get voteId, vote.status = .passed →
    ∀ server ∈ s.db.server? vote.serverId, Escalates s.db server vote.targetUserId now →
      vote.targetUserId ≠ server.ownerId
  | .registerUser body withinRateLimit now matrix => ∀ userId, matrix = .ok userId →
    Registers p.toConfig s.db s.settings body withinRateLimit now →
    (∀ invite ∈ body.invite? s.db now, ¬s.db.IsMember invite.val.serverId userId) →
      ∀ lobby ∈ body.lobby? s.db s.settings now, Promotes p.toConfig s.db s.settings lobby →
        userId ≠ p.botUserId ∧ ¬s.db.IsBanned lobby userId
  | _ => True

/-- One server has one owner. -/
theorem Roster.Guarded.unique {r : Roster} (h : r.Guarded) {serverId userId user : String}
    (mem : (serverId, userId) ∈ r.owners) (mem' : (serverId, user) ∈ r.owners) : userId = user :=
  ((h _ mem').1 userId).mp (((h _ mem).1 userId).mpr rfl)

/-- What joins the server of an invite is no owner. -/
theorem guarded_joinChanges_iff {config : Config} {db : Db} {settings : Settings}
    {body : RegisterRequest} {now : Nat} {userId : String} {r : Roster} :
    (run Roster.change r (joinChanges config db settings body now userId)).Guarded ↔
      (run Roster.change r (((body.lobby? db settings now).map fun lobby =>
        lobbyChanges db.roster config.botUserId lobby userId (Promotes config db settings lobby)
          (db.IsMember lobby userId)).getD [])).Guarded := by
  rw [joinChanges, run_append]
  refine Roster.guarded_members fun c mem => ?_
  cases found : body.invite? db now with
  | none =>
    rw [found] at mem
    cases mem
  | some invite =>
    rw [found] at mem
    exact ⟨_, _, _, List.mem_singleton.mp mem, by decide⟩

/-- A registration that hands the lobby to nobody unfit keeps the owners. -/
theorem guarded_joinChanges {config : Config} {db : Db} {settings : Settings} {body : RegisterRequest}
    {now : Nat} {userId : String} (proper : db.roster.Proper) (h : db.roster.Guarded)
    (fit : ∀ lobby ∈ body.lobby? db settings now, Promotes config db settings lobby →
      userId ≠ config.botUserId ∧ ¬db.IsBanned lobby userId) :
    (run Roster.change db.roster (joinChanges config db settings body now userId)).Guarded := by
  rw [guarded_joinChanges_iff]
  cases set : body.lobby? db settings now with
  | none => exact h
  | some lobby =>
    refine Roster.guarded_lobbyChanges h proper Db.isMember_roster.symm mem_owners_of_promotes
      fun promotes => ?_
    rw [Db.isBanned_roster]
    exact fit lobby set promotes

theorem guarded_of_sparesOwners (proper : s.db.roster.Proper) (h : s.db.roster.Guarded)
    (spares : SparesOwners p s request) : (s.step p request).db.roster.Guarded := by
  obtain ⟨changes, moves, admissible, after⟩ := step_moves (p := p) (s := s) request
  rw [after]
  have member {serverId userId : String} :
      (s.db.roster.change (.enroll serverId userId .member)).Guarded :=
    Roster.guarded_change (c := .enroll serverId userId .member) h fun owner => by cases owner
  have notOwner {serverId userId : String} {row : ServerMember}
      (there : s.db.member? serverId userId = some row) (spared : row.role ≠ .owner) :
      ¬s.db.roster.IsOwner serverId userId := by
    have role : s.db.roster.role? serverId userId = some row.role := by
      rw [Db.role?_roster, there]
      rfl
    exact Roster.not_isOwner_of_role? proper role spared
  have noOwner {serverId userId : String} {server : Server}
      (there : s.db.server? serverId = some server) (other : userId ≠ server.ownerId) :
      (serverId, userId) ∉ s.db.roster.owners :=
    fun mem => other (h.unique mem (mem_owners_of_server? there))
  cases moves with
  | none => exact h
  | seed | create => exact Roster.guarded_found h proper (DrawnId.nonempty _) admissible.1
  | lobby | join | redeem | accept => exact member
  | dissolve => exact Roster.guarded_change (c := .dissolve _) h trivial
  | unban => exact Roster.guarded_change (c := .unban _ _) h trivial
  | pardon => exact Roster.guarded_change (c := .pardon _) h trivial
  | leave there spared => exact Roster.guarded_change (c := .drop _ _) h (notOwner there spared)
  | kick there spared => exact Roster.guarded_change (c := .drop _ _) h (notOwner there spared)
  | setRole there spared =>
    exact Roster.guarded_change (c := .setRole _ _ _) h ⟨RoleUpdate.notOwner _, notOwner there spared⟩
  | ban there spared =>
    have banned := Roster.guarded_change (c := .ban _ _) h (noOwner there spared)
    refine Roster.guarded_change (c := .drop _ _) banned fun owner => spared ?_
    exact ((h _ (mem_owners_of_server? there)).1 _).mp owner
  | escalate there mayKick oneTooMany =>
    exact Roster.guarded_change (c := .ban _ _) h (noOwner there (spares mayKick _ there oneTooMany))
  | execute vote passed server oneTooMany =>
    exact Roster.guarded_change (c := .ban _ _) h
      (noOwner server (spares _ vote passed _ server oneTooMany))
  | adminBan =>
    exact Roster.guarded_change (c := .ban _ _) h fun mem => proper.sound.named _ mem rfl
  | register registers =>
    rw [rosterChanges_joins] at admissible ⊢
    exact guarded_joinChanges proper h (spares _ rfl registers (not_isMember_of_admissible admissible))
  | remint there own other =>
    have founded := Roster.guarded_found h proper (DrawnId.nonempty _) admissible.1
    rw [run_cons, run_cons]
    refine (Roster.guarded_members fun c mem => ?_).mpr founded
    obtain ⟨row, there, rfl⟩ := List.mem_map.mp mem
    exact ⟨_, _, _, rfl, rehydrateMembers_role row there⟩

/-- Whoever bans a user goes on to own nothing. -/
theorem not_guarded_of_ban {done : Reply × Settings} {serverId userId : String}
    (ran : s.handle p request = .ok done) (free : ∀ w ∈ done.1.writes, w.Unconstrained)
    (changes : rosterChanges done.1.writes = [.ban serverId userId])
    (allowed : ¬s.db.IsBanned serverId userId) (owner : (serverId, userId) ∈ s.db.roster.owners) :
    ¬(s.step p request).db.roster.Guarded := by
  have admissible : Along Roster.change Roster.Admissible s.db.roster
      (rosterChanges done.1.writes) := by
    rw [changes]
    exact ⟨mt Db.isBanned_roster.mp allowed, trivial⟩
  rw [roster_step ran free admissible, changes]
  exact fun h => (h _ owner).2 (Roster.isBanned_ban.mpr (.inr ⟨rfl, rfl⟩))

theorem sparesOwners_of_guarded (proper : s.db.roster.Proper) (h : s.db.roster.Guarded)
    (after : (s.step p request).db.roster.Guarded) : SparesOwners p s request := by
  cases request with
  | kickUser serverId targetUserId userId now =>
    rintro mayKick server there oneTooMany rfl
    have owner := mem_owners_of_server? there
    have free : ¬s.db.IsBanned serverId server.ownerId := mt Db.isBanned_roster.mpr (h _ owner).2
    have ran : s.handle p (.kickUser serverId server.ownerId userId now) =
        .ok (⟨_, _⟩, s.settings) :=
      map_eq_ok.mpr ⟨_, kickUser_ok.mpr ⟨mayKick, server, there, rfl⟩, rfl⟩
    rw [escalation, server?_id there, if_pos ⟨oneTooMany, free⟩] at ran
    refine not_guarded_of_ban ran ?_ rfl free owner after
    rintro w (_ | ⟨_, _ | ⟨_, ⟨⟩⟩⟩) <;> trivial
  | executeVoteKick voteId now =>
    intro vote there passed server server? oneTooMany same
    have owner := mem_owners_of_server? server?
    rw [← same] at owner
    have free : ¬s.db.IsBanned vote.serverId vote.targetUserId :=
      mt Db.isBanned_roster.mpr (h _ owner).2
    have ran : s.handle p (.executeVoteKick voteId now) = .ok (⟨_, _⟩, s.settings) :=
      map_eq_ok.mpr ⟨_, executeVoteKick_ok.mpr ⟨vote, there, .inr ⟨passed, server, server?, rfl⟩⟩, rfl⟩
    rw [escalation, server?_id server?, if_pos ⟨oneTooMany, free⟩] at ran
    refine not_guarded_of_ban ran ?_ rfl free owner after
    rintro w (_ | ⟨_, _ | ⟨_, _ | ⟨_, ⟨⟩⟩⟩⟩) <;> trivial
  | registerUser body withinRateLimit now matrix =>
    rintro userId rfl registers outside lobby set promotes
    have ran : s.handle p (.registerUser body withinRateLimit now (.ok userId)) = .ok _ :=
      registerUser_ok.mpr ⟨registers, userId, rfl, rfl⟩
    have changes : rosterChanges (registered p.toConfig s.db s.settings body now userId).1.writes =
        joinChanges p.toConfig s.db s.settings body now userId := rosterChanges_registered
    have admissible : Along Roster.change Roster.Admissible s.db.roster
        (rosterChanges (registered p.toConfig s.db s.settings body now userId).1.writes) := by
      rw [changes]
      exact joinChanges_admissible outside
    rw [roster_step ran registered_unconstrained admissible, changes, guarded_joinChanges_iff,
      Option.mem_def.mp set] at after
    rw [← Db.isBanned_roster]
    exact Roster.fit_of_guarded h proper Db.isMember_roster.symm promotes
      (mem_owners_of_promotes promotes) after
  | _ => trivial

/-- The members of a server in the role of an owner. -/
def Db.ownersOf (db : Db) (serverId : String) : List String :=
  (db.members.filter fun m => m.serverId = serverId ∧ m.role = .owner).map ServerMember.userId

/-- Each server has one owner, who is not banned from it. -/
def Db.OwnersProtected (db : Db) : Prop :=
  ∀ server ∈ db.servers, db.ownersOf server.id = [server.ownerId] ∧
    ¬db.IsBanned server.id server.ownerId

theorem mem_ownersOf {db : Db} {serverId userId : String} :
    userId ∈ db.ownersOf serverId ↔ db.roster.IsOwner serverId userId := by
  simp only [Db.ownersOf, Roster.IsOwner, Db.roster, List.mem_map, List.mem_filter,
    decide_eq_true_eq, Prod.mk.injEq, and_assoc]
  exact exists_congr fun member => and_congr_right fun _ => and_congr_right fun _ => and_comm

theorem ownersOf_nodup {db : Db} (distinct : (db.roster.members.map fun m => (m.1, m.2.1)).Nodup)
    (serverId : String) : (db.ownersOf serverId).Nodup := by
  have rows : (db.members.map fun m => (m.serverId, m.userId)).Nodup := by
    rwa [Db.roster, List.map_map] at distinct
  refine List.Nodup.of_map (serverId, ·) ?_
  have pairs : (db.ownersOf serverId).map (serverId, ·) =
      (db.members.filter fun m => m.serverId = serverId ∧ m.role = .owner).map
        fun m => (m.serverId, m.userId) := by
    rw [Db.ownersOf, List.map_map]
    refine List.map_congr_left fun member mem => ?_
    have here := of_decide_eq_true (List.mem_filter.mp mem).2
    exact Prod.ext here.1.symm rfl
  rw [pairs]
  exact rows.sublist (List.filter_sublist.map _)

theorem guarded_roster {db : Db} (proper : db.roster.Proper) :
    db.roster.Guarded ↔ db.OwnersProtected := by
  have one (serverId ownerId : String) : (∀ userId, db.roster.IsOwner serverId userId ↔
      userId = ownerId) ↔ db.ownersOf serverId = [ownerId] := by
    rw [← List.perm_singleton, List.perm_ext_iff_of_nodup (ownersOf_nodup proper.distinct serverId)
      (List.nodup_singleton ownerId)]
    refine forall_congr' fun userId => ?_
    rw [mem_ownersOf, List.mem_singleton]
  simp only [Roster.Guarded, Db.OwnersProtected, Db.roster, List.forall_mem_map] at one ⊢
  exact forall₂_congr fun server _ => and_congr (one _ _) (not_congr Db.isBanned_roster)

end

theorem proper_empty : ({} : Db).roster.Proper := ⟨sound_empty, List.nodup_nil, by rintro _ _ ⟨⟩⟩

/-- In every run, each server has its one owner, unbanned, in every state exactly when no request bans
an owner by way of a kick, or hands the lobby to the bot or to somebody banned from it. -/
theorem ownersProtected_along_iff (p : Process) (settings : Settings) (requests : List Request) :
    Along (Instance.step p) (fun s request => (s.step p request).db.OwnersProtected)
        ⟨{}, settings⟩ requests ↔
      Along (Instance.step p) (SparesOwners p) ⟨{}, settings⟩ requests := by
  have proper : Along (Instance.step p) (fun s _ => s.db.roster.Proper) ⟨{}, settings⟩ requests :=
    (Along.of_forall (P := fun _ _ => True) fun _ _ => trivial).of_invariant
      (fun s => s.db.roster.Proper) (fun _ request _ h => proper_step h request) (fun _ _ _ h => h)
      proper_empty
  refine along_step_iff_of (fun s => s.db.OwnersProtected) proper
    (fun s request proper h => ?_) fun server there => by cases there
  rw [← guarded_roster proper] at h
  rw [← guarded_roster (proper_step proper request)]
  exact ⟨sparesOwners_of_guarded proper h, guarded_of_sparesOwners proper h⟩

/-- An administrator kicks the owner until the kick escalates. -/
theorem owner_kicked_out : ¬∀ requests : List Request,
    Along (Instance.step {}) (fun s request => (s.step {} request).db.OwnersProtected) {} requests := by
  intro h
  have kept := h [.createServer ⟨"Home", .publicServer, none⟩ "@alice:localhost" ⟨"srv", by decide⟩
      (some "!general:localhost"),
    .joinServer "srv" "@bob:localhost",
    .updateMemberRole "srv" "@bob:localhost" ⟨.admin, by decide⟩ "@alice:localhost",
    .kickUser "srv" "@alice:localhost" "@bob:localhost" 0,
    .kickUser "srv" "@alice:localhost" "@bob:localhost" 60,
    .kickUser "srv" "@alice:localhost" "@bob:localhost" 120]
  obtain ⟨-, allowed⟩ := kept.2.2.2.2.2.1 _ List.mem_cons_self
  exact allowed (by decide)

end Concorrd.Api
