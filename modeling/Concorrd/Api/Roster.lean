import Concorrd.Api.Requests

/-!
# The roster

What the routes are for: a roster says who owns which server, who is a member of it in which role,
and who is banned from it. A commit changes the roster as its statements say (`roster_commit`), and
goes through when the roster admits its changes (`commit_of_admissible`).
-/

namespace Concorrd.Api

open Machine

/-- The owner of each server, the members and the bans. -/
structure Roster where
  owners : List (String × String)
  members : List (String × String × Role)
  bans : List (String × String)
  deriving DecidableEq, Repr

inductive RosterChange where
  | establish (serverId ownerId : String)
  | handOver (serverId ownerId : String)
  | dissolve (serverId : String)
  | enroll (serverId userId : String) (role : Role)
  | setRole (serverId userId : String) (role : Role)
  | drop (serverId userId : String)
  | ban (serverId userId : String)
  | unban (serverId userId : String)
  | pardon (userId : String)
  deriving DecidableEq, Repr

namespace Roster

def IsMember (r : Roster) (serverId userId : String) : Prop :=
  ∃ role, (serverId, userId, role) ∈ r.members

def IsBanned (r : Roster) (serverId userId : String) : Prop := (serverId, userId) ∈ r.bans

def role? (r : Roster) (serverId userId : String) : Option Role :=
  (r.members.find? fun m => m.1 = serverId ∧ m.2.1 = userId).map fun m => m.2.2

def change (r : Roster) : RosterChange → Roster
  | .establish serverId ownerId => { r with owners := r.owners ++ [(serverId, ownerId)] }
  | .handOver serverId ownerId =>
    { r with owners := r.owners.map fun o => if o.1 = serverId then (o.1, ownerId) else o }
  | .dissolve serverId =>
    { owners := r.owners.filter fun o => o.1 ≠ serverId
      members := r.members.filter fun m => m.1 ≠ serverId
      bans := r.bans.filter fun b => b.1 ≠ serverId }
  | .enroll serverId userId role => { r with members := r.members ++ [(serverId, userId, role)] }
  | .setRole serverId userId role =>
    { r with
      members := r.members.map fun m =>
        if m.1 = serverId ∧ m.2.1 = userId then (m.1, m.2.1, role) else m }
  | .drop serverId userId =>
    { r with members := r.members.filter fun m => ¬(m.1 = serverId ∧ m.2.1 = userId) }
  | .ban serverId userId => { r with bans := r.bans ++ [(serverId, userId)] }
  | .unban serverId userId =>
    { r with bans := r.bans.filter fun b => ¬(b.1 = serverId ∧ b.2 = userId) }
  | .pardon userId => { r with bans := r.bans.filter fun b => b.2 ≠ userId }

section

variable {r : Roster} {serverId userId server user : String} {role : Role} {c : RosterChange}
  {cs : List RosterChange}

@[simp] theorem isMember_enroll : (r.change (.enroll server user role)).IsMember serverId userId ↔
    r.IsMember serverId userId ∨ serverId = server ∧ userId = user := by
  simp only [IsMember, change, List.mem_append, List.mem_singleton, Prod.mk.injEq, exists_or,
    exists_and_left, exists_eq, and_true]

@[simp] theorem isMember_drop : (r.change (.drop server user)).IsMember serverId userId ↔
    r.IsMember serverId userId ∧ ¬(serverId = server ∧ userId = user) := by
  simp only [IsMember, change, List.mem_filter, decide_eq_true_eq, exists_and_right]

@[simp] theorem isMember_dissolve : (r.change (.dissolve server)).IsMember serverId userId ↔
    r.IsMember serverId userId ∧ serverId ≠ server := by
  simp only [IsMember, change, List.mem_filter, decide_eq_true_eq, exists_and_right]

@[simp] theorem isMember_setRole : (r.change (.setRole server user role)).IsMember serverId userId ↔
    r.IsMember serverId userId := by
  constructor
  · rintro ⟨role', mem⟩
    obtain ⟨⟨s, u, role''⟩, there, same⟩ := List.mem_map.mp mem
    dsimp only at same
    split at same <;> cases same <;> exact ⟨_, there⟩
  · rintro ⟨role', mem⟩
    by_cases here : serverId = server ∧ userId = user
    · exact ⟨role, List.mem_map.mpr ⟨_, mem, if_pos here⟩⟩
    · exact ⟨role', List.mem_map.mpr ⟨_, mem, if_neg here⟩⟩

@[simp] theorem isBanned_ban : (r.change (.ban server user)).IsBanned serverId userId ↔
    r.IsBanned serverId userId ∨ serverId = server ∧ userId = user := by
  simp only [IsBanned, change, List.mem_append, List.mem_singleton, Prod.mk.injEq]

/-- A user who is a member after a change was one before, or is admitted. -/
theorem isMember_change (h : (r.change c).IsMember serverId userId) :
    r.IsMember serverId userId ∨ ∃ role, c = .enroll serverId userId role := by
  cases c with
  | enroll server user role =>
    rcases isMember_enroll.mp h with h | ⟨rfl, rfl⟩
    · exact .inl h
    · exact .inr ⟨role, rfl⟩
  | drop => exact .inl (isMember_drop.mp h).1
  | dissolve => exact .inl (isMember_dissolve.mp h).1
  | setRole => exact .inl (isMember_setRole.mp h)
  | establish | handOver | ban | unban | pardon => exact .inl h

/-- A user who is banned after a change was so before, or is banned by it. -/
theorem isBanned_change (h : (r.change c).IsBanned serverId userId) :
    r.IsBanned serverId userId ∨ c = .ban serverId userId := by
  cases c with
  | ban server user =>
    rcases isBanned_ban.mp h with h | ⟨rfl, rfl⟩
    · exact .inl h
    · exact .inr rfl
  | unban | pardon | dissolve => exact .inl (List.mem_filter.mp h).1
  | establish | handOver | enroll | setRole | drop => exact .inl h

theorem isMember_run (h : (run change r cs).IsMember serverId userId) :
    r.IsMember serverId userId ∨ ∃ role, .enroll serverId userId role ∈ cs := by
  induction cs generalizing r with
  | nil => exact .inl h
  | cons c cs ih =>
    rcases ih h with before | ⟨role, mem⟩
    · refine (isMember_change before).imp_right ?_
      rintro ⟨role, rfl⟩
      exact ⟨role, List.mem_cons_self⟩
    · exact .inr ⟨role, List.mem_cons_of_mem c mem⟩

theorem isBanned_run (h : (run change r cs).IsBanned serverId userId) :
    r.IsBanned serverId userId ∨ .ban serverId userId ∈ cs := by
  induction cs generalizing r with
  | nil => exact .inl h
  | cons c cs ih =>
    rcases ih h with before | mem
    · refine (isBanned_change before).imp_right ?_
      rintro rfl
      exact List.mem_cons_self
    · exact .inr (List.mem_cons_of_mem c mem)

/-- The change ends no membership and no ban. -/
def Keeps : RosterChange → Prop
  | .dissolve _ | .drop _ _ | .unban _ _ | .pardon _ => False
  | _ => True

theorem isMember_of_keeps (keeps : Keeps c) (h : r.IsMember serverId userId) :
    (r.change c).IsMember serverId userId := by
  cases c with
  | enroll => exact isMember_enroll.mpr (.inl h)
  | setRole => exact isMember_setRole.mpr h
  | establish | handOver | ban => exact h
  | dissolve | drop | unban | pardon => exact keeps.elim

theorem isBanned_of_keeps (keeps : Keeps c) (h : r.IsBanned serverId userId) :
    (r.change c).IsBanned serverId userId := by
  cases c with
  | ban => exact isBanned_ban.mpr (.inl h)
  | enroll | setRole | establish | handOver => exact h
  | dissolve | drop | unban | pardon => exact keeps.elim

/-- Who is banned stays so to the end. -/
theorem isBanned_run_of_mem (keeps : ∀ c ∈ cs, Keeps c)
    (h : r.IsBanned serverId userId ∨ .ban serverId userId ∈ cs) :
    (run change r cs).IsBanned serverId userId := by
  induction cs generalizing r with
  | nil =>
    refine h.resolve_right ?_
    rintro ⟨⟩
  | cons c cs ih =>
    obtain ⟨first, rest⟩ := List.forall_mem_cons.mp keeps
    refine ih rest ?_
    rcases h with h | mem
    · exact .inl (isBanned_of_keeps first h)
    · rcases List.mem_cons.mp mem with rfl | mem
      · exact .inl (isBanned_ban.mpr (.inr ⟨rfl, rfl⟩))
      · exact .inr mem

/-- Who is admitted is a member in the end. -/
theorem isMember_run_of_mem (keeps : ∀ c ∈ cs, Keeps c)
    (h : r.IsMember serverId userId ∨ ∃ role, .enroll serverId userId role ∈ cs) :
    (run change r cs).IsMember serverId userId := by
  induction cs generalizing r with
  | nil =>
    refine h.resolve_right ?_
    rintro ⟨role, ⟨⟩⟩
  | cons c cs ih =>
    obtain ⟨first, rest⟩ := List.forall_mem_cons.mp keeps
    refine ih rest ?_
    rcases h with h | ⟨role, mem⟩
    · exact .inl (isMember_of_keeps first h)
    · rcases List.mem_cons.mp mem with rfl | mem
      · exact .inl (isMember_enroll.mpr (.inr ⟨rfl, rfl⟩))
      · exact .inr ⟨role, mem⟩

end

/-- The constraints of the tables let the change through. -/
def Admissible (r : Roster) : RosterChange → Prop
  | .establish serverId _ => ∀ o ∈ r.owners, o.1 ≠ serverId
  | .enroll serverId userId _ => ¬r.IsMember serverId userId
  | .ban serverId userId => ¬r.IsBanned serverId userId
  | _ => True

end Roster

/-- What a statement changes of the roster, if anything. -/
def Write.change : Write → Option RosterChange
  | .addServer server => some (.establish server.id server.ownerId)
  | .setOwner serverId ownerId => some (.handOver serverId ownerId)
  | .deleteServer serverId => some (.dissolve serverId)
  | .addMember member => some (.enroll member.serverId member.userId member.role)
  | .setRole serverId userId role => some (.setRole serverId userId role)
  | .deleteMember serverId userId => some (.drop serverId userId)
  | .addBan ban => some (.ban ban.serverId ban.userId)
  | .deleteBan serverId userId => some (.unban serverId userId)
  | .deleteBansOf userId => some (.pardon userId)
  | _ => none

/-- The statement cannot run into a constraint of a table that is not on the roster. -/
def Write.Unconstrained : Write → Prop
  | .addChannel _ | .addInvite _ | .addLock _ | .addWebhook _ => False
  | _ => True

namespace Db

variable {db db' : Db} {serverId userId : String} {w : Write} {ws : List Write}

def roster (db : Db) : Roster where
  owners := db.servers.map fun server => (server.id, server.ownerId)
  members := db.members.map fun member => (member.serverId, member.userId, member.role)
  bans := db.bans.map fun ban => (ban.serverId, ban.userId)

theorem isMember_roster : db.roster.IsMember serverId userId ↔ db.IsMember serverId userId := by
  constructor
  · rintro ⟨role, mem⟩
    obtain ⟨member, there, same⟩ := List.mem_map.mp mem
    cases same
    exact ⟨member, there, rfl, rfl⟩
  · rintro ⟨member, mem, rfl, rfl⟩
    exact ⟨member.role, List.mem_map.mpr ⟨member, mem, rfl⟩⟩

theorem isBanned_roster : db.roster.IsBanned serverId userId ↔ db.IsBanned serverId userId := by
  constructor
  · intro mem
    obtain ⟨ban, there, same⟩ := List.mem_map.mp mem
    cases same
    exact ⟨ban, there, rfl, rfl⟩
  · rintro ⟨ban, mem, rfl, rfl⟩
    exact List.mem_map.mpr ⟨ban, mem, rfl⟩

theorem role?_roster (db : Db) (serverId userId : String) :
    db.roster.role? serverId userId = (db.member? serverId userId).map ServerMember.role := by
  simp only [Roster.role?, roster, member?, List.find?_map, Option.map_map, Function.comp_def]

/-- A statement changes the roster as it says. -/
theorem roster_apply (h : db.apply w = some db') :
    db'.roster = w.change.elim db.roster db.roster.change := by
  cases w with
  | addServer | addChannel | addMember | addBan | addInvite | addLock | addWebhook =>
    obtain ⟨-, h⟩ := Option.ite_none_left_eq_some.mp h
    cases h
    simp only [roster, Roster.change, Write.change, List.map_append, List.map_cons, List.map_nil,
      Option.elim_some, Option.elim_none]
  | deleteServer | deleteMember | deleteBan | deleteBansOf =>
    cases h
    simp only [roster, Roster.change, Write.change, List.filter_map, Option.elim_some,
      Function.comp_def]
  | setOwner | setRole | setPermissions | setBanSettings =>
    cases h
    simp only [roster, Roster.change, Write.change, List.map_map, Option.elim_some,
      Option.elim_none, Function.comp_def]
    congr 1
    refine List.map_congr_left fun row _ => ?_
    split <;> rfl
  | _ =>
    cases h
    rfl

theorem admissible_apply (h : db.apply w = some db') :
    ∀ c ∈ w.change, db.roster.Admissible c := by
  rintro c change
  cases w with
  | addServer server =>
    cases change
    obtain ⟨fresh, -⟩ := Option.ite_none_left_eq_some.mp h
    intro o mem same
    obtain ⟨other, there, rfl⟩ := List.mem_map.mp mem
    exact fresh ⟨other, there, same⟩
  | addMember member =>
    cases change
    exact fun there => (Option.ite_none_left_eq_some.mp h).1 (isMember_roster.mp there)
  | addBan ban =>
    cases change
    exact fun there => (Option.ite_none_left_eq_some.mp h).1 (isBanned_roster.mp there)
  | _ => cases change <;> trivial

/-- A commit changes the roster as its statements say. -/
theorem roster_commit (h : db.commit ws = some db') :
    Along Roster.change Roster.Admissible db.roster (ws.filterMap Write.change) ∧
      db'.roster = run Roster.change db.roster (ws.filterMap Write.change) := by
  induction ws generalizing db with
  | nil =>
    cases h
    exact ⟨trivial, rfl⟩
  | cons w ws ih =>
    obtain ⟨mid, first, rest⟩ := Option.bind_eq_some_iff.mp h
    obtain ⟨admissible, after⟩ := ih rest
    have here := admissible_apply first
    rw [roster_apply first] at admissible after
    cases change : w.change with
    | none =>
      rw [List.filterMap_cons_none change]
      rw [change] at admissible after
      exact ⟨admissible, after⟩
    | some c =>
      rw [List.filterMap_cons_some change]
      rw [change] at admissible after here
      exact ⟨⟨here c rfl, admissible⟩, after⟩

/-- What the roster admits, the tables do, but for the constraints of other tables. -/
theorem commit_of_admissible (free : ∀ w ∈ ws, w.Unconstrained)
    (admissible : Along Roster.change Roster.Admissible db.roster (ws.filterMap Write.change)) :
    ∃ db', db.commit ws = some db' := by
  induction ws generalizing db with
  | nil => exact ⟨db, rfl⟩
  | cons w ws ih =>
    obtain ⟨here, rest⟩ := List.forall_mem_cons.mp free
    have first : ∃ mid, db.apply w = some mid := by
      cases w with
      | addServer server =>
        refine ⟨_, if_neg ?_⟩
        rintro ⟨other, mem, same⟩
        exact admissible.1 _ (List.mem_map.mpr ⟨other, mem, rfl⟩) same
      | addMember member => exact ⟨_, if_neg fun h => admissible.1 (isMember_roster.mpr h)⟩
      | addBan ban => exact ⟨_, if_neg fun h => admissible.1 (isBanned_roster.mpr h)⟩
      | addChannel | addInvite | addLock | addWebhook => exact here.elim
      | _ => exact ⟨_, rfl⟩
    obtain ⟨mid, applied⟩ := first
    have after := roster_apply applied
    suffices ∃ db', mid.commit ws = some db' by
      obtain ⟨db', done⟩ := this
      exact ⟨db', Option.bind_eq_some_iff.mpr ⟨mid, applied, done⟩⟩
    refine ih rest ?_
    cases change : w.change with
    | none =>
      rw [List.filterMap_cons_none change] at admissible
      rwa [after, change]
    | some c =>
      rw [List.filterMap_cons_some change] at admissible
      rw [after, change]
      exact admissible.2

end Db

end Concorrd.Api
