import Mathlib.Logic.Function.Basic
import Mathlib.Data.List.Perm.Subperm
import Concorrd.Lib.Run
import Concorrd.Api.Document

/-!
# First boot

The first account that is registered becomes the administrator and takes the lobby over from the bot. A
registration reads the settings file when it arrives, waits for the homeserver and the database, and
writes back what it read. One administrator is elected, and nothing in the file is lost, exactly when
each write-back finds the file as it was read (`oneAdministrator_along_iff`).
-/

namespace Concorrd.Api

open Machine

/-- How far a registration has come. `inst` is the file as it was read, and a session that failed to
flush has nothing to commit. -/
inductive BootPhase where
  | arrived (body : RegisterRequest)
  | admitted (body : RegisterRequest) (inst : Document)
  | registering (inst : Document) (invite : Option (Row InviteToken))
  | joining (inst : Document) (invite : Option (Row InviteToken)) (userId : String)
      (lobby : Option String)
  | completing (inst : Document) (userId : String) (pending : Option (List Write))
  | committing (userId : String) (pending : Option (List Write))
  | ended

/-- A registration goes on, with what it meets: the time, the rate limit, the answer of the homeserver,
and a database that another session has locked. -/
structure BootTurn where
  request : Nat
  now : Nat := 0
  withinRateLimit : Bool := true
  matrix : Except String String := .error ""
  locked : Bool := false

inductive BootEvent where
  | turn (t : BootTurn)
  | admin (w : SettingsWrite)

/-- The file, the database and the registrations. `elected` lists the registrations that wrote
themselves into the file, and `promoted` those that were committed as owner of the lobby. -/
structure Boot where
  doc : Document
  db : Db
  phase : Nat → BootPhase
  elected : List (Nat × String) := []
  promoted : List (Nat × String) := []

/-- Append the user to the list, unless it is in there. Anything but a list has no `append`. -/
def withAdmin (admins : Option Json) (userId : String) : Option Json :=
  match admins with
  | none => some (.arr [.str userId])
  | some (.arr items) =>
    if userId ∈ items.filterMap Json.asStr then some (.arr items)
    else some (.arr (items ++ [.str userId]))
  | some (.str text) => if userId.toList <:+: text.toList then some (.str text) else none
  | some (.obj members) => if userId ∈ Dict.keys members then some (.obj members) else none
  | some _ => none

/-- What a first registration writes back of the file it read. -/
def completed (inst : Document) (userId : String) : Option Document :=
  let doc := inst.set "first_boot_complete" (.bool true)
  (withAdmin (doc.get "admin_user_ids") userId).map fun admins => doc.set "admin_user_ids" admins

/-- The keys that are set in it. -/
def bootKeys : List String := ["first_boot_complete", "admin_user_ids"]

def Write.TakesOver : Write → Prop
  | .setOwner .. => True
  | _ => False

instance : DecidablePred Write.TakesOver := fun w => by
  cases w <;> first | exact isTrue trivial | exact isFalse id

/-- The session is to make somebody the owner. -/
def TakesOver (pending : Option (List Write)) : Prop := ∃ writes ∈ pending, ∃ w ∈ writes, w.TakesOver

instance (pending : Option (List Write)) : Decidable (TakesOver pending) :=
  inferInstanceAs (Decidable (∃ writes ∈ pending, _))

/-- The memberships of a new account, in the lobby and through its invite. -/
def joinWrites (config : Config) (db : Db) (settings : Settings) (invite : Option (Row InviteToken))
    (userId : String) (lobby : Option String) : List Write :=
  (lobby.map fun lobby => defaultJoin config db settings lobby userId).getD [] ++
    (invite.map fun invite => [.addMember { serverId := invite.val.serverId, userId }]).getD []

namespace Boot

/-- Nobody is registered yet. -/
def opened (doc : Document) (db : Db) (requests : Nat → RegisterRequest) : Boot where
  doc
  db
  phase n := .arrived (requests n)

variable (config : Config) (s : Boot)

def moved (n : Nat) (phase : BootPhase) : Boot :=
  { s with phase := Function.update s.phase n phase }

/-- Write the file back, on first boot, before the session is committed. -/
def complete (n : Nat) (inst : Document) (userId : String) (pending : Option (List Write)) : Boot :=
  if inst.settings.isFirstBoot then
    match completed inst userId with
    | none => s.moved n .ended
    | some doc =>
      { s with doc, elected := s.elected ++ [(n, userId)] }.moved n (.committing userId pending)
  else s.moved n (.committing userId pending)

def commit (n : Nat) (userId : String) (pending : Option (List Write)) : Boot :=
  match pending.bind s.db.commit with
  | none => s.moved n .ended
  | some db =>
    { s with
      db
      promoted := if TakesOver pending then s.promoted ++ [(n, userId)] else s.promoted }.moved n .ended

/-- A registration goes on to its next await. -/
def turn (t : BootTurn) : Boot :=
  match s.phase t.request with
  | .arrived body =>
    if (s.doc.settings.isFirstBoot = false ∧ s.doc.settings.openRegistrationEnabled config = false ∧
        body.token? = none) ∨ t.withinRateLimit = false then
      s.moved t.request .ended
    else s.moved t.request (.admitted body s.doc)
  | .admitted body inst =>
    if body.token? ≠ none ∧ (body.invite? s.db t.now = none ∨ t.locked = true) then
      s.moved t.request .ended
    else s.moved t.request (.registering inst (body.invite? s.db t.now))
  | .registering inst invite =>
    match t.matrix with
    | .error _ => s.moved t.request .ended
    | .ok userId =>
      let lobby := s.doc.settings.lobby?.filter fun lobby =>
        invite.map (·.val.serverId) ≠ some lobby
      s.moved t.request (.joining inst invite userId lobby)
  | .joining inst invite userId lobby =>
    if t.locked then
      -- a failure while joining the lobby is caught, and only the next statement raises
      s.moved t.request (if invite = none then .completing inst userId none else .ended)
    else
      let writes := (invite.map countUse).getD [] ++
        joinWrites config s.db inst.settings invite userId lobby
      s.moved t.request (.completing inst userId (some writes))
  | .completing inst userId pending => s.complete t.request inst userId pending
  | .committing userId pending => s.commit t.request userId pending
  | .ended => s

def step : BootEvent → Boot
  | .turn t => s.turn config t
  | .admin w => { s with doc := w.apply s.doc }

/-- At most one registered user is made administrator, and no other takes the lobby. -/
def OneAdministrator : Prop :=
  s.elected.length ≤ 1 ∧ s.promoted.length ≤ 1 ∧ s.promoted ⊆ s.elected

/-- The keys that an event sets. -/
def keysOf : BootEvent → List String
  | .turn _ => bootKeys
  | .admin w => w.keys

/-- The event loses nothing of what others have written into the file. -/
def LosesNothing (e : BootEvent) : Prop :=
  (∀ key ∉ keysOf e, (s.step config e).doc.get key = s.doc.get key) ∧
    s.doc.adminUserIds ⊆ (s.step config e).doc.adminUserIds

/-- A write-back finds the file as the registration read it. -/
def WritesBack (e : BootEvent) : Prop :=
  match e with
  | .turn t => ∀ inst userId pending, s.phase t.request = .completing inst userId pending →
      inst.settings.isFirstBoot = true → completed inst userId ≠ none →
      ∀ key, s.doc.get key = inst.get key
  | .admin _ => True

end Boot

/-! ## What the parts do -/

section

variable {config : Config} {db : Db} {settings : Settings} {userId lobby : String}

theorem lobbyMembership_takesOver {promote : Bool} {w : Write}
    (mem : w ∈ lobbyMembership db lobby userId promote) : ¬w.TakesOver := by
  unfold lobbyMembership at mem
  split at mem
  · split at mem
    · rcases List.mem_cons.mp mem with rfl | mem
      · exact id
      · rw [List.mem_singleton.mp mem]
        exact id
    · cases mem
  · rw [List.mem_singleton.mp mem]
    exact id

/-- The lobby is taken over on first boot only. -/
theorem isFirstBoot_of_defaultJoin {w : Write} (mem : w ∈ defaultJoin config db settings lobby userId)
    (takes : w.TakesOver) : settings.isFirstBoot = true := by
  by_cases promotes : Promotes config db settings lobby
  · exact promotes.1
  · simp only [defaultJoin, promotes, decide_false, Bool.false_eq_true, if_false] at mem
    exact absurd takes (lobbyMembership_takesOver mem)

theorem isFirstBoot_of_takesOver {invite : Option (Row InviteToken)} {lobby : Option String}
    (takes : TakesOver (some ((invite.map countUse).getD [] ++
      joinWrites config db settings invite userId lobby))) : settings.isFirstBoot = true := by
  obtain ⟨writes, here, w, mem, takes⟩ := takes
  cases here
  rcases List.mem_append.mp mem with mem | mem
  · cases invite with
    | none => cases mem
    | some invite =>
      rw [Option.map_some, Option.getD_some, countUse] at mem
      split at mem
      · cases mem
      · rw [List.mem_singleton.mp mem] at takes
        exact takes.elim
  · rcases List.mem_append.mp mem with mem | mem
    · cases lobby with
      | none => cases mem
      | some lobby => exact isFirstBoot_of_defaultJoin mem takes
    · cases invite with
      | none => cases mem
      | some invite =>
        rw [List.mem_singleton.mp mem] at takes
        exact takes.elim

end

section

variable {inst doc : Document} {userId key : String}

theorem completed_some (h : completed inst userId = some doc) :
    ∃ admins, withAdmin (inst.get "admin_user_ids") userId = some admins ∧
      doc = (inst.set "first_boot_complete" (.bool true)).set "admin_user_ids" admins := by
  obtain ⟨admins, added, rfl⟩ := Option.map_eq_some_iff.mp h
  rw [Dict.get_set_of_ne (by decide)] at added
  exact ⟨admins, added, rfl⟩

/-- What is written back is what was read, but for the keys of the registration. -/
theorem get_completed (h : completed inst userId = some doc) (other : key ∉ bootKeys) :
    doc.get key = inst.get key := by
  obtain ⟨admins, -, rfl⟩ := completed_some h
  simp only [bootKeys, List.mem_cons, List.not_mem_nil, or_false, not_or] at other
  rw [Dict.get_set_of_ne other.2, Dict.get_set_of_ne other.1]

theorem isSet_completed (h : completed inst userId = some doc) :
    doc.isSet "first_boot_complete" = true := by
  obtain ⟨admins, -, rfl⟩ := completed_some h
  rw [Document.isSet, Dict.get_set_of_ne (by decide), Dict.get_set_self]
  rfl

/-- Nobody is struck off the list that was read. -/
theorem adminUserIds_completed (h : completed inst userId = some doc) :
    inst.adminUserIds ⊆ doc.adminUserIds := by
  obtain ⟨admins, added, rfl⟩ := completed_some h
  rw [Document.adminUserIds, Document.adminUserIds, Dict.get_set_self]
  intro user mem
  cases there : inst.get "admin_user_ids" with
  | none =>
    rw [there] at mem
    cases mem
  | some old =>
    rw [there] at added mem
    cases old with
    | arr items =>
      have added : (if userId ∈ items.filterMap Json.asStr then some (.arr items)
          else some (.arr (items ++ [.str userId]))) = some admins := added
      split at added
      · cases added
        exact mem
      · cases added
        show user ∈ (items ++ [Json.str userId]).filterMap Json.asStr
        rw [List.filterMap_append]
        exact List.mem_append_left _ mem
    | null | bool | num | float | str | obj => cases mem

end

/-! ## What a turn does -/

/-- The file as the registration read it. -/
def BootPhase.inst? : BootPhase → Option Document
  | .admitted _ inst | .registering inst _ | .joining inst _ _ _ | .completing inst _ _ => some inst
  | .arrived _ | .committing _ _ | .ended => none

/-- A session that takes the lobby over belongs to a first registration, which is written into the
file before it is committed. -/
def BootPhase.Backed (n : Nat) (elected : List (Nat × String)) : BootPhase → Prop
  | .completing inst _ pending => TakesOver pending → inst.settings.isFirstBoot = true
  | .committing userId pending => TakesOver pending → (n, userId) ∈ elected
  | _ => True

theorem BootPhase.Backed.append {n : Nat} {phase : BootPhase} {elected : List (Nat × String)}
    {e : Nat × String} (h : phase.Backed n elected) : phase.Backed n (elected ++ [e]) := by
  cases phase with
  | completing inst userId pending => exact h
  | committing userId pending => exact fun takes => List.mem_append_left _ (h takes)
  | arrived | admitted | registering | joining | ended => trivial

namespace Boot

/-- The registration is not about to write the file. -/
def Idle (s : Boot) (n : Nat) : Prop :=
  ∀ inst userId pending, s.phase n = .completing inst userId pending →
    inst.settings.isFirstBoot = true → completed inst userId = none

/-- What a turn of a registration can do. -/
inductive Turns (s : Boot) (n : Nat) : Boot → Prop where
  | stays (idle : s.Idle n) : Turns s n s
  | goes (phase : BootPhase) (idle : s.Idle n) (on : s.phase n ≠ .ended)
      (reads : ∀ inst, phase.inst? = some inst → inst = s.doc ∨ (s.phase n).inst? = some inst)
      (backed : phase.Backed n s.elected) : Turns s n (s.moved n phase)
  | writes (inst : Document) (userId : String) (pending : Option (List Write)) (doc : Document)
      (here : s.phase n = .completing inst userId pending)
      (first : inst.settings.isFirstBoot = true) (written : completed inst userId = some doc) :
      Turns s n ({ s with doc, elected := s.elected ++ [(n, userId)] }.moved n
        (.committing userId pending))
  | commits (userId : String) (pending : Option (List Write)) (db : Db)
      (here : s.phase n = .committing userId pending) :
      Turns s n ({ s with
        db
        promoted := if TakesOver pending then s.promoted ++ [(n, userId)] else s.promoted }.moved n
          .ended)

variable {config : Config} {s s' : Boot} {n m : Nat} {phase : BootPhase} {t : BootTurn}

theorem idle_of_ne (other : ∀ inst userId pending, s.phase n ≠ .completing inst userId pending) :
    s.Idle n := fun inst userId pending here _ => absurd here (other inst userId pending)

theorem Turns.ends (idle : s.Idle n) (on : s.phase n ≠ .ended) : Turns s n (s.moved n .ended) :=
  .goes .ended idle on (by rintro inst ⟨⟩) trivial

/-- A registration goes on with the file it has read before. -/
theorem Turns.keeps {inst : Document} (idle : s.Idle n) (here : (s.phase n).inst? = some inst)
    (same : phase.inst? = some inst) (backed : phase.Backed n s.elected) :
    Turns s n (s.moved n phase) := by
  refine .goes phase idle ?_ (fun inst' reads => .inr ?_) backed
  · intro ended
    rw [ended] at here
    cases here
  · rw [here, ← same, reads]

theorem complete_turns {inst : Document} {userId : String} {pending : Option (List Write)}
    (here : s.phase n = .completing inst userId pending)
    (backed : (s.phase n).Backed n s.elected) :
    Turns s n (s.complete n inst userId pending) := by
  have on : s.phase n ≠ .ended := by rw [here]; exact BootPhase.noConfusion
  have idle (none' : inst.settings.isFirstBoot = true → completed inst userId = none) :
      s.Idle n := by
    intro inst' userId' pending' there first
    rw [here] at there
    cases there
    exact none' first
  unfold complete
  split
  · rename_i first
    cases written : completed inst userId with
    | none => exact .ends (idle fun _ => written) on
    | some doc => exact .writes inst userId pending doc here first written
  · rename_i later
    refine .goes _ (idle fun first => absurd first later) on (by rintro inst ⟨⟩) fun takes => ?_
    rw [here] at backed
    exact absurd (backed takes) later

theorem commit_turns {userId : String} {pending : Option (List Write)}
    (here : s.phase n = .committing userId pending) : Turns s n (s.commit n userId pending) := by
  unfold commit
  split
  · exact .ends (idle_of_ne (by rw [here]; rintro inst userId pending ⟨⟩))
      (by rw [here]; exact BootPhase.noConfusion)
  · rename_i db _
    exact .commits userId pending db here

theorem turn_turns (backed : (s.phase t.request).Backed t.request s.elected) :
    Turns s t.request (s.turn config t) := by
  unfold turn
  cases here : s.phase t.request with
  | arrived body =>
    have on : s.phase t.request ≠ .ended := by rw [here]; exact BootPhase.noConfusion
    have idle : s.Idle t.request := idle_of_ne (by rw [here]; rintro inst userId pending ⟨⟩)
    dsimp only
    split
    · exact .ends idle on
    · refine .goes _ idle on (fun inst reads => ?_) trivial
      cases reads
      exact .inl rfl
  | admitted body inst =>
    have on : s.phase t.request ≠ .ended := by rw [here]; exact BootPhase.noConfusion
    have idle : s.Idle t.request := idle_of_ne (by rw [here]; rintro inst userId pending ⟨⟩)
    dsimp only
    split
    · exact .ends idle on
    · exact .keeps idle (here ▸ rfl) rfl trivial
  | registering inst invite =>
    have on : s.phase t.request ≠ .ended := by rw [here]; exact BootPhase.noConfusion
    have idle : s.Idle t.request := idle_of_ne (by rw [here]; rintro inst userId pending ⟨⟩)
    dsimp only
    split
    · exact .ends idle on
    · exact .keeps idle (here ▸ rfl) rfl trivial
  | joining inst invite userId lobby =>
    have on : s.phase t.request ≠ .ended := by rw [here]; exact BootPhase.noConfusion
    have idle : s.Idle t.request := idle_of_ne (by rw [here]; rintro inst userId pending ⟨⟩)
    dsimp only
    split
    · split
      · refine .keeps idle (here ▸ rfl) rfl ?_
        rintro ⟨writes, there, -⟩
        cases there
      · exact .ends idle on
    · exact .keeps idle (here ▸ rfl) rfl fun takes => isFirstBoot_of_takesOver takes
  | completing inst userId pending => exact complete_turns here backed
  | committing userId pending => exact commit_turns here
  | ended => exact .stays (idle_of_ne (by rw [here]; rintro inst userId pending ⟨⟩))

/-! ## One administrator -/

/-- Until somebody is elected, what the registrations read of the keys they write is still so; then the
file says so. -/
structure Sound (s : Boot) : Prop where
  done : s.elected ≠ [] → s.doc.isSet "first_boot_complete" = true
  fresh : s.elected = [] → ∀ n inst, (s.phase n).inst? = some inst →
    ∀ key ∈ bootKeys, inst.get key = s.doc.get key
  backed : ∀ n, (s.phase n).Backed n s.elected
  unpromoted : ∀ n, s.phase n ≠ .ended → ∀ userId, (n, userId) ∉ s.promoted
  one : s.elected.length ≤ 1
  sub : s.promoted ⊆ s.elected
  nodup : s.promoted.Nodup

theorem Sound.oneAdministrator (h : s.Sound) : s.OneAdministrator :=
  ⟨h.one, ((List.subperm_of_subset h.nodup h.sub).length_le).trans h.one, h.sub⟩

theorem moved_self : (s.moved n phase).phase n = phase := Function.update_self ..

theorem moved_of_ne (other : m ≠ n) : (s.moved n phase).phase m = s.phase m :=
  Function.update_of_ne other ..

theorem sound_opened (doc : Document) (db : Db) (requests : Nat → RegisterRequest) :
    (opened doc db requests).Sound where
  done h := absurd rfl h
  fresh _ := by rintro n inst ⟨⟩
  backed _ := trivial
  unpromoted _ _ _ := List.not_mem_nil
  one := Nat.zero_le 1
  sub := List.nil_subset _
  nodup := List.nodup_nil

/-- No route of the admin sets what a registration does. -/
theorem not_mem_keys (w : SettingsWrite) : ∀ key ∈ bootKeys, key ∉ w.keys := by
  cases w <;> simp only [SettingsWrite.keys] <;> decide

theorem sound_admin (h : s.Sound) (w : SettingsWrite) : ({ s with doc := w.apply s.doc } : Boot).Sound := by
  have apart : ∀ key ∈ bootKeys, (w.apply s.doc).get key = s.doc.get key := fun key mem =>
    w.get_apply_of_not_mem (not_mem_keys w key mem)
  refine ⟨fun some' => ?_, fun none' n inst reads key mem => ?_, h.backed, h.unpromoted, h.one, h.sub,
    h.nodup⟩
  · show Document.isSet (w.apply s.doc) "first_boot_complete" = true
    rw [Document.isSet, apart _ (by decide)]
    exact h.done some'
  · rw [h.fresh none' n inst reads key mem]
    exact (apart key mem).symm

/-- A write-back finds the file as it was read only while nobody is elected. -/
theorem Sound.elected_eq_nil (h : s.Sound) {inst : Document} (first : inst.settings.isFirstBoot = true)
    (same : ∀ key, s.doc.get key = inst.get key) : s.elected = [] := by
  by_contra some'
  rw [← Document.isFirstBoot_congr same] at first
  simp only [Settings.isFirstBoot, Document.settings, h.done some', Bool.not_true, Bool.false_and,
    Bool.false_eq_true] at first

/-- Another registration goes on as before when one has moved. -/
theorem Sound.unpromoted_moved (h : s.Sound) (on : s.phase n ≠ .ended)
    (going : (s.moved n phase).phase m ≠ .ended) (userId : String) : (m, userId) ∉ s.promoted := by
  by_cases same : m = n
  · rw [same]
    exact h.unpromoted n on userId
  · rw [moved_of_ne same] at going
    exact h.unpromoted m going userId

theorem sound_goes (h : s.Sound) (on : s.phase n ≠ .ended)
    (reads : ∀ inst, phase.inst? = some inst → inst = s.doc ∨ (s.phase n).inst? = some inst)
    (backed : phase.Backed n s.elected) : (s.moved n phase).Sound where
  done := h.done
  fresh none' m inst read key mem := by
    by_cases same : m = n
    · rw [same, moved_self] at read
      rcases reads inst read with rfl | before
      · rfl
      · exact h.fresh none' n inst before key mem
    · rw [moved_of_ne same] at read
      exact h.fresh none' m inst read key mem
  backed m := by
    by_cases same : m = n
    · rw [same, moved_self]
      exact backed
    · rw [moved_of_ne same]
      exact h.backed m
  unpromoted m going userId := h.unpromoted_moved on going userId
  one := h.one
  sub := h.sub
  nodup := h.nodup

theorem sound_writes (h : s.Sound) {inst doc : Document} {userId : String}
    {pending : Option (List Write)} (here : s.phase n = .completing inst userId pending)
    (none' : s.elected = []) (written : completed inst userId = some doc) :
    ({ s with doc, elected := s.elected ++ [(n, userId)] }.moved n
      (.committing userId pending) : Boot).Sound where
  done _ := isSet_completed written
  fresh empty := absurd empty (List.concat_ne_nil (n, userId) s.elected)
  backed m := by
    by_cases same : m = n
    · rw [same, moved_self]
      exact fun _ => List.mem_append_right _ (List.mem_singleton.mpr rfl)
    · rw [moved_of_ne same]
      exact BootPhase.Backed.append (h.backed m)
  unpromoted m going userId :=
    h.unpromoted_moved (by rw [here]; exact BootPhase.noConfusion) going userId
  one := by
    show (s.elected ++ [(n, userId)]).length ≤ 1
    rw [none']
    exact le_rfl
  sub := List.Subset.trans h.sub (List.subset_append_left _ _)
  nodup := h.nodup

theorem sound_commits (h : s.Sound) {userId : String} {pending : Option (List Write)} (db : Db)
    (here : s.phase n = .committing userId pending) :
    ({ s with
      db
      promoted := if TakesOver pending then s.promoted ++ [(n, userId)] else s.promoted }.moved n
        .ended : Boot).Sound := by
  have on : s.phase n ≠ .ended := by rw [here]; exact BootPhase.noConfusion
  have ended : (s.moved n .ended).Sound := sound_goes h on (by rintro inst ⟨⟩) trivial
  refine ⟨ended.done, ended.fresh, ended.backed, fun m going user => ?_, h.one, ?_, ?_⟩
  · have other : m ≠ n := fun same => going (by rw [same, moved_self])
    show (m, user) ∉ if TakesOver pending then s.promoted ++ [(n, userId)] else s.promoted
    split
    · rw [List.mem_append, List.mem_singleton, Prod.mk.injEq, not_or]
      exact ⟨ended.unpromoted m going user, fun both => other both.1⟩
    · exact ended.unpromoted m going user
  · show (if TakesOver pending then s.promoted ++ [(n, userId)] else s.promoted) ⊆ s.elected
    split
    · rename_i takes
      have backed := h.backed n
      rw [here] at backed
      exact List.append_subset.mpr ⟨h.sub, List.cons_subset.mpr ⟨backed takes, List.nil_subset _⟩⟩
    · exact h.sub
  · show (if TakesOver pending then s.promoted ++ [(n, userId)] else s.promoted).Nodup
    split
    · exact List.nodup_append.mpr ⟨h.nodup, List.nodup_singleton _, by
        rintro e mem e' mem' rfl
        rw [List.mem_singleton.mp mem'] at mem
        exact h.unpromoted n on userId mem⟩
    · exact h.nodup

/-- A turn that does not write back leaves the file alone. -/
theorem losesNothing_of_doc {e : BootEvent} (same : (s.step config e).doc = s.doc) :
    s.LosesNothing config e := by
  refine ⟨fun key _ => by rw [same], ?_⟩
  rw [same]
  exact List.Subset.refl _

theorem losesNothing_admin (w : SettingsWrite) : s.LosesNothing config (.admin w) := by
  refine ⟨fun key other => w.get_apply_of_not_mem other, ?_⟩
  show s.doc.adminUserIds ⊆ (w.apply s.doc).adminUserIds
  rw [Document.adminUserIds, Document.adminUserIds, w.get_apply_of_not_mem (not_mem_keys w _ (by decide))]
  exact List.Subset.refl _

/-- A write-back keeps the one administrator and what stands in the file exactly when it finds the
file as it was read. -/
theorem written_iff (h : s.Sound) {inst doc : Document} {userId : String}
    {pending : Option (List Write)} (here : s.phase n = .completing inst userId pending)
    (first : inst.settings.isFirstBoot = true) (written : completed inst userId = some doc) :
    ((s.elected ++ [(n, userId)]).length ≤ 1 ∧ (∀ key ∉ bootKeys, doc.get key = s.doc.get key) ∧
      s.doc.adminUserIds ⊆ doc.adminUserIds) ↔ ∀ key, s.doc.get key = inst.get key := by
  constructor
  · rintro ⟨few, kept, -⟩ key
    by_cases own : key ∈ bootKeys
    · have none' : s.elected = [] := by
        rw [List.length_append] at few
        exact List.eq_nil_of_length_eq_zero (Nat.le_zero.mp (Nat.le_of_succ_le_succ few))
      refine (h.fresh none' n inst ?_ key own).symm
      rw [here]
      rfl
    · rw [← kept key own, get_completed written own]
  · intro same
    have none' := h.elected_eq_nil first same
    refine ⟨by rw [none']; exact le_rfl, fun key other => ?_, ?_⟩
    · rw [get_completed written other, same key]
    · have admins : s.doc.adminUserIds = inst.adminUserIds := by
        rw [Document.adminUserIds, Document.adminUserIds, same]
      rw [admins]
      exact adminUserIds_completed written

theorem writesBack_of_idle (idle : s.Idle t.request) : s.WritesBack (.turn t) :=
  fun inst userId pending here first written =>
    absurd (idle inst userId pending here first) written

theorem losesNothing_iff {doc : Document} (after : (s.turn config t).doc = doc) :
    s.LosesNothing config (.turn t) ↔
      (∀ key ∉ bootKeys, doc.get key = s.doc.get key) ∧ s.doc.adminUserIds ⊆ doc.adminUserIds := by
  rw [← after]
  rfl

/-- Under the invariant, an event does as it should exactly when it meets the condition. -/
theorem oneAdministrator_step_iff (h : s.Sound) (e : BootEvent) :
    (s.step config e).OneAdministrator ∧ s.LosesNothing config e ↔ s.WritesBack e := by
  cases e with
  | admin w =>
    exact iff_of_true ⟨(sound_admin h w).oneAdministrator, losesNothing_admin w⟩ trivial
  | turn t =>
    show (s.turn config t).OneAdministrator ∧ _ ↔ _
    have turns : Turns s t.request (s.turn config t) := turn_turns (h.backed t.request)
    generalize after : s.turn config t = s' at turns
    cases turns with
    | stays idle =>
      exact iff_of_true ⟨h.oneAdministrator, losesNothing_of_doc (congrArg Boot.doc after)⟩
        (writesBack_of_idle idle)
    | goes phase idle on reads backed =>
      have kept : (s.turn config t).doc = s.doc := by
        rw [after]
        rfl
      exact iff_of_true ⟨(sound_goes h on reads backed).oneAdministrator, losesNothing_of_doc kept⟩
        (writesBack_of_idle idle)
    | commits userId pending db here =>
      have kept : (s.turn config t).doc = s.doc := by
        rw [after]
        rfl
      exact iff_of_true ⟨(sound_commits h db here).oneAdministrator, losesNothing_of_doc kept⟩
        (writesBack_of_idle (idle_of_ne (by rw [here]; rintro inst userId pending ⟨⟩)))
    | writes inst userId pending doc here first written =>
      have exact' := written_iff h here first written
      rw [losesNothing_iff (congrArg Boot.doc after)]
      constructor
      · rintro ⟨one, kept⟩ inst' userId' pending' there first' written'
        rw [here] at there
        cases there
        exact exact'.mp ⟨one.1, kept⟩
      · intro back
        have same := back inst userId pending here first
          (by rw [written]; exact Option.some_ne_none doc)
        have none' := h.elected_eq_nil first same
        exact ⟨(sound_writes h here none' written).oneAdministrator, (exact'.mpr same).2⟩

theorem sound_step (h : s.Sound) {e : BootEvent} (back : s.WritesBack e) : (s.step config e).Sound := by
  cases e with
  | admin w => exact sound_admin h w
  | turn t =>
    show (s.turn config t).Sound
    have turns : Turns s t.request (s.turn config t) := turn_turns (h.backed t.request)
    generalize s.turn config t = s' at turns
    cases turns with
    | stays => exact h
    | goes phase idle on reads backed => exact sound_goes h on reads backed
    | commits userId pending db here => exact sound_commits h db here
    | writes inst userId pending doc here first written =>
      have same := back inst userId pending here first
        (by rw [written]; exact Option.some_ne_none doc)
      exact sound_writes h here (h.elected_eq_nil first same) written

/-- At every step of a run at most one administrator has been elected and nothing in the file is lost,
exactly when each write-back finds the file as its registration read it. -/
theorem oneAdministrator_along_iff (config : Config) (doc : Document) (db : Db)
    (requests : Nat → RegisterRequest) (es : List BootEvent) :
    Along (step config) (fun s e => (s.step config e).OneAdministrator ∧ s.LosesNothing config e)
        (opened doc db requests) es ↔
      Along (step config) WritesBack (opened doc db requests) es :=
  along_congr_under Sound
    (fun _ e h did => sound_step h ((oneAdministrator_step_iff h e).mp did))
    (fun _ e h => oneAdministrator_step_iff h e) (sound_opened doc db requests)

/-- Two registrations arrive before either is done, and both are administrators in the end. -/
theorem two_administrators : ∃ (config : Config) (doc : Document) (db : Db)
    (requests : Nat → RegisterRequest) (es : List BootEvent), doc.settings.isFirstBoot = true ∧
      ¬Along (step config) (fun s e => (s.step config e).OneAdministrator ∧ s.LosesNothing config e)
        (opened doc db requests) es := by
  let turn (n : Nat) : BootEvent := .turn { request := n, matrix := .ok s!"@u{n}:h" }
  refine ⟨{}, [], {}, fun n => ⟨s!"u{n}", none⟩, [turn 0, turn 1, turn 0, turn 0, turn 0, turn 0,
    turn 1, turn 1, turn 1, turn 1], by decide, fun along => ?_⟩
  have last := (along_iff.mp along) [turn 0, turn 1, turn 0, turn 0, turn 0, turn 0,
    turn 1, turn 1, turn 1] (turn 1) [] rfl
  exact absurd last.1.1 (by decide)

end Boot

end Concorrd.Api
