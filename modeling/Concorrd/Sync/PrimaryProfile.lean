import Concorrd.Sync.AccountDominance

/-!
# The primary profile

The index on `is_primary` gives at most one primary profile. That there is one is up to the
calls, and every call keeps it but one: deleting the primary profile with the confirmation,
while another profile is left. `wellOwned_along_iff` says so for every run, together with what
holds without a condition, that every keychain entry belongs to a live profile.
-/

namespace Concorrd

/-- A call on the profiles, or anything else that can happen to an install. -/
inductive ProfileEvent where
  | install (e : InstallEvent)
  | deleteProfile (id : String) (confirmPrimaryDemotion : Bool)

namespace Accounts

/-- A live profile has the id. -/
def Live (accounts : Accounts) (id : String) : Prop :=
  ∃ row ∈ accounts.profiles.rows, row.id = id ∧ row.syncTombstone = 0

/-- Every keychain entry belongs to a live profile. -/
def OwnersLive (accounts : Accounts) : Prop :=
  ∀ entry ∈ accounts.keychain.rows, accounts.Live entry.profileId

instance (accounts : Accounts) (id : String) : Decidable (accounts.Live id) :=
  inferInstanceAs (Decidable (∃ row ∈ accounts.profiles.rows, _))

instance (accounts : Accounts) : Decidable accounts.OwnersLive :=
  inferInstanceAs (Decidable (∀ entry ∈ accounts.keychain.rows, _))

/-- No live profile is lost, and no entry goes to another owner than a live one. -/
structure KeepsOwners (accounts accounts' : Accounts) : Prop where
  live : ∀ id, accounts.Live id → accounts'.Live id
  entries : ∀ entry ∈ accounts'.keychain.rows, accounts'.Live entry.profileId ∨
    ∃ old ∈ accounts.keychain.rows, old.profileId = entry.profileId

variable {accounts accounts' : Accounts} {id : String}

theorem KeepsOwners.ownersLive (h : KeepsOwners accounts accounts') (live : accounts.OwnersLive) :
    accounts'.OwnersLive := by
  intro entry hentry
  rcases h.entries entry hentry with hlive | ⟨old, hold, howner⟩
  · exact hlive
  · rw [← howner]
    exact h.live _ (live old hold)

theorem KeepsOwners.refl (accounts : Accounts) : KeepsOwners accounts accounts :=
  ⟨fun _ h => h, fun entry h => .inr ⟨entry, h, rfl⟩⟩

theorem KeepsOwners.trans {accounts'' : Accounts} (h : KeepsOwners accounts accounts')
    (h' : KeepsOwners accounts' accounts'') : KeepsOwners accounts accounts'' where
  live id hlive := h'.live id (h.live id hlive)
  entries entry hentry := by
    rcases h'.entries entry hentry with hlive | ⟨mid, hmid, howner⟩
    · exact .inl hlive
    · rw [← howner]
      rcases h.entries mid hmid with hlive | hold
      · exact .inl (h'.live _ hlive)
      · exact .inr hold

/-- An UPDATE that leaves the tombstones alone. -/
theorem keepsOwners_updateProfiles {cond : UserProfileRow → Bool}
    {set : UserProfileRow → UserProfileRow} {hset : ∀ row, (set row).id = row.id}
    (h : accounts.updateProfiles cond set hset = .ok accounts')
    (keep : ∀ row, (set row).syncTombstone = row.syncTombstone) :
    KeepsOwners accounts accounts' := by
  obtain ⟨hprofiles, hkeychain⟩ := commit_eq_ok h
  constructor
  · rintro id ⟨row, hrow, hid, halive⟩
    rw [Live, hprofiles]
    refine ⟨_, KeyedTable.mem_updateWhere.mpr ⟨row, hrow, rfl⟩, ?_⟩
    split
    · rw [hset, keep]
      exact ⟨hid, halive⟩
    · exact ⟨hid, halive⟩
  · intro entry hentry
    rw [hkeychain] at hentry
    exact .inr ⟨entry, hentry, rfl⟩

theorem keepsOwners_insertProfile {row : UserProfileRow}
    (h : accounts.insertProfile row = .ok accounts') : KeepsOwners accounts accounts' := by
  unfold insertProfile at h
  split at h
  · rename_i profiles hinsert
    obtain ⟨hprofiles, hkeychain⟩ := commit_eq_ok h
    constructor
    · rintro id ⟨old, hold, hlive⟩
      rw [Live, hprofiles]
      exact ⟨old, (KeyedTable.mem_rows_of_insert? hinsert).mpr (.inl hold), hlive⟩
    · intro entry hentry
      rw [hkeychain] at hentry
      exact .inr ⟨entry, hentry, rfl⟩
  · cases h

/-- An entry is inserted for a live profile. -/
theorem keepsOwners_insertEntry {row : KeychainEntryRow} (live : accounts.Live row.profileId)
    (h : accounts.insertEntry row = .ok accounts') : KeepsOwners accounts accounts' := by
  unfold insertEntry at h
  split at h
  · rename_i keychain hinsert
    obtain ⟨hprofiles, hkeychain⟩ := commit_eq_ok h
    constructor
    · intro id hlive
      rw [Live, hprofiles]
      exact hlive
    · intro entry hentry
      rw [hkeychain] at hentry
      rcases (KeyedTable.mem_rows_of_insert? hinsert).mp hentry with hold | rfl
      · exact .inr ⟨entry, hold, rfl⟩
      · rw [Live, hprofiles]
        exact .inl live
  · cases h

/-- An UPDATE of entries that leaves their owners alone. -/
theorem keepsOwners_updateEntries {cond : KeychainEntryRow → Bool}
    {set : KeychainEntryRow → KeychainEntryRow} {hset : ∀ row, (set row).id = row.id}
    (h : accounts.updateEntries cond set hset = .ok accounts')
    (keep : ∀ row, (set row).profileId = row.profileId) : KeepsOwners accounts accounts' := by
  obtain ⟨hprofiles, hkeychain⟩ := commit_eq_ok h
  constructor
  · intro id hlive
    rw [Live, hprofiles]
    exact hlive
  · intro entry hentry
    rw [hkeychain] at hentry
    obtain ⟨old, hold, rfl⟩ := KeyedTable.mem_updateWhere.mp hentry
    refine .inr ⟨old, hold, ?_⟩
    split
    · exact (keep old).symm
    · rfl

/-- The index leaves at most one primary profile, so one live primary is exactly one. -/
theorem onePrimary_iff : Porch.OnePrimary accounts.profiles ↔ accounts.HasPrimary := by
  unfold Porch.OnePrimary HasPrimary
  have flags : ∀ row, Porch.isLivePrimary row = true ↔
      row.isPrimary = true ∧ row.syncTombstone = 0 := by
    intro row
    simp only [Porch.isLivePrimary, Bool.and_eq_true, decide_eq_true_eq]
  constructor
  · intro one
    obtain ⟨row, hrow⟩ := List.length_eq_one_iff.mp one
    obtain ⟨hmem, hflags⟩ := List.mem_filter.mp (hrow ▸ List.mem_singleton_self row)
    exact ⟨row, hmem, (flags row).mp hflags⟩
  · rintro ⟨row, hrow, hflags⟩
    have hmem : row ∈ accounts.profiles.rows.filter Porch.isLivePrimary :=
      List.mem_filter.mpr ⟨hrow, (flags row).mpr hflags⟩
    have same : ∀ other ∈ accounts.profiles.rows.filter Porch.isLivePrimary, other = row := by
      intro other hother
      obtain ⟨hmem', hflags'⟩ := List.mem_filter.mp hother
      exact KeyedTable.eq_of_key_eq hmem' hrow
        (accounts.onePrimary other hmem' row hrow ((flags other).mp hflags').1 hflags.1)
    have nodup : (accounts.profiles.rows.filter Porch.isLivePrimary).Nodup :=
      (List.Nodup.of_map _ accounts.profiles.nodup).filter _
    have only : accounts.profiles.rows.filter Porch.isLivePrimary = [row] := by
      rw [← List.perm_singleton]
      apply (List.perm_ext_iff_of_nodup nodup (List.nodup_singleton row)).mpr
      intro other
      rw [List.mem_singleton]
      exact ⟨same other, fun h => h ▸ hmem⟩
    rw [only]
    rfl

end Accounts

namespace Porch

variable {p p' : Porch} {id : String} {confirm : Bool}

/-- Exactly one live primary profile, and every keychain entry belongs to a live profile. -/
structure WellOwned (p : Porch) : Prop where
  primary : OnePrimary p.accounts.profiles
  owners : p.accounts.OwnersLive

/-- One event. What fails leaves the install as it was. -/
def profileStep (p : Porch) : ProfileEvent → Porch
  | .install e => p.installStep e
  | .deleteProfile id confirm =>
    match p.deleteProfile id confirm with
    | .ok p' => p'
    | .error _ => p

/-- Number of live profiles. -/
def liveProfiles (p : Porch) : Nat :=
  (p.accounts.profiles.rows.filter fun row => row.syncTombstone = 0).length

/-- The event is no confirmed deletion of the live primary profile while another is left. -/
def SparesPrimary (p : Porch) (e : ProfileEvent) : Prop :=
  ∀ id, e = .deleteProfile id true → ∀ row ∈ p.accounts.profiles.rows, row.id = id →
    isLivePrimary row = true → p.liveProfiles ≤ 1

/-! ## The account writes -/

theorem live_of_getProfile (h : ¬ (p.getProfile id).isNone = true) : p.accounts.Live id := by
  obtain ⟨row, hrow, hlive⟩ := exists_isLive h
  rw [isLive, Bool.and_eq_true, decide_eq_true_eq, decide_eq_true_eq] at hlive
  exact ⟨row, hrow, hlive⟩

theorem keepsOwners_updateProfile {after : String} {set : UserProfileRow → UserProfileRow}
    {hset : ∀ row, (set row).id = row.id} {out : AccountOutcome UserProfile}
    (h : p.updateProfile id after set hset = .ok out)
    (keep : ∀ row, (set row).syncTombstone = row.syncTombstone) :
    Accounts.KeepsOwners p.accounts out.porch.accounts := by
  unfold updateProfile at h
  split at h
  · cases h
  split at h
  · cases h
  rename_i accounts hupdate
  dsimp only at h
  split at h
  · cases h
  cases h
  exact Accounts.keepsOwners_updateProfiles hupdate keep

/-- Every account write keeps the live profiles and the owners of entries. -/
theorem keepsOwners_performAccount {op : AccountOp} {out : AccountOutcome Unit}
    (h : p.performAccount op = .ok out) : Accounts.KeepsOwners p.accounts out.porch.accounts := by
  cases op with
  | createProfile displayName id now =>
    obtain ⟨o, ho, rfl⟩ := account_of_map h
    unfold createProfile at ho
    split at ho
    · cases ho
    dsimp only at ho
    split at ho
    · cases ho
    rename_i accounts hinsert
    cases ho
    exact Accounts.keepsOwners_insertProfile hinsert
  | renameProfile id displayName =>
    obtain ⟨o, ho, rfl⟩ := account_of_map h
    unfold renameProfile at ho
    split at ho
    · cases ho
    exact keepsOwners_updateProfile ho fun _ => rfl
  | setProfileAvatar id avatarUrl =>
    obtain ⟨o, ho, rfl⟩ := account_of_map h
    exact keepsOwners_updateProfile ho fun _ => rfl
  | setPrimary id =>
    obtain ⟨o, ho, rfl⟩ := account_of_map h
    obtain ⟨demoted, promoted, hdemote, hpromote, hporch, _, _⟩ := setPrimary_eq_ok ho
    show Accounts.KeepsOwners p.accounts o.porch.accounts
    rw [hporch]
    exact (Accounts.keepsOwners_updateProfiles hdemote fun _ => rfl).trans
      (Accounts.keepsOwners_updateProfiles hpromote fun _ => rfl)
  | addKeychainEntry cipher seed profileId sourceKind sourceHost label credentials id now =>
    obtain ⟨o, ho, rfl⟩ := account_of_map h
    unfold addKeychainEntry at ho
    split at ho
    · cases ho
    split at ho
    · cases ho
    rename_i hlive
    split at ho
    · cases ho
    split at ho
    · cases ho
    dsimp only at ho
    split at ho
    · cases ho
    rename_i accounts hinsert
    cases ho
    exact Accounts.keepsOwners_insertEntry (live_of_getProfile hlive) hinsert
  | decryptCredentials cipher seed entryId now =>
    obtain ⟨o, ho, rfl⟩ := account_of_map h
    unfold decryptCredentials at ho
    split at ho
    · cases ho
    split at ho
    · cases ho
    split at ho
    · cases ho
    split at ho
    · cases ho
      exact .refl p.accounts
    rename_i accounts hupdate
    cases ho
    exact Accounts.keepsOwners_updateEntries hupdate fun _ => rfl

/-- The events of an install other than a deletion keep the property. -/
theorem WellOwned.installStep (h : WellOwned p) (e : InstallEvent) :
    WellOwned (p.installStep e) := by
  cases e with
  | tables e =>
    show WellOwned (p.step e)
    rw [step_rest]
    exact ⟨h.primary, h.owners⟩
  | account op =>
    unfold Porch.installStep
    cases hop : p.performAccount op with
    | error e =>
      simp only [hop]
      exact h
    | ok out =>
      simp only [hop]
      have primary := (performAccount_contract hop).1.primary (Accounts.onePrimary_iff.mp h.primary)
      exact ⟨Accounts.onePrimary_iff.mpr primary,
        (keepsOwners_performAccount hop).ownersLive h.owners⟩

/-! ## Deletion -/

/-- A deletion succeeds on a live profile that is not the last one and, where it is primary,
under the confirmation. -/
theorem deleteProfile_eq_ok_iff : p.deleteProfile id confirm = .ok p' ↔
    (∃ row ∈ p.accounts.profiles.rows, row.id = id ∧ row.syncTombstone = 0 ∧
      (row.isPrimary = true → confirm = true)) ∧ 1 < p.liveProfiles ∧
      p' = { p with accounts := p.accounts.deleteProfile id } := by
  unfold deleteProfile
  cases hfind : p.accounts.profiles.find? id with
  | none =>
    simp only [Option.filter_none, reduceCtorEq, false_iff]
    rintro ⟨⟨row, hrow, rfl, _⟩, _⟩
    exact KeyedTable.find?_eq_none_iff.mp hfind row hrow rfl
  | some row =>
    obtain ⟨hrow, hid⟩ := KeyedTable.find?_eq_some_iff.mp hfind
    have only : ∀ other ∈ p.accounts.profiles.rows, other.id = id → other = row :=
      fun other hother h => KeyedTable.eq_of_key_eq hother hrow (h.trans hid.symm)
    by_cases halive : row.syncTombstone = 0
    · have found : row ∈ p.accounts.profiles.rows.filter fun row => row.id = id :=
        List.mem_filter.mpr ⟨hrow, decide_eq_true hid⟩
      have some_row : (p.accounts.profiles.rows.filter fun row => row.id = id).isEmpty = false := by
        rw [List.isEmpty_eq_false_iff]
        exact List.ne_nil_of_mem found
      simp only [Option.filter_some, halive, decide_true, if_true, some_row, Bool.false_eq_true,
        if_false]
      show (if p.liveProfiles ≤ 1 then _ else _) = _ ↔ _
      by_cases hfew : p.liveProfiles ≤ 1
      · rw [if_pos hfew]
        constructor
        · nofun
        · rintro ⟨_, hmany, _⟩
          omega
      · rw [if_neg hfew]
        by_cases hguard : (row.isPrimary && !confirm) = true
        · rw [if_pos hguard]
          constructor
          · nofun
          · rintro ⟨⟨other, hother, hotherId, _, hconfirm⟩, _⟩
            rw [only other hother hotherId] at hconfirm
            obtain ⟨hprimary, hdenied⟩ := (Bool.and_eq_true _ _ ▸ hguard : _ ∧ _)
            rw [hconfirm hprimary] at hdenied
            cases hdenied
        · rw [if_neg hguard, Except.ok.injEq]
          constructor
          · rintro rfl
            refine ⟨⟨row, hrow, hid, halive, fun hprimary => ?_⟩, by omega, rfl⟩
            rw [hprimary] at hguard
            simpa using hguard
          · rintro ⟨_, _, rfl⟩
            rfl
    · simp only [Option.filter_some, halive, decide_false, Bool.false_eq_true, if_false,
        reduceCtorEq, false_iff]
      rintro ⟨⟨other, hother, hotherId, hotherAlive, _⟩, _⟩
      rw [only other hother hotherId] at hotherAlive
      exact halive hotherAlive

/-- The entries that are left keep their owners. -/
theorem ownersLive_deleteProfile (h : p.accounts.OwnersLive) (id : String) :
    (p.accounts.deleteProfile id).OwnersLive := by
  intro entry hentry
  obtain ⟨hmem, hne⟩ := List.mem_filter.mp hentry
  obtain ⟨row, hrow, howner, halive⟩ := h entry hmem
  refine ⟨row, List.mem_filter.mpr ⟨hrow, ?_⟩, howner, halive⟩
  show (!decide (row.id = id)) = true
  rw [howner]
  exact hne

/-- A deletion keeps the primary profile exactly when it deletes another. -/
theorem hasPrimary_deleteProfile_iff {row : UserProfileRow}
    (hrow : row ∈ p.accounts.profiles.rows) (h : p.accounts.HasPrimary) :
    (p.accounts.deleteProfile row.id).HasPrimary ↔ row.isPrimary = false := by
  obtain ⟨primary, hmem, hflag, hlive⟩ := h
  constructor
  · rintro ⟨left, hleft, hleftFlag, _⟩
    obtain ⟨hleftMem, hne⟩ := List.mem_filter.mp hleft
    by_contra hrowFlag
    have same := p.accounts.onePrimary left hleftMem row hrow hleftFlag
      (Bool.eq_true_of_not_eq_false hrowFlag)
    simp [same] at hne
  · intro hrowFlag
    refine ⟨primary, List.mem_filter.mpr ⟨hmem, ?_⟩, hflag, hlive⟩
    have hne : primary.id ≠ row.id := by
      intro same
      rw [KeyedTable.eq_of_key_eq hmem hrow same, hrowFlag] at hflag
      cases hflag
    simp [hne]

/-! ## Runs -/

/-- One event keeps the property exactly when it spares the primary profile. -/
theorem wellOwned_profileStep_iff (h : WellOwned p) (e : ProfileEvent) :
    WellOwned (p.profileStep e) ↔ p.SparesPrimary e := by
  cases e with
  | install e => exact iff_of_true (h.installStep e) nofun
  | deleteProfile id confirm =>
    have step : p.profileStep (.deleteProfile id confirm) =
        match p.deleteProfile id confirm with
        | .ok p' => p'
        | .error _ => p := rfl
    rw [step]
    cases hdelete : p.deleteProfile id confirm with
    | error e =>
      refine iff_of_true h fun other heq row hrow hid hprimary => ?_
      cases heq
      by_contra hmany
      have halive := of_decide_eq_true (Bool.and_eq_true _ _ ▸ hprimary : _ ∧ _).2
      have deleted := deleteProfile_eq_ok_iff.mpr
        ⟨⟨row, hrow, hid, halive, fun _ => rfl⟩, not_le.mp hmany, rfl⟩
      rw [hdelete] at deleted
      cases deleted
    | ok p' =>
      obtain ⟨⟨row, hrow, rfl, halive, hconfirm⟩, hmany, rfl⟩ := deleteProfile_eq_ok_iff.mp hdelete
      have kept := hasPrimary_deleteProfile_iff hrow (Accounts.onePrimary_iff.mp h.primary)
      constructor
      · intro good other heq found hfound hid hprimary
        cases heq
        have hflag := kept.mp (Accounts.onePrimary_iff.mp good.primary)
        rw [KeyedTable.eq_of_key_eq hfound hrow hid, isLivePrimary, hflag] at hprimary
        cases hprimary
      · intro spares
        refine ⟨Accounts.onePrimary_iff.mpr (kept.mpr ?_), ownersLive_deleteProfile h.owners _⟩
        by_contra hflag
        have primary := Bool.eq_true_of_not_eq_false hflag
        have live : isLivePrimary row = true := by
          simp only [isLivePrimary, primary, halive, decide_true, Bool.and_self]
        rw [hconfirm primary] at spares
        exact absurd (spares row.id rfl row hrow rfl live) (by omega)

theorem wellOwned_opened (old : OldDatabase) (args : OpenArgs) : WellOwned (opened old args) := by
  rw [rest_opened]
  exact ⟨rfl, fun _ h => absurd h List.not_mem_nil⟩

/-- **One primary profile.** Along every run from a migrated database, every state has exactly
one live primary profile and no keychain entry without a live owner, exactly when no step of
the run is a confirmed deletion of the primary profile while another live one is left. -/
theorem wellOwned_along_iff (old : OldDatabase) (args : OpenArgs) (events : List ProfileEvent) :
    (WellOwned (opened old args) ∧
      Machine.Along profileStep (fun p e => WellOwned (p.profileStep e))
        (opened old args) events) ↔
      Machine.Along profileStep SparesPrimary (opened old args) events := by
  have start := wellOwned_opened old args
  have along : Machine.Along profileStep (fun p e => WellOwned (p.profileStep e))
      (opened old args) events ↔ Machine.Along profileStep SparesPrimary (opened old args) events :=
    Machine.along_step_iff (fun p e h => wellOwned_profileStep_iff h e) start
  exact ⟨fun h => along.mp h.2, fun h => ⟨start, along.mpr h⟩⟩

/-- A second profile is created, and the seeded one is deleted with the confirmation. -/
theorem deletion_leaves_no_primary :
    ¬ Machine.Along profileStep (fun p e => WellOwned (p.profileStep e)) freshPorch
      [.install (.account (.createProfile "Work" "profile-b" 2)),
        .deleteProfile "profile-a" true] := by
  intro ⟨_, hsecond, _⟩
  have lost : ¬ OnePrimary ((freshPorch.profileStep
      (.install (.account (.createProfile "Work" "profile-b" 2)))).profileStep
        (.deleteProfile "profile-a" true)).accounts.profiles := by decide
  exact lost hsecond.primary

end Porch

end Concorrd
