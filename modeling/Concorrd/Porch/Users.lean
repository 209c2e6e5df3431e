import Concorrd.Lib.Json
import Concorrd.Porch.State
import Concorrd.Porch.Text

/-!
# Users and their keychain

The six writes of the account tables. They stamp their rows from the clock of the seven
synced tables, which the account tables are not part of. A write answers with the log of its
statements: what the account tables held before the statement, and the row it wrote.

Sealing and opening credentials is a `KeychainCipher`; the seed arrives as what the seed
provider answered.
-/

namespace Concorrd

/-- Longest display name, in characters. -/
def maxDisplayNameLen : Nat := 64

/-- Length of an AEAD nonce. -/
def nonceLen : Nat := 12

/-- Public record of a profile. -/
structure UserProfile where
  id : String
  displayName : String
  avatarUrl : Option String
  isPrimary : Bool
  provenance : Provenance
  createdAt : Int64
  deriving DecidableEq, Repr

/-- The record of a stored profile. -/
def UserProfileRow.toProfile (row : UserProfileRow) : UserProfile :=
  ⟨row.id, row.displayName, row.avatarUrl, row.isPrimary, row.provenance, row.createdAt⟩

/-- Public record of a keychain entry: everything but the sealed credentials. -/
structure KeychainEntry where
  id : String
  profileId : String
  sourceKind : SourceKind
  sourceHost : String
  label : Option String
  createdAt : Int64
  lastUsedAt : Option Int64
  deriving DecidableEq, Repr

/-- The record of a stored entry. -/
def KeychainEntryRow.toEntry (row : KeychainEntryRow) : KeychainEntry :=
  ⟨row.id, row.profileId, row.sourceKind, row.sourceHost, row.label, row.createdAt, row.lastUsedAt⟩

/-- Sealing and opening under the key of a seed. Sealing draws a nonce and answers with it. -/
structure KeychainCipher where
  encrypt : List UInt8 → Json → Except PorchError (List UInt8 × List UInt8)
  decrypt : List UInt8 → List UInt8 → List UInt8 → Except PorchError Json

/-- Open a ciphertext under a nonce of the right length. -/
def decryptCredentialsBytes (cipher : KeychainCipher) (seed ciphertext nonce : List UInt8) :
    Except PorchError Json :=
  if nonce.length ≠ nonceLen then
    .error (.invalidInput ("keychain nonce wrong length: " ++ toString nonce.length ++ " != " ++
      toString nonceLen))
  else cipher.decrypt seed ciphertext nonce

/-- The trimmed name, when it is neither empty nor too long. -/
def validateDisplayName (name : String) : Except PorchError String :=
  let trimmed := trim name
  if trimmed.isEmpty then .error (.invalidInput "display_name must not be empty")
  else if trimmed.length > maxDisplayNameLen then
    .error (.invalidInput ("display_name too long: " ++ toString trimmed.length ++ " > " ++
      toString maxDisplayNameLen))
  else .ok trimmed

/-! ## Rows of both tables -/

/-- A row of an account table. -/
inductive AccountRow where
  | profile (row : UserProfileRow)
  | entry (row : KeychainEntryRow)
  deriving DecidableEq

namespace AccountRow

def lamport : AccountRow → Int64
  | profile row => row.syncLamport
  | entry row => row.syncLamport

def device : AccountRow → String
  | profile row => row.syncDeviceId
  | entry row => row.syncDeviceId

/-- The stamp of the row. -/
def stamp (r : AccountRow) : Stamp := toLex (r.lamport, r.device)

end AccountRow

/-- The rows of both account tables. -/
def Accounts.rows (accounts : Accounts) : List AccountRow :=
  accounts.profiles.rows.map .profile ++ accounts.keychain.rows.map .entry

/-- One row that a statement wrote, with the account tables the statement saw. -/
structure AccountWrite where
  before : Accounts
  row : AccountRow

/-- What a successful account write answers with. -/
structure AccountOutcome (α : Type) where
  porch : Porch
  written : List AccountWrite
  answer : α

namespace Accounts

/-- The log of `UPDATE user_profiles SET set WHERE cond`. -/
def profileLog (accounts : Accounts) (cond : UserProfileRow → Bool)
    (set : UserProfileRow → UserProfileRow) : List AccountWrite :=
  (accounts.profiles.rows.filter cond).map fun row => ⟨accounts, .profile (set row)⟩

/-- The log of `UPDATE keychain_entries SET set WHERE cond`. -/
def entryLog (accounts : Accounts) (cond : KeychainEntryRow → Bool)
    (set : KeychainEntryRow → KeychainEntryRow) : List AccountWrite :=
  (accounts.keychain.rows.filter cond).map fun row => ⟨accounts, .entry (set row)⟩

/-- `DELETE FROM user_profiles WHERE id = …`, with the cascade to the keychain -/
def deleteProfile (accounts : Accounts) (id : String) : Accounts where
  profiles := accounts.profiles.deleteWhere fun row => row.id = id
  keychain := accounts.keychain.deleteWhere fun entry => entry.profileId = id
  onePrimary r hr s hs :=
    accounts.onePrimary r (List.mem_of_mem_filter hr) s (List.mem_of_mem_filter hs)
  owners e he := by
    obtain ⟨hmem, hne⟩ := List.mem_filter.mp he
    obtain ⟨row, hrow, howner⟩ := accounts.owners e hmem
    refine ⟨row, List.mem_filter.mpr ⟨hrow, ?_⟩, howner⟩
    show (!decide (row.id = id)) = true
    rw [howner]
    exact hne

end Accounts

namespace Porch

/-! ## The writes -/

/-- Look up a profile that is not tombstoned. -/
def getProfile (p : Porch) (id : String) : Option UserProfile :=
  ((p.accounts.profiles.find? id).filter fun row => row.syncTombstone = 0).map
    UserProfileRow.toProfile

/-- The live profile with an id. -/
def isLive (id : String) (row : UserProfileRow) : Bool := row.id = id && row.syncTombstone = 0

/-- Create a profile that is not primary. -/
def createProfile (p : Porch) (displayName id : String) (now : Int64) :
    Except PorchError (AccountOutcome UserProfile) :=
  match validateDisplayName displayName with
  | .error e => .error e
  | .ok name =>
    let row : UserProfileRow :=
      ⟨id, name, none, false, .local, now, p.deviceId, p.nextLamport, 0⟩
    match p.accounts.insertProfile row with
    | .error e => .error e
    | .ok accounts =>
      .ok ⟨{ p with accounts := accounts }, [⟨p.accounts, .profile row⟩], row.toProfile⟩

/-- Assign to a live profile and return it: the body of a rename and of an avatar update. -/
def updateProfile (p : Porch) (id after : String) (set : UserProfileRow → UserProfileRow)
    (hset : ∀ row, (set row).id = row.id) : Except PorchError (AccountOutcome UserProfile) :=
  if (p.getProfile id).isNone then .error (.invalidInput ("profile not found: " ++ id))
  else
    match p.accounts.updateProfiles (isLive id) set hset with
    | .error e => .error e
    | .ok accounts =>
      let p' := { p with accounts := accounts }
      match p'.getProfile id with
      | none => .error (.invalidInput ("profile vanished after " ++ after ++ ": " ++ id))
      | some profile => .ok ⟨p', p.accounts.profileLog (isLive id) set, profile⟩

/-- Rename a profile. -/
def renameProfile (p : Porch) (id displayName : String) :
    Except PorchError (AccountOutcome UserProfile) :=
  match validateDisplayName displayName with
  | .error e => .error e
  | .ok name =>
    p.updateProfile id "rename" (fun row => { row with
      displayName := name, syncDeviceId := p.deviceId, syncLamport := p.nextLamport }) fun _ => rfl

/-- Set or clear the avatar of a profile. -/
def setProfileAvatar (p : Porch) (id : String) (avatarUrl : Option String) :
    Except PorchError (AccountOutcome UserProfile) :=
  p.updateProfile id "avatar update" (fun row => { row with
    avatarUrl := avatarUrl, syncDeviceId := p.deviceId, syncLamport := p.nextLamport }) fun _ => rfl

/-- A live primary profile. -/
def isLivePrimary (row : UserProfileRow) : Bool := row.isPrimary && row.syncTombstone = 0

/-- Exactly one row is a live primary profile. -/
def OnePrimary (profiles : KeyedTable UserProfileRow.id) : Prop :=
  (profiles.rows.filter isLivePrimary).length = 1

instance (profiles : KeyedTable UserProfileRow.id) : Decidable (OnePrimary profiles) :=
  inferInstanceAs (Decidable (_ = _))

/-- `SET is_primary = 0` with the next lamport. -/
def demoteSet (p : Porch) (row : UserProfileRow) : UserProfileRow :=
  { row with isPrimary := false, syncDeviceId := p.deviceId, syncLamport := p.nextLamport }

/-- `SET is_primary = 1` with one lamport more, by an addition that wraps. -/
def promoteSet (p : Porch) (row : UserProfileRow) : UserProfileRow :=
  { row with isPrimary := true, syncDeviceId := p.deviceId, syncLamport := p.nextLamport + 1 }

/-- Demote the primary profile and promote another, in one transaction. -/
def setPrimary (p : Porch) (id : String) : Except PorchError (AccountOutcome UserProfile) :=
  if (p.getProfile id).isNone then .error (.invalidInput ("profile not found: " ++ id))
  else
    match p.accounts.updateProfiles isLivePrimary p.demoteSet fun _ => rfl with
    | .error e => .error e
    | .ok demoted =>
      match demoted.updateProfiles (isLive id) p.promoteSet fun _ => rfl with
      | .error e => .error e
      | .ok promoted =>
        let p' := { p with accounts := promoted }
        match p'.getProfile id with
        | none => .error (.invalidInput ("profile vanished after promote: " ++ id))
        | some profile =>
          .ok ⟨p', p.accounts.profileLog isLivePrimary p.demoteSet ++
            demoted.profileLog (isLive id) p.promoteSet, profile⟩

/-- Delete a profile and with it, by the cascade, its keychain entries. The last live profile
stays, and the primary one needs the confirmation. -/
def deleteProfile (p : Porch) (id : String) (confirmPrimaryDemotion : Bool) :
    Except PorchError Porch :=
  match (p.accounts.profiles.find? id).filter fun row => row.syncTombstone = 0 with
  | none => .error (.invalidInput ("profile not found: " ++ id))
  | some row =>
    let total := (p.accounts.profiles.rows.filter fun row => row.syncTombstone = 0).length
    if total ≤ 1 then .error (.invalidInput "cannot delete the last profile on the install")
    else if row.isPrimary && !confirmPrimaryDemotion then
      .error (.invalidInput ("refusing to delete primary profile without " ++
        "confirm_primary_demotion=true — promote another profile first or pass the confirmation " ++
        "flag"))
    else if (p.accounts.profiles.rows.filter fun row => row.id = id).isEmpty then
      .error (.invalidInput ("profile delete affected 0 rows: " ++ id))
    else .ok { p with accounts := p.accounts.deleteProfile id }

/-- Seal credentials into a new entry of a profile. -/
def addKeychainEntry (p : Porch) (cipher : KeychainCipher) (seed : Except PorchError (List UInt8))
    (profileId : String) (sourceKind : SourceKind) (sourceHost : String) (label : Option String)
    (credentials : Json) (id : String) (now : Int64) :
    Except PorchError (AccountOutcome KeychainEntry) :=
  if (trim sourceHost).isEmpty then .error (.invalidInput "source_host must not be empty")
  else if (p.getProfile profileId).isNone then
    .error (.invalidInput ("profile not found: " ++ profileId))
  else
    match seed with
    | .error e => .error e
    | .ok seed =>
      match cipher.encrypt seed credentials with
      | .error e => .error e
      | .ok (ciphertext, nonce) =>
        let row : KeychainEntryRow := ⟨id, profileId, sourceKind, sourceHost, label, ciphertext,
          nonce, now, none, p.deviceId, p.nextLamport, 0⟩
        match p.accounts.insertEntry row with
        | .error e => .error e
        | .ok accounts =>
          .ok ⟨{ p with accounts := accounts }, [⟨p.accounts, .entry row⟩], row.toEntry⟩

/-- `SET last_used_at` with the next lamport. -/
def usedSet (p : Porch) (now : Int64) (row : KeychainEntryRow) : KeychainEntryRow :=
  { row with lastUsedAt := some now, syncDeviceId := p.deviceId, syncLamport := p.nextLamport }

/-- Open the credentials of an entry and note the use. A note that fails is dropped. -/
def decryptCredentials (p : Porch) (cipher : KeychainCipher)
    (seed : Except PorchError (List UInt8)) (entryId : String) (now : Int64) :
    Except PorchError (AccountOutcome Json) :=
  match (p.accounts.keychain.find? entryId).filter fun row => row.syncTombstone = 0 with
  | none => .error (.invalidInput ("keychain entry not found: " ++ entryId))
  | some row =>
    match seed with
    | .error e => .error e
    | .ok seed =>
      match decryptCredentialsBytes cipher seed row.ciphertext row.nonce with
      | .error e => .error e
      | .ok value =>
        match p.accounts.updateEntries (fun row => row.id = entryId) (p.usedSet now)
            fun _ => rfl with
        | .error _ => .ok ⟨p, [], value⟩
        | .ok accounts =>
          .ok ⟨{ p with accounts := accounts },
            p.accounts.entryLog (fun row => row.id = entryId) (p.usedSet now), value⟩

end Porch

/-! ## What a write leaves -/

/-- Some profile is primary and alive. -/
def Accounts.HasPrimary (accounts : Accounts) : Prop :=
  ∃ row ∈ accounts.profiles.rows, row.isPrimary = true ∧ row.syncTombstone = 0

/-- A write keeps everything but the account tables. A row it leaves there was there before
or is in its log, the log is stamped by this install, and a primary profile stays one. -/
structure AccountContract {α : Type} (p : Porch) (out : AccountOutcome α) : Prop where
  rest : out.porch = { p with accounts := out.porch.accounts }
  source : ∀ r ∈ out.porch.accounts.rows, r ∈ p.accounts.rows ∨ ∃ w ∈ out.written, w.row = r
  device : ∀ w ∈ out.written, w.row.device = p.deviceId
  primary : p.accounts.HasPrimary → out.porch.accounts.HasPrimary

/-- Every statement of the write saw the account tables as they were before it, and stamped
the next lamport. -/
def StampsNext {α : Type} (p : Porch) (out : AccountOutcome α) : Prop :=
  ∀ w ∈ out.written, w.before = p.accounts ∧ w.row.stamp = toLex (p.nextLamport, p.deviceId)

namespace Accounts

variable {accounts accounts' : Accounts} {cond : UserProfileRow → Bool}
  {set : UserProfileRow → UserProfileRow} {hset : ∀ row, (set row).id = row.id}
  {w : AccountWrite} {r : AccountRow}

theorem mem_rows : r ∈ accounts.rows ↔
    (∃ row ∈ accounts.profiles.rows, AccountRow.profile row = r) ∨
      ∃ row ∈ accounts.keychain.rows, AccountRow.entry row = r := by
  simp only [rows, List.mem_append, List.mem_map]

theorem mem_profileLog : w ∈ accounts.profileLog cond set ↔
    ∃ row ∈ accounts.profiles.rows, cond row = true ∧ ⟨accounts, .profile (set row)⟩ = w := by
  simp only [profileLog, List.mem_map, List.mem_filter, and_assoc]

/-- An UPDATE of profiles leaves what it found or what it logged. -/
theorem source_of_updateProfiles (h : accounts.updateProfiles cond set hset = .ok accounts')
    (hr : r ∈ accounts'.rows) :
    r ∈ accounts.rows ∨ ∃ w ∈ accounts.profileLog cond set, w.row = r := by
  obtain ⟨hprofiles, hkeychain⟩ := commit_eq_ok h
  rw [mem_rows, hprofiles, hkeychain] at hr
  rcases hr with ⟨row, hrow, rfl⟩ | hentry
  · obtain ⟨old, hold, rfl⟩ := KeyedTable.mem_updateWhere.mp hrow
    by_cases hcond : cond old = true
    · rw [if_pos hcond]
      exact .inr ⟨_, mem_profileLog.mpr ⟨old, hold, hcond, rfl⟩, rfl⟩
    · rw [if_neg hcond]
      exact .inl (mem_rows.mpr (.inl ⟨old, hold, rfl⟩))
  · exact .inl (mem_rows.mpr (.inr hentry))

/-- An UPDATE that keeps the flag and the tombstone keeps the primary profile. -/
theorem hasPrimary_of_updateProfiles (h : accounts.updateProfiles cond set hset = .ok accounts')
    (keep : ∀ row, (set row).isPrimary = row.isPrimary ∧
      (set row).syncTombstone = row.syncTombstone)
    (hp : accounts.HasPrimary) : accounts'.HasPrimary := by
  obtain ⟨row, hrow, hprimary, halive⟩ := hp
  rw [HasPrimary, (commit_eq_ok h).1]
  refine ⟨_, KeyedTable.mem_updateWhere.mpr ⟨row, hrow, rfl⟩, ?_⟩
  split
  · rw [(keep row).1, (keep row).2]
    exact ⟨hprimary, halive⟩
  · exact ⟨hprimary, halive⟩

end Accounts

namespace Porch

variable {p : Porch} {id : String} {now : Int64}

/-- A live profile is stored. -/
theorem exists_isLive (h : ¬ (p.getProfile id).isNone = true) :
    ∃ row ∈ p.accounts.profiles.rows, isLive id row = true := by
  unfold getProfile at h
  cases hfind : p.accounts.profiles.find? id with
  | none =>
    rw [hfind] at h
    exact absurd rfl h
  | some row =>
    obtain ⟨hmem, hkey⟩ := KeyedTable.find?_eq_some_iff.mp hfind
    refine ⟨row, hmem, ?_⟩
    by_cases halive : row.syncTombstone = 0
    · simp only [isLive, hkey, halive, decide_true, Bool.and_self]
    · simp only [hfind, Option.filter_some, halive, decide_false, Bool.false_eq_true, if_false,
        Option.map_none, Option.isNone_none, not_true_eq_false] at h

section Create

variable {displayName : String} {out : AccountOutcome UserProfile}

theorem createProfile_contract (h : p.createProfile displayName id now = .ok out) :
    AccountContract p out ∧ StampsNext p out := by
  unfold createProfile at h
  split at h
  · cases h
  rename_i name _
  dsimp only at h
  split at h
  · cases h
  rename_i accounts hinsert
  cases h
  unfold Accounts.insertProfile at hinsert
  split at hinsert
  · rename_i profiles hprofiles
    obtain ⟨hp, hk⟩ := Accounts.commit_eq_ok hinsert
    refine ⟨⟨rfl, fun r hr => ?_, fun w hw => ?_, fun hprimary => ?_⟩, fun w hw => ?_⟩
    · rw [Accounts.mem_rows] at hr
      rcases hr with ⟨row, hrow, rfl⟩ | ⟨row, hrow, rfl⟩
      · rw [hp] at hrow
        rcases (KeyedTable.mem_rows_of_insert? hprofiles).mp hrow with hold | rfl
        · exact .inl (Accounts.mem_rows.mpr (.inl ⟨row, hold, rfl⟩))
        · exact .inr ⟨_, List.mem_singleton_self _, rfl⟩
      · rw [hk] at hrow
        exact .inl (Accounts.mem_rows.mpr (.inr ⟨row, hrow, rfl⟩))
    · rw [List.mem_singleton.mp hw]
      rfl
    · obtain ⟨row, hrow, hflags⟩ := hprimary
      refine ⟨row, ?_, hflags⟩
      rw [hp]
      exact (KeyedTable.mem_rows_of_insert? hprofiles).mpr (.inl hrow)
    · rw [List.mem_singleton.mp hw]
      exact ⟨rfl, rfl⟩
  · cases hinsert

end Create

section Update

variable {after : String} {set : UserProfileRow → UserProfileRow}
  {hset : ∀ row, (set row).id = row.id} {out : AccountOutcome UserProfile}

/-- An assignment that stamps the next lamport and keeps the flags. -/
theorem updateProfile_contract (h : p.updateProfile id after set hset = .ok out)
    (keep : ∀ row, (set row).isPrimary = row.isPrimary ∧
      (set row).syncTombstone = row.syncTombstone)
    (stamps : ∀ row, (set row).syncDeviceId = p.deviceId ∧ (set row).syncLamport = p.nextLamport) :
    AccountContract p out ∧ StampsNext p out := by
  unfold updateProfile at h
  split at h
  · cases h
  split at h
  · cases h
  rename_i accounts hupdate
  dsimp only at h
  split at h
  · cases h
  cases h
  have logged : ∀ w ∈ p.accounts.profileLog (isLive id) set, w.before = p.accounts ∧
      w.row.stamp = toLex (p.nextLamport, p.deviceId) := by
    intro w hw
    obtain ⟨row, _, _, rfl⟩ := Accounts.mem_profileLog.mp hw
    refine ⟨rfl, ?_⟩
    show toLex ((set row).syncLamport, (set row).syncDeviceId) = _
    rw [(stamps row).1, (stamps row).2]
  refine ⟨⟨rfl, fun r hr => Accounts.source_of_updateProfiles hupdate hr, fun w hw => ?_,
    Accounts.hasPrimary_of_updateProfiles hupdate keep⟩, logged⟩
  exact congrArg (fun s => (ofLex s).2) (logged w hw).2

theorem renameProfile_contract {displayName : String}
    (h : p.renameProfile id displayName = .ok out) : AccountContract p out ∧ StampsNext p out := by
  unfold renameProfile at h
  split at h
  · cases h
  exact updateProfile_contract h (fun _ => ⟨rfl, rfl⟩) fun _ => ⟨rfl, rfl⟩

theorem setProfileAvatar_contract {avatarUrl : Option String}
    (h : p.setProfileAvatar id avatarUrl = .ok out) : AccountContract p out ∧ StampsNext p out :=
  updateProfile_contract h (fun _ => ⟨rfl, rfl⟩) fun _ => ⟨rfl, rfl⟩

end Update

section Promote

variable {out : AccountOutcome UserProfile}

/-- The two statements of a promotion. -/
theorem setPrimary_eq_ok (h : p.setPrimary id = .ok out) : ∃ demoted promoted : Accounts,
    p.accounts.updateProfiles isLivePrimary p.demoteSet (fun _ => rfl) = .ok demoted ∧
    demoted.updateProfiles (isLive id) p.promoteSet (fun _ => rfl) = .ok promoted ∧
    out.porch = { p with accounts := promoted } ∧
    out.written = p.accounts.profileLog isLivePrimary p.demoteSet ++
      demoted.profileLog (isLive id) p.promoteSet ∧
    ∃ row ∈ p.accounts.profiles.rows, isLive id row = true := by
  unfold setPrimary at h
  split at h
  · cases h
  rename_i hlive
  split at h
  · cases h
  rename_i demoted hdemote
  split at h
  · cases h
  rename_i promoted hpromote
  dsimp only at h
  split at h
  · cases h
  cases h
  exact ⟨demoted, promoted, hdemote, hpromote, rfl, rfl, exists_isLive hlive⟩

/-- A demotion leaves a live profile alive. -/
theorem exists_isLive_of_demote {demoted : Accounts}
    (h : p.accounts.updateProfiles isLivePrimary p.demoteSet (fun _ => rfl) = .ok demoted)
    (hlive : ∃ row ∈ p.accounts.profiles.rows, isLive id row = true) :
    ∃ row ∈ demoted.profiles.rows, isLive id row = true := by
  obtain ⟨row, hrow, hlive⟩ := hlive
  rw [(Accounts.commit_eq_ok h).1]
  refine ⟨_, KeyedTable.mem_updateWhere.mpr ⟨row, hrow, rfl⟩, ?_⟩
  split
  · exact hlive
  · exact hlive

theorem setPrimary_contract (h : p.setPrimary id = .ok out) : AccountContract p out := by
  obtain ⟨demoted, promoted, hdemote, hpromote, hporch, hwritten, hlive⟩ := setPrimary_eq_ok h
  refine ⟨?_, fun r hr => ?_, fun w hw => ?_, fun _ => ?_⟩
  · rw [hporch]
  · rw [hporch] at hr
    rw [hwritten]
    rcases Accounts.source_of_updateProfiles hpromote hr with hr | ⟨w, hw, hrow⟩
    · rcases Accounts.source_of_updateProfiles hdemote hr with hr | ⟨w, hw, hrow⟩
      · exact .inl hr
      · exact .inr ⟨w, List.mem_append_left _ hw, hrow⟩
    · exact .inr ⟨w, List.mem_append_right _ hw, hrow⟩
  · rw [hwritten] at hw
    rcases List.mem_append.mp hw with hw | hw
    · obtain ⟨row, _, _, rfl⟩ := Accounts.mem_profileLog.mp hw
      rfl
    · obtain ⟨row, _, _, rfl⟩ := Accounts.mem_profileLog.mp hw
      rfl
  · obtain ⟨row, hrow, hlive⟩ := exists_isLive_of_demote hdemote hlive
    rw [hporch, Accounts.HasPrimary, (Accounts.commit_eq_ok hpromote).1]
    refine ⟨_, KeyedTable.mem_updateWhere.mpr ⟨row, hrow, rfl⟩, ?_⟩
    rw [if_pos hlive]
    have halive := (Bool.and_eq_true _ _ ▸ hlive : _ ∧ _).2
    exact ⟨rfl, of_decide_eq_true halive⟩

end Promote

section Keychain

variable {cipher : KeychainCipher} {seed : Except PorchError (List UInt8)}

theorem addKeychainEntry_contract {profileId sourceHost : String} {sourceKind : SourceKind}
    {label : Option String} {credentials : Json} {out : AccountOutcome KeychainEntry}
    (h : p.addKeychainEntry cipher seed profileId sourceKind sourceHost label credentials id now =
      .ok out) : AccountContract p out ∧ StampsNext p out := by
  unfold addKeychainEntry at h
  split at h
  · cases h
  split at h
  · cases h
  split at h
  · cases h
  split at h
  · cases h
  dsimp only at h
  split at h
  · cases h
  rename_i accounts hinsert
  cases h
  unfold Accounts.insertEntry at hinsert
  split at hinsert
  · rename_i keychain hkeychain
    obtain ⟨hp, hk⟩ := Accounts.commit_eq_ok hinsert
    refine ⟨⟨rfl, fun r hr => ?_, fun w hw => ?_, fun hprimary => ?_⟩, fun w hw => ?_⟩
    · rw [Accounts.mem_rows] at hr
      rcases hr with ⟨row, hrow, rfl⟩ | ⟨row, hrow, rfl⟩
      · rw [hp] at hrow
        exact .inl (Accounts.mem_rows.mpr (.inl ⟨row, hrow, rfl⟩))
      · rw [hk] at hrow
        rcases (KeyedTable.mem_rows_of_insert? hkeychain).mp hrow with hold | rfl
        · exact .inl (Accounts.mem_rows.mpr (.inr ⟨row, hold, rfl⟩))
        · exact .inr ⟨_, List.mem_singleton_self _, rfl⟩
    · rw [List.mem_singleton.mp hw]
      rfl
    · rwa [Accounts.HasPrimary, hp]
    · rw [List.mem_singleton.mp hw]
      exact ⟨rfl, rfl⟩
  · cases hinsert

theorem decryptCredentials_contract {entryId : String} {out : AccountOutcome Json}
    (h : p.decryptCredentials cipher seed entryId now = .ok out) :
    AccountContract p out ∧ StampsNext p out := by
  unfold decryptCredentials at h
  split at h
  · cases h
  split at h
  · cases h
  split at h
  · cases h
  split at h
  · cases h
    refine ⟨⟨rfl, fun r hr => .inl hr, fun w hw => ?_, id⟩, fun w hw => ?_⟩
    · cases hw
    · cases hw
  rename_i accounts hupdate
  cases h
  obtain ⟨hp, hk⟩ := Accounts.commit_eq_ok hupdate
  have mem_log : ∀ w, w ∈ p.accounts.entryLog (fun row => row.id = entryId) (p.usedSet now) ↔
      ∃ row ∈ p.accounts.keychain.rows, decide (row.id = entryId) = true ∧
        ⟨p.accounts, .entry (p.usedSet now row)⟩ = w := by
    intro w
    simp only [Accounts.entryLog, List.mem_map, List.mem_filter, and_assoc]
  refine ⟨⟨rfl, fun r hr => ?_, fun w hw => ?_, fun hprimary => ?_⟩, fun w hw => ?_⟩
  · rw [Accounts.mem_rows, hp, hk] at hr
    rcases hr with hprofile | ⟨row, hrow, rfl⟩
    · exact .inl (Accounts.mem_rows.mpr (.inl hprofile))
    · obtain ⟨old, hold, rfl⟩ := KeyedTable.mem_updateWhere.mp hrow
      by_cases hcond : decide (old.id = entryId) = true
      · rw [if_pos hcond]
        exact .inr ⟨_, (mem_log _).mpr ⟨old, hold, hcond, rfl⟩, rfl⟩
      · rw [if_neg hcond]
        exact .inl (Accounts.mem_rows.mpr (.inr ⟨old, hold, rfl⟩))
  · obtain ⟨row, _, _, rfl⟩ := (mem_log w).mp hw
    rfl
  · rwa [Accounts.HasPrimary, hp]
  · obtain ⟨row, _, _, rfl⟩ := (mem_log w).mp hw
    exact ⟨rfl, rfl⟩

end Keychain

end Porch

end Concorrd
