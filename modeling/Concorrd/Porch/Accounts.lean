import Mathlib.Data.Option.Basic
import Concorrd.Lib.Int64Order
import Concorrd.Lib.KeyedTable
import Concorrd.Porch.Error

/-!
# Profiles and keychain

The two account tables. Their rows carry sync columns like the rows of the seven synced
tables, but no sync path reads them. `Accounts` carries the two constraints between rows:
at most one profile is primary, and every keychain entry belongs to a profile.
-/

namespace Concorrd

/-- Where a profile came from. -/
inductive Provenance where
  | «local»
  | relayRestored
  deriving DecidableEq, Repr

/-- The column string. -/
def Provenance.asStr : Provenance → String
  | .local => "local"
  | .relayRestored => "relay_restored"

/-- Kind of source a keychain entry authenticates to. -/
inductive SourceKind where
  | concord
  | matrix
  | p2pPeer
  deriving DecidableEq, Repr

/-- The column string. -/
def SourceKind.asStr : SourceKind → String
  | .concord => "concord"
  | .matrix => "matrix"
  | .p2pPeer => "p2p_peer"

/-- A row of `user_profiles`. -/
structure UserProfileRow where
  id : String
  displayName : String
  avatarUrl : Option String
  isPrimary : Bool
  provenance : Provenance
  createdAt : Int64
  syncDeviceId : String
  syncLamport : Int64
  syncTombstone : Int64
  deriving DecidableEq, Repr

/-- A row of `keychain_entries`. -/
structure KeychainEntryRow where
  id : String
  profileId : String
  sourceKind : SourceKind
  sourceHost : String
  label : Option String
  ciphertext : List UInt8
  nonce : List UInt8
  createdAt : Int64
  lastUsedAt : Option Int64
  syncDeviceId : String
  syncLamport : Int64
  syncTombstone : Int64
  deriving DecidableEq, Repr

/-- The account tables, with `idx_only_one_primary` and the foreign key of the keychain. -/
@[ext]
structure Accounts where
  profiles : KeyedTable UserProfileRow.id
  keychain : KeyedTable KeychainEntryRow.id
  onePrimary : ∀ r ∈ profiles.rows, ∀ s ∈ profiles.rows,
    r.isPrimary = true → s.isPrimary = true → r.id = s.id
  owners : ∀ e ∈ keychain.rows, profiles.HasKey e.profileId

namespace Accounts

/-- Commit the tables a statement leaves, or report the constraint they violate. -/
def commit (profiles : KeyedTable UserProfileRow.id) (keychain : KeyedTable KeychainEntryRow.id) :
    Except PorchError Accounts :=
  if onePrimary : ∀ r ∈ profiles.rows, ∀ s ∈ profiles.rows,
      r.isPrimary = true → s.isPrimary = true → r.id = s.id then
    if owners : ∀ e ∈ keychain.rows, profiles.HasKey e.profileId then
      .ok ⟨profiles, keychain, onePrimary, owners⟩
    else .error (.sqlite .foreignKey)
  else .error (.sqlite (.unique "user_profiles.is_primary"))

theorem commit_eq_ok {profiles : KeyedTable UserProfileRow.id}
    {keychain : KeyedTable KeychainEntryRow.id} {accounts : Accounts}
    (h : commit profiles keychain = .ok accounts) :
    accounts.profiles = profiles ∧ accounts.keychain = keychain := by
  unfold commit at h
  split at h
  · split at h
    · cases h
      exact ⟨rfl, rfl⟩
    · cases h
  · cases h

/-- No profile and no entry. -/
def empty : Accounts where
  profiles := KeyedTable.empty
  keychain := KeyedTable.empty
  onePrimary _ h := by cases h
  owners _ h := by cases h

/-- `INSERT INTO user_profiles` -/
def insertProfile (accounts : Accounts) (r : UserProfileRow) : Except PorchError Accounts :=
  match accounts.profiles.insert? r with
  | some profiles => commit profiles accounts.keychain
  | none => .error (.sqlite (.unique "user_profiles.id"))

/-- `UPDATE user_profiles SET f WHERE p` -/
def updateProfiles (accounts : Accounts) (p : UserProfileRow → Bool)
    (f : UserProfileRow → UserProfileRow) (hf : ∀ r, (f r).id = r.id) :
    Except PorchError Accounts :=
  commit (accounts.profiles.updateWhere p f hf) accounts.keychain

/-- `INSERT INTO keychain_entries` -/
def insertEntry (accounts : Accounts) (r : KeychainEntryRow) : Except PorchError Accounts :=
  match accounts.keychain.insert? r with
  | some keychain => commit accounts.profiles keychain
  | none => .error (.sqlite (.unique "keychain_entries.id"))

/-- `UPDATE keychain_entries SET f WHERE p` -/
def updateEntries (accounts : Accounts) (p : KeychainEntryRow → Bool)
    (f : KeychainEntryRow → KeychainEntryRow) (hf : ∀ r, (f r).id = r.id) :
    Except PorchError Accounts :=
  commit accounts.profiles (accounts.keychain.updateWhere p f hf)

end Accounts

end Concorrd
