import Concorrd.Porch.Users
import Concorrd.Sync.Dominance

/-!
# Stamps of the account tables

Every write of the account tables stamps its rows from the clock of the seven synced tables,
which does not see the account tables. So a stamp grows exactly when the synced tables have
moved on since the last account write: `ascends_along_iff` says so for every run of an
install.
-/

namespace Concorrd

/-- A write of the account tables. -/
inductive AccountOp where
  | createProfile (displayName id : String) (now : Int64)
  | renameProfile (id displayName : String)
  | setProfileAvatar (id : String) (avatarUrl : Option String)
  | setPrimary (id : String)
  | addKeychainEntry (cipher : KeychainCipher) (seed : Except PorchError (List UInt8))
      (profileId : String) (sourceKind : SourceKind) (sourceHost : String) (label : Option String)
      (credentials : Json) (id : String) (now : Int64)
  | decryptCredentials (cipher : KeychainCipher) (seed : Except PorchError (List UInt8))
      (entryId : String) (now : Int64)

/-- What can happen to an install. -/
inductive InstallEvent where
  | account (op : AccountOp)
  | tables (e : PorchEvent)

/-- The outcome without its answer. -/
def AccountOutcome.forget {α : Type} (out : AccountOutcome α) : AccountOutcome Unit :=
  ⟨out.porch, out.written, ()⟩

theorem AccountContract.forget {α : Type} {p : Porch} {out : AccountOutcome α}
    (h : AccountContract p out) : AccountContract p out.forget :=
  ⟨h.rest, h.source, h.device, h.primary⟩

namespace Porch

/-- Run an account write and keep what it did. -/
def performAccount (p : Porch) : AccountOp → Except PorchError (AccountOutcome Unit)
  | .createProfile displayName id now =>
    (p.createProfile displayName id now).map AccountOutcome.forget
  | .renameProfile id displayName => (p.renameProfile id displayName).map AccountOutcome.forget
  | .setProfileAvatar id avatarUrl => (p.setProfileAvatar id avatarUrl).map AccountOutcome.forget
  | .setPrimary id => (p.setPrimary id).map AccountOutcome.forget
  | .addKeychainEntry cipher seed profileId sourceKind sourceHost label credentials id now =>
    (p.addKeychainEntry cipher seed profileId sourceKind sourceHost label credentials id now).map
      AccountOutcome.forget
  | .decryptCredentials cipher seed entryId now =>
    (p.decryptCredentials cipher seed entryId now).map AccountOutcome.forget

/-- One event. What fails leaves the install as it was. -/
def installStep (p : Porch) : InstallEvent → Porch
  | .account op =>
    match p.performAccount op with
    | .ok out => out.porch
    | .error _ => p
  | .tables e => p.step e

/-- Every row the write writes is stamped above every row the account tables held when its
statement ran, the row itself included. -/
def Ascends (p : Porch) (op : AccountOp) : Prop :=
  ∀ out, p.performAccount op = .ok out →
    ∀ w ∈ out.written, ∀ r ∈ w.before.rows, r.stamp < w.row.stamp

/-- The account write succeeds and writes a row. -/
def AccountTakesEffect (p : Porch) (op : AccountOp) : Prop :=
  ∃ out, p.performAccount op = .ok out ∧ out.written ≠ []

/-- The synced tables hold a lamport at least as large as every account row's, and the write
stays below the top of the clock. -/
structure AccountRoom (p : Porch) (op : AccountOp) : Prop where
  behind : ∀ r ∈ p.accounts.rows, r.lamport ≤ p.tables.observedMax ∧ r.lamport < Int64.maxValue
  second : ∀ id, op = .setPrimary id → p.nextLamport < Int64.maxValue

/-- The account tables of an install: stamped by it alone, with a live primary profile. -/
structure OwnAccounts (p : Porch) : Prop where
  device : ∀ r ∈ p.accounts.rows, r.device = p.deviceId
  primary : p.accounts.HasPrimary

variable {p : Porch} {op : AccountOp} {out : AccountOutcome Unit}

theorem account_of_map {α : Type} {e : Except PorchError (AccountOutcome α)}
    (h : e.map AccountOutcome.forget = .ok out) : ∃ o, e = .ok o ∧ out = o.forget := by
  cases e with
  | error e => cases h
  | ok o =>
    cases h
    exact ⟨o, rfl, rfl⟩

/-- Every account write meets the contract, and every one but a promotion stamps the next
lamport throughout. -/
theorem performAccount_contract (h : p.performAccount op = .ok out) :
    AccountContract p out ∧ ((∀ id, op ≠ .setPrimary id) → StampsNext p out) := by
  cases op with
  | createProfile displayName id now =>
    obtain ⟨o, ho, rfl⟩ := account_of_map h
    obtain ⟨contract, stamps⟩ := createProfile_contract ho
    exact ⟨contract.forget, fun _ => stamps⟩
  | renameProfile id displayName =>
    obtain ⟨o, ho, rfl⟩ := account_of_map h
    obtain ⟨contract, stamps⟩ := renameProfile_contract ho
    exact ⟨contract.forget, fun _ => stamps⟩
  | setProfileAvatar id avatarUrl =>
    obtain ⟨o, ho, rfl⟩ := account_of_map h
    obtain ⟨contract, stamps⟩ := setProfileAvatar_contract ho
    exact ⟨contract.forget, fun _ => stamps⟩
  | setPrimary id =>
    obtain ⟨o, ho, rfl⟩ := account_of_map h
    exact ⟨(setPrimary_contract ho).forget, fun hne => absurd rfl (hne id)⟩
  | addKeychainEntry cipher seed profileId sourceKind sourceHost label credentials id now =>
    obtain ⟨o, ho, rfl⟩ := account_of_map h
    obtain ⟨contract, stamps⟩ := addKeychainEntry_contract ho
    exact ⟨contract.forget, fun _ => stamps⟩
  | decryptCredentials cipher seed entryId now =>
    obtain ⟨o, ho, rfl⟩ := account_of_map h
    obtain ⟨contract, stamps⟩ := decryptCredentials_contract ho
    exact ⟨contract.forget, fun _ => stamps⟩

/-! ## The invariant -/

theorem ownAccounts_opened (old : OldDatabase) (args : OpenArgs) :
    OwnAccounts (opened old args) := by
  have seeded : (opened old args).accounts = (migrate old args).accounts := by
    rw [rest_opened]
  have named : (opened old args).deviceId = args.deviceId := by
    rw [rest_opened]
    rfl
  refine ⟨fun r hr => ?_, ?_⟩
  · rw [seeded] at hr
    rw [named, List.mem_singleton.mp hr]
    rfl
  · rw [seeded]
    exact ⟨_, List.mem_singleton_self _, rfl, rfl⟩

/-- The events of the synced tables leave the accounts and the device id alone. -/
theorem step_rest (p : Porch) (e : PorchEvent) : p.step e = { p with db := (p.step e).db } := by
  cases e with
  | write op =>
    show p.afterWrite op = { p with db := (p.afterWrite op).db }
    unfold afterWrite
    cases hop : p.perform op with
    | error e => rfl
    | ok out => exact (localWrite_perform hop).rest
  | batch delta =>
    unfold step
    dsimp only
    cases hbatch : p.applySyncBatch delta with
    | error e => rfl
    | ok out =>
      obtain ⟨p', counts⟩ := out
      exact (applySyncBatch_eq_ok_iff.mp hbatch).2

theorem OwnAccounts.installStep (h : OwnAccounts p) (e : InstallEvent) :
    OwnAccounts (p.installStep e) := by
  cases e with
  | tables e =>
    show OwnAccounts (p.step e)
    rw [step_rest]
    exact ⟨h.device, h.primary⟩
  | account op =>
    show OwnAccounts (match p.performAccount op with
      | .ok out => out.porch
      | .error _ => p)
    cases hop : p.performAccount op with
    | error e => exact h
    | ok out =>
      obtain ⟨contract, _⟩ := performAccount_contract hop
      have named : out.porch.deviceId = p.deviceId := by
        rw [contract.rest]
      refine ⟨fun r hr => ?_, contract.primary h.primary⟩
      show r.device = out.porch.deviceId
      rw [named]
      rcases contract.source r hr with hold | ⟨w, hw, rfl⟩
      · exact h.device r hold
      · exact contract.device w hw

/-! ## When stamps grow -/

/-- Rows of this install lie below the next stamp exactly when the synced tables have caught
up with them. -/
theorem below_next_iff {rows : List AccountRow} (device : ∀ r ∈ rows, r.device = p.deviceId) :
    (∀ r ∈ rows, r.stamp < toLex (p.nextLamport, p.deviceId)) ↔
      ∀ r ∈ rows, r.lamport ≤ p.tables.observedMax ∧ r.lamport < Int64.maxValue := by
  refine forall_congr' fun r => imp_congr_right fun hr => ?_
  rw [AccountRow.stamp, device r hr, Prod.Lex.toLex_lt_toLex]
  simp only [lt_irrefl, and_false, or_false]
  exact Int64.lt_saturatingAdd_one_iff_le

/-- Both statements of a promotion stamp above what they saw exactly when there is room for
two lamports. -/
theorem setPrimary_ascends_iff (own : OwnAccounts p) {id : String}
    {o : AccountOutcome UserProfile} (h : p.setPrimary id = .ok o) :
    (∀ w ∈ o.written, ∀ r ∈ w.before.rows, r.stamp < w.row.stamp) ↔
      (∀ r ∈ p.accounts.rows, r.stamp < toLex (p.nextLamport, p.deviceId)) ∧
        p.nextLamport < Int64.maxValue := by
  obtain ⟨demoted, promoted, hdemote, hpromote, _, hwritten, hlive⟩ := setPrimary_eq_ok h
  rw [hwritten]
  constructor
  · intro h
    obtain ⟨row, hrow, hprimary, halive⟩ := own.primary
    have hcond : isLivePrimary row = true := by
      simp only [isLivePrimary, hprimary, halive, decide_true, Bool.and_self]
    have first := h _ (List.mem_append_left _ (Accounts.mem_profileLog.mpr ⟨row, hrow, hcond, rfl⟩))
    refine ⟨first, ?_⟩
    -- the second statement sees the demoted row, so its stamp must not wrap round
    obtain ⟨live, hmem, hid⟩ := exists_isLive_of_demote hdemote hlive
    have second := h _ (List.mem_append_right _
      (Accounts.mem_profileLog.mpr ⟨live, hmem, hid, rfl⟩))
    have hdemoted : AccountRow.profile (p.demoteSet row) ∈ demoted.rows := by
      refine Accounts.mem_rows.mpr (.inl ⟨_, ?_, rfl⟩)
      rw [(Accounts.commit_eq_ok hdemote).1]
      exact KeyedTable.mem_updateWhere.mpr ⟨row, hrow, if_pos hcond⟩
    have hlt : (toLex (p.nextLamport, p.deviceId) : Stamp) <
        toLex (p.nextLamport + 1, p.deviceId) := second _ hdemoted
    rw [Prod.Lex.toLex_lt_toLex] at hlt
    rw [Int64.lt_maxValue_iff]
    intro htop
    simp only [htop, Int64.maxValue_add_one, lt_irrefl, and_false, or_false] at hlt
    exact absurd hlt (by decide)
  · intro ⟨first, htop⟩ w hw
    have hstep : (toLex (p.nextLamport, p.deviceId) : Stamp) <
        toLex (p.nextLamport + 1, p.deviceId) :=
      Prod.Lex.toLex_lt_toLex.mpr (.inl (Int64.saturatingAdd_one_lt_add_one htop))
    rcases List.mem_append.mp hw with hw | hw
    · obtain ⟨row, _, _, rfl⟩ := Accounts.mem_profileLog.mp hw
      exact first
    · obtain ⟨row, _, _, rfl⟩ := Accounts.mem_profileLog.mp hw
      intro r hr
      show r.stamp < toLex (p.nextLamport + 1, p.deviceId)
      rcases Accounts.source_of_updateProfiles hdemote hr with hold | ⟨w, hw, rfl⟩
      · exact (first r hold).trans hstep
      · obtain ⟨row', _, _, rfl⟩ := Accounts.mem_profileLog.mp hw
        exact hstep

/-- An account write stamps above what it finds exactly when the synced tables have caught
up with the account tables, should it take effect. -/
theorem ascends_iff (own : OwnAccounts p) :
    p.Ascends op ↔ (p.AccountTakesEffect op → p.AccountRoom op) := by
  by_cases hop : ∃ id, op = .setPrimary id
  · obtain ⟨id, rfl⟩ := hop
    constructor
    · intro h ⟨out, hout, _⟩
      obtain ⟨o, ho, rfl⟩ := account_of_map hout
      obtain ⟨below, htop⟩ := (setPrimary_ascends_iff own ho).mp (h _ hout)
      exact ⟨(below_next_iff own.device).mp below, fun _ _ => htop⟩
    · intro h out hout w hw
      have room := h ⟨out, hout, List.ne_nil_of_mem hw⟩
      obtain ⟨o, ho, rfl⟩ := account_of_map hout
      exact (setPrimary_ascends_iff own ho).mpr
        ⟨(below_next_iff own.device).mpr room.behind, room.second id rfl⟩ w hw
  · have single : ∀ id, op ≠ .setPrimary id := fun id e => hop ⟨id, e⟩
    constructor
    · intro h ⟨out, hout, hwritten⟩
      have stamps := (performAccount_contract hout).2 single
      obtain ⟨w, hw⟩ := List.exists_mem_of_ne_nil _ hwritten
      obtain ⟨hbefore, hstamp⟩ := stamps w hw
      have below := h out hout w hw
      rw [hbefore, hstamp] at below
      exact ⟨(below_next_iff own.device).mp below, fun id e => absurd e (single id)⟩
    · intro h out hout w hw
      obtain ⟨hbefore, hstamp⟩ := (performAccount_contract hout).2 single w hw
      rw [hbefore, hstamp]
      exact (below_next_iff own.device).mpr (h ⟨out, hout, List.ne_nil_of_mem hw⟩).behind

/-- **Account stamps along a run.** Along every run of an install, every account write
stamps above all it finds exactly when, at every account write that takes effect, the synced
tables have caught up with the account tables. -/
theorem ascends_along_iff (old : OldDatabase) (args : OpenArgs) (events : List InstallEvent) :
    Machine.Along installStep (fun p e => ∀ op, e = .account op → p.Ascends op)
        (opened old args) events ↔
      Machine.Along installStep
        (fun p e => ∀ op, e = .account op → p.AccountTakesEffect op → p.AccountRoom op)
        (opened old args) events := by
  refine Machine.along_congr OwnAccounts (fun p e own => own.installStep e) (fun p e own => ?_)
    (ownAccounts_opened old args)
  exact forall_congr' fun op => imp_congr_right fun _ => ascends_iff own

set_option maxRecDepth 2000 in
/-- Two renames of the seeded profile of a fresh install carry one stamp. -/
theorem renames_share_stamp :
    ¬ Machine.Along installStep (fun p e => ∀ op, e = .account op → p.Ascends op) freshPorch
      [.account (.renameProfile "profile-a" "First"),
        .account (.renameProfile "profile-a" "Second")] := by
  intro ⟨_, hsecond, _⟩
  have repeated : isOkAnd ((freshPorch.installStep
      (.account (.renameProfile "profile-a" "First"))).performAccount
        (.renameProfile "profile-a" "Second"))
      (fun out => out.written.any fun w => w.before.rows.any fun r => r.stamp = w.row.stamp) =
      true := by decide
  obtain ⟨out, hout, hany⟩ := isOkAnd_iff.mp repeated
  obtain ⟨w, hw, hany⟩ := List.any_eq_true.mp hany
  obtain ⟨r, hr, heq⟩ := List.any_eq_true.mp hany
  exact (hsecond _ rfl out hout w hw r hr).ne (of_decide_eq_true heq)

end Porch

end Concorrd
