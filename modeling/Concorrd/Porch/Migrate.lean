import Concorrd.Porch.Channels

/-!
# Opening a porch

`migrate` takes a database of any schema version before the sync columns, 0 for a file that
does not exist yet, to the current schema. Version 6 mints the device id and stamps every
row that is there with it at lamport 0. Version 7 seeds the primary profile and version 8
the server name. `«open»` migrates and then makes sure that a channel exists.
-/

namespace Concorrd

/-- Schema version that adds a synced table. -/
def SyncedTable.addedIn : SyncedTable → Nat
  | porchChannels | channelMessages | channelAcl => 1
  | channelKnocks => 2
  | channelThemes | porchAssets => 3
  | obsidianChannels => 4

/-- A database as the schema versions before 6 leave it: the rows carry no sync columns, the
constraints hold, and a table the version lacks has no row. -/
structure OldDatabase where
  version : Nat
  before : version < 6
  tables : (t : SyncedTable) → KeyedTable t.keyOf
  absent : ∀ t, version < t.addedIn → (tables t).rows = []
  checks : ∀ t, ∀ cols ∈ (tables t).rows, t.failedCheck cols = none
  entries : ∀ t, ∀ a ∈ (tables t).rows, ∀ b ∈ (tables t).rows,
    ∀ entry ∈ t.uniqueEntry a, entry ∈ t.uniqueEntry b → t.keyOf a = t.keyOf b
  parents : ∀ t, ∀ cols ∈ (tables t).rows, ∀ channel ∈ t.parent cols,
    (tables .porchChannels).HasKey channel

namespace OldDatabase

/-- No file yet. -/
def none : OldDatabase where
  version := 0
  before := by decide
  tables _ := KeyedTable.empty
  absent _ _ := rfl
  checks _ _ h := by cases h
  entries _ _ h := by cases h
  parents _ _ h := by cases h

/-- A row as the backfill leaves it: this install's device id, lamport 0, alive. -/
def backfill (deviceId : String) {t : SyncedTable} (cols : t.Cols) : Row t :=
  ⟨cols, deviceId, 0, 0⟩

/-- The seven tables after the backfill. -/
def backfilled (old : OldDatabase) (deviceId : String) : SyncedTables := fun t =>
  (old.tables t).mapRows (backfill deviceId) fun _ => rfl

variable {old : OldDatabase} {deviceId : String} {x : SyncedRow}

theorem mem_backfilled {t : SyncedTable} {r : Row t} :
    r ∈ (old.backfilled deviceId t).rows ↔
      ∃ cols ∈ (old.tables t).rows, backfill deviceId cols = r :=
  KeyedTable.mem_mapRows

/-- The backfill keeps the constraints. -/
def backfilledDatabase (old : OldDatabase) (deviceId : String) : Database where
  tables := old.backfilled deviceId
  checks := by
    intro t _ r hr
    obtain ⟨cols, hcols, rfl⟩ := mem_backfilled.mp hr
    exact old.checks t cols hcols
  entries := by
    intro t _ r hr s hs entry her hes
    obtain ⟨a, ha, rfl⟩ := mem_backfilled.mp hr
    obtain ⟨b, hb, rfl⟩ := mem_backfilled.mp hs
    exact old.entries t a ha b hb entry her hes
  parents := by
    intro t _ r hr channel hc
    obtain ⟨cols, hcols, rfl⟩ := mem_backfilled.mp hr
    obtain ⟨parent, hp, hk⟩ := old.parents t cols hcols channel hc
    exact ⟨backfill deviceId parent, mem_backfilled.mpr ⟨parent, hp, rfl⟩, hk⟩

end OldDatabase

namespace Porch

/-- What opening draws from the clock and the generator of ids. -/
structure OpenArgs where
  deviceId : String
  profileId : String
  now : Int64
  fileBacked : Bool

/-- The "Local" profile version 7 seeds. -/
def seedProfile (args : OpenArgs) (lamport : Int64) : UserProfileRow where
  id := args.profileId
  displayName := "Local"
  avatarUrl := none
  isPrimary := true
  provenance := .local
  createdAt := args.now
  syncDeviceId := args.deviceId
  syncLamport := lamport
  syncTombstone := 0

/-- The account tables version 7 leaves. -/
def seedAccounts (args : OpenArgs) (lamport : Int64) : Accounts where
  profiles := ⟨[seedProfile args lamport], List.nodup_singleton _⟩
  keychain := KeyedTable.empty
  onePrimary := by
    intro r hr s hs _ _
    rw [List.mem_singleton.mp hr, List.mem_singleton.mp hs]
  owners _ h := by cases h

/-- Default name of the home server. -/
def defaultHomeServerName : String := "home"

/-- Bring an old database to the current schema. -/
def migrate (old : OldDatabase) (args : OpenArgs) : Porch :=
  let db := old.backfilledDatabase args.deviceId
  { db := db
    accounts := seedAccounts args db.tables.nextLamport
    deviceId := args.deviceId
    deviceLinks := KeyedTable.empty
    homeMeta := ⟨[⟨"server_name", defaultHomeServerName⟩], List.nodup_singleton _⟩
    conflictQueue := KeyedTable.empty
    conflictAttempts := KeyedTable.empty
    fileBacked := args.fileBacked }

/-- Insert the default channel when there is no channel at all. -/
def ensureDefaultChannel (p : Porch) (now : Int64) : Except PorchError (Outcome Unit) :=
  if (p.tables .porchChannels).rows.isEmpty then
    let row := p.stampRow .porchChannels p.nextLamport
      ⟨defaultPorchChannelId, defaultPorchChannelName, "porch", "open", now⟩
    p.finish [⟨.porchChannels, row⟩] () (p.db.insert .porchChannels row)
  else .ok ⟨p, [], ()⟩

/-- Migrate, then make sure that a channel exists. -/
def «open» (old : OldDatabase) (args : OpenArgs) : Except PorchError Porch :=
  ((migrate old args).ensureDefaultChannel args.now).map Outcome.porch

/-- The porch that opening returns. -/
def opened (old : OldDatabase) (args : OpenArgs) : Porch :=
  («open» old args).toOption.getD (migrate old args)

variable {p : Porch} {old : OldDatabase} {args : OpenArgs}

theorem localWrite_ensureDefaultChannel {now : Int64} {out : Outcome Unit}
    (h : p.ensureDefaultChannel now = .ok out) :
    LocalWrite p out [⟨.porchChannels, defaultPorchChannelId⟩] [p.nextLamport] := by
  unfold ensureDefaultChannel at h
  split at h
  · obtain ⟨db, hdb, rfl⟩ := finish_eq_ok h
    exact .of_one (Database.puts_of_insert hdb).2 rfl rfl rfl
  · cases h
    exact .of_none

/-- The default channel passes every constraint where there is no channel. -/
theorem exists_ensureDefaultChannel (p : Porch) (now : Int64) :
    ∃ out, p.ensureDefaultChannel now = .ok out := by
  unfold ensureDefaultChannel
  split
  · rename_i hempty
    have rows : (p.tables .porchChannels).rows = [] := List.isEmpty_iff.mp hempty
    let row : PorchChannelRow := p.stampRow .porchChannels p.nextLamport
      ⟨defaultPorchChannelId, defaultPorchChannelName, "porch", "open", now⟩
    show ∃ out, p.finish [⟨.porchChannels, row⟩] () (p.db.insert .porchChannels row) = .ok out
    have free : (p.tables .porchChannels).find? row.key = none := by
      apply KeyedTable.find?_eq_none_iff.mpr
      intro r hr
      rw [rows] at hr
      cases hr
    have admits : p.tables.Admits ⟨.porchChannels, row⟩ := by
      refine ⟨rfl, ?_, ?_⟩
      · intro s hs
        rw [rows] at hs
        cases hs
      · intro channel hc
        cases hc
    obtain ⟨db, hdb⟩ := Database.exists_insert_iff.mpr ⟨free, admits⟩
    exact ⟨_, by rw [hdb]; rfl⟩
  · exact ⟨_, rfl⟩

/-- Opening never fails on a database the old schema allows. -/
theorem open_eq (old : OldDatabase) (args : OpenArgs) :
    «open» old args = .ok (opened old args) := by
  obtain ⟨out, hout⟩ := exists_ensureDefaultChannel (migrate old args) args.now
  have : «open» old args = .ok out.porch := by
    unfold «open»
    rw [hout]
    rfl
  rw [opened, this]
  rfl

/-- A migrated row is an old row under the new device id at lamport 0. -/
theorem holds_migrate {x : SyncedRow} : (migrate old args).tables.Holds x ↔
    ∃ cols ∈ (old.tables x.table).rows, OldDatabase.backfill args.deviceId cols = x.row :=
  OldDatabase.mem_backfilled

/-- A migrated database shows a clock at its floor. -/
theorem nextLamport_migrate : (migrate old args).nextLamport = 1 := by
  have floor : (migrate old args).tables.observedMax = 0 := by
    refine le_antisymm (SyncedTables.observedMax_le_iff.mpr ⟨le_rfl, fun x hx => ?_⟩)
      SyncedTables.zero_le_observedMax
    obtain ⟨cols, _, heq⟩ := holds_migrate.mp hx
    exact (congrArg Row.syncLamport heq).ge
  show (migrate old args).tables.observedMax.saturatingAdd 1 = 1
  rw [floor]
  decide

/-- Opening adds nothing to a migrated database, or one channel at lamport 1 to one that
has none. -/
theorem opened_cases (old : OldDatabase) (args : OpenArgs) :
    (opened old args).tables = (migrate old args).tables ∨
      ∃ row : PorchChannelRow, row.syncLamport = 1 ∧ row.syncDeviceId = args.deviceId ∧
        ((migrate old args).tables .porchChannels).rows = [] ∧
        (migrate old args).tables.Puts ⟨.porchChannels, row⟩ (opened old args).tables := by
  obtain ⟨out, hout⟩ := exists_ensureDefaultChannel (migrate old args) args.now
  have hopen : opened old args = out.porch := by
    simp only [opened, «open», hout]
    rfl
  rw [hopen]
  unfold ensureDefaultChannel at hout
  split at hout
  · rename_i hempty
    obtain ⟨db, hdb, rfl⟩ := finish_eq_ok hout
    exact .inr ⟨_, nextLamport_migrate, rfl, List.isEmpty_iff.mp hempty,
      (Database.puts_of_insert hdb).2⟩
  · cases hout
    exact .inl rfl

/-- An opened porch has a channel. -/
theorem channels_opened (old : OldDatabase) (args : OpenArgs) :
    ((opened old args).tables .porchChannels).rows ≠ [] := by
  obtain ⟨out, hout⟩ := exists_ensureDefaultChannel (migrate old args) args.now
  have hopen : opened old args = out.porch := by
    simp only [opened, «open», hout]
    rfl
  rw [hopen]
  unfold ensureDefaultChannel at hout
  split at hout
  · obtain ⟨db, hdb, rfl⟩ := finish_eq_ok hout
    have hholds := (Database.puts_of_insert hdb).2.holds_iff.mpr (.inl rfl)
    exact List.ne_nil_of_mem hholds
  · rename_i hne
    cases hout
    exact fun hnil => hne (List.isEmpty_iff.mpr hnil)

/-- Every row of an opened porch carries its device id. -/
theorem device_opened {x : SyncedRow} (hx : (opened old args).tables.Holds x) :
    x.device = args.deviceId := by
  have migrated : (migrate old args).tables.Holds x → x.device = args.deviceId := fun h => by
    obtain ⟨cols, _, heq⟩ := holds_migrate.mp h
    exact (congrArg Row.syncDeviceId heq).symm
  rcases opened_cases old args with same | ⟨row, _, hdevice, _, hputs⟩
  · exact migrated (same ▸ hx)
  · rcases hputs.holds_iff.mp hx with rfl | ⟨hx, _⟩
    · exact hdevice
    · exact migrated hx

/-- Opening leaves the account tables and the device id as the migration made them. -/
theorem rest_opened (old : OldDatabase) (args : OpenArgs) :
    opened old args = { migrate old args with db := (opened old args).db } := by
  obtain ⟨out, hout⟩ := exists_ensureDefaultChannel (migrate old args) args.now
  have hopen : opened old args = out.porch := by
    simp only [opened, «open», hout]
    rfl
  rw [hopen]
  exact (localWrite_ensureDefaultChannel hout).rest

/-- A row of lamport 0 or below in an opened porch is a migrated one, and every migrated row
is there. -/
theorem holds_opened_iff {x : SyncedRow} : (opened old args).tables.Holds x ∧ x.lamport ≤ 0 ↔
    ∃ cols ∈ (old.tables x.table).rows, OldDatabase.backfill args.deviceId cols = x.row := by
  rw [← holds_migrate]
  have low : (migrate old args).tables.Holds x → x.lamport ≤ 0 := fun hx => by
    obtain ⟨cols, _, heq⟩ := holds_migrate.mp hx
    exact (congrArg Row.syncLamport heq).ge
  rcases opened_cases old args with same | ⟨row, hrow, _, hempty, hputs⟩
  · rw [same]
    exact ⟨And.left, fun hx => ⟨hx, low hx⟩⟩
  · constructor
    · intro ⟨hx, hlow⟩
      rcases hputs.holds_iff.mp hx with rfl | ⟨hx, _⟩
      · exact absurd (hrow ▸ hlow : (1 : Int64) ≤ 0) (by decide)
      · exact hx
    · intro hx
      refine ⟨hputs.holds_iff.mpr (.inr ⟨hx, fun hkey => ?_⟩), low hx⟩
      obtain ⟨t, r⟩ := x
      cases congrArg RowKey.table hkey
      have hmem : r ∈ ((migrate old args).tables .porchChannels).rows := hx
      rw [hempty] at hmem
      cases hmem

end Porch

/-- A fresh install. -/
def plainPorch : Porch := Porch.opened .none ⟨"device-a", "profile-a", 1, true⟩

end Concorrd
