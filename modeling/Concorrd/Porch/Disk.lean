import Concorrd.Lib.Staged
import Concorrd.Porch.Migrate
import Concorrd.Porch.Users

/-!
# The database file

`Migrate` takes an old database to the current schema in one step. This is the same
migration statement by statement, over the file: which tables and indexes exist, which
sync columns a table has so far, and the rows of the tables a migration writes. A
`Statement` either changes the file or fails. A list of them between `BEGIN` and `COMMIT`,
or one alone, is a transaction, and it is the transactions that are durable one by one.

`upgrade` lists the transactions of each schema version and `stages` those of an open.
-/

namespace Concorrd

/-! ## Tables of the file -/

/-- The columns version 6 adds to the synced tables. -/
inductive SyncColumn where
  | syncDeviceId
  | syncLamport
  | syncTombstone
  deriving DecidableEq, Repr

namespace SyncColumn

/-- The column's name in SQL. -/
def name : SyncColumn → String
  | syncDeviceId => "sync_device_id"
  | syncLamport => "sync_lamport"
  | syncTombstone => "sync_tombstone"

/-- The columns in the order they are added. -/
def all : List SyncColumn := [syncDeviceId, syncLamport, syncTombstone]

@[simp] theorem mem_all (c : SyncColumn) : c ∈ all := by
  cases c <;> decide

end SyncColumn

/-- A row of a synced table in the file, where the device id may be NULL. -/
structure StoredRow (t : SyncedTable) where
  cols : t.Cols
  syncDeviceId : Option String
  syncLamport : Int64
  syncTombstone : Int64
  deriving DecidableEq

namespace StoredRow

variable {t : SyncedTable}

/-- The primary key of the row. -/
def key (r : StoredRow t) : t.Key := t.keyOf r.cols

/-- What `ADD COLUMN` puts in the column of a row that is there. -/
def addColumn (c : SyncColumn) (r : StoredRow t) : StoredRow t :=
  match c with
  | .syncDeviceId => { r with syncDeviceId := none }
  | .syncLamport => { r with syncLamport := 0 }
  | .syncTombstone => { r with syncTombstone := 0 }

/-- `SET sync_device_id` -/
def stamp (deviceId : String) (r : StoredRow t) : StoredRow t :=
  { r with syncDeviceId := some deviceId }

@[simp] theorem key_addColumn (c : SyncColumn) (r : StoredRow t) : (r.addColumn c).key = r.key := by
  cases c <;> rfl

@[simp] theorem key_stamp (deviceId : String) (r : StoredRow t) :
    (r.stamp deviceId).key = r.key := rfl

end StoredRow

/-- A row of `device_identity`. -/
structure DeviceIdentityRow where
  deviceId : String
  createdAt : Int64
  label : Option String
  deriving DecidableEq, Repr

/-- A row of `visibility_meta`. -/
structure VisibilityRow where
  serverId : String
  maxHops : Int64
  lastChangedAt : Int64
  deriving DecidableEq, Repr

def visibilityServerIdPorch : String := "porch"

def visibilityServerIdHome : String := "home"

def defaultPorchMaxHops : Int64 := 1

def defaultHomeMaxHops : Int64 := 0

/-- The file: the names of its tables and indexes, the sync columns each synced table has, and
the rows of the tables that a migration writes. A table that does not exist has no row. -/
structure Disk where
  objects : List String
  versions : List Nat
  columns : SyncedTable → List SyncColumn
  synced : (t : SyncedTable) → KeyedTable (StoredRow.key (t := t))
  deviceIdentity : KeyedTable DeviceIdentityRow.deviceId
  profiles : KeyedTable UserProfileRow.id
  homeMeta : KeyedTable HomeMetaRow.key
  visibility : KeyedTable VisibilityRow.serverId

/-- Why a statement of an open fails. -/
inductive OpenError where
  | alreadyExists (object : String)
  | noSuchTable (table : String)
  | noSuchColumn (table column : String)
  | porch (error : PorchError)
  deriving DecidableEq, Repr

namespace Disk

/-- No file yet. -/
def empty : Disk where
  objects := []
  versions := []
  columns _ := []
  synced _ := KeyedTable.empty
  deviceIdentity := KeyedTable.empty
  profiles := KeyedTable.empty
  homeMeta := KeyedTable.empty
  visibility := KeyedTable.empty

instance : Inhabited Disk := ⟨empty⟩

/-- `SELECT COALESCE(MAX(version), 0) FROM schema_version` -/
def currentVersion (d : Disk) : Nat := d.versions.foldl max 0

/-! ## Statements -/

/-- Go on when the table exists. -/
def onTable (d : Disk) (table : String) (next : Except OpenError Disk) : Except OpenError Disk :=
  if table ∈ d.objects then next else .error (.noSuchTable table)

/-- `CREATE TABLE` or `CREATE INDEX` -/
def create (d : Disk) (name : String) : Except OpenError Disk :=
  if name ∈ d.objects then .error (.alreadyExists name)
  else .ok { d with objects := d.objects ++ [name] }

/-- `CREATE TABLE IF NOT EXISTS` or `CREATE INDEX IF NOT EXISTS` -/
def createIfNotExists (d : Disk) (name : String) : Disk :=
  if name ∈ d.objects then d else { d with objects := d.objects ++ [name] }

/-- `INSERT INTO schema_version` -/
def insertVersion (d : Disk) (version : Nat) : Except OpenError Disk :=
  d.onTable "schema_version" <|
    if version ∈ d.versions then .error (.porch (.sqlite (.unique "schema_version.version")))
    else .ok { d with versions := d.versions ++ [version] }

/-- `INSERT INTO device_identity` -/
def insertDeviceIdentity (d : Disk) (deviceId : String) (now : Int64) : Except OpenError Disk :=
  d.onTable "device_identity" <|
    match d.deviceIdentity.insert? ⟨deviceId, now, none⟩ with
    | none => .error (.porch (.sqlite (.unique "device_identity.device_id")))
    | some deviceIdentity => .ok { d with deviceIdentity := deviceIdentity }

/-- One column of `add_sync_columns_if_missing`: `ALTER TABLE … ADD COLUMN` where the table
does not have it. -/
def addSyncColumnIfMissing (d : Disk) (t : SyncedTable) (c : SyncColumn) :
    Except OpenError Disk :=
  d.onTable t.name <|
    if c ∈ d.columns t then .ok d
    else .ok { d with
      columns := Function.update d.columns t (d.columns t ++ [c])
      synced := Function.update d.synced t
        ((d.synced t).mapRows (StoredRow.addColumn c) (StoredRow.key_addColumn c)) }

/-- `UPDATE t SET sync_device_id = … WHERE sync_device_id IS NULL` -/
def backfill (d : Disk) (t : SyncedTable) (deviceId : String) : Except OpenError Disk :=
  d.onTable t.name <|
    if .syncDeviceId ∈ d.columns t then
      .ok { d with
        synced := Function.update d.synced t
          ((d.synced t).updateWhere (fun r => r.syncDeviceId.isNone) (StoredRow.stamp deviceId)
            (StoredRow.key_stamp deviceId)) }
    else .error (.noSuchColumn t.name SyncColumn.syncDeviceId.name)

/-- `SELECT device_id FROM device_identity LIMIT 1` -/
def deviceIdUnchecked (d : Disk) : Except OpenError String :=
  match d.deviceIdentity.rows with
  | [] => .error (.porch (.invalidInput
      "device_identity row missing — Phase F migration did not run"))
  | row :: _ => .ok row.deviceId

/-- `SELECT COALESCE(MAX(sync_lamport), 0) FROM t` -/
def maxLamport (d : Disk) (t : SyncedTable) : Except OpenError Int64 :=
  if t.name ∈ d.objects then
    if .syncLamport ∈ d.columns t then
      .ok (match (d.synced t).rows.map StoredRow.syncLamport with
        | [] => 0
        | v :: vs => Int64.maxFrom v vs)
    else .error (.noSuchColumn t.name SyncColumn.syncLamport.name)
  else .error (.noSuchTable t.name)

/-- The lamport the next write carries. -/
def nextLamport (d : Disk) : Except OpenError Int64 := do
  let maxima ← SyncedTable.all.mapM d.maxLamport
  return (Int64.maxFrom 0 maxima).saturatingAdd 1

/-- Insert the primary "Local" profile. -/
def insertLocalProfile (d : Disk) (id : String) (now : Int64) : Except OpenError Disk := do
  let deviceId ← d.deviceIdUnchecked
  let lamport ← d.nextLamport
  d.onTable "user_profiles" <|
    match d.profiles.insert? ⟨id, "Local", none, true, .local, now, deviceId, lamport, 0⟩ with
    | none => .error (.porch (.sqlite (.unique "user_profiles.id")))
    | some profiles =>
      if d.profiles.rows.any UserProfileRow.isPrimary then
        .error (.porch (.sqlite (.unique "user_profiles.is_primary")))
      else .ok { d with profiles := profiles }

/-- `INSERT OR IGNORE` of the server name -/
def insertServerName (d : Disk) : Except OpenError Disk :=
  d.onTable "home_meta" <|
    .ok { d with
      homeMeta := (d.homeMeta.insert? ⟨"server_name", Porch.defaultHomeServerName⟩).getD
        d.homeMeta }

/-- `INSERT OR IGNORE INTO visibility_meta` -/
def insertVisibility (d : Disk) (row : VisibilityRow) : Except OpenError Disk :=
  d.onTable "visibility_meta" <|
    .ok { d with visibility := (d.visibility.insert? row).getD d.visibility }

/-- `ensure_default_channel`: insert the default channel when there is no channel at all. -/
def ensureDefaultChannel (d : Disk) (now : Int64) : Except OpenError Disk :=
  d.onTable "porch_channels" <|
    if (d.synced .porchChannels).rows.isEmpty then do
      let deviceId ← d.deviceIdUnchecked
      let lamport ← d.nextLamport
      match SyncColumn.all.find? fun c => c ∉ d.columns .porchChannels with
      | some c => .error (.noSuchColumn "porch_channels" c.name)
      | none =>
        match (d.synced .porchChannels).insert? ⟨⟨defaultPorchChannelId, defaultPorchChannelName,
            "porch", "open", now⟩, some deviceId, lamport, 0⟩ with
        | none => .error (.porch (.sqlite (.unique SyncedTable.porchChannels.primaryKey)))
        | some channels =>
          .ok { d with synced := Function.update d.synced .porchChannels channels }
    else .ok d

/-- A statement of `migrate` or of `ensure_default_channel`, with the reads before it. -/
inductive Statement where
  | create (name : String)
  | createIfNotExists (name : String)
  | insertVersion (version : Nat)
  | insertDeviceIdentity (deviceId : String) (now : Int64)
  | addSyncColumnIfMissing (t : SyncedTable) (c : SyncColumn)
  | backfill (t : SyncedTable) (deviceId : String)
  | insertLocalProfile (id : String) (now : Int64)
  | insertServerName
  | insertVisibility (row : VisibilityRow)
  | ensureDefaultChannel (now : Int64)
  deriving DecidableEq

/-- What the statement does to the file. -/
def exec : Statement → Disk → Except OpenError Disk
  | .create name, d => d.create name
  | .createIfNotExists name, d => .ok (d.createIfNotExists name)
  | .insertVersion version, d => d.insertVersion version
  | .insertDeviceIdentity deviceId now, d => d.insertDeviceIdentity deviceId now
  | .addSyncColumnIfMissing t c, d => d.addSyncColumnIfMissing t c
  | .backfill t deviceId, d => d.backfill t deviceId
  | .insertLocalProfile id now, d => d.insertLocalProfile id now
  | .insertServerName, d => d.insertServerName
  | .insertVisibility row, d => d.insertVisibility row
  | .ensureDefaultChannel now, d => d.ensureDefaultChannel now

/-- A transaction: all its statements, or none where one of them fails. -/
abbrev Transaction := List Statement

def commit : Transaction → Disk → Except OpenError Disk := Staged.run exec

/-! ## The migration -/

/-- The tables and indexes a version creates in the transaction that records it, or in its
first for version 6. -/
def createdBy : Nat → List String
  | 1 => ["porch_channels", "channel_acl", "channel_messages", "idx_messages_channel_time",
      "idx_acl_peer"]
  | 2 => ["channel_knocks", "idx_knock_pending_one_per_pair", "idx_knock_channel",
      "idx_knock_status"]
  | 3 => ["channel_themes", "porch_assets", "idx_assets_channel"]
  | 4 => ["obsidian_channels"]
  | 5 => ["backup_targets", "received_backups"]
  | 6 => ["device_identity", "device_links"]
  | 7 => ["user_profiles", "keychain_entries", "idx_only_one_primary", "idx_keychain_by_profile",
      "idx_keychain_by_source", "idx_profiles_sync", "idx_keychain_sync"]
  | 8 => ["home_meta"]
  | 9 => ["visibility_meta"]
  | 10 => ["conflict_queue", "conflict_attempts", "idx_conflict_queue_unresolved",
      "idx_conflict_attempts_by_conflict"]
  | _ => []

/-- The indexes version 6 creates in its last transaction. -/
def syncIndexes : List String :=
  ["idx_channels_sync", "idx_messages_sync", "idx_acl_sync", "idx_knocks_sync",
    "idx_themes_sync", "idx_assets_sync", "idx_obsidian_sync"]

/-- `BEGIN`, the `CREATE`s of a version, its number, `COMMIT`. -/
def record (version : Nat) : Transaction :=
  (createdBy version).map .create ++ [.insertVersion version]

/-- The same with `IF NOT EXISTS`. -/
def recordIfMissing (version : Nat) : Transaction :=
  (createdBy version).map .createIfNotExists ++ [.insertVersion version]

/-- What a version draws from the generator of ids and the clock. -/
structure Draw where
  ulid : String
  now : Int64
  deriving DecidableEq, Repr

/-- The transactions of the step to a version, in order. -/
def upgrade (draw : Draw) : Nat → List Transaction
  | 6 =>
    [(createdBy 6).map .create, [.insertDeviceIdentity draw.ulid draw.now]] ++
    SyncedTable.all.flatMap (fun t => SyncColumn.all.map fun c => [.addSyncColumnIfMissing t c]) ++
    SyncedTable.all.map (fun t => [.backfill t draw.ulid]) ++
    [syncIndexes.map .createIfNotExists ++ [.insertVersion 6]]
  | 7 => [record 7, [.insertLocalProfile draw.ulid draw.now]]
  | 8 => [recordIfMissing 8, [.insertServerName]]
  | 9 =>
    [recordIfMissing 9,
      [.insertVisibility ⟨visibilityServerIdPorch, defaultPorchMaxHops, draw.now⟩],
      [.insertVisibility ⟨visibilityServerIdHome, defaultHomeMaxHops, draw.now⟩]]
  | 10 => [recordIfMissing 10]
  | version => [record version]

/-- What one open draws: for each version it steps to, and for the default channel. -/
structure OpenDraws where
  version : Nat → Draw
  channelNow : Int64

/-- The versions an open steps to: `if current < 1`, `if current < 2` and so on. -/
def pending (current : Nat) : List Nat := (List.range' 1 10).filter fun version => current < version

/-- The transactions of an open, by version. -/
def stages (draws : OpenDraws) (current : Nat) : List (List Transaction) :=
  [[.createIfNotExists "schema_version"]] ::
    ((pending current).map fun version => upgrade (draws.version version) version) ++
    [[[.ensureDefaultChannel draws.channelNow]]]

/-- Open the file: migrate, then make sure that a channel exists. The current version is read
once, and no statement before it writes `schema_version`. -/
def «open» (draws : OpenDraws) (d : Disk) : Except OpenError Disk :=
  Staged.run commit (stages draws d.currentVersion).flatten d

end Disk

end Concorrd
