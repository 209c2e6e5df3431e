import Concorrd.Porch.Accounts
import Concorrd.Porch.Clock

/-!
# The porch

`Porch` is one install's database: the seven synced tables, the account tables, the device
identity, the device links, `home_meta` and the conflict queue.

A local write answers with an `Outcome`: the porch it leaves, the rows of the synced tables
its statements wrote, in order, and the value it returns. `LocalWrite` is the contract
every write meets. It says that the tables after the write are the tables before with
exactly the logged rows written, that nothing else of the porch moved, and how the rows are
stamped.
-/

namespace Concorrd

/-- A row of `device_links`. -/
structure DeviceLink where
  peerId : String
  deviceId : String
  role : String
  linkedAt : Int64
  lastSyncAt : Option Int64
  lastSyncLamport : Int64
  label : Option String
  deriving DecidableEq, Repr

/-- A row of `home_meta`. -/
structure HomeMetaRow where
  key : String
  value : String
  deriving DecidableEq, Repr

/-- Status of a `conflict_queue` row. -/
inductive ConflictStatus where
  | pending
  | resolved
  | manualRequired
  deriving DecidableEq, Repr

/-- A row of `conflict_queue`. -/
structure ConflictRow where
  conflictId : String
  conflictKind : String
  payloadJson : String
  queuedAt : Int64
  resolvedAt : Option Int64
  finalVerdictJson : Option String
  status : ConflictStatus
  deriving DecidableEq, Repr

/-- Lifecycle state of one resolver attempt. -/
inductive AttemptState where
  | running
  | succeeded
  | timeout
  | aborted
  deriving DecidableEq, Repr

/-- The column string. -/
def AttemptState.asStr : AttemptState → String
  | .running => "running"
  | .succeeded => "succeeded"
  | .timeout => "timeout"
  | .aborted => "aborted"

/-- A row of `conflict_attempts`. -/
structure AgentAttempt where
  attemptId : String
  conflictId : String
  startedAt : Int64
  endedAt : Option Int64
  state : AttemptState
  partialContextBlob : Option String
  partialVerdictJson : Option String
  deriving DecidableEq, Repr

/-- One install. `deviceId` is the single row of `device_identity`; `fileBacked` says
whether the porch has an asset directory, which an in-memory porch has not. -/
structure Porch where
  db : Database
  accounts : Accounts
  deviceId : String
  deviceLinks : KeyedTable DeviceLink.peerId
  homeMeta : KeyedTable HomeMetaRow.key
  conflictQueue : KeyedTable ConflictRow.conflictId
  conflictAttempts : KeyedTable AgentAttempt.attemptId
  fileBacked : Bool

namespace Porch

/-- The seven synced tables. -/
abbrev tables (p : Porch) : SyncedTables := p.db.tables

/-- The lamport the next local write carries. -/
abbrev nextLamport (p : Porch) : Int64 := p.tables.nextLamport

/-- A row stamped by this install: its device id, the given lamport, alive. -/
def stampRow (p : Porch) (t : SyncedTable) (lamport : Int64) (cols : t.Cols) : Row t where
  cols := cols
  syncDeviceId := p.deviceId
  syncLamport := lamport
  syncTombstone := 0

end Porch

/-! ## Rows written one after another -/

namespace SyncedTables

/-- The second tables are the first with the rows written in order. -/
def PutsAll (T : SyncedTables) : List SyncedRow → SyncedTables → Prop
  | [], T' => T' = T
  | x :: xs, T' => ∃ T₁, T.Puts x T₁ ∧ T₁.PutsAll xs T'

variable {T T' : SyncedTables} {x y : SyncedRow} {xs : List SyncedRow}

theorem putsAll_nil : T.PutsAll [] T := rfl

theorem putsAll_singleton (h : T.Puts x T') : T.PutsAll [x] T' := ⟨T', h, rfl⟩

/-- A row found after the writes was there before or was written. -/
theorem PutsAll.source (h : T.PutsAll xs T') (hy : T'.Holds y) : T.Holds y ∨ y ∈ xs := by
  induction xs generalizing T with
  | nil =>
    cases h
    exact .inl hy
  | cons x xs ih =>
    obtain ⟨T₁, h₁, hrest⟩ := h
    rcases ih hrest with h' | h'
    · rcases h₁.holds_iff.mp h' with rfl | ⟨h', _⟩
      · exact .inr List.mem_cons_self
      · exact .inl h'
    · exact .inr (List.mem_cons_of_mem x h')

/-- Writes empty no table. -/
theorem PutsAll.rows_ne_nil {t : SyncedTable} (h : T.PutsAll xs T') (hne : (T t).rows ≠ []) :
    (T' t).rows ≠ [] := by
  induction xs generalizing T with
  | nil =>
    cases h
    exact hne
  | cons x xs ih =>
    obtain ⟨T₁, h₁, hrest⟩ := h
    exact ih hrest (h₁.rows_ne_nil hne)

/-- A key nothing was written under keeps its row. -/
theorem PutsAll.holds_of_holds (h : T.PutsAll xs T') (hy : T.Holds y)
    (hk : ∀ x ∈ xs, y.key ≠ x.key) : T'.Holds y := by
  induction xs generalizing T with
  | nil =>
    cases h
    exact hy
  | cons x xs ih =>
    obtain ⟨T₁, h₁, hrest⟩ := h
    refine ih hrest ?_ fun x' hx' => hk x' (List.mem_cons_of_mem x hx')
    exact h₁.holds_iff.mpr (.inr ⟨hy, hk x List.mem_cons_self⟩)

end SyncedTables

/-! ## The contract of a local write -/

/-- What a successful write answers with. -/
structure Outcome (α : Type) where
  porch : Porch
  written : List SyncedRow
  answer : α

/-- A write keeps everything but the synced tables, writes its logged rows there under
different keys, and stamps them with its device id. It writes one row for each of the given
keys, with the lamport given for it, or none at all. -/
structure LocalWrite {α : Type} (p : Porch) (out : Outcome α) (keys : List RowKey)
    (stamps : List Int64) : Prop where
  rest : out.porch = { p with db := out.porch.db }
  puts : p.tables.PutsAll out.written out.porch.tables
  nodup : (out.written.map SyncedRow.key).Nodup
  device : ∀ x ∈ out.written, x.device = p.deviceId
  keys : out.written = [] ∨ out.written.map SyncedRow.key = keys
  lamports : out.written = [] ∨ out.written.map SyncedRow.lamport = stamps

namespace Porch

variable {α : Type} {p : Porch} {out : Outcome α}

/-- Finish a write with the database its last statement left. -/
def finish (p : Porch) (written : List SyncedRow) (answer : α)
    (db : Except PorchError Database) : Except PorchError (Outcome α) :=
  match db with
  | .ok db => .ok ⟨{ p with db := db }, written, answer⟩
  | .error e => .error e

theorem finish_eq_ok {written : List SyncedRow} {answer : α} {db : Except PorchError Database}
    (h : p.finish written answer db = .ok out) :
    ∃ db', db = .ok db' ∧ out = ⟨{ p with db := db' }, written, answer⟩ := by
  cases db with
  | error e => cases h
  | ok db' =>
    cases h
    exact ⟨db', rfl, rfl⟩

end Porch

/-- A write that wrote no row. -/
theorem LocalWrite.of_none {α : Type} {p : Porch} {answer : α} {keys : List RowKey}
    {stamps : List Int64} : LocalWrite p ⟨p, [], answer⟩ keys stamps where
  rest := rfl
  puts := SyncedTables.putsAll_nil
  nodup := List.nodup_nil
  device _ h := by cases h
  keys := .inl rfl
  lamports := .inl rfl

/-- A write of one row stamped with the next lamport. -/
theorem LocalWrite.of_one {α : Type} {p : Porch} {answer : α} {db : Database} {t : SyncedTable}
    {r : Row t} {key : t.Key} (h : p.tables.Puts ⟨t, r⟩ db.tables) (hkey : r.key = key)
    (device : r.syncDeviceId = p.deviceId) (lamport : r.syncLamport = p.nextLamport) :
    LocalWrite p ⟨{ p with db := db }, [⟨t, r⟩], answer⟩ [⟨t, key⟩] [p.nextLamport] where
  rest := rfl
  puts := SyncedTables.putsAll_singleton h
  nodup := List.nodup_singleton _
  device x hx := by
    rw [List.mem_singleton.mp hx]
    exact device
  keys := .inr (congrArg (fun k : t.Key => [RowKey.mk t k]) hkey)
  lamports := .inr (congrArg (fun l => [l]) lamport)

end Concorrd
