import Mathlib.Data.Sigma.Basic
import Concorrd.Lib.Lww
import Concorrd.Porch.Error
import Concorrd.Porch.Rows

/-!
# The synced database

The seven synced tables under the constraints the migrations declare: the CHECK
expressions, the foreign key every child row has into `porch_channels`, and the partial
unique index that admits one pending knock for a channel and a peer. A `Database` carries
the proof that it satisfies them, so a state SQLite would refuse cannot be built, and a
statement is committed exactly when the tables it leaves satisfy them.

`view` reads the whole database as one register per primary key. `Puts.view_eq` says that
a statement by primary key moves one register of that view, and `exists_commit_iff` says
when the constraints let it.
-/

namespace Concorrd

/-- A synced table under its primary key. -/
abbrev SyncedTable.Table (t : SyncedTable) := KeyedTable (Row.key (t := t))

/-- The seven synced tables. -/
abbrev SyncedTables := (t : SyncedTable) → t.Table

/-! ## Constraints -/

/-- `length(s)`: the characters before the first NUL. -/
def sqlLength (s : String) : Nat := (s.toList.takeWhile (· ≠ '\x00')).length

/-- `length(color) = 7 AND substr(color, 1, 1) = '#'` -/
def isHexColumn (color : String) : Bool :=
  sqlLength color = 7 && color.toList.head? = some '#'

/-- The CHECK expressions of a table, each with its text. -/
def SyncedTable.checks : (t : SyncedTable) → List (String × (t.Cols → Bool))
  | porchChannels =>
    [("kind IN ('porch', 'inner', 'obsidian')",
        fun cols => cols.kind ∈ ["porch", "inner", "obsidian"]),
      ("acl_mode IN ('open', 'allowlist', 'owner_only')",
        fun cols => cols.aclMode ∈ ["open", "allowlist", "owner_only"])]
  | channelMessages => []
  | channelAcl =>
    [("role IN ('visitor', 'member', 'owner')",
        fun cols => cols.role ∈ ["visitor", "member", "owner"])]
  | channelKnocks =>
    [("status IN ('pending', 'accepted', 'rejected', 'withdrawn')",
        fun cols => cols.status ∈ ["pending", "accepted", "rejected", "withdrawn"])]
  | channelThemes =>
    [("length(primary_color) = 7 AND substr(primary_color, 1, 1) = '#'",
        fun cols => isHexColumn cols.primaryColor),
      ("length(surface_color) = 7 AND substr(surface_color, 1, 1) = '#'",
        fun cols => isHexColumn cols.surfaceColor),
      ("length(on_surface_color) = 7 AND substr(on_surface_color, 1, 1) = '#'",
        fun cols => isHexColumn cols.onSurfaceColor),
      ("length(accent_color) = 7 AND substr(accent_color, 1, 1) = '#'",
        fun cols => isHexColumn cols.accentColor),
      ("background_kind IN ('none', 'solid', 'gradient', 'image')",
        fun cols => cols.backgroundKind ∈ ["none", "solid", "gradient", "image"])]
  | porchAssets => []
  | obsidianChannels =>
    [("follow_symlinks IN (0, 1)", fun cols => cols.followSymlinks ∈ [(0 : Int64), 1])]

/-- The first CHECK expression the columns fail. -/
def SyncedTable.failedCheck (t : SyncedTable) (cols : t.Cols) : Option String :=
  t.checks.findSome? fun check => if check.2 cols then none else some check.1

/-- What a duplicate primary key is reported under. -/
def SyncedTable.primaryKey : SyncedTable → String
  | porchChannels => "porch_channels.id"
  | channelMessages => "channel_messages.id"
  | channelAcl => "channel_acl.channel_id, channel_acl.peer_id"
  | channelKnocks => "channel_knocks.id"
  | channelThemes => "channel_themes.channel_id"
  | porchAssets => "porch_assets.id"
  | obsidianChannels => "obsidian_channels.channel_id"

/-- The entry a row takes in a unique index besides its primary key. Only
`idx_knock_pending_one_per_pair` is one: a pending knock takes its channel and its peer. -/
def SyncedTable.uniqueEntry : (t : SyncedTable) → t.Cols → Option (String × String)
  | channelKnocks => fun cols =>
    if cols.status = "pending" then some (cols.channelId, cols.knockerPeerId) else none
  | porchChannels | channelMessages | channelAcl | channelThemes | porchAssets
  | obsidianChannels => fun _ => none

/-- What a duplicate entry of the partial unique index is reported under. -/
def pendingIndex : String := "channel_knocks.channel_id, channel_knocks.knocker_peer_id"

namespace SyncedTables

variable (T : SyncedTables)

/-- Every row passes the CHECK expressions of its table. -/
def ChecksHold : Prop := ∀ t ∈ SyncedTable.all, ∀ r ∈ (T t).rows, t.failedCheck r.cols = none

/-- No two rows of a table take one entry of its unique index. -/
def EntriesUnique : Prop :=
  ∀ t ∈ SyncedTable.all, ∀ r ∈ (T t).rows, ∀ s ∈ (T t).rows,
    ∀ entry ∈ t.uniqueEntry r.cols, entry ∈ t.uniqueEntry s.cols → r.key = s.key

/-- Every child row names a channel that exists. -/
def ParentsExist : Prop :=
  ∀ t ∈ SyncedTable.all, ∀ r ∈ (T t).rows, ∀ channel ∈ t.parent r.cols,
    (T .porchChannels).HasKey channel

instance : Decidable T.ChecksHold :=
  inferInstanceAs (Decidable (∀ t ∈ SyncedTable.all, ∀ r ∈ (T t).rows, _))

instance : Decidable T.EntriesUnique :=
  inferInstanceAs (Decidable (∀ t ∈ SyncedTable.all, ∀ r ∈ (T t).rows, _))

instance : Decidable T.ParentsExist :=
  inferInstanceAs (Decidable (∀ t ∈ SyncedTable.all, ∀ r ∈ (T t).rows, _))

end SyncedTables

/-- The synced tables together with the proof that they satisfy the schema. -/
@[ext]
structure Database where
  tables : SyncedTables
  checks : tables.ChecksHold
  entries : tables.EntriesUnique
  parents : tables.ParentsExist

namespace Database

/-- The first failed CHECK expression of any row. -/
def firstFailedCheck (T : SyncedTables) : String :=
  (SyncedTable.all.findSome? fun t => (T t).rows.findSome? fun r => t.failedCheck r.cols).getD ""

/-- Commit the tables a statement leaves, or report the constraint they violate. -/
def commit (T : SyncedTables) : Except PorchError Database :=
  if checks : T.ChecksHold then
    if entries : T.EntriesUnique then
      if parents : T.ParentsExist then .ok ⟨T, checks, entries, parents⟩
      else .error (.sqlite .foreignKey)
    else .error (.sqlite (.unique pendingIndex))
  else .error (.sqlite (.check (firstFailedCheck T)))

/-- `INSERT INTO t VALUES r` -/
def insert (db : Database) (t : SyncedTable) (r : Row t) : Except PorchError Database :=
  match (db.tables t).insert? r with
  | some table => commit (Function.update db.tables t table)
  | none =>
    match t.failedCheck r.cols with
    | some expression => .error (.sqlite (.check expression))
    | none => .error (.sqlite (.unique t.primaryKey))

/-- `UPDATE t SET f WHERE p`, where the assignment leaves the primary key alone -/
def updateWhere (db : Database) (t : SyncedTable) (p : Row t → Bool) (f : Row t → Row t)
    (hf : ∀ r, (f r).key = r.key) : Except PorchError Database :=
  commit (Function.update db.tables t ((db.tables t).updateWhere p f hf))

/-- `INSERT INTO t VALUES r ON CONFLICT DO UPDATE SET f` -/
def upsert (db : Database) (t : SyncedTable) (r : Row t) (f : Row t → Row t)
    (hf : ∀ r, (f r).key = r.key) : Except PorchError Database :=
  commit (Function.update db.tables t ((db.tables t).upsert r f hf))

/-- `SELECT … FROM t WHERE key = k` -/
def find? (db : Database) (t : SyncedTable) (k : t.Key) : Option (Row t) := (db.tables t).find? k

/-- No row in any table. -/
def empty : Database where
  tables _ := KeyedTable.empty
  checks _ _ _ h := by cases h
  entries _ _ _ h := by cases h
  parents _ _ _ h := by cases h

instance : Inhabited Database := ⟨empty⟩

/-! ## What a statement leaves -/

variable {db db' : Database} {T : SyncedTables} {x : SyncedRow}

/-- A commit keeps the tables it was given, and they satisfy the schema. -/
theorem commit_eq_ok_iff : commit T = .ok db' ↔
    db'.tables = T ∧ T.ChecksHold ∧ T.EntriesUnique ∧ T.ParentsExist := by
  constructor
  · intro h
    unfold commit at h
    split at h
    · split at h
      · split at h
        · cases h
          exact ⟨rfl, ‹_›, ‹_›, ‹_›⟩
        · cases h
      · cases h
    · cases h
  · rintro ⟨rfl, checks, entries, parents⟩
    simp only [commit, dif_pos checks, dif_pos entries, dif_pos parents]

end Database

namespace SyncedTables

variable {T T' : SyncedTables} {x y : SyncedRow}

/-- The tables hold the row. -/
def Holds (T : SyncedTables) (x : SyncedRow) : Prop := x.row ∈ (T x.table).rows

instance : Decidable (T.Holds x) := inferInstanceAs (Decidable (x.row ∈ (T x.table).rows))

/-- Every row of the tables. -/
def allRows (T : SyncedTables) : List SyncedRow :=
  SyncedTable.all.flatMap fun t => (T t).rows.map (SyncedRow.mk t)

theorem mem_allRows : x ∈ T.allRows ↔ T.Holds x := by
  simp only [allRows, List.mem_flatMap, List.mem_map, SyncedTable.mem_all, true_and]
  constructor
  · rintro ⟨t, r, hr, rfl⟩
    exact hr
  · intro hx
    exact ⟨x.table, x.row, hx, rfl⟩

/-- The tables as one register per primary key. -/
def view (T : SyncedTables) (k : RowKey) : Option SyncedRow :=
  ((T k.table).find? k.key).map (SyncedRow.mk k.table)

theorem view_eq_some_iff {k : RowKey} : T.view k = some x ↔ T.Holds x ∧ x.key = k := by
  obtain ⟨t, k⟩ := k
  obtain ⟨t', r⟩ := x
  simp only [view, Option.map_eq_some_iff, KeyedTable.find?_eq_some_iff, SyncedRow.mk.injEq,
    Holds, SyncedRow.key, RowKey.mk.injEq]
  constructor
  · rintro ⟨s, ⟨hs, hk⟩, rfl, hr⟩
    cases hr
    exact ⟨hs, rfl, heq_of_eq hk⟩
  · rintro ⟨hr, rfl, hk⟩
    exact ⟨r, ⟨hr, eq_of_heq hk⟩, rfl, HEq.rfl⟩

theorem view_key_eq_some_iff : T.view x.key = some x ↔ T.Holds x :=
  view_eq_some_iff.trans (and_iff_left rfl)

/-- What a register holds carries its key. -/
theorem wellKeyed_view : Lww.WellKeyed SyncedRow.key T.view := fun _ _ h =>
  (view_eq_some_iff.mp h).2

/-- The second tables are the first with a row written under its key. -/
structure Puts (T : SyncedTables) (x : SyncedRow) (T' : SyncedTables) : Prop where
  table : (T x.table).Puts x.row (T' x.table)
  frame : ∀ t, t ≠ x.table → T' t = T t

theorem puts_update {t : SyncedTable} {r : Row t} {table : t.Table} (h : (T t).Puts r table) :
    T.Puts ⟨t, r⟩ (Function.update T t table) where
  table := by rwa [Function.update_self]
  frame _ ht := Function.update_of_ne ht _ _

/-- A write moves the register of its key and no other. -/
theorem Puts.view_eq (h : T.Puts x T') : T'.view = Function.update T.view x.key (some x) := by
  obtain ⟨t, r⟩ := x
  funext ⟨t', k⟩
  by_cases ht : t' = t
  · subst ht
    by_cases hk : k = r.key
    · subst hk
      rw [show (⟨t', r.key⟩ : RowKey) = SyncedRow.key ⟨t', r⟩ from rfl, Function.update_self]
      exact view_key_eq_some_iff.mpr ((KeyedTable.mem_rows_iff).mpr h.table.find?_self)
    · have hne : (⟨t', k⟩ : RowKey) ≠ SyncedRow.key ⟨t', r⟩ := by
        intro e
        cases e
        exact hk rfl
      rw [Function.update_of_ne hne, view, view, h.table.find?_other hk]
  · have hne : (⟨t', k⟩ : RowKey) ≠ SyncedRow.key ⟨t, r⟩ := fun e => ht (congrArg RowKey.table e)
    rw [Function.update_of_ne hne, view, view, h.frame t' ht]

/-- After a write the tables hold the row and what other keys held. -/
theorem Puts.holds_iff (h : T.Puts x T') : T'.Holds y ↔ y = x ∨ T.Holds y ∧ y.key ≠ x.key := by
  by_cases hk : y.key = x.key
  · rw [← view_key_eq_some_iff, hk, h.view_eq, Function.update_self, Option.some.injEq]
    simp only [ne_eq, not_true_eq_false, and_false, or_false, eq_comm]
  · have hne : y ≠ x := fun e => hk (congrArg SyncedRow.key e)
    rw [← view_key_eq_some_iff, h.view_eq, Function.update_of_ne hk, view_key_eq_some_iff]
    simp only [hne, false_or, hk, ne_eq, not_false_eq_true, and_true]

/-- A write empties no table. -/
theorem Puts.rows_ne_nil {t : SyncedTable} (h : T.Puts x T') (hne : (T t).rows ≠ []) :
    (T' t).rows ≠ [] := by
  obtain ⟨r, hr⟩ := List.exists_mem_of_ne_nil _ hne
  by_cases hk : (⟨t, r⟩ : SyncedRow).key = x.key
  · have hx : T'.Holds x := h.holds_iff.mpr (.inl rfl)
    obtain ⟨t', r'⟩ := x
    cases congrArg RowKey.table hk
    exact List.ne_nil_of_mem hx
  · have hr' : T'.Holds ⟨t, r⟩ := h.holds_iff.mpr (.inr ⟨hr, hk⟩)
    exact List.ne_nil_of_mem hr'

/-- The row satisfies the schema beside the rows the tables hold under other keys. -/
structure Admits (T : SyncedTables) (x : SyncedRow) : Prop where
  check : x.table.failedCheck x.row.cols = none
  entry : ∀ s ∈ (T x.table).rows, ∀ entry ∈ x.table.uniqueEntry x.row.cols,
    entry ∈ x.table.uniqueEntry s.cols → s.key = x.row.key
  parent : ∀ channel ∈ x.table.parent x.row.cols, (T .porchChannels).HasKey channel

/-- A channel has no parent. -/
theorem table_ne_porchChannels_of_parent {channel : String}
    (h : channel ∈ x.table.parent x.row.cols) : x.table ≠ .porchChannels := by
  obtain ⟨t, r⟩ := x
  rintro rfl
  cases h

/-- A write keeps every channel that exists. -/
theorem Puts.hasKey_porchChannels (h : T.Puts x T') {channel : String}
    (hc : (T .porchChannels).HasKey channel) : (T' .porchChannels).HasKey channel := by
  by_cases ht : x.table = .porchChannels
  · obtain ⟨t, r⟩ := x
    subst ht
    exact h.table.hasKey_iff.mpr (.inr hc)
  · rwa [h.frame _ (Ne.symm ht)]

section Schema

variable (h : T.Puts x T')
include h

theorem Puts.checksHold_iff (old : T.ChecksHold) :
    T'.ChecksHold ↔ x.table.failedCheck x.row.cols = none := by
  obtain ⟨t, r⟩ := x
  constructor
  · intro hT
    exact hT t (SyncedTable.mem_all t) r (h.table.mem_iff.mpr (.inl rfl))
  · intro hr t' _ s hs
    by_cases ht : t' = t
    · subst ht
      rcases h.table.mem_iff.mp hs with rfl | ⟨hs, _⟩
      · exact hr
      · exact old t' (SyncedTable.mem_all t') s hs
    · rw [h.frame t' ht] at hs
      exact old t' (SyncedTable.mem_all t') s hs

theorem Puts.entriesUnique_iff (old : T.EntriesUnique) :
    T'.EntriesUnique ↔ ∀ s ∈ (T x.table).rows, ∀ entry ∈ x.table.uniqueEntry x.row.cols,
      entry ∈ x.table.uniqueEntry s.cols → s.key = x.row.key := by
  obtain ⟨t, r⟩ := x
  constructor
  · intro hT s hs entry hr hsEntry
    by_contra hk
    have hs' : s ∈ (T' t).rows := h.table.mem_iff.mpr (.inr ⟨hs, hk⟩)
    have hr' : r ∈ (T' t).rows := h.table.mem_iff.mpr (.inl rfl)
    exact hk (hT t (SyncedTable.mem_all t) s hs' r hr' entry hsEntry hr)
  · intro hr t' _ a ha b hb entry hae hbe
    by_cases ht : t' = t
    · subst ht
      rcases h.table.mem_iff.mp ha with rfl | ⟨ha, _⟩ <;>
        rcases h.table.mem_iff.mp hb with rfl | ⟨hb, _⟩
      · rfl
      · exact (hr b hb entry hae hbe).symm
      · exact hr a ha entry hbe hae
      · exact old t' (SyncedTable.mem_all t') a ha b hb entry hae hbe
    · rw [h.frame t' ht] at ha hb
      exact old t' (SyncedTable.mem_all t') a ha b hb entry hae hbe

theorem Puts.parentsExist_iff (old : T.ParentsExist) : T'.ParentsExist ↔
    ∀ channel ∈ x.table.parent x.row.cols, (T .porchChannels).HasKey channel := by
  constructor
  · intro hT channel hc
    have hx : x.row ∈ (T' x.table).rows := h.table.mem_iff.mpr (.inl rfl)
    have := hT x.table (SyncedTable.mem_all _) x.row hx channel hc
    rwa [h.frame _ (table_ne_porchChannels_of_parent hc).symm] at this
  · obtain ⟨t, r⟩ := x
    intro hr t' _ s hs channel hc
    refine h.hasKey_porchChannels ?_
    by_cases ht : t' = t
    · subst ht
      rcases h.table.mem_iff.mp hs with rfl | ⟨hs, _⟩
      · exact hr channel hc
      · exact old t' (SyncedTable.mem_all t') s hs channel hc
    · rw [h.frame t' ht] at hs
      exact old t' (SyncedTable.mem_all t') s hs channel hc

end Schema

end SyncedTables

namespace Database

variable {db db' : Database} {T : SyncedTables} {x : SyncedRow} {t : SyncedTable} {r : Row t}

/-- A write of one row is committed exactly when the tables admit the row. -/
theorem exists_commit_iff (h : db.tables.Puts x T) :
    (∃ db', commit T = .ok db') ↔ db.tables.Admits x := by
  have schema : (∃ db', commit T = .ok db') ↔
      T.ChecksHold ∧ T.EntriesUnique ∧ T.ParentsExist := by
    constructor
    · rintro ⟨db', hdb⟩
      exact (commit_eq_ok_iff.mp hdb).2
    · intro hT
      exact ⟨⟨T, hT.1, hT.2.1, hT.2.2⟩, commit_eq_ok_iff.mpr ⟨rfl, hT⟩⟩
  rw [schema, h.checksHold_iff db.checks, h.entriesUnique_iff db.entries,
    h.parentsExist_iff db.parents]
  exact ⟨fun ⟨hc, he, hp⟩ => ⟨hc, he, hp⟩, fun hx => ⟨hx.check, hx.entry, hx.parent⟩⟩

/-- An INSERT that succeeds wrote its row under a key that was free. -/
theorem puts_of_insert (h : db.insert t r = .ok db') :
    db.find? t r.key = none ∧ db.tables.Puts ⟨t, r⟩ db'.tables := by
  unfold insert at h
  cases hi : (db.tables t).insert? r with
  | none =>
    rw [hi] at h
    cases hc : t.failedCheck r.cols <;> simp only [hc, reduceCtorEq] at h
  | some table =>
    rw [hi] at h
    obtain ⟨hT, _⟩ := commit_eq_ok_iff.mp h
    refine ⟨(KeyedTable.insert?_eq_some_iff.mp hi).1, ?_⟩
    rw [hT]
    exact SyncedTables.puts_update (KeyedTable.puts_of_insert? hi)

/-- An INSERT succeeds exactly when the key is free and the tables admit the row. -/
theorem exists_insert_iff : (∃ db', db.insert t r = .ok db') ↔
    (db.tables t).find? r.key = none ∧ db.tables.Admits ⟨t, r⟩ := by
  constructor
  · rintro ⟨db', h⟩
    obtain ⟨free, puts⟩ := puts_of_insert h
    refine ⟨free, (exists_commit_iff puts).mp ⟨db', ?_⟩⟩
    exact commit_eq_ok_iff.mpr ⟨rfl, db'.checks, db'.entries, db'.parents⟩
  · rintro ⟨free, admits⟩
    cases hi : (db.tables t).insert? r with
    | none =>
      obtain ⟨s, hs⟩ := KeyedTable.insert?_eq_none_iff.mp hi
      cases free.symm.trans hs
    | some table =>
      have puts := SyncedTables.puts_update (T := db.tables) (KeyedTable.puts_of_insert? hi)
      obtain ⟨db', hdb⟩ := (exists_commit_iff puts).mpr admits
      exact ⟨db', by simp only [insert, hi, hdb]⟩

/-- An INSERT that succeeds appends its row and touches no other table. -/
theorem rows_of_insert (h : db.insert t r = .ok db') :
    (db'.tables t).rows = (db.tables t).rows ++ [r] ∧ ∀ t' ≠ t, db'.tables t' = db.tables t' := by
  unfold insert at h
  cases hi : (db.tables t).insert? r with
  | none =>
    rw [hi] at h
    cases hc : t.failedCheck r.cols <;> simp only [hc, reduceCtorEq] at h
  | some table =>
    rw [hi] at h
    obtain ⟨hT, _⟩ := commit_eq_ok_iff.mp h
    rw [hT, Function.update_self]
    exact ⟨(KeyedTable.insert?_eq_some_iff.mp hi).2, fun t' ht => Function.update_of_ne ht _ _⟩

/-- A row that the tables admit under a free key is appended. -/
theorem exists_insert (db : Database) (free : db.find? t r.key = none)
    (admits : db.tables.Admits ⟨t, r⟩) :
    ∃ db', db.insert t r = .ok db' ∧ (db'.tables t).rows = (db.tables t).rows ++ [r] ∧
      ∀ t' ≠ t, db'.tables t' = db.tables t' := by
  obtain ⟨db', h⟩ := exists_insert_iff.mpr ⟨free, admits⟩
  exact ⟨db', h, rows_of_insert h⟩

/-- An UPDATE that succeeds assigns to the rows it selects and touches no other table. -/
theorem rows_of_updateWhere {p : Row t → Bool} {f : Row t → Row t} {hf : ∀ r, (f r).key = r.key}
    (h : db.updateWhere t p f hf = .ok db') :
    (db'.tables t).rows = (db.tables t).rows.map (fun r => if p r then f r else r) ∧
      ∀ t' ≠ t, db'.tables t' = db.tables t' := by
  obtain ⟨hT, _⟩ := commit_eq_ok_iff.mp h
  rw [hT, Function.update_self]
  exact ⟨rfl, fun t' ht => Function.update_of_ne ht _ _⟩

/-- An UPDATE by primary key that succeeds wrote what its assignment made of the row. -/
theorem puts_of_updateWhere_key {k : t.Key} {f : Row t → Row t} {hf : ∀ r, (f r).key = r.key}
    (h : db.updateWhere t (fun s => s.key = k) f hf = .ok db') (hr : db.find? t k = some r) :
    db.tables.Puts ⟨t, f r⟩ db'.tables := by
  obtain ⟨hT, _⟩ := commit_eq_ok_iff.mp h
  rw [hT]
  exact SyncedTables.puts_update (KeyedTable.puts_updateWhere_key hr)

/-- An upsert that succeeds wrote its row, where its assignment makes that row of any other
row under the key. -/
theorem puts_of_upsert {f : Row t → Row t} {hf : ∀ r, (f r).key = r.key}
    (excluded : ∀ old, old.key = r.key → f old = r) (h : db.upsert t r f hf = .ok db') :
    db.tables.Puts ⟨t, r⟩ db'.tables := by
  obtain ⟨hT, _⟩ := commit_eq_ok_iff.mp h
  rw [hT]
  exact SyncedTables.puts_update (KeyedTable.puts_upsert_of excluded)

end Database

end Concorrd
