import Mathlib.Data.Prod.Lex
import Mathlib.Data.String.Basic
import Concorrd.Lib.Int64Order
import Concorrd.Lib.KeyedTable
import Concorrd.Porch.Channel

/-!
# Synced rows

Seven tables take part in sync. A row of one is its own columns together with the three
sync columns, so the rows are one family over the table's name and every statement about
the stamp is made once.

The stamp of a row is its pair of lamport and device id under the lexicographic order.
-/

namespace Concorrd

/-- The tables whose rows carry sync columns. -/
inductive SyncedTable where
  | porchChannels
  | channelMessages
  | channelAcl
  | channelKnocks
  | channelThemes
  | porchAssets
  | obsidianChannels
  deriving DecidableEq, Repr

/-! ## Columns -/

/-- Columns of `porch_channels`. -/
structure PorchChannelCols where
  id : String
  name : String
  kind : String
  aclMode : String
  createdAt : Int64
  deriving DecidableEq, Repr

/-- Columns of `channel_messages`. -/
structure ChannelMessageCols where
  id : String
  channelId : String
  authorPeerId : String
  body : String
  createdAt : Int64
  deriving DecidableEq, Repr

/-- Columns of `channel_acl`. -/
structure ChannelAclCols where
  channelId : String
  peerId : String
  role : String
  grantedAt : Int64
  deriving DecidableEq, Repr

/-- Columns of `channel_knocks`. -/
structure ChannelKnockCols where
  id : String
  channelId : String
  knockerPeerId : String
  message : Option String
  status : String
  createdAt : Int64
  resolvedAt : Option Int64
  deriving DecidableEq, Repr

/-- Columns of `channel_themes`. -/
structure ChannelThemeCols where
  channelId : String
  primaryColor : String
  surfaceColor : String
  onSurfaceColor : String
  accentColor : String
  fontFamily : String
  backgroundKind : String
  backgroundValue : Option String
  updatedAt : Int64
  deriving DecidableEq, Repr

/-- Columns of `porch_assets`. -/
structure PorchAssetCols where
  id : String
  channelId : String
  mimeType : String
  filePath : String
  bytes : Int64
  sha256 : String
  createdAt : Int64
  deriving DecidableEq, Repr

/-- Columns of `obsidian_channels`. -/
structure ObsidianChannelCols where
  channelId : String
  vaultRoot : String
  subfolder : Option String
  followSymlinks : Int64
  updatedAt : Int64
  deriving DecidableEq, Repr

namespace SyncedTable

/-- The table's name in SQL. -/
def name : SyncedTable → String
  | porchChannels => "porch_channels"
  | channelMessages => "channel_messages"
  | channelAcl => "channel_acl"
  | channelKnocks => "channel_knocks"
  | channelThemes => "channel_themes"
  | porchAssets => "porch_assets"
  | obsidianChannels => "obsidian_channels"

/-- Every synced table, in the order the clock and the merge visit them. -/
def all : List SyncedTable :=
  [porchChannels, channelMessages, channelAcl, channelKnocks, channelThemes, porchAssets,
    obsidianChannels]

@[simp] theorem mem_all (t : SyncedTable) : t ∈ all := by
  cases t <;> decide

/-- The columns of a table other than the sync columns. -/
abbrev Cols : SyncedTable → Type
  | porchChannels => PorchChannelCols
  | channelMessages => ChannelMessageCols
  | channelAcl => ChannelAclCols
  | channelKnocks => ChannelKnockCols
  | channelThemes => ChannelThemeCols
  | porchAssets => PorchAssetCols
  | obsidianChannels => ObsidianChannelCols

/-- The primary key of a table. -/
abbrev Key : SyncedTable → Type
  | channelAcl => String × String
  | _ => String

instance : (t : SyncedTable) → DecidableEq t.Cols
  | porchChannels => inferInstanceAs (DecidableEq PorchChannelCols)
  | channelMessages => inferInstanceAs (DecidableEq ChannelMessageCols)
  | channelAcl => inferInstanceAs (DecidableEq ChannelAclCols)
  | channelKnocks => inferInstanceAs (DecidableEq ChannelKnockCols)
  | channelThemes => inferInstanceAs (DecidableEq ChannelThemeCols)
  | porchAssets => inferInstanceAs (DecidableEq PorchAssetCols)
  | obsidianChannels => inferInstanceAs (DecidableEq ObsidianChannelCols)

instance : (t : SyncedTable) → DecidableEq t.Key
  | porchChannels => inferInstanceAs (DecidableEq String)
  | channelMessages => inferInstanceAs (DecidableEq String)
  | channelAcl => inferInstanceAs (DecidableEq (String × String))
  | channelKnocks => inferInstanceAs (DecidableEq String)
  | channelThemes => inferInstanceAs (DecidableEq String)
  | porchAssets => inferInstanceAs (DecidableEq String)
  | obsidianChannels => inferInstanceAs (DecidableEq String)

/-- The primary key of a row's columns. -/
def keyOf : (t : SyncedTable) → t.Cols → t.Key
  | porchChannels => PorchChannelCols.id
  | channelMessages => ChannelMessageCols.id
  | channelAcl => fun cols => (cols.channelId, cols.peerId)
  | channelKnocks => ChannelKnockCols.id
  | channelThemes => ChannelThemeCols.channelId
  | porchAssets => PorchAssetCols.id
  | obsidianChannels => ObsidianChannelCols.channelId

/-- The channel a row's foreign key names. A channel row names none. -/
def parent : (t : SyncedTable) → t.Cols → Option String
  | porchChannels => fun _ => none
  | channelMessages => fun cols => some cols.channelId
  | channelAcl => fun cols => some cols.channelId
  | channelKnocks => fun cols => some cols.channelId
  | channelThemes => fun cols => some cols.channelId
  | porchAssets => fun cols => some cols.channelId
  | obsidianChannels => fun cols => some cols.channelId

end SyncedTable

/-! ## Rows and stamps -/

/-- A row of a synced table. -/
structure Row (t : SyncedTable) where
  cols : t.Cols
  syncDeviceId : String
  syncLamport : Int64
  syncTombstone : Int64
  deriving DecidableEq

abbrev PorchChannelRow := Row .porchChannels
abbrev ChannelMessageRow := Row .channelMessages
abbrev ChannelAclRow := Row .channelAcl
abbrev ChannelKnockRow := Row .channelKnocks
abbrev ChannelThemeRow := Row .channelThemes
abbrev PorchAssetRow := Row .porchAssets
abbrev ObsidianChannelRow := Row .obsidianChannels

/-- Lamport first, device id on a tie. -/
abbrev Stamp := Int64 ×ₗ String

namespace Row

variable {t : SyncedTable}

/-- The primary key of the row. -/
def key (r : Row t) : t.Key := t.keyOf r.cols

/-- The stamp of the row. -/
def stamp (r : Row t) : Stamp := toLex (r.syncLamport, r.syncDeviceId)

theorem stamp_eq_iff {r s : Row t} : r.stamp = s.stamp ↔
    r.syncLamport = s.syncLamport ∧ r.syncDeviceId = s.syncDeviceId := by
  simp only [stamp, EmbeddingLike.apply_eq_iff_eq, Prod.mk.injEq]

end Row

/-- A row of any synced table. -/
structure SyncedRow where
  table : SyncedTable
  row : Row table
  deriving DecidableEq

/-- The primary key of any synced table. -/
structure RowKey where
  table : SyncedTable
  key : table.Key
  deriving DecidableEq

namespace SyncedRow

/-- The table and the primary key of the row. -/
def key (x : SyncedRow) : RowKey := ⟨x.table, x.row.key⟩

/-- The stamp of the row. -/
def stamp (x : SyncedRow) : Stamp := x.row.stamp

/-- The lamport of the row. -/
def lamport (x : SyncedRow) : Int64 := x.row.syncLamport

/-- The device that stamped the row. -/
def device (x : SyncedRow) : String := x.row.syncDeviceId

theorem stamp_eq_iff {x y : SyncedRow} :
    x.stamp = y.stamp ↔ x.lamport = y.lamport ∧ x.device = y.device := by
  simp only [stamp, lamport, device, Row.stamp, EmbeddingLike.apply_eq_iff_eq, Prod.mk.injEq]

/-- A smaller stamp has no larger lamport. -/
theorem lamport_le_of_stamp_le {x y : SyncedRow} (h : x.stamp ≤ y.stamp) :
    x.lamport ≤ y.lamport := by
  rcases Prod.Lex.toLex_le_toLex.mp h with hlt | ⟨heq, _⟩
  · exact hlt.le
  · exact heq.le

end SyncedRow

end Concorrd
