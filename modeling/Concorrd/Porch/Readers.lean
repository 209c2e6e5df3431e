import Mathlib.Data.List.Sort
import Concorrd.Porch.Knock
import Concorrd.Porch.Theme

/-!
# Readers

The SELECT statements of the porch. Some of them leave out the rows that carry a tombstone and
some do not, as the source has it. A text that an enumeration does not know reads as the variant
the source falls back to.
-/

namespace Concorrd

/-- Hard cap on a page of messages. -/
def maxMessagesPerQuery : UInt32 := 500

/-- The order of `ORDER BY created_at ASC, id ASC`. -/
abbrev AgeKey := Int64 ×ₗ String

/-- Member and owner may read and post. -/
def AclRole.grantsVisitAccess : AclRole → Bool
  | .member | .owner => true
  | .visitor => false

/-- A stored theme. -/
def ChannelThemeCols.toTheme (cols : ChannelThemeCols) : ChannelTheme where
  channelId := cols.channelId
  primaryColor := cols.primaryColor
  surfaceColor := cols.surfaceColor
  onSurfaceColor := cols.onSurfaceColor
  accentColor := cols.accentColor
  fontFamily := (FontFamily.fromStr cols.fontFamily).getD .system
  background := (Background.fromDb cols.backgroundKind cols.backgroundValue).getD .none
  updatedAt := cols.updatedAt

/-- The theme of a channel that has no row. -/
def ChannelTheme.defaultFor (channelId : String) : ChannelTheme where
  channelId := channelId
  primaryColor := "#4f9eff"
  surfaceColor := "#18191c"
  onSurfaceColor := "#e3e4e6"
  accentColor := "#7c4dff"
  fontFamily := .system
  background := .none
  updatedAt := 0

/-- Two colors of a theme. -/
structure ThemeSummary where
  primaryColor : String
  accentColor : String
  deriving DecidableEq, Repr

/-- A stored asset. -/
def PorchAssetCols.toAsset (cols : PorchAssetCols) : PorchAsset where
  id := cols.id
  channelId := cols.channelId
  mimeType := cols.mimeType
  filePath := cols.filePath
  bytes := cols.bytes.toUInt64
  sha256 := cols.sha256
  createdAt := cols.createdAt

namespace Porch

/-- Every channel that is alive, oldest first. -/
def listChannels (p : Porch) : List PorchChannel :=
  (((p.tables .porchChannels).rows.filter fun row => row.syncTombstone = 0).map
    fun row => row.cols.toChannel).insertionSort
      fun a b => (toLex (a.createdAt, a.id) : AgeKey) ≤ toLex (b.createdAt, b.id)

/-- A page of the messages of a channel, oldest first, tombstoned or not. -/
def getMessages (p : Porch) (channelId : String) (since : Option Int64) (limit : UInt32) :
    Except PorchError (List ChannelMessage) :=
  if (p.getChannel channelId).isNone then .error (.channelNotFound channelId)
  else
    .ok <| ((((p.tables .channelMessages).rows.filter fun row =>
      row.cols.channelId = channelId ∧ since.getD Int64.minValue < row.cols.createdAt).map
        Row.cols).insertionSort fun (a b : ChannelMessageCols) =>
          (toLex (a.createdAt, a.id) : AgeKey) ≤ toLex (b.createdAt, b.id)).take
            (min limit maxMessagesPerQuery).toNat

/-- The role of a peer in a channel. A tombstoned row grants none. -/
def lookupAcl (p : Porch) (channelId peerId : String) : Option AclRole :=
  ((p.db.find? .channelAcl (channelId, peerId)).filter fun row => row.syncTombstone = 0).bind
    fun row => AclRole.fromStr row.cols.role

/-- Whether a peer may read and post in a channel. -/
def canVisit (p : Porch) (peerId : String) (channel : PorchChannel) : Bool :=
  match channel.aclMode with
  | .open => true
  | .ownerOnly => false
  | .allowlist => ((p.lookupAcl channel.id peerId).map AclRole.grantsVisitAccess).getD false

/-- Every pending knock, oldest first, tombstoned or not. -/
def pendingKnocks (p : Porch) : List Knock :=
  (((p.tables .channelKnocks).rows.filter fun row => row.cols.status = "pending").map
    fun row => row.cols.toKnock).insertionSort
      fun a b => (toLex (a.createdAt, a.id) : AgeKey) ≤ toLex (b.createdAt, b.id)

/-- The pending knock of a peer on a channel, or else its latest, tombstoned or not. -/
def knockStatusFor (p : Porch) (channelId knockerPeerId : String) : Option Knock :=
  (p.lookupKnockPending channelId knockerPeerId).or
    ((((p.tables .channelKnocks).rows.filter fun row =>
      row.cols.channelId = channelId ∧ row.cols.knockerPeerId = knockerPeerId).map
        fun row => row.cols.toKnock).insertionSort
          fun a b => (toLex (b.createdAt, b.id) : AgeKey) ≤ toLex (a.createdAt, a.id)).head?

/-- The theme of a channel, tombstoned or not. -/
def getTheme (p : Porch) (channelId : String) : Option ChannelTheme :=
  (p.db.find? .channelThemes channelId).map fun row => row.cols.toTheme

/-- The summary of a channel's theme. -/
def getThemeSummary (p : Porch) (channelId : String) : Option ThemeSummary :=
  (p.getTheme channelId).map fun theme => ⟨theme.primaryColor, theme.accentColor⟩

/-- The asset with an id, tombstoned or not. -/
def getAsset (p : Porch) (assetId : String) : Option PorchAsset :=
  (p.db.find? .porchAssets assetId).map fun row => row.cols.toAsset

/-- The asset and its bytes. `readFile` is what reading a file of the asset directory answers. -/
def readAssetBytes (p : Porch) (readFile : String → Except String (List UInt8))
    (assetId : String) : Except PorchError (PorchAsset × List UInt8) :=
  match p.getAsset assetId with
  | none => .error (.channelNotFound assetId)
  | some asset =>
    if p.fileBacked = false then
      .error (.invalidInput "asset bytes: in-memory porch has no filesystem asset root")
    else
      match readFile asset.filePath with
      | .error e => .error (.io e)
      | .ok bytes => .ok (asset, bytes)

variable {p : Porch} {channelId peerId : String}

/-- A peer has a role exactly when its row is alive and names one. -/
theorem lookupAcl_eq_some_iff {role : AclRole} : p.lookupAcl channelId peerId = some role ↔
    ∃ row, p.db.find? .channelAcl (channelId, peerId) = some row ∧ row.syncTombstone = 0 ∧
      AclRole.fromStr row.cols.role = some role := by
  unfold lookupAcl
  simp only [Option.bind_eq_some_iff, Option.filter_eq_some_iff, decide_eq_true_eq, and_assoc]

theorem id_of_getChannel {ch : PorchChannel}
    (h : p.getChannel channelId = some ch) : ch.id = channelId := by
  obtain ⟨row, hrow, rfl⟩ := Option.map_eq_some_iff.mp h
  have key : row.key = channelId := KeyedTable.key_of_find? hrow
  exact key

end Porch

end Concorrd
