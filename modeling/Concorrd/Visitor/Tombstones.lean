import Concorrd.Porch.Migrate
import Concorrd.Sync.Batch
import Concorrd.Visitor.PurgeRequests

/-!
# Tombstones that readers see

The channel list and the lookup of an access row leave tombstoned rows out. The other readers do
not, and neither do the two writes that look a channel or a pending knock up first. `ReadsNoneGone`
says for each entry point when it answers as if the tombstoned rows were absent, and
`answer_purge_iff` says that it does so then and only then.
-/

namespace Concorrd

/-- A call that reads the synced tables. -/
inductive EntryPoint where
  | getChannel (channelId : String)
  | getMessages (channelId : String) (since : Option Int64) (limit : UInt32)
  | postMessage (channelId authorPeerId body id : String) (now : Int64)
  | knock (channelId knockerPeerId : String) (message : Option String) (id : String) (now : Int64)
  | knockStatusFor (channelId knockerPeerId : String)
  | pendingKnocks
  | getTheme (channelId : String)
  | getThemeSummary (channelId : String)
  | getAsset (assetId : String)
  | listVault (channelId relPath : String)
  | readVaultFile (channelId relPath : String)
  | request (visitor : String) (call : PorchCall)

/-- What such a call answers. -/
inductive EntryAnswer where
  | channel (answer : Option PorchChannel)
  | messages (answer : Except PorchError (List ChannelMessage))
  | message (answer : Except PorchError ChannelMessage)
  | knock (answer : Except PorchError Knock)
  | knockStatus (answer : Option Knock)
  | knocks (answer : List Knock)
  | theme (answer : Option ChannelTheme)
  | themeSummary (answer : Option ThemeSummary)
  | asset (answer : Option PorchAsset)
  | entries (answer : Except PorchError (List VaultEntry))
  | file (answer : Except PorchError (List UInt8 × String))
  | response (answer : PorchResponse)

namespace Porch

variable (files : HostFiles) (p : Porch)

/-- Make the call. -/
def answer : EntryPoint → EntryAnswer
  | .getChannel channelId => .channel (p.getChannel channelId)
  | .getMessages channelId since limit => .messages (p.getMessages channelId since limit)
  | .postMessage channelId authorPeerId body id now =>
    .message ((p.postMessage channelId authorPeerId body id now).map Outcome.answer)
  | .knock channelId knockerPeerId message id now =>
    .knock ((p.knock channelId knockerPeerId message id now).map Outcome.answer)
  | .knockStatusFor channelId knockerPeerId =>
    .knockStatus (p.knockStatusFor channelId knockerPeerId)
  | .pendingKnocks => .knocks p.pendingKnocks
  | .getTheme channelId => .theme (p.getTheme channelId)
  | .getThemeSummary channelId => .themeSummary (p.getThemeSummary channelId)
  | .getAsset assetId => .asset (p.getAsset assetId)
  | .listVault channelId relPath => .entries (p.listVault files.disk channelId relPath)
  | .readVaultFile channelId relPath => .file (p.readVaultFile files.disk channelId relPath)
  | .request visitor call => .response (dispatchPorch files p visitor call).2

/-- The id the call draws for a row it may insert. -/
def drawnId : EntryPoint → Option String
  | .postMessage _ _ _ id _ | .knock _ _ _ id _ => some id
  | .request _ call => some call.id
  | .getChannel _ | .getMessages _ _ _ | .knockStatusFor _ _ | .pendingKnocks | .getTheme _
  | .getThemeSummary _ | .getAsset _ | .listVault _ _ | .readVaultFile _ _ => none

/-- The call is answered from rows that are not deleted. -/
def ReadsNoneGone : EntryPoint → Prop
  | .getChannel channelId => p.buried .porchChannels channelId = false
  | .getMessages channelId since limit => p.buried .porchChannels channelId = false ∧
    p.PageClear channelId since limit
  | .postMessage channelId _ body _ _ =>
    BodyRefused body ∨ p.buried .porchChannels channelId = false
  | .knock channelId knockerPeerId message _ _ => p.buried .porchChannels channelId = false ∧
    (MessageRefused message ∨ ¬ p.PendingGone channelId knockerPeerId)
  | .knockStatusFor channelId knockerPeerId => p.Outranked channelId knockerPeerId
  | .pendingKnocks => ∀ row ∈ (p.tables .channelKnocks).rows, row.cols.status = "pending" →
    p.gone row = false
  | .getTheme channelId | .getThemeSummary channelId => p.buried .channelThemes channelId = false
  | .getAsset assetId => p.buried .porchAssets assetId = false
  | .listVault channelId _ | .readVaultFile channelId _ =>
    p.buried .obsidianChannels channelId = false
  | .request visitor call => p.RequestReadsNoneGone visitor call.request

/-- An entry point answers as if the tombstoned rows were absent exactly when it reads none of
them. -/
theorem answer_purge_iff (files : HostFiles) (p : Porch) (entry : EntryPoint)
    (free : ∀ id ∈ drawnId entry, p.Unused id) :
    p.answer files entry = p.purge.answer files entry ↔ p.ReadsNoneGone entry := by
  cases entry with
  | getChannel channelId =>
    exact (EntryAnswer.channel.injEq _ _).to_iff.trans getChannel_purge_iff
  | getMessages channelId since limit =>
    exact (EntryAnswer.messages.injEq _ _).to_iff.trans (getMessages_purge_iff p _ _ _)
  | postMessage channelId authorPeerId body id now =>
    exact (EntryAnswer.message.injEq _ _).to_iff.trans (postMessage_purge_iff (free id rfl))
  | knock channelId knockerPeerId message id now =>
    exact (EntryAnswer.knock.injEq _ _).to_iff.trans (knock_purge_iff _ _ _ _ (free id rfl))
  | knockStatusFor channelId knockerPeerId =>
    exact (EntryAnswer.knockStatus.injEq _ _).to_iff.trans knockStatusFor_purge_iff
  | pendingKnocks => exact (EntryAnswer.knocks.injEq _ _).to_iff.trans pendingKnocks_purge_iff
  | getTheme channelId => exact (EntryAnswer.theme.injEq _ _).to_iff.trans getTheme_purge_iff
  | getThemeSummary channelId =>
    exact (EntryAnswer.themeSummary.injEq _ _).to_iff.trans getThemeSummary_purge_iff
  | getAsset assetId => exact (EntryAnswer.asset.injEq _ _).to_iff.trans getAsset_purge_iff
  | listVault channelId relPath =>
    exact (EntryAnswer.entries.injEq _ _).to_iff.trans listVault_purge_iff
  | readVaultFile channelId relPath =>
    exact (EntryAnswer.file.injEq _ _).to_iff.trans readVaultFile_purge_iff
  | request visitor call =>
    exact (EntryAnswer.response.injEq _ _).to_iff.trans (response_purge_iff (free call.id rfl))

end Porch

/-! ## A deleted channel -/

/-- What another device sends after it deletes the default channel. -/
def deletion : SyncDelta where
  channels := [⟨⟨"porch-default", "Porch", "porch", "open", 1⟩, "device-b", 5, 1⟩]
  messages := []
  acl := []
  knocks := []
  themes := []
  assets := []
  obsidian := []

/-- A fresh install after it merges the deletion. -/
def deletedPorch : Porch :=
  { plainPorch with
    db := ((plainPorch.db.applySyncBatch deletion).toOption.map Prod.fst).getD plainPorch.db }

/-- A visitor posts to the deleted channel. -/
def lateCall : PorchCall := ⟨.postMessage "porch-default" "hello", "01", 7⟩

set_option maxRecDepth 1000 in
private theorem unused_lateCall : ∀ id ∈ Porch.drawnId (.request "visitor" lateCall),
    deletedPorch.Unused id := by
  intro id hid
  cases hid
  unfold Porch.Unused
  decide

theorem Porch.answer_purge_iff_lateCall :
    deletedPorch.answer noHostFiles (.request "visitor" lateCall) =
        deletedPorch.purge.answer noHostFiles (.request "visitor" lateCall) ↔
      deletedPorch.ReadsNoneGone (.request "visitor" lateCall) :=
  Porch.answer_purge_iff noHostFiles deletedPorch _ unused_lateCall

set_option maxRecDepth 1000 in
/-- The deleted channel is not listed, yet it takes the post of a visitor and shows it to all. -/
theorem deleted_channel_accepts :
    (∃ counts, plainPorch.db.applySyncBatch deletion = .ok (deletedPorch.db, counts)) ∧
    deletedPorch.listChannels = [] ∧
    (Porch.dispatchPorch noHostFiles deletedPorch "visitor" lateCall).2 =
      .ok (.message ⟨"01", "porch-default", "visitor", "hello", 7⟩) ∧
    (Porch.dispatchPorch noHostFiles deletedPorch.purge "visitor" lateCall).2 =
      .error ⟨404, "channel not found: porch-default"⟩ ∧
    deletedPorch.answer noHostFiles (.request "visitor" lateCall) ≠
      deletedPorch.purge.answer noHostFiles (.request "visitor" lateCall) := by
  have posted : (Porch.dispatchPorch noHostFiles deletedPorch "visitor" lateCall).2 =
      .ok (.message ⟨"01", "porch-default", "visitor", "hello", 7⟩) := by decide
  have refused : (Porch.dispatchPorch noHostFiles deletedPorch.purge "visitor" lateCall).2 =
      .error ⟨404, "channel not found: porch-default"⟩ := by decide
  have merged : ((plainPorch.db.applySyncBatch deletion).toOption).isSome = true := by
    decide
  refine ⟨?_, by decide, posted, refused, fun same => ?_⟩
  · unfold deletedPorch
    cases h : plainPorch.db.applySyncBatch deletion with
    | error e =>
      rw [h] at merged
      cases merged
    | ok out => exact ⟨out.2, rfl⟩
  · have responses := EntryAnswer.response.inj same
    rw [posted, refused] at responses
    cases responses

end Concorrd
