import Concorrd.Sync.Device
import Concorrd.Sync.Merge

/-!
# The sync protocol

A delta is seven lists of rows, a cursor one lamport per table. `applySyncBatch` applies a
delta in one transaction, `collectDelta` reads the rows above a cursor, and `localCursor`
is the cursor of everything a porch holds. The handler answers a peer that is linked, and
`syncNow` is one pull followed by one full push.

Requests reach the remote handler as values and its answers come back as values: framing
and JSON encoding of the envelopes are not part of the model.
-/

namespace Concorrd

/-! ## Deltas and cursors -/

/-- Lamport watermarks by table key. -/
structure SyncCursor where
  since : List (String × Int64)
  deriving DecidableEq, Repr

/-- The cursor that asks for everything. -/
def SyncCursor.default : SyncCursor := ⟨[]⟩

/-- The watermark of a table; 0 where the cursor names none. -/
def SyncCursor.sinceFor (cursor : SyncCursor) (table : String) : Int64 :=
  (cursor.since.lookup table).getD 0

/-- The key of a table in cursors and counts. -/
def SyncedTable.cursorKey : SyncedTable → String
  | porchChannels => "channels"
  | channelMessages => "messages"
  | channelAcl => "acl"
  | channelKnocks => "knocks"
  | channelThemes => "themes"
  | porchAssets => "assets"
  | obsidianChannels => "obsidian"

/-- Rows of every synced table. -/
structure SyncDelta where
  channels : List PorchChannelRow
  messages : List ChannelMessageRow
  acl : List ChannelAclRow
  knocks : List ChannelKnockRow
  themes : List ChannelThemeRow
  assets : List PorchAssetRow
  obsidian : List ObsidianChannelRow
  deriving DecidableEq

namespace SyncDelta

/-- The rows of one table. -/
def rows (delta : SyncDelta) : (t : SyncedTable) → List (Row t)
  | .porchChannels => delta.channels
  | .channelMessages => delta.messages
  | .channelAcl => delta.acl
  | .channelKnocks => delta.knocks
  | .channelThemes => delta.themes
  | .porchAssets => delta.assets
  | .obsidianChannels => delta.obsidian

/-- Every row of the delta, in the order it is applied. -/
def all (delta : SyncDelta) : List SyncedRow :=
  SyncedTable.all.flatMap fun t => (delta.rows t).map (SyncedRow.mk t)

theorem mem_all {delta : SyncDelta} {x : SyncedRow} :
    x ∈ delta.all ↔ x.row ∈ delta.rows x.table := by
  simp only [all, List.mem_flatMap, List.mem_map, SyncedTable.mem_all, true_and]
  constructor
  · rintro ⟨t, r, hr, rfl⟩
    exact hr
  · intro hx
    exact ⟨x.table, x.row, hx, rfl⟩

end SyncDelta

/-- How many rows of each table were written. -/
structure ApplyCounts where
  channels : Nat
  messages : Nat
  acl : Nat
  knocks : Nat
  themes : Nat
  assets : Nat
  obsidian : Nat
  deriving DecidableEq, Repr

namespace ApplyCounts

/-- The count of one table. -/
def count (counts : ApplyCounts) : SyncedTable → Nat
  | .porchChannels => counts.channels
  | .channelMessages => counts.messages
  | .channelAcl => counts.acl
  | .channelKnocks => counts.knocks
  | .channelThemes => counts.themes
  | .porchAssets => counts.assets
  | .obsidianChannels => counts.obsidian

/-- The sum over the tables. -/
def total (counts : ApplyCounts) : Nat :=
  counts.channels + counts.messages + counts.acl + counts.knocks + counts.themes +
    counts.assets + counts.obsidian

theorem total_eq_zero_iff {counts : ApplyCounts} :
    counts.total = 0 ↔ ∀ t, counts.count t = 0 := by
  constructor
  · intro h t
    unfold total at h
    cases t <;> simp only [count] <;> omega
  · intro h
    have hc : counts.channels = 0 := h .porchChannels
    have hm : counts.messages = 0 := h .channelMessages
    have ha : counts.acl = 0 := h .channelAcl
    have hk : counts.knocks = 0 := h .channelKnocks
    have ht : counts.themes = 0 := h .channelThemes
    have hs : counts.assets = 0 := h .porchAssets
    have ho : counts.obsidian = 0 := h .obsidianChannels
    unfold total
    omega

/-- The counts by table key, as a response carries them. -/
def countsMap (counts : ApplyCounts) : List (String × Nat) :=
  SyncedTable.all.map fun t => (t.cursorKey, counts.count t)

end ApplyCounts

namespace Database

/-! ## Applying a batch -/

/-- Apply rows one after another and count those that were written. -/
def applyEach {t : SyncedTable} (apply : Database → Row t → Except PorchError (Database × Bool)) :
    Database → List (Row t) → Except PorchError (Database × Nat)
  | db, [] => .ok (db, 0)
  | db, row :: rows =>
    match apply db row with
    | .error e => .error e
    | .ok (db, won) =>
      match applyEach apply db rows with
      | .error e => .error e
      | .ok (db, n) => .ok (db, n + won.toNat)

/-- Apply a delta table by table, or leave the database as it was. -/
def applySyncBatch (db : Database) (delta : SyncDelta) :
    Except PorchError (Database × ApplyCounts) := do
  let (db, channels) ← applyEach applyRemoteChannel db delta.channels
  let (db, messages) ← applyEach applyRemoteMessage db delta.messages
  let (db, acl) ← applyEach applyRemoteAcl db delta.acl
  let (db, knocks) ← applyEach applyRemoteKnock db delta.knocks
  let (db, themes) ← applyEach applyRemoteTheme db delta.themes
  let (db, assets) ← applyEach applyRemoteAsset db delta.assets
  let (db, obsidian) ← applyEach applyRemoteObsidian db delta.obsidian
  return (db, ⟨channels, messages, acl, knocks, themes, assets, obsidian⟩)

/-- The cursor of everything the database holds. -/
def localCursor (db : Database) : SyncCursor :=
  ⟨SyncedTable.all.map fun t => (t.cursorKey, db.tables.maxLamport t)⟩

/-- Every row above the cursor. -/
def collectDelta (db : Database) (cursor : SyncCursor) : SyncDelta where
  channels := channelsSince db (cursor.sinceFor "channels")
  messages := messagesSince db (cursor.sinceFor "messages")
  acl := aclSince db (cursor.sinceFor "acl")
  knocks := knocksSince db (cursor.sinceFor "knocks")
  themes := themesSince db (cursor.sinceFor "themes")
  assets := assetsSince db (cursor.sinceFor "assets")
  obsidian := obsidianSince db (cursor.sinceFor "obsidian")

end Database

/-! ## The handler -/

/-- A request of the sync protocol. -/
inductive SyncRequest where
  | linkRequest (myDeviceId : String) (label : Option String)
  | pullDelta (since : SyncCursor)
  | pushDelta (delta : SyncDelta)

/-- The body of an answer that is not an error. -/
inductive SyncResult where
  | link (myDeviceId : String) (label : Option String)
  | delta (delta : SyncDelta)
  | push (applied : List (String × Nat))

/-- The body of an error answer. -/
structure SyncErrorBody where
  code : Int
  message : String
  deriving DecidableEq, Repr

/-- An answer: a result or an error body. -/
abbrev SyncResponse := Except SyncErrorBody SyncResult

/-- The error body of a porch error. -/
def SyncErrorBody.ofError (e : PorchError) : SyncErrorBody := ⟨e.statusCode, e.toString⟩

/-- The porch error a caller makes of an error body. -/
def SyncErrorBody.toError (body : SyncErrorBody) : PorchError :=
  if body.code = 403 then .accessDenied body.message
  else if body.code = 404 then .channelNotFound body.message
  else .invalidInput body.message

namespace Porch

/-- Apply a delta to the porch. An error leaves it as it was. -/
def applySyncBatch (p : Porch) (delta : SyncDelta) : Except PorchError (Porch × ApplyCounts) :=
  match p.db.applySyncBatch delta with
  | .error e => .error e
  | .ok (db, counts) => .ok ({ p with db := db }, counts)

/-- Refuse a peer that is not linked. -/
def assertLinked (p : Porch) (requester : String) : Except PorchError Unit :=
  if p.isPersonalDevice requester then .ok ()
  else .error (.accessDenied ("peer " ++ requester ++ " is not a linked personal device"))

/-- Answer one request of a peer, and the porch it leaves. -/
def dispatchInner (p : Porch) (requester : String) :
    SyncRequest → Except PorchError (Porch × SyncResult)
  | .linkRequest myDeviceId _ =>
    match p.listDeviceLinks.find?
        (fun link => link.deviceId = myDeviceId ∧ link.peerId ≠ requester) with
    | some existing =>
      .error (.accessDenied ("device_id " ++ myDeviceId ++ " already linked to peer " ++
        existing.peerId))
    | none => .ok (p, .link p.deviceId none)
  | .pullDelta since => do
    p.assertLinked requester
    return (p, .delta (p.db.collectDelta since))
  | .pushDelta delta => do
    p.assertLinked requester
    let (p, counts) ← p.applySyncBatch delta
    return (p, .push counts.countsMap)

/-- Answer one request of a peer. An error leaves the porch as it was. -/
def dispatch (p : Porch) (requester : String) (request : SyncRequest) : Porch × SyncResponse :=
  match p.dispatchInner requester request with
  | .ok (p, result) => (p, .ok result)
  | .error e => (p, .error (.ofError e))

/-! ## One round of pull and push -/

/-- What a round reports. -/
structure SyncReport where
  peerId : String
  pulledCountPerTable : List (String × Nat)
  pushedCountPerTable : List (String × Nat)
  error : Option String
  deriving DecidableEq, Repr

/-- A pull's delta, or the error its answer stands for. -/
def decodeDelta : SyncResponse → Except PorchError SyncDelta
  | .ok (.delta delta) => .ok delta
  | .ok _ => .error (.serde "unexpected result")
  | .error body => .error body.toError

/-- A push's counts, or the error its answer stands for. -/
def decodePush : SyncResponse → Except PorchError (List (String × Nat))
  | .ok (.push applied) => .ok applied
  | .ok _ => .error (.serde "unexpected result")
  | .error body => .error body.toError

/-- The two porches after a round, and the caller's report. -/
structure SyncRound where
  caller : Porch
  remote : Porch
  report : SyncReport

/-- Pull everything above the local cursor, then push everything. `me` and `peer` are the
peer ids of the caller and of the remote porch. -/
def syncNow (p : Porch) (me : String) (remote : Porch) (peer : String) (now : Int64) : SyncRound :=
  let failed (p remote : Porch) (pulled : List (String × Nat)) (error : String) : SyncRound :=
    ⟨p, remote, ⟨peer, pulled, [], some error⟩⟩
  if p.isPersonalDevice peer = false then
    failed p remote [] ("peer " ++ peer ++ " is not a linked personal device")
  else
    let (remote, pullAnswer) := remote.dispatch me (.pullDelta p.db.localCursor)
    match decodeDelta pullAnswer with
    | .error e => failed p remote [] ("pull: " ++ e.toString)
    | .ok pulled =>
      match p.applySyncBatch pulled with
      | .error e => failed p remote [] ("apply pull: " ++ e.toString)
      | .ok (p, pulledCounts) =>
        let (remote, pushAnswer) :=
          remote.dispatch me (.pushDelta (p.db.collectDelta SyncCursor.default))
        match decodePush pushAnswer with
        | .error e => failed p remote pulledCounts.countsMap ("push: " ++ e.toString)
        | .ok applied =>
          ⟨p.recordSyncSuccess peer now p.tables.observedMax, remote,
            ⟨peer, pulledCounts.countsMap, applied, none⟩⟩

end Porch

end Concorrd
