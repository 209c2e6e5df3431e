import Concorrd.HeroSync.ConflictQueue
import Concorrd.Porch.Text
import Concorrd.Sync.Protocol

/-!
# The hero-sync round

One exchange in both directions. The initiator sends its local cursor and everything it
holds; the responder queues the destructive conflicts it detects, applies the push, and
answers with its rows above the initiator's cursor; the initiator applies those.

The stream is not part of the model: the envelope reaches the responder and its response
comes back.
-/

namespace Concorrd

/-! ## Anchor -/

/-- `home_meta` key of the elected anchor. -/
def heroAnchorInstanceKey : String := "hero_anchor_instance"

/-- Topology of a hero sync. -/
inductive HeroAnchorMode where
  | anchored
  | unanchored
  deriving DecidableEq, Repr

/-- The flag an envelope carries. -/
def HeroAnchorMode.anchoredEnvelopeFlag : HeroAnchorMode → Bool
  | .anchored => true
  | .unanchored => false

namespace Porch

/-- The elected anchor; a blank value counts as none. -/
def heroGetAnchorInstance (p : Porch) : Option String :=
  ((p.homeMeta.find? heroAnchorInstanceKey).map HomeMetaRow.value).filter fun s =>
    !(trim s).isEmpty

/-- The mode the porch is in. -/
def heroAnchorMode (p : Porch) : HeroAnchorMode :=
  match p.heroGetAnchorInstance with
  | some _ => .anchored
  | none => .unanchored

end Porch

/-! ## Detection -/

/-- Both sides alive under distinct names at one lamport. -/
def isConcurrentRename (loc remote : PorchChannelRow) : Bool :=
  loc.syncTombstone = 0 && remote.syncTombstone = 0 && loc.cols.name ≠ remote.cols.name &&
    loc.syncLamport = remote.syncLamport && loc.syncDeviceId ≠ remote.syncDeviceId

/-- Exactly one side tombstoned at one lamport. -/
def isTombstoneVsWrite (loc remote : PorchChannelRow) : Bool :=
  ((loc.syncTombstone ≠ 0 : Bool) ^^ (remote.syncTombstone ≠ 0 : Bool)) &&
    loc.syncLamport = remote.syncLamport && loc.syncDeviceId ≠ remote.syncDeviceId

/-- Both sides at one lamport disagree on the role or the tombstone. -/
def isConcurrentAcl (loc remote : ChannelAclRow) : Bool :=
  if loc.syncLamport ≠ remote.syncLamport then false
  else if loc.syncDeviceId = remote.syncDeviceId then false
  else loc.cols.role ≠ remote.cols.role ||
    (loc.syncTombstone ≠ 0 : Bool) ≠ (remote.syncTombstone ≠ 0 : Bool)

/-- A payload names the table, the row and the kind, and gives both sides. -/
def conflictPayload (table rowId : String) (kind : ConflictKind) (loc remote : Json) : Json :=
  .obj [("kind", .str kind.asStr), ("local", loc), ("remote", remote), ("row_id", .str rowId),
    ("table", .str table)]

/-- One side of a rename. -/
def renameSide (row : PorchChannelRow) : Json :=
  .obj [("device_id", .str row.syncDeviceId), ("lamport", .num row.syncLamport.toInt),
    ("name", .str row.cols.name)]

/-- One side of a tombstone against a write. -/
def tombstoneSide (row : PorchChannelRow) : Json :=
  .obj [("device_id", .str row.syncDeviceId), ("lamport", .num row.syncLamport.toInt),
    ("tombstoned", .bool (row.syncTombstone ≠ 0))]

/-- One side of an access change. -/
def aclSide (row : ChannelAclRow) : Json :=
  .obj [("device_id", .str row.syncDeviceId), ("lamport", .num row.syncLamport.toInt),
    ("role", .str row.cols.role), ("tombstoned", .bool (row.syncTombstone ≠ 0))]

/-- The record of a rename on both sides. -/
def renameRecord (loc incoming : PorchChannelRow) : ConflictRecord where
  kind := .concurrentRename
  payload := conflictPayload "porch_channels" incoming.cols.id .concurrentRename
    (renameSide loc) (renameSide incoming)

/-- The record of a tombstone against a write. -/
def tombstoneRecord (loc incoming : PorchChannelRow) : ConflictRecord where
  kind := .tombstoneVsWrite
  payload := conflictPayload "porch_channels" incoming.cols.id .tombstoneVsWrite
    (tombstoneSide loc) (tombstoneSide incoming)

/-- The record of an access change on both sides. -/
def aclRecord (loc incoming : ChannelAclRow) : ConflictRecord where
  kind := .aclChange
  payload := conflictPayload "channel_acl"
    (incoming.cols.channelId ++ ":" ++ incoming.cols.peerId) .aclChange
    (aclSide loc) (aclSide incoming)

/-- The conflicts of one incoming channel against the local row. -/
def channelConflicts (loc incoming : PorchChannelRow) : List ConflictRecord :=
  (if isConcurrentRename loc incoming then [renameRecord loc incoming] else []) ++
  if isTombstoneVsWrite loc incoming then [tombstoneRecord loc incoming] else []

/-- The conflict of one incoming access row against the local row. -/
def aclConflicts (loc incoming : ChannelAclRow) : List ConflictRecord :=
  if isConcurrentAcl loc incoming then [aclRecord loc incoming] else []

/-- Every conflict of a delta, in the order it is queued. Queueing leaves the synced tables
alone, so the lookups all see the state before the merge. -/
def Database.detectConflicts (db : Database) (delta : SyncDelta) : List ConflictRecord :=
  (delta.channels.flatMap fun incoming =>
    (db.find? .porchChannels incoming.key).elim [] fun loc => channelConflicts loc incoming) ++
  delta.acl.flatMap fun incoming =>
    (db.find? .channelAcl incoming.key).elim [] fun loc => aclConflicts loc incoming

/-! ## The exchange -/

/-- What the initiator sends. -/
structure HeroSyncEnvelope where
  anchored : Bool
  anchorLabel : Option String
  since : SyncCursor
  push : SyncDelta

/-- A request of the protocol. -/
inductive HeroSyncRequest where
  | round (env : HeroSyncEnvelope)
  | ping

/-- What the responder answers. -/
inductive HeroSyncResponse where
  | round (responderPush : SyncDelta) (responderConflictsEnqueued : Nat)
  | pong (responderMode : HeroAnchorMode)
  | anchorMismatch (responderAnchor : Option String) (message : String)
  | error (code : Int) (message : String)

/-- The response ends a round. -/
def HeroSyncResponse.isRound : HeroSyncResponse → Bool
  | .round _ _ => true
  | _ => false

theorem exists_round_of_isOkAnd {answer : Except PorchError HeroSyncResponse}
    (h : isOkAnd answer HeroSyncResponse.isRound = true) :
    ∃ push conflicts, answer = .ok (.round push conflicts) := by
  obtain ⟨response, hok, hround⟩ := isOkAnd_iff.mp h
  cases response with
  | round push conflicts => exact ⟨push, conflicts, hok⟩
  | pong mode => cases hround
  | anchorMismatch anchor message => cases hround
  | error code message => cases hround

/-- The anchor check of a round: the refusal, or nothing. -/
def anchorRefusal (env : HeroSyncEnvelope) (localAnchor : Option String) :
    Option HeroSyncResponse :=
  if env.anchored then
    match env.anchorLabel, localAnchor with
    | some init, some resp =>
      if init = resp then none
      else some (.anchorMismatch (some resp)
        ("anchor mismatch: initiator=" ++ init ++ ", responder=" ++ resp))
    | some _, none => some (.anchorMismatch none "responder has no anchor configured")
    | none, _ => some (.anchorMismatch localAnchor "envelope claims anchored=true with no label")
  else none

/-- A refusal is never a round. -/
theorem anchorRefusal_ne_round (env : HeroSyncEnvelope) (localAnchor : Option String)
    (push : SyncDelta) (conflicts : Nat) :
    anchorRefusal env localAnchor ≠ some (.round push conflicts) := by
  unfold anchorRefusal
  intro h
  split at h
  · split at h
    · split at h <;> cases h
    · cases h
    · cases h
  · cases h

namespace Porch

variable (codec : JsonCodec) (fresh : Nat → String × Int64)

/-- Queue the destructive conflicts of a delta, then merge it. The answer counts the
conflicts. -/
def applyWithConflictDetection (p : Porch) (delta : SyncDelta) :
    Porch × Except PorchError Nat :=
  let records := p.db.detectConflicts delta
  match enqueueAll codec fresh p records with
  | (p, .error e) => (p, .error e)
  | (p, .ok ()) =>
    match p.applySyncBatch delta with
    | .error e => (p, .error e)
    | .ok (p, _) => (p, .ok records.length)

/-- Answer a round, and the porch it leaves. -/
def dispatchRound (p : Porch) (env : HeroSyncEnvelope) : Porch × HeroSyncResponse :=
  match anchorRefusal env p.heroGetAnchorInstance with
  | some refusal => (p, refusal)
  | none =>
    match p.applyWithConflictDetection codec fresh env.push with
    | (p, .error e) => (p, .error e.statusCode e.toString)
    | (p, .ok conflicts) => (p, .round (p.db.collectDelta env.since) conflicts)

/-- Answer a request, and the porch it leaves. -/
def heroDispatch (p : Porch) : HeroSyncRequest → Porch × HeroSyncResponse
  | .ping => (p, .pong p.heroAnchorMode)
  | .round env => p.dispatchRound codec fresh env

/-! ## What a responder does -/

section

variable {p : Porch} {env : HeroSyncEnvelope}

/-- A refused round leaves the porch as it was. -/
theorem dispatchRound_of_refusal {refusal : HeroSyncResponse}
    (h : anchorRefusal env p.heroGetAnchorInstance = some refusal) :
    p.dispatchRound codec fresh env = (p, refusal) := by
  simp only [dispatchRound, h]

/-- A round past the anchor check queues its conflicts, then merges the push; it stops where one
of the two fails, and changes nothing else. -/
theorem dispatchRound_cases (proceeds : anchorRefusal env p.heroGetAnchorInstance = none) :
    (∃ queue e, enqueueAll codec fresh p (p.db.detectConflicts env.push) =
        ({ p with conflictQueue := queue }, .error e) ∧
      p.dispatchRound codec fresh env =
        ({ p with conflictQueue := queue }, .error e.statusCode e.toString)) ∨
    ∃ queue, enqueueAll codec fresh p (p.db.detectConflicts env.push) =
        ({ p with conflictQueue := queue }, .ok ()) ∧
      ((∃ e, p.db.applySyncBatch env.push = .error e ∧ p.dispatchRound codec fresh env =
        ({ p with conflictQueue := queue }, .error e.statusCode e.toString)) ∨
      ∃ db counts, p.db.applySyncBatch env.push = .ok (db, counts) ∧
        p.dispatchRound codec fresh env = ({ p with conflictQueue := queue, db := db },
          .round (db.collectDelta env.since) (p.db.detectConflicts env.push).length)) := by
  cases hqueue : enqueueAll codec fresh p (p.db.detectConflicts env.push) with
  | mk queued answer =>
    have hrest := enqueueAll_rest hqueue
    generalize queued.conflictQueue = queue at hrest
    subst hrest
    cases answer with
    | error e =>
      refine .inl ⟨queue, e, rfl, ?_⟩
      simp only [dispatchRound, proceeds, applyWithConflictDetection, hqueue]
    | ok _ =>
      refine .inr ⟨queue, rfl, ?_⟩
      cases hbatch : p.db.applySyncBatch env.push with
      | error e =>
        refine .inl ⟨e, rfl, ?_⟩
        simp only [dispatchRound, proceeds, applyWithConflictDetection, hqueue, applySyncBatch,
          hbatch]
      | ok out =>
        refine .inr ⟨out.1, out.2, rfl, ?_⟩
        simp only [dispatchRound, proceeds, applyWithConflictDetection, hqueue, applySyncBatch,
          hbatch]

end

/-! ## What an initiator does -/

/-- The envelope a porch opens a round with. -/
def heroEnvelope (p : Porch) : HeroSyncEnvelope where
  anchored := p.heroAnchorMode.anchoredEnvelopeFlag
  anchorLabel := p.heroGetAnchorInstance
  since := p.db.localCursor
  push := p.db.collectDelta SyncCursor.default

/-- Both porches after a round, and what the initiator returns. -/
structure HeroRound where
  initiator : Porch
  responder : Porch
  answer : Except PorchError HeroSyncResponse

/-- Drive one round against the responder. -/
def runHeroSyncRound (p responder : Porch) : HeroRound :=
  let (responder, response) := responder.heroDispatch codec fresh (.round p.heroEnvelope)
  match response with
  | .round responderPush _ =>
    match p.applySyncBatch responderPush with
    | .error e => ⟨p, responder, .error e⟩
    | .ok (p, _) => ⟨p, responder, .ok response⟩
  | _ => ⟨p, responder, .ok response⟩

end Porch

end Concorrd
