import Concorrd.HeroSync.Convergence
import Concorrd.HeroSync.HandOff

/-!
# What a round records of two rows that tie

Only the responder compares, and the initiator sends it everything above lamport 0. So of two
rows of one key and one lamport above 0 it is always the responder that sees both, whichever
side opened the round, and it queues the conflict before it merges. The initiator's own row
outlives the round, because nothing at its lamport comes back.

Two channel rows that are both tombstoned are no conflict under any name.
-/

namespace Concorrd

open SyncedRow (key stamp)

/-- The queue row carries the record. -/
def ConflictRow.Carries (codec : JsonCodec) (row : ConflictRow) (record : ConflictRecord) : Prop :=
  row.conflictKind = record.kind.asStr ∧ row.payloadJson = codec.toString record.payload

/-- Two rows of one key were written by two devices at one lamport. -/
structure Ties {t : SyncedTable} (x y : Row t) : Prop where
  key : x.key = y.key
  lamport : x.syncLamport = y.syncLamport
  device : x.syncDeviceId ≠ y.syncDeviceId

/-- Exactly one of two rows is tombstoned. -/
def OneTombstoned {t : SyncedTable} (x y : Row t) : Prop :=
  ¬ (x.syncTombstone = 0 ↔ y.syncTombstone = 0)

/-- Two channel rows that differ in a way the detector is for: in the tombstone, or in the name
while both are alive. -/
def ChannelsDiffer (x y : PorchChannelRow) : Prop :=
  OneTombstoned x y ∨ (x.syncTombstone = 0 ∧ y.syncTombstone = 0 ∧ x.cols.name ≠ y.cols.name)

/-- Two access rows that differ in the role or in the tombstone. -/
def AclDiffers (x y : ChannelAclRow) : Prop := x.cols.role ≠ y.cols.role ∨ OneTombstoned x y

/-- What a round between an initiator and a responder owes the rows that tie. The responder
queues their conflicts on the rows it had and merges the push after that, the initiator keeps
its rows, and only ties are queued. -/
structure RecordsTies (codec : JsonCodec) (A B : Porch) (round : Porch.HeroRound)
    (queued : Porch) : Prop where
  before : queued.db = B.db
  after : ∃ counts, queued.applySyncBatch A.heroEnvelope.push = .ok (round.responder, counts)
  channels : ∀ x ∈ (A.tables .porchChannels).rows, ∀ y ∈ (B.tables .porchChannels).rows,
    Ties x y → 0 < x.syncLamport → ChannelsDiffer x y →
      (∃ row ∈ queued.conflictQueue.rows, row ∉ B.conflictQueue.rows ∧
        (row.Carries codec (renameRecord y x) ∨ row.Carries codec (tombstoneRecord y x))) ∧
      round.initiator.tables.Holds ⟨_, x⟩
  acl : ∀ x ∈ (A.tables .channelAcl).rows, ∀ y ∈ (B.tables .channelAcl).rows,
    Ties x y → 0 < x.syncLamport → AclDiffers x y →
      (∃ row ∈ queued.conflictQueue.rows, row ∉ B.conflictQueue.rows ∧
        row.Carries codec (aclRecord y x)) ∧
      round.initiator.tables.Holds ⟨_, x⟩
  onlyTies : ∀ row ∈ round.responder.conflictQueue.rows, row ∉ B.conflictQueue.rows →
    (∃ x ∈ (A.tables .porchChannels).rows, ∃ y ∈ (B.tables .porchChannels).rows, Ties x y ∧
      (row.Carries codec (renameRecord y x) ∨ row.Carries codec (tombstoneRecord y x))) ∨
    ∃ x ∈ (A.tables .channelAcl).rows, ∃ y ∈ (B.tables .channelAcl).rows, Ties x y ∧
      row.Carries codec (aclRecord y x)
  initiator : round.initiator.conflictQueue = A.conflictQueue

/-! ## The predicates -/

theorem isConcurrentRename_iff {loc incoming : PorchChannelRow} :
    isConcurrentRename loc incoming = true ↔
      (incoming.syncTombstone = 0 ∧ loc.syncTombstone = 0 ∧
        incoming.cols.name ≠ loc.cols.name) ∧
      incoming.syncLamport = loc.syncLamport ∧ incoming.syncDeviceId ≠ loc.syncDeviceId := by
  simp only [isConcurrentRename, Bool.and_eq_true, decide_eq_true_eq]
  constructor
  · intro ⟨⟨⟨⟨hloc, hincoming⟩, hname⟩, hlamport⟩, hdevice⟩
    exact ⟨⟨hincoming, hloc, hname.symm⟩, hlamport.symm, hdevice.symm⟩
  · intro ⟨⟨hincoming, hloc, hname⟩, hlamport, hdevice⟩
    exact ⟨⟨⟨⟨hloc, hincoming⟩, hname.symm⟩, hlamport.symm⟩, hdevice.symm⟩

theorem isTombstoneVsWrite_iff {loc incoming : PorchChannelRow} :
    isTombstoneVsWrite loc incoming = true ↔ OneTombstoned incoming loc ∧
      incoming.syncLamport = loc.syncLamport ∧ incoming.syncDeviceId ≠ loc.syncDeviceId := by
  have one : (((loc.syncTombstone ≠ 0 : Bool) ^^ (incoming.syncTombstone ≠ 0 : Bool)) = true) ↔
      OneTombstoned incoming loc := by
    unfold OneTombstoned
    by_cases hloc : loc.syncTombstone = 0 <;> by_cases hincoming : incoming.syncTombstone = 0 <;>
      simp [hloc, hincoming]
  simp only [isTombstoneVsWrite, Bool.and_eq_true, decide_eq_true_eq, one, and_assoc]
  exact and_congr_right fun _ => and_congr eq_comm ne_comm

theorem isConcurrentAcl_iff {loc incoming : ChannelAclRow} :
    isConcurrentAcl loc incoming = true ↔ AclDiffers incoming loc ∧
      incoming.syncLamport = loc.syncLamport ∧ incoming.syncDeviceId ≠ loc.syncDeviceId := by
  unfold isConcurrentAcl AclDiffers OneTombstoned
  by_cases hlamport : loc.syncLamport = incoming.syncLamport
  · by_cases hdevice : loc.syncDeviceId = incoming.syncDeviceId
    · simp [hlamport, hdevice]
    · by_cases hloc : loc.syncTombstone = 0 <;> by_cases hincoming : incoming.syncTombstone = 0 <;>
        simp [hlamport, hdevice, Ne.symm hdevice, hloc, hincoming,
          @eq_comm _ loc.cols.role incoming.cols.role]
  · simp [hlamport, Ne.symm hlamport]

/-! ## Completed rounds -/

section

variable {codec : JsonCodec} {fresh : Nat → String × Int64} {A B : Porch} {push : SyncDelta}
  {conflicts : Nat} {round : Porch.HeroRound} {t : SyncedTable} {x y : Row t}

/-- The initiator pushes every row above lamport 0. -/
theorem mem_rows_push : x ∈ A.heroEnvelope.push.rows t ↔
    x ∈ (A.tables t).rows ∧ 0 < x.syncLamport := by
  show x ∈ (A.db.collectDelta SyncCursor.default).rows t ↔ _
  rw [Database.rows_collectDelta, Database.mem_rowsSince]
  exact Iff.rfl

/-- The initiator keeps a row that ties with a row of the responder: whatever the responder
holds under the key after the push is no newer than the initiator's cursor. -/
theorem holds_initiator_of_ties (hround : A.runHeroSyncRound codec fresh B = round)
    (hok : round.answer = .ok (.round push conflicts)) (hx : x ∈ (A.tables t).rows)
    (hy : y ∈ (B.tables t).rows) (ties : Ties x y) : round.initiator.tables.Holds ⟨t, x⟩ := by
  obtain ⟨⟨_, hpush⟩, _, hpull⟩ := Porch.exchanges_of_heroRound hround hok
  have heldA : A.tables.view ⟨t, x.key⟩ = some ⟨t, x⟩ :=
    SyncedTables.view_eq_some_iff.mpr ⟨hx, rfl⟩
  have heldB : B.tables.view ⟨t, x.key⟩ = some ⟨t, y⟩ := by
    rw [ties.key]
    exact SyncedTables.view_eq_some_iff.mpr ⟨hy, rfl⟩
  have old : ∀ z, round.responder.tables.view ⟨t, x.key⟩ = some z →
      Database.above A.db.localCursor z = false := by
    intro z hz
    obtain ⟨hholds, hkey⟩ := SyncedTables.view_eq_some_iff.mp hz
    have lamport : z.lamport = x.syncLamport ∧ z.table = t := by
      rcases Database.source_of_exchange hpush hholds with hB | hA
      · have hzB := SyncedTables.view_eq_some_iff.mpr ⟨hB, hkey⟩
        cases heldB.symm.trans hzB
        exact ⟨ties.lamport.symm, rfl⟩
      · have hzA := SyncedTables.view_eq_some_iff.mpr ⟨hA, hkey⟩
        cases heldA.symm.trans hzA
        exact ⟨rfl, rfl⟩
    rw [Database.above, decide_eq_false_iff_not, not_lt, lamport.1, lamport.2,
      Database.sinceFor_localCursor]
    exact SyncedTables.syncLamport_le_maxLamport hx
  have kept : round.initiator.tables.view ⟨t, x.key⟩ = some ⟨t, x⟩ := ?_
  · exact (SyncedTables.view_eq_some_iff.mp kept).1
  rw [Database.view_of_exchange hpull, heldA]
  cases hz : round.responder.tables.view ⟨t, x.key⟩ with
  | none => rfl
  | some z => simp only [Option.filter, old z hz, Bool.false_eq_true, if_false, Lww.larger_none]

/-- **A completed round records every tie above lamport 0.** The responder queues the conflict
of two channel or access rows that tie and differ before it merges the push, the initiator's row
outlives the round, and nothing else is queued. -/
theorem heroRound_recordsTies (hround : A.runHeroSyncRound codec fresh B = round)
    (hok : round.answer = .ok (.round push conflicts)) :
    ∃ queued, RecordsTies codec A B round queued := by
  obtain ⟨⟨queued, counts, hqueue, hdb, hpush⟩, counts', hpull⟩ :=
    Porch.stages_of_heroRound hround hok
  have queueKept : round.responder.conflictQueue = queued.conflictQueue := by
    rw [(Porch.applySyncBatch_eq_ok_iff.mp hpush).2]
  refine ⟨queued, hdb, ⟨counts, hpush⟩, ?_, ?_, ?_, ?_⟩
  · intro x hx y hy ties positive differ
    have incoming : x ∈ A.heroEnvelope.push.channels := mem_rows_push.mpr ⟨hx, positive⟩
    have loc : y ∈ B.db.find? .porchChannels x.key := by
      rw [ties.key]
      exact KeyedTable.find?_of_mem hy
    refine ⟨?_, holds_initiator_of_ties hround hok hx hy ties⟩
    rcases differ with one | ⟨hxAlive, hyAlive, hname⟩
    · have fires := isTombstoneVsWrite_iff.mpr ⟨one, ties.lamport, ties.device⟩
      obtain ⟨row, hrow, new, hkind, hpayload⟩ := Porch.queued_of_enqueueAll hqueue
        (Database.mem_detectConflicts.mpr (.inl ⟨x, incoming, y, loc,
          mem_channelConflicts.mpr (.inr ⟨fires, rfl⟩)⟩))
      exact ⟨row, hrow, new, .inr ⟨hkind, hpayload⟩⟩
    · have fires := isConcurrentRename_iff.mpr
        ⟨⟨hxAlive, hyAlive, hname⟩, ties.lamport, ties.device⟩
      obtain ⟨row, hrow, new, hkind, hpayload⟩ := Porch.queued_of_enqueueAll hqueue
        (Database.mem_detectConflicts.mpr (.inl ⟨x, incoming, y, loc,
          mem_channelConflicts.mpr (.inl ⟨fires, rfl⟩)⟩))
      exact ⟨row, hrow, new, .inl ⟨hkind, hpayload⟩⟩
  · intro x hx y hy ties positive differ
    have incoming : x ∈ A.heroEnvelope.push.acl := mem_rows_push.mpr ⟨hx, positive⟩
    have loc : y ∈ B.db.find? .channelAcl x.key := by
      rw [ties.key]
      exact KeyedTable.find?_of_mem hy
    refine ⟨?_, holds_initiator_of_ties hround hok hx hy ties⟩
    have fires := isConcurrentAcl_iff.mpr ⟨differ, ties.lamport, ties.device⟩
    obtain ⟨row, hrow, new, hkind, hpayload⟩ := Porch.queued_of_enqueueAll hqueue
      (Database.mem_detectConflicts.mpr (.inr ⟨x, incoming, y, loc,
        mem_aclConflicts.mpr ⟨fires, rfl⟩⟩))
    exact ⟨row, hrow, new, hkind, hpayload⟩
  · intro row hrow new
    rw [queueKept] at hrow
    obtain ⟨record, detected, hkind, hpayload, _⟩ :=
      (Porch.source_of_enqueueAll hqueue hrow).resolve_left new
    rcases Database.mem_detectConflicts.mp detected with ⟨x, hx, y, hy, hrecord⟩ |
      ⟨x, hx, y, hy, hrecord⟩
    · obtain ⟨hyB, hkey⟩ := KeyedTable.find?_eq_some_iff.mp hy
      have hxA := (mem_rows_push.mp hx).1
      rcases mem_channelConflicts.mp hrecord with ⟨fires, rfl⟩ | ⟨fires, rfl⟩
      · obtain ⟨_, hlamport, hdevice⟩ := isConcurrentRename_iff.mp fires
        exact .inl ⟨x, hxA, y, hyB, ⟨hkey.symm, hlamport, hdevice⟩, .inl ⟨hkind, hpayload⟩⟩
      · obtain ⟨_, hlamport, hdevice⟩ := isTombstoneVsWrite_iff.mp fires
        exact .inl ⟨x, hxA, y, hyB, ⟨hkey.symm, hlamport, hdevice⟩, .inr ⟨hkind, hpayload⟩⟩
    · obtain ⟨hyB, hkey⟩ := KeyedTable.find?_eq_some_iff.mp hy
      have hxA := (mem_rows_push.mp hx).1
      obtain ⟨fires, rfl⟩ := mem_aclConflicts.mp hrecord
      obtain ⟨_, hlamport, hdevice⟩ := isConcurrentAcl_iff.mp fires
      exact .inr ⟨x, hxA, y, hyB, ⟨hkey.symm, hlamport, hdevice⟩, hkind, hpayload⟩
  · rw [(Porch.applySyncBatch_eq_ok_iff.mp hpull).2]

end

/-- A round between the two devices that granted one access. -/
def contestedRound : Porch.HeroRound :=
  (contestedGrants.porch false).runHeroSyncRound default conflictArgs contestedPorch

set_option maxRecDepth 1000 in
theorem heroRound_recordsTies_contested :
    ∃ queued, RecordsTies default (contestedGrants.porch false) contestedPorch contestedRound
      queued := by
  have completed : ∃ push conflicts, contestedRound.answer = .ok (.round push conflicts) :=
    exists_round_of_isOkAnd (by decide)
  obtain ⟨push, conflicts, hok⟩ := completed
  exact heroRound_recordsTies rfl hok

/-- A device that received one channel row. -/
def receivedChannel (i : Bool) (row : PorchChannelRow) : Porch :=
  match (Porch.opened .none (pairArgs i)).applySyncBatch ⟨[row], [], [], [], [], [], []⟩ with
  | .ok (p, _) => p
  | .error _ => Porch.opened .none (pairArgs i)

/-- One channel under two names. -/
def room (name device : String) (lamport tombstone : Int64) : PorchChannelRow :=
  ⟨⟨"room", name, "inner", "open", 10⟩, device, lamport, tombstone⟩

/-- The round of two devices that hold a channel under two names, the second device's round. -/
def roomRound (lamport tombstone : Int64) : Porch.HeroRound :=
  (receivedChannel true (room "Hall" "device-b" lamport tombstone)).runHeroSyncRound default
    conflictArgs (receivedChannel false (room "Room" "device-a" lamport tombstone))

set_option maxRecDepth 1000 in
/-- Neither a tie of two tombstoned channels nor one at lamport 0 is recorded by a completed
round. The first overwrites the responder's row. -/
theorem roomRound_unrecorded :
    (∀ tie ∈ [((4 : Int64), (1 : Int64)), (0, 0)],
      room "Hall" "device-b" tie.1 tie.2 ∈
        ((receivedChannel true (room "Hall" "device-b" tie.1 tie.2)).tables .porchChannels).rows ∧
      room "Room" "device-a" tie.1 tie.2 ∈
        ((receivedChannel false (room "Room" "device-a" tie.1 tie.2)).tables .porchChannels).rows ∧
      Ties (room "Hall" "device-b" tie.1 tie.2) (room "Room" "device-a" tie.1 tie.2) ∧
      (∃ push conflicts, (roomRound tie.1 tie.2).answer = .ok (.round push conflicts)) ∧
      (roomRound tie.1 tie.2).initiator.conflictQueue.rows = [] ∧
      (roomRound tie.1 tie.2).responder.conflictQueue.rows = []) ∧
    ¬ (roomRound 4 1).responder.tables.Holds ⟨_, room "Room" "device-a" 4 1⟩ := by
  refine ⟨fun tie htie => ?_, by decide⟩
  rcases List.mem_pair.mp htie with rfl | rfl
  · exact ⟨by decide, by decide, ⟨by decide, by decide, by decide⟩,
      exists_round_of_isOkAnd (by decide), by decide, by decide⟩
  · exact ⟨by decide, by decide, ⟨by decide, by decide, by decide⟩,
      exists_round_of_isOkAnd (by decide), by decide, by decide⟩

end Concorrd
