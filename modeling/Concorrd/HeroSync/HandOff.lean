import Concorrd.Porch.ConflictAgent
import Concorrd.Sync.Exchange
import Concorrd.Sync.Network

/-!
# From the detector to the resolver

The detector writes the two sides of a conflict under `local` and `remote`; the resolver
looks for them under `event_a` and `event_b`. Every payload the detector queues is therefore
aborted, and a drive spends its budget: `driveOne_of_enqueued`.

`Agreement` is what the hand-off promises, and `agreement_iff` says that it holds of a delta
exactly when nothing is detected.
-/

namespace Concorrd

/-- What the resolver answers on a record once it is queued as text. -/
def ConflictRecord.verdict (codec : JsonCodec) (record : ConflictRecord) : Except String Verdict :=
  deterministicVerdict codec record.kind.asStr (codec.toString record.payload)

/-- No incoming row and local row of one key are in conflict. -/
structure Database.NoConflict (db : Database) (delta : SyncDelta) : Prop where
  channels : ∀ incoming ∈ delta.channels, ∀ loc ∈ db.find? .porchChannels incoming.key,
    isConcurrentRename loc incoming = false ∧ isTombstoneVsWrite loc incoming = false
  acl : ∀ incoming ∈ delta.acl, ∀ loc ∈ db.find? .channelAcl incoming.key,
    isConcurrentAcl loc incoming = false

namespace Porch

variable (codec : JsonCodec) (draw : Nat → AttemptArgs) (fresh : Nat → String × Int64)

/-- The porch after the detection and the merge of a delta. -/
def merged (p : Porch) (delta : SyncDelta) : Porch :=
  (p.applyWithConflictDetection codec fresh delta).1

/-- The hand-off of a delta: the resolver understands every payload the detector queues. Of a
rename it picks the side the merge materialises, of an access change a revoke where there is
one, and no queued conflict ends with the user. -/
structure Agreement (p : Porch) (delta : SyncDelta) : Prop where
  rename : ∀ incoming ∈ delta.channels, ∀ loc ∈ p.db.find? .porchChannels incoming.key,
    isConcurrentRename loc incoming = true →
      ∃ v, (renameRecord loc incoming).verdict codec = .ok v ∧ v.verdictKind.picked loc incoming =
        (p.merged codec fresh delta).db.find? .porchChannels incoming.key
  tombstone : ∀ incoming ∈ delta.channels, ∀ loc ∈ p.db.find? .porchChannels incoming.key,
    isTombstoneVsWrite loc incoming = true →
      ∃ v, (tombstoneRecord loc incoming).verdict codec = .ok v
  acl : ∀ incoming ∈ delta.acl, ∀ loc ∈ p.db.find? .channelAcl incoming.key,
    isConcurrentAcl loc incoming = true → ∃ v row, (aclRecord loc incoming).verdict codec = .ok v ∧
      v.verdictKind.picked loc incoming = some row ∧
      (loc.syncTombstone ≠ 0 ∨ incoming.syncTombstone ≠ 0 → row.syncTombstone ≠ 0)
  drained : ∀ row ∈ (p.merged codec fresh delta).conflictQueue.rows, row ∉ p.conflictQueue.rows →
    ∀ p', (p.merged codec fresh delta).driveOne codec defaultMaxAttempts
      (fun _ => deterministicResolver codec) draw row ≠ some (p', .ok .manualRequired)

end Porch

/-! ## What is detected -/

variable {codec : JsonCodec} {db : Database} {delta : SyncDelta} {record : ConflictRecord}

theorem mem_channelConflicts {loc incoming : PorchChannelRow} :
    record ∈ channelConflicts loc incoming ↔
      isConcurrentRename loc incoming = true ∧ record = renameRecord loc incoming ∨
      isTombstoneVsWrite loc incoming = true ∧ record = tombstoneRecord loc incoming := by
  unfold channelConflicts
  rw [List.mem_append]
  refine or_congr ?_ ?_
  · split <;> simp_all only [List.mem_singleton, List.not_mem_nil, true_and, false_and,
      Bool.false_eq_true]
  · split <;> simp_all only [List.mem_singleton, List.not_mem_nil, true_and, false_and,
      Bool.false_eq_true]

theorem mem_aclConflicts {loc incoming : ChannelAclRow} :
    record ∈ aclConflicts loc incoming ↔
      isConcurrentAcl loc incoming = true ∧ record = aclRecord loc incoming := by
  unfold aclConflicts
  split <;> simp_all only [List.mem_singleton, List.not_mem_nil, true_and, false_and,
    Bool.false_eq_true]

/-- The detected conflicts are those of the pairs of one key. -/
theorem Database.mem_detectConflicts : record ∈ db.detectConflicts delta ↔
    (∃ incoming ∈ delta.channels, ∃ loc ∈ db.find? .porchChannels incoming.key,
      record ∈ channelConflicts loc incoming) ∨
    ∃ incoming ∈ delta.acl, ∃ loc ∈ db.find? .channelAcl incoming.key,
      record ∈ aclConflicts loc incoming := by
  have pairs : ∀ {t : SyncedTable} (rows : List (Row t))
      (conflicts : Row t → Row t → List ConflictRecord), (record ∈ rows.flatMap fun incoming =>
        (db.find? t incoming.key).elim [] fun loc => conflicts loc incoming) ↔
      ∃ incoming ∈ rows, ∃ loc ∈ db.find? t incoming.key, record ∈ conflicts loc incoming := by
    intro t rows conflicts
    rw [List.mem_flatMap]
    refine exists_congr fun incoming => and_congr_right fun _ => ?_
    cases db.find? t incoming.key with
    | none => simp only [Option.elim_none, List.not_mem_nil, Option.mem_def, reduceCtorEq,
        false_and, exists_false]
    | some loc => simp only [Option.elim_some, Option.mem_def, Option.some.injEq, exists_eq_left']
  unfold Database.detectConflicts
  rw [List.mem_append, pairs, pairs]

/-- Nothing is detected exactly when no pair is in conflict. -/
theorem Database.detectConflicts_eq_nil_iff :
    db.detectConflicts delta = [] ↔ db.NoConflict delta := by
  rw [List.eq_nil_iff_forall_not_mem]
  constructor
  · intro h
    refine ⟨fun incoming hincoming loc hloc => ⟨?_, ?_⟩, fun incoming hincoming loc hloc => ?_⟩
    · rw [Bool.eq_false_iff]
      intro hrename
      exact h _ (mem_detectConflicts.mpr (.inl ⟨incoming, hincoming, loc, hloc,
        mem_channelConflicts.mpr (.inl ⟨hrename, rfl⟩)⟩))
    · rw [Bool.eq_false_iff]
      intro htombstone
      exact h _ (mem_detectConflicts.mpr (.inl ⟨incoming, hincoming, loc, hloc,
        mem_channelConflicts.mpr (.inr ⟨htombstone, rfl⟩)⟩))
    · rw [Bool.eq_false_iff]
      intro hacl
      exact h _ (mem_detectConflicts.mpr (.inr ⟨incoming, hincoming, loc, hloc,
        mem_aclConflicts.mpr ⟨hacl, rfl⟩⟩))
  · intro h record hrecord
    rcases mem_detectConflicts.mp hrecord with ⟨incoming, hincoming, loc, hloc, hrecord⟩ |
      ⟨incoming, hincoming, loc, hloc, hrecord⟩
    · obtain ⟨hrename, htombstone⟩ := h.channels incoming hincoming loc hloc
      rcases mem_channelConflicts.mp hrecord with ⟨hdetected, _⟩ | ⟨hdetected, _⟩
      · cases hrename.symm.trans hdetected
      · cases htombstone.symm.trans hdetected
    · cases (h.acl incoming hincoming loc hloc).symm.trans (mem_aclConflicts.mp hrecord).1

/-! ## What the resolver makes of it -/

/-- A payload of the detector names no `event_a`. -/
theorem get_conflictPayload {table rowId : String} {kind : ConflictKind} {loc remote : Json} :
    (conflictPayload table rowId kind loc remote).get "event_a" = none := by
  simp only [conflictPayload, Json.get, List.lookup_cons, List.lookup_nil, String.reduceBEq]

/-- The resolver aborts on every detected conflict. -/
theorem verdict_of_detected (reads : codec.ReadsBack record.payload)
    (detected : record ∈ db.detectConflicts delta) :
    record.verdict codec = .error "missing event_a" := by
  apply deterministicVerdict_of_no_event reads
  rcases Database.mem_detectConflicts.mp detected with ⟨incoming, _, loc, _, hrecord⟩ |
    ⟨incoming, _, loc, _, hrecord⟩
  · rcases mem_channelConflicts.mp hrecord with ⟨_, rfl⟩ | ⟨_, rfl⟩
    · exact get_conflictPayload
    · exact get_conflictPayload
  · obtain ⟨_, rfl⟩ := mem_aclConflicts.mp hrecord
    exact get_conflictPayload

namespace Porch

variable {draw : Nat → AttemptArgs} {fresh : Nat → String × Int64} {p : Porch} {row : ConflictRow}

/-- The merge leaves what the detection queued, and every attempt. -/
theorem merged_rest : (p.merged codec fresh delta).conflictQueue =
    (enqueueAll codec fresh p (p.db.detectConflicts delta)).1.conflictQueue ∧
    (p.merged codec fresh delta).conflictAttempts = p.conflictAttempts := by
  unfold merged applyWithConflictDetection
  cases hqueue : enqueueAll codec fresh p (p.db.detectConflicts delta) with
  | mk queued answer =>
    have hrest : queued.conflictAttempts = p.conflictAttempts := by
      rw [enqueueAll_rest hqueue]
    simp only [hqueue]
    cases answer with
    | error e => exact ⟨rfl, hrest⟩
    | ok _ =>
      cases hbatch : queued.applySyncBatch delta with
      | error e =>
        simp only [hbatch, hrest, and_self]
      | ok out =>
        obtain ⟨q, counts⟩ := out
        obtain ⟨_, hq⟩ := applySyncBatch_eq_ok_iff.mp hbatch
        simp only [hbatch]
        rw [hq]
        exact ⟨rfl, hrest⟩

/-- A conflict the detection queued carries a detected record and is pending. -/
theorem source_of_merged (hrow : row ∈ (p.merged codec fresh delta).conflictQueue.rows)
    (new : row ∉ p.conflictQueue.rows) : ∃ record ∈ p.db.detectConflicts delta,
      row.conflictKind = record.kind.asStr ∧ row.payloadJson = codec.toString record.payload ∧
      row.status = .pending := by
  rw [merged_rest.1] at hrow
  exact (source_of_enqueueAll rfl hrow).resolve_left new

/-- **The hand-off always escalates.** A drive of any conflict the detection queued ends with
the conflict flipped to manual resolution. -/
theorem driveOne_of_enqueued (codec : JsonCodec) (draw : Nat → AttemptArgs)
    (fresh : Nat → String × Int64) (p : Porch) (delta : SyncDelta) (row : ConflictRow)
    (reads : ∀ record ∈ p.db.detectConflicts delta, codec.ReadsBack record.payload)
    (distinct : Function.Injective fun n => (draw n).attemptId)
    (unused : ∀ n, p.conflictAttempts.find? (draw n).attemptId = none)
    (hrow : row ∈ (p.merged codec fresh delta).conflictQueue.rows)
    (new : row ∉ p.conflictQueue.rows) :
    ∃ p', (p.merged codec fresh delta).driveOne codec defaultMaxAttempts
        (fun _ => deterministicResolver codec) draw row = some (p', .ok .manualRequired) ∧
      ∃ row' ∈ p'.conflictQueue.rows, row'.conflictId = row.conflictId ∧
        row'.status = .manualRequired := by
  obtain ⟨record, detected, hkind, hpayload, pending⟩ := source_of_merged hrow new
  have aborted := verdict_of_detected (reads record detected) detected
  have stalls : Stalls (fun _ => deterministicResolver codec) row := by
    intro n preamble v hv
    simp only [deterministicResolver, hkind, hpayload] at hv
    rw [ConflictRecord.verdict] at aborted
    rw [aborted] at hv
    cases hv
  obtain ⟨p', hdrive, hqueue⟩ := driveOne_of_stalls stalls pending distinct
    (fun n => by rw [merged_rest.2]; exact unused n) ⟨row, hrow, rfl⟩
  refine ⟨p', hdrive, { row with status := .manualRequired }, ?_, rfl, rfl⟩
  rw [hqueue]
  exact mem_markManualRequired hrow pending

/-- **Agreement of detector and resolver.** The hand-off keeps its promise for a delta
exactly when no incoming row is in conflict with the local one. -/
theorem agreement_iff (codec : JsonCodec) (draw : Nat → AttemptArgs)
    (fresh : Nat → String × Int64) (p : Porch) (delta : SyncDelta)
    (reads : ∀ record ∈ p.db.detectConflicts delta, codec.ReadsBack record.payload) :
    Agreement codec draw fresh p delta ↔ p.db.NoConflict delta := by
  rw [← Database.detectConflicts_eq_nil_iff]
  constructor
  · intro h
    rw [List.eq_nil_iff_forall_not_mem]
    intro record detected
    have aborted := verdict_of_detected (reads record detected) detected
    rcases Database.mem_detectConflicts.mp detected with ⟨incoming, hincoming, loc, hloc, hrecord⟩ |
      ⟨incoming, hincoming, loc, hloc, hrecord⟩
    · rcases mem_channelConflicts.mp hrecord with ⟨hrename, rfl⟩ | ⟨htombstone, rfl⟩
      · obtain ⟨v, hv, _⟩ := h.rename incoming hincoming loc hloc hrename
        cases aborted.symm.trans hv
      · obtain ⟨v, hv⟩ := h.tombstone incoming hincoming loc hloc htombstone
        cases aborted.symm.trans hv
    · obtain ⟨hacl, rfl⟩ := mem_aclConflicts.mp hrecord
      obtain ⟨v, row, hv, _⟩ := h.acl incoming hincoming loc hloc hacl
      cases aborted.symm.trans hv
  · intro hnil
    have none := Database.detectConflicts_eq_nil_iff.mp hnil
    refine ⟨fun incoming hincoming loc hloc hrename => ?_,
      fun incoming hincoming loc hloc htombstone => ?_,
      fun incoming hincoming loc hloc hacl => ?_, fun row hrow new => ?_⟩
    · cases (none.channels incoming hincoming loc hloc).1.symm.trans hrename
    · cases (none.channels incoming hincoming loc hloc).2.symm.trans htombstone
    · cases (none.acl incoming hincoming loc hloc).symm.trans hacl
    · obtain ⟨record, detected, _⟩ := source_of_merged hrow new
      rw [hnil] at detected
      cases detected

end Porch

/-! ## Two grants of one access -/

mutual

/-- Compact text of a value. None of the strings it is used on needs an escape. -/
def renderJson : Json → String
  | .null => "null"
  | .bool value => if value then "true" else "false"
  | .num value => toString value
  | .float text => text
  | .str value => "\"" ++ value ++ "\""
  | .arr items => "[" ++ renderItems items ++ "]"
  | .obj members => "\x7b" ++ renderMembers members ++ "\x7d"

/-- The items of an array. -/
def renderItems : List Json → String
  | [] => ""
  | [item] => renderJson item
  | item :: items => renderJson item ++ "," ++ renderItems items

/-- The members of an object. -/
def renderMembers : List (String × Json) → String
  | [] => ""
  | [(name, value)] => "\"" ++ name ++ "\":" ++ renderJson value
  | (name, value) :: members =>
    "\"" ++ name ++ "\":" ++ renderJson value ++ "," ++ renderMembers members

end

/-- A printer, and a parser for the text of one value. -/
def codecOf (value : Json) : JsonCodec where
  toString := renderJson
  fromStr text := if text = renderJson value then .ok value else .error "expected value"

theorem readsBack_codecOf (value : Json) : (codecOf value).ReadsBack value := if_pos rfl

/-- Both devices grant one access before they meet. -/
def contestedGrants : Network Bool :=
  pairAfter (fun _ => .none)
    [.write false (.grantAcl "porch-default" "visitor" .owner 2),
      .write true (.grantAcl "porch-default" "visitor" .member 3)]

/-- The push of the first device's hero round. -/
def contestedPush : SyncDelta := (contestedGrants.porch false).heroEnvelope.push

/-- The second device, which the push reaches. -/
def contestedPorch : Porch := contestedGrants.porch true

/-- The row of the second device. -/
def grantedMember : ChannelAclRow :=
  ⟨⟨"porch-default", "visitor", "member", 3⟩, "device-b", 2, 0⟩

/-- The row of the first device. -/
def grantedOwner : ChannelAclRow := ⟨⟨"porch-default", "visitor", "owner", 2⟩, "device-a", 2, 0⟩

/-- The codec that reads the conflict of the two back. -/
def contestedCodec : JsonCodec := codecOf (aclRecord grantedMember grantedOwner).payload

set_option maxRecDepth 1000 in
/-- The second device detects the one conflict. -/
private theorem readsBack_contested : ∀ record ∈
    contestedPorch.db.detectConflicts contestedPush,
    contestedCodec.ReadsBack record.payload := by
  have channels : ∀ incoming ∈ contestedPush.channels,
      ∀ loc ∈ contestedPorch.db.find? .porchChannels incoming.key,
        isConcurrentRename loc incoming = false ∧ isTombstoneVsWrite loc incoming = false := by
    decide
  have acl : ∀ incoming ∈ contestedPush.acl,
      ∀ loc ∈ contestedPorch.db.find? .channelAcl incoming.key,
        loc = grantedMember ∧ incoming = grantedOwner := by
    decide
  intro record detected
  rcases Database.mem_detectConflicts.mp detected with ⟨incoming, hincoming, loc, hloc, hrecord⟩ |
    ⟨incoming, hincoming, loc, hloc, hrecord⟩
  · obtain ⟨hrename, htombstone⟩ := channels incoming hincoming loc hloc
    rcases mem_channelConflicts.mp hrecord with ⟨hdetected, _⟩ | ⟨hdetected, _⟩
    · cases hrename.symm.trans hdetected
    · cases htombstone.symm.trans hdetected
  · obtain ⟨rfl, rfl⟩ := acl incoming hincoming loc hloc
    obtain ⟨_, rfl⟩ := mem_aclConflicts.mp hrecord
    exact readsBack_codecOf _

/-- Ids and times of the attempts. -/
def attemptArgs (n : Nat) : AttemptArgs := ⟨String.ofList (List.replicate n 'x'), 5, 6, 7⟩

/-- Ids and times of the queued conflicts. -/
def conflictArgs (n : Nat) : String × Int64 := (String.ofList (List.replicate n 'c'), 4)

theorem Porch.agreement_iff_contested :
    Porch.Agreement contestedCodec attemptArgs conflictArgs contestedPorch
      contestedPush ↔ contestedPorch.db.NoConflict contestedPush :=
  Porch.agreement_iff _ _ _ _ _ readsBack_contested

private theorem attemptArgs_injective : Function.Injective fun n => (attemptArgs n).attemptId := by
  intro m n h
  have lists : List.replicate m 'x' = List.replicate n 'x' := String.ofList_injective h
  simpa only [List.length_replicate] using congrArg List.length lists

/-- The conflict as the second device queues it. -/
def contestedRow : ConflictRow :=
  ⟨"", "acl_change", renderJson (aclRecord grantedMember grantedOwner).payload, 4, none, none,
    .pending⟩

set_option maxRecDepth 1000 in
/-- The second device queues the conflict. The resolver does not understand it, and the drive
leaves it to the user. -/
theorem Porch.contested_ends_manualRequired :
    contestedRow ∈
      (contestedPorch.merged contestedCodec conflictArgs contestedPush).conflictQueue.rows ∧
    contestedRow ∉ contestedPorch.conflictQueue.rows ∧
    deterministicVerdict contestedCodec contestedRow.conflictKind contestedRow.payloadJson =
      .error "missing event_a" ∧
    (∃ p', (contestedPorch.merged contestedCodec conflictArgs contestedPush).driveOne contestedCodec
      defaultMaxAttempts (fun _ => deterministicResolver contestedCodec) attemptArgs contestedRow =
        some (p', .ok .manualRequired)) ∧
    ¬ Porch.Agreement contestedCodec attemptArgs conflictArgs contestedPorch contestedPush := by
  have queued : contestedRow ∈
      (contestedPorch.merged contestedCodec conflictArgs contestedPush).conflictQueue.rows := by
    decide
  have new : contestedRow ∉ contestedPorch.conflictQueue.rows := by decide
  have noAttempts : contestedPorch.conflictAttempts.rows = [] := by decide
  have unused : ∀ n, contestedPorch.conflictAttempts.find? (attemptArgs n).attemptId = none := by
    intro n
    apply KeyedTable.find?_eq_none_iff.mpr
    intro a ha
    rw [noAttempts] at ha
    cases ha
  have reads : contestedCodec.fromStr contestedRow.payloadJson =
      .ok (aclRecord grantedMember grantedOwner).payload := readsBack_codecOf _
  obtain ⟨p', hdrive, _⟩ :=
    Porch.driveOne_of_enqueued contestedCodec attemptArgs conflictArgs contestedPorch contestedPush
      contestedRow readsBack_contested attemptArgs_injective unused queued new
  refine ⟨queued, new, ?_, ⟨p', hdrive⟩, ?_⟩
  · exact deterministicVerdict_of_no_event reads get_conflictPayload
  · intro h
    exact h.drained contestedRow queued new p' hdrive

end Concorrd
