import Mathlib.Data.Sym.Sym2
import Concorrd.HeroSync.Convergence
import Concorrd.HeroSync.HandOff

/-!
# Detection over many rounds

The detector compares every incoming row with the local row of its key and queues what
competes under a fresh id. It keeps no record of what it queued, so a pair of rows gives one
queue row for each time it is presented: `contributesOnce_iff` says that a run queues every
pair at most once exactly when it presents every pair at most once.
-/

namespace Concorrd

/-! ## Pairs that compete -/

/-- Two competing rows of one key, given by their stamps. -/
structure ConflictPair where
  key : RowKey
  stamps : Sym2 Stamp
  deriving DecidableEq

/-- The pair of a local and an incoming row. -/
def pairOf {t : SyncedTable} (loc incoming : Row t) : ConflictPair :=
  ⟨⟨t, incoming.key⟩, s(loc.stamp, incoming.stamp)⟩

/-- A channel row competes when it is renamed on both sides or tombstoned on one. -/
def channelCompetes (loc incoming : PorchChannelRow) : Bool :=
  isConcurrentRename loc incoming || isTombstoneVsWrite loc incoming

namespace Database

variable (db : Database) (delta : SyncDelta)

/-- What a list of incoming rows gives against the local rows of their keys. -/
def against {t : SyncedTable} {α : Type} (rows : List (Row t)) (f : Row t → Row t → List α) :
    List α :=
  rows.flatMap fun incoming => (db.find? t incoming.key).elim [] fun loc => f loc incoming

/-- The competing pairs a delta presents, in order. -/
def presented : List ConflictPair :=
  db.against delta.channels (fun loc incoming =>
    if channelCompetes loc incoming then [pairOf loc incoming] else []) ++
  db.against delta.acl fun loc incoming =>
    if isConcurrentAcl loc incoming then [pairOf loc incoming] else []

/-- The detected conflicts, each with the pair it is about. -/
def labelledConflicts : List (ConflictPair × ConflictRecord) :=
  db.against delta.channels (fun loc incoming =>
    (channelConflicts loc incoming).map (pairOf loc incoming, ·)) ++
  db.against delta.acl fun loc incoming =>
    (aclConflicts loc incoming).map (pairOf loc incoming, ·)

variable {db delta}

theorem map_against {t : SyncedTable} {α β : Type} (m : α → β) (rows : List (Row t))
    (f : Row t → Row t → List α) :
    (db.against rows f).map m = db.against rows fun loc incoming => (f loc incoming).map m := by
  simp only [against, List.map_flatMap]
  congr 1
  funext incoming
  cases db.find? t incoming.key with
  | none => rfl
  | some loc => rfl

/-- The labels do not change what is detected. -/
theorem labelledConflicts_snd :
    (db.labelledConflicts delta).map Prod.snd = db.detectConflicts delta := by
  have plain : ∀ {t : SyncedTable} (f : Row t → Row t → List ConflictRecord),
      (fun loc incoming : Row t => ((f loc incoming).map (pairOf loc incoming, ·)).map Prod.snd) =
        f := by
    intro t f
    funext loc incoming
    rw [List.map_map]
    exact List.map_id _
  simp only [labelledConflicts, List.map_append, map_against, plain]
  rfl

/-- Two channel rows give one conflict if they compete and else none. -/
theorem labelled_channelConflicts (loc incoming : PorchChannelRow) :
    ((channelConflicts loc incoming).map (pairOf loc incoming, ·)).map Prod.fst =
      if channelCompetes loc incoming then [pairOf loc incoming] else [] := by
  -- a rename needs both rows alive, a tombstone against a write exactly one
  have exclusive : isConcurrentRename loc incoming = true →
      isTombstoneVsWrite loc incoming = false := by
    intro h
    simp only [isConcurrentRename, Bool.and_eq_true, decide_eq_true_eq] at h
    obtain ⟨⟨⟨⟨hloc, hincoming⟩, _⟩, _⟩, _⟩ := h
    simp only [isTombstoneVsWrite, hloc, hincoming, ne_eq, not_true_eq_false, decide_false,
      Bool.xor_self, Bool.false_and]
  unfold channelConflicts channelCompetes
  cases hrename : isConcurrentRename loc incoming with
  | true => simp only [exclusive hrename]; rfl
  | false => cases isTombstoneVsWrite loc incoming <;> rfl

/-- The pairs a delta presents are those its conflicts are about. -/
theorem labelledConflicts_fst :
    (db.labelledConflicts delta).map Prod.fst = db.presented delta := by
  have acl : ∀ loc incoming : ChannelAclRow,
      ((aclConflicts loc incoming).map (pairOf loc incoming, ·)).map Prod.fst =
        if isConcurrentAcl loc incoming then [pairOf loc incoming] else [] := by
    intro loc incoming
    unfold aclConflicts
    cases isConcurrentAcl loc incoming <;> rfl
  simp only [labelledConflicts, List.map_append, map_against, labelled_channelConflicts, acl]
  rfl

end Database

/-! ## One device over many rounds -/

/-- What happens to a device whose conflict queue is watched: a round it answers, a round it
opened, a write of its user, and the statements that settle a queued conflict. -/
inductive DeviceEvent where
  | respond (env : HeroSyncEnvelope) (fresh : Nat → String × Int64)
  | initiate (responderPush : SyncDelta)
  | write (op : LocalOp)
  | markResolved (conflictId verdictJson : String) (now : Int64)
  | markManualRequired (conflictId : String)
  | manualResolve (conflictId verdictJson : String) (now : Int64)

namespace Porch

variable (codec : JsonCodec)

/-- One event. What is refused leaves the porch as it was. -/
def deviceStep (p : Porch) : DeviceEvent → Porch
  | .respond env fresh => (p.dispatchRound codec fresh env).1
  | .initiate responderPush =>
    match p.applySyncBatch responderPush with
    | .ok (p, _) => p
    | .error _ => p
  | .write op => p.afterWrite op
  | .markResolved conflictId verdictJson now =>
    p.conflictQueueMarkResolved conflictId verdictJson now
  | .markManualRequired conflictId => p.conflictQueueMarkManualRequired conflictId
  | .manualResolve conflictId verdictJson now =>
    match p.conflictQueueManualResolve codec conflictId verdictJson now with
    | .ok p => p
    | .error _ => p

/-- The competing pairs an event presents to the detector. A refused round presents none. -/
def presentedAt (p : Porch) : DeviceEvent → List ConflictPair
  | .respond env _ =>
    if anchorRefusal env p.heroGetAnchorInstance = none then p.db.presented env.push else []
  | _ => []

/-- The rows an event appends to the queue, each with the pair it is about. -/
def queuedAt (p : Porch) (e : DeviceEvent) : List (ConflictPair × ConflictRow) :=
  (p.presentedAt e).zip
    ((p.deviceStep codec e).conflictQueue.rows.drop p.conflictQueue.rows.length)

/-- The queue rows a run gives a pair. -/
def contributed (p : Porch) (events : List DeviceEvent) (pair : ConflictPair) : List ConflictRow :=
  ((Machine.gather (deviceStep codec) (queuedAt codec) p events).filter (·.1 = pair)).map Prod.snd

/-- A run queues every pair at most once, and none again whose conflict is resolved. -/
def ContributesOnce (p : Porch) (events : List DeviceEvent) : Prop :=
  ∀ pair, (p.contributed codec events pair).length ≤ 1 ∧
    ∀ before later, events = before ++ later → ∀ row ∈ p.contributed codec before pair,
      (∃ row' ∈ (Machine.run (deviceStep codec) p before).conflictQueue.rows,
        row'.conflictId = row.conflictId ∧ row'.status = .resolved) →
      (Machine.run (deviceStep codec) p before).contributed codec later pair = []

/-- Every round of the run draws fresh ids for the conflicts it queues. -/
def DrawsFreshAlong (p : Porch) (events : List DeviceEvent) : Prop :=
  Machine.Along (deviceStep codec)
    (fun p e => ∀ env fresh, e = .respond env fresh → p.DrawsFresh fresh) p events

variable {codec} {p : Porch} {e : DeviceEvent}

/-- A round queues what it presents, in order and with the pairs it is about. -/
theorem rows_dispatchRound (codec : JsonCodec) (p : Porch) (env : HeroSyncEnvelope)
    (fresh : Nat → String × Int64) :
    ∃ n, (p.dispatchRound codec fresh env).1.conflictQueue.rows = p.conflictQueue.rows ++
        (if anchorRefusal env p.heroGetAnchorInstance = none then
          queueRows codec fresh (p.db.detectConflicts env.push) else []).take n ∧
      (p.DrawsFresh fresh → (p.db.detectConflicts env.push).length ≤ n) := by
  unfold dispatchRound
  cases hrefusal : anchorRefusal env p.heroGetAnchorInstance with
  | some refusal =>
    refine ⟨(p.db.detectConflicts env.push).length, ?_, fun _ => le_rfl⟩
    simp only [reduceCtorEq, if_false, List.take_nil, List.append_nil]
  | none =>
    obtain ⟨n, hrows, hall⟩ := rows_enqueueAll codec fresh p (p.db.detectConflicts env.push)
    refine ⟨n, ?_, fun h => hall (enqueueAll_of_drawsFresh h)⟩
    have queue : (p.merged codec fresh env.push).conflictQueue =
        (enqueueAll codec fresh p (p.db.detectConflicts env.push)).1.conflictQueue := merged_rest.1
    simp only [if_true, ← hrows, ← queue]
    unfold merged
    cases p.applyWithConflictDetection codec fresh env.push with
    | mk q answer => cases answer <;> rfl

/-- The rows a round appends. -/
theorem drop_rows_dispatchRound (codec : JsonCodec) (p : Porch) (env : HeroSyncEnvelope)
    (fresh : Nat → String × Int64) (processed : anchorRefusal env p.heroGetAnchorInstance = none) :
    ∃ n, (p.dispatchRound codec fresh env).1.conflictQueue.rows.drop p.conflictQueue.rows.length =
        (queueRows codec fresh ((p.db.labelledConflicts env.push).map Prod.snd)).take n ∧
      (p.DrawsFresh fresh → (p.db.labelledConflicts env.push).length ≤ n) := by
  obtain ⟨n, hrows, hall⟩ := rows_dispatchRound codec p env fresh
  rw [if_pos processed] at hrows
  refine ⟨n, ?_, fun h => ?_⟩
  · rw [hrows, List.drop_left, Database.labelledConflicts_snd]
  · have := hall h
    rwa [← Database.labelledConflicts_snd, List.length_map] at this

/-- Under fresh ids every presented pair is queued. -/
theorem queuedAt_eq (p : Porch) (e : DeviceEvent)
    (fresh : ∀ env fresh, e = .respond env fresh → p.DrawsFresh fresh) :
    (p.queuedAt codec e).map Prod.fst = p.presentedAt e := by
  apply List.map_fst_zip
  cases e with
  | respond env draw =>
    simp only [presentedAt, deviceStep]
    by_cases processed : anchorRefusal env p.heroGetAnchorInstance = none
    · obtain ⟨n, hdrop, hall⟩ := drop_rows_dispatchRound codec p env draw processed
      have enough := hall (fresh env draw rfl)
      rw [if_pos processed, hdrop, ← Database.labelledConflicts_fst, List.length_map,
        List.length_take, length_queueRows, List.length_map]
      omega
    · rw [if_neg processed]
      exact Nat.zero_le _
  | _ => exact Nat.zero_le _

theorem length_contributed (p : Porch) (events : List DeviceEvent) (pair : ConflictPair) :
    (p.contributed codec events pair).length =
      ((Machine.gather (deviceStep codec) (queuedAt codec) p events).map Prod.fst).count pair := by
  rw [contributed, List.length_map, List.count, List.countP_map, List.countP_eq_length_filter]
  rfl

/-- **Detection is not idempotent.** Along every run of rounds, writes and settlements, each
pair gives at most one queue row, and none after its conflict is resolved, exactly when no pair
is presented a second time. -/
theorem contributesOnce_iff {events : List DeviceEvent} (fresh : p.DrawsFreshAlong codec events) :
    p.ContributesOnce codec events ↔
      (Machine.gather (deviceStep codec) presentedAt p events).Nodup := by
  have queued : (Machine.gather (deviceStep codec) (queuedAt codec) p events).map Prod.fst =
      Machine.gather (deviceStep codec) presentedAt p events :=
    Machine.map_gather_eq queuedAt_eq fresh
  have once : (∀ pair, (p.contributed codec events pair).length ≤ 1) ↔
      (Machine.gather (deviceStep codec) presentedAt p events).Nodup := by
    rw [List.nodup_iff_count_le_one, ← queued]
    exact forall_congr' fun pair => by rw [length_contributed]
  rw [← once]
  refine ⟨fun h pair => (h pair).1, fun h pair => ⟨h pair, ?_⟩⟩
  rintro before later rfl row hrow -
  have split : p.contributed codec (before ++ later) pair = p.contributed codec before pair ++
      (Machine.run (deviceStep codec) p before).contributed codec later pair := by
    simp only [contributed, Machine.gather_append, List.filter_append, List.map_append]
  have total := h pair
  rw [split, List.length_append] at total
  have first : 0 < (p.contributed codec before pair).length := List.length_pos_of_mem hrow
  exact List.length_eq_zero_iff.mp (by omega)

end Porch

/-- What the user decides about the contested access. -/
def userVerdict : Verdict := ⟨.pickA, "keep the member", "1.0"⟩

/-- The codec that reads it back. -/
def userCodec : JsonCodec := codecOf userVerdict.toJson

/-- Ids and times of the conflicts a later round queues. -/
def laterArgs (n : Nat) : String × Int64 := (String.ofList (List.replicate (n + 1) 'd'), 6)

/-- A first round between the two devices that granted one access. -/
def firstRound : Porch.HeroRound :=
  (contestedGrants.porch false).runHeroSyncRound userCodec conflictArgs contestedPorch

/-- What the responder sees: the round, its user settling the conflict, and the next round. -/
def settledThenAgain : List DeviceEvent :=
  [.respond (contestedGrants.porch false).heroEnvelope conflictArgs,
    .manualResolve "" (renderJson userVerdict.toJson) 5,
    .respond firstRound.initiator.heroEnvelope laterArgs]

/-- The two grants as a pair. -/
def contestedPair : ConflictPair := pairOf grantedMember grantedOwner

private theorem conflictArgs_injective : Function.Injective fun n => (conflictArgs n).1 := by
  intro m n h
  have lists : List.replicate m 'c' = List.replicate n 'c' := String.ofList_injective h
  simpa only [List.length_replicate] using congrArg List.length lists

set_option maxRecDepth 1000 in
theorem Porch.contributesOnce_iff_contested :
    contestedPorch.ContributesOnce userCodec
        [.respond (contestedGrants.porch false).heroEnvelope conflictArgs] ↔
      (Machine.gather (Porch.deviceStep userCodec) Porch.presentedAt contestedPorch
        [.respond (contestedGrants.porch false).heroEnvelope conflictArgs]).Nodup := by
  refine Porch.contributesOnce_iff ⟨fun env fresh h => ?_, trivial⟩
  cases h
  have empty : contestedPorch.conflictQueue.rows = [] := by decide
  refine ⟨conflictArgs_injective, fun n => KeyedTable.find?_eq_none_iff.mpr fun row hrow => ?_⟩
  rw [empty] at hrow
  cases hrow

set_option maxRecDepth 1000 in
/-- The responder queues the same two grants again in the next round, although its user has
settled their conflict. -/
theorem Porch.settled_conflict_queued_again :
    contestedGrants.Reachable pairPeer ∧
    firstRound.responder.db = contestedPorch.db ∧
    ((Machine.run (Porch.deviceStep userCodec) contestedPorch
        settledThenAgain).conflictQueue.rows.map
      fun row => (row.conflictId, row.status)) = [("", .resolved), ("d", .pending)] ∧
    (contestedPorch.contributed userCodec settledThenAgain contestedPair).length = 2 ∧
    ¬ contestedPorch.ContributesOnce userCodec settledThenAgain := by
  have twice :
      (contestedPorch.contributed userCodec settledThenAgain contestedPair).length = 2 := by
    decide
  refine ⟨reachable_pairAfter _ _, ?_, by decide, twice, fun h => ?_⟩
  · apply Database.ext
    funext t
    apply KeyedTable.ext
    cases t <;> decide
  · have once := (h contestedPair).1
    omega

end Concorrd
