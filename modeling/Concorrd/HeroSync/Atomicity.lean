import Concorrd.HeroSync.HandOff
import Concorrd.Sync.Wedge

/-!
# Rounds that fail

A round is a lookup for every incoming row, an insertion into the queue for every conflict, the
batch, and the collection of the answer. Only the batch is a transaction. `respond` is the round
under faults: any of these may fail. `ErrorAtomic` says that a round that is not answered as one
leaves the porch as it was, and that conflicts are queued where the merge was made and only there.
It holds exactly when nothing fails after a conflict is queued, nor after a merge that wrote.
-/

namespace Concorrd

/-- A statement before the merge: the lookup of a local row, or the insertion of a conflict. -/
inductive DetectorStatement where
  | lookup
  | insert (record : ConflictRecord)

/-- The conflict a statement inserts. -/
def DetectorStatement.record? : DetectorStatement → Option ConflictRecord
  | lookup => none
  | insert record => some record

/-- What fails in a round: reading the anchor, which is taken for none; a statement of the
detector, by its number; the batch; the collection of the answer. -/
structure RoundFaults where
  anchor : Bool
  statement : Nat → Option PorchError
  batch : Option PorchError
  collect : Option PorchError

/-- Nothing fails. -/
def RoundFaults.none : RoundFaults := ⟨false, fun _ => .none, .none, .none⟩

/-- The statements of the detector, in order. -/
def Database.detectorStatements (db : Database) (delta : SyncDelta) : List DetectorStatement :=
  (delta.channels.flatMap fun incoming => .lookup ::
    ((db.find? .porchChannels incoming.key).elim [] fun loc =>
      (channelConflicts loc incoming).map .insert)) ++
  delta.acl.flatMap fun incoming => .lookup ::
    ((db.find? .channelAcl incoming.key).elim [] fun loc =>
      (aclConflicts loc incoming).map .insert)

/-- The porch after a round, what the round is answered with, and whether its batch committed. -/
structure RoundRun where
  porch : Porch
  response : HeroSyncResponse
  merged : Bool

namespace Porch

variable (codec : JsonCodec)

/-- Run the statements of the detector until one fails. -/
def runDetector : (Nat → Option PorchError) → (Nat → String × Int64) → Porch →
    List DetectorStatement → Porch × Except PorchError Unit
  | _, _, p, [] => (p, .ok ())
  | fault, fresh, p, .lookup :: rest =>
    match fault 0 with
    | some e => (p, .error e)
    | none => runDetector (fun n => fault (n + 1)) fresh p rest
  | fault, fresh, p, .insert record :: rest =>
    match fault 0 with
    | some e => (p, .error e)
    | none =>
      match p.enqueue codec record (fresh 0).1 (fresh 0).2 with
      | .error e => (p, .error e)
      | .ok p => runDetector (fun n => fault (n + 1)) (fun n => fresh (n + 1)) p rest

/-- Answer a round under faults. -/
def respond (p : Porch) (fresh : Nat → String × Int64) (faults : RoundFaults)
    (env : HeroSyncEnvelope) : RoundRun :=
  let localAnchor := if faults.anchor then none else p.heroGetAnchorInstance
  let failed (p : Porch) (e : PorchError) (merged : Bool) : RoundRun :=
    ⟨p, .error e.statusCode e.toString, merged⟩
  match anchorRefusal env localAnchor with
  | some refusal => ⟨p, refusal, false⟩
  | none =>
    match runDetector codec faults.statement fresh p (p.db.detectorStatements env.push) with
    | (queued, .error e) => failed queued e false
    | (queued, .ok ()) =>
      match faults.batch with
      | some e => failed queued e false
      | none =>
        match queued.applySyncBatch env.push with
        | .error e => failed queued e false
        | .ok (merged, _) =>
          match faults.collect with
          | some e => failed merged e true
          | none => ⟨merged, .round (merged.db.collectDelta env.since)
            (p.db.detectConflicts env.push).length, true⟩

variable (p : Porch) (fresh : Nat → String × Int64) (faults : RoundFaults) (env : HeroSyncEnvelope)

/-- A round that is not answered as one leaves the tables and the queue as they were, and the
conflicts of the push are queued where the batch committed and only there. -/
structure ErrorAtomic : Prop where
  refused : (p.respond codec fresh faults env).response.isRound = false →
    (p.respond codec fresh faults env).porch.db = p.db ∧
      (p.respond codec fresh faults env).porch.conflictQueue = p.conflictQueue
  recorded : (p.respond codec fresh faults env).porch.conflictQueue.rows =
    p.conflictQueue.rows ++ if (p.respond codec fresh faults env).merged then
      queueRows codec fresh (p.db.detectConflicts env.push) else []

/-- How many conflicts are inserted before the first statement that fails, if one does. An
insertion fails by itself where its id is taken. -/
def interruption : (Nat → Option PorchError) → (Nat → String × Int64) → List String →
    List DetectorStatement → Option Nat
  | _, _, _, [] => none
  | fault, fresh, taken, .lookup :: rest =>
    if (fault 0).isSome then some 0 else interruption (fun n => fault (n + 1)) fresh taken rest
  | fault, fresh, taken, .insert _ :: rest =>
    if (fault 0).isSome ∨ (fresh 0).1 ∈ taken then some 0
    else (interruption (fun n => fault (n + 1)) (fun n => fresh (n + 1))
      ((fresh 0).1 :: taken) rest).map (· + 1)

/-- The round is refused; or its first failing statement comes before every conflict; or no
statement fails, and if a conflict is queued the push fits and nothing later fails either, and if
none is, the collection does not fail after a merge that wrote a row. -/
def FailsCleanly : Prop :=
  (anchorRefusal env (if faults.anchor then none else p.heroGetAnchorInstance)).isSome = true ∨
  match interruption faults.statement fresh (p.conflictQueue.rows.map ConflictRow.conflictId)
    (p.db.detectorStatements env.push) with
  | some n => n = 0
  | none =>
    if p.db.detectConflicts env.push = [] then
      faults.collect = none ∨ faults.batch.isSome = true ∨
        ¬ Database.Fits p.tables.view env.push.all ∨ ∀ x ∈ env.push.all, p.db.HoldsStamp x
    else
      faults.collect = none ∧ faults.batch = none ∧ Database.Fits p.tables.view env.push.all

/-! ## The detector -/

section Detector

variable {p : Porch} {fresh : Nat → String × Int64} {fault : Nat → Option PorchError}
  {taken : List String} {stmts : List DetectorStatement} {n : Nat}

/-- The detector touches nothing but the queue. -/
theorem runDetector_rest : (runDetector codec fault fresh p stmts).1 =
    { p with conflictQueue := (runDetector codec fault fresh p stmts).1.conflictQueue } := by
  induction stmts generalizing fault fresh p with
  | nil => rfl
  | cons stmt rest ih =>
    cases hfault : fault 0 with
    | some e => cases stmt <;> simp only [runDetector, hfault]
    | none =>
      cases stmt with
      | lookup =>
        simp only [runDetector, hfault]
        exact ih
      | insert record =>
        simp only [runDetector, hfault, enqueue]
        cases p.conflictQueue.insert? _ with
        | none => rfl
        | some queue => exact ih

/-- An insertion succeeds exactly when its id is free, and appends its row. -/
theorem enqueue_cases (p : Porch) (record : ConflictRecord) (id : String)
    (now : Int64) :
    (id ∈ p.conflictQueue.rows.map ConflictRow.conflictId ∧
        ∃ e, p.enqueue codec record id now = .error e) ∨
      (id ∉ p.conflictQueue.rows.map ConflictRow.conflictId ∧
        ∃ q, p.enqueue codec record id now = .ok q ∧ q.conflictQueue.rows = p.conflictQueue.rows ++
          queueRows codec (fun _ => (id, now)) [record]) := by
  unfold enqueue
  cases hinsert : p.conflictQueue.insert? ⟨id, record.kind.asStr, codec.toString record.payload,
      now, none, none, .pending⟩ with
  | none =>
    obtain ⟨s, hs⟩ := KeyedTable.insert?_eq_none_iff.mp hinsert
    obtain ⟨hmem, hkey⟩ := KeyedTable.find?_eq_some_iff.mp hs
    exact .inl ⟨List.mem_map.mpr ⟨s, hmem, hkey⟩, _, rfl⟩
  | some queue =>
    obtain ⟨hfree, hrows⟩ := KeyedTable.insert?_eq_some_iff.mp hinsert
    refine .inr ⟨fun hmem => ?_, _, rfl, hrows⟩
    obtain ⟨s, hs, hkey⟩ := List.mem_map.mp hmem
    cases hfree.symm.trans (KeyedTable.find?_eq_some_iff.mpr ⟨hs, hkey⟩)

/-- Where no statement fails, every conflict is queued. -/
theorem runDetector_of_none
    (htaken : ∀ id, id ∈ taken ↔ id ∈ p.conflictQueue.rows.map ConflictRow.conflictId)
    (h : interruption fault fresh taken stmts = none) :
    (runDetector codec fault fresh p stmts).2 = .ok () ∧
      (runDetector codec fault fresh p stmts).1.conflictQueue.rows = p.conflictQueue.rows ++
        queueRows codec fresh (stmts.filterMap DetectorStatement.record?) := by
  induction stmts generalizing fault fresh p taken with
  | nil => exact ⟨rfl, (List.append_nil _).symm⟩
  | cons stmt rest ih =>
    cases hfault : fault 0 with
    | some e =>
      cases stmt <;> simp only [interruption, hfault, Option.isSome_some, if_true, true_or,
        reduceCtorEq] at h
    | none =>
      cases stmt with
      | lookup =>
        simp only [interruption, hfault, Option.isSome_none, Bool.false_eq_true, if_false] at h
        simp only [runDetector, hfault]
        exact ih htaken h
      | insert record =>
        simp only [interruption, hfault, Option.isSome_none, Bool.false_eq_true, false_or,
          htaken] at h
        rcases enqueue_cases codec p record (fresh 0).1 (fresh 0).2 with
          ⟨hmem, _⟩ | ⟨hmem, q, hq, hrows⟩
        · simp only [if_pos hmem, reduceCtorEq] at h
        · simp only [if_neg hmem, Option.map_eq_none_iff] at h
          have later : ∀ id, id ∈ (fresh 0).1 :: taken ↔
              id ∈ q.conflictQueue.rows.map ConflictRow.conflictId := fun id => by
            rw [hrows, List.map_append, List.mem_append, List.mem_cons, htaken, or_comm]
            exact or_congr_right List.mem_singleton.symm
          obtain ⟨hok, hqueue⟩ := ih later h
          simp only [runDetector, hfault, hq]
          refine ⟨hok, ?_⟩
          rw [hqueue, hrows, List.append_assoc]
          rfl

/-- Where a statement fails, the conflicts before it are queued and the others are not. -/
theorem runDetector_of_some
    (htaken : ∀ id, id ∈ taken ↔ id ∈ p.conflictQueue.rows.map ConflictRow.conflictId)
    (h : interruption fault fresh taken stmts = some n) :
    (∃ e, (runDetector codec fault fresh p stmts).2 = .error e) ∧
      n ≤ (stmts.filterMap DetectorStatement.record?).length ∧
      (runDetector codec fault fresh p stmts).1.conflictQueue.rows = p.conflictQueue.rows ++
        (queueRows codec fresh (stmts.filterMap DetectorStatement.record?)).take n := by
  induction stmts generalizing fault fresh p taken n with
  | nil => cases h
  | cons stmt rest ih =>
    cases hfault : fault 0 with
    | some e =>
      have hn : n = 0 := by
        cases stmt <;>
          simpa only [interruption, hfault, Option.isSome_some, if_true, true_or, Option.some.injEq,
            eq_comm] using h
      subst hn
      cases stmt <;> simp only [runDetector, hfault, List.take_zero, List.append_nil, Nat.zero_le,
        and_true] <;> exact ⟨e, rfl⟩
    | none =>
      cases stmt with
      | lookup =>
        simp only [interruption, hfault, Option.isSome_none, Bool.false_eq_true, if_false] at h
        simp only [runDetector, hfault]
        exact ih htaken h
      | insert record =>
        simp only [interruption, hfault, Option.isSome_none, Bool.false_eq_true, false_or,
          htaken] at h
        rcases enqueue_cases codec p record (fresh 0).1 (fresh 0).2 with
          ⟨hmem, e, he⟩ | ⟨hmem, q, hq, hrows⟩
        · simp only [if_pos hmem, Option.some.injEq] at h
          subst h
          simp only [runDetector, hfault, he, List.take_zero, List.append_nil, Nat.zero_le,
            and_true]
          exact ⟨e, rfl⟩
        · simp only [if_neg hmem, Option.map_eq_some_iff] at h
          obtain ⟨m, hm, rfl⟩ := h
          have later : ∀ id, id ∈ (fresh 0).1 :: taken ↔
              id ∈ q.conflictQueue.rows.map ConflictRow.conflictId := fun id => by
            rw [hrows, List.map_append, List.mem_append, List.mem_cons, htaken, or_comm]
            exact or_congr_right List.mem_singleton.symm
          obtain ⟨herror, hle, hqueue⟩ := ih later hm
          simp only [runDetector, hfault, hq]
          refine ⟨herror, Nat.succ_le_succ hle, ?_⟩
          rw [hqueue, hrows, List.append_assoc]
          rfl

end Detector

/-! ## The round -/

/-- The statements of the detector insert the conflicts of the delta. -/
theorem filterMap_detectorStatements (db : Database) (delta : SyncDelta) :
    (db.detectorStatements delta).filterMap DetectorStatement.record? =
      db.detectConflicts delta := by
  have inserts : ∀ records : List ConflictRecord,
      (records.map DetectorStatement.insert).filterMap DetectorStatement.record? = records :=
    fun records => by
      rw [List.filterMap_map]
      exact List.filterMap_some
  have lookups : ∀ {α : Type} (row : Option α) (conflicts : α → List ConflictRecord),
      (DetectorStatement.lookup :: row.elim [] fun loc =>
        (conflicts loc).map .insert).filterMap DetectorStatement.record? =
        row.elim [] conflicts := fun row conflicts => by
    rw [List.filterMap_cons_none rfl]
    cases row with
    | none => rfl
    | some loc => exact inserts _
  simp only [Database.detectorStatements, Database.detectConflicts, List.filterMap_append,
    List.filterMap_flatMap, lookups]

variable {codec} {p : Porch} {fresh : Nat → String × Int64} {faults : RoundFaults}
  {env : HeroSyncEnvelope}

/-- Without faults the detector is the queueing of the conflicts. -/
theorem runDetector_eq_enqueueAll (p : Porch) (fresh : Nat → String × Int64)
    (stmts : List DetectorStatement) :
    runDetector codec (fun _ => none) fresh p stmts =
      enqueueAll codec fresh p (stmts.filterMap DetectorStatement.record?) := by
  induction stmts generalizing p fresh with
  | nil => rfl
  | cons stmt rest ih =>
    cases stmt with
    | lookup => exact ih p fresh
    | insert record =>
      simp only [runDetector, List.filterMap_cons, DetectorStatement.record?, enqueueAll]
      cases p.enqueue codec record (fresh 0).1 (fresh 0).2 with
      | error e => rfl
      | ok q => exact ih q _

/-- Without faults the round is the round of the handler. -/
theorem respond_none : ((p.respond codec fresh .none env).porch,
    (p.respond codec fresh .none env).response) = p.dispatchRound codec fresh env := by
  simp only [respond, dispatchRound, applyWithConflictDetection, RoundFaults.none,
    Bool.false_eq_true, if_false, runDetector_eq_enqueueAll, filterMap_detectorStatements]
  cases anchorRefusal env p.heroGetAnchorInstance with
  | some refusal => rfl
  | none =>
    dsimp only
    obtain ⟨q, answer⟩ := enqueueAll codec fresh p (p.db.detectConflicts env.push)
    cases answer with
    | error e => rfl
    | ok _ =>
      dsimp only
      cases q.applySyncBatch env.push <;> rfl

/-- Where the detector is interrupted, the round is refused after the first conflicts. -/
theorem respond_of_interruption {n : Nat}
    (proceeds : anchorRefusal env (if faults.anchor then none else p.heroGetAnchorInstance) = none)
    (h : interruption faults.statement fresh (p.conflictQueue.rows.map ConflictRow.conflictId)
      (p.db.detectorStatements env.push) = some n) :
    (p.respond codec fresh faults env).response.isRound = false ∧
      (p.respond codec fresh faults env).merged = false ∧
      n ≤ (p.db.detectConflicts env.push).length ∧
      (p.respond codec fresh faults env).porch = { p with
        conflictQueue := (p.respond codec fresh faults env).porch.conflictQueue } ∧
      (p.respond codec fresh faults env).porch.conflictQueue.rows = p.conflictQueue.rows ++
        (queueRows codec fresh (p.db.detectConflicts env.push)).take n := by
  obtain ⟨⟨e, he⟩, hle, hrows⟩ := runDetector_of_some codec (fun _ => Iff.rfl) h
  rw [filterMap_detectorStatements] at hle hrows
  have rest : (runDetector codec faults.statement fresh p (p.db.detectorStatements env.push)).1 =
      { p with conflictQueue := _ } := runDetector_rest codec
  have run : p.respond codec fresh faults env = ⟨(runDetector codec faults.statement fresh p
      (p.db.detectorStatements env.push)).1, .error e.statusCode e.toString, false⟩ := by
    simp only [respond, proceeds]
    rw [show runDetector codec faults.statement fresh p (p.db.detectorStatements env.push) =
      (_, .error e) from Prod.ext rfl he]
  rw [run]
  exact ⟨rfl, rfl, hle, rest, hrows⟩

/-- Where no statement of the detector fails, every conflict is queued before the batch. -/
theorem respond_of_no_interruption
    (proceeds : anchorRefusal env (if faults.anchor then none else p.heroGetAnchorInstance) = none)
    (h : interruption faults.statement fresh (p.conflictQueue.rows.map ConflictRow.conflictId)
      (p.db.detectorStatements env.push) = none) :
    ∃ queue : KeyedTable ConflictRow.conflictId,
      queue.rows = p.conflictQueue.rows ++ queueRows codec fresh (p.db.detectConflicts env.push) ∧
      p.respond codec fresh faults env =
        match faults.batch, p.db.applySyncBatch env.push, faults.collect with
        | some e, _, _ => ⟨{ p with conflictQueue := queue }, .error e.statusCode e.toString, false⟩
        | none, .error e, _ =>
          ⟨{ p with conflictQueue := queue }, .error e.statusCode e.toString, false⟩
        | none, .ok (db, _), some e =>
          ⟨{ p with conflictQueue := queue, db := db }, .error e.statusCode e.toString, true⟩
        | none, .ok (db, _), none =>
          ⟨{ p with conflictQueue := queue, db := db }, .round (db.collectDelta env.since)
            (p.db.detectConflicts env.push).length, true⟩ := by
  obtain ⟨hok, hrows⟩ := runDetector_of_none codec (fun _ => Iff.rfl) h
  rw [filterMap_detectorStatements] at hrows
  have rest : (runDetector codec faults.statement fresh p (p.db.detectorStatements env.push)).1 =
      { p with conflictQueue := _ } := runDetector_rest codec
  refine ⟨_, hrows, ?_⟩
  simp only [respond, proceeds]
  rw [show runDetector codec faults.statement fresh p (p.db.detectorStatements env.push) =
    (_, .ok ()) from Prod.ext rest hok]
  cases faults.batch with
  | some e => rfl
  | none =>
    simp only [applySyncBatch]
    cases p.db.applySyncBatch env.push with
    | error e => rfl
    | ok out => cases faults.collect <;> rfl

/-- Once every conflict is queued, a refusal leaves nothing behind where the database is the one
before and there was no conflict. -/
theorem errorAtomic_of_error_iff {queue : KeyedTable ConflictRow.conflictId} {db : Database}
    {code : Int} {message : String} {merged : Bool}
    (hqueue : queue.rows =
      p.conflictQueue.rows ++ queueRows codec fresh (p.db.detectConflicts env.push))
    (run : p.respond codec fresh faults env =
      ⟨{ p with conflictQueue := queue, db := db }, .error code message, merged⟩) :
    p.ErrorAtomic codec fresh faults env ↔ db = p.db ∧ p.db.detectConflicts env.push = [] := by
  constructor
  · intro h
    have same := h.refused
    rw [run] at same
    obtain ⟨hdb, hkept⟩ := same rfl
    have none : queueRows codec fresh (p.db.detectConflicts env.push) = [] := by
      rwa [show queue = p.conflictQueue from hkept, List.self_eq_append_right] at hqueue
    refine ⟨hdb, List.length_eq_zero_iff.mp ?_⟩
    rw [← length_queueRows, none, List.length_nil]
  · rintro ⟨rfl, hnone⟩
    rw [hnone] at hqueue
    have kept : queue = p.conflictQueue := KeyedTable.ext (hqueue.trans (List.append_nil _))
    constructor
    · intro _
      rw [run]
      exact ⟨rfl, kept⟩
    · rw [run, hnone]
      exact hqueue.trans (by rw [queueRows, ite_self])

/-- Where no statement of the detector fails, what matters is what fails after it. -/
theorem errorAtomic_of_no_interruption_iff
    (proceeds : anchorRefusal env (if faults.anchor then none else p.heroGetAnchorInstance) = none)
    (h : interruption faults.statement fresh (p.conflictQueue.rows.map ConflictRow.conflictId)
      (p.db.detectorStatements env.push) = none) :
    p.ErrorAtomic codec fresh faults env ↔
      if p.db.detectConflicts env.push = [] then
        faults.collect = none ∨ faults.batch.isSome = true ∨
          ¬ Database.Fits p.tables.view env.push.all ∨ ∀ x ∈ env.push.all, p.db.HoldsStamp x
      else
        faults.collect = none ∧ faults.batch = none ∧
          Database.Fits p.tables.view env.push.all := by
  obtain ⟨queue, hqueue, run⟩ := @respond_of_no_interruption codec _ _ _ _ proceeds h
  have fits : (∃ out, p.db.applySyncBatch env.push = .ok out) ↔
      Database.Fits p.db.tables.view env.push.all := Database.exists_applySyncBatch_iff
  cases hbatch : faults.batch with
  | some e =>
    simp only [hbatch] at run
    rw [errorAtomic_of_error_iff hqueue run]
    by_cases hnone : p.db.detectConflicts env.push = []
    · simp only [hnone, if_true, Option.isSome_some, true_or, or_true, and_self]
    · simp only [hnone, and_false, if_false, reduceCtorEq, false_and]
  | none =>
    cases happly : p.db.applySyncBatch env.push with
    | error e =>
      simp only [hbatch, happly] at run
      have refused : ¬ Database.Fits p.tables.view env.push.all := by
        rw [tables, ← fits, happly]
        rintro ⟨out, h⟩
        cases h
      rw [errorAtomic_of_error_iff hqueue run]
      by_cases hnone : p.db.detectConflicts env.push = []
      · simp only [hnone, if_true, refused, not_false_eq_true, true_or, or_true, and_self]
      · simp only [hnone, and_false, if_false, refused]
    | ok out =>
      obtain ⟨db, counts⟩ := out
      have applies : Database.Fits p.tables.view env.push.all := fits.mp ⟨_, happly⟩
      have moved := (Database.appliedBatch happly).eq_self_iff
      cases hcollect : faults.collect with
      | some e =>
        simp only [hbatch, happly, hcollect] at run
        rw [errorAtomic_of_error_iff hqueue run, moved]
        by_cases hnone : p.db.detectConflicts env.push = []
        · simp only [hnone, and_true, if_true, reduceCtorEq, Option.isSome_none,
            Bool.false_eq_true, applies, not_true_eq_false, false_or]
        · simp only [hnone, and_false, if_false, reduceCtorEq, false_and]
      | none =>
        simp only [hbatch, happly, hcollect] at run
        refine iff_of_true ⟨?_, ?_⟩ ?_
        · intro hround
          rw [run] at hround
          cases hround
        · rw [run]
          exact hqueue
        · simp only [applies, true_or, and_self, ite_self]

/-- **When a failed round leaves nothing behind.** A round that is not answered as one leaves the
tables and the queue as they were, and conflicts are queued exactly where the merge was made,
where and only where the round fails cleanly. -/
theorem errorAtomic_iff (codec : JsonCodec) (p : Porch) (fresh : Nat → String × Int64)
    (faults : RoundFaults) (env : HeroSyncEnvelope) :
    p.ErrorAtomic codec fresh faults env ↔ p.FailsCleanly fresh faults env := by
  unfold FailsCleanly
  cases hanchor : anchorRefusal env (if faults.anchor then none else p.heroGetAnchorInstance) with
  | some refusal =>
    refine iff_of_true ?_ (.inl rfl)
    have run : p.respond codec fresh faults env = ⟨p, refusal, false⟩ := by
      simp only [respond, hanchor]
    constructor
    · intro _
      rw [run]
      exact ⟨rfl, rfl⟩
    · rw [run]
      exact (List.append_nil _).symm
  | none =>
    simp only [Option.isSome_none, Bool.false_eq_true, false_or]
    cases hrun : interruption faults.statement fresh
      (p.conflictQueue.rows.map ConflictRow.conflictId) (p.db.detectorStatements env.push) with
    | some n =>
      obtain ⟨hround, hmerged, hle, hrest, hrows⟩ := @respond_of_interruption codec _ _ _ _ _
        hanchor hrun
      dsimp only
      constructor
      · intro h
        have kept := h.recorded
        rw [hrows, hmerged, List.append_cancel_left_eq, if_neg Bool.false_ne_true,
          ← List.length_eq_zero_iff, List.length_take, length_queueRows] at kept
        omega
      · rintro rfl
        rw [List.take_zero, List.append_nil] at hrows
        refine ⟨fun _ => ⟨?_, KeyedTable.ext hrows⟩, ?_⟩
        · rw [hrest]
        · rw [hrows, hmerged, if_neg Bool.false_ne_true, List.append_nil]
    | none =>
      dsimp only
      exact errorAtomic_of_no_interruption_iff hanchor hrun

end Porch

/-! ## A push that is refused after its conflict is queued -/

/-- Both devices grant one access, and one visitor knocks at both, before they meet. -/
def contestedKnocks : Network Bool :=
  pairAfter (fun _ => .none)
    [.write false (.grantAcl "porch-default" "visitor" .owner 2),
      .write true (.grantAcl "porch-default" "visitor" .member 3),
      .write false (.knock "porch-default" "knocker" .none "knock-a" 4),
      .write true (.knock "porch-default" "knocker" .none "knock-b" 5)]

set_option maxRecDepth 1000 in
/-- The second device queues the conflict of the grants and refuses the push for the knocks. -/
theorem refused_after_queueing : contestedKnocks.Reachable pairPeer ∧
    ¬ (contestedKnocks.porch true).ErrorAtomic contestedCodec conflictArgs .none
      (contestedKnocks.porch false).heroEnvelope := by
  refine ⟨reachable_pairAfter _ _, fun h => ?_⟩
  have kept := (h.refused (by decide)).2
  have queued : ((contestedKnocks.porch true).respond contestedCodec conflictArgs .none
      (contestedKnocks.porch false).heroEnvelope).porch.conflictQueue.rows.length = 1 := by
    decide
  rw [kept] at queued
  exact absurd queued (by decide)

end Concorrd
