import Mathlib.Data.List.Sort
import Concorrd.Porch.State

/-!
# The tables of the conflict agent

The statements the conflict agent runs on `conflict_queue` and `conflict_attempts`. Each is
one call of the porch and commits by itself.
-/

namespace Concorrd

namespace Porch

/-- The conflicts that are not resolved, in the order they were queued. -/
def conflictQueueListUnresolved (p : Porch) : List ConflictRow :=
  (p.conflictQueue.rows.filter fun r => r.resolvedAt.isNone).insertionSort
    fun a b => a.queuedAt ≤ b.queuedAt

/-- The attempts of a conflict in start order. -/
def conflictQueueGetAttempts (p : Porch) (conflictId : String) : List AgentAttempt :=
  (p.conflictAttempts.rows.filter fun a => a.conflictId = conflictId).insertionSort
    fun a b => a.startedAt ≤ b.startedAt

/-- Insert an attempt in the running state. -/
def conflictAttemptsInsertRunning (p : Porch) (attemptId conflictId : String) (startedAt : Int64) :
    Except PorchError Porch :=
  match p.conflictAttempts.insert?
      ⟨attemptId, conflictId, startedAt, none, .running, none, none⟩ with
  | none => .error (.sqlite (.unique "conflict_attempts.attempt_id"))
  | some attempts =>
    if p.conflictQueue.HasKey conflictId then .ok { p with conflictAttempts := attempts }
    else .error (.sqlite .foreignKey)

/-- `UPDATE conflict_attempts SET … WHERE attempt_id = …`. No statement moves an attempt to
another conflict. -/
def updateAttempt (p : Porch) (attemptId : String) (set : AgentAttempt → AgentAttempt)
    (hset : ∀ a, (set a).attemptId = a.attemptId) : Porch :=
  { p with
    conflictAttempts := p.conflictAttempts.updateWhere (fun a => a.attemptId = attemptId) set hset }

/-- `UPDATE conflict_queue SET … WHERE …` -/
def updateConflicts (p : Porch) (selects : ConflictRow → Bool) (set : ConflictRow → ConflictRow)
    (hset : ∀ r, (set r).conflictId = r.conflictId) : Porch :=
  { p with conflictQueue := p.conflictQueue.updateWhere selects set hset }

/-- `SET` list of a heartbeat. -/
def snapshotSet (contextBlob : String) (partialVerdictJson : Option String) (a : AgentAttempt) :
    AgentAttempt :=
  { a with partialContextBlob := some contextBlob, partialVerdictJson := partialVerdictJson }

/-- A heartbeat of a running resolver replaces the attempt's snapshot. -/
def snapshot (p : Porch) (attemptId contextBlob : String) (partialVerdictJson : Option String) :
    Porch :=
  p.updateAttempt attemptId (snapshotSet contextBlob partialVerdictJson) fun _ => rfl

/-- `SET` list of a finalize. A snapshot or a verdict that is not given stays. -/
def finalizeSet (state : AttemptState) (endedAt : Int64)
    (partialContextBlob partialVerdictJson : Option String) (a : AgentAttempt) : AgentAttempt :=
  { a with
    state := state
    endedAt := some endedAt
    partialContextBlob := partialContextBlob.or a.partialContextBlob
    partialVerdictJson := partialVerdictJson.or a.partialVerdictJson }

/-- Set the final state of an attempt. -/
def conflictAttemptsFinalize (p : Porch) (attemptId : String) (state : AttemptState)
    (endedAt : Int64) (partialContextBlob partialVerdictJson : Option String) : Porch :=
  p.updateAttempt attemptId (finalizeSet state endedAt partialContextBlob partialVerdictJson)
    fun _ => rfl

/-- The latest snapshot of an attempt. -/
def conflictAttemptsGetSnapshot (p : Porch) (attemptId : String) : Option String :=
  (p.conflictAttempts.find? attemptId).bind AgentAttempt.partialContextBlob

/-- `SET` list of a verdict. -/
def verdictSet (verdictJson : String) (now : Int64) (r : ConflictRow) : ConflictRow :=
  { r with status := .resolved, resolvedAt := some now, finalVerdictJson := some verdictJson }

theorem conflictId_verdictSet (verdictJson : String) (now : Int64) (r : ConflictRow) :
    (verdictSet verdictJson now r).conflictId = r.conflictId := rfl

/-- Flip a conflict to resolved and record the verdict. -/
def conflictQueueMarkResolved (p : Porch) (conflictId verdictJson : String) (now : Int64) : Porch :=
  p.updateConflicts (fun r => r.conflictId = conflictId) (verdictSet verdictJson now)
    (conflictId_verdictSet verdictJson now)

/-- Flip a pending conflict to manual resolution. -/
def conflictQueueMarkManualRequired (p : Porch) (conflictId : String) : Porch :=
  p.updateConflicts (fun r => r.conflictId = conflictId ∧ r.status = .pending)
    (fun r => { r with status := .manualRequired }) fun _ => rfl

variable {p p' : Porch} {conflictId attemptId : String} {startedAt : Int64}

theorem length_conflictQueueGetAttempts : (p.conflictQueueGetAttempts conflictId).length =
    p.conflictAttempts.rows.countP fun a => a.conflictId = conflictId := by
  rw [conflictQueueGetAttempts, List.length_insertionSort, List.countP_eq_length_filter]

/-- An update of an attempt that keeps its conflict adds no attempt to any conflict. -/
theorem length_getAttempts_updateAttempt {set : AgentAttempt → AgentAttempt}
    {hset : ∀ a, (set a).attemptId = a.attemptId}
    (hconflict : ∀ a, (set a).conflictId = a.conflictId) :
    ((p.updateAttempt attemptId set hset).conflictQueueGetAttempts conflictId).length =
      (p.conflictQueueGetAttempts conflictId).length := by
  simp only [length_conflictQueueGetAttempts, updateAttempt, KeyedTable.updateWhere,
    List.countP_map]
  refine List.countP_congr fun a _ => ?_
  by_cases h : a.attemptId = attemptId
  · simp only [Function.comp_apply, h, decide_true, if_true, hconflict]
  · simp only [Function.comp_apply, h, decide_false, Bool.false_eq_true, if_false]

/-- An update of an attempt adds no attempt id. -/
theorem find?_updateAttempt_eq_none {set : AgentAttempt → AgentAttempt}
    {hset : ∀ a, (set a).attemptId = a.attemptId} {id : String}
    (h : p.conflictAttempts.find? id = none) :
    (p.updateAttempt attemptId set hset).conflictAttempts.find? id = none := by
  simp only [updateAttempt, KeyedTable.find?_updateWhere, h, Option.map_none]

/-- An attempt starts exactly under a fresh id and for a queued conflict. -/
theorem conflictAttemptsInsertRunning_eq_ok_iff :
    p.conflictAttemptsInsertRunning attemptId conflictId startedAt = .ok p' ↔
      p.conflictAttempts.find? attemptId = none ∧ p.conflictQueue.HasKey conflictId ∧
        p' = { p with conflictAttempts := p'.conflictAttempts } ∧
        p'.conflictAttempts.rows = p.conflictAttempts.rows ++
          [⟨attemptId, conflictId, startedAt, none, .running, none, none⟩] := by
  unfold conflictAttemptsInsertRunning
  cases hinsert : p.conflictAttempts.insert?
      ⟨attemptId, conflictId, startedAt, none, .running, none, none⟩ with
  | none =>
    obtain ⟨a, ha⟩ := KeyedTable.insert?_eq_none_iff.mp hinsert
    have taken : p.conflictAttempts.find? attemptId = some a := ha
    simp only [taken, reduceCtorEq, false_and]
  | some attempts =>
    obtain ⟨free, rows⟩ := KeyedTable.insert?_eq_some_iff.mp hinsert
    show (if p.conflictQueue.HasKey conflictId then
      Except.ok { p with conflictAttempts := attempts } else
      Except.error (PorchError.sqlite .foreignKey)) = .ok p' ↔ _
    by_cases hqueued : p.conflictQueue.HasKey conflictId
    · rw [if_pos hqueued, Except.ok.injEq]
      constructor
      · intro h
        rw [← h]
        exact ⟨free, hqueued, rfl, rows⟩
      · rintro ⟨_, _, hrest, hrows⟩
        rw [hrest, KeyedTable.ext (hrows.trans rows.symm)]
    · rw [if_neg hqueued]
      exact iff_of_false (fun h => by cases h) fun h => hqueued h.2.1

/-- An attempt starts under a fresh id for a queued conflict, and takes that id only. -/
theorem exists_insertRunning (free : p.conflictAttempts.find? attemptId = none)
    (queued : p.conflictQueue.HasKey conflictId) : ∃ p₁,
    p.conflictAttemptsInsertRunning attemptId conflictId startedAt = .ok p₁ ∧
      p₁.conflictQueue = p.conflictQueue ∧
      ∀ id, id ≠ attemptId → p.conflictAttempts.find? id = none →
        p₁.conflictAttempts.find? id = none := by
  let attempt : AgentAttempt := ⟨attemptId, conflictId, startedAt, none, .running, none, none⟩
  cases hinsert : p.conflictAttempts.insert? attempt with
  | none =>
    obtain ⟨a, ha⟩ := KeyedTable.insert?_eq_none_iff.mp hinsert
    cases free.symm.trans ha
  | some attempts =>
    have puts := KeyedTable.puts_of_insert? hinsert
    refine ⟨{ p with conflictAttempts := attempts }, ?_, rfl, fun id hid hfree => ?_⟩
    · exact conflictAttemptsInsertRunning_eq_ok_iff.mpr
        ⟨free, queued, rfl, (KeyedTable.insert?_eq_some_iff.mp hinsert).2⟩
    · exact (puts.find?_other hid).trans hfree

/-- A new attempt is one more for its conflict. -/
theorem length_getAttempts_insertRunning
    (h : p.conflictAttemptsInsertRunning attemptId conflictId startedAt = .ok p') :
    (p'.conflictQueueGetAttempts conflictId).length =
      (p.conflictQueueGetAttempts conflictId).length + 1 := by
  obtain ⟨_, _, _, rows⟩ := conflictAttemptsInsertRunning_eq_ok_iff.mp h
  rw [length_conflictQueueGetAttempts, length_conflictQueueGetAttempts, rows, List.countP_append,
    List.countP_singleton, if_pos (decide_eq_true rfl)]

/-- A new attempt is none for another conflict. -/
theorem length_getAttempts_insertRunning_of_ne {other : String}
    (h : p.conflictAttemptsInsertRunning attemptId conflictId startedAt = .ok p')
    (hne : conflictId ≠ other) : (p'.conflictQueueGetAttempts other).length =
      (p.conflictQueueGetAttempts other).length := by
  obtain ⟨_, _, _, rows⟩ := conflictAttemptsInsertRunning_eq_ok_iff.mp h
  rw [length_conflictQueueGetAttempts, length_conflictQueueGetAttempts, rows, List.countP_append,
    List.countP_singleton, if_neg (by simpa only [decide_eq_true_eq] using hne), Nat.add_zero]

/-- A conflict outlives an UPDATE unless the assignment changes it. -/
theorem mem_updateConflicts {selects : ConflictRow → Bool} {set : ConflictRow → ConflictRow}
    (hset : ∀ r, (set r).conflictId = r.conflictId) {row : ConflictRow}
    (hrow : row ∈ p.conflictQueue.rows) :
    row ∈ (p.updateConflicts selects set hset).conflictQueue.rows ↔
      (selects row = true → set row = row) :=
  KeyedTable.mem_updateWhere_of_mem hset hrow

theorem mem_updateConflicts_of_mem {selects : ConflictRow → Bool} {set : ConflictRow → ConflictRow}
    (hset : ∀ r, (set r).conflictId = r.conflictId) {row : ConflictRow}
    (hrow : row ∈ p.conflictQueue.rows) :
    (if selects row then set row else row) ∈
      (p.updateConflicts selects set hset).conflictQueue.rows :=
  List.mem_map.mpr ⟨row, hrow, rfl⟩

theorem mem_markResolved {verdictJson : String} {now : Int64} {row : ConflictRow}
    (hrow : row ∈ p.conflictQueue.rows) :
    row ∈ (p.conflictQueueMarkResolved conflictId verdictJson now).conflictQueue.rows ↔
      (row.conflictId = conflictId → verdictSet verdictJson now row = row) := by
  rw [conflictQueueMarkResolved, mem_updateConflicts _ hrow, decide_eq_true_eq]

/-- Escalation leaves every conflict that is not pending. -/
theorem mem_markManualRequired_of_ne {row : ConflictRow} (hrow : row ∈ p.conflictQueue.rows)
    (settled : row.status ≠ .pending) :
    row ∈ (p.conflictQueueMarkManualRequired conflictId).conflictQueue.rows := by
  rw [conflictQueueMarkManualRequired, mem_updateConflicts _ hrow, decide_eq_true_eq]
  exact fun h => absurd h.2 settled

/-- A pending conflict is flipped. -/
theorem mem_markManualRequired {row : ConflictRow} (hrow : row ∈ p.conflictQueue.rows)
    (pending : row.status = .pending) : { row with status := .manualRequired } ∈
      (p.conflictQueueMarkManualRequired row.conflictId).conflictQueue.rows := by
  simp only [conflictQueueMarkManualRequired, updateConflicts, KeyedTable.mem_updateWhere]
  exact ⟨row, hrow, if_pos (decide_eq_true ⟨rfl, pending⟩)⟩

end Porch

end Concorrd
