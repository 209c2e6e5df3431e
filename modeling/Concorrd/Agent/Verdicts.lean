import Concorrd.Agent.Runs
import Concorrd.HeroSync.Detection

/-!
# Resolved conflicts

Three statements settle a conflict. Escalation selects pending rows only and the user's verdict
unresolved ones, but a drive records its verdict on whatever row it finds. A resolved conflict is
therefore final exactly along the runs in which no drive decides after the user did:
`resolved_final_iff`.
-/

namespace Concorrd

namespace AgentState

/-- The resolved conflicts. -/
def resolvedRows (s : AgentState) : Set ConflictRow :=
  {row | row ∈ s.porch.conflictQueue.rows ∧ row.status = .resolved}

/-- The event is a drive recording its verdict on the row's conflict, and the row has another. -/
def Overwrites (s : AgentState) (row : ConflictRow) : AgentEvent → Prop
  | .advance i draw => ∃ task verdictJson, s.tasks[i]? = some task ∧
      task.phase = .decided verdictJson ∧ task.row.conflictId = row.conflictId ∧
      Porch.verdictSet verdictJson draw.now row ≠ row
  | _ => False

/-- Drives record their verdicts on conflicts that are not resolved, or resolved alike. -/
def SparesResolved (s : AgentState) (e : AgentEvent) : Prop :=
  ∀ row ∈ s.resolvedRows, ¬ s.Overwrites row e

variable {codec : JsonCodec} {maxAttempts : Nat} {s : AgentState} {row : ConflictRow}

/-- An event keeps a resolved conflict as it is exactly when it does not overwrite it. -/
theorem resolved_step_iff (hrow : row ∈ s.resolvedRows) (e : AgentEvent) :
    row ∈ (s.step codec maxAttempts e).resolvedRows ↔ ¬ s.Overwrites row e := by
  obtain ⟨hmem, resolved⟩ := hrow
  have same : ∀ {s' : AgentState}, s'.porch.conflictQueue = s.porch.conflictQueue →
      row ∈ s'.resolvedRows := by
    intro s' h
    refine ⟨?_, resolved⟩
    rw [h]
    exact hmem
  cases e with
  | runOnce => exact iff_of_true (same rfl) id
  | restart => exact iff_of_true (same rfl) id
  | heartbeat i contextBlob partialVerdict =>
    refine iff_of_true ?_ id
    simp only [step]
    split
    · exact same rfl
    · exact same rfl
  | enqueue record conflictId now =>
    refine iff_of_true ?_ id
    simp only [step]
    split
    · rename_i p' h
      refine ⟨?_, resolved⟩
      unfold Porch.enqueue at h
      split at h
      · rename_i queue hinsert
        cases h
        exact (KeyedTable.mem_rows_of_insert? hinsert).mpr (.inl hmem)
      · cases h
    · exact same rfl
  | manualResolve conflictId verdictJson now =>
    refine iff_of_true ?_ id
    simp only [step]
    split
    · rename_i p' h
      rw [Porch.conflictQueueManualResolve_eq_ok h]
      refine ⟨(Porch.mem_updateConflicts _ hmem).mpr fun selected => ?_, resolved⟩
      exact absurd resolved (of_decide_eq_true selected).2
    · exact same rfl
  | advance i draw =>
    cases htask : s.tasks[i]? with
    | none =>
      refine iff_of_true ?_ ?_
      · simp only [step, htask]
        exact same rfl
      · rintro ⟨task, _, h, _⟩
        cases htask.symm.trans h
    | some task =>
      rw [step_advance htask]
      have queue := conflictQueue_driveStep codec maxAttempts s.porch task.row draw task.phase
      have spared (h : ∀ v, task.phase ≠ .decided v) : ¬ s.Overwrites row (.advance i draw) := by
        rintro ⟨task', v, htask', hphase, _⟩
        cases htask.symm.trans htask'
        exact h v hphase
      cases hphase : task.phase with
      | decided verdictJson =>
        rw [hphase] at queue
        constructor
        · rintro ⟨hrow, _⟩ ⟨task', v, htask', hphase', hid, hne⟩
          cases htask.symm.trans htask'
          cases hphase.symm.trans hphase'
          exact hne ((Porch.mem_markResolved hmem).mp (queue ▸ hrow) hid.symm)
        · intro h
          refine ⟨?_, resolved⟩
          show row ∈ (driveStep codec maxAttempts s.porch task.row draw
            (.decided verdictJson)).1.conflictQueue.rows
          rw [queue]
          refine (Porch.mem_markResolved hmem).mpr fun hid => by_contra fun hne => ?_
          exact h ⟨task, verdictJson, htask, hphase, hid.symm, hne⟩
      | exhausted =>
        rw [hphase] at queue
        refine iff_of_true ⟨?_, resolved⟩ (spared fun v hv => by cases hphase.symm.trans hv)
        show row ∈ (driveStep codec maxAttempts s.porch task.row draw
          .exhausted).1.conflictQueue.rows
        rw [queue]
        refine Porch.mem_markManualRequired_of_ne hmem fun pending => ?_
        cases resolved.symm.trans pending
      | _ =>
        rw [hphase] at queue
        exact iff_of_true (same queue) (spared fun v hv => by cases hphase.symm.trans hv)

/-- **A resolved conflict is final exactly when no drive decides after it.** Along every
interleaving of passes, drives, heartbeats, verdicts of the user and restarts, a resolved
conflict keeps its status, its time and its verdict exactly when every drive that records a
verdict finds its conflict unresolved, or resolved alike. -/
theorem resolved_final_iff (codec : JsonCodec) (maxAttempts : Nat) (s : AgentState)
    (events : List AgentEvent) :
    (∀ before mid later, events = before ++ (mid ++ later) →
      ∀ row ∈ (s.run codec maxAttempts before).porch.conflictQueue.rows, row.status = .resolved →
        row ∈ (s.run codec maxAttempts (before ++ mid)).porch.conflictQueue.rows) ↔
      Machine.Along (step codec maxAttempts) SparesResolved s events := by
  have stepwise : Machine.Along (step codec maxAttempts) SparesResolved s events ↔
      Machine.Along (step codec maxAttempts)
        (fun s e => s.resolvedRows ⊆ (s.step codec maxAttempts e).resolvedRows) s events := by
    refine Machine.along_congr (fun _ => True) (fun _ _ _ => trivial) (fun s e _ => ?_) trivial
    exact forall₂_congr fun row hrow => (resolved_step_iff hrow e).symm
  rw [stepwise, ← Machine.kept_iff]
  constructor
  · intro h before mid later heq row ⟨hrow, resolved⟩
    exact ⟨h before mid later heq row hrow resolved, resolved⟩
  · intro h before mid later heq row hrow resolved
    exact (h before mid later heq ⟨hrow, resolved⟩).1

end AgentState

/-- What the resolver comes to after the user has decided. -/
def lateVerdict : Verdict := ⟨.pickB, "LWW resolution", "0.6"⟩

/-- A pass starts an attempt and the user decides while its resolver is at work. -/
def decidedByUser : List AgentEvent :=
  [.runOnce, .advance 0 ⟨"", 3, none⟩, .advance 0 ⟨"", 3, none⟩, .advance 0 ⟨"attempt", 3, none⟩,
    .manualResolve "conflict" (renderJson userVerdict.toJson) 4]

/-- Then the resolver answers. -/
def answeredLate : List AgentEvent :=
  [.advance 0 ⟨"", 5, some (.succeeded lateVerdict)⟩, .advance 0 ⟨"", 6, none⟩]

/-- The verdict of the user is overwritten by the resolver that was still at work. -/
theorem AgentState.userVerdict_overwritten :
    ((AgentState.oneConflict.run userCodec defaultMaxAttempts
      decidedByUser).porch.conflictQueue.rows.map fun row =>
        (row.status, row.resolvedAt, row.finalVerdictJson)) =
      [(.resolved, some 4, some (renderJson userVerdict.toJson))] ∧
    ((AgentState.oneConflict.run userCodec defaultMaxAttempts
      (decidedByUser ++ answeredLate)).porch.conflictQueue.rows.map fun row =>
        (row.status, row.resolvedAt, row.finalVerdictJson)) =
      [(.resolved, some 6, some (renderJson lateVerdict.toJson))] ∧
    ¬ ∀ before mid later, decidedByUser ++ answeredLate = before ++ (mid ++ later) →
      ∀ row ∈ (AgentState.oneConflict.run userCodec defaultMaxAttempts
        before).porch.conflictQueue.rows, row.status = .resolved →
        row ∈ (AgentState.oneConflict.run userCodec defaultMaxAttempts
          (before ++ mid)).porch.conflictQueue.rows := by
  refine ⟨by decide, by decide, fun h => ?_⟩
  have lost : ¬ ∀ row ∈ (AgentState.oneConflict.run userCodec defaultMaxAttempts
      decidedByUser).porch.conflictQueue.rows, row.status = .resolved →
      row ∈ (AgentState.oneConflict.run userCodec defaultMaxAttempts
        (decidedByUser ++ answeredLate)).porch.conflictQueue.rows := by
    decide
  exact lost (h decidedByUser answeredLate [] (by rw [List.append_nil]))

end Concorrd
