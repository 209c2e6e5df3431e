import Concorrd.HeroSync.Detection
import Concorrd.Lib.Run
import Concorrd.Porch.ConflictAgent
import Concorrd.Porch.Migrate

/-!
# Passes of the agent, interleaved

A pass lists the unresolved conflicts and drives each in a task of its own. A drive holds the
lock of the porch for one call at a time and keeps the rest of its state in memory, so its phase
names the call it makes next. Any number of passes run at once; between two calls of one drive
come the calls of the others, the heartbeats of the resolvers, verdicts of the user, newly
queued conflicts, and a restart of the process, after which no task is left.

`exists_run_driveOne` says that a drive which nobody disturbs is `driveOne`.
-/

namespace Concorrd

/-- What a drive does next, and what it remembers. -/
inductive DrivePhase where
  /-- it has a row, and looks at its status before it reads the attempts -/
  | entered
  /-- it reads the attempts to check the budget -/
  | looking (prior : Option AgentAttempt)
  /-- the budget is spent: it escalates -/
  | exhausted
  /-- the budget has room: it inserts the next attempt -/
  | admitted (prior : Option AgentAttempt)
  /-- the resolver is at work on the attempt -/
  | resolving (attemptId : String) (startedAt : Int64)
  /-- the wall clock ran out and the last snapshot was read: it finalizes the attempt -/
  | expired (attemptId : String) (startedAt endedAt : Int64) (snapshot : String)
  /-- the attempt is finalized with a verdict: it records the verdict on the conflict -/
  | decided (verdictJson : String)
  | ended (answer : Except PorchError DriveOutcome)
  deriving DecidableEq

/-- What a call draws: an id, the clock, and how the resolver ended unless time ran out. -/
structure DriveDraw where
  attemptId : String
  now : Int64
  result : Option ResolverResult

/-- A drive of one conflict, with the row its pass read. -/
structure DriveTask where
  row : ConflictRow
  phase : DrivePhase
  deriving DecidableEq

/-- The porch and the drives of all passes since the process started. -/
structure AgentState where
  porch : Porch
  tasks : List DriveTask

/-- What can happen next. -/
inductive AgentEvent where
  | runOnce
  | advance (i : Nat) (draw : DriveDraw)
  | heartbeat (i : Nat) (contextBlob : String) (partialVerdict : Option Verdict)
  | manualResolve (conflictId verdictJson : String) (now : Int64)
  | enqueue (record : ConflictRecord) (conflictId : String) (now : Int64)
  | restart

/-- The input of the attempt that follows a prior one. -/
def ConflictRow.input (row : ConflictRow) (prior : Option AgentAttempt) : ConflictInput :=
  ⟨row.conflictId, row.conflictKind, row.payloadJson, preambleAfter prior⟩

section

variable (codec : JsonCodec) (maxAttempts : Nat)

/-- One call of a drive. -/
def driveStep (p : Porch) (row : ConflictRow) (draw : DriveDraw) : DrivePhase → Porch × DrivePhase
  | .entered =>
    if row.status ≠ .pending then (p, .ended (.ok .alreadyTerminal))
    else (p, .looking (p.conflictQueueGetAttempts row.conflictId).getLast?)
  | .looking prior =>
    if (p.conflictQueueGetAttempts row.conflictId).length ≥ maxAttempts then (p, .exhausted)
    else (p, .admitted prior)
  | .exhausted =>
    (p.conflictQueueMarkManualRequired row.conflictId, .ended (.ok .manualRequired))
  | .admitted _ =>
    match p.conflictAttemptsInsertRunning draw.attemptId row.conflictId draw.now with
    | .error e => (p, .ended (.error e))
    | .ok p => (p, .resolving draw.attemptId draw.now)
  | .resolving attemptId startedAt =>
    match draw.result with
    | some (.succeeded v) =>
      let verdictJson := codec.toString v.toJson
      (p.conflictAttemptsFinalize attemptId .succeeded draw.now none verdictJson,
        .decided verdictJson)
    | some (.timeout context) =>
      let verdictJson := context.partialVerdict.map fun v => codec.toString v.toJson
      let (p, attempt) := p.endAttempt row ⟨attemptId, startedAt, draw.now, draw.now⟩ .timeout
        context.contextBlob verdictJson
      (p, .looking (some attempt))
    | some (.aborted reason) =>
      let (p, attempt) := p.endAttempt row ⟨attemptId, startedAt, draw.now, draw.now⟩ .aborted
        ("aborted: " ++ reason) none
      (p, .looking (some attempt))
    | none =>
      (p, .expired attemptId startedAt draw.now
        ((p.conflictAttemptsGetSnapshot attemptId).getD "<no heartbeat>"))
  | .expired attemptId startedAt endedAt snapshot =>
    let (p, attempt) := p.endAttempt row ⟨attemptId, startedAt, endedAt, endedAt⟩ .timeout snapshot
      none
    (p, .looking (some attempt))
  | .decided verdictJson =>
    (p.conflictQueueMarkResolved row.conflictId verdictJson draw.now, .ended (.ok .resolved))
  | .ended answer => (p, .ended answer)

namespace AgentState

/-- One event. A call of a drive that does not exist does nothing, and so does a heartbeat of a
drive whose resolver is not at work. -/
def step (s : AgentState) : AgentEvent → AgentState
  | .runOnce =>
    { s with tasks := s.tasks ++
        s.porch.conflictQueueListUnresolved.map fun row => ⟨row, .entered⟩ }
  | .advance i draw =>
    match s.tasks[i]? with
    | none => s
    | some task =>
      let (p, phase) := driveStep codec maxAttempts s.porch task.row draw task.phase
      ⟨p, s.tasks.set i ⟨task.row, phase⟩⟩
  | .heartbeat i contextBlob partialVerdict =>
    match s.tasks[i]? with
    | some ⟨_, .resolving attemptId _⟩ =>
      { s with
        porch := s.porch.snapshot attemptId contextBlob
          (partialVerdict.map fun v => codec.toString v.toJson) }
    | _ => s
  | .manualResolve conflictId verdictJson now =>
    match s.porch.conflictQueueManualResolve codec conflictId verdictJson now with
    | .ok p => { s with porch := p }
    | .error _ => s
  | .enqueue record conflictId now =>
    match s.porch.enqueue codec record conflictId now with
    | .ok p => { s with porch := p }
    | .error _ => s
  | .restart => { s with tasks := [] }

/-- The state after the events. -/
abbrev run (s : AgentState) (events : List AgentEvent) : AgentState :=
  Machine.run (step codec maxAttempts) s events

end AgentState

end

/-- A process over a fresh porch with one queued conflict. -/
def AgentState.oneConflict : AgentState :=
  AgentState.run userCodec defaultMaxAttempts
    ⟨Porch.opened .none ⟨"device-a", "profile-a", 1, true⟩, []⟩
    [.enqueue ⟨.aclChange, .obj []⟩ "conflict" 2]

/-! ## What a call changes -/

section

variable {codec : JsonCodec} {maxAttempts : Nat} {p : Porch} {row : ConflictRow} {draw : DriveDraw}

theorem AgentState.run_append (s : AgentState) (before later : List AgentEvent) :
    s.run codec maxAttempts (before ++ later) =
      (s.run codec maxAttempts before).run codec maxAttempts later :=
  Machine.run_append s before later

theorem AgentState.step_advance {s : AgentState} {i : Nat} {task : DriveTask}
    (h : s.tasks[i]? = some task) : s.step codec maxAttempts (.advance i draw) =
      ⟨(driveStep codec maxAttempts s.porch task.row draw task.phase).1, s.tasks.set i
        ⟨task.row, (driveStep codec maxAttempts s.porch task.row draw task.phase).2⟩⟩ := by
  simp only [step, h]

/-- A drive touches the queue when it escalates and when it records its verdict. -/
theorem conflictQueue_driveStep (codec : JsonCodec) (maxAttempts : Nat) (p : Porch)
    (row : ConflictRow) (draw : DriveDraw) (phase : DrivePhase) :
    (driveStep codec maxAttempts p row draw phase).1.conflictQueue =
      match phase with
      | .exhausted => (p.conflictQueueMarkManualRequired row.conflictId).conflictQueue
      | .decided verdictJson =>
        (p.conflictQueueMarkResolved row.conflictId verdictJson draw.now).conflictQueue
      | _ => p.conflictQueue := by
  cases phase with
  | entered =>
    simp only [driveStep]
    split <;> rfl
  | looking prior =>
    simp only [driveStep]
    split <;> rfl
  | admitted prior =>
    simp only [driveStep]
    split
    · rfl
    · rename_i h
      rw [(Porch.conflictAttemptsInsertRunning_eq_ok_iff.mp h).2.2.1]
  | resolving attemptId startedAt =>
    simp only [driveStep]
    split <;> rfl
  | exhausted => rfl
  | expired attemptId startedAt endedAt snapshot => rfl
  | decided verdictJson => rfl
  | ended answer => rfl

/-- A drive adds no attempt where it inserts none. -/
theorem length_getAttempts_driveStep {phase : DrivePhase} (h : ∀ prior, phase ≠ .admitted prior)
    (conflictId : String) :
    ((driveStep codec maxAttempts p row draw phase).1.conflictQueueGetAttempts conflictId).length =
      (p.conflictQueueGetAttempts conflictId).length := by
  cases phase with
  | entered =>
    simp only [driveStep]
    split <;> rfl
  | looking prior =>
    simp only [driveStep]
    split <;> rfl
  | admitted prior => exact absurd rfl (h prior)
  | resolving attemptId startedAt =>
    simp only [driveStep]
    split
    · exact Porch.length_getAttempts_updateAttempt fun _ => rfl
    · exact Porch.length_getAttempts_updateAttempt fun _ => rfl
    · exact Porch.length_getAttempts_updateAttempt fun _ => rfl
    · rfl
  | exhausted => rfl
  | expired attemptId startedAt endedAt snapshot =>
    exact Porch.length_getAttempts_updateAttempt fun _ => rfl
  | decided verdictJson => rfl
  | ended answer => rfl

theorem driveStep_admitted {p' : Porch} {prior : Option AgentAttempt}
    (h : p.conflictAttemptsInsertRunning draw.attemptId row.conflictId draw.now = .ok p') :
    driveStep codec maxAttempts p row draw (.admitted prior) =
      (p', .resolving draw.attemptId draw.now) := by
  simp only [driveStep, h]

theorem driveStep_admitted_error {e : PorchError} {prior : Option AgentAttempt}
    (h : p.conflictAttemptsInsertRunning draw.attemptId row.conflictId draw.now = .error e) :
    driveStep codec maxAttempts p row draw (.admitted prior) = (p, .ended (.error e)) := by
  simp only [driveStep, h]

end

/-! ## A drive that nobody disturbs -/

/-- A process that drives one conflict. -/
def AgentState.solo (p : Porch) (row : ConflictRow) (phase : DrivePhase) : AgentState :=
  ⟨p, [⟨row, phase⟩]⟩

/-- Some events lead from the state to the other. -/
def AgentState.Leads (codec : JsonCodec) (maxAttempts : Nat) (s s' : AgentState) : Prop :=
  ∃ events, s.run codec maxAttempts events = s'

section

variable {codec : JsonCodec} {maxAttempts : Nat} {resolve : Nat → ConflictInput → ResolverRun}
  {draw : Nat → AttemptArgs} {p p' : Porch} {row : ConflictRow} {prior : Option AgentAttempt}
  {answer : Except PorchError DriveOutcome}

theorem AgentState.Leads.trans {s s' s'' : AgentState} (h : s.Leads codec maxAttempts s')
    (h' : s'.Leads codec maxAttempts s'') : s.Leads codec maxAttempts s'' := by
  obtain ⟨events, rfl⟩ := h
  obtain ⟨events', rfl⟩ := h'
  exact ⟨events ++ events', AgentState.run_append s events events'⟩

/-- The next call of the drive. -/
theorem leads_driveStep (codec : JsonCodec) (maxAttempts : Nat) (p : Porch) (row : ConflictRow)
    (phase : DrivePhase) (d : DriveDraw) :
    (AgentState.solo p row phase).Leads codec maxAttempts
      (AgentState.solo (driveStep codec maxAttempts p row d phase).1 row
        (driveStep codec maxAttempts p row d phase).2) :=
  ⟨[.advance 0 d], rfl⟩

/-- The heartbeats of the resolver. -/
theorem leads_heartbeats (attemptId : String) (startedAt : Int64)
    (beats : List (String × Option Verdict)) :
    (AgentState.solo p row (.resolving attemptId startedAt)).Leads codec maxAttempts
      (AgentState.solo (beats.foldl (fun p beat =>
        p.snapshot attemptId beat.1 (beat.2.map fun v => codec.toString v.toJson)) p) row
          (.resolving attemptId startedAt)) := by
  induction beats generalizing p with
  | nil => exact ⟨[], rfl⟩
  | cons beat beats ih =>
    have first : (AgentState.solo p row (.resolving attemptId startedAt)).Leads codec maxAttempts
        (AgentState.solo (p.snapshot attemptId beat.1 (beat.2.map fun v => codec.toString v.toJson))
          row (.resolving attemptId startedAt)) := ⟨[.heartbeat 0 beat.1 beat.2], rfl⟩
    exact first.trans ih

/-- Where one dispatch of an admitted attempt takes the drive. -/
theorem leads_dispatchAttempt (codec : JsonCodec) (maxAttempts : Nat) (p : Porch)
    (row : ConflictRow) (prior : Option AgentAttempt) (args : AttemptArgs) (run : ResolverRun) :
    (AgentState.solo p row (.admitted prior)).Leads codec maxAttempts
      (match p.dispatchAttempt codec row args run with
        | .error e => AgentState.solo p row (.ended (.error e))
        | .ok (p', none) => AgentState.solo p' row (.ended (.ok .resolved))
        | .ok (p', some attempt) => AgentState.solo p' row (.looking (some attempt))) := by
  have inserted := leads_driveStep codec maxAttempts p row (.admitted prior)
    ⟨args.attemptId, args.startedAt, none⟩
  unfold Porch.dispatchAttempt
  cases hinsert : p.conflictAttemptsInsertRunning args.attemptId row.conflictId args.startedAt with
  | error e =>
    rw [driveStep_admitted_error hinsert] at inserted
    exact inserted
  | ok p₁ =>
    rw [driveStep_admitted hinsert] at inserted
    refine (inserted.trans (leads_heartbeats _ _ run.heartbeats)).trans ?_
    have resolved := leads_driveStep codec maxAttempts (run.heartbeats.foldl (fun p beat =>
        p.snapshot args.attemptId beat.1 (beat.2.map fun v => codec.toString v.toJson)) p₁) row
      (.resolving args.attemptId args.startedAt) ⟨"", args.endedAt, run.result⟩
    simp only [bind, Except.bind, pure, Except.pure]
    cases hresult : run.result with
    | none =>
      rw [hresult] at resolved
      exact resolved.trans (leads_driveStep _ _ _ _ _ ⟨"", args.endedAt, none⟩)
    | some result =>
      rw [hresult] at resolved
      cases result with
      | succeeded v => exact resolved.trans (leads_driveStep _ _ _ _ _ ⟨"", args.resolvedAt, none⟩)
      | timeout context => exact resolved
      | aborted reason => exact resolved

theorem leads_driveLoop {fuel n : Nat}
    (h : p.driveLoop codec maxAttempts resolve draw row fuel prior n = some (p', answer)) :
    (AgentState.solo p row (.looking prior)).Leads codec maxAttempts
      (AgentState.solo p' row (.ended answer)) := by
  induction fuel generalizing p prior n with
  | zero => cases h
  | succ fuel ih =>
    have looked := leads_driveStep codec maxAttempts p row (.looking prior) ⟨"", 0, none⟩
    unfold Porch.driveLoop at h
    split at h
    · rename_i spent
      cases h
      simp only [driveStep, if_pos spent] at looked
      exact looked.trans (leads_driveStep _ _ _ _ .exhausted ⟨"", 0, none⟩)
    · rename_i room
      simp only [driveStep, if_neg room] at looked
      have dispatched := leads_dispatchAttempt codec maxAttempts p row prior (draw n)
        (resolve n (row.input prior))
      refine looked.trans (dispatched.trans ?_)
      dsimp only at h
      split at h
      · rename_i hdispatch
        cases h
        rw [ConflictRow.input, hdispatch]
        exact ⟨[], rfl⟩
      · rename_i hdispatch
        cases h
        rw [ConflictRow.input, hdispatch]
        exact ⟨[], rfl⟩
      · rename_i hdispatch
        rw [ConflictRow.input, hdispatch]
        exact ih h

/-- A drive that nobody disturbs is `driveOne`. -/
theorem exists_run_driveOne
    (h : p.driveOne codec maxAttempts resolve draw row = some (p', answer)) :
    ∃ events, (AgentState.solo p row .entered).run codec maxAttempts events =
      AgentState.solo p' row (.ended answer) := by
  have entered := leads_driveStep codec maxAttempts p row .entered ⟨"", 0, none⟩
  unfold Porch.driveOne at h
  split at h
  · rename_i hstatus
    cases h
    simp only [driveStep, if_pos hstatus] at entered
    exact entered
  · rename_i hstatus
    simp only [driveStep, if_neg hstatus] at entered
    exact entered.trans (leads_driveLoop h)

/-- **Drives end.** Whatever the resolver does, `driveOne` returns, and a drive that nobody disturbs comes
to the same end in the same porch. -/
theorem drive_ends (codec : JsonCodec) (maxAttempts : Nat) (resolve : Nat → ConflictInput → ResolverRun)
    (draw : Nat → AttemptArgs) (p : Porch) (row : ConflictRow) :
    ∃ p' answer events, p.driveOne codec maxAttempts resolve draw row = some (p', answer) ∧
      (AgentState.solo p row .entered).run codec maxAttempts events =
        AgentState.solo p' row (.ended answer) := by
  obtain ⟨⟨p', answer⟩, ends⟩ : ∃ ended, p.driveOne codec maxAttempts resolve draw row = some ended :=
    Option.isSome_iff_exists.mp Porch.driveOne_isSome
  obtain ⟨events, ran⟩ := exists_run_driveOne ends
  exact ⟨p', answer, events, ends, ran⟩

end

end Concorrd
