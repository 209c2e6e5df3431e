import Concorrd.Agent.Runs
import Concorrd.HeroSync.Detection

/-!
# The retry budget

A drive reads the status of its conflict once, when its pass lists it, and checks the budget one
call before it inserts the attempt. Other drives and the user act in between. `keepsBudget_iff`
says that a run stays within the budget and starts nothing late exactly when every attempt is
started on a reading that still holds. `keepsBudget_of_exclusive` says that it does where no two
drives of one conflict are ever alive together and the user leaves a conflict alone while it is
driven.
-/

namespace Concorrd

namespace AgentState

/-- The attempts made for a conflict. -/
def attemptsOf (s : AgentState) (conflictId : String) : Nat :=
  (s.porch.conflictQueueGetAttempts conflictId).length

/-- The conflict is resolved or left to the user. -/
def Settled (s : AgentState) (conflictId : String) : Prop :=
  ∃ row ∈ s.porch.conflictQueue.rows, row.conflictId = conflictId ∧ row.status ≠ .pending

/-- The event starts an attempt for the conflict. -/
def Starts (s : AgentState) (conflictId : String) : AgentEvent → Prop
  | .advance i draw => ∃ task prior p', s.tasks[i]? = some task ∧
      task.phase = .admitted prior ∧ task.row.conflictId = conflictId ∧
      s.porch.conflictAttemptsInsertRunning draw.attemptId conflictId draw.now = .ok p'
  | _ => False

section

variable (codec : JsonCodec) (maxAttempts : Nat)

/-- The run never has more attempts for a conflict than the budget, and starts none for a
conflict that has been settled. -/
structure KeepsBudget (s : AgentState) (events : List AgentEvent) : Prop where
  within : ∀ before later, events = before ++ later →
    ∀ conflictId, (s.run codec maxAttempts before).attemptsOf conflictId ≤ maxAttempts
  noLateStart : ∀ before mid e later, events = before ++ (mid ++ e :: later) →
    ∀ conflictId, (s.run codec maxAttempts before).Settled conflictId →
      ¬ (s.run codec maxAttempts (before ++ mid)).Starts conflictId e

/-- An attempt is started while the budget has room and the conflict is pending. -/
def StartsOnFreshReading (s : AgentState) (e : AgentEvent) : Prop :=
  ∀ conflictId, s.Starts conflictId e →
    s.attemptsOf conflictId < maxAttempts ∧ ¬ s.Settled conflictId

end

variable {codec : JsonCodec} {maxAttempts : Nat} {s : AgentState} {e : AgentEvent}
  {conflictId : String}

/-- An event that starts an attempt adds one for that conflict. -/
theorem attemptsOf_step (h : s.Starts conflictId e) :
    (s.step codec maxAttempts e).attemptsOf conflictId = s.attemptsOf conflictId + 1 := by
  cases e with
  | advance i draw =>
    obtain ⟨task, prior, p', htask, hphase, rfl, hinsert⟩ := h
    rw [step_advance htask, hphase, driveStep_admitted hinsert]
    exact Porch.length_getAttempts_insertRunning hinsert
  | runOnce => cases h
  | heartbeat i contextBlob partialVerdict => cases h
  | manualResolve conflictId' verdictJson now => cases h
  | enqueue record conflictId' now => cases h
  | restart => cases h

/-- Any other event adds none. -/
theorem attemptsOf_step_of_not_starts (codec : JsonCodec) (maxAttempts : Nat)
    (h : ¬ s.Starts conflictId e) :
    (s.step codec maxAttempts e).attemptsOf conflictId = s.attemptsOf conflictId := by
  cases e with
  | advance i draw =>
    cases htask : s.tasks[i]? with
    | none => simp only [step, htask]
    | some task =>
      rw [step_advance htask]
      by_cases hadmitted : ∃ prior, task.phase = .admitted prior
      · obtain ⟨prior, hphase⟩ := hadmitted
        rw [hphase]
        cases hinsert : s.porch.conflictAttemptsInsertRunning draw.attemptId task.row.conflictId
            draw.now with
        | error e => rw [driveStep_admitted_error hinsert]; rfl
        | ok p' =>
          rw [driveStep_admitted hinsert]
          refine Porch.length_getAttempts_insertRunning_of_ne hinsert fun hid => h ?_
          exact ⟨task, prior, p', htask, hphase, hid, hid ▸ hinsert⟩
      · exact length_getAttempts_driveStep (fun prior hp => hadmitted ⟨prior, hp⟩) conflictId
  | heartbeat i contextBlob partialVerdict =>
    simp only [step]
    split
    · exact Porch.length_getAttempts_updateAttempt fun _ => rfl
    · rfl
  | manualResolve conflictId' verdictJson now =>
    simp only [step]
    split
    · rename_i p' hresolve
      rw [Porch.conflictQueueManualResolve_eq_ok hresolve]
      rfl
    · rfl
  | enqueue record conflictId' now =>
    simp only [step]
    split
    · rename_i p' henqueue
      unfold Porch.enqueue at henqueue
      split at henqueue
      · cases henqueue
        rfl
      · cases henqueue
    · rfl
  | runOnce => rfl
  | restart => rfl

/-- An UPDATE that makes nothing pending leaves every settled conflict settled. -/
theorem settled_updateConflicts {p : Porch} {tasks tasks' : List DriveTask}
    {selects : ConflictRow → Bool} {set : ConflictRow → ConflictRow}
    (hset : ∀ r, (set r).conflictId = r.conflictId)
    (settles : ∀ r, r.status ≠ .pending → (set r).status ≠ .pending)
    (h : Settled ⟨p, tasks⟩ conflictId) :
    Settled ⟨p.updateConflicts selects set hset, tasks'⟩ conflictId := by
  obtain ⟨row, hrow, hid, hstatus⟩ := h
  refine ⟨if selects row then set row else row, Porch.mem_updateConflicts_of_mem hset hrow, ?_⟩
  split
  · exact ⟨(hset row).trans hid, settles row hstatus⟩
  · exact ⟨hid, hstatus⟩

/-- A settled conflict stays settled. -/
theorem settled_step (h : s.Settled conflictId) (e : AgentEvent) :
    (s.step codec maxAttempts e).Settled conflictId := by
  have same : ∀ {s' : AgentState}, s'.porch.conflictQueue = s.porch.conflictQueue →
      s'.Settled conflictId := by
    intro s' heq
    unfold Settled
    rw [heq]
    exact h
  cases e with
  | runOnce => exact same rfl
  | restart => exact same rfl
  | heartbeat i contextBlob partialVerdict =>
    simp only [step]
    split
    · exact same rfl
    · exact same rfl
  | enqueue record conflictId' now =>
    simp only [step]
    split
    · rename_i p' henqueue
      obtain ⟨row, hrow, hstatus⟩ := h
      unfold Porch.enqueue at henqueue
      split at henqueue
      · rename_i queue hinsert
        cases henqueue
        exact ⟨row, (KeyedTable.mem_rows_of_insert? hinsert).mpr (.inl hrow), hstatus⟩
      · cases henqueue
    · exact same rfl
  | manualResolve conflictId' verdictJson now =>
    simp only [step]
    split
    · rename_i p' hresolve
      rw [Porch.conflictQueueManualResolve_eq_ok hresolve]
      exact settled_updateConflicts _ (fun _ _ => by simp [Porch.verdictSet]) h
    · exact same rfl
  | advance i draw =>
    cases htask : s.tasks[i]? with
    | none =>
      simp only [step, htask]
      exact h
    | some task =>
      rw [step_advance htask]
      have queue := conflictQueue_driveStep codec maxAttempts s.porch task.row draw task.phase
      cases hphase : task.phase with
      | decided verdictJson =>
        exact settled_updateConflicts _ (fun _ _ => by simp [Porch.verdictSet]) h
      | exhausted => exact settled_updateConflicts _ (fun _ _ => by simp) h
      | _ =>
        rw [hphase] at queue
        exact same queue

theorem settled_run (h : s.Settled conflictId) (events : List AgentEvent) :
    (s.run codec maxAttempts events).Settled conflictId := by
  induction events generalizing s with
  | nil => exact h
  | cons e events ih => exact ih (settled_step h e)

/-- Attempts that start on a fresh reading keep the budget. -/
theorem keepsBudget_of_fresh {events : List AgentEvent}
    (start : ∀ conflictId, s.attemptsOf conflictId ≤ maxAttempts)
    (h : Machine.Along (step codec maxAttempts) (StartsOnFreshReading maxAttempts) s events) :
    s.KeepsBudget codec maxAttempts events := by
  constructor
  · intro before later heq
    have along : Machine.Along (step codec maxAttempts) (StartsOnFreshReading maxAttempts) s
        before := by
      refine Machine.along_iff.mpr fun before' e mid heq' => ?_
      refine Machine.along_iff.mp h before' e (mid ++ later) ?_
      rw [heq, heq', List.append_assoc]
      rfl
    refine Machine.invariant (fun s : AgentState => ∀ c, s.attemptsOf c ≤ maxAttempts)
      (fun s e fresh within c => ?_) along start
    by_cases starts : s.Starts c e
    · rw [attemptsOf_step starts]
      exact (fresh c starts).1
    · rw [attemptsOf_step_of_not_starts _ _ starts]
      exact within c
  · intro before mid e later heq conflictId settled starts
    have fresh := Machine.along_iff.mp h (before ++ mid) e later (by rw [heq, List.append_assoc])
    refine (fresh conflictId starts).2 ?_
    rw [Machine.run_append]
    exact settled_run settled mid

end AgentState

/-! ## Exclusive drives -/

/-- The drive read its conflict as pending and has not ended. -/
def DriveTask.IsDriving (task : DriveTask) : Prop :=
  task.row.status = .pending ∧ ∀ answer, task.phase ≠ .ended answer

namespace AgentState

/-- Nobody else touches a conflict that is being driven: no pass lists it as pending, and the
user leaves it alone. -/
def Exclusive (s : AgentState) : AgentEvent → Prop
  | .runOnce => ∀ task ∈ s.tasks, task.IsDriving → ∀ row ∈ s.porch.conflictQueueListUnresolved,
      row.status = .pending → row.conflictId ≠ task.row.conflictId
  | .manualResolve conflictId _ _ => ∀ task ∈ s.tasks, task.IsDriving →
      task.row.conflictId ≠ conflictId
  | _ => True

/-- The queue has the conflict as pending. -/
def Pending (s : AgentState) (conflictId : String) : Prop :=
  ∃ row ∈ s.porch.conflictQueue.rows, row.conflictId = conflictId ∧ row.status = .pending

/-- What exclusive drives can rely on: each drives a conflict of its own, the conflict stays
pending until the drive settles it, and a drive that was admitted finds room. -/
structure DrivesApart (maxAttempts : Nat) (s : AgentState) : Prop where
  idle : ∀ task ∈ s.tasks, task.row.status ≠ .pending →
    task.phase = .entered ∨ ∃ answer, task.phase = .ended answer
  apart : ∀ (i j : Nat) (a b : DriveTask), s.tasks[i]? = some a → s.tasks[j]? = some b →
    a.IsDriving → b.IsDriving → a.row.conflictId = b.row.conflictId → i = j
  pending : ∀ task ∈ s.tasks, task.IsDriving → (∀ v, task.phase ≠ .decided v) →
    s.Pending task.row.conflictId
  room : ∀ task ∈ s.tasks, ∀ prior, task.phase = .admitted prior →
    s.attemptsOf task.row.conflictId < maxAttempts

variable {codec : JsonCodec} {maxAttempts : Nat} {s : AgentState} {e : AgentEvent}
  {conflictId : String}

theorem not_settled_of_pending (h : s.Pending conflictId) : ¬ s.Settled conflictId := by
  rintro ⟨row, hrow, hid, hstatus⟩
  obtain ⟨row', hrow', hid', hpending⟩ := h
  rw [KeyedTable.eq_of_key_eq hrow hrow' (hid.trans hid'.symm)] at hstatus
  exact hstatus hpending

/-- An attempt of an exclusive drive starts on a fresh reading. -/
theorem DrivesApart.startsOnFreshReading (h : s.DrivesApart maxAttempts) :
    StartsOnFreshReading maxAttempts s e := by
  intro conflictId starts
  cases e with
  | advance i draw =>
    obtain ⟨task, prior, p', htask, hphase, rfl, _⟩ := starts
    have htask := List.mem_of_getElem? htask
    have pending : task.row.status = .pending := by
      by_contra hne
      rcases h.idle task htask hne with h' | ⟨_, h'⟩
      · cases hphase.symm.trans h'
      · cases hphase.symm.trans h'
    have driving : task.IsDriving := ⟨pending, fun answer h' => by cases hphase.symm.trans h'⟩
    refine ⟨h.room task htask prior hphase, not_settled_of_pending ?_⟩
    exact h.pending task htask driving fun v h' => by cases hphase.symm.trans h'
  | runOnce => cases starts
  | heartbeat i contextBlob partialVerdict => cases starts
  | manualResolve conflictId' verdictJson now => cases starts
  | enqueue record conflictId' now => cases starts
  | restart => cases starts

/-- An UPDATE of other conflicts leaves a pending conflict pending. -/
theorem pending_updateConflicts {p : Porch} {tasks tasks' : List DriveTask}
    {selects : ConflictRow → Bool} {set : ConflictRow → ConflictRow}
    (hset : ∀ r, (set r).conflictId = r.conflictId)
    (others : ∀ r, selects r = true → r.conflictId ≠ conflictId)
    (h : Pending ⟨p, tasks⟩ conflictId) : Pending ⟨p.updateConflicts selects set hset, tasks'⟩
      conflictId := by
  obtain ⟨row, hrow, hid, hstatus⟩ := h
  refine ⟨row, (Porch.mem_updateConflicts hset hrow).mpr fun hsel => ?_, hid, hstatus⟩
  exact absurd hid (others row hsel)

/-- A call of a drive leaves the other conflicts pending. -/
theorem pending_advance {task : DriveTask} {draw : DriveDraw} {tasks : List DriveTask}
    (hne : conflictId ≠ task.row.conflictId) (h : s.Pending conflictId) :
    Pending ⟨(driveStep codec maxAttempts s.porch task.row draw task.phase).1, tasks⟩
      conflictId := by
  have queue := conflictQueue_driveStep codec maxAttempts s.porch task.row draw task.phase
  cases hphase : task.phase with
  | decided verdictJson =>
    exact pending_updateConflicts _ (fun r hsel hid => hne (hid ▸ of_decide_eq_true hsel)) h
  | exhausted =>
    exact pending_updateConflicts _ (fun r hsel hid => hne (hid ▸ (of_decide_eq_true hsel).1)) h
  | _ =>
    rw [hphase] at queue
    unfold Pending
    simp only [queue]
    exact h

/-- A call of a drive leaves its own conflict pending unless it settles it. -/
theorem pending_advance_self {task : DriveTask} {draw : DriveDraw} {tasks : List DriveTask}
    (open_ : ∀ v, task.phase ≠ .decided v) (budgeted : task.phase ≠ .exhausted)
    (h : s.Pending conflictId) :
    Pending ⟨(driveStep codec maxAttempts s.porch task.row draw task.phase).1, tasks⟩
      conflictId := by
  have queue := conflictQueue_driveStep codec maxAttempts s.porch task.row draw task.phase
  cases hphase : task.phase with
  | decided verdictJson => exact absurd hphase (open_ verdictJson)
  | exhausted => exact absurd hphase budgeted
  | _ =>
    rw [hphase] at queue
    unfold Pending
    simp only [queue]
    exact h

/-- A drive that settles its conflict, or has ended, has ended after the call. -/
theorem ended_of_settles (codec : JsonCodec) (maxAttempts : Nat) (p : Porch) (row : ConflictRow)
    (draw : DriveDraw) (phase : DrivePhase)
    (h : phase = .exhausted ∨ (∃ v, phase = .decided v) ∨ ∃ answer, phase = .ended answer) :
    ∃ answer, (driveStep codec maxAttempts p row draw phase).2 = .ended answer := by
  rcases h with rfl | ⟨v, rfl⟩ | ⟨answer, rfl⟩
  · exact ⟨_, rfl⟩
  · exact ⟨_, rfl⟩
  · exact ⟨answer, rfl⟩

/-- A drive is admitted by a check that finds room, which leaves the porch as it is. -/
theorem admitted_cases {p : Porch} {row : ConflictRow} {draw : DriveDraw} {phase : DrivePhase}
    {prior : Option AgentAttempt}
    (h : (driveStep codec maxAttempts p row draw phase).2 = .admitted prior) :
    (p.conflictQueueGetAttempts row.conflictId).length < maxAttempts ∧
      (driveStep codec maxAttempts p row draw phase).1 = p := by
  cases phase with
  | looking prior' =>
    simp only [driveStep] at h ⊢
    split at h
    · cases h
    · rename_i hroom
      exact ⟨not_le.mp hroom, by rw [if_neg hroom]⟩
  | entered =>
    simp only [driveStep] at h
    split at h <;> cases h
  | admitted prior' =>
    simp only [driveStep] at h
    split at h <;> cases h
  | resolving attemptId startedAt =>
    simp only [driveStep] at h
    split at h <;> cases h
  | exhausted => cases h
  | expired attemptId startedAt endedAt snapshot => cases h
  | decided verdictJson => cases h
  | ended answer => cases h

/-- A drive is at work when its phase is none of the first and the last. -/
theorem DrivesApart.isDriving (h : s.DrivesApart maxAttempts) {task : DriveTask}
    (hmem : task ∈ s.tasks) (entered : task.phase ≠ .entered)
    (ended : ∀ answer, task.phase ≠ .ended answer) : task.IsDriving := by
  refine ⟨?_, ended⟩
  by_contra hne
  rcases h.idle task hmem hne with h' | ⟨answer, h'⟩
  · exact entered h'
  · exact ended answer h'

/-- Drives stay apart when one of them makes a call. -/
theorem DrivesApart.advance (h : s.DrivesApart maxAttempts) (i : Nat) (draw : DriveDraw) :
    (s.step codec maxAttempts (.advance i draw)).DrivesApart maxAttempts := by
  cases htask : s.tasks[i]? with
  | none =>
    simp only [step, htask]
    exact h
  | some task =>
    have hmem := List.mem_of_getElem? htask
    have inside : i < s.tasks.length := (List.getElem?_eq_some_iff.mp htask).1
    have starts : ∀ c, s.Starts c (.advance i draw) → task.IsDriving ∧ task.row.conflictId = c := by
      rintro c ⟨task', prior, p', htask', hphase, hid, _⟩
      cases htask.symm.trans htask'
      refine ⟨h.isDriving hmem (fun h' => ?_) (fun answer h' => ?_), hid⟩
      · cases hphase.symm.trans h'
      · cases hphase.symm.trans h'
    have attempts : ∀ c, ¬ s.Starts c (.advance i draw) →
        (s.step codec maxAttempts (.advance i draw)).attemptsOf c = s.attemptsOf c :=
      fun c => attemptsOf_step_of_not_starts codec maxAttempts
    have settles := ended_of_settles codec maxAttempts s.porch task.row draw task.phase
    rw [step_advance htask] at attempts ⊢
    -- a drive of the next state is the advanced one or another that was there
    have drives : ∀ j b, (s.tasks.set i ⟨task.row, (driveStep codec maxAttempts s.porch task.row
        draw task.phase).2⟩)[j]? = some b → i = j ∧ b = ⟨task.row, (driveStep codec maxAttempts
          s.porch task.row draw task.phase).2⟩ ∨ i ≠ j ∧ s.tasks[j]? = some b := by
      intro j b hb
      rw [List.getElem?_set] at hb
      split at hb
      · rename_i hij
        exact .inl ⟨hij, (Option.some.inj hb).symm⟩
      · rename_i hij
        exact .inr ⟨hij, hb⟩
    have at_work : DriveTask.IsDriving ⟨task.row, (driveStep codec maxAttempts s.porch task.row draw
        task.phase).2⟩ → task.IsDriving := by
      intro driving
      refine ⟨driving.1, fun answer hended => ?_⟩
      obtain ⟨answer', hended'⟩ := settles (.inr (.inr ⟨answer, hended⟩))
      exact driving.2 answer' hended'
    have apart : ∀ j b, i ≠ j → s.tasks[j]? = some b → b.IsDriving → task.IsDriving →
        task.row.conflictId ≠ b.row.conflictId :=
      fun j b hij hold hb hdriving heq => hij (h.apart i j task b htask hold hdriving hb heq)
    refine ⟨?_, ?_, ?_, ?_⟩
    · intro b hb hne
      obtain ⟨j, hj⟩ := List.mem_iff_getElem?.mp hb
      rcases drives j b hj with ⟨_, rfl⟩ | ⟨_, hold⟩
      · right
        rcases h.idle task hmem hne with hphase | hended
        · have hne' : task.row.status ≠ .pending := hne
          exact ⟨.ok .alreadyTerminal, by simp only [hphase, driveStep, if_pos hne']⟩
        · exact settles (.inr (.inr hended))
      · exact h.idle b (List.mem_of_getElem? hold) hne
    · intro j k a b hj hk ha hb heq
      rcases drives j a hj with ⟨rfl, rfl⟩ | ⟨hij, hold⟩ <;>
        rcases drives k b hk with ⟨rfl, rfl⟩ | ⟨hik, hold'⟩
      · rfl
      · exact absurd heq (apart k b hik hold' hb (at_work ha))
      · exact absurd heq.symm (apart j a hij hold ha (at_work hb))
      · exact h.apart j k a b hold hold' ha hb heq
    · intro b hb hdriving hopen
      obtain ⟨j, hj⟩ := List.mem_iff_getElem?.mp hb
      rcases drives j b hj with ⟨_, rfl⟩ | ⟨hij, hold⟩
      · have unsettled : ∀ v, task.phase ≠ .decided v := by
          intro v hv
          obtain ⟨answer, hended⟩ := settles (.inr (.inl ⟨v, hv⟩))
          exact hdriving.2 answer hended
        refine pending_advance_self unsettled (fun hexhausted => ?_)
          (h.pending task hmem (at_work hdriving) unsettled)
        obtain ⟨answer, hended⟩ := settles (.inl hexhausted)
        exact hdriving.2 answer hended
      · have pending := h.pending b (List.mem_of_getElem? hold) hdriving hopen
        by_cases hid : b.row.conflictId = task.row.conflictId
        · -- the advanced drive is not at work, so it settles nothing
          have resting : ¬ task.IsDriving := fun hd => apart j b hij hold hdriving hd hid.symm
          refine pending_advance_self (fun v hv => resting ?_) (fun hv => resting ?_) pending
          · exact h.isDriving hmem (fun h' => by cases hv.symm.trans h')
              fun answer h' => by cases hv.symm.trans h'
          · exact h.isDriving hmem (fun h' => by cases hv.symm.trans h')
              fun answer h' => by cases hv.symm.trans h'
        · exact pending_advance hid pending
    · intro b hb prior hadmitted
      obtain ⟨j, hj⟩ := List.mem_iff_getElem?.mp hb
      rcases drives j b hj with ⟨_, rfl⟩ | ⟨hij, hold⟩
      · obtain ⟨hroom, hsame⟩ := admitted_cases hadmitted
        unfold attemptsOf
        simp only [hsame]
        exact hroom
      · have hold_mem := List.mem_of_getElem? hold
        have driving : b.IsDriving :=
          h.isDriving hold_mem (fun h' => by cases hadmitted.symm.trans h')
          fun answer h' => by cases hadmitted.symm.trans h'
        rw [attempts _ fun hstarts => apart j b hij hold driving (starts _ hstarts).1
          (starts _ hstarts).2]
        exact h.room b hold_mem prior hadmitted

/-- Drives stay apart when the porch changes under them without settling their conflicts. -/
theorem DrivesApart.of_porch (h : s.DrivesApart maxAttempts) {p : Porch}
    (attempts : ∀ c, attemptsOf ⟨p, s.tasks⟩ c = s.attemptsOf c)
    (pending : ∀ task ∈ s.tasks, task.IsDriving → s.Pending task.row.conflictId →
      Pending ⟨p, s.tasks⟩ task.row.conflictId) : DrivesApart maxAttempts ⟨p, s.tasks⟩ where
  idle := h.idle
  apart := h.apart
  pending task hmem hdriving hopen :=
    pending task hmem hdriving (h.pending task hmem hdriving hopen)
  room task hmem prior hadmitted := by
    rw [attempts]
    exact h.room task hmem prior hadmitted

/-- A new pass over conflicts that nobody drives keeps the drives apart. -/
theorem DrivesApart.runOnce (h : s.DrivesApart maxAttempts) (exclusive : s.Exclusive .runOnce) :
    (s.step codec maxAttempts .runOnce).DrivesApart maxAttempts := by
  have listed : ∀ row ∈ s.porch.conflictQueueListUnresolved, row ∈ s.porch.conflictQueue.rows := by
    intro row hrow
    have hfiltered := (List.mem_insertionSort _).mp hrow
    exact (List.mem_filter.mp hfiltered).1
  have distinct : (s.porch.conflictQueueListUnresolved.map ConflictRow.conflictId).Nodup := by
    refine ((List.perm_insertionSort _ _).map _).nodup_iff.mpr ?_
    exact s.porch.conflictQueue.nodup.sublist (List.filter_sublist.map _)
  have drives : ∀ (j : Nat) (b : DriveTask), (s.tasks ++
      s.porch.conflictQueueListUnresolved.map fun row => ⟨row, .entered⟩)[j]? = some b →
        s.tasks[j]? = some b ∨ s.tasks.length ≤ j ∧ b.phase = .entered ∧
          s.porch.conflictQueueListUnresolved[j - s.tasks.length]? = some b.row := by
    intro j b hb
    rw [List.getElem?_append] at hb
    split at hb
    · exact .inl hb
    · rename_i hj
      rw [List.getElem?_map] at hb
      obtain ⟨row, hrow, rfl⟩ := Option.map_eq_some_iff.mp hb
      exact .inr ⟨not_lt.mp hj, rfl, hrow⟩
  refine ⟨?_, ?_, ?_, ?_⟩
  · intro b hb hne
    obtain ⟨j, hj⟩ := List.mem_iff_getElem?.mp hb
    rcases drives j b hj with hold | ⟨_, hphase, _⟩
    · exact h.idle b (List.mem_of_getElem? hold) hne
    · exact .inl hphase
  · intro j k a b hj hk ha hb heq
    rcases drives j a hj with hold | ⟨hlj, _, hrow⟩ <;>
      rcases drives k b hk with hold' | ⟨hlk, _, hrow'⟩
    · exact h.apart j k a b hold hold' ha hb heq
    · exact absurd heq.symm (exclusive a (List.mem_of_getElem? hold) ha b.row
        (List.mem_of_getElem? hrow') hb.1)
    · exact absurd heq (exclusive b (List.mem_of_getElem? hold') hb a.row
        (List.mem_of_getElem? hrow) ha.1)
    · have hmap : (s.porch.conflictQueueListUnresolved.map ConflictRow.conflictId)[j -
          s.tasks.length]? = (s.porch.conflictQueueListUnresolved.map ConflictRow.conflictId)[k -
          s.tasks.length]? := by
        rw [List.getElem?_map, List.getElem?_map, hrow, hrow', Option.map_some, Option.map_some,
          heq]
      have inside : j - s.tasks.length <
          (s.porch.conflictQueueListUnresolved.map ConflictRow.conflictId).length := by
        rw [List.length_map]
        exact (List.getElem?_eq_some_iff.mp hrow).1
      have same := (List.getElem?_inj inside distinct).mp hmap
      omega
  · intro b hb hdriving hopen
    obtain ⟨j, hj⟩ := List.mem_iff_getElem?.mp hb
    rcases drives j b hj with hold | ⟨_, _, hrow⟩
    · exact h.pending b (List.mem_of_getElem? hold) hdriving hopen
    · exact ⟨b.row, listed b.row (List.mem_of_getElem? hrow), rfl, hdriving.1⟩
  · intro b hb prior hadmitted
    obtain ⟨j, hj⟩ := List.mem_iff_getElem?.mp hb
    rcases drives j b hj with hold | ⟨_, hphase, _⟩
    · exact h.room b (List.mem_of_getElem? hold) prior hadmitted
    · cases hadmitted.symm.trans hphase

/-- Without a task nothing is driven. -/
theorem drivesApart_of_idle (idle : s.tasks = []) : s.DrivesApart maxAttempts := by
  have none : ∀ task, task ∉ s.tasks := by
    rw [idle]
    exact fun _ => List.not_mem_nil
  refine ⟨fun task h => absurd h (none task), fun i j a b h => ?_,
    fun task h => absurd h (none task),
    fun task h => absurd h (none task)⟩
  exact absurd (List.mem_of_getElem? h) (none a)

/-- Drives stay apart at every exclusive event. -/
theorem DrivesApart.step (h : s.DrivesApart maxAttempts) (exclusive : s.Exclusive e) :
    (s.step codec maxAttempts e).DrivesApart maxAttempts := by
  cases e with
  | advance i draw => exact h.advance i draw
  | runOnce => exact h.runOnce exclusive
  | restart => exact drivesApart_of_idle rfl
  | heartbeat i contextBlob partialVerdict =>
    simp only [AgentState.step]
    split
    · exact h.of_porch (fun _ => Porch.length_getAttempts_updateAttempt fun _ => rfl)
        fun _ _ _ hpending => hpending
    · exact h
  | enqueue record conflictId now =>
    simp only [AgentState.step]
    split
    · rename_i p' henqueue
      unfold Porch.enqueue at henqueue
      split at henqueue
      · rename_i queue hinsert
        cases henqueue
        refine h.of_porch (fun _ => rfl) fun task _ _ hpending => ?_
        obtain ⟨row, hrow, hstatus⟩ := hpending
        exact ⟨row, (KeyedTable.mem_rows_of_insert? hinsert).mpr (.inl hrow), hstatus⟩
      · cases henqueue
    · exact h
  | manualResolve conflictId verdictJson now =>
    simp only [AgentState.step]
    split
    · rename_i p' hresolve
      rw [Porch.conflictQueueManualResolve_eq_ok hresolve]
      refine h.of_porch (fun _ => rfl) fun task hmem hdriving hpending => ?_
      refine pending_updateConflicts _ (fun r hsel heq => ?_) hpending
      exact exclusive task hmem hdriving (heq ▸ (of_decide_eq_true hsel).1)
    · exact h

/-- **Exclusive drives keep the budget.** Where no pass takes up a conflict that is being driven
and the user leaves it alone, no conflict has more attempts than the budget and none is attempted
after it was settled. -/
theorem keepsBudget_of_exclusive {events : List AgentEvent} (idle : s.tasks = [])
    (start : ∀ conflictId, s.attemptsOf conflictId ≤ maxAttempts)
    (exclusive : Machine.Along (AgentState.step codec maxAttempts) Exclusive s events) :
    s.KeepsBudget codec maxAttempts events :=
  keepsBudget_of_fresh start (exclusive.of_invariant (DrivesApart maxAttempts)
    (fun _ _ hexclusive h => h.step hexclusive) (fun _ _ _ h => h.startsOnFreshReading)
    (drivesApart_of_idle idle))

end AgentState

/-! ## Two passes at once -/

/-- A drive is taken through a number of attempts that all time out. -/
def timeouts (i : Nat) (ids : List String) : List AgentEvent :=
  ids.flatMap fun id => [.advance i ⟨"", 3, none⟩, .advance i ⟨id, 3, none⟩,
    .advance i ⟨"", 4, some (.timeout ⟨"half way", none⟩)⟩]

/-- Two passes drive one conflict. The first makes four attempts, both check the budget of five,
and both start an attempt. -/
def twoPasses : List AgentEvent :=
  [.runOnce, .runOnce, .advance 0 ⟨"", 3, none⟩] ++ timeouts 0 ["a", "b", "c", "d"] ++
    [.advance 0 ⟨"", 5, none⟩, .advance 1 ⟨"", 5, none⟩, .advance 1 ⟨"", 5, none⟩,
      .advance 0 ⟨"e", 5, none⟩, .advance 1 ⟨"f", 5, none⟩]

/-- The user decides after a drive was admitted, and the drive starts its attempt. -/
def startedLate : List AgentEvent :=
  [.runOnce, .advance 0 ⟨"", 3, none⟩, .advance 0 ⟨"", 3, none⟩,
    .manualResolve "conflict" (renderJson userVerdict.toJson) 4]

namespace AgentState

/-- No attempt has been made yet. -/
private theorem attemptsOf_oneConflict (conflictId : String) :
    oneConflict.attemptsOf conflictId = 0 := by
  have empty : oneConflict.porch.conflictAttempts.rows = [] := by decide
  rw [attemptsOf, Porch.length_conflictQueueGetAttempts, empty]
  rfl

/-- One pass makes all the attempts there may be. -/
theorem keepsBudget_of_exclusive_onePass : oneConflict.KeepsBudget userCodec defaultMaxAttempts
    (.runOnce :: .advance 0 ⟨"", 3, none⟩ :: timeouts 0 ["a", "b", "c", "d", "e"]) := by
  refine keepsBudget_of_exclusive rfl (fun conflictId => ?_) ⟨fun task none => ?_, trivial, ?_⟩
  · rw [attemptsOf_oneConflict]
    exact Nat.zero_le _
  · cases none
  · refine Machine.Along.of_mem (R := fun e => ∃ i draw, e = .advance i draw) ?_ ?_
    · rintro s _ ⟨i, draw, rfl⟩
      trivial
    · intro e mem
      obtain ⟨id, -, mem⟩ := List.mem_flatMap.mp mem
      rcases List.mem_cons.mp mem with rfl | mem
      · exact ⟨_, _, rfl⟩
      · rcases List.mem_cons.mp mem with rfl | mem
        · exact ⟨_, _, rfl⟩
        · exact ⟨_, _, List.mem_singleton.mp mem⟩

end AgentState

end Concorrd
