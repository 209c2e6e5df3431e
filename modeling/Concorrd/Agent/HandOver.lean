import Concorrd.Agent.Runs
import Concorrd.HeroSync.Detection

/-!
# What an attempt inherits

One conflict is driven again and again: a drive runs until it ends or the process restarts, and
then the next pass starts another. Within a drive the last attempt is in memory; a new drive
takes the last one by start time from the table, where a restart may have left it running.

`handsOver_along` says that every attempt inherits the last snapshot of its predecessor along
every run whose drives start over an attempt that is finalized and last by start time.
-/

namespace Concorrd

/-- The attempts of a conflict in the order they were made. -/
def Porch.attemptRows (p : Porch) (conflictId : String) : List AgentAttempt :=
  p.conflictAttempts.rows.filter fun a => a.conflictId = conflictId

/-- The attempt made last. -/
def Porch.lastAttempt (p : Porch) (conflictId : String) : Option AgentAttempt :=
  (p.attemptRows conflictId).getLast?

/-- The preamble is right for the attempt before: it carries the last snapshot of one that neither
succeeded nor was aborted, and there is none after any other. -/
def HandsOver (predecessor : Option AgentAttempt) (preamble : Option String) : Prop :=
  match predecessor with
  | none => preamble = none
  | some a =>
    if a.state = .succeeded ∨ a.state = .aborted then preamble = none
    else ∃ state snapshot,
      preamble = some (buildPreviousSessionPreamble a.attemptId state snapshot) ∧
      ∀ blob, a.partialContextBlob = some blob → snapshot = blob

/-! ## Drives of one conflict, one after another -/

/-- The porch and the drive that is alive, if there is one. -/
structure SoloState where
  porch : Porch
  drive : Option DriveTask

/-- What can happen. `elsewhere` is whatever else happens to the porch. -/
inductive SoloEvent where
  | begin (row : ConflictRow)
  | advance (draw : DriveDraw)
  | heartbeat (contextBlob : String) (partialVerdict : Option Verdict)
  | elsewhere (porch : Porch)
  | restart

namespace SoloState

section

variable (codec : JsonCodec) (maxAttempts : Nat) (conflictId : String)

/-- A drive starts on a row its pass lists when the one before has ended. What happens elsewhere
does not touch the attempts of the conflict. -/
def step (s : SoloState) : SoloEvent → SoloState
  | .begin row =>
    match s.drive with
    | none | some ⟨_, .ended _⟩ =>
      if row ∈ s.porch.conflictQueueListUnresolved ∧ row.conflictId = conflictId then
        { s with drive := some ⟨row, .entered⟩ }
      else s
    | some _ => s
  | .advance draw =>
    match s.drive with
    | none => s
    | some task =>
      let (p, phase) := driveStep codec maxAttempts s.porch task.row draw task.phase
      ⟨p, some ⟨task.row, phase⟩⟩
  | .heartbeat contextBlob partialVerdict =>
    match s.drive with
    | some ⟨_, .resolving attemptId _⟩ =>
      { s with
        porch := s.porch.snapshot attemptId contextBlob
          (partialVerdict.map fun v => codec.toString v.toJson) }
    | _ => s
  | .elsewhere porch =>
    if porch.attemptRows conflictId = s.porch.attemptRows conflictId then { s with porch := porch }
    else s
  | .restart => { s with drive := none }

/-- An attempt that the event starts inherits from the attempt before. -/
def HandsOverAt (s : SoloState) : SoloEvent → Prop
  | .advance draw =>
    match s.drive with
    | some ⟨row, .admitted prior⟩ =>
      ∀ p', s.porch.conflictAttemptsInsertRunning draw.attemptId row.conflictId draw.now = .ok p' →
        HandsOver (s.porch.lastAttempt conflictId) (row.input prior).previousSessionPreamble
    | _ => True
  | _ => True

/-- A drive that reads the table finds the attempt made last to be the last by start time, and
finalized. -/
def ReadsPredecessor (s : SoloState) : SoloEvent → Prop
  | .advance _ =>
    match s.drive with
    | some ⟨_, .entered⟩ =>
      (s.porch.conflictQueueGetAttempts conflictId).getLast? = s.porch.lastAttempt conflictId ∧
        (s.porch.lastAttempt conflictId).map AgentAttempt.state ≠ some .running
    | _ => True
  | _ => True

end

end SoloState

/-! ## The last attempt -/

section

variable {p p' : Porch} {conflictId attemptId : String} {startedAt : Int64} {a : AgentAttempt}

theorem attemptRows_updateAttempt {set : AgentAttempt → AgentAttempt}
    {hset : ∀ a, (set a).attemptId = a.attemptId}
    (hconflict : ∀ a, (set a).conflictId = a.conflictId) :
    (p.updateAttempt attemptId set hset).attemptRows conflictId =
      (p.attemptRows conflictId).map fun a => if a.attemptId = attemptId then set a else a := by
  have same : ∀ a : AgentAttempt, (if a.attemptId = attemptId then set a else a).conflictId =
      a.conflictId := by
    intro a
    split
    · exact hconflict a
    · rfl
  simp only [Porch.attemptRows, Porch.updateAttempt, KeyedTable.updateWhere, List.filter_map,
    Function.comp_def, decide_eq_true_eq, same]

/-- An update of the last attempt is seen on it. -/
theorem lastAttempt_updateAttempt {set : AgentAttempt → AgentAttempt}
    {hset : ∀ a, (set a).attemptId = a.attemptId}
    (hconflict : ∀ a, (set a).conflictId = a.conflictId)
    (hlast : p.lastAttempt conflictId = some a) (hid : a.attemptId = attemptId) :
    (p.updateAttempt attemptId set hset).lastAttempt conflictId = some (set a) := by
  unfold Porch.lastAttempt at hlast ⊢
  rw [attemptRows_updateAttempt hconflict, List.getLast?_map, hlast, Option.map_some, if_pos hid]

theorem lastAttempt_snapshot {contextBlob : String} {partialVerdictJson : Option String}
    (hlast : p.lastAttempt conflictId = some a) (hid : a.attemptId = attemptId) :
    (p.snapshot attemptId contextBlob partialVerdictJson).lastAttempt conflictId =
      some (Porch.snapshotSet contextBlob partialVerdictJson a) :=
  lastAttempt_updateAttempt (fun _ => rfl) hlast hid

/-- A started attempt is the last. -/
theorem lastAttempt_insertRunning
    (h : p.conflictAttemptsInsertRunning attemptId conflictId startedAt = .ok p') :
    p'.lastAttempt conflictId =
      some ⟨attemptId, conflictId, startedAt, none, .running, none, none⟩ := by
  obtain ⟨_, _, _, rows⟩ := Porch.conflictAttemptsInsertRunning_eq_ok_iff.mp h
  unfold Porch.lastAttempt Porch.attemptRows
  rw [rows, List.filter_append, List.filter_cons, if_pos (decide_eq_true rfl), List.filter_nil,
    List.getLast?_concat]

/-- Past an attempt that is finalized, the preamble of a drive is right. -/
theorem handsOver_of_finalized {last : Option AgentAttempt}
    (finalized : last.map AgentAttempt.state ≠ some .running) :
    HandsOver last (preambleAfter last) := by
  cases last with
  | none => rfl
  | some a =>
    simp only [HandsOver, preambleAfter]
    cases hstate : a.state with
    | running => exact absurd (congrArg some hstate) finalized
    | succeeded => simp
    | aborted => simp
    | timeout =>
      simp only [reduceCtorEq, or_self, if_false, if_true]
      refine ⟨.timeout, _, rfl, fun blob hblob => ?_⟩
      rw [hblob, Option.getD_some]

/-- An attempt that ended without success is handed over from memory as the table has it. -/
theorem handsOver_endAttempt {row : ConflictRow} {args : AttemptArgs} {state : AttemptState}
    {blob : String} {verdictJson : Option String} (hlast : p.lastAttempt conflictId = some a)
    (hid : a.attemptId = args.attemptId) (hstate : state = .timeout ∨ state = .aborted) :
    HandsOver ((p.endAttempt row args state blob verdictJson).1.lastAttempt conflictId)
      (preambleAfter (some (p.endAttempt row args state blob verdictJson).2)) := by
  have last : (p.endAttempt row args state blob verdictJson).1.lastAttempt conflictId =
      some (Porch.finalizeSet state args.endedAt (some blob) verdictJson a) :=
    lastAttempt_updateAttempt (fun _ => rfl) hlast hid
  rw [last]
  simp only [HandsOver, preambleAfter, Porch.endAttempt, Porch.finalizeSet]
  rcases hstate with rfl | rfl
  · simp only [reduceCtorEq, or_self, if_false, if_true]
    refine ⟨.timeout, blob, by rw [hid, Option.getD_some], fun blob' hblob => ?_⟩
    exact Option.some.inj hblob
  · simp

end

/-- What a drive remembers of the attempt made last. -/
def Porch.RemembersLast (p : Porch) (conflictId : String) : DrivePhase → Prop
  | .looking prior | .admitted prior =>
    HandsOver (p.lastAttempt conflictId) (preambleAfter prior)
  | .resolving attemptId _ | .expired attemptId _ _ _ =>
    (p.lastAttempt conflictId).map AgentAttempt.attemptId = some attemptId
  | _ => True

/-- A call of a drive that reads its predecessor keeps what it remembers right. -/
theorem remembersLast_driveStep {codec : JsonCodec} {maxAttempts : Nat} {p : Porch}
    {row : ConflictRow} {phase : DrivePhase} (draw : DriveDraw)
    (h : p.RemembersLast row.conflictId phase)
    (reads : phase = .entered →
      (p.conflictQueueGetAttempts row.conflictId).getLast? = p.lastAttempt row.conflictId ∧
        (p.lastAttempt row.conflictId).map AgentAttempt.state ≠ some .running) :
    (driveStep codec maxAttempts p row draw phase).1.RemembersLast row.conflictId
      (driveStep codec maxAttempts p row draw phase).2 := by
  cases phase with
  | entered =>
    obtain ⟨hlast, finalized⟩ := reads rfl
    simp only [driveStep]
    split
    · trivial
    · show HandsOver _ (preambleAfter _)
      rw [hlast]
      exact handsOver_of_finalized finalized
  | looking prior =>
    simp only [driveStep]
    split
    · trivial
    · exact h
  | exhausted => trivial
  | admitted prior =>
    simp only [driveStep]
    split
    · trivial
    · rename_i hinsert
      show (Porch.lastAttempt _ _).map _ = _
      rw [lastAttempt_insertRunning hinsert]
      rfl
  | resolving attemptId startedAt =>
    obtain ⟨a, hlast, hattempt⟩ := Option.map_eq_some_iff.mp h
    simp only [driveStep]
    split
    · trivial
    · exact handsOver_endAttempt hlast hattempt (.inl rfl)
    · exact handsOver_endAttempt hlast hattempt (.inr rfl)
    · exact h
  | expired attemptId startedAt endedAt snapshot =>
    obtain ⟨a, hlast, hattempt⟩ := Option.map_eq_some_iff.mp h
    exact handsOver_endAttempt hlast hattempt (.inl rfl)
  | decided verdictJson => trivial
  | ended answer => trivial

/-- Only the attempts of the conflict matter to what a drive remembers. -/
theorem remembersLast_congr {p p' : Porch} {conflictId : String} {phase : DrivePhase}
    (same : p'.attemptRows conflictId = p.attemptRows conflictId)
    (h : p.RemembersLast conflictId phase) : p'.RemembersLast conflictId phase := by
  have hlast : p'.lastAttempt conflictId = p.lastAttempt conflictId := congrArg List.getLast? same
  cases phase with
  | looking prior =>
    show HandsOver _ _
    rw [hlast]
    exact h
  | admitted prior =>
    show HandsOver _ _
    rw [hlast]
    exact h
  | resolving attemptId startedAt =>
    show Option.map _ _ = _
    rw [hlast]
    exact h
  | expired attemptId startedAt endedAt snapshot =>
    show Option.map _ _ = _
    rw [hlast]
    exact h
  | _ => trivial

namespace SoloState

variable {codec : JsonCodec} {maxAttempts : Nat} {conflictId : String} {s : SoloState}

/-- The drive that is alive remembers the attempt made last. -/
def Remembers (conflictId : String) (s : SoloState) : Prop :=
  ∀ task, s.drive = some task →
    task.row.conflictId = conflictId ∧ s.porch.RemembersLast conflictId task.phase

theorem remembers_of_idle (h : s.drive = none) : s.Remembers conflictId := by
  intro task htask
  rw [h] at htask
  cases htask

/-- A heartbeat is written to the attempt made last, which stays the last. -/
theorem Remembers.heartbeat (h : s.Remembers conflictId) (contextBlob : String)
    (partialVerdict : Option Verdict) :
    (s.step codec maxAttempts conflictId (.heartbeat contextBlob partialVerdict)).Remembers
      conflictId := by
  simp only [step]
  split
  · rename_i row attemptId startedAt hdrive
    obtain ⟨hid, hlast⟩ := h _ hdrive
    intro task htask
    rw [show task = _ from Option.some.inj (htask.symm.trans hdrive)]
    refine ⟨hid, ?_⟩
    obtain ⟨a, hlast, hattempt⟩ := Option.map_eq_some_iff.mp hlast
    show Option.map _ (Porch.lastAttempt (Porch.snapshot _ _ _ _) _) = _
    rw [lastAttempt_snapshot hlast hattempt]
    exact congrArg some hattempt
  · exact h

/-- Where drives read their predecessor, they remember it. -/
theorem Remembers.step {e : SoloEvent} (reads : s.ReadsPredecessor conflictId e)
    (h : s.Remembers conflictId) :
    (s.step codec maxAttempts conflictId e).Remembers conflictId := by
  cases e with
  | begin row =>
    have starts : ∀ s' : SoloState, s' = { s with drive := some ⟨row, .entered⟩ } →
        row.conflictId = conflictId → s'.Remembers conflictId := by
      rintro s' rfl hid task htask
      cases htask
      exact ⟨hid, trivial⟩
    simp only [SoloState.step]
    split
    · split
      · rename_i hlisted
        exact starts _ rfl hlisted.2
      · exact h
    · split
      · rename_i hlisted
        exact starts _ rfl hlisted.2
      · exact h
    · exact h
  | advance draw =>
    obtain ⟨p, drive⟩ := s
    cases drive with
    | none => exact h
    | some task =>
      obtain ⟨row, phase⟩ := task
      obtain ⟨rfl, hphase⟩ := h _ rfl
      intro task' htask'
      cases htask'
      refine ⟨rfl, remembersLast_driveStep draw hphase fun hentered => ?_⟩
      subst hentered
      exact reads
  | heartbeat contextBlob partialVerdict => exact h.heartbeat contextBlob partialVerdict
  | elsewhere porch =>
    simp only [SoloState.step]
    split
    · rename_i same
      exact fun task htask => ⟨(h task htask).1, remembersLast_congr same (h task htask).2⟩
    · exact h
  | restart => exact remembers_of_idle rfl

/-- An attempt of a drive that remembers its predecessor inherits from it. -/
theorem Remembers.handsOverAt {e : SoloEvent} (h : s.Remembers conflictId) :
    s.HandsOverAt conflictId e := by
  cases e with
  | advance draw =>
    simp only [HandsOverAt]
    split
    · rename_i hdrive
      exact fun _ _ => (h _ hdrive).2
    · trivial
  | _ => trivial

/-- **Attempts inherit the last snapshot of their predecessor.** Along every run of drives of one
conflict, with any resolver results, heartbeats, timeouts, changes elsewhere and restarts, in which
a drive starts over an attempt that is finalized and last by start time. -/
theorem handsOver_along {events : List SoloEvent} (idle : s.drive = none)
    (reads : Machine.Along (step codec maxAttempts conflictId) (ReadsPredecessor conflictId) s
      events) :
    Machine.Along (step codec maxAttempts conflictId) (HandsOverAt conflictId) s events :=
  reads.of_invariant (Remembers conflictId) (fun _ _ => Remembers.step)
    (fun _ _ _ => Remembers.handsOverAt) (remembers_of_idle idle)

instance (conflictId : String) :
    ∀ s e, Decidable (ReadsPredecessor conflictId s e) := by
  intro s e
  unfold ReadsPredecessor
  split
  · split
    · infer_instance
    · infer_instance
  · infer_instance

/-- The conflict, queued and driven by nobody. -/
def oneConflict : SoloState := ⟨AgentState.oneConflict.porch, none⟩

/-- The row its passes list. -/
def conflictRow : ConflictRow :=
  ⟨"conflict", ConflictKind.aclChange.asStr, renderJson (.obj []), 2, none, none, .pending⟩

/-- A drive makes an attempt, with a heartbeat before the clock runs out. -/
def oneTimeout : List SoloEvent :=
  [.begin conflictRow, .advance ⟨"", 3, none⟩, .advance ⟨"", 3, none⟩, .advance ⟨"a", 3, none⟩,
    .heartbeat "one third" none, .advance ⟨"", 4, none⟩, .advance ⟨"", 4, none⟩]

/-- After a restart another drive makes an attempt, which ends with the resolver's own timeout, and
a third one. -/
def restarted : List SoloEvent :=
  [.restart, .begin conflictRow, .advance ⟨"", 5, none⟩, .advance ⟨"", 5, none⟩,
    .advance ⟨"b", 5, none⟩, .advance ⟨"", 6, some (.timeout ⟨"half way", none⟩)⟩,
    .advance ⟨"", 6, none⟩, .advance ⟨"c", 6, none⟩]

theorem handsOver_along_restarted :
    oneConflict.drive = none ∧
    Machine.Along (step userCodec defaultMaxAttempts "conflict") (ReadsPredecessor "conflict")
      oneConflict (oneTimeout ++ restarted) ∧
    Machine.Along (step userCodec defaultMaxAttempts "conflict") (HandsOverAt "conflict")
      oneConflict (oneTimeout ++ restarted) := by
  have reads : Machine.Along (step userCodec defaultMaxAttempts "conflict")
      (ReadsPredecessor "conflict") oneConflict (oneTimeout ++ restarted) := by
    decide
  exact ⟨rfl, reads, handsOver_along rfl reads⟩

/-- The process restarts while the resolver is at work, and the next drive is admitted. -/
def interrupted : List SoloEvent :=
  oneTimeout.take 5 ++
    [.restart, .begin conflictRow, .advance ⟨"", 5, none⟩, .advance ⟨"", 5, none⟩]

/-- The next attempt after one that was interrupted inherits nothing of its last snapshot. -/
theorem snapshot_lost :
    ∃ s : SoloState, ∃ last : AgentAttempt,
      s = Machine.run (step userCodec defaultMaxAttempts "conflict") oneConflict interrupted ∧
      s.porch.lastAttempt "conflict" = some last ∧ last.state = .running ∧
      last.partialContextBlob = some "one third" ∧
      s.drive = some ⟨conflictRow, .admitted (some last)⟩ ∧
      (conflictRow.input (some last)).previousSessionPreamble = none ∧
      (s.step userCodec defaultMaxAttempts "conflict" (.advance ⟨"b", 5, none⟩)).drive =
        some ⟨conflictRow, .resolving "b" 5⟩ ∧
      ¬ Machine.Along (step userCodec defaultMaxAttempts "conflict") (HandsOverAt "conflict")
        oneConflict (interrupted ++ [.advance ⟨"b", 5, none⟩]) := by
  obtain ⟨s, hs⟩ : ∃ s, s = Machine.run (step userCodec defaultMaxAttempts "conflict") oneConflict
    interrupted := ⟨_, rfl⟩
  have hlast : s.porch.lastAttempt "conflict" =
      some ⟨"a", "conflict", 3, none, .running, some "one third", none⟩ := by
    rw [hs]
    decide
  have hdrive : s.drive = some ⟨conflictRow,
      .admitted (some ⟨"a", "conflict", 3, none, .running, some "one third", none⟩)⟩ := by
    rw [hs]
    decide
  have hstep : (s.step userCodec defaultMaxAttempts "conflict" (.advance ⟨"b", 5, none⟩)).drive =
      some ⟨conflictRow, .resolving "b" 5⟩ := by
    rw [hs]
    decide
  refine ⟨s, _, hs, hlast, rfl, rfl, hdrive, rfl, hstep, fun h => ?_⟩
  have hands := Machine.along_iff.mp h interrupted _ [] rfl
  rw [← hs] at hands
  have starts : (s.porch.conflictAttemptsInsertRunning "b" "conflict" 5).toOption.isSome := by
    rw [hs]
    decide
  cases hinsert : s.porch.conflictAttemptsInsertRunning "b" "conflict" 5 with
  | error e =>
    rw [hinsert] at starts
    cases starts
  | ok p' =>
    simp only [HandsOverAt, hdrive] at hands
    have carried := hands p' hinsert
    rw [hlast] at carried
    obtain ⟨_, _, hpreamble, _⟩ := carried
    cases hpreamble

end SoloState

end Concorrd
