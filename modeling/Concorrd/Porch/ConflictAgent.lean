import Concorrd.Lib.Json
import Concorrd.Porch.ConflictStore

/-!
# The conflict agent

`deterministicVerdict` applies the merge rules to the text of a queued payload. `driveOne`
runs a resolver against one queued conflict until it succeeds or the retry budget is spent;
a resolver's run is the heartbeats it wrote and how it ended.

`driveOne_isSome` says that a drive ends. `driveOne_of_aborts` says where it ends when the
resolver never gets anywhere.
-/

namespace Concorrd

/-! ## Verdicts -/

/-- Verdict discriminator. -/
inductive VerdictKind where
  | pickA
  | pickB
  | newValue (payloadJson : String)
  | defer
  deriving DecidableEq, Repr

/-- What a resolver decides. The confidence is a decimal that nothing computes with. -/
structure Verdict where
  verdictKind : VerdictKind
  rationale : String
  confidence : String
  deriving DecidableEq, Repr

/-- The tagged object of the discriminator. -/
def VerdictKind.toJson : VerdictKind → Json
  | .pickA => .obj [("kind", .str "pick_a")]
  | .pickB => .obj [("kind", .str "pick_b")]
  | .newValue payloadJson => .obj [("kind", .str "new_value"), ("payload_json", .str payloadJson)]
  | .defer => .obj [("kind", .str "defer")]

/-- The envelope of a verdict. -/
def Verdict.toJson (v : Verdict) : Json :=
  .obj [("verdict_kind", v.verdictKind.toJson), ("rationale", .str v.rationale),
    ("confidence", .float v.confidence)]

/-- The row of the side a verdict picks, of the first and the second competing event. -/
def VerdictKind.picked {α : Type} (first second : α) : VerdictKind → Option α
  | .pickA => some first
  | .pickB => some second
  | _ => none

/-- The value, or the error where there is none. -/
def okOr {α : Type} (value : Option α) (error : String) : Except String α :=
  value.elim (.error error) .ok

/-- Read the discriminator back. -/
def VerdictKind.ofJson (value : Json) : Except String VerdictKind := do
  match ← okOr ((value.get "kind").bind Json.asStr) "missing field: kind" with
  | "pick_a" => .ok .pickA
  | "pick_b" => .ok .pickB
  | "new_value" =>
    (okOr ((value.get "payload_json").bind Json.asStr) "missing field: payload_json").map .newValue
  | "defer" => .ok .defer
  | other => .error ("unknown variant: " ++ other)

/-- Read a verdict back. -/
def Verdict.ofJson (value : Json) : Except String Verdict := do
  let verdictKind ← (okOr (value.get "verdict_kind") "missing field: verdict_kind").bind
    VerdictKind.ofJson
  let rationale ← okOr ((value.get "rationale").bind Json.asStr) "missing field: rationale"
  let confidence ← okOr ((value.get "confidence").bind Json.asF32) "missing field: confidence"
  .ok ⟨verdictKind, rationale, confidence⟩

/-- Apply the rules to a payload. -/
def deterministicVerdict (codec : JsonCodec) (conflictKind payloadJson : String) :
    Except String Verdict := do
  let parsed ← (codec.fromStr payloadJson).mapError ("payload_json parse error: " ++ ·)
  let eventA ← okOr (parsed.get "event_a") "missing event_a"
  let eventB ← okOr (parsed.get "event_b") "missing event_b"
  let lamportA ← okOr ((eventA.get "lamport").bind Json.asI64) "event_a missing lamport"
  let lamportB ← okOr ((eventB.get "lamport").bind Json.asI64) "event_b missing lamport"
  let deviceA ← okOr ((eventA.get "device_id").bind Json.asStr) "event_a missing device_id"
  let deviceB ← okOr ((eventB.get "device_id").bind Json.asStr) "event_b missing device_id"
  let firstWins := decide ((toLex (lamportB, deviceB) : Stamp) ≤ toLex (lamportA, deviceA))
  match conflictKind with
  | "concurrent_rename" | "concurrent_channel_rename" =>
    let (winner, kind) :=
      if firstWins then ("event_a", VerdictKind.pickA) else ("event_b", VerdictKind.pickB)
    .ok ⟨kind, "LWW resolution: " ++ winner ++ " wins (lamport_a=" ++ toString lamportA ++
      ", lamport_b=" ++ toString lamportB ++ ", tie→device_id)", "0.85"⟩
  | "tombstone_vs_write" | "concurrent_delete_and_post" =>
    .ok ⟨.newValue (codec.toString
        (.obj [("preserve_event_b_message", .bool true), ("resurrect_channel", .bool true)])),
      "tombstone_vs_write: preserve the post; resurrect the channel", "0.55"⟩
  | "concurrent_role_change" | "acl_change" =>
    let revoke (event : Json) : Bool :=
      (((event.get "payload").bind (Json.get · "is_revoke")).bind Json.asBool).getD false
    let kind : VerdictKind :=
      match revoke eventA, revoke eventB with
      | true, _ => .pickA
      | false, true => .pickB
      | false, false => if firstWins then .pickA else .pickB
    .ok ⟨kind, "ACL change: revoke beats grant; tie→LWW", "0.6"⟩
  | other => .error ("deterministic resolver: unknown conflict_kind " ++ other.quote)

/-- A payload that parses to a value without a first event gets no verdict. -/
theorem deterministicVerdict_of_no_event {codec : JsonCodec} {kind payloadJson : String}
    {parsed : Json} (hparse : codec.fromStr payloadJson = .ok parsed)
    (hevent : parsed.get "event_a" = none) :
    deterministicVerdict codec kind payloadJson = .error "missing event_a" := by
  unfold deterministicVerdict
  simp only [hparse, hevent, Except.mapError, okOr, Option.elim_none, bind, Except.bind]

/-! ## Resolvers -/

/-- A resolver's working state when it timed out. -/
structure PartialContext where
  contextBlob : String
  partialVerdict : Option Verdict

/-- Outcome of a single dispatch. -/
inductive ResolverResult where
  | succeeded (verdict : Verdict)
  | timeout (context : PartialContext)
  | aborted (reason : String)

/-- What a resolver is given. -/
structure ConflictInput where
  conflictId : String
  conflictKind : String
  payloadJson : String
  previousSessionPreamble : Option String

/-- One run of a resolver: its heartbeats in order, and its result unless the wall clock ran
out first. -/
structure ResolverRun where
  heartbeats : List (String × Option Verdict)
  result : Option ResolverResult

/-- The resolver that applies the rules. It never runs out of time. -/
def deterministicResolver (codec : JsonCodec) (input : ConflictInput) : ResolverRun where
  heartbeats := [("deterministic resolver: applying RFC §5.c rule", none)]
  result := some <|
    match deterministicVerdict codec input.conflictKind input.payloadJson with
    | .ok v => .succeeded v
    | .error reason => .aborted reason

/-- The envelope that hands a snapshot to the next attempt. -/
def buildPreviousSessionPreamble (priorAttemptId : String) (priorState : AttemptState)
    (snapshot : String) : String :=
  "<<previous-session>>\nattempt: " ++ priorAttemptId ++ "\nstate: " ++ priorState.asStr ++
    "\nsnapshot:\n" ++ snapshot ++ "\n<</previous-session>>"

/-! ## The drive -/

/-- Default retry budget. -/
def defaultMaxAttempts : Nat := 5

/-- Where a drive of one conflict ends. -/
inductive DriveOutcome where
  | resolved
  | manualRequired
  | alreadyTerminal
  deriving DecidableEq, Repr

/-- What one attempt draws from the clock and the generator of ids. -/
structure AttemptArgs where
  attemptId : String
  startedAt : Int64
  endedAt : Int64
  resolvedAt : Int64

/-- The preamble that follows a prior attempt. -/
def preambleAfter (prior : Option AgentAttempt) : Option String :=
  match prior with
  | some a =>
    if a.state = .timeout then
      some (buildPreviousSessionPreamble a.attemptId a.state
        (a.partialContextBlob.getD "<no snapshot>"))
    else none
  | none => none

namespace Porch

/-- Record the verdict a user gave, on a conflict that is not resolved. The text has to read
as a verdict. -/
def conflictQueueManualResolve (codec : JsonCodec) (p : Porch) (conflictId verdictJson : String)
    (now : Int64) : Except PorchError Porch :=
  match (codec.fromStr verdictJson).bind Verdict.ofJson with
  | .error detail => .error (.serde detail)
  | .ok _ =>
    if p.conflictQueue.rows.any fun r => r.conflictId = conflictId ∧ r.status ≠ .resolved then
      .ok (p.updateConflicts (fun r => r.conflictId = conflictId ∧ r.status ≠ .resolved)
        (verdictSet verdictJson now) (conflictId_verdictSet verdictJson now))
    else .error (.invalidInput ("no unresolved conflict with id " ++ conflictId))

/-- A verdict that is taken settles every unresolved row of its conflict. -/
theorem conflictQueueManualResolve_eq_ok {codec : JsonCodec} {p p' : Porch}
    {conflictId verdictJson : String} {now : Int64}
    (h : p.conflictQueueManualResolve codec conflictId verdictJson now = .ok p') :
    p' = p.updateConflicts (fun r => r.conflictId = conflictId ∧ r.status ≠ .resolved)
      (verdictSet verdictJson now) (conflictId_verdictSet verdictJson now) := by
  unfold conflictQueueManualResolve at h
  split at h
  · cases h
  · split at h
    · exact (Except.ok.inj h).symm
    · cases h

variable (codec : JsonCodec) (maxAttempts : Nat) (resolve : Nat → ConflictInput → ResolverRun)
  (draw : Nat → AttemptArgs)

/-- The row of an attempt that ended without success. -/
def endAttempt (p : Porch) (row : ConflictRow) (args : AttemptArgs) (state : AttemptState)
    (blob : String) (verdictJson : Option String) : Porch × AgentAttempt :=
  (p.conflictAttemptsFinalize args.attemptId state args.endedAt (some blob) verdictJson,
    ⟨args.attemptId, row.conflictId, args.startedAt, some args.endedAt, state, some blob,
      verdictJson⟩)

/-- One dispatch: start the attempt, let the resolver write its heartbeats, and finalize. It
ends the drive when the resolver succeeded, and else hands on the attempt. -/
def dispatchAttempt (p : Porch) (row : ConflictRow) (args : AttemptArgs) (run : ResolverRun) :
    Except PorchError (Porch × Option AgentAttempt) := do
  let p ← p.conflictAttemptsInsertRunning args.attemptId row.conflictId args.startedAt
  let p := run.heartbeats.foldl
    (fun p beat => p.snapshot args.attemptId beat.1 (beat.2.map fun v => codec.toString v.toJson)) p
  match run.result with
  | some (.succeeded v) =>
    let verdictJson := codec.toString v.toJson
    let p := p.conflictAttemptsFinalize args.attemptId .succeeded args.endedAt none verdictJson
    return (p.conflictQueueMarkResolved row.conflictId verdictJson args.resolvedAt, none)
  | some (.timeout context) =>
    let verdictJson := context.partialVerdict.map fun v => codec.toString v.toJson
    let (p, attempt) := p.endAttempt row args .timeout context.contextBlob verdictJson
    return (p, some attempt)
  | some (.aborted reason) =>
    let (p, attempt) := p.endAttempt row args .aborted ("aborted: " ++ reason) none
    return (p, some attempt)
  | none =>
    let blob := (p.conflictAttemptsGetSnapshot args.attemptId).getD "<no heartbeat>"
    let (p, attempt) := p.endAttempt row args .timeout blob none
    return (p, some attempt)

/-- The loop of a drive. `n` counts the attempts it made, and the budget is checked against
the table each time round. -/
def driveLoop (row : ConflictRow) :
    Porch → Nat → Option AgentAttempt → Nat → Option (Porch × Except PorchError DriveOutcome)
  | _, 0, _, _ => none
  | p, fuel + 1, prior, n =>
    if (p.conflictQueueGetAttempts row.conflictId).length ≥ maxAttempts then
      some (p.conflictQueueMarkManualRequired row.conflictId, .ok .manualRequired)
    else
      let input : ConflictInput :=
        ⟨row.conflictId, row.conflictKind, row.payloadJson, preambleAfter prior⟩
      match p.dispatchAttempt codec row (draw n) (resolve n input) with
      | .error e => some (p, .error e)
      | .ok (p, none) => some (p, .ok .resolved)
      | .ok (p, some attempt) => driveLoop row p fuel (some attempt) (n + 1)

/-- Drive a single conflict through the resume loop. -/
def driveOne (p : Porch) (row : ConflictRow) : Option (Porch × Except PorchError DriveOutcome) :=
  if row.status ≠ .pending then some (p, .ok .alreadyTerminal)
  else
    driveLoop codec maxAttempts resolve draw row p (maxAttempts + 1)
      (p.conflictQueueGetAttempts row.conflictId).getLast? 0

/-- The second porch has the attempts of the first, some of them rewritten. -/
structure RewritesAttempts (p p' : Porch) : Prop where
  queue : p'.conflictQueue = p.conflictQueue
  length : ∀ id, (p'.conflictQueueGetAttempts id).length = (p.conflictQueueGetAttempts id).length
  free : ∀ id, p.conflictAttempts.find? id = none → p'.conflictAttempts.find? id = none

variable {codec maxAttempts resolve draw} {p p' p₁ p₂ : Porch} {row : ConflictRow}
  {args : AttemptArgs} {run : ResolverRun} {prior : Option AgentAttempt} {fuel n : Nat}

theorem RewritesAttempts.refl : RewritesAttempts p p := ⟨rfl, fun _ => rfl, fun _ => id⟩

theorem RewritesAttempts.trans (h : RewritesAttempts p p₁) (h' : RewritesAttempts p₁ p₂) :
    RewritesAttempts p p₂ where
  queue := h'.queue.trans h.queue
  length id := (h'.length id).trans (h.length id)
  free id hfree := h'.free id (h.free id hfree)

theorem rewritesAttempts_snapshot {id blob : String} {verdictJson : Option String} :
    RewritesAttempts p (p.snapshot id blob verdictJson) where
  queue := rfl
  length _ := length_getAttempts_updateAttempt fun _ => rfl
  free _ := find?_updateAttempt_eq_none

theorem rewritesAttempts_endAttempt {state : AttemptState} {blob : String}
    {verdictJson : Option String} :
    RewritesAttempts p (p.endAttempt row args state blob verdictJson).1 where
  queue := rfl
  length _ := length_getAttempts_updateAttempt fun _ => rfl
  free _ := find?_updateAttempt_eq_none

theorem rewritesAttempts_heartbeats (codec : JsonCodec) (args : AttemptArgs) (p : Porch)
    (beats : List (String × Option Verdict)) : RewritesAttempts p (beats.foldl (fun p beat =>
      p.snapshot args.attemptId beat.1 (beat.2.map fun v => codec.toString v.toJson)) p) := by
  induction beats generalizing p with
  | nil => exact .refl
  | cons beat beats ih => exact rewritesAttempts_snapshot.trans (ih _)

/-- A started attempt that does not succeed is handed on. -/
theorem dispatchAttempt_of_insert (codec : JsonCodec)
    (hinsert : p.conflictAttemptsInsertRunning args.attemptId row.conflictId args.startedAt =
      .ok p₁) (stalls : ∀ v, run.result ≠ some (.succeeded v)) :
    ∃ p' attempt, p.dispatchAttempt codec row args run = .ok (p', some attempt) ∧
      RewritesAttempts p₁ p' := by
  have beats := rewritesAttempts_heartbeats codec args p₁ run.heartbeats
  unfold dispatchAttempt
  simp only [hinsert, bind, Except.bind, pure, Except.pure]
  cases hresult : run.result with
  | none => exact ⟨_, _, rfl, beats.trans rewritesAttempts_endAttempt⟩
  | some result =>
    cases result with
    | succeeded v => exact absurd hresult (stalls v)
    | timeout context => exact ⟨_, _, rfl, beats.trans rewritesAttempts_endAttempt⟩
    | aborted reason => exact ⟨_, _, rfl, beats.trans rewritesAttempts_endAttempt⟩

/-- An attempt that is handed on is one more for its conflict. -/
theorem length_getAttempts_dispatchAttempt {attempt : AgentAttempt}
    (h : p.dispatchAttempt codec row args run = .ok (p', some attempt)) :
    (p'.conflictQueueGetAttempts row.conflictId).length =
      (p.conflictQueueGetAttempts row.conflictId).length + 1 := by
  cases hinsert : p.conflictAttemptsInsertRunning args.attemptId row.conflictId args.startedAt with
  | error e =>
    simp only [dispatchAttempt, hinsert, bind, Except.bind, reduceCtorEq] at h
  | ok p₁ =>
    have stalls : ∀ v, run.result ≠ some (.succeeded v) := by
      intro v hv
      simp only [dispatchAttempt, hinsert, hv, bind, Except.bind, pure, Except.pure] at h
      cases h
    obtain ⟨q, attempt', hq, rewrites⟩ := dispatchAttempt_of_insert codec hinsert stalls
    rw [h] at hq
    cases hq
    rw [rewrites.length, length_getAttempts_insertRunning hinsert]

/-- The loop ends before its fuel does. -/
theorem driveLoop_isSome (hfuel : 0 < fuel)
    (budget : maxAttempts < fuel + (p.conflictQueueGetAttempts row.conflictId).length) :
    (p.driveLoop codec maxAttempts resolve draw row fuel prior n).isSome := by
  induction fuel generalizing p prior n with
  | zero => omega
  | succ fuel ih =>
    unfold driveLoop
    split
    · rfl
    · rename_i hbudget
      dsimp only
      split
      · rfl
      · rfl
      · rename_i hdispatch
        have one_more := length_getAttempts_dispatchAttempt hdispatch
        exact ih (by omega) (by omega)

/-- A drive ends, whatever the resolver does. -/
theorem driveOne_isSome : (p.driveOne codec maxAttempts resolve draw row).isSome := by
  unfold driveOne
  split
  · rfl
  · exact driveLoop_isSome (Nat.succ_pos _) (by omega)

/-- On the input of the row's attempts the resolver never succeeds. -/
def Stalls (resolve : Nat → ConflictInput → ResolverRun) (row : ConflictRow) : Prop :=
  ∀ n preamble v, (resolve n ⟨row.conflictId, row.conflictKind, row.payloadJson, preamble⟩).result ≠
    some (.succeeded v)

/-- A resolver that stalls spends the budget. -/
theorem driveLoop_of_stalls (stalls : Stalls resolve row)
    (distinct : Function.Injective fun n => (draw n).attemptId)
    (fresh : ∀ m, n ≤ m → p.conflictAttempts.find? (draw m).attemptId = none)
    (queued : p.conflictQueue.HasKey row.conflictId) (hfuel : 0 < fuel)
    (budget : maxAttempts < fuel + (p.conflictQueueGetAttempts row.conflictId).length) :
    ∃ p', p.driveLoop codec maxAttempts resolve draw row fuel prior n =
        some (p', .ok .manualRequired) ∧
      p'.conflictQueue = (p.conflictQueueMarkManualRequired row.conflictId).conflictQueue := by
  induction fuel generalizing p prior n with
  | zero => omega
  | succ fuel ih =>
    unfold driveLoop
    split
    · exact ⟨_, rfl, rfl⟩
    · rename_i hbudget
      -- the attempt starts, ends without success, and leaves the later ids free
      obtain ⟨p₁, hinsert, hqueue, hfree⟩ := exists_insertRunning (fresh n le_rfl) queued
      obtain ⟨p₂, attempt, hdispatch, rewrites⟩ :=
        dispatchAttempt_of_insert codec hinsert (stalls n (preambleAfter prior))
      have one_more := length_getAttempts_dispatchAttempt hdispatch
      have hqueue₂ : p₂.conflictQueue = p.conflictQueue := rewrites.queue.trans hqueue
      simp only [hdispatch]
      have fresh₂ : ∀ m, n + 1 ≤ m → p₂.conflictAttempts.find? (draw m).attemptId = none := by
        intro m hm
        refine rewrites.free _ (hfree _ (fun heq => ?_) (fresh m (by omega)))
        have hmn : m = n := distinct heq
        omega
      obtain ⟨p', hloop, hp'⟩ : ∃ p',
          p₂.driveLoop codec maxAttempts resolve draw row fuel (some attempt) (n + 1) =
            some (p', .ok .manualRequired) ∧
          p'.conflictQueue = (p₂.conflictQueueMarkManualRequired row.conflictId).conflictQueue :=
        ih fresh₂ (by rwa [hqueue₂]) (by omega) (by omega)
      refine ⟨p', hloop, hp'.trans ?_⟩
      simp only [conflictQueueMarkManualRequired, updateConflicts, hqueue₂]

/-- **A stalling resolver escalates.** A drive of a pending conflict whose resolver never
succeeds ends with the conflict flipped to manual resolution. -/
theorem driveOne_of_stalls (stalls : Stalls resolve row) (pending : row.status = .pending)
    (distinct : Function.Injective fun n => (draw n).attemptId)
    (fresh : ∀ n, p.conflictAttempts.find? (draw n).attemptId = none)
    (queued : p.conflictQueue.HasKey row.conflictId) :
    ∃ p', p.driveOne codec maxAttempts resolve draw row = some (p', .ok .manualRequired) ∧
      p'.conflictQueue = (p.conflictQueueMarkManualRequired row.conflictId).conflictQueue := by
  unfold driveOne
  rw [if_neg (not_not.mpr pending)]
  exact driveLoop_of_stalls stalls distinct (fun m _ => fresh m) queued (Nat.succ_pos _) (by omega)

end Porch

end Concorrd
