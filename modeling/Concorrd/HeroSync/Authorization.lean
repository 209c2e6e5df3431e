import Concorrd.HeroSync.Atomicity
import Concorrd.HeroSync.Gate
import Concorrd.Sync.Evolution

/-!
# Who may sync

The handler of hero rounds does not look at the peer it answers: the gates are the business of
whoever hands it the stream. `handleInbound` answers the requests of a stream. `GivesNothing` says
that a stream brings the peer no row and leaves the porch alone, and `givesNothing_iff` says of
every stream, from whatever peer, when that is so.
-/

namespace Concorrd

/-- The rows an answer carries. -/
def HeroSyncResponse.rows : HeroSyncResponse → List SyncedRow
  | .round responderPush _ => responderPush.all
  | _ => []

namespace Porch

variable (codec : JsonCodec)

/-- A request, and the ids and times it queues conflicts under. -/
abbrev HeroInbound := HeroSyncRequest × (Nat → String × Int64)

/-- Answer the requests of a stream of a peer. -/
def handleInbound : Porch → String → List HeroInbound → Porch × List HeroSyncResponse
  | p, _, [] => (p, [])
  | p, peerId, (request, fresh) :: rest =>
    let (p, response) := p.heroDispatch codec fresh request
    let (p, responses) := handleInbound p peerId rest
    (p, response :: responses)

/-- The stream brings its peer no row and leaves the tables and the queue as they were. -/
structure GivesNothing (p : Porch) (peerId : String) (inbound : List HeroInbound) : Prop where
  answers : ∀ response ∈ (p.handleInbound codec peerId inbound).2, response.rows = []
  tables : (p.handleInbound codec peerId inbound).1.db = p.db
  queue : (p.handleInbound codec peerId inbound).1.conflictQueue = p.conflictQueue

/-- A ping; a round with another anchor; a round whose first conflict meets a taken id; a round
without conflicts whose push does not fit; or one whose push is held, from a cursor that no row
passes. -/
def Harmless (p : Porch) : HeroInbound → Prop
  | (.ping, _) => True
  | (.round env, fresh) =>
    (anchorRefusal env p.heroGetAnchorInstance).isSome = true ∨
    if p.db.detectConflicts env.push = [] then
      ¬ Database.Fits p.tables.view env.push.all ∨
        (∀ x ∈ env.push.all, p.db.HoldsStamp x) ∧
          ∀ x, p.tables.Holds x → x.lamport ≤ env.since.sinceFor x.table.cursorKey
    else (fresh 0).1 ∈ p.conflictQueue.rows.map ConflictRow.conflictId

variable {codec} {p p' : Porch} {peerId : String} {fresh : Nat → String × Int64}
  {records : List ConflictRecord} {env : HeroSyncEnvelope} {response : HeroSyncResponse}

/-! ## One round -/

/-- Queueing leaves the queue as it was when there is nothing to queue or the first id is taken. -/
theorem enqueueAll_keeps_iff (codec : JsonCodec) (fresh : Nat → String × Int64) (p : Porch)
    (records : List ConflictRecord) :
    (enqueueAll codec fresh p records).1.conflictQueue = p.conflictQueue ↔
      records = [] ∨ (fresh 0).1 ∈ p.conflictQueue.rows.map ConflictRow.conflictId := by
  cases records with
  | nil => exact iff_of_true rfl (.inl rfl)
  | cons record rest =>
    simp only [reduceCtorEq, false_or, enqueueAll]
    rcases enqueue_cases codec p record (fresh 0).1 (fresh 0).2 with
      ⟨hmem, e, he⟩ | ⟨hmem, q, hq, hrows⟩
    · simp only [he, hmem]
    · refine iff_of_false (fun kept => ?_) hmem
      simp only [hq] at kept
      obtain ⟨n, hlater, _⟩ := rows_enqueueAll codec (fun n => fresh (n + 1)) q rest
      rw [kept, hrows, List.append_assoc, List.self_eq_append_right,
        List.append_eq_nil_iff] at hlater
      cases hlater.1

/-- Where conflicts are queued, the first id was free. -/
theorem free_of_enqueueAll (h : enqueueAll codec fresh p records = (p', .ok ()))
    (hne : records ≠ []) : (fresh 0).1 ∉ p.conflictQueue.rows.map ConflictRow.conflictId := by
  cases records with
  | nil => exact absurd rfl hne
  | cons record rest =>
    rcases enqueue_cases codec p record (fresh 0).1 (fresh 0).2 with ⟨_, e, he⟩ | ⟨hfree, _⟩
    · simp only [enqueueAll, he, Prod.mk.injEq, reduceCtorEq, and_false] at h
    · exact hfree

/-- An answer above a cursor is empty when no row passes the cursor. -/
theorem all_collectDelta_eq_nil_iff {db : Database} {since : SyncCursor} :
    (db.collectDelta since).all = [] ↔
      ∀ x, db.tables.Holds x → x.lamport ≤ since.sinceFor x.table.cursorKey := by
  simp only [List.eq_nil_iff_forall_not_mem, Database.mem_collectDelta, not_and, Int64.not_lt]

/-- One answer is harmless exactly when it carries no row and leaves the porch alone. -/
theorem quiet_iff (codec : JsonCodec) (p : Porch) (request : HeroSyncRequest)
    (fresh : Nat → String × Int64) :
    ((p.heroDispatch codec fresh request).2.rows = [] ∧
      (p.heroDispatch codec fresh request).1.db = p.db ∧
      (p.heroDispatch codec fresh request).1.conflictQueue = p.conflictQueue) ↔
      p.Harmless (request, fresh) := by
  cases request with
  | ping => exact iff_of_true ⟨rfl, rfl, rfl⟩ trivial
  | round env =>
    simp only [heroDispatch, Harmless]
    cases hanchor : anchorRefusal env p.heroGetAnchorInstance with
    | some refusal =>
      rw [dispatchRound_of_refusal codec fresh hanchor]
      refine iff_of_true ⟨?_, rfl, rfl⟩ (.inl rfl)
      cases refusal with
      | round push conflicts => exact absurd hanchor (anchorRefusal_ne_round env _ push conflicts)
      | _ => rfl
    | none =>
      simp only [Option.isSome_none, Bool.false_eq_true, false_or]
      have fits : (∃ out, p.db.applySyncBatch env.push = .ok out) ↔
          Database.Fits p.db.tables.view env.push.all := Database.exists_applySyncBatch_iff
      have keeps := enqueueAll_keeps_iff codec fresh p (p.db.detectConflicts env.push)
      rcases dispatchRound_cases codec fresh hanchor with
        ⟨queue, e, hqueue, run⟩ | ⟨queue, hqueue, ⟨e, hbatch, run⟩ | ⟨db, counts, hbatch, run⟩⟩
      · rw [hqueue] at keeps
        rw [run, keeps]
        by_cases hnone : p.db.detectConflicts env.push = []
        · simp only [hnone, enqueueAll, Prod.mk.injEq, reduceCtorEq, and_false] at hqueue
        · simp only [HeroSyncResponse.rows, hnone, false_or, if_false, true_and]
      · have free := fun hne => free_of_enqueueAll hqueue hne
        rw [hqueue] at keeps
        have refused : ¬ Database.Fits p.tables.view env.push.all := by
          rw [tables, ← fits, hbatch]
          rintro ⟨out, h⟩
          cases h
        rw [run, keeps]
        by_cases hnone : p.db.detectConflicts env.push = []
        · simp only [HeroSyncResponse.rows, hnone, true_or, if_true, refused, not_false_eq_true,
            and_self]
        · simp only [hnone, free hnone, or_self, and_false, if_false]
      · have free := fun hne => free_of_enqueueAll hqueue hne
        rw [hqueue] at keeps
        have applies : Database.Fits p.tables.view env.push.all := fits.mp ⟨_, hbatch⟩
        have moved := (Database.appliedBatch hbatch).eq_self_iff
        rw [run, keeps]
        by_cases hnone : p.db.detectConflicts env.push = []
        · simp only [HeroSyncResponse.rows, hnone, true_or, and_true, if_true, applies,
            not_true_eq_false, false_or, all_collectDelta_eq_nil_iff, ← moved]
          constructor
          · rintro ⟨hrows, rfl⟩
            exact ⟨rfl, hrows⟩
          · rintro ⟨rfl, hrows⟩
            exact ⟨hrows, rfl⟩
        · simp only [hnone, free hnone, or_self, and_false, if_false]

/-! ## A stream -/

/-- The second porch holds what the first does, and what it queued. -/
structure Grows (p p' : Porch) : Prop where
  keeps : p'.db.CatchesUp p.db
  queue : p.conflictQueue.rows <+: p'.conflictQueue.rows

theorem Grows.refl : Grows p p := ⟨Database.CatchesUp.refl, List.prefix_rfl⟩

theorem Grows.trans {p'' : Porch} (h : Grows p p') (h' : Grows p' p'') : Grows p p'' :=
  ⟨h'.keeps.trans h.keeps, h.queue.trans h'.queue⟩

/-- A step that writes a row writes one that was not held. -/
structure Steps (p p' : Porch) : Prop where
  grows : Grows p p'
  gains : p'.db ≠ p.db → ∃ x, p'.db.HoldsStamp x ∧ ¬ p.db.HoldsStamp x
  rest : p' = { p with db := p'.db, conflictQueue := p'.conflictQueue }

theorem heroDispatch_steps (codec : JsonCodec) (p : Porch) (request : HeroSyncRequest)
    (fresh : Nat → String × Int64) : Steps p (p.heroDispatch codec fresh request).1 := by
  have still : Steps p p := ⟨.refl, fun moved => absurd rfl moved, rfl⟩
  cases request with
  | ping => exact still
  | round env =>
    simp only [heroDispatch]
    cases hanchor : anchorRefusal env p.heroGetAnchorInstance with
    | some refusal =>
      rw [dispatchRound_of_refusal codec fresh hanchor]
      exact still
    | none =>
      obtain ⟨n, hrows, _⟩ := rows_enqueueAll codec fresh p (p.db.detectConflicts env.push)
      rcases dispatchRound_cases codec fresh hanchor with
        ⟨queue, e, hqueue, run⟩ | ⟨queue, hqueue, ⟨e, hbatch, run⟩ | ⟨db, counts, hbatch, run⟩⟩
      all_goals
        rw [hqueue] at hrows
        have queued : p.conflictQueue.rows <+: queue.rows := ⟨_, hrows.symm⟩
        rw [run]
      · exact ⟨⟨Database.CatchesUp.refl, queued⟩, fun moved => absurd rfl moved, rfl⟩
      · exact ⟨⟨Database.CatchesUp.refl, queued⟩, fun moved => absurd rfl moved, rfl⟩
      · refine ⟨⟨Database.catchesUp_of_batch hbatch, queued⟩, fun moved => ?_, rfl⟩
        have unheld : ¬ ∀ x ∈ env.push.all, p.db.HoldsStamp x := fun held =>
          moved ((Database.appliedBatch hbatch).eq_self_iff.mpr held)
        push Not at unheld
        obtain ⟨x, hx, hnot⟩ := unheld
        exact ⟨x, Database.holdsStamp_of_mem_delta hbatch hx, hnot⟩

theorem handleInbound_grows (codec : JsonCodec) (p : Porch) (peerId : String)
    (inbound : List HeroInbound) : Grows p (p.handleInbound codec peerId inbound).1 := by
  induction inbound generalizing p with
  | nil => exact .refl
  | cons first rest ih =>
    obtain ⟨request, fresh⟩ := first
    exact (heroDispatch_steps codec p request fresh).grows.trans (ih _)

/-- A porch that ends where it began did not move at the first step. -/
theorem Steps.still {p₁ p₂ : Porch} (h : Steps p p₁) (grows : Grows p₁ p₂) (hdb : p₂.db = p.db)
    (hqueue : p₂.conflictQueue = p.conflictQueue) : p₁ = p := by
  have db : p₁.db = p.db := by
    by_contra moved
    obtain ⟨x, hx, hnot⟩ := h.gains moved
    have later := grows.keeps.holdsStamp hx
    rw [hdb] at later
    exact hnot later
  have queue : p₁.conflictQueue = p.conflictQueue := by
    refine KeyedTable.ext (List.IsPrefix.eq_of_length_le ?_ ?_).symm
    · exact h.grows.queue
    · rw [← hqueue]
      exact grows.queue.length_le
  rw [h.rest, db, queue]

/-- Behind a request that leaves the porch alone, the stream goes on as it was. -/
theorem handleInbound_cons_of_still {request : HeroSyncRequest} (peerId : String)
    (rest : List HeroInbound)
    (same : (p.heroDispatch codec fresh request).1 = p) :
    p.handleInbound codec peerId ((request, fresh) :: rest) =
      ((p.handleInbound codec peerId rest).1,
        (p.heroDispatch codec fresh request).2 :: (p.handleInbound codec peerId rest).2) := by
  simp only [handleInbound, same]

/-- **What a stream gives away.** A stream brings its peer no row and leaves the porch alone exactly
when each of its requests is harmless; who the peer is does not matter. -/
theorem givesNothing_iff (codec : JsonCodec) (p : Porch) (peerId : String)
    (inbound : List HeroInbound) :
    p.GivesNothing codec peerId inbound ↔ ∀ request ∈ inbound, p.Harmless request := by
  induction inbound with
  | nil =>
    refine iff_of_true ⟨fun response h => ?_, rfl, rfl⟩ fun request h => ?_
    · cases h
    · cases h
  | cons first rest ih =>
    obtain ⟨request, fresh⟩ := first
    rw [List.forall_mem_cons, ← quiet_iff codec p request fresh, ← ih]
    have step := heroDispatch_steps codec p request fresh
    constructor
    · intro h
      have same : (p.heroDispatch codec fresh request).1 = p :=
        step.still (handleInbound_grows codec _ peerId rest) h.tables h.queue
      have run := handleInbound_cons_of_still peerId rest same
      obtain ⟨answers, tables, queue⟩ := h
      rw [run] at answers tables queue
      exact ⟨⟨answers _ List.mem_cons_self, by rw [same], by rw [same]⟩,
        fun response hresponse => answers response (List.mem_cons_of_mem _ hresponse), tables,
        queue⟩
    · rintro ⟨⟨hrows, hdb, hqueue⟩, h⟩
      have same : (p.heroDispatch codec fresh request).1 = p := by
        rw [step.rest, hdb, hqueue]
      have run := handleInbound_cons_of_still peerId rest same
      constructor
      · rw [run]
        exact List.forall_mem_cons.mpr ⟨hrows, h.answers⟩
      · rw [run]
        exact h.tables
      · rw [run]
        exact h.queue

/-- Every peer is answered alike. -/
theorem handleInbound_congr (codec : JsonCodec) (p : Porch) (peerId peerId' : String)
    (inbound : List HeroInbound) :
    p.handleInbound codec peerId inbound = p.handleInbound codec peerId' inbound := by
  induction inbound generalizing p with
  | nil => rfl
  | cons first rest ih => simp only [handleInbound, ih]

/-- **Whom the handler authorizes.** Nobody and everybody: peers are answered alike, and a stream
of any of them is harmless exactly when its requests are. -/
theorem answers_every_peer (codec : JsonCodec) (p : Porch) (inbound : List HeroInbound) :
    (∀ peerId peerId', p.handleInbound codec peerId inbound =
      p.handleInbound codec peerId' inbound) ∧
    ∀ peerId, p.GivesNothing codec peerId inbound ↔ ∀ request ∈ inbound, p.Harmless request :=
  ⟨fun _ _ => handleInbound_congr codec p _ _ inbound,
    fun peerId => givesNothing_iff codec p peerId inbound⟩

end Porch

/-! ## A stranger -/

/-- A round that asks for everything and sends a channel of its own. -/
def strangerRound : HeroSyncEnvelope :=
  ⟨false, none, .default, (((pairAfter (fun _ => .none)
    [.write false (.insertChannel "red" "Red" .inner .open 2)]).porch false).heroEnvelope).push⟩

/-- A porch that a stranger finds. -/
def visitedPorch : Porch := (pairAfter (fun _ => .none) []).porch true

set_option maxRecDepth 1000 in
/-- The stranger is not linked and passes neither gate, and the handler gives it the porch. -/
theorem stranger_is_served : visitedPorch.isPersonalDevice "stranger" = false ∧
    evaluateGates readEcho silentNetwork [] "stranger" [] = .ok ⟨false, false, ⟨false, false⟩⟩ ∧
    ¬ visitedPorch.GivesNothing contestedCodec "stranger"
      [(.round strangerRound, conflictArgs)] := by
  refine ⟨by decide, rfl, fun h => ?_⟩
  have served : (visitedPorch.handleInbound contestedCodec "stranger"
      [(.round strangerRound, conflictArgs)]).2.all fun response => response.rows.isEmpty :=
    List.all_eq_true.mpr fun response hresponse => by
      rw [h.answers response hresponse]
      rfl
  exact absurd served (by decide)

end Concorrd
