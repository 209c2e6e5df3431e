import Concorrd.Sync.Replication

/-!
# Convergence of a hero-sync round

A round pushes everything above 0 and pulls everything above the initiator's cursor, which
it took before the push. `heroRound_converges_iff` says exactly when one round makes the two porches
equal: no row of the initiator is stuck at lamport 0, and no row of the responder is at or
below the initiator's maximum for its table unless it is covered there.
-/

namespace Concorrd

open SyncedRow (key stamp)

namespace Porch

variable {codec : JsonCodec} {fresh : Nat → String × Int64} {p responder : Porch}
  {env : HeroSyncEnvelope} {push : SyncDelta} {conflicts : Nat} {round : HeroRound}

/-- A responder that answers a round has queued every conflict, on the rows it had, and then
merged the push. -/
theorem stages_of_dispatchRound {responder' : Porch}
    (h : responder.dispatchRound codec fresh env = (responder', .round push conflicts)) :
    ∃ queued counts,
      enqueueAll codec fresh responder (responder.db.detectConflicts env.push) =
        (queued, .ok ()) ∧
      queued.db = responder.db ∧ queued.applySyncBatch env.push = .ok (responder', counts) ∧
      push = responder'.db.collectDelta env.since := by
  cases hrefusal : anchorRefusal env responder.heroGetAnchorInstance with
  | some refusal =>
    rw [dispatchRound_of_refusal codec fresh hrefusal] at h
    cases h
    exact absurd hrefusal (anchorRefusal_ne_round env _ push conflicts)
  | none =>
    rcases dispatchRound_cases codec fresh hrefusal with
      ⟨queue, e, _, run⟩ | ⟨queue, hqueue, ⟨e, _, run⟩ | ⟨db, counts, hbatch, run⟩⟩
    · rw [run] at h
      cases h
    · rw [run] at h
      cases h
    · rw [run] at h
      cases h
      exact ⟨{ responder with conflictQueue := queue }, counts, hqueue, rfl,
        applySyncBatch_eq_ok_iff.mpr ⟨hbatch, rfl⟩, rfl⟩

/-- A round that completes: the responder queues its conflicts and merges the push, and the
initiator merges what lies above the cursor it had before. -/
theorem stages_of_heroRound (hround : p.runHeroSyncRound codec fresh responder = round)
    (hok : round.answer = .ok (.round push conflicts)) :
    (∃ queued counts,
      enqueueAll codec fresh responder (responder.db.detectConflicts p.heroEnvelope.push) =
        (queued, .ok ()) ∧
      queued.db = responder.db ∧
      queued.applySyncBatch p.heroEnvelope.push = .ok (round.responder, counts)) ∧
    ∃ counts, p.applySyncBatch (round.responder.db.collectDelta p.db.localCursor) =
      .ok (round.initiator, counts) := by
  subst hround
  unfold runHeroSyncRound at hok ⊢
  simp only [heroDispatch] at hok ⊢
  cases hdispatch : responder.dispatchRound codec fresh p.heroEnvelope with
  | mk merged response =>
    cases response with
    | round responderPush enqueued =>
      obtain ⟨queued, counts, hqueue, hdb, hpush, rfl⟩ := stages_of_dispatchRound hdispatch
      simp only [hdispatch] at hok ⊢
      split at hok
      · cases hok
      · rename_i initiator counts' happly
        exact ⟨⟨queued, counts, hqueue, hdb, hpush⟩, counts', happly⟩
    | pong mode => simp only [hdispatch, Except.ok.injEq, reduceCtorEq] at hok
    | anchorMismatch anchor message => simp only [hdispatch, Except.ok.injEq, reduceCtorEq] at hok
    | error code message => simp only [hdispatch, Except.ok.injEq, reduceCtorEq] at hok

/-- A round that completes is two exchanges: a push from above 0 and a pull above the cursor
the initiator had before. -/
theorem exchanges_of_heroRound (hround : p.runHeroSyncRound codec fresh responder = round)
    (hok : round.answer = .ok (.round push conflicts)) :
    (∃ counts, responder.db.applySyncBatch (p.db.collectDelta SyncCursor.default) =
      .ok (round.responder.db, counts)) ∧
    ∃ counts, p.db.applySyncBatch (round.responder.db.collectDelta p.db.localCursor) =
      .ok (round.initiator.db, counts) := by
  obtain ⟨⟨queued, counts, _, hdb, hpush⟩, counts', hpull⟩ := stages_of_heroRound hround hok
  refine ⟨⟨counts, ?_⟩, counts', (applySyncBatch_eq_ok_iff.mp hpull).1⟩
  rw [← hdb]
  exact (applySyncBatch_eq_ok_iff.mp hpush).1

end Porch

section

variable {codec : JsonCodec} {fresh : Nat → String × Int64} {A B : Porch} {push : SyncDelta}
  {conflicts : Nat} {round : Porch.HeroRound}

/-- **One round converges only from above the watermark.** A completed round leaves both
porches with the larger row under every key exactly when every row of the initiator lies
above lamport 0 or is covered at the responder, and every row of the responder lies above
the initiator's maximum for its table or is covered at the initiator. -/
theorem heroRound_converges_iff
    (one : Lww.OneRowPerStamp key stamp {x | A.tables.Holds x ∨ B.tables.Holds x})
    (hround : A.runHeroSyncRound codec fresh B = round)
    (hok : round.answer = .ok (.round push conflicts)) :
    (round.initiator.tables.view = round.responder.tables.view ∧
      ∀ k, round.initiator.tables.view k =
        Lww.larger stamp (A.tables.view k) (B.tables.view k)) ↔
      (∀ x, A.tables.Holds x → B.db.HoldsStamp x ∨ 0 < x.lamport) ∧
        ∀ x, B.tables.Holds x → A.db.HoldsStamp x ∨ A.tables.maxLamport x.table < x.lamport := by
  obtain ⟨⟨_, hpush⟩, _, hpull⟩ := Porch.exchanges_of_heroRound hround hok
  have sourceB : ∀ x, round.responder.tables.Holds x → A.tables.Holds x ∨ B.tables.Holds x :=
    fun x hx => (Database.source_of_exchange hpush hx).symm
  have sourceA : ∀ x, round.initiator.tables.Holds x → A.tables.Holds x ∨ B.tables.Holds x :=
    fun x hx => (Database.source_of_exchange hpull hx).elim .inl (sourceB x)
  have pushed : ∀ x, A.tables.Holds x →
      (round.responder.db.HoldsStamp x ↔ B.db.HoldsStamp x ∨ 0 < x.lamport) := by
    intro x hx
    have arrives := Database.holdsStamp_after_exchange hpush hx
    rwa [Database.sinceFor_default] at arrives
  have pulled : ∀ x, B.tables.Holds x → (round.initiator.db.HoldsStamp x ↔
      A.db.HoldsStamp x ∨ A.tables.maxLamport x.table < x.lamport) := by
    intro x hx
    by_cases still : round.responder.tables.Holds x
    · have arrives := Database.holdsStamp_after_exchange hpull still
      rwa [Database.sinceFor_localCursor] at arrives
    · -- the push displaced the row, so the initiator covered it from the start
      have covered : A.db.HoldsStamp x := Database.holdsStamp_of_displaced hpush hx still
      exact iff_of_true ((Database.catchesUp_of_batch hpull).holdsStamp covered) (.inl covered)
  constructor
  · intro ⟨same, hlarger⟩
    obtain ⟨coversA, coversB⟩ := Database.catchesUp_of_view_eq_larger hlarger
    have responderA : round.responder.db.CatchesUp A.db :=
      (Database.catchesUp_of_view_eq same.symm).trans coversA
    exact ⟨fun x hx => (pushed x hx).mp (responderA x hx),
      fun x hx => (pulled x hx).mp (coversB x hx)⟩
  · intro ⟨initiatorAbove, responderAbove⟩
    have responderA : round.responder.db.CatchesUp A.db := fun x hx =>
      (pushed x hx).mpr (initiatorAbove x hx)
    have initiatorB : round.initiator.db.CatchesUp B.db := fun x hx =>
      (pulled x hx).mpr (responderAbove x hx)
    have responderView := Database.view_eq_larger one sourceB responderA
      (Database.catchesUp_of_batch hpush)
    have initiatorView := Database.view_eq_larger one sourceA (Database.catchesUp_of_batch hpull)
      initiatorB
    exact ⟨funext fun k => (initiatorView k).trans (responderView k).symm, initiatorView⟩

end

/-- A round between the two devices after their posts. -/
def unevenRound : Porch.HeroRound :=
  (unevenPosts.porch false).runHeroSyncRound default (fun _ => ("conflict", 5))
    (unevenPosts.porch true)

set_option maxRecDepth 1000 in
private theorem unevenRound_ok : ∃ push conflicts,
    unevenRound.answer = .ok (.round push conflicts) :=
  exists_round_of_isOkAnd (by decide)

set_option maxRecDepth 1000 in
private theorem unevenPosts_oneRowPerStamp : Lww.OneRowPerStamp key stamp
    {x | (unevenPosts.porch false).tables.Holds x ∨ (unevenPosts.porch true).tables.Holds x} := by
  rw [oneRowPerStamp_iff]
  decide

theorem heroRound_converges_iff_unevenPosts :
    (unevenRound.initiator.tables.view = unevenRound.responder.tables.view ∧
      ∀ k, unevenRound.initiator.tables.view k = Lww.larger stamp
        ((unevenPosts.porch false).tables.view k) ((unevenPosts.porch true).tables.view k)) ↔
      (∀ x, (unevenPosts.porch false).tables.Holds x →
        (unevenPosts.porch true).db.HoldsStamp x ∨ 0 < x.lamport) ∧
      ∀ x, (unevenPosts.porch true).tables.Holds x → (unevenPosts.porch false).db.HoldsStamp x ∨
        (unevenPosts.porch false).tables.maxLamport x.table < x.lamport := by
  obtain ⟨_, _, hok⟩ := unevenRound_ok
  exact heroRound_converges_iff unevenPosts_oneRowPerStamp rfl hok

set_option maxRecDepth 1000 in
/-- A completed round on a reachable network leaves the two porches different. -/
theorem heroRound_diverges : ∃ net : Network Bool, net.Reachable pairPeer ∧
    Lww.OneRowPerStamp key stamp {x | (net.porch false).tables.Holds x ∨
      (net.porch true).tables.Holds x} ∧
    ∃ codec fresh push conflicts,
      ((net.porch false).runHeroSyncRound codec fresh (net.porch true)).answer =
        .ok (.round push conflicts) ∧
      ((net.porch false).runHeroSyncRound codec fresh (net.porch true)).initiator.tables.view ≠
        ((net.porch false).runHeroSyncRound codec fresh
          (net.porch true)).responder.tables.view := by
  obtain ⟨push, conflicts, hok⟩ := unevenRound_ok
  refine ⟨unevenPosts, reachable_pairAfter _ _, unevenPosts_oneRowPerStamp, default,
    fun _ => ("conflict", 5), push, conflicts, hok, fun same => ?_⟩
  have missing : unevenRound.initiator.tables.view skippedMessage.key = none := by decide
  have present : unevenRound.responder.tables.Holds skippedMessage := by decide
  have same' : unevenRound.initiator.tables.view = unevenRound.responder.tables.view := by
    unfold unevenRound
    exact same
  rw [same', SyncedTables.view_key_eq_some_iff.mpr present] at missing
  cases missing

end Concorrd
