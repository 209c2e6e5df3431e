import Concorrd.Sync.Exchange
import Concorrd.Sync.Network

/-!
# Replication by device sync

What a pull and a round of `syncNow` carry over, for any two porches. The cursor of a pull
is one maximum for a table, so a row at or below it is skipped: `catchesUp_after_pull_iff`
says exactly when none is. A push starts above 0, so it skips the rows of lamport 0, which
are the rows older than the sync columns: `catchesUp_after_syncNow_iff` says exactly when
that loses nothing. Where every row is above 0 a round in each direction converges, and
`syncNow_converges` says to what.
-/

namespace Concorrd

open SyncedRow (key stamp)

section Pull

variable {A A' B : Porch} {me : String} {delta : SyncDelta} {counts : ApplyCounts}

/-- A pull that is answered and applied misses no row of the answering porch exactly when
every row there was covered before or lies above the largest lamport of its table. -/
theorem catchesUp_after_pull_iff
    (answered : B.dispatch me (.pullDelta A.db.localCursor) = (B, .ok (.delta delta)))
    (applied : A.applySyncBatch delta = .ok (A', counts)) :
    A'.db.CatchesUp B.db ↔ ∀ x, B.tables.Holds x →
      A.db.HoldsStamp x ∨ A.tables.maxLamport x.table < x.lamport := by
  obtain ⟨_, _, rfl⟩ := Porch.dispatch_pullDelta_eq_ok_iff.mp answered
  obtain ⟨hbatch, _⟩ := Porch.applySyncBatch_eq_ok_iff.mp applied
  refine forall_congr' fun x => imp_congr_right fun hx => ?_
  rw [Database.holdsStamp_after_exchange hbatch hx, Database.sinceFor_localCursor]

/-- The first device posts twice, the second once. The second's message carries a lamport
the first has passed. -/
def unevenPosts : Network Bool :=
  pairAfter (fun _ => .none)
    [.write false (.postMessage "porch-default" "peer-a" "one" "a1" 2),
      .write false (.postMessage "porch-default" "peer-a" "two" "a2" 3),
      .write true (.postMessage "porch-default" "peer-b" "three" "b1" 4)]

/-- The message of the second device. -/
def skippedMessage : SyncedRow :=
  ⟨.channelMessages, ⟨⟨"b1", "porch-default", "peer-b", "three", 4⟩, "device-b", 2, 0⟩⟩

set_option maxRecDepth 2000 in
private theorem unevenPosts_pull : ∃ delta A' counts,
    (unevenPosts.porch true).dispatch "peer-a"
        (.pullDelta (unevenPosts.porch false).db.localCursor) =
      (unevenPosts.porch true, .ok (.delta delta)) ∧
    (unevenPosts.porch false).applySyncBatch delta = .ok (A', counts) ∧
    ¬ A'.db.HoldsStamp skippedMessage := by
  have linked : (unevenPosts.porch true).isPersonalDevice "peer-a" = true := by decide
  have applied : isOkAnd ((unevenPosts.porch false).applySyncBatch
      ((unevenPosts.porch true).db.collectDelta (unevenPosts.porch false).db.localCursor))
      (fun out => ¬ out.1.db.HoldsStamp skippedMessage) = true := by decide
  obtain ⟨⟨A', counts⟩, hok, hskip⟩ := isOkAnd_iff.mp applied
  exact ⟨_, A', counts, Porch.dispatch_pullDelta_eq_ok_iff.mpr ⟨linked, rfl, rfl⟩, hok,
    of_decide_eq_true hskip⟩

theorem catchesUp_after_pull_unevenPosts : ∃ delta A' counts,
    (unevenPosts.porch true).dispatch "peer-a"
        (.pullDelta (unevenPosts.porch false).db.localCursor) =
      (unevenPosts.porch true, .ok (.delta delta)) ∧
    (unevenPosts.porch false).applySyncBatch delta = .ok (A', counts) ∧
    (A'.db.CatchesUp (unevenPosts.porch true).db ↔
      ∀ x, (unevenPosts.porch true).tables.Holds x → (unevenPosts.porch false).db.HoldsStamp x ∨
        (unevenPosts.porch false).tables.maxLamport x.table < x.lamport) := by
  obtain ⟨delta, A', counts, answered, applied, _⟩ := unevenPosts_pull
  exact ⟨delta, A', counts, answered, applied, catchesUp_after_pull_iff answered applied⟩

set_option maxRecDepth 2000 in
/-- A pull that succeeds on a reachable network skips a row. -/
theorem pull_skips_message : ∃ net : Network Bool, net.Reachable pairPeer ∧
    ∃ delta A' counts,
      (net.porch true).dispatch (pairPeer false) (.pullDelta (net.porch false).db.localCursor) =
        (net.porch true, .ok (.delta delta)) ∧
      (net.porch false).applySyncBatch delta = .ok (A', counts) ∧
      ¬ A'.db.CatchesUp (net.porch true).db := by
  obtain ⟨delta, A', counts, answered, applied, hskip⟩ := unevenPosts_pull
  refine ⟨unevenPosts, reachable_pairAfter _ _, delta, A', counts, answered, applied, fun h => ?_⟩
  have hholds : (unevenPosts.porch true).tables.Holds skippedMessage := by decide
  exact hskip (h skippedMessage hholds)

end Pull

section Round

variable {A B : Porch} {a b : String} {now : Int64} {round : Porch.SyncRound}

/-- After a round the remote porch covers every row of the caller exactly when it covered
the caller's rows of lamport at most 0 before. -/
theorem catchesUp_after_syncNow_iff (hround : A.syncNow a B b now = round)
    (hok : round.report.error = none) :
    round.remote.db.CatchesUp round.caller.db ↔
      ∀ x, A.tables.Holds x → x.lamport ≤ 0 → B.db.HoldsStamp x := by
  obtain ⟨_, _, synced⟩ := Porch.syncNow_eq_ok_iff.mp ⟨hround, hok⟩
  have pushed : ∀ x, round.caller.tables.Holds x →
      (round.remote.db.HoldsStamp x ↔ B.db.HoldsStamp x ∨ 0 < x.lamport) := by
    intro x hx
    have arrives := Database.holdsStamp_after_exchange synced.push hx
    rwa [Database.sinceFor_default] at arrives
  constructor
  · intro h x hx hlow
    by_cases hstill : round.caller.tables.Holds x
    · exact ((pushed x hstill).mp (h x hstill)).resolve_right (not_lt.mpr hlow)
    · exact Database.holdsStamp_of_displaced synced.pull hx hstill
  · intro h x hx
    rw [pushed x hx]
    rcases Database.source_of_exchange synced.pull hx with hA | hB
    · rcases le_or_gt x.lamport 0 with hlow | hhigh
      · exact .inl (h x hA hlow)
      · exact .inr hhigh
    · exact .inl (Database.holdsStamp_of_holds hB)

/-- **Migrated rows travel only to a porch that has them.** After a round from a porch whose
tables are those a migration left, the remote porch covers every row of the caller exactly
when it covered every migrated row before. -/
theorem catchesUp_after_migrated_syncNow_iff {old : OldDatabase} {args : Porch.OpenArgs}
    (migrated : A.tables = (Porch.opened old args).tables)
    (hround : A.syncNow a B b now = round) (hok : round.report.error = none) :
    round.remote.db.CatchesUp round.caller.db ↔
      ∀ (t : SyncedTable), ∀ cols ∈ (old.tables t).rows,
        B.db.HoldsStamp ⟨t, OldDatabase.backfill args.deviceId cols⟩ := by
  rw [catchesUp_after_syncNow_iff hround hok, migrated]
  constructor
  · intro h t cols hcols
    let x : SyncedRow := ⟨t, OldDatabase.backfill args.deviceId cols⟩
    obtain ⟨hx, hlow⟩ := Porch.holds_opened_iff (x := x).mpr ⟨cols, hcols, rfl⟩
    exact h x hx hlow
  · intro h x hx hlow
    obtain ⟨t, row⟩ := x
    have old_row : ∃ cols ∈ (old.tables t).rows, OldDatabase.backfill args.deviceId cols = row :=
      Porch.holds_opened_iff.mp ⟨hx, hlow⟩
    obtain ⟨cols, hcols, rfl⟩ := old_row
    exact h t cols hcols

/-- A database of schema version 1 with one channel and a message in it. -/
def olderPorch : OldDatabase where
  version := 1
  before := by decide
  tables
    | .porchChannels => ⟨[⟨"general", "General", "inner", "open", 1⟩], List.nodup_singleton _⟩
    | .channelMessages => ⟨[⟨"m1", "general", "peer-a", "hello", 2⟩], List.nodup_singleton _⟩
    | _ => KeyedTable.empty
  absent t ht := by
    cases t
    · exact absurd ht (by decide)
    · exact absurd ht (by decide)
    all_goals rfl
  checks t := by cases t <;> decide
  entries t := by cases t <;> decide
  parents t := by cases t <;> decide

/-- The first device migrates the older porch, the second is fresh. -/
def afterMigration : Network Bool :=
  pairAfter (fun i => if i then .none else olderPorch) []

/-- A round from the migrated device to the fresh one. -/
def migratedRound : Porch.SyncRound :=
  (afterMigration.porch false).syncNow "peer-a" (afterMigration.porch true) "peer-b" 3

set_option maxRecDepth 2000 in
private theorem migratedRound_ok : migratedRound.report.error = none := by decide

private theorem afterMigration_tables :
    (afterMigration.porch false).tables = (Porch.opened olderPorch (pairArgs false)).tables := rfl

theorem catchesUp_after_migratedRound :
    migratedRound.remote.db.CatchesUp migratedRound.caller.db ↔
      ∀ (t : SyncedTable), ∀ cols ∈ (olderPorch.tables t).rows,
        (afterMigration.porch true).db.HoldsStamp ⟨t, OldDatabase.backfill "device-a" cols⟩ :=
  catchesUp_after_migrated_syncNow_iff afterMigration_tables rfl migratedRound_ok

set_option maxRecDepth 2000 in
/-- A round that succeeds leaves a migrated channel behind. -/
theorem migratedRound_loses_channel : olderPorch.version ∈ [1, 2, 3, 4, 5] ∧
    afterMigration.Reachable pairPeer ∧
    (afterMigration.porch false).tables = (Porch.opened olderPorch (pairArgs false)).tables ∧
    migratedRound.report.error = none ∧
    ¬ migratedRound.remote.db.CatchesUp migratedRound.caller.db := by
  refine ⟨by decide, reachable_pairAfter _ _, afterMigration_tables, migratedRound_ok, fun h => ?_⟩
  let channel : SyncedRow :=
    ⟨.porchChannels, ⟨⟨"general", "General", "inner", "open", 1⟩, "device-a", 0, 0⟩⟩
  have hholds : migratedRound.caller.tables.Holds channel := by decide
  have hmissing : ¬ migratedRound.remote.db.HoldsStamp channel := by decide
  exact hmissing (h channel hholds)

end Round

section BothWays

variable {A B : Porch} {a b : String} {now now' : Int64} {first second : Porch.SyncRound}

/-- **A round in each direction converges.** Where every row lies above lamport 0 and a key
and a stamp determine the row, both porches end with the larger row under every key, and
further rounds change nothing. -/
theorem syncNow_converges (positive : ∀ x, A.tables.Holds x → 1 ≤ x.lamport)
    (positive' : ∀ x, B.tables.Holds x → 1 ≤ x.lamport)
    (one : Lww.OneRowPerStamp key stamp {x | A.tables.Holds x ∨ B.tables.Holds x})
    (hfirst : A.syncNow a B b now = first) (ok : first.report.error = none)
    (hsecond : first.remote.syncNow b first.caller a now' = second)
    (ok' : second.report.error = none) :
    second.remote.tables.view = second.caller.tables.view ∧
      (∀ k, second.remote.tables.view k =
        Lww.larger stamp (A.tables.view k) (B.tables.view k)) ∧
      Porch.Settled second.remote a second.caller b ∧
      Porch.Settled second.caller b second.remote a := by
  obtain ⟨_, _, round₁⟩ := Porch.syncNow_eq_ok_iff.mp ⟨hfirst, ok⟩
  obtain ⟨_, _, round₂⟩ := Porch.syncNow_eq_ok_iff.mp ⟨hsecond, ok'⟩
  -- no row enters the exchange from elsewhere
  have from₁ : ∀ x, first.caller.tables.Holds x → A.tables.Holds x ∨ B.tables.Holds x :=
    fun x hx => Database.source_of_exchange round₁.pull hx
  have from₂ : ∀ x, first.remote.tables.Holds x → A.tables.Holds x ∨ B.tables.Holds x :=
    fun x hx => (Database.source_of_exchange round₁.push hx).elim .inr (from₁ x)
  have from₃ : ∀ x, second.caller.tables.Holds x → A.tables.Holds x ∨ B.tables.Holds x :=
    fun x hx => (Database.source_of_exchange round₂.pull hx).elim (from₂ x) (from₁ x)
  have from₄ : ∀ x, second.remote.tables.Holds x → A.tables.Holds x ∨ B.tables.Holds x :=
    fun x hx => (Database.source_of_exchange round₂.push hx).elim (from₁ x) (from₃ x)
  have above_zero : ∀ x, A.tables.Holds x ∨ B.tables.Holds x → 0 < x.lamport := by
    intro x hx
    have one_le : 1 ≤ x.lamport := hx.elim (positive x) (positive' x)
    exact lt_of_lt_of_le (by decide) one_le
  -- a push from above 0 delivers every row
  have push₁ : first.remote.db.CatchesUp first.caller.db := fun x hx =>
    (Database.holdsStamp_after_exchange round₁.push hx).mpr (.inr (above_zero x (from₁ x hx)))
  have push₂ : second.remote.db.CatchesUp second.caller.db := fun x hx =>
    (Database.holdsStamp_after_exchange round₂.push hx).mpr (.inr (above_zero x (from₃ x hx)))
  have keep₁ : first.caller.db.CatchesUp A.db := Database.catchesUp_of_batch round₁.pull
  have keep₂ : first.remote.db.CatchesUp B.db := Database.catchesUp_of_batch round₁.push
  have keep₃ : second.caller.db.CatchesUp first.remote.db := Database.catchesUp_of_batch round₂.pull
  have callerView : ∀ k, second.caller.tables.view k =
      Lww.larger stamp (A.tables.view k) (B.tables.view k) :=
    Database.view_eq_larger one from₃ (keep₃.trans (push₁.trans keep₁)) (keep₃.trans keep₂)
  have remoteView : ∀ k, second.remote.tables.view k =
      Lww.larger stamp (A.tables.view k) (B.tables.view k) :=
    Database.view_eq_larger one from₄ (push₂.trans (keep₃.trans (push₁.trans keep₁)))
      (push₂.trans (keep₃.trans keep₂))
  have same : second.remote.tables.view = second.caller.tables.view :=
    funext fun k => (remoteView k).trans (callerView k).symm
  have linked : second.remote.isPersonalDevice b = true := by
    rw [round₂.remote]
    exact round₂.consented
  have linked' : second.caller.isPersonalDevice a = true := by
    rw [round₂.caller, Porch.isPersonalDevice_recordSyncSuccess]
    exact round₂.linked
  exact ⟨same, remoteView, Porch.settled_of_view_eq linked linked' same,
    Porch.settled_of_view_eq linked' linked same.symm⟩

/-- Each device posts, the second more often than the first. -/
def bothPosted : Network Bool :=
  pairAfter (fun _ => .none)
    [.write false (.postMessage "porch-default" "peer-a" "one" "a1" 2),
      .write true (.postMessage "porch-default" "peer-b" "two" "b1" 3),
      .write true (.postMessage "porch-default" "peer-b" "three" "b2" 4)]

set_option maxRecDepth 2000 in
theorem syncNow_converges_bothPosted :
    let A := bothPosted.porch false
    let B := bothPosted.porch true
    let first := A.syncNow "peer-a" B "peer-b" 5
    let second := first.remote.syncNow "peer-b" first.caller "peer-a" 6
    second.remote.tables.view = second.caller.tables.view ∧
      (∀ k, second.remote.tables.view k =
        Lww.larger stamp (A.tables.view k) (B.tables.view k)) ∧
      Porch.Settled second.remote "peer-a" second.caller "peer-b" ∧
      Porch.Settled second.caller "peer-b" second.remote "peer-a" := by
  have positive : ∀ i, ∀ x ∈ (bothPosted.porch i).tables.allRows, 1 ≤ x.lamport := by
    decide
  have one : Lww.OneRowPerStamp key stamp {x | (bothPosted.porch false).tables.Holds x ∨
      (bothPosted.porch true).tables.Holds x} := by
    rw [oneRowPerStamp_iff]
    decide
  exact syncNow_converges (fun x hx => positive false x (SyncedTables.mem_allRows.mpr hx))
    (fun x hx => positive true x (SyncedTables.mem_allRows.mpr hx)) one rfl (by decide) rfl
    (by decide)

end BothWays

end Concorrd
