import Concorrd.Sync.Batch

/-!
# Exchanges

What one exchange does to the rows of two databases, stated through what is held. The rows
of the source that arrive are those above the cursor, so a row of the source is held
afterwards exactly when it was held before or lies above the cursor.

`syncNow_eq_ok_iff` reads a round back as its two exchanges.
-/

namespace Concorrd

namespace Database

/-- Every row of the source is held, under its key, with a stamp at least as large. -/
def CatchesUp (db source : Database) : Prop := ∀ x, source.tables.Holds x → db.HoldsStamp x

variable {db db' source : Database} {cursor : SyncCursor} {counts : ApplyCounts} {x : SyncedRow}

theorem holdsStamp_of_holds (h : db.tables.Holds x) : db.HoldsStamp x :=
  ⟨x, SyncedTables.view_key_eq_some_iff.mpr h, le_rfl⟩

theorem CatchesUp.refl : db.CatchesUp db := fun _ => holdsStamp_of_holds

/-- What a database that is caught up with is held too. -/
theorem CatchesUp.holdsStamp (h : db.CatchesUp source) (hx : source.HoldsStamp x) :
    db.HoldsStamp x := by
  obtain ⟨y, hy, hle⟩ := hx
  obtain ⟨hsource, hkey⟩ := SyncedTables.view_eq_some_iff.mp hy
  obtain ⟨z, hz, hge⟩ := h y hsource
  rw [hkey] at hz
  exact ⟨z, hz, hle.trans hge⟩

theorem CatchesUp.trans {db₁ db₂ db₃ : Database} (h : db₁.CatchesUp db₂) (h' : db₂.CatchesUp db₃) :
    db₁.CatchesUp db₃ := fun x hx => h.holdsStamp (h' x hx)

/-- A database whose rows come from two others, and which covers both, holds the larger row
under every key. -/
theorem view_eq_larger {A B : Database}
    (one : Lww.OneRowPerStamp SyncedRow.key SyncedRow.stamp
      {x | A.tables.Holds x ∨ B.tables.Holds x})
    (source : ∀ x, db.tables.Holds x → A.tables.Holds x ∨ B.tables.Holds x)
    (covers : db.CatchesUp A) (covers' : db.CatchesUp B) (k : RowKey) :
    db.tables.view k = Lww.larger SyncedRow.stamp (A.tables.view k) (B.tables.view k) := by
  apply Lww.eq_larger
  · intro x hx
    obtain ⟨hholds, hkey⟩ := SyncedTables.view_eq_some_iff.mp hx
    refine (source x hholds).imp ?_ ?_
    · exact fun h => SyncedTables.view_eq_some_iff.mpr ⟨h, hkey⟩
    · exact fun h => SyncedTables.view_eq_some_iff.mpr ⟨h, hkey⟩
  · intro x hx
    obtain ⟨hholds, rfl⟩ := SyncedTables.view_eq_some_iff.mp hx
    exact covers x hholds
  · intro x hx
    obtain ⟨hholds, rfl⟩ := SyncedTables.view_eq_some_iff.mp hx
    exact covers' x hholds
  · intro x y hx hy hstamp
    obtain ⟨hA, hk⟩ := SyncedTables.view_eq_some_iff.mp hx
    obtain ⟨hB, hk'⟩ := SyncedTables.view_eq_some_iff.mp hy
    exact one x (.inl hA) y (.inr hB) (hk.trans hk'.symm) hstamp

/-- A database that holds the larger row under every key covers both. -/
theorem catchesUp_of_view_eq_larger {A B : Database}
    (h : ∀ k, db.tables.view k = Lww.larger SyncedRow.stamp (A.tables.view k) (B.tables.view k)) :
    db.CatchesUp A ∧ db.CatchesUp B := by
  constructor
  · intro x hx
    unfold HoldsStamp Lww.Held
    rw [h]
    exact Lww.covers_larger (SyncedTables.view_key_eq_some_iff.mpr hx)
  · intro x hx
    unfold HoldsStamp Lww.Held
    rw [h]
    exact Lww.covers_larger' (SyncedTables.view_key_eq_some_iff.mpr hx)

/-- Databases with one view cover each other. -/
theorem catchesUp_of_view_eq (h : db.tables.view = source.tables.view) : db.CatchesUp source := by
  intro x hx
  unfold HoldsStamp
  rw [h]
  exact holdsStamp_of_holds hx

/-- The row is in the delta, and its register is left with it when the delta is offered. -/
def Stores (delta : SyncDelta) (T : SyncedTables) (x : SyncedRow) : Prop :=
  x ∈ delta.all ∧
    Lww.offerAll SyncedRow.key SyncedRow.stamp T.view delta.all x.key = some x

section

variable {delta : SyncDelta} (h : db.applySyncBatch delta = .ok (db', counts))
include h

/-- A batch never lowers the stamp under a key. -/
theorem catchesUp_of_batch : db'.CatchesUp db := by
  intro x hx
  unfold HoldsStamp
  rw [(appliedBatch h).view]
  exact Lww.Held.offerAll (holdsStamp_of_holds hx) _

/-- Every row of the delta is held afterwards. -/
theorem holdsStamp_of_mem_delta (hx : x ∈ delta.all) : db'.HoldsStamp x := by
  unfold HoldsStamp
  rw [(appliedBatch h).view]
  exact Lww.held_offerAll_of_mem hx

/-- A row found after a batch was there before or came with the delta. -/
theorem source_of_batch (hx : db'.tables.Holds x) : db.tables.Holds x ∨ x ∈ delta.all := by
  have hview := SyncedTables.view_key_eq_some_iff.mpr hx
  rw [(appliedBatch h).view] at hview
  rcases Lww.source_of_offerAll hview with hold | ⟨hmem, _⟩
  · exact .inl (SyncedTables.view_key_eq_some_iff.mp hold)
  · exact .inr hmem

/-- What holds of every row before a batch holds of every row after it exactly when it holds of the
rows the batch stores. -/
theorem forall_holds_of_batch {P : SyncedRow → Prop} (old : ∀ x, db.tables.Holds x → P x) :
    (∀ x, db'.tables.Holds x → P x) ↔ ∀ x, Stores delta db.tables x → P x := by
  have left (x : SyncedRow) : db'.tables.Holds x ↔
      Lww.offerAll SyncedRow.key SyncedRow.stamp db.tables.view delta.all x.key = some x := by
    rw [← (appliedBatch h).view]
    exact SyncedTables.view_key_eq_some_iff.symm
  constructor
  · intro all x hx
    exact all x ((left x).mpr hx.2)
  · intro stored x hx
    rcases source_of_batch h hx with hold | hmem
    · exact old x hold
    · exact stored x ⟨hmem, (left x).mp hx⟩

/-- The same of the rows of one table. -/
theorem forall_rows_of_batch {t : SyncedTable} {P : Row t → Prop}
    (old : ∀ row, db.tables.Holds ⟨t, row⟩ → P row) :
    (∀ row, db'.tables.Holds ⟨t, row⟩ → P row) ↔
      ∀ row, Stores delta db.tables ⟨t, row⟩ → P row := by
  have stores := forall_holds_of_batch h (P := fun x => ∀ row : Row t, x = ⟨t, row⟩ → P row)
    fun x hx row same => old row (same ▸ hx)
  constructor
  · intro after row hrow
    exact stores.mp (fun x hx row same => after row (same ▸ hx)) _ hrow row rfl
  · intro stored row hrow
    exact stores.mpr (fun x hx row same => stored row (same ▸ hx)) _ hrow row rfl

end

section

variable (h : db.applySyncBatch (source.collectDelta cursor) = .ok (db', counts))
include h

/-- A row found after an exchange was on one of the two sides. -/
theorem source_of_exchange (hx : db'.tables.Holds x) : db.tables.Holds x ∨ source.tables.Holds x :=
  (source_of_batch h hx).imp_right fun hmem => (mem_collectDelta.mp hmem).1

/-- A row that an exchange displaced is covered by the source. -/
theorem holdsStamp_of_displaced (hx : db.tables.Holds x) (gone : ¬ db'.tables.Holds x) :
    source.HoldsStamp x := by
  obtain ⟨y, hy, hle⟩ := catchesUp_of_batch h x hx
  obtain ⟨hholds, hkey⟩ := SyncedTables.view_eq_some_iff.mp hy
  rcases source_of_exchange h hholds with hdb | hsource
  · have incumbent : db.tables.view x.key = some y :=
      SyncedTables.view_eq_some_iff.mpr ⟨hdb, hkey⟩
    rw [SyncedTables.view_key_eq_some_iff.mpr hx] at incumbent
    cases incumbent
    exact absurd hholds gone
  · exact ⟨y, SyncedTables.view_eq_some_iff.mpr ⟨hsource, hkey⟩, hle⟩

/-- A row of the source is held after the exchange exactly when it was held before or lies
above the cursor. -/
theorem holdsStamp_after_exchange (hx : source.tables.Holds x) :
    db'.HoldsStamp x ↔ db.HoldsStamp x ∨ cursor.sinceFor x.table.cursorKey < x.lamport := by
  constructor
  · intro held
    by_cases habove : cursor.sinceFor x.table.cursorKey < x.lamport
    · exact .inr habove
    · -- the row did not travel, so its register is the one before
      have hview : source.tables.view x.key = some x := SyncedTables.view_key_eq_some_iff.mpr hx
      have stays : (source.tables.view x.key).filter (above cursor) = none := by
        rw [hview, Option.filter_eq_none_iff]
        intro y hy
        cases hy
        simpa only [above, decide_eq_true_eq] using habove
      have same := view_of_exchange h x.key
      rw [stays, Lww.larger_none] at same
      unfold HoldsStamp Lww.Held at held
      rw [same] at held
      exact .inl held
  · rintro (held | habove)
    · exact (catchesUp_of_batch h).holdsStamp held
    · exact holdsStamp_of_mem_delta h (mem_collectDelta.mpr ⟨hx, habove⟩)

end

end Database

/-- Whether a key and a stamp determine a row among two databases' rows can be computed. -/
theorem oneRowPerStamp_iff {T T' : SyncedTables} :
    Lww.OneRowPerStamp SyncedRow.key SyncedRow.stamp {x | T.Holds x ∨ T'.Holds x} ↔
      ∀ x ∈ T.allRows ++ T'.allRows, ∀ y ∈ T.allRows ++ T'.allRows,
        x.key = y.key → x.stamp = y.stamp → x = y := by
  simp only [List.mem_append, SyncedTables.mem_allRows]
  rfl

/-! ## A round of device sync -/

namespace Porch

variable {p p' remote remote' : Porch} {me peer : String} {now : Int64} {delta : SyncDelta}
  {counts : ApplyCounts} {round : SyncRound}

theorem applySyncBatch_eq_ok_iff : p.applySyncBatch delta = .ok (p', counts) ↔
    p.db.applySyncBatch delta = .ok (p'.db, counts) ∧ p' = { p with db := p'.db } := by
  unfold applySyncBatch
  cases p.db.applySyncBatch delta with
  | error e => simp only [reduceCtorEq, false_and]
  | ok out =>
    obtain ⟨db, counts'⟩ := out
    constructor
    · intro h
      cases h
      exact ⟨rfl, rfl⟩
    · intro ⟨h, hrest⟩
      cases h
      rw [hrest]

/-- A pull is answered exactly for a linked peer, with the rows above its cursor. -/
theorem dispatch_pullDelta_eq_ok_iff {since : SyncCursor} :
    remote.dispatch me (.pullDelta since) = (remote', .ok (.delta delta)) ↔
      remote.isPersonalDevice me = true ∧ remote' = remote ∧
        delta = remote.db.collectDelta since := by
  cases hlinked : remote.isPersonalDevice me with
  | false =>
    have refused : remote.dispatch me (.pullDelta since) = (remote, .error (.ofError
        (.accessDenied ("peer " ++ me ++ " is not a linked personal device")))) := by
      simp only [dispatch, dispatchInner, assertLinked, hlinked, Bool.false_eq_true, if_false]
      rfl
    simp only [refused, Prod.mk.injEq, reduceCtorEq, and_false, Bool.false_eq_true, false_and]
  | true =>
    have answered : remote.dispatch me (.pullDelta since) =
        (remote, .ok (.delta (remote.db.collectDelta since))) := by
      simp only [dispatch, dispatchInner, assertLinked, hlinked, if_true]
      rfl
    simp only [answered, Prod.mk.injEq, Except.ok.injEq, SyncResult.delta.injEq, true_and]
    constructor
    · intro ⟨h, h'⟩
      exact ⟨h.symm, h'.symm⟩
    · intro ⟨h, h'⟩
      exact ⟨h.symm, h'.symm⟩

/-- What a push of a linked peer answers. -/
theorem dispatch_pushDelta (hlinked : remote.isPersonalDevice me = true) :
    remote.dispatch me (.pushDelta delta) =
      match remote.applySyncBatch delta with
      | .ok (remote, counts) => (remote, .ok (.push counts.countsMap))
      | .error e => (remote, .error (.ofError e)) := by
  simp only [dispatch, dispatchInner, assertLinked, hlinked, if_true, bind, Except.bind, pure,
    Except.pure]
  cases remote.applySyncBatch delta <;> rfl

/-- The two exchanges of a round that reports no error, and what it reports. -/
structure Synced (p : Porch) (me : String) (remote : Porch) (peer : String) (now : Int64)
    (pulled pushed : ApplyCounts) (round : SyncRound) : Prop where
  linked : p.isPersonalDevice peer = true
  consented : remote.isPersonalDevice me = true
  pull : p.db.applySyncBatch (remote.db.collectDelta p.db.localCursor) =
    .ok (round.caller.db, pulled)
  push : remote.db.applySyncBatch (round.caller.db.collectDelta SyncCursor.default) =
    .ok (round.remote.db, pushed)
  caller : round.caller = { p with db := round.caller.db }.recordSyncSuccess peer now
    round.caller.tables.observedMax
  remote : round.remote = { remote with db := round.remote.db }
  report : round.report = ⟨peer, pulled.countsMap, pushed.countsMap, none⟩

/-- A round succeeds exactly when both sides are linked and both batches apply. -/
theorem syncNow_eq_ok_iff : (p.syncNow me remote peer now = round ∧ round.report.error = none) ↔
    ∃ pulled pushed, Synced p me remote peer now pulled pushed round := by
  constructor
  · rintro ⟨rfl, hok⟩
    unfold syncNow at hok ⊢
    cases hlinked : p.isPersonalDevice peer with
    | false =>
      simp only [hlinked, if_true, reduceCtorEq] at hok
    | true =>
      simp only [hlinked, Bool.true_eq_false, if_false] at hok ⊢
      cases hconsent : remote.isPersonalDevice me with
      | false =>
        have refused : remote.dispatch me (.pullDelta p.db.localCursor) =
            (remote, .error (.ofError
              (.accessDenied ("peer " ++ me ++ " is not a linked personal device")))) := by
          simp only [dispatch, dispatchInner, assertLinked, hconsent, Bool.false_eq_true, if_false]
          rfl
        simp only [refused, decodeDelta, reduceCtorEq] at hok
      | true =>
        have answered := dispatch_pullDelta_eq_ok_iff.mpr
          ⟨hconsent, rfl, (rfl : remote.db.collectDelta p.db.localCursor = _)⟩
        simp only [answered, decodeDelta] at hok ⊢
        cases hpull : p.applySyncBatch (remote.db.collectDelta p.db.localCursor) with
        | error e => simp only [hpull, reduceCtorEq] at hok
        | ok out =>
          obtain ⟨p₁, pulled⟩ := out
          simp only [hpull, dispatch_pushDelta hconsent] at hok ⊢
          cases hpush : remote.applySyncBatch (p₁.db.collectDelta SyncCursor.default) with
          | error e => simp only [hpush, decodePush, reduceCtorEq] at hok
          | ok out =>
            obtain ⟨remote₁, pushed⟩ := out
            obtain ⟨hpull, hrest⟩ := applySyncBatch_eq_ok_iff.mp hpull
            obtain ⟨hpush, hrest'⟩ := applySyncBatch_eq_ok_iff.mp hpush
            refine ⟨pulled, pushed, hlinked, hconsent, hpull, hpush, ?_, hrest', rfl⟩
            show p₁.recordSyncSuccess peer now p₁.tables.observedMax =
              ({ p with db := p₁.db } : Porch).recordSyncSuccess peer now p₁.tables.observedMax
            rw [← hrest]
  · rintro ⟨pulled, pushed, h⟩
    have answered := dispatch_pullDelta_eq_ok_iff.mpr
      ⟨h.consented, rfl, (rfl : remote.db.collectDelta p.db.localCursor = _)⟩
    have hpull : p.applySyncBatch (remote.db.collectDelta p.db.localCursor) =
        .ok ({ p with db := round.caller.db }, pulled) :=
      applySyncBatch_eq_ok_iff.mpr ⟨h.pull, rfl⟩
    have hpush : remote.applySyncBatch (round.caller.db.collectDelta SyncCursor.default) =
        .ok ({ remote with db := round.remote.db }, pushed) :=
      applySyncBatch_eq_ok_iff.mpr ⟨h.push, rfl⟩
    refine ⟨?_, congrArg SyncReport.error h.report⟩
    unfold syncNow
    simp only [h.linked, Bool.true_eq_false, if_false, answered, decodeDelta, hpull,
      dispatch_pushDelta h.consented, hpush, decodePush]
    obtain ⟨caller, remote', report⟩ := round
    have hcaller := h.caller
    have hremote := h.remote
    have hreport := h.report
    simp only at hcaller hremote hreport
    rw [SyncRound.mk.injEq]
    exact ⟨hcaller.symm, hremote.symm, hreport.symm⟩

/-- A round of the two changes nothing but the link's record of the round, and reports that
it applied no row. -/
def Settled (p : Porch) (me : String) (remote : Porch) (peer : String) : Prop :=
  ∀ now, p.syncNow me remote peer now =
    ⟨p.recordSyncSuccess peer now p.tables.observedMax, remote,
      ⟨peer, (⟨0, 0, 0, 0, 0, 0, 0⟩ : ApplyCounts).countsMap,
        (⟨0, 0, 0, 0, 0, 0, 0⟩ : ApplyCounts).countsMap, none⟩⟩

/-- Linked porches with one view are settled. -/
theorem settled_of_view_eq (linked : p.isPersonalDevice peer = true)
    (consented : remote.isPersonalDevice me = true) (same : p.tables.view = remote.tables.view) :
    Settled p me remote peer := by
  intro now
  have pull : p.db.applySyncBatch (remote.db.collectDelta p.db.localCursor) =
      .ok (p.db, ⟨0, 0, 0, 0, 0, 0, 0⟩) := Database.applySyncBatch_of_held fun x hx =>
    Database.catchesUp_of_view_eq same x (Database.mem_collectDelta.mp hx).1
  have push : remote.db.applySyncBatch (p.db.collectDelta SyncCursor.default) =
      .ok (remote.db, ⟨0, 0, 0, 0, 0, 0, 0⟩) := Database.applySyncBatch_of_held fun x hx =>
    Database.catchesUp_of_view_eq same.symm x (Database.mem_collectDelta.mp hx).1
  exact (syncNow_eq_ok_iff.mpr ⟨_, _, linked, consented, pull, push, rfl, rfl, rfl⟩).1

end Porch

end Concorrd
