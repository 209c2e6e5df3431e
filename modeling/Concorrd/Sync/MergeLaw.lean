import Concorrd.Sync.Batch

/-!
# The merge is a join

A finite collection of rows reaches a database as deltas. `Arranges` says that some list of
deltas carries exactly those rows, whatever the cut into deltas, the order and the
repetitions. `MergeLaw` states what follows when the batches succeed: the result is one and
the same, and at each key it is the row with the largest stamp among the start row and the
collection.
-/

namespace Concorrd

namespace Database

/-- Apply batches one after another; the first error ends the run. -/
def applyBatches : Database → List SyncDelta → Except PorchError Database
  | db, [] => .ok db
  | db, delta :: deltas =>
    match db.applySyncBatch delta with
    | .error e => .error e
    | .ok (db, _) => applyBatches db deltas

end Database

/-- The deltas carry exactly the rows of the collection, each at least once. -/
def Arranges (deltas : List SyncDelta) (rows : List SyncedRow) : Prop :=
  ∀ x, x ∈ rows ↔ ∃ delta ∈ deltas, x ∈ delta.all

/-- Two deltas joined into one, table by table. -/
def SyncDelta.append (d e : SyncDelta) : SyncDelta where
  channels := d.channels ++ e.channels
  messages := d.messages ++ e.messages
  acl := d.acl ++ e.acl
  knocks := d.knocks ++ e.knocks
  themes := d.themes ++ e.themes
  assets := d.assets ++ e.assets
  obsidian := d.obsidian ++ e.obsidian

theorem SyncDelta.mem_all_append {d e : SyncDelta} {x : SyncedRow} :
    x ∈ (d.append e).all ↔ x ∈ d.all ∨ x ∈ e.all := by
  have rows : ∀ t, (d.append e).rows t = d.rows t ++ e.rows t := by
    intro t
    cases t <;> rfl
  rw [SyncDelta.mem_all, SyncDelta.mem_all, SyncDelta.mem_all, rows, List.mem_append]

/-- What applying a collection of rows to a database amounts to. -/
structure MergeLaw (rows : List SyncedRow) (start : Database) : Prop where
  /-- Each key holds the largest of its start row and the rows of the collection. -/
  largest : ∀ deltas final, Arranges deltas rows → start.applyBatches deltas = .ok final → ∀ k,
    Lww.Winner SyncedRow.stamp (start.tables.view k) (rows.filter fun x => x.key = k)
      (final.tables.view k)
  /-- The cut into deltas, their order and their repetition do not matter. -/
  confluent : ∀ deltas deltas' final final', Arranges deltas rows → Arranges deltas' rows →
    start.applyBatches deltas = .ok final → start.applyBatches deltas' = .ok final' →
    final.tables.view = final'.tables.view
  /-- Two deltas commute. -/
  comm : ∀ d e final final', Arranges [d, e] rows → start.applyBatches [d, e] = .ok final →
    start.applyBatches [e, d] = .ok final' → final.tables.view = final'.tables.view
  /-- Two deltas may be joined into one. -/
  assoc : ∀ d e final final', Arranges [d, e] rows → start.applyBatches [d, e] = .ok final →
    start.applyBatches [d.append e] = .ok final' → final.tables.view = final'.tables.view
  /-- A delta that was applied applies again, writes nothing and counts nothing. -/
  idempotent : ∀ deltas final, Arranges deltas rows → start.applyBatches deltas = .ok final →
    ∀ delta ∈ deltas, final.applySyncBatch delta = .ok (final, ⟨0, 0, 0, 0, 0, 0, 0⟩)
  /-- The stamp under a key is never lowered. -/
  monotone : ∀ deltas final, start.applyBatches deltas = .ok final →
    ∀ x, start.HoldsStamp x → final.HoldsStamp x
  /-- A tombstone is undone by a larger stamp or not at all. -/
  tombstone : ∀ deltas final, start.applyBatches deltas = .ok final → ∀ x y, start.tables.Holds x →
    x.row.syncTombstone ≠ 0 → final.tables.view x.key = some y → y.row.syncTombstone = 0 →
    x.stamp < y.stamp
  /-- The counts of a batch are zero exactly when nothing changed, table by table. -/
  counts : ∀ delta final counts, start.applySyncBatch delta = .ok (final, counts) →
    (counts.total = 0 ↔ final = start) ∧
      ∀ t, counts.count t = 0 ↔ final.tables t = start.tables t

section

variable {start final : Database} {deltas : List SyncDelta} {rows : List SyncedRow}

/-- Batches offer every row of every delta. -/
theorem view_of_applyBatches (h : start.applyBatches deltas = .ok final) :
    final.tables.view = Lww.offerAll SyncedRow.key SyncedRow.stamp start.tables.view
      (deltas.flatMap SyncDelta.all) := by
  induction deltas generalizing start with
  | nil =>
    cases h
    rfl
  | cons delta deltas ih =>
    simp only [Database.applyBatches] at h
    split at h
    · cases h
    rename_i db counts hdelta
    rw [ih h, (Database.appliedBatch hdelta).view, List.flatMap_cons, Lww.offerAll_append]

theorem Arranges.mem_iff (h : Arranges deltas rows) (x : SyncedRow) :
    x ∈ deltas.flatMap SyncDelta.all ↔ x ∈ rows := by
  rw [List.mem_flatMap, h x]

theorem Arranges.swap {d e : SyncDelta} (h : Arranges [d, e] rows) : Arranges [e, d] rows := by
  intro x
  rw [h x]
  simp only [List.mem_cons, List.not_mem_nil, or_false, exists_eq_or_imp, exists_eq_left]
  exact or_comm

theorem Arranges.joined {d e : SyncDelta} (h : Arranges [d, e] rows) :
    Arranges [d.append e] rows := by
  intro x
  rw [h x]
  simp only [List.mem_cons, List.not_mem_nil, or_false, exists_eq_or_imp, exists_eq_left,
    SyncDelta.mem_all_append]

/-- Once a delta has been applied its rows are held. -/
theorem held_of_applyBatches (h : start.applyBatches deltas = .ok final) {x : SyncedRow}
    (hx : x ∈ deltas.flatMap SyncDelta.all) : final.HoldsStamp x := by
  unfold Database.HoldsStamp
  rw [view_of_applyBatches h]
  exact Lww.held_offerAll_of_mem hx

theorem confluent_of_arranges {final' : Database} {deltas' : List SyncDelta}
    (one : Lww.OneRowPerStamp SyncedRow.key SyncedRow.stamp {x | x ∈ rows})
    (harr : Arranges deltas rows) (harr' : Arranges deltas' rows)
    (h : start.applyBatches deltas = .ok final) (h' : start.applyBatches deltas' = .ok final') :
    final.tables.view = final'.tables.view := by
  rw [view_of_applyBatches h, view_of_applyBatches h']
  refine Lww.offerAll_congr _ (fun x => (harr.mem_iff x).trans (harr'.mem_iff x).symm) ?_
  intro x hx y hy
  exact one x ((harr.mem_iff x).mp hx) y ((harr.mem_iff y).mp hy)

theorem undone_by_larger_stamp (h : start.applyBatches deltas = .ok final) {x y : SyncedRow}
    (hx : start.tables.Holds x) (dead : x.row.syncTombstone ≠ 0)
    (hy : final.tables.view x.key = some y) (alive : y.row.syncTombstone = 0) :
    x.stamp < y.stamp := by
  have hwin : Lww.Winner SyncedRow.stamp (start.tables.view x.key)
      ((deltas.flatMap SyncDelta.all).filter fun y => y.key = x.key) (some y) := by
    rw [← hy, view_of_applyBatches h]
    exact Lww.winner_offerAll _ _ _
  have hstart : start.tables.view x.key = some x := SyncedTables.view_key_eq_some_iff.mpr hx
  have hle : x.stamp ≤ y.stamp := Lww.covers_some.mp (hwin.covers_old x hstart)
  refine lt_of_le_of_ne hle fun heq => dead ?_
  rw [hwin.tie x y hstart rfl heq]
  exact alive

end

/-- **The merge law.** Where a key and a stamp determine the row within a collection,
applying the collection to any database is a join. -/
theorem mergeLaw {rows : List SyncedRow}
    (one : Lww.OneRowPerStamp SyncedRow.key SyncedRow.stamp {x | x ∈ rows}) (start : Database) :
    MergeLaw rows start where
  largest deltas final harr h k := by
    rw [view_of_applyBatches h]
    refine (Lww.winner_offerAll start.tables.view _ k).of_mem_iff fun x => ?_
    simp only [List.mem_filter, harr.mem_iff x]
  confluent _ _ _ _ harr harr' h h' := confluent_of_arranges one harr harr' h h'
  comm _ _ _ _ harr h h' := confluent_of_arranges one harr harr.swap h h'
  assoc _ _ _ _ harr h h' := confluent_of_arranges one harr harr.joined h h'
  idempotent deltas final harr h delta hdelta :=
    Database.applySyncBatch_of_held fun x hx =>
      held_of_applyBatches h (List.mem_flatMap.mpr ⟨delta, hdelta, hx⟩)
  monotone deltas final h x hx := by
    unfold Database.HoldsStamp
    rw [view_of_applyBatches h]
    exact Lww.Held.offerAll hx _
  tombstone _ _ h _ _ hx dead hy alive := undone_by_larger_stamp h hx dead hy alive
  counts _ _ _ h :=
    ⟨(Database.appliedBatch h).total_eq_zero_iff, (Database.appliedBatch h).count⟩

/-- Two edits of one channel at the same lamport, one of them a tombstone. -/
def concurrentEdits : List SyncedRow :=
  [⟨.porchChannels, ⟨⟨"room", "Room", "inner", "open", 10⟩, "device-a", 4, 0⟩⟩,
    ⟨.porchChannels, ⟨⟨"room", "Hall", "inner", "open", 10⟩, "device-b", 4, 1⟩⟩]

theorem mergeLaw_concurrentEdits : MergeLaw concurrentEdits Database.empty :=
  mergeLaw (fun x hx y hy _ hstamp => by
    rcases List.mem_pair.mp hx with rfl | rfl <;> rcases List.mem_pair.mp hy with rfl | rfl
    · rfl
    · exact absurd (Row.stamp_eq_iff.mp hstamp).2 (by decide)
    · exact absurd (Row.stamp_eq_iff.mp hstamp).2 (by decide)
    · rfl) _

end Concorrd
