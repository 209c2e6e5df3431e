import Concorrd.Sync.Replication

/-!
# When a batch is refused

A batch is one transaction: a row the schema refuses takes the whole delta with it, and the
sender will collect the same delta again. `applySyncBatch_succeeds_iff` says exactly when a
delta that another database collected applies. The CHECK expressions never stand in the way,
since the sender's rows pass them. What can stand in the way is a channel that neither side
of the exchange brings, and a knock that is pending for a pair under two ids.
-/

namespace Concorrd

namespace Database

variable {t : SyncedTable} {A B db db' : Database} {row : Row t} {rows : List (Row t)}
  {delta : SyncDelta} {counts : ApplyCounts} {x : SyncedRow}

/-! ## One table -/

/-- A pending entry that a row to be written takes is free, or an earlier row frees it. -/
def EntriesFree (db : Database) (rows : List (Row t)) : Prop :=
  ∀ before row after, rows = before ++ row :: after → ¬ db.HoldsStamp ⟨t, row⟩ →
    ∀ s ∈ (db.tables t).rows, ∀ entry ∈ t.uniqueEntry row.cols, entry ∈ t.uniqueEntry s.cols →
      s.key ≠ row.key → ∃ earlier ∈ before, earlier.key = s.key ∧ ¬ db.HoldsStamp ⟨t, earlier⟩

/-- The rows could be rows of one database: distinct keys, no two of them under one entry,
every CHECK passed. -/
structure Collected (rows : List (Row t)) : Prop where
  nodup : (rows.map Row.key).Nodup
  checks : ∀ r ∈ rows, t.failedCheck r.cols = none
  entries : ∀ r ∈ rows, ∀ s ∈ rows, ∀ entry ∈ t.uniqueEntry r.cols,
    entry ∈ t.uniqueEntry s.cols → r.key = s.key

theorem Collected.tail (h : Collected (row :: rows)) : Collected rows where
  nodup := (List.nodup_cons.mp h.nodup).2
  checks r hr := h.checks r (List.mem_cons_of_mem row hr)
  entries r hr s hs := h.entries r (List.mem_cons_of_mem row hr) s (List.mem_cons_of_mem row hs)

theorem Collected.key_ne (h : Collected (row :: rows)) {r : Row t} (hr : r ∈ rows) :
    r.key ≠ row.key := fun e =>
  (List.nodup_cons.mp h.nodup).1 (e ▸ List.mem_map_of_mem hr)

/-- What is held under a key is settled by the row under that key. -/
theorem holdsStamp_congr (same : db'.find? t row.key = db.find? t row.key) :
    db'.HoldsStamp ⟨t, row⟩ ↔ db.HoldsStamp ⟨t, row⟩ := by
  rw [holdsStamp_iff, holdsStamp_iff, same]

/-- Once the first row is written, the rest need what they needed before. -/
theorem entriesFree_cons_of_puts (hrows : Collected (row :: rows))
    (hputs : db.tables.Puts ⟨t, row⟩ db'.tables) (hnot : ¬ db.HoldsStamp ⟨t, row⟩)
    (first : ∀ s ∈ (db.tables t).rows, ∀ entry ∈ t.uniqueEntry row.cols,
      entry ∈ t.uniqueEntry s.cols → s.key = row.key) :
    EntriesFree db (row :: rows) ↔ EntriesFree db' rows := by
  have held : ∀ r ∈ rows, (db'.HoldsStamp ⟨t, r⟩ ↔ db.HoldsStamp ⟨t, r⟩) := fun r hr =>
    holdsStamp_congr (hputs.table.find?_other (hrows.key_ne hr))
  constructor
  · intro h before r after heq hr s hs entry hentry hsEntry hkey
    have hmem : r ∈ rows := heq ▸ List.mem_append_right before List.mem_cons_self
    rcases hputs.table.mem_iff.mp hs with rfl | ⟨hs, hne⟩
    · exact absurd (hrows.entries _ List.mem_cons_self r (List.mem_cons_of_mem _ hmem) entry
        hsEntry hentry) hkey
    · obtain ⟨e, he, hek, hnotHeld⟩ := h (row :: before) r after (congrArg (row :: ·) heq)
        (fun hh => hr ((held r hmem).mpr hh)) s hs entry hentry hsEntry hkey
      rcases List.mem_cons.mp he with rfl | he
      · exact absurd hek.symm hne
      · have hemem : e ∈ rows := heq ▸ List.mem_append_left _ he
        exact ⟨e, he, hek, fun hh => hnotHeld ((held e hemem).mp hh)⟩
  · intro h before r after heq hr s hs entry hentry hsEntry hkey
    cases before with
    | nil =>
      cases heq
      exact absurd (first s hs entry hentry hsEntry) hkey
    | cons _ before =>
      cases heq
      have hmem : r ∈ before ++ r :: after := List.mem_append_right before List.mem_cons_self
      by_cases hsrow : s.key = row.key
      · exact ⟨row, List.mem_cons_self, hsrow.symm, hnot⟩
      · obtain ⟨e, he, hek, hnotHeld⟩ := h before r after rfl
          (fun hh => hr ((held r hmem).mp hh)) s (hputs.table.mem_iff.mpr (.inr ⟨hs, hsrow⟩))
          entry hentry hsEntry hkey
        have hemem : e ∈ before ++ r :: after := List.mem_append_left _ he
        exact ⟨e, List.mem_cons_of_mem row he, hek, fun hh => hnotHeld ((held e hemem).mpr hh)⟩

/-- A held row that is dropped frees nothing. -/
theorem entriesFree_cons_of_held (held : db.HoldsStamp ⟨t, row⟩) :
    EntriesFree db (row :: rows) ↔ EntriesFree db rows := by
  constructor
  · intro h before r after heq hr s hs entry hentry hsEntry hkey
    obtain ⟨e, he, hek, hnotHeld⟩ := h (row :: before) r after (congrArg (row :: ·) heq) hr s hs
      entry hentry hsEntry hkey
    rcases List.mem_cons.mp he with rfl | he
    · exact absurd held hnotHeld
    · exact ⟨e, he, hek, hnotHeld⟩
  · intro h before r after heq hr s hs entry hentry hsEntry hkey
    cases before with
    | nil =>
      cases heq
      exact absurd held hr
    | cons _ before =>
      cases heq
      obtain ⟨e, he, hek, hnotHeld⟩ := h before r after rfl hr s hs entry hentry hsEntry hkey
      exact ⟨e, List.mem_cons_of_mem row he, hek, hnotHeld⟩

/-- Every row to be written names a channel that exists. -/
def ParentsPresent (db : Database) (rows : List (Row t)) : Prop :=
  ∀ row ∈ rows, ¬ db.HoldsStamp ⟨t, row⟩ → ∀ channel ∈ t.parent row.cols,
    (db.tables .porchChannels).HasKey channel

theorem parentsPresent_cons_of_puts (hrows : Collected (row :: rows))
    (hputs : db.tables.Puts ⟨t, row⟩ db'.tables)
    (first : ∀ channel ∈ t.parent row.cols, (db.tables .porchChannels).HasKey channel) :
    ParentsPresent db (row :: rows) ↔ ParentsPresent db' rows := by
  have held : ∀ r ∈ rows, (db'.HoldsStamp ⟨t, r⟩ ↔ db.HoldsStamp ⟨t, r⟩) := fun r hr =>
    holdsStamp_congr (hputs.table.find?_other (hrows.key_ne hr))
  constructor
  · intro h r hr hnot channel hc
    exact hputs.hasKey_porchChannels
      (h r (List.mem_cons_of_mem row hr) (fun hh => hnot ((held r hr).mpr hh)) channel hc)
  · intro h r hr hnot channel hc
    rcases List.mem_cons.mp hr with rfl | hr
    · exact first channel hc
    · have hkey := h r hr (fun hh => hnot ((held r hr).mp hh)) channel hc
      have ht : (⟨t, r⟩ : SyncedRow).table ≠ .porchChannels :=
        SyncedTables.table_ne_porchChannels_of_parent hc
      rwa [hputs.frame .porchChannels (Ne.symm ht)] at hkey

theorem parentsPresent_cons_of_held (held : db.HoldsStamp ⟨t, row⟩) :
    ParentsPresent db (row :: rows) ↔ ParentsPresent db rows := by
  constructor
  · intro h r hr
    exact h r (List.mem_cons_of_mem row hr)
  · intro h r hr hnot
    rcases List.mem_cons.mp hr with rfl | hr
    · exact absurd held hnot
    · exact h r hr hnot

/-- The rows of one table apply exactly when every row to be written finds its channel and
its pending entry. -/
theorem exists_applyEach_iff {assignment : Assignment t} (hrows : Collected rows) :
    (∃ out, applyEach (applyRemote assignment) db rows = .ok out) ↔
      ParentsPresent db rows ∧ EntriesFree db rows := by
  induction rows generalizing db with
  | nil =>
    refine iff_of_true ⟨_, rfl⟩ ⟨fun _ h => ?_, fun before r after h => ?_⟩
    · cases h
    · cases (List.append_eq_nil_iff.mp h.symm).2
  | cons row rows ih =>
    constructor
    · rintro ⟨⟨final, n⟩, h⟩
      obtain ⟨db', won, m, happly, hrest, _⟩ := applyEach_cons_eq_ok_iff.mp h
      have rest := (ih hrows.tail).mp ⟨_, hrest⟩
      rcases applyRemote_cases happly with ⟨held, _, rfl⟩ | ⟨hnot, _, hputs⟩
      · rw [parentsPresent_cons_of_held held, entriesFree_cons_of_held held]
        exact rest
      · have admits : db.tables.Admits ⟨t, row⟩ :=
          (exists_applyRemote_iff.mp ⟨_, happly⟩).resolve_left hnot
        rw [parentsPresent_cons_of_puts hrows hputs admits.parent,
          entriesFree_cons_of_puts hrows hputs hnot admits.entry]
        exact rest
    · intro ⟨parents, entries⟩
      have applies : db.HoldsStamp ⟨t, row⟩ ∨ db.tables.Admits ⟨t, row⟩ := by
        by_cases held : db.HoldsStamp ⟨t, row⟩
        · exact .inl held
        · refine .inr ⟨hrows.checks row List.mem_cons_self, fun s hs entry hentry hsEntry => ?_,
            parents row List.mem_cons_self held⟩
          by_contra hkey
          obtain ⟨e, he, _⟩ := entries [] row rows rfl held s hs entry hentry hsEntry hkey
          cases he
      have succeeds : ∃ out, applyRemote assignment db row = .ok out :=
        exists_applyRemote_iff.mpr applies
      obtain ⟨⟨db', won⟩, happly⟩ := succeeds
      have rest : ParentsPresent db' rows ∧ EntriesFree db' rows := by
        rcases applyRemote_cases happly with ⟨held, _, rfl⟩ | ⟨hnot, _, hputs⟩
        · rw [← parentsPresent_cons_of_held held, ← entriesFree_cons_of_held held]
          exact ⟨parents, entries⟩
        · have admits : db.tables.Admits ⟨t, row⟩ := applies.resolve_left hnot
          rw [← parentsPresent_cons_of_puts hrows hputs admits.parent,
            ← entriesFree_cons_of_puts hrows hputs hnot admits.entry]
          exact ⟨parents, entries⟩
      obtain ⟨⟨final, m⟩, hrest⟩ := (ih hrows.tail).mpr rest
      exact ⟨_, applyEach_cons_eq_ok_iff.mpr ⟨db', won, m, happly, hrest, rfl⟩⟩

/-! ## The whole batch -/

/-- Apply the rows of one table after another, without the counts. -/
def applyTables (delta : SyncDelta) : Database → List SyncedTable → Except PorchError Database
  | db, [] => .ok db
  | db, t :: ts =>
    match applyEach (applyRemote (assignmentOf t)) db (delta.rows t) with
    | .error e => .error e
    | .ok (db, _) => applyTables delta db ts

theorem applyTables_cons_of_ok {ts : List SyncedTable} {n : Nat}
    (h : applyEach (applyRemote (assignmentOf t)) db (delta.rows t) = .ok (db', n)) :
    applyTables delta db (t :: ts) = applyTables delta db' ts := by
  simp only [applyTables, h]

private theorem table_then {e : Except PorchError (Database × Nat)}
    {f : Database → Except PorchError Database}
    {g : Database × Nat → Except PorchError (Database × ApplyCounts)}
    (h : ∀ out, f out.1 = (g out).map Prod.fst) :
    (match e with
      | .error e => .error e
      | .ok (db, _) => f db) = (e >>= g).map Prod.fst := by
  cases e with
  | error e => rfl
  | ok out => exact h out

/-- A batch visits the tables in order. -/
theorem applyTables_all :
    applyTables delta db SyncedTable.all = (db.applySyncBatch delta).map Prod.fst := by
  apply table_then; intro _
  apply table_then; intro _
  apply table_then; intro _
  apply table_then; intro _
  apply table_then; intro _
  apply table_then; intro _
  apply table_then; intro _
  rfl

/-- Every row, when its turn comes, is held, or is admitted by tables of this view. -/
def Fits : (RowKey → Option SyncedRow) → List SyncedRow → Prop
  | _, [] => True
  | view, x :: xs =>
    (Lww.Held SyncedRow.key SyncedRow.stamp view x ∨
        ∀ T : SyncedTables, T.view = view → T.Admits x) ∧
      Fits (Lww.offer SyncedRow.key SyncedRow.stamp view x) xs

theorem fits_append {view : RowKey → Option SyncedRow} {xs ys : List SyncedRow} :
    Fits view (xs ++ ys) ↔
      Fits view xs ∧ Fits (Lww.offerAll SyncedRow.key SyncedRow.stamp view xs) ys := by
  induction xs generalizing view with
  | nil => exact ⟨fun h => ⟨trivial, h⟩, And.right⟩
  | cons x xs ih => exact (and_congr_right fun _ => ih).trans and_assoc.symm

/-- Tables that hold the same rows admit the same rows. -/
theorem admits_congr {T T' : SyncedTables} (same : T'.view = T.view) (h : T.Admits x) :
    T'.Admits x := by
  have holds : ∀ y, T'.Holds y ↔ T.Holds y := fun y => by
    rw [← SyncedTables.view_key_eq_some_iff, ← SyncedTables.view_key_eq_some_iff, same]
  refine ⟨h.check, fun s hs => h.entry s ((holds ⟨x.table, s⟩).mp hs), fun channel hc => ?_⟩
  obtain ⟨row, hrow, hkey⟩ := h.parent channel hc
  exact ⟨row, (holds ⟨.porchChannels, row⟩).mpr hrow, hkey⟩

/-- The rows of one table are applied exactly when they fit. -/
theorem exists_applyEach_iff_fits (assignment : Assignment t) :
    (∃ out, applyEach (applyRemote assignment) db rows = .ok out) ↔
      Fits db.tables.view (rows.map (SyncedRow.mk t)) := by
  induction rows generalizing db with
  | nil => exact iff_of_true ⟨_, rfl⟩ trivial
  | cons row rows ih =>
    have first : (db.HoldsStamp ⟨t, row⟩ ∨
        ∀ T : SyncedTables, T.view = db.tables.view → T.Admits ⟨t, row⟩) ↔
        ∃ out, applyRemote assignment db row = .ok out := by
      rw [exists_applyRemote_iff]
      exact or_congr_right ⟨fun h => h db.tables rfl, fun h T same => admits_congr same h⟩
    constructor
    · rintro ⟨⟨db', n⟩, h⟩
      obtain ⟨db₁, won, m, hrow, hrest, rfl⟩ := applyEach_cons_eq_ok_iff.mp h
      refine ⟨first.mpr ⟨_, hrow⟩, ?_⟩
      rw [← view_of_applyRemote hrow]
      exact ih.mp ⟨_, hrest⟩
    · rintro ⟨hfirst, hfits⟩
      obtain ⟨⟨db₁, won⟩, hrow⟩ := first.mp hfirst
      rw [← view_of_applyRemote hrow] at hfits
      obtain ⟨⟨db', m⟩, hrest⟩ := ih.mpr hfits
      exact ⟨_, applyEach_cons_eq_ok_iff.mpr ⟨db₁, won, m, hrow, hrest, rfl⟩⟩

/-- Whole tables are applied exactly when their rows fit. -/
theorem exists_applyTables_iff_fits {ts : List SyncedTable} :
    (∃ db', applyTables delta db ts = .ok db') ↔
      Fits db.tables.view (ts.flatMap fun t => (delta.rows t).map (SyncedRow.mk t)) := by
  induction ts generalizing db with
  | nil => exact iff_of_true ⟨db, rfl⟩ trivial
  | cons t ts ih =>
    rw [List.flatMap_cons, fits_append, ← exists_applyEach_iff_fits (assignmentOf t)]
    constructor
    · rintro ⟨db', h⟩
      simp only [applyTables] at h
      split at h
      · cases h
      · rename_i db₁ n hrows
        refine ⟨⟨_, hrows⟩, ?_⟩
        rw [← (appliedEach hrows).view]
        exact ih.mp ⟨db', h⟩
    · rintro ⟨⟨⟨db₁, n⟩, hrows⟩, hfits⟩
      rw [← (appliedEach hrows).view] at hfits
      rw [applyTables_cons_of_ok hrows]
      exact ih.mpr hfits

theorem exists_applySyncBatch_iff_tables : (∃ out, db.applySyncBatch delta = .ok out) ↔
    ∃ db', applyTables delta db SyncedTable.all = .ok db' := by
  rw [applyTables_all]
  cases db.applySyncBatch delta with
  | error e => simp only [Except.map, reduceCtorEq, exists_false]
  | ok out => simp only [Except.map, Except.ok.injEq, exists_eq']

/-- **When any delta applies.** A batch succeeds exactly when its rows fit. -/
theorem exists_applySyncBatch_iff : (∃ out, db.applySyncBatch delta = .ok out) ↔
    Fits db.tables.view delta.all :=
  exists_applySyncBatch_iff_tables.trans exists_applyTables_iff_fits

/-- Tables other than the channels, one after another, from a database that still has the
start's rows in them. -/
theorem exists_applyTables_iff {ts : List SyncedTable} {P : String → Prop}
    (hdelta : ∀ t, Collected (delta.rows t)) (nodup : ts.Nodup) (noChannels : .porchChannels ∉ ts)
    (same : ∀ t ∈ ts, db.tables t = A.tables t)
    (channels : ∀ c, (db.tables .porchChannels).HasKey c ↔ P c) :
    (∃ db', applyTables delta db ts = .ok db') ↔
      ∀ t ∈ ts, (∀ row ∈ delta.rows t, ¬ A.HoldsStamp ⟨t, row⟩ → ∀ channel ∈ t.parent row.cols,
        P channel) ∧ EntriesFree A (delta.rows t) := by
  induction ts generalizing db with
  | nil =>
    refine iff_of_true ⟨db, rfl⟩ fun t ht => ?_
    cases ht
  | cons t ts ih =>
    have table : db.tables t = A.tables t := same t List.mem_cons_self
    have held : ∀ row : Row t, db.HoldsStamp ⟨t, row⟩ ↔ A.HoldsStamp ⟨t, row⟩ := fun row => by
      refine holdsStamp_congr ?_
      rw [find?, find?, table]
    have now : (∃ out, applyEach (applyRemote (assignmentOf t)) db (delta.rows t) = .ok out) ↔
        (∀ row ∈ delta.rows t, ¬ A.HoldsStamp ⟨t, row⟩ → ∀ channel ∈ t.parent row.cols,
          P channel) ∧ EntriesFree A (delta.rows t) := by
      rw [exists_applyEach_iff (hdelta t)]
      simp only [ParentsPresent, EntriesFree, held, channels, table]
    rw [List.forall_mem_cons, ← now]
    obtain ⟨hnot, nodup⟩ := List.nodup_cons.mp nodup
    have rest : ∀ out, applyEach (applyRemote (assignmentOf t)) db (delta.rows t) = .ok out →
        ((∃ db', applyTables delta out.1 ts = .ok db') ↔ ∀ t ∈ ts,
          (∀ row ∈ delta.rows t, ¬ A.HoldsStamp ⟨t, row⟩ → ∀ channel ∈ t.parent row.cols,
            P channel) ∧ EntriesFree A (delta.rows t)) := by
      intro ⟨db', n⟩ hout
      have frame := (appliedEach hout).frame
      refine ih nodup (fun h => noChannels (List.mem_cons_of_mem t h)) (fun t' ht' => ?_)
        fun c => ?_
      · rw [frame t' fun e => hnot (e ▸ ht')]
        exact same t' (List.mem_cons_of_mem t ht')
      · rw [frame _ fun e => noChannels (e ▸ List.mem_cons_self), channels]
    simp only [applyTables]
    cases hout : applyEach (applyRemote (assignmentOf t)) db (delta.rows t) with
    | error e => simp only [reduceCtorEq, exists_false, false_and]
    | ok out => simp only [Except.ok.injEq, exists_eq', true_and, rest out hout]

/-- The rows a database collects, in whatever order they were read. -/
theorem collected_of_perm {cursor : SyncCursor}
    (h : (delta.rows t).Perm ((B.collectDelta cursor).rows t)) : Collected (delta.rows t) := by
  have mem : ∀ r ∈ delta.rows t, r ∈ (B.tables t).rows := by
    intro r hr
    have hmem := h.mem_iff.mp hr
    rw [rows_collectDelta] at hmem
    exact (mem_rowsSince.mp hmem).1
  refine ⟨?_, fun r hr => B.checks t (SyncedTable.mem_all t) r (mem r hr), fun r hr s hs =>
    B.entries t (SyncedTable.mem_all t) r (mem r hr) s (mem s hs)⟩
  rw [(h.map Row.key).nodup_iff, rows_collectDelta]
  exact (B.tables t).nodup.sublist (List.filter_sublist.map Row.key)

/-- A channel has neither a parent nor an entry, so channels always apply. -/
theorem exists_applyEach_channels {channels : List PorchChannelRow} (h : Collected channels) :
    ∃ out, applyEach applyRemoteChannel db channels = .ok out := by
  refine (exists_applyEach_iff h).mpr ⟨fun row _ _ channel hc => ?_, ?_⟩
  · cases hc
  · intro before row after _ _ s _ entry hentry
    cases hentry

/-- After the channels of a delta, a channel exists that was there or came with it. -/
theorem hasKey_after_channels {channels : List PorchChannelRow} {n : Nat} {c : String}
    (h : applyEach applyRemoteChannel db channels = .ok (db', n)) :
    (db'.tables .porchChannels).HasKey c ↔
      (db.tables .porchChannels).HasKey c ∨ ∃ row ∈ channels, row.key = c := by
  have view := (appliedEach h).view
  rw [KeyedTable.hasKey_iff_isSome, KeyedTable.hasKey_iff_isSome]
  have some_iff : ∀ T : SyncedTables, ((T .porchChannels).find? c).isSome ↔
      ∃ x, T.view ⟨.porchChannels, c⟩ = some x := by
    intro T
    rw [SyncedTables.view, ← Option.isSome_iff_exists, Option.isSome_map]
  rw [some_iff, some_iff, view]
  constructor
  · rintro ⟨x, hx⟩
    rcases Lww.source_of_offerAll hx with hold | ⟨hmem, hkey⟩
    · exact .inl ⟨x, hold⟩
    · obtain ⟨row, hrow, rfl⟩ := List.mem_map.mp hmem
      cases hkey
      exact .inr ⟨row, hrow, rfl⟩
  · rintro (⟨x, hx⟩ | ⟨row, hrow, rfl⟩)
    · obtain ⟨hholds, hkey⟩ := SyncedTables.view_eq_some_iff.mp hx
      obtain ⟨y, hy, _⟩ := Lww.Held.offerAll (holdsStamp_of_holds hholds)
        (channels.map (SyncedRow.mk .porchChannels))
      rw [hkey] at hy
      exact ⟨y, hy⟩
    · have held : Lww.Held SyncedRow.key SyncedRow.stamp (Lww.offerAll SyncedRow.key
          SyncedRow.stamp db.tables.view (channels.map (SyncedRow.mk .porchChannels)))
          ⟨.porchChannels, row⟩ := Lww.held_offerAll_of_mem (List.mem_map_of_mem hrow)
      obtain ⟨y, hy, _⟩ := held
      exact ⟨y, hy⟩

/-- Only knocks take entries, and a knock takes one while it is pending. -/
theorem entriesFree_knocks_iff {knocks : List ChannelKnockRow} : EntriesFree A knocks ↔
    ∀ before knock after, knocks = before ++ knock :: after →
      ¬ A.HoldsStamp ⟨.channelKnocks, knock⟩ → knock.cols.status = "pending" →
      ∀ other ∈ (A.tables .channelKnocks).rows, other.cols.status = "pending" →
        other.cols.channelId = knock.cols.channelId →
        other.cols.knockerPeerId = knock.cols.knockerPeerId → other.cols.id ≠ knock.cols.id →
        ∃ earlier ∈ before, earlier.cols.id = other.cols.id ∧
          ¬ A.HoldsStamp ⟨.channelKnocks, earlier⟩ := by
  have entry_iff : ∀ (cols : ChannelKnockCols) (entry : String × String),
      entry ∈ SyncedTable.channelKnocks.uniqueEntry cols ↔
        cols.status = "pending" ∧ (cols.channelId, cols.knockerPeerId) = entry := by
    intro cols entry
    show entry ∈ (if cols.status = "pending" then some (cols.channelId, cols.knockerPeerId)
      else none) ↔ _
    split
    · rename_i hpending
      simp only [Option.mem_def, Option.some.injEq, hpending, true_and]
    · rename_i hpending
      simp only [Option.mem_def, reduceCtorEq, hpending, false_and]
  constructor
  · intro h before knock after heq hnot pending other hother pending' hchannel hpeer hid
    refine h before knock after heq hnot other hother (knock.cols.channelId,
      knock.cols.knockerPeerId) ((entry_iff _ _).mpr ⟨pending, rfl⟩) ((entry_iff _ _).mpr ?_) hid
    exact ⟨pending', by rw [hchannel, hpeer]⟩
  · intro h before knock after heq hnot other hother entry hentry hentry' hid
    obtain ⟨pending, rfl⟩ := (entry_iff _ _).mp hentry
    obtain ⟨pending', hpair⟩ := (entry_iff _ _).mp hentry'
    obtain ⟨hchannel, hpeer⟩ := Prod.mk.injEq .. ▸ hpair
    exact h before knock after heq hnot pending other hother pending' hchannel hpeer hid

theorem entriesFree_of_ne_knocks (ht : t ≠ .channelKnocks) : EntriesFree A rows := by
  intro before row after _ _ s _ entry hentry
  cases t with
  | channelKnocks => exact absurd rfl ht
  | porchChannels => cases hentry
  | channelMessages => cases hentry
  | channelAcl => cases hentry
  | channelThemes => cases hentry
  | porchAssets => cases hentry
  | obsidianChannels => cases hentry

/-- **When a delta applies.** A delta that another database collected, read in any order,
applies exactly when every row it has to write names a channel that is there or comes with
it, and every pending knock it has to write finds its pair free: a knock of another id that
is pending for the pair is overwritten by an earlier row of the delta. -/
theorem applySyncBatch_succeeds_iff {cursor : SyncCursor}
    (hdelta : ∀ t, (delta.rows t).Perm ((B.collectDelta cursor).rows t)) :
    (∃ out, A.applySyncBatch delta = .ok out) ↔
      (∀ x ∈ delta.all, ¬ A.HoldsStamp x → ∀ channel ∈ x.table.parent x.row.cols,
        (A.tables .porchChannels).HasKey channel ∨ ∃ row ∈ delta.channels, row.key = channel) ∧
      ∀ before knock after, delta.knocks = before ++ knock :: after →
        ¬ A.HoldsStamp ⟨.channelKnocks, knock⟩ → knock.cols.status = "pending" →
        ∀ other ∈ (A.tables .channelKnocks).rows, other.cols.status = "pending" →
          other.cols.channelId = knock.cols.channelId →
          other.cols.knockerPeerId = knock.cols.knockerPeerId → other.cols.id ≠ knock.cols.id →
          ∃ earlier ∈ before, earlier.cols.id = other.cols.id ∧
            ¬ A.HoldsStamp ⟨.channelKnocks, earlier⟩ := by
  have collected : ∀ t, Collected (delta.rows t) := fun t => collected_of_perm (hdelta t)
  have channelsApply : ∃ out, applyEach applyRemoteChannel A delta.channels = .ok out :=
    exists_applyEach_channels (collected .porchChannels)
  obtain ⟨⟨db, n⟩, hchannels⟩ := channelsApply
  have others : applyTables delta A SyncedTable.all =
      applyTables delta db SyncedTable.all.tail := applyTables_cons_of_ok hchannels
  have frame := (appliedEach hchannels).frame
  rw [exists_applySyncBatch_iff_tables, others,
    exists_applyTables_iff (A := A) collected (by decide) (by decide)
    (fun t ht => frame t fun e => absurd (e ▸ ht) (by decide))
    (fun c => hasKey_after_channels hchannels), ← entriesFree_knocks_iff]
  constructor
  · intro h
    refine ⟨fun x hx hnot channel hc => ?_, (h .channelKnocks (by decide)).2⟩
    have htail : x.table ∈ SyncedTable.all.tail := by
      rcases List.mem_cons.mp (SyncedTable.mem_all x.table) with e | htail
      · exact absurd e (SyncedTables.table_ne_porchChannels_of_parent hc)
      · exact htail
    exact (h x.table htail).1 x.row (SyncDelta.mem_all.mp hx) hnot channel hc
  · intro ⟨parents, entries⟩ t _
    refine ⟨fun row hrow hnot channel hc =>
      parents ⟨t, row⟩ (SyncDelta.mem_all.mpr hrow) hnot channel hc, ?_⟩
    by_cases ht : t = .channelKnocks
    · subst ht
      exact entries
    · exact entriesFree_of_ne_knocks ht

end Database

/-- One visitor knocks on both devices while they are apart, on the second one later. -/
def knockedTwice : Network Bool :=
  pairAfter (fun _ => .none)
    [.write false (.knock "porch-default" "visitor" none "knock-a" 2),
      .write true (.postMessage "porch-default" "peer-b" "hello" "b1" 3),
      .write true (.knock "porch-default" "visitor" none "knock-b" 4)]

/-- The second device makes a channel and posts in it, under a channel lamport the first
device has passed. -/
def orphanedPost : Network Bool :=
  pairAfter (fun _ => .none)
    [.write false (.insertChannel "red" "Red" .inner .open 2),
      .write false (.insertChannel "green" "Green" .inner .open 3),
      .write true (.insertChannel "blue" "Blue" .inner .open 4),
      .write true (.postMessage "blue" "peer-b" "hello" "b1" 5)]

/-- What the second device answers to a pull of the first. -/
def pulledBy (net : Network Bool) : SyncDelta :=
  (net.porch true).db.collectDelta (net.porch false).db.localCursor

theorem applySyncBatch_succeeds_iff_knockedTwice :
    (∃ out, (knockedTwice.porch false).db.applySyncBatch (pulledBy knockedTwice) = .ok out) ↔
      (∀ x ∈ (pulledBy knockedTwice).all, ¬ (knockedTwice.porch false).db.HoldsStamp x →
        ∀ channel ∈ x.table.parent x.row.cols,
          ((knockedTwice.porch false).tables .porchChannels).HasKey channel ∨
            ∃ row ∈ (pulledBy knockedTwice).channels, row.key = channel) ∧
      ∀ before knock after, (pulledBy knockedTwice).knocks = before ++ knock :: after →
        ¬ (knockedTwice.porch false).db.HoldsStamp ⟨.channelKnocks, knock⟩ →
        knock.cols.status = "pending" →
        ∀ other ∈ ((knockedTwice.porch false).tables .channelKnocks).rows,
          other.cols.status = "pending" → other.cols.channelId = knock.cols.channelId →
          other.cols.knockerPeerId = knock.cols.knockerPeerId → other.cols.id ≠ knock.cols.id →
          ∃ earlier ∈ before, earlier.cols.id = other.cols.id ∧
            ¬ (knockedTwice.porch false).db.HoldsStamp ⟨.channelKnocks, earlier⟩ :=
  Database.applySyncBatch_succeeds_iff fun _ => List.Perm.refl _

set_option maxRecDepth 2000 in
/-- Pulls that reachable networks refuse: one for a knock that is pending under two ids, one
for a message whose channel was skipped. -/
theorem pull_wedges :
    (knockedTwice.Reachable pairPeer ∧
      (knockedTwice.porch false).db.applySyncBatch (pulledBy knockedTwice) =
        .error (.sqlite (.unique pendingIndex))) ∧
    orphanedPost.Reachable pairPeer ∧
      (orphanedPost.porch false).db.applySyncBatch (pulledBy orphanedPost) =
        .error (.sqlite .foreignKey) := by
  refine ⟨⟨reachable_pairAfter _ _, errorOf_eq_some_iff.mp ?_⟩, reachable_pairAfter _ _,
    errorOf_eq_some_iff.mp ?_⟩
  · decide
  · decide

end Concorrd
