import Concorrd.Sync.Protocol

/-!
# What a batch does

The specification of the two halves of an exchange. `AppliedBatch` says that a batch that
succeeds offers every row of its delta to the register of its key and counts what moved.
`mem_collectDelta` says that a delta is the rows above its cursor. `view_of_exchange` joins
the two: applying what a porch collected leaves, at each key, the larger of what was held
and what passed the cursor.
-/

namespace Concorrd

namespace Database

/-- The first row is applied, then the others. -/
theorem applyEach_cons_eq_ok_iff {t : SyncedTable}
    {apply : Database → Row t → Except PorchError (Database × Bool)} {row : Row t}
    {rows : List (Row t)} {db db' : Database} {n : Nat} :
    applyEach apply db (row :: rows) = .ok (db', n) ↔
      ∃ db₁ won m, apply db row = .ok (db₁, won) ∧ applyEach apply db₁ rows = .ok (db', m) ∧
        n = m + won.toNat := by
  constructor
  · intro h
    simp only [applyEach] at h
    split at h
    · cases h
    rename_i db₁ won hrow
    split at h
    · cases h
    rename_i db₂ m hrest
    cases h
    exact ⟨db₁, won, m, hrow, hrest, rfl⟩
  · rintro ⟨db₁, won, m, hrow, hrest, rfl⟩
    simp only [applyEach, hrow, hrest]

/-- A successful application of rows of one table: the rows are offered to their registers,
no other table moves, the count is zero exactly when this one does not, and rows that are
all held leave the database as it was. -/
structure AppliedEach {t : SyncedTable} (rows : List (Row t)) (db db' : Database) (n : Nat) :
    Prop where
  view : db'.tables.view =
    Lww.offerAll SyncedRow.key SyncedRow.stamp db.tables.view (rows.map (SyncedRow.mk t))
  frame : ∀ t', t' ≠ t → db'.tables t' = db.tables t'
  count : n = 0 ↔ db'.tables t = db.tables t
  still : (∀ row ∈ rows, db.HoldsStamp ⟨t, row⟩) → db' = db

variable {t : SyncedTable} {assignment : Assignment t} {db db' : Database} {rows : List (Row t)}
  {n : Nat} {delta : SyncDelta} {counts : ApplyCounts} {cursor : SyncCursor} {x : SyncedRow}

theorem appliedEach (h : applyEach (applyRemote assignment) db rows = .ok (db', n)) :
    AppliedEach rows db db' n := by
  induction rows generalizing db db' n with
  | nil =>
    cases h
    exact ⟨rfl, fun _ _ => rfl, iff_of_true rfl rfl, fun _ => rfl⟩
  | cons row rows ih =>
    obtain ⟨db₁, won, m, hrow, hrest, rfl⟩ := applyEach_cons_eq_ok_iff.mp h
    have rest := ih hrest
    have view : db'.tables.view = Lww.offerAll SyncedRow.key SyncedRow.stamp db.tables.view
        ((row :: rows).map (SyncedRow.mk t)) := by
      rw [rest.view, view_of_applyRemote hrow]
      rfl
    rcases applyRemote_cases hrow with ⟨_, rfl, rfl⟩ | ⟨hnot, rfl, hputs⟩
    · exact ⟨view, rest.frame, rest.count, fun held =>
        rest.still fun row' h' => held row' (List.mem_cons_of_mem row h')⟩
    · have frame : ∀ t', t' ≠ t → db'.tables t' = db.tables t' := fun t' ht =>
        (rest.frame t' ht).trans (hputs.frame t' ht)
      refine ⟨view, frame, iff_of_false (Nat.succ_ne_zero m) fun htable => hnot ?_,
        fun held => absurd (held row List.mem_cons_self) hnot⟩
      -- an unmoved table would mean the row was held all along
      have htables : db'.tables = db.tables := funext fun t' => by
        by_cases ht : t' = t
        · exact ht ▸ htable
        · exact frame t' ht
      rw [htables] at view
      exact Lww.offerAll_eq_self_iff.mp view.symm _ List.mem_cons_self

/-- A successful batch: every row of the delta is offered to its register, the count of a
table is zero exactly when that table does not move, and rows that are all held leave the
database as it was. -/
structure AppliedBatch (delta : SyncDelta) (db db' : Database) (counts : ApplyCounts) : Prop where
  view : db'.tables.view =
    Lww.offerAll SyncedRow.key SyncedRow.stamp db.tables.view delta.all
  count : ∀ t, counts.count t = 0 ↔ db'.tables t = db.tables t
  still : (∀ x ∈ delta.all, db.HoldsStamp x) → db' = db

/-- The seven stages of a successful batch. -/
theorem stages_of_applySyncBatch (h : db.applySyncBatch delta = .ok (db', counts)) :
    ∃ db₁ db₂ db₃ db₄ db₅ db₆ : Database,
      AppliedEach delta.channels db db₁ counts.channels ∧
      AppliedEach delta.messages db₁ db₂ counts.messages ∧
      AppliedEach delta.acl db₂ db₃ counts.acl ∧
      AppliedEach delta.knocks db₃ db₄ counts.knocks ∧
      AppliedEach delta.themes db₄ db₅ counts.themes ∧
      AppliedEach delta.assets db₅ db₆ counts.assets ∧
      AppliedEach delta.obsidian db₆ db' counts.obsidian := by
  unfold applySyncBatch at h
  obtain ⟨⟨db₁, _⟩, h₁, h⟩ := except_bind_eq_ok.mp h
  obtain ⟨⟨db₂, _⟩, h₂, h⟩ := except_bind_eq_ok.mp h
  obtain ⟨⟨db₃, _⟩, h₃, h⟩ := except_bind_eq_ok.mp h
  obtain ⟨⟨db₄, _⟩, h₄, h⟩ := except_bind_eq_ok.mp h
  obtain ⟨⟨db₅, _⟩, h₅, h⟩ := except_bind_eq_ok.mp h
  obtain ⟨⟨db₆, _⟩, h₆, h⟩ := except_bind_eq_ok.mp h
  obtain ⟨⟨db₇, _⟩, h₇, h⟩ := except_bind_eq_ok.mp h
  cases h
  exact ⟨db₁, db₂, db₃, db₄, db₅, db₆, appliedEach h₁, appliedEach h₂, appliedEach h₃,
    appliedEach h₄, appliedEach h₅, appliedEach h₆, appliedEach h₇⟩

theorem appliedBatch (h : db.applySyncBatch delta = .ok (db', counts)) :
    AppliedBatch delta db db' counts := by
  obtain ⟨db₁, db₂, db₃, db₄, db₅, db₆, h₁, h₂, h₃, h₄, h₅, h₆, h₇⟩ := stages_of_applySyncBatch h
  refine ⟨?_, ?_, fun held => ?_⟩
  · rw [h₇.view, h₆.view, h₅.view, h₄.view, h₃.view, h₂.view, h₁.view]
    simp only [SyncDelta.all, SyncedTable.all, List.flatMap_cons, List.flatMap_nil, List.append_nil,
      SyncDelta.rows, Lww.offerAll_append]
  · -- a table moves at its own stage and at no other
    intro t
    obtain ⟨f₁, f₂, f₃, f₄, f₅, f₆, f₇⟩ : _ ∧ _ ∧ _ ∧ _ ∧ _ ∧ _ ∧ _ :=
      ⟨h₁.frame, h₂.frame, h₃.frame, h₄.frame, h₅.frame, h₆.frame, h₇.frame⟩
    cases t
    · have hc := h₁.count
      rwa [← f₂ _ (by decide), ← f₃ _ (by decide), ← f₄ _ (by decide), ← f₅ _ (by decide),
        ← f₆ _ (by decide), ← f₇ _ (by decide)] at hc
    · have hc := h₂.count
      rwa [f₁ _ (by decide), ← f₃ _ (by decide), ← f₄ _ (by decide), ← f₅ _ (by decide),
        ← f₆ _ (by decide), ← f₇ _ (by decide)] at hc
    · have hc := h₃.count
      rwa [f₂ _ (by decide), f₁ _ (by decide), ← f₄ _ (by decide), ← f₅ _ (by decide),
        ← f₆ _ (by decide), ← f₇ _ (by decide)] at hc
    · have hc := h₄.count
      rwa [f₃ _ (by decide), f₂ _ (by decide), f₁ _ (by decide), ← f₅ _ (by decide),
        ← f₆ _ (by decide), ← f₇ _ (by decide)] at hc
    · have hc := h₅.count
      rwa [f₄ _ (by decide), f₃ _ (by decide), f₂ _ (by decide), f₁ _ (by decide),
        ← f₆ _ (by decide), ← f₇ _ (by decide)] at hc
    · have hc := h₆.count
      rwa [f₅ _ (by decide), f₄ _ (by decide), f₃ _ (by decide), f₂ _ (by decide),
        f₁ _ (by decide), ← f₇ _ (by decide)] at hc
    · have hc := h₇.count
      rwa [f₆ _ (by decide), f₅ _ (by decide), f₄ _ (by decide), f₃ _ (by decide),
        f₂ _ (by decide), f₁ _ (by decide)] at hc
  · have heldIn : ∀ (t : SyncedTable), ∀ row ∈ delta.rows t, db.HoldsStamp ⟨t, row⟩ :=
      fun t row hr => held ⟨t, row⟩ (SyncDelta.mem_all.mpr hr)
    obtain rfl := h₁.still (heldIn .porchChannels)
    obtain rfl := h₂.still (heldIn .channelMessages)
    obtain rfl := h₃.still (heldIn .channelAcl)
    obtain rfl := h₄.still (heldIn .channelKnocks)
    obtain rfl := h₅.still (heldIn .channelThemes)
    obtain rfl := h₆.still (heldIn .porchAssets)
    exact h₇.still (heldIn .obsidianChannels)

/-- Nothing was written exactly when the database is the one before. -/
theorem AppliedBatch.total_eq_zero_iff (h : AppliedBatch delta db db' counts) :
    counts.total = 0 ↔ db' = db := by
  rw [ApplyCounts.total_eq_zero_iff]
  constructor
  · intro hz
    exact Database.ext (funext fun t => (h.count t).mp (hz t))
  · rintro rfl t
    exact (h.count t).mpr rfl

/-- A batch leaves the database as it was exactly when every row of it is held. -/
theorem AppliedBatch.eq_self_iff (h : AppliedBatch delta db db' counts) :
    db' = db ↔ ∀ x ∈ delta.all, db.HoldsStamp x := by
  refine ⟨fun same => Lww.offerAll_eq_self_iff.mp ?_, h.still⟩
  rw [← h.view, same]

/-- A row whose stamp is held is dropped. -/
theorem applyRemote_of_held {row : Row t} (held : db.HoldsStamp ⟨t, row⟩) :
    applyRemote assignment db row = .ok (db, false) := by
  have applies : ∃ out, applyRemote assignment db row = .ok out :=
    exists_applyRemote_iff.mpr (.inl held)
  obtain ⟨⟨db', won⟩, h⟩ := applies
  rcases applyRemote_cases h with ⟨_, rfl, rfl⟩ | ⟨hnot, _, _⟩
  · exact h
  · exact absurd held hnot

theorem applyEach_of_held (held : ∀ row ∈ rows, db.HoldsStamp ⟨t, row⟩) :
    applyEach (applyRemote assignment) db rows = .ok (db, 0) := by
  induction rows with
  | nil => rfl
  | cons row rows ih =>
    have hrest := ih fun row' h' => held row' (List.mem_cons_of_mem row h')
    simp only [applyEach, applyRemote_of_held (held row List.mem_cons_self), hrest,
      Bool.toNat_false]

/-- A batch of held rows succeeds and writes nothing. -/
theorem applySyncBatch_of_held (held : ∀ x ∈ delta.all, db.HoldsStamp x) :
    db.applySyncBatch delta = .ok (db, ⟨0, 0, 0, 0, 0, 0, 0⟩) := by
  have heldIn : ∀ (t : SyncedTable), ∀ row ∈ delta.rows t, db.HoldsStamp ⟨t, row⟩ :=
    fun t row hr => held ⟨t, row⟩ (SyncDelta.mem_all.mpr hr)
  have channels : applyEach applyRemoteChannel db delta.channels = .ok (db, 0) :=
    applyEach_of_held (heldIn .porchChannels)
  have messages : applyEach applyRemoteMessage db delta.messages = .ok (db, 0) :=
    applyEach_of_held (heldIn .channelMessages)
  have acl : applyEach applyRemoteAcl db delta.acl = .ok (db, 0) :=
    applyEach_of_held (heldIn .channelAcl)
  have knocks : applyEach applyRemoteKnock db delta.knocks = .ok (db, 0) :=
    applyEach_of_held (heldIn .channelKnocks)
  have themes : applyEach applyRemoteTheme db delta.themes = .ok (db, 0) :=
    applyEach_of_held (heldIn .channelThemes)
  have assets : applyEach applyRemoteAsset db delta.assets = .ok (db, 0) :=
    applyEach_of_held (heldIn .porchAssets)
  have obsidian : applyEach applyRemoteObsidian db delta.obsidian = .ok (db, 0) :=
    applyEach_of_held (heldIn .obsidianChannels)
  simp only [applySyncBatch, channels, messages, acl, knocks, themes, assets, obsidian, bind,
    Except.bind, pure, Except.pure]

/-! ## What a delta holds -/

@[simp] theorem sinceFor_localCursor (t : SyncedTable) :
    db.localCursor.sinceFor t.cursorKey = db.tables.maxLamport t := by
  cases t <;> rfl

@[simp] theorem sinceFor_default (table : String) : SyncCursor.default.sinceFor table = 0 := rfl

theorem rows_collectDelta (t : SyncedTable) :
    (db.collectDelta cursor).rows t = rowsSince t db (cursor.sinceFor t.cursorKey) := by
  cases t <;> rfl

/-- A delta is the rows above its cursor. -/
theorem mem_collectDelta : x ∈ (db.collectDelta cursor).all ↔
    db.tables.Holds x ∧ cursor.sinceFor x.table.cursorKey < x.lamport := by
  rw [SyncDelta.mem_all, rows_collectDelta, mem_rowsSince]
  rfl

/-- The row lies above the cursor. -/
def above (cursor : SyncCursor) (x : SyncedRow) : Bool :=
  cursor.sinceFor x.table.cursorKey < x.lamport

/-- Applying what a database collected leaves at each key the larger of what was held and
what passed the cursor. -/
theorem view_of_exchange {source : Database}
    (h : db.applySyncBatch (source.collectDelta cursor) = .ok (db', counts)) (k : RowKey) :
    db'.tables.view k = Lww.larger SyncedRow.stamp (db.tables.view k)
      ((source.tables.view k).filter (above cursor)) := by
  rw [(appliedBatch h).view]
  refine Lww.offerAll_of_lists SyncedTables.wellKeyed_view (fun y => ?_) k
  rw [mem_collectDelta, SyncedTables.view_key_eq_some_iff, above, decide_eq_true_eq]

end Database

end Concorrd
