import Concorrd.Porch.Database

/-!
# Applying remote rows

Seven functions merge one remote row each. They share one body: look up the local row by
primary key, insert verbatim when there is none, overwrite when the remote stamp strictly
wins, drop otherwise. What differs is the column list of the UPDATE, and an `Assignment`
carries that list together with the proof that it misses no column. `remoteWins` is the
comparator, and `remoteWins_iff` says it is the strict order of stamps.

`applyRemote_cases` says everything a successful call can do, and `exists_applyRemote_iff`
says exactly when a call succeeds. No later proof unfolds the body.
-/

namespace Concorrd

/-- `true` when the remote stamp strictly exceeds the local one. -/
def remoteWins (remoteLamport : Int64) (remoteDevice : String) (localLamport : Int64)
    (localDevice : String) : Bool :=
  if remoteLamport ≠ localLamport then decide (remoteLamport > localLamport)
  else decide (remoteDevice > localDevice)

/-- The comparator is the strict order of stamps. -/
theorem remoteWins_iff {t : SyncedTable} (remote loc : Row t) :
    remoteWins remote.syncLamport remote.syncDeviceId loc.syncLamport loc.syncDeviceId = true ↔
      loc.stamp < remote.stamp := by
  unfold remoteWins
  rw [Row.stamp, Row.stamp, Prod.Lex.toLex_lt_toLex]
  split
  · rename_i hne
    simp only [decide_eq_true_eq, gt_iff_lt, Ne.symm hne, false_and, or_false]
  · rename_i heq
    rw [not_not] at heq
    simp only [decide_eq_true_eq, gt_iff_lt, heq, lt_irrefl, true_and, false_or]

/-- Rows neither of which beats the other carry one stamp. -/
theorem stamp_eq_of_not_remoteWins {x y : SyncedRow}
    (h : remoteWins x.lamport x.device y.lamport y.device = false)
    (h' : remoteWins y.lamport y.device x.lamport x.device = false) : x.stamp = y.stamp := by
  rw [SyncedRow.stamp_eq_iff]
  unfold remoteWins at h h'
  by_cases hne : x.lamport = y.lamport
  · rw [if_neg (not_not.mpr hne), decide_eq_false_iff_not] at h
    rw [if_neg (not_not.mpr hne.symm), decide_eq_false_iff_not] at h'
    exact ⟨hne, le_antisymm (not_lt.mp h) (not_lt.mp h')⟩
  · rw [if_pos hne, decide_eq_false_iff_not] at h
    rw [if_pos (Ne.symm hne), decide_eq_false_iff_not] at h'
    exact absurd (le_antisymm (not_lt.mp h) (not_lt.mp h')) hne

/-- The `SET` list of an UPDATE from a remote row. It leaves the key alone, and on a row of
the same key it leaves nothing of the old row. -/
structure Assignment (t : SyncedTable) where
  set : Row t → Row t → Row t
  key_set : ∀ new old, (set new old).key = old.key
  set_eq : ∀ new old, old.key = new.key → set new old = new

/-- `UPDATE porch_channels SET …` -/
def channelAssignment : Assignment .porchChannels where
  set new old :=
    { old with
      cols := { old.cols with
        name := new.cols.name
        kind := new.cols.kind
        aclMode := new.cols.aclMode
        createdAt := new.cols.createdAt }
      syncDeviceId := new.syncDeviceId
      syncLamport := new.syncLamport
      syncTombstone := new.syncTombstone }
  key_set _ _ := rfl
  set_eq := by
    rintro ⟨⟨_, _, _, _, _⟩, _, _, _⟩ ⟨⟨_, _, _, _, _⟩, _, _, _⟩ hk
    cases hk
    rfl

/-- `UPDATE channel_messages SET …` -/
def messageAssignment : Assignment .channelMessages where
  set new old :=
    { old with
      cols := { old.cols with
        channelId := new.cols.channelId
        authorPeerId := new.cols.authorPeerId
        body := new.cols.body
        createdAt := new.cols.createdAt }
      syncDeviceId := new.syncDeviceId
      syncLamport := new.syncLamport
      syncTombstone := new.syncTombstone }
  key_set _ _ := rfl
  set_eq := by
    rintro ⟨⟨_, _, _, _, _⟩, _, _, _⟩ ⟨⟨_, _, _, _, _⟩, _, _, _⟩ hk
    cases hk
    rfl

/-- `UPDATE channel_acl SET …` -/
def aclAssignment : Assignment .channelAcl where
  set new old :=
    { old with
      cols := { old.cols with
        role := new.cols.role
        grantedAt := new.cols.grantedAt }
      syncDeviceId := new.syncDeviceId
      syncLamport := new.syncLamport
      syncTombstone := new.syncTombstone }
  key_set _ _ := rfl
  set_eq := by
    rintro ⟨⟨_, _, _, _⟩, _, _, _⟩ ⟨⟨_, _, _, _⟩, _, _, _⟩ hk
    cases hk
    rfl

/-- `UPDATE channel_knocks SET …` -/
def knockAssignment : Assignment .channelKnocks where
  set new old :=
    { old with
      cols := { old.cols with
        channelId := new.cols.channelId
        knockerPeerId := new.cols.knockerPeerId
        message := new.cols.message
        status := new.cols.status
        createdAt := new.cols.createdAt
        resolvedAt := new.cols.resolvedAt }
      syncDeviceId := new.syncDeviceId
      syncLamport := new.syncLamport
      syncTombstone := new.syncTombstone }
  key_set _ _ := rfl
  set_eq := by
    rintro ⟨⟨_, _, _, _, _, _, _⟩, _, _, _⟩ ⟨⟨_, _, _, _, _, _, _⟩, _, _, _⟩ hk
    cases hk
    rfl

/-- `UPDATE channel_themes SET …` -/
def themeAssignment : Assignment .channelThemes where
  set new old :=
    { old with
      cols := { old.cols with
        primaryColor := new.cols.primaryColor
        surfaceColor := new.cols.surfaceColor
        onSurfaceColor := new.cols.onSurfaceColor
        accentColor := new.cols.accentColor
        fontFamily := new.cols.fontFamily
        backgroundKind := new.cols.backgroundKind
        backgroundValue := new.cols.backgroundValue
        updatedAt := new.cols.updatedAt }
      syncDeviceId := new.syncDeviceId
      syncLamport := new.syncLamport
      syncTombstone := new.syncTombstone }
  key_set _ _ := rfl
  set_eq := by
    rintro ⟨⟨_, _, _, _, _, _, _, _, _⟩, _, _, _⟩ ⟨⟨_, _, _, _, _, _, _, _, _⟩, _, _, _⟩ hk
    cases hk
    rfl

/-- `UPDATE porch_assets SET …` -/
def assetAssignment : Assignment .porchAssets where
  set new old :=
    { old with
      cols := { old.cols with
        channelId := new.cols.channelId
        mimeType := new.cols.mimeType
        filePath := new.cols.filePath
        bytes := new.cols.bytes
        sha256 := new.cols.sha256
        createdAt := new.cols.createdAt }
      syncDeviceId := new.syncDeviceId
      syncLamport := new.syncLamport
      syncTombstone := new.syncTombstone }
  key_set _ _ := rfl
  set_eq := by
    rintro ⟨⟨_, _, _, _, _, _, _⟩, _, _, _⟩ ⟨⟨_, _, _, _, _, _, _⟩, _, _, _⟩ hk
    cases hk
    rfl

/-- `UPDATE obsidian_channels SET …` -/
def obsidianAssignment : Assignment .obsidianChannels where
  set new old :=
    { old with
      cols := { old.cols with
        vaultRoot := new.cols.vaultRoot
        subfolder := new.cols.subfolder
        followSymlinks := new.cols.followSymlinks
        updatedAt := new.cols.updatedAt }
      syncDeviceId := new.syncDeviceId
      syncLamport := new.syncLamport
      syncTombstone := new.syncTombstone }
  key_set _ _ := rfl
  set_eq := by
    rintro ⟨⟨_, _, _, _, _⟩, _, _, _⟩ ⟨⟨_, _, _, _, _⟩, _, _, _⟩ hk
    cases hk
    rfl

/-- The SET list of each table. -/
def assignmentOf : (t : SyncedTable) → Assignment t
  | .porchChannels => channelAssignment
  | .channelMessages => messageAssignment
  | .channelAcl => aclAssignment
  | .channelKnocks => knockAssignment
  | .channelThemes => themeAssignment
  | .porchAssets => assetAssignment
  | .obsidianChannels => obsidianAssignment

namespace Database

/-- The body the seven apply functions share. The answer says whether the row was written. -/
def applyRemote {t : SyncedTable} (assignment : Assignment t) (db : Database) (row : Row t) :
    Except PorchError (Database × Bool) :=
  match db.find? t row.key with
  | none =>
    match db.insert t row with
    | .error e => .error e
    | .ok db => .ok (db, true)
  | some loc =>
    if remoteWins row.syncLamport row.syncDeviceId loc.syncLamport loc.syncDeviceId then
      match db.updateWhere t (fun r => r.key = row.key) (assignment.set row)
          (assignment.key_set row) with
      | .error e => .error e
      | .ok db => .ok (db, true)
    else .ok (db, false)

/-- Merge one remote channel. -/
def applyRemoteChannel : Database → PorchChannelRow → Except PorchError (Database × Bool) :=
  applyRemote channelAssignment

/-- Merge one remote message. -/
def applyRemoteMessage : Database → ChannelMessageRow → Except PorchError (Database × Bool) :=
  applyRemote messageAssignment

/-- Merge one remote access row. -/
def applyRemoteAcl : Database → ChannelAclRow → Except PorchError (Database × Bool) :=
  applyRemote aclAssignment

/-- Merge one remote knock. -/
def applyRemoteKnock : Database → ChannelKnockRow → Except PorchError (Database × Bool) :=
  applyRemote knockAssignment

/-- Merge one remote theme. -/
def applyRemoteTheme : Database → ChannelThemeRow → Except PorchError (Database × Bool) :=
  applyRemote themeAssignment

/-- Merge one remote asset. -/
def applyRemoteAsset : Database → PorchAssetRow → Except PorchError (Database × Bool) :=
  applyRemote assetAssignment

/-- Merge one remote binding. -/
def applyRemoteObsidian : Database → ObsidianChannelRow → Except PorchError (Database × Bool) :=
  applyRemote obsidianAssignment

/-- `SELECT … FROM t WHERE sync_lamport > since`: the body the seven readers share. -/
def rowsSince (t : SyncedTable) (db : Database) (since : Int64) : List (Row t) :=
  (db.tables t).rows.filter fun r => r.syncLamport > since

def channelsSince : Database → Int64 → List PorchChannelRow := rowsSince .porchChannels
def messagesSince : Database → Int64 → List ChannelMessageRow := rowsSince .channelMessages
def aclSince : Database → Int64 → List ChannelAclRow := rowsSince .channelAcl
def knocksSince : Database → Int64 → List ChannelKnockRow := rowsSince .channelKnocks
def themesSince : Database → Int64 → List ChannelThemeRow := rowsSince .channelThemes
def assetsSince : Database → Int64 → List PorchAssetRow := rowsSince .porchAssets
def obsidianSince : Database → Int64 → List ObsidianChannelRow := rowsSince .obsidianChannels

/-! ## What one application does -/

/-- The database holds, under the row's key, a stamp at least as large. -/
abbrev HoldsStamp (db : Database) (x : SyncedRow) : Prop :=
  Lww.Held SyncedRow.key SyncedRow.stamp db.tables.view x

variable {t : SyncedTable} {assignment : Assignment t} {db db' : Database} {row : Row t}
  {won : Bool}

theorem holdsStamp_iff : db.HoldsStamp ⟨t, row⟩ ↔
    ∃ loc, db.find? t row.key = some loc ∧ row.stamp ≤ loc.stamp := by
  constructor
  · rintro ⟨c, hc, hle⟩
    obtain ⟨loc, hloc, rfl⟩ := Option.map_eq_some_iff.mp hc
    exact ⟨loc, hloc, hle⟩
  · rintro ⟨loc, hloc, hle⟩
    exact ⟨⟨t, loc⟩, Option.map_eq_some_iff.mpr ⟨loc, hloc, rfl⟩, hle⟩

/-- A successful application drops a row whose stamp is held and writes any other. -/
theorem applyRemote_cases (h : applyRemote assignment db row = .ok (db', won)) :
    (db.HoldsStamp ⟨t, row⟩ ∧ won = false ∧ db' = db) ∨
      (¬ db.HoldsStamp ⟨t, row⟩ ∧ won = true ∧ db.tables.Puts ⟨t, row⟩ db'.tables) := by
  unfold applyRemote at h
  cases hf : db.find? t row.key with
  | none =>
    have hnot : ¬ db.HoldsStamp ⟨t, row⟩ := by
      rw [holdsStamp_iff, hf]
      rintro ⟨_, h, _⟩
      cases h
    simp only [hf] at h
    split at h
    · cases h
    · rename_i hdb
      cases h
      exact .inr ⟨hnot, rfl, (puts_of_insert hdb).2⟩
  | some loc =>
    have held : db.HoldsStamp ⟨t, row⟩ ↔ ¬ loc.stamp < row.stamp := by
      rw [holdsStamp_iff, not_lt, hf]
      simp only [Option.some.injEq, exists_eq_left']
    simp only [hf, remoteWins_iff] at h
    split at h
    · rename_i hlt
      split at h
      · cases h
      · rename_i hdb
        cases h
        refine .inr ⟨fun hh => held.mp hh hlt, rfl, ?_⟩
        have hputs := puts_of_updateWhere_key hdb hf
        rwa [assignment.set_eq row loc (KeyedTable.key_of_find? hf)] at hputs
    · rename_i hge
      cases h
      exact .inl ⟨held.mpr hge, rfl, rfl⟩

/-- An application succeeds exactly when the row is dropped or the schema admits it. -/
theorem exists_applyRemote_iff : (∃ r, applyRemote assignment db row = .ok r) ↔
    db.HoldsStamp ⟨t, row⟩ ∨ db.tables.Admits ⟨t, row⟩ := by
  constructor
  · rintro ⟨⟨db', won⟩, h⟩
    rcases applyRemote_cases h with ⟨held, _, _⟩ | ⟨_, _, hputs⟩
    · exact .inl held
    · refine .inr ((exists_commit_iff hputs).mp ⟨db', ?_⟩)
      exact commit_eq_ok_iff.mpr ⟨rfl, db'.checks, db'.entries, db'.parents⟩
  · intro h
    unfold applyRemote
    cases hf : db.find? t row.key with
    | none =>
      have hadmit : db.tables.Admits ⟨t, row⟩ := h.resolve_left fun held => by
        obtain ⟨loc, hloc, _⟩ := holdsStamp_iff.mp held
        rw [hf] at hloc
        cases hloc
      obtain ⟨db', hdb⟩ := exists_insert_iff.mpr ⟨hf, hadmit⟩
      exact ⟨(db', true), by simp only [hdb]⟩
    | some loc =>
      simp only [remoteWins_iff]
      split
      · rename_i hlt
        have hadmit : db.tables.Admits ⟨t, row⟩ := h.resolve_left fun held => by
          obtain ⟨loc', hloc, hle⟩ := holdsStamp_iff.mp held
          rw [hf, Option.some.injEq] at hloc
          exact absurd hle (not_le.mpr (hloc ▸ hlt))
        have hputs : db.tables.Puts ⟨t, assignment.set row loc⟩ (Function.update db.tables t
            ((db.tables t).updateWhere (fun r => r.key = row.key) (assignment.set row)
              (assignment.key_set row))) :=
          SyncedTables.puts_update (KeyedTable.puts_updateWhere_key hf)
        rw [assignment.set_eq row loc (KeyedTable.key_of_find? hf)] at hputs
        obtain ⟨db', hdb⟩ := (exists_commit_iff hputs).mpr hadmit
        exact ⟨(db', true), by simp only [updateWhere, hdb]⟩
      · exact ⟨(db, false), rfl⟩

/-- An application offers its row to the register of its key. -/
theorem view_of_applyRemote (h : applyRemote assignment db row = .ok (db', won)) :
    db'.tables.view = Lww.offer SyncedRow.key SyncedRow.stamp db.tables.view ⟨t, row⟩ := by
  rcases applyRemote_cases h with ⟨held, _, rfl⟩ | ⟨hnot, _, hputs⟩
  · exact (Lww.offer_of_held held).symm
  · rw [hputs.view_eq, Lww.offer_of_not_held hnot]

theorem mem_rowsSince {since : Int64} : row ∈ rowsSince t db since ↔
    db.tables.Holds ⟨t, row⟩ ∧ since < row.syncLamport := by
  simp only [rowsSince, List.mem_filter, decide_eq_true_eq, SyncedTables.Holds, gt_iff_lt]

end Database

end Concorrd
