import Mathlib.Data.List.ProdSigma
import Mathlib.Tactic.IntervalCases
import Concorrd.Porch.Disk

/-!
# What each version leaves

`Settled v` is the file as the steps to version `v` leave it, whatever else was written since.
`settled_upgrade` takes it from one version to the next over the transactions of that step,
and `complete_of_settled` from the last version over the default channel to `Complete`.
-/

namespace Concorrd

/-- One fact until a version, another from it on. -/
def Since (threshold version : Nat) (before after : Prop) : Prop :=
  (version < threshold → before) ∧ (threshold ≤ version → after)

/-- A version either is the threshold and brings about the second fact, or leaves alone what
the facts are about. -/
theorem Since.next {α : Type} {threshold v : Nat} (before after : α → Prop) {a a' : α}
    (h : Since threshold v (before a) (after a))
    (step : v + 1 = threshold ∧ after a' ∨ v + 1 ≠ threshold ∧ a' = a) :
    Since threshold (v + 1) (before a') (after a') := by
  rcases step with ⟨here, new⟩ | ⟨other, rfl⟩
  · exact ⟨fun hv => absurd hv (by omega), fun _ => new⟩
  · exact ⟨fun hv => h.1 (by omega), fun hv => h.2 (by omega)⟩

namespace Disk

/-- Every row of a synced table names its device, under columns that exist, and the install has
one identity. -/
structure Stamped (d : Disk) : Prop where
  columns : ∀ t c, c ∈ d.columns t
  identity : d.deviceIdentity.rows.length = 1
  rows : ∀ t, ∀ r ∈ (d.synced t).rows, r.syncDeviceId ≠ none

/-- Both intrinsic servers have a visibility row. -/
def ServersSeeded (visibility : KeyedTable VisibilityRow.serverId) : Prop :=
  visibility.HasKey visibilityServerIdPorch ∧ visibility.HasKey visibilityServerIdHome

/-- The catalog of the file is that of a version. -/
structure Schema (v : Nat) (d : Disk) : Prop where
  version : d.currentVersion = v
  created : ∀ w ≤ v, ∀ name ∈ createdBy w, name ∈ d.objects
  absent : ∀ w, v < w → ∀ name ∈ createdBy w, name ∉ d.objects

/-- The file as the steps to a version leave it. -/
structure Settled (v : Nat) (d : Disk) : Prop extends Schema v d where
  rows : ∀ t : SyncedTable, v < t.addedIn → (d.synced t).rows = []
  device : Since 6 v (d.deviceIdentity.rows = []) d.Stamped
  primary : Since 7 v (d.profiles.rows = []) (Porch.OnePrimary d.profiles)
  serverName : Since 8 v (d.homeMeta.rows = []) (d.homeMeta.HasKey "server_name")
  visibility : Since 9 v (d.visibility.rows = []) (ServersSeeded d.visibility)

/-- The file an open is to leave. -/
structure Complete (d : Disk) : Prop where
  version : d.currentVersion = 10
  identity : d.deviceIdentity.rows.length = 1
  stamped : ∀ t, ∀ r ∈ (d.synced t).rows, r.syncDeviceId ≠ none
  primary : Porch.OnePrimary d.profiles
  serverName : d.homeMeta.HasKey "server_name"
  porchVisibility : d.visibility.HasKey visibilityServerIdPorch
  homeVisibility : d.visibility.HasKey visibilityServerIdHome
  channel : (d.synced .porchChannels).rows ≠ []

/-! ## The catalog -/

variable {d d' : Disk} {v w : Nat} {names : List String} {name : String}

/-- The second file is the first with names added to its catalog. -/
structure Adds (names : List String) (d d' : Disk) : Prop where
  rest : d' = { d with objects := d'.objects }
  objects : ∀ name, name ∈ d'.objects ↔ name ∈ d.objects ∨ name ∈ names

/-- The second file is the first with names added and a version recorded. -/
structure Records (names : List String) (w : Nat) (d d' : Disk) : Prop where
  rest : d' = { d with objects := d'.objects, versions := d.versions ++ [w] }
  objects : ∀ name, name ∈ d'.objects ↔ name ∈ d.objects ∨ name ∈ names

theorem le_currentVersion (h : w ∈ d.versions) : w ≤ d.currentVersion := by
  unfold currentVersion
  rw [List.foldl_max]
  exact (List.le_max?_getD_of_mem h).trans (Nat.le_max_right _ _)

theorem currentVersion_concat (rest : d'.versions = d.versions ++ [w])
    (higher : d.currentVersion < w) : d'.currentVersion = w := by
  unfold currentVersion at higher ⊢
  rw [rest, List.foldl_append]
  show max (d.versions.foldl max 0) w = w
  omega

theorem exec_createIfNotExists (name : String) (d : Disk) :
    exec (.createIfNotExists name) d = .ok (d.createIfNotExists name) := rfl

theorem run_createIfNotExists (names : List String) (d : Disk) :
    ∃ d', Staged.run exec (names.map .createIfNotExists) d = .ok d' ∧ Adds names d d' := by
  induction names generalizing d with
  | nil => exact ⟨d, rfl, rfl, fun name => by simp⟩
  | cons name names ih =>
    obtain ⟨d₂, hrun, rest, objects⟩ := ih (d.createIfNotExists name)
    have first : d.createIfNotExists name =
        { d with objects := (d.createIfNotExists name).objects } := by
      unfold createIfNotExists
      split <;> rfl
    have mem : ∀ other, other ∈ (d.createIfNotExists name).objects ↔
        other ∈ d.objects ∨ other = name := by
      intro other
      unfold createIfNotExists
      split
      · rename_i hname
        exact ⟨.inl, fun h => h.elim id fun h => h ▸ hname⟩
      · simp only [List.mem_append, List.mem_singleton]
    refine ⟨d₂, ?_, ?_, fun other => ?_⟩
    · rw [List.map_cons, Staged.run_cons_of_ok (exec_createIfNotExists name d)]
      exact hrun
    · rw [rest, first]
    · rw [objects, mem, List.mem_cons, or_assoc]

/-- Names that are free are created. -/
theorem run_create (nodup : names.Nodup) (free : ∀ name ∈ names, name ∉ d.objects) :
    Staged.run exec (names.map .create) d = Staged.run exec (names.map .createIfNotExists) d := by
  induction names generalizing d with
  | nil => rfl
  | cons name names ih =>
    obtain ⟨fresh, nodup⟩ := List.nodup_cons.mp nodup
    have hname : name ∉ d.objects := free name List.mem_cons_self
    have first : exec (.create name) d = .ok (d.createIfNotExists name) := by
      show d.create name = _
      unfold create createIfNotExists
      rw [if_neg hname, if_neg hname]
    rw [List.map_cons, List.map_cons, Staged.run_cons_of_ok first,
      Staged.run_cons_of_ok (exec_createIfNotExists name d)]
    apply ih nodup
    intro other hother
    unfold createIfNotExists
    rw [if_neg hname, List.mem_append, List.mem_singleton]
    rintro (hd | rfl)
    · exact free other (List.mem_cons_of_mem name hother) hd
    · exact fresh hother

theorem exists_insertVersion (table : "schema_version" ∈ d.objects)
    (higher : d.currentVersion < w) :
    exec (.insertVersion w) d = .ok { d with versions := d.versions ++ [w] } := by
  show d.insertVersion w = _
  unfold insertVersion onTable
  have fresh : w ∉ d.versions := fun h => absurd (le_currentVersion h) (by omega)
  rw [if_pos table, if_neg fresh]

theorem commit_createIfNotExists (names : List String) (table : "schema_version" ∈ d.objects)
    (higher : d.currentVersion < w) :
    ∃ d', commit (names.map .createIfNotExists ++ [.insertVersion w]) d = .ok d' ∧
      Records names w d d' := by
  obtain ⟨d₁, hrun, rest, objects⟩ := run_createIfNotExists names d
  have higher₁ : d₁.currentVersion < w := by
    rw [rest]
    exact higher
  refine ⟨{ d₁ with versions := d₁.versions ++ [w] }, ?_, ?_, objects⟩
  · show Staged.run exec _ d = _
    rw [Staged.run_append_of_ok hrun, Staged.run_singleton]
    exact exists_insertVersion ((objects _).mpr (.inl table)) higher₁
  · rw [rest]

theorem commit_create (nodup : names.Nodup) (free : ∀ name ∈ names, name ∉ d.objects) :
    ∃ d', commit (names.map .create) d = .ok d' ∧ Adds names d d' := by
  show ∃ d', Staged.run exec (names.map .create) d = .ok d' ∧ _
  rw [run_create nodup free]
  exact run_createIfNotExists names d

theorem nodup_createdBy (w : Nat) : (createdBy w).Nodup := by
  unfold createdBy
  split <;> decide

/-- No version creates what another creates. -/
theorem createdBy_disjoint (h : name ∈ createdBy v) (h' : name ∈ createdBy w) : v = w := by
  have bound : ∀ {n}, name ∈ createdBy n → n < 11 := by
    intro n hn
    unfold createdBy at hn
    split at hn <;> first | omega | cases hn
  have apart : ∀ i ∈ List.range 11, ∀ n ∈ createdBy i, ∀ j ∈ List.range 11,
      n ∈ createdBy j → i = j := by
    decide
  exact apart v (List.mem_range.mpr (bound h)) name h w (List.mem_range.mpr (bound h')) h'

/-- The version above a schema, recorded with its objects. -/
theorem Schema.next (h : Schema v d) (versions : d'.versions = d.versions ++ [v + 1])
    (objects : ∀ name, name ∈ d'.objects ↔ name ∈ d.objects ∨ name ∈ names)
    (all : ∀ name ∈ createdBy (v + 1), name ∈ names)
    (own : ∀ w, v + 1 < w → ∀ name ∈ createdBy w, name ∉ names) : Schema (v + 1) d' where
  version := currentVersion_concat versions (by rw [h.version]; omega)
  created w hw name hname := by
    rw [objects]
    rcases Nat.lt_or_ge v w with hlt | hge
    · obtain rfl : w = v + 1 := by omega
      exact .inr (all name hname)
    · exact .inl (h.created w hge name hname)
  absent w hw name hname := by
    rw [objects]
    rintro (hd | hnames)
    · exact h.absent w (by omega) name hname hd
    · exact own w hw name hname hnames

/-- A version that records what it creates in one transaction. -/
theorem Schema.record (h : Schema v d) (table : "schema_version" ∈ d.objects) :
    ∃ d', commit (record (v + 1)) d = .ok d' ∧ Records (createdBy (v + 1)) (v + 1) d d' ∧
      commit (recordIfMissing (v + 1)) d = .ok d' ∧ Schema (v + 1) d' := by
  obtain ⟨d', hcommit, hrec⟩ := commit_createIfNotExists (createdBy (v + 1)) (w := v + 1) table
    (by rw [h.version]; omega)
  have same : commit (Disk.record (v + 1)) d = commit (recordIfMissing (v + 1)) d := by
    show Staged.run exec (_ ++ _) d = Staged.run exec (_ ++ _) d
    rw [Staged.run_append, Staged.run_append,
      run_create (nodup_createdBy _) (h.absent (v + 1) (by omega))]
  have versions : d'.versions = d.versions ++ [v + 1] := by
    rw [hrec.rest]
  refine ⟨d', same.trans hcommit, hrec, hcommit, h.next versions hrec.objects (fun _ => id) ?_⟩
  intro w hw name hname hname'
  exact absurd (createdBy_disjoint hname hname') (by omega)

/-! ## Reads of a stamped file -/

theorem mem_createdBy_addedIn (t : SyncedTable) : t.name ∈ createdBy t.addedIn := by
  cases t <;> decide

theorem addedIn_le (t : SyncedTable) : t.addedIn ≤ 4 := by
  cases t <;> decide

/-- The synced tables exist from version 4 on. -/
theorem Schema.name_mem (h : Schema v d) (hv : 4 ≤ v) (t : SyncedTable) : t.name ∈ d.objects :=
  h.created t.addedIn ((addedIn_le t).trans hv) t.name (mem_createdBy_addedIn t)

theorem Stamped.exists_deviceId (h : d.Stamped) :
    ∃ deviceId, d.deviceIdUnchecked = .ok deviceId := by
  obtain ⟨row, hrow⟩ := List.length_eq_one_iff.mp h.identity
  refine ⟨row.deviceId, ?_⟩
  unfold deviceIdUnchecked
  rw [hrow]

theorem exists_nextLamport (tables : ∀ t : SyncedTable, t.name ∈ d.objects)
    (columns : ∀ t, SyncColumn.syncLamport ∈ d.columns t) :
    ∃ lamport, d.nextLamport = .ok lamport := by
  have each (t : SyncedTable) : ∃ largest, d.maxLamport t = .ok largest := by
    unfold maxLamport
    rw [if_pos (tables t), if_pos (columns t)]
    exact ⟨_, rfl⟩
  choose largest hlargest using each
  have total : d.maxLamport = fun t => pure (largest t) := funext hlargest
  unfold nextLamport
  rw [total, List.mapM_pure]
  exact ⟨_, rfl⟩

/-! ## The steps -/

/-- A settled file whose version table exists. -/
structure Ready (v : Nat) (d : Disk) : Prop extends Settled v d where
  table : "schema_version" ∈ d.objects

/-- The synced tables and the identity are as they were. -/
def SameSynced (d d' : Disk) : Prop :=
  d'.columns = d.columns ∧ d'.synced = d.synced ∧ d'.deviceIdentity = d.deviceIdentity

theorem Stamped.congr (h : d.Stamped) (same : SameSynced d d') : d'.Stamped := by
  obtain ⟨hcolumns, hsynced, hidentity⟩ := same
  refine ⟨?_, ?_, ?_⟩
  · rw [hcolumns]
    exact h.columns
  · rw [hidentity]
    exact h.identity
  · rw [hsynced]
    exact h.rows

/-- The step to the next version, part by part: each version from 6 to 9 brings about one part
and leaves the others alone. -/
theorem Settled.next (h : Settled v d) (schema : Schema (v + 1) d')
    (device : v + 1 = 6 ∧ d'.Stamped ∨ v + 1 ≠ 6 ∧ SameSynced d d')
    (primary : v + 1 = 7 ∧ Porch.OnePrimary d'.profiles ∨ v + 1 ≠ 7 ∧ d'.profiles = d.profiles)
    (serverName : v + 1 = 8 ∧ d'.homeMeta.HasKey "server_name" ∨
      v + 1 ≠ 8 ∧ d'.homeMeta = d.homeMeta)
    (visibility : v + 1 = 9 ∧ ServersSeeded d'.visibility ∨
      v + 1 ≠ 9 ∧ d'.visibility = d.visibility) :
    Settled (v + 1) d' where
  toSchema := schema
  rows t ht := by
    rcases device with ⟨here, _⟩ | ⟨_, _, hsynced, _⟩
    · exact absurd (addedIn_le t) (by omega)
    · rw [hsynced]
      exact h.rows t (by omega)
  device := by
    rcases device with ⟨here, stamped⟩ | ⟨other, same⟩
    · exact ⟨fun hv => absurd hv (by omega), fun _ => stamped⟩
    · refine ⟨fun hv => ?_, fun hv => (h.device.2 (by omega)).congr same⟩
      rw [same.2.2]
      exact h.device.1 (by omega)
  primary := Since.next (·.rows = []) Porch.OnePrimary h.primary primary
  serverName := Since.next (fun t : KeyedTable HomeMetaRow.key => t.rows = [])
    (fun t => t.HasKey "server_name") h.serverName serverName
  visibility := Since.next (·.rows = []) ServersSeeded h.visibility visibility

/-- What a recorded version leaves alone. -/
theorem Records.same (h : Records names w d d') : SameSynced d d' ∧ d'.profiles = d.profiles ∧
    d'.homeMeta = d.homeMeta ∧ d'.visibility = d.visibility := by
  rw [h.rest]
  exact ⟨⟨rfl, rfl, rfl⟩, rfl, rfl, rfl⟩

theorem Records.table (h : Records names w d d') (table : "schema_version" ∈ d.objects) :
    "schema_version" ∈ d'.objects := (h.objects _).mpr (.inl table)

/-- A version that only creates tables. -/
theorem Ready.exists_record (h : Ready v d) (plain : v < 5 ∨ 9 ≤ v) :
    ∃ d', commit (record (v + 1)) d = .ok d' ∧ commit (recordIfMissing (v + 1)) d = .ok d' ∧
      Ready (v + 1) d' := by
  obtain ⟨d', hcommit, hrec, hmissing, schema⟩ := h.toSchema.record h.table
  obtain ⟨synced, profiles, homeMeta, visibility⟩ := hrec.same
  refine ⟨d', hcommit, hmissing, h.toSettled.next schema ?_ ?_ ?_ ?_, hrec.table h.table⟩
  · exact .inr ⟨by omega, synced⟩
  · exact .inr ⟨by omega, profiles⟩
  · exact .inr ⟨by omega, homeMeta⟩
  · exact .inr ⟨by omega, visibility⟩

/-- A schema speaks of the catalog only. -/
theorem Schema.congr (h : Schema v d) (objects : d'.objects = d.objects)
    (versions : d'.versions = d.versions) : Schema v d' where
  version := by
    unfold currentVersion
    rw [versions]
    exact h.version
  created := by
    rw [objects]
    exact h.created
  absent := by
    rw [objects]
    exact h.absent

/-- The seed of the primary profile meets an empty table of a stamped file. -/
theorem exists_insertLocalProfile (stamped : d.Stamped) (empty : d.profiles.rows = [])
    (tables : ∀ t : SyncedTable, t.name ∈ d.objects) (table : "user_profiles" ∈ d.objects)
    (id : String) (now : Int64) : ∃ profiles, Porch.OnePrimary profiles ∧
      exec (.insertLocalProfile id now) d = .ok { d with profiles := profiles } := by
  obtain ⟨deviceId, hdevice⟩ := stamped.exists_deviceId
  obtain ⟨lamport, hlamport⟩ := exists_nextLamport tables fun t => stamped.columns t _
  let row : UserProfileRow := ⟨id, "Local", none, true, .local, now, deviceId, lamport, 0⟩
  have free : d.profiles.find? row.id = none := by
    apply KeyedTable.find?_eq_none_iff.mpr
    rw [empty]
    exact fun _ h => absurd h List.not_mem_nil
  obtain ⟨profiles, hinsert⟩ : ∃ profiles, d.profiles.insert? row = some profiles := by
    cases hinsert : d.profiles.insert? row with
    | some profiles => exact ⟨profiles, rfl⟩
    | none =>
      obtain ⟨_, taken⟩ := KeyedTable.insert?_eq_none_iff.mp hinsert
      cases free.symm.trans taken
  refine ⟨profiles, ?_, ?_⟩
  · unfold Porch.OnePrimary
    rw [(KeyedTable.insert?_eq_some_iff.mp hinsert).2, empty]
    rfl
  · show d.insertLocalProfile id now = _
    unfold insertLocalProfile
    rw [hdevice, hlamport]
    simp only [bind, Except.bind, onTable, if_pos table, row] at hinsert ⊢
    rw [hinsert, empty]
    rfl

/-- Version 7: the account tables, then the primary profile. -/
theorem Ready.exists_upgrade_seven (h : Ready 6 d) (draw : Draw) :
    ∃ d', Staged.run commit (upgrade draw 7) d = .ok d' ∧ Ready 7 d' := by
  obtain ⟨d₁, hcommit, hrec, _, schema⟩ := h.toSchema.record h.table
  obtain ⟨synced, profiles, homeMeta, visibility⟩ := hrec.same
  have stamped := (h.device.2 le_rfl).congr synced
  have empty : d₁.profiles.rows = [] := by
    rw [profiles]
    exact h.primary.1 (by omega)
  have table : "user_profiles" ∈ d₁.objects := schema.created 7 le_rfl _ (by decide)
  obtain ⟨seeded, one, hseed⟩ := exists_insertLocalProfile stamped empty
    (schema.name_mem (by omega)) table draw.ulid draw.now
  refine ⟨{ d₁ with profiles := seeded }, ?_, ?_, hrec.table h.table⟩
  · show Staged.run commit [record 7, [.insertLocalProfile draw.ulid draw.now]] d = _
    rw [Staged.run_cons_of_ok hcommit, Staged.run_singleton]
    exact Staged.run_singleton.trans hseed
  · refine h.toSettled.next (schema.congr rfl rfl) ?_ ?_ ?_ ?_
    · exact .inr ⟨by omega, synced⟩
    · exact .inl ⟨rfl, one⟩
    · exact .inr ⟨by omega, homeMeta⟩
    · exact .inr ⟨by omega, visibility⟩

/-- An `INSERT OR IGNORE` leaves a row under the key. -/
theorem hasKey_insertOrIgnore {ρ κ : Type} [DecidableEq κ] {key : ρ → κ} (t : KeyedTable key)
    (r : ρ) : ((t.insert? r).getD t).HasKey (key r) := by
  cases hinsert : t.insert? r with
  | some t' => exact (KeyedTable.puts_of_insert? hinsert).hasKey_iff.mpr (.inl rfl)
  | none =>
    obtain ⟨s, hs⟩ := KeyedTable.insert?_eq_none_iff.mp hinsert
    exact KeyedTable.hasKey_iff_isSome.mpr (Option.isSome_iff_exists.mpr ⟨s, hs⟩)

/-- An `INSERT OR IGNORE` loses no key. -/
theorem HasKey.insertOrIgnore {ρ κ : Type} [DecidableEq κ] {key : ρ → κ} {t : KeyedTable key}
    {k : κ} (h : t.HasKey k) (r : ρ) : ((t.insert? r).getD t).HasKey k := by
  cases hinsert : t.insert? r with
  | some t' => exact (KeyedTable.puts_of_insert? hinsert).hasKey_iff.mpr (.inr h)
  | none => exact h

/-- Version 8: the metadata table, then the server name. -/
theorem Ready.exists_upgrade_eight (h : Ready 7 d) (draw : Draw) :
    ∃ d', Staged.run commit (upgrade draw 8) d = .ok d' ∧ Ready 8 d' := by
  obtain ⟨d₁, _, hrec, hcommit, schema⟩ := h.toSchema.record h.table
  obtain ⟨synced, profiles, homeMeta, visibility⟩ := hrec.same
  have table : "home_meta" ∈ d₁.objects := schema.created 8 le_rfl _ (by decide)
  let named := (d₁.homeMeta.insert? ⟨"server_name", Porch.defaultHomeServerName⟩).getD d₁.homeMeta
  have hseed : exec .insertServerName d₁ = .ok { d₁ with homeMeta := named } := by
    show d₁.insertServerName = _
    unfold insertServerName
    rw [onTable, if_pos table]
  refine ⟨{ d₁ with homeMeta := named }, ?_, ?_, hrec.table h.table⟩
  · show Staged.run commit [recordIfMissing 8, [.insertServerName]] d = _
    rw [Staged.run_cons_of_ok hcommit, Staged.run_singleton]
    exact Staged.run_singleton.trans hseed
  · refine h.toSettled.next (schema.congr rfl rfl) ?_ ?_ ?_ ?_
    · exact .inr ⟨by omega, synced⟩
    · exact .inr ⟨by omega, profiles⟩
    · exact .inl ⟨rfl, hasKey_insertOrIgnore _ _⟩
    · exact .inr ⟨by omega, visibility⟩

theorem commit_insertVisibility (table : "visibility_meta" ∈ d.objects) (row : VisibilityRow) :
    commit [.insertVisibility row] d =
      .ok { d with visibility := (d.visibility.insert? row).getD d.visibility } := by
  show Staged.run exec [.insertVisibility row] d = _
  rw [Staged.run_singleton]
  show d.insertVisibility row = _
  unfold insertVisibility
  rw [onTable, if_pos table]

/-- Version 9: the visibility table, then a row for each intrinsic server. -/
theorem Ready.exists_upgrade_nine (h : Ready 8 d) (draw : Draw) :
    ∃ d', Staged.run commit (upgrade draw 9) d = .ok d' ∧ Ready 9 d' := by
  obtain ⟨d₁, _, hrec, hcommit, schema⟩ := h.toSchema.record h.table
  obtain ⟨synced, profiles, homeMeta, visibility⟩ := hrec.same
  have table : "visibility_meta" ∈ d₁.objects := schema.created 9 le_rfl _ (by decide)
  let porchRow : VisibilityRow := ⟨visibilityServerIdPorch, defaultPorchMaxHops, draw.now⟩
  let homeRow : VisibilityRow := ⟨visibilityServerIdHome, defaultHomeMaxHops, draw.now⟩
  let first := (d₁.visibility.insert? porchRow).getD d₁.visibility
  let second := (first.insert? homeRow).getD first
  have hsecond : commit [.insertVisibility homeRow] { d₁ with visibility := first } =
      .ok { d₁ with visibility := second } :=
    commit_insertVisibility (d := { d₁ with visibility := first }) table homeRow
  refine ⟨{ d₁ with visibility := second }, ?_, ?_, hrec.table h.table⟩
  · show Staged.run commit [recordIfMissing 9, [.insertVisibility porchRow],
      [.insertVisibility homeRow]] d = _
    rw [Staged.run_cons_of_ok hcommit,
      Staged.run_cons_of_ok (commit_insertVisibility table porchRow),
      Staged.run_singleton]
    exact hsecond
  · refine h.toSettled.next (schema.congr rfl rfl) ?_ ?_ ?_ ?_
    · exact .inr ⟨by omega, synced⟩
    · exact .inr ⟨by omega, profiles⟩
    · exact .inr ⟨by omega, homeMeta⟩
    · exact .inl ⟨rfl, HasKey.insertOrIgnore (hasKey_insertOrIgnore _ porchRow) homeRow,
        hasKey_insertOrIgnore _ homeRow⟩

/-! ## Version 6 -/

/-- The synced tables exist, and everything but them is as it was. -/
structure SyncedOnly (d d' : Disk) : Prop where
  rest : d' = { d with columns := d'.columns, synced := d'.synced }
  tables : ∀ t : SyncedTable, t.name ∈ d'.objects

/-- One column is added where it is missing, and the others stay. -/
theorem exists_addSyncColumn {s : Disk} (only : SyncedOnly d s) (t : SyncedTable) (c : SyncColumn) :
    ∃ s', commit [.addSyncColumnIfMissing t c] s = .ok s' ∧ SyncedOnly d s' ∧ c ∈ s'.columns t ∧
      ∀ t' c', c' ∈ s.columns t' → c' ∈ s'.columns t' := by
  show ∃ s', Staged.run exec [.addSyncColumnIfMissing t c] s = .ok s' ∧ _
  rw [Staged.run_singleton]
  show ∃ s', s.addSyncColumnIfMissing t c = .ok s' ∧ _
  unfold addSyncColumnIfMissing onTable
  rw [if_pos (only.tables t)]
  split
  · rename_i present
    exact ⟨s, rfl, only, present, fun _ _ h => h⟩
  · refine ⟨_, rfl, ⟨?_, only.tables⟩, ?_, fun t' c' h => ?_⟩
    · rw [only.rest]
    · show c ∈ Function.update s.columns t (s.columns t ++ [c]) t
      rw [Function.update_self]
      exact List.mem_append_right _ (List.mem_singleton_self c)
    · show c' ∈ Function.update s.columns t (s.columns t ++ [c]) t'
      by_cases ht : t' = t
      · subst ht
        rw [Function.update_self]
        exact List.mem_append_left _ h
      · rw [Function.update_of_ne ht]
        exact h

/-- All columns are added. -/
theorem run_addSyncColumns (tables : ∀ t : SyncedTable, t.name ∈ d.objects) :
    ∃ d', Staged.run commit (SyncedTable.all.flatMap fun t =>
        SyncColumn.all.map fun c => [.addSyncColumnIfMissing t c]) d = .ok d' ∧
      SyncedOnly d d' ∧ ∀ t c, c ∈ d'.columns t := by
  have pairs : (SyncedTable.all.flatMap fun t =>
      SyncColumn.all.map fun c => [Statement.addSyncColumnIfMissing t c]) =
      (SyncedTable.all.product SyncColumn.all).map fun p => [.addSyncColumnIfMissing p.1 p.2] := by
    simp only [List.product, List.map_flatMap, List.map_map, Function.comp_def]
  rw [pairs]
  obtain ⟨d', hrun, only, goals, _⟩ := Staged.run_achieves (σ := Disk)
    (fun p : SyncedTable × SyncColumn => [Statement.addSyncColumnIfMissing p.1 p.2])
    (SyncedOnly d) (fun p s => p.2 ∈ s.columns p.1) (fun p s only => by
      obtain ⟨s', hrun, only', goal, keep⟩ := exists_addSyncColumn only p.1 p.2
      exact ⟨s', hrun, only', goal, fun q => keep q.1 q.2⟩) ⟨rfl, tables⟩
  exact ⟨d', hrun, only, fun t c => goals (t, c)
    (List.mem_product.mpr ⟨SyncedTable.mem_all t, SyncColumn.mem_all c⟩)⟩

/-- Every row of the table names its device. -/
def Filled (t : SyncedTable) (d : Disk) : Prop := ∀ r ∈ (d.synced t).rows, r.syncDeviceId ≠ none

/-- One table is backfilled, and the others stay. -/
theorem exists_backfill {s : Disk} (only : SyncedOnly d s) (columns : ∀ t c, c ∈ s.columns t)
    (t : SyncedTable) (deviceId : String) :
    ∃ s', commit [.backfill t deviceId] s = .ok s' ∧ SyncedOnly d s' ∧
      (∀ t c, c ∈ s'.columns t) ∧ Filled t s' ∧ ∀ t', Filled t' s → Filled t' s' := by
  show ∃ s', Staged.run exec [.backfill t deviceId] s = .ok s' ∧ _
  rw [Staged.run_singleton]
  show ∃ s', s.backfill t deviceId = .ok s' ∧ _
  unfold backfill onTable
  rw [if_pos (only.tables t), if_pos (columns t _)]
  have filled : ∀ r ∈ ((s.synced t).updateWhere (fun r => r.syncDeviceId.isNone)
      (StoredRow.stamp deviceId) (StoredRow.key_stamp deviceId)).rows, r.syncDeviceId ≠ none := by
    intro r hr
    obtain ⟨old, _, rfl⟩ := KeyedTable.mem_updateWhere.mp hr
    split
    · exact nofun
    · rename_i h
      exact fun hnone => h (Option.isNone_iff_eq_none.mpr hnone)
  refine ⟨_, rfl, ⟨?_, only.tables⟩, columns, ?_, fun t' h => ?_⟩
  · rw [only.rest]
  · unfold Filled
    show ∀ r ∈ (Function.update s.synced t _ t).rows, _
    rw [Function.update_self]
    exact filled
  · unfold Filled
    show ∀ r ∈ (Function.update s.synced t _ t').rows, _
    by_cases ht : t' = t
    · subst ht
      rw [Function.update_self]
      exact filled
    · rw [Function.update_of_ne ht]
      exact h

/-- All tables are backfilled. -/
theorem run_backfill (tables : ∀ t : SyncedTable, t.name ∈ d.objects)
    (columns : ∀ t c, c ∈ d.columns t) (deviceId : String) :
    ∃ d', Staged.run commit (SyncedTable.all.map fun t => [.backfill t deviceId]) d = .ok d' ∧
      SyncedOnly d d' ∧ (∀ t c, c ∈ d'.columns t) ∧ ∀ t, Filled t d' := by
  obtain ⟨d', hrun, ⟨only, columns'⟩, goals, _⟩ := Staged.run_achieves (σ := Disk)
    (fun t => [Statement.backfill t deviceId])
    (fun s => SyncedOnly d s ∧ ∀ t c, c ∈ s.columns t) Filled (fun t s inv => by
      obtain ⟨s', hrun, only', columns', goal, keep⟩ := exists_backfill inv.1 inv.2 t deviceId
      exact ⟨s', hrun, ⟨only', columns'⟩, goal, keep⟩) ⟨⟨rfl, tables⟩, columns⟩
  exact ⟨d', hrun, only, columns', fun t => goals t (SyncedTable.mem_all t)⟩

theorem syncIndexes_disjoint (h : name ∈ createdBy w) : name ∉ syncIndexes := by
  unfold createdBy at h
  split at h
  all_goals
    revert name
    decide

/-- The identity is written where there is none. -/
theorem exists_insertDeviceIdentity (empty : d.deviceIdentity.rows = [])
    (table : "device_identity" ∈ d.objects) (deviceId : String) (now : Int64) :
    ∃ identity : KeyedTable DeviceIdentityRow.deviceId, identity.rows.length = 1 ∧
      commit [.insertDeviceIdentity deviceId now] d =
        .ok { d with deviceIdentity := identity } := by
  let row : DeviceIdentityRow := ⟨deviceId, now, none⟩
  refine ⟨⟨[row], List.nodup_singleton _⟩, rfl, ?_⟩
  have hinsert : d.deviceIdentity.insert? row = some ⟨[row], List.nodup_singleton _⟩ := by
    apply KeyedTable.insert?_eq_some_iff.mpr
    rw [KeyedTable.find?_eq_none_iff, empty]
    exact ⟨fun _ h => absurd h List.not_mem_nil, rfl⟩
  show Staged.run exec [.insertDeviceIdentity deviceId now] d = _
  rw [Staged.run_singleton]
  show d.insertDeviceIdentity deviceId now = _
  unfold insertDeviceIdentity onTable
  rw [if_pos table, hinsert]

/-- The transactions of version 6 before the one that records it. -/
def stampAll (draw : Draw) : List Transaction :=
  [(createdBy 6).map .create, [.insertDeviceIdentity draw.ulid draw.now]] ++
  SyncedTable.all.flatMap (fun t => SyncColumn.all.map fun c => [.addSyncColumnIfMissing t c]) ++
  SyncedTable.all.map (fun t => [.backfill t draw.ulid])

theorem upgrade_six (draw : Draw) : upgrade draw 6 =
    stampAll draw ++ [syncIndexes.map .createIfNotExists ++ [.insertVersion 6]] := rfl

/-- They leave a stamped file under the old version. -/
theorem Ready.exists_stampAll (h : Ready 5 d) (draw : Draw) :
    ∃ d', Staged.run commit (stampAll draw) d = .ok d' ∧ d'.Stamped ∧
      d' = { d with
        objects := d'.objects
        columns := d'.columns
        synced := d'.synced
        deviceIdentity := d'.deviceIdentity } ∧
      ∀ name, name ∈ d'.objects ↔ name ∈ d.objects ∨ name ∈ createdBy 6 := by
  obtain ⟨d₁, hcreate, rest₁, objects₁⟩ := commit_create (nodup_createdBy 6)
    (h.absent 6 (by omega))
  have table₁ : "device_identity" ∈ d₁.objects := (objects₁ _).mpr (.inr (by decide))
  have empty₁ : d₁.deviceIdentity.rows = [] := by
    rw [rest₁]
    exact h.device.1 (by omega)
  obtain ⟨identity, one, hidentity⟩ := exists_insertDeviceIdentity empty₁ table₁ draw.ulid draw.now
  have tables : ∀ t : SyncedTable, t.name ∈ d₁.objects := fun t =>
    (objects₁ _).mpr (.inl (h.name_mem (by omega) t))
  obtain ⟨d₃, hcolumns, only₃, columns₃⟩ :=
    run_addSyncColumns (d := { d₁ with deviceIdentity := identity }) tables
  obtain ⟨d₄, hbackfill, only₄, columns₄, filled⟩ := run_backfill only₃.tables columns₃ draw.ulid
  have first : Staged.run commit
      [(createdBy 6).map .create, [.insertDeviceIdentity draw.ulid draw.now]] d =
      .ok { d₁ with deviceIdentity := identity } := by
    rw [Staged.run_cons_of_ok hcreate, Staged.run_singleton]
    exact hidentity
  have objects : d₄.objects = d₁.objects := by
    rw [only₄.rest, only₃.rest]
  refine ⟨d₄, ?_, ⟨columns₄, ?_, filled⟩, ?_, ?_⟩
  · rw [← Staged.run_append_of_ok first] at hcolumns
    rw [stampAll, Staged.run_append_of_ok hcolumns]
    exact hbackfill
  · rw [only₄.rest, only₃.rest]
    exact one
  · rw [only₄.rest, only₃.rest, rest₁]
  · rw [objects]
    exact objects₁

/-- Version 6: the device tables, the identity, the sync columns, the backfill, the indexes. -/
theorem Ready.exists_upgrade_six (h : Ready 5 d) (draw : Draw) :
    ∃ d', Staged.run commit (upgrade draw 6) d = .ok d' ∧ Ready 6 d' := by
  obtain ⟨d₁, hstamp, stamped, rest₁, objects₁⟩ := h.exists_stampAll draw
  have versions₁ : d₁.versions = d.versions := by
    rw [rest₁]
  have higher : d₁.currentVersion < 6 := by
    unfold currentVersion
    rw [versions₁]
    exact h.version.trans_lt (by omega)
  have table₁ : "schema_version" ∈ d₁.objects := (objects₁ _).mpr (.inl h.table)
  obtain ⟨d₂, hcommit, hrec⟩ := commit_createIfNotExists syncIndexes table₁ higher
  obtain ⟨synced, profiles, homeMeta, visibility⟩ := hrec.same
  have objects₂ : ∀ name, name ∈ d₂.objects ↔
      name ∈ d.objects ∨ name ∈ createdBy 6 ++ syncIndexes := by
    intro name
    rw [hrec.objects, objects₁, List.mem_append, or_assoc]
  have versions₂ : d₂.versions = d.versions ++ [6] := by
    rw [hrec.rest, ← versions₁]
  have schema : Schema 6 d₂ := by
    refine h.toSchema.next versions₂ objects₂ (fun _ => List.mem_append_left _) ?_
    intro w hw name hname hnames
    rcases List.mem_append.mp hnames with hcreated | hindex
    · exact absurd (createdBy_disjoint hname hcreated) (by omega)
    · exact syncIndexes_disjoint hname hindex
  refine ⟨d₂, ?_, h.toSettled.next schema ?_ ?_ ?_ ?_, hrec.table table₁⟩
  · rw [upgrade_six, Staged.run_append_of_ok hstamp, Staged.run_singleton]
    exact hcommit
  · exact .inl ⟨rfl, stamped.congr synced⟩
  · exact .inr ⟨by omega, by rw [profiles, rest₁]⟩
  · exact .inr ⟨by omega, by rw [homeMeta, rest₁]⟩
  · exact .inr ⟨by omega, by rw [visibility, rest₁]⟩

/-- **The step to the next version** goes through and settles it. -/
theorem Ready.exists_upgrade (h : Ready v d) (hv : v < 10) (draw : Draw) :
    ∃ d', Staged.run commit (upgrade draw (v + 1)) d = .ok d' ∧ Ready (v + 1) d' := by
  have single : ∀ {t : Transaction} {d' : Disk}, commit t d = .ok d' →
      Staged.run commit [t] d = .ok d' := fun h => Staged.run_singleton.trans h
  rcases Nat.lt_or_ge v 5 with low | high
  · obtain ⟨d', hcommit, _, ready⟩ := h.exists_record (.inl low)
    refine ⟨d', ?_, ready⟩
    have shape : upgrade draw (v + 1) = [record (v + 1)] := by
      interval_cases v <;> rfl
    rw [shape]
    exact single hcommit
  · obtain rfl | rfl | rfl | rfl | rfl : v = 5 ∨ v = 6 ∨ v = 7 ∨ v = 8 ∨ v = 9 := by omega
    · exact h.exists_upgrade_six draw
    · exact h.exists_upgrade_seven draw
    · exact h.exists_upgrade_eight draw
    · exact h.exists_upgrade_nine draw
    · obtain ⟨d', _, hcommit, ready⟩ := h.exists_record (.inr le_rfl)
      exact ⟨d', single hcommit, ready⟩

end Disk

end Concorrd
