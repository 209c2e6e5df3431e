import Concorrd.Porch.Upgrade

/-!
# Opening again after a crash

A crash of an open leaves the file after some first part of its transactions. Between the steps
of two versions the file is that of the version below, and the next open ends where an open
without the crash could have. Inside the step of a version it does not: version 6 has created a
table that its own second run trips over, and versions 7 to 9 have recorded themselves before
the rows they are to seed.
-/

namespace Concorrd

namespace Disk

variable {d d' : Disk} {v w : Nat} {draws : OpenDraws}

/-! ## A whole open -/

theorem pending_eq (hv : v ≤ 10) : pending v = List.range' (v + 1) (10 - v) := by
  interval_cases v <;> rfl

/-- The first stage makes sure of the version table. -/
theorem Settled.ready (h : Settled v d) :
    ∃ d', commit [.createIfNotExists "schema_version"] d = .ok d' ∧ Ready v d' := by
  refine ⟨d.createIfNotExists "schema_version", rfl, ?_⟩
  by_cases hname : "schema_version" ∈ d.objects
  · rw [createIfNotExists, if_pos hname]
    exact ⟨h, hname⟩
  · rw [createIfNotExists, if_neg hname]
    refine ⟨⟨⟨h.version, ?_, ?_⟩, h.rows, ?_, h.primary, h.serverName, h.visibility⟩, ?_⟩
    · intro w hw name hcreated
      exact List.mem_append_left _ (h.created w hw name hcreated)
    · intro w hw name hcreated
      rw [List.mem_append, List.mem_singleton]
      rintro (hd | rfl)
      · exact h.absent w hw name hcreated hd
      · unfold createdBy at hcreated
        split at hcreated <;> revert hcreated <;> decide
    · exact ⟨h.device.1, fun hv => (h.device.2 hv).congr ⟨rfl, rfl, rfl⟩⟩
    · exact List.mem_append_right _ (List.mem_singleton_self _)

/-- It does nothing where the table is there. -/
theorem Ready.commit_first (h : Ready v d) :
    commit [.createIfNotExists "schema_version"] d = .ok d := by
  show Except.ok (d.createIfNotExists "schema_version") = _
  rw [createIfNotExists, if_pos h.table]

/-- The transactions of the steps to the `k` versions above one. -/
def steps (draws : OpenDraws) (v k : Nat) : List Transaction :=
  (List.range' (v + 1) k).flatMap fun version => upgrade (draws.version version) version

theorem Ready.run_steps (h : Ready v d) (draws : OpenDraws) (k : Nat) (hk : v + k ≤ 10) :
    ∃ d', Staged.run commit (steps draws v k) d = .ok d' ∧ Ready (v + k) d' := by
  refine Staged.run_stages Ready k ?_ h
  intro i _ hi s ready
  exact ready.exists_upgrade (by omega) _

/-- The last stage does nothing where there is a channel. -/
theorem commit_ensureDefaultChannel (table : "porch_channels" ∈ d.objects)
    (channel : (d.synced .porchChannels).rows ≠ []) (now : Int64) :
    commit [.ensureDefaultChannel now] d = .ok d := by
  show Staged.run exec [.ensureDefaultChannel now] d = _
  rw [Staged.run_singleton]
  show d.ensureDefaultChannel now = _
  unfold ensureDefaultChannel onTable
  have some_row : (d.synced .porchChannels).rows.isEmpty = false := by
    simpa using channel
  rw [if_pos table, if_neg (by rw [some_row]; exact Bool.false_ne_true)]

/-- The last stage leaves a channel. -/
theorem Ready.ensureDefaultChannel (h : Ready 10 d) (now : Int64) :
    ∃ d', commit [.ensureDefaultChannel now] d = .ok d' ∧ Ready 10 d' ∧
      (d'.synced .porchChannels).rows ≠ [] := by
  have table : "porch_channels" ∈ d.objects := h.name_mem (by omega) .porchChannels
  by_cases channel : (d.synced .porchChannels).rows = []
  · have stamped := h.device.2 (by omega)
    obtain ⟨deviceId, hdevice⟩ := stamped.exists_deviceId
    obtain ⟨lamport, hlamport⟩ := exists_nextLamport (h.name_mem (by omega)) fun t =>
      stamped.columns t _
    let row : StoredRow .porchChannels :=
      ⟨⟨defaultPorchChannelId, defaultPorchChannelName, "porch", "open", now⟩, some deviceId,
        lamport, 0⟩
    let channels : KeyedTable (StoredRow.key (t := .porchChannels)) :=
      ⟨[row], List.nodup_singleton _⟩
    have hinsert : (d.synced .porchChannels).insert? row = some channels := by
      apply KeyedTable.insert?_eq_some_iff.mpr
      rw [KeyedTable.find?_eq_none_iff, channel]
      exact ⟨fun _ h => absurd h List.not_mem_nil, rfl⟩
    have present : SyncColumn.all.find? (fun c => c ∉ d.columns .porchChannels) = none := by
      rw [List.find?_eq_none]
      intro c _
      simp [stamped.columns .porchChannels c]
    refine ⟨{ d with synced := Function.update d.synced .porchChannels channels }, ?_, ?_, ?_⟩
    · show Staged.run exec [.ensureDefaultChannel now] d = _
      rw [Staged.run_singleton]
      show d.ensureDefaultChannel now = _
      unfold Disk.ensureDefaultChannel onTable
      rw [if_pos table, if_pos (by rw [channel]; rfl), hdevice, hlamport, present]
      simp only [bind, Except.bind, row] at hinsert ⊢
      rw [hinsert]
    · refine ⟨⟨h.toSchema.congr rfl rfl, ?_, ?_, h.primary, h.serverName, h.visibility⟩, h.table⟩
      · intro t ht
        exact absurd (addedIn_le t) (by omega)
      · refine ⟨fun hv => absurd hv (by omega), fun _ => ⟨stamped.columns, stamped.identity, ?_⟩⟩
        intro t
        show ∀ r ∈ (Function.update d.synced .porchChannels channels t).rows, _
        by_cases ht : t = .porchChannels
        · subst ht
          rw [Function.update_self]
          intro r hr
          rw [List.mem_singleton.mp hr]
          exact Option.some_ne_none deviceId
        · rw [Function.update_of_ne ht]
          exact stamped.rows t
    · show (Function.update d.synced .porchChannels channels .porchChannels).rows ≠ []
      rw [Function.update_self]
      exact List.cons_ne_nil row []
  · exact ⟨d, commit_ensureDefaultChannel table channel now, h, channel⟩

theorem Ready.complete (h : Ready 10 d) (channel : (d.synced .porchChannels).rows ≠ []) :
    Complete d where
  version := h.version
  identity := (h.device.2 (by omega)).identity
  stamped := (h.device.2 (by omega)).rows
  primary := h.primary.2 (by omega)
  serverName := h.serverName.2 (by omega)
  porchVisibility := (h.visibility.2 (by omega)).1
  homeVisibility := (h.visibility.2 (by omega)).2
  channel := channel

/-- The transactions of an open, in order. -/
theorem flatten_stages (hv : v ≤ 10) : (stages draws v).flatten =
    [.createIfNotExists "schema_version"] :: (steps draws v (10 - v) ++
      [[.ensureDefaultChannel draws.channelNow]]) := by
  unfold stages steps
  rw [pending_eq hv]
  simp only [List.cons_append, List.flatten_cons, List.nil_append, List.flatten_append,
    List.flatMap_def, List.flatten_nil, List.append_nil]

/-- What an open does to a settled file, from the file its first stage leaves. -/
theorem Settled.open_eq (h : Settled v d) (hv : v ≤ 10)
    (first : commit [.createIfNotExists "schema_version"] d = .ok d') : «open» draws d =
    Staged.run commit (steps draws v (10 - v) ++ [[.ensureDefaultChannel draws.channelNow]])
      d' := by
  unfold «open»
  rw [h.version, flatten_stages hv, Staged.run_cons_of_ok first]

/-- An open that no crash cuts short leaves a complete file. -/
theorem Ready.open_complete (h : Ready v d) (hv : v ≤ 10) (draws : OpenDraws) :
    ∃ final, «open» draws d = .ok final ∧ Complete final ∧ Ready 10 final := by
  obtain ⟨d₁, hsteps, ready₁⟩ := h.run_steps draws (10 - v) (by omega)
  rw [show v + (10 - v) = 10 by omega] at ready₁
  obtain ⟨final, hlast, ready, channel⟩ := ready₁.ensureDefaultChannel draws.channelNow
  refine ⟨final, ?_, ready.complete channel, ready⟩
  rw [h.toSettled.open_eq hv h.commit_first, Staged.run_append_of_ok hsteps, Staged.run_singleton]
  exact hlast

/-! ## Between two versions -/

/-- Opening `crashed` ends in a complete file, the same that an open of `d` without a crash ends
in under some draws. -/
def Recovers (reopen : OpenDraws) (d crashed : Disk) : Prop :=
  ∃ final, «open» reopen crashed = .ok final ∧ (∃ draws, «open» draws d = .ok final) ∧
    Complete final

/-- The transactions are those of a number of whole stages. -/
def BetweenVersions (draws : OpenDraws) (v : Nat) (before : List Transaction) : Prop :=
  ∃ whole rest, stages draws v = whole ++ rest ∧ before = whole.flatten

theorem steps_add (draws : OpenDraws) (v k m : Nat) :
    steps draws v (k + m) = steps draws v k ++ steps draws (v + k) m := by
  unfold steps
  rw [← List.flatMap_append, show v + k + 1 = v + 1 + k by omega, List.range'_append_1]

theorem steps_congr {draws draws' : OpenDraws} {k : Nat}
    (h : ∀ w, v < w → w ≤ v + k → draws.version w = draws'.version w) :
    steps draws v k = steps draws' v k := by
  unfold steps
  rw [List.flatMap_def, List.flatMap_def]
  congr 1
  refine List.map_congr_left fun w hw => ?_
  obtain ⟨low, high⟩ := List.mem_range'_1.mp hw
  rw [h w (by omega) (by omega)]

/-- The draws of one open up to a version, and of another from there on. -/
def OpenDraws.upTo (draws : OpenDraws) (version : Nat) (later : OpenDraws) : OpenDraws where
  version w := if w ≤ version then draws.version w else later.version w
  channelNow := later.channelNow

/-- A crash between two versions is recovered from: the next open picks up at the version that
was reached. -/
theorem Settled.recovers_after_steps (h : Settled v d) {k : Nat} (hk : v + k ≤ 10)
    (draws reopen : OpenDraws) :
    ∃ crashed, Staged.run commit ([.createIfNotExists "schema_version"] :: steps draws v k) d =
      .ok crashed ∧ Ready (v + k) crashed ∧ Recovers reopen d crashed := by
  obtain ⟨d₀, first, ready₀⟩ := h.ready
  obtain ⟨crashed, hsteps, ready⟩ := ready₀.run_steps draws k hk
  obtain ⟨final, hopen, complete, _⟩ := ready.open_complete hk reopen
  refine ⟨crashed, ?_, ready, final, hopen, ⟨draws.upTo (v + k) reopen, ?_⟩, complete⟩
  · rw [Staged.run_cons_of_ok first]
    exact hsteps
  · have early : steps (draws.upTo (v + k) reopen) v k = steps draws v k :=
      steps_congr fun w _ hw => if_pos hw
    have late : steps (draws.upTo (v + k) reopen) (v + k) (10 - (v + k)) =
        steps reopen (v + k) (10 - (v + k)) := steps_congr fun w hw _ => if_neg (by omega)
    rw [h.open_eq (by omega) first, show 10 - v = k + (10 - (v + k)) by omega, steps_add, early,
      late, List.append_assoc, Staged.run_append_of_ok hsteps, ← hopen,
      ready.toSettled.open_eq hk ready.commit_first]
    rfl

/-- Opening a file that an open left complete changes nothing. -/
theorem Ready.open_self (h : Ready 10 d) (complete : Complete d) (draws : OpenDraws) :
    «open» draws d = .ok d := by
  have table : "porch_channels" ∈ d.objects := h.name_mem (by omega) .porchChannels
  rw [h.toSettled.open_eq le_rfl h.commit_first]
  exact Staged.run_singleton.trans (commit_ensureDefaultChannel table complete.channel _)

/-- Whole stages of an open: none, the first and some versions, or all. -/
theorem whole_cases {whole rest : List (List Transaction)} (hv : v ≤ 10)
    (h : stages draws v = whole ++ rest) : whole = [] ∨
      (∃ k, v + k ≤ 10 ∧ whole.flatten = [.createIfNotExists "schema_version"] :: steps draws v k ∧
        rest = ((List.range' (v + 1 + k) (10 - v - k)).map fun version =>
          upgrade (draws.version version) version) ++
            [[[.ensureDefaultChannel draws.channelNow]]]) ∨
      rest = [] := by
  unfold stages at h
  rw [pending_eq hv] at h
  cases whole with
  | nil => exact .inl rfl
  | cons stage whole =>
    rw [List.cons_append, List.cons_append] at h
    obtain ⟨rfl, later⟩ := List.cons_eq_cons.mp h
    rcases List.append_eq_append_iff.mp later with ⟨tail, rfl, hlast⟩ | ⟨tail, hmap, rfl⟩
    · cases tail with
      | nil =>
        refine .inr (.inl ⟨10 - v, by omega, ?_, ?_⟩)
        · rw [List.append_nil, List.flatten_cons, ← List.flatMap_def]
          rfl
        · rw [Nat.sub_self]
          exact hlast.symm
      | cons last tail =>
        obtain ⟨_, hnil⟩ := List.cons_eq_cons.mp hlast
        exact .inr (.inr (List.append_eq_nil_iff.mp hnil.symm).2)
    · obtain ⟨early, late, hrange, rfl, rfl⟩ := List.map_eq_append_iff.mp hmap
      obtain ⟨k, hk, rfl, rfl⟩ := List.range'_eq_append_iff.mp hrange
      refine .inr (.inl ⟨k, by omega, ?_, by rw [Nat.mul_one]⟩)
      rw [List.flatten_cons, ← List.flatMap_def]
      rfl

/-- A crash between two versions is recovered from. -/
theorem Settled.recovers_between (h : Settled v d) (hv : v ≤ 10) {before : List Transaction}
    (between : BetweenVersions draws v before) (reopen : OpenDraws) :
    ∃ crashed, Staged.run commit before d = .ok crashed ∧ Recovers reopen d crashed := by
  obtain ⟨whole, rest, split, rfl⟩ := between
  rcases whole_cases hv split with rfl | ⟨k, hk, hwhole, _⟩ | rfl
  · obtain ⟨d₀, first, ready⟩ := h.ready
    obtain ⟨final, hopen, complete, _⟩ := ready.open_complete hv reopen
    have same : «open» reopen d = .ok final := by
      rw [h.open_eq hv first, ← hopen, ready.toSettled.open_eq hv ready.commit_first]
    exact ⟨d, rfl, final, same, ⟨reopen, same⟩, complete⟩
  · obtain ⟨crashed, hrun, _, recovers⟩ := h.recovers_after_steps hk draws reopen
    exact ⟨crashed, by rw [hwhole]; exact hrun, recovers⟩
  · rw [List.append_nil] at split
    obtain ⟨d₀, first, ready⟩ := h.ready
    obtain ⟨final, hopen, complete, settled⟩ := ready.open_complete hv draws
    have same : «open» draws d = .ok final := by
      rw [h.open_eq hv first, ← hopen, ready.toSettled.open_eq hv ready.commit_first]
    refine ⟨final, ?_, final, settled.open_self complete reopen, ⟨draws, same⟩, complete⟩
    rw [← split, ← h.version]
    exact same

/-! ## What a statement leaves alone -/

/-- The parts of the file. -/
inductive Part where
  | catalog
  | versions
  | synced
  | identity
  | profiles
  | homeMeta
  | visibility
  deriving DecidableEq

/-- The part a statement writes. -/
def Statement.part : Statement → Part
  | .create _ | .createIfNotExists _ => .catalog
  | .insertVersion _ => .versions
  | .insertDeviceIdentity _ _ => .identity
  | .addSyncColumnIfMissing _ _ | .backfill _ _ | .ensureDefaultChannel _ => .synced
  | .insertLocalProfile _ _ => .profiles
  | .insertServerName => .homeMeta
  | .insertVisibility _ => .visibility

/-- A part of the file is as it was. -/
def SamePart (d d' : Disk) : Part → Prop
  | .catalog => d'.objects = d.objects
  | .versions => d'.versions = d.versions
  | .synced => d'.columns = d.columns ∧ d'.synced = d.synced
  | .identity => d'.deviceIdentity = d.deviceIdentity
  | .profiles => d'.profiles = d.profiles
  | .homeMeta => d'.homeMeta = d.homeMeta
  | .visibility => d'.visibility = d.visibility

theorem of_onTable {name : String} {next : Except OpenError Disk}
    (h : d.onTable name next = .ok d') : next = .ok d' := by
  unfold onTable at h
  split at h
  · exact h
  · cases h

theorem of_bind {α β : Type} {e : Except OpenError α} {f : α → Except OpenError β} {b : β}
    (h : (e >>= f) = .ok b) : ∃ a, e = .ok a ∧ f a = .ok b := by
  cases e with
  | error e => cases h
  | ok a => exact ⟨a, rfl, h⟩

/-- Everything but a part of the file is as it was. -/
def WritesOnly (d d' : Disk) : Part → Prop
  | .catalog => d' = { d with objects := d'.objects }
  | .versions => d' = { d with versions := d'.versions }
  | .synced => d' = { d with columns := d'.columns, synced := d'.synced }
  | .identity => d' = { d with deviceIdentity := d'.deviceIdentity }
  | .profiles => d' = { d with profiles := d'.profiles }
  | .homeMeta => d' = { d with homeMeta := d'.homeMeta }
  | .visibility => d' = { d with visibility := d'.visibility }

theorem WritesOnly.samePart {part q : Part} (h : WritesOnly d d' part) (hq : part ≠ q) :
    SamePart d d' q := by
  cases part
  all_goals
    unfold WritesOnly at h
    rw [h]
    cases q <;> first | exact absurd rfl hq | exact ⟨rfl, rfl⟩ | rfl

/-- A statement writes its part only. -/
theorem writesOnly_exec {s : Statement} (h : exec s d = .ok d') : WritesOnly d d' s.part := by
  cases s with
  | create name =>
    change d.create name = .ok d' at h
    unfold create at h
    split at h
    · cases h
    · cases h
      rfl
  | createIfNotExists name =>
    change Except.ok (d.createIfNotExists name) = .ok d' at h
    unfold createIfNotExists at h
    split at h
    all_goals
      cases h
      rfl
  | insertVersion version =>
    have h := of_onTable (show d.insertVersion version = .ok d' from h)
    split at h
    · cases h
    · cases h
      rfl
  | insertDeviceIdentity deviceId now =>
    have h := of_onTable (show d.insertDeviceIdentity deviceId now = .ok d' from h)
    split at h
    · cases h
    · cases h
      rfl
  | addSyncColumnIfMissing t c =>
    have h := of_onTable (show d.addSyncColumnIfMissing t c = .ok d' from h)
    split at h
    all_goals
      cases h
      rfl
  | backfill t deviceId =>
    have h := of_onTable (show d.backfill t deviceId = .ok d' from h)
    split at h
    · cases h
      rfl
    · cases h
  | insertLocalProfile id now =>
    obtain ⟨deviceId, _, h⟩ := of_bind (show d.insertLocalProfile id now = .ok d' from h)
    obtain ⟨lamport, _, h⟩ := of_bind h
    have h := of_onTable h
    split at h
    · cases h
    · split at h
      · cases h
      · cases h
        rfl
  | insertServerName =>
    cases of_onTable (show d.insertServerName = .ok d' from h)
    rfl
  | insertVisibility row =>
    cases of_onTable (show d.insertVisibility row = .ok d' from h)
    rfl
  | ensureDefaultChannel now =>
    have h := of_onTable (show d.ensureDefaultChannel now = .ok d' from h)
    split at h
    · obtain ⟨deviceId, _, h⟩ := of_bind h
      obtain ⟨lamport, _, h⟩ := of_bind h
      split at h
      · cases h
      · split at h
        · cases h
        · cases h
          rfl
    · cases h
      rfl

theorem SamePart.trans {d'' : Disk} {q : Part} (h : SamePart d d' q) (h' : SamePart d' d'' q) :
    SamePart d d'' q := by
  cases q
  case synced => exact ⟨h'.1.trans h.1, h'.2.trans h.2⟩
  all_goals exact Eq.trans h' h

/-- Transactions leave a part alone that none of their statements writes. -/
theorem samePart_run {ts : List Transaction} {q : Part} (h : Staged.run commit ts d = .ok d')
    (silent : ∀ t ∈ ts, ∀ s ∈ t, s.part ≠ q) : SamePart d d' q := by
  have start : SamePart d d q := by
    cases q <;> first | exact ⟨rfl, rfl⟩ | rfl
  refine Staged.run_invariant (SamePart d · q) (fun t ht s s' same hcommit => ?_) start h
  refine Staged.run_invariant (SamePart d · q) (fun st hst u u' same hexec => ?_) same hcommit
  exact same.trans ((writesOnly_exec hexec).samePart (silent t ht st hst))

/-- No statement drops a table. -/
theorem objects_run {ts : List Transaction} {name : String}
    (h : Staged.run commit ts d = .ok d') (hname : name ∈ d.objects) : name ∈ d'.objects := by
  refine Staged.run_invariant (name ∈ ·.objects) (fun t _ s s' hs hcommit => ?_) hname h
  refine Staged.run_invariant (name ∈ ·.objects) (fun st _ u u' hu hexec => ?_) hs hcommit
  by_cases hpart : st.part = .catalog
  · cases st with
    | create other =>
      change u.create other = .ok u' at hexec
      unfold create at hexec
      split at hexec
      · cases hexec
      · cases hexec
        exact List.mem_append_left _ hu
    | createIfNotExists other =>
      change Except.ok (u.createIfNotExists other) = .ok u' at hexec
      unfold createIfNotExists at hexec
      split at hexec
      · cases hexec
        exact hu
      · cases hexec
        exact List.mem_append_left _ hu
    | _ => cases hpart
  · have same : u'.objects = u.objects := (writesOnly_exec hexec).samePart hpart
    rw [same]
    exact hu

theorem currentVersion_congr (h : SamePart d d' .versions) :
    d'.currentVersion = d.currentVersion := by
  unfold currentVersion
  rw [show d'.versions = d.versions from h]

/-! ## Inside the step of a version -/

variable {draw : Draw} {first last : List Transaction} {crashed : Disk}

/-- Part of version 6: its table is there, its number is not, and the next open fails on the
table. -/
theorem Ready.stuck (h : Ready 5 d) (split : upgrade draw 6 = first ++ last) (hfirst : first ≠ [])
    (hlast : last ≠ []) (hrun : Staged.run commit first d = .ok crashed) (reopen : OpenDraws) :
    «open» reopen crashed = .error (.alreadyExists "device_identity") := by
  obtain ⟨rest, early⟩ : ∃ rest, stampAll draw = first ++ rest := by
    rw [upgrade_six] at split
    rcases List.append_eq_append_iff.mp split with ⟨tail, rfl, hrecord⟩ | ⟨tail, hstamp, _⟩
    · cases tail with
      | nil => exact ⟨[], by rw [List.append_nil, List.append_nil]⟩
      | cons t tail =>
        obtain ⟨_, hnil⟩ := List.cons_eq_cons.mp hrecord
        exact absurd (List.append_eq_nil_iff.mp hnil.symm).2 hlast
    · exact ⟨tail, hstamp⟩
  have silent : ∀ t ∈ first, ∀ s ∈ t, s.part ≠ .versions := by
    have all : (stampAll draw).all (fun t => t.all fun s => decide (s.part ≠ .versions)) := rfl
    intro t ht s hs
    have hstamp : t ∈ stampAll draw := early ▸ List.mem_append_left rest ht
    exact of_decide_eq_true (List.all_eq_true.mp (List.all_eq_true.mp all t hstamp) s hs)
  have version : crashed.currentVersion = 5 :=
    (currentVersion_congr (samePart_run hrun silent)).trans h.version
  have table : "device_identity" ∈ crashed.objects := by
    obtain ⟨d₁, hcreate, _, objects⟩ := commit_create (nodup_createdBy 6) (h.absent 6 (by omega))
    cases first with
    | nil => exact absurd rfl hfirst
    | cons t first =>
      obtain ⟨rfl, _⟩ := List.cons_eq_cons.mp early
      rw [Staged.run_cons_of_ok hcreate] at hrun
      exact objects_run hrun ((objects _).mpr (.inr (by decide)))
  have table₁ : "device_identity" ∈ (crashed.createIfNotExists "schema_version").objects :=
    objects_run
      (show Staged.run commit [[.createIfNotExists "schema_version"]] crashed = _ from rfl)
      table
  have again : exec (.create "device_identity") (crashed.createIfNotExists "schema_version") =
      .error (.alreadyExists "device_identity") := if_pos table₁
  obtain ⟨later, hstages⟩ : ∃ later, (stages reopen 5).flatten =
      [.createIfNotExists "schema_version"] :: (createdBy 6).map .create :: later := ⟨_, rfl⟩
  unfold «open»
  have first : commit [.createIfNotExists "schema_version"] crashed = _ := rfl
  rw [version, hstages, Staged.run_cons_of_ok first]
  exact Staged.run_cons_of_error (Staged.run_cons_of_error again)

/-- The version is recorded and the part it was to seed is lost: no later step writes it. -/
theorem not_recovers_of_lost {reopen : OpenDraws} {q : Part} (version : crashed.currentVersion = w)
    (silent : ∀ t ∈ (stages reopen w).flatten, ∀ s ∈ t, s.part ≠ q)
    (lost : ∀ final, SamePart crashed final q → ¬ Complete final) :
    ¬ Recovers reopen d crashed := by
  rintro ⟨final, hopen, _, complete⟩
  unfold «open» at hopen
  rw [version] at hopen
  exact lost final (samePart_run hopen silent) complete

/-- Statements that a look at the list tells not to write a part. -/
theorem silent_of_all {ts : List Transaction} {q : Part}
    (all : ts.all (fun t => t.all fun s => decide (s.part ≠ q)) = true) :
    ∀ t ∈ ts, ∀ s ∈ t, s.part ≠ q := by
  intro t ht s hs
  exact of_decide_eq_true (List.all_eq_true.mp (List.all_eq_true.mp all t ht) s hs)

/-- Part of version 7: no primary profile, now and after the next open. -/
theorem Ready.unseeded_seven (h : Ready 6 d) (hrun : commit (record 7) d = .ok crashed)
    (reopen : OpenDraws) (start : Disk) : ¬ Recovers reopen start crashed := by
  obtain ⟨d₁, hcommit, hrec, _, schema⟩ := h.toSchema.record h.table
  cases hcommit.symm.trans hrun
  refine not_recovers_of_lost (w := 7) (q := .profiles) schema.version (silent_of_all rfl) ?_
  intro final same complete
  have empty : final.profiles.rows = [] := by
    rw [show final.profiles = crashed.profiles from same, hrec.same.2.1]
    exact h.primary.1 (by omega)
  have one := complete.primary
  rw [Porch.OnePrimary, empty] at one
  cases one

/-- Part of version 8: no server name, now and after the next open. -/
theorem Ready.unseeded_eight (h : Ready 7 d) (hrun : commit (recordIfMissing 8) d = .ok crashed)
    (reopen : OpenDraws) (start : Disk) : ¬ Recovers reopen start crashed := by
  obtain ⟨d₁, _, hrec, hcommit, schema⟩ := h.toSchema.record h.table
  cases hcommit.symm.trans hrun
  refine not_recovers_of_lost (w := 8) (q := .homeMeta) schema.version (silent_of_all rfl) ?_
  intro final same complete
  obtain ⟨row, hrow, _⟩ := complete.serverName
  rw [show final.homeMeta = crashed.homeMeta from same, hrec.same.2.2.1,
    h.serverName.1 (by omega)] at hrow
  cases hrow

/-- Part of version 9: no visibility row for the home server, now and after the next open. -/
theorem Ready.unseeded_nine (h : Ready 8 d) {row : VisibilityRow}
    (other : row.serverId ≠ visibilityServerIdHome)
    (hrun : commit (recordIfMissing 9) d = .ok crashed ∨
      Staged.run commit [recordIfMissing 9, [.insertVisibility row]] d = .ok crashed)
    (reopen : OpenDraws) (start : Disk) : ¬ Recovers reopen start crashed := by
  obtain ⟨d₁, _, hrec, hcommit, schema⟩ := h.toSchema.record h.table
  have empty : d₁.visibility.rows = [] := by
    rw [hrec.same.2.2.2]
    exact h.visibility.1 (by omega)
  have table : "visibility_meta" ∈ d₁.objects := schema.created 9 le_rfl _ (by decide)
  have crash : crashed.currentVersion = 9 ∧ ¬ crashed.visibility.HasKey visibilityServerIdHome := by
    rcases hrun with hrun | hrun
    · cases hcommit.symm.trans hrun
      refine ⟨schema.version, ?_⟩
      rintro ⟨found, hfound, _⟩
      rw [empty] at hfound
      cases hfound
    · rw [Staged.run_cons_of_ok hcommit, Staged.run_singleton,
        commit_insertVisibility table row] at hrun
      cases hrun
      refine ⟨schema.version, ?_⟩
      intro hhome
      cases hinsert : d₁.visibility.insert? row with
      | none =>
        rw [hinsert] at hhome
        obtain ⟨found, hfound, _⟩ := hhome
        rw [Option.getD_none, empty] at hfound
        cases hfound
      | some t =>
        rw [hinsert] at hhome
        rcases (KeyedTable.puts_of_insert? hinsert).hasKey_iff.mp hhome with
          heq | ⟨found, hfound, _⟩
        · exact other heq.symm
        · rw [empty] at hfound
          cases hfound
  refine not_recovers_of_lost (q := .visibility) crash.1 (silent_of_all rfl) ?_
  intro final same complete
  have hhome := complete.homeVisibility
  rw [show final.visibility = crashed.visibility from same] at hhome
  exact crash.2 hhome

/-- A crash strictly inside the step of a version is not recovered from. -/
theorem Ready.not_recovers_inside (h : Ready v d) (hv : v < 10)
    (split : upgrade draw (v + 1) = first ++ last) (hfirst : first ≠ []) (hlast : last ≠ [])
    (hrun : Staged.run commit first d = .ok crashed) (reopen : OpenDraws) (start : Disk) :
    ¬ Recovers reopen start crashed := by
  have pos : 0 < first.length := List.length_pos_iff.mpr hfirst
  have short : first.length < (upgrade draw (v + 1)).length := by
    have := List.length_pos_iff.mpr hlast
    rw [split, List.length_append]
    omega
  have cut : first = (upgrade draw (v + 1)).take first.length := by
    rw [split, List.take_left]
  obtain rfl | rfl | rfl | rfl : v = 5 ∨ v = 6 ∨ v = 7 ∨ v = 8 := by
    by_contra other
    have single : (upgrade draw (v + 1)).length = 1 := by
      interval_cases v <;> first | rfl | omega
    omega
  · rintro ⟨final, hopen, _⟩
    rw [h.stuck split hfirst hlast hrun reopen] at hopen
    cases hopen
  · have one : first.length = 1 := by
      have : (upgrade draw (6 + 1)).length = 2 := rfl
      omega
    rw [cut, one] at hrun
    exact h.unseeded_seven (Staged.run_singleton.symm.trans hrun) reopen start
  · have one : first.length = 1 := by
      have : (upgrade draw (7 + 1)).length = 2 := rfl
      omega
    rw [cut, one] at hrun
    exact h.unseeded_eight (Staged.run_singleton.symm.trans hrun) reopen start
  · have few : first.length = 1 ∨ first.length = 2 := by
      have : (upgrade draw (8 + 1)).length = 3 := rfl
      omega
    let seeded : VisibilityRow := ⟨visibilityServerIdPorch, defaultPorchMaxHops, draw.now⟩
    have other : visibilityServerIdPorch ≠ visibilityServerIdHome := by decide
    refine h.unseeded_nine (show seeded.serverId ≠ _ from other) ?_ reopen start
    rcases few with one | two
    · rw [cut, one] at hrun
      exact .inl (Staged.run_singleton.symm.trans hrun)
    · rw [cut, two] at hrun
      exact .inr hrun

/-- **A crash of an open is recovered from exactly when it falls between two versions**: the
next open then ends in a complete file, the same that an open without the crash can end in. -/
theorem recovers_iff_betweenVersions (h : Settled v d) (hv : v ≤ 10) (draws reopen : OpenDraws)
    (before after : List Transaction) (split : (stages draws v).flatten = before ++ after) :
    ∃ crashed, Staged.run commit before d = .ok crashed ∧
      (Recovers reopen d crashed ↔ BetweenVersions draws v before) := by
  rcases Staged.crash_cases split with between |
    ⟨whole, stage, rest, hstages, first, last, rfl, hfirst, hlast, rfl⟩
  · obtain ⟨crashed, hrun, recovers⟩ := h.recovers_between hv between reopen
    exact ⟨crashed, hrun, fun _ => between, fun _ => recovers⟩
  · have two : 1 < (first ++ last).length := by
      have := List.length_pos_iff.mpr hfirst
      have := List.length_pos_iff.mpr hlast
      rw [List.length_append]
      omega
    rcases whole_cases hv hstages with rfl | ⟨k, hk, hwhole, hrest⟩ | hnil
    · obtain ⟨hstage, _⟩ := List.cons_eq_cons.mp (show stages draws v = _ from hstages)
      rw [← hstage] at two
      exact absurd two (by decide)
    · rcases Nat.lt_or_ge (v + k) 10 with hlt | hge
      · rw [show 10 - v - k = (10 - v - k - 1) + 1 by omega, List.range'_succ, List.map_cons,
          List.cons_append] at hrest
        obtain ⟨hstage, _⟩ := List.cons_eq_cons.mp hrest
        rw [show v + 1 + k = v + k + 1 by omega] at hstage
        obtain ⟨reached, hsteps, ready, _⟩ := h.recovers_after_steps hk draws reopen
        obtain ⟨done, hupgrade, _⟩ := ready.exists_upgrade hlt (draws.version (v + k + 1))
        rw [← hstage] at hupgrade
        obtain ⟨crashed, hcrash, _⟩ := Staged.exists_of_run_append hupgrade
        have hrun : Staged.run commit (whole.flatten ++ first) d = .ok crashed := by
          rw [hwhole, Staged.run_append_of_ok hsteps]
          exact hcrash
        refine ⟨crashed, hrun, fun recovers => ?_, fun between => ?_⟩
        · exact absurd recovers
            (ready.not_recovers_inside hlt hstage.symm hfirst hlast hcrash reopen d)
        · obtain ⟨crashed', hrun', recovers⟩ := h.recovers_between hv between reopen
          cases hrun.symm.trans hrun'
          exact recovers
      · rw [show 10 - v - k = 0 by omega] at hrest
        obtain ⟨hstage, _⟩ := List.cons_eq_cons.mp hrest
        rw [hstage] at two
        exact absurd two (Nat.lt_irrefl 1)
    · cases hnil

theorem settled_empty : Settled 0 empty where
  version := rfl
  created w hw name hname := by
    obtain rfl : w = 0 := by omega
    cases hname
  absent w hw name hname h := by cases h
  rows _ _ := rfl
  device := ⟨fun _ => rfl, fun h => absurd h (by decide)⟩
  primary := ⟨fun _ => rfl, fun h => absurd h (by decide)⟩
  serverName := ⟨fun _ => rfl, fun h => absurd h (by decide)⟩
  visibility := ⟨fun _ => rfl, fun h => absurd h (by decide)⟩

end Disk

/-- Draws of a first open. -/
def firstDraws : Disk.OpenDraws := ⟨fun _ => ⟨"first", 1⟩, 1⟩

/-- Draws of the open after a crash. -/
def secondDraws : Disk.OpenDraws := ⟨fun _ => ⟨"second", 2⟩, 2⟩

/-- The transactions of the first open of a fresh install. -/
def firstOpen : List Disk.Transaction := (Disk.stages firstDraws 0).flatten

theorem recovers_fresh : ∃ crashed,
    Staged.run Disk.commit (firstOpen.take 6) .empty = .ok crashed ∧
      (Disk.Recovers secondDraws .empty crashed ↔
        Disk.BetweenVersions firstDraws 0 (firstOpen.take 6)) :=
  Disk.recovers_iff_betweenVersions Disk.settled_empty (by decide) firstDraws secondDraws
    (firstOpen.take 6) (firstOpen.drop 6) (List.take_append_drop 6 firstOpen).symm

/-- A first open that dies right after the device tables were created leaves a file that no
open gets through. -/
theorem crash_in_version_six : Disk.Settled 0 .empty ∧ ∃ crashed,
    Staged.run Disk.commit (firstOpen.take 7) .empty = .ok crashed ∧
      Disk.open secondDraws crashed = .error (.alreadyExists "device_identity") ∧
      ¬ Disk.Recovers secondDraws .empty crashed := by
  refine ⟨Disk.settled_empty, _, rfl, rfl, ?_⟩
  rintro ⟨final, hopen, _⟩
  cases hopen

end Concorrd
