import Concorrd.Lib.Run
import Concorrd.Porch.LocalOp
import Concorrd.Sync.Wedge

/-!
# Dominance of local writes

A porch lives through local writes and batches whose rows carry any stamps. A written row
dominates when its lamport exceeds every lamport stored before the write. The clock adds one
by an addition that saturates, and an accepted knock adds one more by an addition that
wraps, so rows dominate exactly while the clock is below the top: `dominates_along_iff` says
so for every run.
-/

namespace Concorrd

/-- What can happen to a porch. -/
inductive PorchEvent where
  | write (op : LocalOp)
  | batch (delta : SyncDelta)

namespace Porch

/-- One event. A write that fails and a batch that is refused leave the porch as it was. -/
def step (p : Porch) : PorchEvent → Porch
  | .write op => p.afterWrite op
  | .batch delta =>
    match p.applySyncBatch delta with
    | .ok (p, _) => p
    | .error _ => p

/-- The row's stamp exceeds everything the porch stores, so the row wins the comparison with
every stored row and is never dropped where only such rows are held. -/
structure Dominated (p : Porch) (x : SyncedRow) : Prop where
  above : ∀ y, p.tables.Holds y → y.lamport < x.lamport
  wins : ∀ y, p.tables.Holds y → remoteWins x.lamport x.device y.lamport y.device = true
  kept : ∀ db : Database, (∀ y, db.tables.Holds y → p.tables.Holds y) →
    ∀ db', Database.applyRemote (assignmentOf x.table) db x.row ≠ .ok (db', false)

/-- Every row the write writes dominates. -/
def Dominates (p : Porch) (op : LocalOp) : Prop :=
  ∀ out, p.perform op = .ok out → ∀ x ∈ out.written, p.Dominated x

/-- The write succeeds and writes a row. -/
def TakesEffect (p : Porch) (op : LocalOp) : Prop :=
  ∃ out, p.perform op = .ok out ∧ out.written ≠ []

/-- The clock has room for the lamports of the write: one, or two for an accepted knock. -/
def Headroom (p : Porch) : LocalOp → Prop
  | .acceptKnock _ _ => p.nextLamport < Int64.maxValue
  | _ => p.tables.observedMax < Int64.maxValue

variable {p : Porch} {op : LocalOp} {x : SyncedRow}

/-- A larger lamport is all that dominance takes. -/
theorem dominated_iff : p.Dominated x ↔ ∀ y, p.tables.Holds y → y.lamport < x.lamport := by
  refine ⟨Dominated.above, fun above => ⟨above, fun y hy => ?_, fun db only db' h => ?_⟩⟩
  · have hlt := above y hy
    unfold remoteWins
    rw [if_pos (ne_of_gt hlt)]
    exact decide_eq_true hlt
  · rcases Database.applyRemote_cases h with ⟨held, _, _⟩ | ⟨_, hwon, _⟩
    · obtain ⟨y, hy, hle⟩ := held
      obtain ⟨hholds, _⟩ := SyncedTables.view_eq_some_iff.mp hy
      have hlamport : x.lamport ≤ y.lamport := SyncedRow.lamport_le_of_stamp_le hle
      exact absurd (above y (only y hholds)) (not_lt.mpr hlamport)
    · cases hwon

/-- Once the clock has left its floor, exceeding every stored lamport is exceeding it. -/
theorem forall_lamport_lt_iff {T : SyncedTables} {b : Int64} (hb : T.observedMax ≠ 0) :
    (∀ y, T.Holds y → y.lamport < b) ↔ T.observedMax < b := by
  constructor
  · intro h
    obtain ⟨y, hy, heq⟩ := SyncedTables.exists_lamport_eq_observedMax hb
    exact heq ▸ h y hy
  · intro h y hy
    exact (SyncedTables.lamport_le_observedMax hy).trans_lt h

/-- The lamports of a write exceed the clock exactly when the clock has room for them. -/
theorem observedMax_lt_stamps_iff :
    (∀ s ∈ op.stamps p, p.tables.observedMax < s) ↔ p.Headroom op := by
  have single : (∀ s ∈ [p.nextLamport], p.tables.observedMax < s) ↔
      p.tables.observedMax < Int64.maxValue := by
    rw [List.forall_mem_singleton]
    exact SyncedTables.observedMax_lt_nextLamport_iff
  cases op with
  | acceptKnock knockId now =>
    show (∀ s ∈ [p.nextLamport, p.nextLamport + 1], p.tables.observedMax < s) ↔
      p.nextLamport < Int64.maxValue
    rw [List.forall_mem_cons, List.forall_mem_singleton]
    constructor
    · intro ⟨_, hsecond⟩
      -- at the top the second lamport wraps round to the bottom
      rw [Int64.lt_maxValue_iff]
      intro htop
      rw [htop, Int64.maxValue_add_one] at hsecond
      have hfloor : (0 : Int64) < Int64.minValue :=
        SyncedTables.zero_le_observedMax.trans_lt hsecond
      exact absurd hfloor (by decide)
    · intro htop
      have hbelow : p.tables.observedMax < Int64.maxValue :=
        SyncedTables.observedMax_le_nextLamport.trans_lt htop
      have hfirst := SyncedTables.observedMax_lt_nextLamport_iff.mpr hbelow
      exact ⟨hfirst, hfirst.trans (Int64.saturatingAdd_one_lt_add_one htop)⟩
  | postMessage => exact single
  | insertChannel => exact single
  | grantAcl => exact single
  | revokeAcl => exact single
  | knock => exact single
  | rejectKnock => exact single
  | withdrawKnock => exact single
  | setTheme => exact single
  | uploadAsset => exact single
  | setObsidianConfig => exact single

/-- While nothing is stored above 0 there is room for every write. -/
theorem headroom_of_observedMax_eq_zero (h : p.tables.observedMax = 0) : p.Headroom op := by
  rw [← observedMax_lt_stamps_iff]
  have hnext : p.nextLamport = 1 := by
    show p.tables.observedMax.saturatingAdd 1 = 1
    rw [h]
    decide
  cases op with
  | acceptKnock knockId now =>
    show ∀ s ∈ [p.nextLamport, p.nextLamport + 1], p.tables.observedMax < s
    rw [hnext, h]
    intro s hs
    rcases List.mem_pair.mp hs with rfl | rfl
    · decide
    · decide
  | _ =>
    show ∀ s ∈ [p.nextLamport], p.tables.observedMax < s
    rw [hnext, h]
    intro s hs
    rw [List.mem_singleton.mp hs]
    decide

/-- A write dominates exactly when the clock has room for it, should it take effect. -/
theorem dominates_iff : p.Dominates op ↔ (p.TakesEffect op → p.Headroom op) := by
  constructor
  · intro h ⟨out, hout, hwritten⟩
    have lamports := (localWrite_perform hout).lamports.resolve_left hwritten
    by_cases hzero : p.tables.observedMax = 0
    · exact headroom_of_observedMax_eq_zero hzero
    · refine observedMax_lt_stamps_iff.mp fun s hs => (forall_lamport_lt_iff hzero).mp ?_
      rw [← lamports] at hs
      obtain ⟨x, hx, rfl⟩ := List.mem_map.mp hs
      exact (h out hout x hx).above
  · intro h out hout x hx
    have hwritten : out.written ≠ [] := List.ne_nil_of_mem hx
    have lamports := (localWrite_perform hout).lamports.resolve_left hwritten
    have hs : x.lamport ∈ op.stamps p := lamports ▸ List.mem_map_of_mem hx
    have room := observedMax_lt_stamps_iff.mpr (h ⟨out, hout, hwritten⟩) x.lamport hs
    exact dominated_iff.mpr fun y hy => (SyncedTables.lamport_le_observedMax hy).trans_lt room

/-- **Dominance along a run.** Along every run of local writes and batches with any stamps,
every row written dominates exactly when the clock has room for every write that takes
effect. -/
theorem dominates_along_iff (p : Porch) (events : List PorchEvent) :
    Machine.Along step (fun p e => ∀ op, e = .write op → p.Dominates op) p events ↔
      Machine.Along step (fun p e => ∀ op, e = .write op → p.TakesEffect op → p.Headroom op) p
        events := by
  refine Machine.along_congr (fun _ => True) (fun _ _ _ => trivial) (fun p e _ => ?_) trivial
  exact forall_congr' fun op => imp_congr_right fun _ => dominates_iff

/-- A batch of one channel under any stamp. -/
def farBatch (lamport : Int64) : SyncDelta :=
  ⟨[⟨⟨"far", "Far", "inner", "open", 1⟩, "device-b", lamport, 0⟩], [], [], [], [], [], []⟩

/-- A fresh porch. -/
def freshPorch : Porch := opened .none ⟨"device-a", "profile-a", 1, true⟩

private theorem not_dominates_of_check
    (effect : isOkAnd (p.perform op) (fun out => out.written ≠ []) = true)
    (full : ¬ p.Headroom op) : ¬ p.Dominates op := by
  obtain ⟨out, hout, hwritten⟩ := isOkAnd_iff.mp effect
  exact fun h => full (dominates_iff.mp h ⟨out, hout, of_decide_eq_true hwritten⟩)

set_option maxRecDepth 2000 in
/-- A post after a row at the top of the clock does not dominate, and neither does an
accepted knock after a row one below it. -/
theorem not_dominates_at_top :
    (¬ Machine.Along step (fun p e => ∀ op, e = .write op → p.Dominates op) freshPorch
      [.batch (farBatch Int64.maxValue),
        .write (.postMessage "porch-default" "peer-a" "hello" "m1" 2)]) ∧
    ¬ Machine.Along step (fun p e => ∀ op, e = .write op → p.Dominates op) freshPorch
      [.write (.knock "porch-default" "visitor" none "k1" 2),
        .batch (farBatch (Int64.maxValue - 1)), .write (.acceptKnock "k1" 3)] := by
  constructor
  · intro ⟨_, hpost, _⟩
    refine not_dominates_of_check ?_ ?_ (hpost _ rfl)
    · decide
    · show ¬ (freshPorch.step (.batch (farBatch Int64.maxValue))).tables.observedMax <
        Int64.maxValue
      decide
  · intro ⟨_, _, haccept, _⟩
    refine not_dominates_of_check ?_ ?_ (haccept _ rfl)
    · decide
    · show ¬ ((freshPorch.step (.write (.knock "porch-default" "visitor" none "k1" 2))).step
        (.batch (farBatch (Int64.maxValue - 1)))).nextLamport < Int64.maxValue
      decide

end Porch

end Concorrd
