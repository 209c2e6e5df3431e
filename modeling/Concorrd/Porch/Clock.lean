import Concorrd.Porch.Database

/-!
# The Lamport clock

The clock is not stored. Every write reads the largest lamport in the seven tables and
adds one, saturating. `observedMax_le_iff` is the one fact about it that proofs use: a
bound holds of the observed maximum exactly when it is not negative and holds of every
stored row.
-/

namespace Concorrd

namespace SyncedTables

variable {T T' : SyncedTables} {x : SyncedRow} {b : Int64}

/-- `SELECT COALESCE(MAX(sync_lamport), 0) FROM t` -/
def maxLamport (T : SyncedTables) (t : SyncedTable) : Int64 :=
  match (T t).rows.map Row.syncLamport with
  | [] => 0
  | v :: vs => Int64.maxFrom v vs

/-- The highest lamport on this install, and at least 0. -/
def observedMax (T : SyncedTables) : Int64 :=
  Int64.maxFrom 0 (SyncedTable.all.map T.maxLamport)

/-- The lamport the next local write carries. -/
def nextLamport (T : SyncedTables) : Int64 := T.observedMax.saturatingAdd 1

theorem syncLamport_le_maxLamport {t : SyncedTable} {r : Row t} (h : r ∈ (T t).rows) :
    r.syncLamport ≤ T.maxLamport t := by
  have hm : r.syncLamport ∈ (T t).rows.map Row.syncLamport := List.mem_map_of_mem h
  unfold maxLamport
  cases hl : (T t).rows.map Row.syncLamport with
  | nil =>
    rw [hl] at hm
    cases hm
  | cons v vs =>
    rw [hl] at hm
    rcases List.mem_cons.mp hm with hv | hv
    · exact hv ▸ Int64.floor_le_maxFrom
    · exact Int64.le_maxFrom hv

/-- The maximum of a table is 0 or the lamport of one of its rows. -/
theorem maxLamport_eq_zero_or_mem (T : SyncedTables) (t : SyncedTable) :
    T.maxLamport t = 0 ∨ ∃ r ∈ (T t).rows, r.syncLamport = T.maxLamport t := by
  unfold maxLamport
  cases hl : (T t).rows.map Row.syncLamport with
  | nil => exact .inl rfl
  | cons v vs =>
    have hm : Int64.maxFrom v vs ∈ (T t).rows.map Row.syncLamport := by
      rw [hl]
      rcases Int64.maxFrom_eq_or_mem v vs with h | h
      · rw [h]
        exact List.mem_cons_self
      · exact List.mem_cons_of_mem v h
    exact .inr (List.mem_map.mp hm)

theorem observedMax_le_iff : T.observedMax ≤ b ↔ 0 ≤ b ∧ ∀ x, T.Holds x → x.lamport ≤ b := by
  rw [observedMax, Int64.maxFrom_le_iff]
  refine and_congr_right fun hb => ?_
  constructor
  · intro h x hx
    have ht := h _ (List.mem_map_of_mem (SyncedTable.mem_all x.table))
    exact (syncLamport_le_maxLamport hx).trans ht
  · intro h v hv
    obtain ⟨t, _, rfl⟩ := List.mem_map.mp hv
    rcases maxLamport_eq_zero_or_mem T t with h0 | ⟨r, hr, hrv⟩
    · exact h0 ▸ hb
    · exact hrv ▸ h ⟨t, r⟩ hr

theorem zero_le_observedMax : 0 ≤ T.observedMax := (observedMax_le_iff.mp le_rfl).1

theorem lamport_le_observedMax (h : T.Holds x) : x.lamport ≤ T.observedMax :=
  (observedMax_le_iff.mp le_rfl).2 x h

/-- A clock above its floor shows the lamport of a stored row. -/
theorem exists_lamport_eq_observedMax (h : T.observedMax ≠ 0) :
    ∃ x, T.Holds x ∧ x.lamport = T.observedMax := by
  rcases Int64.maxFrom_eq_or_mem 0 (SyncedTable.all.map T.maxLamport) with h0 | hm
  · exact absurd h0 h
  · obtain ⟨t, _, ht⟩ := List.mem_map.mp hm
    rcases maxLamport_eq_zero_or_mem T t with h0 | ⟨r, hr, hrv⟩
    · exact absurd (ht.symm.trans h0) h
    · exact ⟨⟨t, r⟩, hr, hrv.trans ht⟩

/-- The next lamport exceeds the clock exactly while the clock is below the top. -/
theorem observedMax_lt_nextLamport_iff :
    T.observedMax < T.nextLamport ↔ T.observedMax < Int64.maxValue :=
  Int64.lt_saturatingAdd_one_iff

theorem observedMax_le_nextLamport : T.observedMax ≤ T.nextLamport := by
  by_cases h : T.observedMax < Int64.maxValue
  · exact (observedMax_lt_nextLamport_iff.mpr h).le
  · rw [nextLamport, le_antisymm (Int64.le_maxValue _) (not_lt.mp h), Int64.saturatingAdd_maxValue]

end SyncedTables

end Concorrd
