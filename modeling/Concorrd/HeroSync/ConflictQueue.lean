import Concorrd.Lib.Json
import Concorrd.Porch.State

/-!
# The conflict queue

The detector of destructive conflicts appends rows here and the conflict agent drains
them. A payload crosses the queue as text.
-/

namespace Concorrd

/-- Kinds of destructive conflict. -/
inductive ConflictKind where
  | concurrentRename
  | tombstoneVsWrite
  | aclChange
  deriving DecidableEq, Repr

/-- The column string. -/
def ConflictKind.asStr : ConflictKind → String
  | .concurrentRename => "concurrent_rename"
  | .tombstoneVsWrite => "tombstone_vs_write"
  | .aclChange => "acl_change"

/-- A conflict as the detector reports it. -/
structure ConflictRecord where
  kind : ConflictKind
  payload : Json

namespace Porch

/-- Append a conflict under a fresh id. -/
def enqueue (p : Porch) (codec : JsonCodec) (record : ConflictRecord) (id : String) (now : Int64) :
    Except PorchError Porch :=
  match p.conflictQueue.insert?
      ⟨id, record.kind.asStr, codec.toString record.payload, now, none, none, .pending⟩ with
  | some queue => .ok { p with conflictQueue := queue }
  | none => .error (.sqlite (.unique "conflict_queue.conflict_id"))

/-- Append conflicts one after another. Those before a failure stay. `fresh` gives each
its id and its time. -/
def enqueueAll (codec : JsonCodec) (fresh : Nat → String × Int64) :
    Porch → List ConflictRecord → Porch × Except PorchError Unit
  | p, [] => (p, .ok ())
  | p, record :: records =>
    match p.enqueue codec record (fresh 0).1 (fresh 0).2 with
    | .error e => (p, .error e)
    | .ok p => enqueueAll codec (fun n => fresh (n + 1)) p records

variable {codec : JsonCodec} {p p' : Porch}

/-- Queueing touches nothing but the queue. -/
theorem enqueueAll_rest {records : List ConflictRecord} {fresh : Nat → String × Int64}
    {answer : Except PorchError Unit} (h : enqueueAll codec fresh p records = (p', answer)) :
    p' = { p with conflictQueue := p'.conflictQueue } := by
  induction records generalizing p fresh with
  | nil =>
    cases h
    rfl
  | cons record records ih =>
    simp only [enqueueAll, enqueue] at h
    split at h
    · cases h
      rfl
    · rename_i hq
      split at hq
      · cases hq
        have hrest := ih h
        exact hrest
      · cases hq

/-- A queued conflict was queued before, or carries a record and is pending. -/
theorem source_of_enqueueAll {records : List ConflictRecord} {fresh : Nat → String × Int64}
    {answer : Except PorchError Unit} {row : ConflictRow}
    (h : enqueueAll codec fresh p records = (p', answer)) (hrow : row ∈ p'.conflictQueue.rows) :
    row ∈ p.conflictQueue.rows ∨ ∃ record ∈ records, row.conflictKind = record.kind.asStr ∧
      row.payloadJson = codec.toString record.payload ∧ row.status = .pending := by
  induction records generalizing p fresh with
  | nil =>
    cases h
    exact .inl hrow
  | cons record records ih =>
    simp only [enqueueAll] at h
    split at h
    · cases h
      exact .inl hrow
    · rename_i p₁ henqueue
      rcases ih h with hrow | ⟨record', hrecord', hrow⟩
      · unfold enqueue at henqueue
        split at henqueue
        · rename_i queue hinsert
          cases henqueue
          rcases (KeyedTable.mem_rows_of_insert? hinsert).mp hrow with hold | rfl
          · exact .inl hold
          · exact .inr ⟨record, List.mem_cons_self, rfl, rfl, rfl⟩
        · cases henqueue
      · exact .inr ⟨record', List.mem_cons_of_mem record hrecord', hrow⟩

/-- The rows a list of conflicts is queued as. -/
def queueRows (codec : JsonCodec) : (Nat → String × Int64) → List ConflictRecord → List ConflictRow
  | _, [] => []
  | fresh, record :: records =>
    ⟨(fresh 0).1, record.kind.asStr, codec.toString record.payload, (fresh 0).2, none, none,
      .pending⟩ :: queueRows codec (fun n => fresh (n + 1)) records

@[simp] theorem length_queueRows {records : List ConflictRecord} {fresh : Nat → String × Int64} :
    (queueRows codec fresh records).length = records.length := by
  induction records generalizing fresh with
  | nil => rfl
  | cons record records ih => simp only [queueRows, List.length_cons, ih]

/-- The ids drawn for a batch of conflicts differ and none is on the queue. -/
def DrawsFresh (p : Porch) (fresh : Nat → String × Int64) : Prop :=
  (Function.Injective fun n => (fresh n).1) ∧ ∀ n, p.conflictQueue.find? (fresh n).1 = none

/-- The rows queued are the first of the conflicts, and all of them without an error. -/
theorem rows_enqueueAll (codec : JsonCodec) (fresh : Nat → String × Int64) (p : Porch)
    (records : List ConflictRecord) :
    ∃ n, (enqueueAll codec fresh p records).1.conflictQueue.rows =
        p.conflictQueue.rows ++ (queueRows codec fresh records).take n ∧
      ((enqueueAll codec fresh p records).2 = .ok () → records.length ≤ n) := by
  induction records generalizing p fresh with
  | nil => exact ⟨0, by simp only [enqueueAll, List.take_zero, List.append_nil], fun _ => le_rfl⟩
  | cons record records ih =>
    let row : ConflictRow := ⟨(fresh 0).1, record.kind.asStr, codec.toString record.payload,
      (fresh 0).2, none, none, .pending⟩
    cases hinsert : p.conflictQueue.insert? row with
    | none =>
      refine ⟨0, ?_, fun h => ?_⟩
      · simp only [enqueueAll, enqueue, row] at hinsert ⊢
        simp only [hinsert, List.take_zero, List.append_nil]
      · simp only [enqueueAll, enqueue, row] at hinsert h
        simp only [hinsert, reduceCtorEq] at h
    | some queue =>
      obtain ⟨n, hrows, hall⟩ := ih (fun n => fresh (n + 1)) { p with conflictQueue := queue }
      have queued := (KeyedTable.insert?_eq_some_iff.mp hinsert).2
      refine ⟨n + 1, ?_, fun h => Nat.succ_le_succ (hall ?_)⟩
      · simp only [enqueueAll, enqueue, row] at hinsert ⊢
        simp only [hinsert, hrows, queueRows, List.take_succ_cons, queued, row, List.append_assoc,
          List.singleton_append]
      · simp only [enqueueAll, enqueue, row] at hinsert h
        simpa only [hinsert] using h

/-- Under fresh ids nothing is refused. -/
theorem enqueueAll_of_drawsFresh {records : List ConflictRecord} {fresh : Nat → String × Int64}
    (h : p.DrawsFresh fresh) : (enqueueAll codec fresh p records).2 = .ok () := by
  induction records generalizing p fresh with
  | nil => rfl
  | cons record records ih =>
    let row : ConflictRow := ⟨(fresh 0).1, record.kind.asStr, codec.toString record.payload,
      (fresh 0).2, none, none, .pending⟩
    cases hinsert : p.conflictQueue.insert? row with
    | none =>
      obtain ⟨s, hs⟩ := KeyedTable.insert?_eq_none_iff.mp hinsert
      cases (h.2 0).symm.trans hs
    | some queue =>
      have later :
          ({ p with conflictQueue := queue } : Porch).DrawsFresh fun n => fresh (n + 1) := by
        refine ⟨h.1.comp (add_left_injective 1), fun m => ?_⟩
        have other : (fresh (m + 1)).1 ≠ (fresh 0).1 := fun e => absurd (h.1 e) (Nat.succ_ne_zero m)
        exact ((KeyedTable.puts_of_insert? hinsert).find?_other other).trans (h.2 (m + 1))
      have rest := ih later
      simp only [enqueueAll, enqueue, row] at hinsert ⊢
      simpa only [hinsert] using rest

theorem mem_queueRows (codec : JsonCodec) (fresh : Nat → String × Int64)
    {records : List ConflictRecord} {record : ConflictRecord} (h : record ∈ records) :
    ∃ row ∈ queueRows codec fresh records, row.conflictKind = record.kind.asStr ∧
      row.payloadJson = codec.toString record.payload := by
  induction records generalizing fresh with
  | nil => cases h
  | cons first records ih =>
    rcases List.mem_cons.mp h with rfl | h
    · exact ⟨_, List.mem_cons_self, rfl, rfl⟩
    · obtain ⟨row, hrow, hrecord⟩ := ih (fun n => fresh (n + 1)) h
      exact ⟨row, List.mem_cons_of_mem _ hrow, hrecord⟩

/-- Queueing without an error queues every conflict in a row of its own that was not there. -/
theorem queued_of_enqueueAll {records : List ConflictRecord} {fresh : Nat → String × Int64}
    {record : ConflictRecord} (h : enqueueAll codec fresh p records = (p', .ok ()))
    (hrecord : record ∈ records) : ∃ row ∈ p'.conflictQueue.rows, row ∉ p.conflictQueue.rows ∧
      row.conflictKind = record.kind.asStr ∧ row.payloadJson = codec.toString record.payload := by
  obtain ⟨n, hrows, hall⟩ := rows_enqueueAll codec fresh p records
  rw [h] at hrows hall
  have enough : (queueRows codec fresh records).length ≤ n := by
    rw [length_queueRows]
    exact hall rfl
  rw [List.take_of_length_le enough] at hrows
  obtain ⟨row, hrow, hkind, hpayload⟩ := mem_queueRows codec fresh hrecord
  refine ⟨row, hrows ▸ List.mem_append_right _ hrow, fun old => ?_, hkind, hpayload⟩
  -- the queue names every conflict once, so a new row is under a new id
  have nodup := p'.conflictQueue.nodup
  rw [hrows, List.map_append, List.nodup_append] at nodup
  exact nodup.2.2 _ (List.mem_map_of_mem old) _ (List.mem_map_of_mem hrow) rfl

end Porch

end Concorrd
