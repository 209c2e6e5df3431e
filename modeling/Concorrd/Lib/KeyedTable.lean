import Mathlib.Data.List.Nodup
import Mathlib.Data.List.Sort
import Mathlib.Logic.Function.Basic

/-!
# Keyed tables

A table is its rows in insertion order together with the proof that no two of them share a
primary key, so a table that breaks its key cannot be built. The statements that write it
are partial or total by construction: `insert?` refuses a key that is taken, and
`updateWhere` takes the proof that its assignment leaves the key alone.

Every statement has one lookup lemma, which says what `find?` returns after it, and one
membership lemma. Later proofs use those two and never unfold a statement.
-/

/-- Rows in insertion order, no two of which share a key. -/
@[ext]
structure KeyedTable {ρ κ : Type*} (key : ρ → κ) where
  rows : List ρ
  nodup : (rows.map key).Nodup

namespace KeyedTable

variable {ρ κ : Type*} {key : ρ → κ} {t t' : KeyedTable key} {r s : ρ} {k : κ}

/-- The table with no row. -/
def empty : KeyedTable key := ⟨[], List.nodup_nil⟩

instance : Inhabited (KeyedTable key) := ⟨empty⟩

/-- Two rows of a table with one key are one row. -/
theorem eq_of_key_eq (hr : r ∈ t.rows) (hs : s ∈ t.rows) (h : key r = key s) : r = s :=
  List.inj_on_of_nodup_map t.nodup hr hs h

/-! ## Lookup by key -/

section Lookup

variable [DecidableEq κ]

/-- The row under a key. -/
def find? (t : KeyedTable key) (k : κ) : Option ρ := t.rows.find? (fun r => key r = k)

theorem mem_of_find? (h : t.find? k = some r) : r ∈ t.rows := List.mem_of_find?_eq_some h

theorem key_of_find? (h : t.find? k = some r) : key r = k :=
  of_decide_eq_true (List.find?_some (p := fun r => decide (key r = k)) h)

/-- A row is found under its own key. -/
theorem find?_of_mem (h : r ∈ t.rows) : t.find? (key r) = some r := by
  cases hf : t.find? (key r) with
  | none =>
    have hne : ¬ decide (key r = key r) = true := List.find?_eq_none.mp hf r h
    exact absurd (decide_eq_true rfl) hne
  | some s => rw [eq_of_key_eq (mem_of_find? hf) h (key_of_find? hf)]

theorem find?_eq_some_iff : t.find? k = some r ↔ r ∈ t.rows ∧ key r = k := by
  refine ⟨fun h => ⟨mem_of_find? h, key_of_find? h⟩, ?_⟩
  rintro ⟨hm, rfl⟩
  exact find?_of_mem hm

theorem find?_eq_none_iff : t.find? k = none ↔ ∀ r ∈ t.rows, key r ≠ k := by
  simp only [find?, List.find?_eq_none, decide_eq_true_eq, ne_eq]

/-- Membership is lookup under the row's own key. -/
theorem mem_rows_iff : r ∈ t.rows ↔ t.find? (key r) = some r :=
  ⟨find?_of_mem, mem_of_find?⟩

/-- Some row carries the key. -/
def HasKey (t : KeyedTable key) (k : κ) : Prop := ∃ r ∈ t.rows, key r = k

instance : Decidable (t.HasKey k) := inferInstanceAs (Decidable (∃ r ∈ t.rows, key r = k))

theorem hasKey_iff_isSome : t.HasKey k ↔ (t.find? k).isSome := by
  rw [Option.isSome_iff_exists]
  exact exists_congr fun r => find?_eq_some_iff.symm

end Lookup

/-! ## One row written under its key -/

section Puts

variable [DecidableEq κ]

/-- The second table is the first with a row written under its key. -/
def Puts (t : KeyedTable key) (r : ρ) (t' : KeyedTable key) : Prop :=
  t'.find? = Function.update t.find? (key r) (some r)

theorem Puts.find?_self (h : t.Puts r t') : t'.find? (key r) = some r := by
  rw [h, Function.update_self]

theorem Puts.find?_other (h : t.Puts r t') (hk : k ≠ key r) : t'.find? k = t.find? k := by
  rw [h, Function.update_of_ne hk]

/-- The rows after the write are the row itself and what other keys held. -/
theorem Puts.mem_iff (h : t.Puts r t') : s ∈ t'.rows ↔ s = r ∨ s ∈ t.rows ∧ key s ≠ key r := by
  by_cases hk : key s = key r
  · rw [mem_rows_iff, hk, h.find?_self, Option.some.injEq]
    simp only [ne_eq, not_true_eq_false, and_false, or_false, eq_comm]
  · have hne : s ≠ r := fun e => hk (congrArg key e)
    rw [mem_rows_iff, h.find?_other hk, ← mem_rows_iff]
    simp only [hne, false_or, hk, ne_eq, not_false_eq_true, and_true]

/-- A written key is present, and no key goes missing. -/
theorem Puts.hasKey_iff (h : t.Puts r t') : t'.HasKey k ↔ k = key r ∨ t.HasKey k := by
  rw [hasKey_iff_isSome, hasKey_iff_isSome]
  by_cases hk : k = key r
  · subst hk
    simp only [h.find?_self, Option.isSome_some, true_or]
  · simp only [h.find?_other hk, hk, false_or]

end Puts

/-! ## INSERT -/

section Insert

variable [DecidableEq κ]

/-- Append a row, or refuse when its key is taken. -/
def insert? (t : KeyedTable key) (r : ρ) : Option (KeyedTable key) :=
  if h : key r ∈ t.rows.map key then none
  else some ⟨t.rows ++ [r], by
    rw [List.map_append, List.nodup_append]
    refine ⟨t.nodup, List.nodup_singleton _, ?_⟩
    rintro a ha b hb rfl
    exact h (List.mem_singleton.mp hb ▸ ha)⟩

/-- An INSERT succeeds on a fresh key and appends the row. -/
theorem insert?_eq_some_iff :
    t.insert? r = some t' ↔ t.find? (key r) = none ∧ t'.rows = t.rows ++ [r] := by
  have fresh : key r ∈ t.rows.map key ↔ ¬ t.find? (key r) = none := by
    simp only [find?_eq_none_iff, List.mem_map, ne_eq, not_forall, not_not, exists_prop]
  unfold insert?
  split
  · rename_i h
    simp only [reduceCtorEq, fresh.mp h, false_and]
  · rename_i h
    simp only [Option.some.injEq, not_not.mp (fresh.not.mp h), true_and]
    exact ⟨fun e => e ▸ rfl, fun e => KeyedTable.ext e.symm⟩

/-- An INSERT is refused exactly when the key is taken. -/
theorem insert?_eq_none_iff : t.insert? r = none ↔ ∃ s, t.find? (key r) = some s := by
  unfold insert?
  split
  · rename_i h
    obtain ⟨s, hs, hk⟩ := List.mem_map.mp h
    exact ⟨fun _ => ⟨s, find?_eq_some_iff.mpr ⟨hs, hk⟩⟩, fun _ => rfl⟩
  · rename_i h
    simp only [reduceCtorEq, false_iff, not_exists]
    intro s hs
    obtain ⟨hm, hk⟩ := find?_eq_some_iff.mp hs
    exact h (List.mem_map.mpr ⟨s, hm, hk⟩)

/-- An INSERT writes its row under a key that was free. -/
theorem puts_of_insert? (h : t.insert? r = some t') : t.Puts r t' := by
  obtain ⟨hnew, hrows⟩ := insert?_eq_some_iff.mp h
  funext k
  by_cases hk : k = key r
  · subst hk
    rw [Function.update_self]
    exact find?_of_mem (hrows ▸ List.mem_append_right _ (List.mem_singleton_self r))
  · have miss : List.find? (fun s => decide (key s = k)) [r] = none := by
      simp only [List.find?_singleton, decide_eq_true_eq, Ne.symm hk, if_false]
    rw [Function.update_of_ne hk, find?, hrows, List.find?_append, miss, Option.or_none]
    rfl

theorem mem_rows_of_insert? (h : t.insert? r = some t') : s ∈ t'.rows ↔ s ∈ t.rows ∨ s = r := by
  rw [(insert?_eq_some_iff.mp h).2, List.mem_append, List.mem_singleton]

end Insert

/-! ## UPDATE and DELETE -/

section Update

variable {p : ρ → Bool} {f : ρ → ρ}

/-- Assign to every row a condition selects. The assignment leaves the key alone. -/
def updateWhere (t : KeyedTable key) (p : ρ → Bool) (f : ρ → ρ) (hf : ∀ r, key (f r) = key r) :
    KeyedTable key where
  rows := t.rows.map fun r => if p r then f r else r
  nodup := by
    have same : (key ∘ fun r => if p r then f r else r) = key := by
      funext r
      by_cases h : p r <;> simp only [Function.comp_apply, h, if_true, hf, Bool.false_eq_true,
        if_false]
    rw [List.map_map, same]
    exact t.nodup

/-- Keep the rows a condition rejects. -/
def deleteWhere (t : KeyedTable key) (p : ρ → Bool) : KeyedTable key where
  rows := t.rows.filter fun r => !p r
  nodup := t.nodup.sublist (List.filter_sublist.map key)

variable {hf : ∀ r, key (f r) = key r}

theorem mem_updateWhere : s ∈ (t.updateWhere p f hf).rows ↔
    ∃ r ∈ t.rows, (if p r then f r else r) = s := List.mem_map

/-- A row outlives an UPDATE unless the assignment changes it. -/
theorem mem_updateWhere_of_mem (hf : ∀ r, key (f r) = key r) (hr : r ∈ t.rows) :
    r ∈ (t.updateWhere p f hf).rows ↔ (p r = true → f r = r) := by
  rw [mem_updateWhere]
  constructor
  · rintro ⟨s, hs, heq⟩ hp
    have same : key s = key r := by
      rw [← heq]
      split
      · exact (hf s).symm
      · rfl
    rw [eq_of_key_eq hs hr same, if_pos hp] at heq
    exact heq
  · intro h
    refine ⟨r, hr, ?_⟩
    split
    · rename_i hp
      exact h hp
    · rfl

variable [DecidableEq κ]

/-- An UPDATE assigns to what a key held, when the condition selects it. -/
theorem find?_updateWhere :
    (t.updateWhere p f hf).find? k = (t.find? k).map fun r => if p r then f r else r := by
  have same : ∀ r, key (if p r then f r else r) = key r := by
    intro r
    by_cases h : p r <;> simp only [h, if_true, hf, Bool.false_eq_true, if_false]
  simp only [find?, updateWhere, List.find?_map]
  congr 2
  funext r
  simp only [Function.comp_apply, same]

/-- An UPDATE by primary key writes what the assignment makes of the row under that key. -/
theorem puts_updateWhere_key (h : t.find? k = some r) :
    t.Puts (f r) (t.updateWhere (fun s => key s = k) f hf) := by
  unfold Puts
  rw [hf, key_of_find? h]
  funext k'
  rw [find?_updateWhere]
  by_cases hk : k' = k
  · subst hk
    rw [Function.update_self, h, Option.map_some, key_of_find? h]
    simp only [decide_true, if_true]
  · rw [Function.update_of_ne hk]
    cases h' : t.find? k' with
    | none => rfl
    | some s =>
      have hne : key s ≠ k := fun e => hk ((key_of_find? h').symm.trans e)
      simp only [Option.map_some, hne, decide_false, Bool.false_eq_true, if_false]

/-- A DELETE takes away what a key held, when the condition selects it. -/
theorem find?_deleteWhere : (t.deleteWhere p).find? k = (t.find? k).filter fun r => !p r := by
  ext r
  simp only [find?_eq_some_iff, Option.filter_eq_some_iff, deleteWhere, List.mem_filter]
  exact and_right_comm

end Update

/-! ## INSERT … ON CONFLICT DO UPDATE -/

section Upsert

variable [DecidableEq κ] {f : ρ → ρ} {hf : ∀ r, key (f r) = key r}

/-- Append the row, or assign to the row that holds its key. -/
def upsert (t : KeyedTable key) (r : ρ) (f : ρ → ρ) (hf : ∀ s, key (f s) = key s) :
    KeyedTable key :=
  (t.insert? r).getD (t.updateWhere (fun s => key s = key r) f hf)

/-- An upsert writes the new row, or what the assignment makes of the row it meets. -/
theorem puts_upsert :
    t.Puts (((t.find? (key r)).map f).getD r) (t.upsert r f hf) := by
  unfold upsert
  cases h : t.insert? r with
  | some t' =>
    rw [Option.getD_some, (insert?_eq_some_iff.mp h).1]
    exact puts_of_insert? h
  | none =>
    obtain ⟨s, hs⟩ := insert?_eq_none_iff.mp h
    rw [Option.getD_none, hs]
    exact puts_updateWhere_key hs

/-- An upsert writes its row, where its assignment makes that row of any other under the key. -/
theorem puts_upsert_of (excluded : ∀ old, key old = key r → f old = r) :
    t.Puts r (t.upsert r f hf) := by
  have written : ((t.find? (key r)).map f).getD r = r := by
    cases hfind : t.find? (key r) with
    | none => rfl
    | some old => exact excluded old (key_of_find? hfind)
  have puts : t.Puts (((t.find? (key r)).map f).getD r) (t.upsert r f hf) := puts_upsert
  rwa [written] at puts

end Upsert

/-! ## Rows of another shape -/

/-- The table with every row rewritten, where the new rows carry the old keys. -/
def mapRows {ρ' : Type*} {key' : ρ' → κ} (t : KeyedTable key) (g : ρ → ρ')
    (hg : ∀ r, key' (g r) = key r) : KeyedTable key' where
  rows := t.rows.map g
  nodup := by
    have same : key' ∘ g = key := funext hg
    rw [List.map_map, same]
    exact t.nodup

theorem mem_mapRows {ρ' : Type*} {key' : ρ' → κ} {g : ρ → ρ'} {hg : ∀ r, key' (g r) = key r}
    {s : ρ'} : s ∈ (t.mapRows g hg).rows ↔ ∃ r ∈ t.rows, g r = s := List.mem_map

/-! ## ORDER BY -/

section Order

variable {α β : Type*} [LinearOrder β] {order : α → β} {a : α} {l : List α}

theorem insertionSort_eq_nil {r : α → α → Prop} [DecidableRel r] :
    l.insertionSort r = [] ↔ l = [] := by
  rw [← List.length_eq_zero_iff, List.length_insertionSort, List.length_eq_zero_iff]

/-- A row that comes before every row of a list is put in front. -/
theorem orderedInsert_of_forall_le (h : ∀ b ∈ l, order a ≤ order b) :
    l.orderedInsert (fun a b => order a ≤ order b) a = a :: l := by
  cases l with
  | nil => rfl
  | cons b l => exact List.orderedInsert_cons_of_le _ l (h b List.mem_cons_self)

theorem filter_orderedInsert {p : α → Bool} (sorted : l.Pairwise fun a b => order a ≤ order b) :
    (l.orderedInsert (fun a b => order a ≤ order b) a).filter p =
      if p a then (l.filter p).orderedInsert (fun a b => order a ≤ order b) a else l.filter p := by
  induction l with
  | nil => cases h : p a <;> simp only [List.orderedInsert_nil, List.filter_cons, h,
      List.filter_nil, if_true, if_false, Bool.false_eq_true]
  | cons b l ih =>
    obtain ⟨head, tail⟩ := List.pairwise_cons.mp sorted
    by_cases hab : order a ≤ order b
    · rw [List.orderedInsert_cons_of_le _ l hab, List.filter_cons]
      split
      · refine (orderedInsert_of_forall_le fun c hc => ?_).symm
        rcases List.mem_cons.mp (List.mem_of_mem_filter hc) with rfl | hc
        · exact hab
        · exact hab.trans (head c hc)
      · rfl
    · rw [List.orderedInsert_of_not_le _ l hab, List.filter_cons, ih tail, List.filter_cons]
      cases p a <;> cases p b <;> simp [hab]

/-- A condition selects the same rows before and after they are sorted. -/
theorem filter_insertionSort (order : α → β) (p : α → Bool) (l : List α) :
    (l.insertionSort fun a b => order a ≤ order b).filter p =
      (l.filter p).insertionSort fun a b => order a ≤ order b := by
  have total : Std.Total fun a b => order a ≤ order b := ⟨fun a b => le_total _ _⟩
  have trans : IsTrans α fun a b => order a ≤ order b := ⟨fun a b c => le_trans⟩
  induction l with
  | nil => rfl
  | cons a l ih =>
    rw [List.insertionSort_cons, filter_orderedInsert (List.pairwise_insertionSort _ l), ih,
      List.filter_cons]
    split
    · rfl
    · rfl

/-- In a list in strict order, the first rows are those that few others come before. -/
theorem mem_take_iff_of_sorted (sorted : l.Pairwise fun a b => order a < order b) {n : Nat} :
    a ∈ l.take n ↔ a ∈ l ∧ l.countP (fun b => order b < order a) < n := by
  induction l generalizing n with
  | nil => simp only [List.take_nil, List.not_mem_nil, false_and]
  | cons b l ih =>
    obtain ⟨head, tail⟩ := List.pairwise_cons.mp sorted
    cases n with
    | zero => simp only [List.take_zero, List.not_mem_nil, Nat.not_lt_zero, and_false]
    | succ n =>
      rw [List.take_succ_cons, List.mem_cons, List.mem_cons, ih tail, List.countP_cons]
      by_cases hab : a = b
      · subst hab
        have none_before : l.countP (fun b => decide (order b < order a)) = 0 := by
          rw [List.countP_eq_zero]
          intro c hc
          exact fun before => (head c hc).not_gt (of_decide_eq_true before)
        simp only [true_or, lt_self_iff_false, decide_false, Bool.false_eq_true, if_false,
          none_before, true_and, true_iff]
        omega
      · have later : a ∈ l → order b < order a := head a
        constructor
        · rintro (rfl | ⟨ha, few⟩)
          · exact absurd rfl hab
          · refine ⟨.inr ha, ?_⟩
            rw [if_pos (decide_eq_true (later ha))]
            omega
        · rintro ⟨rfl | ha, few⟩
          · exact absurd rfl hab
          · rw [if_pos (decide_eq_true (later ha))] at few
            exact .inr ⟨ha, by omega⟩

/-- The first rows of a table in an order that tells its rows apart. -/
theorem mem_take_insertionSort (nodup : (l.map order).Nodup) {n : Nat} :
    a ∈ (l.insertionSort fun a b => order a ≤ order b).take n ↔
      a ∈ l ∧ l.countP (fun b => order b < order a) < n := by
  have total : Std.Total fun a b => order a ≤ order b := ⟨fun a b => le_total _ _⟩
  have trans : IsTrans α fun a b => order a ≤ order b := ⟨fun a b c => le_trans⟩
  have perm := List.perm_insertionSort (fun a b => order a ≤ order b) l
  have apart : (l.insertionSort fun a b => order a ≤ order b).Pairwise
      fun a b => order a ≠ order b :=
    List.pairwise_map.mp ((perm.map order).nodup_iff.mpr nodup)
  have strict := ((List.pairwise_insertionSort (fun a b => order a ≤ order b) l).and apart).imp
    fun h => lt_of_le_of_ne h.1 h.2
  rw [mem_take_iff_of_sorted strict, perm.mem_iff, perm.countP_eq]

/-- The first rows are the first rows that pass a test exactly when all of them pass it. -/
theorem take_filter_eq_iff {p : α → Bool} {n : Nat} :
    (l.filter p).take n = l.take n ↔ ∀ a ∈ l.take n, p a = true := by
  constructor
  · intro h a ha
    rw [← h] at ha
    exact List.of_mem_filter (List.mem_of_mem_take ha)
  · intro h
    have split : l.filter p = l.take n ++ (l.drop n).filter p := by
      conv_lhs => rw [← List.take_append_drop n l]
      rw [List.filter_append, List.filter_eq_self.mpr h]
    rw [split]
    rcases Nat.le_total n l.length with hn | hn
    · rw [List.take_append_of_le_length (by rw [List.length_take]; omega), List.take_take,
        Nat.min_self]
    · rw [List.drop_of_length_le hn, List.filter_nil, List.append_nil, List.take_take, Nat.min_self]

/-- Lists of rows that a map tells apart are equal when their images are. -/
theorem map_inj_of_subset {γ : Type*} {f : α → γ} {l l' m : List α}
    (apart : ∀ a ∈ m, ∀ b ∈ m, f a = f b → a = b) (hl : ∀ a ∈ l, a ∈ m) (hl' : ∀ a ∈ l', a ∈ m) :
    l.map f = l'.map f ↔ l = l' := by
  refine ⟨fun h => ?_, fun h => h ▸ rfl⟩
  induction l generalizing l' with
  | nil =>
    symm
    exact List.map_eq_nil_iff.mp h.symm
  | cons a l ih =>
    cases l' with
    | nil => cases h
    | cons b l' =>
      rw [List.map_cons, List.map_cons, List.cons.injEq] at h
      obtain ⟨ha, hl⟩ := List.forall_mem_cons.mp hl
      obtain ⟨hb, hl'⟩ := List.forall_mem_cons.mp hl'
      rw [apart a ha b hb h.1, ih hl hl' h.2]

/-- The first row of a table sorted downwards is its largest. -/
theorem head?_insertionSort_desc
    (h : (l.insertionSort fun a b => order b ≤ order a).head? = some a) :
    a ∈ l ∧ ∀ b ∈ l, order b ≤ order a := by
  have total : Std.Total fun a b => order b ≤ order a := ⟨fun a b => le_total _ _⟩
  have trans : IsTrans α fun a b => order b ≤ order a := ⟨fun a b c hab hbc => hbc.trans hab⟩
  have sorted := List.pairwise_insertionSort (fun a b => order b ≤ order a) l
  have mem : ∀ b, b ∈ l.insertionSort (fun a b => order b ≤ order a) ↔ b ∈ l :=
    fun b => List.mem_insertionSort _
  cases hs : l.insertionSort fun a b => order b ≤ order a with
  | nil =>
    rw [hs] at h
    cases h
  | cons c rest =>
    rw [hs] at h sorted mem
    cases h
    refine ⟨(mem a).mp List.mem_cons_self, fun b hb => ?_⟩
    rcases List.mem_cons.mp ((mem b).mpr hb) with rfl | hb
    · exact le_rfl
    · exact List.rel_of_pairwise_cons sorted hb

end Order

end KeyedTable
