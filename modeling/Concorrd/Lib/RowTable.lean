import Mathlib.Data.List.Basic
import Mathlib.Data.List.Nodup
import Mathlib.Order.Basic

/-!
# Tables with row ids

A table keeps its rows under ids that it hands out itself: the next id is one more than the largest
one there, so the id of a deleted last row is handed out again. Ids of rows that are there stay
distinct (`nodup_insert`), and a new row never takes one of them (`nextId_not_mem`).
-/

/-- A row under its id. -/
structure Row (α : Type*) where
  id : Nat
  val : α
  deriving DecidableEq, Repr

/-- The rows in the order they came. -/
abbrev RowTable (α : Type*) := List (Row α)

namespace RowTable

variable {α : Type*} {t : RowTable α} {id : Nat} {a : α} {row : Row α}

/-- The ids of the rows. -/
def ids (t : RowTable α) : List Nat := t.map Row.id

/-- The id the next row gets. -/
def nextId : RowTable α → Nat
  | [] => 1
  | row :: t => max (row.id + 1) (nextId t)

def insert (t : RowTable α) (a : α) : RowTable α := t ++ [⟨t.nextId, a⟩]

/-- The row under an id. -/
def get (t : RowTable α) (id : Nat) : Option α := (t.find? fun row => row.id = id).map Row.val

def delete (t : RowTable α) (id : Nat) : RowTable α := t.filter fun row => row.id ≠ id

/-- Change the row under an id. -/
def update (t : RowTable α) (id : Nat) (f : α → α) : RowTable α :=
  t.map fun row => if row.id = id then { row with val := f row.val } else row

theorem lt_nextId (h : id ∈ t.ids) : id < t.nextId := by
  induction t with
  | nil => cases h
  | cons row t ih =>
    rcases List.mem_cons.mp h with rfl | h
    · exact Nat.lt_of_lt_of_le (Nat.lt_succ_self _) (Nat.le_max_left _ _)
    · exact Nat.lt_of_lt_of_le (ih h) (Nat.le_max_right _ _)

/-- The next id is nobody's. -/
theorem nextId_not_mem (t : RowTable α) : t.nextId ∉ t.ids :=
  fun h => Nat.lt_irrefl _ (lt_nextId h)

theorem mem_insert : row ∈ t.insert a ↔ row ∈ t ∨ row = ⟨t.nextId, a⟩ := by
  rw [insert, List.mem_append, List.mem_singleton]

theorem mem_delete : row ∈ t.delete id ↔ row ∈ t ∧ row.id ≠ id := by
  rw [delete, List.mem_filter, decide_eq_true_iff]

theorem mem_of_get (h : t.get id = some a) : ⟨id, a⟩ ∈ t := by
  obtain ⟨row, found, rfl⟩ := Option.map_eq_some_iff.mp h
  have same := List.find?_some found
  rw [← of_decide_eq_true same]
  exact List.mem_of_find?_eq_some found

theorem get_eq_none (h : id ∉ t.ids) : t.get id = none := by
  rw [get, List.find?_eq_none.mpr, Option.map_none]
  rintro row mem same
  exact h (List.mem_map.mpr ⟨row, mem, of_decide_eq_true same⟩)

theorem get_eq_none_iff : t.get id = none ↔ id ∉ t.ids := by
  refine ⟨fun none mem => ?_, get_eq_none⟩
  obtain ⟨row, there, rfl⟩ := List.mem_map.mp mem
  have absent := List.find?_eq_none.mp (Option.map_eq_none_iff.mp none) row there
  exact absent (decide_eq_true rfl)

/-- With distinct ids a row is found under its id. -/
theorem get_of_mem (distinct : t.ids.Nodup) (mem : row ∈ t) : t.get row.id = some row.val := by
  induction t with
  | nil => cases mem
  | cons first t ih =>
    obtain ⟨apart, distinct⟩ := List.nodup_cons.mp distinct
    rcases List.mem_cons.mp mem with rfl | mem
    · simp only [get, List.find?_cons, decide_true, Option.map_some]
    · have other : first.id ≠ row.id := fun same => apart (same ▸ List.mem_map_of_mem mem)
      simp only [get, List.find?_cons, decide_eq_false other]
      exact ih distinct mem

theorem ids_insert (t : RowTable α) (a : α) : (t.insert a).ids = t.ids ++ [t.nextId] := by
  rw [insert, ids, List.map_append]
  rfl

theorem nodup_insert (distinct : t.ids.Nodup) (a : α) : (t.insert a).ids.Nodup := by
  rw [ids_insert]
  refine List.nodup_append.mpr ⟨distinct, List.nodup_singleton _, ?_⟩
  rintro id mem other new rfl
  exact t.nextId_not_mem (List.mem_singleton.mp new ▸ mem)

theorem nodup_delete (distinct : t.ids.Nodup) (id : Nat) : (t.delete id).ids.Nodup :=
  distinct.sublist (List.filter_sublist.map Row.id)

end RowTable
