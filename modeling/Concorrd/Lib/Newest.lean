import Mathlib.Data.List.Perm.Basic
import Mathlib.Order.Lattice

/-!
# The newest of a list

A list that is sorted newest first begins with one of its newest. The sort is stable, so which of them
depends on the order of the list: each is first for some order of it.
-/

namespace Newest

variable {α β τ : Type*} [LinearOrder τ] (time : α → τ)

/-- What comes first in the list sorted newest first. -/
def first (l : List α) : Option α := (l.mergeSort fun a b => decide (time b ≤ time a)).head?

/-- Nothing in the list is newer. -/
structure IsNewest (l : List α) (a : α) : Prop where
  mem : a ∈ l
  newest : ∀ b ∈ l, time b ≤ time a

variable {time} {l : List α} {a b c : α}

theorem newer_trans (ab : decide (time b ≤ time a) = true) (bc : decide (time c ≤ time b) = true) :
    decide (time c ≤ time a) = true :=
  decide_eq_true (le_trans (of_decide_eq_true bc) (of_decide_eq_true ab))

theorem newer_total : (decide (time b ≤ time a) || decide (time a ≤ time b)) = true := by
  simpa using le_total (time b) (time a)

theorem first_cons (newest : ∀ b ∈ l, time b ≤ time a) : first time (a :: l) = some a := by
  obtain ⟨before, after, sorted, rest, older⟩ :=
    @List.mergeSort_cons α (fun a b => decide (time b ≤ time a))
      (fun _ _ _ => newer_trans) (fun _ _ => newer_total) a l
  have none_before : before = [] := by
    apply List.eq_nil_iff_forall_not_mem.mpr
    intro b mem
    have listed : b ∈ l := by
      have : b ∈ l.mergeSort fun a b => decide (time b ≤ time a) :=
        rest ▸ List.mem_append_left after mem
      exact List.mem_mergeSort.mp this
    simpa [newest b listed] using older b mem
  rw [first, sorted, none_before]
  rfl

theorem first_eq_none : first time l = none ↔ l = [] := by
  rw [first, List.head?_eq_none_iff, ← List.length_eq_zero_iff, List.length_mergeSort,
    List.length_eq_zero_iff]

theorem isNewest_of_first (h : first time l = some a) : IsNewest time l a := by
  have sorted := @List.pairwise_mergeSort α (fun a b => decide (time b ≤ time a))
    (fun _ _ _ => newer_trans) (fun _ _ => newer_total) l
  obtain ⟨rest, split⟩ := List.head?_eq_some_iff.mp h
  have mem : ∀ b, b ∈ l ↔ b ∈ a :: rest := fun b => by rw [← split, List.mem_mergeSort]
  refine ⟨(mem a).mpr List.mem_cons_self, fun b listed => ?_⟩
  rw [split] at sorted
  rcases List.mem_cons.mp ((mem b).mp listed) with rfl | later
  · exact le_refl _
  · simpa using (List.pairwise_cons.mp sorted).1 b later

theorem exists_isNewest (some_ : l ≠ []) : ∃ a, IsNewest time l a := by
  cases h : first time l with
  | none => exact absurd (first_eq_none.mp h) some_
  | some a => exact ⟨a, isNewest_of_first h⟩

/-- What is read off the entries of a list comes first for some order of the entries exactly when it is
a newest. -/
theorem exists_perm_first {l : List β} {read : β → Option α} :
    (∃ order : List β, order.Perm l ∧ first time (order.filterMap read) = some a) ↔
      IsNewest time (l.filterMap read) a := by
  constructor
  · rintro ⟨order, perm, h⟩
    obtain ⟨mem, newest⟩ := isNewest_of_first h
    have same := perm.filterMap read
    exact ⟨same.mem_iff.mp mem, fun b listed => newest b (same.mem_iff.mpr listed)⟩
  · intro h
    obtain ⟨e, listed, read_e⟩ := List.mem_filterMap.mp h.mem
    obtain ⟨before, after, rfl⟩ := List.append_of_mem listed
    refine ⟨e :: (before ++ after), List.perm_middle.symm, ?_⟩
    rw [List.filterMap_cons, read_e]
    refine first_cons fun b mem => h.newest b ?_
    exact (List.perm_middle.filterMap read).mem_iff.mpr
      (by rw [List.filterMap_cons, read_e]; exact List.mem_cons_of_mem a mem)

end Newest
