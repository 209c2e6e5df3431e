import Mathlib.Data.List.Sort

/-!
# Sorting by a given order

A list of keys gives each of its keys a rank, its last place there. What is sorted by these ranks comes in
the order of the list when the keys are those of the list, each once.
-/

namespace Ranked

variable {α κ : Type*} {order : List κ} {k : κ}

section
variable [DecidableEq κ]

/-- The last place of a key. -/
def lastIndexOf (k : κ) : List κ → Option Nat
  | [] => none
  | first :: rest =>
    match lastIndexOf k rest with
    | some i => some (i + 1)
    | none => if first = k then some 0 else none

theorem lastIndexOf_eq_none (away : k ∉ order) : lastIndexOf k order = none := by
  induction order with
  | nil => rfl
  | cons first rest ih =>
    obtain ⟨head, tail⟩ := not_or.mp fun h => away (List.mem_cons.mpr h)
    rw [lastIndexOf, ih tail]
    exact if_neg (Ne.symm head)

theorem isSome_lastIndexOf (mem : k ∈ order) : (lastIndexOf k order).isSome := by
  induction order with
  | nil => cases mem
  | cons first rest ih =>
    rw [lastIndexOf]
    cases found : lastIndexOf k rest with
    | some i => rfl
    | none =>
      rcases List.mem_cons.mp mem with rfl | mem
      · simp
      · simp [found] at ih
        exact absurd mem ih

theorem lastIndexOf_cons_of_mem {first : κ} {rest : List κ} (mem : k ∈ rest) :
    lastIndexOf k (first :: rest) = (lastIndexOf k rest).map (· + 1) := by
  obtain ⟨i, found⟩ := Option.isSome_iff_exists.mp (isSome_lastIndexOf mem)
  rw [lastIndexOf, found]
  rfl

/-- The ranks of distinct keys grow along the list, whatever the rank of other keys is. -/
theorem pairwise_lastIndexOf (distinct : order.Nodup) (other : Nat) :
    order.Pairwise fun a b => (lastIndexOf a order).getD other < (lastIndexOf b order).getD other := by
  induction order with
  | nil => exact .nil
  | cons first rest ih =>
    obtain ⟨apart, distinct⟩ := List.nodup_cons.mp distinct
    have zero : lastIndexOf first (first :: rest) = some 0 := by
      rw [lastIndexOf, lastIndexOf_eq_none apart]
      exact if_pos rfl
    refine .cons (fun b mem => ?_) ((ih distinct).imp_of_mem fun {a b} ha hb less => ?_)
    · obtain ⟨i, found⟩ := Option.isSome_iff_exists.mp (isSome_lastIndexOf mem)
      rw [zero, lastIndexOf_cons_of_mem mem, found]
      exact Nat.succ_pos i
    · obtain ⟨i, foundA⟩ := Option.isSome_iff_exists.mp (isSome_lastIndexOf ha)
      obtain ⟨j, foundB⟩ := Option.isSome_iff_exists.mp (isSome_lastIndexOf hb)
      rw [foundA, foundB] at less
      rw [lastIndexOf_cons_of_mem ha, lastIndexOf_cons_of_mem hb, foundA, foundB]
      exact Nat.succ_lt_succ less

end

/-- Items with the keys of the list, sorted by the ranks of their keys, come in its order. -/
theorem map_insertionSort {key : α → κ} {rank : κ → Nat} {place : α → Nat} {l : List α}
    (perm : (l.map key).Perm order) (strict : order.Pairwise fun a b => rank a < rank b)
    (ranked : ∀ a ∈ l, place a = rank (key a)) :
    (l.insertionSort fun a b => place a ≤ place b).map key = order := by
  have kept : (l.insertionSort fun a b => place a ≤ place b).Perm l := List.perm_insertionSort _ l
  have sorted : ((l.insertionSort fun a b => place a ≤ place b).map key).Pairwise
      fun a b => rank a ≤ rank b := by
    refine List.pairwise_map.mpr ((List.pairwise_insertionSort (fun a b => place a ≤ place b) l).imp_of_mem ?_)
    intro a b ha hb le
    rwa [ranked a (kept.subset ha), ranked b (kept.subset hb)] at le
  have same : ((l.insertionSort fun a b => place a ≤ place b).map key).Perm order := (kept.map key).trans perm
  have apart : ∀ a ∈ order, ∀ b ∈ order, rank a = rank b → a = b :=
    fun a ha b hb => List.Pairwise.forall_of_forall_of_flip (R := fun a b => rank a = rank b → a = b)
      (fun _ _ _ => rfl) (strict.imp fun less equal => absurd equal (Nat.ne_of_lt less))
      (strict.imp fun less equal => absurd equal (Nat.ne_of_gt less)) ha hb
  refine List.Perm.eq_of_pairwise (fun a b ha hb le ge => ?_) sorted (strict.imp Nat.le_of_lt) same
  exact apart a (same.subset ha) b hb (Nat.le_antisymm le ge)

end Ranked
