import Mathlib.Algebra.Ring.Int.Defs
import Mathlib.Algebra.Ring.Nat
import Mathlib.Data.List.Nodup
import Mathlib.Data.List.Perm.Subperm
import Mathlib.Algebra.BigOperators.Group.List.Basic

/-!
# Spans of time

A span goes from its start up to its end, without the end. Spans that lie apart cover no point twice, so that
within a span their lengths add up to no more than its length.
-/

namespace Spans

variable {α : Type*} {lo hi : α → Int} {l : List α} {a b p : Int}

/-- The points of a span. -/
def points (a b : Int) : List Int := (List.range (b - a).toNat).map fun i => a + (i : Nat)

theorem mem_points : p ∈ points a b ↔ a ≤ p ∧ p < b := by
  simp only [points, List.mem_map, List.mem_range]
  constructor
  · rintro ⟨i, less, rfl⟩
    omega
  · intro within
    exact ⟨(p - a).toNat, by omega, by omega⟩

theorem nodup_points : (points a b).Nodup := by
  refine List.nodup_range.map fun i j same => ?_
  have same : a + (i : Int) = a + (j : Int) := same
  omega

theorem length_points : (points a b).length = (b - a).toNat := by
  simp [points]

/-- What spans that lie apart cover, each point once. -/
theorem nodup_flatMap_points (apart : l.Pairwise fun x y => hi x ≤ lo y ∨ hi y ≤ lo x) :
    (l.flatMap fun x => points (lo x) (hi x)).Nodup := by
  refine List.nodup_flatMap.mpr ⟨fun x _ => nodup_points, apart.imp fun {x y} apart => ?_⟩
  intro p here there
  have here := mem_points.mp here
  have there := mem_points.mp there
  omega

/-- Spans that lie apart within a span are together no longer than it. -/
theorem sum_length_le (apart : l.Pairwise fun x y => hi x ≤ lo y ∨ hi y ≤ lo x)
    (within : ∀ x ∈ l, a ≤ lo x ∧ hi x ≤ b) : (l.map fun x => (hi x - lo x).toNat).sum ≤ (b - a).toNat := by
  have covered : (l.flatMap fun x => points (lo x) (hi x)) ⊆ points a b := by
    intro p mem
    obtain ⟨x, there, mem⟩ := List.mem_flatMap.mp mem
    have inside := within x there
    have mem := mem_points.mp mem
    exact mem_points.mpr (by omega)
  have least := ((nodup_flatMap_points apart).subperm covered).length_le
  simpa only [List.length_flatMap, length_points] using least

/-- Measures that are each covered by a length add up to no more than the lengths do. -/
theorem sum_mul_le {f : α → Int} {length : α → Nat} {k : Int} (covered : ∀ x ∈ l, f x * k ≤ length x) :
    (l.map f).sum * k ≤ (l.map length).sum := by
  induction l with
  | nil => simp
  | cons x l ih =>
    have first := covered x List.mem_cons_self
    have rest := ih fun y mem => covered y (List.mem_cons_of_mem x mem)
    simp only [List.map_cons, List.sum_cons, Int.add_mul, Int.natCast_add]
    omega

end Spans
