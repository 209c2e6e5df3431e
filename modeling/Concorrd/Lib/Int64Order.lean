import Mathlib.Order.Defs.LinearOrder
import Mathlib.Data.List.MinMax
import Mathlib.Order.Basic

/-!
# Signed 64-bit words as a linear order

The order of `Int64` is the order of the integers the words stand for. The module adds the
linear order, the saturating addition of one, and the running maximum of a list of words
with a floor.
-/

namespace Int64

/-- Signed words are ordered as the integers they stand for. -/
instance instLinearOrder : LinearOrder Int64 where
  le_refl a := le_iff_toInt_le.mpr le_rfl
  le_trans a b c hab hbc :=
    le_iff_toInt_le.mpr ((le_iff_toInt_le.mp hab).trans (le_iff_toInt_le.mp hbc))
  lt_iff_le_not_ge a b := by
    rw [lt_iff_toInt_lt, le_iff_toInt_le, le_iff_toInt_le]
    exact lt_iff_le_not_ge
  le_antisymm a b hab hba :=
    toInt_inj.mp (le_antisymm (le_iff_toInt_le.mp hab) (le_iff_toInt_le.mp hba))
  le_total a b := by
    rw [le_iff_toInt_le, le_iff_toInt_le]
    exact le_total _ _
  toDecidableLE := inferInstance
  toDecidableEq := inferInstance
  toDecidableLT := inferInstance

theorem lt_maxValue_iff {a : Int64} : a < maxValue ↔ a ≠ maxValue :=
  lt_iff_le_and_ne.trans (and_iff_right (le_maxValue a))

/-- Addition that stays at the nearest bound instead of wrapping round. -/
def saturatingAdd (a b : Int64) : Int64 := ofIntClamp (a.toInt + b.toInt)

/-- Below the top, the saturating successor is the integer successor. -/
theorem toInt_saturatingAdd_one {a : Int64} (h : a < maxValue) :
    (a.saturatingAdd 1).toInt = a.toInt + 1 := by
  have hlt : a.toInt < maxValue.toInt := lt_iff_toInt_lt.mp h
  have hmin : minValue.toInt ≤ a.toInt := a.minValue_le_toInt
  have hone : (1 : Int64).toInt = 1 := rfl
  rw [saturatingAdd, hone, toInt_ofIntClamp] <;> omega

/-- At the top the saturating successor stays there. -/
theorem saturatingAdd_maxValue : maxValue.saturatingAdd 1 = maxValue := by decide

/-- The saturating successor is a strict one exactly below the top. -/
theorem lt_saturatingAdd_one_iff {a : Int64} : a < a.saturatingAdd 1 ↔ a < maxValue := by
  constructor
  · intro h
    exact h.trans_le (le_maxValue _)
  · intro h
    rw [lt_iff_toInt_lt, toInt_saturatingAdd_one h]
    omega

/-- The words below a saturating successor are those up to the word, the top excepted. -/
theorem lt_saturatingAdd_one_iff_le {a b : Int64} :
    a < b.saturatingAdd 1 ↔ a ≤ b ∧ a < maxValue := by
  rcases (le_maxValue b).lt_or_eq with h | rfl
  · have hnext := toInt_saturatingAdd_one h
    rw [lt_iff_toInt_lt, hnext, Int.lt_add_one_iff, ← le_iff_toInt_le]
    exact ⟨fun hab => ⟨hab, hab.trans_lt h⟩, And.left⟩
  · rw [saturatingAdd_maxValue]
    exact ⟨fun hab => ⟨hab.le, hab⟩, And.right⟩

/-- The wrapping successor of a saturating one is strict when two steps remain. -/
theorem saturatingAdd_one_lt_add_one {a : Int64} (h : a.saturatingAdd 1 < maxValue) :
    a.saturatingAdd 1 < a.saturatingAdd 1 + 1 := by
  have hlt : (a.saturatingAdd 1).toInt < maxValue.toInt := lt_iff_toInt_lt.mp h
  have hmin : minValue.toInt ≤ (a.saturatingAdd 1).toInt := minValue_le_toInt _
  have htop : maxValue.toInt = 9223372036854775807 := rfl
  have hbot : minValue.toInt = -9223372036854775808 := rfl
  rw [lt_iff_toInt_lt, toInt_add]
  have hone : (1 : Int64).toInt = 1 := rfl
  rw [hone, Int.bmod_eq_of_le] <;> omega

/-- One above the top wraps round to the bottom. -/
theorem maxValue_add_one : maxValue + 1 = minValue := by decide

/-! ## The maximum of a list with a floor -/

/-- The largest word of a list, or the floor when none exceeds it. -/
def maxFrom (floor : Int64) (vs : List Int64) : Int64 :=
  vs.foldl (fun seen v => if v > seen then v else seen) floor

theorem maxFrom_cons (floor v : Int64) (vs : List Int64) :
    maxFrom floor (v :: vs) = maxFrom (max floor v) vs := by
  have : (if v > floor then v else floor) = max floor v := by
    rcases le_or_gt v floor with h | h
    · rw [if_neg (not_lt.mpr h), max_eq_left h]
    · rw [if_pos h, max_eq_right h.le]
  simp only [maxFrom, List.foldl_cons, this]

/-- The running maximum is below a bound exactly when the floor and every entry are. -/
theorem maxFrom_le_iff {floor b : Int64} {vs : List Int64} :
    maxFrom floor vs ≤ b ↔ floor ≤ b ∧ ∀ v ∈ vs, v ≤ b := by
  induction vs generalizing floor with
  | nil => simp only [maxFrom, List.foldl_nil, List.not_mem_nil, false_implies, implies_true,
      and_true]
  | cons v vs ih => rw [maxFrom_cons, ih, max_le_iff, List.forall_mem_cons, and_assoc]

theorem floor_le_maxFrom {floor : Int64} {vs : List Int64} : floor ≤ maxFrom floor vs :=
  (maxFrom_le_iff.mp le_rfl).1

theorem le_maxFrom {floor v : Int64} {vs : List Int64} (h : v ∈ vs) : v ≤ maxFrom floor vs :=
  (maxFrom_le_iff.mp le_rfl).2 v h

/-- The running maximum is the floor or one of the entries. -/
theorem maxFrom_eq_or_mem (floor : Int64) (vs : List Int64) :
    maxFrom floor vs = floor ∨ maxFrom floor vs ∈ vs := by
  induction vs generalizing floor with
  | nil => exact .inl rfl
  | cons v vs ih =>
    rw [maxFrom_cons]
    rcases ih (max floor v) with h | h
    · rcases max_choice floor v with hm | hm
      · exact .inl (h.trans hm)
      · exact .inr (List.mem_cons.mpr (.inl (h.trans hm)))
    · exact .inr (List.mem_cons_of_mem v h)

end Int64
