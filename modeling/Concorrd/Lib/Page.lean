import Mathlib.Data.List.DropRight
import Mathlib.Data.List.Nodup

/-!
# Pages from the front and from the back

A reader that takes the first `n` rows of a list and answers with the last `k` of those shows the
end of the list only when little stands behind the first `n`. `rtake_take_eq_rtake_filter_iff` says
when its answer is the last `k` rows that satisfy a condition.
-/

namespace Concorrd

namespace Page

variable {α : Type*} {F L : List α} {live : α → Bool} {k n : Nat}

theorem length_rtake (l : List α) (k : Nat) : (l.rtake k).length = min k l.length := by
  rw [List.rtake, List.length_drop]
  omega

theorem rtake_suffix (l : List α) (k : Nat) : l.rtake k <:+ l := List.drop_suffix _ l

theorem rtake_of_length_le {l : List α} (h : l.length ≤ k) : l.rtake k = l := by
  rw [List.rtake, Nat.sub_eq_zero_of_le h, List.drop_zero]

theorem rtake_map {β : Type*} (f : α → β) (l : List α) (k : Nat) :
    (l.map f).rtake k = (l.rtake k).map f := by
  rw [List.rtake, List.rtake, List.length_map, List.map_drop]

/-- The end of an append takes all it can from the second list. -/
theorem rtake_append (F L : List α) (k : Nat) :
    (F ++ L).rtake k = F.rtake (k - L.length) ++ L.rtake k := by
  rw [List.rtake, List.rtake, List.rtake, List.drop_append, List.length_append]
  congr 1
  · by_cases hk : k ≤ L.length
    · rw [List.drop_of_length_le (by omega), List.drop_of_length_le (by omega)]
    · congr 1
      omega
  · congr 1
    omega

/-- The end of a list is kept one item at a time, by dropping the first one where there is no room. -/
theorem rtake_concat (hk : 0 < k) (l : List α) (a : α) :
    (if k ≤ (l.rtake k).length then (l.rtake k).tail else l.rtake k) ++ [a] = (l ++ [a]).rtake k := by
  have last : (l ++ [a]).length - k ≤ l.length := by
    rw [List.length_append, List.length_singleton]
    omega
  rw [length_rtake, List.rtake, List.rtake, List.drop_append_of_le_length last, List.length_append,
    List.length_singleton]
  congr 1
  split
  · rename_i full
    rw [List.tail_drop]
    congr 1
    omega
  · rename_i notFull
    congr 1
    omega

/-- The end of an append shows the last row of the second list. -/
theorem exists_mem_rtake_append (hk : 0 < k) (hL : L ≠ []) :
    ∃ a ∈ L, a ∈ (F ++ L).rtake k := by
  have shown : L.rtake k ≠ [] := by
    rw [← List.length_pos_iff, length_rtake]
    exact Nat.lt_min.mpr ⟨hk, List.length_pos_iff.mpr hL⟩
  obtain ⟨a, ha⟩ := List.exists_mem_of_ne_nil _ shown
  refine ⟨a, (rtake_suffix L k).mem ha, ?_⟩
  rw [rtake_append]
  exact List.mem_append_right _ ha

/-- Where a condition that holds of one row holds of every later one, the rows it fails on come
first. -/
theorem filter_not_append_filter {q : α → Bool} {l : List α}
    (later : l.Pairwise fun a b => q a = true → q b = true) :
    l.filter (fun a => !q a) ++ l.filter q = l := by
  induction l with
  | nil => rfl
  | cons a l ih =>
    obtain ⟨head, tail⟩ := List.pairwise_cons.mp later
    cases ha : q a with
    | false =>
      rw [List.filter_cons_of_pos (by simp [ha]), List.filter_cons_of_neg (by simp [ha]),
        List.cons_append, ih tail]
    | true =>
      have all : ∀ b ∈ l, q b = true := fun b hb => head b hb ha
      have none_before : l.filter (fun b => !q b) = [] :=
        List.filter_eq_nil_iff.mpr fun b hb => by simp [all b hb]
      rw [List.filter_cons_of_neg (by simp [ha]), List.filter_cons_of_pos ha, none_before,
        List.filter_eq_self.mpr all, List.nil_append]

/-- **The end of a page.** `F` is what the reader leaves out at the front. The last `k` of the next
`n` rows are the last `k` live rows exactly when no row behind those `n` is live, each of the `k` is
live, and the `n` rows suffice or nothing left out is live. -/
theorem rtake_take_eq_rtake_filter_iff (nodup : (F ++ L).Nodup) (hk : 0 < k) (hn : k ≤ n) :
    (L.take n).rtake k = ((F ++ L).filter live).rtake k ↔
      (∀ a ∈ L.drop n, live a = false) ∧ (∀ a ∈ (L.take n).rtake k, live a = true) ∧
        (k ≤ L.length ∨ ∀ a ∈ F, live a = false) := by
  have parts : (F ++ L).filter live =
      (F.filter live ++ (L.take n).filter live) ++ (L.drop n).filter live := by
    rw [List.append_assoc, ← List.filter_append, List.take_append_drop, List.filter_append]
  constructor
  · intro h
    have behind : ∀ a ∈ L.drop n, live a = false := by
      by_contra some_live
      have nonempty : (L.drop n).filter live ≠ [] := fun none_live =>
        some_live fun a ha => Bool.eq_false_iff.mpr (List.filter_eq_nil_iff.mp none_live a ha)
      obtain ⟨a, ha, shown⟩ := exists_mem_rtake_append
        (F := F.filter live ++ (L.take n).filter live) hk nonempty
      rw [← parts, ← h] at shown
      exact List.disjoint_take_drop (List.Nodup.of_append_right nodup) (Nat.le_refl n)
        ((rtake_suffix _ k).mem shown) (List.mem_of_mem_filter ha)
    have shown : ∀ a ∈ (L.take n).rtake k, live a = true := fun a ha =>
      (List.mem_filter.mp ((rtake_suffix _ k).mem (h ▸ ha))).2
    refine ⟨behind, shown, ?_⟩
    by_contra hfew
    obtain ⟨few, hF⟩ := not_or.mp hfew
    have all : L.take n = L := List.take_of_length_le (by omega)
    have rest : L.rtake k = L := rtake_of_length_le (by omega)
    rw [all, rest] at h shown
    -- Every row of `L` is live, so the answer has room for a live row of `F`.
    have nonempty : F.filter live ≠ [] := fun none_live =>
      hF fun a ha => Bool.eq_false_iff.mpr (List.filter_eq_nil_iff.mp none_live a ha)
    have lengths := congrArg List.length h
    rw [length_rtake, List.filter_append, List.filter_eq_self.mpr shown,
      List.length_append] at lengths
    have := List.length_pos_iff.mpr nonempty
    omega
  · rintro ⟨behind, shown, room⟩
    have none_behind : (L.drop n).filter live = [] :=
      List.filter_eq_nil_iff.mpr fun a ha => Bool.eq_false_iff.mp (behind a ha)
    have split : (L.take n).rdrop k ++ (L.take n).rtake k = L.take n := List.take_append_drop _ _
    have page : (L.take n).filter live =
        ((L.take n).rdrop k).filter live ++ (L.take n).rtake k := by
      conv_lhs => rw [← split]
      rw [List.filter_append, List.filter_eq_self.mpr shown]
    have whole : ((L.take n).rtake k).rtake k = (L.take n).rtake k :=
      rtake_of_length_le (by rw [length_rtake]; exact Nat.min_le_left _ _)
    rw [parts, none_behind, List.append_nil, page, ← List.append_assoc, rtake_append, whole,
      length_rtake, List.length_take]
    rcases room with enough | none_left
    · have full : k - min k (min n L.length) = 0 := by omega
      rw [full, List.rtake_zero, List.nil_append]
    · have none_live : F.filter live = [] :=
        List.filter_eq_nil_iff.mpr fun a ha => Bool.eq_false_iff.mp (none_left a ha)
      rw [none_live, List.nil_append]
      by_cases enough : k ≤ L.length
      · have full : k - min k (min n L.length) = 0 := by omega
        rw [full, List.rtake_zero, List.nil_append]
      · have short : (L.take n).rdrop k = [] := by
          rw [List.rdrop, List.take_eq_nil_iff, List.length_take]
          left
          omega
        rw [short, List.filter_nil, List.rtake_nil, List.nil_append]

end Page

end Concorrd
