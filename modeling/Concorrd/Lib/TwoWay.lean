import Concorrd.Lib.Lww

/-!
# Two registers that exchange in both directions

One side pulls what passes a filter of its own and pushes back what passes another, and then the
other side does the same. Which pull filters are used does not matter to the outcome as long as
the push filter lets the larger row through: `bothWays_of_pushes`. A row that neither passes stays
where it is.
-/

namespace Lww

variable {ρ σ : Type*} [LinearOrder σ] (stamp : ρ → σ)

/-- The first register pulls from the second, and pushes what it then holds. -/
def exchange (pulls pushes : ρ → Bool) (o o' : Option ρ) : Option ρ × Option ρ :=
  let pulled := larger stamp o (o'.filter pulls)
  (pulled, larger stamp o' (pulled.filter pushes))

/-- Two registers after an exchange from the first and one from the second. -/
def bothWays (pulls pulls' pushes : ρ → Bool) (o o' : Option ρ) : Option ρ × Option ρ :=
  let first := exchange stamp pulls pushes o o'
  (exchange stamp pulls' pushes first.2 first.1).swap

variable {stamp} {pulls pulls' pushes : ρ → Bool} {o o' : Option ρ} {x y : ρ}

@[simp] theorem larger_self (o : Option ρ) : larger stamp o o = o := by
  cases o with
  | none => rfl
  | some r => exact absorb_of_covers (covers_some.mpr le_rfl)

theorem larger_of_lt (h : stamp x < stamp y) : larger stamp (some x) (some y) = some y :=
  absorb_of_not_covers fun held => absurd (covers_some.mp held) (not_le.mpr h)

theorem larger_of_le (h : stamp y ≤ stamp x) : larger stamp (some x) (some y) = some x :=
  absorb_of_covers (covers_some.mpr h)

/-- A filter does not matter to a row that would be dropped. -/
theorem larger_filter_of_le (pulls : ρ → Bool) (h : stamp y ≤ stamp x) :
    larger stamp (some x) ((some y).filter pulls) = some x := by
  cases hy : pulls y with
  | true => simp only [Option.filter_some, hy, if_true, larger_of_le h]
  | false => simp only [Option.filter_some, hy, Bool.false_eq_true, if_false, larger_none]

/-- The larger of two rows is one of the two. -/
theorem source_of_larger {w : ρ} (h : larger stamp o o' = some w) : o = some w ∨ o' = some w := by
  cases o' with
  | none => exact .inl h
  | some r =>
    rcases eq_or_eq_of_absorb h with ho | rfl
    · exact .inl ho
    · exact .inr rfl

/-- A row found after an exchange was on one of the two sides. -/
theorem source_of_exchange {w : ρ} (h : (exchange stamp pulls pushes o o').1 = some w ∨
    (exchange stamp pulls pushes o o').2 = some w) : o = some w ∨ o' = some w := by
  have pulled : ∀ v, larger stamp o (o'.filter pulls) = some v → o = some v ∨ o' = some v :=
    fun v hv => (source_of_larger hv).imp_right fun hf => (Option.filter_eq_some_iff.mp hf).1
  rcases h with h | h
  · exact pulled w h
  · rcases source_of_larger h with ho | hf
    · exact .inr ho
    · exact pulled w (Option.filter_eq_some_iff.mp hf).1

theorem source_of_bothWays {w : ρ} (h : (bothWays stamp pulls pulls' pushes o o').1 = some w ∨
    (bothWays stamp pulls pulls' pushes o o').2 = some w) : o = some w ∨ o' = some w := by
  rcases source_of_exchange h.symm with h' | h'
  · exact source_of_exchange (.inr h')
  · exact source_of_exchange (.inl h')

/-- A register that holds a row never empties. -/
theorem exists_larger (stamp : ρ → σ) (x : ρ) (o' : Option ρ) :
    ∃ w, larger stamp (some x) o' = some w := by
  cases o' with
  | none => exact ⟨x, rfl⟩
  | some y =>
    rcases lt_or_ge (stamp x) (stamp y) with hlt | hge
    · exact ⟨y, larger_of_lt hlt⟩
    · exact ⟨x, larger_of_le hge⟩

theorem exists_bothWays_fst (x : ρ) (o' : Option ρ) :
    ∃ w, (bothWays stamp pulls pulls' pushes (some x) o').1 = some w := by
  obtain ⟨v, hv⟩ := exists_larger stamp x (o'.filter pulls)
  show ∃ w, larger stamp (larger stamp (some x) (o'.filter pulls)) _ = some w
  rw [hv]
  exact exists_larger stamp v _

theorem exists_bothWays_snd (o : Option ρ) (y : ρ) :
    ∃ w, (bothWays stamp pulls pulls' pushes o (some y)).2 = some w := by
  obtain ⟨v, hv⟩ := exists_larger stamp y
    ((larger stamp o ((some y).filter pulls)).filter pushes)
  show ∃ w, larger stamp (larger stamp (some y) _) _ = some w
  rw [hv]
  exact exists_larger stamp v _

/-- A first row that is not smaller stays. -/
theorem exchange_of_le (h : stamp y ≤ stamp x) :
    exchange stamp pulls pushes (some x) (some y) =
      (some x, larger stamp (some y) ((some x).filter pushes)) := by
  simp only [exchange, larger_filter_of_le pulls h]

/-- A second row that is larger stays. -/
theorem exchange_of_lt (pulls pushes : ρ → Bool) (h : stamp x < stamp y) :
    ∃ w, (w = x ∨ w = y) ∧ exchange stamp pulls pushes (some x) (some y) = (some w, some y) := by
  cases hp : pulls y with
  | true =>
    refine ⟨y, .inr rfl, ?_⟩
    simp only [exchange, Option.filter_some_pos hp, larger_of_lt h, larger_filter_of_le _ le_rfl]
  | false =>
    refine ⟨x, .inl rfl, ?_⟩
    have stays : larger stamp (some x) ((some y).filter pulls) = some x := by
      simp only [Option.filter_some, hp, Bool.false_eq_true, if_false, larger_none]
    simp only [exchange, stays, larger_filter_of_le _ h.le]

/-- Registers that hold one row keep it. -/
theorem bothWays_self :
    bothWays stamp pulls pulls' pushes (some x) (some x) = (some x, some x) := by
  simp only [bothWays, exchange_of_le (le_refl (stamp x)), larger_filter_of_le _ le_rfl,
    Prod.swap_prod_mk]

/-- **Each side ends with the larger row.** It is enough that the push lets one of the two through,
and with it every row above. On a tie each side keeps its own. -/
theorem bothWays_of_pushes (mono : ∀ r r', stamp r ≤ stamp r' → pushes r = true → pushes r' = true)
    (passes : pushes x = true ∨ pushes y = true) :
    bothWays stamp pulls pulls' pushes (some x) (some y) =
      (larger stamp (some x) (some y), larger stamp (some y) (some x)) := by
  rcases lt_trichotomy (stamp x) (stamp y) with hlt | heq | hgt
  · -- the second row prevails: the second exchange pushes it if the first did not pull it
    have hy : pushes y = true := passes.elim (mono x y hlt.le) id
    obtain ⟨w, hw, first⟩ := exchange_of_lt pulls pushes hlt
    have below : stamp w ≤ stamp y := hw.elim (fun h => h ▸ hlt.le) fun h => h ▸ le_rfl
    have taken : larger stamp (some w) (some y) = some y := by
      rcases hw with rfl | rfl
      · exact larger_of_lt hlt
      · exact larger_self _
    rw [larger_of_lt hlt, larger_of_le hlt.le, bothWays, first, exchange_of_le below,
      Option.filter_some_pos hy, taken, Prod.swap_prod_mk]
  · rw [larger_of_le heq.ge, larger_of_le heq.le, bothWays, exchange_of_le heq.ge,
      larger_filter_of_le pushes heq.le, exchange_of_le heq.le, larger_filter_of_le pushes heq.ge,
      Prod.swap_prod_mk]
  · -- the first row prevails, and the first exchange pushes it
    have hx : pushes x = true := passes.elim id (mono y x hgt.le)
    rw [larger_of_le hgt.le, larger_of_lt hgt, bothWays, exchange_of_le hgt.le,
      Option.filter_some_pos hx, larger_of_lt hgt, exchange_of_le le_rfl,
      larger_filter_of_le pushes le_rfl, Prod.swap_prod_mk]

/-- A row that only the first side holds and that a push lets through reaches the other. -/
theorem bothWays_some_none (passes : pushes x = true) :
    bothWays stamp pulls pulls' pushes (some x) none = (some x, some x) := by
  have first : exchange stamp pulls pushes (some x) none = (some x, some x) := by
    simp only [exchange, Option.filter_none, larger_none, Option.filter_some_pos passes,
      none_larger]
  rw [bothWays, first, exchange_of_le le_rfl, larger_filter_of_le _ le_rfl, Prod.swap_prod_mk]

/-- A row that only the second side holds and that a push lets through reaches the other. -/
theorem bothWays_none_some (passes : pushes y = true) :
    bothWays stamp pulls pulls' pushes none (some y) = (some y, some y) := by
  cases hp : pulls y with
  | true =>
    have first : exchange stamp pulls pushes none (some y) = (some y, some y) := by
      simp only [exchange, Option.filter_some_pos hp, none_larger, larger_filter_of_le _ le_rfl]
    rw [bothWays, first, exchange_of_le le_rfl, larger_filter_of_le _ le_rfl, Prod.swap_prod_mk]
  | false =>
    have first : exchange stamp pulls pushes none (some y) = (none, some y) := by
      simp only [exchange, Option.filter_some_neg hp, larger_none, Option.filter_none]
    rw [bothWays, first]
    simp only [exchange, Option.filter_none, larger_none, Option.filter_some_pos passes,
      none_larger, Prod.swap_prod_mk]

/-- A row that nothing lets through stays on the first side. -/
theorem bothWays_some_none_of_blocked (push : pushes x = false) (pull : pulls' x = false) :
    bothWays stamp pulls pulls' pushes (some x) none = (some x, none) := by
  simp only [bothWays, exchange, Option.filter_none, larger_none, Option.filter_some_neg push,
    Option.filter_some_neg pull, Prod.swap_prod_mk]

/-- A row that nothing lets through stays on the second side. -/
theorem bothWays_none_some_of_blocked (push : pushes y = false) (pull : pulls y = false) :
    bothWays stamp pulls pulls' pushes none (some y) = (none, some y) := by
  simp only [bothWays, exchange, Option.filter_none, larger_none, Option.filter_some_neg push,
    Option.filter_some_neg pull, Prod.swap_prod_mk]

end Lww
