import Concorrd.Lib.Run

/-!
# Two runs of a machine that answers

A machine takes requests and answers each of them, and `outputs` lists its answers. To compare what
two states answer it is enough to look at one request at a time. `Unwinds` says that a relation of
states is kept by every request that does not tell them apart, that exactly these requests are
answered alike, and that no request changes which others would tell the states apart.
`outputs_eq_iff` draws the conclusion for a run of any length.

The relation may also speak of the requests still to come.

`Hides` compares the state that has met the requests of many parties with the state that has met
those of one alone: the requests of the others do not reach it.

A request that may fail is answered alike when both fail with one error, or both succeed with
related values, and `Alike.bind` goes through such a call step by step.
-/

universe u v

namespace Unwinding

variable {σ ι ο : Type*} (step : σ → ι → σ × ο)

/-- The answers to the requests, one after another. -/
def outputs : σ → List ι → List ο
  | _, [] => []
  | s, i :: is => (step s i).2 :: outputs (step s i).1 is

/-- What one request does to two related states. -/
structure Unwinds (R : List ι → σ → σ → Prop) (Blind : σ → σ → ι → Prop) : Prop where
  answers : ∀ i is s t, R (i :: is) s t → ((step s i).2 = (step t i).2 ↔ Blind s t i)
  keeps : ∀ i is s t, R (i :: is) s t → Blind s t i → R is (step s i).1 (step t i).1
  stable : ∀ i s t, Blind (step s i).1 (step t i).1 = Blind s t

variable {step} {R : List ι → σ → σ → Prop} {Blind : σ → σ → ι → Prop} {s t : σ} {is : List ι}

/-- Related states answer a run alike exactly when no request of it tells them apart. -/
theorem outputs_eq_iff (h : Unwinds step R Blind) (related : R is s t) :
    outputs step s is = outputs step t is ↔ ∀ i ∈ is, Blind s t i := by
  induction is generalizing s t with
  | nil => simp only [outputs, List.not_mem_nil, false_imp_iff, implies_true]
  | cons i is ih =>
    have first := h.answers i is s t related
    simp only [outputs, List.cons.injEq, List.forall_mem_cons]
    constructor
    · rintro ⟨alike, rest⟩
      have blind := first.mp alike
      have later := (ih (h.keeps i is s t related blind)).mp rest
      rw [h.stable i s t] at later
      exact ⟨blind, later⟩
    · rintro ⟨blind, later⟩
      refine ⟨first.mpr blind, (ih (h.keeps i is s t related blind)).mpr ?_⟩
      rw [h.stable i s t]
      exact later

/-! ## One party of many -/

section Party

variable (own : ι → Bool)

variable (step) in
/-- The answers to the requests of one party, in a run of everyone's. -/
def outputsOf : σ → List ι → List ο :=
  Machine.gather (fun s i => (step s i).1) fun s i => if own i then [(step s i).2] else []

variable (step) in
/-- What one request does to a state that has met everyone's requests and to one that has met those
of one party. -/
structure Hides (R : List ι → σ → σ → Prop) (Blind : σ → ι → Prop) : Prop where
  skips : ∀ i is s t, own i = false → R (i :: is) s t → R is (step s i).1 t
  keeps : ∀ i is s t, own i = true → R (i :: is) s t → R is (step s i).1 (step t i).1
  answers : ∀ i is s t, own i = true → R (i :: is) s t → ((step s i).2 = (step t i).2 ↔ Blind s i)

variable {own} {Blind : σ → ι → Prop}

/-- The states stay related, whatever the other parties ask. -/
theorem Hides.run (h : Hides step own R Blind) (related : R is s t) :
    R [] (Machine.run (fun s i => (step s i).1) s is)
      (Machine.run (fun s i => (step s i).1) t (is.filter own)) := by
  induction is generalizing s t with
  | nil => exact related
  | cons i is ih =>
    cases mine : own i with
    | true =>
      rw [List.filter_cons_of_pos mine]
      exact ih (h.keeps i is s t mine related)
    | false =>
      rw [List.filter_cons_of_neg (ne_true_of_eq_false mine)]
      exact ih (h.skips i is s t mine related)

/-- A party is answered as if it were alone exactly when none of its requests tells otherwise. -/
theorem Hides.outputsOf_eq_iff (h : Hides step own R Blind) (related : R is s t) :
    outputsOf step own s is = outputs step t (is.filter own) ↔
      Machine.Along (fun s i => (step s i).1) (fun s i => own i → Blind s i) s is := by
  induction is generalizing s t with
  | nil => exact iff_of_true rfl trivial
  | cons i is ih =>
    show (if own i then [(step s i).2] else []) ++ outputsOf step own (step s i).1 is = _ ↔
      (own i → Blind s i) ∧ _
    cases mine : own i with
    | true =>
      rw [List.filter_cons_of_pos mine, if_pos rfl, List.singleton_append, outputs, List.cons.injEq,
        h.answers i is s t mine related, ih (h.keeps i is s t mine related), imp_iff_right rfl]
    | false =>
      rw [List.filter_cons_of_neg (ne_true_of_eq_false mine), if_neg Bool.false_ne_true,
        List.nil_append, ih (h.skips i is s t mine related)]
      exact (and_iff_right fun told => absurd told Bool.false_ne_true).symm

end Party

/-! ## Calls that may fail -/

/-- Both calls fail with one error, or both succeed with related values. -/
inductive Alike {ε α β : Type*} (R : α → β → Prop) : Except ε α → Except ε β → Prop where
  | error (e : ε) : Alike R (.error e) (.error e)
  | ok {a : α} {b : β} (h : R a b) : Alike R (.ok a) (.ok b)

namespace Alike

variable {ε : Type*} {α γ : Type u} {β δ : Type v} {R : α → β → Prop}

/-- What comes after two calls that are alike. -/
theorem bind {S : γ → δ → Prop} {e : Except ε α} {e' : Except ε β}
    {f : α → Except ε γ} {g : β → Except ε δ} (h : Alike R e e')
    (next : ∀ a b, e = .ok a → R a b → Alike S (f a) (g b)) : Alike S (e >>= f) (e' >>= g) := by
  cases h with
  | error e => exact .error e
  | ok h => exact next _ _ rfl h

/-- A call is like itself. -/
theorem of_eq {e e' : Except ε α} (h : e = e') : Alike Eq e e' := by
  subst h
  cases e with
  | error e => exact .error e
  | ok a => exact .ok rfl

end Alike

end Unwinding
