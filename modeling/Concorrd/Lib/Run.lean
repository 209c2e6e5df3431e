import Mathlib.Data.List.Basic
import Mathlib.Data.List.Induction
import Mathlib.Data.Set.Basic

/-!
# Runs of a machine

A machine is a state and a total step on events. `Along` says that a condition on state and
event holds at every step of a run. An invariant that one step preserves under the
condition is carried by every run the condition holds along, and two conditions that agree
at every state agree along every run. `gather` lists what the steps of a run give, in order,
`kept_iff` says that what a run shows is never lost exactly when no step loses any of it, and
`not_run_iff` reads a fact that events set and clear off the events alone.
-/

namespace Machine

variable {σ ε : Type*} (step : σ → ε → σ)

/-- The state after the events. -/
def run (s : σ) (es : List ε) : σ := es.foldl step s

/-- The condition holds at every step of the run. -/
def Along (P : σ → ε → Prop) : σ → List ε → Prop
  | _, [] => True
  | s, e :: es => P s e ∧ Along P (step s e) es

/-- What the steps of the run give, in order. -/
def gather {α : Type*} (f : σ → ε → List α) : σ → List ε → List α
  | _, [] => []
  | s, e :: es => f s e ++ gather f (step s e) es

variable {step} {P Q : σ → ε → Prop} {s : σ} {es es' : List ε}

theorem gather_append {α : Type*} (f : σ → ε → List α) (s : σ) (es es' : List ε) :
    gather step f s (es ++ es') = gather step f s es ++ gather step f (run step s es) es' := by
  induction es generalizing s with
  | nil => rfl
  | cons e es ih =>
    show f s e ++ gather step f (step s e) (es ++ es') = _
    rw [ih, ← List.append_assoc]
    rfl

/-- Where a step gives one thing at most, each thing that the run gives has the step that gave it. -/
theorem gather_split {α : Type*} {f : σ → ε → List α} (single : ∀ s e, (f s e).length ≤ 1) {a : α}
    {before after : List α} (h : gather step f s es = before ++ a :: after) :
    ∃ first e later, es = first ++ e :: later ∧ gather step f s first = before ∧
      f (run step s first) e = [a] := by
  induction es generalizing s before with
  | nil =>
    cases before with
    | nil => cases h
    | cons b before => cases h
  | cons e es ih =>
    have whole : f s e ++ gather step f (step s e) es = before ++ a :: after := h
    cases given : f s e with
    | nil =>
      rw [given, List.nil_append] at whole
      obtain ⟨first, e', later, rfl, gives, last⟩ := ih whole
      refine ⟨e :: first, e', later, rfl, ?_, last⟩
      show f s e ++ gather step f (step s e) first = before
      rw [given, List.nil_append, gives]
    | cons x rest =>
      have none : rest = [] := by
        have few := single s e
        rw [given, List.length_cons] at few
        exact List.eq_nil_of_length_eq_zero (by omega)
      rw [given, none, List.singleton_append] at whole
      cases before with
      | nil =>
        cases whole
        exact ⟨[], e, es, rfl, rfl, given.trans (congrArg _ none)⟩
      | cons b before =>
        obtain ⟨here, below⟩ := List.cons.inj whole
        obtain ⟨first, e', later, rfl, gives, last⟩ := ih below
        refine ⟨e :: first, e', later, rfl, ?_, last⟩
        show f s e ++ gather step f (step s e) first = b :: before
        rw [given, none, List.singleton_append, gives, here]

/-- What each event of a history is to be after those before it, where the last one is. -/
theorem forall_split_concat {Q : List ε → ε → Prop} {e : ε}
    (each : ∀ before a after, es = before ++ a :: after → Q before a) (last : Q es e) :
    ∀ before a after, es ++ [e] = before ++ a :: after → Q before a := by
  intro before a after whole
  rcases List.eq_nil_or_concat after with rfl | ⟨after, b, rfl⟩
  · obtain ⟨rfl, same⟩ := List.append_inj' whole rfl
    cases same
    exact last
  · rw [List.concat_eq_append, ← List.cons_append, ← List.append_assoc] at whole
    exact each before a after (List.append_inj' whole rfl).1

/-- Where a map turns what one step gives into another reading of it, it does so for the run. -/
theorem map_gather_eq {α β : Type*} {f : σ → ε → List α} {g : σ → ε → List β} {m : α → β}
    (whole : ∀ s e, P s e → (f s e).map m = g s e) (h : Along step P s es) :
    (gather step f s es).map m = gather step g s es := by
  induction es generalizing s with
  | nil => rfl
  | cons e es ih =>
    show (f s e ++ gather step f (step s e) es).map m = _
    rw [List.map_append, whole s e h.1, ih h.2]
    rfl

instance Along.decidable [∀ s e, Decidable (P s e)] :
    (s : σ) → (es : List ε) → Decidable (Along step P s es)
  | _, [] => isTrue trivial
  | s, e :: es =>
    have : Decidable (Along step P (step s e) es) := Along.decidable (step s e) es
    inferInstanceAs (Decidable (P s e ∧ Along step P (step s e) es))

/-- A condition that holds along a run holds along its beginning. -/
theorem Along.of_append (h : Along step P s (es ++ es')) : Along step P s es := by
  induction es generalizing s with
  | nil => trivial
  | cons e es ih => exact ⟨h.1, ih h.2⟩

/-- Two conditions that hold along a run hold together. -/
theorem Along.and (h : Along step P s es) (h' : Along step Q s es) :
    Along step (fun s e => P s e ∧ Q s e) s es := by
  induction es generalizing s with
  | nil => trivial
  | cons e es ih => exact ⟨⟨h.1, h'.1⟩, ih h.2 h'.2⟩

/-- What is known of every event of a run may be used at each of its steps. -/
theorem Along.and_forall {R : ε → Prop} (h : Along step P s es) (all : ∀ e ∈ es, R e) :
    Along step (fun s e => R e ∧ P s e) s es := by
  induction es generalizing s with
  | nil => trivial
  | cons e es ih =>
    exact ⟨⟨all e List.mem_cons_self, h.1⟩, ih h.2 fun e' he => all e' (List.mem_cons_of_mem e he)⟩

/-- An invariant that a step under the condition preserves holds after the run. -/
theorem invariant (Inv : σ → Prop) (keep : ∀ s e, P s e → Inv s → Inv (step s e))
    (h : Along step P s es) (start : Inv s) : Inv (run step s es) := by
  induction es generalizing s with
  | nil => exact start
  | cons e es ih => exact ih h.2 (keep s e h.1 start)

/-- Under an invariant that the condition preserves, a weaker condition holds along the run. -/
theorem Along.of_invariant (Inv : σ → Prop) (h : Along step P s es)
    (keep : ∀ s e, P s e → Inv s → Inv (step s e)) (imp : ∀ s e, P s e → Inv s → Q s e)
    (start : Inv s) : Along step Q s es := by
  induction es generalizing s with
  | nil => trivial
  | cons e es ih => exact ⟨imp s e h.1 start, ih h.2 (keep s e h.1 start)⟩

/-- Under an invariant of the machine, conditions that agree at a step agree along a run. -/
theorem along_congr (Inv : σ → Prop) (keep : ∀ s e, Inv s → Inv (step s e))
    (agree : ∀ s e, Inv s → (P s e ↔ Q s e)) (start : Inv s) :
    Along step P s es ↔ Along step Q s es := by
  induction es generalizing s with
  | nil => exact Iff.rfl
  | cons e es ih => exact and_congr (agree s e start) (ih (keep s e start))

/-- Where the first condition preserves an invariant under which both agree, they agree along a lawful
run. -/
theorem along_congr_under_of {R : σ → ε → Prop} (Inv : σ → Prop) (lawful : Along step R s es)
    (keep : ∀ s e, R s e → Inv s → P s e → Inv (step s e))
    (agree : ∀ s e, R s e → Inv s → (P s e ↔ Q s e)) (start : Inv s) :
    Along step P s es ↔ Along step Q s es := by
  induction es generalizing s with
  | nil => exact Iff.rfl
  | cons e es ih =>
    constructor
    · rintro ⟨first, rest⟩
      exact ⟨(agree s e lawful.1 start).mp first, (ih lawful.2 (keep s e lawful.1 start first)).mp rest⟩
    · rintro ⟨first, rest⟩
      have here := (agree s e lawful.1 start).mpr first
      exact ⟨here, (ih lawful.2 (keep s e lawful.1 start here)).mpr rest⟩

/-- Conditions that agree at a lawful step agree along a lawful run. -/
theorem along_congr_of {R : σ → ε → Prop} (lawful : Along step R s es)
    (agree : ∀ s e, R s e → (P s e ↔ Q s e)) : Along step P s es ↔ Along step Q s es := by
  induction es generalizing s with
  | nil => exact Iff.rfl
  | cons e es ih => exact and_congr (agree s e lawful.1) (ih lawful.2)

/-- A property of states that a lawful step keeps under a condition only: every state of a lawful
run has it exactly when every step of the run meets the condition. -/
theorem along_step_iff_of (Good : σ → Prop) (lawful : Along step Q s es)
    (agree : ∀ s e, Q s e → Good s → (Good (step s e) ↔ P s e)) (start : Good s) :
    Along step (fun s e => Good (step s e)) s es ↔ Along step P s es :=
  along_congr_under_of Good lawful (fun _ _ _ _ kept => kept) agree start

/-- A condition on events alone holds along a run of such events. -/
theorem Along.of_mem {R : ε → Prop} (imp : ∀ s e, R e → P s e) (all : ∀ e ∈ es, R e) :
    Along step P s es := by
  induction es generalizing s with
  | nil => trivial
  | cons e es ih =>
    exact ⟨imp s e (all e List.mem_cons_self), ih fun e' he => all e' (List.mem_cons_of_mem e he)⟩

theorem along_append :
    Along step P s (es ++ es') ↔ Along step P s es ∧ Along step P (run step s es) es' := by
  induction es generalizing s with
  | nil => exact (and_iff_right trivial).symm
  | cons e es ih => exact (and_congr_right fun _ => ih).trans and_assoc.symm

theorem Along.of_forall (all : ∀ s e, P s e) : Along step P s es := by
  induction es generalizing s with
  | nil => trivial
  | cons e es ih => exact ⟨all s e, ih⟩

/-- Where the first condition preserves an invariant under which both agree, they agree along a run. -/
theorem along_congr_under (Inv : σ → Prop) (keep : ∀ s e, Inv s → P s e → Inv (step s e))
    (agree : ∀ s e, Inv s → (P s e ↔ Q s e)) (start : Inv s) :
    Along step P s es ↔ Along step Q s es :=
  along_congr_under_of Inv (Along.of_forall fun _ _ => trivial) (fun s e _ => keep s e) (fun s e _ => agree s e) start

/-- A property of states that a step keeps under a condition only: every state of the run has it
exactly when every step of the run meets the condition. -/
theorem along_step_iff {Good : σ → Prop} (agree : ∀ s e, Good s → (Good (step s e) ↔ P s e))
    (start : Good s) : Along step (fun s e => Good (step s e)) s es ↔ Along step P s es :=
  along_step_iff_of Good (Along.of_forall fun _ _ => trivial) (fun s e _ => agree s e) start

theorem run_cons (s : σ) (e : ε) (es : List ε) : run step s (e :: es) = run step (step s e) es := rfl

theorem run_append (s : σ) (es es' : List ε) :
    run step s (es ++ es') = run step (run step s es) es' := by
  simp only [run, List.foldl_append]

/-- What a step keeps of a state and what was gathered before it, a run keeps. -/
theorem gather_invariant {α : Type*} {f : σ → ε → List α} (Inv : σ → List α → Prop)
    (keep : ∀ s log e, Inv s log → Inv (step s e) (log ++ f s e)) (start : Inv s []) (es : List ε) :
    Inv (run step s es) (gather step f s es) := by
  induction es using List.reverseRecOn with
  | nil => exact start
  | append_singleton es e ih =>
    have last : gather step f (run step s es) [e] = f (run step s es) e := List.append_nil _
    rw [gather_append, last, run_append]
    exact keep _ _ e ih

/-- A condition that holds along a run holds at each of its steps. -/
theorem along_iff : Along step P s es ↔
    ∀ before e later, es = before ++ e :: later → P (run step s before) e := by
  induction es generalizing s with
  | nil => simp only [Along, List.nil_eq, List.append_eq_nil_iff, reduceCtorEq, and_false,
      false_imp_iff, implies_true]
  | cons e es ih =>
    constructor
    · intro h before e' later heq
      cases before with
      | nil =>
        cases heq
        exact h.1
      | cons b before =>
        cases heq
        exact ih.mp h.2 before e' later rfl
    · intro h
      refine ⟨h [] e es rfl, ih.mpr fun before e' later heq => ?_⟩
      exact h (e :: before) e' later (heq ▸ rfl)

/-- What a state shows is never lost later in the run exactly when no step loses any of it. -/
theorem kept_iff {α : Type*} (shown : σ → Set α) :
    (∀ before mid later, es = before ++ (mid ++ later) →
      shown (run step s before) ⊆ shown (run step s (before ++ mid))) ↔
      Along step (fun s e => shown s ⊆ shown (step s e)) s es := by
  rw [along_iff]
  constructor
  · intro h before e later heq
    have kept := h before [e] later heq
    rwa [run_append] at kept
  · intro h before mid later heq
    induction mid generalizing before with
    | nil => rw [List.append_nil]
    | cons e mid ih =>
      have first := h before e (mid ++ later) heq
      have rest := ih (before ++ [e]) (by rw [heq, List.append_assoc]; rfl)
      rw [run_append] at rest
      rw [show before ++ e :: mid = before ++ [e] ++ mid by rw [List.append_assoc]; rfl]
      exact first.trans rest

/-- Some event clears the fact, and none after it sets it. -/
def ClearedSince (Sets Clears : ε → Prop) (es : List ε) : Prop :=
  ∃ before e later, es = before ++ e :: later ∧ Clears e ∧ ∀ e' ∈ later, ¬Sets e'

theorem clearedSince_concat {Sets Clears : ε → Prop} {e : ε} (apart : Clears e → ¬Sets e) :
    ClearedSince Sets Clears (es ++ [e]) ↔ (ClearedSince Sets Clears es ∨ Clears e) ∧ ¬Sets e := by
  constructor
  · rintro ⟨before, c, later, heq, clears, kept⟩
    rcases List.eq_nil_or_concat later with rfl | ⟨later, last, rfl⟩
    · cases (List.append_inj' heq rfl).2
      exact ⟨.inr clears, apart clears⟩
    · rw [List.concat_eq_append, ← List.cons_append, ← List.append_assoc] at heq
      obtain ⟨rfl, same⟩ := List.append_inj' heq rfl
      cases same
      simp only [List.concat_eq_append, List.mem_append, List.mem_singleton] at kept
      exact ⟨.inl ⟨before, c, later, rfl, clears, fun e' he => kept e' (.inl he)⟩,
        kept e (.inr rfl)⟩
  · rintro ⟨⟨before, c, later, rfl, clears, kept⟩ | clears, unset⟩
    · refine ⟨before, c, later ++ [e], by rw [List.append_assoc]; rfl, clears, fun e' he => ?_⟩
      rcases List.mem_append.mp he with he | he
      · exact kept e' he
      · rwa [List.mem_singleton.mp he]
    · exact ⟨es, e, [], rfl, clears, fun e' he => absurd he List.not_mem_nil⟩

/-- A fact that each step keeps unless the event clears it, and gains when the event sets it, has
gone from a state it held in exactly when the events cleared it and did not set it again. -/
theorem not_run_iff (Fact : σ → Prop) {Sets Clears : ε → Prop}
    (spec : ∀ s e, Fact (step s e) ↔ Fact s ∧ ¬Clears e ∨ Sets e)
    (apart : ∀ e, Clears e → ¬Sets e) (start : Fact s) :
    ¬Fact (run step s es) ↔ ClearedSince Sets Clears es := by
  induction es using List.reverseRecOn with
  | nil =>
    refine iff_of_false (not_not_intro start) ?_
    rintro ⟨before, c, later, heq, -⟩
    cases before <;> cases heq
  | append_singleton es e ih =>
    rw [run_append, clearedSince_concat (apart e), ← ih]
    show ¬Fact (step (run step s es) e) ↔ _
    rw [spec, not_or, not_and_or, not_not]

end Machine
