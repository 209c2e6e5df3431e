import Mathlib.Logic.Basic

/-!
# Porch errors

`PorchError` is what every fallible call of the porch returns. A constraint of the schema
that refuses a statement arrives as its `sqlite` case, which here carries the constraint
that was violated instead of the text the engine renders for it.
-/

namespace Concorrd

/-- The constraint of the schema a statement ran into. -/
inductive SqliteError where
  | check (table : String)
  | unique (index : String)
  | foreignKey
  deriving DecidableEq, Repr

/-- The text SQLite reports for the constraint. -/
def SqliteError.message : SqliteError → String
  | .check table => "CHECK constraint failed: " ++ table
  | .unique index => "UNIQUE constraint failed: " ++ index
  | .foreignKey => "FOREIGN KEY constraint failed"

/-- Errors surfaced by the porch module. -/
inductive PorchError where
  | sqlite (error : SqliteError)
  | serde (detail : String)
  | io (detail : String)
  | accessDenied (channelId : String)
  | channelNotFound (channelId : String)
  | malformedEnvelope (detail : String)
  | streamClosed
  | invalidInput (detail : String)
  deriving DecidableEq, Repr

namespace PorchError

/-- The rendered error. -/
def toString : PorchError → String
  | .sqlite error => "sqlite: " ++ error.message
  | .serde detail => "serde_json: " ++ detail
  | .io detail => "io: " ++ detail
  | .accessDenied channelId => "access denied for channel " ++ channelId
  | .channelNotFound channelId => "channel not found: " ++ channelId
  | .malformedEnvelope detail => "malformed envelope: " ++ detail
  | .streamClosed => "stream closed unexpectedly"
  | .invalidInput detail => "invalid input: " ++ detail

/-- The status code the wire protocol reports for the error. -/
def statusCode : PorchError → Int
  | .accessDenied _ => 403
  | .channelNotFound _ => 404
  | .invalidInput _ => 400
  | .malformedEnvelope _ => 400
  | .sqlite _ => 500
  | .serde _ => 400
  | .io _ => 500
  | .streamClosed => 499

end PorchError

/-- The error of a call that failed. -/
def errorOf {α : Type} : Except PorchError α → Option PorchError
  | .ok _ => none
  | .error e => some e

theorem errorOf_eq_some_iff {α : Type} {e : Except PorchError α} {error : PorchError} :
    errorOf e = some error ↔ e = .error error := by
  cases e with
  | error e => simp only [errorOf, Option.some.injEq, Except.error.injEq]
  | ok a => simp only [errorOf, reduceCtorEq]

/-- The call succeeded and its value passes the test. -/
def isOkAnd {α : Type} (e : Except PorchError α) (test : α → Bool) : Bool :=
  match e with
  | .ok a => test a
  | .error _ => false

theorem isOkAnd_iff {α : Type} {e : Except PorchError α} {test : α → Bool} :
    isOkAnd e test = true ↔ ∃ a, e = .ok a ∧ test a = true := by
  cases e with
  | error e => simp only [isOkAnd, Bool.false_eq_true, reduceCtorEq, false_and, exists_false]
  | ok a => simp only [isOkAnd, Except.ok.injEq, exists_eq_left']

/-- A call that succeeds went through its first step. -/
theorem except_bind_eq_ok {ε α β : Type} {e : Except ε α} {f : α → Except ε β} {b : β} :
    (e >>= f) = .ok b ↔ ∃ a, e = .ok a ∧ f a = .ok b := by
  cases e with
  | error e =>
    constructor
    · intro h
      cases h
    · rintro ⟨_, h, _⟩
      cases h
  | ok a =>
    constructor
    · intro h
      exact ⟨a, rfl, h⟩
    · rintro ⟨_, h, hf⟩
      cases h
      exact hf

/-! ## The errors a call may fail with -/

/-- Every error the call may fail with has the property. -/
def FailsOnlyWith {α : Type} (P : PorchError → Prop) (r : Except PorchError α) : Prop :=
  ∀ e, r = .error e → P e

namespace FailsOnlyWith

variable {α β : Type} {P : PorchError → Prop}

theorem ok (a : α) : FailsOnlyWith P (.ok a) := nofun

theorem error {e : PorchError} (h : P e) : FailsOnlyWith P (.error e : Except PorchError α) := by
  intro e' he
  cases he
  exact h

theorem bind {r : Except PorchError α} {f : α → Except PorchError β} (h : FailsOnlyWith P r)
    (next : ∀ a, r = .ok a → FailsOnlyWith P (f a)) : FailsOnlyWith P (r >>= f) := by
  cases r with
  | error e => exact error (h e rfl)
  | ok a => exact next a rfl

theorem mapError {ε : Type} {r : Except ε α} {f : ε → PorchError} (h : ∀ e, P (f e)) :
    FailsOnlyWith P (r.mapError f) := by
  cases r with
  | error e => exact error (h e)
  | ok a => exact ok a

theorem mapM {f : α → Except PorchError β} (h : ∀ a, FailsOnlyWith P (f a)) (l : List α) :
    FailsOnlyWith P (l.mapM f) := by
  induction l with
  | nil => exact ok []
  | cons a l ih =>
    rw [List.mapM_cons]
    exact (h a).bind fun b _ => ih.bind fun bs _ => ok (b :: bs)

theorem mono {Q : PorchError → Prop} {r : Except PorchError α} (h : FailsOnlyWith P r)
    (imp : ∀ e, P e → Q e) : FailsOnlyWith Q r := fun e he => imp e (h e he)

end FailsOnlyWith

end Concorrd
