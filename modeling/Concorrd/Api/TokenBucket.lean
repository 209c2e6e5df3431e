import Mathlib.Algebra.Order.Field.Rat
import Mathlib.Logic.Function.Basic
import Mathlib.Tactic.Linarith
import Mathlib.Tactic.NormNum
import Concorrd.Lib.Run

/-!
# Token buckets

`TokenBucket` of `routers/ext_proxy.py`, with exact rational arithmetic. A request waits for the lock, reads
the clock and refills the bucket, takes a token if there is one, and lets the lock go. Requests take turns in
any order between these steps, and a token is taken at the time that its request has read.

What was taken since a time, together with what is left, is never more than the capacity and what flowed in
since then (`BucketRun.Sound.spent`), so that no interval sees more than that (`token_bucket_bounded`).
-/

namespace Concorrd.Api

open Machine

/-- A bucket, with the request that holds its lock. -/
structure TokenBucket where
  capacity : ℚ
  tokens : ℚ
  refillPerSec : ℚ
  last : ℚ
  lock : Option Nat

namespace TokenBucket

def new (capacity refillPerSec now : ℚ) : TokenBucket := ⟨capacity, capacity, refillPerSec, now, none⟩

def refill (bucket : TokenBucket) (now : ℚ) : TokenBucket :=
  { bucket with
    tokens := min bucket.capacity (bucket.tokens + (now - bucket.last) * bucket.refillPerSec)
    last := now }

end TokenBucket

/-- How far a call of `take` has come. -/
inductive TakePhase where
  | waiting
  | holding
  | refilled (now : ℚ)
  | returned (taken : Bool)

/-- The call has the lock. -/
def TakePhase.Locks : TakePhase → Prop
  | .holding | .refilled _ => True
  | _ => False

structure TakeTurn where
  request : Nat
  now : ℚ

/-- The bucket, the calls, and the times at which tokens were taken. -/
structure BucketRun where
  bucket : TokenBucket
  phase : Nat → TakePhase
  taken : List ℚ

namespace BucketRun

/-- A new bucket that nobody has called. -/
def opened (capacity refillPerSec start : ℚ) : BucketRun :=
  ⟨.new capacity refillPerSec start, fun _ => .waiting, []⟩

variable (s : BucketRun)

def moved (n : Nat) (phase : TakePhase) : BucketRun := { s with phase := Function.update s.phase n phase }

/-- The next step of a call. -/
def step (t : TakeTurn) : BucketRun :=
  match s.phase t.request with
  | .waiting =>
    if s.bucket.lock = none then
      { s.moved t.request .holding with bucket := { s.bucket with lock := some t.request } }
    else s
  | .holding => { s.moved t.request (.refilled t.now) with bucket := s.bucket.refill t.now }
  | .refilled now =>
    if 1 ≤ s.bucket.tokens then
      { s.moved t.request (.returned true) with
        bucket := { s.bucket with tokens := s.bucket.tokens - 1, lock := none }
        taken := s.taken ++ [now] }
    else { s.moved t.request (.returned false) with bucket := { s.bucket with lock := none } }
  | .returned _ => s

/-- How many tokens were taken in a closed interval of time. -/
def takenIn (a b : ℚ) : Nat := s.taken.countP fun now => a ≤ now ∧ now ≤ b

/-- How many tokens were taken from a time on. -/
def takenSince (a : ℚ) : Nat := s.taken.countP (a ≤ ·)

/-- Only a call that is handed a token takes one out of the bucket, and takes one. -/
def Spares (t : TakeTurn) : Prop :=
  (s.step t).bucket.tokens < s.bucket.tokens →
    s.bucket.tokens = (s.step t).bucket.tokens + 1 ∧ ∃ now, s.phase t.request = .refilled now ∧
      (s.step t).phase t.request = .returned true ∧ (s.step t).taken = s.taken ++ [now]

/-- What holds of a bucket at any time. -/
structure Sound (capacity rate : ℚ) : Prop where
  capacity_eq : s.bucket.capacity = capacity
  rate_eq : s.bucket.refillPerSec = rate
  nonneg : 0 ≤ s.bucket.tokens
  le : s.bucket.tokens ≤ capacity
  owner : ∀ n, (s.phase n).Locks → s.bucket.lock = some n
  reading : ∀ n now, s.phase n = .refilled now → now = s.bucket.last
  past : ∀ now ∈ s.taken, now ≤ s.bucket.last
  spent : ∀ a ≤ s.bucket.last, s.takenSince a + s.bucket.tokens ≤ capacity + rate * (s.bucket.last - a)
  bounded : ∀ a b, a ≤ b → s.takenIn a b ≤ capacity + rate * (b - a)

variable {s} {t : TakeTurn} {n : Nat} {phase : TakePhase} {capacity rate start a b now : ℚ}

@[simp] theorem moved_self : (s.moved n phase).phase n = phase := Function.update_self ..

theorem moved_of_ne {m : Nat} (other : m ≠ n) : (s.moved n phase).phase m = s.phase m :=
  Function.update_of_ne other ..

/-- What holds of a phase after a call has moved held before, or holds of the phase it moved to. -/
theorem of_moved {P : TakePhase → Prop} {m : Nat} (holds : P ((s.moved n phase).phase m)) :
    m = n ∧ P phase ∨ m ≠ n ∧ P (s.phase m) := by
  by_cases same : m = n
  · rw [same, moved_self] at holds
    exact .inl ⟨same, holds⟩
  · rw [moved_of_ne same] at holds
    exact .inr ⟨same, holds⟩

/-- The call with the lock is the only one. -/
theorem Sound.only (h : s.Sound capacity rate) (held : (s.phase n).Locks) {m : Nat} (other : m ≠ n) :
    ¬ (s.phase m).Locks := fun locks =>
  other (Option.some.inj ((h.owner m locks).symm.trans (h.owner n held)))

theorem Sound.unread (h : s.Sound capacity rate) (held : (s.phase n).Locks) {m : Nat} (other : m ≠ n) :
    s.phase m ≠ .refilled now := by
  intro refilled
  refine h.only held other ?_
  rw [refilled]
  trivial

theorem takenIn_le_takenSince : s.takenIn a b ≤ s.takenSince a :=
  List.countP_mono_left fun now _ here => by
    simp only [decide_eq_true_eq] at here ⊢
    exact here.1

/-- Nothing was taken after the bucket was filled last. -/
theorem Sound.takenSince_eq_zero (h : s.Sound capacity rate) (late : s.bucket.last < a) : s.takenSince a = 0 :=
  List.countP_eq_zero.mpr fun now mem => by
    simpa using (h.past now mem).trans_lt late

theorem sound_opened (nonneg : 0 ≤ capacity) (flows : 0 ≤ rate) : (opened capacity rate start).Sound capacity rate where
  capacity_eq := rfl
  rate_eq := rfl
  nonneg := nonneg
  le := le_rfl
  owner n locks := locks.elim
  reading n now refilled := by cases refilled
  past := by simp [opened]
  spent a early := by
    have inflow : 0 ≤ rate * (start - a) := mul_nonneg flows (sub_nonneg.mpr early)
    simpa [opened, takenSince, TokenBucket.new] using inflow
  bounded a b le := by
    have inflow : 0 ≤ rate * (b - a) := mul_nonneg flows (sub_nonneg.mpr le)
    simpa [opened, takenIn] using add_nonneg nonneg inflow

/-! ## The steps -/

/-- A waiting call gets the lock. -/
theorem Sound.lock (h : s.Sound capacity rate) (free : s.bucket.lock = none) (n : Nat) :
    { s.moved n .holding with bucket := { s.bucket with lock := some n } }.Sound capacity rate where
  capacity_eq := h.capacity_eq
  rate_eq := h.rate_eq
  nonneg := h.nonneg
  le := h.le
  owner m locks := by
    rcases of_moved locks with ⟨rfl, -⟩ | ⟨-, locks⟩
    · rfl
    · have held := h.owner m locks
      rw [free] at held
      cases held
  reading m now refilled := by
    rcases of_moved (P := (· = .refilled now)) refilled with ⟨-, moved⟩ | ⟨-, refilled⟩
    · cases moved
    · exact h.reading m now refilled
  past := h.past
  spent := h.spent
  bounded := h.bounded

/-- A refill adds no more than what flowed in. -/
theorem Sound.refill (h : s.Sound capacity rate) (flows : 0 ≤ rate) (held : (s.phase n).Locks)
    (later : s.bucket.last ≤ now) :
    { s.moved n (.refilled now) with bucket := s.bucket.refill now }.Sound capacity rate where
  capacity_eq := h.capacity_eq
  rate_eq := h.rate_eq
  nonneg := by
    have inflow : 0 ≤ (now - s.bucket.last) * rate := mul_nonneg (sub_nonneg.mpr later) flows
    have nonneg := h.nonneg
    rw [TokenBucket.refill, h.capacity_eq, h.rate_eq]
    exact le_min (nonneg.trans h.le) (by linarith)
  le := by
    rw [← h.capacity_eq]
    exact min_le_left _ _
  owner m locks := by
    rcases of_moved locks with ⟨rfl, -⟩ | ⟨-, locks⟩
    · exact h.owner m held
    · exact h.owner m locks
  reading m now' refilled := by
    rcases of_moved (P := (· = .refilled now')) refilled with ⟨-, moved⟩ | ⟨other, refilled⟩
    · cases moved
      rfl
    · exact absurd refilled (h.unread held other)
  past now' mem := (h.past now' mem).trans later
  spent a early := by
    rw [TokenBucket.refill, h.capacity_eq, h.rate_eq]
    rcases le_or_gt a s.bucket.last with before | after
    · have spent := h.spent a before
      have poured := min_le_right capacity (s.bucket.tokens + (now - s.bucket.last) * rate)
      show (s.takenSince a : ℚ) + min capacity _ ≤ capacity + rate * (now - a)
      linarith
    · have nothing := h.takenSince_eq_zero after
      have full := min_le_left capacity (s.bucket.tokens + (now - s.bucket.last) * rate)
      have inflow : 0 ≤ rate * (now - a) := mul_nonneg flows (sub_nonneg.mpr early)
      show (s.takenSince a : ℚ) + min capacity _ ≤ capacity + rate * (now - a)
      rw [nothing]
      push_cast
      linarith
  bounded := h.bounded

/-- A call that finds no token lets the lock go. -/
theorem Sound.reject (h : s.Sound capacity rate) (held : (s.phase n).Locks) :
    { s.moved n (.returned false) with bucket := { s.bucket with lock := none } }.Sound capacity rate where
  capacity_eq := h.capacity_eq
  rate_eq := h.rate_eq
  nonneg := h.nonneg
  le := h.le
  owner m locks := by
    rcases of_moved locks with ⟨-, moved⟩ | ⟨other, locks⟩
    · exact moved.elim
    · exact absurd locks (h.only held other)
  reading m now refilled := by
    rcases of_moved (P := (· = .refilled now)) refilled with ⟨-, moved⟩ | ⟨-, refilled⟩
    · cases moved
    · exact h.reading m now refilled
  past := h.past
  spent := h.spent
  bounded := h.bounded

/-- A token that is taken was there, so that it counts against what flowed in. -/
theorem Sound.take (h : s.Sound capacity rate) (flows : 0 ≤ rate) (refilled : s.phase n = .refilled now)
    (left : 1 ≤ s.bucket.tokens) :
    { s.moved n (.returned true) with
      bucket := { s.bucket with tokens := s.bucket.tokens - 1, lock := none }
      taken := s.taken ++ [now] }.Sound capacity rate where
  capacity_eq := h.capacity_eq
  rate_eq := h.rate_eq
  nonneg := sub_nonneg.mpr left
  le := (sub_le_self _ zero_le_one).trans h.le
  owner m locks := by
    have held : (s.phase n).Locks := by
      rw [refilled]
      trivial
    rcases of_moved locks with ⟨-, moved⟩ | ⟨other, locks⟩
    · exact moved.elim
    · exact absurd locks (h.only held other)
  reading m now' refilled' := by
    rcases of_moved (P := (· = .refilled now')) refilled' with ⟨-, moved⟩ | ⟨-, refilled'⟩
    · cases moved
    · exact h.reading m now' refilled'
  past now' mem := by
    rcases List.mem_append.mp mem with mem | mem
    · exact h.past now' mem
    · rw [List.mem_singleton.mp mem]
      exact (h.reading n now refilled).le
  spent a early := by
    have spent := h.spent a early
    have one : List.countP (a ≤ ·) [now] ≤ 1 := List.countP_le_length
    have one' : (List.countP (a ≤ ·) [now] : ℚ) ≤ 1 := by exact_mod_cast one
    have sum : (takenSince { s with taken := s.taken ++ [now] } a : ℚ) =
        s.takenSince a + List.countP (a ≤ ·) [now] := by
      rw [takenSince, takenSince, List.countP_append, Nat.cast_add]
    show (takenSince { s with taken := s.taken ++ [now] } a : ℚ) + (s.bucket.tokens - 1) ≤ _
    rw [sum]
    show _ ≤ capacity + rate * (s.bucket.last - a)
    linarith
  bounded a b le := by
    have read := h.reading n now refilled
    have sum : (takenIn { s with taken := s.taken ++ [now] } a b : ℚ) =
        s.takenIn a b + List.countP (fun now => a ≤ now ∧ now ≤ b) [now] := by
      rw [takenIn, takenIn, List.countP_append, Nat.cast_add]
    show (takenIn { s with taken := s.taken ++ [now] } a b : ℚ) ≤ _
    rw [sum]
    by_cases here : a ≤ now ∧ now ≤ b
    · have one : List.countP (fun now => decide (a ≤ now ∧ now ≤ b)) [now] = 1 := by simp [here]
      have since : (s.takenIn a b : ℚ) ≤ s.takenSince a := by exact_mod_cast takenIn_le_takenSince
      have spent := h.spent a (read ▸ here.1)
      have inflow : rate * (s.bucket.last - a) ≤ rate * (b - a) :=
        mul_le_mul_of_nonneg_left (sub_le_sub_right (read ▸ here.2) a) flows
      rw [one, Nat.cast_one]
      linarith
    · have none : List.countP (fun now => decide (a ≤ now ∧ now ≤ b)) [now] = 0 := by simpa using here
      rw [none, Nat.cast_zero, add_zero]
      exact h.bounded a b le

/-- A step keeps a bucket sound and reads the clock at most once. -/
theorem Sound.step (h : s.Sound capacity rate) (flows : 0 ≤ rate) (later : s.bucket.last ≤ t.now) :
    (s.step t).Sound capacity rate ∧ (s.step t).bucket.last ≤ t.now ∧ s.Spares t := by
  rw [Spares, BucketRun.step]
  cases phase : s.phase t.request with
  | waiting =>
    show (ite _ _ _ : BucketRun).Sound _ _ ∧ (ite _ _ _ : BucketRun).bucket.last ≤ _ ∧ _
    split
    · rename_i free
      exact ⟨h.lock free t.request, later, fun less => absurd less (lt_irrefl _)⟩
    · exact ⟨h, later, fun less => absurd less (lt_irrefl _)⟩
  | holding =>
    have held : (s.phase t.request).Locks := by
      rw [phase]
      trivial
    have inflow : 0 ≤ (t.now - s.bucket.last) * rate := mul_nonneg (sub_nonneg.mpr later) flows
    have more : s.bucket.tokens ≤ (s.bucket.refill t.now).tokens := by
      rw [TokenBucket.refill, h.capacity_eq, h.rate_eq]
      exact le_min h.le (by linarith)
    exact ⟨h.refill flows held later, le_rfl, fun less => absurd less (not_lt.mpr more)⟩
  | refilled now =>
    have held : (s.phase t.request).Locks := by
      rw [phase]
      trivial
    show (ite _ _ _ : BucketRun).Sound _ _ ∧ (ite _ _ _ : BucketRun).bucket.last ≤ _ ∧ _
    split
    · rename_i left
      refine ⟨h.take flows phase left, later, fun _ => ⟨(sub_add_cancel _ _).symm, now, rfl, ?_, rfl⟩⟩
      exact moved_self
    · exact ⟨h.reject held, later, fun less => absurd less (lt_irrefl _)⟩
  | returned taken => exact ⟨h, later, fun less => absurd less (lt_irrefl _)⟩

/-- A run in which the clock does not go back. -/
def Forward (start : ℚ) (turns : List TakeTurn) : Prop :=
  (∀ t ∈ turns, start ≤ t.now) ∧ turns.Pairwise fun t t' => t.now ≤ t'.now

theorem Sound.run (h : s.Sound capacity rate) (flows : 0 ≤ rate) {turns : List TakeTurn}
    (forward : Forward s.bucket.last turns) :
    (Machine.run BucketRun.step s turns).Sound capacity rate ∧ Along BucketRun.step Spares s turns := by
  induction turns generalizing s with
  | nil => exact ⟨h, trivial⟩
  | cons t turns ih =>
    obtain ⟨ordered, rest⟩ := List.pairwise_cons.mp forward.2
    obtain ⟨sound, last, spares⟩ := h.step flows (forward.1 t List.mem_cons_self)
    have later : Forward (s.step t).bucket.last turns := ⟨fun t' mem => last.trans (ordered t' mem), rest⟩
    exact ⟨(ih sound later).1, spares, (ih sound later).2⟩

/-- In every run of a new bucket, whatever the requests and the order of their steps, there are never less than
no tokens or more than the capacity, the tokens taken in an interval are at most the capacity and what flows in
during it, and only a request that is handed a token takes one out of the bucket. -/
theorem token_bucket_bounded (nonneg : 0 ≤ capacity) (flows : 0 ≤ rate) {turns : List TakeTurn}
    (forward : Forward start turns) :
    (0 ≤ (Machine.run step (opened capacity rate start) turns).bucket.tokens ∧
      (Machine.run step (opened capacity rate start) turns).bucket.tokens ≤ capacity) ∧
    (∀ a b, a ≤ b → (Machine.run step (opened capacity rate start) turns).takenIn a b ≤
      capacity + rate * (b - a)) ∧
    Along step Spares (opened capacity rate start) turns := by
  obtain ⟨sound, spares⟩ := (sound_opened nonneg flows).run flows forward
  exact ⟨⟨sound.nonneg, sound.le⟩, sound.bounded, spares⟩

/-- Two requests share a token: the second waits for the lock of the first. -/
def rushed : List TakeTurn := [⟨0, 0⟩, ⟨1, 0⟩, ⟨0, 0⟩, ⟨0, 0⟩, ⟨1, 0⟩, ⟨1, 1 / 2⟩, ⟨1, 1 / 2⟩]

theorem rushed_bounded :
    ((Machine.run step (opened 1 1 0) rushed).takenIn 0 (1 / 2) : ℚ) ≤ 1 + 1 * (1 / 2 - 0) := by
  have forward : Forward 0 rushed := by norm_num [Forward, rushed]
  exact (token_bucket_bounded zero_le_one zero_le_one forward).2.1 0 (1 / 2) (by norm_num)

end BucketRun

end Concorrd.Api
