import Mathlib.Algebra.Order.Field.Rat
import Mathlib.Tactic.Linarith
import Mathlib.Tactic.NormNum
import Concorrd.Lib.Dict
import Concorrd.Lib.SlidingWindow

/-!
# Rate limits

The in-process limiters of `registration.py`, `matrix_proxy.py` and `nodes.py`, which differ in their numbers
only. Each keeps a deque of times for every address, pops what is older than the window before it counts, and
every so many calls sweeps the whole dictionary. `limiter_sliding_window` says that each of them decides as a
sliding window over the accepted calls does, and that the sweep decides nothing.
-/

namespace Concorrd.Api

open SlidingWindow

/-- The numbers of a limiter. Times are in seconds. -/
structure RateLimit where
  limit : Nat
  window : ℚ
  sweepInterval : Nat
  window_nonneg : 0 ≤ window

/-- The times of each address, and the calls since the last sweep. -/
structure RateLimits (κ : Type) where
  windows : Dict κ (List ℚ) := []
  sweepCounter : Nat := 0

/-- Pop the times before the cutoff off the front. -/
def popExpired (cutoff : ℚ) (window : List ℚ) : List ℚ := window.dropWhile (· < cutoff)

namespace RateLimit

variable {κ : Type} [DecidableEq κ] (r : RateLimit)

/-- Pop what has expired off every deque, and drop the addresses that are left with none. -/
def sweep (windows : Dict κ (List ℚ)) (now : ℚ) : Dict κ (List ℚ) :=
  windows.filterMap fun e =>
    if popExpired (now - r.window) e.2 = [] then none else some (e.1, popExpired (now - r.window) e.2)

/-- Count the call, and sweep when it is time. -/
def tick (s : RateLimits κ) (now : ℚ) : RateLimits κ :=
  if r.sweepInterval ≤ s.sweepCounter + 1 then ⟨r.sweep s.windows now, 0⟩
  else { s with sweepCounter := s.sweepCounter + 1 }

/-- The deque of the address, without what has expired. -/
def current (windows : Dict κ (List ℚ)) (ip : κ) (now : ℚ) : List ℚ :=
  popExpired (now - r.window) ((windows.get ip).getD [])

/-- The dictionary with that deque. An address that is left without times is entered anew. -/
def entered (windows : Dict κ (List ℚ)) (ip : κ) (now : ℚ) : Dict κ (List ℚ) :=
  (if r.current windows ip now = [] then windows.pop ip else windows).set ip (r.current windows ip now)

/-- Whether the address has a call left, and the dictionary behind the call. -/
def count (windows : Dict κ (List ℚ)) (ip : κ) (now : ℚ) : Bool × Dict κ (List ℚ) :=
  if r.limit ≤ (r.current windows ip now).length then (false, r.entered windows ip now)
  else (true, (r.entered windows ip now).set ip (r.current windows ip now ++ [now]))

/-- Return `true` if within the rate limit, `false` if exceeded. -/
def check (s : RateLimits κ) (ip : κ) (now : ℚ) : Bool × RateLimits κ :=
  ((r.count (r.tick s now).windows ip now).1,
    ⟨(r.count (r.tick s now).windows ip now).2, (r.tick s now).sweepCounter⟩)

/-- The decisions on calls one after the other. -/
def decisions : RateLimits κ → List (κ × ℚ) → List Bool
  | _, [] => []
  | s, call :: calls => (r.check s call.1 call.2).1 :: decisions (r.check s call.1 call.2).2 calls

/-- The state after the calls. -/
def after (s : RateLimits κ) (calls : List (κ × ℚ)) : RateLimits κ :=
  calls.foldl (fun s call => (r.check s call.1 call.2).2) s

end RateLimit

/-- The three limiters. -/
inductive Limiter where
  | registration
  | login
  | disposable
  deriving DecidableEq, Repr

/-- Five registrations or disposable nodes in fifteen minutes, thirty logins in five. -/
def Limiter.numbers : Limiter → RateLimit
  | .registration => ⟨5, 900, 1000, by decide⟩
  | .login => ⟨30, 300, 1000, by decide⟩
  | .disposable => ⟨5, 900, 1000, by decide⟩

section
variable {κ : Type} [DecidableEq κ]

def checkRegistrationRateLimit : RateLimits κ → κ → ℚ → Bool × RateLimits κ := Limiter.registration.numbers.check
def checkLoginRateLimit : RateLimits κ → κ → ℚ → Bool × RateLimits κ := Limiter.login.numbers.check
def checkDisposableRateLimit : RateLimits κ → κ → ℚ → Bool × RateLimits κ := Limiter.disposable.numbers.check

/-! ## What the deques hold -/

/-- The times of the calls of an address. -/
def timesOf (calls : List (κ × ℚ)) (ip : κ) : List ℚ := (calls.filter (·.1 = ip)).map (·.2)

/-- Every deque is what the accepted calls of its address left, from some cutoff on that has expired. -/
structure Follows (r : RateLimit) (windows : Dict κ (List ℚ)) (accepted : List (κ × ℚ)) (now : ℚ) : Prop where
  distinct : windows.keys.Nodup
  ordered : Chronological accepted
  past : ∀ call ∈ accepted, call.2 ≤ now
  deque : ∀ ip, ∃ cutoff ≤ now - r.window,
    (windows.get ip).getD [] = (timesOf accepted ip).filter (cutoff ≤ ·)

variable {r : RateLimit} {windows : Dict κ (List ℚ)} {accepted calls : List (κ × ℚ)} {ip : κ} {now now' : ℚ}

theorem timesOf_ordered (ordered : Chronological accepted) (ip : κ) : (timesOf accepted ip).Pairwise (· ≤ ·) :=
  List.pairwise_map.mpr (ordered.sublist List.filter_sublist)

theorem timesOf_concat_self (ip : κ) (now : ℚ) : timesOf (accepted ++ [(ip, now)]) ip = timesOf accepted ip ++ [now] := by
  simp [timesOf, List.filter_append]

theorem timesOf_concat_of_ne {ip' : κ} (other : ip' ≠ ip) :
    timesOf (accepted ++ [(ip, now)]) ip' = timesOf accepted ip' := by
  simp [timesOf, List.filter_append, other.symm]

theorem popExpired_filter {times : List ℚ} (ordered : times.Pairwise (· ≤ ·)) {cutoff cutoff' : ℚ}
    (later : cutoff ≤ cutoff') :
    popExpired cutoff' (times.filter (cutoff ≤ ·)) = times.filter (cutoff' ≤ ·) := by
  rw [popExpired, dropWhile_lt_eq_filter (ordered.sublist List.filter_sublist), List.filter_filter]
  refine List.filter_congr fun t _ => ?_
  simpa using fun kept => later.trans kept

/-- What has not expired of a deque is what has not expired of the accepted calls. -/
theorem Follows.current (h : Follows r windows accepted now) (ip : κ) :
    r.current windows ip now = (timesOf accepted ip).filter (now - r.window ≤ ·) := by
  obtain ⟨cutoff, old, same⟩ := h.deque ip
  rw [RateLimit.current, same, popExpired_filter (timesOf_ordered h.ordered ip) old]

theorem Follows.length_current (h : Follows r windows accepted now) (ip : κ) :
    (r.current windows ip now).length = recent accepted ip (now - r.window) now := by
  rw [h.current, timesOf, List.filter_map, List.length_map, List.filter_filter, recent]
  refine congrArg List.length (List.filter_congr fun call mem => ?_)
  have past := h.past call mem
  rw [Function.comp_apply, ← Bool.decide_and, decide_eq_decide]
  exact ⟨fun h => ⟨h.2, h.1, past⟩, fun h => ⟨h.2.1, h.1⟩⟩

theorem Follows.later (h : Follows r windows accepted now) (later : now ≤ now') :
    Follows r windows accepted now' where
  distinct := h.distinct
  ordered := h.ordered
  past call mem := (h.past call mem).trans later
  deque ip := by
    obtain ⟨cutoff, old, same⟩ := h.deque ip
    exact ⟨cutoff, by linarith, same⟩

theorem follows_nil (r : RateLimit) (now : ℚ) : Follows r ([] : Dict κ (List ℚ)) [] now where
  distinct := List.nodup_nil
  ordered := List.Pairwise.nil
  past := by simp
  deque _ := ⟨now - r.window, le_rfl, rfl⟩

/-! ## The sweep -/

theorem get_sweep (distinct : windows.keys.Nodup) (ip : κ) (now : ℚ) :
    ((r.sweep windows now).get ip).getD [] = r.current windows ip now := by
  induction windows with
  | nil => rfl
  | cons e windows ih =>
    obtain ⟨new, distinct⟩ := List.nodup_cons.mp distinct
    have ih := ih distinct
    rw [RateLimit.current, RateLimit.sweep, List.filterMap_cons, Dict.get]
    by_cases here : e.1 = ip
    · rw [if_pos here]
      have absent : Dict.get windows ip = none := Dict.get_eq_none_iff.mpr (here ▸ new)
      by_cases empty : popExpired (now - r.window) e.2 = []
      · rw [if_pos empty]
        refine ih.trans ?_
        rw [RateLimit.current, absent]
        exact empty.symm
      · rw [if_neg empty]
        simp only [Dict.get, here, if_true, Option.getD_some]
    · rw [if_neg here]
      by_cases empty : popExpired (now - r.window) e.2 = []
      · rw [if_pos empty]
        exact ih
      · rw [if_neg empty]
        simp only [Dict.get, here, if_false]
        exact ih

omit [DecidableEq κ] in
theorem keys_sweep_sublist (windows : Dict κ (List ℚ)) (now : ℚ) :
    (r.sweep windows now).keys.Sublist windows.keys := by
  induction windows with
  | nil => exact List.Sublist.slnil
  | cons e windows ih =>
    rw [RateLimit.sweep, List.filterMap_cons]
    by_cases empty : popExpired (now - r.window) e.2 = []
    · rw [if_pos empty]
      exact ih.cons e.1
    · rw [if_neg empty]
      exact ih.cons_cons e.1

/-- The sweep forgets what has expired and nothing else. -/
theorem Follows.sweep (h : Follows r windows accepted now) : Follows r (r.sweep windows now) accepted now where
  distinct := h.distinct.sublist (keys_sweep_sublist windows now)
  ordered := h.ordered
  past := h.past
  deque ip := ⟨now - r.window, le_rfl, (get_sweep h.distinct ip now).trans (h.current ip)⟩

theorem Follows.tick {s : RateLimits κ} (h : Follows r s.windows accepted now) :
    Follows r (r.tick s now).windows accepted now := by
  rw [RateLimit.tick]
  split
  · exact h.sweep
  · exact h

omit [DecidableEq κ] in
/-- An address that the sweep leaves has a time that has not expired. -/
theorem exists_of_mem_sweep {e : κ × List ℚ} (mem : e ∈ r.sweep windows now) : ∃ t ∈ e.2, now - r.window ≤ t := by
  obtain ⟨e', -, given⟩ := List.mem_filterMap.mp mem
  split at given
  · cases given
  · rename_i left
    cases given
    refine ⟨_, List.head_mem left, ?_⟩
    have head := List.head_dropWhile_not (fun t => decide (t < now - r.window)) left
    exact not_lt.mp (of_decide_eq_false head)

/-! ## One call -/

theorem get_entered_self : (r.entered windows ip now).get ip = some (r.current windows ip now) := Dict.get_set_self

theorem get_entered_of_ne {ip' : κ} (other : ip' ≠ ip) :
    (r.entered windows ip now).get ip' = windows.get ip' := by
  rw [RateLimit.entered, Dict.get_set_of_ne other]
  split
  · exact Dict.get_pop_of_ne other
  · rfl

theorem Follows.entered (h : Follows r windows accepted now) (ip : κ) :
    Follows r (r.entered windows ip now) accepted now where
  distinct := by
    refine Dict.nodup_set ?_
    split
    · exact Dict.nodup_pop h.distinct
    · exact h.distinct
  ordered := h.ordered
  past := h.past
  deque ip' := by
    by_cases same : ip' = ip
    · rw [same, get_entered_self]
      exact ⟨now - r.window, le_rfl, h.current ip⟩
    · rw [get_entered_of_ne same]
      exact h.deque ip'

/-- The time of an accepted call goes to the end of its deque. -/
theorem Follows.append (h : Follows r windows accepted now) (ip : κ) :
    Follows r ((r.entered windows ip now).set ip (r.current windows ip now ++ [now])) (accepted ++ [(ip, now)]) now where
  distinct := Dict.nodup_set (h.entered ip).distinct
  ordered := by
    refine List.pairwise_append.mpr ⟨h.ordered, List.pairwise_singleton _ _, fun call mem call' mem' => ?_⟩
    rw [List.mem_singleton.mp mem']
    exact h.past call mem
  past call mem := by
    rcases List.mem_append.mp mem with mem | mem
    · exact h.past call mem
    · rw [List.mem_singleton.mp mem]
  deque ip' := by
    have nonneg := r.window_nonneg
    by_cases same : ip' = ip
    · refine ⟨now - r.window, le_rfl, ?_⟩
      have kept : now - r.window ≤ now := by linarith
      rw [same, Dict.get_set_self, Option.getD_some, timesOf_concat_self, List.filter_append, h.current,
        List.filter_singleton, decide_eq_true kept]
      rfl
    · obtain ⟨cutoff, old, deque⟩ := h.deque ip'
      refine ⟨cutoff, old, ?_⟩
      rw [Dict.get_set_of_ne same, get_entered_of_ne same, timesOf_concat_of_ne same, deque]

/-- A call is decided as the sliding window decides it. -/
theorem Follows.check {s : RateLimits κ} {call : κ × ℚ} (h : Follows r s.windows accepted call.2) :
    (Accepts r.limit r.window accepted call ∧ (r.check s call.1 call.2).1 = true ∧
      Follows r (r.check s call.1 call.2).2.windows (accepted ++ [call]) call.2) ∨
    (¬ Accepts r.limit r.window accepted call ∧ (r.check s call.1 call.2).1 = false ∧
      Follows r (r.check s call.1 call.2).2.windows accepted call.2) := by
  have ticked := h.tick
  have length := ticked.length_current call.1
  rw [Accepts, ← length, RateLimit.check, RateLimit.count]
  split
  · rename_i full
    exact .inr ⟨not_lt.mpr full, rfl, ticked.entered call.1⟩
  · rename_i room
    exact .inl ⟨not_le.mp room, rfl, ticked.append call.1⟩

/-! ## Runs of calls -/

/-- From a state that follows the accepted calls on, the decisions are those of the sliding window. -/
theorem Follows.decisions {s : RateLimits κ} (h : Follows r s.windows accepted now)
    (chronological : Chronological calls) (behind : ∀ call ∈ calls, now ≤ call.2) :
    r.decisions s calls = SlidingWindow.decisions r.limit r.window accepted calls := by
  induction calls generalizing s accepted now with
  | nil => rfl
  | cons call calls ih =>
    obtain ⟨later, chronological⟩ := List.pairwise_cons.mp chronological
    have next := h.later (behind call List.mem_cons_self)
    rw [RateLimit.decisions, SlidingWindow.decisions]
    rcases next.check with ⟨accepts, decided, next⟩ | ⟨refuses, decided, next⟩
    · rw [if_pos accepts, decided, ih next chronological later]
    · rw [if_neg refuses, decided, ih next chronological later]

theorem Follows.after {s : RateLimits κ} (h : Follows r s.windows accepted now)
    (chronological : Chronological calls) (behind : ∀ call ∈ calls, now ≤ call.2) {done : ℚ}
    (late : now ≤ done) (ended : ∀ call ∈ calls, call.2 ≤ done) :
    ∃ accepted', Follows r (r.after s calls).windows accepted' done := by
  induction calls generalizing s accepted now with
  | nil => exact ⟨accepted, h.later late⟩
  | cons call calls ih =>
    obtain ⟨later, chronological⟩ := List.pairwise_cons.mp chronological
    have next := h.later (behind call List.mem_cons_self)
    have late' := ended call List.mem_cons_self
    have ended' : ∀ call' ∈ calls, call'.2 ≤ done := fun call' mem => ended call' (List.mem_cons_of_mem call mem)
    rcases next.check with ⟨-, -, next⟩ | ⟨-, -, next⟩
    · exact ih next chronological later late' ended'
    · exact ih next chronological later late' ended'

omit [DecidableEq κ] in
theorem exists_le_all (chronological : Chronological calls) : ∃ now : ℚ, ∀ call ∈ calls, now ≤ call.2 := by
  cases calls with
  | nil => exact ⟨0, by simp⟩
  | cons call calls =>
    refine ⟨call.2, fun call' mem => ?_⟩
    rcases List.mem_cons.mp mem with rfl | mem
    · exact le_rfl
    · exact (List.pairwise_cons.mp chronological).1 call' mem

theorem decisions_eq (r : RateLimit) (chronological : Chronological calls) :
    r.decisions {} calls = SlidingWindow.decisions r.limit r.window [] calls := by
  obtain ⟨now, behind⟩ := exists_le_all chronological
  have fresh : Follows r ({} : RateLimits κ).windows [] now := follows_nil r now
  exact fresh.decisions chronological behind

/-- What the sweep does at any time between two calls changes none of the decisions that follow. -/
theorem decisions_sweep (r : RateLimit) (chronological : Chronological calls) {rest : List (κ × ℚ)}
    (ended : ∀ call ∈ calls, call.2 ≤ now) (chronological' : Chronological rest)
    (behind : ∀ call ∈ rest, now ≤ call.2) (counter : Nat) :
    r.decisions ⟨r.sweep (r.after {} calls).windows now, counter⟩ rest = r.decisions (r.after {} calls) rest := by
  obtain ⟨start, before⟩ := exists_le_all chronological
  have early : min start now ≤ now := min_le_right start now
  have before' : ∀ call ∈ calls, min start now ≤ call.2 := fun call mem =>
    (min_le_left start now).trans (before call mem)
  have fresh : Follows r ({} : RateLimits κ).windows [] (min start now) := follows_nil r _
  obtain ⟨accepted, follows⟩ := fresh.after chronological before' early ended
  have swept : Follows r (⟨r.sweep (r.after {} calls).windows now, counter⟩ : RateLimits κ).windows accepted now :=
    follows.sweep
  rw [swept.decisions chronological' behind, follows.decisions chronological' behind]

/-- Each limiter decides as the sliding window over the calls it accepted: no closed interval as long as the
window holds more of them than the limit, only its own calls decide on an address, and the sweep changes no
decision and leaves no address whose times have all expired. -/
theorem limiter_sliding_window (limiter : Limiter) {calls : List (κ × ℚ)} (chronological : Chronological calls) :
    limiter.numbers.decisions {} calls =
      SlidingWindow.decisions limiter.numbers.limit limiter.numbers.window [] calls ∧
    (∀ ip lo, recent (granted calls (limiter.numbers.decisions {} calls)) ip lo (lo + limiter.numbers.window) ≤
      limiter.numbers.limit) ∧
    (∀ ip, decisionsOn ip calls (limiter.numbers.decisions {} calls) =
      limiter.numbers.decisions {} (calls.filter (·.1 = ip))) ∧
    (∀ now rest counter, (∀ call ∈ calls, call.2 ≤ now) → Chronological rest → (∀ call ∈ rest, now ≤ call.2) →
      limiter.numbers.decisions ⟨limiter.numbers.sweep (limiter.numbers.after {} calls).windows now, counter⟩ rest =
        limiter.numbers.decisions (limiter.numbers.after {} calls) rest) ∧
    ∀ windows : Dict κ (List ℚ), ∀ now, ∀ e ∈ limiter.numbers.sweep windows now,
      ∃ t ∈ e.2, now - limiter.numbers.window ≤ t := by
  have same := decisions_eq limiter.numbers chronological
  refine ⟨same, fun ip lo => ?_, fun ip => ?_, fun now rest counter ended chronological' behind => ?_,
    fun windows now e mem => exists_of_mem_sweep mem⟩
  · rw [same]
    exact recent_granted_le chronological ip lo
  · have own : Chronological (calls.filter (·.1 = ip)) := List.Pairwise.sublist List.filter_sublist chronological
    rw [same, decisions_eq limiter.numbers own]
    exact decisions_of_key ip [] calls
  · exact decisions_sweep limiter.numbers chronological ended chronological' behind counter

/-- The sixth registration of an address within the window is refused, that of another address is not. -/
theorem sixth_registration_refused :
    Limiter.registration.numbers.decisions {} [((1 : Nat), 0), (1, 1), (1, 2), (1, 3), (2, 3), (1, 4), (1, 900)] =
      [true, true, true, true, true, true, false] := by
  have chronological : Chronological [((1 : Nat), (0 : ℚ)), (1, 1), (1, 2), (1, 3), (2, 3), (1, 4), (1, 900)] := by
    norm_num [Chronological]
  refine (limiter_sliding_window .registration chronological).1.trans ?_
  norm_num [Limiter.numbers, SlidingWindow.decisions, Accepts, recent]

end

end Concorrd.Api
