import Mathlib.Algebra.Order.Group.Defs
import Mathlib.Data.List.Pairwise
import Mathlib.Order.Basic

/-!
# Sliding windows

Calls come with a key and a time. A call is accepted when fewer than a limit of calls of its key were accepted
in the window that ends with it. `recent_granted_le` says that no window ever holds more than the limit, and
`decisions_of_key` that only the calls of a key decide on it.

An implementation keeps a deque of times and pops the old ones off its front: on an ordered deque that is a
filter (`dropWhile_lt_eq_filter`).
-/

namespace SlidingWindow

variable {κ T : Type*} [DecidableEq κ] [LinearOrder T]

/-- How many of the calls are of a key and in a closed interval of time. -/
def recent (calls : List (κ × T)) (key : κ) (lo hi : T) : Nat :=
  (calls.filter fun call => call.1 = key ∧ lo ≤ call.2 ∧ call.2 ≤ hi).length

/-- The calls come one after the other. -/
def Chronological (calls : List (κ × T)) : Prop := calls.Pairwise fun call call' => call.2 ≤ call'.2

/-- The calls that were accepted. -/
def granted : List (κ × T) → List Bool → List (κ × T)
  | call :: calls, true :: ds => call :: granted calls ds
  | _ :: calls, false :: ds => granted calls ds
  | _, _ => []

/-- The decisions on the calls of a key. -/
def decisionsOn (key : κ) : List (κ × T) → List Bool → List Bool
  | call :: calls, d :: ds => if call.1 = key then d :: decisionsOn key calls ds else decisionsOn key calls ds
  | _, _ => []

theorem recent_append (calls calls' : List (κ × T)) (key : κ) (lo hi : T) :
    recent (calls ++ calls') key lo hi = recent calls key lo hi + recent calls' key lo hi := by
  rw [recent, List.filter_append, List.length_append]
  rfl

theorem recent_le_of_imp {calls : List (κ × T)} {key : κ} {lo hi lo' hi' : T}
    (within : ∀ call ∈ calls, lo ≤ call.2 → call.2 ≤ hi → lo' ≤ call.2 ∧ call.2 ≤ hi') :
    recent calls key lo hi ≤ recent calls key lo' hi' := by
  rw [recent, recent, ← List.countP_eq_length_filter, ← List.countP_eq_length_filter]
  refine List.countP_mono_left fun call mem here => ?_
  simp only [decide_eq_true_eq] at here ⊢
  exact ⟨here.1, within call mem here.2.1 here.2.2⟩

theorem recent_filter (calls : List (κ × T)) (key : κ) (lo hi : T) :
    recent (calls.filter (·.1 = key)) key lo hi = recent calls key lo hi := by
  rw [recent, recent, List.filter_filter]
  refine congrArg List.length (List.filter_congr fun call _ => ?_)
  by_cases same : call.1 = key <;> simp [same]

/-- Popping the times before a cutoff off an ordered deque leaves those from the cutoff on. -/
theorem dropWhile_lt_eq_filter {times : List T} (ordered : times.Pairwise (· ≤ ·)) (cutoff : T) :
    times.dropWhile (· < cutoff) = times.filter (cutoff ≤ ·) := by
  induction times with
  | nil => rfl
  | cons t times ih =>
    obtain ⟨later, ordered⟩ := List.pairwise_cons.mp ordered
    by_cases old : t < cutoff
    · rw [List.dropWhile_cons_of_pos (by simpa using old),
        List.filter_cons_of_neg (by simpa using old), ih ordered]
    · have all : ∀ t' ∈ t :: times, cutoff ≤ t' := by
        intro t' mem
        rcases List.mem_cons.mp mem with rfl | mem
        · exact not_lt.mp old
        · exact (not_lt.mp old).trans (later t' mem)
      rw [List.dropWhile_cons_of_neg (by simpa using old),
        List.filter_eq_self.mpr (by simpa using all)]

section
variable [AddCommGroup T] (limit : Nat) (window : T)

/-- The call is accepted after the accepted ones. -/
def Accepts (accepted : List (κ × T)) (call : κ × T) : Prop :=
  recent accepted call.1 (call.2 - window) call.2 < limit

instance instDecidableAccepts (accepted : List (κ × T)) (call : κ × T) :
    Decidable (Accepts limit window accepted call) :=
  inferInstanceAs (Decidable (_ < _))

/-- Which calls are accepted, one after the other. -/
def decisions : List (κ × T) → List (κ × T) → List Bool
  | _, [] => []
  | accepted, call :: calls =>
    if Accepts limit window accepted call then true :: decisions (accepted ++ [call]) calls
    else false :: decisions accepted calls

variable {limit window}
variable [IsOrderedAddMonoid T]

/-- A call that is accepted finds room in every window that it falls into. -/
theorem recent_concat_le {accepted : List (κ × T)} {call : κ × T}
    (bounded : ∀ key lo, recent accepted key lo (lo + window) ≤ limit)
    (before : ∀ a ∈ accepted, a.2 ≤ call.2) (accepts : Accepts limit window accepted call) (key : κ) (lo : T) :
    recent (accepted ++ [call]) key lo (lo + window) ≤ limit := by
  rw [recent_append]
  by_cases here : call.1 = key ∧ lo ≤ call.2 ∧ call.2 ≤ lo + window
  · have one : recent [call] key lo (lo + window) = 1 := by simp [recent, here]
    have less : recent accepted key lo (lo + window) ≤ recent accepted call.1 (call.2 - window) call.2 := by
      rw [here.1]
      refine recent_le_of_imp fun a mem low _ => ⟨?_, before a mem⟩
      exact (sub_le_iff_le_add.mpr here.2.2).trans low
    rw [one]
    exact less.trans_lt accepts
  · have none : recent [call] key lo (lo + window) = 0 := by simpa [recent] using here
    rw [none]
    exact bounded key lo

theorem recent_append_granted_le {accepted calls : List (κ × T)} (chronological : Chronological calls)
    (before : ∀ a ∈ accepted, ∀ call ∈ calls, a.2 ≤ call.2)
    (bounded : ∀ key lo, recent accepted key lo (lo + window) ≤ limit) (key : κ) (lo : T) :
    recent (accepted ++ granted calls (decisions limit window accepted calls)) key lo (lo + window) ≤ limit := by
  induction calls generalizing accepted with
  | nil => simpa [granted, decisions] using bounded key lo
  | cons call calls ih =>
    obtain ⟨later, chronological⟩ := List.pairwise_cons.mp chronological
    have here : ∀ a ∈ accepted, a.2 ≤ call.2 := fun a mem => before a mem call List.mem_cons_self
    have rest : ∀ a ∈ accepted, ∀ call' ∈ calls, a.2 ≤ call'.2 := fun a mem call' mem' =>
      before a mem call' (List.mem_cons_of_mem call mem')
    rw [decisions]
    split
    · rename_i accepts
      have before' : ∀ a ∈ accepted ++ [call], ∀ call' ∈ calls, a.2 ≤ call'.2 := by
        intro a mem call' mem'
        rcases List.mem_append.mp mem with mem | mem
        · exact rest a mem call' mem'
        · rw [List.mem_singleton.mp mem]
          exact later call' mem'
      rw [granted, ← List.singleton_append, ← List.append_assoc]
      exact ih chronological before' (recent_concat_le bounded here accepts)
    · exact ih chronological rest bounded

/-- No closed interval as long as the window holds more accepted calls of a key than the limit. -/
theorem recent_granted_le {calls : List (κ × T)} (chronological : Chronological calls) (key : κ) (lo : T) :
    recent (granted calls (decisions limit window [] calls)) key lo (lo + window) ≤ limit := by
  rw [← List.nil_append (granted _ _)]
  refine recent_append_granted_le chronological ?_ ?_ key lo
  · simp
  · simp [recent]

end

section
variable [AddCommGroup T] {limit : Nat} {window : T}

/-- Only the calls of a key decide on its calls. -/
theorem decisions_of_key (key : κ) (accepted calls : List (κ × T)) :
    decisionsOn key calls (decisions limit window accepted calls) =
      decisions limit window (accepted.filter (·.1 = key)) (calls.filter (·.1 = key)) := by
  induction calls generalizing accepted with
  | nil => rfl
  | cons call calls ih =>
    by_cases same : call.1 = key
    · have agree : Accepts limit window (accepted.filter (·.1 = key)) call ↔
          Accepts limit window accepted call := by
        rw [Accepts, Accepts, same, recent_filter]
      rw [List.filter_cons_of_pos (by simpa using same), decisions, decisions]
      by_cases accepts : Accepts limit window accepted call
      · rw [if_pos accepts, if_pos (agree.mpr accepts), decisionsOn, if_pos same, ih]
        simp [List.filter_append, same]
      · rw [if_neg accepts, if_neg (mt agree.mp accepts), decisionsOn, if_pos same, ih]
    · rw [List.filter_cons_of_neg (by simpa using same), decisions]
      split
      · rw [decisionsOn, if_neg same, ih]
        simp [List.filter_append, same]
      · rw [decisionsOn, if_neg same, ih]

end

end SlidingWindow
