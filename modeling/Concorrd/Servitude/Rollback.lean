import Concorrd.Servitude.Handle

/-!
# What a start that fails leaves behind

When a critical transport fails, the loop stops the first transports of the vector, as many as it
has counted successes. It counts no failure, so a tolerated failure shifts what it stops towards the
front, and the notes of tolerated failures stay. `start_kept_iff` says when a start keeps the
promise: every start before a fatal one has worked, and, where there is no fatal one, no transport
that came up has the name of one that did not.
-/

namespace Concorrd

/-- What a start promises. With an error, what came up was stopped, last one first, and nothing else
was, and nothing is degraded. Otherwise the transports that are degraded are the ones that failed,
none of them critical, and the others are up. -/
def ServitudeHandle.StartKept (world : Surroundings) (h : ServitudeHandle) : Prop :=
  let (result, h', calls) := h.start world
  match result with
  | .error _ =>
    stoppedIn calls = (startedIn calls).reverse ∧ h'.lifecycle = .stopped ∧
      ∀ name, h'.degraded name = none
  | .ok _ =>
    h'.lifecycle = .running ∧ ∀ x ∈ h.transports.zipIdx,
      ((h'.degraded x.1.name).isSome ↔ x.2 ∈ failedIn calls ∧ x.1.isCritical = false) ∧
      (h'.degraded x.1.name = none → x.2 ∈ startedIn calls ∧ x.2 ∉ stoppedIn calls)

instance (world : Surroundings) (x : Slot) : Decidable (x.Starts world) :=
  inferInstanceAs (Decidable (x.answer world = .ok ()))

instance (world : Surroundings) (x : Slot) : Decidable (x.Fatal world) :=
  inferInstanceAs (Decidable (¬x.Starts world ∧ x.1.isCritical = true))

/-- If a start is fatal, every one before it works. If none is, a transport that comes up and one
that does not differ in name. -/
structure CleanStarts (world : Surroundings) (xs : List Slot) : Prop where
  before : (∃ x ∈ xs, x.Fatal world) →
    ∀ y ∈ xs.takeWhile fun x => ¬x.Fatal world, y.Starts world
  names : (∀ x ∈ xs, ¬x.Fatal world) →
    ∀ x ∈ xs, ∀ y ∈ xs, x.Starts world → ¬y.Starts world → x.1.name ≠ y.1.name

section

variable {world : Surroundings} {xs before rest : List Slot}

theorem startedIn_of_starts (works : ∀ x ∈ xs, x.Starts world) :
    startedIn (xs.map (Slot.call world)) = xs.map Prod.snd := by
  induction xs with
  | nil => rfl
  | cons x xs ih =>
    rw [List.map_cons, Slot.call, show x.answer world = .ok () from works x List.mem_cons_self]
    exact congrArg (x.2 :: ·) (ih fun y hy => works y (List.mem_cons_of_mem x hy))

theorem stoppedIn_map_call (xs : List Slot) : stoppedIn (xs.map (Slot.call world)) = [] := by
  induction xs with
  | nil => rfl
  | cons x xs ih => exact ih

theorem mem_startedIn_iff {idx : Nat} : idx ∈ startedIn (xs.map (Slot.call world)) ↔
    ∃ x ∈ xs, x.Starts world ∧ x.2 = idx := by
  unfold startedIn Slot.Starts
  rw [List.filterMap_map, List.mem_filterMap]
  refine exists_congr fun x => and_congr_right fun _ => ?_
  simp only [Function.comp_apply, Slot.call]
  cases x.answer world with
  | ok u => exact ⟨fun same => ⟨rfl, Option.some.inj same⟩, fun same => congrArg some same.2⟩
  | error e => exact iff_of_false (by rintro ⟨⟩) (by rintro ⟨⟨⟩, -⟩)

theorem mem_failedIn_iff {idx : Nat} : idx ∈ failedIn (xs.map (Slot.call world)) ↔
    ∃ x ∈ xs, ¬x.Starts world ∧ x.2 = idx := by
  unfold failedIn Slot.Starts
  rw [List.filterMap_map, List.mem_filterMap]
  refine exists_congr fun x => and_congr_right fun _ => ?_
  simp only [Function.comp_apply, Slot.call]
  cases x.answer world with
  | ok u => exact iff_of_false (by rintro ⟨⟩) fun failed => failed.1 rfl
  | error e =>
    exact ⟨fun same => ⟨by rintro ⟨⟩, Option.some.inj same⟩, fun same => congrArg some same.2⟩

/-- A place holds one transport. -/
theorem eq_of_place {transports : List TransportRuntime} {x y : Slot}
    (hx : x ∈ transports.zipIdx) (hy : y ∈ transports.zipIdx) (same : x.2 = y.2) : x = y := by
  have hx := List.mem_zipIdx_iff_getElem?.mp hx
  have hy := List.mem_zipIdx_iff_getElem?.mp hy
  rw [same, hy] at hx
  exact Prod.ext (Option.some.inj hx).symm same

theorem places_of_append {transports : List TransportRuntime}
    (split : transports.zipIdx = before ++ rest) :
    before.map Prod.snd = List.range before.length := by
  have places : before.map Prod.snd ++ rest.map Prod.snd = List.range' 0 transports.length := by
    rw [← List.map_append, ← split, List.zipIdx_map_snd]
  obtain ⟨k, -, same, -⟩ := List.range'_eq_append_iff.mp places.symm
  have length := congrArg List.length same
  rw [List.length_map, List.length_range'] at length
  rw [same, length, List.range_eq_range']

/-- A transport that came by without a note has come up. -/
theorem starts_of_unmarked {x : Slot} (hx : x ∈ xs)
    (unmarked : xs.foldl (Slot.note world) (fun _ => none) x.1.name = none) : x.Starts world := by
  by_contra down
  have marked : (xs.foldl (Slot.note world) (fun _ => none) x.1.name).isSome :=
    (isSome_foldl_note _ _).mpr (.inr ⟨x, hx, down, rfl⟩)
  rw [unmarked] at marked
  cases marked

/-- A start whose starts are clean keeps its promise, and no other one does. -/
theorem ServitudeHandle.start_kept_iff (world : Surroundings) (h : ServitudeHandle)
    (stopped : h.lifecycle = .stopped) :
    h.StartKept world ↔ CleanStarts world h.transports.zipIdx := by
  rcases h.start_cases world stopped with ⟨tolerated, result⟩ |
    ⟨before, x, rest, e, split, tolerated, fatal, failed, result⟩
  · unfold StartKept
    rw [result]
    constructor
    · rintro ⟨-, all⟩
      refine ⟨fun ⟨x, hx, fatal⟩ => absurd fatal (tolerated x hx), fun _ x hx y hy up down same => ?_⟩
      have marked : ((h.transports.zipIdx.foldl (Slot.note world) fun _ => none) x.1.name).isSome :=
        (isSome_foldl_note _ _).mpr (.inr ⟨y, hy, down, same.symm⟩)
      obtain ⟨failed, -⟩ := (all x hx).1.mp marked
      obtain ⟨z, hz, down, place⟩ := mem_failedIn_iff.mp failed
      exact (eq_of_place hz hx place ▸ down) up
    · intro clean
      refine ⟨rfl, fun x hx => ⟨?_, fun unmarked => ?_⟩⟩
      · rw [isSome_foldl_note, mem_failedIn_iff]
        constructor
        · rintro (⟨⟨⟩⟩ | ⟨y, hy, down, same⟩)
          have failed : ¬Slot.Starts world x := fun up =>
            clean.names tolerated x hx y hy up down same.symm
          exact ⟨⟨x, hx, failed, rfl⟩, Bool.not_eq_true _ ▸ fun critical =>
            tolerated x hx ⟨failed, critical⟩⟩
        · rintro ⟨⟨y, hy, down, place⟩, -⟩
          exact .inr ⟨y, hy, down, congrArg (Prod.fst · |>.name) (eq_of_place hy hx place)⟩
      · have up := starts_of_unmarked hx unmarked
        rw [stoppedIn_map_call]
        exact ⟨mem_startedIn_iff.mpr ⟨x, hx, up, rfl⟩, List.not_mem_nil⟩
  · unfold StartKept
    rw [result]
    have first : (h.transports.zipIdx.takeWhile fun x => ¬Slot.Fatal world x) = before := by
      rw [split, List.takeWhile_append_of_pos fun y hy => decide_eq_true (tolerated y hy),
        List.takeWhile_cons_of_neg (by simpa using fatal), List.append_nil]
    have ends : ∃ x ∈ h.transports.zipIdx, Slot.Fatal world x :=
      ⟨x, split ▸ List.mem_append_cons_self, fatal⟩
    constructor
    · rintro ⟨-, -, unmarked⟩
      refine ⟨fun _ y hy => ?_, fun none_fatal => absurd fatal (none_fatal x ?_)⟩
      · exact starts_of_unmarked (first ▸ hy) (unmarked y.1.name)
      · exact split ▸ List.mem_append_cons_self
    · intro clean
      have works : ∀ y ∈ before, y.Starts world := fun y hy => clean.before ends y (first ▸ hy)
      have count := startedIn_of_starts works
      rw [places_of_append split] at count
      have fits : before.length ≤
          (before.map (Slot.next world) ++ x.next world :: rest.map Prod.fst).length := by
        rw [List.length_append, List.length_map]
        exact Nat.le_add_right _ _
      refine ⟨?_, rfl, fun name => ?_⟩
      · rw [stoppedIn_append, startedIn_append, stoppedIn_map_call, count, List.length_range, Slot.call,
          failed]
        show [] ++ stoppedIn (stopDown _ _ _).1 = (_ ++ startedIn (stopDown _ _ _).1).reverse
        rw [stoppedIn_stopDown _ fits, startedIn_stopDown, List.nil_append, List.append_nil]
      · refine Option.not_isSome_iff_eq_none.mp fun marked => ?_
        rcases (isSome_foldl_note _ _).mp marked with ⟨⟨⟩⟩ | ⟨y, hy, down, -⟩
        exact down (works y hy)

end

/-- A Reticulum daemon that is not installed, a homeserver that comes up, and a placeholder. -/
def mixedHandle : ServitudeHandle :=
  ⟨.stopped, [.reticulum false, .matrixFederation false, .wireGuard], fun _ => none⟩

def withoutRnsd : Surroundings where
  starts idx := if idx = 0 then .fails (.binaryNotFound "rnsd") else .comesUp
  stops _ := .ok ()
  healthy _ := true

theorem ServitudeHandle.start_kept_iff_mixed : mixedHandle.StartKept withoutRnsd ↔
    CleanStarts withoutRnsd mixedHandle.transports.zipIdx :=
  mixedHandle.start_kept_iff withoutRnsd rfl

/-- The daemon, which never came up, is stopped, and the homeserver is left running. -/
theorem homeserver_left_running : ¬∀ (world : Surroundings) (h : ServitudeHandle),
    h.lifecycle = .stopped → h.StartKept world := by
  intro all
  have kept : [0] = [1] := (all withoutRnsd mixedHandle rfl).1
  cases kept

end Concorrd
