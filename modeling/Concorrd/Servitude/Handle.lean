import Concorrd.Servitude.Transport

/-!
# The servitude handle

`start` brings the transports up in order. A critical one that fails ends it: transports are stopped
and the handle goes back to `stopped`. A failure that is not critical is noted under the transport's
name and the handle goes on to `running`. `stop` stops every transport, last one first, and reports
the first error. Each call gives the calls it makes on its transports, by their place.

`startLoop_append` runs the loop over transports that do not end it; `start_cases` says from it how
a whole start ends.
-/

namespace Concorrd

inductive LifecycleState where
  | stopped
  | starting
  | running
  | stopping
  deriving DecidableEq, Repr

inductive LifecycleError where
  | invalidTransition (source target : LifecycleState)
  deriving DecidableEq, Repr

def isValidTransition : LifecycleState → LifecycleState → Bool
  | .stopped, .starting => true
  | .starting, .running => true
  | .starting, .stopping => true
  | .running, .stopping => true
  | .stopping, .stopped => true
  | _, _ => false

def LifecycleState.transition (state target : LifecycleState) :
    Except LifecycleError LifecycleState :=
  if !isValidTransition state target then .error (.invalidTransition state target) else .ok target

inductive ServitudeError where
  | lifecycle (e : LifecycleError)
  | transport (e : TransportError)
  | alreadyRunning
  | notRunning
  deriving DecidableEq, Repr

/-- The failures that are not critical, by the name of the transport. -/
abbrev DegradedMap := String → Option String

def DegradedMap.insert (degraded : DegradedMap) (name reason : String) : DegradedMap :=
  fun n => if n = name then some reason else degraded n

structure ServitudeHandle where
  lifecycle : LifecycleState
  transports : List TransportRuntime
  degraded : DegradedMap

/-- A call on the transport of a place, and its answer. -/
inductive TransportCall where
  | start (idx : Nat) (answer : Except TransportError Unit)
  | stop (idx : Nat) (answer : Except TransportError Unit)

/-- How far a start has come. -/
structure Progress where
  done : List TransportRuntime
  startedCount : Nat
  degraded : DegradedMap
  calls : List TransportCall

/-- Stop the first transports, the last of them first. -/
def stopDown (stops : Nat → Except TransportError Unit) :
    Nat → List TransportRuntime → List TransportCall × List TransportRuntime
  | 0, transports => ([], transports)
  | idx + 1, transports =>
    match transports[idx]? with
    | none => stopDown stops idx transports
    | some transport =>
      let (answer, transport) := transport.stop (stops idx)
      let (calls, transports) := stopDown stops idx (transports.set idx transport)
      (.stop idx answer :: calls, transports)

/-- Bring up the transports that are left, each with its place. -/
def startLoop (world : Surroundings) (s : Progress) :
    List (TransportRuntime × Nat) → Except TransportError Unit × Progress
  | [] => (.ok (), s)
  | (transport, idx) :: rest =>
    match transport.start (world.starts idx) with
    | (.ok _, transport) =>
      startLoop world
        { s with
          done := s.done ++ [transport]
          startedCount := s.startedCount + 1
          calls := s.calls ++ [.start idx (.ok ())] } rest
    | (.error e, transport) =>
      if !transport.isCritical then
        startLoop world
          { s with
            done := s.done ++ [transport]
            degraded := s.degraded.insert transport.name e.toString
            calls := s.calls ++ [.start idx (.error e)] } rest
      else
        -- The transports to stop are the first ones of the vector, as many as have started.
        let (stops, transports) := stopDown world.stops s.startedCount
          (s.done ++ transport :: rest.map Prod.fst)
        (.error e, { s with done := transports, calls := s.calls ++ .start idx (.error e) :: stops })

def ServitudeHandle.start (world : Surroundings) (h : ServitudeHandle) :
    Except ServitudeError Unit × ServitudeHandle × List TransportCall :=
  if h.lifecycle ≠ .stopped then (.error .alreadyRunning, h, [])
  else
    let h := { h with degraded := fun _ => none }
    match h.lifecycle.transition .starting with
    | .error e => (.error (.lifecycle e), h, [])
    | .ok began =>
      match startLoop world ⟨[], 0, h.degraded, []⟩ h.transports.zipIdx with
      | (.error e, s) =>
        match began.transition .stopping with
        | .error e' => (.error (.lifecycle e'), ⟨began, s.done, s.degraded⟩, s.calls)
        | .ok leaving =>
          match leaving.transition .stopped with
          | .error e' => (.error (.lifecycle e'), ⟨leaving, s.done, s.degraded⟩, s.calls)
          | .ok ended => (.error (.transport e), ⟨ended, s.done, s.degraded⟩, s.calls)
      | (.ok _, s) =>
        match began.transition .running with
        | .error e => (.error (.lifecycle e), ⟨began, s.done, s.degraded⟩, s.calls)
        | .ok up => (.ok (), ⟨up, s.done, s.degraded⟩, s.calls)

/-- The first error of the calls. -/
def firstError : List TransportCall → Option TransportError
  | [] => none
  | .start _ _ :: calls => firstError calls
  | .stop _ answer :: calls =>
    match answer with
    | .ok _ => firstError calls
    | .error e => some e

def ServitudeHandle.stop (world : Surroundings) (h : ServitudeHandle) :
    Except ServitudeError Unit × ServitudeHandle × List TransportCall :=
  if h.lifecycle ≠ .running then (.error .notRunning, h, [])
  else
    match h.lifecycle.transition .stopping with
    | .error e => (.error (.lifecycle e), h, [])
    | .ok leaving =>
      let (calls, transports) := stopDown world.stops h.transports.length h.transports
      match leaving.transition .stopped with
      | .error e => (.error (.lifecycle e), ⟨leaving, transports, h.degraded⟩, calls)
      | .ok ended =>
        match firstError calls with
        | some e => (.error (.transport e), ⟨ended, transports, h.degraded⟩, calls)
        | none => (.ok (), ⟨ended, transports, h.degraded⟩, calls)

def ServitudeHandle.isHealthy (world : Surroundings) (h : ServitudeHandle) : Bool :=
  if h.lifecycle ≠ .running then false
  else
    h.transports.zipIdx.all fun (transport, idx) =>
      (h.degraded transport.name).isSome || transport.isHealthy (world.healthy idx)

/-! ## The places of the calls -/

def startedIn : List TransportCall → List Nat :=
  List.filterMap fun | .start idx (.ok _) => some idx | _ => none

def failedIn : List TransportCall → List Nat :=
  List.filterMap fun | .start idx (.error _) => some idx | _ => none

def stoppedIn : List TransportCall → List Nat :=
  List.filterMap fun | .stop idx _ => some idx | _ => none

theorem startedIn_append (calls calls' : List TransportCall) :
    startedIn (calls ++ calls') = startedIn calls ++ startedIn calls' :=
  List.filterMap_append

theorem stoppedIn_append (calls calls' : List TransportCall) :
    stoppedIn (calls ++ calls') = stoppedIn calls ++ stoppedIn calls' :=
  List.filterMap_append

/-! ## How a start ends -/

/-- A transport with its place in the vector. -/
abbrev Slot := TransportRuntime × Nat

def Slot.answer (world : Surroundings) (x : Slot) : Except TransportError Unit :=
  (x.1.start (world.starts x.2)).1

/-- The start of the transport works. -/
def Slot.Starts (world : Surroundings) (x : Slot) : Prop := x.answer world = .ok ()

/-- The start of the transport fails, and the transport is critical. -/
def Slot.Fatal (world : Surroundings) (x : Slot) : Prop :=
  ¬x.Starts world ∧ x.1.isCritical = true

section

variable {world : Surroundings}

/-- The transport after its start was tried. -/
def Slot.next (world : Surroundings) (x : Slot) : TransportRuntime :=
  (x.1.start (world.starts x.2)).2

/-- The start of the transport, as a call. -/
def Slot.call (world : Surroundings) (x : Slot) : TransportCall := .start x.2 (x.answer world)

/-- Note the failure of the transport, if it failed. -/
def Slot.note (world : Surroundings) (degraded : DegradedMap) (x : Slot) : DegradedMap :=
  match x.answer world with
  | .ok _ => degraded
  | .error e => degraded.insert x.1.name e.toString

/-- A start that has come past some transports without being ended by one. -/
def Progress.past (world : Surroundings) (s : Progress) (xs : List Slot) : Progress where
  done := s.done ++ xs.map (Slot.next world)
  startedCount := s.startedCount + (startedIn (xs.map (Slot.call world))).length
  degraded := xs.foldl (Slot.note world) s.degraded
  calls := s.calls ++ xs.map (Slot.call world)

theorem startLoop_cons {x : Slot} (tolerated : ¬x.Fatal world) (s : Progress) (rest : List Slot) :
    startLoop world s (x :: rest) = startLoop world (s.past world [x]) rest := by
  obtain ⟨transport, idx⟩ := x
  have tolerated' : ¬(¬(transport.start (world.starts idx)).1 = .ok () ∧
    transport.isCritical = true) := tolerated
  have same := TransportRuntime.name_start (world.starts idx) transport
  have critical := TransportRuntime.isCritical_start (world.starts idx) transport
  simp only [startLoop, Progress.past, Slot.next, Slot.call, Slot.note, Slot.answer, List.map_cons,
    List.map_nil, List.foldl_cons, List.foldl_nil]
  rcases htried : transport.start (world.starts idx) with ⟨answer, transport'⟩
  rw [htried] at tolerated' same critical
  cases answer with
  | ok u => rfl
  | error e =>
    have tame : transport.isCritical = false := by
      by_contra fatal
      exact tolerated' ⟨by rintro ⟨⟩, Bool.not_eq_false _ ▸ fatal⟩
    rw [tame] at critical
    simp only [critical, Bool.not_false, if_true]
    rw [same]
    rfl

theorem Progress.past_past (s : Progress) (xs ys : List Slot) :
    (s.past world xs).past world ys = s.past world (xs ++ ys) := by
  simp only [Progress.past, startedIn, List.map_append, List.filterMap_append, List.length_append,
    List.append_assoc, List.foldl_append, Nat.add_assoc]

theorem startLoop_append {xs : List Slot} (tolerated : ∀ x ∈ xs, ¬x.Fatal world) (s : Progress)
    (rest : List Slot) :
    startLoop world s (xs ++ rest) = startLoop world (s.past world xs) rest := by
  induction xs generalizing s with
  | nil => simp only [List.nil_append, Progress.past, List.map_nil, List.append_nil, startedIn,
      List.filterMap_nil, List.length_nil, Nat.add_zero, List.foldl_nil]
  | cons x xs ih =>
    rw [List.cons_append, startLoop_cons (tolerated x List.mem_cons_self),
      ih fun y hy => tolerated y (List.mem_cons_of_mem x hy)]
    rw [Progress.past_past]
    rfl

theorem startLoop_fatal {x : Slot} {e : TransportError} (fatal : x.Fatal world)
    (failed : x.answer world = .error e) (s : Progress) (rest : List Slot) :
    startLoop world s (x :: rest) =
      let stops := stopDown world.stops s.startedCount
        (s.done ++ x.next world :: rest.map Prod.fst)
      (.error e, { s with done := stops.2, calls := s.calls ++ x.call world :: stops.1 }) := by
  obtain ⟨transport, idx⟩ := x
  have critical := TransportRuntime.isCritical_start (world.starts idx) transport
  rw [show transport.isCritical = true from fatal.2] at critical
  unfold Slot.call
  rw [failed]
  simp only [startLoop, Slot.next]
  rcases htried : transport.start (world.starts idx) with ⟨answer, transport'⟩
  rw [htried] at critical
  unfold Slot.answer at failed
  rw [htried] at failed
  cases failed
  simp only [critical, Bool.not_true, Bool.false_eq_true, if_false]

theorem isSome_foldl_note {xs : List Slot} (degraded : DegradedMap) (name : String) :
    (xs.foldl (Slot.note world) degraded name).isSome ↔
      (degraded name).isSome ∨ ∃ x ∈ xs, ¬x.Starts world ∧ x.1.name = name := by
  induction xs generalizing degraded with
  | nil =>
    refine (or_iff_left ?_).symm
    rintro ⟨x, hx, -⟩
    cases hx
  | cons x xs ih =>
    rw [List.foldl_cons, ih, List.exists_mem_cons_iff, ← or_assoc]
    refine or_congr_left ?_
    unfold Slot.note Slot.Starts
    cases x.answer world with
    | ok u => exact (or_iff_left fun failed => failed.1 rfl).symm
    | error e =>
      show (if name = x.1.name then some e.toString else degraded name).isSome ↔ _
      by_cases same : name = x.1.name
      · rw [if_pos same]
        exact iff_of_true rfl (.inr ⟨by rintro ⟨⟩, same.symm⟩)
      · rw [if_neg same]
        exact (or_iff_left fun failed => same failed.2.symm).symm

/-- Either no start ends the vector, or one does that comes after none that would. -/
theorem exists_first_fatal (world : Surroundings) (xs : List Slot) : (∀ x ∈ xs, ¬x.Fatal world) ∨
    ∃ before x rest, xs = before ++ x :: rest ∧ (∀ y ∈ before, ¬y.Fatal world) ∧ x.Fatal world := by
  induction xs with
  | nil => exact .inl fun x hx => absurd hx List.not_mem_nil
  | cons x xs ih =>
    by_cases fatal : x.Fatal world
    · exact .inr ⟨[], x, xs, rfl, fun y hy => absurd hy List.not_mem_nil, fatal⟩
    · rcases ih with tolerated | ⟨before, y, rest, rfl, tolerated, ends⟩
      · exact .inl (List.forall_mem_cons.mpr ⟨fatal, tolerated⟩)
      · exact .inr ⟨x :: before, y, rest, rfl, List.forall_mem_cons.mpr ⟨fatal, tolerated⟩, ends⟩

/-- A start of a stopped handle runs to the end of the vector, or to the first transport that is
critical and fails. -/
theorem ServitudeHandle.start_cases (world : Surroundings) (h : ServitudeHandle)
    (stopped : h.lifecycle = .stopped) :
    ((∀ x ∈ h.transports.zipIdx, ¬Slot.Fatal world x) ∧
      h.start world = (.ok (), ⟨.running, h.transports.zipIdx.map (Slot.next world),
        h.transports.zipIdx.foldl (Slot.note world) fun _ => none⟩,
        h.transports.zipIdx.map (Slot.call world))) ∨
    ∃ before x rest e, h.transports.zipIdx = before ++ x :: rest ∧
      (∀ y ∈ before, ¬Slot.Fatal world y) ∧ Slot.Fatal world x ∧ x.answer world = .error e ∧
      let stops := stopDown world.stops (startedIn (before.map (Slot.call world))).length
        (before.map (Slot.next world) ++ x.next world :: rest.map Prod.fst)
      h.start world = (.error (.transport e),
        ⟨.stopped, stops.2, before.foldl (Slot.note world) fun _ => none⟩,
        before.map (Slot.call world) ++ x.call world :: stops.1) := by
  rcases exists_first_fatal world h.transports.zipIdx with
    tolerated | ⟨before, x, rest, split, tolerated, fatal⟩
  · refine .inl ⟨tolerated, ?_⟩
    have loop := startLoop_append tolerated ⟨[], 0, fun _ => none, []⟩ []
    rw [List.append_nil] at loop
    unfold ServitudeHandle.start
    simp only [stopped, loop]
    rfl
  · cases hx : x.answer world with
    | ok u => exact absurd hx fatal.1
    | error e =>
      refine .inr ⟨before, x, rest, e, split, tolerated, fatal, hx, ?_⟩
      have loop := startLoop_append tolerated ⟨[], 0, fun _ => none, []⟩ (x :: rest)
      rw [startLoop_fatal fatal hx, ← split] at loop
      unfold ServitudeHandle.start
      simp only [stopped, loop, Progress.past, List.nil_append, Nat.zero_add]
      rfl

/-! ## Stopping from the last transport down -/

theorem stoppedIn_stopDown (stops : Nat → Except TransportError Unit) {n : Nat}
    {transports : List TransportRuntime} (fits : n ≤ transports.length) :
    stoppedIn (stopDown stops n transports).1 = (List.range n).reverse := by
  induction n generalizing transports with
  | zero => rfl
  | succ n ih =>
    unfold stopDown
    rw [List.getElem?_eq_getElem (Nat.lt_of_succ_le fits), List.range_succ, List.reverse_append]
    exact congrArg (n :: ·) (ih (by rw [List.length_set]; exact Nat.le_of_succ_le fits))

theorem startedIn_stopDown (stops : Nat → Except TransportError Unit) (n : Nat)
    (transports : List TransportRuntime) : startedIn (stopDown stops n transports).1 = [] := by
  induction n generalizing transports with
  | zero => rfl
  | succ n ih =>
    unfold stopDown
    split
    · exact ih transports
    · exact ih _

/-- The calls of a whole stop are the calls on each transport as it was. -/
theorem mem_stopDown_iff (stops : Nat → Except TransportError Unit) {n : Nat}
    {transports : List TransportRuntime} {call : TransportCall} (fits : n ≤ transports.length) :
    call ∈ (stopDown stops n transports).1 ↔
      ∃ x ∈ transports.zipIdx, x.2 < n ∧ call = .stop x.2 (x.1.stop (stops x.2)).1 := by
  induction n generalizing transports with
  | zero =>
    refine iff_of_false List.not_mem_nil ?_
    rintro ⟨x, -, below, -⟩
    exact Nat.not_lt_zero _ below
  | succ n ih =>
    have here := List.getElem?_eq_getElem (Nat.lt_of_succ_le fits)
    let next := (transports[n].stop (stops n)).2
    have rest := ih (by rw [List.length_set]; exact Nat.le_of_succ_le fits :
      n ≤ (transports.set n next).length)
    unfold stopDown
    rw [here]
    show call ∈ .stop n (transports[n].stop (stops n)).1 ::
      (stopDown stops n (transports.set n next)).1 ↔ _
    rw [List.mem_cons, rest]
    simp only [List.mem_zipIdx_iff_getElem?]
    constructor
    · rintro (rfl | ⟨x, held, below, rfl⟩)
      · exact ⟨(transports[n], n), here, Nat.lt_succ_self n, rfl⟩
      · rw [List.getElem?_set_ne (Nat.ne_of_gt below)] at held
        exact ⟨x, held, Nat.lt_succ_of_lt below, rfl⟩
    · rintro ⟨x, held, below, rfl⟩
      rcases Nat.lt_succ_iff_lt_or_eq.mp below with below | same
      · exact .inr ⟨x, by rwa [List.getElem?_set_ne (Nat.ne_of_gt below)], below, rfl⟩
      · rw [same, here] at held
        rw [← Option.some.inj held, same]
        exact .inl rfl

theorem firstError_eq_none_iff {calls : List TransportCall} :
    firstError calls = none ↔ ∀ idx e, .stop idx (.error e) ∉ calls := by
  induction calls with
  | nil => exact iff_of_true rfl fun idx e => List.not_mem_nil
  | cons call calls ih =>
    simp only [List.mem_cons, not_or, forall_and]
    cases call with
    | start idx answer =>
      exact ih.trans (and_iff_right fun idx e => by rintro ⟨⟩).symm
    | stop idx answer =>
      cases answer with
      | ok u => exact ih.trans (and_iff_right fun idx e => by rintro ⟨⟩).symm
      | error e => exact iff_of_false (by rintro ⟨⟩) fun all => all.1 idx e rfl

/-- A stop of a running handle asks every transport, and ends in `stopped` whatever they answer. -/
theorem ServitudeHandle.stop_of_running (world : Surroundings) (h : ServitudeHandle)
    (running : h.lifecycle = .running) :
    let stops := stopDown world.stops h.transports.length h.transports
    (h.stop world).2 = (⟨.stopped, stops.2, h.degraded⟩, stops.1) ∧
      ((h.stop world).1 = .ok () ↔ ∀ x ∈ h.transports.zipIdx,
        (x.1.stop (world.stops x.2)).1 = .ok ()) := by
  have none_iff : firstError (stopDown world.stops h.transports.length h.transports).1 = none ↔
      ∀ x ∈ h.transports.zipIdx, (x.1.stop (world.stops x.2)).1 = .ok () := by
    rw [firstError_eq_none_iff]
    constructor
    · intro clean x hx
      cases hanswer : (x.1.stop (world.stops x.2)).1 with
      | ok u => rfl
      | error e =>
        refine absurd ((mem_stopDown_iff world.stops (Nat.le_refl _)).mpr ⟨x, hx, ?_, ?_⟩) (clean x.2 e)
        · exact (List.getElem?_eq_some_iff.mp (List.mem_zipIdx_iff_getElem?.mp hx)).1
        · rw [hanswer]
    · intro clean idx e mem
      obtain ⟨x, hx, -, same⟩ := (mem_stopDown_iff world.stops (Nat.le_refl _)).mp mem
      rw [clean x hx] at same
      cases same
  rcases hstops : stopDown world.stops h.transports.length h.transports with ⟨calls, transports⟩
  rw [hstops] at none_iff
  cases hfirst : firstError calls with
  | none =>
    have result : h.stop world = (.ok (), ⟨.stopped, transports, h.degraded⟩, calls) := by
      unfold ServitudeHandle.stop
      simp only [running, hstops, hfirst]
      rfl
    rw [result]
    exact ⟨rfl, iff_of_true rfl (none_iff.mp hfirst)⟩
  | some e =>
    have result : h.stop world =
        (.error (.transport e), ⟨.stopped, transports, h.degraded⟩, calls) := by
      unfold ServitudeHandle.stop
      simp only [running, hstops, hfirst]
      rfl
    rw [result]
    refine ⟨rfl, iff_of_false (by rintro ⟨⟩) fun clean => ?_⟩
    rw [none_iff.mpr clean] at hfirst
    cases hfirst

end

end Concorrd
