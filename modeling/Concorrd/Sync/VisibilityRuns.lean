import Concorrd.Lib.Run
import Concorrd.Porch.Visibility

/-!
# Visibility on many nodes

Nodes set the reach of servers under their wall clocks and take each other's updates in any order,
any number of times. `Replicates` says that a run does what it is for: every setting wins where the
row it replaced is held, and nodes that received the same rows hold the same settings, in whatever
order they came. It does exactly when every setting is later than what it replaces and no two rows
of a server share a time.
-/

namespace Concorrd

/-- Nodes, and the rows each has received: those it held first, those set there and those
delivered. -/
structure VisibilityNet (ι : Type) where
  table : ι → VisibilityMeta
  received : ι → List ServerVisibility

/-- A setting of the user of a node, or an update that reaches it. -/
inductive VisibilityEvent (ι : Type) where
  | set (i : ι) (serverId : String) (maxHops : UInt8) (now : Int64)
  | deliver (i : ι) (row : ServerVisibility)

namespace VisibilityNet

open VisibilityRow (serverId lastChangedAt)

section

variable {ι : Type} (net : VisibilityNet ι)

/-- Every node has received what it holds. -/
def Started : Prop := ∀ i, (net.received i).map ServerVisibility.stored = (net.table i).rows

/-- The row of a setting is taken by every node that holds the row it replaces. -/
def Wins : VisibilityEvent ι → Prop
  | .set i serverId maxHops now =>
    ∀ T row held, (net.table i).setVisibility serverId maxHops now = .ok (T, row) →
      (net.table i).find? serverId = some held →
        ∀ j, (net.table j).find? serverId = some held →
          ((net.table j).applyVisibilityIfNewer row).2 = true
  | .deliver _ _ => True

/-- Nodes that received the same rows hold the same settings. -/
def Agree : Prop :=
  ∀ i j, (∀ row, row ∈ net.received i ↔ row ∈ net.received j) →
    (net.table i).find? = (net.table j).find?

/-- Updates taken one after another. -/
def takeAll (T : VisibilityMeta) (rows : List ServerVisibility) : VisibilityMeta :=
  rows.foldl (fun T row => (T.applyVisibilityIfNewer row).1) T

/-- The rows that some node has received. -/
def Known : Set ServerVisibility := {row | ∃ i, row ∈ net.received i}

/-- A setting is later than what it replaces. -/
def Later : VisibilityEvent ι → Prop
  | .set i serverId _ now => trim serverId ≠ "" → (net.table i).Advances serverId now
  | .deliver _ _ => True

variable {net} {e : VisibilityEvent ι}

/-! ## Settings -/

/-- A setting wins exactly when it is later than what it replaces. -/
theorem wins_iff : net.Wins e ↔ net.Later e := by
  cases e with
  | deliver => exact Iff.rfl
  | set i name maxHops now =>
    constructor
    · intro wins named held hheld
      have ok : (net.table i).setVisibility name maxHops now = .ok (_, ⟨name, maxHops, now⟩) :=
        VisibilityMeta.setVisibility_eq_ok_iff.mpr ⟨named, rfl, rfl⟩
      have taken := wins _ _ held ok hheld i hheld
      rw [VisibilityMeta.applyVisibilityIfNewer_snd] at taken
      exact not_le.mp fun older => taken ⟨held, hheld, older⟩
    · intro later T row held ok hheld j hj
      obtain ⟨named, rfl, _⟩ := VisibilityMeta.setVisibility_eq_ok_iff.mp ok
      rw [VisibilityMeta.applyVisibilityIfNewer_snd]
      rintro ⟨held', hheld', older⟩
      cases hj.symm.trans hheld'
      exact absurd (later named held hheld) (not_lt.mpr older)

/-! ## What a node holds -/

/-- Every node holds what the rows it received leave in empty registers. -/
def Settled (net : VisibilityNet ι) : Prop :=
  ∀ i, (net.table i).find? = Lww.offerAll serverId lastChangedAt (fun _ => none)
    ((net.received i).map ServerVisibility.stored)

/-- The rows of a table leave themselves. -/
theorem find?_eq_offerAll (T : VisibilityMeta) :
    T.find? = Lww.offerAll serverId lastChangedAt (fun _ => none) T.rows := by
  funext k
  have offers : Lww.offerAll serverId lastChangedAt (fun _ => none) T.rows k =
      Lww.larger lastChangedAt none ((T.find? k).filter fun _ => true) := by
    apply Lww.offerAll_of_lists
    · exact fun k r h => KeyedTable.key_of_find? h
    · exact fun r => by rw [KeyedTable.mem_rows_iff, and_iff_left rfl]
  rw [offers]
  cases T.find? k <;> rfl

theorem Started.settled (h : net.Started) : net.Settled := fun i => by
  rw [find?_eq_offerAll, h i]

/-- Neither order nor repetition matters for rows of which a server and a time name one. -/
theorem offerAll_stored_congr {rows rows' : List ServerVisibility}
    (same : ∀ row, row ∈ rows ↔ row ∈ rows')
    (apart : Lww.OneRowPerStamp ServerVisibility.serverId ServerVisibility.lastChangedAt
      {row | row ∈ rows}) (m : String → Option VisibilityRow) :
    Lww.offerAll serverId lastChangedAt m (rows.map ServerVisibility.stored) =
      Lww.offerAll serverId lastChangedAt m (rows'.map ServerVisibility.stored) := by
  apply Lww.offerAll_congr
  · intro r
    simp only [List.mem_map, same]
  · rintro _ hr _ hr' hkey hstamp
    obtain ⟨row, hrow, rfl⟩ := List.mem_map.mp hr
    obtain ⟨row', hrow', rfl⟩ := List.mem_map.mp hr'
    rw [apart row hrow row' hrow' hkey hstamp]

/-- Rows that settled are agreed on, where a server and a time name one row. -/
theorem Settled.agree (h : net.Settled) (apart : Lww.OneRowPerStamp ServerVisibility.serverId
    ServerVisibility.lastChangedAt net.Known) : net.Agree := by
  intro i j same
  rw [h i, h j]
  apply offerAll_stored_congr same
  intro row hrow row' hrow'
  exact apart row ⟨i, hrow⟩ row' ⟨i, hrow'⟩

theorem find?_takeAll (T : VisibilityMeta) (rows : List ServerVisibility) :
    (takeAll T rows).find? = Lww.offerAll serverId lastChangedAt T.find?
      (rows.map ServerVisibility.stored) := by
  induction rows generalizing T with
  | nil => rfl
  | cons row rows ih =>
    show (takeAll (T.applyVisibilityIfNewer row).1 rows).find? = _
    rw [ih, VisibilityMeta.find?_applyVisibilityIfNewer]
    rfl

/-- The first of two rows of one time stays. -/
theorem find?_takeAll_pair {a b : ServerVisibility} (key : a.serverId = b.serverId)
    (stamp : a.lastChangedAt = b.lastChangedAt) :
    (takeAll KeyedTable.empty [a, b]).find? a.serverId = some a.stored := by
  have once : (Lww.offer serverId lastChangedAt (fun _ => none) a.stored) a.serverId =
      some a.stored := Lww.offer_self _ _
  have held : Lww.Held serverId lastChangedAt
      (Lww.offer serverId lastChangedAt (fun _ => none) a.stored) b.stored := by
    refine ⟨a.stored, ?_, stamp.ge⟩
    show Lww.offer serverId lastChangedAt (fun _ => none) a.stored b.serverId = _
    rw [← key, once]
  rw [find?_takeAll]
  show Lww.offer _ _ (Lww.offer _ _ (fun _ => none) a.stored) b.stored a.serverId = _
  rw [Lww.offer_of_held held, once]

end

/-! ## Runs -/

variable {ι : Type} [DecidableEq ι] (net : VisibilityNet ι)

/-- Node `i` has a new table and received a row. -/
def receive (i : ι) (T : VisibilityMeta) (row : ServerVisibility) : VisibilityNet ι where
  table := Function.update net.table i T
  received := Function.update net.received i (net.received i ++ [row])

/-- One event. A setting that is refused leaves the node as it was. -/
def step : VisibilityEvent ι → VisibilityNet ι
  | .set i serverId maxHops now =>
    match (net.table i).setVisibility serverId maxHops now with
    | .ok (T, row) => net.receive i T row
    | .error _ => net
  | .deliver i row => net.receive i ((net.table i).applyVisibilityIfNewer row).1 row

/-- The run replicates: its settings win, its nodes agree in every state, and neither order nor
repetition of its rows matters. -/
structure Replicates (events : List (VisibilityEvent ι)) : Prop where
  wins : Machine.Along step Wins net events
  agree : Machine.Along step (fun net e => (net.step e).Agree) net events
  orders : ∀ rows rows' : List ServerVisibility,
    (∀ row ∈ rows, row ∈ (Machine.run step net events).Known) →
      (∀ row, row ∈ rows ↔ row ∈ rows') → ∀ T, (takeAll T rows).find? = (takeAll T rows').find?

/-- Every setting of the run is later than what it replaces, and no two different rows of a server
have one time. -/
structure InOrder (events : List (VisibilityEvent ι)) : Prop where
  later : Machine.Along step Later net events
  apart : Lww.OneRowPerStamp ServerVisibility.serverId ServerVisibility.lastChangedAt
    (Machine.run step net events).Known

variable {net} {e : VisibilityEvent ι} {events : List (VisibilityEvent ι)} {i : ι}

/-- A row that is offered to what a node holds settles there. -/
theorem Settled.receive {T : VisibilityMeta} {row : ServerVisibility} (h : net.Settled)
    (offered : T.find? = Lww.offer serverId lastChangedAt (net.table i).find? row.stored) :
    (net.receive i T row).Settled := by
  intro k
  by_cases same : k = i
  · subst same
    simp only [VisibilityNet.receive, Function.update_self]
    rw [offered, h k, List.map_append, Lww.offerAll_append]
    rfl
  · simp only [VisibilityNet.receive, Function.update_of_ne same]
    exact h k

theorem Settled.step (later : net.Later e) (h : net.Settled) : (net.step e).Settled := by
  cases e with
  | deliver i row => exact h.receive VisibilityMeta.find?_applyVisibilityIfNewer
  | set i name maxHops now =>
    unfold VisibilityNet.step
    dsimp only
    split
    · rename_i T row ok
      have named := (VisibilityMeta.setVisibility_eq_ok_iff.mp ok).1
      exact h.receive (VisibilityMeta.find?_setVisibility ok (later named))
    · exact h

/-! ## Rows only add up -/

theorem known_step : net.Known ⊆ (net.step e).Known := by
  have kept (i : ι) (T : VisibilityMeta) (row : ServerVisibility) :
      net.Known ⊆ (net.receive i T row).Known := by
    rintro r ⟨k, hk⟩
    refine ⟨k, ?_⟩
    by_cases same : k = i
    · subst same
      simp only [VisibilityNet.receive, Function.update_self]
      exact List.mem_append_left _ hk
    · simp only [VisibilityNet.receive, Function.update_of_ne same]
      exact hk
  cases e with
  | deliver i row => exact kept _ _ _
  | set i name maxHops now =>
    unfold step
    dsimp only
    split
    · exact kept _ _ _
    · exact Set.Subset.rfl

theorem known_run (net : VisibilityNet ι) (events : List (VisibilityEvent ι)) :
    net.Known ⊆ (Machine.run step net events).Known := by
  induction events generalizing net with
  | nil => exact Set.Subset.rfl
  | cons e events ih => exact known_step.trans (ih _)

/-- Nodes that settled agree in every state of a run whose rows are apart. -/
theorem agree_along (later : Machine.Along step Later net events)
    (apart : Lww.OneRowPerStamp ServerVisibility.serverId ServerVisibility.lastChangedAt
      (Machine.run step net events).Known) (h : net.Settled) :
    Machine.Along step (fun net e => (net.step e).Agree) net events := by
  induction events generalizing net with
  | nil => trivial
  | cons e events ih =>
    have settled := h.step later.1
    refine ⟨settled.agree fun r hr r' hr' => ?_, ih later.2 apart settled⟩
    exact apart r (known_run (net.step e) events hr) r' (known_run (net.step e) events hr')

/-- **Visibility replicates in order.** A run of any nodes, from any settings, replicates exactly
when every setting is later than what it replaces and no two rows of a server share a time. -/
theorem replicates_iff (net : VisibilityNet ι) (started : net.Started)
    (events : List (VisibilityEvent ι)) : net.Replicates events ↔ net.InOrder events := by
  have wins : Machine.Along step Wins net events ↔ Machine.Along step Later net events :=
    Machine.along_congr (fun _ => True) (fun _ _ _ => trivial) (fun _ _ _ => wins_iff) trivial
  constructor
  · intro ⟨settingsWin, _, orders⟩
    refine ⟨wins.mp settingsWin, fun r hr r' hr' hkey hstamp => ?_⟩
    -- whichever of two rows of one time comes first stays
    have both := orders [r, r'] [r', r] (by
      intro row hrow
      rcases List.mem_pair.mp hrow with rfl | rfl
      · exact hr
      · exact hr') (fun row => by rw [List.mem_pair, List.mem_pair, or_comm]) KeyedTable.empty
    have one := find?_takeAll_pair hkey hstamp
    have other := find?_takeAll_pair hkey.symm hstamp.symm
    rw [both, hkey, other] at one
    exact (stored_injective (Option.some.inj one)).symm
  · intro ⟨later, apart⟩
    refine ⟨wins.mpr later, agree_along later apart started.settled, ?_⟩
    intro rows rows' known same T
    rw [find?_takeAll, find?_takeAll]
    apply offerAll_stored_congr same
    intro row hrow row' hrow'
    exact apart row (known row hrow) row' (known row' hrow')

end VisibilityNet

/-! ## Two clocks -/

/-- What every install starts with. -/
def seededVisibility : VisibilityMeta :=
  ⟨[⟨visibilityServerIdPorch, defaultPorchMaxHops, 10⟩,
    ⟨visibilityServerIdHome, defaultHomeMaxHops, 10⟩], by decide⟩

/-- Two installs that started at one time. -/
def twoInstalls : VisibilityNet Bool where
  table _ := seededVisibility
  received _ := [⟨visibilityServerIdPorch, 1, 10⟩, ⟨visibilityServerIdHome, 0, 10⟩]

/-- A setting after the clock stepped back. -/
def steppedBack : List (VisibilityEvent Bool) := [.set false "home" 4 9]

/-- Two users change one server within a millisecond, and hear of each other. -/
def sameMillisecond : List (VisibilityEvent Bool) :=
  [.set false "home" 2 11, .set true "home" 3 11, .deliver false ⟨"home", 3, 11⟩,
    .deliver true ⟨"home", 2, 11⟩]

theorem twoInstalls_started : twoInstalls.Started := fun i => by cases i <;> decide

theorem VisibilityNet.replicates_iff_twoInstalls : twoInstalls.Started ∧
    (twoInstalls.Replicates steppedBack ↔ twoInstalls.InOrder steppedBack) :=
  ⟨twoInstalls_started, VisibilityNet.replicates_iff twoInstalls twoInstalls_started steppedBack⟩

/-- A setting after the clock stepped back is dropped where the old row is held, and two settings
of one millisecond leave two nodes that received the same rows apart. -/
theorem VisibilityNet.settings_diverge :
    ¬ twoInstalls.Replicates steppedBack ∧ ¬ twoInstalls.Replicates sameMillisecond ∧
      (∀ row, row ∈ (Machine.run VisibilityNet.step twoInstalls sameMillisecond).received false ↔
        row ∈ (Machine.run VisibilityNet.step twoInstalls sameMillisecond).received true) := by
  have received (i : Bool) :
      (Machine.run VisibilityNet.step twoInstalls sameMillisecond).received i =
      if i then [⟨"porch", 1, 10⟩, ⟨"home", 0, 10⟩, ⟨"home", 3, 11⟩, ⟨"home", 2, 11⟩]
      else [⟨"porch", 1, 10⟩, ⟨"home", 0, 10⟩, ⟨"home", 2, 11⟩, ⟨"home", 3, 11⟩] := by
    cases i <;> decide
  have same (row : ServerVisibility) :
      row ∈ (Machine.run VisibilityNet.step twoInstalls sameMillisecond).received false ↔
        row ∈ (Machine.run VisibilityNet.step twoInstalls sameMillisecond).received true := by
    rw [received, received]
    simp only [Bool.false_eq_true, if_false, if_true, List.mem_cons, List.not_mem_nil, or_false]
    tauto
  refine ⟨fun ⟨⟨wins, _⟩, _, _⟩ => ?_, fun ⟨_, ⟨_, _, _, agree, _⟩, _⟩ => ?_, same⟩
  · have taken := wins _ ⟨"home", 4, 9⟩ ⟨"home", 0, 10⟩ rfl (by decide) true
      (by decide)
    exact absurd taken (by decide)
  · have equal := congrFun (agree false true same) "home"
    exact absurd equal (by decide)

end Concorrd
