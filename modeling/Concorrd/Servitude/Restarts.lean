import Concorrd.Lib.Run
import Concorrd.Servitude.Rollback

/-!
# Starting, stopping and asking for health

Runs of calls on a handle. A start that returns without an error leaves some transports up and some
degraded; `stop` then asks every transport, the degraded ones too, and `is_healthy` leaves out
whoever has the name of a degraded one. A libp2p swarm that is not there answers a stop with an
error, so one that failed to start spoils the answer of a stop that did all its work.
`lifecycle_kept_iff` says which runs never meet this.
-/

namespace Concorrd

open Machine

/-- A call on a handle, and what its transports meet. -/
inductive ServitudeCall where
  | start (world : Surroundings)
  | stop (world : Surroundings)
  | isHealthy (world : Surroundings)

/-- A handle, with the calls of the start that brought it up. -/
structure ServitudeRun where
  handle : ServitudeHandle
  up : Option (List TransportCall)

def ServitudeRun.step (s : ServitudeRun) : ServitudeCall → ServitudeRun
  | .start world =>
    let (result, handle, calls) := s.handle.start world
    match result with
    | .ok _ => ⟨handle, some calls⟩
    | .error _ => ⟨handle, s.up⟩
  | .stop world => ⟨(s.handle.stop world).2.1, none⟩
  | .isHealthy _ => s

/-- While the handle is up, a stop asks every transport that came up, works exactly when each of them
stops without an error, and leaves the handle stopped; and the handle is healthy exactly when each of
them is. -/
def ServitudeRun.Keeps (s : ServitudeRun) (call : ServitudeCall) : Prop :=
  match s.up, call with
  | none, _ => True
  | some _, .start _ => True
  | some calls, .stop world =>
    let (result, handle, stops) := s.handle.stop world
    (∀ idx ∈ startedIn calls, idx ∈ stoppedIn stops) ∧
      (result = .ok () ↔ ∀ idx ∈ startedIn calls, .stop idx (.ok ()) ∈ stops) ∧
      handle.lifecycle = .stopped
  | some calls, .isHealthy world =>
    s.handle.isHealthy world = true ↔ ∀ x ∈ s.handle.transports.zipIdx,
      x.2 ∈ startedIn calls → x.1.isHealthy (world.healthy x.2) = true

/-- A stop finds no libp2p among the transports that failed to start, unless it holds a task that
stops, or a transport that came up fails to stop anyway. Where health is asked for, no transport
that came up has the name of one that failed, unless it is healthy, or one with a name of its own is
not. -/
def ServitudeRun.Clear (s : ServitudeRun) (call : ServitudeCall) : Prop :=
  match s.up, call with
  | none, _ => True
  | some _, .start _ => True
  | some calls, .stop world =>
    (∃ x ∈ s.handle.transports.zipIdx,
      x.2 ∈ startedIn calls ∧ (x.1.stop (world.stops x.2)).1 ≠ .ok ()) ∨
    ∀ x ∈ s.handle.transports.zipIdx, x.2 ∈ failedIn calls →
      ∀ swarmTask, x.1 = .libP2p swarmTask → swarmTask = true ∧ world.stops x.2 = .ok ()
  | some calls, .isHealthy world =>
    let shares (x : Slot) : Prop := ∃ y ∈ s.handle.transports.zipIdx,
      y.2 ∈ failedIn calls ∧ y.1.name = x.1.name
    (∃ x ∈ s.handle.transports.zipIdx,
      x.2 ∈ startedIn calls ∧ ¬shares x ∧ x.1.isHealthy (world.healthy x.2) = false) ∨
    ∀ x ∈ s.handle.transports.zipIdx,
      x.2 ∈ startedIn calls → shares x → x.1.isHealthy (world.healthy x.2) = true

/-- What the calls of the last start say of a handle that is up. -/
structure ServitudeHandle.UpSince (h : ServitudeHandle) (calls : List TransportCall) : Prop where
  running : h.lifecycle = .running
  tried : ∀ x ∈ h.transports.zipIdx, x.2 ∉ startedIn calls ↔ x.2 ∈ failedIn calls
  held : ∀ idx ∈ startedIn calls, ∃ x ∈ h.transports.zipIdx, x.2 = idx
  tame : ∀ x ∈ h.transports.zipIdx, x.2 ∈ failedIn calls → x.1.isCritical = false
  degraded : ∀ name, (h.degraded name).isSome ↔
    ∃ x ∈ h.transports.zipIdx, x.2 ∈ failedIn calls ∧ x.1.name = name

/-- A handle is stopped, or up since a start. -/
def ServitudeRun.Settled (s : ServitudeRun) : Prop :=
  match s.up with
  | none => s.handle.lifecycle = .stopped
  | some calls => s.handle.UpSince calls

section

variable {world : Surroundings} {h : ServitudeHandle} {calls : List TransportCall}

/-- The places of a vector whose transports were all tried. -/
theorem mem_zipIdx_next {transports : List TransportRuntime} {y : Slot} :
    y ∈ (transports.zipIdx.map (Slot.next world)).zipIdx ↔
      ∃ x ∈ transports.zipIdx, y = (Slot.next world x, x.2) := by
  rw [List.mem_zipIdx_iff_getElem?, List.getElem?_map, List.getElem?_zipIdx, Option.map_map,
    Option.map_eq_some_iff]
  constructor
  · rintro ⟨t, held, same⟩
    refine ⟨(t, y.2), List.mem_zipIdx_iff_getElem?.mpr held, ?_⟩
    rw [Function.comp_apply, Nat.zero_add] at same
    rw [same]
  · rintro ⟨x, hx, rfl⟩
    refine ⟨x.1, List.mem_zipIdx_iff_getElem?.mp hx, ?_⟩
    rw [Function.comp_apply, Nat.zero_add]

/-- A start that works leaves the handle up. -/
theorem upSince_start (tolerated : ∀ x ∈ h.transports.zipIdx, ¬Slot.Fatal world x) :
    ServitudeHandle.UpSince ⟨.running, h.transports.zipIdx.map (Slot.next world),
      h.transports.zipIdx.foldl (Slot.note world) fun _ => none⟩
      (h.transports.zipIdx.map (Slot.call world)) := by
  have started {x : Slot} (hx : x ∈ h.transports.zipIdx) :
      x.2 ∈ startedIn (h.transports.zipIdx.map (Slot.call world)) ↔ x.Starts world := by
    rw [mem_startedIn_iff]
    constructor
    · rintro ⟨y, hy, up, place⟩
      exact eq_of_place hy hx place ▸ up
    · exact fun up => ⟨x, hx, up, rfl⟩
  have failed {x : Slot} (hx : x ∈ h.transports.zipIdx) :
      x.2 ∈ failedIn (h.transports.zipIdx.map (Slot.call world)) ↔ ¬x.Starts world := by
    rw [mem_failedIn_iff]
    constructor
    · rintro ⟨y, hy, down, place⟩
      exact eq_of_place hy hx place ▸ down
    · exact fun down => ⟨x, hx, down, rfl⟩
  refine ⟨rfl, ?_, ?_, ?_, ?_⟩
  · intro y hy
    obtain ⟨x, hx, rfl⟩ := mem_zipIdx_next.mp hy
    exact (not_congr (started hx)).trans (failed hx).symm
  · intro idx mem
    obtain ⟨x, hx, -, place⟩ := mem_startedIn_iff.mp mem
    exact ⟨_, mem_zipIdx_next.mpr ⟨x, hx, rfl⟩, place⟩
  · intro y hy down
    obtain ⟨x, hx, rfl⟩ := mem_zipIdx_next.mp hy
    rw [show (Slot.next world x).isCritical = x.1.isCritical from
      TransportRuntime.isCritical_start (world.starts x.2) x.1]
    exact Bool.eq_false_iff.mpr fun critical => tolerated x hx ⟨(failed hx).mp down, critical⟩
  · intro name
    refine (isSome_foldl_note _ _).trans ?_
    constructor
    · rintro (⟨⟨⟩⟩ | ⟨x, hx, down, same⟩)
      refine ⟨_, mem_zipIdx_next.mpr ⟨x, hx, rfl⟩, (failed hx).mpr down, ?_⟩
      exact (TransportRuntime.name_start (world.starts x.2) x.1).trans same
    · rintro ⟨y, hy, down, same⟩
      obtain ⟨x, hx, rfl⟩ := mem_zipIdx_next.mp hy
      refine .inr ⟨x, hx, (failed hx).mp down, ?_⟩
      exact (TransportRuntime.name_start (world.starts x.2) x.1).symm.trans same

theorem settled_step {s : ServitudeRun} (settled : s.Settled) (call : ServitudeCall) :
    (s.step call).Settled := by
  obtain ⟨handle, up⟩ := s
  cases call with
  | start world =>
    cases up with
    | none =>
      have stopped : handle.lifecycle = .stopped := settled
      rcases handle.start_cases world stopped with ⟨tolerated, result⟩ |
        ⟨before, x, rest, e, -, -, -, -, result⟩
      · simp only [ServitudeRun.step, result]
        exact upSince_start tolerated
      · simp only [ServitudeRun.step, result]
        rfl
    | some calls =>
      have running : handle.lifecycle = .running := settled.running
      have refused : handle.start world = (.error .alreadyRunning, handle, []) :=
        if_pos (by rw [running]; rintro ⟨⟩)
      simp only [ServitudeRun.step, refused]
      exact settled
  | stop world =>
    show (handle.stop world).2.1.lifecycle = .stopped
    cases up with
    | none =>
      have stopped : handle.lifecycle = .stopped := settled
      have refused : handle.stop world = (.error .notRunning, handle, []) :=
        if_pos (by rw [stopped]; rintro ⟨⟩)
      rw [refused]
      exact stopped
    | some calls => rw [(handle.stop_of_running world settled.running).1]
  | isHealthy world => exact settled

/-- Of the transports that are not critical, only libp2p may answer a stop with an error. -/
theorem stop_tame_iff {t : TransportRuntime} (tame : t.isCritical = false)
    (answer : Except TransportError Unit) : (t.stop answer).1 = .ok () ↔
      ∀ swarmTask, t = .libP2p swarmTask → swarmTask = true ∧ answer = .ok () := by
  cases t with
  | libP2p swarmTask =>
    cases swarmTask with
    | false => exact iff_of_false (by rintro ⟨⟩) fun all => absurd (all false rfl).1 (by decide)
    | true =>
      refine ⟨fun works task same => ?_, fun all => (all true rfl).2⟩
      cases same
      exact ⟨rfl, works⟩
  | reticulum child => exact iff_of_true rfl (by rintro _ ⟨⟩)
  | noopNonCritical => exact iff_of_true rfl (by rintro _ ⟨⟩)
  | failingNonCritical => exact iff_of_true rfl (by rintro _ ⟨⟩)
  | _ => cases tame

theorem stop_keeps_iff (up : h.UpSince calls) (world : Surroundings) :
    (ServitudeRun.mk h (some calls)).Keeps (.stop world) ↔
      (ServitudeRun.mk h (some calls)).Clear (.stop world) := by
  obtain ⟨left, works⟩ := h.stop_of_running world up.running
  have stops {x : Slot} (hx : x ∈ h.transports.zipIdx) : .stop x.2 (.ok ()) ∈
      (stopDown world.stops h.transports.length h.transports).1 ↔
        (x.1.stop (world.stops x.2)).1 = .ok () := by
    rw [mem_stopDown_iff _ (Nat.le_refl _)]
    constructor
    · rintro ⟨y, hy, -, same⟩
      obtain ⟨place, answer⟩ := TransportCall.stop.inj same
      rw [eq_of_place hx hy place, answer]
    · intro answer
      refine ⟨x, hx, ?_, by rw [answer]⟩
      exact (List.getElem?_eq_some_iff.mp (List.mem_zipIdx_iff_getElem?.mp hx)).1
  have asked : ∀ idx ∈ startedIn calls,
      idx ∈ stoppedIn (stopDown world.stops h.transports.length h.transports).1 := by
    intro idx mem
    obtain ⟨x, hx, rfl⟩ := up.held idx mem
    rw [stoppedIn_stopDown _ (Nat.le_refl _), List.mem_reverse, List.mem_range]
    exact (List.getElem?_eq_some_iff.mp (List.mem_zipIdx_iff_getElem?.mp hx)).1
  -- Every transport came up or failed; those that came up are the ones the promise is about.
  let A := ∀ x ∈ h.transports.zipIdx, x.2 ∈ startedIn calls → (x.1.stop (world.stops x.2)).1 = .ok ()
  let B := ∀ x ∈ h.transports.zipIdx, x.2 ∈ failedIn calls → (x.1.stop (world.stops x.2)).1 = .ok ()
  have all_iff : (h.stop world).1 = .ok () ↔ A ∧ B := by
    rw [works]
    constructor
    · exact fun all => ⟨fun x hx _ => all x hx, fun x hx _ => all x hx⟩
    · rintro ⟨up_ok, down_ok⟩ x hx
      by_cases mem : x.2 ∈ startedIn calls
      · exact up_ok x hx mem
      · exact down_ok x hx ((up.tried x hx).mp mem)
  have started_iff : (∀ idx ∈ startedIn calls, .stop idx (.ok ()) ∈
      (stopDown world.stops h.transports.length h.transports).1) ↔ A := by
    constructor
    · exact fun all x hx mem => (stops hx).mp (all x.2 mem)
    · intro ok idx mem
      obtain ⟨x, hx, rfl⟩ := up.held idx mem
      exact (stops hx).mpr (ok x hx mem)
  have clear_iff : (ServitudeRun.mk h (some calls)).Clear (.stop world) ↔ ¬A ∨ B := by
    refine or_congr ?_ ?_
    · simp only [A, not_forall, exists_prop, ne_eq]
    · refine forall_congr' fun x => forall_congr' fun hx => forall_congr' fun mem => ?_
      exact (stop_tame_iff (up.tame x hx mem) _).symm
  rw [clear_iff]
  rcases hstop : h.stop world with ⟨result, handle, calls'⟩
  rw [hstop] at left all_iff
  cases left
  simp only [ServitudeRun.Keeps, hstop]
  rw [all_iff, started_iff]
  constructor
  · rintro ⟨-, same, -⟩
    by_cases ok : A
    · exact .inr (same.mpr ok).2
    · exact .inl ok
  · rintro clear
    refine ⟨asked, ⟨And.left, fun ok => ⟨ok, clear.resolve_left (not_not.mpr ok)⟩⟩, trivial⟩

theorem isHealthy_keeps_iff (up : h.UpSince calls) (world : Surroundings) :
    (ServitudeRun.mk h (some calls)).Keeps (.isHealthy world) ↔
      (ServitudeRun.mk h (some calls)).Clear (.isHealthy world) := by
  have healthy_iff : h.isHealthy world = true ↔ ∀ x ∈ h.transports.zipIdx,
      (∃ y ∈ h.transports.zipIdx, y.2 ∈ failedIn calls ∧ y.1.name = x.1.name) ∨
        x.1.isHealthy (world.healthy x.2) = true := by
    unfold ServitudeHandle.isHealthy
    rw [if_neg (not_not.mpr up.running), List.all_eq_true]
    refine forall_congr' fun x => forall_congr' fun hx => ?_
    rw [Bool.or_eq_true, up.degraded]
  show (h.isHealthy world = true ↔ _) ↔ _
  rw [healthy_iff]
  constructor
  · intro same
    by_cases own : ∃ x ∈ h.transports.zipIdx, x.2 ∈ startedIn calls ∧
        (¬∃ y ∈ h.transports.zipIdx, y.2 ∈ failedIn calls ∧ y.1.name = x.1.name) ∧
          x.1.isHealthy (world.healthy x.2) = false
    · exact .inl own
    · refine .inr fun x hx mem _ => same.mp (fun y hy => ?_) x hx mem
      by_cases shares : ∃ z ∈ h.transports.zipIdx, z.2 ∈ failedIn calls ∧ z.1.name = y.1.name
      · exact .inl shares
      · refine .inr (Bool.not_eq_false _ ▸ fun ill => own ⟨y, hy, ?_, shares, ill⟩)
        by_contra down
        exact shares ⟨y, hy, (up.tried y hy).mp down, rfl⟩
  · rintro (⟨x, hx, mem, own, ill⟩ | shared)
    · refine iff_of_false (fun all => ?_) fun all => ?_
      · rcases all x hx with shares | well
        · exact own shares
        · exact absurd (ill.symm.trans well) (by decide)
      · exact absurd (ill.symm.trans (all x hx mem)) (by decide)
    · constructor
      · intro all x hx mem
        rcases all x hx with shares | well
        · exact shared x hx mem shares
        · exact well
      · intro all x hx
        by_cases mem : x.2 ∈ startedIn calls
        · exact .inr (all x hx mem)
        · exact .inl ⟨x, hx, (up.tried x hx).mp mem, rfl⟩

/-- A run of calls on a handle that is stopped keeps its promise at each call exactly when it is
clear of the two cases in which one does not. -/
theorem lifecycle_kept_iff (h : ServitudeHandle) (stopped : h.lifecycle = .stopped)
    (calls : List ServitudeCall) :
    Along ServitudeRun.step ServitudeRun.Keeps ⟨h, none⟩ calls ↔
      Along ServitudeRun.step ServitudeRun.Clear ⟨h, none⟩ calls := by
  refine along_congr ServitudeRun.Settled (fun s call settled => settled_step settled call) ?_ stopped
  rintro ⟨handle, up⟩ call settled
  cases up with
  | none => exact Iff.rfl
  | some tried =>
    cases call with
    | start world => exact Iff.rfl
    | stop world => exact stop_keeps_iff settled world
    | isHealthy world => exact isHealthy_keeps_iff settled world

end

/-- A homeserver and the swarm, both down. -/
def hostHandle : ServitudeHandle :=
  ⟨.stopped, [.matrixFederation false, .libP2p false], fun _ => none⟩

def portTaken : Surroundings where
  starts idx := if idx = 1 then .fails (.libP2p "listen failed: address in use") else .comesUp
  stops _ := .ok ()
  healthy _ := true

theorem lifecycle_kept_iff_host :
    Along ServitudeRun.step ServitudeRun.Keeps ⟨hostHandle, none⟩ [.start portTaken, .stop portTaken] ↔
      Along ServitudeRun.step ServitudeRun.Clear ⟨hostHandle, none⟩
        [.start portTaken, .stop portTaken] :=
  lifecycle_kept_iff hostHandle rfl [.start portTaken, .stop portTaken]

/-- The homeserver stops without an error, and the stop is reported as failed. -/
theorem stop_blames_absent_swarm : ¬∀ (h : ServitudeHandle), h.lifecycle = .stopped →
    ∀ calls, Along ServitudeRun.step ServitudeRun.Keeps ⟨h, none⟩ calls := by
  intro all
  have kept := (all hostHandle rfl [.start portTaken, .stop portTaken]).2.1
  have same : (Except.error (.transport .notRunning) : Except ServitudeError Unit) = .ok () ↔
      ∀ idx ∈ [0], TransportCall.stop idx (.ok ()) ∈
        [.stop 1 (.error .notRunning), .stop 0 (.ok ())] := kept.2.1
  refine absurd (same.mpr fun idx mem => ?_) (by rintro ⟨⟩)
  rw [List.mem_singleton.mp mem]
  exact List.mem_cons_of_mem _ List.mem_cons_self

end Concorrd
