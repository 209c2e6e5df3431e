import Mathlib.Logic.Function.Basic
import Concorrd.Lib.Run

/-!
# The participants of a voice room

The lookups of `routers/voice.py` within one worker: a cache with a time to live, and one fetch for all who ask
for a room at a time. A caller waits for the fetch itself, so cancelling the caller cancels the fetch, and with
it every other caller that waits for it (`participants_lookup`).
-/

namespace Concorrd.Participants

structure VoiceParticipant where
  identity : String
  name : String
  deriving DecidableEq

/-- `_PARTICIPANTS_TTL_S`, in nanoseconds. -/
def ttl : Nat := 5000000000

/-- What the fetch leaves its body with when the client is closed. -/
inductive Leaving where
  | data (data : List VoiceParticipant)
  | exception
  | cancelled

/-- How a fetch ends: with the answer, with the empty list that stands for an exception, or cancelled. -/
inductive Outcome where
  | fetched (data : List VoiceParticipant)
  | failed
  | cancelled

inductive FetchPhase where
  | created
  | asking
  | closing (leaving : Leaving)
  | done (finished : Nat) (outcome : Outcome)

/-- The task of a fetch, with a cancellation that it has still to be told of. -/
structure Fetch where
  room : String
  cancelling : Bool
  phase : FetchPhase

/-- A caller waits for a fetch, and perhaps to be told of its own cancellation; or it has its answer, and when;
or it was cancelled. -/
inductive CallerPhase where
  | waiting (fetch : Nat) (interrupted : Bool)
  | answered (data : List VoiceParticipant) (since : Nat)
  | failed

structure Caller where
  room : String
  cancelled : Bool
  phase : CallerPhase

/-- What a fetch meets when it goes on: a response, or an exception. -/
inductive Turn where
  | goes (response : List VoiceParticipant)
  | raises

structure Worker where
  now : Nat
  cache : String → Option (Nat × List VoiceParticipant)
  inflight : String → Option Nat
  fetches : Nat → Option Fetch
  created : Nat
  callers : Nat → Option Caller

/-! ## The steps -/

def Leaving.outcome : Leaving → Outcome
  | .data got => .fetched got
  | .exception => .failed
  | .cancelled => .cancelled

/-- What those get who wait for the fetch. -/
def Outcome.answer : Outcome → Option (List VoiceParticipant)
  | .fetched data => some data
  | .failed => some []
  | .cancelled => none

def FetchPhase.isDone : FetchPhase → Bool
  | .done .. => true
  | .created | .asking | .closing _ => false

/-- The fetch goes on, or it ends; one that was entered takes itself off the list of those in flight. -/
inductive FetchStep where
  | on (fetch : Fetch)
  | ends (outcome : Outcome) (entered : Bool)

def Fetch.turn (f : Fetch) (t : Turn) : FetchStep :=
  match f.phase with
  | .created =>
    -- a task that is cancelled before its first step is never entered
    if f.cancelling then .ends .cancelled false
    else match t with
      | .raises => .ends .failed true
      | .goes _ => .on { f with phase := .asking }
  | .asking =>
    if f.cancelling then .on { f with cancelling := false, phase := .closing .cancelled }
    else match t with
      | .raises => .on { f with phase := .closing .exception }
      | .goes response => .on { f with phase := .closing (.data response) }
  | .closing leaving =>
    -- what closing the client raises takes the place of what the body left with
    if f.cancelling then .ends .cancelled true
    else match t with
      | .raises => .ends .failed true
      | .goes _ => .ends leaving.outcome true
  | .done .. => .on f

namespace Worker

/-- No one has asked yet. -/
def idle (now : Nat) : Worker := ⟨now, fun _ => none, fun _ => none, fun _ => none, 0, fun _ => none⟩

variable (s : Worker)

/-- The fetch is there and not done. -/
def running (t : Nat) : Bool := (s.fetches t).any fun f => !f.phase.isDone

def setCaller (c : Nat) (k : Caller) : Worker := { s with callers := Function.update s.callers c (some k) }

def setFetch (t : Nat) (f : Fetch) : Worker := { s with fetches := Function.update s.fetches t (some f) }

/-- The data of the cache, if it has not expired. -/
def cached (room : String) : Option (List VoiceParticipant) :=
  ((s.cache room).filter fun entry => s.now < entry.1).map Prod.snd

/-- The fetch for the room that others wait for. -/
def existing (room : String) : Option Nat := (s.inflight room).filter s.running

/-- A fetch for the room is created and put on the list of those in flight. -/
def create (room : String) : Worker :=
  { s.setFetch s.created ⟨room, false, .created⟩ with
    inflight := Function.update s.inflight room (some s.created)
    created := s.created + 1 }

/-- `_fetch_room_participants_cached` up to its first await. -/
def lookUp (c : Nat) (room : String) : Worker :=
  match s.cached room with
  | some data => s.setCaller c ⟨room, false, .answered data s.now⟩
  | none =>
    match s.existing room with
    | some t => s.setCaller c ⟨room, false, .waiting t false⟩
    | none => (s.create room).setCaller c ⟨room, false, .waiting s.created false⟩

/-- What is left of a fetch that ended. -/
def finish (t : Nat) (f : Fetch) (outcome : Outcome) (entered : Bool) : Worker :=
  { s.setFetch t { f with phase := .done s.now outcome } with
    inflight := if entered then Function.update s.inflight f.room none else s.inflight
    cache :=
      match outcome with
      | .fetched data => Function.update s.cache f.room (some (s.now + ttl, data))
      | .failed | .cancelled => s.cache }

/-- The loop runs the task of a fetch up to its next await. -/
def runFetch (t : Nat) (turn : Turn) : Worker :=
  match s.fetches t with
  | none => s
  | some f =>
    match f.turn turn with
    | .on f => s.setFetch t f
    | .ends outcome entered => s.finish t f outcome entered

/-- Cancelling a caller cancels what it waits for, if that is not done. -/
def cancel (c : Nat) : Worker :=
  match s.callers c with
  | some ⟨room, _, .waiting t interrupted⟩ =>
    match (s.fetches t).filter fun f => !f.phase.isDone with
    | some f => (s.setFetch t { f with cancelling := true }).setCaller c ⟨room, true, .waiting t interrupted⟩
    | none => s.setCaller c ⟨room, true, .waiting t true⟩
  | _ => s

/-- A caller goes on when the fetch that it waits for is done. -/
def wake (c : Nat) : Worker :=
  match s.callers c with
  | some ⟨room, cancelled, .waiting t interrupted⟩ =>
    match (s.fetches t).map Fetch.phase with
    | some (.done _ outcome) =>
      match outcome.answer with
      | some data => s.setCaller c ⟨room, cancelled, if interrupted then .failed else .answered data s.now⟩
      | none => s.setCaller c ⟨room, cancelled, .failed⟩
    | _ => s
  | _ => s

end Worker

inductive LookupEvent where
  | call (caller : Nat) (room : String)
  | fetch (t : Nat) (turn : Turn)
  | cancel (caller : Nat)
  | wake (caller : Nat)
  | tick (d : Nat)

/-- A caller calls once. -/
def Worker.step (s : Worker) : LookupEvent → Worker
  | .call c room => if (s.callers c).isSome then s else s.lookUp c room
  | .fetch t turn => s.runFetch t turn
  | .cancel c => s.cancel c
  | .wake c => s.wake c
  | .tick d => { s with now := s.now + d }

/-! ## What is asked of them -/

namespace Worker

variable (s : Worker)

/-- There is at most one fetch for a room that is not done. -/
def SingleFlight : Prop := ∀ t t' f f', s.fetches t = some f → s.fetches t' = some f' →
  f.phase.isDone = false → f'.phase.isDone = false → f.room = f'.room → t = t'

/-- What is cached is what a fetch for the room got. -/
def CachesFetched : Prop := ∀ room entry, s.cache room = some entry → ∃ t f finished,
  s.fetches t = some f ∧ f.room = room ∧ f.phase = .done finished (.fetched entry.2)

/-- The data is what a fetch for the room answered with that finished no longer than the time to live before. -/
def FetchedBy (room : String) (data : List VoiceParticipant) (since : Nat) : Prop :=
  ∃ t f finished outcome, s.fetches t = some f ∧ f.room = room ∧ f.phase = .done finished outcome ∧
    outcome.answer = some data ∧ finished ≤ since ∧ since ≤ finished + ttl

/-- Every answer was fetched in time. -/
def AnswersFresh : Prop := ∀ c k data since, s.callers c = some k → k.phase = .answered data since →
  s.FetchedBy k.room data since

/-- Who fails was cancelled. -/
def OnlyCancelledFail : Prop := ∀ c k, s.callers c = some k → k.phase = .failed → k.cancelled = true

/-- A caller gets its answer before the time to live of the fetch is over. -/
def Prompt : LookupEvent → Prop
  | .wake c => ∀ k t f finished outcome data, s.callers c = some k → k.phase = .waiting t false →
      s.fetches t = some f → f.phase = .done finished outcome → outcome.answer = some data →
        s.now ≤ finished + ttl
  | _ => True

end Worker

/-- The fetch is told to end, or will be, and has not come to an answer since. -/
def Fetch.doomed (f : Fetch) : Bool :=
  match f.phase with
  | .done _ .cancelled => true
  | .done _ _ => false
  | .closing .cancelled => true
  | _ => f.cancelling

/-- No caller is cancelled while another one waits for the same fetch, and no one joins a fetch whose caller was
cancelled. -/
def Worker.SharesNoCancel (s : Worker) : LookupEvent → Prop
  | .cancel c => ∀ k t i, s.callers c = some k → k.phase = .waiting t i → s.running t = true →
      ∀ c' k' i', c' ≠ c → s.callers c' = some k' → k'.phase = .waiting t i' → k'.cancelled = true
  | .call _ room => s.cached room = none → ∀ t f, s.existing room = some t → s.fetches t = some f → f.doomed = false
  | _ => True

/-! ## One step -/

namespace Worker

variable {s : Worker} {e : LookupEvent} {c t : Nat} {room : String} {f : Fetch} {k : Caller}

theorem setCaller_eq_some {c' : Nat} {k' : Caller} (there : (s.setCaller c k).callers c' = some k') :
    c' = c ∧ k' = k ∨ c' ≠ c ∧ s.callers c' = some k' := by
  replace there : Function.update s.callers c (some k) c' = some k' := there
  by_cases here : c' = c
  · rw [here, Function.update_self] at there
    exact .inl ⟨here, (Option.some.inj there).symm⟩
  · rw [Function.update_of_ne here] at there
    exact .inr ⟨here, there⟩

theorem setFetch_eq_some {t' : Nat} {f' : Fetch} (there : (s.setFetch t f).fetches t' = some f') :
    t' = t ∧ f' = f ∨ t' ≠ t ∧ s.fetches t' = some f' := by
  replace there : Function.update s.fetches t (some f) t' = some f' := there
  by_cases here : t' = t
  · rw [here, Function.update_self] at there
    exact .inl ⟨here, (Option.some.inj there).symm⟩
  · rw [Function.update_of_ne here] at there
    exact .inr ⟨here, there⟩

theorem setFetch_self (t : Nat) (f : Fetch) : (s.setFetch t f).fetches t = some f := Function.update_self _ _ _

theorem setFetch_of_ne {t' : Nat} (other : t' ≠ t) (f : Fetch) : (s.setFetch t f).fetches t' = s.fetches t' :=
  Function.update_of_ne other _ _

/-- What holds in every state. -/
structure Sound (s : Worker) : Prop where
  fresh : ∀ t, s.created ≤ t → s.fetches t = none
  registered : ∀ t f, s.fetches t = some f → f.phase.isDone = false → s.inflight f.room = some t
  known : ∀ room t, s.inflight room = some t → ∃ f, s.fetches t = some f ∧ f.room = room
  past : ∀ t f finished outcome, s.fetches t = some f → f.phase = .done finished outcome → finished ≤ s.now
  cache : ∀ room entry, s.cache room = some entry → ∃ t f finished, s.fetches t = some f ∧ f.room = room ∧
    f.phase = .done finished (.fetched entry.2) ∧ entry.1 = finished + ttl
  waiting : ∀ c k t i, s.callers c = some k → k.phase = .waiting t i →
    ∃ f, s.fetches t = some f ∧ f.room = k.room

/-- Fetches stay, for their rooms, and those that are done as they are. -/
def Keeps (s s' : Worker) : Prop := ∀ t f, s.fetches t = some f →
  ∃ f', s'.fetches t = some f' ∧ f'.room = f.room ∧ (f.phase.isDone = true → f' = f)

theorem Keeps.of_eq {s' : Worker} (same : s'.fetches = s.fetches) : Keeps s s' :=
  fun _ f there => ⟨f, same ▸ there, rfl, fun _ => rfl⟩

theorem Keeps.done {s' : Worker} (keeps : Keeps s s') {finished : Nat} {outcome : Outcome} (there : s.fetches t = some f)
    (done : f.phase = .done finished outcome) : s'.fetches t = some f := by
  obtain ⟨f', there', -, same⟩ := keeps t f there
  rw [there', same (by rw [done]; rfl)]

/-- A fetch that is not done is changed. -/
theorem keeps_setFetch {s' : Worker} {f' : Fetch} (there : s.fetches t = some f) (room : f'.room = f.room)
    (notDone : f.phase.isDone = true → f' = f) (changed : s'.fetches = (s.setFetch t f').fetches) : Keeps s s' := by
  intro t' g there'
  rw [changed]
  by_cases here : t' = t
  · subst here
    cases there.symm.trans there'
    exact ⟨f', setFetch_self _ _, room, notDone⟩
  · exact ⟨g, by rw [setFetch_of_ne here, there'], rfl, fun _ => rfl⟩

theorem sound_idle (now : Nat) : (idle now).Sound where
  fresh _ _ := rfl
  registered _ _ there := by cases there
  known _ _ there := by cases there
  past _ _ _ _ there := by cases there
  cache _ _ there := by cases there
  waiting _ _ _ _ there := by cases there

/-- What a fetch that goes on may become. -/
theorem turn_on {turn : Turn} {f' : Fetch} (went : f.turn turn = .on f') :
    f'.room = f.room ∧ (f.phase.isDone = true → f' = f) ∧ (f'.phase.isDone = f.phase.isDone) ∧
      (f.doomed = false → f'.doomed = false) := by
  obtain ⟨room, cancelling, phase⟩ := f
  cases phase with
  | created =>
    cases cancelling <;> cases turn <;> cases went
    simp [FetchPhase.isDone, Fetch.doomed]
  | asking => cases cancelling <;> cases turn <;> cases went <;> simp [FetchPhase.isDone, Fetch.doomed]
  | closing leaving => cases cancelling <;> cases turn <;> cases went
  | done finished outcome =>
    cases went
    exact ⟨rfl, fun _ => rfl, rfl, id⟩

theorem turn_ends {turn : Turn} {outcome : Outcome} {entered : Bool} (ended : f.turn turn = .ends outcome entered) :
    f.phase.isDone = false ∧ (f.doomed = false → outcome.answer.isSome = true) := by
  obtain ⟨room, cancelling, phase⟩ := f
  cases phase with
  | created =>
    cases cancelling <;> cases turn <;> cases ended <;> simp [FetchPhase.isDone, Fetch.doomed, Outcome.answer]
  | asking => cases cancelling <;> cases turn <;> cases ended
  | closing leaving =>
    cases cancelling <;> cases turn <;> cases ended <;> cases leaving <;>
      simp [FetchPhase.isDone, Fetch.doomed, Outcome.answer, Leaving.outcome]
  | done finished outcome => cases ended

/-! ### The primitives -/

theorem cached_eq_some {data : List VoiceParticipant} (found : s.cached room = some data) :
    ∃ entry, s.cache room = some entry ∧ s.now < entry.1 ∧ entry.2 = data := by
  obtain ⟨entry, kept, same⟩ := Option.map_eq_some_iff.mp found
  obtain ⟨there, valid⟩ := Option.filter_eq_some_iff.mp kept
  exact ⟨entry, there, of_decide_eq_true valid, same⟩

theorem existing_eq_some (sound : s.Sound) (found : s.existing room = some t) :
    ∃ f, s.fetches t = some f ∧ f.room = room ∧ f.phase.isDone = false := by
  obtain ⟨there, running⟩ := Option.filter_eq_some_iff.mp found
  obtain ⟨f, here, own⟩ := sound.known room t there
  rw [Worker.running, here] at running
  exact ⟨f, here, own, by simpa using running⟩

theorem sound_setCaller (sound : s.Sound) (c : Nat)
    (waiting : ∀ t i, k.phase = .waiting t i → ∃ f, s.fetches t = some f ∧ f.room = k.room) :
    (s.setCaller c k).Sound where
  fresh := sound.fresh
  registered := sound.registered
  known := sound.known
  past := sound.past
  cache := sound.cache
  waiting c' k' t i there phase := by
    rcases setCaller_eq_some there with ⟨-, rfl⟩ | ⟨-, there⟩
    · exact waiting t i phase
    · exact sound.waiting c' k' t i there phase

theorem Keeps.known {s' : Worker} (keeps : Keeps s s') (there : ∃ f, s.fetches t = some f ∧ f.room = room) :
    ∃ f, s'.fetches t = some f ∧ f.room = room := by
  obtain ⟨f, there, own⟩ := there
  obtain ⟨f', there', same, -⟩ := keeps t f there
  exact ⟨f', there', same.trans own⟩

theorem ne_created (sound : s.Sound) (there : s.fetches t = some f) : t ≠ s.created := by
  rintro rfl
  rw [sound.fresh _ le_rfl] at there
  cases there

theorem keeps_create (sound : s.Sound) (room : String) : Keeps s (s.create room) := fun _ f there =>
  ⟨f, (setFetch_of_ne (ne_created sound there) _).trans there, rfl, fun _ => rfl⟩

/-- A new fetch, where none for the room is running. -/
theorem sound_create (sound : s.Sound) (idle : s.existing room = none) : (s.create room).Sound where
  fresh t new := by
    have later : s.created + 1 ≤ t := new
    rw [create, setFetch_of_ne (by omega)]
    exact sound.fresh t (by omega)
  registered t f there running := by
    show Function.update s.inflight room (some s.created) f.room = some t
    rcases setFetch_eq_some there with ⟨rfl, rfl⟩ | ⟨-, old⟩
    · exact Function.update_self _ _ _
    · have listed := sound.registered t f old running
      have apart : f.room ≠ room := by
        rintro rfl
        have runs : s.running t = true := by simp [Worker.running, old, running]
        exact Option.some_ne_none t ((Option.filter_eq_some_iff.mpr ⟨listed, runs⟩).symm.trans idle)
      rw [Function.update_of_ne apart]
      exact listed
  known room' t listed := by
    replace listed : Function.update s.inflight room (some s.created) room' = some t := listed
    by_cases here : room' = room
    · rw [here, Function.update_self] at listed
      cases listed
      exact ⟨_, setFetch_self _ _, here.symm⟩
    · rw [Function.update_of_ne here] at listed
      exact (keeps_create sound room).known (sound.known room' t listed)
  past t f finished outcome there done := by
    rcases setFetch_eq_some there with ⟨rfl, rfl⟩ | ⟨-, there⟩
    · cases done
    · exact sound.past t f finished outcome there done
  cache room' entry cached := by
    obtain ⟨t, f, finished, there, own, done, expires⟩ := sound.cache room' entry cached
    exact ⟨t, f, finished, (keeps_create sound room).done there done, own, done, expires⟩
  waiting c k t i caller phase := (keeps_create sound room).known (sound.waiting c k t i caller phase)

theorem sound_setFetch {f' : Fetch} (sound : s.Sound) (there : s.fetches t = some f) (room : f'.room = f.room)
    (done : f.phase.isDone = true → f' = f) (same : f'.phase.isDone = f.phase.isDone) : (s.setFetch t f').Sound := by
  have keeps : Keeps s (s.setFetch t f') := keeps_setFetch there room done rfl
  constructor
  case fresh =>
    intro t' new
    have apart : t' ≠ t := by
      rintro rfl
      rw [sound.fresh _ new] at there
      cases there
    rw [setFetch_of_ne apart]
    exact sound.fresh t' new
  case registered =>
    intro t' g there' running
    rcases setFetch_eq_some there' with ⟨rfl, rfl⟩ | ⟨-, there'⟩
    · rw [room]
      exact sound.registered _ f there (same ▸ running)
    · exact sound.registered t' g there' running
  case known => exact fun room' t' listed => keeps.known (sound.known room' t' listed)
  case past =>
    intro t' g finished outcome there' ended
    rcases setFetch_eq_some there' with ⟨rfl, rfl⟩ | ⟨-, there'⟩
    · have done := done (by rw [← same, ended]; rfl)
      exact sound.past _ f finished outcome there (done ▸ ended)
    · exact sound.past t' g finished outcome there' ended
  case cache =>
    intro room' entry cached
    obtain ⟨t', g, finished, known, own, ended, expires⟩ := sound.cache room' entry cached
    exact ⟨t', g, finished, keeps.done known ended, own, ended, expires⟩
  case waiting => exact fun c k t' i caller phase => keeps.known (sound.waiting c k t' i caller phase)

section
variable {outcome : Outcome} {entered : Bool}

theorem keeps_finish (there : s.fetches t = some f) (running : f.phase.isDone = false) :
    Keeps s (s.finish t f outcome entered) := by
  refine keeps_setFetch there ?_ ?_ rfl
  · rfl
  · simp [running]

theorem inflight_finish {t' : Nat} (listed : (s.finish t f outcome entered).inflight room = some t') :
    s.inflight room = some t' := by
  cases entered with
  | false => exact listed
  | true =>
    replace listed : Function.update s.inflight f.room none room = some t' := listed
    by_cases here : room = f.room
    · rw [here, Function.update_self] at listed
      cases listed
    · rwa [Function.update_of_ne here] at listed

theorem cache_finish {entry : Nat × List VoiceParticipant}
    (cached : (s.finish t f outcome entered).cache room = some entry) :
    s.cache room = some entry ∨ room = f.room ∧ outcome = .fetched entry.2 ∧ entry.1 = s.now + ttl := by
  cases outcome with
  | failed => exact .inl cached
  | cancelled => exact .inl cached
  | fetched data =>
    replace cached : Function.update s.cache f.room (some (s.now + ttl, data)) room = some entry := cached
    by_cases here : room = f.room
    · rw [here, Function.update_self] at cached
      cases cached
      exact .inr ⟨here, rfl, rfl⟩
    · rw [Function.update_of_ne here] at cached
      exact .inl cached

theorem sound_finish (sound : s.Sound) (there : s.fetches t = some f) (running : f.phase.isDone = false) :
    (s.finish t f outcome entered).Sound := by
  have keeps : Keeps s (s.finish t f outcome entered) := keeps_finish there running
  constructor
  case fresh =>
    intro t' new
    have apart : t' ≠ t := by
      rintro rfl
      rw [sound.fresh _ new] at there
      cases there
    exact (setFetch_of_ne apart _).trans (sound.fresh t' new)
  case registered =>
    intro t' g there' runs
    rcases setFetch_eq_some there' with ⟨rfl, rfl⟩ | ⟨apart, there'⟩
    · cases runs
    · have listed := sound.registered t' g there' runs
      have other : g.room ≠ f.room := by
        intro same
        have mine := sound.registered t f there running
        rw [← same, listed] at mine
        exact apart (Option.some.inj mine)
      cases entered with
      | false => exact listed
      | true => exact (Function.update_of_ne other _ _).trans listed
  case known => exact fun room t' listed => keeps.known (sound.known room t' (inflight_finish listed))
  case past =>
    intro t' g finished outcome' there' ended
    rcases setFetch_eq_some there' with ⟨rfl, rfl⟩ | ⟨-, there'⟩
    · cases ended
      exact le_rfl
    · exact sound.past t' g finished outcome' there' ended
  case cache =>
    intro room entry cached
    rcases cache_finish cached with cached | ⟨own, fetched, expires⟩
    · obtain ⟨t', g, finished, known, own, ended, expires⟩ := sound.cache room entry cached
      exact ⟨t', g, finished, keeps.done known ended, own, ended, expires⟩
    · exact ⟨t, _, s.now, setFetch_self _ _, own.symm, by rw [fetched], expires⟩
  case waiting => exact fun c k t' i caller phase => keeps.known (sound.waiting c k t' i caller phase)

end

/-! ### The events -/

theorem sound_lookUp (sound : s.Sound) (c : Nat) (room : String) : (s.lookUp c room).Sound := by
  rw [lookUp]
  split
  · exact sound_setCaller sound c fun t i phase => by cases phase
  split
  · rename_i t found
    refine sound_setCaller sound c fun t' i phase => ?_
    cases phase
    obtain ⟨f, there, own, -⟩ := existing_eq_some sound found
    exact ⟨f, there, own⟩
  · rename_i idle
    refine sound_setCaller (sound_create sound idle) c fun t' i phase => ?_
    cases phase
    exact ⟨_, setFetch_self _ _, rfl⟩

theorem sound_runFetch (sound : s.Sound) (t : Nat) (turn : Turn) : (s.runFetch t turn).Sound := by
  rw [runFetch]
  split
  · exact sound
  rename_i f there
  split
  · rename_i went
    obtain ⟨room, done, same, -⟩ := turn_on went
    exact sound_setFetch sound there room done same
  · rename_i ended
    exact sound_finish sound there (turn_ends ended).1

/-- What cancelling a caller does. -/
theorem cancel_cases (s : Worker) (c : Nat) : s.cancel c = s ∨
    ∃ k t i, s.callers c = some k ∧ k.phase = .waiting t i ∧
      ((∃ f, s.fetches t = some f ∧ f.phase.isDone = false ∧ s.cancel c =
        (s.setFetch t { f with cancelling := true }).setCaller c ⟨k.room, true, .waiting t i⟩) ∨
      s.running t = false ∧ s.cancel c = s.setCaller c ⟨k.room, true, .waiting t true⟩) := by
  rw [cancel]
  split
  · rename_i room cancelled t i there
    refine .inr ⟨_, t, i, there, rfl, ?_⟩
    cases found : (s.fetches t).filter fun f => !f.phase.isDone with
    | some f =>
      obtain ⟨known, running⟩ := Option.filter_eq_some_iff.mp found
      exact .inl ⟨f, known, by simpa using running, rfl⟩
    | none =>
      refine .inr ⟨?_, rfl⟩
      rw [Worker.running]
      cases known : s.fetches t with
      | none => rfl
      | some f =>
        rw [known] at found
        simpa using found
  · exact .inl rfl

theorem sound_cancel (sound : s.Sound) (c : Nat) : (s.cancel c).Sound := by
  rcases cancel_cases s c with same | ⟨k, t, i, there, phase, ⟨f, known, running, same⟩ | ⟨-, same⟩⟩
  · rwa [same]
  · rw [same]
    have cancelled : (s.setFetch t { f with cancelling := true }).Sound :=
      sound_setFetch sound known rfl (by simp [running]) rfl
    refine sound_setCaller cancelled c fun t' i' waits => ?_
    cases waits
    obtain ⟨g, known', own⟩ := sound.waiting c k t i there phase
    cases known.symm.trans known'
    exact ⟨_, setFetch_self _ _, own⟩
  · rw [same]
    refine sound_setCaller sound c fun t' i' waits => ?_
    cases waits
    exact sound.waiting c k t i there phase

/-- What waking a caller does. -/
theorem wake_cases (s : Worker) (c : Nat) : s.wake c = s ∨
    ∃ k t i f finished outcome, s.callers c = some k ∧ k.phase = .waiting t i ∧ s.fetches t = some f ∧
      f.phase = .done finished outcome ∧
        (s.wake c = s.setCaller c ⟨k.room, k.cancelled, .failed⟩ ∧ (i = true ∨ outcome.answer = none) ∨
          ∃ data, i = false ∧ outcome.answer = some data ∧
            s.wake c = s.setCaller c ⟨k.room, k.cancelled, .answered data s.now⟩) := by
  rw [wake]
  split
  · rename_i room cancelled t i there
    cases known : s.fetches t with
    | none => exact .inl rfl
    | some f =>
      cases done : f.phase with
      | done finished outcome =>
        refine .inr ⟨_, t, i, f, finished, outcome, there, rfl, known, done, ?_⟩
        simp only [Option.map_some, done]
        cases answer : outcome.answer with
        | none => exact .inl ⟨rfl, .inr rfl⟩
        | some data =>
          cases i with
          | true => exact .inl ⟨rfl, .inl rfl⟩
          | false => exact .inr ⟨data, rfl, rfl, rfl⟩
      | created => simp only [Option.map_some, done]; exact .inl trivial
      | asking => simp only [Option.map_some, done]; exact .inl trivial
      | closing leaving => simp only [Option.map_some, done]; exact .inl trivial
  · exact .inl rfl

theorem sound_wake (sound : s.Sound) (c : Nat) : (s.wake c).Sound := by
  rcases wake_cases s c with same | ⟨k, t, i, f, finished, outcome, -, -, -, -, ⟨same, -⟩ | ⟨data, -, -, same⟩⟩
  · rwa [same]
  · rw [same]
    exact sound_setCaller sound c fun t' i' waits => by cases waits
  · rw [same]
    exact sound_setCaller sound c fun t' i' waits => by cases waits

theorem sound_step (sound : s.Sound) (e : LookupEvent) : (s.step e).Sound := by
  cases e with
  | call c room =>
    rw [step]
    split
    · exact sound
    · exact sound_lookUp sound c room
  | fetch t turn => exact sound_runFetch sound t turn
  | cancel c => exact sound_cancel sound c
  | wake c => exact sound_wake sound c
  | tick d =>
    exact
      { sound with
        past := fun t f finished outcome there done =>
          Nat.le_trans (sound.past t f finished outcome there done) (Nat.le_add_right _ _) }

theorem singleFlight_of_sound (sound : s.Sound) : s.SingleFlight := by
  intro t t' f f' there there' running running' same
  have mine := sound.registered t f there running
  have other := sound.registered t' f' there' running'
  rw [same, other] at mine
  exact (Option.some.inj mine).symm

theorem cachesFetched_of_sound (sound : s.Sound) : s.CachesFetched := by
  intro room entry cached
  obtain ⟨t, f, finished, there, own, done, -⟩ := sound.cache room entry cached
  exact ⟨t, f, finished, there, own, done⟩

/-! ### Answers -/

theorem Keeps.refl (s : Worker) : Keeps s s := Keeps.of_eq rfl

theorem keeps_runFetch (s : Worker) (t : Nat) (turn : Turn) : Keeps s (s.runFetch t turn) := by
  rw [runFetch]
  split
  · exact .refl s
  rename_i f there
  split
  · rename_i went
    obtain ⟨room, done, -⟩ := turn_on went
    exact keeps_setFetch there room done rfl
  · rename_i ended
    exact keeps_finish there (turn_ends ended).1

theorem callers_runFetch (s : Worker) (t : Nat) (turn : Turn) : (s.runFetch t turn).callers = s.callers := by
  rw [runFetch]
  split
  · rfl
  · split <;> rfl

theorem Keeps.fetchedBy {s' : Worker} (keeps : Keeps s s') {data : List VoiceParticipant} {since : Nat}
    (fetched : s.FetchedBy room data since) : s'.FetchedBy room data since := by
  obtain ⟨t, f, finished, outcome, there, own, done, rest⟩ := fetched
  exact ⟨t, f, finished, outcome, keeps.done there done, own, done, rest⟩

theorem fresh_of_keeps {s' : Worker} (keeps : Keeps s s') (same : s'.callers = s.callers) (fresh : s.AnswersFresh) :
    s'.AnswersFresh :=
  fun c k data since there phase => keeps.fetchedBy (fresh c k data since (same ▸ there) phase)

theorem fresh_setCaller (fresh : s.AnswersFresh) (c : Nat)
    (answer : ∀ data since, k.phase = .answered data since → s.FetchedBy k.room data since) :
    (s.setCaller c k).AnswersFresh := by
  intro c' k' data since there phase
  rcases setCaller_eq_some there with ⟨-, rfl⟩ | ⟨-, there⟩
  · exact answer data since phase
  · exact fresh c' k' data since there phase

theorem fresh_lookUp (sound : s.Sound) (fresh : s.AnswersFresh) (c : Nat) (room : String) :
    (s.lookUp c room).AnswersFresh := by
  rw [lookUp]
  split
  · rename_i data found
    refine fresh_setCaller fresh c fun data' since phase => ?_
    cases phase
    obtain ⟨entry, cached, valid, rfl⟩ := cached_eq_some found
    obtain ⟨t, f, finished, there, own, done, expires⟩ := sound.cache room entry cached
    have past := sound.past t f finished _ there done
    exact ⟨t, f, finished, _, there, own, done, rfl, past, by omega⟩
  split
  · exact fresh_setCaller fresh c fun data since phase => by cases phase
  · refine fresh_setCaller (fresh_of_keeps (keeps_create sound room) rfl fresh) c fun data since phase => ?_
    cases phase

theorem fresh_step (sound : s.Sound) (prompt : s.Prompt e) (fresh : s.AnswersFresh) : (s.step e).AnswersFresh := by
  cases e with
  | call c room =>
    rw [step]
    split
    · exact fresh
    · exact fresh_lookUp sound fresh c room
  | fetch t turn => exact fresh_of_keeps (keeps_runFetch s t turn) (callers_runFetch s t turn) fresh
  | cancel c =>
    rw [step]
    rcases cancel_cases s c with same | ⟨k, t, i, there, phase, ⟨f, known, running, same⟩ | ⟨-, same⟩⟩
    · rwa [same]
    · have keeps : Keeps s (s.setFetch t { f with cancelling := true }) := by
        refine keeps_setFetch known ?_ ?_ rfl
        · rfl
        · simp [running]
      rw [same]
      exact fresh_setCaller (fresh_of_keeps keeps rfl fresh) c fun data since phase => by cases phase
    · rw [same]
      exact fresh_setCaller fresh c fun data since phase => by cases phase
  | wake c =>
    rw [step]
    rcases wake_cases s c with
      same | ⟨k, t, i, f, finished, outcome, there, waits, known, done, ⟨same, -⟩ | ⟨data, rfl, answer, same⟩⟩
    · rwa [same]
    · rw [same]
      exact fresh_setCaller fresh c fun data since phase => by cases phase
    · rw [same]
      refine fresh_setCaller fresh c fun data' since phase => ?_
      cases phase
      have past := sound.past t f finished outcome known done
      have inTime := prompt k t f finished outcome data there waits known done answer
      obtain ⟨g, known', own⟩ := sound.waiting c k t false there waits
      cases known.symm.trans known'
      exact ⟨t, f, finished, outcome, known, own, done, answer, past, inTime⟩
  | tick d => exact fresh

/-! ### Cancellations -/

/-- Who waits for a doomed fetch, is to be told of a cancellation or failed was cancelled. -/
structure Spared (s : Worker) : Prop where
  doomed : ∀ t f c k i, s.fetches t = some f → f.doomed = true → s.callers c = some k → k.phase = .waiting t i →
    k.cancelled = true
  interrupted : ∀ c k t, s.callers c = some k → k.phase = .waiting t true → k.cancelled = true
  failed : s.OnlyCancelledFail

theorem spared_setCaller (spared : s.Spared) (c : Nat)
    (doomed : ∀ t f i, s.fetches t = some f → f.doomed = true → k.phase = .waiting t i → k.cancelled = true)
    (interrupted : ∀ t, k.phase = .waiting t true → k.cancelled = true)
    (failed : k.phase = .failed → k.cancelled = true) : (s.setCaller c k).Spared := by
  constructor
  case doomed =>
    intro t f c' k' i there bad caller phase
    rcases setCaller_eq_some caller with ⟨-, rfl⟩ | ⟨-, caller⟩
    · exact doomed t f i there bad phase
    · exact spared.doomed t f c' k' i there bad caller phase
  case interrupted =>
    intro c' k' t caller phase
    rcases setCaller_eq_some caller with ⟨-, rfl⟩ | ⟨-, caller⟩
    · exact interrupted t phase
    · exact spared.interrupted c' k' t caller phase
  case failed =>
    intro c' k' caller phase
    rcases setCaller_eq_some caller with ⟨-, rfl⟩ | ⟨-, caller⟩
    · exact failed phase
    · exact spared.failed c' k' caller phase

/-- Where no fetch becomes doomed, no one is harmed. -/
theorem spared_of_fetches {s' : Worker} (spared : s.Spared) (same : s'.callers = s.callers)
    (doomed : ∀ t f, s'.fetches t = some f → f.doomed = true →
      (∃ g, s.fetches t = some g ∧ g.doomed = true) ∨ ∀ c k i, s.callers c = some k → k.phase = .waiting t i →
        k.cancelled = true) : s'.Spared := by
  constructor
  case doomed =>
    intro t f c k i there bad caller phase
    rw [same] at caller
    rcases doomed t f there bad with ⟨g, known, worse⟩ | cancelled
    · exact spared.doomed t g c k i known worse caller phase
    · exact cancelled c k i caller phase
  case interrupted => exact fun c k t caller phase => spared.interrupted c k t (same ▸ caller) phase
  case failed => exact fun c k caller phase => spared.failed c k (same ▸ caller) phase

theorem spared_lookUp (spared : s.Spared) (c : Nat) (room : String)
    (shares : s.cached room = none → ∀ t f, s.existing room = some t → s.fetches t = some f → f.doomed = false) :
    (s.lookUp c room).Spared := by
  rw [lookUp]
  split
  · refine spared_setCaller spared c (fun t f i _ _ phase => ?_) (fun t phase => ?_) fun phase => ?_ <;> cases phase
  rename_i missed
  split
  · rename_i t found
    refine spared_setCaller spared c (fun t' f i there bad phase => ?_) (fun t phase => ?_) fun phase => ?_
    · cases phase
      rw [shares missed t f found there] at bad
      cases bad
    · cases phase
    · cases phase
  · have created : (s.create room).Spared := by
      refine spared_of_fetches spared rfl fun t f there bad => ?_
      rcases setFetch_eq_some there with ⟨rfl, rfl⟩ | ⟨-, there⟩
      · cases bad
      · exact .inl ⟨f, there, bad⟩
    refine spared_setCaller created c (fun t f i there bad phase => ?_) (fun t phase => ?_) fun phase => ?_
    · cases phase
      cases (setFetch_self s.created _).symm.trans there
      cases bad
    · cases phase
    · cases phase

theorem spared_runFetch (spared : s.Spared) (t : Nat) (turn : Turn) : (s.runFetch t turn).Spared := by
  refine spared_of_fetches spared (callers_runFetch s t turn) fun t' f' there bad => ?_
  rw [runFetch] at there
  split at there
  · exact .inl ⟨f', there, bad⟩
  rename_i f known
  split at there
  · rename_i went
    obtain ⟨-, -, -, spares⟩ := turn_on went
    rcases setFetch_eq_some there with ⟨rfl, rfl⟩ | ⟨-, there⟩
    · refine .inl ⟨f, known, ?_⟩
      by_contra fine
      rw [spares (by simpa using fine)] at bad
      cases bad
    · exact .inl ⟨f', there, bad⟩
  · rename_i ended
    obtain ⟨-, answers⟩ := turn_ends ended
    rcases setFetch_eq_some there with ⟨rfl, rfl⟩ | ⟨-, there⟩
    · refine .inl ⟨f, known, ?_⟩
      by_contra fine
      have answered := answers (by simpa using fine)
      rename_i outcome entered
      cases outcome with
      | cancelled => cases answered
      | fetched data => cases bad
      | failed => cases bad
    · exact .inl ⟨f', there, bad⟩

theorem spared_cancel (spared : s.Spared) (c : Nat) (shares : s.SharesNoCancel (.cancel c)) : (s.cancel c).Spared := by
  rcases cancel_cases s c with same | ⟨k, t, i, there, phase, ⟨f, known, running, same⟩ | ⟨-, same⟩⟩
  · rwa [same]
  · have runs : s.running t = true := by simp [Worker.running, known, running]
    rw [same]
    constructor
    case doomed =>
      intro t' f' c' k' i' there' bad caller phase'
      rcases setCaller_eq_some caller with ⟨-, rfl⟩ | ⟨other, caller⟩
      · rfl
      rcases setFetch_eq_some there' with ⟨rfl, -⟩ | ⟨-, there'⟩
      · exact shares k t' i there phase runs c' k' i' other caller phase'
      · exact spared.doomed t' f' c' k' i' there' bad caller phase'
    case interrupted =>
      intro c' k' t' caller phase'
      rcases setCaller_eq_some caller with ⟨-, rfl⟩ | ⟨-, caller⟩
      · rfl
      · exact spared.interrupted c' k' t' caller phase'
    case failed =>
      intro c' k' caller phase'
      rcases setCaller_eq_some caller with ⟨-, rfl⟩ | ⟨-, caller⟩
      · rfl
      · exact spared.failed c' k' caller phase'
  · rw [same]
    exact spared_setCaller spared c (fun _ _ _ _ _ _ => rfl) (fun _ _ => rfl) fun _ => rfl

theorem spared_wake (spared : s.Spared) (c : Nat) : (s.wake c).Spared := by
  rcases wake_cases s c with
    same | ⟨k, t, i, f, finished, outcome, there, waits, known, done, ⟨same, why⟩ | ⟨data, -, -, same⟩⟩
  · rwa [same]
  · have cancelled : k.cancelled = true := by
      rcases why with rfl | none
      · exact spared.interrupted c k t there waits
      · refine spared.doomed t f c k i known ?_ there waits
        cases outcome with
        | cancelled => rw [Fetch.doomed, done]
        | fetched data => cases none
        | failed => cases none
    rw [same]
    exact spared_setCaller spared c (fun _ _ _ _ _ _ => cancelled) (fun _ _ => cancelled) fun _ => cancelled
  · rw [same]
    refine spared_setCaller spared c (fun t f i _ _ phase => ?_) (fun t phase => ?_) fun phase => ?_ <;> cases phase

theorem spared_step (shares : s.SharesNoCancel e) (spared : s.Spared) : (s.step e).Spared := by
  cases e with
  | call c room =>
    rw [step]
    split
    · exact spared
    · exact spared_lookUp spared c room shares
  | fetch t turn => exact spared_runFetch spared t turn
  | cancel c => exact spared_cancel spared c shares
  | wake c => exact spared_wake spared c
  | tick d => exact ⟨spared.doomed, spared.interrupted, spared.failed⟩

theorem spared_idle (now : Nat) : (idle now).Spared where
  doomed _ _ _ _ _ there := by cases there
  interrupted _ _ _ there := by cases there
  failed _ _ there := by cases there

end Worker

/-! ## Runs -/

open Machine

/-- There is one fetch for a room at a time and nothing is cached but what was fetched. Answers are fresh as long as
callers get theirs in time, and no one fails for another one's cancellation as long as no fetch that is
shared is cancelled. -/
theorem participants_lookup (now : Nat) (es : List LookupEvent) :
    Along Worker.step (fun s e => (s.step e).SingleFlight ∧ (s.step e).CachesFetched) (.idle now) es ∧
    (Along Worker.step Worker.Prompt (.idle now) es →
      Along Worker.step (fun s e => (s.step e).AnswersFresh) (.idle now) es) ∧
    (Along Worker.step Worker.SharesNoCancel (.idle now) es →
      Along Worker.step (fun s e => (s.step e).OnlyCancelledFail) (.idle now) es) := by
  have start := Worker.sound_idle now
  refine ⟨?_, fun prompt => ?_, fun shares => ?_⟩
  · refine Along.of_invariant Worker.Sound (Along.of_forall fun _ _ => trivial) (fun s e _ sound => ?_)
      (fun s e _ sound => ?_) start
    · exact Worker.sound_step sound e
    · have next := Worker.sound_step sound e
      exact ⟨Worker.singleFlight_of_sound next, Worker.cachesFetched_of_sound next⟩
  · refine Along.of_invariant (fun s => s.Sound ∧ s.AnswersFresh) prompt (fun s e prompt inv => ?_)
      (fun s e prompt inv => Worker.fresh_step inv.1 prompt inv.2) ⟨start, fun _ _ _ _ there => by cases there⟩
    exact ⟨Worker.sound_step inv.1 e, Worker.fresh_step inv.1 prompt inv.2⟩
  · exact Along.of_invariant Worker.Spared shares (fun s e shares spared => Worker.spared_step shares spared)
      (fun s e shares spared => (Worker.spared_step shares spared).failed) (Worker.spared_idle now)

/-- Two callers wait for one fetch, and the first is cancelled. -/
def leaderCancelled : List LookupEvent :=
  [.call 0 "!room", .call 1 "!room", .fetch 0 (.goes []), .cancel 0, .fetch 0 (.goes []), .fetch 0 (.goes []), .wake 0,
    .wake 1]

/-- The second caller fails though no one cancelled it. -/
theorem follower_fails : ∃ k, (Machine.run Worker.step (.idle 0) leaderCancelled).callers 1 = some k ∧
    k.phase = .failed ∧ k.cancelled = false ∧
    ¬ (Machine.run Worker.step (.idle 0) leaderCancelled).OnlyCancelledFail := by
  have failed : (Machine.run Worker.step (.idle 0) leaderCancelled).callers 1 = some ⟨"!room", false, .failed⟩ := rfl
  refine ⟨_, failed, rfl, rfl, fun only => ?_⟩
  exact absurd (only 1 _ failed rfl) Bool.false_ne_true

end Concorrd.Participants
