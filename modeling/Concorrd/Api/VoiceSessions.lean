import Mathlib.Logic.Function.Basic
import Concorrd.Lib.Run
import Concorrd.Lib.Spans
import Concorrd.Api.Models

/-!
# Voice sessions

`voice_start`, `voice_end` and what `my_stats` reads of them in `routers/stats.py`. Requests take turns at
their awaits: a `SELECT` reads what is committed, and a commit writes the rows that its session has loaded
or added. The clock is read when a start arrives, when its new row is inserted, and when an end has found its
session. Times are in microseconds, and nothing is assumed of the clock.
-/

namespace Concorrd.Api

open Machine

structure VoiceSession where
  userId : String
  channelId : String
  serverId : String
  startedAt : Int
  endedAt : Option Int := none
  durationSeconds : Option Int := none
  deriving DecidableEq, Repr

/-- The seconds of a difference of times, without the fraction. -/
def wholeSeconds (elapsed : Int) : Int := elapsed.tdiv 1000000

def VoiceSession.closed (now : Int) (session : VoiceSession) : VoiceSession :=
  { session with endedAt := some now, durationSeconds := some (wholeSeconds (now - session.startedAt)) }

inductive VoiceRequest where
  | start (userId channelId serverId : String)
  | stop (userId : String) (sessionId : Nat)

/-- How far a request has come. -/
inductive VoicePhase where
  | arrived (request : VoiceRequest)
  | starting (userId channelId serverId : String) (now : Int)
  | loaded (userId channelId serverId : String) (now : Int) (stale : RowTable VoiceSession)
  | flushing (userId channelId serverId : String) (now startedAt : Int) (stale : RowTable VoiceSession)
  | found (session : Row VoiceSession)
  | closing (session : Row VoiceSession) (now : Int)
  | ended

/-- A request goes on, at a time. Any statement may fail. -/
structure VoiceTurn where
  request : Nat
  now : Int
  fails : Bool := false

structure VoiceRun where
  sessions : RowTable VoiceSession
  phase : Nat → VoicePhase

def openSessions (sessions : RowTable VoiceSession) (userId : String) : RowTable VoiceSession :=
  sessions.filter fun row => row.val.userId = userId ∧ row.val.endedAt = none

/-- The update of a row that was loaded: the duration is counted from the start that was read. -/
def closeSessions (now : Int) (stale : RowTable VoiceSession) (row : Row VoiceSession) : Row VoiceSession :=
  match stale.get row.id with
  | some session =>
    ⟨row.id, { row.val with
      endedAt := some now
      durationSeconds := some (wholeSeconds (now - session.startedAt)) }⟩
  | none => row

namespace VoiceRun

/-- No request has begun. -/
def opened (sessions : RowTable VoiceSession) (requests : Nat → VoiceRequest) : VoiceRun where
  sessions
  phase n := .arrived (requests n)

variable (s : VoiceRun)

def moved (n : Nat) (phase : VoicePhase) : VoiceRun :=
  { s with phase := Function.update s.phase n phase }

/-- The request ends with what its session wrote. -/
def commit (n : Nat) (sessions : RowTable VoiceSession) : VoiceRun := { s.moved n .ended with sessions }

/-- What a request does up to its next await. -/
def proceed (t : VoiceTurn) : VoiceRun :=
  match s.phase t.request with
  | .arrived (.start userId channelId serverId) =>
    s.moved t.request (.starting userId channelId serverId t.now)
  | .arrived (.stop userId sessionId) =>
    match s.sessions.find? fun row => row.id = sessionId ∧ row.val.userId = userId with
    | some session => s.moved t.request (.found session)
    | none => s.moved t.request .ended
  | .starting userId channelId serverId now =>
    s.moved t.request (.loaded userId channelId serverId now (openSessions s.sessions userId))
  | .loaded userId channelId serverId now stale =>
    s.moved t.request (.flushing userId channelId serverId now t.now stale)
  | .flushing userId channelId serverId now startedAt stale =>
    s.commit t.request
      (RowTable.insert (s.sessions.map (closeSessions now stale)) { userId, channelId, serverId, startedAt })
  | .found session =>
    if session.val.endedAt = none then s.moved t.request (.closing session t.now)
    else s.moved t.request .ended
  | .closing session now => s.commit t.request (s.sessions.map (closeSessions now [session]))
  | .ended => s

def step (t : VoiceTurn) : VoiceRun := if t.fails then s.moved t.request .ended else s.proceed t

end VoiceRun

/-! ## What `my_stats` reads -/

/-- More than one result is an error. -/
def scalarOneOrNone {α : Type} : List α → Except HttpError (Option α)
  | [] => .ok none
  | [a] => .ok (some a)
  | _ => .error .internal

def activeSince (sessions : RowTable VoiceSession) (userId : String) : Except HttpError (Option Int) := do
  let active ← scalarOneOrNone (openSessions sessions userId)
  return active.map fun row => row.val.startedAt

/-- The sessions with a duration that started since a time. -/
def voiceSessions (sessions : RowTable VoiceSession) (userId : String) (since : Int) : RowTable VoiceSession :=
  sessions.filter fun row =>
    row.val.userId = userId ∧ row.val.durationSeconds ≠ none ∧ since ≤ row.val.startedAt

def totalVoiceSeconds (sessions : RowTable VoiceSession) (userId : String) (since : Int) : Int :=
  ((voiceSessions sessions userId since).map fun row => row.val.durationSeconds.getD 0).sum

/-! ## What is to hold -/

/-- The session had ended when the other one started. -/
def VoiceSession.Before (a b : VoiceSession) : Prop := ∃ e ∈ a.endedAt, e ≤ b.startedAt

/-- A closed session lasted as long as it says, and two sessions of a user come one after the other. -/
structure Orderly (sessions : RowTable VoiceSession) : Prop where
  duration : ∀ row ∈ sessions, (row.val.endedAt = none → row.val.durationSeconds = none) ∧
    ∀ e ∈ row.val.endedAt, row.val.startedAt ≤ e ∧
      row.val.durationSeconds = some (wholeSeconds (e - row.val.startedAt))
  apart : ∀ a ∈ sessions, ∀ b ∈ sessions, a.id ≠ b.id → a.val.userId = b.val.userId →
    a.val.Before b.val ∨ b.val.Before a.val

/-- Sessions stay orderly and a closed one is not changed. So the statistics of every user can be read, and
they count no more seconds than there are between two times that the sessions lie between. -/
structure VoiceRun.Keeps (s s' : VoiceRun) : Prop where
  orderly : Orderly s'.sessions
  unchanged : ∀ row ∈ s.sessions, row.val.endedAt ≠ none → row ∈ s'.sessions
  active : ∀ userId, ∃ since, activeSince s'.sessions userId = .ok since
  total : ∀ userId since bound, since ≤ bound →
    (∀ row ∈ voiceSessions s'.sessions userId since, ∀ e ∈ row.val.endedAt, e ≤ bound) →
      totalVoiceSeconds s'.sessions userId since * 1000000 ≤ bound - since

/-- The sessions that a request is to close have started by then, and none was closed at another time. -/
def CanClose (sessions : RowTable VoiceSession) (now : Int) (stale : RowTable VoiceSession) : Prop :=
  ∀ row ∈ sessions, row.id ∈ stale.ids → row.val.startedAt ≤ now ∧ ∀ e ∈ row.val.endedAt, e = now

/-- What a request has read is good enough for what it writes: the sessions that it closes can be closed,
and the user's other ones have ended when the new one starts. -/
def VoiceRun.Current (s : VoiceRun) (t : VoiceTurn) : Prop :=
  t.fails = false → match s.phase t.request with
    | .flushing userId _ _ now startedAt stale => CanClose s.sessions now stale ∧
        ∀ row ∈ s.sessions, row.val.userId = userId →
          if row.id ∈ stale.ids then now ≤ startedAt else ∃ e ∈ row.val.endedAt, e ≤ startedAt
    | .closing session now => CanClose s.sessions now [session]
    | _ => True

/-! ## Closing and opening -/

section

variable {sessions stale : RowTable VoiceSession} {now : Int} {row : Row VoiceSession} {userId : String}

/-- A session that was loaded is still there, with the time it started at. -/
def Loaded (sessions : RowTable VoiceSession) (session : Row VoiceSession) : Prop :=
  ∃ row ∈ sessions, row.id = session.id ∧ row.val.startedAt = session.val.startedAt

@[simp] theorem id_closeSessions : (closeSessions now stale row).id = row.id := by
  rw [closeSessions]
  split <;> rfl

@[simp] theorem userId_closeSessions : (closeSessions now stale row).val.userId = row.val.userId := by
  rw [closeSessions]
  split <;> rfl

@[simp] theorem startedAt_closeSessions : (closeSessions now stale row).val.startedAt = row.val.startedAt := by
  rw [closeSessions]
  split <;> rfl

theorem closeSessions_of_notMem (away : row.id ∉ stale.ids) : closeSessions now stale row = row := by
  rw [closeSessions, RowTable.get_eq_none away]

theorem closeSessions_of_mem (ids : sessions.ids.Nodup) (loaded : ∀ session ∈ stale, Loaded sessions session)
    (mem : row ∈ sessions) (there : row.id ∈ stale.ids) :
    closeSessions now stale row = ⟨row.id, row.val.closed now⟩ := by
  cases read : stale.get row.id with
  | none => exact absurd there (RowTable.get_eq_none_iff.mp read)
  | some session =>
    obtain ⟨row', mem', same, start⟩ := loaded _ (RowTable.mem_of_get read)
    have start : row.val.startedAt = session.startedAt := by
      rwa [List.inj_on_of_nodup_map ids mem' mem same] at start
    rw [closeSessions, read]
    show (⟨row.id, { row.val with
      endedAt := some now
      durationSeconds := some (wholeSeconds (now - session.startedAt)) }⟩ : Row VoiceSession) = _
    rw [VoiceSession.closed, ← start]

theorem ids_closeSessions : RowTable.ids (sessions.map (closeSessions now stale)) = sessions.ids := by
  rw [RowTable.ids, List.map_map]
  exact List.map_congr_left fun row _ => id_closeSessions

/-- A session that can be closed and was closed already stays as it is. -/
theorem closeSessions_of_closed (ids : sessions.ids.Nodup) (orderly : Orderly sessions)
    (loaded : ∀ session ∈ stale, Loaded sessions session) (can : CanClose sessions now stale)
    (mem : row ∈ sessions) (closed : row.val.endedAt ≠ none) : closeSessions now stale row = row := by
  by_cases there : row.id ∈ stale.ids
  · rw [closeSessions_of_mem ids loaded mem there]
    obtain ⟨e, ended⟩ := Option.ne_none_iff_exists'.mp closed
    have same := (can row mem there).2 e ended
    have lasted := ((orderly.duration row mem).2 e ended).2
    obtain ⟨id, session⟩ := row
    cases session
    simp only [VoiceSession.closed] at *
    rw [ended, lasted, same]
  · exact closeSessions_of_notMem there

/-- What can be closed is closed orderly. -/
theorem orderly_closeSessions (ids : sessions.ids.Nodup) (orderly : Orderly sessions)
    (loaded : ∀ session ∈ stale, Loaded sessions session) (can : CanClose sessions now stale) :
    Orderly (sessions.map (closeSessions now stale)) := by
  constructor
  · intro row' mem'
    obtain ⟨row, mem, rfl⟩ := List.mem_map.mp mem'
    by_cases there : row.id ∈ stale.ids
    · rw [closeSessions_of_mem ids loaded mem there]
      refine ⟨by rintro ⟨⟩, fun e ended => ?_⟩
      cases ended
      exact ⟨(can row mem there).1, rfl⟩
    · rw [closeSessions_of_notMem there]
      exact orderly.duration row mem
  · intro a' memA' b' memB' other user
    obtain ⟨a, memA, rfl⟩ := List.mem_map.mp memA'
    obtain ⟨b, memB, rfl⟩ := List.mem_map.mp memB'
    have before {a b : Row VoiceSession} (mem : a ∈ sessions) (h : a.val.Before b.val) :
        (closeSessions now stale a).val.Before (closeSessions now stale b).val := by
      obtain ⟨e, ended, le⟩ := h
      have closed : a.val.endedAt ≠ none := by
        rintro none
        rw [none] at ended
        cases ended
      rw [closeSessions_of_closed ids orderly loaded can mem closed]
      exact ⟨e, ended, by rwa [startedAt_closeSessions]⟩
    rw [id_closeSessions, id_closeSessions] at other
    rw [userId_closeSessions, userId_closeSessions] at user
    exact (orderly.apart a memA b memB other user).imp (before memA) (before memB)

/-- Sessions that are closed orderly, and without a change to a closed one, could be closed. -/
theorem canClose_of_orderly (ids : sessions.ids.Nodup) (loaded : ∀ session ∈ stale, Loaded sessions session)
    (orderly : Orderly (sessions.map (closeSessions now stale)))
    (unchanged : ∀ row ∈ sessions, row.val.endedAt ≠ none → row ∈ sessions.map (closeSessions now stale)) :
    CanClose sessions now stale := by
  intro row mem there
  have closed : closeSessions now stale row = ⟨row.id, row.val.closed now⟩ :=
    closeSessions_of_mem ids loaded mem there
  have mem' : closeSessions now stale row ∈ sessions.map (closeSessions now stale) := List.mem_map_of_mem mem
  constructor
  · have lasted := (orderly.duration _ mem').2
    rw [closed] at lasted
    exact (lasted now rfl).1
  · intro e ended
    have kept := unchanged row mem (by rw [Option.mem_def.mp ended]; rintro ⟨⟩)
    obtain ⟨row', there', same⟩ := List.mem_map.mp kept
    have own : row' = row := List.inj_on_of_nodup_map ids there' mem (by rw [← same, id_closeSessions])
    rw [own, closed] at same
    rw [← same] at ended
    exact (Option.some.inj ended).symm

/-- A session that is added open comes last of its user's. -/
theorem orderly_insert {session : VoiceSession} (still : session.endedAt = none)
    (none : session.durationSeconds = none) : Orderly (sessions.insert session) ↔
      Orderly sessions ∧ ∀ row ∈ sessions, row.val.userId = session.userId → row.val.Before session := by
  have new (row : Row VoiceSession) (mem : row ∈ sessions) : row.id ≠ sessions.nextId :=
    fun same => sessions.nextId_not_mem (same ▸ List.mem_map_of_mem mem)
  have last (other : VoiceSession) : ¬session.Before other := by
    rintro ⟨e, ended, -⟩
    rw [still] at ended
    cases ended
  constructor
  · intro orderly
    refine ⟨⟨fun row mem => ?_, fun a memA b memB => ?_⟩, fun row mem user => ?_⟩
    · exact orderly.duration row (RowTable.mem_insert.mpr (.inl mem))
    · exact orderly.apart a (RowTable.mem_insert.mpr (.inl memA)) b (RowTable.mem_insert.mpr (.inl memB))
    · exact (orderly.apart row (RowTable.mem_insert.mpr (.inl mem)) _ (RowTable.mem_insert.mpr (.inr rfl))
        (new row mem) user).resolve_right (last _)
  · rintro ⟨orderly, before⟩
    constructor
    · intro row mem
      rcases RowTable.mem_insert.mp mem with mem | rfl
      · exact orderly.duration row mem
      · refine ⟨fun _ => none, fun e ended => ?_⟩
        rw [still] at ended
        cases ended
    · intro a memA b memB other user
      rcases RowTable.mem_insert.mp memA with memA | rfl <;> rcases RowTable.mem_insert.mp memB with memB | rfl
      · exact orderly.apart a memA b memB other user
      · exact .inl (before a memA user)
      · exact .inr (before b memB user.symm)
      · exact absurd rfl other

/-! ## The statistics -/

theorem wholeSeconds_le {elapsed : Int} (passed : 0 ≤ elapsed) :
    wholeSeconds elapsed * 1000000 ≤ (elapsed.toNat : Int) := by
  rw [wholeSeconds, Int.tdiv_eq_ediv_of_nonneg passed, Int.toNat_of_nonneg passed]
  exact Int.ediv_mul_le elapsed (by decide)

/-- No user has two open sessions, so that the active one is found. -/
theorem exists_activeSince (ids : sessions.ids.Nodup) (orderly : Orderly sessions) (userId : String) :
    ∃ since, activeSince sessions userId = .ok since := by
  have isOpen (row : Row VoiceSession) (mem : row ∈ openSessions sessions userId) :
      row ∈ sessions ∧ row.val.userId = userId ∧ row.val.endedAt = none := by
    simpa [openSessions, List.mem_filter] using mem
  rw [activeSince]
  cases listed : openSessions sessions userId with
  | nil => exact ⟨none, rfl⟩
  | cons a others =>
    cases others with
    | nil => exact ⟨some a.val.startedAt, rfl⟩
    | cons b rest =>
      have distinct : (openSessions sessions userId).ids.Nodup := ids.sublist (List.filter_sublist.map Row.id)
      rw [listed] at distinct
      have other : a.id ≠ b.id := fun same =>
        (List.nodup_cons.mp distinct).1 (List.mem_map.mpr ⟨b, List.mem_cons_self, same.symm⟩)
      obtain ⟨memA, userA, openA⟩ := isOpen a (listed ▸ List.mem_cons_self)
      obtain ⟨memB, userB, openB⟩ := isOpen b (listed ▸ List.mem_cons_of_mem a List.mem_cons_self)
      rcases orderly.apart a memA b memB other (userA.trans userB.symm) with ⟨e, ended, -⟩ | ⟨e, ended, -⟩
      · rw [openA] at ended
        cases ended
      · rw [openB] at ended
        cases ended

/-- The sessions that are counted cover no time twice. -/
theorem totalVoiceSeconds_le (ids : sessions.ids.Nodup) (orderly : Orderly sessions) (userId : String)
    {since bound : Int} (order : since ≤ bound)
    (within : ∀ row ∈ voiceSessions sessions userId since, ∀ e ∈ row.val.endedAt, e ≤ bound) :
    totalVoiceSeconds sessions userId since * 1000000 ≤ bound - since := by
  have counted (row : Row VoiceSession) (mem : row ∈ voiceSessions sessions userId since) :
      row ∈ sessions ∧ row.val.userId = userId ∧ since ≤ row.val.startedAt ∧
        ∃ e, row.val.endedAt = some e ∧ row.val.startedAt ≤ e ∧
          row.val.durationSeconds = some (wholeSeconds (e - row.val.startedAt)) := by
    obtain ⟨mem, kept⟩ := List.mem_filter.mp mem
    obtain ⟨user, lasted, later⟩ := of_decide_eq_true kept
    have duration := orderly.duration row mem
    cases ended : row.val.endedAt with
    | none => exact absurd (duration.1 ended) lasted
    | some e => exact ⟨mem, user, later, e, rfl, duration.2 e ended⟩
  have distinct : (voiceSessions sessions userId since).Nodup :=
    (List.Nodup.of_map Row.id ids).sublist List.filter_sublist
  have spans := @Spans.sum_length_le _ (fun row => row.val.startedAt)
    (fun row => row.val.endedAt.getD row.val.startedAt) (voiceSessions sessions userId since) since bound ?_ ?_
  · have seconds := @Spans.sum_mul_le _ (voiceSessions sessions userId since)
      (fun row => row.val.durationSeconds.getD 0)
      (fun row => (row.val.endedAt.getD row.val.startedAt - row.val.startedAt).toNat) 1000000 ?_
    · rw [totalVoiceSeconds]
      omega
    · intro row mem
      obtain ⟨-, -, -, e, ended, passed, lasted⟩ := counted row mem
      rw [ended, lasted]
      exact wholeSeconds_le (by omega)
  · refine distinct.pairwise_of_forall_ne fun a memA b memB differ => ?_
    obtain ⟨memA, userA, -, e, endedA, -⟩ := counted a memA
    obtain ⟨memB, userB, -, e', endedB, -⟩ := counted b memB
    have other : a.id ≠ b.id := fun same => differ (List.inj_on_of_nodup_map ids memA memB same)
    refine (orderly.apart a memA b memB other (userA.trans userB.symm)).imp ?_ ?_
    · rintro ⟨d, ended, le⟩
      rwa [Option.mem_def.mp ended]
    · rintro ⟨d, ended, le⟩
      rwa [Option.mem_def.mp ended]
  · intro row mem
    obtain ⟨-, -, later, e, ended, -⟩ := counted row mem
    rw [ended]
    exact ⟨later, within row mem e ended⟩

end

/-! ## Runs -/

/-- What a request has loaded is still there. -/
def VoicePhase.Holds (sessions : RowTable VoiceSession) : VoicePhase → Prop
  | .loaded _ _ _ _ stale => ∀ session ∈ stale, Loaded sessions session
  | .flushing _ _ _ _ _ stale => ∀ session ∈ stale, Loaded sessions session
  | .found session => Loaded sessions session
  | .closing session _ => Loaded sessions session
  | _ => True

theorem VoicePhase.Holds.mono {sessions sessions' : RowTable VoiceSession} {phase : VoicePhase}
    (h : phase.Holds sessions) (stay : ∀ session, Loaded sessions session → Loaded sessions' session) :
    phase.Holds sessions' := by
  cases phase with
  | loaded | flushing => exact fun session mem => stay session (h session mem)
  | found | closing => exact stay _ h
  | arrived | starting | ended => exact h

namespace VoiceRun

structure Sound (s : VoiceRun) : Prop where
  ids : s.sessions.ids.Nodup
  orderly : Orderly s.sessions
  holds : ∀ n, (s.phase n).Holds s.sessions

/-- What a turn may do. -/
inductive Moves (s : VoiceRun) (t : VoiceTurn) : VoiceRun → Prop where
  | reads {phase : VoicePhase} (current : s.Current t) (holds : phase.Holds s.sessions) :
    Moves s t (s.moved t.request phase)
  | starts {userId channelId serverId : String} {now startedAt : Int} {stale : RowTable VoiceSession}
    (here : s.phase t.request = .flushing userId channelId serverId now startedAt stale) (works : t.fails = false) :
    Moves s t (s.commit t.request
      (RowTable.insert (s.sessions.map (closeSessions now stale)) { userId, channelId, serverId, startedAt }))
  | stops {session : Row VoiceSession} {now : Int} (here : s.phase t.request = .closing session now)
    (works : t.fails = false) :
    Moves s t (s.commit t.request (s.sessions.map (closeSessions now [session])))

variable {s s' : VoiceRun} {t : VoiceTurn}

@[simp] theorem moved_self {n : Nat} {phase : VoicePhase} : (s.moved n phase).phase n = phase :=
  Function.update_self ..

theorem moved_of_ne {n m : Nat} {phase : VoicePhase} (other : m ≠ n) : (s.moved n phase).phase m = s.phase m :=
  Function.update_of_ne other ..

/-- A turn does one of these. -/
theorem step_moves (sound : s.Sound) : Moves s t (s.step t) := by
  have before := sound.holds t.request
  rw [step]
  split
  · rename_i fails
    exact .reads (fun works => absurd fails (by simp [works])) trivial
  · rename_i works
    have works : t.fails = false := by simpa using works
    rw [proceed]
    cases here : s.phase t.request with
    | arrived request =>
      have current : s.Current t := by simp [Current, here]
      cases request with
      | start userId channelId serverId => exact .reads current trivial
      | stop userId sessionId =>
        cases read : s.sessions.find? fun row => row.id = sessionId ∧ row.val.userId = userId with
        | none =>
          simp only [read]
          exact .reads current trivial
        | some session =>
          simp only [read]
          exact .reads current ⟨session, List.mem_of_find?_eq_some read, rfl, rfl⟩
    | starting userId channelId serverId now =>
      refine .reads (by simp [Current, here]) fun session mem => ?_
      exact ⟨session, List.mem_of_mem_filter mem, rfl, rfl⟩
    | loaded userId channelId serverId now stale =>
      rw [here] at before
      exact .reads (by simp [Current, here]) before
    | flushing userId channelId serverId now startedAt stale => exact .starts here works
    | found session =>
      rw [here] at before
      have current : s.Current t := by simp [Current, here]
      show Moves s t (if session.val.endedAt = none then s.moved t.request (.closing session t.now)
        else s.moved t.request .ended)
      split
      · exact .reads current before
      · exact .reads current trivial
    | closing session now => exact .stops here works
    | ended =>
      have same : s.moved t.request .ended = s := by
        rw [moved, ← here, Function.update_eq_self]
      have kept : Moves s t (s.moved t.request .ended) := .reads (by simp [Current, here]) trivial
      rwa [same] at kept

/-- The statistics of orderly sessions can be read. -/
theorem keeps_of_orderly (ids : s'.sessions.ids.Nodup) (orderly : Orderly s'.sessions)
    (unchanged : ∀ row ∈ s.sessions, row.val.endedAt ≠ none → row ∈ s'.sessions) : s.Keeps s' where
  orderly := orderly
  unchanged := unchanged
  active userId := exists_activeSince ids orderly userId
  total userId _ _ order within := totalVoiceSeconds_le ids orderly userId order within

theorem ids_moves (sound : s.Sound) (moves : Moves s t s') : s'.sessions.ids.Nodup := by
  cases moves with
  | reads => exact sound.ids
  | starts => exact RowTable.nodup_insert (by rw [ids_closeSessions]; exact sound.ids) _
  | stops =>
    show (RowTable.ids (List.map _ _)).Nodup
    rw [ids_closeSessions]
    exact sound.ids

/-- A turn keeps what is to hold exactly when what it has read is good enough. -/
theorem keeps_iff (sound : s.Sound) (moves : Moves s t s') : s.Keeps s' ↔ s.Current t := by
  have ids := ids_moves sound moves
  cases moves with
  | reads current => exact iff_of_true (keeps_of_orderly ids sound.orderly fun row mem _ => mem) current
  | starts here works =>
    rename_i userId channelId serverId now startedAt stale
    have loaded : ∀ session ∈ stale, Loaded s.sessions session := by
      have holds := sound.holds t.request
      rwa [here] at holds
    let session : VoiceSession := { userId, channelId, serverId, startedAt }
    have inserted := @orderly_insert (s.sessions.map (closeSessions now stale)) session rfl rfl
    -- where the sessions can be closed, each comes before the new one as the condition says
    have before (row : Row VoiceSession) (mem : row ∈ s.sessions) :
        (closeSessions now stale row).val.Before session ↔
          if row.id ∈ stale.ids then now ≤ startedAt else ∃ e ∈ row.val.endedAt, e ≤ startedAt := by
      split
      · rename_i there
        rw [closeSessions_of_mem sound.ids loaded mem there]
        refine ⟨?_, fun le => ⟨now, rfl, le⟩⟩
        rintro ⟨e, ended, le⟩
        cases ended
        exact le
      · rename_i away
        rw [closeSessions_of_notMem away]
        exact Iff.rfl
    have current : s.Current t ↔ CanClose s.sessions now stale ∧
        ∀ row ∈ s.sessions, row.val.userId = userId →
          if row.id ∈ stale.ids then now ≤ startedAt else ∃ e ∈ row.val.endedAt, e ≤ startedAt := by
      simp only [Current, here, works, forall_const]
    rw [current]
    constructor
    · intro keeps
      obtain ⟨orderly, later⟩ := inserted.mp keeps.orderly
      refine ⟨canClose_of_orderly sound.ids loaded orderly fun row mem closed => ?_, fun row mem user => ?_⟩
      · rcases RowTable.mem_insert.mp (keeps.unchanged row mem closed) with kept | rfl
        · exact kept
        · exact absurd rfl closed
      · refine (before row mem).mp (later _ (List.mem_map_of_mem mem) ?_)
        rwa [userId_closeSessions]
    · rintro ⟨can, later⟩
      refine keeps_of_orderly ids (inserted.mpr ⟨?_, ?_⟩) fun row mem closed => ?_
      · exact orderly_closeSessions sound.ids sound.orderly loaded can
      · intro row' mem' user
        obtain ⟨row, mem, rfl⟩ := List.mem_map.mp mem'
        rw [userId_closeSessions] at user
        exact (before row mem).mpr (later row mem user)
      · refine RowTable.mem_insert.mpr (.inl (List.mem_map.mpr ⟨row, mem, ?_⟩))
        exact closeSessions_of_closed sound.ids sound.orderly loaded can mem closed
  | stops here works =>
    rename_i session now
    have loaded : ∀ other ∈ [session], Loaded s.sessions other := by
      have holds := sound.holds t.request
      rw [here] at holds
      intro other mem
      rw [List.mem_singleton.mp mem]
      exact holds
    have current : s.Current t ↔ CanClose s.sessions now [session] := by
      simp only [Current, here, works, forall_const]
    rw [current]
    constructor
    · intro keeps
      exact canClose_of_orderly sound.ids loaded keeps.orderly keeps.unchanged
    · intro can
      refine keeps_of_orderly ids (orderly_closeSessions sound.ids sound.orderly loaded can) ?_
      intro row mem closed
      exact List.mem_map.mpr ⟨row, mem, closeSessions_of_closed sound.ids sound.orderly loaded can mem closed⟩

theorem sound_moves (sound : s.Sound) (moves : Moves s t s') (keeps : s.Keeps s') : s'.Sound := by
  have ids := ids_moves sound moves
  have phases {sessions : RowTable VoiceSession} {phase : VoicePhase} (holds : phase.Holds sessions)
      (stay : ∀ session, Loaded s.sessions session → Loaded sessions session) (n : Nat) :
      ((s.moved t.request phase).phase n).Holds sessions := by
    by_cases same : n = t.request
    · rw [same, moved_self]
      exact holds
    · rw [moved_of_ne same]
      exact (sound.holds n).mono stay
  have closed {now : Int} {stale : RowTable VoiceSession} (session : Row VoiceSession)
      (h : Loaded s.sessions session) : Loaded (s.sessions.map (closeSessions now stale)) session := by
    obtain ⟨row, mem, same, start⟩ := h
    exact ⟨_, List.mem_map_of_mem mem, id_closeSessions.trans same, startedAt_closeSessions.trans start⟩
  cases moves with
  | reads _ holds => exact ⟨ids, keeps.orderly, phases holds fun _ h => h⟩
  | starts =>
    refine ⟨ids, keeps.orderly, phases trivial fun session h => ?_⟩
    obtain ⟨row, mem, same⟩ := closed session h
    exact ⟨row, RowTable.mem_insert.mpr (.inl mem), same⟩
  | stops => exact ⟨ids, keeps.orderly, phases trivial closed⟩

end VoiceRun

/-- A call that starts and ends. -/
def oneCall (n : Nat) : VoiceRequest :=
  if n = 0 then .start "@alice:localhost" "!voice:localhost" "srv" else .stop "@alice:localhost" 1

end Concorrd.Api
