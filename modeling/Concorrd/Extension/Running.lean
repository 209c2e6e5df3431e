import Concorrd.Lib.Dict
import Concorrd.Lib.Newest
import Concorrd.Lib.Run
import Concorrd.Extension.Session

/-!
# The running extension of a room

The members of a room start and stop extensions with the clocks they have. What they send is accepted
in any order, the room keeps the last event of each type and key, and a member that the room's state is
delivered to shows what `readState` reads of it, in whatever order its map is iterated.
-/

namespace Concorrd

open Newest (IsNewest)

/-! ## The state of the room -/

structure RoomState where
  sessions : Dict String Json
  nodup : sessions.keys.Nodup
  legacy : Option Json

inductive StateEvent where
  | session (stateKey : String) (content : Json)
  | legacy (content : Json)

def RoomState.keep (room : RoomState) : StateEvent → RoomState
  | .session stateKey content =>
    { room with sessions := room.sessions.set stateKey content, nodup := Dict.nodup_set room.nodup }
  | .legacy content => { room with legacy := some content }

def readEntry (catalog : List ExtensionDefinition) (e : String × Json) : Option ActiveExtension :=
  parseExtensionSessionContent catalog e.2 e.1

/-- What a client shows of a state that it iterates in this order. -/
def readState (catalog : List ExtensionDefinition) (order : List (String × Json))
    (legacy : Option Json) : Option ActiveExtension :=
  (Newest.first ActiveExtension.updatedAt (order.filterMap (readEntry catalog))).or
    (legacy.bind (parseLegacyExtensionContent catalog))

/-! ## Members and what they send -/

structure Member where
  userId : String
  active : Option ActiveExtension

/-- What an event is sent for. A stop of what every member showed knows how many starts had been
accepted by then. -/
inductive Call where
  | start (session : ActiveExtension)
  | stop (ofShown : Option Nat)

structure Sent where
  event : StateEvent
  call : Call

/-- The history is kept beside the state: how many starts were accepted, the session of the event that
was accepted last if it was a start, and whether a stop of what every member showed was accepted with no
start since it was made. -/
structure ExtensionRoom where
  catalog : List ExtensionDefinition
  members : List Member
  room : RoomState
  sent : List Sent
  starts : Nat
  latest : Option ActiveExtension
  stopped : Bool

inductive ExtensionAction where
  | start (member : Nat) (extensionId random : String) (now updatedAt : Int)
  | stop (member : Nat) (updatedAt : Int)
  | accept (sent : Nat)
  | deliver (member : Nat) (order : List (String × Json))

/-- The event that ends what a client shows. -/
def stopEvent (active : Option ActiveExtension) (updatedAt : Int) : StateEvent :=
  match active.filter fun ext => ext.source = .session with
  | some ext => .session ext.stateKey (serializeSessionContent ext .ended updatedAt)
  | none => .legacy (.obj [("active", .bool false)])

namespace ExtensionRoom

/-- A room in which nothing has been sent yet. -/
def begin (catalog : List ExtensionDefinition) (members : List Member) (room : RoomState) :
    ExtensionRoom :=
  ⟨catalog, members, room, [], 0, none, false⟩

def showing (s : ExtensionRoom) (member : Nat) (active : Option ActiveExtension) : List Member :=
  s.members.modify member fun m => { m with active }

/-- Every member shows the session that this one shows. -/
def shownByEvery (s : ExtensionRoom) (m : Member) : Bool :=
  m.active.isSome && s.members.all fun other =>
    other.active.map (·.sessionId) = m.active.map (·.sessionId)

def startExtension (s : ExtensionRoom) (member : Nat) (m : Member) (d : ExtensionDefinition)
    (random : String) (now updatedAt : Int) : ExtensionRoom :=
  let session := buildActiveSession d m.userId random now
  { s with
    members := s.showing member (some session)
    sent := s.sent ++ [⟨.session session.stateKey (serializeSessionContent session .active updatedAt),
      .start { session with updatedAt }⟩] }

def stopExtension (s : ExtensionRoom) (member : Nat) (m : Member) (updatedAt : Int) : ExtensionRoom :=
  { s with
    members := s.showing member none
    sent := s.sent ++ [⟨stopEvent m.active updatedAt,
      .stop (if s.shownByEvery m then some s.starts else none)⟩] }

/-- The event is the room's, and the history is told. -/
def acceptEvent (s : ExtensionRoom) (e : Sent) : ExtensionRoom :=
  match e.call with
  | .start session =>
    { s with room := s.room.keep e.event, starts := s.starts + 1, latest := some session, stopped := false }
  | .stop ofShown =>
    { s with
      room := s.room.keep e.event
      latest := none
      stopped := s.stopped || decide (ofShown = some s.starts) }

def step (s : ExtensionRoom) : ExtensionAction → ExtensionRoom
  | .start member extensionId random now updatedAt =>
    match s.members[member]?, s.catalog.find? fun d => d.id = extensionId with
    | some m, some d => if m.userId = "" then s else s.startExtension member m d random now updatedAt
    | _, _ => s
  | .stop member updatedAt =>
    match s.members[member]? with
    | some m => s.stopExtension member m updatedAt
    | none => s
  | .accept n =>
    match s.sent[n]? with
    | some e => { s with sent := s.sent.eraseIdx n }.acceptEvent e
    | none => s
  | .deliver member order =>
    if order.isPerm s.room.sessions then
      { s with members := s.showing member (readState s.catalog order s.room.legacy) }
    else s

/-! ## What is to hold -/

/-- A member that the state is delivered to may come to show this. -/
def Shows (s : ExtensionRoom) (shown : Option ActiveExtension) : Prop :=
  ∃ order, List.Perm order s.room.sessions ∧ readState s.catalog order s.room.legacy = shown

/-- Members agree; a start that was accepted last is shown; and nothing is shown after a stop of what
every member showed, until a later start. -/
structure Good (s : ExtensionRoom) : Prop where
  agree : ∀ x y, s.Shows x → s.Shows y → x = y
  latest : ∀ session ∈ s.latest, ∀ x, s.Shows x → x = some session
  stopped : s.stopped = true → ∀ x, s.Shows x → x = none

/-! ## The condition -/

/-- The sessions of the room that are active. -/
def active (s : ExtensionRoom) : List ActiveExtension := s.room.sessions.filterMap (readEntry s.catalog)

/-- The sessions that an event does not touch. -/
def others (s : ExtensionRoom) : StateEvent → List ActiveExtension
  | .session stateKey _ =>
    (s.room.sessions.filter fun e => e.1 ≠ stateKey).filterMap (readEntry s.catalog)
  | .legacy _ => s.active

def legacyActive (s : ExtensionRoom) : Option ActiveExtension :=
  s.room.legacy.bind (parseLegacyExtensionContent s.catalog)

/-- The legacy session, where an event does not touch it. -/
def otherLegacy (s : ExtensionRoom) : StateEvent → Option ActiveExtension
  | .session _ _ => s.legacyActive
  | .legacy _ => none

/-- No two of the sessions tie for the newest. -/
def OneNewest (l : List ActiveExtension) : Prop :=
  ∀ a b, IsNewest ActiveExtension.updatedAt l a → IsNewest ActiveExtension.updatedAt l b → a = b

/-- A start is newer than every other session of the room. A stop leaves no tie for the newest; and where
it stops what every member showed, and no start has been accepted since, there is no other session. -/
def CleanEvent (s : ExtensionRoom) (e : Sent) : Prop :=
  match e.call with
  | .start session => session.extensionId ≠ "" ∧
      ∀ other ∈ s.others e.event, other ≠ session → other.updatedAt < session.updatedAt
  | .stop ofShown => OneNewest (s.others e.event) ∧
      (ofShown = some s.starts → s.others e.event = [] ∧ s.otherLegacy e.event = none)

def Clean (s : ExtensionRoom) : ExtensionAction → Prop
  | .accept n => ∀ e ∈ s.sent[n]?, s.CleanEvent e
  | .start .. | .stop .. | .deliver .. => True

/-! ## What is shown -/

variable {s : ExtensionRoom} {e : Sent} {a : ActiveExtension}

/-- Without an active session the legacy event decides. -/
theorem readState_of_empty (empty : s.active = []) :
    readState s.catalog s.room.sessions s.room.legacy = s.legacyActive := by
  have nothing : Newest.first ActiveExtension.updatedAt
      (s.room.sessions.filterMap (readEntry s.catalog)) = none := Newest.first_eq_none.mpr empty
  rw [readState, nothing, Option.none_or]
  rfl

theorem shows_some : s.Shows (some a) ↔
    IsNewest ActiveExtension.updatedAt s.active a ∨ s.active = [] ∧ s.legacyActive = some a := by
  constructor
  · rintro ⟨order, perm, h⟩
    rw [readState] at h
    cases newest : Newest.first ActiveExtension.updatedAt (order.filterMap (readEntry s.catalog)) with
    | some b =>
      rw [newest, Option.some_or] at h
      exact .inl (Newest.exists_perm_first.mp ⟨order, perm, newest.trans h⟩)
    | none =>
      rw [newest, Option.none_or] at h
      have empty := Newest.first_eq_none.mp newest
      exact .inr ⟨((perm.filterMap (readEntry s.catalog)).symm.trans (.of_eq empty)).eq_nil, h⟩
  · rintro (newest | ⟨empty, legacy⟩)
    · obtain ⟨order, perm, h⟩ := Newest.exists_perm_first.mpr newest
      exact ⟨order, perm, by rw [readState, h, Option.some_or]⟩
    · exact ⟨s.room.sessions, .refl _, (readState_of_empty empty).trans legacy⟩

theorem shows_none : s.Shows none ↔ s.active = [] ∧ s.legacyActive = none := by
  constructor
  · rintro ⟨order, perm, h⟩
    rw [readState, Option.or_eq_none_iff] at h
    have empty := Newest.first_eq_none.mp h.1
    exact ⟨((perm.filterMap (readEntry s.catalog)).symm.trans (.of_eq empty)).eq_nil, h.2⟩
  · rintro ⟨empty, legacy⟩
    exact ⟨s.room.sessions, .refl _, (readState_of_empty empty).trans legacy⟩

/-- Members agree when no two sessions tie for the newest. -/
theorem agree_iff : (∀ x y, s.Shows x → s.Shows y → x = y) ↔ OneNewest s.active := by
  constructor
  · intro agree a b newest newest'
    exact Option.some.inj (agree _ _ (shows_some.mpr (.inl newest)) (shows_some.mpr (.inl newest')))
  · intro one
    have first : ∀ x y, s.Shows x → s.Shows y → x.isSome → x = y := by
      intro x y showsX showsY known
      obtain ⟨a, rfl⟩ := Option.isSome_iff_exists.mp known
      cases y with
      | none =>
        obtain ⟨empty, legacy⟩ := shows_none.mp showsY
        rcases shows_some.mp showsX with newest | ⟨-, given⟩
        · exact absurd newest.mem (empty ▸ List.not_mem_nil)
        · exact absurd (legacy.symm.trans given) (Option.some_ne_none a).symm
      | some b =>
        rcases shows_some.mp showsX with newest | ⟨empty, legacy⟩ <;>
          rcases shows_some.mp showsY with newest' | ⟨empty', legacy'⟩
        · rw [one a b newest newest']
        · exact absurd newest.mem (empty' ▸ List.not_mem_nil)
        · exact absurd newest'.mem (empty ▸ List.not_mem_nil)
        · exact legacy.symm.trans legacy'
    intro x y showsX showsY
    cases x with
    | some a => exact first _ y showsX showsY rfl
    | none =>
      cases y with
      | some b => exact (first _ none showsY showsX rfl).symm
      | none => rfl

theorem silent_iff : (∀ x, s.Shows x → x = none) ↔ s.active = [] ∧ s.legacyActive = none := by
  constructor
  · intro silent
    have empty : s.active = [] := by
      by_contra some_
      obtain ⟨a, newest⟩ : ∃ a, IsNewest ActiveExtension.updatedAt s.active a :=
        Newest.exists_isNewest some_
      exact Option.some_ne_none a (silent _ (shows_some.mpr (.inl newest)))
    cases legacy : s.legacyActive with
    | none => exact ⟨empty, rfl⟩
    | some a => exact absurd (silent _ (shows_some.mpr (.inr ⟨empty, legacy⟩))) (Option.some_ne_none a)
  · rintro ⟨empty, legacy⟩ x shows_
    cases x with
    | none => rfl
    | some a =>
      rcases shows_some.mp shows_ with newest | ⟨-, given⟩
      · exact absurd newest.mem (empty ▸ List.not_mem_nil)
      · exact absurd (legacy.symm.trans given) (Option.some_ne_none a).symm

/-- An active session alone is shown when the others are older. -/
theorem only_iff (mem : a ∈ s.active) : (∀ x, s.Shows x → x = some a) ↔
    ∀ other ∈ s.active, other ≠ a → other.updatedAt < a.updatedAt := by
  constructor
  · intro only other listed ne
    obtain ⟨top, newest⟩ : ∃ top, IsNewest ActiveExtension.updatedAt s.active top :=
      Newest.exists_isNewest (List.ne_nil_of_mem mem)
    have same := Option.some.inj (only _ (shows_some.mpr (.inl newest)))
    subst same
    by_contra late
    have tie : IsNewest ActiveExtension.updatedAt s.active other :=
      ⟨listed, fun b h => le_trans (newest.newest b h) (not_lt.mp late)⟩
    exact ne (Option.some.inj (only _ (shows_some.mpr (.inl tie))))
  · intro older x shows_
    cases x with
    | none => exact absurd mem ((shows_none.mp shows_).1 ▸ List.not_mem_nil)
    | some b =>
      rcases shows_some.mp shows_ with newest | ⟨empty, -⟩
      · by_contra ne
        have before := older b newest.mem fun same => ne (congrArg some same)
        exact absurd (newest.newest a mem) (not_le.mpr before)
      · exact absurd mem (empty ▸ List.not_mem_nil)

/-! ## An event that is accepted -/

/-- The session that clients read of an event. -/
def gives (catalog : List ExtensionDefinition) : StateEvent → Option ActiveExtension
  | .session stateKey content => parseExtensionSessionContent catalog content stateKey
  | .legacy _ => none

/-- Clients read of an event what it was sent for. -/
def Faithful (catalog : List ExtensionDefinition) (e : Sent) : Prop :=
  match e.call with
  | .start session => session.source = .session ∧
      gives catalog e.event = if session.extensionId = "" then none else some session
  | .stop _ => gives catalog e.event = none ∧
      ∀ content, e.event = .legacy content → parseLegacyExtensionContent catalog content = none

@[simp] theorem acceptEvent_room : (s.acceptEvent e).room = s.room.keep e.event := by
  rw [acceptEvent]
  cases e.call <;> rfl

@[simp] theorem acceptEvent_catalog : (s.acceptEvent e).catalog = s.catalog := by
  rw [acceptEvent]
  cases e.call <;> rfl

@[simp] theorem acceptEvent_sent : (s.acceptEvent e).sent = s.sent := by
  rw [acceptEvent]
  cases e.call <;> rfl

theorem mem_active_accept :
    a ∈ (s.acceptEvent e).active ↔ gives s.catalog e.event = some a ∨ a ∈ s.others e.event := by
  rw [active, acceptEvent_room, acceptEvent_catalog]
  cases e.event with
  | legacy content =>
    rw [gives, others, or_iff_right (Option.some_ne_none a).symm]
    rfl
  | session stateKey content =>
    simp only [RoomState.keep, others, gives, List.mem_filterMap, List.mem_filter, decide_eq_true_eq,
      Dict.mem_set s.room.nodup]
    constructor
    · rintro ⟨entry, rfl | ⟨listed, other⟩, read⟩
      · exact .inl read
      · exact .inr ⟨entry, ⟨listed, other⟩, read⟩
    · rintro (read | ⟨entry, ⟨listed, other⟩, read⟩)
      · exact ⟨_, .inl rfl, read⟩
      · exact ⟨entry, .inr ⟨listed, other⟩, read⟩

theorem others_subset : ∀ b ∈ s.others e.event, b ∈ s.active := by
  intro b mem
  cases event : e.event with
  | legacy content => rwa [event] at mem
  | session stateKey content =>
    rw [event, others] at mem
    exact (List.filter_sublist.filterMap (readEntry s.catalog)).subset mem

theorem legacyActive_accept (legacy : ∀ content, e.event = .legacy content →
    parseLegacyExtensionContent s.catalog content = none) :
    (s.acceptEvent e).legacyActive = s.otherLegacy e.event := by
  rw [legacyActive, acceptEvent_room, acceptEvent_catalog]
  cases event : e.event with
  | legacy content => exact legacy content event
  | session stateKey content => rfl

theorem oneNewest_congr {l l' : List ActiveExtension} (same : ∀ b, b ∈ l ↔ b ∈ l') :
    OneNewest l ↔ OneNewest l' := by
  have newest : ∀ b, IsNewest ActiveExtension.updatedAt l b ↔ IsNewest ActiveExtension.updatedAt l' b := by
    intro b
    constructor
    · rintro ⟨mem, newest⟩
      exact ⟨(same b).mp mem, fun c h => newest c ((same c).mpr h)⟩
    · rintro ⟨mem, newest⟩
      exact ⟨(same b).mpr mem, fun c h => newest c ((same c).mp h)⟩
  simp only [OneNewest, newest]

/-- Nothing else is active when everything else is older. -/
theorem oneNewest_of_older (older : ∀ other ∈ s.active, other ≠ a → other.updatedAt < a.updatedAt)
    (mem : a ∈ s.active) : OneNewest s.active := by
  have same : ∀ b, IsNewest ActiveExtension.updatedAt s.active b → b = a := by
    intro b newest
    by_contra ne
    exact absurd (newest.newest a mem) (not_le.mpr (older b newest.mem ne))
  intro b c newest newest'
  rw [same b newest, same c newest']

theorem good_accept_start {session : ActiveExtension} (call : e.call = .start session)
    (faithful : Faithful s.catalog e) : (s.acceptEvent e).Good ↔ s.CleanEvent e := by
  simp only [Faithful, call] at faithful
  obtain ⟨source, read⟩ := faithful
  have latest : (s.acceptEvent e).latest = some session := by rw [acceptEvent, call]
  have running : (s.acceptEvent e).stopped = false := by rw [acceptEvent, call]
  simp only [CleanEvent, call]
  by_cases id : session.extensionId = ""
  · refine iff_of_false (fun good => ?_) fun clean => clean.1 id
    have only := good.latest session latest
    have unread : ∀ x, x ≠ some session → ¬(s.acceptEvent e).Shows x := fun x ne shows_ =>
      ne (only x shows_)
    obtain ⟨x, shows_⟩ : ∃ x, (s.acceptEvent e).Shows x := ⟨_, _, List.Perm.refl _, rfl⟩
    rw [only x shows_, shows_some] at shows_
    rcases shows_ with newest | ⟨-, legacy⟩
    · obtain ⟨entry, -, parsed⟩ := List.mem_filterMap.mp newest.mem
      exact (parse_spec parsed).1 id
    · obtain ⟨content, -, parsed⟩ := Option.bind_eq_some_iff.mp legacy
      exact absurd (source.symm.trans (parseLegacy_source parsed)) (by decide)
  · rw [if_neg id] at read
    have mem : session ∈ (s.acceptEvent e).active := mem_active_accept.mpr (.inl read)
    have older : (∀ other ∈ (s.acceptEvent e).active, other ≠ session →
        other.updatedAt < session.updatedAt) ↔
        ∀ other ∈ s.others e.event, other ≠ session → other.updatedAt < session.updatedAt := by
      refine forall_congr' fun other => ?_
      rw [mem_active_accept, read]
      constructor
      · exact fun h listed => h (.inr listed)
      · rintro h (same | listed) ne
        · exact absurd (Option.some.inj same).symm ne
        · exact h listed ne
    rw [and_iff_right id, ← older]
    constructor
    · exact fun good => (only_iff mem).mp (good.latest session latest)
    · intro h
      refine ⟨agree_iff.mpr (oneNewest_of_older h mem), fun other known => ?_, fun off => ?_⟩
      · rw [latest] at known
        cases known
        exact (only_iff mem).mpr h
      · rw [running] at off
        cases off

theorem good_accept_stop {ofShown : Option Nat} (call : e.call = .stop ofShown) (good : s.Good)
    (faithful : Faithful s.catalog e) : (s.acceptEvent e).Good ↔ s.CleanEvent e := by
  simp only [Faithful, call] at faithful
  obtain ⟨read, legacy⟩ := faithful
  have latest : (s.acceptEvent e).latest = none := by rw [acceptEvent, call]
  have stopped : (s.acceptEvent e).stopped = (s.stopped || decide (ofShown = some s.starts)) := by
    rw [acceptEvent, call]
  have left : ∀ b, b ∈ (s.acceptEvent e).active ↔ b ∈ s.others e.event := by
    intro b
    rw [mem_active_accept, read, or_iff_right (Option.some_ne_none b).symm]
  have empty : (s.acceptEvent e).active = [] ↔ s.others e.event = [] := by
    rw [List.eq_nil_iff_forall_not_mem, List.eq_nil_iff_forall_not_mem]
    exact forall_congr' fun b => not_congr (left b)
  simp only [CleanEvent, call]
  constructor
  · intro after
    refine ⟨(oneNewest_congr left).mp (agree_iff.mp after.agree), fun shown => ?_⟩
    have off : (s.acceptEvent e).stopped = true := by rw [stopped, decide_eq_true shown, Bool.or_true]
    obtain ⟨gone, legacyGone⟩ := silent_iff.mp (after.stopped off)
    exact ⟨empty.mp gone, (legacyActive_accept legacy).symm.trans legacyGone⟩
  · rintro ⟨one, alone⟩
    refine ⟨agree_iff.mpr ((oneNewest_congr left).mpr one), fun other known => ?_, fun off => ?_⟩
    · rw [latest] at known
      cases known
    · have gone : s.others e.event = [] ∧ s.otherLegacy e.event = none := by
        rw [stopped, Bool.or_eq_true, decide_eq_true_eq] at off
        rcases off with already | shown
        · obtain ⟨nothing, noLegacy⟩ := silent_iff.mp (good.stopped already)
          refine ⟨List.eq_nil_iff_forall_not_mem.mpr fun b mem => ?_, ?_⟩
          · exact absurd (others_subset b mem) (nothing ▸ List.not_mem_nil)
          · cases e.event with
            | session stateKey content => exact noLegacy
            | legacy content => rfl
        · exact alone shown
      exact silent_iff.mpr ⟨empty.mpr gone.1, (legacyActive_accept legacy).trans gone.2⟩

/-! ## Steps -/

/-- Clients read of every event on its way what it was sent for. -/
def AllFaithful (s : ExtensionRoom) : Prop := ∀ e ∈ s.sent, Faithful s.catalog e

theorem faithful_start {d : ExtensionDefinition} {userId random : String} {now updatedAt : Int}
    {catalog : List ExtensionDefinition} (user : userId ≠ "")
    (found : (catalog.find? fun e => e.id = d.id) = some d) :
    Faithful catalog
      ⟨.session (createSessionId random)
        (serializeSessionContent (buildActiveSession d userId random now) .active updatedAt),
        .start { buildActiveSession d userId random now with updatedAt }⟩ := by
  refine ⟨rfl, ?_⟩
  split
  · rename_i id
    cases read : gives catalog (.session (createSessionId random)
        (serializeSessionContent (buildActiveSession d userId random now) .active updatedAt)) with
    | none => rfl
    | some ext =>
      have unnamed : nonempty d.id = none := if_pos id
      simp only [gives, parseExtensionSessionContent, Option.bind_eq_bind, Option.bind_eq_some_iff] at read
      obtain ⟨_, -, _, -, _, -, extensionId, ⟨text, given, nonempty⟩, -⟩ := read
      cases given
      cases unnamed.symm.trans nonempty
  · rename_i id
    exact parse_started id user found

theorem faithful_stop {catalog : List ExtensionDefinition} {active : Option ActiveExtension}
    {updatedAt : Int} {ofShown : Option Nat} :
    Faithful catalog ⟨stopEvent active updatedAt, .stop ofShown⟩ := by
  show gives catalog (stopEvent active updatedAt) = none ∧ ∀ content,
    stopEvent active updatedAt = .legacy content → parseLegacyExtensionContent catalog content = none
  rw [stopEvent]
  cases active.filter fun ext => ext.source = .session with
  | some ext => exact ⟨parse_ended ext updatedAt ext.stateKey, fun content same => (by cases same)⟩
  | none =>
    refine ⟨rfl, fun content same => ?_⟩
    cases same
    rfl

theorem AllFaithful.append (all : s.AllFaithful) (faithful : Faithful s.catalog e) :
    ∀ e' ∈ s.sent ++ [e], Faithful s.catalog e' := by
  intro e' mem
  rcases List.mem_append.mp mem with earlier | last
  · exact all e' earlier
  · rw [List.mem_singleton.mp last]
    exact faithful

theorem AllFaithful.step (all : s.AllFaithful) (action : ExtensionAction) :
    (s.step action).AllFaithful := by
  cases action with
  | start member extensionId random now updatedAt =>
    rw [ExtensionRoom.step]
    split
    · rename_i m d _ found
      split
      · exact all
      · rename_i user
        have id : d.id = extensionId := by simpa using List.find?_some found
        exact all.append (faithful_start user (id ▸ found))
    · exact all
  | stop member updatedAt =>
    rw [ExtensionRoom.step]
    split
    · exact all.append faithful_stop
    · exact all
  | accept n =>
    rw [ExtensionRoom.step]
    split
    · intro e' mem
      rw [acceptEvent_sent] at mem
      rw [acceptEvent_catalog]
      exact all e' (List.mem_of_mem_eraseIdx mem)
    · exact all
  | deliver member order =>
    rw [ExtensionRoom.step]
    split <;> exact all

/-- What is shown depends on the catalog, the room and the history alone. -/
theorem Good.congr {s' : ExtensionRoom} (good : s.Good) (catalog : s'.catalog = s.catalog)
    (room : s'.room = s.room) (latest : s'.latest = s.latest) (stopped : s'.stopped = s.stopped) :
    s'.Good := by
  have same : ∀ x, s'.Shows x ↔ s.Shows x := fun x => by rw [Shows, Shows, catalog, room]
  refine ⟨fun x y hx hy => good.agree x y ((same x).mp hx) ((same y).mp hy), fun session known x hx => ?_,
    fun off x hx => ?_⟩
  · exact good.latest session (latest ▸ known) x ((same x).mp hx)
  · exact good.stopped (stopped.symm.trans off) x ((same x).mp hx)

theorem good_step_iff (all : s.AllFaithful) (good : s.Good) (action : ExtensionAction) :
    (s.step action).Good ↔ s.Clean action := by
  cases action with
  | start member extensionId random now updatedAt =>
    refine iff_of_true ?_ trivial
    rw [ExtensionRoom.step]
    split
    · split
      · exact good
      · exact good.congr rfl rfl rfl rfl
    · exact good
  | stop member updatedAt =>
    refine iff_of_true ?_ trivial
    rw [ExtensionRoom.step]
    split
    · exact good.congr rfl rfl rfl rfl
    · exact good
  | accept n =>
    rw [ExtensionRoom.step, Clean]
    cases here : s.sent[n]? with
    | none => exact iff_of_true good fun e h => (by cases h)
    | some e =>
      have faithful := all e (List.mem_of_getElem? here)
      have kept : Good { s with sent := s.sent.eraseIdx n } := good.congr rfl rfl rfl rfl
      have one : (∀ e' ∈ some e, s.CleanEvent e') ↔ s.CleanEvent e :=
        ⟨fun h => h e rfl, fun h e' same => (Option.some.inj same) ▸ h⟩
      rw [one]
      cases call : e.call with
      | start session => exact good_accept_start call faithful
      | stop ofShown => exact good_accept_stop call kept faithful
  | deliver member order =>
    refine iff_of_true ?_ trivial
    rw [ExtensionRoom.step]
    split
    · exact good.congr rfl rfl rfl rfl
    · exact good

/-- Whatever the members start and stop, by whatever clocks, and in whatever order it is accepted and
delivered: they agree on the running extension in every state exactly when every event that is accepted
is clean. -/
theorem session_shown_iff (catalog : List ExtensionDefinition) (members : List Member) (room : RoomState)
    (actions : List ExtensionAction) :
    (begin catalog members room).Good ∧
        Machine.Along step (fun s a => (s.step a).Good) (begin catalog members room) actions ↔
      OneNewest (begin catalog members room).active ∧
        Machine.Along step Clean (begin catalog members room) actions := by
  have start : (begin catalog members room).Good ↔ OneNewest (begin catalog members room).active := by
    refine ⟨fun good => agree_iff.mp good.agree, fun one => ⟨agree_iff.mpr one, ?_, ?_⟩⟩
    · intro session known
      cases known
    · intro off
      cases off
  have faithful : (begin catalog members room).AllFaithful := fun e mem => absurd mem List.not_mem_nil
  have lawful : Machine.Along step (fun s _ => s.AllFaithful) (begin catalog members room) actions :=
    Machine.Along.of_invariant AllFaithful (Machine.Along.of_forall (P := fun _ _ => True) fun _ _ => trivial)
      (fun s a _ all => all.step a) (fun s a _ all => all) faithful
  constructor
  · rintro ⟨good, along⟩
    exact ⟨start.mp good,
      (Machine.along_step_iff_of Good lawful (fun s a all good => good_step_iff all good a) good).mp along⟩
  · rintro ⟨one, along⟩
    have good := start.mpr one
    exact ⟨good,
      (Machine.along_step_iff_of Good lawful (fun s a all good => good_step_iff all good a) good).mpr along⟩

/-! ## Members that do not agree -/

def sampleExtension : ExtensionDefinition := ⟨"worldview", "Worldview", "/ext/worldview/", "public", "A map"⟩

def sampleRoom (members : List String) : ExtensionRoom :=
  begin [sampleExtension] (members.map fun userId => ⟨userId, none⟩) ⟨[], List.nodup_nil, none⟩

/-- Two starts, accepted in turn, by clocks that say this. -/
def twoStarts (other : Nat) (early late : Int) : List ExtensionAction :=
  [.start 0 "worldview" "1" early early, .accept 0, .start other "worldview" "2" late late, .accept 0]

def startedBy (userId random : String) (now : Int) : ActiveExtension :=
  buildActiveSession sampleExtension userId random now

theorem active_twoStarts (early late : Int) :
    (Machine.run step (sampleRoom ["@alice:a", "@bob:b"]) (twoStarts 1 early late)).active =
      [startedBy "@alice:a" "1" early, startedBy "@bob:b" "2" late] := by
  rfl

/-- A start by a clock that is behind is not shown; two starts of one time are shown as each client's map
has them; and a member who starts twice and stops what is shown is left with the first. -/
theorem session_not_shown :
    ¬(Machine.run step (sampleRoom ["@alice:a", "@bob:b"]) (twoStarts 1 5 3)).Good ∧
    ¬(Machine.run step (sampleRoom ["@alice:a", "@bob:b"]) (twoStarts 1 5 5)).Good ∧
    ¬(Machine.run step (sampleRoom ["@alice:a"]) (twoStarts 0 3 5 ++ [.stop 0 6, .accept 0])).Good := by
  refine ⟨fun good => ?_, fun good => ?_, fun good => ?_⟩
  · have older := (only_iff (a := startedBy "@bob:b" "2" 3) (by rw [active_twoStarts]; simp)).mp
      (good.latest _ rfl) (startedBy "@alice:a" "1" 5) (by rw [active_twoStarts]; simp) (by decide)
    exact absurd older (by decide)
  · have one := agree_iff.mp good.agree
    rw [active_twoStarts] at one
    have same := one (startedBy "@alice:a" "1" 5) (startedBy "@bob:b" "2" 5)
      ⟨by simp, by simp [startedBy, buildActiveSession]⟩ ⟨by simp, by simp [startedBy, buildActiveSession]⟩
    exact absurd same (by decide)
  · have left : startedBy "@alice:a" "1" 3 ∈ (Machine.run step (sampleRoom ["@alice:a"])
        (twoStarts 0 3 5 ++ [.stop 0 6, .accept 0])).active := List.mem_singleton_self _
    have silent := (silent_iff.mp (good.stopped (by decide))).1
    exact absurd left (silent ▸ List.not_mem_nil)

end ExtensionRoom

end Concorrd
