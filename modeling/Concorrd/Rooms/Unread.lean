import Mathlib.Data.List.DropRight
import Mathlib.Data.List.Infix
import Concorrd.Lib.Json

/-!
# Unread badges

`hooks/useUnreadCounts.ts`: the badge of a room is counted on the live timeline, from the newest event back to
the newest one that the user has read. It counts all that is unread where what is older than a read event is
read too; where it is not, the exact cases in which the badge is right all the same are those of
`badgeRight_iff`.
-/

namespace Concorrd.Unread

/-- An event of a timeline, with what the badge reads of it. -/
structure MatrixEvent where
  id : Option String
  type : String
  sender : Option String
  content : Json

def UNREAD_CONTRIBUTING_TYPES : List String := ["m.room.message", "m.room.encrypted", "m.sticker", "m.call.invite"]

def UNREAD_DISPLAY_CAP : Nat := 99

structure Counts where
  unread : Nat
  highlight : Nat
  deriving DecidableEq

namespace MatrixEvent

def contributes (ev : MatrixEvent) : Bool := UNREAD_CONTRIBUTING_TYPES.contains ev.type

/-- An empty id counts as none. -/
def givenId (ev : MatrixEvent) : Option String := ev.id.filter (· ≠ "")

/-- `m.mentions` lists the user. -/
def mentions (ev : MatrixEvent) (userId : String) : Bool :=
  match (ev.content.get "m.mentions").bind (·.get "user_ids") with
  | some (.arr user_ids) => user_ids.contains (.str userId)
  | _ => false

def bodyIncludes (ev : MatrixEvent) (userId : String) : Bool :=
  match ev.content.get "body" with
  | some (.str body) => decide (userId.toList <:+: body.toList)
  | _ => false

def highlights (ev : MatrixEvent) (userId : String) : Bool := ev.mentions userId || ev.bodyIncludes userId

end MatrixEvent

/-- The last event that contributes, from the newest one back. -/
def findLastUnreadContributingEvent (timeline : List MatrixEvent) : Option MatrixEvent :=
  timeline.reverse.find? MatrixEvent.contributes

/-- The id that the read markers are set to, if they are. -/
def markRoomRead (timeline : List MatrixEvent) : Option String :=
  (findLastUnreadContributingEvent timeline).bind MatrixEvent.givenId

section
variable (hasUserReadEvent : String → Bool) (userId : String)

/-- The loop over the events, the newest first. -/
def countUnread (counts : Counts) : List MatrixEvent → Counts
  | [] => counts
  | ev :: older =>
    if ev.contributes = false then countUnread counts older
    else if ev.sender = some userId then countUnread counts older
    else match ev.givenId with
      | none => countUnread counts older
      | some evId =>
        -- what is older is taken to be read as well
        if hasUserReadEvent evId then counts
        else countUnread ⟨counts.unread + 1, counts.highlight + if ev.highlights userId then 1 else 0⟩ older

def computeUnreadForRoom (timeline : List MatrixEvent) : Counts :=
  let counts := countUnread hasUserReadEvent userId ⟨0, 0⟩ timeline.reverse
  ⟨min counts.unread (UNREAD_DISPLAY_CAP + 1), counts.highlight⟩

/-! ## What the badge is for -/

/-- A contributing event by someone else. -/
def ofOthers (ev : MatrixEvent) : Bool := ev.contributes && ev.sender ≠ some userId

/-- An event without an id is not one that was read. -/
def isRead (ev : MatrixEvent) : Bool := ev.givenId.any hasUserReadEvent

def isUnread (ev : MatrixEvent) : Bool := ofOthers userId ev && !isRead hasUserReadEvent ev

/-- All that is unread, wherever it is, and what of it mentions the user. -/
def unreadCounts (timeline : List MatrixEvent) : Counts where
  unread := min 100 (timeline.countP (isUnread hasUserReadEvent userId))
  highlight := timeline.countP fun ev => isUnread hasUserReadEvent userId ev && ev.highlights userId

/-- Not an event by someone else that was read. -/
def notRead (ev : MatrixEvent) : Bool := !(ofOthers userId ev && isRead hasUserReadEvent ev)

/-- The timeline after the newest event by someone else that was read. -/
def sinceRead (timeline : List MatrixEvent) : List MatrixEvent :=
  timeline.rtakeWhile (notRead hasUserReadEvent userId)

/-- The timeline up to that event. -/
def upToRead (timeline : List MatrixEvent) : List MatrixEvent :=
  timeline.rdropWhile (notRead hasUserReadEvent userId)

/-- The unread events behind a read one, and those without an id. -/
def missed (timeline : List MatrixEvent) : List MatrixEvent :=
  (upToRead hasUserReadEvent userId timeline).filter (isUnread hasUserReadEvent userId) ++
    (sinceRead hasUserReadEvent userId timeline).filter
      fun ev => isUnread hasUserReadEvent userId ev && ev.givenId.isNone

/-- The unread events with an id after the newest read one. -/
def asked (timeline : List MatrixEvent) : List MatrixEvent :=
  (sinceRead hasUserReadEvent userId timeline).filter
    fun ev => isUnread hasUserReadEvent userId ev && ev.givenId.isSome

/-- The badge counts what is unread, marking the room as read clears it, and what is not a message of someone
else does not count. -/
structure BadgeRight (timeline : List MatrixEvent) : Prop where
  counts : computeUnreadForRoom hasUserReadEvent userId timeline = unreadCounts hasUserReadEvent userId timeline
  /- The receipt has a target, the newest contributing event, and makes it and what is older read. -/
  clears : ∀ targetId ∈ markRoomRead timeline, ∃ older target newer, timeline = older ++ target :: newer ∧
    target.givenId = some targetId ∧ (∀ ev ∈ newer, ev.contributes = false) ∧
      ∀ hasUserReadEvent' : String → Bool,
        (∀ ev ∈ older ++ [target], ∀ evId ∈ ev.givenId, hasUserReadEvent' evId = true) →
          computeUnreadForRoom hasUserReadEvent' userId timeline = ⟨0, 0⟩
  empty : findLastUnreadContributingEvent timeline = none →
    computeUnreadForRoom hasUserReadEvent userId timeline = ⟨0, 0⟩
  ignores : ∀ older ev newer, timeline = older ++ newer → ev.contributes = false ∨ ev.sender = some userId →
    computeUnreadForRoom hasUserReadEvent userId (older ++ ev :: newer) =
      computeUnreadForRoom hasUserReadEvent userId timeline

end

/-! ## The loop -/

variable {hasUserReadEvent : String → Bool} {userId : String} {counts : Counts} {timeline : List MatrixEvent}

theorem countUnread_skip {ev : MatrixEvent} (skipped : ofOthers userId ev = false) (older : List MatrixEvent) :
    countUnread hasUserReadEvent userId counts (ev :: older) = countUnread hasUserReadEvent userId counts older := by
  rw [countUnread]
  by_cases contributes : ev.contributes = false
  · rw [if_pos contributes]
  · have own : ev.sender = some userId := by simpa [ofOthers, contributes] using skipped
    rw [if_neg contributes, if_pos own]

theorem countUnread_none {ev : MatrixEvent} (id : ev.givenId = none) (older : List MatrixEvent) :
    countUnread hasUserReadEvent userId counts (ev :: older) = countUnread hasUserReadEvent userId counts older := by
  rw [countUnread, id]
  split
  · rfl
  · split <;> rfl

theorem countUnread_some {ev : MatrixEvent} {evId : String} (counted : ofOthers userId ev = true)
    (id : ev.givenId = some evId) (older : List MatrixEvent) :
    countUnread hasUserReadEvent userId counts (ev :: older) =
      if hasUserReadEvent evId then counts
      else countUnread hasUserReadEvent userId
        ⟨counts.unread + 1, counts.highlight + if ev.highlights userId then 1 else 0⟩ older := by
  obtain ⟨contributes, other⟩ : ev.contributes = true ∧ ev.sender ≠ some userId := by
    simpa [ofOthers] using counted
  rw [countUnread, if_neg (by simp [contributes]), if_neg other, id]

/-- The loop counts, up to the newest event that was read, what is unread and has an id. -/
theorem countUnread_eq (events : List MatrixEvent) :
    countUnread hasUserReadEvent userId counts events =
      let counted := (events.takeWhile (notRead hasUserReadEvent userId)).filter
        fun ev => isUnread hasUserReadEvent userId ev && ev.givenId.isSome
      ⟨counts.unread + counted.length, counts.highlight + counted.countP (·.highlights userId)⟩ := by
  induction events generalizing counts with
  | nil => rfl
  | cons ev older ih =>
    by_cases counted : ofOthers userId ev = true
    · cases id : ev.givenId with
      | none =>
        rw [countUnread_none id, ih]
        simp [notRead, isRead, isUnread, id]
      | some evId =>
        rw [countUnread_some counted id]
        by_cases read : hasUserReadEvent evId = true
        · simp [notRead, isRead, id, counted, read]
        · rw [if_neg read, ih]
          simp [notRead, isRead, isUnread, id, counted, read, List.countP_cons]
          omega
    · rw [countUnread_skip (by simpa using counted), ih]
      simp [notRead, isUnread, counted]

theorem computeUnreadForRoom_eq : computeUnreadForRoom hasUserReadEvent userId timeline =
    ⟨min (asked hasUserReadEvent userId timeline).length 100,
      (asked hasUserReadEvent userId timeline).countP (·.highlights userId)⟩ := by
  rw [computeUnreadForRoom, countUnread_eq]
  simp [asked, sinceRead, List.rtakeWhile, UNREAD_DISPLAY_CAP]

/-! ## What it misses -/

/-- What is unread is asked for or missed. -/
theorem perm_asked_missed : (timeline.filter (isUnread hasUserReadEvent userId)).Perm
    (asked hasUserReadEvent userId timeline ++ missed hasUserReadEvent userId timeline) := by
  have parts : timeline.filter (isUnread hasUserReadEvent userId) =
      (upToRead hasUserReadEvent userId timeline).filter (isUnread hasUserReadEvent userId) ++
        (sinceRead hasUserReadEvent userId timeline).filter (isUnread hasUserReadEvent userId) := by
    rw [← List.filter_append, upToRead, sinceRead, List.rdropWhile_append_rtakeWhile]
  have ids := List.filter_append_perm (fun ev : MatrixEvent => ev.givenId.isSome)
    ((sinceRead hasUserReadEvent userId timeline).filter (isUnread hasUserReadEvent userId))
  rw [List.filter_filter, List.filter_filter] at ids
  have named : asked hasUserReadEvent userId timeline = (sinceRead hasUserReadEvent userId timeline).filter
      fun ev => ev.givenId.isSome && isUnread hasUserReadEvent userId ev := by
    simp only [asked, Bool.and_comm]
  have unnamed : missed hasUserReadEvent userId timeline =
      (upToRead hasUserReadEvent userId timeline).filter (isUnread hasUserReadEvent userId) ++
        (sinceRead hasUserReadEvent userId timeline).filter
          fun ev => !ev.givenId.isSome && isUnread hasUserReadEvent userId ev := by
    simp only [missed, Bool.and_comm, Option.not_isSome]
  rw [parts, named, unnamed]
  refine (List.Perm.append_left _ ids.symm).trans ?_
  rw [← List.append_assoc, ← List.append_assoc]
  exact List.Perm.append_right _ List.perm_append_comm

theorem unreadCounts_eq : unreadCounts hasUserReadEvent userId timeline =
    ⟨min 100 ((asked hasUserReadEvent userId timeline).length + (missed hasUserReadEvent userId timeline).length),
      (asked hasUserReadEvent userId timeline).countP (·.highlights userId) +
        (missed hasUserReadEvent userId timeline).countP (·.highlights userId)⟩ := by
  have all := (@perm_asked_missed hasUserReadEvent userId timeline).length_eq
  have highlighted := (@perm_asked_missed hasUserReadEvent userId timeline).countP_eq (·.highlights userId)
  rw [← List.countP_eq_length_filter, List.length_append] at all
  rw [List.countP_filter, List.countP_append] at highlighted
  rw [unreadCounts, all, ← highlighted]
  simp only [Bool.and_comm]

theorem counts_iff : computeUnreadForRoom hasUserReadEvent userId timeline =
      unreadCounts hasUserReadEvent userId timeline ↔
    (∀ ev ∈ missed hasUserReadEvent userId timeline, ev.highlights userId = false) ∧
      (missed hasUserReadEvent userId timeline = [] ∨ 100 ≤ (asked hasUserReadEvent userId timeline).length) := by
  have unmentioned : (missed hasUserReadEvent userId timeline).countP (·.highlights userId) = 0 ↔
      ∀ ev ∈ missed hasUserReadEvent userId timeline, ev.highlights userId = false := by
    simp [List.countP_eq_zero]
  rw [computeUnreadForRoom_eq, unreadCounts_eq, Counts.mk.injEq, ← unmentioned, ← List.length_eq_zero_iff]
  constructor
  · rintro ⟨unread, highlight⟩
    constructor <;> omega
  · rintro ⟨highlight, unread⟩
    constructor <;> omega

/-! ## Marking as read -/

theorem countUnread_of_read {events : List MatrixEvent}
    (read : ∀ ev ∈ events, ev.contributes = true → ∀ evId ∈ ev.givenId, hasUserReadEvent evId = true) :
    countUnread hasUserReadEvent userId counts events = counts := by
  induction events with
  | nil => rfl
  | cons ev older ih =>
    have rest := ih fun ev' mem => read ev' (List.mem_cons_of_mem ev mem)
    by_cases counted : ofOthers userId ev = true
    · cases id : ev.givenId with
      | none => rw [countUnread_none id, rest]
      | some evId =>
        have contributes : ev.contributes = true := by
          simp [ofOthers] at counted
          exact counted.1
        rw [countUnread_some counted id, if_pos (read ev List.mem_cons_self contributes evId id)]
    · rw [countUnread_skip (by simpa using counted), rest]

theorem compute_of_read
    (read : ∀ ev ∈ timeline, ev.contributes = true → ∀ evId ∈ ev.givenId, hasUserReadEvent evId = true) :
    computeUnreadForRoom hasUserReadEvent userId timeline = ⟨0, 0⟩ := by
  rw [computeUnreadForRoom, countUnread_of_read fun ev mem => read ev (List.mem_reverse.mp mem)]
  rfl

/-- The target is the newest event that contributes. -/
theorem exists_split_of_find {target : MatrixEvent} (found : findLastUnreadContributingEvent timeline = some target) :
    ∃ older newer, timeline = older ++ target :: newer ∧ ∀ ev ∈ newer, ev.contributes = false := by
  obtain ⟨-, newer, older, split, none⟩ := List.find?_eq_some_iff_append.mp found
  refine ⟨older.reverse, newer.reverse, ?_, fun ev mem => ?_⟩
  · rw [← List.reverse_reverse timeline, split]
    simp
  · simpa using none ev (List.mem_reverse.mp mem)

theorem clears_markRoomRead {targetId : String} (sent : targetId ∈ markRoomRead timeline) :
    ∃ older target newer, timeline = older ++ target :: newer ∧
      target.givenId = some targetId ∧ (∀ ev ∈ newer, ev.contributes = false) ∧
        ∀ hasUserReadEvent' : String → Bool,
          (∀ ev ∈ older ++ [target], ∀ evId ∈ ev.givenId, hasUserReadEvent' evId = true) →
            computeUnreadForRoom hasUserReadEvent' userId timeline = ⟨0, 0⟩ := by
  obtain ⟨target, found, id⟩ := Option.bind_eq_some_iff.mp sent
  obtain ⟨older, newer, split, none⟩ := exists_split_of_find found
  refine ⟨older, target, newer, split, id, none, fun hasUserReadEvent' read => compute_of_read ?_⟩
  intro ev mem contributes
  rw [split, List.append_cons] at mem
  rcases List.mem_append.mp mem with before | after
  · exact read ev before
  · exact absurd (none ev after) (by simp [contributes])

/-! ## What does not count -/

theorem countUnread_append_skip {ev : MatrixEvent} (skipped : ofOthers userId ev = false)
    (newer older : List MatrixEvent) : countUnread hasUserReadEvent userId counts (newer ++ ev :: older) =
      countUnread hasUserReadEvent userId counts (newer ++ older) := by
  induction newer generalizing counts with
  | nil => exact countUnread_skip skipped older
  | cons first newer ih =>
    rw [List.cons_append, List.cons_append]
    by_cases counted : ofOthers userId first = true
    · cases id : first.givenId with
      | none => rw [countUnread_none id, countUnread_none id, ih]
      | some evId => rw [countUnread_some counted id, countUnread_some counted id, ih]
    · have skips : ofOthers userId first = false := by simpa using counted
      rw [countUnread_skip skips, countUnread_skip skips, ih]

theorem compute_append_skip {older newer : List MatrixEvent} {ev : MatrixEvent}
    (other : ev.contributes = false ∨ ev.sender = some userId) :
    computeUnreadForRoom hasUserReadEvent userId (older ++ ev :: newer) =
      computeUnreadForRoom hasUserReadEvent userId (older ++ newer) := by
  have skipped : ofOthers userId ev = false := by
    rcases other with silent | own
    · simp [ofOthers, silent]
    · simp [ofOthers, own]
  have turned : (older ++ ev :: newer).reverse = newer.reverse ++ ev :: older.reverse := by simp
  rw [computeUnreadForRoom, turned, countUnread_append_skip skipped, ← List.reverse_append]
  rfl

/-! ## The badge -/

/-- The badge is right exactly when what it misses does not mention the user, and there is nothing that it
misses or a hundred events are unread without it. -/
theorem badgeRight_iff : BadgeRight hasUserReadEvent userId timeline ↔
    (∀ ev ∈ missed hasUserReadEvent userId timeline, ev.highlights userId = false) ∧
      (missed hasUserReadEvent userId timeline = [] ∨ 100 ≤ (asked hasUserReadEvent userId timeline).length) := by
  refine ⟨fun right => counts_iff.mp right.counts, fun condition => ?_⟩
  refine ⟨counts_iff.mpr condition, fun targetId sent => clears_markRoomRead sent, fun none => ?_, ?_⟩
  · refine compute_of_read fun ev mem contributes => ?_
    exact absurd contributes (List.find?_eq_none.mp none ev (List.mem_reverse.mpr mem))
  · rintro older ev newer rfl other
    exact compute_append_skip other

/-- The user has read the reply in a thread, but not the message before it. -/
def messageAndReply : List MatrixEvent :=
  [⟨some "$message", "m.room.message", some "@other:host",
      .obj [("m.mentions", .obj [("user_ids", .arr [.str "@me:host"])])]⟩,
    ⟨some "$reply", "m.room.message", some "@other:host", .obj []⟩]

/-- The message is unread and mentions the user, and the badge does not show it. -/
theorem message_missed : computeUnreadForRoom (· = "$reply") "@me:host" messageAndReply = ⟨0, 0⟩ ∧
    unreadCounts (· = "$reply") "@me:host" messageAndReply = ⟨1, 1⟩ ∧
    ¬ BadgeRight (· = "$reply") "@me:host" messageAndReply := by
  have shown : computeUnreadForRoom (· = "$reply") "@me:host" messageAndReply = ⟨0, 0⟩ := by
    simp [computeUnreadForRoom, messageAndReply, countUnread, MatrixEvent.contributes, MatrixEvent.givenId,
      UNREAD_CONTRIBUTING_TYPES, Option.filter]
  have unread : unreadCounts (· = "$reply") "@me:host" messageAndReply = ⟨1, 1⟩ := by
    simp [unreadCounts, messageAndReply, isUnread, ofOthers, isRead, MatrixEvent.contributes, MatrixEvent.givenId,
      UNREAD_CONTRIBUTING_TYPES, Option.filter, MatrixEvent.highlights, MatrixEvent.mentions, Json.get]
  refine ⟨shown, unread, fun right => ?_⟩
  exact absurd (shown.symm.trans (right.counts.trans unread)) (by decide)

end Concorrd.Unread
