import Concorrd.Lib.Run
import Concorrd.Rooms.Messages

/-!
# The view of a room

`useRoomMessages` of `hooks/useMatrix.ts` as a machine. One mounted hook follows the room it is given:
an effect extracts the room's messages and asks for older ones, timeline events arm a timer that
extracts again, and `loadMore` asks for more. A request is answered in its own time, whichever room
the hook has moved to by then.

An extraction shows its list only when the list's key differs from the last key.
-/

namespace Concorrd

open JsText (truthy)

/-! ## The key of a list -/

def mark (raw : Option Json) (letter : String) : String := if raw.any Json.isTruthy then letter else "."

def messageKey (m : ChatMessage) : String :=
  m.id ++ ":" ++ toString m.redacted ++ ":" ++ toString m.edited ++ ":" ++
    toString (JsText.length m.body) ++ ":" ++ mark m.chartRaw "c" ++ ":" ++ mark m.widgetRaw "w" ++ ":" ++
    String.join (m.reactions.map fun r => r.emoji ++ toString r.count)

def idsKey (msgs : List ChatMessage) : String := ",".intercalate (msgs.map messageKey)

/-! ## The hook -/

/-- A request for older events. The effect that made it, where one did, is named by its number. -/
structure ScrollRequest where
  room : String
  effect : Option Nat

structure RoomMessages where
  /-- The live timelines of the rooms the client knows. -/
  rooms : Dict String (List MatrixEvent)
  roomId : Option String
  messages : List ChatMessage
  isPaginating : Bool
  hasMore : Bool
  lastIds : String
  /-- The timer of a debounced extraction is armed. -/
  pending : Bool
  /-- The room of the last extraction made by an effect. -/
  extractRef : Option String
  effect : Nat
  requests : List ScrollRequest
  /-- The rooms of which the homeserver has answered that there are no older events. -/
  exhausted : List String

namespace RoomMessages

def mount (rooms : Dict String (List MatrixEvent)) : RoomMessages :=
  ⟨rooms, none, [], false, true, "", false, none, 0, [], []⟩

/-- The room the hook is given. -/
def room (s : RoomMessages) : Option String := truthy s.roomId

variable (session : ClientSession)

/-- The end of `extractMessages`: the list is shown if its key is another. -/
def publish (s : RoomMessages) (msgs : List ChatMessage) : RoomMessages :=
  if idsKey msgs ≠ s.lastIds then { s with lastIds := idsKey msgs, messages := msgs } else s

/-- `extractMessages`, as the effect of the room made it. -/
def extract (s : RoomMessages) (room : String) : RoomMessages :=
  match s.rooms.get room with
  | none => s
  | some timeline => s.publish (extractMessages session timeline)

/-- The first scrollback of a room that shows no message. -/
def backfill (s : RoomMessages) (room : String) : RoomMessages :=
  match s.rooms.get room with
  | some timeline =>
    if timeline.any fun ev => ev.type = "m.room.message" then s
    else { s with isPaginating := true, requests := s.requests ++ [⟨room, some s.effect⟩] }
  | none => s

def runEffect (s : RoomMessages) : RoomMessages :=
  match s.room with
  | none => { s with messages := [], lastIds := "", hasMore := true }
  | some room => ({ s with extractRef := some room }.extract session room).backfill room

/-- The hook is given another room: the effect's cleanup, and the effect. -/
def switchRoom (s : RoomMessages) (roomId : Option String) : RoomMessages :=
  if roomId = s.roomId then s
  else { s with roomId := roomId, pending := false, effect := s.effect + 1 }.runEffect session

/-- A room's live timeline changes, and the listeners hear of it. -/
def changeTimeline (s : RoomMessages) (room : String) (timeline : List MatrixEvent) : RoomMessages :=
  { s with rooms := s.rooms.set room timeline, pending := s.pending || s.room = some room }

/-- The debounced extraction. -/
def fire (s : RoomMessages) : RoomMessages :=
  match s.pending, s.room with
  | true, some room => { s with pending := false }.extract session room
  | _, _ => s

def loadMore (s : RoomMessages) : RoomMessages :=
  match s.room with
  | none => s
  | some room =>
    if s.isPaginating || !s.hasMore then s
    else if (s.rooms.get room).isNone then s
    else { s with isPaginating := true, requests := s.requests ++ [⟨room, none⟩] }

/-- The homeserver's word on a room, heard by anybody or not. -/
def hear (s : RoomMessages) (request : ScrollRequest) (more : Bool) : RoomMessages :=
  if more then s else { s with exhausted := request.room :: s.exhausted }

/-- The answer is taken in, and the messages are extracted. -/
def takeIn (s : RoomMessages) (more : Bool) : Option String → RoomMessages
  | some room => { { s with hasMore := more }.extract session room with isPaginating := false }
  | none => { s with hasMore := more, isPaginating := false }

/-- The answer to a request: whether there are more events, or a failure. -/
def settle (s : RoomMessages) (request : ScrollRequest) : Option Bool → RoomMessages
  | none =>
    -- an effect that was cleaned up takes no answer
    if request.effect.any (· ≠ s.effect) then s else { s with isPaginating := false }
  | some more =>
    match request.effect with
    | some effect =>
      if effect ≠ s.effect then s.hear request more
      else (s.hear request more).takeIn session more (some request.room)
    | none => (s.hear request more).takeIn session more s.extractRef

def answer (s : RoomMessages) (i : Nat) (result : Option Bool) : RoomMessages :=
  match s.requests[i]? with
  | none => s
  | some request => { s with requests := s.requests.eraseIdx i }.settle session request result

end RoomMessages

inductive RoomEvent
  | timeline (room : String) (timeline : List MatrixEvent)
  | fire
  | switch (roomId : Option String)
  | loadMore
  | answer (i : Nat) (result : Option Bool)

namespace RoomMessages

variable (session : ClientSession)

def step (s : RoomMessages) : RoomEvent → RoomMessages
  | .timeline room timeline => s.changeTimeline room timeline
  | .fire => s.fire session
  | .switch roomId => s.switchRoom session roomId
  | .loadMore => s.loadMore
  | .answer i result => s.answer session i result

/-! ## What is to be shown -/

/-- The messages of the room, none while it is not known. -/
def view (s : RoomMessages) : List ChatMessage :=
  ((s.room.bind s.rooms.get).map (extractMessages session)).getD []

/-- With no extraction pending, the messages are those of the room, and `hasMore` is false only if the
homeserver has said so of this room. -/
structure Faithful (s : RoomMessages) : Prop where
  messages : s.pending = false → s.messages = s.view session
  hasMore : s.hasMore = false → ∃ room ∈ s.exhausted, s.room = some room

/-! ## The condition -/

/-- The extraction of the room shows its list: the key is unchanged only if the list is. -/
def Tells (s : RoomMessages) (room : String) : Prop :=
  ∀ timeline, s.rooms.get room = some timeline →
    idsKey (extractMessages session timeline) = s.lastIds →
      s.messages = extractMessages session timeline

/-- The answer does no harm. That of an effect comes to its own room, or is dropped. That of `loadMore`
comes to the room it was asked of, and if not, it says that there are more events; and if no room
is selected, the last one shows nothing. -/
def AnswerClear (s : RoomMessages) (request : ScrollRequest) (more : Bool) : Prop :=
  match request.effect, s.room with
  | some effect, _ => effect = s.effect → s.pending = false → Tells session s request.room
  | none, some room =>
    (s.pending = false → Tells session s room) ∧
      (more = false → room = request.room ∨ room ∈ s.exhausted)
  | none, none =>
    more = true ∧ ∀ last ∈ s.extractRef, ∀ timeline ∈ s.rooms.get last,
      idsKey (extractMessages session timeline) = "" ∨ extractMessages session timeline = []

def Clear (s : RoomMessages) : RoomEvent → Prop
  | .timeline _ _ => True
  | .fire => s.pending = true → ∀ room ∈ s.room, Tells session s room
  | .switch roomId =>
    roomId ≠ s.roomId → ∀ room ∈ truthy roomId,
      (s.hasMore = true ∨ room ∈ s.exhausted) ∧ Tells session s room ∧
        (s.rooms.get room = none → s.messages = [])
  | .loadMore => True
  | .answer i result =>
    ∀ request ∈ s.requests[i]?, ∀ more ∈ result, AnswerClear session s request more

/-! ## One extraction -/

variable {session} {s : RoomMessages} {room : String}

theorem publish_eq (msgs : List ChatMessage) : ∃ lastIds messages,
    s.publish msgs = { s with lastIds := lastIds, messages := messages } := by
  rw [publish]
  split
  · exact ⟨_, _, rfl⟩
  · exact ⟨_, _, rfl⟩

theorem extract_eq : s.extract session room =
    { s with
      lastIds := (s.extract session room).lastIds, messages := (s.extract session room).messages } := by
  rw [extract]
  split
  · rfl
  · obtain ⟨lastIds, messages, same⟩ := publish_eq (s := s) (extractMessages session _)
    rw [same]

@[simp] theorem extract_rooms : (s.extract session room).rooms = s.rooms := by rw [extract_eq]
@[simp] theorem extract_roomId : (s.extract session room).roomId = s.roomId := by rw [extract_eq]
@[simp] theorem extract_room : (s.extract session room).room = s.room := by rw [extract_eq]; rfl
@[simp] theorem extract_hasMore : (s.extract session room).hasMore = s.hasMore := by rw [extract_eq]
@[simp] theorem extract_pending : (s.extract session room).pending = s.pending := by rw [extract_eq]
@[simp] theorem extract_extractRef : (s.extract session room).extractRef = s.extractRef := by
  rw [extract_eq]
@[simp] theorem extract_effect : (s.extract session room).effect = s.effect := by rw [extract_eq]
@[simp] theorem extract_requests : (s.extract session room).requests = s.requests := by
  rw [extract_eq]
@[simp] theorem extract_exhausted : (s.extract session room).exhausted = s.exhausted := by
  rw [extract_eq]
@[simp] theorem extract_view : (s.extract session room).view session = s.view session := by
  rw [view, extract_room, extract_rooms, view]

theorem extract_of_unknown (unknown : s.rooms.get room = none) : s.extract session room = s := by
  rw [extract, unknown]

theorem extract_of_known {timeline : List MatrixEvent} (known : s.rooms.get room = some timeline) :
    s.extract session room = s.publish (extractMessages session timeline) := by
  rw [extract, known]

theorem messages_publish (s : RoomMessages) (msgs : List ChatMessage) :
    (s.publish msgs).messages = if idsKey msgs = s.lastIds then s.messages else msgs := by
  by_cases same : idsKey msgs = s.lastIds
  · rw [publish, if_neg (not_not.mpr same), if_pos same]
  · rw [publish, if_pos same, if_neg same]

theorem messages_extract_of_known {timeline : List MatrixEvent}
    (known : s.rooms.get room = some timeline) :
    (s.extract session room).messages =
      if idsKey (extractMessages session timeline) = s.lastIds then s.messages
      else extractMessages session timeline := by
  rw [extract_of_known known, messages_publish]

theorem view_of_known {timeline : List MatrixEvent} (here : s.room = some room)
    (known : s.rooms.get room = some timeline) : s.view session = extractMessages session timeline := by
  rw [view, here, Option.bind_some, known, Option.map_some, Option.getD_some]

theorem view_of_unknown (here : s.room = some room) (unknown : s.rooms.get room = none) :
    s.view session = [] := by
  rw [view, here, Option.bind_some, unknown]
  rfl

theorem view_of_no_room (nowhere : s.room = none) : s.view session = [] := by
  rw [view, nowhere]
  rfl

/-- An extraction of the room shows it, exactly when it tells, and where the room is not known,
nothing was shown. -/
theorem messages_extract_iff (here : s.room = some room) :
    (s.extract session room).messages = s.view session ↔
      Tells session s room ∧ (s.rooms.get room = none → s.messages = []) := by
  cases known : s.rooms.get room with
  | none =>
    rw [extract_of_unknown known, view_of_unknown here known]
    exact ⟨fun empty => ⟨fun _ there => (by cases known.symm.trans there), fun _ => empty⟩,
      fun h => h.2 rfl⟩
  | some timeline =>
    rw [messages_extract_of_known known, view_of_known here known, Tells, known]
    constructor
    · intro shown
      refine ⟨fun _ there same => ?_, fun unknown => by cases unknown⟩
      cases there
      exact (if_pos same).symm.trans shown
    · rintro ⟨tells, -⟩
      split
      · rename_i same
        exact tells timeline rfl same
      · rfl

/-! ## What every state keeps -/

/-- What holds of the hook whatever happens: the last key is that of the list, the timer is armed for
a known room only, and a request of the running effect is for its room. -/
structure Sound (s : RoomMessages) : Prop where
  key : s.lastIds = idsKey s.messages
  armed : s.pending = true → ∃ room, s.room = some room ∧ s.rooms.get room ≠ none
  last : ∀ room ∈ s.room, s.extractRef = some room
  numbered : ∀ request ∈ s.requests, ∀ n ∈ request.effect, n ≤ s.effect
  own : ∀ request ∈ s.requests, request.effect = some s.effect → s.room = some request.room

theorem sound_mount (rooms : Dict String (List MatrixEvent)) : (mount rooms).Sound :=
  ⟨rfl, fun armed => (by cases armed), fun _ there => (by cases there),
    fun _ mem => (by cases mem), fun _ mem => (by cases mem)⟩

theorem key_publish (key : s.lastIds = idsKey s.messages) (msgs : List ChatMessage) :
    (s.publish msgs).lastIds = idsKey (s.publish msgs).messages := by
  rw [publish]
  split
  · rfl
  · exact key

theorem key_extract (key : s.lastIds = idsKey s.messages) :
    (s.extract session room).lastIds = idsKey (s.extract session room).messages := by
  cases known : s.rooms.get room with
  | none => rwa [extract_of_unknown known]
  | some timeline =>
    rw [extract_of_known known]
    exact key_publish key _

theorem Sound.extract (sound : s.Sound) : (s.extract session room).Sound where
  key := key_extract sound.key
  armed := by simpa using sound.armed
  last := by simpa using sound.last
  numbered := by simpa using sound.numbered
  own := by simpa using sound.own

theorem Sound.withRequests {requests : List ScrollRequest} (sound : s.Sound)
    (known : ∀ request ∈ requests, request ∈ s.requests ∨ request.effect = none ∨
      s.room = some request.room ∧ request.effect = some s.effect) (paginating : Bool) :
    { s with isPaginating := paginating, requests := requests }.Sound where
  key := sound.key
  armed := sound.armed
  last := sound.last
  numbered := fun request mem n number => by
    rcases known request mem with old | unnumbered | ⟨-, numbered⟩
    · exact sound.numbered request old n number
    · cases unnumbered.symm.trans number
    · cases numbered.symm.trans number
      exact le_rfl
  own := fun request mem number => by
    rcases known request mem with old | unnumbered | ⟨here, -⟩
    · exact sound.own request old number
    · cases unnumbered.symm.trans number
    · exact here

theorem Sound.backfill (sound : s.Sound) (here : s.room = some room) : (s.backfill room).Sound := by
  rw [RoomMessages.backfill]
  split
  · split
    · exact sound
    · refine sound.withRequests (fun request mem => ?_) true
      rcases List.mem_append.mp mem with old | new
      · exact .inl old
      · cases List.mem_singleton.mp new
        exact .inr (.inr ⟨here, rfl⟩)
  · exact sound

theorem Sound.switchRoom (sound : s.Sound) (roomId : Option String) :
    (s.switchRoom session roomId).Sound := by
  rw [RoomMessages.switchRoom]
  split
  · exact sound
  · rw [runEffect]
    -- the requests of earlier effects keep their numbers, and the new effect has none yet
    have earlier : ∀ request ∈ s.requests, request.effect ≠ some (s.effect + 1) :=
      fun request mem number => absurd (sound.numbered request mem _ number) (by omega)
    split
    · rename_i nowhere
      exact ⟨rfl, fun armed => (by cases armed), fun _ there => (by cases nowhere.symm.trans there),
        fun request mem n number => (sound.numbered request mem n number).trans (Nat.le_succ _),
        fun request mem number => absurd number (earlier request mem)⟩
    · rename_i room here
      have moved : { { s with roomId := roomId, pending := false, effect := s.effect + 1 } with
          extractRef := some room }.Sound :=
        ⟨sound.key, fun armed => (by cases armed), fun _ there => here.symm.trans there,
          fun request mem n number => (sound.numbered request mem n number).trans (Nat.le_succ _),
          fun request mem number => absurd number (earlier request mem)⟩
      exact moved.extract.backfill (by rw [extract_room]; exact here)

theorem Sound.changeTimeline (sound : s.Sound) (room : String) (timeline : List MatrixEvent) :
    (s.changeTimeline room timeline).Sound where
  key := sound.key
  armed := fun armed => by
    have stays : ∀ other, s.rooms.get other ≠ none → (s.rooms.set room timeline).get other ≠ none := by
      intro other known
      by_cases same : other = room
      · subst same
        rw [Dict.get_set_self]
        exact Option.some_ne_none _
      · rwa [Dict.get_set_of_ne same]
    rcases Bool.or_eq_true _ _ ▸ armed with before | here
    · obtain ⟨other, there, known⟩ := sound.armed before
      exact ⟨other, there, stays other known⟩
    · refine ⟨room, of_decide_eq_true here, ?_⟩
      show (s.rooms.set room timeline).get room ≠ none
      rw [Dict.get_set_self]
      exact Option.some_ne_none _
  last := sound.last
  numbered := sound.numbered
  own := sound.own

theorem Sound.fire (sound : s.Sound) : (s.fire session).Sound := by
  rw [RoomMessages.fire]
  split
  · refine Sound.extract ?_
    exact ⟨sound.key, fun armed => (by cases armed), sound.last, sound.numbered, sound.own⟩
  · exact sound

theorem Sound.loadMore (sound : s.Sound) : s.loadMore.Sound := by
  rw [RoomMessages.loadMore]
  split
  · exact sound
  · split
    · exact sound
    · split
      · exact sound
      · refine sound.withRequests (fun request mem => ?_) true
        rcases List.mem_append.mp mem with old | new
        · exact .inl old
        · cases List.mem_singleton.mp new
          exact .inr (.inl rfl)

theorem Sound.withAnswer (sound : s.Sound) (hasMore : Bool) (exhausted : List String) :
    { s with hasMore := hasMore, exhausted := exhausted }.Sound :=
  ⟨sound.key, sound.armed, sound.last, sound.numbered, sound.own⟩

theorem Sound.withPaginating (sound : s.Sound) (paginating : Bool) :
    { s with isPaginating := paginating }.Sound :=
  ⟨sound.key, sound.armed, sound.last, sound.numbered, sound.own⟩

theorem Sound.settle (sound : s.Sound) (request : ScrollRequest) (result : Option Bool) :
    (s.settle session request result).Sound := by
  cases result with
  | none =>
    rw [RoomMessages.settle]
    split
    · exact sound
    · exact sound.withPaginating false
  | some more =>
    have heard : (s.hear request more).Sound := by
      rw [hear]
      split
      · exact sound
      · exact sound.withAnswer s.hasMore _
    have taken : ∀ target, ((s.hear request more).takeIn session more target).Sound := by
      intro target
      cases target with
      | none => exact (heard.withAnswer more _).withPaginating false
      | some room => exact (heard.withAnswer more _).extract.withPaginating false
    rw [RoomMessages.settle]
    split
    · split
      · exact heard
      · exact taken _
    · exact taken _

theorem Sound.answer (sound : s.Sound) (i : Nat) (result : Option Bool) :
    (s.answer session i result).Sound := by
  rw [RoomMessages.answer]
  split
  · exact sound
  · exact (sound.withRequests (fun _ mem => .inl (List.eraseIdx_subset mem)) s.isPaginating).settle _ _

theorem Sound.step (sound : s.Sound) (e : RoomEvent) : (s.step session e).Sound := by
  cases e with
  | timeline room timeline => exact sound.changeTimeline room timeline
  | fire => exact sound.fire
  | switch roomId => exact sound.switchRoom roomId
  | loadMore => exact sound.loadMore
  | answer i result => exact sound.answer i result

/-! ## One step -/

theorem faithful_iff_of_room (here : s.room = some room) : s.Faithful session ↔
    (s.pending = false → s.messages = s.view session) ∧ (s.hasMore = true ∨ room ∈ s.exhausted) := by
  constructor
  · intro faithful
    refine ⟨faithful.messages, ?_⟩
    cases more : s.hasMore with
    | true => exact .inl rfl
    | false =>
      obtain ⟨other, told, there⟩ := faithful.hasMore more
      cases here.symm.trans there
      exact .inr told
  · rintro ⟨messages, told⟩
    refine ⟨messages, fun more => ?_⟩
    rcases told with isMore | told
    · cases more.symm.trans isMore
    · exact ⟨room, told, here⟩

/-- The step of an extraction of the room. -/
theorem faithful_extract_iff (here : s.room = some room) : (s.extract session room).Faithful session ↔
    (s.pending = false → Tells session s room ∧ (s.rooms.get room = none → s.messages = [])) ∧
      (s.hasMore = true ∨ room ∈ s.exhausted) := by
  rw [faithful_iff_of_room (by rw [extract_room]; exact here), extract_pending, extract_view,
    extract_hasMore, extract_exhausted, messages_extract_iff here]

/-- What the paginating flag and the requests are plays no part. -/
theorem faithful_withRequests (paginating : Bool) (requests : List ScrollRequest) :
    { s with isPaginating := paginating, requests := requests }.Faithful session ↔
      s.Faithful session :=
  ⟨fun h => ⟨h.messages, h.hasMore⟩, fun h => ⟨h.messages, h.hasMore⟩⟩

theorem faithful_backfill_iff : (s.backfill room).Faithful session ↔ s.Faithful session := by
  rw [backfill]
  split
  · split
    · exact Iff.rfl
    · exact faithful_withRequests true _
  · exact Iff.rfl

theorem faithful_changeTimeline (faithful : s.Faithful session) (room : String)
    (timeline : List MatrixEvent) : (s.changeTimeline room timeline).Faithful session where
  messages := fun still => by
    obtain ⟨before, elsewhere⟩ := Bool.or_eq_false_iff.mp still
    refine (faithful.messages before).trans ?_
    rw [view, view]
    show _ = ((s.room.bind (s.rooms.set room timeline).get).map _).getD []
    cases here : s.room with
    | none => rfl
    | some other =>
      have apart : other ≠ room := fun same => by simp [here, same] at elsewhere
      rw [Option.bind_some, Option.bind_some, Dict.get_set_of_ne apart]
  hasMore := faithful.hasMore

theorem hasMore_or_told (faithful : s.Faithful session) (here : s.room = some room) :
    s.hasMore = true ∨ room ∈ s.exhausted :=
  ((faithful_iff_of_room here).mp faithful).2

theorem faithful_fire_iff (sound : s.Sound) (faithful : s.Faithful session) :
    (s.fire session).Faithful session ↔ Clear session s .fire := by
  rw [fire]
  split
  · rename_i room armed here
    obtain ⟨other, there, known⟩ := sound.armed armed
    cases here.symm.trans there
    have told := hasMore_or_told faithful here
    rw [faithful_extract_iff (s := { s with pending := false }) here]
    constructor
    · rintro ⟨shown, -⟩ - other there
      cases here.symm.trans there
      exact (shown rfl).1
    · intro clear
      exact ⟨fun _ => ⟨clear armed room here, fun unknown => absurd unknown known⟩, told⟩
  · rename_i idle
    exact ⟨fun _ armed room here => (idle room armed here).elim, fun _ => faithful⟩

theorem faithful_switchRoom_iff (faithful : s.Faithful session) (roomId : Option String) :
    (s.switchRoom session roomId).Faithful session ↔ Clear session s (.switch roomId) := by
  rw [switchRoom]
  split
  · rename_i same
    exact ⟨fun _ other => absurd same other, fun _ => faithful⟩
  · rename_i other
    rw [runEffect]
    split
    · rename_i nowhere
      refine ⟨fun _ _ room there => (by cases nowhere.symm.trans there), fun _ => ⟨fun _ => ?_, ?_⟩⟩
      · exact (view_of_no_room nowhere).symm
      · exact fun more => by cases more
    · rename_i room here
      rw [faithful_backfill_iff]
      refine (faithful_extract_iff (by exact here)).trans ?_
      constructor
      · rintro ⟨shown, more⟩ - room' there
        cases here.symm.trans there
        exact ⟨more, shown rfl⟩
      · intro clear
        obtain ⟨more, shown⟩ := clear other room here
        exact ⟨fun _ => shown, more⟩

/-- An answer taken in by the room that is shown. -/
theorem faithful_takeIn_iff (faithful : s.Faithful session) (here : s.room = some room)
    (request : ScrollRequest) (more : Bool) :
    ((s.hear request more).takeIn session more (some room)).Faithful session ↔
      (s.pending = false → Tells session s room) ∧
        (more = false → room = request.room ∨ room ∈ s.exhausted) := by
  have unknown : s.pending = false → s.rooms.get room = none → s.messages = [] := fun still unknown =>
    (faithful.messages still).trans (view_of_unknown here unknown)
  -- an answer without more events is noted before it is taken in
  cases more with
  | true =>
    refine (faithful_withRequests false _).trans ((faithful_extract_iff (by exact here)).trans ?_)
    exact ⟨fun h => ⟨fun still => (h.1 still).1, fun no => (by cases no)⟩,
      fun h => ⟨fun still => ⟨h.1 still, unknown still⟩, .inl rfl⟩⟩
  | false =>
    refine (faithful_withRequests false _).trans ((faithful_extract_iff (by exact here)).trans ?_)
    constructor
    · rintro ⟨shown, told⟩
      refine ⟨fun still => (shown still).1, fun _ => ?_⟩
      rcases told with no | told
      · cases no
      · exact List.mem_cons.mp told
    · rintro ⟨shown, told⟩
      exact ⟨fun still => ⟨shown still, unknown still⟩, .inr (List.mem_cons.mpr (told rfl))⟩

theorem faithful_hear (faithful : s.Faithful session) (request : ScrollRequest) (more : Bool) :
    (s.hear request more).Faithful session := by
  cases more with
  | true => exact faithful
  | false =>
    refine ⟨faithful.messages, fun no => ?_⟩
    obtain ⟨room, told, here⟩ := faithful.hasMore no
    exact ⟨room, List.mem_cons_of_mem _ told, here⟩

theorem hear_eq (request : ScrollRequest) (more : Bool) :
    ∃ exhausted, s.hear request more = { s with exhausted := exhausted } := by
  cases more with
  | true => exact ⟨s.exhausted, rfl⟩
  | false => exact ⟨request.room :: s.exhausted, rfl⟩

theorem takeIn_frame (s : RoomMessages) (more : Bool) (target : Option String) :
    (s.takeIn session more target).room = s.room ∧
      (s.takeIn session more target).pending = s.pending ∧
        (s.takeIn session more target).hasMore = more := by
  cases target with
  | none => exact ⟨rfl, rfl, rfl⟩
  | some room => exact ⟨extract_room, extract_pending, extract_hasMore⟩

/-- The messages after an answer to an empty list: it stays empty if the room of the extraction has
none. -/
theorem messages_takeIn_eq_nil_iff (empty : s.messages = []) (key : s.lastIds = "") (more : Bool)
    (target : Option String) : (s.takeIn session more target).messages = [] ↔
      ∀ last ∈ target, ∀ timeline ∈ s.rooms.get last,
        idsKey (extractMessages session timeline) = "" ∨ extractMessages session timeline = [] := by
  cases target with
  | none => exact ⟨fun _ _ mem => (by cases mem), fun _ => empty⟩
  | some room =>
    show ({ s with hasMore := more }.extract session room).messages = [] ↔ _
    cases known : s.rooms.get room with
    | none =>
      rw [extract_of_unknown (by exact known)]
      refine ⟨fun _ last mem timeline there => ?_, fun _ => empty⟩
      cases mem
      cases known.symm.trans there
    | some timeline =>
      rw [messages_extract_of_known (by exact known)]
      constructor
      · intro none last mem other there
        cases mem
        cases known.symm.trans there
        split at none
        · rename_i same
          exact .inl (same.trans key)
        · exact .inr none
      · intro silent
        split
        · exact empty
        · rename_i other
          exact (silent room rfl timeline known).resolve_left fun same => other (same.trans key.symm)

/-- An answer that comes to no room. -/
theorem faithful_takeIn_of_no_room (sound : s.Sound) (faithful : s.Faithful session)
    (nowhere : s.room = none) (request : ScrollRequest) (more : Bool) :
    ((s.hear request more).takeIn session more s.extractRef).Faithful session ↔
      more = true ∧ ∀ last ∈ s.extractRef, ∀ timeline ∈ s.rooms.get last,
        idsKey (extractMessages session timeline) = "" ∨ extractMessages session timeline = [] := by
  have still : s.pending = false := by
    cases armed : s.pending with
    | false => rfl
    | true =>
      obtain ⟨room, here, -⟩ := sound.armed armed
      cases nowhere.symm.trans here
  have empty : s.messages = [] := (faithful.messages still).trans (view_of_no_room nowhere)
  have key : s.lastIds = "" := by rw [sound.key, empty]; rfl
  obtain ⟨exhausted, heard⟩ := hear_eq (s := s) request more
  rw [heard]
  let heardFrom : RoomMessages := { s with exhausted := exhausted }
  obtain ⟨noRoom, noTimer, told⟩ : (heardFrom.takeIn session more s.extractRef).room = s.room ∧
      (heardFrom.takeIn session more s.extractRef).pending = s.pending ∧
        (heardFrom.takeIn session more s.extractRef).hasMore = more :=
    takeIn_frame heardFrom more s.extractRef
  replace noRoom := noRoom.trans nowhere
  rw [← messages_takeIn_eq_nil_iff (s := { s with exhausted := exhausted }) empty key more]
  constructor
  · intro good
    refine ⟨?_, (good.messages (noTimer.trans still)).trans (view_of_no_room noRoom)⟩
    cases more with
    | true => rfl
    | false =>
      obtain ⟨room, -, here⟩ := good.hasMore told
      cases noRoom.symm.trans here
  · rintro ⟨isMore, none⟩
    refine ⟨fun _ => none.trans (view_of_no_room noRoom).symm, fun no => ?_⟩
    cases isMore.symm.trans (told.symm.trans no)

theorem faithful_settle_iff (sound : s.Sound) (faithful : s.Faithful session)
    (request : ScrollRequest) (own : request.effect = some s.effect → s.room = some request.room)
    (result : Option Bool) :
    (s.settle session request result).Faithful session ↔
      ∀ more ∈ result, AnswerClear session s request more := by
  cases result with
  | none =>
    refine ⟨fun _ _ mem => (by cases mem), fun _ => ?_⟩
    rw [settle]
    split
    · exact faithful
    · exact (faithful_withRequests false _).mpr faithful
  | some more =>
    have answered : (∀ m ∈ some more, AnswerClear session s request m) ↔
        AnswerClear session s request more :=
      ⟨fun all => all more rfl, fun clear m mem => Option.some.inj mem ▸ clear⟩
    rw [answered, settle, AnswerClear]
    cases asked : request.effect with
    | some effect =>
      dsimp only
      by_cases running : effect = s.effect
      · subst running
        rw [if_neg (not_not.mpr rfl)]
        refine (faithful_takeIn_iff faithful (own asked) request more).trans ?_
        exact ⟨fun h _ => h.1, fun h => ⟨h rfl, fun _ => .inl rfl⟩⟩
      · rw [if_pos running]
        exact ⟨fun _ here => absurd here running, fun _ => faithful_hear faithful request more⟩
    | none =>
      cases here : s.room with
      | some room =>
        rw [sound.last room here]
        exact faithful_takeIn_iff faithful here request more
      | none => exact faithful_takeIn_of_no_room sound faithful here request more

theorem faithful_loadMore (faithful : s.Faithful session) : s.loadMore.Faithful session := by
  rw [loadMore]
  split
  · exact faithful
  · split
    · exact faithful
    · split
      · exact faithful
      · exact (faithful_withRequests true _).mpr faithful

theorem faithful_answer_iff (sound : s.Sound) (faithful : s.Faithful session) (i : Nat)
    (result : Option Bool) :
    (s.answer session i result).Faithful session ↔ Clear session s (.answer i result) := by
  rw [answer, Clear]
  cases asked : s.requests[i]? with
  | none => exact ⟨fun _ _ mem => (by cases mem), fun _ => faithful⟩
  | some request =>
    have taken : { s with requests := s.requests.eraseIdx i }.Sound :=
      sound.withRequests (fun _ mem => .inl (List.eraseIdx_subset mem)) s.isPaginating
    refine (faithful_settle_iff taken ((faithful_withRequests s.isPaginating _).mpr faithful) request
      (sound.own request (List.mem_of_getElem? asked)) result).trans ?_
    exact ⟨fun clear other mem => Option.some.inj mem ▸ clear, fun clear => clear request rfl⟩

theorem faithful_step_iff (sound : s.Sound) (faithful : s.Faithful session) (e : RoomEvent) :
    (s.step session e).Faithful session ↔ Clear session s e := by
  cases e with
  | timeline room timeline =>
    exact ⟨fun _ => trivial, fun _ => faithful_changeTimeline faithful room timeline⟩
  | fire => exact faithful_fire_iff sound faithful
  | switch roomId => exact faithful_switchRoom_iff faithful roomId
  | loadMore => exact ⟨fun _ => trivial, fun _ => faithful_loadMore faithful⟩
  | answer i result => exact faithful_answer_iff sound faithful i result

/-! ## Runs -/

theorem faithful_mount (rooms : Dict String (List MatrixEvent)) :
    (mount rooms).Faithful session := ⟨fun _ => rfl, fun more => by cases more⟩

/-- The view is that of the room after every step of a run, exactly when every step is clear. -/
theorem room_view_along_iff (session : ClientSession) (rooms : Dict String (List MatrixEvent))
    (events : List RoomEvent) :
    Machine.Along (step session) (fun s e => (s.step session e).Faithful session) (mount rooms) events ↔
      Machine.Along (step session) (Clear session) (mount rooms) events := by
  have sound : Machine.Along (step session) (fun s _ => s.Sound) (mount rooms) events :=
    Machine.Along.of_invariant Sound (Machine.Along.of_forall fun _ _ => trivial)
      (fun _ e _ sound => sound.step e) (fun _ _ _ sound => sound) (sound_mount rooms)
  exact Machine.along_step_iff_of (Faithful session) sound
    (fun _ e sound faithful => faithful_step_iff sound faithful e) (faithful_mount rooms)

/-! ## Two rooms -/

/-- A room with one message, whose text the author then changes to one of the same length, and an
empty room of which nothing older is known. -/
def sampleRooms : Dict String (List MatrixEvent) := [("!a", [aliceSays]), ("!b", [])]

/-- The edit is not shown, and the answer for the room that was left says that the next has no more. -/
theorem room_view_stale :
    (¬∀ session rooms events s, Machine.run (step session) (mount rooms) events = s →
      s.pending = false → s.messages = s.view session) ∧
    ¬∀ session rooms events s, Machine.run (step session) (mount rooms) events = s →
      s.hasMore = false → ∃ room ∈ s.exhausted, s.room = some room := by
  constructor
  · intro shown
    have edited := shown someSession sampleRooms
      [.switch (some "!a"), .timeline "!a" [aliceSays, editOfAlice "@alice:a" "yo"], .fire,
        .timeline "!a" [aliceSays, editOfAlice "@alice:a" "no"], .fire] _ rfl (by decide)
    exact absurd edited (by decide)
  · intro told
    have left := told someSession sampleRooms
      [.switch (some "!a"), .loadMore, .switch (some "!b"), .answer 0 (some false)] _ rfl
      (by decide)
    exact absurd left (by decide)

end RoomMessages

end Concorrd
