import Mathlib.Data.Finset.Card
import Concorrd.Lib.Dict
import Concorrd.Lib.Json
import Concorrd.Lib.JsText

/-!
# The messages of a room

What `extractMessages` of `hooks/useMatrix.ts` makes of a timeline. A first pass over the last
thousand events collects the reactions and the replacements by the event they name; a second pass
lists the messages and looks both up.

The first pass keeps, of each message, the text of the last replacement of it, whoever sent that.
-/

namespace Concorrd

open Dict JsText

/-! ## Events -/

/-- The `m.relates_to` of an event. -/
structure Relation where
  rel_type : Option String
  event_id : Option String
  key : Option String
  deriving DecidableEq

/-- What the client reads of a content. `newContent` is the `body` of its `m.new_content`. -/
structure EventContent where
  body : Option String
  relatesTo : Option Relation
  newContent : Option String
  msgtype : Option String
  url : Option String
  info : Option Json
  chart : Option Json
  widget : Option Json
  deriving DecidableEq

def EventContent.empty : EventContent := ⟨none, none, none, none, none, none, none, none⟩

structure MatrixEvent where
  id : String
  sender : String
  ts : Nat
  type : String
  redacted : Bool
  content : EventContent
  deriving DecidableEq

namespace MatrixEvent

/-- The event and the key that a reaction names. -/
def annotation (ev : MatrixEvent) : Option (String × String) :=
  if ev.type = "m.reaction" then
    ev.content.relatesTo.bind fun rel =>
      if rel.rel_type = some "m.annotation" then
        (truthy rel.event_id).bind fun event_id => (truthy rel.key).map fun key => (event_id, key)
      else none
  else none

/-- The event that a replacement names. -/
def replaces (ev : MatrixEvent) : Option String :=
  if ev.type = "m.room.message" then
    ev.content.relatesTo.bind fun rel =>
      if rel.rel_type = some "m.replace" then truthy rel.event_id else none
  else none

/-- The text a replacement brings. -/
def newBody (ev : MatrixEvent) : Option String := truthy ev.content.newContent

/-- A message, and no replacement of one. -/
def isMessage (ev : MatrixEvent) : Bool :=
  ev.type = "m.room.message" && (ev.content.relatesTo.bind Relation.rel_type) ≠ some "m.replace"

end MatrixEvent

/-! ## The first pass -/

/-- Who reacted with one emoji, and by which events. -/
structure ReactionEntry where
  userIds : List String
  eventIds : Dict String String

def ReactionEntry.add (entry : ReactionEntry) (sender eventId : String) : ReactionEntry :=
  if sender ∈ entry.userIds then entry
  else ⟨entry.userIds ++ [sender], entry.eventIds.set sender eventId⟩

structure TimelineMaps where
  reactionMap : Dict String (Dict String ReactionEntry)
  editMap : Dict String String

namespace TimelineMaps

def empty : TimelineMaps := ⟨[], []⟩

/-- The emojis of one event. -/
def emojiMap (maps : TimelineMaps) (targetId : String) : Dict String ReactionEntry :=
  (maps.reactionMap.get targetId).getD []

def noteReaction (maps : TimelineMaps) (ev : MatrixEvent) (named : String × String) : TimelineMaps :=
  let emojis := maps.emojiMap named.1
  let entry := ((emojis.get named.2).getD ⟨[], []⟩).add ev.sender ev.id
  { maps with reactionMap := maps.reactionMap.set named.1 (emojis.set named.2 entry) }

def noteEdit (maps : TimelineMaps) (originalId body : String) : TimelineMaps :=
  { maps with editMap := maps.editMap.set originalId body }

/-- One event of the first pass. -/
def note (maps : TimelineMaps) (ev : MatrixEvent) : TimelineMaps :=
  if ev.redacted then maps
  else
    match ev.annotation with
    | some named => maps.noteReaction ev named
    | none =>
      match ev.replaces, ev.newBody with
      | some originalId, some body => maps.noteEdit originalId body
      | _, _ => maps

end TimelineMaps

def scanTimeline (timeline : List MatrixEvent) : TimelineMaps := timeline.foldl .note .empty

/-! ## Media addresses -/

/-- Where the client's requests go, and with which token. -/
structure ClientSession where
  apiBase : String
  accessToken : Option String

/-- The match of `MXC_REGEX`: the server's name and the id of the media. -/
def mxcMatch (mxcUrl : String) : Option (String × String) :=
  match mxcUrl.toList with
  | 'm' :: 'x' :: 'c' :: ':' :: '/' :: '/' :: rest =>
    match rest.takeWhile (· ≠ '/'), rest.dropWhile (· ≠ '/') with
    | c :: server, _ :: d :: media =>
      -- a dot matches no line terminator
      if (d :: media).any (['\n', '\r', '\u2028', '\u2029'].contains ·) then none
      else some (String.ofList (c :: server), String.ofList (d :: media))
    | _, _ => none
  | _ => none

def mxcToHttp (session : ClientSession) (mxcUrl : String) : Option String :=
  (truthy session.accessToken).bind fun accessToken =>
    (mxcMatch mxcUrl).map fun parts =>
      session.apiBase ++ "/media/download/" ++ encodeURIComponent parts.1 ++ "/" ++
        encodeURIComponent parts.2 ++ "?token=" ++ encodeURIComponent accessToken

/-! ## The second pass -/

structure Reaction where
  emoji : String
  count : Nat
  userIds : List String
  eventIds : Dict String String
  deriving DecidableEq

structure ChatMessage where
  id : String
  sender : String
  body : String
  timestamp : Nat
  redacted : Bool
  edited : Bool
  msgtype : String
  url : Option String
  info : Option Json
  reactions : List Reaction
  chartRaw : Option Json
  widgetRaw : Option Json
  deriving DecidableEq

def reactionsOf (emojis : Dict String ReactionEntry) : List Reaction :=
  (emojis.filter fun e => 0 < e.2.userIds.length).map fun e =>
    ⟨e.1, e.2.userIds.length, e.2.userIds, e.2.eventIds⟩

/-- What is shown of one message. -/
def chatMessage (session : ClientSession) (maps : TimelineMaps) (ev : MatrixEvent) : ChatMessage :=
  let content := if ev.redacted then .empty else ev.content
  let editBody := maps.editMap.get ev.id
  { id := ev.id
    sender := ev.sender
    body := if ev.redacted then "" else editBody.getD (content.body.getD "")
    timestamp := ev.ts
    redacted := ev.redacted
    edited := editBody.isSome
    msgtype := (truthy content.msgtype).getD "m.text"
    url := if ev.redacted then none else (truthy content.url).bind (mxcToHttp session)
    info := content.info
    reactions := reactionsOf (maps.emojiMap ev.id)
    chartRaw := content.chart
    widgetRaw := content.widget }

/-- The last thousand events. -/
def tailOf (fullTimeline : List MatrixEvent) : List MatrixEvent :=
  fullTimeline.drop (fullTimeline.length - 1000)

def extractMessages (session : ClientSession) (fullTimeline : List MatrixEvent) : List ChatMessage :=
  let timeline := tailOf fullTimeline
  (timeline.filter MatrixEvent.isMessage).map (chatMessage session (scanTimeline timeline))

theorem tailOf_of_length_le {timeline : List MatrixEvent} (short : timeline.length ≤ 1000) :
    tailOf timeline = timeline := by
  rw [tailOf, Nat.sub_eq_zero_of_le short, List.drop_zero]

/-! ## What a timeline says -/

/-- The event replaces the message and is not redacted. -/
def MatrixEvent.edits (ev : MatrixEvent) (id : String) : Bool :=
  !ev.redacted && ev.replaces = some id

/-- The newest replacement of a message that brings a text, whoever sent it. -/
def newestEdit (timeline : List MatrixEvent) (id : String) : Option MatrixEvent :=
  (timeline.filter fun ev => ev.edits id && ev.newBody.isSome).getLast?

/-- The newest replacement of a message that its author sent. -/
def ownEdit (timeline : List MatrixEvent) (message : MatrixEvent) : Option MatrixEvent :=
  (timeline.filter fun ev => ev.edits message.id && ev.sender = message.sender).getLast?

/-- The text of a message before any edit. -/
def MatrixEvent.ownBody (message : MatrixEvent) : String := message.content.body.getD ""

/-- The text that a replacement puts in the place of the other. -/
def MatrixEvent.editText (ev : MatrixEvent) : String := ev.content.newContent.getD ""

/-- The text its author has given a message. -/
def authoredBody (timeline : List MatrixEvent) (message : MatrixEvent) : String :=
  ((ownEdit timeline message).map MatrixEvent.editText).getD message.ownBody

/-- The users who reacted to a message with an emoji. -/
def annotators (timeline : List MatrixEvent) (id emoji : String) : Finset String :=
  ((timeline.filter fun ev => !ev.redacted && ev.annotation = some (id, emoji)).map
    MatrixEvent.sender).toFinset

theorem newestEdit_concat (timeline : List MatrixEvent) (ev : MatrixEvent) (id : String) :
    newestEdit (timeline ++ [ev]) id =
      if ev.edits id && ev.newBody.isSome then some ev else newestEdit timeline id := by
  by_cases counts : ev.edits id && ev.newBody.isSome
  · simp [newestEdit, counts]
  · simp [newestEdit, counts]

theorem newestEdit_edits {timeline : List MatrixEvent} {id : String} {ev : MatrixEvent}
    (newest : newestEdit timeline id = some ev) : ev.edits id ∧ ev.newBody.isSome := by
  have mem := List.mem_filter.mp (List.mem_of_getLast? newest)
  simpa using mem.2

theorem annotators_concat (timeline : List MatrixEvent) (ev : MatrixEvent) (id emoji : String) :
    annotators (timeline ++ [ev]) id emoji =
      if !ev.redacted && ev.annotation = some (id, emoji) then
        insert ev.sender (annotators timeline id emoji)
      else annotators timeline id emoji := by
  by_cases counts : !ev.redacted && ev.annotation = some (id, emoji)
  · simp [annotators, counts, Finset.union_comm]
  · simp [annotators, counts]

/-! ## What the first pass keeps -/

theorem scanTimeline_concat (timeline : List MatrixEvent) (ev : MatrixEvent) :
    scanTimeline (timeline ++ [ev]) = (scanTimeline timeline).note ev := by
  rw [scanTimeline, List.foldl_concat, scanTimeline]

/-- No event is both a reaction and a replacement. -/
theorem replaces_of_annotation {ev : MatrixEvent} {named : String × String}
    (h : ev.annotation = some named) : ev.replaces = none := by
  rw [MatrixEvent.annotation] at h
  split at h
  · rename_i reaction
    rw [MatrixEvent.replaces, reaction]
    exact if_neg (by decide)
  · cases h

theorem get_editMap_note (maps : TimelineMaps) (ev : MatrixEvent) (id : String) :
    (maps.note ev).editMap.get id =
      if ev.edits id && ev.newBody.isSome then ev.newBody else maps.editMap.get id := by
  rw [TimelineMaps.note, MatrixEvent.edits]
  split
  · rename_i redacted
    simp [redacted]
  · rename_i kept
    split
    · rename_i named reaction
      simp [TimelineMaps.noteReaction, replaces_of_annotation reaction]
    · split
      · rename_i originalId body replaces text
        by_cases same : originalId = id
        · simp [TimelineMaps.noteEdit, kept, replaces, text, same]
        · simp [TimelineMaps.noteEdit, replaces, same, get_set_of_ne (Ne.symm same)]
      · rename_i fails
        have neither : ¬(ev.replaces = some id ∧ ev.newBody.isSome) := fun h => by
          obtain ⟨body, text⟩ := Option.isSome_iff_exists.mp h.2
          exact fails id body h.1 text
        simp only [Bool.and_eq_true, decide_eq_true_eq, Bool.not_eq_true']
        rw [if_neg fun h => neither ⟨h.1.2, h.2⟩]

/-- The edit map holds the text of the newest replacement. -/
theorem get_editMap_scanTimeline (timeline : List MatrixEvent) (id : String) :
    (scanTimeline timeline).editMap.get id = (newestEdit timeline id).bind MatrixEvent.newBody := by
  induction timeline using List.reverseRecOn with
  | nil => rfl
  | append_singleton timeline ev ih =>
    rw [scanTimeline_concat, newestEdit_concat, get_editMap_note, ih]
    split
    · rfl
    · rfl

/-- Who is noted as having reacted with an emoji. -/
def usersOf (emojis : Dict String ReactionEntry) (emoji : String) : List String :=
  (emojis.get emoji).elim [] ReactionEntry.userIds

/-- The emojis of an event, with one more reaction. -/
def withReaction (emojis : Dict String ReactionEntry) (emoji : String) (ev : MatrixEvent) :
    Dict String ReactionEntry :=
  emojis.set emoji (((emojis.get emoji).getD ⟨[], []⟩).add ev.sender ev.id)

theorem usersOf_withReaction (emojis : Dict String ReactionEntry) (emoji other : String)
    (ev : MatrixEvent) :
    usersOf (withReaction emojis emoji ev) other =
      if other = emoji ∧ ev.sender ∉ usersOf emojis other then usersOf emojis other ++ [ev.sender]
      else usersOf emojis other := by
  by_cases same : other = emoji
  · subst same
    cases there : emojis.get other with
    | none => simp [usersOf, withReaction, there, ReactionEntry.add]
    | some entry =>
      by_cases known : ev.sender ∈ entry.userIds
      · simp [usersOf, withReaction, there, ReactionEntry.add, known]
      · simp [usersOf, withReaction, there, ReactionEntry.add, known]
  · simp [usersOf, withReaction, same, get_set_of_ne same]

theorem TimelineMaps.emojiMap_noteReaction (maps : TimelineMaps) (ev : MatrixEvent)
    (named : String × String) (id : String) :
    (maps.noteReaction ev named).emojiMap id =
      if named.1 = id then withReaction (maps.emojiMap id) named.2 ev else maps.emojiMap id := by
  by_cases same : named.1 = id
  · subst same
    simp [noteReaction, emojiMap, withReaction]
  · simp [noteReaction, emojiMap, same, get_set_of_ne (Ne.symm same)]

/-- The event reacts to the message with the emoji. -/
def MatrixEvent.Reacts (ev : MatrixEvent) (id emoji : String) : Prop :=
  ev.redacted = false ∧ ev.annotation = some (id, emoji)

theorem TimelineMaps.emojiMap_note (maps : TimelineMaps) (ev : MatrixEvent) (id : String) :
    (∀ emoji, ¬ev.Reacts id emoji) ∧ (maps.note ev).emojiMap id = maps.emojiMap id ∨
      ∃ emoji, ev.Reacts id emoji ∧
        (maps.note ev).emojiMap id = withReaction (maps.emojiMap id) emoji ev := by
  rw [note]
  split
  · rename_i redacted
    exact .inl ⟨fun emoji reacts => Bool.noConfusion (redacted.symm.trans reacts.1), rfl⟩
  · rename_i kept
    have kept : ev.redacted = false := by simpa using kept
    split
    · rename_i named reaction
      rw [emojiMap_noteReaction]
      split
      · rename_i same
        subst same
        exact .inr ⟨named.2, ⟨kept, reaction⟩, rfl⟩
      · rename_i other
        refine .inl ⟨fun emoji reacts => other ?_, rfl⟩
        rw [Option.some.inj (reaction.symm.trans reacts.2)]
    · rename_i silent
      refine .inl ⟨fun emoji reacts => Option.some_ne_none _ (reacts.2.symm.trans silent), ?_⟩
      split
      · rfl
      · rfl

/-- The emojis list each user who reacted once. -/
structure Counted (timeline : List MatrixEvent) (id : String) (emojis : Dict String ReactionEntry) :
    Prop where
  distinct : emojis.keys.Nodup
  once : ∀ emoji, (usersOf emojis emoji).Nodup
  users : ∀ emoji, (usersOf emojis emoji).toFinset = annotators timeline id emoji

theorem annotators_of_not_reacts {timeline : List MatrixEvent} {ev : MatrixEvent} {id emoji : String}
    (silent : ¬ev.Reacts id emoji) :
    annotators (timeline ++ [ev]) id emoji = annotators timeline id emoji := by
  rw [annotators_concat, if_neg (by simpa [MatrixEvent.Reacts] using silent)]

theorem annotators_of_reacts {timeline : List MatrixEvent} {ev : MatrixEvent} {id emoji : String}
    (reacts : ev.Reacts id emoji) :
    annotators (timeline ++ [ev]) id emoji = insert ev.sender (annotators timeline id emoji) := by
  rw [annotators_concat, if_pos (by simpa [MatrixEvent.Reacts] using reacts)]

theorem Counted.withReaction {timeline : List MatrixEvent} {id emoji : String}
    {emojis : Dict String ReactionEntry} {ev : MatrixEvent} (counted : Counted timeline id emojis)
    (reacts : ev.Reacts id emoji) :
    Counted (timeline ++ [ev]) id (withReaction emojis emoji ev) where
  distinct := nodup_set counted.distinct
  once := fun other => by
    rw [usersOf_withReaction]
    split
    · rename_i new
      exact List.concat_eq_append ▸ (counted.once other).concat new.2
    · exact counted.once other
  users := fun other => by
    by_cases same : other = emoji
    · subst same
      rw [usersOf_withReaction, annotators_of_reacts reacts, ← counted.users other]
      split
      · rw [List.toFinset_append, Finset.union_comm]
        rfl
      · rename_i known
        rw [Finset.insert_eq_of_mem (by simpa using known)]
    · have silent : ¬ev.Reacts id other := fun also =>
        same (Prod.mk.inj (Option.some.inj (also.2.symm.trans reacts.2))).2
      rw [usersOf_withReaction, if_neg fun h => same h.1, annotators_of_not_reacts silent,
        counted.users other]

theorem counted_scanTimeline (timeline : List MatrixEvent) (id : String) :
    Counted timeline id ((scanTimeline timeline).emojiMap id) := by
  induction timeline using List.reverseRecOn with
  | nil => exact ⟨List.nodup_nil, fun emoji => List.nodup_nil, fun emoji => rfl⟩
  | append_singleton timeline ev ih =>
    rw [scanTimeline_concat]
    rcases (scanTimeline timeline).emojiMap_note ev id with ⟨silent, same⟩ | ⟨emoji, reacts, more⟩
    · rw [same]
      exact ⟨ih.distinct, ih.once, fun emoji =>
        (ih.users emoji).trans (annotators_of_not_reacts (silent emoji)).symm⟩
    · rw [more]
      exact ih.withReaction reacts

/-! ## The reactions shown -/

/-- The reactions of one message: each emoji once, with the number of the users who sent it. -/
structure CountsReactions (timeline : List MatrixEvent) (id : String) (reactions : List Reaction) :
    Prop where
  distinct : (reactions.map Reaction.emoji).Nodup
  count : ∀ r ∈ reactions, r.count = (annotators timeline id r.emoji).card
  shown : ∀ emoji, (annotators timeline id emoji).Nonempty → ∃ r ∈ reactions, r.emoji = emoji

theorem mem_reactionsOf {emojis : Dict String ReactionEntry} {r : Reaction} :
    r ∈ reactionsOf emojis ↔ ∃ entry, (r.emoji, entry) ∈ emojis ∧ 0 < entry.userIds.length ∧
      r = ⟨r.emoji, entry.userIds.length, entry.userIds, entry.eventIds⟩ := by
  simp only [reactionsOf, List.mem_map, List.mem_filter, decide_eq_true_eq]
  constructor
  · rintro ⟨e, ⟨mem, used⟩, rfl⟩
    exact ⟨e.2, mem, used, rfl⟩
  · rintro ⟨entry, mem, used, same⟩
    exact ⟨(r.emoji, entry), ⟨mem, used⟩, same.symm⟩

theorem Counted.countsReactions {timeline : List MatrixEvent} {id : String}
    {emojis : Dict String ReactionEntry} (counted : Counted timeline id emojis) :
    CountsReactions timeline id (reactionsOf emojis) where
  distinct := by
    have names : (reactionsOf emojis).map Reaction.emoji =
        (emojis.filter fun e => 0 < e.2.userIds.length).map Prod.fst := by
      rw [reactionsOf, List.map_map]
      rfl
    rw [names]
    exact counted.distinct.sublist (List.filter_sublist.map Prod.fst)
  count := fun r mem => by
    obtain ⟨entry, there, -, same⟩ := mem_reactionsOf.mp mem
    have users : usersOf emojis r.emoji = entry.userIds := by
      rw [usersOf, get_of_mem counted.distinct there, Option.elim_some]
    have once := counted.once r.emoji
    rw [← counted.users r.emoji, users, List.toFinset_card_of_nodup (users ▸ once)]
    exact congrArg Reaction.count same
  shown := fun emoji some => by
    rw [← counted.users emoji, usersOf] at some
    cases there : emojis.get emoji with
    | none => simp [there] at some
    | some entry =>
      refine ⟨⟨emoji, entry.userIds.length, entry.userIds, entry.eventIds⟩,
        mem_reactionsOf.mpr ⟨entry, mem_of_get there, ?_, rfl⟩, rfl⟩
      rw [there, Option.elim_some, List.toFinset_nonempty_iff] at some
      exact List.length_pos_of_ne_nil some

/-! ## The text shown -/

theorem newBody_eq {ev : MatrixEvent} {body : String} (h : ev.newBody = some body) :
    body = ev.editText ∧ body ≠ "" := by
  obtain ⟨text, nonempty⟩ := Option.filter_eq_some_iff.mp h
  exact ⟨by rw [MatrixEvent.editText, text]; rfl, by simpa using nonempty⟩

theorem newBody_of_editText {ev : MatrixEvent} (nonempty : ev.editText ≠ "") :
    ev.newBody = some ev.editText := by
  rw [MatrixEvent.editText] at nonempty
  rw [MatrixEvent.newBody, MatrixEvent.editText]
  cases text : ev.content.newContent with
  | none => simp [text] at nonempty
  | some body => simpa [text, truthy] using nonempty

/-- What is shown of one message of the timeline. -/
def shownOf (session : ClientSession) (timeline : List MatrixEvent) (message : MatrixEvent) :
    ChatMessage :=
  chatMessage session (scanTimeline timeline) message

theorem edited_shownOf (session : ClientSession) (timeline : List MatrixEvent)
    (message : MatrixEvent) :
    (shownOf session timeline message).edited = (newestEdit timeline message.id).isSome := by
  refine (congrArg Option.isSome (get_editMap_scanTimeline timeline message.id)).trans ?_
  cases newest : newestEdit timeline message.id with
  | none => rfl
  | some ev => exact (newestEdit_edits newest).2

/-- The text shown is that of the newest replacement, by whomever. -/
theorem body_shownOf (session : ClientSession) (timeline : List MatrixEvent) {message : MatrixEvent}
    (kept : message.redacted = false) :
    (shownOf session timeline message).body =
      ((newestEdit timeline message.id).map MatrixEvent.editText).getD message.ownBody := by
  have body : (shownOf session timeline message).body =
      ((scanTimeline timeline).editMap.get message.id).getD message.ownBody := by
    simp [shownOf, chatMessage, kept, MatrixEvent.ownBody]
  rw [body, get_editMap_scanTimeline]
  cases newest : newestEdit timeline message.id with
  | none => rfl
  | some ev =>
    obtain ⟨text, there⟩ := Option.isSome_iff_exists.mp (newestEdit_edits newest).2
    rw [Option.bind_some, there, (newBody_eq there).1]
    rfl

theorem body_shownOf_redacted (session : ClientSession) (timeline : List MatrixEvent)
    {message : MatrixEvent} (redacted : message.redacted = true) :
    (shownOf session timeline message).body = "" := by
  rw [shownOf, chatMessage]
  exact if_pos redacted

theorem body_shownOf_congr (session : ClientSession) {timeline timeline' : List MatrixEvent}
    {message : MatrixEvent} (same : newestEdit timeline' message.id = newestEdit timeline message.id) :
    (shownOf session timeline' message).body = (shownOf session timeline message).body := by
  cases redacted : message.redacted with
  | true => rw [body_shownOf_redacted session _ redacted, body_shownOf_redacted session _ redacted]
  | false => rw [body_shownOf session _ redacted, body_shownOf session _ redacted, same]

/-! ## Whose text is shown -/

/-- The last word on a message is its author's: the newest replacement with a text is the author's or
says what the author says, and the author has not emptied the message, unless it never had a text. -/
structure AuthorHasLastWord (timeline : List MatrixEvent) (message : MatrixEvent) : Prop where
  others : ∀ ev, newestEdit timeline message.id = some ev → ev.sender ≠ message.sender →
    ev.editText = authoredBody timeline message
  emptied : ∀ ev, ownEdit timeline message = some ev → ev.editText = "" →
    newestEdit timeline message.id = none ∧ message.ownBody = ""

theorem getLast?_filter_of_getLast? {α : Type*} {l : List α} {p q : α → Bool} {a : α}
    (last : (l.filter p).getLast? = some a) (also : q a) :
    (l.filter fun b => q b && p b).getLast? = some a := by
  obtain ⟨before, split⟩ := List.getLast?_eq_some_iff.mp last
  rw [← List.filter_filter, split, List.filter_append, List.filter_cons_of_pos also, List.filter_nil,
    List.getLast?_concat]

theorem ownEdit_edits {timeline : List MatrixEvent} {message ev : MatrixEvent}
    (own : ownEdit timeline message = some ev) : ev.edits message.id ∧ ev.sender = message.sender := by
  have mem := List.mem_filter.mp (List.mem_of_getLast? own)
  simpa using mem.2

theorem newestEdit_isSome_of_ownEdit {timeline : List MatrixEvent} {message ev : MatrixEvent}
    (own : ownEdit timeline message = some ev) (nonempty : ev.editText ≠ "") :
    ∃ newest, newestEdit timeline message.id = some newest := by
  have text : ev.newBody.isSome := by rw [newBody_of_editText nonempty]; rfl
  have mem : ev ∈ timeline.filter fun e => e.edits message.id && e.newBody.isSome :=
    List.mem_filter.mpr ⟨(List.mem_filter.mp (List.mem_of_getLast? own)).1,
      by simp [(ownEdit_edits own).1, text]⟩
  exact Option.isSome_iff_exists.mp (List.getLast?_isSome.mpr (List.ne_nil_of_mem mem))

/-- Where the newest replacement is the author's, it is the author's newest, unless that one is
empty. -/
theorem ownEdit_eq_newestEdit {timeline : List MatrixEvent} {message newest own : MatrixEvent}
    (anyone : newestEdit timeline message.id = some newest) (author : newest.sender = message.sender)
    (ownNewest : ownEdit timeline message = some own) (nonempty : own.editText ≠ "") :
    own = newest := by
  have left := getLast?_filter_of_getLast? (q := fun ev => ev.sender = message.sender) anyone
    (by simpa using author)
  have text : own.newBody.isSome := by rw [newBody_of_editText nonempty]; rfl
  have right := getLast?_filter_of_getLast? (q := fun ev => ev.newBody.isSome) ownNewest text
  have same : (fun ev : MatrixEvent => decide (ev.sender = message.sender) &&
        (ev.edits message.id && ev.newBody.isSome)) =
      fun ev => ev.newBody.isSome && (ev.edits message.id && decide (ev.sender = message.sender)) := by
    funext ev
    cases decide (ev.sender = message.sender) <;> cases ev.edits message.id <;>
      cases ev.newBody.isSome <;> rfl
  rw [same] at left
  exact Option.some.inj (right.symm.trans left)

theorem body_eq_authoredBody_iff (session : ClientSession) {timeline : List MatrixEvent}
    {message : MatrixEvent} (kept : message.redacted = false) :
    (shownOf session timeline message).body = authoredBody timeline message ↔
      AuthorHasLastWord timeline message := by
  rw [body_shownOf session timeline kept]
  constructor
  · intro shown
    refine ⟨fun ev newest _ => ?_, fun ev own empty => ?_⟩
    · rw [← shown, newest]
      rfl
    · rw [authoredBody, own] at shown
      cases newest : newestEdit timeline message.id with
      | none =>
        rw [newest] at shown
        exact ⟨rfl, shown.trans empty⟩
      | some other =>
        obtain ⟨body, text⟩ := Option.isSome_iff_exists.mp (newestEdit_edits newest).2
        rw [newest] at shown
        exact absurd ((newBody_eq text).1.trans (shown.trans empty)) (newBody_eq text).2
  · intro last
    cases newest : newestEdit timeline message.id with
    | none =>
      rw [authoredBody]
      cases own : ownEdit timeline message with
      | none => rfl
      | some ev =>
        by_cases empty : ev.editText = ""
        · exact (last.emptied ev own empty).2.trans empty.symm
        · obtain ⟨other, there⟩ := newestEdit_isSome_of_ownEdit own empty
          cases newest.symm.trans there
    | some ev =>
      by_cases author : ev.sender = message.sender
      · have mem := List.mem_filter.mp (List.mem_of_getLast? newest)
        have isOwn : ev ∈ timeline.filter fun e => e.edits message.id && e.sender = message.sender :=
          List.mem_filter.mpr ⟨mem.1, by simp [(newestEdit_edits newest).1, author]⟩
        obtain ⟨own, there⟩ :=
          Option.isSome_iff_exists.mp (List.getLast?_isSome.mpr (List.ne_nil_of_mem isOwn))
        by_cases empty : own.editText = ""
        · cases newest.symm.trans (last.emptied own there empty).1
        · have here : ownEdit timeline message = some own := there
          rw [authoredBody, here, ownEdit_eq_newestEdit newest author there empty]
      · exact last.others ev newest author

/-! ## Events put in -/

/-- A timeline into which events are put: each event, and whether it is one of those. -/
abbrev Insertion := List (MatrixEvent × Bool)

def Insertion.before (marked : Insertion) : List MatrixEvent :=
  (marked.filter fun p => !p.2).map Prod.fst

def Insertion.after (marked : Insertion) : List MatrixEvent := marked.map Prod.fst

/-- The newest replacement with a text, and whether it was put in. -/
def Insertion.lastWord (marked : Insertion) (id : String) : Option (MatrixEvent × Bool) :=
  (marked.filter fun p => p.1.edits id && p.1.newBody.isSome).getLast?

/-- What is put in does not have the last word on the message, or repeats the newest replacement that
was there. -/
def Insertion.Harmless (marked : Insertion) (message : MatrixEvent) : Prop :=
  ∀ ev, marked.lastWord message.id = some (ev, true) →
    ∃ old, newestEdit marked.before message.id = some old ∧
      (message.redacted = false → old.editText = ev.editText)

namespace Insertion

variable {marked : Insertion} {ev : MatrixEvent} {id : String}

theorem newestEdit_after (marked : Insertion) (id : String) :
    newestEdit marked.after id = (marked.lastWord id).map Prod.fst := by
  rw [newestEdit, after, List.filter_map, List.getLast?_map]
  rfl

theorem newestEdit_before_of_kept (last : marked.lastWord id = some (ev, false)) :
    newestEdit marked.before id = some ev := by
  have kept := getLast?_filter_of_getLast? (q := fun p => !p.2) last rfl
  rw [newestEdit, before, List.filter_map, List.getLast?_map, List.filter_filter]
  have same : (fun p : MatrixEvent × Bool => ((fun ev : MatrixEvent =>
        ev.edits id && ev.newBody.isSome) ∘ Prod.fst) p && !p.2) =
      fun p => !p.2 && (p.1.edits id && p.1.newBody.isSome) := by
    funext p
    exact Bool.and_comm _ _
  rw [same, kept]
  rfl

theorem newestEdit_before_of_none (silent : marked.lastWord id = none) :
    newestEdit marked.before id = none := by
  have none : ∀ p ∈ marked, ¬(p.1.edits id && p.1.newBody.isSome) := by
    simpa [lastWord] using silent
  rw [newestEdit, List.getLast?_eq_none_iff, List.filter_eq_nil_iff]
  intro ev mem
  obtain ⟨p, there, rfl⟩ := List.mem_map.mp mem
  exact none p (List.mem_filter.mp there).1

/-- The insertion leaves what is shown of a message as it was, exactly when it is harmless. -/
theorem kept_iff_harmless (session : ClientSession) (marked : Insertion) (message : MatrixEvent) :
    (shownOf session marked.after message).body = (shownOf session marked.before message).body ∧
        (shownOf session marked.after message).edited =
          (shownOf session marked.before message).edited ↔
      marked.Harmless message := by
  rw [edited_shownOf, edited_shownOf]
  have after := newestEdit_after marked message.id
  cases last : marked.lastWord message.id with
  | none =>
    replace after : newestEdit marked.after message.id = newestEdit marked.before message.id := by
      rw [after, last, newestEdit_before_of_none last]
      rfl
    rw [after, body_shownOf_congr session after]
    exact ⟨fun _ ev there => (by cases last.symm.trans there), fun _ => ⟨rfl, rfl⟩⟩
  | some p =>
    obtain ⟨ev, isNew⟩ := p
    cases isNew with
    | false =>
      replace after : newestEdit marked.after message.id = newestEdit marked.before message.id := by
        rw [after, last, newestEdit_before_of_kept last]
        rfl
      rw [after, body_shownOf_congr session after]
      exact ⟨fun _ ev there => (by cases last.symm.trans there), fun _ => ⟨rfl, rfl⟩⟩
    | true =>
      rw [last] at after
      constructor
      · rintro ⟨body, edited⟩ ev' there
        cases last.symm.trans there
        rw [after] at edited
        obtain ⟨old, before⟩ := Option.isSome_iff_exists.mp edited.symm
        refine ⟨old, before, fun kept => ?_⟩
        rw [body_shownOf session _ kept, body_shownOf session _ kept, after, before] at body
        exact body.symm
      · intro harmless
        obtain ⟨old, before, repeats⟩ := harmless ev last
        rw [after, before]
        refine ⟨?_, rfl⟩
        cases redacted : message.redacted with
        | true => rw [body_shownOf_redacted session _ redacted, body_shownOf_redacted session _ redacted]
        | false =>
          rw [body_shownOf session _ redacted, body_shownOf session _ redacted, after, before]
          exact (repeats redacted).symm

end Insertion

/-! ## Whose words a message shows -/

/-- The list shows each message once, in the order of the timeline, and counts the reactions to it by
users. A message shows the words of its author exactly when its author has the last word on it, and
events put in leave it as it was exactly when they are harmless to it. -/
theorem authors_words_iff (session : ClientSession) (timeline : List MatrixEvent)
    (short : timeline.length ≤ 1000) :
    extractMessages session timeline =
        (timeline.filter MatrixEvent.isMessage).map (shownOf session timeline) ∧
      (∀ message ∈ timeline.filter MatrixEvent.isMessage,
        (shownOf session timeline message).id = message.id ∧
          CountsReactions timeline message.id (shownOf session timeline message).reactions ∧
          (message.redacted = false →
            ((shownOf session timeline message).body = authoredBody timeline message ↔
              AuthorHasLastWord timeline message))) ∧
      ∀ marked : Insertion, marked.before = timeline → marked.after.length ≤ 1000 →
        ∀ message ∈ timeline.filter MatrixEvent.isMessage,
          (∀ p ∈ marked, p.2 = true → p.1.sender ≠ message.sender) →
            ((shownOf session marked.after message).body = (shownOf session timeline message).body ∧
                (shownOf session marked.after message).edited =
                  (shownOf session timeline message).edited ↔
              marked.Harmless message) := by
  refine ⟨?_, fun message _ => ⟨rfl, (counted_scanTimeline timeline message.id).countsReactions,
    body_eq_authoredBody_iff session⟩, ?_⟩
  · rw [extractMessages, tailOf_of_length_le short]
    rfl
  · rintro marked rfl - message - -
    exact marked.kept_iff_harmless session message

/-! ## An edit by somebody else -/

def aliceSays : MatrixEvent :=
  ⟨"$1", "@alice:a", 1, "m.room.message", false, { EventContent.empty with body := some "hi" }⟩

def editOfAlice (sender body : String) : MatrixEvent :=
  ⟨"$2", sender, 2, "m.room.message", false,
    { EventContent.empty with
      relatesTo := some ⟨some "m.replace", some "$1", none⟩, newContent := some body }⟩

def someSession : ClientSession := ⟨"/api", none⟩

theorem authors_words_own_edit :
    [aliceSays, editOfAlice "@alice:a" "bye"].length ≤ 1000 ∧
      (shownOf someSession [aliceSays, editOfAlice "@alice:a" "bye"] aliceSays).body =
        authoredBody [aliceSays, editOfAlice "@alice:a" "bye"] aliceSays :=
  ⟨by decide, (((authors_words_iff someSession [aliceSays, editOfAlice "@alice:a" "bye"]
    (by decide)).2.1 aliceSays (by decide)).2.2 rfl).mpr
      ⟨fun ev newest other => (by cases newest; exact absurd rfl other),
        fun ev own empty => (by cases own; exact absurd empty (by decide))⟩⟩

/-- Bob's replacement of Alice's message is shown in her name. -/
theorem bob_edits_alice :
    (¬∀ session timeline, timeline.length ≤ 1000 →
      ∀ message ∈ timeline.filter MatrixEvent.isMessage, message.redacted = false →
        (shownOf session timeline message).body = authoredBody timeline message) ∧
    ¬∀ session (marked : Insertion), marked.after.length ≤ 1000 →
      ∀ message ∈ marked.before.filter MatrixEvent.isMessage,
        (∀ p ∈ marked, p.2 = true → p.1.sender ≠ message.sender) →
          (shownOf session marked.after message).body =
            (shownOf session marked.before message).body := by
  constructor
  · intro authored
    have shown := authored someSession [aliceSays, editOfAlice "@bob:b" "bye"] (by decide) aliceSays
      (by decide) rfl
    exact absurd shown (by decide)
  · intro kept
    have shown := kept someSession [(aliceSays, false), (editOfAlice "@bob:b" "bye", true)] (by decide)
      aliceSays (by decide) (by decide)
    exact absurd shown (by decide)

end Concorrd
