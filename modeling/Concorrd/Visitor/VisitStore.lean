import Concorrd.Lib.JsText
import Concorrd.Lib.Run
import Concorrd.Porch.Handler

/-!
# Visits to a peer

The store of `stores/visitorStore.ts`: the peer that is visited, the rows of its channels, the selected
channel and its messages. Each action reads where it goes before its request is sent, and writes what
came back into whatever visit is open when the answer arrives.

The model keeps beside every row, message and error the peer it came from, and beside a request for
messages how many posts the hosts had accepted when it was sent.
-/

namespace Concorrd

open JsText (truthy)

/-! ## The store -/

/-- A row as the store holds it: the peer that listed it, and the peer whose word its visibility is. -/
structure VisitRow where
  row : PorchListChannelRow
  peer : String
  statusPeer : String
  deriving DecidableEq

/-- A message, with the peer and the channel it was read from or posted to. -/
structure VisitMessage where
  message : ChannelMessage
  peer : String
  channel : String
  deriving DecidableEq

/-- An error, with the peer that was asked, if one was. -/
structure VisitError where
  text : String
  peer : Option String
  deriving DecidableEq

inductive VisitRequest where
  | visitPeer (peer : String) (opening : Bool)
  | getMessages (peer channel : String) (known : Nat)
  | postMessage (peer channel body : String)
  | knock (peer channel : String) (message : Option String)
  | withdrawKnock (peer knockId : String)
  | knockStatus (peer channel : String)

def VisitRequest.peer : VisitRequest → String
  | .visitPeer peer _ => peer
  | .getMessages peer _ _ => peer
  | .postMessage peer _ _ => peer
  | .knock peer _ _ => peer
  | .withdrawKnock peer _ => peer
  | .knockStatus peer _ => peer

/-- The request sets `isLoading`, and its failure clears it. -/
def VisitRequest.loads : VisitRequest → Bool
  | .visitPeer _ opening => opening
  | .getMessages _ _ _ => true
  | .postMessage _ _ _ | .knock _ _ _ | .withdrawKnock _ _ | .knockStatus _ _ => false

inductive VisitAnswer where
  | rows (rows : List PorchListChannelRow)
  | messages (messages : List ChannelMessage)
  | message (message : ChannelMessage)
  | knock (knock : Knock)
  | status (knock : Option Knock)
  | failed (text : String)

structure VisitorStore where
  currentPeerId : Option String
  channels : List PorchChannel
  rows : List VisitRow
  selectedChannelId : Option String
  messages : List VisitMessage
  isLoading : Bool
  error : Option VisitError
  requests : List VisitRequest
  /-- The posts that hosts have accepted, in order. -/
  accepted : List VisitMessage

namespace VisitorStore

def initial : VisitorStore := ⟨none, [], [], none, [], false, none, [], []⟩

def send (s : VisitorStore) (request : VisitRequest) : VisitorStore :=
  { s with requests := s.requests ++ [request] }

/-- An action that goes nowhere. -/
def refuse (s : VisitorStore) (text : String) : VisitorStore := { s with error := some ⟨text, none⟩ }

/-! ## Actions -/

def openVisit (s : VisitorStore) (peerId : String) : VisitorStore :=
  { s with
    currentPeerId := some peerId, channels := [], rows := [], selectedChannelId := none, messages := [],
    isLoading := true, error := none }.send (.visitPeer peerId true)

def closeVisit (s : VisitorStore) : VisitorStore :=
  { s with
    currentPeerId := none, channels := [], rows := [], selectedChannelId := none, messages := [],
    isLoading := false, error := none }

def refreshMessages (s : VisitorStore) : VisitorStore :=
  match truthy s.currentPeerId, truthy s.selectedChannelId with
  | some peer, some id =>
    { s with isLoading := true, error := none }.send (.getMessages peer id s.accepted.length)
  | _, _ => s

def selectChannel (s : VisitorStore) (channelId : String) : VisitorStore :=
  match s.rows.find? fun r => r.row.channel.id = channelId with
  | some r =>
    if r.row.visibility = .visible then
      { s with selectedChannelId := some channelId, messages := [], error := none }.refreshMessages
    else s.refuse "channel_gated"
  | none => { s with selectedChannelId := some channelId, messages := [], error := none }.refreshMessages

def sendMessage (s : VisitorStore) (body : String) : VisitorStore :=
  match truthy s.currentPeerId, truthy s.selectedChannelId with
  | some peer, some id =>
    if JsText.trim body = "" then s else s.send (.postMessage peer id (JsText.trim body))
  | _, _ => s.refuse "no_visit_target"

def knockOn (s : VisitorStore) (channelId : String) (message : Option String) : VisitorStore :=
  match truthy s.currentPeerId with
  | some peer => s.send (.knock peer channelId message)
  | none => s.refuse "no_visit_target"

def withdrawKnock (s : VisitorStore) (knockId : String) : VisitorStore :=
  match truthy s.currentPeerId with
  | some peer => s.send (.withdrawKnock peer knockId)
  | none => s.refuse "no_visit_target"

def refreshKnockStatus (s : VisitorStore) (channelId : String) : VisitorStore :=
  match truthy s.currentPeerId with
  | some peer => s.send (.knockStatus peer channelId)
  | none => s

def refreshChannels (s : VisitorStore) : VisitorStore :=
  match truthy s.currentPeerId with
  | some peer => s.send (.visitPeer peer false)
  | none => s

/-! ## Answers -/

/-- The first channel that can be entered. -/
def firstVisible (rows : List PorchListChannelRow) : Option String :=
  (rows.find? fun r => r.visibility = .visible).map fun r => r.channel.id

def withRows (s : VisitorStore) (peer : String) (rows : List PorchListChannelRow) : VisitorStore :=
  { s with
    channels := rows.map PorchListChannelRow.channel
    rows := rows.map fun row => ⟨row, peer, peer⟩ }

/-- The answer to the request that opened the visit. -/
def opened (s : VisitorStore) (peer : String) (rows : List PorchListChannelRow) : VisitorStore :=
  let s := { s.withRows peer rows with selectedChannelId := firstVisible rows, isLoading := false }
  if (truthy (firstVisible rows)).isSome then s.refreshMessages else s

/-- The rows of the channel get another visibility. -/
def mark (s : VisitorStore) (peer channelId : String) (visibility : ChannelVisibility) : VisitorStore :=
  { s with
    rows := s.rows.map fun r =>
      if r.row.channel.id = channelId then
        ⟨{ r.row with visibility := visibility }, r.peer, peer⟩
      else r }

/-- What the status of the visitor's own knock says of the channel. -/
def visibilityOf (status : Option Knock) : ChannelVisibility :=
  if status.any fun knock => knock.status = .accepted then .visible
  else .needsKnock (status.map Knock.status)

/-- The list that an answer to a refresh sets. -/
def withMessages (s : VisitorStore) (peer channel : String) (messages : List ChannelMessage) :
    VisitorStore :=
  { s with messages := messages.map fun m => ⟨m, peer, channel⟩, isLoading := false }

def fail (s : VisitorStore) (request : VisitRequest) (text : String) : VisitorStore :=
  { s with
    error := some ⟨text, some request.peer⟩
    isLoading := if request.loads then false else s.isLoading }

/-- An answer, in the kind of its request. -/
def settle (s : VisitorStore) (request : VisitRequest) : VisitAnswer → VisitorStore
  | .failed text => s.fail request text
  | .rows rows =>
    match request with
    | .visitPeer peer opening => if opening then s.opened peer rows else s.withRows peer rows
    | _ => s
  | .messages messages =>
    match request with
    | .getMessages peer channel _ => s.withMessages peer channel messages
    | _ => s
  | .message message =>
    match request with
    | .postMessage peer channel _ =>
      { s with
        messages := s.messages ++ [⟨message, peer, channel⟩]
        accepted := s.accepted ++ [⟨message, peer, channel⟩] }
    | _ => s
  | .knock knock =>
    match request with
    | .knock peer channel _ => s.mark peer channel (.needsKnock (some knock.status))
    | .withdrawKnock peer _ => s.mark peer knock.channelId (.needsKnock (some knock.status))
    | _ => s
  | .status knock =>
    match request with
    | .knockStatus peer channel => s.mark peer channel (visibilityOf knock)
    | _ => s

def answer (s : VisitorStore) (i : Nat) (a : VisitAnswer) : VisitorStore :=
  match s.requests[i]? with
  | some request => { s with requests := s.requests.eraseIdx i }.settle request a
  | none => s

end VisitorStore

inductive VisitEvent where
  | openVisit (peerId : String)
  | closeVisit
  | selectChannel (channelId : String)
  | refreshMessages
  | sendMessage (body : String)
  | knockOn (channelId : String) (message : Option String)
  | withdrawKnock (knockId : String)
  | refreshKnockStatus (channelId : String)
  | refreshChannels
  | answer (i : Nat) (a : VisitAnswer)

namespace VisitorStore

def step (s : VisitorStore) : VisitEvent → VisitorStore
  | .openVisit peerId => s.openVisit peerId
  | .closeVisit => s.closeVisit
  | .selectChannel channelId => s.selectChannel channelId
  | .refreshMessages => s.refreshMessages
  | .sendMessage body => s.sendMessage body
  | .knockOn channelId message => s.knockOn channelId message
  | .withdrawKnock knockId => s.withdrawKnock knockId
  | .refreshKnockStatus channelId => s.refreshKnockStatus channelId
  | .refreshChannels => s.refreshChannels
  | .answer i a => s.answer i a

/-! ## Visits that do not mix -/

/-- Everything shown comes from the peer that is visited, and with no visit open nothing is shown. An
error then says no more than that an action had no visit to go to. -/
structure Unmixed (s : VisitorStore) : Prop where
  channels : s.channels = s.rows.map fun r => r.row.channel
  rows : ∀ r ∈ s.rows, s.currentPeerId = some r.peer ∧ s.currentPeerId = some r.statusPeer
  messages : ∀ m ∈ s.messages, s.currentPeerId = some m.peer ∧ s.selectedChannelId = some m.channel
  selected : ∀ channelId ∈ s.selectedChannelId, ∃ r ∈ s.rows, r.row.channel.id = channelId
  closed : s.currentPeerId = none → s.channels = [] ∧ s.rows = [] ∧ s.selectedChannelId = none ∧
    s.messages = [] ∧ s.isLoading = false ∧ ∀ e ∈ s.error, e.peer = none

/-- The posts accepted since the request was sent, on the channel that is selected. -/
def newer (s : VisitorStore) (known : Nat) : List VisitMessage :=
  (s.accepted.drop known).filter fun m =>
    s.currentPeerId = some m.peer && s.selectedChannelId = some m.channel

/-- The answer to a refresh loses no message from the list that was accepted after the refresh was
sent. -/
def KeepsAccepted (s : VisitorStore) : VisitEvent → Prop
  | .answer i (.messages messages) =>
    ∀ peer channel known, s.requests[i]? = some (.getMessages peer channel known) →
      ∀ m ∈ s.newer known, m ∈ s.messages → m ∈ (s.answer i (.messages messages)).messages
  | _ => True

/-! ## The condition -/

/-- The channel is the one that is selected. -/
def Shows (s : VisitorStore) (peer channel : String) : Prop :=
  s.currentPeerId = some peer ∧ s.selectedChannelId = some channel

/-- The word on the channel comes from the peer that is visited, or no row is of that channel. -/
def Concerns (s : VisitorStore) (peer channelId : String) : Prop :=
  s.currentPeerId = some peer ∨ ∀ r ∈ s.rows, r.row.channel.id ≠ channelId

/-- The answer comes to the visit it was asked for, or brings nothing. -/
def Timely (s : VisitorStore) (request : VisitRequest) : VisitAnswer → Prop
  | .failed _ => s.currentPeerId ≠ none
  | .rows rows =>
    match request with
    | .visitPeer peer opening =>
      (rows = [] ∨ s.currentPeerId = some peer) ∧
        -- messages that are shown stay those of the selected channel
        if opening then s.messages = [] ∨ firstVisible rows = s.selectedChannelId
        else ∀ channelId ∈ s.selectedChannelId, ∃ row ∈ rows, row.channel.id = channelId
    | _ => True
  | .messages messages =>
    match request with
    | .getMessages peer channel known =>
      (messages = [] ∨ s.Shows peer channel) ∧
        ∀ m ∈ s.newer known, m ∈ s.messages → m.message ∈ messages
    | _ => True
  | .message _ =>
    match request with
    | .postMessage peer channel _ => s.Shows peer channel
    | _ => True
  | .knock knock =>
    match request with
    | .knock peer channel _ => s.Concerns peer channel
    | .withdrawKnock peer _ => s.Concerns peer knock.channelId
    | _ => True
  | .status _ =>
    match request with
    | .knockStatus peer channel => s.Concerns peer channel
    | _ => True

/-- A channel is selected from the rows, and each answer is timely. -/
def Apart (s : VisitorStore) : VisitEvent → Prop
  | .selectChannel channelId => ∃ r ∈ s.rows, r.row.channel.id = channelId
  | .answer i a => ∀ request ∈ s.requests[i]?, s.Timely request a
  | _ => True

/-! ## Actions keep visits apart -/

variable {s : VisitorStore}

theorem unmixed_initial : initial.Unmixed :=
  ⟨rfl, fun _ mem => (by cases mem), fun _ mem => (by cases mem), fun _ mem => (by cases mem),
    fun _ => ⟨rfl, rfl, rfl, rfl, rfl, fun _ mem => (by cases mem)⟩⟩

/-- The requests and the ghost of the posts play no part. -/
theorem unmixed_withRequests (requests : List VisitRequest) (accepted : List VisitMessage) :
    { s with requests := requests, accepted := accepted }.Unmixed ↔ s.Unmixed :=
  ⟨fun h => ⟨h.channels, h.rows, h.messages, h.selected, h.closed⟩,
    fun h => ⟨h.channels, h.rows, h.messages, h.selected, h.closed⟩⟩

theorem unmixed_send (request : VisitRequest) : (s.send request).Unmixed ↔ s.Unmixed :=
  unmixed_withRequests _ s.accepted

theorem Unmixed.refuse (unmixed : s.Unmixed) (text : String) : (s.refuse text).Unmixed where
  channels := unmixed.channels
  rows := unmixed.rows
  messages := unmixed.messages
  selected := unmixed.selected
  closed := fun nobody => by
    obtain ⟨channels, rows, selected, messages, idle, -⟩ := unmixed.closed nobody
    exact ⟨channels, rows, selected, messages, idle, fun e mem => by cases mem; rfl⟩

theorem ne_none_of_truthy {text : Option String} {t : String} (h : truthy text = some t) :
    text ≠ none := by
  rintro rfl
  cases h

theorem unmixed_refreshMessages : s.refreshMessages.Unmixed ↔ s.Unmixed := by
  rw [refreshMessages]
  split
  · rename_i peer id here selected
    rw [unmixed_send]
    exact ⟨fun h => ⟨h.channels, h.rows, h.messages, h.selected,
        fun nobody => absurd nobody (ne_none_of_truthy here)⟩,
      fun h => ⟨h.channels, h.rows, h.messages, h.selected,
        fun nobody => absurd nobody (ne_none_of_truthy here)⟩⟩
  · exact Iff.rfl

theorem unmixed_openVisit (s : VisitorStore) (peerId : String) : (s.openVisit peerId).Unmixed :=
  (unmixed_send _).mpr ⟨rfl, fun _ mem => (by cases mem), fun _ mem => (by cases mem),
    fun _ mem => (by cases mem), fun nobody => (by cases nobody)⟩

theorem unmixed_closeVisit (s : VisitorStore) : s.closeVisit.Unmixed :=
  ⟨rfl, fun _ mem => (by cases mem), fun _ mem => (by cases mem), fun _ mem => (by cases mem),
    fun _ => ⟨rfl, rfl, rfl, rfl, rfl, fun _ mem => (by cases mem)⟩⟩

theorem unmixed_select_iff (unmixed : s.Unmixed) (channelId : String) :
    { s with selectedChannelId := some channelId, messages := [], error := none }.Unmixed ↔
      ∃ r ∈ s.rows, r.row.channel.id = channelId := by
  constructor
  · intro h
    exact h.selected channelId rfl
  · intro listed
    refine ⟨unmixed.channels, unmixed.rows, fun _ mem => (by cases mem), fun c mem => ?_,
      fun nobody => ?_⟩
    · cases mem
      exact listed
    · obtain ⟨r, mem, -⟩ := listed
      cases (unmixed.rows r mem).1.symm.trans nobody

theorem unmixed_selectChannel_iff (unmixed : s.Unmixed) (channelId : String) :
    (s.selectChannel channelId).Unmixed ↔ s.Apart (.selectChannel channelId) := by
  rw [selectChannel]
  split
  · rename_i r found
    split
    · rw [unmixed_refreshMessages]
      exact unmixed_select_iff unmixed channelId
    · exact ⟨fun _ => ⟨r, List.mem_of_find?_eq_some found, by simpa using List.find?_some found⟩,
        fun _ => unmixed.refuse _⟩
  · rw [unmixed_refreshMessages]
    exact unmixed_select_iff unmixed channelId

theorem Unmixed.sendMessage (unmixed : s.Unmixed) (body : String) : (s.sendMessage body).Unmixed := by
  rw [VisitorStore.sendMessage]
  split
  · split
    · exact unmixed
    · exact (unmixed_send _).mpr unmixed
  · exact unmixed.refuse _

theorem Unmixed.knockOn (unmixed : s.Unmixed) (channelId : String) (message : Option String) :
    (s.knockOn channelId message).Unmixed := by
  rw [VisitorStore.knockOn]
  split
  · exact (unmixed_send _).mpr unmixed
  · exact unmixed.refuse _

theorem Unmixed.withdrawKnock (unmixed : s.Unmixed) (knockId : String) :
    (s.withdrawKnock knockId).Unmixed := by
  rw [VisitorStore.withdrawKnock]
  split
  · exact (unmixed_send _).mpr unmixed
  · exact unmixed.refuse _

theorem Unmixed.refreshKnockStatus (unmixed : s.Unmixed) (channelId : String) :
    (s.refreshKnockStatus channelId).Unmixed := by
  rw [VisitorStore.refreshKnockStatus]
  split
  · exact (unmixed_send _).mpr unmixed
  · exact unmixed

theorem Unmixed.refreshChannels (unmixed : s.Unmixed) : s.refreshChannels.Unmixed := by
  rw [VisitorStore.refreshChannels]
  split
  · exact (unmixed_send _).mpr unmixed
  · exact unmixed

/-! ## Answers -/

theorem unmixed_fail_iff (unmixed : s.Unmixed) (request : VisitRequest) (text : String) :
    (s.fail request text).Unmixed ↔ s.currentPeerId ≠ none := by
  constructor
  · intro h nobody
    obtain ⟨-, -, -, -, -, local_⟩ := h.closed nobody
    cases local_ _ rfl
  · intro open_
    exact ⟨unmixed.channels, unmixed.rows, unmixed.messages, unmixed.selected,
      fun nobody => absurd nobody open_⟩

theorem nil_or_of_listed {rows : List PorchListChannelRow} {peer : String} {current : Option String} :
    (∀ r ∈ rows.map fun row => (⟨row, peer, peer⟩ : VisitRow),
      current = some r.peer ∧ current = some r.statusPeer) ↔ rows = [] ∨ current = some peer := by
  constructor
  · intro from_
    cases rows with
    | nil => exact .inl rfl
    | cons row rows => exact .inr (from_ ⟨row, peer, peer⟩ (List.mem_map_of_mem List.mem_cons_self)).1
  · rintro (rfl | here) r mem
    · cases mem
    · obtain ⟨row, -, rfl⟩ := List.mem_map.mp mem
      exact ⟨here, here⟩

/-- With no visit open nothing is shown but an error, once what is shown comes from the visit. -/
theorem closed_of_rows (rows : ∀ r ∈ s.rows, s.currentPeerId = some r.peer ∧ s.currentPeerId = some r.statusPeer)
    (channels : s.channels = s.rows.map fun r => r.row.channel)
    (messages : ∀ m ∈ s.messages, s.currentPeerId = some m.peer ∧ s.selectedChannelId = some m.channel)
    (selected : ∀ channelId ∈ s.selectedChannelId, ∃ r ∈ s.rows, r.row.channel.id = channelId)
    (nobody : s.currentPeerId = none) :
    s.channels = [] ∧ s.rows = [] ∧ s.selectedChannelId = none ∧ s.messages = [] := by
  have noRows : s.rows = [] := List.eq_nil_iff_forall_not_mem.mpr fun r mem => by
    cases nobody.symm.trans (rows r mem).1
  refine ⟨by rw [channels, noRows]; rfl, noRows, ?_, ?_⟩
  · cases there : s.selectedChannelId with
    | none => rfl
    | some c =>
      obtain ⟨r, mem, -⟩ := selected c there
      rw [noRows] at mem
      cases mem
  · exact List.eq_nil_iff_forall_not_mem.mpr fun m mem => by
      cases nobody.symm.trans (messages m mem).1

theorem channels_withRows (s : VisitorStore) (peer : String) (rows : List PorchListChannelRow) :
    (s.withRows peer rows).channels = (s.withRows peer rows).rows.map fun r => r.row.channel := by
  rw [withRows, List.map_map]
  rfl

theorem exists_row_withRows {rows : List PorchListChannelRow} {peer channelId : String} :
    (∃ r ∈ (s.withRows peer rows).rows, r.row.channel.id = channelId) ↔
      ∃ row ∈ rows, row.channel.id = channelId := by
  constructor
  · rintro ⟨r, mem, same⟩
    obtain ⟨row, there, rfl⟩ := List.mem_map.mp mem
    exact ⟨row, there, same⟩
  · rintro ⟨row, mem, same⟩
    exact ⟨⟨row, peer, peer⟩, List.mem_map_of_mem mem, same⟩

theorem unmixed_withRows_iff (unmixed : s.Unmixed) (peer : String) (rows : List PorchListChannelRow) :
    (s.withRows peer rows).Unmixed ↔ (rows = [] ∨ s.currentPeerId = some peer) ∧
      ∀ channelId ∈ s.selectedChannelId, ∃ row ∈ rows, row.channel.id = channelId := by
  constructor
  · intro h
    exact ⟨nil_or_of_listed.mp h.rows, fun c mem => exists_row_withRows.mp (h.selected c mem)⟩
  · rintro ⟨here, listed⟩
    have fromHere := nil_or_of_listed.mpr here
    have selected : ∀ c ∈ s.selectedChannelId, ∃ r ∈ (s.withRows peer rows).rows,
        r.row.channel.id = c := fun c mem => exists_row_withRows.mpr (listed c mem)
    refine ⟨channels_withRows s peer rows, fromHere, unmixed.messages, selected, fun nobody => ?_⟩
    obtain ⟨channels, rows, selected, messages⟩ :=
      closed_of_rows fromHere (channels_withRows s peer rows) unmixed.messages selected nobody
    obtain ⟨-, -, -, -, idle, mine⟩ := unmixed.closed nobody
    exact ⟨channels, rows, selected, messages, idle, mine⟩

theorem mem_of_firstVisible {rows : List PorchListChannelRow} {channelId : String}
    (first : firstVisible rows = some channelId) : ∃ row ∈ rows, row.channel.id = channelId := by
  obtain ⟨row, found, same⟩ := Option.map_eq_some_iff.mp first
  exact ⟨row, List.mem_of_find?_eq_some found, same⟩

theorem unmixed_opened_iff (unmixed : s.Unmixed) (peer : String) (rows : List PorchListChannelRow) :
    (s.opened peer rows).Unmixed ↔ (rows = [] ∨ s.currentPeerId = some peer) ∧
      (s.messages = [] ∨ firstVisible rows = s.selectedChannelId) := by
  have refreshed : (s.opened peer rows).Unmixed ↔
      { s.withRows peer rows with
        selectedChannelId := firstVisible rows, isLoading := false }.Unmixed := by
    rw [opened]
    split
    · exact unmixed_refreshMessages
    · exact Iff.rfl
  rw [refreshed]
  constructor
  · intro h
    refine ⟨nil_or_of_listed.mp h.rows, ?_⟩
    cases shown : s.messages with
    | nil => exact .inl rfl
    | cons m ms =>
      have mem : m ∈ s.messages := by rw [shown]; exact List.mem_cons_self
      exact .inr ((h.messages m mem).2.trans (unmixed.messages m mem).2.symm)
  · rintro ⟨here, same⟩
    have fromHere := nil_or_of_listed.mpr here
    have selected : ∀ c ∈ firstVisible rows, ∃ r ∈ (s.withRows peer rows).rows,
        r.row.channel.id = c := fun c mem => exists_row_withRows.mpr (mem_of_firstVisible mem)
    have messages : ∀ m ∈ s.messages, s.currentPeerId = some m.peer ∧
        firstVisible rows = some m.channel := by
      intro m mem
      rcases same with none | same
      · rw [none] at mem
        cases mem
      · exact ⟨(unmixed.messages m mem).1, same.trans (unmixed.messages m mem).2⟩
    refine ⟨channels_withRows s peer rows, fromHere, messages, selected, fun nobody => ?_⟩
    obtain ⟨noChannels, noRows, noSelection, noMessages⟩ :=
      closed_of_rows (s := { s.withRows peer rows with selectedChannelId := firstVisible rows })
        fromHere (channels_withRows s peer rows) messages selected nobody
    obtain ⟨-, -, -, -, -, mine⟩ := unmixed.closed nobody
    exact ⟨noChannels, noRows, noSelection, noMessages, rfl, mine⟩

theorem mem_mark {peer channelId : String} {visibility : ChannelVisibility} {r : VisitRow}
    (mem : r ∈ (s.mark peer channelId visibility).rows) : ∃ old ∈ s.rows,
      r.peer = old.peer ∧ r.row.channel = old.row.channel ∧
        (r.statusPeer = old.statusPeer ∨ r.statusPeer = peer ∧ old.row.channel.id = channelId) := by
  obtain ⟨old, there, rfl⟩ := List.mem_map.mp mem
  refine ⟨old, there, ?_⟩
  split
  · rename_i same
    exact ⟨rfl, rfl, .inr ⟨rfl, same⟩⟩
  · exact ⟨rfl, rfl, .inl rfl⟩

theorem unmixed_mark_iff (unmixed : s.Unmixed) (peer channelId : String)
    (visibility : ChannelVisibility) :
    (s.mark peer channelId visibility).Unmixed ↔ s.Concerns peer channelId := by
  constructor
  · intro h
    by_cases listed : ∃ r ∈ s.rows, r.row.channel.id = channelId
    · obtain ⟨r, mem, same⟩ := listed
      refine .inl (h.rows ⟨{ r.row with visibility := visibility }, r.peer, peer⟩ ?_).2
      exact List.mem_map.mpr ⟨r, mem, if_pos same⟩
    · exact .inr fun r mem same => listed ⟨r, mem, same⟩
  · intro concerns
    have rows : ∀ r ∈ (s.mark peer channelId visibility).rows,
        s.currentPeerId = some r.peer ∧ s.currentPeerId = some r.statusPeer := by
      intro r mem
      obtain ⟨old, there, samePeer, -, status⟩ := mem_mark mem
      obtain ⟨listed, told⟩ := unmixed.rows old there
      refine ⟨samePeer ▸ listed, ?_⟩
      rcases status with same | ⟨now, named⟩
      · exact same ▸ told
      · exact now ▸ concerns.resolve_right fun silent => silent old there named
    have channels : (s.mark peer channelId visibility).channels =
        (s.mark peer channelId visibility).rows.map fun r => r.row.channel := by
      rw [mark, List.map_map]
      refine unmixed.channels.trans (List.map_congr_left fun r _ => ?_)
      rw [Function.comp]
      split
      · rfl
      · rfl
    have selected : ∀ c ∈ s.selectedChannelId, ∃ r ∈ (s.mark peer channelId visibility).rows,
        r.row.channel.id = c := by
      intro c mem
      obtain ⟨r, there, same⟩ := unmixed.selected c mem
      refine ⟨_, List.mem_map_of_mem there, ?_⟩
      split
      · exact same
      · exact same
    refine ⟨channels, rows, unmixed.messages, selected, fun nobody => ?_⟩
    obtain ⟨noChannels, noRows, noSelection, noMessages⟩ :=
      closed_of_rows rows channels unmixed.messages selected nobody
    obtain ⟨-, -, -, -, idle, mine⟩ := unmixed.closed nobody
    exact ⟨noChannels, noRows, noSelection, noMessages, idle, mine⟩

theorem unmixed_withMessages_iff (unmixed : s.Unmixed) (peer channel : String)
    (messages : List ChannelMessage) :
    (s.withMessages peer channel messages).Unmixed ↔ messages = [] ∨ s.Shows peer channel := by
  constructor
  · intro h
    cases messages with
    | nil => exact .inl rfl
    | cons m ms => exact .inr (h.messages ⟨m, peer, channel⟩ (List.mem_map_of_mem List.mem_cons_self))
  · intro shown
    have fromHere : ∀ m ∈ (s.withMessages peer channel messages).messages,
        s.currentPeerId = some m.peer ∧ s.selectedChannelId = some m.channel := by
      intro m mem
      obtain ⟨message, there, rfl⟩ := List.mem_map.mp mem
      rcases shown with rfl | here
      · cases there
      · exact here
    refine ⟨unmixed.channels, unmixed.rows, fromHere, unmixed.selected, fun nobody => ?_⟩
    obtain ⟨noChannels, noRows, noSelection, noMessages⟩ :=
      closed_of_rows (s := s.withMessages peer channel messages) unmixed.rows unmixed.channels fromHere
        unmixed.selected nobody
    obtain ⟨-, -, -, -, -, mine⟩ := unmixed.closed nobody
    exact ⟨noChannels, noRows, noSelection, noMessages, rfl, mine⟩

theorem unmixed_append_iff (unmixed : s.Unmixed) (m : VisitMessage) :
    { s with messages := s.messages ++ [m] }.Unmixed ↔ s.Shows m.peer m.channel := by
  constructor
  · intro h
    exact h.messages m (List.mem_append_right _ (List.mem_singleton_self m))
  · intro here
    refine ⟨unmixed.channels, unmixed.rows, fun other mem => ?_, unmixed.selected,
      fun nobody => absurd (here.1.symm.trans nobody) (Option.some_ne_none _)⟩
    rcases List.mem_append.mp mem with old | new
    · exact unmixed.messages other old
    · cases List.mem_singleton.mp new
      exact here

/-- The messages accepted since are among those of an answer, once it is shown where it belongs. -/
theorem newer_kept_iff {peer channel : String} {known : Nat} {messages : List ChannelMessage}
    (shown : messages = [] ∨ s.Shows peer channel) :
    (∀ m ∈ s.newer known, m ∈ s.messages → m ∈ (s.withMessages peer channel messages).messages) ↔
      ∀ m ∈ s.newer known, m ∈ s.messages → m.message ∈ messages := by
  constructor
  · intro kept m new mem
    obtain ⟨message, there, rfl⟩ := List.mem_map.mp (kept m new mem)
    exact there
  · intro kept m new mem
    have there := kept m new mem
    have here : s.currentPeerId = some m.peer ∧ s.selectedChannelId = some m.channel := by
      simpa using (List.mem_filter.mp new).2
    rcases shown with rfl | ⟨samePeer, sameChannel⟩
    · cases there
    · cases samePeer.symm.trans here.1
      cases sameChannel.symm.trans here.2
      exact List.mem_map_of_mem there

/-! ## One step -/

/-- What a step is to keep: the visits apart, and the posts that were accepted. -/
def Good (s : VisitorStore) (e : VisitEvent) : Prop := (s.step e).Unmixed ∧ s.KeepsAccepted e

theorem unmixed_settle_iff (unmixed : s.Unmixed) (request : VisitRequest) (a : VisitAnswer)
    (other : ∀ messages, a ≠ .messages messages) :
    (s.settle request a).Unmixed ↔ s.Timely request a := by
  have idle : s.Unmixed ↔ True := iff_true_intro unmixed
  cases a with
  | failed text => exact unmixed_fail_iff unmixed request text
  | messages messages => exact absurd rfl (other messages)
  | rows rows =>
    cases request with
    | visitPeer peer opening =>
      cases opening with
      | true => exact unmixed_opened_iff unmixed peer rows
      | false => exact unmixed_withRows_iff unmixed peer rows
    | getMessages => exact idle
    | postMessage => exact idle
    | knock => exact idle
    | withdrawKnock => exact idle
    | knockStatus => exact idle
  | message message =>
    cases request with
    | postMessage peer channel body =>
      exact (unmixed_withRequests s.requests _).trans (unmixed_append_iff unmixed ⟨message, peer, channel⟩)
    | visitPeer => exact idle
    | getMessages => exact idle
    | knock => exact idle
    | withdrawKnock => exact idle
    | knockStatus => exact idle
  | knock knock =>
    cases request with
    | knock peer channel message => exact unmixed_mark_iff unmixed peer channel _
    | withdrawKnock peer knockId => exact unmixed_mark_iff unmixed peer knock.channelId _
    | visitPeer => exact idle
    | getMessages => exact idle
    | postMessage => exact idle
    | knockStatus => exact idle
  | status knock =>
    cases request with
    | knockStatus peer channel => exact unmixed_mark_iff unmixed peer channel _
    | visitPeer => exact idle
    | getMessages => exact idle
    | postMessage => exact idle
    | knock => exact idle
    | withdrawKnock => exact idle

theorem good_of_idle (unmixed : s.Unmixed) {i : Nat} {messages : List ChannelMessage}
    (idle : s.answer i (.messages messages) = { s with requests := s.requests.eraseIdx i })
    (none : ∀ peer channel known, s.requests[i]? ≠ some (.getMessages peer channel known)) :
    s.Good (.answer i (.messages messages)) := by
  refine ⟨?_, fun peer channel known asked => absurd asked (none peer channel known)⟩
  rw [step, idle]
  exact (unmixed_withRequests _ s.accepted).mpr unmixed

theorem good_messages_iff (unmixed : s.Unmixed) {i : Nat} {request : VisitRequest}
    (asked : s.requests[i]? = some request) (messages : List ChannelMessage) :
    s.Good (.answer i (.messages messages)) ↔ s.Timely request (.messages messages) := by
  have settled : s.answer i (.messages messages) =
      { s with requests := s.requests.eraseIdx i }.settle request (.messages messages) := by
    rw [answer, asked]
  cases request with
  | getMessages peer channel known =>
    have answered := unmixed_withMessages_iff ((unmixed_withRequests (s.requests.eraseIdx i)
      s.accepted).mpr unmixed) peer channel messages
    constructor
    · rintro ⟨kept, keeps⟩
      rw [step, settled] at kept
      have shown := answered.mp kept
      refine ⟨shown, (newer_kept_iff shown).mp fun m new mem => ?_⟩
      have there := keeps peer channel known asked m new mem
      rwa [settled] at there
    · rintro ⟨shown, keeps⟩
      refine ⟨?_, fun peer' channel' known' asked' => ?_⟩
      · rw [step, settled]
        exact answered.mpr shown
      · cases asked.symm.trans asked'
        rw [settled]
        exact (newer_kept_iff shown).mpr keeps
  | visitPeer peer opening =>
    exact iff_of_true (good_of_idle unmixed settled (by simp [asked])) trivial
  | postMessage peer channel body =>
    exact iff_of_true (good_of_idle unmixed settled (by simp [asked])) trivial
  | knock peer channel message =>
    exact iff_of_true (good_of_idle unmixed settled (by simp [asked])) trivial
  | withdrawKnock peer knockId =>
    exact iff_of_true (good_of_idle unmixed settled (by simp [asked])) trivial
  | knockStatus peer channel =>
    exact iff_of_true (good_of_idle unmixed settled (by simp [asked])) trivial

theorem unmixed_answer_iff (unmixed : s.Unmixed) {i : Nat} {request : VisitRequest}
    (asked : s.requests[i]? = some request) (a : VisitAnswer)
    (other : ∀ messages, a ≠ .messages messages) :
    (s.step (.answer i a)).Unmixed ↔ s.Timely request a := by
  have taken : { s with requests := s.requests.eraseIdx i }.Unmixed :=
    (unmixed_withRequests _ s.accepted).mpr unmixed
  have timely : { s with requests := s.requests.eraseIdx i }.Timely request a ↔ s.Timely request a := by
    cases a <;> cases request <;> exact Iff.rfl
  rw [step, answer, asked]
  exact (unmixed_settle_iff taken request a other).trans timely

theorem good_answer_iff (unmixed : s.Unmixed) (i : Nat) (a : VisitAnswer) :
    s.Good (.answer i a) ↔ s.Apart (.answer i a) := by
  cases asked : s.requests[i]? with
  | none =>
    have same : s.answer i a = s := by rw [answer, asked]
    refine iff_of_true ⟨by rw [step, same]; exact unmixed, ?_⟩ fun _ mem => (by
      rw [asked] at mem
      cases mem)
    cases a with
    | messages messages =>
      intro peer channel known asked'
      cases asked.symm.trans asked'
    | _ => trivial
  | some request =>
    have apart : s.Apart (.answer i a) ↔ s.Timely request a := by
      rw [Apart, asked]
      exact ⟨fun all => all request rfl, fun timely other mem => Option.some.inj mem ▸ timely⟩
    rw [apart]
    cases a with
    | messages messages => exact good_messages_iff unmixed asked messages
    | rows rows =>
      exact (and_iff_left trivial).trans (unmixed_answer_iff unmixed asked _ fun _ h => by cases h)
    | message message =>
      exact (and_iff_left trivial).trans (unmixed_answer_iff unmixed asked _ fun _ h => by cases h)
    | knock knock =>
      exact (and_iff_left trivial).trans (unmixed_answer_iff unmixed asked _ fun _ h => by cases h)
    | status knock =>
      exact (and_iff_left trivial).trans (unmixed_answer_iff unmixed asked _ fun _ h => by cases h)
    | failed text =>
      exact (and_iff_left trivial).trans (unmixed_answer_iff unmixed asked _ fun _ h => by cases h)

/-! ## Runs -/

theorem good_step_iff (unmixed : s.Unmixed) (e : VisitEvent) : s.Good e ↔ s.Apart e := by
  cases e with
  | openVisit peerId => exact iff_of_true ⟨unmixed_openVisit s peerId, trivial⟩ trivial
  | closeVisit => exact iff_of_true ⟨unmixed_closeVisit s, trivial⟩ trivial
  | selectChannel channelId =>
    exact (and_iff_left trivial).trans (unmixed_selectChannel_iff unmixed channelId)
  | refreshMessages => exact iff_of_true ⟨unmixed_refreshMessages.mpr unmixed, trivial⟩ trivial
  | sendMessage body => exact iff_of_true ⟨unmixed.sendMessage body, trivial⟩ trivial
  | knockOn channelId message => exact iff_of_true ⟨unmixed.knockOn channelId message, trivial⟩ trivial
  | withdrawKnock knockId => exact iff_of_true ⟨unmixed.withdrawKnock knockId, trivial⟩ trivial
  | refreshKnockStatus channelId =>
    exact iff_of_true ⟨unmixed.refreshKnockStatus channelId, trivial⟩ trivial
  | refreshChannels => exact iff_of_true ⟨unmixed.refreshChannels, trivial⟩ trivial
  | answer i a => exact good_answer_iff unmixed i a

/-- Visits stay apart and no accepted post is lost, in every step of a run, exactly when every channel
is selected from the rows and every answer comes to the visit it was asked for. -/
theorem visits_apart_iff (events : List VisitEvent) :
    Machine.Along step Good initial events ↔ Machine.Along step Apart initial events :=
  Machine.along_congr_under Unmixed (fun _ _ _ good => good.1) (fun _ e unmixed => good_step_iff unmixed e)
    unmixed_initial

/-! ## Late answers -/

def sampleRow (id : String) : PorchListChannelRow := ⟨⟨id, id, .porch, .allowlist, 0⟩, .visible, none⟩

def samplePost : ChannelMessage := ⟨"m", "c", "me", "x", 0⟩

/-- The rows of the first peer are shown in the visit to the second, and a refresh that was sent before
a post loses it. -/
theorem visits_mixed :
    (¬∀ events, (Machine.run step initial events).Unmixed) ∧
      ¬∀ events e, (Machine.run step initial events).KeepsAccepted e := by
  constructor
  · intro unmixed
    have late := (unmixed [.openVisit "a", .openVisit "b", .answer 0 (.rows [sampleRow "c"])]).rows
      ⟨sampleRow "c", "a", "a"⟩ (by decide)
    exact absurd late.1 (by decide)
  · intro keeps
    have lost := keeps [.openVisit "a", .answer 0 (.rows [sampleRow "c"]), .sendMessage "x",
      .answer 1 (.message samplePost)] (.answer 0 (.messages [])) "a" "c" 0 rfl
      ⟨samplePost, "a", "c"⟩ (by decide) (by decide)
    exact absurd lost (by decide)

end VisitorStore

end Concorrd
