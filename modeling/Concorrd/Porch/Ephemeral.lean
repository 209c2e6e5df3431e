import Mathlib.Logic.Function.Basic
import Concorrd.Lib.Dict
import Concorrd.Lib.Page
import Concorrd.Lib.Run
import Concorrd.User.Protocol

/-!
# The ephemeral porch

Messages in memory, a queue for each channel that drops its oldest message when it is full. The fresh ULID
and the current time are arguments.

Guests reach it by streams that are served at the same time. The first frame of a stream has to show
who dials and the token of this launch; the frames after it are requests. `served_behind_the_gate` says
that whatever the streams do, only admitted ones are answered, and each answer is the one that a single
log of all accepted messages gives.
-/

namespace Concorrd

open Machine

def maxMessagesPerChannel : Nat := 10000

def welcomeChannelId : String := "welcome"

inductive PorchAuthError where
  | dispatch (reason : String)
  deriving DecidableEq

structure EphemeralMessage where
  id : String
  channelId : String
  authorPeerId : String
  body : String
  createdAt : Int64
  deriving DecidableEq

/-- The ids of the channels and the queue of each, the oldest message first. -/
structure EphemeralPorch where
  channels : List String
  messagesByChannel : Dict String (List EphemeralMessage)

namespace EphemeralPorch

def maxEnvelopeBytes : Nat := 1024 * 1024

def fresh : EphemeralPorch := ⟨[welcomeChannelId], [(welcomeChannelId, [])]⟩

def getMessages (p : EphemeralPorch) (channelId : String) : List EphemeralMessage :=
  (p.messagesByChannel.get channelId).getD []

/-- `pop_front` where the queue is full, then `push_back`. -/
def pushBack (queue : List EphemeralMessage) (message : EphemeralMessage) : List EphemeralMessage :=
  (if maxMessagesPerChannel ≤ queue.length then queue.tail else queue) ++ [message]

def sendMessage (p : EphemeralPorch) (channelId authorPeerId body id : String) (now : Int64) :
    Except PorchAuthError (EphemeralPorch × EphemeralMessage) :=
  if body.isEmpty then .error (.dispatch "message body must not be empty")
  else if body.utf8ByteSize > maxEnvelopeBytes then
    .error (.dispatch ("message body too large: " ++ toString body.utf8ByteSize ++ " > " ++ toString maxEnvelopeBytes))
  else if channelId ∉ p.channels then .error (.dispatch ("channel not found: " ++ channelId))
  else
    let message : EphemeralMessage := ⟨id, channelId, authorPeerId, body, now⟩
    .ok ⟨{ p with messagesByChannel := p.messagesByChannel.set channelId (pushBack (p.getMessages channelId) message) },
      message⟩

variable {p p' : EphemeralPorch} {channelId authorPeerId body id : String} {now : Int64} {message : EphemeralMessage}

theorem sendMessage_eq_ok (sent : p.sendMessage channelId authorPeerId body id now = .ok (p', message)) :
    p'.getMessages channelId = pushBack (p.getMessages channelId) ⟨id, channelId, authorPeerId, body, now⟩ := by
  rw [sendMessage] at sent
  split at sent
  · cases sent
  split at sent
  · cases sent
  split at sent
  · cases sent
  · cases sent
    rw [getMessages, Dict.get_set_self]
    rfl

/-- The queue keeps the end of what was sent. -/
theorem pushBack_rtake (sent : List EphemeralMessage) (message : EphemeralMessage) :
    pushBack (sent.rtake maxMessagesPerChannel) message = (sent ++ [message]).rtake maxMessagesPerChannel :=
  Page.rtake_concat (by decide) sent message

theorem sendMessage_eq_ok_iff :
    p.sendMessage channelId authorPeerId body id now = .ok (p', message) ↔
      (body.isEmpty = false ∧ body.utf8ByteSize ≤ maxEnvelopeBytes ∧ channelId ∈ p.channels) ∧
        message = ⟨id, channelId, authorPeerId, body, now⟩ ∧
          p' = { p with messagesByChannel :=
            p.messagesByChannel.set channelId (pushBack (p.getMessages channelId) message) } := by
  rw [sendMessage]
  by_cases empty : body.isEmpty = true
  · simp [empty]
  by_cases large : body.utf8ByteSize > maxEnvelopeBytes
  · simp [empty, large, not_le.mpr large]
  by_cases known : channelId ∈ p.channels
  · rw [if_neg empty, if_neg large, if_neg (not_not_intro known)]
    constructor
    · intro h
      cases h
      exact ⟨⟨Bool.eq_false_of_not_eq_true empty, not_lt.mp large, known⟩, rfl, rfl⟩
    · rintro ⟨-, rfl, rfl⟩
      rfl
  · simp [empty, large, known]

theorem sendMessage_eq_error {e : PorchAuthError}
    (refused : p.sendMessage channelId authorPeerId body id now = .error e) :
    channelId ∉ p.channels ∨ body = "" ∨ maxEnvelopeBytes < body.utf8ByteSize := by
  by_contra fine
  rw [not_or, not_or, not_not, not_lt] at fine
  obtain ⟨known, some, fits⟩ := fine
  cases refused.symm.trans (sendMessage_eq_ok_iff.mpr ⟨⟨by simpa using some, fits, known⟩, rfl, rfl⟩)

end EphemeralPorch

/-! ## The handler -/

/-- Channels are all of one kind, and open to whoever passed the gate. -/
structure EphemeralChannel where
  id : String
  name : String
  kind : String := "porch"
  aclMode : String := "open"
  createdAt : Int64
  deriving DecidableEq

structure PorchCredentials where
  peerId : String
  sessionToken : String
  deriving DecidableEq

/-- What keeps a stream out. -/
inductive PorchGateError where
  | invalidCredentials (reason : String)
  | envelopeTooLarge (length : String)
  | malformedEnvelope (detail : String)
  deriving DecidableEq

def PorchGateError.toString : PorchGateError → String
  | .invalidCredentials reason => "invalid credentials: " ++ reason
  | .envelopeTooLarge length => "credentials frame too large: " ++ length ++ " bytes"
  | .malformedEnvelope detail => "malformed credentials envelope: " ++ detail

inductive EphemeralRequest where
  | listChannels
  | getMessages (channelId : String)
  | sendMessage (channelId body : String)
  deriving DecidableEq

inductive EphemeralReply where
  | channels (channels : List EphemeralChannel)
  | messages (messages : List EphemeralMessage)
  | message (message : EphemeralMessage)
  deriving DecidableEq

abbrev EphemeralResponse := Except PorchAuthError EphemeralReply

/-- What reading a frame ends with. -/
inductive FrameRead where
  | closed
  | io (detail : String)
  | tooLarge (length : Nat) (beyond : EphemeralPorch.maxEnvelopeBytes < length)
  | frame (bytes : List UInt8) (fits : bytes.length ≤ EphemeralPorch.maxEnvelopeBytes)

/-- The launch: its token, when it was, and how peer ids and frames are read. -/
structure EphemeralLaunch (PeerId : Type) where
  sessionToken : String
  openedAt : Int64
  parsePeerId : String → Except String PeerId
  toBase58 : PeerId → String
  readCredentials : List UInt8 → Except String PorchCredentials
  readRequest : List UInt8 → Except String EphemeralRequest

inductive EphemeralPhase where
  | gate
  | serving
  | closed (result : Except FederationError Unit)

/-- The porch, and how far each inbound stream has come. -/
structure EphemeralServer where
  porch : EphemeralPorch := .fresh
  phase : Nat → EphemeralPhase := fun _ => .gate

/-- A frame of a stream is read, with whether the dialer is paired and whether the answer can be written;
or the host posts. -/
inductive EphemeralEvent where
  | read (stream : Nat) (frame : FrameRead) (paired : Bool) (id : String) (now : Int64)
      (unwritten : Option String)
  | post (channelId authorPeerId body id : String) (now : Int64)

/-- What was done at an event. -/
inductive EphemeralRecord where
  | admitted (stream : Nat) (claimed : PorchCredentials) (paired : Bool)
  | refused (stream : Nat) (error : PorchGateError)
  | answered (stream : Nat) (request : EphemeralRequest) (response : EphemeralResponse)
  | posted (message : EphemeralMessage)

namespace EphemeralLaunch

variable {PeerId : Type} [DecidableEq PeerId] (launch : EphemeralLaunch PeerId)

/-- The dialer says who it is, shows the token, and is paired. -/
def verify (dialer : PeerId) (claimed : PorchCredentials) (paired : Bool) : Except PorchGateError Unit :=
  match launch.parsePeerId claimed.peerId with
  | .error e => .error (.invalidCredentials ("unparseable peer_id: " ++ e))
  | .ok claimedId =>
    if claimedId ≠ dialer then
      .error (.invalidCredentials "claimed peer_id does not match transport-attributed dialer")
    else if claimed.sessionToken ≠ launch.sessionToken then
      .error (.invalidCredentials "session token mismatch")
    else if !paired then
      .error (.invalidCredentials ("visiting peer " ++ launch.toBase58 dialer ++
        " is not in the local paired-peer list"))
    else .ok ()

def listChannels (porch : EphemeralPorch) : List EphemeralChannel :=
  porch.channels.map fun id => { id, name := id, createdAt := launch.openedAt }

/-- The author of a message is the dialer, whatever the request says. -/
def dispatch (porch : EphemeralPorch) (dialer : PeerId) (request : EphemeralRequest) (id : String)
    (now : Int64) : EphemeralPorch × EphemeralResponse :=
  match request with
  | .listChannels => (porch, .ok (.channels (launch.listChannels porch)))
  | .getMessages channelId => (porch, .ok (.messages (porch.getMessages channelId)))
  | .sendMessage channelId body =>
    match porch.sendMessage channelId (launch.toBase58 dialer) body id now with
    | .error e => (porch, .error e)
    | .ok (porch, message) => (porch, .ok (.message message))

end EphemeralLaunch

namespace EphemeralServer

variable {PeerId : Type} [DecidableEq PeerId] (launch : EphemeralLaunch PeerId) (dialer : Nat → PeerId)
  (s : EphemeralServer)

def moved (n : Nat) (phase : EphemeralPhase) : EphemeralServer :=
  { s with phase := Function.update s.phase n phase }

/-- After an answer the stream goes on, unless the answer could not be written. -/
def after (n : Nat) (unwritten : Option String) : EphemeralServer :=
  match unwritten with
  | none => s.moved n .serving
  | some e => s.moved n (.closed (.error (.io e)))

def tooLarge (length : Nat) : PorchGateError :=
  .envelopeTooLarge (toString length ++ " > " ++ toString EphemeralPorch.maxEnvelopeBytes)

/-- The first frame of a stream. -/
def greet (n : Nat) (frame : FrameRead) (paired : Bool) (unwritten : Option String) :
    EphemeralServer × List EphemeralRecord :=
  match frame with
  | .closed => (s.moved n (.closed (.ok ())), [])
  | .io e => (s.moved n (.closed (.error (.io e))), [])
  | .tooLarge length _ =>
    (s.moved n (.closed (.error (.malformedEnvelope (tooLarge length).toString))),
      [.refused n (tooLarge length)])
  | .frame bytes _ =>
    match launch.readCredentials bytes with
    | .error e => (s.moved n (.closed (.error (.serde e))), [.refused n (.malformedEnvelope e)])
    | .ok claimed =>
      match launch.verify (dialer n) claimed paired with
      | .error e => (s.moved n (.closed (.ok ())), [.refused n e])
      | .ok () => (s.after n unwritten, [.admitted n claimed paired])

/-- A frame after the first one. -/
def serve (n : Nat) (frame : FrameRead) (id : String) (now : Int64) (unwritten : Option String) :
    EphemeralServer × List EphemeralRecord :=
  match frame with
  | .closed => (s.moved n (.closed (.ok ())), [])
  | .io e => (s.moved n (.closed (.error (.io e))), [])
  | .tooLarge length _ =>
    (s.moved n (.closed (.error (.malformedEnvelope (tooLarge length).toString))), [])
  | .frame bytes _ =>
    match launch.readRequest bytes with
    | .error e => (s.moved n (.closed (.error (.serde e))), [])
    | .ok request =>
      let out := launch.dispatch s.porch (dialer n) request id now
      (({ s with porch := out.1 } : EphemeralServer).after n unwritten, [.answered n request out.2])

def turn : EphemeralEvent → EphemeralServer × List EphemeralRecord
  | .read n frame paired id now unwritten =>
    match s.phase n with
    | .gate => s.greet launch dialer n frame paired unwritten
    | .serving => s.serve launch dialer n frame id now unwritten
    | .closed _ => (s, [])
  | .post channelId authorPeerId body id now =>
    match s.porch.sendMessage channelId authorPeerId body id now with
    | .error _ => (s, [])
    | .ok (porch, message) => ({ s with porch }, [.posted message])

def step (e : EphemeralEvent) : EphemeralServer := (s.turn launch dialer e).1

def records (es : List EphemeralEvent) : List EphemeralRecord :=
  gather (step launch dialer) (fun s e => (turn launch dialer s e).2) s es

end EphemeralServer

/-! ## What is asked of the answers -/

namespace EphemeralRecord

def stream : EphemeralRecord → Option Nat
  | .admitted n _ _ | .refused n _ | .answered n _ _ => some n
  | .posted _ => none

/-- The message that was accepted. -/
def message? : EphemeralRecord → Option EphemeralMessage
  | .answered _ _ (.ok (.message message)) | .posted message => some message
  | _ => none

/-- The messages that a channel has been sent. -/
def sent (channelId : String) (log : List EphemeralRecord) : List EphemeralMessage :=
  (log.filterMap message?).filter fun message => message.channelId = channelId

section

variable {PeerId : Type} (launch : EphemeralLaunch PeerId) (dialer : Nat → PeerId)

/-- The answer to a request after the log: who reads sees the end of what was sent, and a message is the
dialer's. -/
def Answers (before : List EphemeralRecord) (n : Nat) : EphemeralRequest → EphemeralResponse → Prop
  | .listChannels, response => response = .ok (.channels
      [{ id := welcomeChannelId, name := welcomeChannelId, createdAt := launch.openedAt }])
  | .getMessages channelId, response => response =
      .ok (.messages ((sent channelId before).rtake maxMessagesPerChannel))
  | .sendMessage channelId body, .ok (.message message) =>
    (channelId = welcomeChannelId ∧ body ≠ "" ∧ body.utf8ByteSize ≤ EphemeralPorch.maxEnvelopeBytes) ∧
      message.channelId = channelId ∧ message.authorPeerId = launch.toBase58 (dialer n) ∧
        message.body = body
  | .sendMessage channelId body, .error _ =>
    channelId ≠ welcomeChannelId ∨ body = "" ∨ EphemeralPorch.maxEnvelopeBytes < body.utf8ByteSize
  | .sendMessage _ _, .ok _ => False

/-- A stream is admitted or refused at its first frame, admitted with the credentials of its dialer only,
and answered only when it has been admitted. -/
def Right (before : List EphemeralRecord) : EphemeralRecord → Prop
  | .admitted n claimed paired => (∀ r ∈ before, r.stream ≠ some n) ∧
      launch.parsePeerId claimed.peerId = .ok (dialer n) ∧
        claimed.sessionToken = launch.sessionToken ∧ paired = true
  | .refused n _ => ∀ r ∈ before, r.stream ≠ some n
  | .answered n request response => (∃ claimed, .admitted n claimed true ∈ before) ∧
      Answers launch dialer before n request response
  | .posted message => message.channelId = welcomeChannelId

end

theorem sent_append (channelId : String) (log more : List EphemeralRecord) :
    sent channelId (log ++ more) = sent channelId log ++ sent channelId more := by
  rw [sent, List.filterMap_append, List.filter_append]
  rfl

end EphemeralRecord

namespace EphemeralServer

open EphemeralRecord

/-- The porch holds the end of what the log says was sent, streams that are served were admitted, and
nothing was done for those at the gate. -/
structure Linked (s : EphemeralServer) (log : List EphemeralRecord) : Prop where
  channels : s.porch.channels = [welcomeChannelId]
  messages : ∀ channelId,
    s.porch.getMessages channelId = (sent channelId log).rtake maxMessagesPerChannel
  serving : ∀ n, s.phase n = .serving → ∃ claimed, .admitted n claimed true ∈ log
  gate : ∀ n, s.phase n = .gate → ∀ r ∈ log, r.stream ≠ some n

section

variable {PeerId : Type} [DecidableEq PeerId] {launch : EphemeralLaunch PeerId} {dialer : Nat → PeerId}
  {s : EphemeralServer} {log : List EphemeralRecord} {n : Nat} {phase : EphemeralPhase}

theorem verify_eq_ok {peer : PeerId} {claimed : PorchCredentials} {paired : Bool}
    (h : launch.verify peer claimed paired = .ok ()) :
    launch.parsePeerId claimed.peerId = .ok peer ∧ claimed.sessionToken = launch.sessionToken ∧
      paired = true := by
  rw [EphemeralLaunch.verify] at h
  cases read : launch.parsePeerId claimed.peerId with
  | error e =>
    rw [read] at h
    cases h
  | ok claimedId =>
    rw [read] at h
    dsimp only at h
    split at h
    · cases h
    split at h
    · cases h
    split at h
    · cases h
    rename_i same token pair
    exact ⟨congrArg _ (not_not.mp same), not_not.mp token, by simpa using pair⟩

/-- What the event of one stream makes of the others. -/
theorem linked_moved (h : s.Linked log) {porch : EphemeralPorch} {rs : List EphemeralRecord}
    (moves : phase ≠ .gate) (own : ∀ r ∈ rs, r.stream = some n)
    (serving : phase = .serving → ∃ claimed, .admitted n claimed true ∈ log ++ rs)
    (channels : porch.channels = s.porch.channels)
    (messages : ∀ channelId,
      porch.getMessages channelId = (sent channelId (log ++ rs)).rtake maxMessagesPerChannel) :
    (({ s with porch } : EphemeralServer).moved n phase).Linked (log ++ rs) where
  channels := channels.trans h.channels
  messages := messages
  serving m here := by
    by_cases same : m = n
    · subst same
      exact serving ((Function.update_self ..).symm.trans here)
    · obtain ⟨claimed, mem⟩ := h.serving m ((Function.update_of_ne same ..).symm.trans here)
      exact ⟨claimed, List.mem_append_left _ mem⟩
  gate m here := by
    by_cases same : m = n
    · subst same
      exact absurd ((Function.update_self ..).symm.trans here) moves
    · intro r mem
      rcases List.mem_append.mp mem with mem | mem
      · exact h.gate m ((Function.update_of_ne same ..).symm.trans here) r mem
      · rw [own r mem]
        exact fun also => same (Option.some.inj also).symm

theorem sent_concat_of_none {r : EphemeralRecord} (silent : r.message? = none) (channelId : String) :
    sent channelId (log ++ [r]) = sent channelId log := by
  rw [sent_append]
  simp [sent, silent]

/-- Messages are kept as they are sent, as far as there is room. -/
theorem messages_of_sent (h : s.Linked log) {channelId author body id : String} {now : Int64}
    {porch : EphemeralPorch} {message : EphemeralMessage} {r : EphemeralRecord}
    (sends : s.porch.sendMessage channelId author body id now = .ok (porch, message))
    (carries : r.message? = some message) (other : String) :
    porch.getMessages other = (sent other (log ++ [r])).rtake maxMessagesPerChannel := by
  obtain ⟨-, rfl, rfl⟩ := EphemeralPorch.sendMessage_eq_ok_iff.mp sends
  rw [sent_append]
  by_cases same : channelId = other
  · subst same
    rw [EphemeralPorch.getMessages, Dict.get_set_self, Option.getD_some, h.messages,
      EphemeralPorch.pushBack_rtake]
    simp [sent, carries]
  · rw [EphemeralPorch.getMessages, Dict.get_set_of_ne fun here => same here.symm]
    refine (h.messages other).trans ?_
    simp [sent, carries, same]

theorem linked_closed (h : s.Linked log) {result : Except FederationError Unit} :
    (s.moved n (.closed result)).Linked (log ++ []) := by
  have messages := h.messages
  rw [← List.append_nil log] at messages
  exact linked_moved h (by simp) (by simp) (by simp) rfl messages

/-- An answer that nothing was sent with. -/
theorem linked_silent (h : s.Linked log) {r : EphemeralRecord} (moves : phase ≠ .gate)
    (own : r.stream = some n) (silent : r.message? = none)
    (serving : phase = .serving → ∃ claimed, .admitted n claimed true ∈ log ++ [r]) :
    (s.moved n phase).Linked (log ++ [r]) := by
  refine linked_moved h moves (by simpa using own) serving rfl fun channelId => ?_
  rw [sent_concat_of_none silent, h.messages]

theorem after_eq (n : Nat) (unwritten : Option String) :
    ∃ phase, phase ≠ .gate ∧ ∀ s : EphemeralServer, s.after n unwritten = s.moved n phase := by
  cases unwritten with
  | none => exact ⟨.serving, by simp, fun s => rfl⟩
  | some e => exact ⟨.closed (.error (.io e)), by simp, fun s => rfl⟩

theorem linked_greet (h : s.Linked log) (here : s.phase n = .gate) (frame : FrameRead) (paired : Bool)
    (unwritten : Option String) :
    (s.greet launch dialer n frame paired unwritten).1.Linked
        (log ++ (s.greet launch dialer n frame paired unwritten).2) ∧
      ∀ r ∈ (s.greet launch dialer n frame paired unwritten).2, r.Right launch dialer log := by
  have first := h.gate n here
  have refuse : ∀ (error : PorchGateError) (result : Except FederationError Unit),
      (s.moved n (.closed result)).Linked (log ++ [.refused n error]) ∧
        ∀ r ∈ [EphemeralRecord.refused n error], r.Right launch dialer log := by
    intro error result
    refine ⟨linked_silent h (by simp) rfl rfl (by simp), fun r mem => ?_⟩
    rw [List.mem_singleton.mp mem]
    exact first
  cases frame with
  | closed => exact ⟨linked_closed h, by simp [greet]⟩
  | io e => exact ⟨linked_closed h, by simp [greet]⟩
  | tooLarge length beyond => exact refuse _ _
  | frame bytes fits =>
    rw [greet]
    cases launch.readCredentials bytes with
    | error e => exact refuse _ _
    | ok claimed =>
      dsimp only
      cases shown : launch.verify (dialer n) claimed paired with
      | error e => exact refuse _ _
      | ok admitted =>
        obtain ⟨phase, moves, after⟩ := after_eq n unwritten
        obtain ⟨own, token, pair⟩ := verify_eq_ok shown
        dsimp only
        rw [after, pair]
        refine ⟨linked_silent h moves rfl rfl fun _ => ?_, fun r mem => ?_⟩
        · exact ⟨claimed, List.mem_append_right _ List.mem_cons_self⟩
        · rw [List.mem_singleton.mp mem]
          exact ⟨first, own, token, rfl⟩

omit [DecidableEq PeerId] in
theorem linked_serve (h : s.Linked log) (here : s.phase n = .serving) (frame : FrameRead) (id : String)
    (now : Int64) (unwritten : Option String) :
    (s.serve launch dialer n frame id now unwritten).1.Linked
        (log ++ (s.serve launch dialer n frame id now unwritten).2) ∧
      ∀ r ∈ (s.serve launch dialer n frame id now unwritten).2, r.Right launch dialer log := by
  obtain ⟨claimed, admitted⟩ := h.serving n here
  cases frame with
  | closed => exact ⟨linked_closed h, by simp [serve]⟩
  | io e => exact ⟨linked_closed h, by simp [serve]⟩
  | tooLarge length beyond => exact ⟨linked_closed h, by simp [serve]⟩
  | frame bytes fits =>
    rw [serve]
    cases launch.readRequest bytes with
    | error e => exact ⟨linked_closed h, by simp⟩
    | ok request =>
      obtain ⟨phase, moves, after⟩ := after_eq n unwritten
      dsimp only
      rw [after]
      have answered : ∀ (porch : EphemeralPorch) (response : EphemeralResponse),
          porch.channels = s.porch.channels →
          (∀ channelId, porch.getMessages channelId = (sent channelId
            (log ++ [.answered n request response])).rtake maxMessagesPerChannel) →
          Answers launch dialer log n request response →
          (({ s with porch } : EphemeralServer).moved n phase).Linked
              (log ++ [.answered n request response]) ∧
            ∀ r ∈ [EphemeralRecord.answered n request response], r.Right launch dialer log := by
        intro porch response channels messages answers
        refine ⟨linked_moved h moves (by simp [stream]) (fun _ => ?_) channels messages, fun r mem => ?_⟩
        · exact ⟨claimed, List.mem_append_left _ admitted⟩
        · rw [List.mem_singleton.mp mem]
          exact ⟨⟨claimed, admitted⟩, answers⟩
      have silent : ∀ response : EphemeralResponse, EphemeralRecord.message? (.answered n request response) = none →
          ∀ channelId, s.porch.getMessages channelId = (sent channelId
            (log ++ [.answered n request response])).rtake maxMessagesPerChannel := by
        intro response none channelId
        rw [sent_concat_of_none none, h.messages]
      cases request with
      | listChannels =>
        refine answered _ _ rfl (silent _ rfl) ?_
        show Except.ok (EphemeralReply.channels (launch.listChannels s.porch)) = _
        rw [EphemeralLaunch.listChannels, h.channels]
        rfl
      | getMessages channelId =>
        refine answered _ _ rfl (silent _ rfl) ?_
        exact congrArg (fun shown => Except.ok (EphemeralReply.messages shown)) (h.messages channelId)
      | sendMessage channelId body =>
        rw [EphemeralLaunch.dispatch]
        cases sends : s.porch.sendMessage channelId (launch.toBase58 (dialer n)) body id now with
        | error e =>
          refine answered _ _ rfl (silent _ rfl) ?_
          have refused := EphemeralPorch.sendMessage_eq_error sends
          rw [h.channels, List.mem_singleton] at refused
          exact refused
        | ok out =>
          obtain ⟨porch, message⟩ := out
          obtain ⟨⟨some, fits, known⟩, rfl, same⟩ := EphemeralPorch.sendMessage_eq_ok_iff.mp sends
          refine answered _ _ (by rw [same]) (messages_of_sent h sends rfl) ?_
          rw [h.channels, List.mem_singleton] at known
          exact ⟨⟨known, by simpa using some, fits⟩, rfl, rfl, rfl⟩

theorem linked_turn (h : s.Linked log) (e : EphemeralEvent) :
    (s.turn launch dialer e).1.Linked (log ++ (s.turn launch dialer e).2) ∧
      ∀ r ∈ (s.turn launch dialer e).2, r.Right launch dialer log := by
  have unchanged : s.Linked (log ++ []) ∧ ∀ r ∈ ([] : List EphemeralRecord), r.Right launch dialer log :=
    ⟨(List.append_nil log).symm ▸ h, by simp⟩
  cases e with
  | read n frame paired id now unwritten =>
    rw [turn]
    cases here : s.phase n with
    | gate => exact linked_greet h here frame paired unwritten
    | serving => exact linked_serve h here frame id now unwritten
    | closed result => exact unchanged
  | post channelId author body id now =>
    rw [turn]
    cases sends : s.porch.sendMessage channelId author body id now with
    | error e => exact unchanged
    | ok out =>
      obtain ⟨porch, message⟩ := out
      obtain ⟨⟨-, -, known⟩, rfl, same⟩ := EphemeralPorch.sendMessage_eq_ok_iff.mp sends
      rw [h.channels, List.mem_singleton] at known
      refine ⟨⟨?_, messages_of_sent h sends rfl, fun n serving => ?_, fun n gate r mem => ?_⟩, ?_⟩
      · dsimp only
        rw [same, h.channels]
      · obtain ⟨claimed, mem⟩ := h.serving n serving
        exact ⟨claimed, List.mem_append_left _ mem⟩
      · rcases List.mem_append.mp mem with mem | mem
        · exact h.gate n gate r mem
        · rw [List.mem_singleton.mp mem]
          simp [stream]
      · intro r mem
        rw [List.mem_singleton.mp mem]
        exact known

theorem linked_run (launch : EphemeralLaunch PeerId) (dialer : Nat → PeerId) (es : List EphemeralEvent) :
    (run (step launch dialer) {} es).Linked (records launch dialer {} es) := by
  refine gather_invariant Linked (fun _ _ e linked => (linked_turn linked e).1) ?_ es
  refine ⟨rfl, fun channelId => ?_, fun n serving => ?_, fun n _ r mem => ?_⟩
  · show ((EphemeralPorch.fresh.messagesByChannel).get channelId).getD [] = [].rtake _
    rw [EphemeralPorch.fresh, Dict.get_cons, List.rtake_nil]
    split <;> rfl
  · cases serving
  · cases mem

theorem length_turn_le (s : EphemeralServer) (e : EphemeralEvent) :
    (s.turn launch dialer e).2.length ≤ 1 := by
  unfold turn greet serve
  repeat' split
  all_goals simp

end

/-- **Behind the gate.** Whatever the streams and the host do, everything that is answered is right after
what was done before: streams are admitted with the credentials of their dialer only, and answered as one
log of all messages says; and the porch holds the end of that log. -/
theorem served_behind_the_gate {PeerId : Type} [DecidableEq PeerId] (launch : EphemeralLaunch PeerId)
    (dialer : Nat → PeerId) (es : List EphemeralEvent) :
    (∀ before r after, records launch dialer {} es = before ++ r :: after →
      r.Right launch dialer before) ∧
      ∀ channelId, (run (step launch dialer) {} es).porch.getMessages channelId =
        (sent channelId (records launch dialer {} es)).rtake maxMessagesPerChannel := by
  refine ⟨fun before r after whole => ?_, (linked_run launch dialer es).messages⟩
  obtain ⟨first, e, later, -, gives, last⟩ := gather_split length_turn_le whole
  have linked : (run (step launch dialer) {} first).Linked before := gives ▸ linked_run launch dialer first
  exact (linked_turn linked e).2 r (last ▸ List.mem_cons_self)

end EphemeralServer

end Concorrd
