import Concorrd.Extension.Cloned

/-!
# The verbs of an extension

The two message handlers of `ExtensionEmbed.tsx` with the gates they go through: the permissions of
`InputRouter.ts`, the message's shape and the manifest's permissions of `sdk.ts`. Both handlers hear
every message that is posted to the window, whoever posts it.
-/

namespace Concorrd

/-! ## Permissions -/

inductive SessionMode where
  | shared
  | sharedReadonly
  | sharedAdminInput
  | perUser
  | hybrid
  deriving DecidableEq

inductive Seat where
  | host
  | participant
  | observer
  | spectator
  deriving DecidableEq

def Seat.name : Seat → String
  | .host => "host"
  | .participant => "participant"
  | .observer => "observer"
  | .spectator => "spectator"

/-- The entries of a mode: who may do what. -/
structure InputPermissions where
  send_state_events : List Seat
  send_to_device : List Seat
  react : List Seat
  pointer_events : List Seat
  admin_commands : List Seat

def defaultPermissions : SessionMode → InputPermissions
  | .shared | .hybrid =>
    { send_state_events := [.host, .participant], send_to_device := [.host, .participant]
      react := [.host, .participant, .observer], pointer_events := [.host, .participant]
      admin_commands := [.host] }
  | .sharedReadonly | .sharedAdminInput =>
    { send_state_events := [.host], send_to_device := [.host]
      react := [.host, .participant, .observer], pointer_events := [.host], admin_commands := [.host] }
  | .perUser =>
    { send_state_events := [.host, .participant], send_to_device := [.host, .participant]
      react := [.host, .participant], pointer_events := [.host, .participant]
      admin_commands := [.host] }

/-- The permissions as an object of the script. -/
def InputPermissions.toMembers (p : InputPermissions) : List (String × Cloned) :=
  let seats (l : List Seat) : Cloned := .arr (l.map fun seat => .str seat.name) []
  [("send_state_events", seats p.send_state_events), ("send_to_device", seats p.send_to_device),
    ("react", seats p.react), ("pointer_events", seats p.pointer_events),
    ("admin_commands", seats p.admin_commands)]

/-- The permissions of the mode, with the members of the overrides in front. -/
def effectivePermissions (mode : SessionMode) (overrides : Cloned) : List (String × Cloned) :=
  (if overrides.isTruthy then overrides.spread else []) ++ (defaultPermissions mode).toMembers

/-- The entry of an action. -/
def permissionEntry (mode : SessionMode) (action overrides : Cloned) : Option Cloned :=
  action.text.bind fun key =>
    ((effectivePermissions mode overrides).find? fun m => m.1 = key).map Prod.snd

/-- Whether the seat may do the action, or none when the check throws: the action does not convert to a
key, or its entry has no `includes`. -/
def check (mode : SessionMode) (seat : Seat) (action overrides : Cloned) : Option Bool :=
  (permissionEntry mode action overrides).bind fun entry => entry.includes seat.name

/-- The manifest has one of the permissions. -/
def manifestAllows (manifestPermissions : Option (List String)) (anyOf : List String) : Bool :=
  match manifestPermissions with
  | none => false
  | some permissions => anyOf.any permissions.contains

/-! ## Messages and the surface -/

/-- What the host is asked to send. -/
structure SendStateEvent where
  roomId : Cloned
  eventType : String
  stateKey : Cloned
  content : Cloned

/-- What becomes of a send: done, refused later, or thrown at once. -/
inductive BackendResult where
  | done
  | rejected (error : String)
  | threw (error : String)

/-- The surface manager as a message finds it: the windows of the frames it mounted, and its props. -/
structure ExtensionSurface where
  frames : List Nat
  mode : SessionMode
  participantSeat : Seat
  manifestPermissions : Option (List String)
  roomId : Option String
  onSendStateEvent : Option (SendStateEvent → BackendResult)

/-- A message event: the window it comes from, if any, and its data. -/
structure WindowMessage where
  source : Option Nat
  data : Cloned

inductive ShellEffect where
  /-- `extension_action_ack`, posted to the window. -/
  | acknowledged (window : Nat) (action : Cloned)
  /-- `concord:permission_denied`, posted to the window. -/
  | denied (window : Nat) (reason : String) (detail : Option String)
  /-- The call of `onSendStateEvent`. -/
  | sent (call : SendStateEvent)

def CONCORD_SDK_VERSION : Int := 1

def isNum (n : Int) : Cloned → Bool
  | .num m => m = n
  | _ => false

/-- A message of an extension: a verb with the version and an object as payload. -/
def isExtensionInboundMessage (data : Cloned) : Bool :=
  data.isObject &&
    (match data.get "type" with
      | .str type => "extension:".toList.isPrefixOf type.toList
      | _ => false) &&
    isNum CONCORD_SDK_VERSION (data.get "version") && (data.get "payload").isObject

namespace ExtensionSurface

/-! ## The handlers -/

def isAction (m : WindowMessage) : Bool := m.data.isObject && (m.data.get "type").isStr "extension_action"

/-- The handler of `extension_action`. It has no result where the check throws. -/
def handleAction (s : ExtensionSurface) (m : WindowMessage) : Option (List ShellEffect) :=
  if isAction m then
    let action := m.data.get "action"
    (check s.mode s.participantSeat action ((m.data.get "permissions").orElse .undefined)).map
      fun allowed =>
        if allowed then m.source.toList.map fun window => .acknowledged window action else []
  else some []

def isVerb (m : WindowMessage) : Bool :=
  isExtensionInboundMessage m.data && (m.data.get "type").isStr "extension:send_state_event"

/-- The text of a room that is there and not empty. -/
def ofRoom (roomId : Option String) : Cloned := roomId.elim .undefined .str

/-- The gates of a verb, in their order: the first that refuses, with its reason, or the call. -/
def verdict (s : ExtensionSurface) (payload : Cloned) :
    Except (String × Option String) SendStateEvent :=
  match payload.get "eventType" with
  | .str eventType =>
    if !(payload.get "content").isObject then .error ("invalid_payload", none)
    else
      let targetRoom := (payload.get "roomId").orElse (ofRoom s.roomId)
      if !targetRoom.isTruthy then .error ("invalid_payload", some "no_room")
      else if (payload.get "roomId").isTruthy && (ofRoom s.roomId).isTruthy &&
          !(payload.get "roomId").isStr (s.roomId.getD "") then
        .error ("session_role_forbidden", some "cross_room")
      else if check s.mode s.participantSeat (.str "send_state_events") .undefined ≠ some true then
        .error ("session_role_forbidden", none)
      else if s.manifestPermissions.isNone then .error ("manifest_unknown", none)
      else if !manifestAllows s.manifestPermissions ["state_events", "matrix.send"] then
        .error ("manifest_missing_permission", some "state_events|matrix.send")
      else
        .ok ⟨targetRoom, eventType, (payload.get "stateKey").orElse (.str ""), payload.get "content"⟩
  | _ => .error ("invalid_payload", none)

def reply (m : WindowMessage) (reason : String) (detail : Option String) : List ShellEffect :=
  m.source.toList.map fun window => .denied window reason detail

/-- The call of the host, and what it replies when the host fails. -/
def forward (s : ExtensionSurface) (m : WindowMessage) (call : SendStateEvent) : List ShellEffect :=
  match s.onSendStateEvent with
  | none => []
  | some send =>
    .sent call ::
      match send call with
      | .done => []
      | .rejected error => reply m "backend_error" (some error)
      | .threw error => reply m "backend_error" (some error)

/-- The handler of `extension:send_state_event`. -/
def handleVerb (s : ExtensionSurface) (m : WindowMessage) : List ShellEffect :=
  if isVerb m then
    match s.verdict (m.data.get "payload") with
    | .error (reason, detail) => reply m reason detail
    | .ok call => s.forward m call
  else []

/-! ## What is to hold of a message -/

/-- The window of the message is a frame that the surface mounted. -/
def FromFrame (s : ExtensionSurface) (m : WindowMessage) : Prop := ∃ window ∈ m.source, window ∈ s.frames

/-- The session has a room. -/
def HasRoom (s : ExtensionSurface) : Prop := ∃ room, s.roomId = some room ∧ room ≠ ""

/-- A call goes out for a frame of the surface, to the session's room, when the seat and the manifest
allow it. -/
structure Rightful (s : ExtensionSurface) (m : WindowMessage) (call : SendStateEvent) : Prop where
  source : s.FromFrame m
  room : ∃ room, s.roomId = some room ∧ room ≠ "" ∧ call.roomId = .str room
  seat : s.participantSeat ∈ (defaultPermissions s.mode).send_state_events
  manifest : ∃ permissions ∈ s.manifestPermissions,
    "state_events" ∈ permissions ∨ "matrix.send" ∈ permissions

structure Gated (s : ExtensionSurface) (m : WindowMessage) : Prop where
  sent : ∀ call, .sent call ∈ s.handleVerb m → s.Rightful m call
  acknowledged : ∀ effects ∈ s.handleAction m, ∀ window action, .acknowledged window action ∈ effects →
    check s.mode s.participantSeat action .undefined = some true
  refused : isVerb m → (∀ call, s.verdict (m.data.get "payload") ≠ .ok call) →
    ∀ window ∈ m.source, ∃ reason detail, s.handleVerb m = [.denied window reason detail]
  total : s.handleAction m ≠ none

/-! ## The condition -/

/-- What a payload and the session have to be for the verb to pass the gates. -/
structure Passes (s : ExtensionSurface) (payload : Cloned) : Prop where
  eventType : ∃ eventType, payload.get "eventType" = .str eventType
  content : (payload.get "content").isObject
  target : ((payload.get "roomId").orElse (ofRoom s.roomId)).isTruthy
  sameRoom : (payload.get "roomId").isTruthy → (ofRoom s.roomId).isTruthy →
    (payload.get "roomId").isStr (s.roomId.getD "")
  seat : s.participantSeat ∈ (defaultPermissions s.mode).send_state_events
  manifest : ∃ permissions ∈ s.manifestPermissions,
    "state_events" ∈ permissions ∨ "matrix.send" ∈ permissions

/-- A verb that passes the gates comes from a frame of the surface, in a session that has a room. An
action names an entry that has members, in the permissions with those of the message in front; and if
the entry lists the seat, the session's own entry does. -/
structure Clean (s : ExtensionSurface) (m : WindowMessage) : Prop where
  verb : isVerb m → s.Passes (m.data.get "payload") → s.onSendStateEvent.isSome →
    s.FromFrame m ∧ s.HasRoom
  action : isAction m → ∃ entry ∈ permissionEntry s.mode (m.data.get "action")
      ((m.data.get "permissions").orElse .undefined),
    ∃ listed ∈ entry.includes s.participantSeat.name, listed = true → m.source ≠ none →
      check s.mode s.participantSeat (m.data.get "action") .undefined = some true

/-! ## The gates -/

theorem check_send_state_events (mode : SessionMode) (seat : Seat) :
    check mode seat (.str "send_state_events") .undefined =
      some (decide (seat ∈ (defaultPermissions mode).send_state_events)) := by
  cases mode <;> cases seat <;> decide

theorem manifestAllows_iff {permissions : Option (List String)} {a b : String} :
    manifestAllows permissions [a, b] = true ↔ ∃ l ∈ permissions, a ∈ l ∨ b ∈ l := by
  cases permissions with
  | none => simp [manifestAllows]
  | some l => simp [manifestAllows]

variable {s : ExtensionSurface} {m : WindowMessage}

theorem verdict_eq_ok {payload : Cloned} {call : SendStateEvent}
    (ok : s.verdict payload = .ok call) :
    s.Passes payload ∧ call.roomId = (payload.get "roomId").orElse (ofRoom s.roomId) := by
  rw [verdict] at ok
  split at ok
  · rename_i eventType type
    split at ok
    · cases ok
    · rename_i content
      dsimp only at ok
      split at ok
      · cases ok
      · rename_i target
        split at ok
        · cases ok
        · rename_i sameRoom
          split at ok
          · cases ok
          · rename_i seat
            split at ok
            · cases ok
            · split at ok
              · cases ok
              · rename_i manifest
                cases ok
                exact ⟨⟨⟨eventType, type⟩, by simpa using content, by simpa using target,
                  by simpa using sameRoom,
                  by simpa [check_send_state_events] using seat,
                  manifestAllows_iff.mp (by simpa using manifest)⟩, rfl⟩
  · cases ok

theorem exists_verdict_of_passes {payload : Cloned} (passes : s.Passes payload) :
    ∃ call, s.verdict payload = .ok call := by
  obtain ⟨eventType, type⟩ := passes.eventType
  obtain ⟨permissions, known, -⟩ := passes.manifest
  have allows := manifestAllows_iff.mpr passes.manifest
  have cross : ((payload.get "roomId").isTruthy && (ofRoom s.roomId).isTruthy &&
      !(payload.get "roomId").isStr (s.roomId.getD "")) = false := by
    simpa using passes.sameRoom
  have seat : check s.mode s.participantSeat (.str "send_state_events") .undefined = some true := by
    rw [check_send_state_events, decide_eq_true passes.seat]
  have manifest : s.manifestPermissions.isNone = false := by
    rw [Option.mem_def.mp known]
    rfl
  refine ⟨⟨(payload.get "roomId").orElse (ofRoom s.roomId), eventType,
    (payload.get "stateKey").orElse (.str ""), payload.get "content"⟩, ?_⟩
  simp only [verdict, type, passes.content, passes.target, cross, seat, manifest, allows, ne_eq,
    not_true_eq_false, Bool.not_true, Bool.false_eq_true, if_false]

theorem sent_mem_forward {call call' : SendStateEvent} :
    .sent call' ∈ s.forward m call ↔ s.onSendStateEvent.isSome ∧ call' = call := by
  have silent : ∀ reason detail, ShellEffect.sent call' ∉ reply m reason detail := by
    intro reason detail mem
    obtain ⟨window, -, same⟩ := List.mem_map.mp mem
    cases same
  rw [forward]
  cases s.onSendStateEvent with
  | none => simp
  | some send =>
    dsimp only
    rw [List.mem_cons, Option.isSome_some, ShellEffect.sent.injEq, and_iff_right rfl, or_iff_left]
    cases send call with
    | done => exact List.not_mem_nil
    | rejected error => exact silent _ _
    | threw error => exact silent _ _

/-- The host is called for a verb that passes the gates, and for nothing else. -/
theorem sent_mem_handleVerb {call : SendStateEvent} : .sent call ∈ s.handleVerb m ↔
    isVerb m ∧ s.onSendStateEvent.isSome ∧ s.verdict (m.data.get "payload") = .ok call := by
  rw [handleVerb]
  split
  · rename_i verb
    rw [and_iff_right verb]
    cases decided : s.verdict (m.data.get "payload") with
    | error refusal =>
      obtain ⟨reason, detail⟩ := refusal
      constructor
      · intro mem
        obtain ⟨window, -, same⟩ := List.mem_map.mp mem
        cases same
      · rintro ⟨-, same⟩
        cases same
    | ok call' =>
      dsimp only
      rw [sent_mem_forward, Except.ok.injEq]
      exact and_congr_right fun _ => eq_comm
  · rename_i other
    exact ⟨fun mem => (by cases mem), fun h => absurd h.1 other⟩

theorem refused_once (verb : isVerb m) (refused : ∀ call, s.verdict (m.data.get "payload") ≠ .ok call) :
    ∀ window ∈ m.source, ∃ reason detail, s.handleVerb m = [.denied window reason detail] := by
  intro window from_
  rw [handleVerb, if_pos verb]
  cases decided : s.verdict (m.data.get "payload") with
  | error refusal =>
    obtain ⟨reason, detail⟩ := refusal
    refine ⟨reason, detail, ?_⟩
    dsimp only
    rw [reply, Option.mem_def.mp from_]
    rfl
  | ok call => exact absurd decided (refused call)

/-- The room of a call is the session's, where the session has one. -/
theorem rightful_of_sent {call : SendStateEvent} (source : s.FromFrame m) (hasRoom : s.HasRoom)
    (ok : s.verdict (m.data.get "payload") = .ok call) : s.Rightful m call := by
  obtain ⟨passes, target⟩ := verdict_eq_ok ok
  obtain ⟨room, here, nonempty⟩ := hasRoom
  refine ⟨source, ⟨room, here, nonempty, target.trans ?_⟩, passes.seat, passes.manifest⟩
  have set : (ofRoom s.roomId).isTruthy := by
    rw [here]
    exact decide_eq_true nonempty
  rcases Cloned.orElse_cases ((m.data.get "payload").get "roomId") (ofRoom s.roomId) with
    given | ⟨own, -⟩
  · rw [given]
    have named := passes.sameRoom (given ▸ passes.target) set
    rw [here] at named
    exact Cloned.eq_str_of_isStr named
  · rw [own, here]
    rfl

/-! ## Actions -/

theorem handleAction_of_action (act : isAction m) : s.handleAction m =
    (check s.mode s.participantSeat (m.data.get "action")
      ((m.data.get "permissions").orElse .undefined)).map fun allowed =>
        if allowed then m.source.toList.map fun window => .acknowledged window (m.data.get "action")
        else [] := if_pos act

/-- The check does not throw when the entry has an `includes`, and says what that finds. -/
theorem check_eq_some_iff {mode : SessionMode} {seat : Seat} {action overrides : Cloned} {b : Bool} :
    check mode seat action overrides = some b ↔
      ∃ entry ∈ permissionEntry mode action overrides, entry.includes seat.name = some b :=
  Option.bind_eq_some_iff

/-- An action is handled, and acknowledged only by the session's own word, exactly when its entry has
members, and lists the seat no sooner than the session's. -/
theorem action_gated_iff (act : isAction m) :
    (s.handleAction m ≠ none ∧ ∀ effects ∈ s.handleAction m, ∀ window action,
      .acknowledged window action ∈ effects →
        check s.mode s.participantSeat action .undefined = some true) ↔
    ∃ entry ∈ permissionEntry s.mode (m.data.get "action")
        ((m.data.get "permissions").orElse .undefined),
      ∃ listed ∈ entry.includes s.participantSeat.name, listed = true → m.source ≠ none →
        check s.mode s.participantSeat (m.data.get "action") .undefined = some true := by
  rw [handleAction_of_action act]
  constructor
  · rintro ⟨handled, own⟩
    cases checked : check s.mode s.participantSeat (m.data.get "action")
        ((m.data.get "permissions").orElse .undefined) with
    | none => exact absurd (by rw [checked]; rfl) handled
    | some listed =>
      obtain ⟨entry, there, found⟩ := check_eq_some_iff.mp checked
      refine ⟨entry, there, listed, found, fun isListed known => ?_⟩
      obtain ⟨window, from_⟩ := Option.ne_none_iff_exists'.mp known
      refine own [.acknowledged window (m.data.get "action")] ?_ window _ (List.mem_singleton_self _)
      rw [checked, isListed, from_]
      rfl
  · rintro ⟨entry, there, listed, found, own⟩
    rw [check_eq_some_iff.mpr ⟨entry, there, found⟩, Option.map_some]
    refine ⟨Option.some_ne_none _, fun effects mem window action acknowledged => ?_⟩
    cases mem
    split at acknowledged
    · rename_i isListed
      obtain ⟨source, from_, same⟩ := List.mem_map.mp acknowledged
      cases same
      exact own isListed fun gone => by simp [gone] at from_
    · cases acknowledged

theorem action_gated_of_other (other : ¬isAction m) :
    s.handleAction m ≠ none ∧ ∀ effects ∈ s.handleAction m, ∀ window action,
      .acknowledged window action ∈ effects →
        check s.mode s.participantSeat action .undefined = some true := by
  rw [show s.handleAction m = some [] from if_neg other]
  refine ⟨Option.some_ne_none _, fun effects mem window action acknowledged => ?_⟩
  cases mem
  cases acknowledged

/-! ## Every message -/

theorem gated_iff_clean : s.Gated m ↔ s.Clean m := by
  constructor
  · intro gated
    refine ⟨fun verb passes host => ?_, fun act => (action_gated_iff act).mp ⟨gated.total, gated.acknowledged⟩⟩
    obtain ⟨call, ok⟩ := exists_verdict_of_passes passes
    have rightful := gated.sent call (sent_mem_handleVerb.mpr ⟨verb, host, ok⟩)
    obtain ⟨room, here, nonempty, -⟩ := rightful.room
    exact ⟨rightful.source, room, here, nonempty⟩
  · intro clean
    have action : s.handleAction m ≠ none ∧ ∀ effects ∈ s.handleAction m, ∀ window action,
        .acknowledged window action ∈ effects →
          check s.mode s.participantSeat action .undefined = some true := by
      by_cases act : isAction m
      · exact (action_gated_iff act).mpr (clean.action act)
      · exact action_gated_of_other act
    refine ⟨fun call sent => ?_, action.2, refused_once, action.1⟩
    obtain ⟨verb, host, ok⟩ := sent_mem_handleVerb.mp sent
    obtain ⟨source, room⟩ := clean.verb verb (verdict_eq_ok ok).1 host
    exact rightful_of_sent source room ok

/-- Whatever messages come, and whatever the surface is when each of them does: all are gated exactly
when all are clean. -/
theorem verbs_gated_iff (messages : List (ExtensionSurface × WindowMessage)) :
    (∀ e ∈ messages, e.1.Gated e.2) ↔ ∀ e ∈ messages, e.1.Clean e.2 :=
  forall₂_congr fun _ _ => gated_iff_clean

/-! ## Messages that are not gated -/

/-- The frame of window 1 in a shared session, whose participant may send and whose manifest lets it. -/
def sharedSurface (roomId : Option String) : ExtensionSurface :=
  ⟨[1], .shared, .participant, some ["state_events"], roomId, some fun _ => .done⟩

def sampleVerb (roomId : Cloned) : Cloned :=
  .obj [("type", .str "extension:send_state_event"), ("version", .num 1),
    ("payload", .obj [("roomId", roomId), ("eventType", .str "t"), ("content", .obj [])])]

def sampleAction (action permissions : Cloned) : Cloned :=
  .obj [("type", .str "extension_action"), ("action", action), ("permissions", permissions)]

/-- A window that is no frame sends; a session without a room sends to the room of the message; the
message's own permissions are believed; and an unknown action throws. -/
theorem verbs_not_gated :
    ¬(sharedSurface (some "!a")).Gated ⟨some 7, sampleVerb .undefined⟩ ∧
    ¬(sharedSurface none).Gated ⟨some 1, sampleVerb (.str "!b")⟩ ∧
    ¬(sharedSurface none).Gated ⟨some 1, sampleAction (.str "admin_commands")
      (.obj [("admin_commands", .arr [.str "participant"] [])])⟩ ∧
    ¬(sharedSurface none).Gated ⟨some 1, sampleAction (.str "fly") .undefined⟩ := by
  refine ⟨fun gated => ?_, fun gated => ?_, fun gated => ?_, fun gated => gated.total (by decide)⟩
  · have stranger := gated.sent ⟨.str "!a", "t", .str "", .obj []⟩
      (sent_mem_handleVerb.mpr ⟨by decide, rfl, rfl⟩)
    obtain ⟨window, from_, mounted⟩ := stranger.source
    cases from_
    exact absurd mounted (by decide)
  · have roomless := gated.sent ⟨.str "!b", "t", .str "", .obj []⟩
      (sent_mem_handleVerb.mpr ⟨by decide, rfl, rfl⟩)
    obtain ⟨room, here, -⟩ := roomless.room
    cases here
  · have believed := gated.acknowledged [.acknowledged 1 (.str "admin_commands")] rfl 1 _
      (List.mem_singleton_self _)
    exact absurd believed (by decide)

end ExtensionSurface

end Concorrd
