import Mathlib.Data.Option.Basic
import Concorrd.Lib.JsText
import Concorrd.Extension.Verbs

/-!
# Extension sessions in room state

The contents of `com.concord.extension.session` events and of the legacy singleton
`com.concord.extension`, as `stores/extension.ts` writes them and `hooks/useExtension.ts` reads them
back. The content of a state event holds no number with a fraction.
-/

namespace Concorrd

/-! ## Fields -/

/-- The value of that name. -/
def named {α : Type} (values : List α) (name : α → String) (text : String) : Option α :=
  values.find? fun value => name value = text

def SessionMode.name : SessionMode → String
  | .shared => "shared"
  | .sharedReadonly => "shared_readonly"
  | .sharedAdminInput => "shared_admin_input"
  | .perUser => "per_user"
  | .hybrid => "hybrid"

def SESSION_MODES : List SessionMode := [.shared, .sharedReadonly, .sharedAdminInput, .perUser, .hybrid]

inductive ExtensionInputPolicy where
  | none
  | all
  | hostOnly
  | adminsOnly
  | ownerOnly
  | boundUsers
  deriving DecidableEq

def ExtensionInputPolicy.name : ExtensionInputPolicy → String
  | .none => "none"
  | .all => "all"
  | .hostOnly => "host_only"
  | .adminsOnly => "admins_only"
  | .ownerOnly => "owner_only"
  | .boundUsers => "bound_users"

def INPUT_POLICIES : List ExtensionInputPolicy :=
  [.none, .all, .hostOnly, .adminsOnly, .ownerOnly, .boundUsers]

inductive ExtensionVisibility where
  | all
  | hostOnly
  | ownerOnly
  | adminsOnly
  | boundUsers
  deriving DecidableEq

def ExtensionVisibility.name : ExtensionVisibility → String
  | .all => "all"
  | .hostOnly => "host_only"
  | .ownerOnly => "owner_only"
  | .adminsOnly => "admins_only"
  | .boundUsers => "bound_users"

def VISIBILITY_POLICIES : List ExtensionVisibility := [.all, .hostOnly, .ownerOnly, .adminsOnly, .boundUsers]

inductive BindingRole where
  | host
  | admin
  | participant
  | spectator
  deriving DecidableEq

def BindingRole.name : BindingRole → String
  | .host => "host"
  | .admin => "admin"
  | .participant => "participant"
  | .spectator => "spectator"

inductive SessionStatus where
  | active
  | ended
  deriving DecidableEq

def SessionStatus.name : SessionStatus → String
  | .active => "active"
  | .ended => "ended"

structure ExtensionLaunchEntry where
  url : String
  allow_origin : String
  persist_profile : Bool
  deriving DecidableEq

structure ExtensionLaunchDescriptor where
  entries : List (String × ExtensionLaunchEntry)
  args : Json
  deriving DecidableEq

structure SurfaceCapabilities where
  pointer : Bool
  keyboard : Bool
  resize : Bool
  audio : Bool
  deriving DecidableEq

structure SessionSurface where
  surface_id : String
  role : String
  owner_user_id : Option String
  launch_ref : String
  visible_to : ExtensionVisibility
  input_policy : ExtensionInputPolicy
  layout : Json
  capabilities : SurfaceCapabilities
  deriving DecidableEq

structure ExtensionBinding where
  binding_id : String
  user_id : String
  seat_id : Option String
  role : BindingRole
  surface_ids : List String
  input_on : List String
  deriving DecidableEq

structure ExtensionPermissions where
  host_can_end : Bool
  admins_can_override : Bool
  default_input_policy : ExtensionInputPolicy
  deriving DecidableEq

inductive SessionSource where
  | legacy
  | session
  deriving DecidableEq

structure ActiveExtension where
  source : SessionSource
  eventType : String
  stateKey : String
  sessionId : String
  extensionId : String
  extensionUrl : String
  extensionName : String
  extensionIcon : String
  hostUserId : String
  startedAt : Int
  updatedAt : Int
  mode : SessionMode
  status : SessionStatus
  launch : ExtensionLaunchDescriptor
  surfaces : List SessionSurface
  bindings : List ExtensionBinding
  permissions : ExtensionPermissions
  title : String
  summary : String
  deriving DecidableEq

/-- An entry of the catalog. Its manifest permissions play no part here. -/
structure ExtensionDefinition where
  id : String
  name : String
  url : String
  icon : String
  description : String

def LEGACY_EXTENSION_EVENT_TYPE : String := "com.concord.extension"
def EXTENSION_SESSION_EVENT_TYPE : String := "com.concord.extension.session"
def LEGACY_EXTENSION_STATE_KEY : String := ""

/-! ## What is written -/

/-- The one surface that every client starts. -/
def sharedMainSurface : SessionSurface :=
  { surface_id := "surf_shared_main", role := "shared_main", owner_user_id := none
    launch_ref := "primary", visible_to := .all, input_policy := .hostOnly
    layout := .obj [("region", .str "main")]
    capabilities := ⟨true, true, true, false⟩ }

/-- The host's binding to it. -/
def hostBinding (userId : String) : ExtensionBinding :=
  { binding_id := "bind_" ++ userId, user_id := userId, seat_id := some "seat_host", role := .host
    surface_ids := ["surf_shared_main"], input_on := ["surf_shared_main"] }

def primaryLaunch (url : String) : ExtensionLaunchDescriptor := ⟨[("primary", ⟨url, "self", false⟩)], .obj []⟩

def createSessionId (random : String) : String := "sess_" ++ random

def buildActiveSession (d : ExtensionDefinition) (userId random : String) (now : Int) : ActiveExtension :=
  { source := .session, eventType := EXTENSION_SESSION_EVENT_TYPE
    stateKey := createSessionId random, sessionId := createSessionId random
    extensionId := d.id, extensionUrl := d.url, extensionName := d.name, extensionIcon := d.icon
    hostUserId := userId, startedAt := now, updatedAt := now
    mode := .sharedAdminInput, status := .active
    launch := primaryLaunch d.url, surfaces := [sharedMainSurface], bindings := [hostBinding userId]
    permissions := ⟨true, true, .hostOnly⟩, title := d.name, summary := d.description }

def ExtensionLaunchEntry.toJson (e : ExtensionLaunchEntry) : Json :=
  .obj [("url", .str e.url), ("allow_origin", .str e.allow_origin),
    ("persist_profile", .bool e.persist_profile)]

def ExtensionLaunchDescriptor.toJson (l : ExtensionLaunchDescriptor) : Json :=
  .obj [("kind", .str "browser_surface"),
    ("entries", .obj (l.entries.map fun e => (e.1, e.2.toJson))), ("args", l.args)]

/-- A text, or null. -/
def orNull (text : Option String) : Json := text.elim .null .str

def SessionSurface.toJson (s : SessionSurface) : Json :=
  .obj [("surface_id", .str s.surface_id), ("kind", .str "browser"), ("role", .str s.role),
    ("owner_user_id", orNull s.owner_user_id), ("launch_ref", .str s.launch_ref),
    ("visible_to", .str s.visible_to.name), ("input_policy", .str s.input_policy.name),
    ("layout", s.layout),
    ("capabilities", .obj [("pointer", .bool s.capabilities.pointer),
      ("keyboard", .bool s.capabilities.keyboard), ("resize", .bool s.capabilities.resize),
      ("audio", .bool s.capabilities.audio)])]

def ExtensionBinding.toJson (b : ExtensionBinding) : Json :=
  .obj [("binding_id", .str b.binding_id), ("user_id", .str b.user_id), ("seat_id", orNull b.seat_id),
    ("role", .str b.role.name), ("surface_ids", .arr (b.surface_ids.map .str)),
    ("input_on", .arr (b.input_on.map .str))]

def ExtensionPermissions.toJson (p : ExtensionPermissions) : Json :=
  .obj [("host_can_end", .bool p.host_can_end), ("admins_can_override", .bool p.admins_can_override),
    ("default_input_policy", .str p.default_input_policy.name)]

/-- The content of a session event. The clock is read anew for it. -/
def serializeSessionContent (ext : ActiveExtension) (status : SessionStatus) (updatedAt : Int) : Json :=
  .obj [("version", .num 1), ("session_id", .str ext.sessionId), ("extension_id", .str ext.extensionId),
    ("mode", .str ext.mode.name), ("status", .str status.name), ("host_user_id", .str ext.hostUserId),
    ("created_at", .num ext.startedAt), ("updated_at", .num updatedAt),
    ("catalog", .obj [("url", .str ext.extensionUrl), ("name", .str ext.extensionName),
      ("icon", .str ext.extensionIcon)]),
    ("launch", ext.launch.toJson), ("surfaces", .arr (ext.surfaces.map (·.toJson))),
    ("bindings", .arr (ext.bindings.map (·.toJson))), ("permissions", ext.permissions.toJson),
    ("meta", .obj [("title", .str ext.title), ("summary", .str ext.summary)])]

/-! ## What is read -/

def asRecord : Json → Option (List (String × Json))
  | .obj members => some members
  | _ => none

def asItems : Json → Option (List Json)
  | .arr items => some items
  | _ => none

def asNumber : Json → Option Int
  | .num n => some n
  | _ => none

/-- A member that is a text. -/
def textAt (content : Json) (key : String) : Option String := (content.get key).bind Json.asStr

def numberAt (content : Json) (key : String) : Option Int := (content.get key).bind asNumber

def itemsAt (content : Json) (key : String) : Option (List Json) := (content.get key).bind asItems

/-- A member that is an object, or an empty one. -/
def recordAt (content : Json) (key : String) : Json :=
  .obj (((content.get key).bind asRecord).getD [])

/-- Anything but `false`. -/
def unlessFalse (content : Json) (key : String) : Bool := content.get key ≠ some (.bool false)

def onlyTrue (content : Json) (key : String) : Bool := content.get key = some (.bool true)

def normalizeCatalogPrefix (url : String) : String :=
  if url.toList.getLast? = some '/' then url else url ++ "/"

def isAllowlistedLaunchUrl (catalogUrl launchUrl : String) : Bool :=
  launchUrl = catalogUrl || (normalizeCatalogPrefix catalogUrl).toList.isPrefixOf launchUrl.toList

def normalizeLaunchEntry (catalogUrl : String) (value : Json) : Option ExtensionLaunchEntry :=
  (textAt value "url").bind fun url =>
    if isAllowlistedLaunchUrl catalogUrl url then
      some ⟨url, (textAt value "allow_origin").getD "self", onlyTrue value "persist_profile"⟩
    else none

def normalizeLaunchEntries (catalogUrl : String) (raw : Json) :
    Option (List (String × ExtensionLaunchEntry)) := do
  let members ← asRecord raw
  let entries ← members.mapM fun m => (normalizeLaunchEntry catalogUrl m.2).map (m.1, ·)
  if entries.isEmpty then none else some entries

def normalizeLaunch (catalogUrl : String) (raw : Json) : Option ExtensionLaunchDescriptor := do
  guard (textAt raw "kind" = some "browser_surface")
  let entries ← (raw.get "entries").bind (normalizeLaunchEntries catalogUrl)
  some ⟨entries, recordAt raw "args"⟩

def normalizeSurface (item : Json) : Option SessionSurface := do
  guard (textAt item "kind" = some "browser")
  let surface_id ← textAt item "surface_id"
  let role ← textAt item "role"
  let launch_ref ← textAt item "launch_ref"
  let visible_to ← (textAt item "visible_to").bind (named VISIBILITY_POLICIES ExtensionVisibility.name)
  let input_policy ← (textAt item "input_policy").bind (named INPUT_POLICIES ExtensionInputPolicy.name)
  let capabilities := recordAt item "capabilities"
  some ⟨surface_id, role, textAt item "owner_user_id", launch_ref, visible_to, input_policy,
    recordAt item "layout",
    ⟨unlessFalse capabilities "pointer", unlessFalse capabilities "keyboard",
      unlessFalse capabilities "resize", onlyTrue capabilities "audio"⟩⟩

def normalizeSurfaces (raw : Json) : Option (List SessionSurface) := do
  let items ← asItems raw
  if items.isEmpty then none else items.mapM normalizeSurface

def normalizeBinding (item : Json) : Option ExtensionBinding := do
  let binding_id ← textAt item "binding_id"
  let user_id ← textAt item "user_id"
  let surfaceIds ← itemsAt item "surface_ids"
  let inputOn ← itemsAt item "input_on"
  let role ← (textAt item "role").bind (named [.host, .admin, .participant, .spectator] BindingRole.name)
  let surface_ids ← surfaceIds.mapM Json.asStr
  let input_on ← inputOn.mapM Json.asStr
  some ⟨binding_id, user_id, textAt item "seat_id", role, surface_ids, input_on⟩

def normalizeBindings (raw : Json) : Option (List ExtensionBinding) :=
  (asItems raw).bind fun items => items.mapM normalizeBinding

/-- The entry of the catalog that a content names. -/
def catalogEntry (catalog : List ExtensionDefinition) (id url : String) : Option ExtensionDefinition :=
  catalog.find? fun entry => entry.id = id && entry.url = url

/-- A text that is not empty. -/
def nonempty (text : String) : Option String := if text = "" then none else some text

def parseExtensionSessionContent (catalog : List ExtensionDefinition) (content : Json)
    (stateKey : String) : Option ActiveExtension := do
  guard (textAt content "status" = some SessionStatus.active.name)
  guard (content.get "version" = some (.num 1))
  let sessionId ← nonempty ((textAt content "session_id").getD stateKey)
  let extensionId ← (textAt content "extension_id").bind nonempty
  let hostUserId ← (textAt content "host_user_id").bind nonempty
  let createdAt ← numberAt content "created_at"
  let mode ← (textAt content "mode").bind (named SESSION_MODES SessionMode.name)
  guard (stateKey = "" ∨ stateKey = sessionId)
  let catalogRef := recordAt content "catalog"
  let url ← textAt catalogRef "url"
  let name ← textAt catalogRef "name"
  let entry ← catalogEntry catalog extensionId url
  let launch ← (content.get "launch").bind (normalizeLaunch url)
  let surfaces ← (content.get "surfaces").bind normalizeSurfaces
  let bindings ← (content.get "bindings").bind normalizeBindings
  let permissions := recordAt content "permissions"
  let details := recordAt content "meta"
  some
    { source := .session, eventType := EXTENSION_SESSION_EVENT_TYPE
      stateKey := sessionId, sessionId, extensionId, extensionUrl := url, extensionName := name
      extensionIcon := (textAt catalogRef "icon").getD entry.icon
      hostUserId, startedAt := createdAt
      updatedAt := (numberAt content "updated_at").getD createdAt
      mode, status := .active, launch, surfaces, bindings
      permissions :=
        ⟨unlessFalse permissions "host_can_end", unlessFalse permissions "admins_can_override",
          ((textAt permissions "default_input_policy").bind
            (named INPUT_POLICIES ExtensionInputPolicy.name)).getD .hostOnly⟩
      title := (textAt details "title").getD name
      summary := (textAt details "summary").getD entry.description }

def parseLegacyExtensionContent (catalog : List ExtensionDefinition) (content : Json) :
    Option ActiveExtension := do
  guard ((content.get "active").any Json.isTruthy)
  let extensionId ← textAt content "extension_id"
  let extensionUrl ← textAt content "extension_url"
  let extensionName ← textAt content "extension_name"
  let hostUserId ← textAt content "host_user_id"
  let startedAt ← numberAt content "started_at"
  let entry ← catalogEntry catalog extensionId extensionUrl
  some
    { source := .legacy, eventType := LEGACY_EXTENSION_EVENT_TYPE
      stateKey := LEGACY_EXTENSION_STATE_KEY
      sessionId := "legacy_" ++ extensionId ++ "_" ++ toString startedAt
      extensionId, extensionUrl, extensionName, extensionIcon := entry.icon, hostUserId, startedAt
      updatedAt := startedAt, mode := .sharedAdminInput, status := .active
      launch := primaryLaunch extensionUrl, surfaces := [sharedMainSurface]
      bindings := [hostBinding hostUserId], permissions := ⟨true, true, .hostOnly⟩
      title := extensionName, summary := entry.description }

/-! ## What is read of what was written -/

variable {catalog : List ExtensionDefinition} {d : ExtensionDefinition}

/-- A session that was ended is none. -/
theorem parse_ended (ext : ActiveExtension) (updatedAt : Int) (stateKey : String) :
    parseExtensionSessionContent catalog (serializeSessionContent ext .ended updatedAt) stateKey = none := by
  rfl

theorem catalogEntry_of_find (found : (catalog.find? fun e => e.id = d.id) = some d) :
    catalogEntry catalog d.id d.url = some d := by
  obtain ⟨-, before, after, rfl, others⟩ := List.find?_eq_some_iff_append.mp found
  refine List.find?_eq_some_iff_append.mpr ⟨by simp, before, after, rfl, fun e mem => ?_⟩
  have other : e.id ≠ d.id := by simpa using others e mem
  simp [other]

theorem isAllowlistedLaunchUrl_self (url : String) : isAllowlistedLaunchUrl url url = true := by
  simp [isAllowlistedLaunchUrl]

theorem normalizeLaunch_primary (url : String) :
    normalizeLaunch url (primaryLaunch url).toJson = some (primaryLaunch url) := by
  have entry : normalizeLaunchEntry url
      (.obj [("url", .str url), ("allow_origin", .str "self"), ("persist_profile", .bool false)]) =
      some ⟨url, "self", false⟩ := if_pos (isAllowlistedLaunchUrl_self url)
  have entries : normalizeLaunchEntries url (.obj [("primary", .obj
      [("url", .str url), ("allow_origin", .str "self"), ("persist_profile", .bool false)])]) =
      some [("primary", ⟨url, "self", false⟩)] := by
    simp [normalizeLaunchEntries, asRecord, entry]
  show (normalizeLaunchEntries url (.obj [("primary", .obj
      [("url", .str url), ("allow_origin", .str "self"), ("persist_profile", .bool false)])])).bind
    (fun entries => some ⟨entries, .obj []⟩) = some (primaryLaunch url)
  rw [entries]
  rfl

theorem normalizeBindings_host (userId : String) :
    normalizeBindings (.arr [(hostBinding userId).toJson]) = some [hostBinding userId] := by
  rfl

/-- The session that a client starts, as every client with the catalog reads it. -/
theorem parse_started {userId random : String} {now updatedAt : Int} (id : d.id ≠ "")
    (user : userId ≠ "") (found : (catalog.find? fun e => e.id = d.id) = some d) :
    parseExtensionSessionContent catalog
      (serializeSessionContent (buildActiveSession d userId random now) .active updatedAt)
      (createSessionId random) =
    some { buildActiveSession d userId random now with updatedAt := updatedAt } := by
  have session : nonempty (createSessionId random) = some (createSessionId random) := by
    simp [nonempty, createSessionId, ← String.toList_inj]
  have extension : nonempty d.id = some d.id := if_neg id
  have host : nonempty userId = some userId := if_neg user
  generalize content : serializeSessionContent (buildActiveSession d userId random now) .active updatedAt = c
  have catalogRef : recordAt c "catalog" =
    .obj [("url", .str d.url), ("name", .str d.name), ("icon", .str d.icon)] := by subst content; rfl
  have status : textAt c "status" = some "active" := by subst content; rfl
  have version : c.get "version" = some (.num 1) := by subst content; rfl
  have sessionId : textAt c "session_id" = some (createSessionId random) := by subst content; rfl
  have extensionId : textAt c "extension_id" = some d.id := by subst content; rfl
  have hostUserId : textAt c "host_user_id" = some userId := by subst content; rfl
  have createdAt : numberAt c "created_at" = some now := by subst content; rfl
  have updated : numberAt c "updated_at" = some updatedAt := by subst content; rfl
  have mode : (textAt c "mode").bind (named SESSION_MODES SessionMode.name) = some .sharedAdminInput := by
    subst content; rfl
  have launch : (c.get "launch").bind (normalizeLaunch d.url) = some (primaryLaunch d.url) := by
    subst content; exact normalizeLaunch_primary d.url
  have surfaces : (c.get "surfaces").bind normalizeSurfaces = some [sharedMainSurface] := by
    subst content; rfl
  have bindings : (c.get "bindings").bind normalizeBindings = some [hostBinding userId] := by
    subst content; exact normalizeBindings_host userId
  have permissions : recordAt c "permissions" = (ExtensionPermissions.toJson ⟨true, true, .hostOnly⟩) := by
    subst content; rfl
  have details : recordAt c "meta" = .obj [("title", .str d.name), ("summary", .str d.description)] := by
    subst content; rfl
  simp only [parseExtensionSessionContent, status, version, sessionId, extensionId, hostUserId, createdAt,
    updated, mode, catalogRef, permissions, details, Option.getD_some, session, extension, host,
    SessionStatus.name, guard, if_true, or_true, Option.pure_def, Option.bind_eq_bind, Option.bind_some]
  show (catalogEntry catalog d.id d.url).bind _ = _
  simp only [catalogEntry_of_find found, Option.bind_some]
  show ((c.get "launch").bind (normalizeLaunch d.url)).bind _ = _
  simp only [launch, surfaces, bindings, Option.bind_some]
  rfl

/-- What is read from a session event is a session of an extension of the catalog, under its own key. -/
theorem parse_spec {content : Json} {stateKey : String} {ext : ActiveExtension}
    (h : parseExtensionSessionContent catalog content stateKey = some ext) :
    ext.extensionId ≠ "" ∧ (∃ entry ∈ catalog, entry.id = ext.extensionId ∧ entry.url = ext.extensionUrl) ∧
    ext.stateKey = ext.sessionId ∧ ∃ raw, normalizeLaunch ext.extensionUrl raw = some ext.launch := by
  simp only [parseExtensionSessionContent, Option.bind_eq_bind, Option.bind_eq_some_iff] at h
  obtain ⟨_, -, _, -, _, -, extensionId, ⟨text, -, given⟩, _, -, _, -, _, -, _, -, _, -, _, -, entry, named, launch,
    ⟨raw, -, launched⟩, _, -, _, -, same⟩ := h
  cases same
  have found := List.find?_some named
  simp only [Bool.and_eq_true, decide_eq_true_eq] at found
  refine ⟨fun empty => ?_, ⟨entry, List.mem_of_find?_eq_some named, found.1, found.2⟩, rfl, raw, launched⟩
  rw [nonempty] at given
  split at given
  · cases given
  · rename_i other
    exact other ((Option.some.inj given).trans empty)

theorem parseLegacy_source {content : Json} {ext : ActiveExtension}
    (h : parseLegacyExtensionContent catalog content = some ext) : ext.source = .legacy := by
  simp only [parseLegacyExtensionContent, Option.bind_eq_bind, Option.bind_eq_some_iff] at h
  obtain ⟨_, -, _, -, _, -, _, -, _, -, _, -, _, -, same⟩ := h
  cases same
  rfl

end Concorrd
