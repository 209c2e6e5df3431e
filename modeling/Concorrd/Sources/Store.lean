import Concorrd.Lib.JsText
import Concorrd.Lib.Json

/-!
# Sources

The store of `stores/sources.ts`: the connections to other instances, and the user they are bound to.
Binding another user keeps the primary sources, which belong to the instance, and drops those that
do not resolve to that user.

A stored access token, user id or device id carries the user that was bound when it was stored. An id
and a time that the store makes up are arguments, and so is the lower case of the script's strings.
-/

namespace Concorrd

open JsText (truthy)

/-! ## Sources -/

inductive SourcePlatform where
  | concord
  | matrix
  | reticulum
  | concordP2p
  deriving DecidableEq

inductive SourceStatus where
  | connecting
  | connected
  | disconnected
  | error
  deriving DecidableEq

/-- A text of a session, with the user that was bound when it was stored. -/
structure Secret where
  value : String
  storedBy : Option String
  deriving DecidableEq

/-- The fields of a source that its callers give. An owner that is null or not there is `none`. -/
structure SourceFields (σ : Type) where
  host : String
  instanceName : Option String
  inviteToken : String
  accessToken : Option σ
  userId : Option σ
  deviceId : Option σ
  apiBase : String
  homeserverUrl : String
  serverName : Option String
  delegatedFrom : Option String
  authFlows : Option (List String)
  authError : Option String
  status : SourceStatus
  enabled : Bool
  error : Option String
  platform : Option SourcePlatform
  ownerUserId : Option String
  isOwner : Option Bool
  branding : Option Json
  deriving DecidableEq

structure ConcordSource extends SourceFields Secret where
  id : String
  addedAt : String
  deriving DecidableEq

/-- A partial source: each field that is given, with the value it is to have. -/
structure SourcePatch where
  id : Option String := none
  addedAt : Option String := none
  host : Option String := none
  instanceName : Option (Option String) := none
  inviteToken : Option String := none
  accessToken : Option (Option String) := none
  userId : Option (Option String) := none
  deviceId : Option (Option String) := none
  apiBase : Option String := none
  homeserverUrl : Option String := none
  serverName : Option (Option String) := none
  delegatedFrom : Option (Option String) := none
  authFlows : Option (Option (List String)) := none
  authError : Option (Option String) := none
  status : Option SourceStatus := none
  enabled : Option Bool := none
  error : Option (Option String) := none
  platform : Option (Option SourcePlatform) := none
  ownerUserId : Option (Option String) := none
  isOwner : Option (Option Bool) := none
  branding : Option (Option Json) := none

/-- The configuration of the instance that was picked. -/
structure PrimaryConfig where
  host : String
  instance_name : Option String
  api_base : String
  homeserver_url : String

/-- A source of the instance itself, and of no user. -/
def isPrimarySource {σ : Type} (source : SourceFields σ) : Bool :=
  source.platform.getD .concord = .concord && JsText.trim source.inviteToken = ""

/-- The user that a source belongs to. -/
def resolveOwnedSourceUserId (source : ConcordSource) (boundUserId : Option String) : Option String :=
  if isPrimarySource source.toSourceFields then none else source.ownerUserId.or boundUserId

/-- The given fields, their secrets stored while the user is bound. -/
def SourceFields.storedBy (source : SourceFields String) (user : Option String) :
    SourceFields Secret :=
  { source with
    accessToken := source.accessToken.map (⟨·, user⟩)
    userId := source.userId.map (⟨·, user⟩)
    deviceId := source.deviceId.map (⟨·, user⟩) }

namespace ConcordSource

/-- The source that is added while the user is bound. -/
def added (id addedAt : String) (source : SourceFields String) (user : Option String) :
    ConcordSource :=
  { source.storedBy user with
    ownerUserId := source.ownerUserId.or user, id := id, addedAt := addedAt }

/-- The source with the fields of the patch, stored while the user is bound. -/
def patched (s : ConcordSource) (patch : SourcePatch) (user : Option String) : ConcordSource where
  id := patch.id.getD s.id
  addedAt := patch.addedAt.getD s.addedAt
  host := patch.host.getD s.host
  instanceName := patch.instanceName.getD s.instanceName
  inviteToken := patch.inviteToken.getD s.inviteToken
  accessToken := (patch.accessToken.map (Option.map (⟨·, user⟩))).getD s.accessToken
  userId := (patch.userId.map (Option.map (⟨·, user⟩))).getD s.userId
  deviceId := (patch.deviceId.map (Option.map (⟨·, user⟩))).getD s.deviceId
  apiBase := patch.apiBase.getD s.apiBase
  homeserverUrl := patch.homeserverUrl.getD s.homeserverUrl
  serverName := patch.serverName.getD s.serverName
  delegatedFrom := patch.delegatedFrom.getD s.delegatedFrom
  authFlows := patch.authFlows.getD s.authFlows
  authError := patch.authError.getD s.authError
  status := patch.status.getD s.status
  enabled := patch.enabled.getD s.enabled
  error := patch.error.getD s.error
  platform := patch.platform.getD s.platform
  ownerUserId := patch.ownerUserId.getD s.ownerUserId
  isOwner := patch.isOwner.getD s.isOwner
  branding := patch.branding.getD s.branding

/-- The values a source takes over from the configuration. -/
def configured (s : ConcordSource) (config : PrimaryConfig) : ConcordSource :=
  { s with
    instanceName := config.instance_name.or s.instanceName
    apiBase := config.api_base
    homeserverUrl := config.homeserver_url
    status := .connected
    ownerUserId := none }

def ofConfig (id addedAt : String) (config : PrimaryConfig) : ConcordSource where
  id := id
  host := config.host
  instanceName := config.instance_name
  inviteToken := ""
  accessToken := none
  userId := none
  deviceId := none
  apiBase := config.api_base
  homeserverUrl := config.homeserver_url
  serverName := none
  delegatedFrom := none
  authFlows := none
  authError := none
  status := .connected
  enabled := true
  error := none
  addedAt := addedAt
  platform := none
  ownerUserId := none
  isOwner := none
  branding := none

/-- What becomes of a source when a user is bound. -/
def bound (s : ConcordSource) (boundUserId userId : Option String) : Option ConcordSource :=
  if isPrimarySource s.toSourceFields then some { s with ownerUserId := none }
  else
    (truthy userId).bind fun user =>
      if resolveOwnedSourceUserId s boundUserId = some user then
        some { s with ownerUserId := resolveOwnedSourceUserId s boundUserId }
      else none

end ConcordSource

/-! ## The store -/

structure SourcesState where
  sources : List ConcordSource
  boundUserId : Option String

namespace SourcesState

def initial : SourcesState := ⟨[], none⟩

def addSource (st : SourcesState) (id addedAt : String) (source : SourceFields String) :
    SourcesState :=
  { st with
    sources := st.sources ++ [.added id addedAt source st.boundUserId] }

/-- The moved source taken out, and put in where the other was. -/
def spliced (sources : List ConcordSource) (start dest : Nat) : List ConcordSource :=
  match sources.drop start with
  | moved :: after =>
    let rest := sources.take start ++ after
    rest.take dest ++ moved :: rest.drop dest
  | [] => sources

def reorderSources (st : SourcesState) (activeId overId : String) : SourcesState :=
  if activeId = overId then st
  else
    match st.sources.findIdx? (·.id = activeId), st.sources.findIdx? (·.id = overId) with
    | some start, some dest => { st with sources := spliced st.sources start dest }
    | _, _ => st

/-- The source that a map by ids holds: the last one. -/
def byId (sources : List ConcordSource) (id : String) : Option ConcordSource :=
  sources.reverse.find? (·.id = id)

/-- The sources in the order of the ids, and after them those that no id names. -/
def ordered (sources : List ConcordSource) (seen : List String) : List String → List ConcordSource
  | [] => sources.filter fun s => s.id ∉ seen
  | id :: ids =>
    match byId sources id with
    | some source =>
      if id ∈ seen then ordered sources seen ids else source :: ordered sources (id :: seen) ids
    | none => ordered sources seen ids

def setSourceOrder (st : SourcesState) (orderedIds : List String) : SourcesState :=
  { st with sources := ordered st.sources [] orderedIds }

/-- The sources with the id, changed. -/
def changeWhere (st : SourcesState) (id : String) (change : ConcordSource → ConcordSource) :
    SourcesState :=
  { st with sources := st.sources.map fun s => if s.id = id then change s else s }

def updateSource (st : SourcesState) (id : String) (patch : SourcePatch) : SourcesState :=
  st.changeWhere id fun s => s.patched patch st.boundUserId

def markOwner (st : SourcesState) (id : String) (isOwner : Bool) : SourcesState :=
  st.changeWhere id fun s => { s with isOwner := some isOwner }

variable (toLowerCase : String → String)

/-- The first source of the host. -/
def ofHost (sources : List ConcordSource) (host : String) : Option ConcordSource :=
  sources.find? fun s => toLowerCase s.host = toLowerCase host

def ensurePrimarySource (st : SourcesState) (id addedAt : String) (config : PrimaryConfig) :
    SourcesState :=
  match ofHost toLowerCase st.sources config.host with
  | some existing => st.changeWhere existing.id fun s => s.configured config
  | none => { st with sources := st.sources ++ [.ofConfig id addedAt config] }

def bindToUser (st : SourcesState) (userId : Option String) : SourcesState :=
  ⟨st.sources.filterMap fun s => s.bound st.boundUserId userId, userId⟩

end SourcesState

inductive SourcesCall where
  | addSource (id addedAt : String) (source : SourceFields String)
  | updateSource (id : String) (patch : SourcePatch)
  | ensurePrimarySource (id addedAt : String) (config : PrimaryConfig)
  | reorderSources (activeId overId : String)
  | setSourceOrder (orderedIds : List String)
  | markOwner (id : String) (isOwner : Bool)
  | bindToUser (userId : Option String)

def SourcesState.step (toLowerCase : String → String) (st : SourcesState) :
    SourcesCall → SourcesState
  | .addSource id addedAt source => st.addSource id addedAt source
  | .updateSource id patch => st.updateSource id patch
  | .ensurePrimarySource id addedAt config => st.ensurePrimarySource toLowerCase id addedAt config
  | .reorderSources activeId overId => st.reorderSources activeId overId
  | .setSourceOrder orderedIds => st.setSourceOrder orderedIds
  | .markOwner id isOwner => st.markOwner id isOwner
  | .bindToUser userId => st.bindToUser userId

end Concorrd
