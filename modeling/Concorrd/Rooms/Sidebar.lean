import Mathlib.Data.List.Basic

/-!
# The server store

`stores/server.ts`: the servers and channels of the sidebar and which of them is selected. An action that
waits for the backend writes the store when the answer is there, from what the store holds by then.
-/

namespace Concorrd.Sidebar

/-- A channel, with what the store reads of it. -/
structure Channel where
  id : Int
  name : String
  matrix_room_id : String
  deriving DecidableEq

structure Server where
  id : String
  name : String
  channels : List Channel
  deriving DecidableEq

/-- Nothing is selected where it is null. -/
structure ServerState where
  servers : List Server
  activeServerId : Option String
  activeChannelId : Option String
  deriving DecidableEq

def FEDERATED_SERVER_ID_PREFIX : String := "federated:"

def isFederated (id : String) : Bool := FEDERATED_SERVER_ID_PREFIX.toList.isPrefixOf id.toList

/-! ## What is selected by default -/

def isWordChar (c : Char) : Bool := c.isAlphanum || c = '_'

/-- The text begins with the word, in either case, and the word ends there. -/
def startsWithWord (word text : List Char) : Bool :=
  (text.take word.length).map Char.toLower = word && !((text.drop word.length).head?.any isWordChar)

/-- The word stands somewhere in the text, where `previous` is the character before it. -/
def hasWord (word : List Char) : Option Char → List Char → Bool
  | previous, [] => !previous.any isWordChar && startsWithWord word []
  | previous, c :: text =>
    !previous.any isWordChar && startsWithWord word (c :: text) || hasWord word (some c) text

/-- The server called a lobby, or the first one. -/
def pickLobbyServer (servers : List Server) : Option Server :=
  (servers.find? fun server => hasWord "lobby".toList none server.name.toList).or servers.head?

def pickPreferredChannel (server : Server) : Option Channel :=
  (server.channels.find? fun channel => channel.name.toList.map Char.toLower = "welcome".toList).or
    server.channels.head?

/-- The room that is selected by default. -/
def preferredRoom (servers : List Server) : Option String :=
  ((pickLobbyServer servers).bind pickPreferredChannel).map (·.matrix_room_id)

/-- The room of the first channel. -/
def Server.firstRoom (server : Server) : Option String := server.channels.head?.map (·.matrix_room_id)

def Server.rooms (server : Server) : List String := server.channels.map (·.matrix_room_id)

/-! ## Actions -/

/-- The servers with one of them changed. -/
def patch (servers : List Server) (serverId : String) (change : List Channel → List Channel) : List Server :=
  servers.map fun server =>
    if server.id = serverId then { server with channels := change server.channels } else server

/-- The servers without the channel. -/
def withoutChannel (servers : List Server) (serverId : String) (channelId : Int) : List Server :=
  patch servers serverId fun channels => channels.filter fun c => c.id ≠ channelId

/-- The answer to the listing; where it is empty, the listing after the default server was joined. -/
def listing (answer fallback : Option (List Server)) : Option (List Server) :=
  answer.map fun answer => if answer.isEmpty then fallback.getD [] else answer

namespace ServerState

/-- Whether the selected channel is one of the selected server in the answer. -/
def activeChannelStillExists (s : ServerState) (listed : List Server) : Bool :=
  (s.activeServerId.bind fun id => listed.find? (·.id = id)).any fun activeServer =>
    s.activeChannelId.any activeServer.rooms.contains

/-- The store with the listed servers. The wrappers of federated rooms stay, and only the answer is
looked at for the selection. -/
def takeServers (s : ServerState) (listed : List Server) : ServerState :=
  let servers := listed ++ s.servers.filter (isFederated ·.id)
  if !s.activeChannelStillExists listed && !listed.isEmpty then
    { servers
      activeServerId := (pickLobbyServer listed).map (·.id)
      activeChannelId := preferredRoom listed }
  else { s with servers }

def loadServers (s : ServerState) (answer fallback : Option (List Server)) : ServerState :=
  (listing answer fallback).elim s s.takeServers

def createServer (s : ServerState) (server : Server) : ServerState :=
  { servers := s.servers ++ [server], activeServerId := some server.id, activeChannelId := server.firstRoom }

def createChannel (s : ServerState) (serverId : String) (channel : Channel) : ServerState :=
  { s with servers := patch s.servers serverId (· ++ [channel]) }

def startServerExtension (s : ServerState) (serverId : String) (channel : Channel) : ServerState :=
  { s with servers := patch s.servers serverId (· ++ [channel]) }

/-- The store after a server is gone from it. -/
def dropServer (s : ServerState) (serverId : String) : ServerState :=
  let remaining := s.servers.filter fun server => server.id ≠ serverId
  if s.activeServerId = some serverId then
    { servers := remaining
      activeServerId := remaining.head?.map (·.id)
      activeChannelId := remaining.head?.bind Server.firstRoom }
  else { s with servers := remaining }

def deleteServer (s : ServerState) (serverId : String) : ServerState := s.dropServer serverId

def leaveServer (s : ServerState) (serverId : String) : ServerState := s.dropServer serverId

/-- Whether the selected room is gone is asked of the server that lost the channel. -/
def deleteChannel (s : ServerState) (serverId : String) (channelId : Int) : ServerState :=
  let servers := withoutChannel s.servers serverId channelId
  match servers.find? (·.id = serverId) with
  | none => { s with servers }
  | some activeServer =>
    if s.activeChannelId.any fun room => room ≠ "" && !activeServer.rooms.contains room then
      { s with servers, activeChannelId := activeServer.firstRoom }
    else { s with servers }

def renameChannel (s : ServerState) (serverId : String) (channelId : Int) (name : String) : ServerState :=
  { s with
    servers := patch s.servers serverId fun channels =>
      channels.map fun c => if c.id = channelId then { c with name } else c }

/-- Rooms of other homeservers are no longer wrapped: the wrappers go. -/
def hydrateFederatedRooms (s : ServerState) : ServerState :=
  { s with servers := s.servers.filter fun server => !isFederated server.id }

/-- The settings of a server, as far as the store reads them. -/
def updateServer (s : ServerState) (serverId : String) (name : Option String) : ServerState :=
  { s with
    servers := s.servers.map fun server =>
      if server.id = serverId then { server with name := name.getD server.name } else server }

def setActiveServer (s : ServerState) (serverId : String) : ServerState :=
  { s with
    activeServerId := some serverId
    activeChannelId :=
      ((s.servers.find? (·.id = serverId)).bind pickPreferredChannel).map (·.matrix_room_id) }

def setActiveChannel (s : ServerState) (matrixRoomId : String) : ServerState :=
  { s with activeChannelId := some matrixRoomId }

end ServerState

/-- An action when its answer is there. One that fails writes nothing. -/
inductive ServerAction where
  | loadServers (answer fallback : Option (List Server))
  | createServer (server : Server)
  | createChannel (serverId : String) (channel : Channel)
  | startServerExtension (serverId : String) (channel : Channel)
  | deleteServer (serverId : String)
  | deleteChannel (serverId : String) (channelId : Int)
  | renameChannel (serverId : String) (channelId : Int) (name : String)
  | leaveServer (serverId : String)
  | hydrateFederatedRooms
  | updateServer (serverId : String) (name : Option String)
  | setActiveServer (serverId : String)
  | setActiveChannel (matrixRoomId : String)

def ServerState.step (s : ServerState) : ServerAction → ServerState
  | .loadServers answer fallback => s.loadServers answer fallback
  | .createServer server => s.createServer server
  | .createChannel serverId channel => s.createChannel serverId channel
  | .startServerExtension serverId channel => s.startServerExtension serverId channel
  | .deleteServer serverId => s.deleteServer serverId
  | .deleteChannel serverId channelId => s.deleteChannel serverId channelId
  | .renameChannel serverId channelId name => s.renameChannel serverId channelId name
  | .leaveServer serverId => s.leaveServer serverId
  | .hydrateFederatedRooms => s.hydrateFederatedRooms
  | .updateServer serverId name => s.updateServer serverId name
  | .setActiveServer serverId => s.setActiveServer serverId
  | .setActiveChannel matrixRoomId => s.setActiveChannel matrixRoomId

end Concorrd.Sidebar
