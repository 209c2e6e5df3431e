import Concorrd.Lib.JsText
import Concorrd.Lib.Run

/-!
# Leaving orphaned rooms

`leaveOrphanRooms` of `stores/server.ts`, with the operations that write the store's servers. It decides
on a snapshot of the servers and of the joined rooms, and leaves the rooms one call after the other while
the store and the backend go on. Which server and channel are selected plays no part in it.
-/

namespace Concorrd

open JsText (truthy)

/-- A server as the store keeps it: the Matrix rooms of its channels. -/
structure StoreServer where
  id : String
  channels : List String

/-- A wrapper for rooms of other homeservers. -/
def StoreServer.federated (server : StoreServer) : Bool := "federated:".toList.isPrefixOf server.id.toList

/-- A room of the Matrix client. Whether it was made as a direct room is not for the client to see: an
inviter is only there on the side that was invited. -/
structure JoinedRoom where
  roomId : String
  membership : String
  dmInviter : Option String
  isDirect : Bool

/-! ## The store's servers -/

def concordServers (servers : List StoreServer) : List StoreServer := servers.filter fun s => !s.federated

/-- The rooms of the channels of every Concord server. -/
def managed (servers : List StoreServer) : List String := (concordServers servers).flatMap (·.channels)

/-! ## The decision -/

def afterColon (text : String) : Option (List Char) :=
  match text.toList.dropWhile (· ≠ ':') with
  | [] => none
  | _ :: rest => some rest

/-- The homeserver of a user or a room. -/
def homeserver (id : String) : Option (List Char) := afterColon id

/-- What `userId.split(":")[1]` takes for it. -/
def localDomain (userId : String) : Option (List Char) :=
  (afterColon userId).map fun rest => rest.takeWhile (· ≠ ':')

def endsWithDomain (domain : List Char) (roomId : String) : Bool := (':' :: domain).isSuffixOf roomId.toList

def isOrphan (servers : List StoreServer) (domain : List Char) (room : JoinedRoom) : Bool :=
  room.membership = "join" && !(managed servers).contains room.roomId &&
    (truthy room.dmInviter).isNone && endsWithDomain domain room.roomId

def orphans (servers : List StoreServer) (userId : String) (rooms : List JoinedRoom) : List JoinedRoom :=
  match localDomain userId with
  | none => []
  | some domain => rooms.filter (isOrphan servers domain)

/-! ## The store at work -/

/-- A call of `leaveOrphanRooms` under way: what it still has to leave, and what it has left. The calls it
made are kept beside it with how they ended. -/
structure Cleanup where
  userId : String
  toLeave : List JoinedRoom
  succeeded : List String
  calls : List (String × Bool)

/-- The store, and what the backend lists for the user. -/
structure ServerStore where
  servers : List StoreServer
  listed : List StoreServer
  cleanups : List Cleanup

inductive ServerStoreAction where
  | loadServers (answer fallback : Option (List StoreServer))
  | createServer (server : StoreServer)
  | createChannel (serverId roomId : String)
  | deleteServer (serverId : String)
  | hydrateFederatedRooms
  /-- The backend's listing changes, by this user's requests or by others. -/
  | backend (listed : List StoreServer)
  | leaveOrphanRooms (userId : Option String) (rooms : List JoinedRoom)
  /-- The next room of a cleanup is left, or the call fails. -/
  | leave (cleanup : Nat) (done : Bool)

/-- The next call of the loop. -/
def Cleanup.next (c : Cleanup) (done : Bool) : Cleanup :=
  match c.toLeave with
  | [] => c
  | room :: rest =>
    { c with
      toLeave := rest
      succeeded := if done then c.succeeded ++ [room.roomId] else c.succeeded
      calls := c.calls ++ [(room.roomId, done)] }

namespace ServerStore

/-- The answer to the listing, and to the one after the lobby was joined if the first was empty. The
wrappers of federated rooms stay. -/
def loadServers (s : ServerStore) (answer fallback : Option (List StoreServer)) : ServerStore :=
  match answer with
  | none => s
  | some listed =>
    { s with
      servers := (if listed.isEmpty then fallback.getD [] else listed) ++
        s.servers.filter (·.federated) }

def createServer (s : ServerStore) (server : StoreServer) : ServerStore :=
  { s with servers := s.servers ++ [server] }

def createChannel (s : ServerStore) (serverId roomId : String) : ServerStore :=
  { s with
    servers := s.servers.map fun server =>
      if server.id = serverId then { server with channels := server.channels ++ [roomId] } else server }

def deleteServer (s : ServerStore) (serverId : String) : ServerStore :=
  { s with servers := s.servers.filter fun server => server.id ≠ serverId }

/-- Rooms of other homeservers are no longer wrapped: the wrappers go. -/
def hydrateFederatedRooms (s : ServerStore) : ServerStore :=
  { s with servers := concordServers s.servers }

def leaveOrphanRooms (s : ServerStore) (userId : Option String) (rooms : List JoinedRoom) : ServerStore :=
  { s with
    cleanups := s.cleanups ++
      [⟨userId.getD "", orphans s.servers (userId.getD "") rooms, [], []⟩] }

def step (s : ServerStore) : ServerStoreAction → ServerStore
  | .loadServers answer fallback => s.loadServers answer fallback
  | .createServer server => s.createServer server
  | .createChannel serverId roomId => s.createChannel serverId roomId
  | .deleteServer serverId => s.deleteServer serverId
  | .hydrateFederatedRooms => s.hydrateFederatedRooms
  | .backend listed => { s with listed }
  | .leaveOrphanRooms userId rooms => s.leaveOrphanRooms userId rooms
  | .leave n done => { s with cleanups := s.cleanups.modify n fun c => c.next done }

/-! ## What is to hold -/

/-- The room may be left: it is no channel that the backend lists, no direct room, and of the user's
homeserver. -/
structure MayLeave (listed : List StoreServer) (userId : String) (room : JoinedRoom) : Prop where
  unlisted : ∀ server ∈ listed, room.roomId ∉ server.channels
  undirect : room.isDirect = false
  near : homeserver room.roomId = homeserver userId

/-- Whatever a cleanup still has to leave, and leaves unless the client stops, may be left; and it has
left what it is going to return. -/
structure Good (s : ServerStore) : Prop where
  orphans : ∀ c ∈ s.cleanups, ∀ room ∈ c.toLeave, MayLeave s.listed c.userId room
  returned : ∀ c ∈ s.cleanups, c.succeeded = (c.calls.filter Prod.snd).map Prod.fst

/-- A call that leaves a room leaves one that may be left. -/
def LeavesOrphan (s : ServerStore) : ServerStoreAction → Prop
  | .leave n _ => ∀ c ∈ s.cleanups[n]?, ∀ room ∈ c.toLeave.head?, MayLeave s.listed c.userId room
  | _ => True

/-! ## The condition -/

/-- When the rooms are looked at, each that is joined, ends with the domain, has no inviter and is no
channel of a server in the store may be left; and no room that is still to be left becomes a listed
channel. -/
def Clean (s : ServerStore) : ServerStoreAction → Prop
  | .leaveOrphanRooms userId rooms => ∀ domain ∈ localDomain (userId.getD ""), ∀ room ∈ rooms,
      room.membership = "join" → truthy room.dmInviter = none → endsWithDomain domain room.roomId →
        room.roomId ∉ managed s.servers → MayLeave s.listed (userId.getD "") room
  | .backend listed => ∀ c ∈ s.cleanups, ∀ room ∈ c.toLeave, ∀ server ∈ listed,
      room.roomId ∉ server.channels
  | .loadServers .. | .createServer .. | .createChannel .. | .deleteServer .. | .hydrateFederatedRooms
  | .leave .. => True

/-! ## Steps -/

variable {s : ServerStore}

/-- What a store keeps of its listing and its cleanups. -/
theorem Good.congr {s' : ServerStore} (good : s.Good) (listed : s'.listed = s.listed)
    (cleanups : s'.cleanups = s.cleanups) : s'.Good := by
  refine ⟨fun c mem room later => ?_, fun c mem => good.returned c (cleanups ▸ mem)⟩
  rw [listed]
  exact good.orphans c (cleanups ▸ mem) room later

theorem mem_orphans {servers : List StoreServer} {userId : String} {rooms : List JoinedRoom}
    {room : JoinedRoom} : room ∈ orphans servers userId rooms ↔
      ∃ domain ∈ localDomain userId, room ∈ rooms ∧ room.membership = "join" ∧
        truthy room.dmInviter = none ∧ endsWithDomain domain room.roomId ∧
        room.roomId ∉ managed servers := by
  rw [orphans]
  cases localDomain userId with
  | none => simp
  | some domain =>
    simp only [List.mem_filter, isOrphan, Bool.and_eq_true, decide_eq_true_eq, Bool.not_eq_true',
      Option.isNone_iff_eq_none, Option.mem_def, Option.some.injEq, exists_eq_left', List.contains_eq_mem,
      decide_eq_false_iff_not]
    constructor
    · rintro ⟨listed, ⟨⟨joined, unmanaged⟩, uninvited⟩, near⟩
      exact ⟨listed, joined, uninvited, near, unmanaged⟩
    · rintro ⟨listed, joined, uninvited, near, unmanaged⟩
      exact ⟨listed, ⟨⟨joined, unmanaged⟩, uninvited⟩, near⟩

theorem good_leaveOrphanRooms_iff (good : s.Good) (userId : Option String) (rooms : List JoinedRoom) :
    (s.leaveOrphanRooms userId rooms).Good ↔ s.Clean (.leaveOrphanRooms userId rooms) := by
  constructor
  · intro after domain known room listed joined uninvited near unmanaged
    refine after.orphans _ (List.mem_append_right _ (List.mem_singleton_self _)) room ?_
    exact mem_orphans.mpr ⟨domain, known, listed, joined, uninvited, near, unmanaged⟩
  · intro clean
    refine ⟨fun c mem room later => ?_, fun c mem => ?_⟩
    · rcases List.mem_append.mp mem with earlier | new
      · exact good.orphans c earlier room later
      · cases List.mem_singleton.mp new
        obtain ⟨domain, known, listed, joined, uninvited, near, unmanaged⟩ := mem_orphans.mp later
        exact clean domain known room listed joined uninvited near unmanaged
    · rcases List.mem_append.mp mem with earlier | new
      · exact good.returned c earlier
      · cases List.mem_singleton.mp new
        rfl

theorem good_backend_iff (good : s.Good) (listed : List StoreServer) :
    (s.step (.backend listed)).Good ↔ s.Clean (.backend listed) := by
  constructor
  · intro after c mem room later server known here
    exact (after.orphans c mem room later).unlisted server known here
  · intro clean
    refine ⟨fun c mem room later => ?_, good.returned⟩
    obtain ⟨-, undirect, near⟩ := good.orphans c mem room later
    exact ⟨clean c mem room later, undirect, near⟩

theorem Cleanup.toLeave_next {c : Cleanup} {done : Bool} {room : JoinedRoom}
    (later : room ∈ (c.next done).toLeave) : room ∈ c.toLeave := by
  rw [Cleanup.next] at later
  split at later
  · exact later
  · rename_i first rest listed
    rw [listed]
    exact List.mem_cons_of_mem first later

theorem Cleanup.userId_next {c : Cleanup} {done : Bool} : (c.next done).userId = c.userId := by
  rw [Cleanup.next]
  split <;> rfl

/-- A room is returned when its call is done. -/
theorem Cleanup.returned_next {c : Cleanup} {done : Bool}
    (returned : c.succeeded = (c.calls.filter Prod.snd).map Prod.fst) :
    (c.next done).succeeded = ((c.next done).calls.filter Prod.snd).map Prod.fst := by
  rw [Cleanup.next]
  split
  · exact returned
  · cases done with
    | false => simpa using returned
    | true => simpa using returned

theorem good_leave (good : s.Good) (n : Nat) (done : Bool) : (s.step (.leave n done)).Good := by
  have came : ∀ c ∈ (s.step (.leave n done)).cleanups,
      c ∈ s.cleanups ∨ ∃ before ∈ s.cleanups, c = before.next done := by
    intro c mem
    obtain ⟨i, found⟩ := List.mem_iff_getElem?.mp mem
    have modified : (s.cleanups.modify n fun c => c.next done)[i]? = some c := found
    rw [List.getElem?_modify] at modified
    obtain ⟨before, here, same⟩ := Option.map_eq_some_iff.mp modified
    split at same
    · exact .inr ⟨before, List.mem_of_getElem? here, same.symm⟩
    · exact .inl (same ▸ List.mem_of_getElem? here)
  refine ⟨fun c mem room later => ?_, fun c mem => ?_⟩
  · rcases came c mem with earlier | ⟨before, earlier, rfl⟩
    · exact good.orphans c earlier room later
    · rw [Cleanup.userId_next]
      exact good.orphans before earlier room (Cleanup.toLeave_next later)
  · rcases came c mem with earlier | ⟨before, earlier, rfl⟩
    · exact good.returned c earlier
    · exact Cleanup.returned_next (good.returned before earlier)

theorem good_step_iff (good : s.Good) (action : ServerStoreAction) :
    (s.step action).Good ↔ s.Clean action := by
  cases action with
  | leaveOrphanRooms userId rooms => exact good_leaveOrphanRooms_iff good userId rooms
  | backend listed => exact good_backend_iff good listed
  | leave n done => exact iff_of_true (good_leave good n done) trivial
  | loadServers answer fallback =>
    refine iff_of_true ?_ trivial
    cases answer with
    | none => exact good
    | some listed => exact good.congr rfl rfl
  | createServer server => exact iff_of_true (good.congr rfl rfl) trivial
  | createChannel serverId roomId => exact iff_of_true (good.congr rfl rfl) trivial
  | deleteServer serverId => exact iff_of_true (good.congr rfl rfl) trivial
  | hydrateFederatedRooms => exact iff_of_true (good.congr rfl rfl) trivial

/-- A cleanup that may leave all it has to leave may leave what it leaves next. -/
theorem Good.leavesOrphan (good : s.Good) (action : ServerStoreAction) : s.LeavesOrphan action := by
  cases action with
  | leave n done =>
    intro c here room next
    exact good.orphans c (List.mem_of_getElem? here) room (List.mem_of_mem_head? next)
  | _ => trivial

/-! ## Runs -/

/-- A store whose servers and listing are these, with no cleanup yet. -/
def begin (servers listed : List StoreServer) : ServerStore := ⟨servers, listed, []⟩

/-- Whatever the store and the backend do: every cleanup has only rooms to leave that may be left exactly
when every step is clean, and then every call leaves one that may be left. -/
theorem orphans_only_iff (servers listed : List StoreServer) (actions : List ServerStoreAction) :
    (Machine.Along step (fun s a => (s.step a).Good) (begin servers listed) actions ↔
        Machine.Along step Clean (begin servers listed) actions) ∧
      (Machine.Along step Clean (begin servers listed) actions →
        Machine.Along step LeavesOrphan (begin servers listed) actions) := by
  have good : (begin servers listed).Good :=
    ⟨fun c mem => absurd mem List.not_mem_nil, fun c mem => absurd mem List.not_mem_nil⟩
  refine ⟨Machine.along_step_iff (fun s a good => good_step_iff good a) good, fun clean => ?_⟩
  exact clean.of_invariant Good (fun s a clean good => (good_step_iff good a).mpr clean)
    (fun s a _ good => good.leavesOrphan a) good

/-! ## Rooms that are left -/

def joinedRoom (roomId : String) (isDirect : Bool) : JoinedRoom := ⟨roomId, "join", none, isDirect⟩

/-- The rooms are looked at, and the first of them is left. -/
def cleanup (userId : String) (rooms : List JoinedRoom) (meanwhile : List ServerStoreAction) :
    List ServerStoreAction :=
  .leaveOrphanRooms (some userId) rooms :: meanwhile ++ [.leave 0 true]

def lobby (channels : List String) : StoreServer := ⟨"srv_lobby", channels⟩

/-- Before the first load a listed channel is left; so is a direct room that the user made, a room of the
homeserver without the port, and a channel that was being created. -/
theorem listed_rooms_left :
    ¬Machine.Along step LeavesOrphan (begin [] [lobby ["!g:a"]]) (cleanup "@u:a" [joinedRoom "!g:a" false] []) ∧
    ¬Machine.Along step LeavesOrphan (begin [lobby ["!g:a"]] [lobby ["!g:a"]])
      (cleanup "@u:a" [joinedRoom "!dm:a" true] []) ∧
    ¬Machine.Along step LeavesOrphan (begin [lobby ["!g:a"]] [lobby ["!g:a"]])
      (cleanup "@u:a:8448" [joinedRoom "!r:a" false] []) ∧
    ¬Machine.Along step LeavesOrphan (begin [lobby ["!g:a"]] [lobby ["!g:a"]])
      (cleanup "@u:a" [joinedRoom "!g:a" false, joinedRoom "!new:a" false]
        [.backend [lobby ["!g:a", "!new:a"]]]) := by
  refine ⟨fun h => ?_, fun h => ?_, fun h => ?_, fun h => ?_⟩
  · have left := h.2.1 _ rfl _ rfl
    exact left.unlisted _ (List.mem_singleton_self _) (List.mem_singleton_self _)
  · have left := h.2.1 _ rfl _ rfl
    exact absurd left.undirect (by decide)
  · have left := h.2.1 _ rfl _ rfl
    exact absurd left.near (by decide)
  · have left := h.2.2.1 _ rfl _ rfl
    exact left.unlisted _ (List.mem_singleton_self _) (List.mem_cons_of_mem _ (List.mem_singleton_self _))

end ServerStore

end Concorrd
