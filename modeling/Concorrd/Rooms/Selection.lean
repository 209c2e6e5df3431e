import Concorrd.Lib.Run
import Concorrd.Rooms.Sidebar

/-!
# The selection of the sidebar

The selected server is listed and the selected channel is one of its channels: which actions keep this,
and which leave the selection alone as long as the selected channel is there.
-/

namespace Concorrd.Sidebar

/-- The room is that of a channel of a listed server of that id. -/
def Lists (servers : List Server) (serverId room : String) : Prop :=
  ∃ server ∈ servers, server.id = serverId ∧ room ∈ server.rooms

/-- What is selected is listed. -/
structure ServerState.Selects (s : ServerState) : Prop where
  server : ∀ id ∈ s.activeServerId, ∃ server ∈ s.servers, server.id = id
  channel : ∀ room ∈ s.activeChannelId, ∃ id ∈ s.activeServerId, Lists s.servers id room

/-- The actions that are there to select. -/
def ServerAction.selects : ServerAction → Bool
  | .createServer _ => true
  | .setActiveServer _ => true
  | .setActiveChannel _ => true
  | _ => false

/-- The selected channel is still listed under the selected server. -/
def StillThere (s : ServerState) (servers : List Server) : Prop :=
  ∃ id ∈ s.activeServerId, ∃ room ∈ s.activeChannelId, Lists servers id room

/-- An action that leaves the selected channel where it is leaves the selection as it is. -/
def ServerState.Undisturbed (s : ServerState) (a : ServerAction) : Prop :=
  a.selects = false → StillThere s (s.step a).servers →
    (s.step a).activeServerId = s.activeServerId ∧ (s.step a).activeChannelId = s.activeChannelId

/-- A server is selected from the list, a channel from the selected server. -/
def ServerState.Offers (s : ServerState) : ServerAction → Prop
  | .setActiveServer serverId => ∃ server ∈ s.servers, server.id = serverId
  | .setActiveChannel room => ∃ id ∈ s.activeServerId, Lists s.servers id room
  | _ => True

/-- What is picked by default is what is selected. -/
def ServerState.PicksSame (s : ServerState) (listed : List Server) : Prop :=
  (pickLobbyServer listed).map (·.id) = s.activeServerId ∧ preferredRoom listed = s.activeChannelId

/-- The actions that do no harm to the selection. -/
def ServerState.Spares (s : ServerState) : ServerAction → Prop
  /- A list that became empty takes no selected server away, and one that is not empty shows the selected
  channel, where it is still there, or has it picked anew. -/
  | .loadServers answer fallback => ∀ listed ∈ listing answer fallback,
      (listed = [] → ∀ id ∈ s.activeServerId, isFederated id = true) ∧
      (listed ≠ [] → StillThere s (listed ++ s.servers.filter (isFederated ·.id)) →
        s.activeChannelStillExists listed = true ∨ s.PicksSame listed)
  /- The server that lost a channel has the selected one, or that is the channel that is gone. -/
  | .deleteChannel serverId channelId => ∀ room ∈ s.activeChannelId,
      ∀ server ∈ (s.deleteChannel serverId channelId).servers.find? (·.id = serverId), room ∉ server.rooms →
        (StillThere s (s.deleteChannel serverId channelId).servers ↔ room = "")
  /- No wrapper is selected. -/
  | .hydrateFederatedRooms => ∀ id ∈ s.activeServerId, isFederated id = false
  | _ => True

/-! ## One action -/

variable {s : ServerState} {servers : List Server} {serverId room : String}

/-- Every server stays, with its rooms. -/
def Grows (servers servers' : List Server) : Prop :=
  ∀ server ∈ servers, ∃ server' ∈ servers', server'.id = server.id ∧ server.rooms ⊆ server'.rooms

theorem Grows.lists {servers' : List Server} (grows : Grows servers servers') {id : String}
    (listed : Lists servers id room) : Lists servers' id room := by
  obtain ⟨server, mem, named, isRoom⟩ := listed
  obtain ⟨server', mem', same, rooms⟩ := grows server mem
  exact ⟨server', mem', same.trans named, rooms isRoom⟩

/-- The selection stays when the servers only grow. -/
theorem selects_of_grows (selects : s.Selects) (grows : Grows s.servers servers) :
    ({ s with servers } : ServerState).Selects where
  server id isActive := by
    obtain ⟨server, mem, named⟩ := selects.server id isActive
    obtain ⟨server', mem', same, -⟩ := grows server mem
    exact ⟨server', mem', same.trans named⟩
  channel room isActive := by
    obtain ⟨id, active, listed⟩ := selects.channel room isActive
    exact ⟨id, active, grows.lists listed⟩

theorem grows_patch {change : List Channel → List Channel}
    (more : ∀ channels, channels.map (·.matrix_room_id) ⊆ (change channels).map (·.matrix_room_id)) :
    Grows servers (patch servers serverId change) := by
  intro server mem
  refine ⟨_, List.mem_map_of_mem mem, ?_⟩
  split
  · exact ⟨rfl, more server.channels⟩
  · exact ⟨rfl, fun _ h => h⟩

theorem grows_append (channel : Channel) : Grows servers (patch servers serverId (· ++ [channel])) :=
  grows_patch fun channels => by simp

theorem grows_rename (channelId : Int) (name : String) : Grows servers (patch servers serverId fun channels =>
    channels.map fun c => if c.id = channelId then { c with name } else c) := by
  refine grows_patch fun channels => ?_
  have same : (channels.map fun c => if c.id = channelId then { c with name } else c).map (·.matrix_room_id) =
      channels.map (·.matrix_room_id) := by
    rw [List.map_map]
    apply List.map_congr_left
    intro c _
    rw [Function.comp_apply]
    split <;> rfl
  rw [same]
  exact fun _ h => h

theorem grows_update (name : Option String) : Grows servers (servers.map fun server =>
    if server.id = serverId then { server with name := name.getD server.name } else server) := by
  intro server mem
  refine ⟨_, List.mem_map_of_mem mem, ?_⟩
  split <;> exact ⟨rfl, fun _ h => h⟩

theorem firstRoom_mem {server : Server} (first : room ∈ server.firstRoom) : room ∈ server.rooms := by
  obtain ⟨channel, head, rfl⟩ := Option.map_eq_some_iff.mp first
  exact List.mem_map_of_mem (List.mem_of_mem_head? head)

theorem preferred_mem {server : Server} (first : room ∈ (pickPreferredChannel server).map (·.matrix_room_id)) :
    room ∈ server.rooms := by
  obtain ⟨channel, picked, rfl⟩ := Option.map_eq_some_iff.mp first
  refine List.mem_map_of_mem ?_
  rcases Option.or_eq_some_iff.mp picked with found | ⟨-, head⟩
  · exact List.mem_of_find?_eq_some found
  · exact List.mem_of_mem_head? head

theorem pickLobbyServer_mem {server : Server} (picked : pickLobbyServer servers = some server) : server ∈ servers := by
  rcases Option.or_eq_some_iff.mp picked with found | ⟨-, head⟩
  · exact List.mem_of_find?_eq_some found
  · exact List.mem_of_mem_head? head

/-- A server that is listed and one of its channels, where it has any. -/
theorem selects_server {server : Server} {first : Option String} (mem : server ∈ servers)
    (rooms : ∀ room ∈ first, room ∈ server.rooms) :
    ({ servers, activeServerId := some server.id, activeChannelId := first } : ServerState).Selects where
  server _ active := ⟨server, mem, Option.some.inj active⟩
  channel room active := ⟨server.id, rfl, server, mem, rfl, rooms room active⟩

theorem selects_nothing : ({ servers, activeServerId := none, activeChannelId := none } : ServerState).Selects where
  server _ active := nomatch active
  channel _ active := nomatch active

theorem lists_filter {keep : Server → Bool} {id : String} (listed : Lists servers id room)
    (kept : ∀ server, server.id = id → keep server = true) : Lists (servers.filter keep) id room := by
  obtain ⟨server, mem, named, isRoom⟩ := listed
  exact ⟨server, List.mem_filter.mpr ⟨mem, kept server named⟩, named, isRoom⟩

/-- A selection outside the servers that go stays. -/
theorem selects_filter (selects : s.Selects) {keep : Server → Bool}
    (kept : ∀ id ∈ s.activeServerId, ∀ server : Server, server.id = id → keep server = true) :
    ({ s with servers := s.servers.filter keep } : ServerState).Selects where
  server id active := by
    obtain ⟨server, mem, named⟩ := selects.server id active
    exact ⟨server, List.mem_filter.mpr ⟨mem, kept id active server named⟩, named⟩
  channel room active := by
    obtain ⟨id, isActive, listed⟩ := selects.channel room active
    exact ⟨id, isActive, lists_filter listed (kept id isActive)⟩

theorem dropServer_keeps (selects : s.Selects) (serverId : String) :
    (s.dropServer serverId).Selects ∧ (StillThere s (s.dropServer serverId).servers →
      (s.dropServer serverId).activeServerId = s.activeServerId ∧
        (s.dropServer serverId).activeChannelId = s.activeChannelId) := by
  rw [ServerState.dropServer]
  split
  · rename_i active
    constructor
    · cases head : (s.servers.filter fun server => server.id ≠ serverId).head? with
      | none => exact selects_nothing
      | some server => exact selects_server (List.mem_of_mem_head? head) fun room first => firstRoom_mem first
    · rintro ⟨id, isActive, room, -, server, mem, named, -⟩
      have gone := (List.mem_filter.mp mem).2
      rw [active] at isActive
      rw [named, ← Option.some.inj isActive] at gone
      simp at gone
  · rename_i other
    refine ⟨selects_filter selects fun id active server named => ?_, fun _ => ⟨rfl, rfl⟩⟩
    have apart : id ≠ serverId := fun same => other (same ▸ active)
    simp [named, apart]

theorem hydrate_iff (selects : s.Selects) :
    s.hydrateFederatedRooms.Selects ↔ ∀ id ∈ s.activeServerId, isFederated id = false := by
  constructor
  · intro kept id active
    obtain ⟨server, mem, named⟩ := kept.server id active
    simpa [named] using (List.mem_filter.mp mem).2
  · intro plain
    exact selects_filter selects fun id active server named => by simp [named, plain id active]

theorem exists_withoutChannel {server : Server} (mem : server ∈ servers) (serverId : String) (channelId : Int) :
    ∃ server' ∈ withoutChannel servers serverId channelId, server'.id = server.id ∧
      (server.id ≠ serverId → server' = server) := by
  refine ⟨_, List.mem_map_of_mem mem, ?_⟩
  split
  · rename_i same
    exact ⟨rfl, fun other => absurd same other⟩
  · exact ⟨rfl, fun _ => rfl⟩

theorem lists_withoutChannel {id : String} (listed : Lists servers id room) (other : id ≠ serverId)
    (channelId : Int) : Lists (withoutChannel servers serverId channelId) id room := by
  obtain ⟨server, mem, named, isRoom⟩ := listed
  obtain ⟨server', mem', -, same⟩ := exists_withoutChannel mem serverId channelId
  rw [named] at same
  exact ⟨server, same other ▸ mem', named, isRoom⟩

theorem server_withoutChannel (selects : s.Selects) (serverId : String) (channelId : Int) :
    ∀ id ∈ s.activeServerId, ∃ server ∈ withoutChannel s.servers serverId channelId, server.id = id := by
  intro id active
  obtain ⟨server, mem, named⟩ := selects.server id active
  obtain ⟨server', mem', same, -⟩ := exists_withoutChannel mem serverId channelId
  exact ⟨server', mem', same.trans named⟩

theorem stillThere_iff (active : s.activeChannelId = some room) :
    StillThere s servers ↔ ∃ id ∈ s.activeServerId, Lists servers id room := by
  constructor
  · rintro ⟨id, isActive, room', same, listed⟩
    rw [active] at same
    exact ⟨id, isActive, Option.some.inj same ▸ listed⟩
  · rintro ⟨id, isActive, listed⟩
    exact ⟨id, isActive, room, active, listed⟩

theorem selects_iff_stillThere (active : s.activeChannelId = some room)
    (server : ∀ id ∈ s.activeServerId, ∃ server ∈ servers, server.id = id) :
    ({ s with servers } : ServerState).Selects ↔ StillThere s servers := by
  rw [stillThere_iff active]
  refine ⟨fun selects => selects.channel room active, fun there => ⟨server, fun room' same => ?_⟩⟩
  have same : s.activeChannelId = some room' := same
  rw [active] at same
  exact Option.some.inj same ▸ there

section
variable {channelId : Int} {lost : Server}

theorem servers_deleteChannel (s : ServerState) (serverId : String) (channelId : Int) :
    (s.deleteChannel serverId channelId).servers = withoutChannel s.servers serverId channelId := by
  rw [ServerState.deleteChannel]
  split
  · rfl
  · split <;> rfl

theorem deleteChannel_of_unlisted
    (none : (withoutChannel s.servers serverId channelId).find? (·.id = serverId) = none) :
    s.deleteChannel serverId channelId = { s with servers := withoutChannel s.servers serverId channelId } := by
  rw [ServerState.deleteChannel]
  simp only [none]

theorem deleteChannel_of_gone
    (found : (withoutChannel s.servers serverId channelId).find? (·.id = serverId) = some lost)
    (active : s.activeChannelId = some room) (given : room ≠ "") (gone : room ∉ lost.rooms) :
    s.deleteChannel serverId channelId =
      { s with servers := withoutChannel s.servers serverId channelId, activeChannelId := lost.firstRoom } := by
  rw [ServerState.deleteChannel]
  simp [found, active, given, gone]

theorem deleteChannel_of_kept
    (found : (withoutChannel s.servers serverId channelId).find? (·.id = serverId) = some lost)
    (kept : ∀ room ∈ s.activeChannelId, room ∉ lost.rooms → room = "") :
    s.deleteChannel serverId channelId = { s with servers := withoutChannel s.servers serverId channelId } := by
  have still : (s.activeChannelId.any fun room => room ≠ "" && !lost.rooms.contains room) = false := by
    cases active : s.activeChannelId with
    | none => rfl
    | some room =>
      by_cases here : room ∈ lost.rooms
      · simp [here]
      · simp [kept room active here]
  rw [ServerState.deleteChannel]
  simp only [found, still]
  rfl

/-- A selected channel that is not there any more was one of the server that lost a channel. -/
theorem active_of_gone (selects : s.Selects) (active : s.activeChannelId = some room)
    (gone : ¬ StillThere s (withoutChannel s.servers serverId channelId)) : s.activeServerId = some serverId := by
  obtain ⟨id, isActive, listed⟩ := selects.channel room active
  by_cases same : id = serverId
  · exact same ▸ isActive
  · exact absurd ((stillThere_iff active).mpr ⟨id, isActive, lists_withoutChannel listed same channelId⟩) gone

theorem deleteChannel_iff (selects : s.Selects) (serverId : String) (channelId : Int) :
    ((s.deleteChannel serverId channelId).Selects ∧
      (StillThere s (s.deleteChannel serverId channelId).servers →
        (s.deleteChannel serverId channelId).activeServerId = s.activeServerId ∧
          (s.deleteChannel serverId channelId).activeChannelId = s.activeChannelId)) ↔
      s.Spares (.deleteChannel serverId channelId) := by
  have server := server_withoutChannel selects serverId channelId
  rw [ServerState.Spares, servers_deleteChannel]
  cases found : (withoutChannel s.servers serverId channelId).find? (·.id = serverId) with
  | none =>
    rw [deleteChannel_of_unlisted found]
    refine iff_of_true ⟨⟨server, fun room active => ?_⟩, fun _ => ⟨rfl, rfl⟩⟩ fun _ _ _ no => nomatch no
    by_contra gone
    have isActive := active_of_gone selects active fun there => gone ((stillThere_iff active).mp there)
    obtain ⟨lost, mem, named⟩ := server serverId isActive
    exact absurd (List.find?_eq_none.mp found lost mem) (by simp [named])
  | some lost =>
    have mem := List.mem_of_find?_eq_some found
    have id : lost.id = serverId := by simpa using List.find?_some found
    by_cases given : ∃ room, s.activeChannelId = some room ∧ room ≠ "" ∧ room ∉ lost.rooms
    · obtain ⟨room, active, given, gone⟩ := given
      rw [deleteChannel_of_gone found active given gone]
      have spares : (∀ room' ∈ s.activeChannelId, ∀ server ∈ some lost, room' ∉ server.rooms →
          (StillThere s (withoutChannel s.servers serverId channelId) ↔ room' = "")) ↔
          ¬ StillThere s (withoutChannel s.servers serverId channelId) := by
        simp [active, given, gone]
      rw [spares]
      constructor
      · rintro ⟨-, undisturbed⟩ there
        have same : lost.firstRoom = some room := (undisturbed there).2.trans active
        exact gone (firstRoom_mem same)
      · intro away
        have isActive := active_of_gone selects active away
        refine ⟨⟨server, fun first head => ?_⟩, fun there => absurd there away⟩
        exact ⟨serverId, isActive, lost, mem, id, firstRoom_mem head⟩
    · have kept : ∀ room ∈ s.activeChannelId, room ∉ lost.rooms → room = "" := fun room active gone =>
        not_not.mp fun other => given ⟨room, active, other, gone⟩
      rw [deleteChannel_of_kept found kept]
      rw [and_iff_left fun _ => ⟨rfl, rfl⟩]
      obtain active | ⟨room, active⟩ := Option.eq_none_or_eq_some s.activeChannelId
      · refine iff_of_true ⟨server, fun room isActive => ?_⟩ fun room isActive => ?_
        · have same : s.activeChannelId = some room := isActive
          rw [active] at same
          cases same
        · rw [active] at isActive
          cases isActive
      · rw [selects_iff_stillThere active server]
        by_cases here : room ∈ lost.rooms
        · refine iff_of_true ?_ ?_
          · by_contra gone
            have isActive := active_of_gone selects active gone
            exact gone ((stillThere_iff active).mpr ⟨serverId, isActive, lost, mem, id, here⟩)
          · simp [active, here]
        · have empty := kept room active here
          subst empty
          simp [active, here]
end

/-! ## Loading the servers -/

theorem exists_of_activeChannelStillExists {listed : List Server} (there : s.activeChannelStillExists listed = true) :
    ∃ id ∈ s.activeServerId, ∃ room ∈ s.activeChannelId, Lists listed id room := by
  obtain ⟨server, found, there⟩ := Option.any_eq_true _ _ |>.mp there
  obtain ⟨id, active, found⟩ := Option.bind_eq_some_iff.mp found
  obtain ⟨room, isActive, there⟩ := Option.any_eq_true _ _ |>.mp there
  have named : server.id = id := by simpa using List.find?_some found
  exact ⟨id, active, room, isActive, server, List.mem_of_find?_eq_some found, named, by simpa using there⟩

theorem Lists.append {listed more : List Server} {id : String} (there : Lists listed id room) :
    Lists (listed ++ more) id room := by
  obtain ⟨server, mem, rest⟩ := there
  exact ⟨server, List.mem_append_left _ mem, rest⟩

theorem takeServers_iff (selects : s.Selects) (listed : List Server) :
    ((s.takeServers listed).Selects ∧ (StillThere s (s.takeServers listed).servers →
      (s.takeServers listed).activeServerId = s.activeServerId ∧
        (s.takeServers listed).activeChannelId = s.activeChannelId)) ↔
    (listed = [] → ∀ id ∈ s.activeServerId, isFederated id = true) ∧
      (listed ≠ [] → StillThere s (listed ++ s.servers.filter (isFederated ·.id)) →
        s.activeChannelStillExists listed = true ∨ s.PicksSame listed) := by
  by_cases none : listed = []
  · subst none
    have same : s.takeServers [] = { s with servers := s.servers.filter (isFederated ·.id) } := by
      simp [ServerState.takeServers]
    rw [same]
    constructor
    · rintro ⟨kept, -⟩
      refine ⟨fun _ id active => ?_, fun some => absurd rfl some⟩
      obtain ⟨server, mem, named⟩ := kept.server id active
      simpa [named] using (List.mem_filter.mp mem).2
    · rintro ⟨wrapped, -⟩
      exact ⟨selects_filter selects fun id active server named => by simp [named, wrapped rfl id active],
        fun _ => ⟨rfl, rfl⟩⟩
  · cases there : s.activeChannelStillExists listed with
    | true =>
      have same : s.takeServers listed = { s with servers := listed ++ s.servers.filter (isFederated ·.id) } := by
        simp [ServerState.takeServers, there]
      obtain ⟨id, active, room, isActive, lists⟩ := exists_of_activeChannelStillExists there
      rw [same]
      refine iff_of_true ⟨(selects_iff_stillThere isActive fun id' active' => ?_).mpr
        ⟨id, active, room, isActive, lists.append⟩, fun _ => ⟨rfl, rfl⟩⟩ ⟨fun empty => absurd empty none, fun _ _ => .inl rfl⟩
      obtain ⟨server, mem, named, -⟩ := lists
      rw [Option.mem_def.mp active] at active'
      exact ⟨server, List.mem_append_left _ mem, named.trans (Option.some.inj active')⟩
    | false =>
      have same : s.takeServers listed = ⟨listed ++ s.servers.filter (isFederated ·.id),
          (pickLobbyServer listed).map (·.id), preferredRoom listed⟩ := by
        simp [ServerState.takeServers, there, none]
      have picked : (s.takeServers listed).Selects := by
        rw [same, preferredRoom]
        cases pick : pickLobbyServer listed with
        | none => exact selects_nothing
        | some server =>
          exact selects_server (List.mem_append_left _ (pickLobbyServer_mem pick)) fun room first => preferred_mem first
      rw [and_iff_right picked, and_iff_right fun empty => absurd empty none, same]
      simp [none, ServerState.PicksSame]

theorem loadServers_iff (selects : s.Selects) (answer fallback : Option (List Server)) :
    ((s.loadServers answer fallback).Selects ∧
      (StillThere s (s.loadServers answer fallback).servers →
        (s.loadServers answer fallback).activeServerId = s.activeServerId ∧
          (s.loadServers answer fallback).activeChannelId = s.activeChannelId)) ↔
      s.Spares (.loadServers answer fallback) := by
  rw [ServerState.loadServers, ServerState.Spares]
  cases listing answer fallback with
  | none => exact iff_of_true ⟨selects, fun _ => ⟨rfl, rfl⟩⟩ fun _ no => nomatch no
  | some listed =>
    refine (takeServers_iff selects listed).trans ⟨fun h _ same => Option.some.inj same ▸ h, fun h => h listed rfl⟩

/-- What an action has to meet to leave a selection that is listed, and not to disturb it. -/
theorem step_spares_iff (a : ServerAction) (offers : s.Offers a) (selects : s.Selects) :
    ((s.step a).Selects ∧ s.Undisturbed a) ↔ s.Spares a := by
  have grown : ∀ servers : List Server, Grows s.servers servers →
      ({ s with servers } : ServerState).Selects := fun _ => selects_of_grows selects
  cases a with
  | loadServers answer fallback =>
    rw [← loadServers_iff selects]
    exact and_congr_right fun _ => forall_prop_of_true rfl
  | createServer server =>
    refine iff_of_true ⟨?_, fun no => nomatch no⟩ trivial
    exact selects_server (List.mem_append_right _ (List.mem_singleton_self _)) fun room first => firstRoom_mem first
  | createChannel serverId channel => exact iff_of_true ⟨grown _ (grows_append channel), fun _ _ => ⟨rfl, rfl⟩⟩ trivial
  | startServerExtension serverId channel =>
    exact iff_of_true ⟨grown _ (grows_append channel), fun _ _ => ⟨rfl, rfl⟩⟩ trivial
  | deleteServer serverId =>
    obtain ⟨kept, still⟩ := dropServer_keeps selects serverId
    exact iff_of_true ⟨kept, fun _ => still⟩ trivial
  | deleteChannel serverId channelId =>
    rw [← deleteChannel_iff selects]
    exact and_congr_right fun _ => forall_prop_of_true rfl
  | renameChannel serverId channelId name =>
    exact iff_of_true ⟨grown _ (grows_rename channelId name), fun _ _ => ⟨rfl, rfl⟩⟩ trivial
  | leaveServer serverId =>
    obtain ⟨kept, still⟩ := dropServer_keeps selects serverId
    exact iff_of_true ⟨kept, fun _ => still⟩ trivial
  | hydrateFederatedRooms =>
    exact (and_iff_left fun _ _ => ⟨rfl, rfl⟩).trans (hydrate_iff selects)
  | updateServer serverId name => exact iff_of_true ⟨grown _ (grows_update name), fun _ _ => ⟨rfl, rfl⟩⟩ trivial
  | setActiveServer serverId =>
    refine iff_of_true ⟨?_, fun no => nomatch no⟩ trivial
    obtain ⟨listed, mem, named⟩ := offers
    cases found : s.servers.find? (·.id = serverId) with
    | none => exact absurd (List.find?_eq_none.mp found listed mem) (by simp [named])
    | some server =>
      have id : server.id = serverId := by simpa using List.find?_some found
      show ServerState.Selects ⟨s.servers, some serverId,
        ((s.servers.find? (·.id = serverId)).bind pickPreferredChannel).map (·.matrix_room_id)⟩
      rw [found, ← id]
      exact selects_server (List.mem_of_find?_eq_some found) fun room first => preferred_mem first
  | setActiveChannel room =>
    refine iff_of_true ⟨?_, fun no => nomatch no⟩ trivial
    exact ⟨selects.server, fun room' same => Option.some.inj same ▸ offers⟩

/-! ## Runs -/

/-- The selection is listed after every action and only disturbed where the selected channel goes, exactly
when every action spares it. -/
theorem selection_kept_iff {actions : List ServerAction} (selects : s.Selects)
    (offers : Machine.Along ServerState.step ServerState.Offers s actions) :
    Machine.Along ServerState.step (fun s a => (s.step a).Selects ∧ s.Undisturbed a) s actions ↔
      Machine.Along ServerState.step ServerState.Spares s actions :=
  Machine.along_congr_under_of ServerState.Selects offers (fun _ _ _ _ kept => kept.1)
    (fun _ a offers selects => step_spares_iff a offers selects) selects

def emptyStore : ServerState := ⟨[], none, none⟩

def homeServer : Server := ⟨"home", "Home", [⟨1, "general", "!general"⟩, ⟨2, "music", "!music"⟩]⟩

def clubServer : Server := ⟨"club", "Club", [⟨3, "lounge", "!lounge"⟩, ⟨4, "archive", "!archive"⟩]⟩

theorem created_and_selected : Machine.Along ServerState.step (fun s a => (s.step a).Selects ∧ s.Undisturbed a)
    emptyStore [.createServer homeServer, .createServer clubServer, .setActiveServer "home"] := by
  have offers : Machine.Along ServerState.step ServerState.Offers emptyStore
      [.createServer homeServer, .createServer clubServer, .setActiveServer "home"] :=
    ⟨trivial, trivial, ⟨homeServer, List.mem_cons_self, rfl⟩, trivial⟩
  exact (selection_kept_iff selects_nothing offers).mpr ⟨trivial, trivial, trivial, trivial⟩

/-- Deleting a channel of a server that is not selected moves the selection to a channel of that server. -/
theorem deletion_elsewhere_moves_selection :
    let s := Machine.run ServerState.step emptyStore
      [.loadServers (some [homeServer, clubServer]) none, .deleteChannel "club" 4]
    s.activeServerId = some "home" ∧ s.activeChannelId = some "!lounge" ∧
      Lists s.servers "home" "!general" ∧ ¬ s.Selects := by
  intro s
  have server : s.activeServerId = some "home" := by decide
  have channel : s.activeChannelId = some "!lounge" := by decide
  have apart : ∀ listed ∈ s.servers, listed.id = "home" → "!lounge" ∉ listed.rooms := by decide
  refine ⟨server, channel, ⟨homeServer, by decide, by decide, by decide⟩, fun selects => ?_⟩
  obtain ⟨id, active, listed, mem, named, room⟩ := selects.channel "!lounge" channel
  rw [server] at active
  exact apart listed mem (named.trans (Option.some.inj active).symm) room

end Concorrd.Sidebar
