import Concorrd.Api.Reorder
import Concorrd.Rooms.Selection

/-!
# Reordering the channels in the sidebar

`reorderChannels` of `stores/server.ts` shows the new order before the backend has answered, and puts the
whole list of servers back when the call fails. What this does to the other actions that ended in the
meantime, and when the order that is shown is the one that `reorder_channels` of the server stored.
-/

namespace Concorrd.Sidebar

open Ranked

/-- `Number.MAX_SAFE_INTEGER`. -/
def maxSafeInteger : Nat := 9007199254740991

/-- A channel that is not mentioned is sorted behind the others. -/
def indexIn (channelIds : List Int) (c : Channel) : Nat := (lastIndexOf c.id channelIds).getD maxSafeInteger

def reordered (channelIds : List Int) (channels : List Channel) : List Channel :=
  channels.insertionSort fun a b => indexIn channelIds a ≤ indexIn channelIds b

/-- The store, and for each call that waits for its answer the servers as they were before it. -/
structure Client where
  store : ServerState
  prevServers : Nat → Option (List Server)

/-- A call is sent where the server is listed. -/
def Client.reorderChannels (c : Client) (call : Nat) (serverId : String) (channelIds : List Int) : Client :=
  match c.store.servers.find? (·.id = serverId) with
  | none => c
  | some prevServer =>
    { store :=
        { c.store with
          servers := patch c.store.servers serverId fun _ => reordered channelIds prevServer.channels }
      prevServers := Function.update c.prevServers call (some c.store.servers) }

/-- The answer is an error: the servers of before the call are put back. -/
def Client.rollBack (c : Client) (call : Nat) : Client :=
  match c.prevServers call with
  | none => c
  | some prevServers =>
    { store := { c.store with servers := prevServers }
      prevServers := Function.update c.prevServers call none }

inductive ClientEvent where
  | action (a : ServerAction)
  | reorderChannels (call : Nat) (serverId : String) (channelIds : List Int)
  | accepted (call : Nat)
  | failed (call : Nat)

def Client.step (c : Client) : ClientEvent → Client
  | .action a => { c with store := c.store.step a }
  | .reorderChannels call serverId channelIds => c.reorderChannels call serverId channelIds
  | .accepted call => { c with prevServers := Function.update c.prevServers call none }
  | .failed call => c.rollBack call

/-- The call that an event belongs to. -/
def ClientEvent.call : ClientEvent → Option Nat
  | .action _ => none
  | .reorderChannels call _ _ => some call
  | .accepted call => some call
  | .failed call => some call

def Client.after (c : Client) (es : List ClientEvent) : Client := Machine.run Client.step c es

def Server.ids (server : Server) : List Int := server.channels.map Channel.id

/-- What is selected. -/
def ServerState.selected (s : ServerState) : Option String × Option String := (s.activeServerId, s.activeChannelId)

/-- In the run, after `before`, the call was sent, and after `between` there was this answer to it. -/
structure Answered (c : Client) (es before between : List ClientEvent) (call : Nat) (serverId : String)
    (channelIds : List Int) (answer : ClientEvent) : Prop where
  within : before ++ .reorderChannels call serverId channelIds :: (between ++ [answer]) <+: es
  others : ∀ e ∈ between, e.call ≠ some call
  sent : ∃ server ∈ (c.after before).store.servers, server.id = serverId

/-- A call that fails leaves the store as the other events alone do. -/
def RollsBack (c : Client) (es : List ClientEvent) : Prop :=
  ∀ before between call serverId channelIds, Answered c es before between call serverId channelIds (.failed call) →
    (c.after (before ++ .reorderChannels call serverId channelIds :: (between ++ [.failed call]))).store =
      (c.after (before ++ between)).store

/-- While a call that fails is awaited, the other events alone leave the servers as they were, and select
what they select in either order of the channels. -/
def OthersKeepServers (c : Client) (es : List ClientEvent) : Prop :=
  ∀ before between call serverId channelIds, Answered c es before between call serverId channelIds (.failed call) →
    (c.after (before ++ between)).store.servers = (c.after before).store.servers ∧
      (c.after (before ++ .reorderChannels call serverId channelIds :: between)).store.selected =
        (c.after (before ++ between)).store.selected

/-- A call that the backend accepts leaves the channels in the order that it stored. -/
def ShowsStored (c : Client) (es : List ClientEvent) : Prop :=
  ∀ before between call serverId requested,
    Answered c es before between call serverId (requested.map Int.ofNat) (.accepted call) →
      ∀ channels updated, (channels.map Row.id).Nodup → Api.reorderChannels channels requested = .ok updated →
        ∀ server ∈ (c.after (before ++ .reorderChannels call serverId (requested.map Int.ofNat) ::
            (between ++ [.accepted call]))).store.servers, server.id = serverId →
          server.ids = updated.map fun row => Int.ofNat row.id

/-- Of the servers, those of that id have these channels. -/
def HasOrder (serverId : String) (channelIds : List Int) (servers : List Server) : Prop :=
  ∀ server ∈ servers, server.id = serverId → server.ids = channelIds

/-- The actions that do not bring another order for the server. -/
def ServerAction.KeepsOrder (serverId : String) (channelIds : List Int) : ServerAction → Prop
  | .loadServers answer fallback => ∀ listed ∈ listing answer fallback, HasOrder serverId channelIds listed
  | .createServer server => HasOrder serverId channelIds [server]
  | .createChannel other _ => other ≠ serverId
  | .startServerExtension other _ => other ≠ serverId
  | .deleteChannel other channelId => other = serverId → channelId ∉ channelIds
  | _ => True

/-- Neither another order is asked for, nor are servers put back that had another one. -/
def Client.KeepsOrder (serverId : String) (channelIds : List Int) (c : Client) : ClientEvent → Prop
  | .action a => a.KeepsOrder serverId channelIds
  | .reorderChannels _ other otherIds => other = serverId → otherIds = channelIds
  | .accepted _ => True
  | .failed call => ∀ prevServers ∈ c.prevServers call, HasOrder serverId channelIds prevServers

/-- An accepted order lists the channels that the client has, and what ends while it is awaited does not
bring another one. -/
def OrdersKept (c : Client) (es : List ClientEvent) : Prop :=
  ∀ before between call serverId channelIds, Answered c es before between call serverId channelIds (.accepted call) →
    (∀ server ∈ (c.after before).store.servers.find? (·.id = serverId), server.ids.Perm channelIds) ∧
      Machine.Along Client.step (Client.KeepsOrder serverId channelIds)
        ((c.after before).reorderChannels call serverId channelIds) between

/-! ## A call that fails -/

variable {c : Client} {es before between : List ClientEvent} {call : Nat} {serverId : String}
  {channelIds : List Int}

theorem after_append (es es' : List ClientEvent) : c.after (es ++ es') = (c.after es).after es' :=
  Machine.run_append c es es'

theorem after_cons (e : ClientEvent) (es : List ClientEvent) : c.after (e :: es) = (c.step e).after es := rfl

/-- What a call found stays with it until its own answer. -/
theorem prevServers_step {e : ClientEvent} (other : e.call ≠ some call) :
    (c.step e).prevServers call = c.prevServers call := by
  have apart : ∀ call', e.call = some call' → call ≠ call' := fun call' own same => other (same ▸ own)
  cases e with
  | action a => rfl
  | reorderChannels call' serverId channelIds =>
    rw [Client.step, Client.reorderChannels]
    split
    · rfl
    · exact Function.update_of_ne (apart call' rfl) _ _
  | accepted call' => exact Function.update_of_ne (apart call' rfl) _ _
  | failed call' =>
    rw [Client.step, Client.rollBack]
    split
    · rfl
    · exact Function.update_of_ne (apart call' rfl) _ _

theorem prevServers_after (others : ∀ e ∈ es, e.call ≠ some call) :
    (c.after es).prevServers call = c.prevServers call := by
  induction es generalizing c with
  | nil => rfl
  | cons e es ih =>
    rw [after_cons, ih fun e' mem => others e' (List.mem_cons_of_mem e mem)]
    exact prevServers_step (others e List.mem_cons_self)

theorem prevServers_reorderChannels (listed : ∃ server ∈ c.store.servers, server.id = serverId) :
    (c.reorderChannels call serverId channelIds).prevServers call = some c.store.servers := by
  obtain ⟨server, mem, named⟩ := listed
  rw [Client.reorderChannels]
  split
  · rename_i none
    exact absurd (List.find?_eq_none.mp none server mem) (by simp [named])
  · exact Function.update_self _ _ _

theorem rollBack_store {prevServers : List Server} (pending : c.prevServers call = some prevServers) :
    (c.rollBack call).store = { c.store with servers := prevServers } := by
  rw [Client.rollBack]
  simp only [pending]

/-- The store after a failed call. -/
theorem store_failed (answered : Answered c es before between call serverId channelIds (.failed call)) :
    (c.after (before ++ .reorderChannels call serverId channelIds :: (between ++ [.failed call]))).store =
      { (c.after (before ++ .reorderChannels call serverId channelIds :: between)).store with
        servers := (c.after before).store.servers } := by
  have pending : (((c.after before).reorderChannels call serverId channelIds).after between).prevServers call =
      some (c.after before).store.servers := by
    rw [prevServers_after answered.others]
    exact prevServers_reorderChannels answered.sent
  rw [after_append, after_append, after_cons, after_cons, after_append]
  exact rollBack_store pending

theorem store_eq_iff {s s' : ServerState} {servers : List Server} :
    { s with servers } = s' ↔ s'.servers = servers ∧ s.selected = s'.selected := by
  constructor
  · rintro rfl
    exact ⟨rfl, rfl⟩
  · rintro ⟨rfl, same⟩
    obtain ⟨server, channel⟩ := Prod.mk.inj same
    cases s'
    simp_all

theorem rollsBack_iff : RollsBack c es ↔ OthersKeepServers c es := by
  refine forall_congr' fun before => forall_congr' fun between => forall_congr' fun call => ?_
  refine forall_congr' fun serverId => forall_congr' fun channelIds => forall_congr' fun answered => ?_
  rw [store_failed answered]
  exact store_eq_iff

/-! ## A call that is accepted -/

theorem HasOrder.append {servers servers' : List Server} (h : HasOrder serverId channelIds servers)
    (h' : HasOrder serverId channelIds servers') : HasOrder serverId channelIds (servers ++ servers') :=
  fun server mem => (List.mem_append.mp mem).elim (h server) (h' server)

theorem HasOrder.filter {servers : List Server} (h : HasOrder serverId channelIds servers)
    (keep : Server → Bool) : HasOrder serverId channelIds (servers.filter keep) :=
  fun server mem => h server (List.mem_filter.mp mem).1

/-- A change of one server keeps the order of another one, or keeps it where it keeps the ids. -/
theorem HasOrder.patch {servers : List Server} (h : HasOrder serverId channelIds servers) {other : String}
    {change : List Channel → List Channel}
    (kept : other = serverId → ∀ channels : List Channel, channels.map Channel.id = channelIds →
      (change channels).map Channel.id = channelIds) :
    HasOrder serverId channelIds (patch servers other change) := by
  intro server mem named
  obtain ⟨old, found, rfl⟩ := List.mem_map.mp mem
  split at named
  · rename_i same
    rw [if_pos same]
    exact kept (same.symm.trans named) old.channels (h old found named)
  · rename_i apart
    rw [if_neg apart]
    exact h old found named

theorem hasOrder_action {s : ServerState} {a : ServerAction} (keeps : a.KeepsOrder serverId channelIds)
    (h : HasOrder serverId channelIds s.servers) : HasOrder serverId channelIds (s.step a).servers := by
  cases a with
  | loadServers answer fallback =>
    rw [ServerState.step, ServerState.loadServers]
    cases listed : listing answer fallback with
    | none => exact h
    | some listed' =>
      have servers : (s.takeServers listed').servers = listed' ++ s.servers.filter (isFederated ·.id) := by
        rw [ServerState.takeServers]
        split <;> rfl
      show HasOrder serverId channelIds (s.takeServers listed').servers
      rw [servers]
      exact (keeps listed' listed).append (h.filter _)
  | createServer server => exact h.append keeps
  | createChannel other channel =>
    show HasOrder serverId channelIds (patch s.servers other (· ++ [channel]))
    exact h.patch fun same => absurd same keeps
  | startServerExtension other channel =>
    show HasOrder serverId channelIds (patch s.servers other (· ++ [channel]))
    exact h.patch fun same => absurd same keeps
  | deleteServer other =>
    rw [ServerState.step, ServerState.deleteServer, ServerState.dropServer]
    split <;> exact h.filter _
  | leaveServer other =>
    rw [ServerState.step, ServerState.leaveServer, ServerState.dropServer]
    split <;> exact h.filter _
  | deleteChannel other channelId =>
    rw [ServerState.step, servers_deleteChannel]
    refine h.patch fun same channels ids => ?_
    have away : channelId ∉ channels.map Channel.id := ids ▸ keeps same
    rw [List.filter_eq_self.mpr, ids]
    intro c mem
    have apart : c.id ≠ channelId := fun same => away (same ▸ List.mem_map_of_mem mem)
    simpa using apart
  | renameChannel other channelId name =>
    refine h.patch fun _ channels ids => ?_
    rw [← ids, List.map_map]
    apply List.map_congr_left
    intro c _
    rw [Function.comp_apply]
    split <;> rfl
  | hydrateFederatedRooms => exact h.filter _
  | updateServer other name =>
    intro server mem named
    obtain ⟨old, found, rfl⟩ := List.mem_map.mp mem
    split at named
    · rename_i same
      rw [if_pos same]
      exact h old found named
    · rename_i apart
      rw [if_neg apart]
      exact h old found named
  | setActiveServer other => exact h
  | setActiveChannel room => exact h

/-- Channels with the ids that are asked for are brought into that order. -/
theorem ids_reordered {channels : List Channel} (once : channelIds.Nodup)
    (perm : (channels.map Channel.id).Perm channelIds) :
    (reordered channelIds channels).map Channel.id = channelIds :=
  map_insertionSort perm (pairwise_lastIndexOf once maxSafeInteger) fun _ _ => rfl

theorem hasOrder_reorderChannels {other : String} {otherIds : List Int}
    (kept : other = serverId → ∀ server ∈ c.store.servers.find? (·.id = other),
      (reordered otherIds server.channels).map Channel.id = channelIds)
    (h : other ≠ serverId → HasOrder serverId channelIds c.store.servers) :
    HasOrder serverId channelIds (c.reorderChannels call other otherIds).store.servers := by
  rw [Client.reorderChannels]
  split
  · rename_i none
    by_cases same : other = serverId
    · intro server mem named
      exact absurd (List.find?_eq_none.mp none server mem) (by simp [named, same])
    · exact h same
  · rename_i prevServer found
    intro server mem named
    obtain ⟨old, listed, rfl⟩ := List.mem_map.mp mem
    split at named
    · rename_i same
      rw [if_pos same]
      exact kept (same.symm.trans named) prevServer found
    · rename_i apart
      rw [if_neg apart]
      exact h (fun same => apart (named.trans same.symm)) old listed named

theorem hasOrder_step (once : channelIds.Nodup) {e : ClientEvent} (keeps : c.KeepsOrder serverId channelIds e)
    (h : HasOrder serverId channelIds c.store.servers) : HasOrder serverId channelIds (c.step e).store.servers := by
  cases e with
  | action a => exact hasOrder_action keeps h
  | reorderChannels call other otherIds =>
    refine hasOrder_reorderChannels (fun same server found => ?_) fun _ => h
    have named : server.id = other := by simpa using List.find?_some found
    have ids : server.ids = channelIds := h server (List.mem_of_find?_eq_some found) (named.trans same)
    rw [keeps same]
    exact ids_reordered once (List.Perm.of_eq ids)
  | accepted call => exact h
  | failed call =>
    rw [Client.step, Client.rollBack]
    split
    · exact h
    · rename_i prevServers pending
      exact keeps prevServers pending

theorem showsStored_of_ordersKept (kept : OrdersKept c es) : ShowsStored c es := by
  intro before between call serverId requested answered channels updated distinct stored
  obtain ⟨once, -, ids⟩ := Api.ids_of_reorderChannels distinct stored
  obtain ⟨listsAll, along⟩ := kept before between call serverId (requested.map Int.ofNat) answered
  have once : (requested.map Int.ofNat).Nodup := once.map fun _ _ same => Int.ofNat.inj same
  have start : HasOrder serverId (requested.map Int.ofNat)
      ((c.after before).reorderChannels call serverId (requested.map Int.ofNat)).store.servers :=
    hasOrder_reorderChannels (fun _ server found => ids_reordered once (listsAll server found))
      fun apart => absurd rfl apart
  have order := Machine.invariant (fun c => HasOrder serverId (requested.map Int.ofNat) c.store.servers)
    (fun _ _ keeps h => hasOrder_step once keeps h) along start
  intro server mem named
  rw [after_append, after_cons, after_append] at mem
  rw [order server mem named, ← ids, List.map_map]
  rfl

/-! ## Runs -/

/-- A failed call leaves the store as the others alone do exactly when these keep the servers, and an accepted
one shows what was stored when they keep its order. -/
theorem reorder_transparent : (RollsBack c es ↔ OthersKeepServers c es) ∧ (OrdersKept c es → ShowsStored c es) :=
  ⟨rollsBack_iff, showsStored_of_ordersKept⟩

def oneServer : Client := ⟨⟨[homeServer], some "home", some "!general"⟩, fun _ => none⟩

/-- A channel is created while a reorder is awaited, and the reorder fails. -/
def createdMeanwhile : List ClientEvent :=
  [.reorderChannels 0 "home" [2, 1], .action (.createChannel "home" ⟨5, "plans", "!plans"⟩), .failed 0]

/-- The channel that was created meanwhile is lost. -/
theorem created_channel_lost : ¬ RollsBack oneServer createdMeanwhile ∧
    (oneServer.after createdMeanwhile).store = oneServer.store := by
  have lost : (oneServer.after createdMeanwhile).store = oneServer.store := by decide
  refine ⟨fun rollsBack => ?_, lost⟩
  have answered : Answered oneServer createdMeanwhile []
      [.action (.createChannel "home" ⟨5, "plans", "!plans"⟩)] 0 "home" [2, 1] (.failed 0) :=
    ⟨List.prefix_rfl, by simp [ClientEvent.call], homeServer, List.mem_cons_self, rfl⟩
  have same := rollsBack _ _ 0 "home" [2, 1] answered
  exact absurd (lost.symm.trans same) (by decide)

end Concorrd.Sidebar
