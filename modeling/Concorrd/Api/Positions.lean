import Mathlib.Logic.Function.Basic
import Concorrd.Lib.Run
import Concorrd.Api.Channels
import Concorrd.Api.Reorder

/-!
# The positions of channels

`create_channel`, `start_extension`, `delete_channel` and `reorder_channels` take turns at every statement
and at every call of the homeserver. A `SELECT` reads what is committed, and a commit writes what its
session holds: a creator the position it has read before, a reorder the channels whose position differs
from the one it has loaded. What the members and the servers are, none of them changes.
-/

namespace Concorrd.Api

open Machine Ranked

inductive ChannelRequest where
  | create (serverId : String) (body : ChannelCreate) (userId : String)
  | start (serverId extensionId userId : String)
  | delete (serverId : String) (channelId : Nat) (userId : String)
  | reorder (serverId : String) (order : List Nat) (userId : String)

/-- How far a request has come. A channel that is `placed` waits for its room. -/
inductive ChannelPhase where
  | arrived (request : ChannelRequest)
  | creating (serverId : String) (body : ChannelCreate)
  | starting (serverId extensionId : String) (extension : Extension)
  | named (serverId extensionId name : String)
  | placed (channel : Channel)
  | deleting (serverId : String) (channelId : Nat)
  | ordering (serverId : String) (order : List Nat)
  | loaded (serverId : String) (channels : List (Row Channel)) (order : List Nat)
  | ended

/-- The next statement of a request, with the room that the homeserver answered. Any may fail. -/
structure ChannelTurn where
  request : Nat
  fails : Bool := false
  room : String := ""

structure ChannelRun where
  db : Db
  phase : Nat → ChannelPhase

/-! ## Reading -/

section

variable (config : Config) (db : Db)

/-- What a request is let in to do. -/
def admitRequest : ChannelRequest → Except HttpError ChannelPhase
  | .create serverId body userId => do
    let member ← requireServerMember db serverId userId
    let server ← found (db.server? serverId) ⟨404, "Server not found", none⟩
    refuse (member.role = .member ∧ server.allowUserChannelCreation = false)
      ⟨403, "Channel creation requires admin role or server permission", none⟩
    return .creating serverId body
  | .start serverId extensionId userId => do
    let _ ← requireServerMember db serverId userId
    let _ ← found (db.server? serverId) ⟨404, "Server not found", none⟩
    let extension ← found (config.catalog.find? fun extension => extension.id = extensionId)
      ⟨404, notInstalled extensionId, none⟩
    return .starting serverId extensionId extension
  | .delete serverId channelId userId => do
    let _ ← deleteChannel db serverId channelId userId
    return .deleting serverId channelId
  | .reorder serverId order userId => do
    let _ ← requireServerOwner db serverId userId
    let _ ← found (db.server? serverId) ⟨404, "Server not found", none⟩
    return .ordering serverId order

/-- The first name for the app channel that is free. -/
def freeName (serverId extensionId : String) (extension : Extension) : Option String :=
  let base := safeBase (if extension.name = "" then extensionId else extension.name)
  let base := if base = "" then extensionId else base
  (candidates base).find? fun name =>
    name ∉ (db.channelsOf serverId).map fun channel => channel.val.name

/-- Where a request gets to that reads the channels. -/
def ChannelPhase.next : ChannelPhase → Except HttpError ChannelPhase
  | .arrived request => admitRequest config db request
  | .creating serverId body => do
    let (extensionId, appAccess) ← body.mount config
    return .placed
      { serverId, matrixRoomId := "", name := body.name, channelType := body.channelType,
        position := nextPosition db serverId, extensionId, appAccess }
  | .starting serverId extensionId extension => do
    let name ← found (freeName db serverId extensionId extension)
      ⟨409, "Too many app channels for this extension on this server", none⟩
    return .named serverId extensionId name
  | .named serverId extensionId name =>
    return .placed
      { serverId, matrixRoomId := "", name, channelType := .app, position := nextPosition db serverId,
        extensionId := some extensionId, appAccess := some "all" }
  | .ordering serverId order => do
    checkOrder ((db.channelsOf serverId).map Row.id) order
    return .loaded serverId (db.channelsOf serverId) order
  | phase => return phase

end

/-! ## Writing -/

section

variable (channels : List (Row Channel)) (order : List Nat)

/-- The loaded channels that the order has in another position than the loaded one. -/
def dirty : List Nat :=
  (channels.filter fun row => (row.val.placed order row.id).position ≠ row.val.position).map Row.id

/-- A row after the updates of the flush. -/
def written (row : Row Channel) : Row Channel :=
  if row.id ∈ dirty channels order then ⟨row.id, row.val.placed order row.id⟩ else row

/-- The updates of a reorder. The flush fails when a row that it is to update is gone. -/
def storeOrder (db : Db) : Option Db :=
  if dirty channels order ⊆ db.channels.ids then
    some { db with channels := db.channels.map (written channels order) }
  else none

end

namespace ChannelRun

/-- No request has begun. -/
def opened (db : Db) (requests : Nat → ChannelRequest) : ChannelRun where
  db
  phase n := .arrived (requests n)

variable (config : Config) (s : ChannelRun)

def moved (n : Nat) (phase : ChannelPhase) : ChannelRun :=
  { s with phase := Function.update s.phase n phase }

/-- The request reads, and ends when it is refused. -/
def read (n : Nat) : ChannelRun :=
  match (s.phase n).next config s.db with
  | .ok phase => s.moved n phase
  | .error _ => s.moved n .ended

/-- The request ends, with what its session wrote unless the commit fails. -/
def commit (n : Nat) (after : Option Db) : ChannelRun :=
  { s.moved n .ended with db := after.getD s.db }

/-- The next statement of a request, when it does not fail. -/
def proceed (t : ChannelTurn) : ChannelRun :=
  match s.phase t.request with
  | .placed channel => s.commit t.request (s.db.apply (.addChannel { channel with matrixRoomId := t.room }))
  | .deleting _ channelId => s.commit t.request (s.db.apply (.deleteChannel channelId))
  | .loaded _ channels order => s.commit t.request (storeOrder channels order s.db)
  | _ => s.read config t.request

def step (t : ChannelTurn) : ChannelRun :=
  if t.fails then s.moved t.request .ended else s.proceed config t

end ChannelRun

/-! ## What is to hold of a step -/

namespace Db

variable (db : Db)

def positions (serverId : String) : List Nat :=
  (db.channelsOf serverId).map fun row => row.val.position

/-- The channels of each server have pairwise distinct positions. -/
def PositionsDistinct : Prop := ∀ serverId, (db.positions serverId).Nodup

/-- The channels of a server, in the order of their positions. -/
def channelOrder (serverId : String) : List Nat :=
  ((db.channelsOf serverId).insertionSort fun a b => a.val.position ≤ b.val.position).map Row.id

/-- Where a reorder is to have a channel: at its place in the order, or where it stands if the flush
leaves it alone. -/
def placeIn (channels : List (Row Channel)) (order : List Nat) (id : Nat) : Nat :=
  if id ∈ dirty channels order then (lastIndexOf id order).getD 0
  else ((db.channels.get id).map Channel.position).getD 0

end Db

/-- The server whose channels the next statement of a request writes. -/
def ChannelPhase.serverId? : ChannelPhase → Option String
  | .placed channel => some channel.serverId
  | .deleting serverId _ => some serverId
  | .loaded serverId _ _ => some serverId
  | _ => none

/-- Positions stay distinct, a reorder is stored as a whole or not at all, and what remains of the
channels of other servers is as it was. -/
structure ChannelRun.Keeps (s : ChannelRun) (t : ChannelTurn) (s' : ChannelRun) : Prop where
  distinct : s'.db.PositionsDistinct
  whole : ∀ serverId channels order, s.phase t.request = .loaded serverId channels order →
    s'.db.channels = s.db.channels ∨ s'.db.channelOrder serverId = order
  others : ∀ row ∈ s.db.channels, (s.phase t.request).serverId? ≠ some row.val.serverId →
    ∀ row' ∈ s'.db.channels, row'.id = row.id → row' = row

/-- The position of a new channel is still free, and a reorder whose updates change a row writes the
channels that the server has, with those that it leaves alone in order among those that it writes. -/
def ChannelRun.Current (s : ChannelRun) (t : ChannelTurn) : Prop :=
  t.fails = false → match s.phase t.request with
    | .placed channel => (∃ other ∈ s.db.channels, other.val.matrixRoomId = t.room) ∨
        ∀ row ∈ s.db.channelsOf channel.serverId, row.val.position ≠ channel.position
    | .loaded serverId channels order => ¬dirty channels order ⊆ s.db.channels.ids ∨
        (∀ row ∈ s.db.channels, written channels order row = row) ∨
        ((s.db.channelsOf serverId).map Row.id).Perm order ∧
          order.Pairwise fun a b => s.db.placeIn channels order a < s.db.placeIn channels order b
    | _ => True

/-! ## What a statement does -/

section

variable {db : Db} {serverId : String} {channels : List (Row Channel)} {order : List Nat}
  {row : Row Channel} {channel : Channel}

@[simp] theorem id_written : (written channels order row).id = row.id := by
  rw [written]
  split <;> rfl

@[simp] theorem serverId_written : (written channels order row).val.serverId = row.val.serverId := by
  rw [written]
  split <;> rfl

theorem ids_written {rows : List (Row Channel)} :
    (rows.map (written channels order)).map Row.id = rows.map Row.id := by
  rw [List.map_map]
  exact List.map_congr_left fun row _ => id_written

theorem dirty_subset : dirty channels order ⊆ channels.map Row.id :=
  List.map_subset _ (List.filter_subset_self _)

theorem channelsOf_written :
    Db.channelsOf { db with channels := db.channels.map (written channels order) } serverId =
      (db.channelsOf serverId).map (written channels order) := by
  simp only [Db.channelsOf, List.filter_map]
  congr 2
  funext row
  simp

theorem mem_channelsOf : row ∈ db.channelsOf serverId ↔ row ∈ db.channels ∧ row.val.serverId = serverId := by
  simp [Db.channelsOf, List.mem_filter]

theorem position_written (ids : db.channels.ids.Nodup) (mem : row ∈ db.channels) (placed : row.id ∈ order) :
    (written channels order row).val.position = db.placeIn channels order row.id := by
  rw [written, Db.placeIn]
  split
  · obtain ⟨i, found⟩ := Option.isSome_iff_exists.mp (isSome_lastIndexOf placed)
    simp [Channel.placed, found]
  · rw [RowTable.get_of_mem ids mem]
    rfl

/-- A new channel takes a position of its own server. -/
theorem distinct_insert (distinct : db.PositionsDistinct) :
    Db.PositionsDistinct { db with channels := db.channels.insert channel } ↔
      ∀ row ∈ db.channelsOf channel.serverId, row.val.position ≠ channel.position := by
  have after (serverId : String) :
      Db.positions { db with channels := db.channels.insert channel } serverId =
        db.positions serverId ++ if channel.serverId = serverId then [channel.position] else [] := by
    simp only [Db.positions, Db.channelsOf, RowTable.insert, List.filter_append, List.map_append,
      List.filter_singleton]
    split <;> simp_all
  simp only [Db.PositionsDistinct, after]
  constructor
  · intro apart row mem same
    have apart := apart channel.serverId
    rw [if_pos rfl] at apart
    exact (List.nodup_append.mp apart).2.2 _ (List.mem_map_of_mem mem) _ (List.mem_singleton_self _) same
  · intro free serverId
    split
    · rename_i here
      subst here
      refine List.nodup_append.mpr ⟨distinct _, List.nodup_singleton _, ?_⟩
      intro position taken other new
      obtain ⟨row, mem, rfl⟩ := List.mem_map.mp taken
      rw [List.mem_singleton.mp new]
      exact free row mem
    · rw [List.append_nil]
      exact distinct serverId

/-- A reorder of channels that were those of the server leaves the other servers alone. -/
theorem written_of_foreign (ids : db.channels.ids.Nodup) (loaded : channels.map Row.id ⊆ order)
    (same : ((db.channelsOf serverId).map Row.id).Perm order) (mem : row ∈ db.channels)
    (foreign : row.val.serverId ≠ serverId) : written channels order row = row := by
  rw [written]
  refine if_neg fun changed => foreign ?_
  obtain ⟨own, there, equal⟩ := List.mem_map.mp (same.symm.subset (loaded (dirty_subset changed)))
  obtain ⟨there, here⟩ := mem_channelsOf.mp there
  rwa [← List.inj_on_of_nodup_map ids there mem equal]

/-- The positions of the server after a reorder of the channels that it has. -/
theorem positions_written (ids : db.channels.ids.Nodup)
    (same : ((db.channelsOf serverId).map Row.id).Perm order) :
    Db.positions { db with channels := db.channels.map (written channels order) } serverId =
      ((db.channelsOf serverId).map Row.id).map (db.placeIn channels order) := by
  rw [Db.positions, channelsOf_written, List.map_map, List.map_map]
  refine List.map_congr_left fun row mem => ?_
  exact position_written ids (mem_channelsOf.mp mem).1 (same.subset (List.mem_map_of_mem mem))

/-- The order of the channels after a reorder is the one that was asked for when the server has those
channels and each is to be behind the one before it. -/
theorem channelOrder_written (ids : db.channels.ids.Nodup)
    (distinct : Db.PositionsDistinct { db with channels := db.channels.map (written channels order) }) :
    Db.channelOrder { db with channels := db.channels.map (written channels order) } serverId = order ↔
      ((db.channelsOf serverId).map Row.id).Perm order ∧
        order.Pairwise fun a b => db.placeIn channels order a < db.placeIn channels order b := by
  have placed (same : ((db.channelsOf serverId).map Row.id).Perm order) :
      ∀ row ∈ (db.channelsOf serverId).map (written channels order),
        row.val.position = db.placeIn channels order row.id := by
    intro row mem
    obtain ⟨before, there, rfl⟩ := List.mem_map.mp mem
    rw [id_written]
    exact position_written ids (mem_channelsOf.mp there).1 (same.subset (List.mem_map_of_mem there))
  rw [Db.channelOrder, channelsOf_written]
  constructor
  · intro sorted
    have kept := List.perm_insertionSort (fun a b => a.val.position ≤ b.val.position)
      ((db.channelsOf serverId).map (written channels order))
    have same : ((db.channelsOf serverId).map Row.id).Perm order := by
      rw [← sorted, ← ids_written]
      exact (kept.map Row.id).symm
    refine ⟨same, ?_⟩
    have apart := distinct serverId
    rw [Db.positions, channelsOf_written] at apart
    have apart := List.pairwise_map.mp ((kept.map fun row => row.val.position).nodup_iff.mpr apart)
    have grows := (List.pairwise_insertionSort (fun a b => a.val.position ≤ b.val.position)
      ((db.channelsOf serverId).map (written channels order))).and apart
    -- the order is the ids of the sorted rows, and the places of two of them are their positions
    refine Eq.mp (congrArg (List.Pairwise _) sorted)
      (List.pairwise_map.mpr (grows.imp_of_mem fun {a b} ha hb less => ?_))
    rw [← placed same a (kept.subset ha), ← placed same b (kept.subset hb)]
    exact Nat.lt_of_le_of_ne less.1 less.2
  · rintro ⟨same, grows⟩
    exact map_insertionSort (by rwa [ids_written]) grows (placed same)

end

/-- What a reorder has loaded passed its checks. -/
theorem loaded_of_next {config : Config} {db : Db} {phase : ChannelPhase} {serverId : String}
    {channels : List (Row Channel)} {order : List Nat}
    (h : phase.next config db = .ok (.loaded serverId channels order)) :
    phase = .loaded serverId channels order ∨ channels.map Row.id ⊆ order := by
  cases phase with
  | arrived request =>
    cases request with
    | create | start | reorder =>
      simp only [ChannelPhase.next, admitRequest, requireServerMember_bind, requireServerOwner_bind, found_bind,
        refuse_bind, pure_eq_ok, reduceCtorEq, and_false, exists_false] at h
    | delete serverId channelId userId =>
      rw [ChannelPhase.next, admitRequest] at h
      cases allowed : deleteChannel db serverId channelId userId with
      | error e => rw [allowed] at h; cases h
      | ok reply => rw [allowed] at h; cases h
  | creating serverId body =>
    rw [ChannelPhase.next] at h
    cases mount : body.mount config with
    | error e => rw [mount] at h; cases h
    | ok mounted => rw [mount] at h; cases h
  | starting serverId extensionId extension =>
    simp only [ChannelPhase.next, found_bind, pure_eq_ok, reduceCtorEq, and_false, exists_false] at h
  | ordering serverId' order' =>
    rw [ChannelPhase.next] at h
    cases checked : checkOrder ((db.channelsOf serverId').map Row.id) order' with
    | error e => rw [checked] at h; cases h
    | ok u =>
      rw [checked] at h
      cases h
      exact .inr (checkOrder_eq_ok.mp checked).2.2
  | loaded => exact .inl (Except.ok.inj h)
  | named | placed | deleting | ended => cases h

namespace ChannelRun

/-- Ids and positions are distinct, and what a reorder holds it has checked. -/
structure Sound (s : ChannelRun) : Prop where
  ids : s.db.channels.ids.Nodup
  distinct : s.db.PositionsDistinct
  loaded : ∀ n serverId channels order, s.phase n = .loaded serverId channels order →
    channels.map Row.id ⊆ order

/-- What a turn may do, and whether it is current. -/
inductive Moves (s : ChannelRun) (t : ChannelTurn) : ChannelRun → Prop where
  | reads {phase : ChannelPhase} (current : s.Current t)
    (loaded : ∀ serverId channels order, phase = .loaded serverId channels order →
      channels.map Row.id ⊆ order) : Moves s t (s.moved t.request phase)
  | insert {channel : Channel} (here : s.phase t.request = .placed channel)
    (current : s.Current t ↔ ∀ row ∈ s.db.channelsOf channel.serverId, row.val.position ≠ channel.position) :
    Moves s t { s.moved t.request .ended with
      db := { s.db with channels := s.db.channels.insert { channel with matrixRoomId := t.room } } }
  | delete {serverId : String} {channelId : Nat} (here : s.phase t.request = .deleting serverId channelId)
    (current : s.Current t) :
    Moves s t { s.moved t.request .ended with
      db := { s.db with channels := s.db.channels.delete channelId } }
  | store {serverId : String} {channels : List (Row Channel)} {order : List Nat}
    (here : s.phase t.request = .loaded serverId channels order)
    (current : s.Current t ↔ (∀ row ∈ s.db.channels, written channels order row = row) ∨
      ((s.db.channelsOf serverId).map Row.id).Perm order ∧
        order.Pairwise fun a b => s.db.placeIn channels order a < s.db.placeIn channels order b) :
    Moves s t { s.moved t.request .ended with
      db := { s.db with channels := s.db.channels.map (written channels order) } }

variable {config : Config} {s s' : ChannelRun} {t : ChannelTurn}

/-- A turn does one of these. -/
theorem step_moves : Moves s t (s.step config t) := by
  have ends (current : s.Current t) : Moves s t (s.moved t.request .ended) :=
    .reads current (by rintro _ _ _ ⟨⟩)
  rw [step]
  split
  · rename_i fails
    exact ends fun works => absurd fails (by simp [works])
  · rename_i works
    have works : t.fails = false := by simpa using works
    have reads (next : ∀ serverId channels order, s.phase t.request ≠ .loaded serverId channels order)
        (current : s.Current t) : Moves s t (s.read config t.request) := by
      rw [read]
      cases reached : (s.phase t.request).next config s.db with
      | error e => exact ends current
      | ok phase =>
        refine .reads current ?_
        rintro serverId channels order rfl
        exact (loaded_of_next reached).resolve_left (next _ _ _)
    rw [proceed]
    cases here : s.phase t.request with
    | placed channel =>
      show Moves s t (s.commit t.request
        (if ∃ other ∈ s.db.channels, other.val.matrixRoomId = t.room then none
          else some { s.db with channels := s.db.channels.insert { channel with matrixRoomId := t.room } }))
      split
      · rename_i used
        exact ends (by simp [Current, here, used])
      · rename_i new
        exact .insert here (by simp [Current, here, works, new])
    | deleting serverId channelId => exact .delete here (by simp [Current, here])
    | loaded serverId channels order =>
      show Moves s t (s.commit t.request (storeOrder channels order s.db))
      rw [storeOrder]
      split
      · rename_i there
        exact .store here (by simp [Current, here, works, there])
      · rename_i gone
        exact ends (by simp [Current, here, gone])
    | arrived | creating | starting | named | ordering | ended =>
      simp only [here] at reads
      exact reads (by simp) (by simp [Current, here])

theorem row_eq (sound : s.Sound) {row row' : Row Channel} (mem : row ∈ s.db.channels)
    (mem' : row' ∈ s.db.channels) (same : row'.id = row.id) : row' = row :=
  List.inj_on_of_nodup_map sound.ids mem' mem same

/-- A turn keeps what is to hold of it exactly when it is current. -/
theorem keeps_iff (sound : s.Sound) (moves : Moves s t s') : s.Keeps t s' ↔ s.Current t := by
  cases moves with
  | reads current loaded =>
    refine iff_of_true ⟨sound.distinct, fun _ _ _ _ => .inl rfl, ?_⟩ current
    intro row mem _ row' mem' same
    exact row_eq sound mem mem' same
  | insert here current =>
    rename_i channel
    have free := @distinct_insert s.db { channel with matrixRoomId := t.room } sound.distinct
    refine Iff.trans ?_ (free.trans current.symm)
    refine ⟨fun keeps => keeps.distinct, fun distinct => ⟨distinct, ?_, ?_⟩⟩
    · intro serverId channels order loaded
      rw [here] at loaded
      cases loaded
    · intro row mem _ row' mem' same
      rcases RowTable.mem_insert.mp mem' with mem' | rfl
      · exact row_eq sound mem mem' same
      · have same : s.db.channels.nextId = row.id := same
        exact absurd (same ▸ List.mem_map_of_mem mem) s.db.channels.nextId_not_mem
  | delete here current =>
    refine iff_of_true ⟨?_, ?_, ?_⟩ current
    · intro serverId
      exact (sound.distinct serverId).sublist ((List.filter_sublist.filter _).map _)
    · intro serverId channels order loaded
      rw [here] at loaded
      cases loaded
    · intro row mem _ row' mem' same
      exact row_eq sound mem (RowTable.mem_delete.mp mem').1 same
  | store here current =>
    rename_i serverId channels order
    rw [current]
    constructor
    · intro keeps
      refine (keeps.whole _ _ _ here).imp (fun unchanged row mem => ?_) (channelOrder_written sound.ids keeps.distinct).mp
      exact List.map_inj_left.mp (unchanged.trans (List.map_id _).symm) row mem
    · rintro (unchanged | whole)
      · have same : s.db.channels.map (written channels order) = s.db.channels :=
          (List.map_congr_left unchanged).trans (List.map_id _)
        refine ⟨?_, fun _ _ _ _ => .inl same, ?_⟩
        · show Db.PositionsDistinct { s.db with channels := s.db.channels.map (written channels order) }
          rw [same]
          exact sound.distinct
        · intro row mem _ row' mem' equal
          exact row_eq sound mem (same ▸ mem') equal
      · have foreign {row : Row Channel} (mem : row ∈ s.db.channels) (other : row.val.serverId ≠ serverId) :
            written channels order row = row :=
          written_of_foreign sound.ids (sound.loaded _ _ _ _ here) whole.1 mem other
        have distinct : Db.PositionsDistinct { s.db with channels := s.db.channels.map (written channels order) } := by
          intro serverId'
          by_cases own : serverId' = serverId
          · rw [own, positions_written sound.ids whole.1]
            refine (whole.1.map _).nodup_iff.mpr (List.pairwise_map.mpr ?_)
            exact whole.2.imp fun less => Nat.ne_of_lt less
          · have same : (s.db.channelsOf serverId').map (written channels order) = s.db.channelsOf serverId' := by
              refine (List.map_congr_left fun row mem => ?_).trans (List.map_id _)
              obtain ⟨mem, there⟩ := mem_channelsOf.mp mem
              exact foreign mem (there ▸ own)
            rw [Db.positions, channelsOf_written, same]
            exact sound.distinct serverId'
        refine ⟨distinct, ?_, ?_⟩
        · intro serverId' channels' order' loaded
          rw [here] at loaded
          cases loaded
          exact .inr ((channelOrder_written sound.ids distinct).mpr whole)
        · intro row mem others row' mem' same
          obtain ⟨before, there, rfl⟩ := List.mem_map.mp mem'
          rw [id_written] at same
          cases row_eq sound mem there same
          exact foreign mem fun own => others (by rw [here, own]; rfl)

theorem sound_moves (sound : s.Sound) (moves : Moves s t s') (keeps : s.Keeps t s') : s'.Sound := by
  have phases {phase : ChannelPhase} (loaded : ∀ serverId channels order,
      phase = .loaded serverId channels order → channels.map Row.id ⊆ order) (n : Nat) (serverId : String)
      (channels : List (Row Channel)) (order : List Nat)
      (h : (s.moved t.request phase).phase n = .loaded serverId channels order) :
      channels.map Row.id ⊆ order := by
    by_cases same : n = t.request
    · subst same
      exact loaded _ _ _ ((Function.update_self ..).symm.trans h)
    · exact sound.loaded n _ _ _ ((Function.update_of_ne same ..).symm.trans h)
  have ended := @phases .ended (by rintro _ _ _ ⟨⟩)
  cases moves with
  | reads _ loaded => exact ⟨sound.ids, keeps.distinct, phases loaded⟩
  | insert => exact ⟨RowTable.nodup_insert sound.ids _, keeps.distinct, ended⟩
  | delete => exact ⟨RowTable.nodup_delete sound.ids _, keeps.distinct, ended⟩
  | store =>
    refine ⟨?_, keeps.distinct, ended⟩
    show (RowTable.ids (List.map _ _)).Nodup
    rw [RowTable.ids, ids_written]
    exact sound.ids

end ChannelRun

/-- A server without channels. -/
def emptyServer : Db where
  servers := [{ id := "srv", name := "Kitchen", ownerId := "@alice:localhost" }]
  members := [{ serverId := "srv", userId := "@alice:localhost", role := .owner }]

end Concorrd.Api
