import Concorrd.Porch.State

/-!
# Channels, messages and access

The writes of the porch's own module: posting a message, granting and revoking access, and
inserting a channel. The current time and the fresh ULID are arguments.
-/

namespace Concorrd

/-- The channel every fresh install has. -/
def defaultPorchChannelId : String := "porch-default"

/-- Its display name. -/
def defaultPorchChannelName : String := "Porch"

/-- Body cap of a message. -/
def maxMessageBodyBytes : Nat := 64 * 1024

/-- Public record of a channel. -/
structure PorchChannel where
  id : String
  name : String
  kind : ChannelKind
  aclMode : AclMode
  createdAt : Int64
  deriving DecidableEq, Repr

/-- Public record of a message. -/
abbrev ChannelMessage := ChannelMessageCols

/-- A stored channel, with the closed default for a text the enumeration does not know. -/
def PorchChannelCols.toChannel (cols : PorchChannelCols) : PorchChannel where
  id := cols.id
  name := cols.name
  kind := (ChannelKind.fromStr cols.kind).getD .inner
  aclMode := (AclMode.fromStr cols.aclMode).getD .ownerOnly
  createdAt := cols.createdAt

namespace Porch

/-- Fetch a channel by id, tombstoned or not. -/
def getChannel (p : Porch) (channelId : String) : Option PorchChannel :=
  (p.db.find? .porchChannels channelId).map fun row => row.cols.toChannel

/-- Append a message to a channel. -/
def postMessage (p : Porch) (channelId authorPeerId body id : String) (now : Int64) :
    Except PorchError (Outcome ChannelMessage) :=
  if body.isEmpty then
    .error (.invalidInput "message body must not be empty")
  else if body.utf8ByteSize > maxMessageBodyBytes then
    .error (.invalidInput ("message body too large: " ++ toString body.utf8ByteSize ++ " > " ++
      toString maxMessageBodyBytes))
  else if (p.getChannel channelId).isNone then
    .error (.channelNotFound channelId)
  else
    let cols : ChannelMessageCols := ⟨id, channelId, authorPeerId, body, now⟩
    let row := p.stampRow .channelMessages p.nextLamport cols
    p.finish [⟨.channelMessages, row⟩] cols (p.db.insert .channelMessages row)

/-- `ON CONFLICT(channel_id, peer_id) DO UPDATE SET …` of a grant. -/
def grantConflict (new old : ChannelAclRow) : ChannelAclRow :=
  { old with
    cols := { old.cols with role := new.cols.role, grantedAt := new.cols.grantedAt }
    syncDeviceId := new.syncDeviceId
    syncLamport := new.syncLamport
    syncTombstone := 0 }

/-- Grant or update the access of a peer. -/
def grantAcl (p : Porch) (channelId peerId : String) (role : AclRole) (now : Int64) :
    Except PorchError (Outcome Unit) :=
  if (p.getChannel channelId).isNone then
    .error (.channelNotFound channelId)
  else
    let row := p.stampRow .channelAcl p.nextLamport ⟨channelId, peerId, role.asStr, now⟩
    p.finish [⟨.channelAcl, row⟩] () (p.db.upsert .channelAcl row (grantConflict row) fun _ => rfl)

/-- `SET sync_tombstone = 1, sync_device_id, sync_lamport` of a revoke. -/
def revokeSet (p : Porch) (row : ChannelAclRow) : ChannelAclRow :=
  { row with syncTombstone := 1, syncDeviceId := p.deviceId, syncLamport := p.nextLamport }

/-- Revoke access. The row stays as a tombstone; the answer says whether one was alive. -/
def revokeAcl (p : Porch) (channelId peerId : String) : Except PorchError (Outcome Bool) :=
  match p.db.find? .channelAcl (channelId, peerId) with
  | some row =>
    if row.syncTombstone = 0 then
      p.finish [⟨.channelAcl, p.revokeSet row⟩] true
        (p.db.updateWhere .channelAcl (fun r => r.key = (channelId, peerId)) p.revokeSet
          fun _ => rfl)
    else .ok ⟨p, [], false⟩
  | none => .ok ⟨p, [], false⟩

/-- Insert a channel, or do nothing when the id is taken. -/
def insertChannel (p : Porch) (id name : String) (kind : ChannelKind) (aclMode : AclMode)
    (now : Int64) : Except PorchError (Outcome PorchChannel) :=
  let row := p.stampRow .porchChannels p.nextLamport ⟨id, name, kind.asStr, aclMode.asStr, now⟩
  let answer : PorchChannel := ⟨id, name, kind, aclMode, now⟩
  match p.db.find? .porchChannels id with
  | some _ => .ok ⟨p, [], answer⟩
  | none => p.finish [⟨.porchChannels, row⟩] answer (p.db.insert .porchChannels row)

variable {p : Porch} {channelId peerId : String} {now : Int64}

theorem localWrite_postMessage {authorPeerId body id : String} {out : Outcome ChannelMessage}
    (h : p.postMessage channelId authorPeerId body id now = .ok out) :
    LocalWrite p out [⟨.channelMessages, id⟩] [p.nextLamport] := by
  unfold postMessage at h
  split at h
  · cases h
  split at h
  · cases h
  split at h
  · cases h
  obtain ⟨db, hdb, rfl⟩ := finish_eq_ok h
  exact .of_one (Database.puts_of_insert hdb).2 rfl rfl rfl

/-- On a conflict the grant leaves the row it would have inserted. -/
theorem grantConflict_eq {new old : ChannelAclRow} (hk : old.key = new.key)
    (alive : new.syncTombstone = 0) : grantConflict new old = new := by
  obtain ⟨⟨channel, peer, role, at_⟩, device, lamport, tombstone⟩ := new
  obtain ⟨⟨channel', peer', role', at'⟩, device', lamport', tombstone'⟩ := old
  cases hk
  cases alive
  rfl

theorem localWrite_grantAcl {role : AclRole} {out : Outcome Unit}
    (h : p.grantAcl channelId peerId role now = .ok out) :
    LocalWrite p out [⟨.channelAcl, (channelId, peerId)⟩] [p.nextLamport] := by
  unfold grantAcl at h
  split at h
  · cases h
  obtain ⟨db, hdb, rfl⟩ := finish_eq_ok h
  exact .of_one (Database.puts_of_upsert (fun _ hk => grantConflict_eq hk rfl) hdb) rfl rfl rfl

theorem localWrite_revokeAcl {out : Outcome Bool} (h : p.revokeAcl channelId peerId = .ok out) :
    LocalWrite p out [⟨.channelAcl, (channelId, peerId)⟩] [p.nextLamport] := by
  unfold revokeAcl at h
  cases hf : p.db.find? .channelAcl (channelId, peerId) with
  | none =>
    simp only [hf, Except.ok.injEq] at h
    exact h ▸ .of_none
  | some row =>
    simp only [hf] at h
    split at h
    · obtain ⟨db, hdb, rfl⟩ := finish_eq_ok h
      have hkey : row.key = (channelId, peerId) := KeyedTable.key_of_find? hf
      exact .of_one (Database.puts_of_updateWhere_key hdb hf) hkey rfl rfl
    · cases h
      exact .of_none

theorem localWrite_insertChannel {id name : String} {kind : ChannelKind} {aclMode : AclMode}
    {out : Outcome PorchChannel} (h : p.insertChannel id name kind aclMode now = .ok out) :
    LocalWrite p out [⟨.porchChannels, id⟩] [p.nextLamport] := by
  unfold insertChannel at h
  cases hf : p.db.find? .porchChannels id with
  | some row =>
    simp only [hf, Except.ok.injEq] at h
    exact h ▸ .of_none
  | none =>
    simp only [hf] at h
    obtain ⟨db, hdb, rfl⟩ := finish_eq_ok h
    exact .of_one (Database.puts_of_insert hdb).2 rfl rfl rfl

end Porch

end Concorrd
