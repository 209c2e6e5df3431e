import Concorrd.Porch.Channels

/-!
# Knock to enter

The lifecycle of a knock: filed once per channel and peer while one is pending, then
accepted, rejected or withdrawn. Accepting is the one write of the porch that stamps two
rows. It gives the knock the next lamport and the access row one more, by an addition that
wraps.
-/

namespace Concorrd

/-- A knock as callers see it. -/
structure Knock where
  id : String
  channelId : String
  knockerPeerId : String
  message : Option String
  status : KnockStatus
  createdAt : Int64
  resolvedAt : Option Int64
  deriving DecidableEq, Repr

/-- Cap on the message of a knock. -/
def maxKnockMessageBytes : Nat := 1024

/-- A stored knock. A status the enumeration does not know reads as pending. -/
def ChannelKnockCols.toKnock (cols : ChannelKnockCols) : Knock where
  id := cols.id
  channelId := cols.channelId
  knockerPeerId := cols.knockerPeerId
  message := cols.message
  status := (KnockStatus.fromStr cols.status).getD .pending
  createdAt := cols.createdAt
  resolvedAt := cols.resolvedAt

namespace Porch

/-- The pending knock of a peer on a channel. -/
def lookupKnockPending (p : Porch) (channelId knockerPeerId : String) : Option Knock :=
  ((p.tables .channelKnocks).rows.find? fun row =>
    row.cols.channelId = channelId ∧ row.cols.knockerPeerId = knockerPeerId ∧
      row.cols.status = "pending").map fun row => row.cols.toKnock

/-- The knock with an id. -/
def lookupKnockById (p : Porch) (knockId : String) : Option Knock :=
  (p.db.find? .channelKnocks knockId).map fun row => row.cols.toKnock

/-- Record a knock, or return the one that is pending. -/
def knock (p : Porch) (channelId knockerPeerId : String) (message : Option String) (id : String)
    (now : Int64) : Except PorchError (Outcome Knock) :=
  if (p.getChannel channelId).isNone then
    .error (.channelNotFound channelId)
  else if (message.elim 0 String.utf8ByteSize) > maxKnockMessageBytes then
    .error (.invalidInput ("knock message too large: " ++
      toString (message.elim 0 String.utf8ByteSize) ++ " > " ++ toString maxKnockMessageBytes))
  else
    match p.lookupKnockPending channelId knockerPeerId with
    | some existing => .ok ⟨p, [], existing⟩
    | none =>
      let cols : ChannelKnockCols :=
        ⟨id, channelId, knockerPeerId, message, "pending", now, none⟩
      let row := p.stampRow .channelKnocks p.nextLamport cols
      p.finish [⟨.channelKnocks, row⟩] cols.toKnock (p.db.insert .channelKnocks row)

/-- `SET status, resolved_at, sync_device_id, sync_lamport` of a resolution. -/
def resolveSet (p : Porch) (status : KnockStatus) (now : Int64) (row : ChannelKnockRow) :
    ChannelKnockRow :=
  { row with
    cols := { row.cols with status := status.asStr, resolvedAt := some now }
    syncDeviceId := p.deviceId
    syncLamport := p.nextLamport }

/-- The stored row and the knock of an id, when it may be resolved: it exists, the caller
may resolve it, and it is pending. -/
def pendingKnock (p : Porch) (knockId : String) (mayResolve : Knock → Bool) :
    Except PorchError (ChannelKnockRow × Knock) :=
  match p.db.find? .channelKnocks knockId with
  | none => .error (.invalidInput ("knock not found: " ++ knockId))
  | some row =>
    let knock := row.cols.toKnock
    if mayResolve knock = false then
      .error (.accessDenied knock.channelId)
    else if knock.status ≠ .pending then
      .error (.invalidInput ("knock " ++ knockId ++ " is not pending (status=" ++
        knock.status.asStr ++ ")"))
    else .ok (row, knock)

/-- `UPDATE channel_knocks SET … WHERE id = knock_id` -/
def updateKnock (p : Porch) (knockId : String) (status : KnockStatus) (now : Int64) :
    Except PorchError Database :=
  p.db.updateWhere .channelKnocks (fun r => r.key = knockId) (p.resolveSet status now)
    fun _ => rfl

/-- Resolve a pending knock without touching access: the body of a reject and a withdraw. -/
def resolveKnock (p : Porch) (knockId : String) (mayResolve : Knock → Bool)
    (status : KnockStatus) (now : Int64) : Except PorchError (Outcome Knock) :=
  match p.pendingKnock knockId mayResolve with
  | .error e => .error e
  | .ok (row, knock) =>
    p.finish [⟨.channelKnocks, p.resolveSet status now row⟩]
      { knock with status := status, resolvedAt := some now } (p.updateKnock knockId status now)

/-- Reject a knock. -/
def rejectKnock (p : Porch) (knockId : String) (now : Int64) : Except PorchError (Outcome Knock) :=
  p.resolveKnock knockId (fun _ => true) .rejected now

/-- Withdraw a knock. Only the knocker may. -/
def withdrawKnock (p : Porch) (knockId knockerPeerId : String) (now : Int64) :
    Except PorchError (Outcome Knock) :=
  p.resolveKnock knockId (fun knock => knock.knockerPeerId = knockerPeerId) .withdrawn now

/-- The access row an accept grants, one lamport above the knock. -/
def acceptGrant (p : Porch) (knock : Knock) (now : Int64) : ChannelAclRow :=
  p.stampRow .channelAcl (p.nextLamport + 1)
    ⟨knock.channelId, knock.knockerPeerId, AclRole.member.asStr, now⟩

/-- Accept a knock: flip its status and grant its peer membership, in one transaction. -/
def acceptKnock (p : Porch) (knockId : String) (now : Int64) : Except PorchError (Outcome Knock) :=
  match p.pendingKnock knockId fun _ => true with
  | .error e => .error e
  | .ok (row, knock) =>
    match p.updateKnock knockId .accepted now with
    | .error e => .error e
    | .ok db =>
      let grant := p.acceptGrant knock now
      p.finish [⟨.channelKnocks, p.resolveSet .accepted now row⟩, ⟨.channelAcl, grant⟩]
        { knock with status := .accepted, resolvedAt := some now }
        (db.upsert .channelAcl grant (grantConflict grant) fun _ => rfl)

/-- The keys an accept writes: the knock, and the access of its peer. -/
def acceptKeys (p : Porch) (knockId : String) : List RowKey :=
  (p.lookupKnockById knockId).elim [] fun knock =>
    [⟨.channelKnocks, knockId⟩, ⟨.channelAcl, (knock.channelId, knock.knockerPeerId)⟩]

variable {p : Porch} {knockId : String} {now : Int64} {out : Outcome Knock}

theorem localWrite_knock {channelId knockerPeerId : String} {message : Option String}
    {id : String} (h : p.knock channelId knockerPeerId message id now = .ok out) :
    LocalWrite p out [⟨.channelKnocks, id⟩] [p.nextLamport] := by
  unfold knock at h
  split at h
  · cases h
  split at h
  · cases h
  cases hp : p.lookupKnockPending channelId knockerPeerId with
  | some existing =>
    simp only [hp, Except.ok.injEq] at h
    exact h ▸ .of_none
  | none =>
    simp only [hp] at h
    obtain ⟨db, hdb, rfl⟩ := finish_eq_ok h
    exact .of_one (Database.puts_of_insert hdb).2 rfl rfl rfl

/-- A knock that may be resolved is stored under its id and pending. -/
theorem pendingKnock_eq_ok {mayResolve : Knock → Bool} {row : ChannelKnockRow} {knock : Knock}
    (h : p.pendingKnock knockId mayResolve = .ok (row, knock)) :
    p.db.find? .channelKnocks knockId = some row ∧ knock = row.cols.toKnock := by
  unfold pendingKnock at h
  cases hf : p.db.find? .channelKnocks knockId with
  | none =>
    rw [hf] at h
    cases h
  | some found =>
    simp only [hf] at h
    split at h
    · cases h
    split at h
    · cases h
    cases h
    exact ⟨rfl, rfl⟩

/-- An UPDATE of a stored knock writes the resolved row. -/
theorem puts_of_updateKnock {status : KnockStatus} {row : ChannelKnockRow} {db : Database}
    (h : p.updateKnock knockId status now = .ok db)
    (hf : p.db.find? .channelKnocks knockId = some row) :
    p.tables.Puts ⟨.channelKnocks, p.resolveSet status now row⟩ db.tables :=
  Database.puts_of_updateWhere_key h hf

/-- A resolution of a knock that is there is committed. -/
theorem exists_updateKnock {status : KnockStatus} {row : ChannelKnockRow}
    (resolves : status ≠ .pending) (now : Int64)
    (found : p.db.find? .channelKnocks knockId = some row) :
    ∃ db, p.updateKnock knockId status now = .ok db ∧
      (db.tables .channelKnocks).rows = (p.tables .channelKnocks).rows.map (fun r =>
        if r.key = knockId then p.resolveSet status now r else r) ∧
      ∀ t ≠ .channelKnocks, db.tables t = p.tables t := by
  have admits : p.tables.Admits ⟨.channelKnocks, p.resolveSet status now row⟩ :=
    { check := by cases status <;> rfl
      entry := fun s _ entry hentry => by
        cases status with
        | pending => exact absurd rfl resolves
        | accepted => cases hentry
        | rejected => cases hentry
        | withdrawn => cases hentry
      parent := fun channel hc => by
        refine p.db.parents .channelKnocks (SyncedTable.mem_all _) row
          (KeyedTable.mem_of_find? found) channel hc }
  have puts : p.tables.Puts ⟨.channelKnocks, p.resolveSet status now row⟩
      (Function.update p.tables .channelKnocks ((p.tables .channelKnocks).updateWhere
        (fun r => r.key = knockId) (p.resolveSet status now) fun _ => rfl)) :=
    SyncedTables.puts_update (KeyedTable.puts_updateWhere_key found)
  obtain ⟨db, hdb⟩ := (Database.exists_commit_iff puts).mpr admits
  have updated : p.updateKnock knockId status now = .ok db := hdb
  obtain ⟨rows, frame⟩ := Database.rows_of_updateWhere updated
  refine ⟨db, updated, rows.trans (List.map_congr_left fun r _ => ?_), frame⟩
  simp only [decide_eq_true_eq]

theorem localWrite_resolveKnock {mayResolve : Knock → Bool} {status : KnockStatus}
    (h : p.resolveKnock knockId mayResolve status now = .ok out) :
    LocalWrite p out [⟨.channelKnocks, knockId⟩] [p.nextLamport] := by
  unfold resolveKnock at h
  split at h
  · cases h
  rename_i row knock hk
  obtain ⟨db, hdb, rfl⟩ := finish_eq_ok h
  have hf := (pendingKnock_eq_ok hk).1
  have hkey : row.key = knockId := KeyedTable.key_of_find? hf
  exact .of_one (puts_of_updateKnock hdb hf) hkey rfl rfl

theorem localWrite_rejectKnock (h : p.rejectKnock knockId now = .ok out) :
    LocalWrite p out [⟨.channelKnocks, knockId⟩] [p.nextLamport] :=
  localWrite_resolveKnock h

theorem localWrite_withdrawKnock {knockerPeerId : String}
    (h : p.withdrawKnock knockId knockerPeerId now = .ok out) :
    LocalWrite p out [⟨.channelKnocks, knockId⟩] [p.nextLamport] :=
  localWrite_resolveKnock h

/-- What an accept writes: the resolved knock, then the grant. -/
theorem acceptKnock_eq_ok (h : p.acceptKnock knockId now = .ok out) :
    ∃ (row : ChannelKnockRow) (db : Database),
      p.db.find? .channelKnocks knockId = some row ∧
      p.tables.Puts ⟨.channelKnocks, p.resolveSet .accepted now row⟩ db.tables ∧
      db.tables.Puts ⟨.channelAcl, p.acceptGrant row.cols.toKnock now⟩ out.porch.tables ∧
      out.porch = { p with db := out.porch.db } ∧
      out.written = [⟨.channelKnocks, p.resolveSet .accepted now row⟩,
        ⟨.channelAcl, p.acceptGrant row.cols.toKnock now⟩] := by
  unfold acceptKnock at h
  split at h
  · cases h
  rename_i row knock hk
  obtain ⟨hf, rfl⟩ := pendingKnock_eq_ok hk
  split at h
  · cases h
  rename_i db hdb
  obtain ⟨db', hdb', rfl⟩ := finish_eq_ok h
  exact ⟨row, db, hf, puts_of_updateKnock hdb hf,
    Database.puts_of_upsert (fun _ hkey => grantConflict_eq hkey rfl) hdb', rfl, rfl⟩

theorem localWrite_acceptKnock (h : p.acceptKnock knockId now = .ok out) :
    LocalWrite p out (p.acceptKeys knockId) [p.nextLamport, p.nextLamport + 1] := by
  obtain ⟨row, db, hf, hknock, hgrant, rest, written⟩ := acceptKnock_eq_ok h
  refine ⟨rest, ?_, ?_, ?_, ?_, ?_⟩
  · rw [written]
    exact ⟨db.tables, hknock, SyncedTables.putsAll_singleton hgrant⟩
  · rw [written, List.map_cons, List.map_singleton, List.nodup_cons]
    refine ⟨fun hm => ?_, List.nodup_singleton _⟩
    cases congrArg RowKey.table (List.mem_singleton.mp hm)
  · intro x hx
    rw [written] at hx
    rcases List.mem_cons.mp hx with rfl | hx
    · rfl
    · rw [List.mem_singleton.mp hx]
      rfl
  · rw [written, acceptKeys, lookupKnockById, hf, ← KeyedTable.key_of_find? hf]
    exact .inr rfl
  · rw [written]
    exact .inr rfl

end Porch

end Concorrd
