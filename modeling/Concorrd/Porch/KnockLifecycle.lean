import Concorrd.Lib.Run
import Concorrd.Porch.LocalOp
import Concorrd.Porch.Migrate
import Concorrd.Porch.Readers

/-!
# The lifecycle of a knock

Whatever local writes follow one another on a porch, a peer has one pending knock at a channel at
most, a knock leaves the pending state once, only its author withdraws it, and an accept writes the
knock and the access of its peer. `lifecycle_iff` adds what a knock can take away: an accept grants
membership over whatever the peer held, so an owner who knocks is lowered to a member.
-/

namespace Concorrd

open Machine

/-- How much a role may do. -/
def AclRole.rank : AclRole → Nat
  | .visitor => 0
  | .member => 1
  | .owner => 2

namespace Porch

/-- What an accept of a knock does: it writes the knock and the access row of its peer, the row grants
visit access, and it grants no less than the peer held. -/
structure Accepts (p : Porch) (knock : Knock) (after : Porch) : Prop where
  accepted : (after.lookupKnockById knock.id).map Knock.status = some .accepted
  frame : ∀ k, k ≠ ⟨.channelKnocks, knock.id⟩ →
    k ≠ ⟨.channelAcl, (knock.channelId, knock.knockerPeerId)⟩ → after.tables.view k = p.tables.view k
  rest : after = { p with db := after.db }
  grants : ∃ role ∈ after.lookupAcl knock.channelId knock.knockerPeerId,
    role.grantsVisitAccess = true
  keeps : ∀ role ∈ p.lookupAcl knock.channelId knock.knockerPeerId,
    ∃ role' ∈ after.lookupAcl knock.channelId knock.knockerPeerId, role.rank ≤ role'.rank

/-- What holds of the knocks at a step of a run. -/
structure Lifecycle (p : Porch) (op : LocalOp) : Prop where
  onePending : ∀ knockId knockId', ∀ knock ∈ (p.afterWrite op).lookupKnockById knockId,
    ∀ knock' ∈ (p.afterWrite op).lookupKnockById knockId', knock.status = .pending →
      knock'.status = .pending → knock.channelId = knock'.channelId →
        knock.knockerPeerId = knock'.knockerPeerId → knockId = knockId'
  moves : ∀ knockId, ∀ knock ∈ p.lookupKnockById knockId,
    ∃ knock' ∈ (p.afterWrite op).lookupKnockById knockId,
      knock'.channelId = knock.channelId ∧ knock'.knockerPeerId = knock.knockerPeerId ∧
        (knock'.status ≠ knock.status → knock.status = .pending)
  author : ∀ knockId peer now out, op = .withdrawKnock knockId peer now → p.perform op = .ok out →
    ∃ knock ∈ p.lookupKnockById knockId, knock.knockerPeerId = peer
  refused : ∀ e, p.perform op = .error e → p.afterWrite op = p
  accepts : ∀ knockId now out, op = .acceptKnock knockId now → p.perform op = .ok out →
    ∃ knock ∈ p.lookupKnockById knockId, p.Accepts knock out.porch

/-- No accept of a pending knock meets an owner. -/
def KeepsRole (p : Porch) : LocalOp → Prop
  | .acceptKnock knockId _ => ∀ knock ∈ p.lookupKnockById knockId, knock.status = .pending →
    p.lookupAcl knock.channelId knock.knockerPeerId ≠ some .owner
  | _ => True

/-! ## Knocks of the table -/

variable {p : Porch} {knockId channelId peerId : String} {now : Int64} {row : ChannelKnockRow}

theorem mem_lookupKnockById_iff {knock : Knock} : knock ∈ p.lookupKnockById knockId ↔
    ∃ row, p.tables.Holds ⟨.channelKnocks, row⟩ ∧ row.cols.id = knockId ∧
      row.cols.toKnock = knock := by
  unfold lookupKnockById Database.find?
  simp only [Option.mem_def, Option.map_eq_some_iff, KeyedTable.find?_eq_some_iff, and_assoc]
  exact Iff.rfl

theorem lookupKnockById_of_find? (found : p.db.find? .channelKnocks knockId = some row) :
    p.lookupKnockById knockId = some row.cols.toKnock :=
  congrArg (Option.map fun row : ChannelKnockRow => row.cols.toKnock) found

/-- The knocks are read off their table. -/
theorem lookupKnockById_congr {p' : Porch}
    (same : p'.tables .channelKnocks = p.tables .channelKnocks) (knockId : String) :
    p'.lookupKnockById knockId = p.lookupKnockById knockId := by
  change p'.db.tables _ = p.db.tables _ at same
  unfold lookupKnockById Database.find?
  rw [same]

/-- The schema knows every status of the table, so a knock reads as pending when it is. -/
theorem status_eq_pending_iff (held : p.tables.Holds ⟨.channelKnocks, row⟩) :
    row.cols.toKnock.status = .pending ↔ row.cols.status = "pending" := by
  have passed := p.db.checks .channelKnocks (SyncedTable.mem_all _) row held
  simp only [SyncedTable.failedCheck, SyncedTable.checks, List.findSome?_cons,
    List.findSome?_nil] at passed
  have known : row.cols.status ∈ ["pending", "accepted", "rejected", "withdrawn"] := by
    by_contra unknown
    simp [unknown] at passed
  show (KnockStatus.fromStr row.cols.status).getD .pending = .pending ↔ _
  generalize row.cols.status = status at known ⊢
  simp only [List.mem_cons, List.not_mem_nil, or_false] at known
  rcases known with rfl | rfl | rfl | rfl <;> decide

theorem pendingKnock_spec {mayResolve : Knock → Bool} {knock : Knock}
    (h : p.pendingKnock knockId mayResolve = .ok (row, knock)) :
    p.db.find? .channelKnocks knockId = some row ∧ knock = row.cols.toKnock ∧
      mayResolve knock = true ∧ knock.status = .pending := by
  obtain ⟨found, rfl⟩ := pendingKnock_eq_ok h
  refine ⟨found, rfl, ?_⟩
  unfold pendingKnock at h
  simp only [found] at h
  split at h
  · cases h
  split at h
  · cases h
  rename_i may pending
  exact ⟨Bool.of_not_eq_false may, not_not.mp pending⟩

/-- The index of the pending knocks lets one of a peer be pending at a channel. -/
theorem eq_of_lookupKnockById_pending {knockId' : String} {knock knock' : Knock}
    (held : knock ∈ p.lookupKnockById knockId) (held' : knock' ∈ p.lookupKnockById knockId')
    (pending : knock.status = .pending) (pending' : knock'.status = .pending)
    (channel : knock.channelId = knock'.channelId)
    (peer : knock.knockerPeerId = knock'.knockerPeerId) : knockId = knockId' := by
  obtain ⟨row, there, rfl, rfl⟩ := mem_lookupKnockById_iff.mp held
  obtain ⟨row', there', rfl, rfl⟩ := mem_lookupKnockById_iff.mp held'
  have entry := p.db.entries .channelKnocks (SyncedTable.mem_all _) row there row' there'
    (row.cols.channelId, row.cols.knockerPeerId)
  refine entry (if_pos ((status_eq_pending_iff there).mp pending)) ?_
  rw [show row.cols.channelId = row'.cols.channelId from channel,
    show row.cols.knockerPeerId = row'.cols.knockerPeerId from peer]
  exact if_pos ((status_eq_pending_iff there').mp pending')

/-! ## How a write moves a knock -/

/-- The knock is there afterwards, and its status changed only if it was pending. -/
def Moved (knock : Knock) (after : Porch) : Prop :=
  ∃ knock' ∈ after.lookupKnockById knock.id, knock'.channelId = knock.channelId ∧
    knock'.knockerPeerId = knock.knockerPeerId ∧
      (knock'.status ≠ knock.status → knock.status = .pending)

theorem moved_of_holds {after : Porch} (held : after.tables.Holds ⟨.channelKnocks, row⟩) :
    Moved row.cols.toKnock after :=
  ⟨row.cols.toKnock, mem_lookupKnockById_iff.mpr ⟨row, held, rfl, rfl⟩, rfl, rfl,
    fun changed => absurd rfl changed⟩

/-- A resolution moves the knock it writes, which was pending, and no other. -/
theorem moved_of_resolveSet {after : Porch} {status : KnockStatus} {resolved : ChannelKnockRow}
    (puts : p.tables.Puts ⟨.channelKnocks, p.resolveSet status now resolved⟩ after.tables)
    (there : p.tables.Holds ⟨.channelKnocks, resolved⟩)
    (pending : resolved.cols.toKnock.status = .pending)
    (held : p.tables.Holds ⟨.channelKnocks, row⟩) : Moved row.cols.toKnock after := by
  by_cases same : row.cols.id = resolved.cols.id
  · obtain rfl : row = resolved := KeyedTable.eq_of_key_eq held there same
    have written := puts.holds_iff.mpr (.inl rfl)
    exact ⟨_, mem_lookupKnockById_iff.mpr ⟨_, written, rfl, rfl⟩, rfl, rfl, fun _ => pending⟩
  · refine moved_of_holds (puts.holds_iff.mpr (.inr ⟨held, fun h => same ?_⟩))
    exact eq_of_heq (RowKey.mk.inj h).2

/-- A write that gives no row of the knocks a new value moves none. -/
theorem moved_of_keys {op : LocalOp} {out : Outcome Unit} (done : p.perform op = .ok out)
    (other : ∀ k ∈ op.keys p, k.table ≠ .channelKnocks)
    (held : p.tables.Holds ⟨.channelKnocks, row⟩) : Moved row.cols.toKnock out.porch := by
  have contract := localWrite_perform done
  refine moved_of_holds (contract.puts.holds_of_holds held fun x mem same => ?_)
  rcases contract.keys with none | keys
  · rw [none] at mem
    cases mem
  · have key : x.key ∈ op.keys p := keys ▸ List.mem_map_of_mem mem
    exact other x.key key (congrArg RowKey.table same).symm

theorem moved_of_knock {out : Outcome Knock} {message : Option String}
    (done : p.knock channelId peerId message knockId now = .ok out)
    (held : p.tables.Holds ⟨.channelKnocks, row⟩) : Moved row.cols.toKnock out.porch := by
  unfold knock at done
  split at done
  · cases done
  split at done
  · cases done
  cases existing : p.lookupKnockPending channelId peerId with
  | some knock =>
    simp only [existing, Except.ok.injEq] at done
    rw [← done]
    exact moved_of_holds held
  | none =>
    simp only [existing] at done
    obtain ⟨db, inserted, rfl⟩ := finish_eq_ok done
    refine moved_of_holds ?_
    show row ∈ (db.tables .channelKnocks).rows
    rw [(Database.rows_of_insert inserted).1]
    exact List.mem_append_left _ held

/-- A resolution was of a pending knock that its caller may resolve. -/
theorem resolveKnock_spec {mayResolve : Knock → Bool} {status : KnockStatus} {out : Outcome Knock}
    (done : p.resolveKnock knockId mayResolve status now = .ok out) :
    ∃ row, p.db.find? .channelKnocks knockId = some row ∧ mayResolve row.cols.toKnock = true ∧
      row.cols.toKnock.status = .pending ∧
      p.tables.Puts ⟨.channelKnocks, p.resolveSet status now row⟩ out.porch.tables := by
  unfold resolveKnock at done
  split at done
  · cases done
  rename_i row knock hk
  obtain ⟨found, rfl, may, pending⟩ := pendingKnock_spec hk
  obtain ⟨db, updated, rfl⟩ := finish_eq_ok done
  exact ⟨row, found, may, pending, puts_of_updateKnock updated found⟩

theorem moved_of_resolveKnock {mayResolve : Knock → Bool} {status : KnockStatus}
    {out : Outcome Knock} (done : p.resolveKnock knockId mayResolve status now = .ok out)
    (held : p.tables.Holds ⟨.channelKnocks, row⟩) : Moved row.cols.toKnock out.porch := by
  obtain ⟨resolved, found, -, pending, puts⟩ := resolveKnock_spec done
  exact moved_of_resolveSet puts (KeyedTable.mem_of_find? found) pending held

/-! ## What an accept does -/

theorem pending_of_acceptKnock {out : Outcome Knock} (done : p.acceptKnock knockId now = .ok out)
    (found : p.db.find? .channelKnocks knockId = some row) : row.cols.toKnock.status = .pending := by
  unfold acceptKnock at done
  split at done
  · cases done
  rename_i row' knock hk
  obtain ⟨found', rfl, -, pending⟩ := pendingKnock_spec hk
  cases found.symm.trans found'
  exact pending

/-- The grant of an accept is read back as membership. -/
theorem lookupAcl_of_puts {T : SyncedTables} {after : Porch} {knock : Knock}
    (puts : T.Puts ⟨.channelAcl, p.acceptGrant knock now⟩ after.tables) :
    after.lookupAcl knock.channelId knock.knockerPeerId = some .member :=
  lookupAcl_eq_some_iff.mpr ⟨p.acceptGrant knock now, puts.table.find?_self, rfl, rfl⟩

/-- The views before and after an accept differ at the knock and at the access of its peer. -/
theorem view_of_acceptKnock {T : SyncedTables} {after : Porch} {resolved : ChannelKnockRow}
    {knock : Knock} (knockPut : p.tables.Puts ⟨.channelKnocks, resolved⟩ T)
    (aclPut : T.Puts ⟨.channelAcl, p.acceptGrant knock now⟩ after.tables) {k : RowKey}
    (notKnock : k ≠ ⟨.channelKnocks, resolved.cols.id⟩)
    (notAcl : k ≠ ⟨.channelAcl, (knock.channelId, knock.knockerPeerId)⟩) :
    after.tables.view k = p.tables.view k := by
  calc after.tables.view k
      = Function.update T.view _ _ k := congrFun aclPut.view_eq k
    _ = T.view k := Function.update_of_ne notAcl _ _
    _ = Function.update p.tables.view _ _ k := congrFun knockPut.view_eq k
    _ = p.tables.view k := Function.update_of_ne notKnock _ _

/-- An accept that succeeds does what it should when its peer is no owner. -/
theorem accepts_iff {out : Outcome Knock} (done : p.acceptKnock knockId now = .ok out) :
    (∃ knock ∈ p.lookupKnockById knockId, p.Accepts knock out.porch) ↔
      p.KeepsRole (.acceptKnock knockId now) := by
  obtain ⟨row, db, found, knockPut, aclPut, rest, -⟩ := acceptKnock_eq_ok done
  have looked := lookupKnockById_of_find? found
  have member := lookupAcl_of_puts aclPut
  simp only [KeepsRole, looked, Option.mem_some_iff, exists_eq_left', forall_eq']
  constructor
  · rintro accepts - owner
    obtain ⟨role, held, less⟩ := accepts.keeps .owner owner
    rw [member] at held
    cases held
    exact absurd less (by decide)
  · intro keeps
    have apart : SyncedTable.channelKnocks ≠ .channelAcl := by decide
    have accepted : out.porch.tables.Holds ⟨.channelKnocks, p.resolveSet .accepted now row⟩ :=
      aclPut.holds_iff.mpr (.inr ⟨knockPut.holds_iff.mpr (.inl rfl), fun h => apart (congrArg RowKey.table h)⟩)
    refine ⟨?_, fun k notKnock notAcl => ?_, rest, ⟨.member, member, rfl⟩, fun role held => ?_⟩
    · have again := mem_lookupKnockById_iff.mpr ⟨_, accepted, rfl, rfl⟩
      exact (congrArg (Option.map Knock.status) again).trans rfl
    · exact view_of_acceptKnock knockPut aclPut notKnock notAcl
    · refine ⟨.member, member, ?_⟩
      have notOwner : role ≠ .owner := fun owner =>
        keeps (pending_of_acceptKnock done found) (owner ▸ held)
      cases role with
      | visitor => decide
      | member => decide
      | owner => exact absurd rfl notOwner

/-- A pending knock can be accepted. -/
theorem exists_acceptKnock (now : Int64) (found : p.db.find? .channelKnocks knockId = some row)
    (pending : row.cols.toKnock.status = .pending) : ∃ out, p.acceptKnock knockId now = .ok out := by
  have channel : (p.tables .porchChannels).HasKey row.cols.channelId :=
    p.db.parents .channelKnocks (SyncedTable.mem_all _) row (KeyedTable.mem_of_find? found)
      row.cols.channelId rfl
  have resolves : KnockStatus.accepted ≠ .pending := KnockStatus.noConfusion
  obtain ⟨db, updated, -, frame⟩ := exists_updateKnock resolves now found
  let grant := p.acceptGrant row.cols.toKnock now
  have admits : db.tables.Admits ⟨.channelAcl, grant⟩ :=
    { check := rfl
      entry := fun s _ entry hentry => by cases hentry
      parent := fun channel' hc => by
        cases hc
        rw [frame .porchChannels SyncedTable.noConfusion]
        exact channel }
  have puts : db.tables.Puts ⟨.channelAcl, grant⟩ (Function.update db.tables .channelAcl
      ((db.tables .channelAcl).upsert grant (grantConflict grant) fun _ => rfl)) :=
    SyncedTables.puts_update (KeyedTable.puts_upsert_of fun _ key => grantConflict_eq key rfl)
  obtain ⟨db', granted⟩ := (Database.exists_commit_iff puts).mpr admits
  have upserted : db.upsert .channelAcl grant (grantConflict grant) (fun _ => rfl) = .ok db' := granted
  have ready : p.pendingKnock knockId (fun _ => true) = .ok (row, row.cols.toKnock) := by
    unfold pendingKnock
    simp [found, pending]
  unfold acceptKnock
  simp only [ready, updated]
  rw [upserted]
  exact ⟨_, rfl⟩

/-! ## One write and all writes -/

theorem exists_of_map {α : Type} {e : Except PorchError (Outcome α)} {out : Outcome Unit}
    (done : e.map Outcome.forget = .ok out) : ∃ out', e = .ok out' ∧ out = out'.forget := by
  cases e with
  | error e => cases done
  | ok out' =>
    cases done
    exact ⟨out', rfl, rfl⟩

theorem moved_of_perform {op : LocalOp} {out : Outcome Unit} (done : p.perform op = .ok out)
    (held : p.tables.Holds ⟨.channelKnocks, row⟩) : Moved row.cols.toKnock out.porch := by
  cases op with
  | knock channelId peer message id now =>
    obtain ⟨out', done', rfl⟩ := exists_of_map done
    exact moved_of_knock done' held
  | acceptKnock knockId now =>
    obtain ⟨out', done', rfl⟩ := exists_of_map done
    obtain ⟨resolved, db, found, knockPut, aclPut, -⟩ := acceptKnock_eq_ok done'
    let between : Porch := { p with db := db }
    have same : out'.porch.tables .channelKnocks = between.tables .channelKnocks :=
      aclPut.frame .channelKnocks SyncedTable.noConfusion
    obtain ⟨knock', after, moved⟩ : Moved row.cols.toKnock between :=
      moved_of_resolveSet knockPut (KeyedTable.mem_of_find? found)
        (pending_of_acceptKnock done' found) held
    exact ⟨knock', (lookupKnockById_congr same row.cols.id).symm ▸ after, moved⟩
  | rejectKnock knockId now =>
    obtain ⟨out', done', rfl⟩ := exists_of_map done
    exact moved_of_resolveKnock done' held
  | withdrawKnock knockId peer now =>
    obtain ⟨out', done', rfl⟩ := exists_of_map done
    exact moved_of_resolveKnock done' held
  | _ =>
    refine moved_of_keys done (fun k mem => ?_) held
    rw [List.mem_singleton.mp mem]
    exact SyncedTable.noConfusion

/-- A local write keeps the lifecycle exactly when it accepts no knock of an owner. -/
theorem lifecycle_step_iff (p : Porch) (op : LocalOp) : p.Lifecycle op ↔ p.KeepsRole op := by
  constructor
  · intro lifecycle
    cases op with
    | acceptKnock knockId now =>
      intro knock held pending
      obtain ⟨row, there, key, rfl⟩ := mem_lookupKnockById_iff.mp held
      have found : p.db.find? .channelKnocks knockId = some row :=
        KeyedTable.find?_eq_some_iff.mpr ⟨there, key⟩
      obtain ⟨out, done⟩ := exists_acceptKnock now found pending
      have performed : p.perform (.acceptKnock knockId now) = .ok out.forget := by
        simp only [perform, done, Except.map]
      exact (accepts_iff done).mp (lifecycle.accepts knockId now out.forget rfl performed) _ held pending
    | _ => trivial
  · intro keeps
    constructor
    · intro knockId knockId' knock held knock' held' pending pending' channel peer
      exact eq_of_lookupKnockById_pending held held' pending pending' channel peer
    · intro knockId knock held
      obtain ⟨row, there, rfl, rfl⟩ := mem_lookupKnockById_iff.mp held
      show Moved row.cols.toKnock (p.afterWrite op)
      unfold afterWrite
      cases done : p.perform op with
      | error e => exact moved_of_holds there
      | ok out => exact moved_of_perform done there
    · rintro knockId peer now out rfl done
      obtain ⟨out', done', -⟩ := exists_of_map done
      obtain ⟨row, found, may, -⟩ := resolveKnock_spec done'
      exact ⟨row.cols.toKnock, lookupKnockById_of_find? found, of_decide_eq_true may⟩
    · intro e failed
      unfold afterWrite
      rw [failed]
    · rintro knockId now out rfl done
      obtain ⟨out', done', rfl⟩ := exists_of_map done
      exact (accepts_iff done').mpr keeps

/-- Whatever local writes follow on a porch, each keeps the lifecycle of the knocks exactly when none
accepts a knock of an owner. -/
theorem lifecycle_iff (p : Porch) (ops : List LocalOp) :
    Along afterWrite Lifecycle p ops ↔ Along afterWrite KeepsRole p ops :=
  along_congr (fun _ => True) (fun _ _ _ => trivial) (fun p op _ => lifecycle_step_iff p op) trivial

/-- An owner of the default channel who knocks at it is a member once the knock is accepted. -/
theorem owner_lowered : ¬Along afterWrite Lifecycle (opened .none ⟨"device-a", "profile-a", 1, true⟩)
    [.grantAcl "porch-default" "visitor" .owner 2, .knock "porch-default" "visitor" none "k1" 3,
      .acceptKnock "k1" 4] := by
  rintro ⟨-, -, accept, -⟩
  refine (lifecycle_step_iff _ _).mp accept
    ⟨"k1", "porch-default", "visitor", none, .pending, 3, none⟩ ?_ rfl ?_
  all_goals decide

end Porch

end Concorrd
