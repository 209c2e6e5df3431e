import Concorrd.Porch.Handler

/-!
# What a visitor writes

Three of the ten requests write, and each writes one row: a message, a knock of the visitor, or the
withdrawal of one. A write under a fresh id is never refused by the schema.
`leftBy_dispatchPorch` says what any request may do to the porch.
-/

namespace Concorrd

open Database

/-- The database after a request of a visitor that drew an id. -/
inductive VisitorWrite (p : Porch) (visitor id : String) (db : Database) : Prop where
  | nothing (same : db = p.db)
  | message (row : ChannelMessageRow) (drawn : row.key = id)
      (puts : p.tables.Puts ⟨.channelMessages, row⟩ db.tables)
  | knock (row : ChannelKnockRow) (own : row.cols.knockerPeerId = visitor)
      (puts : p.tables.Puts ⟨.channelKnocks, row⟩ db.tables)
      (drawn : p.db.find? .channelKnocks row.key = none → row.key = id)
      (before : ∀ old, p.db.find? .channelKnocks row.key = some old →
        old.cols.knockerPeerId = visitor)

namespace Porch

variable {files : HostFiles} {p : Porch} {visitor channelId id knockId : String} {now : Int64}

theorem hasKey_of_getChannel (h : (p.getChannel channelId).isSome = true) :
    (p.tables .porchChannels).HasKey channelId := by
  rw [KeyedTable.hasKey_iff_isSome]
  rwa [getChannel, Option.isSome_map] at h

/-- A post under a fresh id to a channel that is there appends its message. -/
theorem exists_postMessage {body : String} (visitor : String) (now : Int64)
    (there : (p.getChannel channelId).isSome = true)
    (free : p.db.find? .channelMessages id = none) (some_ : body.isEmpty = false)
    (small : ¬ body.utf8ByteSize > maxMessageBodyBytes) :
    ∃ db written, p.postMessage channelId visitor body id now =
        .ok ⟨{ p with db := db }, written, ⟨id, channelId, visitor, body, now⟩⟩ ∧
      (db.tables .channelMessages).rows = (p.tables .channelMessages).rows ++
        [p.stampRow .channelMessages p.nextLamport ⟨id, channelId, visitor, body, now⟩] ∧
      ∀ t ≠ .channelMessages, db.tables t = p.tables t := by
  obtain ⟨db, hdb, rows, frame⟩ := p.db.exists_insert
    (r := p.stampRow .channelMessages p.nextLamport ⟨id, channelId, visitor, body, now⟩) free
    { check := rfl
      entry := fun s _ entry hentry => by cases hentry
      parent := fun channel hc => by
        cases hc
        exact hasKey_of_getChannel there }
  have absent : ¬ (p.getChannel channelId).isNone = true := by
    rw [← Option.not_isSome, there]
    exact Bool.false_ne_true
  refine ⟨db, [⟨.channelMessages, p.stampRow .channelMessages p.nextLamport
    ⟨id, channelId, visitor, body, now⟩⟩], ?_, rows, frame⟩
  simp only [postMessage, some_, Bool.false_eq_true, if_false, small, absent, hdb, finish]

/-- A knock under a fresh id, where none is pending, appends it. -/
theorem exists_knock {message : Option String} (now : Int64)
    (there : (p.getChannel channelId).isSome = true)
    (free : p.db.find? .channelKnocks id = none)
    (small : ¬ message.elim 0 String.utf8ByteSize > maxKnockMessageBytes)
    (none_pending : p.lookupKnockPending channelId visitor = none) :
    ∃ db written, p.knock channelId visitor message id now =
        .ok ⟨{ p with db := db }, written, ⟨id, channelId, visitor, message, .pending, now, none⟩⟩ ∧
      (db.tables .channelKnocks).rows = (p.tables .channelKnocks).rows ++
        [p.stampRow .channelKnocks p.nextLamport
          ⟨id, channelId, visitor, message, "pending", now, none⟩] ∧
      ∀ t ≠ .channelKnocks, db.tables t = p.tables t := by
  obtain ⟨db, hdb, rows, frame⟩ := p.db.exists_insert
    (r := p.stampRow .channelKnocks p.nextLamport
      ⟨id, channelId, visitor, message, "pending", now, none⟩) free
    { check := rfl
      entry := fun s hs entry hentry hentry' => by
        cases hentry
        simp only [SyncedTable.uniqueEntry, Option.mem_def, Option.ite_none_right_eq_some,
          Option.some.injEq, Prod.mk.injEq] at hentry'
        obtain ⟨pending, channel, knocker⟩ := hentry'
        have found := List.find?_eq_none.mp (Option.map_eq_none_iff.mp none_pending) s hs
        exact absurd (decide_eq_true ⟨channel, knocker, pending⟩) found
      parent := fun channel hc => by
        cases hc
        exact hasKey_of_getChannel there }
  have absent : ¬ (p.getChannel channelId).isNone = true := by
    rw [← Option.not_isSome, there]
    exact Bool.false_ne_true
  refine ⟨db, [⟨.channelKnocks, p.stampRow .channelKnocks p.nextLamport
    ⟨id, channelId, visitor, message, "pending", now, none⟩⟩], ?_, rows, frame⟩
  simp only [knock, Bool.false_eq_true, if_false, small, absent, none_pending, hdb, finish]
  rfl

/-- The channel of a knock that another peer filed. -/
def foreignKnock (p : Porch) (visitor knockId : String) : Option String :=
  ((p.lookupKnockById knockId).filter fun knock => knock.knockerPeerId ≠ visitor).map
    Knock.channelId

/-- A knock id that is absent or another peer's is refused, and the refusal names the channel. -/
theorem withdrawKnock_foreign
    (h : ∀ row ∈ p.db.find? .channelKnocks knockId, row.cols.knockerPeerId ≠ visitor) :
    p.withdrawKnock knockId visitor now =
      .error (match p.foreignKnock visitor knockId with
        | none => .invalidInput ("knock not found: " ++ knockId)
        | some channelId => .accessDenied channelId) := by
  unfold withdrawKnock resolveKnock pendingKnock foreignKnock lookupKnockById
  cases hk : p.db.find? .channelKnocks knockId with
  | none => rfl
  | some row =>
    have foreign : row.cols.toKnock.knockerPeerId ≠ visitor := h row hk
    simp only [foreign, decide_false, if_true, Option.map_some, Option.filter_some, ne_eq,
      not_false_eq_true, decide_true]

/-- A knock of the visitor that is not pending is refused. -/
theorem withdrawKnock_settled {row : ChannelKnockRow}
    (found : p.db.find? .channelKnocks knockId = some row)
    (own : row.cols.knockerPeerId = visitor) (settled : row.cols.toKnock.status ≠ .pending) :
    p.withdrawKnock knockId visitor now =
      .error (.invalidInput ("knock " ++ knockId ++ " is not pending (status=" ++
        row.cols.toKnock.status.asStr ++ ")")) := by
  have mine : row.cols.toKnock.knockerPeerId = visitor := own
  simp only [withdrawKnock, resolveKnock, pendingKnock, found, mine, decide_true,
    Bool.true_eq_false, if_false, ne_eq, settled, not_false_eq_true, if_true]

/-- A pending knock of the visitor is withdrawn. -/
theorem withdrawKnock_pending (now : Int64) {row : ChannelKnockRow}
    (found : p.db.find? .channelKnocks knockId = some row)
    (own : row.cols.knockerPeerId = visitor) (pending : row.cols.toKnock.status = .pending) :
    ∃ db written, p.withdrawKnock knockId visitor now =
        .ok ⟨{ p with db := db }, written,
          { row.cols.toKnock with status := .withdrawn, resolvedAt := some now }⟩ ∧
      (db.tables .channelKnocks).rows = (p.tables .channelKnocks).rows.map (fun r =>
        if r.key = knockId then p.resolveSet .withdrawn now r else r) ∧
      ∀ t ≠ .channelKnocks, db.tables t = p.tables t := by
  have resolves : KnockStatus.withdrawn ≠ .pending := by decide
  obtain ⟨db, hdb, rows, frame⟩ := exists_updateKnock resolves now found
  have mine : row.cols.toKnock.knockerPeerId = visitor := own
  refine ⟨db, [⟨.channelKnocks, p.resolveSet .withdrawn now row⟩], ?_, rows, frame⟩
  simp only [withdrawKnock, resolveKnock, pendingKnock, found, mine, decide_true,
    Bool.true_eq_false, if_false, ne_eq, pending, not_true_eq_false, hdb, finish]

/-! ## What any request may do -/

/-- The porch a request left differs from the one it met by a visitor's write. -/
def LeftBy (p : Porch) (visitor id : String) (p' : Porch) : Prop :=
  ∃ db, p' = { p with db := db } ∧ VisitorWrite p visitor id db

theorem LeftBy.refl : LeftBy p visitor id p := ⟨p.db, rfl, .nothing rfl⟩

theorem leftBy_postMessage {body : String} {out : Outcome ChannelMessage}
    (h : p.postMessage channelId visitor body id now = .ok out) :
    LeftBy p visitor id out.porch := by
  unfold postMessage at h
  split at h
  · cases h
  split at h
  · cases h
  split at h
  · cases h
  obtain ⟨db, hdb, rfl⟩ := finish_eq_ok h
  exact ⟨db, rfl, .message _ rfl (puts_of_insert hdb).2⟩

theorem leftBy_knock {message : Option String} {out : Outcome Knock}
    (h : p.knock channelId visitor message id now = .ok out) : LeftBy p visitor id out.porch := by
  unfold knock at h
  split at h
  · cases h
  split at h
  · cases h
  split at h
  · cases h
    exact .refl
  obtain ⟨db, hdb, rfl⟩ := finish_eq_ok h
  obtain ⟨free, puts⟩ := puts_of_insert hdb
  refine ⟨db, rfl, .knock _ rfl puts (fun _ => rfl) fun old found => ?_⟩
  cases free.symm.trans found

theorem leftBy_withdrawKnock {out : Outcome Knock}
    (h : p.withdrawKnock knockId visitor now = .ok out) : LeftBy p visitor id out.porch := by
  unfold withdrawKnock resolveKnock at h
  split at h
  · cases h
  rename_i row knock pending
  obtain ⟨db, hdb, rfl⟩ := finish_eq_ok h
  obtain ⟨found, rfl⟩ := pendingKnock_eq_ok pending
  have own : row.cols.knockerPeerId = visitor := by
    by_contra foreign
    unfold pendingKnock at pending
    rw [found] at pending
    have refused : decide (row.cols.toKnock.knockerPeerId = visitor) = false :=
      decide_eq_false foreign
    simp only [refused, if_true, reduceCtorEq] at pending
  have key : row.key = knockId := KeyedTable.key_of_find? found
  subst key
  have stored : p.db.find? .channelKnocks (p.resolveSet .withdrawn now row).key = some row := found
  refine ⟨db, rfl, .knock (p.resolveSet .withdrawn now row) own (puts_of_updateKnock hdb found)
    (fun free => ?_) fun old hold => ?_⟩
  · cases free.symm.trans stored
  · cases stored.symm.trans hold
    exact own

theorem response_of_error {call : PorchCall} {e : PorchError}
    (h : dispatchRequest files p visitor call = .error e) :
    (dispatchPorch files p visitor call).2 = .error (.ofError e) := by
  rw [dispatchPorch, h]

/-- Any request leaves the porch as it was, or with one row of the visitor written. -/
theorem leftBy_dispatchPorch (files : HostFiles) (p : Porch) (visitor : String)
    (call : PorchCall) :
    LeftBy p visitor call.id (dispatchPorch files p visitor call).1 := by
  have of_ok : ∀ p' result, dispatchRequest files p visitor call = .ok (p', result) →
      LeftBy p visitor call.id p' := by
    intro p' result h
    unfold dispatchRequest at h
    split at h
    · cases h
      exact .refl
    · obtain ⟨_, _, h⟩ := except_bind_eq_ok.mp h
      obtain ⟨messages, _, h⟩ := except_bind_eq_ok.mp h
      cases h
      exact .refl
    · obtain ⟨_, _, h⟩ := except_bind_eq_ok.mp h
      obtain ⟨out, posted, h⟩ := except_bind_eq_ok.mp h
      cases h
      exact leftBy_postMessage posted
    · split at h
      · cases h
      split at h
      · cases h
      · cases h
      · obtain ⟨out, knocked, h⟩ := except_bind_eq_ok.mp h
        cases h
        exact leftBy_knock knocked
    · cases h
      exact .refl
    · obtain ⟨out, withdrawn, h⟩ := except_bind_eq_ok.mp h
      cases h
      exact leftBy_withdrawKnock withdrawn
    · obtain ⟨_, _, h⟩ := except_bind_eq_ok.mp h
      cases h
      exact .refl
    · obtain ⟨response, _, h⟩ := except_bind_eq_ok.mp h
      cases h
      exact .refl
    · obtain ⟨_, _, h⟩ := except_bind_eq_ok.mp h
      obtain ⟨entries, _, h⟩ := except_bind_eq_ok.mp h
      cases h
      exact .refl
    · obtain ⟨_, _, h⟩ := except_bind_eq_ok.mp h
      obtain ⟨⟨bytes, mime⟩, _, h⟩ := except_bind_eq_ok.mp h
      dsimp only at h
      split at h
      · cases h
        exact .refl
      · cases h
        exact .refl
  unfold dispatchPorch
  split
  · exact of_ok _ _ ‹_›
  · exact .refl

/-! ## What no request changes -/

/-- No message and no knock carries the id. -/
def Unused (p : Porch) (id : String) : Prop :=
  p.db.find? .channelMessages id = none ∧ p.db.find? .channelKnocks id = none

namespace LeftBy

variable {p' : Porch} {k : String}

/-- No request touches another table than the messages and the knocks. -/
theorem find?_eq (h : LeftBy p visitor id p') {t : SyncedTable} (notMessages : t ≠ .channelMessages)
    (notKnocks : t ≠ .channelKnocks) (k : t.Key) : p'.db.find? t k = p.db.find? t k := by
  obtain ⟨db, rfl, write⟩ := h
  have same : db.tables t = p.tables t := by
    cases write with
    | nothing same => rw [same]
    | message row drawn puts => exact puts.frame t notMessages
    | knock row own puts drawn before => exact puts.frame t notKnocks
  exact congrArg (fun table => KeyedTable.find? table k) same

theorem getChannel (h : LeftBy p visitor id p') : p'.getChannel = p.getChannel := by
  funext channelId
  unfold Porch.getChannel
  rw [h.find?_eq (by decide) (by decide)]

theorem getAsset (h : LeftBy p visitor id p') : p'.getAsset = p.getAsset := by
  funext assetId
  unfold Porch.getAsset
  rw [h.find?_eq (by decide) (by decide)]

/-- A request leaves the knocks of other peers alone. -/
theorem foreignKnock (h : LeftBy p visitor id p') :
    p'.foreignKnock visitor = p.foreignKnock visitor := by
  funext k
  obtain ⟨db, rfl, write⟩ := h
  cases write with
  | nothing same => rw [same]
  | message row drawn puts =>
    have same : db.tables .channelKnocks = p.tables .channelKnocks := puts.frame _ nofun
    unfold Porch.foreignKnock lookupKnockById Database.find?
    rw [same]
  | knock row own puts drawn before =>
    have after : db.find? .channelKnocks = Function.update (p.db.find? .channelKnocks) row.key
      (some row) := puts.table
    unfold Porch.foreignKnock lookupKnockById
    rw [after]
    by_cases hk : k = row.key
    · subst hk
      have written : decide (row.cols.toKnock.knockerPeerId ≠ visitor) = false :=
        decide_eq_false fun foreign => foreign own
      rw [Function.update_self, Option.map_some, Option.filter_some, written]
      cases hold : p.db.find? .channelKnocks row.key with
      | none => rfl
      | some old =>
        have met : decide (old.cols.toKnock.knockerPeerId ≠ visitor) = false :=
          decide_eq_false fun foreign => foreign (before old hold)
        rw [Option.map_some, Option.filter_some, met]
        rfl
    · rw [Function.update_of_ne hk]

/-- A free id stays free unless the request drew it. -/
theorem unused (h : LeftBy p visitor id p') (free : p.Unused k) (other : k ≠ id) :
    p'.Unused k := by
  obtain ⟨db, rfl, write⟩ := h
  cases write with
  | nothing same =>
    subst same
    exact free
  | message row drawn puts =>
    have knocks : db.tables .channelKnocks = p.tables .channelKnocks := puts.frame _ nofun
    refine ⟨?_, ?_⟩
    · rw [← free.1]
      exact puts.table.find?_other fun hk => other (hk.trans drawn)
    · rw [← free.2]
      exact congrArg (fun table => KeyedTable.find? table k) knocks
  | knock row own puts drawn before =>
    have messages : db.tables .channelMessages = p.tables .channelMessages :=
      puts.frame _ nofun
    refine ⟨?_, ?_⟩
    · rw [← free.1]
      exact congrArg (fun table => KeyedTable.find? table k) messages
    · rw [← free.2]
      refine puts.table.find?_other fun hk => other (hk.trans (drawn ?_))
      exact hk ▸ free.2

end LeftBy

end Porch

end Concorrd
