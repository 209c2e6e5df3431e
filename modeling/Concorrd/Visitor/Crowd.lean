import Concorrd.Visitor.OwnerOnly

/-!
# Many visitors of one porch

The requests of all visitors meet one database, one after another in any order. A request locks it
more than once, but between two of its locks no other visitor changes what it reads. The messages are
common to those who may read them. Apart from these a visitor is answered as if it were alone, in
every order, with one exception: the refusal of a withdrawal tells that another peer has filed the
knock it names (`outputsOf_serve_eq_iff`).

`crowd_run` says what the requests leave of the porch: one message for each post that was answered,
in order, by the peer that asked and in a channel it could visit from the start.
-/

namespace Concorrd

open Unwinding Database

/-- A request, and the peer that sends it. -/
structure Turn where
  peer : String
  call : PorchCall

/-- The answer, whatever messages its page has. -/
def withoutPage : PorchResponse → PorchResponse
  | .ok (.messages _) => .ok (.messages [])
  | answer => answer

namespace Porch

/-- Answer one request of some peer. -/
def serve (files : HostFiles) (p : Porch) (turn : Turn) : Porch × PorchResponse :=
  ((dispatchPorch files p turn.peer turn.call).1,
    withoutPage (dispatchPorch files p turn.peer turn.call).2)

/-- The porch after the requests of some peers. -/
def after (files : HostFiles) (p : Porch) (turns : List Turn) : Porch :=
  Machine.run (fun p turn => (serve files p turn).1) p turns

/-- The knocks of a peer, without their stamps. -/
def ownKnocks (visitor : String) (p : Porch) : List (Seen .channelKnocks) :=
  (p.seen .channelKnocks).filter fun row => row.cols.knockerPeerId = visitor

/-- A request names no knock that another peer filed since. -/
def NamesNoNewKnock (visitor : String) (p₀ p : Porch) : PorchRequest → Prop
  | .withdrawKnock knockId => p.foreignKnock visitor knockId = p₀.foreignKnock visitor knockId
  | _ => True

/-- The porches differ in the messages and in the knocks of other peers at most. -/
structure Alongside (visitor : String) (p q : Porch) : Prop where
  frame : ∀ t, t ≠ .channelMessages → t ≠ .channelKnocks → p.tables t = q.tables t
  knocks : p.ownKnocks visitor = q.ownKnocks visitor
  fileBacked : p.fileBacked = q.fileBacked

variable {files : HostFiles} {p q : Porch} {visitor channelId knockId id : String} {now : Int64}

namespace Alongside

theorem refl : Alongside visitor p p := ⟨fun _ _ _ => rfl, rfl, rfl⟩

section Readers

variable (h : Alongside visitor p q)
include h

theorem find?_eq {t : SyncedTable} (notMessages : t ≠ .channelMessages)
    (notKnocks : t ≠ .channelKnocks) (k : t.Key) : p.db.find? t k = q.db.find? t k :=
  congrArg (fun table => KeyedTable.find? table k) (h.frame t notMessages notKnocks)

theorem getChannel : p.getChannel = q.getChannel := by
  funext channelId
  unfold Porch.getChannel
  rw [h.find?_eq (by decide) (by decide)]

theorem getAsset : p.getAsset = q.getAsset := by
  funext assetId
  unfold Porch.getAsset
  rw [h.find?_eq (by decide) (by decide)]

theorem canVisit : p.canVisit = q.canVisit := by
  funext peerId ch
  unfold Porch.canVisit lookupAcl
  rw [h.find?_eq (by decide) (by decide)]

theorem visitChannel : p.visitChannel = q.visitChannel := by
  funext peerId channelId
  unfold Porch.visitChannel
  rw [h.getChannel, h.canVisit]

theorem gateObsidian : p.gateObsidian = q.gateObsidian := by
  funext peerId channelId
  unfold Porch.gateObsidian
  rw [h.getChannel, h.canVisit]

theorem getTheme : p.getTheme = q.getTheme := by
  funext channelId
  unfold Porch.getTheme
  rw [h.find?_eq (by decide) (by decide)]

theorem obsidianBinding : p.obsidianBinding = q.obsidianBinding := by
  funext channelId
  unfold Porch.obsidianBinding getObsidianConfig
  rw [h.find?_eq (by decide) (by decide)]

theorem visitAsset : p.visitAsset files visitor = q.visitAsset files visitor := by
  funext assetId
  unfold Porch.visitAsset readAssetBytes
  rw [h.getAsset, h.visitChannel, h.fileBacked]

theorem listChannels : p.listChannels = q.listChannels := by
  unfold Porch.listChannels
  rw [h.frame .porchChannels (by decide) (by decide)]

/-- A condition that only knocks of the visitor meet selects the same knocks. -/
theorem filter_seen {e : Seen .channelKnocks → Bool}
    (own : ∀ row, e row = true → row.cols.knockerPeerId = visitor) :
    (p.seen .channelKnocks).filter e = (q.seen .channelKnocks).filter e := by
  have narrow : e = fun row => e row && decide (row.cols.knockerPeerId = visitor) := by
    funext row
    cases he : e row with
    | false => rfl
    | true => exact (decide_eq_true (own row he)).symm
  have rows := h.knocks
  unfold ownKnocks at rows
  rw [narrow, ← List.filter_filter, ← List.filter_filter, rows]

theorem lookupKnockPending (channelId : String) :
    p.lookupKnockPending channelId visitor = q.lookupKnockPending channelId visitor := by
  have rows := h.filter_seen (e := fun row => row.cols.channelId = channelId ∧
    row.cols.knockerPeerId = visitor ∧ row.cols.status = "pending")
    fun row he => (of_decide_eq_true he).2.1
  have read := congrArg (fun rows => rows.head?.map fun row => row.cols.toKnock) rows
  simp only [List.head?_filter, seen, List.find?_map, Option.map_map] at read
  exact read

theorem knockStatusFor (channelId : String) :
    p.knockStatusFor channelId visitor = q.knockStatusFor channelId visitor := by
  have rows := h.filter_seen (e := fun row => row.cols.channelId = channelId ∧
    row.cols.knockerPeerId = visitor) fun row he => (of_decide_eq_true he).2
  have read := congrArg (List.map fun row => row.cols.toKnock) rows
  rw [seen, seen, List.filter_map, List.filter_map, List.map_map, List.map_map] at read
  unfold Porch.knockStatusFor
  rw [h.lookupKnockPending channelId]
  congr 3

theorem listChannelRow : p.listChannelRow visitor = q.listChannelRow visitor := by
  funext ch
  unfold Porch.listChannelRow getThemeSummary
  rw [h.canVisit, h.knockStatusFor, h.getTheme]

/-- A knock id is a knock of the visitor that reads the same in both, or no knock of it in either. -/
theorem knock_cases (knockId : String) :
    (∃ rp rq, p.db.find? .channelKnocks knockId = some rp ∧
      q.db.find? .channelKnocks knockId = some rq ∧ rp.cols = rq.cols ∧
      rp.cols.knockerPeerId = visitor) ∨
    ((∀ row ∈ p.db.find? .channelKnocks knockId, row.cols.knockerPeerId ≠ visitor) ∧
      ∀ row ∈ q.db.find? .channelKnocks knockId, row.cols.knockerPeerId ≠ visitor) := by
  have found : ∀ r : Porch, ((r.db.find? .channelKnocks knockId).map Row.seen).filter
      (fun row => row.cols.knockerPeerId = visitor) =
        (r.ownKnocks visitor).find? fun row => row.cols.id = knockId :=
    fun r => find?_seen_filter (t := .channelKnocks) knockId fun cols => cols.knockerPeerId = visitor
  have same := (found p).trans ((congrArg _ h.knocks).trans (found q).symm)
  have foreign : ∀ {r : Porch}, ((r.db.find? .channelKnocks knockId).map Row.seen).filter
      (fun row => row.cols.knockerPeerId = visitor) = none →
        ∀ row ∈ r.db.find? .channelKnocks knockId, row.cols.knockerPeerId ≠ visitor := by
    intro r none row hrow own
    rw [Option.mem_def.mp hrow, Option.map_some, Option.filter_some,
      if_pos (decide_eq_true (show row.seen.cols.knockerPeerId = visitor from own))] at none
    cases none
  cases hp : ((p.db.find? .channelKnocks knockId).map Row.seen).filter
      (fun row => row.cols.knockerPeerId = visitor) with
  | none => exact .inr ⟨foreign hp, foreign (same.symm.trans hp)⟩
  | some row =>
    obtain ⟨heldp, own⟩ := Option.filter_eq_some_iff.mp hp
    obtain ⟨heldq, -⟩ := Option.filter_eq_some_iff.mp (same.symm.trans hp)
    obtain ⟨rp, findp, rfl⟩ := Option.map_eq_some_iff.mp heldp
    obtain ⟨rq, findq, seen⟩ := Option.map_eq_some_iff.mp heldq
    exact .inl ⟨rp, rq, findp, findq, (congrArg Seen.cols seen).symm, of_decide_eq_true own⟩

end Readers

/-! ## Writes of the visitor -/

variable {dbp dbq : Database}

/-- A write of messages alone keeps the porches alongside. -/
theorem messages (h : Alongside visitor p q)
    (framep : ∀ t ≠ .channelMessages, dbp.tables t = p.tables t)
    (frameq : ∀ t ≠ .channelMessages, dbq.tables t = q.tables t) :
    Alongside visitor { p with db := dbp } { q with db := dbq } where
  frame t notMessages notKnocks := by
    show dbp.tables t = dbq.tables t
    rw [framep t notMessages, frameq t notMessages, h.frame t notMessages notKnocks]
  knocks := by
    have own := h.knocks
    unfold ownKnocks seen at own ⊢
    rw [← framep .channelKnocks (by decide), ← frameq .channelKnocks (by decide)] at own
    exact own
  fileBacked := h.fileBacked

/-- A write of knocks alone does, when the visitor's knocks read the same after it. -/
theorem writeKnocks (h : Alongside visitor p q)
    (framep : ∀ t ≠ .channelKnocks, dbp.tables t = p.tables t)
    (frameq : ∀ t ≠ .channelKnocks, dbq.tables t = q.tables t)
    (knocks : ownKnocks visitor { p with db := dbp } = ownKnocks visitor { q with db := dbq }) :
    Alongside visitor { p with db := dbp } { q with db := dbq } where
  frame t notMessages notKnocks := by
    show dbp.tables t = dbq.tables t
    rw [framep t notKnocks, frameq t notKnocks, h.frame t notMessages notKnocks]
  knocks := knocks
  fileBacked := h.fileBacked

end Alongside

theorem ownKnocks_append {db : Database} {row : ChannelKnockRow}
    (rows : (db.tables .channelKnocks).rows = (p.tables .channelKnocks).rows ++ [row]) :
    ownKnocks visitor { p with db := db } =
      p.ownKnocks visitor ++ [row.seen].filter fun row => row.cols.knockerPeerId = visitor := by
  unfold ownKnocks seen
  rw [show ({ p with db := db } : Porch).tables = db.tables from rfl, rows, List.map_append,
    List.filter_append, List.map_singleton]

/-- A withdrawal keeps whose each knock is. -/
theorem ownKnocks_withdraw {db : Database} (rows : (db.tables .channelKnocks).rows =
      (p.tables .channelKnocks).rows.map fun r =>
        if r.key = knockId then p.resolveSet .withdrawn now r else r) :
    ownKnocks visitor { p with db := db } =
      (p.ownKnocks visitor).map (withdrawSeen knockId now) := by
  have whose : ∀ row, (withdrawSeen knockId now row).cols.knockerPeerId = row.cols.knockerPeerId := by
    intro row
    unfold withdrawSeen
    split <;> rfl
  unfold ownKnocks seen
  rw [show ({ p with db := db } : Porch).tables = db.tables from rfl, rows, List.map_map]
  have mapped : (Row.seen ∘ fun r => if r.key = knockId then p.resolveSet .withdrawn now r else r) =
      withdrawSeen knockId now ∘ Row.seen :=
    funext fun row => seen_resolve knockId now row
  rw [mapped, ← List.map_map, List.filter_map]
  congr 2
  funext row
  simp only [Function.comp_apply, whose]

/-- Two outcomes of a request. -/
def AlikeResult (visitor : String) (a b : Porch × PorchResult) : Prop :=
  Alongside visitor a.1 b.1 ∧ withoutPage (.ok a.2) = withoutPage (.ok b.2)

/-- Two outcomes of a write. -/
def AlikeOutcome {α : Type} (visitor : String) (out out' : Outcome α) : Prop :=
  Alongside visitor out.porch out'.porch ∧ out.answer = out'.answer

namespace Alongside

section Requests

variable (h : Alongside visitor p q)
include h

theorem alike_postMessage {body : String} (there : (p.getChannel channelId).isSome = true)
    (freep : p.Unused id) (freeq : q.Unused id) :
    Alike (AlikeOutcome visitor) (p.postMessage channelId visitor body id now)
      (q.postMessage channelId visitor body id now) := by
  cases empty : body.isEmpty with
  | true =>
    simp only [postMessage, empty, if_true]
    exact .error _
  | false =>
    by_cases small : body.utf8ByteSize > maxMessageBodyBytes
    · simp only [postMessage, empty, Bool.false_eq_true, if_false, small, if_true]
      exact .error _
    · obtain ⟨dbp, _, hp, _, framep⟩ := exists_postMessage visitor now there freep.1 empty small
      rw [h.getChannel] at there
      obtain ⟨dbq, _, hq, _, frameq⟩ := exists_postMessage visitor now there freeq.1 empty small
      rw [hp, hq]
      exact .ok ⟨h.messages framep frameq, rfl⟩

theorem alike_knock {message : Option String} (there : (p.getChannel channelId).isSome = true)
    (freep : p.Unused id) (freeq : q.Unused id) :
    Alike (AlikeOutcome visitor) (p.knock channelId visitor message id now)
      (q.knock channelId visitor message id now) := by
  have thereq : (q.getChannel channelId).isSome = true := h.getChannel ▸ there
  have absent : ∀ {o : Option PorchChannel}, o.isSome = true → ¬ o.isNone = true := by
    intro o ho hn
    rw [← Option.not_isSome, ho] at hn
    cases hn
  by_cases small : message.elim 0 String.utf8ByteSize > maxKnockMessageBytes
  · simp only [knock, absent there, absent thereq, small, if_true]
    exact .error _
  · have pending := h.lookupKnockPending channelId
    cases hpending : p.lookupKnockPending channelId visitor with
    | some existing =>
      rw [hpending] at pending
      simp only [knock, absent there, absent thereq, if_false, small, hpending, ← pending]
      exact .ok ⟨h, rfl⟩
    | none =>
      rw [hpending] at pending
      obtain ⟨dbp, _, hp, rowsp, framep⟩ := exists_knock now there freep.2 small hpending
      obtain ⟨dbq, _, hq, rowsq, frameq⟩ := exists_knock now thereq freeq.2 small pending.symm
      rw [hp, hq]
      refine .ok ⟨h.writeKnocks framep frameq ?_, rfl⟩
      rw [ownKnocks_append rowsp, ownKnocks_append rowsq, h.knocks, seen_stampRow, seen_stampRow]

/-- A withdrawal of a knock of the visitor. -/
theorem alike_withdrawKnock {rp rq : ChannelKnockRow}
    (foundp : p.db.find? .channelKnocks knockId = some rp)
    (foundq : q.db.find? .channelKnocks knockId = some rq) (cols : rp.cols = rq.cols)
    (own : rp.cols.knockerPeerId = visitor) :
    Alike (AlikeOutcome visitor) (p.withdrawKnock knockId visitor now)
      (q.withdrawKnock knockId visitor now) := by
  have ownq : rq.cols.knockerPeerId = visitor := cols ▸ own
  by_cases pending : rp.cols.toKnock.status = .pending
  · obtain ⟨dbp, _, hp, rowsp, framep⟩ := withdrawKnock_pending now foundp own pending
    obtain ⟨dbq, _, hq, rowsq, frameq⟩ := withdrawKnock_pending now foundq ownq (cols ▸ pending)
    rw [hp, hq]
    refine .ok ⟨h.writeKnocks framep frameq ?_, ?_⟩
    · rw [ownKnocks_withdraw rowsp, ownKnocks_withdraw rowsq, h.knocks]
    · rw [cols]
  · rw [withdrawKnock_settled foundp own pending, withdrawKnock_settled foundq ownq (cols ▸ pending),
      cols]
    exact .error _

end Requests

end Alongside

/-- A knock of the visitor is no foreign one. -/
theorem foreignKnock_own {row : ChannelKnockRow}
    (found : p.db.find? .channelKnocks knockId = some row)
    (own : row.cols.knockerPeerId = visitor) : p.foreignKnock visitor knockId = none := by
  have mine : row.cols.toKnock.knockerPeerId = visitor := own
  simp only [foreignKnock, lookupKnockById, found, Option.map_some, Option.filter_some, mine, ne_eq,
    not_true_eq_false, decide_false, Bool.false_eq_true, if_false, Option.map_none]

/-- The refusal of a withdrawal by the channel of the knock another peer filed. -/
def withdrawRefusal (knockId : String) : Option String → PorchError
  | none => .invalidInput ("knock not found: " ++ knockId)
  | some channelId => .accessDenied channelId

/-- A request is answered alike, or it withdraws a knock that is not the visitor's. -/
theorem Alongside.dispatch_cases (files : HostFiles) (h : Alongside visitor p q) (call : PorchCall)
    (freep : p.Unused call.id) (freeq : q.Unused call.id) :
    (Alike (AlikeResult visitor) (dispatchRequest files p visitor call)
        (dispatchRequest files q visitor call) ∧ NamesNoNewKnock visitor q p call.request) ∨
      ∃ knockId, call.request = .withdrawKnock knockId ∧
        dispatchRequest files p visitor call =
          .error (withdrawRefusal knockId (p.foreignKnock visitor knockId)) ∧
        dispatchRequest files q visitor call =
          .error (withdrawRefusal knockId (q.foreignKnock visitor knockId)) := by
  obtain ⟨request, id, now⟩ := call
  cases request with
  | listChannels =>
    refine .inl ⟨.ok ⟨h, ?_⟩, trivial⟩
    rw [h.listChannels, h.listChannelRow]
  | getMessages channelId since limit =>
    refine .inl ⟨(Alike.of_eq (by rw [h.visitChannel])).bind fun ch _ visited _ => ?_, trivial⟩
    unfold Porch.getMessages
    rw [h.getChannel]
    split
    · exact .error _
    · exact .ok ⟨h, rfl⟩
  | postMessage channelId body =>
    refine .inl ⟨(Alike.of_eq (by rw [h.visitChannel])).bind fun ch _ visited _ => ?_, trivial⟩
    refine (h.alike_postMessage ?_ freep freeq).bind ?_
    · unfold Porch.visitChannel at visited
      split at visited
      · cases visited
      · rw [‹p.getChannel channelId = _›]
        rfl
    · rintro out out' _ ⟨same, answer⟩
      refine .ok ⟨same, ?_⟩
      rw [answer]
  | knock channelId message =>
    refine .inl ⟨?_, trivial⟩
    simp only [dispatchRequest, ← h.getChannel]
    cases hc : p.getChannel channelId with
    | none => exact .error _
    | some ch =>
      dsimp only
      split
      · exact .error _
      · exact .error _
      · refine (h.alike_knock (by rw [hc]; rfl) freep freeq).bind ?_
        rintro out out' _ ⟨same, answer⟩
        refine .ok ⟨same, ?_⟩
        rw [answer]
  | knockStatus channelId =>
    refine .inl ⟨.ok ⟨h, ?_⟩, trivial⟩
    rw [h.knockStatusFor]
  | withdrawKnock knockId =>
    rcases h.knock_cases knockId with ⟨rp, rq, hp, hq, cols, own⟩ | ⟨hp, hq⟩
    · refine .inl ⟨(h.alike_withdrawKnock hp hq cols own).bind ?_, ?_⟩
      · rintro out out' _ ⟨same, answer⟩
        refine .ok ⟨same, ?_⟩
        rw [answer]
      · exact (foreignKnock_own hp own).trans (foreignKnock_own hq (cols ▸ own)).symm
    · refine .inr ⟨knockId, rfl, ?_, ?_⟩
      · show (p.withdrawKnock knockId visitor now >>= _) = _
        rw [withdrawKnock_foreign hp]
        cases p.foreignKnock visitor knockId <;> rfl
      · show (q.withdrawKnock knockId visitor now >>= _) = _
        rw [withdrawKnock_foreign hq]
        cases q.foreignKnock visitor knockId <;> rfl
  | getTheme channelId =>
    refine .inl ⟨(Alike.of_eq (by rw [h.visitChannel])).bind fun ch _ visited _ => .ok ⟨h, ?_⟩,
      trivial⟩
    rw [h.getTheme]
  | getAssetBytes assetId =>
    refine .inl ⟨(Alike.of_eq (by rw [h.visitAsset])).bind fun response _ _ same => .ok ⟨h, ?_⟩,
      trivial⟩
    rw [same]
  | listVault channelId path =>
    refine .inl ⟨(Alike.of_eq (by rw [h.gateObsidian])).bind fun ch _ gated _ => ?_, trivial⟩
    unfold listVault
    rw [h.obsidianBinding]
    refine (Alike.of_eq rfl).bind fun entries _ _ same => .ok ⟨h, ?_⟩
    rw [same]
  | getVaultFile channelId path =>
    refine .inl ⟨(Alike.of_eq (by rw [h.gateObsidian])).bind fun ch _ gated _ => ?_, trivial⟩
    unfold readVaultFile
    rw [h.obsidianBinding]
    refine (Alike.of_eq rfl).bind fun read read' _ same => ?_
    subst same
    dsimp only
    split
    · exact .ok ⟨h, rfl⟩
    · exact .ok ⟨h, rfl⟩

/-! ## What one request leaves -/

/-- What a request of a peer does to the rows of the porch. -/
inductive Served (p : Porch) (turn : Turn) (p' : Porch) (answer : PorchResponse) : Prop where
  | still (same : p' = p) (noPost : ∀ message, answer ≠ .ok (.message message))
  | message (channelId body : String) (asked : turn.call.request = .postMessage channelId body)
      (visits : (p.visitChannel turn.peer channelId).toOption.isSome = true) (db : Database)
      (left : p' = { p with db := db })
      (rows : (db.tables .channelMessages).rows = (p.tables .channelMessages).rows ++
        [p.stampRow .channelMessages p.nextLamport
          ⟨turn.call.id, channelId, turn.peer, body, turn.call.now⟩])
      (frame : ∀ t ≠ .channelMessages, db.tables t = p.tables t)
      (told : answer =
        .ok (.message ⟨turn.call.id, channelId, turn.peer, body, turn.call.now⟩))
  | knock (row : ChannelKnockRow) (own : row.cols.knockerPeerId = turn.peer) (db : Database)
      (left : p' = { p with db := db })
      (rows : (db.tables .channelKnocks).rows = (p.tables .channelKnocks).rows ++ [row])
      (frame : ∀ t ≠ .channelKnocks, db.tables t = p.tables t)
      (noPost : ∀ message, answer ≠ .ok (.message message))
  | withdraw (knockId : String) (now : Int64)
      (own : ∀ row ∈ p.db.find? .channelKnocks knockId, row.cols.knockerPeerId = turn.peer)
      (db : Database) (left : p' = { p with db := db })
      (rows : (db.tables .channelKnocks).rows = (p.tables .channelKnocks).rows.map fun r =>
        if r.key = knockId then p.resolveSet .withdrawn now r else r)
      (frame : ∀ t ≠ .channelKnocks, db.tables t = p.tables t)
      (noPost : ∀ message, answer ≠ .ok (.message message))

theorem served_knock {turn : Turn} {message : Option String} {out : Outcome Knock}
    (h : p.knock channelId turn.peer message id now = .ok out) :
    Served p turn out.porch (.ok (.knock out.answer)) := by
  have noPost : ∀ message, (Except.ok (.knock out.answer) : PorchResponse) ≠ .ok (.message message) :=
    fun message he => by cases he
  unfold Porch.knock at h
  split at h
  · cases h
  split at h
  · cases h
  split at h
  · cases h
    exact .still rfl noPost
  · obtain ⟨db, hdb, rfl⟩ := finish_eq_ok h
    obtain ⟨rows, frame⟩ := rows_of_insert hdb
    exact .knock _ rfl db rfl rows frame noPost

theorem served_withdrawKnock {turn : Turn} {out : Outcome Knock}
    (h : p.withdrawKnock knockId turn.peer now = .ok out) :
    Served p turn out.porch (.ok (.knock out.answer)) := by
  have own : ∀ row ∈ p.db.find? .channelKnocks knockId, row.cols.knockerPeerId = turn.peer := by
    intro row found
    by_contra foreign
    have alone : ∀ row ∈ p.db.find? .channelKnocks knockId, row.cols.knockerPeerId ≠ turn.peer := by
      intro other hother
      cases found.symm.trans hother
      exact foreign
    cases h.symm.trans (withdrawKnock_foreign alone)
  unfold Porch.withdrawKnock resolveKnock at h
  split at h
  · cases h
  · obtain ⟨db, hdb, rfl⟩ := finish_eq_ok h
    obtain ⟨rows, frame⟩ := rows_of_updateWhere hdb
    simp only [decide_eq_true_eq] at rows
    exact .withdraw knockId now own db rfl rows frame fun message he => by cases he

/-- Every request of every peer does one of these. -/
theorem served_dispatchPorch (files : HostFiles) (p : Porch) (turn : Turn) :
    Served p turn (dispatchPorch files p turn.peer turn.call).1
      (dispatchPorch files p turn.peer turn.call).2 := by
  obtain ⟨peer, request, id, now⟩ := turn
  have of_ok : ∀ p' result, dispatchRequest files p peer ⟨request, id, now⟩ = .ok (p', result) →
      Served p ⟨peer, request, id, now⟩ p' (.ok result) := by
    intro p' result h
    cases request with
    | listChannels | knockStatus =>
      cases h
      exact .still rfl fun message he => by cases he
    | getMessages | getTheme | getAssetBytes =>
      simp only [dispatchRequest] at h
      obtain ⟨_, _, h⟩ := except_bind_eq_ok.mp h
      first
        | cases h
        | obtain ⟨_, _, h⟩ := except_bind_eq_ok.mp h
          cases h
      exact .still rfl fun message he => by cases he
    | listVault =>
      obtain ⟨_, _, h⟩ := except_bind_eq_ok.mp h
      obtain ⟨_, _, h⟩ := except_bind_eq_ok.mp h
      cases h
      exact .still rfl fun message he => by cases he
    | getVaultFile =>
      obtain ⟨_, _, h⟩ := except_bind_eq_ok.mp h
      obtain ⟨⟨bytes, mime⟩, _, h⟩ := except_bind_eq_ok.mp h
      dsimp only at h
      split at h
      · cases h
        exact .still rfl fun message he => by cases he
      · cases h
        exact .still rfl fun message he => by cases he
    | postMessage channelId body =>
      obtain ⟨ch, visited, h⟩ := except_bind_eq_ok.mp h
      obtain ⟨out, posted, h⟩ := except_bind_eq_ok.mp h
      cases h
      unfold Porch.postMessage at posted
      split at posted
      · cases posted
      split at posted
      · cases posted
      split at posted
      · cases posted
      obtain ⟨db, hdb, rfl⟩ := finish_eq_ok posted
      obtain ⟨rows, frame⟩ := rows_of_insert hdb
      refine .message channelId body rfl ?_ db rfl rows frame rfl
      rw [show p.visitChannel peer channelId = .ok ch from visited]
      rfl
    | knock channelId message =>
      simp only [dispatchRequest] at h
      split at h
      · cases h
      split at h
      · cases h
      · cases h
      · obtain ⟨out, knocked, h⟩ := except_bind_eq_ok.mp h
        cases h
        exact served_knock knocked
    | withdrawKnock knockId =>
      obtain ⟨out, withdrawn, h⟩ := except_bind_eq_ok.mp h
      cases h
      exact served_withdrawKnock withdrawn
  unfold dispatchPorch
  split
  · exact of_ok _ _ ‹_›
  · exact .still rfl fun message he => by cases he

namespace Served

variable {turn : Turn} {p' : Porch} {answer : PorchResponse}

/-- No table but the messages and the knocks is written. -/
theorem frame_eq (h : Served p turn p' answer) : ∃ db, p' = { p with db := db } ∧
    ∀ t, t ≠ .channelMessages → t ≠ .channelKnocks → db.tables t = p.tables t := by
  cases h with
  | still same _ => exact ⟨p.db, same, fun _ _ _ => rfl⟩
  | message _ _ _ _ db left _ frame _ => exact ⟨db, left, fun t notMessages _ => frame t notMessages⟩
  | knock _ _ db left _ frame _ => exact ⟨db, left, fun t _ notKnocks => frame t notKnocks⟩
  | withdraw _ _ _ db left _ frame _ => exact ⟨db, left, fun t _ notKnocks => frame t notKnocks⟩

/-- The knocks of the other peers stay. -/
theorem ownKnocks_eq (h : Served p turn p' answer) (other : turn.peer ≠ visitor) :
    p'.ownKnocks visitor = p.ownKnocks visitor := by
  cases h with
  | still same _ => rw [same]
  | message _ _ _ _ db left _ frame _ =>
    rw [left]
    unfold ownKnocks seen
    rw [← frame .channelKnocks (by decide)]
  | knock row own db left rows _ _ =>
    have foreign : row.seen.cols.knockerPeerId ≠ visitor := fun mine => other (own.symm.trans mine)
    rw [left, ownKnocks_append rows, List.filter_singleton, decide_eq_false foreign]
    exact List.append_nil _
  | withdraw knockId now own db left rows _ _ =>
    rw [left, ownKnocks_withdraw rows]
    refine (List.map_congr_left fun seen hs => ?_).trans (List.map_id _)
    obtain ⟨held, mine⟩ := List.mem_filter.mp hs
    obtain ⟨row, hrow, rfl⟩ := List.mem_map.mp held
    refine if_neg fun hk => other ?_
    have found : p.db.find? .channelKnocks knockId = some row :=
      KeyedTable.find?_eq_some_iff.mpr ⟨hrow, hk⟩
    exact (own row found).symm.trans (of_decide_eq_true mine)

end Served

/-! ## A visitor among others -/

/-- The porch all peers met, the porch that one peer met alone, and the requests still to come. -/
structure Apart (visitor : String) (p₀ : Porch) (turns : List Turn) (p q : Porch) : Prop where
  alongside : Alongside visitor p q
  fresh : FreshIds p q (turns.map Turn.call)
  foreign : q.foreignKnock visitor = p₀.foreignKnock visitor

/-- The answer to a request that both porches answer alike, and what they are after it. -/
theorem serve_alike {turn : Turn} (alike : Alike (AlikeResult turn.peer)
      (dispatchRequest files p turn.peer turn.call) (dispatchRequest files q turn.peer turn.call))
    (h : Alongside turn.peer p q) :
    (serve files p turn).2 = (serve files q turn).2 ∧
      Alongside turn.peer (serve files p turn).1 (serve files q turn).1 := by
  unfold serve dispatchPorch
  generalize dispatchRequest files p turn.peer turn.call = a at alike
  generalize dispatchRequest files q turn.peer turn.call = b at alike
  cases alike with
  | error e => exact ⟨rfl, h⟩
  | ok same => exact ⟨same.2, same.1⟩

/-- The refusals of a withdrawal are alike only where the knock is the same to the visitor. -/
theorem withdrawRefusal_inj {a b : Option String}
    (h : PorchErrorBody.ofError (withdrawRefusal knockId a) = .ofError (withdrawRefusal knockId b)) :
    a = b := by
  refine eq_of_refusal (.invalidInput ("knock not found: " ++ knockId))
    (show (400 : Int) ≠ 403 by decide) ?_
  cases a <;> cases b <;> exact h

/-- The ids a call leaves for those after it. -/
theorem FreshIds.step {call : PorchCall} {calls : List PorchCall} {p' q' : Porch}
    (h : FreshIds p q (call :: calls))
    (keptp : ∀ id ≠ call.id, p.Unused id → p'.Unused id)
    (keptq : ∀ id ≠ call.id, q.Unused id → q'.Unused id) : FreshIds p' q' calls := by
  have nodup := h.nodup
  rw [List.map_cons, List.nodup_cons] at nodup
  refine ⟨nodup.2, fun later hlater => ?_⟩
  have other : later.id ≠ call.id := fun e => nodup.1 (e ▸ List.mem_map_of_mem hlater)
  obtain ⟨freep, freeq⟩ := h.unused later (List.mem_cons_of_mem _ hlater)
  exact ⟨keptp later.id other freep, keptq later.id other freeq⟩

theorem hides (files : HostFiles) (visitor : String) (p₀ : Porch) :
    Hides (serve files) (fun turn => decide (turn.peer = visitor)) (Apart visitor p₀)
      fun p turn => NamesNoNewKnock visitor p₀ p turn.call.request where
  skips turn turns p q other h := by
    have served := served_dispatchPorch files p turn
    obtain ⟨db, left, frame⟩ := served.frame_eq
    have left' : (serve files p turn).1 = { p with db := db } := left
    refine ⟨⟨fun t notMessages notKnocks => ?_, ?_, ?_⟩, h.fresh.step ?_ fun _ _ free => free,
      h.foreign⟩
    · rw [left']
      exact (frame t notMessages notKnocks).trans (h.alongside.frame t notMessages notKnocks)
    · exact (served.ownKnocks_eq (of_decide_eq_false other)).trans h.alongside.knocks
    · rw [left']
      exact h.alongside.fileBacked
    · exact fun id hid free => (leftBy_dispatchPorch files p turn.peer turn.call).unused free hid
  keeps turn turns p q own h := by
    obtain rfl := of_decide_eq_true own
    obtain ⟨freep, freeq⟩ := h.fresh.unused turn.call List.mem_cons_self
    have leftp := leftBy_dispatchPorch files p turn.peer turn.call
    have leftq := leftBy_dispatchPorch files q turn.peer turn.call
    refine ⟨?_, h.fresh.step (fun id hid free => leftp.unused free hid)
      fun id hid free => leftq.unused free hid, leftq.foreignKnock.trans h.foreign⟩
    rcases h.alongside.dispatch_cases files turn.call freep freeq with
      ⟨alike, -⟩ | ⟨knockId, -, hp, hq⟩
    · exact (serve_alike alike h.alongside).2
    · unfold serve dispatchPorch
      rw [hp, hq]
      exact h.alongside
  answers turn turns p q own h := by
    obtain rfl := of_decide_eq_true own
    obtain ⟨freep, freeq⟩ := h.fresh.unused turn.call List.mem_cons_self
    rcases h.alongside.dispatch_cases files turn.call freep freeq with
      ⟨alike, blind⟩ | ⟨knockId, asked, hp, hq⟩
    · refine iff_of_true (serve_alike alike h.alongside).1 ?_
      cases hr : turn.call.request with
      | withdrawKnock knockId =>
        rw [hr] at blind
        exact blind.trans (congrFun h.foreign knockId)
      | _ => trivial
    · rw [asked, serve, serve, response_of_error hp, response_of_error hq]
      show (Except.error _ : PorchResponse) = Except.error _ ↔ _ = _
      rw [Except.error.injEq, ← h.foreign]
      exact ⟨withdrawRefusal_inj, congrArg fun a => PorchErrorBody.ofError (withdrawRefusal knockId a)⟩

/-- In any order of any peers' requests a visitor is answered, the messages of its pages aside, as
if it were alone with the porch, exactly when it withdraws no knock that another peer filed since;
and its knocks are what they are when it is alone. -/
theorem outputsOf_serve_eq_iff (files : HostFiles) (visitor : String) (turns : List Turn)
    (nodup : (turns.map fun turn => turn.call.id).Nodup)
    (unused : ∀ turn ∈ turns, p.Unused turn.call.id) :
    (outputsOf (serve files) (fun turn => turn.peer = visitor) p turns =
        outputs (serve files) p (turns.filter fun turn => turn.peer = visitor) ↔
      Machine.Along (fun p turn => (serve files p turn).1)
        (fun q turn => turn.peer = visitor → NamesNoNewKnock visitor p q turn.call.request)
        p turns) ∧
    (p.after files turns).ownKnocks visitor =
      (p.after files (turns.filter fun turn => turn.peer = visitor)).ownKnocks visitor := by
  have start : Apart visitor p turns p p := by
    refine ⟨.refl, ⟨by rwa [List.map_map], fun call hcall => ?_⟩, rfl⟩
    obtain ⟨turn, hturn, rfl⟩ := List.mem_map.mp hcall
    exact ⟨unused turn hturn, unused turn hturn⟩
  have told := (hides files visitor p).outputsOf_eq_iff start
  simp only [decide_eq_true_eq] at told
  exact ⟨told, ((hides files visitor p).run start).alongside.knocks⟩

end Porch

/-- A porch with an open channel and one to knock at. -/
def clubPorch : Porch :=
  plainPorch.afterWrite (.insertChannel "club" "Club" .inner .allowlist 2)

/-- Two visitors, each asking in turn. -/
def crowdTurns : List Turn :=
  [⟨"ada", .knock "club" none, "01", 3⟩, ⟨"bob", .postMessage "porch-default" "hi", "02", 4⟩,
    ⟨"bob", .withdrawKnock "01", "03", 5⟩, ⟨"ada", .getMessages "porch-default" none 50, "04", 6⟩,
    ⟨"ada", .withdrawKnock "01", "05", 7⟩]

theorem Porch.outputsOf_serve_eq_iff_crowd :
    outputsOf (serve noHostFiles) (fun turn => turn.peer = "ada") clubPorch crowdTurns =
      outputs (serve noHostFiles) clubPorch (crowdTurns.filter fun turn => turn.peer = "ada") := by
  have free : ∀ id ∈ ["01", "02", "03", "04", "05"], clubPorch.Unused id := by
    unfold Porch.Unused
    decide
  have ids : crowdTurns.map (fun turn => turn.call.id) = ["01", "02", "03", "04", "05"] := rfl
  refine (Porch.outputsOf_serve_eq_iff noHostFiles "ada" crowdTurns (by decide) fun turn hturn =>
    ?_).1.mpr ⟨fun _ => trivial, fun _ => trivial, fun bob => ?_, fun _ => trivial, fun _ => ?_, trivial⟩
  · refine free turn.call.id ?_
    rw [← ids]
    exact List.mem_map_of_mem (f := fun turn : Turn => turn.call.id) hturn
  · exact absurd bob (by decide)
  · show Porch.foreignKnock _ "ada" "01" = clubPorch.foreignKnock "ada" "01"
    decide

namespace Porch

variable {files : HostFiles} {p : Porch}

/-! ## What all of them leave -/

/-- The message that a request is answered with as posted. -/
def posted (files : HostFiles) (p : Porch) (turn : Turn) : List ChannelMessage :=
  match (dispatchPorch files p turn.peer turn.call).2 with
  | .ok (.message message) => [message]
  | _ => []

/-- A message is one that a peer of the turns posted to a channel it could visit. -/
def PostedBy (p : Porch) (turns : List Turn) (message : ChannelMessage) : Prop :=
  ∃ turn ∈ turns, turn.call.request = .postMessage message.channelId message.body ∧
    message = ⟨turn.call.id, message.channelId, turn.peer, message.body, turn.call.now⟩ ∧
    (p.visitChannel turn.peer message.channelId).toOption.isSome = true

theorem posted_of_noPost {turn : Turn}
    (noPost : ∀ message, (dispatchPorch files p turn.peer turn.call).2 ≠ .ok (.message message)) :
    posted files p turn = [] := by
  unfold posted
  split
  · exact absurd ‹_› (noPost _)
  · rfl

/-- One request leaves one message more exactly when it is answered with it. -/
theorem messages_serve (files : HostFiles) (p : Porch) (turn : Turn) :
    ((serve files p turn).1.tables .channelMessages).rows.map Row.cols =
        (p.tables .channelMessages).rows.map Row.cols ++ posted files p turn ∧
      ∀ message ∈ posted files p turn, PostedBy p [turn] message := by
  have same : ∀ {p' : Porch}, p'.tables .channelMessages = p.tables .channelMessages →
      (∀ message, (dispatchPorch files p turn.peer turn.call).2 ≠ .ok (.message message)) →
      (p'.tables .channelMessages).rows.map Row.cols =
          (p.tables .channelMessages).rows.map Row.cols ++ posted files p turn ∧
        ∀ message ∈ posted files p turn, PostedBy p [turn] message := by
    intro p' unchanged noPost
    rw [posted_of_noPost noPost, unchanged, List.append_nil]
    exact ⟨rfl, fun message hm => absurd hm List.not_mem_nil⟩
  have left : (serve files p turn).1 = (dispatchPorch files p turn.peer turn.call).1 := rfl
  rw [left]
  cases served_dispatchPorch files p turn with
  | still stays noPost =>
    refine same ?_ noPost
    rw [stays]
  | knock _ _ db leaves _ frame noPost =>
    refine same ?_ noPost
    rw [leaves]
    exact frame .channelMessages (by decide)
  | withdraw _ _ _ db leaves _ frame noPost =>
    refine same ?_ noPost
    rw [leaves]
    exact frame .channelMessages (by decide)
  | message channelId body asked visits db leaves rows frame told =>
    have one : posted files p turn =
        [⟨turn.call.id, channelId, turn.peer, body, turn.call.now⟩] := by
      rw [posted, told]
    rw [one, leaves]
    refine ⟨?_, fun message hm => ?_⟩
    · show (db.tables .channelMessages).rows.map Row.cols = _
      rw [rows, List.map_append]
      rfl
    · obtain rfl := List.mem_singleton.mp hm
      exact ⟨turn, List.mem_singleton_self turn, asked, rfl, visits⟩

theorem LeftBy.visitChannel {visitor id : String} {p' : Porch} (h : LeftBy p visitor id p') :
    p'.visitChannel = p.visitChannel := by
  funext peerId channelId
  unfold Porch.visitChannel canVisit lookupAcl
  rw [h.getChannel]
  simp only [h.find?_eq (t := .channelAcl) (by decide) (by decide)]

/-- After any requests of any peers the porch has, besides the messages it had, exactly one for each
post that was answered, in the order of the answers. Each is by the peer that posted it and in a
channel that this peer could visit from the start. Only the messages and the knocks are written, and
of the knocks none of a peer that asked nothing. -/
theorem crowd_run (files : HostFiles) (p : Porch) (turns : List Turn) :
    (∃ db, p.after files turns = { p with db := db } ∧
      ∀ t, t ≠ .channelMessages → t ≠ .channelKnocks → db.tables t = p.tables t) ∧
    (((p.after files turns).tables .channelMessages).rows.map Row.cols =
        (p.tables .channelMessages).rows.map Row.cols ++
          Machine.gather (fun p turn => (serve files p turn).1) (posted files) p turns) ∧
    (∀ message ∈ Machine.gather (fun p turn => (serve files p turn).1) (posted files) p turns,
      PostedBy p turns message) ∧
    ∀ visitor, (∀ turn ∈ turns, turn.peer ≠ visitor) →
      (p.after files turns).ownKnocks visitor = p.ownKnocks visitor := by
  induction turns generalizing p with
  | nil =>
    refine ⟨⟨p.db, rfl, fun _ _ _ => rfl⟩, (List.append_nil _).symm, fun message hm => ?_,
      fun _ _ => rfl⟩
    exact absurd hm List.not_mem_nil
  | cons turn turns ih =>
    have served := served_dispatchPorch files p turn
    have visits := (leftBy_dispatchPorch files p turn.peer turn.call).visitChannel
    obtain ⟨messages, mine⟩ := messages_serve files p turn
    obtain ⟨⟨db, left, frame⟩, ledger, authors, knocks⟩ := ih (p := (serve files p turn).1)
    obtain ⟨mid, here, frame'⟩ := served.frame_eq
    have here' : (serve files p turn).1 = { p with db := mid } := here
    refine ⟨⟨db, ?_, fun t notMessages notKnocks => ?_⟩, ?_, fun message hm => ?_,
      fun visitor others => ?_⟩
    · show (serve files p turn).1.after files turns = _
      rw [left, here']
    · rw [frame t notMessages notKnocks, here']
      exact frame' t notMessages notKnocks
    · show (((serve files p turn).1.after files turns).tables .channelMessages).rows.map Row.cols =
        _ ++ (posted files p turn ++ Machine.gather _ _ (serve files p turn).1 turns)
      rw [ledger, messages, List.append_assoc]
    · rcases List.mem_append.mp hm with hm | hm
      · obtain ⟨by_, hby, post⟩ := mine message hm
        obtain rfl := List.mem_singleton.mp hby
        exact ⟨by_, List.mem_cons_self, post⟩
      · obtain ⟨by_, hby, asked, same, visited⟩ := authors message hm
        refine ⟨by_, List.mem_cons_of_mem _ hby, asked, same, ?_⟩
        rwa [show (serve files p turn).1.visitChannel = p.visitChannel from visits] at visited
    · show ((serve files p turn).1.after files turns).ownKnocks visitor = _
      rw [knocks visitor fun later hlater => others later (List.mem_cons_of_mem _ hlater)]
      exact served.ownKnocks_eq (others turn List.mem_cons_self)

end Porch

end Concorrd
