import Concorrd.Porch.LocalOp
import Concorrd.Porch.Migrate
import Concorrd.Visitor.Exposed
import Concorrd.Visitor.Writes

/-!
# Owner-only channels and what tells them apart

Two porches that are the same to a visitor need not answer it alike. The channel list, a knock and
a knock status say nothing of an owner-only channel. Five requests look the channel up first and
refuse afterwards, so an id that names an owner-only channel is refused with another code than one
that names none, and the asset and knock requests even name the channel they refuse.
`Unrevealing` says when a request tells two porches apart by this, and `responses_eq_iff` says that
nothing else does.
-/

namespace Concorrd

open Unwinding

namespace Porch

variable {files : HostFiles} {p q : Porch} {visitor : String}

/-- The request does not tell the porches apart by what a visitor may not learn of. -/
def Unrevealing (visitor : String) (p q : Porch) : PorchRequest → Prop
  | .getMessages channelId _ _ | .postMessage channelId _ | .getTheme channelId =>
    (p.getChannel channelId).isSome = (q.getChannel channelId).isSome
  | .listVault channelId _ | .getVaultFile channelId _ =>
    (p.getChannel channelId).map (fun ch => decide (ch.kind = .obsidian)) =
      (q.getChannel channelId).map fun ch => decide (ch.kind = .obsidian)
  | .getAssetBytes assetId =>
    (p.getAsset assetId).map PorchAsset.channelId = (q.getAsset assetId).map PorchAsset.channelId
  | .withdrawKnock knockId => p.foreignKnock visitor knockId = q.foreignKnock visitor knockId
  | .listChannels | .knock _ _ | .knockStatus _ => True

/-- The ids the calls draw are new to both porches and to each other. -/
structure FreshIds (p q : Porch) (calls : List PorchCall) : Prop where
  nodup : (calls.map PorchCall.id).Nodup
  unused : ∀ call ∈ calls, p.Unused call.id ∧ q.Unused call.id

/-! ## Refusals -/

/-- A channel that a porch has is shown or owner-only. -/
theorem shows_iff {channelId : String} : p.shows channelId = true ↔
    ∃ ch, p.getChannel channelId = some ch ∧ ch.aclMode ≠ .ownerOnly := by
  unfold shows
  simp only [Option.any_eq_true, decide_eq_true_eq]

theorem shows_of_getChannel {channelId : String} {ch : PorchChannel}
    (h : p.getChannel channelId = some ch) (open_ : ch.aclMode ≠ .ownerOnly) :
    p.shows ch.id = true :=
  shows_iff.mpr ⟨ch, id_of_getChannel h ▸ h, open_⟩

/-- No visitor may visit an owner-only channel. -/
theorem canVisit_ownerOnly {ch : PorchChannel} (h : ch.aclMode = .ownerOnly) :
    p.canVisit visitor ch = false := by
  rw [canVisit, h]

theorem shows_of_canVisit {channelId : String} {ch : PorchChannel}
    (h : p.getChannel channelId = some ch) (visits : p.canVisit visitor ch = true) :
    p.shows channelId = true := by
  refine shows_iff.mpr ⟨ch, h, fun owner => ?_⟩
  rw [canVisit_ownerOnly owner] at visits
  cases visits

/-- A channel that a visitor visits is shown. -/
theorem shows_of_visitChannel {channelId : String} {ch : PorchChannel}
    (h : p.visitChannel visitor channelId = .ok ch) : p.shows channelId = true := by
  unfold visitChannel at h
  split at h
  · cases h
  · rename_i found hc
    split at h
    · rename_i visits
      exact shows_of_canVisit hc visits
    · cases h

theorem shows_of_gateObsidian {channelId : String} {ch : PorchChannel}
    (h : p.gateObsidian visitor channelId = .ok ch) : p.shows channelId = true := by
  unfold gateObsidian at h
  split at h
  · cases h
  · rename_i found hc
    split at h
    · cases h
    split at h
    · rename_i visits
      exact shows_of_canVisit hc visits
    · cases h

/-- What a channel id is to two porches that are the same to the visitor. -/
inductive ChannelPair (p q : Porch) (channelId : String) : Prop where
  | shown (ch : PorchChannel) (hp : p.getChannel channelId = some ch)
      (hq : q.getChannel channelId = some ch) (shown : p.shows ch.id = true)
  | hidden (hp : ∀ ch ∈ p.getChannel channelId, ch.aclMode = .ownerOnly)
      (hq : ∀ ch ∈ q.getChannel channelId, ch.aclMode = .ownerOnly)

namespace SameToVisitor

theorem symm (h : SameToVisitor visitor p q) : SameToVisitor visitor q p :=
  ⟨fun t => (h.exposed t).symm, h.fileBacked.symm⟩

theorem channelPair (h : SameToVisitor visitor p q) (channelId : String) :
    ChannelPair p q channelId := by
  by_cases hp : ∃ ch, p.getChannel channelId = some ch ∧ ch.aclMode ≠ .ownerOnly
  · obtain ⟨ch, hp, shown⟩ := hp
    exact .shown ch hp (h.getChannel hp shown) (shows_of_getChannel hp shown)
  · refine .hidden (fun ch hc => ?_) fun ch hc => ?_
    · by_contra shown
      exact hp ⟨ch, hc, shown⟩
    · by_contra shown
      exact hp ⟨ch, h.symm.getChannel hc shown, shown⟩

end SameToVisitor

/-- A visit of a channel that is absent or owner-only. -/
theorem visitChannel_hidden (visitor : String) {channelId : String}
    (h : ∀ ch ∈ p.getChannel channelId, ch.aclMode = .ownerOnly) :
    p.visitChannel visitor channelId =
      .error (if (p.getChannel channelId).isSome then .accessDenied channelId
        else .channelNotFound channelId) := by
  unfold visitChannel
  cases hc : p.getChannel channelId with
  | none => rfl
  | some ch => simp only [canVisit_ownerOnly (h ch hc), Bool.false_eq_true, if_false,
      Option.isSome_some, if_true]

/-- The gate of a channel that is absent or owner-only. -/
theorem gateObsidian_hidden {channelId : String}
    (h : ∀ ch ∈ p.getChannel channelId, ch.aclMode = .ownerOnly) :
    p.gateObsidian visitor channelId =
      .error (match (p.getChannel channelId).map fun ch => decide (ch.kind = .obsidian) with
        | none => .channelNotFound channelId
        | some true => .accessDenied channelId
        | some false =>
          .invalidInput ("channel " ++ channelId ++ " is not an obsidian channel")) := by
  unfold gateObsidian
  cases hc : p.getChannel channelId with
  | none => rfl
  | some ch =>
    by_cases kind : ch.kind = .obsidian
    · simp only [kind, ne_eq, not_true_eq_false, if_false, canVisit_ownerOnly (h ch hc),
        Bool.false_eq_true, Option.map_some, decide_true]
    · simp only [kind, ne_eq, not_false_eq_true, if_true, Option.map_some, decide_false]

/-! ## Requests that do not tell the porches apart -/

/-- Two outcomes of a write. -/
def SameOutcome {α : Type} (visitor : String) (out out' : Outcome α) : Prop :=
  SameToVisitor visitor out.porch out'.porch ∧ out.answer = out'.answer

/-- Two outcomes of a request. -/
def SameResult (visitor : String) (a b : Porch × PorchResult) : Prop :=
  SameToVisitor visitor a.1 b.1 ∧ a.2 = b.2

section Alike

variable (h : SameToVisitor visitor p q)
include h

theorem visitChannel_eq {channelId : String}
    (same : (p.getChannel channelId).isSome = (q.getChannel channelId).isSome) :
    p.visitChannel visitor channelId = q.visitChannel visitor channelId := by
  cases h.channelPair channelId with
  | shown ch hp hq shown =>
    unfold visitChannel
    rw [hp, hq]
    simp only [h.canVisit shown]
  | hidden hp hq => rw [visitChannel_hidden visitor hp, visitChannel_hidden visitor hq, same]

theorem gateObsidian_eq {channelId : String}
    (same : (p.getChannel channelId).map (fun ch => decide (ch.kind = .obsidian)) =
      (q.getChannel channelId).map fun ch => decide (ch.kind = .obsidian)) :
    p.gateObsidian visitor channelId = q.gateObsidian visitor channelId := by
  cases h.channelPair channelId with
  | shown ch hp hq shown =>
    unfold gateObsidian
    rw [hp, hq]
    simp only [h.canVisit shown]
  | hidden hp hq => rw [gateObsidian_hidden hp, gateObsidian_hidden hq, same]

theorem isSome_getChannel {channelId : String} (shown : p.shows channelId = true) :
    (p.getChannel channelId).isSome = true ∧ (q.getChannel channelId).isSome = true := by
  obtain ⟨ch, hp, open_⟩ := shows_iff.mp shown
  rw [hp, h.getChannel hp open_]
  exact ⟨rfl, rfl⟩

theorem alike_postMessage {channelId body id : String} {now : Int64}
    (shown : p.shows channelId = true) (freep : p.Unused id) (freeq : q.Unused id) :
    Alike (SameOutcome visitor) (p.postMessage channelId visitor body id now)
      (q.postMessage channelId visitor body id now) := by
  obtain ⟨therep, thereq⟩ := isSome_getChannel h shown
  cases empty : body.isEmpty with
  | true =>
    simp only [postMessage, empty, if_true]
    exact .error _
  | false =>
    by_cases small : body.utf8ByteSize > maxMessageBodyBytes
    · simp only [postMessage, empty, Bool.false_eq_true, if_false, small, if_true]
      exact .error _
    · obtain ⟨dbp, _, hp, rowsp, framep⟩ :=
        exists_postMessage visitor now therep freep.1 empty small
      obtain ⟨dbq, _, hq, rowsq, frameq⟩ :=
        exists_postMessage visitor now thereq freeq.1 empty small
      rw [hp, hq]
      refine .ok ⟨h.append (t := .channelMessages) (by decide) ?_ rowsp framep rowsq frameq, rfl⟩
      rw [seen_stampRow, seen_stampRow]

theorem alike_knock {channelId id : String} {message : Option String} {now : Int64}
    (shown : p.shows channelId = true) (freep : p.Unused id) (freeq : q.Unused id) :
    Alike (SameOutcome visitor) (p.knock channelId visitor message id now)
      (q.knock channelId visitor message id now) := by
  obtain ⟨therep, thereq⟩ := isSome_getChannel h shown
  have absent : ∀ {o : Option PorchChannel}, o.isSome = true → ¬ o.isNone = true := by
    intro o ho hn
    rw [← Option.not_isSome, ho] at hn
    cases hn
  by_cases small : message.elim 0 String.utf8ByteSize > maxKnockMessageBytes
  · simp only [knock, absent therep, absent thereq, small, if_true]
    exact .error _
  · have pending := h.lookupKnockPending channelId
    cases hpending : p.lookupKnockPending channelId visitor with
    | some existing =>
      rw [hpending] at pending
      simp only [knock, absent therep, absent thereq, if_false, small, hpending, ← pending]
      exact .ok ⟨h, rfl⟩
    | none =>
      rw [hpending] at pending
      obtain ⟨dbp, _, hp, rowsp, framep⟩ :=
        exists_knock now therep freep.2 small hpending
      obtain ⟨dbq, _, hq, rowsq, frameq⟩ :=
        exists_knock now thereq freeq.2 small pending.symm
      rw [hp, hq]
      refine .ok ⟨h.append (t := .channelKnocks) (by decide) ?_ rowsp framep rowsq frameq, rfl⟩
      rw [seen_stampRow, seen_stampRow]

/-- What a knock id is to two porches: a knock of the visitor that reads the same in both, or
nothing the visitor may resolve in either. -/
theorem knock_cases (knockId : String) :
    (∃ rp rq, p.db.find? .channelKnocks knockId = some rp ∧
      q.db.find? .channelKnocks knockId = some rq ∧ rp.cols = rq.cols ∧
      rp.cols.knockerPeerId = visitor) ∨
    ((∀ row ∈ p.db.find? .channelKnocks knockId, row.cols.knockerPeerId ≠ visitor) ∧
      ∀ row ∈ q.db.find? .channelKnocks knockId, row.cols.knockerPeerId ≠ visitor) := by
  rcases h.find?_cases (t := .channelKnocks) knockId with ⟨rp, rq, hp, hq, cols, _⟩ | ⟨hp, hq⟩
  · by_cases own : rp.cols.knockerPeerId = visitor
    · exact .inl ⟨rp, rq, hp, hq, cols, own⟩
    · refine .inr ⟨fun row hrow => ?_, fun row hrow => ?_⟩
      · cases hp.symm.trans hrow
        exact own
      · cases hq.symm.trans hrow
        exact cols ▸ own
  · have foreign : ∀ cols : ChannelKnockCols,
        exposes p.shows visitor .channelKnocks cols = false → cols.knockerPeerId ≠ visitor := by
      intro cols hidden own
      simp only [exposes, own, decide_true, Bool.or_true, Bool.true_eq_false] at hidden
    exact .inr ⟨fun row hrow => foreign _ (hp row hrow), fun row hrow => foreign _ (hq row hrow)⟩

end Alike

/-- The columns a withdrawal assigns. -/
def withdrawSeen (knockId : String) (now : Int64) (row : Seen .channelKnocks) :
    Seen .channelKnocks :=
  if row.cols.id = knockId then
    { row with cols := { row.cols with status := "withdrawn", resolvedAt := some now } }
  else row

theorem seen_resolve (knockId : String) (now : Int64) (row : ChannelKnockRow) :
    (if row.key = knockId then p.resolveSet .withdrawn now row else row).seen =
      withdrawSeen knockId now row.seen := by
  unfold withdrawSeen
  split
  · rename_i hk
    rw [if_pos (show row.seen.cols.id = knockId from hk)]
    rfl
  · rename_i hk
    rw [if_neg (show ¬ row.seen.cols.id = knockId from hk)]

theorem alike_withdrawKnock (h : SameToVisitor visitor p q) {knockId : String} {now : Int64}
    (same : p.foreignKnock visitor knockId = q.foreignKnock visitor knockId) :
    Alike (SameOutcome visitor) (p.withdrawKnock knockId visitor now)
      (q.withdrawKnock knockId visitor now) := by
  rcases knock_cases h knockId with ⟨rp, rq, hp, hq, cols, own⟩ | ⟨hp, hq⟩
  · have ownq : rq.cols.knockerPeerId = visitor := cols ▸ own
    by_cases pending : rp.cols.toKnock.status = .pending
    · obtain ⟨dbp, _, hp, rowsp, framep⟩ := withdrawKnock_pending now hp own pending
      obtain ⟨dbq, _, hq, rowsq, frameq⟩ :=
        withdrawKnock_pending now hq ownq (cols ▸ pending)
      rw [hp, hq]
      refine .ok ⟨h.assign (t := .channelKnocks) (by decide) (seen_resolve knockId now)
        (seen_resolve knockId now) (fun row => ?_) rowsp framep rowsq frameq, ?_⟩
      · unfold withdrawSeen
        split <;> rfl
      · rw [cols]
    · rw [withdrawKnock_settled hp own pending, withdrawKnock_settled hq ownq (cols ▸ pending),
        cols]
      exact .error _
  · rw [withdrawKnock_foreign hp, withdrawKnock_foreign hq, same]
    exact .error _

/-- An asset that is absent or of an owner-only channel is refused, and the refusal names the
channel. -/
theorem visitAsset_hidden {assetId : String}
    (h : ∀ asset ∈ p.getAsset assetId, p.shows asset.channelId = false) :
    p.visitAsset files visitor assetId =
      .error (match (p.getAsset assetId).map PorchAsset.channelId with
        | none => .channelNotFound assetId
        | some channelId => .accessDenied channelId) := by
  unfold visitAsset
  cases ha : p.getAsset assetId with
  | none => rfl
  | some asset =>
    obtain ⟨row, hrow, rfl⟩ := Option.map_eq_some_iff.mp ha
    obtain ⟨parent, hmem, hkey⟩ := p.db.parents .porchAssets (SyncedTable.mem_all _) row
      (KeyedTable.mem_of_find? hrow) row.cols.channelId rfl
    have there : p.getChannel row.cols.channelId = some parent.cols.toChannel :=
      congrArg (Option.map _) (KeyedTable.find?_eq_some_iff.mpr ⟨hmem, hkey⟩)
    have owner : ∀ ch ∈ p.getChannel row.cols.channelId, ch.aclMode = .ownerOnly := by
      intro ch hc
      by_contra open_
      have shown := shows_iff.mpr ⟨ch, hc, open_⟩
      cases shown.symm.trans (h _ ha)
    have refused := visitChannel_hidden visitor owner
    rw [there, Option.isSome_some, if_pos rfl] at refused
    show (p.visitChannel visitor row.cols.channelId >>= _) = _
    rw [refused]
    rfl

theorem asset_cases (h : SameToVisitor visitor p q) (assetId : String) :
    (∃ asset, p.getAsset assetId = some asset ∧ q.getAsset assetId = some asset ∧
      p.shows asset.channelId = true) ∨
    ((∀ asset ∈ p.getAsset assetId, p.shows asset.channelId = false) ∧
      ∀ asset ∈ q.getAsset assetId, q.shows asset.channelId = false) := by
  rcases h.find?_cases (t := .porchAssets) assetId with ⟨rp, rq, hp, hq, cols, shown⟩ | ⟨hp, hq⟩
  · refine .inl ⟨rp.cols.toAsset, ?_, ?_, shown⟩
    · rw [getAsset, hp, Option.map_some]
    · rw [getAsset, hq, Option.map_some, cols]
  · refine .inr ⟨fun asset ha => ?_, fun asset ha => ?_⟩
    · obtain ⟨row, hrow, rfl⟩ := Option.map_eq_some_iff.mp ha
      exact hp row hrow
    · obtain ⟨row, hrow, rfl⟩ := Option.map_eq_some_iff.mp ha
      exact h.shows ▸ hq row hrow

theorem visitAsset_eq (h : SameToVisitor visitor p q) {assetId : String}
    (same : (p.getAsset assetId).map PorchAsset.channelId =
      (q.getAsset assetId).map PorchAsset.channelId) :
    p.visitAsset files visitor assetId = q.visitAsset files visitor assetId := by
  rcases asset_cases h assetId with ⟨asset, hp, hq, shown⟩ | ⟨hp, hq⟩
  · obtain ⟨therep, thereq⟩ := isSome_getChannel h shown
    simp only [visitAsset, readAssetBytes, hp, hq, h.fileBacked,
      visitChannel_eq h (therep.trans thereq.symm)]
  · rw [visitAsset_hidden hp, visitAsset_hidden hq, same]

/-- The rows of the channel list. -/
theorem listChannelRows_eq (h : SameToVisitor visitor p q) :
    (p.listChannels.filter fun ch => ch.aclMode ≠ .ownerOnly).map (p.listChannelRow visitor) =
      (q.listChannels.filter fun ch => ch.aclMode ≠ .ownerOnly).map (q.listChannelRow visitor) := by
  rw [← h.listChannels]
  refine List.map_congr_left fun ch hch => ?_
  obtain ⟨listed, open_⟩ := List.mem_filter.mp hch
  obtain ⟨row, hrow, rfl⟩ := List.mem_map.mp ((List.mem_insertionSort _).mp listed)
  have found : p.getChannel row.cols.id = some row.cols.toChannel :=
    congrArg (Option.map _) (KeyedTable.find?_of_mem (List.mem_of_mem_filter hrow))
  have shown := shows_of_getChannel found (of_decide_eq_true open_)
  unfold listChannelRow getThemeSummary
  rw [h.canVisit shown, h.knockStatusFor, h.getTheme shown]

/-- A knock on a channel that is absent or owner-only. -/
theorem dispatchRequest_knock_hidden {channelId id : String} {message : Option String}
    {now : Int64} (h : ∀ ch ∈ p.getChannel channelId, ch.aclMode = .ownerOnly) :
    dispatchRequest files p visitor ⟨.knock channelId message, id, now⟩ =
      .error (.channelNotFound channelId) := by
  simp only [dispatchRequest]
  cases hc : p.getChannel channelId with
  | none => rfl
  | some ch => simp only [h ch hc]

/-- A request that does not tell the porches apart is answered alike and keeps them the same. -/
theorem alike_dispatchRequest (files : HostFiles) (h : SameToVisitor visitor p q)
    (call : PorchCall)
    (freep : p.Unused call.id) (freeq : q.Unused call.id)
    (blind : Unrevealing visitor p q call.request) :
    Alike (SameResult visitor) (dispatchRequest files p visitor call)
      (dispatchRequest files q visitor call) := by
  obtain ⟨request, id, now⟩ := call
  cases request with
  | listChannels =>
    refine .ok ⟨h, ?_⟩
    rw [listChannelRows_eq h]
  | getMessages channelId since limit =>
    refine (Alike.of_eq (visitChannel_eq h blind)).bind fun ch _ visited _ => ?_
    rw [h.getMessages (shows_of_visitChannel visited)]
    refine (Alike.of_eq rfl).bind fun messages _ _ same => .ok ⟨h, ?_⟩
    rw [same]
  | postMessage channelId body =>
    refine (Alike.of_eq (visitChannel_eq h blind)).bind fun ch _ visited _ => ?_
    refine (alike_postMessage h (shows_of_visitChannel visited) freep freeq).bind ?_
    rintro out out' _ ⟨same, answer⟩
    refine .ok ⟨same, ?_⟩
    rw [answer]
  | knock channelId message =>
    cases h.channelPair channelId with
    | shown ch hp hq shown =>
      simp only [dispatchRequest, hp, hq]
      split
      · exact .error _
      · exact .error _
      · rw [id_of_getChannel hp] at shown
        refine (alike_knock h shown freep freeq).bind ?_
        rintro out out' _ ⟨same, answer⟩
        refine .ok ⟨same, ?_⟩
        rw [answer]
    | hidden hp hq =>
      rw [dispatchRequest_knock_hidden hp, dispatchRequest_knock_hidden hq]
      exact .error _
  | knockStatus channelId =>
    refine .ok ⟨h, ?_⟩
    rw [h.knockStatusFor]
  | withdrawKnock knockId =>
    refine (alike_withdrawKnock h blind).bind ?_
    rintro out out' _ ⟨same, answer⟩
    refine .ok ⟨same, ?_⟩
    rw [answer]
  | getTheme channelId =>
    refine (Alike.of_eq (visitChannel_eq h blind)).bind fun ch _ visited _ => .ok ⟨h, ?_⟩
    rw [h.getTheme (shows_of_visitChannel visited)]
  | getAssetBytes assetId =>
    refine (Alike.of_eq (visitAsset_eq h blind)).bind fun response _ _ same => .ok ⟨h, ?_⟩
    rw [same]
  | listVault channelId path =>
    refine (Alike.of_eq (gateObsidian_eq h blind)).bind fun ch _ gated _ => ?_
    have binding := h.obsidianBinding (shows_of_gateObsidian gated)
    unfold listVault
    rw [binding]
    refine (Alike.of_eq rfl).bind fun entries _ _ same => .ok ⟨h, ?_⟩
    rw [same]
  | getVaultFile channelId path =>
    refine (Alike.of_eq (gateObsidian_eq h blind)).bind fun ch _ gated _ => ?_
    have binding := h.obsidianBinding (shows_of_gateObsidian gated)
    unfold readVaultFile
    rw [binding]
    refine (Alike.of_eq rfl).bind fun read read' _ same => ?_
    subst same
    dsimp only
    split
    · exact .ok ⟨h, rfl⟩
    · exact .ok ⟨h, rfl⟩

/-! ## Requests that tell the porches apart -/

/-- Two refusals of a visit are alike only when both channels are there or neither is. -/
theorem ofError_visit_inj {channelId : String} {b b' : Bool}
    (h : PorchErrorBody.ofError
        (if b then .accessDenied channelId else .channelNotFound channelId) =
      .ofError (if b' then .accessDenied channelId else .channelNotFound channelId)) : b = b' := by
  have code := congrArg PorchErrorBody.code h
  cases b <;> cases b'
  · rfl
  · cases code
  · cases code
  · rfl

/-- Two refusals of a channel by its id are alike only for one channel. -/
theorem ofError_accessDenied_inj {c c' : String}
    (h : PorchErrorBody.ofError (.accessDenied c) = .ofError (.accessDenied c')) : c = c' :=
  (String.append_right_inj _).mp (congrArg PorchErrorBody.message h)

/-- A visit of a hidden channel that a request starts with is its answer. -/
theorem isSome_eq_of_visit (h : SameToVisitor visitor p q) {call : PorchCall} {channelId : String}
    {f g : PorchChannel → Except PorchError (Porch × PorchResult)}
    (startp : dispatchRequest files p visitor call = p.visitChannel visitor channelId >>= f)
    (startq : dispatchRequest files q visitor call = q.visitChannel visitor channelId >>= g)
    (alike : (dispatchPorch files p visitor call).2 = (dispatchPorch files q visitor call).2) :
    (p.getChannel channelId).isSome = (q.getChannel channelId).isSome := by
  cases h.channelPair channelId with
  | shown ch hp hq shown => rw [hp, hq]
  | hidden hp hq =>
    rw [visitChannel_hidden visitor hp] at startp
    rw [visitChannel_hidden visitor hq] at startq
    rw [response_of_error startp, response_of_error startq] at alike
    exact ofError_visit_inj (Except.error.inj alike)

/-- The gate of a hidden channel that a request starts with is its answer. -/
theorem kind_eq_of_gate (h : SameToVisitor visitor p q) {call : PorchCall} {channelId : String}
    {f g : PorchChannel → Except PorchError (Porch × PorchResult)}
    (startp : dispatchRequest files p visitor call = p.gateObsidian visitor channelId >>= f)
    (startq : dispatchRequest files q visitor call = q.gateObsidian visitor channelId >>= g)
    (alike : (dispatchPorch files p visitor call).2 = (dispatchPorch files q visitor call).2) :
    (p.getChannel channelId).map (fun ch => decide (ch.kind = .obsidian)) =
      (q.getChannel channelId).map fun ch => decide (ch.kind = .obsidian) := by
  cases h.channelPair channelId with
  | shown ch hp hq shown => rw [hp, hq]
  | hidden hp hq =>
    rw [gateObsidian_hidden hp] at startp
    rw [gateObsidian_hidden hq] at startq
    rw [response_of_error startp, response_of_error startq] at alike
    have code := congrArg PorchErrorBody.code (Except.error.inj alike)
    revert code
    generalize (p.getChannel channelId).map (fun ch => decide (ch.kind = .obsidian)) = a
    generalize (q.getChannel channelId).map (fun ch => decide (ch.kind = .obsidian)) = b
    intro code
    rcases a with _ | _ | _ <;> rcases b with _ | _ | _ <;> first | rfl | cases code

/-- Refusals that name a channel, or else something that is not there, name the same. -/
theorem eq_of_refusal {a b : Option String} (e : PorchError)
    (other : e.statusCode ≠ 403)
    (h : PorchErrorBody.ofError (match a with | none => e | some c => .accessDenied c) =
      .ofError (match b with | none => e | some c => .accessDenied c)) : a = b := by
  cases a with
  | none =>
    cases b with
    | none => rfl
    | some c => exact absurd (congrArg PorchErrorBody.code h) other
  | some c =>
    cases b with
    | none => exact absurd (congrArg PorchErrorBody.code h).symm other
    | some c' => rw [ofError_accessDenied_inj h]

/-- A request that is answered alike does not tell the porches apart. -/
theorem unrevealing_of_alike (h : SameToVisitor visitor p q) {call : PorchCall}
    (alike : (dispatchPorch files p visitor call).2 = (dispatchPorch files q visitor call).2) :
    Unrevealing visitor p q call.request := by
  obtain ⟨request, id, now⟩ := call
  cases request with
  | listChannels => trivial
  | getMessages channelId since limit => exact isSome_eq_of_visit h rfl rfl alike
  | postMessage channelId body => exact isSome_eq_of_visit h rfl rfl alike
  | knock channelId message => trivial
  | knockStatus channelId => trivial
  | withdrawKnock knockId =>
    show p.foreignKnock visitor knockId = q.foreignKnock visitor knockId
    rcases knock_cases h knockId with ⟨rp, rq, hp, hq, cols, own⟩ | ⟨hp, hq⟩
    · have none_of_own : ∀ {r : Porch} {row : ChannelKnockRow},
          r.db.find? .channelKnocks knockId = some row → row.cols.knockerPeerId = visitor →
          r.foreignKnock visitor knockId = none := by
        intro r row found mine
        have same : row.cols.toKnock.knockerPeerId = visitor := mine
        simp only [foreignKnock, lookupKnockById, found, Option.map_some, Option.filter_some, same,
          ne_eq, not_true_eq_false, decide_false, Bool.false_eq_true, if_false, Option.map_none]
      rw [none_of_own hp own, none_of_own hq (cols ▸ own)]
    · have refused : ∀ {r : Porch}, (∀ row ∈ r.db.find? .channelKnocks knockId,
          row.cols.knockerPeerId ≠ visitor) →
          dispatchRequest files r visitor ⟨.withdrawKnock knockId, id, now⟩ =
            .error (match r.foreignKnock visitor knockId with
              | none => .invalidInput ("knock not found: " ++ knockId)
              | some channelId => .accessDenied channelId) := by
        intro r hr
        show (r.withdrawKnock knockId visitor now >>= _) = _
        rw [withdrawKnock_foreign hr]
        rfl
      rw [response_of_error (refused hp), response_of_error (refused hq)] at alike
      exact eq_of_refusal (.invalidInput ("knock not found: " ++ knockId))
        (show (400 : Int) ≠ 403 by decide) (Except.error.inj alike)
  | getTheme channelId => exact isSome_eq_of_visit h rfl rfl alike
  | getAssetBytes assetId =>
    show (p.getAsset assetId).map _ = (q.getAsset assetId).map _
    rcases asset_cases h assetId with ⟨asset, hp, hq, shown⟩ | ⟨hp, hq⟩
    · rw [hp, hq]
    · have refused : ∀ {r : Porch}, (∀ asset ∈ r.getAsset assetId,
          r.shows asset.channelId = false) →
          dispatchRequest files r visitor ⟨.getAssetBytes assetId, id, now⟩ =
            .error (match (r.getAsset assetId).map PorchAsset.channelId with
              | none => .channelNotFound assetId
              | some channelId => .accessDenied channelId) := by
        intro r hr
        show (r.visitAsset files visitor assetId >>= _) = _
        rw [visitAsset_hidden hr]
        rfl
      rw [response_of_error (refused hp), response_of_error (refused hq)] at alike
      exact eq_of_refusal (.channelNotFound assetId) (show (404 : Int) ≠ 403 by decide)
        (Except.error.inj alike)
  | listVault channelId path => exact kind_eq_of_gate h rfl rfl alike
  | getVaultFile channelId path => exact kind_eq_of_gate h rfl rfl alike

/-! ## Runs -/

/-- One request that does not tell the porches apart. -/
theorem dispatchPorch_blind (h : SameToVisitor visitor p q) {call : PorchCall}
    (unused : p.Unused call.id ∧ q.Unused call.id)
    (blind : Unrevealing visitor p q call.request) :
    (dispatchPorch files p visitor call).2 = (dispatchPorch files q visitor call).2 ∧
      SameToVisitor visitor (dispatchPorch files p visitor call).1
        (dispatchPorch files q visitor call).1 := by
  have alike := alike_dispatchRequest files h call unused.1 unused.2 blind
  unfold dispatchPorch
  revert alike
  generalize dispatchRequest files p visitor call = e
  generalize dispatchRequest files q visitor call = e'
  intro alike
  cases alike with
  | error e => exact ⟨rfl, h⟩
  | @ok a b same => exact ⟨congrArg Except.ok same.2, same.1⟩

/-- What a visitor's requests do to two porches that are the same to it. -/
theorem unwinds (files : HostFiles) (visitor : String) :
    Unwinds (fun p call => dispatchPorch files p visitor call)
      (fun calls p q => SameToVisitor visitor p q ∧ FreshIds p q calls)
      (fun p q call => Unrevealing visitor p q call.request) where
  answers call calls p q := by
    rintro ⟨h, fresh⟩
    have unused := fresh.unused call List.mem_cons_self
    exact ⟨unrevealing_of_alike h, fun blind => (dispatchPorch_blind h unused blind).1⟩
  keeps call calls p q := by
    rintro ⟨h, fresh⟩ blind
    have unused := fresh.unused call List.mem_cons_self
    have nodup := fresh.nodup
    rw [List.map_cons, List.nodup_cons] at nodup
    refine ⟨(dispatchPorch_blind h unused blind).2, nodup.2, fun later hlater => ?_⟩
    have other : later.id ≠ call.id := fun e => nodup.1 (e ▸ List.mem_map_of_mem hlater)
    obtain ⟨freep, freeq⟩ := fresh.unused later (List.mem_cons_of_mem _ hlater)
    exact ⟨(leftBy_dispatchPorch files _ visitor call).unused freep other,
      (leftBy_dispatchPorch files _ visitor call).unused freeq other⟩
  stable call p q := by
    have leftp := leftBy_dispatchPorch files p visitor call
    have leftq := leftBy_dispatchPorch files q visitor call
    funext later
    cases later.request <;> simp only [Unrevealing, leftp.getChannel, leftq.getChannel,
      leftp.getAsset, leftq.getAsset, leftp.foreignKnock, leftq.foreignKnock]

/-- Two porches that are the same to a visitor answer its requests alike exactly when no request
names a channel, an asset or a knock by which they differ. -/
theorem responses_eq_iff (calls : List PorchCall) (same : SameToVisitor visitor p q)
    (fresh : FreshIds p q calls) :
    p.responses files visitor calls = q.responses files visitor calls ↔
      ∀ call ∈ calls, Unrevealing visitor p q call.request :=
  outputs_eq_iff (unwinds files visitor) ⟨same, fresh⟩

end Porch

/-! ## A secret channel -/

/-- The same install after its owner adds an owner-only channel. -/
def secretPorch : Porch :=
  plainPorch.afterWrite (.insertChannel "secret" "Diary" .inner .ownerOnly 2)

/-- The two installs are the same to every visitor. -/
private theorem sameToVisitor_secretPorch :
    Porch.SameToVisitor "visitor" secretPorch plainPorch := by
  refine ⟨fun t => ?_, by decide⟩
  cases t <;> decide

/-- Requests that name a channel, with what they draw. -/
def visitorCalls (channelId : String) : List PorchCall :=
  [⟨.listChannels, "01", 3⟩, ⟨.knock channelId none, "02", 4⟩, ⟨.knockStatus channelId, "03", 5⟩,
    ⟨.getMessages channelId none 50, "04", 6⟩, ⟨.postMessage channelId "hello", "05", 7⟩,
    ⟨.getTheme channelId, "06", 8⟩, ⟨.listVault channelId "", "07", 9⟩]

/-- The codes of the refusals among the answers. -/
def refusalCodes (answers : List PorchResponse) : List Int :=
  answers.filterMap fun
    | .error body => some body.code
    | .ok _ => none

private theorem freshIds_visitorCalls (channelId : String) :
    Porch.FreshIds secretPorch plainPorch (visitorCalls channelId) := by
  have ids : (visitorCalls channelId).map PorchCall.id =
      ["01", "02", "03", "04", "05", "06", "07"] :=
    rfl
  have free : ∀ id ∈ ["01", "02", "03", "04", "05", "06", "07"],
      secretPorch.Unused id ∧ plainPorch.Unused id := by
    unfold Porch.Unused
    decide
  refine ⟨by rw [ids]; decide, fun call hcall => free call.id ?_⟩
  rw [← ids]
  exact List.mem_map_of_mem hcall

theorem Porch.responses_eq_iff_secret :
    secretPorch.responses noHostFiles "visitor" (visitorCalls "porch-default") =
        plainPorch.responses noHostFiles "visitor" (visitorCalls "porch-default") ↔
      ∀ call ∈ visitorCalls "porch-default",
        Porch.Unrevealing "visitor" secretPorch plainPorch call.request :=
  Porch.responses_eq_iff _ sameToVisitor_secretPorch (freshIds_visitorCalls _)

/-- A visitor tells the owner-only channel from one that does not exist: four requests refuse it
with another code. -/
theorem secret_channel_shows :
    Porch.SameToVisitor "visitor" secretPorch plainPorch ∧
    Porch.FreshIds secretPorch plainPorch (visitorCalls "secret") ∧
    refusalCodes (secretPorch.responses noHostFiles "visitor" (visitorCalls "secret")) =
      [404, 403, 403, 403, 400] ∧
    refusalCodes (plainPorch.responses noHostFiles "visitor" (visitorCalls "secret")) =
      [404, 404, 404, 404, 404] ∧
    secretPorch.responses noHostFiles "visitor" (visitorCalls "secret") ≠
      plainPorch.responses noHostFiles "visitor" (visitorCalls "secret") := by
  have told : refusalCodes (secretPorch.responses noHostFiles "visitor" (visitorCalls "secret")) =
      [404, 403, 403, 403, 400] := by decide
  have untold : refusalCodes (plainPorch.responses noHostFiles "visitor" (visitorCalls "secret")) =
      [404, 404, 404, 404, 404] := by decide
  refine ⟨sameToVisitor_secretPorch, freshIds_visitorCalls _, told, untold, fun same => ?_⟩
  rw [same, untold] at told
  cases told

end Concorrd
