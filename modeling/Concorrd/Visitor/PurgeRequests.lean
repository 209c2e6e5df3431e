import Concorrd.Visitor.Purge
import Concorrd.Visitor.Writes

/-!
# Requests on a porch without its tombstones

For each request of a visitor, and for the two writes and the two vault readers behind them, a
theorem says exactly when the answer is the one the porch would give without its tombstones.
-/

namespace Concorrd

open Unwinding

namespace Porch

variable (p : Porch)

/-- The visitor may visit the channel. -/
def Visits (visitor channelId : String) : Prop :=
  ∃ ch, p.getChannel channelId = some ch ∧ p.canVisit visitor ch = true

/-- A message body that is refused before the channel is looked up. -/
def BodyRefused (body : String) : Prop :=
  body.isEmpty = true ∨ body.utf8ByteSize > maxMessageBodyBytes

/-- A knock message that is refused. -/
def MessageRefused (message : Option String) : Prop :=
  message.elim 0 String.utf8ByteSize > maxKnockMessageBytes

instance (message : Option String) : Decidable (MessageRefused message) :=
  inferInstanceAs (Decidable (_ > _))

/-- A knock request is answered from rows that are not deleted. On an owner-only channel it is
answered as on one that is absent. -/
def KnockReadsNoneGone (visitor channelId : String) (message : Option String) : Prop :=
  match (p.getChannel channelId).map PorchChannel.aclMode with
  | none | some .ownerOnly => True
  | some .open => p.buried .porchChannels channelId = false
  | some .allowlist => p.buried .porchChannels channelId = false ∧
    (MessageRefused message ∨ ¬ p.PendingGone channelId visitor)

/-- A request is answered from rows that are not deleted. -/
def RequestReadsNoneGone (visitor : String) : PorchRequest → Prop
  | .listChannels => ∀ ch ∈ p.listChannels, ch.aclMode ≠ .ownerOnly →
    p.buried .channelThemes ch.id = false ∧
      (p.canVisit visitor ch = true ∨ p.StatusKept ch.id visitor)
  | .getMessages channelId since limit => p.buried .porchChannels channelId = false ∧
    (p.Visits visitor channelId → p.PageClear channelId since limit)
  | .postMessage channelId _ => p.buried .porchChannels channelId = false
  | .knock channelId message => p.KnockReadsNoneGone visitor channelId message
  | .knockStatus channelId => p.Outranked channelId visitor
  | .withdrawKnock knockId => p.buried .channelKnocks knockId = false
  | .getTheme channelId => p.buried .porchChannels channelId = false ∧
    (p.Visits visitor channelId → p.buried .channelThemes channelId = true →
      p.getTheme channelId = some (.defaultFor channelId))
  | .getAssetBytes assetId => p.buried .porchAssets assetId = false
  | .listVault channelId _ | .getVaultFile channelId _ =>
    p.buried .porchChannels channelId = false ∧
      ((∃ ch, p.gateObsidian visitor channelId = .ok ch) →
        p.buried .obsidianChannels channelId = false)

variable {files : HostFiles} {p : Porch} {visitor channelId id knockId : String} {now : Int64}

theorem unused_purge (h : p.Unused id) : p.purge.Unused id := by
  refine ⟨?_, ?_⟩
  · rw [find?_purge, h.1, Option.filter_none]
  · rw [find?_purge, h.2, Option.filter_none]

/-! ## Writes -/

/-- A body that is refused is refused by any porch. -/
theorem postMessage_refused {body : String} (h : BodyRefused body) (p q : Porch) :
    (p.postMessage channelId visitor body id now).map Outcome.answer =
      (q.postMessage channelId visitor body id now).map Outcome.answer := by
  unfold postMessage
  cases empty : body.isEmpty with
  | true => simp only [if_true, Except.map]
  | false =>
    have large : body.utf8ByteSize > maxMessageBodyBytes := by
      rcases h with h | h
      · rw [empty] at h
        cases h
      · exact h
    simp only [Bool.false_eq_true, if_false, large, if_true, Except.map]

theorem postMessage_absent {body : String} (h : ¬ BodyRefused body)
    (absent : p.getChannel channelId = none) :
    p.postMessage channelId visitor body id now = .error (.channelNotFound channelId) := by
  rw [postMessage, if_neg fun empty => h (.inl empty), if_neg fun large => h (.inr large), absent]
  rfl

theorem postMessage_accepted {body : String} (h : ¬ BodyRefused body) {ch : PorchChannel}
    (there : p.getChannel channelId = some ch) (free : p.Unused id) :
    (p.postMessage channelId visitor body id now).map Outcome.answer =
      .ok ⟨id, channelId, visitor, body, now⟩ := by
  have some_ : body.isEmpty = false := eq_false_of_ne_true fun empty => h (.inl empty)
  have found : (p.getChannel channelId).isSome = true := there ▸ rfl
  obtain ⟨db, written, hpost, _⟩ :=
    exists_postMessage visitor now found free.1 some_ fun large => h (.inr large)
  rw [hpost]
  rfl

theorem postMessage_purge_iff {body : String} (free : p.Unused id) :
    (p.postMessage channelId visitor body id now).map Outcome.answer =
      (p.purge.postMessage channelId visitor body id now).map Outcome.answer ↔
      BodyRefused body ∨ p.buried .porchChannels channelId = false := by
  by_cases refused : BodyRefused body
  · exact iff_of_true (postMessage_refused refused p p.purge) (.inl refused)
  · cases hb : p.buried .porchChannels channelId with
    | true =>
      obtain ⟨absent, ch, there⟩ := getChannel_buried hb
      rw [postMessage_accepted refused there free, postMessage_absent refused absent]
      refine iff_of_false nofun ?_
      rintro (h | h)
      · exact refused h
      · cases h
    | false =>
      have same := getChannel_purge_iff.mpr hb
      refine iff_of_true ?_ (.inr rfl)
      cases hc : p.getChannel channelId with
      | none => rw [postMessage_absent refused hc, postMessage_absent refused (same ▸ hc)]
      | some ch => rw [postMessage_accepted refused hc free,
          postMessage_accepted refused (same ▸ hc) (unused_purge free)]

theorem knock_absent {message : Option String} (absent : p.getChannel channelId = none) :
    p.knock channelId visitor message id now = .error (.channelNotFound channelId) := by
  rw [knock, absent]
  rfl

/-- A knock on a channel that is there, by the pending knock of the peer. -/
theorem knock_there (visitor : String) (message : Option String) (now : Int64) {ch : PorchChannel}
    (there : p.getChannel channelId = some ch) (free : p.Unused id) :
    (p.knock channelId visitor message id now).map Outcome.answer =
      if MessageRefused message then
        .error (.invalidInput ("knock message too large: " ++
          toString (message.elim 0 String.utf8ByteSize) ++ " > " ++ toString maxKnockMessageBytes))
      else .ok ((p.lookupKnockPending channelId visitor).getD
        ⟨id, channelId, visitor, message, .pending, now, none⟩) := by
  have found : (p.getChannel channelId).isSome = true := there ▸ rfl
  split
  · rename_i refused
    have large : message.elim 0 String.utf8ByteSize > maxKnockMessageBytes := refused
    simp only [knock, there, Option.isNone_some, Bool.false_eq_true, if_false, large, if_true]
    rfl
  · rename_i accepted
    have small : ¬ message.elim 0 String.utf8ByteSize > maxKnockMessageBytes := accepted
    cases hpending : p.lookupKnockPending channelId visitor with
    | some existing =>
      simp only [knock, there, Option.isNone_some, Bool.false_eq_true, if_false, small, hpending]
      rfl
    | none =>
      obtain ⟨db, written, hknock, _⟩ := exists_knock now found free.2 small hpending
      rw [hknock]
      rfl

/-- A knock that a deleted pending one answers is another than the one that would be filed. -/
theorem pending_ne_purge {message : Option String} (h : p.PendingGone channelId visitor)
    (free : p.Unused id) :
    (p.lookupKnockPending channelId visitor).getD
        ⟨id, channelId, visitor, message, .pending, now, none⟩ ≠
      (p.purge.lookupKnockPending channelId visitor).getD
        ⟨id, channelId, visitor, message, .pending, now, none⟩ := by
  obtain ⟨row, hrow, pending, hgone⟩ := h
  cases hp : p.lookupKnockPending channelId visitor with
  | none =>
    obtain ⟨hmem, channel, peer⟩ := mem_knocksOf.mp hrow
    have missed := List.find?_eq_none.mp (Option.map_eq_none_iff.mp hp) row hmem
    exact absurd (decide_eq_true ⟨channel, peer, pending⟩) missed
  | some found =>
    obtain ⟨row', hrow', pending', rfl⟩ := lookupKnockPending_eq_some hp
    have one := eq_of_pending hrow' hrow pending' pending
    subst one
    cases hq : p.purge.lookupKnockPending channelId visitor with
    | some other =>
      obtain ⟨left, hleft, pendingLeft, _⟩ := lookupKnockPending_eq_some hq
      obtain ⟨hmem, visible⟩ := mem_knocksOf_purge.mp hleft
      rw [eq_of_pending hmem hrow pendingLeft pending, hgone] at visible
      cases visible
    | none =>
      intro same
      have ids : row'.cols.id = id := congrArg Knock.id same
      have stored := KeyedTable.find?_of_mem (mem_knocksOf.mp hrow).1
      have unused : p.db.find? .channelKnocks row'.key = none :=
        (congrArg (p.db.find? .channelKnocks) ids).trans free.2
      cases unused.symm.trans stored

theorem knock_purge_iff (visitor channelId : String) (message : Option String) (now : Int64)
    (free : p.Unused id) :
    (p.knock channelId visitor message id now).map Outcome.answer =
      (p.purge.knock channelId visitor message id now).map Outcome.answer ↔
      p.buried .porchChannels channelId = false ∧
        (MessageRefused message ∨ ¬ p.PendingGone channelId visitor) := by
  cases hb : p.buried .porchChannels channelId with
  | true =>
    obtain ⟨absent, ch, there⟩ := getChannel_buried hb
    rw [knock_there visitor message now there free, knock_absent absent]
    refine iff_of_false ?_ fun h => by cases h.1
    split <;> nofun
  | false =>
    have same := getChannel_purge_iff.mpr hb
    cases hc : p.getChannel channelId with
    | none =>
      rw [knock_absent hc, knock_absent (same ▸ hc)]
      refine iff_of_true rfl ⟨rfl, .inr ?_⟩
      rintro ⟨row, hrow, _⟩
      obtain ⟨hmem, channel, _⟩ := mem_knocksOf.mp hrow
      have there := isSome_getChannel_of_parent hmem (congrArg some channel)
      rw [hc] at there
      cases there
    | some ch =>
      rw [knock_there visitor message now hc free,
        knock_there visitor message now (same ▸ hc) (unused_purge free)]
      by_cases refused : MessageRefused message
      · rw [if_pos refused, if_pos refused]
        exact iff_of_true rfl ⟨rfl, .inl refused⟩
      · rw [if_neg refused, if_neg refused]
        by_cases hgone : p.PendingGone channelId visitor
        · refine iff_of_false ?_ fun h => h.2.elim refused fun h => h hgone
          rw [Except.ok.injEq]
          exact pending_ne_purge hgone free
        · rw [lookupKnockPending_purge hgone]
          exact iff_of_true rfl ⟨rfl, .inr hgone⟩

/-! ## Vaults -/

theorem obsidianBinding_purge (h : p.buried .obsidianChannels channelId = false) :
    p.purge.obsidianBinding channelId = p.obsidianBinding channelId := by
  unfold obsidianBinding getObsidianConfig
  rw [find?_purge_eq h]

/-- A deleted binding is still there, and would be missing. -/
theorem obsidianBinding_buried (h : p.buried .obsidianChannels channelId = true) :
    (p.getObsidianConfig channelId).isSome = true ∧ p.purge.obsidianBinding channelId =
      .error (.invalidInput ("channel " ++ channelId ++ " has no obsidian binding")) := by
  obtain ⟨absent, row, hrow, _⟩ := find?_purge_none h
  constructor
  · rw [getObsidianConfig, hrow]
    rfl
  · unfold obsidianBinding getObsidianConfig
    rw [absent]
    rfl

theorem listVault_purge_iff {disk : VaultDisk} {relPath : String} :
    p.listVault disk channelId relPath = p.purge.listVault disk channelId relPath ↔
      p.buried .obsidianChannels channelId = false := by
  cases h : p.buried .obsidianChannels channelId with
  | true =>
    obtain ⟨bound, unbound⟩ := obsidianBinding_buried h
    refine iff_of_false (fun same => ?_) nofun
    unfold listVault at same
    rw [unbound] at same
    exact not_vaultRefusal_binding channelId (failsOnly_listVault bound _ same) rfl
  | false =>
    unfold listVault
    rw [obsidianBinding_purge h]
    exact iff_of_true rfl rfl

theorem readVaultFile_purge_iff {disk : VaultDisk} {relPath : String} :
    p.readVaultFile disk channelId relPath = p.purge.readVaultFile disk channelId relPath ↔
      p.buried .obsidianChannels channelId = false := by
  cases h : p.buried .obsidianChannels channelId with
  | true =>
    obtain ⟨bound, unbound⟩ := obsidianBinding_buried h
    refine iff_of_false (fun same => ?_) nofun
    unfold readVaultFile at same
    rw [unbound] at same
    exact not_vaultRefusal_binding channelId (failsOnly_readVaultFile bound _ same) rfl
  | false =>
    unfold readVaultFile
    rw [obsidianBinding_purge h]
    exact iff_of_true rfl rfl

/-! ## Requests -/

/-- The answer to a request whose call is done. -/
def responseOf : Except PorchError (Porch × PorchResult) → PorchResponse
  | .ok (_, result) => .ok result
  | .error e => .error (.ofError e)

theorem dispatchPorch_response (files : HostFiles) (p : Porch) (visitor : String)
    (call : PorchCall) :
    (dispatchPorch files p visitor call).2 = responseOf (dispatchRequest files p visitor call) := by
  unfold dispatchPorch
  cases dispatchRequest files p visitor call with
  | ok out => rfl
  | error e => rfl

/-- A call that never fails with 404 is not answered as a channel that does not exist. -/
theorem responseOf_ne_notFound {r : Except PorchError (Porch × PorchResult)}
    (h : FailsOnlyWith (fun e => e.statusCode ≠ 404) r) (channelId : String) :
    responseOf r ≠ responseOf (.error (.channelNotFound channelId)) := by
  cases r with
  | ok out => nofun
  | error e =>
    intro same
    exact h e rfl (congrArg PorchErrorBody.code (Except.error.inj same))

theorem visitChannel_purge (alive : p.buried .porchChannels channelId = false) :
    p.purge.visitChannel visitor channelId = p.visitChannel visitor channelId := by
  unfold visitChannel
  rw [← getChannel_purge_iff.mpr alive]
  cases hc : p.getChannel channelId with
  | none => rfl
  | some ch =>
    have id_ : ch.id = channelId := id_of_getChannel hc
    simp only [canVisit_purge (id_ ▸ alive) visitor]

theorem gateObsidian_purge (alive : p.buried .porchChannels channelId = false) :
    p.purge.gateObsidian visitor channelId = p.gateObsidian visitor channelId := by
  unfold gateObsidian
  rw [← getChannel_purge_iff.mpr alive]
  cases hc : p.getChannel channelId with
  | none => rfl
  | some ch =>
    have id_ : ch.id = channelId := id_of_getChannel hc
    simp only [canVisit_purge (id_ ▸ alive) visitor]

theorem visitChannel_absent (absent : p.getChannel channelId = none) :
    p.visitChannel visitor channelId = .error (.channelNotFound channelId) := by
  rw [visitChannel, absent]

theorem gateObsidian_absent (absent : p.getChannel channelId = none) :
    p.gateObsidian visitor channelId = .error (.channelNotFound channelId) := by
  rw [gateObsidian, absent]

/-- A channel that is there is not answered as one that does not exist. -/
theorem failsOnly_visitChannel {ch : PorchChannel} (there : p.getChannel channelId = some ch) :
    FailsOnlyWith (fun e => e.statusCode ≠ 404) (p.visitChannel visitor channelId) := by
  unfold visitChannel
  rw [there]
  dsimp only
  split
  · exact .ok ch
  · exact .error (show (403 : Int) ≠ 404 by decide)

theorem failsOnly_gateObsidian {ch : PorchChannel} (there : p.getChannel channelId = some ch) :
    FailsOnlyWith (fun e => e.statusCode ≠ 404) (p.gateObsidian visitor channelId) := by
  unfold gateObsidian
  rw [there]
  dsimp only
  split
  · exact .error (show (400 : Int) ≠ 404 by decide)
  · split
    · exact .ok ch
    · exact .error (show (403 : Int) ≠ 404 by decide)

theorem visits_iff : p.Visits visitor channelId ↔
    ∃ ch, p.visitChannel visitor channelId = .ok ch := by
  unfold Visits visitChannel
  cases p.getChannel channelId with
  | none => simp only [reduceCtorEq, false_and, exists_false]
  | some ch =>
    dsimp only
    split
    · rename_i visits
      exact iff_of_true ⟨ch, rfl, visits⟩ ⟨ch, rfl⟩
    · rename_i refused
      refine iff_of_false ?_ nofun
      rintro ⟨_, same, visits⟩
      cases same
      exact refused visits

/-- A request that visits a channel and then reads answers without the tombstones exactly when the
channel is not deleted and the reading does not change. -/
theorem visit_purge_iff {α : Type} {f g : α → Except PorchError (Porch × PorchResult)}
    {r r' : Except PorchError α} (Same : Prop)
    (absent : p.buried .porchChannels channelId = true → r' = .error (.channelNotFound channelId))
    (present : p.buried .porchChannels channelId = true →
      FailsOnlyWith (fun e => e.statusCode ≠ 404) (r >>= f))
    (kept : p.buried .porchChannels channelId = false → r' = r)
    (after : p.buried .porchChannels channelId = false → ∀ a, r = .ok a →
      (responseOf (f a) = responseOf (g a) ↔ Same)) :
    responseOf (r >>= f) = responseOf (r' >>= g) ↔
      p.buried .porchChannels channelId = false ∧ ((∃ a, r = .ok a) → Same) := by
  cases hb : p.buried .porchChannels channelId with
  | true =>
    rw [absent hb]
    refine iff_of_false ?_ fun h => by cases h.1
    exact responseOf_ne_notFound (present hb) channelId
  | false =>
    rw [kept hb]
    cases hr : r with
    | error e => exact iff_of_true rfl ⟨rfl, nofun⟩
    | ok a =>
      refine (after hb a hr).trans ?_
      simp only [true_and, Except.ok.injEq, exists_eq', forall_const]

theorem failsOnly_postMessage {body : String} {ch : PorchChannel}
    (there : p.getChannel channelId = some ch) (free : p.Unused id) :
    FailsOnlyWith (fun e => e.statusCode ≠ 404)
      (p.postMessage channelId visitor body id now) := by
  have found : (p.getChannel channelId).isSome = true := there ▸ rfl
  cases empty : body.isEmpty with
  | true =>
    rw [postMessage, if_pos empty]
    exact .error (show (400 : Int) ≠ 404 by decide)
  | false =>
    by_cases large : body.utf8ByteSize > maxMessageBodyBytes
    · rw [postMessage, if_neg (ne_true_of_eq_false empty), if_pos large]
      exact .error (show (400 : Int) ≠ 404 by decide)
    · obtain ⟨db, written, posted, _⟩ := exists_postMessage visitor now found free.1 empty large
      rw [posted]
      exact .ok _

/-- A vault that has a binding is not answered as one that has none. -/
theorem responseOf_ne_binding {r : Except PorchError (Porch × PorchResult)}
    (h : FailsOnlyWith VaultRefusal r) (channelId : String) : responseOf r ≠ responseOf
      (.error (.invalidInput ("channel " ++ channelId ++ " has no obsidian binding"))) := by
  cases r with
  | ok out => nofun
  | error e =>
    intro same
    have body := Except.error.inj same
    rcases h e rfl with ⟨detail, rfl⟩ | ⟨detail, rfl, other⟩
    · cases congrArg PorchErrorBody.code body
    · have text := (String.append_right_inj _).mp (congrArg PorchErrorBody.message body)
      exact not_vaultRefusal_binding channelId (.inr ⟨detail, rfl, other⟩)
        (congrArg PorchError.invalidInput text)

/-- What a write answers is read off its answer. -/
theorem responseOf_eq_of_answer {α : Type} {r r' : Except PorchError (Outcome α)}
    (result : α → PorchResult) (h : r.map Outcome.answer = r'.map Outcome.answer) :
    responseOf (r >>= fun out => .ok (out.porch, result out.answer)) =
      responseOf (r' >>= fun out => .ok (out.porch, result out.answer)) := by
  cases r with
  | error e =>
    cases r' with
    | error e' =>
      cases h
      rfl
    | ok out' => cases h
  | ok out =>
    cases r' with
    | error e' => cases h
    | ok out' => exact congrArg (fun a => Except.ok (result a)) (Except.ok.inj h)

/-- The answer of a vault request, by the binding. -/
theorem vault_purge_iff {α : Type} (read : Porch → Except PorchError α)
    {f g : α → Except PorchError (Porch × PorchResult)}
    (unbound : ∀ {p : Porch} {e : PorchError}, p.obsidianBinding channelId = .error e →
      read p = .error e)
    (refusal : (p.getObsidianConfig channelId).isSome = true → FailsOnlyWith VaultRefusal (read p))
    (kept : p.buried .obsidianChannels channelId = false → read p.purge = read p)
    (fine : ∀ a, FailsOnlyWith VaultRefusal (f a))
    (same : ∀ a, responseOf (f a) = responseOf (g a)) :
    responseOf (read p >>= f) = responseOf (read p.purge >>= g) ↔
      p.buried .obsidianChannels channelId = false := by
  cases h : p.buried .obsidianChannels channelId with
  | true =>
    obtain ⟨bound, missing⟩ := obsidianBinding_buried h
    rw [unbound missing]
    exact iff_of_false (responseOf_ne_binding ((refusal bound).bind fun a _ => fine a) channelId)
      nofun
  | false =>
    rw [kept h]
    refine iff_of_true ?_ rfl
    cases read p with
    | error e => rfl
    | ok a => exact same a

/-! ## The requests one by one -/

theorem getMessages_response_iff {since : Option Int64} {limit : UInt32} :
    responseOf (dispatchRequest files p visitor ⟨.getMessages channelId since limit, id, now⟩) =
      responseOf (dispatchRequest files p.purge visitor
        ⟨.getMessages channelId since limit, id, now⟩) ↔
      p.buried .porchChannels channelId = false ∧
        (p.Visits visitor channelId → p.PageClear channelId since limit) := by
  have found : ∀ {q : Porch} {ch : PorchChannel}, q.visitChannel visitor channelId = .ok ch →
      (q.getChannel channelId).isNone = false := by
    intro q ch h
    cases hc : q.getChannel channelId with
    | none =>
      rw [visitChannel_absent hc] at h
      cases h
    | some ch => rfl
  rw [visits_iff]
  refine visit_purge_iff _ (fun h => visitChannel_absent (getChannel_buried h).1) (fun h => ?_)
    visitChannel_purge fun h ch hvisit => ?_
  · obtain ⟨_, ch, there⟩ := getChannel_buried h
    refine (failsOnly_visitChannel there).bind fun ch hvisit => ?_
    rw [getMessages_eq (found hvisit)]
    exact .ok _
  · have here := found hvisit
    have there : (p.purge.getChannel channelId).isNone = false :=
      getChannel_purge_iff.mpr h ▸ here
    have same := p.getMessages_purge_iff channelId since limit
    rw [h, getMessages_eq here, getMessages_eq there, Except.ok.injEq] at same
    rw [getMessages_eq here, getMessages_eq there]
    simp only [true_and] at same
    refine Iff.trans ?_ same
    exact ⟨fun e => PorchResult.messages.inj (Except.ok.inj e),
      fun e => congrArg (fun m => Except.ok (PorchResult.messages m)) e⟩

theorem postMessage_response_iff {body : String} (free : p.Unused id) :
    responseOf (dispatchRequest files p visitor ⟨.postMessage channelId body, id, now⟩) =
      responseOf (dispatchRequest files p.purge visitor ⟨.postMessage channelId body, id, now⟩) ↔
      p.buried .porchChannels channelId = false := by
  refine (visit_purge_iff True
    (fun h => visitChannel_absent (getChannel_buried h).1) (fun h => ?_) visitChannel_purge
    fun h ch hvisit => ?_).trans (by simp only [implies_true, and_true])
  · obtain ⟨_, ch, there⟩ := getChannel_buried h
    refine (failsOnly_visitChannel there).bind fun _ _ => ?_
    exact (failsOnly_postMessage there free).bind fun _ _ => .ok _
  · refine iff_of_true (responseOf_eq_of_answer PorchResult.message ?_) trivial
    exact (postMessage_purge_iff free).mpr (.inr h)

theorem getTheme_response_iff :
    responseOf (dispatchRequest files p visitor ⟨.getTheme channelId, id, now⟩) =
      responseOf (dispatchRequest files p.purge visitor ⟨.getTheme channelId, id, now⟩) ↔
      p.buried .porchChannels channelId = false ∧
        (p.Visits visitor channelId → p.buried .channelThemes channelId = true →
          p.getTheme channelId = some (.defaultFor channelId)) := by
  rw [visits_iff]
  refine visit_purge_iff _ (fun h => visitChannel_absent (getChannel_buried h).1) (fun h => ?_)
    visitChannel_purge fun h ch hvisit => ?_
  · obtain ⟨_, ch, there⟩ := getChannel_buried h
    exact (failsOnly_visitChannel there).bind fun _ _ => .ok _
  · cases hb : p.buried .channelThemes channelId with
    | true =>
      obtain ⟨absent, row, hrow, _⟩ := find?_purge_none hb
      have mine : p.getTheme channelId = some row.cols.toTheme := congrArg (Option.map _) hrow
      have none_ : p.purge.getTheme channelId = none := congrArg (Option.map _) absent
      rw [mine, none_, Option.getD_some, Option.getD_none]
      simp only [true_imp_iff, Option.some.injEq]
      exact ⟨fun e => PorchResult.theme.inj (Except.ok.inj e),
        fun e => congrArg (fun theme => Except.ok (PorchResult.theme theme)) e⟩
    | false =>
      rw [← getTheme_purge_iff.mpr hb]
      exact iff_of_true rfl nofun

theorem listVault_response_iff {path : String} :
    responseOf (dispatchRequest files p visitor ⟨.listVault channelId path, id, now⟩) =
      responseOf (dispatchRequest files p.purge visitor ⟨.listVault channelId path, id, now⟩) ↔
      p.buried .porchChannels channelId = false ∧
        ((∃ ch, p.gateObsidian visitor channelId = .ok ch) →
          p.buried .obsidianChannels channelId = false) := by
  have any : ∀ q : Porch, FailsOnlyWith (fun e => e.statusCode ≠ 404)
      (q.listVault files.disk channelId path) := by
    intro q
    cases hc : q.getObsidianConfig channelId with
    | none =>
      have missing : q.listVault files.disk channelId path = .error (.invalidInput
          ("channel " ++ channelId ++ " has no obsidian binding")) := by
        rw [listVault, obsidianBinding, hc]
        rfl
      rw [missing]
      exact .error (show (400 : Int) ≠ 404 by decide)
    | some cfg => exact (failsOnly_listVault (hc ▸ rfl)).mono fun _ h => h.statusCode_ne
  refine visit_purge_iff _ (fun h => gateObsidian_absent (getChannel_buried h).1) (fun h => ?_)
    gateObsidian_purge fun h ch hgate => ?_
  · obtain ⟨_, ch, there⟩ := getChannel_buried h
    exact (failsOnly_gateObsidian there).bind fun _ _ => (any p).bind fun _ _ => .ok _
  · refine vault_purge_iff (fun q => q.listVault files.disk channelId path) (fun h => ?_)
      failsOnly_listVault (fun h => (listVault_purge_iff.mpr h).symm) (fun _ => .ok _)
      fun _ => rfl
    rw [listVault, h]
    rfl

theorem getVaultFile_response_iff {path : String} :
    responseOf (dispatchRequest files p visitor ⟨.getVaultFile channelId path, id, now⟩) =
      responseOf (dispatchRequest files p.purge visitor ⟨.getVaultFile channelId path, id, now⟩) ↔
      p.buried .porchChannels channelId = false ∧
        ((∃ ch, p.gateObsidian visitor channelId = .ok ch) →
          p.buried .obsidianChannels channelId = false) := by
  have any : ∀ q : Porch, FailsOnlyWith (fun e => e.statusCode ≠ 404)
      (q.readVaultFile files.disk channelId path) := by
    intro q
    cases hc : q.getObsidianConfig channelId with
    | none =>
      have missing : q.readVaultFile files.disk channelId path = .error (.invalidInput
          ("channel " ++ channelId ++ " has no obsidian binding")) := by
        rw [readVaultFile, obsidianBinding, hc]
        rfl
      rw [missing]
      exact .error (show (400 : Int) ≠ 404 by decide)
    | some cfg => exact (failsOnly_readVaultFile (hc ▸ rfl)).mono fun _ h => h.statusCode_ne
  have fits : ∀ {P : PorchError → Prop} (q : Porch) (a : List UInt8 × String), FailsOnlyWith P
      (if a.1.length > maxInlineAssetBytes then
        .ok (q, PorchResult.file (.tooLarge path a.2 a.1.length))
      else .ok (q, PorchResult.file (.inline path a.2 a.1 a.1.length))) := by
    intro P q a
    split
    · exact .ok _
    · exact .ok _
  refine visit_purge_iff _ (fun h => gateObsidian_absent (getChannel_buried h).1) (fun h => ?_)
    gateObsidian_purge fun h ch hgate => ?_
  · obtain ⟨_, ch, there⟩ := getChannel_buried h
    exact (failsOnly_gateObsidian there).bind fun _ _ => (any p).bind fun a _ => fits p a
  · refine vault_purge_iff (fun q => q.readVaultFile files.disk channelId path) (fun h => ?_)
      failsOnly_readVaultFile (fun h => (readVaultFile_purge_iff.mpr h).symm) (fits p) fun a => ?_
    · rw [readVaultFile, h]
      rfl
    · dsimp only
      split
      · rfl
      · rfl

/-- The text about a knock that is settled is longer than the one about a knock that is missing. -/
theorem settled_ne_missing (knockId status : String) :
    "knock " ++ knockId ++ " is not pending (status=" ++ status ++ ")" ≠
      "knock not found: " ++ knockId := by
  intro same
  have lengths := congrArg String.length same
  simp only [String.length_append] at lengths
  have words : "knock ".length = 6 ∧ " is not pending (status=".length = 24 ∧ ")".length = 1 ∧
      "knock not found: ".length = 17 := by decide
  omega

theorem withdrawKnock_response_iff :
    responseOf (dispatchRequest files p visitor ⟨.withdrawKnock knockId, id, now⟩) =
      responseOf (dispatchRequest files p.purge visitor ⟨.withdrawKnock knockId, id, now⟩) ↔
      p.buried .channelKnocks knockId = false := by
  show responseOf (p.withdrawKnock knockId visitor now >>= _) =
    responseOf (p.purge.withdrawKnock knockId visitor now >>= _) ↔ _
  cases hb : p.buried .channelKnocks knockId with
  | true =>
    obtain ⟨absent, row, hrow, _⟩ := find?_purge_none hb
    have missing : p.purge.withdrawKnock knockId visitor now =
        .error (.invalidInput ("knock not found: " ++ knockId)) := by
      simp only [withdrawKnock, resolveKnock, pendingKnock, absent]
    rw [missing]
    refine iff_of_false (fun same => ?_) Bool.true_eq_false.mp
    by_cases own : row.cols.knockerPeerId = visitor
    · by_cases pending : row.cols.toKnock.status = .pending
      · obtain ⟨db, written, withdrawn, _⟩ := withdrawKnock_pending now hrow own pending
        rw [withdrawn] at same
        cases same
      · rw [withdrawKnock_settled hrow own pending] at same
        have text := congrArg PorchErrorBody.message (Except.error.inj same)
        exact settled_ne_missing _ _ ((String.append_right_inj _).mp text)
    · have foreign : ∀ r ∈ p.db.find? .channelKnocks knockId, r.cols.knockerPeerId ≠ visitor := by
        intro r hr
        cases hrow.symm.trans hr
        exact own
      have named : p.foreignKnock visitor knockId = some row.cols.channelId := by
        have other : row.cols.toKnock.knockerPeerId ≠ visitor := own
        simp only [foreignKnock, lookupKnockById, hrow, Option.map_some, Option.filter_some, other,
          ne_eq, not_false_eq_true, decide_true, if_true]
        rfl
      rw [withdrawKnock_foreign foreign, named] at same
      cases congrArg PorchErrorBody.code (Except.error.inj same)
  | false =>
    have stored := find?_purge_eq hb
    refine iff_of_true (responseOf_eq_of_answer PorchResult.knock ?_) rfl
    cases hf : p.db.find? .channelKnocks knockId with
    | none =>
      have missing : ∀ q : Porch, q.db.find? .channelKnocks knockId = none →
          q.withdrawKnock knockId visitor now =
            .error (.invalidInput ("knock not found: " ++ knockId)) := by
        intro q hq
        simp only [withdrawKnock, resolveKnock, pendingKnock, hq]
      rw [missing p hf, missing p.purge (stored.trans hf)]
    | some row =>
      have hq := stored.trans hf
      by_cases own : row.cols.knockerPeerId = visitor
      · by_cases pending : row.cols.toKnock.status = .pending
        · obtain ⟨db, written, withdrawn, _⟩ := withdrawKnock_pending now hf own pending
          obtain ⟨db', written', withdrawn', _⟩ := withdrawKnock_pending now hq own pending
          rw [withdrawn, withdrawn']
          rfl
        · rw [withdrawKnock_settled hf own pending, withdrawKnock_settled hq own pending]
      · have foreign : ∀ {q : Porch}, q.db.find? .channelKnocks knockId = some row →
            ∀ r ∈ q.db.find? .channelKnocks knockId, r.cols.knockerPeerId ≠ visitor := by
          intro q hfound r hr
          cases hfound.symm.trans hr
          exact own
        have named : p.purge.foreignKnock visitor knockId = p.foreignKnock visitor knockId := by
          unfold foreignKnock lookupKnockById
          rw [stored]
        rw [withdrawKnock_foreign (foreign hf), withdrawKnock_foreign (foreign hq), named]

theorem getAssetBytes_response_iff {assetId : String} :
    responseOf (dispatchRequest files p visitor ⟨.getAssetBytes assetId, id, now⟩) =
      responseOf (dispatchRequest files p.purge visitor ⟨.getAssetBytes assetId, id, now⟩) ↔
      p.buried .porchAssets assetId = false := by
  cases hb : p.buried .porchAssets assetId with
  | true =>
    obtain ⟨absent, row, hrow, hgone⟩ := find?_purge_none hb
    have found : p.getAsset assetId = some row.cols.toAsset := congrArg (Option.map _) hrow
    have none_ : p.purge.getAsset assetId = none := congrArg (Option.map _) absent
    have there := isSome_getChannel_of_parent (KeyedTable.mem_of_find? hrow)
      (show SyncedTable.parent .porchAssets row.cols = some row.cols.channelId from rfl)
    obtain ⟨ch, hch⟩ := Option.isSome_iff_exists.mp there
    have missing : dispatchRequest files p.purge visitor ⟨.getAssetBytes assetId, id, now⟩ =
        .error (.channelNotFound assetId) := by
      simp only [dispatchRequest, visitAsset, none_]
      rfl
    rw [missing]
    refine iff_of_false (responseOf_ne_notFound ?_ assetId) nofun
    have visit :
        FailsOnlyWith (fun e => e.statusCode ≠ 404) (p.visitAsset files visitor assetId) := by
      unfold visitAsset readAssetBytes
      rw [found]
      refine (failsOnly_visitChannel hch).bind fun _ _ => ?_
      dsimp only
      split
      · exact .ok _
      · refine FailsOnlyWith.bind ?_ fun _ _ => .ok _
        split
        · exact .error (show (400 : Int) ≠ 404 by decide)
        · split
          · exact .error (show (500 : Int) ≠ 404 by decide)
          · exact .ok _
    exact visit.bind fun _ _ => .ok _
  | false =>
    have same := getAsset_purge_iff.mpr hb
    refine iff_of_true ?_ rfl
    have visit : p.purge.visitAsset files visitor assetId = p.visitAsset files visitor assetId := by
      unfold visitAsset readAssetBytes
      rw [← same]
      cases ha : p.getAsset assetId with
      | none => rfl
      | some asset =>
        have alive : p.buried .porchChannels asset.channelId = false := by
          obtain ⟨row, hrow, rfl⟩ := Option.map_eq_some_iff.mp ha
          unfold buried at hb
          rw [hrow, Option.any_some] at hb
          rw [buried_channel]
          exact (Bool.or_eq_false_iff.mp hb).2
        dsimp only
        rw [visitChannel_purge alive]
        rfl
    show responseOf (p.visitAsset files visitor assetId >>= _) =
      responseOf (p.purge.visitAsset files visitor assetId >>= _)
    rw [visit]
    cases p.visitAsset files visitor assetId with
    | error e => rfl
    | ok response => rfl

/-- What a knock request answers for a channel that is there. -/
theorem knockRequest_there {message : Option String} {ch : PorchChannel}
    (there : p.getChannel channelId = some ch) (free : p.Unused id) :
    responseOf (dispatchRequest files p visitor ⟨.knock channelId message, id, now⟩) =
      match ch.aclMode with
      | .open =>
        responseOf (.error (.invalidInput "channel is already open — no knock required"))
      | .ownerOnly => responseOf (.error (.channelNotFound channelId))
      | .allowlist =>
        if MessageRefused message then
          responseOf (.error (.invalidInput ("knock message too large: " ++
            toString (message.elim 0 String.utf8ByteSize) ++ " > " ++
            toString maxKnockMessageBytes)))
        else .ok (.knock ((p.lookupKnockPending channelId visitor).getD
          ⟨id, channelId, visitor, message, .pending, now, none⟩)) := by
  simp only [dispatchRequest, there]
  cases ch.aclMode with
  | «open» => rfl
  | ownerOnly => rfl
  | allowlist =>
    have answer := knock_there visitor message now there free
    dsimp only
    revert answer
    generalize p.knock channelId visitor message id now = r
    intro answer
    split
    · rename_i refused
      rw [if_pos refused] at answer
      cases r with
      | error e =>
        cases answer
        rfl
      | ok out => cases answer
    · rename_i accepted
      rw [if_neg accepted] at answer
      cases r with
      | error e => cases answer
      | ok out => exact congrArg (fun a => Except.ok (PorchResult.knock a)) (Except.ok.inj answer)

theorem knockRequest_absent {message : Option String} (absent : p.getChannel channelId = none) :
    dispatchRequest files p visitor ⟨.knock channelId message, id, now⟩ =
      .error (.channelNotFound channelId) := by
  simp only [dispatchRequest, absent]

theorem knock_response_iff {message : Option String} (free : p.Unused id) :
    responseOf (dispatchRequest files p visitor ⟨.knock channelId message, id, now⟩) =
      responseOf (dispatchRequest files p.purge visitor ⟨.knock channelId message, id, now⟩) ↔
      p.KnockReadsNoneGone visitor channelId message := by
  unfold KnockReadsNoneGone
  cases hc : p.getChannel channelId with
  | none =>
    have absent : p.purge.getChannel channelId = none := by
      have row : p.db.find? .porchChannels channelId = none := Option.map_eq_none_iff.mp hc
      rw [getChannel, find?_purge, row]
      rfl
    rw [knockRequest_absent hc, knockRequest_absent absent]
    exact iff_of_true rfl trivial
  | some ch =>
    rw [Option.map_some]
    cases hb : p.buried .porchChannels channelId with
    | true =>
      rw [knockRequest_there hc free, knockRequest_absent (getChannel_buried hb).1]
      cases ch.aclMode with
      | «open» => exact iff_of_false (fun same => by cases same) Bool.true_eq_false.mp
      | ownerOnly => exact iff_of_true rfl trivial
      | allowlist =>
        refine iff_of_false ?_ fun h => by cases h.1
        dsimp only
        split
        · intro same
          cases same
        · intro same
          cases same
    | false =>
      have there : p.purge.getChannel channelId = some ch := getChannel_purge_iff.mpr hb ▸ hc
      rw [knockRequest_there hc free, knockRequest_there there (unused_purge free)]
      cases ch.aclMode with
      | «open» => exact iff_of_true rfl rfl
      | ownerOnly => exact iff_of_true rfl trivial
      | allowlist =>
        dsimp only
        have same := knock_purge_iff visitor channelId message now free
        rw [hb, knock_there visitor message now hc free,
          knock_there visitor message now there (unused_purge free)] at same
        refine Iff.trans ?_ same
        split
        · exact iff_of_true rfl rfl
        · exact ⟨fun e => congrArg Except.ok (PorchResult.knock.inj (Except.ok.inj e)),
            fun e => congrArg (fun a => Except.ok (PorchResult.knock a)) (Except.ok.inj e)⟩

/-- Tombstoned channels are not listed. -/
theorem listChannels_purge : p.purge.listChannels = p.listChannels := by
  unfold listChannels
  rw [rows_purge, List.filter_filter]
  congr 2
  refine List.filter_congr fun row _ => ?_
  rw [gone_channel, Row.dead]
  by_cases alive : row.syncTombstone = 0
  · rw [alive]
    rfl
  · simp only [alive, decide_false, Bool.false_and]

/-- A listed channel is not deleted. -/
theorem alive_of_listed {ch : PorchChannel} (h : ch ∈ p.listChannels) :
    p.buried .porchChannels ch.id = false := by
  obtain ⟨row, hrow, rfl⟩ := List.mem_map.mp ((List.mem_insertionSort _).mp h)
  obtain ⟨hmem, alive⟩ := List.mem_filter.mp hrow
  have stored : p.db.find? .porchChannels row.cols.id = some row := KeyedTable.find?_of_mem hmem
  show p.buried .porchChannels row.cols.id = false
  rw [buried_channel, channelDead, stored, Option.any_some, Row.dead, of_decide_eq_true alive]
  rfl

theorem listChannelRow_purge_iff {ch : PorchChannel}
    (alive : p.buried .porchChannels ch.id = false) :
    p.listChannelRow visitor ch = p.purge.listChannelRow visitor ch ↔
      p.buried .channelThemes ch.id = false ∧
        (p.canVisit visitor ch = true ∨ p.StatusKept ch.id visitor) := by
  simp only [listChannelRow, PorchListChannelRow.mk.injEq, true_and, getThemeSummary_purge_iff,
    canVisit_purge alive]
  rw [and_comm]
  refine and_congr_right fun _ => ?_
  by_cases visits : p.canVisit visitor ch = true
  · simp only [visits, if_true, true_or]
  · simp only [visits, if_false, Bool.false_eq_true, false_or, ChannelVisibility.needsKnock.injEq]
    exact status_purge_iff

theorem listChannels_response_iff :
    responseOf (dispatchRequest files p visitor ⟨.listChannels, id, now⟩) =
      responseOf (dispatchRequest files p.purge visitor ⟨.listChannels, id, now⟩) ↔
      ∀ ch ∈ p.listChannels, ch.aclMode ≠ .ownerOnly →
        p.buried .channelThemes ch.id = false ∧
          (p.canVisit visitor ch = true ∨ p.StatusKept ch.id visitor) := by
  simp only [dispatchRequest, responseOf, Except.ok.injEq, PorchResult.channels.injEq,
    listChannels_purge, List.map_inj_left, List.mem_filter, decide_eq_true_eq, and_imp]
  refine forall_congr' fun ch => forall_congr' fun listed => forall_congr' fun _ => ?_
  exact listChannelRow_purge_iff (alive_of_listed listed)

/-! ## Any request -/

theorem response_purge_iff {call : PorchCall} (free : p.Unused call.id) :
    (dispatchPorch files p visitor call).2 = (dispatchPorch files p.purge visitor call).2 ↔
      p.RequestReadsNoneGone visitor call.request := by
  rw [dispatchPorch_response, dispatchPorch_response]
  obtain ⟨request, id, now⟩ := call
  cases request with
  | listChannels => exact listChannels_response_iff
  | getMessages channelId since limit => exact getMessages_response_iff
  | postMessage channelId body => exact postMessage_response_iff free
  | knock channelId message => exact knock_response_iff free
  | knockStatus channelId =>
    refine Iff.trans ?_ knockStatusFor_purge_iff
    exact ⟨fun e => PorchResult.knockStatus.inj (Except.ok.inj e),
      fun e => congrArg (fun a => Except.ok (PorchResult.knockStatus a)) e⟩
  | withdrawKnock knockId => exact withdrawKnock_response_iff
  | getTheme channelId => exact getTheme_response_iff
  | getAssetBytes assetId => exact getAssetBytes_response_iff
  | listVault channelId path => exact listVault_response_iff
  | getVaultFile channelId path => exact getVaultFile_response_iff

end Porch

end Concorrd
