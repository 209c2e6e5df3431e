import Concorrd.HeroSync.Convergence

/-!
# How porches evolve on a network

Every event but a local write changes a porch in one way only: rows that another porch or a
delta in flight holds are merged in. `Merges` says so, and `merges_step` says that it covers
every such event of the network, whole rounds with all their failures included.
-/

namespace Concorrd

namespace Porch

/-- The second porch is the first with rows of a set merged in. -/
structure Merges (R : Set SyncedRow) (p p' : Porch) : Prop where
  device : p'.deviceId = p.deviceId
  keeps : p'.db.CatchesUp p.db
  source : ∀ x, p'.tables.Holds x → p.tables.Holds x ∨ x ∈ R

variable {R R' : Set SyncedRow} {p p' p'' remote : Porch} {delta : SyncDelta}
  {counts : ApplyCounts} {me peer : String} {now : Int64}

theorem Merges.refl : Merges R p p := ⟨rfl, Database.CatchesUp.refl, fun _ hx => .inl hx⟩

/-- A porch whose tables and device id are unchanged merged nothing. -/
theorem Merges.of_db_eq (device : p'.deviceId = p.deviceId) (db : p'.db = p.db) :
    Merges R p p' := by
  refine ⟨device, ?_, fun x hx => .inl ?_⟩
  · rw [db]
    exact Database.CatchesUp.refl
  · rwa [tables, db] at hx

theorem Merges.trans (h : Merges R p p') (h' : Merges R p' p'') : Merges R p p'' where
  device := h'.device.trans h.device
  keeps := h'.keeps.trans h.keeps
  source x hx := (h'.source x hx).elim (h.source x) .inr

theorem Merges.mono (h : Merges R p p') (sub : ∀ x ∈ R, p.tables.Holds x ∨ x ∈ R') :
    Merges R' p p' where
  device := h.device
  keeps := h.keeps
  source x hx := (h.source x hx).elim .inl (sub x)

/-- A batch merges the rows of its delta. -/
theorem Merges.of_batch (h : p.applySyncBatch delta = .ok (p', counts)) :
    Merges {x | x ∈ delta.all} p p' := by
  obtain ⟨hbatch, hrest⟩ := applySyncBatch_eq_ok_iff.mp h
  refine ⟨?_, Database.catchesUp_of_batch hbatch, fun x hx => Database.source_of_batch hbatch hx⟩
  rw [hrest]

/-- A porch with a channel keeps one. -/
theorem Merges.channels_ne_nil (h : Merges R p p')
    (hne : (p.tables .porchChannels).rows ≠ []) : (p'.tables .porchChannels).rows ≠ [] := by
  obtain ⟨r, hr⟩ := List.exists_mem_of_ne_nil _ hne
  obtain ⟨y, hy, _⟩ := h.keeps ⟨.porchChannels, r⟩ hr
  obtain ⟨hholds, hkey⟩ := SyncedTables.view_eq_some_iff.mp hy
  obtain ⟨t, s⟩ := y
  cases congrArg RowKey.table hkey
  exact List.ne_nil_of_mem hholds

/-! ## Requests -/

/-- A pull changes nothing, and is answered with rows the porch holds or refused. -/
theorem dispatch_pullDelta_cases (remote : Porch) (me : String) (since : SyncCursor) :
    remote.dispatch me (.pullDelta since) = (remote, .ok (.delta (remote.db.collectDelta since))) ∨
      ∃ body, remote.dispatch me (.pullDelta since) = (remote, .error body) := by
  cases hlinked : remote.isPersonalDevice me with
  | false =>
    refine .inr ⟨.ofError (.accessDenied ("peer " ++ me ++ " is not a linked personal device")), ?_⟩
    simp only [dispatch, dispatchInner, assertLinked, hlinked, Bool.false_eq_true, if_false]
    rfl
  | true => exact .inl (dispatch_pullDelta_eq_ok_iff.mpr ⟨hlinked, rfl, rfl⟩)

/-- A push merges its delta or changes nothing. -/
theorem dispatch_pushDelta_merges (remote : Porch) (me : String) (delta : SyncDelta) :
    Merges {x | x ∈ delta.all} remote (remote.dispatch me (.pushDelta delta)).1 := by
  cases hlinked : remote.isPersonalDevice me with
  | false =>
    have refused : (remote.dispatch me (.pushDelta delta)).1 = remote := by
      simp only [dispatch, dispatchInner, assertLinked, hlinked, Bool.false_eq_true, if_false]
      rfl
    rw [refused]
    exact .refl
  | true =>
    rw [dispatch_pushDelta hlinked]
    cases hbatch : remote.applySyncBatch delta with
    | error e => exact .refl
    | ok out => exact .of_batch hbatch

theorem collectDelta_sub {cursor : SyncCursor} {x : SyncedRow}
    (hx : x ∈ (p.db.collectDelta cursor).all) : p.tables.Holds x :=
  (Database.mem_collectDelta.mp hx).1

/-! ## Rounds -/

/-- A round of device sync, successful or not, merges rows of the one porch into the other. -/
theorem syncNow_merges (p : Porch) (me : String) (remote : Porch) (peer : String) (now : Int64) :
    let R : Set SyncedRow := {x | p.tables.Holds x ∨ remote.tables.Holds x}
    Merges R p (p.syncNow me remote peer now).caller ∧
      Merges R remote (p.syncNow me remote peer now).remote := by
  intro R
  unfold syncNow
  cases hlinked : p.isPersonalDevice peer with
  | false =>
    simp only [if_true]
    exact ⟨.refl, .refl⟩
  | true =>
    simp only [Bool.true_eq_false, if_false]
    rcases dispatch_pullDelta_cases remote me p.db.localCursor with answered | ⟨body, refused⟩
    · simp only [answered, decodeDelta]
      cases hpull : p.applySyncBatch (remote.db.collectDelta p.db.localCursor) with
      | error e => exact ⟨.refl, .refl⟩
      | ok out =>
        obtain ⟨p₁, pulled⟩ := out
        have caller : Merges R p p₁ := (Merges.of_batch hpull).mono fun x hx =>
          .inr (.inr (collectDelta_sub hx))
        have pushed : Merges R remote
            (remote.dispatch me (.pushDelta (p₁.db.collectDelta SyncCursor.default))).1 := by
          refine (dispatch_pushDelta_merges remote me _).mono fun x hx => ?_
          exact (caller.source x (collectDelta_sub hx)).elim (fun h => .inr (.inl h)) .inr
        simp only
        cases hpush : decodePush
            (remote.dispatch me (.pushDelta (p₁.db.collectDelta SyncCursor.default))).2 with
        | error e => exact ⟨caller, pushed⟩
        | ok applied => exact ⟨caller.trans (.of_db_eq rfl rfl), pushed⟩
    · simp only [refused, decodeDelta]
      exact ⟨.refl, .refl⟩

section

variable {codec : JsonCodec} {fresh : Nat → String × Int64} {env : HeroSyncEnvelope}

/-- A responder merges the push or leaves its tables alone. -/
theorem dispatchRound_merges (responder : Porch) :
    Merges {x | x ∈ env.push.all} responder (responder.dispatchRound codec fresh env).1 := by
  cases hrefusal : anchorRefusal env responder.heroGetAnchorInstance with
  | some refusal =>
    rw [dispatchRound_of_refusal codec fresh hrefusal]
    exact .refl
  | none =>
    rcases dispatchRound_cases codec fresh hrefusal with
      ⟨queue, e, _, run⟩ | ⟨queue, _, ⟨e, _, run⟩ | ⟨db, counts, hbatch, run⟩⟩
    · rw [run]
      exact .of_db_eq rfl rfl
    · rw [run]
      exact .of_db_eq rfl rfl
    · have queues : Merges {x | x ∈ env.push.all} responder
        { responder with conflictQueue := queue } := .of_db_eq rfl rfl
      rw [run]
      exact queues.trans (.of_batch (applySyncBatch_eq_ok_iff.mpr ⟨hbatch, rfl⟩))

/-- What a responder answers with, it holds. -/
theorem dispatchRound_push_sub (responder : Porch) {responder' : Porch} {push : SyncDelta}
    {conflicts : Nat} {x : SyncedRow}
    (h : responder.dispatchRound codec fresh env = (responder', .round push conflicts))
    (hx : x ∈ push.all) : responder'.tables.Holds x := by
  obtain ⟨_, _, _, _, _, rfl⟩ := stages_of_dispatchRound h
  exact collectDelta_sub hx

/-- A hero-sync round, completed or not, merges rows of the one porch into the other. -/
theorem runHeroSyncRound_merges (codec : JsonCodec) (fresh : Nat → String × Int64)
    (p responder : Porch) :
    let R : Set SyncedRow := {x | p.tables.Holds x ∨ responder.tables.Holds x}
    Merges R p (p.runHeroSyncRound codec fresh responder).initiator ∧
      Merges R responder (p.runHeroSyncRound codec fresh responder).responder := by
  intro R
  have served : Merges R responder (responder.dispatchRound codec fresh p.heroEnvelope).1 :=
    (dispatchRound_merges responder).mono fun x hx => .inr (.inl (collectDelta_sub hx))
  unfold runHeroSyncRound
  simp only [heroDispatch]
  cases hdispatch : responder.dispatchRound codec fresh p.heroEnvelope with
  | mk merged response =>
    rw [hdispatch] at served
    cases response with
    | round push conflicts =>
      simp only
      cases hbatch : p.applySyncBatch push with
      | error e => exact ⟨.refl, served⟩
      | ok out =>
        refine ⟨(Merges.of_batch hbatch).mono fun x hx => .inr ?_, served⟩
        exact (served.source x (dispatchRound_push_sub responder hdispatch hx)).elim .inr id
    | pong mode => exact ⟨.refl, served⟩
    | anchorMismatch anchor message => exact ⟨.refl, served⟩
    | error code message => exact ⟨.refl, served⟩

end

end Porch

/-! ## Events -/

namespace Network

variable {ι : Type} [DecidableEq ι] {codec : JsonCodec} {peerId : ι → String} {net : Network ι}

/-- The rows that some porch or some delta in flight holds. -/
def Known (net : Network ι) : Set SyncedRow :=
  {x | (∃ i, (net.porch i).tables.Holds x) ∨ ∃ delta ∈ net.wire, x ∈ delta.all}

private theorem merges_set {i k : ι} {p : Porch} (h : Porch.Merges net.Known (net.porch i) p) :
    Porch.Merges net.Known (net.porch k) ((net.set i p).porch k) := by
  by_cases hk : k = i
  · subst hk
    rwa [porch_set_self]
  · rw [porch_set_other hk]
    exact .refl

private theorem merges_set_pair {i j k : ι} {p q : Porch} (hij : i ≠ j)
    (h : Porch.Merges {x | (net.porch i).tables.Holds x ∨ (net.porch j).tables.Holds x}
      (net.porch i) p)
    (h' : Porch.Merges {x | (net.porch i).tables.Holds x ∨ (net.porch j).tables.Holds x}
      (net.porch j) q) :
    Porch.Merges net.Known (net.porch k) (((net.set i p).set j q).porch k) := by
  have known : ∀ x, (net.porch i).tables.Holds x ∨ (net.porch j).tables.Holds x →
      x ∈ net.Known := fun x hx => .inl (hx.elim (fun h => ⟨i, h⟩) fun h => ⟨j, h⟩)
  by_cases hj : k = j
  · subst hj
    rw [porch_set_self]
    exact h'.mono fun x hx => .inr (known x hx)
  · rw [porch_set_other hj]
    exact merges_set (h.mono fun x hx => .inr (known x hx))

/-- Every event but a local write merges known rows into every porch. -/
theorem merges_step {e : NetEvent ι} (hwrite : ∀ i op, e ≠ .write i op) (k : ι) :
    Porch.Merges net.Known (net.porch k) ((step codec peerId net e).porch k) := by
  cases e with
  | write i op => exact absurd rfl (hwrite i op)
  | link i peer deviceId label now =>
    simp only [step]
    cases hlink : (net.porch i).linkPersonalDevice peer deviceId label now with
    | error e => exact .refl
    | ok p =>
      refine merges_set ?_
      unfold Porch.linkPersonalDevice at hlink
      split at hlink
      · cases hlink
      split at hlink
      · cases hlink
      cases hlink
      exact .of_db_eq rfl rfl
  | unlink i peer => exact merges_set (.of_db_eq rfl rfl)
  | send i cursor => exact .refl
  | receive i n =>
    simp only [step]
    cases hwire : net.wire[n]? with
    | none => exact .refl
    | some delta =>
      cases hbatch : (net.porch i).applySyncBatch delta with
      | error e =>
        simp only [hbatch]
        exact .refl
      | ok out =>
        simp only [hbatch]
        refine merges_set ((Porch.Merges.of_batch hbatch).mono fun x hx => .inr (.inr ?_))
        exact ⟨delta, List.mem_of_getElem? hwire, hx⟩
  | sync i j now =>
    simp only [step]
    by_cases hij : i = j
    · simp only [hij, if_true]
      exact .refl
    · simp only [hij, if_false]
      obtain ⟨hcaller, hremote⟩ :=
        Porch.syncNow_merges (net.porch i) (peerId i) (net.porch j) (peerId j) now
      exact merges_set_pair hij hcaller hremote
  | hero i j fresh =>
    simp only [step]
    by_cases hij : i = j
    · simp only [hij, if_true]
      exact .refl
    · simp only [hij, if_false]
      obtain ⟨hinitiator, hresponder⟩ :=
        Porch.runHeroSyncRound_merges codec fresh (net.porch i) (net.porch j)
      exact merges_set_pair hij hinitiator hresponder

/-- A delta in flight was in flight before or was collected from a porch. -/
theorem wire_step {e : NetEvent ι} {delta : SyncDelta}
    (h : delta ∈ (step codec peerId net e).wire) : delta ∈ net.wire ∨
      ∃ i, ∀ x ∈ delta.all, (net.porch i).tables.Holds x := by
  cases e with
  | send i cursor =>
    rcases List.mem_append.mp h with h | h
    · exact .inl h
    · rw [List.mem_singleton.mp h]
      exact .inr ⟨i, fun x hx => Porch.collectDelta_sub hx⟩
  | write i op => exact .inl h
  | unlink i peer => exact .inl h
  | link i peer deviceId label now =>
    simp only [step] at h
    split at h
    · exact .inl h
    · exact .inl h
  | receive i n =>
    simp only [step] at h
    split at h
    · exact .inl h
    · split at h
      · exact .inl h
      · exact .inl h
  | sync i j now =>
    simp only [step] at h
    split at h
    · exact .inl h
    · exact .inl h
  | hero i j fresh =>
    simp only [step] at h
    split at h
    · exact .inl h
    · exact .inl h

end Network

end Concorrd
