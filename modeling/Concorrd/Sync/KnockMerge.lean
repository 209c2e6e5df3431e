import Concorrd.Lib.TwoWay
import Concorrd.Porch.Readers
import Concorrd.Sync.Replication

/-!
# Concurrent decisions on a knock

Two devices hold the same pending knock and each decides it, or leaves it, before they sync in
both directions. An accept stamps two rows, the knock and the access it grants, and they merge
independently: the knock may lose to a later rejection while the grant meets nobody.
`agreeOnKnock_iff` says exactly when the status agreed on and the access agree.
-/

namespace Concorrd

open SyncedRow (stamp)

/-! ## A round in each direction -/

/-- What the first tables become when the second are exchanged with in both directions. -/
structure SyncedTables.Meets (T T' T₂ : SyncedTables) : Prop where
  both : ∀ k x y, T.view k = some x → T'.view k = some y →
    0 < x.lamport ∨ 0 < y.lamport ∨ x = y → T₂.view k = Lww.larger stamp (some x) (some y)
  gained : ∀ k y, T.view k = none → T'.view k = some y → 0 < y.lamport → T₂.view k = some y
  blocked : ∀ k y, T.view k = none → T'.view k = some y → y.lamport = Int64.minValue →
    T₂.view k = none
  source : ∀ k w, T₂.view k = some w → T.view k = some w ∨ T'.view k = some w
  stays : ∀ k x, T.view k = some x → ∃ w, T₂.view k = some w

section

variable {A B : Porch} {a b : String} {now now' : Int64} {first second : Porch.SyncRound}

/-- A round is an exchange of every register. -/
theorem Porch.view_of_synced {p remote : Porch} {me peer : String} {pulled pushed : ApplyCounts}
    {round : Porch.SyncRound} (h : Porch.Synced p me remote peer now pulled pushed round)
    (k : RowKey) : Lww.exchange stamp (Database.above p.db.localCursor)
        (Database.above SyncCursor.default) (p.tables.view k) (remote.tables.view k) =
      (round.caller.tables.view k, round.remote.tables.view k) := by
  have pull := Database.view_of_exchange h.pull k
  have push := Database.view_of_exchange h.push k
  simp only [Lww.exchange, ← pull, ← push]

/-- The push lets the rows of positive lamport through. -/
private theorem above_default {x : SyncedRow} :
    Database.above SyncCursor.default x = true ↔ 0 < x.lamport := by
  rw [Database.above, decide_eq_true_eq, Database.sinceFor_default]

/-- No cursor lets the least lamport through. -/
private theorem above_eq_false {cursor : SyncCursor} {x : SyncedRow}
    (h : x.lamport = Int64.minValue) : Database.above cursor x = false := by
  rw [Database.above, decide_eq_false_iff_not, h]
  exact not_lt.mpr (Int64.minValue_le _)

/-- After a round in each direction each side has met the other. -/
theorem meets_of_syncNow (hfirst : A.syncNow a B b now = first) (ok : first.report.error = none)
    (hsecond : first.remote.syncNow b first.caller a now' = second)
    (ok' : second.report.error = none) :
    A.tables.Meets B.tables second.remote.tables ∧
      B.tables.Meets A.tables second.caller.tables := by
  obtain ⟨_, _, round₁⟩ := Porch.syncNow_eq_ok_iff.mp ⟨hfirst, ok⟩
  obtain ⟨_, _, round₂⟩ := Porch.syncNow_eq_ok_iff.mp ⟨hsecond, ok'⟩
  have ends : ∀ k, Lww.bothWays stamp (Database.above A.db.localCursor)
      (Database.above first.remote.db.localCursor) (Database.above SyncCursor.default)
      (A.tables.view k) (B.tables.view k) =
        (second.remote.tables.view k, second.caller.tables.view k) := by
    intro k
    rw [Lww.bothWays, Porch.view_of_synced round₁ k, Porch.view_of_synced round₂ k,
      Prod.swap_prod_mk]
  have remote : ∀ k, second.remote.tables.view k = _ := fun k => (congrArg Prod.fst (ends k)).symm
  have caller : ∀ k, second.caller.tables.view k = _ := fun k => (congrArg Prod.snd (ends k)).symm
  have mono : ∀ x y : SyncedRow, x.stamp ≤ y.stamp →
      Database.above SyncCursor.default x = true → Database.above SyncCursor.default y = true := by
    intro x y hle hx
    rw [above_default] at hx ⊢
    exact hx.trans_le (SyncedRow.lamport_le_of_stamp_le hle)
  have both : ∀ k x y, A.tables.view k = some x → B.tables.view k = some y →
      0 < x.lamport ∨ 0 < y.lamport ∨ x = y →
        second.remote.tables.view k = Lww.larger stamp (some x) (some y) ∧
          second.caller.tables.view k = Lww.larger stamp (some y) (some x) := by
    intro k x y hx hy h
    rw [remote, caller, hx, hy]
    rcases h with h | h | rfl
    · rw [Lww.bothWays_of_pushes mono (.inl (above_default.mpr h))]
      exact ⟨rfl, rfl⟩
    · rw [Lww.bothWays_of_pushes mono (.inr (above_default.mpr h))]
      exact ⟨rfl, rfl⟩
    · rw [Lww.bothWays_self, Lww.larger_self]
      exact ⟨rfl, rfl⟩
  have source : ∀ k w, second.remote.tables.view k = some w ∨ second.caller.tables.view k = some w →
      A.tables.view k = some w ∨ B.tables.view k = some w := by
    intro k w h
    rw [remote, caller] at h
    exact Lww.source_of_bothWays h
  constructor
  · refine ⟨fun k x y hx hy h => (both k x y hx hy h).1, fun k y hx hy h => ?_,
      fun k y hx hy h => ?_, fun k w h => source k w (.inl h), fun k x hx => ?_⟩
    · rw [remote, hx, hy, Lww.bothWays_none_some (above_default.mpr h)]
    · rw [remote, hx, hy,
        Lww.bothWays_none_some_of_blocked (above_eq_false h) (above_eq_false h)]
    · rw [remote, hx]
      exact Lww.exists_bothWays_fst x _
  · refine ⟨fun k y x hy hx h => (both k x y hx hy ?_).2, fun k x hy hx h => ?_,
      fun k x hy hx h => ?_, fun k w h => (source k w (.inr h)).symm, fun k y hy => ?_⟩
    · rcases h with h | h | h
      · exact .inr (.inl h)
      · exact .inl h
      · exact .inr (.inr h.symm)
    · rw [caller, hx, hy, Lww.bothWays_some_none (above_default.mpr h)]
    · rw [caller, hx, hy,
        Lww.bothWays_some_none_of_blocked (above_eq_false h) (above_eq_false h)]
    · rw [caller, hy]
      exact Lww.exists_bothWays_snd _ y

end

/-! ## Decisions -/

/-- What a device does with a knock. -/
inductive KnockDecision where
  | nothing
  | accept
  | reject
  | withdraw (knockerPeerId : String)
  deriving DecidableEq

/-- The status of the knock afterwards. -/
def KnockDecision.status : KnockDecision → KnockStatus
  | nothing => .pending
  | accept => .accepted
  | reject => .rejected
  | withdraw _ => .withdrawn

/-- The stamp of the knock afterwards. -/
def KnockDecision.stamp (d : KnockDecision) (p : Porch) (r : ChannelKnockRow) : Stamp :=
  if d = nothing then r.stamp else toLex (p.nextLamport, p.deviceId)

/-- The register of a knock. -/
def knockKey (r : ChannelKnockRow) : RowKey := ⟨.channelKnocks, r.cols.id⟩

/-- The register of the access its peer is granted. -/
def accessKey (r : ChannelKnockRow) : RowKey :=
  ⟨.channelAcl, (r.cols.channelId, r.cols.knockerPeerId)⟩

namespace Porch

/-- Carry out a decision. -/
def decideKnock (p : Porch) (knockId : String) (now : Int64) : KnockDecision →
    Except PorchError Porch
  | .nothing => .ok p
  | .accept => (p.acceptKnock knockId now).map Outcome.porch
  | .reject => (p.rejectKnock knockId now).map Outcome.porch
  | .withdraw knockerPeerId => (p.withdrawKnock knockId knockerPeerId now).map Outcome.porch

/-- The stamp of the access an accept grants. -/
def grantStamp (p : Porch) : Stamp := toLex (p.nextLamport + 1, p.deviceId)

/-- The porch has no access row of the pair, or one that a stamped write revoked. -/
def AccessRevoked (p : Porch) (r : ChannelKnockRow) : Prop :=
  ∀ x, p.tables.view (accessKey r) = some x → x.row.syncTombstone ≠ 0 ∧ 0 < x.lamport

/-- The porch shows the status, and its peer as a member exactly where that is an acceptance. -/
def ShowsKnock (p : Porch) (r : ChannelKnockRow) (status : KnockStatus) : Prop :=
  (p.lookupKnockById r.cols.id).map Knock.status = some status ∧
    (p.lookupAcl r.cols.channelId r.cols.knockerPeerId = some .member ↔ status = .accepted)

/-- Both porches show one status. -/
def AgreeOnKnock (p q : Porch) (r : ChannelKnockRow) : Prop :=
  ∃ status, p.ShowsKnock r status ∧ q.ShowsKnock r status

/-- The accept of the first device prevails with both of its rows, or with neither. -/
def AcceptCoheres (p q : Porch) (r : ChannelKnockRow) (d' : KnockDecision) : Prop :=
  (d'.stamp q r < KnockDecision.accept.stamp p r ∧ p.nextLamport < Int64.maxValue ∧
    ∀ x, q.tables.view (accessKey r) = some x → x.stamp < p.grantStamp) ∨
  (KnockDecision.accept.stamp p r < d'.stamp q r ∧
    ∃ x, q.tables.view (accessKey r) = some x ∧ p.grantStamp < x.stamp)

/-- Different decisions are stamped apart, and an accept that only one device makes prevails with
both of its rows or with neither. -/
structure DecisionsCohere (p q : Porch) (r : ChannelKnockRow) (d d' : KnockDecision) : Prop where
  apart : d.status ≠ d'.status → d.stamp p r ≠ d'.stamp q r
  first : d = .accept → d' ≠ .accept → p.AcceptCoheres q r d'
  second : d' = .accept → d ≠ .accept → q.AcceptCoheres p r d

/-- What a decision leaves of a pending knock. -/
structure Decided (p : Porch) (r : ChannelKnockRow) (d : KnockDecision) (p' : Porch) : Prop where
  knock : ∃ row : ChannelKnockRow, p'.tables.view (knockKey r) = some ⟨.channelKnocks, row⟩ ∧
    row.cols.toKnock.status = d.status ∧ row.stamp = d.stamp p r ∧ (d = .nothing → row = r) ∧
    (d ≠ .nothing → 0 < row.syncLamport)
  untouched : d ≠ .accept → p'.tables.view (accessKey r) = p.tables.view (accessKey r)
  granted : d = .accept → ∃ g : ChannelAclRow,
    p'.tables.view (accessKey r) = some ⟨.channelAcl, g⟩ ∧ g.stamp = p.grantStamp ∧
      g.syncTombstone = 0 ∧ g.cols.role = AclRole.member.asStr

variable {p p' q : Porch} {r : ChannelKnockRow} {d d' : KnockDecision} {now : Int64}

theorem zero_lt_nextLamport (p : Porch) : 0 < p.nextLamport :=
  Int64.lt_saturatingAdd_one_iff_le.mpr ⟨SyncedTables.zero_le_observedMax, by decide⟩

/-- A rejection and a withdrawal write the knock alone. -/
theorem decided_of_resolveKnock {mayResolve : Knock → Bool} {out : Outcome Knock}
    (held : p.db.find? .channelKnocks r.cols.id = some r)
    (h : p.resolveKnock r.cols.id mayResolve d.status now = .ok out) (acts : d ≠ .nothing)
    (refuses : d ≠ .accept) : Decided p r d out.porch := by
  unfold resolveKnock at h
  split at h
  · cases h
  rename_i row knock hk
  obtain ⟨db, hdb, rfl⟩ := finish_eq_ok h
  cases held.symm.trans (pendingKnock_eq_ok hk).1
  have puts := puts_of_updateKnock hdb held
  refine ⟨⟨p.resolveSet d.status now r, ?_, ?_, ?_, fun h => absurd h acts, fun _ => ?_⟩,
    fun _ => ?_, fun h => absurd h refuses⟩
  · rw [puts.view_eq]
    exact Function.update_self ..
  · show (KnockStatus.fromStr d.status.asStr).getD .pending = d.status
    rw [KnockStatus.fromStr_asStr]
    rfl
  · rw [KnockDecision.stamp, if_neg acts]
    rfl
  · exact p.zero_lt_nextLamport
  · rw [puts.view_eq]
    exact Function.update_of_ne (fun h => by cases congrArg RowKey.table h) ..

/-- An accept writes the knock and the access. -/
theorem decided_of_acceptKnock {out : Outcome Knock}
    (held : p.db.find? .channelKnocks r.cols.id = some r)
    (h : p.acceptKnock r.cols.id now = .ok out) : Decided p r .accept out.porch := by
  obtain ⟨row, db, hf, hknock, hgrant, -, -⟩ := acceptKnock_eq_ok h
  cases held.symm.trans hf
  refine ⟨⟨p.resolveSet .accepted now r, ?_, ?_, rfl, fun h => (by cases h), fun _ => ?_⟩,
    fun h => absurd rfl h, fun _ => ⟨p.acceptGrant r.cols.toKnock now, ?_, rfl, rfl, rfl⟩⟩
  · rw [hgrant.view_eq, Function.update_of_ne (fun h => by cases congrArg RowKey.table h),
      hknock.view_eq]
    exact Function.update_self ..
  · show (KnockStatus.fromStr KnockStatus.accepted.asStr).getD .pending = .accepted
    rw [KnockStatus.fromStr_asStr]
    rfl
  · exact p.zero_lt_nextLamport
  · rw [hgrant.view_eq]
    exact Function.update_self ..

theorem decided_of_decideKnock (held : p.db.find? .channelKnocks r.cols.id = some r)
    (pending : r.cols.toKnock.status = .pending) (h : p.decideKnock r.cols.id now d = .ok p') :
    Decided p r d p' := by
  have inner : ∀ {e : Except PorchError (Outcome Knock)}, e.map Outcome.porch = .ok p' →
      ∃ out, e = .ok out ∧ out.porch = p' := by
    intro e he
    cases e with
    | error _ => cases he
    | ok out => exact ⟨out, rfl, Except.ok.inj he⟩
  cases d with
  | nothing =>
    cases h
    refine ⟨⟨r, ?_, pending, rfl, fun _ => rfl, fun h => absurd rfl h⟩, fun _ => rfl,
      fun h => by cases h⟩
    exact congrArg (Option.map (SyncedRow.mk .channelKnocks)) held
  | accept =>
    obtain ⟨out, hout, rfl⟩ := inner h
    exact decided_of_acceptKnock held hout
  | reject =>
    obtain ⟨out, hout, rfl⟩ := inner h
    exact decided_of_resolveKnock held hout (by simp) (by simp)
  | withdraw knockerPeerId =>
    obtain ⟨out, hout, rfl⟩ := inner h
    exact decided_of_resolveKnock held hout (by simp) (by simp)

/-! ## What both devices end with -/

/-- A knock found in its register has the status of the row there. -/
theorem status_of_view {row : ChannelKnockRow}
    (h : p.tables.view (knockKey r) = some ⟨.channelKnocks, row⟩) :
    (p.lookupKnockById r.cols.id).map Knock.status = some row.cols.toKnock.status := by
  obtain ⟨found, hfound, heq⟩ := Option.map_eq_some_iff.mp h
  cases heq
  have hrow : p.db.find? .channelKnocks r.cols.id = some row := hfound
  rw [lookupKnockById, hrow]
  rfl

/-- A granted row makes its peer a member. -/
theorem member_of_view {g : ChannelAclRow}
    (h : p.tables.view (accessKey r) = some ⟨.channelAcl, g⟩) (alive : g.syncTombstone = 0)
    (role : g.cols.role = AclRole.member.asStr) :
    p.lookupAcl r.cols.channelId r.cols.knockerPeerId = some .member := by
  obtain ⟨found, hfound, heq⟩ := Option.map_eq_some_iff.mp h
  cases heq
  refine lookupAcl_eq_some_iff.mpr ⟨g, hfound, alive, ?_⟩
  rw [role, AclRole.fromStr_asStr]

/-- A peer without a row that is alive is no member. -/
theorem not_member_of_view
    (h : ∀ x, p.tables.view (accessKey r) = some x → x.row.syncTombstone ≠ 0) :
    p.lookupAcl r.cols.channelId r.cols.knockerPeerId ≠ some .member := by
  intro hmember
  obtain ⟨row, hfound, alive, -⟩ := lookupAcl_eq_some_iff.mp hmember
  exact h ⟨.channelAcl, row⟩ (congrArg (Option.map (SyncedRow.mk .channelAcl)) hfound) alive

section Merge

variable {A B A' B' A₂ B₂ : Porch} (met : A'.tables.Meets B'.tables A₂.tables)
  (dec : Decided A r d A') (dec' : Decided B r d' B')
include met dec dec'

/-- The status one side ends with: its own unless the other's decision is stamped above. -/
theorem status_of_meets : (A₂.lookupKnockById r.cols.id).map Knock.status =
    some (if d.stamp A r < d'.stamp B r then d'.status else d.status) := by
  obtain ⟨x, hx, hstatus, hstamp, hsame, hpos⟩ := dec.knock
  obtain ⟨y, hy, hstatus', hstamp', hsame', hpos'⟩ := dec'.knock
  have someone : 0 < x.syncLamport ∨ 0 < y.syncLamport ∨
      (⟨.channelKnocks, x⟩ : SyncedRow) = ⟨.channelKnocks, y⟩ := by
    by_cases hd : d = .nothing
    · by_cases hd' : d' = .nothing
      · rw [hsame hd, hsame' hd']
        exact .inr (.inr rfl)
      · exact .inr (.inl (hpos' hd'))
    · exact .inl (hpos hd)
  have ends := met.both _ _ _ hx hy someone
  split
  · rename_i hlt
    have hlt' : stamp ⟨.channelKnocks, x⟩ < stamp ⟨.channelKnocks, y⟩ := by
      show x.stamp < y.stamp
      rw [hstamp, hstamp']
      exact hlt
    rw [Lww.larger_of_lt hlt'] at ends
    rw [status_of_view ends, hstatus']
  · rename_i hge
    have hle : stamp ⟨.channelKnocks, y⟩ ≤ stamp ⟨.channelKnocks, x⟩ := by
      show y.stamp ≤ x.stamp
      rw [hstamp, hstamp']
      exact not_lt.mp hge
    rw [Lww.larger_of_le hle] at ends
    rw [status_of_view ends, hstatus]

/-- Where both accept, the peer is a member. -/
theorem member_of_both (hd : d = .accept) (hd' : d' = .accept) :
    A₂.lookupAcl r.cols.channelId r.cols.knockerPeerId = some .member := by
  obtain ⟨g, hg, -, alive, role⟩ := dec.granted hd
  obtain ⟨g', hg', -, alive', role'⟩ := dec'.granted hd'
  obtain ⟨w, hw⟩ := met.stays _ _ hg
  rcases met.source _ w hw with h | h
  · cases hg.symm.trans h
    exact member_of_view hw alive role
  · cases hg'.symm.trans h
    exact member_of_view hw alive' role'

/-- Where neither accepts, the peer is no member. -/
theorem not_member_of_neither (hd : d ≠ .accept) (hd' : d' ≠ .accept)
    (revoked : A.AccessRevoked r) (revoked' : B.AccessRevoked r) :
    A₂.lookupAcl r.cols.channelId r.cols.knockerPeerId ≠ some .member := by
  refine not_member_of_view fun x hx => ?_
  rcases met.source _ x hx with h | h
  · rw [dec.untouched hd] at h
    exact (revoked x h).1
  · rw [dec'.untouched hd'] at h
    exact (revoked' x h).1

/-- The device that accepted ends with a member unless the other's revocation is newer. -/
theorem member_of_own_accept (hd : d = .accept) (hd' : d' ≠ .accept)
    (revoked' : B.AccessRevoked r) :
    A₂.lookupAcl r.cols.channelId r.cols.knockerPeerId = some .member ↔
      ¬ ∃ x, B.tables.view (accessKey r) = some x ∧ A.grantStamp < x.stamp := by
  obtain ⟨g, hg, hstamp, alive, role⟩ := dec.granted hd
  cases hother : B.tables.view (accessKey r) with
  | none =>
    obtain ⟨w, hw⟩ := met.stays _ _ hg
    have own : w = ⟨.channelAcl, g⟩ := by
      rcases met.source _ w hw with h | h
      · exact Option.some.inj (h.symm.trans hg)
      · rw [dec'.untouched hd', hother] at h
        cases h
    rw [own] at hw
    refine iff_of_true (member_of_view hw alive role) ?_
    rintro ⟨x, hx, -⟩
    cases hx
  | some x =>
    obtain ⟨dead, positive⟩ := revoked' x hother
    have ends := met.both _ _ _ hg ((dec'.untouched hd').trans hother) (.inr (.inl positive))
    rcases lt_or_ge A.grantStamp x.stamp with hlt | hge
    · rw [Lww.larger_of_lt (show stamp ⟨.channelAcl, g⟩ < x.stamp from hstamp.trans_lt hlt)] at ends
      refine iff_of_false (not_member_of_view fun w hw => ?_) (not_not.mpr ⟨x, rfl, hlt⟩)
      cases ends.symm.trans hw
      exact dead
    · have hle : x.stamp ≤ stamp ⟨.channelAcl, g⟩ := hge.trans_eq hstamp.symm
      rw [Lww.larger_of_le hle] at ends
      refine iff_of_true (member_of_view ends alive role) ?_
      rintro ⟨y, hy, hlt⟩
      cases hy
      exact absurd hlt (not_lt.mpr hge)

/-- The other device ends with a member exactly when the grant reaches it and is newer than its
own revocation. -/
theorem member_of_other_accept (hd : d ≠ .accept) (hd' : d' = .accept)
    (revoked : A.AccessRevoked r) :
    A₂.lookupAcl r.cols.channelId r.cols.knockerPeerId = some .member ↔
      B.nextLamport < Int64.maxValue ∧
        ∀ x, A.tables.view (accessKey r) = some x → x.stamp < B.grantStamp := by
  obtain ⟨g, hg, hstamp, alive, role⟩ := dec'.granted hd'
  have hlamport : g.syncLamport = B.nextLamport + 1 := by
    have heq := hstamp
    unfold Row.stamp grantStamp at heq
    exact congrArg (fun s : Stamp => (ofLex s).1) heq
  cases hown : A.tables.view (accessKey r) with
  | none =>
    have hown' : A'.tables.view (accessKey r) = none := (dec.untouched hd).trans hown
    by_cases room : B.nextLamport < Int64.maxValue
    · have positive : 0 < g.syncLamport := by
        rw [hlamport]
        exact B.zero_lt_nextLamport.trans (Int64.saturatingAdd_one_lt_add_one room)
      have ends := met.gained _ _ hown' hg positive
      refine iff_of_true (member_of_view ends alive role) ⟨room, fun x hx => ?_⟩
      cases hx
    · have top : g.syncLamport = Int64.minValue := by
        rw [hlamport, le_antisymm (Int64.le_maxValue _) (not_lt.mp room), Int64.maxValue_add_one]
      have ends := met.blocked _ _ hown' hg top
      refine iff_of_false (not_member_of_view fun w hw => ?_) fun h => room h.1
      rw [ends] at hw
      cases hw
  | some x =>
    obtain ⟨dead, positive⟩ := revoked x hown
    have ends := met.both _ _ _ ((dec.untouched hd).trans hown) hg (.inl positive)
    rcases lt_or_ge x.stamp B.grantStamp with hlt | hge
    · have room : B.nextLamport < Int64.maxValue := by
        by_contra full
        have least : B.nextLamport + 1 = Int64.minValue := by
          rw [le_antisymm (Int64.le_maxValue _) (not_lt.mp full), Int64.maxValue_add_one]
        rcases Prod.Lex.toLex_lt_toLex.mp hlt with h | h
        · exact absurd (least ▸ h) (not_lt.mpr (Int64.minValue_le _))
        · have low : x.lamport = Int64.minValue := h.1.trans least
          rw [low] at positive
          exact absurd positive (by decide)
      have below : x.stamp < stamp ⟨.channelAcl, g⟩ := hlt.trans_eq hstamp.symm
      rw [Lww.larger_of_lt below] at ends
      refine iff_of_true (member_of_view ends alive role) ⟨room, fun y hy => ?_⟩
      cases hy
      exact hlt
    · rw [Lww.larger_of_le (show stamp ⟨.channelAcl, g⟩ ≤ x.stamp from hstamp.trans_le hge)] at ends
      refine iff_of_false (not_member_of_view fun w hw => ?_) fun h => ?_
      · cases ends.symm.trans hw
        exact dead
      · exact absurd (h.2 x rfl) (not_lt.mpr hge)

end Merge

theorem AgreeOnKnock.symm (h : p.AgreeOnKnock q r) : q.AgreeOnKnock p r := by
  obtain ⟨status, hp, hq⟩ := h
  exact ⟨status, hq, hp⟩

theorem DecisionsCohere.symm (h : DecisionsCohere p q r d d') : DecisionsCohere q p r d' d where
  apart hne := (h.apart hne.symm).symm
  first := h.second
  second := h.first

theorem status_eq_accepted_iff : d.status = .accepted ↔ d = .accept := by
  cases d <;> simp [KnockDecision.status]

section Merge

variable {A B A' B' A₂ B₂ : Porch} (met : A'.tables.Meets B'.tables A₂.tables)
  (met' : B'.tables.Meets A'.tables B₂.tables) (dec : Decided A r d A') (dec' : Decided B r d' B')
include met met' dec dec'

/-- Agreement in terms of the stamps and of who ends with a member. -/
theorem agreeOnKnock_iff_status : A₂.AgreeOnKnock B₂ r ↔
    ∃ status, (if d.stamp A r < d'.stamp B r then d'.status else d.status) = status ∧
      (if d'.stamp B r < d.stamp A r then d.status else d'.status) = status ∧
      (A₂.lookupAcl r.cols.channelId r.cols.knockerPeerId = some .member ↔ status = .accepted) ∧
      (B₂.lookupAcl r.cols.channelId r.cols.knockerPeerId = some .member ↔ status = .accepted) := by
  refine exists_congr fun status => ?_
  rw [ShowsKnock, ShowsKnock, status_of_meets met dec dec', status_of_meets met' dec' dec,
    Option.some.injEq, Option.some.injEq]
  tauto

/-- Where one device accepts and the other does not. -/
theorem agreeOnKnock_iff_of_accept (hd : d = .accept) (hd' : d' ≠ .accept)
    (revoked' : B.AccessRevoked r) : A₂.AgreeOnKnock B₂ r ↔ DecisionsCohere A B r d d' := by
  have differ : d.status ≠ d'.status := by
    rw [status_eq_accepted_iff.mpr hd]
    exact fun h => hd' (status_eq_accepted_iff.mp h.symm)
  have refused : d'.status ≠ .accepted := fun h => hd' (status_eq_accepted_iff.mp h)
  rw [agreeOnKnock_iff_status met met' dec dec', member_of_own_accept met dec dec' hd hd' revoked',
    member_of_other_accept met' dec' dec hd' hd revoked']
  have coheres : DecisionsCohere A B r d d' ↔ A.AcceptCoheres B r d' := by
    refine ⟨fun h => h.first hd hd', fun h =>
      ⟨fun _ heq => ?_, fun _ _ => h, fun h => absurd h hd'⟩⟩
    subst hd
    rcases h with h | h
    · exact absurd (heq ▸ h.1) (lt_irrefl _)
    · exact absurd (heq ▸ h.1) (lt_irrefl _)
  rw [coheres, AcceptCoheres, ← hd]
  rcases lt_trichotomy (d.stamp A r) (d'.stamp B r) with hlt | heq | hgt
  · -- the knock ends as the other device has it, so the grant has to lose everywhere
    simp only [not_lt.mpr hlt.le, hlt, if_true, if_false, false_and, true_and, false_or]
    constructor
    · rintro ⟨status, rfl, -, hown, -⟩
      by_contra hnewer
      exact refused (hown.mp hnewer)
    · rintro ⟨x, hx, hnewer⟩
      refine ⟨_, rfl, rfl, iff_of_false (not_not.mpr ⟨x, hx, hnewer⟩) refused,
        iff_of_false (fun h => ?_) refused⟩
      exact absurd (h.2 x hx) (not_lt.mpr hnewer.le)
  · simp only [heq, lt_irrefl, if_false, false_and, or_self, iff_false]
    rintro ⟨status, rfl, hsame, -⟩
    exact differ hsame.symm
  · -- the knock ends accepted, so the grant has to win everywhere
    simp only [not_lt.mpr hgt.le, hgt, if_true, if_false, false_and, true_and, or_false]
    constructor
    · rintro ⟨status, rfl, -, -, hother⟩
      exact hother.mpr (status_eq_accepted_iff.mpr hd)
    · rintro ⟨room, older⟩
      have accepted := status_eq_accepted_iff.mpr hd
      refine ⟨_, rfl, rfl, iff_of_true ?_ accepted, iff_of_true ⟨room, older⟩ accepted⟩
      rintro ⟨x, hx, hnewer⟩
      exact absurd (older x hx) (not_lt.mpr hnewer.le)

end Merge

section Rounds

variable {A B A' B' : Porch} {a b : String} {nowA nowB now' : Int64} {first second : SyncRound}

/-- **A decided knock and the access agree exactly when the accept prevails as a whole.** Two
devices hold one pending knock and its peer has no access, each decides the knock or leaves it, and
a round in each direction succeeds. Then both show one status, and the peer as a member exactly
where that is an acceptance, if and only if different decisions are stamped apart and an accept that
only one of them made prevails with both of its rows or with neither. -/
theorem agreeOnKnock_iff (held : A.db.find? .channelKnocks r.cols.id = some r)
    (held' : B.db.find? .channelKnocks r.cols.id = some r)
    (pending : r.cols.toKnock.status = .pending) (revoked : A.AccessRevoked r)
    (revoked' : B.AccessRevoked r) (hdecide : A.decideKnock r.cols.id nowA d = .ok A')
    (hdecide' : B.decideKnock r.cols.id nowB d' = .ok B') (hfirst : A'.syncNow a B' b now = first)
    (ok : first.report.error = none)
    (hsecond : first.remote.syncNow b first.caller a now' = second)
    (ok' : second.report.error = none) :
    second.remote.AgreeOnKnock second.caller r ↔ DecisionsCohere A B r d d' := by
  obtain ⟨met, met'⟩ := meets_of_syncNow hfirst ok hsecond ok'
  have dec := decided_of_decideKnock held pending hdecide
  have dec' := decided_of_decideKnock held' pending hdecide'
  by_cases hd : d = .accept
  · by_cases hd' : d' = .accept
    · have accepted := status_eq_accepted_iff.mpr hd
      have accepted' := status_eq_accepted_iff.mpr hd'
      rw [agreeOnKnock_iff_status met met' dec dec']
      refine iff_of_true ⟨.accepted, ?_, ?_, ?_, ?_⟩ ⟨fun hne => ?_, fun _ h => absurd hd' h,
        fun _ h => absurd hd h⟩
      · rw [accepted, accepted', ite_self]
      · rw [accepted, accepted', ite_self]
      · exact iff_of_true (member_of_both met dec dec' hd hd') rfl
      · exact iff_of_true (member_of_both met' dec' dec hd' hd) rfl
      · exact absurd (accepted.trans accepted'.symm) hne
    · exact agreeOnKnock_iff_of_accept met met' dec dec' hd hd' revoked'
  · by_cases hd' : d' = .accept
    · have swapped := agreeOnKnock_iff_of_accept met' met dec' dec hd' hd revoked
      exact ⟨fun h => (swapped.mp h.symm).symm, fun h => (swapped.mpr h.symm).symm⟩
    · have stranger := not_member_of_neither met dec dec' hd hd' revoked revoked'
      have stranger' := not_member_of_neither met' dec' dec hd' hd revoked' revoked
      have refused : d.status ≠ .accepted := fun h => hd (status_eq_accepted_iff.mp h)
      have refused' : d'.status ≠ .accepted := fun h => hd' (status_eq_accepted_iff.mp h)
      rw [agreeOnKnock_iff_status met met' dec dec']
      constructor
      · rintro ⟨status, hown, hother, -⟩
        refine ⟨fun hne heq => ?_, fun h => absurd h hd, fun h => absurd h hd'⟩
        rw [heq, if_neg (lt_irrefl _)] at hown hother
        exact hne (hown.trans hother.symm)
      · intro h
        rcases lt_trichotomy (d.stamp A r) (d'.stamp B r) with hlt | heq | hgt
        · exact ⟨d'.status, if_pos hlt, if_neg (not_lt.mpr hlt.le), iff_of_false stranger refused',
            iff_of_false stranger' refused'⟩
        · have same : d.status = d'.status := by
            by_contra hne
            exact h.apart hne heq
          refine ⟨d.status, if_neg heq.not_lt, ?_, iff_of_false stranger refused,
            iff_of_false stranger' refused⟩
          rw [← same, ite_self]
        · exact ⟨d.status, if_neg (not_lt.mpr hgt.le), if_pos hgt, iff_of_false stranger refused,
            iff_of_false stranger' refused⟩

end Rounds

end Porch

/-- The first device opens a gated channel, a visitor knocks there, and the second device learns of
both. -/
def knockedPair : Network Bool :=
  pairAfter (fun _ => .none)
    [.write false (.insertChannel "inner" "Inner" .inner .allowlist 2),
      .write false (.knock "inner" "visitor" none "knock" 3), .sync false true 4]

/-- The knock both hold. -/
def sharedKnock : ChannelKnockRow :=
  ⟨⟨"knock", "inner", "visitor", none, "pending", 3, none⟩, "device-a", 3, 0⟩

/-- The porch of a device after its decision. -/
def decidedPorch (i : Bool) (d : KnockDecision) : Porch :=
  ((knockedPair.porch i).decideKnock "knock" 5 d).toOption.getD (knockedPair.porch i)

/-- The round from the first device to the second after their decisions. -/
def decidedRound (d d' : KnockDecision) : Porch.SyncRound :=
  (decidedPorch false d).syncNow "peer-a" (decidedPorch true d') "peer-b" 6

/-- The round back. -/
def decidedRoundBack (d d' : KnockDecision) : Porch.SyncRound :=
  (decidedRound d d').remote.syncNow "peer-b" (decidedRound d d').caller "peer-a" 7

private theorem eq_ok_getD {α : Type} {e : Except PorchError α} (h : e.toOption.isSome) (a : α) :
    e = .ok (e.toOption.getD a) := by
  cases e with
  | error _ => cases h
  | ok _ => rfl

set_option maxRecDepth 2000 in
/-- Neither device has an access row of the visitor. -/
private theorem accessRevoked_sharedKnock (i : Bool) :
    (knockedPair.porch i).AccessRevoked sharedKnock := by
  intro x hx
  have none_yet : ∀ i, (knockedPair.porch i).tables.view (accessKey sharedKnock) = none := by
    decide
  rw [none_yet i] at hx
  cases hx

set_option maxRecDepth 2000 in
theorem Porch.agreeOnKnock_iff_accepted :
    (decidedRoundBack .accept .nothing).remote.AgreeOnKnock
        (decidedRoundBack .accept .nothing).caller sharedKnock ↔
      DecisionsCohere (knockedPair.porch false) (knockedPair.porch true) sharedKnock .accept
        .nothing :=
  Porch.agreeOnKnock_iff (by decide) (by decide) (by decide)
    (accessRevoked_sharedKnock false) (accessRevoked_sharedKnock true)
    (eq_ok_getD (by decide) _) (eq_ok_getD (by decide) _) rfl (by decide)
    rfl (by decide)

set_option maxRecDepth 2000 in
/-- One device accepts and the other rejects. Both end with a rejected knock and a member. -/
theorem rejected_member :
    knockedPair.Reachable pairPeer ∧
    (∀ i, (knockedPair.porch i).db.find? .channelKnocks "knock" = some sharedKnock ∧
      (knockedPair.porch i).lookupAcl "inner" "visitor" = none) ∧
    (knockedPair.porch false).decideKnock "knock" 5 .accept = .ok (decidedPorch false .accept) ∧
    (knockedPair.porch true).decideKnock "knock" 5 .reject = .ok (decidedPorch true .reject) ∧
    (decidedRound .accept .reject).report.error = none ∧
    (decidedRoundBack .accept .reject).report.error = none ∧
    (∀ p ∈ [(decidedRoundBack .accept .reject).remote, (decidedRoundBack .accept .reject).caller],
      (p.lookupKnockById "knock").map Knock.status = some .rejected ∧
        p.lookupAcl "inner" "visitor" = some .member) ∧
    ¬ (decidedRoundBack .accept .reject).remote.AgreeOnKnock
      (decidedRoundBack .accept .reject).caller sharedKnock := by
  have ends : ((decidedRoundBack .accept .reject).remote.lookupKnockById "knock").map Knock.status =
        some .rejected ∧
      (decidedRoundBack .accept .reject).remote.lookupAcl "inner" "visitor" = some .member := by
    decide
  have ends' : ((decidedRoundBack .accept .reject).caller.lookupKnockById "knock").map
        Knock.status = some .rejected ∧
      (decidedRoundBack .accept .reject).caller.lookupAcl "inner" "visitor" = some .member := by
    decide
  refine ⟨reachable_pairAfter _ _, by decide, eq_ok_getD (by decide) _,
    eq_ok_getD (by decide) _, by decide, by decide, ?_, ?_⟩
  · intro p hp
    rcases List.mem_pair.mp hp with h | h
    · rw [h]
      exact ends
    · rw [h]
      exact ends'
  · rintro ⟨status, ⟨hstatus, hmember⟩, -⟩
    have rejected : some KnockStatus.rejected = some status := ends.1.symm.trans hstatus
    cases rejected
    cases hmember.mp ends.2

end Concorrd
