import Concorrd.Porch.Handler

/-!
# A porch without its tombstones

`purge` is the porch with every tombstoned row deleted, and with it what the foreign keys delete:
the rows that hang off a deleted channel. It says what a reader would answer if a tombstone were
the absence of its row. For each reader a theorem says exactly when it does answer so.
-/

namespace Concorrd

/-- The row carries a tombstone. -/
def Row.dead {t : SyncedTable} (row : Row t) : Bool := row.syncTombstone = 1

namespace Porch

variable (p : Porch)

/-- The channel is there and carries a tombstone. -/
def channelDead (channelId : String) : Bool :=
  (p.db.find? .porchChannels channelId).any Row.dead

/-- The row is deleted, by its own tombstone or by that of its channel. -/
def gone {t : SyncedTable} (row : Row t) : Bool :=
  row.dead || (t.parent row.cols).any p.channelDead

/-- A row that is deleted is stored under the key. -/
def buried (t : SyncedTable) (k : t.Key) : Bool := (p.db.find? t k).any p.gone

variable {p} {t : SyncedTable} {k : t.Key} {channelId : String}

theorem gone_channel (row : PorchChannelRow) : p.gone row = row.dead := Bool.or_false _

theorem buried_channel : p.buried .porchChannels channelId = p.channelDead channelId := by
  unfold buried channelDead
  exact congrArg (Option.any · _) (funext gone_channel)

/-- `DELETE FROM t WHERE sync_tombstone = 1` in every table, with `ON DELETE CASCADE`. -/
def purge (p : Porch) : Porch :=
  { p with
    db :=
      { tables := fun t => (p.tables t).deleteWhere p.gone
        checks := fun t ht r hr => p.db.checks t ht r (List.mem_of_mem_filter hr)
        entries := fun t ht r hr s hs =>
          p.db.entries t ht r (List.mem_of_mem_filter hr) s (List.mem_of_mem_filter hs)
        parents := fun t ht r hr channel hc => by
          obtain ⟨hmem, stays⟩ := List.mem_filter.mp hr
          obtain ⟨parent, hparent, hkey⟩ := p.db.parents t ht r hmem channel hc
          refine ⟨parent, List.mem_filter.mpr ⟨hparent, ?_⟩, hkey⟩
          have found : p.db.find? .porchChannels channel = some parent :=
            KeyedTable.find?_eq_some_iff.mpr ⟨hparent, hkey⟩
          rw [gone, show t.parent r.cols = some channel from hc, Option.any_some, channelDead,
            found, Option.any_some] at stays
          rw [gone_channel]
          simp only [Bool.not_or, Bool.and_eq_true] at stays
          exact stays.2 } }

theorem rows_purge : (p.purge.tables t).rows = (p.tables t).rows.filter fun row => !p.gone row :=
  rfl

theorem find?_purge : p.purge.db.find? t k = (p.db.find? t k).filter fun row => !p.gone row :=
  KeyedTable.find?_deleteWhere

/-- A key reads the same without the tombstones exactly when no deleted row is stored under it. -/
theorem find?_purge_eq (h : p.buried t k = false) : p.purge.db.find? t k = p.db.find? t k := by
  rw [find?_purge]
  unfold buried at h
  cases hf : p.db.find? t k with
  | none => rfl
  | some row =>
    rw [hf, Option.any_some] at h
    rw [Option.filter_some, h]
    rfl

theorem find?_purge_none (h : p.buried t k = true) :
    p.purge.db.find? t k = none ∧ ∃ row, p.db.find? t k = some row ∧ p.gone row = true := by
  rw [find?_purge]
  unfold buried at h
  obtain ⟨row, hrow, gone⟩ := (Option.any_eq_true _ _).mp h
  refine ⟨?_, row, hrow, gone⟩
  rw [hrow, Option.filter_some, gone]
  rfl

/-- What is read of the row under a key. -/
theorem map_find?_purge_iff {α : Type} (f : Row t → α) :
    (p.db.find? t k).map f = (p.purge.db.find? t k).map f ↔ p.buried t k = false := by
  constructor
  · intro same
    refine eq_false_of_ne_true fun h => ?_
    obtain ⟨absent, row, hrow, _⟩ := find?_purge_none h
    rw [absent, hrow] at same
    cases same
  · intro h
    rw [find?_purge_eq h]

/-! ## Readers of one row -/

theorem getChannel_purge_iff : p.getChannel channelId = p.purge.getChannel channelId ↔
    p.buried .porchChannels channelId = false := map_find?_purge_iff _

theorem getTheme_purge_iff : p.getTheme channelId = p.purge.getTheme channelId ↔
    p.buried .channelThemes channelId = false := map_find?_purge_iff _

theorem getThemeSummary_purge_iff :
    p.getThemeSummary channelId = p.purge.getThemeSummary channelId ↔
      p.buried .channelThemes channelId = false := by
  unfold getThemeSummary getTheme
  rw [Option.map_map, Option.map_map]
  exact map_find?_purge_iff _

theorem getAsset_purge_iff {assetId : String} : p.getAsset assetId = p.purge.getAsset assetId ↔
    p.buried .porchAssets assetId = false := map_find?_purge_iff _

/-- A deleted channel is still there, and would not be. -/
theorem getChannel_buried (h : p.buried .porchChannels channelId = true) :
    p.purge.getChannel channelId = none ∧ ∃ ch, p.getChannel channelId = some ch := by
  obtain ⟨absent, row, hrow, _⟩ := find?_purge_none h
  exact ⟨congrArg (Option.map _) absent, row.cols.toChannel, congrArg (Option.map _) hrow⟩

/-- A row that hangs off a channel has that channel. -/
theorem isSome_getChannel_of_parent {row : Row t} (hrow : row ∈ (p.tables t).rows)
    (parent : t.parent row.cols = some channelId) : (p.getChannel channelId).isSome = true := by
  obtain ⟨channel, hchannel, hkey⟩ :=
    p.db.parents t (SyncedTable.mem_all t) row hrow channelId parent
  have there : p.db.find? .porchChannels channelId = some channel :=
    KeyedTable.find?_eq_some_iff.mpr ⟨hchannel, hkey⟩
  rw [getChannel, there]
  rfl

/-- A row of a channel that is not deleted is deleted only by its own tombstone. -/
theorem gone_eq_dead (alive : p.buried .porchChannels channelId = false) {row : Row t}
    (parent : t.parent row.cols = some channelId) : p.gone row = row.dead := by
  rw [buried_channel] at alive
  rw [gone, parent, Option.any_some, alive, Bool.or_false]

/-- The access of a peer to a channel that is not deleted. -/
theorem lookupAcl_purge (alive : p.buried .porchChannels channelId = false) (peerId : String) :
    p.purge.lookupAcl channelId peerId = p.lookupAcl channelId peerId := by
  unfold lookupAcl
  rw [find?_purge]
  cases hf : p.db.find? .channelAcl (channelId, peerId) with
  | none => rfl
  | some row =>
    have key : row.key = (channelId, peerId) := KeyedTable.key_of_find? hf
    have parent : SyncedTable.parent .channelAcl row.cols = some channelId :=
      congrArg (fun k : String × String => some k.1) key
    rw [Option.filter_some, gone_eq_dead alive parent]
    unfold Row.dead
    by_cases hdead : row.syncTombstone = 1
    · simp only [hdead, decide_true, Bool.not_true, Bool.false_eq_true, if_false,
        Option.filter_none,
        Option.filter_some, Option.bind_none]
      rfl
    · simp only [hdead, decide_false, Bool.not_false, if_true]

theorem canVisit_purge {ch : PorchChannel} (alive : p.buried .porchChannels ch.id = false)
    (peerId : String) : p.purge.canVisit peerId ch = p.canVisit peerId ch := by
  unfold canVisit
  rw [lookupAcl_purge alive]

/-! ## A page of messages -/

/-- The message is one of a channel past a time. -/
def inPage (channelId : String) (since : Option Int64) (row : ChannelMessageRow) : Bool :=
  row.cols.channelId = channelId ∧ since.getD Int64.minValue < row.cols.createdAt

/-- The age of a message: its time, then its id. -/
def messageAge (row : ChannelMessageRow) : AgeKey := toLex (row.cols.createdAt, row.cols.id)

/-- Every deleted message of the channel past the time is outside the page: as many messages as the
page holds come before it. -/
def PageClear (p : Porch) (channelId : String) (since : Option Int64) (limit : UInt32) : Prop :=
  ∀ row ∈ (p.tables .channelMessages).rows, inPage channelId since row = true →
    p.gone row = true → (min limit maxMessagesPerQuery).toNat ≤
      (((p.tables .channelMessages).rows.filter (inPage channelId since)).countP
        fun other => messageAge other < messageAge row)

theorem rows_apart {r s : Row t} (hr : r ∈ (p.tables t).rows) (hs : s ∈ (p.tables t).rows)
    (cols : r.cols = s.cols) : r = s :=
  KeyedTable.eq_of_key_eq hr hs (congrArg t.keyOf cols)

/-- A page is a page of rows. -/
theorem getMessages_eq (there : (p.getChannel channelId).isNone = false) (since : Option Int64)
    (limit : UInt32) : p.getMessages channelId since limit =
      .ok (((((p.tables .channelMessages).rows.filter (inPage channelId since)).insertionSort
        fun a b => messageAge a ≤ messageAge b).take
          (min limit maxMessagesPerQuery).toNat).map Row.cols) := by
  have sorted := List.map_insertionSort (fun a b => messageAge a ≤ messageAge b)
    (fun (a b : ChannelMessageCols) =>
      (toLex (a.createdAt, a.id) : AgeKey) ≤ toLex (b.createdAt, b.id)) Row.cols
    ((p.tables .channelMessages).rows.filter (inPage channelId since)) fun a _ b _ => Iff.rfl
  unfold getMessages
  rw [there, List.map_take, sorted]
  rfl

theorem messageAges_nodup {since : Option Int64} :
    (((p.tables .channelMessages).rows.filter (inPage channelId since)).map messageAge).Nodup := by
  refine List.Nodup.map_on ?_ (List.Nodup.filter _ (List.Nodup.of_map _ (p.tables _).nodup))
  intro r hr s hs age
  have ids : r.cols.id = s.cols.id := congrArg (fun age : AgeKey => (ofLex age).2) age
  exact KeyedTable.eq_of_key_eq (List.mem_of_mem_filter hr) (List.mem_of_mem_filter hs) ids

theorem getMessages_purge_iff (p : Porch) (channelId : String) (since : Option Int64)
    (limit : UInt32) :
    p.getMessages channelId since limit = p.purge.getMessages channelId since limit ↔
      p.buried .porchChannels channelId = false ∧ p.PageClear channelId since limit := by
  cases hb : p.buried .porchChannels channelId with
  | true =>
    obtain ⟨absent, ch, there⟩ := getChannel_buried hb
    have found : (p.getChannel channelId).isNone = false := by
      rw [there]
      rfl
    rw [getMessages_eq found]
    unfold getMessages
    rw [absent]
    simp only [Option.isNone_none, if_true, reduceCtorEq, Bool.true_eq_false, false_and]
  | false =>
    have same := getChannel_purge_iff.mpr hb
    cases hn : (p.getChannel channelId).isNone with
    | true =>
      refine ⟨fun _ => ⟨rfl, fun row hrow hin _ => ?_⟩, fun _ => ?_⟩
      · have there := isSome_getChannel_of_parent hrow (congrArg some (of_decide_eq_true hin).1)
        rw [← Option.not_isSome, there] at hn
        cases hn
      · unfold getMessages
        rw [← same, hn]
        rfl
    | false =>
      have hn' : (p.purge.getChannel channelId).isNone = false := same ▸ hn
      have filtered : (p.purge.tables .channelMessages).rows.filter (inPage channelId since) =
          ((p.tables .channelMessages).rows.filter (inPage channelId since)).filter
            fun row => !p.gone row := by
        rw [rows_purge, List.filter_filter, List.filter_filter]
        exact List.filter_congr fun row _ => Bool.and_comm _ _
      rw [getMessages_eq hn, getMessages_eq hn', filtered, Except.ok.injEq,
        ← KeyedTable.filter_insertionSort messageAge fun row => !p.gone row]
      have apart : ∀ r ∈ (p.tables .channelMessages).rows, ∀ s ∈ (p.tables .channelMessages).rows,
          r.cols = s.cols → r = s := fun r hr s hs => rows_apart hr hs
      rw [KeyedTable.map_inj_of_subset apart (fun r hr => ?_) fun r hr => ?_, eq_comm,
        KeyedTable.take_filter_eq_iff]
      · simp only [KeyedTable.mem_take_insertionSort messageAges_nodup, true_and, PageClear]
        constructor
        · intro visible row hrow hin hgone
          by_contra few
          have stays := visible row ⟨List.mem_filter.mpr ⟨hrow, hin⟩, not_le.mp few⟩
          rw [hgone] at stays
          cases stays
        · rintro clear row ⟨hmem, few⟩
          obtain ⟨hrow, hin⟩ := List.mem_filter.mp hmem
          cases hgone : p.gone row with
          | false => rfl
          | true => exact absurd few (not_lt.mpr (clear row hrow hin hgone))
      · exact List.mem_of_mem_filter ((List.mem_insertionSort _).mp (List.mem_of_mem_take hr))
      · exact List.mem_of_mem_filter ((List.mem_insertionSort _).mp
          (List.mem_of_mem_filter (List.mem_of_mem_take hr)))

/-! ## Knocks -/

/-- Rows of knocks that read alike are one row. -/
theorem knock_rows_apart {r s : ChannelKnockRow} (hr : r ∈ (p.tables .channelKnocks).rows)
    (hs : s ∈ (p.tables .channelKnocks).rows) (same : r.cols.toKnock = s.cols.toKnock) : r = s := by
  have ids : r.cols.id = s.cols.id := congrArg Knock.id same
  exact KeyedTable.eq_of_key_eq hr hs ids

theorem mem_pendingKnocks {knock : Knock} : knock ∈ p.pendingKnocks ↔
    ∃ row ∈ (p.tables .channelKnocks).rows, row.cols.status = "pending" ∧
      row.cols.toKnock = knock := by
  unfold pendingKnocks
  rw [List.mem_insertionSort, List.mem_map]
  simp only [List.mem_filter, decide_eq_true_eq, and_assoc]

theorem pendingKnocks_purge_iff : p.pendingKnocks = p.purge.pendingKnocks ↔
    ∀ row ∈ (p.tables .channelKnocks).rows, row.cols.status = "pending" → p.gone row = false := by
  constructor
  · intro same row hrow pending
    have listed : row.cols.toKnock ∈ p.purge.pendingKnocks :=
      same ▸ mem_pendingKnocks.mpr ⟨row, hrow, pending, rfl⟩
    obtain ⟨other, hother, _, read⟩ := mem_pendingKnocks.mp listed
    obtain ⟨hmem, stays⟩ := List.mem_filter.mp hother
    rw [knock_rows_apart hmem hrow read] at stays
    rwa [Bool.not_eq_true'] at stays
  · intro visible
    unfold pendingKnocks
    rw [rows_purge, List.filter_filter]
    congr 2
    refine List.filter_congr fun row hrow => ?_
    by_cases pending : row.cols.status = "pending"
    · simp only [pending, decide_true, visible row hrow pending, Bool.not_false, Bool.and_self]
    · simp only [pending, decide_false, Bool.false_and]

/-- The knocks of a peer on a channel. -/
def knocksOf (p : Porch) (channelId knocker : String) : List ChannelKnockRow :=
  (p.tables .channelKnocks).rows.filter fun row =>
    row.cols.channelId = channelId ∧ row.cols.knockerPeerId = knocker

/-- A pending knock is preferred to the others, and among those the later one. -/
def preference (row : ChannelKnockRow) : Bool ×ₗ AgeKey :=
  toLex (decide (row.cols.status = "pending"), toLex (row.cols.createdAt, row.cols.id))

/-- The knock that is preferred to every other of the peer on the channel. -/
def Chosen (p : Porch) (channelId knocker : String) (row : ChannelKnockRow) : Prop :=
  row ∈ p.knocksOf channelId knocker ∧
    ∀ other ∈ p.knocksOf channelId knocker, preference other ≤ preference row

variable {knocker : String}

theorem mem_knocksOf {row : ChannelKnockRow} : row ∈ p.knocksOf channelId knocker ↔
    row ∈ (p.tables .channelKnocks).rows ∧ row.cols.channelId = channelId ∧
      row.cols.knockerPeerId = knocker := by
  unfold knocksOf
  rw [List.mem_filter, decide_eq_true_eq]

theorem knocksOf_purge : p.purge.knocksOf channelId knocker =
    (p.knocksOf channelId knocker).filter fun row => !p.gone row := by
  unfold knocksOf
  rw [rows_purge, List.filter_filter, List.filter_filter]
  exact List.filter_congr fun row _ => Bool.and_comm _ _

theorem mem_knocksOf_purge {row : ChannelKnockRow} : row ∈ p.purge.knocksOf channelId knocker ↔
    row ∈ p.knocksOf channelId knocker ∧ p.gone row = false := by
  rw [knocksOf_purge, List.mem_filter, Bool.not_eq_true']

theorem eq_of_preference_eq {r s : ChannelKnockRow} (hr : r ∈ p.knocksOf channelId knocker)
    (hs : s ∈ p.knocksOf channelId knocker) (same : preference r = preference s) : r = s := by
  have ids : r.cols.id = s.cols.id :=
    congrArg (fun k : Bool ×ₗ AgeKey => (ofLex (ofLex k).2).2) same
  exact KeyedTable.eq_of_key_eq (mem_knocksOf.mp hr).1 (mem_knocksOf.mp hs).1 ids

/-- A peer has at most one pending knock on a channel, deleted or not. -/
theorem eq_of_pending {r s : ChannelKnockRow} (hr : r ∈ p.knocksOf channelId knocker)
    (hs : s ∈ p.knocksOf channelId knocker) (pending : r.cols.status = "pending")
    (pending' : s.cols.status = "pending") : r = s := by
  have entry : ∀ row ∈ p.knocksOf channelId knocker, row.cols.status = "pending" →
      (channelId, knocker) ∈ SyncedTable.uniqueEntry .channelKnocks row.cols := by
    intro row hrow hpending
    obtain ⟨_, channel, peer⟩ := mem_knocksOf.mp hrow
    simp only [SyncedTable.uniqueEntry, hpending, channel, peer, if_true, Option.mem_def]
  have hr' := (mem_knocksOf.mp hr).1
  have hs' := (mem_knocksOf.mp hs).1
  exact KeyedTable.eq_of_key_eq hr' hs' (p.db.entries .channelKnocks (SyncedTable.mem_all _) r hr' s
    hs' (channelId, knocker) (entry r hr pending) (entry s hs pending'))

/-- `knock_status_for` answers the preferred knock, or that there is none. -/
theorem knockStatusFor_spec (p : Porch) (channelId knocker : String) :
    (∃ row, p.Chosen channelId knocker row ∧
      p.knockStatusFor channelId knocker = some row.cols.toKnock) ∨
    (p.knocksOf channelId knocker = [] ∧ p.knockStatusFor channelId knocker = none) := by
  cases hpending : p.lookupKnockPending channelId knocker with
  | some knock =>
    left
    obtain ⟨row, hrow, rfl⟩ := Option.map_eq_some_iff.mp hpending
    have passes := List.find?_some hrow
    obtain ⟨channel, peer, pending⟩ := of_decide_eq_true passes
    have hmem := mem_knocksOf.mpr ⟨List.mem_of_find?_eq_some hrow, channel, peer⟩
    refine ⟨row, ⟨hmem, fun other hother => ?_⟩, ?_⟩
    · by_cases pending' : other.cols.status = "pending"
      · rw [eq_of_pending hother hmem pending' pending]
      · refine le_of_lt (Prod.Lex.toLex_lt_toLex.mpr (.inl ?_))
        simp only [pending', pending, decide_false, decide_true]
        exact Bool.false_lt_true
    · unfold knockStatusFor
      rw [hpending, Option.some_or]
  | none =>
    have settled : ∀ row ∈ p.knocksOf channelId knocker, row.cols.status ≠ "pending" := by
      intro row hrow pending
      obtain ⟨hin, channel, peer⟩ := mem_knocksOf.mp hrow
      have missed := List.find?_eq_none.mp (Option.map_eq_none_iff.mp hpending) row hin
      exact missed (decide_eq_true ⟨channel, peer, pending⟩)
    have read : p.knockStatusFor channelId knocker = (((p.knocksOf channelId knocker).map
        fun row => row.cols.toKnock).insertionSort fun a b =>
          (toLex (b.createdAt, b.id) : AgeKey) ≤ toLex (a.createdAt, a.id)).head? := by
      unfold knockStatusFor
      rw [hpending, Option.none_or]
      rfl
    cases hread : p.knockStatusFor channelId knocker with
    | none =>
      right
      rw [read, List.head?_eq_none_iff] at hread
      refine ⟨?_, rfl⟩
      exact List.map_eq_nil_iff.mp (KeyedTable.insertionSort_eq_nil.mp hread)
    | some knock =>
      left
      rw [read] at hread
      obtain ⟨hmem, largest⟩ := KeyedTable.head?_insertionSort_desc hread
      obtain ⟨row, hrow, rfl⟩ := List.mem_map.mp hmem
      refine ⟨row, ⟨hrow, fun other hother => ?_⟩, rfl⟩
      refine Prod.Lex.toLex_le_toLex.mpr (.inr ⟨?_, largest _ (List.mem_map_of_mem hother)⟩)
      simp only [settled row hrow, settled other hother, decide_false]

theorem eq_of_chosen {r s : ChannelKnockRow} (hr : p.Chosen channelId knocker r)
    (hs : p.Chosen channelId knocker s) : r = s :=
  eq_of_preference_eq hr.1 hs.1 (le_antisymm (hs.2 r hr.1) (hr.2 s hs.1))

theorem knockStatusFor_of_chosen {row : ChannelKnockRow} (h : p.Chosen channelId knocker row) :
    p.knockStatusFor channelId knocker = some row.cols.toKnock := by
  rcases knockStatusFor_spec p channelId knocker with ⟨other, hother, read⟩ | ⟨none_, _⟩
  · rw [read, eq_of_chosen hother h]
  · exact absurd h.1 (none_ ▸ List.not_mem_nil)

/-- A chosen knock that is not deleted is chosen without the tombstones as well. -/
theorem chosen_purge {row : ChannelKnockRow} (h : p.Chosen channelId knocker row)
    (visible : p.gone row = false) : p.purge.Chosen channelId knocker row :=
  ⟨mem_knocksOf_purge.mpr ⟨h.1, visible⟩, fun other hother =>
    h.2 other (mem_knocksOf_purge.mp hother).1⟩

/-- Every deleted knock of the peer on the channel is less preferred than one that is not. -/
def Outranked (p : Porch) (channelId knocker : String) : Prop :=
  ∀ row ∈ p.knocksOf channelId knocker, p.gone row = true →
    ∃ other ∈ p.knocksOf channelId knocker, p.gone other = false ∧
      preference row < preference other

/-- If the preferred knock is deleted, the preferred one of the others has its status. -/
def StatusKept (p : Porch) (channelId knocker : String) : Prop :=
  ∀ row, p.Chosen channelId knocker row → p.gone row = true →
    ∃ other, p.purge.Chosen channelId knocker other ∧
      other.cols.toKnock.status = row.cols.toKnock.status

theorem knockStatusFor_purge_iff :
    p.knockStatusFor channelId knocker = p.purge.knockStatusFor channelId knocker ↔
      p.Outranked channelId knocker := by
  constructor
  · intro same row hrow hgone
    rcases knockStatusFor_spec p channelId knocker with ⟨best, hbest, read⟩ | ⟨none_, _⟩
    · rcases knockStatusFor_spec p.purge channelId knocker with ⟨left, hleft, read'⟩ | ⟨_, read'⟩
      · obtain ⟨hmem, visible⟩ := mem_knocksOf_purge.mp hleft.1
        rw [read, read'] at same
        have one := knock_rows_apart (mem_knocksOf.mp hbest.1).1 (mem_knocksOf.mp hmem).1
          (Option.some.inj same)
        subst one
        refine ⟨best, hmem, visible, lt_of_le_of_ne (hbest.2 row hrow) fun level => ?_⟩
        rw [eq_of_preference_eq hrow hmem level, visible] at hgone
        cases hgone
      · rw [read, read'] at same
        cases same
    · exact absurd hrow (none_ ▸ List.not_mem_nil)
  · intro outranked
    rcases knockStatusFor_spec p channelId knocker with ⟨best, hbest, read⟩ | ⟨none_, read⟩
    · have visible : p.gone best = false := by
        refine eq_false_of_ne_true fun hgone => ?_
        obtain ⟨other, hother, _, above⟩ := outranked best hbest.1 hgone
        exact (hbest.2 other hother).not_gt above
      rw [read, knockStatusFor_of_chosen (chosen_purge hbest visible)]
    · rcases knockStatusFor_spec p.purge channelId knocker with ⟨left, hleft, _⟩ | ⟨_, read'⟩
      · exact absurd (mem_knocksOf_purge.mp hleft.1).1 (none_ ▸ List.not_mem_nil)
      · rw [read, read']

theorem status_purge_iff : (p.knockStatusFor channelId knocker).map Knock.status =
    (p.purge.knockStatusFor channelId knocker).map Knock.status ↔
      p.StatusKept channelId knocker := by
  constructor
  · intro same row hrow hgone
    rw [knockStatusFor_of_chosen hrow, Option.map_some] at same
    rcases knockStatusFor_spec p.purge channelId knocker with ⟨left, hleft, read⟩ | ⟨_, read⟩
    · rw [read, Option.map_some, Option.some.injEq] at same
      exact ⟨left, hleft, same.symm⟩
    · rw [read] at same
      cases same
  · intro kept
    rcases knockStatusFor_spec p channelId knocker with ⟨best, hbest, read⟩ | ⟨none_, read⟩
    · cases hgone : p.gone best with
      | true =>
        obtain ⟨other, hother, status⟩ := kept best hbest hgone
        rw [read, knockStatusFor_of_chosen hother, Option.map_some, Option.map_some, status]
      | false => rw [read, knockStatusFor_of_chosen (chosen_purge hbest hgone)]
    · rcases knockStatusFor_spec p.purge channelId knocker with ⟨left, hleft, _⟩ | ⟨_, read'⟩
      · exact absurd (mem_knocksOf_purge.mp hleft.1).1 (none_ ▸ List.not_mem_nil)
      · rw [read, read']

/-- The pending knock of the peer on the channel is deleted. -/
def PendingGone (p : Porch) (channelId knocker : String) : Prop :=
  ∃ row ∈ p.knocksOf channelId knocker, row.cols.status = "pending" ∧ p.gone row = true

theorem lookupKnockPending_eq_some {knock : Knock}
    (h : p.lookupKnockPending channelId knocker = some knock) :
    ∃ row ∈ p.knocksOf channelId knocker, row.cols.status = "pending" ∧
      row.cols.toKnock = knock := by
  obtain ⟨row, hrow, rfl⟩ := Option.map_eq_some_iff.mp h
  have passes := List.find?_some hrow
  obtain ⟨channel, peer, pending⟩ := of_decide_eq_true passes
  exact ⟨row, mem_knocksOf.mpr ⟨List.mem_of_find?_eq_some hrow, channel, peer⟩, pending, rfl⟩

theorem lookupKnockPending_purge (h : ¬ p.PendingGone channelId knocker) :
    p.purge.lookupKnockPending channelId knocker = p.lookupKnockPending channelId knocker := by
  unfold lookupKnockPending
  rw [rows_purge, ← List.head?_filter, ← List.head?_filter, List.filter_filter]
  congr 2
  refine List.filter_congr fun row hrow => ?_
  by_cases pending : row.cols.channelId = channelId ∧ row.cols.knockerPeerId = knocker ∧
      row.cols.status = "pending"
  · have visible : p.gone row = false := by
      refine eq_false_of_ne_true fun hgone => h ⟨row, ?_, pending.2.2, hgone⟩
      exact mem_knocksOf.mpr ⟨hrow, pending.1, pending.2.1⟩
    simp only [pending, visible, and_self, decide_true, Bool.not_false, Bool.and_self]
  · simp only [pending, decide_false, Bool.false_and]

end Porch

end Concorrd
