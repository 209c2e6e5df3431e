import Concorrd.History.HopChain
import Concorrd.Lib.Page
import Concorrd.Porch.Migrate
import Concorrd.Visitor.Purge

/-!
# The latest messages of a channel

An accepted request is to be answered with the latest messages of the channel. The handler asks the
reader for a page, which the reader fills from the oldest message on, and answers with the end of
that page. `ShowsLatest` says when this is the end of the channel.
-/

namespace Concorrd

/-- The message is shown: it carries no tombstone. -/
def Row.shown {t : SyncedTable} (row : Row t) : Bool := row.syncTombstone = 0

namespace Porch

variable (p : Porch) (channelId : String)

/-- The rows of a channel, oldest first. -/
def channelRows : List ChannelMessageRow :=
  ((p.tables .channelMessages).rows.filter fun row => row.cols.channelId = channelId).insertionSort
    fun a b => messageAge a ≤ messageAge b

/-- The visible messages of a channel, oldest first. -/
def visibleMessages : List ChannelMessage :=
  ((p.channelRows channelId).filter Row.shown).map Row.cols

/-- The row is past the least time there is. -/
def pastLeast (row : ChannelMessageRow) : Bool := Int64.minValue < row.cols.createdAt

/-- The rows of a channel the reader pages through. -/
def pagedRows : List ChannelMessageRow := (p.channelRows channelId).filter pastLeast

/-- The latest messages of a channel. -/
def latestMessages (limit : UInt32) : List ChannelMessage :=
  (p.visibleMessages channelId).rtake (min limit maxHistoryLimit).toNat

/-- No message is asked for, or every visible message is within the page, none of those at its end
is tombstoned, and they are as many as asked for or no visible message is of the least time. -/
def ShowsLatest (limit : UInt32) : Prop :=
  limit = 0 ∨
    (∀ row ∈ (p.pagedRows channelId).drop maxHistoryLimit.toNat, row.shown = false) ∧
    (∀ row ∈ ((p.pagedRows channelId).take maxHistoryLimit.toNat).rtake
      (min limit maxHistoryLimit).toNat, row.shown = true) ∧
    ((min limit maxHistoryLimit).toNat ≤ (p.pagedRows channelId).length ∨
      ∀ row ∈ p.channelRows channelId, row.cols.createdAt = Int64.minValue → row.shown = false)

variable {p channelId}

theorem mem_channelRows {row : ChannelMessageRow} : row ∈ p.channelRows channelId ↔
    row ∈ (p.tables .channelMessages).rows ∧ row.cols.channelId = channelId := by
  rw [channelRows, List.mem_insertionSort, List.mem_filter, decide_eq_true_eq]

theorem pairwise_channelRows :
    (p.channelRows channelId).Pairwise fun a b => messageAge a < messageAge b := by
  have total : Std.Total fun a b : ChannelMessageRow => messageAge a ≤ messageAge b :=
    ⟨fun a b => le_total _ _⟩
  have trans : IsTrans ChannelMessageRow fun a b => messageAge a ≤ messageAge b :=
    ⟨fun a b c => le_trans⟩
  have distinct : (p.channelRows channelId).Pairwise fun a b => messageAge a ≠ messageAge b := by
    refine List.pairwise_map.mp (List.Nodup.map_on (fun r hr s hs age => ?_) ?_)
    · have ids : r.cols.id = s.cols.id := congrArg (fun age : AgeKey => (ofLex age).2) age
      exact KeyedTable.eq_of_key_eq (mem_channelRows.mp hr).1 (mem_channelRows.mp hs).1 ids
    · exact (List.perm_insertionSort _ _).nodup_iff.mpr
        (List.Nodup.filter _ (List.Nodup.of_map _ (p.tables _).nodup))
  exact ((List.pairwise_insertionSort _ _).and distinct).imp fun {a b} h => lt_of_le_of_ne h.1 h.2

theorem nodup_channelRows : (p.channelRows channelId).Nodup :=
  pairwise_channelRows.imp fun {a b} h (same : a = b) => lt_irrefl (messageAge b) (same ▸ h)

theorem channelRows_split : ((p.channelRows channelId).filter fun row => !pastLeast row) ++
    p.pagedRows channelId = p.channelRows channelId := by
  refine Page.filter_not_append_filter (pairwise_channelRows.imp fun {a b} before ha => ?_)
  rcases Prod.Lex.lt_iff.mp before with time | ⟨time, _⟩
  · exact decide_eq_true ((of_decide_eq_true ha).trans time)
  · exact decide_eq_true ((of_decide_eq_true ha).trans_eq time)

theorem pastLeast_eq_false {row : ChannelMessageRow} :
    pastLeast row = false ↔ row.cols.createdAt = Int64.minValue := by
  rw [pastLeast, decide_eq_false_iff_not]
  constructor
  · intro h
    exact le_antisymm (not_lt.mp h) (Int64.minValue_le _)
  · intro h
    rw [h]
    exact lt_irrefl _

/-- The page of the handler. -/
theorem getMessages_history (there : (p.getChannel channelId).isNone = false) :
    p.getMessages channelId none maxHistoryLimit =
      .ok (((p.pagedRows channelId).take maxHistoryLimit.toNat).map Row.cols) := by
  rw [getMessages_eq there, pagedRows, channelRows, KeyedTable.filter_insertionSort,
    List.filter_filter]
  have paged : (p.tables .channelMessages).rows.filter (inPage channelId none) =
      (p.tables .channelMessages).rows.filter fun row =>
        pastLeast row && decide (row.cols.channelId = channelId) :=
    List.filter_congr fun row _ => by
      rw [inPage, pastLeast, Bool.decide_and, Bool.and_comm, Option.getD_none]
  rw [paged]
  rfl

end Porch

namespace PeerCrypto

variable {PeerId Key : Type} [DecidableEq PeerId] {c : PeerCrypto PeerId Key}

/-- An accepted request is for a channel that is there, and is answered with the end of the page. -/
theorem messages_of_dispatchHistory {p : Porch} {server connection : PeerId}
    {paired : Except String (List String)} {request : HistoryRequest} {r : HistoryResult}
    (h : c.dispatchHistory p server paired connection request = .ok r) :
    r.messages = (((p.pagedRows request.channelId).take maxHistoryLimit.toNat).rtake
      (min request.limit maxHistoryLimit).toNat).map Row.cols := by
  unfold dispatchHistory at h
  split at h
  · cases h
  split at h
  · cases h
  split at h
  · cases h
  rename_i ch found
  have there : (p.getChannel request.channelId).isNone = false := by
    rw [found]
    rfl
  rw [Porch.getMessages_history there] at h
  split at h
  · cases h
  · cases h
  · cases h
    exact Page.rtake_map _ _ _

end PeerCrypto

namespace Porch

variable {p : Porch} {channelId : String}

theorem toNat_min (a b : UInt32) : (min a b).toNat = min a.toNat b.toNat := by
  change (if a ≤ b then a else b).toNat = _
  split
  · rename_i h
    exact (Nat.min_eq_left (UInt32.le_iff_toNat_le.mp h)).symm
  · rename_i h
    exact (Nat.min_eq_right (UInt32.le_iff_toNat_le.mp (UInt32.le_of_lt (UInt32.not_le.mp h)))).symm

/-- The end of the page is the end of the channel exactly under the condition. -/
theorem showsLatest_iff (limit : UInt32) :
    (((p.pagedRows channelId).take maxHistoryLimit.toNat).rtake
        (min limit maxHistoryLimit).toNat).map Row.cols = p.latestMessages channelId limit ↔
      p.ShowsLatest channelId limit := by
  have inTable : ∀ row ∈ p.channelRows channelId, row ∈ (p.tables .channelMessages).rows :=
    fun row hrow => (mem_channelRows.mp hrow).1
  have apart : ∀ r ∈ (p.tables .channelMessages).rows, ∀ s ∈ (p.tables .channelMessages).rows,
      r.cols = s.cols → r = s := fun r hr s hs => rows_apart hr hs
  have paged : ∀ row ∈ p.pagedRows channelId, row ∈ p.channelRows channelId :=
    fun row hrow => List.mem_of_mem_filter hrow
  rw [latestMessages, visibleMessages, Page.rtake_map, KeyedTable.map_inj_of_subset apart
    (fun row hrow => inTable row (paged row (List.mem_of_mem_take
      ((Page.rtake_suffix _ _).mem hrow))))
    fun row hrow => inTable row (List.mem_of_mem_filter ((Page.rtake_suffix _ _).mem hrow))]
  unfold ShowsLatest
  by_cases hlimit : limit = 0
  · subst hlimit
    have none_asked : (min (0 : UInt32) maxHistoryLimit).toNat = 0 := rfl
    rw [none_asked, List.rtake_zero, List.rtake_zero]
    exact ⟨fun _ => .inl rfl, fun _ => rfl⟩
  · have asked : 0 < (min limit maxHistoryLimit).toNat := by
      have positive : limit.toNat ≠ 0 := fun h => hlimit (UInt32.toNat_inj.mp h)
      rw [toNat_min]
      exact Nat.lt_min.mpr ⟨Nat.pos_of_ne_zero positive, by decide⟩
    have capped : (min limit maxHistoryLimit).toNat ≤ maxHistoryLimit.toNat := by
      rw [toNat_min]
      exact Nat.min_le_right _ _
    have least : (∀ row ∈ (p.channelRows channelId).filter fun row => !pastLeast row,
          row.shown = false) ↔
        ∀ row ∈ p.channelRows channelId, row.cols.createdAt = Int64.minValue →
          row.shown = false := by
      constructor
      · intro h row hrow htime
        exact h row (List.mem_filter.mpr ⟨hrow, by rw [pastLeast_eq_false.mpr htime]; rfl⟩)
      · intro h row hrow
        obtain ⟨hmem, htime⟩ := List.mem_filter.mp hrow
        exact h row hmem (pastLeast_eq_false.mp (by simpa using htime))
    have nodup : (((p.channelRows channelId).filter fun row => !pastLeast row) ++
        p.pagedRows channelId).Nodup := by
      rw [channelRows_split]
      exact nodup_channelRows
    have ends : ((p.pagedRows channelId).take _).rtake _ = List.rtake (List.filter Row.shown _) _ ↔
        _ := Page.rtake_take_eq_rtake_filter_iff nodup asked capped
    rw [channelRows_split, least] at ends
    rw [ends]
    exact ⟨.inr, fun h => h.resolve_left hlimit⟩

end Porch

namespace PeerCrypto

variable {PeerId Key : Type} [DecidableEq PeerId] {c : PeerCrypto PeerId Key}

/-- **The latest messages.** An accepted request is answered with the latest messages of the channel
exactly when the page reaches to the end of the channel. -/
theorem messages_eq_latest_iff {p : Porch} {server connection : PeerId}
    {paired : Except String (List String)} {request : HistoryRequest} {r : HistoryResult}
    (h : c.dispatchHistory p server paired connection request = .ok r) :
    r.messages = p.latestMessages request.channelId request.limit ↔
      p.ShowsLatest request.channelId request.limit := by
  rw [messages_of_dispatchHistory h]
  exact Porch.showsLatest_iff request.limit

end PeerCrypto

/-- A request of peer 1 for so many messages. -/
def requestOf (limit : UInt32) : HistoryRequest := { firstRequest [] with limit := limit }

theorem messages_eq_latest_iff_fresh :
    meshCrypto.dispatchHistory plainPorch "host" (.ok ["peer1"]) "peer1" (requestOf 100) =
      .ok ⟨[], 0⟩ ∧
    (([] : List ChannelMessage) = plainPorch.latestMessages "porch-default" 100 ↔
      plainPorch.ShowsLatest "porch-default" 100) := by
  have answered : meshCrypto.dispatchHistory plainPorch "host" (.ok ["peer1"]) "peer1"
      (requestOf 100) = .ok ⟨[], 0⟩ := by decide
  exact ⟨answered, PeerCrypto.messages_eq_latest_iff answered⟩

/-! ## A busy channel -/

private def busyRows : List ChannelMessageRow :=
  (List.range 101).map fun i =>
    { cols := ⟨"m" ++ toString i, "porch-default", "peer1", "hello", Int64.ofNat i⟩
      syncDeviceId := "device-a"
      syncLamport := Int64.ofNat i
      syncTombstone := 0 }

private theorem busyRows_nodup : (busyRows.map Row.key).Nodup := by
  rw [busyRows, List.map_map]
  apply List.Nodup.map _ List.nodup_range
  intro i j same
  have ids : "m" ++ Nat.repr i = "m" ++ Nat.repr j := same
  have digits : Nat.toDigits 10 i = Nat.toDigits 10 j := by
    have chars : "m".toList ++ (Nat.repr i).toList = "m".toList ++ (Nat.repr j).toList := by
      rw [← String.toList_append, ← String.toList_append, ids]
    rw [← Nat.toList_repr, ← Nat.toList_repr]
    exact List.append_cancel_left chars
  rw [← Nat.ofDigitChars_ten_toDigits (n := i), ← Nat.ofDigitChars_ten_toDigits (n := j), digits]

private def busyTables : SyncedTables
  | .channelMessages => ⟨busyRows, busyRows_nodup⟩
  | .porchChannels => plainPorch.tables .porchChannels
  | .channelAcl => plainPorch.tables .channelAcl
  | .channelKnocks => plainPorch.tables .channelKnocks
  | .channelThemes => plainPorch.tables .channelThemes
  | .porchAssets => plainPorch.tables .porchAssets
  | .obsidianChannels => plainPorch.tables .obsidianChannels

private theorem busyTables_checks : busyTables.ChecksHold := by
  intro t ht
  cases t with
  | channelMessages =>
    intro r _
    rfl
  | _ => exact plainPorch.db.checks _ ht

private theorem busyTables_entries : busyTables.EntriesUnique := by
  intro t ht
  cases t with
  | channelMessages =>
    intro r _ s _ entry hentry
    cases hentry
  | _ => exact plainPorch.db.entries _ ht

private theorem busyTables_parents : busyTables.ParentsExist := by
  have channel : (plainPorch.tables .porchChannels).HasKey "porch-default" := by decide
  intro t ht
  cases t with
  | channelMessages =>
    intro r hr parent hparent
    obtain ⟨i, _, rfl⟩ := List.mem_map.mp hr
    cases hparent
    exact channel
  | _ => exact plainPorch.db.parents _ ht

/-- A porch whose channel holds one message more than an answer. -/
def busyPorch : Porch :=
  { plainPorch with
    db :=
      { tables := busyTables
        checks := busyTables_checks
        entries := busyTables_entries
        parents := busyTables_parents } }

/-- The host is asked for the latest of the messages and answers with the one before it. -/
theorem latest_message_skipped :
    (meshCrypto.dispatchHistory busyPorch "host" (.ok ["peer1"]) "peer1" (requestOf 1)).map
        (fun r => r.messages.map ChannelMessageCols.id) = .ok ["m99"] ∧
      (busyPorch.latestMessages "porch-default" 1).map ChannelMessageCols.id = ["m100"] := by
  constructor
  all_goals decide

end Concorrd
