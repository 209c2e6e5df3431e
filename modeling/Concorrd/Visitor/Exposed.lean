import Concorrd.Porch.Handler

/-!
# What a porch exposes to a visitor

A visitor may learn of every channel that is not owner-only and of the rows hanging off it. Of the
rows hanging off an owner-only channel it may learn of its own knocks, and of nothing else. Two
porches are the same to a visitor when the rows it may learn of are the same. The stamps are not
compared, since no answer carries one.

A reader that asks for exposed rows only reads the same in both.
-/

namespace Concorrd

/-- What a reader sees of a row: its columns, and whether it is dead. -/
structure Seen (t : SyncedTable) where
  cols : t.Cols
  syncTombstone : Int64
  deriving DecidableEq

/-- The row without its stamp. -/
def Row.seen {t : SyncedTable} (row : Row t) : Seen t := ⟨row.cols, row.syncTombstone⟩

/-- The visitor may learn of a row, where `shown` says which channels are not owner-only. -/
def exposes (shown : String → Bool) (visitor : String) : (t : SyncedTable) → t.Cols → Bool
  | .porchChannels => fun cols => cols.toChannel.aclMode ≠ .ownerOnly
  | .channelMessages => fun cols => shown cols.channelId
  | .channelAcl => fun cols => shown cols.channelId
  | .channelKnocks => fun cols => shown cols.channelId || cols.knockerPeerId = visitor
  | .channelThemes => fun cols => shown cols.channelId
  | .porchAssets => fun cols => shown cols.channelId
  | .obsidianChannels => fun cols => shown cols.channelId

namespace Porch

variable (p : Porch) (visitor : String)

/-- A channel that is there and not owner-only. -/
def shows (channelId : String) : Bool :=
  (p.getChannel channelId).any fun ch => ch.aclMode ≠ .ownerOnly

/-- The rows of a table without their stamps. -/
def seen (t : SyncedTable) : List (Seen t) := (p.tables t).rows.map Row.seen

/-- The rows of a table the visitor may learn of. -/
def exposed (t : SyncedTable) : List (Seen t) :=
  (p.seen t).filter fun row => exposes p.shows visitor t row.cols

theorem seen_stampRow (t : SyncedTable) (lamport : Int64) (cols : t.Cols) :
    (p.stampRow t lamport cols).seen = ⟨cols, 0⟩ := rfl

/-- The porches differ in nothing the visitor may learn of. -/
structure SameToVisitor (visitor : String) (p q : Porch) : Prop where
  exposed : ∀ t, p.exposed visitor t = q.exposed visitor t
  fileBacked : p.fileBacked = q.fileBacked

variable {p q : Porch} {visitor : String} {t : SyncedTable} {channelId : String}

/-- The row under a key without its stamp. -/
theorem find?_seen_filter (k : t.Key) (e : t.Cols → Bool) :
    ((p.db.find? t k).map Row.seen).filter (fun row => e row.cols) =
      ((p.seen t).filter fun row => e row.cols).find? fun row => t.keyOf row.cols = k := by
  have byKey := (p.tables t).find?_deleteWhere (p := fun row => !e row.cols) (k := k)
  simp only [Bool.not_not] at byKey
  rw [seen, List.filter_map, List.find?_map, Option.filter_map]
  refine congrArg (Option.map Row.seen) (byKey.symm.trans ?_)
  simp only [KeyedTable.find?, KeyedTable.deleteWhere, Bool.not_not]
  rfl

/-- The rows a visitor may learn of decide which channels are shown. -/
theorem shows_eq_any_find? (visitor channelId : String) : p.shows channelId =
    ((p.exposed visitor .porchChannels).find? fun row => row.cols.id = channelId).isSome := by
  have found := find?_seen_filter (p := p) (t := .porchChannels) channelId
    (exposes p.shows visitor .porchChannels)
  rw [exposed]
  refine Eq.trans ?_ (congrArg Option.isSome found)
  unfold shows getChannel
  cases p.db.find? .porchChannels channelId with
  | none => rfl
  | some row =>
    show decide (row.cols.toChannel.aclMode ≠ .ownerOnly) =
      ((some row.seen).filter fun row => exposes p.shows visitor .porchChannels row.cols).isSome
    rw [Option.filter_some]
    split
    · exact ‹_›
    · exact eq_false_of_ne_true ‹_›

namespace SameToVisitor

theorem shows (h : SameToVisitor visitor p q) : p.shows = q.shows := by
  funext channelId
  rw [shows_eq_any_find? visitor, h.exposed, ← shows_eq_any_find?]

/-- A condition that implies exposure selects the same rows. -/
theorem filter_seen (h : SameToVisitor visitor p q) {e : Seen t → Bool}
    (exposed : ∀ row, e row = true → exposes p.shows visitor t row.cols = true) :
    (p.seen t).filter e = (q.seen t).filter e := by
  have narrow : e = fun row => e row && exposes p.shows visitor t row.cols := by
    funext row
    cases he : e row with
    | false => rfl
    | true => exact (exposed row he).symm
  have rows := h.exposed t
  unfold Porch.exposed at rows
  rw [← h.shows] at rows
  rw [narrow, ← List.filter_filter, ← List.filter_filter, rows]

/-- A key that only exposed rows carry holds the same row. -/
theorem find?_seen (h : SameToVisitor visitor p q) {k : t.Key}
    (exposed : ∀ cols, t.keyOf cols = k → exposes p.shows visitor t cols = true) :
    (p.db.find? t k).map Row.seen = (q.db.find? t k).map Row.seen := by
  have every : ∀ r : Porch, ((r.db.find? t k).map Row.seen).filter (fun row =>
      exposes p.shows visitor t row.cols) = (r.db.find? t k).map Row.seen := by
    intro r
    cases hf : r.db.find? t k with
    | none => rfl
    | some row =>
      rw [Option.map_some, Option.filter_some, if_pos]
      have key : row.key = k := KeyedTable.key_of_find? hf
      exact exposed row.cols key
  rw [← every p, ← every q, find?_seen_filter, find?_seen_filter]
  congr 1
  exact h.filter_seen fun _ he => he

/-- The exposed row under a key is the same. -/
theorem find?_exposed (h : SameToVisitor visitor p q) (k : t.Key) :
    ((p.db.find? t k).map Row.seen).filter (fun row => exposes p.shows visitor t row.cols) =
      ((q.db.find? t k).map Row.seen).filter fun row => exposes p.shows visitor t row.cols := by
  rw [find?_seen_filter, find?_seen_filter]
  congr 1
  exact h.filter_seen fun _ he => he

/-- A condition that implies exposure finds the same row first. -/
theorem find_seen (h : SameToVisitor visitor p q) {e : Seen t → Bool}
    (exposed : ∀ row, e row = true → exposes p.shows visitor t row.cols = true) :
    (p.seen t).find? e = (q.seen t).find? e := by
  rw [← List.head?_filter, ← List.head?_filter, h.filter_seen exposed]

/-- What both porches hold under a key: a row that is exposed and reads the same, or nothing that
is exposed. -/
theorem find?_cases (h : SameToVisitor visitor p q) (k : t.Key) :
    (∃ rp rq, p.db.find? t k = some rp ∧ q.db.find? t k = some rq ∧ rp.cols = rq.cols ∧
      exposes p.shows visitor t rp.cols = true) ∨
    ((∀ row ∈ p.db.find? t k, exposes p.shows visitor t row.cols = false) ∧
      ∀ row ∈ q.db.find? t k, exposes p.shows visitor t row.cols = false) := by
  have same := h.find?_exposed k
  by_cases hp : ∃ row, p.db.find? t k = some row ∧ exposes p.shows visitor t row.cols = true
  · obtain ⟨rp, hp, exposed⟩ := hp
    have exposed' : exposes p.shows visitor t rp.seen.cols = true := exposed
    rw [hp, Option.map_some, Option.filter_some, if_pos exposed'] at same
    obtain ⟨found, _⟩ := Option.filter_eq_some_iff.mp same.symm
    obtain ⟨rq, hq, seen⟩ := Option.map_eq_some_iff.mp found
    exact .inl ⟨rp, rq, hp, hq, (congrArg Seen.cols seen).symm, exposed⟩
  · refine .inr ⟨fun row hrow => ?_, fun row hrow => ?_⟩
    · exact eq_false_of_ne_true fun exposed => hp ⟨row, hrow, exposed⟩
    · refine eq_false_of_ne_true fun exposed => ?_
      have exposed' : exposes p.shows visitor t row.seen.cols = true := exposed
      rw [show q.db.find? t k = some row from hrow, Option.map_some, Option.filter_some,
        if_pos exposed'] at same
      obtain ⟨found, _⟩ := Option.filter_eq_some_iff.mp same
      obtain ⟨rp, hrp, seen⟩ := Option.map_eq_some_iff.mp found
      have cols : rp.cols = row.cols := congrArg Seen.cols seen
      exact hp ⟨rp, hrp, cols ▸ exposed⟩

/-! ## The readers -/

/-- A shown channel reads the same. -/
theorem getChannel (h : SameToVisitor visitor p q) {ch : PorchChannel}
    (found : p.getChannel channelId = some ch) (shown : ch.aclMode ≠ .ownerOnly) :
    q.getChannel channelId = some ch := by
  obtain ⟨row, hrow, rfl⟩ := Option.map_eq_some_iff.mp found
  rcases h.find?_cases (t := .porchChannels) channelId with ⟨rp, rq, hp, hq, cols, _⟩ | ⟨hp, _⟩
  · cases hrow.symm.trans hp
    unfold Porch.getChannel
    rw [hq, Option.map_some, cols]
  · exact absurd (of_decide_eq_false (hp row hrow)) (not_not.mpr shown)

theorem lookupAcl (h : SameToVisitor visitor p q) (shown : p.shows channelId = true)
    (peerId : String) : p.lookupAcl channelId peerId = q.lookupAcl channelId peerId := by
  have row := h.find?_seen (t := .channelAcl) (k := (channelId, peerId)) fun cols hk => by
    cases hk
    exact shown
  have read : ∀ r : Porch, r.lookupAcl channelId peerId =
      (((r.db.find? .channelAcl (channelId, peerId)).map Row.seen).filter fun row =>
        row.syncTombstone = 0).bind fun row => AclRole.fromStr row.cols.role := by
    intro r
    rw [Option.filter_map, Option.bind_map]
    rfl
  rw [read p, read q, row]

theorem canVisit (h : SameToVisitor visitor p q) {ch : PorchChannel}
    (shown : p.shows ch.id = true) (peerId : String) :
    p.canVisit peerId ch = q.canVisit peerId ch := by
  unfold Porch.canVisit
  rw [h.lookupAcl shown]

theorem getMessages (h : SameToVisitor visitor p q) (shown : p.shows channelId = true)
    (since : Option Int64) (limit : UInt32) :
    p.getMessages channelId since limit = q.getMessages channelId since limit := by
  have rows := h.filter_seen (t := .channelMessages)
    (e := fun row => row.cols.channelId = channelId ∧
      since.getD Int64.minValue < row.cols.createdAt) fun row he => by
        have own : row.cols.channelId = channelId := (of_decide_eq_true he).1
        show p.shows row.cols.channelId = true
        rw [own, shown]
  have page := congrArg (List.map Seen.cols) rows
  have there : ∀ r : Porch, r.shows channelId = true → (r.getChannel channelId).isNone = false := by
    intro r hr
    cases hc : r.getChannel channelId with
    | none =>
      rw [Porch.shows, hc] at hr
      cases hr
    | some ch => rfl
  unfold Porch.getMessages
  rw [there p shown, there q (h.shows ▸ shown)]
  simp only [seen, List.filter_map, List.map_map] at page
  congr 3
  exact congrArg (List.insertionSort _) page

theorem getTheme (h : SameToVisitor visitor p q) (shown : p.shows channelId = true) :
    p.getTheme channelId = q.getTheme channelId := by
  have row := h.find?_seen (t := .channelThemes) (k := channelId) fun cols hk => by
    cases hk
    exact shown
  have read := congrArg (Option.map fun row => row.cols.toTheme) row
  rw [Option.map_map, Option.map_map] at read
  exact read

theorem obsidianBinding (h : SameToVisitor visitor p q) (shown : p.shows channelId = true) :
    p.obsidianBinding channelId = q.obsidianBinding channelId := by
  have row := h.find?_seen (t := .obsidianChannels) (k := channelId) fun cols hk => by
    cases hk
    exact shown
  have read := congrArg (Option.map fun row => row.cols.toConfig) row
  rw [Option.map_map, Option.map_map] at read
  have config : p.getObsidianConfig channelId = q.getObsidianConfig channelId := read
  unfold Porch.obsidianBinding
  rw [config]

theorem lookupKnockPending (h : SameToVisitor visitor p q) (channelId : String) :
    p.lookupKnockPending channelId visitor = q.lookupKnockPending channelId visitor := by
  have row := h.find_seen (t := .channelKnocks) (e := fun row => row.cols.channelId = channelId ∧
    row.cols.knockerPeerId = visitor ∧ row.cols.status = "pending") fun row he => by
      have own : row.cols.knockerPeerId = visitor := (of_decide_eq_true he).2.1
      simp only [exposes, own, decide_true, Bool.or_true]
  have read := congrArg (Option.map fun row => row.cols.toKnock) row
  rw [seen, seen, List.find?_map, List.find?_map, Option.map_map, Option.map_map] at read
  exact read

theorem knockStatusFor (h : SameToVisitor visitor p q) (channelId : String) :
    p.knockStatusFor channelId visitor = q.knockStatusFor channelId visitor := by
  have rows := h.filter_seen (t := .channelKnocks) (e := fun row =>
    row.cols.channelId = channelId ∧ row.cols.knockerPeerId = visitor) fun row he => by
      have own : row.cols.knockerPeerId = visitor := (of_decide_eq_true he).2
      simp only [exposes, own, decide_true, Bool.or_true]
  have read := congrArg (List.map fun row => row.cols.toKnock) rows
  rw [seen, seen, List.filter_map, List.filter_map, List.map_map, List.map_map] at read
  unfold Porch.knockStatusFor
  rw [h.lookupKnockPending channelId]
  congr 3

/-- The list of the channels that are not owner-only reads the same. -/
theorem listChannels (h : SameToVisitor visitor p q) :
    p.listChannels.filter (fun ch => ch.aclMode ≠ .ownerOnly) =
      q.listChannels.filter fun ch => ch.aclMode ≠ .ownerOnly := by
  have rows := h.filter_seen (t := .porchChannels) (e := fun row =>
    decide (row.cols.toChannel.aclMode ≠ .ownerOnly) && decide (row.syncTombstone = 0))
      fun row he => (Bool.and_eq_true_iff.mp he).1
  have read := congrArg (List.map fun row => row.cols.toChannel) rows
  rw [seen, seen, List.filter_map, List.filter_map, List.map_map, List.map_map] at read
  unfold Porch.listChannels
  rw [KeyedTable.filter_insertionSort
      (fun ch : PorchChannel => (toLex (ch.createdAt, ch.id) : AgeKey)),
    KeyedTable.filter_insertionSort
      (fun ch : PorchChannel => (toLex (ch.createdAt, ch.id) : AgeKey)),
    List.filter_map, List.filter_map, List.filter_filter, List.filter_filter]
  congr 1

/-! ## Writes that keep porches the same -/

variable {dbp dbq : Database}

theorem shows_of_frame (ht : t ≠ .porchChannels) (frame : ∀ t' ≠ t, dbp.tables t' = p.tables t') :
    Porch.shows { p with db := dbp } = p.shows := by
  have same : dbp.tables .porchChannels = p.tables .porchChannels := frame _ ht.symm
  funext channelId
  unfold Porch.shows Porch.getChannel Database.find?
  rw [same]

/-- A write of one table is kept when the table still exposes the same rows. -/
theorem write (h : SameToVisitor visitor p q) (ht : t ≠ .porchChannels)
    (framep : ∀ t' ≠ t, dbp.tables t' = p.tables t')
    (frameq : ∀ t' ≠ t, dbq.tables t' = q.tables t')
    (rows : ((dbp.tables t).rows.map Row.seen).filter
        (fun row => exposes p.shows visitor t row.cols) =
      ((dbq.tables t).rows.map Row.seen).filter fun row => exposes p.shows visitor t row.cols) :
    SameToVisitor visitor { p with db := dbp } { q with db := dbq } := by
  refine ⟨fun t' => ?_, h.fileBacked⟩
  unfold Porch.exposed
  rw [shows_of_frame ht framep, shows_of_frame ht frameq, ← h.shows]
  by_cases ht' : t' = t
  · subst ht'
    exact rows
  · have same := h.exposed t'
    unfold Porch.exposed at same
    rw [← h.shows] at same
    show ((dbp.tables t').rows.map Row.seen).filter _ = ((dbq.tables t').rows.map Row.seen).filter _
    rw [framep t' ht', frameq t' ht']
    exact same

/-- Both append a row with the same columns. -/
theorem append (h : SameToVisitor visitor p q) (ht : t ≠ .porchChannels) {rp rq : Row t}
    (cols : rp.seen = rq.seen) (rowsp : (dbp.tables t).rows = (p.tables t).rows ++ [rp])
    (framep : ∀ t' ≠ t, dbp.tables t' = p.tables t')
    (rowsq : (dbq.tables t).rows = (q.tables t).rows ++ [rq])
    (frameq : ∀ t' ≠ t, dbq.tables t' = q.tables t') :
    SameToVisitor visitor { p with db := dbp } { q with db := dbq } := by
  refine h.write ht framep frameq ?_
  have old := h.filter_seen (t := t) fun _ he => he
  rw [rowsp, rowsq, List.map_append, List.map_append, List.filter_append, List.filter_append,
    List.map_singleton, List.map_singleton, cols]
  exact congrArg (· ++ _) old

/-- Both assign to their rows alike, and the assignment exposes no other row. -/
theorem assign (h : SameToVisitor visitor p q) (ht : t ≠ .porchChannels) {fp fq : Row t → Row t}
    {f : Seen t → Seen t} (seenp : ∀ row, (fp row).seen = f row.seen)
    (seenq : ∀ row, (fq row).seen = f row.seen)
    (keeps : ∀ row, exposes p.shows visitor t (f row).cols = exposes p.shows visitor t row.cols)
    (rowsp : (dbp.tables t).rows = (p.tables t).rows.map fp)
    (framep : ∀ t' ≠ t, dbp.tables t' = p.tables t')
    (rowsq : (dbq.tables t).rows = (q.tables t).rows.map fq)
    (frameq : ∀ t' ≠ t, dbq.tables t' = q.tables t') :
    SameToVisitor visitor { p with db := dbp } { q with db := dbq } := by
  refine h.write ht framep frameq ?_
  have old := h.filter_seen (t := t) fun _ he => he
  have mapped : ∀ (r : Porch) {g : Row t → Row t}, (∀ row, (g row).seen = f row.seen) →
      ((r.tables t).rows.map g).map Row.seen = (r.seen t).map f := by
    intro r g hg
    rw [seen, List.map_map, List.map_map]
    exact List.map_congr_left fun row _ => hg row
  rw [rowsp, rowsq, mapped p seenp, mapped q seenq, List.filter_map, List.filter_map]
  have same : ((fun row => exposes p.shows visitor t row.cols) ∘ f) =
      fun row => exposes p.shows visitor t row.cols := funext keeps
  rw [same, old]

end SameToVisitor

end Porch

end Concorrd
