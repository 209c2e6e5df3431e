import Mathlib.Algebra.Ring.Int.Defs
import Concorrd.History.Latest
import Concorrd.Lib.Cursor

/-!
# Reading a channel page by page

A reader asks for the messages of a channel that are later than the last one it got, until a page is
empty. Messages are in order of their time and id, and the cursor is the time alone: a page that ends
between two messages of one time loses the later. `seesAll_iff` says that nothing else is lost but a
message of the least time there is, whatever arrives while the reader reads.
-/

namespace Concorrd

/-- What the reader knows between two calls. -/
structure MessageReader where
  since : Option Int64
  seen : List ChannelMessage
  ended : Bool

/-- One call of the reader. -/
def MessageReader.call (channelId : String) (limit : UInt32) (r : MessageReader) (p : Porch) :
    MessageReader :=
  if r.ended then r
  else
    match p.getMessages channelId r.since limit with
    | .error _ => r
    | .ok page =>
      match page.getLast? with
      | none => { r with ended := true }
      | some last => { since := some last.createdAt, seen := r.seen ++ page, ended := false }

/-- The messages of a channel, oldest first. -/
def Porch.channelMessages (p : Porch) (channelId : String) : List ChannelMessage :=
  (p.channelRows channelId).map Row.cols

/-- The age of a message: its time, then its id. -/
def ChannelMessageCols.age (m : ChannelMessage) : AgeKey := toLex (m.createdAt, m.id)

/-- A message of an earlier time is older. -/
theorem ChannelMessageCols.age_lt (a b : ChannelMessage) (before : a.createdAt < b.createdAt) :
    ChannelMessageCols.age a < ChannelMessageCols.age b := Prod.Lex.lt_iff.mpr (.inl before)

/-- A channel that a reader pages through, and what it holds at each call. Messages arrive, and none of
those that were there at the first call goes. -/
structure ChannelReading where
  channelId : String
  limit : UInt32
  content : Nat → Porch
  asked : 1 ≤ limit
  there : ∀ n, ((content n).getChannel channelId).isSome = true
  kept : ∀ n, (content 0).channelMessages channelId ⊆ (content n).channelMessages channelId

namespace ChannelReading

variable (c : ChannelReading)

/-- The reader after so many calls. -/
def after : Nat → MessageReader
  | 0 => { since := none, seen := [], ended := false }
  | n + 1 => (after n).call c.channelId c.limit (c.content n)

/-- The messages when the reader starts. -/
def start : List ChannelMessage := (c.content 0).channelMessages c.channelId

/-- The messages that a call has still to show. -/
def waiting (n : Nat) : List ChannelMessage :=
  ((c.content n).channelMessages c.channelId).filter fun m =>
    (c.after n).since.getD Int64.minValue < m.createdAt

/-- How many messages a page has room for. -/
def room : Nat := (min c.limit maxMessagesPerQuery).toNat

/-- The reader comes to an empty page, and has seen every message that was there when it started, once
and in order. -/
def SeesAll : Prop :=
  ∃ n, (c.after n).ended = true ∧ (c.after n).seen.filter (· ∈ c.start) = c.start

/-- No message is of the least time there is, and at no call a message that was there when the reader
started waits behind the page for which one of its time has room on the page. -/
structure Unparted : Prop where
  begins : ∀ m ∈ c.start, m.createdAt ≠ Int64.minValue
  pages : ∀ n, (c.after n).ended = false → ∀ m ∈ (c.waiting n).drop c.room, m ∈ c.start →
    ∀ l ∈ (c.waiting n).take c.room, l.createdAt ≠ m.createdAt

end ChannelReading

/-! ## The pages are pages behind a cursor -/

/-- The reader without the first cursor's option. -/
def MessageReader.toCursor (r : MessageReader) : Cursor.Reader ChannelMessage Int64 where
  since := r.since.getD Int64.minValue
  seen := r.seen
  ended := r.ended

namespace Porch

variable {p : Porch} {channelId : String}

theorem pairwise_channelMessages :
    (p.channelMessages channelId).Pairwise fun a b => a.age < b.age :=
  List.pairwise_map.mpr pairwise_channelRows

theorem getMessages_eq_take_newer (there : (p.getChannel channelId).isSome = true)
    (since : Option Int64) (limit : UInt32) : p.getMessages channelId since limit =
      .ok ((Cursor.newer ChannelMessageCols.createdAt (p.channelMessages channelId)
        (since.getD Int64.minValue)).take (min limit maxMessagesPerQuery).toNat) := by
  have found : (p.getChannel channelId).isNone = false := by
    rw [← Option.not_isSome, there]
    rfl
  have paged : (p.tables .channelMessages).rows.filter (inPage channelId since) =
      (p.tables .channelMessages).rows.filter fun row =>
        decide (since.getD Int64.minValue < row.cols.createdAt) &&
          decide (row.cols.channelId = channelId) :=
    List.filter_congr fun row _ => by rw [inPage, Bool.decide_and, Bool.and_comm]
  rw [getMessages_eq found, paged, ← List.filter_filter, ← KeyedTable.filter_insertionSort,
    List.map_take, Cursor.newer, channelMessages, List.filter_map]
  rfl

end Porch

theorem MessageReader.toCursor_call {channelId : String} {p : Porch}
    (there : (p.getChannel channelId).isSome = true) (limit : UInt32) (r : MessageReader) :
    (r.call channelId limit p).toCursor = Cursor.call ChannelMessageCols.createdAt
      (min limit maxMessagesPerQuery).toNat r.toCursor (p.channelMessages channelId) := by
  have since : r.toCursor.since = r.since.getD Int64.minValue := rfl
  have ended : r.toCursor.ended = r.ended := rfl
  rw [call, Cursor.call, Porch.getMessages_eq_take_newer there, since, ended]
  split
  · rfl
  · simp only
    cases ((Cursor.newer ChannelMessageCols.createdAt (p.channelMessages channelId)
      (r.since.getD Int64.minValue)).take (min limit maxMessagesPerQuery).toNat).getLast? with
    | none => rfl
    | some last => rfl

namespace ChannelReading

variable (c : ChannelReading)

/-- The reader of the same messages behind a cursor. -/
def cursor (n : Nat) : Cursor.Reader ChannelMessage Int64 :=
  Cursor.after ChannelMessageCols.createdAt c.room
    (fun n => (c.content n).channelMessages c.channelId) Int64.minValue n

theorem toCursor_after (n : Nat) : (c.after n).toCursor = c.cursor n := by
  induction n with
  | zero => rfl
  | succ n ih =>
    rw [after, MessageReader.toCursor_call (c.there n), ih]
    rfl

theorem room_pos : 0 < c.room := by
  have asked : 1 ≤ c.limit.toNat := UInt32.le_iff_toNat_le.mp c.asked
  rw [room, Porch.toNat_min]
  exact Nat.lt_min.mpr ⟨asked, by decide⟩

/-- A page parts a message from another of its time at a call exactly where one waits behind it. -/
theorem parts_iff (n : Nat) :
    Cursor.Parts ChannelMessageCols.createdAt c.room c.start (c.cursor n)
        ((c.content n).channelMessages c.channelId) ↔
      (c.after n).ended = false ∧ ∃ m ∈ (c.waiting n).drop c.room, m ∈ c.start ∧
        ∃ l ∈ (c.waiting n).take c.room, l.createdAt = m.createdAt := by
  rw [← toCursor_after]
  rfl

/-- The rank of a time. -/
def rank (time : Int64) : Nat := (time.toInt + 2 ^ 63).toNat

theorem rank_lt {a b : Int64} (later : a < b) : rank a < rank b := by
  have ints := Int64.lt_iff_toInt_lt.mp later
  have low := a.le_toInt
  rw [rank, rank]
  omega

theorem rank_le (a : Int64) : rank a ≤ 2 ^ 64 := by
  have high := a.toInt_lt
  rw [rank]
  omega

theorem seesAll_iff_cursor : c.SeesAll ↔
    ∃ n, (c.cursor n).ended = true ∧ (c.cursor n).seen.filter (· ∈ c.start) = c.start := by
  refine exists_congr fun n => ?_
  rw [← toCursor_after]
  rfl

/-- What a reading needs, said of the pages behind a cursor. -/
theorem unparted_iff_cursor : c.Unparted ↔ (∀ m ∈ c.start, Int64.minValue < m.createdAt) ∧
    ∀ n, ¬Cursor.Parts ChannelMessageCols.createdAt c.room c.start (c.cursor n)
      ((c.content n).channelMessages c.channelId) := by
  constructor
  · rintro ⟨begins, pages⟩
    refine ⟨fun m there => lt_of_le_of_ne (Int64.minValue_le _) (begins m there).symm, fun n parts => ?_⟩
    obtain ⟨reading, m, beyond, there, l, shown, same⟩ := (c.parts_iff n).mp parts
    exact pages n reading m beyond there l shown same
  · rintro ⟨begins, pages⟩
    refine ⟨fun m there => (begins m there).ne', fun n reading m beyond there l shown same => ?_⟩
    exact pages n ((c.parts_iff n).mpr ⟨reading, m, beyond, there, l, shown, same⟩)

theorem cursor_iff_unparted :
    (∃ n, (c.cursor n).ended = true ∧ (c.cursor n).seen.filter (· ∈ c.start) = c.start) ↔
      c.Unparted := by
  have ends : ∃ n, (c.cursor n).ended = true :=
    Cursor.exists_ended rank (fun _ _ => rank_lt) (2 ^ 64) rank_le
  exact (Cursor.exists_ended_and_filter_seen_iff ChannelMessageCols.age_lt
    (fun n => (c.content n).pairwise_channelMessages) c.kept
    (c.content 0).pairwise_channelMessages c.room_pos ends).trans c.unparted_iff_cursor.symm

/-- **Paging.** A reader that comes to an empty page has seen all that was there when it started, once
and in order, exactly when no message is of the least time and no page ends between two messages of
one time of which the later was there. -/
theorem seesAll_iff : c.SeesAll ↔ c.Unparted := c.seesAll_iff_cursor.trans c.cursor_iff_unparted

/-- While nothing arrives, the condition is about the messages alone: filled one after the other, no
page ends between two messages of one time. -/
theorem seesAll_iff_of_still (still : ∀ n, c.content n = c.content 0) :
    c.SeesAll ↔ (∀ m ∈ c.start, m.createdAt ≠ Int64.minValue) ∧
      ∀ k, ∀ l ∈ c.start.take (k * c.room), ∀ m ∈ c.start.drop (k * c.room),
        l.createdAt ≠ m.createdAt := by
  have same (n : Nat) : (c.content n).channelMessages c.channelId = c.start := by
    rw [still n]
    rfl
  have cursor (n : Nat) : c.cursor n = Cursor.after ChannelMessageCols.createdAt c.room
      (fun _ => c.start) Int64.minValue n := by
    rw [ChannelReading.cursor]
    simp only [same]
  rw [c.seesAll_iff_cursor, c.cursor_iff_unparted, c.unparted_iff_cursor]
  simp only [same, cursor]
  constructor
  · rintro ⟨begins, pages⟩
    exact ⟨fun m there => (begins m there).ne', (Cursor.parts_still_iff ChannelMessageCols.age_lt
      (c.content 0).pairwise_channelMessages begins c.room_pos).mp pages⟩
  · rintro ⟨begins, apart⟩
    have later (m : ChannelMessage) (there : m ∈ c.start) : Int64.minValue < m.createdAt :=
      lt_of_le_of_ne (Int64.minValue_le _) (begins m there).symm
    exact ⟨later, (Cursor.parts_still_iff ChannelMessageCols.age_lt
      (c.content 0).pairwise_channelMessages later c.room_pos).mpr apart⟩

end ChannelReading

/-! ## Two messages of one time -/

private def twinRows : List ChannelMessageRow :=
  ["m1", "m2"].map fun id =>
    { cols := ⟨id, "porch-default", "peer1", "hello", 1700000000000⟩
      syncDeviceId := "device-a"
      syncLamport := 1
      syncTombstone := 0 }

private def twinTables : SyncedTables
  | .channelMessages => ⟨twinRows, by decide⟩
  | .porchChannels => plainPorch.tables .porchChannels
  | .channelAcl => plainPorch.tables .channelAcl
  | .channelKnocks => plainPorch.tables .channelKnocks
  | .channelThemes => plainPorch.tables .channelThemes
  | .porchAssets => plainPorch.tables .porchAssets
  | .obsidianChannels => plainPorch.tables .obsidianChannels

/-- A porch whose channel holds two messages of one time. -/
def twinPorch : Porch :=
  { plainPorch with
    db :=
      { tables := twinTables
        checks := by decide
        entries := by decide
        parents := by decide } }

/-- The channel is read one message at a time. -/
def twinReading : ChannelReading where
  channelId := "porch-default"
  limit := 1
  content _ := twinPorch
  asked := by decide
  there _ := by decide
  kept _ := fun _ there => there

theorem ChannelReading.seesAll_iff_of_still_twins :
    twinReading.SeesAll ↔ (∀ m ∈ twinReading.start, m.createdAt ≠ Int64.minValue) ∧
      ∀ k, ∀ l ∈ twinReading.start.take (k * twinReading.room),
        ∀ m ∈ twinReading.start.drop (k * twinReading.room), l.createdAt ≠ m.createdAt :=
  twinReading.seesAll_iff_of_still fun _ => rfl

theorem second_twin_lost : ¬twinReading.SeesAll := by
  intro sees
  have unparted := twinReading.cursor_iff_unparted.mp (twinReading.seesAll_iff_cursor.mp sees)
  have waiting : twinReading.waiting 0 = twinRows.map Row.cols := by decide
  have start : twinReading.start = twinRows.map Row.cols := by decide
  have room : twinReading.room = 1 := by decide
  have pages := unparted.pages 0 rfl
  rw [waiting, start, room] at pages
  exact pages ⟨"m2", "porch-default", "peer1", "hello", 1700000000000⟩ (by decide)
    (by decide) ⟨"m1", "porch-default", "peer1", "hello", 1700000000000⟩ (by decide) rfl

end Concorrd
