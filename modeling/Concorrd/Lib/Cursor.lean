import Mathlib.Data.List.Sort

/-!
# Reading in pages behind a cursor

Items have a time and a finer order by age. A reader asks again and again for the oldest items that
are later than the last one it saw, so many at most, until there are none. Items may arrive between the
calls. What it sees is in order and without repetition; `exists_ended_and_filter_seen_iff` says when it
sees all that was there from the beginning.
-/

namespace Cursor

variable {α τ κ : Type*} [LinearOrder τ] [LinearOrder κ]

/-- What a reader knows: the time it asks from, what it saw, and whether there was nothing more. -/
structure Reader (α τ : Type*) where
  since : τ
  seen : List α
  ended : Bool

variable (time : α → τ) (size : Nat)

/-- The items that are later than a time. -/
def newer (content : List α) (since : τ) : List α := content.filter fun a => since < time a

/-- One call. The last item of a page is the next cursor. -/
def call (r : Reader α τ) (content : List α) : Reader α τ :=
  if r.ended then r
  else
    match ((newer time content r.since).take size).getLast? with
    | none => { r with ended := true }
    | some last =>
      { since := time last, seen := r.seen ++ (newer time content r.since).take size, ended := false }

/-- The reader after so many calls, of which each finds its own content. -/
def after (content : Nat → List α) (since : τ) : Nat → Reader α τ
  | 0 => { since := since, seen := [], ended := false }
  | n + 1 => call time size (after content since n) (content n)

/-- The end of a page parts an item from the items of its time on the page. -/
def Parts (items : List α) (r : Reader α τ) (content : List α) : Prop :=
  r.ended = false ∧ ∃ m ∈ (newer time content r.since).drop size, m ∈ items ∧
    ∃ l ∈ (newer time content r.since).take size, time l = time m

/-- The cursor is past an item that the reader did not see. -/
def Missed (items : List α) (r : Reader α τ) : Prop := ∃ m ∈ items, time m ≤ r.since ∧ m ∉ r.seen

/-- What was seen is in order and not past the cursor. -/
structure Ordered (age : α → κ) (r : Reader α τ) : Prop where
  sorted : r.seen.Pairwise fun a b => age a < age b
  behind : ∀ a ∈ r.seen, time a ≤ r.since

variable {time size} {age : α → κ} {items content : List α} {r : Reader α τ}

theorem mem_newer {since : τ} {a : α} : a ∈ newer time content since ↔ a ∈ content ∧ since < time a := by
  rw [newer, List.mem_filter, decide_eq_true_eq]

variable (time size) in
/-- What a call does. -/
theorem call_cases (r : Reader α τ) (content : List α) :
    (r.ended = true ∧ call time size r content = r) ∨
    (r.ended = false ∧ (newer time content r.since).take size = [] ∧
      call time size r content = { r with ended := true }) ∨
    (r.ended = false ∧ ∃ page last, (newer time content r.since).take size = page ++ [last] ∧
      call time size r content =
        { since := time last, seen := r.seen ++ (page ++ [last]), ended := false }) := by
  unfold call
  cases ended : r.ended with
  | true => exact .inl ⟨rfl, rfl⟩
  | false =>
    cases paged : ((newer time content r.since).take size).getLast? with
    | none => exact .inr (.inl ⟨rfl, List.getLast?_eq_none_iff.mp paged, rfl⟩)
    | some last =>
      obtain ⟨page, same⟩ := List.getLast?_eq_some_iff.mp paged
      refine .inr (.inr ⟨rfl, page, last, same, ?_⟩)
      rw [same]
      rfl

/-! ## One call -/

section Sorted

variable (earlier : ∀ a b, time a < time b → age a < age b)

include earlier

/-- No item of a page is later than its last. -/
theorem time_le_last {page : List α} {last a : α}
    (sorted : (page ++ [last]).Pairwise fun a b => age a < age b) (mem : a ∈ page ++ [last]) :
    time a ≤ time last := by
  rcases List.mem_append.mp mem with mem | mem
  · have before := (List.pairwise_append.mp sorted).2.2 a mem last (List.mem_singleton_self last)
    exact not_lt.mp fun later => before.not_gt (earlier last a later)
  · rw [List.mem_singleton.mp mem]

/-- A call keeps what was seen in order. -/
theorem Ordered.call (ordered : Ordered time age r)
    (sorted : content.Pairwise fun a b => age a < age b) :
    Ordered time age (call time size r content) := by
  rcases call_cases time size r content with
    ⟨-, same⟩ | ⟨-, -, same⟩ | ⟨-, page, last, paged, same⟩
  · rwa [same]
  · rw [same]
    exact ⟨ordered.sorted, ordered.behind⟩
  · have pageSorted : (page ++ [last]).Pairwise fun a b => age a < age b := by
      rw [← paged]
      exact (sorted.filter _).sublist (List.take_sublist _ _)
    have ahead : ∀ a ∈ page ++ [last], r.since < time a := by
      intro a mem
      rw [← paged] at mem
      exact (mem_newer.mp (List.mem_of_mem_take mem)).2
    rw [same]
    constructor
    · refine List.pairwise_append.mpr ⟨ordered.sorted, pageSorted, fun a seen b mem => ?_⟩
      exact earlier a b ((ordered.behind a seen).trans_lt (ahead b mem))
    · intro a mem
      rcases List.mem_append.mp mem with seen | mem
      · exact (ordered.behind a seen).trans (ahead last (by simp)).le
      · exact time_le_last earlier pageSorted mem

/-- A call misses an item exactly when its page parts the item from another of its time. -/
theorem missed_call_iff (ordered : Ordered time age r)
    (sorted : content.Pairwise fun a b => age a < age b) (present : items ⊆ content) :
    Missed time items (Cursor.call time size r content) ↔
      Missed time items r ∨ Parts time size items r content := by
  rcases call_cases time size r content with
    ⟨ended, same⟩ | ⟨-, empty, same⟩ | ⟨reading, page, last, paged, same⟩
  · rw [same]
    refine (or_iff_left fun parts => ?_).symm
    exact absurd ended (by rw [parts.1]; exact Bool.false_ne_true)
  · rw [same]
    refine (or_iff_left fun parts => ?_).symm
    obtain ⟨-, m, -, -, l, mem, -⟩ := parts
    rw [empty] at mem
    cases mem
  · have newSorted : (newer time content r.since).Pairwise fun a b => age a < age b :=
      sorted.filter _
    have pageSorted : (page ++ [last]).Pairwise fun a b => age a < age b := by
      rw [← paged]
      exact newSorted.sublist (List.take_sublist _ _)
    have parted := newSorted
    rw [← List.take_append_drop size (newer time content r.since), paged] at parted
    obtain ⟨-, -, across⟩ := List.pairwise_append.mp parted
    have onPage : last ∈ page ++ [last] := by simp
    have ahead : ∀ a ∈ page ++ [last], r.since < time a := by
      intro a mem
      rw [← paged] at mem
      exact (mem_newer.mp (List.mem_of_mem_take mem)).2
    rw [same]
    constructor
    · rintro ⟨m, item, passed, unseen⟩
      obtain ⟨unseen, offPage⟩ := not_or.mp (fun mem => unseen (List.mem_append.mpr mem))
      by_cases before : time m ≤ r.since
      · exact .inl ⟨m, item, before, unseen⟩
      · have new : m ∈ newer time content r.since := mem_newer.mpr ⟨present item, not_le.mp before⟩
        rw [← List.take_append_drop size (newer time content r.since), paged] at new
        have beyond := (List.mem_append.mp new).resolve_left offPage
        refine .inr ⟨reading, m, beyond, item, last, by rw [paged]; exact onPage, le_antisymm ?_ passed⟩
        exact not_lt.mp fun later => (across last onPage m beyond).not_gt (earlier m last later)
    · rintro (⟨m, item, passed, unseen⟩ | ⟨-, m, beyond, item, l, mem, at_once⟩)
      · refine ⟨m, item, passed.trans (ahead last onPage).le, fun mem => ?_⟩
        rcases List.mem_append.mp mem with seen | mem
        · exact unseen seen
        · exact passed.not_gt (ahead m mem)
      · rw [paged] at mem
        have passed : time m ≤ time last := at_once ▸ time_le_last earlier pageSorted mem
        refine ⟨m, item, passed, fun mem => ?_⟩
        rcases List.mem_append.mp mem with seen | mem
        · exact (ordered.behind m seen).not_gt (mem_newer.mp (List.mem_of_mem_drop beyond)).2
        · exact lt_irrefl _ (across m mem m beyond)

end Sorted

/-! ## A reading -/

section Reading

variable {contents : Nat → List α} {since : τ} (earlier : ∀ a b, time a < time b → age a < age b)
  (sorted : ∀ n, (contents n).Pairwise fun a b => age a < age b) (present : ∀ n, items ⊆ contents n)

include earlier sorted

theorem ordered_after (n : Nat) : Ordered time age (after time size contents since n) := by
  induction n with
  | zero => exact ⟨List.Pairwise.nil, fun a mem => by cases mem⟩
  | succ n ih => exact ih.call earlier (sorted n)

include present

/-- An item is missed where the reading begins past it, or at a page that parts it from another. -/
theorem missed_after_iff (n : Nat) : Missed time items (after time size contents since n) ↔
    (∃ m ∈ items, time m ≤ since) ∨
      ∃ i < n, Parts time size items (after time size contents since i) (contents i) := by
  induction n with
  | zero =>
    constructor
    · rintro ⟨m, item, passed, -⟩
      exact .inl ⟨m, item, passed⟩
    · rintro (⟨m, item, passed⟩ | ⟨i, impossible, -⟩)
      · exact ⟨m, item, passed, List.not_mem_nil⟩
      · exact absurd impossible (Nat.not_lt_zero i)
  | succ n ih =>
    rw [after, missed_call_iff earlier (ordered_after earlier sorted n) (sorted n) (present n), ih,
      or_assoc]
    refine or_congr_right ?_
    constructor
    · rintro (⟨i, before, parts⟩ | parts)
      · exact ⟨i, Nat.lt_succ_of_lt before, parts⟩
      · exact ⟨n, Nat.lt_succ_self n, parts⟩
    · rintro ⟨i, before, parts⟩
      rcases Nat.lt_succ_iff_lt_or_eq.mp before with before | rfl
      · exact .inl ⟨i, before, parts⟩
      · exact .inr parts

omit earlier sorted in
/-- Where there was nothing more, the cursor is past every item. -/
theorem behind_of_ended {n : Nat} (some : 0 < size)
    (ended : (after time size contents since n).ended = true) :
    ∀ m ∈ items, time m ≤ (after time size contents since n).since := by
  induction n with
  | zero => cases ended
  | succ n ih =>
    rw [after] at ended ⊢
    rcases call_cases time size (after time size contents since n) (contents n) with
      ⟨ended', same⟩ | ⟨-, empty, same⟩ | ⟨-, page, last, -, same⟩
    · rw [same]
      exact ih ended'
    · rw [same]
      intro m item
      by_contra later
      have new : m ∈ newer time (contents n) (after time size contents since n).since :=
        mem_newer.mpr ⟨present n item, not_le.mp later⟩
      rcases List.take_eq_nil_iff.mp empty with zero | none
      · omega
      · rw [none] at new
        cases new
    · rw [same] at ended
      cases ended

end Reading

theorem ended_of_le {contents : Nat → List α} {since : τ} {n m : Nat} (le : n ≤ m)
    (ended : (after time size contents since n).ended = true) :
    (after time size contents since m).ended = true := by
  induction le with
  | refl => exact ended
  | step le ih =>
    rw [after, call, ih]
    exact ih

/-- Every page brings the cursor forward, so times that a bounded rank counts let the reading end. -/
theorem exists_ended {contents : Nat → List α} {since : τ} (rank : τ → Nat)
    (rises : ∀ a b, a < b → rank a < rank b) (bound : Nat) (bounded : ∀ a, rank a ≤ bound) :
    ∃ n, (after time size contents since n).ended = true := by
  by_contra never
  have counted : ∀ n, n ≤ rank (after time size contents since n).since := by
    intro n
    induction n with
    | zero => exact Nat.zero_le _
    | succ n ih =>
      have reading : ¬(after time size contents since (n + 1)).ended = true := fun ended => never ⟨_, ended⟩
      rw [after] at reading ⊢
      rcases call_cases time size (after time size contents since n)
        (contents n) with ⟨ended, -⟩ | ⟨-, -, same⟩ | ⟨-, page, last, paged, same⟩
      · exact absurd ⟨n, ended⟩ never
      · rw [same] at reading
        exact absurd rfl reading
      · have new : last ∈ (newer time (contents n) (after time size contents since n).since).take size := by
          rw [paged]
          exact List.mem_append_right page (List.mem_singleton_self last)
        rw [same]
        exact Nat.succ_le_of_lt
          (ih.trans_lt (rises _ _ (mem_newer.mp (List.mem_of_mem_take new)).2))
  have last := (counted (bound + 1)).trans (bounded _)
  omega

/-- **Pages behind a cursor.** A reading ends having seen all that was there from the beginning, once
and in order, exactly when it begins before all of it and no page parts an item from others of its
time. -/
theorem exists_ended_and_filter_seen_iff [DecidableEq α] {contents : Nat → List α} {since : τ}
    (earlier : ∀ a b, time a < time b → age a < age b)
    (sorted : ∀ n, (contents n).Pairwise fun a b => age a < age b)
    (present : ∀ n, items ⊆ contents n) (inOrder : items.Pairwise fun a b => age a < age b)
    (some : 0 < size) (ends : ∃ n, (after time size contents since n).ended = true) :
    (∃ n, (after time size contents since n).ended = true ∧
        (after time size contents since n).seen.filter (· ∈ items) = items) ↔
      (∀ m ∈ items, since < time m) ∧
        ∀ n, ¬Parts time size items (after time size contents since n) (contents n) := by
  have whole (n : Nat) (ended : (after time size contents since n).ended = true) :
      (after time size contents since n).seen.filter (· ∈ items) = items ↔
        ¬Missed time items (after time size contents since n) := by
    have passed : ∀ m ∈ items, time m ≤ (after time size contents since n).since :=
      behind_of_ended present some ended
    have irrefl : Std.Irrefl fun a b : α => age a < age b := ⟨fun a => lt_irrefl _⟩
    have asymm : Std.Antisymm fun a b : α => age a < age b := ⟨fun a b h h' => absurd h' h.not_gt⟩
    constructor
    · rintro same ⟨m, item, -, unseen⟩
      rw [← same] at item
      exact unseen (List.mem_of_mem_filter item)
    · intro none
      refine List.Pairwise.eq_of_mem_iff ((ordered_after earlier sorted n).sorted.filter _) inOrder
        fun m => ?_
      rw [List.mem_filter, decide_eq_true_eq]
      refine ⟨And.right, fun item => ⟨?_, item⟩⟩
      by_contra unseen
      exact none ⟨m, item, passed m item, unseen⟩
  constructor
  · rintro ⟨n, ended, same⟩
    have none := mt (missed_after_iff earlier sorted present n).mpr ((whole n ended).mp same)
    obtain ⟨early, parts⟩ := not_or.mp none
    refine ⟨fun m item => not_le.mp fun passed => early ⟨m, item, passed⟩, fun i part => ?_⟩
    by_cases before : i < n
    · exact parts ⟨i, before, part⟩
    · have stopped := ended_of_le (not_lt.mp before) ended
      rw [part.1] at stopped
      cases stopped
  · rintro ⟨begins, parts⟩
    obtain ⟨n, ended⟩ := ends
    refine ⟨n, ended, (whole n ended).mpr fun missed => ?_⟩
    rcases (missed_after_iff earlier sorted present n).mp missed with ⟨m, item, passed⟩ | ⟨i, -, part⟩
    · exact passed.not_gt (begins m item)
    · exact parts i part

/-! ## Items that stay as they are -/

theorem newer_append {front back : List α} {since : τ} (passed : ∀ a ∈ front, time a ≤ since)
    (ahead : ∀ a ∈ back, since < time a) : newer time (front ++ back) since = back := by
  have none : newer time front since = [] :=
    List.filter_eq_nil_iff.mpr fun a mem => by simp [passed a mem]
  have all : newer time back since = back :=
    List.filter_eq_self.mpr fun a mem => decide_eq_true (ahead a mem)
  rw [newer] at none all ⊢
  rw [List.filter_append, none, all, List.nil_append]

section Still

variable {since : τ} (earlier : ∀ a b, time a < time b → age a < age b)
  (sorted : items.Pairwise fun a b => age a < age b) (begins : ∀ m ∈ items, since < time m)
  (some : 0 < size)

include earlier sorted begins some

/-- As long as no page parted items of one time, every call goes on behind a whole number of pages. -/
theorem newer_after_still {n : Nat}
    (apart : ∀ i < n, ¬Parts time size items (after time size (fun _ => items) since i) items) :
    newer time items (after time size (fun _ => items) since n).since = items.drop (n * size) := by
  induction n with
  | zero =>
    rw [Nat.zero_mul, List.drop_zero]
    exact List.filter_eq_self.mpr fun a mem => decide_eq_true (begins a mem)
  | succ n ih =>
    have before := ih fun i lt => apart i (Nat.lt_succ_of_lt lt)
    have further : items.drop ((n + 1) * size) = (items.drop (n * size)).drop size := by
      rw [List.drop_drop, Nat.succ_mul]
    rw [after]
    rcases call_cases time size (after time size (fun _ => items) since n) items with
      ⟨ended, same⟩ | ⟨-, empty, same⟩ | ⟨reading, page, last, paged, same⟩
    · have passed : ∀ m ∈ items, time m ≤ (after time size (fun _ => items) since n).since :=
        behind_of_ended (fun _ => List.Subset.refl items) some ended
      have none : newer time items (after time size (fun _ => items) since n).since = [] :=
        List.filter_eq_nil_iff.mpr fun a mem => by simp [passed a mem]
      rw [same, none, further, ← before, none, List.drop_nil]
    · have none := (List.take_eq_nil_iff.mp empty).resolve_left (by omega)
      rw [same, further, ← before, none, List.drop_nil]
    · have split := List.take_append_drop (n * size) items
      rw [before] at paged
      rw [← List.take_append_drop size (items.drop (n * size)), paged, ← further,
        ← List.append_assoc] at split
      have order := split ▸ sorted
      obtain ⟨front, -, behind⟩ := List.pairwise_append.mp order
      obtain ⟨-, pageSorted, across⟩ := List.pairwise_append.mp front
      have onPage : last ∈ page ++ [last] := by simp
      rw [same]
      conv_lhs => rw [← split]
      refine newer_append (fun a mem => ?_) fun m beyond => ?_
      · rcases List.mem_append.mp mem with mem | mem
        · exact not_lt.mp fun later => (across a mem last onPage).not_gt (earlier last a later)
        · exact time_le_last earlier pageSorted mem
      · have le : time last ≤ time m := not_lt.mp fun later =>
          (behind last (List.mem_append_right _ onPage) m beyond).not_gt (earlier m last later)
        refine lt_of_le_of_ne le fun at_once => apart n (Nat.lt_succ_self n) ⟨reading, m, ?_,
          List.mem_of_mem_drop beyond, last, ?_, at_once⟩
        · rwa [before, ← further]
        · rw [before, paged]
          exact onPage

/-- Of items that stay as they are, no call parts any from others of their time exactly when the pages
do so that they fill one after the other. -/
theorem parts_still_iff :
    (∀ n, ¬Parts time size items (after time size (fun _ => items) since n) items) ↔
      ∀ k, ∀ l ∈ items.take (k * size), ∀ m ∈ items.drop (k * size), time l ≠ time m := by
  constructor
  · intro apart k l mem m beyond at_once
    have waiting := newer_after_still earlier sorted begins some fun i (_ : i < k) => apart i
    have ahead := beyond
    rw [← waiting, mem_newer, ← at_once] at ahead
    have again : l ∈ items.drop (k * size) := by
      rw [← waiting]
      exact mem_newer.mpr ⟨List.mem_of_mem_take mem, ahead.2⟩
    have order := sorted
    rw [← List.take_append_drop (k * size) items] at order
    exact lt_irrefl _ ((List.pairwise_append.mp order).2.2 l mem l again)
  · intro apart n
    induction n using Nat.strong_induction_on with
    | _ n ih =>
      rintro ⟨-, m, beyond, -, l, mem, at_once⟩
      rw [newer_after_still earlier sorted begins some ih] at beyond mem
      rw [List.drop_drop, ← Nat.succ_mul] at beyond
      rw [List.take_drop, ← Nat.succ_mul] at mem
      exact apart (n + 1) l (List.mem_of_mem_drop mem) m beyond at_once

end Still

end Cursor
