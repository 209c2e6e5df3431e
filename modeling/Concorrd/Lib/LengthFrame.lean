import Concorrd.Lib.Bytes

/-!
# Frames under a length

A body behind its length in four bytes, the highest first. `read` takes the first frame of a stream
that is there; `readChunks` takes it from chunks as they come, and gives the same however the stream is
cut (`readChunks_eq`).
-/

namespace LengthFrame

/-- Why there is no body: the stream ended before the length or before the body did, or the length is
over the cap. -/
inductive Fault where
  | noLength
  | midBody
  | tooLarge (length : Nat)
  deriving DecidableEq

def frame (body : List UInt8) : List UInt8 := Bytes.be 4 body.length ++ body

/-- The length that a stream begins with. -/
def lengthOf (stream : List UInt8) : Option Nat :=
  if 4 ≤ stream.length then some (Bytes.ofBe (stream.take 4)) else none

/-- The body of the first frame of a stream. -/
def read (cap : Nat) (stream : List UInt8) : Except Fault (List UInt8) :=
  match lengthOf stream with
  | none => .error .noLength
  | some n =>
    if cap < n then .error (.tooLarge n)
    else if 4 + n ≤ stream.length then .ok ((stream.drop 4).take n)
    else .error .midBody

/-- The body of the first frame, from chunks that are added to what was collected. The length is taken
once, when there are bytes enough for it. -/
def readChunks (cap : Nat) (collected : List UInt8) (length : Option Nat) :
    List (List UInt8) → Except Fault (List UInt8)
  | [] => .error (if length.isNone then .noLength else .midBody)
  | chunk :: chunks =>
    let all := collected ++ chunk
    match length.or (lengthOf all) with
    | none => readChunks cap all none chunks
    | some n =>
      if length.isNone && decide (cap < n) then .error (.tooLarge n)
      else if 4 + n ≤ all.length then .ok ((all.drop 4).take n)
      else readChunks cap all (some n) chunks

variable {cap : Nat} {collected more : List UInt8}

/-- A length stays when more comes. -/
theorem lengthOf_append {n : Nat} (h : lengthOf collected = some n) :
    lengthOf (collected ++ more) = some n := by
  rw [lengthOf] at h ⊢
  split at h
  · rename_i enough
    rw [if_pos (by simp only [List.length_append]; omega), List.take_append_of_le_length enough]
    exact h
  · cases h

theorem lengthOf_enough {n : Nat} (h : lengthOf collected = some n) : 4 ≤ collected.length := by
  rw [lengthOf] at h
  split at h
  · assumption
  · cases h

/-- What was collected is no frame yet, and its length is not over the cap. -/
def Pending (cap : Nat) (collected : List UInt8) : Prop :=
  ∀ n, lengthOf collected = some n → n ≤ cap ∧ collected.length < 4 + n

theorem readChunks_of_pending {chunks : List (List UInt8)} (pending : Pending cap collected) :
    readChunks cap collected (lengthOf collected) chunks = read cap (collected ++ chunks.flatten) := by
  induction chunks generalizing collected with
  | nil =>
    rw [readChunks, List.flatten_nil, List.append_nil, read]
    cases length : lengthOf collected with
    | none => rfl
    | some n =>
      obtain ⟨small, short⟩ := pending n length
      simp only [Option.isNone_some, Bool.false_eq_true, if_false, if_neg (not_lt.mpr small),
        if_neg (not_le.mpr short)]
  | cons chunk chunks ih =>
    rw [readChunks, List.flatten_cons, ← List.append_assoc]
    have kept : (lengthOf collected).or (lengthOf (collected ++ chunk)) = lengthOf (collected ++ chunk) := by
      cases length : lengthOf collected with
      | none => rfl
      | some n => rw [lengthOf_append length, Option.or_some, Option.getD_some]
    rw [kept]
    cases length : lengthOf (collected ++ chunk) with
    | none =>
      have none_pending : Pending cap (collected ++ chunk) := fun n h =>
        absurd (length.symm.trans h) (by simp)
      have next := ih none_pending
      rwa [length] at next
    | some n =>
      have whole : lengthOf (collected ++ chunk ++ chunks.flatten) = some n := lengthOf_append length
      have new : ((lengthOf collected).isNone && decide (cap < n)) = true ↔ cap < n := by
        cases before : lengthOf collected with
        | none => simp
        | some n' =>
          have same : n' = n := Option.some.inj ((lengthOf_append before).symm.trans length)
          have small := (pending n' before).1
          simp only [Option.isNone_some, Bool.false_and, Bool.false_eq_true, false_iff, not_lt]
          exact same ▸ small
      have enough := lengthOf_enough length
      dsimp only
      rw [read, whole]
      dsimp only
      by_cases large : cap < n
      · rw [if_pos (new.mpr large), if_pos large]
      · rw [if_neg fun h => large (new.mp h), if_neg large]
        by_cases full : 4 + n ≤ (collected ++ chunk).length
        · rw [if_pos full, if_pos (by simp only [List.length_append] at full ⊢; omega)]
          have inside : n ≤ ((collected ++ chunk).drop 4).length := by
            rw [List.length_drop]
            omega
          rw [List.drop_append_of_le_length enough, List.take_append_of_le_length inside]
        · rw [if_neg full]
          have still_pending : Pending cap (collected ++ chunk) := fun n' h => by
            have same : n = n' := Option.some.inj (length.symm.trans h)
            exact same ▸ ⟨not_lt.mp large, not_le.mp full⟩
          have next := ih still_pending
          rw [length, read, whole] at next
          simpa only [if_neg large] using next

/-- How a stream is cut does not matter. -/
theorem readChunks_eq (cap : Nat) (chunks : List (List UInt8)) :
    readChunks cap [] none chunks = read cap chunks.flatten := by
  have nothing : Pending cap [] := fun n h => by cases h
  exact readChunks_of_pending nothing

/-- A frame is read back. -/
theorem read_frame {body : List UInt8} (fits : body.length ≤ cap) (small : cap < 2 ^ 32) :
    read cap (frame body) = .ok body := by
  have length : lengthOf (frame body) = some body.length := by
    rw [lengthOf, if_pos (by simp [frame]), frame, List.take_left' (Bytes.length_be 4 _),
      Bytes.ofBe_be (by omega)]
  rw [read, length]
  dsimp only
  rw [if_neg (not_lt.mpr fits), if_pos (by simp [frame]), frame, List.drop_left' (Bytes.length_be 4 _),
    List.take_length]

end LengthFrame
