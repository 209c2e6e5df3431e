import Concorrd.Lib.Bytes
import Concorrd.Lib.LengthFrame

/-!
# A body in frames

A body is cut into pieces, each is sent as a frame, and a frame of no bytes ends it. The reader takes
the stream in chunks as they come, and gives up on a frame or a body that is over a cap.
`receive_sentinel_iff` says which streams it takes whole, however they are cut into chunks, and what
it makes of them.
-/

namespace FrameStream

open LengthFrame (frame)

/-! ## Reading chunks -/

/-- The next bytes of a stream, and the chunks that are left. -/
def readExact : Nat → List (List UInt8) → Option (List UInt8 × List (List UInt8))
  | n, [] => if n = 0 then some ([], []) else none
  | n, chunk :: chunks =>
    if n ≤ chunk.length then some (chunk.take n, chunk.drop n :: chunks)
    else (readExact (n - chunk.length) chunks).map fun r => (chunk ++ r.1, r.2)

/-- The bytes are the first of the stream, if it has so many. -/
theorem readExact_spec (n : Nat) (chunks : List (List UInt8)) :
    (chunks.flatten.length < n ∧ readExact n chunks = none) ∨
      (n ≤ chunks.flatten.length ∧ ∃ rest, rest.flatten = chunks.flatten.drop n ∧
        readExact n chunks = some (chunks.flatten.take n, rest)) := by
  induction chunks generalizing n with
  | nil =>
    cases n with
    | zero => exact .inr ⟨le_rfl, [], rfl, rfl⟩
    | succ n => exact .inl ⟨Nat.succ_pos n, rfl⟩
  | cons chunk chunks ih =>
    rw [readExact]
    by_cases inside : n ≤ chunk.length
    · refine .inr ⟨?_, chunk.drop n :: chunks, ?_, ?_⟩
      · rw [List.flatten_cons, List.length_append]
        omega
      · rw [List.flatten_cons, List.flatten_cons, List.drop_append_of_le_length inside]
      · rw [if_pos inside, List.flatten_cons, List.take_append_of_le_length inside]
    · have past : n = chunk.length + (n - chunk.length) := by omega
      rw [if_neg inside]
      rcases ih (n - chunk.length) with ⟨short, none⟩ | ⟨enough, rest, left, read⟩
      · refine .inl ⟨?_, ?_⟩
        · rw [List.flatten_cons, List.length_append]
          omega
        · rw [none, Option.map_none]
      · refine .inr ⟨?_, rest, ?_, ?_⟩
        · rw [List.flatten_cons, List.length_append]
          omega
        · rw [left, List.flatten_cons, past, List.drop_append, Nat.add_sub_cancel_left]
          simp
        · rw [read, Option.map_some, List.flatten_cons, past, List.take_length_add_append,
            Nat.add_sub_cancel_left]

/-- Bytes are read off the front of a stream. -/
theorem readExact_append {bytes rest : List UInt8} {chunks : List (List UInt8)}
    (stream : chunks.flatten = bytes ++ rest) :
    ∃ left, left.flatten = rest ∧ readExact bytes.length chunks = some (bytes, left) := by
  rcases readExact_spec bytes.length chunks with ⟨short, -⟩ | ⟨-, left, flat, read⟩
  · rw [stream, List.length_append] at short
    omega
  · rw [stream, List.drop_left] at flat
    rw [stream, List.take_left] at read
    exact ⟨left, flat, read⟩

/-- What was read and what is left are the stream. -/
theorem flatten_of_readExact {n : Nat} {bytes : List UInt8} {chunks left : List (List UInt8)}
    (read : readExact n chunks = some (bytes, left)) :
    chunks.flatten = bytes ++ left.flatten ∧ bytes.length = n := by
  rcases readExact_spec n chunks with ⟨-, none⟩ | ⟨enough, rest, flat, read'⟩
  · cases none.symm.trans read
  · cases read'.symm.trans read
    rw [flat, List.take_append_drop]
    exact ⟨rfl, List.length_take_of_le enough⟩

/-! ## The sender -/

/-- The stream of a body in pieces. -/
def streamOf (bodies : List (List UInt8)) : List UInt8 :=
  (bodies.map frame).flatten ++ [0, 0, 0, 0]

theorem length_le_streamOf (bodies : List (List UInt8)) : bodies.length ≤ (streamOf bodies).length := by
  have each : bodies.length ≤ (bodies.map frame).flatten.length := by
    induction bodies with
    | nil => exact le_rfl
    | cons body bodies ih =>
      rw [List.map_cons, List.flatten_cons, List.length_append, frame, List.length_append,
        Bytes.length_be, List.length_cons]
      omega
  rw [streamOf, List.length_append]
  omega

/-- A body in pieces of a size, with as many steps as it has bytes. -/
def cut {α : Type*} (size : Nat) : Nat → List α → List (List α)
  | _, [] => []
  | 0, _ => []
  | n + 1, a :: as => (a :: as).take size :: cut size n ((a :: as).drop size)

/-- A body in pieces of a size; the last may be smaller. -/
def pieces {α : Type*} (size : Nat) (body : List α) : List (List α) := cut size body.length body

theorem flatten_cut {α : Type*} {size n : Nat} {body : List α} (pos : 0 < size)
    (steps : body.length ≤ n) : (cut size n body).flatten = body := by
  induction n generalizing body with
  | zero =>
    rw [List.length_eq_zero_iff.mp (Nat.le_zero.mp steps)]
    rfl
  | succ n ih =>
    cases body with
    | nil => rfl
    | cons a as =>
      rw [cut, List.flatten_cons, ih, List.take_append_drop]
      rw [List.length_drop, List.length_cons]
      rw [List.length_cons] at steps
      omega

theorem flatten_pieces {α : Type*} {size : Nat} (pos : 0 < size) (body : List α) :
    (pieces size body).flatten = body := flatten_cut pos le_rfl

/-- No piece is empty or over its size. -/
theorem mem_cut {α : Type*} {size n : Nat} {body piece : List α} (pos : 0 < size)
    (mem : piece ∈ cut size n body) : piece ≠ [] ∧ piece.length ≤ size := by
  induction n generalizing body with
  | zero =>
    cases body with
    | nil => cases mem
    | cons a as => cases mem
  | succ n ih =>
    cases body with
    | nil => cases mem
    | cons a as =>
      rcases List.mem_cons.mp mem with rfl | mem
      · refine ⟨fun empty => ?_, List.length_take_le size _⟩
        have none := congrArg List.length empty
        rw [List.length_take, List.length_cons, List.length_nil] at none
        omega
      · exact ih mem

/-! ## The reader -/

/-- How a reading ends: with the empty frame, with a stream that ends before it or inside a frame, or
with a frame or a body over its cap. -/
inductive Ending where
  | sentinel
  | noSentinel
  | midFrame
  | frameTooLarge (length : Nat)
  | overCap
  deriving DecidableEq, Repr

/-- Frame after frame onto what was taken, with a bound on the number of frames. -/
def receiveFrom (maxFrame cap : Nat) : Nat → List UInt8 → List (List UInt8) → List UInt8 × Ending
  | 0, taken, _ => (taken, .noSentinel)
  | steps + 1, taken, chunks =>
    match readExact 4 chunks with
    | none => (taken, .noSentinel)
    | some (length, chunks) =>
      if Bytes.ofBe length = 0 then (taken, .sentinel)
      else if maxFrame < Bytes.ofBe length then (taken, .frameTooLarge (Bytes.ofBe length))
      else
        match readExact (Bytes.ofBe length) chunks with
        | none => (taken, .midFrame)
        | some (body, chunks) =>
          if cap < (taken ++ body).length then (taken ++ body, .overCap)
          else receiveFrom maxFrame cap steps (taken ++ body) chunks

/-- Read a body. Every frame takes four bytes of the stream or more. -/
def receive (maxFrame cap : Nat) (chunks : List (List UInt8)) : List UInt8 × Ending :=
  receiveFrom maxFrame cap (chunks.flatten.length + 1) [] chunks

/-- No piece is empty or over the cap of a frame, and together they are not over that of a body. -/
structure Fits (maxFrame cap : Nat) (bodies : List (List UInt8)) : Prop where
  frames : ∀ body ∈ bodies, body ≠ [] ∧ body.length ≤ maxFrame
  total : bodies.flatten.length ≤ cap

variable {maxFrame cap : Nat} {taken got rest : List UInt8} {chunks : List (List UInt8)}
  {bodies : List (List UInt8)} {steps : Nat}

/-- A stream of pieces is read to its end. -/
theorem receiveFrom_streamOf (small : maxFrame < 2 ^ 32)
    (frames : ∀ body ∈ bodies, body ≠ [] ∧ body.length ≤ maxFrame)
    (total : (taken ++ bodies.flatten).length ≤ cap) (many : bodies.length < steps)
    (stream : chunks.flatten = streamOf bodies ++ rest) :
    receiveFrom maxFrame cap steps taken chunks = (taken ++ bodies.flatten, .sentinel) := by
  induction bodies generalizing taken steps chunks with
  | nil =>
    obtain ⟨n, rfl⟩ : ∃ n, steps = n + 1 := ⟨steps - 1, by omega⟩
    obtain ⟨left, -, read⟩ := readExact_append (show chunks.flatten = [0, 0, 0, 0] ++ rest from stream)
    have zero : Bytes.ofBe [0, 0, 0, 0] = 0 := rfl
    simp only [List.length_cons, List.length_nil, Nat.reduceAdd] at read
    rw [receiveFrom, read]
    simp only [zero, if_true, List.flatten_nil, List.append_nil]
  | cons body bodies ih =>
    obtain ⟨n, rfl⟩ : ∃ n, steps = n + 1 := ⟨steps - 1, by omega⟩
    obtain ⟨nonempty, fits⟩ := frames body List.mem_cons_self
    have pos := List.length_pos_of_ne_nil nonempty
    have spelt : Bytes.ofBe (Bytes.be 4 body.length) = body.length :=
      Bytes.ofBe_be (lt_of_le_of_lt fits small)
    have parts : chunks.flatten = Bytes.be 4 body.length ++ (body ++ (streamOf bodies ++ rest)) := by
      rw [stream, streamOf, List.map_cons, List.flatten_cons, frame, streamOf]
      simp only [List.append_assoc]
    obtain ⟨afterLength, flat, readLength⟩ := readExact_append parts
    obtain ⟨afterBody, flat', readBody⟩ := readExact_append flat
    rw [Bytes.length_be] at readLength
    rw [List.flatten_cons, ← List.append_assoc] at total
    have within : ¬cap < (taken ++ body).length := by
      rw [List.length_append] at total
      omega
    rw [receiveFrom, readLength]
    simp only [spelt, readBody]
    rw [if_neg (by omega), if_neg (by omega), if_neg within,
      ih (fun body' mem => frames body' (List.mem_cons_of_mem _ mem)) total
        (Nat.lt_of_succ_lt_succ many) flat']
    rw [List.flatten_cons, List.append_assoc]

/-- A stream that is read to its end is one of pieces, with whatever follows. -/
theorem streamOf_of_receiveFrom (within : taken.length ≤ cap)
    (read : receiveFrom maxFrame cap steps taken chunks = (got, .sentinel)) :
    ∃ bodies rest, (∀ body ∈ bodies, body ≠ [] ∧ body.length ≤ maxFrame) ∧
      chunks.flatten = streamOf bodies ++ rest ∧ got = taken ++ bodies.flatten ∧ got.length ≤ cap := by
  induction steps generalizing taken chunks with
  | zero => cases read
  | succ n ih =>
    rw [receiveFrom] at read
    split at read
    · cases read
    · rename_i length left readLength
      obtain ⟨flat, four⟩ := flatten_of_readExact readLength
      have spelt := Bytes.be_ofBe length
      rw [four] at spelt
      split at read
      · rename_i zero
        cases read
        refine ⟨[], left.flatten, by simp, ?_, by simp, within⟩
        rw [flat, ← spelt, zero]
        rfl
      · split at read
        · cases read
        · split at read
          · cases read
          · rename_i nonzero fits _ body left' readBody
            obtain ⟨flat', size⟩ := flatten_of_readExact readBody
            split at read
            · cases read
            · rename_i within'
              obtain ⟨bodies, rest, frames, stream, rfl, total⟩ := ih (not_lt.mp within') read
              refine ⟨body :: bodies, rest, ?_, ?_, ?_, total⟩
              · refine List.forall_mem_cons.mpr ⟨⟨?_, by omega⟩, frames⟩
                rintro rfl
                exact nonzero size.symm
              · rw [flat, flat', stream, streamOf, streamOf, List.map_cons, List.flatten_cons, frame, size,
                  spelt]
                simp only [List.append_assoc]
              · rw [List.flatten_cons, List.append_assoc]

/-- Exactly the streams of pieces that fit are read to their end, whatever follows and however they
are cut into chunks. -/
theorem receive_sentinel_iff (small : maxFrame < 2 ^ 32) :
    receive maxFrame cap chunks = (got, .sentinel) ↔ ∃ bodies rest, Fits maxFrame cap bodies ∧
      chunks.flatten = streamOf bodies ++ rest ∧ got = bodies.flatten := by
  constructor
  · intro read
    obtain ⟨bodies, rest, frames, stream, rfl, total⟩ :=
      streamOf_of_receiveFrom (Nat.zero_le cap) read
    exact ⟨bodies, rest, ⟨frames, total⟩, stream, rfl⟩
  · rintro ⟨bodies, rest, fits, stream, rfl⟩
    refine receiveFrom_streamOf small fits.frames fits.total ?_ stream
    have many := length_le_streamOf bodies
    rw [stream, List.length_append]
    omega

/-- A stream of pieces says which pieces, and what follows them. -/
theorem streamOf_append_inj {bodies' : List (List UInt8)} {rest' : List UInt8} (small : maxFrame < 2 ^ 32)
    (frames : ∀ body ∈ bodies, body ≠ [] ∧ body.length ≤ maxFrame)
    (frames' : ∀ body ∈ bodies', body ≠ [] ∧ body.length ≤ maxFrame)
    (same : streamOf bodies ++ rest = streamOf bodies' ++ rest') : bodies = bodies' ∧ rest = rest' := by
  have head (body : List UInt8) (bodies : List (List UInt8)) (rest : List UInt8) :
      streamOf (body :: bodies) ++ rest =
        Bytes.be 4 body.length ++ (body ++ (streamOf bodies ++ rest)) := by
    rw [streamOf, List.map_cons, List.flatten_cons, frame, streamOf]
    simp only [List.append_assoc]
  have zero : streamOf [] = Bytes.be 4 0 := rfl
  have fits {body : List UInt8} (ok : body ≠ [] ∧ body.length ≤ maxFrame) : body.length < 256 ^ 4 :=
    lt_of_le_of_lt ok.2 small
  induction bodies generalizing bodies' with
  | nil =>
    cases bodies' with
    | nil => exact ⟨rfl, List.append_cancel_left same⟩
    | cons body' bodies' =>
      have ok := frames' body' List.mem_cons_self
      rw [zero, head] at same
      have none := Bytes.be_inj (by decide) (fits ok) (List.append_inj_left same (by simp))
      exact absurd (List.length_eq_zero_iff.mp none.symm) ok.1
  | cons body bodies ih =>
    have ok := frames body List.mem_cons_self
    cases bodies' with
    | nil =>
      rw [zero, head] at same
      have none := Bytes.be_inj (fits ok) (by decide) (List.append_inj_left same (by simp))
      exact absurd (List.length_eq_zero_iff.mp none) ok.1
    | cons body' bodies' =>
      have ok' := frames' body' List.mem_cons_self
      rw [head, head] at same
      obtain ⟨lengths, after⟩ := List.append_inj same (by simp)
      obtain ⟨rfl, tails⟩ := List.append_inj after (Bytes.be_inj (fits ok) (fits ok') lengths)
      obtain ⟨rfl, left⟩ := ih (fun b mem => frames b (List.mem_cons_of_mem _ mem))
        (fun b mem => frames' b (List.mem_cons_of_mem _ mem)) tails
      exact ⟨rfl, left⟩

end FrameStream
