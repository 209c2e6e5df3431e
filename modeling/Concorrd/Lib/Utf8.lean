import Concorrd.Lib.Bytes

/-!
# UTF-8

Reading of bytes that need not be well formed, as the Encoding Standard has it: what is no character
is read as `none`, one for each longest beginning of a character, and the byte that does not fit is
read again. `decode_utf8` says that the bytes of a text are read as its characters.
-/

namespace Utf8

/-- A character of several bytes that has begun: how many more it takes, where the next one has to
lie, and the bits so far. -/
structure Pending where
  needed : Nat
  lower : Nat
  upper : Nat
  bits : Nat
  deriving DecidableEq, Repr

/-- A byte where a character may begin. -/
def lead (b : Nat) : List (Option Char) × Option Pending :=
  if b < 0x80 then ([some (Char.ofNat b)], none)
  else if 0xC2 ≤ b ∧ b ≤ 0xDF then ([], some ⟨1, 0x80, 0xBF, b - 0xC0⟩)
  else if 0xE0 ≤ b ∧ b ≤ 0xEF then
    ([], some ⟨2, if b = 0xE0 then 0xA0 else 0x80, if b = 0xED then 0x9F else 0xBF, b - 0xE0⟩)
  else if 0xF0 ≤ b ∧ b ≤ 0xF4 then
    ([], some ⟨3, if b = 0xF0 then 0x90 else 0x80, if b = 0xF4 then 0x8F else 0xBF, b - 0xF0⟩)
  else ([none], none)

/-- A byte after what has begun. -/
def step (state : Option Pending) (b : Nat) : List (Option Char) × Option Pending :=
  match state with
  | none => lead b
  | some p =>
    if p.lower ≤ b ∧ b ≤ p.upper then
      if p.needed = 1 then ([some (Char.ofNat (p.bits * 64 + (b - 0x80)))], none)
      else ([], some ⟨p.needed - 1, 0x80, 0xBF, p.bits * 64 + (b - 0x80)⟩)
    else (none :: (lead b).1, (lead b).2)

def decodeFrom : Option Pending → List UInt8 → List (Option Char)
  | none, [] => []
  | some _, [] => [none]
  | state, b :: bytes => (step state b.toNat).1 ++ decodeFrom (step state b.toNat).2 bytes

/-- The characters of some bytes. -/
def decode (bytes : List UInt8) : List (Option Char) := decodeFrom none bytes

/-! ## The bytes of a text -/

theorem decodeFrom_step {state state' : Option Pending} {b : UInt8} {out : List (Option Char)}
    {bytes : List UInt8} (h : step state b.toNat = (out, state')) :
    decodeFrom state (b :: bytes) = out ++ decodeFrom state' bytes := by
  cases state <;> simp only [decodeFrom, h]

theorem step_continues {lower upper bits b : Nat} {needed : Nat} (low : lower ≤ b) (high : b ≤ upper) :
    step (some ⟨needed + 2, lower, upper, bits⟩) b =
      ([], some ⟨needed + 1, 0x80, 0xBF, bits * 64 + (b - 0x80)⟩) := by
  simp only [step]
  rw [if_pos ⟨low, high⟩, if_neg (by omega)]
  rfl

theorem step_ends {lower upper bits b : Nat} (low : lower ≤ b) (high : b ≤ upper) :
    step (some ⟨1, lower, upper, bits⟩) b =
      ([some (Char.ofNat (bits * 64 + (b - 0x80)))], none) := by
  simp only [step]
  rw [if_pos ⟨low, high⟩, if_pos trivial]

theorem toNat_byte {n : Nat} (h : n < 256) : (UInt8.ofNat n).toNat = n :=
  UInt8.toNat_ofNat_of_lt' h

/-- A character is read back from its bytes. -/
theorem decode_char (c : Char) (bytes : List UInt8) :
    decode (String.utf8EncodeChar c ++ bytes) = some c :: decode bytes := by
  have whole : Char.ofNat c.val.toNat = c := Char.ofNat_toNat c
  have valid : c.val.toNat < 0xD800 ∨ 0xDFFF < c.val.toNat ∧ c.val.toNat < 0x110000 := c.valid
  unfold decode String.utf8EncodeChar
  generalize c.val.toNat = v at whole valid
  dsimp only
  split
  · have begins : step none (UInt8.ofNat v).toNat = ([some c], none) := by
      rw [toNat_byte (by omega), step, lead, if_pos (by omega), whole]
    exact decodeFrom_step begins
  · split
    · have begins : step none (UInt8.ofNat (v / 64 % 0x20 + 0xC0)).toNat =
          ([], some ⟨1, 0x80, 0xBF, v / 64⟩) := by
        rw [toNat_byte (by omega), step, lead, if_neg (by omega), if_pos (by omega),
          show v / 64 % 0x20 + 0xC0 - 0xC0 = v / 64 by omega]
      have ends : step (some ⟨1, 0x80, 0xBF, v / 64⟩) (UInt8.ofNat (v % 0x40 + 0x80)).toNat =
          ([some c], none) := by
        rw [toNat_byte (by omega), step_ends (by omega) (by omega),
          show v / 64 * 64 + (v % 0x40 + 0x80 - 0x80) = v by omega, whole]
      exact (decodeFrom_step begins).trans (decodeFrom_step ends)
    · split
      · have begins : step none (UInt8.ofNat (v / 4096 % 0x10 + 0xE0)).toNat =
            ([], some ⟨2, if v / 4096 = 0 then 0xA0 else 0x80, if v / 4096 = 0xD then 0x9F else 0xBF,
              v / 4096⟩) := by
          rw [toNat_byte (by omega), step, lead, if_neg (by omega), if_neg (by omega),
            if_pos (by omega), show v / 4096 % 0x10 + 0xE0 - 0xE0 = v / 4096 by omega]
          simp only [show v / 4096 % 0x10 + 0xE0 = 0xE0 ↔ v / 4096 = 0 by omega,
            show v / 4096 % 0x10 + 0xE0 = 0xED ↔ v / 4096 = 0xD by omega]
        have goes : step (some ⟨2, if v / 4096 = 0 then 0xA0 else 0x80,
            if v / 4096 = 0xD then 0x9F else 0xBF, v / 4096⟩)
            (UInt8.ofNat (v / 64 % 0x40 + 0x80)).toNat = ([], some ⟨1, 0x80, 0xBF, v / 64⟩) := by
          rw [toNat_byte (by omega), step_continues (by split <;> omega) (by split <;> omega),
            show v / 4096 * 64 + (v / 64 % 0x40 + 0x80 - 0x80) = v / 64 by omega]
        have ends : step (some ⟨1, 0x80, 0xBF, v / 64⟩) (UInt8.ofNat (v % 0x40 + 0x80)).toNat =
            ([some c], none) := by
          rw [toNat_byte (by omega), step_ends (by omega) (by omega),
            show v / 64 * 64 + (v % 0x40 + 0x80 - 0x80) = v by omega, whole]
        exact (decodeFrom_step begins).trans ((decodeFrom_step goes).trans (decodeFrom_step ends))
      · have begins : step none (UInt8.ofNat (v / 262144 % 0x08 + 0xF0)).toNat =
            ([], some ⟨3, if v / 262144 = 0 then 0x90 else 0x80,
              if v / 262144 = 4 then 0x8F else 0xBF, v / 262144⟩) := by
          rw [toNat_byte (by omega), step, lead, if_neg (by omega), if_neg (by omega),
            if_neg (by omega), if_pos (by omega),
            show v / 262144 % 0x08 + 0xF0 - 0xF0 = v / 262144 by omega]
          simp only [show v / 262144 % 0x08 + 0xF0 = 0xF0 ↔ v / 262144 = 0 by omega,
            show v / 262144 % 0x08 + 0xF0 = 0xF4 ↔ v / 262144 = 4 by omega]
        have first : step (some ⟨3, if v / 262144 = 0 then 0x90 else 0x80,
            if v / 262144 = 4 then 0x8F else 0xBF, v / 262144⟩)
            (UInt8.ofNat (v / 4096 % 0x40 + 0x80)).toNat = ([], some ⟨2, 0x80, 0xBF, v / 4096⟩) := by
          rw [toNat_byte (by omega), step_continues (by split <;> omega) (by split <;> omega),
            show v / 262144 * 64 + (v / 4096 % 0x40 + 0x80 - 0x80) = v / 4096 by omega]
        have second : step (some ⟨2, 0x80, 0xBF, v / 4096⟩)
            (UInt8.ofNat (v / 64 % 0x40 + 0x80)).toNat = ([], some ⟨1, 0x80, 0xBF, v / 64⟩) := by
          rw [toNat_byte (by omega), step_continues (by omega) (by omega),
            show v / 4096 * 64 + (v / 64 % 0x40 + 0x80 - 0x80) = v / 64 by omega]
        have ends : step (some ⟨1, 0x80, 0xBF, v / 64⟩) (UInt8.ofNat (v % 0x40 + 0x80)).toNat =
            ([some c], none) := by
          rw [toNat_byte (by omega), step_ends (by omega) (by omega),
            show v / 64 * 64 + (v % 0x40 + 0x80 - 0x80) = v by omega, whole]
        exact (decodeFrom_step begins).trans ((decodeFrom_step first).trans
          ((decodeFrom_step second).trans (decodeFrom_step ends)))

theorem utf8_ofList (cs : List Char) :
    Bytes.utf8 (String.ofList cs) = cs.flatMap String.utf8EncodeChar := by
  rw [Bytes.utf8, String.toUTF8_eq_toByteArray, String.toByteArray_ofList, List.utf8Encode,
    List.toList_data_toByteArray]

/-- A text is read back from its bytes. -/
theorem decode_utf8 (cs : List Char) : decode (Bytes.utf8 (String.ofList cs)) = cs.map some := by
  rw [utf8_ofList]
  induction cs with
  | nil => rfl
  | cons c cs ih => rw [List.flatMap_cons, decode_char, ih, List.map_cons]

end Utf8
