import Concorrd.Lib.JsonText

/-!
# Byte strings

The bytes of a text, a number as bytes with the highest first, which `ofBe_be` reads back, and
bytes as hex text. A text and a number that fits are told apart by their bytes.
-/

namespace Bytes

/-- The bytes of a text. -/
def utf8 (s : String) : List UInt8 := s.toUTF8.data.toList

theorem length_utf8 (s : String) : (utf8 s).length = s.utf8ByteSize := rfl

theorem utf8_inj {s t : String} (same : utf8 s = utf8 t) : s = t := by
  have data : s.toUTF8.data = t.toUTF8.data := Array.toList_inj.mp same
  exact String.toByteArray_inj.mp (ByteArray.ext data)

/-! ## Numbers -/

/-- The last `width` bytes of a number, the highest first. -/
def be : Nat → Nat → List UInt8
  | 0, _ => []
  | width + 1, n => (n / 256 ^ width).toUInt8 :: be width n

/-- The number that bytes spell. -/
def ofBe (bytes : List UInt8) : Nat := bytes.foldl (fun n b => 256 * n + b.toNat) 0

@[simp] theorem length_be (width n : Nat) : (be width n).length = width := by
  induction width with
  | zero => rfl
  | succ width ih => rw [be, List.length_cons, ih]

theorem foldl_be (width n acc : Nat) :
    (be width n).foldl (fun n b => 256 * n + b.toNat) acc =
      256 ^ width * acc + n % 256 ^ width := by
  induction width generalizing acc with
  | zero => simp only [be, List.foldl_nil, Nat.pow_zero, Nat.mod_one, Nat.one_mul, Nat.add_zero]
  | succ width ih =>
    have byte : (n / 256 ^ width).toUInt8.toNat = n / 256 ^ width % 256 := rfl
    have split : n % 256 ^ (width + 1) =
        n % 256 ^ width + 256 ^ width * (n / 256 ^ width % 256) := by
      rw [Nat.pow_succ, Nat.mod_mul]
    rw [be, List.foldl_cons, ih, byte, split, Nat.pow_succ, Nat.mul_add]
    ac_rfl

/-- A number that fits is read back. -/
theorem ofBe_be {width n : Nat} (h : n < 256 ^ width) : ofBe (be width n) = n := by
  rw [ofBe, foldl_be, Nat.mul_zero, Nat.zero_add, Nat.mod_eq_of_lt h]

theorem be_inj {width n m : Nat} (small : n < 256 ^ width) (small' : m < 256 ^ width)
    (same : be width n = be width m) : n = m := by
  rw [← ofBe_be small, ← ofBe_be small', same]

theorem be_add_mul (width n k : Nat) : be width (256 ^ width * k + n) = be width n := by
  induction width generalizing k with
  | zero => rfl
  | succ width ih =>
    have pos : 0 < 256 ^ width := Nat.pow_pos (by decide)
    have shifted : 256 ^ (width + 1) * k + n = 256 ^ width * (256 * k) + n := by
      rw [Nat.pow_succ, Nat.mul_assoc]
    have byte : ((256 ^ width * (256 * k) + n) / 256 ^ width).toUInt8 = (n / 256 ^ width).toUInt8 := by
      rw [Nat.mul_add_div pos]
      apply UInt8.toNat_inj.mp
      show (256 * k + n / 256 ^ width) % 256 = n / 256 ^ width % 256
      omega
    rw [shifted, be, be, ih (256 * k), byte]

theorem ofBe_cons (b : UInt8) (bytes : List UInt8) :
    ofBe (b :: bytes) = 256 ^ bytes.length * b.toNat + ofBe bytes := by
  have onto (acc : Nat) : bytes.foldl (fun n b => 256 * n + b.toNat) acc =
      256 ^ bytes.length * acc + ofBe bytes := by
    unfold ofBe
    induction bytes generalizing acc with
    | nil => simp
    | cons c bytes ih =>
      rw [List.foldl_cons, List.foldl_cons, ih, ih (256 * 0 + c.toNat), List.length_cons, Nat.pow_succ,
        Nat.mul_zero, Nat.zero_add, Nat.mul_add, ← Nat.mul_assoc, Nat.add_assoc]
  show bytes.foldl _ (256 * 0 + b.toNat) = _
  rw [onto, Nat.mul_zero, Nat.zero_add]

theorem ofBe_lt (bytes : List UInt8) : ofBe bytes < 256 ^ bytes.length := by
  induction bytes with
  | nil => exact Nat.one_pos
  | cons b bytes ih =>
    have byte := b.toNat_lt
    rw [ofBe_cons, List.length_cons, Nat.pow_succ]
    calc 256 ^ bytes.length * b.toNat + ofBe bytes
        < 256 ^ bytes.length * b.toNat + 256 ^ bytes.length := Nat.add_lt_add_left ih _
      _ = 256 ^ bytes.length * (b.toNat + 1) := (Nat.mul_succ _ _).symm
      _ ≤ 256 ^ bytes.length * 256 := Nat.mul_le_mul_left _ (by omega)

/-- Bytes are what their number spells. -/
theorem be_ofBe (bytes : List UInt8) : be bytes.length (ofBe bytes) = bytes := by
  induction bytes with
  | nil => rfl
  | cons b bytes ih =>
    have pos : 0 < 256 ^ bytes.length := Nat.pow_pos (by decide)
    have byte : ((256 ^ bytes.length * b.toNat + ofBe bytes) / 256 ^ bytes.length).toUInt8 = b := by
      rw [Nat.mul_add_div pos, Nat.div_eq_of_lt (ofBe_lt bytes), Nat.add_zero]
      apply UInt8.toNat_inj.mp
      exact Nat.mod_eq_of_lt b.toNat_lt
    rw [ofBe_cons, List.length_cons, be, byte, be_add_mul, ih]

/-! ## Hex -/

/-- Two digits for each byte. -/
def hexChars : List UInt8 → List Char
  | [] => []
  | b :: bytes => Nat.digitChar (b.toNat / 16) :: Nat.digitChar (b.toNat % 16) :: hexChars bytes

def hex (bytes : List UInt8) : String := String.ofList (hexChars bytes)

/-- Hex text takes a byte for each digit. -/
theorem utf8ByteSize_hex (bytes : List UInt8) : (hex bytes).utf8ByteSize = 2 * bytes.length := by
  induction bytes with
  | nil => rfl
  | cons b bytes ih =>
    have high : b.toNat / 16 < 16 := by
      have := b.toNat_lt
      omega
    have low : b.toNat % 16 < 16 := Nat.mod_lt _ (by decide)
    have digits : hex (b :: bytes) = String.singleton (Nat.digitChar (b.toNat / 16)) ++
        String.singleton (Nat.digitChar (b.toNat % 16)) ++ hex bytes := by
      rw [String.singleton_eq_ofList, String.singleton_eq_ofList, ← String.ofList_append, hex, hex,
        ← String.ofList_append]
      rfl
    rw [digits, String.utf8ByteSize_append, String.utf8ByteSize_append,
      String.utf8ByteSize_singleton, String.utf8ByteSize_singleton,
      Json.utf8Size_digitChar high, Json.utf8Size_digitChar low, ih, List.length_cons]
    omega

end Bytes
