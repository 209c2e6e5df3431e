import Mathlib.Algebra.Ring.Nat
import Mathlib.Data.List.Basic
import Concorrd.Lib.Json

/-!
# Texts as a script sees them

What a script does with its strings: whether one counts as true, its length in UTF-16 units, trimming
and escaping for an address. A string is a list of scalar values, with no lone surrogate. And what it
makes of JSON values: which count as true, and which it has exactly.
-/

/-- Whether a script counts the value as true. A number with a fraction is not zero. -/
def Json.isTruthy : Json → Bool
  | .null => false
  | .bool b => b
  | .num n => n ≠ 0
  | .float _ => true
  | .str s => s ≠ ""
  | .arr _ => true
  | .obj _ => true

namespace Json

mutual

/-- Whether a script has every number of the value as it is. -/
def isExact : Json → Bool
  | .num n => decide (-2 ^ 53 ≤ n ∧ n ≤ 2 ^ 53)
  | .float _ => false
  | .arr items => itemsExact items
  | .obj members => membersExact members
  | .null | .bool _ | .str _ => true

def itemsExact : List Json → Bool
  | [] => true
  | item :: items => item.isExact && itemsExact items

def membersExact : List (String × Json) → Bool
  | [] => true
  | (_, value) :: members => value.isExact && membersExact members

end

end Json

namespace JsText

/-- A text that is there and not empty. -/
def truthy (text : Option String) : Option String := text.filter (· ≠ "")

/-- White space and line terminators. -/
def isSpace (c : Char) : Bool :=
  (0x9 ≤ c.val && c.val ≤ 0xD) || (0x2000 ≤ c.val && c.val ≤ 0x200A) ||
    [0x20, 0xA0, 0x1680, 0x2028, 0x2029, 0x202F, 0x205F, 0x3000, (0xFEFF : UInt32)].contains c.val

def trim (text : String) : String :=
  String.ofList ((text.toList.dropWhile isSpace).reverse.dropWhile isSpace).reverse

/-- The length in UTF-16 units. -/
def length (text : String) : Nat := (text.toList.map fun c => if 0x10000 ≤ c.toNat then 2 else 1).sum

/-- The bytes that `encodeURIComponent` leaves as they are. -/
def isUnreserved (b : UInt8) : Bool :=
  let c := Char.ofNat b.toNat
  c.isAlphanum || ['-', '_', '.', '!', '~', '*', '\'', '(', ')'].contains c

def upperHex (n : Nat) : Char := if n < 10 then Char.ofNat (48 + n) else Char.ofNat (55 + n)

def encodeURIComponent (text : String) : String :=
  String.ofList (text.toUTF8.toList.flatMap fun b =>
    if isUnreserved b then [Char.ofNat b.toNat]
    else ['%', upperHex (b.toNat / 16), upperHex (b.toNat % 16)])

end JsText
