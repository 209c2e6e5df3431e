import Mathlib.Logic.Basic

/-!
# Text

Trimming as the source's string type does it: by the characters with the Unicode
White_Space property.
-/

namespace Concorrd

/-- The White_Space property. -/
def isWhitespace (c : Char) : Bool :=
  (0x9 ≤ c.val && c.val ≤ 0xD) || (0x2000 ≤ c.val && c.val ≤ 0x200A) ||
    c.val ∈ [0x20, 0x85, 0xA0, 0x1680, 0x2028, 0x2029, 0x202F, 0x205F, (0x3000 : UInt32)]

/-- The text without leading and trailing whitespace. -/
def trim (s : String) : String :=
  String.ofList ((s.toList.dropWhile isWhitespace).reverse.dropWhile isWhitespace).reverse

end Concorrd
