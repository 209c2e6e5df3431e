import Mathlib.Algebra.BigOperators.Group.List.Basic
import Mathlib.Algebra.Ring.Nat
import Concorrd.Lib.Json

/-!
# The text of a JSON value

`Json.write` prints a value without a space: a quote, a backslash and the control characters are
escaped inside a string, every other character stands for itself. `Json.size` counts the bytes from
the value alone, and `utf8ByteSize_write` says that it counts what is printed.
-/

namespace Json

/-- A character inside a string. -/
def escape (c : Char) : String :=
  if c = '"' then "\\\""
  else if c = '\\' then "\\\\"
  else if c = '\x08' then "\\b"
  else if c = '\x0c' then "\\f"
  else if c = '\n' then "\\n"
  else if c = '\r' then "\\r"
  else if c = '\t' then "\\t"
  else if c.toNat < 32 then
    "\\u00" ++ String.singleton (Nat.digitChar (c.toNat / 16)) ++
      String.singleton (Nat.digitChar (c.toNat % 16))
  else String.singleton c

/-- The characters of a string, escaped. -/
def escapeAll : List Char → String
  | [] => ""
  | c :: cs => escape c ++ escapeAll cs

/-- A string in quotes. -/
def quoted (s : String) : String := "\"" ++ escapeAll s.toList ++ "\""

mutual

/-- The text of a value. -/
def write : Json → String
  | null => "null"
  | bool true => "true"
  | bool false => "false"
  | num value => toString value
  | float text => text
  | str value => quoted value
  | arr [] => "[]"
  | arr (item :: items) => "[" ++ write item ++ writeItems items ++ "]"
  | obj [] => "\x7b\x7d"
  | obj ((key, value) :: members) =>
    "\x7b" ++ quoted key ++ ":" ++ write value ++ writeMembers members ++ "\x7d"

/-- The items of an array after its first. -/
def writeItems : List Json → String
  | [] => ""
  | item :: items => "," ++ write item ++ writeItems items

/-- The members of an object after its first. -/
def writeMembers : List (String × Json) → String
  | [] => ""
  | (key, value) :: members => "," ++ quoted key ++ ":" ++ write value ++ writeMembers members

end

theorem write_str (s : String) : write (.str s) = quoted s := by
  rw [write]

/-! ## Sizes -/

/-- The bytes a character takes inside a string. -/
def charSize (c : Char) : Nat :=
  if c ∈ ['"', '\\', '\x08', '\x0c', '\n', '\r', '\t'] then 2
  else if c.toNat < 32 then 6
  else c.utf8Size

/-- The bytes of a string in quotes. -/
def textSize (s : String) : Nat := 2 + (s.toList.map charSize).sum

/-- The bytes of a number. -/
def numSize (value : Int) : Nat := (toString value).utf8ByteSize

mutual

/-- The bytes of a value. -/
def size : Json → Nat
  | null => 4
  | bool true => 4
  | bool false => 5
  | num value => numSize value
  | float text => text.utf8ByteSize
  | str value => textSize value
  | arr items => 2 + (itemsSize items - 1)
  | obj members => 2 + (membersSize members - 1)

/-- The bytes of items, each with a comma. -/
def itemsSize : List Json → Nat
  | [] => 0
  | item :: items => 1 + size item + itemsSize items

/-- The bytes of members, each with a comma. -/
def membersSize : List (String × Json) → Nat
  | [] => 0
  | (key, value) :: members => 2 + textSize key + size value + membersSize members

end

theorem utf8Size_digitChar {n : Nat} (h : n < 16) : (Nat.digitChar n).utf8Size = 1 := by
  have all : ∀ m ∈ List.range 16, (Nat.digitChar m).utf8Size = 1 := by decide
  exact all n (List.mem_range.mpr h)

theorem utf8ByteSize_escape (c : Char) : (escape c).utf8ByteSize = charSize c := by
  unfold escape charSize
  by_cases short : c ∈ ['"', '\\', '\x08', '\x0c', '\n', '\r', '\t']
  · rw [if_pos short]
    simp only [List.mem_cons, List.not_mem_nil, or_false] at short
    rcases short with rfl | rfl | rfl | rfl | rfl | rfl | rfl
    all_goals rfl
  · rw [if_neg short]
    simp only [List.mem_cons, List.not_mem_nil, or_false, not_or] at short
    obtain ⟨h₁, h₂, h₃, h₄, h₅, h₆, h₇⟩ := short
    rw [if_neg h₁, if_neg h₂, if_neg h₃, if_neg h₄, if_neg h₅, if_neg h₆, if_neg h₇]
    split
    · rename_i low
      rw [String.utf8ByteSize_append, String.utf8ByteSize_append, String.utf8ByteSize_singleton,
        String.utf8ByteSize_singleton, utf8Size_digitChar (by omega),
        utf8Size_digitChar (Nat.mod_lt _ (by omega))]
      rfl
    · exact String.utf8ByteSize_singleton

theorem utf8ByteSize_escapeAll (cs : List Char) :
    (escapeAll cs).utf8ByteSize = (cs.map charSize).sum := by
  induction cs with
  | nil => rfl
  | cons c cs ih =>
    rw [escapeAll, String.utf8ByteSize_append, utf8ByteSize_escape, ih, List.map_cons,
      List.sum_cons]

theorem utf8ByteSize_quoted (s : String) : (quoted s).utf8ByteSize = textSize s := by
  have quote : "\"".utf8ByteSize = 1 := rfl
  rw [quoted, String.utf8ByteSize_append, String.utf8ByteSize_append, utf8ByteSize_escapeAll, quote,
    textSize]
  omega

mutual

/-- The size is what the printer writes. -/
theorem utf8ByteSize_write : (value : Json) → (write value).utf8ByteSize = size value
  | null => rfl
  | bool true => rfl
  | bool false => rfl
  | num _ => rfl
  | float _ => rfl
  | str value => utf8ByteSize_quoted value
  | arr [] => rfl
  | arr (item :: items) => by
    rw [write, size, itemsSize]
    simp only [String.utf8ByteSize_append, utf8ByteSize_write item, utf8ByteSize_writeItems items]
    have brackets : "[".utf8ByteSize = 1 ∧ "]".utf8ByteSize = 1 := ⟨rfl, rfl⟩
    omega
  | obj [] => rfl
  | obj ((key, value) :: members) => by
    rw [write, size, membersSize]
    simp only [String.utf8ByteSize_append, utf8ByteSize_quoted, utf8ByteSize_write value,
      utf8ByteSize_writeMembers members]
    have braces : "\x7b".utf8ByteSize = 1 ∧ ":".utf8ByteSize = 1 ∧ "\x7d".utf8ByteSize = 1 :=
      ⟨rfl, rfl, rfl⟩
    omega

theorem utf8ByteSize_writeItems :
    (items : List Json) → (writeItems items).utf8ByteSize = itemsSize items
  | [] => rfl
  | item :: items => by
    rw [writeItems, itemsSize]
    simp only [String.utf8ByteSize_append, utf8ByteSize_write item, utf8ByteSize_writeItems items]
    have comma : ",".utf8ByteSize = 1 := rfl
    omega

theorem utf8ByteSize_writeMembers :
    (members : List (String × Json)) → (writeMembers members).utf8ByteSize = membersSize members
  | [] => rfl
  | (key, value) :: members => by
    rw [writeMembers, membersSize]
    simp only [String.utf8ByteSize_append, utf8ByteSize_quoted, utf8ByteSize_write value,
      utf8ByteSize_writeMembers members]
    have marks : ",".utf8ByteSize = 1 ∧ ":".utf8ByteSize = 1 := ⟨rfl, rfl⟩
    omega

end

/-- The items of an array that comes from a list, each with its comma. -/
theorem itemsSize_map {α : Type*} (f : α → Json) (l : List α) :
    itemsSize (l.map f) = (l.map fun a => 1 + size (f a)).sum := by
  induction l with
  | nil => rfl
  | cons a l ih => rw [List.map_cons, itemsSize, ih, List.map_cons, List.sum_cons]

theorem utf8ByteSize_replicate (c : Char) (n : Nat) :
    (String.ofList (List.replicate n c)).utf8ByteSize = n * c.utf8Size := by
  induction n with
  | zero => rw [Nat.zero_mul]; rfl
  | succ n ih =>
    rw [List.replicate_succ, ← List.singleton_append, String.ofList_append,
      String.utf8ByteSize_append, ih, ← String.singleton_eq_ofList, String.utf8ByteSize_singleton,
      Nat.succ_mul, Nat.add_comm]

/-- A text whose characters all take the same room. -/
theorem textSize_replicate (c : Char) (n : Nat) :
    textSize (String.ofList (List.replicate n c)) = 2 + n * charSize c := by
  rw [textSize, String.toList_ofList, List.map_replicate, List.sum_replicate_nat]

/-! ## Bounds -/

theorem charSize_le (c : Char) : charSize c ≤ 6 := by
  have small := c.utf8Size_le_four
  unfold charSize
  split
  · decide
  · split <;> omega

/-- A text takes six bytes a character at most. -/
theorem textSize_le (s : String) : textSize s ≤ 2 + 6 * s.length := by
  have sum (cs : List Char) : (cs.map charSize).sum ≤ 6 * cs.length := by
    induction cs with
    | nil => exact le_rfl
    | cons c cs ih =>
      have small := charSize_le c
      rw [List.map_cons, List.sum_cons, List.length_cons]
      omega
  have own := sum s.toList
  rw [String.length_toList] at own
  unfold textSize
  omega

theorem utf8ByteSize_le (s : String) : s.utf8ByteSize ≤ 4 * s.length := by
  have all (cs : List Char) : (String.ofList cs).utf8ByteSize ≤ 4 * cs.length := by
    induction cs with
    | nil => exact le_rfl
    | cons c cs ih =>
      have small := c.utf8Size_le_four
      rw [← List.singleton_append, String.ofList_append, String.utf8ByteSize_append,
        ← String.singleton_eq_ofList, String.utf8ByteSize_singleton, List.length_append,
        List.length_singleton]
      omega
  have own := all s.toList
  rwa [String.ofList_toList, String.length_toList] at own

/-- A number of so many digits. -/
theorem numSize_le {value : Int} {digits : Nat} (pos : 0 < digits) (small : value.natAbs < 10 ^ digits) :
    numSize value ≤ 4 * (digits + 1) := by
  unfold numSize
  cases value with
  | ofNat n =>
    have short := (Nat.length_repr_le_iff pos).mpr small
    have bytes := utf8ByteSize_le n.repr
    change n.repr.length ≤ _ at short
    show n.repr.utf8ByteSize ≤ _
    omega
  | negSucc n =>
    have short := (Nat.length_repr_le_iff pos).mpr small
    have bytes := utf8ByteSize_le n.succ.repr
    show ("-" ++ n.succ.repr).utf8ByteSize ≤ _
    rw [String.utf8ByteSize_append]
    have minus : "-".utf8ByteSize = 1 := rfl
    change n.succ.repr.length ≤ _ at short
    omega
end Json
