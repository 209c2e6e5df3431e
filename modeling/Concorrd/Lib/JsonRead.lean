import Concorrd.Lib.JsonText

/-!
# Reading JSON

The grammar of JSON over characters, some of which may be unreadable. A string is kept as the pieces
it is written in: what a piece stands for depends on who reads it. `unitsOf` is a string of UTF-16
code units, where an unreadable character is the replacement character; `textOf` is a string of
characters, which has to be readable and must not have half of a surrogate pair. Members of an object
are kept in order with all their keys.

`unitsOf_of_textOf` says that both read one string where both can, `string_quoted` that a string is
read back from its text. Values take fuel, and `value_fuel` says that `read` gives enough.
-/

namespace JsonRead

/-- Characters, `none` where the bytes were none. -/
abbrev Text := List (Option Char)

/-- A piece of a string: a character, an unreadable one, or a code unit written in hex. -/
inductive Piece where
  | char (c : Char)
  | bad
  | unit (u : UInt16)
  deriving DecidableEq, Repr

/-- A value. A number is not looked at. -/
inductive Value where
  | null
  | bool (value : Bool)
  | num
  | str (pieces : List Piece)
  | arr (items : List Value)
  | obj (members : List (List Piece × Value))

/-! ## The grammar -/

def isWs (c : Char) : Bool := c = ' ' || c = '\t' || c = '\n' || c = '\r'

def skipWs : Text → Text
  | [] => []
  | none :: cs => none :: cs
  | some c :: cs => if isWs c then skipWs cs else some c :: cs

/-- The value of a hex digit. -/
def hexDigit : Option Char → Option Nat
  | none => none
  | some c =>
    if '0' ≤ c ∧ c ≤ '9' then some (c.toNat - '0'.toNat)
    else if 'a' ≤ c ∧ c ≤ 'f' then some (c.toNat - 'a'.toNat + 10)
    else if 'A' ≤ c ∧ c ≤ 'F' then some (c.toNat - 'A'.toNat + 10)
    else none

/-- A code unit in four digits. -/
def hexUnit (a b c d : Option Char) : Option UInt16 := do
  let a ← hexDigit a
  let b ← hexDigit b
  let c ← hexDigit c
  let d ← hexDigit d
  return UInt16.ofNat (4096 * a + 256 * b + 16 * c + d)

/-- What stands behind a backslash, the hex form apart. -/
def simpleEscape (c : Char) : Option Char :=
  if c = '"' ∨ c = '\\' ∨ c = '/' then some c
  else if c = 'b' then some '\x08'
  else if c = 'f' then some '\x0c'
  else if c = 'n' then some '\n'
  else if c = 'r' then some '\r'
  else if c = 't' then some '\t'
  else none

def push (piece : Piece) (r : List Piece × Text) : List Piece × Text := (piece :: r.1, r.2)

/-- A string behind its first quote. -/
def string : Text → Option (List Piece × Text)
  | [] => none
  | none :: cs => (string cs).map (push .bad)
  | some '"' :: cs => some ([], cs)
  | some '\\' :: some 'u' :: a :: b :: c :: d :: cs =>
    (hexUnit a b c d).bind fun u => (string cs).map (push (.unit u))
  | some '\\' :: some e :: cs => (simpleEscape e).bind fun c => (string cs).map (push (.char c))
  | some '\\' :: _ => none
  | some c :: cs => if c.toNat < 32 then none else (string cs).map (push (.char c))

def skipDigits : Text → Text
  | [] => []
  | none :: cs => none :: cs
  | some c :: cs => if c.isDigit then skipDigits cs else some c :: cs

/-- At least one digit. -/
def digits : Text → Option Text
  | some c :: cs => if c.isDigit then some (skipDigits cs) else none
  | _ => none

/-- The part in front of the point: a zero stands alone. -/
def integer : Text → Option Text
  | some '0' :: cs => some cs
  | cs => digits cs

def fraction : Text → Option Text
  | some '.' :: cs => digits cs
  | cs => some cs

def signedDigits : Text → Option Text
  | some '+' :: cs => digits cs
  | some '-' :: cs => digits cs
  | cs => digits cs

def exponent : Text → Option Text
  | some 'e' :: cs => signedDigits cs
  | some 'E' :: cs => signedDigits cs
  | cs => some cs

def number : Text → Option Text
  | some '-' :: cs => (integer cs).bind fun cs => (fraction cs).bind exponent
  | cs => (integer cs).bind fun cs => (fraction cs).bind exponent

/-- A value that is no string, array or object. -/
def scalar : Text → Option (Value × Text)
  | some 'n' :: some 'u' :: some 'l' :: some 'l' :: cs => some (.null, cs)
  | some 't' :: some 'r' :: some 'u' :: some 'e' :: cs => some (.bool true, cs)
  | some 'f' :: some 'a' :: some 'l' :: some 's' :: some 'e' :: cs => some (.bool false, cs)
  | cs => (number cs).map fun cs => (.num, cs)

/-- A key with its colon. -/
def key (cs : Text) : Option (List Piece × Text) :=
  match skipWs cs with
  | some '"' :: cs =>
    (string cs).bind fun r =>
      match skipWs r.2 with
      | some ':' :: cs => some (r.1, cs)
      | _ => none
  | _ => none

/-- A value, given how items and members are read. -/
def valueWith (items : Text → Option (List Value × Text))
    (members : Text → Option (List (List Piece × Value) × Text)) (cs : Text) : Option (Value × Text) :=
  match skipWs cs with
  | some '\x7b' :: cs =>
    match skipWs cs with
    | some '\x7d' :: cs => some (.obj [], cs)
    | cs => (members cs).map fun r => (.obj r.1, r.2)
  | some '[' :: cs =>
    match skipWs cs with
    | some ']' :: cs => some (.arr [], cs)
    | cs => (items cs).map fun r => (.arr r.1, r.2)
  | some '"' :: cs => (string cs).map fun r => (.str r.1, r.2)
  | cs => scalar cs

/-- What follows an item: the bracket, or a comma and more items. -/
def moreItems (items : Text → Option (List Value × Text)) (item : Value) (cs : Text) :
    Option (List Value × Text) :=
  match skipWs cs with
  | some ']' :: cs => some ([item], cs)
  | some ',' :: cs => (items cs).map fun t => (item :: t.1, t.2)
  | _ => none

/-- What follows a member: the brace, or a comma and more members. -/
def moreMembers (members : Text → Option (List (List Piece × Value) × Text))
    (member : List Piece × Value) (cs : Text) : Option (List (List Piece × Value) × Text) :=
  match skipWs cs with
  | some '\x7d' :: cs => some ([member], cs)
  | some ',' :: cs => (members cs).map fun t => (member :: t.1, t.2)
  | _ => none

mutual

def value : Nat → Text → Option (Value × Text)
  | 0, _ => none
  | n + 1, cs => valueWith (items n) (members n) cs

/-- One item or more, up to the bracket. -/
def items : Nat → Text → Option (List Value × Text)
  | 0, _ => none
  | n + 1, cs => (value n cs).bind fun r => moreItems (items n) r.1 r.2

/-- One member or more, up to the brace. -/
def members : Nat → Text → Option (List (List Piece × Value) × Text)
  | 0, _ => none
  | n + 1, cs =>
    (key cs).bind fun k => (value n k.2).bind fun r => moreMembers (members n) (k.1, r.1) r.2

end

/-- A whole text. -/
def read (cs : Text) : Option Value :=
  (value (2 * cs.length + 2) cs).bind fun r => if skipWs r.2 = [] then some r.1 else none

/-! ## Strings -/

/-- A character in UTF-16. -/
def utf16Char (c : Char) : List Nat :=
  if c.toNat < 0x10000 then [c.toNat]
  else [0xD800 + (c.toNat - 0x10000) / 1024, 0xDC00 + (c.toNat - 0x10000) % 1024]

def utf16 (s : String) : List Nat := s.toList.flatMap utf16Char

def Piece.units : Piece → List Nat
  | .char c => utf16Char c
  | .bad => [0xFFFD]
  | .unit u => [u.toNat]

/-- The code units of a string. -/
def unitsOf (pieces : List Piece) : List Nat := pieces.flatMap Piece.units

def isHigh (u : UInt16) : Bool := 0xD800 ≤ u && u ≤ 0xDBFF

def isLow (u : UInt16) : Bool := 0xDC00 ≤ u && u ≤ 0xDFFF

/-- The character of a surrogate pair. -/
def pair (high low : UInt16) : Char :=
  Char.ofNat (0x10000 + (high.toNat - 0xD800) * 1024 + (low.toNat - 0xDC00))

/-- The characters of a string. -/
def charsOf : List Piece → Option (List Char)
  | [] => some []
  | .bad :: _ => none
  | .char c :: ps => (charsOf ps).map (c :: ·)
  | .unit u :: .unit v :: ps =>
    if isHigh u then if isLow v then (charsOf ps).map (pair u v :: ·) else none
    else if isLow u then none
    else (charsOf (.unit v :: ps)).map (Char.ofNat u.toNat :: ·)
  | .unit u :: ps => if isHigh u || isLow u then none else (charsOf ps).map (Char.ofNat u.toNat :: ·)

def textOf (pieces : List Piece) : Option String := (charsOf pieces).map String.ofList

theorem toNat_ofNat {n : Nat} (valid : n.isValidChar) : (Char.ofNat n).toNat = n := by
  rw [Char.ofNat, dif_pos valid]
  rfl

theorem utf16Char_ofNat {n : Nat} (small : n < 0x10000) (valid : n < 0xD800 ∨ 0xDFFF < n) :
    utf16Char (Char.ofNat n) = [n] := by
  have valid : n.isValidChar := by
    simp only [Nat.isValidChar]
    omega
  rw [utf16Char, toNat_ofNat valid, if_pos small]

theorem isHigh_eq_true {u : UInt16} : isHigh u = true ↔ 0xD800 ≤ u.toNat ∧ u.toNat ≤ 0xDBFF := by
  simp [isHigh, UInt16.le_iff_toNat_le]

theorem isLow_eq_true {u : UInt16} : isLow u = true ↔ 0xDC00 ≤ u.toNat ∧ u.toNat ≤ 0xDFFF := by
  simp [isLow, UInt16.le_iff_toNat_le]

theorem utf16Char_pair {u v : UInt16} (high : isHigh u = true) (low : isLow v = true) :
    utf16Char (pair u v) = [u.toNat, v.toNat] := by
  have high := isHigh_eq_true.mp high
  have low := isLow_eq_true.mp low
  have valid : (0x10000 + (u.toNat - 0xD800) * 1024 + (v.toNat - 0xDC00)).isValidChar := by
    simp only [Nat.isValidChar]
    omega
  rw [utf16Char, pair, toNat_ofNat valid, if_neg (by omega)]
  simp only [List.cons.injEq, and_true]
  omega

theorem utf16Char_unit {u : UInt16} (high : isHigh u = false) (low : isLow u = false) :
    utf16Char (Char.ofNat u.toNat) = [u.toNat] := by
  have bound := u.toNat_lt
  have high := mt isHigh_eq_true.mpr (by rw [high]; decide)
  have low := mt isLow_eq_true.mpr (by rw [low]; decide)
  exact utf16Char_ofNat bound (by omega)

/-- The code units of a readable string are those of its characters. -/
theorem unitsOf_of_charsOf {ps : List Piece} {cs : List Char} (h : charsOf ps = some cs) :
    unitsOf ps = cs.flatMap utf16Char := by
  have unit {u : UInt16} {ps : List Piece} {cs : List Char} (high : isHigh u = false)
      (low : isLow u = false) (rest : unitsOf ps = cs.flatMap utf16Char) :
      unitsOf (.unit u :: ps) = (Char.ofNat u.toNat :: cs).flatMap utf16Char := by
    rw [unitsOf, List.flatMap_cons, List.flatMap_cons, utf16Char_unit high low, ← rest]
    rfl
  induction ps using charsOf.induct generalizing cs with
  | case1 =>
    cases h
    rfl
  | case2 ps => cases h
  | case3 c ps ih =>
    obtain ⟨cs, rest, rfl⟩ := Option.map_eq_some_iff.mp h
    rw [unitsOf, List.flatMap_cons, List.flatMap_cons, ← ih rest]
    rfl
  | case4 u v ps high low ih =>
    rw [charsOf, if_pos high, if_pos low] at h
    obtain ⟨cs, rest, rfl⟩ := Option.map_eq_some_iff.mp h
    rw [unitsOf, List.flatMap_cons, List.flatMap_cons, List.flatMap_cons, utf16Char_pair high low,
      ← ih rest]
    rfl
  | case5 u v ps high low =>
    rw [charsOf, if_pos high, if_neg low] at h
    cases h
  | case6 u v ps high low =>
    rw [charsOf, if_neg high, if_pos low] at h
    cases h
  | case7 u v ps high low ih =>
    rw [charsOf, if_neg high, if_neg low] at h
    obtain ⟨cs, rest, rfl⟩ := Option.map_eq_some_iff.mp h
    exact unit (Bool.not_eq_true _ ▸ high) (Bool.not_eq_true _ ▸ low) (ih rest)
  | case8 u ps last surrogate =>
    rw [charsOf, if_pos surrogate] at h
    · cases h
    · exact last
  | case9 u ps last surrogate ih =>
    rw [charsOf, if_neg surrogate] at h
    · obtain ⟨cs, rest, rfl⟩ := Option.map_eq_some_iff.mp h
      simp only [Bool.or_eq_true, not_or, Bool.not_eq_true] at surrogate
      exact unit surrogate.1 surrogate.2 (ih rest)
    · exact last

theorem unitsOf_of_textOf {ps : List Piece} {s : String} (h : textOf ps = some s) :
    unitsOf ps = utf16 s := by
  obtain ⟨cs, chars, rfl⟩ := Option.map_eq_some_iff.mp h
  rw [utf16, String.toList_ofList, unitsOf_of_charsOf chars]

/-- A character is known from the beginning of its code units. -/
theorem utf16Char_append_inj {c d : Char} {us vs : List Nat}
    (h : utf16Char c ++ us = utf16Char d ++ vs) : c = d ∧ us = vs := by
  have validC : c.toNat < 0xD800 ∨ 0xDFFF < c.toNat ∧ c.toNat < 0x110000 := c.valid
  have validD : d.toNat < 0xD800 ∨ 0xDFFF < d.toNat ∧ d.toNat < 0x110000 := d.valid
  have same (h : c.toNat = d.toNat) : c = d := Char.toNat_inj.mp h
  unfold utf16Char at h
  split at h <;> split at h <;> simp only [List.cons_append, List.nil_append, List.cons.injEq] at h
  · exact ⟨same h.1, h.2⟩
  · omega
  · omega
  · exact ⟨same (by omega), h.2.2⟩

theorem utf16_inj {s t : String} : utf16 s = utf16 t ↔ s = t := by
  have chars (cs ds : List Char) (h : cs.flatMap utf16Char = ds.flatMap utf16Char) : cs = ds := by
    induction cs generalizing ds with
    | nil =>
      cases ds with
      | nil => rfl
      | cons d ds =>
        rw [List.flatMap_cons, utf16Char] at h
        split at h <;> cases h
    | cons c cs ih =>
      cases ds with
      | nil =>
        rw [List.flatMap_cons, utf16Char] at h
        split at h <;> cases h
      | cons d ds =>
        rw [List.flatMap_cons, List.flatMap_cons] at h
        obtain ⟨rfl, rest⟩ := utf16Char_append_inj h
        rw [ih ds rest]
  refine ⟨fun h => ?_, fun h => h ▸ rfl⟩
  exact String.toList_inj.mp (chars _ _ h)

/-! ## What is printed is read -/

/-- The piece that a character is printed as. -/
def pieceOf (c : Char) : Piece :=
  if c ∉ ['\x08', '\x0c', '\n', '\r', '\t'] ∧ c.toNat < 32 then .unit (UInt16.ofNat c.toNat)
  else .char c

theorem string_char {c : Char} (quote : c ≠ '"') (backslash : c ≠ '\\') (visible : ¬c.toNat < 32)
    (rest : Text) : string (some c :: rest) = (string rest).map (push (.char c)) := by
  rw [string.eq_def]
  split
  · rename_i h
    cases h
  · rename_i h
    cases h
  · rename_i h
    cases h
    exact absurd rfl quote
  · rename_i h
    cases h
    exact absurd rfl backslash
  · rename_i h
    cases h
    exact absurd rfl backslash
  · rename_i h
    cases h
    exact absurd rfl backslash
  · rename_i h
    cases h
    rw [if_neg visible]

theorem string_unit {a b c d : Char} {u : UInt16}
    (h : hexUnit (some a) (some b) (some c) (some d) = some u) (rest : Text) :
    string (some '\\' :: some 'u' :: some a :: some b :: some c :: some d :: rest) =
      (string rest).map (push (.unit u)) := by
  rw [string, h]
  rfl

theorem hexUnit_control {n : Nat} (small : n < 32) :
    hexUnit (some '0') (some '0') (some (Nat.digitChar (n / 16))) (some (Nat.digitChar (n % 16))) =
      some (UInt16.ofNat n) := by
  have all : ∀ m ∈ List.range 32, hexUnit (some '0') (some '0') (some (Nat.digitChar (m / 16)))
      (some (Nat.digitChar (m % 16))) = some (UInt16.ofNat m) := by decide
  exact all n (List.mem_range.mpr small)

/-- A printed character is read as its piece. -/
theorem string_escape (c : Char) (rest : Text) :
    string ((Json.escape c).toList.map some ++ rest) = (string rest).map (push (pieceOf c)) := by
  unfold Json.escape pieceOf
  by_cases short : c ∈ ['"', '\\', '\x08', '\x0c', '\n', '\r', '\t']
  · simp only [List.mem_cons, List.not_mem_nil, or_false] at short
    rcases short with rfl | rfl | rfl | rfl | rfl | rfl | rfl
    all_goals rfl
  · simp only [List.mem_cons, List.not_mem_nil, or_false, not_or] at short
    obtain ⟨h₁, h₂, h₃, h₄, h₅, h₆, h₇⟩ := short
    rw [if_neg h₁, if_neg h₂, if_neg h₃, if_neg h₄, if_neg h₅, if_neg h₆, if_neg h₇]
    have other : c ∉ ['\x08', '\x0c', '\n', '\r', '\t'] := by
      simp [h₃, h₄, h₅, h₆, h₇]
    by_cases control : c.toNat < 32
    · rw [if_pos control, if_pos ⟨other, control⟩, ← string_unit (hexUnit_control control) rest]
      simp only [String.toList_append, String.toList_singleton, List.map_append, List.append_assoc]
      rfl
    · rw [if_neg control, if_neg fun h => control h.2, String.toList_singleton]
      exact string_char h₁ h₂ control rest

theorem string_escapeAll (cs : List Char) (rest : Text) :
    string ((Json.escapeAll cs).toList.map some ++ some '"' :: rest) =
      some (cs.map pieceOf, rest) := by
  induction cs with
  | nil => rfl
  | cons c cs ih =>
    rw [Json.escapeAll, String.toList_append, List.map_append, List.append_assoc, string_escape, ih]
    rfl

theorem charsOf_unit {u : UInt16} (high : isHigh u = false) (low : isLow u = false)
    (ps : List Piece) : charsOf (.unit u :: ps) = (charsOf ps).map (Char.ofNat u.toNat :: ·) := by
  cases ps with
  | nil => simp [charsOf, high, low]
  | cons p ps => cases p <;> simp [charsOf, high, low]

theorem charsOf_pieces (cs : List Char) : charsOf (cs.map pieceOf) = some cs := by
  induction cs with
  | nil => rfl
  | cons c cs ih =>
    rw [List.map_cons, pieceOf]
    split
    · rename_i control
      have small : (UInt16.ofNat c.toNat).toNat = c.toNat :=
        UInt16.toNat_ofNat_of_lt' (show c.toNat < 65536 by omega)
      rw [charsOf_unit, ih, small, Char.ofNat_toNat]
      · rfl
      · exact Bool.not_eq_true _ ▸ fun h => by have := isHigh_eq_true.mp h; omega
      · exact Bool.not_eq_true _ ▸ fun h => by have := isLow_eq_true.mp h; omega
    · rw [charsOf, ih]
      rfl

/-- The pieces that a text is printed as. -/
def piecesOf (s : String) : List Piece := s.toList.map pieceOf

theorem textOf_piecesOf (s : String) : textOf (piecesOf s) = some s := by
  rw [textOf, piecesOf, charsOf_pieces, Option.map_some, String.ofList_toList]

theorem unitsOf_piecesOf (s : String) : unitsOf (piecesOf s) = utf16 s :=
  unitsOf_of_textOf (textOf_piecesOf s)

/-- The characters of a text, all readable. -/
def readable (s : String) : Text := s.toList.map some

theorem readable_append (s t : String) : readable (s ++ t) = readable s ++ readable t := by
  rw [readable, String.toList_append, List.map_append]
  rfl

theorem readable_ofList (cs : List Char) : readable (String.ofList cs) = cs.map some := by
  rw [readable, String.toList_ofList]

theorem readable_obj (key : String) (v : Json) (members : List (String × Json)) :
    readable (Json.write (.obj ((key, v) :: members))) =
      some '\x7b' :: (readable (Json.quoted key) ++ some ':' ::
        (readable v.write ++ (readable (Json.writeMembers members) ++ [some '\x7d']))) := by
  simp only [Json.write, readable_append, List.append_assoc]
  repeat rw [readable_ofList]
  rfl

theorem readable_members_nil : readable (Json.writeMembers []) = [] := rfl

theorem readable_members_cons (key : String) (v : Json) (members : List (String × Json)) :
    readable (Json.writeMembers ((key, v) :: members)) =
      some ',' :: (readable (Json.quoted key) ++ some ':' ::
        (readable v.write ++ readable (Json.writeMembers members))) := by
  simp only [Json.writeMembers, readable_append, List.append_assoc]
  repeat rw [readable_ofList]
  rfl

theorem readable_quoted (s : String) (rest : Text) : readable (Json.quoted s) ++ rest =
    some '"' :: ((Json.escapeAll s.toList).toList.map some ++ some '"' :: rest) := by
  rw [Json.quoted, readable_append, readable_append, List.append_assoc, List.append_assoc]
  rfl

theorem value_quoted (n : Nat) (s : String) (rest : Text) :
    value (n + 1) (readable (Json.quoted s) ++ rest) = some (.str (piecesOf s), rest) := by
  rw [readable_quoted, value, valueWith]
  simp only [skipWs, show isWs '"' = false by decide, Bool.false_eq_true, if_false]
  rw [string_escapeAll]
  rfl

/-- A string in quotes ends where its quotes say. -/
theorem quoted_append_inj {s t u v : String} (same : Json.quoted s ++ u = Json.quoted t ++ v) :
    s = t ∧ u = v := by
  have texts : readable (Json.quoted s) ++ readable u = readable (Json.quoted t) ++ readable v := by
    rw [← readable_append, ← readable_append, same]
  have read := value_quoted 0 s (readable u)
  rw [texts, value_quoted] at read
  injection read with read
  injection read with strings rests
  injection strings with pieces
  have texts : some t = some s := by rw [← textOf_piecesOf, ← textOf_piecesOf, pieces]
  refine ⟨(Option.some.inj texts).symm, String.toList_inj.mp ?_⟩
  exact ((List.map_inj_right fun _ _ => Option.some.inj).mp rests).symm

theorem key_quoted (s : String) (rest : Text) :
    key (readable (Json.quoted s) ++ some ':' :: rest) = some (piecesOf s, rest) := by
  rw [readable_quoted, key]
  simp only [skipWs, show isWs '"' = false by decide, Bool.false_eq_true, if_false]
  rw [string_escapeAll]
  rfl

/-- An array or an object that begins with a string. -/
theorem valueWith_array (items : Text → Option (List Value × Text))
    (members : Text → Option (List (List Piece × Value) × Text)) (s : String) (rest : Text) :
    valueWith items members (some '[' :: (readable (Json.quoted s) ++ rest)) =
      (items (readable (Json.quoted s) ++ rest)).map fun r => (.arr r.1, r.2) := by
  rw [readable_quoted]
  rfl

theorem valueWith_object (items : Text → Option (List Value × Text))
    (members : Text → Option (List (List Piece × Value) × Text)) (s : String) (rest : Text) :
    valueWith items members (some '\x7b' :: (readable (Json.quoted s) ++ rest)) =
      (members (readable (Json.quoted s) ++ rest)).map fun r => (.obj r.1, r.2) := by
  rw [readable_quoted]
  rfl

theorem moreItems_close (items : Text → Option (List Value × Text)) (item : Value) (rest : Text) :
    moreItems items item (some ']' :: rest) = some ([item], rest) := rfl

theorem moreItems_comma (items : Text → Option (List Value × Text)) (item : Value) (rest : Text) :
    moreItems items item (some ',' :: rest) = (items rest).map fun t => (item :: t.1, t.2) := rfl

theorem moreMembers_close (members : Text → Option (List (List Piece × Value) × Text))
    (member : List Piece × Value) (rest : Text) :
    moreMembers members member (some '\x7d' :: rest) = some ([member], rest) := rfl

theorem moreMembers_comma (members : Text → Option (List (List Piece × Value) × Text))
    (member : List Piece × Value) (rest : Text) :
    moreMembers members member (some ',' :: rest) =
      (members rest).map fun t => (member :: t.1, t.2) := rfl

/-- The texts of an array behind the first. -/
theorem items_texts (texts : List String) (s : String) {n : Nat} (enough : texts.length + 2 ≤ n)
    (rest : Text) :
    items n (readable (Json.quoted s ++ Json.writeItems (texts.map .str) ++ "]") ++ rest) =
      some ((s :: texts).map fun t => .str (piecesOf t), rest) := by
  induction texts generalizing s n with
  | nil =>
    obtain ⟨n, rfl⟩ := Nat.exists_eq_add_of_le' enough
    rw [readable_append, readable_append, List.append_assoc, List.append_assoc]
    show items (n + 1 + 1) (readable (Json.quoted s) ++ some ']' :: rest) = _
    rw [items, value_quoted, Option.bind_some, moreItems_close]
    rfl
  | cons t texts ih =>
    obtain ⟨n, rfl⟩ := Nat.exists_eq_add_of_le' enough
    have tail : readable (Json.quoted s ++ Json.writeItems ((t :: texts).map .str) ++ "]") ++ rest =
        readable (Json.quoted s) ++ some ',' ::
          (readable (Json.quoted t ++ Json.writeItems (texts.map .str) ++ "]") ++ rest) := by
      simp only [List.map_cons, Json.writeItems, Json.write, readable_append, List.append_assoc]
      rfl
    rw [tail, show n + ((t :: texts).length + 2) = n + texts.length + 2 + 1 by
      simp only [List.length_cons]; omega, items, value_quoted, Option.bind_some, moreItems_comma,
      ih t (by omega)]
    rfl

theorem value_texts (texts : List String) {n : Nat} (enough : texts.length + 2 ≤ n) (rest : Text) :
    value n (readable (Json.write (.arr (texts.map .str))) ++ rest) =
      some (.arr (texts.map fun t => .str (piecesOf t)), rest) := by
  obtain ⟨n, rfl⟩ := Nat.exists_eq_add_of_le' (show 1 ≤ n by omega)
  cases texts with
  | nil => rfl
  | cons t texts =>
    have inner := items_texts texts t (show texts.length + 2 ≤ n by
      simp only [List.length_cons] at enough; omega) rest
    have split : readable (Json.quoted t ++ Json.writeItems (texts.map .str) ++ "]") ++ rest =
        readable (Json.quoted t) ++
          (readable (Json.writeItems (texts.map .str) ++ "]") ++ rest) := by
      simp only [readable_append, List.append_assoc]
    have whole : readable (Json.write (.arr ((t :: texts).map .str))) ++ rest = some '[' ::
        (readable (Json.quoted t) ++ (readable (Json.writeItems (texts.map .str) ++ "]") ++ rest)) := by
      simp only [List.map_cons, Json.write, readable_append, List.append_assoc]
      rfl
    rw [whole, value, valueWith_array, ← split, inner]
    rfl

/-! ## Fuel -/

theorem length_skipWs (cs : Text) : (skipWs cs).length ≤ cs.length := by
  induction cs with
  | nil => exact Nat.le_refl 0
  | cons c cs ih =>
    cases c with
    | none => exact Nat.le_refl _
    | some c =>
      rw [skipWs]
      split
      · exact Nat.le_succ_of_le ih
      · exact Nat.le_refl _

theorem length_skipDigits (cs : Text) : (skipDigits cs).length ≤ cs.length := by
  induction cs with
  | nil => exact Nat.le_refl 0
  | cons c cs ih =>
    cases c with
    | none => exact Nat.le_refl _
    | some c =>
      rw [skipDigits]
      split
      · exact Nat.le_succ_of_le ih
      · exact Nat.le_refl _

/-- A string ends behind where it began. -/
theorem length_string {cs : Text} {r : List Piece × Text} (h : string cs = some r) :
    r.2.length < cs.length := by
  have pushed {cs : Text} {piece : Piece} {r : List Piece × Text}
      (h : (string cs).map (push piece) = some r)
      (ih : ∀ r, string cs = some r → r.2.length < cs.length) : r.2.length < cs.length := by
    obtain ⟨r, first, rfl⟩ := Option.map_eq_some_iff.mp h
    exact ih r first
  induction cs using string.induct generalizing r with
  | case1 => cases h
  | case2 cs ih =>
    have := pushed h fun r => ih
    exact Nat.lt_succ_of_lt this
  | case3 cs =>
    cases h
    exact Nat.lt_succ_self _
  | case4 a b c d cs ih =>
    rw [string] at h
    obtain ⟨u, -, h⟩ := Option.bind_eq_some_iff.mp h
    have := pushed h fun r => ih
    simp only [List.length_cons]
    omega
  | case5 cs e other ih =>
    rw [string] at h
    · obtain ⟨u, -, h⟩ := Option.bind_eq_some_iff.mp h
      have := pushed h fun r => ih
      simp only [List.length_cons]
      omega
    · exact other
  | case6 cs h₁ h₂ =>
    rw [string] at h
    · cases h
    · exact h₁
    · exact h₂
  | case7 c cs h₁ h₂ h₃ h₄ low =>
    rw [string, if_pos low] at h
    · cases h
    · exact h₁
    · exact h₂
    · exact h₃
    · exact h₄
  | case8 c cs h₁ h₂ h₃ h₄ low ih =>
    rw [string, if_neg low] at h
    · have := pushed h fun r => ih
      exact Nat.lt_succ_of_lt this
    · exact h₁
    · exact h₂
    · exact h₃
    · exact h₄

theorem length_digits {cs rest : Text} (h : digits cs = some rest) : rest.length < cs.length := by
  unfold digits at h
  split at h
  · split at h
    · cases h
      exact Nat.lt_succ_of_le (length_skipDigits _)
    · cases h
  · cases h

theorem length_integer {cs rest : Text} (h : integer cs = some rest) : rest.length < cs.length := by
  unfold integer at h
  split at h
  · cases h
    exact Nat.lt_succ_self _
  · exact length_digits h

theorem length_fraction {cs rest : Text} (h : fraction cs = some rest) : rest.length ≤ cs.length := by
  unfold fraction at h
  split at h
  · exact Nat.le_succ_of_le (length_digits h).le
  · cases h
    exact Nat.le_refl _

theorem length_signedDigits {cs rest : Text} (h : signedDigits cs = some rest) :
    rest.length ≤ cs.length := by
  unfold signedDigits at h
  split at h
  · exact Nat.le_succ_of_le (length_digits h).le
  · exact Nat.le_succ_of_le (length_digits h).le
  · exact (length_digits h).le

theorem length_exponent {cs rest : Text} (h : exponent cs = some rest) : rest.length ≤ cs.length := by
  unfold exponent at h
  split at h
  · exact Nat.le_succ_of_le (length_signedDigits h)
  · exact Nat.le_succ_of_le (length_signedDigits h)
  · cases h
    exact Nat.le_refl _

theorem length_number {cs rest : Text} (h : number cs = some rest) : rest.length < cs.length := by
  have whole {cs : Text} (h : ((integer cs).bind fun cs => (fraction cs).bind exponent) = some rest) :
      rest.length < cs.length := by
    obtain ⟨cs₁, first, h⟩ := Option.bind_eq_some_iff.mp h
    obtain ⟨cs₂, second, third⟩ := Option.bind_eq_some_iff.mp h
    have := length_integer first
    have := length_fraction second
    have := length_exponent third
    omega
  unfold number at h
  split at h
  · exact Nat.lt_succ_of_lt (whole h)
  · exact whole h

theorem length_scalar {cs : Text} {r : Value × Text} (h : scalar cs = some r) :
    r.2.length < cs.length := by
  unfold scalar at h
  split at h
  · cases h
    simp only [List.length_cons]
    omega
  · cases h
    simp only [List.length_cons]
    omega
  · cases h
    simp only [List.length_cons]
    omega
  · obtain ⟨rest, read, rfl⟩ := Option.map_eq_some_iff.mp h
    exact length_number read

theorem length_key {cs : Text} {r : List Piece × Text} (h : key cs = some r) :
    r.2.length < cs.length := by
  unfold key at h
  split at h
  · rename_i inner skipped
    obtain ⟨k, read, h⟩ := Option.bind_eq_some_iff.mp h
    have first := length_skipWs cs
    rw [skipped, List.length_cons] at first
    have second := length_string read
    split at h
    · rename_i rest skipped
      cases h
      have third := length_skipWs k.2
      rw [skipped, List.length_cons] at third
      dsimp only
      omega
    · cases h
  · cases h

/-- A reader that ends behind where it began. -/
def Shrinks {α : Type} (f : Text → Option (α × Text)) : Prop :=
  ∀ cs r, f cs = some r → r.2.length < cs.length

theorem shrinks_valueWith {items : Text → Option (List Value × Text)}
    {members : Text → Option (List (List Piece × Value) × Text)} (shrinksItems : Shrinks items)
    (shrinksMembers : Shrinks members) : Shrinks (valueWith items members) := by
  intro cs r h
  have all := length_skipWs cs
  unfold valueWith at h
  split at h
  · rename_i inner skipped
    rw [skipped, List.length_cons] at all
    have next := length_skipWs inner
    split at h
    · rename_i rest closed
      cases h
      rw [closed, List.length_cons] at next
      dsimp only
      omega
    · obtain ⟨t, read, rfl⟩ := Option.map_eq_some_iff.mp h
      have := shrinksMembers _ _ read
      dsimp only
      omega
  · rename_i inner skipped
    rw [skipped, List.length_cons] at all
    have next := length_skipWs inner
    split at h
    · rename_i rest closed
      cases h
      rw [closed, List.length_cons] at next
      dsimp only
      omega
    · obtain ⟨t, read, rfl⟩ := Option.map_eq_some_iff.mp h
      have := shrinksItems _ _ read
      dsimp only
      omega
  · rename_i inner skipped
    rw [skipped, List.length_cons] at all
    obtain ⟨t, read, rfl⟩ := Option.map_eq_some_iff.mp h
    have := length_string read
    dsimp only
    omega
  · have := length_scalar h
    omega

theorem shrinks_moreItems {items : Text → Option (List Value × Text)} (shrinks : Shrinks items)
    (item : Value) : Shrinks (moreItems items item) := by
  intro cs r h
  have all := length_skipWs cs
  unfold moreItems at h
  split at h
  · rename_i rest skipped
    rw [skipped, List.length_cons] at all
    cases h
    exact all
  · rename_i rest skipped
    rw [skipped, List.length_cons] at all
    obtain ⟨t, read, rfl⟩ := Option.map_eq_some_iff.mp h
    have := shrinks _ _ read
    dsimp only
    omega
  · cases h

theorem shrinks_moreMembers {members : Text → Option (List (List Piece × Value) × Text)}
    (shrinks : Shrinks members) (member : List Piece × Value) :
    Shrinks (moreMembers members member) := by
  intro cs r h
  have all := length_skipWs cs
  unfold moreMembers at h
  split at h
  · rename_i rest skipped
    rw [skipped, List.length_cons] at all
    cases h
    exact all
  · rename_i rest skipped
    rw [skipped, List.length_cons] at all
    obtain ⟨t, read, rfl⟩ := Option.map_eq_some_iff.mp h
    have := shrinks _ _ read
    dsimp only
    omega
  · cases h

theorem shrinks (n : Nat) : Shrinks (value n) ∧ Shrinks (items n) ∧ Shrinks (members n) := by
  induction n with
  | zero => exact ⟨fun _ _ h => (by cases h), fun _ _ h => (by cases h), fun _ _ h => (by cases h)⟩
  | succ n ih =>
    obtain ⟨hvalue, hitems, hmembers⟩ := ih
    refine ⟨shrinks_valueWith hitems hmembers, fun cs r h => ?_, fun cs r h => ?_⟩
    · rw [items] at h
      obtain ⟨v, read, more⟩ := Option.bind_eq_some_iff.mp h
      have := hvalue _ _ read
      have := shrinks_moreItems hitems v.1 _ _ more
      omega
    · rw [members] at h
      obtain ⟨k, named, h⟩ := Option.bind_eq_some_iff.mp h
      obtain ⟨v, read, more⟩ := Option.bind_eq_some_iff.mp h
      have := length_key named
      have := hvalue _ _ read
      have := shrinks_moreMembers hmembers (k.1, v.1) _ _ more
      omega

/-- Readers that agree on shorter texts read the same value. -/
theorem valueWith_congr {items items' : Text → Option (List Value × Text)}
    {members members' : Text → Option (List (List Piece × Value) × Text)} {cs : Text}
    (sameItems : ∀ cs', cs'.length < cs.length → items cs' = items' cs')
    (sameMembers : ∀ cs', cs'.length < cs.length → members cs' = members' cs') :
    valueWith items members cs = valueWith items' members' cs := by
  have all := length_skipWs cs
  unfold valueWith
  split
  · rename_i inner skipped
    rw [skipped, List.length_cons] at all
    split
    · rfl
    · rw [sameMembers _ (by have := length_skipWs inner; omega)]
  · rename_i inner skipped
    rw [skipped, List.length_cons] at all
    split
    · rfl
    · rw [sameItems _ (by have := length_skipWs inner; omega)]
  · rfl
  · rfl

theorem moreItems_congr {items items' : Text → Option (List Value × Text)} {item : Value} {cs : Text}
    (same : ∀ cs', cs'.length < cs.length → items cs' = items' cs') :
    moreItems items item cs = moreItems items' item cs := by
  have all := length_skipWs cs
  unfold moreItems
  split
  · rfl
  · rename_i rest skipped
    rw [skipped, List.length_cons] at all
    rw [same rest all]
  · rfl

theorem moreMembers_congr {members members' : Text → Option (List (List Piece × Value) × Text)}
    {member : List Piece × Value} {cs : Text}
    (same : ∀ cs', cs'.length < cs.length → members cs' = members' cs') :
    moreMembers members member cs = moreMembers members' member cs := by
  have all := length_skipWs cs
  unfold moreMembers
  split
  · rfl
  · rename_i rest skipped
    rw [skipped, List.length_cons] at all
    rw [same rest all]
  · rfl

/-- Fuel for twice the text is enough: more changes nothing. -/
theorem fuel_succ (n : Nat) :
    (∀ cs : Text, 2 * cs.length + 1 ≤ n → value n cs = value (n + 1) cs) ∧
    (∀ cs : Text, 2 * cs.length + 2 ≤ n → items n cs = items (n + 1) cs) ∧
    ∀ cs : Text, 2 * cs.length + 2 ≤ n → members n cs = members (n + 1) cs := by
  induction n with
  | zero => exact ⟨fun _ h => by omega, fun _ h => by omega, fun _ h => by omega⟩
  | succ n ih =>
    obtain ⟨hvalue, hitems, hmembers⟩ := ih
    refine ⟨fun cs h => ?_, fun cs h => ?_, fun cs h => ?_⟩
    · exact valueWith_congr (fun cs' shorter => hitems cs' (by omega))
        fun cs' shorter => hmembers cs' (by omega)
    · rw [items, items, hvalue cs (by omega)]
      refine Option.bind_congr fun r read => moreItems_congr fun cs' shorter => hitems cs' ?_
      have := (shrinks (n + 1)).1 _ _ read
      omega
    · rw [members, members]
      refine Option.bind_congr fun k named => ?_
      have first := length_key named
      rw [hvalue k.2 (by omega)]
      refine Option.bind_congr fun r read => moreMembers_congr fun cs' shorter => hmembers cs' ?_
      have := (shrinks (n + 1)).1 _ _ read
      omega

/-- `read` gives a value all the fuel it can use. -/
theorem value_fuel {n : Nat} {cs : Text} (enough : 2 * cs.length + 2 ≤ n) :
    value n cs = value (2 * cs.length + 2) cs := by
  induction n, enough using Nat.le_induction with
  | base => rfl
  | succ n enough ih => exact ((fuel_succ n).1 cs (by omega)).symm.trans ih

end JsonRead
