import Mathlib.Algebra.Ring.Int.Defs

/-!
# JSON values

Values as a decoder hands them over. An object lists its members as the decoder's map keeps them,
each key once: in the order of their keys, or in the order they were set. Printing and parsing are
a `JsonCodec`: the library takes them as given and names what it needs of them.
-/

/-- A JSON value. A number that is not an integer keeps its text. -/
inductive Json where
  | null
  | bool (value : Bool)
  | num (value : Int)
  | float (text : String)
  | str (value : String)
  | arr (items : List Json)
  | obj (members : List (String × Json))

namespace Json

mutual

/-- Whether two values are equal, member by member. -/
def decEq : (a b : Json) → Decidable (a = b)
  | .null, b => match b with
    | .null => isTrue rfl
    | .bool _ | .num _ | .float _ | .str _ | .arr _ | .obj _ => isFalse (Json.noConfusion ·)
  | .bool a, b => match b with
    | .bool b => decidable_of_iff (a = b) (iff_of_eq (bool.injEq a b)).symm
    | .null | .num _ | .float _ | .str _ | .arr _ | .obj _ => isFalse (Json.noConfusion ·)
  | .num a, b => match b with
    | .num b => decidable_of_iff (a = b) (iff_of_eq (num.injEq a b)).symm
    | .null | .bool _ | .float _ | .str _ | .arr _ | .obj _ => isFalse (Json.noConfusion ·)
  | .float a, b => match b with
    | .float b => decidable_of_iff (a = b) (iff_of_eq (float.injEq a b)).symm
    | .null | .bool _ | .num _ | .str _ | .arr _ | .obj _ => isFalse (Json.noConfusion ·)
  | .str a, b => match b with
    | .str b => decidable_of_iff (a = b) (iff_of_eq (str.injEq a b)).symm
    | .null | .bool _ | .num _ | .float _ | .arr _ | .obj _ => isFalse (Json.noConfusion ·)
  | .arr as, b => match b with
    | .arr bs => @decidable_of_iff _ _ (iff_of_eq (arr.injEq as bs)).symm (decEqItems as bs)
    | .null | .bool _ | .num _ | .float _ | .str _ | .obj _ => isFalse (Json.noConfusion ·)
  | .obj as, b => match b with
    | .obj bs => @decidable_of_iff _ _ (iff_of_eq (obj.injEq as bs)).symm (decEqMembers as bs)
    | .null | .bool _ | .num _ | .float _ | .str _ | .arr _ => isFalse (Json.noConfusion ·)

def decEqItems : (as bs : List Json) → Decidable (as = bs)
  | [], [] => isTrue rfl
  | [], b :: bs => isFalse (List.cons_ne_nil b bs).symm
  | a :: as, [] => isFalse (List.cons_ne_nil a as)
  | a :: as, b :: bs =>
    @decidable_of_iff _ _ (iff_of_eq (List.cons.injEq a as b bs)).symm
      (@instDecidableAnd _ _ (decEq a b) (decEqItems as bs))

def decEqMembers : (as bs : List (String × Json)) → Decidable (as = bs)
  | [], [] => isTrue rfl
  | [], b :: bs => isFalse (List.cons_ne_nil b bs).symm
  | a :: as, [] => isFalse (List.cons_ne_nil a as)
  | (k, a) :: as, (l, b) :: bs =>
    have : Decidable (a = b) := decEq a b
    have : Decidable (as = bs) := decEqMembers as bs
    decidable_of_iff ((k = l ∧ a = b) ∧ as = bs)
      ((and_congr_left' (iff_of_eq (Prod.mk.injEq k a l b)).symm).trans
        (iff_of_eq (List.cons.injEq (k, a) as (l, b) bs)).symm)

end

instance : DecidableEq Json := decEq

/-- The member of an object under a key. -/
def get : Json → String → Option Json
  | obj members, key => members.lookup key
  | _, _ => none

/-- The number, when it fits a signed 64-bit word. -/
def asI64 : Json → Option Int64
  | num value => if -2 ^ 63 ≤ value ∧ value < 2 ^ 63 then some (Int64.ofInt value) else none
  | _ => none

def asStr : Json → Option String
  | str value => some value
  | _ => none

def asBool : Json → Option Bool
  | bool value => some value
  | _ => none

/-- The text of a number, with a fraction or without. -/
def asF32 : Json → Option String
  | num value => some (toString value)
  | float text => some text
  | _ => none

end Json

/-- A printer and a parser. -/
structure JsonCodec where
  toString : Json → String
  fromStr : String → Except String Json

instance : Inhabited JsonCodec := ⟨⟨fun _ => "", fun _ => .error "no parser"⟩⟩

/-- The parser reads the value back from what the printer wrote. -/
def JsonCodec.ReadsBack (codec : JsonCodec) (value : Json) : Prop :=
  codec.fromStr (codec.toString value) = .ok value
