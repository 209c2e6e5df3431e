import Mathlib.Data.List.Basic

/-!
# Data of a message event

What arrives in the `data` of a message: a structured clone. A clone holds no functions, and only
objects and arrays keep members. Any other object is taken with what a script can tell of it: the text
it converts to as a key, its own members, and what its `includes` finds if it has one.
-/

/-- A cloned value. An object that does not convert to a key has no text. -/
inductive Cloned where
  | undefined
  | null
  | bool (value : Bool)
  | num (value : Int)
  | float (text : String)
  | bigint (value : Int)
  | str (value : String)
  | arr (items : List Cloned) (members : List (String × Cloned))
  | obj (members : List (String × Cloned))
  | other (text : Option String) (members : List (String × Cloned)) (finds : Option (List String))

namespace Cloned

/-- Whether the type of the value is `object`, `null` left out. -/
def isObject : Cloned → Bool
  | .arr _ _ | .obj _ | .other _ _ _ => true
  | .undefined | .null | .bool _ | .num _ | .float _ | .bigint _ | .str _ => false

def isTruthy : Cloned → Bool
  | .undefined | .null => false
  | .bool b => b
  | .num n => n ≠ 0
  | .float text => text ≠ "NaN"
  | .bigint n => n ≠ 0
  | .str s => s ≠ ""
  | .arr _ _ | .obj _ | .other _ _ _ => true

/-- `a ?? b`. -/
def orElse : Cloned → Cloned → Cloned
  | .undefined, b => b
  | .null, b => b
  | a, _ => a

def members : Cloned → List (String × Cloned)
  | .arr _ members | .obj members | .other _ members _ => members
  | .undefined | .null | .bool _ | .num _ | .float _ | .bigint _ | .str _ => []

/-- The member of a name. The names that are read are on no prototype. -/
def get (v : Cloned) (name : String) : Cloned :=
  ((v.members.find? fun m => m.1 = name).map Prod.snd).getD .undefined

/-- The members of the items: their indices. -/
def indexed (items : List Cloned) : List (String × Cloned) :=
  items.zipIdx.map fun item => (toString item.2, item.1)

/-- What a spread takes over. -/
def spread : Cloned → List (String × Cloned)
  | .arr items members => indexed items ++ members
  | .str text => indexed (text.toList.map fun c => .str (String.singleton c))
  | v => v.members

/-- A member of this name hides a method, and is none. -/
def hides (members : List (String × Cloned)) (name : String) : Bool :=
  members.any fun m => m.1 = name

mutual

/-- The text of a value, where its conversion does not throw. -/
def text : Cloned → Option String
  | .undefined => some "undefined"
  | .null => some "null"
  | .bool b => some (if b then "true" else "false")
  | .num n => some (toString n)
  | .float text => some text
  | .bigint n => some (toString n)
  | .str s => some s
  | .arr items members =>
    if hides members "toString" then none
    else if hides members "join" then some "[object Array]"
    else (texts items).map fun ts => ",".intercalate ts
  | .obj members => if hides members "toString" then none else some "[object Object]"
  | .other text _ _ => text

/-- The texts of the items of an array. A missing value is an empty text. -/
def texts : List Cloned → Option (List String)
  | [] => some []
  | item :: items =>
    match item with
    | .undefined | .null => (texts items).map fun ts => "" :: ts
    | item => item.text.bind fun t => (texts items).map fun ts => t :: ts

end

def isStr (text : String) : Cloned → Bool
  | .str s => s = text
  | _ => false

theorem eq_str_of_isStr {text : String} {v : Cloned} (h : v.isStr text) : v = .str text := by
  cases v with
  | str s => rw [of_decide_eq_true h]
  | _ => cases h

/-- The first value, unless it is missing. -/
theorem orElse_cases (a b : Cloned) : a.orElse b = a ∨ a.orElse b = b ∧ a.isTruthy = false := by
  cases a with
  | undefined => exact .inr ⟨rfl, rfl⟩
  | null => exact .inr ⟨rfl, rfl⟩
  | _ => exact .inl rfl

/-- `v.includes(text)`, where `v` has such a method. -/
def includes (v : Cloned) (text : String) : Option Bool :=
  match v with
  | .arr items members => if hides members "includes" then none else some (items.any (isStr text))
  | .str s => some ((s.toList.tails).any fun rest => text.toList.isPrefixOf rest)
  | .other _ _ finds => finds.map fun texts => texts.contains text
  | _ => none

end Cloned
