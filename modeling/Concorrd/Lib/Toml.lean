import Mathlib.Data.List.Basic
import Concorrd.Lib.Dict

/-!
# TOML

Values, and the parser of TOML 1.0 documents in the steps of the Python standard library: a statement is
parsed at a time, and flags say which namespaces are closed. Floats, dates and times keep their text.
What the parser is given is a list of characters, and each part returns what it leaves of it. Nested
values take fuel, of which `loads` gives more than a document has characters for.
-/

inductive Toml where
  | bool (value : Bool)
  | int (value : Int)
  | float (text : String)
  | time (text : String)
  | str (value : String)
  | arr (items : List Toml)
  | table (entries : List (String × Toml))

namespace Toml

abbrev Table := Dict String Toml

abbrev Key := List String

/-! ## Characters -/

def isCtrl (c : Char) : Bool := c.toNat < 32 || c.toNat = 127

/-- May not stand in a comment or in a string of one line. -/
def illegal (c : Char) : Bool := isCtrl c && c ≠ '\t'

def illegalMultiline (c : Char) : Bool := isCtrl c && c ≠ '\t' && c ≠ '\n'

def isWs (c : Char) : Bool := c = ' ' || c = '\t'

def isBare (c : Char) : Bool := c.isAlphanum || c = '-' || c = '_'

def skipWs (cs : List Char) : List Char := cs.dropWhile isWs

def skipComment : List Char → Option (List Char)
  | '#' :: cs =>
    if (cs.takeWhile (· ≠ '\n')).any illegal then none else some (cs.dropWhile (· ≠ '\n'))
  | cs => some cs

/-- Skip what may stand between the items of an array. -/
def skipArrayWs (inComment : Bool) : List Char → Option (List Char)
  | [] => some []
  | c :: cs =>
    if inComment then
      if c = '\n' then skipArrayWs false cs else if illegal c then none else skipArrayWs true cs
    else if isWs c || c = '\n' then skipArrayWs false cs
    else if c = '#' then skipArrayWs true cs
    else some (c :: cs)

/-- What follows a word, where the text starts with it. -/
def after (word : String) (cs : List Char) : Option (List Char) :=
  if word.toList <+: cs then some (cs.drop word.length) else none

/-! ## Strings -/

def isHex (c : Char) : Bool :=
  c.isDigit || ('a' ≤ c && c ≤ 'f') || ('A' ≤ c && c ≤ 'F')

def hexVal (c : Char) : Nat :=
  if c.isDigit then c.toNat - '0'.toNat
  else if 'a' ≤ c then c.toNat - 'a'.toNat + 10
  else c.toNat - 'A'.toNat + 10

def unescape : Char → Option Char
  | 'b' => some '\x08'
  | 't' => some '\t'
  | 'n' => some '\n'
  | 'f' => some '\x0c'
  | 'r' => some '\r'
  | '"' => some '"'
  | '\\' => some '\\'
  | _ => none

/-- Where a basic string is read: at a character, after a backslash, in the digits of an escape, or in
the white space after a backslash that ends a line. -/
inductive StrState where
  | plain
  | escaped
  | hex (left value : Nat)
  | trimLine
  | trim

/-- A character before the rest of a string. -/
def push (c : Char) (rest : Option (List Char × List Char)) : Option (List Char × List Char) :=
  rest.map fun r => (c :: r.1, r.2)

/-- A basic string after its opening quotes. -/
def basicStr (multiline : Bool) : StrState → List Char → Option (List Char × List Char)
  | _, [] => none
  | .escaped, c :: cs =>
    if multiline && isWs c then basicStr multiline .trimLine cs
    else if multiline && c = '\n' then basicStr multiline .trim cs
    else if c = 'u' then basicStr multiline (.hex 4 0) cs
    else if c = 'U' then basicStr multiline (.hex 8 0) cs
    else match unescape c with
      | none => none
      | some x => push x (basicStr multiline .plain cs)
  | .hex left value, c :: cs =>
    if isHex c = false then none
    else
      let value := 16 * value + hexVal c
      if left ≠ 1 then basicStr multiline (.hex (left - 1) value) cs
      else if value.isValidChar then push (Char.ofNat value) (basicStr multiline .plain cs)
      else none
  | .trimLine, c :: cs =>
    if isWs c then basicStr multiline .trimLine cs
    else if c = '\n' then basicStr multiline .trim cs
    else none
  | state@.plain, c :: cs | state@.trim, c :: cs =>
    if (match state with | .trim => isWs c || c = '\n' | _ => false) then basicStr multiline .trim cs
    else if c = '"' then
      if multiline then
        match cs with
        | '"' :: '"' :: cs => some ([], cs)
        | _ => push '"' (basicStr multiline .plain cs)
      else some ([], cs)
    else if c = '\\' then basicStr multiline .escaped cs
    else if (if multiline then illegalMultiline c else illegal c) then none
    else push c (basicStr multiline .plain cs)

/-- A literal string of one line after its opening quote. -/
def literalStr (cs : List Char) : Option (List Char × List Char) :=
  let body := cs.takeWhile (· ≠ '\'')
  match cs.dropWhile (· ≠ '\'') with
  | [] => none
  | _ :: rest => if body.any illegal then none else some (body, rest)

def multilineLiteral : List Char → Option (List Char × List Char)
  | [] => none
  | c :: cs =>
    match after "'''" (c :: cs) with
    | some rest => some ([], rest)
    | none => if illegalMultiline c then none else push c (multilineLiteral cs)

/-- At most two quotes before the closing ones belong to the string. -/
def extraQuotes (quote : Char) (s : List Char) : List Char → List Char × List Char
  | [] => (s, [])
  | a :: cs =>
    if a ≠ quote then (s, a :: cs)
    else match cs with
      | [] => (s ++ [quote], [])
      | b :: cs => if b ≠ quote then (s ++ [quote], b :: cs) else (s ++ [quote, quote], cs)

/-- A string of several lines after its opening quotes. -/
def multilineStr (quote : Char) (cs : List Char) : Option (List Char × List Char) :=
  let cs := match cs with
    | '\n' :: cs => cs
    | cs => cs
  (if quote = '\'' then multilineLiteral cs else basicStr true .plain cs).map fun r =>
    extraQuotes quote r.1 r.2

/-! ## Keys -/

def keyPart : List Char → Option (String × List Char)
  | [] => none
  | c :: cs =>
    if isBare c then some (String.ofList ((c :: cs).takeWhile isBare), (c :: cs).dropWhile isBare)
    else if c = '\'' then (literalStr cs).map fun r => (String.ofList r.1, r.2)
    else if c = '"' then (basicStr false .plain cs).map fun r => (String.ofList r.1, r.2)
    else none

/-- A key with its dots. The fuel is spent on parts. -/
def parseKey : Nat → List Char → Option (Key × List Char)
  | 0, _ => none
  | n + 1, cs => do
    let (part, cs) ← keyPart cs
    match skipWs cs with
    | '.' :: cs => (parseKey n (skipWs cs)).map fun r => (part :: r.1, r.2)
    | cs => some ([part], cs)

/-! ## Numbers, dates and times -/

/-- Digits with single underscores between them, without the underscores. -/
def sepRun (p : Char → Bool) : List Char → List Char × List Char
  | [] => ([], [])
  | [c] => if p c then ([c], []) else ([], [c])
  | c :: d :: cs =>
    if p c then (c :: (sepRun p (d :: cs)).1, (sepRun p (d :: cs)).2)
    else if c = '_' && p d then (d :: (sepRun p cs).1, (sepRun p cs).2)
    else ([], c :: d :: cs)

def sepDigits (p : Char → Bool) : List Char → Option (List Char × List Char)
  | [] => none
  | c :: cs => if p c then some (c :: (sepRun p cs).1, (sepRun p cs).2) else none

def natOf (base : Nat) (digits : List Char) : Nat :=
  digits.foldl (fun n d => base * n + hexVal d) 0

/-- An integer with a prefix for its base. -/
def basedInt (cs : List Char) : Option (Toml × List Char) :=
  let read (word : String) (p : Char → Bool) (base : Nat) := do
    let (digits, rest) ← (after word cs).bind (sepDigits p)
    some (Toml.int (natOf base digits), rest)
  (read "0x" isHex 16).or <| (read "0b" (fun c => c = '0' || c = '1') 2).or <|
    read "0o" (fun c => '0' ≤ c && c ≤ '7') 8

def sign : List Char → Bool × List Char
  | '-' :: cs => (true, cs)
  | '+' :: cs => (false, cs)
  | cs => (false, cs)

/-- The digits before the point. -/
def intPart : List Char → Option (List Char × List Char)
  | [] => none
  | c :: cs =>
    if c = '0' then some (['0'], cs)
    else if c.isDigit then some (c :: (sepRun Char.isDigit cs).1, (sepRun Char.isDigit cs).2)
    else none

/-- Without the fraction and the exponent. -/
def skipFloatPart (cs : List Char) : List Char :=
  let cs := (((after "." cs).bind (sepDigits Char.isDigit)).map Prod.snd).getD cs
  match cs with
  | [] => []
  | e :: rest =>
    if e = 'e' || e = 'E' then ((sepDigits Char.isDigit (sign rest).2).map Prod.snd).getD cs else cs

/-- What is read of the text, where `rest` is left of it. -/
def taken (cs rest : List Char) : String := String.ofList (cs.take (cs.length - rest.length))

def decimal (cs : List Char) : Option (Toml × List Char) := do
  let (negative, unsigned) := sign cs
  let (digits, rest) ← intPart unsigned
  let tail := skipFloatPart rest
  some <|
    if tail.length = rest.length then
      (.int (if negative then -(natOf 10 digits : Int) else natOf 10 digits), rest)
    else (.float (taken cs tail), tail)

/-- So many digits. -/
def fixed (n : Nat) (cs : List Char) : Option (Nat × List Char) :=
  if (cs.take n).length = n ∧ (cs.take n).all Char.isDigit then
    some (natOf 10 (cs.take n), cs.drop n)
  else none

def skipFraction (cs : List Char) : List Char :=
  match after "." cs with
  | some (d :: rest) => if d.isDigit then rest.dropWhile Char.isDigit else cs
  | _ => cs

/-- Without hours and minutes. -/
def clock (cs : List Char) : Option (List Char) := do
  let (hour, cs) ← fixed 2 cs
  let (minute, cs) ← (after ":" cs).bind (fixed 2)
  if hour < 24 ∧ minute < 60 then some cs else none

def localTime (cs : List Char) : Option (List Char) := do
  let cs ← clock cs
  let (second, cs) ← (after ":" cs).bind (fixed 2)
  if second < 60 then some (skipFraction cs) else none

def skipOffset (cs : List Char) : List Char :=
  match cs with
  | [] => []
  | c :: rest =>
    if c = 'Z' || c = 'z' then rest
    else if c = '+' || c = '-' then (clock rest).getD cs
    else cs

def daysIn (year month : Nat) : Nat :=
  if month = 2 then if year % 4 = 0 ∧ (year % 100 ≠ 0 ∨ year % 400 = 0) then 29 else 28
  else if month = 4 ∨ month = 6 ∨ month = 9 ∨ month = 11 then 30
  else 31

/-- A date with a time after it or without. The inner result is `none` where there is no such day. -/
def datetime (cs : List Char) : Option (Option (List Char)) := do
  let (year, cs) ← fixed 4 cs
  let (month, cs) ← (after "-" cs).bind (fixed 2)
  let (day, cs) ← (after "-" cs).bind (fixed 2)
  if 1 ≤ month ∧ month ≤ 12 ∧ 1 ≤ day ∧ day ≤ 31 then
    let tail := match cs with
      | [] => []
      | c :: rest =>
        if c = 'T' || c = 't' || c = ' ' then ((localTime rest).map skipOffset).getD cs else cs
    some (if 1 ≤ year ∧ day ≤ daysIn year month then some tail else none)
  else none

/-! ## Values -/

def special (cs : List Char) : Option (Toml × List Char) :=
  ["inf", "nan", "-inf", "+inf", "-nan", "+nan"].findSome? fun word =>
    (after word cs).map fun rest => (.float word, rest)

/-- A value that starts with no bracket, brace or quote. -/
def bareValue (cs : List Char) : Option (Toml × List Char) :=
  match after "true" cs, after "false" cs with
  | some rest, _ => some (.bool true, rest)
  | none, some rest => some (.bool false, rest)
  | none, none =>
    match datetime cs with
    | some tail => tail.map fun tail => (.time (taken cs tail), tail)
    | none =>
      match localTime cs with
      | some tail => some (.time (taken cs tail), tail)
      | none => ((basedInt cs).or (decimal cs)).or (special cs)

def quotedValue (quote : Char) (cs : List Char) : Option (Toml × List Char) :=
  match after (String.ofList [quote, quote]) cs with
  | some cs => (multilineStr quote cs).map fun r => (.str (String.ofList r.1), r.2)
  | none => (if quote = '\'' then literalStr cs else basicStr false .plain cs).map fun r =>
      (.str (String.ofList r.1), r.2)

/-- The table behind the key, changed. A missing one is made. -/
def modifyNest (accessLists : Bool) (f : Table → Option Table) : Key → Table → Option Table
  | [], t => f t
  | k :: ks, t =>
    match t.get k with
    | none => (modifyNest accessLists f ks []).map fun t' => t.set k (.table t')
    | some (.table t') => (modifyNest accessLists f ks t').map fun t' => t.set k (.table t')
    | some (.arr items) =>
      if accessLists = false then none
      else match items.getLast? with
        | some (.table t') => (modifyNest accessLists f ks t').map fun t' =>
            t.set k (.arr (items.dropLast ++ [.table t']))
        | _ => none
    | some _ => none

/-- Nothing may be added to an array or a table that stands behind a key. -/
def freeze (key : Key) (item : Toml) (frozen : List Key) : List Key :=
  match item with
  | .arr _ | .table _ => key :: frozen
  | _ => frozen

/-- Set a key that is not there. -/
def setNew (k : String) (value : Toml) (t : Table) : Option Table :=
  if t.get k = none then some (t.set k value) else none

mutual

def value : Nat → List Char → Option (Toml × List Char)
  | 0, _ => none
  | _ + 1, [] => none
  | n + 1, c :: cs =>
    if c = '"' || c = '\'' then quotedValue c cs
    else if c = '[' then do
      let cs ← skipArrayWs false cs
      match cs with
      | ']' :: cs => some (.arr [], cs)
      | cs => (items n cs).map fun r => (.arr r.1, r.2)
    else if c = '{' then
      match skipWs cs with
      | '}' :: cs => some (.table [], cs)
      | cs => (entries n [] [] cs).map fun r => (.table r.1, r.2)
    else bareValue (c :: cs)

/-- The items of an array, from a value on. -/
def items : Nat → List Char → Option (List Toml × List Char)
  | 0, _ => none
  | n + 1, cs => do
    let (item, cs) ← value n cs
    let cs ← skipArrayWs false cs
    match cs with
    | ']' :: cs => some ([item], cs)
    | ',' :: cs => do
      let cs ← skipArrayWs false cs
      match cs with
      | ']' :: cs => some ([item], cs)
      | cs => (items n cs).map fun r => (item :: r.1, r.2)
    | _ => none

/-- The entries of an inline table, from a key on. What is in `frozen` is not added to. -/
def entries : Nat → List Key → Table → List Char → Option (Table × List Char)
  | 0, _, _, _ => none
  | n + 1, frozen, t, cs => do
    let (key, cs) ← parseKey cs.length cs
    let cs ← after "=" cs
    let (item, cs) ← value n (skipWs cs)
    if frozen.any fun p => p.isPrefixOf key then none
    else do
      let t ← modifyNest false (setNew (key.getLastD "") item) key.dropLast t
      match skipWs cs with
      | '}' :: cs => some (t, cs)
      | ',' :: cs => entries n (freeze key item frozen) t (skipWs cs)
      | _ => none

end

/-! ## Documents -/

/-- The namespaces that no header may open, those that nothing may be added to, and those that a header
closes next. -/
structure Flags where
  explicit : List Key := []
  frozen : List Key := []
  pending : List Key := []

namespace Flags

variable (flags : Flags)

def isFrozen (key : Key) : Bool := flags.frozen.any fun p => p.isPrefixOf key

def finalizePending : Flags := { flags with explicit := flags.explicit ++ flags.pending, pending := [] }

def unsetAll (key : Key) : Flags where
  explicit := flags.explicit.filter fun p => !key.isPrefixOf p
  frozen := flags.frozen.filter fun p => !key.isPrefixOf p
  pending := flags.pending

def setExplicit (key : Key) : Flags := { flags with explicit := key :: flags.explicit }

end Flags

/-- What has been read, and the header that is open. -/
structure Doc where
  data : Table := []
  flags : Flags := {}
  header : Key := []

/-- `[key]` -/
def createDict (doc : Doc) (cs : List Char) : Option (Doc × List Char) := do
  let flags := doc.flags.finalizePending
  let (key, cs) ← parseKey cs.length (skipWs cs)
  if key ∈ flags.explicit ∨ flags.isFrozen key then none
  else do
    let data ← modifyNest true some key doc.data
    let cs ← after "]" cs
    some ({ data, flags := flags.setExplicit key, header := key }, cs)

/-- `[[key]]` -/
def createList (doc : Doc) (cs : List Char) : Option (Doc × List Char) := do
  let flags := doc.flags.finalizePending
  let (key, cs) ← parseKey cs.length (skipWs cs)
  if flags.isFrozen key then none
  else do
    let last := key.getLastD ""
    let append (t : Table) : Option Table :=
      match t.get last with
      | none => some (t.set last (.arr [.table []]))
      | some (.arr items) => some (t.set last (.arr (items ++ [.table []])))
      | some _ => none
    let data ← modifyNest true append key.dropLast doc.data
    let cs ← after "]]" cs
    some ({ data, flags := (flags.unsetAll key).setExplicit key, header := key }, cs)

/-- The namespaces on the way to a dotted key. -/
def onTheWay (header key : Key) : List Key :=
  ((List.range key.length).drop 1).map fun i => header ++ key.take i

def keyValue (doc : Doc) (cs : List Char) : Option (Doc × List Char) := do
  let (key, cs) ← parseKey cs.length cs
  let cs ← after "=" cs
  let (item, cs) ← value (2 * cs.length + 2) (skipWs cs)
  let parent := doc.header ++ key.dropLast
  let way := onTheWay doc.header key
  if (way.any fun p => doc.flags.explicit.contains p) || doc.flags.isFrozen parent then none
  else do
    let data ← modifyNest true (setNew (key.getLastD "") item) parent doc.data
    let flags := { doc.flags with
      frozen := freeze (doc.header ++ key) item doc.flags.frozen
      pending := way ++ doc.flags.pending }
    some ({ doc with data, flags }, cs)

def statement (doc : Doc) : List Char → Option (Doc × List Char)
  | [] => none
  | c :: cs =>
    if isBare c || c = '"' || c = '\'' then keyValue doc (c :: cs)
    else if c = '[' then
      match cs with
      | '[' :: cs => createList doc cs
      | cs => createDict doc cs
    else if c = '#' then some (doc, c :: cs)
    else none

/-- The statements of a document. The fuel is spent on lines. -/
def document : Nat → Doc → List Char → Option Table
  | 0, _, _ => none
  | n + 1, doc, cs =>
    match skipWs cs with
    | [] => some doc.data
    | '\n' :: cs => document n doc cs
    | cs => do
      let (doc, cs) ← statement doc cs
      let cs ← skipComment (skipWs cs)
      match cs with
      | [] => some doc.data
      | '\n' :: cs => document n doc cs
      | _ => none

/-- With `\n` for `\r\n`. -/
def newlines : List Char → List Char
  | [] => []
  | c :: cs =>
    match c, cs with
    | '\r', '\n' :: cs => '\n' :: newlines cs
    | c, cs => c :: newlines cs

def loads (text : String) : Option Table :=
  let src := newlines text.toList
  document (src.length + 1) {} src

end Toml
