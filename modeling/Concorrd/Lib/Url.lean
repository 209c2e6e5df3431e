import Mathlib.Data.List.DropRight
import Mathlib.Data.List.TakeWhile
import Mathlib.Data.Option.Basic

/-!
# Reading URLs

The URL parser of the web platform for the special schemes that have a host, as far as scheme, host,
port and path go: blanks at the ends and tabs and newlines anywhere are dropped, a backslash is a
slash, and the segments that spell one dot or two, percent-encoded or not, are resolved. What the
segments of a path lead to is known from how far they climb and from what is left of them.
-/

namespace Url

/-! ## Segments -/

/-- One part of a path, percent-encoded. -/
abbrev Segment := List Char

def isSlash (c : Char) : Bool := c = '/' || c = '\\'

def upperHex (n : Nat) : Char := (Nat.digitChar n).toUpper

def encodeByte (b : UInt8) : List Char := ['%', upperHex (b.toNat / 16), upperHex (b.toNat % 16)]

/-- The path percent-encode set. -/
def inPathSet (c : Char) : Bool :=
  c.toNat ≤ 0x1f || 0x7e < c.toNat || [' ', '\x22', '#', '<', '>', '?', '^', '\x60', '\x7b', '\x7d'].contains c

def encode (c : Char) : List Char :=
  if inPathSet c then (String.utf8EncodeChar c).flatMap encodeByte else [c]

/-- No query and no fragment starts here. -/
def isPathChar (c : Char) : Bool := c ≠ '?' && c ≠ '#'

/-- The segments of a path up to the query or the fragment. -/
def segments (text : List Char) : List Segment :=
  ((text.takeWhile isPathChar).splitOnP isSlash).map fun segment => segment.flatMap encode

/-- The dots a segment spells: a dot may be percent-encoded, in either case. -/
def dots : Segment → Option Nat
  | [] => some 0
  | '.' :: rest => (dots rest).map (· + 1)
  | '%' :: '2' :: 'e' :: rest => (dots rest).map (· + 1)
  | '%' :: '2' :: 'E' :: rest => (dots rest).map (· + 1)
  | _ => none

def isSingleDot (segment : Segment) : Bool := dots segment = some 1

def isDoubleDot (segment : Segment) : Bool := dots segment = some 2

def isName (segment : Segment) : Bool := !isSingleDot segment && !isDoubleDot segment

/-- The path after one more segment that a slash ends. -/
def enter (path : List Segment) (segment : Segment) : List Segment :=
  if isDoubleDot segment then path.dropLast else if isSingleDot segment then path else path ++ [segment]

/-- The path the segments lead to. Where the last one is dots, the path ends in an empty segment. -/
def resolve (path : List Segment) : List Segment → List Segment
  | [] => path
  | [segment] => if isName segment then path ++ [segment] else enter path segment ++ [[]]
  | segment :: next :: rest => resolve (enter path segment) (next :: rest)

/-- The levels that the segments climb above where they start. -/
def climbs : List Segment → Nat
  | [] => 0
  | segment :: rest =>
    if isDoubleDot segment then climbs rest + 1 else if isSingleDot segment then climbs rest
    else climbs rest - 1

/-- The names that no later climb takes back. -/
def left : List Segment → List Segment
  | [] => []
  | [segment] => if isName segment then [segment] else [[]]
  | segment :: next :: rest =>
    if isName segment && climbs (next :: rest) = 0 then segment :: left (next :: rest)
    else left (next :: rest)

variable {path segs : List Segment} {segment : Segment} {text : List Char}

theorem enter_name (name : isName segment = true) : enter path segment = path ++ [segment] := by
  simp only [isName, Bool.and_eq_true, Bool.not_eq_true'] at name
  simp [enter, name]

theorem resolve_cons (some : segs ≠ []) : resolve path (segment :: segs) = resolve (enter path segment) segs := by
  obtain ⟨next, rest, rfl⟩ := List.exists_cons_of_ne_nil some
  rfl

theorem left_cons (some : segs ≠ []) : left (segment :: segs) =
    if isName segment && climbs segs = 0 then segment :: left segs else left segs := by
  obtain ⟨next, rest, rfl⟩ := List.exists_cons_of_ne_nil some
  rfl

/-- The segments keep so much of the path and add what is left of them. -/
theorem resolve_eq (some : segs ≠ []) :
    resolve path segs = path.take (path.length - climbs segs) ++ left segs := by
  induction segs generalizing path with
  | nil => exact absurd rfl some
  | cons segment segs ih =>
    by_cases last : segs = []
    · subst last
      by_cases up : isDoubleDot segment
      · simp [resolve, left, climbs, isName, enter, up, List.dropLast_eq_take]
      · by_cases here : isSingleDot segment <;> simp [resolve, left, climbs, isName, enter, up, here]
    · rw [resolve_cons last, left_cons last, ih last, climbs]
      by_cases up : isDoubleDot segment
      · simp only [enter, isName, up, if_true, Bool.not_true, Bool.and_false, Bool.false_and,
          Bool.false_eq_true, if_false, List.dropLast_eq_take, List.take_take, List.length_take]
        congr 2
        omega
      · by_cases here : isSingleDot segment
        · simp [enter, isName, up, here]
        · by_cases stays : climbs segs = 0
          · have whole : (path ++ [segment]).take (path.length + 1) = path ++ [segment] :=
              List.take_of_length_le (by simp)
            simp [enter, isName, up, here, stays, whole]
          · have same : (path ++ [segment]).length - climbs segs = path.length - (climbs segs - 1) := by
              rw [List.length_append, List.length_singleton]
              omega
            rw [enter, if_neg up, if_neg here, if_neg up, if_neg here, same,
              List.take_append_of_le_length (Nat.sub_le _ _)]
            simp [stays]

theorem left_ne_nil (some : segs ≠ []) : left segs ≠ [] := by
  induction segs with
  | nil => exact absurd rfl some
  | cons segment segs ih =>
    by_cases last : segs = []
    · subst last
      cases name : isName segment <;> simp [left, name]
    · rw [left_cons last]
      split
      · simp
      · exact ih last

theorem segments_ne_nil (text : List Char) : segments text ≠ [] := by
  simp [segments, List.splitOnP_ne_nil]

/-- A segment of characters that end neither a segment nor the path. -/
def Plain (text : List Char) : Prop :=
  ∀ c ∈ text, isSlash c = false ∧ isPathChar c = true ∧ inPathSet c = false

theorem flatMap_encode_of_plain {segment : Segment} (plain : Plain segment) : segment.flatMap encode = segment := by
  induction segment with
  | nil => rfl
  | cons c cs ih =>
    have head : encode c = [c] := by simp [encode, (plain c (by simp)).2.2]
    rw [List.flatMap_cons, head, ih fun d mem => plain d (List.mem_cons_of_mem _ mem)]
    rfl

/-- A slash parts the segments before it from those behind it. -/
theorem segments_split {front : List Char} (reads : front.all isPathChar) {c : Char} (slash : isSlash c = true) :
    segments (front ++ c :: text) = segments front ++ segments text := by
  have read : isPathChar c = true := by
    simp only [isSlash, Bool.or_eq_true, decide_eq_true_eq] at slash
    rcases slash with rfl | rfl <;> decide
  have all := List.all_eq_true.mp reads
  have before : front.takeWhile isPathChar = front := List.takeWhile_eq_self_iff.mpr all
  rw [segments, List.takeWhile_append_of_pos all, List.takeWhile_cons_of_pos read,
    List.splitOnP_append_cons _ _ slash, List.map_append, segments, before, segments]

/-- A text without slashes is one segment. -/
theorem segments_eq_singleton {segment : Segment} (reads : segment.all isPathChar)
    (one : ∀ c ∈ segment, isSlash c = false) : segments segment = [segment.flatMap encode] := by
  have before : segment.takeWhile isPathChar = segment :=
    List.takeWhile_eq_self_iff.mpr (List.all_eq_true.mp reads)
  rw [segments, before, List.splitOnP_eq_singleton one, List.map_singleton]

/-- What stands before a slash is a segment of its own. -/
theorem segments_append {segment : Segment} (plain : Plain segment) {c : Char} (slash : isSlash c = true) :
    segments (segment ++ c :: text) = segment :: segments text := by
  have reads : segment.all isPathChar := List.all_eq_true.mpr fun d mem => (plain d mem).2.1
  rw [segments_split reads slash, segments_eq_singleton reads fun d mem => (plain d mem).1,
    flatMap_encode_of_plain plain]
  rfl

theorem resolve_append {segs' : List Segment} (some : segs' ≠ []) :
    resolve path (segs ++ segs') = resolve (segs.foldl enter path) segs' := by
  induction segs generalizing path with
  | nil => rfl
  | cons segment segs ih =>
    rw [List.cons_append, resolve_cons (by simp [some]), ih]
    rfl

/-- A path without the empty segment that a slash at its end leaves. -/
def trunk (path : List Segment) : List Segment := if path.getLast? = some [] then path.dropLast else path

/-- The names that a path text names as a directory. -/
def names (text : List Char) : List Segment :=
  if text = [] then [] else segments (if text.getLast? = some '/' then text.dropLast else text)

def directory (text : List Char) : List Segment := (names text).foldl enter []

theorem encode_ne_nil (c : Char) : encode c ≠ [] := by
  rw [encode]
  split
  · have some : (String.utf8EncodeChar c) ≠ [] := String.utf8EncodeChar_ne_nil
    obtain ⟨b, bytes, eq⟩ := List.exists_cons_of_ne_nil some
    simp [eq, encodeByte]
  · simp

/-- The last segment of a text that no slash ends is not empty. -/
theorem exists_last_segment (reads : text.all isPathChar) {c : Char} (ends : text.getLast? = some c)
    (other : isSlash c = false) : ∃ front last, segments text = front ++ [last] ∧ last ≠ [] := by
  have whole : text.rdropWhile (fun d => !isSlash d) ++ text.rtakeWhile (fun d => !isSlash d) = text :=
    List.rdropWhile_append_rtakeWhile
  have given : text.rtakeWhile (fun d => !isSlash d) ≠ [] := by
    obtain ⟨front, rfl⟩ := List.getLast?_eq_some_iff.mp ends
    rw [List.rtakeWhile_concat_pos _ _ _ (by simp [other])]
    simp
  have one : ∀ d ∈ text.rtakeWhile (fun d => !isSlash d), isSlash d = false := fun d mem => by
    simpa using List.mem_rtakeWhile_imp mem
  have kept := List.rdropWhile_last_not (fun d => !isSlash d) text
  generalize text.rtakeWhile (fun d => !isSlash d) = last at whole given one
  generalize text.rdropWhile (fun d => !isSlash d) = before at whole kept
  subst whole
  rw [List.all_append, Bool.and_eq_true] at reads
  have spelled : last.flatMap encode ≠ [] := by
    obtain ⟨d, ds, rfl⟩ := List.exists_cons_of_ne_nil given
    simp [encode_ne_nil]
  by_cases first : before = []
  · exact ⟨[], _, by rw [first]; exact segments_eq_singleton reads.2 one, spelled⟩
  · have slash : isSlash (before.getLast first) = true := by simpa using kept first
    refine ⟨segments before.dropLast, _, ?_, spelled⟩
    rw [← List.dropLast_append_getLast first, List.append_assoc, List.singleton_append,
      segments_split (by
        refine List.all_eq_true.mpr fun d mem => List.all_eq_true.mp reads.1 d (List.dropLast_subset _ mem)) slash,
      segments_eq_singleton reads.2 one]
    simp

variable {text : List Char}

theorem trunk_concat_nil (path : List Segment) : trunk (path ++ [[]]) = path := by
  simp [trunk]

theorem names_slash (front : List Char) : names (front ++ ['/']) = segments front := by
  simp [names]

/-- The path of a text that ends in no backslash is its directory, or that and the slash at its end. -/
theorem trunk_resolve (reads : text.all isPathChar) (ends : text.getLast? ≠ some '\\') :
    trunk (resolve [] (segments text)) = directory text := by
  cases last : text.getLast? with
  | none =>
    rw [List.getLast?_eq_none_iff.mp last]
    rfl
  | some c =>
    obtain ⟨front, rfl⟩ := List.getLast?_eq_some_iff.mp last
    by_cases slash : c = '/'
    · subst slash
      have before : front.all isPathChar := by
        rw [List.all_append, Bool.and_eq_true] at reads
        exact reads.1
      have split : segments (front ++ ['/']) = segments front ++ [[]] := segments_split before rfl
      rw [split, resolve_append (List.cons_ne_nil _ _), directory, names_slash]
      exact trunk_concat_nil _
    · have backslash : c ≠ '\\' := fun same => ends (same ▸ last)
      have other : isSlash c = false := by simp [isSlash, slash, backslash]
      obtain ⟨init, segment, split, given⟩ := exists_last_segment reads last other
      have all : names (front ++ [c]) = init ++ [segment] := by simp [names, slash, split]
      rw [split, resolve_append (List.cons_ne_nil _ _), directory, all, List.foldl_append]
      show trunk (if isName segment then _ else _) = enter _ segment
      split
      · rename_i name
        rw [enter_name name]
        simp [trunk, given]
      · exact trunk_concat_nil _

/-- The path of the directory. -/
def slashed (text : List Char) : List Char :=
  if text = [] ∨ text.getLast? = some '/' then text else text ++ ['/']

/-- What is appended to a directory is resolved from there. -/
theorem resolve_directory (reads : text.all isPathChar) (rest : List Char) :
    resolve [] (segments (slashed text ++ rest)) = resolve (directory text) (segments rest) := by
  rw [slashed]
  by_cases empty : text = []
  · simp [empty, directory, names]
  · by_cases slash : text.getLast? = some '/'
    · obtain ⟨front, rfl⟩ := List.getLast?_eq_some_iff.mp slash
      rw [List.all_append, Bool.and_eq_true] at reads
      rw [if_pos (.inr slash), List.append_assoc, List.singleton_append, segments_split reads.1 rfl,
        resolve_append (segments_ne_nil _), directory, names_slash]
    · have all : names text = segments text := by simp [names, empty, slash]
      rw [if_neg (by simp [empty, slash]), List.append_assoc, List.singleton_append, segments_split reads rfl,
        resolve_append (segments_ne_nil _), directory, all]

/-! ## Parsing -/

/-- What is read of a URL of a special scheme. -/
structure Parsed where
  scheme : List Char
  host : List Char
  port : Option Nat
  path : List Segment
  deriving DecidableEq

/-- The rest of the standard: the host parser, and the parser of the remaining schemes. -/
structure Standard where
  host : List Char → Option (List Char)
  others : List Char → List Char → Option Parsed → Option Parsed

/-- The default port of a special scheme that has a host. -/
def specialPort (scheme : List Char) : Option Nat :=
  if scheme = "http".toList ∨ scheme = "ws".toList then some 80
  else if scheme = "https".toList ∨ scheme = "wss".toList then some 443
  else if scheme = "ftp".toList then some 21 else none

def isBlank (c : Char) : Bool := c.toNat ≤ 0x20

def isTabOrNewline (c : Char) : Bool := c = '\t' || c = '\n' || c = '\r'

/-- What the parser reads of the end of an input. -/
def cleanEnd (input : List Char) : List Char :=
  (input.rdropWhile isBlank).filter fun c => !isTabOrNewline c

/-- The input as the parser reads it. -/
def clean (input : List Char) : List Char := cleanEnd (input.dropWhile isBlank)

def isSchemeChar (c : Char) : Bool := c.isAlphanum || c = '+' || c = '-' || c = '.'

/-- The scheme, and what follows its colon. -/
def splitScheme (text : List Char) : Option (List Char × List Char) :=
  match text, text.dropWhile isSchemeChar with
  | c :: _, ':' :: rest =>
    if c.isAlpha then some ((text.takeWhile isSchemeChar).map Char.toLower, rest) else none
  | _, _ => none

def endsAuthority (c : Char) : Bool := isSlash c || !isPathChar c

/-- The host, and the port where a colon outside brackets announces one. -/
def splitPort : Bool → List Char → List Char × Option (List Char)
  | _, [] => ([], none)
  | inside, c :: rest =>
    if c = ':' ∧ inside = false then ([], some rest)
    else
      let read := splitPort (if c = '[' then true else if c = ']' then false else inside) rest
      (c :: read.1, read.2)

/-- The port of a URL of that scheme. It is left out where it is the default. -/
def readPort (scheme : List Char) : Option (List Char) → Option (Option Nat)
  | none => some none
  | some digits =>
    if !digits.all Char.isDigit then none
    else if digits = [] then some none
    else
      let port := Nat.ofDigitChars 10 digits 0
      if 65535 < port then none else some (if specialPort scheme = some port then none else some port)

def dropSlash (text : List Char) : List Char := if text.head?.any isSlash then text.tail else text

/-- The URL of a host, with a port or without. -/
def addressed (standard : Standard) (scheme address : List Char) (path : List Segment) : Option Parsed := do
  let (name, digits) := splitPort false address
  guard (name ≠ [])
  let host ← standard.host name
  let port ← readPort scheme digits
  some ⟨scheme, host, port, path⟩

/-- A URL from its authority on. -/
def authority (standard : Standard) (scheme text : List Char) : Option Parsed :=
  addressed standard scheme ((text.takeWhile fun c => !endsAuthority c).rtakeWhile (· ≠ '@'))
    (resolve [] (segments (dropSlash (text.dropWhile fun c => !endsAuthority c))))

/-- A text without a scheme, on a base. -/
def relative (standard : Standard) (base : Parsed) : List Char → Option Parsed
  | [] => some base
  | c :: rest =>
    if isSlash c then
      if rest.head?.any isSlash then authority standard base.scheme (rest.dropWhile isSlash)
      else some { base with path := resolve [] (segments rest) }
    else if isPathChar c then some { base with path := resolve base.path.dropLast (segments (c :: rest)) }
    else some base

def parse (standard : Standard) (base : Option Parsed) (input : List Char) : Option Parsed :=
  let text := clean input
  match splitScheme text with
  | some (scheme, rest) =>
    if (specialPort scheme).isNone then standard.others scheme rest base
    else
      match base.filter fun b => b.scheme = scheme ∧ ¬ "//".toList <+: rest with
      | some b => relative standard b rest
      | none => authority standard scheme (rest.dropWhile isSlash)
  | none => base.bind fun b => relative standard b text

/-! ## What the parser reads of a text -/

theorem isTabOrNewline_of_not_blank {c : Char} (visible : isBlank c = false) : isTabOrNewline c = false := by
  cases white : isTabOrNewline c with
  | false => rfl
  | true =>
    simp only [isTabOrNewline, Bool.or_eq_true, decide_eq_true_eq] at white
    rcases white with (rfl | rfl) | rfl <;> cases visible

/-- Blanks and tabs are dropped behind a text without any. -/
theorem cleanEnd_append {front : List Char} (rest : List Char)
    (visible : ∀ c ∈ front, isBlank c = false) : cleanEnd (front ++ rest) = front ++ cleanEnd rest := by
  have before : front.rdropWhile isBlank = front :=
    List.rdropWhile_eq_self_iff.mpr fun h => by simp [visible _ (List.getLast_mem h)]
  have ends : (front ++ rest).rdropWhile isBlank = front ++ rest.rdropWhile isBlank := by
    rw [List.rdropWhile, List.reverse_append, List.dropWhile_append]
    split
    · rename_i none
      rw [← List.rdropWhile, before, List.rdropWhile, List.isEmpty_iff.mp none]
      simp
    · simp [List.rdropWhile]
  have white : front.filter (fun c => !isTabOrNewline c) = front :=
    List.filter_eq_self.mpr fun d mem => by simp [isTabOrNewline_of_not_blank (visible d mem)]
  rw [cleanEnd, ends, List.filter_append, white, cleanEnd]

theorem cleanEnd_cons {c : Char} (rest : List Char) (visible : isBlank c = false) :
    cleanEnd (c :: rest) = c :: cleanEnd rest :=
  cleanEnd_append rest fun d mem => by rwa [List.mem_singleton.mp mem]

theorem clean_append {front : List Char} (rest : List Char) (given : front ≠ [])
    (visible : ∀ c ∈ front, isBlank c = false) : clean (front ++ rest) = front ++ cleanEnd rest := by
  have kept : (front ++ rest).dropWhile isBlank = front ++ rest := by
    obtain ⟨c, cs, rfl⟩ := List.exists_cons_of_ne_nil given
    exact List.dropWhile_cons_of_neg (by simp [visible c (by simp)])
  rw [clean, kept, cleanEnd_append rest visible]

theorem splitPort_colon {host : List Char} {inside : Bool} (ends : splitPort inside (host ++ [':']) = (host, some []))
    (port : List Char) : splitPort inside (host ++ ':' :: port) = (host, some port) ∧
      splitPort inside host = (host, none) := by
  induction host generalizing inside with
  | nil =>
    cases inside with
    | false => exact ⟨rfl, rfl⟩
    | true => cases ends
  | cons c cs ih =>
    simp only [List.cons_append, splitPort] at ends ⊢
    by_cases colon : c = ':' ∧ inside = false
    · simp [colon] at ends
    · rw [if_neg colon] at ends ⊢
      rw [if_neg colon]
      simp only [Prod.mk.injEq, List.cons.injEq, true_and] at ends
      obtain ⟨whole, none⟩ := ih (Prod.ext ends.1 ends.2)
      rw [whole, none]
      exact ⟨rfl, rfl⟩

theorem splitPort_of_no_colon {host : List Char} {inside : Bool} (none : ':' ∉ host) :
    splitPort inside host = (host, .none) := by
  induction host generalizing inside with
  | nil => rfl
  | cons c cs ih =>
    obtain ⟨head, tail⟩ := not_or.mp (fun h => none (List.mem_cons.mpr h))
    rw [splitPort, if_neg fun h => head h.1.symm, ih tail]

variable {standard : Standard}

/-- An authority that a slash ends, or the input. -/
theorem authority_append {scheme address rest : List Char}
    (plain : ∀ c ∈ address, endsAuthority c = false ∧ c ≠ '@') (ends : ∀ c ∈ rest.head?, endsAuthority c = true) :
    authority standard scheme (address ++ rest) =
      addressed standard scheme address (resolve [] (segments (dropSlash rest))) := by
  have inside : ∀ c ∈ address, (!endsAuthority c) = true := fun c mem => by simp [(plain c mem).1]
  have taken : (address ++ rest).takeWhile (fun c => !endsAuthority c) = address := by
    rw [List.takeWhile_append_of_pos inside]
    cases rest with
    | nil => simp
    | cons c cs => simp [ends c rfl]
  have dropped : (address ++ rest).dropWhile (fun c => !endsAuthority c) = rest := by
    rw [List.dropWhile_append_of_pos inside]
    cases rest with
    | nil => rfl
    | cons c cs => simp [ends c rfl]
  have credentials : address.rtakeWhile (· ≠ '@') = address :=
    List.rtakeWhile_eq_self_iff.mpr fun c mem => by simp [(plain c mem).2]
  rw [authority, taken, dropped, credentials]

/-- A host, a port where there is one, and a path, after a scheme of the web. -/
theorem parse_address {scheme address rest : List Char} (base : Option Parsed)
    (web : scheme = "http".toList ∨ scheme = "https".toList) (given : address ≠ [])
    (plain : ∀ c ∈ address, isBlank c = false ∧ endsAuthority c = false ∧ c ≠ '@')
    (ends : ∀ c ∈ (cleanEnd rest).head?, endsAuthority c = true) :
    parse standard base (scheme ++ "://".toList ++ address ++ rest) =
      addressed standard scheme address (resolve [] (segments (dropSlash (cleanEnd rest)))) := by
  have shown : (scheme ++ "://".toList).all fun c => !isBlank c := by
    rcases web with rfl | rfl <;> rfl
  have visible : ∀ c ∈ scheme ++ "://".toList ++ address, isBlank c = false := fun c mem => by
    rcases List.mem_append.mp mem with mem | mem
    · simpa using List.all_eq_true.mp shown c mem
    · exact (plain c mem).1
  have special : (specialPort scheme).isNone = false := by
    rcases web with rfl | rfl <;> rfl
  have split : splitScheme (scheme ++ "://".toList ++ address ++ cleanEnd rest) =
      some (scheme, "//".toList ++ (address ++ cleanEnd rest)) := by
    rcases web with rfl | rfl <;> rfl
  have none : (base.filter fun b => b.scheme = scheme ∧
      ¬ "//".toList <+: "//".toList ++ (address ++ cleanEnd rest)) = none :=
    Option.filter_eq_none_iff.mpr fun b _ => by simp
  have slashes : ("//".toList ++ (address ++ cleanEnd rest)).dropWhile isSlash = address ++ cleanEnd rest := by
    obtain ⟨c, cs, rfl⟩ := List.exists_cons_of_ne_nil given
    have first : isSlash c = false := by
      have reads := (plain c (by simp)).2.1
      simp only [endsAuthority, Bool.or_eq_false_iff] at reads
      exact reads.1
    simp [first, show isSlash '/' = true from rfl]
  rw [parse, clean_append rest (by simp) visible, split]
  simp only [special, none, slashes]
  rw [authority_append (fun c mem => (plain c mem).2) ends]
  rfl

/-! ## Origins -/

/-- The origin of a page. -/
structure Origin (standard : Standard) where
  scheme : List Char
  host : List Char
  port : Option Nat
  web : scheme = "http".toList ∨ scheme = "https".toList
  named : host ≠ []
  plain : ∀ c ∈ host, isBlank c = false ∧ endsAuthority c = false ∧ c ≠ '@'
  ends : splitPort false (host ++ [':']) = (host, some [])
  parsed : standard.host host = some host
  small : ∀ p ∈ port, p ≤ 65535 ∧ specialPort scheme ≠ some p

namespace Origin

def portText : Option Nat → List Char
  | none => []
  | some p => ':' :: Nat.toDigits 10 p

variable (page : Origin standard)

def address : List Char := page.host ++ portText page.port

/-- The origin as a page reads it. -/
def serialized : List Char := page.scheme ++ "://".toList ++ page.address

/-- The URL of the origin. -/
def url : Parsed := ⟨page.scheme, page.host, page.port, [[]]⟩

variable {page}

theorem plain_digit {c : Char} (digit : c.isDigit = true) :
    isBlank c = false ∧ endsAuthority c = false ∧ c ≠ '@' := by
  have low : '0'.toNat ≤ c.toNat ∧ c.toNat ≤ '9'.toNat := by
    simpa [Char.isDigit, UInt32.le_iff_toNat_le] using digit
  have apart : ∀ d : Char, d.toNat < '0'.toNat ∨ '9'.toNat < d.toNat → c ≠ d := fun d far same => by
    subst same
    omega
  have blank : ¬ c.toNat ≤ 0x20 := by
    have := low.1
    simp at this
    omega
  simp [isBlank, blank, endsAuthority, isSlash, isPathChar, apart '/' (by decide), apart '\\' (by decide),
    apart '?' (by decide), apart '#' (by decide), apart '@' (by decide)]

theorem plain_address : ∀ c ∈ page.address, isBlank c = false ∧ endsAuthority c = false ∧ c ≠ '@' := by
  intro c mem
  rcases List.mem_append.mp mem with mem | mem
  · exact page.plain c mem
  · cases port : page.port with
    | none => simp [port, portText] at mem
    | some p =>
      rw [port, portText] at mem
      rcases List.mem_cons.mp mem with rfl | mem
      · decide
      · exact plain_digit (Nat.isDigit_of_mem_toDigits (by decide) (by decide) mem)

theorem addressed_eq (path : List Segment) : addressed standard page.scheme page.address path =
    some ⟨page.scheme, page.host, page.port, path⟩ := by
  cases port : page.port with
  | none =>
    simp [addressed, address, port, portText, (splitPort_colon page.ends []).2, page.named, page.parsed, readPort]
  | some p =>
    obtain ⟨small, other⟩ := page.small p port
    have digits : (Nat.toDigits 10 p).all Char.isDigit = true :=
      List.all_eq_true.mpr fun c mem => Nat.isDigit_of_mem_toDigits (by decide) (by decide) mem
    have given : Nat.toDigits 10 p ≠ [] := Nat.toDigits_ne_nil
    have read : readPort page.scheme (some (Nat.toDigits 10 p)) = some (some p) := by
      simp [readPort, digits, given, Nat.not_lt.mpr small, other]
    simp [addressed, address, port, portText, (splitPort_colon page.ends _).1, page.named, page.parsed, read]

/-- A text that begins with the origin and a slash is on the origin, whatever the base is. -/
theorem parse_append (base : Option Parsed) (rest : List Char) :
    parse standard base (page.serialized ++ '/' :: rest) =
      some ⟨page.scheme, page.host, page.port, resolve [] (segments (cleanEnd rest))⟩ := by
  have slash : cleanEnd ('/' :: rest) = '/' :: cleanEnd rest := cleanEnd_cons rest rfl
  have given : page.address ≠ [] := by simp [address, page.named]
  have ends : ∀ c ∈ (cleanEnd ('/' :: rest)).head?, endsAuthority c = true := by
    intro c first
    rw [slash] at first
    rw [← Option.some.inj first]
    decide
  rw [serialized, parse_address base page.web given plain_address ends, addressed_eq, slash]
  rfl

/-- A path on the origin. -/
theorem parse_path {c : Char} (rest : List Char) (visible : isBlank c = false) (other : isSlash c = false) :
    parse standard (some page.url) ('/' :: c :: rest) =
      some ⟨page.scheme, page.host, page.port, resolve [] (segments (c :: cleanEnd rest))⟩ := by
  have read : clean (['/', c] ++ rest) = ['/', c] ++ cleanEnd rest :=
    clean_append rest (by simp) (by simp [visible]; decide)
  have scheme : splitScheme ('/' :: c :: cleanEnd rest) = none := rfl
  simp only [List.cons_append, List.nil_append] at read
  rw [parse, read, scheme]
  simp [relative, other, show isSlash '/' = true from rfl, url]

end Origin

end Url
