import Mathlib.Data.Option.Basic
import Concorrd.Lib.Url

/-!
# What a browser surface loads

The allowlist of `BrowserSurface.tsx` is a test of the raw text, and the browser resolves that text on
the page's origin before it loads anything. The main result says which texts pass the test and still
lead out of every extension's directory.
-/

namespace Concorrd

open Url

/-! ## The allowlist -/

def isLabelChar (c : Char) : Bool := c.isAlphanum || c = '-'

def isExtIdChar (c : Char) : Bool := c.isAlphanum || c = '.' || c = '_' || c = '-'

/-- The label of `HOSTED_ALLOWLIST`, and what follows the host. -/
def matchHosted (src : List Char) : Option (List Char × List Char) := do
  let rest ← src.dropPrefix? "https://".toList
  guard (rest.takeWhile isLabelChar ≠ [])
  let tail ← (rest.dropWhile isLabelChar).dropPrefix? ".concord.app".toList
  guard (tail.head?.all fun c => c = '/')
  some (rest.takeWhile isLabelChar, tail)

/-- The id of `EXT_PATH`, and what follows the slash behind it. -/
def matchExtPath (path : List Char) : Option (List Char × List Char) := do
  let rest ← path.dropPrefix? "/ext/".toList
  guard (rest.takeWhile isExtIdChar ≠ [])
  let tail ← (rest.dropWhile isExtIdChar).dropPrefix? ['/']
  some (rest.takeWhile isExtIdChar, tail)

/-- `PATH_TRAVERSAL`: two dots between slashes or the ends. -/
def hasTraversal (path : List Char) : Bool := (path.splitOn '/').contains "..".toList

/-- No dev URL is set. -/
def isBrowserSurfaceSrcAllowed (src origin : List Char) : Bool :=
  if src = [] then false
  else if (matchHosted src).isSome then true
  else if (matchExtPath src).isSome && !hasTraversal src then true
  else if origin ≠ [] && (origin ++ "/ext/".toList).isPrefixOf src then
    (matchExtPath (src.drop origin.length)).isSome && !hasTraversal (src.drop origin.length)
  else false

/-! ## What is loaded -/

variable {standard : Standard}

/-- The host parser on a name of letters, digits, hyphens and dots that does not end in a number: it
may refuse the name, and gives back nothing but the name in lower case. -/
structure ReadsDomains (standard : Standard) : Prop where
  folds : ∀ front last host, (front ++ '.' :: last).all (fun c => isLabelChar c || c = '.') →
    last ≠ [] → last.all Char.isAlpha → standard.host (front ++ '.' :: last) = some host →
    host = (front ++ '.' :: last).map Char.toLower
  folded : ∀ front last, (front ++ '.' :: last).all (fun c => isLabelChar c || c = '.') →
    last ≠ [] → last.all Char.isAlpha →
    standard.host ((front ++ '.' :: last).map Char.toLower) = standard.host (front ++ '.' :: last)

/-- The name of one extension, then more. -/
def EntersExtension (path : List Segment) : Prop :=
  ∃ id rest, path = id :: rest ∧ rest ≠ [] ∧ id ≠ [] ∧ id.all isExtIdChar ∧ id ≠ ".".toList ∧ id ≠ "..".toList

/-- A path below `/ext/<id>/`. -/
def BelowExtension (path : List Segment) : Prop := ∃ rest, path = "ext".toList :: rest ∧ EntersExtension rest

/-- On the default port of a host of one label below `concord.app`. -/
def HostedUrl (url : Parsed) : Prop :=
  url.scheme = "https".toList ∧ url.port = none ∧
    ∃ label, label ≠ [] ∧ '.' ∉ label ∧ url.host = label ++ ".concord.app".toList

def OfOrigin (page : Origin standard) (url : Parsed) : Prop :=
  url.scheme = page.scheme ∧ url.host = page.host ∧ url.port = page.port

/-- The URL is hosted or below an extension of the page, and on the page's origin it is the latter. -/
def LoadsExtension (page : Origin standard) (url : Parsed) : Prop :=
  (HostedUrl url ∨ OfOrigin page url ∧ BelowExtension url.path) ∧
    (OfOrigin page url → BelowExtension url.path)

/-! ## Where the segments lead -/

/-- What follows the id of an extension climbs no higher than that id, or where it does, comes down in
an extension again. The id that is one dot is no level of its own. -/
def Returns (id : Segment) (rest : List Segment) : Prop :=
  match climbs rest + if isName id then 0 else 1 with
  | 0 => True
  | 1 => EntersExtension (left rest)
  | _ => BelowExtension (left rest)

/-- The texts that pass as paths of extensions, with the id and what follows it. -/
def OwnExtension (page : Origin standard) (src id rest : List Char) : Prop :=
  ∃ path, (src = path ∨ src = page.serialized ++ path) ∧ hasTraversal path = false ∧
    matchExtPath path = some (id, rest)

/-- The hosted text names the page's own host. -/
def NamesPage (page : Origin standard) (label : List Char) : Prop :=
  page.scheme = "https".toList ∧ page.port = none ∧
    page.host = (label ++ ".concord.app".toList).map Char.toLower

/-! ## What the patterns match -/

variable {src path id rest label : List Char}

theorem shown_of_isExtIdChar {c : Char} (h : isExtIdChar c = true) :
    isBlank c = false ∧ isSlash c = false ∧ isPathChar c = true ∧ inPathSet c = false ∧ c ≠ '@' ∧ c ≠ ':' ∧ c ≠ '%' := by
  have apart : ∀ d : Char, isExtIdChar d = false → c ≠ d := fun d other same => by
    rw [same, other] at h
    cases h
  have range : 0x2d ≤ c.toNat ∧ c.toNat ≤ 0x7a := by
    simp only [isExtIdChar] at h
    delta Char.isAlphanum Char.isAlpha Char.isUpper Char.isLower Char.isDigit at h
    simp only [Bool.or_eq_true, Bool.and_eq_true, decide_eq_true_eq, UInt32.le_iff_toNat_le, ge_iff_le] at h
    rcases h with ((((h | h) | h) | rfl) | rfl) | rfl
    all_goals first | decide | skip
    all_goals
      have value : c.toNat = c.val.toNat := rfl
      simp at h
      omega
  have low : ¬ c.toNat ≤ 0x20 ∧ ¬ c.toNat ≤ 0x1f ∧ ¬ 0x7e < c.toNat := by omega
  simp [isBlank, isSlash, isPathChar, inPathSet, low, apart '/' rfl, apart '\\' rfl, apart '?' rfl,
    apart '#' rfl, apart '@' rfl, apart ':' rfl, apart '%' rfl, apart ' ' rfl, apart '\x22' rfl, apart '<' rfl,
    apart '>' rfl, apart '^' rfl, apart '\x60' rfl, apart '\x7b' rfl, apart '\x7d' rfl]

theorem eq_replicate_of_dots {segment : Segment} {n : Nat} (raw : '%' ∉ segment) (spelled : dots segment = some n) :
    segment = List.replicate n '.' := by
  induction segment generalizing n with
  | nil => cases spelled; rfl
  | cons c cs ih =>
    obtain ⟨head, tail⟩ := not_or.mp (fun h => raw (List.mem_cons.mpr h))
    by_cases dot : c = '.'
    · subst dot
      obtain ⟨m, rest, rfl⟩ := Option.map_eq_some_iff.mp spelled
      rw [ih tail rest]
      rfl
    · have percent : c ≠ '%' := fun same => head same.symm
      have none : dots (c :: cs) = none := by
        rw [dots] <;> simp [dot, percent]
      rw [none] at spelled
      cases spelled

theorem dropPrefix_eq_some_iff {text front rest : List Char} :
    text.dropPrefix? front = some rest ↔ text = front ++ rest := by
  simp [List.dropPrefix?_eq_some_iff]

/-- A run of characters that the next one is not of. -/
theorem span_append {p : Char → Bool} {run tail : List Char} {c : Char} (all : run.all p = true)
    (stops : p c = false) :
    (run ++ c :: tail).takeWhile p = run ∧ (run ++ c :: tail).dropWhile p = c :: tail := by
  have inside : ∀ d ∈ run, p d = true := List.all_eq_true.mp all
  constructor
  · rw [List.takeWhile_append_of_pos inside, List.takeWhile_cons_of_neg (by simp [stops]), List.append_nil]
  · rw [List.dropWhile_append_of_pos inside, List.dropWhile_cons_of_neg (by simp [stops])]

theorem matchExtPath_eq_some_iff : matchExtPath path = some (id, rest) ↔
    path = "/ext/".toList ++ (id ++ '/' :: rest) ∧ id ≠ [] ∧ id.all isExtIdChar := by
  constructor
  · intro found
    simp only [matchExtPath, Option.bind_eq_bind, Option.bind_eq_some_iff, dropPrefix_eq_some_iff,
      Option.guard_eq_some', Option.some.injEq, Prod.mk.injEq, exists_const] at found
    obtain ⟨text, rfl, given, tail, ends, rfl, rfl⟩ := found
    refine ⟨?_, given, List.all_takeWhile⟩
    rw [← List.singleton_append, ← ends, List.takeWhile_append_dropWhile]
  · rintro ⟨rfl, given, all⟩
    obtain ⟨taken, dropped⟩ := @span_append isExtIdChar id rest '/' all rfl
    have front : ("/ext/".toList ++ (id ++ '/' :: rest)).dropPrefix? "/ext/".toList = some (id ++ '/' :: rest) :=
      dropPrefix_eq_some_iff.mpr rfl
    have slash : ('/' :: rest).dropPrefix? ['/'] = some rest := dropPrefix_eq_some_iff.mpr rfl
    simp only [matchExtPath, front, Option.bind_eq_bind, Option.bind_some, taken, dropped, slash, guard, given,
      ne_eq, not_false_eq_true, if_true, Option.pure_def]

theorem matchHosted_eq_some_iff : matchHosted src = some (label, rest) ↔
    src = "https://".toList ++ (label ++ (".concord.app".toList ++ rest)) ∧ label ≠ [] ∧ label.all isLabelChar ∧
      rest.head?.all fun c => c = '/' := by
  constructor
  · intro found
    simp only [matchHosted, Option.bind_eq_bind, Option.bind_eq_some_iff, dropPrefix_eq_some_iff,
      Option.guard_eq_some', Option.some.injEq, Prod.mk.injEq, exists_const] at found
    obtain ⟨text, rfl, given, tail, host, ends, rfl, rfl⟩ := found
    refine ⟨?_, given, List.all_takeWhile, ends⟩
    rw [← host, List.takeWhile_append_dropWhile]
  · rintro ⟨rfl, given, all, ends⟩
    obtain ⟨taken, dropped⟩ := @span_append isLabelChar label ("concord.app".toList ++ rest) '.' all rfl
    have front : ("https://".toList ++ (label ++ (".concord.app".toList ++ rest))).dropPrefix? "https://".toList =
        some (label ++ '.' :: ("concord.app".toList ++ rest)) := dropPrefix_eq_some_iff.mpr rfl
    have host : ('.' :: ("concord.app".toList ++ rest)).dropPrefix? ".concord.app".toList = some rest :=
      dropPrefix_eq_some_iff.mpr rfl
    simp only [matchHosted, front, Option.bind_eq_bind, Option.bind_some, taken, dropped, host, guard, given,
      ends, ne_eq, not_false_eq_true, if_true, Option.pure_def]

/-- The texts that pass. -/
theorem allowed_iff {page : Origin standard} : isBrowserSurfaceSrcAllowed src page.serialized = true ↔
    (∃ label rest, matchHosted src = some (label, rest)) ∨ ∃ id rest, OwnExtension page src id rest := by
  constructor
  · intro passes
    simp only [isBrowserSurfaceSrcAllowed] at passes
    split at passes
    · cases passes
    split at passes
    · rename_i hosted
      obtain ⟨⟨label, rest⟩, found⟩ := Option.isSome_iff_exists.mp hosted
      exact .inl ⟨label, rest, found⟩
    split at passes
    · rename_i own
      simp only [Bool.and_eq_true, Bool.not_eq_true'] at own
      obtain ⟨⟨id, rest⟩, found⟩ := Option.isSome_iff_exists.mp own.1
      exact .inr ⟨id, rest, src, .inl rfl, own.2, found⟩
    split at passes
    · rename_i absolute
      simp only [Bool.and_eq_true, List.isPrefixOf_iff_prefix] at absolute passes
      obtain ⟨tail, rfl⟩ := absolute.2
      rw [List.append_assoc, List.drop_left, Bool.not_eq_true'] at passes
      obtain ⟨⟨id, rest⟩, found⟩ := Option.isSome_iff_exists.mp passes.1
      exact .inr ⟨id, rest, _, .inr (List.append_assoc _ _ _), passes.2, found⟩
    · cases passes
  · rintro (⟨label, rest, hosted⟩ | ⟨id, rest, path, given, straight, found⟩)
    · have some : src ≠ [] := by
        rw [(matchHosted_eq_some_iff.mp hosted).1]
        simp
      simp [isBrowserSurfaceSrcAllowed, some, hosted]
    · have shape := (matchExtPath_eq_some_iff.mp found).1
      rcases given with rfl | rfl
      · have some : src ≠ [] := by
          rw [shape]
          simp
        simp [isBrowserSurfaceSrcAllowed, some, found, straight]
      · have page_some : page.serialized ≠ [] := by simp [Origin.serialized]
        have starts : "/ext/".toList <+: path := shape ▸ List.prefix_append _ _
        have whole : (page.serialized ++ "/ext/".toList).isPrefixOf (page.serialized ++ path) = true :=
          List.isPrefixOf_iff_prefix.mpr ((List.prefix_append_right_inj _).mpr starts)
        have below : (page.serialized ≠ [] &&
            (page.serialized ++ "/ext/".toList).isPrefixOf (page.serialized ++ path)) = true := by
          rw [whole]
          simp [page_some]
        rw [isBrowserSurfaceSrcAllowed, if_neg (by simp [page_some]), if_pos below, List.drop_left, found, straight]
        simp

/-! ## Paths of extensions -/

theorem not_mem_percent (all : id.all isExtIdChar) : '%' ∉ id := by
  intro mem
  have := (shown_of_isExtIdChar (List.all_eq_true.mp all _ mem)).2.2.2.2.2.2
  contradiction

theorem plain_id (all : id.all isExtIdChar) : Plain id := by
  intro c mem
  obtain ⟨-, slash, text, raw, -⟩ := shown_of_isExtIdChar (List.all_eq_true.mp all c mem)
  exact ⟨slash, text, raw⟩

/-- An id that is no traversal is a name, unless it is one dot. -/
theorem enter_id (all : id.all isExtIdChar) (straight : id ≠ "..".toList) :
    (isName id = true ∧ id ≠ ".".toList ∧ enter ["ext".toList] id = ["ext".toList, id]) ∨
    (isName id = false ∧ enter ["ext".toList] id = ["ext".toList]) := by
  have up : isDoubleDot id = false := by
    cases dotted : isDoubleDot id with
    | false => rfl
    | true => exact absurd (eq_replicate_of_dots (not_mem_percent all) (of_decide_eq_true dotted)) straight
  cases here : isSingleDot id with
  | false =>
    have other : id ≠ ".".toList := by
      rintro rfl
      cases here
    exact .inl ⟨by simp [isName, up, here], other, by simp [enter, up, here]⟩
  | true => exact .inr ⟨by simp [isName, here], by simp [enter, up, here]⟩

theorem below_iff_returns {segs : List Segment} (given : id ≠ []) (all : id.all isExtIdChar)
    (straight : id ≠ "..".toList) (some : segs ≠ []) :
    BelowExtension (resolve (enter ["ext".toList] id) segs) ↔ Returns id segs := by
  rw [resolve_eq some, Returns]
  rcases enter_id all straight with ⟨name, other, entered⟩ | ⟨dot, entered⟩
  · rw [entered, name]
    match climbs segs with
    | 0 =>
      exact iff_of_true ⟨_, rfl, id, left segs, rfl, left_ne_nil some, given, all, other, straight⟩ trivial
    | 1 => simp [BelowExtension]
    | n + 2 => simp
  · rw [entered, dot]
    match climbs segs with
    | 0 => simp [BelowExtension]
    | n + 1 => simp

variable {page : Origin standard} {url : Parsed}

theorem loadsExtension_iff {segs : List Segment} :
    LoadsExtension page ⟨page.scheme, page.host, page.port, segs⟩ ↔ BelowExtension segs := by
  have own : OfOrigin page ⟨page.scheme, page.host, page.port, segs⟩ := ⟨rfl, rfl, rfl⟩
  exact ⟨fun h => h.2 own, fun h => ⟨.inr ⟨own, h⟩, fun _ => h⟩⟩

theorem hasTraversal_up (rest : List Char) : hasTraversal ("/ext/".toList ++ ("..".toList ++ '/' :: rest)) = true := by
  have slash : (fun c => c == '/') '/' = true := rfl
  have split : ("/ext".toList ++ '/' :: ("..".toList ++ '/' :: rest)).splitOn '/' =
      "/ext".toList.splitOn '/' ++ ("..".toList.splitOn '/' ++ rest.splitOn '/') := by
    simp only [List.splitOn]
    rw [List.splitOnP_append_cons (p := fun c => c == '/') _ _ slash,
      List.splitOnP_append_cons (p := fun c => c == '/') _ _ slash]
  rw [hasTraversal, List.contains_iff_mem]
  refine split ▸ List.mem_append_right _ (List.mem_append_left _ ?_)
  decide

/-- The segments of a path of an extension. -/
theorem segments_ext (all : id.all isExtIdChar) (rest : List Char) :
    segments (cleanEnd ("ext/".toList ++ (id ++ '/' :: rest))) = "ext".toList :: id :: segments (cleanEnd rest) := by
  have visible : ∀ c ∈ "ext/".toList ++ (id ++ ['/']), isBlank c = false := by
    intro c mem
    simp only [List.mem_append] at mem
    rcases mem with mem | mem | mem
    · have front : "ext/".toList.all fun c => !isBlank c := rfl
      simpa using List.all_eq_true.mp front c mem
    · exact (shown_of_isExtIdChar (List.all_eq_true.mp all c mem)).1
    · rw [List.mem_singleton.mp mem]
      decide
  have front : "ext/".toList ++ (id ++ '/' :: rest) = ("ext/".toList ++ (id ++ ['/'])) ++ rest := by simp
  have shape : ("ext/".toList ++ (id ++ ['/'])) ++ cleanEnd rest = "ext".toList ++ '/' :: (id ++ '/' :: cleanEnd rest) := by
    simp
  rw [front, cleanEnd_append rest visible, shape, segments_append (plain_id rfl) rfl, segments_append (plain_id all) rfl]

/-- Where a text that passes as a path of an extension leads. -/
theorem own_iff (own : OwnExtension page src id rest) :
    (∀ url, parse standard (some page.url) src = some url → LoadsExtension page url) ↔
      Returns id (segments (cleanEnd rest)) := by
  obtain ⟨path, given, straight, found⟩ := own
  obtain ⟨shape, some_id, all⟩ := matchExtPath_eq_some_iff.mp found
  have up : id ≠ "..".toList := by
    rintro rfl
    rw [shape, hasTraversal_up] at straight
    cases straight
  have segs : segments (cleanEnd ("ext/".toList ++ (id ++ '/' :: rest))) =
      "ext".toList :: id :: segments (cleanEnd rest) := segments_ext all rest
  have entered : resolve [] ("ext".toList :: id :: segments (cleanEnd rest)) =
      resolve (enter ["ext".toList] id) (segments (cleanEnd rest)) := by
    rw [resolve_cons (List.cons_ne_nil _ _), resolve_cons (segments_ne_nil _)]
    rfl
  have parsed : parse standard (some page.url) src = some ⟨page.scheme, page.host, page.port,
      resolve (enter ["ext".toList] id) (segments (cleanEnd rest))⟩ := by
    rw [← entered, ← segs]
    rcases given with given | given <;> rw [given]
    · have slash : path = '/' :: 'e' :: ("xt/".toList ++ (id ++ '/' :: rest)) := shape
      have first : cleanEnd ("ext/".toList ++ (id ++ '/' :: rest)) =
          'e' :: cleanEnd ("xt/".toList ++ (id ++ '/' :: rest)) := cleanEnd_cons _ rfl
      rw [slash, Origin.parse_path _ rfl rfl, first]
    · have slash : path = '/' :: ("ext/".toList ++ (id ++ '/' :: rest)) := shape
      rw [slash, Origin.parse_append]
  rw [parsed, ← below_iff_returns some_id all up (segments_ne_nil _), ← @loadsExtension_iff _ page]
  exact ⟨fun h => h _ rfl, fun h url same => Option.some.inj same ▸ h⟩

/-! ## Hosted extensions -/

theorem domain_of_label (all : label.all isLabelChar) :
    (label ++ ".concord.app".toList).all (fun c => isLabelChar c || c = '.') = true := by
  rw [List.all_append, Bool.and_eq_true]
  refine ⟨List.all_eq_true.mpr fun c mem => ?_, rfl⟩
  rw [List.all_eq_true.mp all c mem]
  rfl

theorem plain_host (all : label.all isLabelChar) : ∀ c ∈ label ++ ".concord.app".toList,
    isBlank c = false ∧ endsAuthority c = false ∧ c ≠ '@' ∧ c ≠ ':' := by
  intro c mem
  have isId : isExtIdChar c = true := by
    have kind := List.all_eq_true.mp (domain_of_label all) c mem
    simp only [isLabelChar, Bool.or_eq_true, decide_eq_true_eq] at kind
    rcases kind with (kind | kind) | kind <;> simp [isExtIdChar, kind]
  obtain ⟨blank, slash, text, -, credential, colon, -⟩ := shown_of_isExtIdChar isId
  exact ⟨blank, by simp [endsAuthority, slash, text], credential, colon⟩

/-- What a hosted text is read as. -/
theorem parse_hosted (hosted : matchHosted src = some (label, rest)) :
    parse standard (some page.url) src =
      (standard.host (label ++ ".concord.app".toList)).map fun host =>
        ⟨"https".toList, host, none, resolve [] (segments (dropSlash (cleanEnd rest)))⟩ := by
  obtain ⟨rfl, given, all, ends⟩ := matchHosted_eq_some_iff.mp hosted
  have plain := plain_host all
  have some_host : label ++ ".concord.app".toList ≠ [] := by simp
  have stops : ∀ c ∈ (cleanEnd rest).head?, endsAuthority c = true := by
    cases rest with
    | nil => simp [cleanEnd]
    | cons c cs =>
      have slash : c = '/' := by simpa using ends
      have front : cleanEnd ('/' :: cs) = '/' :: cleanEnd cs := cleanEnd_cons cs rfl
      intro d mem
      rw [slash, front] at mem
      rw [← Option.some.inj mem]
      decide
  have shape : "https://".toList ++ (label ++ (".concord.app".toList ++ rest)) =
      "https".toList ++ "://".toList ++ (label ++ ".concord.app".toList) ++ rest := by simp
  have portless : splitPort false (label ++ ".concord.app".toList) = (label ++ ".concord.app".toList, none) :=
    splitPort_of_no_colon fun mem => (plain _ mem).2.2.2 rfl
  rw [shape, parse_address _ (.inr rfl) some_host
    (fun c mem => ⟨(plain c mem).1, (plain c mem).2.1, (plain c mem).2.2.1⟩) stops, addressed, portless]
  generalize label ++ ".concord.app".toList = name at some_host
  cases parsed : standard.host name <;> simp [guard, readPort, some_host, parsed]

theorem eq_dot_of_toLower {c : Char} (h : c.toLower = '.') : c = '.' := by
  delta Char.toLower at h
  split at h
  · rename_i upper
    have value := congrArg (fun d : Char => d.val.toNat) h
    simp only [UInt32.toNat_add, ge_iff_le, UInt32.le_iff_toNat_le] at value upper
    simp at value upper
    omega
  · exact h

/-- Where a hosted text leads: to its host, unless that is the page's own. -/
theorem hosted_iff (domains : ReadsDomains standard) (hosted : matchHosted src = some (label, rest)) :
    (∀ url, parse standard (some page.url) src = some url → LoadsExtension page url) ↔
      (NamesPage page label → BelowExtension (left (segments (dropSlash (cleanEnd rest))))) := by
  obtain ⟨-, given, all, -⟩ := matchHosted_eq_some_iff.mp hosted
  have domain : label ++ ".concord.app".toList = (label ++ ".concord".toList) ++ '.' :: "app".toList := by simp
  have kind := domain_of_label all
  have path : resolve [] (segments (dropSlash (cleanEnd rest))) = left (segments (dropSlash (cleanEnd rest))) := by
    rw [resolve_eq (segments_ne_nil _), List.take_nil, List.nil_append]
  rw [parse_hosted hosted, path]
  constructor
  · rintro loads ⟨scheme, port, host⟩
    have parsed : standard.host (label ++ ".concord.app".toList) = some page.host := by
      rw [← page.parsed, host, domain, domains.folded _ _ (domain ▸ kind) (by simp) rfl]
    rw [parsed] at loads
    exact (loads _ rfl).2 ⟨scheme.symm, rfl, port.symm⟩
  · intro named url read
    obtain ⟨host, parsed, rfl⟩ := Option.map_eq_some_iff.mp read
    have lower : host = (label ++ ".concord.app".toList).map Char.toLower := by
      rw [domain] at parsed kind ⊢
      exact domains.folds _ _ _ kind (by simp) rfl parsed
    have dotless : '.' ∉ label.map Char.toLower := by
      intro mem
      obtain ⟨c, inside, dot⟩ := List.mem_map.mp mem
      have labelChar := List.all_eq_true.mp all c inside
      rw [eq_dot_of_toLower dot] at labelChar
      cases labelChar
    refine ⟨.inl ⟨rfl, rfl, label.map Char.toLower, by simpa using given, dotless, ?_⟩, fun own => ?_⟩
    · rw [lower, List.map_append]
      rfl
    · exact named ⟨own.1.symm, own.2.2.symm, own.2.1.symm.trans lower⟩

/-! ## The texts that stay in an extension -/

/-- What follows the id of an extension, and what follows a host that is the page's own, leads into an
extension. -/
def StaysInExtension (page : Origin standard) (src : List Char) : Prop :=
  (∀ id rest, OwnExtension page src id rest → Returns id (segments (cleanEnd rest))) ∧
  ∀ label rest, matchHosted src = some (label, rest) → NamesPage page label →
    BelowExtension (left (segments (dropSlash (cleanEnd rest))))

/-- A text that passes leads into an extension, unless what follows the id climbs over it and does not
come back. -/
theorem allowed_loads_extension_iff (domains : ReadsDomains standard) (page : Origin standard) (src : List Char) :
    (isBrowserSurfaceSrcAllowed src page.serialized = true →
      ∀ url, parse standard (some page.url) src = some url → LoadsExtension page url) ↔
    StaysInExtension page src := by
  rw [allowed_iff]
  constructor
  · intro loads
    exact ⟨fun id rest own => (own_iff own).mp (loads (.inr ⟨id, rest, own⟩)),
      fun label rest hosted => (hosted_iff domains hosted).mp (loads (.inl ⟨label, rest, hosted⟩))⟩
  · rintro ⟨returns, named⟩ (⟨label, rest, hosted⟩ | ⟨id, rest, own⟩)
    · exact (hosted_iff domains hosted).mpr (named label rest hosted)
    · exact (own_iff own).mpr (returns id rest own)

/-- A host parser that folds the case. -/
def foldingStandard : Standard := ⟨fun name => some (name.map Char.toLower), fun _ _ _ => none⟩

theorem toLower_toLower (c : Char) : c.toLower.toLower = c.toLower := by
  by_cases upper : c.val ≥ 'A'.val ∧ c.val ≤ 'Z'.val
  · have lowered : c.toLower.val = c.val + 32 := congrArg Char.val (dif_pos upper)
    refine dif_neg fun again => ?_
    rw [lowered] at again
    simp only [UInt32.toNat_add, ge_iff_le, UInt32.le_iff_toNat_le] at upper again
    simp at upper again
    omega
  · have same : c.toLower = c := dif_neg upper
    rw [same, same]

theorem readsDomains_folding : ReadsDomains foldingStandard where
  folds _ _ _ _ _ _ found := (Option.some.inj found).symm
  folded front last _ _ _ := by simp [foldingStandard, Function.comp_def, toLower_toLower]

/-- The origin of a deployment. -/
def chatPage : Origin foldingStandard :=
  { scheme := "https".toList, host := "chat.example.org".toList, port := none
    web := .inr rfl, named := by decide, plain := by simp [isBlank, endsAuthority, isSlash, isPathChar]
    ends := by decide, parsed := by decide, small := by simp }

theorem extension_page_stays : StaysInExtension chatPage "/ext/orrery/./index.html".toList := by
  refine (allowed_loads_extension_iff readsDomains_folding chatPage _).mp fun _ url read => ?_
  have parsed : parse foldingStandard (some chatPage.url) "/ext/orrery/./index.html".toList =
      some ⟨"https".toList, "chat.example.org".toList, none,
        ["ext".toList, "orrery".toList, "index.html".toList]⟩ := by decide
  rw [parsed] at read
  have below : BelowExtension ["ext".toList, "orrery".toList, "index.html".toList] :=
    ⟨_, rfl, _, _, rfl, by decide, by decide, by decide, by decide, by decide⟩
  rw [← Option.some.inj read]
  exact ⟨.inr ⟨⟨rfl, rfl, rfl⟩, below⟩, fun _ => below⟩

/-- Backslashes, or dots in percent-encoding, lead to any path of the page's origin. -/
theorem climbing_src_allowed :
    isBrowserSurfaceSrcAllowed "/ext/orrery/..\\..\\admin".toList chatPage.serialized = true ∧
    isBrowserSurfaceSrcAllowed "/ext/orrery/%2e%2e/%2e%2e/admin".toList chatPage.serialized = true ∧
    ∃ url, parse foldingStandard (some chatPage.url) "/ext/orrery/..\\..\\admin".toList = some url ∧
      parse foldingStandard (some chatPage.url) "/ext/orrery/%2e%2e/%2e%2e/admin".toList = some url ∧
      OfOrigin chatPage url ∧ url.path = ["admin".toList] ∧ ¬ LoadsExtension chatPage url := by
  refine ⟨by decide, by decide, ⟨"https".toList, "chat.example.org".toList, none, ["admin".toList]⟩,
    by decide, by decide, ⟨rfl, rfl, rfl⟩, rfl, fun loads => ?_⟩
  obtain ⟨rest, below, -⟩ := loads.2 ⟨rfl, rfl, rfl⟩
  cases below

end Concorrd
