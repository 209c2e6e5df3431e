import Mathlib.Data.Option.Basic
import Concorrd.Lib.Url
import Concorrd.Extension.Session
import Concorrd.Extension.BrowserSurface

/-!
# Where the launch urls of a session lead

A session event that any member can send is read against the catalog: its launch urls have to begin
with the url of the extension. The main result says what a reader gets back of what was written, and
which of the urls that begin so are still outside that url once they are resolved.
-/

namespace Concorrd

open Url

variable {standard : Standard}

/-- What an iframe of the page loads for that text. -/
def loaded (page : Origin standard) (url : String) : Option Parsed :=
  parse standard (some page.url) url.toList

/-- The same place, and a path that goes on from there. -/
def AtOrBelow (url base : Parsed) : Prop :=
  url.scheme = base.scheme ∧ url.host = base.host ∧ url.port = base.port ∧ trunk base.path <+: url.path

def StaysAt (page : Origin standard) (catalogUrl launchUrl : String) : Prop :=
  ∀ url, loaded page launchUrl = some url → ∃ base, loaded page catalogUrl = some base ∧ AtOrBelow url base

/-- What a room may rely on in a session that was accepted. -/
structure SoundSession (page : Origin standard) (catalog : List ExtensionDefinition) (ext : ActiveExtension) :
    Prop where
  named : ∃ entry ∈ catalog, entry.id = ext.extensionId ∧ entry.url = ext.extensionUrl
  keyed : ext.stateKey = ext.sessionId
  confined : ∀ e ∈ ext.launch.entries, StaysAt page ext.extensionUrl e.2.url

/-! ## Which launch urls stay -/

/-- Neither a blank nor a backslash, and neither a query nor a fragment starts here. -/
def isPlainUrlChar (c : Char) : Bool := !isBlank c && isPathChar c && c ≠ '\\'

/-- The path of a url that is a path on the page. -/
def rootedPath : List Char → Option (List Char)
  | '/' :: c :: rest => if c = '/' then none else some (c :: rest)
  | _ => none

/-- The path of a url that is an address of the web. -/
def addressPath (url : List Char) : Option (List Char) :=
  ((url.dropPrefix? "http://".toList).or (url.dropPrefix? "https://".toList)).bind fun rest =>
    if rest.takeWhile (· ≠ '/') = [] ∨ '@' ∈ rest.takeWhile (· ≠ '/') then none
    else some ((rest.dropWhile (· ≠ '/')).drop 1)

/-- The path of a catalog url, where it is plain. -/
def catalogPath (url : List Char) : Option (List Char) :=
  if url.all isPlainUrlChar then (rootedPath url).or (addressPath url) else none

/-- What a launch url has behind the catalog url, as it is read. -/
def launchSegments (catalogUrl launchUrl : String) : List Segment :=
  segments (cleanEnd (launchUrl.toList.drop (normalizeCatalogPrefix catalogUrl).toList.length))

/-- The levels of the catalog url that the rest of a launch url climbs over are entered again. Where the
catalog url is not a plain one, where it leads is all there is to go by. -/
def Keeps (page : Origin standard) (catalogUrl launchUrl : String) : Prop :=
  launchUrl = catalogUrl ∨
  match catalogPath catalogUrl.toList with
  | some path => loaded page catalogUrl ≠ none →
      (directory path).drop ((directory path).length - climbs (launchSegments catalogUrl launchUrl)) <+:
        left (launchSegments catalogUrl launchUrl)
  | none => StaysAt page catalogUrl launchUrl

/-! ## Catalog urls -/

variable {page : Origin standard} {url path : List Char}

def withPath (path : List Segment) (place : Parsed) : Parsed := { place with path := path }

/-- A url with a slash at its end. -/
def asPrefix (url : List Char) : List Char := if url.getLast? = some '/' then url else url ++ ['/']

theorem toList_normalizeCatalogPrefix (url : String) : (normalizeCatalogPrefix url).toList = asPrefix url.toList := by
  rw [normalizeCatalogPrefix, asPrefix]
  split <;> simp

theorem asPrefix_slash (front path : List Char) : asPrefix (front ++ '/' :: path) = front ++ '/' :: slashed path := by
  cases last : path.getLast? with
  | none => simp [List.getLast?_eq_none_iff.mp last, asPrefix, slashed]
  | some c =>
    obtain ⟨init, rfl⟩ := List.getLast?_eq_some_iff.mp last
    have whole : (front ++ '/' :: (init ++ [c])).getLast? = some c := by simp [List.getLast?_append, List.getLast?_cons]
    have some : init ++ [c] ≠ [] := by simp
    rw [asPrefix, slashed, whole, last]
    by_cases slash : c = '/' <;> simp [slash]

/-- A catalog url is read as a place, and what is appended to it is resolved from its directory. -/
structure ReadFrom (page : Origin standard) (url path : List Char) (place : Option Parsed) : Prop where
  whole : parse standard (some page.url) url = place.map (withPath (resolve [] (segments path)))
  appended : ∀ rest, parse standard (some page.url) (asPrefix url ++ rest) =
    place.map (withPath (resolve (directory path) (segments (cleanEnd rest))))

theorem plain_spec {c : Char} (plain : isPlainUrlChar c = true) :
    isBlank c = false ∧ isPathChar c = true ∧ c ≠ '\\' := by
  simpa [isPlainUrlChar, and_assoc] using plain

theorem visible_of_plain (plain : url.all isPlainUrlChar) : ∀ c ∈ url, isBlank c = false :=
  fun c mem => (plain_spec (List.all_eq_true.mp plain c mem)).1

theorem reads_of_plain (plain : url.all isPlainUrlChar) : url.all isPathChar :=
  List.all_eq_true.mpr fun c mem => (plain_spec (List.all_eq_true.mp plain c mem)).2.1

theorem visible_slashed (visible : ∀ c ∈ path, isBlank c = false) : ∀ c ∈ slashed path, isBlank c = false := by
  intro c mem
  rw [slashed] at mem
  split at mem
  · exact visible c mem
  · rcases List.mem_append.mp mem with mem | mem
    · exact visible c mem
    · rw [List.mem_singleton.mp mem]
      decide

theorem cleanEnd_visible (visible : ∀ c ∈ path, isBlank c = false) : cleanEnd path = path := by
  simpa [cleanEnd] using cleanEnd_append [] visible

/-- A path on the page. -/
theorem readFrom_rooted {c : Char} {rest : List Char} (plain : ('/' :: c :: rest).all isPlainUrlChar)
    (other : c ≠ '/') : ReadFrom page ('/' :: c :: rest) (c :: rest) (some page.url) := by
  rw [List.all_cons, Bool.and_eq_true] at plain
  have visible := visible_of_plain plain.2
  have kind := plain_spec (List.all_eq_true.mp plain.2 c (by simp))
  have slash : isSlash c = false := by simp [isSlash, other, kind.2.2]
  constructor
  · rw [Origin.parse_path rest kind.1 slash, cleanEnd_visible fun d mem => visible d (by simp [mem])]
    rfl
  · intro more
    obtain ⟨tail, shape⟩ : ∃ tail, slashed (c :: rest) = c :: tail := by
      rw [slashed]
      split <;> exact ⟨_, rfl⟩
    have text : asPrefix ('/' :: c :: rest) ++ more = '/' :: c :: (tail ++ more) := by
      rw [show '/' :: c :: rest = [] ++ '/' :: (c :: rest) from rfl, asPrefix_slash, shape]
      rfl
    have front : ∀ d ∈ tail, isBlank d = false := fun d mem =>
      visible_slashed visible d (shape ▸ List.mem_cons_of_mem _ mem)
    rw [text, Origin.parse_path _ kind.1 slash, cleanEnd_append more front, ← List.cons_append, ← shape,
      resolve_directory (reads_of_plain plain.2)]
    rfl

theorem addressed_path (scheme address : List Char) (path : List Segment) :
    addressed standard scheme address path = (addressed standard scheme address []).map (withPath path) := by
  simp only [addressed]
  generalize splitPort false address = split
  by_cases given : split.1 = []
  · simp [guard, given, failure]
  · cases standard.host split.1 with
    | none => simp [guard, given]
    | some name => cases readPort scheme split.2 <;> simp [guard, given, withPath]

section
variable {scheme address : List Char} (web : scheme = "http".toList ∨ scheme = "https".toList) (given : address ≠ [])
  (plain : ∀ c ∈ address, isBlank c = false ∧ endsAuthority c = false ∧ c ≠ '@')
include web given plain

/-- The URL of an address with a path. -/
theorem parse_slash (rest : List Char) :
    parse standard (some page.url) (scheme ++ "://".toList ++ address ++ '/' :: rest) =
      (addressed standard scheme address []).map (withPath (resolve [] (segments (cleanEnd rest)))) := by
  have slash : cleanEnd ('/' :: rest) = '/' :: cleanEnd rest := cleanEnd_cons rest rfl
  have ends : ∀ c ∈ (cleanEnd ('/' :: rest)).head?, endsAuthority c = true := by
    intro c first
    rw [slash] at first
    rw [← Option.some.inj first]
    decide
  rw [parse_address _ web given plain ends, slash, addressed_path]
  rfl

/-- An address, with a path or without one. -/
theorem readFrom_address (reads : path.all isPlainUrlChar) :
    ReadFrom page (scheme ++ "://".toList ++ address ++ '/' :: path) path (addressed standard scheme address []) where
  whole := by rw [parse_slash web given plain, cleanEnd_visible (visible_of_plain reads)]
  appended rest := by
    rw [asPrefix_slash, List.append_assoc _ _ rest, List.cons_append, parse_slash web given plain,
      cleanEnd_append rest (visible_slashed (visible_of_plain reads)), resolve_directory (reads_of_plain reads)]

theorem readFrom_host : ReadFrom page (scheme ++ "://".toList ++ address) [] (addressed standard scheme address []) where
  whole := by
    have read := @parse_address standard scheme address [] (some page.url) web given plain (by simp [cleanEnd])
    rw [List.append_nil] at read
    rw [read, addressed_path]
    rfl
  appended rest := by
    have ends : (scheme ++ "://".toList ++ address).getLast? ≠ some '/' := by
      intro last
      rw [List.getLast?_append_of_ne_nil _ given] at last
      cases (plain '/' (List.mem_of_getLast? last)).2.1
    rw [asPrefix, if_neg ends, List.append_assoc _ _ rest, List.singleton_append, parse_slash web given plain]
    rfl
end

/-- The address of a plain url, and what follows it. -/
theorem plain_takeWhile {rest : List Char} (reads : rest.all isPlainUrlChar) (one : '@' ∉ rest.takeWhile (· ≠ '/')) :
    ∀ c ∈ rest.takeWhile (· ≠ '/'), isBlank c = false ∧ endsAuthority c = false ∧ c ≠ '@' := by
  intro c mem
  have slash : c ≠ '/' := by simpa using List.mem_takeWhile_imp mem
  obtain ⟨blank, text, backslash⟩ := plain_spec (List.all_eq_true.mp reads c (List.takeWhile_subset _ mem))
  have other : isSlash c = false := by simp [isSlash, slash, backslash]
  exact ⟨blank, by simp [endsAuthority, other, text], fun same => one (same ▸ mem)⟩

theorem readFrom_web {scheme rest : List Char} (web : scheme = "http".toList ∨ scheme = "https".toList)
    (reads : rest.all isPlainUrlChar) (given : rest.takeWhile (· ≠ '/') ≠ [])
    (one : '@' ∉ rest.takeWhile (· ≠ '/')) :
    ReadFrom page (scheme ++ "://".toList ++ rest) ((rest.dropWhile (· ≠ '/')).drop 1)
      (addressed standard scheme (rest.takeWhile (· ≠ '/')) []) := by
  have address := plain_takeWhile reads one
  have whole : rest.takeWhile (· ≠ '/') ++ rest.dropWhile (· ≠ '/') = rest := List.takeWhile_append_dropWhile
  have behind : (rest.dropWhile (· ≠ '/')).all isPlainUrlChar := List.all_eq_true.mpr fun c mem =>
    List.all_eq_true.mp reads c (List.dropWhile_subset _ mem)
  have first := @List.head?_dropWhile_not _ (· ≠ '/') rest
  generalize rest.takeWhile (· ≠ '/') = host at *
  generalize rest.dropWhile (· ≠ '/') = tail at *
  subst whole
  rw [← List.append_assoc]
  cases tail with
  | nil =>
    rw [List.append_nil]
    exact readFrom_host web given address
  | cons c cs =>
    have slash : c = '/' := by simpa using first
    rw [slash]
    rw [List.all_cons, Bool.and_eq_true] at behind
    exact readFrom_address web given address behind.2

theorem rootedPath_eq_some (found : rootedPath url = some path) :
    ∃ c rest, url = '/' :: c :: rest ∧ c ≠ '/' ∧ path = c :: rest := by
  unfold rootedPath at found
  split at found
  · split at found
    · cases found
    · exact ⟨_, _, rfl, ‹_›, (Option.some.inj found).symm⟩
  · cases found

/-- What is known of a catalog url with a path. -/
theorem exists_readFrom (found : catalogPath url = some path) :
    path.all isPlainUrlChar ∧ ∃ place, ReadFrom page url path place := by
  obtain ⟨plain, found⟩ : url.all isPlainUrlChar = true ∧ (rootedPath url).or (addressPath url) = some path := by
    rw [catalogPath] at found
    split at found
    · exact ⟨‹_›, found⟩
    · cases found
  rcases Option.or_eq_some_iff.mp found with found | ⟨-, found⟩
  · obtain ⟨c, rest, rfl, other, rfl⟩ := rootedPath_eq_some found
    have tail := plain
    rw [List.all_cons, Bool.and_eq_true] at tail
    exact ⟨tail.2, _, readFrom_rooted plain other⟩
  · obtain ⟨rest, front, inner⟩ := Option.bind_eq_some_iff.mp found
    obtain ⟨scheme, web, rfl⟩ : ∃ scheme, (scheme = "http".toList ∨ scheme = "https".toList) ∧
        url = scheme ++ "://".toList ++ rest := by
      rcases Option.or_eq_some_iff.mp front with front | ⟨-, front⟩
      · exact ⟨_, .inl rfl, by simpa [List.dropPrefix?_eq_some_iff] using front⟩
      · exact ⟨_, .inr rfl, by simpa [List.dropPrefix?_eq_some_iff] using front⟩
    rw [List.all_append, Bool.and_eq_true] at plain
    split at inner
    · cases inner
    · rename_i shape
      obtain ⟨given, one⟩ := not_or.mp shape
      cases inner
      refine ⟨List.all_eq_true.mpr fun c mem => List.all_eq_true.mp plain.2 c ?_, _,
        readFrom_web web plain.2 given one⟩
      exact List.dropWhile_subset _ (List.drop_subset _ _ mem)

/-! ## What stays -/

theorem atOrBelow_self (url : Parsed) : AtOrBelow url url := by
  refine ⟨rfl, rfl, rfl, ?_⟩
  rw [trunk]
  split
  · exact List.dropLast_prefix _
  · exact List.prefix_rfl

/-- What is resolved from a directory is below it when the levels that were climbed are entered again. -/
theorem prefix_resolve_iff {dir segs : List Segment} (some : segs ≠ []) :
    dir <+: resolve dir segs ↔ dir.drop (dir.length - climbs segs) <+: left segs := by
  rw [resolve_eq some]
  nth_rewrite 1 [← List.take_append_drop (dir.length - climbs segs) dir]
  exact List.prefix_append_right_inj _

theorem keeps_of_entered {catalogUrl launchUrl : String} (found : catalogPath catalogUrl.toList = some path)
    (entered : (directory path).drop ((directory path).length - climbs (launchSegments catalogUrl launchUrl)) <+:
      left (launchSegments catalogUrl launchUrl)) : Keeps page catalogUrl launchUrl := by
  rw [Keeps, found]
  exact .inr fun _ => entered

/-- The launch urls that pass and stay. -/
theorem staysAt_iff {catalogUrl launchUrl : String} (passes : isAllowlistedLaunchUrl catalogUrl launchUrl = true) :
    StaysAt page catalogUrl launchUrl ↔ Keeps page catalogUrl launchUrl := by
  rw [Keeps]
  by_cases same : launchUrl = catalogUrl
  · subst same
    exact iff_of_true (fun url read => ⟨url, read, atOrBelow_self url⟩) (.inl rfl)
  rw [or_iff_right same]
  cases found : catalogPath catalogUrl.toList with
  | none => rfl
  | some path =>
    obtain ⟨plain, place, read⟩ := @exists_readFrom standard page _ _ found
    obtain ⟨rest, launch⟩ : ∃ rest, launchUrl.toList = asPrefix catalogUrl.toList ++ rest := by
      rw [isAllowlistedLaunchUrl, Bool.or_eq_true, decide_eq_true_eq, List.isPrefixOf_iff_prefix,
        toList_normalizeCatalogPrefix] at passes
      obtain ⟨rest, whole⟩ := passes.resolve_left same
      exact ⟨rest, whole.symm⟩
    have segs : launchSegments catalogUrl launchUrl = segments (cleanEnd rest) := by
      rw [launchSegments, launch, toList_normalizeCatalogPrefix, List.drop_left]
    have loadedCatalog : loaded page catalogUrl = place.map (withPath (resolve [] (segments path))) := read.whole
    have loadedLaunch : loaded page launchUrl =
        place.map (withPath (resolve (directory path) (segments (cleanEnd rest)))) := by
      rw [loaded, launch]
      exact read.appended rest
    have backslash : path.getLast? ≠ some '\\' := fun last =>
      (plain_spec (List.all_eq_true.mp plain _ (List.mem_of_getLast? last))).2.2 rfl
    have trunk_eq := trunk_resolve (reads_of_plain plain) backslash
    dsimp only
    rw [segs, ← prefix_resolve_iff (segments_ne_nil _), StaysAt, loadedCatalog, loadedLaunch]
    nth_rewrite 2 [← trunk_eq]
    cases place with
    | none => simp
    | some place =>
      constructor
      · intro stays _
        obtain ⟨base, sameBase, -, -, -, below⟩ := stays _ rfl
        rw [← Option.some.inj sameBase] at below
        exact below
      · intro below url sameUrl
        refine ⟨_, rfl, ?_⟩
        rw [← Option.some.inj sameUrl]
        exact ⟨rfl, rfl, rfl, below (by simp)⟩

/-! ## What is accepted -/

variable {catalog : List ExtensionDefinition} {d : ExtensionDefinition}

theorem normalizeLaunchEntry_url {catalogUrl : String} {value : Json} {entry : ExtensionLaunchEntry}
    (read : normalizeLaunchEntry catalogUrl value = some entry) :
    isAllowlistedLaunchUrl catalogUrl entry.url = true := by
  obtain ⟨url, -, given⟩ := Option.bind_eq_some_iff.mp read
  split at given
  · cases given
    assumption
  · cases given

theorem allowlisted_of_mapM {catalogUrl : String} {members : List (String × Json)}
    {entries : List (String × ExtensionLaunchEntry)}
    (read : members.mapM (fun m => (normalizeLaunchEntry catalogUrl m.2).map (m.1, ·)) = some entries) :
    ∀ e ∈ entries, isAllowlistedLaunchUrl catalogUrl e.2.url = true := by
  induction members generalizing entries with
  | nil =>
    cases read
    simp
  | cons m ms ih =>
    rw [List.mapM_cons] at read
    obtain ⟨e, head, rest⟩ := Option.bind_eq_some_iff.mp read
    obtain ⟨es, tail, same⟩ := Option.bind_eq_some_iff.mp rest
    obtain ⟨entry, url, rfl⟩ := Option.map_eq_some_iff.mp head
    cases same
    intro e mem
    rcases List.mem_cons.mp mem with rfl | mem
    · exact normalizeLaunchEntry_url url
    · exact ih tail e mem

theorem allowlisted_of_launch {catalogUrl : String} {raw : Json} {launch : ExtensionLaunchDescriptor}
    (read : normalizeLaunch catalogUrl raw = some launch) :
    ∀ e ∈ launch.entries, isAllowlistedLaunchUrl catalogUrl e.2.url = true := by
  simp only [normalizeLaunch, normalizeLaunchEntries, Option.bind_eq_bind, Option.bind_eq_some_iff] at read
  obtain ⟨-, -, entries, ⟨raw, -, members, -, found, made, given⟩, same⟩ := read
  split at given
  · cases given
  · cases given
    cases same
    exact allowlisted_of_mapM made

def orrery : ExtensionDefinition := ⟨"orrery", "Orrery", "/ext/orrery/index.html", "planet", "The sky"⟩

/-- A session whose launch url is another one. -/
def launching (url : String) : ActiveExtension :=
  { buildActiveSession orrery "@ann:chat.example.org" "1" 5 with launch := primaryLaunch url }

end Concorrd
