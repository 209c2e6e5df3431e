import Mathlib.Data.List.TakeWhile
import Concorrd.Lib.PlainPattern
import Concorrd.Api.Admin
import Concorrd.Api.Document
import Concorrd.Api.TuwunelConfig

/-!
# The allowlist of servers

The file holds patterns; administrators are shown names and send names. A pattern between anchors is
shown as what is left of it without its backslashes, where that is a host name, and other patterns as
they are. The names that are sent become patterns again.

`faithful_iff` says for which patterns that is right: between the anchors, each dot needs its backslash
and no letter or digit may have one, and names without anchors must not be accepted when they come back.
-/

namespace Concorrd.Api

open Document (strip isSpace)
open PlainPattern

/-- The lower case of a text, and whether a match of a pattern is found in a text. -/
structure AllowlistRuntime where
  lower : String → String
  finds : List Char → List Char → Prop

def isLowerOrDigit (c : Char) : Bool := ('a' ≤ c && c ≤ 'z') || ('0' ≤ c && c ≤ '9')

def isHostChar (c : Char) : Bool := isLowerOrDigit c || c = '-' || c = '.'

/-- What is documented of the engine, and of the lower case of a text. -/
structure AllowlistRuntime.Lawful (rt : AllowlistRuntime) : Prop where
  documented : Documented rt.finds
  /-- What is lower case already stays. -/
  lower_host : ∀ s : String, (∀ c ∈ s.toList, isHostChar c = true) → rt.lower s = s
  /-- Characters without case stay. -/
  lower_meta : ∀ (s : String) (c : Char), c ∈ metacharacters → c ∈ s.toList → c ∈ (rt.lower s).toList
  /-- No line break is put at the end. -/
  lower_last : ∀ s : String, (rt.lower s).toList.getLast? = some '\n' → s.toList.getLast? = some '\n'

/-! ## Names and patterns -/

/-- Letters, digits and hyphens, with no hyphen at the ends. -/
def isLabel (label : List Char) : Bool :=
  label.length ≤ 63 && label.all (fun c => isLowerOrDigit c || c = '-') &&
    label.head?.any isLowerOrDigit && label.getLast?.any isLowerOrDigit

/-- Labels with dots between them, two at least. -/
def isHostname (name : List Char) : Bool :=
  name.length ≤ 253 && 2 ≤ (name.splitOn '.').length && (name.splitOn '.').all isLabel

/-- The end of the expression is also found before a line break that ends the text. -/
def isValidServerName (name : String) : Bool :=
  isHostname name.toList ||
    (name.toList.getLast? = some '\n' && isHostname name.toList.dropLast)

/-- The characters that are escaped in a pattern. -/
def isSpecial (c : Char) : Bool :=
  ['(', ')', '[', ']', '{', '}', '?', '*', '+', '-', '|', '^', '$', '\\', '.', '&', '~', '#', ' ', '\t',
    '\n', '\r', '\x0b', '\x0c'].contains c

variable (rt : AllowlistRuntime) (config : Config) (settings : Settings)

/-- Plain names as patterns between anchors. -/
def serverNamesToRegexPatterns (names : List String) : List String :=
  (names.filter fun n => strip n ≠ "").map fun n =>
    String.ofList (anchored (escape isSpecial (rt.lower (strip n)).toList))

/-- What is between the anchors of a pattern that has both, one character of one line at least. -/
def anchoredGroup : List Char → Option (List Char)
  | '^' :: rest =>
    if rest.getLast? = some '$' ∧ rest.dropLast ≠ [] ∧ '\n' ∉ rest.dropLast then some rest.dropLast
    else none
  | _ => none

/-- The name a pattern stands for, or the pattern itself. -/
def decodeServerNamePattern (p : String) : String :=
  match anchoredGroup p.toList with
  | none => p
  | some inner =>
    if isValidServerName (String.ofList (unescape inner)) then String.ofList (unescape inner) else p

def decodeServerNamePatterns (patterns : List String) : List String :=
  patterns.map decodeServerNamePattern

/-! ## The routes -/

structure FederationView where
  enabled : Bool
  serverName : String
  allowedServers : List String
  rawAllowedPatterns : List String
  rawForbiddenPatterns : List String
  pendingApply : Bool

def adminGetFederation (current : FederationSettings String) (serverName : String) (pending : Bool)
    (userId : String) : Except HttpError FederationView := do
  requireAdmin config settings userId
  return {
    enabled := current.allowFederation
    serverName
    allowedServers := decodeServerNamePatterns current.allowedRemoteServerNames
    rawAllowedPatterns := current.allowedRemoteServerNames
    rawForbiddenPatterns := current.forbiddenRemoteServerNames
    pendingApply := pending }

/-- Why an update is refused. -/
inductive AllowlistError where
  | tooLong
  | http (error : HttpError)
  | invalid (rejected : List String)
  deriving DecidableEq

def AllowlistError.statusCode : AllowlistError → Nat
  | .tooLong => 422
  | .http error => error.statusCode
  | .invalid _ => 400

/-- What the route says. A list that is too long is refused before it. -/
def AllowlistError.detail : AllowlistError → Option Json
  | .tooLong => none
  | .http error => some (.str error.detail)
  | .invalid rejected => some <| .obj [("error", .str "Invalid server name(s)"),
      ("rejected", .arr (rejected.map .str)),
      ("message", .str <| "Each entry must be a valid hostname " ++
        "(letters, digits, hyphens, dot-separated).")]

structure AllowlistReply where
  allowedServers : List String
  rawAllowedPatterns : List String
  pendingApply : Bool := true
  message : String := "Allowlist saved. Click 'Apply changes' to restart the Matrix " ++
    "server and activate the new allowlist."

/-- Max names of an update. -/
def maxAllowedServers : Nat := 1000

/-- The names that are sent, in lower case and without the blank ones. -/
def sentNames (allowedServers : List String) : List String :=
  (allowedServers.map fun name => rt.lower (strip name)).filter fun name => name ≠ ""

def cleanedNames (allowedServers : List String) : List String :=
  (sentNames rt allowedServers).filter isValidServerName

def rejectedNames (allowedServers : List String) : List String :=
  (sentNames rt allowedServers).filter fun name => !isValidServerName name

/-- The reply, and the settings that are written. -/
def adminUpdateFederationAllowlist (current : FederationSettings String) (allowedServers : List String)
    (userId : String) : Except AllowlistError (AllowlistReply × FederationSettings String) :=
  if maxAllowedServers < allowedServers.length then .error .tooLong
  else
    match requireAdmin config settings userId with
    | .error e => .error (.http e)
    | .ok () =>
      if rejectedNames rt allowedServers ≠ [] then .error (.invalid (rejectedNames rt allowedServers))
      else
        .ok ({ allowedServers := cleanedNames rt allowedServers
               rawAllowedPatterns := serverNamesToRegexPatterns rt (cleanedNames rt allowedServers) },
          { current with
            allowedRemoteServerNames := serverNamesToRegexPatterns rt (cleanedNames rt allowedServers) })

/-! ## What must hold -/

/-- A pattern of the settings is matched with the name of a server. -/
def FederationSettings.Federates (s : FederationSettings String) (server : List Char) : Prop :=
  ∃ p ∈ s.allowedRemoteServerNames, rt.finds p.toList server

/-- What the patterns of the settings are shown as, what names come back as, and whom the server
federates with once what was shown is sent back. -/
structure Faithful (s : FederationSettings String) (names : List String) : Prop where
  shown : List.Forall₂ (fun p n => n = p ∨ ∀ server, rt.finds p.toList server ↔ server = n.toList)
    s.allowedRemoteServerNames (decodeServerNamePatterns s.allowedRemoteServerNames)
  decoded : (∀ n ∈ names, strip n = "" ∨ isValidServerName (rt.lower (strip n)) = true) →
    decodeServerNamePatterns (serverNamesToRegexPatterns rt names) =
      (names.map fun n => rt.lower (strip n)).filter fun n => n ≠ ""
  kept : ∀ config settings serverName pending reader writer view reply s',
    adminGetFederation config settings s serverName pending reader = .ok view →
      adminUpdateFederationAllowlist rt config settings s view.allowedServers writer = .ok (reply, s') →
        ∀ server, s'.Federates rt server ↔ s.Federates rt server

/-- The pattern is a host name between anchors, with or without backslashes. -/
def Spells (p : String) (tokens : List Token) : Prop :=
  p.toList = anchored (spell tokens) ∧ isHostname (text tokens) = true

/-- The name is accepted when it is sent, or ignored. -/
def Accepted (name : String) : Prop :=
  rt.lower (strip name) = "" ∨ isValidServerName (rt.lower (strip name)) = true

/-- Host names between anchors have a backslash before each dot and before no letter or digit. Where all
patterns are accepted as names or are such host names, they all are. -/
structure Decodable (ps : List String) : Prop where
  literal : ∀ p ∈ ps, ∀ tokens, Spells p tokens → ∀ t ∈ tokens, Literal t
  anchors : ps.length ≤ maxAllowedServers →
    (∀ p ∈ ps, (∃ tokens, Spells p tokens) ∨ Accepted rt p) → ∀ p ∈ ps, ∃ tokens, Spells p tokens

/-! ## Host names -/

variable {rt} {config settings} {name : List Char} {s t p : String} {c : Char} {tokens : List Token}

theorem mem_of_mem_intercalate {sep : List Char} {parts : List (List Char)} :
    c ∈ sep.intercalate parts → c ∈ sep ∨ ∃ part ∈ parts, c ∈ part := by
  induction parts with
  | nil => simp
  | cons part parts ih =>
    intro mem
    by_cases last : parts = []
    · rw [last, List.intercalate_singleton] at mem
      exact .inr ⟨part, List.mem_cons_self, mem⟩
    · rw [List.intercalate_cons_of_ne_nil last, List.mem_append, List.mem_append] at mem
      rcases mem with (mem | mem) | mem
      · exact .inr ⟨part, List.mem_cons_self, mem⟩
      · exact .inl mem
      · refine (ih mem).imp_right ?_
        rintro ⟨other, isPart, mem⟩
        exact ⟨other, List.mem_cons_of_mem part isPart, mem⟩

theorem isHostChar_of_mem (hostname : isHostname name = true) (mem : c ∈ name) : isHostChar c = true := by
  simp only [isHostname, Bool.and_eq_true, List.all_eq_true] at hostname
  have parts : ['.'].intercalate (name.splitOn '.') = name := List.intercalate_splitOn '.'
  rw [← parts] at mem
  rcases mem_of_mem_intercalate mem with dot | ⟨part, isPart, mem⟩
  · rw [List.mem_singleton.mp dot]
    decide
  · have label := hostname.2 part isPart
    simp only [isLabel, Bool.and_eq_true, List.all_eq_true] at label
    rw [isHostChar, label.1.1.2 c mem]
    rfl

theorem length_le_of_isHostname (hostname : isHostname name = true) : name.length ≤ 253 := by
  simp only [isHostname, Bool.and_eq_true, decide_eq_true_eq] at hostname
  exact hostname.1.1

theorem isPlain_of_isHostChar (host : isHostChar c = true) : isPlain c = true := by
  simp only [isHostChar, isLowerOrDigit, isPlain, isLetterOrDigit, Bool.or_eq_true, Bool.and_eq_true,
    decide_eq_true_eq] at host ⊢
  tauto

/-- A character that is none of host names is not in one. -/
theorem not_mem_of_isHostname (hostname : isHostname name = true) (other : isHostChar c = false) :
    c ∉ name := by
  intro mem
  rw [isHostChar_of_mem hostname mem] at other
  cases other

theorem not_metacharacter (host : isHostChar c = true) : c ∉ metacharacters := by
  intro mem
  have others : metacharacters.all (fun m => !isHostChar m) = true := by decide
  have other := List.all_eq_true.mp others c mem
  rw [host] at other
  cases other

theorem isSpace_of_isHostChar (host : isHostChar c = true) : isSpace c = false := by
  have bounds : 33 ≤ c.toNat ∧ c.toNat ≤ 122 := by
    simp only [isHostChar, isLowerOrDigit, Bool.or_eq_true, Bool.and_eq_true, decide_eq_true_eq] at host
    rcases host with ((⟨low, high⟩ | ⟨low, high⟩) | rfl) | rfl
    · have low : 97 ≤ c.toNat := low
      have high : c.toNat ≤ 122 := high
      omega
    · have low : 48 ≤ c.toNat := low
      have high : c.toNat ≤ 57 := high
      omega
    · decide
    · decide
  simp [isSpace]
  omega

/-! ## Texts that are stripped -/

theorem strip_of_no_space (noSpace : ∀ c ∈ s.toList, isSpace c = false) : strip s = s := by
  have front : s.toList.dropWhile isSpace = s.toList := by
    cases chars : s.toList with
    | nil => rfl
    | cons c cs =>
      rw [chars] at noSpace
      exact List.dropWhile_cons_of_neg (by simp [noSpace c])
  have back : s.toList.reverse.dropWhile isSpace = s.toList.reverse := by
    cases chars : s.toList.reverse with
    | nil => rfl
    | cons c cs =>
      have mem : c ∈ s.toList := List.mem_reverse.mp (by simp [chars])
      exact List.dropWhile_cons_of_neg (by simp [noSpace c mem])
  rw [strip, front, back, List.reverse_reverse, String.ofList_toList]

theorem mem_dropWhile {space : Char → Bool} {cs : List Char} (mem : c ∈ cs) (other : space c = false) :
    c ∈ cs.dropWhile space := by
  rw [← @List.takeWhile_append_dropWhile _ space cs] at mem
  rcases List.mem_append.mp mem with before | after
  · rw [List.mem_takeWhile_imp before] at other
    cases other
  · exact after

theorem mem_strip (mem : c ∈ s.toList) (other : isSpace c = false) : c ∈ (strip s).toList := by
  rw [strip, String.toList_ofList, List.mem_reverse]
  apply mem_dropWhile _ other
  rw [List.mem_reverse]
  exact mem_dropWhile mem other

theorem getLast?_strip : (strip s).toList.getLast? ≠ some '\n' := by
  intro last
  rw [strip, String.toList_ofList, List.getLast?_reverse] at last
  have ends := List.head?_dropWhile_not isSpace (s.toList.dropWhile isSpace).reverse
  rw [last] at ends
  exact absurd ends (by decide)

theorem isValidServerName_of_getLast? (last : s.toList.getLast? ≠ some '\n') :
    isValidServerName s = isHostname s.toList := by
  simp [isValidServerName, last]

/-- A host name is its own lower case, and nothing is stripped of it. -/
theorem lower_strip_of_isHostname {rt : AllowlistRuntime} (lawful : rt.Lawful)
    (hostname : isHostname s.toList = true) : rt.lower (strip s) = s := by
  have host : ∀ c ∈ s.toList, isHostChar c = true := fun c mem => isHostChar_of_mem hostname mem
  rw [strip_of_no_space fun c mem => isSpace_of_isHostChar (host c mem), lawful.lower_host s host]

theorem ne_empty_of_isHostname (hostname : isHostname s.toList = true) : s ≠ "" := by
  rintro rfl
  exact absurd hostname (by decide)

/-- A name that is valid in lower case and without spaces around is a host name. -/
theorem isHostname_of_isValidServerName {rt : AllowlistRuntime} (lawful : rt.Lawful)
    (valid : isValidServerName (rt.lower (strip s)) = true) :
    isHostname (rt.lower (strip s)).toList = true := by
  rwa [isValidServerName_of_getLast? fun last => getLast?_strip (lawful.lower_last _ last)] at valid

/-- What is accepted when it is sent has no character with a meaning of its own in patterns. -/
theorem not_metacharacter_of_accepted {rt : AllowlistRuntime} (lawful : rt.Lawful)
    (accepted : Accepted rt s) : ∀ c ∈ s.toList, c ∉ metacharacters := by
  intro c mem special
  have visible : isSpace c = false := by
    have none : metacharacters.all (fun m => !isSpace m) = true := by decide
    simpa using List.all_eq_true.mp none c special
  have kept := lawful.lower_meta (strip s) c special (mem_strip mem visible)
  rcases accepted with blank | valid
  · rw [blank] at kept
    exact List.not_mem_nil kept
  · have hostname := isHostname_of_isValidServerName lawful valid
    exact not_metacharacter (isHostChar_of_mem hostname kept) special

/-! ## What patterns are shown as -/

theorem anchoredGroup_eq_some {cs inner : List Char} : anchoredGroup cs = some inner ↔
    cs = anchored inner ∧ inner ≠ [] ∧ '\n' ∉ inner := by
  constructor
  · intro group
    unfold anchoredGroup at group
    split at group
    · rename_i rest
      split at group
      · rename_i ends
        cases group
        obtain ⟨init, rfl⟩ := List.getLast?_eq_some_iff.mp ends.1
        rw [List.dropLast_concat] at ends ⊢
        exact ⟨rfl, ends.2⟩
      · cases group
    · cases group
  · rintro ⟨rfl, nonempty⟩
    have last : (inner ++ ['$']).getLast? = some '$' := by simp
    rw [anchored, List.cons_append, anchoredGroup, List.dropLast_concat, if_pos ⟨last, nonempty⟩]

theorem plain_of_spells (spells : Spells p tokens) : ∀ t ∈ tokens, isHostChar t.2 = true :=
  fun _ mem => isHostChar_of_mem spells.2 (List.mem_map_of_mem mem)

theorem spells_unique {tokens' : List Token} (spells : Spells p tokens) (spells' : Spells p tokens') :
    tokens = tokens' := by
  have same := anchored_injective (spells.1.symm.trans spells'.1)
  have noSlash : ∀ {tokens}, Spells p tokens → ∀ t ∈ tokens, t.2 ≠ '\\' := fun spells t mem =>
    ne_slash_of_isPlain (isPlain_of_isHostChar (plain_of_spells spells t mem))
  rw [← tokensOf_spell (noSlash spells), ← tokensOf_spell (noSlash spells'), same]

theorem decode_of_spells (spells : Spells p tokens) :
    decodeServerNamePattern p = String.ofList (text tokens) := by
  have host := plain_of_spells spells
  have chars : unescape (spell tokens) = text tokens := by
    refine unescape_spell fun t mem => ⟨?_, ?_⟩
    · intro slash
      exact absurd (slash ▸ host t mem) (by decide)
    · intro line
      exact absurd (line ▸ host t mem) (by decide)
  have nonempty : spell tokens ≠ [] := by
    intro empty
    rw [empty] at chars
    exact absurd (chars ▸ spells.2) (by decide)
  have oneLine : '\n' ∉ spell tokens := by
    intro mem
    obtain ⟨t, isToken, mem⟩ := List.mem_flatMap.mp mem
    have line : t.2 = '\n' := by
      split at mem <;> simp at mem <;> exact mem.symm
    exact absurd (line ▸ host t isToken) (by decide)
  have group := anchoredGroup_eq_some.mpr ⟨spells.1, nonempty, oneLine⟩
  have valid : isValidServerName (String.ofList (text tokens)) = true := by
    rw [isValidServerName, String.toList_ofList, spells.2]
    rfl
  simp only [decodeServerNamePattern, group, chars, valid, if_true]

theorem decode_eq_self (noName : ¬∃ tokens, Spells p tokens) : decodeServerNamePattern p = p := by
  unfold decodeServerNamePattern
  split
  · rfl
  · rename_i inner group
    obtain ⟨whole, -, oneLine⟩ := anchoredGroup_eq_some.mp group
    refine if_neg fun valid => noName ?_
    have last : (String.ofList (unescape inner)).toList.getLast? ≠ some '\n' := by
      intro last
      rw [String.toList_ofList] at last
      exact oneLine (mem_unescape (List.mem_of_getLast? last))
    rw [isValidServerName_of_getLast? last, String.toList_ofList] at valid
    obtain ⟨tokens, same, chars⟩ := exists_spell oneLine (not_mem_of_isHostname valid (by decide))
    exact ⟨tokens, same ▸ whole, chars ▸ valid⟩

/-! ## What names become -/

/-- The pattern of a name. -/
def patternOf (n : String) : String := String.ofList (anchored (escape isSpecial n.toList))

theorem spells_patternOf (hostname : isHostname s.toList = true) :
    Spells (patternOf s) (s.toList.map fun c => (isSpecial c, c)) := by
  refine ⟨String.toList_ofList, ?_⟩
  rwa [text_map]

theorem decode_patternOf (hostname : isHostname s.toList = true) :
    decodeServerNamePattern (patternOf s) = s := by
  rw [decode_of_spells (spells_patternOf hostname), text_map, String.ofList_toList]

theorem literal_patternOf : ∀ t ∈ s.toList.map fun c => (isSpecial c, c), Literal t := by
  apply literal_map
  · decide
  · intro c special
    have none : ['(', ')', '[', ']', '{', '}', '?', '*', '+', '-', '|', '^', '$', '\\', '.', '&', '~', '#',
        ' ', '\t', '\n', '\r', '\x0b', '\x0c'].all (fun m => !isLetterOrDigit m) = true := by decide
    simpa using List.all_eq_true.mp none c (List.contains_iff_mem.mp special)

/-- A host name between anchors is matched exactly when its tokens stand for themselves. -/
theorem matches_spells {rt : AllowlistRuntime} (lawful : rt.Lawful) (spells : Spells p tokens) :
    (∀ server, rt.finds p.toList server ↔ server = text tokens) ↔ ∀ t ∈ tokens, Literal t := by
  rw [spells.1]
  exact matches_exactly_iff lawful.documented fun t mem =>
    isPlain_of_isHostChar (plain_of_spells spells t mem)

theorem finds_patternOf {rt : AllowlistRuntime} (lawful : rt.Lawful)
    (hostname : isHostname s.toList = true) (server : List Char) :
    rt.finds (patternOf s).toList server ↔ server = s.toList := by
  have exactly := (matches_spells lawful (spells_patternOf hostname)).mpr literal_patternOf server
  rwa [text_map] at exactly

theorem decode_encode {rt : AllowlistRuntime} (lawful : rt.Lawful) {names : List String}
    (valid : ∀ n ∈ names, strip n = "" ∨ isValidServerName (rt.lower (strip n)) = true) :
    decodeServerNamePatterns (serverNamesToRegexPatterns rt names) =
      (names.map fun n => rt.lower (strip n)).filter fun n => n ≠ "" := by
  have empty : rt.lower "" = "" := lawful.lower_host "" (by simp)
  have blank : ∀ n ∈ names, (strip n ≠ "" ↔ rt.lower (strip n) ≠ "") := by
    intro n mem
    rcases valid n mem with none | valid
    · simp [none, empty]
    · have some := ne_empty_of_isHostname (isHostname_of_isValidServerName lawful valid)
      refine iff_of_true (fun none => some ?_) some
      rw [none, empty]
  rw [decodeServerNamePatterns, serverNamesToRegexPatterns, List.map_map, List.filter_map]
  have kept : names.filter (fun n => strip n ≠ "") =
      names.filter ((fun n => decide (n ≠ "")) ∘ fun n => rt.lower (strip n)) :=
    List.filter_congr fun n mem => decide_eq_decide.mpr (blank n mem)
  rw [kept]
  refine List.map_congr_left fun n mem => ?_
  obtain ⟨mem, some⟩ := List.mem_filter.mp mem
  have visible : strip n ≠ "" := (blank n mem).mpr (of_decide_eq_true some)
  have hostname := isHostname_of_isValidServerName lawful ((valid n mem).resolve_left visible)
  rw [Function.comp_apply, ← patternOf, decode_patternOf hostname]

/-- Host names become their patterns. -/
theorem encode_of_isHostname {rt : AllowlistRuntime} (lawful : rt.Lawful) {names : List String}
    (hostnames : ∀ n ∈ names, isHostname n.toList = true) :
    serverNamesToRegexPatterns rt names = names.map patternOf := by
  have kept : names.filter (fun n => strip n ≠ "") = names := by
    apply List.filter_eq_self.mpr
    intro n mem
    have host : ∀ c ∈ n.toList, isSpace c = false :=
      fun c isChar => isSpace_of_isHostChar (isHostChar_of_mem (hostnames n mem) isChar)
    rw [strip_of_no_space host]
    exact decide_eq_true (ne_empty_of_isHostname (hostnames n mem))
  rw [serverNamesToRegexPatterns, kept]
  refine List.map_congr_left fun n mem => ?_
  rw [lower_strip_of_isHostname lawful (hostnames n mem)]
  rfl

/-! ## What is written -/

variable {current s' : FederationSettings String} {sent : List String} {userId : String}
  {reply : AllowlistReply}

theorem mem_sentNames {n : String} :
    n ∈ sentNames rt sent ↔ ∃ name ∈ sent, rt.lower (strip name) = n ∧ n ≠ "" := by
  simp [sentNames]
  tauto

theorem rejectedNames_eq_nil_iff : rejectedNames rt sent = [] ↔ ∀ name ∈ sent, Accepted rt name := by
  rw [rejectedNames, List.filter_eq_nil_iff]
  constructor
  · intro noneRejected name mem
    refine or_iff_not_imp_left.mpr fun some => ?_
    have valid := noneRejected _ (mem_sentNames.mpr ⟨name, mem, rfl, some⟩)
    simpa using valid
  · intro accepted n mem
    obtain ⟨name, isSent, rfl, some⟩ := mem_sentNames.mp mem
    simp [(accepted name isSent).resolve_left some]

theorem isHostname_of_mem_cleanedNames {rt : AllowlistRuntime} (lawful : rt.Lawful) {n : String}
    (mem : n ∈ cleanedNames rt sent) : isHostname n.toList = true := by
  obtain ⟨mem, valid⟩ := List.mem_filter.mp mem
  obtain ⟨name, -, rfl, -⟩ := mem_sentNames.mp mem
  exact isHostname_of_isValidServerName lawful valid

theorem requireAdmin_ok_iff : requireAdmin config settings userId = .ok () ↔
    IsAdmin config settings userId := by
  have checked := @requireAdmin_bind config settings userId Unit () pure
  rw [bind_pure] at checked
  exact checked.trans (and_iff_left rfl)

/-- When an update is accepted, and what it writes. -/
theorem adminUpdateFederationAllowlist_ok :
    (∃ reply, adminUpdateFederationAllowlist rt config settings current sent userId = .ok (reply, s')) ↔
      sent.length ≤ maxAllowedServers ∧ IsAdmin config settings userId ∧
      (∀ name ∈ sent, Accepted rt name) ∧
      s' = { current with
        allowedRemoteServerNames := serverNamesToRegexPatterns rt (cleanedNames rt sent) } := by
  rw [← rejectedNames_eq_nil_iff, ← requireAdmin_ok_iff]
  constructor
  · rintro ⟨reply, out⟩
    unfold adminUpdateFederationAllowlist at out
    split at out
    · cases out
    · rename_i short
      split at out
      · cases out
      · rename_i isAdmin
        split at out
        · cases out
        · rename_i noneRejected
          have written := (Prod.mk.inj (Except.ok.inj out)).2
          exact ⟨Nat.le_of_not_lt short, isAdmin, not_not.mp noneRejected, written.symm⟩
  · rintro ⟨short, isAdmin, noneRejected, rfl⟩
    rw [adminUpdateFederationAllowlist, if_neg (Nat.not_lt.mpr short), isAdmin]
    dsimp only
    rw [if_neg (not_not.mpr noneRejected)]
    exact ⟨_, rfl⟩

/-- The patterns that are written are matched with the names that were sent, and nothing else. -/
theorem federates_written {rt : AllowlistRuntime} (lawful : rt.Lawful) (server : List Char) :
    FederationSettings.Federates rt { current with
      allowedRemoteServerNames := serverNamesToRegexPatterns rt (cleanedNames rt sent) } server ↔
      ∃ n ∈ cleanedNames rt sent, server = n.toList := by
  have hostnames : ∀ n ∈ cleanedNames rt sent, isHostname n.toList = true :=
    fun n mem => isHostname_of_mem_cleanedNames lawful mem
  rw [FederationSettings.Federates, encode_of_isHostname lawful hostnames]
  constructor
  · rintro ⟨p, mem, found⟩
    obtain ⟨n, isName, rfl⟩ := List.mem_map.mp mem
    exact ⟨n, isName, (finds_patternOf lawful (hostnames n isName) server).mp found⟩
  · rintro ⟨n, mem, same⟩
    exact ⟨_, List.mem_map_of_mem mem, (finds_patternOf lawful (hostnames n mem) server).mpr same⟩

/-! ## When what is shown is right -/

theorem accepted_of_isHostname {rt : AllowlistRuntime} (lawful : rt.Lawful)
    (hostname : isHostname s.toList = true) : Accepted rt s := by
  right
  rw [lower_strip_of_isHostname lawful hostname, isValidServerName, hostname]
  rfl

theorem shown_of_literal {rt : AllowlistRuntime} (lawful : rt.Lawful) {ps : List String}
    (literal : ∀ p ∈ ps, ∀ tokens, Spells p tokens → ∀ t ∈ tokens, Literal t) :
    List.Forall₂ (fun p n => n = p ∨ ∀ server, rt.finds p.toList server ↔ server = n.toList)
      ps (decodeServerNamePatterns ps) := by
  rw [decodeServerNamePatterns, List.forall₂_map_right_iff, List.forall₂_same]
  intro p mem
  by_cases name : ∃ tokens, Spells p tokens
  · obtain ⟨tokens, spells⟩ := name
    right
    rw [decode_of_spells spells, String.toList_ofList]
    exact (matches_spells lawful spells).mpr (literal p mem tokens spells)
  · exact .inl (decode_eq_self name)

/-- A name of a host is not shown as its pattern. -/
theorem decode_ne_self (spells : Spells p tokens) : decodeServerNamePattern p ≠ p := by
  rw [decode_of_spells spells]
  intro same
  have chars : text tokens = anchored (spell tokens) := by
    rw [← spells.1, ← same, String.toList_ofList]
  refine not_mem_of_isHostname spells.2 (c := '^') (by decide) ?_
  rw [chars]
  exact List.mem_cons_self

theorem literal_of_shown {rt : AllowlistRuntime} (lawful : rt.Lawful) {ps : List String}
    (shown : List.Forall₂ (fun p n => n = p ∨ ∀ server, rt.finds p.toList server ↔ server = n.toList)
      ps (decodeServerNamePatterns ps)) :
    ∀ p ∈ ps, ∀ tokens, Spells p tokens → ∀ t ∈ tokens, Literal t := by
  rw [decodeServerNamePatterns, List.forall₂_map_right_iff, List.forall₂_same] at shown
  intro p mem tokens spells
  have exactly := (shown p mem).resolve_left (decode_ne_self spells)
  rw [decode_of_spells spells, String.toList_ofList] at exactly
  exact (matches_spells lawful spells).mp exactly

/-! ## When what is sent back changes nothing -/

variable {serverName : String} {pending : Bool} {view : FederationView}

theorem adminGetFederation_ok :
    adminGetFederation config settings current serverName pending userId = .ok view ↔
      IsAdmin config settings userId ∧ view = {
        enabled := current.allowFederation
        serverName
        allowedServers := decodeServerNamePatterns current.allowedRemoteServerNames
        rawAllowedPatterns := current.allowedRemoteServerNames
        rawForbiddenPatterns := current.forbiddenRemoteServerNames
        pendingApply := pending } := by
  rw [adminGetFederation, requireAdmin_bind, pure_eq_ok]

theorem mem_cleanedNames_iff {rt : AllowlistRuntime} (lawful : rt.Lawful) {n : String}
    (hostnames : ∀ name ∈ sent, isHostname name.toList = true) :
    n ∈ cleanedNames rt sent ↔ n ∈ sent := by
  rw [cleanedNames, List.mem_filter, mem_sentNames]
  constructor
  · rintro ⟨⟨name, mem, rfl, -⟩, -⟩
    rwa [lower_strip_of_isHostname lawful (hostnames name mem)]
  · intro mem
    have hostname := hostnames n mem
    refine ⟨⟨n, mem, lower_strip_of_isHostname lawful hostname, ne_empty_of_isHostname hostname⟩, ?_⟩
    rw [isValidServerName, hostname]
    rfl

/-- Where all patterns are host names that stand for themselves, what is shown can be sent back. -/
theorem federates_sent_back {rt : AllowlistRuntime} (lawful : rt.Lawful)
    (names : ∀ p ∈ current.allowedRemoteServerNames, ∃ tokens, Spells p tokens)
    (literal : ∀ p ∈ current.allowedRemoteServerNames, ∀ tokens, Spells p tokens →
      ∀ t ∈ tokens, Literal t) (server : List Char) :
    (∃ n ∈ cleanedNames rt (decodeServerNamePatterns current.allowedRemoteServerNames),
      server = n.toList) ↔ current.Federates rt server := by
  have hostnames : ∀ n ∈ decodeServerNamePatterns current.allowedRemoteServerNames,
      isHostname n.toList = true := by
    intro n mem
    obtain ⟨p, isPattern, rfl⟩ := List.mem_map.mp mem
    obtain ⟨tokens, spells⟩ := names p isPattern
    rw [decode_of_spells spells, String.toList_ofList]
    exact spells.2
  have exactly : ∀ p ∈ current.allowedRemoteServerNames,
      (rt.finds p.toList server ↔ server = (decodeServerNamePattern p).toList) := by
    intro p mem
    obtain ⟨tokens, spells⟩ := names p mem
    rw [decode_of_spells spells, String.toList_ofList]
    exact (matches_spells lawful spells).mpr (literal p mem tokens spells) server
  constructor
  · rintro ⟨n, mem, same⟩
    obtain ⟨p, isPattern, rfl⟩ := List.mem_map.mp ((mem_cleanedNames_iff lawful hostnames).mp mem)
    exact ⟨p, isPattern, (exactly p isPattern).mpr same⟩
  · rintro ⟨p, isPattern, found⟩
    refine ⟨decodeServerNamePattern p, ?_, (exactly p isPattern).mp found⟩
    exact (mem_cleanedNames_iff lawful hostnames).mpr (List.mem_map_of_mem isPattern)

theorem kept_of_decodable {rt : AllowlistRuntime} (lawful : rt.Lawful) {reader writer : String}
    (decodable : Decodable rt current.allowedRemoteServerNames)
    (got : adminGetFederation config settings current serverName pending reader = .ok view)
    (put : adminUpdateFederationAllowlist rt config settings current view.allowedServers writer =
      .ok (reply, s')) (server : List Char) : s'.Federates rt server ↔ current.Federates rt server := by
  obtain ⟨-, rfl⟩ := adminGetFederation_ok.mp got
  obtain ⟨short, -, accepted, rfl⟩ := adminUpdateFederationAllowlist_ok.mp ⟨reply, put⟩
  have names : ∀ p ∈ current.allowedRemoteServerNames, ∃ tokens, Spells p tokens := by
    apply decodable.anchors
    · rwa [decodeServerNamePatterns, List.length_map] at short
    · intro p mem
      refine or_iff_not_imp_left.mpr fun noName => ?_
      have back := accepted _ (List.mem_map_of_mem mem)
      rwa [decode_eq_self noName] at back
  rw [federates_written lawful]
  exact federates_sent_back lawful names decodable.literal server

/-- Patterns that stand for host names, with the hyphens escaped or not. -/
theorem decodable_of_spells {ps : List String}
    (spelt : ∀ p ∈ ps, ∃ tokens, Spells p tokens ∧ ∀ t ∈ tokens, Literal t) : Decodable rt ps where
  literal := by
    intro p mem tokens spells
    obtain ⟨tokens', spells', literal⟩ := spelt p mem
    rwa [spells_unique spells spells']
  anchors := by
    intro _ _ p mem
    obtain ⟨tokens, spells, -⟩ := spelt p mem
    exact ⟨tokens, spells⟩

/-- Some user administers an instance. -/
theorem isAdmin_of_single (userId : String) :
    IsAdmin { adminUserIds := [userId] } {} userId := .inl (List.mem_singleton.mpr rfl)

theorem decodable_of_faithful {rt : AllowlistRuntime} (lawful : rt.Lawful) {names : List String}
    (faithful : Faithful rt current names) : Decodable rt current.allowedRemoteServerNames where
  literal := literal_of_shown lawful faithful.shown
  anchors := by
    intro short accepted p mem
    by_contra noName
    have sentBack : ∀ n ∈ decodeServerNamePatterns current.allowedRemoteServerNames, Accepted rt n := by
      intro n mem
      obtain ⟨q, isPattern, rfl⟩ := List.mem_map.mp mem
      by_cases isName : ∃ tokens, Spells q tokens
      · obtain ⟨tokens, spells⟩ := isName
        rw [decode_of_spells spells]
        apply accepted_of_isHostname lawful
        rw [String.toList_ofList]
        exact spells.2
      · rw [decode_eq_self isName]
        exact (accepted q isPattern).resolve_left isName
    have isAdmin := isAdmin_of_single ""
    have short : (decodeServerNamePatterns current.allowedRemoteServerNames).length ≤
        maxAllowedServers := by
      rwa [decodeServerNamePatterns, List.length_map]
    have got : adminGetFederation { adminUserIds := [""] } {} current "" false "" = .ok _ :=
      adminGetFederation_ok.mpr ⟨isAdmin, rfl⟩
    obtain ⟨reply, put⟩ := (@adminUpdateFederationAllowlist_ok rt _ _ current _ _ _).mpr
      ⟨short, isAdmin, sentBack, rfl⟩
    -- a text that is too long for a name of a host ends with the pattern
    have bare := not_metacharacter_of_accepted lawful ((accepted p mem).resolve_left noName)
    have found := finds_behind lawful.documented bare (List.replicate 254 'a')
    have still := (faithful.kept _ _ "" false "" "" _ _ _ got put _).mpr ⟨p, mem, found⟩
    obtain ⟨n, isName, same⟩ := (federates_written lawful _).mp still
    have long := length_le_of_isHostname (isHostname_of_mem_cleanedNames lawful isName)
    rw [← same, List.length_append, List.length_replicate] at long
    omega

/-- **Faithful patterns.** What is shown is right, and may be sent back, exactly when host names between
anchors stand for themselves, and lists that are accepted as they are shown hold nothing else. -/
theorem allowlist_faithful_iff {rt : AllowlistRuntime} (lawful : rt.Lawful)
    (s : FederationSettings String) (names : List String) :
    Faithful rt s names ↔ Decodable rt s.allowedRemoteServerNames := by
  constructor
  · exact decodable_of_faithful lawful
  · intro decodable
    exact {
      shown := shown_of_literal lawful decodable.literal
      decoded := decode_encode lawful
      kept := fun _ _ _ _ _ _ _ _ _ got put => kept_of_decodable lawful decodable got put }

/-- Texts in lower case letter by letter, and an engine for plain patterns. -/
def plainRuntime : AllowlistRuntime where
  lower s := String.ofList (s.toList.map Char.toLower)
  finds := plainEngine

theorem toLower_of_not_upper (other : ¬(65 ≤ c.toNat ∧ c.toNat ≤ 90)) : c.toLower = c := by
  exact dif_neg other

theorem toLower_of_isHostChar (host : isHostChar c = true) : c.toLower = c := by
  apply toLower_of_not_upper
  simp only [isHostChar, isLowerOrDigit, Bool.or_eq_true, Bool.and_eq_true, decide_eq_true_eq] at host
  rcases host with ((⟨low, high⟩ | ⟨low, high⟩) | rfl) | rfl
  · have low : 97 ≤ c.toNat := low
    omega
  · have high : c.toNat ≤ 57 := high
    omega
  · decide
  · decide

theorem eq_newline_of_toLower (line : c.toLower = '\n') : c = '\n' := by
  by_cases upper : 65 ≤ c.toNat ∧ c.toNat ≤ 90
  · have upper : c.val ≥ 'A'.val ∧ c.val ≤ 'Z'.val := upper
    have lowered : c.toLower.val = c.val + 32 := congrArg Char.val (dif_pos upper)
    have sum : (c.val + 32).toNat = 10 := by
      rw [← lowered]
      exact congrArg Char.toNat line
    rw [UInt32.toNat_add] at sum
    have low : 65 ≤ c.val.toNat := upper.1
    have high : c.val.toNat ≤ 90 := upper.2
    have small : (c.val.toNat + 32) % 4294967296 = 10 := sum
    omega
  · rwa [toLower_of_not_upper upper] at line

theorem lawful_plainRuntime : plainRuntime.Lawful where
  documented := documented_plainEngine
  lower_host := by
    intro s host
    have same : s.toList.map Char.toLower = s.toList.map id :=
      List.map_congr_left fun c mem => toLower_of_isHostChar (host c mem)
    change String.ofList (s.toList.map Char.toLower) = s
    rw [same, List.map_id, String.ofList_toList]
  lower_meta := by
    intro s c special mem
    have same : metacharacters.all (fun m => m.toLower = m) = true := by decide
    have same := of_decide_eq_true (List.all_eq_true.mp same c special)
    rw [plainRuntime, String.toList_ofList, ← same]
    exact List.mem_map_of_mem mem
  lower_last := by
    intro s last
    rw [plainRuntime, String.toList_ofList, List.getLast?_map, Option.map_eq_some_iff] at last
    obtain ⟨c, last, line⟩ := last
    rwa [eq_newline_of_toLower line] at last

theorem allowlist_faithful_of_escaped_dots : Faithful plainRuntime
    { allowedRemoteServerNames := ["^my-friend\\.example\\.com$"] } ["Matrix.org "] := by
  refine (allowlist_faithful_iff lawful_plainRuntime _ _).mpr (decodable_of_spells ?_)
  intro p mem
  rw [List.mem_singleton.mp mem]
  refine ⟨"my-friend.example.com".toList.map fun c => (c = '.', c), ⟨?_, ?_⟩, literal_map ?_ ?_ _⟩
  · decide
  · rw [text_map]
    decide
  · decide
  · intro c dot
    rw [of_decide_eq_true dot]
    decide

/-- A bare dot is shown as if it had a backslash. -/
theorem bare_dot_shown_as_name : ¬Faithful plainRuntime
    { allowedRemoteServerNames := ["^my.example\\.com$"] } [] := by
  intro faithful
  have shown := (List.forall₂_cons.mp faithful.shown).1
  have name : decodeServerNamePattern "^my.example\\.com$" = "my.example.com" := by decide
  rw [name] at shown
  let rest : List Token := "example.com".toList.map fun c => (c = '.', c)
  have spelt : "^my.example\\.com$".toList =
      anchored (spell ([(false, 'm'), (false, 'y')] ++ (false, '.') :: rest)) := by decide
  rcases shown with same | exactly
  · exact absurd same (by decide)
  · have found : plainEngine "^my.example\\.com$".toList "myxexample.com".toList := by
      rw [spelt]
      refine (plainEngine_anchored ?_).mpr ⟨?_, ?_⟩
      · decide
      · decide
      · exact forall₂_bare_dot _ rest (by decide)
    exact absurd ((exactly _).mp found) (by decide)

end Concorrd.Api
