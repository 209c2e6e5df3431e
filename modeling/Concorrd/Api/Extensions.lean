import Mathlib.Data.List.Infix
import Concorrd.Lib.LexicalPath
import Concorrd.Porch.Error
import Concorrd.Api.Document

/-!
# Bundles of extensions

A bundle is a zip with a `manifest.json`. It is unpacked into a staging directory, and its manifest is
checked: the id, the version, the entry and the permissions, each of which must be known. The archive
and the texts in it may be anything.
-/

namespace Concorrd.Api

/-- Why a text is not read as JSON. -/
inductive LoadFault where
  | notJson (message : String)
  | other
  deriving DecidableEq, Repr

/-- What is left to the library of the language, and where extensions are kept. -/
structure Runtime where
  isAlnum : Char → Bool := Char.isAlphanum
  lower : String → String := fun text => String.ofList (text.toList.map Char.toLower)
  loads : String → Except LoadFault Json := fun _ => .error .other
  repr : Json → String := fun _ => ""
  exists' : String → Bool := fun _ => false
  int : Json → Option Int := fun value => match value with
    | .num value => some value
    | _ => none
  extensionsDir : List String := ["data", "extensions"]
  adminUserIds : String := ""

/-- `ALLOWED_PERMISSIONS`, sorted -/
def allowedPermissions : List String :=
  ["fetch:external", "matrix.read", "matrix.send", "media.read", "soundboard.play", "state_events"]

/-- The text between the separators. -/
def splitText (sep : Char) (text : String) : List String :=
  (text.toList.splitOn sep).map String.ofList

variable (rt : Runtime)

/-- An id in reverse-domain form. -/
def isValidExtensionId (extId : String) : Bool :=
  let parts := splitText '.' extId
  extId ≠ "" && extId.length ≤ 200 &&
    !(extId.toList.any fun c => c = '/' || c = '\\' || c = '\x00') &&
    !("..".toList <:+: extId.toList) && 2 ≤ parts.length &&
    parts.all fun part => part ≠ "" && part.toList.all fun c => rt.isAlnum c || c = '-'

/-- The target lies in the directory, links being out of the question. -/
def isExtensionDirectorySafe (target base : List String) : Bool := base <+: target

def adminRequired (userId : String) : Except HttpError Unit :=
  refuse (userId ∉ ((splitText ',' rt.adminUserIds).map Document.strip).filter fun uid => uid ≠ "")
    ⟨403, "Admin access required", none⟩

/-! ## The manifest -/

inductive ManifestError where
  | notAnObject
  | missingKeys (keys : List String)
  | invalidId (value : Json)
  | badVersion
  | badEntry (value : Json)
  | badPermissions
  | unknownPermissions (names : List String)
  | badPricing
  deriving DecidableEq

/-- What the client is told with status 422. -/
def ManifestError.detail : ManifestError → Json
  | .notAnObject => .str "manifest is not an object"
  | .missingKeys keys => .str <| "manifest missing required keys: [" ++
      ", ".intercalate (keys.map fun key => "'" ++ key ++ "'") ++ "]"
  | .invalidId value => .str ("invalid extension id: " ++ rt.repr value)
  | .badVersion => .str "manifest.version must be a non-empty string"
  | .badEntry value => .str ("manifest.entry must be a relative path, got " ++ rt.repr value)
  | .badPermissions => .str "manifest.permissions must be a list of strings"
  | .unknownPermissions names => .obj [("error", .str "unknown_permissions"),
      ("permissions", .arr (names.map .str)), ("allowed", .arr (allowedPermissions.map .str))]
  | .badPricing => .str "manifest.pricing must be a string"

/-- A manifest that passed. `members` is what is stored of it. -/
structure Manifest where
  id : String
  version : String
  entry : String
  permissions : List String
  pricing : String
  members : Dict String Json
  deriving DecidableEq

def validId : Json → Except ManifestError String
  | .str id => if isValidExtensionId rt id then .ok id else .error (.invalidId (.str id))
  | value => .error (.invalidId value)

def validVersion : Json → Except ManifestError String
  | .str version => if version = "" then .error .badVersion else .ok version
  | _ => .error .badVersion

def validEntry : Json → Except ManifestError String
  | .str entry =>
    if entry = "" ∨ entry.toList.head? = some '/' then .error (.badEntry (.str entry)) else .ok entry
  | value => .error (.badEntry value)

/-- The strings of a list that holds nothing else. -/
def stringsOf : Json → Option (List String)
  | .arr items => items.mapM Json.asStr
  | _ => none

def validPermissions (value : Json) : Except ManifestError (List String) :=
  match stringsOf value with
  | none => .error .badPermissions
  | some perms =>
    let unknown := perms.filter fun perm => perm ∉ allowedPermissions
    if unknown ≠ [] then .error (.unknownPermissions unknown) else .ok perms

def validPricing : Json → Except ManifestError String
  | .str pricing => .ok pricing
  | _ => .error .badPricing

def validateManifest : Json → Except ManifestError Manifest
  | .obj members =>
    let value (key : String) (absent : Json) : Json := (Dict.get members key).getD absent
    let missing := ["id", "version", "entry"].filter fun key => (Dict.get members key).isNone
    if missing ≠ [] then .error (.missingKeys missing)
    else do
      let id ← validId rt (value "id" .null)
      let version ← validVersion (value "version" .null)
      let entry ← validEntry (value "entry" .null)
      let permissions ← validPermissions (value "permissions" (.arr []))
      let pricing ← validPricing (value "pricing" (.str "free"))
      return {
        id, version, entry, permissions, pricing
        members := (Dict.set members "permissions" (.arr (permissions.map .str))).set "pricing"
          (.str pricing) }
  | _ => .error .notAnObject

/-- What is seen of the items of a list in what they are read as is seen in the items themselves. -/
theorem filterMap_of_mapM {α β γ : Type} {f : α → Option β} {g : β → γ} {k : α → Option γ}
    (agree : ∀ a b, f a = some b → k a = some (g b)) {l : List α} {l' : List β}
    (h : l.mapM f = some l') : l.filterMap k = l'.map g := by
  induction l generalizing l' with
  | nil =>
    cases h
    rfl
  | cons a l ih =>
    rw [List.mapM_cons] at h
    obtain ⟨b, read, h⟩ := Option.bind_eq_some_iff.mp h
    obtain ⟨rest, others, h⟩ := Option.bind_eq_some_iff.mp h
    cases h
    rw [List.map_cons, List.filterMap_cons, agree a b read, ih others]

section

variable {rt : Runtime} {value raw : Json} {text : String} {perms : List String} {m : Manifest}

theorem validId_ok (h : validId rt value = .ok text) :
    value = .str text ∧ isValidExtensionId rt text = true := by
  unfold validId at h
  split at h
  · split at h
    · rename_i valid
      cases h
      exact ⟨rfl, valid⟩
    · cases h
  · cases h

theorem validPermissions_ok (h : validPermissions value = .ok perms) :
    stringsOf value = some perms ∧ perms ⊆ allowedPermissions := by
  unfold validPermissions at h
  split at h
  · cases h
  · rename_i names strings
    dsimp only at h
    split at h
    · cases h
    · rename_i known
      cases h
      refine ⟨strings, fun perm mem => ?_⟩
      have kept := List.filter_eq_nil_iff.mp (not_not.mp known) perm mem
      rwa [decide_eq_true_eq, not_not] at kept

/-- What a manifest that passed makes sure of: a sound id, and permissions that it declares and that
are all known. -/
theorem validateManifest_ok (h : validateManifest rt raw = .ok m) :
    ∃ members, raw = .obj members ∧ isValidExtensionId rt m.id = true ∧
      stringsOf ((Dict.get members "permissions").getD (.arr [])) = some m.permissions ∧
      m.permissions ⊆ allowedPermissions ∧
      m.members = (Dict.set members "permissions" (.arr (m.permissions.map .str))).set "pricing"
        (.str m.pricing) := by
  cases raw with
  | obj members =>
    dsimp only [validateManifest] at h
    split at h
    · cases h
    · obtain ⟨id, validates, h⟩ := except_bind_eq_ok.mp h
      obtain ⟨version, -, h⟩ := except_bind_eq_ok.mp h
      obtain ⟨entry, -, h⟩ := except_bind_eq_ok.mp h
      obtain ⟨permissions, known, h⟩ := except_bind_eq_ok.mp h
      obtain ⟨pricing, -, h⟩ := except_bind_eq_ok.mp h
      cases h
      obtain ⟨strings, sub⟩ := validPermissions_ok known
      exact ⟨members, rfl, (validId_ok validates).2, strings, sub, rfl⟩
  | null | bool | num | float | str | arr => cases h

end

/-! ## The archive -/

/-- Why a member cannot be read: its header or its data is broken, or anything else. -/
inductive ReadFault where
  | badHeader
  | badData
  | other
  deriving DecidableEq, Repr

structure ZipMember where
  filename : String
  contents : Except ReadFault String

def ZipMember.isDir (m : ZipMember) : Bool := m.filename.toList.getLast? = some '/'

/-- The members of a zip, unless it is none. -/
abbrev Archive := Option (List ZipMember)

/-- The files and directories below a directory, by the segments of their paths. -/
structure Tree where
  files : Dict (List String) String := []
  dirs : List (List String) := []
  deriving DecidableEq

namespace Tree

/-- Make the directory and those above it. A file may be in the way. -/
def mkdirs (t : Tree) (path : List String) : Option Tree :=
  let above := path.inits.filter fun dir => dir ≠ []
  if ∃ dir ∈ above, (t.files.get dir).isSome then none else some { t with dirs := t.dirs ++ above }

/-- The path leads to something. -/
def Has (t : Tree) (path : List String) : Prop :=
  path = [] ∨ path ∈ t.dirs ∨ (t.files.get path).isSome

instance (t : Tree) (path : List String) : Decidable (t.Has path) :=
  inferInstanceAs (Decidable (_ ∨ _ ∨ _))

end Tree

/-- The segments of a path. -/
def segments (name : String) : List String :=
  (splitText '/' name).filter fun seg => seg ≠ "" ∧ seg ≠ "."

inductive UnpackFault where
  | absolutePath (name : String)
  | traversal (name : String)
  | unsafeEntry (name : String)
  | notZip
  | noManifest
  | notJson (message : String)
  | other
  deriving DecidableEq, Repr

namespace UnpackFault

/-- Whether the directory is removed again. -/
def cleans : UnpackFault → Bool
  | .notZip | .noManifest | .notJson _ => true
  | .absolutePath _ | .traversal _ | .unsafeEntry _ | .other => false

def error : UnpackFault → HttpError
  | .absolutePath name => ⟨400, "absolute path in zip: " ++ rt.repr (.str name), none⟩
  | .traversal name => ⟨400, "traversal in zip: " ++ rt.repr (.str name), none⟩
  | .unsafeEntry name => ⟨400, "unsafe zip entry: " ++ rt.repr (.str name), none⟩
  | .notZip => ⟨400, "not a valid zip archive", none⟩
  | .noManifest => ⟨422, "zip is missing manifest.json", none⟩
  | .notJson message => ⟨422, "manifest.json is not valid JSON: " ++ message, none⟩
  | .other => .internal

end UnpackFault

local instance lawfulBEq_path : LawfulBEq (List String) := inferInstance

/-- Copy a member to the path, making the directories above it. -/
def copyMember (t : Tree) (path : List String) (contents : Except ReadFault String) :
    Except UnpackFault Tree :=
  match t.mkdirs path.dropLast with
  | none => .error .other
  | some t =>
    -- the member is opened first, then the file, and then the data is read
    match contents with
    | .error .badHeader => .error .notZip
    | .error .other => .error .other
    | .error .badData => if path = [] ∨ path ∈ t.dirs then .error .other else .error .notZip
    | .ok text =>
      if path = [] ∨ path ∈ t.dirs then .error .other
      else .ok { t with files := t.files.set path text }

/-- Write one member below the directory. -/
def unpackMember (dir : List String) (t : Tree) (m : ZipMember) : Except UnpackFault Tree :=
  let path := segments m.filename
  let first := m.filename.toList.head?
  if m.filename = "" then .ok t
  else if first = some '/' ∨ first = some '\\' then .error (.absolutePath m.filename)
  else if ".." ∈ path then .error (.traversal m.filename)
  else if isExtensionDirectorySafe (LexicalPath.follow dir path) dir = false then
    .error (.unsafeEntry m.filename)
  else if m.isDir then
    match t.mkdirs path with
    | none => .error .other
    | some t => .ok t
  else copyMember t path m.contents

def readManifest (t : Tree) : Except UnpackFault Json :=
  match t.files.get ["manifest.json"] with
  | none => .error .noManifest
  | some text =>
    match rt.loads text with
    | .ok manifest => .ok manifest
    | .error (.notJson message) => .error (.notJson message)
    | .error .other => .error .other

/-- Unpack the bundle into the directory, and read its manifest. -/
def unpackZip (dir : List String) (archive : Archive) : Except UnpackFault (Tree × Json) :=
  match archive with
  | none => .error .notZip
  | some members => do
    let t ← members.foldlM (unpackMember dir) {}
    let manifest ← readManifest rt t
    return (t, manifest)

/-- The manifest that is returned is the one that stands in the directory. -/
theorem readManifest_of_unpackZip {rt : Runtime} {dir : List String} {archive : Archive} {t : Tree}
    {manifest : Json} (h : unpackZip rt dir archive = .ok (t, manifest)) :
    readManifest rt t = .ok manifest := by
  cases archive with
  | none => cases h
  | some members =>
    obtain ⟨t', -, h⟩ := except_bind_eq_ok.mp h
    obtain ⟨manifest', read, h⟩ := except_bind_eq_ok.mp h
    cases h
    exact read

/-- A row of the table of extensions. The manifest is kept as the text that stands in the column is
read; a text that is not JSON is read as nothing. -/
structure ExtensionRow where
  version : String
  pricing : String
  enabled : Bool := true
  remoteUrl : Option String := none
  manifest : Option Json
  deriving DecidableEq

end Concorrd.Api
