import Mathlib.Data.List.Sort
import Concorrd.Porch.Obsidian

/-!
# Reading a vault

Listing a directory and reading a file below the root a channel is bound to. The file system is a
parameter that answers the questions the two functions ask of it.
-/

namespace Concorrd

/-- Hard cap on a file that is read. -/
def maxVaultFileBytes : UInt64 := 5 * 1024 * 1024

/-- The text without slashes at both ends. -/
def trimSlashes (s : String) : String :=
  String.ofList ((s.toList.dropWhile (· = '/')).reverse.dropWhile (· = '/')).reverse

/-- The parts of a text between slashes. -/
def splitSlashes (s : String) : List String := (s.toList.splitOn '/').map String.ofList

/-- A path from its text. Empty parts say nothing, and neither does a dot unless it starts a
relative path. -/
def VaultPath.ofString (s : String) : VaultPath :=
  match splitSlashes s with
  | "." :: rest => ⟨false, "." :: rest.filter fun seg => seg ≠ "" ∧ seg ≠ "."⟩
  | parts => ⟨s.toList.head? = some '/', parts.filter fun seg => seg ≠ "" ∧ seg ≠ "."⟩

/-- What the file system knows of a file or a directory. -/
structure FileMeta where
  isDir : Bool
  isFile : Bool
  len : UInt64
  modifiedAt : Option Int64

/-- What the file system answers. An entry of a directory is an error or a name, unless that is
not UTF-8; `isSymlink` answers nothing where a path cannot be inspected. -/
structure VaultDisk extends VaultFiles where
  readDir : VaultPath → Except String (List (Except String (Option String)))
  isSymlink : VaultPath → Option Bool
  metadata : VaultPath → Except String FileMeta
  read : VaultPath → Except String (List UInt8)
  toLowercase : String → String

/-- What an entry of a listing is. -/
inductive EntryKind where
  | file
  | directory
  deriving DecidableEq, Repr

/-- A single entry of a listing. -/
structure VaultEntry where
  path : String
  kind : EntryKind
  size : Option UInt64
  modifiedAt : Option Int64
  deriving DecidableEq, Repr

/-- The root a visitor sees. -/
def ObsidianChannelConfig.effectiveRoot (cfg : ObsidianChannelConfig) : VaultPath :=
  match cfg.subfolder with
  | some sub => cfg.vaultRoot.join sub
  | none => cfg.vaultRoot

/-- A stored binding. -/
def ObsidianChannelCols.toConfig (cols : ObsidianChannelCols) : ObsidianChannelConfig where
  channelId := cols.channelId
  vaultRoot := .ofString cols.vaultRoot
  subfolder := cols.subfolder.map .ofString
  followSymlinks := cols.followSymlinks ≠ 0

/-- What follows the last dot of a file name, unless that dot starts it. -/
def VaultPath.extension (path : VaultPath) : Option String := do
  let name ← path.segments.getLast?
  match (name.toList.splitOn '.').reverse with
  | [] | [_] | [_, []] => none
  | ext :: _ => if name = ".." then none else some (String.ofList ext)

/-- The type of a file that may be served, by its extension. -/
def mimeForPath (path : VaultPath) : Option String := do
  match (← path.extension).map Char.toLower with
  | "md" | "markdown" => some "text/markdown"
  | "txt" => some "text/plain"
  | "png" => some "image/png"
  | "jpg" | "jpeg" => some "image/jpeg"
  | "webp" => some "image/webp"
  | "gif" => some "image/gif"
  | "svg" => some "image/svg+xml"
  | "pdf" => some "application/pdf"
  | _ => none

/-- The parts of a requested path, unless one of them goes up. -/
def vaultSegments (relPath : String) : Except PorchError (List String) :=
  let parts := (splitSlashes (trimSlashes relPath)).filter fun seg => seg ≠ "" ∧ seg ≠ "."
  if ".." ∈ parts then .error (.invalidInput ("path traversal not allowed: " ++ relPath))
  else .ok parts

/-- No link on the way from the effective root leads out of the vault. -/
def checkLinks (disk : VaultDisk) (cfg : ObsidianChannelConfig) (relPath : String) :
    VaultPath → List String → Except PorchError Unit
  | _, [] => .ok ()
  | cursor, seg :: rest =>
    let cursor := cursor.join ⟨false, [seg]⟩
    if disk.isSymlink cursor = some true then
      match disk.canonicalize cursor with
      | .error _ => .error (.invalidInput ("symlink resolution failed: " ++ relPath))
      | .ok target =>
        if target.startsWith cfg.vaultRoot then checkLinks disk cfg relPath cursor rest
        else .error (.invalidInput ("symlink escapes vault: " ++ relPath))
    else checkLinks disk cfg relPath cursor rest

/-- The absolute path of a requested one, past every check. -/
def resolveVaultPath (disk : VaultDisk) (cfg : ObsidianChannelConfig) (relPath : String) :
    Except PorchError VaultPath := do
  let accum ← vaultSegments relPath
  let joined := cfg.effectiveRoot.join ⟨false, accum⟩
  match disk.canonicalize joined with
  | .error _ =>
    if ".." ∈ joined.segments then
      .error (.invalidInput ("path traversal not allowed: " ++ relPath))
    else .error (.io ("path not found: " ++ relPath))
  | .ok resolved =>
    if resolved.startsWith cfg.vaultRoot = false then
      .error (.invalidInput ("path escapes vault: " ++ relPath))
    else do
      if cfg.followSymlinks = false then
        checkLinks disk cfg relPath cfg.effectiveRoot accum
      return resolved

/-- The entry of a name in a listed directory, unless it is left out. -/
def vaultEntry (disk : VaultDisk) (cfg : ObsidianChannelConfig) (target : VaultPath)
    (relPath name : String) : Option VaultEntry := do
  guard (name.toList.head? ≠ some '.')
  let path := target.join ⟨false, [name]⟩
  let isSymlink ← disk.isSymlink path
  if isSymlink ∧ cfg.followSymlinks = false then
    guard ((← (disk.canonicalize path).toOption).startsWith cfg.vaultRoot)
  let fileMeta ← (disk.metadata path).toOption
  let kind ←
    if fileMeta.isDir then some EntryKind.directory
    else if fileMeta.isFile then some EntryKind.file
    else none
  return {
    path := if relPath.isEmpty then name else trimSlashes relPath ++ "/" ++ name
    kind := kind
    size := if kind = .file then some fileMeta.len else none
    modifiedAt := fileMeta.modifiedAt }

/-- Directories before files, alphabetical among each. -/
def VaultEntry.before (disk : VaultDisk) (a b : VaultEntry) : Bool :=
  match a.kind, b.kind with
  | .directory, .file => true
  | .file, .directory => false
  | _, _ => disk.toLowercase a.path ≤ disk.toLowercase b.path

namespace Porch

/-- The binding of a channel, tombstoned or not. -/
def getObsidianConfig (p : Porch) (channelId : String) : Option ObsidianChannelConfig :=
  (p.db.find? .obsidianChannels channelId).map fun row => row.cols.toConfig

/-- The binding, or the error that there is none. -/
def obsidianBinding (p : Porch) (channelId : String) : Except PorchError ObsidianChannelConfig :=
  match p.getObsidianConfig channelId with
  | some cfg => .ok cfg
  | none => .error (.invalidInput ("channel " ++ channelId ++ " has no obsidian binding"))

/-- List a directory of the vault of a channel. -/
def listVault (p : Porch) (disk : VaultDisk) (channelId relPath : String) :
    Except PorchError (List VaultEntry) := do
  let cfg ← p.obsidianBinding channelId
  let target ← resolveVaultPath disk cfg relPath
  let found ← (disk.readDir target).mapError .io
  let names ← found.mapM fun entry => entry.mapError .io
  let entries := (names.filterMap id).filterMap (vaultEntry disk cfg target relPath)
  return entries.insertionSort fun a b => a.before disk b

/-- Read a file of the vault of a channel, with its type. -/
def readVaultFile (p : Porch) (disk : VaultDisk) (channelId relPath : String) :
    Except PorchError (List UInt8 × String) := do
  let cfg ← p.obsidianBinding channelId
  let target ← resolveVaultPath disk cfg relPath
  let fileMeta ← (disk.metadata target).mapError .io
  if fileMeta.isFile = false then
    .error (.invalidInput ("path " ++ relPath ++ " is not a file"))
  else if fileMeta.len > maxVaultFileBytes then
    .error (.invalidInput ("file too large: " ++ toString fileMeta.len ++ " > " ++
      toString maxVaultFileBytes))
  else
    match mimeForPath target with
    | none =>
      .error (.invalidInput ("unsupported file type for " ++ relPath ++
        " — only markdown, text, common images and PDF are served"))
    | some mime => do
      let bytes ← (disk.read target).mapError .io
      return (bytes, mime)

end Porch

/-! ## Refusals -/

/-- How a vault that has a binding refuses: with an error of the file system, or with a text that
is not about the binding. -/
def VaultRefusal (e : PorchError) : Prop :=
  (∃ detail, e = .io detail) ∨ ∃ detail, e = .invalidInput detail ∧ detail.toList.head? ≠ some 'c'

theorem VaultRefusal.io (detail : String) : VaultRefusal (.io detail) := .inl ⟨detail, rfl⟩

/-- A text that starts with a letter other than `c` is not about the binding. -/
theorem VaultRefusal.text {start : String} (rest : String) {c : Char} {cs : List Char}
    (first : start.toList = c :: cs) (other : c ≠ 'c') :
    VaultRefusal (.invalidInput (start ++ rest)) := by
  refine .inr ⟨_, rfl, ?_⟩
  rw [String.toList_append, first, List.cons_append, List.head?_cons]
  exact fun same => other (Option.some.inj same)

/-- The error of a missing binding is no such refusal. -/
theorem not_vaultRefusal_binding (channelId : String) {e : PorchError} (h : VaultRefusal e) :
    e ≠ .invalidInput ("channel " ++ channelId ++ " has no obsidian binding") := by
  rintro rfl
  rcases h with ⟨detail, h⟩ | ⟨detail, h, other⟩
  · cases h
  · cases h
    refine other ?_
    rw [String.toList_append, String.toList_append]
    rfl

theorem VaultRefusal.statusCode_ne {e : PorchError} (h : VaultRefusal e) : e.statusCode ≠ 404 := by
  rcases h with ⟨detail, rfl⟩ | ⟨detail, rfl, _⟩
  · exact (show (500 : Int) ≠ 404 by decide)
  · exact (show (400 : Int) ≠ 404 by decide)

theorem failsOnly_vaultSegments (relPath : String) :
    FailsOnlyWith VaultRefusal (vaultSegments relPath) := by
  unfold vaultSegments
  dsimp only
  split
  · exact .error (.text relPath rfl (by decide))
  · exact .ok _

theorem failsOnly_checkLinks (disk : VaultDisk) (cfg : ObsidianChannelConfig) (relPath : String)
    (cursor : VaultPath) (segs : List String) :
    FailsOnlyWith VaultRefusal (checkLinks disk cfg relPath cursor segs) := by
  induction segs generalizing cursor with
  | nil => exact .ok ()
  | cons seg rest ih =>
    unfold checkLinks
    dsimp only
    split
    · split
      · exact .error (.text relPath rfl (by decide))
      · split
        · exact ih _
        · exact .error (.text relPath rfl (by decide))
    · exact ih _

theorem failsOnly_resolveVaultPath (disk : VaultDisk) (cfg : ObsidianChannelConfig)
    (relPath : String) : FailsOnlyWith VaultRefusal (resolveVaultPath disk cfg relPath) := by
  refine (failsOnly_vaultSegments relPath).bind fun accum _ => ?_
  dsimp only
  cases disk.canonicalize (cfg.effectiveRoot.join ⟨false, accum⟩) with
  | error e =>
    dsimp only
    split
    · exact .error (.text relPath rfl (by decide))
    · exact .error (.io _)
  | ok resolved =>
    dsimp only
    split
    · exact .error (.text relPath rfl (by decide))
    · split
      · exact (failsOnly_checkLinks disk cfg relPath _ _).bind fun _ _ => .ok _
      · exact .ok _

namespace Porch

variable {p : Porch} {disk : VaultDisk} {channelId relPath : String}

theorem failsOnly_obsidianBinding (bound : (p.getObsidianConfig channelId).isSome = true) :
    FailsOnlyWith VaultRefusal (p.obsidianBinding channelId) := by
  obtain ⟨cfg, hcfg⟩ := Option.isSome_iff_exists.mp bound
  rw [obsidianBinding, hcfg]
  exact .ok cfg

theorem failsOnly_listVault (bound : (p.getObsidianConfig channelId).isSome = true) :
    FailsOnlyWith VaultRefusal (p.listVault disk channelId relPath) := by
  refine (failsOnly_obsidianBinding bound).bind fun cfg _ => ?_
  refine (failsOnly_resolveVaultPath disk cfg relPath).bind fun target _ => ?_
  refine (FailsOnlyWith.mapError VaultRefusal.io).bind fun found _ => ?_
  exact (FailsOnlyWith.mapM (fun entry => .mapError VaultRefusal.io) found).bind fun _ _ => .ok _

theorem failsOnly_readVaultFile (bound : (p.getObsidianConfig channelId).isSome = true) :
    FailsOnlyWith VaultRefusal (p.readVaultFile disk channelId relPath) := by
  refine (failsOnly_obsidianBinding bound).bind fun cfg _ => ?_
  refine (failsOnly_resolveVaultPath disk cfg relPath).bind fun target _ => ?_
  refine (FailsOnlyWith.mapError VaultRefusal.io).bind fun fileMeta _ => ?_
  split
  · rw [String.append_assoc]
    exact .error (.text _ rfl (by decide))
  · split
    · rw [String.append_assoc, String.append_assoc]
      exact .error (.text _ rfl (by decide))
    · split
      · rw [String.append_assoc]
        exact .error (.text _ rfl (by decide))
      · exact (FailsOnlyWith.mapError VaultRefusal.io).bind fun _ _ => .ok _

end Porch

end Concorrd
