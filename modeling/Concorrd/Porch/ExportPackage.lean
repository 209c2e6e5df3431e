import Mathlib.Logic.Equiv.List
import Concorrd.Lib.Bytes
import Concorrd.Lib.Dict
import Concorrd.Lib.Listing
import Concorrd.Lib.Run
import Concorrd.Porch.Backup
import Concorrd.Porch.Text

/-!
# The package of a home export

`build_home_export_package` of `porch/home_export.rs` takes a snapshot of the home database, packs it with
every file that it finds under the asset and backup directories into an archive, seals the archive and writes
it to the exports directory, under the time and the beginning of the peer's id.

The walk passes over what it cannot read or list, a path may be too long for the archive, and the name may be
in use: `exports_kept_iff` says that a run of exports is as promised exactly when none of this happens.
-/

namespace Concorrd.ExportPackage

open Machine

/-! ## The libraries -/

/-- JSON manifest baked into the archive. -/
structure PackageMeta where
  schemaVersion : Int64
  exportedAt : Int
  exporterPeerId : String
  targetPeerId : String
  packageFormatVersion : Nat
  subject : String
  deriving DecidableEq, Repr

def packageFormatVersion : Nat := 1
def subjectHome : String := "home"
def saltLen : Nat := 32
def nonceLen : Nat := 12

/-- An entry of an archive: its path and its bytes. -/
abbrev TarEntry := String × List UInt8

/-- What is done outside: JSON, the archive format, Argon2id, ChaCha20-Poly1305 and SHA-256. -/
structure ExportLibraries where
  toVecPretty : PackageMeta → List UInt8
  tar : List TarEntry → List UInt8
  untar : List UInt8 → Option (List TarEntry)
  hashPassword : List UInt8 → List UInt8 → Except String (List UInt8)
  encrypt : List UInt8 → List UInt8 → List UInt8 → Except String (List UInt8)
  decrypt : List UInt8 → List UInt8 → List UInt8 → Except String (List UInt8)
  sha256 : List UInt8 → String

/-- An archive holds the entries it was given, a key is derived with any salt, and what is sealed is opened with
the same key and nonce. -/
structure ExportLibraries.Lawful (lib : ExportLibraries) : Prop where
  untar_tar : ∀ entries, lib.untar (lib.tar entries) = some entries
  hashes : ∀ passphrase salt, salt.length = saltLen → ∃ key, lib.hashPassword passphrase salt = .ok key
  encrypts : ∀ key nonce plain, nonce.length = nonceLen → ∃ sealed, lib.encrypt key nonce plain = .ok sealed
  decrypts : ∀ key nonce plain sealed, lib.encrypt key nonce plain = .ok sealed →
    lib.decrypt key nonce sealed = .ok plain ∧ 16 ≤ sealed.length

/-! ## The source -/

/-- What a file holds, and the error of opening it if that fails. -/
structure SourceFile where
  content : List UInt8
  fails : Option String := none

/-- A directory to export. When it does not exist there is nothing inside; `found` is what is said of that. -/
structure SourceRoot where
  found : Bool
  lists : Bool
  inside : Listing SourceFile

/-- A call, with what it reads: the snapshot of the database, the directories, the clock and the random
bytes, and whether the package can be written. -/
structure ExportRequest where
  passphrase : String
  targetPeerId : String
  exporterPeerId : String
  appDataDir : String
  fileBacked : Bool
  snapshot : Except PorchError (List UInt8)
  assets : SourceRoot
  backups : SourceRoot
  exportedAt : Int
  salt : List UInt8
  nonce : List UInt8
  saved : Except PorchError Unit
  salt_length : salt.length = saltLen
  nonce_length : nonce.length = nonceLen

/-- Wire return shape. -/
structure ExportManifest where
  packagePath : String
  sha256 : String
  targetPeerId : String
  sizeBytes : Nat
  deriving DecidableEq, Repr

/-! ## The archive -/

/-- The name field of an archive header. -/
def nameField : Nat := 100

def inTar (path : List String) : String := String.intercalate "/" path

/-- `Header::set_path` takes no path that is longer than the field. -/
def setPath (path : String) : Except PorchError String :=
  if path.utf8ByteSize ≤ nameField then .ok path
  else .error (.io ("provided value is too long when setting path for " ++ path))

/-- The entry of a file. -/
def appendFile (file : List String × SourceFile) : Except PorchError TarEntry :=
  match file.2.fails with
  | some detail => .error (.io detail)
  | none => (setPath (inTar file.1)).map (·, file.2.content)

/-- What the walk finds under a directory. -/
def SourceRoot.walked (root : SourceRoot) (tarPrefix : String) : List (List String × SourceFile) :=
  if root.found then Listing.walk (root.inside.size + 1) [⟨[tarPrefix], root.lists, root.inside⟩] else []

/-- Append every regular file that is found under a directory. -/
def appendDirRecursive (root : SourceRoot) (tarPrefix : String) : Except PorchError (List TarEntry) :=
  (root.walked tarPrefix).mapM appendFile

namespace ExportRequest

variable (r : ExportRequest)

def packageMeta : PackageMeta where
  schemaVersion := schemaVersion
  exportedAt := r.exportedAt
  exporterPeerId := r.exporterPeerId
  targetPeerId := r.targetPeerId
  packageFormatVersion := packageFormatVersion
  subject := subjectHome

end ExportRequest

/-- First `meta.json`, then the snapshot, the assets and the backups. -/
def buildTarPayload (lib : ExportLibraries) (r : ExportRequest) (snapshot : List UInt8) :
    Except PorchError (List UInt8) := do
  let manifest ← setPath "meta.json"
  let database ← setPath "home.sqlite"
  let assets ← appendDirRecursive r.assets "home_assets"
  let backups ← appendDirRecursive r.backups "home_backups"
  return lib.tar ((manifest, lib.toVecPretty r.packageMeta) :: (database, snapshot) :: (assets ++ backups))

/-! ## The package -/

def deriveExportKey (lib : ExportLibraries) (passphrase : String) (salt : List UInt8) :
    Except PorchError (List UInt8) :=
  (lib.hashPassword (Bytes.utf8 passphrase) salt).mapError fun e => .invalidInput ("argon2 derive failed: " ++ e)

/-- First 8 alphanumeric characters of the id. -/
def shortPeerId (peerId : String) : String :=
  if (peerId.toList.filter Char.isAlphanum).take 8 = [] then "peer"
  else String.ofList ((peerId.toList.filter Char.isAlphanum).take 8)

/-- Where the package goes. -/
def ExportRequest.packagePath (r : ExportRequest) : String :=
  r.appDataDir ++ "/exports/" ++ (toString r.exportedAt ++ "-" ++ shortPeerId r.targetPeerId ++ ".concord-pkg")

/-- The packages that there are, by path. -/
abbrev Packages := Dict String (List UInt8)

/-- Refuse a request under a condition. -/
def refuseInput (c : Prop) [Decidable c] (detail : String) : Except PorchError Unit :=
  if c then .error (.invalidInput detail) else .ok ()

/-- Build an encrypted export package for the home database of this install. -/
def buildHomeExportPackage (lib : ExportLibraries) (r : ExportRequest) (packages : Packages) :
    Except PorchError (ExportManifest × Packages) := do
  refuseInput (r.passphrase = "") "export passphrase must not be empty"
  refuseInput (trim r.targetPeerId = "") "target_peer_id must not be empty"
  refuseInput (¬r.fileBacked) "in-memory porch cannot be exported — open a file-backed porch first"
  let snapshot ← r.snapshot
  let tarBytes ← buildTarPayload lib r snapshot
  let key ← deriveExportKey lib r.passphrase r.salt
  let ciphertext ← (lib.encrypt key r.nonce tarBytes).mapError fun e => .invalidInput ("AEAD encrypt failed: " ++ e)
  let _ ← r.saved
  return (⟨r.packagePath, lib.sha256 (r.salt ++ (r.nonce ++ ciphertext)), r.targetPeerId,
      (r.salt ++ (r.nonce ++ ciphertext)).length⟩,
    packages.set r.packagePath (r.salt ++ (r.nonce ++ ciphertext)))

/-- Decrypt a package. -/
def decryptHomeExportPackage (lib : ExportLibraries) (blob : List UInt8) (passphrase : String) :
    Except PorchError (List UInt8) :=
  if blob.length < saltLen + nonceLen + 16 then
    .error (.malformedEnvelope ("export blob too short: " ++ toString blob.length ++ " < " ++
      toString (saltLen + nonceLen + 16)))
  else do
    let key ← deriveExportKey lib passphrase (blob.take saltLen)
    (lib.decrypt key ((blob.drop saltLen).take nonceLen) (blob.drop (saltLen + nonceLen))).mapError fun e =>
      .invalidInput ("AEAD decrypt failed (wrong passphrase or corrupted blob): " ++ e)

/-- The packages after a call. -/
def exportStep (lib : ExportLibraries) (packages : Packages) (r : ExportRequest) : Packages :=
  match buildHomeExportPackage lib r packages with
  | .ok (_, packages') => packages'
  | .error _ => packages

/-! ## What an export promises -/

namespace SourceRoot

variable (root : SourceRoot) (tarPrefix : String)

def files : List (List String × SourceFile) := root.inside.files [tarPrefix]

def seen : List (List String × SourceFile) := if root.found ∧ root.lists then root.inside.seen [tarPrefix] else []

def hidden : List (List String × SourceFile) :=
  if root.found ∧ root.lists then root.inside.hidden [tarPrefix] else root.inside.files [tarPrefix]

/-- There is nothing to read, or it is read. -/
def Readable : Prop := root.inside = .nil ∨ (root.found ∧ root.lists) ∧ root.inside.Readable

end SourceRoot

/-- The entry that a file is to have. -/
def entryOf (file : List String × SourceFile) : TarEntry := (inTar file.1, file.2.content)

/-- The file can be opened. -/
def Opens (file : List String × SourceFile) : Prop := file.2.fails = none

/-- The path of the file fits the archive. -/
def FitsName (file : List String × SourceFile) : Prop := (inTar file.1).utf8ByteSize ≤ nameField

namespace ExportRequest

variable (r : ExportRequest)

def files : List (List String × SourceFile) := r.assets.files "home_assets" ++ r.backups.files "home_backups"

def seen : List (List String × SourceFile) := r.assets.seen "home_assets" ++ r.backups.seen "home_backups"

def hidden : List (List String × SourceFile) := r.assets.hidden "home_assets" ++ r.backups.hidden "home_backups"

/-- The arguments are sound, the database can be copied and the package written. -/
def Works : Prop :=
  r.passphrase ≠ "" ∧ trim r.targetPeerId ≠ "" ∧ r.fileBacked ∧ (∃ snapshot, r.snapshot = .ok snapshot) ∧
    r.saved = .ok ()

/-- Every entry of the directories can be read. -/
def AllReadable : Prop := r.assets.Readable ∧ r.backups.Readable ∧ ∀ file ∈ r.files, Opens file

/-- The entries of a whole package. -/
def whole (lib : ExportLibraries) (snapshot : List UInt8) : List TarEntry :=
  ("meta.json", lib.toVecPretty r.packageMeta) :: ("home.sqlite", snapshot) :: r.files.map entryOf

/-- The export ends in an error: of its arguments or the database, or at a file that it comes to. -/
def Refused : Prop := ¬r.Works ∨ ∃ file ∈ r.seen, ¬(Opens file ∧ FitsName file)

/-- What is readable is exported; what is reported holds everything and takes the place of no other package. -/
def Kept (lib : ExportLibraries) (packages : Packages) : Prop :=
  (r.Works → r.AllReadable → ∃ out, buildHomeExportPackage lib r packages = .ok out) ∧
  ∀ out, buildHomeExportPackage lib r packages = .ok out →
    (∃ blob tarBytes entries snapshot, out.2.get out.1.packagePath = some blob ∧ r.snapshot = .ok snapshot ∧
      decryptHomeExportPackage lib blob r.passphrase = .ok tarBytes ∧ lib.untar tarBytes = some entries ∧
      entries.Perm (r.whole lib snapshot)) ∧
    out.1.packagePath ∉ packages.keys

/-- No readable file has too long a path, and unless the export is refused, no file is hidden and the path of the
package is free. -/
def Exports (packages : Packages) : Prop :=
  (r.Works → r.AllReadable → ∀ file ∈ r.files, FitsName file) ∧
  (r.Refused ∨ r.hidden = [] ∧ r.packagePath ∉ packages.keys)

end ExportRequest

/-! ## The walk -/

theorem SourceRoot.walked_perm (root : SourceRoot) (tarPrefix : String) :
    (root.walked tarPrefix).Perm (root.seen tarPrefix) := by
  rw [SourceRoot.walked, SourceRoot.seen]
  by_cases found : root.found = true
  · rw [if_pos found]
    have enough : Listing.left [⟨[tarPrefix], root.lists, root.inside⟩] ≤ root.inside.size + 1 := Nat.le_refl _
    refine (Listing.walk_perm enough).trans (List.Perm.of_eq ?_)
    rw [List.flatMap_singleton, Listing.Pending.seen]
    by_cases lists : root.lists = true
    · rw [if_pos lists, if_pos ⟨found, lists⟩]
    · rw [if_neg lists, if_neg fun both => lists both.2]
  · rw [if_neg found, if_neg fun both => found both.1]

theorem SourceRoot.files_perm (root : SourceRoot) (tarPrefix : String) :
    (root.files tarPrefix).Perm (root.seen tarPrefix ++ root.hidden tarPrefix) := by
  rw [SourceRoot.files, SourceRoot.seen, SourceRoot.hidden]
  split
  · exact Listing.files_perm root.inside [tarPrefix]
  · exact List.Perm.refl _

theorem SourceRoot.hidden_of_readable {root : SourceRoot} (readable : root.Readable) (tarPrefix : String) :
    root.hidden tarPrefix = [] := by
  rw [SourceRoot.hidden]
  rcases readable with nothing | ⟨shown, readable⟩
  · rw [nothing]
    exact ite_self _
  · rw [if_pos shown]
    exact Listing.hidden_eq_nil_of_readable readable

variable {lib : ExportLibraries} {r : ExportRequest} {packages : Packages}

/-- The files that the walk finds, in its order. -/
def ExportRequest.walked (r : ExportRequest) : List (List String × SourceFile) :=
  r.assets.walked "home_assets" ++ r.backups.walked "home_backups"

theorem walked_perm (r : ExportRequest) : r.walked.Perm r.seen :=
  (r.assets.walked_perm _).append (r.backups.walked_perm _)

theorem files_perm (r : ExportRequest) : r.files.Perm (r.seen ++ r.hidden) := by
  refine ((r.assets.files_perm _).append (r.backups.files_perm _)).trans ?_
  rw [ExportRequest.seen, ExportRequest.hidden, List.append_assoc, List.append_assoc]
  refine List.Perm.append_left _ ?_
  rw [← List.append_assoc, ← List.append_assoc]
  exact List.perm_append_comm.append_right _

/-! ## The archive -/

theorem appendFile_ok {file : List String × SourceFile} {entry : TarEntry} :
    appendFile file = .ok entry ↔ (Opens file ∧ FitsName file) ∧ entry = entryOf file := by
  rw [appendFile, Opens, FitsName]
  cases fails : file.2.fails with
  | some detail =>
    refine iff_of_false (fun given => ?_) fun h => Option.some_ne_none _ h.1.1
    cases given
  | none =>
    show (setPath (inTar file.1)).map (·, file.2.content) = .ok entry ↔ _
    rw [setPath]
    split
    · rename_i fits
      refine ⟨fun given => ⟨⟨rfl, fits⟩, ?_⟩, fun h => ?_⟩
      · cases given
        rfl
      · rw [h.2]
        rfl
    · rename_i long
      refine iff_of_false (fun given => ?_) fun h => long h.1.2
      cases given

theorem mapM_appendFile_ok {files : List (List String × SourceFile)} {entries : List TarEntry} :
    files.mapM appendFile = .ok entries ↔
      (∀ file ∈ files, Opens file ∧ FitsName file) ∧ entries = files.map entryOf := by
  induction files generalizing entries with
  | nil =>
    refine ⟨fun given => ?_, fun h => ?_⟩
    · cases given
      exact ⟨by simp, rfl⟩
    · rw [h.2]
      rfl
  | cons file files ih =>
    rw [List.mapM_cons, except_bind_eq_ok, List.forall_mem_cons]
    constructor
    · rintro ⟨entry, first, rest⟩
      obtain ⟨entries', others, given⟩ := except_bind_eq_ok.mp rest
      cases given
      obtain ⟨packs, rfl⟩ := appendFile_ok.mp first
      obtain ⟨pack, rfl⟩ := ih.mp others
      exact ⟨⟨packs, pack⟩, rfl⟩
    · rintro ⟨⟨packs, pack⟩, rfl⟩
      exact ⟨entryOf file, appendFile_ok.mpr ⟨packs, rfl⟩,
        except_bind_eq_ok.mpr ⟨files.map entryOf, ih.mpr ⟨pack, rfl⟩, rfl⟩⟩

/-- The entries of the package that is made. -/
def ExportRequest.packed (r : ExportRequest) (lib : ExportLibraries) (snapshot : List UInt8) : List TarEntry :=
  ("meta.json", lib.toVecPretty r.packageMeta) :: ("home.sqlite", snapshot) :: r.walked.map entryOf

theorem buildTarPayload_ok {snapshot tarBytes : List UInt8} :
    buildTarPayload lib r snapshot = .ok tarBytes ↔
      (∀ file ∈ r.seen, Opens file ∧ FitsName file) ∧ tarBytes = lib.tar (r.packed lib snapshot) := by
  have manifest : setPath "meta.json" = .ok "meta.json" := if_pos (by decide)
  have database : setPath "home.sqlite" = .ok "home.sqlite" := if_pos (by decide)
  have all : (∀ file ∈ r.seen, Opens file ∧ FitsName file) ↔ ∀ file ∈ r.walked, Opens file ∧ FitsName file :=
    forall_congr' fun file => imp_congr_left (walked_perm r).mem_iff.symm
  rw [buildTarPayload, manifest, database, all, ExportRequest.walked, List.forall_mem_append]
  show (appendDirRecursive r.assets "home_assets" >>= fun assets =>
    appendDirRecursive r.backups "home_backups" >>= fun backups => _) = .ok tarBytes ↔ _
  constructor
  · intro given
    obtain ⟨assets, first, rest⟩ := except_bind_eq_ok.mp given
    obtain ⟨backups, second, last⟩ := except_bind_eq_ok.mp rest
    obtain ⟨packs, rfl⟩ := mapM_appendFile_ok.mp first
    obtain ⟨packs', rfl⟩ := mapM_appendFile_ok.mp second
    cases last
    refine ⟨⟨packs, packs'⟩, ?_⟩
    rw [ExportRequest.packed, ExportRequest.walked, List.map_append]
  · rintro ⟨⟨packs, packs'⟩, rfl⟩
    refine except_bind_eq_ok.mpr ⟨_, mapM_appendFile_ok.mpr ⟨packs, rfl⟩, except_bind_eq_ok.mpr
      ⟨_, mapM_appendFile_ok.mpr ⟨packs', rfl⟩, ?_⟩⟩
    rw [ExportRequest.packed, ExportRequest.walked, List.map_append]
    rfl

/-! ## The package -/

theorem mapError_ok {ε : Type} {e : Except ε (List UInt8)} {f : ε → PorchError} {bytes : List UInt8} :
    e.mapError f = .ok bytes ↔ e = .ok bytes := by
  cases e with
  | error e =>
    refine iff_of_false (fun given => ?_) fun given => ?_
    · cases given
    · cases given
  | ok bytes' =>
    refine ⟨fun given => ?_, fun given => ?_⟩
    · cases given
      rfl
    · cases given
      rfl

theorem refuseInput_bind {c : Prop} [Decidable c] {detail : String} {β : Type} {k : Unit → Except PorchError β}
    {b : β} : (refuseInput c detail >>= k) = .ok b ↔ ¬c ∧ k () = .ok b := by
  rw [refuseInput]
  split
  · rename_i refused
    refine iff_of_false (fun given => ?_) fun h => h.1 refused
    cases given
  · rename_i passes
    exact (and_iff_right passes).symm

/-- What is written for a sealed archive. -/
def ExportRequest.blob (r : ExportRequest) (ciphertext : List UInt8) : List UInt8 := r.salt ++ (r.nonce ++ ciphertext)

/-- What is answered for it. -/
def ExportRequest.manifest (r : ExportRequest) (lib : ExportLibraries) (ciphertext : List UInt8) : ExportManifest :=
  ⟨r.packagePath, lib.sha256 (r.blob ciphertext), r.targetPeerId, (r.blob ciphertext).length⟩

/-- An export that succeeds has sealed every file that the walk found. -/
theorem build_ok_iff {out : ExportManifest × Packages} :
    buildHomeExportPackage lib r packages = .ok out ↔
      r.Works ∧ (∀ file ∈ r.seen, Opens file ∧ FitsName file) ∧ ∃ snapshot key ciphertext,
        r.snapshot = .ok snapshot ∧ lib.hashPassword (Bytes.utf8 r.passphrase) r.salt = .ok key ∧
        lib.encrypt key r.nonce (lib.tar (r.packed lib snapshot)) = .ok ciphertext ∧
        out = (r.manifest lib ciphertext, packages.set r.packagePath (r.blob ciphertext)) := by
  rw [buildHomeExportPackage, refuseInput_bind, refuseInput_bind, refuseInput_bind, not_not]
  simp only [except_bind_eq_ok, buildTarPayload_ok, deriveExportKey, mapError_ok]
  constructor
  · rintro ⟨phrase, target, backed, snapshot, read, _, ⟨packs, rfl⟩, key, hashed, ciphertext, encrypted, _,
      saved, given⟩
    cases given
    exact ⟨⟨phrase, target, backed, ⟨snapshot, read⟩, saved⟩, packs, snapshot, key, ciphertext, read, hashed,
      encrypted, rfl⟩
  · rintro ⟨⟨phrase, target, backed, -, saved⟩, packs, snapshot, key, ciphertext, read, hashed, encrypted, rfl⟩
    exact ⟨phrase, target, backed, snapshot, read, _, ⟨packs, rfl⟩, key, hashed, ciphertext, encrypted, (), saved, rfl⟩

/-- An export that is not refused succeeds. -/
theorem exists_build_iff (lawful : lib.Lawful) :
    (∃ out, buildHomeExportPackage lib r packages = .ok out) ↔ ¬r.Refused := by
  rw [ExportRequest.Refused, not_or, not_not]
  push Not
  constructor
  · rintro ⟨out, built⟩
    obtain ⟨works, packs, -⟩ := build_ok_iff.mp built
    exact ⟨works, packs⟩
  · rintro ⟨works, packs⟩
    obtain ⟨-, -, -, ⟨snapshot, read⟩, -⟩ := id works
    obtain ⟨key, hashed⟩ := lawful.hashes (Bytes.utf8 r.passphrase) r.salt r.salt_length
    obtain ⟨ciphertext, encrypted⟩ :=
      lawful.encrypts key r.nonce (lib.tar (r.packed lib snapshot)) r.nonce_length
    exact ⟨_, build_ok_iff.mpr ⟨works, packs, snapshot, key, ciphertext, read, hashed, encrypted, rfl⟩⟩

/-- A package is opened with the passphrase that it was sealed with. -/
theorem decrypt_blob (lawful : lib.Lawful) {key plain ciphertext : List UInt8}
    (hashed : lib.hashPassword (Bytes.utf8 r.passphrase) r.salt = .ok key)
    (encrypted : lib.encrypt key r.nonce plain = .ok ciphertext) :
    decryptHomeExportPackage lib (r.blob ciphertext) r.passphrase = .ok plain := by
  obtain ⟨opened, long⟩ := lawful.decrypts _ _ _ _ encrypted
  have salt := r.salt_length
  have nonce := r.nonce_length
  have enough : ¬(r.blob ciphertext).length < saltLen + nonceLen + 16 := by
    rw [ExportRequest.blob, List.length_append, List.length_append]
    omega
  have front : (r.blob ciphertext).take saltLen = r.salt := List.take_left' salt
  have behind : (r.blob ciphertext).drop saltLen = r.nonce ++ ciphertext := List.drop_left' salt
  have middle : ((r.blob ciphertext).drop saltLen).take nonceLen = r.nonce := by
    rw [behind]
    exact List.take_left' nonce
  have rest : (r.blob ciphertext).drop (saltLen + nonceLen) = ciphertext := by
    rw [← List.drop_drop, behind]
    exact List.drop_left' nonce
  rw [decryptHomeExportPackage, if_neg enough, front, middle, rest, deriveExportKey]
  exact except_bind_eq_ok.mpr ⟨key, mapError_ok.mpr hashed, mapError_ok.mpr opened⟩

/-- The entries of the package are those of a whole one exactly when nothing is hidden. -/
theorem packed_perm_iff (r : ExportRequest) (lib : ExportLibraries) (snapshot : List UInt8) :
    (r.packed lib snapshot).Perm (r.whole lib snapshot) ↔ r.hidden = [] := by
  have found := walked_perm r
  have all := files_perm r
  rw [ExportRequest.packed, ExportRequest.whole, List.perm_cons, List.perm_cons]
  constructor
  · intro same
    have lengths := same.length_eq
    rw [List.length_map, List.length_map, found.length_eq, all.length_eq, List.length_append] at lengths
    exact List.length_eq_zero_iff.mp (by omega)
  · intro nothing
    rw [nothing, List.append_nil] at all
    exact (found.trans all.symm).map entryOf

/-- The promise about what is readable is kept exactly when no readable file has too long a path. -/
theorem exists_build_of_readable_iff (lawful : lib.Lawful) :
    (r.Works → r.AllReadable → ∃ out, buildHomeExportPackage lib r packages = .ok out) ↔
      (r.Works → r.AllReadable → ∀ file ∈ r.files, FitsName file) := by
  refine forall_congr' fun works => forall_congr' fun readable => ?_
  have nothing : r.hidden = [] := by
    rw [ExportRequest.hidden, SourceRoot.hidden_of_readable readable.1, SourceRoot.hidden_of_readable readable.2.1]
    rfl
  have all := files_perm r
  rw [nothing, List.append_nil] at all
  rw [exists_build_iff lawful, ExportRequest.Refused]
  push Not
  rw [and_iff_right works]
  constructor
  · intro packs file mem
    exact (packs file (all.mem_iff.mp mem)).2
  · intro fits file mem
    have mem := all.mem_iff.mpr mem
    exact ⟨readable.2.2 file mem, fits file mem⟩

/-- One export is as promised exactly under the condition. -/
theorem kept_iff (lawful : lib.Lawful) : r.Kept lib packages ↔ r.Exports packages := by
  rw [ExportRequest.Kept, ExportRequest.Exports]
  refine and_congr (exists_build_of_readable_iff lawful) ⟨fun whole => ?_, fun condition out built => ?_⟩
  · by_cases refused : r.Refused
    · exact .inl refused
    · have succeeds : ∃ out, buildHomeExportPackage lib r packages = .ok out := (exists_build_iff lawful).mpr refused
      obtain ⟨out, built⟩ := succeeds
      obtain ⟨⟨blob, tarBytes, entries, snapshot, stored, read, opened, unpacked, perm⟩, free⟩ := whole out built
      obtain ⟨-, -, snapshot', key, ciphertext, read', hashed, encrypted, rfl⟩ := build_ok_iff.mp built
      cases read.symm.trans read'
      cases stored.symm.trans Dict.get_set_self
      cases opened.symm.trans (decrypt_blob lawful hashed encrypted)
      cases unpacked.symm.trans (lawful.untar_tar _)
      exact .inr ⟨(packed_perm_iff r lib snapshot).mp perm, free⟩
  · obtain ⟨works, packs, snapshot, key, ciphertext, read, hashed, encrypted, rfl⟩ := build_ok_iff.mp built
    have accepted : ¬r.Refused := (exists_build_iff lawful).mp ⟨_, built⟩
    obtain ⟨nothing, free⟩ := condition.resolve_left accepted
    exact ⟨⟨_, _, _, snapshot, Dict.get_set_self, read, decrypt_blob lawful hashed encrypted, lawful.untar_tar _,
      (packed_perm_iff r lib snapshot).mpr nothing⟩, free⟩

/-! ## Runs of exports -/

/-- Every export of a run keeps its promises exactly when at each of them no readable file has too long a path
and, unless it is refused, no file is hidden and the path of the package is free. -/
theorem exports_kept_iff (lawful : lib.Lawful) (packages : Packages) (rs : List ExportRequest) :
    Along (exportStep lib) (fun packages r => r.Kept lib packages) packages rs ↔
      Along (exportStep lib) (fun packages r => r.Exports packages) packages rs :=
  along_congr (fun _ => True) (fun _ _ _ => trivial) (fun _ _ _ => kept_iff lawful) trivial

/-! ## Plain libraries -/

/-- The code points of the path and the bytes, as numbers. -/
def numbersOf (entry : TarEntry) : List Nat × List Nat := (entry.1.toList.map Char.toNat, entry.2.map UInt8.toNat)

def entryOfNumbers (numbers : List Nat × List Nat) : TarEntry :=
  (String.ofList (numbers.1.map Char.ofNat), numbers.2.map UInt8.ofNat)

theorem entryOfNumbers_numbersOf (entry : TarEntry) : entryOfNumbers (numbersOf entry) = entry := by
  have path : (entry.1.toList.map Char.toNat).map Char.ofNat = entry.1.toList := by
    simp [List.map_map, Function.comp_def, Char.ofNat_toNat]
  have bytes : (entry.2.map UInt8.toNat).map UInt8.ofNat = entry.2 := by
    simp [List.map_map, Function.comp_def]
  rw [entryOfNumbers, numbersOf, path, bytes, String.ofList_toList]

/-- The entries that a number codes. -/
def entriesOf (code : Nat) : Option (List TarEntry) :=
  (Encodable.decode (α := List (List Nat × List Nat)) code).map fun numbers => numbers.map entryOfNumbers

/-- An archive that is as long as the number that codes its entries, and a cipher that hides nothing. -/
def plainLibraries : ExportLibraries where
  toVecPretty _ := []
  tar entries := List.replicate (Encodable.encode (entries.map numbersOf)) 0
  untar bytes := entriesOf bytes.length
  hashPassword _ _ := .ok []
  encrypt _ _ plain := .ok (plain ++ List.replicate 16 0)
  decrypt _ _ sealed := .ok (sealed.take (sealed.length - 16))
  sha256 _ := ""

theorem plainLibraries_lawful : plainLibraries.Lawful where
  untar_tar entries := by
    show entriesOf (List.replicate (Encodable.encode (entries.map numbersOf)) (0 : UInt8)).length = _
    rw [List.length_replicate, entriesOf, Encodable.encodek, Option.map_some, List.map_map]
    have same : entryOfNumbers ∘ numbersOf = id := funext entryOfNumbers_numbersOf
    rw [same, List.map_id]
  hashes _ _ _ := ⟨[], rfl⟩
  encrypts _ _ plain _ := ⟨plain ++ List.replicate 16 (0 : UInt8), rfl⟩
  decrypts key nonce plain sealed encrypted := by
    have same : plain ++ List.replicate 16 0 = sealed := Except.ok.inj encrypted
    rw [← same]
    have rest : (plain ++ List.replicate 16 (0 : UInt8)).length - 16 = plain.length := by
      rw [List.length_append, List.length_replicate]
      omega
    refine ⟨?_, ?_⟩
    · show Except.ok ((plain ++ List.replicate 16 (0 : UInt8)).take _) = _
      rw [rest, List.take_left]
    · rw [List.length_append, List.length_replicate]
      omega

/-- An export of the assets, with no backups. -/
def exportOf (assets : SourceRoot) : ExportRequest where
  passphrase := "doom"
  targetPeerId := "12D3"
  exporterPeerId := "local"
  appDataDir := "/data"
  fileBacked := true
  snapshot := .ok [7]
  assets := assets
  backups := ⟨false, false, .nil⟩
  exportedAt := 5
  salt := List.replicate saltLen 1
  nonce := List.replicate nonceLen 2
  saved := .ok ()
  salt_length := List.length_replicate
  nonce_length := List.length_replicate

theorem exportOf_works (assets : SourceRoot) : (exportOf assets).Works := by
  have phrase : "doom" ≠ "" := by decide
  have target : trim "12D3" ≠ "" := by decide
  exact ⟨phrase, target, rfl, ⟨[7], rfl⟩, rfl⟩

/-- A directory with an icon in it. -/
def iconsDir (lists : Bool) : SourceRoot := ⟨true, true, .dir "icons" true lists (.file "a.png" true ⟨[1], none⟩ .nil) .nil⟩

theorem icons_exported :
    Along (exportStep plainLibraries) (fun packages r => r.Kept plainLibraries packages) [] [exportOf (iconsDir true)] := by
  refine (exports_kept_iff plainLibraries_lawful [] _).mpr ⟨⟨fun _ _ file mem => ?_, .inr ⟨rfl, ?_⟩⟩, trivial⟩
  · have one : file = (["home_assets", "icons", "a.png"], ⟨[1], none⟩) := List.mem_singleton.mp mem
    have short : (inTar ["home_assets", "icons", "a.png"]).utf8ByteSize ≤ nameField := by decide
    rw [one]
    exact short
  · exact List.not_mem_nil

/-- A directory that cannot be listed is left out, and the export reports success. -/
theorem locked_icons_lost :
    ¬Along (exportStep plainLibraries) (fun packages r => r.Kept plainLibraries packages) []
      [exportOf (iconsDir false)] := by
  rintro ⟨kept, -⟩
  rcases ((kept_iff plainLibraries_lawful).mp kept).2 with refused | ⟨nothing, -⟩
  · rcases refused with broken | ⟨file, mem, -⟩
    · exact broken (exportOf_works _)
    · cases mem
  · cases nothing

end Concorrd.ExportPackage
