import Concorrd.Lib.FileMap
import Concorrd.Api.Admin
import Concorrd.Api.ExtensionPipelines

/-!
# Installing from the catalog

`admin_install_extension` of `routers/admin_extensions.py` from the request to the registry. The directory of
the extension is emptied before the bundle is opened, and only some of the failures that follow empty it
again, so a request that fails is taken back in the cases of `Harmless` only. A request that succeeds leaves
the members of the bundle, and neither touches a file elsewhere.
-/

namespace Concorrd.Api

/-- How the data of a member is read. A broken header or broken data are what makes the bundle no zip; other
exceptions come of an encryption, a compression or a stream that is not understood. What had been written by
then stays in the file. -/
inductive MemberRead where
  | whole (text : String)
  | badHeader (message : String)
  | badData (written message : String)
  | refused
  | breaks (written : String)

structure BundleMember where
  filename : String
  data : MemberRead

def BundleMember.isDir (m : BundleMember) : Bool := m.filename.toList.getLast? = some '/'

inductive BundleFault where
  | unsafePath (name : String)
  | badZip (message : String)
  | noEntry (file : String)
  | other

/-- The download: its size, and its members where it is a zip. -/
structure Bundle where
  size : Nat
  members : Except BundleFault (List BundleMember)

/-- What a request meets: the catalog, what the URL of a bundle leads to, and where a name leads from a
directory, through the links that are on the way. -/
structure InstallEnv where
  rt : Runtime := {}
  config : Config := {}
  settings : Settings := {}
  catalog : Except HttpError Json
  download : Json → Except HttpError Bundle
  resolve : List String → String → List String

/-- What stands on the disk, and the registry: the file may be missing, and its text may not be JSON. -/
structure Installed where
  disk : FileMap
  registry : Option (Option Json)

namespace BundleFault

/-- Whether the directory is removed again. -/
def cleans : BundleFault → Bool
  | .badZip _ | .noEntry _ => true
  | .unsafePath _ | .other => false

def error (rt : Runtime) : BundleFault → HttpError
  | .unsafePath name => ⟨400, "Bundle contains unsafe path: " ++ rt.repr (.str name), none⟩
  | .badZip message => ⟨400, "Bundle is not a valid zip: " ++ message, none⟩
  | .noEntry file => ⟨400, "Bundle is missing its entry file " ++ rt.repr (.str file), none⟩
  | .other => .internal

end BundleFault

/-! ## The request up to the download -/

/-- The first entry of the catalog with the id. Looking at one that is no object raises. -/
def firstEntry (extId : String) : List Json → Except HttpError (Dict String Json)
  | [] => .error ⟨404, "Extension " ++ extId ++ " not listed in catalog", none⟩
  | .obj members :: rest =>
    if Dict.get members "id" = some (.str extId) then .ok members else firstEntry extId rest
  | _ :: _ => .error .internal

def catalogEntry (extId : String) : Json → Except HttpError (Dict String Json)
  | .obj members =>
    match (Dict.get members "extensions").filter truthy with
    | none => firstEntry extId []
    | some (.arr items) => firstEntry extId items
    | some _ => .error .internal
  | _ => .error .internal

def maxBundleBytes : Nat := 50 * 1024 * 1024

variable (env : InstallEnv)

/-- The entry of the catalog and the bundle. Nothing is changed up to here. -/
def chooseBundle (userId extId : String) :
    Except HttpError (Dict String Json × Except BundleFault (List BundleMember)) := do
  requireAdmin env.config env.settings userId
  sanitizeId env.rt extId
  let catalog ← env.catalog
  let entry ← catalogEntry extId catalog
  let url := (Dict.get entry "bundle_url").getD .null
  refuse (truthy url = false) ⟨400, "Catalog entry for " ++ extId ++ " has no bundle_url", none⟩
  let bundle ← env.download url
  refuse (bundle.size > maxBundleBytes) ⟨400, "Bundle exceeds size limit", none⟩
  return (entry, bundle.members)

/-! ## The extraction -/

def InstallEnv.dest (extId : String) : List String := env.rt.extensionsDir ++ [extId]

/-- Remove what an earlier install left, and make the directory. A file in its place is not removed. -/
def clearDest (dest : List String) (disk : FileMap) : Option FileMap :=
  if (disk.contentAt dest).isSome then none else (disk.rmtree dest).mkdirs dest

/-- The file is opened and what could be read of the member is written. -/
def writeMember (target : List String) (disk : FileMap) (written : String) (read : Except BundleFault Unit) :
    FileMap × Except BundleFault Unit :=
  match disk.write target written with
  | none => (disk, .error .other)
  | some disk => (disk, read)

/-- Extract one member. The disk is as it is left in either case. -/
def extractMember (dest : List String) (disk : FileMap) (m : BundleMember) : FileMap × Except BundleFault Unit :=
  if m.isDir then (disk, .ok ())
  else
    let target := env.resolve dest m.filename
    if ¬ dest <+: target then (disk, .error (.unsafePath m.filename))
    else
      match disk.mkdirs target.dropLast with
      | none => (disk, .error .other)
      | some disk =>
        -- the member is opened before its file is
        match m.data with
        | .badHeader message => (disk, .error (.badZip message))
        | .refused => (disk, .error .other)
        | .whole text => writeMember target disk text (.ok ())
        | .badData written message => writeMember target disk written (.error (.badZip message))
        | .breaks written => writeMember target disk written (.error .other)

/-- Extract the members up to the first that fails. -/
def extractAll (dest : List String) (disk : FileMap) : List BundleMember → FileMap × Except BundleFault Unit
  | [] => (disk, .ok ())
  | m :: members =>
    match extractMember env dest disk m with
    | (disk, .error fault) => (disk, .error fault)
    | (disk, .ok _) => extractAll dest disk members

/-- The entry file is there. A path that leaves the directory is looked up wherever it leads. -/
def entryExists (dest : List String) (disk : FileMap) (file : String) : Bool :=
  if file.toList.head? = some '/' ∨ ".." ∈ segments file then env.rt.exists' file
  else (disk (dest ++ segments file)).isSome

/-- From the empty directory to what the registry is written with: the entries of the other extensions. -/
def unpackBundle (dest : List String) (disk : FileMap) (extId : String) (registry : Option (Option Json))
    (entry : Dict String Json) (members : Except BundleFault (List BundleMember)) :
    FileMap × Except BundleFault (List Json) :=
  match members with
  | .error fault => (disk, .error fault)
  | .ok members =>
    match extractAll env dest disk members with
    | (disk, .error fault) => (disk, .error fault)
    | (disk, .ok _) =>
      match orElse entry "entry" "index.html" with
      | .str file =>
        if entryExists env dest disk file then
          match otherEntries registry.join extId with
          | none => (disk, .error .other)
          | some others => (disk, .ok others)
        else (disk, .error (.noEntry file))
      | _ => (disk, .error .other)

def adminInstallExtension (s : Installed) (userId extId : String) : Installed × Except HttpError Unit :=
  match chooseBundle env userId extId with
  | .error e => (s, .error e)
  | .ok (entry, members) =>
    match clearDest (env.dest extId) s.disk with
    | none => (s, .error .internal)
    | some disk =>
      match unpackBundle env (env.dest extId) disk extId s.registry entry members with
      | (disk, .error fault) =>
        ({ s with disk := if fault.cleans then disk.rmtree (env.dest extId) else disk }, .error (fault.error env.rt))
      | (disk, .ok others) => (⟨disk, some (some (.arr (others ++ [registryEntry extId entry])))⟩, .ok ())

/-! ## What is asked of it -/

/-- The text, of a file member that leads to the path. -/
def BundleMember.textAt (dest path : List String) (m : BundleMember) : Option String :=
  if m.isDir = false ∧ env.resolve dest m.filename = path then
    match m.data with
    | .whole text => some text
    | _ => none
  else none

/-- The text of the last file member that leads to the path. -/
def memberText (dest : List String) (members : List BundleMember) (path : List String) : Option String :=
  (members.filterMap (BundleMember.textAt env dest path)).getLast?

/-- A request succeeds with the members of the bundle in the directory and one entry of the registry, or it
fails and changes neither the registry nor the directory of an extension, and it changes no file elsewhere. -/
structure AllOrNothing (userId extId : String) (s s' : Installed) (outcome : Except HttpError Unit) : Prop where
  succeeds : outcome = .ok () → ∃ entry members, chooseBundle env userId extId = .ok (entry, .ok members) ∧
    (∀ path, s'.disk.contentAt (env.dest extId ++ path) =
      memberText env (env.dest extId) members (env.dest extId ++ path)) ∧
    (entriesOf s'.registry.join).filter (fun e => entryId? e = some extId) = [registryEntry extId entry]
  fails : ∀ e, outcome = .error e → s'.registry = s.registry ∧
    ∀ name path, s'.disk (env.rt.extensionsDir ++ name :: path) = s.disk (env.rt.extensionsDir ++ name :: path)
  elsewhere : ∀ path, ¬ env.dest extId <+: path → s'.disk.contentAt path = s.disk.contentAt path

/-- The request is refused before the directory is emptied, or the bundle is installed, or the directory held
what the failure leaves: nothing where it is emptied again, and else what was extracted by then. -/
def Harmless (userId extId : String) (s : Installed) : Prop :=
  ∀ entry members disk, chooseBundle env userId extId = .ok (entry, members) →
    clearDest (env.dest extId) s.disk = some disk →
      ∀ fault, (unpackBundle env (env.dest extId) disk extId s.registry entry members).2 = .error fault →
        ∀ path, s.disk (env.dest extId ++ path) =
          if fault.cleans then none
          else (unpackBundle env (env.dest extId) disk extId s.registry entry members).1 (env.dest extId ++ path)

/-! ## What the extraction changes -/

variable {env} {dest p : List String} {disk disk' : FileMap} {m : BundleMember} {members : List BundleMember}

/-- The path is not the directory, nor above it or below it. -/
def Sibling (dest p : List String) : Prop := ¬ dest <+: p ∧ ∀ target, dest <+: target → ¬ p <+: target

/-- Nothing is changed but below the directory. -/
structure Within (dest : List String) (disk disk' : FileMap) : Prop where
  contents : ∀ p, ¬ dest <+: p → disk'.contentAt p = disk.contentAt p
  siblings : ∀ p, Sibling dest p → disk' p = disk p

theorem Within.refl (dest : List String) (disk : FileMap) : Within dest disk disk :=
  ⟨fun _ _ => rfl, fun _ _ => rfl⟩

theorem Within.trans {disk₁ disk₂ disk₃ : FileMap} (h : Within dest disk₁ disk₂) (h' : Within dest disk₂ disk₃) :
    Within dest disk₁ disk₃ :=
  ⟨fun p out => (h'.contents p out).trans (h.contents p out),
    fun p out => (h'.siblings p out).trans (h.siblings p out)⟩

theorem within_rmtree (dest : List String) (disk : FileMap) : Within dest disk (disk.rmtree dest) where
  contents p out := by rw [FileMap.contentAt, FileMap.rmtree_of_not_prefix out]; rfl
  siblings p out := FileMap.rmtree_of_not_prefix out.1

theorem within_mkdirs {path : List String} (below : ∃ target, dest <+: target ∧ path <+: target)
    (made : disk.mkdirs path = some disk') : Within dest disk disk' where
  contents p _ := FileMap.contentAt_mkdirs made p
  siblings p out := by
    obtain ⟨target, own, above⟩ := below
    exact FileMap.mkdirs_of_not_prefix made fun h => out.2 target own (h.trans above)

theorem within_writeMember {target : List String} (own : dest <+: target) (disk : FileMap) (written : String)
    (read : Except BundleFault Unit) : Within dest disk (writeMember target disk written read).1 := by
  rw [writeMember]
  split
  · exact .refl dest disk
  · rename_i disk' done
    have other : ∀ p, p ≠ target → disk' p = disk p := fun p ne => FileMap.write_of_ne done ne
    refine ⟨fun p out => ?_, fun p out => ?_⟩
    · show (disk' p).bind _ = (disk p).bind _
      rw [other p fun same => out (same ▸ own)]
    · exact other p fun same => out.1 (same ▸ own)

theorem within_extractMember (dest : List String) (disk : FileMap) (m : BundleMember) :
    Within dest disk (extractMember env dest disk m).1 := by
  rw [extractMember]
  split
  · exact .refl dest disk
  simp only
  split
  · exact .refl dest disk
  rename_i own
  have own := not_not.mp own
  split
  · exact .refl dest disk
  rename_i made
  refine (within_mkdirs ⟨_, own, List.dropLast_prefix _⟩ made).trans ?_
  split
  · exact .refl dest _
  · exact .refl dest _
  · exact within_writeMember own _ _ _
  · exact within_writeMember own _ _ _
  · exact within_writeMember own _ _ _

theorem within_extractAll (dest : List String) (disk : FileMap) (members : List BundleMember) :
    Within dest disk (extractAll env dest disk members).1 := by
  induction members generalizing disk with
  | nil => exact .refl dest disk
  | cons m members ih =>
    have first : Within dest disk (extractMember env dest disk m).1 := within_extractMember dest disk m
    rw [extractAll]
    split
    · rename_i stopped
      rwa [stopped] at first
    · rename_i went
      rw [went] at first
      exact first.trans (ih _)

theorem within_unpackBundle (dest : List String) (disk : FileMap) (extId : String) (registry : Option (Option Json))
    (entry : Dict String Json) (members : Except BundleFault (List BundleMember)) :
    Within dest disk (unpackBundle env dest disk extId registry entry members).1 := by
  cases members with
  | error fault => exact .refl dest disk
  | ok members =>
    have extracted : Within dest disk (extractAll env dest disk members).1 := within_extractAll dest disk members
    rw [unpackBundle]
    split
    · rename_i stopped
      rwa [stopped] at extracted
    rename_i went
    rw [went] at extracted
    split
    · split
      · split <;> exact extracted
      · exact extracted
    · exact extracted

theorem within_clearDest (cleared : clearDest dest disk = some disk') : Within dest disk disk' := by
  rw [clearDest] at cleared
  split at cleared
  · cases cleared
  · exact (within_rmtree dest disk).trans (within_mkdirs ⟨dest, List.prefix_rfl, List.prefix_rfl⟩ cleared)

/-! ## What a whole extraction leaves -/

theorem contentAt_clearDest (cleared : clearDest dest disk = some disk') (below : dest <+: p) :
    disk'.contentAt p = none := by
  rw [clearDest] at cleared
  split at cleared
  · cases cleared
  · rw [FileMap.contentAt_mkdirs cleared, FileMap.contentAt, FileMap.rmtree_of_prefix below]
    rfl

theorem contentAt_extractMember (done : extractMember env dest disk m = (disk', .ok ())) (p : List String) :
    disk'.contentAt p = (m.textAt env dest p).or (disk.contentAt p) := by
  rw [extractMember] at done
  split at done
  · rename_i isDir
    cases done
    simp [BundleMember.textAt, isDir]
  rename_i isFile
  simp only at done
  split at done
  · cases done
  split at done
  · cases done
  rename_i disk₁ made
  split at done
  · cases done
  · cases done
  · rename_i text data
    rw [writeMember] at done
    split at done
    · cases done
    · rename_i written
      cases done
      rw [FileMap.contentAt_write written, FileMap.contentAt_mkdirs made]
      by_cases here : env.resolve dest m.filename = p
      · simp [BundleMember.textAt, isFile, here, data]
      · simp [BundleMember.textAt, here, Ne.symm here]
  · rw [writeMember] at done
    split at done <;> cases done
  · rw [writeMember] at done
    split at done <;> cases done

theorem memberText_cons : memberText env dest (m :: members) p =
    (memberText env dest members p).or (m.textAt env dest p) := by
  rw [memberText, memberText, List.filterMap_cons]
  cases m.textAt env dest p with
  | none => exact (Option.or_none).symm
  | some text =>
    simp only
    rw [List.getLast?_cons]
    cases (members.filterMap (BundleMember.textAt env dest p)).getLast? <;> rfl

theorem contentAt_extractAll (done : extractAll env dest disk members = (disk', .ok ())) (p : List String) :
    disk'.contentAt p = (memberText env dest members p).or (disk.contentAt p) := by
  induction members generalizing disk with
  | nil =>
    cases done
    rfl
  | cons m members ih =>
    rw [extractAll] at done
    split at done
    · cases done
    · rename_i went
      rw [ih done, contentAt_extractMember went, memberText_cons, Option.or_assoc]

/-- What is unpacked whole is what the bundle holds. -/
theorem unpackBundle_eq_ok {extId : String} {registry : Option (Option Json)} {entry : Dict String Json}
    {archive : Except BundleFault (List BundleMember)} {others : List Json}
    (done : unpackBundle env dest disk extId registry entry archive = (disk', .ok others)) :
    ∃ members, archive = .ok members ∧ otherEntries registry.join extId = some others ∧
      ∀ p, disk'.contentAt p = (memberText env dest members p).or (disk.contentAt p) := by
  cases archive with
  | error fault => cases done
  | ok members =>
    rw [unpackBundle] at done
    split at done
    · cases done
    rename_i extracted
    split at done
    · split at done
      · split at done
        · cases done
        · rename_i listed
          cases done
          exact ⟨members, rfl, listed, contentAt_extractAll extracted⟩
      · cases done
    · cases done

theorem filter_otherEntries {registry : Option Json} {extId : String} {others : List Json} (entry : Dict String Json)
    (listed : otherEntries registry extId = some others) :
    (others ++ [registryEntry extId entry]).filter (fun e => entryId? e = some extId) = [registryEntry extId entry] := by
  have none : others.filter (fun e => entryId? e = some extId) = [] := by
    rw [List.filter_eq_nil_iff]
    intro e mem
    rw [otherEntries] at listed
    split at listed
    · cases listed
      simpa using (List.mem_filter.mp mem).2
    · cases listed
  have own : entryId? (registryEntry extId entry) = some extId := rfl
  rw [List.filter_append, none, List.nil_append, List.filter_cons_of_pos (by simp [own]), List.filter_nil]

/-! ## The request -/

theorem sibling_of_ne {ext : List String} {extId name : String} {path : List String} (other : name ≠ extId) :
    Sibling (ext ++ [extId]) (ext ++ name :: path) := by
  have apart : ∀ target, ext ++ [extId] <+: target → ¬ ext ++ name :: path <+: target := by
    rintro target ⟨rest, rfl⟩ below
    rw [List.append_assoc, List.prefix_append_right_inj, List.singleton_append, List.cons_prefix_cons] at below
    exact other below.1
  refine ⟨fun below => ?_, apart⟩
  rw [List.prefix_append_right_inj, List.cons_prefix_cons] at below
  exact other below.1.symm

theorem dest_append (extId : String) (path : List String) :
    env.dest extId ++ path = env.rt.extensionsDir ++ extId :: path := by
  rw [InstallEnv.dest, List.append_assoc, List.singleton_append]

/-- A request that raises before the directory is emptied changes nothing. -/
theorem allOrNothing_of_unchanged {s : Installed} {userId extId : String} (e : HttpError) :
    AllOrNothing env userId extId s s (.error e) where
  succeeds ok := by cases ok
  fails _ _ := ⟨rfl, fun _ _ => rfl⟩
  elsewhere _ _ := rfl

/-- What a failure leaves in the directory. -/
def leftover (dest : List String) (disk : FileMap) (fault : BundleFault) : FileMap :=
  if fault.cleans then disk.rmtree dest else disk

theorem leftover_apply (dest path : List String) (disk : FileMap) (fault : BundleFault) :
    leftover dest disk fault (dest ++ path) = if fault.cleans then none else disk (dest ++ path) := by
  rw [leftover]
  split
  · exact FileMap.rmtree_of_prefix (List.prefix_append _ _)
  · rfl

theorem within_leftover (dest : List String) (disk : FileMap) (fault : BundleFault) :
    Within dest disk (leftover dest disk fault) := by
  rw [leftover]
  split
  · exact within_rmtree dest disk
  · exact .refl dest disk

/-- A failure after that is taken back exactly when it leaves what was there. -/
theorem allOrNothing_fault_iff {s : Installed} {userId extId : String} {disk : FileMap} (e : HttpError)
    (within : Within (env.dest extId) s.disk disk) :
    AllOrNothing env userId extId s { s with disk } (.error e) ↔
      ∀ path, s.disk (env.dest extId ++ path) = disk (env.dest extId ++ path) := by
  constructor
  · intro whole path
    rw [dest_append]
    exact ((whole.fails e rfl).2 extId path).symm
  · intro same
    refine ⟨fun ok => ?_, fun _ _ => ⟨rfl, fun name path => ?_⟩, within.contents⟩
    · cases ok
    · by_cases own : name = extId
      · rw [own, ← dest_append]
        exact (same path).symm
      · exact within.siblings _ (sibling_of_ne own)

/-- The installation of a bundle is what it is to be. -/
theorem allOrNothing_of_unpacked {s : Installed} {userId extId : String} {entry : Dict String Json}
    {archive : Except BundleFault (List BundleMember)} {others : List Json}
    (chosen : chooseBundle env userId extId = .ok (entry, archive))
    (cleared : clearDest (env.dest extId) s.disk = some disk)
    (unpacked : unpackBundle env (env.dest extId) disk extId s.registry entry archive = (disk', .ok others)) :
    AllOrNothing env userId extId s ⟨disk', some (some (.arr (others ++ [registryEntry extId entry])))⟩ (.ok ()) := by
  obtain ⟨members, rfl, listed, texts⟩ := unpackBundle_eq_ok unpacked
  have within : Within (env.dest extId) disk disk' := by
    have unpacking := @within_unpackBundle env (env.dest extId) disk extId s.registry entry (.ok members)
    rwa [unpacked] at unpacking
  constructor
  case succeeds =>
    refine fun _ => ⟨entry, members, chosen, fun path => ?_, filter_otherEntries entry listed⟩
    rw [texts, contentAt_clearDest cleared (List.prefix_append _ _), Option.or_none]
  case fails =>
    intro e failed
    cases failed
  case elsewhere => exact ((within_clearDest cleared).trans within).contents

/-- A request is all or nothing exactly when it is refused in time, installs the bundle, or leaves what was
there. -/
theorem all_or_nothing_iff (env : InstallEnv) (s : Installed) (userId extId : String) :
    AllOrNothing env userId extId s (adminInstallExtension env s userId extId).1
      (adminInstallExtension env s userId extId).2 ↔ Harmless env userId extId s := by
  cases chosen : chooseBundle env userId extId with
  | error e =>
    have result : adminInstallExtension env s userId extId = (s, .error e) := by
      rw [adminInstallExtension, chosen]
    rw [result]
    refine iff_of_true (allOrNothing_of_unchanged e) fun entry members disk other => ?_
    cases chosen.symm.trans other
  | ok choice =>
    obtain ⟨entry, archive⟩ := choice
    cases cleared : clearDest (env.dest extId) s.disk with
    | none =>
      have result : adminInstallExtension env s userId extId = (s, .error .internal) := by
        rw [adminInstallExtension, chosen]
        simp only [cleared]
      rw [result]
      refine iff_of_true (allOrNothing_of_unchanged .internal) fun entry members disk _ other => ?_
      cases cleared.symm.trans other
    | some disk =>
      have harmless : Harmless env userId extId s ↔
          ∀ fault, (unpackBundle env (env.dest extId) disk extId s.registry entry archive).2 = .error fault →
            ∀ path, s.disk (env.dest extId ++ path) = if fault.cleans then none
              else (unpackBundle env (env.dest extId) disk extId s.registry entry archive).1 (env.dest extId ++ path) := by
        constructor
        · exact fun h => h entry archive disk chosen cleared
        · intro h entry' archive' disk' chosen' cleared'
          cases chosen.symm.trans chosen'
          cases cleared.symm.trans cleared'
          exact h
      rw [harmless]
      have within : Within (env.dest extId) s.disk
          (unpackBundle env (env.dest extId) disk extId s.registry entry archive).1 :=
        (within_clearDest cleared).trans (within_unpackBundle _ _ _ _ _ _)
      cases unpacked : unpackBundle env (env.dest extId) disk extId s.registry entry archive with
      | mk left outcome =>
        rw [unpacked] at within
        cases outcome with
        | error fault =>
          have result : adminInstallExtension env s userId extId =
              ({ s with disk := leftover (env.dest extId) left fault }, .error (fault.error env.rt)) := by
            rw [adminInstallExtension, chosen]
            simp only [cleared, unpacked]
            rfl
          rw [result, allOrNothing_fault_iff _ (within.trans (within_leftover _ left fault))]
          simp only [leftover_apply, Except.error.injEq, forall_eq']
        | ok others =>
          have result : adminInstallExtension env s userId extId =
              (⟨left, some (some (.arr (others ++ [registryEntry extId entry])))⟩, .ok ()) := by
            rw [adminInstallExtension, chosen]
            simp only [cleared, unpacked]
          rw [result]
          refine iff_of_true (allOrNothing_of_unpacked chosen cleared unpacked) fun fault failed => ?_
          cases failed

/-! ## An unsafe name -/

/-- Where a name leads when no link is on the way. -/
def plainResolve (dest : List String) (name : String) : List String :=
  LexicalPath.follow (if name.toList.head? = some '/' then [] else dest) (segments name)

/-- A catalog whose bundle for `com.demo` holds a new page and a name that leads out of the directory. -/
def hostileEnv : InstallEnv where
  config := { adminUserIds := ["@admin:host"] }
  catalog := .ok (.obj [("extensions", .arr [.obj [("id", .str "com.demo"), ("bundle_url", .str "https://h/demo.zip")]])])
  download _ := .ok ⟨200, .ok [⟨"index.html", .whole "new"⟩, ⟨"../com.other/index.html", .whole "evil"⟩]⟩
  resolve := plainResolve

/-- The page of an earlier version. -/
def demoInstalled : Installed where
  disk path :=
    if path = ["data", "extensions", "com.demo", "index.html"] then some (.file "old")
    else if path <+: ["data", "extensions", "com.demo"] then some .directory
    else none
  registry := some (some (.arr [.obj [("id", .str "com.demo"), ("version", .str "1")]]))

/-- The request is refused, and the page of the earlier version is gone. -/
theorem unsafe_name_keeps_half : (adminInstallExtension hostileEnv demoInstalled "@admin:host" "com.demo").2 =
      .error ⟨400, "Bundle contains unsafe path: ", none⟩ ∧
    (adminInstallExtension hostileEnv demoInstalled "@admin:host" "com.demo").1.disk.contentAt
      ["data", "extensions", "com.demo", "index.html"] = some "new" ∧
    ¬ AllOrNothing hostileEnv "@admin:host" "com.demo" demoInstalled
      (adminInstallExtension hostileEnv demoInstalled "@admin:host" "com.demo").1
      (adminInstallExtension hostileEnv demoInstalled "@admin:host" "com.demo").2 := by
  have refused : (adminInstallExtension hostileEnv demoInstalled "@admin:host" "com.demo").2 =
      .error ⟨400, "Bundle contains unsafe path: ", none⟩ := by decide
  have page : (adminInstallExtension hostileEnv demoInstalled "@admin:host" "com.demo").1.disk.contentAt
      ["data", "extensions", "com.demo", "index.html"] = some "new" := by decide
  refine ⟨refused, page, fun whole => ?_⟩
  have kept : (adminInstallExtension hostileEnv demoInstalled "@admin:host" "com.demo").1.disk.contentAt
      ["data", "extensions", "com.demo", "index.html"] = some "old" :=
    congrArg (fun node : Option FileMap.Node => node.bind FileMap.Node.content)
      ((whole.fails _ refused).2 "com.demo" ["index.html"])
  exact absurd (page.symm.trans kept) (by decide)

end Concorrd.Api
