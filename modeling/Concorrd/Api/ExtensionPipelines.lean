import Concorrd.Lib.Run
import Concorrd.Api.ExtensionRegistry

/-!
# The two install pipelines

The older pipeline unpacks a bundle of the remote catalog into the directory of the extension and lists
it in `installed_extensions.json`; the newer one keeps a row with the manifest. At boot the file is
loaded, and each entry without a row gets one that grants nothing. What a row grants is declared by the
bundle in the directory, and what was uninstalled stays so, as long as neither pipeline touches what
the other has installed (`pipelines_of_apart`).
-/

namespace Concorrd.Api

open Machine

/-- An entry of the static catalog. -/
structure ExtensionDef where
  id : String
  name : String
  url : String
  icon : String := "extension"
  description : String := ""
  enabled : Bool := true
  deriving DecidableEq, Repr

/-- A member of an object, or what stands for it where the key is absent. -/
def stringOr (members : Dict String Json) (key : String) (absent : Option String) : Option String :=
  match Dict.get members key with
  | none => absent
  | some value => value.asStr

def boolOr (members : Dict String Json) (key : String) (absent : Bool) : Option Bool :=
  match Dict.get members key with
  | none => some absent
  | some value => value.asBool

/-- An entry as it stands in the file. -/
def ExtensionDef.read : Json → Option ExtensionDef
  | .obj members => do
    let id ← stringOr members "id" none
    let name ← stringOr members "name" none
    let url ← stringOr members "url" none
    let icon ← stringOr members "icon" (some "extension")
    let description ← stringOr members "description" (some "")
    let enabled ← boolOr members "enabled" true
    return { id, name, url, icon, description, enabled }
  | _ => none

/-- The entries of the file, unless one of them cannot be read. -/
def loadCatalog (registry : Option Json) : List ExtensionDef :=
  match registry with
  | some (.arr entries) => (entries.mapM ExtensionDef.read).getD []
  | _ => []

/-- The manifest that an entry of the static catalog is given. -/
def ExtensionDef.synthesized (e : ExtensionDef) : Dict String Json :=
  let root := "/ext/" ++ e.id ++ "/"
  let tail := if root.toList <+: e.url.toList then
      Document.strip (String.ofList (e.url.toList.drop root.length))
    else ""
  [("id", .str e.id), ("version", .str "0.0.0"),
    ("entry", .str (if tail = "" then "index.html" else tail)), ("permissions", .arr []),
    ("name", .str e.name), ("description", .str e.description), ("icon", .str e.icon),
    ("pricing", .str "free")]

/-- The row that an entry of the static catalog is given. -/
def ExtensionDef.row (e : ExtensionDef) : ExtensionRow where
  version := "0.0.0"
  pricing := "free"
  manifest := some (.obj e.synthesized)

/-! ## The listing -/

structure ExtensionOut where
  id : String
  name : String
  url : String
  icon : String
  description : String
  permissions : List String := []
  deriving DecidableEq, Repr

/-- The strings that iterating over the value gives. What is not iterable raises. -/
def stringsIn : Json → Option (List String)
  | .arr items => some (items.filterMap Json.asStr)
  | .str text => some (text.toList.map fun c => String.ofList [c])
  | .obj members => some (Dict.keys members)
  | value => if truthy value then none else some []

/-- A row as clients are told of it. A manifest of another shape raises. -/
def extensionToListing (id : String) (row : ExtensionRow) : Option ExtensionOut :=
  match row.manifest.getD (.obj []) with
  | .obj members => do
    let entry ← stringOr members "entry" (some "index.html")
    let permissions ← stringsIn ((Dict.get members "permissions").getD .null)
    let name ← stringOr members "name" (some id)
    let icon ← stringOr members "icon" (some "extension")
    let description ← stringOr members "description" (some "")
    return { id, name, url := "/ext/" ++ id ++ "/" ++ entry, icon, description, permissions }
  | _ => none

def ExtensionDef.listing (e : ExtensionDef) : ExtensionOut where
  id := e.id
  name := e.name
  url := e.url
  icon := e.icon
  description := e.description

/-- What the proxy enforces. -/
def manifestHasPermission (manifest : Json) (perm : String) : Bool :=
  match manifest with
  | .obj members =>
    match Dict.get members "permissions" with
    | some (.arr items) => perm ∈ items.filterMap Json.asStr
    | _ => false
  | _ => false

/-! ## The pipelines -/

/-- The rows, the directories, the file, and the catalog that was loaded from it. `uninstalled` lists
the extensions that were uninstalled and not installed again. -/
structure Pipelines where
  rows : Dict String ExtensionRow := []
  dirs : String → Option Tree := fun _ => none
  registry : Option Json := none
  catalog : List ExtensionDef := []
  uninstalled : List String := []

/-- A request or a boot, with the entry of the remote catalog and the bundle it meets. -/
inductive PipelineOp where
  | boot
  | adminInstall (extId : String) (entry : Dict String Json) (archive : Archive)
  | adminUninstall (extId : String)
  | install (remoteUrl : String) (archive : Archive)
  | uninstall (extId : String)

variable (rt : Runtime)

def sanitizeId (extId : String) : Except HttpError Unit := do
  refuse (extId = "") ⟨400, "Missing extension_id", none⟩
  refuse (extId.toList.any fun c => c = '/' || c = '\\' || c = '\x00')
    ⟨400, "Invalid extension_id", none⟩
  refuse (extId.toList.head? = some '.') ⟨400, "Invalid extension_id", none⟩
  refuse ((rt.lower extId).toList.any fun c => c ∉ "abcdefghijklmnopqrstuvwxyz0123456789.-_".toList)
    ⟨400, "Invalid extension_id", none⟩

/-- Write one member below the directory, wherever its path goes within. -/
def adminUnpackMember (dest : List String) (t : Tree) (m : ZipMember) : Except UnpackFault Tree :=
  if m.isDir then .ok t
  else
    let start := if m.filename.toList.head? = some '/' then [] else dest
    let target := LexicalPath.follow start (segments m.filename)
    if dest <+: target then copyMember t (target.drop dest.length) m.contents
    else .error (.unsafeEntry m.filename)

def adminUnpack (dest : List String) (archive : Archive) : Except UnpackFault Tree :=
  match archive with
  | none => .error .notZip
  | some members => members.foldlM (adminUnpackMember dest) {}

/-- A value of the catalog, unless it counts as false. -/
def orElse (entry : Dict String Json) (key : String) (absent : String) : Json :=
  match Dict.get entry key with
  | some value => if truthy value then value else .str absent
  | none => .str absent

/-- The entry file is there. A path that leaves the directory is looked up wherever it leads. -/
def hasEntry (tree : Tree) (file : String) : Bool :=
  if file.toList.head? = some '/' ∨ ".." ∈ segments file then rt.exists' file
  else tree.Has (segments file)

/-- What the file says of an extension that was installed. -/
def registryEntry (extId : String) (entry : Dict String Json) : Json :=
  .obj [("id", .str extId), ("name", orElse entry "name" extId),
    ("url", .str ("/ext/" ++ extId ++ "/")), ("icon", .str "extension"),
    ("description", orElse entry "description" ""), ("version", orElse entry "version" ""),
    ("enabled", .bool true)]

def Json.isObj : Json → Bool
  | .obj _ => true
  | _ => false

def entryId? : Json → Option String
  | .obj members => (Dict.get members "id").bind Json.asStr
  | _ => none

def entriesOf (registry : Option Json) : List Json := (registry.map Json.items).getD []

/-- The entries of the file without those of the extension. An entry that is no object raises. -/
def otherEntries (registry : Option Json) (extId : String) : Option (List Json) :=
  if (entriesOf registry).all Json.isObj then
    some ((entriesOf registry).filter fun entry => entryId? entry ≠ some extId)
  else none

namespace Pipelines

variable (s : Pipelines)

/-- Insert a row for each entry of the catalog without one. Two for one id do not fit in. -/
def migrateStaticCatalog : Option Pipelines :=
  let new := s.catalog.filter fun e => e.id ∉ s.rows.keys
  if (new.map ExtensionDef.id).Nodup then
    some { s with rows := s.rows ++ new.map fun e => (e.id, e.row) }
  else none

def initCatalog : Pipelines := { s with catalog := loadCatalog s.registry }

/-- Write the file and load it again. -/
def writeRegistry (entries : List Json) : Pipelines :=
  { s with registry := some (.arr entries) }.initCatalog

def setDir (extId : String) (tree : Option Tree) : Pipelines :=
  { s with dirs := Function.update s.dirs extId tree }

def setUninstalled (extId : String) : Pipelines := { s with uninstalled := extId :: s.uninstalled }

def setInstalled (extId : String) : Pipelines :=
  { s with uninstalled := s.uninstalled.filter fun id => id ≠ extId }

def adminInstall (extId : String) (entry : Dict String Json) (archive : Archive) : Option Pipelines :=
  match sanitizeId rt extId, adminUnpack (rt.extensionsDir ++ [extId]) archive,
      orElse entry "entry" "index.html", otherEntries s.registry extId with
  | .ok _, .ok tree, .str file, some others =>
    if hasEntry rt tree file then
      some (((s.setDir extId (some tree)).writeRegistry
        (others ++ [registryEntry extId entry])).setInstalled extId)
    else none
  | _, _, _, _ => none

def adminUninstall (extId : String) : Option Pipelines :=
  match sanitizeId rt extId, otherEntries s.registry extId with
  | .ok _, some others => some (((s.setDir extId none).writeRegistry others).setUninstalled extId)
  | _, _ => none

def install (remoteUrl : String) (archive : Archive) : Option Pipelines :=
  match unpackZip rt (rt.extensionsDir ++ [".staging"]) archive with
  | .error _ => none
  | .ok (tree, raw) =>
    match validateManifest rt raw with
    | .error _ => none
    | .ok manifest =>
      let existing := s.rows.get manifest.id
      (storedRow existing existing (manifest.row remoteUrl)).map fun row =>
        { s.setDir manifest.id (some tree) with
          rows := s.rows.set manifest.id row }.setInstalled manifest.id

def uninstall (extId : String) : Option Pipelines :=
  if isValidExtensionId rt extId = false ∨ s.rows.get extId = none then none
  else some ({ s.setDir extId none with rows := s.rows.pop extId }.setUninstalled extId)

/-- What a boot or a request makes of it, if it succeeds. -/
def apply : PipelineOp → Option Pipelines
  | .boot => s.initCatalog.migrateStaticCatalog
  | .adminInstall extId entry archive => s.adminInstall rt extId entry archive
  | .adminUninstall extId => s.adminUninstall rt extId
  | .install remoteUrl archive => s.install rt remoteUrl archive
  | .uninstall extId => s.uninstall rt extId

def step (op : PipelineOp) : Pipelines := (s.apply rt op).getD s

def listExtensions : Option (List ExtensionOut) := do
  let dbRows := s.rows.filter fun e => e.2.enabled
  let out ← dbRows.mapM fun e => extensionToListing e.1 e.2
  return out ++ (s.catalog.filter fun e => e.enabled ∧ e.id ∉ Dict.keys dbRows).map
    ExtensionDef.listing

/-! ## What is asked of them -/

/-- Each permission of a row is declared by the bundle in the directory. -/
def Declared : Prop := ∀ id row manifest perm, s.rows.get id = some row →
  row.manifest = some manifest → manifestHasPermission manifest perm = true →
    ∃ tree raw, s.dirs id = some tree ∧ readManifest rt tree = .ok raw ∧
      manifestHasPermission raw perm = true

/-- The listing shows nothing that was uninstalled, nothing twice, and nothing that is disabled. -/
structure ListsWell : Prop where
  gone : ∀ out, s.listExtensions = some out → ∀ id ∈ s.uninstalled, id ∉ out.map ExtensionOut.id
  once : ∀ out, s.listExtensions = some out → (out.map ExtensionOut.id).Nodup
  enabled : ∀ out, s.listExtensions = some out → ∀ id ∈ out.map ExtensionOut.id,
    ∀ row, s.rows.get id = some row → row.enabled = true

/-- The ids in the file. -/
def registered : List String := (entriesOf s.registry).filterMap entryId?

/-- The older pipeline installs over a row only a bundle that declares what the row grants, and
uninstalls nothing that has a row; the newer one uninstalls nothing that is in the file. -/
def Apart : PipelineOp → Prop
  | .adminInstall extId _ archive => ∀ row manifest perm tree, s.rows.get extId = some row →
    row.manifest = some manifest → manifestHasPermission manifest perm = true →
      adminUnpack (rt.extensionsDir ++ [extId]) archive = .ok tree →
        ∃ raw, readManifest rt tree = .ok raw ∧ manifestHasPermission raw perm = true
  | .adminUninstall extId => s.rows.get extId = none
  | .uninstall extId => extId ∉ s.registered
  | .boot | .install .. => True

end Pipelines

/-! ## The file and its catalog -/

section

variable {e : ExtensionDef} {entry : Json} {registry : Option Json} {extId : String} {entries : List Json}

theorem entryId?_of_read (h : ExtensionDef.read entry = some e) : entryId? entry = some e.id := by
  cases entry with
  | obj members =>
    simp only [ExtensionDef.read, Option.bind_eq_bind, Option.bind_eq_some_iff] at h
    obtain ⟨id, found, name, -, url, -, icon, -, description, -, enabled, -, same⟩ := h
    cases same
    unfold stringOr at found
    split at found
    · cases found
    · rename_i value there
      show (Dict.get members "id").bind Json.asStr = some id
      rw [there]
      exact found
  | null | bool | num | float | str | arr => cases h

variable (registry) in
/-- The catalog lists what is in the file, or nothing. -/
theorem loadCatalog_ids : loadCatalog registry = [] ∨
    (loadCatalog registry).map ExtensionDef.id = (entriesOf registry).filterMap entryId? := by
  unfold loadCatalog
  split
  · rename_i entries
    cases h : entries.mapM ExtensionDef.read with
    | none => exact .inl rfl
    | some catalog => exact .inr (filterMap_of_mapM (fun _ _ => entryId?_of_read) h).symm
  · exact .inl rfl

theorem mem_of_loadCatalog (mem : e ∈ loadCatalog registry) :
    e.id ∈ (entriesOf registry).filterMap entryId? := by
  rcases loadCatalog_ids registry with empty | same
  · rw [empty] at mem
    cases mem
  · rw [← same]
    exact List.mem_map_of_mem mem

/-- The ids of the others are the other ids. -/
theorem otherEntries_ids (h : otherEntries registry extId = some entries) :
    entries.filterMap entryId? =
      ((entriesOf registry).filterMap entryId?).filter fun id => id ≠ extId := by
  unfold otherEntries at h
  split at h
  · cases h
    induction entriesOf registry with
    | nil => rfl
    | cons entry entries ih =>
      rw [List.filter_cons, List.filterMap_cons]
      cases there : entryId? entry with
      | none =>
        simp only [reduceCtorEq, ne_eq, not_false_eq_true, decide_true, if_true]
        rw [List.filterMap_cons, there]
        exact ih
      | some id =>
        by_cases own : id = extId
        · simp only [own, ne_eq, not_true_eq_false, decide_false, Bool.false_eq_true, if_false,
            List.filter_cons]
          exact ih
        · simp only [Option.some.injEq, ne_eq, own, not_false_eq_true, decide_true, if_true,
            List.filter_cons]
          rw [List.filterMap_cons, there]
          exact congrArg (id :: ·) ih
  · cases h

end

/-- A value that is a list of strings grants the strings in it. -/
theorem mem_of_stringsOf {value : Json} {perms : List String} (h : stringsOf value = some perms) :
    ∃ items, value = .arr items ∧ items.filterMap Json.asStr = perms := by
  cases value with
  | arr items =>
    refine ⟨items, rfl, ?_⟩
    rw [filterMap_of_mapM (g := id) (fun _ _ read => read) h, List.map_id]
  | null | bool | num | float | str | obj => cases h

theorem grants_iff {members : Dict String Json} {items : List Json} {perm : String}
    (there : members.get "permissions" = some (.arr items)) :
    manifestHasPermission (.obj members) perm = true ↔ perm ∈ items.filterMap Json.asStr := by
  rw [manifestHasPermission, there, decide_eq_true_eq]

/-- What is stored of a manifest grants what the manifest declares. -/
theorem manifestHasPermission_of_valid {rt : Runtime} {raw : Json} {m : Manifest} {perm : String}
    (valid : validateManifest rt raw = .ok m)
    (grants : manifestHasPermission (.obj m.members) perm = true) :
    manifestHasPermission raw perm = true := by
  obtain ⟨members, rfl, -, strings, -, stored⟩ := validateManifest_ok valid
  have kept : Dict.get m.members "permissions" = some (.arr (m.permissions.map .str)) := by
    rw [stored, Dict.get_set_of_ne (by decide), Dict.get_set_self]
  have listed : perm ∈ m.permissions := by
    obtain ⟨item, mem, read⟩ := List.mem_filterMap.mp ((grants_iff kept).mp grants)
    obtain ⟨perm', declared, rfl⟩ := List.mem_map.mp mem
    cases read
    exact declared
  obtain ⟨items, value, same⟩ := mem_of_stringsOf strings
  rw [← same] at listed
  cases there : Dict.get members "permissions" with
  | none =>
    rw [there] at value
    cases value
    cases listed
  | some declared =>
    rw [there] at value
    cases value
    exact (grants_iff there).mpr listed

namespace Pipelines

variable {rt : Runtime} {s s' : Pipelines}

/-- Rows have distinct ids, are enabled and declared, the catalog is what the file says, the file names
nothing twice, and neither names what was uninstalled. -/
structure Sound (rt : Runtime) (s : Pipelines) : Prop where
  keys : s.rows.keys.Nodup
  enabled : ∀ id row, s.rows.get id = some row → row.enabled = true
  declared : s.Declared rt
  current : s.catalog = loadCatalog s.registry
  distinct : s.registered.Nodup
  gone : ∀ id ∈ s.uninstalled, s.rows.get id = none ∧ id ∉ s.registered

/-! ### The listing -/

theorem extensionToListing_id {id : String} {row : ExtensionRow} {out : ExtensionOut}
    (h : extensionToListing id row = some out) : out.id = id := by
  unfold extensionToListing at h
  split at h
  · simp only [Option.bind_eq_bind, Option.bind_eq_some_iff] at h
    obtain ⟨entry, -, permissions, -, name, -, icon, -, description, -, same⟩ := h
    cases same
    rfl
  · cases h

/-- What is listed are the rows that are enabled, and the entries of the catalog besides. -/
theorem listExtensions_ids {out : List ExtensionOut} (h : s.listExtensions = some out) :
    out.map ExtensionOut.id = Dict.keys (s.rows.filter fun e => e.2.enabled) ++
      (s.catalog.filter fun e =>
        e.enabled ∧ e.id ∉ Dict.keys (s.rows.filter fun e => e.2.enabled)).map ExtensionDef.id := by
  obtain ⟨out', listed, h⟩ := Option.bind_eq_some_iff.mp h
  cases h
  have ids := filterMap_of_mapM (g := ExtensionOut.id) (k := fun e : String × ExtensionRow => some e.1)
    (fun e out read => congrArg some (extensionToListing_id read).symm) listed
  rw [List.map_append, ← ids, List.map_map, List.filterMap_eq_map']
  rfl

theorem Sound.listsWell (h : s.Sound rt) : s.ListsWell := by
  have sub : (Dict.keys (s.rows.filter fun e => e.2.enabled)).Sublist s.rows.keys :=
    List.filter_sublist.map Prod.fst
  refine ⟨fun out listed id gone mem => ?_, fun out listed => ?_, fun out listed id mem row => ?_⟩
  · rw [listExtensions_ids listed] at mem
    obtain ⟨row, file⟩ := h.gone id gone
    rcases List.mem_append.mp mem with mem | mem
    · exact Dict.get_eq_none_iff.mp row (sub.subset mem)
    · obtain ⟨e, there, rfl⟩ := List.mem_map.mp mem
      have loaded := List.mem_of_mem_filter there
      rw [h.current] at loaded
      exact file (mem_of_loadCatalog loaded)
  · rw [listExtensions_ids listed]
    refine List.nodup_append.mpr ⟨h.keys.sublist sub, ?_, fun id mem id' mem' same => ?_⟩
    · refine List.Nodup.sublist (List.filter_sublist.map ExtensionDef.id) ?_
      rw [h.current]
      rcases loadCatalog_ids s.registry with empty | same
      · rw [empty]
        exact List.nodup_nil
      · rw [same]
        exact h.distinct
    · obtain ⟨e, there, rfl⟩ := List.mem_map.mp mem'
      have apart := (of_decide_eq_true (List.mem_filter.mp there).2).2
      exact apart (same ▸ mem)
  · exact h.enabled id row

/-! ### What each operation keeps -/

theorem sound_boot (h : s.Sound rt) (done : s.initCatalog.migrateStaticCatalog = some s') :
    s'.Sound rt := by
  have same : s.initCatalog = s := by
    rw [initCatalog, ← h.current]
  rw [same, migrateStaticCatalog] at done
  split at done
  · rename_i distinct
    cases done
    have names : Dict.keys ((s.catalog.filter fun e => e.id ∉ s.rows.keys).map fun e => (e.id, e.row)) =
        (s.catalog.filter fun e => e.id ∉ s.rows.keys).map ExtensionDef.id := by
      rw [Dict.keys, List.map_map]
      rfl
    have fresh {id : String} {row : ExtensionRow}
        (found : Dict.get ((s.catalog.filter fun e => e.id ∉ s.rows.keys).map fun e => (e.id, e.row))
          id = some row) : ∃ e : ExtensionDef, row = e.row := by
      obtain ⟨e, -, same⟩ := List.mem_map.mp (Dict.mem_of_get found)
      cases same
      exact ⟨e, rfl⟩
    refine ⟨?_, fun id row found => ?_, fun id row manifest perm found stored grants => ?_, h.current,
      h.distinct, fun id gone => ⟨?_, (h.gone id gone).2⟩⟩
    · rw [Dict.keys, List.map_append]
      refine List.nodup_append.mpr ⟨h.keys, names.symm.subst distinct, fun id mem id' mem' same => ?_⟩
      replace mem' : id' ∈ Dict.keys _ := mem'
      rw [names] at mem'
      obtain ⟨e, there, rfl⟩ := List.mem_map.mp mem'
      exact of_decide_eq_true (List.mem_filter.mp there).2 (same ▸ mem)
    · rw [Dict.get_append] at found
      rcases Option.or_eq_some_iff.mp found with old | ⟨-, new⟩
      · exact h.enabled id row old
      · obtain ⟨e, rfl⟩ := fresh new
        rfl
    · rw [Dict.get_append] at found
      rcases Option.or_eq_some_iff.mp found with old | ⟨-, new⟩
      · exact h.declared id row manifest perm old stored grants
      · obtain ⟨e, rfl⟩ := fresh new
        cases stored
        cases grants
    · obtain ⟨row, file⟩ := h.gone id gone
      rw [Dict.get_append, row, Option.none_or, Dict.get_eq_none_iff, names]
      intro mem
      obtain ⟨e, there, rfl⟩ := List.mem_map.mp mem
      have loaded := List.mem_of_mem_filter there
      rw [h.current] at loaded
      exact file (mem_of_loadCatalog loaded)
  · cases done

/-- Directories of others are as they were. -/
theorem Declared.setDir {extId : String} {tree : Option Tree} (h : s.Declared rt)
    (own : ∀ row manifest perm, s.rows.get extId = some row → row.manifest = some manifest →
      manifestHasPermission manifest perm = true → ∃ bundle raw, tree = some bundle ∧
        readManifest rt bundle = .ok raw ∧ manifestHasPermission raw perm = true) :
    (s.setDir extId tree).Declared rt := by
  intro id row manifest perm found stored grants
  by_cases same : id = extId
  · subst same
    obtain ⟨bundle, raw, there, declared⟩ := own row manifest perm found stored grants
    exact ⟨bundle, raw, (Function.update_self ..).trans there, declared⟩
  · obtain ⟨bundle, raw, there, declared⟩ := h id row manifest perm found stored grants
    exact ⟨bundle, raw, (Function.update_of_ne same ..).trans there, declared⟩

theorem sound_adminInstall (h : s.Sound rt) {extId : String} {entry : Dict String Json}
    {archive : Archive} (apart : s.Apart rt (.adminInstall extId entry archive))
    (done : s.adminInstall rt extId entry archive = some s') : s'.Sound rt := by
  unfold adminInstall at done
  split at done
  · rename_i tree file others _ unpacked _ listed
    split at done
    · cases done
      have ids : ((others ++ [registryEntry extId entry]).filterMap entryId?) =
          s.registered.filter (fun id => id ≠ extId) ++ [extId] := by
        rw [List.filterMap_append, otherEntries_ids listed]
        rfl
      refine ⟨h.keys, h.enabled, ?_, rfl, ?_, fun id gone => ?_⟩
      · refine h.declared.setDir fun row manifest perm found stored grants => ?_
        obtain ⟨raw, read, declared⟩ := apart row manifest perm tree found stored grants unpacked
        exact ⟨tree, raw, rfl, read, declared⟩
      · show ((others ++ [registryEntry extId entry]).filterMap entryId?).Nodup
        rw [ids]
        refine List.nodup_append.mpr ⟨h.distinct.filter _, List.nodup_singleton _, ?_⟩
        intro id mem id' mem' same
        rw [List.mem_singleton.mp mem'] at same
        exact of_decide_eq_true (List.mem_filter.mp mem).2 same
      · obtain ⟨gone, other⟩ := List.mem_filter.mp gone
        obtain ⟨row, file⟩ := h.gone id gone
        refine ⟨row, ?_⟩
        show id ∉ ((others ++ [registryEntry extId entry]).filterMap entryId?)
        rw [ids, List.mem_append, List.mem_singleton, not_or]
        exact ⟨fun mem => file (List.mem_of_mem_filter mem), of_decide_eq_true other⟩
    · cases done
  · cases done

theorem sound_adminUninstall (h : s.Sound rt) {extId : String} (apart : s.rows.get extId = none)
    (done : s.adminUninstall rt extId = some s') : s'.Sound rt := by
  unfold adminUninstall at done
  split at done
  · rename_i others _ listed
    cases done
    have ids : others.filterMap entryId? = s.registered.filter (fun id => id ≠ extId) :=
      otherEntries_ids listed
    refine ⟨h.keys, h.enabled, ?_, rfl, ?_, fun id gone => ?_⟩
    · refine h.declared.setDir fun row manifest perm found => ?_
      rw [apart] at found
      cases found
    · show (others.filterMap entryId?).Nodup
      rw [ids]
      exact h.distinct.filter _
    · show s.rows.get id = none ∧ id ∉ others.filterMap entryId?
      rw [ids]
      rcases List.mem_cons.mp gone with rfl | gone
      · exact ⟨apart, fun mem => of_decide_eq_true (List.mem_filter.mp mem).2 rfl⟩
      · obtain ⟨row, file⟩ := h.gone id gone
        exact ⟨row, fun mem => file (List.mem_of_mem_filter mem)⟩
  · cases done

/-- A row that an install stores is enabled when the one before it was. -/
theorem enabled_of_storedRow {existing : Option ExtensionRow} {m : Manifest} {remoteUrl : String}
    {row : ExtensionRow} (before : ∀ old, existing = some old → old.enabled = true)
    (stored : storedRow existing existing (m.row remoteUrl) = some row) : row.enabled = true := by
  cases existing with
  | none =>
    cases stored
    rfl
  | some old =>
    cases stored
    exact before old rfl

theorem sound_install (h : s.Sound rt) {remoteUrl : String} {archive : Archive}
    (done : s.install rt remoteUrl archive = some s') : s'.Sound rt := by
  unfold install at done
  split at done
  · cases done
  · rename_i tree raw unpacked
    split at done
    · cases done
    · rename_i manifest valid
      obtain ⟨row, stored, rfl⟩ := Option.map_eq_some_iff.mp done
      obtain ⟨row', stored', kept⟩ :=
        Registry.storedRow_self (s.rows.get manifest.id) (manifest.row remoteUrl)
      cases stored.symm.trans stored'
      refine ⟨Dict.nodup_set h.keys, fun id row' found => ?_,
        fun id row' manifest' perm found has grants => ?_, h.current, h.distinct, fun id gone => ?_⟩
      · by_cases own : id = manifest.id
        · subst own
          cases Dict.get_set_self.symm.trans found
          exact enabled_of_storedRow (h.enabled _) stored
        · exact h.enabled id row' ((Dict.get_set_of_ne own).symm.trans found)
      · by_cases own : id = manifest.id
        · subst own
          cases Dict.get_set_self.symm.trans found
          cases kept.symm.trans has
          exact ⟨tree, raw, Function.update_self .., readManifest_of_unpackZip unpacked,
            manifestHasPermission_of_valid valid grants⟩
        · obtain ⟨bundle, raw', there, declared⟩ :=
            h.declared id row' manifest' perm ((Dict.get_set_of_ne own).symm.trans found) has grants
          exact ⟨bundle, raw', (Function.update_of_ne own ..).trans there, declared⟩
      · obtain ⟨gone, other⟩ := List.mem_filter.mp gone
        obtain ⟨row', file⟩ := h.gone id gone
        exact ⟨(Dict.get_set_of_ne (of_decide_eq_true other)).trans row', file⟩

theorem sound_uninstall (h : s.Sound rt) {extId : String} (apart : extId ∉ s.registered)
    (done : s.uninstall rt extId = some s') : s'.Sound rt := by
  unfold uninstall at done
  split at done
  · cases done
  · cases done
    have other {id : String} {row : ExtensionRow} (found : (s.rows.pop extId).get id = some row) :
        id ≠ extId ∧ s.rows.get id = some row := by
      have ne : id ≠ extId := by
        rintro rfl
        cases Dict.get_pop_self.symm.trans found
      exact ⟨ne, (Dict.get_pop_of_ne ne).symm.trans found⟩
    refine ⟨Dict.nodup_pop h.keys, fun id row found => h.enabled id row (other found).2,
      fun id row manifest perm found stored grants => ?_, h.current, h.distinct, fun id gone => ?_⟩
    · obtain ⟨ne, found⟩ := other found
      obtain ⟨bundle, raw, there, declared⟩ := h.declared id row manifest perm found stored grants
      exact ⟨bundle, raw, (Function.update_of_ne ne ..).trans there, declared⟩
    · by_cases own : id = extId
      · subst own
        exact ⟨Dict.get_pop_self, apart⟩
      · obtain ⟨row, file⟩ := h.gone id ((List.mem_cons.mp gone).resolve_left own)
        exact ⟨(Dict.get_pop_of_ne own).trans row, file⟩

theorem sound_apply (h : s.Sound rt) {op : PipelineOp} (apart : s.Apart rt op)
    (done : s.apply rt op = some s') : s'.Sound rt := by
  cases op with
  | boot => exact sound_boot h done
  | adminInstall extId entry archive => exact sound_adminInstall h apart done
  | adminUninstall extId => exact sound_adminUninstall h apart done
  | install remoteUrl archive => exact sound_install h done
  | uninstall extId => exact sound_uninstall h apart done

/-- In every run of boots and requests that succeed, each permission of a row is declared by the bundle
in the directory, and the listing shows nothing that was uninstalled, nothing twice and nothing
disabled, as long as each pipeline leaves alone what the other has installed. -/
theorem pipelines_of_apart (rt : Runtime) (ops : List PipelineOp)
    (apart : Along (step rt) (fun s op => (s.apply rt op).isSome ∧ s.Apart rt op) {} ops) :
    (run (step rt) {} ops).Declared rt ∧ (run (step rt) {} ops).ListsWell := by
  have fresh : ({} : Pipelines).Sound rt := by
    refine ⟨List.nodup_nil, ?_, ?_, rfl, List.nodup_nil, ?_⟩
    · rintro id row ⟨⟩
    · rintro id row manifest perm ⟨⟩
    · rintro id ⟨⟩
  have sound : (run (step rt) {} ops).Sound rt := by
    refine invariant (Sound rt) (fun s op did h => ?_) apart fresh
    obtain ⟨s', done⟩ := Option.isSome_iff_exists.mp did.1
    rw [step, done]
    exact sound_apply h did.2 done
  exact ⟨sound.declared, sound.listsWell⟩

theorem pipelines_one_install :
    (run (step Registry.demoRuntime) {} [.boot, .install "https://h/demo.zip"
      (Registry.demoBundle "2"), .boot]).Declared Registry.demoRuntime := by
  refine (pipelines_of_apart Registry.demoRuntime _ ?_).1
  exact ⟨⟨by decide, trivial⟩, ⟨by decide, trivial⟩, ⟨by decide, trivial⟩, trivial⟩

/-- A bundle without any manifest is put under a row that grants the outside. And what was installed,
migrated and uninstalled is still listed. -/
theorem pipelines_cross : ∃ (rt : Runtime) (ops ops' : List PipelineOp),
    Along (step rt) (fun s op => (s.apply rt op).isSome = true) {} ops ∧
      ¬(run (step rt) {} ops).Declared rt ∧
    Along (step rt) (fun s op => (s.apply rt op).isSome = true) {} ops' ∧
      ¬(run (step rt) {} ops').ListsWell := by
  let page : Archive := some [⟨"index.html", .ok ""⟩]
  let ops : List PipelineOp :=
    [.install "https://h/demo.zip" (Registry.demoBundle "2"), .adminInstall "com.demo" [] page]
  let ops' : List PipelineOp :=
    [.adminInstall "com.demo" [] page, .boot, .adminUninstall "com.demo"]
  refine ⟨Registry.demoRuntime, ops, ops', by decide, fun declared => ?_, by decide,
    fun lists => ?_⟩
  · have grants : ((run (step Registry.demoRuntime) {} ops).rows.get "com.demo").any (fun row =>
        row.manifest.any fun manifest => manifestHasPermission manifest "fetch:external") := by
      decide
    have page : (run (step Registry.demoRuntime) {} ops).dirs "com.demo" =
        some { files := [(["index.html"], "")] } := by decide
    obtain ⟨row, found, grants⟩ := (Option.any_eq_true _ _).mp grants
    obtain ⟨manifest, stored, grants⟩ := (Option.any_eq_true _ _).mp grants
    obtain ⟨tree, raw, there, read, -⟩ := declared "com.demo" row manifest _ found stored grants
    cases page.symm.trans there
    cases read
  · have listed : ((run (step Registry.demoRuntime) {} ops').listExtensions.getD []).map
        ExtensionOut.id = ["com.demo"] := by decide
    have gone : "com.demo" ∈ (run (step Registry.demoRuntime) {} ops').uninstalled := by
      decide
    cases out : (run (step Registry.demoRuntime) {} ops').listExtensions with
    | none =>
      rw [out] at listed
      cases listed
    | some out' =>
      rw [out] at listed
      exact lists.gone out' out "com.demo" gone (listed ▸ List.mem_cons_self)

end Pipelines

end Concorrd.Api
